import AttributeViews.Proofs.Attribute.StoredForms

/-!
# Setting several times at once

The three times are checked and stored one after the other; there is no transaction across keys.
So a time that is refused keeps itself and those behind it from being stored, but those in front of
it have been.  The posix and the dos view hand their times on to the basic view inside them.

* `IsTime` — what may be given for a time.
* `TimesStored` — a node after some times have been stored on it.
* **`outcome_storeTimes`** — what comes of storing times.
* **`View.times_stored_in_turn`** — what comes of a call, through whatever view.
* **`View.refused_times_half_stored`** — one that fails may have changed the node.
-/

namespace AttributeViews

variable {σ : Type} {times front back : List (String × Value)} {name : String} {value : Value}
  {node node' : Node}

/-- What may be given for a time: nothing, or an aware moment. -/
def IsTime (value : Value) : Prop :=
  value = .null ∨ ∃ m : Moment, m.isAware = true ∧ value = .moment m

/-- The error of a value that is no time. -/
def notTime (name : String) (value : Value) : Error :=
  .invalidType "basic" name value.typeName ["timezone-aware datetime"]

lemma isNull_iff : value.isNull = true ↔ value = .null := by
  cases value <;> simp [Value.isNull]

lemma checkTime_of_isTime (h : IsTime value) (given : value ≠ .null) :
    checkTime "basic" name value = .ok value := by
  obtain ⟨m, hm, rfl⟩ := h.resolve_left given
  exact if_pos hm

lemma checkTime_of_not_isTime (h : ¬ IsTime value) :
    checkTime "basic" name value = .error (notTime name value) := by
  cases value with
  | moment m => exact if_neg fun hm => h (Or.inr ⟨m, hm, rfl⟩)
  | _ => rfl

/-! ## Storing -/

/-- A node after some times have been stored on it: each that is given stands under its own key, and
whatever has another key is unchanged. -/
structure TimesStored (times : List (String × Value)) (node node' : Node) : Prop where
  sameFile : Node.SameFile node node'
  given : ∀ name value, (name, value) ∈ times → value ≠ .null →
    node'.attributes.get? ("basic:" ++ name) = some value
  others : ∀ key,
    (∀ name value, (name, value) ∈ times → value ≠ .null → key ≠ "basic:" ++ name) →
      node'.attributes.get? key = node.attributes.get? key
  /-- Where no time is given, nothing at all has happened. -/
  untouched : (∀ t ∈ times, t.2 = .null) → node' = node

namespace TimesStored

lemma nil : TimesStored [] node node :=
  ⟨.refl node, by simp, fun _ _ => rfl, fun _ => rfl⟩

/-- An absent time leaves its attribute alone. -/
lemma absent (h : TimesStored times node node') :
    TimesStored ((name, .null) :: times) node node' where
  sameFile := h.sameFile
  given := by
    intro name' value hm hv
    rcases List.mem_cons.1 hm with he | hm
    · exact absurd (Prod.mk.inj he).2 hv
    · exact h.given name' value hm hv
  others := fun key apart =>
    h.others key fun name' value hm => apart name' value (List.mem_cons_of_mem _ hm)
  untouched := fun none => h.untouched fun t ht => none t (List.mem_cons_of_mem _ ht)

/-- A time that is stored before times of other names. -/
lemma cons (new : name ∉ times.map Prod.fst) (present : value ≠ .null)
    (h : TimesStored times (node.write ("basic:" ++ name) value) node') :
    TimesStored ((name, value) :: times) node node' where
  sameFile :=
    have written : Node.SameFile node (node.write ("basic:" ++ name) value) := ⟨rfl, rfl, rfl⟩
    written.trans h.sameFile
  given := by
    intro name' value' hm hv
    rcases List.mem_cons.1 hm with he | hm
    · obtain ⟨rfl, rfl⟩ := Prod.mk.inj he
      have apart : ∀ other v, (other, v) ∈ times → v ≠ .null →
          "basic:" ++ name' ≠ "basic:" ++ other := by
        intro other v ho _ he
        rw [String.append_right_inj] at he
        exact new (he ▸ List.mem_map_of_mem ho)
      rw [h.others _ apart, Node.write, Table.get?_insert, if_pos rfl]
    · exact h.given name' value' hm hv
  others := by
    intro key apart
    have hne : key ≠ "basic:" ++ name := apart name value List.mem_cons_self present
    rw [h.others key fun name' value' hm => apart name' value' (List.mem_cons_of_mem _ hm),
      Node.write, Table.get?_insert, if_neg hne.symm]
  untouched := fun none => absurd (none _ List.mem_cons_self) present

end TimesStored

/-- What comes of storing times: all of them are times and have been stored, or one is none and
those in front of it have been stored. -/
inductive TimesOutcome (times : List (String × Value)) (node : Node) : Outcome Node Unit → Prop
  | stored {node' : Node} (accepted : ∀ t ∈ times, IsTime t.2) (h : TimesStored times node node') :
      TimesOutcome times node (node', .ok ())
  | stopped {front back : List (String × Value)} {name : String} {value : Value} {node' : Node}
      (cut : times = front ++ (name, value) :: back) (accepted : ∀ t ∈ front, IsTime t.2)
      (refused : ¬ IsTime value) (h : TimesStored front node node') :
      TimesOutcome times node (node', .error (notTime name value))

/-- A first time that is accepted is followed by the others. -/
lemma TimesOutcome.cons {t : String × Value} {next : Node} {outcome : Outcome Node Unit}
    (accepted : IsTime t.2)
    (first : ∀ {front node'}, front <+: times → TimesStored front next node' →
      TimesStored (t :: front) node node')
    (h : TimesOutcome times next outcome) : TimesOutcome (t :: times) node outcome := by
  cases h with
  | stored all h =>
      exact .stored (List.forall_mem_cons.2 ⟨accepted, all⟩) (first (List.prefix_refl _) h)
  | stopped cut all refused h =>
      have before := cut ▸ List.prefix_append _ _
      exact .stopped (congrArg _ cut) (List.forall_mem_cons.2 ⟨accepted, all⟩) refused
        (first before h)

/-- **Storing times** in turn, by induction on those that are left. -/
lemma outcome_storeTimes (times : List (String × Value)) :
    ∀ node : Node, (times.map Prod.fst).Nodup →
      TimesOutcome times node (storeTimes node times) := by
  induction times with
  | nil => exact fun node _ => .stored (by simp) .nil
  | cons t rest ih =>
      obtain ⟨name, value⟩ := t
      intro node nodup
      rw [List.map_cons, List.nodup_cons] at nodup
      obtain ⟨new, nodup⟩ := nodup
      rw [storeTimes]
      split_ifs with hnull
      · obtain rfl := isNull_iff.1 hnull
        exact (ih node nodup).cons (Or.inl rfl) fun _ h => h.absent
      · have given : value ≠ .null := mt isNull_iff.2 hnull
        by_cases accepted : IsTime value
        · rw [checkTime_of_isTime accepted given]
          exact (ih _ nodup).cons accepted fun before h =>
            h.cons (fun hm => new ((before.map Prod.fst).subset hm)) given
        · rw [checkTime_of_not_isTime accepted]
          exact .stopped (List.nil_append _).symm (by simp) accepted .nil

/-! ## Calls -/

/-- The three times under their names, in the order in which they are stored. -/
def namedTimes (lastModified lastAccess creation : Value) : List (String × Value) :=
  [("lastModifiedTime", lastModified), ("lastAccessTime", lastAccess), ("creationTime", creation)]

namespace View

lemma setting_setTimes {b : BasicView σ} {state : σ} (found : b.lookup.resolve state = .ok node)
    (lastModified lastAccess creation : Value) :
    setting (b.setTimes lastModified lastAccess creation) state =
      (b.lookup.store (storeTimes node (namedTimes lastModified lastAccess creation)).1 state,
        (storeTimes node (namedTimes lastModified lastAccess creation)).2.map fun _ => .done) := by
  rw [setting, BasicView.setTimes, Lookup.run, found]
  rfl

/-- **Setting times through a view**: a basic one, or a posix or dos one with a basic view inside.
Either all times that are given are aware moments; then the call succeeds, every one of them stands
under its own key, and nothing else has changed.  Or one of them is not; then the call fails with
the first such time, those in front of it have been stored in the same way, and nothing else has
changed, so nothing at all if no time was given in front of it. -/
theorem times_stored_in_turn {v : View σ} {b : BasicView σ} {state : σ}
    (has : v.timesView? = some b) (found : b.lookup.resolve state = .ok node)
    (lastModified lastAccess creation : Value) :
    let times := namedTimes lastModified lastAccess creation
    ∃ operation node', v.call? (.setTimes lastModified lastAccess creation) = some operation ∧
      (operation state).1 = b.lookup.store node' state ∧
      (((operation state).2 = .ok .done ∧ (∀ t ∈ times, IsTime t.2) ∧
          TimesStored times node node') ∨
        ∃ front name value back, times = front ++ (name, value) :: back ∧
          (∀ t ∈ front, IsTime t.2) ∧ ¬ IsTime value ∧
          (operation state).2 = .error (notTime name value) ∧ TimesStored front node node') := by
  intro times
  have outcome : TimesOutcome times node (storeTimes node times) :=
    outcome_storeTimes times node (by simp [times, namedTimes])
  have call : v.call? (.setTimes lastModified lastAccess creation)
      = some (setting (b.setTimes lastModified lastAccess creation)) := by
    rw [call?, has]
    rfl
  refine ⟨_, (storeTimes node times).1, call, ?_⟩
  rw [setting_setTimes found]
  refine ⟨rfl, ?_⟩
  generalize storeTimes node times = result at outcome
  cases outcome with
  | stored accepted h => exact Or.inl ⟨rfl, accepted, h⟩
  | stopped cut accepted refused h => exact Or.inr ⟨_, _, _, _, cut, accepted, refused, rfl, h⟩

/-- Through a dos view two of the times are set and the third one is left alone. -/
theorem times_stored_in_turn_dos :
    let spring : Value := .moment ⟨⟨2024, 3, 20⟩, ⟨3, 6, 0, 0⟩, some 0⟩
    let autumn : Value := .moment ⟨⟨2024, 9, 22⟩, ⟨12, 44, 0, 0⟩, some 7200000000⟩
    let view : View Node := .dos ⟨1, .static, ⟨0, .static⟩⟩
    ∃ operation node', view.call? (.setTimes autumn .null spring) = some operation ∧
      operation (.fresh "1" .file 0) = (node', .ok .done) ∧
      node'.attributes.get? "basic:lastModifiedTime" = some autumn ∧
      node'.attributes.get? "basic:lastAccessTime" = none ∧
      node'.attributes.get? "basic:creationTime" = some spring := by
  intro spring autumn view
  have times : ∀ t ∈ namedTimes autumn .null spring, IsTime t.2 := by
    simp [namedTimes, IsTime, autumn, spring, Moment.isAware]
  have found : (Lookup.static).resolve (.fresh "1" .file 0) = .ok (.fresh "1" .file 0) := rfl
  obtain ⟨operation, node', call, state, outcome⟩ :=
    times_stored_in_turn (v := view) rfl found autumn .null spring
  rcases outcome with ⟨answer, -, h⟩ | ⟨front, name, value, back, cut, -, refused, -⟩
  · refine ⟨operation, node', call, Prod.ext state answer, ?_, ?_, ?_⟩
    · exact h.given "lastModifiedTime" autumn (by simp [namedTimes]) (by simp [autumn])
    · refine h.others "basic:lastAccessTime" fun name value listed given => ?_
      simp only [namedTimes, List.mem_cons, Prod.mk.injEq, List.not_mem_nil, or_false] at listed
      rcases listed with ⟨rfl, rfl⟩ | ⟨rfl, rfl⟩ | ⟨rfl, rfl⟩
      · decide
      · exact absurd rfl given
      · decide
    · exact h.given "creationTime" spring (by simp [namedTimes]) (by simp [spring])
  · have listed : (name, value) ∈ namedTimes autumn .null spring := by
      rw [cut]
      exact List.mem_append_right _ List.mem_cons_self
    exact absurd (times _ listed) refused

/-- **A call that fails may have changed the node**: the first of these times is stored, though the
second one is refused. -/
theorem refused_times_half_stored :
    let spring : Value := .moment ⟨⟨2024, 3, 20⟩, ⟨3, 6, 0, 0⟩, some 0⟩
    let view : View Node := .posix ⟨2, .static, ⟨0, .static⟩, ⟨1, .static⟩⟩
    ∃ operation node', view.call? (.setTimes spring (.text "yesterday") .null) = some operation ∧
      operation (.fresh "1" .file 0)
        = (node', .error (notTime "lastAccessTime" (.text "yesterday"))) ∧
      node'.attributes.get? "basic:lastModifiedTime" = some spring ∧
      (Node.fresh "1" .file 0).attributes.get? "basic:lastModifiedTime" = none :=
  ⟨_, _, rfl, rfl, rfl, rfl⟩

end View

end AttributeViews

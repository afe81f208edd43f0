import AttributeViews.Proofs.Registry.Descent

/-!
# Ties in the order of the providers

Inheritance leaves open which of two independent views comes first.  The plain rule for such ties is
the order of registration: one provider after the other is taken, always the first given one of
those that inherit only from providers taken before.  The depth-first walk does not keep this rule.
It comes to the views that one provider inherits by their names, and it brings them along at once,
however late they were given.

* `inTurn` — names taken in turn, as the plain rule has it; `inRegistrationOrder` — providers.
* **`inTurn_eq_iff`** — when an order is that of the plain rule.
* **`turnsKept_of_related`** — it is, if no name is fetched over the head of an unrelated one.
* **`Registry.ties_follow_the_walk`** — the order of the providers in full, and when it is that of
  registration.
* **`Registry.tie_broken_by_name`** — where it is not.
-/

namespace AttributeViews

variable {successors : String → List String} {names placed order front back : List String}
  {name x y : String}

/-! ## Taking names in turn -/

/-- A name that is still to be placed, and whose successors have all been. -/
def IsFree (successors : String → List String) (placed : List String) (name : String) : Prop :=
  name ∉ placed ∧ ∀ other ∈ successors name, other ∈ placed

instance : Decidable (IsFree successors placed name) := inferInstanceAs (Decidable (_ ∧ _))

/-- Take names in turn, always the first one that is free. -/
def inTurn (successors : String → List String) (names : List String) :
    (rounds : Nat) → (placed : List String) → List String
  | 0, _ => []
  | rounds + 1, placed =>
      match names.find? fun name => IsFree successors placed name with
      | some name => name :: inTurn successors names rounds (placed ++ [name])
      | none => []

lemma find?_isFree_eq_some_iff (nodup : names.Nodup) :
    (names.find? fun name => IsFree successors placed name) = some x ↔
      x ∈ names ∧ IsFree successors placed x ∧
        ∀ y, Precedes names y x → ¬ IsFree successors placed y := by
  simp only [List.find?_eq_some_iff_append, decide_eq_true_eq, Bool.not_eq_true',
    decide_eq_false_iff_not]
  constructor
  · rintro ⟨free, front, back, rfl, hfront⟩
    exact ⟨by simp, free, fun y hy => hfront y ((precedes_middle_iff nodup).1 hy)⟩
  · rintro ⟨hx, free, first⟩
    obtain ⟨front, back, rfl⟩ := List.append_of_mem hx
    exact ⟨free, front, back, rfl, fun y hy => first y ((precedes_middle_iff nodup).2 hy)⟩

lemma mem_of_mem_inTurn (rounds : Nat) :
    ∀ {placed : List String}, x ∈ inTurn successors names rounds placed → x ∈ names := by
  induction rounds with
  | zero => exact fun h => absurd h List.not_mem_nil
  | succ rounds ih =>
      intro placed h
      rw [inTurn] at h
      split at h
      · next name hf =>
        rcases List.mem_cons.1 h with rfl | h
        · exact List.mem_of_find?_eq_some hf
        · exact ih h
      · exact absurd h List.not_mem_nil

/-- No name is passed over that was free and given earlier. -/
def TurnsKept (successors : String → List String) (names order : List String) : Prop :=
  ∀ x y, Precedes order x y → (∀ z ∈ successors y, Precedes order z x) → Precedes names x y

/-- In each round the name that is taken is the first free one. -/
lemma find?_of_inTurn (rounds : Nat) :
    ∀ {placed front : List String}, inTurn successors names rounds placed = front ++ x :: back →
      (names.find? fun name => IsFree successors (placed ++ front) name) = some x := by
  induction rounds with
  | zero =>
      intro placed front h
      simp [inTurn] at h
  | succ rounds ih =>
      intro placed front h
      rw [inTurn] at h
      cases hf : names.find? fun name => IsFree successors placed name with
      | none => simp [hf] at h
      | some name =>
          rw [hf] at h
          dsimp only at h
          cases front with
          | nil =>
              rw [List.append_nil, hf, (List.cons_eq_cons.1 h).1]
          | cons first front =>
              obtain ⟨rfl, htail⟩ := List.cons_eq_cons.1 h
              have hnext := ih htail
              rwa [List.append_assoc] at hnext

/-- Taking names in turn goes through an order in which no turn is missed. -/
lemma inTurn_of_turnsKept (nodup : names.Nodup) (perm : order.Perm names)
    (arranged : Arranged successors order) (kept : TurnsKept successors names order)
    (rest : List String) :
    ∀ placed : List String, order = placed ++ rest →
      inTurn successors names rest.length placed = rest := by
  induction rest with
  | nil => exact fun _ _ => rfl
  | cons x rest ih =>
      intro placed he
      have hnodup : (placed ++ x :: rest).Nodup := he ▸ arranged.nodup
      have before : ∀ {z}, Precedes order z x ↔ z ∈ placed := by
        rw [he]
        exact precedes_middle_iff hnodup
      have hx : x ∈ order := by simp [he]
      have first : (names.find? fun name => IsFree successors placed name) = some x := by
        rw [find?_isFree_eq_some_iff nodup]
        refine ⟨perm.mem_iff.1 hx, ⟨fun hm => ?_, fun z hz => ?_⟩, fun y hy free => ?_⟩
        · exact List.disjoint_of_nodup_append hnodup hm List.mem_cons_self
        · exact before.1 (arranged.precedes hx (.single hz))
        · -- a name that is free earlier stands further behind, so its turn would be missed
          have hyx : Precedes order x y :=
            (precedes_or_precedes hx (perm.mem_iff.2 hy.mem_left)
              (hy.ne nodup).symm).resolve_right fun h => free.1 (before.1 h)
          exact hy.asymm nodup (kept x y hyx fun z hz => before.2 (free.2 z hz))
      rw [List.length_cons, inTurn, first]
      exact congrArg (x :: ·) (ih (placed ++ [x]) (by rw [he, List.append_assoc]; rfl))

/-- **An arranged list is the one in which names are taken in turn** exactly if no turn
is missed. -/
lemma inTurn_eq_iff (nodup : names.Nodup) (perm : order.Perm names)
    (arranged : Arranged successors order) :
    inTurn successors names names.length [] = order ↔ TurnsKept successors names order := by
  constructor
  · intro h x y hxy behind
    obtain ⟨front, back, rfl⟩ := List.append_of_mem hxy.mem_left
    obtain ⟨-, -, first⟩ := (find?_isFree_eq_some_iff nodup).1 (find?_of_inTurn _ h)
    rw [List.nil_append] at first
    have before : ∀ {z}, Precedes (front ++ x :: back) z x ↔ z ∈ front :=
      precedes_middle_iff arranged.nodup
    have free : IsFree successors front y :=
      ⟨fun hy => hxy.asymm arranged.nodup (before.2 hy), fun z hz => before.1 (behind z hz)⟩
    exact (precedes_or_precedes (perm.mem_iff.1 hxy.mem_left) (perm.mem_iff.1 hxy.mem_right)
      (hxy.ne arranged.nodup)).resolve_right fun h => first y h free
  · intro kept
    rw [← perm.length_eq]
    exact inTurn_of_turnsKept nodup perm arranged kept order [] rfl

/-- **No turn is missed by the walk** if what a name leads to and was given later is related to
every name that was given between the two. -/
lemma turnsKept_of_related (nodup : names.Nodup) (perm : order.Perm names)
    (arranged : Arranged successors order) (added : Added successors names [] order)
    (related : ∀ first between late, Precedes names first between → Precedes names between late →
      Relation.TransGen (fun a b => b ∈ successors a) first late →
        Leads successors between late ∨ Leads successors late between) :
    TurnsKept successors names order := by
  intro x y hxy behind
  have hx := hxy.mem_left
  have hy := hxy.mem_right
  have hne := hxy.ne arranged.nodup
  -- all that the free name leads to has been placed, and the other one has not
  have hyx : ¬ Leads successors y x := by
    intro leads
    rcases Relation.ReflTransGen.cases_head leads with rfl | ⟨z, hz, leads⟩
    · exact hne rfl
    · have hzx := behind z hz
      rcases Relation.reflTransGen_iff_eq_or_transGen.1 leads with rfl | leads
      · exact hzx.ne arranged.nodup rfl
      · exact hzx.asymm arranged.nodup (arranged.precedes hzx.mem_left leads)
  have hxy' : ¬ Leads successors x y := by
    intro leads
    rcases Relation.reflTransGen_iff_eq_or_transGen.1 leads with rfl | leads
    · exact hne rfl
    · exact hxy.asymm arranged.nodup (arranged.precedes hx leads)
  refine (precedes_or_precedes (perm.mem_iff.1 hx) (perm.mem_iff.1 hy) hne).resolve_right
    fun early => ?_
  -- had the other one been given later, a start before both would have fetched it
  obtain ⟨start, leads, hstart⟩ := (added.ordered x y hxy).exists_start (perm.mem_iff.1 hy)
  rcases hstart with rfl | hstart
  · exact hyx leads
  · rcases Relation.reflTransGen_iff_eq_or_transGen.1 leads with rfl | leads
    · exact early.asymm nodup hstart
    · rcases related start y x hstart early leads with h | h
      · exact hyx h
      · exact hxy' h

/-! ## Providers -/

/-- The providers in the order in which they are taken in turn: always the first given one of those
that have not been taken, but all of whose inherited views have been. -/
def inRegistrationOrder (providers : List Provider) : List Provider :=
  (inTurn (inheritedBy providers) (providers.map (·.name)) (providers.map (·.name)).length
    []).filterMap (providerOf? providers)

variable {providers : List Provider} {defaults : Table String Value} {r : Registry}

namespace Registry

lemma providers_eq_inRegistrationOrder_iff (built : build providers defaults = .ok r) :
    r.providers = inRegistrationOrder providers ↔
      inTurn (inheritedBy providers) (providers.map (·.name)) (providers.map (·.name)).length []
        = r.names := by
  obtain ⟨distinct, -⟩ := fits_of_build built
  constructor
  · intro h
    rw [names, h, inRegistrationOrder,
      map_name_filterMap_providerOf? distinct _ fun view => mem_of_mem_inTurn _]
  · intro h
    rw [inRegistrationOrder, h, names, filterMap_providerOf? distinct fun _ => mem_of_build built]

/-- **How ties are broken.**  Of two views, the registry has the one first which the walk from the
registered views, in the order of registration, and from the views that each of them inherits, in
the order of their names, finishes first.  This is the order in which providers are taken in turn,
by registration, exactly if no view that is finished first has been registered behind one that was
free then; and it always is where a view that is inherited from further in front stands in
inheritance with every view that was registered between the two. -/
theorem ties_follow_the_walk (built : build providers defaults = .ok r) :
    (∀ view ∈ providers.map (·.name), ∀ other ∈ providers.map (·.name),
      (Precedes r.names view other ↔
        FinishedFirst (inheritedBy providers) (providers.map (·.name)) view other)) ∧
    (r.providers = inRegistrationOrder providers ↔
      ∀ view ∈ providers.map (·.name), ∀ other ∈ providers.map (·.name),
        FinishedFirst (inheritedBy providers) (providers.map (·.name)) view other →
        (∀ inherited, Inherits providers other inherited →
          FinishedFirst (inheritedBy providers) (providers.map (·.name)) inherited view) →
        Precedes (providers.map (·.name)) view other) ∧
    ((∀ first between late, Precedes (providers.map (·.name)) first between →
      Precedes (providers.map (·.name)) between late →
      Relation.TransGen (Inherits providers) first late →
        InheritsFrom providers between late ∨ InheritsFrom providers late between) →
      r.providers = inRegistrationOrder providers) := by
  obtain ⟨distinct, complete, acyclic, -⟩ := fits_of_build built
  obtain ⟨walk, arranged⟩ := postorder_of_build built
  have perm : r.names.Perm (providers.map (·.name)) := (perm_of_build built).map _
  have added := added_of_postorder (inheritedBy_subset distinct complete) (List.Subset.refl _) walk
  have hinherits : ∀ {view other}, other ∈ inheritedBy providers view ↔
      Inherits providers view other := mem_inheritedBy_iff distinct
  rw [InheritanceAcyclic, ← mem_inheritedBy_eq distinct] at acyclic
  have rule : ∀ view ∈ providers.map (·.name), ∀ other ∈ providers.map (·.name),
      (Precedes r.names view other ↔
        FinishedFirst (inheritedBy providers) (providers.map (·.name)) view other) :=
    fun view hv other ho => precedes_iff_finishedFirst added acyclic (perm.mem_iff.2 hv)
      (perm.mem_iff.2 ho)
  refine ⟨rule, ?_, fun related => ?_⟩
  · rw [providers_eq_inRegistrationOrder_iff built, inTurn_eq_iff distinct perm arranged]
    constructor
    · intro kept view hv other ho first behind
      refine kept view other ((rule view hv other ho).2 first) fun inherited hi => ?_
      have hi' := inheritedBy_subset distinct complete other ho hi
      exact (rule inherited hi' view hv).2 (behind inherited (hinherits.1 hi))
    · intro kept view other first behind
      have hv := perm.mem_iff.1 first.mem_left
      have ho := perm.mem_iff.1 first.mem_right
      refine kept view hv other ho ((rule view hv other ho).1 first) fun inherited hi => ?_
      have hi' := hinherits.2 hi
      exact (rule inherited (inheritedBy_subset distinct complete other ho hi') view hv).1
        (behind inherited hi')
  · rw [providers_eq_inRegistrationOrder_iff built, inTurn_eq_iff distinct perm arranged]
    simp only [InheritsFrom, ← mem_inheritedBy_eq distinct] at related
    exact turnsKept_of_related distinct perm arranged added related

/-- A chain that is given from its end is taken in turn.  Of two independent views that a third one
inherits, the walk finishes the one with the smaller name first, though it was given last. -/
theorem ties_follow_the_walk_blank :
    ∃ r r', build [.blank "c" ["b"], .blank "b" ["a"], .blank "a" []] .empty = .ok r ∧
      r.providers = inRegistrationOrder [.blank "c" ["b"], .blank "b" ["a"], .blank "a" []] ∧
      build [.blank "c" ["a", "b"], .blank "b" [], .blank "a" []] .empty = .ok r' ∧
      FinishedFirst (inheritedBy [.blank "c" ["a", "b"], .blank "b" [], .blank "a" []])
        ["c", "b", "a"] "a" "b" ∧
      r'.providers ≠ inRegistrationOrder [.blank "c" ["a", "b"], .blank "b" [], .blank "a" []] := by
  have chain : build [.blank "c" ["b"], .blank "b" ["a"], .blank "a" []] .empty
      = .ok ⟨[.blank "a" [], .blank "b" ["a"], .blank "c" ["b"]], .empty⟩ := rfl
  have fork : build [.blank "c" ["a", "b"], .blank "b" [], .blank "a" []] .empty
      = .ok ⟨[.blank "a" [], .blank "b" [], .blank "c" ["a", "b"]], .empty⟩ := rfl
  obtain ⟨-, -, inTurn⟩ := ties_follow_the_walk chain
  obtain ⟨rule, -, -⟩ := ties_follow_the_walk fork
  refine ⟨_, _, chain, inTurn fun first between late hb hl _ => ?_, fork,
    (rule "a" (by decide) "b" (by decide)).1 (by decide), fun h => ?_⟩
  · -- of three views only the middle one stands between two others
    have hbetween : between = "b" ∧ late = "a" := by
      simp only [List.map_cons, List.map_nil, Provider.blank, precedes_cons_iff, not_precedes_nil,
        List.mem_cons, List.not_mem_nil, or_false, and_false] at hb hl
      rcases hb with ⟨-, rfl | rfl⟩ | ⟨-, rfl⟩
      · simpa using hl
      · simp at hl
      · simp at hl
    obtain ⟨rfl, rfl⟩ := hbetween
    exact Or.inl (.single ⟨.blank "b" ["a"], by simp, rfl, by decide⟩)
  · exact absurd (congrArg (List.map Provider.name) h) (by decide)

/-- **Where the order of registration is not kept**: of two independent views that have been
registered one after the other, the later one comes first, because a third one inherits both and its
name is the smaller one. -/
theorem tie_broken_by_name :
    ∃ r, build [.blank "c" ["a", "b"], .blank "b" [], .blank "a" []] .empty = .ok r ∧
      r.names = ["a", "b", "c"] ∧
      (inRegistrationOrder [.blank "c" ["a", "b"], .blank "b" [], .blank "a" []]).map (·.name)
        = ["b", "a", "c"] :=
  ⟨_, rfl, rfl, rfl⟩

end Registry

end AttributeViews

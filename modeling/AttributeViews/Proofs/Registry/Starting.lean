import AttributeViews.Proofs.Registry.Building
import AttributeViews.Registry.Starting

/-!
# The values of a new node

Providers fill the store of a new node one after the other, and the clock fills what they leave.  As
the keys of a registry differ from each other, the outcome can be told attribute by attribute.

* `Provider.Starts` — the value that an attribute starts out with.
* **`Provider.initialValues_get?_iff`**, **`Registry.initialAttributes_get?_iff`** — the new values
  are those and no others.
-/

namespace AttributeViews

variable {p : Provider} {now : Moment} {overrides values values' : Table String Value}
  {name key : String} {spec : AttributeSpec} {v : Value}

namespace Provider

/-- The value that an attribute starts out with: its override in stored form, or else its fixed
value or the time, if it has either. -/
inductive Starts (p : Provider) (now : Moment) (overrides : Table String Value) (name : String)
    (spec : AttributeSpec) : Value → Prop
  | given {v stored : Value} (settable : spec.settable = true)
      (override : override? overrides (p.qualified name) = some v)
      (accepted : spec.coerce p.name name v = .ok stored) : Starts p now overrides name spec stored
  | fixed {v : Value} (settable : spec.settable = true)
      (silent : override? overrides (p.qualified name) = none) (start : spec.start = .fixed v) :
      Starts p now overrides name spec v
  | clock (silent : override? overrides (p.qualified name) = none)
      (start : spec.start = .currentTime) : Starts p now overrides name spec (.moment now)

lemma qualified_inj {name' : String} : p.qualified name = p.qualified name' ↔ name = name' := by
  simp [qualified]

/-! ## Settled values -/

lemma settled_cons_eq_ok_iff {rest : List (String × AttributeSpec)} :
    p.settled overrides ((name, spec) :: rest) values = .ok values' ↔
      ∃ answer, p.startingValue? overrides name spec = .ok answer ∧
        p.settled overrides rest
          ((answer.map (values.insert (p.qualified name))).getD values) = .ok values' := by
  rw [settled, bind_eq_ok_iff]
  refine exists_congr fun answer => and_congr_right fun _ => ?_
  cases answer <;> rfl

/-- The store is changed under the keys of the settled attributes only. -/
lemma settled_get?_of_notMem (entries : List (String × AttributeSpec)) :
    ∀ {values : Table String Value}, p.settled overrides entries values = .ok values' →
      (∀ name ∈ entries.map Prod.fst, p.qualified name ≠ key) →
      values'.get? key = values.get? key := by
  induction entries with
  | nil =>
      intro values h _
      rw [Except.ok.inj h]
  | cons entry rest ih =>
      obtain ⟨name, spec⟩ := entry
      intro values h hne
      rcases settled_cons_eq_ok_iff.1 h with ⟨answer, -, hrest⟩
      rw [ih hrest fun other ho => hne other (List.mem_cons_of_mem _ ho)]
      cases answer with
      | none => rfl
      | some w => exact (Table.get?_insert ..).trans (if_neg (hne name List.mem_cons_self))

/-- Under the key of an attribute stands what is settled for it. -/
lemma settled_get?_of_mem (entries : List (String × AttributeSpec)) :
    ∀ {values : Table String Value}, p.settled overrides entries values = .ok values' →
      (entries.map Prod.fst).Nodup → (name, spec) ∈ entries →
      ∃ answer, p.startingValue? overrides name spec = .ok answer ∧
        values'.get? (p.qualified name) = answer.or (values.get? (p.qualified name)) := by
  induction entries with
  | nil =>
      intro values _ _ hm
      cases hm
  | cons entry rest ih =>
      obtain ⟨other, otherSpec⟩ := entry
      intro values h hnd hm
      rcases settled_cons_eq_ok_iff.1 h with ⟨answer, ha, hrest⟩
      rw [List.map_cons, List.nodup_cons] at hnd
      rcases List.mem_cons.1 hm with he | hm
      · rcases Prod.mk.inj he with ⟨rfl, rfl⟩
        refine ⟨answer, ha, ?_⟩
        rw [settled_get?_of_notMem rest hrest]
        · cases answer with
          | none => rfl
          | some w => exact (Table.get?_insert ..).trans (if_pos rfl)
        · intro other ho hk
          rw [qualified_inj.1 hk] at ho
          exact hnd.1 ho
      · rcases ih hrest hnd.2 hm with ⟨answer', ha', hv⟩
        refine ⟨answer', ha', hv.trans (congrArg _ ?_)⟩
        have hne : p.qualified other ≠ p.qualified name := by
          intro hk
          obtain rfl := qualified_inj.1 hk
          exact hnd.1 (List.mem_map.2 ⟨_, hm, rfl⟩)
        cases answer with
        | none => rfl
        | some w => exact (Table.get?_insert ..).trans (if_neg hne)

/-! ## The clock -/

lemma fillClock_get? (keys : List String) :
    ∀ {values : Table String Value},
      (fillClock now values keys).get? key
        = (values.get? key).or (if key ∈ keys then some (.moment now) else none) := by
  induction keys with
  | nil =>
      intro values
      simp [fillClock]
  | cons clocked rest ih =>
      intro values
      have hcons : fillClock now values (clocked :: rest)
          = fillClock now (if values.contains clocked then values
              else values.insert clocked (.moment now)) rest := rfl
      rw [hcons, ih]
      by_cases hk : clocked = key
      · subst hk
        cases hv : values.get? clocked <;> simp [Table.contains, hv]
      · split_ifs <;> simp_all [Ne.symm hk]

lemma mem_clockKeys_iff :
    key ∈ p.clockKeys ↔
      ∃ name spec, p.attributes.get? name = some spec ∧ spec.start = .currentTime ∧
        key = p.qualified name := by
  simp only [clockKeys, List.mem_filterMap, Prod.exists, Table.get?_eq_some_iff]
  refine exists_congr fun name => exists_congr fun spec => and_congr_right fun _ => ?_
  cases spec.start <;> simp [eq_comm]

lemma qualified_mem_clockKeys_iff (declared : p.attributes.get? name = some spec) :
    p.qualified name ∈ p.clockKeys ↔ spec.start = .currentTime := by
  rw [mem_clockKeys_iff]
  constructor
  · rintro ⟨other, otherSpec, hd, hc, hk⟩
    rw [qualified_inj] at hk
    rw [hk, hd] at declared
    rw [← Option.some.inj declared, hc]
  · exact fun hc => ⟨name, spec, declared, hc, rfl⟩

/-! ## New values of one provider -/

lemma startingValue?_eq_ok_some_iff :
    p.startingValue? overrides name spec = .ok (some v) ↔
      spec.settable = true ∧
        ((∃ given, override? overrides (p.qualified name) = some given ∧
            spec.coerce p.name name given = .ok v) ∨
          (override? overrides (p.qualified name) = none ∧ spec.start = .fixed v)) := by
  simp only [startingValue?]
  cases override? overrides (p.qualified name) <;> cases spec.settable
  · simp
  · cases spec.start <;> simp
  · simp
  · simp [map_eq_ok_iff]

lemma startingValue?_eq_ok_none_iff :
    p.startingValue? overrides name spec = .ok none ↔
      override? overrides (p.qualified name) = none ∧
        (spec.settable = true → ∀ v, spec.start ≠ .fixed v) := by
  simp only [startingValue?]
  cases override? overrides (p.qualified name) <;> cases spec.settable
  · simp
  · cases spec.start <;> simp
  · simp
  · simp [map_eq_ok_iff]

/-- An attribute starts out with what is settled for it, or else with the time if it has a clock. -/
lemma starts_iff {answer : Option Value} (declared : p.attributes.get? name = some spec)
    (settled : p.startingValue? overrides name spec = .ok answer) :
    p.Starts now overrides name spec v ↔
      answer.or (if p.qualified name ∈ p.clockKeys then some (.moment now) else none) = some v := by
  have hclock := qualified_mem_clockKeys_iff declared
  cases answer with
  | some w =>
      rcases startingValue?_eq_ok_some_iff.1 settled with ⟨settable, hw⟩
      constructor
      · rintro (⟨-, override, accepted⟩ | ⟨-, silent, start⟩ | ⟨silent, start⟩)
        · simp_all
        · simp_all
        · simp_all
      · intro he
        obtain rfl := Option.some.inj he
        rcases hw with ⟨given, override, accepted⟩ | ⟨silent, start⟩
        · exact .given settable override accepted
        · exact .fixed settable silent start
  | none =>
      rcases startingValue?_eq_ok_none_iff.1 settled with ⟨silent, hfixed⟩
      rw [Option.none_or]
      constructor
      · rintro (⟨-, override, -⟩ | ⟨settable, -, start⟩ | ⟨-, start⟩)
        · rw [silent] at override
          cases override
        · exact absurd start (hfixed settable v)
        · rw [if_pos (hclock.2 start)]
      · intro he
        split_ifs at he with hk
        obtain rfl := Option.some.inj he
        exact .clock silent (hclock.1 hk)

/-- The new value of an attribute, through the look-up of its key. -/
lemma initialValues_get?_qualified (h : p.initialValues now overrides = .ok values)
    (declared : p.attributes.get? name = some spec) :
    values.get? (p.qualified name) = some v ↔ p.Starts now overrides name spec v := by
  rcases map_eq_ok_iff.1 h with ⟨settled, hs, rfl⟩
  obtain ⟨answer, ha, hv⟩ :=
    settled_get?_of_mem _ hs p.attributes.nodup (Table.get?_eq_some_iff.1 declared)
  rw [Table.get?_empty, Option.or_none] at hv
  rw [fillClock_get?, hv, starts_iff declared ha]

/-- **What a provider puts on a new node.** -/
lemma initialValues_get?_iff (h : p.initialValues now overrides = .ok values) :
    values.get? key = some v ↔
      ∃ name spec, p.attributes.get? name = some spec ∧ key = p.qualified name ∧
        p.Starts now overrides name spec v := by
  constructor
  · intro hv
    by_cases hk : ∃ name spec, p.attributes.get? name = some spec ∧ key = p.qualified name
    · obtain ⟨name, spec, hd, rfl⟩ := hk
      exact ⟨name, spec, hd, rfl, (initialValues_get?_qualified h hd).1 hv⟩
    · -- under any other key nothing is settled and nothing is clocked
      rcases map_eq_ok_iff.1 h with ⟨settled, hs, rfl⟩
      have hnone : settled.get? key = none := by
        refine settled_get?_of_notMem _ hs fun name hm hq => hk ?_
        rcases Table.contains_eq_true_iff.1 (Table.contains_iff.2 hm) with ⟨spec, hd⟩
        exact ⟨name, spec, hd, hq.symm⟩
      have hclock : key ∉ p.clockKeys := by
        intro hm
        rcases mem_clockKeys_iff.1 hm with ⟨name, spec, hd, -, hq⟩
        exact hk ⟨name, spec, hd, hq⟩
      rw [fillClock_get?, hnone, if_neg hclock] at hv
      cases hv
  · rintro ⟨name, spec, hd, rfl, hs⟩
    exact (initialValues_get?_qualified h hd).2 hs

lemma mem_keys_of_initialValues (h : p.initialValues now overrides = .ok values)
    (hv : values.get? key = some v) : key ∈ p.keys := by
  rcases (initialValues_get?_iff h).1 hv with ⟨name, spec, hd, rfl, -⟩
  exact List.mem_map_of_mem (Table.contains_iff.1 (Table.contains_eq_true_iff.2 ⟨spec, hd⟩))

/-- An attribute that can be set and does not start out absent has a new value. -/
lemma exists_starts (h : p.initialValues now overrides = .ok values)
    (declared : p.attributes.get? name = some spec) (settable : spec.settable = true)
    (start : spec.start ≠ .absent) : ∃ v, p.Starts now overrides name spec v := by
  rcases map_eq_ok_iff.1 h with ⟨settled, hs, -⟩
  obtain ⟨answer, ha, -⟩ :=
    settled_get?_of_mem _ hs p.attributes.nodup (Table.get?_eq_some_iff.1 declared)
  cases answer with
  | some w => exact ⟨w, (starts_iff declared ha).2 rfl⟩
  | none =>
      rcases startingValue?_eq_ok_none_iff.1 ha with ⟨silent, hfixed⟩
      cases hst : spec.start with
      | absent => exact absurd hst start
      | fixed v => exact absurd hst (hfixed settable v)
      | currentTime => exact ⟨_, .clock silent hst⟩

end Provider

/-! ## New values of a registry -/

namespace Registry

variable {r : Registry} {providers : List Provider}

/-- Providers whose keys differ do not overwrite each other's values. -/
lemma startAll_get?_iff (providers : List Provider) :
    ∀ {values : Table String Value}, startAll now overrides providers values = .ok values' →
      (providers.flatMap Provider.keys).Nodup →
      (∀ key ∈ providers.flatMap Provider.keys, values.get? key = none) →
      (values'.get? key = some v ↔
        values.get? key = some v ∨
          ∃ p ∈ providers, ∃ own, p.initialValues now overrides = .ok own ∧
            own.get? key = some v) := by
  induction providers with
  | nil =>
      intro values h _ _
      rw [Except.ok.inj h]
      simp
  | cons p rest ih =>
      intro values h hnd hfresh
      rw [startAll] at h
      rcases bind_eq_ok_iff.1 h with ⟨own, hown, hrest⟩
      rw [List.flatMap_cons, List.nodup_append'] at hnd
      obtain ⟨-, hnd, hdisjoint⟩ := hnd
      have hstep : ∀ key ∈ rest.flatMap Provider.keys, (values.update own).get? key = none := by
        intro key hk
        have hown' : own.get? key = none := by
          cases ho : own.get? key with
          | none => rfl
          | some w => exact absurd hk (hdisjoint (Provider.mem_keys_of_initialValues hown ho))
        rw [Table.get?_update, hown', Option.none_or]
        exact hfresh key (by rw [List.flatMap_cons]; exact List.mem_append_right _ hk)
      rw [ih hrest hnd hstep, Table.get?_update]
      simp only [List.mem_cons, exists_eq_or_imp, hown, Except.ok.injEq, exists_eq_left']
      rw [← or_assoc]
      refine or_congr ?_ Iff.rfl
      cases ho : own.get? key with
      | none => simp
      | some w =>
          have hk := Provider.mem_keys_of_initialValues hown ho
          rw [hfresh key (by rw [List.flatMap_cons]; exact List.mem_append_left _ hk)]
          simp

lemma startAll_eq_ok (providers : List Provider) :
    ∀ {values : Table String Value}, startAll now overrides providers values = .ok values' →
      ∀ p ∈ providers, ∃ own, p.initialValues now overrides = .ok own := by
  induction providers with
  | nil =>
      intro values _ p hp
      cases hp
  | cons q rest ih =>
      intro values h p hp
      rw [startAll] at h
      rcases bind_eq_ok_iff.1 h with ⟨own, hown, hrest⟩
      rcases List.mem_cons.1 hp with rfl | hp
      · exact ⟨own, hown⟩
      · exact ih hrest p hp

/-- **What a new node of a registry holds.** -/
lemma initialAttributes_get?_iff (nodup : r.keys.Nodup)
    (h : r.initialAttributes now overrides = .ok values) :
    values.get? key = some v ↔
      ∃ p ∈ r.providers, ∃ name spec, p.attributes.get? name = some spec ∧
        key = p.qualified name ∧ p.Starts now (r.defaults.update overrides) name spec v := by
  rw [keys, declarations_keys] at nodup
  rw [initialAttributes] at h
  rw [startAll_get?_iff _ h nodup (fun _ _ => rfl), Table.get?_empty]
  simp only [reduceCtorEq, false_or]
  refine exists_congr fun p => and_congr_right fun hp => ?_
  rcases startAll_eq_ok _ h p hp with ⟨own, hown⟩
  rw [← Provider.initialValues_get?_iff hown, hown]
  simp

end Registry

end AttributeViews

import AttributeViews.Proofs.Attribute.StoredForms
import AttributeViews.Proofs.Registry.Starting

/-!
# When a new node gets no values

Starting values are computed in one pass over all attributes, provider by provider in inheritance
order.  The pass ends at the first attribute whose override is refused, and whether an override is
refused depends on that attribute alone.

* `Declared` — an attribute with the provider that declares it.
* `Declared.Refuses`, `FirstRefusal` — an attribute refuses its override, and is the first of a list
  to do so.
* **`Registry.initialAttributes_eq_error_iff`** — the error is the one of the first refusal.
* **`Registry.initialAttributes_congr`** — only what is given under the keys of the registry counts,
  and not in which order.
* **`Registry.initial_values_in_full`** — errors, values and warnings together.
-/

namespace AttributeViews

/-! ## Refusals -/

/-- An attribute with the provider that declares it. -/
structure Declared where
  provider : Provider
  name : String
  spec : AttributeSpec

namespace Declared

/-- The key under which the attribute is stored. -/
def key (a : Declared) : String := a.provider.qualified a.name

/-- The value that the attribute starts out with. -/
def Starts (a : Declared) (now : Moment) (merged : Table String Value) (v : Value) : Prop :=
  a.provider.Starts now merged a.name a.spec v

/-- A value is given for the attribute, and it is refused: because nobody may set the attribute, or
because the converter for defaults does not accept it. -/
inductive Refuses (a : Declared) (merged : Table String Value) : Error → Prop
  | derived {v : Value} (given : merged.get? a.key = some v) (present : v ≠ .null)
      (unsettable : a.spec.settable = false) : Refuses a merged (.derived a.key)
  | unsuitable {v : Value} {e : Error} (given : merged.get? a.key = some v) (present : v ≠ .null)
      (settable : a.spec.settable = true)
      (refused : a.spec.coerce a.provider.name a.name v = .error e) : Refuses a merged e

end Declared

/-- The first attribute of a list that refuses its override does so with this error. -/
inductive FirstRefusal (merged : Table String Value) : List Declared → Error → Prop
  | here {a : Declared} {rest : List Declared} {e : Error} (refused : a.Refuses merged e) :
      FirstRefusal merged (a :: rest) e
  | later {a : Declared} {rest : List Declared} {e : Error} (accepted : ∀ e, ¬ a.Refuses merged e)
      (first : FirstRefusal merged rest e) : FirstRefusal merged (a :: rest) e

/-- The attributes of a provider, in the order of their declaration. -/
def Provider.declared (p : Provider) : List Declared :=
  p.attributes.entries.map fun (name, spec) => ⟨p, name, spec⟩

/-- The attributes of a registry, in inheritance order and then in the order of their
declaration. -/
def Registry.declared (r : Registry) : List Declared := r.providers.flatMap Provider.declared

variable {p : Provider} {now : Moment} {overrides merged merged' values : Table String Value}
  {name key : String} {spec : AttributeSpec} {v : Value} {e : Error} {r : Registry}

lemma Registry.mem_declared_iff {a : Declared} :
    a ∈ r.declared ↔
      a.provider ∈ r.providers ∧ a.provider.attributes.get? a.name = some a.spec := by
  obtain ⟨p, name, spec⟩ := a
  simp only [declared, List.mem_flatMap, Provider.declared, List.mem_map, Prod.exists,
    Declared.mk.injEq, Table.get?_eq_some_iff]
  constructor
  · rintro ⟨q, hq, a, b, hm, rfl, rfl, rfl⟩
    exact ⟨hq, hm⟩
  · rintro ⟨hp, hm⟩
    exact ⟨p, hp, name, spec, hm, rfl, rfl, rfl⟩

section FirstRefusal

variable {a : Declared} {earlier rest : List Declared}

lemma not_firstRefusal_nil : ¬ FirstRefusal merged [] e := by
  intro h
  cases h

lemma firstRefusal_cons_iff :
    FirstRefusal merged (a :: rest) e ↔
      a.Refuses merged e ∨ (∀ e, ¬ a.Refuses merged e) ∧ FirstRefusal merged rest e := by
  constructor
  · rintro (h | ⟨accepted, first⟩)
    · exact Or.inl h
    · exact Or.inr ⟨accepted, first⟩
  · rintro (h | ⟨accepted, first⟩)
    · exact .here h
    · exact .later accepted first

lemma FirstRefusal.exists_refuses (h : FirstRefusal merged rest e) :
    ∃ a ∈ rest, a.Refuses merged e := by
  induction h with
  | here refused => exact ⟨_, List.mem_cons_self, refused⟩
  | later _ _ ih =>
      obtain ⟨a, ha, refused⟩ := ih
      exact ⟨a, List.mem_cons_of_mem _ ha, refused⟩

/-- There is a first refusal exactly if there is one at all. -/
lemma exists_firstRefusal_iff :
    (∃ e, FirstRefusal merged rest e) ↔ ∃ a ∈ rest, ∃ e, a.Refuses merged e := by
  induction rest with
  | nil => simp [not_firstRefusal_nil]
  | cons a rest ih =>
      simp only [firstRefusal_cons_iff, List.mem_cons, exists_eq_or_imp, ← ih]
      constructor
      · rintro ⟨e, h | ⟨-, h⟩⟩
        · exact Or.inl ⟨e, h⟩
        · exact Or.inr ⟨e, h⟩
      · intro h
        by_cases ha : ∃ e, a.Refuses merged e
        · obtain ⟨e, he⟩ := ha
          exact ⟨e, Or.inl he⟩
        · obtain ⟨e, he⟩ := h.resolve_left ha
          exact ⟨e, Or.inr ⟨not_exists.1 ha, he⟩⟩

/-- The first refusal of two lists is in the second one if the first one has none. -/
lemma firstRefusal_append_iff :
    FirstRefusal merged (earlier ++ rest) e ↔
      FirstRefusal merged earlier e ∨
        (∀ e, ¬ FirstRefusal merged earlier e) ∧ FirstRefusal merged rest e := by
  induction earlier with
  | nil => simp [not_firstRefusal_nil]
  | cons a earlier ih =>
      simp only [List.cons_append, firstRefusal_cons_iff, ih, not_or, not_and]
      constructor
      · rintro (h | ⟨ha, h | ⟨hnone, h⟩⟩)
        · exact Or.inl (Or.inl h)
        · exact Or.inl (Or.inr ⟨ha, h⟩)
        · exact Or.inr ⟨fun e => ⟨ha e, fun _ => hnone e⟩, h⟩
      · rintro ((h | ⟨ha, h⟩) | ⟨hnone, h⟩)
        · exact Or.inl h
        · exact Or.inr ⟨ha, Or.inl h⟩
        · have ha : ∀ e, ¬ a.Refuses merged e := fun e => (hnone e).1
          exact Or.inr ⟨ha, Or.inr ⟨fun e => (hnone e).2 ha, h⟩⟩

end FirstRefusal

/-! ## The pass over the attributes -/

namespace Provider

lemma override?_eq_some_iff :
    override? merged key = some v ↔ merged.get? key = some v ∧ v ≠ .null := by
  rw [override?]
  cases hg : merged.get? key with
  | none => simp
  | some w => cases w <;> simp +contextual [eq_comm]

lemma startingValue?_eq_error_iff :
    p.startingValue? merged name spec = .error e ↔ Declared.Refuses ⟨p, name, spec⟩ merged e := by
  simp only [startingValue?]
  constructor
  · intro h
    cases ho : override? merged (p.qualified name) with
    | none =>
        rw [ho] at h
        cases hs : spec.settable <;> cases hst : spec.start <;> simp [hs, hst] at h
    | some given =>
        obtain ⟨hg, present⟩ := override?_eq_some_iff.1 ho
        rw [ho] at h
        cases hs : spec.settable with
        | false =>
            rw [hs] at h
            rw [← Except.error.inj h]
            exact .derived hg present hs
        | true =>
            rw [hs] at h
            exact .unsuitable hg present hs (map_eq_error_iff.1 h)
  · intro h
    cases h with
    | derived given present unsettable =>
        have ho : override? merged (p.qualified name) = _ :=
          override?_eq_some_iff.2 ⟨given, present⟩
        dsimp only at unsettable
        rw [ho, unsettable]
        rfl
    | unsuitable given present settable refused =>
        have ho : override? merged (p.qualified name) = _ :=
          override?_eq_some_iff.2 ⟨given, present⟩
        dsimp only at settable
        rw [ho, settable]
        exact map_eq_error_iff.2 refused

/-- An attribute that does not refuse its override has a starting value or none, but no error. -/
lemma exists_startingValue?_iff :
    (∃ answer, p.startingValue? merged name spec = .ok answer) ↔
      ∀ e, ¬ Declared.Refuses ⟨p, name, spec⟩ merged e := by
  simp only [← startingValue?_eq_error_iff]
  cases p.startingValue? merged name spec <;> simp

/-- The pass over the attributes of a provider ends at the first refusal. -/
lemma settled_eq_error_iff (entries : List (String × AttributeSpec)) :
    ∀ {values : Table String Value}, p.settled merged entries values = .error e ↔
      FirstRefusal merged (entries.map fun (name, spec) => ⟨p, name, spec⟩) e := by
  induction entries with
  | nil => simp [settled, not_firstRefusal_nil]
  | cons entry rest ih =>
      obtain ⟨name, spec⟩ := entry
      intro values
      rw [settled, bind_eq_error_iff, List.map_cons, firstRefusal_cons_iff,
        startingValue?_eq_error_iff, ← exists_startingValue?_iff]
      refine or_congr Iff.rfl ?_
      rw [exists_and_right.symm]
      refine exists_congr fun answer => and_congr_right fun _ => ?_
      cases answer <;> exact ih

lemma initialValues_eq_error_iff :
    p.initialValues now merged = .error e ↔ FirstRefusal merged p.declared e := by
  rw [declared, ← settled_eq_error_iff]
  exact map_eq_error_iff

end Provider

namespace Registry

/-- The pass over all providers ends at the first refusal. -/
lemma startAll_eq_error_iff (providers : List Provider) :
    ∀ {values : Table String Value}, startAll now merged providers values = .error e ↔
      FirstRefusal merged (providers.flatMap Provider.declared) e := by
  induction providers with
  | nil => simp [startAll, not_firstRefusal_nil]
  | cons p rest ih =>
      intro values
      have hp : ∀ e, p.initialValues now merged = .error e ↔ FirstRefusal merged p.declared e :=
        fun e => Provider.initialValues_eq_error_iff
      rw [startAll, bind_eq_error_iff, List.flatMap_cons, firstRefusal_append_iff]
      simp only [← hp, ih]
      cases p.initialValues now merged <;> simp

/-- **The error of a new node** is the one of the first refusal. -/
lemma initialAttributes_eq_error_iff :
    r.initialAttributes now overrides = .error e ↔
      FirstRefusal (r.defaults.update overrides) r.declared e :=
  startAll_eq_error_iff r.providers

/-- Nothing is refused at one time that is accepted at another. -/
lemma exists_initialAttributes_of_clock {now' : Moment}
    (h : r.initialAttributes now overrides = .ok values) :
    ∃ values', r.initialAttributes now' overrides = .ok values' := by
  cases h' : r.initialAttributes now' overrides with
  | ok values' => exact ⟨values', rfl⟩
  | error e =>
      rw [initialAttributes_eq_error_iff.2 (initialAttributes_eq_error_iff.1 h')] at h
      cases h

end Registry

/-! ## What is passed over -/

/-- Two maps hold the same under each of some keys, in whatever order they hold it. -/
def Table.AgreeOn (keys : List String) (t u : Table String Value) : Prop :=
  ∀ key ∈ keys, t.get? key = u.get? key

namespace Provider

lemma startingValue?_congr (h : merged.get? (p.qualified name) = merged'.get? (p.qualified name)) :
    p.startingValue? merged name spec = p.startingValue? merged' name spec := by
  simp only [startingValue?, override?, h]

lemma settled_congr (entries : List (String × AttributeSpec)) :
    ∀ {values : Table String Value},
      (∀ name ∈ entries.map Prod.fst,
        merged.get? (p.qualified name) = merged'.get? (p.qualified name)) →
      p.settled merged entries values = p.settled merged' entries values := by
  induction entries with
  | nil => exact fun _ => rfl
  | cons entry rest ih =>
      obtain ⟨name, spec⟩ := entry
      intro values h
      have hrest : ∀ values, p.settled merged rest values = p.settled merged' rest values :=
        fun values => ih fun other ho => h other (List.mem_cons_of_mem _ ho)
      simp only [settled, hrest, startingValue?_congr (h name List.mem_cons_self)]

/-- The values of a provider depend on the overrides under its own keys only. -/
lemma initialValues_congr (h : merged.AgreeOn p.keys merged') :
    p.initialValues now merged = p.initialValues now merged' := by
  rw [initialValues, initialValues,
    settled_congr _ fun name hm => h _ (List.mem_map_of_mem hm)]

end Provider

namespace Registry

lemma startAll_congr (providers : List Provider) :
    ∀ {values : Table String Value}, merged.AgreeOn (providers.flatMap Provider.keys) merged' →
      startAll now merged providers values = startAll now merged' providers values := by
  induction providers with
  | nil => exact fun _ => rfl
  | cons p rest ih =>
      intro values h
      rw [List.flatMap_cons] at h
      have hp : p.initialValues now merged = p.initialValues now merged' :=
        Provider.initialValues_congr fun key hk => h key (List.mem_append_left _ hk)
      have hrest : ∀ values, startAll now merged rest values = startAll now merged' rest values :=
        fun values => ih fun key hk => h key (List.mem_append_right _ hk)
      simp only [startAll, hp, hrest]

/-- **Only what is given under the keys of the registry counts.** -/
lemma initialAttributes_congr {r' : Registry} {overrides' : Table String Value}
    (same : r'.providers = r.providers) (defaults : r'.defaults.AgreeOn r.keys r.defaults)
    (given : overrides'.AgreeOn r.keys overrides) :
    r'.initialAttributes now overrides' = r.initialAttributes now overrides := by
  rw [initialAttributes, initialAttributes, same]
  refine startAll_congr _ fun key hk => ?_
  have hkey : key ∈ r.keys := by rwa [keys, declarations_keys]
  rw [Table.get?_update, Table.get?_update, defaults key hkey, given key hkey]

lemma get?_knownEntries {keys : List String} {t : Table String Value} :
    (knownEntries keys t).get? key = some v ↔ t.get? key = some v ∧ key ∈ keys := by
  rw [Table.get?_eq_some_iff, Table.get?_eq_some_iff, knownEntries, List.mem_filter]
  simp

/-- A registry of the same providers can be built with any other defaults. -/
lemma build_of_build {providers : List Provider} {defaults : Table String Value}
    (built : build providers defaults = .ok r) (defaults' : Table String Value) :
    build providers defaults' = .ok ⟨r.providers, knownEntries r.keys defaults'⟩ :=
  build_eq_ok_iff.2 ⟨(build_eq_ok_iff.1 built).1, rfl⟩

/-! ## Warnings -/

lemma result_initial : (r.initial now overrides).result = r.initialAttributes now overrides := by
  simp [initial]

lemma records_initial :
    (r.initial now overrides).records = ignoredRecords r.keys overrides := by
  simp [initial, bind, Logged.andThen, Logged.recordAll, Logged.lift]

/-- **Every override of an unknown attribute is warned about once.** -/
lemma count_ignoredRecords {keys : List String} {values : Table String Value} :
    (ignoredRecords keys values).count
        ⟨.warning, "Ignoring default value for unknown attribute " ++ key⟩
      = if key ∈ values.keys ∧ key ∉ keys then 1 else 0 := by
  have hinj : Function.Injective fun key =>
      (⟨.warning, "Ignoring default value for unknown attribute " ++ key⟩ : Record) := by
    intro a b h
    simpa using h
  have hnodup : (unknownKeys keys values).Nodup := values.keys_nodup.filter _
  rw [ignoredRecords, (hnodup.map hinj).count]
  simp only [List.mem_map_of_injective hinj, unknownKeys, List.mem_filter, decide_eq_true_eq]

end Registry

/-! ## All of it -/

/-- Of the standard attributes the three times start with the clock, and they can be set. -/
lemma clocked_iff_of_mem_catalog (hp : p ∈ Provider.catalog)
    (declared : p.attributes.get? name = some spec) :
    (spec.start = .currentTime ↔ p = .basic ∧ name ∈ timeNames) ∧
      (spec.start = .currentTime → spec.settable = true) := by
  cases Provider.standardAttribute_of_mem_catalog hp declared with
  | time named => simp [timeAttribute, named]
  | fact fact other => simp [factAttribute, other]
  | owner => simp [ownerAttribute, Provider.owner, Provider.basic, Provider.standard]
  | group => simp [groupAttribute, Provider.posix, Provider.basic, Provider.standard]
  | permissions => simp [permissionsAttribute, Provider.posix, Provider.basic, Provider.standard]
  | flag flag => simp [flagAttribute, Provider.dos, Provider.basic, Provider.standard]

namespace Registry

/-- **The values of a new node, in full.**  The defaults of the registry are overwritten by the
overrides.  There is an error exactly if some attribute refuses what it is given, and it is the one
of the first of these attributes.  Otherwise every attribute holds what it is given, in stored form,
or else what it starts with by itself, and nothing else is held; the times of the basic view are
what the clock is for.  Overrides under other keys are warned about, each once, and do not matter
otherwise, and neither does the order of overrides and defaults. -/
theorem initial_values_in_full {providers : List Provider} {defaults : Table String Value}
    (built : build providers defaults = .ok r) (now : Moment) (overrides : Table String Value) :
    let merged := r.defaults.update overrides
    (∀ e, r.initialAttributes now overrides = .error e ↔ FirstRefusal merged r.declared e) ∧
    ((∃ e, r.initialAttributes now overrides = .error e) ↔
      ∃ a ∈ r.declared, ∃ e, a.Refuses merged e) ∧
    (∀ values, r.initialAttributes now overrides = .ok values → ∀ key v,
      values.get? key = some v ↔ ∃ a ∈ r.declared, key = a.key ∧ a.Starts now merged v) ∧
    (∀ a ∈ r.declared, a.provider ∈ Provider.catalog →
      (a.spec.start = .currentTime ↔ a.provider = .basic ∧ a.name ∈ timeNames) ∧
      (a.spec.start = .currentTime → a.spec.settable = true)) ∧
    ((r.initial now overrides).result = r.initialAttributes now overrides ∧
      (∀ record ∈ (r.initial now overrides).records, ∃ key,
        record = ⟨.warning, "Ignoring default value for unknown attribute " ++ key⟩) ∧
      ∀ key, (r.initial now overrides).records.count
          ⟨.warning, "Ignoring default value for unknown attribute " ++ key⟩
        = if key ∈ overrides.keys ∧ key ∉ r.keys then 1 else 0) ∧
    ∀ defaults' overrides', defaults'.AgreeOn r.keys defaults → overrides'.AgreeOn r.keys overrides →
      ∃ r', build providers defaults' = .ok r' ∧
        r'.initialAttributes now overrides' = r.initialAttributes now overrides := by
  refine ⟨fun e => initialAttributes_eq_error_iff, ?_, ?_, ?_, ⟨result_initial, ?_, ?_⟩, ?_⟩
  · simp only [initialAttributes_eq_error_iff, exists_firstRefusal_iff]
  · intro values h key v
    rw [initialAttributes_get?_iff (keys_nodup_of_build built) h]
    constructor
    · rintro ⟨p, hp, name, spec, hd, hk, starts⟩
      exact ⟨⟨p, name, spec⟩, mem_declared_iff.2 ⟨hp, hd⟩, hk, starts⟩
    · rintro ⟨a, ha, hk, starts⟩
      obtain ⟨hp, hd⟩ := mem_declared_iff.1 ha
      exact ⟨a.provider, hp, a.name, a.spec, hd, hk, starts⟩
  · exact fun a ha hc => clocked_iff_of_mem_catalog hc (mem_declared_iff.1 ha).2
  · intro record hr
    rw [records_initial, ignoredRecords] at hr
    obtain ⟨key, -, rfl⟩ := List.mem_map.1 hr
    exact ⟨key, rfl⟩
  · intro key
    rw [records_initial, count_ignoredRecords]
  · intro defaults' overrides' hd ho
    refine ⟨_, build_of_build built defaults', initialAttributes_congr rfl ?_ ho⟩
    intro key hk
    rw [(build_eq_ok_iff.1 built).2]
    refine Option.ext fun v => ?_
    rw [get?_knownEntries, get?_knownEntries, hd key hk]

/-- A fact of the node is refused before a flag, though the flag is given first; and a name that is
unknown is warned about even if no value is given with it. -/
theorem initial_values_in_full_dos :
    ∃ r, build [.dos, .basic] (.ofList [("dos:hidden", .bool true)]) = .ok r ∧
      r.initialAttributes default (.ofList [("dos:system", .int 1), ("basic:size", .int 0)])
        = .error (.derived "basic:size") ∧
      (r.initial default (.ofList [("dos:owner", .null)])).records.count
        ⟨.warning, "Ignoring default value for unknown attribute dos:owner"⟩ = 1 := by
  have built : build [.dos, .basic] (.ofList [("dos:hidden", .bool true)])
      = .ok ⟨[.basic, .dos], .ofList [("dos:hidden", .bool true)]⟩ := rfl
  refine ⟨_, built, ?_, ?_⟩
  · obtain ⟨errors, -⟩ := initial_values_in_full built default
      (.ofList [("dos:system", .int 1), ("basic:size", .int 0)])
    have quiet : ∀ {a : Declared} {merged : Table String Value}, merged.get? a.key = none →
        ∀ e, ¬ a.Refuses merged e := by
      rintro a merged h e (⟨given, -, -⟩ | ⟨given, -, -, -⟩) <;> simp [h] at given
    refine (errors _).2 ?_
    exact .later (quiet rfl) (.later (quiet rfl) (.later (quiet rfl)
      (.here (.derived rfl (by simp) rfl))))
  · obtain ⟨-, -, -, -, ⟨-, -, warnings⟩, -⟩ := initial_values_in_full built default
      (.ofList [("dos:owner", .null)])
    exact (warnings "dos:owner").trans (if_pos (by decide))

end Registry

end AttributeViews

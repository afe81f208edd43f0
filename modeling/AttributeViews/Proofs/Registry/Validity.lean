import AttributeViews.Proofs.Registry.Building
import AttributeViews.Proofs.Registry.Inheritance
import Mathlib.Data.String.Basic

/-!
# Which providers fit together

A list of providers may have four kinds of faults.  Each of them is a condition on the list alone,
which says nothing of the order in which the walk of `arrange` comes by, and each check finds its
own kind: a registry is built exactly if there is no fault at all.

* `ViewsDistinct`, `InheritanceComplete`, `InheritanceAcyclic`, `KeysDistinct` — the conditions.
* **`perm_of_arrange`** — an arrangement has the providers of the list, each once.
* **`exists_arrange_iff`** — there is one exactly if no view inherits itself.
* **`Registry.build_exact`** — the four conditions together, and which of them a failure reports.
-/

namespace AttributeViews

variable {providers ordered : List Provider} {p q : Provider} {names : List String}
  {view other : String}

/-! ## Conditions -/

/-- A view inherits another one directly. -/
def Inherits (providers : List Provider) (view other : String) : Prop :=
  ∃ p ∈ providers, p.name = view ∧ other ∈ p.inherits

/-- No two providers are for the same view. -/
def ViewsDistinct (providers : List Provider) : Prop :=
  (providers.map (·.name)).Nodup

/-- Every view that is inherited has a provider. -/
def InheritanceComplete (providers : List Provider) : Prop :=
  ∀ view other, Inherits providers view other → ∃ q ∈ providers, q.name = other

/-- No view inherits itself, directly or by way of others. -/
def InheritanceAcyclic (providers : List Provider) : Prop :=
  ∀ view, ¬ Relation.TransGen (Inherits providers) view view

/-- No two attributes have the same key. -/
def KeysDistinct (providers : List Provider) : Prop :=
  ∀ p ∈ providers, ∀ q ∈ providers, ∀ a b, p.supports a = true → q.supports b = true →
    p.qualified a = q.qualified b → p = q ∧ a = b

/-- The kind of the first condition that does not hold. -/
inductive FirstFault (providers : List Provider) : ErrorKind → Prop
  | repeated (fault : ¬ ViewsDistinct providers) : FirstFault providers .providerConflict
  | missing (distinct : ViewsDistinct providers) (fault : ¬ InheritanceComplete providers) :
      FirstFault providers .unknownInheritedView
  | circular (distinct : ViewsDistinct providers) (complete : InheritanceComplete providers)
      (fault : ¬ InheritanceAcyclic providers) : FirstFault providers .inheritanceCycle
  | shared (distinct : ViewsDistinct providers) (complete : InheritanceComplete providers)
      (acyclic : InheritanceAcyclic providers) (fault : ¬ KeysDistinct providers) :
      FirstFault providers .attributeCollision

/-! ## Names -/

/-- Names are compared by a total order. -/
lemma eq_of_not_lt {a b : String} (hab : decide (a < b) = false) (hba : decide (b < a) = false) :
    a = b := by
  have hle : b ≤ a := not_lt.1 (of_decide_eq_false hab)
  have hge : a ≤ b := not_lt.1 (of_decide_eq_false hba)
  exact le_antisymm hge hle

lemma mem_sortNames {name : String} : name ∈ sortNames names ↔ name ∈ names :=
  mem_sorted fun _ _ => eq_of_not_lt

lemma pairwise_sortNames (names : List String) : (sortNames names).Pairwise (· < ·) := by
  have hsorted : (sortNames names).Pairwise fun a b => decide (a < b) = true :=
    pairwise_sorted (fun _ _ => eq_of_not_lt)
      (fun _ _ _ hab hbc => decide_eq_true ((of_decide_eq_true hab).trans (of_decide_eq_true hbc)))
      names
  exact hsorted.imp of_decide_eq_true

lemma nodup_sortNames (names : List String) : (sortNames names).Nodup :=
  (pairwise_sortNames names).imp ne_of_lt

lemma firstRepeated?_eq_none_iff (names : List String) :
    ∀ {seen : List String}, firstRepeated? seen names = none ↔
      names.Nodup ∧ ∀ name ∈ names, name ∉ seen := by
  induction names with
  | nil => simp [firstRepeated?]
  | cons name rest ih =>
      intro seen
      rw [firstRepeated?]
      by_cases hs : name ∈ seen
      · simp [hs]
      · rw [if_neg hs, ih, List.nodup_cons]
        simp only [List.mem_cons, not_or, forall_eq_or_imp]
        constructor
        · rintro ⟨hnd, hall⟩
          exact ⟨⟨fun hm => (hall name hm).1 rfl, hnd⟩, hs, fun other ho => (hall other ho).2⟩
        · rintro ⟨⟨hnot, hnd⟩, -, hall⟩
          refine ⟨hnd, fun other ho => ⟨?_, hall other ho⟩⟩
          rintro rfl
          exact hnot ho

lemma viewsDistinct_iff :
    ViewsDistinct providers ↔ firstRepeated? [] (providers.map (·.name)) = none := by
  rw [firstRepeated?_eq_none_iff, ViewsDistinct]
  simp

lemma missingView?_eq_none_iff :
    missingView? names providers = none ↔
      ∀ p ∈ providers, ∀ other ∈ p.inherits, other ∈ names := by
  simp only [missingView?, List.findSome?_eq_none_iff, Option.map_eq_none_iff,
    List.find?_eq_none, Provider.inherited, mem_sortNames, decide_eq_true_eq, not_not]

lemma inheritanceComplete_iff :
    InheritanceComplete providers ↔
      missingView? (providers.map (·.name)) providers = none := by
  rw [missingView?_eq_none_iff, InheritanceComplete]
  simp only [List.mem_map]
  constructor
  · exact fun h p hp other ho => h p.name other ⟨p, hp, rfl, ho⟩
  · rintro h view other ⟨p, hp, -, ho⟩
    exact h p hp other ho

/-! ## The walk along inheritance -/

/-- Where views are distinct, the provider of a view is the one with its name. -/
lemma providerOf?_eq_some_iff (distinct : ViewsDistinct providers) :
    providerOf? providers view = some p ↔ p ∈ providers ∧ p.name = view := by
  constructor
  · intro h
    exact ⟨List.mem_of_find?_eq_some h, by simpa using List.find?_some h⟩
  · rintro ⟨hp, rfl⟩
    cases hf : providerOf? providers p.name with
    | none =>
        have := List.find?_eq_none.1 hf p hp
        simp at this
    | some q =>
        have hq : q ∈ providers := List.mem_of_find?_eq_some hf
        have hname : q.name = p.name := by simpa using List.find?_some hf
        rw [List.inj_on_of_nodup_map distinct hq hp hname]

lemma mem_inheritedBy_iff (distinct : ViewsDistinct providers) :
    other ∈ inheritedBy providers view ↔ Inherits providers view other := by
  rw [inheritedBy, Inherits]
  cases hf : providerOf? providers view with
  | none =>
      constructor
      · intro hm
        cases hm
      · rintro ⟨p, hp, hname, -⟩
        rw [(providerOf?_eq_some_iff distinct).2 ⟨hp, hname⟩] at hf
        cases hf
  | some p =>
      obtain ⟨hp, hname⟩ := (providerOf?_eq_some_iff distinct).1 hf
      dsimp only
      rw [Provider.inherited, mem_sortNames]
      constructor
      · exact fun ho => ⟨p, hp, hname, ho⟩
      · rintro ⟨q, hq, hname', ho⟩
        rw [List.inj_on_of_nodup_map distinct hp hq (hname.trans hname'.symm)]
        exact ho

/-- What the walk goes along is inheritance. -/
lemma mem_inheritedBy_eq (distinct : ViewsDistinct providers) :
    (fun view other => other ∈ inheritedBy providers view) = Inherits providers :=
  funext₂ fun _ _ => propext (mem_inheritedBy_iff distinct)

/-- What inherits something has a provider. -/
lemma exists_provider_of_transGen (h : Relation.TransGen (Inherits providers) view other) :
    ∃ p ∈ providers, p.name = view := by
  obtain ⟨_, ⟨p, hp, hname, -⟩, -⟩ := Relation.TransGen.head'_iff.1 h
  exact ⟨p, hp, hname⟩

lemma inheritedBy_subset (distinct : ViewsDistinct providers)
    (complete : InheritanceComplete providers) :
    ∀ view ∈ providers.map (·.name),
      inheritedBy providers view ⊆ providers.map (·.name) := by
  intro view _ other ho
  obtain ⟨q, hq, hname⟩ := complete view other ((mem_inheritedBy_iff distinct).1 ho)
  exact List.mem_map.2 ⟨q, hq, hname⟩

/-- Providers of different views are told apart by their names, so their order is that of the
names. -/
lemma filterMap_providerOf? (distinct : ViewsDistinct providers)
    (known : ∀ p ∈ ordered, p ∈ providers) :
    (ordered.map (·.name)).filterMap (providerOf? providers) = ordered := by
  rw [List.filterMap_map]
  conv_rhs => rw [← List.filterMap_some (l := ordered)]
  refine List.filterMap_congr fun p hp => ?_
  exact (providerOf?_eq_some_iff distinct).2 ⟨known p hp, rfl⟩

/-- The names of an arrangement are what the walk answers, each behind those that it inherits. -/
lemma exists_order_of_arrange (distinct : ViewsDistinct providers)
    (complete : InheritanceComplete providers) (h : arrange providers = .ok ordered) :
    ∃ order, postorder (inheritedBy providers) (providers.map (·.name)).length
        (providers.map (·.name)) = .ok order ∧ Arranged (inheritedBy providers) order ∧
      (∀ view, view ∈ order ↔ view ∈ providers.map (·.name)) ∧
        ordered = order.filterMap (providerOf? providers) := by
  rw [arrange] at h
  split at h
  · cases h
  · next order ho =>
    obtain rfl := Except.ok.inj h
    obtain ⟨arranged, known, found⟩ :=
      arranged_of_postorder (inheritedBy_subset distinct complete) (List.Subset.refl _) ho
    exact ⟨order, ho, arranged, fun view => ⟨fun hm => known hm, fun hm => found hm⟩, rfl⟩

/-- **The arrangement of a list** has its providers in another order. -/
lemma perm_of_arrange (distinct : ViewsDistinct providers)
    (complete : InheritanceComplete providers) (h : arrange providers = .ok ordered) :
    ordered.Perm providers := by
  obtain ⟨order, -, arranged, hmem, rfl⟩ := exists_order_of_arrange distinct complete h
  have hperm := (List.perm_ext_iff_of_nodup arranged.nodup distinct).2 hmem
  have hproviders := hperm.filterMap (providerOf? providers)
  rwa [filterMap_providerOf? distinct fun _ hp => hp] at hproviders

/-- Where no view inherits itself, the walk comes upon no circle, whatever it is begun with. -/
lemma exists_postorder {starts : List String} (distinct : ViewsDistinct providers)
    (complete : InheritanceComplete providers) (acyclic : InheritanceAcyclic providers)
    (known : starts ⊆ providers.map (·.name)) :
    ∃ order, postorder (inheritedBy providers) (providers.map (·.name)).length starts = .ok order ∧
      Arranged (inheritedBy providers) order ∧ order ⊆ providers.map (·.name) ∧
        starts ⊆ order := by
  cases h : postorder (inheritedBy providers) (providers.map (·.name)).length starts with
  | error cycle =>
      have circle := circle_of_postorder h
      obtain ⟨view, between, rfl⟩ := circle.closed
      have loop := circle.transGen (List.mem_append_right _ (List.mem_singleton_self view))
        (List.mem_append_right _ (List.mem_singleton_self view))
      rw [mem_inheritedBy_eq distinct] at loop
      exact absurd loop (acyclic view)
  | ok order =>
      exact ⟨order, rfl, arranged_of_postorder (inheritedBy_subset distinct complete) known h⟩

/-- **The walk succeeds exactly if no view inherits itself**: there is no circle in an arranged
list. -/
lemma exists_arrange_iff (distinct : ViewsDistinct providers)
    (complete : InheritanceComplete providers) :
    (∃ ordered, arrange providers = .ok ordered) ↔ InheritanceAcyclic providers := by
  constructor
  · rintro ⟨ordered, h⟩ view loop
    obtain ⟨order, -, arranged, hmem, -⟩ := exists_order_of_arrange distinct complete h
    have hview : view ∈ order :=
      (hmem view).2 (List.mem_map.2 (exists_provider_of_transGen loop))
    rw [← mem_inheritedBy_eq distinct] at loop
    exact arranged.not_transGen hview loop
  · intro acyclic
    obtain ⟨order, ho, -⟩ := exists_postorder distinct complete acyclic (List.Subset.refl _)
    rw [arrange, ho]
    exact ⟨_, rfl⟩

lemma kind_of_arrange {e : Error} (h : arrange providers = .error e) :
    e.kind = .inheritanceCycle := by
  rw [arrange] at h
  split at h
  · rw [← Except.error.inj h]
    rfl
  · cases h

/-! ## Keys -/

/-- Keys are told apart by attributes exactly if no key stands twice among those of all providers,
in whatever order these come. -/
lemma keysDistinct_iff (distinct : ViewsDistinct providers) (perm : ordered.Perm providers) :
    KeysDistinct providers ↔ firstCollision? .empty (declarations ordered) = none := by
  rw [firstCollision?_eq_none_iff, declarations_keys, (perm.flatMap_right _).nodup_iff]
  have hempty : ∀ key ∈ providers.flatMap Provider.keys,
      (Table.empty : Table String String).get? key = none := fun _ _ => rfl
  simp only [Table.get?_empty, implies_true, and_true]
  constructor
  · intro h
    rw [List.nodup_flatMap]
    refine ⟨fun p hp => ?_, ?_⟩
    · refine List.Nodup.map_on ?_ p.attributes.keys_nodup
      intro a ha b hb hab
      exact (h p hp p hp a b (Table.contains_iff.2 ha) (Table.contains_iff.2 hb) hab).2
    · refine (List.Nodup.of_map _ distinct).imp_of_mem ?_
      intro p q hp hq hne key hkp hkq
      obtain ⟨a, ha, rfl⟩ := List.mem_map.1 hkp
      obtain ⟨b, hb, hab⟩ := List.mem_map.1 hkq
      exact hne (h p hp q hq a b (Table.contains_iff.2 ha) (Table.contains_iff.2 hb) hab.symm).1
  · intro nodup p hp q hq a b ha hb hab
    have hkeys : (⟨providers, .empty⟩ : Registry).keys.Nodup := by
      rwa [Registry.keys, declarations_keys]
    exact Registry.qualified_injective hkeys hp ha hq hb hab

/-! ## All conditions -/

/-- The four conditions are the four checks. -/
lemma exists_fitTogether_iff :
    (∃ ordered, fitTogether providers = .ok ordered) ↔
      ViewsDistinct providers ∧ InheritanceComplete providers ∧ InheritanceAcyclic providers ∧
        KeysDistinct providers := by
  simp only [fitTogether_eq_ok_iff, ← viewsDistinct_iff, ← inheritanceComplete_iff]
  constructor
  · rintro ⟨ordered, distinct, complete, ha, hc⟩
    exact ⟨distinct, complete, (exists_arrange_iff distinct complete).1 ⟨ordered, ha⟩,
      (keysDistinct_iff distinct (perm_of_arrange distinct complete ha)).2 hc⟩
  · rintro ⟨distinct, complete, acyclic, keys⟩
    obtain ⟨ordered, ha⟩ := (exists_arrange_iff distinct complete).2 acyclic
    exact ⟨ordered, distinct, complete, ha,
      (keysDistinct_iff distinct (perm_of_arrange distinct complete ha)).1 keys⟩

/-- The check that a failure comes from: those before it have found nothing. -/
lemma cases_of_fitTogether_error {e : Error} (h : fitTogether providers = .error e) :
    (∃ view, firstRepeated? [] (providers.map (·.name)) = some view ∧
      e = .duplicateProvider view) ∨
    firstRepeated? [] (providers.map (·.name)) = none ∧
      ((∃ missing, missingView? (providers.map (·.name)) providers = some missing ∧
        e = .unknownInherited missing.1 missing.2) ∨
      missingView? (providers.map (·.name)) providers = none ∧
        (arrange providers = .error e ∨
        ∃ ordered, arrange providers = .ok ordered ∧
          ∃ collision, firstCollision? .empty (declarations ordered) = some collision ∧
            e = .attributeCollision collision.1 collision.2.1 collision.2.2)) := by
  simp only [fitTogether] at h
  cases hr : firstRepeated? [] (providers.map (·.name)) with
  | some view =>
      rw [hr] at h
      exact Or.inl ⟨view, rfl, (Except.error.inj h).symm⟩
  | none =>
      rw [hr] at h
      refine Or.inr ⟨rfl, ?_⟩
      cases hm : missingView? (providers.map (·.name)) providers with
      | some missing =>
          rw [hm] at h
          exact Or.inl ⟨missing, rfl, (Except.error.inj h).symm⟩
      | none =>
          rw [hm] at h
          refine Or.inr ⟨rfl, ?_⟩
          cases ha : arrange providers with
          | error cause =>
              rw [ha] at h
              exact Or.inl (congrArg Except.error (Except.error.inj h))
          | ok ordered =>
              simp only [ha, ok_bind] at h
              refine Or.inr ⟨ordered, rfl, ?_⟩
              cases hc : firstCollision? .empty (declarations ordered) with
              | none =>
                  rw [hc] at h
                  cases h
              | some collision =>
                  rw [hc] at h
                  exact ⟨collision, rfl, (Except.error.inj h).symm⟩

/-- A failure is of the kind of the first fault. -/
lemma firstFault_of_fitTogether {e : Error} (h : fitTogether providers = .error e) :
    FirstFault providers e.kind := by
  rcases cases_of_fitTogether_error h with ⟨view, hr, rfl⟩ | ⟨hr, h⟩
  · refine .repeated fun distinct => ?_
    rw [viewsDistinct_iff.1 distinct] at hr
    cases hr
  have distinct : ViewsDistinct providers := viewsDistinct_iff.2 hr
  rcases h with ⟨missing, hm, rfl⟩ | ⟨hm, h⟩
  · refine .missing distinct fun complete => ?_
    rw [inheritanceComplete_iff.1 complete] at hm
    cases hm
  have complete : InheritanceComplete providers := inheritanceComplete_iff.2 hm
  rcases h with ha | ⟨ordered, ha, collision, hc, rfl⟩
  · rw [kind_of_arrange ha]
    refine .circular distinct complete fun acyclic => ?_
    obtain ⟨ordered, ho⟩ := (exists_arrange_iff distinct complete).2 acyclic
    rw [ha] at ho
    cases ho
  · have hperm := perm_of_arrange distinct complete ha
    refine .shared distinct complete ((exists_arrange_iff distinct complete).1 ⟨ordered, ha⟩)
      fun keys => ?_
    rw [(keysDistinct_iff distinct hperm).1 keys] at hc
    cases hc

/-- There is only one first fault, and none where all conditions hold. -/
lemma FirstFault.unique {kind kind' : ErrorKind} (h : FirstFault providers kind)
    (h' : FirstFault providers kind') : kind = kind' := by
  cases h <;> cases h' <;> simp_all

lemma FirstFault.not_all {kind : ErrorKind} (h : FirstFault providers kind) :
    ¬ (ViewsDistinct providers ∧ InheritanceComplete providers ∧ InheritanceAcyclic providers ∧
      KeysDistinct providers) := by
  rintro ⟨distinct, complete, acyclic, keys⟩
  cases h <;> contradiction

namespace Registry

lemma build_eq_error_iff {defaults : Table String Value} {e : Error} :
    build providers defaults = .error e ↔ fitTogether providers = .error e := by
  rw [build]
  cases fitTogether providers with
  | error cause => simp
  | ok ordered => simp [pure_eq_ok]

/-- What a registry has been built from has none of the faults. -/
lemma fits_of_build {defaults : Table String Value} {r : Registry}
    (built : build providers defaults = .ok r) :
    ViewsDistinct providers ∧ InheritanceComplete providers ∧ InheritanceAcyclic providers ∧
      KeysDistinct providers :=
  exists_fitTogether_iff.1 ⟨r.providers, (build_eq_ok_iff.1 built).1⟩

/-- **Building a registry succeeds exactly if the providers fit together**: no two of them are for
the same view, every inherited view has a provider, no view inherits itself, and no two attributes
share a key.  Otherwise the error is of the kind of the first condition, in this order, that does
not hold. -/
theorem build_exact (providers : List Provider) (defaults : Table String Value) :
    ((∃ r, build providers defaults = .ok r) ↔
      ViewsDistinct providers ∧ InheritanceComplete providers ∧ InheritanceAcyclic providers ∧
        KeysDistinct providers) ∧
    ∀ kind, (∃ e, build providers defaults = .error e ∧ e.kind = kind) ↔
      FirstFault providers kind := by
  have hok : (∃ r, build providers defaults = .ok r) ↔
      ViewsDistinct providers ∧ InheritanceComplete providers ∧ InheritanceAcyclic providers ∧
        KeysDistinct providers := by
    rw [← exists_fitTogether_iff]
    constructor
    · rintro ⟨r, built⟩
      exact ⟨r.providers, (build_eq_ok_iff.1 built).1⟩
    · rintro ⟨ordered, h⟩
      exact ⟨⟨ordered, knownEntries ((declarations ordered).map Prod.fst) defaults⟩,
        build_eq_ok_iff.2 ⟨h, rfl⟩⟩
  refine ⟨hok, fun kind => ⟨?_, fun fault => ?_⟩⟩
  · rintro ⟨e, h, rfl⟩
    exact firstFault_of_fitTogether (build_eq_error_iff.1 h)
  · cases hb : build providers defaults with
    | ok r => exact absurd (hok.1 ⟨r, hb⟩) fault.not_all
    | error e =>
        exact ⟨e, rfl, (firstFault_of_fitTogether (build_eq_error_iff.1 hb)).unique fault⟩

end Registry

end AttributeViews

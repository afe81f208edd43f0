import AttributeViews.Proofs.Answers
import AttributeViews.Registry
import Mathlib.Data.List.Nodup
import Mathlib.Data.List.Pairwise

/-!
# What a registry can rely on

The checks that a list of providers has passed before there is a registry, as facts about this
registry.

* `firstCollision?_eq_none_iff` — no two declarations share a key.
* **`Registry.qualified_injective`** — so the key of an attribute says which attribute it is.
-/

namespace AttributeViews

variable {providers ordered : List Provider} {defaults : Table String Value} {r : Registry}
  {p q : Provider}

lemma firstCollision?_eq_none_iff (declared : List (String × String)) :
    ∀ {owners : Table String String},
      firstCollision? owners declared = none ↔
        (declared.map Prod.fst).Nodup ∧ ∀ key ∈ declared.map Prod.fst, owners.get? key = none := by
  induction declared with
  | nil => simp [firstCollision?]
  | cons declaration rest ih =>
      obtain ⟨key, view⟩ := declaration
      intro owners
      rw [firstCollision?]
      cases hk : owners.get? key with
      | some first => simp [hk]
      | none =>
          simp only [ih, List.map_cons, List.nodup_cons, List.mem_cons, forall_eq_or_imp, hk,
            Table.get?_insert]
          constructor
          · rintro ⟨hnd, hall⟩
            refine ⟨⟨fun hm => ?_, hnd⟩, trivial, fun other hm => ?_⟩
            · have := hall key hm
              rw [if_pos rfl] at this
              cases this
            · have := hall other hm
              split_ifs at this
              exact this
          · rintro ⟨⟨hnot, hnd⟩, -, hall⟩
            refine ⟨hnd, fun other hm => ?_⟩
            have hne : key ≠ other := by
              rintro rfl
              exact hnot hm
            rw [if_neg hne, hall other hm]

lemma declarations_keys : (declarations providers).map Prod.fst = providers.flatMap Provider.keys := by
  simp [declarations, List.map_flatMap, Function.comp_def]

/-- **When providers fit together**: none of the four faults is found. -/
lemma fitTogether_eq_ok_iff :
    fitTogether providers = .ok ordered ↔
      firstRepeated? [] (providers.map (·.name)) = none ∧
        missingView? (providers.map (·.name)) providers = none ∧
        arrange providers = .ok ordered ∧ firstCollision? .empty (declarations ordered) = none := by
  simp only [fitTogether]
  cases firstRepeated? [] (providers.map (·.name)) with
  | some view => simp
  | none =>
      cases missingView? (providers.map (·.name)) providers with
      | some missing => simp
      | none =>
          simp only [bind_eq_ok_iff, true_and]
          constructor
          · rintro ⟨ordered', ha, h⟩
            cases hc : firstCollision? .empty (declarations ordered') with
            | some collision => simp [hc] at h
            | none =>
                simp only [hc] at h
                obtain rfl := Except.ok.inj h
                exact ⟨ha, hc⟩
          · rintro ⟨ha, hc⟩
            exact ⟨ordered, ha, by simp only [hc]; rfl⟩

/-- The providers of a registry are some of those it was built from. -/
lemma mem_of_arrange (h : arrange providers = .ok ordered) (hp : p ∈ ordered) : p ∈ providers := by
  rw [arrange] at h
  split at h
  · cases h
  · obtain rfl := Except.ok.inj h
    rcases List.mem_filterMap.1 hp with ⟨view, -, hf⟩
    exact List.mem_of_find?_eq_some hf

namespace Registry

lemma build_eq_ok_iff :
    build providers defaults = .ok r ↔
      fitTogether providers = .ok r.providers ∧ r.defaults = knownEntries r.keys defaults := by
  simp only [build, bind_eq_ok_iff]
  constructor
  · rintro ⟨ordered, hf, h⟩
    obtain rfl := Except.ok.inj h
    exact ⟨hf, rfl⟩
  · rintro ⟨hf, hd⟩
    refine ⟨r.providers, hf, congrArg Except.ok ?_⟩
    rw [← keys, ← hd]

lemma mem_of_build (built : build providers defaults = .ok r) (hp : p ∈ r.providers) :
    p ∈ providers :=
  mem_of_arrange (fitTogether_eq_ok_iff.1 (build_eq_ok_iff.1 built).1).2.2.1 hp

/-- No key of a registry belongs to two attributes. -/
lemma keys_nodup_of_build (built : build providers defaults = .ok r) : r.keys.Nodup :=
  ((firstCollision?_eq_none_iff _).1
    (fitTogether_eq_ok_iff.1 (build_eq_ok_iff.1 built).1).2.2.2).1

/-- **A key says which attribute it belongs to**, also between providers whose scopes and names are
cut at different colons. -/
lemma qualified_injective (nodup : r.keys.Nodup) {a b : String} (hp : p ∈ r.providers)
    (ha : p.supports a = true) (hq : q ∈ r.providers) (hb : q.supports b = true)
    (same : p.qualified a = q.qualified b) : p = q ∧ a = b := by
  rw [keys, declarations_keys, List.nodup_flatMap] at nodup
  have hpa : p.qualified a ∈ p.keys := List.mem_map_of_mem (Table.contains_iff.1 ha)
  have hqb : q.qualified b ∈ q.keys := List.mem_map_of_mem (Table.contains_iff.1 hb)
  have heq : p = q := by
    by_contra hne
    have : Std.Symm (Function.onFun List.Disjoint Provider.keys) := ⟨fun _ _ h _ ha hb => h hb ha⟩
    have hdisjoint := nodup.2.forall hp hq hne
    exact hdisjoint hpa (same ▸ hqb)
  subst heq
  exact ⟨rfl, List.inj_on_of_nodup_map (nodup.1 p hp) (Table.contains_iff.1 ha)
    (Table.contains_iff.1 hb) same⟩

end Registry

end AttributeViews

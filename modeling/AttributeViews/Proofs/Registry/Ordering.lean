import AttributeViews.Proofs.Registry.Circles
import AttributeViews.Proofs.Registry.Closure

/-!
# The order of the providers

A registry keeps its providers as the depth-first walk has finished them.  Every one of them stands
behind what it inherits, and where they have been given like that already, the walk finds all that a
provider inherits finished when it comes to it, and changes nothing.

* `Precedes` — a name stands before another one.
* **`Arranged.precedes`** — in an arranged list a name is preceded by all that it leads to.
* **`postorder_of_arranged`** — the walk leaves an arranged list as it is.
* **`Registry.providers_in_inheritance_order`** — both, for the providers of a registry.
-/

namespace AttributeViews

variable {successors : String → List String} {names order front back path done : List String}
  {name x y : String} {depth : Nat}

/-! ## Standing before another name -/

/-- A name stands before another one in a list. -/
def Precedes (order : List String) (x y : String) : Prop := [x, y].Sublist order

instance : Decidable (Precedes order x y) := inferInstanceAs (Decidable ([x, y].Sublist order))

lemma Precedes.mem_left (h : Precedes order x y) : x ∈ order := h.subset (by simp)

lemma Precedes.mem_right (h : Precedes order x y) : y ∈ order := h.subset (by simp)

lemma precedes_iff :
    Precedes order x y ↔ ∃ front back, order = front ++ back ∧ x ∈ front ∧ y ∈ back := by
  simp only [Precedes, List.cons_sublist_iff, List.nil_sublist, and_true]
  constructor
  · rintro ⟨front, _, rfl, hx, middle, back, rfl, hy⟩
    exact ⟨front, middle ++ back, rfl, hx, List.mem_append_left _ hy⟩
  · rintro ⟨front, back, rfl, hx, hy⟩
    exact ⟨front, back, rfl, hx, back, [], by simp, hy⟩

/-- In two lists behind each other a name precedes those that it did, and a name of the first list
all those of the second one. -/
lemma precedes_append_iff :
    Precedes (front ++ back) x y ↔
      Precedes front x y ∨ (x ∈ front ∧ y ∈ back) ∨ Precedes back x y := by
  constructor
  · intro h
    obtain ⟨before, behind, he, hx, hy⟩ := precedes_iff.1 h
    -- one list is cut by the other cut
    rcases List.append_eq_append_iff.1 he with ⟨middle, rfl, rfl⟩ | ⟨middle, rfl, rfl⟩
    · rcases List.mem_append.1 hx with hx | hx
      · exact Or.inr (Or.inl ⟨hx, List.mem_append_right _ hy⟩)
      · exact Or.inr (Or.inr (precedes_iff.2 ⟨_, _, rfl, hx, hy⟩))
    · rcases List.mem_append.1 hy with hy | hy
      · exact Or.inl (precedes_iff.2 ⟨_, _, rfl, hx, hy⟩)
      · exact Or.inr (Or.inl ⟨List.mem_append_left _ hx, hy⟩)
  · rintro (h | ⟨hx, hy⟩ | h)
    · exact h.trans (List.sublist_append_left _ _)
    · exact precedes_iff.2 ⟨_, _, rfl, hx, hy⟩
    · exact h.trans (List.sublist_append_right _ _)

@[simp] lemma not_precedes_nil : ¬ Precedes [] x y := fun h => absurd h.length_le (by simp)

@[simp] lemma not_precedes_singleton : ¬ Precedes [name] x y := fun h =>
  absurd h.length_le (by simp)

/-- A name that is put last is preceded by all others. -/
lemma precedes_snoc_iff :
    Precedes (order ++ [name]) x y ↔ Precedes order x y ∨ (x ∈ order ∧ y = name) := by
  simp [precedes_append_iff]

lemma precedes_cons_iff :
    Precedes (name :: order) x y ↔ (x = name ∧ y ∈ order) ∨ Precedes order x y := by
  rw [← List.singleton_append, precedes_append_iff]
  simp

/-- Where no name is repeated, what precedes a name is what stands in front of it. -/
lemma precedes_middle_iff (nodup : (front ++ y :: back).Nodup) :
    Precedes (front ++ y :: back) x y ↔ x ∈ front := by
  have hfront : y ∉ front := fun hm =>
    List.disjoint_of_nodup_append nodup hm List.mem_cons_self
  have hrest : y ∉ back := (List.nodup_cons.1 nodup.of_append_right).1
  constructor
  · intro h
    rcases precedes_append_iff.1 h with h | ⟨hx, -⟩ | h
    · exact absurd h.mem_right hfront
    · exact hx
    · rcases precedes_cons_iff.1 h with ⟨-, hy⟩ | h
      · exact absurd hy hrest
      · exact absurd h.mem_right hrest
  · exact fun hx => precedes_iff.2 ⟨front, y :: back, rfl, hx, List.mem_cons_self⟩

/-- In a list without repetition no two names precede each other. -/
lemma Precedes.asymm (nodup : order.Nodup) (h : Precedes order x y) : ¬ Precedes order y x := by
  obtain ⟨front, back, rfl, hx, hy⟩ := precedes_iff.1 h
  have hdisjoint := List.disjoint_of_nodup_append nodup
  rw [precedes_append_iff]
  rintro (h | ⟨hy', -⟩ | h)
  · exact hdisjoint h.mem_left hy
  · exact hdisjoint hy' hy
  · exact hdisjoint hx h.mem_right

lemma Precedes.ne (nodup : order.Nodup) (h : Precedes order x y) : x ≠ y := by
  rintro rfl
  exact h.asymm nodup h

/-- Of two names in a list either one precedes the other. -/
lemma precedes_or_precedes (hx : x ∈ order) (hy : y ∈ order) (hne : x ≠ y) :
    Precedes order x y ∨ Precedes order y x := by
  obtain ⟨front, back, rfl⟩ := List.append_of_mem hy
  rcases List.mem_append.1 hx with hx | hx
  · exact Or.inl (precedes_iff.2 ⟨front, y :: back, rfl, hx, List.mem_cons_self⟩)
  · have hback : x ∈ back := (List.mem_cons.1 hx).resolve_left hne
    exact Or.inr (precedes_append_iff.2 (Or.inr (Or.inr (precedes_cons_iff.2 (Or.inl ⟨rfl, hback⟩)))))

/-! ## Arranged lists -/

/-- An arranged list is closed under the successors. -/
lemma Arranged.mem_of_mem_successors (h : Arranged successors order) (hx : x ∈ order)
    (hy : y ∈ successors x) : y ∈ order := by
  induction h with
  | nil => cases hx
  | snoc _ _ behind ih =>
      rcases List.mem_append.1 hx with hx | hx
      · exact List.mem_append_left _ (ih hx)
      · rw [List.mem_singleton.1 hx] at hy
        exact List.mem_append_left _ (behind y hy)

/-- So all that a name of the list leads to is in the list. -/
lemma Arranged.mem_of_reflTransGen (h : Arranged successors order) (hx : x ∈ order)
    (leads : Relation.ReflTransGen (fun a b => b ∈ successors a) x y) : y ∈ order := by
  induction leads with
  | refl => exact hx
  | tail _ step ih => exact h.mem_of_mem_successors ih step

/-- **In an arranged list** a name is preceded by all that it leads to. -/
lemma Arranged.precedes (h : Arranged successors order) (hx : x ∈ order)
    (leads : Relation.TransGen (fun a b => b ∈ successors a) x y) : Precedes order y x := by
  induction h with
  | nil => cases hx
  | snoc before _ behind ih =>
      rw [precedes_snoc_iff]
      rcases List.mem_append.1 hx with hx | hx
      · exact Or.inl (ih hx)
      · obtain rfl := List.mem_singleton.1 hx
        obtain ⟨next, hnext, leads⟩ := Relation.TransGen.head'_iff.1 leads
        exact Or.inr ⟨before.mem_of_reflTransGen (behind next hnext) leads, rfl⟩

/-- A list in which every name is preceded by its successors is arranged. -/
lemma arranged_of_precedes (names : List String) (nodup : names.Nodup)
    (behind : ∀ x ∈ names, ∀ y ∈ successors x, Precedes names y x) :
    Arranged successors names := by
  induction names using List.reverseRecOn with
  | nil => exact .nil
  | append_singleton names name ih =>
      have hname : name ∉ names := fun hm =>
        List.disjoint_of_nodup_append nodup hm (List.mem_singleton_self name)
      refine .snoc (ih nodup.of_append_left fun x hx y hy => ?_) hname fun y hy => ?_
      · rcases precedes_snoc_iff.1 (behind x (List.mem_append_left _ hx) y hy) with h | ⟨-, rfl⟩
        · exact h
        · exact absurd hx hname
      · have h := behind name (List.mem_append_right _ (List.mem_singleton_self name)) y hy
        rcases precedes_snoc_iff.1 h with h | ⟨hy, -⟩
        · exact absurd h.mem_right hname
        · exact hy

/-! ## Names that stand in order already -/

/-- Visiting what has been finished changes nothing. -/
lemma visit_of_mem (hm : name ∈ done) : visit successors depth path done name = .ok done := by
  cases depth with
  | zero => rfl
  | succ depth => rw [visit, if_pos hm]

lemma foldlM_visit_of_subset (names : List String) (h : ∀ name ∈ names, name ∈ done) :
    names.foldlM (visit successors depth path) done = .ok done := by
  induction names with
  | nil => rfl
  | cons name rest ih =>
      rw [List.foldlM_cons, visit_of_mem (h name List.mem_cons_self), ok_bind]
      exact ih fun other ho => h other (List.mem_cons_of_mem _ ho)

/-- A name whose successors have been finished is finished next. -/
lemma visit_of_behind (new : name ∉ done) (apart : name ∉ path)
    (behind : ∀ other ∈ successors name, other ∈ done) :
    visit successors (depth + 1) path done name = .ok (done ++ [name]) := by
  rw [visit, if_neg new, if_neg apart, foldlM_visit_of_subset _ behind]
  rfl

/-- **The walk leaves an arranged list as it is.** -/
lemma postorder_of_arranged {size : Nat} (h : Arranged successors names) :
    postorder successors size names = .ok names := by
  induction h with
  | nil => rfl
  | snoc _ new behind ih =>
      rw [postorder] at ih ⊢
      rw [List.foldlM_append, ih, ok_bind, List.foldlM_cons,
        visit_of_behind new List.not_mem_nil behind]
      rfl

/-! ## Providers -/

variable {providers : List Provider} {defaults : Table String Value} {r : Registry}

lemma map_name_filterMap_providerOf? (distinct : ViewsDistinct providers) (order : List String)
    (known : ∀ view ∈ order, view ∈ providers.map (·.name)) :
    (order.filterMap (providerOf? providers)).map (·.name) = order := by
  induction order with
  | nil => rfl
  | cons view rest ih =>
      obtain ⟨p, hp, rfl⟩ := List.mem_map.1 (known view List.mem_cons_self)
      have hf : providerOf? providers p.name = some p :=
        (providerOf?_eq_some_iff distinct).2 ⟨hp, rfl⟩
      rw [List.filterMap_cons_some hf, List.map_cons,
        ih fun other ho => known other (List.mem_cons_of_mem _ ho)]

namespace Registry

/-- The names of a registry are what the walk answers. -/
lemma postorder_of_build (built : build providers defaults = .ok r) :
    postorder (inheritedBy providers) (providers.map (·.name)).length (providers.map (·.name))
      = .ok r.names ∧ Arranged (inheritedBy providers) r.names := by
  obtain ⟨distinct, complete, -⟩ := fits_of_build built
  obtain ⟨order, ho, arranged, hmem, he⟩ := exists_order_of_arrange distinct complete
    (fitTogether_eq_ok_iff.1 (build_eq_ok_iff.1 built).1).2.2.1
  have hnames : r.names = order := by
    rw [names, he, map_name_filterMap_providerOf? distinct order fun view => (hmem view).1]
  rw [hnames]
  exact ⟨ho, arranged⟩

/-- **The providers of a registry stand in inheritance order.**  They are the given ones, each once,
and every view is preceded by those that it inherits, directly or by way of others; and if all
providers were given behind those that they inherit from, then the order is the given one. -/
theorem providers_in_inheritance_order (built : build providers defaults = .ok r) :
    r.providers.Perm providers ∧
    (∀ view other, Relation.TransGen (Inherits providers) view other →
      Precedes r.names other view) ∧
    ((∀ view other, Inherits providers view other →
      Precedes (providers.map (·.name)) other view) → r.providers = providers) := by
  have perm := perm_of_build built
  obtain ⟨distinct, -⟩ := fits_of_build built
  obtain ⟨hwalk, arranged⟩ := postorder_of_build built
  refine ⟨perm, fun view other inherits => ?_, fun behind => ?_⟩
  · obtain ⟨p, hp, rfl⟩ := exists_provider_of_transGen inherits
    have registered : p.name ∈ r.names := List.mem_map_of_mem (perm.mem_iff.2 hp)
    rw [← mem_inheritedBy_eq distinct] at inherits
    exact arranged.precedes registered inherits
  · have given : Arranged (inheritedBy providers) (providers.map (·.name)) :=
      arranged_of_precedes _ distinct fun view _ other ho =>
        behind view other ((mem_inheritedBy_iff distinct).1 ho)
    have hnames : providers.map (·.name) = r.names := by
      rw [postorder_of_arranged given] at hwalk
      exact Except.ok.inj hwalk
    calc r.providers = r.names.filterMap (providerOf? providers) :=
          (filterMap_providerOf? distinct fun _ => mem_of_build built).symm
      _ = (providers.map (·.name)).filterMap (providerOf? providers) := by rw [hnames]
      _ = providers := filterMap_providerOf? distinct fun _ hp => hp

/-- Of a chain that is given from its end, the last provider comes first; one that is given in order
stays as it is, though its last provider inherits two views that stand in no order of their own. -/
theorem providers_in_inheritance_order_blank :
    ∃ r r', build [.blank "c" ["b"], .blank "b" ["a"], .blank "a" []] .empty = .ok r ∧
      Precedes r.names "a" "c" ∧
      build [.blank "b" [], .blank "a" [], .blank "c" ["a", "b"]] .empty = .ok r' ∧
      r'.names = ["b", "a", "c"] := by
  have built : build [.blank "c" ["b"], .blank "b" ["a"], .blank "a" []] .empty
      = .ok ⟨[.blank "a" [], .blank "b" ["a"], .blank "c" ["b"]], .empty⟩ := rfl
  have inOrder : build [.blank "b" [], .blank "a" [], .blank "c" ["a", "b"]] .empty
      = .ok ⟨[.blank "b" [], .blank "a" [], .blank "c" ["a", "b"]], .empty⟩ := rfl
  obtain ⟨-, behind, -⟩ := providers_in_inheritance_order built
  obtain ⟨-, -, stable⟩ := providers_in_inheritance_order inOrder
  refine ⟨_, _, built, behind "c" "a" ?_, inOrder, ?_⟩
  · exact .head ⟨.blank "c" ["b"], by simp, rfl, by decide⟩
      (.single ⟨.blank "b" ["a"], by simp, rfl, by decide⟩)
  · rw [names, stable]
    · rfl
    · rintro view other ⟨p, hp, rfl, ho⟩
      simp only [List.mem_cons, List.not_mem_nil, or_false] at hp
      rcases hp with rfl | rfl | rfl
      · cases ho
      · cases ho
      · simp only [Provider.blank, List.mem_cons, List.not_mem_nil, or_false] at ho
        rcases ho with rfl | rfl <;> decide

end Registry

end AttributeViews

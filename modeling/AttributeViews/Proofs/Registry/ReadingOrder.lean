import AttributeViews.Proofs.Registry.AttributeMap
import AttributeViews.Proofs.Registry.Ways

/-!
# The order of a view's attributes

The table of all attributes of a view is filled from the view that the breadth-first walk finds last
to the view itself.  So it reads from afar, which is mostly, though not always, from the general to
the specific: a view that is inherited at first hand is found early, even if another inherited view
inherits it as well, and then its attributes come behind those of the other one.

* `Registry.exists_attributeMap_keys` — the names in the table, where none is declared twice.
* **`Registry.attributes_read_from_afar`** — which of them come before which others.
-/

namespace AttributeViews

namespace Registry

variable {providers : List Provider} {defaults : Table String Value} {r : Registry} {node : Node}
  {view x y : String} {p q : Provider}

/-- Names of two providers stand in the order of the providers. -/
lemma precedes_flatMap {ordering : Provider → Provider → Prop} {listed : List Provider}
    (ordered : listed.Pairwise ordering) (asymm : ¬ ordering q p) (hne : p ≠ q)
    (hp : p ∈ listed) (hq : q ∈ listed) (hx : x ∈ p.names) (hy : y ∈ q.names) :
    Precedes (listed.flatMap Provider.names) x y := by
  obtain ⟨front, back, rfl⟩ := List.append_of_mem hp
  have hback : q ∈ back := by
    rcases List.mem_append.1 hq with hfront | hback
    · exact absurd ((List.pairwise_append.1 ordered).2.2 q hfront p List.mem_cons_self) asymm
    · exact (List.mem_cons.1 hback).resolve_left hne.symm
  rw [List.flatMap_append, List.flatMap_cons, precedes_append_iff, precedes_append_iff]
  exact Or.inr (Or.inr (Or.inr (Or.inl ⟨hx, List.mem_flatMap.2 ⟨q, hback, hy⟩⟩)))

/-- Where no name is declared twice, the table holds the names of the providers as they
are listed. -/
lemma keys_allOf {listed : List Provider} (nodup : (listed.flatMap Provider.names).Nodup) :
    (allOf node listed).keys = listed.flatMap Provider.names := by
  have hfst : (listed.flatMap fun p => p.names.map fun name => (name, p.read node name)).map Prod.fst
      = listed.flatMap Provider.names := by
    simp [List.map_flatMap, Function.comp_def]
  rw [Table.keys, allOf, Table.entries_ofList (by rwa [hfst]), hfst]

/-- The names in the table of all attributes, where none is declared by two providers. -/
lemma exists_attributeMap_keys (built : build providers defaults = .ok r) (node : Node)
    (registered : view ∈ r.names) (named : view ≠ "") (plain : ':' ∉ view.toList)
    (distinct : ∀ p ∈ r.providers, ∀ q ∈ r.providers, ∀ name ∈ p.names, name ∈ q.names → p = q) :
    ∃ values, r.attributeMap node (view ++ ":*") = .ok values ∧
      values.keys = (r.closure view).reverse.flatMap Provider.names ∧ values.keys.Nodup := by
  have hall : r.attributeMap node (view ++ ":*") = .ok (allOf node (r.closure view).reverse) := by
    rw [append_star, attributeMap_append plain named registered, if_pos (by decide)]
  have apart : (r.closure view).reverse.Pairwise fun p q => p.names.Disjoint q.names := by
    refine List.pairwise_reverse.2 ((pairwise_closure built registered).imp_of_mem ?_)
    intro p q hp hq before name hnq hnp
    have hsame := distinct p (mem_of_mem_closure hp) q (mem_of_mem_closure hq) name hnp hnq
    rw [hsame] at before
    exact before.asymm before
  have nodup : ((r.closure view).reverse.flatMap Provider.names).Nodup :=
    List.nodup_flatMap.2 ⟨fun p _ => p.attributes.keys_nodup, apart⟩
  exact ⟨_, hall, keys_allOf nodup, Table.keys_nodup _⟩

/-- **The table of all attributes reads from afar.**  If no two providers of a registry declare the
same name, then a name of one provider stands before one of another provider exactly if the walk
from the view finds the other one first, on a shorter way or on one that is as long and comes first
by its names.  So the names of a provider stand before those of all that are nearer to the view; and
where all ways from the view to an inherited provider are equally long, its names stand before those
of all that inherit it, directly or by way of others. -/
theorem attributes_read_from_afar (built : build providers defaults = .ok r) (node : Node)
    (registered : view ∈ r.names) (named : view ≠ "") (plain : ':' ∉ view.toList)
    (distinct : ∀ p ∈ r.providers, ∀ q ∈ r.providers, ∀ name ∈ p.names, name ∈ q.names → p = q) :
    ∃ values, r.attributeMap node (view ++ ":*") = .ok values ∧
      ∀ p ∈ r.closure view, ∀ q ∈ r.closure view, p ≠ q → ∀ x ∈ p.names, ∀ y ∈ q.names,
        (Precedes values.keys x y ↔ FoundBefore (Inherits r.providers) view q.name p.name) ∧
        ((∀ way', Way (Inherits r.providers) view way' p.name →
          ∃ way, Way (Inherits r.providers) view way q.name ∧ way.length < way'.length) →
            Precedes values.keys x y) ∧
        (Relation.TransGen (Inherits r.providers) q.name p.name →
          (∀ way way', Way (Inherits r.providers) view way p.name →
            Way (Inherits r.providers) view way' p.name → way.length = way'.length) →
              Precedes values.keys x y) := by
  obtain ⟨values, hmap, hkeys, hnodup⟩ :=
    exists_attributeMap_keys built node registered named plain distinct
  have behind : ∀ {p q x y}, p ∈ r.closure view → q ∈ r.closure view → p ≠ q → x ∈ p.names →
      y ∈ q.names → FoundBefore (Inherits r.providers) view q.name p.name →
        Precedes values.keys x y := by
    intro p q x y hp hq hne hx hy before
    rw [hkeys]
    exact precedes_flatMap (List.pairwise_reverse.2 (pairwise_closure built registered))
      before.asymm hne (List.mem_reverse.2 hp) (List.mem_reverse.2 hq) hx hy
  refine ⟨values, hmap, fun p hp q hq hne x hx y hy => ?_⟩
  have exact : Precedes values.keys x y ↔
      FoundBefore (Inherits r.providers) view q.name p.name := by
    refine ⟨fun hxy => ?_, behind hp hq hne hx hy⟩
    rcases foundBefore_or_foundBefore built registered hp hq hne with before | before
    · exact absurd (behind hq hp hne.symm hy hx before) (hxy.asymm hnodup)
    · exact before
  have nearer : (∀ way', Way (Inherits r.providers) view way' p.name →
      ∃ way, Way (Inherits r.providers) view way q.name ∧ way.length < way'.length) →
        Precedes values.keys x y := by
    intro shorter
    rw [exact]
    refine (foundBefore_or_foundBefore built registered hp hq hne).resolve_left ?_
    rintro ⟨way', hway', hall⟩
    obtain ⟨way, hway, hlt⟩ := shorter way' hway'
    exact lt_asymm (hall way hway) (rank_lt_iff.2 (Or.inl hlt))
  refine ⟨exact, nearer, fun inherits same => nearer fun way' hway' => ?_⟩
  obtain ⟨way, hway⟩ := exists_way_iff.2 ((mem_closure_iff built registered).1 hq).2
  obtain ⟨longer, hlonger, hlt⟩ := hway.exists_longer inherits
  exact ⟨way, hway, hlt.trans_eq (same _ _ hlonger hway')⟩

end Registry

/-- A view with one attribute. -/
def Provider.single (name : String) (inherits : List String) (mark : String) : Provider :=
  ⟨name, name, inherits, .ofList [(mark, flagAttribute)], .plain⟩

namespace Registry

/-- Three views, of which the last one inherits both others and the second one the first. -/
def triangle : Registry :=
  ⟨[.single "a" [] "x", .single "b" ["a"] "y", .single "c" ["a", "b"] "z"], .empty⟩

lemma build_triangle : build triangle.providers .empty = .ok triangle := rfl

lemma closure_triangle : triangle.closure "c"
    = [.single "c" ["a", "b"] "z", .single "a" [] "x", .single "b" ["a"] "y"] := by
  rw [closure, reachable_of_filter_eq_cons rfl, reachable_of_filter_eq_cons rfl,
    reachable_of_filter_eq_cons rfl, reachable_of_filter_eq_nil rfl]
  rfl

lemma distinct_triangle : ∀ p ∈ triangle.providers, ∀ q ∈ triangle.providers,
    ∀ name ∈ p.names, name ∈ q.names → p = q := by
  have hnames : ∀ name inherits mark other, other ∈ (Provider.single name inherits mark).names →
      other = mark := fun _ _ _ _ => List.mem_singleton.1
  intro p hp q hq name hnp hnq
  simp only [triangle, List.mem_cons, List.not_mem_nil, or_false] at hp hq
  rcases hp with rfl | rfl | rfl <;> rcases hq with rfl | rfl | rfl <;>
    first
    | rfl
    | exact absurd ((hnames _ _ _ _ hnp).symm.trans (hnames _ _ _ _ hnq)) (by decide)

/-- The view that is read is found first, so that its own attribute comes last. -/
theorem attributes_read_from_afar_triangle :
    ∃ values, triangle.attributeMap (.fresh "1" .file 0) "c:*" = .ok values ∧
      Precedes values.keys "x" "z" ∧ Precedes values.keys "y" "z" := by
  obtain ⟨values, hmap, horder⟩ := attributes_read_from_afar build_triangle (.fresh "1" .file 0)
    (by decide : "c" ∈ triangle.names) (by decide) (by decide) distinct_triangle
  have first : ∀ other, other ≠ "c" →
      FoundBefore (Inherits triangle.providers) "c" "c" other := by
    intro other hne
    refine ⟨[], .nil, fun way hway => ?_⟩
    cases hway with
    | nil => exact absurd rfl hne
    | snoc before _ => exact (rank_nil_le _).trans_lt (rank_lt_concat _ _)
  rw [closure_triangle] at horder
  have behind : ∀ p ∈ triangle.closure "c", p.name ≠ "c" → ∀ x ∈ p.names,
      Precedes values.keys x "z" := by
    intro p hp hne x hx
    rw [closure_triangle] at hp
    exact (horder p hp (.single "c" ["a", "b"] "z") List.mem_cons_self
      (fun same => hne (congrArg Provider.name same)) x hx "z" (by decide)).1.2 (first _ hne)
  rw [closure_triangle] at behind
  exact ⟨values, hmap, behind (.single "a" [] "x") (by simp) (by decide) "x" (by decide),
    behind (.single "b" ["a"] "y") (by simp) (by decide) "y" (by decide)⟩

/-- The second view inherits the first one, and yet its attribute is read in front of that of the
first one, which the view that is read inherits at first hand, too. -/
theorem inherited_read_behind :
    ∃ r values p q, build triangle.providers .empty = .ok r ∧ "c" ∈ r.names ∧
      p ∈ r.closure "c" ∧ q ∈ r.closure "c" ∧ Inherits r.providers q.name p.name ∧
      p.names = ["x"] ∧ q.names = ["y"] ∧
      r.attributeMap (.fresh "1" .file 0) "c:*" = .ok values ∧ values.keys = ["y", "x", "z"] ∧
      ¬ Precedes values.keys "x" "y" := by
  have hmap : triangle.attributeMap (.fresh "1" .file 0) ("c" ++ ":*")
      = .ok (allOf (.fresh "1" .file 0) (triangle.closure "c").reverse) := by
    rw [append_star, attributeMap_append (by decide) (by decide) (by decide), if_pos (by decide)]
  have hkeys : (allOf (.fresh "1" .file 0) (triangle.closure "c").reverse).keys
      = ["y", "x", "z"] := by
    rw [closure_triangle]
    rfl
  refine ⟨triangle, _, .single "a" [] "x", .single "b" ["a"] "y", build_triangle, by decide, ?_, ?_,
    ⟨.single "b" ["a"] "y", by simp [triangle], rfl, by decide⟩, rfl, rfl, hmap, hkeys, ?_⟩
  · simp [closure_triangle]
  · simp [closure_triangle]
  · rw [hkeys]
    decide

end Registry

end AttributeViews

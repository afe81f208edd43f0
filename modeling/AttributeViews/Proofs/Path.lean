import AttributeViews.Path
import Mathlib.Tactic.Common

/-!
# The algebra of paths

`Path.within` and `Path.rebase` are computed on lists of names.  Here both are read as statements
about one operation: hanging names below a path.

* `Path.descend` — the path below a base by some names.
* **`Path.within_iff`** — a path is at or below a base exactly if it is a descent from it.
* **`Path.rebase_descend`** — rebasing keeps the names and changes the base.
* `Path.within_or_within` — the bases of one path lie within each other.
* `Path.relocated` — where a path stands after a move; **`Path.relocated_relocated`** — and after
  two moves in a row.
-/

namespace AttributeViews

namespace Path

variable {p q base source target : Path} {names names' : List String}

/-- The path that is reached from a base by going down some names. -/
def descend (base : Path) (names : List String) : Path :=
  { base with names := base.names ++ names }

@[simp] lemma descend_nil (base : Path) : base.descend [] = base := by
  simp [descend]

@[simp] lemma descend_append (base : Path) (names names' : List String) :
    base.descend (names ++ names') = (base.descend names).descend names' := by
  simp [descend]

lemma descend_injective (h : base.descend names = base.descend names') : names = names' := by
  simpa [descend] using h

/-! ## Being at or below a path -/

/-- **At or below is a descent.** -/
lemma within_iff : p.within base = true ↔ ∃ names, p = base.descend names := by
  obtain ⟨d, ns⟩ := p
  simp only [within, Bool.and_eq_true, beq_iff_eq, List.isPrefixOf_iff_prefix]
  constructor
  · rintro ⟨rfl, names, rfl⟩
    exact ⟨names, rfl⟩
  · rintro ⟨names, h⟩
    rw [descend, Path.mk.injEq] at h
    exact ⟨h.1, names, h.2.symm⟩

lemma descend_within (base : Path) (names : List String) :
    (base.descend names).within base = true := within_iff.2 ⟨names, rfl⟩

lemma within_trans (h : p.within q = true) (h' : q.within base = true) :
    p.within base = true := by
  rcases within_iff.1 h with ⟨names, rfl⟩
  rcases within_iff.1 h' with ⟨names', rfl⟩
  exact within_iff.2 ⟨names' ++ names, by simp⟩

/-- Two bases of one path lie on one line. -/
lemma within_or_within (h : p.within base = true) (h' : p.within q = true) :
    base.within q = true ∨ q.within base = true := by
  simp only [within, Bool.and_eq_true, beq_iff_eq, List.isPrefixOf_iff_prefix] at h h' ⊢
  rcases List.prefix_or_prefix_of_prefix h.2 h'.2 with hp | hp
  · exact Or.inr ⟨h'.1.symm.trans h.1, hp⟩
  · exact Or.inl ⟨h.1.symm.trans h'.1, hp⟩

/-- Only the root is above the root. -/
lemma eq_root_of_root_within (h : root.within base = true) : base = root := by
  rcases within_iff.1 h with ⟨names, hn⟩
  obtain ⟨d, ns⟩ := base
  simp only [root, descend, Path.mk.injEq, List.nil_eq, List.append_eq_nil_iff] at hn
  rw [root, ← hn.1, hn.2.1]

/-! ## Parents -/

@[simp] lemma parent_descend (base : Path) (names : List String) (name : String) :
    ((base.descend names).descend [name]).parent = base.descend names := by
  simp [descend, parent]

lemma descend_ne_root (base : Path) (name : String) : base.descend [name] ≠ root := by
  simp [descend, root]

/-- A path is below its parent. -/
lemma within_parent (p : Path) : p.within p.parent = true := by
  simp only [within, parent, beq_self_eq_true, Bool.true_and, List.isPrefixOf_iff_prefix]
  exact List.dropLast_prefix p.names

/-- Strictly below a base is at or below it by the parent. -/
lemma parent_within (h : p.within base = true) (hne : p ≠ base) : p.parent.within base = true := by
  rcases within_iff.1 h with ⟨names, rfl⟩
  rcases List.eq_nil_or_concat names with rfl | ⟨front, name, rfl⟩
  · simp at hne
  · simpa using descend_within base front

/-- Strictly below the root, a parent is neither the path itself nor below it. -/
lemma parent_not_within_self (h : p.within root = true) (hne : p ≠ root) :
    p.parent.within p = false := by
  rcases within_iff.1 h with ⟨names, rfl⟩
  rcases List.eq_nil_or_concat names with rfl | ⟨front, name, rfl⟩
  · simp at hne
  · refine Bool.eq_false_iff.2 fun hw => ?_
    rw [List.concat_eq_append, descend_append, parent_descend] at hw
    rcases within_iff.1 hw with ⟨names, he⟩
    rw [← descend_append] at he
    cases descend_injective ((descend_nil _).trans he)

/-! ## Rebasing -/

/-- **Rebasing keeps the names.** -/
@[simp] lemma rebase_descend (source target : Path) (names : List String) :
    (source.descend names).rebase source target = target.descend names := by
  simp [descend, rebase]

@[simp] lemma rebase_self (source target : Path) : source.rebase source target = target := by
  simp [rebase]

lemma rebase_within (p source target : Path) : (p.rebase source target).within target = true :=
  within_iff.2 ⟨p.names.drop source.names.length, rfl⟩

/-- Rebasing is injective on what is at or below the source. -/
lemma rebase_injective (hp : p.within source = true) (hq : q.within source = true)
    (h : p.rebase source target = q.rebase source target) : p = q := by
  rcases within_iff.1 hp with ⟨names, rfl⟩
  rcases within_iff.1 hq with ⟨names', rfl⟩
  rw [rebase_descend, rebase_descend] at h
  rw [descend_injective h]

/-- Rebasing and taking the parent commute strictly below the source. -/
lemma parent_rebase (h : p.within source = true) (hne : p ≠ source) :
    (p.rebase source target).parent = p.parent.rebase source target := by
  rcases within_iff.1 h with ⟨names, rfl⟩
  rcases List.eq_nil_or_concat names with rfl | ⟨front, name, rfl⟩
  · simp at hne
  · rw [rebase_descend, List.concat_eq_append, descend_append, descend_append, parent_descend,
      parent_descend, rebase_descend]

/-! ## Moving -/

/-- Where a path stands after a move: below the target if it was below the source. -/
def relocated (p source target : Path) : Path :=
  if p.within source then p.rebase source target else p

lemma relocated_of_within (h : p.within source = true) :
    p.relocated source target = p.rebase source target := if_pos h

lemma relocated_of_not_within (h : p.within source = false) : p.relocated source target = p :=
  if_neg (Bool.eq_false_iff.1 h)

/-- A move to where the source stands leaves every path in its place. -/
@[simp] lemma relocated_self (p source : Path) : p.relocated source source = p := by
  cases h : p.within source with
  | false => exact relocated_of_not_within h
  | true =>
      rcases within_iff.1 h with ⟨names, rfl⟩
      rw [relocated_of_within h, rebase_descend]

/-- **Two moves in a row are one**, for a path that was not yet below the first target. -/
lemma relocated_relocated {between : Path} (outside : p.within between = false) :
    (p.relocated source between).relocated between target = p.relocated source target := by
  cases h : p.within source with
  | false =>
      rw [relocated_of_not_within h, relocated_of_not_within h, relocated_of_not_within outside]
  | true =>
      rcases within_iff.1 h with ⟨names, rfl⟩
      rw [relocated_of_within h, relocated_of_within h, rebase_descend, rebase_descend,
        relocated_of_within (descend_within between names), rebase_descend]

/-- Outside of a base, parents are outside of it too. -/
lemma parent_not_within (h : p.within base = false) : p.parent.within base = false :=
  Bool.eq_false_iff.2 fun hp => Bool.eq_false_iff.1 h (within_trans (within_parent p) hp)

end Path

end AttributeViews

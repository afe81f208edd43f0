/-!
# Sorting without repetition

Names and paths are listed in ascending order with every one listed once.  Sorting by insertion
drops an element that neither precedes nor follows one that is there already.

* `insertSorted`, `sorted` — the sort, by a strict order `before`.
* `sortNames` — names by their code points.
* **`mem_sorted`** — for an order in which distinct elements are comparable nothing is lost.
* **`pairwise_sorted`** — and if the order is transitive, every element precedes those behind it.
-/

namespace AttributeViews

variable {α : Type}

/-- Put an element into its place; one that is there already is not put twice. -/
def insertSorted (before : α → α → Bool) (x : α) : List α → List α
  | [] => [x]
  | y :: ys =>
      if before x y then x :: y :: ys
      else if before y x then y :: insertSorted before x ys
      else y :: ys

/-- The elements of a list in ascending order, each once. -/
def sorted (before : α → α → Bool) (xs : List α) : List α :=
  xs.foldr (insertSorted before) []

/-- Names in the order of their code points, each once. -/
def sortNames (names : List String) : List String := sorted (fun a b => decide (a < b)) names

theorem mem_insertSorted {before : α → α → Bool}
    (total : ∀ a b, before a b = false → before b a = false → a = b) {x y : α} {l : List α} :
    y ∈ insertSorted before x l ↔ y = x ∨ y ∈ l := by
  induction l with
  | nil => simp [insertSorted]
  | cons z zs ih =>
    simp only [insertSorted]
    cases h₁ : before x z
    · cases h₂ : before z x
      · have := total x z h₁ h₂
        simp [this]
      · simp only [Bool.false_eq_true, if_false, if_true, List.mem_cons, ih]
        constructor <;> rintro (h | h | h) <;> simp_all
    · simp

/-- Sorting keeps exactly the elements of a list. -/
theorem mem_sorted {before : α → α → Bool}
    (total : ∀ a b, before a b = false → before b a = false → a = b) {y : α} {l : List α} :
    y ∈ sorted before l ↔ y ∈ l := by
  unfold sorted
  induction l with
  | nil => simp
  | cons x xs ih => simp [mem_insertSorted total, ih]

theorem pairwise_insertSorted {before : α → α → Bool}
    (total : ∀ a b, before a b = false → before b a = false → a = b)
    (trans : ∀ a b c, before a b = true → before b c = true → before a c = true) {x : α}
    {l : List α} (h : l.Pairwise (before · · = true)) :
    (insertSorted before x l).Pairwise (before · · = true) := by
  induction l with
  | nil => exact List.pairwise_singleton _ x
  | cons y ys ih =>
    have hy := (List.pairwise_cons.1 h).1
    simp only [insertSorted]
    cases hxy : before x y
    · cases hyx : before y x
      · exact h
      · simp only [Bool.false_eq_true, if_false, if_true]
        refine List.pairwise_cons.2 ⟨fun z hz => ?_, ih (List.pairwise_cons.1 h).2⟩
        rcases (mem_insertSorted total).1 hz with rfl | hz
        · exact hyx
        · exact hy z hz
    · simp only [if_true]
      refine List.pairwise_cons.2 ⟨fun z hz => ?_, h⟩
      rcases List.mem_cons.1 hz with rfl | hz
      · exact hxy
      · exact trans x y z hxy (hy z hz)

/-- Sorting puts every element in front of those that it precedes. -/
theorem pairwise_sorted {before : α → α → Bool}
    (total : ∀ a b, before a b = false → before b a = false → a = b)
    (trans : ∀ a b c, before a b = true → before b c = true → before a c = true) (l : List α) :
    (sorted before l).Pairwise (before · · = true) := by
  unfold sorted
  induction l with
  | nil => exact List.Pairwise.nil
  | cons x xs ih => exact pairwise_insertSorted total trans ih

end AttributeViews

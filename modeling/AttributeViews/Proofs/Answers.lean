import AttributeViews.Identity
import Mathlib.Tactic.Common

/-!
# Opening computations that can fail

A computation that succeeded has succeeded at every step.

* **`bind_eq_ok_iff`**, **`map_eq_ok_iff`** — the success of a computation in two steps.
* **`bind_eq_error_iff`**, **`map_eq_error_iff`** — and its failure.
* **`exists_mapM_eq_ok`**, `exists_of_mapM_eq_ok` — the success of a pass over a list;
  **`exists_of_mapM_eq_error`**, `mapM_eq_error` — its failure; `filter_mapM` — a pass over a part.
* **`Logged.bind_of_ok`**, **`Logged.bind_of_error`** — the same with records;
  `Issuing.bind_apply`, `Issuing.result_bind` — and with identities.
-/

namespace AttributeViews

variable {ε α β : Type}

lemma pure_eq_ok (a : α) : (pure a : Except ε α) = .ok a := rfl

@[simp] lemma ok_bind (a : α) (f : α → Except ε β) : (.ok a >>= f) = f a := rfl

@[simp] lemma error_bind (e : ε) (f : α → Except ε β) : (.error e >>= f) = .error e := rfl

@[simp] lemma bind_ok (x : Except ε α) : (x >>= fun a => .ok a) = x := by
  cases x <;> rfl

/-- Both steps succeed, the second one with the answer of the first. -/
lemma bind_eq_ok_iff {x : Except ε α} {f : α → Except ε β} {b : β} :
    x >>= f = .ok b ↔ ∃ a, x = .ok a ∧ f a = .ok b := by
  cases x with
  | error e => simp
  | ok a => simp

/-- The first step that fails decides about the error. -/
lemma bind_eq_error_iff {x : Except ε α} {f : α → Except ε β} {e : ε} :
    x >>= f = .error e ↔ x = .error e ∨ ∃ a, x = .ok a ∧ f a = .error e := by
  cases x with
  | error e' => simp
  | ok a => simp

lemma map_eq_error_iff {x : Except ε α} {f : α → β} {e : ε} :
    f <$> x = .error e ↔ x = .error e := by
  cases x with
  | error e' => simp
  | ok a => simp

/-- The step succeeds, and its answer is turned into another one. -/
lemma map_eq_ok_iff {x : Except ε α} {f : α → β} {b : β} :
    f <$> x = .ok b ↔ ∃ a, x = .ok a ∧ b = f a := by
  cases x with
  | error e => simp
  | ok a => simp [eq_comm]

/-- A pass over a list succeeds if it succeeds with every member. -/
lemma exists_mapM_eq_ok {f : α → Except ε β} (xs : List α) (h : ∀ x ∈ xs, ∃ y, f x = .ok y) :
    ∃ ys, xs.mapM f = .ok ys := by
  induction xs with
  | nil => exact ⟨[], rfl⟩
  | cons x rest ih =>
      obtain ⟨y, hy⟩ := h x List.mem_cons_self
      obtain ⟨ys, hys⟩ := ih fun x hx => h x (List.mem_cons_of_mem _ hx)
      refine ⟨y :: ys, ?_⟩
      rw [List.mapM_cons, hy, ok_bind, hys]
      rfl

/-- A pass over a list that succeeds has succeeded with every member. -/
lemma exists_of_mapM_eq_ok {f : α → Except ε β} {xs : List α} {ys : List β}
    (h : xs.mapM f = .ok ys) : ∀ x ∈ xs, ∃ y, f x = .ok y := by
  induction xs generalizing ys with
  | nil => simp
  | cons x rest ih =>
      rw [List.mapM_cons] at h
      obtain ⟨y, hy, h⟩ := bind_eq_ok_iff.1 h
      obtain ⟨ys, hys, -⟩ := bind_eq_ok_iff.1 h
      rintro x' (_ | ⟨_, hx⟩)
      · exact ⟨y, hy⟩
      · exact ih hys x' hx

/-- A pass over a list that fails has failed with a member. -/
lemma exists_of_mapM_eq_error {f : α → Except ε β} {xs : List α} {e : ε}
    (h : xs.mapM f = .error e) : ∃ x ∈ xs, f x = .error e := by
  induction xs with
  | nil => cases h
  | cons x rest ih =>
      rw [List.mapM_cons, bind_eq_error_iff] at h
      rcases h with h | ⟨y, -, h⟩
      · exact ⟨x, List.mem_cons_self, h⟩
      rcases bind_eq_error_iff.1 h with h | ⟨ys, -, h⟩
      · obtain ⟨x', hx, he⟩ := ih h
        exact ⟨x', List.mem_cons_of_mem x hx, he⟩
      · cases h

/-- A pass over a list fails like the only member with which it fails. -/
lemma mapM_eq_error {f : α → Except ε β} {xs : List α} {x : α} {e : ε} (hx : x ∈ xs)
    (failed : f x = .error e) (others : ∀ x' ∈ xs, x' ≠ x → ∃ y, f x' = .ok y) :
    xs.mapM f = .error e := by
  cases hall : xs.mapM f with
  | ok ys =>
      obtain ⟨y, hy⟩ := exists_of_mapM_eq_ok hall x hx
      rw [hy] at failed
      cases failed
  | error e' =>
      obtain ⟨x', hx', he⟩ := exists_of_mapM_eq_error hall
      by_cases hsame : x' = x
      · rw [hsame, failed] at he
        rw [Except.error.inj he]
      · obtain ⟨y, hy⟩ := others x' hx' hsame
        rw [hy] at he
        cases he

/-- A pass over the members that are kept answers what is kept of a pass over all of them, if it
succeeds with those that are left out. -/
lemma filter_mapM {f : α → Except ε β} {keep : α → Bool} {kept : β → Bool}
    (same : ∀ x y, f x = .ok y → kept y = keep x) (xs : List α)
    (succeeds : ∀ x ∈ xs, keep x = false → ∃ y, f x = .ok y) :
    List.filter kept <$> xs.mapM f = (xs.filter keep).mapM f := by
  induction xs with
  | nil => rfl
  | cons x rest ih =>
      have ih := ih fun x hx => succeeds x (List.mem_cons_of_mem _ hx)
      cases hx : keep x with
      | false =>
          obtain ⟨y, hy⟩ := succeeds x List.mem_cons_self hx
          have hkept : kept y = false := (same x y hy).trans hx
          rw [List.filter_cons_of_neg (by simp [hx]), ← ih, List.mapM_cons, hy, ok_bind]
          cases rest.mapM f with
          | error e => rfl
          | ok ys =>
              exact congrArg Except.ok (List.filter_cons_of_neg (by simp [hkept]))
      | true =>
          rw [List.filter_cons_of_pos hx, List.mapM_cons, List.mapM_cons, ← ih]
          cases hy : f x with
          | error e => rfl
          | ok y =>
              have hkept : kept y = true := (same x y hy).trans hx
              cases rest.mapM f with
              | error e => rfl
              | ok ys => exact congrArg Except.ok (List.filter_cons_of_pos hkept)

/-! ## Computations with records -/

namespace Logged

variable {x : Logged α} {f : α → Logged β} {a : α} {e : Error}

lemma bind_of_ok (h : x.result = .ok a) :
    x >>= f = ⟨x.records ++ (f a).records, (f a).result⟩ := by
  obtain ⟨records, result⟩ := x
  cases h
  rfl

lemma bind_of_error (h : x.result = .error e) : x >>= f = ⟨x.records, .error e⟩ := by
  obtain ⟨records, result⟩ := x
  cases h
  rfl

lemma bind_assoc {γ : Type} {g : β → Logged γ} : x >>= f >>= g = x >>= fun a => f a >>= g := by
  cases hx : x.result with
  | error e => rw [bind_of_error hx, bind_of_error hx, bind_of_error rfl]
  | ok a =>
      rw [bind_of_ok hx, bind_of_ok hx]
      cases hf : (f a).result with
      | error e => rw [bind_of_error hf, bind_of_error rfl]
      | ok b => rw [bind_of_ok hf, bind_of_ok rfl, List.append_assoc]

end Logged

/-! ## Computations that take identities -/

namespace Issuing

lemma bind_apply (x : Issuing α) (f : α → Issuing β) (supply : IdSupply) :
    (x >>= f) supply = match (x supply).2.result with
      | .error e => ((x supply).1, ⟨(x supply).2.records, .error e⟩)
      | .ok a =>
          ((f a (x supply).1).1, ⟨(x supply).2.records ++ (f a (x supply).1).2.records,
            (f a (x supply).1).2.result⟩) := by
  change andThen x f supply = _
  rw [andThen]
  obtain ⟨rest, records, result⟩ := x supply
  cases result <;> rfl

lemma result_bind {x : Issuing α} {f : α → Issuing β} {supply : IdSupply} :
    ((x >>= f) supply).2.result
      = (x supply).2.result >>= fun a => (f a (x supply).1).2.result := by
  rw [bind_apply]
  cases (x supply).2.result <;> rfl

end Issuing

end AttributeViews

import AttributeViews.Proofs.Answers

/-!
# Computations that look the same

Details are recorded at a level that is not shown unless it is asked for.  Two computations that
differ in nothing else are the same to whoever does not see that level, and they stay so whatever is
done with what they answer.

* `Logged.SameFrom`, `Issuing.SameFrom` — the same answers, the same records from a level on, and
  the same identities taken.
* **`Logged.SameFrom.bind`**, **`Issuing.SameFrom.bind`** — going on with the same.
-/

namespace AttributeViews

variable {α β : Type} {level : Level}

lemma visibleFrom_append (first second : List Record) :
    visibleFrom level (first ++ second) = visibleFrom level first ++ visibleFrom level second :=
  List.filter_append first second

namespace Logged

variable {x y z : Logged α} {f g : α → Logged β}

/-- Two computations have the same answer, and the same records from a level on. -/
structure SameFrom (level : Level) (x y : Logged α) : Prop where
  result : x.result = y.result
  records : visibleFrom level x.records = visibleFrom level y.records

namespace SameFrom

lemma refl (x : Logged α) : x.SameFrom level x := ⟨rfl, rfl⟩

lemma symm (h : x.SameFrom level y) : y.SameFrom level x := ⟨h.result.symm, h.records.symm⟩

lemma trans (h : x.SameFrom level y) (h' : y.SameFrom level z) : x.SameFrom level z :=
  ⟨h.result.trans h'.result, h.records.trans h'.records⟩

/-- **Going on with the same** from the same answer. -/
lemma bind (h : x.SameFrom level y) (hf : ∀ a, x.result = .ok a → (f a).SameFrom level (g a)) :
    (x >>= f).SameFrom level (y >>= g) := by
  cases hx : x.result with
  | error e =>
      rw [bind_of_error hx, bind_of_error (h.result ▸ hx)]
      exact ⟨rfl, h.records⟩
  | ok a =>
      rw [bind_of_ok hx, bind_of_ok (h.result ▸ hx)]
      refine ⟨(hf a hx).result, ?_⟩
      rw [visibleFrom_append, visibleFrom_append, h.records, (hf a hx).records]

/-- A step that leaves no visible record and answers what is there may be passed over. -/
lemma of_hidden {a : α} (answer : x.result = .ok a) (hidden : visibleFrom level x.records = []) :
    (x >>= f).SameFrom level (f a) := by
  rw [bind_of_ok answer]
  refine ⟨rfl, ?_⟩
  rw [visibleFrom_append, hidden, List.nil_append]

end SameFrom

end Logged

namespace Issuing

variable {x y : Issuing α} {f g : α → Issuing β}

/-- Two computations look the same and take the same identities. -/
def SameFrom (level : Level) (x y : Issuing α) : Prop :=
  ∀ supply, (x supply).1 = (y supply).1 ∧ (x supply).2.SameFrom level (y supply).2

namespace SameFrom

variable {z : Issuing α}

lemma refl (x : Issuing α) : x.SameFrom level x := fun _ => ⟨rfl, .refl _⟩

lemma symm (h : x.SameFrom level y) : y.SameFrom level x :=
  fun supply => ⟨(h supply).1.symm, (h supply).2.symm⟩

lemma trans (h : x.SameFrom level y) (h' : y.SameFrom level z) : x.SameFrom level z :=
  fun supply => ⟨(h supply).1.trans (h' supply).1, (h supply).2.trans (h' supply).2⟩

lemma lift {x y : Logged α} (h : x.SameFrom level y) :
    (Issuing.lift x).SameFrom level (Issuing.lift y) := fun _ => ⟨rfl, h⟩

/-- **Going on with the same** from the same answer. -/
lemma bind (h : x.SameFrom level y)
    (hf : ∀ a supply, (x supply).2.result = .ok a → (f a).SameFrom level (g a)) :
    (x >>= f).SameFrom level (y >>= g) := by
  intro supply
  obtain ⟨rest, look⟩ := h supply
  rw [bind_apply, bind_apply, ← look.result, ← rest]
  cases hx : (x supply).2.result with
  | error e => exact ⟨rfl, rfl, look.records⟩
  | ok a =>
      obtain ⟨rest', look'⟩ := hf a supply hx (x supply).1
      refine ⟨rest', look'.result, ?_⟩
      dsimp only
      rw [visibleFrom_append, visibleFrom_append, look.records, look'.records]

end SameFrom

end Issuing

end AttributeViews

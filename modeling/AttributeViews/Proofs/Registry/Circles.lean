import AttributeViews.Proofs.Registry.Validity

/-!
# What a reported cycle says

When views inherit each other, the error names a cycle.  It is cut out of the path along which the
walk came to a view for the second time, so it starts at this view and not where the walk began: the
views that only lead to the cycle are left out.

* **`circle_of_fitTogether`** — a cycle is reported of views that are all registered once.
* **`Registry.reported_cycle_genuine`** — what the reported names are to each other.
-/

namespace AttributeViews

variable {providers : List Provider} {cycle : List String} {e : Error}

lemma circle_of_arrange (h : arrange providers = .error e) :
    ∃ cycle, e = .inheritanceCycle cycle ∧ Circle (inheritedBy providers) cycle := by
  rw [arrange] at h
  split at h
  · next cycle hc =>
    exact ⟨cycle, (Except.error.inj h).symm, circle_of_postorder hc⟩
  · cases h

/-- **A cycle is reported** by the walk, and only where every view has one provider. -/
lemma circle_of_fitTogether (h : fitTogether providers = .error e)
    (kind : e.kind = .inheritanceCycle) :
    ViewsDistinct providers ∧
      ∃ cycle, e = .inheritanceCycle cycle ∧ Circle (inheritedBy providers) cycle := by
  rcases cases_of_fitTogether_error h with ⟨view, -, rfl⟩ | ⟨distinct, ⟨missing, -, rfl⟩ |
    ⟨-, ha | ⟨ordered, -, collision, -, rfl⟩⟩⟩
  · cases kind
  · cases kind
  · exact ⟨viewsDistinct_iff.2 distinct, circle_of_arrange ha⟩
  · cases kind

namespace Registry

/-- **The reported cycle is genuine.**  When building fails because views inherit each other, the
error shows names of which the last one is the first one again.  Up to there no name is repeated,
all are names of registered views, and each view inherits the next one directly.  So every view of
the cycle is inherited by every other one and by itself, and one that is inherited by none of them
is not shown, though it may lead to them. -/
theorem reported_cycle_genuine {defaults : Table String Value}
    (failed : build providers defaults = .error e) (kind : e.kind = .inheritanceCycle) :
    ∃ first between,
      e = .inheritanceCycle (first :: between ++ [first]) ∧
      e.message = "Views inherit each other in a cycle: "
        ++ " -> ".intercalate (first :: between ++ [first]) ∧
      (first :: between).Nodup ∧
      (∀ view ∈ first :: between, ∃ p ∈ providers, p.name = view) ∧
      (first :: between ++ [first]).IsChain (Inherits providers) ∧
      (∀ view ∈ first :: between, ∀ other ∈ first :: between,
        Relation.TransGen (Inherits providers) view other) ∧
      ∀ view, (∀ other ∈ first :: between, ¬ Relation.TransGen (Inherits providers) other view) →
        view ∉ first :: between := by
  obtain ⟨distinct, cycle, rfl, circle⟩ :=
    circle_of_fitTogether (build_eq_error_iff.1 failed) kind
  obtain ⟨first, between, rfl⟩ := circle.closed
  have steps : (first :: between ++ [first]).IsChain (Inherits providers) := by
    rw [← mem_inheritedBy_eq distinct]
    exact circle.steps
  have around : ∀ view ∈ first :: between, ∀ other ∈ first :: between,
      Relation.TransGen (Inherits providers) view other := by
    rw [← mem_inheritedBy_eq distinct]
    exact fun view hv other ho =>
      circle.transGen (List.mem_append_left _ hv) (List.mem_append_left _ ho)
  refine ⟨first, between, rfl, rfl, ?_, ?_, steps, around, ?_⟩
  · have hdistinct := circle.distinct
    rwa [List.dropLast_concat] at hdistinct
  · exact fun view hv => exists_provider_of_transGen (around view hv first List.mem_cons_self)
  · exact fun view none hv => none first List.mem_cons_self (around first List.mem_cons_self view hv)

end Registry

/-- A view without attributes of its own. -/
def Provider.blank (name : String) (inherits : List String) : Provider :=
  ⟨name, name, inherits, .empty, .plain⟩

/-- Three views inherit each other.  A fourth one is registered first and leads to the second of
them, where the cycle then starts; it is not shown itself. -/
theorem Registry.reported_cycle_genuine_blank :
    ∃ e, build [.blank "d" ["b"], .blank "a" ["b"], .blank "b" ["c"], .blank "c" ["a"]] .empty
        = .error e ∧ e.kind = .inheritanceCycle ∧
      e.message = "Views inherit each other in a cycle: b -> c -> a -> b" ∧
      ∃ first between, e = .inheritanceCycle (first :: between ++ [first]) ∧
        (first :: between).Nodup ∧ "d" ∉ first :: between := by
  have failed : build [.blank "d" ["b"], .blank "a" ["b"], .blank "b" ["c"], .blank "c" ["a"]]
      .empty = .error (.inheritanceCycle ["b", "c", "a", "b"]) := rfl
  obtain ⟨first, between, he, -, hnodup, -, -, -, hout⟩ := reported_cycle_genuine failed rfl
  refine ⟨_, failed, rfl, rfl, first, between, he, hnodup, hout "d" fun other _ h => ?_⟩
  -- nothing inherits the fourth view
  obtain ⟨view, -, p, hp, -, hd⟩ := Relation.TransGen.tail'_iff.1 h
  have none : ∀ p ∈ [Provider.blank "d" ["b"], .blank "a" ["b"], .blank "b" ["c"],
      .blank "c" ["a"]], "d" ∉ p.inherits := by decide
  exact none p hp hd

end AttributeViews

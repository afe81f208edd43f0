import AttributeViews.Proofs.Attribute.Outcomes
import AttributeViews.Proofs.Registry.AttributeMap
import AttributeViews.Proofs.Registry.Canonical
import AttributeViews.Proofs.Registry.Refusals

/-!
# What a registry of standard views prints

A registry prints the starting values of a new node and the views of a node that exists.  If its
views are standard ones, both always succeed, and if there are no starting values the user is told
why.

* **`Registry.Standard.exists_dumpInitial`** — the starting values can be printed if there are any.
* **`Registry.Standard.exists_dump`** — the views of a node can be printed as long as nothing else
  is stored on it than what can be printed.
* **`Registry.Standard.isExpected_of_initialAttributes`** — why there are no starting values.
-/

namespace AttributeViews

namespace Registry

variable {r : Registry} {p : Provider} {node : Node} {now : Moment}
  {overrides values : Table String Value} {view name key : String} {spec : AttributeSpec}
  {stored : Value} {e : Error}

/-! ## Starting values -/

/-- Every starting value can be printed, the time of any clock included. -/
lemma Standard.printable_of_starts (standard : r.Standard) (hp : p ∈ r.providers)
    (declared : p.attributes.get? name = some spec)
    (starts : p.Starts now overrides name spec stored) : stored.Printable := by
  have settable := standard.settable_of_starts hp declared starts
  have yields := Provider.yields_of_mem_catalog (standard.catalog p hp) declared settable
  cases starts with
  | given _ _ accepted => exact (yields.coerced accepted).printable
  | fixed _ _ start => exact (yields.fixed start).printable
  | clock _ _ => exact printable_moment now

lemma Standard.printable_of_initialAttributes (standard : r.Standard)
    (h : r.initialAttributes now overrides = .ok values) (hs : values.get? key = some stored) :
    stored.Printable := by
  obtain ⟨p, hp, name, spec, hd, -, starts⟩ :=
    (initialAttributes_get?_iff standard.nodup h).1 hs
  exact standard.printable_of_starts hp hd starts

lemma result_dumpInitial :
    (r.dumpInitial now overrides).result
      = r.initialAttributes now overrides >>= fun values => jsonOfAttributes values.entries := by
  simp [dumpInitial, result_initial]

/-- **Starting values can be printed.** -/
lemma Standard.exists_dumpInitial (standard : r.Standard)
    (h : r.initialAttributes now overrides = .ok values) :
    ∃ text, (r.dumpInitial now overrides).result = .ok text := by
  rw [result_dumpInitial, h, ok_bind]
  exact exists_jsonOfAttributes fun a ha =>
    standard.printable_of_initialAttributes h (Table.get?_eq_some_iff.2 ha)

/-- **A new node without values** is explained to the user. -/
lemma Standard.isExpected_of_initialAttributes (standard : r.Standard)
    (h : r.initialAttributes now overrides = .error e) : e.kind.isExpected = true := by
  obtain ⟨a, ha, refused⟩ := (initialAttributes_eq_error_iff.1 h).exists_refuses
  obtain ⟨hp, hd⟩ := mem_declared_iff.1 ha
  cases refused with
  | derived => rfl
  | unsuitable _ _ _ refused =>
      exact explains_coerce_of_mem_catalog (standard.catalog _ hp) hd _ _ _ _ refused

/-! ## Views -/

lemma printable_get
    (h : ∀ key stored, node.attributes.get? key = some stored → stored.Printable)
    (address : String) : (r.get node address).Printable := by
  rw [get]
  split
  · exact Provider.printable_read h _
  · exact printable_null

/-- **The views of a node can be printed.** -/
lemma Standard.exists_dump (standard : r.Standard)
    (h : ∀ key stored, node.attributes.get? key = some stored → stored.Printable)
    (registered : view ∈ r.names) : ∃ text, r.dump node view = .ok text := by
  obtain ⟨named, plain⟩ := standard.named_of_mem_names registered
  obtain ⟨values, hv, -, hread⟩ := attributeMap_all plain named registered
  rw [dump, hv, ok_bind]
  refine exists_jsonOfAttributes fun a ha => ?_
  have hget := Table.get?_eq_some_iff.2 ha
  rw [hread a.1 (List.mem_map_of_mem ha)] at hget
  rw [← Option.some.inj hget]
  exact printable_get h _

end Registry

end AttributeViews

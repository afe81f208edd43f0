import AttributeViews.Proofs.Registry.Building
import AttributeViews.Proofs.Storing
import AttributeViews.Provider.Standard

/-!
# Where a name leads

An address leads to an attribute of some provider, and many addresses may lead to the same one: its
own view, every view that inherits it, and the bare name.  They agree about it, because an attribute
is stored under one key, and no other attribute is stored there.

* `Registry.Routes` — the rules by which an address leads to an attribute;
  **`Registry.resolve?_eq_some_iff_routes`**.
* **`Registry.set_eq_ok_of_routes`** — what is stored when an attribute is set.
* **`Registry.coherent_set`** — what is read afterwards, at every address.
-/

namespace AttributeViews

variable {r : Registry} {p q : Provider} {address view name : String}

/-! ## Addresses -/

lemma splitAddress_bare (plain : ':' ∉ name.toList) : splitAddress name = (none, name) := by
  rw [splitAddress, Text.cut?_eq_none_iff.2 plain]

lemma splitAddress_append (plain : ':' ∉ view.toList) :
    splitAddress (view ++ ":" ++ name) = (some view, name) := by
  rw [splitAddress, show view ++ ":" ++ name = view ++ String.singleton ':' ++ name from rfl,
    Text.cut?_append plain]

/-- An address is a bare name, or a view and a name. -/
lemma bare_or_append (address : String) :
    ':' ∉ address.toList ∨ ∃ view name, ':' ∉ view.toList ∧ address = view ++ ":" ++ name := by
  cases hc : Text.cut? ':' address with
  | none => exact Or.inl (Text.cut?_eq_none_iff.1 hc)
  | some sides =>
      rcases Text.cut?_eq_some hc with ⟨he, hv⟩
      exact Or.inr ⟨sides.1, sides.2, hv, he⟩

namespace Registry

/-- A provider is the first one of a list that declares a name. -/
def FirstToDeclare (name : String) (providers : List Provider) (p : Provider) : Prop :=
  ∃ nearer farther, providers = nearer ++ p :: farther ∧ p.supports name = true ∧
    ∀ q ∈ nearer, q.supports name = false

/-- Where an address leads: a bare name to the first provider in inheritance order that declares it,
and behind the name of a view to the first one among this view's and those that it inherits,
nearest first. -/
inductive Routes (r : Registry) : String → Provider → String → Prop
  | bare {name : String} {p : Provider} (plain : ':' ∉ name.toList)
      (first : FirstToDeclare name r.providers p) : Routes r name p name
  | prefixed {view name : String} {p : Provider} (plain : ':' ∉ view.toList)
      (registered : view ∈ r.names) (first : FirstToDeclare name (r.closure view) p) :
      Routes r (view ++ ":" ++ name) p name

lemma find?_supports_eq_some_iff {providers : List Provider} :
    providers.find? (·.supports name) = some p ↔ FirstToDeclare name providers p := by
  rw [List.find?_eq_some_iff_append]
  constructor
  · rintro ⟨hp, nearer, farther, he, hn⟩
    exact ⟨nearer, farther, he, hp, fun q hq => by simpa using hn q hq⟩
  · rintro ⟨nearer, farther, he, hp, hn⟩
    exact ⟨hp, nearer, farther, he, fun q hq => by simpa using hn q hq⟩

/-- **The routing is the one that the rules give.** -/
theorem resolve?_eq_some_iff_routes :
    r.resolve? address = some (p, name) ↔ r.Routes address p name := by
  rw [resolve?_eq_some_iff]
  constructor
  · rintro ⟨rfl, hf⟩
    rcases bare_or_append address with plain | ⟨view, name, plain, rfl⟩
    · rw [splitAddress_bare plain] at hf ⊢
      exact .bare plain (find?_supports_eq_some_iff.1 hf)
    · rw [splitAddress_append plain] at hf ⊢
      simp only [candidates] at hf
      split_ifs at hf with hv
      · exact .prefixed plain hv (find?_supports_eq_some_iff.1 hf)
      · cases hf
  · rintro (⟨plain, first⟩ | ⟨plain, registered, first⟩)
    · rw [splitAddress_bare plain]
      exact ⟨rfl, find?_supports_eq_some_iff.2 first⟩
    · rw [splitAddress_append plain]
      refine ⟨rfl, ?_⟩
      simp only [candidates, if_pos registered]
      exact find?_supports_eq_some_iff.2 first

lemma Routes.registered (h : r.Routes address p name) : p ∈ r.providers :=
  mem_of_resolve? (resolve?_eq_some_iff_routes.2 h)

lemma Routes.supports (h : r.Routes address p name) : p.supports name = true := by
  obtain ⟨-, nearer, farther, -, hp, -⟩ | ⟨-, -, nearer, farther, -, hp, -⟩ := h
  · exact hp
  · exact hp

lemma resolve?_eq_none_iff :
    r.resolve? address = none ↔ ∀ p name, ¬ r.Routes address p name := by
  constructor
  · intro h p name hr
    rw [resolve?_eq_some_iff_routes.2 hr] at h
    cases h
  · intro h
    cases hr : r.resolve? address with
    | none => rfl
    | some owner => exact absurd (resolve?_eq_some_iff_routes.1 hr) (h _ _)

/-! ## Reading and setting -/

variable {node node' : Node} {value : Value} {creating : Bool}

lemma get_of_routes (h : r.Routes address p name) : r.get node address = p.read node name := by
  rw [get, resolve?_eq_some_iff_routes.2 h]

/-- An address that leads nowhere is neither read nor set. -/
lemma get_of_no_route (h : ∀ p name, ¬ r.Routes address p name) : r.get node address = .null := by
  rw [get, resolve?_eq_none_iff.2 h]

lemma set_of_no_route (h : ∀ p name, ¬ r.Routes address p name) :
    r.set node address value creating = .ok node := by
  rw [set, resolve?_eq_none_iff.2 h]

/-- **Setting an attribute** stores what its check makes of the value. -/
lemma set_eq_ok_of_routes (hr : r.Routes address p name)
    (h : r.set node address value creating = .ok node') :
    ∃ spec stored, p.attributes.get? name = some spec ∧ spec.settable = true ∧
      spec.check (reportedView address p) name value = .ok stored ∧
        node' = node.write (p.qualified name) stored := by
  rw [set, resolve?_eq_some_iff_routes.2 hr] at h
  rcases Table.contains_eq_true_iff.1 hr.supports with ⟨spec, hspec⟩
  rcases (Provider.write_eq_ok_iff hspec).1 h with ⟨hs, -, stored, hc, he⟩
  exact ⟨spec, stored, hspec, hs, hc, he⟩

end Registry

/-- What is read of an attribute that can be set is what is stored, since no fact can be set. -/
lemma Provider.read_of_settable {node : Node} {spec : AttributeSpec}
    (declared : p.attributes.get? name = some spec) (settable : spec.settable = true) :
    p.read node name = node.read (p.qualified name) := by
  have hfact : spec.fact = none := by
    cases hf : spec.fact with
    | none => rfl
    | some fact =>
        rw [spec.fact_unsettable (by rw [hf]; rfl)] at settable
        cases settable
  rw [Provider.read, declared]
  simp only [hfact]

lemma Provider.read_write {node : Node} {stored : Value} {spec : AttributeSpec}
    (declared : p.attributes.get? name = some spec) (settable : spec.settable = true) :
    p.read (node.write (p.qualified name) stored) name = stored := by
  rw [read_of_settable declared settable, Node.read_write, if_pos rfl]

/-- A fact of a node does not depend on what is stored. -/
lemma NodeFact.read_write {node : Node} {key : String} {stored : Value} (fact : NodeFact) :
    fact.read (node.write key stored) = fact.read node := by
  cases fact <;> rfl

/-- Storing a value under the key of one attribute leaves the others as they were. -/
lemma Provider.read_write_of_ne {node : Node} {key : String} {stored : Value}
    (other : p.supports name = true → key ≠ p.qualified name) :
    p.read (node.write key stored) name = p.read node name := by
  rw [Provider.read, Provider.read]
  cases hd : p.attributes.get? name with
  | none => rfl
  | some spec =>
      have hne := other (Table.contains_eq_true_iff.2 ⟨spec, hd⟩)
      cases hf : spec.fact with
      | none => simp only [hf, Node.read_write, if_neg hne]
      | some fact => simp only [hf, fact.read_write]

namespace Registry

/-- **Reading after setting.**  Let an address lead to an attribute, and let setting it succeed.
Then its check has accepted the value, the answer of the check is stored under the attribute's key,
and nothing else about the node has changed.  Every address that leads to the same attribute now
reads as that answer, and every other address as it did before.  An address that leads nowhere is
passed over: setting it does nothing, and it reads as absent. -/
theorem coherent_set {providers : List Provider} {defaults : Table String Value}
    (built : build providers defaults = .ok r) (node : Node) (address : String) (value : Value)
    (creating : Bool) :
    (∀ p name node', r.Routes address p name → r.set node address value creating = .ok node' →
      ∃ spec stored, p.attributes.get? name = some spec ∧
        spec.check (reportedView address p) name value = .ok stored ∧
        Node.SameFile node node' ∧
        node'.attributes.get? (p.qualified name) = some stored ∧
        (∀ key, key ≠ p.qualified name → node'.attributes.get? key = node.attributes.get? key) ∧
        (∀ address', r.Routes address' p name → r.get node' address' = stored) ∧
        ∀ address', ¬ r.Routes address' p name → r.get node' address' = r.get node address') ∧
    ((∀ p name, ¬ r.Routes address p name) →
      r.set node address value creating = .ok node ∧ r.get node address = .null) := by
  refine ⟨fun p name node' hr h => ?_, fun hr => ⟨set_of_no_route hr, get_of_no_route hr⟩⟩
  rcases set_eq_ok_of_routes hr h with ⟨spec, stored, hd, hs, hc, rfl⟩
  refine ⟨spec, stored, hd, hc, ⟨rfl, rfl, rfl⟩, ?_, ?_, ?_, ?_⟩
  · rw [Node.write, Table.get?_insert, if_pos rfl]
  · intro key hne
    rw [Node.write, Table.get?_insert, if_neg (Ne.symm hne)]
  · intro address' hr'
    rw [get_of_routes hr', Provider.read_write hd hs]
  · intro address' hother
    cases ho : r.resolve? address' with
    | none =>
        have hnone := resolve?_eq_none_iff.1 ho
        rw [get_of_no_route hnone, get_of_no_route hnone]
    | some owner =>
        obtain ⟨q, name'⟩ := owner
        have hr' := resolve?_eq_some_iff_routes.1 ho
        rw [get_of_routes hr', get_of_routes hr']
        refine Provider.read_write_of_ne fun hq same => hother ?_
        -- a shared key would make it the same attribute
        obtain ⟨rfl, rfl⟩ := qualified_injective (keys_nodup_of_build built) hr.registered
          hr.supports hr'.registered hq same
        exact hr'

end Registry

/-- A view that stores under a scope of its own. -/
def Provider.tag : Provider := ⟨"tag", "meta", [], .ofList [("pinned", flagAttribute)], .plain⟩

/-- A view that inherits the tags and stores under a scope with a colon in it. -/
def Provider.note : Provider :=
  ⟨"note", "meta:note", ["tag"], .ofList [("draft", flagAttribute)], .plain⟩

/-- A tag that is set through the notes is read by its bare name. -/
theorem Registry.coherent_set_tag :
    ∃ r node', build [.note, .tag] .empty = .ok r ∧ r.Routes "note:pinned" .tag "pinned" ∧
      r.set (.fresh "1" .file 0) "note:pinned" (.bool true) false = .ok node' ∧
      r.get node' "pinned" = .bool true := by
  have built : build [.note, .tag] .empty = .ok ⟨[.tag, .note], .empty⟩ := rfl
  have hclosure : closure ⟨[.tag, .note], .empty⟩ "note" = [.note, .tag] := by
    rw [closure, reachable_of_filter_eq_cons rfl, reachable_of_filter_eq_cons rfl,
      reachable_of_filter_eq_nil rfl]
    rfl
  have routes : Routes ⟨[.tag, .note], .empty⟩ ("note" ++ ":" ++ "pinned") .tag "pinned" :=
    .prefixed (by decide) (by decide) ⟨[.note], [], hclosure, rfl, by simp; rfl⟩
  have hset : set ⟨[.tag, .note], .empty⟩ (.fresh "1" .file 0) ("note" ++ ":" ++ "pinned")
      (.bool true) false = .ok ((Node.fresh "1" .file 0).write "meta:pinned" (.bool true)) := by
    rw [set, resolve?_eq_some_iff_routes.2 routes]
    rfl
  obtain ⟨spec, stored, hd, hc, -, -, -, hread, -⟩ :=
    (coherent_set built _ _ _ _).1 _ _ _ routes hset
  refine ⟨_, _, built, routes, hset, ?_⟩
  rw [hread "pinned" (.bare (by decide) ⟨[], [.note], rfl, rfl, by simp⟩)]
  cases hd
  exact (Except.ok.inj hc).symm

end AttributeViews

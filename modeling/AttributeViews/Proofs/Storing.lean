import AttributeViews.FileTree.Structure
import AttributeViews.Proofs.Answers
import AttributeViews.Registry.Access
import Mathlib.Logic.Relation

/-!
# What is stored on a node

Whatever is done to a node ends in `Node.write`, one key after the other.  What can be stored is
said once for every operation, as a relation between keys and values, and what an operation keeps
then follows from what it may store.

* `Node.Rewritten` — one node comes from another by storing values that a relation allows.
* `Node.SameFile` — identity, kind and size agree; **`Node.Rewritten.sameFile`**.
* `Registry.Accepts` — the stored forms of values under the keys of settable attributes.
* **`Provider.write_eq_ok_iff`** — when an attribute is set, and what is stored then.
* **`Registry.rewritten_of_set`**, **`FileTree.rewritten_of_setWhileCreating`** — setting by name
  stores what the registry accepts.
* `Registry.seed_eq_ok_iff` — a new node gets its starting values.
-/

namespace AttributeViews

variable {allowed allowed' : String → Value → Prop} {n m node node' : Node}

namespace Node

/-- Storing one value under a key that allows it. -/
def Stores (allowed : String → Value → Prop) (n m : Node) : Prop :=
  ∃ key v, allowed key v ∧ m = n.write key v

/-- Storing values one after the other, each under a key that allows it. -/
abbrev Rewritten (allowed : String → Value → Prop) : Node → Node → Prop :=
  Relation.ReflTransGen (Stores allowed)

/-- Two states of one file: they may differ in what is stored and in nothing else. -/
structure SameFile (n m : Node) : Prop where
  id : m.id = n.id
  kind : m.kind = n.kind
  size : m.size = n.size

lemma SameFile.refl (n : Node) : SameFile n n := ⟨rfl, rfl, rfl⟩

lemma SameFile.trans {k : Node} (h : SameFile n m) (h' : SameFile m k) : SameFile n k :=
  ⟨h'.id.trans h.id, h'.kind.trans h.kind, h'.size.trans h.size⟩

/-- One allowed value stored. -/
lemma Rewritten.write {key : String} {v : Value} (h : allowed key v) :
    Rewritten allowed n (n.write key v) :=
  .single ⟨key, v, h, rfl⟩

lemma Rewritten.mono (h : Rewritten allowed n m) (hm : ∀ key v, allowed key v → allowed' key v) :
    Rewritten allowed' n m :=
  Relation.ReflTransGen.mono (fun _ _ ⟨key, v, ha, he⟩ => ⟨key, v, hm key v ha, he⟩) _ _ h

/-- **Storing values does not make another file of a node.** -/
lemma Rewritten.sameFile (h : Rewritten allowed n m) : SameFile n m := by
  induction h with
  | refl => exact SameFile.refl n
  | tail _ hs ih =>
      obtain ⟨key, v, -, rfl⟩ := hs
      exact ih.trans ⟨rfl, rfl, rfl⟩

end Node

/-! ## Setting attributes -/

lemma checkNotCreating_eq_ok_iff {view name : String} {creating : Bool} {u : Unit} :
    checkNotCreating view name creating = .ok u ↔ creating = false := by
  cases creating <;> simp [checkNotCreating]

/-- **Setting a declared attribute.**  It has to be settable, now as well as in general, and its
check has to accept the value; then the stored form of the value is written under the attribute's
key. -/
lemma Provider.write_eq_ok_iff {p : Provider} {view name : String} {value : Value}
    {creating : Bool} {spec : AttributeSpec} (declared : p.attributes.get? name = some spec) :
    p.write node view name value creating = .ok node' ↔
      spec.settable = true ∧ (spec.creationRestricted = true → creating = false) ∧
        ∃ stored, spec.check view name value = .ok stored ∧
          node' = node.write (p.qualified name) stored := by
  rw [Provider.write, declared]
  by_cases hs : spec.settable = true
  · by_cases hr : spec.creationRestricted = true
    · simp [hs, hr, bind_eq_ok_iff, map_eq_ok_iff, checkNotCreating_eq_ok_iff]
    · simp [hs, hr, map_eq_ok_iff]
  · simp [hs]

/-- An attribute that a provider does not declare is passed over. -/
lemma Provider.write_of_undeclared {p : Provider} {view name : String} {value : Value}
    {creating : Bool} (undeclared : p.attributes.get? name = none) :
    p.write node view name value creating = .ok node := by
  rw [Provider.write, undeclared]

/-- The values that can be stored by name: what the strict check of a settable attribute answers,
under the key of that attribute. -/
inductive Registry.Accepts (r : Registry) : String → Value → Prop
  | checked {p : Provider} {name view : String} {spec : AttributeSpec} {value stored : Value}
      (registered : p ∈ r.providers) (declared : p.attributes.get? name = some spec)
      (settable : spec.settable = true) (accepted : spec.check view name value = .ok stored) :
      Accepts r (p.qualified name) stored

lemma Provider.rewritten_of_write {r : Registry} {p : Provider} {view name : String}
    {value : Value} {creating : Bool} (registered : p ∈ r.providers)
    (h : p.write node view name value creating = .ok node') :
    Node.Rewritten r.Accepts node node' := by
  cases hd : p.attributes.get? name with
  | none =>
      rw [write_of_undeclared hd] at h
      rw [Except.ok.inj h]
  | some spec =>
      rcases (write_eq_ok_iff hd).1 h with ⟨hs, -, stored, hc, rfl⟩
      exact .write (.checked registered hd hs hc)

namespace Registry

variable {r : Registry} {p : Provider} {view name address : String} {value : Value}
  {creating : Bool}

lemma mem_of_find? (h : r.find? view = some p) : p ∈ r.providers :=
  List.mem_of_find?_eq_some h

/-- An address is looked for among the registered providers only. -/
lemma mem_of_mem_candidates {view? : Option String} (h : p ∈ r.candidates view?) :
    p ∈ r.providers := by
  cases view? with
  | none => exact h
  | some view =>
      simp only [candidates] at h
      split at h
      · rcases List.mem_filterMap.1 h with ⟨other, -, hf⟩
        exact mem_of_find? hf
      · exact absurd h List.not_mem_nil

lemma resolve?_eq_some_iff :
    r.resolve? address = some (p, name) ↔
      name = (splitAddress address).2 ∧
        (r.candidates (splitAddress address).1).find? (·.supports name) = some p := by
  simp only [resolve?, Option.map_eq_some_iff, Prod.mk.injEq]
  constructor
  · rintro ⟨q, hq, rfl, rfl⟩
    exact ⟨rfl, hq⟩
  · rintro ⟨rfl, hq⟩
    exact ⟨p, hq, rfl, rfl⟩

lemma mem_of_resolve? (h : r.resolve? address = some (p, name)) : p ∈ r.providers :=
  mem_of_mem_candidates (List.mem_of_find?_eq_some (resolve?_eq_some_iff.1 h).2)

/-- **Setting by address** stores what the registry accepts, or nothing. -/
lemma rewritten_of_set (h : r.set node address value creating = .ok node') :
    Node.Rewritten r.Accepts node node' := by
  rw [set] at h
  split at h
  · next hr => exact Provider.rewritten_of_write (mem_of_resolve? hr) h
  · rw [Except.ok.inj h]

@[simp] lemma result_write :
    (r.write node address value creating).result = r.set node address value creating := by
  simp [write]

@[simp] lemma result_read : (r.read node address).result = .ok (r.get node address) := by
  simp [read]

/-! ## Starting values -/

/-- **A new node** gets its starting values, and nothing else about it changes. -/
lemma seed_eq_ok_iff {now : Moment} {overrides : Table String Value} :
    r.seed now node overrides = .ok node' ↔
      ∃ values, r.initialAttributes now overrides = .ok values ∧
        node' = { node with attributes := node.attributes.update values } := by
  simp [seed, map_eq_ok_iff]

lemma sameFile_of_seed {now : Moment} {overrides : Table String Value}
    (h : r.seed now node overrides = .ok node') : Node.SameFile node node' := by
  rcases seed_eq_ok_iff.1 h with ⟨values, -, rfl⟩
  exact ⟨rfl, rfl, rfl⟩

lemma result_prepare {now : Moment} {overrides : Table String Value} :
    (r.prepare now node overrides).result = r.seed now node overrides := by
  simp [prepare]

end Registry

/-! ## New trees and new files -/

namespace FileTree

variable {t t' : FileTree} {r : Registry} {now : Moment} {id id' : String} {kind : NodeKind}
  {path : Path} {attributes : List (String × Value)} {overrides : Table String Value}

/-- **A new tree** holds a root directory and nothing else. -/
lemma ofRoot_eq_ok_iff :
    (ofRoot r now id).result = .ok t ↔
      ∃ root, r.seed now (.fresh id .directory 0) .empty = .ok root ∧
        ⟨r, .ofList [(.root, root.id)], .ofList [(root.id, root)]⟩ = t := by
  simp [ofRoot, Registry.result_prepare, bind_eq_ok_iff]

lemma paths_ofRoot {p : Path} (made : (ofRoot r now id).result = .ok t) :
    t.paths.get? p = some id' ↔ p = .root ∧ id' = id := by
  rcases ofRoot_eq_ok_iff.1 made with ⟨root, hroot, rfl⟩
  have hid : root.id = id := (Registry.sameFile_of_seed hroot).id
  rw [Table.get?_singleton, hid]
  split_ifs with hp
  · simp [← hp, eq_comm]
  · simp [Ne.symm hp]

lemma nodes_ofRoot (made : (ofRoot r now id).result = .ok t) :
    t.nodes.get? id' = some node ↔
      id' = id ∧ r.seed now (.fresh id .directory 0) .empty = .ok node := by
  rcases ofRoot_eq_ok_iff.1 made with ⟨root, hroot, rfl⟩
  have hid : root.id = id := (Registry.sameFile_of_seed hroot).id
  rw [Table.get?_singleton, hid, hroot]
  split_ifs with he
  · simp [he]
  · simp [Ne.symm he]

/-- Setting the attributes of a file that is being created stores what the registry accepts. -/
lemma rewritten_of_setWhileCreating :
    ∀ {attributes : List (String × Value)} {node : Node},
      (setWhileCreating r attributes node).result = .ok node' →
        Node.Rewritten r.Accepts node node'
  | [], node, h => by
      rw [Except.ok.inj (h : Except.ok node = Except.ok node')]
  | (address, value) :: rest, node, h => by
      simp only [setWhileCreating, Logged.result_bind, Registry.result_write, bind_eq_ok_iff] at h
      obtain ⟨next, hset, hrest⟩ := h
      exact (Registry.rewritten_of_set hset).trans (rewritten_of_setWhileCreating hrest)

/-- **When a file is created**, and the tree after it. -/
lemma create_eq_ok_iff :
    (t.create now id kind path attributes overrides).result = .ok (t', node) ↔
      t.checkVacant path = .ok () ∧ t' = t.link path node ∧
        ∃ started, t.registry.seed now (.fresh id kind 0) overrides = .ok started ∧
          (setWhileCreating t.registry attributes started).result = .ok node := by
  simp only [create, Logged.result_bind, Logged.result_lift, Logged.result_record,
    Logged.result_pure, Registry.result_prepare, bind_eq_ok_iff, ok_bind, Except.ok.injEq,
    Prod.mk.injEq]
  constructor
  · rintro ⟨⟨⟩, hv, started, hs, node', ha, rfl, rfl⟩
    exact ⟨hv, rfl, started, hs, ha⟩
  · rintro ⟨hv, rfl, started, hs, ha⟩
    exact ⟨(), hv, started, hs, node, ha, rfl, rfl⟩

/-- A created file is the file that was asked for. -/
lemma sameFile_of_create
    (h : (t.create now id kind path attributes overrides).result = .ok (t', node)) :
    Node.SameFile (.fresh id kind 0) node := by
  rcases create_eq_ok_iff.1 h with ⟨-, -, started, hs, ha⟩
  exact (Registry.sameFile_of_seed hs).trans (rewritten_of_setWhileCreating ha).sameFile

end FileTree

end AttributeViews

import AttributeViews.FileTree.Session
import AttributeViews.Proofs.FileTree.Structure
import AttributeViews.Proofs.View.Calls

/-!
# Everything that an operation can do to a session

An operation on a tree either fails without a trace but a used identity, or creates, moves or
deletes one file, or stores values on one node.  **`Session.step_perform`** says so once, with all
that the operation has checked before; every invariant of histories is a case analysis of
`Session.Step`.
-/

namespace AttributeViews

variable {s s' : Session} {operation : Operation}

/-! ## What operations on a node store -/

/-- The values that are stored by name or through live views, on whatever lookup these are. -/
inductive Registry.Ingests (r : Registry) : String → Value → Prop
  | byName {key : String} {v : Value} (accepted : r.Accepts key v) : Ingests r key v
  | byView {σ : Type} {view : String} {lookup : Lookup σ} {serial : Nat} {made : View σ}
      {key : String} {v : Value} (built : (r.getView view lookup serial).2 = .ok (some made))
      (set : made.Sets key v) : Ingests r key v

/-- Whether an operation on a node stores a value without a check. -/
def NodeOperation.IsStore : NodeOperation → Prop
  | .store .. => True
  | .set .. | .setThrough .. | .callView .. => False

/-- The values that an operation on a node can store. -/
def NodeOperation.Allows (r : Registry) (operation : NodeOperation) (key : String) (v : Value) :
    Prop := operation.IsStore ∨ r.Ingests key v

lemma rewritten_getD {allowed : String → Value → Prop} {node : Node} {answer : Except Error Node}
    (h : ∀ node', answer = .ok node' → Node.Rewritten allowed node node') :
    Node.Rewritten allowed node (answer.toOption.getD node) := by
  cases answer with
  | error e => exact .refl
  | ok node' => exact h node' rfl

/-- A call of a view that is built on a lookup changes at most the node of that lookup, by values
that its setters store. -/
lemma Registry.callView_cases {σ : Type} (r : Registry) (view : String) (lookup : Lookup σ)
    (serial : Nat) (call : ViewCall) (state : σ) :
    r.callView view lookup serial call state = state ∨
      ∃ node node', lookup.resolve state = .ok node ∧ Node.Rewritten r.Ingests node node' ∧
        r.callView view lookup serial call state = lookup.store node' state := by
  rw [callView]
  split
  · next v hv =>
    split
    · next operation hc =>
      have hb := boundTo_of_getView hv
      cases hl : lookup.resolve state with
      | error e =>
          rw [hb.call_of_error hc hl]
          exact Or.inl rfl
      | ok node =>
          rcases hb.call_of_ok hc hl with h | ⟨node', hr, h⟩
          · exact Or.inl h
          · exact Or.inr ⟨node, node', rfl, hr.mono fun _ _ => .byView hv, h⟩
    · exact Or.inl rfl
  · exact Or.inl rfl
  · exact Or.inl rfl

/-- **Whatever is done to a node** stores values on it. -/
lemma NodeOperation.rewritten_perform (r : Registry) (operation : NodeOperation) (node : Node) :
    Node.Rewritten (operation.Allows r) node (operation.perform r node) := by
  cases operation with
  | set address value creating =>
      refine rewritten_getD fun node' h => ?_
      rw [Registry.result_write] at h
      exact (Registry.rewritten_of_set h).mono fun _ _ ha => Or.inr (.byName ha)
  | setThrough provider view name value creating =>
      rw [perform]
      split
      · next p hp =>
        refine rewritten_getD fun node' h => ?_
        exact (Provider.rewritten_of_write (Registry.mem_of_find? hp) h).mono
          fun _ _ ha => Or.inr (.byName ha)
      · exact .refl
  | callView view serial call =>
      rw [perform]
      rcases r.callView_cases view .static serial call node with
        h | ⟨found, node', hf, hr, h⟩
      · rw [h]
      · rw [h, Except.ok.inj (hf : Except.ok node = Except.ok found)]
        exact hr.mono fun _ _ => Or.inr
  | store key value => exact .write (Or.inl trivial)

/-! ## Steps of a session -/

/-- An operation creates, moves or deletes files, and does nothing to the files that are there. -/
def Operation.Structural : Operation → Prop
  | .create .. | .move .. | .delete .. => True
  | .setAttribute .. | .onNode .. | .onView .. => False

/-- Whether an operation on a tree stores a value without a check. -/
def Operation.IsStore : Operation → Prop
  | .onNode _ operation => operation.IsStore
  | .create .. | .move .. | .delete .. | .setAttribute .. | .onView .. => False

/-- The values that an operation on a tree can store on a node that is there before. -/
def Operation.Allows (r : Registry) (operation : Operation) (key : String) (v : Value) : Prop :=
  operation.IsStore ∨ r.Ingests key v

namespace Session

/-- All that an operation can do to a session. -/
inductive Step (s : Session) : Operation → Session → Prop
  /-- The operation fails, or leaves everything as it is. -/
  | idle {operation : Operation} : Step s operation s
  /-- A creation fails after it has taken an identity. -/
  | refused {now : Moment} {kind : NodeKind} {path : String} {attributes : List (String × Value)}
      {overrides : Table String Value} :
      Step s (.create now kind path attributes overrides) { s with supply := s.supply.advance }
  /-- A file is created with the next identity. -/
  | created {now : Moment} {kind : NodeKind} {path : String} {attributes : List (String × Value)}
      {overrides : Table String Value} {tree : FileTree} {node : Node}
      (made : (s.tree.create now s.supply.next kind (.ofText path) attributes overrides).result
        = .ok (tree, node)) :
      Step s (.create now kind path attributes overrides) ⟨tree, s.supply.advance⟩
  /-- A file is moved. -/
  | moved {source target : String} {tree : FileTree}
      (made : s.tree.move (.ofText source) (.ofText target) = .ok tree) :
      Step s (.move source target) { s with tree := tree }
  /-- A file is deleted. -/
  | deleted {path : String} {tree : FileTree} (made : s.tree.delete (.ofText path) = .ok tree) :
      Step s (.delete path) { s with tree := tree }
  /-- Values are stored on a node. -/
  | rewritten {operation : Operation} {id : String} {node node' : Node}
      (storing : ¬ operation.Structural) (found : s.tree.nodes.get? id = some node)
      (stored : Node.Rewritten (operation.Allows s.tree.registry) node node') :
      Step s operation { s with tree := s.tree.putNode node' }

end Session

/-! ### Finding nodes -/

namespace FileTree

variable {t : FileTree} {path : Path} {id : String} {node : Node}

lemma nodeById_eq_ok_iff : t.nodeById id = .ok node ↔ t.nodes.get? id = some node := by
  rw [nodeById]
  cases t.nodes.get? id <;> simp

lemma node_eq_ok_iff :
    t.node path = .ok node ↔
      ∃ id, t.paths.get? path = some id ∧ t.nodes.get? id = some node := by
  rw [FileTree.node, ← Option.bind_eq_some_iff]
  cases (t.paths.get? path).bind t.nodes.get? <;> simp

/-- Creating with the next identity of a supply: a path that is not free is refused before an
identity is taken. -/
lemma createNext_eq {now : Moment} {kind : NodeKind} {attributes : List (String × Value)}
    {overrides : Table String Value} {supply : IdSupply} :
    t.createNext now kind path attributes overrides supply
      = match t.checkVacant path with
        | .error e => (supply, .lift (.error e))
        | .ok () =>
            (supply.advance, t.create now supply.next kind path attributes overrides) := by
  rw [createNext]
  cases t.checkVacant path <;> rfl

@[simp] lemma result_moveRecorded {source target : Path} :
    (t.moveRecorded source target).result = t.move source target := by
  simp [moveRecorded]

@[simp] lemma result_deleteRecorded : (t.deleteRecorded path).result = t.delete path := by
  simp [deleteRecorded]

/-- Setting an attribute of the file at a path is setting it on the node there. -/
lemma setAttribute_eq_ok_iff {t' : FileTree} {address : String} {value : Value} :
    (t.setAttribute path address value).result = .ok t' ↔
      ∃ node, t.node path = .ok node ∧ ∃ node',
        t.registry.set node address value false = .ok node' ∧ t.putNode node' = t' := by
  simp [setAttribute, bind_eq_ok_iff]

end FileTree

/-- **Every operation is a step.** -/
theorem Session.step_perform (s : Session) (operation : Operation) :
    s.Step operation (s.perform operation) := by
  cases operation with
  | create now kind path attributes overrides =>
      rw [perform, FileTree.createNext_eq]
      cases s.tree.checkVacant (.ofText path) with
      | error e => exact .idle
      | ok _ =>
          dsimp only
          cases hc : (s.tree.create now s.supply.next kind (.ofText path) attributes
              overrides).result with
          | error e => exact .refused
          | ok made => exact .created hc
  | move source target =>
      rw [perform, FileTree.result_moveRecorded]
      cases hm : s.tree.move (.ofText source) (.ofText target) with
      | error e => exact .idle
      | ok tree => exact .moved hm
  | delete path =>
      rw [perform, FileTree.result_deleteRecorded]
      cases hd : s.tree.delete (.ofText path) with
      | error e => exact .idle
      | ok tree => exact .deleted hd
  | setAttribute path address value =>
      rw [perform]
      cases hs : (s.tree.setAttribute (.ofText path) address value).result with
      | error e => exact .idle
      | ok tree =>
          rcases FileTree.setAttribute_eq_ok_iff.1 hs with ⟨node, hn, node', hset, rfl⟩
          rcases FileTree.node_eq_ok_iff.1 hn with ⟨id, -, hid⟩
          exact .rewritten (fun h => h) hid ((Registry.rewritten_of_set hset).mono
            fun _ _ ha => Or.inr (.byName ha))
  | onNode path operation =>
      rw [perform]
      split
      · next node hn =>
        rcases FileTree.node_eq_ok_iff.1 hn with ⟨id, -, hid⟩
        exact .rewritten (fun h => h) hid (operation.rewritten_perform s.tree.registry node)
      · exact .idle
  | onView id view serial call =>
      rw [perform]
      rcases s.tree.registry.callView_cases view (FileTree.lookup id) serial call s.tree with
        h | ⟨node, node', hf, hr, h⟩
      · rw [h]
        exact .idle
      · rw [h]
        exact .rewritten (fun h => h) (FileTree.nodeById_eq_ok_iff.1 hf)
            (hr.mono fun _ _ => Or.inr)

end AttributeViews

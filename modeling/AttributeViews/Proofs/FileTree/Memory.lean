import AttributeViews.FileTree.InPlace
import AttributeViews.Proofs.Answers
import Mathlib.Data.List.GetD

/-!
# What a memory shows of its tree

While a file is being created, its node is already in memory, with all that has been stored on it so
far; but no identity leads there.  `Memory.making` describes these memories, `Memory.linked` the one
in which the file has been entered, and `Memory.unlinked` the one after a deletion.

* `Memory.Kept` — indexes and nodes are what they were.
* **`Memory.Kept.tree`** — then the tree is.
* **`Memory.tree_inMemory`** — a tree that is put into memory lies there.
* **`Memory.Works.bind`** — what comes of work on a node that is being made, part by part.
* `Memory.Agrees` — a procedure comes to the same as an operation on trees.
-/

namespace AttributeViews

variable {α β : Type}

namespace Memory

variable {m m' : Memory} {node : Node} {records : List Record} {path : Path}

/-! ## What is kept -/

/-- The identities lead to places at which there are nodes. -/
def Fits (m : Memory) : Prop := ∀ id place, m.places.get? id = some place → place < m.nodes.length

/-- The indexes are what they were, and so are all nodes that had been made. -/
structure Kept (m m' : Memory) : Prop where
  registry : m'.registry = m.registry
  paths : m'.paths = m.paths
  places : m'.places = m.places
  nodes : m.nodes <+: m'.nodes

lemma Kept.refl (m : Memory) : m.Kept m := ⟨rfl, rfl, rfl, List.prefix_refl _⟩

/-- New nodes do not show where identities lead to older ones. -/
lemma map_nodeAt (fits : m.Fits) (older : m.nodes <+: m'.nodes) :
    m.places.map m'.nodeAt = m.places.map m.nodeAt := by
  obtain ⟨rest, hrest⟩ := older
  refine Table.ext (List.map_congr_left fun entry he => ?_)
  have hplace := fits _ _ (Table.get?_eq_some_iff.2 he)
  rw [nodeAt, nodeAt, ← hrest, List.getD_append _ _ _ _ hplace]

lemma Kept.tree (kept : m.Kept m') (fits : m.Fits) : m'.tree = m.tree := by
  rw [Memory.tree, Memory.tree, kept.registry, kept.paths, kept.places, map_nodeAt fits kept.nodes]

lemma Kept.fits (kept : m.Kept m') (fits : m.Fits) : m'.Fits := by
  intro id place h
  rw [kept.places] at h
  exact Nat.lt_of_lt_of_le (fits id place h) kept.nodes.length_le

/-! ## A tree put into memory -/

lemma tree_inMemory (t : FileTree) (supply : IdSupply) : (t.inMemory supply).tree = t := by
  have hentries : (t.nodes.keys.zipIdx.map fun p => (p.1, t.nodes.values.getD p.2 default))
      = t.nodes.entries := by
    refine List.ext_getElem (by simp [Table.keys]) fun i _ hi => ?_
    simp [Table.keys, Table.values, hi]
  have hnodes : (t.inMemory supply).places.map (t.inMemory supply).nodeAt = t.nodes :=
    Table.ext hentries
  rw [Memory.tree, hnodes]
  rfl

lemma fits_inMemory (t : FileTree) (supply : IdSupply) : (t.inMemory supply).Fits := by
  intro id place h
  have hmem : (id, place) ∈ t.nodes.keys.zipIdx := Table.get?_eq_some_iff.1 h
  have hlt := (List.mem_zipIdx hmem).2.1
  simpa [FileTree.inMemory, Table.keys, Table.values] using hlt

/-! ## A node that is being made -/

/-- The memory with more records. -/
def recorded (m : Memory) (records : List Record) : Memory :=
  { m with journal := m.journal ++ records }

/-- One more node, to which no identity leads. -/
def making (m : Memory) (node : Node) (records : List Record) : Memory :=
  { m with
    nodes := m.nodes ++ [node]
    supply := m.supply.advance
    journal := m.journal ++ records }

@[simp] lemma recorded_nil : m.recorded [] = m := by
  simp [recorded]

@[simp] lemma recorded_making (records' : List Record) :
    (m.making node records).recorded records' = m.making node (records ++ records') := by
  simp [recorded, making]

lemma kept_making : m.Kept (m.making node records) := ⟨rfl, rfl, rfl, List.prefix_append _ _⟩

@[simp] lemma nodeAt_making (m : Memory) (node : Node) (records : List Record) :
    (m.making node records).nodeAt m.nodes.length = node := by
  rw [nodeAt, making, List.getD_append_right _ _ _ _ (Nat.le_refl _), Nat.sub_self]
  rfl

lemma set_making (node' : Node) :
    { m.making node records with nodes := (m.making node records).nodes.set m.nodes.length node' }
      = m.making node' records := by
  rw [making, List.set_append_right _ _ (Nat.le_refl _), Nat.sub_self]
  rfl

lemma modify_making (f : Node → Node) :
    { m.making node records with nodes := (m.making node records).nodes.modify m.nodes.length f }
      = m.making (f node) records := by
  have hlast (nodes : List Node) :
      (nodes ++ [node]).modify nodes.length f = nodes ++ [f node] := by
    induction nodes with
    | nil => rfl
    | cons first rest ih => exact congrArg (first :: ·) ih
  rw [making, hlast]
  rfl

/-- What comes of work on a node that is being made, if the same work on the node alone answers `x`:
it shows on that node and in the journal, and nowhere else. -/
inductive Works (m : Memory) (records : List Record) (x : Logged Node) :
    EStateM.Result Stop Memory Unit → Prop
  | done {node : Node} (answer : x.result = .ok node) :
      Works m records x (.ok () (m.making node (records ++ x.records)))
  | refused {e : Error} {left : Node} (answer : x.result = .error e) :
      Works m records x (.error (.refused e) (m.making left (records ++ x.records)))

/-- **Work in two parts.**  If the first one is refused, the node is left as that one leaves it. -/
lemma Works.bind {x : Logged Node} {f : Node → Logged Node} {p q : Procedure Unit}
    (first : m.Works records x (p.run m'))
    (second : ∀ node, x.result = .ok node →
      m.Works (records ++ x.records) (f node) (q.run (m.making node (records ++ x.records)))) :
    m.Works records (x >>= f) ((p >>= fun _ => q).run m') := by
  rw [EStateM.run_bind]
  generalize p.run m' = outcome at first
  cases first with
  | refused answer =>
      rw [Logged.bind_of_error answer]
      exact .refused rfl
  | @done node answer =>
      have rest := second node answer
      rw [Logged.bind_of_ok answer]
      show m.Works records _ (q.run (m.making node (records ++ x.records)))
      generalize q.run (m.making node (records ++ x.records)) = outcome at rest ⊢
      cases rest with
      | done answer' =>
          rw [List.append_assoc]
          exact .done answer'
      | refused answer' =>
          rw [List.append_assoc]
          exact .refused answer'

/-! ## Entering and removing -/

/-- A new node, entered under a path and under its identity. -/
def linked (m : Memory) (path : Path) (node : Node) (records : List Record) : Memory :=
  { m.making node records with
    paths := m.paths.insert path node.id
    places := m.places.insert node.id m.nodes.length }

lemma recorded_linked (records' : List Record) :
    (m.linked path node records).recorded records' = m.linked path node (records ++ records') := by
  simp [linked, recorded, making]

lemma fits_linked (fits : m.Fits) : (m.linked path node records).Fits := by
  intro id place h
  have hlength : (m.linked path node records).nodes.length = m.nodes.length + 1 := by
    simp [linked, making]
  rw [linked, Table.get?_insert] at h
  rw [hlength]
  split_ifs at h with hid
  · have hplace := Option.some.inj h
    omega
  · exact Nat.lt_succ_of_lt (fits id place h)

lemma tree_linked (fits : m.Fits) :
    (m.linked path node records).tree = m.tree.link path node := by
  have hnew : (m.linked path node records).nodeAt m.nodes.length = node :=
    nodeAt_making m node records
  have hrest : m.places.map (m.linked path node records).nodeAt = m.places.map m.nodeAt :=
    map_nodeAt fits (List.prefix_append _ _)
  have hnodes := calc
    (m.linked path node records).places.map (m.linked path node records).nodeAt
      = (m.places.map (m.linked path node records).nodeAt).insert node.id
          ((m.linked path node records).nodeAt m.nodes.length) := Table.map_insert _ _ _ _
    _ = (m.places.map m.nodeAt).insert node.id node := by rw [hrest, hnew]
  rw [Memory.tree, hnodes]
  rfl

/-- A path and an identity taken out. -/
def unlinked (m : Memory) (path : Path) (id : String) : Memory :=
  { m with paths := m.paths.erase path, places := m.places.erase id }

lemma fits_unlinked (fits : m.Fits) (path : Path) (id : String) : (m.unlinked path id).Fits := by
  intro id' place h
  rw [unlinked, Table.get?_erase] at h
  split_ifs at h
  exact fits id' place h

lemma tree_unlinked (m : Memory) (path : Path) (id : String) :
    (m.unlinked path id).tree
      = { m.tree with paths := m.paths.erase path, nodes := m.tree.nodes.erase id } := by
  have hnodes : (m.unlinked path id).places.map (m.unlinked path id).nodeAt
      = (m.places.map m.nodeAt).erase id := Table.map_erase ..
  rw [Memory.tree, hnodes]
  rfl

/-! ## Agreement with operations on trees -/

/-- What comes of a procedure that does in memory what an operation on trees answers: the same
error, and then everything is kept, or what the operation answers is shown by the memory. -/
inductive Agrees (m : Memory) (answer : IdSupply × Logged β) (shown : Memory → α → β) :
    EStateM.Result Stop Memory α → Prop
  | done {a : α} {m' : Memory} (result : answer.2.result = .ok (shown m' a)) (fits : m'.Fits)
      (supply : m'.supply = answer.1) (journal : m'.journal = m.journal ++ answer.2.records) :
      Agrees m answer shown (.ok a m')
  | refused {e : Error} {m' : Memory} (result : answer.2.result = .error e) (kept : m.Kept m')
      (supply : m'.supply = answer.1) (journal : m'.journal = m.journal ++ answer.2.records) :
      Agrees m answer shown (.error (.refused e) m')

/-- Refused before anything has been done. -/
lemma Agrees.refusedAtOnce {answer : IdSupply × Logged β} {shown : Memory → α → β} {e : Error}
    (result : answer.2 = .lift (.error e)) (supply : m.supply = answer.1) :
    m.Agrees answer shown (.error (.refused e) m) := by
  have hresult : answer.2.result = .error e := by rw [result, Logged.result_lift]
  have hjournal : m.journal = m.journal ++ answer.2.records := by
    rw [result]
    exact (List.append_nil m.journal).symm
  exact .refused hresult (.refl m) supply hjournal

end Memory

end AttributeViews

import AttributeViews.Proofs.FileTree.Memory
import AttributeViews.Proofs.FileTree.Soundness

/-!
# Failed changes leave the tree alone

A procedure does one thing after the other to the tree that everybody sees, and where it stops, the
things before have been done.  Still, one that stops has at most made a node to which nothing leads:
every condition is checked before the indexes are touched, and from then on nothing is refused.  Nor
is a key missing that is to be taken out.  In a move, every path stands in the index until its turn
comes; in a deletion, the identity has a node because the two indexes agree.

* **`Procedure.works_setAllCreating`** — the attributes of a new file, one after the other.
* **`Procedure.run_relocateAll`** — the loop of a move.
* **`FileTree.Change.agrees`** — in memory a change comes to the same as on the tree.
* **`Session.failed_change_leaves_tree`** — a change that fails leaves indexes and nodes alone.
-/

namespace AttributeViews

variable {α : Type}

/-! ## Operations on trees, part by part -/

lemma Issuing.map_apply {β : Type} (f : α → β) (x : Issuing α) (supply : IdSupply) :
    (f <$> x) supply = ((x supply).1, ⟨(x supply).2.records, (x supply).2.result.map f⟩) := by
  show Issuing.andThen x (fun a => pure (f a)) supply = _
  rw [Issuing.andThen]
  obtain ⟨supply', records, result⟩ := x supply
  cases result with
  | error e => rfl
  | ok a =>
      exact congrArg (fun records => (supply', Logged.mk records (.ok (f a))))
        (List.append_nil records)

/-- Preparing a node is computing its starting values and storing them. -/
lemma Registry.prepare_eq_bind (r : Registry) (now : Moment) (node : Node)
    (overrides : Table String Value) :
    r.prepare now node overrides = r.initial now overrides >>= fun values => do
      let node := { node with attributes := node.attributes.update values }
      Logged.record .debug ("Initialized attributes of " ++ node.describe)
      return node := by
  rw [Registry.prepare, Registry.initial, Registry.seed]
  cases r.initialAttributes now overrides with
  | error e => rfl
  | ok values =>
      simp [bind, pure, Logged.andThen, Logged.recordAll, Logged.lift, Except.bind, Except.pure]

/-- Creating where a file may stand. -/
lemma FileTree.create_eq_bind {t : FileTree} {now : Moment} {id : String} {kind : NodeKind}
    {path : Path} {attributes : List (String × Value)} {overrides : Table String Value}
    (vacant : t.checkVacant path = .ok ()) :
    t.create now id kind path attributes overrides
      = (t.registry.prepare now (.fresh id kind 0) overrides >>=
          setWhileCreating t.registry attributes) >>= fun node => do
        Logged.record .debug
          ("Created " ++ kind.label ++ " " ++ path.toText ++ " (" ++ node.id ++ ")")
        return (t.link path node, node) := by
  rw [create, vacant, Logged.bind_of_ok rfl, Logged.bind_assoc]
  rfl

open Memory

namespace Procedure

variable {m : Memory} {node : Node} {records : List Record} {path : Path} {id : String} {a : α}
  {e : Error}

/-! ## Statements -/

lemma run_lift_of_ok {x : Logged α} (h : x.result = .ok a) :
    (lift x).run m = .ok a (m.recorded x.records) := by
  rw [lift, h]
  rfl

lemma run_lift_of_error {x : Logged α} (h : x.result = .error e) :
    (lift x).run m = .error (.refused e) (m.recorded x.records) := by
  rw [lift, h]
  rfl

lemma run_lift_record (level : Level) (message : String) :
    (lift (.record level message)).run m = .ok () (m.recorded [⟨level, message⟩]) := rfl

lemma run_require (condition : FileTree → Except Error Unit) :
    (require condition).run m = (lift (.lift (condition m.tree))).run m := rfl

lemma run_require_of_ok (condition : FileTree → Except Error Unit)
    (h : condition m.tree = .ok ()) : (require condition).run m = .ok () m := by
  rw [run_require, run_lift_of_ok h]
  exact congrArg _ recorded_nil

lemma run_require_of_error (condition : FileTree → Except Error Unit)
    (h : condition m.tree = .error e) : (require condition).run m = .error (.refused e) m := by
  rw [run_require, run_lift_of_error h]
  exact congrArg _ recorded_nil

lemma run_allocate (kind : NodeKind) :
    (allocate kind).run m = .ok m.nodes.length (m.making (.fresh m.supply.next kind 0) []) := by
  rw [making, List.append_nil]
  rfl

lemma run_link (path : Path) :
    (link path m.nodes.length).run (m.making node records)
      = .ok node (m.linked path node records) := by
  simp only [link, EStateM.run_bind, EStateM.run_get, nodeAt_making, enterPath, enterId,
    EStateM.run_modify, EStateM.run_pure]
  rfl

lemma run_removePath (h : m.paths.get? path = some id) :
    (removePath path).run m = .ok id { m with paths := m.paths.erase path } := by
  rw [removePath, EStateM.run_bind, EStateM.run_get]
  dsimp only
  rw [h]
  rfl

lemma run_removeId {place : Nat} (h : m.places.get? id = some place) :
    (removeId id).run m = .ok () { m with places := m.places.erase id } := by
  rw [removeId, EStateM.run_bind, EStateM.run_get]
  dsimp only
  rw [h]
  rfl

/-! ## Creating -/

lemma run_storeAll (entries : List (String × Value)) :
    ∀ node : Node, (storeAll m.nodes.length entries).run (m.making node records)
      = .ok ()
          (m.making { node with attributes := node.attributes.insertAll entries } records) := by
  induction entries with
  | nil => exact fun node => rfl
  | cons entry rest ih =>
      intro node
      have first : (storeAt m.nodes.length entry.1 entry.2).run (m.making node records)
          = .ok () (m.making (node.write entry.1 entry.2) records) :=
        congrArg _ (modify_making _)
      rw [storeAll, List.forM_cons, EStateM.run_bind, first]
      exact ih _

lemma works_prepare (now : Moment) (overrides : Table String Value) (node : Node)
    (records : List Record) :
    m.Works records (m.registry.prepare now node overrides)
      ((prepare now overrides m.nodes.length).run (m.making node records)) := by
  have hregistry : (m.making node records).registry = m.registry := rfl
  rw [Registry.prepare_eq_bind]
  cases hv : (m.registry.initial now overrides).result with
  | error e =>
      rw [Logged.bind_of_error hv]
      simp only [prepare, EStateM.run_bind, EStateM.run_get, hregistry, run_lift_of_error hv,
        recorded_making]
      exact .refused rfl
  | ok values =>
      rw [Logged.bind_of_ok hv]
      simp only [prepare, EStateM.run_bind, EStateM.run_get, hregistry, run_lift_of_ok hv,
        recorded_making, run_storeAll, nodeAt_making, run_lift_record, List.append_assoc]
      exact .done rfl

lemma works_setCreating (address : String) (value : Value) (node : Node) (records : List Record) :
    m.Works records (m.registry.write node address value true)
      ((setCreating m.nodes.length address value).run (m.making node records)) := by
  have hregistry : (m.making node records).registry = m.registry := rfl
  cases hw : (m.registry.write node address value true).result with
  | error e =>
      simp only [setCreating, EStateM.run_bind, EStateM.run_get, hregistry, nodeAt_making,
        run_lift_of_error hw, recorded_making]
      exact .refused hw
  | ok node' =>
      simp only [setCreating, EStateM.run_bind, EStateM.run_get, hregistry, nodeAt_making,
        run_lift_of_ok hw, recorded_making, EStateM.run_modify, set_making]
      exact .done hw

/-- **The attributes of a new file**, one after the other.  One that is refused leaves the new node
with those before it. -/
lemma works_setAllCreating (attributes : List (String × Value)) :
    ∀ (node : Node) (records : List Record),
      m.Works records (FileTree.setWhileCreating m.registry attributes node)
        ((setAllCreating m.nodes.length attributes).run (m.making node records)) := by
  induction attributes with
  | nil =>
      intro node records
      have hnil : m.making node records = m.making node (records ++ []) := by rw [List.append_nil]
      rw [hnil]
      exact .done rfl
  | cons entry rest ih =>
      intro node records
      rw [setAllCreating, List.forM_cons, FileTree.setWhileCreating]
      exact (works_setCreating entry.1 entry.2 node records).bind fun node _ => ih node _

lemma works_fill (now : Moment) (overrides : Table String Value)
    (attributes : List (String × Value)) (node : Node) (records : List Record) :
    m.Works records
      (m.registry.prepare now node overrides >>= FileTree.setWhileCreating m.registry attributes)
      ((fill now overrides attributes m.nodes.length).run (m.making node records)) :=
  (works_prepare now overrides node records).bind
    fun node _ => works_setAllCreating attributes node _

lemma agrees_create (fits : m.Fits) (now : Moment) (kind : NodeKind) (path : Path)
    (attributes : List (String × Value)) (overrides : Table String Value) :
    m.Agrees (m.tree.createNext now kind path attributes overrides m.supply)
      (fun m' node => (m'.tree, node)) ((create now kind path attributes overrides).run m) := by
  rw [FileTree.createNext_eq]
  cases hv : m.tree.checkVacant path with
  | error e =>
      simp only [create, EStateM.run_bind, run_require_of_error (·.checkVacant path) hv]
      exact .refusedAtOnce rfl rfl
  | ok _ =>
      -- the node is filled before it is entered, and only filling can be refused
      have filled := works_fill (m := m) now overrides attributes (.fresh m.supply.next kind 0) []
      have hregistry : m.tree.registry = m.registry := rfl
      rw [FileTree.create_eq_bind hv, hregistry]
      simp only [create, EStateM.run_bind, run_require_of_ok (·.checkVacant path) hv, run_allocate]
      generalize EStateM.run _ (m.making (.fresh m.supply.next kind 0) []) = outcome at filled ⊢
      cases filled with
      | refused answer =>
          rw [Logged.bind_of_error answer]
          exact .refused rfl kept_making rfl rfl
      | done answer =>
          rw [Logged.bind_of_ok answer]
          simp only [run_link, run_lift_record, recorded_linked, EStateM.run_pure]
          refine .done ?_ (fits_linked fits) rfl ?_
          · rw [tree_linked fits]
            rfl
          · rw [List.nil_append]
            rfl

/-! ## Moving -/

lemma run_relocateOne (source target : Path) (h : m.paths.get? path = some id) :
    (do let id ← removePath path; enterPath (path.rebase source target) id).run m
      = .ok () { m with paths := FileTree.relocateOne source target m.paths path } := by
  rw [EStateM.run_bind, run_removePath h, FileTree.relocateOne, h]
  rfl

/-- **The loop of a move.**  Every path still stands in the index when its turn comes. -/
lemma run_relocateAll (source target : Path) (moved : List Path) (nodup : moved.Nodup) :
    ∀ m : Memory, (∀ p ∈ moved, ∃ id, m.paths.get? p = some id) →
      (relocateAll source target moved).run m
        = .ok () { m with paths := moved.foldl (FileTree.relocateOne source target) m.paths } := by
  induction moved with
  | nil => exact fun m _ => rfl
  | cons path rest ih =>
      intro m stored
      obtain ⟨hpath, hrest⟩ := List.nodup_cons.1 nodup
      obtain ⟨id, hid⟩ := stored path List.mem_cons_self
      rw [relocateAll, List.forM_cons, EStateM.run_bind, run_relocateOne source target hid]
      refine ih hrest _ fun p hp => ?_
      -- the turn has taken out another path, and may have entered this one again
      obtain ⟨id', hid'⟩ := stored p (List.mem_cons_of_mem _ hp)
      have hne : path ≠ p := by
        rintro rfl
        exact hpath hp
      simp only [FileTree.get?_relocateOne hid, if_neg hne]
      split_ifs
      · exact ⟨id, rfl⟩
      · exact ⟨id', hid'⟩

lemma agrees_move (fits : m.Fits) (source target : Path) :
    m.Agrees (m.supply, m.tree.moveRecorded source target) (fun m' _ => m'.tree)
      ((move source target).run m) := by
  rw [FileTree.moveRecorded, FileTree.move]
  cases hv : m.tree.checkMove source target with
  | error e =>
      simp only [move, EStateM.run_bind, run_require_of_error (·.checkMove source target) hv]
      exact .refusedAtOnce rfl rfl
  | ok _ =>
      have stored : ∀ p ∈ m.paths.keys.filter (·.within source), ∃ id, m.paths.get? p = some id :=
        fun p hp => (FileTree.mem_moved_iff.1 hp).1
      simp only [move, EStateM.run_bind, run_require_of_ok (·.checkMove source target) hv,
        EStateM.run_get, run_relocateAll source target _ (m.paths.keys_nodup.filter _) m stored,
        run_lift_record]
      exact .done rfl fits rfl rfl

/-! ## Deleting -/

lemma agrees_delete (fits : m.Fits) (sound : m.tree.Sound) (path : Path) :
    m.Agrees (m.supply, m.tree.deleteRecorded path) (fun m' _ => m'.tree)
      ((delete path).run m) := by
  have hpaths : m.tree.paths = m.paths := rfl
  rw [FileTree.deleteRecorded, FileTree.delete, hpaths]
  by_cases hroot : path = .root
  · simp only [delete, hroot, if_true, EStateM.run_bind, EStateM.run_get, EStateM.run_throw]
    exact .refusedAtOnce rfl rfl
  · cases hp : m.paths.get? path with
    | none =>
        simp only [delete, hroot, hp, Table.contains, EStateM.run_bind, EStateM.run_get, if_false]
        exact .refusedAtOnce rfl rfl
    | some id =>
        cases hc : m.tree.hasChildren path with
        | true =>
            simp only [delete, hroot, hp, hc, Table.contains, EStateM.run_bind, EStateM.run_get,
              if_false, if_true]
            exact .refusedAtOnce rfl rfl
        | false =>
            -- the path is out by the time the identity is looked for: a missing one would show
            obtain ⟨node, hnode⟩ := (sound.indexed id).1 ⟨path, hp⟩
            obtain ⟨place, hplace, -⟩ :=
              Option.map_eq_some_iff.1 ((Table.get?_map ..).symm.trans hnode)
            have hremove : (removeId id).run { m with paths := m.paths.erase path }
                = .ok () (m.unlinked path id) := run_removeId hplace
            have hstored : m.paths.contains path = true := Table.contains_eq_true_iff.2 ⟨id, hp⟩
            simp only [delete, hroot, hc, hstored, Bool.not_true, Bool.false_eq_true, if_false,
              EStateM.run_bind, EStateM.run_get, run_removePath hp, hremove, run_lift_record]
            refine .done ?_ (fits_unlinked fits path id) rfl rfl
            exact congrArg Except.ok (tree_unlinked m path id).symm

end Procedure

/-! ## All changes -/

/-- **In memory a change comes to the same as on the tree.**  It is refused with the same error and
leaves what there was, or it succeeds and the memory shows the changed tree; the identities that are
taken and the records are the same too. -/
theorem FileTree.Change.agrees {m : Memory} (fits : m.Fits) (sound : m.tree.Sound)
    (change : Change) :
    m.Agrees (change.apply m.tree m.supply) (fun m' _ => m'.tree) (change.procedure.run m) := by
  cases change with
  | create now kind path attributes overrides =>
      have created := Procedure.agrees_create fits now kind path attributes overrides
      rw [procedure, apply, Issuing.map_apply, EStateM.run_bind]
      generalize (Procedure.create now kind path attributes overrides).run m = outcome at created
      cases created with
      | done result fits supply journal =>
          exact .done (congrArg (Except.map Prod.fst) result) fits supply journal
      | refused result kept supply journal =>
          exact .refused (congrArg (Except.map Prod.fst) result) kept supply journal
  | move source target => exact Procedure.agrees_move fits source target
  | delete path => exact Procedure.agrees_delete fits sound path

/-! ## Reachable trees -/

/-- The tree of a session lies in a memory, possibly among other nodes, and so does its supply. -/
structure Memory.Holds (m : Memory) (s : Session) : Prop where
  tree : m.tree = s.tree
  supply : m.supply = s.supply
  fits : m.Fits

lemma Memory.holds_inMemory (s : Session) : (s.tree.inMemory s.supply).Holds s :=
  ⟨tree_inMemory s.tree s.supply, rfl, fits_inMemory s.tree s.supply⟩

namespace Session

/-- **A change that fails leaves the tree alone**, wherever it stops, in every memory that holds a
tree with any history.  It fails exactly if the operation on the tree does, and with the same error;
both indexes and all nodes that had been made are then what they were. -/
theorem failed_change_leaves_tree {registry : Registry} {now : Moment} {supply : IdSupply}
    {s : Session} (distinct : supply.Distinct) (started : start registry now supply = .ok s)
    (history : List Operation) {m : Memory} (held : m.Holds (s.run history))
    (change : FileTree.Change) :
    (∀ e, (change.apply (s.run history).tree (s.run history).supply).2.result = .error e ↔
      ∃ m', change.procedure.run m = .error (.refused e) m') ∧
    ∀ stop m', change.procedure.run m = .error stop m' →
      (∃ e, stop = .refused e) ∧ m.Kept m' ∧ m'.Holds ⟨(s.run history).tree, m'.supply⟩ := by
  have sound : m.tree.Sound := by
    rw [held.tree]
    exact (sound_run history (sound_start distinct started)).tree
  have agrees := change.agrees held.fits sound
  rw [held.tree, held.supply] at agrees
  generalize change.procedure.run m = outcome at agrees
  cases agrees with
  | done result => exact ⟨fun e => by simp [result], fun stop m' stopped => by cases stopped⟩
  | @refused cause left result kept =>
      refine ⟨fun e => by simp [result], fun stop m' stopped => ?_⟩
      cases stopped
      have holds : left.Holds ⟨(s.run history).tree, left.supply⟩ :=
        ⟨(kept.tree held.fits).trans held.tree, rfl, kept.fits held.fits⟩
      exact ⟨⟨cause, rfl⟩, kept, holds⟩

/-- The second attribute of a new file is refused.  The first one has been stored by then, but on a
third node, which is not in the tree. -/
theorem failed_change_leaves_tree_tally :
    ∃ s m', start ⟨Provider.catalog, .empty⟩ default .tally = .ok s ∧
      let after := s.run [.create default .directory "a" [] .empty]
      (FileTree.Change.create default .file (.ofText "/a/x")
        [("permissions", .permissions .empty), ("hidden", .bool true)] .empty).procedure.run
          (after.tree.inMemory after.supply)
        = .error (.refused (.creationRestricted "dos" "hidden")) m' ∧
      m'.nodes.map (·.read "posix:permissions")
        = [.permissions startingPermissions, .permissions startingPermissions,
          .permissions .empty] ∧
      m'.tree = after.tree := by
  have started : start ⟨Provider.catalog, .empty⟩ default .tally = .ok _ := rfl
  refine ⟨_, _, started, rfl, rfl, ?_⟩
  exact (failed_change_leaves_tree IdSupply.distinct_tally started
    [.create default .directory "a" [] .empty] (Memory.holds_inMemory _)
    (.create default .file (.ofText "/a/x")
      [("permissions", .permissions .empty), ("hidden", .bool true)] .empty)).2 _ _ rfl |>.2.2.tree

end Session

end AttributeViews

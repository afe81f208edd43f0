import AttributeViews.Proofs.FileTree.Steps
import AttributeViews.Proofs.Registry.Canonical
import AttributeViews.Proofs.Registry.Routing

/-!
# What a new file holds

A new file gets its starting values, and then the attributes it is created with are set one after
the other.  One attribute may be addressed in several ways, and the last address that leads to it
decides; an attribute that is not for creation cannot be reached by any of them.

* `Registry.LeadsTo` — an address leads to the attribute that is stored under a key.
* **`Registry.set_creating_eq_ok_iff`** — one attribute of a new file.
* **`FileTree.get?_of_setWhileCreating`**, **`FileTree.kept_of_setWhileCreating`** — the values
  under the keys that are addressed, and under the others.
* **`FileTree.created_file_holds`** — what a created file holds.
-/

namespace AttributeViews

variable {r : Registry} {p : Provider} {address name key : String} {value : Value}
  {node node' : Node} {spec : AttributeSpec}

namespace Registry

/-- An address leads to the attribute that is stored under a key. -/
def LeadsTo (r : Registry) (address key : String) : Prop :=
  ∃ p name, r.Routes address p name ∧ p.qualified name = key

/-- An address of no attribute, or one of some attribute. -/
lemma no_route_or_route (r : Registry) (address : String) :
    (∀ p name, ¬ r.Routes address p name) ∨ ∃ p name spec, r.Routes address p name ∧
      p.attributes.get? name = some spec := by
  cases hr : r.resolve? address with
  | none => exact Or.inl (resolve?_eq_none_iff.1 hr)
  | some owner =>
      have hroutes := resolve?_eq_some_iff_routes.1 hr
      obtain ⟨spec, hd⟩ := Table.contains_eq_true_iff.1 hroutes.supports
      exact Or.inr ⟨owner.1, owner.2, spec, hroutes, hd⟩

/-- **One attribute of a new file.**  It has to be one that can be set and is not kept back from
creation. -/
lemma set_creating_eq_ok_iff (hr : r.Routes address p name)
    (declared : p.attributes.get? name = some spec) :
    r.set node address value true = .ok node' ↔
      spec.settable = true ∧ spec.creationRestricted = false ∧
        ∃ stored, spec.check (reportedView address p) name value = .ok stored ∧
          node' = node.write (p.qualified name) stored := by
  rw [set, resolve?_eq_some_iff_routes.2 hr, Provider.write_eq_ok_iff declared]
  simp

/-- Setting an attribute leaves every key alone that the address does not lead to. -/
lemma kept_of_set_creating (h : r.set node address value true = .ok node')
    (other : ¬ r.LeadsTo address key) :
    node'.attributes.get? key = node.attributes.get? key := by
  rcases r.no_route_or_route address with hnone | ⟨p, name, spec, hr, hd⟩
  · rw [set_of_no_route hnone] at h
    rw [Except.ok.inj h]
  · obtain ⟨-, -, stored, -, rfl⟩ := (set_creating_eq_ok_iff hr hd).1 h
    have hne : p.qualified name ≠ key := fun he => other ⟨p, name, hr, he⟩
    rw [Node.write, Table.get?_insert, if_neg hne]

end Registry

namespace FileTree

variable {attributes before after : List (String × Value)}

/-! ## One attribute after the other -/

lemma result_setWhileCreating_cons :
    (setWhileCreating r ((address, value) :: attributes) node).result
      = r.set node address value true >>= fun next =>
          (setWhileCreating r attributes next).result := by
  simp [setWhileCreating]

lemma result_setWhileCreating_append :
    ∀ {before : List (String × Value)} {node : Node},
      (setWhileCreating r (before ++ after) node).result
        = (setWhileCreating r before node).result >>= fun next =>
            (setWhileCreating r after next).result
  | [], node => rfl
  | (address, value) :: before, node => by
      rw [List.cons_append, result_setWhileCreating_cons, result_setWhileCreating_cons, bind_assoc]
      exact congrArg _ (funext fun next => result_setWhileCreating_append)

/-- Under a key that no attribute leads to stands what stood there before. -/
lemma kept_of_setWhileCreating :
    ∀ {attributes : List (String × Value)} {node : Node},
      (setWhileCreating r attributes node).result = .ok node' →
        (∀ entry ∈ attributes, ¬ r.LeadsTo entry.1 key) →
          node'.attributes.get? key = node.attributes.get? key
  | [], node, h, _ => by
      rw [Except.ok.inj (h : Except.ok node = Except.ok node')]
  | (address, value) :: rest, node, h, other => by
      rw [result_setWhileCreating_cons] at h
      obtain ⟨next, hset, hrest⟩ := bind_eq_ok_iff.1 h
      rw [kept_of_setWhileCreating hrest fun entry he => other entry (List.mem_cons_of_mem _ he),
        Registry.kept_of_set_creating hset (other _ List.mem_cons_self)]

/-- **Under the key of an attribute** stands what its check makes of the last value for it. -/
lemma get?_of_setWhileCreating (h : (setWhileCreating r attributes node).result = .ok node')
    (last : attributes = before ++ (address, value) :: after) (hr : r.Routes address p name)
    (other : ∀ entry ∈ after, ¬ r.LeadsTo entry.1 (p.qualified name)) :
    ∃ spec stored, p.attributes.get? name = some spec ∧
      spec.check (Registry.reportedView address p) name value = .ok stored ∧
        node'.attributes.get? (p.qualified name) = some stored := by
  rw [last, result_setWhileCreating_append] at h
  obtain ⟨middle, -, h⟩ := bind_eq_ok_iff.1 h
  rw [result_setWhileCreating_cons] at h
  obtain ⟨next, hset, hafter⟩ := bind_eq_ok_iff.1 h
  obtain ⟨spec, hd⟩ := Table.contains_eq_true_iff.1 hr.supports
  obtain ⟨-, -, stored, hc, rfl⟩ := (Registry.set_creating_eq_ok_iff hr hd).1 hset
  refine ⟨spec, stored, hd, hc, ?_⟩
  rw [kept_of_setWhileCreating hafter other, Node.write, Table.get?_insert, if_pos rfl]

/-- Every attribute that a new file is created with is one that it may be created with. -/
lemma permitted_of_setWhileCreating :
    ∀ {attributes : List (String × Value)} {node : Node},
      (setWhileCreating r attributes node).result = .ok node' →
        ∀ entry ∈ attributes, ∀ p name spec, r.Routes entry.1 p name →
          p.attributes.get? name = some spec →
            spec.settable = true ∧ spec.creationRestricted = false
  | [], _, _ => by simp
  | (address, value) :: rest, node, h => by
      rw [result_setWhileCreating_cons] at h
      obtain ⟨next, hset, hrest⟩ := bind_eq_ok_iff.1 h
      intro entry he p name spec hr hd
      rcases List.mem_cons.1 he with rfl | he
      · obtain ⟨hs, hc, -⟩ := (Registry.set_creating_eq_ok_iff hr hd).1 hset
        exact ⟨hs, hc⟩
      · exact permitted_of_setWhileCreating hrest entry he p name spec hr hd

/-- An address of no attribute may as well be left out. -/
lemma setWhileCreating_of_no_route (nowhere : ∀ p name, ¬ r.Routes address p name) :
    (setWhileCreating r (before ++ (address, value) :: after) node).result
      = (setWhileCreating r (before ++ after) node).result := by
  rw [result_setWhileCreating_append, result_setWhileCreating_append]
  refine congrArg _ (funext fun next => ?_)
  rw [result_setWhileCreating_cons, Registry.set_of_no_route nowhere, ok_bind]

/-! ## Created files -/

variable {t t' : FileTree} {now : Moment} {kind : NodeKind} {path : Path}
  {overrides : Table String Value} {supply : IdSupply}

lemma createNext_eq_ok_iff :
    (t.createNext now kind path attributes overrides supply).2.result = .ok (t', node) ↔
      (t.create now supply.next kind path attributes overrides).result = .ok (t', node) := by
  rw [createNext_eq]
  cases hv : t.checkVacant path with
  | ok _ => exact Iff.rfl
  | error e =>
      rw [create_eq_ok_iff, hv]
      simp

/-! ## Nothing but starting values -/

/-- If a registry has values for a new node, a tree can be started with it, and files can be created
directly below its root. -/
lemma exists_start {values : Table String Value} (h : r.initialAttributes now .empty = .ok values)
    (supply : IdSupply) :
    ∃ tree, (start r now supply).2.result = .ok tree ∧ tree.registry = r ∧
      ∀ path, path ≠ .root → path.parent = .root → tree.checkVacant path = .ok () := by
  have seeded : r.seed now (.fresh supply.next .directory 0) .empty = .ok _ :=
    Registry.seed_eq_ok_iff.2 ⟨values, h, rfl⟩
  have made : (ofRoot r now supply.next).result = .ok _ := ofRoot_eq_ok_iff.2 ⟨_, seeded, rfl⟩
  refine ⟨_, made, rfl, fun path hne hparent => checkVacant_eq_ok_iff.2 ⟨?_, ?_⟩⟩
  · rw [Table.get?_singleton, if_neg (Ne.symm hne)]
  · exact ⟨_, _, (paths_ofRoot made).2 ⟨hparent, rfl⟩, (nodes_ofRoot made).2 ⟨rfl, seeded⟩, rfl⟩

/-- A file that is created without attributes is the starting values and nothing else, and the only
thing that can be wrong with it are these. -/
lemma result_createNext_nil (vacant : t.checkVacant path = .ok ()) :
    (t.createNext now kind path [] overrides supply).2.result
      = t.registry.initialAttributes now overrides >>= fun values =>
          .ok (t.link path ⟨supply.next, kind, 0, Table.empty.update values⟩,
            ⟨supply.next, kind, 0, Table.empty.update values⟩) := by
  rw [createNext_eq, vacant]
  simp only [create, vacant, Logged.result_bind, Logged.result_lift, Logged.result_record,
    Logged.result_pure, Registry.result_prepare, Registry.seed, setWhileCreating, ok_bind]
  cases t.registry.initialAttributes now overrides <;> rfl

/-- **A file of starting values** can be created wherever a file can stand. -/
lemma exists_createNext_nil {values : Table String Value} (free : t.paths.get? path = none)
    (parent : t.HasDirectory path.parent)
    (h : t.registry.initialAttributes now overrides = .ok values) (kind : NodeKind)
    (supply : IdSupply) :
    ∃ t' node, (t.createNext now kind path [] overrides supply).2.result = .ok (t', node) ∧
      t'.node path = .ok node ∧ ∀ key, node.attributes.get? key = values.get? key := by
  have vacant := checkVacant_eq_ok_iff.2 ⟨free, parent⟩
  let node : Node := ⟨supply.next, kind, 0, Table.empty.update values⟩
  refine ⟨t.link path node, node, ?_, ?_, fun key => ?_⟩
  · rw [result_createNext_nil vacant, h, ok_bind]
  · exact node_eq_ok_iff.2 ⟨node.id, by simp [link], by simp [link]⟩
  · rw [Table.get?_update, Table.get?_empty, Option.or_none]

end FileTree

/-- In a registry of standard views only the permissions are for creation. -/
lemma Registry.Standard.eq_permissions (standard : r.Standard) (hp : p ∈ r.providers)
    (declared : p.attributes.get? name = some spec) (settable : spec.settable = true)
    (unrestricted : spec.creationRestricted = false) :
    p.qualified name = "posix:permissions" := by
  cases Provider.standardAttribute_of_mem_catalog (standard.catalog p hp) declared with
  | permissions => rfl
  | fact => cases settable
  | _ => cases unrestricted

/-- **What a created file holds.**  It stands at the path it was created for.  For every key, the
last of the given attributes whose address leads to it decides: there stands what the check of that
attribute makes of the value.  Under every other key stands the starting value, if there is one.  A
given attribute without an owner has no effect, and none that cannot be set, or is kept back from
creation, is among the given ones.  With standard views only the permissions can differ from the
starting values. -/
theorem FileTree.created_file_holds {t t' : FileTree} {now : Moment} {kind : NodeKind} {path : Path}
    {attributes : List (String × Value)} {overrides : Table String Value} {supply : IdSupply}
    {node : Node}
    (created : (t.createNext now kind path attributes overrides supply).2.result = .ok (t', node)) :
    t'.node path = .ok node ∧
    ∃ values, t.registry.initialAttributes now overrides = .ok values ∧
      (∀ before address value after p name, attributes = before ++ (address, value) :: after →
        t.registry.Routes address p name →
        (∀ entry ∈ after, ¬ t.registry.LeadsTo entry.1 (p.qualified name)) →
          ∃ spec stored, p.attributes.get? name = some spec ∧
            spec.check (Registry.reportedView address p) name value = .ok stored ∧
            node.attributes.get? (p.qualified name) = some stored) ∧
      (∀ key, (∀ entry ∈ attributes, ¬ t.registry.LeadsTo entry.1 key) →
        node.attributes.get? key = values.get? key) ∧
      (∀ before address value after, attributes = before ++ (address, value) :: after →
        (∀ p name, ¬ t.registry.Routes address p name) →
          (t.createNext now kind path (before ++ after) overrides supply).2.result
            = .ok (t', node)) ∧
      (∀ entry ∈ attributes, ∀ p name spec, t.registry.Routes entry.1 p name →
        p.attributes.get? name = some spec →
          spec.settable = true ∧ spec.creationRestricted = false) ∧
      ∀ views defaults, Registry.buildOfViews views defaults = .ok t.registry →
        ∀ key, key ≠ "posix:permissions" → node.attributes.get? key = values.get? key := by
  have hcreate := createNext_eq_ok_iff.1 created
  obtain ⟨vacant, rfl, started, hseed, hset⟩ := create_eq_ok_iff.1 hcreate
  obtain ⟨values, hvalues, rfl⟩ := Registry.seed_eq_ok_iff.1 hseed
  have hstarted : ∀ key, (Table.empty.update values).get? key = values.get? key := by
    intro key
    rw [Table.get?_update, Table.get?_empty, Option.or_none]
  have hkept : ∀ key, (∀ entry ∈ attributes, ¬ t.registry.LeadsTo entry.1 key) →
      node.attributes.get? key = values.get? key :=
    fun key other => (kept_of_setWhileCreating hset other).trans (hstarted key)
  refine ⟨?_, values, hvalues, ?_, hkept, ?_, permitted_of_setWhileCreating hset, ?_⟩
  · refine node_eq_ok_iff.2 ⟨node.id, ?_, ?_⟩ <;> simp [link]
  · exact fun before address value after p name last hr other =>
      get?_of_setWhileCreating hset last hr other
  · rintro before address value after rfl nowhere
    refine createNext_eq_ok_iff.2 (create_eq_ok_iff.2 ⟨vacant, rfl, _, hseed, ?_⟩)
    rw [← setWhileCreating_of_no_route nowhere]
    exact hset
  · intro views defaults built key hne
    have standard := Registry.standard_of_buildOfViews built
    refine hkept key fun entry he => ?_
    rintro ⟨p, name, hr, rfl⟩
    obtain ⟨spec, hd⟩ := Table.contains_eq_true_iff.1 hr.supports
    obtain ⟨hs, hc⟩ := permitted_of_setWhileCreating hset entry he p name spec hr hd
    exact hne (standard.eq_permissions hr.registered hd hs hc)

/-- The permissions are given twice, under two names; in between stands a name that no
view knows. -/
theorem FileTree.created_file_holds_posix :
    ∃ (t t' : FileTree) (node : Node),
      (t.createNext default .file (.ofText "/f") [("permissions", .set [.permission ⟨.owner, .read⟩]),
        ("mode", .int 420), ("posix:permissions", .permissions .empty)] .empty
        ⟨fun _ => "1", 0⟩).2.result = .ok (t', node) ∧
      t'.node (.ofText "/f") = .ok node ∧
      node.attributes.get? "posix:permissions" = some (.permissions .empty) ∧
      node.attributes.get? "owner:owner" = some (.principal (.user "user")) := by
  have built := Registry.buildOfViews_posix
  have closure : Registry.closure ⟨[.basic, .owner, .posix], .empty⟩ "posix"
      = [.posix, .basic, .owner] := by
    rw [Registry.closure, reachable_of_filter_eq_cons rfl, reachable_of_filter_eq_cons rfl,
      reachable_of_filter_eq_cons rfl, reachable_of_filter_eq_nil rfl]
    rfl
  have routes : Registry.Routes ⟨[.basic, .owner, .posix], .empty⟩
      ("posix" ++ ":" ++ "permissions") .posix "permissions" :=
    .prefixed (by decide) (by decide) ⟨[], [.basic, .owner], closure, rfl, by simp⟩
  have stored : ∀ node, (setWhileCreating ⟨[.basic, .owner, .posix], .empty⟩
      [("permissions", .set [.permission ⟨.owner, .read⟩]), ("mode", .int 420),
        ("posix:permissions", .permissions .empty)] node).result
      = .ok ((node.write "posix:permissions" (.permissions (.ofList [⟨.owner, .read⟩]))).write
          "posix:permissions" (.permissions .empty)) := by
    intro node
    have first : Registry.set ⟨[.basic, .owner, .posix], .empty⟩ node "permissions"
        (.set [.permission ⟨.owner, .read⟩]) true
        = .ok (node.write "posix:permissions" (.permissions (.ofList [⟨.owner, .read⟩]))) := rfl
    have unknown : ∀ node, Registry.set ⟨[.basic, .owner, .posix], .empty⟩ node "mode" (.int 420) true
        = .ok node := fun _ => rfl
    have last : ∀ node, Registry.set ⟨[.basic, .owner, .posix], .empty⟩ node
        ("posix" ++ ":" ++ "permissions") (.permissions .empty) true
        = .ok (node.write "posix:permissions" (.permissions .empty)) :=
      fun _ => (Registry.set_creating_eq_ok_iff routes rfl).2 ⟨rfl, rfl, _, rfl, rfl⟩
    rw [result_setWhileCreating_cons, first, ok_bind, result_setWhileCreating_cons, unknown, ok_bind,
      result_setWhileCreating_cons]
    exact bind_eq_ok_iff.2 ⟨_, last _, rfl⟩
  have created : (FileTree.createNext ⟨⟨[.basic, .owner, .posix], .empty⟩,
      .ofList [(.root, "r")], .ofList [("r", .fresh "r" .directory 0)]⟩ default .file (.ofText "/f")
      [("permissions", .set [.permission ⟨.owner, .read⟩]), ("mode", .int 420),
        ("posix:permissions", .permissions .empty)] .empty ⟨fun _ => "1", 0⟩).2.result = .ok _ :=
    createNext_eq_ok_iff.2 (create_eq_ok_iff.2 ⟨rfl, rfl, _, rfl, stored _⟩)
  obtain ⟨found, values, hvalues, last, -, -, -, standard⟩ := created_file_holds created
  refine ⟨_, _, _, created, found, ?_, ?_⟩
  · obtain ⟨spec, stored, hd, hc, hs⟩ := last [_, _] _ _ [] _ _ rfl routes (by simp)
    cases hd
    exact hs.trans (congrArg some (Except.ok.inj hc).symm)
  · rw [standard _ _ built _ (by decide)]
    cases hvalues
    rfl

end AttributeViews

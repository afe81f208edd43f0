import AttributeViews.Proofs.Registry.Replay
import AttributeViews.Snapshot

/-!
# Snapshots show what is read by name

A snapshot reads the store under keys of its own, and makes truth values and frozen sets of what it
finds there.  Of a node that has been changed through its registry only, this is what the attributes
read one by one: the forms that are stored are left alone.

* `Snapshot.fields` — a snapshot with the names of the attributes that it is made of.
* **`Value.freeze_permissions`** — stored permissions are their own frozen copy.
* `readings` — what providers read of all their attributes.
* **`Registry.exists_snapshot`** — the fields of a snapshot are the readings of what its view
  inherits.
* **`Registry.snapshot_reads_singly`** — so they agree with the attributes read one by one.
-/

namespace AttributeViews

variable {r : Registry} {p : Provider} {node : Node} {view name : String} {value : Value}
  {providers : List Provider} {views : List String} {defaults : Table String Value}

/-! ## Fields -/

/-- The fields by name, as values. -/
def BasicAttributes.fields (a : BasicAttributes) : List (String × Value) := [
  ("lastModifiedTime", a.lastModifiedTime),
  ("lastAccessTime", a.lastAccessTime),
  ("creationTime", a.creationTime),
  ("size", .int a.size),
  ("fileKey", .text a.fileKey),
  ("isRegularFile", .bool a.isRegularFile),
  ("isDirectory", .bool a.isDirectory),
  ("isSymbolicLink", .bool a.isSymbolicLink),
  ("isOther", .bool a.isOther)]

/-- The fields of a snapshot, each with the name of its attribute. -/
def Snapshot.fields : Snapshot → List (String × Value)
  | .basic a => a.fields
  | .posix a => a.basic.fields ++
      [("owner", a.owner), ("group", a.group), ("permissions", a.permissions)]
  | .dos a => a.basic.fields ++
      [("readonly", .bool a.readonly), ("hidden", .bool a.hidden), ("archive", .bool a.archive),
        ("system", .bool a.system)]

/-! ## Frozen copies -/

namespace Value

lemma unhashableAmong?_permissions (ps : List Permission) :
    unhashableAmong? (ps.map permission) = none := by
  induction ps with
  | nil => rfl
  | cons p ps ih => exact ih

lemma mapM_permission? (ps : List Permission) : (ps.map permission).mapM permission? = some ps := by
  induction ps with
  | nil => rfl
  | cons p ps ih =>
      rw [List.map_cons, List.mapM_cons, ih]
      rfl

/-- Permissions that differ from each other are all kept. -/
lemma foldl_collect_permissions (ps : List Permission) :
    ∀ found : List Permission, (found ++ ps).Nodup →
      (ps.map permission).foldl
          (fun found x => if found.any (same · x) then found else found ++ [x])
          (found.map permission)
        = (found ++ ps).map permission := by
  induction ps with
  | nil =>
      intro found _
      rw [List.append_nil]
      rfl
  | cons p ps ih =>
      intro found nodup
      have hsame : (fun q => same (permission q) (permission p)) = fun q => q == p :=
        funext fun q => by rw [same]
      have hnew : (found.map permission).any (same · (permission p)) = false := by
        have hp : p ∉ found := fun hm =>
          (List.nodup_append.1 nodup).2.2 p hm p List.mem_cons_self rfl
        rw [List.any_map, Function.comp_def, hsame, List.any_beq']
        simpa using hp
      rw [List.map_cons, List.foldl_cons, hnew]
      have hsnoc : found.map permission ++ [permission p] = (found ++ [p]).map permission := by simp
      rw [if_neg Bool.false_ne_true, hsnoc, ih _ (by simpa using nodup)]
      simp

/-- **Stored permissions are their own frozen copy.** -/
lemma freeze_permissions (s : PermissionSet) : (permissions s).freeze = .ok (permissions s) := by
  have nodup : s.toList.Nodup := List.Nodup.filter _ (by decide)
  rw [freeze, elements, ok_bind, unhashableAmong?_permissions]
  dsimp only
  have kept : collect (s.toList.map permission) = s.toList.map permission :=
    foldl_collect_permissions s.toList [] nodup
  rw [frozen, kept, mapM_permission?]
  dsimp only
  rw [PermissionSet.ofList_toList]
  rfl

end Value

/-! ## Readings -/

/-- What providers read of their attributes on a node, one after the other. -/
def readings (node : Node) (providers : List Provider) : List (String × Value) :=
  providers.flatMap fun p => p.names.map fun name => (name, p.read node name)

lemma mem_readings_iff :
    (name, value) ∈ readings node providers ↔
      ∃ p ∈ providers, p.supports name = true ∧ p.read node name = value := by
  simp [readings, Provider.supports, Table.contains_iff, Provider.names]

lemma map_fst_readings :
    (readings node providers).map Prod.fst = providers.flatMap Provider.names := by
  simp [readings, List.map_flatMap, Function.comp_def]

namespace Registry

/-! ## Snapshots of canonical nodes -/

lemma Standard.exists_read_permissions (standard : r.Standard) (canonical : r.Canonical node)
    (hp : Provider.posix ∈ r.providers) : ∃ s, node.read "posix:permissions" = .permissions s := by
  have hd : Provider.posix.attributes.get? "permissions" = some permissionsAttribute := rfl
  obtain ⟨stored, hs, -, keeps⟩ := standard.stored_of_settable canonical hp hd rfl
  obtain ⟨s, rfl⟩ := permissions_of_checkPermissions (keeps.checked "posix" "permissions")
  exact ⟨s, congrArg (·.getD .null) hs⟩

lemma Standard.exists_read_flag (standard : r.Standard) (canonical : r.Canonical node)
    (hp : Provider.dos ∈ r.providers) (flag : DosFlag) :
    ∃ b, node.read ("dos:" ++ flag.name) = .bool b := by
  obtain ⟨stored, hs, -, keeps⟩ :=
    standard.stored_of_settable canonical hp (Provider.get?_flag flag) rfl
  obtain ⟨b, rfl, -⟩ := checkBool_eq_ok_iff.1 (keeps.checked "dos" flag.name)
  exact ⟨b, congrArg (·.getD .null) hs⟩

/-- A stored flag counts as what it is. -/
lemma Standard.bool_truthy_flag (standard : r.Standard) (canonical : r.Canonical node)
    (hp : Provider.dos ∈ r.providers) (flag : DosFlag) :
    Value.bool (node.read ("dos:" ++ flag.name)).truthy = node.read ("dos:" ++ flag.name) := by
  obtain ⟨b, hb⟩ := standard.exists_read_flag canonical hp flag
  rw [hb]
  rfl

lemma Standard.exists_posixAttributes (standard : r.Standard) (canonical : r.Canonical node)
    (hp : Provider.posix ∈ r.providers) :
    ∃ a, PosixAttributes.ofNode node = .ok a ∧
      (Snapshot.posix a).fields = readings node [.basic, .owner, .posix] := by
  obtain ⟨s, hs⟩ := standard.exists_read_permissions canonical hp
  refine ⟨⟨.ofNode node, node.read "owner:owner", node.read "posix:group",
    node.read "posix:permissions"⟩, ?_, rfl⟩
  simp only [PosixAttributes.ofNode, hs, Value.isNull, Value.freeze_permissions]
  rfl

lemma Standard.fields_dos (standard : r.Standard) (canonical : r.Canonical node)
    (hp : Provider.dos ∈ r.providers) :
    (Snapshot.dos (.ofNode node)).fields = readings node [.basic, .dos] := by
  have readonly : Value.bool (node.read "dos:readonly").truthy = node.read "dos:readonly" :=
    standard.bool_truthy_flag canonical hp .readonly
  have hidden : Value.bool (node.read "dos:hidden").truthy = node.read "dos:hidden" :=
    standard.bool_truthy_flag canonical hp .hidden
  have archive : Value.bool (node.read "dos:archive").truthy = node.read "dos:archive" :=
    standard.bool_truthy_flag canonical hp .archive
  have system : Value.bool (node.read "dos:system").truthy = node.read "dos:system" :=
    standard.bool_truthy_flag canonical hp .system
  simp only [Snapshot.fields, DosAttributes.ofNode, readonly, hidden, archive, system]
  rfl

lemma Standard.readAttributes_eq (standard : r.Standard) (hp : p ∈ Provider.catalog)
    (registered : p.name ∈ r.names) : r.readAttributes p.name node = p.snapshot node := by
  rw [readAttributes, standard.find?_of_mem_catalog hp registered]

/-- **The fields of a snapshot** are what the providers read that its view inherits from. -/
lemma exists_snapshot (built : buildOfViews views defaults = .ok r) (canonical : r.Canonical node)
    (shown : view ∈ ["basic", "posix", "dos"]) (registered : view ∈ r.names) :
    ∃ snapshot providers, r.readAttributes view node = .ok snapshot ∧
      snapshot.fields = readings node providers ∧ (providers.flatMap Provider.names).Nodup ∧
        ∀ p, p ∈ providers ↔ p ∈ r.closure view := by
  have standard := standard_of_buildOfViews built
  -- the providers of a view as the part of the catalog with the inherited names
  have closure : ∀ {names : List String},
      (∀ other, InheritsFrom Provider.catalog view other ↔ other ∈ names) →
        ∀ p, p ∈ Provider.catalog.filter (·.name ∈ names) ↔ p ∈ r.closure view := by
    intro names hnames p
    rw [mem_closure_iff_of_buildOfViews built registered, hnames, List.mem_filter,
      decide_eq_true_eq]
  simp only [List.mem_cons, List.not_mem_nil, or_false] at shown
  rcases shown with rfl | rfl | rfl
  · refine ⟨.basic (.ofNode node), [.basic], ?_, rfl, by decide,
      closure fun _ => Provider.inheritsFrom_basic_iff⟩
    exact standard.readAttributes_eq (p := .basic) (by simp [Provider.catalog]) registered
  · have hp : Provider.posix ∈ r.providers :=
      standard.mem_providers_of_mem_catalog (by simp [Provider.catalog]) registered
    obtain ⟨a, ha, hfields⟩ := standard.exists_posixAttributes canonical hp
    refine ⟨.posix a, [.basic, .owner, .posix], ?_, hfields, by decide,
      closure fun _ => Provider.inheritsFrom_posix_iff⟩
    refine (standard.readAttributes_eq (p := .posix) (by simp [Provider.catalog])
      registered).trans ?_
    simp only [Provider.snapshot, Provider.posix, Provider.standard, ha]
    rfl
  · have hp : Provider.dos ∈ r.providers :=
      standard.mem_providers_of_mem_catalog (by simp [Provider.catalog]) registered
    refine ⟨.dos (.ofNode node), [.basic, .dos], ?_, standard.fields_dos canonical hp, by decide,
      closure fun _ => Provider.inheritsFrom_dos_iff⟩
    exact standard.readAttributes_eq (p := .dos) (by simp [Provider.catalog]) registered

/-- **A snapshot agrees with the attributes read one by one.**  A node of standard views has been
initialized and then changed through its registry.  The views of times, of permissions and of flags
have snapshots of it if they are there.  Each field of such a snapshot is what its attribute reads
as behind the name of the view, alone and in the table of all attributes, and every attribute in
this table has exactly one field. -/
theorem snapshot_reads_singly (built : buildOfViews views defaults = .ok r)
    (ingested : r.Ingested node) (shown : view ∈ ["basic", "posix", "dos"])
    (registered : view ∈ r.names) :
    ∃ snapshot values, r.readAttributes view node = .ok snapshot ∧
      r.attributeMap node (view ++ ":*") = .ok values ∧
      (∀ name value, (name, value) ∈ snapshot.fields →
        r.get node (view ++ ":" ++ name) = value ∧ values.get? name = some value) ∧
      (snapshot.fields.map Prod.fst).Nodup ∧
      ∀ name, name ∈ values.keys ↔ name ∈ snapshot.fields.map Prod.fst := by
  have standard := standard_of_buildOfViews built
  obtain ⟨named, plain⟩ := standard.named_of_mem_names registered
  obtain ⟨snapshot, providers, hs, hfields, nodup, hmem⟩ :=
    exists_snapshot built (ingested.canonical standard) shown registered
  obtain ⟨values, hv, hkeys, hvalues⟩ := attributeMap_all plain named registered
  have hnames : ∀ name, name ∈ values.keys ↔ name ∈ snapshot.fields.map Prod.fst := by
    intro name
    rw [hkeys, hfields, map_fst_readings, List.mem_flatMap]
    simp only [hmem, Provider.supports, Table.contains_iff]
    exact Iff.rfl
  refine ⟨snapshot, values, hs, hv, fun name value hm => ?_, ?_, hnames⟩
  · have hname : name ∈ values.keys := (hnames name).2 (List.mem_map_of_mem hm)
    rw [hfields, mem_readings_iff] at hm
    obtain ⟨p, hp, supported, rfl⟩ := hm
    have hget : r.get node (view ++ ":" ++ name) = p.read node name :=
      get_of_routes (standard.routes_of_mem_closure registered ((hmem p).1 hp) supported)
    exact ⟨hget, by rw [hvalues name hname, hget]⟩
  · rw [hfields, map_fst_readings]
    exact nodup

/-- A group of a directory service is a plain one in the snapshot, too; the snapshot shows also what
the permissions inherit. -/
theorem snapshot_reads_singly_posix :
    ∃ r node snapshot, buildOfViews ["posix"] .empty = .ok r ∧ r.Ingested node ∧
      r.readAttributes "posix" node = .ok snapshot ∧
      ("group", .principal (.group "staff")) ∈ snapshot.fields ∧
      r.get node "posix:group" = .principal (.group "staff") ∧
      r.get node "posix:size" = .int 0 ∧ snapshot.fields.length = 12 := by
  obtain ⟨snapshot, values, taken, -, hfields, -⟩ :=
    snapshot_reads_singly buildOfViews_posix ingested_staffed
      (by decide : "posix" ∈ ["basic", "posix", "dos"]) (by decide)
  -- the snapshot can be computed from here on
  have hsnapshot := taken
  cases hsnapshot
  refine ⟨_, _, _, buildOfViews_posix, ingested_staffed, taken, ?group, (hfields "group" _ ?group).1,
    (hfields "size" _ ?size).1, rfl⟩
  case group => exact List.mem_of_getElem? (i := 10) rfl
  case size => exact List.mem_of_getElem? (i := 3) rfl

end Registry

end AttributeViews

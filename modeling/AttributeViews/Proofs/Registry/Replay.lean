import AttributeViews.Proofs.Attribute.Settling
import AttributeViews.Proofs.FileTree.Creation
import AttributeViews.Proofs.FileTree.Ingestion
import AttributeViews.Proofs.Registry.Printing

/-!
# Stored attributes as overrides

What is stored on a file can be given back: one attribute at a time, by reading it and setting it
again, or all at once, as the overrides of a new file.  Both rely on stored forms being left alone
by the converters.  What can keep the new file from being made is the registry alone: a default for
an attribute that is derived from the file is refused again each time.

* `Registry.DefaultsSettable` — nothing that is derived from the file has a default.
* **`Registry.Standard.exists_replay`**, **`Registry.Standard.refused_replay`** — the new values are
  the stored ones, or there are none.
* **`Registry.Standard.set_get`** — setting what is read.
* **`Registry.stored_attributes_replay`** — all of it.
-/

namespace AttributeViews

variable {r r' : Registry} {p : Provider} {node : Node} {now : Moment} {view name key : String}
  {spec : AttributeSpec} {stored : Value} {e : Error}

namespace Registry

/-! ## All at once -/

/-- No attribute that is derived from the file has a default. -/
def DefaultsSettable (r : Registry) : Prop :=
  ∀ a ∈ r.declared, a.spec.settable = false → Provider.override? r.defaults a.key = none

instance : Decidable r.DefaultsSettable :=
  inferInstanceAs (Decidable (∀ a ∈ r.declared, _ → _))

lemma Standard.get?_of_unsettable (standard : r.Standard) (canonical : r.Canonical node)
    (hp : p ∈ r.providers) (declared : p.attributes.get? name = some spec)
    (unsettable : spec.settable = false) : node.attributes.get? (p.qualified name) = none := by
  cases hs : node.attributes.get? (p.qualified name) with
  | none => rfl
  | some stored =>
      obtain ⟨q, hq, name', spec', hd, settable, hk⟩ := (canonical.keys _).1 ⟨stored, hs⟩
      obtain ⟨rfl, rfl⟩ := qualified_injective standard.nodup hp
        (Table.contains_eq_true_iff.2 ⟨_, declared⟩) hq (Table.contains_eq_true_iff.2 ⟨_, hd⟩) hk
      rw [Option.some.inj (hd.symm.trans declared), unsettable] at settable
      cases settable

/-- What is stored on a canonical node is not taken for absent, and it is accepted as it is. -/
lemma Standard.stored_of_settable (standard : r.Standard) (canonical : r.Canonical node)
    (hp : p ∈ r.providers) (declared : p.attributes.get? name = some spec)
    (settable : spec.settable = true) :
    ∃ stored, node.attributes.get? (p.qualified name) = some stored ∧ stored ≠ .null ∧
      spec.Keeps stored := by
  obtain ⟨stored, hs⟩ := (canonical.keys _).2 ⟨p, hp, name, spec, declared, settable, rfl⟩
  have form := canonical.forms _ _ hs
  exact ⟨stored, hs, form.ne_null,
    Provider.keeps_of_storedForm (standard.catalog p hp) declared form⟩

/-- Of the overrides and defaults together only a default can be refused, and only because nobody
may set the attribute. -/
lemma Standard.refuses_iff {a : Declared} (standard : r.Standard) (canonical : r.Canonical node)
    (ha : a ∈ r.declared) :
    a.Refuses (r.defaults.update node.attributes) e ↔
      e = .derived a.key ∧ a.spec.settable = false ∧
        ∃ v, Provider.override? r.defaults a.key = some v := by
  obtain ⟨hp, hd⟩ := mem_declared_iff.1 ha
  simp only [Provider.override?_eq_some_iff]
  constructor
  · intro refused
    cases refused with
    | derived given present unsettable =>
        rw [Table.get?_update, Declared.key,
          standard.get?_of_unsettable canonical hp hd unsettable, Option.none_or] at given
        exact ⟨rfl, unsettable, _, given, present⟩
    | unsuitable given _ settable refused =>
        obtain ⟨stored, hs, -, keeps⟩ := standard.stored_of_settable canonical hp hd settable
        rw [Table.get?_update, Declared.key, hs, Option.some_or] at given
        rw [← Option.some.inj given, keeps.coerced] at refused
        cases refused
  · rintro ⟨rfl, unsettable, v, hv, present⟩
    refine .derived ?_ present unsettable
    rw [Table.get?_update, Declared.key, standard.get?_of_unsettable canonical hp hd unsettable]
    exact hv

/-- **The new values are the stored ones.** -/
lemma Standard.get?_replay {values : Table String Value} (standard : r.Standard)
    (canonical : r.Canonical node) (h : r.initialAttributes now node.attributes = .ok values)
    (key : String) : values.get? key = node.attributes.get? key := by
  have override : ∀ {p name spec}, p ∈ r.providers → p.attributes.get? name = some spec →
      spec.settable = true → ∃ stored, node.attributes.get? (p.qualified name) = some stored ∧
        Provider.override? (r.defaults.update node.attributes) (p.qualified name) = some stored ∧
        spec.Keeps stored := by
    intro p name spec hp hd settable
    obtain ⟨stored, hs, present, keeps⟩ := standard.stored_of_settable canonical hp hd settable
    refine ⟨stored, hs, Provider.override?_eq_some_iff.2 ⟨?_, present⟩, keeps⟩
    rw [Table.get?_update, hs, Option.some_or]
  refine Option.ext fun v => ?_
  rw [initialAttributes_get?_iff standard.nodup h]
  constructor
  · rintro ⟨p, hp, name, spec, hd, rfl, starts⟩
    obtain ⟨stored, hs, given, keeps⟩ :=
      override hp hd (standard.settable_of_starts hp hd starts)
    cases starts with
    | given _ given' accepted =>
        rw [given] at given'
        rw [← Option.some.inj given', keeps.coerced] at accepted
        rw [hs, Except.ok.inj accepted]
    | fixed _ silent _ => simp [given] at silent
    | clock silent _ => simp [given] at silent
  · intro hv
    obtain ⟨p, hp, name, spec, hd, settable, rfl⟩ := (canonical.keys key).1 ⟨v, hv⟩
    obtain ⟨stored, hs, given, keeps⟩ := override hp hd settable
    rw [hs] at hv
    rw [← Option.some.inj hv]
    exact ⟨p, hp, name, spec, hd, rfl, .given settable given (keeps.coerced _ _)⟩

/-- **There are new values** if nothing that is derived has a default. -/
lemma Standard.exists_replay (standard : r.Standard) (canonical : r.Canonical node)
    (clear : r.DefaultsSettable) (now : Moment) :
    ∃ values, r.initialAttributes now node.attributes = .ok values := by
  cases h : r.initialAttributes now node.attributes with
  | ok values => exact ⟨values, rfl⟩
  | error e =>
      obtain ⟨a, ha, refused⟩ := (initialAttributes_eq_error_iff.1 h).exists_refuses
      obtain ⟨-, unsettable, v, hv⟩ := (standard.refuses_iff canonical ha).1 refused
      rw [clear a ha unsettable] at hv
      cases hv

/-- **There are none** if something that is derived has one, and then that is the reason. -/
lemma Standard.refused_replay (standard : r.Standard) (canonical : r.Canonical node)
    (defaulted : ¬ r.DefaultsSettable) (now : Moment) :
    ∃ a ∈ r.declared, a.spec.settable = false ∧
      (∃ v, r.defaults.get? a.key = some v ∧ v ≠ .null) ∧
      r.initialAttributes now node.attributes = .error (.derived a.key) := by
  cases h : r.initialAttributes now node.attributes with
  | error e =>
      obtain ⟨a, ha, refused⟩ := (initialAttributes_eq_error_iff.1 h).exists_refuses
      obtain ⟨rfl, unsettable, v, hv⟩ := (standard.refuses_iff canonical ha).1 refused
      exact ⟨a, ha, unsettable, ⟨v, Provider.override?_eq_some_iff.1 hv⟩, rfl⟩
  | ok values =>
      refine absurd (fun a ha unsettable => ?_) defaulted
      by_contra present
      have refused := (standard.refuses_iff canonical ha).2
        ⟨rfl, unsettable, Option.ne_none_iff_exists'.1 present⟩
      obtain ⟨e, he⟩ := exists_firstRefusal_iff.2 ⟨a, ha, _, refused⟩
      rw [initialAttributes_eq_error_iff.2 he] at h
      cases h

/-! ## One at a time -/

/-- **Setting what is read** leaves the node as it is. -/
lemma Standard.set_get {address : String} (standard : r.Standard) (canonical : r.Canonical node)
    (routes : r.Routes address p name) (declared : p.attributes.get? name = some spec)
    (settable : spec.settable = true) :
    r.set node address (r.get node address) false = .ok node := by
  obtain ⟨stored, hs, -, keeps⟩ :=
    standard.stored_of_settable canonical routes.registered declared settable
  have hget : r.get node address = stored := by
    rw [get_of_routes routes, Provider.read_of_settable declared settable, Node.read, hs]
    rfl
  have hwrite : node = node.write (p.qualified name) stored := by
    rw [Node.write, Table.insert_of_get? hs]
  rw [hget, set, resolve?_eq_some_iff_routes.2 routes, Provider.write_eq_ok_iff declared]
  exact ⟨settable, fun _ => rfl, stored, keeps.checked _ _, hwrite⟩

/-! ## Whatever has been done to the node -/

lemma Canonical.of_providers (canonical : r.Canonical node) (same : r'.providers = r.providers) :
    r'.Canonical node := by
  refine ⟨fun key => ?_, canonical.forms⟩
  rw [canonical.keys, IsSettable, IsSettable, same]

lemma providers_of_buildOfViews {views : List String} {defaults defaults' : Table String Value}
    (built : buildOfViews views defaults = .ok r)
    (built' : buildOfViews views defaults' = .ok r') : r'.providers = r.providers := by
  obtain ⟨providers, hs, hb⟩ := bind_eq_ok_iff.1 built
  obtain ⟨providers', hs', hb'⟩ := bind_eq_ok_iff.1 built'
  obtain rfl := Except.ok.inj (hs.symm.trans hs')
  exact Except.ok.inj ((build_eq_ok_iff.1 hb').1.symm.trans (build_eq_ok_iff.1 hb).1)

/-- **Stored attributes replay.**  A node of standard views has been initialized and then changed
through its registry.  Unless an attribute that is derived from the file has a default, its stored
attributes are accepted as the overrides of a new node, which gets just these, and a file that is
created with them is a copy, whatever the other defaults are; otherwise there are no new values, and
the error names an attribute that is derived and has a default.  And setting an attribute to what is
read leaves the node as it is. -/
theorem stored_attributes_replay {views : List String} {defaults : Table String Value}
    (built : buildOfViews views defaults = .ok r) (ingested : r.Ingested node) :
    (r.DefaultsSettable → ∀ now, ∃ values, (r.initial now node.attributes).result = .ok values ∧
      ∀ key, values.get? key = node.attributes.get? key) ∧
    (¬ r.DefaultsSettable → ∀ now, ∃ a ∈ r.declared, a.spec.settable = false ∧
      (∃ v, r.defaults.get? a.key = some v ∧ v ≠ .null) ∧
      (r.initial now node.attributes).result = .error (.derived a.key)) ∧
    (∀ defaults' r', buildOfViews views defaults' = .ok r' → r'.DefaultsSettable →
      ∀ (tree : FileTree) (now : Moment) (path : Path) (kind : NodeKind) (supply : IdSupply),
        tree.registry = r' → tree.paths.get? path = none → tree.HasDirectory path.parent →
          ∃ (tree' : FileTree) (copy : Node),
            (tree.createNext now kind path [] node.attributes supply).2.result
              = .ok (tree', copy) ∧
            tree'.node path = .ok copy ∧
              ∀ key, copy.attributes.get? key = node.attributes.get? key) ∧
    ∀ key, r.IsSettable key → r.set node key (r.get node key) false = .ok node := by
  have standard := standard_of_buildOfViews built
  have canonical := ingested.canonical standard
  refine ⟨fun clear now => ?_, fun defaulted now => ?_, ?_, fun key settable => ?_⟩
  · obtain ⟨values, h⟩ := standard.exists_replay canonical clear now
    exact ⟨values, result_initial.trans h, standard.get?_replay canonical h⟩
  · obtain ⟨a, ha, unsettable, given, h⟩ := standard.refused_replay canonical defaulted now
    exact ⟨a, ha, unsettable, given, result_initial.trans h⟩
  · rintro defaults' r' built' clear tree now path kind supply rfl free parent
    have standard' := standard_of_buildOfViews built'
    have canonical' := canonical.of_providers (providers_of_buildOfViews built built')
    obtain ⟨values, h⟩ := standard'.exists_replay canonical' clear now
    obtain ⟨tree', copy, created, found, hcopy⟩ :=
      FileTree.exists_createNext_nil free parent h kind supply
    refine ⟨tree', copy, created, found, fun key => ?_⟩
    rw [hcopy, standard'.get?_replay canonical' h]
  · obtain ⟨p, hp, name, spec, hd, hs, rfl⟩ := settable
    have routes := routes_own built hp (Table.contains_eq_true_iff.2 ⟨_, hd⟩)
    exact standard.set_get canonical routes hd hs

/-- The size of a file has a default, which is hidden when a node is initialized.  What is stored
then does not hide it again. -/
theorem replay_refused_basic :
    ∃ r node, buildOfViews ["basic"] (.ofList [("basic:size", .int 5)]) = .ok r ∧
      r.seed ⟨default, default, some 0⟩ (.fresh "1" .file 0) (.ofList [("basic:size", .null)])
        = .ok node ∧
      r.Ingested node ∧
      (r.initial ⟨default, default, some 0⟩ node.attributes).result
        = .error (.derived "basic:size") := by
  have built : buildOfViews ["basic"] (.ofList [("basic:size", .int 5)])
      = .ok ⟨[.basic], .ofList [("basic:size", .int 5)]⟩ := by
    rw [buildOfViews, standardProviders_basic]
    rfl
  have seeded : seed ⟨[.basic], .ofList [("basic:size", .int 5)]⟩ ⟨default, default, some 0⟩
      (.fresh "1" .file 0) (.ofList [("basic:size", .null)]) = .ok _ := rfl
  exact ⟨_, _, built, seeded, .initialized rfl rfl seeded, rfl⟩

/-- A group of a directory service is stored as a plain one, and given back as such in a registry
with another default. -/
theorem stored_attributes_replay_posix :
    ∃ r r' node values tree tree' copy, buildOfViews ["posix"] .empty = .ok r ∧
      node.attributes.get? "posix:group" = some (.principal (.group "staff")) ∧
      (r.initial default node.attributes).result = .ok values ∧
      values.get? "posix:group" = some (.principal (.group "staff")) ∧
      buildOfViews ["posix"] (.ofList [("posix:group", .text "users"), ("basic:size", .null)])
        = .ok r' ∧
      tree.registry = r' ∧
      (FileTree.createNext tree default .file (.ofText "/f") [] node.attributes
        ⟨toString, 1⟩).2.result = .ok (tree', copy) ∧
      copy.attributes.get? "posix:group" = some (.principal (.group "staff")) ∧
      r.set node "posix:group" (r.get node "posix:group") false = .ok node := by
  obtain ⟨replay, -, copies, setting⟩ :=
    stored_attributes_replay buildOfViews_posix ingested_staffed
  obtain ⟨values, hvalues, same⟩ := replay (by decide) default
  have built' := buildOfViews_posix_of_defaults
    (.ofList [("posix:group", .text "users"), ("basic:size", .null)])
  have fresh : initialAttributes ⟨[.basic, .owner, .posix],
      knownEntries ((declarations [.basic, .owner, .posix]).map Prod.fst)
        (.ofList [("posix:group", .text "users"), ("basic:size", .null)])⟩ default .empty
      = .ok _ := rfl
  obtain ⟨tree, -, htree, vacant⟩ := FileTree.exists_start fresh ⟨toString, 0⟩
  obtain ⟨free, parent⟩ :=
    FileTree.checkVacant_eq_ok_iff.1 (vacant (.ofText "/f") (by decide) (by decide))
  obtain ⟨tree', copy, created, -, hcopy⟩ :=
    copies _ _ built' (by decide) tree default _ .file ⟨toString, 1⟩ htree free parent
  have settable : IsSettable ⟨[.basic, .owner, .posix], .empty⟩ "posix:group" :=
    ⟨.posix, by simp, "group", groupAttribute, rfl, rfl, rfl⟩
  exact ⟨_, _, _, values, tree, tree', copy, buildOfViews_posix, rfl, hvalues, same _, built', htree,
    created, hcopy _, setting _ settable⟩

end Registry

end AttributeViews

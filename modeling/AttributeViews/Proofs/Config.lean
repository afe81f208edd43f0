import AttributeViews.Config
import AttributeViews.Proofs.FileTree.Creation
import AttributeViews.Proofs.Registry.Printing

/-!
# Accepted configurations

When a configuration is read its registry is built once and the values of a new node are computed
once, at the time of reading.  That is enough for all that is done with it later, at any other time;
and if it is not accepted, for whatever reason, that is reported as a fault of the configuration.

* `Config.Accepted` — the configurations under which a program runs.
* **`Config.kind_of_ofDocument`** — why a document is refused.
* **`Config.Accepted.exists_registry`** — what the check of a configuration ensures.
* **`Config.accepted_stays_usable`** — so nothing that is done with it later fails.
-/

namespace AttributeViews

namespace Config

variable {α : Type} {path : String} {now : Moment} {document : Table String Value} {c : Config}
  {r : Registry} {e : Error}

/-- The configuration of a document that has been accepted, or the one that applies without a
document. -/
inductive Accepted : Config → Prop
  | document {path : String} {now : Moment} {document : Table String Value} {c : Config}
      (accepted : (ofDocument path now document).result = .ok c) : Accepted c
  | standard : Accepted .standard

/-! ## The registry of a configuration -/

lemma result_registry :
    c.registry.result = Registry.buildOfViews c.views c.defaults := by
  simp [registry, Registry.ofViews, Registry.create, Registry.buildOfViews]

lemma standard_of_registry (built : c.registry.result = .ok r) : r.Standard :=
  Registry.standard_of_buildOfViews (result_registry.symm.trans built)

lemma isExpected_of_registry (h : c.registry.result = .error e) : e.kind.isExpected = true := by
  rw [result_registry] at h
  rw [Registry.kind_of_buildOfViews h]
  rfl

/-! ## The check of a configuration -/

/-- What the check does: build the registry, and compute the values of a new node. -/
lemma validate_eq_error_iff :
    (validate path now c).result = .error e ↔
      ∃ cause, (c.registry.result >>= fun r => r.initialAttributes now .empty) = .error cause ∧
        (if cause.kind.isExpected then .invalidConfiguration path cause else cause) = e := by
  simp only [validate, Logged.result_bind, Logged.result_recordAll, ok_bind, Logged.result_lift]
  cases hr : c.registry.result with
  | error cause => simp [reportFault]
  | ok r => cases hv : r.initialAttributes now .empty <;> simp [reportFault, hv]

lemma validate_eq_ok_iff {u : Unit} :
    (validate path now c).result = .ok u ↔
      ∃ r values, c.registry.result = .ok r ∧ r.initialAttributes now .empty = .ok values := by
  simp only [validate, Logged.result_bind, Logged.result_recordAll, ok_bind, Logged.result_lift]
  cases hr : c.registry.result with
  | error cause => simp [reportFault]
  | ok r => cases hv : r.initialAttributes now .empty <;> simp [reportFault, hv]

/-- A fault that the check finds is one of the configuration. -/
lemma kind_of_validate (h : (validate path now c).result = .error e) :
    e.kind = .invalidConfigValue := by
  obtain ⟨cause, hc, rfl⟩ := validate_eq_error_iff.1 h
  have hexpected : cause.kind.isExpected = true := by
    rcases bind_eq_error_iff.1 hc with hc | ⟨r, built, hc⟩
    · exact isExpected_of_registry hc
    · exact (standard_of_registry built).isExpected_of_initialAttributes hc
  rw [if_pos hexpected]
  rfl

lemma kind_of_option {name : String} {x : Except ConfigProblem α}
    (h : option name path x = .error e) : e.kind = .invalidConfigValue := by
  cases x with
  | ok value => cases h
  | error problem =>
      cases h
      rfl

lemma result_ofDocument :
    (ofDocument path now document).result
      = option "attribute_views" path (readViews (document.get? "attribute_views")) >>= fun views =>
          option "default_attributes" path (readDefaults (document.get? "default_attributes"))
            >>= fun defaults => (validate path now ⟨views, defaults⟩).result >>= fun _ =>
              .ok ⟨views, defaults⟩ := by
  simp only [ofDocument, Logged.result_bind, Logged.result_lift, Logged.result_recordAll, ok_bind,
    Logged.result_pure]

/-- **A document that is refused** has a value that is not valid. -/
lemma kind_of_ofDocument (h : (ofDocument path now document).result = .error e) :
    e.kind = .invalidConfigValue := by
  rw [result_ofDocument] at h
  rcases bind_eq_error_iff.1 h with h | ⟨views, -, h⟩
  · exact kind_of_option h
  · rcases bind_eq_error_iff.1 h with h | ⟨defaults, -, h⟩
    · exact kind_of_option h
    · rcases bind_eq_error_iff.1 h with h | ⟨u, -, h⟩
      · exact kind_of_validate h
      · cases h

/-- The text of a document is read as this document. -/
lemma parse_of_decoded {text : String}
    (decoded : Document.parse (String.ofList (uniformBreaks text.toList)) = some document) :
    parse path now (some text) = ofDocument path now document := by
  simp only [parse, decoded]

lemma parse_of_undecoded {text : String}
    (undecoded : Document.parse (String.ofList (uniformBreaks text.toList)) = none) :
    parse path now (some text) = .lift (.error .configUndecodable) := by
  simp only [parse, undecoded]

/-- A text that is no configuration is refused with an explanation. -/
lemma isExpected_of_parse {text : String} (h : (parse path now (some text)).result = .error e) :
    e.kind.isExpected = true := by
  cases hd : Document.parse (String.ofList (uniformBreaks text.toList)) with
  | none =>
      rw [parse_of_undecoded hd] at h
      cases h
      rfl
  | some document =>
      rw [parse_of_decoded hd] at h
      rw [kind_of_ofDocument h]
      rfl

/-- A document that is accepted has passed the check. -/
lemma validate_of_ofDocument (h : (ofDocument path now document).result = .ok c) :
    ∃ u, (validate path now c).result = .ok u := by
  rw [result_ofDocument] at h
  obtain ⟨views, -, h⟩ := bind_eq_ok_iff.1 h
  obtain ⟨defaults, -, h⟩ := bind_eq_ok_iff.1 h
  obtain ⟨u, hu, h⟩ := bind_eq_ok_iff.1 h
  rw [← Except.ok.inj h]
  exact ⟨u, hu⟩

lemma registry_standard : standard.registry.result = .ok ⟨[.basic], .empty⟩ := by
  rw [result_registry]
  exact Registry.buildOfViews_basic

/-- **What the check ensures**: the configuration has a registry, and with it a new node gets values
at any time. -/
lemma Accepted.exists_registry (accepted : c.Accepted) :
    ∃ r, c.registry.result = .ok r ∧ r.Standard ∧
      ∀ now, ∃ values, r.initialAttributes now .empty = .ok values := by
  cases accepted with
  | document accepted =>
      obtain ⟨u, hu⟩ := validate_of_ofDocument accepted
      obtain ⟨r, values, built, hv⟩ := validate_eq_ok_iff.1 hu
      exact ⟨r, built, standard_of_registry built, fun now =>
        Registry.exists_initialAttributes_of_clock hv⟩
  | standard =>
      exact ⟨_, registry_standard, standard_of_registry registry_standard, fun now => ⟨_, rfl⟩⟩

/-! ## Whatever is done later -/

/-- **A configuration that is accepted stays usable.**  If a document is refused, it is as a
configuration with a value that is not valid, and for no other reason.  If it is accepted there is a
registry, and at any time the starting values can be computed and printed, a tree can be started,
and a file can be created at any free path below a directory of any tree with this registry; and
then every supported view of the file can be printed. -/
theorem accepted_stays_usable (path : String) (now : Moment) (document : Table String Value) :
    (∀ e, (ofDocument path now document).result = .error e → e.kind = .invalidConfigValue) ∧
    (∀ text, Document.parse (String.ofList (uniformBreaks text.toList)) = some document →
      parse path now (some text) = ofDocument path now document) ∧
    ∀ c, (ofDocument path now document).result = .ok c →
      ∃ r, c.registry.result = .ok r ∧ ∀ now' supply,
        (∃ values, (r.initial now' .empty).result = .ok values) ∧
        (∃ text, (r.dumpInitial now' .empty).result = .ok text) ∧
        (∃ tree, (FileTree.start r now' supply).2.result = .ok tree ∧ tree.registry = r) ∧
        ∀ (tree : FileTree) (path : Path) (kind : NodeKind), tree.registry = r →
          tree.paths.get? path = none → tree.HasDirectory path.parent →
            ∃ (tree' : FileTree) (node : Node),
              (tree.createNext now' kind path [] .empty supply).2.result = .ok (tree', node) ∧
                tree'.node path = .ok node ∧
                  ∀ view ∈ r.supportedViews, ∃ text, r.dump node view = .ok text := by
  refine ⟨fun e => kind_of_ofDocument, fun text decoded => ?_, fun c accepted => ?_⟩
  · simp only [parse, decoded]
  · obtain ⟨r, built, standard, starts⟩ := (Accepted.document accepted).exists_registry
    refine ⟨r, built, fun now' supply => ?_⟩
    obtain ⟨values, hv⟩ := starts now'
    refine ⟨⟨values, Registry.result_initial.trans hv⟩, standard.exists_dumpInitial hv, ?_, ?_⟩
    · obtain ⟨tree, made, hr, -⟩ := FileTree.exists_start hv supply
      exact ⟨tree, made, hr⟩
    · rintro tree path kind rfl free parent
      obtain ⟨tree', node, created, found, hnode⟩ :=
        FileTree.exists_createNext_nil free parent hv kind supply
      refine ⟨tree', node, created, found, fun view hview => ?_⟩
      refine standard.exists_dump (fun key stored hs => ?_) (mem_sortNames.1 hview)
      rw [hnode] at hs
      exact standard.printable_of_initialAttributes hv hs

/-- A document with permissions in their notation, and an option that is not known. -/
def permissive : Table String Value :=
  .ofList [("attribute_views", .list [.text "posix"]), ("colour", .bool true),
    ("default_attributes", .dict [(.text "posix:permissions", .text "rwx------")])]

/-- The configuration of this document. -/
def ofPermissive : Config := ⟨["posix"], .ofList [("posix:permissions", .text "rwx------")]⟩

lemma registry_ofPermissive :
    ofPermissive.registry.result = .ok ⟨[.basic, .owner, .posix], ofPermissive.defaults⟩ := by
  rw [result_registry, ofPermissive, Registry.buildOfViews_posix_of_defaults]
  rfl

lemma ofDocument_permissive :
    (ofDocument "facetfs.toml" default permissive).result = .ok ofPermissive := by
  have valid : (validate "facetfs.toml" default ofPermissive).result = .ok () :=
    validate_eq_ok_iff.2 ⟨_, _, registry_ofPermissive, rfl⟩
  rw [result_ofDocument]
  exact bind_eq_ok_iff.2 ⟨["posix"], rfl, bind_eq_ok_iff.2 ⟨ofPermissive.defaults, rfl,
    bind_eq_ok_iff.2 ⟨(), valid, rfl⟩⟩⟩

/-- Below the root of a new tree a file is created, and its view printed. -/
theorem accepted_stays_usable_permissive :
    ∃ c r tree tree' node text, (ofDocument "facetfs.toml" default permissive).result = .ok c ∧
      c.registry.result = .ok r ∧
      (FileTree.start r default ⟨toString, 0⟩).2.result = .ok tree ∧
      (tree.createNext default .file (.ofText "/f") [] .empty ⟨toString, 1⟩).2.result
        = .ok (tree', node) ∧
      r.dump node "posix" = .ok text := by
  obtain ⟨r, built, later⟩ := (accepted_stays_usable _ _ _).2.2 _ ofDocument_permissive
  obtain rfl := Except.ok.inj (registry_ofPermissive.symm.trans built)
  obtain ⟨⟨values, hv⟩, -, -, create⟩ := later default ⟨toString, 1⟩
  obtain ⟨tree, started, htree, vacant⟩ :=
    FileTree.exists_start (Registry.result_initial.symm.trans hv) ⟨toString, 0⟩
  obtain ⟨free, parent⟩ :=
    FileTree.checkVacant_eq_ok_iff.1 (vacant (.ofText "/f") (by decide) (by decide))
  obtain ⟨tree', node, created, -, print⟩ := create tree _ .file htree free parent
  obtain ⟨text, printed⟩ := print "posix" (by decide)
  exact ⟨_, _, tree, tree', node, text, ofDocument_permissive, built, started, created, printed⟩

end Config

end AttributeViews

import AttributeViews.Proofs.Assignment
import AttributeViews.Proofs.Command
import AttributeViews.Proofs.Journal
import Mathlib.Tactic.Common

/-!
# Attributes that no view knows

A file that is created to be inspected can be given attributes as arguments.  An attribute that no
view of the registry recognizes is passed over when the file is created, so it makes no difference
to an inspection whether it is given.  There is one exception: a text for a key that ends in
`:permissions` is read as permissions before the registry is asked, also if no view has such an
attribute, and a text that is not their notation stops the command.

* `assignments_with_another` — one more argument changes nothing under the other keys.
* **`FileTree.sameFrom_setWhileCreating`** — attributes without an owner leave no visible trace.
* **`sameFrom_inspectText`** — inspections that differ in one of them.
* **`Action.unknown_creation_attributes`** — when they are ignored, and when they are not.
-/

namespace AttributeViews

variable {r : Registry} {c : Config} {now : Moment} {key raw view : String} {e : Error}
  {assigned : Table String Value}

/-! ## Arguments -/

/-- **One more argument** is an error with the others or none of its own, and changes nothing under
the other keys. -/
lemma assignments_with_another (named : key ≠ "") (plain : '=' ∉ key.toList) (raw : String)
    (before after : List String) :
    (∃ e, readAssignments (before ++ (key ++ "=" ++ raw) :: after) = .error e ∧
      readAssignments (before ++ after) = .error e) ∨
    ∃ extended assigned, readAssignments (before ++ (key ++ "=" ++ raw) :: after) = .ok extended ∧
      readAssignments (before ++ after) = .ok assigned ∧
        extended.erase key = assigned.erase key := by
  simp only [readAssignments, List.mapM_append, List.mapM_cons, readAssignment_append named plain]
  cases before.mapM readAssignment with
  | error e => exact Or.inl ⟨e, rfl, rfl⟩
  | ok front =>
      cases after.mapM readAssignment with
      | error e => exact Or.inl ⟨e, rfl, rfl⟩
      | ok back =>
          refine Or.inr ⟨_, _, rfl, rfl, ?_⟩
          rw [Table.erase_ofList, Table.erase_ofList, List.filter_append, List.filter_append,
            List.filter_cons_of_neg (by simp)]

lemma erase_readAssignments {before after : List String} {extended rest : Table String Value}
    (named : key ≠ "") (plain : '=' ∉ key.toList)
    (hextended : readAssignments (before ++ (key ++ "=" ++ raw) :: after) = .ok extended)
    (hrest : readAssignments (before ++ after) = .ok rest) :
    extended.erase key = rest.erase key := by
  rcases assignments_with_another named plain raw before after with
    ⟨e, -, hfailed⟩ | ⟨extended', rest', hextended', hrest', same⟩
  · rw [hfailed] at hrest
    cases hrest
  · obtain rfl := Except.ok.inj (hextended'.symm.trans hextended)
    obtain rfl := Except.ok.inj (hrest'.symm.trans hrest)
    exact same

/-! ## Attributes of a new file -/

/-- An attribute that arguments give, in the form for a new file. -/
def creationEntry (given : String × Value) : Except Error (String × Value) := do
  return (given.1, ← creationValue given.1 given.2)

lemma creationAttributes_eq (arguments : List String) :
    creationAttributes arguments
      = readAssignments arguments >>= fun assigned => assigned.entries.mapM creationEntry := rfl

lemma creationEntry_eq_ok_iff {given entry : String × Value} :
    creationEntry given = .ok entry ↔
      given.1 = entry.1 ∧ creationValue given.1 given.2 = .ok entry.2 := by
  obtain ⟨name, value⟩ := entry
  rw [creationEntry]
  cases creationValue given.1 given.2 <;> simp [Pure.pure, Except.pure]

lemma creationEntry_eq_error_iff {given : String × Value} :
    creationEntry given = .error e ↔ creationValue given.1 given.2 = .error e := by
  rw [creationEntry]
  cases creationValue given.1 given.2 <;> simp [Pure.pure, Except.pure]

lemma isSuffixOf_permissions_iff :
    ":permissions".toList.isSuffixOf key.toList = true ↔ ∃ front, key = front ++ ":permissions" := by
  rw [List.isSuffixOf_iff_suffix]
  constructor
  · rintro ⟨front, hfront⟩
    refine ⟨String.ofList front, ?_⟩
    rw [← String.toList_inj, String.toList_append, String.toList_ofList, hfront]
  · rintro ⟨front, rfl⟩
    exact ⟨front.toList, (String.toList_append ..).symm⟩

/-- Only a text for permissions can be refused before the registry is asked. -/
lemma creationValue_eq_error_iff {value : Value} :
    creationValue key value = .error e ↔
      (∃ front, key = front ++ ":permissions") ∧
        ∃ s, value = .text s ∧ PermissionSet.parse s = .error e := by
  cases value with
  | text s =>
      rw [creationValue]
      split_ifs with h
      · simp only [isSuffixOf_permissions_iff.1 h, Value.text.injEq, true_and, exists_eq_left']
        cases PermissionSet.parse s <;> simp [Pure.pure, Except.pure]
      · simp [mt isSuffixOf_permissions_iff.2 h]
  | _ => simp [creationValue]

/-- What arguments give to a key can be given to a new file as permissions: no text, or their
notation. -/
def GivesPermissions (arguments : List String) (key : String) : Prop :=
  ∀ assigned s, readAssignments arguments = .ok assigned → assigned.get? key = some (.text s) →
    ∃ permissions, PermissionSet.parse s = .ok permissions

/-- Leaving a key out of the attributes that are read, or of those that were given. -/
lemma filter_mapM_creationEntry
    (usable : ∀ value, assigned.get? key = some value → ∃ v, creationValue key value = .ok v) :
    List.filter (·.1 ≠ key) <$> assigned.entries.mapM creationEntry
      = (assigned.erase key).entries.mapM creationEntry := by
  refine filter_mapM (fun given entry h => ?_) _ fun given hmem hkey => ?_
  · rw [(creationEntry_eq_ok_iff.1 h).1]
  · obtain rfl : given.1 = key := by simpa using hkey
    obtain ⟨v, hv⟩ := usable given.2 (Table.get?_eq_some_iff.2 hmem)
    exact ⟨(given.1, v), creationEntry_eq_ok_iff.2 ⟨rfl, hv⟩⟩

/-- A value that is given to a key can be given to a new file, unless the key is one for permissions
and the value is a text that is not their notation. -/
lemma exists_creationValue {arguments : List String} {value : Value}
    (h : ∀ front, key = front ++ ":permissions" → GivesPermissions arguments key)
    (read : readAssignments arguments = .ok assigned) (given : assigned.get? key = some value) :
    ∃ v, creationValue key value = .ok v := by
  cases hv : creationValue key value with
  | ok v => exact ⟨v, rfl⟩
  | error e =>
      obtain ⟨⟨front, hfront⟩, s, rfl, hs⟩ := creationValue_eq_error_iff.1 hv
      obtain ⟨permissions, hp⟩ := h front hfront assigned s read given
      rw [hs] at hp
      cases hp

/-- **With and without another argument** the attributes of a new file are the same under all other
keys. -/
lemma creationAttributes_with_another {before after : List String} (named : key ≠ "")
    (plain : '=' ∉ key.toList)
    (usable : ∀ front, key = front ++ ":permissions" →
      GivesPermissions (before ++ after) key ∧
        GivesPermissions (before ++ (key ++ "=" ++ raw) :: after) key) :
    List.filter (·.1 ≠ key) <$> creationAttributes (before ++ (key ++ "=" ++ raw) :: after)
      = List.filter (·.1 ≠ key) <$> creationAttributes (before ++ after) := by
  rw [creationAttributes_eq, creationAttributes_eq]
  rcases assignments_with_another named plain raw before after with
    ⟨e, hextended, hassigned⟩ | ⟨extended, assigned, hextended, hassigned, same⟩
  · rw [hextended, hassigned]
  · rw [hextended, hassigned, ok_bind, ok_bind,
      filter_mapM_creationEntry fun _ =>
        exists_creationValue (fun front hf => (usable front hf).2) hextended,
      filter_mapM_creationEntry fun _ =>
        exists_creationValue (fun front hf => (usable front hf).1) hassigned, same]

/-- Another argument with a text that is not the notation of permissions is the only fault, if there
is none without it. -/
lemma creationAttributes_of_unreadable {before after : List String} {s front : String}
    {attributes : List (String × Value)} (named : key ≠ "") (plain : '=' ∉ key.toList)
    (permissions : key = front ++ ":permissions")
    (read : readAssignments (before ++ (key ++ "=" ++ raw) :: after) = .ok assigned)
    (given : assigned.get? key = some (.text s)) (unreadable : PermissionSet.parse s = .error e)
    (others : creationAttributes (before ++ after) = .ok attributes) :
    creationAttributes (before ++ (key ++ "=" ++ raw) :: after) = .error e := by
  have refused : creationValue key (.text s) = .error e :=
    creationValue_eq_error_iff.2 ⟨⟨front, permissions⟩, s, rfl, unreadable⟩
  rw [creationAttributes_eq] at others
  obtain ⟨rest, hrest, hentries⟩ := bind_eq_ok_iff.1 others
  have same := erase_readAssignments named plain read hrest
  rw [creationAttributes_eq, read, ok_bind]
  refine mapM_eq_error (Table.get?_eq_some_iff.1 given) (creationEntry_eq_error_iff.2 refused) ?_
  -- All that is given beside the key is given without the argument, too.
  intro member hmember hne
  have hget : assigned.get? member.1 = some member.2 := Table.get?_eq_some_iff.2 hmember
  have hkey : key ≠ member.1 := by
    rintro rfl
    rw [hget] at given
    exact hne (Prod.ext rfl (Option.some.inj given))
  have hother : rest.get? member.1 = some member.2 := by
    simpa [hkey, hget] using (congrArg (·.get? member.1) same).symm
  exact exists_of_mapM_eq_ok hentries member (Table.get?_eq_some_iff.1 hother)

/-! ## New files -/

/-- Setting an attribute without an owner is recorded as a detail, and nothing else happens. -/
lemma Registry.write_of_no_route (nowhere : ∀ p name, ¬ r.Routes key p name) (node : Node)
    (value : Value) (creating : Bool) :
    (r.write node key value creating).result = .ok node ∧
      visibleFrom .info (r.write node key value creating).records = [] := by
  have hset : r.set node key value creating = .ok node := set_of_no_route nowhere
  rw [write, missRecords, resolve?_eq_none_iff.2 nowhere, hset]
  exact ⟨rfl, rfl⟩

namespace FileTree

/-- **Attributes without an owner** may as well be left out. -/
lemma sameFrom_setWhileCreating (nowhere : ∀ p name, ¬ r.Routes key p name)
    (attributes : List (String × Value)) :
    ∀ node, (setWhileCreating r attributes node).SameFrom .info
      (setWhileCreating r (attributes.filter (·.1 ≠ key)) node) := by
  induction attributes with
  | nil => exact fun node => .refl _
  | cons entry rest ih =>
      intro node
      by_cases hkey : entry.1 = key
      · obtain ⟨answer, hidden⟩ := Registry.write_of_no_route (hkey ▸ nowhere) node entry.2 true
        rw [List.filter_cons_of_neg (by simpa using hkey)]
        exact (Logged.SameFrom.of_hidden answer hidden).trans (ih node)
      · rw [List.filter_cons_of_pos (by simpa using hkey)]
        exact .bind (.refl _) fun next _ => ih next

variable {t : FileTree} {kind : NodeKind} {path : Path} {overrides : Table String Value}

lemma sameFrom_createNext {attributes attributes' : List (String × Value)}
    (same : ∀ node, (setWhileCreating t.registry attributes node).SameFrom .info
      (setWhileCreating t.registry attributes' node)) :
    (t.createNext now kind path attributes overrides).SameFrom .info
      (t.createNext now kind path attributes' overrides) := by
  -- The check of the path, the identity and the starting values are the same.
  refine .bind (.refl _) fun _ _ _ => .bind (.refl _) fun id _ _ => .lift ?_
  refine .bind (.refl _) fun _ _ => .bind (.refl _) fun node _ => ?_
  exact .bind (same node) fun _ _ => .refl _

lemma registry_of_start {supply : IdSupply} (h : (start r now supply).2.result = .ok t) :
    t.registry = r := by
  obtain ⟨root, -, rfl⟩ := ofRoot_eq_ok_iff.1 (h : (ofRoot r now supply.next).result = .ok t)
  rfl

end FileTree

/-! ## Inspections -/

/-- An inspection, once the registry is built and the attributes of the new file are read. -/
def inspectCreated (r : Registry) (now : Moment) (view : String) (overrides : List String)
    (attributes : List (String × Value)) : Issuing String := do
  let tree ← FileTree.start r now
  let overrides ← Issuing.lift (.lift (readAssignments overrides))
  let (_, node) ← tree.createNext now .file scratchPath attributes overrides
  Issuing.lift (.record .info ("Created scratch file " ++ node.id))
  let text ← Issuing.lift (.lift (r.dump node view))
  return text ++ "\n"

lemma inspectText_eq (c : Config) (now : Moment) (view : String) (overrides creation : List String) :
    inspectText c now view overrides creation
      = Issuing.lift c.registry >>= fun r =>
          Issuing.lift (.lift (creationAttributes creation)) >>= fun attributes =>
            inspectCreated r now view overrides attributes := rfl

lemma Action.run_inspect (view : String) (overrides creation : List String) (c : Config)
    (path : String) (now : Moment) (w : World) :
    (Action.inspect view overrides creation).run c path now w
      = (⟨w.disk, (inspectText c now view overrides creation w.supply).1⟩,
          (inspectText c now view overrides creation w.supply).2) := rfl

/-- Nothing is created from arguments that cannot be read. -/
lemma inspectText_of_unreadable {creation : List String} (built : c.registry.result = .ok r)
    (refused : creationAttributes creation = .error e) (overrides : List String)
    (supply : IdSupply) :
    (inspectText c now view overrides creation supply).1 = supply ∧
      (inspectText c now view overrides creation supply).2.result = .error e := by
  have hlift : Issuing.lift c.registry supply = (supply, c.registry) := rfl
  rw [inspectText_eq, Issuing.bind_apply, hlift, built, refused]
  exact ⟨rfl, rfl⟩

lemma sameFrom_inspectCreated (nowhere : ∀ p name, ¬ r.Routes key p name) (now : Moment)
    (view : String) (overrides : List String) (attributes : List (String × Value)) :
    (inspectCreated r now view overrides attributes).SameFrom .info
      (inspectCreated r now view overrides (attributes.filter (·.1 ≠ key))) := by
  refine .bind (.refl _) fun tree _ started => .bind (.refl _) fun _ _ _ => ?_
  have same := FileTree.sameFrom_setWhileCreating nowhere attributes
  rw [← FileTree.registry_of_start started] at same
  exact .bind (FileTree.sameFrom_createNext same) fun _ _ _ => .refl _

/-- **Inspections that differ in an attribute without an owner** look the same. -/
lemma sameFrom_inspectText {creation creation' : List String} (built : c.registry.result = .ok r)
    (nowhere : ∀ p name, ¬ r.Routes key p name)
    (same : List.filter (·.1 ≠ key) <$> creationAttributes creation
      = List.filter (·.1 ≠ key) <$> creationAttributes creation')
    (overrides : List String) :
    (inspectText c now view overrides creation).SameFrom .info
      (inspectText c now view overrides creation') := by
  rw [inspectText_eq, inspectText_eq]
  refine .bind (.refl _) fun r' _ hr => ?_
  obtain rfl := Except.ok.inj (built.symm.trans hr)
  cases h : creationAttributes creation with
  | error e =>
      rw [h] at same
      rw [map_eq_error_iff.1 same.symm]
      exact .refl _
  | ok attributes =>
      rw [h] at same
      obtain ⟨attributes', h', hfilter⟩ := map_eq_ok_iff.1 same.symm
      have left := sameFrom_inspectCreated nowhere now view overrides attributes
      have right := sameFrom_inspectCreated nowhere now view overrides attributes'
      rw [← hfilter] at right
      rw [h']
      exact left.trans right.symm

/-- **Unknown attributes are ignored** when a file is created to be inspected, except for a text
that is no notation of permissions.  Under a configuration that applies, let an argument give a
value to a key that leads to no attribute of the registry.  If the key does not end in
`:permissions`, or if with and without the argument what it is given is no text or the notation of
permissions, then the inspection of any view leaves the same world behind and has the same outcome
as without the argument, and the same records are shown.

Otherwise the text is refused though no view would store it: an inspection that could read all its
other arguments fails and leaves the world as it was. -/
theorem Action.unknown_creation_attributes (accepted : c.Accepted) (path : String) (now : Moment)
    (w : World) :
    ∃ r, c.registry.result = .ok r ∧
      ∀ (view : String) (overrides before after : List String) (key raw : String), key ≠ "" →
        '=' ∉ key.toList → (∀ p name, ¬ r.Routes key p name) →
          let longer := before ++ (key ++ "=" ++ raw) :: after
          let without := (Action.inspect view overrides (before ++ after)).run c path now w
          let extended := (Action.inspect view overrides longer).run c path now w
          ((∀ front, key = front ++ ":permissions" →
              GivesPermissions (before ++ after) key ∧ GivesPermissions longer key) →
            extended.1 = without.1 ∧ extended.2.SameFrom .info without.2) ∧
          ∀ front assigned s e attributes, key = front ++ ":permissions" →
            readAssignments longer = .ok assigned → assigned.get? key = some (.text s) →
              PermissionSet.parse s = .error e →
                creationAttributes (before ++ after) = .ok attributes →
                  extended.1 = w ∧ extended.2.result = .error e ∧
                    e.kind = .invalidPermissionString := by
  obtain ⟨r, built, -⟩ := accepted.exists_registry
  refine ⟨r, built, ?_⟩
  intro view overrides before after key raw named plain nowhere longer without extended
  constructor
  · intro usable
    obtain ⟨rest, look⟩ := sameFrom_inspectText built nowhere
      (creationAttributes_with_another named plain usable) overrides w.supply
    exact ⟨congrArg (World.mk w.disk) rest, look⟩
  · intro front assigned s e attributes permissions read given unreadable others
    obtain ⟨rest, answer⟩ := inspectText_of_unreadable built
      (creationAttributes_of_unreadable named plain permissions read given unreadable others)
      overrides w.supply
    exact ⟨congrArg (World.mk w.disk) rest, answer, kind_of_parse unreadable⟩

/-! ## Permissions in a view that there is not -/

lemma readAssignments_xyz : readAssignments ["foo:permissions=xyz"]
    = .ok (.ofList [("foo:permissions", .text "xyz")]) := by
  have undecoded : Document.parse ("v = " ++ "xyz") = none := by
    have joined : "v = " ++ "xyz" = "v = xyz" := rfl
    rw [joined]
    exact (Document.parse_ofList 7 rfl).trans rfl
  have assigned : assignedValue "xyz" = .text "xyz" := by
    rw [assignedValue, undecoded]
  have read : readAssignments ["foo:permissions=xyz"]
      = .ok (.ofList [("foo:permissions", assignedValue "xyz")]) :=
    readAssignments_of_wellFormed [("foo:permissions", "xyz")] (by decide)
  rw [read, assigned]

lemma creationAttributes_xyz :
    creationAttributes ["foo:permissions=xyz"] = .error (.notationLength "xyz") := by
  rw [creationAttributes_eq, readAssignments_xyz, ok_bind]
  rfl

/-- A colour that no view knows is ignored; a text for the permissions of a view that there is not
stops the command. -/
theorem Action.unknown_creation_attributes_standard :
    ∃ (r : Registry) (w : World), Config.standard.registry.result = .ok r ∧
      let inspected := fun arguments =>
        (Action.inspect "basic" [] arguments).run .standard "facetfs.toml" default w
      (∀ p name, ¬ r.Routes "colour" p name) ∧
      (inspected ["colour=red"]).1 = (inspected []).1 ∧
      (inspected ["colour=red"]).2.SameFrom .info (inspected []).2 ∧
      (∀ p name, ¬ r.Routes "foo:permissions" p name) ∧
      (inspected ["foo:permissions=xyz"]).1 = w ∧
      (inspected ["foo:permissions=xyz"]).2.result = .error (.notationLength "xyz") := by
  let w : World := ⟨.blank, ⟨toString, 0⟩⟩
  obtain ⟨r, built, ignored⟩ :=
    unknown_creation_attributes .standard "facetfs.toml" default w
  obtain rfl := Except.ok.inj (Config.registry_standard.symm.trans built)
  have colourless : ∀ p name, ¬ Registry.Routes ⟨[.basic], .empty⟩ "colour" p name :=
    Registry.resolve?_eq_none_iff.1 rfl
  have viewless : ∀ p name, ¬ Registry.Routes ⟨[.basic], .empty⟩ "foo:permissions" p name :=
    Registry.resolve?_eq_none_iff.1 rfl
  obtain ⟨same, -⟩ := ignored "basic" [] [] [] "colour" "red" (by decide) (by decide) colourless
  obtain ⟨-, refused⟩ :=
    ignored "basic" [] [] [] "foo:permissions" "xyz" (by decide) (by decide) viewless
  obtain ⟨world, look⟩ := same fun front hfront =>
    absurd (isSuffixOf_permissions_iff.2 ⟨front, hfront⟩) (by decide)
  obtain ⟨unchanged, answer, -⟩ :=
    refused "foo" _ "xyz" _ [] rfl readAssignments_xyz rfl rfl rfl
  have colour : [] ++ ("colour" ++ "=" ++ "red") :: [] = ["colour=red"] := rfl
  have permissions : [] ++ ("foo:permissions" ++ "=" ++ "xyz") :: [] = ["foo:permissions=xyz"] := rfl
  rw [colour, List.nil_append] at world look
  rw [permissions] at unchanged answer
  exact ⟨_, w, built, colourless, world, look, viewless, unchanged, answer⟩

/-- An inspection that succeeds fails if permissions are given in a view that there is not. -/
theorem Action.unknown_permissions_refused :
    ∃ (r : Registry) (w : World) (text : String), Config.standard.registry.result = .ok r ∧
      "basic" ∈ r.supportedViews ∧ (∀ p name, ¬ r.Routes "foo:permissions" p name) ∧
      ((Action.inspect "basic" [] []).run .standard "facetfs.toml" default w).2.result
        = .ok text ∧
      ((Action.inspect "basic" [] ["foo:permissions=xyz"]).run .standard "facetfs.toml" default
        w).2.result = .error (.notationLength "xyz") := by
  let w : World := ⟨.blank, ⟨toString, 0⟩⟩
  have built := Config.registry_standard
  have supported : "basic" ∈ Registry.supportedViews ⟨[.basic], .empty⟩ := by decide
  obtain ⟨text, printed⟩ :=
    Config.Accepted.standard.exists_inspectText built supported default w.supply
  have viewless : ∀ p name, ¬ Registry.Routes ⟨[.basic], .empty⟩ "foo:permissions" p name :=
    Registry.resolve?_eq_none_iff.1 rfl
  refine ⟨⟨[.basic], .empty⟩, w, text, built, supported, viewless, ?_, ?_⟩
  · rw [Action.run_inspect]
    exact printed
  · rw [Action.run_inspect]
    exact (inspectText_of_unreadable built creationAttributes_xyz [] w.supply).2

end AttributeViews

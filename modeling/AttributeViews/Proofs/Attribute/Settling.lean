import AttributeViews.Proofs.Attribute.StoredForms
import AttributeViews.Proofs.Registry.Catalog

/-!
# Converters settle

The lenient check of a standard attribute differs from the strict one in texts only: where the
strict check accepts a value, the lenient one gives the same answer, and what else it accepts is a
text.  What either of them answers is in stored form, and both leave a stored form as it is.

* `AttributeSpec.Keeps` — both converters leave a value alone; **`Provider.keeps_of_storedForm`**.
* `AttributeSpec.ReadsTexts` — the lenient check extends the strict one to texts;
  **`StandardAttribute.readsTexts`**.
* **`Provider.converters_settle`** — what the converters of a standard attribute make of a value,
  and of what they have made of it.
-/

namespace AttributeViews

variable {p : Provider} {spec : AttributeSpec} {view name key : String} {value stored : Value}

/-! ## Stored forms are left alone -/

/-- Both converters of an attribute leave a value as it is. -/
structure AttributeSpec.Keeps (spec : AttributeSpec) (stored : Value) : Prop where
  checked : ∀ view name, spec.check view name stored = .ok stored
  coerced : ∀ view name, spec.coerce view name stored = .ok stored

lemma gatherPermissions_map (ps : List Permission) :
    ∀ {found : PermissionSet}, gatherPermissions view name found (ps.map .permission)
      = .ok (ps.foldl PermissionSet.insert found) := by
  induction ps with
  | nil => exact rfl
  | cons p ps ih => exact ih

lemma toPermissions_permissions (s : PermissionSet) :
    toPermissions view name (.permissions s) = .ok (.permissions s) := by
  have hgather : gatherPermissions view name .empty (s.toList.map .permission) = .ok s := by
    rw [gatherPermissions_map]
    exact congrArg _ (PermissionSet.ofList_toList s)
  rw [toPermissions, Value.elements, ok_bind, hgather]
  rfl

lemma StoredForm.ne_null (h : StoredForm key stored) : stored ≠ .null := by
  cases h <;> exact Value.noConfusion

/-- **The stored form of an attribute is left alone** by its converters. -/
lemma Provider.keeps_of_storedForm (hp : p ∈ catalog)
    (declared : p.attributes.get? name = some spec) (form : StoredForm (p.qualified name) stored) :
    spec.Keeps stored := by
  generalize hk : p.qualified name = key at form
  -- the key says which attribute it is
  have same : ∀ q name' spec', q ∈ catalog → q.attributes.get? name' = some spec' →
      q.qualified name' = key → spec' = spec := by
    intro q name' spec' hq hd hk'
    obtain ⟨rfl, rfl⟩ := catalog_fitsTogether.2.2.2 q hq p hp name' name
      (Table.contains_eq_true_iff.2 ⟨_, hd⟩) (Table.contains_eq_true_iff.2 ⟨_, declared⟩)
      (hk'.trans hk.symm)
    exact Option.some.inj (hd.symm.trans declared)
  cases form with
  | time named aware =>
      rename_i name' m
      obtain rfl := same .basic name' _ (by simp [catalog]) (get?_time named) rfl
      have hm : ∀ view name, checkTime view name (.moment m) = .ok (.moment m) :=
        fun view name => checkTime_eq_ok_iff.2 ⟨m, aware, rfl, rfl⟩
      exact ⟨hm, hm⟩
  | owner u =>
      obtain rfl := same .owner "owner" _ (by simp [catalog]) rfl rfl
      exact ⟨fun _ _ => rfl, fun _ _ => rfl⟩
  | group g =>
      obtain rfl := same .posix "group" _ (by simp [catalog]) rfl rfl
      exact ⟨fun _ _ => rfl, fun _ _ => rfl⟩
  | permissions s =>
      obtain rfl := same .posix "permissions" _ (by simp [catalog]) rfl rfl
      exact ⟨fun _ _ => toPermissions_permissions s, fun _ _ => toPermissions_permissions s⟩
  | flag flag b =>
      obtain rfl := same .dos flag.name _ (by simp [catalog]) (get?_flag flag) rfl
      exact ⟨fun _ _ => rfl, fun _ _ => rfl⟩

/-! ## Texts are read besides -/

/-- The lenient check gives the answer of the strict one, or it has read a text, which the strict
one refuses. -/
structure AttributeSpec.ReadsTexts (spec : AttributeSpec) : Prop where
  extended : ∀ {view name value stored}, spec.check view name value = .ok stored →
    spec.coerce view name value = .ok stored
  besides : ∀ {view name value stored}, spec.coerce view name value = .ok stored →
    spec.check view name value = .ok stored ∨ ∃ s, value = .text s
  refused : ∀ view name s, ∃ e, spec.check view name (.text s) = .error e

lemma AttributeSpec.readsTexts_of_iff {reading : String → Value → Prop}
    (h : ∀ {view name value stored}, spec.coerce view name value = .ok stored ↔
      spec.check view name value = .ok stored ∨ ∃ s, value = .text s ∧ reading s stored)
    (refused : ∀ view name s, ∃ e, spec.check view name (.text s) = .error e) :
    spec.ReadsTexts :=
  ⟨fun checked => h.2 (Or.inl checked),
    fun coerced => (h.1 coerced).imp_right fun ⟨s, hs, _⟩ => ⟨s, hs⟩, refused⟩

lemma coercePermissions_eq_ok_iff :
    coercePermissions view name value = .ok stored ↔
      checkPermissions view name value = .ok stored ∨
        ∃ s, value = .text s ∧ ∃ granted, PermissionSet.parse s = .ok granted ∧
          stored = .permissions granted := by
  cases value with
  | text s =>
      have hcheck : checkPermissions view name (.text s) ≠ .ok stored := nofun
      simp only [hcheck, false_or, Value.text.injEq, exists_eq_left']
      exact map_eq_ok_iff
  | _ => simp [coercePermissions, checkPermissions, Value.isSet, wrongType]

/-- **The lenient checks of the standard attributes** extend the strict ones to texts. -/
lemma StandardAttribute.readsTexts (h : StandardAttribute p name spec)
    (settable : spec.settable = true) : spec.ReadsTexts := by
  -- without a lenient check of its own an attribute reads no texts
  have strict : ∀ {view name : String} {value stored : Value} {check : Converter},
      check view name value = .ok stored ↔ check view name value = .ok stored ∨
        ∃ s, value = .text s ∧ False := by simp
  cases h with
  | time _ => exact AttributeSpec.readsTexts_of_iff strict fun _ _ _ => ⟨_, rfl⟩
  | fact _ _ => cases settable
  | owner => exact AttributeSpec.readsTexts_of_iff coerceUser_eq_ok_iff fun _ _ _ => ⟨_, rfl⟩
  | group => exact AttributeSpec.readsTexts_of_iff coerceGroup_eq_ok_iff fun _ _ _ => ⟨_, rfl⟩
  | permissions =>
      exact AttributeSpec.readsTexts_of_iff coercePermissions_eq_ok_iff fun _ _ _ => ⟨_, rfl⟩
  | flag _ => exact AttributeSpec.readsTexts_of_iff strict fun _ _ _ => ⟨_, rfl⟩

/-! ## Both together -/

namespace Provider

/-- **Converters settle.**  For a standard attribute that can be set, and a value of any type: what
the strict check answers the lenient one answers, too; what the lenient one answers is left as it is
by both, however the attribute is addressed then; and a value that only the lenient one accepts is a
text, which the strict one accepts never. -/
theorem converters_settle (hp : p ∈ catalog) (declared : p.attributes.get? name = some spec)
    (settable : spec.settable = true) (view asked : String) (value : Value) :
    (∀ stored, spec.check view asked value = .ok stored →
      spec.coerce view asked value = .ok stored) ∧
    (∀ stored, spec.coerce view asked value = .ok stored → ∀ view' asked',
      spec.check view' asked' stored = .ok stored ∧
        spec.coerce view' asked' stored = .ok stored) ∧
    (∀ stored e, spec.coerce view asked value = .ok stored →
      spec.check view asked value = .error e → ∃ s, value = .text s) ∧
    ∀ s, value = .text s → ∃ e, spec.check view asked value = .error e := by
  have texts := (standardAttribute_of_mem_catalog hp declared).readsTexts settable
  have yields := yields_of_mem_catalog hp declared settable
  refine ⟨fun stored => texts.extended, fun stored coerced view' asked' => ?_,
    fun stored e coerced refused => ?_, ?_⟩
  · have keeps := keeps_of_storedForm hp declared (yields.coerced coerced)
    exact ⟨keeps.checked view' asked', keeps.coerced view' asked'⟩
  · refine (texts.besides coerced).resolve_left fun checked => ?_
    rw [refused] at checked
    cases checked
  · rintro s rfl
    exact texts.refused view asked s

/-- The notation of permissions is read by the lenient check only, and settles as a set of them. -/
theorem converters_settle_notation :
    Provider.posix ∈ catalog ∧
      Provider.posix.attributes.get? "permissions" = some permissionsAttribute ∧
      permissionsAttribute.settable = true ∧
      ∃ granted, PermissionSet.parse "rwxr-x---" = .ok granted ∧
        permissionsAttribute.coerce "posix" "permissions" (.text "rwxr-x---")
          = .ok (.permissions granted) ∧
        permissionsAttribute.check "dos" "mode" (.permissions granted) = .ok (.permissions granted) ∧
        ∃ e, permissionsAttribute.check "posix" "permissions" (.text "rwxr-x---") = .error e := by
  have hp : Provider.posix ∈ catalog := by simp [catalog]
  have declared : Provider.posix.attributes.get? "permissions" = some permissionsAttribute := rfl
  have read : PermissionSet.parse "rwxr-x---" = .ok _ := rfl
  have coerced : permissionsAttribute.coerce "posix" "permissions" (.text "rwxr-x---")
      = .ok (.permissions _) := rfl
  obtain ⟨-, settled, -, refused⟩ :=
    converters_settle hp declared rfl "posix" "permissions" (.text "rwxr-x---")
  exact ⟨hp, declared, rfl, _, read, coerced, (settled _ coerced "dos" "mode").1, refused _ rfl⟩

end Provider

end AttributeViews

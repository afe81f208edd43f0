import AttributeViews.Proofs.Attribute.StoredForms
import AttributeViews.Value.Json

/-!
# What comes of the values of attributes

A value that is given to a standard attribute is accepted or refused.  What is accepted can be
printed later on, though values of some types have no JSON text; what is refused is refused for a
reason that the user is told.

* `Value.Printable` — a value has a JSON text; **`exists_jsonOfAttributes`** — so has a table of
  such values.
* **`kind_of_jsonOfAttributes`** — and where there is none, that is because of a value.
* **`StoredForm.printable`**, `NodeFact.printable_read` — stored values have one, and facts.
* **`explains_coerce_of_mem_catalog`** — the errors of the converters for defaults are reported.
-/

namespace AttributeViews

variable {view name key : String} {value stored : Value} {e : Error}

/-! ## Printing -/

/-- A value has a JSON text. -/
def Value.Printable (v : Value) : Prop := ∃ text, v.serialize.json = .ok text

lemma exists_jsonOfAttributes {attributes : List (String × Value)}
    (h : ∀ a ∈ attributes, a.2.Printable) : ∃ text, jsonOfAttributes attributes = .ok text := by
  have hmembers : ∃ members, attributes.mapM (fun a : String × Value => do
      return (Json.quote a.1, ← a.2.serialize.json)) = .ok members := by
    refine exists_mapM_eq_ok attributes fun a ha => ?_
    obtain ⟨text, ht⟩ := h a ha
    rw [ht]
    exact ⟨_, rfl⟩
  obtain ⟨members, hm⟩ := hmembers
  exact ⟨Json.object members, by rw [jsonOfAttributes, hm, ok_bind]; rfl⟩

lemma kind_of_jsonKey (h : value.jsonKey = .error e) : e.kind = .unsuitableValue := by
  cases value <;> cases h <;> rfl

mutual
lemma kind_of_json : ∀ (v : Value) {e : Error}, v.json = .error e → e.kind = .unsuitableValue
  | .list xs, _, h | .tuple xs, _, h => by
      rw [Value.json, bind_eq_error_iff] at h
      rcases h with h | ⟨parts, -, h⟩
      · exact kind_of_jsonAll xs h
      · cases h
  | .dict entries, _, h => by
      rw [Value.json, bind_eq_error_iff] at h
      rcases h with h | ⟨members, -, h⟩
      · exact kind_of_jsonMembers entries h
      · cases h
  | .null, _, h | .bool _, _, h | .int _, _, h | .float _, _, h | .text _, _, h => by
      rw [Value.json] at h
      cases h
  | .bytes _, _, h | .set _, _, h | .frozenset _, _, h | .keys _, _, h | .permission _, _, h
  | .permissions _, _, h | .principal _, _, h | .moment _, _, h | .date _, _, h | .time _, _, h
  | .object .., _, h => by
      cases h
      rfl

lemma kind_of_jsonAll : ∀ (xs : List Value) {e : Error},
    Value.jsonAll xs = .error e → e.kind = .unsuitableValue
  | [], _, h => by
      rw [Value.jsonAll] at h
      cases h
  | x :: xs, _, h => by
      rw [Value.jsonAll, bind_eq_error_iff] at h
      rcases h with h | ⟨part, -, h⟩
      · exact kind_of_json x h
      rcases bind_eq_error_iff.1 h with h | ⟨parts, -, h⟩
      · exact kind_of_jsonAll xs h
      · cases h

lemma kind_of_jsonMembers : ∀ (entries : List (Value × Value)) {e : Error},
    Value.jsonMembers entries = .error e → e.kind = .unsuitableValue
  | [], _, h => by
      rw [Value.jsonMembers] at h
      cases h
  | (k, v) :: rest, _, h => by
      rw [Value.jsonMembers, bind_eq_error_iff] at h
      rcases h with h | ⟨key, -, h⟩
      · exact kind_of_jsonKey h
      rcases bind_eq_error_iff.1 h with h | ⟨part, -, h⟩
      · exact kind_of_json v h
      rcases bind_eq_error_iff.1 h with h | ⟨members, -, h⟩
      · exact kind_of_jsonMembers rest h
      · cases h
end

/-- **Attributes that cannot be printed** hold a value without a JSON text. -/
lemma kind_of_jsonOfAttributes {attributes : List (String × Value)}
    (h : jsonOfAttributes attributes = .error e) : e.kind = .unsuitableValue := by
  rw [jsonOfAttributes] at h
  rcases bind_eq_error_iff.1 h with h | ⟨members, -, h⟩
  · obtain ⟨a, -, ha⟩ := exists_of_mapM_eq_error h
    rcases bind_eq_error_iff.1 ha with ha | ⟨text, -, ha⟩
    · exact kind_of_json _ ha
    · cases ha
  · cases h

lemma printable_null : Value.null.Printable := ⟨_, rfl⟩

lemma printable_moment (m : Moment) : (Value.moment m).Printable := ⟨_, rfl⟩

/-- **What is stored can be printed.** -/
lemma StoredForm.printable (h : StoredForm key stored) : stored.Printable := by
  cases h with
  | time _ _ => exact printable_moment _
  | owner p => exact ⟨_, rfl⟩
  | group name => exact ⟨_, rfl⟩
  | permissions s => exact ⟨_, rfl⟩
  | flag flag b => exact ⟨_, rfl⟩

lemma NodeFact.printable_read (fact : NodeFact) (node : Node) : (fact.read node).Printable := by
  cases fact <;> exact ⟨_, rfl⟩

/-- Whatever provider reads it, an attribute of a node can be printed if what is stored on the node
can. -/
lemma Provider.printable_read {p : Provider} {node : Node}
    (h : ∀ key stored, node.attributes.get? key = some stored → stored.Printable) (name : String) :
    (p.read node name).Printable := by
  rw [read]
  cases p.attributes.get? name with
  | none => exact printable_null
  | some spec =>
      cases hf : spec.fact with
      | some fact =>
          simp only [hf]
          exact fact.printable_read node
      | none =>
          simp only [hf, Node.read]
          cases hs : node.attributes.get? (p.qualified name) with
          | none => exact printable_null
          | some stored => exact h _ _ hs

/-! ## Errors -/

/-- Every error of a converter is one that the user is told. -/
def Converter.Explains (c : Converter) : Prop :=
  ∀ view name value e, c view name value = .error e → e.kind.isExpected = true

lemma isExpected_of_wrongType {expected : List String}
    (h : wrongType view name value expected = .error e) : e.kind.isExpected = true := by
  cases h
  rfl

lemma explains_checkBool : Converter.Explains checkBool := by
  intro view name value e h
  cases value with
  | bool b => cases h
  | _ => exact isExpected_of_wrongType h

lemma explains_checkTime : Converter.Explains checkTime := by
  intro view name value e h
  cases value with
  | moment m =>
      simp only [checkTime] at h
      split_ifs at h
      exact isExpected_of_wrongType h
  | _ => exact isExpected_of_wrongType h

lemma explains_coerceUser : Converter.Explains coerceUser := by
  intro view name value e h
  cases value with
  | text s => cases h
  | principal p => cases h
  | _ => exact isExpected_of_wrongType h

lemma explains_coerceGroup : Converter.Explains coerceGroup := by
  intro view name value e h
  cases value with
  | text s => cases h
  | principal p =>
      simp only [coerceGroup] at h
      split_ifs at h
      exact isExpected_of_wrongType h
  | _ => exact isExpected_of_wrongType h

lemma kind_of_readPlaces {text : String} (ps : List Permission) :
    ∀ {granted : PermissionSet} {index : Nat} {cs : List Char},
      PermissionSet.readPlaces text granted index ps cs = .error e →
        e.kind = .invalidPermissionString := by
  induction ps with
  | nil =>
      intro granted index cs h
      cases h
  | cons p ps ih =>
      intro granted index cs h
      cases cs with
      | nil => cases h
      | cons c cs =>
          rw [PermissionSet.readPlaces] at h
          split_ifs at h
          · exact ih h
          · exact ih h
          · cases h
            rfl

lemma kind_of_parse {text : String} (h : PermissionSet.parse text = .error e) :
    e.kind = .invalidPermissionString := by
  rw [PermissionSet.parse] at h
  split_ifs at h
  · exact kind_of_readPlaces _ h
  · cases h
    rfl

lemma isExpected_of_gatherPermissions (elements : List Value) :
    ∀ {found : PermissionSet}, gatherPermissions view name found elements = .error e →
      e.kind.isExpected = true := by
  induction elements with
  | nil =>
      intro found h
      cases h
  | cons v rest ih =>
      intro found h
      cases v with
      | permission p => exact ih h
      | _ =>
          cases h
          rfl

/-- Only a value without elements could fail for another reason, and a set has them. -/
lemma isExpected_of_toPermissions (isSet : value.isSet = true)
    (h : toPermissions view name value = .error e) : e.kind.isExpected = true := by
  have helements : ∃ elements, value.elements = .ok elements := by
    cases value with
    | set xs => exact ⟨xs, rfl⟩
    | frozenset xs => exact ⟨xs, rfl⟩
    | keys xs => exact ⟨xs, rfl⟩
    | permissions s => exact ⟨_, rfl⟩
    | _ => cases isSet
  obtain ⟨elements, he⟩ := helements
  rw [toPermissions, he, ok_bind] at h
  exact isExpected_of_gatherPermissions _ (map_eq_error_iff.1 h)

lemma explains_coercePermissions : Converter.Explains coercePermissions := by
  intro view name value e h
  simp only [coercePermissions] at h
  split at h
  · rw [kind_of_parse (map_eq_error_iff.1 h)]
    rfl
  · split_ifs at h with hs
    · exact isExpected_of_toPermissions hs h
    · exact isExpected_of_wrongType h

/-- **A default that is refused** is refused with an explanation. -/
lemma explains_coerce_of_mem_catalog {p : Provider} {spec : AttributeSpec}
    (hp : p ∈ Provider.catalog) (declared : p.attributes.get? name = some spec) :
    spec.coerce.Explains := by
  cases Provider.standardAttribute_of_mem_catalog hp declared with
  | time named => exact explains_checkTime
  | fact fact other =>
      intro view name value e h
      cases h
      rfl
  | owner => exact explains_coerceUser
  | group => exact explains_coerceGroup
  | permissions => exact explains_coercePermissions
  | flag flag => exact explains_checkBool

end AttributeViews

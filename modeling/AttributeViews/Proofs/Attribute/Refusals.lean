import AttributeViews.Proofs.Attribute.StoredForms
import AttributeViews.Proofs.Registry.Standard

/-!
# Why an attribute is refused

Three things are asked before a value is stored: whether the attribute can be set at all, whether
it can be set while its file is being created, and whether it takes the value.  The first one that
fails decides about the error.  The checks are handed the view by which the caller addressed the
attribute, so the error is about the key that the caller wrote, whatever view owns the attribute.

* **`Provider.write_eq_error_iff`** — when an attribute is refused, and with which error.
* `AttributeSpec.Refuses` — the reasons, by the kind of the error.
* `Error.attribute?` — the key that an error is about; `Error.quotes_attribute`.
* **`strict_check_of_mem_catalog`** — what a strict check refuses is of the wrong type.
* `Registry.reportedKey` — the key that the caller wrote.
* **`Registry.Standard.exists_set_eq_error_iff`**, **`Registry.Standard.attribute?_of_set`** — the
  same for setting by address.
-/

namespace AttributeViews

variable {r : Registry} {p : Provider} {spec : AttributeSpec} {node : Node}
  {view name address key : String} {value : Value} {creating : Bool} {e : Error}

/-! ## The three reasons -/

lemma checkNotCreating_eq_error_iff :
    checkNotCreating view name creating = .error e ↔
      creating = true ∧ e = .creationRestricted view name := by
  cases creating <;> simp [checkNotCreating, @eq_comm _ _ e]

/-- **Refusing a declared attribute.**  It cannot be set; or it can, but not while the file is being
created, which it is; or neither of them holds and its check refuses the value. -/
lemma Provider.write_eq_error_iff (declared : p.attributes.get? name = some spec) :
    p.write node view name value creating = .error e ↔
      (spec.settable = false ∧ e = .unsettable view name) ∨
      (spec.settable = true ∧ spec.creationRestricted = true ∧ creating = true ∧
        e = .creationRestricted view name) ∨
      (spec.settable = true ∧ (spec.creationRestricted = true → creating = false) ∧
        spec.check view name value = .error e) := by
  rw [Provider.write, declared]
  by_cases hs : spec.settable = true
  · by_cases hr : spec.creationRestricted = true
    · simp [hs, hr, bind_eq_error_iff, map_eq_error_iff, checkNotCreating_eq_error_iff,
        checkNotCreating_eq_ok_iff]
    · simp [hs, hr, map_eq_error_iff]
  · simp only [Bool.not_eq_true] at hs
    simp [hs, @eq_comm _ _ e]

/-- The reasons to refuse an attribute, each under the kind of its errors. -/
def AttributeSpec.Refuses (spec : AttributeSpec) (view name : String) (value : Value)
    (creating : Bool) : ErrorKind → Prop
  | .unsettableAttribute => spec.settable = false
  | .creationRestricted =>
      spec.settable = true ∧ spec.creationRestricted = true ∧ creating = true
  | .invalidAttributeType =>
      spec.settable = true ∧ (spec.creationRestricted = true → creating = false) ∧
        ∃ e, spec.check view name value = .error e
  | _ => False

/-! ## The errors -/

namespace Error

/-- The key that an error is about, if it is about an attribute by which it was addressed. -/
def attribute? : Error → Option String
  | invalidType view name .. | invalidElement view name _ | creationRestricted view name
  | unsettable view name => some (view ++ ":" ++ name)
  | _ => none

/-- The key that an error is about stands in its message. -/
lemma quotes_attribute (h : e.attribute? = some key) :
    ∃ before after, e.message = before ++ key ++ after := by
  cases e with
  | invalidType view name found expected =>
      obtain rfl := Option.some.inj h
      refine ⟨"Invalid type " ++ found ++ " for attribute ",
        ": should be " ++ " or ".intercalate expected, ?_⟩
      show "Invalid type " ++ found ++ " for attribute " ++ view ++ ":" ++ name ++ ": should be "
        ++ " or ".intercalate expected = _
      simp only [String.append_assoc]
  | invalidElement view name found =>
      obtain rfl := Option.some.inj h
      refine ⟨"Invalid element for attribute ",
        ": should be a set of PosixPermission, found element of type " ++ found, ?_⟩
      show "Invalid element for attribute " ++ view ++ ":" ++ name
        ++ ": should be a set of PosixPermission, found element of type " ++ found = _
      simp only [String.append_assoc]
  | creationRestricted view name =>
      obtain rfl := Option.some.inj h
      refine ⟨"Cannot set attribute ", " during file creation", ?_⟩
      show "Cannot set attribute " ++ view ++ ":" ++ name ++ " during file creation" = _
      simp only [String.append_assoc]
  | unsettable view name =>
      obtain rfl := Option.some.inj h
      refine ⟨"Attribute ", " cannot be set", ?_⟩
      show "Attribute " ++ view ++ ":" ++ name ++ " cannot be set" = _
      simp only [String.append_assoc]
  | _ => cases h

/-- The errors of a value that is of the wrong type for the attribute that is addressed. -/
def IsTypeOf (view name : String) (e : Error) : Prop :=
  e.kind = .invalidAttributeType ∧ e.attribute? = some (view ++ ":" ++ name)

end Error

/-! ## Strict checks -/

/-- A check refuses values for their type only, and says for which attribute. -/
def Converter.Strict (check : Converter) : Prop :=
  ∀ {view name value e}, check view name value = .error e → e.IsTypeOf view name

lemma isTypeOf_of_wrongType {expected : List String}
    (h : wrongType view name value expected = .error e) : e.IsTypeOf view name := by
  obtain rfl := Except.error.inj h
  exact ⟨rfl, rfl⟩

lemma strict_checkBool : Converter.Strict checkBool := by
  intro view name value e h
  cases value with
  | bool b => cases h
  | _ => exact isTypeOf_of_wrongType h

lemma strict_checkTime : Converter.Strict checkTime := by
  intro view name value e h
  cases value with
  | moment time =>
      simp only [checkTime] at h
      split_ifs at h
      exact isTypeOf_of_wrongType h
  | _ => exact isTypeOf_of_wrongType h

lemma strict_checkUser : Converter.Strict checkUser := by
  intro view name value e h
  cases value with
  | principal user => cases h
  | _ => exact isTypeOf_of_wrongType h

lemma strict_checkGroup : Converter.Strict checkGroup := by
  intro view name value e h
  cases value with
  | principal group =>
      simp only [checkGroup] at h
      split_ifs at h
      exact isTypeOf_of_wrongType h
  | _ => exact isTypeOf_of_wrongType h

lemma isTypeOf_of_gatherPermissions (elements : List Value) :
    ∀ {found : PermissionSet}, gatherPermissions view name found elements = .error e →
      e.IsTypeOf view name := by
  induction elements with
  | nil =>
      intro found h
      cases h
  | cons first rest ih =>
      intro found h
      cases first with
      | permission permission => exact ih h
      | _ =>
          obtain rfl := Except.error.inj h
          exact ⟨rfl, rfl⟩

/-- A set has elements, so what is refused is one of these. -/
lemma strict_checkPermissions : Converter.Strict checkPermissions := by
  intro view name value e h
  rw [checkPermissions] at h
  split_ifs at h with hs
  · have helements : ∃ elements, value.elements = .ok elements := by
      cases value <;> first | exact ⟨_, rfl⟩ | cases hs
    obtain ⟨elements, he⟩ := helements
    rw [toPermissions, he, ok_bind] at h
    exact isTypeOf_of_gatherPermissions _ (map_eq_error_iff.1 h)
  · exact isTypeOf_of_wrongType h

/-- **What the check of a standard attribute refuses** is of the wrong type. -/
lemma strict_check_of_mem_catalog (hp : p ∈ Provider.catalog)
    (declared : p.attributes.get? name = some spec) (settable : spec.settable = true) :
    spec.check.Strict := by
  cases Provider.standardAttribute_of_mem_catalog hp declared with
  | time named => exact strict_checkTime
  | fact fact other => cases settable
  | owner => exact strict_checkUser
  | group => exact strict_checkGroup
  | permissions => exact strict_checkPermissions
  | flag flag => exact strict_checkBool

namespace Provider

/-- **A standard attribute is refused for one of the reasons**, with an error of the kind that goes
with it. -/
lemma exists_write_eq_error_iff (hp : p ∈ catalog)
    (declared : p.attributes.get? name = some spec) {kind : ErrorKind} :
    (∃ e, p.write node view name value creating = .error e ∧ e.kind = kind) ↔
      spec.Refuses view name value creating kind := by
  constructor
  · rintro ⟨e, h, rfl⟩
    rcases (write_eq_error_iff declared).1 h with
      ⟨hs, rfl⟩ | ⟨hs, hr, hc, rfl⟩ | ⟨hs, allowed, refused⟩
    · exact hs
    · exact ⟨hs, hr, hc⟩
    · rw [(strict_check_of_mem_catalog hp declared hs refused).1]
      exact ⟨hs, allowed, e, refused⟩
  · intro h
    cases kind with
    | unsettableAttribute =>
        exact ⟨_, (write_eq_error_iff declared).2 (Or.inl ⟨h, rfl⟩), rfl⟩
    | creationRestricted =>
        obtain ⟨hs, hr, hc⟩ := h
        exact ⟨_, (write_eq_error_iff declared).2 (Or.inr (Or.inl ⟨hs, hr, hc, rfl⟩)), rfl⟩
    | invalidAttributeType =>
        obtain ⟨hs, allowed, e, refused⟩ := h
        exact ⟨e, (write_eq_error_iff declared).2 (Or.inr (Or.inr ⟨hs, allowed, refused⟩)),
          (strict_check_of_mem_catalog hp declared hs refused).1⟩
    | _ => exact h.elim

/-- The error is about the attribute as it was addressed. -/
lemma attribute?_of_write (hp : p ∈ catalog) (declared : p.attributes.get? name = some spec)
    (h : p.write node view name value creating = .error e) :
    e.attribute? = some (view ++ ":" ++ name) := by
  rcases (write_eq_error_iff declared).1 h with
    ⟨-, rfl⟩ | ⟨-, -, -, rfl⟩ | ⟨settable, -, refused⟩
  · rfl
  · rfl
  · exact (strict_check_of_mem_catalog hp declared settable refused).2

end Provider

/-! ## The key that is reported -/

namespace Registry

/-- The key by which an attribute of an owner is reported: the address as the caller wrote it,
behind the name of the owner if it names no view. -/
def reportedKey (address : String) (owner : Provider) : String :=
  if ':' ∈ address.toList then address else owner.name ++ ":" ++ address

/-- The view and the name that are handed to the checks make up the key. -/
lemma Standard.reportedView_append (standard : r.Standard) (routes : r.Routes address p name) :
    reportedView address p ++ ":" ++ name = reportedKey address p := by
  cases routes with
  | bare plain first => rw [reportedKey, if_neg plain, reportedView, splitAddress_bare plain]
  | @prefixed view name _ plain registered first =>
      have hv : view ≠ "" := (standard.named_of_mem_names registered).1
      have hcolon : ':' ∈ (view ++ ":" ++ name).toList := by simp
      rw [reportedKey, if_pos hcolon, reportedView, splitAddress_append plain]
      split
      · next h => cases h
      · next h => exact absurd (Option.some.inj h) hv
      · next h => rw [Option.some.inj h]

/-- An address leads to an attribute whose owner, name and description meet a condition. -/
def ResolvesTo (r : Registry) (address : String)
    (condition : Provider → String → AttributeSpec → Prop) : Prop :=
  ∃ p name spec, r.Routes address p name ∧ p.attributes.get? name = some spec ∧
    condition p name spec

lemma get?_of_routes (routes : r.Routes address p name) :
    ∃ spec, p.attributes.get? name = some spec :=
  Table.contains_eq_true_iff.1 routes.supports

lemma set_of_routes (routes : r.Routes address p name) :
    r.set node address value creating
      = p.write node (reportedView address p) name value creating := by
  rw [set, resolve?_eq_some_iff_routes.2 routes]

/-- An address whose setting is refused leads to an attribute. -/
lemma exists_routes_of_set (h : r.set node address value creating = .error e) :
    ∃ p name spec, r.Routes address p name ∧ p.attributes.get? name = some spec ∧
      p.write node (reportedView address p) name value creating = .error e := by
  cases ho : r.resolve? address with
  | none =>
      rw [set_of_no_route (resolve?_eq_none_iff.1 ho)] at h
      cases h
  | some owner =>
      have routes := resolve?_eq_some_iff_routes.1 ho
      obtain ⟨spec, declared⟩ := get?_of_routes routes
      exact ⟨owner.1, owner.2, spec, routes, declared, (set_of_routes routes).symm.trans h⟩

/-- **Setting by address is refused for one of the reasons** that the attribute has to which the
address leads. -/
lemma Standard.exists_set_eq_error_iff (standard : r.Standard) {kind : ErrorKind} :
    (∃ e, r.set node address value creating = .error e ∧ e.kind = kind) ↔
      r.ResolvesTo address fun p name spec =>
        spec.Refuses (reportedView address p) name value creating kind := by
  constructor
  · rintro ⟨e, h, hk⟩
    obtain ⟨p, name, spec, routes, declared, hw⟩ := exists_routes_of_set h
    have hp := standard.catalog p routes.registered
    exact ⟨p, name, spec, routes, declared,
      (Provider.exists_write_eq_error_iff hp declared).1 ⟨e, hw, hk⟩⟩
  · rintro ⟨p, name, spec, routes, declared, reason⟩
    have hp := standard.catalog p routes.registered
    rw [set_of_routes routes]
    exact (Provider.exists_write_eq_error_iff hp declared).2 reason

/-- **The error is about the key that the caller wrote**. -/
lemma Standard.attribute?_of_set (standard : r.Standard)
    (h : r.set node address value creating = .error e) :
    ∃ p name, r.Routes address p name ∧ e.attribute? = some (reportedKey address p) := by
  obtain ⟨p, name, spec, routes, declared, hw⟩ := exists_routes_of_set h
  have hp := standard.catalog p routes.registered
  refine ⟨p, name, routes, ?_⟩
  rw [← standard.reportedView_append routes]
  exact Provider.attribute?_of_write hp declared hw

end Registry

end AttributeViews

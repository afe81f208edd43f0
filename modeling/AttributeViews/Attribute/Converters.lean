import AttributeViews.Attribute
import AttributeViews.Permission.Notation
import AttributeViews.Value.Elements

/-!
# The converters

For every type of attribute a strict check and, where texts are accepted for convenience, a lenient
one.  A strict check refuses every type but its own; a group of a directory service is stored as the
plain group of that name, and a set of permissions as a frozen one.

* `checkBool`, `checkTime`, `checkUser`, `checkGroup`, `checkPermissions` — the strict checks.
* `coerceUser`, `coerceGroup`, `coercePermissions` — the lenient ones.
* `refuse` — the check of an attribute that takes no value.
-/

namespace AttributeViews

/-- The error about a value of another type than the expected ones. -/
def wrongType (view name : String) (value : Value) (expected : List String) :
    Except Error Value :=
  .error (.invalidType view name value.typeName expected)

/-- Nothing is accepted. -/
def refuse : Converter := fun view name _ => .error (.unsettable view name)

/-- Truth values only. -/
def checkBool : Converter := fun view name value =>
  match value with
  | .bool b => .ok (.bool b)
  | v => wrongType view name v ["bool"]

/-- Aware moments only. -/
def checkTime : Converter := fun view name value =>
  match value with
  | .moment m =>
      if m.isAware then .ok (.moment m)
      else wrongType view name (.moment m) ["timezone-aware datetime"]
  | v => wrongType view name v ["timezone-aware datetime"]

/-! ## Principals -/

/-- Any principal. -/
def checkUser : Converter := fun view name value =>
  match value with
  | .principal p => .ok (.principal p)
  | v => wrongType view name v ["UserPrincipal"]

/-- Any principal, or the name of a user. -/
def coerceUser : Converter := fun view name value =>
  match value with
  | .text s => .ok (.principal (.user s))
  | .principal p => .ok (.principal p)
  | v => wrongType view name v ["str", "UserPrincipal"]

/-- Groups, stored as plain groups. -/
def checkGroup : Converter := fun view name value =>
  match value with
  | .principal p =>
      if p.isGroup then .ok (.principal p.plainGroup)
      else wrongType view name (.principal p) ["GroupPrincipal"]
  | v => wrongType view name v ["GroupPrincipal"]

/-- Groups, stored as plain groups, or the name of one. -/
def coerceGroup : Converter := fun view name value =>
  match value with
  | .text s => .ok (.principal (.group s))
  | .principal p =>
      if p.isGroup then .ok (.principal p.plainGroup)
      else wrongType view name (.principal p) ["str", "GroupPrincipal"]
  | v => wrongType view name v ["str", "GroupPrincipal"]

/-! ## Permissions -/

/-- The permissions of a list; the first element that is none is the reason to refuse it. -/
def gatherPermissions (view name : String) (found : PermissionSet) :
    List Value → Except Error PermissionSet
  | [] => .ok found
  | .permission p :: rest => gatherPermissions view name (found.insert p) rest
  | v :: _ => .error (.invalidElement view name v.typeName)

/-- The elements of a value as a set of permissions. -/
def toPermissions : Converter := fun view name value => do
  let elements ← value.elements
  return .permissions (← gatherPermissions view name .empty elements)

/-- Sets of permissions. -/
def checkPermissions : Converter := fun view name value =>
  if value.isSet then toPermissions view name value
  else wrongType view name value ["set of PosixPermission"]

/-- Sets of permissions, or the notation of one. -/
def coercePermissions : Converter := fun view name value =>
  match value with
  | .text s => return .permissions (← PermissionSet.parse s)
  | v =>
      if v.isSet then toPermissions view name v
      else wrongType view name v ["str", "set of PosixPermission"]

/-! ## Creation -/

/-- Refuse an attribute while its node is being created. -/
def checkNotCreating (view name : String) (creating : Bool) : Except Error Unit :=
  if creating then .error (.creationRestricted view name) else .ok ()

end AttributeViews

import AttributeViews.Calendar
import AttributeViews.Decimal.Double
import AttributeViews.Permission
import AttributeViews.Principal

/-!
# Attribute values

The values that callers hand to attributes and that configuration documents hold.  An attribute
accepts only some of them, but which ones is decided by its converters, so the type has them all.
Objects of classes that are not known here have one constructor in common.

A frozen set of permissions is the stored form of the permission attribute and has a constructor of
its own, `permissions`; `Value.frozen` chooses it whenever all elements are permissions.

* `Value.typeName` — the type of a value, as messages name it.
* `Value.truthy` — whether a value counts as true.
* `Value.isSet` — which values count as sets.
-/

namespace AttributeViews

/-- A value of any type. -/
inductive Value where
  /-- The absent value. -/
  | null
  | bool (b : Bool)
  | int (n : Int)
  | float (x : Decimal.Double)
  | text (s : String)
  | bytes (bs : List UInt8)
  | list (xs : List Value)
  | tuple (xs : List Value)
  /-- A set that can change. -/
  | set (xs : List Value)
  /-- A set that cannot change. -/
  | frozenset (xs : List Value)
  /-- The keys of a table, seen as a set. -/
  | keys (xs : List Value)
  /-- A table from values to values, oldest key first. -/
  | dict (entries : List (Value × Value))
  | permission (p : Permission)
  /-- A frozen set of permissions. -/
  | permissions (s : PermissionSet)
  | principal (p : Principal)
  | moment (m : Moment)
  | date (d : Date)
  | time (t : TimeOfDay)
  /-- An object of some other class, by the name of the class and a number of its own.  It is equal
  to itself only, counts as true, and cannot be walked through. -/
  | object (title : String) (number : Nat)
deriving Inhabited

namespace Value

/-- The type of a value, as messages name it. -/
def typeName : Value → String
  | null => "NoneType"
  | bool _ => "bool"
  | int _ => "int"
  | float _ => "float"
  | text _ => "str"
  | bytes _ => "bytes"
  | list _ => "list"
  | tuple _ => "tuple"
  | set _ => "set"
  | frozenset _ | permissions _ => "frozenset"
  | keys _ => "dict_keys"
  | dict _ => "dict"
  | permission _ => "PosixPermission"
  | principal p => p.kind.title
  | moment _ => "datetime"
  | date _ => "date"
  | time _ => "time"
  | object title _ => title

/-- The type of a value with the family that the calendar types belong to. -/
def familyTypeName (v : Value) : String :=
  match v with
  | moment _ | date _ | time _ => "datetime." ++ v.typeName
  | _ => v.typeName

/-- The type of a value of a configuration document, as messages about the document name it. -/
def classText (v : Value) : String := "<class '" ++ v.familyTypeName ++ "'>"

/-- Whether a value counts as true. -/
def truthy : Value → Bool
  | null => false
  | bool b => b
  | int n => n != 0
  | float x => !x.isZero
  | text s => !s.isEmpty
  | bytes bs => !bs.isEmpty
  | list xs | tuple xs | set xs | frozenset xs | keys xs => !xs.isEmpty
  | dict entries => !entries.isEmpty
  | permissions s => s != .empty
  | permission _ | principal _ | moment _ | date _ | time _ | object .. => true

/-- Whether a value is absent. -/
def isNull : Value → Bool
  | null => true
  | _ => false

/-- Whether a value counts as a set. -/
def isSet : Value → Bool
  | set _ | frozenset _ | keys _ | permissions _ => true
  | _ => false

/-- The permission that a value is, if it is one. -/
def permission? : Value → Option Permission
  | permission p => some p
  | _ => none

/-- The text that a value is, if it is one. -/
def text? : Value → Option String
  | text s => some s
  | _ => none

end Value

end AttributeViews

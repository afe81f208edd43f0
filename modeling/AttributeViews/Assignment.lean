import AttributeViews.Document.Reader
import AttributeViews.Permission.Notation
import AttributeViews.Text.Split

/-!
# Assignments

Arguments such as `posix:group=staff` give a key a value.  What stands behind the first equals sign
is read as a value of a document where it is one, so `true` is a truth value, and is taken as plain
text otherwise.

* `readAssignment` — one argument.
* `readAssignments` — several; a later one overwrites an earlier one of the same key.
* `creationValue` — the form in which an assigned value is given to a file being created.
-/

namespace AttributeViews

/-- The value that an assignment gives: what the document `v = …` has for `v`, or the text. -/
def assignedValue (raw : String) : Value :=
  match Document.parse ("v = " ++ raw) with
  | some document => (document.get? "v").getD (.text raw)
  | none => .text raw

/-- A key and a value, with the first equals sign between them; the key is not empty. -/
def readAssignment (argument : String) : Except Error (String × Value) :=
  match Text.cut? '=' argument with
  | none | some ("", _) => .error (.invalidAssignment argument)
  | some (key, raw) => .ok (key, assignedValue raw)

/-- The keys and values of arguments, written one after the other. -/
def readAssignments (arguments : List String) : Except Error (Table String Value) := do
  return .ofList (← arguments.mapM readAssignment)

/-- The form of a value for a file being created: a text for permissions is their notation. -/
def creationValue (key : String) (value : Value) : Except Error Value :=
  match value with
  | .text s =>
      if ":permissions".toList.isSuffixOf key.toList then
        return .permissions (← PermissionSet.parse s)
      else .ok (.text s)
  | v => .ok v

/-- The attributes that a file is created with, in the order in which their keys are first given. -/
def creationAttributes (arguments : List String) : Except Error (List (String × Value)) := do
  let assigned ← readAssignments arguments
  assigned.entries.mapM fun (key, value) => return (key, ← creationValue key value)

end AttributeViews

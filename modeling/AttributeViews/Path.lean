import AttributeViews.Text.Split

/-!
# Paths

A path is a root and the list of names below it.  It is read from a text by splitting it at the
slashes: empty names and `.` vanish, `..` is a name like any other, and a text that does not start
with a slash hangs below the root.  Exactly two slashes in front denote a root of their own.

* `Path.ofText`, `Path.toText` — reading and writing.
* `Path.parent`, `Path.within`, `Path.rebase` — the relation of paths to each other.
* `Path.before` — the order in which paths are listed: part by part, by code points.
* `Path.tidy` — the shown form of a path of the surrounding system.
-/

namespace AttributeViews

/-- A root and the names below it. -/
structure Path where
  /-- Whether the root is the one of two slashes. -/
  doubleRoot : Bool
  names : List String
deriving DecidableEq, Inhabited

namespace Path

/-- The root of the tree. -/
def root : Path := ⟨false, []⟩

/-- Whether a text starts with exactly two slashes. -/
def startsDouble : List Char → Bool
  | '/' :: '/' :: '/' :: _ => false
  | '/' :: '/' :: _ => true
  | _ => false

/-- Whether a part of a text counts as a name. -/
def isName (part : String) : Bool := part ≠ "" && part ≠ "."

/-- The path that a text is read as. -/
def ofText (s : String) : Path :=
  ⟨startsDouble s.toList, (Text.pieces '/' s).filter isName⟩

/-- The root as it is written. -/
def rootText (p : Path) : String := if p.doubleRoot then "//" else "/"

/-- The path as it is written. -/
def toText (p : Path) : String := p.rootText ++ "/".intercalate p.names

/-- The path without its last name; a root is its own parent. -/
def parent (p : Path) : Path := { p with names := p.names.dropLast }

/-- Whether a path is at or below another one. -/
def within (p base : Path) : Bool :=
  p.doubleRoot == base.doubleRoot && base.names.isPrefixOf p.names

/-- The path that stands to `target` as `p` stands to `source`, at or below which it is. -/
def rebase (p source target : Path) : Path :=
  { target with names := target.names ++ p.names.drop source.names.length }

/-- The order of lists of names: by the first name that differs, and a beginning first. -/
def namesBefore : List String → List String → Bool
  | [], [] => false
  | [], _ :: _ => true
  | _ :: _, [] => false
  | a :: as, b :: bs => if a = b then namesBefore as bs else decide (a < b)

/-- The order in which paths are listed. -/
def before (p q : Path) : Bool :=
  if p.doubleRoot = q.doubleRoot then namesBefore p.names q.names else q.doubleRoot

/-- A text that names a file of the system, in the form in which it is shown: empty and `.` parts
left out, but relative if it was so. -/
def tidy (s : String) : String :=
  let p := ofText s
  let front := if s.startsWith "/" then p.rootText else ""
  let text := front ++ "/".intercalate p.names
  if text = "" then "." else text

end Path

end AttributeViews

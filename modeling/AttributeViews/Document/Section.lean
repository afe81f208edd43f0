import AttributeViews.Value

/-!
# Sections of documents

A document is a tree of tables that grows statement by statement.  What a statement may still add to
a table depends on how the table came about, so every table carries a mark.

* A table that a header names is *declared*, and cannot be declared again.
* A table on the way to a declared one is *implied*, and can be declared later.
* A table that the keys of a section have made is *dotted*: the keys of that section may add to it,
  those of a later one may not, nor may a header declare it.
* A written value is finished, also if it is a table or an array.
* An array of tables takes further tables at its end, and whatever is added below it goes to the
  last one.

`declare`, `append` and `assign` are what the three kinds of statement do; `Item.value` is the tree
as a value.
-/

namespace AttributeViews.Document

/-- How a table came about. -/
inductive Mark where
  | implied
  | declared
  /-- Made by the keys of the section with this number. -/
  | dotted (made : Nat)
deriving DecidableEq, Inhabited

/-- A node of the tree. -/
inductive Item where
  /-- A written value. -/
  | written (value : Value)
  | table (mark : Mark) (entries : List (String × Item))
  /-- An array of tables: the finished ones and the last one. -/
  | tables (finished : List Value) (last : List (String × Item))
deriving Inhabited

/-- What a table holds, in the order of its first mention. -/
abbrev Entries := List (String × Item)

namespace Entries

/-- The item of a key. -/
def find? (key : String) : Entries → Option Item
  | [] => none
  | (k, item) :: rest => if k = key then some item else find? key rest

/-- Give a key an item: in its place if it is there, else at the end. -/
def put (key : String) (item : Item) : Entries → Entries
  | [] => [(key, item)]
  | (k, old) :: rest => if k = key then (k, item) :: rest else (k, old) :: put key item rest

end Entries

/-! ## The tree as a value -/

mutual
/-- An item as a value: an array of tables becomes a list of them. -/
def Item.value : Item → Value
  | .written v => v
  | .table _ entries => .dict (Entries.values entries)
  | .tables finished last => .list (finished ++ [.dict (Entries.values last)])

/-- What a table holds, as keys and values. -/
def Entries.values : List (String × Item) → List (Value × Value)
  | [] => []
  | (key, item) :: rest => (.text key, item.value) :: Entries.values rest
end

/-! ## Statements -/

/-- Whether a table takes no more keys from a section. -/
def Mark.isClosed (current : Nat) : Mark → Bool
  | .implied => false
  | .declared => true
  | .dotted made => made < current

/-- Change the table at the end of a path of headers.  Missing tables on the way are implied, and an
array of tables is entered at its last one. -/
def below (change : Entries → Option Entries) : List String → Entries → Option Entries
  | [], entries => change entries
  | key :: path, entries =>
      match entries.find? key with
      | none => do return entries.put key (.table .implied (← below change path []))
      | some (.table mark inner) => do
          return entries.put key (.table mark (← below change path inner))
      | some (.tables finished last) => do
          return entries.put key (.tables finished (← below change path last))
      | some (.written _) => none

/-- Open a section in the table that it belongs to.  Only a table that other sections have implied
may stand there already. -/
def declareHere (key : String) (entries : Entries) : Option Entries :=
  match entries.find? key with
  | none => some (entries.put key (.table .declared []))
  | some (.table .implied inner) => some (entries.put key (.table .declared inner))
  | some _ => none

/-- Start another table in the array of a key. -/
def appendHere (key : String) (entries : Entries) : Option Entries :=
  match entries.find? key with
  | none => some (entries.put key (.tables [] []))
  | some (.tables finished last) =>
      some (entries.put key (.tables (finished ++ [.dict (Entries.values last)]) []))
  | some _ => none

/-- Give a dotted key a value in a section.  The tables on the way must be open to it, and the last
key must be new. -/
def assignHere (current : Nat) (value : Value) : List String → Entries → Option Entries
  | [], _ => none
  | [key], entries =>
      match entries.find? key with
      | none => some (entries.put key (.written value))
      | some _ => none
  | key :: path, entries =>
      match entries.find? key with
      | none => do
          return entries.put key (.table (.dotted current) (← assignHere current value path []))
      | some (.table mark inner) =>
          if mark.isClosed current then none
          else do
            return entries.put key
              (.table (.dotted current) (← assignHere current value path inner))
      | some _ => none

/-- The statement of a header: declare the table at its path. -/
def declare (path : List String) (entries : Entries) : Option Entries := do
  let key ← path.getLast?
  below (declareHere key) path.dropLast entries

/-- The statement of a double header: start another table in the array at its path. -/
def append (path : List String) (entries : Entries) : Option Entries := do
  let key ← path.getLast?
  below (appendHere key) path.dropLast entries

/-- The statement of a key: give it a value below the header of its section. -/
def assign (header : List String) (current : Nat) (path : List String) (value : Value)
    (entries : Entries) : Option Entries :=
  below (assignHere current value path) header entries

end AttributeViews.Document

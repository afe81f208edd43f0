import AttributeViews.Path
import AttributeViews.Table

/-!
# Disks

The files of the system on which the program runs, as far as it uses them: folders, and text files
in them.  A path is followed name by name from the root, or from the working folder if it does not
start with a slash; `..` leads back to the folder above, and every place on the way has to be a
folder that exists.

* `Disk.follow` — the place to which names lead.
* `Disk.read` — the text of a file.
* `Disk.write` — writing a file.  The folders on the way to it are made as they are needed.
-/

namespace AttributeViews

/-- Where a file or a folder is: the names that lead to it from the root, none of them `..`. -/
abbrev Place := List String

/-- What stands at a place. -/
inductive DiskEntry where
  | folder
  | file (text : String)
deriving DecidableEq

/-- Why a path does not lead to a text file. -/
inductive Obstacle where
  /-- Something on the path, or at its end, does not exist. -/
  | missing
  /-- A file stands where a folder is needed, or a folder at the end. -/
  | blocked
deriving DecidableEq

/-- Folders and text files by their places, and the working folder.  The root always exists. -/
structure Disk where
  working : Place
  entries : Table Place DiskEntry

namespace Disk

/-- The disk of nothing but the root. -/
def blank : Disk := ⟨[], .ofList [([], .folder)]⟩

/-- What stands at a place. -/
def entry? (d : Disk) (place : Place) : Option DiskEntry := d.entries.get? place

/-- Put a folder or a file at a place. -/
def put (d : Disk) (place : Place) (entry : DiskEntry) : Disk :=
  { d with entries := d.entries.insert place entry }

/-! ## Following a path -/

/-- The place to which a name leads from a folder. -/
def step (place : Place) (name : String) : Place :=
  if name = ".." then place.dropLast else place ++ [name]

/-- The place to which names lead. -/
def follow (d : Disk) : Place → List String → Except Obstacle Place
  | place, [] => .ok place
  | place, name :: rest =>
      match d.entry? place with
      | some .folder => d.follow (step place name) rest
      | some (.file _) => .error .blocked
      | none => .error .missing

/-- Where a path starts: at the root if a slash stands in front, else in the working folder. -/
def start (d : Disk) (path : String) : Place := if path.startsWith "/" then [] else d.working

/-- The names along a path. -/
def namesOf (path : String) : List String := (Path.ofText path).names

/-- The text of the file at a path. -/
def read (d : Disk) (path : String) : Except Obstacle String := do
  match d.entry? (← d.follow (d.start path) (namesOf path)) with
  | some (.file text) => .ok text
  | some .folder => .error .blocked
  | none => .error .missing

/-- Whether a path leads to a file or a folder. -/
def holds (d : Disk) (path : String) : Bool :=
  match d.follow (d.start path) (namesOf path) with
  | .ok place => (d.entry? place).isSome
  | .error _ => false

/-! ## Writing -/

/-- Make a folder unless it exists; not where a file stands. -/
def enter (d : Disk) (place : Place) : Except Obstacle Disk :=
  match d.entry? place with
  | some .folder => .ok d
  | some (.file _) => .error .blocked
  | none => .ok (d.put place .folder)

/-- Make the folders to which names lead one after the other.  The answer is the place of the last
one; those before an obstacle stay. -/
def makeFolders (d : Disk) (place : Place) : List String → Disk × Except Obstacle Place
  | [] =>
      match d.enter place with
      | .ok d => (d, .ok place)
      | .error e => (d, .error e)
  | name :: rest =>
      match d.enter place with
      | .ok d => d.makeFolders (step place name) rest
      | .error e => (d, .error e)

/-- Make a folder and those on the way to it, as far as no file is in the way. -/
def makeFolder (d : Disk) (path : String) : Disk :=
  (d.makeFolders (d.start path) (namesOf path)).1

/-- Write a file, in a folder that is made for it if there is none. -/
def write (d : Disk) (path text : String) : Disk × Except Obstacle Unit :=
  let names := namesOf path
  match d.makeFolders (d.start path) names.dropLast with
  | (d, .error e) => (d, .error e)
  | (d, .ok folder) =>
      let place := names.getLast?.elim folder (step folder)
      match d.entry? place with
      | some .folder => (d, .error .blocked)
      | some (.file _) | none => (d.put place (.file text), .ok ())

end Disk

end AttributeViews

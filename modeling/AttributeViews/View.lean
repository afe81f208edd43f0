import AttributeViews.Lookup
import AttributeViews.Provider
import AttributeViews.Snapshot

/-!
# Live views

A live view is a handle onto one view of one file.  It holds a lookup and the inherited views that
it was built with, so every operation sees the file as it is now.  The posix and dos views pass the
setting of times on to the basic view that they hold, and the posix view that of the owner on to its
owner view.

The dedicated setters check their values strictly; they are not refused while a file is being
created.

Every view has a serial number, by which one instance is told from another.

* `BasicView.setTimes`, `OwnerView.setOwner`, `PosixView.setGroup`, `PosixView.setPermissions`,
  `DosView.setFlag` — the setters.
* `View` — a view of any make.
-/

namespace AttributeViews

variable {σ : Type}

/-- Store what a check lets pass; an error leaves the node as it is. -/
def storeChecked (key : String) (stored : Except Error Value) (node : Node) : Outcome Node Unit :=
  match stored with
  | .error e => (node, .error e)
  | .ok v => (node.write key v, .ok ())

/-! ## The basic view -/

/-- A live view of times and facts. -/
structure BasicView (σ : Type) where
  serial : Nat
  lookup : Lookup σ

/-- Store times one after the other; an absent one leaves its attribute unchanged.  The first value
that is refused ends the operation, and those before it are stored. -/
def storeTimes (node : Node) : List (String × Value) → Outcome Node Unit
  | [] => (node, .ok ())
  | (name, value) :: rest =>
      if value.isNull then storeTimes node rest
      else match checkTime "basic" name value with
        | .error e => (node, .error e)
        | .ok v => storeTimes (node.write ("basic:" ++ name) v) rest

namespace BasicView

/-- Set those of the three times that are given. -/
def setTimes (v : BasicView σ) (lastModified lastAccess creation : Value) :
    σ → Outcome σ Unit :=
  v.lookup.run fun node => storeTimes node [
    ("lastModifiedTime", lastModified),
    ("lastAccessTime", lastAccess),
    ("creationTime", creation)]

/-- The snapshot of the file now. -/
def readAttributes (v : BasicView σ) (state : σ) : Except Error Snapshot :=
  v.lookup.ask (fun node => .ok (.basic (.ofNode node))) state

end BasicView

/-! ## The owner view -/

/-- A live view of the owner. -/
structure OwnerView (σ : Type) where
  serial : Nat
  lookup : Lookup σ

namespace OwnerView

/-- The stored owner. -/
def getOwner (v : OwnerView σ) (state : σ) : Except Error Value :=
  v.lookup.ask (fun node => .ok (node.read "owner:owner")) state

/-- Set the owner to a principal. -/
def setOwner (v : OwnerView σ) (owner : Value) : σ → Outcome σ Unit :=
  v.lookup.run (storeChecked "owner:owner" (checkUser "owner" "owner" owner))

end OwnerView

/-! ## The posix view -/

/-- A live view of group and permissions, with the views of times and owner. -/
structure PosixView (σ : Type) where
  serial : Nat
  lookup : Lookup σ
  basicView : BasicView σ
  ownerView : OwnerView σ

namespace PosixView

/-- Set the group to a principal that is one. -/
def setGroup (v : PosixView σ) (group : Value) : σ → Outcome σ Unit :=
  v.lookup.run (storeChecked "posix:group" (checkGroup "posix" "group" group))

/-- Set the permissions to a set of them. -/
def setPermissions (v : PosixView σ) (permissions : Value) : σ → Outcome σ Unit :=
  v.lookup.run
    (storeChecked "posix:permissions" (checkPermissions "posix" "permissions" permissions))

/-- The snapshot of the file now. -/
def readAttributes (v : PosixView σ) (state : σ) : Except Error Snapshot :=
  v.lookup.ask (fun node => do return .posix (← PosixAttributes.ofNode node)) state

end PosixView

/-! ## The dos view -/

/-- A live view of the four flags, with the view of times. -/
structure DosView (σ : Type) where
  serial : Nat
  lookup : Lookup σ
  basicView : BasicView σ

/-- The flags of the dos view. -/
inductive DosFlag where
  | readonly
  | hidden
  | archive
  | system
deriving DecidableEq, Inhabited

/-- The name of a flag, which is that of its attribute. -/
def DosFlag.name : DosFlag → String
  | .readonly => "readonly"
  | .hidden => "hidden"
  | .archive => "archive"
  | .system => "system"

namespace DosView

/-- Set a flag to a truth value. -/
def setFlag (v : DosView σ) (flag : DosFlag) (value : Value) : σ → Outcome σ Unit :=
  v.lookup.run (storeChecked ("dos:" ++ flag.name) (checkBool "dos" flag.name value))

/-- The snapshot of the file now. -/
def readAttributes (v : DosView σ) (state : σ) : Except Error Snapshot :=
  v.lookup.ask (fun node => .ok (.dos (.ofNode node))) state

end DosView

/-! ## Views of any make -/

/-- A live view. -/
inductive View (σ : Type) where
  | basic (view : BasicView σ)
  | owner (view : OwnerView σ)
  | posix (view : PosixView σ)
  | dos (view : DosView σ)
  /-- A view without operations of its own, with the inherited views by name. -/
  | plain (serial : Nat) (lookup : Lookup σ) (name : String) (inherited : List (String × View σ))

namespace View

/-- The number of the instance. -/
def serial : View σ → Nat
  | basic v => v.serial
  | owner v => v.serial
  | posix v => v.serial
  | dos v => v.serial
  | plain serial .. => serial

/-- The lookup that a view was built with. -/
def lookup : View σ → Lookup σ
  | basic v => v.lookup
  | owner v => v.lookup
  | posix v => v.lookup
  | dos v => v.lookup
  | plain _ lookup .. => lookup

/-- The name of a view. -/
def name : View σ → String
  | basic _ => "basic"
  | owner _ => "owner"
  | posix _ => "posix"
  | dos _ => "dos"
  | plain _ _ name _ => name

/-- The basic view through which the times are set, if there is one. -/
def timesView? : View σ → Option (BasicView σ)
  | basic v => some v
  | posix v => some v.basicView
  | dos v => some v.basicView
  | owner _ | plain .. => none

/-- The owner view through which the owner is read and set, if there is one. -/
def ownerView? : View σ → Option (OwnerView σ)
  | owner v => some v
  | posix v => some v.ownerView
  | basic _ | dos _ | plain .. => none

end View

end AttributeViews

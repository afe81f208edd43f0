import AttributeViews.Text.Quoted

/-!
# Principals

The identities that own files: users and groups.  A group is a principal too, but a group and a
user of one name are different principals.  There may be further kinds of either, such as the
accounts of a directory service; they are told apart by the names of the kinds.

* `PrincipalKind` — plain users and groups, and the further kinds by name.
* `Principal.isGroup` — which principals may be the group of a file.
* `Principal.plainGroup` — the form in which a group is stored.
-/

namespace AttributeViews

/-- The kinds of principals. -/
inductive PrincipalKind where
  | user
  | group
  /-- A further kind of user, by its name. -/
  | otherUser (title : String)
  /-- A further kind of group, by its name. -/
  | otherGroup (title : String)
deriving DecidableEq, Inhabited

/-- An identity: the kind of account and its name. -/
structure Principal where
  kind : PrincipalKind
  name : String
deriving DecidableEq, Inhabited

/-- The name of the kind, as messages give it. -/
def PrincipalKind.title : PrincipalKind → String
  | .user => "UserPrincipal"
  | .group => "GroupPrincipal"
  | .otherUser title | .otherGroup title => title

namespace Principal

/-- A plain user. -/
def user (name : String) : Principal := ⟨.user, name⟩

/-- A plain group. -/
def group (name : String) : Principal := ⟨.group, name⟩

/-- Whether the principal is a group, of whichever kind. -/
def isGroup (p : Principal) : Bool :=
  match p.kind with
  | .group | .otherGroup _ => true
  | .user | .otherUser _ => false

/-- The plain group of the same name. -/
def plainGroup (p : Principal) : Principal := group p.name

/-- The principal with its kind, for a reader. -/
def describe (p : Principal) : String :=
  p.kind.title ++ "(name=" ++ Text.quoted p.name ++ ")"

end Principal

end AttributeViews

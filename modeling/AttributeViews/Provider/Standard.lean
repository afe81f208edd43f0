import AttributeViews.Provider

/-!
# The standard providers

Four views are known to every registry: `basic` with the times and the facts of the node, `owner`
with the owner, `posix` with group and permissions, and `dos` with four flags.  The last two inherit
the times from `basic`, and `posix` the owner from `owner`.

All attributes are refused while a node is being created but the permissions, so that a file can be
created with its final permissions in one step.
-/

namespace AttributeViews

/-- A time, set to the current one on a new node. -/
def timeAttribute : AttributeSpec where
  check := checkTime
  start := .currentTime
  creationRestricted := true

/-- A fact of the node, which nobody sets. -/
def factAttribute (fact : NodeFact) : AttributeSpec where
  check := refuse
  settable := false
  fact := some fact

/-- The owner, a user called `user` on a new node. -/
def ownerAttribute : AttributeSpec where
  check := checkUser
  lenient := some coerceUser
  start := .fixed (.principal (.user "user"))
  creationRestricted := true

/-- The group, one called `group` on a new node. -/
def groupAttribute : AttributeSpec where
  check := checkGroup
  lenient := some coerceGroup
  start := .fixed (.principal (.group "group"))
  creationRestricted := true

/-- The permissions of a new node: everybody may read it and its owner write it. -/
def startingPermissions : PermissionSet :=
  .ofList [⟨.owner, .read⟩, ⟨.owner, .write⟩, ⟨.group, .read⟩, ⟨.others, .read⟩]

/-- The permissions, which a default may also give in notation. -/
def permissionsAttribute : AttributeSpec where
  check := checkPermissions
  lenient := some coercePermissions
  start := .fixed (.permissions startingPermissions)

/-- A flag, not set on a new node. -/
def flagAttribute : AttributeSpec where
  check := checkBool
  start := .fixed (.bool false)
  creationRestricted := true

namespace Provider

/-- The provider of a view that stores under its own name. -/
def standard (form : ViewForm) (name : String) (inherits : List String)
    (attributes : List (String × AttributeSpec)) : Provider where
  name := name
  scope := name
  inherits := inherits
  attributes := .ofList attributes
  form := form

/-- Times and facts. -/
def basic : Provider := standard .basic "basic" [] [
  ("lastModifiedTime", timeAttribute),
  ("lastAccessTime", timeAttribute),
  ("creationTime", timeAttribute),
  ("size", factAttribute .size),
  ("fileKey", factAttribute .fileKey),
  ("isRegularFile", factAttribute .isRegularFile),
  ("isDirectory", factAttribute .isDirectory),
  ("isSymbolicLink", factAttribute .isSymbolicLink),
  ("isOther", factAttribute .isOther)]

/-- The owner. -/
def owner : Provider := standard .owner "owner" [] [("owner", ownerAttribute)]

/-- Group and permissions. -/
def posix : Provider := standard .posix "posix" ["basic", "owner"] [
  ("group", groupAttribute),
  ("permissions", permissionsAttribute)]

/-- The four flags. -/
def dos : Provider := standard .dos "dos" ["basic"] [
  ("readonly", flagAttribute),
  ("hidden", flagAttribute),
  ("archive", flagAttribute),
  ("system", flagAttribute)]

/-- The standard providers. -/
def catalog : List Provider := [basic, owner, posix, dos]

/-- The names of the standard views. -/
def catalogNames : List String := catalog.map (·.name)

/-- The standard provider of a view. -/
def ofCatalog? (view : String) : Option Provider := catalog.find? (·.name == view)

/-- The views that a standard view inherits; none if it is no standard view. -/
def inheritedInCatalog (view : String) : List String :=
  match ofCatalog? view with
  | some p => p.inherited
  | none => []

end Provider

end AttributeViews

import AttributeViews.Text.Quoted

/-!
# What can go wrong

Every operation of the library fails with an `Error`: a cause with the data that explains it.  The
wording is in one place, `Error.message`, and each cause belongs to a kind.

What the decoder explains about a text that is no document is left out: the wording of
`Error.configUndecodable` has three dots in its place.

* `ErrorKind` — the kinds, their titles, and the part of the program that they are reported under.
* `Error` — the causes.
* `Error.kind`, `Error.message` — what is reported of a cause.
-/

namespace AttributeViews

/-! ## Kinds -/

/-- The classes of errors that a caller can tell apart. -/
inductive ErrorKind where
  | invalidAttributeType
  | invalidPermissionString
  | creationRestricted
  | unsettableAttribute
  | unsupportedView
  | nodeMissing
  | nodeExists
  | parentMissing
  | refused
  | providerConflict
  | unknownInheritedView
  | inheritanceCycle
  | attributeCollision
  | configMissing
  | configUndecodable
  | invalidConfigValue
  | configExists
  | invalidAssignment
  | wrongInheritedView
  | unsuitableValue
  | unusableFile
deriving DecidableEq, Inhabited

namespace ErrorKind

/-- The title under which a kind is reported. -/
def title : ErrorKind → String
  | invalidAttributeType => "InvalidAttributeTypeError"
  | invalidPermissionString => "InvalidPermissionStringError"
  | creationRestricted => "CreationRestrictedError"
  | unsettableAttribute => "UnsettableAttributeError"
  | unsupportedView => "UnsupportedViewError"
  | nodeMissing => "NodeDoesNotExistError"
  | nodeExists => "NodeAlreadyExistsError"
  | parentMissing => "ParentDoesNotExistError"
  | refused => "FacetExpectedError"
  | providerConflict => "ProviderConflictError"
  | unknownInheritedView => "UnknownInheritedViewError"
  | inheritanceCycle => "InheritanceCycleError"
  | attributeCollision => "AttributeCollisionError"
  | configMissing => "ConfigNotFoundError"
  | configUndecodable => "ConfigDecodeError"
  | invalidConfigValue => "InvalidConfigValueError"
  | configExists => "ConfigAlreadyExistsError"
  | invalidAssignment => "InvalidAssignmentArgError"
  | wrongInheritedView => "WrongInheritedViewError"
  | unsuitableValue => "UnsuitableValueError"
  | unusableFile => "UnusableFileError"

/-- The part of the program that a kind is reported under.  A kind without one is a fault of the
program that uses the library, and is not meant for its user. -/
def area? : ErrorKind → Option String
  | invalidAttributeType | creationRestricted | unsettableAttribute | unsupportedView | nodeMissing
  | refused => some "facetfs.common"
  | invalidPermissionString => some "facetfs.permissions"
  | nodeExists | parentMissing => some "facetfs.tree"
  | configMissing | configUndecodable | invalidConfigValue | configExists => some "facetfs.config"
  | invalidAssignment => some "facetfs.cli"
  | providerConflict | unknownInheritedView | inheritanceCycle | attributeCollision
  | wrongInheritedView | unsuitableValue | unusableFile => none

/-- Whether a kind is reported to the user as a plain message. -/
def isExpected (k : ErrorKind) : Bool := k.area?.isSome

end ErrorKind

/-! ## Causes -/

/-- What is wrong with a value of the configuration. -/
inductive ConfigProblem where
  /-- The enabled views are not a list, but of this class. -/
  | viewsNotList (classText : String)
  /-- One of the enabled views is not a text, but of this class. -/
  | viewNotText (classText : String)
  /-- The default attributes are not a table, but of this class. -/
  | defaultsNotTable (classText : String)
  /-- A default attribute is named without its view. -/
  | unqualifiedDefault (key : String)
deriving DecidableEq

/-- The causes of failure. -/
inductive Error where
  /-- A permission notation that has not nine characters. -/
  | notationLength (text : String)
  /-- A permission notation with a character that is neither the letter of its place nor a dash. -/
  | notationCharacter (text : String) (letter : Char) (index : Nat) (found : Char)
  /-- A value of a type that the attribute does not take. -/
  | invalidType (view name found : String) (expected : List String)
  /-- A collection for a permission attribute with an element that is no permission. -/
  | invalidElement (view name found : String)
  /-- An attribute that may not be given while the file is being created. -/
  | creationRestricted (view name : String)
  /-- An attribute that cannot be set. -/
  | unsettable (view name : String)
  /-- A default for an attribute that is derived from the file. -/
  | derived (key : String)
  /-- A view that the registry does not have. -/
  | unsupportedView (view : String)
  /-- A view that has no snapshots. -/
  | noSnapshot (view : String)
  /-- A view that is not in the catalog. -/
  | unknownView (view : String) (catalog : List String)
  /-- Two providers for one view. -/
  | duplicateProvider (view : String)
  /-- An inherited view without a provider. -/
  | unknownInherited (view inherited : String)
  /-- Views that inherit each other. -/
  | inheritanceCycle (cycle : List String)
  /-- Two views that declare one attribute. -/
  | attributeCollision (key first second : String)
  /-- A live view that was handed an inherited view of another make. -/
  | wrongInheritedView
  /-- A path at which there is no file. -/
  | noSuchPath (path : String)
  /-- A file that has been deleted. -/
  | noSuchNode (id : String)
  /-- A path at which there is a file already. -/
  | pathTaken (path : String)
  /-- A parent directory that does not exist. -/
  | noParent (parent : String)
  /-- A parent that is not a directory. -/
  | parentNotDirectory (parent : String)
  /-- A directory that would be moved below itself. -/
  | moveIntoItself (path : String)
  /-- The root directory, which cannot be deleted. -/
  | deleteRoot
  /-- A directory that is not empty. -/
  | notEmpty (path : String)
  /-- A configuration file that does not exist. -/
  | configMissing (path : String)
  /-- A configuration file that is not a document.  Where in the text the decoder gives up, and
  why, is not kept. -/
  | configUndecodable
  /-- A value of the configuration for the enabled views or the default attributes. -/
  | invalidConfigValue (option path : String) (problem : ConfigProblem)
  /-- A configuration of which no registry can be built. -/
  | invalidConfiguration (path : String) (cause : Error)
  /-- A configuration file that exists already. -/
  | configExists (path : String)
  /-- A path that leads to a folder or through a file. -/
  | unusableFile (path : String)
  /-- An argument that is not an assignment. -/
  | invalidAssignment (argument : String)
  /-- A value that has no elements. -/
  | notIterable (typeName : String)
  /-- A value that cannot be an element of a set. -/
  | unhashable (typeName : String)
  /-- A value that has no written form. -/
  | notSerializable (typeName : String)
  /-- A value that cannot be the key of a written table. -/
  | invalidKey (typeName : String)
deriving DecidableEq

/-- The kind of a cause. -/
def Error.kind : Error → ErrorKind
  | notationLength .. | notationCharacter .. => .invalidPermissionString
  | invalidType .. | invalidElement .. => .invalidAttributeType
  | creationRestricted .. => .creationRestricted
  | unsettable .. | derived .. => .unsettableAttribute
  | unsupportedView .. | noSnapshot .. | unknownView .. => .unsupportedView
  | duplicateProvider .. => .providerConflict
  | unknownInherited .. => .unknownInheritedView
  | inheritanceCycle .. => .inheritanceCycle
  | attributeCollision .. => .attributeCollision
  | wrongInheritedView => .wrongInheritedView
  | noSuchPath .. | noSuchNode .. => .nodeMissing
  | pathTaken .. => .nodeExists
  | noParent .. | parentNotDirectory .. => .parentMissing
  | moveIntoItself .. | deleteRoot | notEmpty .. => .refused
  | configMissing .. => .configMissing
  | configUndecodable => .configUndecodable
  | invalidConfigValue .. | invalidConfiguration .. => .invalidConfigValue
  | configExists .. => .configExists
  | unusableFile .. => .unusableFile
  | invalidAssignment .. => .invalidAssignment
  | notIterable .. | unhashable .. | notSerializable .. | invalidKey .. => .unsuitableValue

/-! ## Wording -/

/-- What is wrong with a value of the configuration, in words. -/
def ConfigProblem.message : ConfigProblem → String
  | viewsNotList classText => "Must be a list[str]: got " ++ classText
  | viewNotText classText => "Each view must be of type str: got " ++ classText
  | defaultsNotTable classText => "Must be a table of attribute to value: got " ++ classText
  | unqualifiedDefault key =>
      "Attribute " ++ key ++ " must be qualified with its view, like posix:" ++ key

/-- A single character in quotes. -/
def quotedChar (c : Char) : String := Text.quoted (String.singleton c)

/-- A cause in words, with three dots for what the decoder explains about a text that is no
document. -/
def Error.message : Error → String
  | notationLength text =>
      "Invalid permission string " ++ Text.quoted text
        ++ ": must be exactly 9 characters, like rwxr-x---"
  | notationCharacter text letter index found =>
      "Invalid permission string " ++ Text.quoted text ++ ": expected " ++ quotedChar letter
        ++ " or '-' at index " ++ toString index ++ ", got " ++ quotedChar found
  | invalidType view name found expected =>
      "Invalid type " ++ found ++ " for attribute " ++ view ++ ":" ++ name ++ ": should be "
        ++ " or ".intercalate expected
  | invalidElement view name found =>
      "Invalid element for attribute " ++ view ++ ":" ++ name
        ++ ": should be a set of PosixPermission, found element of type " ++ found
  | creationRestricted view name =>
      "Cannot set attribute " ++ view ++ ":" ++ name ++ " during file creation"
  | unsettable view name => "Attribute " ++ view ++ ":" ++ name ++ " cannot be set"
  | derived key =>
      "Attribute " ++ key ++ " is derived from the file and cannot be given a default"
  | unsupportedView view => "Unsupported attribute view " ++ view
  | noSnapshot view => "View " ++ view ++ " does not support reading attributes"
  | unknownView view catalog =>
      "Unknown attribute view " ++ view ++ ": must be one of " ++ ", ".intercalate catalog
  | duplicateProvider view => "Multiple providers registered for view " ++ view
  | unknownInherited view inherited =>
      "View " ++ view ++ " inherits view " ++ inherited ++ ", but no provider for " ++ inherited
        ++ " is registered"
  | inheritanceCycle cycle =>
      "Views inherit each other in a cycle: " ++ " -> ".intercalate cycle
  | attributeCollision key first second =>
      "Attribute " ++ key ++ " is declared by both view " ++ first ++ " and view " ++ second
  | wrongInheritedView => ""
  | noSuchPath path => "No such file or directory: " ++ path
  | noSuchNode id => "File " ++ id ++ " no longer exists"
  | pathTaken path => "File already exists: " ++ path
  | noParent parent => "Parent directory does not exist: " ++ parent
  | parentNotDirectory parent => "Parent is not a directory: " ++ parent
  | moveIntoItself path => "Cannot move " ++ path ++ " into itself"
  | deleteRoot => "Cannot delete the root directory"
  | notEmpty path => "Directory not empty: " ++ path
  | configMissing path => "Configuration file not found (" ++ path ++ ")"
  | configUndecodable => "Failed to decode configuration file: invalid TOML: ..."
  | invalidConfigValue option path problem =>
      "Invalid value for " ++ option ++ " in configuration file (" ++ path ++ "): "
        ++ problem.message
  | invalidConfiguration path cause =>
      "Invalid attribute configuration in configuration file (" ++ path ++ "): " ++ cause.message
  | configExists path => "Configuration file already exists (" ++ path ++ ")"
  | unusableFile path => "Not a file: " ++ path
  | invalidAssignment argument =>
      argument ++ " is not a valid assignment: assignments must look like KEY=VALUE, "
        ++ "e.g. posix:group=staff"
  | notIterable typeName => "'" ++ typeName ++ "' object is not iterable"
  | unhashable typeName => "unhashable type: '" ++ typeName ++ "'"
  | notSerializable typeName => "Object of type " ++ typeName ++ " is not JSON serializable"
  | invalidKey typeName =>
      "keys must be str, int, float, bool or None, not " ++ typeName

/-- The area, the title of the kind and the words, as the user sees an error. -/
def Error.report (e : Error) : String :=
  (e.kind.area?.map (· ++ ".")).getD "" ++ e.kind.title ++ ": " ++ e.message

end AttributeViews

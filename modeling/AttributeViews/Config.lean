import AttributeViews.Document.Reader
import AttributeViews.Registry.Catalog
import AttributeViews.Registry.Starting

/-!
# Configurations

A configuration says which views are enabled beside the basic one, and what the attributes of new
files hold by default.  It is written as a document with the two keys `attribute_views` and
`default_attributes`; other keys are passed over with a warning that names them.

A configuration is accepted only if a registry can be built of it and its default values have the
right types.

* `Config.parse` — the configuration of a file.
* `Config.standard` — the one that applies without a file.
* `Config.registry` — the registry of a configuration.
* `Config.starterText` — a file that enables every standard view.
-/

namespace AttributeViews

/-- The enabled views, and the default values by key. -/
structure Config where
  views : List String
  defaults : Table String Value

namespace Config

/-- The views that are enabled if none are named. -/
def standardViews : List String := ["basic"]

/-- The configuration without a file. -/
def standard : Config := ⟨standardViews, .empty⟩

/-- The registry of the enabled views, with the default values. -/
def registry (c : Config) : Logged Registry := Registry.ofViews c.views c.defaults

/-! ## The two options -/

/-- The names in a list of views; the first element that is no text is the problem. -/
def viewNames : List Value → Except ConfigProblem (List String)
  | [] => .ok []
  | .text s :: rest => do return s :: (← viewNames rest)
  | v :: _ => .error (.viewNotText v.classText)

/-- The enabled views, by the value of their option if it is given. -/
def readViews : Option Value → Except ConfigProblem (List String)
  | none => .ok standardViews
  | some (.list xs) => viewNames xs
  | some v => .error (.viewsNotList v.classText)

/-- The entries of a table of default values; the first key without a view is the problem. -/
def defaultEntries : List (Value × Value) → Except ConfigProblem (List (String × Value))
  | [] => .ok []
  | (key, value) :: rest => do
      let name := key.text?.getD ""
      if ':' ∉ name.toList then .error (.unqualifiedDefault name)
      return (name, value) :: (← defaultEntries rest)

/-- The default values, by the value of their option if it is given. -/
def readDefaults : Option Value → Except ConfigProblem (Table String Value)
  | none => .ok .empty
  | some (.dict entries) => do return .ofList (← defaultEntries entries)
  | some v => .error (.defaultsNotTable v.classText)

/-- A problem with the value of an option, reported with its name and the path of the file. -/
def option {α : Type} (name path : String) : Except ConfigProblem α → Except Error α
  | .ok value => .ok value
  | .error problem => .error (.invalidConfigValue name path problem)

/-! ## Unknown options -/

/-- The name of an item within a table that has a name itself. -/
def below (table key : String) : String := if table = "" then key else table ++ "." ++ key

mutual
/-- The names of the items below an item that are no tables, the last ones first. -/
def itemNames (name : String) : Value → List String
  | .dict entries => entryNames name entries
  | _ => [name]

/-- The same for the items of a table, by the name of the table. -/
def entryNames (table : String) : List (Value × Value) → List String
  | [] => []
  | (key, value) :: rest =>
      entryNames table rest ++ itemNames (below table (key.text?.getD "")) value
end

/-- The entries of a document besides the two options. -/
def unknownOptions (document : Table String Value) : List (Value × Value) :=
  (document.entries.filter fun e => e.1 ≠ "attribute_views" ∧ e.1 ≠ "default_attributes").map
    fun e => (.text e.1, e.2)

/-- The warning about unknown options, if there are any. -/
def unknownRecords (document : Table String Value) : List Record :=
  let unknown := unknownOptions document
  if unknown.isEmpty then []
  else [⟨.warning, "Unrecognized options found in configuration file: "
    ++ ", ".intercalate (entryNames "" unknown)⟩]

/-! ## Whole files -/

/-- Report a fault of the registry as one of the configuration file. -/
def reportFault {α : Type} (path : String) : Except Error α → Except Error α
  | .ok value => .ok value
  | .error e => .error (if e.kind.isExpected then .invalidConfiguration path e else e)

/-- Whether the registry of a configuration can be built and its default values have the right
types. -/
def validate (path : String) (now : Moment) (c : Config) : Logged Unit := do
  let built := c.registry
  Logged.recordAll built.records
  Logged.lift (reportFault path (do
    let registry ← built.result
    let _ ← registry.initialAttributes now .empty))

/-- The configuration of a document.  It is checked before unknown options are recorded. -/
def ofDocument (path : String) (now : Moment) (document : Table String Value) :
    Logged Config := do
  let views ← Logged.lift
    (option "attribute_views" path (readViews (document.get? "attribute_views")))
  let defaults ← Logged.lift
    (option "default_attributes" path (readDefaults (document.get? "default_attributes")))
  let config : Config := ⟨views, defaults⟩
  validate path now config
  Logged.recordAll (unknownRecords document)
  return config

/-- Line breaks of any kind as line feeds. -/
def uniformBreaks : List Char → List Char
  | '\r' :: '\n' :: rest => '\n' :: uniformBreaks rest
  | '\r' :: rest => '\n' :: uniformBreaks rest
  | c :: rest => c :: uniformBreaks rest
  | [] => []

/-- The configuration of a file, given its path and, if it exists, its text. -/
def parse (path : String) (now : Moment) : Option String → Logged Config
  | none => .lift (.error (.configMissing path))
  | some text =>
      match Document.parse (String.ofList (uniformBreaks text.toList)) with
      | none => .lift (.error .configUndecodable)
      | some document => ofDocument path now document

/-- The text of a file that enables every standard view. -/
def starterText : String :=
  "attribute_views = [\n    \"posix\",\n    \"dos\",\n]\n\n"
    ++ "[default_attributes]\n"
    ++ "\"owner:owner\" = \"user\"\n"
    ++ "\"posix:group\" = \"group\"\n"
    ++ "\"posix:permissions\" = \"rw-r--r--\"\n"

end Config

end AttributeViews

import AttributeViews.Assignment
import AttributeViews.Config
import AttributeViews.Disk
import AttributeViews.FileTree.Structure

/-!
# What the commands do

* `loadConfig` — the configuration under which a command runs.
* `viewsText` — list the enabled views.
* `defaultsText` — print the attributes that a new file starts out with.
* `inspectText` — create a scratch file and print one of its views.
* `writeStarter` — write a starter configuration file.
-/

namespace AttributeViews

/-! ## Configuration files -/

/-- The configuration of a run: that of the file at `path`.  If there is no such file and it was not
named, or is about to be created, the standard configuration applies. -/
def loadConfig (disk : Disk) (path : String) (optional : Bool) (now : Moment) : Logged Config :=
  match disk.read path, optional with
  | .ok text, _ => Config.parse path now (some text)
  | .error .missing, false => Config.parse path now none
  | .error .missing, true => do
      Logged.record .debug "No configuration file found, using the default configuration"
      return .standard
  | .error .blocked, _ => .lift (.error (.unusableFile path))

/-! ## What the commands do -/

/-- A view on one line: its name, the views that it inherits, and its attributes. -/
def describeView (p : Provider) : String :=
  let inherited := if p.inherited.isEmpty then "-" else ", ".intercalate p.inherited
  p.name ++ ": inherits [" ++ inherited ++ "], attributes [" ++ ", ".intercalate p.names ++ "]"

/-- The enabled views, one on a line. -/
def viewsText (config : Config) : Logged String := do
  let registry ← config.registry
  return String.join (registry.providers.map fun p => describeView p ++ "\n")

/-- The attributes that a new file starts out with. -/
def defaultsText (config : Config) (now : Moment) (overrides : List String) : Logged String := do
  let registry ← config.registry
  let overrides ← Logged.lift (readAssignments overrides)
  let text ← registry.dumpInitial now overrides
  return text ++ "\n"

/-- The path of the file that is created to be inspected. -/
def scratchPath : Path := .ofText "/scratch"

/-- One view of a new file. -/
def inspectText (config : Config) (now : Moment) (view : String)
    (overrides creation : List String) : Issuing String := do
  let registry ← Issuing.lift config.registry
  let attributes ← Issuing.lift (.lift (creationAttributes creation))
  let tree ← FileTree.start registry now
  let overrides ← Issuing.lift (.lift (readAssignments overrides))
  let (_, node) ← tree.createNext now .file scratchPath attributes overrides
  Issuing.lift (.record .info ("Created scratch file " ++ node.id))
  let text ← Issuing.lift (.lift (registry.dump node view))
  return text ++ "\n"

/-- Write a starter configuration file; over an existing one only if forced. -/
def writeStarter (disk : Disk) (path : String) (force : Bool) : Disk × Logged String :=
  if disk.holds path && !force then (disk, .lift (.error (.configExists path)))
  else
    match disk.write path Config.starterText with
    | (disk, .error _) => (disk, .lift (.error (.unusableFile path)))
    | (disk, .ok ()) =>
        (disk, do
          Logged.record .info ("Wrote default configuration to " ++ path)
          return "Wrote configuration to " ++ path ++ "\n")

end AttributeViews

import AttributeViews.Command.Arguments
import AttributeViews.Path

/-!
# The command line

The program's command line holds settings, the name of a command, and the arguments of the command.
The settings are read first, and the command's arguments only when the command is about to run.

The help that every command has is left out.  Its option `--help` is not known here, so a command
line with it is one that is not understood.

* `readCommandLine` — settings, command and the rest.
* `Action.ofArguments` — what a command with its arguments asks for.
-/

namespace AttributeViews

/-- What stands in front of the command. -/
structure Settings where
  verbose : Bool
  /-- The configuration file that is named. -/
  config : Option String

/-- The path of the configuration file; `home` is the standard location. -/
def Settings.configPath (s : Settings) (home : String) : String :=
  (s.config.map Path.tidy).getD home

/-- The commands by their first word. -/
inductive CommandName where
  | config
  | views
  | defaults
  | inspect
deriving DecidableEq, Inhabited

/-- The command that a word names. -/
def CommandName.ofWord? : String → Option CommandName
  | "config" => some .config
  | "views" => some .views
  | "defaults" => some .defaults
  | "inspect" => some .inspect
  | _ => none

/-- What a command line asks for. -/
inductive Action where
  /-- Write a starter configuration file, also over an existing one if forced. -/
  | writeConfig (force : Bool)
  | listViews
  | printDefaults (overrides : List String)
  | inspect (view : String) (overrides creation : List String)

/-- The options in front of the command. -/
def globalOptions : List OptionSpec :=
  [⟨"verbose", some 'v', false⟩, ⟨"config", some 'c', true⟩]

/-- The option that overrides a default value. -/
def setOption : OptionSpec := ⟨"set", some 's', true⟩

/-- The option that gives an attribute of the scratch file. -/
def createOption : OptionSpec := ⟨"create-attr", some 'a', true⟩

/-- The option that overwrites an existing file. -/
def forceOption : OptionSpec := ⟨"force", some 'f', false⟩

/-- The settings, the command, and the arguments left for it; nothing if the command line is not
understood, and none is that asks for help. -/
def readCommandLine (arguments : List String) :
    Option (Settings × CommandName × List String) := do
  let a ← readArguments globalOptions false none arguments
  let word :: rest := a.words | none
  let name ← CommandName.ofWord? word
  return (⟨a.has "verbose", a.lastValue? "config"⟩, name, rest)

/-- What a command asks for with its arguments; nothing if they are not understood. -/
def Action.ofArguments (name : CommandName) (arguments : List String) : Option Action :=
  match name with
  | .config => do
      let a ← readArguments [] false none arguments
      let "init" :: rest := a.words | none
      let a ← readArguments [forceOption] true none rest
      let [] := a.words | none
      return .writeConfig (a.has "force")
  | .views => do
      let a ← readArguments [] true none arguments
      let [] := a.words | none
      return .listViews
  | .defaults => do
      let a ← readArguments [setOption] true none arguments
      let [] := a.words | none
      return .printDefaults (a.valuesOf "set")
  | .inspect => do
      let a ← readArguments [setOption, createOption] true none arguments
      let [view] := a.words | none
      return .inspect view (a.valuesOf "set") (a.valuesOf "create-attr")

end AttributeViews

import AttributeViews.Command.Actions
import AttributeViews.Command.Line
import AttributeViews.Text.Unstyled

/-!
# Runs of the program

The program inspects the attribute views of a file system in memory.  Its commands are

* `config init` — write a starter configuration file;
* `views` — list the enabled views;
* `defaults` — print the attributes that a new file starts out with;
* `inspect VIEW` — create a scratch file and print one of its views.

The options in front of the command choose the configuration file and the level of the journal.  A
configuration file that is named must exist, unless the command is about to create it; the one at
the standard location is optional.

* `World` — what commands act on and leave behind.
* `Action.run` — what a command does, given a configuration.
* `Command.configPath?` — the configuration file that a run looks for.
* `Command.run` — a whole run.
-/

namespace AttributeViews

/-- What commands act on and leave behind: the disk and the supply of identities. -/
structure World where
  disk : Disk
  supply : IdSupply

/-- What the surroundings see of a run. -/
structure RunReport where
  exitCode : Nat
  output : String
  records : List Record

/-- The run of a command line that is not understood.  The explanation of the right usage is left
out, and so is the help: a command line that asks for it ends with the exit code of a
misuse, too. -/
def usageReport (records : List Record) : RunReport := ⟨2, "", records⟩

/-- What is seen of a command: its output, or its error in words. -/
def reportOf (x : Logged String) : RunReport :=
  match x.result with
  | .ok output => ⟨0, output, x.records⟩
  | .error e => ⟨1, if e.kind.isExpected then e.report ++ "\n" else "", x.records⟩

/-- Perform an action under a configuration; `path` is that of the configuration file. -/
def Action.run (action : Action) (config : Config) (path : String) (now : Moment) (w : World) :
    World × Logged String :=
  match action with
  | .listViews => (w, viewsText config)
  | .printDefaults overrides => (w, defaultsText config now overrides)
  | .inspect view overrides creation =>
      let (supply, answer) := inspectText config now view overrides creation w.supply
      ({ w with supply := supply }, answer)
  | .writeConfig force =>
      let (disk, answer) := writeStarter w.disk path force
      ({ w with disk := disk }, answer)

namespace Command

/-- Run a command.  The configuration file is read before the arguments of the command are; one that
is named may be missing only for the command that writes it. -/
def runNamed (settings : Settings) (name : CommandName) (arguments : List String) (home : String)
    (now : Moment) (w : World) : World × RunReport :=
  let path := settings.configPath home
  let optional := settings.config.isNone || name = .config
  let loaded := loadConfig w.disk path optional now
  match loaded.result with
  | .error _ => (w, reportOf (do let _ ← loaded; return ""))
  | .ok config =>
      match Action.ofArguments name arguments with
      | none => (w, usageReport loaded.records)
      | some action =>
          let (w, answer) := action.run config path now w
          (w, reportOf (do let _ ← loaded; answer))

/-- The path of the configuration file of a run, if the command line is understood. -/
def configPath? (arguments : List String) (home : String) : Option String :=
  (readCommandLine arguments).map fun (settings, _, _) => settings.configPath home

/-- Run the program with its arguments.  `home` is where the configuration file is looked for if
none is named.  The journal starts at the level of information, and with the option for it at that
of details.  The output is plain text, also if parts of what is reported are styled. -/
def run (arguments : List String) (home : String) (now : Moment) (w : World) :
    World × RunReport :=
  match readCommandLine arguments with
  | none => (w, usageReport [])
  | some (settings, name, rest) =>
      let (w, report) := runNamed settings name rest home now w
      let level := if settings.verbose then Level.debug else Level.info
      (w, { report with
        output := Text.unstyled report.output
        records := visibleFrom level report.records })

end Command

end AttributeViews

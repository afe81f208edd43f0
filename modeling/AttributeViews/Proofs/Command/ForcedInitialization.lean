import AttributeViews.Command
import AttributeViews.Proofs.Config
import AttributeViews.Proofs.Disk
import AttributeViews.Proofs.Document
import AttributeViews.Proofs.Registry.Catalog
import Mathlib.Tactic.Common

/-!
# Forced initialization

A starter configuration file is written over an existing one if that is forced.  But the program
reads its configuration file before it looks at the command, and only a file that is missing is
excused.  So the command replaces a file that is outdated, and not one that is broken: with a text
that is no configuration the run ends before anything is written.

* `Config.starter`, **`Config.parse_starterText`** — the configuration of the starter file.
* `Command.Asks` — the command lines that ask for an action under a named configuration file.
* **`Command.run_of_refused`**, **`Command.run_of_accepted`** — their runs.
* **`Command.forced_initialization`** — what becomes of the file, and of the commands after that.
-/

namespace AttributeViews

namespace Config

/-! ## The starter file -/

/-- The configuration that the starter file holds. -/
def starter : Config :=
  ⟨["posix", "dos"], .ofList [("owner:owner", .text "user"), ("posix:group", .text "group"),
    ("posix:permissions", .text "rw-r--r--")]⟩

/-- The document that the starter file is read as. -/
def starterDocument : Table String Value :=
  .ofList [("attribute_views", .list [.text "posix", .text "dos"]),
    ("default_attributes", .dict [(.text "owner:owner", .text "user"),
      (.text "posix:group", .text "group"), (.text "posix:permissions", .text "rw-r--r--")])]

lemma toList_append_of {s t : String} {cs ds : List Char} (hs : s.toList = cs)
    (ht : t.toList = ds) : (s ++ t).toList = cs ++ ds := by
  rw [String.toList_append, hs, ht]

set_option maxRecDepth 4000 in
lemma decoded_starterText :
    Document.parse (String.ofList (uniformBreaks starterText.toList)) = some starterDocument := by
  -- the text stands in five parts
  have chars : starterText.toList = _ := toList_append_of (toList_append_of (toList_append_of
    (toList_append_of String.toList_ofList String.toList_ofList) String.toList_ofList)
    String.toList_ofList) String.toList_ofList
  rw [chars]
  -- quoted texts are read by recursion on their length, which does not unfold by itself
  exact (Document.parse_ofList 149 rfl).trans (by with_unfolding_all rfl)

/-- Its default values are all known, so nothing is recorded. -/
lemma registry_starter :
    starter.registry = pure ⟨[.basic, .owner, .posix, .dos], starter.defaults⟩ := by
  have enabled : starter.views = ["posix", "dos"] := rfl
  rw [registry, Registry.ofViews, enabled, standardProviders_posix_dos]
  rfl

lemma validate_starter (path : String) (now : Moment) : validate path now starter = pure () := by
  rw [validate, registry_starter]
  rfl

/-- **The starter file is a configuration**, whatever its path and at any time. -/
lemma parse_starterText (path : String) (now : Moment) :
    parse path now (some starterText) = pure starter := by
  have options : ofDocument path now starterDocument
      = validate path now starter >>= fun _ => pure starter := rfl
  rw [parse_of_decoded decoded_starterText, options, validate_starter]
  rfl

end Config

/-! ## Runs with a configuration file -/

/-- A report as it is shown: as plain text, and with the records from a level on. -/
def RunReport.shownFrom (level : Level) (report : RunReport) : RunReport :=
  { report with
    output := Text.unstyled report.output
    records := visibleFrom level report.records }

namespace Command

variable {w : World} {path text home : String} {now : Moment} {line : List String}
  {action : Action} {c : Config} {e : Error}

/-- A command line asks for an action and names the configuration file. -/
def Asks (line : List String) (path : String) (action : Action) : Prop :=
  ∃ settings name arguments, readCommandLine line = some (settings, name, arguments) ∧
    settings.config = some path ∧ Action.ofArguments name arguments = some action

lemma asks_forced (path : String) :
    Asks ["-c", path, "config", "init", "--force"] path (.writeConfig true) :=
  ⟨⟨false, some path⟩, .config, ["init", "--force"], rfl, rfl, rfl⟩

/-- A run with a configuration file first reads it, and then performs its action. -/
lemma run_of_asks (asks : Asks line path action)
    (present : w.disk.read (Path.tidy path) = .ok text) (home : String) (now : Moment) :
    ∃ level, run line home now w =
      let loaded := Config.parse (Path.tidy path) now (some text)
      match loaded.result with
      | .error _ => (w, (reportOf (do let _ ← loaded; return "")).shownFrom level)
      | .ok c =>
          let (after, answer) := action.run c (Path.tidy path) now w
          (after, (reportOf (do let _ ← loaded; answer)).shownFrom level) := by
  obtain ⟨settings, name, arguments, hline, hconfig, haction⟩ := asks
  have hpath : settings.configPath home = Path.tidy path := by
    rw [Settings.configPath, hconfig]
    rfl
  have hload : ∀ optional, loadConfig w.disk (Path.tidy path) optional now
      = Config.parse (Path.tidy path) now (some text) := by
    intro optional
    simp only [loadConfig, present]
  refine ⟨if settings.verbose then Level.debug else Level.info, ?_⟩
  simp only [run, hline, runNamed, hpath, hload, haction]
  cases (Config.parse (Path.tidy path) now (some text)).result <;> rfl

/-- **A file that is no configuration ends the run** before anything is done. -/
lemma run_of_refused (asks : Asks line path action)
    (present : w.disk.read (Path.tidy path) = .ok text)
    (refused : (Config.parse (Path.tidy path) now (some text)).result = .error e)
    (home : String) :
    (run line home now w).1 = w ∧ (run line home now w).2.exitCode = 1 ∧
      (run line home now w).2.output = Text.unstyled (e.report ++ "\n") := by
  obtain ⟨level, hrun⟩ := run_of_asks asks present home now
  rw [hrun]
  simp only [refused, Logged.bind_of_error refused, reportOf, RunReport.shownFrom,
    Config.isExpected_of_parse refused, if_true, and_self]

/-- **Under a configuration** the action is performed. -/
lemma run_of_accepted (asks : Asks line path action)
    (present : w.disk.read (Path.tidy path) = .ok text)
    (accepted : (Config.parse (Path.tidy path) now (some text)).result = .ok c) (home : String) :
    let performed := action.run c (Path.tidy path) now w
    (run line home now w).1 = performed.1 ∧
      (run line home now w).2.exitCode = (reportOf performed.2).exitCode ∧
      (run line home now w).2.output = Text.unstyled (reportOf performed.2).output := by
  obtain ⟨level, hrun⟩ := run_of_asks asks present home now
  rw [hrun]
  simp only [accepted, Logged.bind_of_ok accepted, reportOf, RunReport.shownFrom]
  cases (action.run c (Path.tidy path) now w).2.result <;> simp

/-! ## Writing the starter file -/

/-- The starter file is written over a file that is there. -/
lemma run_writeConfig_of_read (rooted : w.disk.Rooted) (present : w.disk.read path = .ok text)
    (c : Config) (now : Moment) :
    ∃ after : World, (Action.writeConfig true).run c path now w
        = (after, ⟨[⟨.info, "Wrote default configuration to " ++ path⟩],
            .ok ("Wrote configuration to " ++ path ++ "\n")⟩) ∧
      after.supply = w.supply ∧ after.disk.read path = .ok Config.starterText := by
  obtain ⟨d, hwrite, hread, -⟩ := Disk.write_of_read rooted present Config.starterText
  refine ⟨⟨d, w.supply⟩, ?_, rfl, hread⟩
  have hforced : ¬ (w.disk.holds path && !true) = true := by simp
  rw [Action.run, writeStarter, if_neg hforced, hwrite]
  rfl

/-- **Forced initialization replaces what is no longer wanted, but not what is broken.**  Let a
command line ask for the starter file to be written over the configuration file that it names, as
`-c PATH config init --force` does, and let there be a text at this path.

If the text is no configuration, be it no document or one with values that are not valid, the run
fails and reports that, and nothing is changed.

If it is one, the run succeeds, and then the file holds the starter text.  This is read as the
starter configuration at any time, and under it is performed whatever is asked for with this file
named. -/
theorem forced_initialization (rooted : w.disk.Rooted)
    (present : w.disk.read (Path.tidy path) = .ok text) (home : String) (now : Moment) :
    Asks ["-c", path, "config", "init", "--force"] path (.writeConfig true) ∧
    ∀ line, Asks line path (.writeConfig true) →
      let loaded := (Config.parse (Path.tidy path) now (some text)).result
      let first := run line home now w
      (∀ e, loaded = .error e → first.1 = w ∧ first.2.exitCode = 1 ∧
        first.2.output = Text.unstyled (e.report ++ "\n")) ∧
      ∀ c, loaded = .ok c →
        first.2.exitCode = 0 ∧
        first.2.output = Text.unstyled ("Wrote configuration to " ++ Path.tidy path ++ "\n") ∧
        first.1.supply = w.supply ∧
        first.1.disk.read (Path.tidy path) = .ok Config.starterText ∧
        (∀ now', (Config.parse (Path.tidy path) now' (some Config.starterText)).result
          = .ok .starter) ∧
        ∀ line' action home' now', Asks line' path action →
          let performed := action.run .starter (Path.tidy path) now' first.1
          let next := run line' home' now' first.1
          next.1 = performed.1 ∧ next.2.exitCode = (reportOf performed.2).exitCode ∧
            next.2.output = Text.unstyled (reportOf performed.2).output := by
  refine ⟨asks_forced path, fun line asks => ⟨fun e refused => ?_, fun c accepted => ?_⟩⟩
  · exact run_of_refused asks present refused home
  · obtain ⟨after, hperformed, hsupply, hread⟩ := run_writeConfig_of_read rooted present c now
    obtain ⟨hworld, hcode, houtput⟩ := run_of_accepted asks present accepted home
    rw [hperformed] at hworld hcode houtput
    have starts : ∀ now', (Config.parse (Path.tidy path) now' (some Config.starterText)).result
        = .ok .starter := by
      intro now'
      rw [Config.parse_starterText]
      rfl
    refine ⟨hcode, houtput, ?_⟩
    rw [hworld]
    exact ⟨hsupply, hread, starts, fun line' action home' now' asks' =>
      run_of_accepted asks' hread (starts now') home'⟩

/-! ## A broken file -/

/-- A disk with one file in its root. -/
def diskWith (text : String) : Disk := Disk.blank.put ["c.toml"] (.file text)

lemma rooted_diskWith (text : String) : (diskWith text).Rooted := ⟨rfl, rfl⟩

lemma read_diskWith (text : String) : (diskWith text).read "/c.toml" = .ok text := by
  with_unfolding_all rfl

lemma read_tidied (text : String) : (diskWith text).read (Path.tidy "/c.toml") = .ok text := by
  have tidied : Path.tidy "/c.toml" = "/c.toml" := by
    decide +kernel
  rw [tidied, read_diskWith]

lemma parse_broken (path : String) (now : Moment) :
    (Config.parse path now (some "= broken")).result = .error .configUndecodable := by
  have broken : Document.parse (String.ofList (Config.uniformBreaks "= broken".toList)) = none := rfl
  rw [Config.parse_of_undecoded broken, Logged.result_lift]

lemma parse_blank (path : String) (now : Moment) :
    (Config.parse path now (some "")).result = .ok .standard := by
  have blank : Document.parse (String.ofList (Config.uniformBreaks "".toList)) = some .empty := rfl
  have valid : (Config.validate path now .standard).result = .ok () :=
    Config.validate_eq_ok_iff.2 ⟨_, _, Config.registry_standard, rfl⟩
  rw [Config.parse_of_decoded blank, Config.result_ofDocument]
  exact bind_eq_ok_iff.2 ⟨Config.standardViews, rfl, bind_eq_ok_iff.2 ⟨.empty, rfl,
    bind_eq_ok_iff.2 ⟨(), valid, rfl⟩⟩⟩

/-- An empty file is written over, and then the views are listed; a broken one stays. -/
theorem forced_initialization_blank :
    ∃ blank broken : World, blank.disk.read "/c.toml" = .ok "" ∧
      broken.disk.read "/c.toml" = .ok "= broken" ∧
      let forced := run ["-c", "/c.toml", "config", "init", "--force"] "" default
      (forced blank).2.exitCode = 0 ∧
      (run ["-c", "/c.toml", "views"] "" default (forced blank).1).2.exitCode = 0 ∧
      (forced broken).1 = broken ∧ (forced broken).2.exitCode = 1 := by
  let blank : World := ⟨diskWith "", ⟨toString, 0⟩⟩
  let broken : World := ⟨diskWith "= broken", ⟨toString, 0⟩⟩
  have hblank : blank.disk.read (Path.tidy "/c.toml") = .ok "" := read_tidied ""
  have hbroken : broken.disk.read (Path.tidy "/c.toml") = .ok "= broken" := read_tidied "= broken"
  obtain ⟨asks, repaired⟩ := forced_initialization (rooted_diskWith "") hblank "" default
  obtain ⟨-, stays⟩ := forced_initialization (rooted_diskWith "= broken") hbroken "" default
  obtain ⟨-, success⟩ := repaired _ asks
  obtain ⟨failure, -⟩ := stays _ asks
  obtain ⟨code, -, -, -, -, next⟩ := success _ (parse_blank _ _)
  obtain ⟨unchanged, failed, -⟩ := failure _ (parse_broken _ _)
  have views : Asks ["-c", "/c.toml", "views"] "/c.toml" .listViews :=
    ⟨⟨false, some "/c.toml"⟩, .views, [], rfl, rfl, rfl⟩
  obtain ⟨-, listed, -⟩ := next _ _ "" default views
  have answered : (reportOf (viewsText .starter)).exitCode = 0 := by
    rw [viewsText, Config.registry_starter]
    rfl
  exact ⟨blank, broken, read_diskWith "", read_diskWith "= broken", code, listed.trans answered,
    unchanged, failed⟩

/-- A file that is not TOML at all cannot be written over by force. -/
theorem broken_file_not_repaired :
    ∃ w : World, w.disk.Rooted ∧ w.disk.read "/c.toml" = .ok "= broken" ∧
      let first := run ["-c", "/c.toml", "config", "init", "--force"] "" default w
      first.2.exitCode = 1 ∧ first.1.disk.read "/c.toml" = .ok "= broken" := by
  let w : World := ⟨diskWith "= broken", ⟨toString, 0⟩⟩
  have present : w.disk.read (Path.tidy "/c.toml") = .ok "= broken" := read_tidied "= broken"
  obtain ⟨unchanged, failed, -⟩ :=
    run_of_refused (asks_forced "/c.toml") present (parse_broken _ default) ""
  refine ⟨w, rooted_diskWith "= broken", read_diskWith "= broken", failed, ?_⟩
  rw [unchanged]
  exact read_diskWith "= broken"

end Command

end AttributeViews

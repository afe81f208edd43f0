import AttributeViews.Calendar.Epoch
import AttributeViews.Command
import AttributeViews.Identity.Stamped
import Std.Time.DateTime

/-!
# The program

The outer layer of the program: it reads the configuration file, the clock and a random number, runs
the command line, writes the files that the run changed, and prints what it answers.

* `main` — a run under the arguments of the system.
-/

namespace AttributeViews

/-- The standard location of the configuration file. -/
def standardLocation : IO String := do
  let folder ← match ← IO.getEnv "XDG_CONFIG_HOME" with
    | some folder => pure folder
    | none => pure ((← IO.getEnv "HOME").getD "" ++ "/.config")
  return folder ++ "/facetfs/config.toml"

/-- The text of a file, if there is such a file. -/
def readIfPresent (path : String) : IO (Option String) := do
  try
    return some (← IO.FS.readFile path)
  catch
    | .noFileOrDirectory .. => return none
    | e => throw e

/-- Write a file, in a folder that is made for it if there is none. -/
def writeInto (path text : String) : IO Unit := do
  let folder := "/".intercalate (Text.pieces '/' path).dropLast
  if folder ≠ "" then IO.FS.createDirAll folder
  IO.FS.writeFile path text

/-- The microseconds that the clock shows. -/
def readClock : IO Nat := do
  let now ← Std.Time.Timestamp.now
  return (now.toNanosecondsSinceUnixEpoch.val / 1000).toNat

/-- A number of 74 random bits. -/
def readRandom : IO Nat := do
  let bytes ← IO.getRandomBytes 10
  return bytes.toList.foldl (fun n b => 256 * n + b.toNat) 0 % Nat.pow 2 74

/-- The disk as far as a run may read it: the configuration file, if it exists. -/
def diskFor (path? : Option String) : IO Disk := do
  match path? with
  | none => return .blank
  | some path =>
      match ← readIfPresent path with
      | none => return .blank
      | some text => return (Disk.blank.write path text).1

/-- The text of the configuration file of a run. -/
def configText? (path? : Option String) (disk : Disk) : Option String :=
  path?.bind fun path => (disk.read path).toOption

end AttributeViews

open AttributeViews in
/-- Run the program; the answer is its exit code. -/
def main (arguments : List String) : IO UInt32 := do
  let home ← standardLocation
  let path? := Command.configPath? arguments home
  let disk ← diskFor path?
  let clock ← readClock
  let random ← readRandom
  let before : World := ⟨disk, .stamped (clock / 1000) random⟩
  let (after, report) := Command.run arguments home (.ofClock clock) before
  if let (some path, some text) := (path?, configText? path? after.disk) then
    if configText? path? before.disk ≠ some text then writeInto path text
  for record in report.records do
    IO.eprintln record.line
  IO.print report.output
  return report.exitCode.toUInt32

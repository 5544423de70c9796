import Std.Time.DateTime.Timestamp
import LiveDoc.Library.Call

/-!
# Command line

The outer layer: reads arguments, files, the clock and lines, runs a session, and prints its log.
-/

open LiveDoc

namespace LiveDoc.CommandLine

/-- Writes what a log shows. -/
def showLog (log : List Event) : IO Unit := do
  let out ← IO.getStdout
  let err ← IO.getStderr
  for e in log do
    out.putStr e.outputText
    err.putStr e.errorText
  out.flush

/-- Writes what a run shows, and a failure that ends it. -/
def finish {α : Type} (r : Run α) : IO (Option α) := do
  let course := r.after []
  showLog course.log
  match course.outcome with
  | .ok a => return some a
  | .error f =>
    (← IO.getStderr).putStr (f.cls.name ++ ": " ++ f.message ++ "\n")
    return none

/-- The files at paths, as far as they can be read. -/
def readFiles (paths : List String) : IO Folder :=
  paths.filterMapM fun (path : String) => do
    try
      return some (path, (← IO.FS.readBinFile path).toList)
    catch _ => return none

/-- The present moment in UTC. -/
def readClock : IO Moment := do
  let t ← Std.Time.Timestamp.now
  let nanos := t.toNanosecondsSinceUnixEpoch.val
  return (Moment.ofClock? (Value.epochMicros + nanos / 1000) none).getD
    (Moment.midnight default)

/-- The text of an environment variable; one that is not set is empty. -/
def readVariable (name : String) : IO String := do return (← IO.getEnv name).getD ""

/-- Answers lines as they are entered. -/
partial def dialogue (s : Surroundings) (c : Config) (data : Value) : IO UInt32 := do
  showLog [.printed Session.prompt]
  let line ← (← IO.getStdin).getLine
  if line.isEmpty then
    showLog [.printed Session.farewell]
    return 0
  match ← finish (Session.grant s.call s.tracing c data (.ofLine line)) with
  | none => return 1
  | some none => return 0
  | some (some later) => dialogue s c later

end LiveDoc.CommandLine

open LiveDoc.CommandLine in
/-- Revives a document from a file, or holds a dialogue. -/
def main (arguments : List String) : IO UInt32 := do
  let s : Surroundings :=
    { files := ← readFiles (arguments.take 2), now := ← readClock,
      tracing := !(← readVariable "REVIVE_DEBUG").isEmpty,
      modules := ← readVariable "REVIVE_FUNCTIONS", input := [] }
  if Session.isDialogue arguments then
    match ← finish (Session.start s) with
    | none => return 1
    | some c => dialogue s c .null
  else match ← finish (Session.run s.call s arguments) with
    | none => return 1
    | some status => return status.toUInt32

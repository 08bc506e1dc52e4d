import BuildLog.Poll.Session
import BuildLog.Settings.Startup

/-!
# Command line

The program reads its settings from the environment and a log from its standard input, and prints
the log as the viewer shows it at its end: the status line, and every row that is not folded away.
It ends with 1 if its settings cannot be read or used.
-/

namespace BuildLog

/-- The values of the variables in the program's environment. -/
def environment : IO Settings.Environment := do
  let values ← Settings.Variable.all.mapM fun v => return (v.name, ← IO.getEnv v.name)
  return fun name => (values.lookup name).join.map String.toList

/-- The viewer once a whole log has been read. -/
def viewerOfLog (settings : Settings) (log : Text) : Viewer :=
  let chunk : Chunk := ⟨log, (Text.lines log).length⟩
  let session : Session := {
    poller := settings.poller, source := ⟨[.ok chunk], []⟩, jobFinished := .ok true }
  let (_, _, updates) := session.poll
  settings.viewer.receiveAll updates

/-- Print a log as the viewer shows it. -/
def printLog (viewer : Viewer) : IO Unit := do
  IO.println viewer.statusLine
  for row in Row.window viewer.view 0 viewer.rowCount viewer.options do
    IO.println (String.ofList (Row.plain row))

def fail (message : String) : IO UInt32 := do
  IO.eprintln ("Error: " ++ message)
  return 1

def run : IO UInt32 := do
  match Settings.read (← environment) with
  | .error fault => fail (": ".intercalate fault.messages)
  | .ok settings =>
    match settings.fault? with
    | some fault => fail fault.message
    | none =>
      let log ← (← IO.getStdin).readToEnd
      printLog (viewerOfLog settings log.toList)
      return 0

end BuildLog

/-- The command line program. -/
def main : IO UInt32 := BuildLog.run

import MiniLisp.LineLoop

/-!
The command line: the line loop on standard input.
-/

namespace MiniLisp.CommandLine

/-- Reads a line at a time until the input ends. -/
partial def loop (input output : IO.FS.Stream) (session : Session) : IO Unit := do
  output.putStr LineLoop.prompt
  output.flush
  let line ← input.getLine
  if line.isEmpty then
    output.putStr "\n"
  else
    let (session, answer) := LineLoop.respond session (line.dropSuffix "\n").toString
    output.putStr answer.shown
    match answer.escaped with
    | some e => throw (IO.userError e.message)
    | none => loop input output session

end MiniLisp.CommandLine

def main : IO Unit := do
  let limit := MiniLisp.Settings.readMaxDepth (← IO.getEnv "FLOW_MAX_DEPTH")
  MiniLisp.CommandLine.loop (← IO.getStdin) (← IO.getStdout) { limit := limit }

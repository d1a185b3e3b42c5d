import LiteralGrammar.Command.Line

open LiteralGrammar

def main (args : List String) : IO UInt32 := do
  let outcome := Command.run args
  let stdout ← IO.getStdout
  let stderr ← IO.getStderr
  stdout.putStr outcome.out
  stderr.putStr outcome.err
  stdout.flush
  return outcome.status

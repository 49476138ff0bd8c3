import LoopEscape.CommandLine.Basic

/-!
# The program

Reads the files that the command names, runs the command on them, and puts its results where they
belong.
-/

open LoopEscape

def readBytes? (path : String) : IO (Option (List Nat)) := do
  try
    let bytes ← IO.FS.readBinFile path
    return some (bytes.toList.map UInt8.toNat)
  catch _ => return none

def readEnvironment : IO CommandLine.Environment := do
  let context := (← IO.getEnv "CBIT_ERROR_CONTEXT_LINES").bind CommandLine.readInt?
  let numbers := ((← IO.getEnv "CBIT_ERROR_LINE_NUMBERS").getD "1") == "1"
  let tracebackLimit := (← IO.getEnv "CBIT_TRACEBACK_LIMIT").bind CommandLine.readInt?
  return { display := { context := (context.getD 1).toNat, numbers }
           debug := (← IO.getEnv "CBIT_DEBUG") == some "1", tracebackLimit }

def finish (env : CommandLine.Environment) (output : String) (r : CommandLine.Result) :
    IO UInt32 := do
  for (_, text) in r.log.shown do
    IO.eprintln text
  IO.eprint r.stderr
  match r.outcome with
  | .finished =>
    if output == "" then IO.print r.stdout else IO.FS.writeFile output r.stdout
    return 0
  | .exited code =>
    IO.print r.stdout
    return code.toUInt32
  | .failed f =>
    IO.eprintln (f.text env.display)
    return 1

def main (words : List String) : IO UInt32 := do
  let env ← readEnvironment
  match CommandLine.Arguments.read words with
  | .error _ => finish env "" (CommandLine.run env {} words)
  | .ok arguments =>
    let mut entries : List (String × List Nat) := []
    for name in arguments.files do
      if let some bytes ← readBytes? name then entries := entries ++ [(name, bytes)]
    let result := CommandLine.perform env (Files.ofList entries) { arguments with output := none }
    finish env (arguments.output.getD "") result

import LoopEscape.CommandLine.Arguments
import LoopEscape.Compile.Basic
import LoopEscape.Files
import LoopEscape.Version.Pragma

/-!
# The command

Compiles files and prints what was made of them, one file after the other.  Nothing is printed unless
all files compile.
-/

namespace LoopEscape.CommandLine

open Text

structure Environment where
  display : Display := {}
  debug : Bool := false
  tracebackLimit : Option Int := none

inductive Outcome
  | finished
  | exited (code : Nat)
  | failed (failure : Failure)

structure Result where
  stdout : String := ""
  stderr : String := ""
  tracebackLimit : Option Int := none
  log : WarningLog := {}
  files : Files := {}
  outcome : Outcome := .finished

def formats : List String := [Format.source, .loops, .astDump].map Format.name

/-- What the files were compiled to, by their paths, the first use of a path deciding its place. -/
abbrev Outputs := List (String × List (String × Output))

def Outputs.put : Outputs → String → List (String × Output) → Outputs
  | [], path, outputs => [(path, outputs)]
  | e :: rest, path, outputs =>
    if e.1 = path then (path, outputs) :: rest else e :: Outputs.put rest path outputs

def printed : Output → String
  | .text s => if s.toList.getLast? == some '\n' then s else s ++ "\n"
  | .loops summaries => (loopsJson summaries).render ++ "\n"
  | .kinds names => (Json.texts names).render ++ "\n"

def Outputs.text (outputs : Outputs) : String :=
  String.join (outputs.map fun (_, os) => String.join (os.map fun (_, o) => printed o))

/-- Compiles files in order: the warnings shown, and the outputs or the failure with the line that
announces it. -/
def compileFiles (env : Environment) (settings : Settings) (formats : List String) (files : Files)
    (log : WarningLog) (done : Outputs) :
    List String → WarningLog × Except (String × Failure) Outputs
  | [] => (log, .ok done)
  | name :: rest =>
    let path := shortPath name
    match files.read path with
    | .error problem => (log, .error ("", .file problem path))
    | .ok bytes =>
      match plainText? bytes with
      | none => (log, .error ("", .undecodable))
      | some text =>
        let job : Job :=
          { source := { text, path := some path }, settings := some settings
            environmentDebug := env.debug, display := env.display }
        match compile job false log formats with
        | (c, some f) => (c.log, .error ("Error compiling: " ++ path ++ "\n", f))
        | (c, none) =>
          compileFiles env settings formats files c.log (done.put path c.outputs) rest

def deliver (r : Result) (output : Option String) (text : String) : Result :=
  match output with
  | none | some "" => { r with stdout := text }
  | some path =>
    match r.files.write path (utf8Bytes text.toList) with
    | .ok files => { r with files }
    | .error problem => { r with outcome := .failed (.file problem path) }

def usage : String := "usage: cbit [-h] [--version] [-f FORMAT] [--debug] " ++
  "[--traceback-limit TRACEBACK_LIMIT] [-W \x7berror,none\x7d] [-o OUTPUT_PATH] " ++
  "input_files [input_files ...]\n"

def perform (env : Environment) (files : Files) (a : Arguments) : Result :=
  let limit := (a.tracebackLimit.or env.tracebackLimit).getD 0
  let r : Result := { tracebackLimit := some limit, files }
  let wanted := (splitText ',' a.format).eraseDups
  match wanted.find? fun f => !formats.contains f with
  | some f => { r with outcome := .failed (unsupportedFormat f) }
  | none =>
    let settings : Settings := { debug := if a.debug then some true else none }
    let policy := (WarningPolicy.ofControl? a.warnings).getD .once
    match compileFiles env settings wanted files { policy } [] a.files with
    | (log, .error (line, f)) => { r with log, stderr := line, outcome := .failed f }
    | (log, .ok outputs) => deliver { r with log } a.output outputs.text

def run (env : Environment) (files : Files) (words : List String) : Result :=
  match Arguments.read words with
  | .ok a => perform env files a
  | .error .version => { stdout := compilerVersion ++ "\n", files, outcome := .exited 0 }
  | .error .help => { stdout := usage, files, outcome := .exited 0 }
  | .error .usage => { stderr := usage, files, outcome := .exited 2 }

end LoopEscape.CommandLine

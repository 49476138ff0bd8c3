import LoopEscape.Diagnostic.Report

/-!
# What becomes of warnings

A warning is shown every time, once per text and kind, never, or taken for an error.
-/

namespace LoopEscape

inductive WarningPolicy
  | always
  | once
  | never
  | error
deriving DecidableEq, Repr, Inhabited

structure WarningLog where
  policy : WarningPolicy := .always
  shown : List (ReportKind × String) := []

namespace WarningLog

def issue (d : Display) (log : WarningLog) (w : Report) : Except Report WarningLog :=
  let entry := (w.kind, w.fullText d)
  match log.policy with
  | .always => .ok { log with shown := log.shown ++ [entry] }
  | .once =>
    if log.shown.contains entry then .ok log else .ok { log with shown := log.shown ++ [entry] }
  | .never => .ok log
  | .error => .error w

def issueAll (d : Display) (log : WarningLog) : List Report → WarningLog × Option Report
  | [] => (log, none)
  | w :: ws =>
    match log.issue d w with
    | .error r => (log, some r)
    | .ok log => issueAll d log ws

end WarningLog

def WarningPolicy.ofControl? : Option String → Option WarningPolicy
  | none => some .once
  | some "error" => some .error
  | some "none" => some .never
  | some _ => none

end LoopEscape

import LoopEscape.Relay.Basic

/-!
# Scripted tasks

A small language for tasks: recording, suspending, returning, raising, and cleaning up on the way out.
A task is closed at the place where it is suspended, and its clauses for cleaning up run then.
-/

namespace LoopEscape

inductive Action
  | escape (flow : Value)
  | record (flow : Value)
  | suspend (signal : Value)
  | return_ (value : Value)
  | log (value : Value)
  | raise (text : String)
  | choose (left right : Value) (same other : List Action)
  | protect (body : List Action) (handler : Option (List Action)) (final : List Action)
deriving Inhabited

inductive TaskExit
  | done
  | returned (value : Value)
  | raised (error : RelayError)
  | closed
  | ignored

structure TaskState where
  slot : Slot
  log : List Value := []
  suspended : Option (Value × Slot) := none

abbrev TaskPart := TaskState → TaskExit × TaskState

namespace TaskPart

def suspend (signal : Value) : TaskPart := fun s =>
  match s.suspended with
  | none => (.closed, { s with suspended := some (signal, s.slot) })
  | some _ => (.ignored, s)

def record (flow : Value) : TaskPart := fun s =>
  match s.slot.record flow with
  | .ok slot => (.done, { s with slot })
  | .error e => (.raised e, s)

def andThen (a b : TaskPart) : TaskPart := fun s =>
  match a s with
  | (.done, s) => b s
  | r => r

def handled (a : TaskPart) (handler : Option TaskPart) : TaskPart := fun s =>
  match a s, handler with
  | (.raised e, s), some h => h { s with log := s.log ++ [.text ("caught " ++ e.className)] }
  | r, _ => r

/-- Runs the last part whichever way the first ends, unless the task was given up.  The first exit
stands if the last part ends normally. -/
def finallyDo (a final : TaskPart) : TaskPart := fun s =>
  match a s with
  | (.ignored, s) => (.ignored, s)
  | (exit, s) =>
    match final s with
    | (.done, s) => (exit, s)
    | r => r

end TaskPart

mutual

def Action.run : Action → TaskPart
  | .escape flow => (TaskPart.record flow).andThen (TaskPart.suspend .abort)
  | .record flow => TaskPart.record flow
  | .suspend signal => TaskPart.suspend signal
  | .return_ v => fun s => (.returned v, s)
  | .log v => fun s => (.done, { s with log := s.log ++ [v] })
  | .raise t => fun s => (.raised (.raised t), s)
  | .choose left right same other =>
    if left.same right then Action.runAll same else Action.runAll other
  | .protect body none final => (Action.runAll body).finallyDo (Action.runAll final)
  | .protect body (some handler) final =>
    ((Action.runAll body).handled (some (Action.runAll handler))).finallyDo (Action.runAll final)

def Action.runAll : List Action → TaskPart
  | [] => fun s => (.done, s)
  | a :: rest => (Action.run a).andThen (Action.runAll rest)

end

def TaskRun.ofExit (exit : TaskExit) (s : TaskState) : TaskRun :=
  match s.suspended with
  | some (signal, slot) =>
    let closing := match exit with
      | .raised e => some e
      | .ignored => some .ignoredClose
      | _ => none
    { poll := .suspended signal slot, closing, log := s.log }
  | none =>
    let poll := match exit with
      | .returned v => .returned v
      | .raised e => .raised e
      | _ => .returned .none
    { poll, log := s.log }

def Task.ofScript (script : Value → List Action) : Task := fun item slot =>
  let (exit, s) := Action.runAll (script item) { slot }
  TaskRun.ofExit exit s

end LoopEscape

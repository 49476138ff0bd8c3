import LoopEscape.Compile.Basic
import LoopEscape.Relay.Value

/-!
# Executing modules

Modules that define data and functions are executed here: texts, assignments, definitions, and blocks
that are left by jumps.  A jump ends every statement up to its block, which takes the jump's value.  On
its way it is an exception, which a clause for all exceptions ends.
-/

namespace LoopEscape

abbrev Namespace := List (String × Value)

namespace Namespace

def set : Namespace → String → Value → Namespace
  | [], name, v => [(name, v)]
  | (n, w) :: rest, name, v => if n = name then (name, v) :: rest else (n, w) :: set rest name v

def get? (ns : Namespace) (name : String) : Option Value := ns.lookup name

def setDefault (ns : Namespace) (name : String) (v : Value) : Namespace :=
  if (ns.get? name).isSome then ns else ns.set name v

def visible (ns : Namespace) : Namespace := ns.filter fun (n, _) => n.toList.head? != some '_'

theorem get?_set (ns : Namespace) (name : String) (v : Value) : (ns.set name v).get? name = some v := by
  induction ns with
  | nil => simp [set, get?]
  | cons e rest ih =>
    obtain ⟨n, w⟩ := e
    by_cases h : n = name
    · simp [set, get?, h]
    · have hb : (name == n) = false := beq_false_of_ne fun e => h e.symm
      simpa [set, get?, h, List.lookup_cons, hb] using ih

end Namespace

def Value.ofLiteral? {ω : Type} : Literal → Option (Value ω)
  | .none => some .none
  | .true => some (.bool Bool.true)
  | .false => some (.bool Bool.false)
  | .int n => some (.int n)
  | .str codes _ => some (.text (Text.ofCodes codes))
  | _ => Option.none

mutual

def Expr.eval (ns : Namespace) : Expr → Except Failure Value
  | .const _ l =>
    match Value.ofLiteral? l with
    | some v => .ok v
    | none => .error .notSupported
  | .name _ id _ =>
    match ns.get? id with
    | some v => .ok v
    | none => .error (.undefinedName id)
  | .list _ items _ => (Expr.evalAll ns items).map .list
  | .tuple _ items _ => (Expr.evalAll ns items).map .tuple
  | .unary _ .minus operand => do
    match ← Expr.eval ns operand with
    | .int n => return .int (-n)
    | .bool b => return .int (-(Value.ofBool b))
    | _ => throw .notSupported
  | _ => .error .notSupported

def Expr.evalAll (ns : Namespace) : List Expr → Except Failure (List Value)
  | [] => .ok []
  | e :: rest => do return (← Expr.eval ns e) :: (← Expr.evalAll ns rest)

end

mutual

def Expr.bind (ns : Namespace) (v : Value) : Expr → Except Failure Namespace
  | .name _ id _ => .ok (ns.set id v)
  | .tuple _ targets _ | .list _ targets _ =>
    match v with
    | .tuple items | .list items => Expr.bindAll ns items targets
    | _ => .error .notSupported
  | _ => .error .notSupported

def Expr.bindAll (ns : Namespace) : List Value → List Expr → Except Failure Namespace
  | [], [] => .ok ns
  | v :: vs, t :: ts => do Expr.bindAll (← Expr.bind ns v t) vs ts
  | _, _ => .error .notSupported

end

/-- How statements ended: normally, or by a jump to a label with a value. -/
inductive RunExit
  | done
  | jumped (label : String) (value : Value)

def evalOptional (ns : Namespace) : Option Expr → Except Failure Value
  | none => .ok .none
  | some e => e.eval ns

/-- Whether a clause is for jumps: one for all exceptions is, one for ordinary errors is not. -/
def takesJumps (ns : Namespace) : Option Expr → Except Failure Bool
  | none => .ok true
  | some (.name _ id _) =>
    if (ns.get? id).isSome then .error .notSupported
    else if id = "BaseException" then .ok true
    else if id = "Exception" then .ok false
    else .error .notSupported
  | some _ => .error .notSupported

def unhandled {α : Type} : Except Failure α → Except Failure α
  | .ok a => .ok a
  | .error _ => .error .notSupported

mutual

def Stmt.run (ns : Namespace) : Stmt → Except Failure (Namespace × RunExit)
  | .expr _ value => do
    let _ ← value.eval ns
    return (ns, .done)
  | .assign _ targets value => do
    let v ← value.eval ns
    let ns ← targets.foldlM (fun ns t => t.bind ns v) ns
    return (ns, .done)
  | .annAssign _ target _ (some value) _ => do
    let v ← value.eval ns
    return (← target.bind ns v, .done)
  | .annAssign _ _ _ none _ | .pass _ | .global _ _ => .ok (ns, .done)
  | .function _ _ name _ _ [] _ => .ok (ns.set name .function, .done)
  | .break_ _ (some label) value => do return (ns, .jumped label (← evalOptional ns value))
  | .block _ label target body => do
    let start := match target with
      | none => ns
      | some t => ns.set t .none
    match ← Stmt.runAll start body with
    | (ns, .done) => return (ns, .done)
    | (ns, .jumped l v) =>
      if l = label then
        return (match target with
          | none => ns
          | some t => ns.set t v, .done)
      else return (ns, .jumped l v)
  | .try_ _ false body handlers orElse final => unhandled do
      let (ns, exit) ←
        match ← Stmt.runAll ns body with
        | (ns, .done) => Stmt.runAll ns orElse
        | (ns, exit) => Handler.runFirst ns exit handlers
      match ← Stmt.runAll ns final with
      | (ns, .done) => return (ns, exit)
      | r => return r
  | _ => .error .notSupported

def Stmt.runAll (ns : Namespace) : List Stmt → Except Failure (Namespace × RunExit)
  | [] => .ok (ns, .done)
  | s :: rest => do
    match ← Stmt.run ns s with
    | (ns, .done) => Stmt.runAll ns rest
    | r => return r

def Handler.runFirst (ns : Namespace) (exit : RunExit) :
    List Handler → Except Failure (Namespace × RunExit)
  | [] => .ok (ns, exit)
  | .mk _ type none body :: rest => do
    if ← takesJumps ns type then Stmt.runAll ns body else Handler.runFirst ns exit rest
  | .mk _ _ (some _) _ :: _ => .error .notSupported

end

def runModule (ns : Namespace) (body : List Stmt) : Except Failure Namespace :=
  (Stmt.runAll ns body).map (·.1)

namespace Job

def compileCode (job : Job) (log : WarningLog) : WarningLog × Except Failure String :=
  match compile job false log [Format.code.name] with
  | (c, some f) => (c.log, .error f)
  | (c, none) => (c.log, .ok job.codeName)

def execute (job : Job) (log : WarningLog) (ns : Namespace) : WarningLog × Except Failure Namespace :=
  match job.compileCode log with
  | (log, .error f) => (log, .error f)
  | (log, .ok _) => (log, do runModule ns (← job.parse).body)

def mainName : String := "__cbit__"

/-- Executes a program on its own, in a given namespace or a new one.  Its name and path are kept if
they are set. -/
def executeMain (job : Job) (log : WarningLog) (given : Option Namespace) :
    WarningLog × Except Failure Namespace :=
  let ns := (given.getD []).setDefault "__name__" (.text mainName)
  let ns := match job.source.path with
    | none => ns
    | some p => ns.setDefault "__file__" (.text p)
  job.execute log ns

end Job

end LoopEscape

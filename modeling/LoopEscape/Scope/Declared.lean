import LoopEscape.Tree.Stmt

/-!
# Declarations of a scope

The names that a scope declares global or nonlocal.  Declarations written inside callback loops are
taken out of them, since they belong to the scope around the loops.
-/

namespace LoopEscape

structure Declarations where
  globals : List String := []
  nonlocals : List String := []
deriving DecidableEq, Repr, Inhabited

namespace Declarations

def append (a b : Declarations) : Declarations := ⟨a.globals ++ b.globals, a.nonlocals ++ b.nonlocals⟩

instance : Append Declarations := ⟨append⟩

def unique (d : Declarations) : Declarations := ⟨d.globals.eraseDups, d.nonlocals.eraseDups⟩

def without (a b : Declarations) : Declarations :=
  ⟨a.globals.filter (!b.globals.contains ·), a.nonlocals.filter (!b.nonlocals.contains ·)⟩

end Declarations

/-! ### Declarations of a scope -/

mutual

/-- What a statement declares in its scope.  The handlers of a `try` come after its other clauses. -/
def Stmt.declared : Stmt → Declarations
  | .global _ names => { globals := names }
  | .nonlocal _ names => { nonlocals := names }
  | .for_ _ _ _ _ _ body orElse | .while_ _ _ _ body orElse | .if_ _ _ body orElse =>
    Stmt.declaredAll body ++ Stmt.declaredAll orElse
  | .with_ _ _ _ body | .callbackLoop _ _ _ _ body | .block _ _ _ body => Stmt.declaredAll body
  | .match_ _ _ cases => MatchCase.declaredAll cases
  | .try_ _ _ body handlers orElse final =>
    Stmt.declaredAll body ++ Stmt.declaredAll orElse ++ Stmt.declaredAll final ++
      Handler.declaredAll handlers
  | _ => {}

def Stmt.declaredAll : List Stmt → Declarations
  | [] => {}
  | s :: rest => Stmt.declared s ++ Stmt.declaredAll rest

def Handler.declaredAll : List Handler → Declarations
  | [] => {}
  | .mk _ _ _ body :: rest => Stmt.declaredAll body ++ Handler.declaredAll rest

def MatchCase.declaredAll : List MatchCase → Declarations
  | [] => {}
  | .mk _ _ body :: rest => Stmt.declaredAll body ++ MatchCase.declaredAll rest

end

def declaredNames (body : List Stmt) : Declarations := (Stmt.declaredAll body).unique

/-! ### Taking declarations out -/

def orPass (loc : Loc) : List Stmt → List Stmt
  | [] => [.pass loc]
  | body => body

mutual

/-- A statement without the declarations in it; nested functions and classes keep theirs. -/
def Stmt.undeclared : Stmt → List Stmt
  | .global .. | .nonlocal .. => []
  | .for_ loc isAsync mark target iter body orElse =>
    [.for_ loc isAsync mark target iter (orPass loc (Stmt.undeclaredAll body))
      (Stmt.undeclaredAll orElse)]
  | .while_ loc mark test body orElse =>
    [.while_ loc mark test (orPass loc (Stmt.undeclaredAll body)) (Stmt.undeclaredAll orElse)]
  | .if_ loc test body orElse =>
    [.if_ loc test (orPass loc (Stmt.undeclaredAll body)) (Stmt.undeclaredAll orElse)]
  | .with_ loc isAsync items body =>
    [.with_ loc isAsync items (orPass loc (Stmt.undeclaredAll body))]
  | .match_ loc subject cases => [.match_ loc subject (MatchCase.undeclaredAll loc cases)]
  | .try_ loc isStar body handlers orElse final =>
    [.try_ loc isStar (orPass loc (Stmt.undeclaredAll body)) (Handler.undeclaredAll handlers)
      (Stmt.undeclaredAll orElse) (Stmt.undeclaredAll final)]
  | .callbackLoop loc header target iter body =>
    [.callbackLoop loc header target iter (orPass loc (Stmt.undeclaredAll body))]
  | .block loc label target body =>
    [.block loc label target (orPass loc (Stmt.undeclaredAll body))]
  | s => [s]

def Stmt.undeclaredAll : List Stmt → List Stmt
  | [] => []
  | s :: rest => Stmt.undeclared s ++ Stmt.undeclaredAll rest

def Handler.undeclaredAll : List Handler → List Handler
  | [] => []
  | .mk loc type name body :: rest =>
    .mk loc type name (orPass loc (Stmt.undeclaredAll body)) :: Handler.undeclaredAll rest

def MatchCase.undeclaredAll (loc : Loc) : List MatchCase → List MatchCase
  | [] => []
  | .mk pattern guard body :: rest =>
    .mk pattern guard (orPass loc (Stmt.undeclaredAll body)) :: MatchCase.undeclaredAll loc rest

end

mutual

def Stmt.written : Stmt → Declarations
  | .global _ names => { globals := names }
  | .nonlocal _ names => { nonlocals := names }
  | .for_ _ _ _ _ _ body orElse | .while_ _ _ _ body orElse | .if_ _ _ body orElse =>
    Stmt.writtenAll body ++ Stmt.writtenAll orElse
  | .with_ _ _ _ body | .callbackLoop _ _ _ _ body | .block _ _ _ body => Stmt.writtenAll body
  | .match_ _ _ cases => MatchCase.writtenAll cases
  | .try_ _ _ body handlers orElse final =>
    Stmt.writtenAll body ++ Handler.writtenAll handlers ++ Stmt.writtenAll orElse ++
      Stmt.writtenAll final
  | _ => {}

def Stmt.writtenAll : List Stmt → Declarations
  | [] => {}
  | s :: rest => Stmt.written s ++ Stmt.writtenAll rest

def Handler.writtenAll : List Handler → Declarations
  | [] => {}
  | .mk _ _ _ body :: rest => Stmt.writtenAll body ++ Handler.writtenAll rest

def MatchCase.writtenAll : List MatchCase → Declarations
  | [] => {}
  | .mk _ _ body :: rest => Stmt.writtenAll body ++ MatchCase.writtenAll rest

end

mutual

def Stmt.hoisted : Stmt → Declarations
  | .callbackLoop _ _ _ _ body => Stmt.writtenAll body
  | .for_ _ _ _ _ _ body orElse | .while_ _ _ _ body orElse | .if_ _ _ body orElse =>
    Stmt.hoistedAll body ++ Stmt.hoistedAll orElse
  | .with_ _ _ _ body | .block _ _ _ body => Stmt.hoistedAll body
  | .match_ _ _ cases => MatchCase.hoistedAll cases
  | .try_ _ _ body handlers orElse final =>
    Stmt.hoistedAll body ++ Stmt.hoistedAll orElse ++ Stmt.hoistedAll final ++
      Handler.hoistedAll handlers
  | _ => {}

def Stmt.hoistedAll : List Stmt → Declarations
  | [] => {}
  | s :: rest => Stmt.hoisted s ++ Stmt.hoistedAll rest

def Handler.hoistedAll : List Handler → Declarations
  | [] => {}
  | .mk _ _ _ body :: rest => Stmt.hoistedAll body ++ Handler.hoistedAll rest

def MatchCase.hoistedAll : List MatchCase → Declarations
  | [] => {}
  | .mk _ _ body :: rest => Stmt.hoistedAll body ++ MatchCase.hoistedAll rest

end

def hoistedNames (body : List Stmt) : Declarations := (Stmt.hoistedAll body).unique

mutual

def Stmt.stripLoops : Stmt → Stmt
  | .callbackLoop loc header target iter body =>
    .callbackLoop loc header target iter (orPass loc (Stmt.undeclaredAll body))
  | .for_ loc isAsync mark target iter body orElse =>
    .for_ loc isAsync mark target iter (Stmt.stripLoopsAll body) (Stmt.stripLoopsAll orElse)
  | .while_ loc mark test body orElse =>
    .while_ loc mark test (Stmt.stripLoopsAll body) (Stmt.stripLoopsAll orElse)
  | .if_ loc test body orElse =>
    .if_ loc test (Stmt.stripLoopsAll body) (Stmt.stripLoopsAll orElse)
  | .with_ loc isAsync items body => .with_ loc isAsync items (Stmt.stripLoopsAll body)
  | .match_ loc subject cases => .match_ loc subject (MatchCase.stripLoopsAll cases)
  | .try_ loc isStar body handlers orElse final =>
    .try_ loc isStar (Stmt.stripLoopsAll body) (Handler.stripLoopsAll handlers)
      (Stmt.stripLoopsAll orElse) (Stmt.stripLoopsAll final)
  | .block loc label target body => .block loc label target (Stmt.stripLoopsAll body)
  | s => s

def Stmt.stripLoopsAll : List Stmt → List Stmt
  | [] => []
  | s :: rest => Stmt.stripLoops s :: Stmt.stripLoopsAll rest

def Handler.stripLoopsAll : List Handler → List Handler
  | [] => []
  | .mk loc type name body :: rest =>
    .mk loc type name (Stmt.stripLoopsAll body) :: Handler.stripLoopsAll rest

def MatchCase.stripLoopsAll : List MatchCase → List MatchCase
  | [] => []
  | .mk pattern guard body :: rest =>
    .mk pattern guard (Stmt.stripLoopsAll body) :: MatchCase.stripLoopsAll rest

end

def hoist (body : List Stmt) : Declarations × List Stmt := (hoistedNames body, Stmt.stripLoopsAll body)

end LoopEscape

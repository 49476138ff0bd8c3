import LoopEscape.Tree.Stmt
import LoopEscape.Escape.Taxonomy

/-!
# Pieces of generated code

Generated code stands at the place of the construct that it is generated for.  Whatever it needs when
it runs it takes from a support module, which is imported under a reserved name.
-/

namespace LoopEscape.Generate

def supportModule : String := "cbit.runtime"

def supportName : String := generatedName ["rt"]

def load (s : Span) (name : String) : Expr := .name s name .load

def store (s : Span) (name : String) : Expr := .name s name .store

def attr (s : Span) (value : Expr) (name : String) : Expr := .member s value name .load

def support (s : Span) (name : String) : Expr := attr s (load s supportName) name

def call (s : Span) (func : Expr) (args : List Expr) : Expr := .call s func args []

def nothing (s : Span) : Expr := .const s .none

def text (s : Span) (t : String) : Expr := .const s (.text t)

def assign (loc : Loc) (target : String) (value : Expr) : Stmt :=
  .assign loc [store loc.span target] value

def isInstance (s : Span) (value : Expr) (kind : String) : Expr :=
  call s (support s "is_instance") [value, support s kind]

def ifChain (loc : Loc) (orElse : List Stmt) : List (Expr × List Stmt) → List Stmt
  | [] => orElse
  | (test, body) :: rest => [.if_ loc test body (ifChain loc orElse rest)]

def declarations (loc : Loc) (globals nonlocals : List String) : List Stmt :=
  (if globals.isEmpty then [] else [.global loc globals]) ++
    (if nonlocals.isEmpty then [] else [.nonlocal loc nonlocals])

def variable_ (loc : Loc) (name : String) : Stmt :=
  .annAssign loc (store loc.span name) (load loc.span "object") none true

def insertAfterDoc (decls : List Stmt) : List Stmt → List Stmt
  | [] => decls
  | s :: rest => if s.isText then s :: (decls ++ rest) else decls ++ s :: rest

/-! ### The import of the support module -/

def isFutureImport : Stmt → Bool
  | .importFrom _ (some "__future__") _ _ => true
  | _ => false

/-- How many statements at the start of a module have to stay in front: a documenting text and the
imports of future features behind it. -/
def preludeLength (body : List Stmt) : Nat :=
  let doc := (body.take 1).countP Stmt.isText
  doc + ((body.drop doc).takeWhile isFutureImport).length

def supportImport (span : Span) : Stmt :=
  .supportImport { span } [{ span, name := supportModule, asName := some supportName }]

/-- The module with the support module imported behind its prelude, and how many statements stand up
to the import. -/
def ensureImport (body : List Stmt) : List Stmt × Nat :=
  let n := preludeLength body
  match body.drop n with
  | .supportImport .. :: _ => (body, n + 1)
  | s :: rest =>
    let span : Span := { s.loc.span with endLine := s.loc.span.line, endCol := s.loc.span.col }
    (body.take n ++ supportImport span :: s :: rest, n + 1)
  | [] => (body ++ [supportImport ⟨1, 0, 1, 0⟩], n + 1)

def insertAfterImport (stmts : List Stmt) (body : List Stmt) : List Stmt :=
  let (body, n) := ensureImport body
  body.take n ++ stmts ++ body.drop n

end LoopEscape.Generate

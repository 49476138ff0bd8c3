import LoopEscape.Decimal.Binary
import LoopEscape.Text.Quoted

/-!
# Expressions

The expressions and patterns of the plain language as trees.  Every node knows the stretch of source it
covers; lines count from one and columns count bytes from zero.
-/

namespace LoopEscape

structure Span where
  line : Nat
  col : Nat
  endLine : Nat
  endCol : Nat
deriving DecidableEq, Repr, Inhabited

inductive Access
  | load
  | store
  | del
deriving DecidableEq, Repr, Inhabited

inductive BoolOp
  | and
  | or
deriving DecidableEq, Repr, Inhabited

inductive BinOp
  | add
  | sub
  | mult
  | matMult
  | div
  | mod
  | pow
  | leftShift
  | rightShift
  | bitOr
  | bitXor
  | bitAnd
  | floorDiv
deriving DecidableEq, Repr, Inhabited

inductive UnaryOp
  | invert
  | not
  | plus
  | minus
deriving DecidableEq, Repr, Inhabited

inductive CompareOp
  | eq
  | notEq
  | less
  | lessEq
  | greater
  | greaterEq
  | is
  | isNot
  | isIn
  | notIn
deriving DecidableEq, Repr, Inhabited

/-- Constants.  The text of a string is a list of code points, since it may hold surrogates; `marked`
tells that it was written with the prefix `u`. -/
inductive Literal
  | none
  | true
  | false
  | ellipsis
  | int (n : Nat)
  | float (x : Binary64)
  | imaginary (x : Binary64)
  | str (text : List Text.Code) (marked : Bool)
  | bytes (bytes : List Nat)
deriving DecidableEq, Repr, Inhabited

def Literal.text (s : String) : Literal := .str (Text.codes s) Bool.false

inductive CompKind
  | list
  | set
  | generator
deriving DecidableEq, Repr, Inhabited

mutual

inductive Expr
  | boolOp (span : Span) (op : BoolOp) (values : List Expr)
  | named (span : Span) (target value : Expr)
  | binary (span : Span) (left : Expr) (op : BinOp) (right : Expr)
  | unary (span : Span) (op : UnaryOp) (operand : Expr)
  | lambda (span : Span) (params : Params) (body : Expr)
  | conditional (span : Span) (test body orElse : Expr)
  | dict (span : Span) (items : List DictItem)
  | set (span : Span) (elements : List Expr)
  | comp (span : Span) (kind : CompKind) (element : Expr) (clauses : List CompClause)
  | dictComp (span : Span) (key value : Expr) (clauses : List CompClause)
  | await (span : Span) (value : Expr)
  | yield (span : Span) (value : Option Expr)
  | yieldFrom (span : Span) (value : Expr)
  | compare (span : Span) (left : Expr) (rest : List (CompareOp × Expr))
  | call (span : Span) (func : Expr) (args : List Expr) (keywords : List Keyword)
  | formatted (span : Span) (value : Expr) (conversion : Option Char) (format : Option Expr)
  | joined (span : Span) (parts : List Expr)
  | const (span : Span) (value : Literal)
  | member (span : Span) (value : Expr) (name : String) (access : Access)
  | subscript (span : Span) (value index : Expr) (access : Access)
  | starred (span : Span) (value : Expr) (access : Access)
  | name (span : Span) (id : String) (access : Access)
  | list (span : Span) (elements : List Expr) (access : Access)
  | tuple (span : Span) (elements : List Expr) (access : Access)
  | slice (span : Span) (lower upper step : Option Expr)

inductive DictItem
  | pair (key value : Expr)
  | spread (value : Expr)

inductive CompClause
  | mk (isAsync : Bool) (target iter : Expr) (conditions : List Expr)

inductive Keyword
  | mk (span : Span) (name : Option String) (value : Expr)

inductive Param
  | mk (span : Span) (name : String) (typeHint default : Option Expr)

/-- The parameters of a function: positional ones, either, the rest of the positional arguments,
named ones, the rest of the named arguments. -/
inductive Params
  | mk (positional either : List Param) (rest : Option Param) (named : List Param)
      (namedRest : Option Param)

end

instance : Inhabited Expr := ⟨.const default .none⟩

namespace Expr

def span : Expr → Span
  | boolOp s .. | named s .. | binary s .. | unary s .. | lambda s .. | conditional s .. | dict s ..
  | set s .. | comp s .. | dictComp s .. | await s .. | yield s .. | yieldFrom s .. | compare s ..
  | call s .. | formatted s .. | joined s .. | const s .. | member s .. | subscript s ..
  | starred s .. | name s .. | list s .. | tuple s .. | slice s .. => s

end Expr

namespace CompClause

def isAsync : CompClause → Bool
  | mk a .. => a

def target : CompClause → Expr
  | mk _ t .. => t

def iter : CompClause → Expr
  | mk _ _ i _ => i

def conditions : CompClause → List Expr
  | mk _ _ _ cs => cs

end CompClause

namespace Keyword

def span : Keyword → Span
  | mk s .. => s

def name : Keyword → Option String
  | mk _ n _ => n

def value : Keyword → Expr
  | mk _ _ v => v

end Keyword

namespace Param

def span : Param → Span
  | mk s .. => s

def name : Param → String
  | mk _ n .. => n

def typeHint : Param → Option Expr
  | mk _ _ a _ => a

def default : Param → Option Expr
  | mk _ _ _ d => d

end Param

namespace Params

def positional : Params → List Param
  | mk p .. => p

def either : Params → List Param
  | mk _ e .. => e

def rest : Params → Option Param
  | mk _ _ r .. => r

def named : Params → List Param
  | mk _ _ _ n _ => n

def namedRest : Params → Option Param
  | mk _ _ _ _ r => r

def empty : Params := .mk [] [] none [] none

def names (ps : Params) : List String :=
  (ps.positional ++ ps.either ++ ps.named ++ ps.rest.toList ++ ps.namedRest.toList).map Param.name

end Params

inductive CasePattern
  | value (span : Span) (value : Expr)
  | singleton (span : Span) (value : Literal)
  | sequence (span : Span) (patterns : List CasePattern)
  | mapping (span : Span) (keys : List Expr) (patterns : List CasePattern) (rest : Option String)
  | ofClass (span : Span) (cls : Expr) (patterns : List CasePattern) (names : List String)
      (named : List CasePattern)
  | star (span : Span) (name : Option String)
  | as_ (span : Span) (pattern : Option CasePattern) (name : Option String)
  | or_ (span : Span) (patterns : List CasePattern)
deriving Inhabited

def CasePattern.span : CasePattern → Span
  | value s .. | singleton s .. | sequence s .. | mapping s .. | ofClass s .. | star s .. | as_ s ..
  | or_ s .. => s

end LoopEscape

/-!
# Tokens

A token is a piece of source text with its place.  Rows count from one and columns count characters
from zero.
-/

namespace LoopEscape

structure Position where
  row : Nat
  col : Nat
deriving DecidableEq, Repr, Inhabited

namespace Position

def before (p q : Position) : Bool := p.row < q.row || (p.row == q.row && p.col < q.col)

end Position

inductive TokenKind
  | encoding
  | name
  | number
  | string
  | op
  | comment
  | newline
  | lineBreak
  | indent
  | dedent
  | stray
  | endMarker
deriving DecidableEq, Repr, Inhabited

structure Token where
  kind : TokenKind
  text : String
  start : Position
  stop : Position
deriving DecidableEq, Repr, Inhabited

namespace Token

def isName (t : Token) (text : String) : Bool := t.kind == .name && t.text == text

def isOp (t : Token) (text : String) : Bool := t.kind == .op && t.text == text

def isOpening (t : Token) : Bool := t.isOp "(" || t.isOp "[" || t.isOp "\x7b"

def isClosing (t : Token) : Bool := t.isOp ")" || t.isOp "]" || t.isOp "\x7d"

def depthChange (t : Token) : Int :=
  if t.isOpening then 1 else if t.isClosing then -1 else 0

def keywords : List String :=
  ["False", "None", "True", "and", "as", "assert", "async", "await", "break", "class", "continue",
   "def", "del", "elif", "else", "except", "finally", "for", "from", "global", "if", "import", "in",
   "is", "lambda", "nonlocal", "not", "or", "pass", "raise", "return", "try", "while", "with",
   "yield"]

def isIdentifier (t : Token) : Bool := t.kind == .name && !keywords.contains t.text

def isBoundary (t : Token) : Bool :=
  match t.kind with
  | .encoding | .newline | .lineBreak | .indent | .dedent => true
  | _ => false

def endsStatement (t : Token) : Bool :=
  t.kind == .newline || t.kind == .comment || t.kind == .endMarker || t.isOp ";"

end Token

end LoopEscape

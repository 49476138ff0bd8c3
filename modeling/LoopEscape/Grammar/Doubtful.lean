import LoopEscape.Grammar.Statement

/-!
# Doubtful spellings

Plain code may hold spellings that are read but frowned upon: an unknown escape in a string, and a
number that runs into the word after it.  A strict parse refuses them.
-/

namespace LoopEscape

namespace Reading

mutual

def Piece.exprs : Piece → List (List Char)
  | .text _ => []
  | .field _ expr _ none => [expr]
  | .field _ expr _ (some format) => expr :: Piece.allExprs format

def Piece.allExprs : List Piece → List (List Char)
  | [] => []
  | p :: rest => p.exprs ++ Piece.allExprs rest

end

end Reading

def runsOn : List Token → Bool
  | a :: b :: rest => (a.kind == .number && b.kind == .name && a.stop == b.start) || runsOn (b :: rest)
  | _ => false

def Token.hasUnknownEscape (t : Token) : Bool :=
  let q := Reading.Quoted.of t.text.toList
  t.kind == .string && !q.raw && Reading.hasUnknownEscape q.bytes q.body

def Token.fieldExprs (t : Token) : List (List Char) :=
  let q := Reading.Quoted.of t.text.toList
  if t.kind == .string && q.formatted then
    Reading.Piece.allExprs ((Reading.allPieces q.raw q.body).getD [])
  else []

def areDoubtful : Nat → List Token → Bool
  | 0, tokens => runsOn tokens || tokens.any Token.hasUnknownEscape
  | depth + 1, tokens =>
    runsOn tokens || tokens.any Token.hasUnknownEscape ||
      (tokens.flatMap Token.fieldExprs).any fun e => areDoubtful depth (lex (String.ofList e)).tokens

/-- Fields that hold strings with fields nest at most as deep as there are kinds of quotes. -/
def fieldDepth : Nat := 4

def parsePlain (strict : Bool) (place : Position → Position) (code : String) :
    Except GrammarFault (List Stmt) := do
  let body ← parseCode place code
  if strict && areDoubtful fieldDepth (lex code).tokens then
    throw ⟨LexProblem.invalidSyntax.message, place ⟨1, 0⟩⟩
  return body

end LoopEscape

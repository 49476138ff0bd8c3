import LoopEscape.Text.CharClass

/-!
# Lines and blanks of a text

A text is cut into lines after each line boundary, of which there are more than the newline; trimming
removes blanks from either end; indenting puts a fixed text before lines.
-/

namespace LoopEscape.Text

/-- The characters that end a line.  A carriage return and the newline after it end one line. -/
def isLineBreak (c : Char) : Bool :=
  let n := c.toNat
  (10 ≤ n && n ≤ 13) || (28 ≤ n && n ≤ 30) || n == 0x85 || n == 0x2028 || n == 0x2029

/-- Cuts a text after its line boundaries.  `line` holds the characters since the last one,
the latest first. -/
def cutLines (line : List Char) : List Char → List (List Char)
  | [] => if line.isEmpty then [] else [line.reverse]
  | '\r' :: '\n' :: cs => ('\n' :: '\r' :: line).reverse :: cutLines [] cs
  | c :: cs =>
    if isLineBreak c then (c :: line).reverse :: cutLines [] cs else cutLines (c :: line) cs

def lines (cs : List Char) : List (List Char) := cutLines [] cs

theorem flatten_cutLines (line cs : List Char) :
    (cutLines line cs).flatten = line.reverse ++ cs := by
  fun_induction cutLines line cs with
  | case1 line h => simp_all
  | case2 line h => simp
  | case3 line cs ih => simp [ih]
  | case4 line c cs _ _ ih => simp [ih]
  | case5 line c cs _ _ ih => simp [ih]

theorem flatten_lines (cs : List Char) : (lines cs).flatten = cs := by
  simp [lines, flatten_cutLines]

def dropBreak (line : List Char) : List Char :=
  match line.reverse with
  | '\n' :: '\r' :: rest => rest.reverse
  | c :: rest => if isLineBreak c then rest.reverse else line
  | [] => []

def bareLines (cs : List Char) : List (List Char) := (lines cs).map dropBreak

def trimLeft (cs : List Char) : List Char := cs.dropWhile isBlank

def trimRight (cs : List Char) : List Char := (cs.reverse.dropWhile isBlank).reverse

def trim (cs : List Char) : List Char := trimRight (trimLeft cs)

def trimString (s : String) : String := String.ofList (trim s.toList)

def firstWord (cs : List Char) : List Char := (trimLeft cs).takeWhile (! isBlank ·)

def indentLines (margin : String) (text : String) : String :=
  String.join ((lines text.toList).map fun line =>
    if line.all isBlank then String.ofList line else margin ++ String.ofList line)

def repeated (s : String) (n : Nat) : String := String.join (List.replicate n s)

def padLeft (width : Nat) (s : String) : String := repeated " " (width - s.length) ++ s

def replaceChar (c : Char) (by_ : String) (s : String) : String :=
  String.join (s.toList.map fun d => if d == c then by_ else d.toString)

def dropStart? (start cs : List Char) : Option (List Char) :=
  if start.isPrefixOf cs then some (cs.drop start.length) else none

def containsPart (part : List Char) : List Char → Bool
  | [] => part.isEmpty
  | c :: cs => part.isPrefixOf (c :: cs) || containsPart part cs

example : lines "a\r\nb\x0cc".toList = ["a\r\n".toList, "b\x0c".toList, "c".toList] := by decide

example : bareLines "a\n\nb\n".toList = ["a".toList, [], "b".toList] := by decide

example : trimString " \t a b\n" = "a b" := by decide

end LoopEscape.Text

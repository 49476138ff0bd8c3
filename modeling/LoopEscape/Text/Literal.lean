import LoopEscape.Text.Quoted

/-!
# Text literals with few escapes

A literal may stand between single or triple quotes.  This module writes a content so that it needs
few escapes, and tells which quotes it can stand between.
-/

namespace LoopEscape.Text

def singleQuotes : List String := ["'", "\""]

def tripleQuotes : List String := ["\"\"\"", "'''"]

def allQuotes : List String := singleQuotes ++ tripleQuotes

def occursIn (part : List Char) : List Char → Bool
  | [] => part.isEmpty
  | c :: cs => part.isPrefixOf (c :: cs) || occursIn part cs

/-- A character with an escape only if it needs one; line ends and tabs need one when `escapeBlank` is
set. -/
def escapePlain (escapeBlank : Bool) (c : Code) : List Char :=
  if !escapeBlank && (c = 10 || c = 9) then [Char.ofNat c]
  else if c = 92 || !isPrintable c then (escapeSpecial c).toList
  else [Char.ofNat c]

def avoidFirst (last : Char) (quotes : List String) : List String :=
  let starts := fun (q : String) => q.toList.head? == some last
  quotes.filter (!starts ·) ++ quotes.filter starts

/-- The content of a literal and the quotes, out of those given, that it can stand between, the best
first.  If none will do the content is written as a quoted literal has it. -/
def literalContent (quotes : List String) (escapeBlank : Bool) (cs : List Code) :
    String × List String :=
  let escaped := (cs.map (escapePlain escapeBlank)).flatten
  let quotes' := if escaped.contains '\n' then quotes.filter tripleQuotes.contains else quotes
  match quotes'.filter (fun q => !occursIn q.toList escaped), escaped.getLast? with
  | [], _ =>
    let quoted := (quoteCodes cs).toList
    let mark := quoted.take 1
    let quote := (quotes.find? fun q => q.toList.take 1 == mark).getD (String.ofList mark)
    (String.ofList (quoted.drop 1).dropLast, [quote])
  | possible, none => ("", possible)
  | possible, some last =>
    let ordered := avoidFirst last possible
    match ordered with
    | q :: _ =>
      if q.toList.head? == some last then
        (String.ofList (escaped.dropLast ++ ['\\', last]), ordered)
      else (String.ofList escaped, ordered)
    | [] => (String.ofList escaped, ordered)

def literal (quotes : List String) (cs : List Code) : String :=
  let (content, possible) := literalContent quotes false cs
  let quote := possible.headD ""
  quote ++ content ++ quote

example : literal allQuotes (codes "it's") = "\"it's\"" := by decide +kernel

example : literal tripleQuotes (codes "say \"") = "'''say \"'''" := by decide +kernel

/-- The parts of one literal, each with the mark whether its line ends are to be escaped; the quotes
are those that every part can stand between, or nothing if there are none. -/
def partContents (quotes : List String) : List (List Code × Bool) → Option (List String × List String)
  | [] => some ([], quotes)
  | (cs, escapeBlank) :: rest =>
    let (content, possible) := literalContent quotes escapeBlank cs
    if possible.any quotes.contains then
      (partContents possible rest).map fun (contents, quotes) => (content :: contents, quotes)
    else none

def forcedContent (cs : List Code) : String :=
  String.ofList ((quoteCodes (34 :: cs)).toList.drop 2).dropLast

def literalOfParts (parts : List (List Code × Bool)) : String :=
  let (contents, quotes) := (partContents allQuotes parts).getD
    (parts.map fun p => forcedContent p.1, ["'''"])
  let quote := quotes.headD ""
  quote ++ String.join contents ++ quote

end LoopEscape.Text

import LoopEscape.Text.Lines

/-!
# Arguments of the command

Words that start with a hyphen are options; a long option may be cut short as long as it is clear, and
an option's value may follow it in the same word.  The files to compile stand together: what is left
over is refused.
-/

namespace LoopEscape.CommandLine

inductive Flag
  | help
  | version
  | format
  | debug
  | tracebackLimit
  | warnings
  | output
deriving DecidableEq, Repr

namespace Flag

def spellings : List (String × Flag) :=
  [("-h", help), ("--help", help), ("--version", version), ("-f", format), ("--debug", debug),
   ("--traceback-limit", tracebackLimit), ("-W", warnings), ("-o", output)]

def takesValue : Flag → Bool
  | format | tracebackLimit | warnings | output => true
  | help | version | debug => false

end Flag

inductive Stop
  | help
  | version
  | usage
deriving DecidableEq, Repr

inductive Word
  | option (flag : Flag) (value : Option String) (short : Bool)
  | unknown
  | plain (text : String)
  | divider
deriving DecidableEq, Repr

namespace Word

def isPlain : Word → Bool
  | plain _ => true
  | _ => false

def text? : Word → Option String
  | plain t => some t
  | _ => none

def cutValue (cs : List Char) : List Char × Option String :=
  match cs.dropWhile (· != '=') with
  | [] => (cs, none)
  | _ :: value => (cs.takeWhile (· != '='), some (String.ofList value))

def isNegativeNumber (cs : List Char) : Bool :=
  match cs with
  | '-' :: ds =>
    let whole := ds.takeWhile Text.isAsciiDigit
    match ds.dropWhile Text.isAsciiDigit with
    | [] => !whole.isEmpty
    | '.' :: fraction => !fraction.isEmpty && fraction.all Text.isAsciiDigit
    | _ => false
  | _ => false

def candidates (cs : List Char) : List Word :=
  match cs with
  | '-' :: '-' :: _ =>
    let (name, value) := cutValue cs
    (Flag.spellings.filter fun (s, _) => name.isPrefixOf s.toList).map fun (_, f) =>
      .option f value false
  | _ =>
    (Flag.spellings.filterMap fun (s, f) =>
      if s.toList == cs.take 2 then some (.option f (some (String.ofList (cs.drop 2))) true)
      else if cs.isPrefixOf s.toList then some (.option f none true)
      else none)

def read (text : String) : Except Stop Word :=
  let cs := text.toList
  if cs.head? != some '-' then .ok (.plain text)
  else match Flag.spellings.lookup text with
    | some f => .ok (.option f none (cs.take 2 != ['-', '-']))
    | none =>
      if cs.length = 1 then .ok (.plain text)
      else
        let (name, value) := cutValue cs
        match value.bind fun _ => Flag.spellings.lookup (String.ofList name) with
        | some f => .ok (.option f value (cs.take 2 != ['-', '-']))
        | none =>
          match candidates cs with
          | [w] => .ok w
          | _ :: _ :: _ => .error .usage
          | [] =>
            if isNegativeNumber cs || cs.contains ' ' then .ok (.plain text) else .ok .unknown

def readAll : List String → Except Stop (List Word)
  | [] => .ok []
  | "--" :: rest => .ok (.divider :: rest.map .plain)
  | t :: rest => do return (← read t) :: (← readAll rest)

end Word

def readInt? (text : String) : Option Int :=
  let (negative, digits) := match Text.trim text.toList with
    | '-' :: ds => (true, ds)
    | '+' :: ds => (false, ds)
    | ds => (false, ds)
  let groups := digits.splitOn '_'
  if groups.all (fun g => !g.isEmpty && g.all Text.isAsciiDigit) then
    let n : Nat := groups.flatten.foldl (fun n c => 10 * n + (c.toNat - 48)) 0
    some (if negative then -(n : Int) else (n : Int))
  else none

structure Arguments where
  files : List String := []
  format : String := "source"
  debug : Bool := false
  tracebackLimit : Option Int := none
  warnings : Option String := none
  output : Option String := none
deriving DecidableEq, Repr

namespace Arguments

def apply (a : Arguments) : Flag → String → Except Stop Arguments
  | .help, _ => .error .help
  | .version, _ => .error .version
  | .debug, _ => .ok { a with debug := true }
  | .format, v => .ok { a with format := v }
  | .output, v => .ok { a with output := some v }
  | .warnings, v =>
    if v == "error" || v == "none" then .ok { a with warnings := some v } else .error .usage
  | .tracebackLimit, v =>
    match readInt? v with
    | some n => .ok { a with tracebackLimit := some n }
    | none => .error .usage

/-- Whether letters behind an option without a value are options themselves; the last may take the
rest of the word or the next word for its value. -/
def isCluster (next : Option Word) : List Char → Bool
  | [] => true
  | c :: rest =>
    match Flag.spellings.lookup ("-" ++ c.toString) with
    | none => false
    | some f =>
      if f.takesValue then !rest.isEmpty || (next.map Word.isPlain).getD false
      else isCluster next rest

structure Progress where
  arguments : Arguments := {}
  taken : Bool := false
  extra : Bool := false

def takePlain (p : Progress) (words : List Word) : Progress :=
  match words.filterMap Word.text? with
  | [] => if words.isEmpty then p else { p with extra := true }
  | files => if p.taken then { p with extra := true }
      else { p with arguments := { p.arguments with files }, taken := true }

def useOption (a : Arguments) (f : Flag) (value : Option String) (short : Bool) (next : Option Word) :
    Except Stop (Arguments × Bool) :=
  match f.takesValue, value with
  | true, some v => (a.apply f v).map (·, false)
  | true, none =>
    match next with
    | some (.plain v) => (a.apply f v).map (·, true)
    | _ => .error .usage
  | false, none => (a.apply f "").map (·, false)
  | false, some letters =>
    if short && letters != "" && isCluster next letters.toList then (a.apply f "").map (·, false)
    else .error .usage

/-- Goes through words.  `pending` are plain words met since the last option, the latest first; with
`skip` the next word has been used. -/
def walk (p : Progress) (pending : List Word) (skip : Bool) : List Word → Except Stop Progress
  | [] => .ok (takePlain p pending.reverse)
  | w :: rest =>
    if skip then walk p pending false rest
    else match w with
      | .plain _ | .divider => walk p (w :: pending) false rest
      | .unknown => walk { takePlain p pending.reverse with extra := true } [] false rest
      | .option f value short =>
        let p := takePlain p pending.reverse
        match useOption p.arguments f value short rest.head? with
        | .error e => .error e
        | .ok (a, used) => walk { p with arguments := a } [] used rest

def read (words : List String) : Except Stop Arguments := do
  let p ← walk {} [] false (← Word.readAll words)
  if p.taken && !p.extra then return p.arguments else throw .usage

end Arguments

example : (Arguments.read ["-floops", "--deb", "a", "b"]).toOption =
    some { files := ["a", "b"], format := "loops", debug := true } := by decide +kernel

example : (Arguments.read ["a", "--debug", "b"]).toOption = none := by decide +kernel

end LoopEscape.CommandLine

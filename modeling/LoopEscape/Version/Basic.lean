import LoopEscape.Text.Lines

/-!
# Versions

A version has an epoch, release numbers, and optionally a pre-release, a post-release, a development
and a local part, written like `1!2.0rc1.post2.dev3+local`.  Versions are ordered part by part, where
release numbers compare as if zeros followed without end.
-/

namespace LoopEscape

open Text

inductive Stage
  | alpha
  | beta
  | candidate
deriving DecidableEq, Repr

inductive LocalSegment
  | text (s : String)
  | number (n : Nat)
deriving DecidableEq, Repr

structure Version where
  epoch : Nat := 0
  release : List Nat
  pre : Option (Stage × Nat) := none
  post : Option Nat := none
  dev : Option Nat := none
  localPart : Option (List LocalSegment) := none
deriving DecidableEq, Repr

namespace Version

/-! ### Reading -/

def ofDigits (cs : List Char) : Nat := cs.foldl (fun n c => 10 * n + (c.toNat - 48)) 0

def digits? (cs : List Char) : Option (Nat × List Char) :=
  match cs.takeWhile isAsciiDigit with
  | [] => none
  | ds => some (ofDigits ds, cs.dropWhile isAsciiDigit)

def isSeparator (c : Char) : Bool := c == '-' || c == '_' || c == '.'

def skipSeparator : List Char → List Char
  | [] => []
  | c :: cs => if isSeparator c then cs else c :: cs

def word? {α : Type} (words : List (String × α)) (cs : List Char) : Option (α × List Char) :=
  words.findSome? fun (w, a) =>
    if (cs.take w.length).map Char.toLower == w.toList then some (a, cs.drop w.length) else none

/-- A separator, one of some words, another separator, a number; all but the word may be missing, and
a missing number is zero. -/
def part? {α : Type} (words : List (String × α)) (cs : List Char) :
    Option ((α × Nat) × List Char) :=
  (word? words (skipSeparator cs)).map fun (a, rest) =>
    match digits? (skipSeparator rest) with
    | some (n, rest) => ((a, n), rest)
    | none => ((a, 0), skipSeparator rest)

def stages : List (String × Stage) :=
  [("alpha", .alpha), ("a", .alpha), ("beta", .beta), ("b", .beta), ("preview", .candidate),
   ("pre", .candidate), ("c", .candidate), ("rc", .candidate)]

def takeEpoch (cs : List Char) : Nat × List Char :=
  match digits? cs with
  | some (n, '!' :: rest) => (n, rest)
  | _ => (0, cs)

def moreRelease (fuel : Nat) (cs : List Char) : List Nat × List Char :=
  match fuel, cs with
  | fuel + 1, '.' :: rest =>
    match digits? rest with
    | some (n, rest) => let (ns, rest) := moreRelease fuel rest; (n :: ns, rest)
    | none => ([], cs)
  | _, _ => ([], cs)

def release? (cs : List Char) : Option (List Nat × List Char) :=
  (digits? cs).map fun (n, rest) =>
    let (ns, rest) := moreRelease rest.length rest
    (n :: ns, rest)

def post? (cs : List Char) : Option (Nat × List Char) :=
  let bare := match cs with
    | '-' :: rest => digits? rest
    | _ => none
  bare.orElse fun _ =>
    (part? [("post", ()), ("rev", ()), ("r", ())] cs).map fun ((_, n), rest) => (n, rest)

def optional {α : Type} (p : List Char → Option (α × List Char)) (cs : List Char) :
    Option α × List Char :=
  match p cs with
  | some (a, rest) => (some a, rest)
  | none => (none, cs)

def isLocalChar (c : Char) : Bool := isAsciiLetter c || isAsciiDigit c

def localSegment (cs : List Char) : LocalSegment :=
  if cs.all isAsciiDigit then .number (ofDigits cs)
  else .text (String.ofList (cs.map Char.toLower))

def splitSeparators (cs : List Char) : List (List Char) := cs.splitOnP isSeparator

def local? (cs : List Char) : Option (List LocalSegment) :=
  let segments := splitSeparators cs
  if segments.all fun s => !s.isEmpty && s.all isLocalChar then some (segments.map localSegment)
  else none

def body? (cs : List Char) : Option (Version × List Char) :=
  let cs := match cs with
    | c :: rest => if c == 'v' || c == 'V' then rest else cs
    | [] => []
  let (epoch, cs) := takeEpoch cs
  (release? cs).map fun (release, cs) =>
    let (pre, cs) := optional (part? stages) cs
    let (post, cs) := optional post? cs
    let (dev, cs) := optional (part? [("dev", ())]) cs
    ({ epoch, release, pre, post, dev := dev.map (·.2) }, cs)

def parse? (text : String) : Option Version :=
  match body? (trim text.toList) with
  | none => none
  | some (v, []) => some v
  | some (v, '+' :: rest) => (local? rest).map fun l => { v with localPart := some l }
  | some _ => none

/-! ### Writing -/

def Stage.name : Stage → String
  | .alpha => "a"
  | .beta => "b"
  | .candidate => "rc"

def releaseText (v : Version) : String := ".".intercalate (v.release.map toString)

def baseText (v : Version) : String :=
  (if v.epoch = 0 then "" else toString v.epoch ++ "!") ++ v.releaseText

def publicText (v : Version) : String :=
  v.baseText ++
    (match v.pre with | none => "" | some (s, n) => Stage.name s ++ toString n) ++
    (match v.post with | none => "" | some n => ".post" ++ toString n) ++
    (match v.dev with | none => "" | some n => ".dev" ++ toString n)

def LocalSegment.render : LocalSegment → String
  | .text s => s
  | .number n => toString n

def render (v : Version) : String :=
  v.publicText ++ match v.localPart with
    | none => ""
    | some l => "+" ++ ".".intercalate (l.map LocalSegment.render)

/-! ### Order -/

def compareLists {α : Type} (cmp : α → α → Ordering) : List α → List α → Ordering
  | [], [] => .eq
  | [], _ :: _ => .lt
  | _ :: _, [] => .gt
  | a :: as, b :: bs => (cmp a b).then (compareLists cmp as bs)

def trimZeros (ns : List Nat) : List Nat := (ns.reverse.dropWhile (· == 0)).reverse

def Stage.rank : Stage → Nat
  | .alpha => 0
  | .beta => 1
  | .candidate => 2

/-- Where a version's pre-release part ranks: first a development release of no other kind, then
pre-releases by stage and number, then versions without one. -/
def preRank (v : Version) : List Nat :=
  match v.pre with
  | some (s, n) => [1, Stage.rank s, n]
  | none => if v.post.isNone && v.dev.isSome then [0] else [2]

def postRank (v : Version) : List Nat :=
  match v.post with
  | none => [0]
  | some n => [1, n]

def devRank (v : Version) : List Nat :=
  match v.dev with
  | some n => [0, n]
  | none => [1]

def compareSegments : LocalSegment → LocalSegment → Ordering
  | .text a, .text b => compareLists (fun c d => compare c.toNat d.toNat) a.toList b.toList
  | .text _, .number _ => .lt
  | .number _, .text _ => .gt
  | .number a, .number b => compare a b

def compareLocal : Option (List LocalSegment) → Option (List LocalSegment) → Ordering
  | none, none => .eq
  | none, some _ => .lt
  | some _, none => .gt
  | some a, some b => compareLists compareSegments a b

def compareRanks : List Nat → List Nat → Ordering := compareLists compare

def order (v w : Version) : Ordering :=
  (compare v.epoch w.epoch).then <|
  (compareRanks (trimZeros v.release) (trimZeros w.release)).then <|
  (compareRanks v.preRank w.preRank).then <|
  (compareRanks v.postRank w.postRank).then <|
  (compareRanks v.devRank w.devRank).then
  (compareLocal v.localPart w.localPart)

def same (v w : Version) : Bool := v.order w == .eq

def less (v w : Version) : Bool := v.order w == .lt

def isPreRelease (v : Version) : Bool := v.pre.isSome || v.dev.isSome

def withoutLocal (v : Version) : Version := { v with localPart := none }

def base (v : Version) : Version := { epoch := v.epoch, release := v.release }

example : (parse? " v1!2.0-RC.1_post2.dev+Ab-03 ").map render = some "1!2.0rc1.post2.dev0+ab.3" := by
  decide +kernel

example : ((parse? "1.0.dev1").bind fun v => (parse? "1.0a0").map fun w => v.less w) = some true := by
  decide +kernel

end Version

end LoopEscape

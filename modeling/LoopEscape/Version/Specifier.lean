import LoopEscape.Version.Basic

/-!
# Version specifiers

A specifier is an operator with a version, like `>=1.0` or `==1.2.*`; a set of specifiers, divided by
commas, allows the versions that each of them allows.
-/

namespace LoopEscape

open Text

inductive VersionOp
  | compatible
  | equal
  | different
  | atMost
  | atLeast
  | below
  | above
  | identical
deriving DecidableEq, Repr

structure Specifier where
  op : VersionOp
  version : String
deriving DecidableEq, Repr

namespace Specifier

def operators : List (String × VersionOp) :=
  [("===", .identical), ("~=", .compatible), ("==", .equal), ("!=", .different), ("<=", .atMost),
   (">=", .atLeast), ("<", .below), (">", .above)]

def wildcard? (version : String) : Option String :=
  let cs := version.toList
  if ".*".toList.isSuffixOf cs then some (String.ofList (cs.take (cs.length - 2))) else none

def isBare (text : String) : Bool :=
  match Version.body? (trimLeft text.toList) with
  | some (v, []) => v.pre.isNone && v.post.isNone && v.dev.isNone && !text.toList.any isBlank
  | _ => false

def fits (op : VersionOp) (version : String) : Bool :=
  match op with
  | .identical => version.toList.all fun c => !isBlank c && c != ';' && c != ')'
  | .equal | .different =>
    match wildcard? version with
    | some release => isBare release
    | none => (Version.parse? version).isSome
  | .compatible =>
    match Version.parse? version with
    | some v => v.localPart.isNone && 2 ≤ v.release.length
    | none => false
  | _ =>
    match Version.parse? version with
    | some v => v.localPart.isNone
    | none => false

def parse? (text : String) : Option Specifier :=
  let cs := text.toList
  operators.findSome? fun (symbol, op) =>
    if symbol.toList.isPrefixOf cs then
      let version := String.ofList (trim (cs.drop symbol.length))
      if fits op version then some ⟨op, version⟩ else none
    else none

/-! ### Prefixes of versions -/

def cutStage (segment : List Char) : List (List Char) :=
  let number := segment.takeWhile isAsciiDigit
  let rest := segment.dropWhile isAsciiDigit
  let stage := rest.takeWhile isAsciiLetter
  let last := rest.dropWhile isAsciiLetter
  let isStage := ["a", "b", "c", "rc"].contains (String.ofList stage)
  if number.isEmpty || last.isEmpty || !last.all isAsciiDigit || !isStage then [segment]
  else [number, rest]

def segments (version : String) : List (List Char) :=
  let cs := version.toList
  let rest := (cs.reverse.takeWhile (· != '!')).reverse
  let epoch := cs.take (cs.length - rest.length - 1)
  (if epoch.isEmpty then ['0'] else epoch) :: (rest.splitOn '.').flatMap cutStage

def isSuffixSegment (segment : List Char) : Bool :=
  ["dev", "a", "b", "rc", "post"].any fun s => s.toList.isPrefixOf segment

def normalText (version : String) : String :=
  match Version.parse? version with
  | some v => v.render
  | none => version

/-- Fills the release numbers of `left` with zeros up to the number of those of `right`. -/
def padRelease (left right : List (List Char)) : List (List Char) :=
  let isNumber := fun (s : List Char) => !s.isEmpty && s.all isAsciiDigit
  let l := left.takeWhile isNumber
  let r := right.takeWhile isNumber
  l ++ List.replicate (r.length - l.length) ['0'] ++ left.drop l.length

def beginsWith (v : Version) (release : String) : Bool :=
  let wanted := segments (normalText release)
  (padRelease (segments v.publicText) wanted).take wanted.length == wanted

def allButLast (version : String) : String :=
  match ((segments version).takeWhile (! isSuffixSegment ·)).dropLast with
  | [] => "!"
  | epoch :: rest =>
    String.ofList epoch ++ "!" ++ ".".intercalate (rest.map String.ofList)

/-! ### Meaning -/

def equals (v : Version) (version : String) : Bool :=
  match wildcard? version with
  | some release => beginsWith v release
  | none =>
    match Version.parse? version with
    | some w => if w.localPart.isNone then v.withoutLocal.same w else v.same w
    | none => false

def reaches (v w : Version) : Bool := !(v.withoutLocal.less w)

def lowerCase (s : String) : String := String.ofList (s.toList.map Char.toLower)

def allows (s : Specifier) (v : Version) : Bool :=
  match s.op with
  | .identical => lowerCase v.render == lowerCase s.version
  | .equal => equals v s.version
  | .different => !equals v s.version
  | op =>
    match Version.parse? s.version with
    | none => false
    | some w =>
      match op with
      | .atMost => !(w.less v.withoutLocal)
      | .atLeast => reaches v w
      | .compatible => reaches v w && beginsWith v (allButLast s.version)
      | .below =>
        v.less w && (w.isPreRelease || !v.isPreRelease || !(v.base.same w.base))
      | .above =>
        w.less v && (w.post.isSome || v.post.isNone || !(v.base.same w.base)) &&
          (v.localPart.isNone || !(v.base.same w.base))
      | _ => false

def parseSet? (text : String) : Option (List Specifier) :=
  let parts := (text.toList.splitOn ',').map fun cs => String.ofList (trim cs)
  (parts.filter (! ·.isEmpty)).mapM parse?

example : (parseSet? ">=0.1.0, <0.2").map (·.map (·.op)) = some [.atLeast, .below] := by
  decide +kernel

end Specifier

end LoopEscape

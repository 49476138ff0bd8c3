import LoopEscape.Version.Specifier

/-!
# Version pragmas

A source may ask for a compiler version.  A bare version asks for exactly itself, and a caret stands
for the compatible releases.
-/

namespace LoopEscape

open Text

inductive VersionFault
  | empty
  | malformed (specification : String)
  | incompatible (specification compiler : String)
deriving DecidableEq, Repr

namespace VersionFault

def message : VersionFault → String
  | empty => "Version specification cannot be empty"
  | malformed s => "Version specification \"" ++ s ++ "\" is not a valid PEP440 specifier"
  | incompatible s c =>
    "Version specification \"" ++ s ++ "\" is not compatible with compiler version \"" ++ c ++ "\""

end VersionFault

def versionSpecification (text : String) : String :=
  match text.toList with
  | [] => ""
  | c :: cs =>
    if c == 'v' || isAsciiDigit c then "==" ++ text
    else if c == '^' then "~=" ++ String.ofList cs
    else text

/-- Whether a set of specifiers, given as a text, contains a version.  There is no answer if the text is not
such a set. -/
abbrev VersionMatcher := String → String → Option Bool

def Specifier.matcher : VersionMatcher := fun spec version =>
  (parseSet? spec).map fun specs =>
    match Version.parse? version with
    | none => false
    | some v => specs.all (·.allows v)

def checkVersionBy (matcher : VersionMatcher) (compiler text : String) : Except VersionFault Unit :=
  if text.isEmpty then .error .empty
  else
    let spec := versionSpecification text
    match matcher spec compiler with
    | none => .error (.malformed spec)
    | some true => .ok ()
    | some false => .error (.incompatible spec compiler)

def checkVersion : String → String → Except VersionFault Unit := checkVersionBy Specifier.matcher

def compilerVersion : String := "0.1.0"

example : (checkVersion "0.1.0" "^0.1.0").toOption = some () := by decide +kernel

end LoopEscape

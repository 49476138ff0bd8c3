import LoopEscape.Proofs.Grammar.Expressions
import LoopEscape.Proofs.Tree.Mentions

/-!
# Parsed code is plain

What the grammar gives has nothing of the dialect in it: loops and jumps without marks, and neither
blocks nor callback loops.  Its blocks are filled, and its identifiers are those of the tokens.
-/

set_option mvcgen.warning false

namespace LoopEscape

open Std.Do LoopEscape.Parser

variable {place : Position → Position} {code : String} {body : List Stmt} {strict : Bool}

def Stmt.Native : Stmt → Prop
  | .for_ _ _ mark _ _ _ _ | .while_ _ mark _ _ _ => mark = {}
  | .break_ _ label value => label = none ∧ value = none
  | .continue_ _ label => label = none
  | .callbackLoop .. | .block .. | .supportImport .. => False
  | _ => True

def Stmt.Filled : Stmt → Prop
  | .function _ _ _ _ body _ _ | .class_ _ _ _ _ body _ | .for_ _ _ _ _ _ body _ | .while_ _ _ _ body _
  | .if_ _ _ body _ | .with_ _ _ _ body | .callbackLoop _ _ _ _ body | .block _ _ _ body => body ≠ []
  | .match_ _ _ cases => cases ≠ [] ∧ ∀ c ∈ cases, c.body ≠ []
  | .try_ _ _ body handlers _ final =>
    body ≠ [] ∧ (handlers ≠ [] ∨ final ≠ []) ∧ ∀ h ∈ handlers, h.body ≠ []
  | _ => True

def Stmt.Formed (P : String → Prop) (s : Stmt) : Prop := s.Native ∧ s.Filled ∧ s.Within P

attribute [grind =] Stmt.Native Handler.body MatchCase.body Stmt.Filled Stmt.Formed Stmt.Every Stmt.EveryAll
  Handler.EveryAll MatchCase.EveryAll

variable {T : Token → Prop} {P : String → Prop} [hv : Vocabulary T P]

include hv

namespace Level

variable {l : Level}

@[spec]
theorem locFrom_gives (start : Position) : Keeps T (l.locFrom start) := by
  mvcgen [locFrom]

/-! ### Simple statements -/

theorem strictList_gives {α : Type} {Q : α → Prop} {item : Parser α} (h : Gives T item Q) :
    Gives T (strictList item) fun l => ∀ a ∈ l, Q a := by
  have hmany := @many_gives α T P Q _
  mvcgen [strictList, h, hmany] with grind

@[spec]
theorem dottedName_gives : Gives T dottedName P := by
  have hdotted := hv.dotted
  have hmany := @many_gives String T P P _
  mvcgen [dottedName, hmany] with grind

@[spec]
theorem asName_gives : Gives T asName fun o => ∀ x ∈ o, P x := by
  mvcgen [asName] with grind

@[spec]
theorem aliasOf_gives {name : Parser String} (h : Gives T name P) : Gives T (l.aliasOf name) (Alias.Within P) := by
  mvcgen [aliasOf, h] with grind

@[spec]
theorem importStmt_gives : Gives T l.importStmt (Stmt.Every (Stmt.Formed P)) := by
  have hnames := strictList_gives (aliasOf_gives (l := l) dottedName_gives)
  mvcgen [importStmt, hnames] with grind

@[spec]
theorem relativeLevel_gives : Keeps T relativeLevel := by
  have hmany := @many_gives Nat T P (fun _ => True) _
  mvcgen [relativeLevel, hmany] with grind

@[spec]
theorem importTargets_gives : Gives T l.importTargets fun names => ∀ a ∈ names, a.Within P := by
  have halias := aliasOf_gives (l := l) identifier_gives
  have hlist := commaList_gives halias
  have hstrict := strictList_gives halias
  have hstar := hv.star
  mvcgen [importTargets, hlist, hstrict] with grind

@[spec]
theorem importFrom_gives : Gives T l.importFrom (Stmt.Every (Stmt.Formed P)) := by
  mvcgen [importFrom] with grind

variable [hl : l.Sound T P]

omit hv hl in
theorem targets_within {access : Access} {es targets : List Expr}
    (h : es.mapM (fun e => e.target? access) = some targets) (hes : ∀ e ∈ es, e.Within P) :
    ∀ e ∈ targets, e.Within P :=
  forall_mapM h fun e he _ he' => Expr.target?_within he' (hes e he)

@[spec]
theorem assignTail_gives (start : Position) {first : Expr} (hfirst : first.Within P) :
    Gives T (l.assignTail start first) (Stmt.Every (Stmt.Formed P)) := by
  have hchain := @chain_gives (List Expr) T P (fun es => ∀ e ∈ es, e.Within P) _
  mvcgen [assignTail, hchain] with
    grind [targets_within, List.mem_of_mem_dropLast, List.mem_of_getLast?]

@[spec]
theorem expressionStmt_gives : Gives T l.expressionStmt (Stmt.Every (Stmt.Formed P)) := by
  mvcgen [expressionStmt] with grind [Expr.singleTarget?_within]

@[spec]
theorem deleteStmt_gives : Gives T l.deleteStmt (Stmt.Every (Stmt.Formed P)) := by
  have hlist := commaList_gives hl.primary
  mvcgen [deleteStmt, hlist] with grind [targets_within]

@[spec]
theorem optionalExpressions_gives : Gives T l.optionalExpressions fun o => ∀ e ∈ o, e.Within P := by
  mvcgen [optionalExpressions] with grind

@[spec]
theorem raiseStmt_gives : Gives T l.raiseStmt (Stmt.Every (Stmt.Formed P)) := by
  mvcgen [raiseStmt] with grind

@[spec]
theorem simpleStmt_gives : Gives T l.simpleStmt (Stmt.Every (Stmt.Formed P)) := by
  have hnames := strictList_gives (identifier_gives (T := T))
  mvcgen [simpleStmt, hnames] with grind

@[spec]
theorem simpleStmts_gives :
    Gives T l.simpleStmts fun body => body ≠ [] ∧ Stmt.EveryAll (Stmt.Formed P) body := by
  have hmany := @many_gives Stmt T P (Stmt.Every (Stmt.Formed P)) _
  mvcgen [simpleStmts, hmany] with grind [everyAll_iff]

/-! ### Patterns -/

omit hl in
@[spec]
theorem signedNumber_gives : Gives T l.signedNumber (Expr.Within P) := by
  mvcgen [signedNumber] with grind

omit hl in
@[spec]
theorem memberChain_gives : Gives T l.memberChain (Expr.Within P) := by
  have hchain := @chain_gives Expr T P (Expr.Within P) _
  have hname := hv.name
  mvcgen [memberChain, hchain] with grind

@[spec]
theorem captureName_gives : Gives T captureName P := by
  have hname := hv.name
  mvcgen [captureName] with grind

@[spec]
theorem literalExpr_gives : Gives T l.literalExpr (Expr.Within P) := by
  mvcgen [literalExpr] with grind

variable {inner : Parser CasePattern} (hi : Gives T inner (CasePattern.Within P))

include hi

omit hl in
@[spec]
theorem starPattern_gives : Gives T (l.starPattern inner) (CasePattern.Within P) := by
  have hname := hv.name
  mvcgen [starPattern, hi] with grind

@[spec]
theorem mappingItem_gives :
    Gives T (l.mappingItem inner) fun item => item.1.Within P ∧ item.2.Within P := by
  mvcgen [mappingItem, hi] with grind

@[spec]
theorem mappingPattern_gives : Gives T (l.mappingPattern inner) (CasePattern.Within P) := by
  have hitems := commaList_gives (mappingItem_gives (l := l) hi)
  mvcgen [mappingPattern, hitems] with grind

@[spec]
theorem classArgument_gives : Gives T (classArgument inner) fun a => (∀ x ∈ a.1, P x) ∧ a.2.Within P := by
  have hname := hv.name
  mvcgen [classArgument, hi] with grind [endToken, Token.isIdentifier]

omit hv hl hi in
theorem ofClass_within {span : Span} {cls : Expr} (hc : cls.Within P) {args : List (Option String × CasePattern)}
    (ha : ∀ a ∈ args, (∀ x ∈ a.1, P x) ∧ a.2.Within P) :
    let named := args.filterMap fun a => a.1.map fun n => (n, a.2)
    let positional := args.filterMap fun a => if a.1.isNone then some a.2 else none
    (CasePattern.ofClass span cls positional (named.map (·.1)) (named.map (·.2))).Within P := by
  intro named positional
  have hnamed : ∀ r ∈ named, P r.1 ∧ r.2.Within P := by
    intro r hr
    obtain ⟨a, hmem, hr⟩ := List.mem_filterMap.1 hr
    obtain ⟨n, hn, rfl⟩ := Option.map_eq_some_iff.1 hr
    exact ⟨(ha a hmem).1 n hn, (ha a hmem).2⟩
  rw [CasePattern.Within]
  refine ⟨hc, ?_, List.forall_mem_map.2 fun r hr => (hnamed r hr).1, List.forall_mem_map.2 fun r hr => (hnamed r hr).2⟩
  grind

omit hl in
@[spec]
theorem namePattern_gives : Gives T (l.namePattern inner) (CasePattern.Within P) := by
  have hargs := commaList_gives (classArgument_gives hi)
  mvcgen [namePattern, hargs] with grind [ofClass_within]

@[spec]
theorem closedPattern_gives : Gives T (l.closedPattern inner) (CasePattern.Within P) := by
  have hmore := moreItems_gives (starPattern_gives (l := l) hi)
  have hlist := commaList_gives (starPattern_gives (l := l) hi)
  mvcgen [closedPattern, hmore, hlist, hi] with grind

@[spec]
theorem patternOver_gives : Gives T (l.patternOver inner) (CasePattern.Within P) := by
  have hmany := @many_gives CasePattern T P (CasePattern.Within P) _
  mvcgen [patternOver, hmany, hi] with grind

omit hi

@[spec]
theorem patternAt_gives (depth : Nat) : Gives T (l.patternAt depth) (CasePattern.Within P) := by
  induction depth with
  | zero => exact fail_gives
  | succ n ih => exact patternOver_gives ih

@[spec]
theorem casePattern_gives (depth : Nat) : Gives T (l.casePattern depth) (CasePattern.Within P) := by
  have hmore := moreItems_gives (starPattern_gives (l := l) (patternAt_gives (l := l) depth))
  mvcgen [casePattern, hmore] with grind

end Level

/-! ### Compound statements -/

class Blocks.Sound (T : outParam (Token → Prop)) (P : outParam (String → Prop)) (b : Blocks) : Prop where
  level : b.level.Sound T P
  block : Gives T b.block fun body => body ≠ [] ∧ Stmt.EveryAll (Stmt.Formed P) body

attribute [instance] Blocks.Sound.level
attribute [spec] Blocks.Sound.block

namespace Blocks

variable {b : Blocks} [hb : b.Sound T P]

@[spec]
theorem suite_gives : Gives T b.suite fun body => body ≠ [] ∧ Stmt.EveryAll (Stmt.Formed P) body := by
  mvcgen [suite]

@[spec]
theorem elseSuite_gives : Gives T b.elseSuite (Stmt.EveryAll (Stmt.Formed P)) := by
  mvcgen [elseSuite] with grind

omit hv hb in
theorem nestElifs_formed {stop : Span} {orElse : List Stmt} (ho : Stmt.EveryAll (Stmt.Formed P) orElse) :
    ∀ {elifs : List (Span × Expr × List Stmt)},
      (∀ c ∈ elifs, c.2.1.Within P ∧ c.2.2 ≠ [] ∧ Stmt.EveryAll (Stmt.Formed P) c.2.2) →
        Stmt.EveryAll (Stmt.Formed P) (nestElifs stop orElse elifs)
  | [], _ => ho
  | _ :: elifs, h => by
    have := @nestElifs_formed stop _ ho elifs
    grind [nestElifs]

@[spec]
theorem ifStmt_gives : Gives T b.ifStmt (Stmt.Every (Stmt.Formed P)) := by
  have hmany := @many_gives (Span × Expr × List Stmt) T P
    (fun c => c.2.1.Within P ∧ c.2.2 ≠ [] ∧ Stmt.EveryAll (Stmt.Formed P) c.2.2) _
  mvcgen [ifStmt, hmany] with grind [nestElifs_formed]

@[spec]
theorem whileStmt_gives : Gives T b.whileStmt (Stmt.Every (Stmt.Formed P)) := by
  mvcgen [whileStmt] with grind

@[spec]
theorem forStmt_gives (start : Position) (isAsync : Bool) :
    Gives T (b.forStmt start isAsync) (Stmt.Every (Stmt.Formed P)) := by
  mvcgen [forStmt] with grind

@[spec]
theorem withItem_gives : Gives T b.withItem (WithItem.Within P) := by
  have htarget := @Expr.target?_within P .store
  mvcgen [withItem] with grind

@[spec]
theorem bracketedItems_gives : Gives T b.bracketedItems fun items => ∀ i ∈ items, i.Within P := by
  have hlist := commaList_gives (withItem_gives (b := b))
  mvcgen [bracketedItems, hlist] with grind

@[spec]
theorem withStmt_gives (start : Position) (isAsync : Bool) :
    Gives T (b.withStmt start isAsync) (Stmt.Every (Stmt.Formed P)) := by
  have hitems := orElse_gives (bracketedItems_gives (b := b)) (Level.strictList_gives (withItem_gives (b := b)))
  mvcgen [withStmt, hitems] with grind

@[spec]
theorem handler_gives (isStar : Bool) : Gives T (b.handler isStar) fun h =>
    h.Within P ∧ h.body ≠ [] ∧ Handler.EveryAll (Stmt.Formed P) [h] := by
  mvcgen [handler] with grind

@[spec]
theorem tryStmt_gives : Gives T b.tryStmt (Stmt.Every (Stmt.Formed P)) := by
  have hmany := @many_gives Handler T P
    (fun h => h.Within P ∧ h.body ≠ [] ∧ Handler.EveryAll (Stmt.Formed P) [h]) _
  mvcgen [tryStmt, hmany] with grind [everyHandlers_iff]

@[spec]
theorem functionStmt_gives (start : Position) (isAsync : Bool) {decorators : List Expr}
    (hd : ∀ e ∈ decorators, e.Within P) :
    Gives T (b.functionStmt start isAsync decorators) (Stmt.Every (Stmt.Formed P)) := by
  mvcgen [functionStmt] with grind

@[spec]
theorem classStmt_gives {decorators : List Expr} (hd : ∀ e ∈ decorators, e.Within P) :
    Gives T (b.classStmt decorators) (Stmt.Every (Stmt.Formed P)) := by
  mvcgen [classStmt] with grind

@[spec]
theorem decorated_gives : Gives T b.decorated (Stmt.Every (Stmt.Formed P)) := by
  have hmany := @many_gives Expr T P (Expr.Within P) _
  mvcgen [decorated, hmany] with grind

@[spec]
theorem matchCase_gives : Gives T b.matchCase fun c =>
    c.Within P ∧ c.body ≠ [] ∧ MatchCase.EveryAll (Stmt.Formed P) [c] := by
  mvcgen [matchCase] with grind

@[spec]
theorem subject_gives : Gives T b.subject (Expr.Within P) := by
  have hmore := moreItems_gives (Grammar.starNamed_gives (g := b.level.grammar))
  mvcgen [subject, hmore] with grind

@[spec]
theorem matchStmt_gives : Gives T b.matchStmt (Stmt.Every (Stmt.Formed P)) := by
  have hmany := @many_gives MatchCase T P
    (fun c => c.Within P ∧ c.body ≠ [] ∧ MatchCase.EveryAll (Stmt.Formed P) [c]) _
  mvcgen [matchStmt, hmany] with grind [everyCases_iff]

@[spec]
theorem statement_gives : Gives T b.statement (Stmt.EveryAll (Stmt.Formed P)) := by
  have hor := @orElse_gives (List Stmt) T (Stmt.EveryAll (Stmt.Formed P))
  mvcgen [statement, hor] with grind

@[spec]
theorem statements_gives : Gives T b.statements (Stmt.EveryAll (Stmt.Formed P)) := by
  have hmany := @many_gives (List Stmt) T P (Stmt.EveryAll (Stmt.Formed P)) _
  mvcgen [statements, hmany] with grind [everyAll_iff, List.mem_flatten]

theorem blockOver_gives :
    Gives T b.blockOver fun body => body ≠ [] ∧ Stmt.EveryAll (Stmt.Formed P) body := by
  mvcgen [blockOver] with grind

instance ofDepth_sound {l : Level} [l.Sound T P] (depth : Nat) : (ofDepth l depth).Sound T P := by
  induction depth with
  | zero => exact ⟨‹_›, fail_gives⟩
  | succ n ih =>
    have hlevel : (ofDepth l n).level = l := by cases n <;> rfl
    exact ⟨‹_›, blockOver_gives⟩

end Blocks

/-! ### Whole code -/

theorem parseCode_formed (h : parseCode place code = .ok body) (hcode : ∀ t ∈ (lex code).tokens, T t) :
    Stmt.EveryAll (Stmt.Formed P) body := by
  have hwhole : Gives T (do
      let body ← (Blocks.ofDepth (Level.ofDepth place (code.length + 1)) (code.length + 1)).statements
      let _ ← ofKind .endMarker
      return body : Parser (List Stmt)) (Stmt.EveryAll (Stmt.Formed P)) := by
    mvcgen with grind
  simp only [parseCode] at h
  split at h
  · next hrun =>
    cases h
    exact (hwhole ⟨(lex code).tokens, ⟨1, 0⟩⟩ _ hcode _ _ _ hrun).1
  · cases h

theorem parsePlain_formed (h : parsePlain strict place code = .ok body) (hcode : ∀ t ∈ (lex code).tokens, T t) :
    Stmt.EveryAll (Stmt.Formed P) body := by
  simp only [parsePlain, bind, Except.bind] at h
  split at h
  · cases h
  · next parsed hparsed =>
    split at h
    · cases h
    · cases h
      exact parseCode_formed hparsed hcode

end LoopEscape

import LoopEscape.Proofs.Grammar.Triples
import LoopEscape.Proofs.Tree.Identifiers

/-!
# Identifiers of parsed expressions

The identifiers in an expression are those of the tokens it is parsed from, in their normal form.  For a
property of identifiers, `Vocabulary` says which tokens give only such; then what is parsed from these
tokens has only such identifiers.
-/

set_option mvcgen.warning false

namespace LoopEscape

open Std.Do LoopEscape.Parser Text

variable {T : Token → Prop} {P : String → Prop}

theorem forall_mapM {α β : Type} {f : α → Option β} {Q : β → Prop} : ∀ {as : List α} {bs : List β},
    as.mapM f = some bs → (∀ a ∈ as, ∀ b, f a = some b → Q b) → ∀ b ∈ bs, Q b
  | [], bs, h, hf => by
    cases h
    simp
  | a :: as, bs, h, hf => by
    rw [List.mapM_cons] at h
    obtain ⟨b, hb, h⟩ := Option.bind_eq_some_iff.1 h
    obtain ⟨bs', hbs, h⟩ := Option.bind_eq_some_iff.1 h
    cases h
    obtain ⟨ha, has⟩ := List.forall_mem_cons.1 hf
    exact List.forall_mem_cons.2 ⟨ha b hb, forall_mapM hbs has⟩

/-! ### Targets -/

mutual

theorem Expr.target?_within {access : Access} {e e' : Expr} (h : e.target? access = some e') (he : e.Within P) :
    e'.Within P := by
  cases e with
  | name | member | subscript =>
    cases h
    simpa [Expr.Within] using he
  | starred =>
    rw [Expr.target?] at h
    split at h
    · cases h
    · obtain ⟨v, hv, rfl⟩ := Option.map_eq_some_iff.1 h
      rw [Expr.Within] at he ⊢
      exact Expr.target?_within hv he
  | tuple | list =>
    obtain ⟨es, hes, rfl⟩ := Option.map_eq_some_iff.1 h
    rw [Expr.Within] at he ⊢
    exact Expr.targets?_within hes he
  | _ => cases h

theorem Expr.targets?_within {access : Access} : ∀ {es es' : List Expr}, Expr.targets? access es = some es' →
    (∀ e ∈ es, e.Within P) → ∀ e ∈ es', e.Within P
  | [], _, h, _ => by
    cases h
    simp
  | e :: es, _, h, hes => by
    obtain ⟨he, hes⟩ := List.forall_mem_cons.1 hes
    rw [Expr.targets?] at h
    split at h
    · next e' es' he' hes' =>
      cases h
      exact List.forall_mem_cons.2 ⟨Expr.target?_within he' he, Expr.targets?_within hes' hes⟩
    · cases h

end

theorem Expr.singleTarget?_within {e e' : Expr} (h : e.singleTarget? = some e') (he : e.Within P) : e'.Within P := by
  unfold Expr.singleTarget? at h
  split at h <;> cases h <;> simpa [Expr.Within] using he

namespace Grammar

/-- The parsers that expressions are nested by give expressions with such identifiers only. -/
class Sound (T : outParam (Token → Prop)) (P : outParam (String → Prop)) (g : Grammar) : Prop where
  expression : Gives T g.expression (Expr.Within P)
  inversion : Gives T g.inversion (Expr.Within P)
  factor : Gives T g.factor (Expr.Within P)

attribute [spec] Sound.expression Sound.inversion Sound.factor

variable [hv : Vocabulary T P] {g : Grammar} [hg : g.Sound T P]

include hv

@[spec]
theorem spanFrom_gives (g : Grammar) (start : Position) : Keeps T (g.spanFrom start) := by
  mvcgen [spanFrom]

@[spec]
theorem compareOp_gives : Keeps T compareOp := by
  mvcgen [compareOp] with grind

@[spec]
theorem isAtComp_gives : Keeps T isAtComp := by
  mvcgen [isAtComp] with grind

omit hg in
@[spec]
theorem leftBinary_gives {operand : Parser Expr} (h : Gives T operand (Expr.Within P))
    (ops : List (String × BinOp)) : Gives T (g.leftBinary operand ops) (Expr.Within P) := by
  have hchain := @chain_gives Expr T P (Expr.Within P) _
  mvcgen [leftBinary, h, hchain] with grind

omit hg in
@[spec]
theorem joinedBy_gives {operand : Parser Expr} (h : Gives T operand (Expr.Within P))
    (name : String) (op : BoolOp) : Gives T (g.joinedBy operand name op) (Expr.Within P) := by
  have hmany := @many_gives Expr T P (Expr.Within P) _
  mvcgen [joinedBy, h, hmany] with grind

@[spec]
theorem assignment?_gives : Gives T g.assignment? fun o => ∀ e ∈ o, e.Within P := by
  have hname := hv.name
  mvcgen [assignment?] with grind [endToken, Token.isIdentifier]

@[spec]
theorem namedExpression_gives : Gives T g.namedExpression (Expr.Within P) := by
  mvcgen [namedExpression] with grind

@[spec]
theorem bitOr_gives : Gives T g.bitOr (Expr.Within P) := by
  unfold bitOr
  induction BinOp.ranks with
  | nil => exact hg.factor
  | cons ops ranks ih => exact leftBinary_gives ih ops

omit hg in
@[spec]
theorem starred_gives {value : Parser Expr} (h : Gives T value (Expr.Within P)) :
    Gives T (g.starred value) (Expr.Within P) := by
  mvcgen [starred, h] with grind

@[spec]
theorem starNamed_gives : Gives T g.starNamed (Expr.Within P) := by
  mvcgen [starNamed]

@[spec]
theorem starExpression_gives : Gives T g.starExpression (Expr.Within P) := by
  mvcgen [starExpression]

omit hg in
@[spec]
theorem tupleOf_gives {item : Parser Expr} (h : Gives T item (Expr.Within P)) :
    Gives T (g.tupleOf item) (Expr.Within P) := by
  have hlist := commaList_gives h
  mvcgen [tupleOf, hlist] with grind

@[spec]
theorem starExpressions_gives : Gives T g.starExpressions (Expr.Within P) :=
  tupleOf_gives starExpression_gives

@[spec]
theorem yieldExpression_gives : Gives T g.yieldExpression (Expr.Within P) := by
  mvcgen [yieldExpression] with grind

@[spec]
theorem rightSide_gives : Gives T g.rightSide (Expr.Within P) := by
  mvcgen [rightSide]

/-! ### Parameters -/

@[spec]
theorem param_gives (lambda starAnnotation : Bool) :
    Gives T (g.param lambda starAnnotation) fun make => ∀ d : Option Expr, (∀ e ∈ d, e.Within P) → (make d).Within P := by
  mvcgen [param] with grind

@[grind =]
def ParamList.Within (P : String → Prop) (l : ParamList) : Prop :=
  (∀ p ∈ l.positional, p.Within P) ∧ (∀ p ∈ l.either, p.Within P) ∧ (∀ p ∈ l.rest, p.Within P) ∧
    (∀ p ∈ l.named, p.Within P) ∧ ∀ p ∈ l.namedRest, p.Within P

@[spec]
theorem paramEntry_gives (lambda : Bool) {acc : ParamList} (hacc : acc.Within P) :
    Gives T (g.paramEntry lambda acc) (ParamList.Within P) := by
  mvcgen [paramEntry] with grind

@[spec]
theorem paramList_gives (lambda : Bool) : Gives T (g.paramList lambda) (Params.Within P) := by
  have hchain := @chain_gives (ParamList × Bool) T P (fun r => r.1.Within P) _
  mvcgen [paramList, hchain] with grind [Params.empty]

@[spec]
theorem lambda_gives : Gives T g.lambda (Expr.Within P) := by
  mvcgen [lambda] with grind

/-! ### Strings -/

theorem fieldExpression_within {text : List Char} {start : Position} {e : Expr} (htext : FieldOf T text)
    (h : g.fieldExpression text start = some e) : e.Within P := by
  unfold fieldExpression at h
  dsimp only at h
  split at h
  · cases h
  · refine onTokens_gives starExpressions_gives (fun t ht => ?_) h
    obtain ⟨u, hu, rfl⟩ := List.mem_map.1 ht
    exact htext u hu _ _

section

omit hv hg

mutual

theorem pieceNode_within [Vocabulary T P] [g.Sound T P] {span : Span} {marked : Bool} {token : Token} {lead : Nat} :
    ∀ (p : Reading.Piece) {e : Expr}, (∀ text ∈ p.exprs, FieldOf T text) →
      g.pieceNode span marked token lead p = some e → e.Within P
  | .text codes, e, hp, h => by
    cases h
    simp [Expr.Within]
  | .field offset expr conversion none, e, hp, h => by
    rw [pieceNode] at h
    split at h
    · cases h
    · next value hvalue =>
      cases h
      have hvalue := fieldExpression_within (hp expr (by simp [Reading.Piece.exprs])) hvalue
      simp [Expr.Within, hvalue]
  | .field offset expr conversion (some ps), e, hp, h => by
    rw [pieceNode] at h
    split at h
    · cases h
    · next value hvalue =>
      obtain ⟨es, hes, rfl⟩ := Option.map_eq_some_iff.1 h
      have hvalue := fieldExpression_within (hp expr (by simp [Reading.Piece.exprs])) hvalue
      have hparts := pieceNodes_within ps (fun text ht => hp text (by simp [Reading.Piece.exprs, ht])) hes
      simpa [Expr.Within, hvalue] using hparts

theorem pieceNodes_within [Vocabulary T P] [g.Sound T P] {span : Span} {marked : Bool} {token : Token} {lead : Nat} :
    ∀ (ps : List Reading.Piece) {es : List Expr}, (∀ text ∈ Reading.Piece.allExprs ps, FieldOf T text) →
      g.pieceNodes span marked token lead ps = some es → ∀ e ∈ es, e.Within P
  | [], es, hp, h => by
    cases h
    simp
  | p :: ps, es, hp, h => by
    rw [pieceNodes] at h
    split at h
    · next e es he hes =>
      cases h
      exact List.forall_mem_cons.2
        ⟨pieceNode_within p (fun text ht => hp text (by simp [Reading.Piece.allExprs, ht])) he,
          pieceNodes_within ps (fun text ht => hp text (by simp [Reading.Piece.allExprs, ht])) hes⟩
    · cases h

end

end

def StringPart.Within (P : String → Prop) : StringPart → Prop
  | .text _ => True
  | .node e => e.Within P

theorem stringParts_within {span : Span} {marked : Bool} {t : Token} (ht : T t) {parts : List StringPart}
    (h : g.stringParts span marked t (Reading.Quoted.of t.text.toList) = some parts) :
    ∀ p ∈ parts, p.Within P := by
  unfold stringParts at h
  split at h
  · obtain ⟨ps, hps, hparts⟩ := Option.bind_eq_some_iff.1 h
    refine forall_mapM hparts fun p hp part hpart => ?_
    split at hpart
    · cases hpart
      trivial
    · obtain ⟨e, he, rfl⟩ := Option.map_eq_some_iff.1 hpart
      exact pieceNode_within p (hv.field t ht ps hps p hp) he
  · obtain ⟨codes, -, rfl⟩ := Option.map_eq_some_iff.1 h
    simp [StringPart.Within]

omit hv in
theorem joinParts_within {span : Span} {marked : Bool} : ∀ {parts : List StringPart} {acc : List Code},
    (∀ p ∈ parts, p.Within P) → ∀ e ∈ joinParts span marked acc parts, e.Within P
  | [], acc, h => by
    unfold joinParts
    split <;> simp [Expr.Within]
  | .text codes :: ps, acc, h => by
    unfold joinParts
    exact joinParts_within (List.forall_mem_cons.1 h).2
  | .node e :: ps, acc, h => by
    obtain ⟨he, hps⟩ := List.forall_mem_cons.1 h
    have hrest := @joinParts_within span marked ps [] hps
    unfold joinParts
    split <;> simp_all [Expr.Within, StringPart.Within]

theorem quoted_within {span : Span} {marked : Bool} {ts : List Token} (ht : ∀ t ∈ ts, T t)
    {parts : List (List StringPart)} (h : (ts.map fun t => (t, Reading.Quoted.of t.text.toList)).mapM
      (fun q => g.stringParts span marked q.1 q.2) = some parts) :
    ∀ e ∈ joinParts span marked [] parts.flatten, e.Within P := by
  refine joinParts_within fun p hp => ?_
  obtain ⟨l, hl, hp⟩ := List.mem_flatten.1 hp
  refine forall_mapM (Q := fun l => ∀ p ∈ l, p.Within P) h (fun q hq l hl => ?_) l hl p hp
  obtain ⟨t, htok, rfl⟩ := List.mem_map.1 hq
  exact stringParts_within (ht t htok) hl

@[spec]
theorem strings_gives : Gives T g.strings (Expr.Within P) := by
  have hmany := @many_gives Token T P T _
  have hquoted := @quoted_within T P _ g _
  mvcgen [strings, hmany] with grind

/-! ### Comprehensions -/

@[spec]
theorem disjunction_gives : Gives T g.disjunction (Expr.Within P) :=
  joinedBy_gives (joinedBy_gives hg.inversion _ _) _ _

variable {primary : Parser Expr} (hp : Gives T primary (Expr.Within P))

include hp

omit hg in
@[spec]
theorem loopTargets_gives : Gives T (g.loopTargets primary) (Expr.Within P) := by
  have htarget := @Expr.target?_within P .store
  mvcgen [loopTargets, hp] with grind

@[spec]
theorem compClauses_gives : Gives T (g.compClauses primary) fun l => ∀ c ∈ l, c.Within P := by
  have hmany := @many_gives CompClause T P (CompClause.Within P) _
  have hmany' := @many_gives Expr T P (Expr.Within P) _
  mvcgen [compClauses, hmany, hmany', hp] with grind

/-! ### Atoms -/

@[spec]
theorem parenthesised_gives : Gives T (g.parenthesised primary) (Expr.Within P) := by
  have hmore := moreItems_gives (starNamed_gives (g := g))
  mvcgen [parenthesised, hmore, hp] with grind

@[spec]
theorem listDisplay_gives : Gives T (g.listDisplay primary) (Expr.Within P) := by
  have hmore := moreItems_gives (starNamed_gives (g := g))
  mvcgen [listDisplay, hmore, hp] with grind

omit hp in
@[spec]
theorem dictItem_gives : Gives T g.dictItem (DictItem.Within P) := by
  mvcgen [dictItem] with grind

omit hp in
@[spec]
theorem dictTail_gives (start : Position) {first : DictItem} (hfirst : first.Within P) :
    Gives T (g.dictTail start first) (Expr.Within P) := by
  have hmore := moreItems_gives (dictItem_gives (g := g))
  mvcgen [dictTail, hmore] with grind

@[spec]
theorem braced_gives : Gives T (g.braced primary) (Expr.Within P) := by
  have hmore := moreItems_gives (starNamed_gives (g := g))
  mvcgen [braced, hmore, hp] with grind

@[spec]
theorem atom_gives : Gives T (g.atom primary) (Expr.Within P) := by
  have hname := hv.name
  mvcgen [atom, hp] with grind [endToken, Token.isIdentifier]

/-! ### Calls and subscripts -/

@[grind =]
def Arguments.Within (P : String → Prop) (a : Arguments) : Prop :=
  (∀ e ∈ a.args, e.Within P) ∧ ∀ k ∈ a.keywords, k.Within P

omit hp

@[spec]
theorem argument_gives {acc : Arguments} (hacc : acc.Within P) : Gives T (g.argument acc) (Arguments.Within P) := by
  have hname := hv.name
  mvcgen [argument] with grind [endToken, Token.isIdentifier]

@[spec]
theorem argumentsFrom_gives {first : Arguments} (hfirst : first.Within P) :
    Gives T (g.argumentsFrom first) (Arguments.Within P) := by
  have hchain := @chain_gives (Arguments × Bool) T P (fun r => r.1.Within P) _
  mvcgen [argumentsFrom, hchain] with grind

@[spec]
theorem arguments_gives : Gives T g.arguments (Arguments.Within P) := by
  mvcgen [arguments] with grind

include hp in
@[spec]
theorem callArguments_gives : Gives T (g.callArguments primary) (Arguments.Within P) := by
  mvcgen [callArguments, hp] with grind

@[spec]
theorem slicePart_gives : Gives T g.slicePart fun o => ∀ e ∈ o, e.Within P := by
  mvcgen [slicePart] with grind

@[spec]
theorem sliceTail_gives (start : Position) {lower : Option Expr} (hl : ∀ e ∈ lower, e.Within P) :
    Gives T (g.sliceTail start lower) (Expr.Within P) := by
  mvcgen [sliceTail] with grind

@[spec]
theorem subscriptItem_gives : Gives T g.subscriptItem (Expr.Within P) := by
  mvcgen [subscriptItem] with grind

@[spec]
theorem subscriptIndex_gives : Gives T g.subscriptIndex (Expr.Within P) := by
  have hlist := commaList_gives (subscriptItem_gives (g := g))
  mvcgen [subscriptIndex, hlist] with grind

include hp

@[spec]
theorem trailer_gives (start : Position) {e : Expr} (he : e.Within P) :
    Gives T (g.trailer primary start e) fun o => ∀ e ∈ o, e.Within P := by
  mvcgen [trailer, hp] with grind

/-! ### Levels -/

@[spec]
theorem primaryOver_gives : Gives T (g.primaryOver primary) (Expr.Within P) := by
  have hchain := @chain_gives Expr T P (Expr.Within P) _
  mvcgen [primaryOver, hchain, hp] with grind

@[spec]
theorem powerOver_gives : Gives T (g.powerOver primary) (Expr.Within P) := by
  mvcgen [powerOver, hp] with grind

@[spec]
theorem factorOver_gives : Gives T (g.factorOver primary) (Expr.Within P) := by
  mvcgen [factorOver, hp] with grind

omit hp

omit hg in
@[spec]
theorem comparison_gives {operand : Parser Expr} (h : Gives T operand (Expr.Within P)) :
    Gives T (g.comparison operand) (Expr.Within P) := by
  have hmany := @many_gives (CompareOp × Expr) T P (fun r => r.2.Within P) _
  mvcgen [comparison, h, hmany] with grind

@[spec]
theorem inversionOver_gives {operand : Parser Expr} (h : Gives T operand (Expr.Within P)) :
    Gives T (g.inversionOver operand) (Expr.Within P) := by
  mvcgen [inversionOver, h] with grind

@[spec]
theorem expressionOver_gives {disjunction : Parser Expr} (h : Gives T disjunction (Expr.Within P)) :
    Gives T (g.expressionOver disjunction) (Expr.Within P) := by
  mvcgen [expressionOver, h] with grind

end Grammar

namespace Level

class Sound (T : outParam (Token → Prop)) (P : outParam (String → Prop)) (l : Level) : Prop where
  grammar : l.grammar.Sound T P
  primary : Gives T l.primary (Expr.Within P)

attribute [instance] Sound.grammar
attribute [spec] Sound.primary

instance ofDepth_sound [Vocabulary T P] (place : Position → Position) (depth : Nat) :
    (ofDepth place depth).Sound T P := by
  induction depth with
  | zero => exact ⟨⟨fail_gives, fail_gives, fail_gives⟩, fail_gives⟩
  | succ n ih =>
    let g := (ofDepth place n).grammar
    have hfactor : Gives T (g.factorOver (ofDepth place n).primary) (Expr.Within P) :=
      Grammar.factorOver_gives ih.primary
    have hoperand : Gives T (BinOp.ranks.foldr (fun ops operand => g.leftBinary operand ops)
        (g.factorOver (ofDepth place n).primary)) (Expr.Within P) := by
      induction BinOp.ranks with
      | nil => exact hfactor
      | cons ops ranks ih => exact Grammar.leftBinary_gives ih ops
    have hinversion := Grammar.inversionOver_gives (g := g) hoperand
    have hor := Grammar.joinedBy_gives (g := g) (Grammar.joinedBy_gives (g := g) hinversion "and" .and) "or" .or
    exact ⟨⟨Grammar.expressionOver_gives hor, hinversion, hfactor⟩, Grammar.primaryOver_gives ih.primary⟩

end Level

end LoopEscape

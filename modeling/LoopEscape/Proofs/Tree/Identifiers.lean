import LoopEscape.Tree.Stmt

/-!
# Identifiers in trees

Beside the names that it binds or reads, code has identifiers that name members, arguments, modules and
labels.  `Within` says of a tree that all its identifiers, of whatever kind, have a property.
-/

namespace LoopEscape

mutual

def Expr.Within (P : String → Prop) : Expr → Prop
  | .name _ id _ => P id
  | .member _ value name _ => value.Within P ∧ P name
  | .const .. => True
  | .unary _ _ e | .await _ e | .yieldFrom _ e | .starred _ e _ => e.Within P
  | .named _ a b | .binary _ a _ b | .subscript _ a b _ => a.Within P ∧ b.Within P
  | .conditional _ a b c => a.Within P ∧ b.Within P ∧ c.Within P
  | .boolOp _ _ es | .set _ es | .joined _ es | .list _ es _ | .tuple _ es _ => ∀ e ∈ es, e.Within P
  | .yield _ value => ∀ e ∈ value, e.Within P
  | .slice _ a b c => (∀ e ∈ a, e.Within P) ∧ (∀ e ∈ b, e.Within P) ∧ ∀ e ∈ c, e.Within P
  | .formatted _ value _ format => value.Within P ∧ ∀ e ∈ format, e.Within P
  | .compare _ left rest => left.Within P ∧ ∀ op e, (op, e) ∈ rest → e.Within P
  | .call _ func args keywords =>
    func.Within P ∧ (∀ e ∈ args, e.Within P) ∧ ∀ k ∈ keywords, k.Within P
  | .lambda _ params body => params.Within P ∧ body.Within P
  | .dict _ items => ∀ i ∈ items, i.Within P
  | .comp _ _ e clauses => e.Within P ∧ ∀ c ∈ clauses, c.Within P
  | .dictComp _ a b clauses => a.Within P ∧ b.Within P ∧ ∀ c ∈ clauses, c.Within P
termination_by e => sizeOf e
decreasing_by
  all_goals try decreasing_tactic
  -- an operand of a comparison stands in a pair
  next h =>
    have := List.sizeOf_lt_of_mem h
    simp only [Prod.mk.sizeOf_spec, Expr.compare.sizeOf_spec] at this ⊢
    omega

def DictItem.Within (P : String → Prop) : DictItem → Prop
  | .pair key value => key.Within P ∧ value.Within P
  | .spread value => value.Within P
termination_by item => sizeOf item

def CompClause.Within (P : String → Prop) : CompClause → Prop
  | .mk _ target iter conditions => target.Within P ∧ iter.Within P ∧ ∀ e ∈ conditions, e.Within P
termination_by clause => sizeOf clause

def Keyword.Within (P : String → Prop) : Keyword → Prop
  | .mk _ name value => (∀ x ∈ name, P x) ∧ value.Within P
termination_by keyword => sizeOf keyword

def Param.Within (P : String → Prop) : Param → Prop
  | .mk _ name typeHint default => P name ∧ (∀ e ∈ typeHint, e.Within P) ∧ ∀ e ∈ default, e.Within P
termination_by param => sizeOf param

def Params.Within (P : String → Prop) : Params → Prop
  | .mk positional either rest named namedRest =>
    (∀ p ∈ positional, p.Within P) ∧ (∀ p ∈ either, p.Within P) ∧ (∀ p ∈ rest, p.Within P) ∧
      (∀ p ∈ named, p.Within P) ∧ ∀ p ∈ namedRest, p.Within P
termination_by params => sizeOf params

end

def CasePattern.Within (P : String → Prop) : CasePattern → Prop
  | .value _ e => e.Within P
  | .singleton .. => True
  | .sequence _ ps | .or_ _ ps => ∀ p ∈ ps, p.Within P
  | .mapping _ keys ps rest => (∀ e ∈ keys, e.Within P) ∧ (∀ p ∈ ps, p.Within P) ∧ ∀ x ∈ rest, P x
  | .ofClass _ cls ps names named =>
    cls.Within P ∧ (∀ p ∈ ps, p.Within P) ∧ (∀ x ∈ names, P x) ∧ ∀ p ∈ named, p.Within P
  | .star _ name => ∀ x ∈ name, P x
  | .as_ _ pattern name => (∀ p ∈ pattern, p.Within P) ∧ ∀ x ∈ name, P x

/-! ### Statements -/

def Alias.Within (P : String → Prop) (a : Alias) : Prop := P a.name ∧ ∀ x ∈ a.asName, P x

def WithItem.Within (P : String → Prop) (i : WithItem) : Prop := i.context.Within P ∧ ∀ e ∈ i.target, e.Within P

def Handler.Within (P : String → Prop) : Handler → Prop
  | .mk _ type name _ => (∀ e ∈ type, e.Within P) ∧ ∀ x ∈ name, P x

def MatchCase.Within (P : String → Prop) : MatchCase → Prop
  | .mk pattern guard _ => pattern.Within P ∧ ∀ e ∈ guard, e.Within P

/-- All identifiers of a statement have the property, those of the statements inside apart. -/
def Stmt.Within (P : String → Prop) : Stmt → Prop
  | .function _ _ name params _ decorators returns =>
    P name ∧ params.Within P ∧ (∀ e ∈ decorators, e.Within P) ∧ ∀ e ∈ returns, e.Within P
  | .class_ _ name bases keywords _ decorators =>
    P name ∧ (∀ e ∈ bases, e.Within P) ∧ (∀ k ∈ keywords, k.Within P) ∧ ∀ e ∈ decorators, e.Within P
  | .return_ _ value => ∀ e ∈ value, e.Within P
  | .delete _ targets => ∀ e ∈ targets, e.Within P
  | .assign _ targets value => (∀ e ∈ targets, e.Within P) ∧ value.Within P
  | .augAssign _ target _ value => target.Within P ∧ value.Within P
  | .annAssign _ target typeHint value _ =>
    target.Within P ∧ typeHint.Within P ∧ ∀ e ∈ value, e.Within P
  | .for_ _ _ mark target iter _ _ => (∀ x ∈ mark.label, P x) ∧ target.Within P ∧ iter.Within P
  | .while_ _ mark test _ _ => (∀ x ∈ mark.label, P x) ∧ test.Within P
  | .if_ _ test _ _ => test.Within P
  | .with_ _ _ items _ => ∀ i ∈ items, i.Within P
  | .match_ _ subject cases => subject.Within P ∧ ∀ c ∈ cases, c.Within P
  | .raise _ exc cause => (∀ e ∈ exc, e.Within P) ∧ ∀ e ∈ cause, e.Within P
  | .try_ _ _ _ handlers _ _ => ∀ h ∈ handlers, h.Within P
  | .assert_ _ test message => test.Within P ∧ ∀ e ∈ message, e.Within P
  | .import_ _ names | .supportImport _ names => ∀ a ∈ names, a.Within P
  | .importFrom _ module names _ => (∀ x ∈ module, P x) ∧ ∀ a ∈ names, a.Within P
  | .global _ names | .nonlocal _ names => ∀ x ∈ names, P x
  | .expr _ value => value.Within P
  | .pass _ => True
  | .break_ _ label value => (∀ x ∈ label, P x) ∧ ∀ e ∈ value, e.Within P
  | .continue_ _ label => ∀ x ∈ label, P x
  | .callbackLoop _ header target iter _ =>
    (∀ x ∈ header.label, P x) ∧ (∀ e ∈ header.escapes, P e.label) ∧ (∀ x ∈ header.result, P x) ∧
      target.Within P ∧ iter.Within P
  | .block _ label target _ => P label ∧ ∀ x ∈ target, P x

attribute [grind =] Expr.Within DictItem.Within CompClause.Within Keyword.Within Param.Within Params.Within
  CasePattern.Within Alias.Within WithItem.Within Handler.Within MatchCase.Within Stmt.Within

end LoopEscape

import LoopEscape.Scope.Bound
import LoopEscape.Scope.Declared

/-!
# What happens to names in a block

Every module, function and class is a block with names of its own.  Read from top to bottom, its
statements use names, bind them, annotate them and declare them.  The events of a block are listed here in
this order.

A function or class inside is a block of its own, but its name is bound outside, and its decorators,
defaults, annotations and bases are read outside.  A lambda and a comprehension are blocks too: of a
lambda only the defaults are read outside, and of a comprehension what its first clause goes over.  The
variable of an assignment expression in a comprehension is bound outside of it.

Types are read where they stand, unless the module keeps them as texts.

A callback loop is read as a plain loop over the same call; the variable for its result is bound behind
it.  The value that a jump carries is read where the jump stands.
-/

namespace LoopEscape

structure Touch where
  binds : Bool
  name : String
deriving DecidableEq, Repr

namespace Touch

def use (x : String) : Touch := ⟨false, x⟩

def bind (x : String) : Touch := ⟨true, x⟩

end Touch

inductive NameEvent
  | touch (t : Touch)
  /-- The name is annotated by a statement of its own, with a value or without. -/
  | hint (x : String)
  | declare (isGlobal : Bool) (x : String)
  | importAll
deriving DecidableEq, Repr

/-! ### Expressions -/

/-- What happens to the variable of an assignment expression around the comprehension that it is in. -/
def Expr.escaping : Expr → List Touch
  | .name _ id _ => [.bind id]
  | _ => []

mutual

/-- The names that an expression uses and binds.  Those `inside` a comprehension stay there, apart from
the variables of assignment expressions. -/
def Expr.touches (inside : Bool) : Expr → List Touch
  | .boolOp _ _ values => Expr.touchesAll inside values
  | .named _ target value =>
    Expr.touches inside value ++ Expr.touches inside target ++
      (if inside then target.escaping else [])
  | .binary _ left _ right => Expr.touches inside left ++ Expr.touches inside right
  | .unary _ _ operand => Expr.touches inside operand
  | .lambda _ params _ => Params.defaultTouches inside params
  | .conditional _ test body orElse =>
    Expr.touches inside test ++ Expr.touches inside body ++ Expr.touches inside orElse
  | .dict _ items => DictItem.touches inside items
  | .set _ elements => Expr.touchesAll inside elements
  | .comp _ _ element clauses => CompClause.touches inside clauses ++ Expr.touches true element
  | .dictComp _ key value clauses =>
    CompClause.touches inside clauses ++ Expr.touches true value ++ Expr.touches true key
  | .await _ value => Expr.touches inside value
  | .yield _ value => Expr.optionTouches inside value
  | .yieldFrom _ value => Expr.touches inside value
  | .compare _ left rest => Expr.touches inside left ++ Expr.comparedTouches inside rest
  | .call _ func args keywords =>
    Expr.touches inside func ++ Expr.touchesAll inside args ++ Keyword.touches inside keywords
  | .formatted _ value _ format => Expr.touches inside value ++ Expr.optionTouches inside format
  | .joined _ parts => Expr.touchesAll inside parts
  | .const .. => []
  | .member _ value _ _ => Expr.touches inside value
  | .subscript _ value index _ => Expr.touches inside value ++ Expr.touches inside index
  | .starred _ value _ => Expr.touches inside value
  | .name _ id access => if inside then [] else [if access = .load then .use id else .bind id]
  | .list _ elements _ => Expr.touchesAll inside elements
  | .tuple _ elements _ => Expr.touchesAll inside elements
  | .slice _ lower upper step =>
    Expr.optionTouches inside lower ++ Expr.optionTouches inside upper ++
      Expr.optionTouches inside step

def Expr.touchesAll (inside : Bool) : List Expr → List Touch
  | [] => []
  | e :: es => Expr.touches inside e ++ Expr.touchesAll inside es

def Expr.optionTouches (inside : Bool) : Option Expr → List Touch
  | none => []
  | some e => Expr.touches inside e

def Expr.comparedTouches (inside : Bool) : List (CompareOp × Expr) → List Touch
  | [] => []
  | (_, e) :: rest => Expr.touches inside e ++ Expr.comparedTouches inside rest

def DictItem.touches (inside : Bool) : List DictItem → List Touch
  | [] => []
  | .pair key value :: items =>
    Expr.touches inside key ++ Expr.touches inside value ++ DictItem.touches inside items
  | .spread value :: items => Expr.touches inside value ++ DictItem.touches inside items

def CompClause.touches (inside : Bool) : List CompClause → List Touch
  | [] => []
  | .mk _ target iter conditions :: clauses =>
    Expr.touches inside iter ++ Expr.touches true target ++ Expr.touchesAll true conditions ++
      CompClause.touches true clauses

def Keyword.touches (inside : Bool) : List Keyword → List Touch
  | [] => []
  | .mk _ _ value :: keywords => Expr.touches inside value ++ Keyword.touches inside keywords

def Param.defaultTouches (inside : Bool) : List Param → List Touch
  | [] => []
  | .mk _ _ _ default :: params =>
    Expr.optionTouches inside default ++ Param.defaultTouches inside params

def Params.defaultTouches (inside : Bool) : Params → List Touch
  | .mk positional either _ named _ =>
    Param.defaultTouches inside positional ++ Param.defaultTouches inside either ++
      Param.defaultTouches inside named

end

def Params.hintTouches (params : Params) : List Touch :=
  (params.positional ++ params.either ++ params.rest.toList ++ params.namedRest.toList ++
    params.named).flatMap fun p => Expr.optionTouches false p.typeHint

/-! ### Statements -/

mutual

def CasePattern.touches : CasePattern → List Touch
  | .value _ e => e.touches false
  | .singleton .. => []
  | .sequence _ patterns => CasePattern.touchesAll patterns
  | .mapping _ keys patterns rest =>
    Expr.touchesAll false keys ++ CasePattern.touchesAll patterns ++ rest.toList.map .bind
  | .ofClass _ cls patterns _ named =>
    cls.touches false ++ CasePattern.touchesAll patterns ++ CasePattern.touchesAll named
  | .star _ name => name.toList.map .bind
  | .as_ _ none name => name.toList.map .bind
  | .as_ _ (some pattern) name => CasePattern.touches pattern ++ name.toList.map .bind
  | .or_ _ patterns => CasePattern.touchesAll patterns

def CasePattern.touchesAll : List CasePattern → List Touch
  | [] => []
  | p :: ps => CasePattern.touches p ++ CasePattern.touchesAll ps

end

def touched (ts : List Touch) : List NameEvent := ts.map .touch

def Alias.events (a : Alias) : List NameEvent :=
  if a.name = "*" then [.importAll] else touched (a.bound.toList.map .bind)

def WithItem.touches (item : WithItem) : List Touch :=
  item.context.touches false ++ Expr.optionTouches false item.target

def functionTouches (texts : Bool) (params : Params) (decorators : List Expr)
    (returns : Option Expr) : List Touch :=
  params.defaultTouches false ++
    (if texts then [] else params.hintTouches ++ Expr.optionTouches false returns) ++
    Expr.touchesAll false decorators

def classTouches (bases : List Expr) (keywords : List Keyword) (decorators : List Expr) :
    List Touch :=
  Expr.touchesAll false bases ++ Keyword.touches false keywords ++ Expr.touchesAll false decorators

/-- The target of an annotated assignment.  Only a bare name is annotated; a name in brackets is not
bound without a value. -/
def annotatedEvents (target : Expr) (simple hasValue : Bool) : List NameEvent :=
  match target with
  | .name _ id _ =>
    if simple then .hint id :: touched (target.touches false)
    else if hasValue then touched (target.touches false) else []
  | target => touched (target.touches false)

mutual

/-- The events of a statement in its block; `texts` tells that types are kept as texts. -/
def Stmt.events (texts : Bool) : Stmt → List NameEvent
  | .function _ _ name params _ decorators returns =>
    touched (.bind name :: functionTouches texts params decorators returns)
  | .class_ _ name bases keywords _ decorators =>
    touched (.bind name :: classTouches bases keywords decorators)
  | .return_ _ value => touched (Expr.optionTouches false value)
  | .delete _ targets => touched (Expr.touchesAll false targets)
  | .assign _ targets value => touched (Expr.touchesAll false targets ++ value.touches false)
  | .augAssign _ target _ value => touched (target.touches false ++ value.touches false)
  | .annAssign _ target typeHint value simple =>
    annotatedEvents target simple value.isSome ++
      touched ((if texts then [] else typeHint.touches false) ++ Expr.optionTouches false value)
  | .for_ _ _ mark target iter body orElse =>
    touched (mark.valueTarget.toList.map .bind ++ target.touches false ++ iter.touches false) ++
      Stmt.eventsAll texts body ++ Stmt.eventsAll texts orElse
  | .while_ _ mark test body orElse =>
    touched (mark.valueTarget.toList.map .bind ++ test.touches false) ++ Stmt.eventsAll texts body ++
      Stmt.eventsAll texts orElse
  | .if_ _ test body orElse =>
    touched (test.touches false) ++ Stmt.eventsAll texts body ++ Stmt.eventsAll texts orElse
  | .with_ _ _ items body => touched (items.flatMap WithItem.touches) ++ Stmt.eventsAll texts body
  | .match_ _ subject cases => touched (subject.touches false) ++ MatchCase.eventsAll texts cases
  | .raise _ exc cause => touched (Expr.optionTouches false exc ++ Expr.optionTouches false cause)
  | .try_ _ _ body handlers orElse final =>
    Stmt.eventsAll texts body ++ Stmt.eventsAll texts orElse ++ Handler.eventsAll texts handlers ++
      Stmt.eventsAll texts final
  | .assert_ _ test message => touched (test.touches false ++ Expr.optionTouches false message)
  | .import_ _ names | .importFrom _ _ names _ | .supportImport _ names => names.flatMap Alias.events
  | .global _ names => names.map (.declare true)
  | .nonlocal _ names => names.map (.declare false)
  | .expr _ value => touched (value.touches false)
  | .pass .. | .continue_ .. => []
  | .break_ _ _ value => touched (Expr.optionTouches false value)
  | .callbackLoop _ header target iter body =>
    touched (target.touches false ++ iter.touches false) ++ Stmt.eventsAll texts body ++
      touched (header.result.toList.map .bind)
  | .block _ _ target body => touched (target.toList.map .bind) ++ Stmt.eventsAll texts body

def Stmt.eventsAll (texts : Bool) : List Stmt → List NameEvent
  | [] => []
  | s :: rest => Stmt.events texts s ++ Stmt.eventsAll texts rest

def Handler.eventsAll (texts : Bool) : List Handler → List NameEvent
  | [] => []
  | .mk _ type name body :: rest =>
    touched (Expr.optionTouches false type ++ name.toList.map .bind) ++ Stmt.eventsAll texts body ++
      Handler.eventsAll texts rest

def MatchCase.eventsAll (texts : Bool) : List MatchCase → List NameEvent
  | [] => []
  | .mk pattern guard body :: rest =>
    touched (pattern.touches ++ Expr.optionTouches false guard) ++ Stmt.eventsAll texts body ++
      MatchCase.eventsAll texts rest

end

def BoundBy (events : List NameEvent) (x : String) : Prop := .touch (.bind x) ∈ events

def NameEvent.mayPrecede : NameEvent → NameEvent → Bool
  | .touch t, .declare _ x => t.name != x
  | _, _ => true

def InOrder (events : List NameEvent) : Prop := events.Pairwise fun a b => a.mayPrecede b = true

instance (events : List NameEvent) : Decidable (InOrder events) :=
  inferInstanceAs (Decidable (List.Pairwise _ _))

theorem eventsAll_append (texts : Bool) (a b : List Stmt) :
    Stmt.eventsAll texts (a ++ b) = Stmt.eventsAll texts a ++ Stmt.eventsAll texts b := by
  induction a with
  | nil => rfl
  | cons s rest ih => rw [List.cons_append, Stmt.eventsAll, Stmt.eventsAll, ih, List.append_assoc]

@[simp] theorem eventsAll_orPass (texts : Bool) (loc : Loc) (body : List Stmt) :
    Stmt.eventsAll texts (orPass loc body) = Stmt.eventsAll texts body := by
  cases body <;> rfl

theorem declare_not_mem_touched {ts : List Touch} {g : Bool} {x : String} :
    .declare g x ∉ touched ts := by
  simp [touched]

/-! ### Changed blocks -/

/-- Nothing happens but what happened before, apart from what may be touched freely, and the order of
declarations stays right, provided that nothing declared may be touched freely. -/
structure Tame (Free : Touch → Prop) (events events' : List NameEvent) : Prop where
  within : ∀ e ∈ events', e ∈ events ∨ ∃ t, e = .touch t ∧ Free t
  inOrder : (∀ g x, .declare g x ∈ events → ∀ t, Free t → t.name ≠ x) → InOrder events →
    InOrder events'

theorem mayPrecede_of_ne {a b : NameEvent} (h : ∀ g x, b ≠ .declare g x) : a.mayPrecede b = true := by
  cases b with
  | declare g x => exact absurd rfl (h g x)
  | touch | hint | importAll => cases a <;> rfl

theorem inOrder_of_no_declare {events : List NameEvent} (h : ∀ g x, .declare g x ∉ events) :
    InOrder events :=
  List.pairwise_of_forall_mem_list fun _ _ _ hb => mayPrecede_of_ne fun g x he => h g x (he ▸ hb)

namespace Tame

variable {Free : Touch → Prop} {a a' b b' : List NameEvent}

theorem refl (a : List NameEvent) : Tame Free a a := ⟨fun _ he => .inl he, fun _ ho => ho⟩

theorem of_within (h : ∀ e ∈ a', e ∈ a ∨ ∃ t, e = .touch t ∧ Free t)
    (hd : ∀ g x, .declare g x ∉ a') : Tame Free a a' :=
  ⟨h, fun _ _ => inOrder_of_no_declare hd⟩

theorem declare_mem (h : Tame Free a a') {g : Bool} {x : String} (hx : .declare g x ∈ a') :
    .declare g x ∈ a := by
  rcases h.within _ hx with hx | ⟨t, ht, -⟩
  · exact hx
  · cases ht

theorem hint_mem (h : Tame Free a a') {x : String} (hx : .hint x ∈ a') : .hint x ∈ a := by
  rcases h.within _ hx with hx | ⟨t, ht, -⟩
  · exact hx
  · cases ht

theorem importAll_mem (h : Tame Free a a') (hx : .importAll ∈ a') : .importAll ∈ a := by
  rcases h.within _ hx with hx | ⟨t, ht, -⟩
  · exact hx
  · cases ht

theorem mono {Free' : Touch → Prop} (h : Tame Free a a') (hf : ∀ t, Free t → Free' t) :
    Tame Free' a a' where
  within e he := (h.within e he).imp_right fun ⟨t, ht, hfree⟩ => ⟨t, ht, hf t hfree⟩
  inOrder hd := h.inOrder fun g x hx t ht => hd g x hx t (hf t ht)

theorem behind {u : Touch} (h : Tame (fun t => Free t ∨ t = u) a a') :
    Tame Free (.touch u :: a) a' where
  within e he := by
    rcases h.within e he with he | ⟨t, rfl, ht | rfl⟩
    · exact .inl (List.mem_cons_of_mem _ he)
    · exact .inr ⟨t, rfl, ht⟩
    · exact .inl List.mem_cons_self
  inOrder hd ho := by
    obtain ⟨hu, ho⟩ := List.pairwise_cons.1 ho
    refine h.inOrder (fun g x hx t ht => ?_) ho
    rcases ht with ht | rfl
    · exact hd g x (List.mem_cons_of_mem _ hx) t ht
    · exact bne_iff_ne.1 (hu _ hx)

theorem append (ha : Tame Free a a') (hb : Tame Free b b') : Tame Free (a ++ b) (a' ++ b') where
  within e he := by
    rcases List.mem_append.1 he with he | he
    · exact (ha.within e he).imp_left (List.mem_append_left _)
    · exact (hb.within e he).imp_left (List.mem_append_right _)
  inOrder hd ho := by
    obtain ⟨hoa, hob, hcross⟩ := List.pairwise_append.1 ho
    refine List.pairwise_append.2 ⟨ha.inOrder (fun g x h => hd g x (List.mem_append_left _ h)) hoa,
      hb.inOrder (fun g x h => hd g x (List.mem_append_right _ h)) hob, fun e he f hf => ?_⟩
    cases f with
    | declare g x =>
      have hx := hb.declare_mem hf
      rcases ha.within e he with he | ⟨t, rfl, ht⟩
      · exact hcross e he _ hx
      · exact bne_iff_ne.2 (hd g x (List.mem_append_right _ hx) t ht)
    | touch | hint | importAll => exact mayPrecede_of_ne nofun

end Tame

end LoopEscape

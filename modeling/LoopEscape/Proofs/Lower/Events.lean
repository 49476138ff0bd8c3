import LoopEscape.Proofs.Expand.Events
import LoopEscape.Proofs.Lower.Every
import LoopEscape.Proofs.Lower.Spec
import LoopEscape.Proofs.Scope.Legal

/-!
# What lowering does to the names of a block

Lowered code uses holders and the variable for a caught jump, which are reserved, and it stores the value
of a jump where the jump stands or is caught, whereas the variable for it is bound at the head of its
target before.  So lowering is tame in every block (`lowerAll_tame`).
-/

namespace LoopEscape

open Generate Lower

variable {events : List NameEvent} {t : JumpTarget} {loc : Loc} {kind : JumpKind} {value : Option Expr}
  {body : List Stmt} {v : Option String}

variable {texts : Bool} {made : List String} {ts : List JumpTarget}

/-! ### Jumps -/

/-- What lowered code may touch between the given targets: reserved names, and variables for the values
of jumps. -/
def Touch.Stored (ts : List JumpTarget) (u : Touch) : Prop :=
  u.Reserved ∨ ∃ t ∈ ts, ∃ x ∈ t.valueTarget.toList, u = .bind x

def JumpTarget.Reserved (t : JumpTarget) : Prop := ∀ h, t.holder = some h → isReserved h = true

def NameEvent.Stored (ts : List JumpTarget) (e : NameEvent) : Prop := ∃ u, e = .touch u ∧ u.Stored ts

theorem tame_of_stored (h : ∀ e ∈ events, e.Stored ts) :
    Tame (Touch.Stored ts) [] events := by
  refine .of_within (fun e he => .inr (h e he)) fun g x hx => ?_
  obtain ⟨u, hu, -⟩ := h _ hx
  cases hu

theorem stored_of_reserved {x : String} (hx : isReserved x = true) (binds : Bool) :
    (NameEvent.touch ⟨binds, x⟩).Stored ts := ⟨_, rfl, .inl hx⟩

theorem stored_valueTarget {x : String} (ht : t ∈ ts) (hx : t.valueTarget = some x) :
    (NameEvent.touch (.bind x)).Stored ts :=
  ⟨_, rfl, .inr ⟨t, ht, x, by simp [hx], rfl⟩⟩

theorem eventsAll_plain (loc : Loc) (kind : JumpKind) : Stmt.eventsAll texts [kind.plain loc] = [] := by
  cases kind <;> rfl

theorem plainJump_tame (ht : t ∈ ts) : Tame (Touch.Stored ts) (touched (Expr.optionTouches false value))
      (Stmt.eventsAll texts (plainJump loc kind t value)) := by
  unfold plainJump
  simp only
  rw [eventsAll_append, eventsAll_plain, List.append_nil]
  split
  · exact .refl _
  · next v target hx =>
    rw [Stmt.eventsAll, events_assign, Stmt.eventsAll, List.append_nil]
    exact (tame_of_stored (List.forall_mem_singleton.2 (stored_valueTarget ht hx))).append (.refl _)
  · rw [Stmt.eventsAll, Stmt.events, Stmt.eventsAll, List.append_nil]
    exact .refl _

theorem raiseJump_tame {h : String} (hh : isReserved h = true) :
    Tame (Touch.Stored ts) (touched (Expr.optionTouches false value))
      (Stmt.eventsAll texts [raiseJump loc h kind value]) := by
  have hevents : Stmt.eventsAll texts [raiseJump loc h kind value] =
      .touch (.use h) :: touched (Expr.optionTouches false value) := by
    cases value <;> simp [raiseJump, Stmt.eventsAll, Stmt.events, Expr.optionTouches, Expr.touchesAll,
      touched]
  rw [hevents]
  exact (tame_of_stored (List.forall_mem_singleton.2 (stored_of_reserved hh _))).append (.refl _)

theorem jump_tame {label : Option String} {out : List Stmt} (hr : ∀ t ∈ ts, t.Reserved)
    (h : LowersJump ts loc kind label value out) :
    Tame (Touch.Stored ts) (touched (Expr.optionTouches false value)) (Stmt.eventsAll texts out) := by
  obtain ⟨i, t, -, ht, -, hout⟩ := h
  have hmem : t ∈ ts := List.mem_of_getElem? ht
  split at hout
  · rw [hout]
    exact plainJump_tame hmem
  · obtain ⟨-, x, hx, rfl⟩ := hout
    exact raiseJump_tame (hr t hmem x hx)

/-! ### Targets -/

theorem JumpTarget.Stands.reserved (hm : ∀ h ∈ made, isReserved h = true) (hs : t.Stands made ts) :
    t.Reserved := fun h hh => hm h (hs.made h hh)

theorem handler_stored (ht : t ∈ ts) (hr : t.Reserved) (hn : t.Notes) (hk : t.raises kind = true)
    (hb : Stmt.eventsAll texts body = []) :
    ∀ e ∈ Handler.eventsAll texts [handler t kind body], e.Stored ts := by
  obtain ⟨⟨x, hx⟩, -⟩ := hn kind hk
  have hclass : ∀ binds, (NameEvent.touch ⟨binds, x⟩).Stored ts := stored_of_reserved (hr x hx)
  have hjump : ∀ binds, (NameEvent.touch ⟨binds, jumpVariable⟩).Stored ts :=
    stored_of_reserved (isReserved_generatedName _)
  unfold handler
  split
  · next target hv =>
    intro e he
    simp only [Handler.eventsAll, Stmt.eventsAll, events_assign, hb, hx, touched, Expr.optionTouches,
      touches_attr, touches_load, Option.getD_some, Option.toList_some, List.map_cons, List.map_nil,
      List.append_nil, List.cons_append, List.nil_append, List.mem_cons,
      List.not_mem_nil, or_false] at he
    rcases he with rfl | rfl | rfl | rfl
    · exact hclass _
    · exact hjump _
    · exact stored_valueTarget ht hv
    · exact hjump _
  · intro e he
    simp only [Handler.eventsAll, hb, hx, touched, Expr.optionTouches, touches_attr, touches_load,
      Option.getD_some, Option.toList_none, List.map_cons, List.map_nil, List.append_nil,
      List.mem_singleton] at he
    rw [he]
    exact hclass _

theorem eventsHandlers_append (texts : Bool) (a b : List Handler) :
    Handler.eventsAll texts (a ++ b) = Handler.eventsAll texts a ++ Handler.eventsAll texts b := by
  induction a with
  | nil => rfl
  | cons h rest ih =>
    obtain ⟨loc, type, name, body⟩ := h
    simp only [List.cons_append, Handler.eventsAll, ih, List.append_assoc]

theorem loopHandlers_stored (ht : t ∈ ts) (hr : t.Reserved) (hn : t.Notes) :
    ∀ e ∈ Handler.eventsAll texts (loopHandlers t), e.Stored ts := by
  unfold loopHandlers
  rw [eventsHandlers_append, List.forall_mem_append]
  constructor
  all_goals
    split
    · next hk => exact handler_stored ht hr hn hk rfl
    · exact fun e he => nomatch he

theorem try_tame {handlers : List Handler} (hb : Tame (Touch.Stored ts) events (Stmt.eventsAll texts body))
    (hh : ∀ e ∈ Handler.eventsAll texts handlers, e.Stored ts) :
    Tame (Touch.Stored ts) events (Stmt.eventsAll texts [.try_ loc false body handlers [] []]) := by
  have htry := hb.append (tame_of_stored hh)
  simpa [Stmt.eventsAll, Stmt.events] using htry

theorem catchJumps_tame (ht : t ∈ ts) (hr : t.Reserved) (hn : t.Notes)
    (hb : Tame (Touch.Stored ts) events (Stmt.eventsAll texts body)) :
    Tame (Touch.Stored ts) events (Stmt.eventsAll texts (catchJumps t body)) := by
  unfold catchJumps
  simp only
  split
  · exact hb
  · exact try_tame hb (loopHandlers_stored ht hr hn)

theorem Tame.target {events' : List NameEvent} (hv : t.valueTarget = v)
    (h : Tame (Touch.Stored (t :: ts)) events events') :
    Tame (Touch.Stored ts) (touched (v.toList.map .bind) ++ events) events' := by
  cases v with
  | none =>
    refine h.mono fun u hu => hu.imp_right ?_
    rintro ⟨t', ht, x, hx, rfl⟩
    rcases List.mem_cons.1 ht with rfl | ht
    · simp [hv] at hx
    · exact ⟨t', ht, x, hx, rfl⟩
  | some y =>
    refine (h.mono fun u hu => ?_).behind
    rcases hu with hu | ⟨t', ht, x, hx, rfl⟩
    · exact .inl (.inl hu)
    · rcases List.mem_cons.1 ht with rfl | ht
      · simp only [hv, Option.toList_some, List.mem_singleton] at hx
        exact .inr (hx ▸ rfl)
      · exact .inl (.inr ⟨t', ht, x, hx, rfl⟩)

theorem loop_tame {head : List Touch} {inner rest : List NameEvent} {orElse : List Stmt}
    (hv : t.valueTarget = v) (hr : t.Reserved) (hn : t.Notes)
    (hb : Tame (Touch.Stored (t :: ts)) inner (Stmt.eventsAll texts body))
    (ho : Tame (Touch.Stored ts) rest (Stmt.eventsAll texts orElse)) :
    Tame (Touch.Stored ts) (touched (v.toList.map .bind ++ head) ++ inner ++ rest)
      (touched head ++ Stmt.eventsAll texts (catchJumps t body) ++ Stmt.eventsAll texts orElse) := by
  have helse : Tame (Touch.Stored (t :: ts)) rest (Stmt.eventsAll texts orElse) :=
    ho.mono fun u hu => hu.imp_right fun ⟨t', ht, hx⟩ => ⟨t', List.mem_cons_of_mem t ht, hx⟩
  have hinner := catchJumps_tame List.mem_cons_self hr hn hb
  have hall := Tame.target hv (((Tame.refl (touched head)).append hinner).append helse)
  simpa only [touched, List.map_append, List.append_assoc] using hall

theorem blockStmts_tame (hv : t.valueTarget = v) (hr : t.Reserved) (hn : t.Notes)
    (hb : Tame (Touch.Stored (t :: ts)) events (Stmt.eventsAll texts body)) :
    Tame (Touch.Stored ts) (touched (v.toList.map .bind) ++ events)
      (Stmt.eventsAll texts (blockStmts t body)) := by
  refine .target hv ?_
  unfold blockStmts
  rw [eventsAll_append]
  refine (tame_of_stored ?_).append (b := events) ?_
  · rw [hv]
    cases v with
    | none => exact fun e he => nomatch he
    | some x =>
      simp only [Option.toList_some, List.map_cons, List.map_nil, Stmt.eventsAll, events_assign,
        touches_nothing, touched, List.append_nil, List.forall_mem_singleton]
      exact stored_valueTarget List.mem_cons_self hv
  · split
    · next hk => exact try_tame hb (handler_stored List.mem_cons_self hr hn hk rfl)
    · exact hb

/-! ### Lowered blocks -/

theorem lowerAll_tame (hm : ∀ h ∈ made, isReserved h = true) {out : List Stmt}
    (hl : Stmt.LowerAllTo made ts body out) (hr : ∀ t ∈ ts, t.Reserved) :
    Tame (Touch.Stored ts) (Stmt.eventsAll texts body) (Stmt.eventsAll texts out) := by
  have hone (s : Stmt) : Stmt.eventsAll texts [s] = s.events texts := by
    rw [Stmt.eventsAll, Stmt.eventsAll, List.append_nil]
  refine hl.induction (motive := fun ts body out => (∀ t ∈ ts, t.Reserved) →
    Tame (Touch.Stored ts) (Stmt.eventsAll texts body) (Stmt.eventsAll texts out)) ?nil ?append ?function
    ?class_ ?for_ ?while_ ?block ?break_ ?continue_ ?kept ?plain hr
  case nil => exact fun _ _ => .refl _
  case append =>
    intro ts s out body out' hs hrest hr
    rw [eventsAll_append, Stmt.eventsAll, ← hone]
    exact (hs hr).append (hrest hr)
  case function => exact fun _ _ _ => .refl _
  case class_ => exact fun _ _ => .refl _
  case for_ | while_ =>
    refine fun hopen hstand hb ho hr => ?_
    have ht := hstand.reserved hm
    simp only [hone, Stmt.events, List.append_assoc (List.map Touch.bind _)]
    exact loop_tame hopen.valueTarget ht hstand.notes (hb (List.forall_mem_cons.2 ⟨ht, hr⟩)) (ho hr)
  case block =>
    refine fun hopen hstand hb hr => ?_
    have ht := hstand.reserved hm
    rw [hone, Stmt.events]
    exact blockStmts_tame hopen.valueTarget ht hstand.notes (hb (List.forall_mem_cons.2 ⟨ht, hr⟩))
  case break_ | continue_ => exact fun h hr => hone _ ▸ jump_tame hr h
  case kept =>
    intro ts s bs hs hbs hr
    rw [hone, hone]
    exact tame_refill (Stmt.isInner_of_isKept hs) (fun _ _ => rfl) (hbs.imp fun _ _ ih => ih hr)
  case plain => exact fun _ _ => .refl _

/-! ### Lowered functions -/

theorem lowerAll_functions {P Q : Params → List Stmt → Prop}
    (hPQ : ∀ params body body', P params body → Stmt.LowerAllTo made [] body body' → Q params body')
    {out : List Stmt} (h : Stmt.LowerAllTo made ts body out) (hf : Functions P body) : Functions Q out := by
  refine lowerAll_every ⟨fun hP hb => hPQ _ _ _ hP hb, fun s hs _ => ?_, fun s hs _ => ?_⟩ h hf
  · cases s with
    | import_ | supportImport => trivial
    | _ => cases hs
  · cases s with
    | function => cases hs
    | _ => trivial

end LoopEscape

import LoopEscape.Proofs.Compile.Closed
import LoopEscape.Proofs.Crossing.Lowered
import LoopEscape.Proofs.Crossing.Native
import LoopEscape.Proofs.Lower.Every

/-!
# What the user's code sees of jumps

Lowered code does, with every host, what its source does with jumps that are shown as exceptions, and
where all clauses in their way are for errors and no last part looks at them, what it does with jumps that
pass over clauses; no jump of the source's is left in it (`lowered_crossings`).  So jumps to the innermost
loop are not seen at all.  Other jumps are seen by a clause that is for everything, and by `with`
statements (`crossings_seen`).
-/

namespace LoopEscape.Crossing

open Generate Lower Step

/-! ### Bodies of functions -/

mutual

def innerBodies : Stmt → List (List Stmt)
  | .function _ _ _ _ body _ _ => body :: innerBodiesAll body
  | .class_ _ _ _ _ body _ | .with_ _ _ _ body | .callbackLoop _ _ _ _ body | .block _ _ _ body =>
    innerBodiesAll body
  | .for_ _ _ _ _ _ body orElse | .while_ _ _ _ body orElse | .if_ _ _ body orElse =>
    innerBodiesAll body ++ innerBodiesAll orElse
  | .match_ _ _ cases => innerBodiesCases cases
  | .try_ _ _ body handlers orElse final =>
    innerBodiesAll body ++ innerBodiesClauses handlers ++ innerBodiesAll orElse ++
      innerBodiesAll final
  | _ => []

def innerBodiesAll : List Stmt → List (List Stmt)
  | [] => []
  | s :: rest => innerBodies s ++ innerBodiesAll rest

def innerBodiesClauses : List Handler → List (List Stmt)
  | [] => []
  | .mk _ _ _ body :: rest => innerBodiesAll body ++ innerBodiesClauses rest

def innerBodiesCases : List MatchCase → List (List Stmt)
  | [] => []
  | .mk _ _ body :: rest => innerBodiesAll body ++ innerBodiesCases rest

end

theorem innerBodiesAll_eq (body : List Stmt) : innerBodiesAll body = body.flatMap innerBodies := by
  induction body with
  | nil => rfl
  | cons s rest ih => rw [innerBodiesAll, ih, List.flatMap_cons]

theorem innerBodiesClauses_eq (handlers : List Handler) :
    innerBodiesClauses handlers = handlers.flatMap fun h => innerBodiesAll h.body := by
  induction handlers with
  | nil => rfl
  | cons h rest ih =>
    cases h
    rw [innerBodiesClauses, ih, List.flatMap_cons, Handler.body]

theorem innerBodiesCases_eq (cases : List MatchCase) :
    innerBodiesCases cases = cases.flatMap fun c => innerBodiesAll c.body := by
  induction cases with
  | nil => rfl
  | cons c rest ih =>
    cases c
    rw [innerBodiesCases, ih, List.flatMap_cons, MatchCase.body]

theorem innerBodies_eq (s : Stmt) :
    innerBodies s = (if s.isFunction then s.bodies else []) ++ s.bodies.flatMap innerBodiesAll := by
  cases s <;> simp [innerBodies, Stmt.isFunction, Stmt.bodies, innerBodiesClauses_eq, innerBodiesCases_eq,
    List.flatMap_map]

theorem innerBodiesAll_append (a b : List Stmt) :
    innerBodiesAll (a ++ b) = innerBodiesAll a ++ innerBodiesAll b := by
  simp [innerBodiesAll_eq]

@[simp] theorem innerBodies_assign (loc : Loc) (x : String) (e : Expr) :
    innerBodies (assign loc x e) = [] := rfl

theorem innerBodies_handler (t : JumpTarget) (kind : JumpKind) (body : List Stmt) :
    innerBodiesClauses [handler t kind body] = innerBodiesAll body := by
  cases kind <;> cases hv : t.valueTarget <;>
    simp [handler, hv, innerBodiesClauses, innerBodiesAll]

theorem innerBodies_catchJumps (t : JumpTarget) (body : List Stmt) :
    innerBodiesAll (catchJumps t body) = innerBodiesAll body := by
  have hnone : innerBodiesClauses (loopHandlers t) = [] := by
    rw [loopHandlers, innerBodiesClauses_eq, List.flatMap_append, ← innerBodiesClauses_eq, ← innerBodiesClauses_eq]
    split <;> split <;> simp [innerBodies_handler, innerBodiesClauses, innerBodiesAll, innerBodies]
  unfold catchJumps
  dsimp only
  split
  · rfl
  · simp [innerBodiesAll, innerBodies, hnone]

theorem innerBodies_blockStmts (t : JumpTarget) (body : List Stmt) :
    innerBodiesAll (blockStmts t body) = innerBodiesAll body := by
  rw [blockStmts, innerBodiesAll_append]
  cases t.valueTarget <;> split <;>
    simp [innerBodiesAll, innerBodies, innerBodies_handler]

theorem innerBodies_jump {ts : List JumpTarget} {loc : Loc} {kind : JumpKind} {label : Option String}
    {value : Option Expr} {out : List Stmt} (h : LowersJump ts loc kind label value out) :
    innerBodiesAll out = [] := by
  obtain ⟨i, t, -, -, -, hout⟩ := h
  split at hout
  · rw [hout]
    unfold plainJump
    split <;> cases kind <;> rfl
  · obtain ⟨-, holder, -, rfl⟩ := hout
    rfl

theorem innerBodiesAll_lowered {made : List String} {ts : List JumpTarget} {body out : List Stmt}
    (h : Stmt.LowerAllTo made ts body out) :
    List.Forall₂ (Stmt.LowerAllTo made []) (innerBodiesAll body) (innerBodiesAll out) := by
  have hone (s : Stmt) : innerBodiesAll [s] = innerBodies s := List.append_nil _
  refine h.induction (motive := fun _ body out =>
    List.Forall₂ (Stmt.LowerAllTo made []) (innerBodiesAll body) (innerBodiesAll out)) ?nil ?append ?function
    ?class_ ?for_ ?while_ ?block ?break_ ?continue_ ?kept ?plain
  case nil => exact fun _ => .nil
  case append =>
    intro ts s out body out' hs hrest
    rw [innerBodiesAll_append, innerBodiesAll, ← hone]
    exact List.rel_append hs hrest
  case function => exact fun hb ih => by simpa only [hone, innerBodies] using .cons hb ih
  case class_ => exact fun ih => by simpa only [hone, innerBodies] using ih
  case for_ | while_ =>
    exact fun _ _ hb ho => by
      simpa only [hone, innerBodies, innerBodies_catchJumps] using List.rel_append hb ho
  case block => exact fun _ _ hb => by simpa only [hone, innerBodies, innerBodies_blockStmts] using hb
  case break_ | continue_ =>
    refine fun h => ?_
    rw [innerBodies_jump h]
    exact .nil
  case kept =>
    intro ts s bs hs hbs
    have hinner {s : Stmt} (hs : s.isKept = true) : innerBodies s = s.bodies.flatMap innerBodiesAll := by
      cases s <;> first | exact innerBodies_eq _ | cases hs
    rw [hone, hone, hinner hs, hinner (Stmt.isKept_withBodies.trans hs), Stmt.bodies_withBodies hs hbs]
    exact List.rel_flatMap hbs fun _ _ h => h
  case plain =>
    intro ts s hs
    cases s <;> first | exact .nil | cases hs

theorem every_innerBodiesAll {P : Stmt → Prop} (body : List Stmt) :
    Stmt.EveryAll P body → ∀ b ∈ innerBodiesAll body, Stmt.EveryAll P b := by
  induction body using Stmt.bodies_induction with
  | h body ih =>
    intro h b hb
    rw [innerBodiesAll_eq] at hb
    obtain ⟨s, hs, hb⟩ := List.mem_flatMap.1 hb
    have hsuites := (Stmt.every_iff.1 (everyAll_iff.1 h s hs)).2
    rw [innerBodies_eq] at hb
    rcases List.mem_append.1 hb with hb | hb
    · split at hb
      · exact hsuites b hb
      · cases hb
    · obtain ⟨c, hc, hb⟩ := List.mem_flatMap.1 hb
      exact ih s hs c hc (hsuites c hc) b hb

/-! ### Definitions of holders -/

/-- A statement that only holders need: the import of the support module, or a definition. -/
def Preparation (holders : List Holder) (s : Stmt) : Prop :=
  (∃ loc names, s = .supportImport loc names) ∨ ∃ h ∈ holders, s = h.definition

theorem withHolders_prepared (holders : List Holder) (body : List Stmt) :
    ∃ before old new after, body = before ++ (old ++ after) ∧
      withHolders holders body = before ++ (new ++ after) ∧
      ∀ s ∈ old ++ new, Preparation holders s := by
  rcases eq_or_ne holders [] with rfl | hne
  · exact ⟨[], [], [], body, rfl, rfl, by simp⟩
  · obtain ⟨before, loc, names, after, -, hw, hb⟩ := withHolders_split hne body
    rw [← List.cons_append] at hw
    have hnew : ∀ s ∈ Stmt.supportImport loc names :: holders.map Holder.definition,
        Preparation holders s := by
      rw [List.forall_mem_cons]
      refine ⟨.inl ⟨loc, names, rfl⟩, fun s hs => ?_⟩
      obtain ⟨h, hmem, rfl⟩ := List.mem_map.1 hs
      exact .inr ⟨h, hmem, rfl⟩
    rcases hb with hb | hb
    · refine ⟨before, [.supportImport loc names], _, after, hb, hw, ?_⟩
      rw [List.forall_mem_append]
      exact ⟨fun s hs => hnew s (List.mem_singleton.1 hs ▸ List.mem_cons_self ..), hnew⟩
    · exact ⟨before, [], _, after, hb, hw, hnew⟩

theorem innerBodies_preparation {holders : List Holder} {stmts : List Stmt}
    (h : ∀ s ∈ stmts, Preparation holders s) : innerBodiesAll stmts = [] := by
  induction stmts with
  | nil => rfl
  | cons s rest ih =>
    rw [List.forall_mem_cons] at h
    rw [innerBodiesAll, ih h.2]
    obtain ⟨loc, names, rfl⟩ | ⟨holder, -, rfl⟩ := h.1 <;> rfl

theorem innerBodies_withHolders (holders : List Holder) (body : List Stmt) :
    innerBodiesAll (withHolders holders body) = innerBodiesAll body := by
  obtain ⟨before, old, new, after, hb, hw, hall⟩ := withHolders_prepared holders body
  rw [List.forall_mem_append] at hall
  rw [hw, hb]
  simp only [innerBodiesAll_append, innerBodies_preparation hall.1, innerBodies_preparation hall.2]

section

variable {σ ν ε : Type} {m : Machine σ ν ε}

theorem runAll_preparation {holders : List Holder} (hm : m.holders = holders.map Holder.name)
    (around : Around ν ε) {stmts : List Stmt} (h : ∀ s ∈ stmts, Preparation holders s) :
    m.runAll around stmts = done := by
  induction stmts with
  | nil => rw [Machine.runAll]
  | cons s rest ih =>
    rw [List.forall_mem_cons] at h
    have hs : m.run around s = done := by
      obtain ⟨loc, names, rfl⟩ | ⟨holder, hmem, rfl⟩ := h.1
      · rw [Machine.run]
      · have hname : holder.name ∈ m.holders := hm ▸ List.mem_map_of_mem hmem
        rw [Holder.definition, assign, Machine.run, store]
        exact if_pos hname
    rw [Machine.runAll, hs, ih h.2, done_andThen]

theorem runAll_withHolders {holders : List Holder} (hm : m.holders = holders.map Holder.name)
    (around : Around ν ε) (body : List Stmt) :
    m.runAll around (withHolders holders body) = m.runAll around body := by
  obtain ⟨before, old, new, after, hb, hw, hall⟩ := withHolders_prepared holders body
  rw [List.forall_mem_append] at hall
  rw [hw, hb]
  simp only [Machine.runAll_append, runAll_preparation hm around hall.1,
    runAll_preparation hm around hall.2]

end

/-! ### Modules -/

/-- With every host, the lowered statements do what the statements do.  Jumps to the innermost loop are
then seen by nobody, and no jump gets out; where all clauses in the way of the others are for errors and
no last part looks at them, these pass over clauses. -/
def Crosses (made : List String) (body body' : List Stmt) : Prop :=
  ∀ (σ ν ε : Type) (host : Host σ ν ε) (noValue : ν) (bound : Nat) (s : σ),
    let m : Machine σ ν ε := { host, noValue, bound }
    let lowered : Machine σ ν ε := { m with holders := made }
    lowered.runAll {} body' s = m.runAll {} body s ∧ (m.runAll {} body s).1.Plain ∧
      (UncaughtAll host [] body → lowered.runAll {} body' s = m.passing.runAll {} body s)

theorem crosses_of_lowered {made : List String} (hmade : ∀ x ∈ made, IsHolderName x)
    {body body' : List Stmt} (hb : Stmt.EveryAll (Stmt.Spares IsHolderName) body)
    (h : Stmt.LowerAllTo made [] body body') : Crosses made body body' := by
  intro σ ν ε host noValue bound s m lowered
  have hm : Machine.Pairs made m lowered := ⟨rfl, rfl, rfl, rfl, rfl, ⟨rfl, rfl⟩, rfl, hmade⟩
  have hsame : lowered.runAll {} body' s = m.runAll {} body s ∧ (m.runAll {} body s).1.Plain := by
    have hs := Machine.runAll_simulates h hb m lowered {} {} hm .empty s
    generalize m.runAll {} body s = r at hs ⊢
    generalize lowered.runAll {} body' s = r' at hs ⊢
    obtain @⟨x, x', hx, s⟩ := hs
    obtain ⟨rfl, hp⟩ := hx.of_nil
    exact ⟨rfl, hp⟩
  refine ⟨hsame.1, hsame.2, fun hu => hsame.1.trans ?_⟩
  rw [Machine.runAll_passing rfl rfl body settled_empty hu]

theorem crosses_withHolders {holders : List Holder} {body body' : List Stmt}
    (h : Crosses (holders.map Holder.name) body body') :
    Crosses (holders.map Holder.name) body (withHolders holders body') := by
  intro σ ν ε host noValue bound s m lowered
  rw [runAll_withHolders (m := lowered) rfl]
  exact h σ ν ε host noValue bound s

/-- A parsed module whose labels resolve is expanded and lowered to statements that all have a plain
reading, and in the module itself as in each of its functions, far jumps become exceptions. -/
theorem lowered_crossings {strict : Bool} {source : Source} {module : Module} {d : Display}
    {log : WarningLog} {resolved : List Stmt} (hp : parseSource strict source = .ok module)
    (hr : (source.resolve d log module.body).2 = .ok resolved)
    (hs : ∀ s ∈ Stmt.walk module.body, s.Summed)
    (hfree : ∀ k, ¬ Stmt.Mention module.body (holderName k)) (debug : Bool) :
    ∃ draft summaries out made,
      Draft.expand source debug { body := resolved } = .ok (draft, summaries) ∧
      draft.lower source = .ok out ∧ Stmt.ClosedAll false (fun _ _ => False) out.body ∧
      (∀ x ∈ made, IsHolderName x) ∧
      List.Forall₂ (Crosses made) (draft.body :: innerBodiesAll draft.body)
        (out.body :: innerBodiesAll out.body) := by
  obtain ⟨draft, summaries, code, holders, nextId, he, hl, hspare, hto, -, hnames⟩ :=
    stages_run hp hr hs hfree debug
  have hmade : ∀ x ∈ holders.map Holder.name, IsHolderName x := by
    rintro x hx
    obtain ⟨h, hh, rfl⟩ := List.mem_map.1 hx
    exact hnames h hh
  have hclosed : Stmt.ClosedAll false (fun _ _ => False) code := lowerAll_closed hspare hto .none
  refine ⟨draft, summaries, _, holders.map Holder.name, he, hl, withHolders_closed hclosed, hmade,
    .cons ?_ ?_⟩
  · exact crosses_withHolders (crosses_of_lowered hmade hspare hto)
  · rw [innerBodies_withHolders]
    have hinner := (List.forall₂_and_left _ _).2
      ⟨every_innerBodiesAll _ hspare, innerBodiesAll_lowered hto⟩
    exact hinner.imp fun body body' h => crosses_of_lowered hmade h.1 h.2

def crossedLoop : Source where
  text := "a: for x in b:\n for y in b:\n  try:\n   with c:\n    break a\n  except E:\n   x = 1\n"

theorem lowered_crossings_crossedLoop : ∃ module resolved,
    parseSource false crossedLoop = .ok module ∧
    (crossedLoop.resolve {} {} module.body).2 = .ok resolved ∧
    (∀ s ∈ Stmt.walk module.body, s.Summed) ∧
    (∀ k, ¬ Stmt.Mention module.body (holderName k)) ∧
    ∃ draft summaries out made,
      Draft.expand crossedLoop false { body := resolved } = .ok (draft, summaries) ∧
      draft.lower crossedLoop = .ok out ∧ Stmt.ClosedAll false (fun _ _ => False) out.body ∧
      (∀ x ∈ made, IsHolderName x) ∧
      List.Forall₂ (Crosses made) (draft.body :: innerBodiesAll draft.body)
        (out.body :: innerBodiesAll out.body) := by
  have htest : crossedLoop.generates (fun body _ _ _ _ => summedPlain body) = true := by
    decide +kernel
  obtain ⟨module, resolved, _, _, _, hp, hr, -, -, hplain⟩ := stages_of_generates (by simp [crossedLoop]) htest
  obtain ⟨hs, hfree⟩ := of_summedPlain hplain
  exact ⟨module, resolved, hp, hr, hs, hfree, lowered_crossings hp hr hs hfree false⟩

/-! ### Jumps that are seen -/

def plainAnswer : (q : Request Unit Unit) → q.Answer
  | .perform _ | .assign .. | .receive .. | .bind .. | .unbind _ | .openClass _ | .closeClass _ => ()
  | .evaluate _ | .open_ .. | .enter .. => ()
  | .test _ | .fits .. | .leave .. | .accepts .. => false
  | .next .. => none
  | .split .. => (none, none)
  | .regroup .. => ()

def counted : Request Unit Unit → Nat × Nat → Nat × Nat
  | .assign .., (assigned, told) => (assigned + 1, told)
  | .leave _ _ (some _), (assigned, told) => (assigned, told + 1)
  | _, counts => counts

def counting : Host (Nat × Nat) Unit Unit := fun _ q counts => (counted q counts, .ok (plainAnswer q))

def crossedBlocks : Source where
  text := "a: block:\n try:\n  break a\n except:\n  x = 1\nb: block:\n with c:\n  break b\n"

/-- The clause runs because of the jump, and the `with` is told of one. -/
theorem crossings_seen : ∃ module resolved draft summaries out,
    parseSource false crossedBlocks = .ok module ∧
    (crossedBlocks.resolve {} {} module.body).2 = .ok resolved ∧
    Draft.expand crossedBlocks false { body := resolved } = .ok (draft, summaries) ∧
    draft.lower crossedBlocks = .ok out ∧
    let m : Machine (Nat × Nat) Unit Unit := { host := counting, noValue := (), bound := 0 }
    (m.passing.runAll {} draft.body (0, 0)).2.1 = 0 ∧
      (({ m with holders := [holderName 1, holderName 2] } : Machine _ _ _).runAll {} out.body
        (0, 0)).2 = (1, 1) := by
  have htest : crossedBlocks.generates (fun _ _ draft _ out =>
      let m : Machine (Nat × Nat) Unit Unit := { host := counting, noValue := (), bound := 0 }
      (m.passing.runAll {} draft.body (0, 0)).2.1 == 0 &&
        (({ m with holders := [holderName 1, holderName 2] } : Machine _ _ _).runAll {} out.body
          (0, 0)).2 == (1, 1)) = true := by
    decide +kernel
  obtain ⟨module, resolved, draft, summaries, out, hp, hr, he, hl, hout⟩ :=
    stages_of_generates (by simp [crossedBlocks]) htest
  rw [Bool.and_eq_true, beq_iff_eq, beq_iff_eq] at hout
  exact ⟨module, resolved, draft, summaries, out, hp, hr, he, hl, hout⟩

end LoopEscape.Crossing

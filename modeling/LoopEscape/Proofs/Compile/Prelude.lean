import LoopEscape.Proofs.Compile.Closed
import LoopEscape.Proofs.Expand.Direct
import LoopEscape.Proofs.Expand.Imports
import LoopEscape.Proofs.Lower.Every
import LoopEscape.Proofs.Lower.Holders

/-!
# The start of a generated module

A module may start with a documenting text and imports of future features, which have to stay in front.
Generated code imports the support module directly behind them, once, if it needs it, and everything else
that is generated comes later (`prelude_kept`).  This fails where a callback loop declares names and there
are imports of future features: the declaration is put between the text and the imports
(`declared_before_future`).
-/

namespace LoopEscape

open Generate Lower

variable {code : List Stmt} {s : Stmt} {p : ExpandPlace} {scope : LabelScope} {made : List String}

/-! ### Preludes -/

def Stmt.front (s : Stmt) : Bool × Bool := (s.isText, isFutureImport s)

def EndsPrelude (doc imports : List Stmt) (s : Stmt) : Prop :=
  s.front.2 = false ∧ (doc = [] → imports = [] → s.front.1 = false)

/-- A module starts with these: a documenting text if it has one, and all imports of future features that
follow it. -/
structure Prelude (doc imports rest : List Stmt) : Prop where
  isDoc : doc = [] ∨ ∃ s, doc = [s] ∧ s.isText = true
  future : ∀ s ∈ imports, isFutureImport s = true
  ends : ∀ s ∈ rest.head?, EndsPrelude doc imports s

theorem EndsPrelude.other {doc imports : List Stmt} (h : s.front = (false, false)) :
    EndsPrelude doc imports s := by
  rw [EndsPrelude, h]
  exact ⟨rfl, fun _ _ => rfl⟩

theorem EndsPrelude.congr {doc imports : List Stmt} {s' : Stmt} (h : EndsPrelude doc imports s)
    (hs : s'.front = s.front) : EndsPrelude doc imports s' := by
  rwa [EndsPrelude, hs]

namespace Prelude

variable {doc imports rest : List Stmt}

theorem isText_of_future (h : isFutureImport s = true) : s.isText = false := by
  cases s with
  | importFrom => rfl
  | _ => cases h

theorem length (h : Prelude doc imports rest) :
    preludeLength (doc ++ (imports ++ rest)) = doc.length + imports.length := by
  have hfuture : ((imports ++ rest).takeWhile isFutureImport).length = imports.length := by
    rw [List.takeWhile_append_of_pos h.future, List.length_append]
    cases hrest : rest with
    | nil => rfl
    | cons s more =>
      have hs : isFutureImport s = false := (h.ends s (by simp [hrest])).1
      rw [List.takeWhile_cons_of_neg (by simp [hs])]
      rfl
  rcases h.isDoc with rfl | ⟨s, rfl, hs⟩
  · have hfirst : ((imports ++ rest).take 1).countP Stmt.isText = 0 := by
      cases himports : imports with
      | cons s more => simp [isText_of_future (h.future s (by simp [himports]))]
      | nil =>
        cases hrest : rest with
        | nil => rfl
        | cons s more =>
          have hs : s.isText = false := (h.ends s (by simp [hrest])).2 rfl himports
          simp [hs]
    simp only [preludeLength, List.nil_append, hfirst, List.drop_zero, List.length_nil, hfuture]
  · simp only [preludeLength, List.singleton_append, List.take_succ_cons, List.take_zero, List.drop_succ_cons,
      List.countP_cons_of_pos hs, List.countP_nil, List.drop_zero, List.length_singleton, Nat.zero_add, hfuture]

theorem drop_prelude (h : Prelude doc imports rest) :
    (doc ++ (imports ++ rest)).drop (preludeLength (doc ++ (imports ++ rest))) = rest := by
  rw [h.length, ← List.append_assoc, ← List.length_append, List.drop_left]

theorem ensureImport_new (h : Prelude doc imports rest)
    (hnew : ∀ s ∈ rest.head?, s.isSupportImport = false) :
    ∃ span, ensureImport (doc ++ (imports ++ rest)) =
      (doc ++ (imports ++ supportImport span :: rest), doc.length + imports.length + 1) := by
  unfold ensureImport
  simp only [h.drop_prelude]
  split
  · exact absurd (hnew _ rfl) (by simp [Stmt.isSupportImport])
  · rename_i s more _
    refine ⟨{ s.loc.span with endLine := s.loc.span.line, endCol := s.loc.span.col }, ?_⟩
    rw [h.length, ← List.append_assoc, ← List.length_append, List.take_left, List.append_assoc]
  · refine ⟨⟨1, 0, 1, 0⟩, ?_⟩
    rw [h.length, List.append_nil, List.append_assoc]

theorem ensureImport_kept {loc : Loc} {names : List Alias} {rest : List Stmt}
    (h : Prelude doc imports (.supportImport loc names :: rest)) :
    ensureImport (doc ++ (imports ++ .supportImport loc names :: rest)) =
      (doc ++ (imports ++ .supportImport loc names :: rest), doc.length + imports.length + 1) := by
  unfold ensureImport
  simp only [h.drop_prelude]
  rw [h.length]

theorem insertAfterDoc_eq (h : Prelude doc imports rest) {decls : List Stmt} (hd : decls = [] ∨ imports = []) :
    insertAfterDoc decls (doc ++ (imports ++ rest)) = doc ++ (imports ++ (decls ++ rest)) := by
  rcases hd with rfl | rfl
  · show insertAfterDoc [] (doc ++ (imports ++ rest)) = doc ++ (imports ++ rest)
    cases doc ++ (imports ++ rest) with
    | nil => rfl
    | cons s more => exact ite_self (s :: more)
  · rcases h.isDoc with rfl | ⟨s, rfl, hs⟩
    · cases hrest : rest with
      | nil => simp [insertAfterDoc]
      | cons s more =>
        have hs : s.isText = false := (h.ends s (by simp [hrest])).2 rfl rfl
        simp [insertAfterDoc, hs]
    · simp [insertAfterDoc, hs]

end Prelude

/-! ### What stages leave in front -/

theorem expand_front (s : Stmt) (hp : p.dropping = false) (hto : s.ExpandsTo p scope code) :
    ∃ s' more, code = s' :: more ∧ s'.front = s.front := by
  cases s with
  | callbackLoop =>
    obtain ⟨-, id, decls, hoisted, wanted, body', -, rfl⟩ := hto
    exact ⟨_, _, rfl, rfl⟩
  | function =>
    obtain ⟨hoisted, wanted, body', -, rfl⟩ := hto
    exact ⟨_, _, rfl, rfl⟩
  | class_ | with_ | match_ | block =>
    obtain ⟨body', -, rfl⟩ := hto
    exact ⟨_, _, rfl, rfl⟩
  | for_ | while_ | if_ =>
    obtain ⟨body', orElse', -, -, rfl⟩ := hto
    exact ⟨_, _, rfl, rfl⟩
  | try_ =>
    obtain ⟨body', handlers', orElse', final', -, -, -, -, rfl⟩ := hto
    exact ⟨_, _, rfl, rfl⟩
  | global | nonlocal =>
    rw [Stmt.ExpandsTo, hp] at hto
    exact ⟨_, _, hto, rfl⟩
  | _ =>
    exact ⟨_, _, hto, rfl⟩

def Stmt.opening : Stmt → Stmt
  | .block _ _ none (s :: _) => s.opening
  | s => s

theorem lower_front {targets : List JumpTarget} {out : List Stmt} (htargets : ∀ t ∈ targets, t.isLoop = false)
    (hfilled : s.Every Stmt.Filled) (hto : s.LowersTo made targets out) :
    ∃ s' more, out = s' :: more ∧ (s'.front = s.opening.front ∨ s'.front = (false, false)) := by
  induction s using Stmt.opening.induct generalizing targets out with
  | case1 loc label s rest ih =>
    obtain ⟨t, body', ht, -, hb, rfl⟩ := hto
    obtain ⟨code, rest', hs, -, rfl⟩ := hb
    obtain ⟨s', more, rfl, hfront⟩ := ih (List.forall_mem_cons.2 ⟨ht.isLoop, htargets⟩) hfilled.2.1 hs
    rw [blockStmts, ht.valueTarget]
    split
    · exact ⟨_, _, rfl, .inr rfl⟩
    · exact ⟨s', _, rfl, hfront⟩
  | case2 s hother =>
    cases s with
    | block loc label target body =>
      obtain ⟨t, body', ht, -, -, rfl⟩ := hto
      rw [blockStmts, ht.valueTarget]
      cases target with
      | some target => exact ⟨_, _, rfl, .inr rfl⟩
      | none =>
        cases body with
        | nil => exact absurd rfl hfilled.1
        | cons s rest => exact (hother _ _ _ _ rfl).elim
    | break_ | continue_ =>
      obtain ⟨i, t, -, -, -, hjump⟩ := hto
      have hout : isInnermost targets i = false := by
        rw [isInnermost, List.findIdx?_eq_none_iff.2 fun t ht => htargets t ht]
        rfl
      rw [hout, if_neg (by simp)] at hjump
      obtain ⟨-, h, -, rfl⟩ := hjump
      exact ⟨_, _, rfl, .inr rfl⟩
    | function | class_ | with_ | match_ =>
      obtain ⟨body', -, rfl⟩ := hto
      exact ⟨_, _, rfl, .inr rfl⟩
    | if_ =>
      obtain ⟨body', orElse', -, -, rfl⟩ := hto
      exact ⟨_, _, rfl, .inr rfl⟩
    | for_ | while_ =>
      obtain ⟨t, body', orElse', -, -, -, -, rfl⟩ := hto
      exact ⟨_, _, rfl, .inr rfl⟩
    | try_ =>
      obtain ⟨body', handlers', orElse', final', -, -, -, -, rfl⟩ := hto
      exact ⟨_, _, rfl, .inr rfl⟩
    | callbackLoop => exact hto.elim
    | _ => exact ⟨_, _, hto, .inl rfl⟩

theorem expand_fixed (h : s.front ≠ (false, false)) (hto : s.ExpandsTo p scope code) : code = [s] := by
  cases s with
  | expr | importFrom => exact hto
  | _ => exact absurd rfl h

theorem lower_fixed {targets : List JumpTarget} {out : List Stmt} (h : s.front ≠ (false, false))
    (hto : s.LowersTo made targets out) : out = [s] := by
  cases s with
  | expr | importFrom => exact hto
  | _ => exact absurd rfl h

/-- A stage that works from statement to statement and keeps what a prelude is made of. -/
structure KeepsPrelude (one : Stmt → List Stmt → Prop) (all : List Stmt → List Stmt → Prop) : Prop where
  cons : ∀ {s rest out}, all (s :: rest) out → ∃ s' rest', one s s' ∧ all rest rest' ∧ out = s' ++ rest'
  fixed : ∀ {s out}, s.front ≠ (false, false) → one s out → out = [s]

theorem KeepsPrelude.start {one : Stmt → List Stmt → Prop} {all : List Stmt → List Stmt → Prop}
    (h : KeepsPrelude one all) {start rest out : List Stmt} (hstart : ∀ s ∈ start, s.front ≠ (false, false))
    (hto : all (start ++ rest) out) : ∃ rest', out = start ++ rest' ∧ all rest rest' := by
  induction start generalizing out with
  | nil => exact ⟨out, rfl, hto⟩
  | cons s start ih =>
    obtain ⟨hs, hstart⟩ := List.forall_mem_cons.1 hstart
    obtain ⟨_, _, hone, hmore, rfl⟩ := h.cons hto
    obtain ⟨rest', rfl, hrest⟩ := ih hstart hmore
    exact ⟨rest', by rw [h.fixed hs hone]; rfl, hrest⟩

theorem Prelude.fixed {doc imports rest : List Stmt} (h : Prelude doc imports rest) :
    ∀ s ∈ doc ++ imports, s.front ≠ (false, false) := by
  refine List.forall_mem_append.2 ⟨fun s hs => ?_, fun s hs => ?_⟩
  · rcases h.isDoc with rfl | ⟨t, rfl, ht⟩
    · cases hs
    · simp [Stmt.front, List.mem_singleton.1 hs, ht]
  · simp [Stmt.front, h.future s hs]

/-! ### Whole modules -/

theorem lowerAll_unaided {targets : List JumpTarget} {body out : List Stmt}
    (hto : Stmt.LowerAllTo made targets body out) (h : Stmt.EveryAll Stmt.Unaided body) :
    Stmt.EveryAll Stmt.Unaided out := by
  refine lowerAll_every ⟨fun _ _ => rfl, fun _ _ hs => hs, fun s _ hs => ?_⟩ hto h
  cases s with
  | import_ | supportImport => cases hs
  | _ => rfl

theorem isSupportImport_of_unaided (h : s.Every Stmt.Unaided) : s.isSupportImport = false := by
  cases s with
  | supportImport => cases h
  | _ => rfl

namespace Prelude

variable {doc imports rest : List Stmt}

theorem expanded (h : Prelude doc imports rest) (hp : p.dropping = false)
    (hto : Stmt.ExpandAllTo p scope (doc ++ (imports ++ rest)) code) :
    ∃ rest', code = doc ++ (imports ++ rest') ∧ Prelude doc imports rest' ∧ Stmt.ExpandAllTo p scope rest rest' := by
  rw [← List.append_assoc] at hto
  obtain ⟨rest', rfl, hrest⟩ := KeepsPrelude.start ⟨id, expand_fixed⟩ h.fixed hto
  refine ⟨rest', List.append_assoc .., ⟨h.isDoc, h.future, fun s' hs' => ?_⟩, hrest⟩
  cases rest with
  | nil =>
    rw [Stmt.ExpandAllTo] at hrest
    rw [hrest] at hs'
    cases hs'
  | cons s rest =>
    obtain ⟨code, _, hs, -, rfl⟩ := hrest
    obtain ⟨first, more, rfl, hfront⟩ := expand_front s hp hs
    cases hs'
    exact (h.ends s rfl).congr hfront

theorem lowered_fixed (h : Prelude doc imports rest) {out : List Stmt}
    (hto : Stmt.LowerAllTo made [] (doc ++ (imports ++ rest)) out) :
    ∃ rest', out = doc ++ (imports ++ rest') ∧ Stmt.LowerAllTo made [] rest rest' := by
  rw [← List.append_assoc] at hto
  obtain ⟨rest', rfl, hrest⟩ := KeepsPrelude.start ⟨id, lower_fixed⟩ h.fixed hto
  exact ⟨rest', List.append_assoc .., hrest⟩

theorem lowered (h : Prelude doc imports rest) {rest' : List Stmt} (hfilled : Stmt.EveryAll Stmt.Filled rest)
    (hopening : ∀ s ∈ rest.head?, EndsPrelude doc imports s.opening)
    (hto : Stmt.LowerAllTo made [] rest rest') : Prelude doc imports rest' := by
  refine ⟨h.isDoc, h.future, fun s' hs' => ?_⟩
  cases rest with
  | nil =>
    rw [Stmt.LowerAllTo] at hto
    rw [hto] at hs'
    cases hs'
  | cons s rest =>
    obtain ⟨out, _, hs, -, rfl⟩ := hto
    obtain ⟨first, more, rfl, hfront⟩ := lower_front (by simp) hfilled.1 hs
    cases hs'
    rcases hfront with hfront | hfront
    · exact (hopening s rfl).congr hfront
    · exact .other hfront

theorem imported (h : Prelude doc imports rest) {decls : List Stmt} (hp : p.dropping = false)
    (hto : Stmt.ExpandAllTo p scope (doc ++ (imports ++ rest)) code)
    (hunaided : Stmt.EveryAll Stmt.Unaided rest) (hdecls : decls = [] ∨ imports = [])
    (hdeclared : ∀ s ∈ decls, s.front = (false, false) ∧ s.Every Stmt.Unaided) :
    ∃ span rest', (ensureImport (insertAfterDoc decls code)).1 = doc ++ (imports ++ supportImport span :: rest') ∧
      Stmt.EveryAll Stmt.Unaided rest' := by
  obtain ⟨rest', rfl, h', hrest⟩ := h.expanded hp hto
  have hprelude : Prelude doc imports (decls ++ rest') := by
    refine ⟨h.isDoc, h.future, fun s hs => ?_⟩
    cases decls with
    | nil => exact h'.ends s hs
    | cons s' more =>
      cases hs
      exact .other (hdeclared s (List.mem_cons_self ..)).1
  have hall : Stmt.EveryAll Stmt.Unaided (decls ++ rest') :=
    everyAll_append.2 ⟨everyAll_iff.2 fun s hs => (hdeclared s hs).2, expand_unaided hrest hunaided⟩
  obtain ⟨span, hensure⟩ := hprelude.ensureImport_new fun s hs =>
    isSupportImport_of_unaided (everyAll_iff.1 hall s (List.mem_of_mem_head? hs))
  exact ⟨span, decls ++ rest', by rw [h'.insertAfterDoc_eq hdecls, hensure], hall⟩

theorem withHolders_behind {body : List Stmt} {span : Span} {holders : List Holder} (hh : holders ≠ [])
    (hensure : ensureImport body =
      (doc ++ (imports ++ supportImport span :: rest), doc.length + imports.length + 1)) :
    withHolders holders body =
      doc ++ (imports ++ supportImport span :: (holders.map Holder.definition ++ rest)) := by
  have hlength : doc.length + imports.length + 1 = (doc ++ (imports ++ [supportImport span])).length := by
    simp [Nat.add_assoc]
  have hsplit : doc ++ (imports ++ supportImport span :: rest) = (doc ++ (imports ++ [supportImport span])) ++ rest := by
    simp
  rw [withHolders, if_neg (by simpa using hh)]
  unfold insertAfterImport
  rw [hensure]
  dsimp only
  rw [hlength, hsplit, List.take_left, List.drop_left]
  simp

theorem withHolders_kept {span : Span} (h : Prelude doc imports (supportImport span :: rest)) (holders : List Holder) :
    withHolders holders (doc ++ (imports ++ supportImport span :: rest)) =
      doc ++ (imports ++ supportImport span :: (holders.map Holder.definition ++ rest)) := by
  by_cases hh : holders = []
  · rw [hh]
    rfl
  · exact withHolders_behind hh h.ensureImport_kept

theorem lowered_imported {span : Span} (h : Prelude doc imports rest) {rest' out : List Stmt}
    {holders : List Holder} (hunaided : Stmt.EveryAll Stmt.Unaided rest')
    (hto : Stmt.LowerAllTo (holders.map Holder.name) [] (doc ++ (imports ++ supportImport span :: rest')) out) :
    ∃ rest'', withHolders holders out = doc ++ (imports ++ supportImport span :: rest'') ∧
      Stmt.EveryAll Stmt.Unaided rest'' := by
  have hprelude (rest : List Stmt) : Prelude doc imports (supportImport span :: rest) :=
    ⟨h.isDoc, h.future, by rintro _ ⟨⟩; exact .other rfl⟩
  obtain ⟨_, rfl, htail⟩ := (hprelude rest').lowered_fixed hto
  obtain ⟨_, lowered, himport, hrest, rfl⟩ := htail
  simp only [supportImport, Stmt.LowersTo] at himport
  subst himport
  exact ⟨_, (hprelude lowered).withHolders_kept holders, everyAll_append.2
    ⟨everyAll_iff.2 (List.forall_mem_map.2 fun _ _ => rfl), lowerAll_unaided hrest hunaided⟩⟩

theorem withHolders_new (h : Prelude doc imports rest) (hrest : Stmt.EveryAll Stmt.Unaided rest)
    {holders : List Holder} (hh : holders ≠ []) : ∃ span, withHolders holders (doc ++ (imports ++ rest)) =
      doc ++ (imports ++ supportImport span :: (holders.map Holder.definition ++ rest)) := by
  have hnew : ∀ s ∈ rest.head?, s.isSupportImport = false := fun s hs =>
    isSupportImport_of_unaided (everyAll_iff.1 hrest s (List.mem_of_mem_head? hs))
  obtain ⟨span, hensure⟩ := h.ensureImport_new hnew
  exact ⟨span, withHolders_behind hh hensure⟩

end Prelude

section

variable {strict debug : Bool} {source : Source} {module : Module} {d : Display} {log : WarningLog}
  {resolved doc imports rest : List Stmt} {draft out : Draft} {summaries : List LoopSummary}

theorem lower_expand_body (he : Draft.expand source debug { body := resolved } = .ok (draft, summaries))
    (hl : draft.lower source = .ok out) :
    lowerLabels (expandLoops debug 1 resolved).nextId (expandLoops debug 1 resolved).body =
      .ok (out.body, out.nextId) := by
  unfold Draft.expand at he
  dsimp only at he
  split at he
  · cases he
  · cases he
    unfold Draft.lower at hl
    split at hl
    · cases hl
    · next hlower =>
      cases hl
      exact hlower

/-- What is generated for a module keeps its prelude.  Directly behind it the support module is imported,
if there is a callback loop or a jump that needs a holder, and nowhere else. -/
theorem prelude_kept (hp : parseSource strict source = .ok module)
    (hr : (source.resolve d log module.body).2 = .ok resolved)
    (he : Draft.expand source debug { body := resolved } = .ok (draft, summaries))
    (hl : draft.lower source = .ok out)
    (hbody : module.body = doc ++ (imports ++ rest)) (hprelude : Prelude doc imports rest)
    (hsource : ∀ s ∈ Stmt.walk module.body, s.importsSupport = false)
    (hdeclared : hoistedDeclarations {} resolved = {} ∨ imports = [])
    (hopening : ¬ Stmt.EveryAll Stmt.Direct module.body ∨ ∀ s ∈ rest.head?, EndsPrelude doc imports s.opening) :
    ∃ start rest', out.body = doc ++ (imports ++ (start ++ rest')) ∧ Stmt.EveryAll Stmt.Unaided rest' ∧
      ((Stmt.EveryAll Stmt.Direct module.body ∧ ¬ Stmt.JumpFarAll [] module.body ∧ start = []) ∨
        ((¬ Stmt.EveryAll Stmt.Direct module.body ∨ Stmt.JumpFarAll [] module.body) ∧
          ∃ span, start = [supportImport span])) := by
  have hfilled := parseSource_filled hp
  obtain ⟨hfit, rfl⟩ := fitAll_of_resolve hr
  have hresolve := expandLoops_resolves debug 1 (distinctLabels_of_parsed (parseSource_parsed hp)) hfit
  obtain ⟨lowered, holders, nextId, hlower, hto, hfar⟩ :=
    lowerLabels_holders (expandLoops debug 1 (resolveLabels module.body)).nextId hresolve
  obtain ⟨hout, -⟩ := Prod.ext_iff.1 (Except.ok.inj ((lower_expand_body he hl).symm.trans hlower))
  have hunaided : Stmt.EveryAll Stmt.Unaided module.body := forall_walk.1 hsource
  rw [hbody] at hunaided
  have hunaided := (everyAll_append.1 (everyAll_append.1 hunaided).2).2
  rcases expandLoops_imports debug 1 hfilled with ⟨hdirect, hself⟩ | ⟨hloop, loc, code, hcode, hself⟩
  · rw [hself] at hto hfar
    rw [hbody] at hto hfilled
    obtain ⟨rest', rfl, hrest⟩ := hprelude.lowered_fixed hto
    have hunaided' := lowerAll_unaided hrest hunaided
    by_cases hjump : Stmt.JumpFarAll [] module.body
    · have hlowered := hprelude.lowered (everyAll_append.1 (everyAll_append.1 hfilled).2).2
        (hopening.resolve_left (not_not.2 hdirect)) hrest
      obtain ⟨span, hnew⟩ := hlowered.withHolders_new hunaided' (hfar.2 hjump)
      exact ⟨[supportImport span], _, hout.trans hnew, everyAll_append.2
        ⟨everyAll_iff.2 (List.forall_mem_map.2 fun _ _ => rfl), hunaided'⟩, .inr ⟨.inr hjump, span, rfl⟩⟩
    · rw [not_not.1 (mt hfar.1 hjump)] at hout
      exact ⟨[], rest', hout, hunaided', .inl ⟨hdirect, hjump, rfl⟩⟩
  · rw [hbody] at hcode
    have hdecls : scopeStart loc (hoistedDeclarations {} (resolveLabels module.body)) [] = [] ∨ imports = [] :=
      hdeclared.imp_left fun hnone => by rw [hnone]; rfl
    obtain ⟨span, rest', himported, hunaided'⟩ := hprelude.imported rfl hcode hunaided hdecls fun s hs => by
      rcases mem_scopeStart hs with rfl | rfl | ⟨x, -, rfl⟩ <;> exact ⟨rfl, rfl⟩
    rw [hself, himported] at hto
    obtain ⟨rest'', hkept, hunaided''⟩ := hprelude.lowered_imported hunaided' hto
    exact ⟨[supportImport span], rest'', hout.trans hkept, hunaided'', .inr ⟨.inl hloop, span, rfl⟩⟩

end

/-! ### Two modules -/

/-- A text, an import of a future feature, and a callback loop that leaves the loop around it. -/
def documentedRows : Source where
  text := "'d'\nfrom __future__ import a\nL: for x in y:\n cbit for z in f() break L:\n  break L\n"

def startsDocumented : List Stmt → Bool
  | doc :: future :: rest => doc.isText && isFutureImport future && !(rest.any isFutureImport)
  | _ => false

theorem prelude_kept_documentedRows : ∃ module resolved draft summaries out doc imports rest,
    parseSource false documentedRows = .ok module ∧
    (documentedRows.resolve {} {} module.body).2 = .ok resolved ∧
    Draft.expand documentedRows false { body := resolved } = .ok (draft, summaries) ∧
    draft.lower documentedRows = .ok out ∧
    (module.body = doc ++ (imports ++ rest) ∧ Prelude doc imports rest ∧ doc ≠ [] ∧ imports ≠ []) ∧
    (∀ s ∈ Stmt.walk module.body, s.importsSupport = false) ∧ hoistedDeclarations {} resolved = {} ∧
    ¬ Stmt.EveryAll Stmt.Direct module.body ∧
    ∃ start rest', out.body = doc ++ (imports ++ (start ++ rest')) ∧ Stmt.EveryAll Stmt.Unaided rest' ∧
      ((Stmt.EveryAll Stmt.Direct module.body ∧ ¬ Stmt.JumpFarAll [] module.body ∧ start = []) ∨
        ((¬ Stmt.EveryAll Stmt.Direct module.body ∨ Stmt.JumpFarAll [] module.body) ∧
          ∃ span, start = [supportImport span])) := by
  have htest : documentedRows.generates (fun body resolved _ _ _ => startsDocumented body &&
      (Stmt.walk body).all (!·.importsSupport) && decide (hoistedDeclarations {} resolved = {}) &&
      (Stmt.walk body).any (·.isCallbackLoop)) = true := by
    decide +kernel
  obtain ⟨⟨body, settings⟩, resolved, draft, summaries, out, hp, hr, he, hl, htest⟩ :=
    stages_of_generates (by simp [documentedRows]) htest
  simp only [Bool.and_eq_true, decide_eq_true_eq, List.all_eq_true, List.any_eq_true, Bool.not_eq_true'] at htest
  obtain ⟨⟨⟨hstart, hsource⟩, hnone⟩, s, hs, hloop⟩ := htest
  unfold startsDocumented at hstart
  split at hstart
  · next doc future rest =>
    simp only [Bool.and_eq_true, Bool.not_eq_true', List.any_eq_false] at hstart
    obtain ⟨⟨hdoc, hfuture⟩, hrest⟩ := hstart
    have hprelude : Prelude [doc] [future] rest :=
      ⟨.inr ⟨doc, rfl, hdoc⟩, by simpa using hfuture, fun s hs =>
        ⟨Bool.eq_false_iff.2 (hrest s (List.mem_of_mem_head? hs)), by simp⟩⟩
    have hloops : ¬ Stmt.EveryAll Stmt.Direct (doc :: future :: rest) := fun hdirect => by
      have := forall_walk.2 hdirect s hs
      rw [Stmt.Direct, hloop] at this
      cases this
    exact ⟨⟨_, settings⟩, resolved, draft, summaries, out, [doc], [future], rest, hp, hr, he, hl,
      ⟨rfl, hprelude, by simp, by simp⟩, hsource, hnone, hloops,
      prelude_kept hp hr he hl rfl hprelude hsource (.inl hnone) (.inl hloops)⟩
  · cases hstart

def declaringLoop : Source where
  text := "from __future__ import a\ncbit for x in g():\n global y\n y = x\n"

/-- What the loop declares comes before the import of the future feature. -/
theorem declared_before_future : ∃ module resolved draft summaries out,
    parseSource false declaringLoop = .ok module ∧
    (declaringLoop.resolve {} {} module.body).2 = .ok resolved ∧
    Draft.expand declaringLoop false { body := resolved } = .ok (draft, summaries) ∧
    draft.lower declaringLoop = .ok out ∧
    ∃ future rest, module.body = [future] ++ rest ∧ Prelude [] [future] rest ∧
      ¬ ∃ rest', out.body = [future] ++ rest' := by
  have htest : declaringLoop.generates (fun body _ _ _ out => body.head?.any isFutureImport &&
      !(body.tail.any isFutureImport) && !(out.body.head?.any isFutureImport)) = true := by
    decide +kernel
  obtain ⟨⟨body, settings⟩, resolved, draft, summaries, out, hp, hr, he, hl, htest⟩ :=
    stages_of_generates (by simp [declaringLoop]) htest
  simp only [Bool.and_eq_true, Bool.not_eq_true', List.any_eq_false] at htest
  obtain ⟨⟨hfuture, hrest⟩, hfirst⟩ := htest
  cases body with
  | nil => cases hfuture
  | cons future rest =>
    rw [List.head?_cons, Option.any_some] at hfuture
    refine ⟨⟨_, settings⟩, resolved, draft, summaries, out, hp, hr, he, hl, future, rest, rfl,
      ⟨.inl rfl, by simpa using hfuture, fun s hs =>
        ⟨Bool.eq_false_iff.2 (hrest s (List.mem_of_mem_head? hs)), by simp⟩⟩, ?_⟩
    rintro ⟨rest', hout⟩
    rw [hout, List.singleton_append, List.head?_cons, Option.any_some, hfuture] at hfirst
    cases hfirst

end LoopEscape

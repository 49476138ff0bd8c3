import LoopEscape.Compile.Stage
import LoopEscape.Proofs.Dialect.Attached
import LoopEscape.Proofs.Expand.Targets
import LoopEscape.Proofs.Lower.Closed
import Mathlib.Data.List.Nodup

/-!
# Generated code is closed

Once labels are resolved, the later stages cannot fail on a parsed module, and the code that they make
is closed (`Stmt.Closed`).  Every holder that it mentions is defined once, behind the import of the
support module.  This rests on the names of holders being left to generated code: a module that uses
such a name itself gets code in which it is not defined (`formatted_holder_undefined`).
-/

namespace LoopEscape

open Generate Lower

variable {made : List String} {body : List Stmt} {holders : List Holder} {held : String → Prop}

/-! ### Definitions of holders -/

/-- A holder is defined once in a module: directly behind the import of the support module, among the
definitions of holders, and bound nowhere else. -/
def DefinedOnce (body : List Stmt) (x : String) : Prop :=
  ∃ (before : List Stmt) (loc : Loc) (names : List Alias) (holders : List Holder) (after : List Stmt),
    body = before ++ .supportImport loc names :: (holders.map Holder.definition ++ after) ∧
    (holders.map Holder.name).count x = 1 ∧
    ¬ Stmt.Bind (before ++ .supportImport loc names :: after) x

theorem not_bind_of_holds (h : Stmt.EveryAll (Stmt.Holds IsHolderName made) body) (k : Nat) :
    ¬ Stmt.Bind body (holderName k) := by
  rintro ⟨s, hs, hx⟩
  exact (forall_walk.2 h s hs).2 _ hx ⟨k, rfl⟩

theorem mem_of_mention {k : Nat}
    (h : Stmt.EveryAll (fun s => ∀ x ∈ s.mentions, IsHolderName x → x ∈ made) body)
    (hm : Stmt.Mention body (holderName k)) : holderName k ∈ made := by
  obtain ⟨s, hs, hx⟩ := hm
  exact forall_walk.2 h s hs _ hx ⟨k, rfl⟩

theorem definition_mentions (hh : Holders held) (h : Holder) {x : String} (hx : x ∈ h.definition.mentions)
    (hheld : held x) : x = h.name := by
  have hmentions : h.definition.mentions = [h.name, supportName] := by
    simp [Holder.definition, assign, Stmt.mentions, Stmt.ownNames, Stmt.trees, Expr.trees, store, call,
      support, attr, load, text, Expr.tree, ExprTree.mentions, ExprTree.nodes, Rose.labels,
      Rose.labelsAll, Keyword.trees, Expr.ownMentions]
  rw [hmentions, List.mem_cons, List.mem_singleton] at hx
  rcases hx with rfl | rfl
  · rfl
  · exact absurd hheld hh.support

theorem holds_ensureImport (hh : Holders held) (h : Stmt.EveryAll (Stmt.Holds held made) body) :
    Stmt.EveryAll (Stmt.Holds held made) (ensureImport body).1 :=
  ensureImport_of everyAll_append (fun _ _ hn => ⟨(spares_supportImport hh hn).holds, trivial⟩) h

theorem withHolders_split (hne : holders ≠ []) (body : List Stmt) :
    ∃ before loc names after, (ensureImport body).1 = before ++ .supportImport loc names :: after ∧
      withHolders holders body =
        before ++ .supportImport loc names :: (holders.map Holder.definition ++ after) ∧
      (body = before ++ .supportImport loc names :: after ∨ body = before ++ after) := by
  obtain ⟨before, loc, names, after, he, hn, hb⟩ := ensureImport_split body
  refine ⟨before, loc, names, after, he, ?_, hb.imp id And.left⟩
  rw [withHolders, if_neg (by simpa using hne)]
  show (ensureImport body).1.take (ensureImport body).2 ++ _ ++
    (ensureImport body).1.drop (ensureImport body).2 = _
  rw [hn, he, List.take_length_add_append, List.drop_length_add_append]
  simp

theorem withHolders_of {P : List Stmt → Prop} (happend : ∀ {a b : List Stmt}, P (a ++ b) ↔ P a ∧ P b)
    (himport : ∀ loc names, P [.supportImport loc names]) (hdefinition : ∀ h : Holder, P [h.definition])
    (h : P body) : P (withHolders holders body) := by
  have hdefinitions : P (holders.map Holder.definition) := by
    induction holders with
    | nil => exact (happend.1 (body.append_nil.symm ▸ h)).2
    | cons h holders ih =>
      rw [List.map_cons, ← List.singleton_append, happend]
      exact ⟨hdefinition h, ih⟩
  rcases eq_or_ne holders [] with rfl | hne
  · exact h
  · obtain ⟨before, loc, names, after, he, hw, -⟩ := withHolders_split hne body
    have hall := ensureImport_of happend (fun loc names _ => himport loc names) h
    rw [he, happend, ← List.singleton_append, happend] at hall
    rw [hw, happend, ← List.singleton_append, happend, happend]
    exact ⟨hall.1, hall.2.1, hdefinitions, hall.2.2⟩

theorem withHolders_mentions (hh : Holders held)
    (hb : Stmt.EveryAll (Stmt.Holds held (holders.map Holder.name)) body) :
    Stmt.EveryAll (fun s => ∀ x ∈ s.mentions, held x → x ∈ holders.map Holder.name)
      (withHolders holders body) := by
  rcases eq_or_ne holders [] with rfl | hne
  · exact everyAll_mono (fun s hs => hs.1) hb
  · obtain ⟨before, loc, names, after, he, hw, -⟩ := withHolders_split hne body
    have hall := everyAll_mono (Q := fun s => ∀ x ∈ s.mentions, held x → x ∈ holders.map Holder.name)
      (fun s hs => hs.1) (holds_ensureImport hh hb)
    rw [he, everyAll_append] at hall
    rw [hw, everyAll_append]
    refine ⟨hall.1, hall.2.1, everyAll_append.2 ⟨everyAll_iff.2 fun s hs => ?_, hall.2.2⟩⟩
    obtain ⟨h, hmem, rfl⟩ := List.mem_map.1 hs
    show ∀ x ∈ h.definition.mentions, _
    intro x hx hheld
    rw [definition_mentions hh h hx hheld]
    exact List.mem_map_of_mem hmem

theorem withHolders_definedOnce {k : Nat} (hd : (holders.map Holder.name).Nodup)
    (hb : Stmt.EveryAll (Stmt.Holds IsHolderName (holders.map Holder.name)) body)
    (hm : Stmt.Mention (withHolders holders body) (holderName k)) :
    DefinedOnce (withHolders holders body) (holderName k) := by
  have hmem := mem_of_mention (withHolders_mentions holders_self hb) hm
  rcases eq_or_ne holders [] with rfl | hne
  · cases hmem
  · obtain ⟨before, loc, names, after, he, hw, -⟩ := withHolders_split hne body
    have hall := holds_ensureImport holders_self hb
    rw [he] at hall
    exact ⟨before, loc, names, holders, after, hw, List.count_eq_one_of_mem hd hmem, not_bind_of_holds hall k⟩

theorem withHolders_closed (h : Stmt.ClosedAll false (fun _ _ => False) body) :
    Stmt.ClosedAll false (fun _ _ => False) (withHolders holders body) :=
  withHolders_of closedAll_append (fun _ _ => ⟨trivial, trivial⟩) (fun _ => ⟨trivial, trivial⟩) h

/-! ### The stages -/

section

variable {strict : Bool} {source : Source} {module : Module} {d : Display} {log : WarningLog}
  {resolved : List Stmt}

theorem distinctLabels_of_parsed (h : Stmt.EveryAll Stmt.Parsed body) :
    Stmt.EveryAll Stmt.DistinctLabels body := by
  refine everyAll_mono (fun s hs => ?_) h
  cases s with
  | callbackLoop => exact hs.1
  | _ => trivial

theorem ready_of_parsed {R : LoopHeader → Expr → Expr → Prop} (h : Stmt.EveryAll Stmt.Parsed body)
    (hR : ∀ s ∈ Stmt.walk body, s.OfLoop R) (hheld : ∀ x, held x → ¬ Stmt.Mention body x) :
    Stmt.EveryAll (Stmt.Ready held R) body := by
  refine forall_walk.1 fun s hmem => ⟨⟨fun x hx hh => hheld x hh ⟨s, hmem, hx⟩, ?_⟩, hR s hmem⟩
  have := forall_walk.2 h s hmem
  cases s with
  | supportImport => exact this.elim
  | _ => rfl

theorem resolveAll_ensureImport (h : Stmt.ResolveAll [] body) :
    Stmt.ResolveAll [] (ensureImport body).1 :=
  ensureImport_of resolveAll_append (fun _ _ _ => ⟨trivial, trivial⟩) h

theorem expandLoops_resolves (debug : Bool) (firstId : Nat) (hd : Stmt.EveryAll Stmt.DistinctLabels body)
    (hf : Stmt.FitAll LabelScope.top body) :
    Stmt.ResolveAll [] (expandLoops debug firstId (resolveLabels body)).body := by
  obtain ⟨imported, loc, body', hbody, he⟩ := expandLoops_spec debug firstId body
  have hstart := resolveAll_insertAfterDoc (resolveAll_scopeStart loc
    (hoistedDeclarations {} (resolveLabels body)) [])
    (expandAll_resolves body (LabelScope.sees_empty .module) hd hf hbody)
  rw [he]
  split
  · exact resolveAll_ensureImport hstart
  · exact hstart

/-- The stages behind the labels, with what is known of the code before it is lowered and behind. -/
theorem stages_run (hp : parseSource strict source = .ok module)
    (hr : (source.resolve d log module.body).2 = .ok resolved)
    (hs : ∀ s ∈ Stmt.walk module.body, s.Summed)
    (hfree : ∀ k, ¬ Stmt.Mention module.body (holderName k)) (debug : Bool) :
    ∃ draft summaries code holders nextId,
      Draft.expand source debug { body := resolved } = .ok (draft, summaries) ∧
      draft.lower source = .ok ⟨withHolders holders code, nextId⟩ ∧
      Stmt.EveryAll (Stmt.Spares IsHolderName) draft.body ∧
      Stmt.LowerAllTo (holders.map Holder.name) [] draft.body code ∧
      (holders.map Holder.name).Nodup ∧ ∀ h ∈ holders, IsHolderName h.name := by
  have hparsed := parseSource_parsed hp
  obtain ⟨hfit, rfl⟩ := fitAll_of_resolve hr
  have hready : Stmt.EveryAll (Stmt.Ready IsHolderName HasTexts) (resolveLabels module.body) :=
    noteAll_ready _ LabelScope.top (ready_of_parsed hparsed (fun s hmem => (hs s hmem).ofLoop)
      (by rintro _ ⟨k, rfl⟩; exact hfree k))
  obtain ⟨summaries, hsum⟩ := expandLoops_summaries debug 1 (everyAll_mono (fun _ h => h.2) hready)
  have hresolve := expandLoops_resolves debug 1 (distinctLabels_of_parsed hparsed) hfit
  let e := expandLoops debug 1 (resolveLabels module.body)
  obtain ⟨code, holders, nextId, hlower, hto, hnodup, hnames⟩ := lowerLabels_spec e.nextId hresolve
  refine ⟨⟨e.body, e.nextId⟩, summaries, code, holders, nextId, ?_, ?_,
    expandLoops_clear debug 1 holders_self (fun n _ => Taxonomy.spared_holders n.2 _)
      (everyAll_mono (fun _ h => h.1) hready), hto, hnodup, hnames⟩
  · rw [Draft.expand]
    simp only [hsum, e]
  · rw [Draft.lower, hlower]

/-- A parsed module whose labels resolve is expanded and lowered without fault, and what comes out is
closed, with each of its holders defined once. -/
theorem stages_closed (hp : parseSource strict source = .ok module)
    (hr : (source.resolve d log module.body).2 = .ok resolved)
    (hs : ∀ s ∈ Stmt.walk module.body, s.Summed)
    (hfree : ∀ k, ¬ Stmt.Mention module.body (holderName k)) (debug : Bool) :
    ∃ draft summaries out,
      Draft.expand source debug { body := resolved } = .ok (draft, summaries) ∧
      draft.lower source = .ok out ∧
      Stmt.ClosedAll false (fun _ _ => False) out.body ∧
      ∀ k, Stmt.Mention out.body (holderName k) → DefinedOnce out.body (holderName k) := by
  obtain ⟨draft, summaries, code, holders, nextId, he, hl, hspare, hto, hnodup, -⟩ :=
    stages_run hp hr hs hfree debug
  refine ⟨draft, summaries, _, he, hl, ?_, fun k => ?_⟩
  · exact withHolders_closed (lowerAll_closed hspare hto .none)
  · exact withHolders_definedOnce hnodup (lowerAll_holds jumpVariable_not_holder hspare hto nofun)

end

/-! ### Two modules -/

def Stmt.isSummed : Stmt → Bool
  | .callbackLoop _ _ target iter _ =>
    target.text?.isSome && ((CallForm.of? iter).bind CallForm.summary?).isSome
  | _ => true

theorem Stmt.isSummed_iff {s : Stmt} : s.isSummed = true ↔ s.Summed := by
  cases s <;> simp [Stmt.isSummed, Stmt.Summed]

theorem ne_holderName {x : String} (h : x.toList.head? ≠ some '_') (k : Nat) : x ≠ holderName k := by
  rintro rfl
  exact h (by simp [holderName, generatedName, reservedStart])

def summedPlain (body : List Stmt) : Bool :=
  (Stmt.walk body).all fun s => s.isSummed && s.mentions.all fun x => x.toList.head? != some '_'

theorem of_summedPlain (h : summedPlain body = true) :
    (∀ s ∈ Stmt.walk body, s.Summed) ∧ ∀ k, ¬ Stmt.Mention body (holderName k) := by
  have hwalk := List.all_eq_true.1 h
  refine ⟨fun s hmem => Stmt.isSummed_iff.1 (Bool.and_eq_true _ _ ▸ hwalk s hmem).1, ?_⟩
  rintro k ⟨s, hmem, hx⟩
  have hnames := List.all_eq_true.1 (Bool.and_eq_true _ _ ▸ hwalk s hmem).2
  exact ne_holderName (by simpa using hnames _ hx) k rfl

/-- The stages give modules of which a test holds: the parsed one, the resolved one, the expanded one with
its summaries, and the lowered one. -/
def Source.generates (source : Source)
    (test : List Stmt → List Stmt → Draft → List LoopSummary → Draft → Bool) : Bool :=
  (source.parsed? false).any fun body => (source.resolve {} {} body).2.toOption.any fun resolved =>
    (Draft.expand source false { body := resolved }).toOption.any fun r =>
      (r.1.lower source).toOption.any fun out => test body resolved r.1 r.2 out

theorem stages_of_generates {source : Source}
    {test : List Stmt → List Stmt → Draft → List LoopSummary → Draft → Bool}
    (hnul : source.text.contains '\x00' = false) (h : source.generates test = true) :
    ∃ module resolved draft summaries out, parseSource false source = .ok module ∧
      (source.resolve {} {} module.body).2 = .ok resolved ∧
      Draft.expand source false { body := resolved } = .ok (draft, summaries) ∧
      draft.lower source = .ok out ∧ test module.body resolved draft summaries out = true := by
  obtain ⟨body, hbody, h⟩ := (Option.any_eq_true _ _).1 h
  obtain ⟨resolved, hr, h⟩ := (Option.any_eq_true _ _).1 h
  obtain ⟨⟨draft, summaries⟩, he, h⟩ := (Option.any_eq_true _ _).1 h
  obtain ⟨out, hl, h⟩ := (Option.any_eq_true _ _).1 h
  obtain ⟨settings, hp⟩ := parseSource_of_parsed? hnul hbody
  exact ⟨⟨body, settings⟩, resolved, draft, summaries, out, hp, eq_ok_of_toOption hr, eq_ok_of_toOption he,
    eq_ok_of_toOption hl, h⟩

def continuedRows : Source where
  text := "a: for x in b:\n cbit for y in f() break loop a:\n  for z in y:\n   continue a\n"

theorem stages_closed_continuedRows : ∃ module resolved,
    parseSource false continuedRows = .ok module ∧
    (continuedRows.resolve {} {} module.body).2 = .ok resolved ∧
    (∀ s ∈ Stmt.walk module.body, s.Summed) ∧
    (∀ k, ¬ Stmt.Mention module.body (holderName k)) ∧
    ∃ draft summaries out,
      Draft.expand continuedRows false { body := resolved } = .ok (draft, summaries) ∧
      draft.lower continuedRows = .ok out ∧
      Stmt.ClosedAll false (fun _ _ => False) out.body ∧
      ∀ k, Stmt.Mention out.body (holderName k) → DefinedOnce out.body (holderName k) := by
  have htest : continuedRows.generates (fun body _ _ _ _ => summedPlain body) = true := by
    decide +kernel
  obtain ⟨module, resolved, _, _, _, hp, hr, -, -, hplain⟩ :=
    stages_of_generates (by simp [continuedRows]) htest
  obtain ⟨hs, hfree⟩ := of_summedPlain hplain
  exact ⟨module, resolved, hp, hr, hs, hfree, stages_closed hp hr hs hfree false⟩

def formattedHolder : Source where
  text := "f'\x7b_cbit_label_1\x7d'\n"

/-- The formatted text names a holder that no definition belongs to. -/
theorem formatted_holder_undefined : ∃ module resolved draft summaries out,
    parseSource false formattedHolder = .ok module ∧
    (formattedHolder.resolve {} {} module.body).2 = .ok resolved ∧
    Draft.expand formattedHolder false { body := resolved } = .ok (draft, summaries) ∧
    draft.lower formattedHolder = .ok out ∧
    Stmt.Mention out.body (holderName 1) ∧ ¬ DefinedOnce out.body (holderName 1) := by
  have htest : formattedHolder.generates (fun _ _ _ _ out =>
      ((Stmt.walk out.body).any fun s => s.mentions.contains (holderName 1)) &&
        out.body.all fun s => !s.isSupportImport) = true := by
    decide +kernel
  obtain ⟨module, resolved, draft, summaries, out, hp, hr, he, hl, hout⟩ :=
    stages_of_generates (by simp [formattedHolder]) htest
  rw [Bool.and_eq_true, List.any_eq_true, List.all_eq_true] at hout
  obtain ⟨⟨s, hs, hx⟩, hnone⟩ := hout
  refine ⟨module, resolved, draft, summaries, out, hp, hr, he, hl, ⟨s, hs, List.contains_iff_mem.1 hx⟩, ?_⟩
  rintro ⟨before, loc, names, holders, after, hsplit, -⟩
  have := hnone (.supportImport loc names) (by rw [hsplit]; simp)
  cases this

end LoopEscape

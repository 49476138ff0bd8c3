import LoopEscape.Proofs.Lower.Relation

/-!
# Lowering succeeds where jumps have targets

Each part of lowering is given a specification: working in a scope, working inside a target, and a
jump.  From these the specification of lowering a statement follows by going through the statement.
-/

namespace LoopEscape

open Generate Lower

variable {t t' : JumpTarget} {ts : List JumpTarget} {i : Nat}

/-! ### Scopes and targets -/

namespace Lower.Meets

variable {α : Type} {s : LowerState} {P : List String → List JumpTarget → α → Prop}

theorem inScope {work : Lower α} (h : work.Meets { s with targets := [] } P) :
    (Lower.inScope work).Meets s fun made _ a => P made [] a := by
  intro hs
  have hin : LowerState.Sound { s with targets := [] } :=
    ⟨hs.numbered, hs.nodup, by simp, .nil, by simp⟩
  obtain ⟨a, s₁, hw, hs₁, hr, hP⟩ := h hin
  have hnil : s₁.targets = [] := List.forall₂_nil_left_iff.1 hr.targets
  refine ⟨a, { s₁ with targets := s.targets }, ?_, ?_, ?_, fun made ts he => ?_⟩
  · show (work { s with targets := [] } >>= _) = _
    rw [hw]
    rfl
  · refine ⟨hs₁.numbered, hs₁.nodup, fun t ht x hx => ?_, hs.apart, hs.notes⟩
    obtain ⟨y, hy, rfl⟩ := List.mem_map.1 (hs.made t ht x hx)
    exact List.mem_map_of_mem (hr.holders y hy)
  · exact ⟨hr.nextId, hr.holders, (LowerState.Reaches.refl s).targets⟩
  · exact hP made [] ⟨he.made, by rw [hnil]; exact .nil⟩

theorem apart_of_growsTo {ts₁ : List JumpTarget} {s₁ : LowerState} (hs : s₁.Sound)
    (hts : s₁.targets = t :: ts₁) (h : List.Forall₂ (JumpTarget.GrowsTo s₁.nextId) ts₁ ts) :
    ∀ u ∈ ts, t.Apart u := by
  intro u hu x hx hux
  obtain ⟨n, hn, rfl⟩ := List.getElem_of_mem hu
  have hn₁ : n < ts₁.length := by rw [h.length_eq]; exact hn
  have hg : ts₁[n].GrowsTo s₁.nextId ts[n] := h.get hn₁ hn
  have hap := hs.apart
  rw [hts, List.pairwise_cons] at hap
  cases hh : ts₁[n].holder with
  | some y =>
    have hxy : ts[n].holder = some y := hg.keeps y hh
    rw [hux] at hxy
    exact hap.1 _ (List.getElem_mem hn₁) x hx (hh.trans hxy.symm)
  | none =>
    obtain ⟨k, hk, rfl⟩ := hg.gets hh x hux
    obtain ⟨y, hy, hyx⟩ := List.mem_map.1 (hs.made t (by rw [hts]; simp) _ hx)
    obtain ⟨l, hl, hyl⟩ := hs.numbered y hy
    have : l = k := holderName_injective (hyl.symm.trans hyx)
    omega

theorem inTarget {work : Lower α} (ht : t.holder = none) (hr : ∀ kind, t.raises kind = false)
    (h : work.Meets { s with targets := t :: s.targets } P) :
    (Lower.inTarget t work).Meets s fun made ts r =>
      r.2.Opens t.loc t.label t.isLoop t.valueTarget ∧ r.2.Stands made ts ∧
        P made (r.2 :: ts) r.1 := by
  intro hs
  have hin : LowerState.Sound { s with targets := t :: s.targets } := by
    refine ⟨hs.numbered, hs.nodup, fun u hu x hx => ?_, ?_, fun u hu => ?_⟩
    · rcases List.mem_cons.1 hu with rfl | hu
      · rw [ht] at hx; cases hx
      · exact hs.made u hu x hx
    · refine List.pairwise_cons.2 ⟨fun u _ x hx => ?_, hs.apart⟩
      rw [ht] at hx; cases hx
    · rcases List.mem_cons.1 hu with rfl | hu
      · intro kind hk; rw [hr kind] at hk; cases hk
      · exact hs.notes u hu
  obtain ⟨a, s₁, hw, hs₁, hr₁, hP⟩ := h hin
  obtain ⟨t₁, ts₁, hg, hts, hcons⟩ := List.forall₂_cons_left_iff.1 hr₁.targets
  have hap := hs₁.apart
  rw [hcons, List.pairwise_cons] at hap
  refine ⟨(a, t₁), { s₁ with targets := ts₁ }, ?_, ?_, ⟨hr₁.nextId, hr₁.holders, hts⟩,
    fun made ts he => ⟨hg.opens, ⟨fun x hx => ?_, ?_, ?_⟩, ?_⟩⟩
  · show (work { s with targets := t :: s.targets } >>= _) = _
    rw [hw]
    show Except.ok ((a, s₁.targets.headD t), { s₁ with targets := s₁.targets.drop 1 }) = _
    rw [hcons]
    rfl
  · exact ⟨hs₁.numbered, hs₁.nodup, fun u hu => hs₁.made u (by rw [hcons]; exact .tail _ hu), hap.2,
      fun u hu => hs₁.notes u (by rw [hcons]; exact .tail _ hu)⟩
  · obtain ⟨y, hy, rfl⟩ := List.mem_map.1 (hs₁.made t₁ (by rw [hcons]; simp) x hx)
    exact he.made y hy
  · exact apart_of_growsTo hs₁ hcons he.targets
  · exact hs₁.notes t₁ (by rw [hcons]; simp)
  · exact hP made (t₁ :: ts) ⟨he.made, by rw [hcons]; exact .cons (.refl _ _) he.targets⟩

end Lower.Meets

/-! ### Jumps -/

theorem JumpTarget.Apart.symm {u : JumpTarget} (h : t.Apart u) : u.Apart t :=
  fun x hx hx' => h x hx' hx

namespace LowerState

theorem forall₂_growsTo_set {n : Nat} (hi : ts[i]? = some t) (h : t.GrowsTo n t') :
    List.Forall₂ (JumpTarget.GrowsTo n) ts (ts.set i t') := by
  induction ts generalizing i with
  | nil => cases hi
  | cons u us ih =>
    cases i with
    | zero =>
      obtain rfl : u = t := by simpa using hi
      exact .cons h (List.forall₂_same.2 fun v _ => .refl n v)
    | succ i => exact .cons (.refl n u) (ih (by simpa using hi))

theorem Sound.set {s : LowerState} (hs : s.Sound)
    (hmade : ∀ h, t'.holder = some h → h ∈ s.holders.map Holder.name)
    (hapart : ∀ j u, s.targets[j]? = some u → j ≠ i → t'.Apart u) (hnotes : t'.Notes) :
    Sound { s with targets := s.targets.set i t' } where
  numbered := hs.numbered
  nodup := hs.nodup
  made u hu := by
    rcases List.mem_or_eq_of_mem_set hu with hu | rfl
    · exact hs.made u hu
    · exact hmade
  apart := by
    rw [List.pairwise_iff_getElem]
    intro j k hj hk hjk
    have hold := List.pairwise_iff_getElem.1 hs.apart
    simp only [List.length_set] at hj hk
    simp only [List.getElem_set]
    split <;> split
    · omega
    · exact hapart k _ (List.getElem?_eq_getElem hk) (by omega)
    · exact (hapart j _ (List.getElem?_eq_getElem hj) (by omega)).symm
    · exact hold j k hj hk hjk
  notes u hu := by
    rcases List.mem_or_eq_of_mem_set hu with hu | rfl
    · exact hs.notes u hu
    · exact hnotes

theorem Sound.newHolder {s : LowerState} (hs : s.Sound) (label : String) (loc : Loc) :
    Sound { s with nextId := s.nextId + 1
                   holders := ⟨holderName s.nextId, label, loc⟩ :: s.holders } where
  numbered h hh := by
    rcases List.mem_cons.1 hh with rfl | hh
    · exact ⟨s.nextId, Nat.lt_succ_self _, rfl⟩
    · obtain ⟨k, hk, hn⟩ := hs.numbered h hh
      exact ⟨k, Nat.lt_succ_of_lt hk, hn⟩
  nodup := by
    refine List.nodup_cons.2 ⟨fun hm => ?_, hs.nodup⟩
    obtain ⟨h, hh, hn⟩ := List.mem_map.1 hm
    obtain ⟨k, hk, hn'⟩ := hs.numbered h hh
    exact absurd (holderName_injective (hn'.symm.trans hn)) (by omega)
  made t ht h hh := List.mem_cons_of_mem _ (hs.made t ht h hh)
  apart := hs.apart
  notes := hs.notes

theorem Sound.holder_lt {s : LowerState} (hs : s.Sound) (ht : t ∈ s.targets) {h : String}
    (hh : t.holder = some h) : ∃ k < s.nextId, h = holderName k := by
  obtain ⟨x, hx, rfl⟩ := List.mem_map.1 (hs.made t ht h hh)
  exact hs.numbered x hx

end LowerState

def JumpTarget.noting (t : JumpTarget) : JumpKind → JumpTarget
  | .break_ => { t with raisesBreak := true }
  | .continue_ => { t with raisesContinue := true }

namespace JumpTarget

theorem noting_holder (t : JumpTarget) (kind : JumpKind) : (t.noting kind).holder = t.holder := by
  cases kind <;> rfl

theorem noting_opens (t : JumpTarget) (kind : JumpKind) :
    (t.noting kind).Opens t.loc t.label t.isLoop t.valueTarget := by
  cases kind <;> exact ⟨rfl, rfl, rfl, rfl⟩

theorem noting_raises (t : JumpTarget) (kind kind' : JumpKind) :
    (t.noting kind).raises kind' = (t.raises kind' || kind == kind') := by
  cases kind <;> cases kind' <;> simp [noting, raises]

theorem noting_growsTo (t : JumpTarget) (kind : JumpKind) (n : Nat) :
    t.GrowsTo n (t.noting kind) where
  opens := t.noting_opens kind
  keeps h hh := by rw [noting_holder, hh]
  gets hn h hh := by rw [noting_holder, hn] at hh; cases hh
  raises k hk := by rw [noting_raises, hk]; rfl

end JumpTarget

theorem raiseTo_eq (loc : Loc) (kind : JumpKind) (i : Nat) (t : JumpTarget) (value : Option Expr)
    (s : LowerState) :
    raiseTo loc kind i t value s =
      ([raiseJump loc (ensureHolder s (t.noting kind)).2.2 kind value],
        { (ensureHolder s (t.noting kind)).1 with
          targets := (ensureHolder s (t.noting kind)).1.targets.set i
            (ensureHolder s (t.noting kind)).2.1 }) := by
  cases kind <;> rfl

theorem raiseTo_spec {s : LowerState} (loc : Loc) (kind : JumpKind) (value : Option Expr) (hs : s.Sound)
    (hi : s.targets[i]? = some t) (hk : kind = .continue_ → t.isLoop = true) :
    ∃ h t' s', raiseTo loc kind i t value s = ([raiseJump loc h kind value], s') ∧ s'.Sound ∧
      s.Reaches s' ∧ s'.targets[i]? = some t' ∧ t'.holder = some h ∧ t'.raises kind = true := by
  have hlt : i < s.targets.length := (List.getElem?_eq_some_iff.1 hi).1
  have ht : t ∈ s.targets := List.mem_of_getElem? hi
  have hself : (t.noting kind).raises kind = true := by rw [JumpTarget.noting_raises]; simp
  have hloop : ∀ k, (t.noting kind).raises k = true → k = .continue_ → t.isLoop = true := by
    intro k hr hc
    rw [JumpTarget.noting_raises, Bool.or_eq_true] at hr
    rcases hr with hr | hr
    · exact (hs.notes t ht k hr).2 hc
    · exact hk ((eq_of_beq hr).trans hc)
  have hapart : ∀ j u, s.targets[j]? = some u → j ≠ i → t.Apart u := by
    intro j u hj hne
    have hold := List.pairwise_iff_getElem.1 hs.apart
    obtain ⟨hjl, rfl⟩ := List.getElem?_eq_some_iff.1 hj
    obtain ⟨hil, rfl⟩ := List.getElem?_eq_some_iff.1 hi
    rcases Nat.lt_or_gt_of_ne hne with hlt | hlt
    · exact (hold j i hjl hil hlt).symm
    · exact hold i j hil hjl hlt
  rw [raiseTo_eq]
  cases hh : t.holder with
  | some h =>
    have he : ensureHolder s (t.noting kind) = (s, t.noting kind, h) := by
      rw [ensureHolder, JumpTarget.noting_holder, hh]
    rw [he]
    refine ⟨h, t.noting kind, _, rfl, hs.set (fun x hx => ?_) (fun j u hj hne x hx => ?_)
      (fun k hr => ⟨⟨h, ?_⟩, fun hc => ?_⟩), ⟨Nat.le_refl _, fun _ hx => hx,
        LowerState.forall₂_growsTo_set hi (t.noting_growsTo kind _)⟩, ?_, ?_, hself⟩
    · exact hs.made t ht x (by rw [← t.noting_holder kind]; exact hx)
    · exact hapart j u hj hne x (by rw [← t.noting_holder kind]; exact hx)
    · rw [JumpTarget.noting_holder, hh]
    · rw [(t.noting_opens kind).isLoop]
      exact hloop k hr hc
    · exact List.getElem?_set_self hlt
    · rw [JumpTarget.noting_holder, hh]
  | none =>
    let t' : JumpTarget := { t.noting kind with holder := some (holderName s.nextId) }
    have he : ensureHolder s (t.noting kind) =
        ({ s with nextId := s.nextId + 1
                  holders := ⟨holderName s.nextId, (t.noting kind).label.getD "",
                    (t.noting kind).loc⟩ :: s.holders }, t', holderName s.nextId) := by
      rw [ensureHolder, JumpTarget.noting_holder, hh]
      rfl
    have hraises : ∀ k, t'.raises k = (t.noting kind).raises k := fun k => by cases k <;> rfl
    have hgrows : t.GrowsTo s.nextId t' := by
      refine ⟨?_, fun x hx => ?_, fun _ x hx => ?_, fun k hr => ?_⟩
      · obtain ⟨h₁, h₂, h₃, h₄⟩ := t.noting_opens kind
        exact ⟨h₁, h₂, h₃, h₄⟩
      · rw [hh] at hx; cases hx
      · exact ⟨s.nextId, Nat.le_refl _, (Option.some.inj hx).symm⟩
      · rw [hraises]
        exact (t.noting_growsTo kind 0).raises k hr
    rw [he]
    refine ⟨holderName s.nextId, t', _, rfl, (hs.newHolder _ _).set (fun x hx => ?_)
      (fun j u hj hne x hx hu => ?_) (fun k hr => ⟨⟨_, rfl⟩, fun hc => ?_⟩),
      ⟨Nat.le_succ _, fun _ hx => List.mem_cons_of_mem _ hx,
        LowerState.forall₂_growsTo_set hi hgrows⟩, ?_, rfl, ?_⟩
    · rw [← Option.some.inj hx]
      exact List.mem_cons_self
    · -- every other holder has a lower number
      obtain ⟨k, hk, rfl⟩ := hs.holder_lt (List.mem_of_getElem? hj) hu
      exact absurd (holderName_injective (Option.some.inj hx)) (by omega)
    · rw [hraises] at hr
      exact (t.noting_opens kind).isLoop.trans (hloop k hr hc)
    · exact List.getElem?_set_self hlt
    · rw [hraises]
      exact hself

theorem LowerState.Ends.get {s : LowerState} {made : List String} (h : s.Ends made ts)
    (hi : s.targets[i]? = some t) :
    ∃ t', ts[i]? = some t' ∧ t.GrowsTo s.nextId t' := by
  obtain ⟨hlt, rfl⟩ := List.getElem?_eq_some_iff.1 hi
  have hlt' : i < ts.length := by rw [← h.targets.length_eq]; exact hlt
  exact ⟨ts[i], List.getElem?_eq_getElem hlt', h.targets.get hlt hlt'⟩

theorem isInnermost_eq {ts' : List JumpTarget} (h : ts'.map JumpTarget.shape = ts.map JumpTarget.shape)
    (i : Nat) :
    isInnermost ts' i = isInnermost ts i := by
  have hn : targetIndex ts' none = targetIndex ts none := by
    rw [targetIndex_eq, targetIndex_eq, h]
  show (targetIndex ts' none == some i) = (targetIndex ts none == some i)
  rw [hn]

theorem plainJump_eq (h : t'.valueTarget = t.valueTarget) (loc : Loc) (kind : JumpKind) (value : Option Expr) :
    plainJump loc kind t' value = plainJump loc kind t value := by
  simp only [plainJump, h]

theorem Lower.Meets.jump {s : LowerState} {kind : JumpKind} {label : Option String} (loc : Loc)
    (value : Option Expr) (h : s.shape.Resolves kind label) :
    (Lower.jump loc kind label value).Meets s fun _ ts out =>
      LowersJump ts loc kind label value out := by
  intro hs
  obtain ⟨i, x, hidx, hx, hloop⟩ := h
  rw [LowerState.shape, ← targetIndex_eq] at hidx
  rw [LowerState.shape, List.getElem?_map] at hx
  obtain ⟨t, ht, rfl⟩ := Option.map_eq_some_iff.1 hx
  have hget : s.targets.getD i default = t := by
    rw [List.getD_eq_getElem?_getD, ht]
    rfl
  have hjump : Lower.jump loc kind label value s =
      if isInnermost s.targets i then .ok (plainJump loc kind t value, s)
      else .ok (raiseTo loc kind i t value s) := by
    simp only [Lower.jump, hidx, hget]
  cases hin : isInnermost s.targets i with
  | true =>
    rw [hin, if_pos rfl] at hjump
    refine ⟨_, s, hjump, hs, .refl s, fun made ts he => ?_⟩
    obtain ⟨t', ht', hg⟩ := he.get ht
    have hshape := LowerState.shape_of_growsTo he.targets
    refine ⟨i, t', ?_, ht', fun hc => hg.opens.isLoop.trans (hloop hc), ?_⟩
    · rw [targetIndex_eq, hshape, ← targetIndex_eq, hidx]
    · rw [isInnermost_eq hshape, hin, if_pos rfl, plainJump_eq hg.opens.valueTarget]
  | false =>
    rw [hin, if_neg (by simp)] at hjump
    obtain ⟨h, t₁, s₁, hr, hs₁, hreach, ht₁, hh, hra⟩ := raiseTo_spec loc kind value hs ht hloop
    rw [hr] at hjump
    refine ⟨_, s₁, hjump, hs₁, hreach, fun made ts he => ?_⟩
    obtain ⟨t', ht', hg⟩ := he.get ht₁
    obtain ⟨t'', ht'', hg'⟩ := (he.of_reaches hreach).get ht
    obtain rfl : t'' = t' := Option.some.inj (ht''.symm.trans ht')
    have hshape := LowerState.shape_of_growsTo (he.of_reaches hreach).targets
    refine ⟨i, t'', ?_, ht', fun hc => hg'.opens.isLoop.trans (hloop hc), ?_⟩
    · rw [targetIndex_eq, hshape, ← targetIndex_eq, hidx]
    · rw [isInnermost_eq hshape, hin, if_neg (by simp)]
      exact ⟨hg.raises kind hra, h, hg.keeps h hh, rfl⟩

/-! ### Statements -/

mutual

theorem lower_meets (stmt : Stmt) (s : LowerState) (h : stmt.Resolves s.shape) :
    (Stmt.lower stmt).Meets s fun made ts out => stmt.LowersTo made ts out := by
  cases stmt with
  | function loc isAsync name params body decorators returns | class_ loc name bases keywords body decorators =>
    refine ((Lower.Meets.inScope (lowerAll_meets body _ h)).bind fun _ _ _ => .pure _).mono ?_
    rintro made ts out ⟨body', hb, rfl⟩
    rw [Stmt.LowersTo]
    exact ⟨body', hb, rfl⟩
  | for_ loc isAsync mark target iter body orElse | while_ loc mark test body orElse =>
    let t : JumpTarget := ⟨loc, mark.label, true, mark.valueTarget, none, false, false⟩
    refine ((Lower.Meets.inTarget (t := t) rfl (fun k => by cases k <;> rfl)
      (lowerAll_meets body _ h.1)).bind fun r s' hs' =>
        (lowerAll_meets orElse s' (hs'.symm ▸ h.2)).bind fun _ _ _ => .pure _).mono ?_
    rintro made ts out ⟨⟨body', t⟩, ⟨ho, hst, hb⟩, orElse', he, rfl⟩
    rw [Stmt.LowersTo]
    exact ⟨t, body', orElse', ho, hst, hb, he, rfl⟩
  | block loc label target body =>
    let t : JumpTarget := ⟨loc, some label, false, target, none, false, false⟩
    refine ((Lower.Meets.inTarget (t := t) rfl (fun k => by cases k <;> rfl)
      (lowerAll_meets body _ h)).bind fun _ _ _ => .pure _).mono ?_
    rintro made ts out ⟨⟨body', t⟩, ⟨ho, hst, hb⟩, rfl⟩
    rw [Stmt.LowersTo]
    exact ⟨t, body', ho, hst, hb, rfl⟩
  | break_ loc label value =>
    simpa only [Stmt.lower, Stmt.LowersTo] using Lower.Meets.jump loc value h
  | continue_ loc label =>
    simpa only [Stmt.lower, Stmt.LowersTo] using Lower.Meets.jump loc none h
  | if_ loc test body orElse =>
    refine ((lowerAll_meets body s h.1).bind fun _ s' hs' =>
      (lowerAll_meets orElse s' (hs'.symm ▸ h.2)).bind fun _ _ _ => .pure _).mono ?_
    rintro made ts out ⟨body', hb, orElse', he, rfl⟩
    rw [Stmt.LowersTo]
    exact ⟨body', orElse', hb, he, rfl⟩
  | with_ loc isAsync items body =>
    refine ((lowerAll_meets body s h).bind fun _ _ _ => .pure _).mono ?_
    rintro made ts out ⟨body', hb, rfl⟩
    rw [Stmt.LowersTo]
    exact ⟨body', hb, rfl⟩
  | match_ loc subject cases =>
    refine ((lowerCases_meets cases s h).bind fun _ _ _ => .pure _).mono ?_
    rintro made ts out ⟨cases', hc, rfl⟩
    rw [Stmt.LowersTo]
    exact ⟨cases', hc, rfl⟩
  | try_ loc isStar body handlers orElse final =>
    refine ((lowerAll_meets body s h.1).bind fun _ s₁ h₁ =>
      (lowerHandlers_meets handlers s₁ (h₁.symm ▸ h.2.1)).bind fun _ s₂ h₂ =>
      (lowerAll_meets orElse s₂ ((h₂.trans h₁).symm ▸ h.2.2.1)).bind fun _ s₃ h₃ =>
      (lowerAll_meets final s₃ ((h₃.trans (h₂.trans h₁)).symm ▸ h.2.2.2)).bind
        fun _ _ _ => .pure _).mono ?_
    rintro made ts out ⟨body', hb, handlers', hh, orElse', he, final', hf, rfl⟩
    rw [Stmt.LowersTo]
    exact ⟨body', handlers', orElse', final', hb, hh, he, hf, rfl⟩
  | callbackLoop => exact h.elim
  | _ =>
    simpa only [Stmt.lower, Stmt.LowersTo] using Lower.Meets.pure _

theorem lowerAll_meets : ∀ (body : List Stmt) (s : LowerState), Stmt.ResolveAll s.shape body →
    (Stmt.lowerAll body).Meets s fun made ts out => Stmt.LowerAllTo made ts body out
  | [], _, _ => by simpa only [Stmt.lowerAll, Stmt.LowerAllTo] using Lower.Meets.pure []
  | stmt :: rest, s, h => by
    refine ((lower_meets stmt s h.1).bind fun _ s' hs' =>
      (lowerAll_meets rest s' (hs'.symm ▸ h.2)).bind fun _ _ _ => .pure _).mono ?_
    rintro made ts out ⟨stmt', hs, rest', hr, rfl⟩
    rw [Stmt.LowerAllTo]
    exact ⟨stmt', rest', hs, hr, rfl⟩

theorem lowerHandlers_meets : ∀ (hs : List Handler) (s : LowerState),
    Handler.ResolveAll s.shape hs →
    (Handler.lowerAll hs).Meets s fun made ts out => Handler.LowerAllTo made ts hs out
  | [], _, _ => by simpa only [Handler.lowerAll, Handler.LowerAllTo] using Lower.Meets.pure []
  | .mk loc type name body :: rest, s, h => by
    refine ((lowerAll_meets body s h.1).bind fun _ s' hs' =>
      (lowerHandlers_meets rest s' (hs'.symm ▸ h.2)).bind fun _ _ _ => .pure _).mono ?_
    rintro made ts out ⟨body', hb, rest', hr, rfl⟩
    rw [Handler.LowerAllTo]
    exact ⟨body', rest', hb, hr, rfl⟩

theorem lowerCases_meets : ∀ (cs : List MatchCase) (s : LowerState),
    MatchCase.ResolveAll s.shape cs →
    (MatchCase.lowerAll cs).Meets s fun made ts out => MatchCase.LowerAllTo made ts cs out
  | [], _, _ => by simpa only [MatchCase.lowerAll, MatchCase.LowerAllTo] using Lower.Meets.pure []
  | .mk pattern guard body :: rest, s, h => by
    refine ((lowerAll_meets body s h.1).bind fun _ s' hs' =>
      (lowerCases_meets rest s' (hs'.symm ▸ h.2)).bind fun _ _ _ => .pure _).mono ?_
    rintro made ts out ⟨body', hb, rest', hr, rfl⟩
    rw [MatchCase.LowerAllTo]
    exact ⟨body', rest', hb, hr, rfl⟩

end

/-! ### Modules -/

def withHolders (holders : List Holder) (body : List Stmt) : List Stmt :=
  if holders.isEmpty then body else insertAfterImport (holders.map Holder.definition) body

theorem lowerLabels_spec (firstId : Nat) {body : List Stmt} (h : Stmt.ResolveAll [] body) :
    ∃ out holders nextId, lowerLabels firstId body = .ok (withHolders holders out, nextId) ∧
      Stmt.LowerAllTo (holders.map Holder.name) [] body out ∧
      (holders.map Holder.name).Nodup ∧ ∀ h ∈ holders, ∃ k, h.name = holderName k := by
  have hsound : LowerState.Sound { nextId := firstId } :=
    ⟨by simp, by simp, by simp, .nil, by simp⟩
  obtain ⟨out, s, hrun, hs, hr, hspec⟩ := lowerAll_meets body { nextId := firstId } h hsound
  have htargets : s.targets = [] := List.forall₂_nil_left_iff.1 hr.targets
  have hends : s.Ends (s.holders.reverse.map Holder.name) [] :=
    ⟨fun h hh => List.mem_map.2 ⟨h, List.mem_reverse.2 hh, rfl⟩, by rw [htargets]; exact .nil⟩
  refine ⟨out, s.holders.reverse, s.nextId, ?_, hspec _ _ hends, ?_, ?_⟩
  · show (Stmt.lowerAll body { nextId := firstId } >>= _) = _
    rw [hrun]
    simp only [withHolders, List.isEmpty_map]
    rfl
  · rw [List.map_reverse]
    exact (List.reverse_perm _).symm.nodup hs.nodup
  · intro h hh
    obtain ⟨k, _, hk⟩ := hs.numbered h (List.mem_reverse.1 hh)
    exact ⟨k, hk⟩

end LoopEscape

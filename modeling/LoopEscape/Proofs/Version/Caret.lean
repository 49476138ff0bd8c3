import LoopEscape.Proofs.Generate.Names
import LoopEscape.Version.Pragma

/-!
# Carets in version pragmas

A pragma with a caret asks for a compatible release, which keeps all numbers but the last.  Carets mean that
only if the first number is zero and the second is not, whatever matcher tells compatible releases
(`caret_iff`).  That of this library does: a release that is written out is read back as itself
(`parse?_release`), and is compared number by number (`Specifier.matcher_compatible`).
-/

namespace LoopEscape

open Text

namespace Version

def ofRelease (ns : List Nat) : Version := { release := ns }

def releaseOf (ns : List Nat) : String := ".".intercalate (ns.map toString)

/-! ### Reading numbers -/

theorem isAsciiDigit_eq (c : Char) : isAsciiDigit c = c.isDigit := by
  rw [Bool.eq_iff_iff]
  simp only [isAsciiDigit, Char.isDigit, Bool.and_eq_true, decide_eq_true_eq, ge_iff_le]
  rfl

theorem isAsciiDigit_of_mem {n : Nat} {c : Char} (h : c ∈ (toString n).toList) : isAsciiDigit c = true :=
  isAsciiDigit_eq c ▸ isDigit_of_mem_toString h

theorem toString_toList (n : Nat) : (toString n).toList = Nat.toDigits 10 n := by
  rw [Nat.toString_eq_repr, Nat.repr_eq_ofList_toDigits, String.toList_ofList]

theorem toString_ne_nil (n : Nat) : (toString n).toList ≠ [] := by
  rw [toString_toList]
  exact Nat.toDigits_ne_nil

theorem ofDigits_toString (n : Nat) : ofDigits (toString n).toList = n := by
  rw [toString_toList]
  exact Nat.ofDigitChars_toDigits (b := 10) (n := n) (by omega) (by omega)

def NoDigit (rest : List Char) : Prop := ∀ c ∈ rest.head?, isAsciiDigit c = false

theorem takeWhile_toString (n : Nat) {rest : List Char} (h : NoDigit rest) :
    ((toString n).toList ++ rest).takeWhile isAsciiDigit = (toString n).toList := by
  rw [List.takeWhile_append_of_pos fun c hc => isAsciiDigit_of_mem hc]
  cases rest with
  | nil => simp
  | cons c cs => rw [List.takeWhile_cons_of_neg (by simp [h c rfl]), List.append_nil]

theorem dropWhile_toString (n : Nat) {rest : List Char} (h : NoDigit rest) :
    ((toString n).toList ++ rest).dropWhile isAsciiDigit = rest := by
  rw [List.dropWhile_append_of_pos fun c hc => isAsciiDigit_of_mem hc]
  cases rest with
  | nil => rfl
  | cons c cs => rw [List.dropWhile_cons_of_neg (by simp [h c rfl])]

theorem digits?_toString (n : Nat) {rest : List Char} (h : NoDigit rest) :
    digits? ((toString n).toList ++ rest) = some (n, rest) := by
  rw [digits?, takeWhile_toString n h, dropWhile_toString n h]
  cases hn : (toString n).toList with
  | nil => exact absurd hn (toString_ne_nil n)
  | cons c cs =>
    dsimp only
    rw [← hn, ofDigits_toString]

/-! ### Reading releases -/

def moreChars : List Nat → List Char
  | [] => []
  | n :: ns => '.' :: ((toString n).toList ++ moreChars ns)

theorem moreChars_noDigit : ∀ ns : List Nat, NoDigit (moreChars ns)
  | [] => by simp [NoDigit, moreChars]
  | n :: ns => by simp [NoDigit, moreChars]; decide

theorem render_ofRelease (ns : List Nat) :
    (ofRelease ns).render = ".".intercalate (ns.map toString) := by
  simp [ofRelease, render, publicText, baseText, releaseText]

theorem publicText_ofRelease (ns : List Nat) : (ofRelease ns).publicText = (ofRelease ns).render := by
  simp [render, ofRelease]

theorem render_toList (ns : List Nat) :
    (ofRelease ns).render.toList = ['.'].intercalate (ns.map fun n => (toString n).toList) := by
  rw [render_ofRelease, String.toList_intercalate, List.map_map]
  rfl

theorem render_cons (n : Nat) (ns : List Nat) :
    (ofRelease (n :: ns)).render.toList = (toString n).toList ++ moreChars ns := by
  rw [render_toList]
  induction ns generalizing n with
  | nil => simp [moreChars]
  | cons m ns ih =>
    have hm := ih m
    rw [List.map_cons] at hm
    rw [List.map_cons, List.map_cons, List.intercalate_cons_cons, hm]
    simp [moreChars]

theorem length_le_moreChars (ns : List Nat) : ns.length ≤ (moreChars ns).length := by
  induction ns with
  | nil => exact Nat.le_refl 0
  | cons n ns ih =>
    simp only [moreChars, List.length_cons, List.length_append]
    omega

theorem moreRelease_moreChars {ns : List Nat} {fuel : Nat} (h : ns.length ≤ fuel) :
    moreRelease fuel (moreChars ns) = (ns, []) := by
  induction ns generalizing fuel with
  | nil => cases fuel <;> rfl
  | cons n ns ih =>
    obtain ⟨fuel, rfl⟩ := Nat.exists_eq_add_of_le' (Nat.le_trans (Nat.le_add_left 1 _) h)
    rw [moreChars, moreRelease, digits?_toString n (moreChars_noDigit ns)]
    dsimp only
    rw [ih (Nat.le_of_succ_le_succ h)]

theorem body?_release (n : Nat) (ns : List Nat) (cs : List Char)
    (hepoch : takeEpoch cs = (0, (toString n).toList ++ moreChars ns))
    (hfirst : ∀ c ∈ cs.head?, isAsciiDigit c = true) :
    body? cs = some (ofRelease (n :: ns), []) := by
  have hrelease : release? ((toString n).toList ++ moreChars ns) = some (n :: ns, []) := by
    rw [release?, digits?_toString n (moreChars_noDigit ns), Option.map_some]
    dsimp only
    rw [moreRelease_moreChars (length_le_moreChars ns)]
  cases cs with
  | nil =>
    rw [show takeEpoch [] = (0, []) from rfl, Prod.mk.injEq] at hepoch
    rw [← hepoch.2] at hrelease
    cases hrelease
  | cons c cs =>
    have hv : (c == 'v' || c == 'V') = false := by
      have := hfirst c rfl
      rw [Bool.or_eq_false_iff, beq_eq_false_iff_ne, beq_eq_false_iff_ne]
      constructor <;> rintro rfl <;> revert this <;> decide
    rw [body?]
    dsimp only
    rw [hv, if_neg Bool.false_ne_true, hepoch, hrelease]
    rfl

theorem unblank_of_digit {c : Char} (h : isAsciiDigit c = true) : isBlank c = false := by
  rw [isAsciiDigit_eq, Char.isDigit_iff_toNat] at h
  have h1 : 48 ≤ c.toNat := h.1
  have h2 : c.toNat ≤ 57 := h.2
  simp only [isBlank, Bool.or_eq_false_iff, Bool.and_eq_false_iff, decide_eq_false_iff_not,
    beq_eq_false_iff_ne]
  omega

theorem trim_of_unblank {cs : List Char} (h : ∀ c ∈ cs, isBlank c = false) : trim cs = cs := by
  have hleft : trimLeft cs = cs := by
    cases cs with
    | nil => rfl
    | cons c cs => rw [trimLeft, List.dropWhile_cons_of_neg (by simp [h c List.mem_cons_self])]
  have hright : cs.reverse.dropWhile isBlank = cs.reverse := by
    cases hcs : cs.reverse with
    | nil => rfl
    | cons c rest =>
      have hc : c ∈ cs := List.mem_reverse.1 (hcs ▸ List.mem_cons_self)
      rw [List.dropWhile_cons_of_neg (by simp [h c hc])]
  rw [trim, hleft, trimRight, hright, List.reverse_reverse]

theorem mem_moreChars {ns : List Nat} {c : Char} (h : c ∈ moreChars ns) :
    isAsciiDigit c = true ∨ c = '.' := by
  induction ns with
  | nil => cases h
  | cons n ns ih =>
    simp only [moreChars, List.mem_cons, List.mem_append] at h
    rcases h with rfl | h | h
    · exact .inr rfl
    · exact .inl (isAsciiDigit_of_mem h)
    · exact ih h

theorem mem_render {n : Nat} {ns : List Nat} {c : Char} (h : c ∈ (ofRelease (n :: ns)).render.toList) :
    isAsciiDigit c = true ∨ c = '.' := by
  rw [render_cons] at h
  exact (List.mem_append.1 h).elim (fun h => .inl (isAsciiDigit_of_mem h)) mem_moreChars

theorem unblank_of_mem {n : Nat} {ns : List Nat} {c : Char}
    (h : c ∈ (ofRelease (n :: ns)).render.toList) : isBlank c = false := by
  rcases mem_render h with h | rfl
  · exact unblank_of_digit h
  · decide

theorem head_toString (n : Nat) (rest : List Char) :
    ∀ c ∈ ((toString n).toList ++ rest).head?, isAsciiDigit c = true := by
  cases hn : (toString n).toList with
  | nil => exact absurd hn (toString_ne_nil n)
  | cons d ds =>
    rintro c ⟨⟩
    exact isAsciiDigit_of_mem (n := n) (hn ▸ List.mem_cons_self)

theorem head_render (n : Nat) (ns : List Nat) :
    ∀ c ∈ (ofRelease (n :: ns)).render.toList.head?, isAsciiDigit c = true := by
  rw [render_cons]
  exact head_toString n _

theorem takeEpoch_release (n : Nat) (ns : List Nat) :
    takeEpoch ((toString n).toList ++ moreChars ns) = (0, (toString n).toList ++ moreChars ns) := by
  rw [takeEpoch, digits?_toString n (moreChars_noDigit ns)]
  cases ns <;> rfl

theorem parse?_release (n : Nat) (ns : List Nat) :
    parse? (ofRelease (n :: ns)).render = some (ofRelease (n :: ns)) := by
  rw [parse?, trim_of_unblank fun c => unblank_of_mem,
    body?_release n ns _ (by rw [render_cons]; exact takeEpoch_release n ns) (head_render n ns)]

theorem parse?_epoch (n : Nat) (ns : List Nat) :
    parse? ("0!" ++ (ofRelease (n :: ns)).render) = some (ofRelease (n :: ns)) := by
  have hchars : ("0!" ++ (ofRelease (n :: ns)).render).toList =
      (toString 0).toList ++ '!' :: (ofRelease (n :: ns)).render.toList := by
    rw [String.toList_append]
    rfl
  have hunblank : ∀ c ∈ ("0!" ++ (ofRelease (n :: ns)).render).toList, isBlank c = false := by
    intro c hc
    rw [String.toList_append, List.mem_append] at hc
    rcases hc with hc | hc
    · have hclear : ("0!".toList.all fun c => isBlank c == false) = true := by decide
      exact eq_of_beq (List.all_eq_true.1 hclear c hc)
    · exact unblank_of_mem hc
  rw [parse?, trim_of_unblank hunblank, hchars, body?_release n ns]
  · rw [takeEpoch, digits?_toString 0 (by simp [NoDigit]; decide)]
    rw [render_cons]
    rfl
  · exact head_toString 0 _

/-! ### The order of releases -/

theorem less_release (a b c x y z : Nat) : (ofRelease [a, b, c]).less (ofRelease [x, y, z]) = true ↔
    a < x ∨ a = x ∧ (b < y ∨ b = y ∧ c < z) := by
  have htrim (l m n : Nat) : trimZeros [l, m, n] =
      if n ≠ 0 then [l, m, n] else if m ≠ 0 then [l, m] else if l ≠ 0 then [l] else [] := by
    rcases n with _ | n <;> rcases m with _ | m <;> rcases l with _ | l <;> rfl
  have hless : (ofRelease [a, b, c]).less (ofRelease [x, y, z]) =
      (compareRanks (trimZeros [a, b, c]) (trimZeros [x, y, z]) == .lt) := by
    cases hc : compareRanks (trimZeros [a, b, c]) (trimZeros [x, y, z]) <;>
      simp only [less, order, ofRelease, hc] <;> rfl
  rw [hless, htrim, htrim, beq_iff_eq]
  split_ifs <;>
    simp only [compareRanks, compareLists, Ordering.then_eq_lt, Nat.compare_eq_lt, Nat.compare_eq_eq,
      reduceCtorEq, and_true, and_false, or_false, false_iff, true_iff] <;>
    omega

end Version

/-! ### Compatible releases -/

namespace Specifier

open Version

theorem segments_release (n : Nat) (ns : List Nat) :
    segments (ofRelease (n :: ns)).render = ['0'] :: (n :: ns).map fun n => (toString n).toList := by
  have hbang : ∀ c ∈ (ofRelease (n :: ns)).render.toList.reverse, (c != '!') = true := by
    intro c hc
    rcases mem_render (List.mem_reverse.1 hc) with h | rfl
    · rw [bne_iff_ne]
      rintro rfl
      revert h
      decide
    · decide
  have hcut (m : Nat) : cutStage (toString m).toList = [(toString m).toList] := by
    have h : ((toString m).toList ++ []).dropWhile isAsciiDigit = [] := dropWhile_toString m (by simp [NoDigit])
    rw [List.append_nil] at h
    simp only [cutStage, h, List.dropWhile_nil, List.isEmpty_nil, Bool.or_true, Bool.true_or, if_true]
  have hpoint : ∀ l ∈ (n :: ns).map fun n => (toString n).toList, '.' ∉ l := by
    intro l hl hmem
    obtain ⟨m, -, rfl⟩ := List.mem_map.1 hl
    exact absurd (isAsciiDigit_of_mem hmem) (by decide)
  have hcuts : ((n :: ns).map fun n => (toString n).toList).flatMap cutStage =
      (n :: ns).map fun n => (toString n).toList := by
    rw [List.flatMap_map]
    simp only [hcut, ← List.map_eq_flatMap]
  rw [segments, List.takeWhile_eq_self_iff.2 hbang, List.reverse_reverse, Nat.sub_self, Nat.zero_sub, List.take_zero,
    render_toList, List.splitOn_intercalate _ hpoint (by simp), hcuts]
  rfl

theorem allButLast_release (x y z : Nat) :
    allButLast (ofRelease [x, y, z]).render = "0!" ++ (ofRelease [x, y]).render := by
  have hsuffix (m : Nat) : isSuffixSegment (toString m).toList = false := by
    cases hm : (toString m).toList with
    | nil => exact absurd hm (toString_ne_nil m)
    | cons c cs =>
      have hc : isAsciiDigit c = true := isAsciiDigit_of_mem (n := m) (hm ▸ List.mem_cons_self)
      simp only [isSuffixSegment, List.any_cons, List.any_nil, Bool.or_false, Bool.or_eq_false_iff]
      refine ⟨?_, ?_, ?_, ?_, ?_⟩ <;>
        (refine Bool.eq_false_iff.2 fun h => ?_
         obtain ⟨t, ht⟩ := List.isPrefixOf_iff_prefix.1 h
         obtain ⟨rfl, -⟩ := List.cons.inj ht
         revert hc
         decide)
  have hzero : isSuffixSegment ['0'] = false := by decide
  rw [allButLast, segments_release]
  simp only [List.map_cons, List.map_nil, List.takeWhile_cons, hsuffix, hzero, Bool.not_false, if_true,
    List.takeWhile_nil, List.dropLast_cons_cons, List.dropLast_singleton, render_ofRelease, String.ofList_toList]
  rfl

theorem beginsWith_release (a b c x y : Nat) :
    beginsWith (ofRelease [a, b, c]) ("0!" ++ (ofRelease [x, y]).render) = true ↔ x = a ∧ y = b := by
  have hnumber (m : Nat) : (!(toString m).toList.isEmpty && (toString m).toList.all isAsciiDigit) = true := by
    rw [Bool.and_eq_true, Bool.not_eq_true', List.isEmpty_eq_false_iff, List.all_eq_true]
    exact ⟨toString_ne_nil m, fun c => isAsciiDigit_of_mem⟩
  have hzero : (! ['0'].isEmpty && ['0'].all isAsciiDigit) = true := by decide
  have hpad : padRelease (segments (ofRelease [a, b, c]).render) (segments (ofRelease [x, y]).render) =
      segments (ofRelease [a, b, c]).render := by
    simp only [padRelease, segments_release, List.map_cons, List.map_nil, List.takeWhile_cons, hnumber, hzero,
      if_true, List.takeWhile_nil]
    simp
  rw [beginsWith, normalText, parse?_epoch, publicText_ofRelease]
  dsimp only
  rw [hpad, segments_release, segments_release]
  simp only [List.map_cons, List.map_nil, List.length_cons, List.length_nil, List.take_succ_cons,
    List.take_zero, beq_iff_eq, List.cons.injEq, true_and, and_true]
  constructor
  · rintro ⟨ha, hb⟩
    exact ⟨toString_injective (String.toList_injective ha.symm), toString_injective (String.toList_injective hb.symm)⟩
  · rintro ⟨rfl, rfl⟩
    exact ⟨rfl, rfl⟩

theorem parseSet?_compatible (x y z : Nat) : parseSet? ("~=" ++ (ofRelease [x, y, z]).render) =
    some [⟨.compatible, (ofRelease [x, y, z]).render⟩] := by
  have hchars : ("~=" ++ (ofRelease [x, y, z]).render).toList =
      '~' :: '=' :: (ofRelease [x, y, z]).render.toList := by
    rw [String.toList_append]
    rfl
  have hunblank : ∀ c ∈ '~' :: '=' :: (ofRelease [x, y, z]).render.toList, isBlank c = false := by
    simp only [List.forall_mem_cons]
    exact ⟨by decide, by decide, fun c => unblank_of_mem⟩
  have hcomma : ∀ c ∈ '~' :: '=' :: (ofRelease [x, y, z]).render.toList, c ≠ ',' := by
    simp only [List.forall_mem_cons]
    refine ⟨by decide, by decide, fun c hc => ?_⟩
    rintro rfl
    rcases mem_render hc with h | h <;> revert h <;> decide
  have hparse : Specifier.parse? ("~=" ++ (ofRelease [x, y, z]).render) =
      some ⟨.compatible, (ofRelease [x, y, z]).render⟩ := by
    have hfits : fits .compatible (ofRelease [x, y, z]).render = true := by
      rw [fits, parse?_release]
      rfl
    rw [Specifier.parse?, hchars]
    simp only [operators, List.findSome?_cons]
    rw [show "===".toList.isPrefixOf ('~' :: '=' :: (ofRelease [x, y, z]).render.toList) = false from rfl,
      show "~=".toList.isPrefixOf ('~' :: '=' :: (ofRelease [x, y, z]).render.toList) = true from rfl,
      if_neg Bool.false_ne_true, if_pos rfl]
    dsimp only
    rw [show ('~' :: '=' :: (ofRelease [x, y, z]).render.toList).drop "~=".length =
      (ofRelease [x, y, z]).render.toList from rfl, trim_of_unblank fun c => unblank_of_mem, String.ofList_toList,
      if_pos hfits]
  have hsplit : ('~' :: '=' :: (ofRelease [x, y, z]).render.toList).splitOn ',' =
      ['~' :: '=' :: (ofRelease [x, y, z]).render.toList] := by
    have h : List.splitOn ',' ([','].intercalate ['~' :: '=' :: (ofRelease [x, y, z]).render.toList]) =
        ['~' :: '=' :: (ofRelease [x, y, z]).render.toList] := List.splitOn_intercalate ','
      (List.forall_mem_singleton.2 fun hmem => hcomma _ hmem rfl) (by simp)
    rwa [List.intercalate_singleton] at h
  have hfull : ("~=" ++ (ofRelease [x, y, z]).render).isEmpty = false := by
    rw [Bool.eq_false_iff, ne_eq, String.isEmpty_iff]
    intro h
    cases hchars.symm.trans (congrArg String.toList h)
  rw [parseSet?, hchars, hsplit, List.map_singleton, trim_of_unblank hunblank, ← hchars, String.ofList_toList,
    List.filter_cons_of_pos (by rw [hfull]; rfl), List.filter_nil, List.mapM_cons, hparse]
  rfl

end Specifier

/-! ### Carets -/

open Version

/-- The order of releases: the first number in which they differ decides. -/
def releaseLe : List Nat → List Nat → Bool
  | x :: xs, a :: as => x < a || x == a && releaseLe xs as
  | xs, _ => xs.isEmpty

/-- What PEP 440 says of `~=` with three numbers: the releases that are not below and have the same first two
numbers. -/
def VersionMatcher.Compatible (matcher : VersionMatcher) : Prop :=
  ∀ x y z a b c : Nat, matcher ("~=" ++ releaseOf [x, y, z]) (releaseOf [a, b, c]) =
    some (decide (releaseLe [x, y, z] [a, b, c] = true ∧ x = a ∧ y = b))

theorem le_release {a b c x y z : Nat} :
    releaseLe [x, y, z] [a, b, c] = true ↔ ¬ (a < x ∨ a = x ∧ (b < y ∨ b = y ∧ c < z)) := by
  simp only [releaseLe, List.isEmpty_nil, Bool.and_true, Bool.or_eq_true, Bool.and_eq_true, decide_eq_true_eq,
    beq_iff_eq]
  omega

theorem Specifier.matcher_compatible : Specifier.matcher.Compatible := by
  intro x y z a b c
  have hallows : Specifier.allows ⟨.compatible, (ofRelease [x, y, z]).render⟩ (ofRelease [a, b, c]) =
      decide (releaseLe [x, y, z] [a, b, c] = true ∧ x = a ∧ y = b) := by
    rw [Bool.eq_iff_iff, decide_eq_true_iff, le_release, Specifier.allows]
    dsimp only
    rw [Version.parse?_release]
    dsimp only
    rw [Bool.and_eq_true, Specifier.allButLast_release, Specifier.beginsWith_release, Specifier.reaches,
      Bool.not_eq_true', ← Bool.not_eq_true]
    have hless := less_release a b c x y z
    rw [show (ofRelease [a, b, c]).withoutLocal = ofRelease [a, b, c] from rfl, hless]
  rw [releaseOf, releaseOf, ← render_ofRelease, ← render_ofRelease, Specifier.matcher,
    Specifier.parseSet?_compatible, Option.map_some, Version.parse?_release]
  dsimp only
  rw [List.all_cons, List.all_nil, Bool.and_true, hallows]

def AgreesToLead : List Nat → List Nat → Prop
  | n :: ns, m :: ms => n = m ∧ (n = 0 → AgreesToLead ns ms)
  | _, _ => True

def CaretAllows (wanted release : List Nat) : Prop :=
  releaseLe wanted release = true ∧ AgreesToLead wanted release

theorem checkVersion_caret {matcher : VersionMatcher} (hm : matcher.Compatible) (x y z a b c : Nat) :
    checkVersionBy matcher (releaseOf [a, b, c]) ("^" ++ releaseOf [x, y, z]) = .ok () ↔
      x = a ∧ y = b ∧ z ≤ c := by
  have hchars : ("^" ++ releaseOf [x, y, z]).toList = '^' :: (releaseOf [x, y, z]).toList := by
    rw [String.toList_append]
    rfl
  have hspec : versionSpecification ("^" ++ releaseOf [x, y, z]) = "~=" ++ releaseOf [x, y, z] := by
    rw [versionSpecification, hchars]
    dsimp only
    rw [if_neg (by decide), if_pos (by decide), String.ofList_toList]
  have hfull : ("^" ++ releaseOf [x, y, z]).isEmpty = false := by
    rw [Bool.eq_false_iff, ne_eq, String.isEmpty_iff]
    intro h
    cases hchars.symm.trans (congrArg String.toList h)
  rw [checkVersionBy, hfull, if_neg Bool.false_ne_true, hspec]
  dsimp only
  rw [hm]
  by_cases h : releaseLe [x, y, z] [a, b, c] = true ∧ x = a ∧ y = b
  · rw [decide_eq_true h]
    rw [le_release] at h
    exact ⟨fun _ => by omega, fun _ => rfl⟩
  · rw [decide_eq_false h]
    rw [le_release] at h
    refine ⟨fun h => ?_, fun _ => by omega⟩
    cases h

/-- With a matcher that knows compatible releases, a pragma with a caret accepts the releases that carets mean
if and only if the first number is zero and the second is not; what it accepts is any release with the same
first two numbers that is not below. -/
theorem caret_iff {matcher : VersionMatcher} (hm : matcher.Compatible) (x y z : Nat) :
    (∀ a b c, checkVersionBy matcher (releaseOf [a, b, c]) ("^" ++ releaseOf [x, y, z]) = .ok () ↔
      x = a ∧ y = b ∧ z ≤ c) ∧
    ((∀ a b c, checkVersionBy matcher (releaseOf [a, b, c]) ("^" ++ releaseOf [x, y, z]) = .ok () ↔
      CaretAllows [x, y, z] [a, b, c]) ↔ x = 0 ∧ y ≠ 0) := by
  have hcaret (a b c : Nat) : CaretAllows [x, y, z] [a, b, c] ↔
      ¬ (a < x ∨ a = x ∧ (b < y ∨ b = y ∧ c < z)) ∧ x = a ∧ (x = 0 → y = b ∧ (y = 0 → z = c)) := by
    rw [CaretAllows, le_release]
    simp [AgreesToLead]
  refine ⟨checkVersion_caret hm x y z, ?_⟩
  simp only [checkVersion_caret hm, hcaret]
  constructor
  · intro h
    -- The next release of the second number, or of the third, tells the two apart.
    have hsecond := h x (y + 1) z
    have hthird := h x y (z + 1)
    omega
  · rintro ⟨rfl, hy⟩ a b c
    omega

theorem caret_iff_specifiers : Specifier.matcher.Compatible ∧
    ∀ a b c, checkVersion (releaseOf [a, b, c]) ("^" ++ releaseOf [0, 1, 0]) = .ok () ↔
      CaretAllows [0, 1, 0] [a, b, c] :=
  ⟨Specifier.matcher_compatible, (caret_iff Specifier.matcher_compatible 0 1 0).2.2 (by decide)⟩

/-- The release `1.3.0` is one that `^1.2.3` means, and is refused. -/
theorem caret_refuses : CaretAllows [1, 2, 3] [1, 3, 0] ∧
    checkVersion "1.3.0" "^1.2.3" = .error (.incompatible "~=1.2.3" "1.3.0") := by
  refine ⟨⟨by decide, by simp [AgreesToLead]⟩, by decide +kernel⟩

end LoopEscape

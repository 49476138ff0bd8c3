import Mathlib
import LoopEscape.Grammar.Doubtful

/-!
# Triples for parsers

What a parser gives is said by triples: from tokens of a kind on, every result has a property, and the
tokens left are of the kind again.  A parser that fails gives nothing, so the triples say nothing of it.
-/

set_option mvcgen.warning false

namespace LoopEscape

open Std.Do

namespace Parser

instance : LawfulMonad Parser := LawfulMonad.mk' Parser
  (fun p => by
    funext s far
    show andThen p (fun a => result (id a)) s far = p s far
    unfold andThen
    split <;> simp_all [result])
  (fun _ _ => rfl)
  (fun p f g => by
    funext s far
    show andThen (andThen p f) g s far = andThen p (fun a => andThen (f a) g) s far
    unfold andThen
    rcases p s far with ⟨_ | ⟨a, s'⟩, far'⟩ <;> rfl)

instance : WPMonad Parser (.arg ParseState (.arg Token .pure)) where
  wp p :=
    { trans := fun Q s far => ⌜∀ a s' far', p s far = (some (a, s'), far') → (Q.1 a s' far').down⌝
      conjunctiveRaw := fun Q₁ Q₂ => SPred.bientails.iff.2
        ⟨fun s far h => ⟨fun a s' far' heq => (h a s' far' heq).1, fun a s' far' heq => (h a s' far' heq).2⟩,
          fun s far h a s' far' heq => ⟨h.1 a s' far' heq, h.2 a s' far' heq⟩⟩ }
  wp_pure a := by
    ext Q s far
    constructor
    · intro h
      exact h a s far rfl
    · rintro h a' s' far' ⟨⟩
      exact h
  wp_bind p f := by
    ext Q s far
    constructor
    · intro h a s' far' hp b s'' far'' hf
      refine h b s'' far'' ?_
      show andThen p f s far = _
      simp only [andThen, hp, hf]
    · intro h b s'' far'' hrun
      replace hrun : andThen p f s far = _ := hrun
      unfold andThen at hrun
      split at hrun
      · cases hrun
      · next a s' far' hp => exact h a s' far' hp b s'' far'' hrun

variable {α : Type} {T : Token → Prop} {P : α → Prop}

/-- From tokens of the kind `T` on, the parser gives results with the property and leaves such tokens. -/
abbrev Gives (T : Token → Prop) (p : Parser α) (P : α → Prop) : Prop :=
  ⦃fun s _ => ⌜∀ t ∈ s.rest, T t⌝⦄ p ⦃⇓ a s _ => ⌜P a ∧ ∀ t ∈ s.rest, T t⌝⦄

abbrev Keeps (T : Token → Prop) (p : Parser α) : Prop :=
  ⦃fun s _ => ⌜∀ t ∈ s.rest, T t⌝⦄ p ⦃⇓ _ s _ => ⌜∀ t ∈ s.rest, T t⌝⦄

end Parser

def FieldOf (T : Token → Prop) (expr : List Char) : Prop :=
  ∀ t ∈ (lex (String.ofList ('(' :: expr ++ [')']))).tokens, ∀ start stop, T { t with start, stop }

class Vocabulary (T : outParam (Token → Prop)) (N : outParam (String → Prop)) : Prop where
  name : ∀ t, T t → t.isIdentifier = true → N (Parser.identifierText t)
  -- names with points between them are as good as the first
  dotted : ∀ x xs, N x → N (".".intercalate (x :: xs))
  star : N "*"
  field : ∀ t, T t → ∀ ps,
    Reading.allPieces (Reading.Quoted.of t.text.toList).raw (Reading.Quoted.of t.text.toList).body = some ps →
      ∀ p ∈ ps, ∀ expr ∈ p.exprs, FieldOf T expr

theorem Vocabulary.any : Vocabulary (fun _ => True) fun _ => True :=
  ⟨fun _ _ _ => trivial, fun _ _ _ => trivial, trivial, fun _ _ _ _ _ _ _ _ _ _ _ _ => trivial⟩

/-! ### Single tokens -/

namespace Parser

variable {α : Type} {T : Token → Prop} {N : String → Prop} {P : α → Prop}

theorem fail_gives : Gives T (fail : Parser α) P := by
  rintro s far - a s' far' ⟨⟩

theorem orElse_gives {p q : Parser α} (hp : Gives T p P) (hq : Gives T q P) : Gives T (p <|> q) P := by
  intro s far hs a s' far' hrun
  replace hrun : orElse p (fun _ => q) s far = _ := hrun
  unfold orElse at hrun
  split at hrun
  · exact hq _ _ hs _ _ _ hrun
  · exact hp _ _ hs _ _ _ hrun

theorem onTokens_gives {p : Parser α} (hp : Gives T p P) {ts : List Token} (hts : ∀ t ∈ ts, T t) {a : α}
    (h : onTokens p ts = some a) : P a := by
  obtain ⟨⟨a', s⟩, hrun, rfl⟩ := Option.map_eq_some_iff.1 h
  exact (hp ⟨ts, ⟨0, 0⟩⟩ endToken hts a' s _ (Prod.ext hrun rfl)).1

-- The vocabulary tells which kind of tokens is meant, also where nothing is said of identifiers.
@[spec]
theorem fail_never [Vocabulary T N] : Gives T (fail : Parser α) fun _ => False := fail_gives

@[spec]
theorem peek_gives [Vocabulary T N] : Gives T peek fun t => t = endToken ∨ T t := by
  rintro s far hs a s' far' ⟨⟩
  refine ⟨?_, hs⟩
  cases hr : s.rest with
  | nil => exact .inl rfl
  | cons t rest => exact .inr (hs t (by simp [hr]))

@[spec]
theorem peekSecond_gives [Vocabulary T N] : Keeps T peekSecond := by
  rintro s far hs a s' far' ⟨⟩
  exact hs

@[spec]
theorem lastStop_gives [Vocabulary T N] : Keeps T lastStop := by
  rintro s far hs a s' far' ⟨⟩
  exact hs

@[spec]
theorem remaining_gives [Vocabulary T N] : Keeps T remaining := by
  rintro s far hs a s' far' ⟨⟩
  exact hs

@[spec]
theorem next_gives [Vocabulary T N] : Gives T next T := by
  rintro s far hs a s' far' hnext
  unfold next at hnext
  split at hnext
  · cases hnext
  · next t rest hr =>
    cases hnext
    simp only [hr, List.forall_mem_cons] at hs
    exact hs

@[spec]
theorem expect_gives [Vocabulary T N] (fits : Token → Bool) : Gives T (expect fits) fun t => T t ∧ fits t = true := by
  intro s far hs t s' far' hrun
  obtain ⟨rest, last⟩ := s
  cases rest with
  | nil =>
    replace hrun : (if fits endToken then next else fail : Parser Token) ⟨[], last⟩ _ = _ := hrun
    split at hrun <;> cases hrun
  | cons u rest =>
    replace hrun : (if fits u then next else fail : Parser Token) ⟨u :: rest, last⟩ _ = _ := hrun
    split at hrun
    · next hfits =>
      cases hrun
      exact ⟨⟨hs _ (by simp), hfits⟩, fun t ht => hs t (by simp [ht])⟩
    · cases hrun

@[spec]
theorem ofOption_gives [Vocabulary T N] {o : Option α} : Gives T (ofOption o) fun a => o = some a := by
  cases o with
  | none => exact fail_gives
  | some a =>
    rintro s far hs a' s' far' ⟨⟩
    exact ⟨rfl, hs⟩

variable [hv : Vocabulary T N]

include hv

@[spec]
theorem here_gives : Keeps T here := by
  mvcgen [here] with grind

@[spec]
theorem takeIf_gives (fits : Token → Bool) : Keeps T (takeIf fits) := by
  mvcgen [takeIf] with grind

@[spec]
theorem identifier_gives : Gives T identifier N := by
  have hname := hv.name
  mvcgen [identifier] with grind

@[spec]
theorem ofKind_gives (kind : TokenKind) : Keeps T (ofKind kind) := by
  mvcgen [ofKind] with grind

@[spec]
theorem op?_gives (x : String) : Keeps T (op? x) := takeIf_gives _

@[spec]
theorem word?_gives (x : String) : Keeps T (word? x) := takeIf_gives _

@[spec]
theorem opIf_gives (b : Bool) (x : String) : Keeps T (opIf b x) := by
  unfold opIf
  split
  · exact op?_gives x
  · exact fun s far hs a s' far' heq => by cases heq; exact hs

@[spec]
theorem op_gives (x : String) : Keeps T (op x) := by
  mvcgen [op] with grind

@[spec]
theorem word_gives (x : String) : Keeps T (word x) := by
  mvcgen [word] with grind

@[spec]
theorem isAtOp_gives (xs : List String) : Keeps T (isAtOp xs) := by
  mvcgen [isAtOp] with grind

@[spec]
theorem isAtWord_gives (xs : List String) : Keeps T (isAtWord xs) := by
  mvcgen [isAtWord] with grind

/-! ### Repetition and choice -/

omit hv in
theorem collect_gives {p : Parser (Option α)} (hp : Gives T p fun o => ∀ a ∈ o, P a) (fuel : Nat) :
    Gives T (collect p fuel) fun l => ∀ a ∈ l, P a := by
  induction fuel with
  | zero => exact fail_gives
  | succ fuel ih => mvcgen [collect, hp, ih] with grind

theorem many_gives {p : Parser (Option α)} (hp : Gives T p fun o => ∀ a ∈ o, P a) :
    Gives T (many p) fun l => ∀ a ∈ l, P a := by
  have hcollect := collect_gives hp
  mvcgen [many, hcollect]

omit hv in
theorem iterate_gives {p : α → Parser (Option α)} (hp : ∀ a, P a → Gives T (p a) fun o => ∀ a ∈ o, P a)
    (fuel : Nat) : ∀ a, P a → Gives T (iterate p fuel a) P := by
  induction fuel with
  | zero => exact fun _ _ => fail_gives
  | succ fuel ih =>
    intro a ha
    have hstep := hp a ha
    mvcgen [iterate, hstep, ih] with grind

theorem chain_gives {p : α → Parser (Option α)} (hp : ∀ a, P a → Gives T (p a) fun o => ∀ a ∈ o, P a)
    {a : α} (ha : P a) : Gives T (chain p a) P := by
  have hiterate := iterate_gives hp
  mvcgen [chain, hiterate] with grind

theorem commaList_gives {item : Parser α} (h : Gives T item P) (starts : Token → Bool) :
    Gives T (commaList item starts) fun r => ∀ a ∈ r.1, P a := by
  have hchain := @chain_gives (List α × Bool) T N (fun r => ∀ a ∈ r.1, P a) _
  mvcgen [commaList, h, hchain] with grind

theorem moreItems_gives {item : Parser α} (h : Gives T item P) (starts : Token → Bool) :
    Gives T (moreItems item starts) fun l => ∀ a ∈ l, P a := by
  have hlist := commaList_gives h
  mvcgen [moreItems, hlist] with grind

end Parser

end LoopEscape

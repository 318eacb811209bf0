import ReAct.Proofs.Tool.Remainder
import ReAct.Tool.Positional

/-!
# Reading by position agrees with the grammar

A tool input that is read by position is read as the grammar says.  From the position of an end of
the text, a part of the reading leads to the position of what the grammar leaves of that end; it
never asks for a character that is not there, and no loop takes more rounds than the text has
characters and one (`read_eq`).  What a reading refuses is not passed on to a tool call
(`arguments_eq`).

Each loop is followed by an induction on what is left of the text, one step of it at a time.  The
induction knows the number of rounds only to be greater than what is left.

## Main Definitions

* `position`: where an end of a text begins
* `placed`, `placedEnd`, `stepped`, `refusing`: results of the grammar as results by position
-/

namespace ReAct.Tool.ActionInput.Positional

open Text

/-! ## Positions -/

/-- Where an end of a text begins. -/
def position (text s : List Char) : Nat :=
  text.length - s.length

variable {text s rest : List Char} {c : Char} {rounds : Nat}

/-- What stands from the position of an end of the text on is that end. -/
theorem drop_position (h : s <:+ text) : text.drop (position text s) = s :=
  (List.suffix_iff_eq_drop.mp h).symm

/-- Behind some characters, the position is as many further. -/
theorem position_add (before : List Char) (h : before ++ s <:+ text) :
    position text (before ++ s) + before.length = position text s := by
  have hle := h.length_le
  rw [List.length_append] at hle
  rw [position, position, List.length_append]
  omega

theorem position_cons (h : c :: s <:+ text) : position text (c :: s) + 1 = position text s :=
  position_add [c] h

/-- An end that is not empty begins inside of the text. -/
theorem position_lt (h : c :: s <:+ text) : position text (c :: s) < text.length := by
  have hle := h.length_le
  rw [List.length_cons] at hle
  rw [position, List.length_cons]
  omega

theorem position_nil (text : List Char) : position text [] = text.length := rfl

/-- The character at the position of an end is its first, so it can be asked for. -/
theorem charAt_position (h : c :: s <:+ text) : charAt text (position text (c :: s)) = .ok c := by
  have hget : text[position text (c :: s)]? = some c := by
    rw [← List.head?_drop, drop_position h, List.head?_cons]
  rw [charAt, hget]

/-- Whether a character stands there can be asked of the empty end, too. -/
theorem startsAt_position (h : s <:+ text) (c : Char) :
    startsAt text c (position text s) = (s.head? == some c) := by
  rw [startsAt, drop_position h]

/-- What stands between the positions of two ends of a text. -/
theorem slice_position {before : List Char} (h : before ++ rest <:+ text) :
    slice text (position text (before ++ rest)) (position text rest) = before := by
  have hlength : position text rest - position text (before ++ rest) = before.length := by
    rw [← position_add before h, Nat.add_sub_cancel_left]
  rw [slice, drop_position h, hlength, List.take_left]

/-! ## Loops -/

theorem ok_bind {α β : Type} (a : α) (f : α → Except Fault β) : (Except.ok a).bind f = f a := rfl

/-- A step without a result uses up a round. -/
theorem loop_inl {σ α : Type} {step : σ → Except Fault (σ ⊕ α)} {state next : σ}
    (h : step state = .ok (.inl next)) (rounds : Nat) :
    loop step (rounds + 1) state = loop step rounds next := by
  rw [loop, h]
  rfl

/-- A step with a result ends the loop. -/
theorem loop_inr {σ α : Type} {step : σ → Except Fault (σ ⊕ α)} {state : σ} {result : α}
    (h : step state = .ok (.inr result)) (rounds : Nat) :
    loop step (rounds + 1) state = .ok result := by
  rw [loop, h]
  rfl

/-- A step that goes wrong ends it, too. -/
theorem loop_error {σ α : Type} {step : σ → Except Fault (σ ⊕ α)} {state : σ} {fault : Fault}
    (h : step state = .error fault) (rounds : Nat) :
    loop step (rounds + 1) state = .error fault := by
  rw [loop, h]
  rfl

/-! ## Steps -/

/-- A step that asks for the character at the start of an end of the text. -/
theorem ask_cons {α : Type} (h : c :: s <:+ text) (f : Char → Except Fault α) (e : Except Fault α) :
    (if position text (c :: s) < text.length then
      (charAt text (position text (c :: s))).bind f else e) = f c := by
  rw [if_pos (position_lt h), charAt_position h]
  rfl

/-- A step that asks for a character behind the text, if there were one. -/
theorem ask_nil {α : Type} (f : Char → Except Fault α) (e : Except Fault α) :
    (if position text [] < text.length then (charAt text (position text [])).bind f else e) = e :=
  if_neg (Nat.lt_irrefl _)

/-- One step over a character, or up to it. -/
theorem scanStep_cons (p : Char → Bool) (h : c :: s <:+ text) :
    scanStep text p (position text (c :: s)) =
      .ok (if p c then .inl (position text s) else .inr (position text (c :: s))) := by
  rw [scanStep, ask_cons h, position_cons h]

theorem scanStep_nil (p : Char → Bool) (text : List Char) :
    scanStep text p (position text []) = .ok (.inr (position text [])) :=
  ask_nil _ _

/-- Passing over characters of a kind leads to where they end. -/
theorem scanAt_position (p : Char → Bool) (h : s <:+ text) (hrounds : s.length < rounds) :
    scanAt text rounds p (position text s) = .ok (position text (s.dropWhile p)) := by
  induction s generalizing rounds with
  | nil =>
      obtain ⟨rounds, rfl⟩ := Nat.exists_eq_succ_of_ne_zero (Nat.ne_zero_of_lt hrounds)
      exact loop_inr (scanStep_nil p text) rounds
  | cons c s ih =>
      obtain ⟨rounds, rfl⟩ := Nat.exists_eq_succ_of_ne_zero (Nat.ne_zero_of_lt hrounds)
      have hstep := scanStep_cons p h
      rw [List.dropWhile_cons]
      cases hc : p c with
      | true =>
          rw [hc, if_pos rfl] at hstep
          rw [scanAt, loop_inl hstep]
          exact ih ((List.suffix_cons c s).trans h) (Nat.lt_of_succ_lt_succ hrounds)
      | false =>
          rw [hc, if_neg Bool.false_ne_true] at hstep
          exact loop_inr hstep rounds

/-- Passing over blanks. -/
theorem skipAt_position (h : s <:+ text) (hrounds : s.length < rounds) :
    skipAt text rounds (position text s) = .ok (position text (skip s)) :=
  scanAt_position Json.isSpace h hrounds

/-! ## Quoted texts -/

/-- A result of the grammar with what is left as a position. -/
def placed {α : Type} (text : List Char) :
    (result : Except Error (α × List Char)) → Except Fault (α × Nat)
  | .ok (a, rest) => .ok (a, position text rest)
  | .error e => refuse e

/-- Without three more quotes the grammar refuses the text, by induction on it. -/
theorem untilTriple_of_none {quote : Char} (h : afterFirst? [quote, quote, quote] s = none) :
    untilTriple quote s = .error .unterminatedTriple := by
  induction s with
  | nil => rfl
  | cons c s ih =>
      rw [afterFirst?, first?] at h
      split at h
      · cases h
      · rename_i hafter
        rw [untilTriple, hafter]
        dsimp only
        rw [ih h]
        rfl

/-- With them it reads up to the first place where they stand, by induction on the text. -/
theorem untilTriple_of_some {quote : Char} (h : afterFirst? [quote, quote, quote] s = some rest) :
    ∃ inside, s = inside ++ ([quote, quote, quote] ++ rest) ∧
      untilTriple quote s = .ok (inside, rest) := by
  induction s with
  | nil => cases h
  | cons c s ih =>
      rw [afterFirst?, first?] at h
      split at h
      · rename_i found hafter
        cases h
        refine ⟨[], (after?_eq_some.mp hafter).trans (List.nil_append _).symm, ?_⟩
        rw [untilTriple, hafter]
      · rename_i hafter
        obtain ⟨inside, hs, hread⟩ := ih h
        refine ⟨c :: inside, congrArg (c :: ·) hs, ?_⟩
        rw [untilTriple, hafter]
        dsimp only
        rw [hread]
        rfl

/-- At the end of the text a literal is refused; no character is asked for. -/
theorem quotedStep_nil (text : List Char) (quote : Char) (read : List Char) :
    quotedStep text quote (position text [], read) = refuse .unterminatedText :=
  ask_nil _ _

/-- A back-slash asks for the character behind it, which is there. -/
theorem quotedStep_escape {d : Char} (h : '\\' :: d :: s <:+ text) (quote : Char)
    (read : List Char) :
    quotedStep text quote (position text ('\\' :: d :: s), read) =
      .ok (.inl (position text s, read ++ [d])) := by
  have hd : d :: s <:+ text := (List.suffix_cons '\\' (d :: s)).trans h
  rw [quotedStep, ask_cons h, position_cons h, if_pos ⟨rfl, position_lt hd⟩, charAt_position hd,
    ← position_cons hd, ← position_cons h]
  rfl

/-- A character that escapes nothing: it is no back-slash, or nothing stands behind it. -/
theorem quotedStep_cons (h : c :: s <:+ text) (quote : Char) (read : List Char)
    (hescape : ∀ d more, c = '\\' → s = d :: more → False) :
    quotedStep text quote (position text (c :: s), read) =
      .ok (if c = quote then .inr (read, position text s)
        else .inl (position text s, read ++ [c])) := by
  have hnot : ¬ (c = '\\' ∧ position text s < text.length) := by
    rintro ⟨hslash, hlt⟩
    cases s with
    | nil => exact Nat.lt_irrefl _ hlt
    | cons d more => exact hescape d more hslash rfl
  rw [quotedStep, ask_cons h, position_cons h, if_neg hnot]
  split <;> rfl

/-- Reading up to a quote, behind what has been read before. -/
theorem loop_quotedStep (quote : Char) (h : s <:+ text) (hrounds : s.length < rounds)
    (read : List Char) :
    loop (quotedStep text quote) rounds (position text s, read) =
      placed text ((untilQuote quote s).map fun (inside, rest) => (read ++ inside, rest)) := by
  induction s using untilQuote.induct quote generalizing rounds read with
  -- The cases are those of the search for the quote; each round of the loop takes one of them.
  | case1 =>
      obtain ⟨rounds, rfl⟩ := Nat.exists_eq_succ_of_ne_zero (Nat.ne_zero_of_lt hrounds)
      exact loop_error (quotedStep_nil text quote read) rounds
  | case2 d s ih =>
      obtain ⟨rounds, rfl⟩ := Nat.exists_eq_succ_of_ne_zero (Nat.ne_zero_of_lt hrounds)
      have hs : s <:+ text :=
        ((List.suffix_cons d s).trans (List.suffix_cons '\\' (d :: s))).trans h
      rw [List.length_cons, List.length_cons] at hrounds
      rw [loop_inl (quotedStep_escape h quote read), ih hs (by omega), untilQuote]
      cases untilQuote quote s with
      | error e => rfl
      | ok found => simp [Except.map]
  | case3 s hescape =>
      obtain ⟨rounds, rfl⟩ := Nat.exists_eq_succ_of_ne_zero (Nat.ne_zero_of_lt hrounds)
      have hstep := quotedStep_cons h quote read hescape
      rw [if_pos rfl] at hstep
      rw [loop_inr hstep, untilQuote.eq_3 _ _ _ hescape, if_pos rfl]
      simp [Except.map, placed]
  | case4 d s hescape hd ih =>
      obtain ⟨rounds, rfl⟩ := Nat.exists_eq_succ_of_ne_zero (Nat.ne_zero_of_lt hrounds)
      have hs : s <:+ text := (List.suffix_cons d s).trans h
      have hstep := quotedStep_cons h quote read hescape
      rw [if_neg hd] at hstep
      rw [loop_inl hstep, ih hs (Nat.lt_of_succ_lt_succ hrounds), untilQuote.eq_3 _ _ _ hescape,
        if_neg hd]
      cases untilQuote quote s with
      | error e => rfl
      | ok found => simp [Except.map]

/-- The three characters that decide how a quoted text ends. -/
theorem slice_three (h : c :: s <:+ text) :
    slice text (position text (c :: s)) (position text (c :: s) + 3) = (c :: s).take 3 := by
  rw [slice, drop_position h, Nat.add_sub_cancel_left]

/-- A quoted text by position.  Three quotes are told by the characters between two positions, and
by the grammar by what follows the first quote. -/
theorem quotedAt_position (h : c :: s <:+ text) (hquote : isQuote c = true)
    (hrounds : s.length < rounds) :
    quotedAt text rounds (position text (c :: s)) = placed text (afterQuote c s) := by
  have hkind : c = '\'' ∨ c = '"' := by simpa [isQuote] using hquote
  have hs : s <:+ text := (List.suffix_cons c s).trans h
  unfold quotedAt
  dsimp only
  rw [slice_three h]
  unfold afterQuote
  -- Two more quotes open a triple-quoted text.
  cases hafter : after? [c, c] s with
  | some behind =>
      obtain rfl := after?_eq_some.mp hafter
      have hthree : (c :: ([c, c] ++ behind)).take 3 = [c, c, c] := rfl
      have hbehind : position text (c :: ([c, c] ++ behind)) + 3 = position text behind :=
        position_add [c, c, c] h
      have hdrop : text.drop (position text behind) = behind :=
        drop_position ((List.suffix_append [c, c] behind).trans hs)
      rw [hthree, if_pos (by rcases hkind with rfl | rfl <;> simp), hbehind, find?, hdrop]
      dsimp only
      cases hfirst : afterFirst? [c, c, c] behind with
      | none =>
          rw [untilTriple_of_none hfirst]
          rfl
      | some rest =>
          obtain ⟨inside, hinside, hread⟩ := untilTriple_of_some hfirst
          have hclose : [c, c, c] ++ rest <:+ text :=
            ((List.suffix_append inside _).trans (hinside ▸ List.suffix_rfl)).trans
              ((List.suffix_append [c, c] behind).trans hs)
          have hat : text.length - rest.length - [c, c, c].length =
              position text ([c, c, c] ++ rest) := by
            rw [position, List.length_append, Nat.sub_add_eq, Nat.sub_right_comm]
          rw [hread, Option.map_some, hat]
          dsimp only
          rw [hinside, slice_position (hinside ▸ (List.suffix_append [c, c] behind).trans hs),
            show 3 = [c, c, c].length from rfl, position_add [c, c, c] hclose]
          rfl
  | none =>
      have hnot (quote : Char) : (c :: s).take 3 ≠ [quote, quote, quote] := by
        intro htake
        rw [List.take_succ_cons, List.cons.injEq] at htake
        obtain ⟨rfl, htwo⟩ := htake
        have hs : s = [c, c] ++ s.drop 2 := by rw [← htwo, List.take_append_drop]
        rw [after?_eq_some.mpr hs] at hafter
        cases hafter
      have hthree : ¬ ((c :: s).take 3 = ['\'', '\'', '\''] ∨ (c :: s).take 3 = ['"', '"', '"']) :=
        not_or.mpr ⟨hnot _, hnot _⟩
      rw [if_neg hthree, charAt_position h]
      dsimp only [Except.bind]
      rw [if_pos hquote, position_cons h, loop_quotedStep c hs hrounds]
      cases untilQuote c s <;> rfl

/-! ## Nested lists and objects -/

/-- At the end of the text the search for a bracket is refused. -/
theorem closingStep_nil (text : List Char) (rounds : Nat) (stack : List Char) :
    closingStep text rounds (position text [], stack) = refuse .unbalanced :=
  ask_nil _ _

/-- A step of the search over a quoted text. -/
theorem closingStep_quote (h : c :: s <:+ text) (hquote : isQuote c = true)
    (hrounds : s.length < rounds) (stack : List Char) :
    closingStep text rounds (position text (c :: s), stack) =
      (placed text (afterQuote c s)).bind fun found => .ok (.inl (found.2, stack)) := by
  rw [closingStep, ask_cons h, if_pos hquote, quotedAt_position h hquote hrounds]

/-- A step of the search over any other character. -/
theorem closingStep_bracket (h : c :: s <:+ text) (hquote : isQuote c = false) (rounds : Nat)
    (stack : List Char) :
    closingStep text rounds (position text (c :: s), stack) =
      .ok ((bracket stack c).elim (.inr (position text s)) fun stack =>
        .inl (position text s, stack)) := by
  rw [closingStep, ask_cons h, position_cons h, if_neg (by simp [hquote])]
  cases bracket stack c <;> rfl

/-- What is left behind a closing bracket as a position. -/
def placedEnd (text : List Char) : (result : Except Error (List Char)) → Except Fault Nat
  | .ok rest => .ok (position text rest)
  | .error e => refuse e

/-- The search for a closing bracket, with any bound on the steps of the grammar that is not below
the length of what is left, and with more rounds than that. -/
theorem loop_closingStep {bound turns : Nat} (h : s <:+ text) (hbound : s.length ≤ bound)
    (hrounds : s.length < rounds) (hturns : s.length < turns) (stack : List Char) :
    loop (closingStep text rounds) turns (position text s, stack) =
      placedEnd text (closeWithin bound stack s) := by
  induction bound generalizing s turns stack with
  | zero =>
      obtain rfl := List.length_eq_zero_iff.mp (Nat.le_zero.mp hbound)
      obtain ⟨turns, rfl⟩ := Nat.exists_eq_succ_of_ne_zero (Nat.ne_zero_of_lt hturns)
      exact loop_error (closingStep_nil text rounds stack) turns
  | succ bound ih =>
      obtain ⟨turns, rfl⟩ := Nat.exists_eq_succ_of_ne_zero (Nat.ne_zero_of_lt hturns)
      cases s with
      | nil => exact loop_error (closingStep_nil text rounds stack) turns
      | cons c s =>
          have hs : s <:+ text := (List.suffix_cons c s).trans h
          rw [List.length_cons] at hbound hrounds hturns
          -- A quoted text is skipped as a whole, so the induction is on a bound and not on the
          -- text.
          cases hquote : isQuote c with
          | true =>
              have hstep := closingStep_quote h hquote (Nat.lt_of_succ_lt hrounds) stack
              rw [closeWithin_quote hquote]
              cases hfound : afterQuote c s with
              | error e =>
                  rw [hfound] at hstep
                  exact loop_error hstep turns
              | ok found =>
                  obtain ⟨inside, rest⟩ := found
                  have hsuffix := suffix_of_afterQuote hfound
                  have hle := hsuffix.length_le
                  rw [hfound] at hstep
                  rw [loop_inl hstep]
                  exact ih (hsuffix.trans hs) (by omega) (by omega) (by omega) stack
          | false =>
              have hstep := closingStep_bracket h hquote rounds stack
              rw [closeWithin_bracket hquote]
              cases hbracket : bracket stack c with
              | some stack =>
                  rw [hbracket] at hstep
                  rw [loop_inl hstep]
                  exact ih hs (by omega) (by omega) (by omega) stack
              | none =>
                  rw [hbracket] at hstep
                  exact loop_inr hstep turns

/-- A nested list or object, as its own text. -/
theorem closingAt_position (h : s <:+ text) (hrounds : s.length < rounds) :
    ((closingAt text rounds (position text s)).bind fun j =>
        .ok (slice text (position text s) j, j)) =
      placed text (nested s) := by
  rw [closingAt, loop_closingStep h (Nat.le_refl _) hrounds hrounds, nested]
  cases hclose : closeWithin s.length [] s with
  | error e => rfl
  | ok rest =>
      obtain ⟨inside, rfl⟩ := suffix_of_closeWithin hclose
      show .ok (slice text (position text (inside ++ rest)) (position text rest), _) = Except.ok _
      rw [slice_position h, List.length_append, Nat.add_sub_cancel, List.take_left]

/-! ## Entries -/

/-- A bare key or value, as what stands between two positions. -/
theorem slice_scanned (p : Char → Bool) (h : s <:+ text) :
    slice text (position text s) (position text (s.dropWhile p)) = s.takeWhile p := by
  have hsplit : s.takeWhile p ++ s.dropWhile p <:+ text := by rwa [List.takeWhile_append_dropWhile]
  have hslice := slice_position hsplit
  rwa [List.takeWhile_append_dropWhile] at hslice

/-- A key by position, up to where it ends. -/
theorem nameAt_position (h : s <:+ text) (hne : s ≠ []) (hrounds : s.length < rounds) :
    nameAt text rounds (position text s) = placed text (key s) := by
  cases s with
  | nil => exact absurd rfl hne
  | cons c s =>
      rw [nameAt, charAt_position h, key]
      dsimp only [Except.bind]
      cases hquote : isQuote c with
      | true =>
          rw [if_pos rfl, if_pos rfl]
          exact quotedAt_position h hquote (Nat.lt_of_succ_lt hrounds)
      | false =>
          rw [if_neg Bool.false_ne_true, if_neg Bool.false_ne_true,
            List.span_eq_takeWhile_dropWhile, scanAt_position _ h hrounds]
          exact congrArg (fun name => Except.ok (name, _)) (slice_scanned _ h)

variable {name : List Char}

/-- Behind a name there is a colon. -/
theorem keyAt_of_colon (h : s <:+ text) (hne : s ≠ []) (hskip : skip s = s)
    (hrounds : s.length < rounds) (hkey : key s = .ok (name, rest)) {behind : List Char}
    (hcolon : skip rest = ':' :: behind) :
    keyAt text rounds (position text s) = .ok (name, position text behind) := by
  have hrest := suffix_of_key hkey
  have hbehind : ':' :: behind <:+ text := hcolon ▸ (suffix_skip rest).trans (hrest.trans h)
  have hless : rest.length < rounds := Nat.lt_of_le_of_lt hrest.length_le hrounds
  rw [keyAt, skipAt_position h hrounds, hskip, ok_bind, nameAt_position h hne hrounds, hkey, placed,
    ok_bind]
  dsimp only
  rw [skipAt_position (hrest.trans h) hless, hcolon, ok_bind, ask_cons hbehind, if_pos rfl,
    position_cons hbehind]

/-- Without a colon behind its name, the entry is refused. -/
theorem keyAt_of_ne (h : s <:+ text) (hne : s ≠ []) (hskip : skip s = s)
    (hrounds : s.length < rounds) (hkey : key s = .ok (name, rest))
    (hcolon : ∀ behind, skip rest ≠ ':' :: behind) :
    keyAt text rounds (position text s) = refuse (.missingColon name) := by
  have hrest := suffix_of_key hkey
  have hless : rest.length < rounds := Nat.lt_of_le_of_lt hrest.length_le hrounds
  rw [keyAt, skipAt_position h hrounds, hskip, ok_bind, nameAt_position h hne hrounds, hkey, placed,
    ok_bind]
  dsimp only
  rw [skipAt_position (hrest.trans h) hless, ok_bind]
  cases hbehind : skip rest with
  | nil => exact ask_nil _ _
  | cons c behind =>
      have hsuffix : c :: behind <:+ text := hbehind ▸ (suffix_skip rest).trans (hrest.trans h)
      have hc : c ≠ ':' := by
        rintro rfl
        exact hcolon behind hbehind
      rw [ask_cons hsuffix, if_neg hc]

/-- A key that the grammar refuses is refused. -/
theorem keyAt_of_error (h : s <:+ text) (hne : s ≠ []) (hskip : skip s = s)
    (hrounds : s.length < rounds) {e : Error} (hkey : key s = .error e) :
    keyAt text rounds (position text s) = refuse e := by
  rw [keyAt, skipAt_position h hrounds, hskip, ok_bind, nameAt_position h hne hrounds, hkey]
  rfl

/-- A value by position, of each of its three kinds. -/
theorem valueAt_position (h : s <:+ text) (hrounds : s.length < rounds) :
    valueAt text rounds (position text s) = placed text (value (skip s)) := by
  have hs := (suffix_skip s).trans h
  have hless : (skip s).length < rounds := Nat.lt_of_le_of_lt (suffix_skip s).length_le hrounds
  rw [valueAt, skipAt_position h hrounds, ok_bind]
  cases hskip : skip s with
  | nil => exact ask_nil _ _
  | cons c behind =>
      rw [hskip] at hs hless
      rw [ask_cons hs, value]
      cases hquote : isQuote c with
      | true =>
          rw [if_pos rfl, if_pos rfl]
          exact quotedAt_position hs hquote (Nat.lt_of_succ_lt hless)
      | false =>
          rw [if_neg Bool.false_ne_true, if_neg Bool.false_ne_true]
          cases hcloser : (closer? c).isSome with
          | true =>
              rw [if_pos rfl, if_pos rfl]
              exact closingAt_position hs hless
          | false =>
              rw [if_neg Bool.false_ne_true, if_neg Bool.false_ne_true,
                List.span_eq_takeWhile_dropWhile, scanAt_position _ hs hless, ok_bind,
                slice_scanned _ hs]
              rfl

/-- A comma is passed over where there is one. -/
theorem commaAt_position (h : s <:+ text) (hrounds : s.length < rounds) :
    commaAt text rounds (position text s) = .ok (position text (behindComma s)) := by
  have hs := (suffix_skip s).trans h
  have hless : (skip s).length < rounds := Nat.lt_of_le_of_lt (suffix_skip s).length_le hrounds
  rw [commaAt, skipAt_position h hrounds, ok_bind, startsAt_position hs]
  by_cases hcomma : ∃ rest, skip s = ',' :: rest
  · obtain ⟨rest, hrest⟩ := hcomma
    rw [hrest] at hs hless
    rw [hrest, if_pos (by simp), position_cons hs,
      skipAt_position ((List.suffix_cons ',' rest).trans hs) (Nat.lt_of_succ_lt hless),
      behindComma_of_comma hrest]
  · have hnot : ((skip s).head? == some ',') = false := by
      cases hskip : skip s with
      | nil => rfl
      | cons c rest =>
          rw [List.head?_cons, beq_eq_false_iff_ne]
          rintro heq
          cases heq
          exact hcomma ⟨rest, hskip⟩
    rw [hnot, if_neg Bool.false_ne_true, behindComma_of_ne (not_exists.mp hcomma)]

/-! ## Objects -/

/-- The result of a step over the entry at the start of an end of the text. -/
def stepped (text : List Char) (read : Fields String) :
    (result : Except Error ((List Char × List Char) × List Char)) →
      Except Fault ((Nat × Fields String) ⊕ Fields String)
  | .ok ((k, v), rest) =>
    .ok (.inl (position text rest, read.put (String.ofList k) (String.ofList v)))
  | .error e => refuse e

/-- A step over an entry: a key, its colon, a value, and a comma that may follow. -/
theorem entryStep_position (h : c :: s <:+ text) (hskip : skip (c :: s) = c :: s)
    (hc : c ≠ '\x7d') (hrounds : (c :: s).length < rounds) (read : Fields String) :
    entryStep text rounds (position text (c :: s), read) = stepped text read (entry (c :: s)) := by
  have hne : c :: s ≠ [] := List.cons_ne_nil c s
  have hstart : startsAt text '\x7d' (position text (c :: s)) = false := by
    rw [startsAt_position h, List.head?_cons, beq_eq_false_iff_ne]
    exact fun heq => hc (Option.some.inj heq)
  rw [entryStep, hstart, if_neg Bool.false_ne_true, if_neg (Nat.not_le.mpr (position_lt h)),
    entry_eq]
  cases hkey : key (c :: s) with
  | error e =>
      rw [keyAt_of_error h hne hskip hrounds hkey]
      rfl
  | ok found =>
      obtain ⟨name, rest⟩ := found
      have hrest := suffix_of_key hkey
      show _ = stepped text read (entryBehind name rest)
      -- Behind the key there is a colon or the entry is at fault.
      by_cases hcolon : ∃ behind, skip rest = ':' :: behind
      · obtain ⟨behind, hbehind⟩ := hcolon
        have hmore : behind <:+ c :: s := (List.suffix_cons ':' behind).trans
          ((hbehind ▸ suffix_skip rest).trans hrest)
        have hless := Nat.lt_of_le_of_lt hmore.length_le hrounds
        rw [keyAt_of_colon h hne hskip hrounds hkey hbehind, ok_bind,
          entryBehind_of_colon hbehind]
        dsimp only
        rw [valueAt_position (hmore.trans h) hless]
        cases hvalue : value (skip behind) with
        | error e => rfl
        | ok found =>
            obtain ⟨v, left⟩ := found
            have hleft : left <:+ behind := (suffix_of_value hvalue).trans (suffix_skip behind)
            rw [placed, ok_bind]
            dsimp only
            rw [commaAt_position (hleft.trans (hmore.trans h))
              (Nat.lt_of_le_of_lt hleft.length_le hless)]
            rfl
      · rw [keyAt_of_ne h hne hskip hrounds hkey (not_exists.mp hcolon),
          entryBehind_of_ne (not_exists.mp hcolon)]
        rfl

/-- A refusal of the grammar as one of the reading. -/
def refusing {α : Type} (result : Except Error α) : Except Fault α :=
  result.mapError fun e => .raised e.failure

/-- The entries of an object.  No more rounds are taken than there are characters. -/
theorem loop_entryStep {bound turns : Nat} (h : s <:+ text) (hskip : skip s = s)
    (hbound : s.length < bound) (hrounds : s.length < rounds) (hturns : s.length < turns)
    (read : Fields String) :
    loop (entryStep text rounds) turns (position text s, read) =
      refusing (entriesWithin bound read s) := by
  induction bound generalizing s turns read with
  | zero => exact absurd hbound (Nat.not_lt_zero _)
  | succ bound ih =>
      obtain ⟨turns, rfl⟩ := Nat.exists_eq_succ_of_ne_zero (Nat.ne_zero_of_lt hturns)
      cases s with
      | nil =>
          refine loop_error ?_ turns
          rw [entryStep, startsAt_position h, if_neg (by simp),
            if_pos (Nat.le_of_eq (position_nil text).symm)]
          rfl
      | cons c s =>
          rw [entriesWithin]
          by_cases hc : c = '\x7d'
          · subst hc
            refine loop_inr ?_ turns
            rw [entryStep, startsAt_position h, if_pos (by simp)]
          -- An entry was read: what is left is shorter, and begins with no space.
          · rw [if_neg hc]
            have hstep := entryStep_position h hskip hc hrounds read
            cases hentry : entry (c :: s) with
            | error e =>
                rw [hentry] at hstep
                exact loop_error hstep turns
            | ok found =>
                obtain ⟨⟨k, v⟩, rest⟩ := found
                obtain ⟨hsuffix, hless⟩ := suffix_of_entry hentry
                rw [hentry] at hstep
                rw [loop_inl hstep]
                exact ih (hsuffix.trans h) (skip_of_entry hentry) (by omega) (by omega) (by omega) _

/-- A whole object, between the brace at its start and the one that closes it. -/
theorem objectAt_position (inside : List Char) (hrounds : inside.length + 1 < rounds) :
    objectAt ('\x7b' :: inside) rounds = refusing (lenient inside) := by
  have hinside : inside <:+ '\x7b' :: inside := List.suffix_cons '\x7b' inside
  have hle := (suffix_skip inside).length_le
  have hone : 0 + 1 = position ('\x7b' :: inside) inside := by
    rw [position, List.length_cons, Nat.add_sub_cancel_left]
  have hzero : 0 = position ('\x7b' :: inside) ('\x7b' :: inside) := (Nat.sub_self _).symm
  have hskip : skipAt ('\x7b' :: inside) rounds 0 = .ok 0 := by
    rw [hzero, skipAt_position List.suffix_rfl hrounds]
    rfl
  rw [objectAt, hskip, ok_bind, if_pos (by rfl), hone, skipAt_position hinside (by omega), ok_bind,
    loop_entryStep ((suffix_skip inside).trans hinside) (skip_skip inside) (Nat.lt_succ_of_le hle)
      (by omega) (by omega)]
  rfl

/-- A tool input is read by position as the grammar reads it. -/
theorem read_eq (input : String) (hrounds : input.length < rounds) :
    read rounds input = refusing (ActionInput.read input) := by
  have hlength := length_trim_le input.toList
  rw [String.length_toList] at hlength
  cases htext : trim input.toList with
  | nil =>
      unfold read ActionInput.read
      rw [htext]
      rfl
  | cons c inside =>
      rw [htext, List.length_cons] at hlength
      have hobject := objectAt_position inside (Nat.lt_of_le_of_lt hlength hrounds)
      -- Only a text that begins with a brace is an object; that is looked at before JSON is tried.
      by_cases hc : c = '\x7b'
      · subst hc
        unfold read
        rw [htext, if_pos (by rfl)]
        cases hvalue : Json.ofChars? .refused ('\x7b' :: inside) with
        | none => rw [read_of_none htext hvalue, hobject]
        | some v =>
            simp only [ActionInput.read, htext, hvalue]
            cases v <;> rfl
      · unfold read ActionInput.read
        rw [htext, if_neg (by simpa [startsAt] using hc)]
        split
        · rename_i heq
          exact absurd (List.cons.inj heq).1 hc
        · rfl

/-- An input that is refused, or that does not begin as an object, has no fields. -/
theorem inputFields_eq (actionInput : Option String)
    (hrounds : (actionInput.getD "").length < rounds) :
    inputFields rounds actionInput = .ok (Tool.inputFields actionInput) := by
  cases actionInput with
  | none => rfl
  | some input =>
      unfold inputFields Tool.inputFields
      dsimp only
      rw [read_eq input hrounds]
      by_cases hopen : (trimStart input.toList).head? = some '\x7b'
      · rw [if_pos (by simpa [startsAt] using hopen), if_pos hopen]
        cases ActionInput.read input <;> rfl
      · rw [if_neg (by simpa [startsAt] using hopen), if_neg hopen]

/-- The arguments of a call are made without a fault. -/
theorem arguments_eq (spec : Spec) (question : String) (actionInput : Option String)
    (hrounds : (actionInput.getD "").length < rounds) :
    arguments rounds spec question actionInput =
      .ok (Tool.arguments spec question actionInput) := by
  unfold arguments
  rw [inputFields_eq actionInput hrounds]
  cases actionInput <;> rfl

/-- **Every text is read to an end.**  Whatever the text, every loop of the reading by position ends
in at most as many rounds as the text has characters and one, no character is asked for that is not
there, and the result is what the grammar says: fields, or the failure of a tool input.  So the
arguments of a tool call are always made, whatever the model has written. -/
theorem reads_to_end :
    (∀ (input : String) (spare : Nat),
        read (input.length + 1 + spare) input =
          (ActionInput.read input).mapError fun e => .raised ⟨.toolInput, e.text⟩) ∧
      ∀ (spec : Spec) (question : String) (actionInput : Option String) (spare : Nat),
        arguments ((actionInput.getD "").length + 1 + spare) spec question actionInput =
          .ok (Tool.arguments spec question actionInput) := by
  constructor
  · intro input spare
    exact read_eq input (by omega)
  · intro spec question actionInput spare
    exact arguments_eq spec question actionInput (by omega)

/-- One round is not enough to find the end of a bare name. -/
example : read 1 "\x7ba: 1\x7d" = .error .unfinished := by rfl

end ReAct.Tool.ActionInput.Positional

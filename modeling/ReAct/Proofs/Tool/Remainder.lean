import ReAct.Proofs.Text.Blank
import ReAct.Proofs.Text.Search
import ReAct.Tool.ActionInput

/-!
# What the lenient grammar leaves

Every part of the lenient grammar takes something from the start of a text and leaves an end of it:
a quoted text, a nested list or object, a key, a value.  An entry takes at least its colon
(`suffix_of_entry`), so there are never more entries than characters.

The search for a closing bracket looks at every character at most once.  A bound on its steps that
is not below the length of the text therefore does not matter (`closeWithin_congr`).

## Main Definitions

* `behindComma`: what stands behind a value and the comma that may follow it
-/

namespace ReAct.Tool.ActionInput

open Text

variable {quote : Char} {s inside rest : List Char}

/-! ## Quoted texts -/

/-- A result with a character in front comes from one without it. -/
theorem of_map_cons {c : Char} {result : Except Error (List Char × List Char)}
    (h : (result.map fun (inside, rest) => (c :: inside, rest)) = .ok (inside, rest)) :
    ∃ more, inside = c :: more ∧ result = .ok (more, rest) := by
  cases result with
  | error e => cases h
  | ok found =>
      obtain ⟨more, left⟩ := found
      cases h
      exact ⟨more, rfl, rfl⟩

/-- What follows three closing quotes is an end of the text, by the recursion of the search. -/
theorem suffix_of_untilTriple (h : untilTriple quote s = .ok (inside, rest)) : rest <:+ s := by
  induction s generalizing inside with
  | nil => cases h
  | cons c s ih =>
      rw [untilTriple] at h
      split at h
      · rename_i found hfound
        cases h
        rw [after?_eq_some] at hfound
        exact ⟨[quote, quote, quote], hfound.symm⟩
      · obtain ⟨more, -, hmore⟩ := of_map_cons h
        exact (ih hmore).trans (List.suffix_cons c s)

/-- What follows a closing quote is one, by the recursion of the search, in which an escape takes
two characters. -/
theorem suffix_of_untilQuote (h : untilQuote quote s = .ok (inside, rest)) : rest <:+ s := by
  induction s using untilQuote.induct quote generalizing inside with
  | case1 => cases h
  | case2 c s ih =>
      obtain ⟨more, -, hmore⟩ := of_map_cons h
      exact (ih hmore).trans ((List.suffix_cons c s).trans (List.suffix_cons '\\' (c :: s)))
  | case3 s hescape =>
      rw [untilQuote.eq_3 _ _ _ hescape, if_pos rfl] at h
      cases h
      exact List.suffix_cons quote rest
  | case4 c s hescape hc ih =>
      rw [untilQuote.eq_3 _ _ _ hescape, if_neg hc] at h
      obtain ⟨more, -, hmore⟩ := of_map_cons h
      exact (ih hmore).trans (List.suffix_cons c s)

/-- Either way, a quoted text leaves an end of the text. -/
theorem suffix_of_afterQuote (h : afterQuote quote s = .ok (inside, rest)) : rest <:+ s := by
  unfold afterQuote at h
  split at h
  · rename_i behind hbehind
    rw [after?_eq_some] at hbehind
    exact (suffix_of_untilTriple h).trans ⟨[quote, quote], hbehind.symm⟩
  · exact suffix_of_untilQuote h

/-! ## Nested lists and objects -/

/-- An opening bracket has to be closed first from then on. -/
theorem bracket_of_opening {c close : Char} (h : closer? c = some close) (stack : List Char) :
    bracket stack c = some (close :: stack) := by
  unfold bracket
  rw [h]

/-- A character that is no bracket, or closes another one, changes nothing. -/
theorem bracket_of_ne {c close : Char} (h : closer? c = none) (hne : c ≠ close)
    (outer : List Char) : bracket (close :: outer) c = some (close :: outer) := by
  unfold bracket
  rw [h]
  exact if_neg hne

/-- A closing bracket closes the last one that is open; the search ends with the first one. -/
theorem bracket_close {close : Char} (h : closer? close = none) (outer : List Char) :
    bracket (close :: outer) close = if outer.isEmpty then none else some outer := by
  unfold bracket
  rw [h]
  exact if_pos rfl

theorem closeWithin_nil (bound : Nat) (stack : List Char) :
    closeWithin bound stack [] = .error .unbalanced := by
  cases bound <;> rfl

/-- The search passes over a quoted text as a whole. -/
theorem closeWithin_quote {c : Char} (hquote : isQuote c = true) (bound : Nat)
    (stack s : List Char) :
    closeWithin (bound + 1) stack (c :: s) =
      (afterQuote c s).bind fun found => closeWithin bound stack found.2 := by
  rw [closeWithin.eq_def]
  dsimp only
  rw [if_pos hquote]
  cases afterQuote c s <;> rfl

/-- At any other character it keeps count of the brackets. -/
theorem closeWithin_bracket {c : Char} (hquote : isQuote c = false) (bound : Nat)
    (stack s : List Char) :
    closeWithin (bound + 1) stack (c :: s) =
      (bracket stack c).elim (.ok s) fun stack => closeWithin bound stack s := by
  rw [closeWithin.eq_def]
  dsimp only
  rw [if_neg (by simp [hquote])]
  cases bracket stack c <;> rfl

/-- **A bound on the search does not matter if it is not below the length of the text.** -/
theorem closeWithin_congr {first second : Nat} (stack : List Char) {s : List Char}
    (hfirst : s.length ≤ first) (hsecond : s.length ≤ second) :
    closeWithin first stack s = closeWithin second stack s := by
  induction first generalizing second stack s with
  -- Each step takes a character at least, so either bound lasts as long as the text.
  | zero =>
      rw [List.length_eq_zero_iff.mp (Nat.le_zero.mp hfirst), closeWithin_nil, closeWithin_nil]
  | succ first ih =>
      cases s with
      | nil => rw [closeWithin_nil, closeWithin_nil]
      | cons c s =>
          cases second with
          | zero => exact absurd hsecond (Nat.not_succ_le_zero _)
          | succ second =>
              rw [List.length_cons, Nat.succ_le_succ_iff] at hfirst hsecond
              cases hquote : isQuote c with
              | true =>
                  rw [closeWithin_quote hquote, closeWithin_quote hquote]
                  cases hfound : afterQuote c s with
                  | error e => rfl
                  | ok found =>
                      obtain ⟨text, behind⟩ := found
                      have hle := (suffix_of_afterQuote hfound).length_le
                      exact ih stack (hle.trans hfirst) (hle.trans hsecond)
              | false =>
                  rw [closeWithin_bracket hquote, closeWithin_bracket hquote]
                  cases bracket stack c with
                  | some stack => exact ih stack hfirst hsecond
                  | none => rfl

/-- The search leaves an end of the text, by induction on its steps. -/
theorem suffix_of_closeWithin {bound : Nat} {stack : List Char}
    (h : closeWithin bound stack s = .ok rest) : rest <:+ s := by
  induction bound generalizing stack s with
  | zero => cases h
  | succ bound ih =>
      cases s with
      | nil => cases h
      | cons c s =>
          cases hquote : isQuote c with
          | true =>
              rw [closeWithin_quote hquote] at h
              cases hfound : afterQuote c s with
              | error e =>
                  rw [hfound] at h
                  cases h
              | ok found =>
                  obtain ⟨text, behind⟩ := found
                  rw [hfound] at h
                  exact (ih h).trans ((suffix_of_afterQuote hfound).trans (List.suffix_cons c s))
          | false =>
              rw [closeWithin_bracket hquote] at h
              cases hbracket : bracket stack c with
              | some stack =>
                  rw [hbracket] at h
                  exact (ih h).trans (List.suffix_cons c s)
              | none =>
                  rw [hbracket] at h
                  cases h
                  exact List.suffix_cons c rest

/-- So does a nested list or object. -/
theorem suffix_of_nested (h : nested s = .ok (inside, rest)) : rest <:+ s := by
  unfold nested at h
  cases hclose : closeWithin s.length [] s with
  | error e =>
      rw [hclose] at h
      cases h
  | ok left =>
      rw [hclose] at h
      cases h
      exact suffix_of_closeWithin hclose

/-! ## Entries -/

theorem suffix_skip (s : List Char) : skip s <:+ s :=
  List.dropWhile_suffix _

theorem skip_skip (s : List Char) : skip (skip s) = skip s :=
  List.dropWhile_idempotent Json.isSpace s

/-- A key leaves an end of the text, quoted or bare. -/
theorem suffix_of_key (h : key s = .ok (inside, rest)) : rest <:+ s := by
  unfold key at h
  split at h
  · cases h
    exact List.suffix_rfl
  · rename_i c behind
    split at h
    · exact (suffix_of_afterQuote h).trans (List.suffix_cons c behind)
    · rw [List.span_eq_takeWhile_dropWhile] at h
      cases h
      exact List.dropWhile_suffix _

/-- A value leaves an end of the text, of each of its three kinds. -/
theorem suffix_of_value (h : value s = .ok (inside, rest)) : rest <:+ s := by
  unfold value at h
  split at h
  · cases h
  · rename_i c behind
    split at h
    · exact (suffix_of_afterQuote h).trans (List.suffix_cons c behind)
    · split at h
      · exact suffix_of_nested h
      · rw [List.span_eq_takeWhile_dropWhile] at h
        cases h
        exact List.dropWhile_suffix _

/-- What stands behind a value and the comma that may follow it. -/
def behindComma (s : List Char) : List Char :=
  match skip s with
  | ',' :: rest => skip rest
  | rest => rest

theorem behindComma_of_comma (h : skip s = ',' :: rest) : behindComma s = skip rest := by
  rw [behindComma, h]
  rfl

theorem behindComma_of_ne (h : ∀ rest, skip s ≠ ',' :: rest) : behindComma s = skip s := by
  unfold behindComma
  split
  · rename_i rest hskip
    exact absurd hskip (h rest)
  · rfl

/-- Nothing is added behind a value. -/
theorem suffix_behindComma (s : List Char) : behindComma s <:+ s := by
  by_cases hcomma : ∃ rest, skip s = ',' :: rest
  · obtain ⟨rest, hrest⟩ := hcomma
    have hbehind : ',' :: rest <:+ s := hrest ▸ suffix_skip s
    rw [behindComma_of_comma hrest]
    exact (suffix_skip rest).trans ((List.suffix_cons ',' rest).trans hbehind)
  · rw [behindComma_of_ne (not_exists.mp hcomma)]
    exact suffix_skip s

/-- Behind an entry no blank is left to be passed over. -/
theorem skip_behindComma (s : List Char) : skip (behindComma s) = behindComma s := by
  by_cases hcomma : ∃ rest, skip s = ',' :: rest
  · obtain ⟨rest, hrest⟩ := hcomma
    rw [behindComma_of_comma hrest, skip_skip]
  · rw [behindComma_of_ne (not_exists.mp hcomma), skip_skip]

/-- The rest of an entry, behind its key. -/
def entryBehind (name s : List Char) : Except Error ((List Char × List Char) × List Char) :=
  match skip s with
  | ':' :: rest => (value (skip rest)).map fun (text, rest) => ((name, text), behindComma rest)
  | _ => .error (.missingColon name)

/-- An entry with a colon goes on with its value. -/
theorem entryBehind_of_colon {name : List Char} (h : skip s = ':' :: rest) :
    entryBehind name s =
      (value (skip rest)).map fun (text, rest) => ((name, text), behindComma rest) := by
  rw [entryBehind, h]
  rfl

/-- An entry without one is refused, and its key is told. -/
theorem entryBehind_of_ne {name : List Char} (h : ∀ rest, skip s ≠ ':' :: rest) :
    entryBehind name s = .error (.missingColon name) := by
  unfold entryBehind
  split
  · rename_i rest hskip
    exact absurd hskip (h rest)
  · rfl

/-- An entry is a key and what stands behind it. -/
theorem entry_eq (s : List Char) :
    entry s = (key s).bind fun (name, rest) => entryBehind name rest := by
  unfold entry
  cases key s with
  | error e => rfl
  | ok found =>
      obtain ⟨name, rest⟩ := found
      dsimp only [Except.bind]
      split
      · rename_i behind hskip
        rw [entryBehind_of_colon hskip]
        cases value (skip behind) with
        | error e => rfl
        | ok read =>
            obtain ⟨text, more⟩ := read
            dsimp only [Except.map]
            split
            · rename_i last hlast
              rw [behindComma_of_comma hlast]
            · rename_i last hlast
              rw [behindComma_of_ne hlast]
      · rename_i hskip
        rw [entryBehind_of_ne hskip]

/-- **An entry by its parts**: a key, a colon, a value, and a comma that may be missing. -/
theorem entry_eq_ok {name text : List Char} :
    entry s = .ok ((name, text), rest) ↔
      ∃ left behind more, key s = .ok (name, left) ∧ skip left = ':' :: behind ∧
        value (skip behind) = .ok (text, more) ∧ behindComma more = rest := by
  rw [entry_eq]
  constructor
  · intro h
    cases hkey : key s with
    | error e =>
        rw [hkey] at h
        cases h
    | ok found =>
        obtain ⟨first, left⟩ := found
        rw [hkey] at h
        replace h : entryBehind first left = .ok ((name, text), rest) := h
        by_cases hcolon : ∃ behind, skip left = ':' :: behind
        · obtain ⟨behind, hbehind⟩ := hcolon
          rw [entryBehind_of_colon hbehind] at h
          cases hvalue : value (skip behind) with
          | error e =>
              rw [hvalue] at h
              cases h
          | ok read =>
              obtain ⟨second, more⟩ := read
              rw [hvalue] at h
              cases h
              exact ⟨left, behind, more, rfl, hbehind, hvalue, rfl⟩
        · rw [entryBehind_of_ne (not_exists.mp hcolon)] at h
          cases h
  · rintro ⟨left, behind, more, hkey, hcolon, hvalue, rfl⟩
    rw [hkey]
    show entryBehind name left = _
    rw [entryBehind_of_colon hcolon, hvalue]
    rfl

/-- An entry leaves less than there was: it takes its colon. -/
theorem suffix_of_entry {name text : List Char} (h : entry s = .ok ((name, text), rest)) :
    rest <:+ s ∧ rest.length < s.length := by
  obtain ⟨left, behind, more, hkey, hcolon, hvalue, rfl⟩ := entry_eq_ok.mp h
  have hleft : ':' :: behind <:+ s := (hcolon ▸ suffix_skip left).trans (suffix_of_key hkey)
  have hrest : behindComma more <:+ behind :=
    (suffix_behindComma more).trans ((suffix_of_value hvalue).trans (suffix_skip behind))
  exact ⟨hrest.trans ((List.suffix_cons ':' behind).trans hleft),
    Nat.lt_of_le_of_lt hrest.length_le hleft.length_le⟩

/-- What an entry leaves does not begin with a blank. -/
theorem skip_of_entry {name text : List Char} (h : entry s = .ok ((name, text), rest)) :
    skip rest = rest := by
  obtain ⟨left, behind, more, -, -, -, rfl⟩ := entry_eq_ok.mp h
  exact skip_behindComma more

/-! ## Inputs -/

variable {input : String}

/-- A text that is a JSON object is read as one, and the lenient grammar is not asked. -/
theorem read_of_object {members : Fields Json} (htrim : trim input.toList = '\x7b' :: inside)
    (hvalue : Json.ofChars? .refused ('\x7b' :: inside) = some (.obj members)) :
    read input = .ok (members.mapValues delivered) := by
  simp only [read, htrim, hvalue]

/-- What is not JSON is read leniently. -/
theorem read_of_none (htrim : trim input.toList = '\x7b' :: inside)
    (hnone : Json.ofChars? .refused ('\x7b' :: inside) = none) : read input = lenient inside := by
  simp only [read, htrim, hnone]

end ReAct.Tool.ActionInput

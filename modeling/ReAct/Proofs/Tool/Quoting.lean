import ReAct.Proofs.Json.Literal
import ReAct.Proofs.Tool.Remainder

/-!
# What a quoted text is read as

Inside of quotes the lenient grammar drops the back-slash of every escape and keeps the character
behind it.  That undoes the escapes of its own form, in which a back-slash stands before quotes and
back-slashes only (`afterQuote_escaped`).  A string literal of JSON is read to its end as well
(`afterQuote_body`), but what is left of a numbered escape is a letter and its digits, and what is
left of the escape of a line feed is a letter.

## Main Definitions

* `Denotes`: what a part of a quoted text is read as
* `singleQuoted`: a text between single quotes
* `unescaped`: a text without the back-slashes of its escapes
* `altered`: what is read of a character of a string literal
-/

namespace ReAct.Tool.ActionInput

open Text

/-! ## Parts of a quoted text -/

/-- Inside of the given quotes, the text `t` is read as `u`. -/
def Denotes (quote : Char) (t u : List Char) : Prop :=
  ∀ s, untilQuote quote (t ++ s) =
    (untilQuote quote s).map fun (inside, rest) => (u ++ inside, rest)

variable {quote c : Char}

theorem denotes_nil (quote : Char) : Denotes quote [] [] := by
  intro s
  rw [List.nil_append]
  cases untilQuote quote s <;> rfl

/-- One part of a quoted text after another. -/
theorem Denotes.append {t t' u u' : List Char} (h : Denotes quote t u) (h' : Denotes quote t' u') :
    Denotes quote (t ++ t') (u ++ u') := by
  intro s
  rw [List.append_assoc, h, h']
  cases untilQuote quote s with
  | error e => rfl
  | ok found => simp [Except.map]

/-- A quoted text is read character by character, so it is enough to know what each of them is read
as. -/
theorem Denotes.flatMap {f g : Char → List Char} (h : ∀ c, Denotes quote (f c) (g c))
    (s : List Char) : Denotes quote (s.flatMap f) (s.flatMap g) := by
  induction s with
  | nil => exact denotes_nil quote
  | cons c s ih =>
      rw [List.flatMap_cons, List.flatMap_cons]
      exact (h c).append ih

/-- A character that is no back-slash and not the quote stands for itself. -/
theorem denotes_char (hslash : c ≠ '\\') (hquote : c ≠ quote) : Denotes quote [c] [c] := by
  intro s
  have hescape : ∀ d more, c = '\\' → s = d :: more → False := fun _ _ hc => absurd hc hslash
  show untilQuote quote (c :: s) = _
  rw [untilQuote.eq_3 _ _ _ hescape, if_neg hquote]
  rfl

/-- A character behind a back-slash stands for itself. -/
theorem denotes_escape (quote c : Char) : Denotes quote ['\\', c] [c] := by
  intro s
  rfl

/-- Characters that are no marks of a literal stand for themselves. -/
theorem denotes_chars {t : List Char} (h : ∀ c ∈ t, c ≠ '\\' ∧ c ≠ quote) : Denotes quote t t := by
  induction t with
  | nil => exact denotes_nil quote
  | cons c t ih =>
      obtain ⟨⟨hslash, hquote⟩, ht⟩ := List.forall_mem_cons.mp h
      exact (denotes_char hslash hquote).append (ih ht)

theorem untilQuote_quote (hslash : quote ≠ '\\') (s : List Char) :
    untilQuote quote (quote :: s) = .ok ([], s) := by
  have hescape : ∀ d more, quote = '\\' → s = d :: more → False := fun _ _ hc => absurd hc hslash
  rw [untilQuote.eq_3 _ _ _ hescape, if_pos rfl]

/-- A part of a quoted text does not begin with the quote, which would end the text. -/
theorem Denotes.head?_ne {t u : List Char} (h : Denotes quote t u) (hslash : quote ≠ '\\') :
    t.head? ≠ some quote := by
  intro hhead
  obtain ⟨more, rfl⟩ := List.head?_eq_some_iff.mp hhead
  have hend := h []
  rw [List.append_nil, untilQuote_quote hslash] at hend
  cases hend

/-- **A quoted text is read up to its quote.**  If no third quote follows, two quotes are an empty
text and do not open a triple-quoted one. -/
theorem afterQuote_of_denotes {t u rest : List Char} (h : Denotes quote t u)
    (hslash : quote ≠ '\\') (hrest : rest.head? ≠ some quote) :
    afterQuote quote (t ++ quote :: rest) = .ok (u, rest) := by
  have hnone : after? [quote, quote] (t ++ quote :: rest) = none := by
    rw [Option.eq_none_iff_forall_ne_some]
    intro behind hbehind
    rw [after?_eq_some] at hbehind
    have hhead := h.head?_ne hslash
    -- Two quotes in front would be the first of the text, or the closing quote and one behind it.
    cases t with
    | nil =>
        rw [List.nil_append, List.cons_append, List.cons.injEq] at hbehind
        rw [hbehind.2] at hrest
        exact hrest rfl
    | cons c t =>
        rw [List.cons_append, List.cons_append, List.cons.injEq] at hbehind
        exact hhead (congrArg some hbehind.1)
  rw [afterQuote, hnone]
  show untilQuote quote (t ++ quote :: rest) = _
  rw [h, untilQuote_quote hslash]
  show Except.ok (u ++ [], rest) = _
  rw [List.append_nil]

/-! ## Single quotes -/

/-- How a text in quotes writes one character: with a back-slash before the quote and before a
back-slash. -/
def escaped (quote c : Char) : List Char :=
  if c = '\\' ∨ c = quote then ['\\', c] else [c]

/-- A text between single quotes. -/
def singleQuoted (s : List Char) : List Char :=
  '\'' :: s.flatMap (escaped '\'') ++ ['\'']

/-- However a character is written between quotes, it is read as itself. -/
theorem denotes_escaped (quote c : Char) : Denotes quote (escaped quote c) [c] := by
  unfold escaped
  split
  · exact denotes_escape quote c
  · rename_i h
    exact denotes_char (not_or.mp h).1 (not_or.mp h).2

/-- **The escapes of quotes and back-slashes are undone.** -/
theorem afterQuote_escaped (hslash : quote ≠ '\\') (s : List Char) {rest : List Char}
    (hrest : rest.head? ≠ some quote) :
    afterQuote quote (s.flatMap (escaped quote) ++ quote :: rest) = .ok (s, rest) := by
  have hdenotes := Denotes.flatMap (denotes_escaped quote) s
  rw [List.flatMap_singleton'] at hdenotes
  exact afterQuote_of_denotes hdenotes hslash hrest

/-! ## String literals of JSON -/

/-- What is left of a text when the back-slash of every escape is dropped. -/
def unescaped : List Char → List Char
  | [] => []
  | '\\' :: c :: s => c :: unescaped s
  | c :: s => c :: unescaped s

/-- What is read of a character of a string literal. -/
def altered (asciiOnly : Bool) (c : Char) : List Char :=
  unescaped (Json.escaped asciiOnly c)

/-- Back-slashes are dropped only where there are some. -/
theorem unescaped_append_of_notMem {s : List Char} (h : '\\' ∉ s) (t : List Char) :
    unescaped (s ++ t) = s ++ unescaped t := by
  induction s with
  | nil => rfl
  | cons c s ih =>
      rw [List.mem_cons, not_or] at h
      have hescape : ∀ d more, c = '\\' → s ++ t = d :: more → False :=
        fun _ _ hc => absurd hc.symm h.1
      rw [List.cons_append, unescaped.eq_3 _ _ hescape, ih h.2, List.cons_append]

theorem unescaped_char (hslash : c ≠ '\\') : unescaped [c] = [c] :=
  unescaped_append_of_notMem (fun hmem => hslash (List.mem_singleton.mp hmem).symm) []

theorem hexDigits_plain (n : Nat) : ∀ c ∈ hexDigits 4 n, c ≠ '\\' ∧ c ≠ '"' :=
  Json.forall_mem_hexDigits (by decide) n

/-- A numbered escape loses its back-slash. -/
theorem unescaped_unitEscape (n : Nat) (rest : List Char) :
    unescaped (Json.unitEscape n ++ rest) = 'u' :: hexDigits 4 n ++ unescaped rest := by
  show 'u' :: unescaped (hexDigits 4 n ++ rest) = _
  rw [unescaped_append_of_notMem fun hmem => (hexDigits_plain n _ hmem).1 rfl]
  rfl

/-- The lenient grammar does not know escapes by number: it drops the back-slash. -/
theorem denotes_unitEscape (n : Nat) : Denotes '"' (Json.unitEscape n) ('u' :: hexDigits 4 n) :=
  (denotes_escape '"' 'u').append (denotes_chars (hexDigits_plain n))

/-- So it reads what is left of the escape without its back-slash. -/
theorem denotes_unescaped_unitEscape (n : Nat) :
    Denotes '"' (Json.unitEscape n) (unescaped (Json.unitEscape n)) := by
  have hunit := unescaped_unitEscape n []
  rw [List.append_nil] at hunit
  rw [hunit]
  exact (denotes_unitEscape n).append (denotes_nil '"')

/-- A character of a string literal is read as its escape without the back-slash. -/
theorem denotes_altered (asciiOnly : Bool) (c : Char) :
    Denotes '"' (Json.escaped asciiOnly c) (altered asciiOnly c) := by
  have hescape := Json.escapeOf_escaped asciiOnly c
  unfold altered
  generalize Json.escaped asciiOnly c = text at hescape
  cases hescape with
  | plain hquote hslash =>
      rw [unescaped_char hslash]
      exact denotes_char hslash hquote
  | short => exact denotes_escape _ _
  | unit n => exact denotes_unescaped_unitEscape n
  -- A surrogate pair: two escapes, each of which loses its back-slash.
  | pair high low =>
      rw [unescaped_unitEscape]
      exact (denotes_unitEscape high).append (denotes_unescaped_unitEscape low)

/-- **A string literal is read to its end**, each of its characters as `altered` says. -/
theorem afterQuote_body (asciiOnly : Bool) (s : List Char) {rest : List Char}
    (hrest : rest.head? ≠ some '"') :
    afterQuote '"' (Json.body asciiOnly s ++ '"' :: rest) =
      .ok (s.flatMap (altered asciiOnly), rest) :=
  afterQuote_of_denotes (Denotes.flatMap (denotes_altered asciiOnly) s) (by decide) hrest

end ReAct.Tool.ActionInput

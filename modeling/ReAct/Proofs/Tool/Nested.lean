import ReAct.Proofs.Json.RoundTrip
import ReAct.Proofs.Tool.Quoting

/-!
# Nested JSON

The search for the closing bracket of a nested value looks at brackets and quotes only.  The text of
a JSON value has all its other brackets in pairs, and every quote of it belongs to a string literal
that is passed over as a whole (`passedOver_chars`).  So a nested list or object is read up to the
bracket that closes it, and delivered as its own text (`nested_of_passedOver`).

## Main Definitions

* `closing`: what follows the closing bracket of open brackets
* `Unmarked`: a text without quotes and brackets
* `PassedOver`: a text inside of brackets that the search passes over
-/

namespace ReAct.Tool.ActionInput

/-! ## The search -/

/-- What follows the bracket that closes the last one of `stack`. -/
def closing (stack s : List Char) : Except Error (List Char) :=
  closeWithin s.length stack s

/-- Without a bound, the search takes a character after the other. -/
theorem closing_bracket {c : Char} (hquote : isQuote c = false) (stack s : List Char) :
    closing stack (c :: s) =
      (bracket stack c).elim (.ok s) fun stack => closing stack s :=
  closeWithin_bracket hquote s.length stack s

/-- Without a bound, a quoted text is still passed over as a whole: it leaves less of the text than
the bound was. -/
theorem closing_quote {c : Char} (hquote : isQuote c = true) (stack s : List Char) :
    closing stack (c :: s) = (afterQuote c s).bind fun found => closing stack found.2 := by
  show closeWithin (s.length + 1) stack (c :: s) = _
  rw [closeWithin_quote hquote]
  cases hfound : afterQuote c s with
  | error e => rfl
  | ok found =>
      obtain ⟨text, rest⟩ := found
      exact closeWithin_congr stack (suffix_of_afterQuote hfound).length_le (Nat.le_refl _)

/-- The characters that the search looks at. -/
def marks : List Char :=
  ['\'', '"', '\x7b', '[', '\x7d', ']']

/-- A text without these characters. -/
def Unmarked (t : List Char) : Prop :=
  ∀ c ∈ t, c ∉ marks

instance (t : List Char) : Decidable (Unmarked t) :=
  List.decidableBAll (fun c => c ∉ marks) t

/-- Whether a character closes a bracket. -/
def IsCloser (c : Char) : Prop :=
  c = '\x7d' ∨ c = ']'

/-- There are two kinds of brackets. -/
theorem closer?_eq_some {c close : Char} (h : closer? c = some close) :
    c = '\x7b' ∧ close = '\x7d' ∨ c = '[' ∧ close = ']' := by
  unfold closer? at h
  split at h
  · rename_i hc
    cases h
    exact .inl ⟨hc, rfl⟩
  · split at h
    · rename_i hc
      cases h
      exact .inr ⟨hc, rfl⟩
    · cases h

theorem isCloser_of_closer? {c close : Char} (h : closer? c = some close) : IsCloser close :=
  (closer?_eq_some h).imp And.right And.right

theorem IsCloser.head?_ne {close : Char} (h : IsCloser close) (rest : List Char) :
    (close :: rest).head? ≠ some '"' := by
  rcases h with rfl | rfl <;> simp

variable {close : Char} {outer rest t : List Char}

/-- A text without marks is passed over, by induction on it. -/
theorem closing_plain (hclose : IsCloser close) (ht : Unmarked t) :
    closing (close :: outer) (t ++ rest) = closing (close :: outer) rest := by
  induction t with
  | nil => rfl
  | cons c t ih =>
      obtain ⟨hc, ht⟩ := List.forall_mem_cons.mp ht
      simp only [marks, List.mem_cons, List.not_mem_nil, or_false, not_or] at hc
      obtain ⟨hsingle, hdouble, hbrace, hsquare, hclosebrace, hclosesquare⟩ := hc
      have hquote : isQuote c = false := by simp [isQuote, hsingle, hdouble]
      have hcloser : closer? c = none := by simp [closer?, hbrace, hsquare]
      have hne : c ≠ close := by
        rintro rfl
        exact hclose.elim hclosebrace hclosesquare
      rw [List.cons_append, closing_bracket hquote, bracket_of_ne hcloser hne]
      exact ih ht

/-- An opening bracket is put on the stack. -/
theorem closing_opening {c : Char} (hc : closer? c = some close) (stack s : List Char) :
    closing stack (c :: s) = closing (close :: stack) s := by
  have hquote : isQuote c = false := by
    rcases closer?_eq_some hc with ⟨rfl, -⟩ | ⟨rfl, -⟩ <;> rfl
  rw [closing_bracket hquote, bracket_of_opening hc]
  rfl

/-- Its closing bracket takes it off again. -/
theorem closing_close (hclose : IsCloser close) (outer s : List Char) :
    closing (close :: outer) (close :: s) = if outer.isEmpty then .ok s else closing outer s := by
  have hquote : isQuote close = false := by rcases hclose with rfl | rfl <;> rfl
  have hcloser : closer? close = none := by rcases hclose with rfl | rfl <;> rfl
  rw [closing_bracket hquote, bracket_close hcloser]
  split <;> rfl

/-! ## Texts that are passed over -/

/-- A text inside of brackets that the search passes over, unless a double quote follows. -/
def PassedOver (t : List Char) : Prop :=
  ∀ close outer rest, IsCloser close → rest.head? ≠ some '"' →
    closing (close :: outer) (t ++ rest) = closing (close :: outer) rest

theorem passedOver_plain (ht : Unmarked t) : PassedOver t :=
  fun _ _ _ hclose _ => closing_plain hclose ht

/-- A JSON literal is passed over: what stands in it cannot end it, and no third quote follows. -/
theorem passedOver_literal (asciiOnly : Bool) (s : List Char) :
    PassedOver (Json.literal asciiOnly s) := by
  intro close outer rest hclose hrest
  have hfound := afterQuote_body asciiOnly s hrest
  rw [Json.literal, List.cons_append, List.cons_append, closing_quote rfl, List.append_assoc,
    List.singleton_append, hfound]
  rfl

/-- A text, then a character that is not looked at, and more of these, then another text. -/
theorem PassedOver.separated {t' separator : List Char} (h : PassedOver t)
    (hseparator : Unmarked separator) (hne : separator ≠ []) (h' : PassedOver t') :
    PassedOver (t ++ separator ++ t') := by
  intro close outer rest hclose hrest
  have hhead : (separator ++ (t' ++ rest)).head? ≠ some '"' := by
    rw [List.head?_append_of_ne_nil _ hne]
    intro hquote
    exact hseparator '"' (List.mem_of_head? hquote) (by decide)
  rw [List.append_assoc, List.append_assoc, h close outer _ hclose hhead,
    closing_plain hclose hseparator, h' close outer rest hclose hrest]

/-- Brackets around a text that is passed over: one more bracket is open while it is. -/
theorem closing_bracketed {c : Char} (hc : closer? c = some close) (h : PassedOver t)
    (stack rest : List Char) :
    closing stack (c :: t ++ [close] ++ rest) =
      if stack.isEmpty then .ok rest else closing stack rest := by
  have hclose := isCloser_of_closer? hc
  rw [List.append_assoc, List.cons_append, closing_opening hc, List.singleton_append,
    h close stack _ hclose (hclose.head?_ne rest), closing_close hclose]

/-- A text in brackets is passed over if what stands in them is. -/
theorem PassedOver.bracketed {c : Char} (hc : closer? c = some close) (h : PassedOver t) :
    PassedOver (c :: t ++ [close]) :=
  fun around outer rest _ _ => closing_bracketed hc h (around :: outer) rest

/-- **A text in brackets is read up to the last of them.** -/
theorem nested_of_passedOver {c : Char} (hc : closer? c = some close) (h : PassedOver t)
    (rest : List Char) :
    nested (c :: t ++ [close] ++ rest) = .ok (c :: t ++ [close], rest) := by
  have hlength : (c :: t ++ [close] ++ rest).length - rest.length = (c :: t ++ [close]).length := by
    rw [List.length_append, Nat.add_sub_cancel]
  show (closing [] (c :: t ++ [close] ++ rest)).map _ = _
  rw [closing_bracketed hc h]
  show Except.ok (List.take _ (c :: t ++ [close] ++ rest), rest) = _
  rw [hlength, List.take_left']
  rfl

/-! ## JSON values -/

theorem unmarked_of_isNumberChar (h : ∀ c ∈ t, Decimal.isNumberChar c = true) : Unmarked t := by
  have hall : marks.all (fun c => !Decimal.isNumberChar c) = true := rfl
  intro c hc hmark
  have hnot := List.all_eq_true.mp hall c hmark
  rw [h c hc] at hnot
  cases hnot

/-- The text of a floating-point number has no marks, the three that are no numbers included. -/
theorem passedOver_float (x : Double) : PassedOver (Decimal.text Decimal.jsonLayout x) := by
  cases x with
  | finite negative rank =>
      exact passedOver_plain
        (unmarked_of_isNumberChar (Decimal.text_isNumberChar _ negative rank))
  | infinite negative => cases negative <;> exact passedOver_plain (by decide)
  | nan => exact passedOver_plain (by decide)

/-- What stands between items, and after a name, is not looked at. -/
theorem unmarked_of_separator {separator : List Char} {first : Char} {n : Nat}
    (hseparator : separator = first :: List.replicate n ' ') (hfirst : first ∉ marks) :
    Unmarked separator ∧ separator ≠ [] := by
  subst hseparator
  refine ⟨List.forall_mem_cons.mpr ⟨hfirst, fun c hc => ?_⟩, List.cons_ne_nil _ _⟩
  rw [List.eq_of_mem_replicate hc]
  decide

variable {layout : Json.Layout}

/-- Two texts with a comma between them. -/
theorem PassedOver.item {t' : List Char} (hlayout : layout.Plain) (h : PassedOver t)
    (h' : PassedOver t') : PassedOver (t ++ layout.betweenItems ++ t') := by
  obtain ⟨m, n, hbetween, -⟩ := hlayout
  obtain ⟨hmarks, hne⟩ := unmarked_of_separator hbetween (by decide)
  exact h.separated hmarks hne h'

/-- A name, a colon, and a value. -/
theorem PassedOver.member (hlayout : layout.Plain) (name : String) (h : PassedOver t) :
    PassedOver (Json.literal layout.asciiOnly name.toList ++ layout.afterName ++ t) := by
  obtain ⟨m, n, -, hafter⟩ := hlayout
  obtain ⟨hmarks, hne⟩ := unmarked_of_separator hafter (by decide)
  exact (passedOver_literal layout.asciiOnly name.toList).separated hmarks hne h

mutual

/-- **The text of a JSON value is passed over.** -/
theorem passedOver_chars (hlayout : layout.Plain) : ∀ v : Json, PassedOver (Json.chars layout v)
  | .null => passedOver_plain (t := ['n', 'u', 'l', 'l']) (by decide)
  | .bool true => passedOver_plain (t := ['t', 'r', 'u', 'e']) (by decide)
  | .bool false => passedOver_plain (t := ['f', 'a', 'l', 's', 'e']) (by decide)
  | .int n => passedOver_plain (unmarked_of_isNumberChar (Decimal.integer_isNumberChar n))
  | .float x => passedOver_float x
  | .str s => passedOver_literal layout.asciiOnly s.toList
  | .arr items => (passedOver_items hlayout items).bracketed rfl
  | .obj members => (passedOver_members hlayout members).bracketed rfl

/-- The items of a list are passed over, by induction on them. -/
theorem passedOver_items (hlayout : layout.Plain) :
    ∀ items : List Json, PassedOver (Json.itemChars layout items)
  | [] => passedOver_plain (t := []) (by decide)
  | [x] => passedOver_chars hlayout x
  | x :: y :: rest =>
      (passedOver_chars hlayout x).item hlayout (passedOver_items hlayout (y :: rest))

/-- So are the members of an object. -/
theorem passedOver_members (hlayout : layout.Plain) :
    ∀ members : List (String × Json), PassedOver (Json.memberChars layout members)
  | [] => passedOver_plain (t := []) (by decide)
  | [(name, x)] => (passedOver_chars hlayout x).member hlayout name
  | (name, x) :: y :: rest =>
      ((passedOver_chars hlayout x).member hlayout name).item hlayout
        (passedOver_members hlayout (y :: rest))

end

end ReAct.Tool.ActionInput

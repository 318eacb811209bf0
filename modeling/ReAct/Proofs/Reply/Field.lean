import ReAct.Proofs.Json.RoundTrip
import ReAct.Proofs.Reply.Salvage

/-!
# Fields of an object that was written

A field is salvaged by a search for its name in quotes with a colon behind it.  In the text of an
object this search cannot go astray.  A string literal that was written has a back-slash before
every quote in it, so a name that begins with such a quote ends with the literal, and it is the
whole literal if it begins with the first one.  Behind the literal of a value there is no colon, and
the literal of another name is not the one that is looked for.

So of an object of texts every field is found behind its own name, whatever the other texts look
like (`first?_members_of_get?`), and its value is read as it was written (`textField?_of_first?`,
`inputField?_of_first?`).

## Main Definitions

* `Inner`: the inside of a string literal
* `IsName`: the names that are written as they are
* `Bare`: a part of a text in which no field begins
-/

namespace ReAct.Reply.Salvage

open Json Text

/-! ## The inside of a literal -/

/-- Characters that are neither quotes nor back-slashes, and back-slashes with a character on the
same line behind them. -/
inductive Inner : List Char → Prop
  | nil : Inner []
  | char {c : Char} {s : List Char} (hquote : c ≠ '"') (hslash : c ≠ '\\') (h : Inner s) :
      Inner (c :: s)
  | escape {c : Char} {s : List Char} (hfeed : c ≠ '\n') (h : Inner s) : Inner ('\\' :: c :: s)

/-- The inside of a literal may be put together from parts. -/
theorem Inner.append {s t : List Char} (hs : Inner s) (ht : Inner t) : Inner (s ++ t) := by
  induction hs with
  | nil => exact ht
  | char hquote hslash _ ih => exact .char hquote hslash ih
  | escape hfeed _ ih => exact .escape hfeed ih

/-- Characters that are no marks of a literal. -/
theorem inner_of_plain {s : List Char} (h : ∀ c ∈ s, c ≠ '\\' ∧ c ≠ '"') : Inner s := by
  induction s with
  | nil => exact .nil
  | cons c s ih =>
      obtain ⟨⟨hslash, hquote⟩, hs⟩ := List.forall_mem_cons.mp h
      exact .char hquote hslash (ih hs)

theorem inner_unitEscape (n : Nat) : Inner (unitEscape n) :=
  .escape (by decide) (inner_of_plain (forall_mem_hexDigits (by decide) n))

/-- However a character is written, it ends no literal. -/
theorem inner_escaped (asciiOnly : Bool) (c : Char) : Inner (escaped asciiOnly c) := by
  have hescape := escapeOf_escaped asciiOnly c
  generalize escaped asciiOnly c = text at hescape
  cases hescape with
  | plain hquote hslash => exact .char hquote hslash .nil
  | short hmark =>
      refine .escape ?_ .nil
      rintro rfl
      exact absurd hmark (by decide)
  | unit n => exact inner_unitEscape n
  | pair high low => exact (inner_unitEscape high).append (inner_unitEscape low)

/-- So the text between the quotes of a literal is the inside of one. -/
theorem inner_body (asciiOnly : Bool) (s : List Char) : Inner (body asciiOnly s) := by
  unfold body
  induction s with
  | nil => exact .nil
  | cons c s ih => exact (inner_escaped asciiOnly c).append ih

/-- A literal is read up to its closing quote. -/
theorem literal?_of_inner {s : List Char} (h : Inner s) (rest : List Char) :
    literal? (s ++ '"' :: rest) = some s := by
  induction h with
  | nil => rfl
  | @char c s hquote hslash _ ih =>
      have hescape : ∀ d more, c = '\\' → s ++ '"' :: rest = d :: more → False :=
        fun _ _ hc => absurd hc hslash
      rw [List.cons_append, literal?.eq_3 _ _ hescape, if_neg hquote, if_neg hslash, ih]
      rfl
  | escape hfeed _ ih =>
      rw [List.cons_append, List.cons_append, literal?, if_neg hfeed, ih]
      rfl

/-- A literal that was written denotes its text again. -/
theorem decoded_body (asciiOnly : Bool) (s : String) :
    decoded (body asciiOnly s.toList) = s := by
  have hread : ofChars? .allowed ('"' :: body asciiOnly s.toList ++ ['"']) = some (.str s) := by
    rw [ofChars?_eq]
    have hliteral := scan_literal .allowed asciiOnly [] s
    rw [literal] at hliteral
    rw [Scan.start, hliteral]
    rfl
  rw [decoded, hread]

/-- What follows a quote inside of a literal is the inside of a literal, too. -/
theorem inner_of_quote {s before after : List Char} (h : Inner s)
    (hsplit : s = before ++ '"' :: after) : Inner after := by
  induction h generalizing before with
  | nil => cases before <;> cases hsplit
  | char hquote _ _ ih =>
      cases before with
      | nil => exact absurd (List.cons.inj hsplit).1 hquote
      | cons c before => exact ih (List.cons.inj hsplit).2
  | escape _ h ih =>
      obtain - | ⟨c, - | ⟨d, before⟩⟩ := before
      · cases hsplit
      · cases hsplit
        exact h
      · exact ih (List.cons.inj (List.cons.inj hsplit).2).2

/-! ## Headers -/

/-- A character that names of fields are made of. -/
def isNameChar (c : Char) : Bool :=
  c = '_' || ('a' ≤ c && c ≤ 'z')

/-- A name of a field: it is not empty, and every character stands for itself. -/
structure IsName (name : List Char) : Prop where
  ne_nil : name ≠ []
  chars : ∀ c ∈ name, isNameChar c = true

/-- The characters of a name are no others. -/
theorem IsName.ne {name : List Char} (h : IsName name) {c d : Char} (hc : c ∈ name)
    (hd : isNameChar d = false) : c ≠ d := by
  rintro rfl
  rw [h.chars _ hc] at hd
  cases hd

/-- What a header is. -/
theorem header?_eq_some {name s rest : List Char} :
    header? name s = some rest ↔ ∃ behind inside, s = '"' :: name ++ '"' :: behind ∧
      trimStart behind = ':' :: inside ∧ rest = trimStart inside := by
  rw [header?, Option.bind_eq_some_iff]
  constructor
  · rintro ⟨behind, hbehind, h⟩
    rw [after?_eq_some] at hbehind
    split at h
    · rename_i inside htrim
      cases h
      exact ⟨behind, inside, by simpa using hbehind, htrim, rfl⟩
    · cases h
  · rintro ⟨behind, inside, hs, htrim, rfl⟩
    refine ⟨behind, after?_eq_some.mpr (by simpa using hs), ?_⟩
    rw [htrim]
    rfl

/-- A field begins with its name in quotes and a colon, and nowhere else. -/
theorem header?_eq_none {name s : List Char}
    (h : ∀ behind inside, s = '"' :: name ++ '"' :: behind → trimStart behind ≠ ':' :: inside) :
    header? name s = none := by
  rw [Option.eq_none_iff_forall_ne_some]
  intro rest hsome
  obtain ⟨behind, inside, hs, htrim, -⟩ := header?_eq_some.mp hsome
  exact h behind inside hs htrim

/-- A header begins with a quote. -/
theorem header?_of_head {name s : List Char} (h : s.head? ≠ some '"') : header? name s = none := by
  refine header?_eq_none fun behind inside hs => ?_
  rw [hs] at h
  exact absurd rfl h

/-- Right behind the quote is the name. -/
theorem header?_of_closing {name rest : List Char} (hname : IsName name)
    (hrest : ∀ c, rest.head? = some c → isNameChar c = false) :
    header? name ('"' :: rest) = none := by
  refine header?_eq_none fun behind inside hs => ?_
  obtain ⟨c, more, rfl⟩ := List.exists_cons_of_ne_nil hname.ne_nil
  cases hs
  have hc := hrest c rfl
  rw [hname.chars c List.mem_cons_self] at hc
  cases hc

/-- A name that ends where a literal ends is the literal. -/
theorem eq_of_inner {name s behind rest : List Char} (hname : IsName name) (h : Inner s)
    (heq : name ++ '"' :: behind = s ++ '"' :: rest) : name = s ∧ behind = rest := by
  replace hname := hname.chars
  have hne {c d : Char} (hc : isNameChar c = true) (hd : isNameChar d = false) : c ≠ d := by
    rintro rfl
    rw [hc] at hd
    cases hd
  -- Along both texts at once: a name has no quote and no back-slash.
  induction h generalizing name with
  | nil =>
      cases name with
      | nil => exact ⟨rfl, (List.cons.inj heq).2⟩
      | cons c name =>
          exact absurd (List.cons.inj heq).1 (hne (hname c List.mem_cons_self) (by decide))
  | char hquote _ _ ih =>
      cases name with
      | nil => exact absurd (List.cons.inj heq).1.symm hquote
      | cons d name =>
          obtain ⟨rfl, htail⟩ := List.cons.inj heq
          obtain ⟨rfl, hbehind⟩ := ih htail (List.forall_mem_cons.mp hname).2
          exact ⟨rfl, hbehind⟩
  | escape =>
      cases name with
      | nil => cases heq
      | cons d name =>
          exact absurd (List.cons.inj heq).1 (hne (hname d List.mem_cons_self) (by decide))

/-- The literal of another name is no header, and neither is a literal without a colon behind it. -/
theorem header?_literal {name s rest : List Char} (hname : IsName name) (h : Inner s)
    (hother : name ≠ s ∨ (trimStart rest).head? ≠ some ':') :
    header? name ('"' :: s ++ '"' :: rest) = none := by
  refine header?_eq_none fun behind inside hs htrim => ?_
  obtain ⟨hsame, rfl⟩ := eq_of_inner hname h (List.cons.inj hs).2.symm
  rcases hother with hne | hcolon
  · exact hne hsame
  · rw [htrim] at hcolon
    exact hcolon rfl

/-! ## Parts in which no field begins -/

/-- No field of the given name begins in `part` when `rest` follows it. -/
def Bare (name part rest : List Char) : Prop :=
  ∀ before after, part = before ++ after → after ≠ [] → header? name (after ++ rest) = none

/-- A part without the field and another one without it make one without it. -/
theorem Bare.append {name s t rest : List Char} (hs : Bare name s (t ++ rest))
    (ht : Bare name t rest) : Bare name (s ++ t) rest := by
  intro before after hsplit hne
  rcases List.append_eq_append_iff.mp hsplit with ⟨inner, -, htail⟩ | ⟨inner, hhead, htail⟩
  · exact ht inner after htail hne
  · cases inner with
    | nil =>
        rw [List.nil_append] at htail
        subst htail
        exact ht [] after rfl hne
    | cons c inner =>
        rw [htail, List.append_assoc]
        exact hs before (c :: inner) hhead (List.cons_ne_nil c inner)

/-- Where there is no quote, no field begins. -/
theorem bare_of_notMem {part : List Char} (h : '"' ∉ part) (name rest : List Char) :
    Bare name part rest := by
  intro before after hsplit hne
  obtain ⟨c, after, rfl⟩ := List.exists_cons_of_ne_nil hne
  refine header?_of_head fun hquote => h ?_
  cases hquote
  rw [hsplit]
  exact List.mem_append_right before List.mem_cons_self

/-- No field begins in a string literal behind which there is no colon, or in the literal of another
name.  The cases are the places at which there is a quote. -/
theorem bare_literal {name s rest : List Char} (hname : IsName name) (h : Inner s)
    (hrest : ∀ c, rest.head? = some c → isNameChar c = false)
    (hother : name ≠ s ∧ '"' ∉ s ∨ (trimStart rest).head? ≠ some ':') :
    Bare name ('"' :: s ++ ['"']) rest := by
  have hclosing : Bare name ['"'] rest := by
    intro before after hsplit hne
    rcases List.append_eq_singleton_iff.mp hsplit.symm with ⟨-, rfl⟩ | ⟨-, rfl⟩
    · exact header?_of_closing hname hrest
    · exact absurd rfl hne
  -- A quote in the text begins the rest of the literal, with no colon behind it.
  have hinside : Bare name s ('"' :: rest) := by
    intro before after hsplit hne
    obtain ⟨c, after, rfl⟩ := List.exists_cons_of_ne_nil hne
    by_cases hc : c = '"'
    · subst hc
      refine header?_literal hname (inner_of_quote h hsplit) (.inr ?_)
      refine hother.resolve_left fun hplain => hplain.2 ?_
      rw [hsplit]
      exact List.mem_append_right before List.mem_cons_self
    · exact header?_of_head fun hhead => hc (Option.some.inj hhead)
  have hopening : Bare name ['"'] (s ++ ['"'] ++ rest) := by
    intro before after hsplit hne
    rcases List.append_eq_singleton_iff.mp hsplit.symm with ⟨-, rfl⟩ | ⟨-, rfl⟩
    · have hliteral := header?_literal hname h (hother.imp_left And.left)
      rwa [List.append_assoc]
    · exact absurd rfl hne
  exact hopening.append (hinside.append hclosing)

/-- A search for a field passes over such a part. -/
theorem first?_of_bare {name part rest : List Char} (h : Bare name part rest) :
    first? (header? name) (part ++ rest) = first? (header? name) rest :=
  first?_append h

/-! ## The text of an object of texts -/

/-- The end of a value: a comma, a brace, or the end of the text. -/
def Closes (rest : List Char) : Prop :=
  ∀ c, rest.head? = some c → c = ',' ∨ c = '\x7d'

/-- What closes a field does not go on with a name. -/
theorem Closes.not_name {rest : List Char} (h : Closes rest) :
    ∀ c, rest.head? = some c → isNameChar c = false := by
  intro c hc
  rcases h c hc with rfl | rfl <;> rfl

/-- So the text in front of it is no name of another field. -/
theorem Closes.no_colon {rest : List Char} (h : Closes rest) :
    (trimStart rest).head? ≠ some ':' := by
  cases rest with
  | nil => exact fun hnil => by cases hnil
  | cons c rest => rcases h c rfl with rfl | rfl <;> exact fun hcolon => by cases hcolon

/-- A name is written as it is, since none of its characters is escaped. -/
theorem body_of_isName {name : List Char} (h : IsName name) (asciiOnly : Bool) :
    body asciiOnly name = name := by
  have hescaped : ∀ c ∈ name, escaped asciiOnly c = [c] := by
    intro c hc
    have hrange := h.chars c hc
    simp only [isNameChar, Bool.or_eq_true, Bool.and_eq_true, decide_eq_true_eq] at hrange
    have hnumber : c.toNat = 0x5F ∨ 0x61 ≤ c.toNat ∧ c.toNat ≤ 0x7A :=
      hrange.imp (congrArg Char.toNat) id
    have hbeyond : ¬ (asciiOnly && decide (0x7F ≤ c.toNat)) = true := by
      rw [Bool.and_eq_true, decide_eq_true_eq]
      omega
    rw [escaped, if_neg (h.ne hc rfl), if_neg (h.ne hc rfl), if_neg (h.ne hc rfl),
      if_neg (h.ne hc rfl), if_neg (h.ne hc rfl), if_neg (by omega), if_neg (by omega),
      if_neg (by omega), if_neg hbeyond]
  unfold body
  rw [List.flatMap_congr hescaped]
  simp

/-- A field as it stands in the text of an object. -/
def fieldChars (entry : String × String) : List Char :=
  literal true entry.1.toList ++ [':', ' '] ++ literal true entry.2.toList

/-- No field of another name begins in a field. -/
theorem bare_field {name : List Char} (hname : IsName name) {entry : String × String}
    (hentry : IsName entry.1.toList) (hne : name ≠ entry.1.toList) {rest : List Char}
    (hrest : Closes rest) : Bare name (fieldChars entry) rest := by
  have hkey : Bare name (literal true entry.1.toList) (':' :: ' ' ::
      (literal true entry.2.toList ++ rest)) := by
    rw [literal, body_of_isName hentry]
    have hinner : Inner entry.1.toList :=
      inner_of_plain fun c hc => ⟨hentry.ne hc rfl, hentry.ne hc rfl⟩
    refine bare_literal hname hinner (fun c hc => ?_) (.inl ⟨hne, fun hquote => ?_⟩)
    · cases hc
      rfl
    · exact hentry.ne hquote rfl rfl
  have hcolon : Bare name [':', ' '] (literal true entry.2.toList ++ rest) :=
    bare_of_notMem (by decide) name _
  have hvalue : Bare name (literal true entry.2.toList) rest :=
    bare_literal hname (inner_body true _) hrest.not_name (.inr hrest.no_colon)
  have hbehind : Bare name (literal true entry.1.toList ++ [':', ' '])
      (literal true entry.2.toList ++ rest) := by
    refine Bare.append ?_ hcolon
    simpa using hkey
  -- Key, colon and value in a row, none of which begins the header sought.
  exact hbehind.append hvalue

/-- The header of a field leads to the literal of its value. -/
theorem header?_field {entry : String × String} (hentry : IsName entry.1.toList)
    (rest : List Char) :
    header? entry.1.toList (fieldChars entry ++ rest) =
      some (literal true entry.2.toList ++ rest) := by
  rw [header?_eq_some]
  refine ⟨':' :: ' ' :: (literal true entry.2.toList ++ rest),
    ' ' :: (literal true entry.2.toList ++ rest), ?_, rfl, rfl⟩
  rw [fieldChars, literal, body_of_isName hentry]
  simp

/-- The members of an object of texts. -/
def membersChars (fields : Fields String) : List Char :=
  memberChars spacedAscii (fields.mapValues .str)

theorem membersChars_cons (entry next : String × String) (fields : Fields String) :
    membersChars (entry :: next :: fields) =
      fieldChars entry ++ ',' :: ' ' :: membersChars (next :: fields) := by
  have hchars : chars spacedAscii (.str entry.2) = literal true entry.2.toList := rfl
  have htail : Fields.mapValues Json.str (entry :: next :: fields) =
      (entry.1, .str entry.2) :: (next.1, .str next.2) :: Fields.mapValues .str fields := rfl
  rw [membersChars, htail, memberChars, hchars]
  simp [fieldChars, membersChars, Fields.mapValues, spacedAscii]

theorem membersChars_singleton (entry : String × String) :
    membersChars [entry] = fieldChars entry := rfl

theorem closes_nil : Closes [] := by
  rintro c ⟨⟩

theorem closes_comma (rest : List Char) : Closes (',' :: rest) := by
  rintro c ⟨⟩
  exact .inl rfl

/-- A search passes over a field of another name and the comma behind it. -/
theorem first?_field {name : List Char} (hname : IsName name) {entry : String × String}
    (hentry : IsName entry.1.toList) (hne : name ≠ entry.1.toList) (rest : List Char) :
    first? (header? name) (fieldChars entry ++ ',' :: ' ' :: rest) =
      first? (header? name) rest := by
  have hcomma : Bare name [',', ' '] rest := bare_of_notMem (by decide) name rest
  rw [first?_of_bare (bare_field hname hentry hne (closes_comma _))]
  exact first?_of_bare hcomma

/-- A search passes over the members of an object if none of them has the name. -/
theorem first?_members_of_notMem {name : List Char} (hname : IsName name) {fields : Fields String}
    (hfields : ∀ entry ∈ fields, IsName entry.1.toList ∧ name ≠ entry.1.toList)
    {rest : List Char} (hrest : Closes rest) :
    first? (header? name) (membersChars fields ++ rest) = first? (header? name) rest := by
  induction fields with
  | nil => rfl
  | cons entry fields ih =>
      obtain ⟨⟨hentry, hne⟩, hothers⟩ := List.forall_mem_cons.mp hfields
      cases fields with
      | nil => exact first?_of_bare (bare_field hname hentry hne hrest)
      | cons next fields =>
          rw [membersChars_cons, List.append_assoc]
          exact (first?_field hname hentry hne _).trans (ih hothers)

/-- A search finds the member of an object that has the name. -/
theorem first?_members_of_get? {name value : String} {fields : Fields String}
    (hfields : ∀ entry ∈ fields, IsName entry.1.toList)
    (hget : Fields.get? fields name = some value) (rest : List Char) :
    ∃ more, first? (header? name.toList) (membersChars fields ++ rest) =
      some (literal true value.toList ++ more) := by
  induction fields with
  | nil => cases hget
  | cons entry fields ih =>
      obtain ⟨hentry, hothers⟩ := List.forall_mem_cons.mp hfields
      obtain ⟨key, text⟩ := entry
      have hhere := header?_field hentry
      -- The header is found at the entry that has the name, and at none before it.
      rw [Fields.get?] at hget
      split at hget
      · rename_i hkey
        cases hget
        subst hkey
        cases fields with
        | nil => exact ⟨rest, first?_of_eq_some (hhere rest)⟩
        | cons next fields =>
            rw [membersChars_cons, List.append_assoc]
            exact ⟨_, first?_of_eq_some (hhere _)⟩
      · rename_i hkey
        cases fields with
        | nil => cases hget
        | cons next fields =>
            obtain ⟨more, hmore⟩ := ih hothers hget
            have hname : IsName name.toList := hothers _ (Fields.mem_of_get? hget)
            have hne : name.toList ≠ key.toList := fun heq => hkey (String.toList_inj.mp heq.symm)
            refine ⟨more, ?_⟩
            rw [membersChars_cons, List.append_assoc]
            exact (first?_field hname hentry hne _).trans hmore

/-! ## Fields that are found -/

/-- A field whose literal is found has the text that the literal was written for. -/
theorem textField?_of_first? {name value : String} {s more : List Char}
    (h : first? (header? name.toList) s = some (literal true value.toList ++ more)) :
    textField? name s = some value := by
  have hfound : first? (fun s => (quotedHeader? name.toList s).bind literal?) s =
      some (body true value.toList) := by
    refine first?_of_first? (fun t ht => ?_) (fun t ht => ?_) h
    · rw [quotedHeader?, ht]
      rfl
    · have hquote : quotedHeader? name.toList t = some (body true value.toList ++ '"' :: more) := by
        rw [quotedHeader?, ht, Option.bind_some, after?_eq_some]
        simp [literal]
      rw [hquote, Option.bind_some, literal?_of_inner (inner_body true _)]
  rw [textField?, hfound, Option.map_some, decoded_body]

/-- An input is salvaged where it was written as a literal. -/
theorem inputField?_of_first? {value : String} {s more : List Char}
    (h : first? (header? "action_input".toList) s = some (literal true value.toList ++ more)) :
    inputField? s = some value := by
  have hliteral : literal? (body true value.toList ++ ['"'] ++ more) =
      some (body true value.toList) := by
    rw [List.append_assoc]
    exact literal?_of_inner (inner_body true _) more
  rw [inputField?, h, Option.bind_some]
  show (literal? (body true value.toList ++ ['"'] ++ more)).map decoded = _
  rw [hliteral, Option.map_some, decoded_body]

/-- Without a header there is no answer. -/
theorem answerField?_of_first? {s : List Char}
    (h : first? (header? "final_answer".toList) s = none) : answerField? s = none := by
  have hnone : first? (quotedHeader? "final_answer".toList) s = none := by
    rw [first?_eq_none] at h ⊢
    intro t ht
    rw [quotedHeader?, h t ht]
    rfl
  rw [answerField?, hnone]
  rfl

end ReAct.Reply.Salvage

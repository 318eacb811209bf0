import ReAct.Json.Display
import ReAct.Proofs.Json.Distinct
import ReAct.Proofs.Json.Nesting

/-!
# Displayed values that read as JSON

A value is displayed in a notation that looks like JSON and is not: it has other words, and its
texts stand in single quotes.  Some values are displayed as JSON texts of themselves nonetheless,
such as numbers, and objects all of whose texts have an apostrophe and are therefore put in double
quotes.  These are the legible ones, and there are no others (`ofChars?_shown_iff`).

What decides is the first part of the displayed value that is not legible: there the scanner comes
to a state from which no text leads to a value (`Scan.Hopeless`), so what follows does not matter.
Until then it reads what was displayed.  Both are proved at once, part by part (`Scan.Settled`).

## Main Definitions

* `Legible`: a value that is displayed as a JSON text of itself
* `Scan.Settled`: a state that is as it should be or hopeless, as a proposition says
-/

namespace ReAct.Json

open Text

variable {controls : Controls}

/-! ## Legible values -/

/-- A character that is shown between double quotes as a string literal may write it: as itself or
by an escape that there is in literals, too. -/
def LegibleChar (c : Char) : Prop :=
  isPrintable c = true ∨ c ∈ ['\n', '\r', '\t'] ∨ 0xFF < c.toNat ∧ c.toNat ≤ 0xFFFF

/-- A text that is shown between double quotes, and there as a string literal may write it. -/
structure LegibleText (s : List Char) : Prop where
  apostrophe : '\'' ∈ s
  quote : '"' ∉ s
  chars : ∀ c ∈ s, LegibleChar c

/-- A value that is displayed as a JSON text of itself. -/
inductive Legible : Json → Prop
  | int (value : Int) : Legible (.int value)
  | float (negative : Bool) (rank : Fin Double.rankLimit) : Legible (.float (.finite negative rank))
  | str {value : String} (h : LegibleText value.toList) : Legible (.str value)
  | arr {items : List Json} (h : ∀ v ∈ items, Legible v) : Legible (.arr items)
  | obj {members : List (String × Json)} (hnames : (Fields.names members).Nodup)
      (htexts : ∀ entry ∈ members, LegibleText entry.1.toList)
      (h : ∀ entry ∈ members, Legible entry.2) : Legible (.obj members)

theorem legible_arr {items : List Json} : Legible (.arr items) ↔ ∀ v ∈ items, Legible v :=
  ⟨fun | .arr h => h, .arr⟩

/-- An object is legible if all names and all values are. -/
theorem legible_obj {members : Fields Json} (hnames : members.names.Nodup) :
    Legible (.obj members) ↔
      ∀ entry ∈ members, LegibleText entry.1.toList ∧ Legible entry.2 := by
  constructor
  · rintro (_ | _ | _ | _ | ⟨-, htexts, h⟩) entry hentry
    exact ⟨htexts entry hentry, h entry hentry⟩
  · exact fun h => .obj hnames (fun entry hentry => (h entry hentry).1)
      fun entry hentry => (h entry hentry).2

/-- Only objects with distinct names are legible. -/
theorem Legible.distinct {v : Json} (h : v.Legible) : v.Distinct := by
  induction h with
  | int value => exact .int value
  | float negative rank => exact .float _
  | str => exact .str _
  | arr _ ih => exact .arr ih
  | obj hnames _ _ ih => exact .obj hnames ih

/-! ## Settled states -/

/-- A state that is as it should be if a proposition holds, and hopeless otherwise. -/
structure Scan.Settled (controls : Controls) (p : Prop) (good : Scan → Prop) (s : Scan) : Prop where
  good : p → good s
  hopeless : ¬ p → s.Hopeless controls

namespace Scan.Settled

variable {p q : Prop} {good next : Scan → Prop} {s : Scan}

/-- What is so may be shown by a state that is good. -/
theorem of_true (hp : p) (h : good s) : s.Settled controls p good :=
  ⟨fun _ => h, fun hnot => absurd hp hnot⟩

/-- What is not so may be shown by a state without hope. -/
theorem of_false (hp : ¬ p) (h : s.Hopeless controls) : s.Settled controls p good :=
  ⟨fun htrue => absurd htrue hp, fun _ => h⟩

/-- **More text.**  It matters only where the state is as it should be. -/
theorem append (h : s.Settled controls p good) {t : List Char}
    (hnext : good s → (t.foldl (Scan.step controls) s).Settled controls q next) :
    (t.foldl (Scan.step controls) s).Settled controls (p ∧ q) next := by
  by_cases hp : p
  · have hq := hnext (h.good hp)
    exact ⟨fun hboth => hq.good hboth.2, fun hnot => hq.hopeless fun hq => hnot ⟨hp, hq⟩⟩
  · exact .of_false (fun hboth => hp hboth.1) ((h.hopeless hp).foldl t)

/-- What is shown may be said in another way. -/
theorem congr (h : s.Settled controls p good) (hp : q ↔ p) : s.Settled controls q good :=
  ⟨fun hq => h.good (hp.mp hq), fun hnot => h.hopeless fun htrue => hnot (hp.mpr htrue)⟩

/-- What a good state is may be said less precisely. -/
theorem mono (h : s.Settled controls p good) (hgood : good s → next s) :
    s.Settled controls p next :=
  ⟨fun hp => hgood (h.good hp), h.hopeless⟩

end Scan.Settled

/-! ## Words -/

/-- The displayed words that are none of JSON. -/
def displayedWords : List (List Char) :=
  [['N', 'o', 'n', 'e'], ['T', 'r', 'u', 'e'], ['F', 'a', 'l', 's', 'e'], ['n', 'a', 'n'],
    ['i', 'n', 'f'], ['-', 'i', 'n', 'f']]

/-- The words for truth values and nothing are no JSON words, whatever follows them. -/
theorem wordValue?_displayed {word : List Char}
    (hword : word ∈ displayedWords) (more : List Char) :
    wordValue? (word ++ more) = none := by
  have hhead {c : Char} (hdigit : isAsciiDigit c = false) (hminus : c ≠ '-') (rest : List Char) :
      Decimal.readNumber? (c :: rest) = none := Decimal.readNumber?_of_head hdigit hminus rest
  have hsign : Decimal.readNumber? ('-' :: 'i' :: 'n' :: 'f' :: more) = none :=
    Decimal.readUnsigned?_of_head true (c := 'i') rfl ('n' :: 'f' :: more)
  simp only [displayedWords, List.mem_cons, List.not_mem_nil, or_false] at hword
  rcases hword with rfl | rfl | rfl | rfl | rfl | rfl
  · simp [wordValue?, hhead (c := 'N') rfl (by decide)]
  · exact wordValue?_of_head rfl (by decide) _
  · exact wordValue?_of_head rfl (by decide) _
  · simp [wordValue?, hhead (c := 'n') rfl (by decide)]
  · exact wordValue?_of_head rfl (by decide) _
  · simp [wordValue?, hsign]

/-- So a text in which such a word stands where a value is due is no JSON text. -/
theorem hopeless_displayed {word : List Char}
    (hword : word ∈ displayedWords) (tokens : List Token) :
    (word.foldl (Scan.step controls) ⟨tokens, .between⟩).Hopeless controls := by
  refine hopeless_of_word ?_ ?_ fun more v hv => ?_
  · rintro rfl
    exact absurd hword (by decide)
  · intro c hc
    have hall : displayedWords.all fun word => word.all fun c => !endsWord c := rfl
    simpa using List.all_eq_true.mp (List.all_eq_true.mp hall word hword) c hc
  · rw [wordValue?_displayed hword] at hv
    cases hv

/-! ## Quoted texts -/

/-- Control characters are not printable. -/
theorem isPrintable_ge {c : Char} (h : isPrintable c = true) : 0x20 ≤ c.toNat := by
  unfold isPrintable at h
  split at h
  · simp only [Bool.and_eq_true, decide_eq_true_eq] at h
    exact h.1
  · omega

/-- A character between double quotes. -/
theorem scan_quotedChar (tokens : List Token) (value : List Char) {c : Char} (hc : c ≠ '"') :
    ((quotedChar isPrintable '"' c).foldl (Scan.step controls)
      ⟨tokens, .inText value .plain⟩).Settled controls (LegibleChar c)
        (· = ⟨tokens, .inText (c :: value) .plain⟩) := by
  -- JSON has no escape `\x` and none `\U`, so a text with one of them is lost for good.
  have hfault (mark : Char) (hmark : mark = 'x' ∨ mark = 'U') (digits : List Char) :
      (('\\' :: mark :: digits).foldl (Scan.step controls)
        ⟨tokens, .inText value .plain⟩).Hopeless controls := by
    have hfailed : (['\\', mark].foldl (Scan.step controls) ⟨tokens, .inText value .plain⟩).Hopeless
        controls := by
      rcases hmark with rfl | rfl <;> exact Scan.Dead.hopeless (.inl rfl)
    exact hfailed.foldl digits
  unfold quotedChar
  split
  -- The cases are those of `quotedChar`: back-slash, line feed, carriage return, tab, printable
  -- characters.
  · rename_i hslash
    obtain rfl := hslash.resolve_right hc
    exact .of_true (.inl rfl) rfl
  rename_i hslash
  split
  · rename_i hfeed
    subst hfeed
    exact .of_true (.inr (.inl (by decide))) rfl
  rename_i hfeed
  split
  · rename_i hreturn
    subst hreturn
    exact .of_true (.inr (.inl (by decide))) rfl
  rename_i hreturn
  split
  · rename_i htab
    subst htab
    exact .of_true (.inr (.inl (by decide))) rfl
  rename_i htab
  split
  · rename_i hshown
    have hcontrol : ¬ (c.toNat < 0x20 ∧ controls = .refused) := fun h =>
      Nat.not_lt.mpr (isPrintable_ge hshown) h.1
    refine .of_true (.inl hshown) ?_
    rw [List.foldl_cons, Scan.step_inText controls tokens value (.inr hc), stepText,
      if_neg fun h => hslash (.inl h), if_neg hcontrol]
    rfl
  rename_i hshown
  -- What is left is shown by its number, in one of three lengths; only the middle one is JSON.
  have hlegible : LegibleChar c ↔ 0xFF < c.toNat ∧ c.toNat ≤ 0xFFFF := by
    simp [LegibleChar, hshown, hfeed, hreturn, htab]
  refine Scan.Settled.congr ?_ hlegible
  split
  · exact .of_false (by omega) (hfault 'x' (.inl rfl) _)
  split
  · have hvalid : c.toNat < 0xD800 ∨ 0xDFFF < c.toNat ∧ c.toNat < 0x110000 := c.valid
    refine .of_true (by omega) ((scan_unitEscape controls tokens value (by omega)).trans ?_)
    rw [numbered, if_neg (by omega), if_neg (by omega), Char.ofNat_toNat]
  · exact .of_false (by omega) (hfault 'U' (.inr rfl) _)

/-- What is shown between double quotes is a JSON literal exactly if every character shows as JSON
writes it, or as itself; by induction on the characters. -/
theorem scan_quotedChars (tokens : List Token) {s : List Char} (hs : '"' ∉ s) :
    ∀ value : List Char,
      ((s.flatMap (quotedChar isPrintable '"')).foldl (Scan.step controls)
        ⟨tokens, .inText value .plain⟩).Settled controls (∀ c ∈ s, LegibleChar c)
          (· = ⟨tokens, .inText (s.reverse ++ value) .plain⟩) := by
  induction s with
  | nil => exact fun _ => .of_true (by simp) rfl
  | cons c s ih =>
      intro value
      rw [List.mem_cons, not_or] at hs
      rw [List.flatMap_cons, List.foldl_append]
      refine Scan.Settled.congr ?_ List.forall_mem_cons
      refine (scan_quotedChar tokens value (Ne.symm hs.1)).append fun hread => ?_
      rw [hread, List.reverse_cons, List.append_assoc]
      exact ih hs.2 (c :: value)

/-- A quoted text between tokens. -/
theorem scan_quoted (tokens : List Token) (s : List Char) :
    ((quoted s).foldl (Scan.step controls) ⟨tokens, .between⟩).Settled controls (LegibleText s)
      (· = ⟨.text (String.ofList s) :: tokens, .between⟩) := by
  unfold quoted quotedWith quoteFor
  by_cases hquote : '\'' ∈ s ∧ '"' ∉ s
  -- Double quotes are taken for an apostrophe without them: then the text is a literal of JSON.
  · have hcond : (s.contains '\'' && !s.contains '"') = true := by simpa using hquote
    have hlegible : LegibleText s ↔ (∀ c ∈ s, LegibleChar c) ∧ True :=
      ⟨fun h => ⟨h.chars, trivial⟩, fun h => ⟨hquote.1, hquote.2, h.1⟩⟩
    rw [if_pos hcond, List.cons_append, List.foldl_cons, Scan.step_between, stepBetween_quote,
      List.foldl_append]
    refine Scan.Settled.congr ?_ hlegible
    refine (scan_quotedChars tokens hquote.2 []).append fun hread => .of_true trivial ?_
    rw [hread, List.foldl_cons, Scan.step_quote, List.append_nil, List.reverse_reverse]
    rfl
  · have hcond : ¬ (s.contains '\'' && !s.contains '"') = true := by simpa using hquote
    -- Otherwise a single quote begins a word that has no value, however it goes on.
    have hword : (['\''].foldl (Scan.step controls) ⟨tokens, .between⟩).Hopeless controls := by
      refine hopeless_of_word (List.cons_ne_nil _ _) (List.forall_mem_singleton.mpr rfl)
        fun more v hv => ?_
      rw [List.singleton_append, wordValue?_of_head rfl (by decide)] at hv
      cases hv
    rw [if_neg hcond, List.cons_append]
    exact .of_false (fun h => hquote ⟨h.apostrophe, h.quote⟩) (hword.foldl _)

/-! ## Values -/

/-- A displayed value where a value is due. -/
def Settles (controls : Controls) (v : Json) : Prop :=
  ∀ (s : Scan) (fresh : Bool) (stack : List Frame), s.Between (.value fresh stack) →
    ((shown v).foldl (Scan.step controls) s).Settled controls v.Legible (·.Stands (deliver v stack))

/-- A legible value that is shown as a JSON word. -/
theorem settles_word {v : Json} (hv : v.Legible) (h : IsWord (shown v) v) : Settles controls v :=
  fun _ _ _ hs => .of_true hv (hs.word controls h)

/-- A value that is shown as a word of the other notation. -/
theorem settles_displayed {v : Json} (hv : ¬ v.Legible)
    (h : shown v ∈ displayedWords) : Settles controls v := by
  rintro ⟨tokens, mode⟩ fresh stack ⟨hmode, -⟩
  cases hmode
  exact .of_false hv (hopeless_displayed h tokens)

/-- A quoted text where a text is due. -/
theorem Scan.Between.quoted {due : Due} {s : Scan} (h : s.Between due) (t : String) :
    ((Text.quoted t.toList).foldl (Scan.step controls) s).Settled controls (LegibleText t.toList)
      (·.Between (due.step (.text t))) := by
  obtain ⟨tokens, mode⟩ := s
  obtain ⟨hmode, hdue⟩ := h
  cases hmode
  refine (scan_quoted tokens t.toList).mono fun hread => ?_
  rw [hread, String.ofList_toList]
  exact ⟨rfl, congrArg (fun due => Due.step due (.text t)) hdue⟩

/-- A text is shown in quotes; single ones are no quotes of JSON. -/
theorem settles_str (t : String) : Settles controls (.str t) := by
  intro s fresh stack hs
  have hlegible : Legible (.str t) ↔ LegibleText t.toList := ⟨fun | .str h => h, .str⟩
  exact ((hs.quoted t).congr hlegible).mono .between

/-- The items of a displayed list.  The induction is on the items that are still to be read. -/
theorem settles_items {items : List Json} (hne : items ≠ [])
    (hitems : ∀ v ∈ items, Settles controls v) :
    ∀ {s : Scan} {fresh : Bool} {read : List Json} {stack : List Frame},
      s.Between (.value fresh (.items read :: stack)) →
        ((shownItems items).foldl (Scan.step controls) s).Settled controls
          (∀ v ∈ items, v.Legible) (·.Stands (.afterItem (items.reverse ++ read) stack)) := by
  induction items with
  | nil => exact absurd rfl hne
  | cons x rest ih =>
      intro s fresh read stack hs
      obtain ⟨hx, hrest⟩ := List.forall_mem_cons.mp hitems
      have hvalue := hx s fresh _ hs
      -- The last item has no comma behind it, so the induction is on lists that are not empty.
      cases rest with
      | nil => exact hvalue.congr (by simp)
      | cons y rest =>
          rw [shownItems, List.foldl_append]
          refine Scan.Settled.congr ?_ List.forall_mem_cons
          refine hvalue.append fun hread => ?_
          have hcomma := scan_separator controls (n := 1)
            (rfl : punctuation? ',' = some .comma) rfl hread
          have hmore := ih (List.cons_ne_nil y rest) hrest hcomma
          rw [List.reverse_cons, List.append_assoc]
          exact hmore

/-- A list settles if its items do: one item that is no JSON text spoils the list. -/
theorem settles_arr {items : List Json} (hitems : ∀ v ∈ items, Settles controls v) :
    Settles controls (.arr items) := by
  intro s fresh stack hs
  have hopen := (Scan.Stands.between hs).punctuation controls
    (rfl : punctuation? '[' = some .openBracket)
  rw [shown, List.cons_append, List.foldl_cons, List.foldl_append]
  cases items with
  | nil =>
      exact .of_true (.arr (by simp)) (.between ((Scan.Stands.between hopen).punctuation controls
        (rfl : punctuation? ']' = some .closeBracket)))
  | cons x rest =>
      refine Scan.Settled.congr ?_ (legible_arr.trans (iff_of_eq (and_true _)).symm)
      refine (settles_items (List.cons_ne_nil x rest) hitems hopen).append fun hread => ?_
      have hclose := hread.punctuation controls (rfl : punctuation? ']' = some .closeBracket)
      rw [Due.step, List.append_nil, List.reverse_reverse] at hclose
      exact .of_true trivial (.between hclose)

/-- The members of a displayed object.  As no name occurs twice, each is put behind those read
before. -/
theorem settles_members {members : Fields Json} (hne : members ≠ [])
    (hmembers : ∀ entry ∈ members, Settles controls entry.2) :
    ∀ {s : Scan} {fresh : Bool} {read : Fields Json} {stack : List Frame},
      (Fields.names (read ++ members)).Nodup → s.Between (.name fresh read stack) →
        ((shownMembers members).foldl (Scan.step controls) s).Settled controls
          (∀ entry ∈ members, LegibleText entry.1.toList ∧ entry.2.Legible)
          (·.Stands (.afterMember (read ++ members) stack)) := by
  induction members with
  | nil => exact absurd rfl hne
  | cons entry rest ih =>
      intro s fresh read stack hnames hs
      obtain ⟨name, x⟩ := entry
      obtain ⟨hx, hrest⟩ := List.forall_mem_cons.mp hmembers
      -- The name is new, so putting it behind the members read so far hides none of them.
      have hname : name ∉ Fields.names read := by
        intro hmem
        rw [Fields.names, List.map_append, List.nodup_append] at hnames
        exact hnames.2.2 name hmem name (by simp) rfl
      -- One member, and then the comma and the rest as the induction hypothesis has them.
      have hmember : ((quoted name.toList ++ ':' :: ' ' :: shown x).foldl (Scan.step controls)
          s).Settled controls (LegibleText name.toList ∧ x.Legible)
            (·.Stands (.afterMember (read ++ [(name, x)]) stack)) := by
        rw [List.foldl_append]
        refine (hs.quoted name).append fun hread => ?_
        have hcolon := scan_separator controls (n := 1)
          (rfl : punctuation? ':' = some .colon) rfl (.between hread)
        have hvalue := hx _ false _ hcolon
        rw [deliver, Fields.put_of_notMem x hname] at hvalue
        exact hvalue
      cases rest with
      | nil => exact hmember.congr (by simp)
      | cons y rest =>
          have htext : shownMembers ((name, x) :: y :: rest) =
              (quoted name.toList ++ ':' :: ' ' :: shown x) ++
                ([',', ' '] ++ shownMembers (y :: rest)) := by
            simp [shownMembers]
          rw [htext, List.foldl_append]
          refine Scan.Settled.congr ?_ List.forall_mem_cons
          refine hmember.append fun hread => ?_
          have hcomma := scan_separator controls (n := 1)
            (rfl : punctuation? ',' = some .comma) rfl hread
          have hmore := ih (List.cons_ne_nil y rest) hrest (by simpa using hnames) hcomma
          rwa [List.append_assoc] at hmore

/-- An object settles if its values do; its names are shown as texts are. -/
theorem settles_obj {members : Fields Json} (hnames : members.names.Nodup)
    (hmembers : ∀ entry ∈ members, Settles controls entry.2) : Settles controls (.obj members) := by
  intro s fresh stack hs
  have hopen := (Scan.Stands.between hs).punctuation controls
    (rfl : punctuation? '\x7b' = some .openBrace)
  rw [shown, List.cons_append, List.foldl_cons, List.foldl_append]
  cases members with
  | nil =>
      exact .of_true (.obj hnames (by simp) (by simp)) (.between
        ((Scan.Stands.between hopen).punctuation controls
          (rfl : punctuation? '\x7d' = some .closeBrace)))
  | cons entry rest =>
      refine Scan.Settled.congr ?_ ((legible_obj hnames).trans (iff_of_eq (and_true _)).symm)
      refine (settles_members (List.cons_ne_nil entry rest) hmembers hnames hopen).append
        fun hread => ?_
      exact .of_true trivial (.between (hread.punctuation controls
        (rfl : punctuation? '\x7d' = some .closeBrace)))

/-- **A displayed value is read, or it is hopeless.** -/
theorem settles_of_distinct {v : Json} (h : v.Distinct) : Settles controls v := by
  induction h with
  | null => exact settles_displayed (fun h => by cases h) (by decide)
  | bool value =>
      cases value with
      | true => exact settles_displayed (fun h => by cases h) (by decide)
      | false => exact settles_displayed (fun h => by cases h) (by decide)
  | int value => exact settles_word (.int value) (isWord_integer value)
  | float value =>
      cases value with
      -- A finite number is shown as JSON writes it; the other three are shown as words of their
      -- own.
      | finite negative rank =>
          exact settles_word (.float negative rank)
            (isWord_of_number (Decimal.readNumber?_text _ negative rank)
              (Decimal.text_isNumberChar _ negative rank))
      | infinite negative =>
          cases negative with
          | true => exact settles_displayed (fun h => by cases h) (by decide)
          | false => exact settles_displayed (fun h => by cases h) (by decide)
      | nan => exact settles_displayed (fun h => by cases h) (by decide)
  | str value => exact settles_str value
  | arr _ ih => exact settles_arr ih
  | obj hnames _ ih => exact settles_obj hnames ih

/-- **Which displayed values are JSON texts of themselves**: the legible ones. -/
theorem ofChars?_shown_iff {v : Json} : ofChars? controls (shown v) = some v ↔ v.Legible := by
  constructor
  · intro h
    by_contra hlegible
    have hsettled := @settles_of_distinct controls v (distinct_of_ofChars? h) _ false []
      Scan.between_start
    have hnone := hsettled.hopeless hlegible []
    rw [List.foldl_nil, ← ofChars?_eq, h] at hnone
    cases hnone
  · intro h
    have hsettled := @settles_of_distinct controls v h.distinct _ false [] Scan.between_start
    exact (hsettled.good h).value?_eq

end ReAct.Json

import ReAct.Proofs.Reply.RawAnswer
import ReAct.Proofs.Text.Blank

/-!
# An answer that breaks off

An object with a thought and an answer that lacks its closing brace is salvaged, too.  The answer
then ends at the last quote with a closing brace behind it or, if there is none, at the end of the
text.  The search for that quote does not know of escapes: a quote of the answer counts although a
back-slash stands before it.  So an answer that itself quotes the end of an object is cut there, in
front of the quote and behind its back-slash (`last?_closesObject_body`), and what is left is no
literal.  Its escaped quotes are replaced one by one, and it has fewer quotes than the answer
(`decoded_cut`).

Every other answer is read as it was written (`turnOf_openAnswer_iff`).

## Main Definitions

* `answered`: the fields of an answer with a thought
* `QuotesClosing`: the texts in which a quote has a closing brace behind it, over spaces
-/

namespace ReAct.Reply

open Json Salvage Text

/-! ## Escapes in ASCII -/

/-- What is written for a character where only ASCII characters may stand: the character itself, if
it is printable, or a back-slash and a part with a quote in it for a quote only. -/
inductive AsciiEscape (c : Char) : List Char → Prop
  | self (hquote : c ≠ '"') (hprintable : 0x20 ≤ c.toNat ∧ c.toNat < 0x7F) : AsciiEscape c [c]
  | slash {t : List Char} (hspace : c ≠ ' ') (hbrace : c ≠ '\x7d') (hquote : '"' ∈ t → c = '"') :
      AsciiEscape c ('\\' :: t)

theorem asciiEscape_of_not_printable {c : Char} {t : List Char}
    (h : c.toNat < 0x20 ∨ 0x7F ≤ c.toNat) (ht : '"' ∉ t) : AsciiEscape c ('\\' :: t) := by
  refine .slash ?_ ?_ fun hmem => absurd hmem ht
  · rintro rfl
    exact absurd h (by decide)
  · rintro rfl
    exact absurd h (by decide)

theorem quote_notMem_unitEscape (n : Nat) : '"' ∉ unitEscape n := fun hmem =>
  forall_mem_unitEscape (p := fun c => c ≠ '"') (by decide) (by decide) (by decide) n _ hmem rfl

theorem asciiEscape_unitEscape {c : Char} (h : c.toNat < 0x20 ∨ 0x7F ≤ c.toNat) (n : Nat) :
    AsciiEscape c (unitEscape n) :=
  asciiEscape_of_not_printable h fun hmem => quote_notMem_unitEscape n (List.mem_cons_of_mem _ hmem)

/-- Characters beyond ASCII are written as one escape by number or two. -/
theorem asciiEscape_unitEscapes {c : Char} (h : 0x7F ≤ c.toNat) :
    AsciiEscape c (unitEscapes c) := by
  unfold unitEscapes
  split
  · exact asciiEscape_unitEscape (.inr h) _
  · refine asciiEscape_of_not_printable (.inr h) fun hmem => ?_
    rcases List.mem_append.mp hmem with hhigh | hlow
    · exact quote_notMem_unitEscape _ (List.mem_cons_of_mem _ hhigh)
    · exact quote_notMem_unitEscape _ hlow

/-- How a character is written where only ASCII may stand, by the cases of the writer. -/
theorem asciiEscape_escaped (c : Char) : AsciiEscape c (escaped true c) := by
  have hcontrol {d : Char} (hd : d.toNat < 0x20) (hc : c = d) {t : List Char} (ht : '"' ∉ t) :
      AsciiEscape c ('\\' :: t) := asciiEscape_of_not_printable (.inl (hc ▸ hd)) ht
  have hnumbered {n : Nat} (hn : n < 0x20) (hc : c.toNat = n) {t : List Char} (ht : '"' ∉ t) :
      AsciiEscape c ('\\' :: t) := asciiEscape_of_not_printable (.inl (hc ▸ hn)) ht
  -- One branch for each kind of escape.  What a back-slash begins has no quote in it, but for the
  -- escaped quote itself.
  refine iteInduction (fun hquote => ?_) fun hquote => ?_
  · subst hquote
    exact .slash (by decide) (by decide) fun _ => rfl
  refine iteInduction (fun hslash => ?_) fun _ => ?_
  · subst hslash
    exact .slash (by decide) (by decide) fun hmem => absurd hmem (by decide)
  refine iteInduction (fun hc => hcontrol (by decide) hc (by decide)) fun _ => ?_
  refine iteInduction (fun hc => hcontrol (by decide) hc (by decide)) fun _ => ?_
  refine iteInduction (fun hc => hcontrol (by decide) hc (by decide)) fun _ => ?_
  refine iteInduction (fun hc => hnumbered (by decide) hc (by decide)) fun _ => ?_
  refine iteInduction (fun hc => hnumbered (by decide) hc (by decide)) fun _ => ?_
  refine iteInduction (fun hlow => asciiEscape_unitEscape (.inl hlow) _) fun hlow => ?_
  refine iteInduction (fun hhigh => ?_) fun hhigh => ?_
  · exact asciiEscape_unitEscapes (of_decide_eq_true hhigh)
  · have hlimit : ¬ 0x7F ≤ c.toNat := fun h => hhigh (decide_eq_true h)
    exact .self hquote ⟨by omega, by omega⟩

theorem body_cons_append (c : Char) (s rest : List Char) :
    body true (c :: s) ++ rest = escaped true c ++ (body true s ++ rest) := by
  rw [body, List.flatMap_cons, List.append_assoc]
  rfl

/-- Of the characters that are written, only quotes are written with a quote. -/
theorem quote_notMem_escaped {c : Char} (h : c ≠ '"') : '"' ∉ escaped true c := by
  intro hmem
  have hescape := asciiEscape_escaped c
  generalize escaped true c = t at hescape hmem
  cases hescape with
  | self => exact h (List.mem_singleton.mp hmem).symm
  | slash _ _ hquote =>
      rcases List.mem_cons.mp hmem with hslash | hmem
      · cases hslash
      · exact h (hquote hmem)

/-! ## Quotes that seem to close an object -/

/-- An answer is closed by a quote and a brace, with blanks between them. -/
theorem closesObject_eq (s : List Char) : closesObject s =
    if s.head? = some '"' ∧ (trimStart s.tail).head? = some '\x7d' then some () else none := by
  by_cases hquote : s.head? = some '"'
  · obtain ⟨rest, rfl⟩ := List.head?_eq_some_iff.mp hquote
    rw [closesObject, List.tail_cons]
    by_cases hbrace : (trimStart rest).head? = some '\x7d'
    · obtain ⟨more, hmore⟩ := List.head?_eq_some_iff.mp hbrace
      rw [if_pos ⟨rfl, hbrace⟩, hmore]
      rfl
    · rw [if_neg fun h => hbrace h.2]
      split
      · rename_i more hmore
        rw [hmore] at hbrace
        exact absurd rfl hbrace
      · rfl
  · rw [if_neg fun h => hquote h.1, closesObject]
    rintro rest rfl
    exact hquote rfl

/-- Whether a text starts with a quote that, over spaces, is followed by a closing brace. -/
def closingQuote? (s : List Char) : Option Unit :=
  if s.head? = some '"' ∧ (s.tail.dropWhile (· = ' ')).head? = some '\x7d' then some () else none

/-- A quote in the text has a closing brace behind it, over nothing but spaces. -/
def QuotesClosing (s : List Char) : Prop :=
  ∃ before after n, s = before ++ '"' :: List.replicate n ' ' ++ '\x7d' :: after

/-- Behind spaces there is a brace. -/
theorem head?_dropWhile_spaces {s : List Char} :
    (s.dropWhile (· = ' ')).head? = some '\x7d' ↔
      ∃ n after, s = List.replicate n ' ' ++ '\x7d' :: after := by
  induction s with
  | nil => simp
  | cons c s ih =>
      by_cases hspace : c = ' '
      · subst hspace
        rw [List.dropWhile_cons_of_pos (by rfl), ih]
        constructor
        · rintro ⟨n, after, rfl⟩
          exact ⟨n + 1, after, rfl⟩
        · rintro ⟨n, after, h⟩
          cases n with
          | zero => cases h
          | succ n => exact ⟨n, after, (List.cons.inj h).2⟩
      · rw [List.dropWhile_cons_of_neg (by simpa using hspace), List.head?_cons]
        constructor
        · intro h
          exact ⟨0, s, by rw [Option.some.inj h]; rfl⟩
        · rintro ⟨n, after, h⟩
          cases n with
          | zero => rw [(List.cons.inj h).1]
          | succ n => exact absurd (List.cons.inj h).1 hspace

/-- No quote closes here. -/
theorem closingQuote?_eq_none {s : List Char} : closingQuote? s = none ↔
    ∀ after n, s ≠ '"' :: List.replicate n ' ' ++ '\x7d' :: after := by
  rw [closingQuote?, ite_eq_right_iff]
  constructor
  · rintro h after n rfl
    cases h ⟨rfl, head?_dropWhile_spaces.mpr ⟨n, after, rfl⟩⟩
  · rintro h ⟨hquote, hbrace⟩
    obtain ⟨rest, rfl⟩ := List.head?_eq_some_iff.mp hquote
    obtain ⟨n, after, hrest⟩ := head?_dropWhile_spaces.mp hbrace
    exact absurd (congrArg _ hrest) (h after n)

/-- No quote closes anywhere. -/
theorem last?_closingQuote?_eq_none {s : List Char} :
    last? closingQuote? s = none ↔ ¬ QuotesClosing s := by
  simp only [last?_eq_none, closingQuote?_eq_none]
  constructor
  · rintro h ⟨before, after, n, hs⟩
    rw [List.append_assoc] at hs
    exact h _ ⟨before, hs.symm⟩ after n rfl
  · rintro h t ⟨before, rfl⟩ after n rfl
    exact h ⟨before, after, n, (List.append_assoc _ _ _).symm⟩

instance (s : List Char) : Decidable (QuotesClosing s) :=
  decidable_of_iff (¬ last? closingQuote? s = none) (by rw [last?_closingQuote?_eq_none, not_not])

/-- Of the characters in a literal only spaces are blank, and none of the others begins like a
brace. -/
theorem head?_trimStart_body (s : List Char) :
    (trimStart (body true s ++ ['"'])).head? = some '\x7d' ↔
      (s.dropWhile (· = ' ')).head? = some '\x7d' := by
  induction s with
  | nil => simp [body, trimStart, isBlank]
  | cons c s ih =>
      rw [body_cons_append]
      -- Spaces are the only blanks a written text can begin with: the others are escaped.
      by_cases hspace : c = ' '
      · subst hspace
        exact ih
      rw [List.dropWhile_cons_of_neg (by simpa using hspace), List.head?_cons]
      have hescape := asciiEscape_escaped c
      generalize escaped true c = t at hescape
      cases hescape with
      | self _ hprintable =>
          have hblank : ¬ isBlank c = true := by
            have hnumber : c.toNat ≠ 0x20 := fun h => hspace (Char.toNat_inj.mp h)
            simp only [isBlank, Bool.or_eq_true, Bool.and_eq_true, decide_eq_true_eq, beq_iff_eq]
            omega
          rw [trimStart, List.singleton_append, List.dropWhile_cons_of_neg hblank, List.head?_cons]
      | slash _ hbrace =>
          refine iff_of_false ?_ fun h => hbrace (Option.some.inj h)
          rw [trimStart, List.cons_append, List.dropWhile_cons_of_neg (by decide), List.head?_cons]
          decide

/-- **A quote of a text closes an object in its literal as it does in the text.**  The back-slash
before the quote is left behind. -/
theorem last?_closesObject_body (s : List Char) :
    last? closesObject (body true s ++ ['"']) =
      (last? closingQuote? s).map (Prod.map (fun before => body true before ++ ['\\']) id) := by
  induction s with
  | nil => rfl
  | cons c s ih =>
      rw [body_cons_append]
      by_cases hquote : c = '"'
      · subst hquote
        have hsame : closesObject ('"' :: (body true s ++ ['"'])) = closingQuote? ('"' :: s) := by
          rw [closesObject_eq, closingQuote?]
          simp only [List.head?_cons, List.tail_cons, head?_trimStart_body]
        have hslash : closesObject ('\\' :: '"' :: (body true s ++ ['"'])) = none := rfl
        have hescaped : escaped true '"' ++ (body true s ++ ['"']) =
            '\\' :: '"' :: (body true s ++ ['"']) := rfl
        rw [hescaped, last?, last?, ih, hslash, hsame, last?]
        cases last? closingQuote? s with
        | none => cases closingQuote? ('"' :: s) <;> rfl
        | some found => rfl
      -- No other character is written with a quote.
      · have hpart : ∀ before after, escaped true c = before ++ after → after ≠ [] →
            closesObject (after ++ (body true s ++ ['"'])) = none := by
          intro before after hsplit hne
          obtain ⟨d, after, rfl⟩ := List.exists_cons_of_ne_nil hne
          rw [closesObject_eq]
          refine if_neg fun h => quote_notMem_escaped hquote ?_
          rw [hsplit, ← Option.some.inj h.1]
          exact List.mem_append_right before List.mem_cons_self
        have hhere : closingQuote? (c :: s) = none := if_neg fun h => hquote (Option.some.inj h.1)
        rw [last?_append hpart, ih, last?, hhere]
        cases last? closingQuote? s with
        | none => rfl
        | some found =>
            obtain ⟨before, ⟨⟩⟩ := found
            exact congrArg some (Prod.ext (List.append_assoc _ _ _).symm rfl)

/-! ## What is left of the answer -/

/-- No literal begins with a quote inside of it. -/
theorem head?_escaped_append (c : Char) (t : List Char) :
    (escaped true c ++ t).head? ≠ some '"' := by
  have hescape := asciiEscape_escaped c
  generalize escaped true c = part at hescape
  cases hescape with
  | self hquote => exact fun hhead => hquote (Option.some.inj hhead)
  | slash => exact fun hhead => absurd (Option.some.inj hhead) (by decide)

/-- What is written for a character, but the back-slash before a quote. -/
def unquoted (c : Char) : List Char :=
  if c = '"' then [c] else escaped true c

/-- In a literal that breaks off behind a back-slash, the escaped quotes are replaced. -/
theorem replaceAll_body (s : List Char) :
    replaceAll '\\' ['"'] ['"'] (body true s ++ ['\\']) = s.flatMap unquoted ++ ['\\'] := by
  induction s with
  | nil => rfl
  | cons c s ih =>
      rw [body_cons_append, List.flatMap_cons, List.append_assoc, ← ih, unquoted]
      by_cases hquote : c = '"'
      · subst hquote
        rfl
      · rw [if_neg hquote]
        refine replaceAll_append_of_notMem (quote_notMem_escaped hquote) ?_ _
        cases s with
        | nil => decide
        | cons d s =>
            rw [body_cons_append]
            exact head?_escaped_append d _

/-- Unescaping keeps a quote, and makes none. -/
theorem count_unquoted (c : Char) : (unquoted c).count '"' = [c].count '"' := by
  rw [unquoted]
  split
  · rfl
  · rename_i hquote
    rw [List.count_eq_zero.mpr (quote_notMem_escaped hquote), List.count_eq_zero.mpr]
    exact fun hmem => hquote (List.mem_singleton.mp hmem).symm

/-- So it keeps the number of quotes. -/
theorem count_flatMap_unquoted (s : List Char) :
    (s.flatMap unquoted).count '"' = s.count '"' := by
  induction s with
  | nil => rfl
  | cons c s ih =>
      rw [List.flatMap_cons, List.count_append, count_unquoted, ih, ← List.count_append]
      rfl

/-- A literal that breaks off behind a back-slash is none. -/
theorem ofChars?_body_slash (s : List Char) :
    ofChars? .allowed ('"' :: (body true s ++ ['\\']) ++ ['"']) = none := by
  rw [ofChars?_eq, List.cons_append, List.foldl_cons, Scan.start, Scan.step_between,
    stepBetween_quote, List.foldl_append, List.foldl_append, scan_body]
  rfl

/-- **An answer that is cut in front of one of its quotes is not the answer.**  It has a quote
less. -/
theorem decoded_cut (before after : List Char) :
    (decoded (body true before ++ ['\\'])).toList ≠ before ++ '"' :: after := by
  rw [decoded, ofChars?_body_slash, String.toList_ofList, replaceAll_body]
  intro h
  have hcount := congrArg (List.count '"') h
  rw [List.count_append, List.count_append, count_flatMap_unquoted, List.count_cons_self,
    List.count_eq_zero.mpr (by decide : '"' ∉ ['\\'])] at hcount
  omega

/-! ## The turn -/

/-- The fields of an answer with a thought. -/
def answered (thought answer : String) : Fields String :=
  [("thought", thought), ("final_answer", answer)]

theorem nodup_answered (thought answer : String) : (answered thought answer).names.Nodup := by
  have hnodup : ["thought", "final_answer"].Nodup := by decide
  exact hnodup

theorem isName_answered (thought answer : String) :
    ∀ entry ∈ answered thought answer, IsName entry.1.toList := by
  simp only [answered, List.forall_mem_cons]
  exact ⟨isName_of_all (by decide) (by decide), isName_of_all (by decide) (by decide), by simp⟩

/-- Fields without a fence in their texts are written without one. -/
theorem not_infix_answered {thought answer : String} (hthought : ¬ fence <:+: thought.toList)
    (hanswer : ¬ fence <:+: answer.toList) :
    ¬ fence <:+: membersChars (answered thought answer) := by
  refine not_infix_membersChars ?_
  simp only [answered, List.forall_mem_cons]
  exact ⟨⟨not_infix_fence_of_notMem (by decide), hthought⟩,
    ⟨not_infix_fence_of_notMem (by decide), hanswer⟩, by simp⟩

/-- The written fields end with those of the answer. -/
theorem toList_unclosed_answered (thought answer : String) :
    (unclosed (answered thought answer)).toList =
      (unclosed [("thought", thought)]).toList ++
        (answerHeader ++ '"' :: (body true answer.toList ++ ['"'])) := by
  have hheader : answerHeader =
      [',', ' '] ++ (literal true "final_answer".toList ++ [':', ' ']) := by decide
  rw [toList_unclosed, toList_unclosed, answered, membersChars_cons, membersChars_singleton,
    membersChars_singleton, hheader, fieldChars, fieldChars]
  simp [literal]

/-- The thought stands in front of the answer, and is found. -/
theorem textField?_answered (thought answer : String) :
    textField? "thought" (unclosed (answered thought answer)).toList = some thought := by
  have hget : Fields.get? (answered thought answer) "thought" = some thought := rfl
  obtain ⟨more, hmore⟩ := first?_members_of_get? (isName_answered thought answer) hget []
  rw [← first?_unclosed, List.append_nil] at hmore
  exact textField?_of_first? hmore

/-- The end of the answer is found, or taken for one. -/
theorem answerField?_answered (thought answer : String) :
    ∃ given, answerField? (unclosed (answered thought answer)).toList = some given ∧
      (given = answer ↔ ¬ QuotesClosing answer.toList) := by
  rw [answerField?, toList_unclosed_answered, quotedHeader?_answerHeader, Option.map_some,
    last?_closesObject_body]
  cases hlast : last? closingQuote? answer.toList with
  -- No escaped quote is taken for the closing one, so the answer is the whole rest.
  | none =>
      have hend : openEnd (body true answer.toList ++ ['"']) = body true answer.toList := by
        have hblank (c : Char) (hc : (body true answer.toList ++ ['"']).getLast? = some c) :
            isBlank c = false := by
          rw [List.getLast?_concat] at hc
          obtain rfl := Option.some.inj hc
          rfl
        rw [openEnd, trimEnd_eq_self hblank, List.getLast?_concat, if_pos rfl, List.dropLast_concat]
      have hgiven : decoded (openEnd (body true answer.toList ++ ['"'])) = answer := by
        rw [hend, decoded_body]
      exact ⟨_, rfl, iff_of_true hgiven (last?_closingQuote?_eq_none.mp hlast)⟩
  | some found =>
      obtain ⟨before, ⟨⟩⟩ := found
      obtain ⟨rest, hsplit, hrest⟩ := append_of_last? hlast
      refine ⟨_, rfl, iff_of_false (fun hgiven => ?_) fun hnone => ?_⟩
      -- The answer is cut at an escaped quote, and ends with the back-slash before it.
      · obtain ⟨⟨hquote, -⟩, -⟩ := ite_eq_iff.mp hrest |>.resolve_right fun h => by cases h.2
        obtain ⟨after, rfl⟩ := List.head?_eq_some_iff.mp hquote
        have hcut : decoded (body true before ++ ['\\']) = answer := hgiven
        exact decoded_cut before after (by rw [hcut, hsplit])
      · rw [last?_closingQuote?_eq_none.mpr hnone] at hlast
        cases hlast

/-- Thought and answer of an object that breaks off. -/
theorem turnOfBrokenText_answered (thought answer : String) (toolNames : List String) :
    let cut := unclosed (answered thought answer)
    ∃ given, turnOfBrokenText cut cut toolNames =
        { thought := some thought, finalAnswer := some given, source := some cut } ∧
      (given = answer ↔ ¬ QuotesClosing answer.toList) := by
  intro cut
  obtain ⟨given, hgiven, hiff⟩ := answerField?_answered thought answer
  refine ⟨given, ?_, hiff⟩
  rw [turnOfBrokenText_of_salvaged (.inr (by rw [hgiven]; rfl))]
  refine turnOfObject_answer ?_ ?_ cut toolNames
  · rw [Fields.get?_mapValues, (get?_fields_beside cut.toList).1, textField?_answered]
    rfl
  · rw [Fields.get?_mapValues, (get?_fields cut.toList).2, hgiven]
    rfl

/-- **An answer that breaks off is read like the whole unless it quotes the end of an object.**  Let
a thought and an answer be written as an object, neither with a code fence in it.  With its closing
brace the object is read as it was written.  Without the brace the thought is the same, and the
answer is iff none of its quotes has a closing brace behind it, over nothing but spaces. -/
theorem turnOf_openAnswer_iff {thought answer : String} (hthought : ¬ fence <:+: thought.toList)
    (hanswer : ¬ fence <:+: answer.toList) :
    let whole := (Json.ofTextFields (answered thought answer)).print spacedAscii
    ∃ cut, whole = cut ++ "\x7d" ∧
      ∀ (reply : Reply) (paths : Paths) (toolNames : List String), paths.WithoutCalls →
        (writtenPart reply.members paths = .str whole →
          turnOf reply paths toolNames =
            .ok { thought := some thought, finalAnswer := some answer, source := some whole }) ∧
        (writtenPart reply.members paths = .str cut →
          ∃ given, turnOf reply paths toolNames =
              .ok { thought := some thought, finalAnswer := some given, source := some cut } ∧
            (given = answer ↔ ¬ QuotesClosing answer.toList)) := by
  intro whole
  have hnames := nodup_answered thought answer
  have hfence := not_infix_answered hthought hanswer
  refine ⟨unclosed (answered thought answer), print_ofTextFields _, ?_⟩
  intro reply paths toolNames hcalls
  constructor
  -- With the last brace the text is read as an object, without it field by field.
  · intro hwritten
    have hvalue : ofChars? .allowed whole.toList =
        some (.obj ((answered thought answer).mapValues .str)) := by
      have hchars : whole.toList = chars spacedAscii (.ofTextFields (answered thought answer)) :=
        String.toList_ofList
      rw [hchars]
      exact ofChars?_chars .allowed spacedAscii_plain (distinct_ofTextFields hnames)
    rw [turnOf_of_written hwritten hcalls,
      turnOfText_of_block (blockText?_ofTextFields hnames hfence) hvalue]
    exact congrArg Except.ok (turnOfObject_answer rfl rfl whole toolNames)
  · intro hwritten
    have hblock : blockText? (unclosed (answered thought answer)) = none :=
      blockText?_unclosed (List.cons_ne_nil _ _) hnames (not_infix_unclosed hfence)
    obtain ⟨given, hturn, hiff⟩ := turnOfBrokenText_answered thought answer toolNames
    refine ⟨given, ?_, hiff⟩
    rw [turnOf_of_written hwritten hcalls, turnOfText, hblock]
    exact congrArg Except.ok hturn

/-- An answer that looks like other fields, with a brace on another line than the quote before
it. -/
theorem turnOf_openAnswer_quoted :
    let answer := "\x7b\"action\": \"Other\"\n\x7d, \"final_answer\": \"no"
    let cut := unclosed (answered "\"t" answer)
    turnOf (.text cut) {} ["Other"] =
      .ok { thought := some "\"t", finalAnswer := some answer, source := some cut } := by
  intro answer cut
  obtain ⟨other, hwhole, hturn⟩ := turnOf_openAnswer_iff
    (by decide : ¬ fence <:+: "\"t".toList) (by decide : ¬ fence <:+: answer.toList)
  have hcut : cut = other := by
    rw [print_ofTextFields, String.append_left_inj] at hwhole
    exact hwhole
  have hcalls : Paths.WithoutCalls {} := fun path hpath => by cases hpath
  obtain ⟨given, hgiven, hiff⟩ := (hturn (.text cut) {} ["Other"] hcalls).2 (by rw [hcut]; rfl)
  rw [hgiven, hiff.mpr (by decide), hcut]

/-- An answer that quotes an object loses its end. -/
theorem not_forall_turnOf_openAnswer :
    ¬ ∀ (thought answer cut : String) (reply : Reply) (paths : Paths) (toolNames : List String),
      ¬ fence <:+: thought.toList → ¬ fence <:+: answer.toList →
        (Json.ofTextFields (answered thought answer)).print spacedAscii = cut ++ "\x7d" →
          writtenPart reply.members paths = .str cut → paths.WithoutCalls →
            ∃ turn, turnOf reply paths toolNames = .ok turn ∧ turn.finalAnswer = some answer := by
  intro hall
  let answer := "\x7b\"a\": \"b\"\x7d"
  let cut := unclosed (answered "t" answer)
  have hcalls : Paths.WithoutCalls {} := fun path hpath => by cases hpath
  obtain ⟨turn, hturn, hfinal⟩ := hall "t" answer cut (.text cut) {} [] (by decide) (by decide)
    (print_ofTextFields _) rfl hcalls
  have hblock : blockText? cut = none :=
    blockText?_unclosed (List.cons_ne_nil _ _) (nodup_answered "t" answer)
      (not_infix_unclosed (not_infix_answered (by decide) (by decide)))
  obtain ⟨given, hgiven, hiff⟩ := turnOfBrokenText_answered "t" answer []
  rw [turnOf_of_written rfl hcalls, turnOfText, hblock] at hturn
  have hsame : given = answer := by
    have hturns := hgiven.symm.trans (Except.ok.inj hturn)
    rw [← hturns] at hfinal
    exact Option.some.inj hfinal
  exact hiff.mp hsame (by decide)

end ReAct.Reply

import ReAct.Proofs.Reply.CutOff

/-!
# An answer with unescaped quotes

Models forget to escape the quotes of a long answer.  The quotes then open and close literals of
their own, and whether the last brace counts as one depends on how many there are; but the answer
holds no brace, so the block is the whole text or there is none (`blockAt_rawAnswer`).  In both
cases the answer is salvaged up to the last quote that has a brace behind it, which is the one that
was meant to close it (`answerField?_rawAnswer`).

With quotes in the right places an answer can make the text a valid object with other members.  Then
there is nothing to salvage and the object is read as it stands.  The reader of these texts accepts
control characters in strings, so a text that is refused elsewhere for a line feed may be such an
object (`not_forall_turnOf_rawAnswer`).

## Main Definitions

* `rawAnswer`: the text of an object with a thought and an answer that was not escaped
* `Raw`: the answers without braces and back-slashes
-/

namespace ReAct.Reply

open Json Salvage Text

/-- The text of an object with a thought and an answer that was not escaped, and white space before
the closing brace. -/
def rawAnswer (thought answer space : String) : String :=
  "\x7b\"thought\": " ++ (Json.str thought).print spacedAscii ++ ", \"final_answer\": \"" ++
    answer ++ "\"" ++ space ++ "\x7d"

/-- A text without braces and back-slashes. -/
def Raw (answer : String) : Prop :=
  '\x7b' ∉ answer.toList ∧ '\x7d' ∉ answer.toList ∧ '\\' ∉ answer.toList

instance (answer : String) : Decidable (Raw answer) :=
  inferInstanceAs (Decidable (_ ∧ _ ∧ _))

/-- The header of the answer. -/
def answerHeader : List Char :=
  ", \"final_answer\": ".toList

/-- The text in three parts: the thought, the header of the answer, and what follows that. -/
theorem toList_rawAnswer (thought answer space : String) :
    (rawAnswer thought answer space).toList =
      (unclosed [("thought", thought)]).toList ++
        (answerHeader ++ ('"' :: answer.toList ++ '"' :: space.toList ++ ['\x7d'])) := by
  have hopening : "\x7b\"thought\": ".toList =
      '\x7b' :: (literal true "thought".toList ++ [':', ' ']) := by decide
  have hheader : ", \"final_answer\": \"".toList = answerHeader ++ ['"'] := by decide
  have hprint : ((Json.str thought).print spacedAscii).toList = literal true thought.toList :=
    String.toList_ofList
  rw [toList_unclosed, membersChars_singleton, fieldChars]
  delta rawAnswer
  simp only [String.toList_append, hopening, hheader, hprint, List.append_assoc, List.cons_append,
    List.nil_append]
  exact congrArg _ rfl

/-! ## Literals that were not escaped -/

/-- **An answer without back-slashes denotes itself.**  With a quote in it, it is no literal: the
quote ends a literal, and the last one is one too many. -/
theorem decoded_raw {answer : String} (hslash : '\\' ∉ answer.toList) :
    decoded answer.toList = answer := by
  have hsame : String.ofList (replaceAll '\\' ['"'] ['"'] answer.toList) = answer := by
    rw [replaceAll_of_notMem hslash, String.ofList_toList]
  -- A quote ends the first literal, and no text after a value leads to another one.
  by_cases hquote : '"' ∈ answer.toList
  · obtain ⟨first, more, hsplit, hfirst⟩ := List.eq_append_cons_of_mem hquote
    have hnone : ofChars? .allowed ('"' :: answer.toList ++ ['"']) = none := by
      have hparts : '"' :: answer.toList ++ ['"'] = ('"' :: first ++ ['"']) ++ (more ++ ['"']) := by
        rw [hsplit]
        simp
      have hfirstSlash : '\\' ∉ first := fun hmem => hslash (by
        rw [hsplit]
        exact List.mem_append_left _ hmem)
      obtain ⟨-, hdone⟩ := Scan.between_start.raw hfirst hfirstSlash
      have hpast := Scan.past_foldl .allowed (Scan.past_of_nothing hdone) more
      rw [ofChars?_eq, hparts, List.foldl_append, List.foldl_append, List.foldl_cons,
        List.foldl_nil]
      exact value?_quote_of_past .allowed hpast
    rw [decoded, hnone]
    exact hsame
  · have hdone := Scan.between_start.raw hquote hslash
    have hvalue : ofChars? .allowed ('"' :: answer.toList ++ ['"']) = some (.str answer) := by
      rw [ofChars?_eq, (Scan.Stands.between hdone).value?_eq, String.ofList_toList]
    rw [decoded, hvalue]

/-! ## What is salvaged -/

theorem closes_answerHeader (rest : List Char) : Closes (answerHeader ++ rest) :=
  closes_comma _

theorem isName_thought {thought : String} :
    ∀ entry ∈ [("thought", thought)], IsName entry.1.toList := by
  simp only [List.forall_mem_cons]
  exact ⟨isName_of_all (by decide) (by decide), by simp⟩

/-- The thought is found in front of the answer, which has no field in it. -/
theorem textField?_rawAnswer (thought answer space : String) :
    textField? "thought" (rawAnswer thought answer space).toList = some thought := by
  rw [toList_rawAnswer]
  have hget : Fields.get? [("thought", thought)] "thought" = some thought := rfl
  obtain ⟨more, hmore⟩ := first?_members_of_get? isName_thought hget _
  rw [← first?_unclosed] at hmore
  exact textField?_of_first? hmore

/-- The header of the answer is found: none of its name begins before it. -/
theorem quotedHeader?_answerHeader (thought : String) (rest : List Char) :
    first? (quotedHeader? "final_answer".toList)
      ((unclosed [("thought", thought)]).toList ++ (answerHeader ++ '"' :: rest)) = some rest := by
  have hname : IsName "final_answer".toList := isName_of_all (by decide) (by decide)
  have hother : ∀ entry ∈ [("thought", thought)],
      IsName entry.1.toList ∧ "final_answer".toList ≠ entry.1.toList := by
    have hne : "final_answer".toList ≠ "thought".toList := by decide
    simp only [List.forall_mem_cons]
    exact ⟨⟨isName_of_all (by decide) (by decide), hne⟩, by simp⟩
  -- Neither the thought nor the comma behind it begins the header.
  have hcomma : Bare "final_answer".toList [',', ' ']
      ("\"final_answer\": ".toList ++ '"' :: rest) := bare_of_notMem (by decide) _ _
  have hhere : header? "final_answer".toList ("\"final_answer\": ".toList ++ '"' :: rest) =
      some ('"' :: rest) := header?_eq_some.mpr ⟨_, _, rfl, rfl, rfl⟩
  have hheader : first? (header? "final_answer".toList)
      ((unclosed [("thought", thought)]).toList ++ (answerHeader ++ '"' :: rest)) =
        some ('"' :: rest) := by
    rw [first?_unclosed, first?_members_of_notMem hname hother (closes_answerHeader _)]
    exact (first?_of_bare hcomma).trans (first?_of_eq_some hhere)
  refine first?_of_first? (fun t ht => ?_) (fun t ht => ?_) hheader
  · rw [quotedHeader?, ht]
    rfl
  · rw [quotedHeader?, ht]
    exact after?_eq_some.mpr rfl

/-- The answer begins behind its header, and goes on to the end of the text. -/
theorem quotedHeader?_rawAnswer (thought answer space : String) :
    first? (quotedHeader? "final_answer".toList) (rawAnswer thought answer space).toList =
      some (answer.toList ++ '"' :: space.toList ++ ['\x7d']) := by
  have hcons : '"' :: answer.toList ++ '"' :: space.toList ++ ['\x7d'] =
      '"' :: (answer.toList ++ '"' :: space.toList ++ ['\x7d']) := by
    rw [List.cons_append, List.cons_append]
  rw [toList_rawAnswer, hcons, quotedHeader?_answerHeader]

/-- The last quote with a brace behind it is the one before the closing brace. -/
theorem last?_closesObject (answer : List Char) {space : List Char}
    (hspace : ∀ c ∈ space, isBlank c = true) :
    last? closesObject (answer ++ '"' :: space ++ ['\x7d']) = some (answer, ()) := by
  have hbrace : trimStart (space ++ ['\x7d']) = ['\x7d'] := by
    rw [trimStart, List.dropWhile_append_of_pos hspace]
    rfl
  have hquotes : '"' ∉ space ++ ['\x7d'] := by
    rw [List.mem_append, not_or]
    exact ⟨fun hmem => absurd (hspace _ hmem) (by decide), by decide⟩
  -- Behind the closing quote there is no other.
  have hbehind : last? closesObject (space ++ ['\x7d']) = none := by
    refine last?_eq_none.mpr fun t ht => ?_
    cases t with
    | nil => rfl
    | cons c t =>
        have hc : c ≠ '"' := by
          rintro rfl
          exact hquotes (ht.subset List.mem_cons_self)
        rw [closesObject]
        rintro rest ⟨⟩
        exact hc rfl
  have hquote : last? closesObject ('"' :: (space ++ ['\x7d'])) = some ([], ()) := by
    have hcloses : closesObject ('"' :: (space ++ ['\x7d'])) = some () := by
      rw [closesObject, hbrace]
      rfl
    rw [last?, hbehind, hcloses]
    rfl
  have hlast := last?_append_of_eq_some answer hquote
  rwa [List.append_nil, ← List.cons_append, ← List.append_assoc] at hlast

/-- The answer ends at the last quote, so the quotes in it are its own. -/
theorem answerField?_rawAnswer (thought : String) {answer space : String}
    (hslash : '\\' ∉ answer.toList) (hspace : ∀ c ∈ space.toList, isBlank c = true) :
    answerField? (rawAnswer thought answer space).toList = some answer := by
  rw [answerField?, quotedHeader?_rawAnswer, Option.map_some, last?_closesObject _ hspace]
  exact congrArg some (decoded_raw hslash)

/-! ## The block -/

/-- Behind the answer is the only brace that is left. -/
theorem closeBraces_braceless {t : List Char} (hopen : '\x7b' ∉ t) (hclose : '\x7d' ∉ t) :
    ∀ inside : Inside, closeBraces 1 inside (t ++ ['\x7d']) = none ∨
      closeBraces 1 inside (t ++ ['\x7d']) = some (t ++ ['\x7d'], []) := by
  induction t with
  | nil =>
      intro inside
      cases inside with
      | code => exact .inr rfl
      -- Inside of a literal the last brace is one of its characters.
      | literal => exact .inl rfl
      | escape => exact .inl rfl
  | cons c t ih =>
      rw [List.mem_cons, not_or] at hopen hclose
      have hmap (inside : Inside) :
          (closeBraces 1 inside (t ++ ['\x7d'])).map (Prod.map (List.cons c) id) = none ∨
            (closeBraces 1 inside (t ++ ['\x7d'])).map (Prod.map (List.cons c) id) =
              some (c :: t ++ ['\x7d'], []) := by
        rcases ih hopen.2 hclose.2 inside with hnone | hsome
        · exact .inl (by rw [hnone]; rfl)
        · exact .inr (by rw [hsome]; rfl)
      intro inside
      rw [List.cons_append]
      cases inside with
      | escape => exact hmap .literal
      | literal => exact hmap _
      | code =>
          rw [closeBraces, if_neg fun h => hclose.1 h.1.symm]
          dsimp only
          rw [if_neg (Ne.symm hopen.1), if_neg (Ne.symm hclose.1)]
          exact hmap _

/-- Behind its header the answer is due. -/
theorem between_answerHeader (thought : String) :
    (((unclosed [("thought", thought)]).toList ++ answerHeader).foldl (Scan.step .allowed)
      .start).Between (.value false [.member [("thought", .str thought)] "final_answer"]) := by
  have hheader :
      answerHeader = [',', ' '] ++ (literal true "final_answer".toList ++ [':', ' ']) := by
    decide
  have hstands := stands_unclosed .allowed (List.cons_ne_nil ("thought", thought) [])
    (List.nodup_singleton "thought")
  rw [hheader, List.foldl_append, List.foldl_append, List.foldl_append]
  have hcomma := @scan_separator .allowed ',' .comma [',', ' '] 1 rfl rfl _ _ hstands
  have hname := hcomma.text .allowed true "final_answer"
  exact @scan_separator .allowed ':' .colon [':', ' '] 1 rfl rfl _ _ (.between hname)

/-- **The block is the whole text, or there is none.** -/
theorem blockAt_rawAnswer (thought : String) {answer space : String} (hraw : Raw answer)
    (hspace : ∀ c ∈ space.toList, isBlank c = true) :
    let s := (rawAnswer thought answer space).toList
    blockAt s = none ∨ blockAt s = some (s, []) := by
  obtain ⟨hopen, hclose, -⟩ := hraw
  have hdue := between_answerHeader thought
  have hpast := not_past_of_stands (.between hdue) (.value false (.root _ _))
  rw [toList_unclosed, List.cons_append] at hdue hpast
  obtain ⟨depth, inside, hwithin, hblock⟩ := blockAt_append_of_not_past .allowed hpast
  -- Only the object's own brace is open where the answer begins.
  have hdepth : depth = 1 := by
    rw [hdue.2] at hwithin
    cases hwithin
    rfl
  subst hdepth
  have hbraceless (brace : Char) (hblank : isBlank brace = false) (hquote : brace ≠ '"')
      (hanswer : brace ∉ answer.toList) :
      brace ∉ '"' :: answer.toList ++ '"' :: space.toList := by
    have hspaces : brace ∉ space.toList := by
      intro hmem
      rw [hspace brace hmem] at hblank
      cases hblank
    simp [hquote, hanswer, hspaces]
  have hparts : (rawAnswer thought answer space).toList =
      '\x7b' :: (membersChars [("thought", thought)] ++ answerHeader) ++
        ('"' :: answer.toList ++ '"' :: space.toList ++ ['\x7d']) := by
    rw [toList_rawAnswer, toList_unclosed]
    simp
  dsimp only
  rw [hparts, hblock]
  rcases closeBraces_braceless (hbraceless _ rfl (by decide) hopen)
    (hbraceless _ rfl (by decide) hclose) inside with hnone | hsome
  · exact .inl (by rw [hnone]; rfl)
  · exact .inr (by rw [hsome]; rfl)

/-- The reply has no fence if its parts have none. -/
theorem not_infix_rawAnswer {thought answer space : String}
    (hthought : ¬ fence <:+: thought.toList) (hanswer : ¬ fence <:+: answer.toList)
    (hspace : ∀ c ∈ space.toList, isBlank c = true) :
    ¬ fence <:+: (rawAnswer thought answer space).toList := by
  have hopening : ¬ fence <:+: (unclosed [("thought", thought)]).toList := by
    refine not_infix_unclosed (not_infix_membersChars ?_)
    simp only [List.forall_mem_cons]
    exact ⟨⟨not_infix_fence_of_notMem (by decide), hthought⟩, by simp⟩
  have hclosing : '\x60' ∉ '"' :: space.toList ++ ['\x7d'] := by
    have hspaces : '\x60' ∉ space.toList := fun hmem => absurd (hspace _ hmem) (by decide)
    simp [hspaces]
  have hanswered : ¬ fence <:+: answer.toList ++ ('"' :: space.toList ++ ['\x7d']) ++ [] :=
    not_infix_fence_append hanswer (by simp) hclosing not_infix_fence_nil
  have hheader : '\x60' ∉ answerHeader ++ ['"'] := by decide
  have hwhole := not_infix_fence_append hopening (by simp) hheader hanswered
  rw [toList_rawAnswer]
  simpa using hwhole

/-- The block is the whole reply, or there is none: either way the reply is what is looked at. -/
theorem blockText?_rawAnswer {thought answer space : String} (hraw : Raw answer)
    (hfence : ¬ fence <:+: (rawAnswer thought answer space).toList)
    (hspace : ∀ c ∈ space.toList, isBlank c = true) :
    blockText? (rawAnswer thought answer space) = none ∨
      blockText? (rawAnswer thought answer space) = some (rawAnswer thought answer space) := by
  have hstart : blockStart? (rawAnswer thought answer space).toList =
      some (rawAnswer thought answer space).toList := by
    rw [blockStart?_of_not_fencedBrace (not_fencedBrace_of_unfenced hfence), toList_rawAnswer,
      toList_unclosed]
    rfl
  rw [blockText?, block?, hstart, Option.bind_some]
  rcases blockAt_rawAnswer thought hraw hspace with hnone | hsome
  · exact .inl (by rw [hnone]; rfl)
  · refine .inr ?_
    rw [hsome, Option.map_some, Option.map_some, String.ofList_toList]

/-! ## The turn -/

/-- Without quotes in the answer the text is an object, if it is anything. -/
theorem readLenient?_rawAnswer {thought answer space : String} (hquote : '"' ∉ answer.toList)
    (hslash : '\\' ∉ answer.toList) (hspace : ∀ c ∈ space.toList, isBlank c = true) {v : Json}
    (h : readLenient? (rawAnswer thought answer space) = some v) :
    v = .obj [("thought", .str thought), ("final_answer", .str answer)] := by
  have hanswer := (between_answerHeader thought).raw hquote hslash
  rw [String.ofList_toList, ← List.foldl_append] at hanswer
  have hparts : (rawAnswer thought answer space).toList =
      (unclosed [("thought", thought)]).toList ++ answerHeader ++
        ('"' :: answer.toList ++ ['"']) ++ (space.toList ++ ['\x7d']) := by
    rw [toList_rawAnswer]
    simp
  rw [readLenient?, ofChars?_eq, hparts, List.foldl_append] at h
  by_cases hspaces : ∀ c ∈ space.toList, isSpace c = true
  · have hclosed := (Scan.Stands.between (hanswer.blanks .allowed hspaces)).punctuation .allowed
      (rfl : punctuation? '\x7d' = some .closeBrace)
    have hvalue := (Scan.Stands.between hclosed).value?_eq
    rw [List.foldl_append, List.foldl_cons, List.foldl_nil, hvalue] at h
    exact (Option.some.inj h).symm
  -- A blank that is none of JSON begins a word, and no word begins with a blank.
  · generalize List.foldl (Scan.step .allowed) .start _ = state at h hanswer
    obtain ⟨tokens, mode⟩ := state
    obtain ⟨hmode, -⟩ := hanswer
    cases hmode
    rw [List.foldl_append, hopeless_blanks tokens hspace hspaces ['\x7d']] at h
    cases h

/-- An object with a thought and an answer. -/
theorem turnOfObject_answer {members : Fields Json} {thought answer : String}
    (hthought : Fields.get? members "thought" = some (.str thought))
    (hanswer : Fields.get? members "final_answer" = some (.str answer)) (source : String)
    (toolNames : List String) :
    turnOfObject members source toolNames =
      { thought := some thought, finalAnswer := some answer, source := some source } := by
  unfold turnOfObject
  simp only [hthought, hanswer, Option.getD_some, fieldText]

/-- Thought and answer are salvaged as they were written. -/
theorem turnOfBrokenText_rawAnswer (thought : String) {answer space : String}
    (hslash : '\\' ∉ answer.toList) (hspace : ∀ c ∈ space.toList, isBlank c = true)
    (toolNames : List String) :
    let text := rawAnswer thought answer space
    turnOfBrokenText text text toolNames =
      { thought := some thought, finalAnswer := some answer, source := some text } := by
  intro text
  have hanswer := answerField?_rawAnswer thought hslash hspace
  rw [turnOfBrokenText_of_salvaged (.inr (by rw [hanswer]; rfl))]
  refine turnOfObject_answer ?_ ?_ text toolNames
  · rw [Fields.get?_mapValues, (get?_fields_beside text.toList).1, textField?_rawAnswer]
    rfl
  · rw [Fields.get?_mapValues, (get?_fields text.toList).2, hanswer]
    rfl

/-- **An answer with unescaped quotes is read as it was meant.**  Let an object be written with a
thought, an answer without braces and back-slashes that was not escaped, and white space before its
closing brace; neither text holds a code fence.  Unless the quotes of the answer make the text an
object of other members, its turn is the thought and the answer as they are, and it is not degraded.
Quotes may come in any number, and the answer may look like other fields. -/
theorem turnOf_rawAnswer {thought answer space : String} (hthought : ¬ fence <:+: thought.toList)
    (hraw : Raw answer) (hanswer : ¬ fence <:+: answer.toList)
    (hspace : ∀ c ∈ space.toList, isBlank c = true)
    (hbroken : readLenient? (rawAnswer thought answer space) = none ∨ '"' ∉ answer.toList)
    {reply : Reply} {paths : Paths}
    (hwritten : writtenPart reply.members paths = .str (rawAnswer thought answer space))
    (hcalls : paths.WithoutCalls) (toolNames : List String) :
    turnOf reply paths toolNames =
      .ok { thought := some thought, finalAnswer := some answer,
            source := some (rawAnswer thought answer space), degraded := false } := by
  have hslash := hraw.2.2
  have hsalvaged := turnOfBrokenText_rawAnswer thought hslash hspace toolNames
  rw [turnOf_of_written hwritten hcalls, turnOfText]
  refine congrArg Except.ok ?_
  have hfence := not_infix_rawAnswer hthought hanswer hspace
  rcases blockText?_rawAnswer hraw hfence hspace with hblock | hblock
  · rw [hblock]
    exact hsalvaged
  rw [hblock]
  dsimp only
  -- Where the text is read after all, the answer has no quote, and reading gives it, too.
  cases hvalue : readLenient? (rawAnswer thought answer space) with
  | none =>
      rw [objectOf?, hvalue]
      exact hsalvaged
  | some v =>
      have hquote : '"' ∉ answer.toList := by
        refine hbroken.resolve_left fun hnone => ?_
        rw [hvalue] at hnone
        cases hnone
      rw [objectOf?, hvalue, readLenient?_rawAnswer hquote hslash hspace hvalue]
      exact turnOfObject_answer rfl rfl _ toolNames

/-- An odd number of quotes, and an answer that looks like an action. -/
theorem turnOf_rawAnswer_odd :
    let text := rawAnswer "t" "a \"b\", \"action\": \"c" "\n"
    readLenient? text = none ∧
      turnOf (.text text) {} ["c"] =
        .ok { thought := some "t", finalAnswer := some "a \"b\", \"action\": \"c",
              source := some text, degraded := false } := by
  intro text
  have hbroken : readLenient? text = none := Option.isNone_iff_eq_none.mp (by decide)
  have hspace : ∀ c ∈ "\n".toList, isBlank c = true := List.all_eq_true.mp (by decide)
  have hcalls : Paths.WithoutCalls {} := fun path hpath => by cases hpath
  exact ⟨hbroken, turnOf_rawAnswer (by decide) (by decide) (by decide) hspace (.inl hbroken) rfl
    hcalls ["c"]⟩

/-- An answer over two lines that looks like two members.  A strict reader refuses the text for the
line feed; here it is an object, whose answer is the first part. -/
theorem not_forall_turnOf_rawAnswer :
    ¬ ∀ (thought answer space : String) (reply : Reply) (paths : Paths) (toolNames : List String),
      ¬ fence <:+: thought.toList → Raw answer → ¬ fence <:+: answer.toList →
        (∀ c ∈ space.toList, isBlank c = true) → read? (rawAnswer thought answer space) = none →
          writtenPart reply.members paths = .str (rawAnswer thought answer space) →
            paths.WithoutCalls →
              turnOf reply paths toolNames =
                .ok { thought := some thought, finalAnswer := some answer,
                      source := some (rawAnswer thought answer space), degraded := false } := by
  intro hall
  let answer := "42\", \"note\": \"a\nb"
  let text := rawAnswer "t" answer ""
  have hcalls : Paths.WithoutCalls {} := fun path hpath => by cases hpath
  have hspace : ∀ c ∈ "".toList, isBlank c = true := List.all_eq_true.mp (by decide)
  have hmeant := hall "t" answer "" (.text text) {} [] (by decide) (by decide) (by decide) hspace
    (Option.isNone_iff_eq_none.mp (by decide)) rfl hcalls
  have hblock : blockText? text = some text := by decide
  have htext :
      text = "\x7b\"thought\": \"t\", \"final_answer\": \"42\", \"note\": \"a\nb\"\x7d" := by
    decide
  have hvalue : ofChars? .allowed text.toList =
      some (.obj [("thought", .str "t"), ("final_answer", .str "42"), ("note", .str "a\nb")]) := by
    rw [htext]
    rfl
  rw [turnOf_of_written rfl hcalls, turnOfText_of_block hblock hvalue,
    turnOfObject_answer rfl rfl] at hmeant
  have hanswer := congrArg Turn.finalAnswer (Except.ok.inj hmeant)
  exact absurd (Option.some.inj hanswer) (by decide)

end ReAct.Reply

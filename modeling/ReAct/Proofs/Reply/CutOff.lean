import ReAct.Proofs.Json.Prefixed
import ReAct.Proofs.Reply.Fallback
import ReAct.Proofs.Reply.Fence
import ReAct.Proofs.Reply.Field

/-!
# A request that breaks off

A model that stops too early leaves the object of its request without the closing brace.  No brace
in the object's texts is taken for the missing one: the search for it keeps pace with the scanner,
which has not come to the end of the object (`blockAt_unclosed`).  So the fields are salvaged one by
one, and what is salvaged is what the whole object says (`turnOf_cutOff`).

## Main Definitions

* `unclosed`: the text of an object of texts without its closing brace
* `request`: the fields of a request for a tool
-/

namespace ReAct.Reply

open Json Salvage Text

/-! ## Texts without a fence -/

/-- Without a fence, no brace is looked for behind one. -/
theorem not_fencedBrace_of_unfenced {t : List Char} (h : ¬ fence <:+: t) : ¬ FencedBrace t := by
  rintro ⟨before, after, rfl, -⟩
  exact h ⟨before, after, rfl⟩

/-- A fence cannot lie across a part without backticks. -/
theorem not_infix_fence_append {s part t : List Char} (hs : ¬ fence <:+: s) (hne : part ≠ [])
    (hpart : '\x60' ∉ part) (ht : ¬ fence <:+: t) : ¬ fence <:+: s ++ part ++ t := by
  intro h
  have happart : ∀ c ∈ part, c ∉ fence := by
    intro c hc hmem
    have hback : c = '\x60' := by simpa [fence] using hmem
    exact hpart (hback ▸ hc)
  exact (infix_of_infix_append hne happart h).elim hs ht

theorem not_infix_fence_nil : ¬ fence <:+: [] := by
  intro h
  cases List.infix_nil.mp h

theorem not_infix_fence_of_notMem {s : List Char} (h : '\x60' ∉ s) : ¬ fence <:+: s :=
  fun hfence => h (hfence.subset (by decide))

/-- A back-tick is written as itself, and nothing else is written with one. -/
theorem escaped_backtick (asciiOnly : Bool) (c : Char) :
    escaped asciiOnly c = [c] ∨
      escaped asciiOnly c ≠ [] ∧ '\x60' ∉ escaped asciiOnly c := by
  have hunit (n : Nat) : '\x60' ∉ unitEscape n := fun hmem =>
    forall_mem_unitEscape (p := fun c => c ≠ '\x60') (by decide) (by decide) (by decide) n _ hmem
      rfl
  have hescape := escapeOf_escaped asciiOnly c
  generalize escaped asciiOnly c = text at hescape ⊢
  -- A back-quote is written as it is, and no escape is spelled with one.
  cases hescape with
  | plain => exact .inl rfl
  | @short mark hmark =>
      refine .inr ⟨List.cons_ne_nil _ _, fun hmem => ?_⟩
      rcases List.mem_cons.mp hmem with hslash | hmem
      · cases hslash
      · rw [← List.mem_singleton.mp hmem] at hmark
        exact absurd hmark (by decide)
  | unit n => exact .inr ⟨List.cons_ne_nil _ _, hunit n⟩
  | pair high low =>
      refine .inr ⟨List.cons_ne_nil _ _, fun hmem => ?_⟩
      exact (List.mem_append.mp hmem).elim (hunit high) (hunit low)

/-- Backticks at the start of a literal are those of its text, which are never escaped. -/
theorem prefix_of_prefix_body {n : Nat} {asciiOnly : Bool} {s : List Char}
    (h : List.replicate n '\x60' <+: body asciiOnly s) : List.replicate n '\x60' <+: s := by
  induction s generalizing n with
  | nil => exact h
  | cons c s ih =>
      cases n with
      | zero => exact List.nil_prefix
      | succ n =>
          rw [body, List.flatMap_cons] at h
          rcases escaped_backtick asciiOnly c with hself | ⟨hne, hapart⟩
          · rw [hself, List.replicate_succ] at h
            obtain ⟨hc, htail⟩ := List.cons_prefix_cons.mp h
            rw [List.replicate_succ, hc]
            exact List.cons_prefix_cons.mpr ⟨rfl, hc ▸ ih htail⟩
          · obtain ⟨d, more, heq⟩ := List.exists_cons_of_ne_nil hne
            rw [heq, List.replicate_succ] at h
            rw [heq, ← (List.cons_prefix_cons.mp h).1] at hapart
            exact absurd List.mem_cons_self hapart

/-- **A fence in a literal is one of its text.** -/
theorem infix_of_infix_body {asciiOnly : Bool} {s : List Char}
    (h : fence <:+: body asciiOnly s) : fence <:+: s := by
  induction s with
  | nil => exact h
  | cons c s ih =>
      have htail (hlater : fence <:+: body asciiOnly s) : fence <:+: c :: s :=
        (ih hlater).trans (List.suffix_cons c s).isInfix
      have hbody : body asciiOnly (c :: s) = escaped asciiOnly c ++ body asciiOnly s := rfl
      rcases escaped_backtick asciiOnly c with hself | ⟨hne, hapart⟩
      · rw [hbody, hself] at h
        rcases List.infix_cons_iff.mp h with hhead | hlater
        · have hhere : fence <+: body asciiOnly (c :: s) := by
            rw [hbody, hself]
            exact hhead
          exact (@prefix_of_prefix_body 3 asciiOnly _ hhere).isInfix
        · exact htail hlater
      -- What is written for the character keeps the back-ticks before and behind it apart.
      · by_contra hnone
        rw [hbody] at h
        exact not_infix_fence_append not_infix_fence_nil hne hapart
          (fun hlater => hnone (htail hlater)) h

/-- So a literal has a fence only if its text has. -/
theorem not_infix_literal (asciiOnly : Bool) {s : List Char} (h : ¬ fence <:+: s) :
    ¬ fence <:+: literal asciiOnly s := by
  have hbody : ¬ fence <:+: body asciiOnly s := fun hlater => h (infix_of_infix_body hlater)
  have hclosed : ¬ fence <:+: body asciiOnly s ++ ['"'] ++ [] :=
    not_infix_fence_append hbody (by decide) (by decide) not_infix_fence_nil
  have hopened : ¬ fence <:+: [] ++ ['"'] ++ (body asciiOnly s ++ ['"'] ++ []) :=
    not_infix_fence_append not_infix_fence_nil (by decide) (by decide) hclosed
  simpa [literal] using hopened

/-- An object has a fence only in one of its texts. -/
theorem not_infix_membersChars {fields : Fields String}
    (h : ∀ entry ∈ fields, ¬ fence <:+: entry.1.toList ∧ ¬ fence <:+: entry.2.toList) :
    ¬ fence <:+: membersChars fields := by
  induction fields with
  | nil => exact not_infix_fence_nil
  | cons entry fields ih =>
      obtain ⟨⟨hname, htext⟩, hothers⟩ := List.forall_mem_cons.mp h
      have hfield : ¬ fence <:+: fieldChars entry :=
        not_infix_fence_append (not_infix_literal true hname) (by decide) (by decide)
          (not_infix_literal true htext)
      cases fields with
      | nil => exact hfield
      | cons next fields =>
          have hmore :
              ¬ fence <:+: fieldChars entry ++ [',', ' '] ++ membersChars (next :: fields) :=
            not_infix_fence_append hfield (by decide) (by decide) (ih hothers)
          rw [membersChars_cons]
          simpa using hmore

/-! ## Objects without their closing brace -/

/-- The text of an object of texts without its closing brace. -/
def unclosed (fields : Fields String) : String :=
  String.ofList ('\x7b' :: membersChars fields)

theorem toList_unclosed (fields : Fields String) :
    (unclosed fields).toList = '\x7b' :: membersChars fields :=
  String.toList_ofList

/-- What was cut off is the closing brace. -/
theorem print_ofTextFields (fields : Fields String) :
    (Json.ofTextFields fields).print spacedAscii = unclosed fields ++ "\x7d" := by
  rw [← String.toList_inj, String.toList_append, toList_unclosed]
  exact String.toList_ofList

/-- The scanner waits for a comma or the brace. -/
theorem stands_unclosed (controls : Controls) {fields : Fields String} (hne : fields ≠ [])
    (hnames : fields.names.Nodup) :
    ((unclosed fields).toList.foldl (Scan.step controls) .start).Stands
      (.afterMember (fields.mapValues .str) []) := by
  have hopen : (Scan.step controls .start '\x7b').Between (.name true [] []) := ⟨rfl, rfl⟩
  have hvalues : ∀ entry ∈ fields.mapValues Json.str, Reads controls spacedAscii entry.2 := by
    intro entry hentry
    obtain ⟨field, -, rfl⟩ := List.mem_map.mp hentry
    exact reads_str controls spacedAscii field.2
  rw [toList_unclosed, List.foldl_cons]
  refine scan_members spacedAscii_plain (by simpa [Fields.mapValues] using hne) hvalues ?_ hopen
  rwa [List.nil_append, Fields.names_mapValues]

/-- Inside of an object no value is complete. -/
theorem not_past_of_stands {due : Due} {depth : Nat} {s : Scan} (h : s.Stands due)
    (hdue : due.Within depth) : ¬ s.Past := by
  obtain ⟨token, htoken⟩ := hdue.exists_step
  intro hpast
  cases h with
  | @between s h =>
      obtain ⟨hmode, rfl⟩ := h
      rcases hpast with hfailed | hfault
      · rw [hmode] at hfailed
        cases hfailed
      · exact htoken (hfault token)
  | @word tokens word v _ h =>
      rcases hpast with hfailed | hfault
      · cases hfailed
      · rw [← h, hfault (.scalar v), Due.step_fault] at htoken
        exact htoken rfl

/-- **The missing brace is not found.** -/
theorem blockAt_unclosed {fields : Fields String} (hne : fields ≠ [])
    (hnames : fields.names.Nodup) : blockAt (unclosed fields).toList = none := by
  have hopen := not_past_of_stands (stands_unclosed .allowed hne hnames)
    (.afterMember _ (.inl rfl))
  rw [toList_unclosed] at hopen ⊢
  obtain ⟨depth, inside, -, hblock⟩ := blockAt_append_of_not_past .allowed hopen
  have hnothing := hblock []
  rw [List.append_nil] at hnothing
  rw [hnothing]
  cases inside <;> rfl

/-- In fields without their closing brace there is no block. -/
theorem blockText?_unclosed {fields : Fields String} (hne : fields ≠ [])
    (hnames : fields.names.Nodup) (hfence : ¬ fence <:+: (unclosed fields).toList) :
    blockText? (unclosed fields) = none := by
  have hstart : blockStart? (unclosed fields).toList = some (unclosed fields).toList := by
    rw [blockStart?_of_not_fencedBrace (not_fencedBrace_of_unfenced hfence), toList_unclosed]
    rfl
  rw [blockText?, block?, hstart, Option.bind_some, blockAt_unclosed hne hnames]
  rfl

/-- The opening brace adds no backtick. -/
theorem not_infix_unclosed {fields : Fields String} (h : ¬ fence <:+: membersChars fields) :
    ¬ fence <:+: (unclosed fields).toList := by
  have hopened : ¬ fence <:+: [] ++ ['\x7b'] ++ membersChars fields :=
    not_infix_fence_append not_infix_fence_nil (by decide) (by decide) h
  rwa [toList_unclosed]

/-! ## Salvaged requests -/

/-- The fields of a request for a tool. -/
def request (thought action input : String) : Fields String :=
  [("thought", thought), ("action", action), ("action_input", input)]

/-- A search for a field passes over the brace that opens the object. -/
theorem first?_unclosed (name : List Char) (fields : Fields String) (rest : List Char) :
    first? (header? name) ((unclosed fields).toList ++ rest) =
      first? (header? name) (membersChars fields ++ rest) := by
  have hbrace : Bare name ['\x7b'] (membersChars fields ++ rest) :=
    bare_of_notMem (by decide) name _
  rw [toList_unclosed]
  exact first?_of_bare hbrace

theorem isName_of_all {name : String} (hne : name.toList ≠ [])
    (hall : name.toList.all isNameChar = true) : IsName name.toList :=
  ⟨hne, List.all_eq_true.mp hall⟩

theorem isName_request (thought action input : String) :
    ∀ entry ∈ request thought action input, IsName entry.1.toList := by
  simp only [request, List.forall_mem_cons]
  exact ⟨isName_of_all (by decide) (by decide), isName_of_all (by decide) (by decide),
    isName_of_all (by decide) (by decide), by simp⟩

theorem nodup_request (thought action input : String) :
    (request thought action input).names.Nodup := by
  have hnodup : ["thought", "action", "action_input"].Nodup := by decide
  exact hnodup

/-- Of a request that breaks off everything is salvaged, and no answer is. -/
theorem salvaged_request (thought action input : String) :
    let s := (unclosed (request thought action input)).toList
    textField? "thought" s = some thought ∧ textField? "action" s = some action ∧
      inputField? s = some input ∧ answerField? s = none := by
  intro s
  have hfound (name value : String)
      (hget : Fields.get? (request thought action input) name = some value) :
      ∃ more, first? (header? name.toList) s = some (literal true value.toList ++ more) := by
    obtain ⟨more, hmore⟩ := first?_members_of_get? (isName_request _ _ _) hget []
    rw [← first?_unclosed, List.append_nil] at hmore
    exact ⟨more, hmore⟩
  obtain ⟨_, hthought⟩ := hfound "thought" thought rfl
  obtain ⟨_, haction⟩ := hfound "action" action rfl
  obtain ⟨_, hinput⟩ := hfound "action_input" input rfl
  -- No field of a request is called "final_answer", whatever its texts hold.
  have hanswer : first? (header? "final_answer".toList) s = none := by
    have hname : IsName "final_answer".toList := isName_of_all (by decide) (by decide)
    have hother (key : String) (hne : "final_answer".toList ≠ key.toList)
        (hkey : IsName key.toList) : IsName key.toList ∧ "final_answer".toList ≠ key.toList :=
      ⟨hkey, hne⟩
    have hothers : ∀ entry ∈ request thought action input,
        IsName entry.1.toList ∧ "final_answer".toList ≠ entry.1.toList := by
      simp only [request, List.forall_mem_cons]
      exact ⟨hother _ (by decide) (isName_of_all (by decide) (by decide)),
        hother _ (by decide) (isName_of_all (by decide) (by decide)),
        hother _ (by decide) (isName_of_all (by decide) (by decide)), by simp⟩
    have hnone := first?_members_of_notMem hname hothers closes_nil
    rw [← first?_unclosed, List.append_nil] at hnone
    exact hnone
  exact ⟨textField?_of_first? hthought, textField?_of_first? haction,
    inputField?_of_first? hinput, answerField?_of_first? hanswer⟩

/-! ## The turn of a request -/

/-- The turn of a request for a tool. -/
def requestTurn (thought action input source : String) : Turn :=
  { thought := some thought, action := some action, actionInput := some input,
    source := some source }

/-- An object with the fields of a request for a tool that there is. -/
theorem turnOfObject_request {members : Fields Json} {thought action input : String}
    (hthought : Fields.get? members "thought" = some (.str thought))
    (haction : Fields.get? members "action" = some (.str action))
    (hinput : Fields.get? members "action_input" = some (.str input))
    (hanswer : Fields.get? members "final_answer" = none) (source : String)
    {toolNames : List String} (hname : action ∈ toolNames) (hne : action ≠ "") :
    turnOfObject members source toolNames = requestTurn thought action input source := by
  have htruthy : (Json.str action).truthy = true := by simp [Json.truthy, hne]
  have hfound : toolName? (Json.str action).display toolNames = some action := by
    rw [Json.display, toolName?, if_pos (List.contains_iff_mem.mpr hname)]
  unfold turnOfObject
  simp only [hthought, haction, hinput, hanswer, Option.getD_some, Option.getD_none, fieldText,
    htruthy, hfound, if_true]
  rfl

/-- A decision that is salvaged from a text is that of an object. -/
theorem turnOfBrokenText_of_salvaged {source : String}
    (h : (textField? "action" source.toList).isSome ∨ (answerField? source.toList).isSome)
    (text : String) (toolNames : List String) :
    turnOfBrokenText text source toolNames =
      turnOfObject ((Salvage.fields source.toList).mapValues .str) source toolNames := by
  obtain ⟨haction, hanswer⟩ := get?_fields source.toList
  have hfound : (Fields.has (Salvage.fields source.toList) "action" ||
      Fields.has (Salvage.fields source.toList) "final_answer") = true := by
    rw [Fields.has, Fields.has, haction, hanswer, Bool.or_eq_true]
    exact h
  exact if_pos hfound

/-- A request that breaks off has the turn that its fields have. -/
theorem turnOfBrokenText_request (thought : String) {action : String} (input : String)
    {toolNames : List String} (hname : action ∈ toolNames) (hne : action ≠ "") :
    let text := unclosed (request thought action input)
    turnOfBrokenText text text toolNames = requestTurn thought action input text := by
  intro text
  obtain ⟨hthought, haction, hinput, hanswer⟩ := salvaged_request thought action input
  rw [turnOfBrokenText_of_salvaged (.inl (by rw [haction]; rfl))]
  obtain ⟨hgetAction, hgetAnswer⟩ := get?_fields text.toList
  obtain ⟨hgetThought, hgetInput⟩ := get?_fields_beside text.toList
  refine turnOfObject_request ?_ ?_ ?_ ?_ text hname hne
  · rw [Fields.get?_mapValues, hgetThought, hthought]
    rfl
  · rw [Fields.get?_mapValues, hgetAction, haction]
    rfl
  · rw [Fields.get?_mapValues, hgetInput, hinput]
    rfl
  · rw [Fields.get?_mapValues, hgetAnswer, hanswer]
    rfl

/-- The text of an object without a fence is its block. -/
theorem blockText?_ofTextFields {fields : Fields String} (hnames : fields.names.Nodup)
    (hfence : ¬ fence <:+: membersChars fields) :
    blockText? ((Json.ofTextFields fields).print spacedAscii) =
      some ((Json.ofTextFields fields).print spacedAscii) := by
  have hvalue := ofChars?_chars .allowed spacedAscii_plain (distinct_ofTextFields hnames)
  have htext : chars spacedAscii (.ofTextFields fields) =
      '\x7b' :: membersChars fields ++ ['\x7d'] :=
    rfl
  have hclosed : ¬ fence <:+: chars spacedAscii (.ofTextFields fields) := by
    have hopened : ¬ fence <:+: '\x7b' :: membersChars fields ++ ['\x7d'] ++ [] := by
      refine not_infix_fence_append ?_ (by decide) (by decide) not_infix_fence_nil
      rw [← toList_unclosed]
      exact not_infix_unclosed hfence
    rwa [List.append_nil] at hopened
  have hblock := (block?_eq_self_iff hvalue (by rw [htext]; rfl)
    (by rw [htext, List.getLast?_concat])).mpr (not_fencedBrace_of_unfenced hclosed)
  rw [blockText?, Json.print, String.toList_ofList, hblock]
  rfl

/-- **A request that breaks off is read like the whole.**  Let a thought, the name of a tool that
there is and an input be written as an object.  Without its closing brace the object is read as the
turn that it is read as with it, whatever the texts hold but code fences. -/
theorem turnOf_cutOff {thought action input : String} {toolNames : List String}
    (hname : action ∈ toolNames) (hne : action ≠ "") (hthought : ¬ fence <:+: thought.toList)
    (haction : ¬ fence <:+: action.toList) (hinput : ¬ fence <:+: input.toList) :
    let whole := (Json.ofTextFields (request thought action input)).print spacedAscii
    ∃ cut, whole = cut ++ "\x7d" ∧
      ∀ (reply : Reply) (paths : Paths) (text : String), text = cut ∨ text = whole →
        writtenPart reply.members paths = .str text → paths.WithoutCalls →
          turnOf reply paths toolNames =
            .ok { thought := some thought, action := some action, actionInput := some input,
                  finalAnswer := none, source := some text } := by
  intro whole
  refine ⟨unclosed (request thought action input), print_ofTextFields _, ?_⟩
  intro reply paths text htext hwritten hcalls
  rw [turnOf_of_written hwritten hcalls]
  have hnames := nodup_request thought action input
  have hfence : ¬ fence <:+: membersChars (request thought action input) := by
    have hkey (key : String) (h : '\x60' ∉ key.toList) : ¬ fence <:+: key.toList :=
      not_infix_fence_of_notMem h
    refine not_infix_membersChars ?_
    simp only [request, List.forall_mem_cons]
    exact ⟨⟨hkey _ (by decide), hthought⟩, ⟨hkey _ (by decide), haction⟩,
      ⟨hkey _ (by decide), hinput⟩, by simp⟩
  refine congrArg Except.ok ?_
  -- The cut text has no block and is salvaged; the whole one is read.
  rcases htext with rfl | rfl
  · have hblock : blockText? (unclosed (request thought action input)) = none :=
      blockText?_unclosed (List.cons_ne_nil _ _) hnames (not_infix_unclosed hfence)
    rw [turnOfText, hblock]
    exact turnOfBrokenText_request thought input hname hne
  · have hvalue : ofChars? .allowed whole.toList =
        some (.obj ((request thought action input).mapValues .str)) := by
      have hchars :
          whole.toList = chars spacedAscii (.ofTextFields (request thought action input)) :=
        String.toList_ofList
      rw [hchars]
      exact ofChars?_chars .allowed spacedAscii_plain (distinct_ofTextFields hnames)
    rw [turnOfText_of_block (blockText?_ofTextFields hnames hfence) hvalue]
    exact turnOfObject_request rfl rfl rfl rfl whole hname hne

/-- A thought that quotes an object, an input that looks like an answer, and a name in them that is
looked for. -/
theorem turnOf_cutOff_quoted :
    let thought := "say \"\x7b\"action\": \"Other\"\x7d\""
    let input := "\x7d, \"final_answer\": \"no\""
    let cut := unclosed (request thought "Search" input)
    turnOf (.text cut) {} ["Other", "Search"] =
      .ok { thought := some thought, action := some "Search", actionInput := some input,
            source := some cut } := by
  intro thought input cut
  obtain ⟨other, hwhole, hturn⟩ := turnOf_cutOff (by decide : "Search" ∈ ["Other", "Search"])
    (by decide) (by decide : ¬ fence <:+: thought.toList) (by decide)
    (by decide : ¬ fence <:+: input.toList)
  have hcut : cut = other := by
    rw [print_ofTextFields, String.append_left_inj] at hwhole
    exact hwhole
  exact hturn (.text cut) {} cut (.inl hcut) rfl fun path hpath => by cases hpath

end ReAct.Reply

import ReAct.Config
import ReAct.Proofs.Prompt.Scratchpad

/-!
# A prompt in one pass or in two

A prompt is assembled with the placeholders of the scratchpad left in it, and the scratchpad is
filled in afterwards.  Values that are filled into a template are not examined again, so the prompt
that knows its scratchpad from the start is a text with gaps for it, whatever else the values hold
(`gapped_fillPrompt`).  The two ways lead to the same prompt exactly if the stretches between the
gaps are clear (`renderScratchpad_assemble_iff`); a value with the placeholder of the scratchpad is
one that comes out changed (`not_forall_renderScratchpad_assemble`).

## Main Definitions

* `assembleWith`: the prompt with its scratchpad, in one pass
* `PlainPads`: a template whose scratchpads have no defaults
-/

namespace ReAct.Prompt

open Template Text

/-! ## One pass -/

/-- The sections of a prompt whose fragments are filled from the given values. -/
def sections (params : Parameters) (names lines : List String) (config : Config)
    (values : Fields Json) : Fields Json :=
  let joined := Json.str (config.toolNamesSeparator.intercalate names)
  let fragment (template : String) : Json :=
    .str (fillTemplate (Fields.put values "tool_names" joined) template)
  let parameter (name : String) : Json := (Fields.get? params name).getD .null
  [("prompt.prefix", fragment config.promptOpening),
    ("prompt.suffix", fragment config.promptClosing),
    ("prompt.format_instruction", fragment config.formatInstruction),
    ("tool_descriptions", .str ((shown config.sections.tools).wrap lines)),
    ("tool_names", joined),
    ("indices", .str (listSection (shown config.sections.indices) (parameter "indices"))),
    ("examples", .str (listSection (shown config.sections.examples) (parameter "examples"))),
    ("chat_history", orEmpty params "chat_history"),
    ("context", orEmpty params "context")]

/-- The prompt whose template and fragments are filled from the given values. -/
def fillPrompt (params : Parameters) (names lines : List String) (config : Config)
    (values : Fields Json) : String :=
  fillTemplate (Fields.merge values (sections params names lines config values))
    config.promptTemplate

/-- The prompt of a session with its scratchpad: every template is filled once, from the values of
the parameters and the scratchpad together. -/
def assembleWith (params : Parameters) (tools : List Tool.Entry) (names : List String)
    (config : Config) (scratchpad : String) : Except Failure String :=
  (toolLines tools names).map fun lines =>
    fillPrompt params names lines config
      (Fields.put (plainValues params) scratchpadKey (.str scratchpad))

/-- A prompt is filled in one pass, once the lines of its tools are there. -/
theorem assemble_eq (params : Parameters) (tools : List Tool.Entry) (names : List String)
    (config : Config) :
    assemble params tools names config =
      (toolLines tools names).map fun lines =>
        fillPrompt params names lines config (plainValues params) := by
  unfold assemble
  cases toolLines tools names <;> rfl

/-- The templates that a prompt is made from. -/
def templates (config : Config) : List String :=
  [config.promptTemplate, config.promptOpening, config.promptClosing, config.formatInstruction]

/-- A piece other than a scratchpad with a default. -/
def PlainPiece : Piece → Prop
  | .hole key (some _) => key ≠ scratchpadKey.toList
  | _ => True

/-- A template whose scratchpads have no defaults. -/
def PlainPads (template : String) : Prop :=
  ∀ piece ∈ cut parametersOpening.toList template.toList, PlainPiece piece

instance : DecidablePred PlainPiece
  | .hole _ (some _) => inferInstanceAs (Decidable (_ ≠ _))
  | .hole _ none => .isTrue trivial
  | .char _ => .isTrue trivial

instance (template : String) : Decidable (PlainPads template) :=
  inferInstanceAs (Decidable (∀ piece ∈ _, PlainPiece piece))

/-! ## Tables of values -/

/-- The text that a table of values gives for a key. -/
def textOf (values : Fields Json) (key : String) : Option (List Char) :=
  (Fields.get? (Json.outputs values) key).map String.toList

/-- Filling a template, with texts as lists of characters. -/
theorem toList_fillTemplate (values : Fields Json) (template : String) :
    (fillTemplate values template).toList =
      fillChars parametersOpening.toList (textOf values) (.vanishes [scratchpadKey])
        template.toList :=
  String.toList_ofList

@[simp] theorem isNull_str (s : String) : (Json.str s).isNull = false := rfl

/-- A value that is put is the text under its name, and leaves the others. -/
theorem textOf_put {values : Fields Json} {name : String} {v : Json} (hv : v.isNull = false)
    (key : String) :
    textOf (values.put name v) key =
      if name = key then some v.output.toList else textOf values key := by
  unfold textOf
  induction values with
  | nil => by_cases hname : name = key <;> simp [Fields.put, Json.outputs, hv, Fields.get?, hname]
  | cons entry rest ih =>
      obtain ⟨other, w⟩ := entry
      unfold Json.outputs at ih
      -- The entry is the one that is put, the one that is asked for, or neither.
      by_cases hother : other = name
      · subst hother
        by_cases hkey : other = key <;> cases hw : w.isNull <;>
          simp [Fields.put, Json.outputs, hv, hw, hkey, Fields.get?]
      · by_cases hkey : other = key
        · subst hkey
          cases hw : w.isNull <;>
            simp [Fields.put, Json.outputs, hother, Ne.symm hother, hw, Fields.get?, ih]
        · cases hw : w.isNull <;>
            simp [Fields.put, Json.outputs, hother, hkey, hw, Fields.get?, ih]

/-- Under other names there is no text. -/
theorem textOf_of_notMem {values : Fields Json} {key : String}
    (h : ∀ entry ∈ values, entry.1 ≠ key) : textOf values key = none := by
  unfold textOf
  induction values with
  | nil => rfl
  | cons entry rest ih =>
      rw [List.forall_mem_cons] at h
      unfold Json.outputs at ih ⊢
      cases hv : entry.2.isNull <;> simp [hv, Fields.get?, h.1, ih h.2]

/-- The parameters have no say in what a prompt renders itself. -/
theorem textOf_plainValues (params : Parameters) {key : String} (h : key ∈ sectionKeys) :
    textOf (plainValues params) key = none := by
  refine textOf_of_notMem fun entry hentry heq => ?_
  simp [plainValues, heq, h] at hentry

/-- A missing section is the empty text, and no null. -/
theorem isNull_orEmpty (params : Parameters) (name : String) :
    (orEmpty params name).isNull = false := by
  unfold orEmpty
  split
  · rename_i v hv
    split
    · cases v <;> simp_all [Json.isNull, Json.truthy]
    · rfl
  · rfl

/-! ## The placeholder as the scratchpad -/

/-- Tables that give the same texts, but for the scratchpad, for which the second one gives its
placeholder and the first one nothing. -/
def Marked (values marked : Fields Json) : Prop :=
  textOf values scratchpadKey = none ∧
    ∀ key, textOf marked key = if scratchpadKey = key then some padMark else textOf values key

/-- To begin with, only the scratchpad's key differs. -/
theorem marked_plainValues (params : Parameters) :
    Marked (plainValues params)
      (Fields.put (plainValues params) scratchpadKey (.str (String.ofList padMark))) := by
  refine ⟨textOf_plainValues params (by decide), fun key => ?_⟩
  rw [textOf_put (isNull_str _), Json.output, String.toList_ofList]

/-- Another value under another name makes no difference. -/
theorem Marked.put {values marked : Fields Json} (h : Marked values marked) {name : String}
    {v : Json} (hname : name ≠ scratchpadKey) (hv : v.isNull = false) :
    Marked (values.put name v) (marked.put name v) := by
  obtain ⟨hnone, hsame⟩ := h
  refine ⟨by rw [textOf_put hv, if_neg hname, hnone], fun key => ?_⟩
  rw [textOf_put hv, textOf_put hv, hsame]
  by_cases hkey : name = key
  · subst hkey
    simp [Ne.symm hname]
  · simp [hkey]

/-- Nor do other values under other names, by induction on them. -/
theorem Marked.merge {values marked changes : Fields Json} (h : Marked values marked)
    (hchanges : ∀ change ∈ changes, change.1 ≠ scratchpadKey ∧ change.2.isNull = false) :
    Marked (values.merge changes) (marked.merge changes) := by
  induction changes generalizing values marked with
  | nil => exact h
  | cons change changes ih =>
      rw [List.forall_mem_cons] at hchanges
      exact ih (h.put hchanges.1.1 hchanges.1.2) hchanges.2

/-- A plain template keeps the placeholder of a scratchpad that it is not given. -/
theorem fillTemplate_marked {values marked : Fields Json} (h : Marked values marked)
    {template : String} (hplain : PlainPads template) :
    fillTemplate marked template = fillTemplate values template := by
  rw [← String.toList_inj, toList_fillTemplate, toList_fillTemplate]
  refine List.flatMap_congr fun piece hpiece => ?_
  cases piece with
  | char c => rfl
  | hole key default =>
      by_cases hkey : key = scratchpadKey.toList
      · subst hkey
        cases default with
        | some text => exact absurd rfl (hplain _ hpiece)
        | none => simp [Piece.fill, h.1, h.2, padMark, padHole]
      · simp [Piece.fill, h.2, scratchpadKey_ne hkey]

/-- If no template has a scratchpad with a default, the prompt is the same whether the scratchpad is
kept or its own mark is put in. -/
theorem fillPrompt_marked {values marked : Fields Json} (h : Marked values marked)
    (params : Parameters) (names lines : List String) {config : Config}
    (hplain : ∀ template ∈ templates config, PlainPads template) :
    fillPrompt params names lines config marked = fillPrompt params names lines config values := by
  simp only [templates, List.forall_mem_cons] at hplain
  obtain ⟨htemplate, hopening, hclosing, hinstruction, -⟩ := hplain
  have hfragments : sections params names lines config marked =
      sections params names lines config values := by
    have hnames :
        Marked (values.put "tool_names" (.str (config.toolNamesSeparator.intercalate names)))
          (marked.put "tool_names" (.str (config.toolNamesSeparator.intercalate names))) :=
      h.put (by decide) rfl
    simp only [sections, fillTemplate_marked hnames hopening, fillTemplate_marked hnames hclosing,
      fillTemplate_marked hnames hinstruction]
  unfold fillPrompt
  rw [hfragments]
  refine fillTemplate_marked (h.merge ?_) htemplate
  simp [sections, scratchpadKey, isNull_orEmpty]

/-! ## The scratchpad as a gap -/

/-- A table that depends on a scratchpad, every text of which is a text with gaps for it. -/
def GappedValues (values : List Char → Fields Json) : Prop :=
  ∀ key, (∀ pad, textOf (values pad) key = none) ∨
    ∃ text, Gapped text ∧ ∀ pad, textOf (values pad) key = some (text pad)

theorem GappedValues.const (values : Fields Json) : GappedValues fun _ => values := by
  intro key
  cases htext : textOf values key with
  | none => exact .inl fun _ => htext
  | some text => exact .inr ⟨_, .const text, fun _ => htext⟩

/-- A value that depends on a scratchpad and is a text with gaps for it. -/
def GappedValue (v : List Char → Json) : Prop :=
  (∀ pad, (v pad).isNull = false) ∧ Gapped fun pad => (v pad).output.toList

theorem GappedValue.const {v : Json} (hv : v.isNull = false) : GappedValue fun _ => v :=
  ⟨fun _ => hv, .const _⟩

/-- One more value that varies in its gaps only. -/
theorem GappedValues.put {values : List Char → Fields Json} (h : GappedValues values)
    {name : String} {v : List Char → Json} (hv : GappedValue v) :
    GappedValues fun pad => (values pad).put name (v pad) := by
  obtain ⟨hv, htext⟩ := hv
  intro key
  by_cases hkey : name = key
  · exact .inr ⟨_, htext, fun pad => by rw [textOf_put (hv pad), if_pos hkey]⟩
  · simpa only [textOf_put (hv _), if_neg hkey] using h key

/-- More of them, by induction on the values. -/
theorem GappedValues.merge {values : List Char → Fields Json} (h : GappedValues values)
    {changes : List (String × (List Char → Json))}
    (hchanges : ∀ change ∈ changes, GappedValue change.2) :
    GappedValues fun pad =>
      (values pad).merge (changes.map fun change => (change.1, change.2 pad)) := by
  induction changes generalizing values with
  | nil => exact h
  | cons change changes ih =>
      rw [List.forall_mem_cons] at hchanges
      exact ih (h.put hchanges.1) hchanges.2

/-- A template that is filled with such values varies in its gaps only. -/
theorem gapped_fillTemplate {values : List Char → Fields Json} (h : GappedValues values)
    (template : String) : Gapped fun pad => (fillTemplate (values pad) template).toList := by
  simp only [toList_fillTemplate, fillChars]
  refine Gapped.flatMap _ fun piece _ => ?_
  cases piece with
  | char c => exact .const [c]
  | hole key default =>
      rcases h (String.ofList key) with hnone | ⟨text, htext, hsome⟩
      · simp only [Piece.fill, hnone]
        exact .const _
      · simpa only [Piece.fill, hsome] using htext

/-- The prompt that knows its scratchpad is a text with gaps for it. -/
theorem gapped_fillPrompt (params : Parameters) (names lines : List String) (config : Config)
    {values : List Char → Fields Json} (h : GappedValues values) :
    Gapped fun pad => (fillPrompt params names lines config (values pad)).toList := by
  let joined := Json.str (config.toolNamesSeparator.intercalate names)
  let fragment (template : String) (pad : List Char) : Json :=
    .str (fillTemplate ((values pad).put "tool_names" joined) template)
  have hfragment (template : String) : GappedValue (fragment template) :=
    ⟨fun _ => rfl, gapped_fillTemplate (h.put (.const rfl)) template⟩
  let parameter (name : String) : Json := (Fields.get? params name).getD .null
  let changes : List (String × (List Char → Json)) :=
    [("prompt.prefix", fragment config.promptOpening),
      ("prompt.suffix", fragment config.promptClosing),
      ("prompt.format_instruction", fragment config.formatInstruction),
      ("tool_descriptions", fun _ => .str ((shown config.sections.tools).wrap lines)),
      ("tool_names", fun _ => joined),
      ("indices", fun _ =>
        .str (listSection (shown config.sections.indices) (parameter "indices"))),
      ("examples", fun _ =>
        .str (listSection (shown config.sections.examples) (parameter "examples"))),
      ("chat_history", fun _ => orEmpty params "chat_history"),
      ("context", fun _ => orEmpty params "context")]
  -- Of the sections only the three fragments show the pad.
  have hchanges : ∀ change ∈ changes, GappedValue change.2 := by
    simp only [changes, List.forall_mem_cons]
    refine ⟨hfragment _, hfragment _, hfragment _, ?_⟩
    exact ⟨.const rfl, .const rfl, .const rfl, .const rfl, .const (isNull_orEmpty _ _),
      .const (isNull_orEmpty _ _), by simp⟩
  exact gapped_fillTemplate (h.merge hchanges) config.promptTemplate

/-- **When two passes are as good as one.**  The prompt with its scratchpad, filled in one pass, is
a text with gaps for the scratchpad.  Filling the scratchpad into the assembled prompt leads to it,
whatever the scratchpad, exactly if the stretches of text around the gaps are clear: no value that
came into the prompt made a placeholder that the second pass fills, or opened one that the
placeholder of a scratchpad closes. -/
theorem renderScratchpad_assemble_iff {params : Parameters} {tools : List Tool.Entry}
    {names : List String} {config : Config} {prompt : String}
    (hplain : ∀ template ∈ templates config, PlainPads template)
    (h : assemble params tools names config = .ok prompt) :
    ∃ stretches : List (List Char),
      (∀ scratchpad : String, assembleWith params tools names config scratchpad =
        .ok (String.ofList (scratchpad.toList.intercalate stretches))) ∧
      ((∀ scratchpad, assembleWith params tools names config scratchpad =
        .ok (renderScratchpad prompt scratchpad)) ↔ Clear stretches) := by
  rw [assemble_eq] at h
  obtain ⟨lines, hlines, hprompt⟩ : ∃ lines, toolLines tools names = .ok lines ∧
      fillPrompt params names lines config (plainValues params) = prompt := by
    cases hlines : toolLines tools names with
    | error failure => simp [hlines, Except.map] at h
    | ok lines =>
        refine ⟨lines, rfl, ?_⟩
        simpa [hlines, Except.map] using h
  have hvalues : GappedValues fun pad =>
      Fields.put (plainValues params) scratchpadKey (.str (String.ofList pad)) := by
    refine (GappedValues.const _).put ⟨fun _ => rfl, ?_⟩
    simpa only [Json.output, String.toList_ofList] using Gapped.gap
  obtain ⟨stretches, hne, hgaps⟩ := gapped_fillPrompt params names lines config hvalues
  beta_reduce at hgaps
  have hwith (scratchpad : String) : assembleWith params tools names config scratchpad =
      .ok (String.ofList (scratchpad.toList.intercalate stretches)) := by
    rw [← hgaps, String.ofList_toList, String.ofList_toList, assembleWith, hlines]
    rfl
  refine ⟨stretches, hwith, ?_⟩
  -- The prompt itself is the pattern filled with its own placeholder.
  have hmark : prompt.toList = padMark.intercalate stretches := by
    rw [← hgaps, fillPrompt_marked (marked_plainValues params) params names lines hplain, hprompt]
  -- Rendering puts the pad in place of every mark exactly if the stretches are clear.
  rw [← padded_intercalate_iff hne]
  constructor
  · intro hsame pad
    have htext := hsame (String.ofList pad)
    rw [hwith, renderScratchpad_eq, hmark, String.toList_ofList, Except.ok.injEq,
      String.ofList_inj] at htext
    exact htext.symm
  · intro hsame scratchpad
    rw [hwith, renderScratchpad_eq, hmark, hsame]

theorem assemble_without_tools (params : Parameters) (config : Config) :
    assemble params [] [] config =
      .ok (fillPrompt params [] [] config (plainValues params)) :=
  assemble_eq params [] [] config

/-- A configuration whose prompts are a question and a scratchpad. -/
def questionOnly : Config :=
  { Config.initial with
    promptTemplate := "Q: $\x7bparameters.question\x7d\n$\x7bparameters.scratchpad\x7d"
    promptOpening := ""
    promptClosing := ""
    formatInstruction := "" }

/-- A question with a placeholder of its own. -/
theorem renderScratchpad_assemble_question :
    ∃ prompt, assemble [("question", .str "Who is $\x7bparameters.name\x7d?")] [] []
        questionOnly = .ok prompt ∧
      ∃ stretches : List (List Char),
        (∀ scratchpad : String,
          assembleWith [("question", .str "Who is $\x7bparameters.name\x7d?")] [] []
            questionOnly scratchpad =
              .ok (String.ofList (scratchpad.toList.intercalate stretches))) ∧
        ((∀ scratchpad,
          assembleWith [("question", .str "Who is $\x7bparameters.name\x7d?")] [] []
            questionOnly scratchpad = .ok (renderScratchpad prompt scratchpad)) ↔
              Clear stretches) :=
  ⟨_, assemble_without_tools _ _,
    renderScratchpad_assemble_iff (by decide +kernel) (assemble_without_tools _ _)⟩

/-- A question that asks for the scratchpad gets it. -/
theorem not_forall_renderScratchpad_assemble :
    ¬ ∀ (params : Parameters) (tools : List Tool.Entry) (names : List String) (config : Config)
      (prompt scratchpad : String),
      (∀ template ∈ templates config, PlainPads template) →
        assemble params tools names config = .ok prompt →
          assembleWith params tools names config scratchpad =
            .ok (renderScratchpad prompt scratchpad) := by
  intro hall
  let params : Parameters := [("question", .str "what is $\x7bparameters.scratchpad\x7d?")]
  have hsame := hall params [] [] questionOnly _ "SEEN" (by decide +kernel)
    (assemble_without_tools params questionOnly)
  have hnot : fillPrompt params [] [] questionOnly
        (Fields.put (plainValues params) scratchpadKey (.str "SEEN")) ≠
      renderScratchpad (fillPrompt params [] [] questionOnly (plainValues params)) "SEEN" := by
    decide +kernel
  exact hnot (Except.ok.inj hsame)

end ReAct.Prompt

import ReAct.Proofs.Fields
import ReAct.Proofs.Json.Distinct
import ReAct.Proofs.Tool.Remainder
import ReAct.Tool.Arguments

/-!
# Where an argument comes from

The arguments of a tool call are written layer over layer.  What is left under a name in the end is
said here by precedence: the templates of the declaration come first, each filled from the layers
below and from no other template, and below them the first source that has the name decides
(`get?_arguments`).  A tool that uses the user's question gets nothing else as its input, unless its
own declaration says so.

## Main Definitions

* `readFields`: the fields of a model's input
* `baseValue?`: what is under a name below the templates
* `fillFrom`: a template filled from values by name
-/

namespace ReAct.Tool

open Text

/-! ## The fields of an input -/

/-- An object that is read has distinct names: JSON and entries are both put in one by one. -/
theorem nodup_names_of_entriesWithin {bound : Nat} {read fields : Fields String} {s : List Char}
    (hread : read.names.Nodup) (h : ActionInput.entriesWithin bound read s = .ok fields) :
    fields.names.Nodup := by
  induction bound generalizing read s with
  | zero => cases h
  | succ bound ih =>
      cases s with
      | nil => cases h
      | cons c s =>
          rw [ActionInput.entriesWithin] at h
          split at h
          · cases h
            exact hread
          · split at h
            · cases h
            · exact ih (Fields.nodup_names_put _ _ hread) h

theorem nodup_names_empty : (Fields.names ([] : Fields String)).Nodup :=
  List.nodup_nil

/-- The fields of a tool input have distinct names, read strictly or leniently. -/
theorem nodup_names_of_read {input : String} {fields : Fields String}
    (h : ActionInput.read input = .ok fields) : fields.names.Nodup := by
  unfold ActionInput.read at h
  split at h
  · split at h
    · rename_i members hvalue
      cases h
      rw [Fields.names_mapValues]
      cases Json.distinct_of_ofChars? hvalue with
      | obj hnames _ => exact hnames
    · cases h
    · exact nodup_names_of_entriesWithin nodup_names_empty h
  · cases h

/-- The fields of a model's input; none if there is no input, or if it does not read as an
object. -/
def readFields (actionInput : Option String) : Fields String :=
  actionInput.elim [] fun input => (ActionInput.read input).toOption.getD []

/-- So have the fields of an input that may not be there or not be readable. -/
theorem nodup_names_readFields (actionInput : Option String) :
    (readFields actionInput).names.Nodup := by
  cases actionInput with
  | none => exact nodup_names_empty
  | some input =>
      show ((ActionInput.read input).toOption.getD []).names.Nodup
      cases hread : ActionInput.read input with
      | error e => exact nodup_names_empty
      | ok fields => exact nodup_names_of_read hread

/-- What does not begin like an object is not read as one. -/
theorem inputFields_eq_readFields (actionInput : Option String) :
    inputFields actionInput = readFields actionInput := by
  cases actionInput with
  | none => rfl
  | some input =>
      show _ = (ActionInput.read input).toOption.getD []
      unfold inputFields
      dsimp only
      split
      · cases ActionInput.read input <;> rfl
      · rename_i hopen
        unfold ActionInput.read
        split
        · rename_i inside htrim
          exact absurd (head?_trimStart_of_trim htrim) hopen
        · rfl

/-! ## Below the templates -/

variable (spec : Spec) (question : String) (actionInput : Option String)

/-- What is under a name below the input as it was written.  The question is the input of a tool
that uses it; otherwise a field of the model's input comes first, then, as the input of the tool,
the model's input itself, and last the parameter of the declaration. -/
def sourceValue? (name : String) : Option String :=
  let field := (readFields actionInput).get? name
  if name = "input" then
    if spec.inputIsQuestion then some question
    else (field.or actionInput).or (spec.parameters.get? name)
  else field.or (spec.parameters.get? name)

/-- What is under a name below the templates: the input as it was written has a name of its own. -/
def baseValue? (name : String) : Option String :=
  if name = generatedInput ∧ actionInput.isSome then actionInput
  else sourceValue? spec question actionInput name

/-- The layers below the input as it was written. -/
def sourceArguments : Fields String :=
  let params :=
    if spec.inputIsQuestion then spec.parameters.put "input" question
    else actionInput.elim spec.parameters fun input => spec.parameters.put "input" input
  let fields := inputFields actionInput
  params.merge (if spec.inputIsQuestion then fields.erase "input" else fields)

/-- The input as it was written is put last, where there is one. -/
theorem baseArguments_eq :
    baseArguments spec question actionInput =
      actionInput.elim (sourceArguments spec question actionInput) fun input =>
        (sourceArguments spec question actionInput).put generatedInput input := by
  cases actionInput <;> rfl

/-- What is found below the input as it was written, by the cases of where the question goes. -/
theorem get?_sourceArguments (name : String) :
    (sourceArguments spec question actionInput).get? name =
      sourceValue? spec question actionInput name := by
  have hnames := nodup_names_readFields actionInput
  unfold sourceArguments sourceValue?
  dsimp only
  rw [inputFields_eq_readFields]
  -- With the flag the question stands under "input", whatever the input says; without it the whole
  -- input does, unless one of its fields is called so.
  cases spec.inputIsQuestion with
  | true =>
      rw [if_pos rfl, if_pos rfl, Fields.get?_merge (Fields.nodup_names_erase hnames "input")]
      by_cases hname : name = "input"
      · subst hname
        rw [if_pos rfl, if_pos rfl, Fields.get?_erase_self, Fields.get?_put_self]
        rfl
      · rw [if_neg hname, Fields.get?_erase_of_ne _ hname, Fields.get?_put_of_ne _ _ hname]
  | false =>
      rw [if_neg Bool.false_ne_true, if_neg Bool.false_ne_true, Fields.get?_merge hnames]
      cases actionInput with
      | none =>
          rw [Option.or_none, if_neg Bool.false_ne_true, ite_self]
          rfl
      | some input =>
          show ((readFields (some input)).get? name).or
            ((spec.parameters.put "input" input).get? name) = _
          by_cases hname : name = "input"
          · subst hname
            rw [if_pos rfl, Fields.get?_put_self, Option.or_assoc]
            rfl
          · rw [if_neg hname, Fields.get?_put_of_ne _ _ hname]

/-- What is found before the templates are filled. -/
theorem get?_baseArguments (name : String) :
    (baseArguments spec question actionInput).get? name =
      baseValue? spec question actionInput name := by
  rw [baseArguments_eq, baseValue?]
  cases actionInput with
  | none =>
      rw [if_neg (fun h => by cases h.2)]
      exact get?_sourceArguments spec question none name
  | some input =>
      show ((sourceArguments spec question (some input)).put generatedInput input).get? name = _
      by_cases hname : name = generatedInput
      · subst hname
        rw [if_pos ⟨rfl, rfl⟩, Fields.get?_put_self]
      · rw [if_neg fun h => hname h.1, Fields.get?_put_of_ne _ _ hname]
        exact get?_sourceArguments spec question (some input) name

/-! ## Templates -/

/-- A template filled from values by name. -/
def fillFrom (value? : String → Option String) (template : String) : String :=
  String.ofList
    (Template.fillChars Template.parametersOpening.toList
      (fun key => (value? key).map String.toList) .stays template.toList)

/-- Filling looks values up, and nothing else of the arguments counts. -/
theorem fill_baseArguments :
    Template.fill Template.parametersOpening (baseArguments spec question actionInput) .stays =
      fillFrom (baseValue? spec question actionInput) := by
  funext template
  unfold Template.fill fillFrom
  simp only [get?_baseArguments]

/-- For a tool that uses the question, the templates see the question as the input. -/
theorem baseValue?_input (h : spec.inputIsQuestion = true) :
    baseValue? spec question actionInput "input" = some question := by
  have hname : ¬ ("input" = generatedInput ∧ actionInput.isSome) := fun hsame =>
    absurd hsame.1 (by decide)
  rw [baseValue?, if_neg hname]
  unfold sourceValue?
  dsimp only
  rw [if_pos rfl, if_pos h]

/-- **Every argument comes from where the precedence says.**  Under a name of a template stands the
template, filled from what is below the templates; under every other name stands what is below them.
If the tool uses the question and no template is its input, its input is the question. -/
theorem get?_arguments (hconfig : spec.config.names.Nodup) :
    (∀ name, (arguments spec question actionInput).get? name =
      ((spec.config.get? name).map (fillFrom (baseValue? spec question actionInput))).or
        (baseValue? spec question actionInput name)) ∧
      (spec.inputIsQuestion = true → spec.config.get? "input" = none →
        (arguments spec question actionInput).get? "input" = some question) := by
  have hall (name : String) : (arguments spec question actionInput).get? name =
      ((spec.config.get? name).map (fillFrom (baseValue? spec question actionInput))).or
        (baseValue? spec question actionInput name) := by
    rw [arguments, fill_baseArguments, Fields.get?_merge (by rwa [Fields.names_mapValues]),
      Fields.get?_mapValues, get?_baseArguments]
  refine ⟨hall, fun hquestion hinput => ?_⟩
  rw [hall, hinput]
  exact baseValue?_input spec question actionInput hquestion

/-- A tool that uses the question, with two templates of which one names the other. -/
def lookup : Spec where
  type := "Lookup"
  config :=
    [("query", "$\x7bparameters.input\x7d, $\x7bparameters.hint\x7d"),
      ("hint", "$\x7bparameters.llm_generated_input:-none\x7d")]
  inputIsQuestion := true

/-- What the model writes under the names of the templates and of the input changes neither the
input nor what the templates are filled from. -/
theorem get?_arguments_lookup :
    lookup.config.names.Nodup ∧
      (arguments lookup "who?" (some "\x7b'input': 'me', 'hint': 'x'\x7d")).get? "query" =
        some "who?, x" ∧
      (arguments lookup "who?" (some "\x7b'input': 'me', 'hint': 'x'\x7d")).get? "hint" =
        some "\x7b'input': 'me', 'hint': 'x'\x7d" ∧
      (arguments lookup "who?" (some "\x7b'input': 'me', 'hint': 'x'\x7d")).get? "input" =
        some "who?" := by
  have hconfig : lookup.config.names.Nodup := by decide +kernel
  obtain ⟨hall, hinput⟩ :=
    get?_arguments lookup "who?" (some "\x7b'input': 'me', 'hint': 'x'\x7d") hconfig
  refine ⟨hconfig, ?_, ?_, hinput rfl (by decide +kernel)⟩
  · rw [hall]
    decide +kernel
  · rw [hall]
    decide +kernel

end ReAct.Tool

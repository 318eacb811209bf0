import ReAct.Proofs.Fields
import ReAct.Proofs.Prompt.OnePass

/-!
# The tools in a prompt

A prompt knows the tools of its session under two keys, one for the list of their names and one for
the lines that describe them.  Both are made by the prompt itself, whatever parameters come under
these keys (`lists_of_assemble`).  The fragments know the list of names only.

## Main Definitions

* `promptValues`: the values that the template of a prompt is filled from
* `Lists`: values of a prompt and of its fragments that list tools
-/

namespace ReAct.Prompt

open Template Text

/-! ## Tables of values -/

/-- What is merged into a table counts before what was there. -/
theorem textOf_merge {values changes : Fields Json} (hnames : changes.names.Nodup)
    (hvalues : ∀ change ∈ changes, change.2.isNull = false) (key : String) :
    textOf (values.merge changes) key =
      (Fields.get? changes key).elim (textOf values key) fun v => some v.output.toList := by
  induction changes generalizing values with
  | nil => rfl
  | cons change rest ih =>
      obtain ⟨name, v⟩ := change
      rw [List.forall_mem_cons] at hvalues
      rw [Fields.names, List.map_cons, List.nodup_cons] at hnames
      have hmerge : values.merge ((name, v) :: rest) = (values.put name v).merge rest := rfl
      rw [hmerge, ih hnames.2 hvalues.2, textOf_put hvalues.1, Fields.get?]
      by_cases hname : name = key
      · subst hname
        rw [Fields.get?_of_notMem hnames.1, if_pos rfl, if_pos rfl]
        rfl
      · rw [if_neg hname, if_neg hname]

/-! ## Lines -/

/-- The values that the template of a prompt is filled from. -/
def promptValues (params : Parameters) (names lines : List String) (config : Config) :
    Fields Json :=
  Fields.merge (plainValues params) (sections params names lines config (plainValues params))

/-- What a prompt makes itself counts before its parameters. -/
theorem textOf_promptValues (params : Parameters) (names lines : List String) (config : Config)
    (key : String) :
    textOf (promptValues params names lines config) key =
      (Fields.get? (sections params names lines config (plainValues params)) key).elim
        (textOf (plainValues params) key) fun v => some v.output.toList :=
  textOf_merge (by simp [sections, Fields.names]) (by simp [sections, isNull_orEmpty]) key

theorem eq_fillTemplate_of_assemble {params : Parameters} {tools : List Tool.Entry}
    {names : List String} {config : Config} {prompt : String}
    (h : assemble params tools names config = .ok prompt) :
    ∃ lines, toolLines tools names = .ok lines ∧
      prompt = fillTemplate (promptValues params names lines config) config.promptTemplate := by
  rw [assemble_eq] at h
  cases hlines : toolLines tools names with
  | error failure =>
      rw [hlines] at h
      cases h
  | ok lines =>
      rw [hlines] at h
      cases h
      exact ⟨lines, rfl, rfl⟩

/-- The values of a prompt and of its fragments list tools: both have their names under the key for
these, the prompt has their lines under the key for these, and nothing else than what the prompt
makes itself is under either key. -/
structure Lists (config : Config) (tools : List Tool.Entry) (values fragments : Fields Json) :
    Prop where
  names : textOf values "tool_names" =
    some (config.toolNamesSeparator.intercalate (tools.map Tool.Entry.name)).toList
  lines : ∃ lines : List String, tools.map toolLine = lines.map some ∧
    textOf values "tool_descriptions" = some ((shown config.sections.tools).wrap lines).toList
  opening : textOf values "prompt.prefix" =
    some (fillTemplate fragments config.promptOpening).toList
  closing : textOf values "prompt.suffix" =
    some (fillTemplate fragments config.promptClosing).toList
  instruction : textOf values "prompt.format_instruction" =
    some (fillTemplate fragments config.formatInstruction).toList
  fragmentNames : textOf fragments "tool_names" =
    some (config.toolNamesSeparator.intercalate (tools.map Tool.Entry.name)).toList
  fragmentLines : textOf fragments "tool_descriptions" = none

end ReAct.Prompt

import ReAct.Config
import ReAct.Proofs.Json.Size
import ReAct.Proofs.Template.Slots
import ReAct.Session.Loop

/-!
# Tool results in templates

Without a provider the message that hands an observation back is a template in which its text and
the identifier of its call are spliced.  The text is spliced as the inside of a string literal, but
the identifier as it is.  So the message is the value of the template with both in their places,
whatever the template, if and only if the identifier has nothing that a literal escapes
(`wrap_reads_iff`).

If it has, its literal is longer than the identifier.  A template without blanks then gives a text
that is too short for the value that it should have.

## Main Definitions

* `resultTexts`: the texts that are due in the places of the placeholders
* `shortTemplate`: a template without blanks
-/

namespace ReAct.Session

open Json Template Plan

/-- The texts that an observation has for the placeholders of a template. -/
def resultTexts (observation : Tool.Observation) : Fields String :=
  [("tool_call_id", observation.toolCallId.getD ""), ("tool_response", observation.text)]

/-- What is spliced for them: the identifier as it is, the text as the inside of a literal. -/
def splicedTexts (observation : Tool.Observation) : Fields String :=
  [("tool_call_id", observation.toolCallId.getD ""),
    ("tool_response", literalBody false observation.text)]

/-- Without a provider, a result is put into the template. -/
theorem wrap_of_template {config : Config} {template : String}
    (h : config.interactionToolResponse = some template) (hne : template ≠ "")
    (observation : Tool.Observation) :
    wrap config none observation =
      some (fill messageOpening (splicedTexts observation) .stays template) := by
  rw [wrap, h]
  exact if_neg hne

/-- The members of a template with the texts of an observation in their places. -/
def withResult (observation : Tool.Observation) (members : Fields Json) : Fields Json :=
  members.mapValues (mapTexts (inPlace messageOpening (resultTexts observation)))

/-- A template without blanks. -/
def shortTemplate : String :=
  "\x7b\"r\":\"$\x7b_interactions.tool_response\x7d\"," ++
    "\"i\":\"$\x7b_interactions.tool_call_id\x7d\"\x7d"

theorem cut_shortTemplate : cut messageOpening.toList shortTemplate.toList =
    "\x7b\"r\":".toList.map .char ++ .char '"' :: .hole "tool_response".toList none :: .char '"' ::
      (",\"i\":".toList.map .char ++ .char '"' :: .hole "tool_call_id".toList none :: .char '"' ::
        ['\x7d'].map .char) := by
  decide

theorem literals_shortTemplate : literals shortTemplate.toList =
    ["$\x7b_interactions.tool_call_id\x7d", "i", "$\x7b_interactions.tool_response\x7d", "r"] := by
  rfl

theorem textSlots_shortTemplate :
    TextSlots messageOpening ["tool_call_id", "tool_response"] shortTemplate := by
  refine ⟨⟨["tool_response", "tool_call_id"], by decide, ?_⟩, ?_⟩
  · rw [cut_shortTemplate]
    refine .slot (by decide) (inert_chars _ _) ?_ (.slot (by decide) (inert_chars _ _) ?_
      (.rest (inert_chars _ _)))
    · exact ⟨_, _, rfl, rfl⟩
    · exact ⟨_, _, rfl, rfl⟩
  · intro key hkey
    rw [timesRead, literals_shortTemplate]
    rcases List.mem_pair.mp hkey with rfl | rfl <;> decide

theorem read?_shortTemplate : read? shortTemplate =
    some (.obj [("r", .str "$\x7b_interactions.tool_response\x7d"),
      ("i", .str "$\x7b_interactions.tool_call_id\x7d")]) := by
  rfl

theorem wrap_shortTemplate {config : Config}
    (h : config.interactionToolResponse = some shortTemplate) (observation : Tool.Observation) :
    wrap config none observation = some (String.ofList (
      "\x7b\"r\":".toList ++ ('"' :: body false observation.text.toList ++ ['"']) ++
        (",\"i\":".toList ++ ('"' :: (observation.toolCallId.getD "").toList ++ ['"']) ++
          ['\x7d']))) := by
  have hid : ((splicedTexts observation).get? "tool_call_id").map String.toList =
      some (observation.toolCallId.getD "").toList := rfl
  have htext : ((splicedTexts observation).get? "tool_response").map String.toList =
      some (body false observation.text.toList) := by
    rw [← @String.toList_ofList (body false observation.text.toList)]
    rfl
  rw [wrap_of_template h (by decide), fill, fillChars, cut_shortTemplate,
    flatMap_slot _ (fun _ => rfl), flatMap_slot _ (fun _ => rfl), fill_chars, fill_chars,
    fill_chars, fill_hole htext, fill_hole hid]

/-- Both slots of the template are filled. -/
theorem withResult_shortTemplate (observation : Tool.Observation) :
    withResult observation [("r", .str "$\x7b_interactions.tool_response\x7d"),
        ("i", .str "$\x7b_interactions.tool_call_id\x7d")] =
      [("r", .str observation.text), ("i", .str (observation.toolCallId.getD ""))] := by
  have hid : inPlace messageOpening (resultTexts observation)
      "$\x7b_interactions.tool_call_id\x7d" = observation.toolCallId.getD "" :=
    @inPlace_mark messageOpening (resultTexts observation) "tool_call_id" _ rfl
  have htext : inPlace messageOpening (resultTexts observation)
      "$\x7b_interactions.tool_response\x7d" = observation.text :=
    @inPlace_mark messageOpening (resultTexts observation) "tool_response" _ rfl
  rw [withResult, Fields.mapValues, List.map_cons, List.map_cons, List.map_nil, mapTexts, mapTexts,
    hid, htext]

theorem length_literal_between (before inside after : List Char) :
    (before ++ ('"' :: inside ++ ['"']) ++ after).length =
      before.length + (inside.length + 2) + after.length := by
  simp only [List.length_append, List.length_cons, List.length_nil]

/-- If the short template gives the right value, the identifier is written as it is. -/
theorem literalBody_of_read?_shortTemplate {config : Config}
    (h : config.interactionToolResponse = some shortTemplate) {observation : Tool.Observation}
    {message : String} (hmessage : wrap config none observation = some message)
    (hread : read? message = some (.obj (withResult observation
      [("r", .str "$\x7b_interactions.tool_response\x7d"),
        ("i", .str "$\x7b_interactions.tool_call_id\x7d")]))) :
    literalBody false (observation.toolCallId.getD "") = observation.toolCallId.getD "" := by
  rw [wrap_shortTemplate h] at hmessage
  cases hmessage
  rw [withResult_shortTemplate] at hread
  have hle := leastLength_le_of_ofChars? hread
  generalize observation.toolCallId.getD "" = id at hle ⊢
  generalize observation.text = text at hle
  have hr : leastBody .refused "r".toList = 1 := rfl
  have hi : leastBody .refused "i".toList = 1 := rfl
  rw [leastLength, leastMembers, leastMembers, leastMembers, leastLength, leastLength, hr, hi,
    leastBody_refused, leastBody_refused, String.toList_ofList, length_literal_between,
    length_literal_between] at hle
  -- The object takes as many characters besides its texts as the message has besides them.
  have hbefore : "\x7b\"r\":".toList.length = 5 := rfl
  have hbetween : ",\"i\":".toList.length = 5 := rfl
  rw [hbefore, hbetween, List.length_singleton] at hle
  rw [literalBody, body_eq_of_length_le (by omega), String.ofList_toList]

/-- What is spliced denotes the texts of the observation if the identifier is written as it is. -/
theorem spellsEach_splicedTexts {observation : Tool.Observation}
    (h : literalBody false (observation.toolCallId.getD "") = observation.toolCallId.getD "") :
    SpellsEach (splicedTexts observation) (resultTexts observation) := by
  have hid := spells_literalBody false (observation.toolCallId.getD "")
  rw [h] at hid
  exact .cons ⟨rfl, hid⟩ (.cons ⟨rfl, spells_literalBody false observation.text⟩ .nil)

/-- **A tool result is read back from its template**, with the text of the observation and the
identifier of its call in the places of their placeholders, whatever the template, if and only if
the identifier is written in a literal as it is. -/
theorem wrap_reads_iff (observation : Tool.Observation) :
    (∀ (config : Config) (template : String) (members : Fields Json),
      config.interactionToolResponse = some template →
        TextSlots messageOpening ["tool_call_id", "tool_response"] template →
          read? template = some (.obj members) →
            ∃ message, wrap config none observation = some message ∧
              read? message = some (.obj (withResult observation members))) ↔
      literalBody false (observation.toolCallId.getD "") = observation.toolCallId.getD "" := by
  constructor
  -- One template is enough for this direction: the id is read back out of it.
  · intro h
    obtain ⟨message, hmessage, hread⟩ :=
      h { Config.initial with interactionToolResponse := some shortTemplate } shortTemplate _ rfl
        textSlots_shortTemplate read?_shortTemplate
    exact literalBody_of_read?_shortTemplate rfl hmessage hread
  · intro hid config template members hconfig hslots hvalue
    have hsome : template ≠ "" := by
      rintro rfl
      cases hvalue
    have hmark : ∀ key ∈ ["tool_call_id", "tool_response"],
        body false (mark messageOpening.toList key) = mark messageOpening.toList key := by
      decide
    refine ⟨_, wrap_of_template hconfig hsome observation, ?_⟩
    have hread := @read?_fill messageOpening template (resultTexts observation)
      (splicedTexts observation) hslots hmark (spellsEach_splicedTexts hid)
    rw [hread, hvalue, Option.map_some, mapTexts_obj]
    rfl

/-- A quote in the identifier ends its literal. -/
theorem not_forall_wrap_reads :
    ¬ ∀ (observation : Tool.Observation) (config : Config) (template : String)
      (members : Fields Json), config.interactionToolResponse = some template →
        TextSlots messageOpening ["tool_call_id", "tool_response"] template →
          read? template = some (.obj members) →
            ∃ message, wrap config none observation = some message ∧
              read? message = some (.obj (withResult observation members)) := by
  intro hall
  obtain ⟨message, hmessage, hread⟩ := hall ⟨"Echo", .success, "x", some "a\"b"⟩
    { Config.initial with interactionToolResponse := some shortTemplate } shortTemplate _ rfl
    textSlots_shortTemplate read?_shortTemplate
  rw [wrap_shortTemplate rfl] at hmessage
  have hnone : read? message = none := by
    rw [← Option.some.inj hmessage]
    rfl
  rw [hnone] at hread
  cases hread

end ReAct.Session

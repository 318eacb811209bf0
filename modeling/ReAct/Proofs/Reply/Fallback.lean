import ReAct.Proofs.Reply.Decision
import ReAct.Proofs.Reply.Salvage

/-!
# Replies without a native call

Where native calls are looked for and none is taken, a reply is read like any other, but for one
shortcut: a text without a block is an answer as it stands.  The reading of other replies goes
further with such a text and salvages the fields of an object that breaks off.  So the two readings
decide the same unless an answer, or an action that names a tool, can be salvaged from a text
without a block (`turnOf_alike_iff`).

## Main Definitions

* `Turn.Alike`: turns with one decision
* `Reply.Blockless`, `Reply.BreaksOff`: the written part of a reply is a text without a block, and a
  decision can be salvaged from it
-/

namespace ReAct.Reply

/-! ## Decisions -/

/-- Turns with one decision: they call the same tool with the same input, or give the same
answer. -/
structure Turn.Alike (first second : Turn) : Prop where
  action : first.action = second.action
  actionInput : first.actionInput = second.actionInput
  finalAnswer : first.finalAnswer = second.finalAnswer

theorem Turn.Alike.refl (turn : Turn) : turn.Alike turn :=
  ⟨rfl, rfl, rfl⟩

/-- The turn of a text that is an answer as it stands. -/
def plainAnswer (text : String) : Turn :=
  { thought := some "", finalAnswer := some text, source := some text }

/-- A text from which an answer can be salvaged, or an action that names a tool. -/
def Salvageable (toolNames : List String) (text : String) : Prop :=
  (∃ answer, Salvage.answerField? text.toList = some answer) ∨
    ∃ action name, Salvage.textField? "action" text.toList = some action ∧ action ≠ "" ∧
      toolName? action toolNames = some name

/-! ## The decision of an object -/

/-- The answer of an object. -/
def answerOf (members : Fields Json) : Option String :=
  fieldText ((Fields.get? members "final_answer").getD .null)

/-- The tool that the action of an object names. -/
def toolOf (members : Fields Json) (toolNames : List String) : Option String :=
  let action := (Fields.get? members "action").getD .null
  if action.truthy then toolName? action.display toolNames else none

/-- An object decides like its source as it stands if that is its answer, or if it has neither an
answer nor a usable action. -/
theorem plainAnswer_alike_iff (members : Fields Json) (source : String) (toolNames : List String) :
    (plainAnswer source).Alike (turnOfObject members source toolNames) ↔
      answerOf members = some source ∨
        answerOf members = none ∧ toolOf members toolNames = none := by
  unfold turnOfObject answerOf toolOf
  dsimp only
  split
  · rename_i answer hanswer
    rw [hanswer]
    constructor
    · intro halike
      exact .inl halike.finalAnswer.symm
    · rintro (heq | ⟨heq, -⟩)
      · exact ⟨rfl, rfl, heq.symm⟩
      · cases heq
  · rename_i hanswer
    rw [hanswer]
    split
    · rename_i name hname
      rw [hname]
      constructor
      · intro halike
        cases halike.action
      · rintro (heq | ⟨-, heq⟩) <;> cases heq
    · rename_i hname
      rw [hname]
      exact iff_of_true ⟨rfl, rfl, rfl⟩ (.inr ⟨rfl, rfl⟩)

/-- A decision that is written in a text has no identifier. -/
theorem toolCallId_turnOfBrokenText (text source : String) (toolNames : List String) :
    (turnOfBrokenText text source toolNames).toolCallId = none := by
  unfold turnOfBrokenText turnOfObject
  dsimp only
  split
  · split
    · rfl
    · split <;> rfl
  · rfl

/-! ## Salvaged decisions -/

/-- The answer and the tool of the object that the fields of a text are made into. -/
theorem answerOf_salvaged (s : List Char) :
    answerOf ((Salvage.fields s).mapValues .str) = Salvage.answerField? s := by
  rw [answerOf, Fields.get?_mapValues, (Salvage.get?_fields s).2]
  cases Salvage.answerField? s <;> rfl

theorem toolOf_salvaged (s : List Char) (toolNames : List String) :
    toolOf ((Salvage.fields s).mapValues .str) toolNames =
      (Salvage.textField? "action" s).bind fun action =>
        if action = "" then none else toolName? action toolNames := by
  rw [toolOf, Fields.get?_mapValues, (Salvage.get?_fields s).1]
  cases Salvage.textField? "action" s with
  | none => rfl
  | some action =>
      by_cases hempty : action = "" <;> simp [Json.truthy, Json.display, hempty]

theorem not_salvageable_iff {toolNames : List String} {text : String} :
    ¬ Salvageable toolNames text ↔
      Salvage.answerField? text.toList = none ∧
        toolOf ((Salvage.fields text.toList).mapValues .str) toolNames = none := by
  rw [Salvageable, not_or, not_exists, ← Option.eq_none_iff_forall_ne_some, toolOf_salvaged,
    Option.bind_eq_none_iff]
  refine and_congr_right fun _ => ⟨fun h action haction => ?_, fun h => ?_⟩
  · split
    · rfl
    · rename_i hne
      rw [Option.eq_none_iff_forall_ne_some]
      exact fun name hname => h ⟨action, name, haction, hne, hname⟩
  · rintro ⟨action, name, haction, hne, hname⟩
    have hnone := h action haction
    rw [if_neg hne, hname] at hnone
    cases hnone

/-- **A text as it stands and what is salvaged from it.**  They decide the same unless a decision
can be salvaged; for an answer that is salvaged is never the whole text. -/
theorem turnOfBrokenText_alike_iff (text : String) (toolNames : List String) :
    (plainAnswer text).Alike (turnOfBrokenText text text toolNames) ↔
      ¬ Salvageable toolNames text := by
  rw [not_salvageable_iff]
  unfold turnOfBrokenText
  dsimp only
  split
  · have hshort : Salvage.answerField? text.toList ≠ some text := by
      intro hwhole
      have hlength := Salvage.length_answerField?_lt hwhole
      rw [String.length_toList] at hlength
      exact Nat.lt_irrefl _ hlength
    rw [plainAnswer_alike_iff, answerOf_salvaged, or_iff_right hshort]
  · rename_i hnothing
    obtain ⟨haction, hanswer⟩ := Salvage.get?_fields text.toList
    rw [Fields.has, Fields.has, haction, hanswer, Bool.or_eq_true, not_or,
      Option.not_isSome_iff_eq_none, Option.not_isSome_iff_eq_none] at hnothing
    refine iff_of_true ⟨rfl, rfl, rfl⟩ ⟨hnothing.2, ?_⟩
    rw [toolOf_salvaged, hnothing.1, Option.bind_none]

/-! ## The two readings -/

/-- The written part of a reply is a text without a block. -/
def Blockless (reply : Reply) (paths : Paths) (text : String) : Prop :=
  writtenPart reply.members paths = .str text ∧ blockText? text = none

/-- The written part of a reply is a text without a block, from which a decision can be salvaged all
the same. -/
def BreaksOff (reply : Reply) (paths : Paths) (toolNames : List String) : Prop :=
  ∃ text, reply.Blockless paths text ∧ Salvageable toolNames text

/-- A text without a block is an answer as it stands. -/
theorem turnWithoutCall_of_blockless {reply : Reply} {paths : Paths} {text : String}
    (h : reply.Blockless paths text) (toolNames : List String) :
    turnWithoutCall reply.members (writtenPart reply.members paths) paths toolNames =
        plainAnswer text ∧
      turnOfProse reply.members paths toolNames = turnOfBrokenText text text toolNames := by
  obtain ⟨hwritten, hblock⟩ := h
  constructor
  · rw [hwritten, turnWithoutCall, hblock]
    rfl
  · have htext : turnOfProse reply.members paths toolNames = turnOfText text toolNames := by
      rw [turnOfProse, hwritten]
      rfl
    rw [htext, turnOfText, hblock]

/-- Everything else is read like any other reply. -/
theorem turnWithoutCall_of_not_blockless {reply : Reply} {paths : Paths}
    (h : ∀ text, ¬ reply.Blockless paths text) (toolNames : List String) :
    turnWithoutCall reply.members (writtenPart reply.members paths) paths toolNames =
      turnOfProse reply.members paths toolNames := by
  unfold turnWithoutCall
  split
  · rename_i text hwritten
    exact if_neg fun hnone => h text ⟨hwritten, Option.isNone_iff_eq_none.mp hnone⟩
  · rfl

/-- **When the two readings of a reply decide the same.**  Let native calls be looked for in a reply
and none be taken.  The reply is read as a turn, which decides like the reading of a reply without
native calls exactly if no decision can be salvaged from a text without a block.  The identifier of
a call is the same in any case, and where the written part is no text without a block, so is
everything else. -/
theorem turnOf_alike_iff {reply : Reply} {paths : Paths}
    (hpath : ∃ path, paths.toolCalls = some path ∧ path ≠ "") (hcalls : ¬ reply.Calls paths)
    (toolNames : List String) :
    ∃ turn, turnOf reply paths toolNames = .ok turn ∧
      (turn.Alike (turnOfProse reply.members paths toolNames) ↔
        ¬ reply.BreaksOff paths toolNames) ∧
      turn.toolCallId = (turnOfProse reply.members paths toolNames).toolCallId ∧
      ((∀ text, ¬ reply.Blockless paths text) →
        turn = turnOfProse reply.members paths toolNames) := by
  refine ⟨_, turnOf_eq_turnWithoutCall hpath hcalls toolNames, ?_⟩
  -- The two dialects part only where the text has no block to read.
  by_cases hblockless : ∃ text, reply.Blockless paths text
  · obtain ⟨text, htext⟩ := hblockless
    obtain ⟨hplain, hbroken⟩ := turnWithoutCall_of_blockless htext toolNames
    have hbreaks : reply.BreaksOff paths toolNames ↔ Salvageable toolNames text := by
      refine ⟨?_, fun h => ⟨text, htext, h⟩⟩
      rintro ⟨other, hother, hsalvaged⟩
      have hsame := hother.1.symm.trans htext.1
      rwa [Json.str.inj hsame] at hsalvaged
    rw [hplain, hbroken, turnOfBrokenText_alike_iff, hbreaks]
    exact ⟨Iff.rfl, (toolCallId_turnOfBrokenText text text toolNames).symm,
      fun hnone => absurd htext (hnone text)⟩
  · rw [not_exists] at hblockless
    rw [turnWithoutCall_of_not_blockless hblockless]
    refine ⟨iff_of_true (.refl _) ?_, rfl, fun _ => rfl⟩
    rintro ⟨text, htext, -⟩
    exact hblockless text htext

/-- The paths to native calls. -/
def callsOnly : Paths where
  toolCalls := some "tool_calls"

/-- Prose is an answer for both readings, and it is degraded for one of them. -/
theorem turnOf_alike_prose :
    ∃ turn, turnOf (.text "\"Search\" is the action.") callsOnly ["Search"] = .ok turn ∧
      turn.Alike (turnOfProse [("response", .str "\"Search\" is the action.")] callsOnly
        ["Search"]) := by
  have hcalls : ¬ Calls (.text "\"Search\" is the action.") callsOnly := by
    rintro ⟨-, hholds, -⟩
    cases hholds
  obtain ⟨turn, hturn, halike, -⟩ := turnOf_alike_iff ⟨_, rfl, by decide⟩ hcalls ["Search"]
  refine ⟨turn, hturn, halike.mpr ?_⟩
  rintro ⟨text, ⟨hwritten, -⟩, hsalvaged⟩
  cases hwritten
  exact absurd hsalvaged (not_salvageable_iff.mpr ⟨by decide, by decide⟩)

/-- A request for a tool that lacks its closing brace is salvaged by one reading and shown as an
answer by the other: the two do not always decide the same. -/
theorem not_forall_turnOf_alike :
    ¬ ∀ (reply : Reply) (paths : Paths) (toolNames : List String) (turn : Turn),
      (∃ path, paths.toolCalls = some path ∧ path ≠ "") → ¬ reply.Calls paths →
        turnOf reply paths toolNames = .ok turn →
          turn.Alike (turnOfProse reply.members paths toolNames) := by
  intro hall
  let text := "\x7b\"action\": \"Search\", \"action_input\": \"x\""
  have hcalls : ¬ Calls (.text text) callsOnly := by
    rintro ⟨-, hholds, -⟩
    cases hholds
  have hblockless : Blockless (.text text) callsOnly text := ⟨rfl, by decide⟩
  have hread := turnOf_eq_turnWithoutCall ⟨_, rfl, by decide⟩ hcalls ["Search"]
  rw [(turnWithoutCall_of_blockless hblockless ["Search"]).1] at hread
  have hsalvaged : (turnOfProse [("response", .str text)] callsOnly ["Search"]).action =
      some "Search" := by decide
  have haction := (hall _ _ _ _ ⟨_, rfl, by decide⟩ hcalls hread).action
  cases haction.trans hsalvaged

end ReAct.Reply

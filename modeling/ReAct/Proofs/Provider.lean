import ReAct.Proofs.Json.Path
import ReAct.Proofs.Reply.Decision
import ReAct.Provider

/-!
# Messages of providers

What a provider makes of a tool, of a reply and of the result of a tool are JSON values.  A reply
that is no answer always has a turn of the model to repeat (`modelTurn_of_open`), for where there is
no turn there is neither a text nor a tool call.  The message that hands a result back carries its
text and the identifier of its call, whatever they are (`carried?_resultValue`).

## Main Definitions

* `Provider.turnValue`, `Provider.resultValue`: the messages as values
* `Provider.declaredName`: the name in the declaration of a tool
* `Provider.carried?`: what a message that hands a result back carries
-/

namespace ReAct.Provider

open Json (Step walk steps)
open Reply (Turn turnOf writtenPart)

/-! ## The turn of the model -/

/-- The model's turn in a reply, as a value. -/
def turnValue (provider : Provider) (reply : Json) : Json :=
  match provider with
  | .chatCompletions => reply.readPath "$.choices[0].message"
  | .toolBlocks => reply.readPath "$.output.message"
  | .envelope =>
    .obj
      [("role", .str "assistant"),
        ("content", .arr
          [.obj [("text", reply.readPath "$.output.message.content[0].text")]])]

/-- Where there is nothing written and no tool call, a reply is an answer. -/
theorem isFinal_of_nothing {reply : Reply} {provider : Provider} {toolNames : List String}
    {turn : Turn} (hwritten : writtenPart reply.members provider.pathChoices.complete = .null)
    (hcalls : reply.calls provider.pathChoices.complete = .null)
    (hread : turnOf reply provider.pathChoices.complete toolNames = .ok turn) :
    turn.isFinal = true := by
  have hnative : turnOf reply provider.pathChoices.complete toolNames =
      Reply.turnOfNative reply.members provider.pathChoices.complete toolNames := by
    cases provider <;> rfl
  -- With neither text nor call there is only the empty answer.
  have hprose : Reply.turnOfNative reply.members provider.pathChoices.complete toolNames =
      .ok (Reply.degradedAnswer "") := by
    unfold Reply.calls at hcalls
    rw [hwritten] at hcalls
    unfold Reply.turnOfNative
    simp only [hwritten, hcalls]
    rw [if_neg (by simp [Reply.holdsCall, Json.truthy])]
    simp only [Reply.turnWithoutCall, Reply.turnOfProse, hwritten]
    rfl
  rw [hnative, hprose] at hread
  cases hread
  rfl

/-- A path is followed once its steps are known. -/
theorem readPath_of_steps {path : String} {way : List Step} (hpath : path ≠ "")
    (hsteps : steps path.toList = way) (v : Json) : v.readPath path = walk way v := by
  rw [Json.readPath, if_neg hpath, hsteps]

/-- The path to the text in the content of a message. -/
theorem steps_content_text : steps "$.output.message.content[0].text".toList =
    [.key "output", .key "message", .key "content", .index 0, .key "text"] := by
  decide +kernel

/-- The path to the calls of a chat completion. -/
theorem steps_tool_calls : steps "$.choices[0].message.tool_calls".toList =
    [.key "choices", .index 0, .key "message", .key "tool_calls"] := by
  decide +kernel

/-- The path to the calls among tool blocks. -/
theorem steps_toolUse : steps "$.output.message.content[*].toolUse".toList =
    [.key "output", .key "message", .key "content", .every, .key "toolUse"] := by
  decide +kernel

/-- A bare text has nothing but its response. -/
theorem walk_toJson (reply : Reply) {name : String} (hname : name ≠ "response")
    (rest : List Step) :
    walk (.key name :: rest) reply.toJson = walk (.key name :: rest) (.obj reply.members) := by
  cases reply with
  | object members => rfl
  | text s =>
      have hnone : (Json.obj [("response", .str s)]).member name = .null := by
        simp [Json.member, Fields.get?, Ne.symm hname]
      rw [Reply.members, walk, walk, hnone]
      rfl

/-- The way to the message of a reply. -/
def messageWay : Provider → List Step
  | .chatCompletions => [.key "choices", .index 0, .key "message"]
  | .toolBlocks => [.key "output", .key "message"]
  | .envelope => [.key "output", .key "message"]

theorem messageWay_single (provider : Provider) : ∀ step ∈ provider.messageWay, step.Single := by
  cases provider <;> simp [messageWay, Step.Single]

/-- On the way to a message, it does not matter whether a reply is an object or a text. -/
theorem walk_messageWay (provider : Provider) (reply : Reply) (rest : List Step) :
    walk (provider.messageWay ++ rest) reply.toJson =
      walk (provider.messageWay ++ rest) (.obj reply.members) := by
  cases provider <;> exact walk_toJson reply (by decide) _

/-- The way to the text of a message in its content. -/
def textWay : Provider → List Step
  | .chatCompletions => []
  | .toolBlocks => [.index 0, .key "text"]
  | .envelope => [.index 0, .key "text"]

/-- What is written in a reply is in the content of its message. -/
theorem writtenPart_eq_walk (provider : Provider) (members : Fields Json) :
    writtenPart members provider.pathChoices.complete =
      walk (provider.messageWay ++ .key "content" :: provider.textWay) (.obj members) := by
  cases provider with
  | chatCompletions =>
      have hsteps : steps "$.choices[0].message.content".toList =
          messageWay .chatCompletions ++ .key "content" :: textWay .chatCompletions := by
        decide +kernel
      exact readPath_of_steps (by decide) hsteps _
  | toolBlocks => exact readPath_of_steps (by decide) steps_content_text _
  | envelope => exact readPath_of_steps (by decide) steps_content_text _

/-- Without a message nothing is written. -/
theorem writtenPart_of_no_message {provider : Provider} {reply : Reply}
    (hnone : ¬ ∃ members, walk provider.messageWay (.obj reply.members) = .obj members ∧
      members ≠ []) :
    writtenPart reply.members provider.pathChoices.complete = .null := by
  rw [writtenPart_eq_walk]
  exact Json.walk_append_key provider.messageWay_single hnone _ _

/-- Without a message there is no tool call. -/
theorem calls_of_no_message {provider : Provider} {reply : Reply}
    (hnone : ¬ ∃ members, walk provider.messageWay (.obj reply.members) = .obj members ∧
      members ≠ []) :
    reply.calls provider.pathChoices.complete = .null := by
  have hnowhere := Json.walk_append_key provider.messageWay_single hnone
  cases provider with
  | chatCompletions =>
      exact (readPath_of_steps (by decide) steps_tool_calls _).trans (hnowhere _ _)
  | toolBlocks => exact (readPath_of_steps (by decide) steps_toolUse _).trans (hnowhere _ _)
  | envelope =>
      rw [Reply.calls, writtenPart_of_no_message hnone]
      exact Json.walk_null _

/-- **A turn to repeat.**  A reply that is no answer has a turn of the model to repeat in the next
request, which is an object. -/
theorem modelTurn_of_open {provider : Provider} {reply : Reply} {toolNames : List String}
    {turn : Turn} (hread : turnOf reply provider.pathChoices.complete toolNames = .ok turn)
    (hopen : turn.finalAnswer = none) :
    (∃ members, provider.turnValue reply.toJson = .obj members) ∧
      provider.modelTurn reply.toJson =
        some ((provider.turnValue reply.toJson).print Json.spaced) := by
  have hfinal : ¬ turn.isFinal = true := by simp [Turn.isFinal, hopen]
  -- A reply without a message would have been final.
  obtain ⟨members, hmessage, hne⟩ : ∃ members,
      walk provider.messageWay (.obj reply.members) = .obj members ∧ members ≠ [] := by
    by_contra hnone
    exact hfinal (isFinal_of_nothing (writtenPart_of_no_message hnone)
      (calls_of_no_message hnone) hread)
  have hwhole := provider.walk_messageWay reply []
  rw [List.append_nil, hmessage] at hwhole
  have htruthy : (Json.obj members).truthy = true := by
    cases members with
    | nil => exact absurd rfl hne
    | cons entry rest => rfl
  cases provider with
  | chatCompletions =>
      have hsteps : steps "$.choices[0].message".toList = messageWay .chatCompletions := by
        decide +kernel
      have hvalue := (readPath_of_steps (by decide) hsteps reply.toJson).trans hwhole
      refine ⟨⟨members, hvalue⟩, ?_⟩
      simp only [modelTurn, turnValue, hvalue, htruthy, if_true]
  | toolBlocks =>
      have hsteps : steps "$.output.message".toList = messageWay .toolBlocks := by decide +kernel
      have hvalue := (readPath_of_steps (by decide) hsteps reply.toJson).trans hwhole
      refine ⟨⟨members, hvalue⟩, ?_⟩
      simp only [modelTurn, turnValue, hvalue, htruthy, if_true]
  | envelope =>
      refine ⟨⟨_, rfl⟩, ?_⟩
      have hsame : reply.toJson.readPath "$.output.message.content[0].text" =
          writtenPart reply.members (pathChoices .envelope).complete := by
        rw [writtenPart_eq_walk, ← walk_messageWay]
        exact readPath_of_steps (by decide) steps_content_text _
      have hwritten : writtenPart reply.members (pathChoices .envelope).complete ≠ .null := by
        intro hnull
        refine hfinal (isFinal_of_nothing hnull ?_ hread)
        rw [Reply.calls, hnull]
        exact Json.walk_null _
      rw [← hsame] at hwritten
      rw [modelTurn, turnValue]
      split
      · rename_i hnull
        exact absurd hnull hwritten
      · rfl

/-- A turn that is handed back has distinct names if the reply has. -/
theorem distinct_turnValue (provider : Provider) {reply : Json} (h : reply.Distinct) :
    (provider.turnValue reply).Distinct := by
  have hread (path : String) : (reply.readPath path).Distinct := by
    unfold Json.readPath
    split
    · exact .null
    · exact h.walk _
  cases provider with
  | chatCompletions => exact hread _
  | toolBlocks => exact hread _
  | envelope => simp [turnValue, hread, Fields.names]

/-! ## The declarations of tools -/

/-- The name of the tool that a provider declares. -/
def declaredName (provider : Provider) (declaration : Json) : Json :=
  match provider with
  | .chatCompletions => (declaration.member "function").member "name"
  | .toolBlocks => (declaration.member "toolSpec").member "name"
  | .envelope => declaration.member "tool_name"

/-- The message that hands a result back, as a value. -/
def resultValue (provider : Provider) (result : ToolResult) : Json :=
  match provider with
  | .chatCompletions =>
    .obj
      [("role", .str "tool"), ("content", .str result.text),
        ("tool_call_id", .str result.toolCallId)]
  | .toolBlocks =>
    .obj
      [("role", .str "user"),
        ("content", .arr
          [.obj
            [("toolResult", .obj
              [("toolUseId", .str result.toolCallId),
                ("content", .arr [.obj [("text", .str result.text)]])])]])]
  | .envelope =>
    .obj
      [("role", .str "user"),
        ("content", .arr
          [.obj
            [("text", .str
              ((Json.obj
                [("tool_call_id", .str result.toolCallId),
                  ("tool_result", .str result.text)]).print Json.spaced))]])]

/-- One result makes one message. -/
theorem resultMessages_singleton (provider : Provider) (result : ToolResult) :
    provider.resultMessages [result] = [(provider.resultValue result).print Json.spaced] := by
  cases provider <;> rfl

theorem distinct_resultValue (provider : Provider) (result : ToolResult) :
    (provider.resultValue result).Distinct := by
  cases provider <;> simp [resultValue, Fields.names]

/-- The result that two values carry, if they are an identifier and a text. -/
def resultOf? : Json → Json → Option ToolResult
  | .str id, .str text => some ⟨id, text⟩
  | _, _ => none

/-- The result that a message carries.  In an envelope it is in the object that the text of the
message denotes. -/
def carried? (provider : Provider) (message : Json) : Option ToolResult :=
  match provider with
  | .chatCompletions => resultOf? (message.member "tool_call_id") (message.member "content")
  | .toolBlocks =>
    let block := walk [.key "content", .index 0, .key "toolResult"] message
    resultOf? (block.member "toolUseId") (walk [.key "content", .index 0, .key "text"] block)
  | .envelope =>
    match walk [.key "content", .index 0, .key "text"] message with
    | .str text => (Json.read? text).bind fun inner =>
      resultOf? (inner.member "tool_call_id") (inner.member "tool_result")
    | _ => none

/-- **A message carries its result**, whatever its text and its identifier are. -/
theorem carried?_resultValue (provider : Provider) (result : ToolResult) :
    provider.carried? (provider.resultValue result) = some result := by
  cases provider with
  | chatCompletions => rfl
  | toolBlocks => rfl
  | envelope =>
      have hinner : (Json.obj [("tool_call_id", .str result.toolCallId),
          ("tool_result", .str result.text)]).Distinct := by
        simp [Fields.names]
      have htext : walk [.key "content", .index 0, .key "text"] (resultValue .envelope result) =
          .str ((Json.obj [("tool_call_id", .str result.toolCallId),
            ("tool_result", .str result.text)]).print Json.spaced) := rfl
      simp only [carried?, htext, Json.read?_print hinner, Option.bind_some]
      rfl

end ReAct.Provider

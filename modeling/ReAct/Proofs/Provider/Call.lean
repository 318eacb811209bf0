import ReAct.Proofs.Provider
import ReAct.Proofs.Reply.Block

/-!
# Tool calls of providers

Each provider has its own way to write down that the model calls a tool.  Chat completions list
their calls on the message, with the arguments as a JSON text.  In tool blocks a call is one block
of the content among others.  A model without native tools writes an envelope, somewhere behind its
prose and before whatever else it has to say.

Whichever way a call is written, the paths of the provider lead to it: the turn of the reply is the
first call that is listed, and the arguments are read back from its input (`turnOf_of_calling`).

## Main Definitions

* `Provider.Records`: a value that records a call with its name, its identifier and its arguments
* `Provider.Calling`: a reply that stops for a call, and lists the given one first
-/

namespace ReAct.Provider

open Json (Step walk steps)
open Reply (FencedBrace blockText? fieldText isEmbedded turnOf turnOfCall writtenPart)

/-! ## Replies that call a tool -/

/-- A value in which a provider records a call. -/
inductive Records (name id : String) (arguments : Fields Json) : Provider → Json → Prop
  | chatCompletions {call : Json} {text : String}
      (hid : call.member "id" = .str id)
      (hname : (call.member "function").member "name" = .str name)
      (hinput : (call.member "function").member "arguments" = .str text)
      (hread : Json.read? text = some (.obj arguments)) :
      Records name id arguments .chatCompletions call
  | toolBlocks {call : Json}
      (hid : call.member "toolUseId" = .str id)
      (hname : call.member "name" = .str name)
      (hinput : call.member "input" = .obj arguments) :
      Records name id arguments .toolBlocks call
  | envelope {call : Json}
      (hid : call.member "id" = .str id)
      (hname : call.member "tool_name" = .str name)
      (hinput : call.member "input" = .obj arguments) :
      Records name id arguments .envelope call

/-- A reply that stops for a tool, and of whose calls the given one is the first.  Nothing is said
about the calls behind it.  In tool blocks the blocks before it hold no call; an envelope has only
prose without an opening brace before it. -/
inductive Calling (call : Json) : Provider → Json → Prop
  | chatCompletions {reply choice : Json} {choices calls : List Json}
      (hchoices : reply.member "choices" = .arr (choice :: choices))
      (hreason : choice.member "finish_reason" = .str "tool_calls")
      (hcalls : (choice.member "message").member "tool_calls" = .arr (call :: calls)) :
      Calling call .chatCompletions reply
  | toolBlocks {reply block : Json} {before after : List Json}
      (hreason : reply.member "stopReason" = .str "tool_use")
      (hcontent : ((reply.member "output").member "message").member "content" =
        .arr (before ++ block :: after))
      (hbefore : ∀ other ∈ before, other.member "toolUse" = .null)
      (hcall : block.member "toolUse" = call) :
      Calling call .toolBlocks reply
  | envelope {reply block written : Json} {blocks calls : List Json} {prose inner after : String}
      (hcontent : ((reply.member "output").member "message").member "content" =
        .arr (block :: blocks))
      (htext : block.member "text" = .str (prose ++ inner ++ after))
      (hprose : '\x7b' ∉ prose.toList)
      (hfenced : ¬ FencedBrace (prose ++ inner ++ after).toList)
      (hopen : inner.toList.head? = some '\x7b')
      (hclose : inner.toList.getLast? = some '\x7d')
      (hread : Json.readLenient? inner = some written)
      (hreason : written.member "stop_reason" = .str "tool_use")
      (hcalls : written.member "tool_calls" = .arr (call :: calls)) :
      Calling call .envelope reply

/-! ## Where the paths lead -/

theorem ne_null_of_records {provider : Provider} {call : Json} {name id : String}
    {arguments : Fields Json} (h : provider.Records name id arguments call) : call ≠ .null := by
  rintro rfl
  cases h with
  | chatCompletions hid => cases hid
  | toolBlocks hid => cases hid
  | envelope hid => cases hid

/-- Of the blocks of a content, those count that hold something. -/
theorem walk_every {before after : List Json} {block call : Json} {name : String}
    (hbefore : ∀ other ∈ before, other.member name = .null) (hcall : block.member name = call)
    (hne : call ≠ .null) :
    ∃ rest, walk [.every, .key name] (.arr (before ++ block :: after)) = .arr (call :: rest) := by
  have hnone : ((before.map (walk [.key name])).filter fun v => !v.isNull) = [] := by
    rw [List.filter_eq_nil_iff]
    intro v hv
    obtain ⟨other, hother, rfl⟩ := List.mem_map.mp hv
    rw [walk, walk, hbefore other hother]
    exact Bool.noConfusion
  have hfound : (!call.isNull) = true := by
    cases call with
    | null => exact absurd rfl hne
    | _ => rfl
  have hblock : walk [.key name] block = call := hcall
  refine ⟨(after.map (walk [.key name])).filter fun v => !v.isNull, ?_⟩
  rw [walk, List.map_append, List.filter_append, hnone, List.nil_append, List.map_cons, hblock,
    List.filter_cons, if_pos hfound]

/-- The envelope of a text is found, whatever prose stands around it. -/
theorem embeddedObject_of_inner {prose inner after : String} {written : Json}
    (hprose : '\x7b' ∉ prose.toList) (hfenced : ¬ FencedBrace (prose ++ inner ++ after).toList)
    (hopen : inner.toList.head? = some '\x7b') (hclose : inner.toList.getLast? = some '\x7d')
    (hread : Json.readLenient? inner = some written) :
    Reply.embeddedObject (.str (prose ++ inner ++ after)) = written := by
  rw [String.toList_append, String.toList_append] at hfenced
  have hblock : blockText? (prose ++ inner ++ after) = some inner := by
    rw [blockText?, String.toList_append, String.toList_append,
      Reply.block?_embedded hprose hread hopen hclose hfenced, Option.map_some,
      String.ofList_toList]
  simp only [Reply.embeddedObject, hblock, hread, Option.getD_some]

/-- The paths of a provider lead to the calls of a reply, and to the reason that announces them. -/
theorem calls_of_calling {provider : Provider} {members : Fields Json} {call : Json}
    (h : provider.Calling call (.obj members)) (hne : call ≠ .null) :
    (∃ rest, (Reply.object members).calls provider.pathChoices.complete = .arr (call :: rest)) ∧
      (Reply.object members).Announces provider.pathChoices.complete := by
  cases h with
  | @chatCompletions _ choice choices calls hchoices hreason hcalls =>
      have hreasonWay : steps "$.choices[0].finish_reason".toList =
          [.key "choices", .index 0, .key "finish_reason"] := by decide +kernel
      have hlisted := readPath_of_steps (by decide) steps_tool_calls (.obj members)
      have hstopped := readPath_of_steps (by decide) hreasonWay (.obj members)
      simp only [walk, hchoices, List.getElem?_cons_zero, Option.getD_some, hcalls] at hlisted
      simp only [walk, hchoices, List.getElem?_cons_zero, Option.getD_some, hreason] at hstopped
      exact ⟨⟨calls, hlisted⟩, congrArg (Json.isText "tool_calls") hstopped⟩
  | @toolBlocks _ block before after hreason hcontent hbefore hcall =>
      have hreasonWay : steps "$.stopReason".toList = [.key "stopReason"] := by decide +kernel
      obtain ⟨rest, hrest⟩ : ∃ rest, walk [.every, .key "toolUse"]
          (.arr (before ++ block :: after)) = .arr (call :: rest) := walk_every hbefore hcall hne
      have hlisted := readPath_of_steps (by decide) steps_toolUse (.obj members)
      have hstopped := readPath_of_steps (by decide) hreasonWay (.obj members)
      rw [walk, walk, walk, hcontent, hrest] at hlisted
      rw [walk, walk, hreason] at hstopped
      exact ⟨⟨rest, hlisted⟩, congrArg (Json.isText "tool_use") hstopped⟩
  -- The envelope's calls stand in an object that is itself written as a text.
  | @envelope _ block written blocks calls prose inner after hcontent htext hprose hfenced hopen
      hclose hread hreason hcalls =>
      have hwritten : writtenPart members (pathChoices .envelope).complete =
          .str (prose ++ inner ++ after) := by
        rw [writtenPart_eq_walk]
        simp only [messageWay, textWay, List.cons_append, List.nil_append, walk, hcontent,
          List.getElem?_cons_zero, Option.getD_some, htext]
      have hinner := embeddedObject_of_inner hprose hfenced hopen hclose hread
      have hcallsWay : steps "tool_calls".toList = [.key "tool_calls"] := by decide +kernel
      have hreasonWay : steps "stop_reason".toList = [.key "stop_reason"] := by decide +kernel
      have hlisted := readPath_of_steps (by decide) hcallsWay written
      have hstopped := readPath_of_steps (by decide) hreasonWay written
      rw [walk, walk, hcalls] at hlisted
      rw [walk, walk, hreason] at hstopped
      have hembedded : (Reply.object members).calls (pathChoices .envelope).complete =
          written.readPath "tool_calls" := by
        rw [Reply.calls, Reply.members, hwritten, ← hinner]
        rfl
      have hannounced : (Reply.object members).Announces (pathChoices .envelope).complete ↔
          (written.readPath "stop_reason").isText "tool_use" = true := by
        rw [Reply.Announces, Reply.members, hwritten, ← hinner]
        exact Iff.rfl
      rw [hembedded, hannounced, hlisted, hstopped]
      exact ⟨⟨calls, rfl⟩, rfl⟩

/-! ## The turn of the call -/

/-- A call is read as it was recorded.  Arguments that come as a text are handed on as that text,
all others are written down first. -/
theorem turnOfCall_of_records {provider : Provider} {call : Json} {name id : String}
    {arguments : Fields Json} (h : provider.Records name id arguments call)
    (hdistinct : (Json.obj arguments).Distinct) (written : Json) (embedded : Bool) :
    (turnOfCall call written embedded provider.pathChoices.complete).action = some name ∧
      (turnOfCall call written embedded provider.pathChoices.complete).toolCallId = some id ∧
        ∃ input,
          (turnOfCall call written embedded provider.pathChoices.complete).actionInput =
            some input ∧ Json.read? input = some (.obj arguments) := by
  have hkey (key : String) (hway : key ≠ "" ∧ steps key.toList = [.key key]) (v : Json) :
      v.readPath key = v.member key := readPath_of_steps hway.1 hway.2 v
  -- The ways to name, id and arguments are the provider's own; the arguments are a text with one,
  -- and an object with the others.
  cases h with
  | @chatCompletions _ text hid hname hinput hread =>
      have hnameWay : steps "function.name".toList = [.key "function", .key "name"] := by
        decide +kernel
      have hinputWay : steps "function.arguments".toList =
          [.key "function", .key "arguments"] := by decide +kernel
      have haction : call.readPath "function.name" = .str name :=
        (readPath_of_steps (by decide) hnameWay call).trans hname
      have htext : call.readPath "function.arguments" = .str text :=
        (readPath_of_steps (by decide) hinputWay call).trans hinput
      have hcallId : call.readPath "id" = .str id := (hkey "id" (by decide +kernel) call).trans hid
      exact ⟨congrArg Reply.nameText haction, congrArg Reply.nameText hcallId, text,
        congrArg fieldText htext, hread⟩
  | toolBlocks hid hname hinput =>
      have haction := (hkey "name" (by decide +kernel) call).trans hname
      have hcallId := (hkey "toolUseId" (by decide +kernel) call).trans hid
      have harguments := (hkey "input" (by decide +kernel) call).trans hinput
      exact ⟨congrArg Reply.nameText haction, congrArg Reply.nameText hcallId, _,
        congrArg fieldText harguments, Json.read?_print_of_plain Json.compact_plain hdistinct⟩
  | envelope hid hname hinput =>
      have haction := (hkey "tool_name" (by decide +kernel) call).trans hname
      have hcallId := (hkey "id" (by decide +kernel) call).trans hid
      have harguments := (hkey "input" (by decide +kernel) call).trans hinput
      exact ⟨congrArg Reply.nameText haction, congrArg Reply.nameText hcallId, _,
        congrArg fieldText harguments, Json.read?_print_of_plain Json.compact_plain hdistinct⟩

theorem toolCalls_pathChoices (provider : Provider) :
    ∃ path, provider.pathChoices.complete.toolCalls = some path ∧ path ≠ "" := by
  cases provider <;> exact ⟨_, rfl, by decide⟩

/-- **A call arrives as it was made.**  A reply in which a provider calls a tool is read as the call
of that tool with that identifier, whatever tools there are, and its input denotes the arguments of
the call. -/
theorem turnOf_of_calling {provider : Provider} {members : Fields Json} {call : Json}
    {name id : String} {arguments : Fields Json} (hreply : provider.Calling call (.obj members))
    (hcall : provider.Records name id arguments call) (hdistinct : (Json.obj arguments).Distinct)
    (toolNames : List String) :
    ∃ turn input, turnOf (.object members) provider.pathChoices.complete toolNames = .ok turn ∧
      turn.isFinal = false ∧ turn.action = some name ∧ turn.toolCallId = some id ∧
        turn.actionInput = some input ∧ Json.read? input = some (.obj arguments) := by
  -- The first call of the list is the one that is taken.
  obtain ⟨⟨rest, hlisted⟩, hannounced⟩ := calls_of_calling hreply (ne_null_of_records hcall)
  have htaken : (Reply.object members).Calls provider.pathChoices.complete := by
    refine ⟨provider.toolCalls_pathChoices, ?_, hannounced⟩
    rw [hlisted]
    rfl
  have hread := Reply.turnOf_of_calls toolNames htaken
  rw [hlisted] at hread
  obtain ⟨haction, hcallId, input, hinput, harguments⟩ :=
    turnOfCall_of_records hcall hdistinct
      (writtenPart (Reply.object members).members provider.pathChoices.complete)
      (isEmbedded provider.pathChoices.complete.toolCalls ||
        isEmbedded provider.pathChoices.complete.finishReason)
  exact ⟨_, input, hread, rfl, haction, hcallId, hinput, harguments⟩

/-- A call as an envelope records it. -/
def searchCall : Json :=
  .obj [("id", .str "c1"), ("tool_name", .str "Search"), ("input", .obj [("query", .str "cats")])]

/-- An envelope with that call. -/
def searchEnvelope : Json :=
  .obj [("stop_reason", .str "tool_use"), ("tool_calls", .arr [searchCall])]

/-- A reply with that envelope between two sentences. -/
def searchReply : Fields Json :=
  [("output", .obj [("message", .obj [("content", .arr
    [.obj [("text", .str ("First a search. " ++ searchEnvelope.print Json.spaced ++
      " Then we see."))]])])])]

/-- A call that a model wrote between two sentences, of a tool that nobody has. -/
theorem turnOf_searchReply :
    Calling searchCall .envelope (.obj searchReply) ∧
      Records "Search" "c1" [("query", .str "cats")] .envelope searchCall ∧
        ∃ turn input, turnOf (.object searchReply) (pathChoices .envelope).complete [] = .ok turn ∧
          turn.isFinal = false ∧ turn.action = some "Search" ∧ turn.toolCallId = some "c1" ∧
            turn.actionInput = some input ∧
              Json.read? input = some (.obj [("query", .str "cats")]) := by
  have hprint : (searchEnvelope.print Json.spaced).toList = searchEnvelope.chars Json.spaced :=
    String.toList_ofList
  have hread : Json.readLenient? (searchEnvelope.print Json.spaced) = some searchEnvelope := by
    rw [Json.readLenient?, hprint]
    refine Json.ofChars?_chars .allowed Json.spaced_plain ?_
    simp [searchEnvelope, searchCall, Fields.names]
  have hreply : Calling searchCall .envelope (.obj searchReply) := by
    refine .envelope rfl rfl (by decide +kernel) ?fenced ?opened ?closed hread rfl rfl
    case fenced =>
      rw [String.toList_append, String.toList_append, hprint]
      decide +kernel
    case opened =>
      rw [hprint]
      rfl
    case closed =>
      rw [hprint]
      decide +kernel
  have hcall : Records "Search" "c1" [("query", .str "cats")] .envelope searchCall :=
    .envelope rfl rfl rfl
  exact ⟨hreply, hcall, turnOf_of_calling hreply hcall (by simp [Fields.names]) []⟩

end ReAct.Provider

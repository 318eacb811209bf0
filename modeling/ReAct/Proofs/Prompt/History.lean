import ReAct.Prompt.History
import ReAct.Config
import ReAct.Proofs.Template.Slots

/-!
# Chat history in templates

With templates a chat history is the inside of a JSON list.  A question or response is spliced into
its template as the inside of a string literal, so whatever it holds, the message that comes of it
is the value of the template with the text in the place of the placeholder (`read?_fillMessage`).
The messages are joined with commas and are read as one list (`read?_history`).

A template is cut from the left, and a placeholder that is opened before that of the text, and not
closed, swallows it.  So it is not enough that the placeholder is the whole of a string in the text
of the template (`not_forall_read?_history`).

## Main Definitions

* `messageValues`: the two objects that a turn becomes
* `HoldsPlaceholder`: a template in the text of which the placeholder is the whole of a string
-/

namespace ReAct.Prompt

open Json Template

/-- A message is read as its template with the text in the place of the placeholder. -/
theorem read?_fillMessage {key template : String} (h : TextSlots messageOpening [key] template)
    (hmark : body false (mark messageOpening.toList key) = mark messageOpening.toList key)
    (text : String) :
    read? (fillMessage key text template) =
      (read? template).map (mapTexts (inPlace messageOpening [(key, text)])) := by
  have hspells : SpellsEach [(key, literalBody true text)] [(key, text)] :=
    .cons ⟨rfl, spells_literalBody true text⟩ .nil
  exact read?_fill h (by simpa [Fields.names] using hmark) hspells

/-- The members of a template with a text in the place of a placeholder. -/
def withText (key text : String) (members : Fields Json) : Fields Json :=
  members.mapValues (mapTexts (inPlace messageOpening [(key, text)]))

/-- The two objects that a turn becomes: the members of the question template with the question, and
those of the response template with the response. -/
def messageValues (question response : Fields Json) (message : Message) : List Json :=
  [.obj (withText "question" message.question question),
    .obj (withText "response" message.response response)]

theorem length_messageValues (question response : Fields Json) (messages : List Message) :
    (messages.flatMap (messageValues question response)).length = 2 * messages.length := by
  induction messages with
  | nil => rfl
  | cons message messages ih =>
      have htwo : (messageValues question response message).length = 2 := rfl
      rw [List.flatMap_cons, List.length_append, ih, htwo, List.length_cons]
      omega

theorem history_of_templates {config : Config} {questionTemplate responseTemplate : String}
    (hquestion : config.chatQuestion = some questionTemplate)
    (hresponse : config.chatResponse = some responseTemplate) {messages : List Message}
    (hmessages : messages ≠ []) :
    history messages config =
      ", ".intercalate (messages.flatMap (messagesOf questionTemplate responseTemplate)) ++
        ", " := by
  have hsome : messages.isEmpty = false := by simpa using hmessages
  rw [history, hsome, hquestion, hresponse]
  rfl

/-- **A chat history in templates is a list of messages.**  Let the question template and the
response template be texts of objects in which the placeholder is the whole of a string, and let
nothing else be filled in them.  Then the history of some turns ends with a comma and a blank, and
without these it is the inside of a list: for every turn, in order, the question template with the
question and the response template with the response, whatever texts these are. -/
theorem read?_history {config : Config} {questionTemplate responseTemplate : String}
    {question response : Fields Json} (hquestion : config.chatQuestion = some questionTemplate)
    (hresponse : config.chatResponse = some responseTemplate)
    (hquestionSlots : TextSlots messageOpening ["question"] questionTemplate)
    (hresponseSlots : TextSlots messageOpening ["response"] responseTemplate)
    (hquestionValue : read? questionTemplate = some (.obj question))
    (hresponseValue : read? responseTemplate = some (.obj response)) {messages : List Message}
    (hmessages : messages ≠ []) :
    ∃ list items, history messages config = list ++ ", " ∧
      read? ("[" ++ list ++ "]") = some (.arr items) ∧
        items = messages.flatMap (messageValues question response) ∧
          items.length = 2 * messages.length := by
  -- Each text beside the value it is read to, so that one list of pairs carries both.
  let entries := messages.flatMap fun message =>
    [(fillMessage "question" message.question questionTemplate,
        Json.obj (withText "question" message.question question)),
      (fillMessage "response" message.response responseTemplate,
        Json.obj (withText "response" message.response response))]
  have htexts : entries.map Prod.fst =
      messages.flatMap (messagesOf questionTemplate responseTemplate) := by
    rw [List.map_flatMap]
    rfl
  have hvalues : entries.map Prod.snd = messages.flatMap (messageValues question response) := by
    rw [List.map_flatMap]
    rfl
  have hread : ∀ entry ∈ entries, read? entry.1 = some entry.2 := by
    intro entry hentry
    obtain ⟨message, -, hmem⟩ := List.mem_flatMap.mp hentry
    simp only [List.mem_cons, List.not_mem_nil, or_false] at hmem
    rcases hmem with rfl | rfl
    · rw [read?_fillMessage hquestionSlots (by decide), hquestionValue, Option.map_some,
        mapTexts_obj]
      rfl
    · rw [read?_fillMessage hresponseSlots (by decide), hresponseValue, Option.map_some,
        mapTexts_obj]
      rfl
  refine ⟨", ".intercalate (entries.map Prod.fst), entries.map Prod.snd, ?_, read?_texts hread,
    hvalues, ?_⟩
  · rw [htexts, history_of_templates hquestion hresponse hmessages]
  · rw [hvalues, length_messageValues]

/-- A configuration with templates of messages. -/
def templated : Config :=
  { Config.initial with
    chatQuestion :=
      some "\x7b\"user\": \"$\x7b_chat_history.message.question\x7d\"\x7d"
    chatResponse := some "\x7b\"says\": [\"$\x7b_chat_history.message.response\x7d\"]\x7d" }

/-- Quotes, a placeholder and characters beyond ASCII in the texts of a turn. -/
theorem read?_history_quoted :
    let messages := [⟨"\"é\" $\x7b_chat_history.message.response\x7d", "\\\n☃"⟩, ⟨"", "\"\x7d"⟩]
    let values := messages.flatMap (messageValues
      [("user", .str "$\x7b_chat_history.message.question\x7d")]
      [("says", .arr [.str "$\x7b_chat_history.message.response\x7d"])])
    ∃ list items, history messages templated = list ++ ", " ∧
      read? ("[" ++ list ++ "]") = some (.arr items) ∧ items = values ∧ items.length = 4 := by
  intro messages values
  have hquestion : TextSlots messageOpening ["question"]
      "\x7b\"user\": \"$\x7b_chat_history.message.question\x7d\"\x7d" :=
    @textSlots_of_cut _ _ _ "\x7b\"user\": ".toList ['\x7d'] (by decide)
      ⟨_, _, rfl, rfl⟩ (by decide)
  have hresponse : TextSlots messageOpening ["response"]
      "\x7b\"says\": [\"$\x7b_chat_history.message.response\x7d\"]\x7d" :=
    @textSlots_of_cut _ _ _ "\x7b\"says\": [".toList [']', '\x7d'] (by decide) ⟨_, _, rfl, rfl⟩
      (by decide)
  exact read?_history rfl rfl hquestion hresponse (by rfl) (by rfl) (List.cons_ne_nil _ _)

/-- A template in the text of which the placeholder of a key is the whole of a string where a value
is due, and of no other one. -/
def HoldsPlaceholder (key template : String) : Prop :=
  timesRead messageOpening.toList key template.toList = 1 ∧
    ∃ before after, template.toList =
      before ++ ('"' :: mark messageOpening.toList key ++ ['"']) ++ after ∧ AwaitsValue before

/-- A question template in which a placeholder is opened in the string before and not closed. -/
def unclosedQuestion : String :=
  "\x7b\"a\":[\"$\x7b_chat_history.message.\",\"$\x7b_chat_history.message.question\x7d\"]\x7d"

/-- The placeholder that is not closed swallows that of the question. -/
theorem fillMessage_unclosedQuestion :
    fillMessage "question" "q" unclosedQuestion = unclosedQuestion := by
  decide

theorem holdsPlaceholder_unclosedQuestion : HoldsPlaceholder "question" unclosedQuestion :=
  ⟨by decide, "\x7b\"a\":[\"$\x7b_chat_history.message.\",".toList, [']', '\x7d'], by decide, _, _,
    rfl, rfl⟩

theorem read?_unclosedQuestion : read? unclosedQuestion =
    some (.obj [("a", .arr [.str "$\x7b_chat_history.message.",
      .str "$\x7b_chat_history.message.question\x7d"])]) := by
  rfl

/-- It is not enough that the text of a template holds the placeholder once. -/
theorem not_forall_read?_history :
    ¬ ∀ (config : Config) (questionTemplate responseTemplate : String)
      (question response : Fields Json) (messages : List Message),
      config.chatQuestion = some questionTemplate →
        config.chatResponse = some responseTemplate →
          HoldsPlaceholder "question" questionTemplate →
            HoldsPlaceholder "response" responseTemplate →
              read? questionTemplate = some (.obj question) →
                read? responseTemplate = some (.obj response) → messages ≠ [] →
                  ∃ list items, history messages config = list ++ ", " ∧
                    read? ("[" ++ list ++ "]") = some (.arr items) ∧
                      items = messages.flatMap (messageValues question response) ∧
                        items.length = 2 * messages.length := by
  intro hall
  let config := { Config.initial with
    chatQuestion := some unclosedQuestion
    chatResponse := some "\x7b\"a\":\"$\x7b_chat_history.message.response\x7d\"\x7d" }
  have hresponse : HoldsPlaceholder "response"
      "\x7b\"a\":\"$\x7b_chat_history.message.response\x7d\"\x7d" :=
    ⟨by decide, "\x7b\"a\":".toList, ['\x7d'], by decide, _, _, rfl, rfl⟩
  obtain ⟨list, items, hlist, hread, hitems, -⟩ := hall config _ _ _
    [("a", .str "$\x7b_chat_history.message.response\x7d")] [⟨"q", "r"⟩] rfl rfl
    holdsPlaceholder_unclosedQuestion hresponse read?_unclosedQuestion (by rfl)
    (List.cons_ne_nil _ _)
  have hfilled : fillMessage "response" "r"
      "\x7b\"a\":\"$\x7b_chat_history.message.response\x7d\"\x7d" = "\x7b\"a\":\"r\"\x7d" := by
    decide
  -- The list is read as the two templates, the first of them as it was.
  rw [@history_of_templates config _ _ rfl rfl _ (List.cons_ne_nil _ _)] at hlist
  have hsame := (String.append_left_inj _).mp hlist
  rw [List.flatMap_singleton, messagesOf, fillMessage_unclosedQuestion, hfilled] at hsame
  rw [← hsame] at hread
  have hentries : ∀ entry ∈ [(unclosedQuestion,
        Json.obj [("a", .arr [.str "$\x7b_chat_history.message.",
          .str "$\x7b_chat_history.message.question\x7d"])]),
      ("\x7b\"a\":\"r\"\x7d", .obj [("a", .str "r")])], read? entry.1 = some entry.2 :=
    List.forall_mem_cons.mpr ⟨read?_unclosedQuestion, List.forall_mem_singleton.mpr (by rfl)⟩
  have hmessages := read?_texts hentries
  simp only [List.map_cons, List.map_nil] at hmessages
  rw [hmessages] at hread
  rw [← Json.arr.inj (Option.some.inj hread)] at hitems
  exact absurd (congrArg (fun items => print spaced (.arr items)) hitems) (by decide)

end ReAct.Prompt

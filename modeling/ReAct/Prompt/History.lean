import ReAct.Config
import ReAct.Json.Printer
import ReAct.Message
import ReAct.Template

/-!
# Chat history

The completed turns of a conversation, as a prompt shows them. Without templates they are listed as
plain text. With templates every question and every response is spliced, in escaped form, into the
template of a message, and the messages are joined for splicing into a longer list.
-/

namespace ReAct.Prompt

/-- What opens the placeholders of message templates. -/
def messageOpening : String := "$\x7b_chat_history.message."

/-- Fills the one placeholder of a message template. -/
def fillMessage (key text template : String) : String :=
  Template.fill messageOpening [(key, Json.literalBody true text)] .stays template

/-- The two messages of a turn. -/
def messagesOf (questionTemplate responseTemplate : String) (message : Message) : List String :=
  [fillMessage "question" message.question questionTemplate,
    fillMessage "response" message.response responseTemplate]

/-- The history of a conversation. -/
def history (messages : List Message) (config : Config) : String :=
  if messages.isEmpty then ""
  else
    match config.chatQuestion with
    | none => config.chatHistoryOpening ++ String.join (messages.map fun m => m.text ++ "\n")
    | some questionTemplate =>
      let parts := messages.flatMap (messagesOf questionTemplate (config.chatResponse.getD ""))
      ", ".intercalate parts ++ ", "

end ReAct.Prompt

import ReAct.Record.Check

/-!
# Completed turns

A question of the user with the response that it got, as conversation memory hands it out and as a
prompt shows it.
-/

namespace ReAct

open Record

/-- A completed question and its response. -/
structure Message where
  question : String
  response : String
  deriving DecidableEq

namespace Message

/-- A turn as plain text. -/
def text (message : Message) : String :=
  "Human:" ++ message.question ++ "\nAI:" ++ message.response

/-- Reads a turn from an object. -/
def check : Check Message :=
  record fun members =>
    Message.mk <$> required members "question" Record.text
      <*> required members "response" Record.text

/-- The turn as an object. -/
def toJson (message : Message) : Json :=
  .obj [("question", .str message.question), ("response", .str message.response)]

end Message

end ReAct

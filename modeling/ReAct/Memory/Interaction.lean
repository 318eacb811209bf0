import ReAct.Moment.Basic

/-!
# Interactions

What conversation memory keeps: a question and its response, with the place where they belong. A
root interaction answers a question of the user; the interactions under a root trace how the answer
was found.
-/

namespace ReAct.Memory

open Record

/-- An interaction as it is handed to memory. -/
structure Entry where
  question : Option String := none
  response : Option String := none
  origin : String := "LLM"
  traceNumber : Option Int := none
  finalAnswer : Bool := false
  additionalInfo : Fields Json := []

namespace Entry

/-- Reads the fields of an entry; what is absent is as in `base`. -/
def checkOver (base : Entry) (members : Fields Json) : Checked Entry :=
  Entry.mk <$> defaulted members "question" base.question (optional text)
    <*> defaulted members "response" base.response (optional text)
    <*> defaulted members "origin" base.origin text
    <*> defaulted members "trace_number" base.traceNumber (optional integer)
    <*> defaulted members "final_answer" base.finalAnswer flag
    <*> defaulted members "additional_info" base.additionalInfo (table any)

/-- Reads an entry from an object. -/
def check : Check Entry :=
  record (checkOver {})

/-- The fields of an entry. -/
def members (entry : Entry) : Fields Json :=
  [("question", Json.ofText? entry.question), ("response", Json.ofText? entry.response),
    ("origin", .str entry.origin), ("trace_number", Json.ofOption .int entry.traceNumber),
    ("final_answer", .bool entry.finalAnswer), ("additional_info", .obj entry.additionalInfo)]

end Entry

/-- An interaction as memory keeps it. -/
structure Interaction where
  entry : Entry
  id : String
  session : String
  parent : Option String
  created : Moment

namespace Interaction

/-- Reads an interaction from an object; an interaction without a time is dated `now`. -/
def check (now : Moment) : Check Interaction :=
  record fun members =>
    Interaction.mk <$> Entry.checkOver {} members
      <*> required members "interaction_id" text
      <*> required members "session_id" text
      <*> defaulted members "parent_id" none (optional text)
      <*> defaulted members "created_at" now Moment.check

/-- An interaction with some fields replaced. -/
def revise (interaction : Interaction) (fields : Fields Json) : Checked Interaction :=
  Interaction.mk <$> Entry.checkOver interaction.entry fields
    <*> defaulted fields "interaction_id" interaction.id text
    <*> defaulted fields "session_id" interaction.session text
    <*> defaulted fields "parent_id" interaction.parent (optional text)
    <*> defaulted fields "created_at" interaction.created Moment.check

/-- The fields of an interaction, its time left out. -/
def members (interaction : Interaction) : Fields Json :=
  interaction.entry.members ++
    [("interaction_id", .str interaction.id), ("session_id", .str interaction.session),
      ("parent_id", Json.ofText? interaction.parent)]

/-- The interaction as an object. -/
def toJson (interaction : Interaction) : Json :=
  .obj (interaction.members ++ [("created_at", .str interaction.created.iso)])

/-- Whether the interaction is a root of a session whose response is there. -/
def isAnsweredRoot (session : String) (interaction : Interaction) : Bool :=
  interaction.session == session && interaction.parent.isNone &&
    interaction.entry.response.getD "" ≠ ""

end Interaction

end ReAct.Memory

/-!
# Default texts of prompts

The templates that a session starts from. Each can be replaced through the parameters of an agent.
-/

namespace ReAct.Prompt.Defaults

/-- What a prompt begins with. -/
def opening : String :=
  "Assistant is a large language model that can THINK and ACT.\n" ++
    "\n" ++
    "Assistant answers a wide range of questions. When it lacks the facts needed for an " ++
    "answer it uses the tools it has been given, one at a time, and reasons over what each " ++
    "tool returns before deciding on the next step."

/-- What a prompt ends with, before the scratchpad. -/
def closing : String :=
  "Human:Never answer from memory when a tool can look the facts up. Keep the final answer " ++
    "concise and grounded in the tool outputs above."

/-- How the model is told to write its decision. -/
def formatInstruction : String :=
  "RESPONSE FORMAT INSTRUCTIONS\n" ++
    "----------------------------\n" ++
    "Output a JSON markdown code snippet containing a valid JSON object in one of two " ++
    "formats:\n" ++
    "\n" ++
    "**Option 1:**\n" ++
    "Use this if you want to use a tool.\n" ++
    "```json\n" ++
    "\x7b\n" ++
    "    \"thought\": \"Think about what to do next\",\n" ++
    "    \"action\": \"The action to take, must be one of these tool names: " ++
    "[$\x7bparameters.tool_names\x7d]\",\n" ++
    "    \"action_input\": \"The input to the tool\"\n" ++
    "\x7d\n" ++
    "```\n" ++
    "\n" ++
    "**Option 2:**\n" ++
    "Use this if you can answer the question without any more tools.\n" ++
    "```json\n" ++
    "\x7b\n" ++
    "    \"thought\": \"Now I know the final answer\",\n" ++
    "    \"final_answer\": \"The final answer to the original input question\"\n" ++
    "\x7d\n" ++
    "```"

/-- How a tool call and its observation are entered on the scratchpad. -/
def toolResponse : String :=
  "Assistant's thought and action:\n" ++
    "$\x7bparameters.llm_tool_selection_response\x7d\n" ++
    "\n" ++
    "TOOL RESPONSE of $\x7bparameters.tool_name\x7d:\n" ++
    "---------------------\n" ++
    "Tool input:\n" ++
    "$\x7bparameters.tool_input\x7d\n" ++
    "\n" ++
    "Tool output:\n" ++
    "$\x7bparameters.observation\x7d\n" ++
    "\n" ++
    "Human:Reply with the next step. Remember to respond with a JSON markdown snippet using " ++
    "one of the two formats described above."

/-- What precedes the listed turns of a conversation. -/
def chatHistoryOpening : String :=
  "Below is Chat History between Human and AI which sorted by time with asc order:\n"

/-- The template of a prompt. -/
def template : String :=
  "$\x7bparameters.prompt.prefix\x7d\n" ++
    "\n" ++
    "Human:TOOLS\n" ++
    "------\n" ++
    "$\x7bparameters.tool_descriptions\x7d\n" ++
    "\n" ++
    "$\x7bparameters.prompt.format_instruction\x7d\n" ++
    "\n" ++
    "$\x7bparameters.indices\x7d\n" ++
    "\n" ++
    "$\x7bparameters.examples\x7d\n" ++
    "\n" ++
    "$\x7bparameters.chat_history\x7d\n" ++
    "\n" ++
    "$\x7bparameters.context\x7d\n" ++
    "\n" ++
    "Human:USER'S INPUT\n" ++
    "--------------------\n" ++
    "Here is the user's input :\n" ++
    "$\x7bparameters.question\x7d\n" ++
    "\n" ++
    "$\x7bparameters.prompt.suffix\x7d\n" ++
    "\n" ++
    "$\x7bparameters.scratchpad\x7d"

/-- The answer of a session that spent its budget; the budget fills the gap. -/
def budgetSpent (budget : String) : String :=
  "Agent reached maximum iterations (" ++ budget ++ ") without completing the task"

/-- The name of the gap in the text of `budgetSpent`. -/
def budgetGap : String := "\x7bmax_iterations\x7d"

/-- The default stop words of text completion. -/
def stop : List String :=
  ["\nObservation:", "\n\tObservation:"]

/-- The default stop sequences of text completion. -/
def stopSequences : List String :=
  ["\n\nHuman:", "\nObservation:", "\n\tObservation:", "\nObservation", "\n\tObservation",
    "\n\nQuestion"]

end ReAct.Prompt.Defaults

/-!
# Failures

What a session, a store or a command reports when it cannot go on: a kind, which decides who may
handle the failure, and a text for the reader. Each area has its own type of causes and turns them
into failures; a collaborator may raise a failure of any kind.

That the process is told to exit, or is interrupted, or that a task is cancelled, is no failure of
anything in it. Such an end is not handled, but passes through every handler of failures, and is
left out here.
-/

namespace ReAct

/-- The kinds of failures. -/
inductive Failure.Kind where
  /-- A model could not be reached or answered unusably. -/
  | model
  /-- Conversation memory could not be read or written. -/
  | memory
  /-- A tool catalogue could not be queried. -/
  | discovery
  /-- A prompt lists a tool that cannot be described. -/
  | tool
  /-- A tool input is not an object. -/
  | toolInput
  /-- A record has missing or wrong fields. -/
  | record
  /-- A value is of the right type and still unusable. -/
  | value
  /-- A value is of the wrong type. -/
  | type
  /-- A value lacks an attribute. -/
  | attribute
  /-- A name is not there. -/
  | key
  /-- A position is not there. -/
  | index
  /-- A number is too large. -/
  | overflow
  /-- The operating system refused. -/
  | system
  /-- Any other failure. -/
  | runtime
  deriving DecidableEq

/-- A failure: its kind and its text. -/
structure Failure where
  kind : Failure.Kind
  text : String
  deriving DecidableEq

end ReAct

import ReAct.Memory.Store

/-!
# Requests to conversation memory

What a session may ask of memory, and the service that keeps everything in the process. Fresh
identifiers come from a source that numbers them; one is drawn for every session and every
interaction that is to be added, also if adding it fails.
-/

namespace ReAct.Memory

/-- What memory can be asked. -/
inductive Request where
  | createSession (title : Json)
  | append (session : String) (parent : Option String) (entry : Entry)
  | update (id : String) (fields : Fields Json)
  | recent (session : String) (limit : Int)
  | traces (parent : String)

/-- What an answer holds. -/
def Request.Answer : Request → Type
  | .createSession _ => String
  | .append _ _ _ => String
  | .update _ _ => Unit
  | .recent _ _ => List Message
  | .traces _ => List Interaction

/-- Where new things get their names and times from. -/
structure Registrar where
  /-- The identifier with a given number. -/
  identifier : Nat → String
  /-- The present moment. -/
  now : Moment

/-- The next identifier, and how many are drawn then. -/
def Registrar.draw (registrar : Registrar) (drawn : Nat) : String × Nat :=
  (registrar.identifier (drawn + 1), drawn + 1)

/-- A memory inside the process: its store, and how many identifiers it has drawn. -/
structure InProcess where
  store : Store := {}
  drawn : Nat := 0

/-- Serves a request from the process. -/
def InProcess.serve (registrar : Registrar) (memory : InProcess) :
    (request : Request) → Except Error request.Answer × InProcess
  | .createSession title =>
    let (id, drawn) := registrar.draw memory.drawn
    (.ok id, ⟨memory.store.addSession (.str id) title, drawn⟩)
  | .append session parent entry =>
    let (id, drawn) := registrar.draw memory.drawn
    match memory.store.append ⟨entry, id, session, parent, registrar.now⟩ with
    | .ok store => (.ok id, ⟨store, drawn⟩)
    | .error e => (.error e, ⟨memory.store, drawn⟩)
  | .update id fields =>
    match memory.store.update id fields with
    | .ok store => (.ok (), ⟨store, memory.drawn⟩)
    | .error e => (.error e, memory)
  | .recent session limit => (.ok (memory.store.recent session limit), memory)
  | .traces parent => (.ok (memory.store.traces parent), memory)

end ReAct.Memory

import ReAct.Memory.Interaction
import ReAct.Message

/-!
# The store of conversations

Sessions and interactions, each in the order in which they came. The names of sessions are texts as
a rule; a journal may bring in any value that is neither a list nor an object, and numbers that are
equal are one name.
-/

namespace ReAct.Memory

open Record

/-- What distinguishes the names of sessions. -/
inductive SessionName where
  | none
  | text (s : String)
  | whole (n : Int)
  | fraction (x : Double)
  deriving DecidableEq

/-- The name that a value stands for. A value that is no number equals nothing, itself included. -/
def SessionName.of? : Json → Option SessionName
  | .null => some .none
  | .bool b => some (.whole (if b then 1 else 0))
  | .int n => some (.whole n)
  | .float .nan => Option.none
  | .float x =>
    match x.toInt? with
    | some n => some (.whole n)
    | Option.none => some (.fraction x)
  | .str s => some (.text s)
  | .arr _ => Option.none
  | .obj _ => Option.none

/-- Whether two values are one name. -/
def sameSession (a b : Json) : Bool :=
  match SessionName.of? a, SessionName.of? b with
  | some a, some b => a == b
  | _, _ => false

/-- Why memory refuses a request. -/
inductive Error where
  | unknownSession (id : String)
  | unknownInteraction (id : String)
  | invalidUpdate (id : String) (issues : List Issue)
  | corrupt (path : String) (line : Nat)
  | unreadable (path text : String)
  | unwritable (path text : String)
  /-- A line of a journal has the wrong shape. -/
  | misshapen (text : String)
  /-- A change could not be put into writing. -/
  | raised (cause : Failure)
  deriving DecidableEq

/-- The text of an error. -/
def Error.text : Error → String
  | .unknownSession id => "Session '" ++ id ++ "' does not exist"
  | .unknownInteraction id => "Interaction '" ++ id ++ "' does not exist"
  | .invalidUpdate id issues => "Invalid update for '" ++ id ++ "': " ++ issuesText issues
  | .corrupt path line => path ++ ":" ++ toString line ++ ": corrupt entry"
  | .unreadable path text => "Cannot read " ++ path ++ ": " ++ text
  | .unwritable path text => "Cannot write " ++ path ++ ": " ++ text
  | .misshapen text => text
  | .raised cause => cause.text

/-- The kind of failure that an error is. -/
def Error.kind : Error → Failure.Kind
  | .misshapen _ => .type
  | .raised cause => cause.kind
  | _ => .memory

/-- The failure that an error amounts to. -/
def Error.failure (e : Error) : Failure :=
  ⟨e.kind, e.text⟩

/-- Sessions with their titles, and interactions by their names. -/
structure Store where
  sessions : List (Json × Json) := []
  interactions : Fields Interaction := []

namespace Store

/-- Writes the title of a session, in place if the session is there. -/
def putSession (id title : Json) : List (Json × Json) → List (Json × Json)
  | [] => [(id, title)]
  | (known, old) :: rest =>
    if sameSession known id then (known, title) :: rest
    else (known, old) :: putSession id title rest

/-- Adds a session. -/
def addSession (store : Store) (id title : Json) : Store :=
  { store with sessions := putSession id title store.sessions }

/-- Removes a session. -/
def removeSession (store : Store) (id : Json) : Store :=
  { store with sessions := store.sessions.filter fun s => !sameSession s.1 id }

/-- Whether there is a session of the given name. -/
def hasSession (store : Store) (id : String) : Bool :=
  store.sessions.any fun s => sameSession s.1 (.str id)

/-- Adds an interaction to an existing session, under an existing parent if it names one. -/
def append (store : Store) (interaction : Interaction) : Except Error Store :=
  if !store.hasSession interaction.session then .error (.unknownSession interaction.session)
  else
    match interaction.parent with
    | some parent =>
      if store.interactions.has parent then
        .ok { store with interactions := store.interactions.put interaction.id interaction }
      else .error (.unknownInteraction parent)
    | none => .ok { store with interactions := store.interactions.put interaction.id interaction }

/-- Replaces fields of an interaction. -/
def update (store : Store) (id : String) (fields : Fields Json) : Except Error Store :=
  match store.interactions.get? id with
  | none => .error (.unknownInteraction id)
  | some interaction =>
    match interaction.revise fields with
    | .valid revised => .ok { store with interactions := store.interactions.put id revised }
    | .faulty issues => .error (.invalidUpdate id issues)

/-- Puts an interaction back under its name, if there was one. -/
def restore (store : Store) (id : String) : Option Interaction → Store
  | some previous => { store with interactions := store.interactions.put id previous }
  | none => store

/-- The completed turns of a session, the last `limit` of them, oldest first. -/
def recent (store : Store) (session : String) (limit : Int) : List Message :=
  let answered := store.interactions.values.filter (·.isAnsweredRoot session)
  let messages := answered.map fun i =>
    (⟨i.entry.question.getD "", i.entry.response.getD ""⟩ : Message)
  messages.drop (messages.length - limit.toNat)

/-- The interactions under a parent, by their trace numbers. -/
def traces (store : Store) (parent : String) : List Interaction :=
  (store.interactions.values.filter fun i => i.parent == some parent).mergeSort fun a b =>
    a.entry.traceNumber.getD 0 ≤ b.entry.traceNumber.getD 0

end Store

end ReAct.Memory

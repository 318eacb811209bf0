import ReAct.Json.Display
import ReAct.Json.Printer
import ReAct.Json.Reader
import ReAct.Memory.Request

/-!
# The journal

A memory that outlives the process: every change is appended as one line of JSON to a file, and the
file is folded back into a store when it is first needed. Updates are lines, too, so history is
never rewritten. A change that the operating system refuses to write is taken back, so that the
store does not run ahead of the file. A change that cannot be put into writing is not: a value that
is no JSON, a text that is no Unicode, or a number beyond the limits of the interpreter fails
otherwise than as memory, and nothing handles that failure. Every value here can be written, so what
can fail is a parameter, the encoder of lines.

Blank lines and lines of an unknown kind are passed over. Reading stops at the first line that is
unusable; what was folded before stays. Lines are read without limits on their integers and their
nesting.
-/

namespace ReAct.Memory

open ReAct.Text Record

/-- What lies at the path of a journal. -/
inductive LogFile where
  | missing
  | directory
  | text (content : String)
  deriving DecidableEq

/-- The disk as a journal sees it: its file, and the fault that writes meet, if they meet one. -/
structure Disk where
  file : LogFile := .missing
  fault : Option String := none

/-- The text of a file. -/
def LogFile.content : LogFile → String
  | .missing => ""
  | .directory => ""
  | .text content => content

/-- The text of the refusal to treat a directory as a file. -/
def directoryFault : String := "Is a directory"

/-- The lines of a text, which end at a line feed, a carriage return, or both. -/
def lines (s : List Char) : List (List Char) :=
  go [] s
where
  /-- `line` is the current line so far, in reverse. -/
  go (line : List Char) : List Char → List (List Char)
    | [] => if line.isEmpty then [] else [line.reverse]
    | '\r' :: '\n' :: s => line.reverse :: go [] s
    | c :: s => if c = '\r' ∨ c = '\n' then line.reverse :: go [] s else go (c :: line) s

/-- The line of a new session. -/
def sessionLine (id : String) (title : Json) : Json :=
  .obj [("op", .str "session"), ("session_id", .str id), ("title", title)]

/-- The line of a new interaction. -/
def appendLine (interaction : Interaction) : Json :=
  .obj [("op", .str "append"), ("interaction", interaction.toJson)]

/-- The line of an update. -/
def updateLine (id : String) (fields : Fields Json) : Json :=
  .obj [("op", .str "update"), ("interaction_id", .str id), ("fields", .obj fields)]

/-- Why a line is unusable: it is broken, it has the wrong shape, or the store refuses it. -/
inductive LineFault where
  | broken
  | misshapen (text : String)
  | refused (e : Error)

/-- The word for the type of a value. -/
def typeWord : Json → String
  | .null => "NoneType"
  | .bool _ => "bool"
  | .int _ => "int"
  | .float _ => "float"
  | .str _ => "str"
  | .arr _ => "list"
  | .obj _ => "dict"

/-- What is wrong with a line that is no object. -/
def notAnObject : Json → LineFault
  | .arr _ => .misshapen "list indices must be integers or slices, not str"
  | .str _ => .misshapen "string indices must be integers, not 'str'"
  | v => .misshapen ("'" ++ typeWord v ++ "' object is not subscriptable")

/-- Refuses a value that cannot be a name. -/
def asName (v : Json) : Except LineFault Json :=
  match v with
  | .arr _ => .error (.misshapen ("unhashable type: '" ++ typeWord v ++ "'"))
  | .obj _ => .error (.misshapen ("unhashable type: '" ++ typeWord v ++ "'"))
  | _ => .ok v

/-- A member that must be there. -/
def need (members : Fields Json) (name : String) : Except LineFault Json :=
  match members.get? name with
  | some v => .ok v
  | none => .error .broken

/-- Lets the store's refusal be the fault of a line. An update with invalid fields is refused by the
store, too. -/
def refusing {α : Type} : Except Error α → Except LineFault α
  | .ok a => .ok a
  | .error e => .error (.refused e)

/-- Folds one update into a store. The name is looked up before the fields are. -/
def replayUpdate (store : Store) (id fields : Json) : Except LineFault Store := do
  let id ← asName id
  match id with
  | .str id =>
    if store.interactions.has id then
      match fields with
      | .obj fields => refusing (store.update id fields)
      | v => .error (.misshapen ("'" ++ typeWord v ++ "' object is not a mapping"))
    else .error (.refused (.unknownInteraction id))
  | v => .error (.refused (.unknownInteraction v.display))

/-- Folds one line into a store. -/
def replayLine (now : Moment) (store : Store) (line : Json) : Except LineFault Store :=
  match line with
  | .obj members => do
    let op ← need members "op"
    if op.isText "session" then
      let id ← need members "session_id"
      let id ← asName id
      return store.addSession id ((Fields.get? members "title").getD .null)
    else if op.isText "append" then
      let interaction ← need members "interaction"
      match Interaction.check now interaction with
      | .faulty _ => .error .broken
      | .valid interaction => refusing (store.append interaction)
    else if op.isText "update" then
      let id ← need members "interaction_id"
      let fields ← need members "fields"
      replayUpdate store id fields
    else return store
  | v => .error (notAnObject v)

/-- The error that the fault of a line is. -/
def LineFault.error (path : String) (line : Nat) : LineFault → Error
  | .broken => .corrupt path line
  | .misshapen text => .misshapen text
  | .refused e => e

/-- Folds lines into a store, from a given line number on. The store that was reached is part of the
result in either case. -/
def replay (now : Moment) (path : String) : (number : Nat) → Store → List (List Char) →
    Store × Option Error
  | _, store, [] => (store, none)
  | number, store, line :: rest =>
    if allBlank line then replay now path (number + 1) store rest
    else
      match Json.ofChars? .refused line with
      | none => (store, some (.corrupt path number))
      | some v =>
        match replayLine now store v with
        | .ok store => replay now path (number + 1) store rest
        | .error fault => (store, some (fault.error path number))

/-- A journal: where its file is, what it has in the process, and whether it has read the file. -/
structure Journal where
  path : String
  store : Store := {}
  loaded : Bool := false

namespace Journal

/-- Reads the file if that has not been done. What was folded before a fault stays in the store. -/
def load (registrar : Registrar) (disk : Disk) (journal : Journal) : Except Error Unit × Journal :=
  if journal.loaded then (.ok (), journal)
  else
    match disk.file with
    | .missing => (.ok (), { journal with loaded := true })
    | .directory => (.error (.unreadable journal.path directoryFault), journal)
    | .text content =>
      match replay registrar.now journal.path 1 journal.store (lines content.toList) with
      | (store, none) => (.ok (), { journal with store := store, loaded := true })
      | (store, some e) => (.error e, { journal with store := store })

/-- How lines are put into writing. -/
abbrev Encoder : Type := Json → Except Failure String

/-- Every line is written as its JSON text. -/
def Encoder.plain : Encoder :=
  fun line => .ok (line.print Json.spaced)

/-- The error that the failure to put a line into writing is: a failure of memory if it is of the
operating system, otherwise itself. -/
def encodingError (path : String) (cause : Failure) : Error :=
  match cause.kind with
  | .system => .unwritable path cause.text
  | _ => .raised cause

/-- Appends a line to the file, which is opened first. -/
def write (encode : Encoder) (disk : Disk) (journal : Journal) (line : Json) :
    Except Error Unit × Disk :=
  match disk.fault, disk.file with
  | some text, _ => (.error (.unwritable journal.path text), disk)
  | none, .directory => (.error (.unwritable journal.path directoryFault), disk)
  | none, file =>
    match encode line with
    | .ok text => (.ok (), { disk with file := .text (file.content ++ (text ++ "\n")) })
    | .error cause =>
      (.error (encodingError journal.path cause), { disk with file := .text file.content })

/-- The state in which a request is served: the journal, the disk, and how many identifiers have
been drawn. -/
structure State where
  journal : Journal
  disk : Disk := {}
  drawn : Nat := 0

/-- The state with another store. -/
def State.withStore (state : State) (store : Store) : State :=
  { state with journal := { state.journal with store := store } }

/-- Keeps a change unless writing its line is a failure of memory, after which the store is that of
`undo`. -/
def State.commit {α : Type} (encode : Encoder) (state : State) (changed undo : Store) (line : Json)
    (answer : α) : Except Error α × State :=
  match write encode state.disk state.journal line with
  | (.ok (), disk) => (.ok answer, { state.withStore changed with disk := disk })
  | (.error e, disk) =>
    let store := if e.kind = .memory then undo else changed
    (.error e, { state.withStore store with disk := disk })

/-- Serves a request on a journal that has been read. -/
def State.serveLoaded (encode : Encoder) (registrar : Registrar) (state : State) :
    (request : Request) → Except Error request.Answer × State
  | .createSession title =>
    let (id, drawn) := registrar.draw state.drawn
    let state := { state with drawn := drawn }
    let changed := state.journal.store.addSession (.str id) title
    state.commit encode changed (changed.removeSession (.str id)) (sessionLine id title) id
  | .append session parent entry =>
    let (id, drawn) := registrar.draw state.drawn
    let state := { state with drawn := drawn }
    let interaction : Interaction := ⟨entry, id, session, parent, registrar.now⟩
    match state.journal.store.append interaction with
    | .error e => (.error e, state)
    | .ok changed =>
      let undo := { changed with interactions := changed.interactions.erase id }
      state.commit encode changed undo (appendLine interaction) id
  | .update id fields =>
    let previous := state.journal.store.interactions.get? id
    match state.journal.store.update id fields with
    | .error e => (.error e, state)
    | .ok changed =>
      state.commit encode changed (changed.restore id previous) (updateLine id fields) ()
  | .recent session limit => (.ok (state.journal.store.recent session limit), state)
  | .traces parent => (.ok (state.journal.store.traces parent), state)

/-- Serves a request, after reading the file if that has not been done. -/
def State.serveWith (encode : Encoder) (registrar : Registrar) (state : State) (request : Request) :
    Except Error request.Answer × State :=
  match load registrar state.disk state.journal with
  | (.error e, journal) => (.error e, { state with journal := journal })
  | (.ok (), journal) =>
    ({ state with journal := journal } : State).serveLoaded encode registrar request

/-- Serves a request whose values can be written. -/
def State.serve (registrar : Registrar) (state : State) (request : Request) :
    Except Error request.Answer × State :=
  state.serveWith Encoder.plain registrar request

end Journal

end ReAct.Memory

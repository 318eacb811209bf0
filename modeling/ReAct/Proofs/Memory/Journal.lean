import ReAct.Proofs.Dialogue
import ReAct.Proofs.Memory.Line
import ReAct.Proofs.Memory.Write

/-!
# The journal as a memory

A journal that is thrown away and opened again, as often as one likes, is the memory that lives in
one process.  What ties the two together is the file: at all times it consists of whole lines, and a
replay of them reaches the store of the process (`Follows`).  A request keeps that up because its
answer and its line come from the same store (`serve_follows`); opening the journal again loses only
what the file holds anyway.

## Main Definitions

* `Step`: a request with the names and times at hand, or a new journal on the same file
* `Step.Proper`: what programs can ask
* `run`: the exchanges of some steps, and the state behind them
* `Journal.State.Follows`: how a journal and a memory in the process belong together
-/

namespace ReAct.Memory

/-! ## Steps -/

/-- What happens to a memory: it serves a request, or it is thrown away and opened again. -/
inductive Step where
  | ask (registrar : Registrar) (request : Request)
  | reopen

/-- The values in a request are tables of the caller, which have no name twice. -/
def Request.Proper : Request → Prop
  | .createSession title => title.Distinct
  | .append _ _ entry => (Json.obj entry.additionalInfo).Distinct
  | .update _ fields => (Json.obj fields).Distinct
  | .recent _ _ => True
  | .traces _ => True

/-- A proper request, at a time that a clock can show. -/
def Step.Proper : Step → Prop
  | .ask registrar request => registrar.now.IsUniversal ∧ request.Proper
  | .reopen => True

/-- A request with its answer. -/
abbrev Served : Type :=
  Exchange Request fun request => Except Error request.Answer

section Run

variable {σ : Type}
  (serve : Registrar → σ → (request : Request) → Except Error request.Answer × σ)
  (reopen : σ → σ)

/-- What one step asks and gets, and the state that it leads to. -/
def act (state : σ) : Step → List Served × σ
  | .ask registrar request =>
    let (answer, next) := serve registrar state request
    ([⟨request, answer⟩], next)
  | .reopen => ([], reopen state)

/-- What some steps ask and get, and the state that they lead to. -/
def run : (state : σ) → List Step → List Served × σ
  | state, [] => ([], state)
  | state, step :: rest =>
    let (first, next) := act serve reopen state step
    let (more, last) := run next rest
    (first ++ more, last)

/-- A run may be interrupted anywhere. -/
theorem run_append (state : σ) (first second : List Step) :
    (run serve reopen state (first ++ second)).2 =
      (run serve reopen (run serve reopen state first).2 second).2 := by
  induction first generalizing state with
  | nil => rfl
  | cons step rest ih => exact ih _

end Run

/-- A memory in the process, which is never opened again. -/
def InProcess.run (memory : InProcess) (steps : List Step) : List Served × InProcess :=
  Memory.run InProcess.serve id memory steps

/-- At most one line was added to a text. -/
def GrowsByLine (old new : String) : Prop :=
  new = old ∨ ∃ line : String, Json.OneLine line.toList ∧ new = old ++ (line ++ "\n")

namespace Journal

/-- The state with another journal on the same file. -/
def State.reopen (state : State) : State :=
  { state with journal := { path := state.journal.path } }

/-- A journal, which is opened again whenever a step says so. -/
def State.run (state : State) (steps : List Step) : List Served × State :=
  Memory.run State.serve State.reopen state steps

/-- A journal at a path where no file is. -/
def State.fresh (path : String) : State :=
  { journal := { path := path } }

/-! ## A journal and a memory that belong together -/

variable {state : State} {memory : InProcess}

/-- The journal and the memory in the process have come the same way: the file consists of lines
from which a replay reaches the store of the memory, and what the journal has in the process is that
store as soon as it has read the file. -/
structure State.Follows (state : State) (memory : InProcess) : Prop where
  drawn : state.drawn = memory.drawn
  fault : state.disk.fault = none
  file : state.disk.file ≠ .directory
  store : state.journal.store = if state.journal.loaded then memory.store else {}
  text : ∃ ls : List (List Char), (∀ line ∈ ls, Json.OneLine line) ∧
    state.disk.file.content.toList = joined ls ∧
      ∀ now path, replay now path 1 {} ls = (memory.store, none)

/-- What a journal answered and became is what a memory in the process answered and became, and the
file has grown by a line at most since the given state. -/
def State.Matches (state : State) {α : Type} (served : Except Error α × State)
    (expected : Except Error α × InProcess) : Prop :=
  served.1 = expected.1 ∧ served.2.Follows expected.2 ∧
    GrowsByLine state.disk.file.content served.2.disk.file.content

theorem fresh_follows (path : String) : (State.fresh path).Follows {} where
  drawn := rfl
  fault := rfl
  file := by simp [State.fresh]
  store := rfl
  text := ⟨[], by simp, rfl, fun _ _ => rfl⟩

namespace State.Follows

/-- Folding the file reaches the store of the memory, whether a journal exists or not. -/
theorem replay_lines (h : state.Follows memory) (now : Moment) (path : String) :
    replay now path 1 {} (lines state.disk.file.content.toList) = (memory.store, none) := by
  obtain ⟨ls, hls, htext, hreplay⟩ := h.text
  rw [htext, lines_joined hls, hreplay]

/-- Any journal that is opened on the file takes the place of the one that wrote it. -/
theorem opened (h : state.Follows memory) (path : String) :
    ({ state with journal := { path := path } } : State).Follows memory where
  drawn := h.drawn
  fault := h.fault
  file := h.file
  store := rfl
  text := h.text

/-- A journal that reads its file has the store of the memory then. -/
theorem load_eq (h : state.Follows memory) (registrar : Registrar) :
    load registrar state.disk state.journal =
      (.ok (), { state.journal with store := memory.store, loaded := true }) := by
  have hstore := h.store
  have hfile := h.file
  have hreplay := h.replay_lines registrar.now state.journal.path
  obtain ⟨⟨path, store, loaded⟩, ⟨file, fault⟩, drawn⟩ := state
  cases loaded with
  | true =>
      cases hstore
      rfl
  -- Nothing is in the process yet, so the replay starts from the empty store.
  | false =>
      cases hstore
      cases file with
      | missing =>
          -- A missing file has no lines, and no store but the empty one comes from none.
          have hempty : ({} : Store) = memory.store := congrArg Prod.fst hreplay
          rw [← hempty]
          rfl
      | directory => exact absurd rfl hfile
      | text content =>
          simp only [load, LogFile.content] at hreplay ⊢
          simp [hreplay]

/-- A journal that has read its file follows the memory still. -/
theorem loaded (h : state.Follows memory) :
    ({ state with journal := { state.journal with store := memory.store, loaded := true } } :
      State).Follows memory where
  drawn := h.drawn
  fault := h.fault
  file := h.file
  store := rfl
  text := h.text

theorem drawing (h : state.Follows memory) (drawn : Nat) :
    ({ state with drawn := drawn } : State).Follows { memory with drawn := drawn } where
  drawn := rfl
  fault := h.fault
  file := h.file
  store := h.store
  text := h.text

/-- An answer that changes nothing. -/
theorem unchanged (h : state.Follows memory) {α : Type} (answer : Except Error α) :
    state.Matches (answer, state) (answer, memory) :=
  ⟨rfl, h, .inl rfl⟩

/-- **A change is kept, and its line is added to the file.** -/
theorem commit (h : state.Follows memory) (hloaded : state.journal.loaded = true) {line : Json}
    {changed : Store} (hline : Records line memory.store changed) (undo : Store) {α : Type}
    (answer : α) :
    state.Matches (state.commit Encoder.plain changed undo line answer)
      (.ok answer, { memory with store := changed }) := by
  obtain ⟨ls, hls, htext, hreplay⟩ := h.text
  unfold State.commit
  rw [write_eq_ok h.fault h.file]
  refine ⟨rfl, ⟨h.drawn, h.fault, ?_, ?_, ?_⟩, .inr ⟨line.print Json.spaced, ?_, rfl⟩⟩
  · simp
  · simp [State.withStore, hloaded]
  · refine ⟨ls ++ [Json.chars Json.spaced line], ?_, ?_, fun now path => ?_⟩
    · simpa [or_imp, forall_and] using ⟨hls, hline.oneLine⟩
    · rw [joined_snoc, ← htext]
      simp [LogFile.content, Json.print]
    · exact hline.replay_snoc (hreplay now path)
  · simpa [Json.print] using hline.oneLine

end State.Follows

/-! ## Requests and runs -/

variable {registrar : Registrar}

/-- A journal that has read its file serves a request as the memory in the process does. -/
theorem serveLoaded_matches (h : state.Follows memory) (hloaded : state.journal.loaded = true)
    (hnow : registrar.now.IsUniversal) {request : Request} (hrequest : request.Proper) :
    state.Matches (state.serveLoaded Encoder.plain registrar request)
      (memory.serve registrar request) := by
  have hstore : state.journal.store = memory.store := by simp [h.store, hloaded]
  have hdrawn := h.drawing (registrar.draw memory.drawn).2
  -- Both refuse the same requests; what one commits to the file, the other puts in its store.
  cases request with
  | createSession title =>
      rw [State.serveLoaded, InProcess.serve, h.drawn]
      dsimp only
      rw [hstore]
      exact hdrawn.commit hloaded (sessionLine_records _ _ hrequest) _ _
  | append session parent entry =>
      rw [State.serveLoaded, InProcess.serve, h.drawn]
      dsimp only
      rw [hstore]
      cases happend : memory.store.append
          ⟨entry, (registrar.draw memory.drawn).1, session, parent, registrar.now⟩ with
      | error e => exact hdrawn.unchanged _
      | ok changed =>
          have hentry : (Json.obj entry.additionalInfo).Distinct := hrequest
          exact hdrawn.commit hloaded (appendLine_records hnow hentry happend) _ _
  | update id fields =>
      rw [State.serveLoaded, InProcess.serve, hstore]
      cases hupdate : memory.store.update id fields with
      | error e => exact h.unchanged _
      | ok changed => exact h.commit hloaded (updateLine_records hrequest hupdate) _ _
  | recent session limit =>
      rw [State.serveLoaded, InProcess.serve, hstore]
      exact h.unchanged _
  | traces parent =>
      rw [State.serveLoaded, InProcess.serve, hstore]
      exact h.unchanged _

/-- A request is served alike, whether the file was read before or is read for it. -/
theorem serve_matches (h : state.Follows memory) (hnow : registrar.now.IsUniversal)
    {request : Request} (hrequest : request.Proper) :
    state.Matches (state.serve registrar request) (memory.serve registrar request) := by
  rw [State.serve, State.serveWith, h.load_eq registrar]
  exact serveLoaded_matches h.loaded rfl hnow hrequest

/-- What one step keeps: a journal and a memory that belong together answer alike and belong
together afterwards. -/
theorem act_follows (h : state.Follows memory) {step : Step} (hstep : step.Proper) :
    (act State.serve State.reopen state step).1 = (act InProcess.serve id memory step).1 ∧
      (act State.serve State.reopen state step).2.Follows (act InProcess.serve id memory step).2 ∧
      GrowsByLine state.disk.file.content
        (act State.serve State.reopen state step).2.disk.file.content := by
  cases step with
  | ask registrar request =>
      obtain ⟨hnow, hrequest⟩ := hstep
      obtain ⟨hanswer, hfollows, hgrows⟩ := serve_matches h hnow hrequest
      refine ⟨?_, hfollows, hgrows⟩
      exact congrArg (fun answer => [(⟨request, answer⟩ : Served)]) hanswer
  | reopen => exact ⟨rfl, h.opened state.journal.path, .inl rfl⟩

/-- What a run keeps, by induction on its steps. -/
theorem run_follows (h : state.Follows memory) {steps : List Step}
    (hsteps : ∀ step ∈ steps, step.Proper) :
    (state.run steps).1 = (memory.run steps).1 ∧
      (state.run steps).2.Follows (memory.run steps).2 := by
  induction steps generalizing state memory with
  | nil => exact ⟨rfl, h⟩
  | cons step rest ih =>
      obtain ⟨hstep, hrest⟩ := List.forall_mem_cons.mp hsteps
      obtain ⟨hanswer, hfollows, -⟩ := act_follows h hstep
      obtain ⟨hmore, hlast⟩ := ih hfollows hrest
      exact ⟨congrArg₂ (· ++ ·) hanswer hmore, hlast⟩

/-- With every step of a run the file grows by a line, or stays. -/
theorem run_grows (h : state.Follows memory) {steps : List Step}
    (hsteps : ∀ step ∈ steps, step.Proper) {before after : List Step} {step : Step}
    (hsplit : steps = before ++ step :: after) :
    GrowsByLine (state.run before).2.disk.file.content
      (state.run (before ++ [step])).2.disk.file.content := by
  subst hsplit
  -- The steps before lead to a journal and a memory that belong together; the rest is one step.
  obtain ⟨hbefore, hstep, -⟩ := by
    simpa only [List.forall_mem_append, List.forall_mem_cons] using hsteps
  obtain ⟨-, -, hgrows⟩ := act_follows (run_follows h hbefore).2 hstep
  unfold State.run
  rw [run_append]
  exact hgrows

/-- **A journal is the memory of one process.**  Whatever is asked of it, and however often it is
thrown away and opened again on its file, its answers are those of a memory in the process; whoever
opens the file and reads it has the sessions and interactions of that memory, in their order; and no
step does more to the file than add one line. -/
theorem State.run_eq_inProcess (path : String) (steps : List Step)
    (hsteps : ∀ step ∈ steps, step.Proper) :
    ((State.fresh path).run steps).1 = (InProcess.run {} steps).1 ∧
      (∀ registrar, load registrar ((State.fresh path).run steps).2.disk { path := path } =
        (.ok (), ⟨path, (InProcess.run {} steps).2.store, true⟩)) ∧
      ∀ before step after, steps = before ++ step :: after →
        GrowsByLine ((State.fresh path).run before).2.disk.file.content
          ((State.fresh path).run (before ++ [step])).2.disk.file.content := by
  obtain ⟨hanswers, hfollows⟩ := run_follows (fresh_follows path) hsteps
  refine ⟨hanswers, (hfollows.opened path).load_eq, fun before step after hsplit => ?_⟩
  exact run_grows (fresh_follows path) hsteps hsplit

/-- A session with one interaction, which is answered after the journal was opened again; one more
update names no interaction. -/
def interrupted : List Step :=
  let registrar : Registrar :=
    ⟨fun n => String.ofList (List.replicate n 'i'), ⟨2024, 2, 29, 12, 0, 0, 5, some 0⟩⟩
  [.ask registrar (.createSession (.str "Sums")),
    .ask registrar (.append "i" none { question := "1 + 1?" }), .reopen,
    .ask registrar (.update "ii" [("response", .str "2")]), .reopen,
    .ask registrar (.update "iii" []), .ask registrar (.recent "i" 10)]

theorem State.run_interrupted :
    (∀ step ∈ interrupted, step.Proper) ∧
      ((State.fresh "log").run interrupted).1 =
        [⟨.createSession (.str "Sums"), .ok "i"⟩,
          ⟨.append "i" none { question := "1 + 1?" }, .ok "ii"⟩,
          ⟨.update "ii" [("response", .str "2")], .ok ()⟩,
          ⟨.update "iii" [], .error (.unknownInteraction "iii")⟩,
          ⟨.recent "i" 10, .ok [⟨"1 + 1?", "2"⟩]⟩] := by
  have hnow : Moment.IsUniversal ⟨2024, 2, 29, 12, 0, 0, 5, some 0⟩ :=
    ⟨by decide, by decide, by decide, by decide, by decide, by decide, by decide, rfl⟩
  have hproper : ∀ step ∈ interrupted, step.Proper := by
    simp [interrupted, Step.Proper, Request.Proper, hnow, Fields.names]
  exact ⟨hproper, (State.run_eq_inProcess "log" interrupted hproper).1⟩

end Journal

end ReAct.Memory

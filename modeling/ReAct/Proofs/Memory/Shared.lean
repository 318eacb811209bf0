import Mathlib.Logic.Function.Basic
import ReAct.Proofs.Memory.Merge
import ReAct.Proofs.Memory.Unfinished

/-!
# Journals that share a file

Several programs may keep a journal on the same file.  Each reads the file once, when it is first
asked for something, and decides from then on by what it has in the process, which the others do not
keep up to date.  A line is written in one piece, but nothing else orders what the programs do.

The file is right all the same, whoever has a turn when (`Shared.run_merges`).  What a journal has
in the process is never more than what the file comes to (`Shared.Agrees.views`), so that every
change that it decides on can be entered behind the changes of all the others.

## Main Definitions

* `LogFile.Holds`: a file that holds the lines of some changes
* `Shared`: journals on one file
* `Turn`: a request to one of them, with the time and the fault that its write meets
* `Shared.run`: the changes that are granted in some turns, and what is there after them
* `Shared.Agrees`: how the journals and the file belong together
-/

namespace ReAct.Memory

/-! ## Files of whole lines -/

/-- The file holds the lines of some changes and can be read; a store has what they brought. -/
structure LogFile.Holds (file : LogFile) (changes : List Change) (store : Store) : Prop where
  readable : file ≠ .directory
  content : file.content.toList = joined (changes.map Change.chars)
  oneLine : ∀ change ∈ changes, Json.OneLine change.chars
  replayed : ∀ now path, replay now path 1 {} (changes.map Change.chars) = (store, none)
  merges : store.Merges changes

namespace LogFile

variable {file : LogFile} {changes : List Change} {change : Change} {store merged : Store}

theorem holds_missing : Holds .missing [] {} where
  readable := by simp
  content := rfl
  oneLine := by simp
  replayed _ _ := rfl
  merges := Store.merges_nil

/-- Whoever reads the file has the store then. -/
theorem Holds.load_new (h : file.Holds changes store) (reader : Registrar) (fault : Option String)
    (path : String) :
    Journal.load reader ⟨file, fault⟩ { path := path } = (.ok (), ⟨path, store, true⟩) := by
  refine Journal.load_new_iff.mpr ⟨h.readable, rfl, ?_⟩
  have hlines : lines (joined (changes.map Change.chars)) = changes.map Change.chars :=
    lines_joined (by simpa using h.oneLine)
  rw [h.content, hlines]
  exact h.replayed reader.now path

/-- One more line. -/
theorem Holds.add (h : file.Holds changes store) (hproper : change.Proper)
    (hmerged : change.enter store = .ok merged)
    (hfree : ∀ name, change.name? = some name → store.Free name) :
    (text (file.content ++ (change.line.print Json.spaced ++ "\n"))).Holds
      (changes ++ [change]) merged := by
  have hrecords := change.records hproper hmerged
  refine ⟨by simp, ?_, ?_, fun now path => ?_, h.merges.enter hmerged hfree⟩
  · rw [List.map_append, List.map_singleton, joined_snoc, ← h.content]
    simp [LogFile.content, Json.print, Change.chars]
  · simpa [or_imp, forall_and] using ⟨h.oneLine, hrecords.oneLine⟩
  · rw [List.map_append, List.map_singleton]
    exact hrecords.replay_snoc (h.replayed now path)

end LogFile

namespace Journal

variable {ι : Type}

/-! ## Turns -/

/-- Journals on one file, and how many names each of them has drawn. -/
structure Shared (ι : Type) where
  journal : ι → Journal
  drawn : ι → Nat
  file : LogFile := .missing

/-- A request to one of the journals, with the time at which it is served and the fault that writes
meet then, if they meet one. -/
structure Turn (ι : Type) where
  who : ι
  now : Moment
  fault : Option String := none
  request : Request

namespace Turn

/-- A proper request, at a time that a clock can show. -/
def Proper (turn : Turn ι) : Prop :=
  turn.now.IsUniversal ∧ turn.request.Proper

/-- Where the journal gets names and times from. -/
def registrar (identifier : ι → Nat → String) (turn : Turn ι) : Registrar :=
  ⟨identifier turn.who, turn.now⟩

/-- What a journal that has read the file makes of the request. -/
abbrev servedBy (identifier : ι → Nat → String) (turn : Turn ι) (state : State) :
    Except Error turn.request.Answer × State :=
  state.serveLoaded Encoder.plain (turn.registrar identifier) turn.request

/-- The change that the request has come to, if it was granted and is one for a change. -/
def change? (turn : Turn ι) : Except Error turn.request.Answer → Option Change
  | .ok answer => turn.request.change? turn.now answer
  | .error _ => none

end Turn

namespace Shared

/-- Journals at a path where no file is. -/
def fresh (path : String) : Shared ι where
  journal _ := { path := path }
  drawn _ := 0

/-- What the journal sees whose turn it is. -/
def seen (shared : Shared ι) (turn : Turn ι) : State where
  journal := shared.journal turn.who
  disk := ⟨shared.file, turn.fault⟩
  drawn := shared.drawn turn.who

/-- What is there after a turn, given what the journal sees then. -/
def after [DecidableEq ι] (shared : Shared ι) (turn : Turn ι) (next : State) : Shared ι where
  journal := Function.update shared.journal turn.who next.journal
  drawn := Function.update shared.drawn turn.who next.drawn
  file := next.disk.file

/-- What a turn does: the change that is granted, if one is, and what is there then. -/
def act [DecidableEq ι] (identifier : ι → Nat → String) (shared : Shared ι) (turn : Turn ι) :
    Option Change × Shared ι :=
  let (served, next) := (shared.seen turn).serve (turn.registrar identifier) turn.request
  (turn.change? served, shared.after turn next)

/-- What some turns do: the changes that are granted, in order, and what is there then. -/
def run [DecidableEq ι] (identifier : ι → Nat → String) :
    Shared ι → List (Turn ι) → List Change × Shared ι
  | shared, [] => ([], shared)
  | shared, turn :: rest =>
    let (change, next) := act identifier shared turn
    let (more, last) := run identifier next rest
    (change.toList ++ more, last)

/-- The file holds the changes that have been granted.  No journal has more in the process than they
have brought, and no name that is still to be drawn is in use. -/
structure Agrees (identifier : ι → Nat → String) (shared : Shared ι) (changes : List Change)
    (store : Store) : Prop where
  holds : shared.file.Holds changes store
  views : ∀ who, (shared.journal who).store.Within store
  unread : ∀ who, (shared.journal who).loaded = false → (shared.journal who).store = {}
  free : ∀ who n, shared.drawn who < n → store.Free (identifier who n)

variable {identifier : ι → Nat → String} {shared : Shared ι} {changes : List Change}
  {store merged : Store} {turn : Turn ι}

theorem fresh_agrees (path : String) : (fresh path).Agrees identifier [] {} where
  holds := LogFile.holds_missing
  views _ := Store.empty_within _
  unread _ _ := rfl
  free _ _ _ := ⟨rfl, by simp [Fields.names]⟩

/-- A journal that has a turn, when it has read the file. -/
structure Reads (shared : Shared ι) (turn : Turn ι) (store : Store) (state : State) : Prop where
  disk : state.disk = (shared.seen turn).disk
  drawn : state.drawn = shared.drawn turn.who
  view : state.journal.store.Within store
  loaded : state.journal.loaded = true

/-- A journal that has a turn has read the file, or reads it then. -/
theorem Agrees.serve_seen (h : shared.Agrees identifier changes store) (turn : Turn ι) :
    ∃ state, shared.Reads turn store state ∧
      (shared.seen turn).serve (turn.registrar identifier) turn.request =
        turn.servedBy identifier state := by
  obtain ⟨journal, hload, hview, hloaded⟩ : ∃ journal,
      load (turn.registrar identifier) (shared.seen turn).disk (shared.seen turn).journal =
          (.ok (), journal) ∧
        journal.store.Within store ∧ journal.loaded = true := by
    have hunread := h.unread turn.who
    have hview := h.views turn.who
    unfold seen
    dsimp only
    generalize shared.journal turn.who = journal at hunread hview ⊢
    obtain ⟨path, view, loaded⟩ := journal
    -- A journal that has not read the file reads it now; one that has goes on with its own view.
    cases loaded with
    | true => exact ⟨⟨path, view, true⟩, rfl, hview, rfl⟩
    | false =>
        cases hunread rfl
        exact ⟨_, h.holds.load_new _ _ path, Store.Within.refl store, rfl⟩
  exact ⟨{ shared.seen turn with journal := journal }, ⟨rfl, rfl, hview, hloaded⟩,
    serve_of_load hload turn.request⟩

/-! ## What a turn keeps -/

section Turns

variable [DecidableEq ι] {state next : State}

/-- What the other journals have stays as it is. -/
theorem Agrees.after (h : shared.Agrees identifier changes store) {more : List Change}
    (hwithin : store.Within merged) (hholds : next.disk.file.Holds more merged)
    (hview : next.journal.store.Within merged) (hloaded : next.journal.loaded = true)
    (hfree : ∀ who n, (shared.after turn next).drawn who < n → merged.Free (identifier who n)) :
    (shared.after turn next).Agrees identifier more merged where
  holds := hholds
  views := (Function.forall_update_iff shared.journal
    fun _ journal => journal.store.Within merged).mpr
      ⟨hview, fun who _ => (h.views who).trans hwithin⟩
  unread := (Function.forall_update_iff shared.journal
    fun _ journal => journal.loaded = false → journal.store = {}).mpr
      ⟨fun hnot => absurd hloaded (by simp [hnot]), fun who _ => h.unread who⟩
  free := hfree

/-- What is still to be drawn after a turn was still to be drawn before it. -/
theorem lt_of_drawn_after (hdrawn : shared.drawn turn.who ≤ next.drawn) {who : ι} {n : Nat}
    (h : (shared.after turn next).drawn who < n) :
    shared.drawn who < n ∧ (who = turn.who → next.drawn < n) := by
  unfold Shared.after at h
  dsimp only at h
  by_cases hwho : who = turn.who
  · subst hwho
    rw [Function.update_self] at h
    exact ⟨Nat.lt_of_le_of_lt hdrawn h, fun _ => h⟩
  · rw [Function.update_of_ne hwho] at h
    exact ⟨h, fun heq => absurd heq hwho⟩

/-- A turn that grants no change leaves the file alone. -/
theorem Agrees.after_nothing (h : shared.Agrees identifier changes store)
    (hreads : shared.Reads turn store state)
    (hnothing : turn.change? (turn.servedBy identifier state).1 = none) :
    (shared.after turn (turn.servedBy identifier state).2).Agrees identifier changes store := by
  have hnew := hreads.view.free (h.free turn.who _ (Nat.lt_succ_self (shared.drawn turn.who)))
  have hfresh : (turn.registrar identifier).Fresh state.drawn state.journal.store := by
    rw [hreads.drawn]
    exact ⟨hnew.session, hnew.interaction⟩
  obtain ⟨hjournal, hdisk⟩ := serveLoaded_leaves hfresh fun answer hserved => by
    rw [hserved] at hnothing
    exact hnothing
  obtain ⟨hdrawn, -⟩ := serveLoaded_draws state (turn.registrar identifier) turn.request
  rw [hreads.drawn] at hdrawn
  -- A turn without a change leaves the file; its journal may have been read, which adds nothing.
  refine h.after (Store.Within.refl store) ?_ ?_ ?_ fun who n hn => ?_
  · rw [hdisk, hreads.disk]
    exact h.holds
  · rw [hjournal]
    exact hreads.view
  · rw [hjournal]
    exact hreads.loaded
  · exact h.free who n (lt_of_drawn_after hdrawn hn).1

/-- A turn that grants a change enters it behind all others, whatever the journal does not know of
them. -/
theorem Agrees.after_change (h : shared.Agrees identifier changes store)
    (hidentifier : Function.Injective2 identifier) (hturn : turn.Proper)
    (hreads : shared.Reads turn store state) {change : Change}
    (hchange : turn.change? (turn.servedBy identifier state).1 = some change) :
    ∃ merged, (shared.after turn (turn.servedBy identifier state).2).Agrees identifier
      (changes ++ [change]) merged := by
  obtain ⟨hnow, hrequest⟩ := hturn
  obtain ⟨answer, hserved, hanswer⟩ : ∃ answer,
      (turn.servedBy identifier state).1 = .ok answer ∧
        turn.request.change? turn.now answer = some change := by
    cases hserved : (turn.servedBy identifier state).1 with
    | ok answer =>
        rw [hserved] at hchange
        exact ⟨answer, rfl, hchange⟩
    | error e =>
        rw [hserved] at hchange
        cases hchange
  have henters := serveLoaded_enters hserved hanswer
  obtain ⟨hdrawn, hdraws⟩ := serveLoaded_draws state (turn.registrar identifier) turn.request
  have hname := fun name => hdraws answer change name hserved hanswer
  rw [hreads.drawn] at hdrawn hname
  obtain ⟨merged, hmerged⟩ := Change.enter_of_within hreads.view henters.store
  refine ⟨merged, h.after (Change.within_enter hmerged) ?_ ?_ ?_ fun who n hn => ?_⟩
  · rw [henters.file, hreads.disk]
    refine h.holds.add (hrequest.change? hnow hanswer) hmerged fun name hsome => ?_
    rw [(hname name hsome).1]
    exact h.free _ _ (Nat.lt_succ_self _)
  · exact Change.enter_within hreads.view henters.store hmerged
  · rw [henters.journal]
    exact hreads.loaded
  -- The name of the change is drawn, and no other name is the same.
  · obtain ⟨hbefore, hown⟩ := lt_of_drawn_after hdrawn hn
    refine Change.enter_free hmerged (fun hsome => ?_) (h.free who n hbefore)
    obtain ⟨hsame, hlater⟩ := hname _ hsome
    obtain ⟨hwho, hnumber⟩ := hidentifier hsame
    have hn := hown hwho
    omega

/-- A turn keeps the agreement, whether it grants a change or none. -/
theorem act_agrees (hidentifier : Function.Injective2 identifier)
    (h : shared.Agrees identifier changes store) (hturn : turn.Proper) :
    ∃ merged, (act identifier shared turn).2.Agrees identifier
      (changes ++ (act identifier shared turn).1.toList) merged := by
  obtain ⟨state, hreads, hserve⟩ := h.serve_seen turn
  rw [act, hserve]
  dsimp only
  cases hchange : turn.change? (turn.servedBy identifier state).1 with
  | none =>
      rw [Option.toList_none, List.append_nil]
      exact ⟨store, h.after_nothing hreads hchange⟩
  | some change => exact h.after_change hidentifier hturn hreads hchange

/-- What a run keeps, by induction on its turns. -/
theorem run_agrees (hidentifier : Function.Injective2 identifier)
    (h : shared.Agrees identifier changes store) {turns : List (Turn ι)}
    (hturns : ∀ turn ∈ turns, turn.Proper) :
    ∃ merged, (run identifier shared turns).2.Agrees identifier
      (changes ++ (run identifier shared turns).1) merged := by
  induction turns generalizing shared changes store with
  | nil =>
      refine ⟨store, ?_⟩
      rw [run, List.append_nil]
      exact h
  | cons turn rest ih =>
      obtain ⟨hturn, hrest⟩ := List.forall_mem_cons.mp hturns
      obtain ⟨next, hnext⟩ := act_agrees hidentifier h hturn
      obtain ⟨merged, hmerged⟩ := ih hnext hrest
      rw [List.append_assoc] at hmerged
      exact ⟨merged, hmerged⟩

/-- **No journal loses what another one has written.**  Let several journals be kept on a file that
is not there at first, let each give names that no other one gives, and let them have turns in any
order.  Then at any time the file consists of one line for every change that was granted, in order,
and can be read by everyone.  What is read are all sessions that were created and all interactions
that were added, each of them once; and each field of each interaction has the value that it was
given by the last line that gives it one. -/
theorem run_merges (hidentifier : Function.Injective2 identifier) (path : String)
    (turns : List (Turn ι)) (hturns : ∀ turn ∈ turns, turn.Proper) :
    ∃ store,
      (∀ reader fault, load reader ⟨(run identifier (fresh path) turns).2.file, fault⟩
        { path := path } = (.ok (), ⟨path, store, true⟩)) ∧
      (run identifier (fresh path) turns).2.file.content.toList =
        joined ((run identifier (fresh path) turns).1.map Change.chars) ∧
      store.Merges (run identifier (fresh path) turns).1 := by
  obtain ⟨store, hagrees⟩ := run_agrees hidentifier (fresh_agrees path) hturns
  rw [List.nil_append] at hagrees
  have hholds := hagrees.holds
  exact ⟨store, fun reader fault => hholds.load_new reader fault path, hholds.content,
    hholds.merges⟩

end Turns

/-- Names of two journals. -/
def names (first : Bool) (n : Nat) : String :=
  String.ofList ((if first then 'a' else 'b') :: List.replicate n 'i')

theorem names_injective : Function.Injective2 names := by
  intro first second m n h
  obtain ⟨hfirst, hreplicate⟩ := List.cons_eq_cons.mp (String.ofList_injective h)
  refine ⟨?_, by simpa using congrArg List.length hreplicate⟩
  cases first <;> cases second <;> simp_all

/-- Two journals that look at the file before anything is written, and never learn of each other. -/
def apart : List (Turn Bool) :=
  [⟨true, tally.now, none, .recent "" 0⟩, ⟨false, tally.now, none, .recent "" 0⟩,
    ⟨true, tally.now, none, .createSession (.str "Sums")⟩,
    ⟨false, tally.now, none, .createSession .null⟩,
    ⟨true, tally.now, none, .append "ai" none { question := some "1 + 1?" }⟩,
    ⟨false, tally.now, none, .append "ai" none {}⟩,
    ⟨true, tally.now, none, .update "aii" [("response", .str "2")]⟩,
    ⟨true, tally.now, some "No space left on device", .update "aii" [("response", .str "3")]⟩]

theorem changes_apart : (run names (fresh "log") apart).1 =
    [.session "ai" (.str "Sums"), .session "bi" .null,
      .interaction ⟨{ question := some "1 + 1?" }, "aii", "ai", none, tally.now⟩,
      .fields "aii" [("response", .str "2")]] := by
  rfl

/-- Both find their sessions in the file, and the answer that was written. -/
theorem run_merges_apart :
    Function.Injective2 names ∧ (∀ turn ∈ apart, turn.Proper) ∧ ∃ store,
      (∀ reader fault, load reader ⟨(run names (fresh "log") apart).2.file, fault⟩
        { path := "log" } = (.ok (), ⟨"log", store, true⟩)) ∧
      store.sessions = [(.str "ai", .str "Sums"), (.str "bi", .null)] ∧
      store.interactions.names = ["aii"] ∧
      ∀ interaction, store.interactions.get? "aii" = some interaction →
        interaction.entry.question = some "1 + 1?" ∧ interaction.entry.response = some "2" := by
  have hproper : ∀ turn ∈ apart, turn.Proper := by
    simp [apart, Turn.Proper, Request.Proper, tally_universal, Json.Distinct.null, Fields.names]
  obtain ⟨store, hload, -, hmerges⟩ := run_merges names_injective "log" apart hproper
  rw [changes_apart] at hmerges
  refine ⟨names_injective, hproper, store, hload, hmerges.sessions, hmerges.interactions, ?_⟩
  intro interaction hget
  have hfields := hmerges.fields "aii" interaction hget
  exact ⟨(Option.some.inj (hfields .question)).symm, (Option.some.inj (hfields .response)).symm⟩

end Shared

end Journal

end ReAct.Memory

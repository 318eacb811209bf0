import ReAct.Proofs.Memory.Line
import ReAct.Proofs.Memory.Store
import ReAct.Proofs.Session.Memory

/-!
# The memory behind a session

A session does not see the store of its memory; it only gets answers.  Here the memory is one that
lives in the process: a request that it serves changes its store, one that fails does not.  So the
requests of a session and their answers say what has become of the store (`stored_of_remembers`).

## Main Definitions

* `Remembers`: the stores before and after a history
* `MemoryServes`: a history in which memory never fails
* `place`, `withAnswer`: where an interaction stands and what it holds, and one with an answer
-/

namespace ReAct.Session

open Memory (Store Interaction)

/-- What an event makes of the store of a memory.  A request may fail for any reason, and then it
changes nothing; what is added has a new name. -/
def Remembered : Event → Store → Store → Prop
  | ⟨.memory request, answer⟩, store, next =>
    match (answer : Except Failure request.Answer) with
    | .error _ => next = store
    | .ok value => ∃ (registrar : Memory.Registrar) (memory : Memory.InProcess),
        (registrar.draw memory.drawn).1 ∉ store.interactions.names ∧ memory.store = store ∧
          (memory.serve registrar request).1 = .ok value ∧
            (memory.serve registrar request).2.store = next
  | _, store, next => next = store

/-- What a history makes of the store of a memory. -/
def Remembers : Store → History → Store → Prop
  | store, [], after => after = store
  | store, event :: rest, after => ∃ next, Remembered event store next ∧ Remembers next rest after

/-- Whether memory does not fail in an event. -/
def isServed : Event → Bool
  | ⟨.memory request, answer⟩ =>
    match (answer : Except Failure request.Answer) with
    | .error _ => false
    | .ok _ => true
  | _ => true

/-- Memory never fails in a history. -/
def MemoryServes (history : History) : Prop :=
  ∀ event ∈ history, isServed event = true

/-- Where an interaction stands, and what it holds. -/
def place (interaction : Interaction) : String × Option String × Memory.Entry :=
  (interaction.session, interaction.parent, interaction.entry)

/-- An interaction with an answer entered, and what is reported with it. -/
def withAnswer (interaction : Interaction) (answer : String) (info : Fields (List String)) :
    Interaction :=
  { interaction with
    entry := { interaction.entry with
      response := some answer
      additionalInfo := infoMembers info } }

theorem remembered_of_silent {event : Event} {store next : Store}
    (h : Remembered event store next) (hsilent : memoryRequest? event = none) : next = store := by
  obtain ⟨request, answer⟩ := event
  cases request with
  | memory request => cases hsilent
  | _ => exact h

/-- Where memory is asked nothing, nothing becomes of its store. -/
theorem remembers_of_silent {history : History} {store after : Store}
    (h : Remembers store history after) (hsilent : memoryRequests history = []) :
    after = store := by
  induction history generalizing store with
  | nil => exact h
  | cons event rest ih =>
      obtain ⟨next, hevent, hrest⟩ := h
      have hnone := List.filterMap_eq_nil_iff.mp hsilent
      rw [List.forall_mem_cons] at hnone
      obtain rfl := remembered_of_silent hevent hnone.1
      exact ih hrest (List.filterMap_eq_nil_iff.mpr hnone.2)

theorem remembered_append {conversation root id : String} {entry : Memory.Entry}
    {store next : Store}
    (h : Remembered ⟨.memory (.append conversation (some root) entry), .ok id⟩ store next) :
    ∃ interaction, place interaction = (conversation, some root, entry) ∧
      id ∉ store.interactions.names ∧ root ∈ store.interactions.names ∧
        next = { store with interactions := store.interactions ++ [(id, interaction)] } := by
  obtain ⟨registrar, memory, hfresh, rfl, hserved, rfl⟩ := h
  rw [Memory.InProcess.serve] at hserved ⊢
  cases hadded : memory.store.append ⟨entry, (registrar.draw memory.drawn).1, conversation,
      some root, registrar.now⟩ with
  | error e => simp [hadded] at hserved
  | ok store =>
      simp only [hadded] at hserved ⊢
      cases hserved
      obtain ⟨-, hparent, rfl⟩ := Store.append_eq_ok.mp hadded
      exact ⟨_, rfl, hfresh, hparent root rfl, by rw [Fields.put_of_notMem _ hfresh]⟩

theorem remembered_update {id : String} {fields : Fields Json} {store next : Store}
    (h : Remembered ⟨.memory (.update id fields), .ok ()⟩ store next) :
    ∃ interaction revised, store.interactions.get? id = some interaction ∧
      interaction.revise fields = .valid revised ∧
        next = { store with interactions := store.interactions.put id revised } := by
  obtain ⟨registrar, memory, -, rfl, hserved, rfl⟩ := h
  rw [Memory.InProcess.serve] at hserved ⊢
  cases hchanged : memory.store.update id fields with
  | error e => simp [hchanged] at hserved
  | ok store => exact Store.update_eq_ok.mp hchanged

/-- What has become of a store that has been asked for new interactions and then for a revision. -/
theorem stored_of_remembers {conversation root : String} {fields : Fields Json} {after : Store}
    {history : History} :
    ∀ {store : Store} {entries : List Memory.Entry}, Remembers store history after →
      MemoryServes history →
        memoryRequests history =
            entries.map (fun entry => .append conversation (some root) entry) ++
              [.update root fields] →
          ∃ (added : Fields Interaction) (interaction revised : Interaction),
            added.values.map place =
                entries.map (fun entry => (conversation, some root, entry)) ∧
              (entries ≠ [] → root ∈ store.interactions.names) ∧
              Fields.get? (store.interactions ++ added) root = some interaction ∧
              interaction.revise fields = .valid revised ∧
              after.interactions = Fields.put (store.interactions ++ added) root revised := by
  induction history with
  | nil =>
      intro store entries _ _ hrequests
      simp at hrequests
  | cons event rest ih =>
      intro store entries h hserves hrequests
      obtain ⟨next, hevent, hrest⟩ := h
      obtain ⟨hserved, hservesRest⟩ := List.forall_mem_cons.mp hserves
      cases hrequest : memoryRequest? event with
      -- By induction on the history: silent events are skipped, each entry adds a record behind the
      -- ones there, and the update comes last.
      | none =>
          obtain rfl := remembered_of_silent hevent hrequest
          rw [memoryRequests, List.filterMap_cons_none hrequest] at hrequests
          exact ih hrest hservesRest hrequests
      | some request =>
          obtain ⟨answer, rfl⟩ := memoryRequest?_eq_some.mp hrequest
          obtain ⟨value, rfl⟩ : ∃ value, answer = .ok value := by
            cases answer with
            | error failure => cases hserved
            | ok value => exact ⟨value, rfl⟩
          rw [memoryRequests, List.filterMap_cons_some hrequest] at hrequests
          cases entries with
          | nil =>
              obtain ⟨rfl, hnone⟩ := List.cons.inj hrequests
              obtain ⟨interaction, revised, hfound, hrevised, rfl⟩ := remembered_update hevent
              obtain rfl := remembers_of_silent hrest hnone
              exact ⟨[], interaction, revised, rfl, by simp, by simpa using hfound, hrevised,
                by simp⟩
          | cons entry entries =>
              obtain ⟨rfl, hmore⟩ := List.cons.inj hrequests
              obtain ⟨interaction, hplace, hfresh, hroot, rfl⟩ := remembered_append hevent
              obtain ⟨added, old, revised, hadded, -, hold, hrevised, hafter⟩ :=
                ih hrest hservesRest hmore
              refine ⟨(value, interaction) :: added, old, revised, ?_, fun _ => hroot, ?_, hrevised,
                ?_⟩
              · simpa [Fields.values, hplace] using hadded
              · simpa using hold
              · simpa using hafter

/-- The answer revises the response of an interaction and what is reported with it, and nothing
else. -/
theorem revise_answerFields (interaction : Interaction) (progress : Progress) (answer : String) :
    interaction.revise (Plan.answerFields progress answer) =
      .valid (withAnswer interaction answer progress.additionalInfo) := by
  have hinfo : Record.defaulted (Plan.answerFields progress answer) "additional_info"
      interaction.entry.additionalInfo (Record.table Record.any) =
        .valid (infoMembers progress.additionalInfo) :=
    congrArg (Record.Checked.under "additional_info") (Memory.membersOf_any _)
  unfold Interaction.revise Memory.Entry.checkOver
  rw [hinfo]
  rfl

/-- **What a session leaves in memory.**  If memory never fails, a session that records its steps
and returns has added one interaction for every step of its trace and one for its answer, all of
them under the interaction that it works on and in that order; and it has entered its answer
there. -/
theorem stored_of_run {plan : Plan} {progress : Progress} {result : Result} {history : History}
    {conversation root : String} (hplace : plan.tracePlace? = some (conversation, root))
    (h : plan.run.Yields history (progress, .ok result)) {before after : Store}
    (hremembers : Remembers before history after) (hserves : MemoryServes history) :
    ∃ (added : Fields Interaction) (interaction : Interaction),
      (root, interaction) ∈ before.interactions ∧
        after.interactions = Fields.put before.interactions root
            (withAnswer interaction result.finalAnswer progress.additionalInfo) ++ added ∧
        added.values.map place =
          (progress.trace.map TraceStep.entry ++
            [plan.answerEntry progress result.finalAnswer]).map
              fun entry => (conversation, some root, entry) := by
  obtain ⟨added, interaction, revised, hadded, hroot, hfound, hrevised, hafter⟩ :=
    stored_of_remembers hremembers hserves (Plan.memoryRequests_of_run hplace h)
  -- An entry was appended under the root, so the root was there before.
  have hmem : root ∈ before.interactions.names := hroot (by simp)
  rw [Fields.get?_append_of_mem hmem] at hfound
  rw [revise_answerFields] at hrevised
  cases hrevised
  rw [Fields.put_append_of_mem _ hmem] at hafter
  exact ⟨added, interaction, Fields.mem_of_get? hfound, hafter, hadded⟩

end ReAct.Session

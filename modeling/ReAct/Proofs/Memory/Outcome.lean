import ReAct.Proofs.Memory.Change
import ReAct.Proofs.Memory.Store
import ReAct.Proofs.Memory.Write

/-!
# What comes of a request to a journal

A journal that has read its file answers from its store, or refuses before it has changed anything,
or commits a change.  There is no other way (`outcome_serveLoaded`), and what else is known of a
request follows from that.  A request that is granted has entered its change into the store and
added the line to the file (`serveLoaded_enters`).  Of one that is refused nothing stays if that is
a failure of memory: the names that were drawn for it are new, and what was added under them is
removed, and an interaction that was updated is put back in its place (`serveLoaded_refused`).

## Main Definitions

* `Registrar.Fresh`: the next identifier names nothing in a store
* `Request.intended?`: the change that a request is to make
* `Journal.Outcome`: what comes of a request
* `Journal.State.Enters`: a journal before and after a change
-/

namespace ReAct.Memory

/-- The next identifier that is drawn names nothing in a store. -/
structure Registrar.Fresh (registrar : Registrar) (drawn : Nat) (store : Store) : Prop where
  session : store.hasSession (registrar.draw drawn).1 = false
  interaction : (registrar.draw drawn).1 ∉ store.interactions.names

/-- The change that a request is to make, under the next name that is drawn. -/
def Request.intended? (registrar : Registrar) (drawn : Nat) : Request → Option Change
  | .createSession title => change? registrar.now (.createSession title) (registrar.draw drawn).1
  | .append session parent entry =>
    change? registrar.now (.append session parent entry) (registrar.draw drawn).1
  | .update id values => change? registrar.now (.update id values) ()
  | .recent _ _ => none
  | .traces _ => none

namespace Store

/-- A session that is new is taken back by removing it. -/
theorem removeSession_addSession {store : Store} {id : String} (title : Json)
    (h : store.hasSession id = false) :
    (store.addSession (.str id) title).removeSession (.str id) = store := by
  obtain ⟨sessions, interactions⟩ := store
  have hsame : sameSession (.str id) (.str id) = true := by simp [sameSession, SessionName.of?]
  have hrestored : (putSession (.str id) title sessions).filter
      (fun s => !sameSession s.1 (.str id)) = sessions := by
    induction sessions with
    | nil => simp [putSession, hsame]
    | cons first rest ih =>
        obtain ⟨known, old⟩ := first
        rw [hasSession, List.any_cons, Bool.or_eq_false_iff] at h
        obtain ⟨hknown, hrest⟩ := h
        rw [putSession, if_neg (by simp [hknown]), List.filter_cons_of_pos (by simp [hknown]),
          ih hrest]
  exact congrArg (Store.mk · interactions) hrestored

/-- An interaction that is new is taken back by removing it. -/
theorem erase_append {store changed : Store} {interaction : Interaction}
    (h : store.append interaction = .ok changed)
    (hfresh : interaction.id ∉ store.interactions.names) :
    { changed with interactions := changed.interactions.erase interaction.id } = store := by
  obtain ⟨-, -, rfl⟩ := append_eq_ok.mp h
  exact congrArg (Store.mk store.sessions) (Fields.erase_put_of_notMem interaction hfresh)

/-- An interaction that was updated is put back in its place. -/
theorem restore_update {store changed : Store} {id : String} {fields : Fields Json}
    (h : store.update id fields = .ok changed) :
    changed.restore id (store.interactions.get? id) = store := by
  obtain ⟨interaction, revised, hfound, -, rfl⟩ := update_eq_ok.mp h
  rw [hfound]
  exact congrArg (Store.mk store.sessions)
    ((Fields.put_put _ _ _ _).trans (Fields.put_of_get? hfound))

end Store

namespace Journal

/-! ## What comes of a request -/

/-- What comes of a request to a journal that has read its file: an answer from the store, a refusal
before anything has changed, or a change that is committed.  What undoes the change gives the store
back if the next name is new to it. -/
inductive Outcome (encode : Encoder) (registrar : Registrar) (state : State) (request : Request) :
    Except Error request.Answer × State → Prop
  | answered {answer : request.Answer}
      (hidle : ∀ answer, request.change? registrar.now answer = none) :
      Outcome encode registrar state request (.ok answer, state)
  | refused {e : Error} {drawn : Nat} (hkind : e.kind = .memory) (hdrawn : state.drawn ≤ drawn) :
      Outcome encode registrar state request (.error e, { state with drawn := drawn })
  | committed {change : Change} {changed undo : Store} {answer : request.Answer} {drawn : Nat}
      (hchange : request.change? registrar.now answer = some change)
      (hintended : request.intended? registrar state.drawn = some change)
      (henter : change.enter state.journal.store = .ok changed)
      (hundo : registrar.Fresh state.drawn state.journal.store → undo = state.journal.store)
      (hdrawn : state.drawn ≤ drawn)
      (hname : ∀ name, change.name? = some name →
        name = registrar.identifier (state.drawn + 1) ∧ state.drawn < drawn) :
      Outcome encode registrar state request
        (({ state with drawn := drawn } : State).commit encode changed undo change.line answer)

/-- There is no other way in which a request can come out. -/
theorem outcome_serveLoaded (encode : Encoder) (registrar : Registrar) (state : State)
    (request : Request) :
    Outcome encode registrar state request (state.serveLoaded encode registrar request) := by
  -- What creates something draws a name, even where it is refused.
  cases request with
  | createSession title =>
      refine @Outcome.committed encode registrar state _ (.session _ title) _ _ _ _ rfl rfl rfl
        (fun hfresh => Store.removeSession_addSession title hfresh.session) (Nat.le_succ _) ?_
      rintro _ ⟨⟩
      exact ⟨rfl, Nat.lt_succ_self _⟩
  | append session parent entry =>
      rw [State.serveLoaded]
      dsimp only
      cases happend : state.journal.store.append
          ⟨entry, (registrar.draw state.drawn).1, session, parent, registrar.now⟩ with
      | error e => exact .refused (Store.kind_of_append happend) (Nat.le_succ _)
      | ok changed =>
          refine @Outcome.committed encode registrar state _ (.interaction _) _ _ _ _ rfl rfl
            happend (fun hfresh => Store.erase_append happend hfresh.interaction) (Nat.le_succ _) ?_
          rintro _ ⟨⟩
          exact ⟨rfl, Nat.lt_succ_self _⟩
  | update id values =>
      rw [State.serveLoaded]
      cases hupdate : state.journal.store.update id values with
      | error e => exact .refused (Store.kind_of_update hupdate) (Nat.le_refl _)
      | ok changed =>
          refine @Outcome.committed encode registrar state (.update id values) (.fields id values)
            _ _ () _ rfl rfl hupdate (fun _ => Store.restore_update hupdate) (Nat.le_refl _) ?_
          rintro _ ⟨⟩
  | recent session limit => exact .answered fun _ => rfl
  | traces parent => exact .answered fun _ => rfl

variable {encode : Encoder} {state : State} {registrar : Registrar} {request : Request} {e : Error}

/-- A journal that has read its file has read it afterwards. -/
theorem loaded_serveLoaded (encode : Encoder) (state : State) (registrar : Registrar)
    (request : Request) :
    (state.serveLoaded encode registrar request).2.journal.loaded = state.journal.loaded := by
  have houtcome := outcome_serveLoaded encode registrar state request
  generalize state.serveLoaded encode registrar request = served at houtcome ⊢
  cases houtcome with
  | answered => rfl
  | refused => rfl
  | committed => exact State.loaded_commit _ _ _ _ _ _

/-! ## Requests that are refused -/

/-- **What a journal that has read its file keeps of a request that it refuses**: nothing, if that
is a failure of memory. -/
theorem serveLoaded_refused (hfresh : registrar.Fresh state.drawn state.journal.store)
    (h : (state.serveLoaded encode registrar request).1 = .error e) (hkind : e.kind = .memory) :
    (state.serveLoaded encode registrar request).2.journal = state.journal := by
  have houtcome := outcome_serveLoaded encode registrar state request
  generalize state.serveLoaded encode registrar request = served at h houtcome ⊢
  cases houtcome with
  | answered => cases h
  | refused => rfl
  | committed _ _ _ hundo => exact State.commit_undone h (hundo hfresh) hkind

/-- Where every line can be put into writing, a journal that has read its file refuses with failures
of memory only, and leaves the disk alone. -/
theorem serveLoaded_refused_plain
    (h : (state.serveLoaded Encoder.plain registrar request).1 = .error e) :
    e.kind = .memory ∧
      (state.serveLoaded Encoder.plain registrar request).2.disk = state.disk := by
  have houtcome := outcome_serveLoaded Encoder.plain registrar state request
  generalize state.serveLoaded Encoder.plain registrar request = served at h houtcome ⊢
  cases houtcome with
  | answered => cases h
  | refused hkind =>
      cases h
      exact ⟨hkind, rfl⟩
  | committed => exact State.commit_refused h

/-! ## Requests that are granted -/

/-- A journal before and after a change: the change is in the store, and its line in the file. -/
structure State.Enters (before : State) (change : Change) (after : State) : Prop where
  store : change.enter before.journal.store = .ok after.journal.store
  journal : after.journal = { before.journal with store := after.journal.store }
  file : after.disk.file =
    .text (before.disk.file.content ++ (change.line.print Json.spaced ++ "\n"))

/-- A change that is granted is in the store of the process and, as the last line, in the file. -/
theorem State.commit_enters (state : State) (change : Change) {changed undo : Store} {α : Type}
    {value granted : α} (henter : change.enter state.journal.store = .ok changed)
    (h : (state.commit Encoder.plain changed undo change.line value).1 = .ok granted) :
    granted = value ∧
      state.Enters change (state.commit Encoder.plain changed undo change.line value).2 := by
  unfold State.commit at h ⊢
  split at h
  · rename_i disk hwrite
    cases h
    obtain rfl := disk_of_write hwrite
    exact ⟨rfl, henter, rfl, rfl⟩
  · cases h

/-- **A journal that grants a request has entered its change.** -/
theorem serveLoaded_enters {answer : request.Answer} {change : Change}
    (h : (state.serveLoaded Encoder.plain registrar request).1 = .ok answer)
    (hchange : request.change? registrar.now answer = some change) :
    state.Enters change (state.serveLoaded Encoder.plain registrar request).2 := by
  have houtcome := outcome_serveLoaded Encoder.plain registrar state request
  generalize state.serveLoaded Encoder.plain registrar request = served at h houtcome ⊢
  cases houtcome with
  | answered hidle =>
      rw [hidle] at hchange
      cases hchange
  | refused => cases h
  | @committed made _ _ _ drawn hmade _ henter =>
      obtain ⟨rfl, henters⟩ := State.commit_enters { state with drawn := drawn } made henter h
      obtain rfl := Option.some.inj (hmade.symm.trans hchange)
      exact { henters with }

/-- **A journal that is not asked for a change, or refuses it, leaves everything as it is.** -/
theorem serveLoaded_leaves (hfresh : registrar.Fresh state.drawn state.journal.store)
    (h : ∀ answer, (state.serveLoaded Encoder.plain registrar request).1 = .ok answer →
      request.change? registrar.now answer = none) :
    (state.serveLoaded Encoder.plain registrar request).2.journal = state.journal ∧
      (state.serveLoaded Encoder.plain registrar request).2.disk = state.disk := by
  cases hserved : (state.serveLoaded Encoder.plain registrar request).1 with
  | error e =>
      obtain ⟨hkind, hdisk⟩ := serveLoaded_refused_plain hserved
      exact ⟨serveLoaded_refused hfresh hserved hkind, hdisk⟩
  | ok answer =>
      have hnone := h answer hserved
      have houtcome := outcome_serveLoaded Encoder.plain registrar state request
      generalize state.serveLoaded Encoder.plain registrar request = served at hserved houtcome ⊢
      cases houtcome with
      | answered => exact ⟨rfl, rfl⟩
      | refused => cases hserved
      | @committed made _ _ _ drawn hmade _ henter =>
          obtain ⟨rfl, -⟩ :=
            State.commit_enters { state with drawn := drawn } made henter hserved
          rw [hmade] at hnone
          cases hnone

/-- No name is drawn twice: a change introduces the next one, if it introduces one, and what was
drawn is not put back. -/
theorem serveLoaded_draws (state : State) (registrar : Registrar) (request : Request) :
    state.drawn ≤ (state.serveLoaded Encoder.plain registrar request).2.drawn ∧
      ∀ answer change name, (state.serveLoaded Encoder.plain registrar request).1 = .ok answer →
        request.change? registrar.now answer = some change → change.name? = some name →
          name = registrar.identifier (state.drawn + 1) ∧
            state.drawn < (state.serveLoaded Encoder.plain registrar request).2.drawn := by
  have houtcome := outcome_serveLoaded Encoder.plain registrar state request
  generalize state.serveLoaded Encoder.plain registrar request = served at houtcome ⊢
  cases houtcome with
  | answered hidle =>
      refine ⟨Nat.le_refl _, fun answer change name _ hchange => ?_⟩
      rw [hidle] at hchange
      cases hchange
  | refused _ hdrawn => exact ⟨hdrawn, nofun⟩
  | @committed made _ _ _ drawn hmade _ henter _ hdrawn hname =>
      rw [State.drawn_commit]
      refine ⟨hdrawn, fun answer change name hserved hchange hintroduced => ?_⟩
      obtain ⟨rfl, -⟩ := State.commit_enters { state with drawn := drawn } made henter hserved
      obtain rfl := Option.some.inj (hmade.symm.trans hchange)
      exact hname name hintroduced

/-- A request that is granted has found the file read. -/
theorem load_of_serve {state : State} {registrar : Registrar} {request : Request}
    {answer : request.Answer} (h : (state.serve registrar request).1 = .ok answer) :
    ∃ journal, load registrar state.disk state.journal = (.ok (), journal) := by
  unfold State.serve State.serveWith at h
  split at h
  · cases h
  · rename_i journal hload
    exact ⟨journal, hload⟩

theorem serve_of_load {state : State} {registrar : Registrar} {journal : Journal}
    (h : load registrar state.disk state.journal = (.ok (), journal)) (request : Request) :
    state.serve registrar request =
      ({ state with journal := journal } : State).serveLoaded Encoder.plain registrar request := by
  rw [State.serve, State.serveWith, h]

/-! ## A file with one session -/

/-- A journal on a file that it has not read. -/
def State.unread (content : String) : State where
  journal := { path := "log" }
  disk := { file := .text content }

/-- The line of a session, as a file holds it. -/
def sessionText : String := (sessionLine "s" .null).print Json.spaced ++ "\n"

/-- A source of names, and a clock. -/
def tally : Registrar :=
  ⟨fun n => String.ofList (List.replicate n 'i'), ⟨2024, 2, 29, 12, 0, 0, 5, some 0⟩⟩

/-- The store of that file. -/
def sessionStore : Store := { sessions := [(.str "s", .null)] }

theorem load_unread :
    load tally (State.unread sessionText).disk (State.unread sessionText).journal =
      (.ok (), ⟨"log", sessionStore, true⟩) := by
  rfl

/-- The lines before one that stops the reading stay in the process. -/
theorem load_unread_broken : load tally (State.unread (sessionText ++ "-")).disk
    (State.unread (sessionText ++ "-")).journal =
      (.error (.corrupt "log" 2), ⟨"log", sessionStore, false⟩) := by
  rfl

theorem tally_fresh : tally.Fresh 0 sessionStore :=
  ⟨by decide, by decide⟩

end Journal

end ReAct.Memory

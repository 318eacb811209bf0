import ReAct.Proofs.Memory.Field
import ReAct.Proofs.Memory.Journal
import ReAct.Proofs.Memory.Outcome

/-!
# Interactions and where they belong

An interaction is kept under its own name, belongs to a session that is there, and if it traces
another interaction, that one is there and belongs to the same session.  A store where this is so
(`Store.Intact`) stays that way as long as nobody adds a trace to an interaction of another session,
and nobody updates an interaction so that it does not belong where it is any more; and if anybody
does, it is no longer so (`InProcess.run_intact_iff`).  Neither is refused.  Memory looks for the
session and the parent of an interaction when it is added, but it does not compare sessions, and it
looks for nothing when a field gets another value.

## Main Definitions

* `Store.Intact`: a store whose interactions are where they belong
* `Store.Takes`: what an interaction needs to be put under a name
* `Request.Keeps`: the requests after which a store is intact that was so before
* `InProcess.Keeping`: some steps, each of which keeps the store that it finds intact
-/

namespace ReAct.Memory

namespace Store

/-- Every interaction is under its own name, in a session that is there, and under an interaction of
the same session, if it has a parent. -/
structure Intact (store : Store) : Prop where
  named : ∀ id interaction, store.interactions.get? id = some interaction → interaction.id = id
  seated : ∀ id interaction, store.interactions.get? id = some interaction →
    store.hasSession interaction.session = true
  rooted : ∀ id interaction parent, store.interactions.get? id = some interaction →
    interaction.parent = some parent →
      ∃ root, store.interactions.get? parent = some root ∧ root.session = interaction.session

/-- A store takes an interaction under a name: the name is its own, its session is there, its parent
is there and belongs to that session, and so does everything that traces what is under the name. -/
structure Takes (store : Store) (id : String) (new : Interaction) : Prop where
  named : new.id = id
  seated : store.hasSession new.session = true
  rooted : ∀ parent, new.parent = some parent → parent ≠ id →
    ∃ root, store.interactions.get? parent = some root ∧ root.session = new.session
  followed : ∀ name trace, name ≠ id → store.interactions.get? name = some trace →
    trace.parent = some id → trace.session = new.session

theorem intact_empty : Intact {} where
  named id interaction h := by cases h
  seated id interaction h := by cases h
  rooted id interaction parent h := by cases h

variable {store : Store} {id : String} {new : Interaction}

/-- A store stays intact if it takes what is put.  What was there before has its parent and its
session still, under the same names. -/
theorem Takes.intact_put (h : store.Intact) (htakes : store.Takes id new) :
    Intact { store with interactions := store.interactions.put id new } := by
  have hself := Fields.get?_put_self store.interactions id new
  refine ⟨?_, ?_, ?_⟩
  · intro name interaction hget
    rcases Fields.get?_put_eq_some.mp hget with ⟨rfl, rfl⟩ | ⟨-, hold⟩
    · exact htakes.named
    · exact h.named name interaction hold
  · intro name interaction hget
    rcases Fields.get?_put_eq_some.mp hget with ⟨rfl, rfl⟩ | ⟨-, hold⟩
    · exact htakes.seated
    · exact h.seated name interaction hold
  · intro name interaction parent hget hparent
    -- The parent may be what is put, and so may the interaction itself.
    by_cases hroot : parent = id
    · subst hroot
      refine ⟨new, hself, ?_⟩
      rcases Fields.get?_put_eq_some.mp hget with ⟨-, rfl⟩ | ⟨hname, hold⟩
      · rfl
      · exact (htakes.followed name interaction hname hold hparent).symm
    · obtain ⟨root, hfound, hsession⟩ : ∃ root, store.interactions.get? parent = some root ∧
          root.session = interaction.session := by
        rcases Fields.get?_put_eq_some.mp hget with ⟨-, rfl⟩ | ⟨-, hold⟩
        · exact htakes.rooted parent hparent hroot
        · exact h.rooted name interaction parent hold hparent
      exact ⟨root, Fields.get?_put_eq_some.mpr (.inr ⟨hroot, hfound⟩), hsession⟩

/-- If it is intact afterwards, it took what was put. -/
theorem takes_of_intact_put
    (h : Intact { store with interactions := store.interactions.put id new }) :
    store.Takes id new := by
  have hself := Fields.get?_put_self store.interactions id new
  refine ⟨h.named id new hself, h.seated id new hself, ?_, ?_⟩
  · intro parent hparent hne
    obtain ⟨root, hroot, hsession⟩ := h.rooted id new parent hself hparent
    rcases Fields.get?_put_eq_some.mp hroot with ⟨rfl, -⟩ | ⟨-, hold⟩
    · exact absurd rfl hne
    · exact ⟨root, hold, hsession⟩
  · intro name trace hne htrace hparent
    obtain ⟨root, hroot, hsession⟩ :=
      h.rooted name trace id (Fields.get?_put_eq_some.mpr (.inr ⟨hne, htrace⟩)) hparent
    cases hself.symm.trans hroot
    exact hsession.symm

/-- **An intact store stays intact exactly if it takes what is put into it.** -/
theorem Intact.put_iff (h : store.Intact) :
    Intact { store with interactions := store.interactions.put id new } ↔ store.Takes id new :=
  ⟨takes_of_intact_put, Takes.intact_put h⟩

/-- A name that is not in use has no traces. -/
theorem Intact.parent_ne (h : store.Intact) (hid : id ∉ store.interactions.names) {name : String}
    {trace : Interaction} (htrace : store.interactions.get? name = some trace) :
    trace.parent ≠ some id := by
  intro hparent
  obtain ⟨root, hroot, -⟩ := h.rooted name trace id htrace hparent
  exact hid (Fields.mem_names_of_get? hroot)

/-- A new session points nowhere. -/
theorem Intact.addSession (h : store.Intact) (name : String) (title : Json) :
    (store.addSession (.str name) title).Intact where
  named := h.named
  seated id interaction hget := hasSession_addSession.mpr (.inr (h.seated id interaction hget))
  rooted := h.rooted

end Store

/-! ## Requests -/

/-- The requests that keep a store intact.  A trace must go to an interaction of its own session, if
it is added; and an interaction must be taken as it is after an update, if it is updated. -/
def Request.Keeps (store : Store) : Request → Prop
  | .createSession _ => True
  | .append session parent _ => store.hasSession session = true →
      ∀ name root, parent = some name → store.interactions.get? name = some root →
        root.session = session
  | .update id values => ∀ old new, store.interactions.get? id = some old →
      old.revise values = .valid new → store.Takes id new
  | .recent _ _ => True
  | .traces _ => True

namespace Store.Intact

variable {store changed : Store}

/-- A new interaction belongs where it is added exactly if its parent is of the same session. -/
theorem append_iff (h : store.Intact) {added : Interaction}
    (hnew : added.id ∉ store.interactions.names) (happend : store.append added = .ok changed) :
    changed.Intact ↔ ∀ name root, added.parent = some name →
      store.interactions.get? name = some root → root.session = added.session := by
  obtain ⟨hsession, hparent, rfl⟩ := append_eq_ok.mp happend
  rw [h.put_iff]
  constructor
  · intro htakes name root hname hroot
    have hne : name ≠ added.id := by
      rintro rfl
      exact hnew (Fields.mem_names_of_get? hroot)
    obtain ⟨found, hfound, hsame⟩ := htakes.rooted name hname hne
    cases hroot.symm.trans hfound
    exact hsame
  · intro hkeeps
    refine ⟨rfl, hsession, fun name hname _ => ?_, fun name trace _ htrace hsome => ?_⟩
    · obtain ⟨root, hroot⟩ := Fields.exists_get?_of_mem_names (hparent name hname)
      exact ⟨root, hroot, hkeeps name root hname hroot⟩
    · exact absurd hsome (h.parent_ne hnew htrace)

/-- An update leaves everything where it belongs exactly if the interaction is taken as it is
then. -/
theorem update_iff (h : store.Intact) {id : String} {values : Fields Json}
    (hupdate : store.update id values = .ok changed) :
    changed.Intact ↔ (Request.update id values).Keeps store := by
  obtain ⟨old, new, hold, hrevised, rfl⟩ := update_eq_ok.mp hupdate
  rw [h.put_iff]
  constructor
  · intro htakes known result hknown hresult
    cases hold.symm.trans hknown
    cases hrevised.symm.trans hresult
    exact htakes
  · intro hkeeps
    exact hkeeps old new hold hrevised

/-- An update that says nothing about where an interaction belongs keeps a store intact. -/
theorem keeps_update (h : store.Intact) {id : String} {values : Fields Json}
    (hid : values.get? "interaction_id" = none)
    (hsession : values.get? "session_id" = none) (hparent : values.get? "parent_id" = none) :
    (Request.update id values).Keeps store := by
  intro old new hold hrevised
  have hkept (field : Field) (habsent : values.get? field.name = none) :
      field.of old = field.of new := by
    rcases Interaction.revise_eq_valid_iff.mp hrevised field with ⟨v, hgiven, -⟩ | ⟨-, hsame⟩
    · rw [habsent] at hgiven
      cases hgiven
    · exact hsame
  have hsameId : old.id = new.id := hkept .id hid
  have hsameSession : old.session = new.session := hkept .session hsession
  have hsameParent : old.parent = new.parent := hkept .parent hparent
  -- Since id, session and parent stay, so does what the invariant says of each.
  refine ⟨?_, ?_, ?_, ?_⟩
  · rw [← hsameId]
    exact h.named id old hold
  · rw [← hsameSession]
    exact h.seated id old hold
  · intro parent hsome _
    rw [← hsameSession]
    exact h.rooted id old parent hold (hsameParent.trans hsome)
  · intro name trace _ htrace hsome
    obtain ⟨root, hroot, hsame⟩ := h.rooted name trace id htrace hsome
    rw [hold] at hroot
    cases hroot
    rw [← hsame, hsameSession]

end Store.Intact

namespace InProcess

variable {memory : InProcess} {registrar : Registrar}

/-- **What one request keeps.** -/
theorem serve_intact_iff (h : memory.store.Intact)
    (hnew : registrar.identifier (memory.drawn + 1) ∉ memory.store.interactions.names)
    (request : Request) :
    (memory.serve registrar request).2.store.Intact ↔ request.Keeps memory.store := by
  cases request with
  | createSession title =>
      exact iff_of_true (h.addSession _ title) trivial
  | append session parent entry =>
      rw [serve]
      dsimp only
      cases happend : memory.store.append
          ⟨entry, (registrar.draw memory.drawn).1, session, parent, registrar.now⟩ with
      | error e =>
          -- What the store refuses is no trace of an interaction, wherever that belongs.
          refine iff_of_true h fun hsession name root hname hroot => ?_
          have hparents (other : String) (hother : parent = some other) :
              other ∈ memory.store.interactions.names := by
            cases hname.symm.trans hother
            exact Fields.mem_names_of_get? hroot
          have hok : memory.store.append
              ⟨entry, (registrar.draw memory.drawn).1, session, parent, registrar.now⟩ = .ok _ :=
            Store.append_eq_ok.mpr ⟨hsession, hparents, rfl⟩
          rw [happend] at hok
          cases hok
      | ok changed =>
          obtain ⟨hsession, -, -⟩ := Store.append_eq_ok.mp happend
          rw [h.append_iff hnew happend]
          exact ⟨fun hall _ => hall, fun hkeeps => hkeeps hsession⟩
  | update id values =>
      rw [serve]
      cases hupdate : memory.store.update id values with
      | error e =>
          refine iff_of_true h fun old new hold hrevised => ?_
          have hok := Store.update_eq_ok.mpr ⟨old, new, hold, hrevised, rfl⟩
          rw [hupdate] at hok
          cases hok
      | ok changed => exact h.update_iff hupdate
  | recent session limit => exact iff_of_true h trivial
  | traces parent => exact iff_of_true h trivial

end InProcess

/-! ## Runs -/

/-- The step draws its names from a given source. -/
def Step.DrawsFrom (identifier : Nat → String) : Step → Prop
  | .ask registrar _ => registrar.identifier = identifier
  | .reopen => True

/-- The step keeps a store intact. -/
def Step.Keeps (store : Store) : Step → Prop
  | .ask _ request => request.Keeps store
  | .reopen => True

namespace InProcess

/-- Every step keeps the store intact that it finds. -/
def Keeping : InProcess → List Step → Prop
  | _, [] => True
  | memory, step :: rest =>
    step.Keeps memory.store ∧ Keeping (act InProcess.serve id memory step).2 rest

variable {memory : InProcess} {identifier : Nat → String}

/-- What one step keeps. -/
theorem act_intact_iff (h : memory.store.Intact) (hunused : memory.Unused identifier) {step : Step}
    (hstep : step.DrawsFrom identifier) :
    (act InProcess.serve id memory step).2.store.Intact ↔ step.Keeps memory.store := by
  cases step with
  | ask registrar request =>
      refine serve_intact_iff h ?_ request
      have hidentifier : registrar.identifier = identifier := hstep
      rw [hidentifier]
      exact hunused _ (Nat.lt_succ_self _)
  | reopen => exact iff_of_true h trivial

/-- A request uses up the names that it draws, and no other ones. -/
theorem act_unused (hidentifier : Function.Injective identifier)
    (hunused : memory.Unused identifier) {step : Step} (hstep : step.DrawsFrom identifier) :
    (act InProcess.serve id memory step).2.Unused identifier := by
  cases step with
  | ask registrar request => exact hunused.serve hidentifier hstep request
  | reopen => exact hunused

/-- What a run keeps, by induction on its steps. -/
theorem intact_run_iff (hidentifier : Function.Injective identifier) (h : memory.store.Intact)
    (hunused : memory.Unused identifier) {steps : List Step}
    (hsteps : ∀ step ∈ steps, step.DrawsFrom identifier) :
    (∀ before, before <+: steps → (memory.run before).2.store.Intact) ↔ memory.Keeping steps := by
  induction steps generalizing memory with
  | nil =>
      refine iff_of_true (fun before hbefore => ?_) trivial
      rw [List.prefix_nil.mp hbefore]
      exact h
  | cons step rest ih =>
      obtain ⟨hstep, hrest⟩ := List.forall_mem_cons.mp hsteps
      have hact := act_intact_iff h hunused hstep
      have hnext := act_unused hidentifier hunused hstep
      -- The prefixes of a run are the empty one, and the first step before those of the rest.
      constructor
      · intro hall
        have hkeeps := hact.mp (hall [step] (List.prefix_append [step] rest))
        refine ⟨hkeeps, (ih (hact.mpr hkeeps) hnext hrest).mp fun before hbefore => ?_⟩
        exact hall (step :: before) (List.cons_prefix_cons.mpr ⟨rfl, hbefore⟩)
      · rintro ⟨hkeeps, hkeeping⟩ before hbefore
        rcases List.prefix_cons_iff.mp hbefore with rfl | ⟨more, rfl, hmore⟩
        · exact h
        · exact (ih (hact.mpr hkeeps) hnext hrest).mpr hkeeping more hmore

/-- **When a memory keeps things where they belong.**  Let a memory in the process start empty, and
let its names be drawn from a source that gives none twice.  Then in every state that it comes
through, every interaction is under its own name, in a session that is there, and under an
interaction of the same session, if it has a parent, exactly if no step adds a trace to an
interaction of another session, and none updates an interaction so that it, or what traces it, does
not belong where it is. -/
theorem run_intact_iff (hidentifier : Function.Injective identifier) (steps : List Step)
    (hsteps : ∀ step ∈ steps, step.DrawsFrom identifier) :
    (∀ before, before <+: steps → (InProcess.run {} before).2.store.Intact) ↔
      InProcess.Keeping {} steps :=
  intact_run_iff hidentifier Store.intact_empty (fun _ _ => by simp [Fields.names]) hsteps

open Journal (tally)

theorem tally_injective : Function.Injective tally.identifier := by
  intro m n h
  simpa using congrArg List.length (String.ofList_injective h)

/-- A session with an interaction and a trace of it. -/
def traced : List Step :=
  [.ask tally (.createSession (.str "Sums")), .ask tally (.append "i" none {}),
    .ask tally (.append "i" (some "ii") {})]

/-- The interaction is answered, too. -/
def answered : List Step :=
  traced ++ [.ask tally (.update "ii" [("response", .str "2")])]

theorem draws_answered : ∀ step ∈ answered, step.DrawsFrom tally.identifier := by
  simp [answered, traced, Step.DrawsFrom]

theorem keeping_traced : Keeping {} traced := by
  refine ⟨trivial, fun _ name root hname => (by cases hname), ?_, trivial⟩
  intro _ name root hname hroot
  cases hname
  cases hroot
  rfl

/-- A trace and an answer leave an interaction where it belongs. -/
theorem run_intact_answered :
    Function.Injective tally.identifier ∧
      (∀ step ∈ answered, step.DrawsFrom tally.identifier) ∧ Keeping {} answered ∧
        ∀ before, before <+: answered → (InProcess.run {} before).2.store.Intact := by
  have htraced := (run_intact_iff tally_injective traced fun step hstep =>
    draws_answered step (List.mem_append_left _ hstep)).mpr keeping_traced traced List.prefix_rfl
  obtain ⟨hsession, hroot, htrace, -⟩ := keeping_traced
  have hkeeping : Keeping {} answered :=
    ⟨hsession, hroot, htrace, htraced.keeps_update rfl rfl rfl, trivial⟩
  exact ⟨tally_injective, draws_answered, hkeeping,
    (run_intact_iff tally_injective answered draws_answered).mpr hkeeping⟩

/-- Neither updates alone nor traces alone are kept from taking things out of their places. -/
theorem not_forall_run_intact :
    (¬ ∀ (identifier : Nat → String) (steps : List Step), Function.Injective identifier →
      (∀ step ∈ steps, step.DrawsFrom identifier) →
      (∀ registrar session parent entry,
        Step.ask registrar (.append session (some parent) entry) ∉ steps) →
      (InProcess.run {} steps).2.store.Intact) ∧
      ¬ ∀ (identifier : Nat → String) (steps : List Step), Function.Injective identifier →
        (∀ step ∈ steps, step.DrawsFrom identifier) →
        (∀ registrar id values, Step.ask registrar (.update id values) ∉ steps) →
        (InProcess.run {} steps).2.store.Intact := by
  constructor
  · intro hintact
    have hmoved := hintact tally.identifier
      [.ask tally (.createSession .null), .ask tally (.append "i" none {}),
        .ask tally (.update "ii" [("session_id", .str "nope")])]
      tally_injective (by simp [Step.DrawsFrom]) (by simp)
    exact absurd (hmoved.seated "ii" _ rfl) (by decide)
  · intro hintact
    have hcrossing := hintact tally.identifier
      [.ask tally (.createSession .null), .ask tally (.createSession .null),
        .ask tally (.append "i" none {}), .ask tally (.append "ii" (some "iii") {})]
      tally_injective (by simp [Step.DrawsFrom]) (by simp)
    obtain ⟨root, hroot, hsession⟩ := hcrossing.rooted "iiii" _ "iii" rfl rfl
    cases hroot
    exact absurd hsession (by decide)

end InProcess

end ReAct.Memory

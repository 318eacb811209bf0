import ReAct.Memory.Request
import ReAct.Proofs.Fields

/-!
# What a request does to a store

The requests that change a store, by what they need and what they leave behind: a session that is
added is there, besides those that were (`hasSession_addSession`), an interaction is added to a
session and under a parent that are there (`append_eq_ok`), and an interaction that is there is
revised in its place (`update_eq_ok`).  Interactions are added under the names that are drawn for
them (`InProcess.mem_names_serve`), so that no name is used twice if the source gives none twice
(`InProcess.Unused.serve`).
-/

namespace ReAct.Memory.Store

open Record

/-- What an interaction needs: its session, and its parent if it names one. -/
theorem append_eq_ok {store changed : Store} {interaction : Interaction} :
    store.append interaction = .ok changed ↔
      store.hasSession interaction.session = true ∧
        (∀ parent, interaction.parent = some parent → parent ∈ store.interactions.names) ∧
          changed = { store with
            interactions := store.interactions.put interaction.id interaction } := by
  unfold append
  cases hsession : store.hasSession interaction.session with
  | false => simp
  | true =>
      cases hparent : interaction.parent with
      | none =>
          simp
          exact eq_comm
      | some parent =>
          simp only [← Fields.has_iff_mem_names]
          cases hhas : store.interactions.has parent with
          | false => simp [hhas]
          | true =>
              simp [hhas]
              exact eq_comm

/-- What an update needs: the interaction, and values that its fields take. -/
theorem update_eq_ok {store changed : Store} {id : String} {fields : Fields Json} :
    store.update id fields = .ok changed ↔
      ∃ interaction revised, store.interactions.get? id = some interaction ∧
        interaction.revise fields = .valid revised ∧
          changed = { store with interactions := store.interactions.put id revised } := by
  unfold update
  cases hfound : store.interactions.get? id with
  | none => simp
  | some interaction =>
      cases hrevised : interaction.revise fields with
      | faulty issues => simp [hrevised]
      | valid revised =>
          simp [hrevised]
          exact eq_comm

/-- A refused interaction is a failure of memory. -/
theorem kind_of_append {store : Store} {interaction : Interaction} {e : Error}
    (h : store.append interaction = .error e) : e.kind = .memory := by
  unfold append at h
  repeat' split at h
  all_goals cases h
  all_goals rfl

/-- So is a refused update. -/
theorem kind_of_update {store : Store} {id : String} {fields : Fields Json} {e : Error}
    (h : store.update id fields = .error e) : e.kind = .memory := by
  unfold update at h
  repeat' split at h
  all_goals cases h
  all_goals rfl

/-- The sessions of a text are those that are named by it. -/
theorem sameSession_str {v : Json} {s : String} :
    sameSession v (.str s) = true ↔ SessionName.of? v = some (.text s) := by
  unfold sameSession
  cases SessionName.of? v with
  | none => simp
  | some name => simp [SessionName.of?]

/-- Behind a new session there are that one and the earlier ones. -/
theorem hasSession_addSession {store : Store} {name other : String} {title : Json} :
    (store.addSession (.str name) title).hasSession other = true ↔
      other = name ∨ store.hasSession other = true := by
  have hself : sameSession (.str name) (.str other) = true ↔ other = name := by
    rw [sameSession_str]
    simp [SessionName.of?, eq_comm]
  obtain ⟨sessions, interactions⟩ := store
  unfold addSession hasSession
  dsimp only
  induction sessions with
  | nil => simp [putSession, hself]
  | cons first rest ih =>
      obtain ⟨known, old⟩ := first
      rw [putSession]
      split
      · rename_i hknown
        -- The title is written in place: the names are what they were, and the new one is there.
        have hname : SessionName.of? known = some (.text name) := sameSession_str.mp hknown
        simp only [List.any_cons, Bool.or_eq_true, sameSession_str, hname]
        constructor
        · exact .inr
        · rintro (rfl | h)
          · exact .inl rfl
          · exact h
      · rw [List.any_cons, List.any_cons, Bool.or_eq_true, Bool.or_eq_true]
        exact (or_congr_right ih).trans or_left_comm

/-- A new session comes last. -/
theorem putSession_of_new {store : Store} {name : String} (title : Json)
    (h : store.hasSession name = false) :
    putSession (.str name) title store.sessions = store.sessions ++ [(.str name, title)] := by
  obtain ⟨sessions, interactions⟩ := store
  unfold hasSession at h
  dsimp only at h ⊢
  induction sessions with
  | nil => rfl
  | cons first rest ih =>
      obtain ⟨known, old⟩ := first
      rw [List.any_cons, Bool.or_eq_false_iff] at h
      obtain ⟨hknown, hrest⟩ := h
      rw [putSession, if_neg (by simp [hknown]), ih hrest]
      rfl

/-- Where nothing is traced under an interaction, what is added under it is what is traced, if its
numbers rise. -/
theorem traces_of_append {before after : Store} {added : Fields Interaction} {root : String}
    {interaction revised : Interaction} (hmem : (root, interaction) ∈ before.interactions)
    (hafter : after.interactions = Fields.put before.interactions root revised ++ added)
    (hparent : revised.parent = interaction.parent)
    (hadded : ∀ new ∈ added.values, new.parent = some root)
    (hsorted : (added.values.map fun new => new.entry.traceNumber.getD 0).Pairwise (· ≤ ·))
    (hbefore : before.traces root = []) : after.traces root = added.values := by
  -- No interaction stood under the root before, so its traces are the added ones.
  have hnone : ∀ old ∈ before.interactions, old.2.parent ≠ some root := by
    intro old hold heq
    have hlength := congrArg List.length hbefore
    rw [traces, List.length_mergeSort, List.length_nil, List.length_eq_zero_iff,
      List.filter_eq_nil_iff] at hlength
    exact hlength old.2 (List.mem_map_of_mem hold) (by simp [heq])
  have hkept : (Fields.put before.interactions root revised).values.filter
      (fun i => i.parent == some root) = [] := by
    rw [List.filter_eq_nil_iff]
    intro kept hkept
    obtain ⟨entry, hentry, rfl⟩ := List.mem_map.mp hkept
    rcases Fields.mem_put hentry with rfl | hold
    · simpa [hparent] using hnone _ hmem
    · simpa using hnone entry hold
  have hnew : added.values.filter (fun i => i.parent == some root) = added.values :=
    List.filter_eq_self.mpr fun new hnew => by simp [hadded new hnew]
  rw [traces, hafter, Fields.values, List.map_append, List.filter_append]
  rw [Fields.values] at hkept hnew
  rw [hkept, hnew, List.nil_append]
  refine List.mergeSort_of_pairwise ?_
  rw [Fields.values, List.pairwise_map] at hsorted
  exact hsorted.imp fun h => decide_eq_true h

end ReAct.Memory.Store

namespace ReAct.Memory.InProcess

/-! ## Names that a memory draws -/

/-- Names are drawn and never given back. -/
theorem drawn_le_serve (registrar : Registrar) (memory : InProcess) (request : Request) :
    memory.drawn ≤ (memory.serve registrar request).2.drawn := by
  cases request with
  | createSession title => exact Nat.le_succ _
  | append session parent entry =>
      rw [serve]
      dsimp only
      cases memory.store.append
          ⟨entry, (registrar.draw memory.drawn).1, session, parent, registrar.now⟩ with
      | error e => exact Nat.le_succ _
      | ok changed => exact Nat.le_succ _
  | update id values =>
      rw [serve]
      cases memory.store.update id values with
      | error e => exact Nat.le_refl _
      | ok changed => exact Nat.le_refl _
  | recent session limit => exact Nat.le_refl _
  | traces parent => exact Nat.le_refl _

/-- The only name under which a request adds an interaction is the one that is drawn for it. -/
theorem mem_names_serve {registrar : Registrar} {memory : InProcess} {request : Request}
    {id : String} (h : id ∈ (memory.serve registrar request).2.store.interactions.names) :
    id ∈ memory.store.interactions.names ∨
      id = registrar.identifier (memory.drawn + 1) ∧
        memory.drawn < (memory.serve registrar request).2.drawn := by
  -- Only an append brings a name, and it is the next one drawn.
  cases request with
  | createSession title => exact .inl h
  | append session parent entry =>
      rw [serve] at h ⊢
      dsimp only at h ⊢
      cases happend : memory.store.append
          ⟨entry, (registrar.draw memory.drawn).1, session, parent, registrar.now⟩ with
      | error e =>
          rw [happend] at h
          exact .inl h
      | ok changed =>
          rw [happend] at h
          obtain ⟨-, -, rfl⟩ := Store.append_eq_ok.mp happend
          rcases Fields.mem_names_put.mp h with rfl | hold
          · exact .inr ⟨rfl, Nat.lt_succ_self _⟩
          · exact .inl hold
  | update id values =>
      rw [serve] at h
      cases hupdate : memory.store.update id values with
      | error e =>
          rw [hupdate] at h
          exact .inl h
      | ok changed =>
          rw [hupdate] at h
          obtain ⟨interaction, revised, hfound, -, rfl⟩ := Store.update_eq_ok.mp hupdate
          rcases Fields.mem_names_put.mp h with rfl | hold
          · exact .inl (Fields.mem_names_of_get? hfound)
          · exact .inl hold
  | recent session limit => exact .inl h
  | traces parent => exact .inl h

/-- None of the names that are still to be drawn is that of an interaction. -/
def Unused (identifier : Nat → String) (memory : InProcess) : Prop :=
  ∀ n, memory.drawn < n → identifier n ∉ memory.store.interactions.names

/-- A request uses no name but the one that is drawn for it. -/
theorem Unused.serve {identifier : Nat → String} {memory : InProcess} {registrar : Registrar}
    (h : memory.Unused identifier)
    (hidentifier : Function.Injective identifier) (hregistrar : registrar.identifier = identifier)
    (request : Request) : (memory.serve registrar request).2.Unused identifier := by
  intro n hn hmem
  have hdrawn := drawn_le_serve registrar memory request
  rcases mem_names_serve hmem with hold | ⟨hname, hlater⟩
  · exact h n (Nat.lt_of_le_of_lt hdrawn hn) hold
  · rw [hregistrar] at hname
    have hsame := hidentifier hname
    omega

end ReAct.Memory.InProcess

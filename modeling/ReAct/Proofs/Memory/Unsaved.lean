import ReAct.Json.Limits
import ReAct.Proofs.Memory.Outcome
import ReAct.Proofs.Memory.Replay

/-!
# What a failed request leaves behind

Whatever a request to a journal fails of, the text of the file is what it was.  What the process has
depends on where the request failed (`State.serveWith_failed`).

* If the file could not be read, the process has what the lines before the faulty one gave.
* If it failed afterwards, as a failure of memory, the process has what it had, or what reading the
  file has just given.
* If the line of the change could not be put into writing, the failure is none of memory, so nothing
  takes the change back: the process has it, and the file does not.

## Main Definitions

* `Encoder.within`: the encoder of an interpreter with limits
-/

namespace ReAct.Memory

open Text

namespace Journal

variable {encode : Encoder} {state : State} {registrar : Registrar} {request : Request} {e : Error}

/-! ## The file -/

theorem content_of_written {disk next : Disk} {journal : Journal} {line : Json}
    (h : Written encode disk journal line (.error e) next) :
    next.file.content = disk.file.content := by
  cases h with
  | refused text => rfl
  | unwritten hencode => rfl

theorem State.content_of_commit {changed undo : Store} {line : Json} {α : Type} {answer : α}
    (h : (state.commit encode changed undo line answer).1 = .error e) :
    (state.commit encode changed undo line answer).2.disk.file.content =
      state.disk.file.content := by
  have hwritten := written_write encode state.disk state.journal line
  unfold State.commit at h ⊢
  split at h
  · cases h
  · rename_i hwrite
    rw [hwrite] at hwritten
    exact content_of_written hwritten

/-- A request that fails has not written to the file. -/
theorem content_of_serveLoaded (h : (state.serveLoaded encode registrar request).1 = .error e) :
    (state.serveLoaded encode registrar request).2.disk.file.content =
      state.disk.file.content := by
  have houtcome := outcome_serveLoaded encode registrar state request
  generalize state.serveLoaded encode registrar request = served at h houtcome ⊢
  cases houtcome with
  | answered => cases h
  | refused => rfl
  | committed => exact State.content_of_commit h

/-! ## The process -/

/-- **A change that could not be put into writing stays in the process.** -/
theorem serveLoaded_raised (h : (state.serveLoaded encode registrar request).1 = .error e)
    (hkind : e.kind ≠ .memory) :
    ∃ change, request.intended? registrar state.drawn = some change ∧
      change.enter state.journal.store =
        .ok (state.serveLoaded encode registrar request).2.journal.store := by
  have houtcome := outcome_serveLoaded encode registrar state request
  generalize state.serveLoaded encode registrar request = served at h houtcome ⊢
  cases houtcome with
  | answered => cases h
  | refused hmemory =>
      cases h
      exact absurd hmemory hkind
  | committed _ hintended henter =>
      refine ⟨_, hintended, henter.trans (congrArg Except.ok ?_)⟩
      -- Only a failure of memory makes the journal take the change back.
      rw [State.commit_failed h, if_neg hkind]

/-- A file that cannot be read stops at a line, and what was folded before stays. -/
theorem load_stops {fault : Error} {journal : Journal} {content : String}
    (h : load registrar state.disk state.journal = (.error fault, journal))
    (hfile : state.disk.file = .text content) :
    ∃ before line rest why, lines content.toList = before ++ line :: rest ∧
      replay registrar.now state.journal.path 1 state.journal.store before =
        (journal.store, none) ∧
      foldLine registrar.now journal.store line = .error why := by
  unfold load at h
  rw [hfile] at h
  split at h
  · cases h
  · dsimp only at h
    split at h
    · cases h
    · rename_i reached _ hreplay
      cases h
      obtain ⟨before, line, after, why, hlines, hbefore, hline, -⟩ := replay_stops_iff.mp hreplay
      exact ⟨before, line, after, why, hlines, hbefore, hline⟩

/-- A file that is a directory is not read at all. -/
theorem load_directory {fault : Error} {journal : Journal}
    (h : load registrar state.disk state.journal = (.error fault, journal))
    (hfile : state.disk.file = .directory) : journal = state.journal := by
  unfold load at h
  rw [hfile] at h
  split at h
  · cases h
  · exact (congrArg Prod.snd h).symm

/-- **What a failed request leaves behind.**  Whatever the file holds, whatever state the journal is
in, whatever is asked of it and whatever can be put into writing: if the request fails, the text of
the file is what it was, and

* if reading the file failed, the process has what was folded before the faulty line, or what it had
  if there was no file but a directory;
* if reading the file did not fail, or was done before, and the failure is one of memory, the
  process has what it had when the file had been read, the order included;
* if the failure is none of memory, the change is in the process.

So a journal that had read its file has what it had exactly if the failure is one of memory, or the
change makes no difference. -/
theorem State.serveWith_failed
    (hfresh : registrar.Fresh state.drawn (load registrar state.disk state.journal).2.store)
    (h : (state.serveWith encode registrar request).1 = .error e) :
    let after := (state.serveWith encode registrar request).2
    let read := load registrar state.disk state.journal
    after.disk.file.content = state.disk.file.content ∧
      (∀ fault, read.1 = .error fault →
        (state.disk.file = .directory → after.journal = state.journal) ∧
        ∀ content, state.disk.file = .text content →
          ∃ before line rest why, lines content.toList = before ++ line :: rest ∧
            replay registrar.now state.journal.path 1 state.journal.store before =
              (after.journal.store, none) ∧
            foldLine registrar.now after.journal.store line = .error why) ∧
      (read.1 = .ok () → e.kind = .memory → after.journal = read.2) ∧
      (read.1 = .ok () → e.kind ≠ .memory →
        ∃ change, request.intended? registrar state.drawn = some change ∧
          change.enter read.2.store = .ok after.journal.store) ∧
      (state.journal.loaded = true →
        (after.journal.store = state.journal.store ↔
          e.kind = .memory ∨
            ∃ change, request.intended? registrar state.drawn = some change ∧
              change.enter state.journal.store = .ok state.journal.store)) := by
  have hloaded (hread : state.journal.loaded = true) :
      load registrar state.disk state.journal = (.ok (), state.journal) := if_pos hread
  unfold State.serveWith at h ⊢
  generalize hload : load registrar state.disk state.journal = loading at *
  obtain ⟨outcome, journal⟩ := loading
  cases outcome with
  -- Nothing was asked of a memory that could not be read.
  | error fault =>
      refine ⟨rfl, fun _ _ => ⟨load_directory hload, fun content => load_stops hload⟩,
        nofun, nofun, fun hread => ?_⟩
      cases hloaded hread
  | ok _ =>
      have hrefused := @serveLoaded_refused encode { state with journal := journal } registrar
        request e hfresh h
      have hraised := @serveLoaded_raised encode { state with journal := journal } registrar
        request e h
      refine ⟨content_of_serveLoaded h, nofun, fun _ => hrefused, fun _ => hraised,
        fun hread => ?_⟩
      obtain rfl : journal = state.journal := congrArg Prod.snd (hloaded hread)
      -- An undone write leaves the store; one that raised leaves the change, which may have changed
      -- nothing.
      by_cases hkind : e.kind = .memory
      · exact iff_of_true (congrArg Journal.store (hrefused hkind)) (.inl hkind)
      · obtain ⟨change, hchange, henter⟩ := hraised hkind
        constructor
        · intro hsame
          exact .inr ⟨change, hchange, henter.trans (congrArg Except.ok hsame)⟩
        · rintro (hmemory | ⟨other, hother, hidle⟩)
          · exact absurd hmemory hkind
          · have hone : some other = some change := hother.symm.trans hchange
            cases hone
            exact Except.ok.inj (henter.symm.trans hidle)

/-- A journal that has read a file with one session, on a disk with a fault or without one. -/
def State.holding (fault : Option String) : State where
  journal := ⟨"log", sessionStore, true⟩
  disk := ⟨.text sessionText, fault⟩

/-- An encoder to which every text is one that no file can hold. -/
def Encoder.refusing : Encoder :=
  fun _ => .error ⟨.value, "surrogates not allowed"⟩

/-- A new session is taken back if the disk is full, and kept if its line cannot be encoded. -/
theorem State.serveWith_failed_holding :
    tally.Fresh 0 sessionStore ∧
      ((State.holding (some "full")).serveWith Encoder.plain tally (.createSession .null)).1 =
        .error (.unwritable "log" "full") ∧
      ((State.holding (some "full")).serveWith Encoder.plain tally
        (.createSession .null)).2.journal.store = sessionStore ∧
      ((State.holding none).serveWith Encoder.refusing tally (.createSession .null)).1 =
        .error (.raised ⟨.value, "surrogates not allowed"⟩) ∧
      ((State.holding none).serveWith Encoder.refusing tally
        (.createSession .null)).2.journal.store =
          { sessions := [(.str "s", .null), (.str "i", .null)] } := by
  have hfull : ((State.holding (some "full")).serveWith Encoder.plain tally
      (.createSession .null)).1 = .error (.unwritable "log" "full") := rfl
  have hraised : ((State.holding none).serveWith Encoder.refusing tally (.createSession .null)).1 =
      .error (.raised ⟨.value, "surrogates not allowed"⟩) := rfl
  obtain ⟨-, -, hkept, -, -⟩ := State.serveWith_failed tally_fresh hfull
  obtain ⟨-, -, -, hchanged, -⟩ := State.serveWith_failed tally_fresh hraised
  obtain ⟨change, hchange, henter⟩ := hchanged rfl (by decide)
  refine ⟨tally_fresh, hfull, congrArg Journal.store (hkept rfl rfl), hraised, ?_⟩
  cases hchange
  exact (Except.ok.inj henter).symm

/-! ## Requests that change the process and fail -/

/-- The encoder of an interpreter with limits. -/
def Encoder.within (limits : Json.Limits) : Encoder := fun line =>
  match limits.writeOverrun? line with
  | some overrun => .error overrun.failure
  | none => .ok (line.print Json.spaced)

/-- Additional information with an integer in it. -/
def countInfo (n : Int) : Fields Json :=
  [("additional_info", .obj [("n", .int n)])]

/-- An interaction with such information. -/
def counted (info : Fields Json) : Interaction :=
  ⟨{ additionalInfo := info }, "r", "s", none, tally.now⟩

/-- A journal that has read its file, with one interaction. -/
def State.counting (info : Fields Json) : State where
  journal := ⟨"log", { sessionStore with interactions := [("r", counted info)] }, true⟩

/-- A line with a long integer in it cannot be written. -/
theorem writeOverrun?_countInfo {n : Int} (hlong : 4300 < (natural n.natAbs).length) :
    ({} : Json.Limits).writeOverrun? (updateLine "r" (countInfo n)) = some (.integer 4300) := by
  have hinteger : ({} : Json.Limits).integerOverrun? n = some (.integer 4300) := if_pos hlong
  simp [Json.Limits.writeOverrun?, updateLine, countInfo, Json.Limits.valueOverrun?,
    Json.Limits.membersOverrun?, Json.Activity.leaf, hinteger]

/-- A long integer is taken into the process and fails to be written. -/
theorem serve_counting {n : Int} (hlong : 4300 < (natural n.natAbs).length) :
    (State.counting []).serveWith (Encoder.within {}) tally (.update "r" (countInfo n)) =
      (.error (.raised (Json.Overrun.failure (.integer 4300))),
        { State.counting [("n", .int n)] with disk := { file := .text "" } }) := by
  have hencode : Encoder.within {} (updateLine "r" (countInfo n)) =
      .error (Json.Overrun.failure (.integer 4300)) := by
    rw [Encoder.within, writeOverrun?_countInfo hlong]
  have hwrite : write (Encoder.within {}) (State.counting []).disk (State.counting []).journal
      (updateLine "r" (countInfo n)) =
        (.error (.raised (Json.Overrun.failure (.integer 4300))), { file := .text "" }) := by
    rw [write]
    dsimp only [State.counting]
    rw [hencode]
    rfl
  have hserved : (State.counting []).serveWith (Encoder.within {}) tally
      (.update "r" (countInfo n)) =
        (State.counting []).commit (Encoder.within {})
          (State.counting [("n", .int n)]).journal.store (State.counting []).journal.store
          (updateLine "r" (countInfo n)) () := by
    rfl
  rw [hserved, State.commit, hwrite]
  rfl

/-- Not every failed request leaves the process as it was: reading the file on first use, which goes
before everything else, is not taken back, neither are the lines before one that stops the reading,
and neither is a change that could not be put into writing. -/
theorem State.not_forall_serve_keeps :
    (¬ ∀ (state : State) (registrar : Registrar) (request : Request) (e : Error),
      request.changes = true →
        registrar.Fresh state.drawn (load registrar state.disk state.journal).2.store →
        (load registrar state.disk state.journal).1 = .ok () →
        (state.serve registrar request).1 = .error e →
        (state.serve registrar request).2.journal.store = state.journal.store) ∧
      (¬ ∀ (state : State) (registrar : Registrar) (request : Request) (e : Error),
        request.changes = true →
        registrar.Fresh state.drawn (load registrar state.disk state.journal).2.store →
        (load registrar state.disk state.journal).1 = .error e →
        (state.serve registrar request).1 = .error e →
        (state.serve registrar request).2.journal.store = state.journal.store) ∧
      ¬ ∀ (state : State) (registrar : Registrar) (request : Request) (e : Error),
        request.changes = true → state.journal.loaded = true →
        registrar.Fresh state.drawn state.journal.store →
        (state.serveWith (Encoder.within {}) registrar request).1 = .error e →
        (state.serveWith (Encoder.within {}) registrar request).2.journal.store =
          state.journal.store := by
  refine ⟨?_, ?_, ?_⟩
  · intro hkeeps
    have hserved : ((State.unread sessionText).serve tally (.append "t" none {})).1 =
        .error (.unknownSession "t") := rfl
    have hsame := hkeeps (State.unread sessionText) tally (.append "t" none {})
      (.unknownSession "t") rfl (by rw [load_unread]; exact tally_fresh) (by rw [load_unread])
      hserved
    rw [State.serve, State.serveWith, load_unread] at hsame
    exact absurd (congrArg (fun store => store.sessions.length) hsame) (by decide)
  · intro hkeeps
    have hrefused : ((State.unread (sessionText ++ "-")).serve tally (.createSession .null)).1 =
        .error (.corrupt "log" 2) := by
      rw [State.serve, State.serveWith, load_unread_broken]
    have hsame := hkeeps (State.unread (sessionText ++ "-")) tally (.createSession .null)
      (.corrupt "log" 2) rfl (by rw [load_unread_broken]; exact tally_fresh)
      (by rw [load_unread_broken]) hrefused
    rw [State.serve, State.serveWith, load_unread_broken] at hsame
    exact absurd (congrArg (fun store => store.sessions.length) hsame) (by decide)
  · intro hkeeps
    obtain ⟨n, hlong⟩ := exists_lt_length_natural 4300
    have hserved := serve_counting hlong
    have hsame := hkeeps (State.counting []) tally (.update "r" (countInfo n)) _ rfl rfl
      ⟨by decide, by decide⟩ (congrArg Prod.fst hserved)
    rw [hserved] at hsame
    have hinfo := congrArg (fun store => store.interactions.map fun entry =>
      entry.2.entry.additionalInfo.length) hsame
    have hlengths : [1] = [0] := hinfo
    cases hlengths

end Journal

end ReAct.Memory

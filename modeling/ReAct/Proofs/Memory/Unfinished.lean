import Mathlib.Data.List.DropRight
import ReAct.Proofs.Json.Prefixed
import ReAct.Proofs.Memory.Outcome
import ReAct.Proofs.Memory.Replay

/-!
# Writing behind an unfinished line

A journal adds its lines to whatever its file holds, and the file may have been written by others:
blank lines, unknown operations and line ends of any kind are all read.  What is not looked at is
whether the last line is ended.  If it is, or if it holds nothing but blanks, a change that is
written behind it is found again by everyone who reads the file.  If it is not, the new line goes
into the old one, and the file, which could be read before, cannot be read any more
(`State.serve_readable_iff`).

## Main Definitions

* `unfinished`, `finished`: what a text has behind its last line end, and the text up to there
-/

namespace ReAct.Memory

open Text

/-! ## The last line of a text -/

/-- Whether a character ends a line. -/
def endsLine (c : Char) : Bool :=
  c = '\r' || c = '\n'

/-- What a text has behind its last line end. -/
def unfinished (s : List Char) : List Char :=
  s.rtakeWhile fun c => !endsLine c

/-- A text up to its last line end. -/
def finished (s : List Char) : List Char :=
  s.rdropWhile fun c => !endsLine c

/-- A text is empty or ends with a line end. -/
def Ended (s : List Char) : Prop :=
  ∀ c, s.getLast? = some c → endsLine c = true

/-- A text is its finished lines and what stands behind the last line end. -/
theorem finished_append_unfinished (s : List Char) : finished s ++ unfinished s = s :=
  List.rdropWhile_append_rtakeWhile

/-- Behind the last line end there is none. -/
theorem oneLine_unfinished (s : List Char) : Json.OneLine (unfinished s) := by
  intro c hc
  have hnot := List.mem_rtakeWhile_imp hc
  simpa [endsLine] using hnot

/-- The finished part is empty or ends with a line end. -/
theorem ended_finished (s : List Char) : Ended (finished s) := by
  intro c hc
  obtain ⟨hne, rfl⟩ := List.mem_getLast?_eq_getLast hc
  have hlast := List.rdropWhile_last_not (fun c => !endsLine c) s hne
  rw [Bool.not_eq_true, Bool.not_eq_false'] at hlast
  exact hlast

/-- What is left of it without a character is, too. -/
theorem Ended.tail {c : Char} {s : List Char} (h : Ended (c :: s)) : Ended s := by
  intro d hd
  cases s with
  | nil => cases hd
  | cons e s => exact h d (by rw [List.getLast?_cons_cons, hd])

theorem Ended.ne_nil {c : Char} {s : List Char} (h : Ended (c :: s))
    (hc : ¬ (c = '\r' ∨ c = '\n')) : s ≠ [] := by
  rintro rfl
  have hends := h c rfl
  simp only [endsLine, Bool.or_eq_true, decide_eq_true_eq] at hends
  exact hc hends

/-- A text may be cut behind a line end, unless that is in the middle of one. -/
theorem lines_go_append_of_ended {begun s rest : List Char} (hs : Ended s)
    (hbegun : s = [] → begun = []) (hrest : rest.head? ≠ some '\n') :
    lines.go begun (s ++ rest) = lines.go begun s ++ lines rest := by
  induction begun, s using lines.go.induct with
  -- The cases are those of the split into lines; a carriage return must not meet a line feed across
  -- the seam.
  | case1 begun hempty =>
      rw [hbegun rfl]
      rfl
  | case2 begun hempty => exact absurd (by simp [hbegun rfl]) hempty
  | case3 begun s ih =>
      rw [List.cons_append, List.cons_append, lines.go, lines.go, ih hs.tail.tail (fun _ => rfl)]
      rfl
  | case4 begun c s hpair hends ih =>
      have hapart (more : List Char) (hc : c = '\r') : s ++ rest ≠ '\n' :: more := by
        intro hmore
        cases s with
        | nil =>
            rw [List.nil_append] at hmore
            exact hrest (by rw [hmore]; rfl)
        | cons d s =>
            obtain ⟨rfl, -⟩ := List.cons.inj hmore
            exact hpair s hc rfl
      rw [List.cons_append, lines.go.eq_3 begun c _ hapart, if_pos hends,
        lines.go.eq_3 begun c s hpair, if_pos hends, ih hs.tail (fun _ => rfl)]
      rfl
  | case5 begun c s hpair hends ih =>
      have hne := hs.ne_nil hends
      have hapart (more : List Char) (hc : c = '\r') : s ++ rest ≠ '\n' :: more :=
        absurd (.inl hc) hends
      rw [List.cons_append, lines.go.eq_3 begun c _ hapart, if_neg hends,
        lines.go.eq_3 begun c s hpair, if_neg hends, ih hs.tail (fun h => absurd h hne)]

theorem lines_append_of_ended {s rest : List Char} (hs : Ended s)
    (hrest : rest.head? ≠ some '\n') : lines (s ++ rest) = lines s ++ lines rest :=
  lines_go_append_of_ended hs (fun _ => rfl) hrest

/-- A line that is not empty does not begin with a line feed, so it does not complete a line end in
front of it. -/
theorem head?_of_oneLine {line : List Char} (h : Json.OneLine line) (hne : line ≠ [])
    (rest : List Char) : (line ++ rest).head? ≠ some '\n' := by
  cases line with
  | nil => exact absurd rfl hne
  | cons c line =>
      intro hhead
      cases hhead
      exact h '\n' List.mem_cons_self (.inr rfl)

/-- A text without line ends is one line, unless it is empty. -/
theorem lines_of_oneLine {line : List Char} (h : Json.OneLine line) (hne : line ≠ []) :
    lines line = [line] := by
  have hgo : ∀ {line begun : List Char}, Json.OneLine line → begun ++ line ≠ [] →
      lines.go begun line = [begun.reverse ++ line] := by
    intro line
    induction line with
    | nil =>
        intro begun _ hne
        rw [List.append_nil] at hne ⊢
        rw [lines.go, if_neg (by simpa using hne)]
    | cons c line ih =>
        intro begun hline _
        obtain ⟨hc, hline⟩ := List.forall_mem_cons.mp hline
        rw [lines.go.eq_3 begun c line (fun _ hreturn _ => hc (.inl hreturn)), if_neg hc,
          ih hline (by simp), List.reverse_cons, List.append_assoc]
        rfl
  exact hgo h (by simpa using hne)

/-- The lines of a text are those up to its last line end and the one behind. -/
theorem lines_eq_of_unfinished {s : List Char} (h : unfinished s ≠ []) :
    lines s = lines (finished s) ++ [unfinished s] := by
  have hrest := head?_of_oneLine (oneLine_unfinished s) h []
  rw [List.append_nil] at hrest
  conv_lhs => rw [← finished_append_unfinished s]
  rw [lines_append_of_ended (ended_finished s) hrest, lines_of_oneLine (oneLine_unfinished s) h]

/-- **A line that is added to a text goes into its unfinished line.** -/
theorem lines_append_line (s : List Char) {line : List Char} (hline : Json.OneLine line)
    (hne : line ≠ []) :
    lines (s ++ (line ++ ['\n'])) = lines (finished s) ++ [unfinished s ++ line] := by
  have hwhole : Json.OneLine (unfinished s ++ line) :=
    Json.oneLine_append (oneLine_unfinished s) hline
  have hlast : lines ((unfinished s ++ line) ++ ['\n']) = [unfinished s ++ line] := by
    have hjoined : joined [unfinished s ++ line] = (unfinished s ++ line) ++ ['\n'] := by
      simp [joined]
    rw [← hjoined]
    exact lines_joined (by simpa using hwhole)
  conv_lhs => rw [← finished_append_unfinished s]
  rw [List.append_assoc, ← List.append_assoc (unfinished s),
    lines_append_of_ended (ended_finished s)
      (head?_of_oneLine hwhole (List.append_ne_nil_of_right_ne_nil _ hne) _), hlast]

/-! ## Reading what was written -/

variable {now : Moment} {path : String} {number : Nat} {start store changed : Store}
  {change : Change}

theorem isBlank_of_isSpace {c : Char} (h : Json.isSpace c = true) : isBlank c = true := by
  simp only [Json.isSpace, Bool.or_eq_true, decide_eq_true_eq, or_assoc] at h
  rcases h with rfl | rfl | rfl | rfl <;> rfl

/-- A line with an entry in it is not blank. -/
theorem not_allBlank_append_chars (s : List Char) (change : Change) :
    allBlank (s ++ change.chars) = false := by
  obtain ⟨rest, hrest⟩ := change.chars_eq_openBrace
  have hbrace : isBlank '\x7b' = false := rfl
  rw [allBlank, hrest, List.all_append, List.all_cons, hbrace, Bool.false_and, Bool.and_false]

/-- A change is found again behind blanks. -/
theorem foldLine_append_of_spaces {s : List Char} (h : ∀ c ∈ s, Json.isSpace c = true)
    (hproper : change.Proper) (henter : change.enter store = .ok changed) :
    foldLine now store (s ++ change.chars) = .ok changed := by
  have hrecords := change.records hproper henter
  have hread : Json.ofChars? .refused (s ++ change.chars) = some change.line :=
    Json.ofChars?_append_of_spaces .refused Json.spaced_plain hrecords.distinct h
  rw [foldLine, if_neg (by simp [not_allBlank_append_chars]), hread]
  exact hrecords.replayed now

/-- A change is not found behind a line that can be folded and holds more than blanks. -/
theorem foldLine_append_broken {s : List Char} (h : ¬ ∀ c ∈ s, Json.isSpace c = true)
    (hfold : foldLine now start s = .ok store) (change : Change) :
    foldLine now start (s ++ change.chars) = .error .broken := by
  have hnone : Json.ofChars? .refused (s ++ change.chars) = none := by
    obtain ⟨rest, hrest⟩ := change.chars_eq_openBrace
    rw [hrest]
    unfold foldLine at hfold
    split at hfold
    · rename_i hblank
      exact Json.ofChars?_append_of_blanks .refused (List.all_eq_true.mp hblank) h rest
    · split at hfold
      · cases hfold
      · rename_i v hread
        exact Json.ofChars?_append_openBrace hread rest
  rw [foldLine, if_neg (by simp [not_allBlank_append_chars]), hnone]

/-- Blanks that can be folded have changed nothing. -/
theorem eq_of_foldLine_spaces {s : List Char} (h : ∀ c ∈ s, Json.isSpace c = true)
    (hfold : foldLine now start s = .ok store) : start = store := by
  have hblank : allBlank s = true := List.all_eq_true.mpr fun c hc => isBlank_of_isSpace (h c hc)
  rw [foldLine, if_pos hblank] at hfold
  exact Except.ok.inj hfold

/-- A line that a replay gets over is folded. -/
theorem foldLine_of_replay {line : List Char}
    (h : replay now path number start [line] = (store, none)) :
    foldLine now start line = .ok store := by
  cases hfold : foldLine now start line with
  | error fault =>
      rw [replay_cons_of_error hfold] at h
      cases h
  | ok next =>
      rw [replay_cons_of_ok hfold] at h
      cases h
      rfl

/-- **A change that is written behind a text.**  It is found again if the unfinished line of the
text holds nothing but blanks; otherwise the replay stops there. -/
theorem replay_written {s : List Char} (h : replay now path 1 {} (lines s) = (store, none))
    (hproper : change.Proper) (henter : change.enter store = .ok changed) :
    ((∀ c ∈ unfinished s, Json.isSpace c = true) →
        replay now path 1 {} (lines (s ++ (change.chars ++ ['\n']))) = (changed, none)) ∧
      ((¬ ∀ c ∈ unfinished s, Json.isSpace c = true) →
        (replay now path 1 {} (lines (s ++ (change.chars ++ ['\n'])))).2 =
          some (.corrupt path (lines s).length)) := by
  have hline : Json.OneLine change.chars := (change.records hproper henter).oneLine
  have hne : change.chars ≠ [] := by
    obtain ⟨rest, hrest⟩ := change.chars_eq_openBrace
    rw [hrest]
    exact List.cons_ne_nil _ _
  rw [lines_append_line s hline hne]
  by_cases hended : unfinished s = []
  · -- The last line is ended: the change has a line of its own.
    have hwhole : finished s = s := by
      have happend := finished_append_unfinished s
      rwa [hended, List.append_nil] at happend
    rw [hwhole, hended]
    constructor
    · intro hspaces
      rw [replay_append h, replay_cons_of_ok (foldLine_append_of_spaces hspaces hproper henter)]
      rfl
    · intro hnot
      exact absurd (fun c hc => by cases hc) hnot
  -- The last line is open: the change is written behind it, on the same line.
  · have hlines := lines_eq_of_unfinished hended
    rw [hlines, replay_append_iff] at h
    obtain ⟨middle, hfinished, hlast⟩ := h
    have hfold := foldLine_of_replay hlast
    constructor
    · intro hspaces
      obtain rfl := eq_of_foldLine_spaces hspaces hfold
      rw [replay_append hfinished,
        replay_cons_of_ok (foldLine_append_of_spaces hspaces hproper henter)]
      rfl
    · intro hnot
      have hstops := replay_stops_iff.mpr ⟨_, _, [], _, rfl, hfinished,
        foldLine_append_broken hnot hfold change, rfl⟩
      rw [hstops, hlines, List.length_append, List.length_singleton]
      exact congrArg some (congrArg (Error.corrupt path) (Nat.add_comm 1 _))

namespace Journal

variable {state : State} {registrar reader : Registrar} {request : Request}

/-- A new journal reads a file exactly if a replay gets through its lines. -/
theorem load_new_iff {disk : Disk} {journal : Journal} :
    load reader disk { path := path } = (.ok (), journal) ↔
      disk.file ≠ .directory ∧ journal = ⟨path, journal.store, true⟩ ∧
        replay reader.now path 1 {} (lines disk.file.content.toList) = (journal.store, none) := by
  obtain ⟨file, fault⟩ := disk
  cases file with
  | missing =>
      constructor
      · intro h
        cases h
        exact ⟨by simp, rfl, rfl⟩
      · rintro ⟨-, hjournal, hreplay⟩
        have hempty : ({} : Store) = journal.store := congrArg Prod.fst hreplay
        rw [hjournal, ← hempty]
        rfl
  | directory =>
      constructor
      · intro h
        cases h
      · rintro ⟨hfile, -, -⟩
        exact absurd rfl hfile
  -- A file is read to its end or to the line that stops it.
  | text content =>
      simp only [load, LogFile.content]
      generalize replay reader.now path 1 {} (lines content.toList) = outcome
      obtain ⟨reached, stopped⟩ := outcome
      cases stopped with
      | none =>
          constructor
          · intro h
            cases h
            exact ⟨by simp, rfl, rfl⟩
          · rintro ⟨-, hjournal, hreplay⟩
            cases hreplay
            exact Prod.ext rfl hjournal.symm
      | some e =>
          constructor
          · intro h
            cases h
          · rintro ⟨-, -, hreplay⟩
            cases hreplay

/-- A new journal reports what stops a replay. -/
theorem load_new_stopped {disk : Disk} {content : String} {e : Error}
    (hfile : disk.file = .text content)
    (h : (replay reader.now path 1 {} (lines content.toList)).2 = some e) :
    (load reader disk { path := path }).1 = .error e := by
  obtain ⟨file, fault⟩ := disk
  cases hfile
  simp only [load]
  generalize replay reader.now path 1 {} (lines content.toList) = outcome at h ⊢
  obtain ⟨reached, stopped⟩ := outcome
  cases h
  rfl

/-- **What a reader finds after a change.**  Let the reader have found before what the journal had
in the process. -/
theorem State.Enters.readable_iff {before after : State} (h : before.Enters change after)
    (hproper : change.Proper)
    (hread : load reader before.disk { path := before.journal.path } = (.ok (), before.journal)) :
    (load reader after.disk { path := before.journal.path } = (.ok (), after.journal) ↔
        ∀ c ∈ unfinished before.disk.file.content.toList, Json.isSpace c = true) ∧
      ((¬ ∀ c ∈ unfinished before.disk.file.content.toList, Json.isSpace c = true) →
        (load reader after.disk { path := before.journal.path }).1 =
          .error (.corrupt before.journal.path
            (lines before.disk.file.content.toList).length)) := by
  obtain ⟨-, hjournal, hreplay⟩ := load_new_iff.mp hread
  obtain ⟨hfound, hlost⟩ := replay_written hreplay hproper h.store
  have hcontent : (before.disk.file.content ++ (change.line.print Json.spaced ++ "\n")).toList =
      before.disk.file.content.toList ++ (change.chars ++ ['\n']) := by
    simp [Json.print, Change.chars]
  -- Something stands on the open line, and with the change behind it the line is not JSON.
  have hloses (hnot : ¬ ∀ c ∈ unfinished before.disk.file.content.toList,
      Json.isSpace c = true) :
      (load reader after.disk { path := before.journal.path }).1 =
        .error (.corrupt before.journal.path (lines before.disk.file.content.toList).length) := by
    refine load_new_stopped h.file ?_
    rw [hcontent]
    exact hlost hnot
  refine ⟨⟨fun hreads => ?_, fun hspaces => ?_⟩, hloses⟩
  · by_contra hnot
    have hstopped := hloses hnot
    rw [hreads] at hstopped
    cases hstopped
  · refine load_new_iff.mpr ⟨by simp [h.file], ?_, ?_⟩
    · rw [h.journal, hjournal]
    · rw [h.file, LogFile.content, hcontent]
      exact hfound hspaces

/-- **When a file can still be read after a change.**  Let a request for a change be granted, and
let another reader have found in the file, before, what the journal had in the process.
(Interactions without a time are dated by whoever reads them.)  The reader finds afterwards exactly
what the journal has in the process then, if the file ended with a line end or with nothing but
blanks behind it; otherwise the last line of the old file has become unreadable. -/
theorem State.serve_readable_iff {answer : request.Answer} (hchanges : request.changes = true)
    (hnow : registrar.now.IsUniversal) (hproper : request.Proper)
    (hread : load reader state.disk { path := state.journal.path } =
      (.ok (), (load registrar state.disk state.journal).2))
    (hserved : (state.serve registrar request).1 = .ok answer) :
    (load reader (state.serve registrar request).2.disk { path := state.journal.path } =
        (.ok (), (state.serve registrar request).2.journal) ↔
      ∀ c ∈ unfinished state.disk.file.content.toList, Json.isSpace c = true) ∧
      ((¬ ∀ c ∈ unfinished state.disk.file.content.toList, Json.isSpace c = true) →
        (load reader (state.serve registrar request).2.disk { path := state.journal.path }).1 =
          .error (.corrupt state.journal.path
            (lines state.disk.file.content.toList).length)) := by
  obtain ⟨change, hchange⟩ := Request.exists_change? hchanges registrar.now answer
  obtain ⟨journal, hload⟩ := load_of_serve hserved
  rw [serve_of_load hload] at hserved ⊢
  rw [hload] at hread
  have hjournal : journal = ⟨state.journal.path, journal.store, true⟩ :=
    (load_new_iff.mp hread).2.1
  have hpath : journal.path = state.journal.path := by rw [hjournal]
  rw [← hpath] at hread ⊢
  exact (serveLoaded_enters hserved hchange).readable_iff (hproper.change? hnow hchange) hread

theorem tally_universal : tally.now.IsUniversal :=
  ⟨by decide, by decide, by decide, by decide, by decide, by decide, by decide, rfl⟩

/-- A text whose last line is ended by a carriage return, with blanks behind it. -/
def blankText : String := sessionText ++ "\r \t"

theorem load_blankText :
    load tally (State.unread blankText).disk (State.unread blankText).journal =
      (.ok (), ⟨"log", sessionStore, true⟩) := by
  rfl

/-- A session is added to that file, and found by whoever reads it. -/
theorem State.serve_readable_blanks :
    Request.changes (.createSession (.str "Sums")) = true ∧ tally.now.IsUniversal ∧
      Request.Proper (.createSession (.str "Sums")) ∧
      load tally (State.unread blankText).disk { path := "log" } =
        (.ok (), (load tally (State.unread blankText).disk (State.unread blankText).journal).2) ∧
      ((State.unread blankText).serve tally (.createSession (.str "Sums"))).1 = .ok "i" ∧
      load tally ((State.unread blankText).serve tally (.createSession (.str "Sums"))).2.disk
          { path := "log" } =
        (.ok (),
          ((State.unread blankText).serve tally (.createSession (.str "Sums"))).2.journal) := by
  have hproper : Request.Proper (.createSession (.str "Sums")) := Json.Distinct.str "Sums"
  have hread : load tally (State.unread blankText).disk { path := "log" } =
      (.ok (), (load tally (State.unread blankText).disk (State.unread blankText).journal).2) := by
    rw [load_blankText]
    exact load_blankText
  have hserved :
      ((State.unread blankText).serve tally (.createSession (.str "Sums"))).1 = .ok "i" := by
    rw [serve_of_load load_blankText]
    rfl
  have hblanks : (unfinished (State.unread blankText).disk.file.content.toList).all
      Json.isSpace = true := by
    rfl
  exact ⟨rfl, tally_universal, hproper, hread, hserved,
    (State.serve_readable_iff rfl tally_universal hproper hread hserved).1.mpr
      (List.all_eq_true.mp hblanks)⟩

/-- A text whose only line is not ended. -/
def openText : String := (sessionLine "s" .null).print Json.spaced

theorem load_openText :
    load tally (State.unread openText).disk (State.unread openText).journal =
      (.ok (), ⟨"log", sessionStore, true⟩) := by
  rfl

/-- Not every file that can be read can still be read after a change: if the last line is not ended,
the line of the change makes it unreadable. -/
theorem State.not_forall_serve_readable :
    ¬ ∀ (content : String) (registrar : Registrar) (request : Request) (answer : request.Answer),
      request.changes = true → registrar.now.IsUniversal → request.Proper →
        (load registrar (State.unread content).disk (State.unread content).journal).1 = .ok () →
        ((State.unread content).serve registrar request).1 = .ok answer →
        load registrar ((State.unread content).serve registrar request).2.disk
            { path := "log" } =
          (.ok (), ((State.unread content).serve registrar request).2.journal) := by
  intro hreads
  have hserve := serve_of_load load_openText (.createSession .null)
  have hserved : ((State.unread openText).serve tally (.createSession .null)).1 = .ok "i" := by
    rw [hserve]
    rfl
  have hfound := hreads openText tally (.createSession .null) "i" rfl tally_universal
    Json.Distinct.null (by rw [load_openText]) hserved
  rw [hserve] at hserved hfound
  have henters := serveLoaded_enters hserved rfl
  have hspaces := (henters.readable_iff Json.Distinct.null load_openText).1.mp hfound
  have hopen : (unfinished (State.unread openText).disk.file.content.toList).all
      Json.isSpace = false := by
    rfl
  rw [List.all_eq_true.mpr hspaces] at hopen
  cases hopen

end Journal

end ReAct.Memory

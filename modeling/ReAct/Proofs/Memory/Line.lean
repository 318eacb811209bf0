import ReAct.Memory.Journal
import ReAct.Proofs.Json.OneLine
import ReAct.Proofs.Moment.Iso

/-!
# Lines of a journal

A change is made in the process on values and in a replay on what was read back from a line.  Both
come to the same: the line of a change is one line of text (`Records.oneLine`), and a replay that
has reached the store before the change reaches the store after it when it reads one more line
(`replay_snoc`).

## Main Definitions

* `joined`: the text of a file with the given lines
* `Records`: a line that makes a replay follow a change of the store
-/

namespace ReAct.Memory

open Text Record

/-! ## Lines of a file -/

/-- The text of a file with the given lines, each of which is ended. -/
def joined (ls : List (List Char)) : List Char :=
  ls.flatMap (· ++ ['\n'])

theorem joined_snoc (ls : List (List Char)) (line : List Char) :
    joined (ls ++ [line]) = joined ls ++ (line ++ ['\n']) := by
  simp [joined]

/-- A line that has begun goes on to its line feed. -/
theorem lines_go_append {line : List Char} (h : Json.OneLine line) (begun rest : List Char) :
    lines.go begun (line ++ '\n' :: rest) = (begun.reverse ++ line) :: lines.go [] rest := by
  induction line generalizing begun with
  | nil =>
      rw [List.nil_append, List.append_nil, lines.go.eq_3 begun '\n' rest (by simp)]
      exact if_pos (.inr rfl)
  | cons c line ih =>
      obtain ⟨hc, hline⟩ := List.forall_mem_cons.mp h
      have hreturn : c ≠ '\r' := fun heq => hc (.inl heq)
      rw [List.cons_append, lines.go.eq_3 begun c _ (by simp [hreturn]), if_neg hc, ih hline,
        List.reverse_cons, List.append_assoc]
      rfl

/-- **A file is cut into the lines that it was made of.** -/
theorem lines_joined {ls : List (List Char)} (h : ∀ line ∈ ls, Json.OneLine line) :
    lines (joined ls) = ls := by
  unfold lines
  induction ls with
  | nil => rfl
  | cons line ls ih =>
      obtain ⟨hline, hls⟩ := List.forall_mem_cons.mp h
      have hjoined : joined (line :: ls) = line ++ '\n' :: joined ls := by simp [joined]
      rw [hjoined, lines_go_append hline, ih hls]
      rfl

/-! ## Interactions as objects -/

/-- Any members will do where nothing is asked of them. -/
theorem membersOf_any (fields : Fields Json) : membersOf any fields = .valid fields := by
  induction fields with
  | nil => rfl
  | cons entry rest ih => rw [membersOf, ih]; rfl

theorem optional_text_ofText? (s : Option String) :
    optional text (Json.ofText? s) = .valid s := by
  cases s <;> rfl

theorem optional_integer_ofOption (n : Option Int) :
    optional integer (Json.ofOption .int n) = .valid n := by
  cases n <;> rfl

/-- An interaction is read back from its object, whenever that is. -/
theorem Interaction.check_toJson {interaction : Interaction} (h : interaction.created.IsUniversal)
    (now : Moment) : Interaction.check now interaction.toJson = .valid interaction := by
  obtain ⟨⟨question, response, origin, traceNumber, finalAnswer, additionalInfo⟩, id, session,
    parent, created⟩ := interaction
  have hcreated := Moment.check_iso h
  simp [check, toJson, record, members, Entry.members, Entry.checkOver, defaulted, required,
    Fields.get?, optional_text_ofText?, optional_integer_ofOption, table, membersOf_any, text, flag,
    hcreated, Checked.under, Functor.map, Seq.seq, Checked.map, Checked.apply]

/-- The object of an interaction has distinct names if its additional information has. -/
theorem Interaction.distinct_toJson {interaction : Interaction}
    (h : (Json.obj interaction.entry.additionalInfo).Distinct) : interaction.toJson.Distinct := by
  have htext (s : Option String) : (Json.ofText? s).Distinct := by
    cases s with
    | none => exact .null
    | some s => exact .str s
  have hint (n : Option Int) : (Json.ofOption .int n).Distinct := by
    cases n with
    | none => exact .null
    | some n => exact .int n
  refine .obj (by simp [Fields.names, members, Entry.members]) ?_
  simp [members, Entry.members, htext, hint, h, Json.Distinct.bool]

/-! ## Replaying lines -/

variable {store changed : Store} {line : Json}

/-- The line makes a replay follow the change of one store to another: it can be read back, it is an
object, and folding it into the first store gives the second one, whenever that is. -/
structure Records (line : Json) (store changed : Store) : Prop where
  distinct : line.Distinct
  object : ∃ members, line = .obj members
  replayed : ∀ now, replayLine now store line = .ok changed

/-- The line of a new session. -/
theorem sessionLine_records (store : Store) (id : String) {title : Json} (h : title.Distinct) :
    Records (sessionLine id title) store (store.addSession (.str id) title) where
  distinct := .obj (by simp [Fields.names]) (by simp [h])
  object := ⟨_, rfl⟩
  replayed _ := rfl

/-- The line of a new interaction: reading it back gives the interaction. -/
theorem appendLine_records {interaction : Interaction} (h : interaction.created.IsUniversal)
    (hinfo : (Json.obj interaction.entry.additionalInfo).Distinct)
    (happend : store.append interaction = .ok changed) :
    Records (appendLine interaction) store changed where
  distinct := .obj (by simp [Fields.names])
    (by simp [Interaction.distinct_toJson hinfo])
  object := ⟨_, rfl⟩
  replayed now := by
    have hchecked := Interaction.check_toJson h now
    simp [replayLine, appendLine, need, Fields.get?, Json.isText, bind, Except.bind, hchecked,
      happend, refusing]

/-- The line of an update holds the fields as they were asked for, so a replay checks them again. -/
theorem updateLine_records {id : String} {fields : Fields Json}
    (hfields : (Json.obj fields).Distinct) (hupdate : store.update id fields = .ok changed) :
    Records (updateLine id fields) store changed where
  distinct := .obj (by simp [Fields.names]) (by simp [hfields])
  object := ⟨_, rfl⟩
  replayed now := by
    have hrefusing : refusing (store.update id fields) = .ok changed := by rw [hupdate]; rfl
    have hreplay : replayLine now store (updateLine id fields) =
        if store.interactions.has id then refusing (store.update id fields)
        else .error (.refused (.unknownInteraction id)) := rfl
    have hhas : store.interactions.has id = true := by
      unfold Store.update at hupdate
      cases hget : store.interactions.get? id with
      | none =>
          rw [hget] at hupdate
          cases hupdate
      | some interaction => simp [Fields.has, hget]
    rw [hreplay, if_pos hhas]
    exact hrefusing

namespace Records

/-- The text of a recorded line is one line. -/
theorem oneLine (h : Records line store changed) : Json.OneLine (Json.chars Json.spaced line) :=
  Json.chars_oneLine Json.spaced_plain h.distinct

/-- No line is passed over as blank. -/
theorem not_blank (h : Records line store changed) :
    allBlank (Json.chars Json.spaced line) = false := by
  obtain ⟨members, rfl⟩ := h.object
  rfl

/-- A replay reads a recorded line and goes on from the changed store. -/
theorem replay_cons (h : Records line store changed) (now : Moment) (path : String) (number : Nat)
    (rest : List (List Char)) :
    replay now path number store (Json.chars Json.spaced line :: rest) =
      replay now path (number + 1) changed rest := by
  rw [replay, if_neg (by simp [h.not_blank]), Json.ofChars?_chars _ Json.spaced_plain h.distinct]
  dsimp only
  rw [h.replayed now]

end Records

/-- A replay that reads all of some lines goes on with what follows them. -/
theorem replay_append {now : Moment} {path : String} {number : Nat} {reached : Store}
    {ls : List (List Char)} (h : replay now path number store ls = (reached, none))
    (more : List (List Char)) :
    replay now path number store (ls ++ more) =
      replay now path (number + ls.length) reached more := by
  induction ls generalizing number store with
  | nil =>
      cases h
      rfl
  | cons l ls ih =>
      -- Blank lines are counted, too, so the number goes up with every line.
      have hnumber : number + (l :: ls).length = number + 1 + ls.length := by
        rw [List.length_cons]
        omega
      rw [replay] at h
      rw [List.cons_append, hnumber, replay]
      split at h
      · rename_i hblank
        rw [if_pos hblank]
        exact ih h
      rename_i hblank
      rw [if_neg hblank]
      cases hread : Json.ofChars? .refused l with
      | none =>
          rw [hread] at h
          cases h
      | some v =>
          rw [hread] at h
          dsimp only at h ⊢
          cases hline : replayLine now store v with
          | error fault =>
              rw [hline] at h
              cases h
          | ok next =>
              rw [hline] at h
              dsimp only at h ⊢
              exact ih h

/-- **The line of a change makes a replay follow the change.** -/
theorem Records.replay_snoc (h : Records line store changed) {now : Moment} {path : String}
    {number : Nat} {start : Store} {ls : List (List Char)}
    (hls : replay now path number start ls = (store, none)) :
    replay now path number start (ls ++ [Json.chars Json.spaced line]) = (changed, none) := by
  rw [replay_append hls, h.replay_cons]
  rfl

end ReAct.Memory

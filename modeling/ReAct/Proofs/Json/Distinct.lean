import ReAct.Proofs.Json.RoundTrip

/-!
# Distinct names

A value that is read from a text has no object with two members of one name, whatever the text says:
members are put into their object one by one, and of two with one name the second replaces the value
of the first (`distinct_of_ofChars?`).  The objects that are still open have distinct names, too;
that is what every token keeps (`Due.Distinct.step`).

## Main Definitions

* `Due.Distinct`: a state of the reader in which everything that was read is distinct
-/

namespace ReAct.Json

/-! ## What has been read -/

/-- An open container whose values so far are distinct. -/
def Frame.Distinct : Frame → Prop
  | .items read => Json.Distinct (.arr read)
  | .member read _ => Json.Distinct (.obj read)

/-- Everything that was read is distinct: in the open containers and at the place that is due. -/
def Due.Distinct : Due → Prop
  | .value _ stack => ∀ frame ∈ stack, frame.Distinct
  | .name _ read stack => Json.Distinct (.obj read) ∧ ∀ frame ∈ stack, frame.Distinct
  | .colon read _ stack => Json.Distinct (.obj read) ∧ ∀ frame ∈ stack, frame.Distinct
  | .afterItem read stack => Json.Distinct (.arr read) ∧ ∀ frame ∈ stack, frame.Distinct
  | .afterMember read stack => Json.Distinct (.obj read) ∧ ∀ frame ∈ stack, frame.Distinct
  | .nothing v => v.Distinct
  | .fault => True

/-- A token whose value is distinct. -/
def Token.Distinct : Token → Prop
  | .scalar v => v.Distinct
  | _ => True

/-- One more item. -/
theorem distinct_items {read : List Json} {v : Json} (hv : v.Distinct)
    (h : Json.Distinct (.arr read)) : Json.Distinct (.arr (v :: read)) := by
  cases h with
  | arr h => exact .arr (List.forall_mem_cons.mpr ⟨hv, h⟩)

/-- One more member, or another value for one. -/
theorem distinct_put {read : Fields Json} {v : Json} (name : String) (hv : v.Distinct)
    (h : Json.Distinct (.obj read)) : Json.Distinct (.obj (read.put name v)) := by
  cases h with
  | obj hnames h =>
      refine .obj (Fields.nodup_names_put name v hnames) fun entry hentry => ?_
      rcases Fields.mem_put hentry with rfl | hmem
      · exact hv
      · exact h entry hmem

/-- The order of the items does not matter. -/
theorem distinct_reverse {read : List Json} (h : Json.Distinct (.arr read)) :
    Json.Distinct (.arr read.reverse) := by
  cases h with
  | arr h => exact .arr fun v hv => h v (List.mem_reverse.mp hv)

/-- A value that is handed over is put to distinct ones. -/
theorem deliver_distinct {v : Json} (hv : v.Distinct) {stack : List Frame}
    (h : ∀ frame ∈ stack, frame.Distinct) : (deliver v stack).Distinct := by
  cases stack with
  | nil => exact hv
  | cons frame stack =>
      obtain ⟨hframe, hstack⟩ := List.forall_mem_cons.mp h
      cases frame with
      | items read => exact ⟨distinct_items hv hframe, hstack⟩
      | member read name => exact ⟨distinct_put name hv hframe, hstack⟩

theorem distinct_empty_arr : Json.Distinct (.arr []) :=
  .arr fun _ h => by cases h

theorem distinct_empty_obj : Json.Distinct (.obj []) :=
  .obj List.nodup_nil fun _ h => by cases h

/-! ## One token -/

/-- An array that has just been opened may be closed at once. -/
theorem closeBracket_distinct {stack : List Frame} (h : ∀ frame ∈ stack, frame.Distinct) :
    (Due.step (.value true stack) .closeBracket).Distinct := by
  cases stack with
  | nil => trivial
  | cons frame stack =>
      cases frame with
      | member => trivial
      | items read =>
          cases read with
          | nil => exact deliver_distinct distinct_empty_arr (List.forall_mem_cons.mp h).2
          | cons => trivial

/-- **One token.**  The cases are those of what is due; a token that does not fit is a fault. -/
theorem Due.Distinct.step {due : Due} (h : due.Distinct) {token : Token} (htoken : token.Distinct) :
    (due.step token).Distinct := by
  cases due with
  | value fresh stack =>
      -- In each state few tokens are due; the others make a fault, of which nothing is asked.
      cases token with
      | scalar v => exact deliver_distinct htoken h
      | text s => exact deliver_distinct (.str s) h
      | openBrace => exact ⟨distinct_empty_obj, h⟩
      | openBracket => exact List.forall_mem_cons.mpr ⟨distinct_empty_arr, h⟩
      | closeBracket =>
          cases fresh with
          | true => exact closeBracket_distinct h
          | false => trivial
      | _ => cases fresh <;> trivial
  | name fresh read stack =>
      obtain ⟨hread, hstack⟩ := h
      cases token with
      | text s => exact ⟨hread, hstack⟩
      | closeBrace =>
          cases fresh with
          | true => exact deliver_distinct hread hstack
          | false => trivial
      | _ => cases fresh <;> trivial
  | colon read name stack =>
      obtain ⟨hread, hstack⟩ := h
      cases token with
      | colon => exact List.forall_mem_cons.mpr ⟨hread, hstack⟩
      | _ => trivial
  | afterItem read stack =>
      obtain ⟨hread, hstack⟩ := h
      cases token with
      | comma => exact List.forall_mem_cons.mpr ⟨hread, hstack⟩
      | closeBracket => exact deliver_distinct (distinct_reverse hread) hstack
      | _ => trivial
  | afterMember read stack =>
      obtain ⟨hread, hstack⟩ := h
      cases token with
      | comma => exact ⟨hread, hstack⟩
      | closeBrace => exact deliver_distinct hread hstack
      | _ => trivial
  | nothing v =>
      rw [Due.step_nothing]
      trivial
  | fault =>
      rw [Due.step_fault]
      trivial

/-- Tokens with distinct names make values with distinct names, by induction on the tokens. -/
theorem dueAfter_distinct {tokens : List Token} (h : ∀ token ∈ tokens, token.Distinct) :
    (dueAfter tokens).Distinct := by
  induction tokens with
  | nil => exact fun _ hframe => by cases hframe
  | cons token tokens ih =>
      obtain ⟨htoken, htokens⟩ := List.forall_mem_cons.mp h
      exact (ih htokens).step htoken

/-! ## The scanner -/

/-- A word stands for no object. -/
theorem distinct_of_wordValue? {word : List Char} {v : Json} (h : wordValue? word = some v) :
    v.Distinct :=
  wordValue?_induction .null .bool .int .float h

/-- A token that a character adds is no object, but at most a text or a word. -/
theorem Scan.Added.distinct {c : Char} {token : Token} (h : Scan.Added c token) :
    token.Distinct := by
  cases h with
  | punctuation h =>
      unfold punctuation? at h
      repeat' split at h
      all_goals first | (cases h; trivial) | cases h
  | text s => trivial
  | word h => exact distinct_of_wordValue? h

/-- So no token of a text is one. -/
theorem Scan.foldl_distinct (controls : Controls) {s : Scan}
    (h : ∀ token ∈ s.tokens, token.Distinct) (t : List Char) :
    ∀ token ∈ (t.foldl (Scan.step controls) s).tokens, token.Distinct := by
  induction t generalizing s with
  | nil => exact h
  | cons c t ih =>
      refine ih fun token htoken => ?_
      rcases mem_step htoken with hadded | hold
      · exact hadded.distinct
      · exact h token hold

/-- **A value that is read has distinct names.** -/
theorem distinct_of_ofChars? {controls : Controls} {t : List Char} {v : Json}
    (h : ofChars? controls t = some v) : v.Distinct := by
  have hstart : ∀ token ∈ Scan.start.tokens, token.Distinct := fun _ htoken => by cases htoken
  have htokens := Scan.foldl_distinct controls hstart t
  rw [ofChars?_eq] at h
  generalize t.foldl (Scan.step controls) Scan.start = s at h htokens
  obtain ⟨tokens, mode⟩ := s
  cases mode with
  | between =>
      rw [value?_between] at h
      have hdue := dueAfter_distinct htokens
      rwa [Due.eq_nothing_of_value? h] at hdue
  -- A word may be the last token of the text.
  | word word =>
      rw [value?_word] at h
      obtain ⟨scalar, hscalar, hvalue⟩ := Option.bind_eq_some_iff.mp h
      have htoken : Token.Distinct (.scalar scalar) := distinct_of_wordValue? hscalar
      have hdue := dueAfter_distinct (List.forall_mem_cons.mpr ⟨htoken, htokens⟩)
      rwa [Due.eq_nothing_of_value? hvalue] at hdue
  | inText => cases h
  | failed => cases h

end ReAct.Json

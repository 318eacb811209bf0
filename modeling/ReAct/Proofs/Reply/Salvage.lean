import ReAct.Proofs.Fields
import ReAct.Proofs.Json.Size
import ReAct.Proofs.Text.Search
import ReAct.Reply.Salvage

/-!
# What can be salvaged

A field that is salvaged from broken JSON stands behind its name, so it is shorter than the text
that it was found in (`length_answerField?_lt`): an answer that is salvaged is never the whole text.

The fields that are found come under their own names (`get?_fields`).
-/

namespace ReAct.Reply.Salvage

open Json Text

/-! ## Headers -/

/-- A header is at least as long as its name, two quotes and a colon. -/
theorem length_of_header? {name s rest : List Char} (h : header? name s = some rest) :
    rest.length + name.length + 3 ≤ s.length := by
  obtain ⟨behind, hbehind, h⟩ := Option.bind_eq_some_iff.mp h
  rw [after?_eq_some] at hbehind
  split at h
  · rename_i inner htrim
    cases h
    have hblanks : (trimStart behind).length ≤ behind.length := (List.dropWhile_suffix _).length_le
    have hmore : (trimStart inner).length ≤ inner.length := (List.dropWhile_suffix _).length_le
    rw [htrim, List.length_cons] at hblanks
    simp only [hbehind, List.length_append, List.length_cons, List.length_nil]
    omega
  · cases h

theorem length_of_quotedHeader? {name s rest : List Char} (h : quotedHeader? name s = some rest) :
    rest.length + name.length + 4 ≤ s.length := by
  obtain ⟨behind, hbehind, h⟩ := Option.bind_eq_some_iff.mp h
  rw [after?_eq_some] at h
  have hlength := length_of_header? hbehind
  rw [h, List.length_append, List.length_singleton] at hlength
  omega

/-! ## Values -/

/-- Decoding adds nothing but the quotes, if these were missing. -/
theorem length_decoded_le (inside : List Char) : (decoded inside).length ≤ inside.length + 2 := by
  unfold decoded
  split
  · rename_i s hs
    have hlength := length_le_of_ofChars?_str hs
    simpa using hlength
  · rw [String.length_ofList]
    exact Nat.le_add_right_of_le (length_replaceAll_le _ _ _ _)

theorem length_openEnd_le (s : List Char) : (openEnd s).length ≤ s.length := by
  have htrim : (trimEnd s).length ≤ s.length := by
    rw [trimEnd, List.length_reverse, ← @List.length_reverse _ s]
    exact (List.dropWhile_suffix _).length_le
  unfold openEnd
  dsimp only
  split
  · rw [List.length_dropLast]
    omega
  · exact htrim

/-- **An answer that is salvaged is shorter than the text.** -/
theorem length_answerField?_lt {s : List Char} {answer : String}
    (h : answerField? s = some answer) :
    answer.length < s.length := by
  obtain ⟨rest, hrest, hanswer⟩ := Option.map_eq_some_iff.mp h
  obtain ⟨t, ht, hheader⟩ := exists_suffix_of_first? hrest
  have hlength := length_of_quotedHeader? hheader
  have hle := ht.length_le
  have hinside : answer.length ≤ rest.length + 2 := by
    rw [← hanswer]
    split
    · rename_i inside hinside
      have hshort := (prefix_of_last? hinside).length_le
      have hdecoded := length_decoded_le inside
      omega
    · have hshort := length_openEnd_le rest
      have hdecoded := length_decoded_le (openEnd rest)
      omega
  have hname : "final_answer".toList.length = 12 := rfl
  omega

/-! ## Tables of fields -/

theorem get?_fields_eq (s : List Char) (name : String) :
    Fields.get? (fields s) name =
      (Fields.get? [("thought", textField? "thought" s), ("action", textField? "action" s),
        ("action_input", inputField? s), ("final_answer", answerField? s)] name).join := by
  have hnames : ["thought", "action", "action_input", "final_answer"].Nodup := by decide
  exact Fields.get?_filterMap _ name hnames

/-- The fields that a decision is made from are found under their names. -/
theorem get?_fields (s : List Char) :
    Fields.get? (fields s) "action" = textField? "action" s ∧
      Fields.get? (fields s) "final_answer" = answerField? s :=
  ⟨get?_fields_eq s "action", get?_fields_eq s "final_answer"⟩

/-- So are the fields that go with a decision. -/
theorem get?_fields_beside (s : List Char) :
    Fields.get? (fields s) "thought" = textField? "thought" s ∧
      Fields.get? (fields s) "action_input" = inputField? s :=
  ⟨get?_fields_eq s "thought", get?_fields_eq s "action_input"⟩

end ReAct.Reply.Salvage

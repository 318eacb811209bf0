import ReAct.Proofs.Reply.Braces
import ReAct.Proofs.Text.Search
import ReAct.Reply.NativeCall

/-!
# The block of an object

An object that a model writes is found whole, unless the search for it starts too late.  It starts
behind the first code fence that has a brace behind it, and a string of the object may well hold a
fence: such an object is cut short, and only such an object (`blockText?_eq_self_iff`).  A turn is
read from every other one as it was written.

## Main Definitions

* `FencedBrace`: a text with a code fence and an opening brace behind it
-/

namespace ReAct.Reply

open Json Text

/-! ## Where the search starts -/

/-- The mark that opens a code fence. -/
def fence : List Char := ['\x60', '\x60', '\x60']

/-- Whether a code fence of a text has an opening brace behind it. -/
def FencedBrace (t : List Char) : Prop :=
  ∃ before after, t = before ++ fence ++ after ∧ '\x7b' ∈ after

/-- The language mark of a fence holds no brace, so it does not matter to the search. -/
theorem mem_skipMark {rest : List Char} :
    '\x7b' ∈ (after? ['j', 's', 'o', 'n'] rest).getD rest ↔ '\x7b' ∈ rest := by
  cases h : after? ['j', 's', 'o', 'n'] rest with
  | none => rfl
  | some inner =>
      rw [after?_eq_some] at h
      rw [h, List.mem_append, Option.getD_some, or_iff_right (by decide)]

theorem suffix_skipMark (rest : List Char) :
    (after? ['j', 's', 'o', 'n'] rest).getD rest <:+ rest := by
  cases h : after? ['j', 's', 'o', 'n'] rest with
  | none => exact List.suffix_rfl
  | some inner =>
      rw [after?_eq_some] at h
      rw [h]
      exact List.suffix_append _ inner

/-- Of all fences the first one counts: more of the text is behind it than behind any other. -/
theorem fencedBrace_iff {t : List Char} :
    FencedBrace t ↔ ∃ rest, afterFirst? fence t = some rest ∧ '\x7b' ∈ rest := by
  constructor
  · rintro ⟨before, after, rfl, hmem⟩
    obtain ⟨rest, hrest, hsuffix⟩ := afterFirst?_append fence before after
    exact ⟨rest, hrest, hsuffix.subset hmem⟩
  · rintro ⟨rest, hrest, hmem⟩
    obtain ⟨before, hbefore⟩ := append_of_afterFirst? hrest
    exact ⟨before, rest, hbefore, hmem⟩

instance (t : List Char) : Decidable (FencedBrace t) :=
  decidable_of_iff ((afterFirst? fence t).any fun rest => decide ('\x7b' ∈ rest))
    (by simp [fencedBrace_iff, Option.any_eq_true])

/-- Without a brace behind a fence the search starts at the first brace. -/
theorem blockStart?_of_not_fencedBrace {t : List Char} (h : ¬ FencedBrace t) :
    blockStart? t = fromChar? '\x7b' t := by
  have hnone : (afterFence? t).bind (fromChar? '\x7b') = none := by
    rw [Option.bind_eq_none_iff]
    intro inside hinside
    obtain ⟨rest, hrest, rfl⟩ := Option.map_eq_some_iff.mp hinside
    rw [fromChar?_eq_none, mem_skipMark]
    exact fun hmem => h (fencedBrace_iff.mpr ⟨rest, hrest, hmem⟩)
  rw [blockStart?, hnone]
  rfl

/-- With one, it starts behind the fence. -/
theorem blockStart?_of_fencedBrace {t : List Char} (h : FencedBrace t) :
    ∃ start, blockStart? t = some start ∧ start.length < t.length := by
  obtain ⟨rest, hrest, hmem⟩ := fencedBrace_iff.mp h
  have hfence : afterFence? t = some ((after? ['j', 's', 'o', 'n'] rest).getD rest) := by
    rw [afterFence?, show ['\x60', '\x60', '\x60'] = fence from rfl, hrest, Option.map_some]
  cases hstart : fromChar? '\x7b' ((after? ['j', 's', 'o', 'n'] rest).getD rest) with
  | none =>
      rw [fromChar?_eq_none, mem_skipMark] at hstart
      exact absurd hmem hstart
  | some start =>
      refine ⟨start, ?_, ?_⟩
      · rw [blockStart?, hfence, Option.bind_some, hstart]
        rfl
      · have hle := ((suffix_of_fromChar hstart).trans (suffix_skipMark rest)).length_le
        obtain ⟨prose, hprose⟩ := append_of_afterFirst? hrest
        rw [hprose, List.length_append, List.length_append]
        have hmark : fence.length = 3 := rfl
        omega

/-- The text of an object is the block if the search starts with it, whatever follows it. -/
theorem block?_of_blockStart? {controls : Controls} {s t after : List Char} {v : Json}
    (hstart : blockStart? s = some (t ++ after)) (hvalue : ofChars? controls t = some v)
    (hopen : t.head? = some '\x7b') (hclose : t.getLast? = some '\x7d') : block? s = some t := by
  have hat : blockAt (t ++ after) = some (t, [] ++ after) :=
    closeBraces_followed after (blockAt_eq_self hvalue hopen hclose)
  rw [block?, hstart, Option.bind_some, hat]
  rfl

/-- The search finds the text of an object if no brace stands before it. -/
theorem fromChar?_embedded {before t : List Char} (hbefore : '\x7b' ∉ before)
    (hopen : t.head? = some '\x7b') (after : List Char) :
    fromChar? '\x7b' (before ++ (t ++ after)) = some (t ++ after) := by
  rw [fromChar?_append hbefore]
  cases t with
  | nil => cases hopen
  | cons c t => rw [List.cons_append, fromChar?, if_pos (Option.some.inj hopen)]

/-- The first object of a text is its block, whatever follows it, if nothing but prose without a
brace stands before it and no fence leads past it. -/
theorem block?_embedded {controls : Controls} {before t after : List Char} {v : Json}
    (hbefore : '\x7b' ∉ before) (hvalue : ofChars? controls t = some v)
    (hopen : t.head? = some '\x7b') (hclose : t.getLast? = some '\x7d')
    (hfenced : ¬ FencedBrace (before ++ t ++ after)) : block? (before ++ t ++ after) = some t := by
  have hstart : blockStart? (before ++ t ++ after) = some (t ++ after) := by
    rw [blockStart?_of_not_fencedBrace hfenced, List.append_assoc]
    exact fromChar?_embedded hbefore hopen after
  exact block?_of_blockStart? hstart hvalue hopen hclose

/-- **When the block of an object is the object.**  Nothing but a code fence in the text, with a
brace behind it, makes the search go wrong. -/
theorem block?_eq_self_iff {controls : Controls} {t : List Char} {v : Json}
    (hvalue : ofChars? controls t = some v) (hopen : t.head? = some '\x7b')
    (hclose : t.getLast? = some '\x7d') : block? t = some t ↔ ¬ FencedBrace t := by
  constructor
  -- A block is no longer than the text that it is searched in, which lacks the fence.
  · intro hblock hfenced
    obtain ⟨start, hstart, hlength⟩ := blockStart?_of_fencedBrace hfenced
    rw [block?, hstart, Option.bind_some] at hblock
    obtain ⟨⟨block, rest⟩, hat, hfst⟩ := Option.map_eq_some_iff.mp hblock
    replace hfst : block = t := hfst
    have hsplit := congrArg List.length (closeBraces_append hat)
    rw [List.length_append, hfst] at hsplit
    omega
  · intro hfenced
    have hblock : block? ([] ++ t ++ []) = some t :=
      block?_embedded List.not_mem_nil hvalue hopen hclose (by rwa [List.append_nil])
    rwa [List.append_nil] at hblock

/-! ## The turn of an object -/

/-- **What a model writes as an object is read as that object.**  The text `t` of an object, from
its opening to its closing brace, is its own block if and only if it has no code fence with a brace
behind it; and if so, the turn of a reply that consists of `t` is the turn of the object. -/
theorem blockText?_eq_self_iff {controls : Controls} {members : Fields Json} {t : String}
    (hvalue : ofChars? controls t.toList = some (.obj members))
    (hopen : t.toList.head? = some '\x7b') (hclose : t.toList.getLast? = some '\x7d')
    (toolNames : List String) :
    (blockText? t = some t ↔ ¬ FencedBrace t.toList) ∧
      (¬ FencedBrace t.toList →
        turnOf (.object [("response", .str t)]) {} toolNames =
          .ok (turnOfObject members t toolNames)) := by
  have hblock : blockText? t = some t ↔ ¬ FencedBrace t.toList := by
    rw [← block?_eq_self_iff hvalue hopen hclose, blockText?, Option.map_eq_some_iff]
    constructor
    · rintro ⟨block, hblock, rfl⟩
      rw [hblock, String.toList_ofList]
    · intro h
      exact ⟨t.toList, h, String.ofList_toList⟩
  refine ⟨hblock, ?_⟩
  intro hfenced
  have hobject : objectOf? t = some members := by
    unfold objectOf? readLenient?
    rw [ofChars?_allowed hvalue]
  have hturn : turnOf (.object [("response", .str t)]) {} toolNames =
      .ok (turnOfText t toolNames) := rfl
  rw [hturn, turnOfText, hblock.mpr hfenced]
  dsimp only
  rw [hobject]

/-- The text of an answer with braces and a fence in it. -/
def bracedAnswer : String :=
  "\x7b\"final_answer\": \"\x7d\x7b ```\"\x7d"

/-- Braces in a string, and a fence without a brace behind it, do no harm. -/
theorem turnOf_bracedAnswer :
    ¬ FencedBrace bracedAnswer.toList ∧ blockText? bracedAnswer = some bracedAnswer ∧
      turnOf (.object [("response", .str bracedAnswer)]) {} [] =
        .ok (turnOfObject [("final_answer", .str "\x7d\x7b ```")] bracedAnswer []) := by
  have hvalue : ofChars? .refused bracedAnswer.toList =
      some (.obj [("final_answer", .str "\x7d\x7b ```")]) := by rfl
  obtain ⟨hblock, hturn⟩ := blockText?_eq_self_iff hvalue (by decide) (by decide) []
  have hfenced : ¬ FencedBrace bracedAnswer.toList := by decide
  exact ⟨hfenced, hblock.mpr hfenced, hturn hfenced⟩

/-- An answer that quotes an object in a fence is cut short: not every object is its own block. -/
theorem not_forall_blockText?_eq_self :
    ¬ ∀ (controls : Controls) (members : Fields Json) (t : String),
      ofChars? controls t.toList = some (.obj members) → t.toList.head? = some '\x7b' →
        t.toList.getLast? = some '\x7d' → blockText? t = some t := by
  intro hall
  have hvalue : ofChars? .refused "\x7b\"final_answer\": \"```\x7b\x7d```\"\x7d".toList =
      some (.obj [("final_answer", .str "```\x7b\x7d```")]) := by rfl
  have hblock : blockText? "\x7b\"final_answer\": \"```\x7b\x7d```\"\x7d" =
      some "\x7b\x7d" := by decide
  rw [hall _ _ _ hvalue (by decide) (by decide)] at hblock
  exact absurd hblock (by decide)

end ReAct.Reply

import ReAct.Proofs.Reply.Block
import ReAct.Proofs.Reply.Decision
import ReAct.Text.Blank

/-!
# An object in a code fence

A model that explains itself puts its object into a code fence, behind prose that may hold braces of
its own.  The search for the block starts behind the first fence of the text.  That is the one that
was written, or it begins with back-ticks at the end of the prose; in both cases nothing but
back-ticks, the mark of the language and white space is left before the object
(`blockStart?_fenced`).  What follows the object does not matter, so the reply is read as the object
(`turnOf_fenced`).
-/

namespace ReAct.Reply

open Json Text

/-! ## The search behind a fence -/

/-- The mark of the language does not matter to the search for a brace. -/
theorem fromChar?_skipMark (rest : List Char) :
    fromChar? '\x7b' ((after? ['j', 's', 'o', 'n'] rest).getD rest) = fromChar? '\x7b' rest := by
  cases h : after? ['j', 's', 'o', 'n'] rest with
  | none => rfl
  | some inner =>
      rw [after?_eq_some] at h
      rw [h, Option.getD_some, fromChar?_append (by decide)]

/-- Behind a fence that follows prose without one, the search starts with the first object. -/
theorem blockStart?_fenced {prose gap t : List Char} (hprose : ¬ fence <:+: prose)
    (hgap : '\x7b' ∉ gap) (hopen : t.head? = some '\x7b') (after : List Char) :
    blockStart? (prose ++ fence ++ (gap ++ (t ++ after))) = some (t ++ after) := by
  obtain ⟨more, hmore, hfound⟩ := afterFirst?_of_not_infix hprose (gap ++ (t ++ after))
  have hbraceless : '\x7b' ∉ more ++ gap := by
    rw [List.mem_append, not_or]
    exact ⟨fun hmem => absurd (hmore.subset hmem) (by decide), hgap⟩
  have hstart : (afterFence? (prose ++ fence ++ (gap ++ (t ++ after)))).bind (fromChar? '\x7b') =
      some (t ++ after) := by
    rw [afterFence?, show ['\x60', '\x60', '\x60'] = fence from rfl, hfound, Option.map_some,
      Option.bind_some, fromChar?_skipMark, ← List.append_assoc]
    exact fromChar?_embedded hbraceless hopen after
  rw [blockStart?, hstart]
  rfl

/-! ## The turn of a fenced object -/

/-- A text whose block is the text of an object has the turn of that object. -/
theorem turnOfText_of_block {controls : Controls} {members : Fields Json} {text t : String}
    (hblock : blockText? text = some t) (hvalue : ofChars? controls t.toList = some (.obj members))
    (toolNames : List String) : turnOfText text toolNames = turnOfObject members t toolNames := by
  have hobject : objectOf? t = some members := by
    unfold objectOf? readLenient?
    rw [ofChars?_allowed hvalue]
  rw [turnOfText, hblock]
  dsimp only
  rw [hobject]

/-- A reply without a native call whose written part is such a text has it, too. -/
theorem turnOf_of_block {controls : Controls} {members : Fields Json} {text t : String}
    (hblock : blockText? text = some t) (hvalue : ofChars? controls t.toList = some (.obj members))
    {reply : Reply} {paths : Paths} (hwritten : writtenPart reply.members paths = .str text)
    (hcalls : ¬ reply.Calls paths) (toolNames : List String) :
    turnOf reply paths toolNames = .ok (turnOfObject members t toolNames) := by
  have hprose : turnOfProse reply.members paths toolNames = turnOfObject members t toolNames := by
    rw [turnOfProse, hwritten, ← turnOfText_of_block hblock hvalue toolNames]
    rfl
  by_cases hpath : ∃ path, paths.toolCalls = some path ∧ path ≠ ""
  · rw [turnOf_eq_turnWithoutCall hpath hcalls, hwritten, turnWithoutCall, hblock, ← hprose]
    rfl
  · rw [turnOf_of_withoutCalls (withoutCalls_of_not_exists hpath), hprose]

/-- **An object in a code fence is found whole.**  Let a text be prose without a code fence, then a
fence, marked as JSON or not, white space, the text `t` of an object from its opening to its closing
brace, and whatever follows.  Then `t` is the block of the text, and a reply without a native call
whose written part is this text has the turn of that object.  Strings of the object may hold
fences, braces and control characters. -/
theorem turnOf_fenced {controls : Controls} {members : Fields Json} {prose mark space t : String}
    (hprose : ¬ fence <:+: prose.toList) (hmark : mark = "json" ∨ mark = "")
    (hspace : ∀ c ∈ space.toList, isBlank c = true)
    (hvalue : ofChars? controls t.toList = some (.obj members))
    (hopen : t.toList.head? = some '\x7b') (hclose : t.toList.getLast? = some '\x7d')
    (after : String) :
    let text := prose ++ String.ofList fence ++ mark ++ space ++ t ++ after
    blockText? text = some t ∧
      ∀ (reply : Reply) (paths : Paths) (toolNames : List String),
        writtenPart reply.members paths = .str text → ¬ reply.Calls paths →
          turnOf reply paths toolNames = .ok (turnOfObject members t toolNames) := by
  intro text
  -- Between the fence and the object there is no brace, so the search stops at the object's own.
  have hgap : '\x7b' ∉ mark.toList ++ space.toList := by
    rw [List.mem_append, not_or]
    refine ⟨?_, fun hmem => absurd (hspace _ hmem) (by decide)⟩
    rcases hmark with rfl | rfl <;> decide
  have htext : text.toList =
      prose.toList ++ fence ++ (mark.toList ++ space.toList ++ (t.toList ++ after.toList)) := by
    simp [text]
  have hblock : blockText? text = some t := by
    rw [blockText?, htext, block?_of_blockStart? (blockStart?_fenced hprose hgap hopen after.toList)
      hvalue hopen hclose, Option.map_some, String.ofList_toList]
  exact ⟨hblock, fun reply paths toolNames hwritten hcalls =>
    turnOf_of_block hblock hvalue hwritten hcalls toolNames⟩

/-- An answer over two lines with a brace and a fence in it. -/
def fencedAnswer : String :=
  "\x7b\"final_answer\": \"Run it:\n\x60\x60\x60 \x7d\"\x7d"

/-- Prose that ends with a back-tick and holds braces, before the fence of an answer with more of
them. -/
theorem turnOf_fencedAnswer :
    let text := "Use \x7bx\x7d, not \x60y\x60" ++ String.ofList fence ++ "json" ++ "\n" ++
      fencedAnswer ++ "\n\x60\x60\x60\nDone \x7b"
    blockText? text = some fencedAnswer ∧
      turnOf (.text text) {} [] =
        .ok (turnOfObject [("final_answer", .str "Run it:\n\x60\x60\x60 \x7d")] fencedAnswer
          []) := by
  have hvalue : ofChars? .allowed fencedAnswer.toList =
      some (.obj [("final_answer", .str "Run it:\n\x60\x60\x60 \x7d")]) := by rfl
  have hprose : ¬ fence <:+: "Use \x7bx\x7d, not \x60y\x60".toList := by decide
  have hspace : ∀ c ∈ "\n".toList, isBlank c = true := List.all_eq_true.mp (by decide)
  obtain ⟨hblock, hturn⟩ := turnOf_fenced hprose (.inl rfl) hspace hvalue (by decide) (by decide)
    "\n\x60\x60\x60\nDone \x7b"
  have hcalls : ∀ reply : Reply, ¬ reply.Calls {} :=
    not_calls_of_withoutCalls fun path hpath => by cases hpath
  exact ⟨hblock, hturn (.text _) {} [] rfl (hcalls _)⟩

end ReAct.Reply

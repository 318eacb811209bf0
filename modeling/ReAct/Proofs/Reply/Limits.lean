import ReAct.Proofs.Json.Limits
import ReAct.Proofs.Reply.CutOff
import ReAct.Proofs.Reply.Decision
import ReAct.Reply.Limits

/-!
# Replies within the limits of the interpreter

Within the limits a reply has the turn that it has without them (`interpret_eq_ok`).  Where no path
leads to native calls there is always such a turn, so the limits alone decide whether a reply is
read (`interpret_returns_iff`), and what is read is settled.  The limits can be exceeded in a reply
like any other: an answer that is a long enough integer is not read at all
(`interpret_integerAnswer`).
-/

namespace ReAct.Reply

open Json (Limits)
open Text

variable {limits : Limits} {reply : Reply} {paths : Paths} {toolNames : List String}

/-- A reply is read within the limits, as if there were none. -/
theorem interpret_eq_ok {turn : Turn} :
    interpret limits reply paths toolNames = .ok turn ↔
      overrun? limits reply paths toolNames = none ∧
        turnOf reply paths toolNames = .ok turn := by
  unfold interpret
  cases overrun? limits reply paths toolNames with
  | none => exact ⟨fun h => ⟨rfl, h⟩, And.right⟩
  | some overrun => exact ⟨nofun, nofun⟩

/-! ## Without native calls -/

/-- Without native calls, what is read is settled. -/
theorem settled_of_interpret (hpaths : paths.WithoutCalls) {turn : Turn}
    (h : interpret limits reply paths toolNames = .ok turn) : turn.Settled toolNames := by
  obtain ⟨read, hread, hsettled⟩ :=
    turnOf_settled toolNames (not_calls_of_withoutCalls hpaths reply)
  have hsame : Except.ok turn = .ok read := (interpret_eq_ok.mp h).2.symm.trans hread
  cases hsame
  exact hsettled

/-- **Without native calls nothing but a limit keeps a reply from being read.** -/
theorem interpret_returns_iff (hpaths : paths.WithoutCalls) :
    (∃ turn, interpret limits reply paths toolNames = .ok turn) ↔
      overrun? limits reply paths toolNames = none := by
  obtain ⟨turn, hturn, -⟩ :=
    turnOf_settled toolNames (not_calls_of_withoutCalls hpaths reply)
  constructor
  · rintro ⟨_, hread⟩
    exact (interpret_eq_ok.mp hread).1
  · exact fun hnone => ⟨turn, interpret_eq_ok.mpr ⟨hnone, hturn⟩⟩

/-! ## A reply beyond the limits -/

/-- Of a response that is a text, its block is what counts. -/
theorem overrun?_response (limits : Limits) (text : String) (toolNames : List String) :
    overrun? limits (.object [("response", .str text)]) {} toolNames =
      freeTextOverrun? limits text toolNames := rfl

/-- An answer that is an integer, as a model writes it. -/
def integerAnswer (n : Int) : String :=
  (Json.obj [("final_answer", .int n)]).print Json.spaced

/-- What stands before the integer. -/
def integerAnswerOpening : List Char :=
  '\x7b' :: (Json.literal false "final_answer".toList ++ [':', ' '])

theorem toList_integerAnswer (n : Int) :
    (integerAnswer n).toList = integerAnswerOpening ++ integer n ++ ['\x7d'] := by
  rw [integerAnswer, Json.print, String.toList_ofList]
  rfl

/-- Nothing in such an answer is a fence, so all of it is decoded. -/
theorem block?_integerAnswer (n : Int) :
    block? (integerAnswer n).toList = some (integerAnswer n).toList := by
  have hdistinct : (Json.obj [("final_answer", .int n)]).Distinct :=
    .obj (List.nodup_singleton _) (by simpa using Json.Distinct.int n)
  have hvalue := Json.ofChars?_chars .allowed Json.spaced_plain hdistinct
  have htext : Json.chars Json.spaced (.obj [("final_answer", .int n)]) =
      (integerAnswer n).toList := by
    rw [integerAnswer, Json.print, String.toList_ofList]
  rw [htext] at hvalue
  have hopen : (integerAnswer n).toList.head? = some '\x7b' := by
    rw [toList_integerAnswer]
    rfl
  have hclose : (integerAnswer n).toList.getLast? = some '\x7d' := by
    rw [toList_integerAnswer, List.getLast?_concat]
  -- Neither the braces nor the digits hold a back-quote, so there is no fence.
  have hfence : ¬ fence <:+: (integerAnswer n).toList := by
    intro hfence
    have hmark : '\x60' ∈ (integerAnswer n).toList := hfence.subset (by decide)
    rw [toList_integerAnswer, List.mem_append, List.mem_append] at hmark
    rcases hmark with (hopening | hinteger) | hclosing
    · exact absurd hopening (by decide)
    · have hnumber := Decimal.integer_isNumberChar n _ hinteger
      cases hnumber
    · cases List.mem_singleton.mp hclosing
  exact (block?_eq_self_iff hvalue hopen hclose).mpr (not_fencedBrace_of_unfenced hfence)

/-- **An answer that is a long integer is not read.** -/
theorem interpret_integerAnswer {n : Int} (hn : n ≠ 0)
    (hlong : limits.digits < (natural n.natAbs).length) (toolNames : List String) :
    ∃ failure, interpret limits (.object [("response", .str (integerAnswer n))]) {} toolNames =
      .error failure := by
  have hword := Json.isWord_integer n
  have hne : integer n ≠ [] := by
    intro hnil
    have hvalue := hword.value
    rw [hnil] at hvalue
    cases hvalue
  have hopening : integerAnswerOpening.foldl (Json.Reading.step .allowed) {} =
      ⟨.between, .value false [.member [] "final_answer"]⟩ := by cbv
  have hclosing : ∀ c ∈ ['\x7d'].head?, Json.endsWord c = true := by
    rintro c ⟨⟩
    rfl
  have hdigits : limits.digits < Json.leadingDigits (integer n) := by
    rwa [Json.leadingDigits_integer hn]
  -- The integer stands where a value is due, and it is longer than the reader takes.
  obtain ⟨overrun, hoverrun⟩ :=
    Limits.readOverrun?_of_long hopening rfl hne hword.chars hclosing hdigits
  rw [← toList_integerAnswer] at hoverrun
  have hfree : freeTextOverrun? limits (integerAnswer n) toolNames = some overrun := by
    rw [freeTextOverrun?, block?_integerAnswer]
    simp only [blockOverrun?, hoverrun]
    rfl
  exact ⟨overrun.failure, by rw [interpret, overrun?_response, hfree]⟩

/-- The least integer with more digits than an interpreter converts. -/
theorem interpret_integerAnswer_pow (limits : Limits) (toolNames : List String) :
    ∃ failure, interpret limits
      (.object [("response", .str (integerAnswer (Nat.pow 10 limits.digits)))]) {} toolNames =
        .error failure := by
  have hpos : 0 < Nat.pow 10 limits.digits := Nat.pow_pos (by decide)
  refine interpret_integerAnswer (Int.natCast_ne_zero.mpr hpos.ne') ?_ toolNames
  exact lt_length_natural (Nat.le_refl _)

end ReAct.Reply

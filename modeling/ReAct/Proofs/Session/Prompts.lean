import ReAct.Proofs.Prompt.Scratchpad
import ReAct.Proofs.Session.Messages

/-!
# The prompts of a session

The prompt of a session is rendered anew for every call of the model.  Each of its scratchpads then
shows what the session has entered so far, one entry for each round before the call, and the rest of
the prompt is the same in every call (`Plan.run_shows`).  Text passes from a tool into an entry and
from there into the prompt without being looked at: in both places only the template is cut.  So an
observation is found in its entry as it is, whatever it holds.

A scratchpad with a default is a scratchpad, too.  It never shows its default, so a prompt that has
one is not the same in every call around its plain scratchpads (`Plan.not_forall_run_shows_plain`).

## Main Definitions

* `Plan.entered`: what some rounds have entered on the scratchpad
* `Plan.promptShowing`: the prompt that shows some rounds
-/

namespace ReAct.Session

open Template Prompt

namespace Plan

/-- What some rounds have entered on the scratchpad. -/
def entered (plan : Plan) (rounds : List Round) : List Char :=
  rounds.flatMap fun round => (plan.entryOf round).toList

/-- The prompt whose scratchpads show some rounds. -/
def promptShowing (plan : Plan) (rounds : List Round) : List Char :=
  (cut parametersOpening.toList plan.prompt.toList).flatMap fun piece =>
    if IsPad piece then plan.entered rounds else bare piece

/-! ## Entries -/

/-- What the template of the entries finds under the name of the observation. -/
theorem get?_values (turn : Reply.Turn) (observation : Tool.Observation) :
    Fields.get? ([("llm_tool_selection_response", turn.source),
        ("tool_name", some observation.toolName), ("tool_input", turn.actionInput),
        ("observation", some observation.text)].filterMap
          fun v => v.2.map fun text => (v.1, text)) "observation" = some observation.text := by
  refine Fields.get?_filterMap _ _ ?_
  change ["llm_tool_selection_response", "tool_name", "tool_input", "observation"].Nodup
  decide

/-- **An observation is entered as it is**, if the template of the entries has a place for it. -/
theorem observation_infix_entry {plan : Plan} {default : Option (List Char)}
    (htemplate : .hole "observation".toList default ∈
      cut parametersOpening.toList plan.config.toolResponse.toList) (round : Round) :
    round.observation.text.toList <:+: (plan.entryOf round).toList := by
  rw [entryOf, scratchpadEntry, String.toList_append, fill, String.toList_ofList]
  refine List.IsInfix.trans ?_ (List.prefix_append _ _).isInfix
  exact infix_fillChars htemplate
    (congrArg (Option.map String.toList) (get?_values round.turn round.observation)) _

/-- The prompt that shows some entries is the prompt with these in the place of its scratchpads. -/
theorem padded_eq_promptShowing (plan : Plan) (rounds : List Round) :
    padded (plan.entered rounds) plan.prompt.toList = plan.promptShowing rounds :=
  List.flatMap_congr fun piece _ => padPiece_eq _ piece

/-- The prompt of the call after some rounds shows these rounds. -/
theorem promptOf_afterAll (plan : Plan) (rounds : List Round) (answer : Except Failure Reply) :
    promptOf (plan.callParameters (plan.afterAll {} rounds), answer) =
      some (.str (String.ofList (plan.promptShowing rounds))) := by
  have hjoin : (String.join (plan.afterAll {} rounds).scratchpad).toList = plan.entered rounds := by
    rw [afterAll_scratchpad, String.toList_join, List.nil_append, List.flatMap_map]
    rfl
  rw [promptOf_callParameters, promptWith, renderScratchpad_eq, hjoin, padded_eq_promptShowing]

/-- Where the only scratchpad ends the prompt, more rounds go on with the prompt. -/
theorem promptShowing_prefix {plan : Plan} {before : List Piece} {last : Piece}
    (hcut : cut parametersOpening.toList plan.prompt.toList = before ++ [last])
    (hlast : IsPad last) (hbefore : ∀ piece ∈ before, ¬ IsPad piece) {rounds more : List Round}
    (h : rounds <+: more) : plan.promptShowing rounds <+: plan.promptShowing more := by
  obtain ⟨others, rfl⟩ := h
  rw [← padded_eq_promptShowing, ← padded_eq_promptShowing, padded_of_last hcut hlast hbefore,
    padded_of_last hcut hlast hbefore, entered, entered, List.flatMap_append]
  exact (List.prefix_append_right_inj _).mpr (List.prefix_append _ _)

/-! ## The calls of a session -/

/-- The prompt of the call after `k` rounds shows these rounds. -/
theorem promptOf_of_getElem? {plan : Plan} {rounds : List Round}
    {calls : List (Fields Json × Except Failure Reply)}
    (hparams : calls.map Prod.fst =
      rounds.inits.map fun first => plan.callParameters (plan.afterAll {} first))
    {k : Nat} {call : Fields Json × Except Failure Reply} (hcall : calls[k]? = some call) :
    promptOf call = some (.str (String.ofList (plan.promptShowing (rounds.take k)))) := by
  obtain ⟨-, hfirst⟩ := callParameters_of_getElem? hparams hcall
  obtain ⟨params, answer⟩ := call
  cases hfirst
  exact promptOf_afterAll plan (rounds.take k) answer

/-- A session of two calls has a round between them, which its second prompt shows. -/
theorem prompts_of_two_calls {plan : Plan} {world : Dialogue.World Request Request.Answer}
    (hlength : (modelCalls (plan.run.play world).1).length = 2) :
    ∃ round first second, modelCalls (plan.run.play world).1 = [first, second] ∧
      promptOf first = some (.str (String.ofList (plan.promptShowing []))) ∧
      promptOf second = some (.str (String.ofList (plan.promptShowing [round]))) := by
  obtain ⟨rounds, -, -, -, -, -, hparams, -⟩ :=
    modelCalls_of_run (Dialogue.play_yields world plan.run)
  obtain ⟨first, second, hpair⟩ := List.length_eq_two.mp hlength
  rw [hpair] at hparams
  have hinits : rounds.length + 1 = 2 := by simpa using (congrArg List.length hparams).symm
  obtain ⟨round, rfl⟩ := List.length_eq_one_iff.mp (show rounds.length = 1 by omega)
  exact ⟨round, first, second, hpair, @promptOf_of_getElem? plan [round] _ hparams 0 first rfl,
    @promptOf_of_getElem? plan [round] _ hparams 1 second rfl⟩

/-- **The prompts of a session.**  Let the template of the entries have a place for the observation.
Whatever the world answers, every call of the model but the last one is followed by a round, whose
entry holds the text of its observation as it is.  The prompt of a call after `k` rounds is the
prompt of the session in which every scratchpad shows the entries of just these rounds, one after
the other; all other parts are the same in every call.  If the only scratchpad ends the prompt, then
each call begins with the prompt of the call before it. -/
theorem run_shows {plan : Plan} {default : Option (List Char)}
    (htemplate : .hole "observation".toList default ∈
      cut parametersOpening.toList plan.config.toolResponse.toList)
    (world : Dialogue.World Request Request.Answer) :
    let history := (plan.run.play world).1
    let pieces := cut parametersOpening.toList plan.prompt.toList
    ∃ rounds : List Round,
      (∃ played rest, history = played ++ rest ∧ plan.PlaysAll {} rounds played) ∧
      (modelCalls history).length = rounds.length + 1 ∧
      (∀ round ∈ rounds, round.observation.text.toList <:+: (plan.entryOf round).toList) ∧
      (∀ k call, (modelCalls history)[k]? = some call →
        promptOf call = some (.str (String.ofList (pieces.flatMap fun piece =>
          if IsPad piece then (rounds.take k).flatMap fun round => (plan.entryOf round).toList
          else bare piece)))) ∧
      ((∃ before last, pieces = before ++ [last] ∧ IsPad last ∧
          ∀ piece ∈ before, ¬ IsPad piece) →
        ∀ k call next, (modelCalls history)[k]? = some call →
          (modelCalls history)[k + 1]? = some next →
            ∃ prompt longer, promptOf call = some (.str prompt) ∧
              promptOf next = some (.str longer) ∧ prompt.toList <+: longer.toList) := by
  have hyields := Dialogue.play_yields world plan.run
  generalize plan.run.play world = played at hyields
  obtain ⟨history, progress, outcome⟩ := played
  dsimp only at hyields ⊢
  obtain ⟨rounds, played, rest, last, hhistory, hplayed, hparams, -⟩ := modelCalls_of_run hyields
  refine ⟨rounds, ⟨played, rest, hhistory, hplayed⟩, ?_,
    fun round _ => observation_infix_entry htemplate round,
    fun k call hcall => promptOf_of_getElem? hparams hcall, ?_⟩
  · simpa using congrArg List.length hparams
  -- The placeholder stands last, so that a prompt with more rounds only goes on where the other
  -- ends.
  · rintro ⟨before, last, hcut, hlast, hbefore⟩ k call next hcall hnext
    refine ⟨_, _, promptOf_of_getElem? hparams hcall, promptOf_of_getElem? hparams hnext, ?_⟩
    rw [String.toList_ofList, String.toList_ofList]
    exact promptShowing_prefix hcut hlast hbefore (List.take_prefix_take_left (Nat.le_succ k))

/-- A chat whose prompt shows each observation between brackets. -/
def observing (prompt : String) : Plan :=
  { chat with
    prompt := prompt
    config := { chat.config with toolResponse := "<$\x7bparameters.observation\x7d>" } }

/-- A chat whose prompt ends with its scratchpad. -/
def once : Plan :=
  observing "Q$\x7bparameters.scratchpad\x7d"

/-- The two prompts of a session whose prompt ends with its scratchpad. -/
theorem run_shows_chat :
    ∃ round, round.observation.text.toList <:+: (once.entryOf round).toList ∧
      (modelCalls (once.run.play chatWorld).1).map promptOf =
        [some (.str "Q"), some (.str ("Q" ++ once.entryOf round))] := by
  have htemplate : .hole "observation".toList none ∈
      cut parametersOpening.toList once.config.toolResponse.toList := by
    decide +kernel
  have hcut : cut parametersOpening.toList once.prompt.toList =
      [.char 'Q', .hole scratchpadKey.toList none] := by
    decide +kernel
  have hlength : (modelCalls (once.run.play chatWorld).1).length = 2 := by
    decide +kernel
  obtain ⟨rounds, -, hcalls, hentries, hprompts, -⟩ := run_shows htemplate chatWorld
  obtain ⟨round, rfl⟩ : ∃ round, rounds = [round] := List.length_eq_one_iff.mp (by omega)
  obtain ⟨first, second, hpair⟩ := List.length_eq_two.mp hlength
  rw [hpair, hcut] at hprompts
  refine ⟨round, hentries round (List.mem_singleton_self round), ?_⟩
  rw [hpair, List.map_cons, List.map_cons, hprompts 0 first rfl, hprompts 1 second rfl]
  simp [bare, Piece.fill]

/-- The entries of an observing chat. -/
theorem entryOf_observing (prompt : String) (round : Round) :
    ((observing prompt).entryOf round).toList =
      '<' :: (round.observation.text.toList ++ ['>', '\n', '\n']) := by
  have hcut : cut parametersOpening.toList "<$\x7bparameters.observation\x7d>".toList =
      [.char '<', .hole "observation".toList none, .char '>'] := by
    decide +kernel
  have htemplate : (observing prompt).config.toolResponse =
      "<$\x7bparameters.observation\x7d>" := rfl
  rw [entryOf, scratchpadEntry, htemplate, String.toList_append, fill, String.toList_ofList,
    fillChars, hcut]
  simp [Piece.fill, get?_values]

/-- A chat with two scratchpads, the second of which has a default. -/
def twice : Plan :=
  observing "$\x7bparameters.scratchpad\x7d|$\x7bparameters.scratchpad:-none\x7d"

theorem cut_twice : cut parametersOpening.toList twice.prompt.toList =
    [padHole, .char '|', .hole scratchpadKey.toList (some "none".toList)] := by
  decide +kernel

theorem promptShowing_twice (rounds : List Round) :
    twice.promptShowing rounds = twice.entered rounds ++ '|' :: twice.entered rounds := by
  rw [promptShowing, cut_twice]
  simp [bare, Piece.fill]

/-- With a prompt of two scratchpads, the second of which has a default, no text around the plain
one is the same in every call, whatever is taken for an entry. -/
theorem not_forall_run_shows_plain :
    ¬ ∀ (plan : Plan) (world : Dialogue.World Request Request.Answer) (groups : List (List Piece)),
      cut parametersOpening.toList plan.prompt.toList = [padHole].intercalate groups →
      2 ≤ groups.length → (∀ group ∈ groups, padHole ∉ group) →
      .hole "observation".toList none ∈
        cut parametersOpening.toList plan.config.toolResponse.toList →
      ∃ stretches entries : List (List Char), stretches.length = groups.length ∧
        ∀ k call, (modelCalls (plan.run.play world).1)[k]? = some call →
          promptOf call =
            some (.str (String.ofList ((entries.take k).flatten.intercalate stretches))) := by
  intro hall
  obtain ⟨stretches, entries, hstretches, hprompts⟩ := hall twice chatWorld
    [[], [.char '|', .hole scratchpadKey.toList (some "none".toList)]] cut_twice (by decide)
    (by decide +kernel) (by decide +kernel)
  obtain ⟨before, after, rfl⟩ := List.length_eq_two.mp hstretches
  have hlength : (modelCalls (twice.run.play chatWorld).1).length = 2 := by
    decide +kernel
  obtain ⟨round, first, second, hpair, hfirst, hsecond⟩ := prompts_of_two_calls hlength
  rw [hpair] at hprompts
  have htext {chars other : List Char}
      (h : some (Json.str (String.ofList chars)) = some (.str (String.ofList other))) :
      chars = other :=
    String.ofList_inj.mp (Json.str.inj (Option.some.inj h))
  have hone : ['|'] = before ++ after := by
    refine (promptShowing_twice []).symm.trans ?_
    simpa using htext (hfirst.symm.trans (hprompts 0 first rfl))
  have htwo : twice.promptShowing [round] = before ++ ((entries.take 1).flatten ++ after) := by
    simpa using htext (hsecond.symm.trans (hprompts 1 second rfl))
  have hentered : twice.entered [round] =
      '<' :: (round.observation.text.toList ++ ['>', '\n', '\n']) := by
    rw [entered, List.flatMap_singleton]
    exact entryOf_observing _ round
  rw [promptShowing_twice, hentered] at htwo
  -- The first call leaves the bar on one side of the first scratchpad, and nothing on the other.
  rcases List.append_eq_singleton_iff.mp hone.symm with ⟨rfl, rfl⟩ | ⟨rfl, rfl⟩
  · have hlast := congrArg List.reverse htwo
    simp at hlast
  · have hhead := congrArg List.head? htwo
    simp at hhead

end Plan

end ReAct.Session

import ReAct.Proofs.Session.Roster

/-!
# Sessions without native calls

Where no path leads to native calls, a model writes what it decides.  Whatever it writes within the
limits of the interpreter is read as a turn that answers, or that calls one of the tools that there
are, and not both; so every tool that a session is asked for is one that it has, and nothing that it
hands back is unsupported (`run_settles`).  A reply beyond the limits is not taken for an answer,
degraded or not: its reading fails, and the session with it (`not_forall_interpret_settles`).
-/

namespace ReAct.Session

namespace Plan

/-- The tool that a turn asks for has the name that the turn gives. -/
theorem action_of_requested {plan : Plan} {turn : Reply.Turn} {tool : Tool.Entry}
    (h : plan.requested? turn = some tool) : turn.action = some tool.name := by
  obtain ⟨name, haction, hfound⟩ := Option.bind_eq_some_iff.mp h
  split at hfound
  · cases hfound
  · rw [tool?] at hfound
    have hname : tool.name = name := by simpa using List.find?_some hfound
    rw [haction, hname]

/-- A turn that is settled, and no answer, asks for a tool of the session. -/
theorem requested_of_settled {plan : Plan} {turn : Reply.Turn}
    (hnames : "" ∉ plan.toolNames) (hsettled : turn.Settled plan.toolNames)
    (hopen : turn.finalAnswer = none) : ∃ tool, plan.requested? turn = some tool := by
  obtain ⟨name, haction⟩ := hsettled.completed.mpr hopen
  have hmem := hsettled.known name haction
  refine exists_requested?_iff.mpr ⟨name, hmem, ?_, haction⟩
  rintro rfl
  exact hnames hmem

/-- The last reply of a session that returns was read, so it was within the limits. -/
theorem last_of_returned {plan : Plan} {progress : Progress} {result : Result} {history : History}
    {rounds : List Round} {last : Except Failure Reply}
    (h : plan.run.Yields history (progress, .ok result))
    (hanswers : (modelCalls history).map Prod.snd =
      (rounds.map fun round => .ok round.reply) ++ [last]) :
    ∃ reply, last = .ok reply ∧
      Reply.overrun? plan.limits reply plan.config.paths plan.toolNames = none := by
  obtain ⟨others, reply, hreturned⟩ := run_returned h
  have hsame := hanswers.symm.trans hreturned.replies
  obtain ⟨-, hlast⟩ := List.append_inj' hsame rfl
  cases hlast
  refine ⟨reply, rfl, ?_⟩
  rcases hreturned.ending with ⟨⟨turn, hread, -⟩, -⟩ | ⟨⟨turn, hread, -⟩, -⟩
  · exact (Reply.interpret_eq_ok.mp hread).1
  · exact (Reply.interpret_eq_ok.mp hread).1

/-- **Whatever a model writes within the limits, it answers or calls a tool.**  With paths that lead
to no native calls, a reply is read if and only if nothing in it exceeds a limit of the interpreter,
and then as a turn that answers or calls a tool and does not do both, calls none but the given
tools, and is degraded only as an answer.  Hence, if no tool of a session goes without a name, every
round of the session, whatever the world does, has named a tool of the session, and what is handed
back comes from that tool; and if the session returns, its last reply, too, was within the
limits. -/
theorem run_settles {paths : Reply.Paths} (hpaths : paths.WithoutCalls) :
    (∀ (limits : Json.Limits) (reply : Reply) (toolNames : List String),
      ((∃ turn, Reply.interpret limits reply paths toolNames = .ok turn) ↔
        Reply.overrun? limits reply paths toolNames = none) ∧
      ∀ turn, Reply.interpret limits reply paths toolNames = .ok turn → turn.Settled toolNames) ∧
    ∀ (plan : Plan) (world : Dialogue.World Request Request.Answer),
      plan.config.paths = paths → "" ∉ plan.toolNames →
        let history := (plan.run.play world).1
        ∃ rounds last,
          (modelCalls history).map Prod.snd = (rounds.map fun round => .ok round.reply) ++ [last] ∧
          (∃ played rest, history = played ++ rest ∧ plan.PlaysAll {} rounds played) ∧
          (∀ round ∈ rounds, ∃ tool ∈ plan.tools, round.turn.action = some tool.name ∧
            round.observation.toolName = tool.name ∧ round.observation.kind ≠ .unsupported) ∧
          ∀ result, (plan.run.play world).2.2 = .ok result →
            ∃ reply, last = .ok reply ∧
              Reply.overrun? plan.limits reply plan.config.paths plan.toolNames = none := by
  refine ⟨fun limits reply toolNames =>
    ⟨Reply.interpret_returns_iff hpaths, fun turn => Reply.settled_of_interpret hpaths⟩, ?_⟩
  rintro plan world rfl hnames history
  have hyields : plan.run.Yields history (plan.run.play world).2 := Dialogue.play_yields world _
  obtain ⟨rounds, played, rest, last, hhistory, hplayed, -, hanswers⟩ := modelCalls_of_run hyields
  refine ⟨rounds, last, hanswers, ⟨played, rest, hhistory, hplayed⟩, ?_, ?_⟩
  -- The loop went on after this round, so its turn had no answer: it is a call of a known tool.
  · intro round hround
    obtain ⟨before, part, hplays⟩ := exists_plays_of_mem hplayed round hround
    have hsettled := Reply.settled_of_interpret hpaths hplays.read
    obtain ⟨tool, htool⟩ := requested_of_settled hnames hsettled hplays.unanswered
    obtain ⟨told, observed, toldAgain, _, _, -, -, hobserved, -⟩ := hplays.parts
    obtain ⟨hsupported, hname⟩ := supported_of_observed hobserved
    exact ⟨tool, mem_tools_of_requested htool, action_of_requested htool, hname tool htool,
      hsupported.mpr ⟨tool, htool⟩⟩
  -- A run that returned has read its last reply.
  · intro result hresult
    have hreturns : plan.run.Yields history ((plan.run.play world).2.1, .ok result) := by
      rw [← hresult]
      exact hyields
    exact last_of_returned hreturns hanswers

/-- A session with a tool. -/
def adder : Plan where
  session := { question := "1 + 1?" }
  model := "m"
  config := Config.initial
  prompt := ""
  tools := [⟨{ type := "sum" }, ⟨some "adds", []⟩⟩]
  modelParameters := []
  remembers := false
  provider := none

/-- The decision to use it, which names it in passing. -/
def adderCall : Reply :=
  .object [("action", .str "Let me use Sum.")]

/-- A world whose model decides so and then answers. -/
def adderWorld : Dialogue.World Request Request.Answer
  | past, .callModel _ _ => .ok (if past.isEmpty then adderCall else .text "2")
  | _, .memory _ => .error ⟨.memory, ""⟩
  | _, .buildTool _ => .ok ⟨none, []⟩
  | _, .runTool _ _ => .ok (.int 2)
  | _, .closeTool _ => .ok ()
  | _, .discover _ _ => .ok []

/-- The decision is read, and the one round of such a session follows it. -/
theorem run_settles_adder :
    adder.config.paths.WithoutCalls ∧ "" ∉ adder.toolNames ∧
      (∃ turn, turn.Settled adder.toolNames ∧
        Reply.interpret adder.limits adderCall adder.config.paths adder.toolNames = .ok turn) ∧
      ∃ round : Round, (modelCalls (adder.run.play adderWorld).1).map Prod.snd =
        [.ok round.reply, .ok (.text "2")] ∧ round.reply = adderCall ∧
          round.turn.action = some "sum" ∧ round.observation.toolName = "sum" ∧
            round.observation.kind ≠ .unsupported := by
  have hsnd : (modelCalls (adder.run.play adderWorld).1).map Prod.snd =
      [.ok adderCall, .ok (.text "2")] := by
    rfl
  have hpaths : adder.config.paths.WithoutCalls := by
    rintro path ⟨⟩
  have hnames : "" ∉ adder.toolNames := by decide +kernel
  obtain ⟨hreads, hruns⟩ := run_settles hpaths
  obtain ⟨hreturns, hsettled⟩ := hreads adder.limits adderCall adder.toolNames
  obtain ⟨turn, hturn⟩ := hreturns.mpr (by decide +kernel)
  obtain ⟨rounds, last, hanswers, -, hrounds, -⟩ := hruns adder adderWorld rfl hnames
  rw [hsnd] at hanswers
  obtain ⟨round, rfl⟩ : ∃ round, rounds = [round] := by
    have hlength := congrArg List.length hanswers
    rw [List.length_append, List.length_map] at hlength
    exact List.length_eq_one_iff.mp (by simpa using hlength.symm)
  have hreply : adderCall = round.reply := Except.ok.inj (List.cons.inj hanswers).1
  obtain ⟨tool, htool, haction, hname, hkind⟩ := hrounds round (List.mem_singleton_self round)
  have hsum : tool.name = "sum" := by
    rw [List.mem_singleton.mp htool]
    rfl
  rw [hsum] at haction hname
  exact ⟨hpaths, hnames, ⟨turn, hsettled turn hturn, hturn⟩, round, by rw [hsnd, hreply],
    hreply.symm, haction, hname, hkind⟩

/-- An answer of 4301 digits, one more than an interpreter converts if it is left as it comes: it is
not read, so not every reply settles a session. -/
theorem not_forall_interpret_settles :
    ¬ ∀ (reply : Reply) (paths : Reply.Paths) (toolNames : List String),
      paths.WithoutCalls → "" ∉ toolNames →
        ∃ turn, Reply.interpret {} reply paths toolNames = .ok turn ∧ turn.Settled toolNames := by
  intro hall
  have hpaths : Reply.Paths.WithoutCalls {} := by
    rintro path ⟨⟩
  obtain ⟨failure, hfailure⟩ := Reply.interpret_integerAnswer_pow {} []
  obtain ⟨turn, hturn, -⟩ :=
    hall (.object [("response", .str (Reply.integerAnswer _))]) {} [] hpaths List.not_mem_nil
  rw [hfailure] at hturn
  cases hturn

end Plan

end ReAct.Session

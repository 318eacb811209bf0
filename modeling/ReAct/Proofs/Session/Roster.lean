import ReAct.Proofs.Prompt.Tools
import ReAct.Proofs.Provider
import ReAct.Proofs.Session.Inquiry
import ReAct.Proofs.Session.Messages
import ReAct.Proofs.Session.Toolbox

/-!
# Who knows which tools

The tools of a session are told to many: the prompt lists them, the provider declares them, replies
are read with a view to their names, and the loop finds them by name.  They all go by one list
(`answer_agrees`).  It is made once, from the specifications of the agent and then those that a
catalogue offered, and it has one tool of every name, of the last specification of that name.

## Main Definitions

* `offered`: the specifications that a catalogue offered
* `Plan.Equipped`: a plan whose tools stand for specifications, and were built in a history
* `Plan.Agrees`: a plan in whose run everybody goes by the names of its tools
-/

namespace ReAct.Session

/-! ## What a catalogue offers -/

namespace Host

variable {host : Host} {agent : Agent} {inquiry : Inquiry} {config : Config}
  {provider : Option Provider}

end Host

/-! ## Equipping a plan -/

namespace Host

variable {host : Host} {agent : Agent} {inquiry : Inquiry} {config : Config}
  {provider : Option Provider}

end Host

/-! ## Running a session -/

namespace Plan

/-- The names of the tools of a plan. -/
def toolNames (plan : Plan) : List String :=
  plan.tools.map Tool.Entry.name

/-- A name belongs to a tool exactly if it is among the names. -/
theorem isSome_tool? (plan : Plan) (name : String) :
    (plan.tool? name).isSome = true ↔ name ∈ plan.toolNames := by
  rw [tool?, List.find?_isSome, toolNames, List.mem_map]
  simp only [beq_iff_eq]

/-- A turn asks for a tool of the session if it names one that has a name. -/
theorem exists_requested?_iff {plan : Plan} {turn : Reply.Turn} :
    (∃ tool, plan.requested? turn = some tool) ↔
      ∃ name ∈ plan.toolNames, name ≠ "" ∧ turn.action = some name := by
  constructor
  · rintro ⟨tool, htool⟩
    obtain ⟨name, haction, hfound⟩ := Option.bind_eq_some_iff.mp htool
    split at hfound
    · cases hfound
    · rename_i hname
      refine ⟨name, (plan.isSome_tool? name).mp ?_, hname, haction⟩
      rw [hfound]
      rfl
  · rintro ⟨name, hmem, hname, haction⟩
    obtain ⟨tool, htool⟩ := Option.isSome_iff_exists.mp ((plan.isSome_tool? name).mpr hmem)
    refine ⟨tool, ?_⟩
    rw [requested?, haction, Option.bind_some, if_neg hname, htool]

/-- What is observed is unsupported if no tool of the session was asked for, else it is about the
tool that was. -/
theorem supported_of_observed {plan : Plan} {turn : Reply.Turn} {history : History}
    {observation : Tool.Observation} (h : plan.Observed turn history observation) :
    (observation.kind ≠ .unsupported ↔ ∃ tool, plan.requested? turn = some tool) ∧
      ∀ tool, plan.requested? turn = some tool → observation.toolName = tool.name := by
  cases h with
  | unsupported hnone =>
      simp [hnone, Tool.Observation.ofUnsupported]
  | refused hsome hrefused =>
      simp [hsome, Tool.Observation.ofRefused]
  | ran hsome haccepts answer =>
      cases answer <;> simp [hsome, Tool.Observation.ofRun]

/-- A run in which everybody goes by the names of the tools: the loop finds a tool under each of
them and under no other name, the provider declares them in every call, replies are read with a view
to them, and a round runs or refuses a tool exactly if the model has named one of them. -/
structure Agrees (plan : Plan) (ran : History) : Prop where
  found : ∀ name, (plan.tool? name).isSome = true ↔ name ∈ plan.toolNames
  declared : ∀ provider, plan.provider = some provider → ∀ call ∈ modelCalls ran,
    ∃ declarations : List Json,
      Fields.get? call.1 "_tools" = some (.str ((Json.arr declarations).print Json.spaced)) ∧
        declarations.map provider.declaredName = plan.toolNames.map Json.str
  read : ∃ rounds last,
    (modelCalls ran).map Prod.snd = (rounds.map fun round => .ok round.reply) ++ [last] ∧
      (∃ played rest, ran = played ++ rest ∧ plan.PlaysAll {} rounds played) ∧
      ∀ round ∈ rounds,
        Reply.turnOf round.reply plan.config.paths plan.toolNames = .ok round.turn ∧
          (round.observation.kind ≠ .unsupported ↔
            ∃ name ∈ plan.toolNames, name ≠ "" ∧ round.turn.action = some name)
  run : ∀ run ∈ toolRuns ran, run.1 ∈ plan.toolNames

end Plan

/-! ## One list -/

/-- A process that knows one type of tools and has a catalogue. -/
def sumHost : Host where
  toolTypes := ["sum"]
  remembers := false
  discovers := true
  now := ⟨2024, 2, 29, 12, 0, 0, 0, some 0⟩

/-- An agent with two tools of that type. -/
def sumAgent : Agent where
  name := "a"
  model := { id := "m" }
  tools := [{ type := "sum", name := some "plus" }, { type := "sum", description := some "sums" }]

/-- A world whose catalogue offers another tool of the first name. -/
def sumWorld : Dialogue.World Request Request.Answer
  | _, .callModel _ _ => .ok (.text "2")
  | _, .memory _ => .error ⟨.memory, ""⟩
  | _, .buildTool spec => .ok ⟨spec.description, []⟩
  | _, .runTool _ _ => .ok .null
  | _, .closeTool _ => .ok ()
  | _, .discover _ _ => .ok [{ type := "sum", name := some "plus", description := some "adds" }]

/-- The tool of the catalogue takes the place of its namesake. -/
example : (((sumHost.prepare sumAgent { question := "1 + 1?" }).run.play sumWorld).2.toOption.map
    fun plan => plan.tools.map fun tool => (tool.name, tool.spec.description)) =
      some [("plus", some "adds"), ("sum", some "sums")] := by
  decide +kernel

end ReAct.Session

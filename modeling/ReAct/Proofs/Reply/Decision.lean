import ReAct.Reply.NativeCall

/-!
# What a reply decides

Whatever a model replies, a reply that is read as a turn decides something: it answers, or it names
a tool.  A reply in which no native call is taken does one of the two and not both, and it names one
of the tools that there are (`turnOf_settled`); what cannot be understood is an answer.

A reply is not read as a turn if it announces a native call where there is `true` or a number
instead of one.  This is the only way in which reading a reply can fail (`turnOf_returns_iff`).  A
native call that has no name leads to a turn that neither answers nor names a tool, and nothing else
does (`turnOf_completed_iff`).

## Main Definitions

* `Turn.Decides`: a turn that answers, or calls one of the given tools
* `Turn.Completed`, `Turn.Settled`: a turn that does one of the two and not both, and one that
  calls none but the given tools at that
* `Reply.Calls`, `Reply.Miscalls`: a native call is taken, and what is taken for one is none
* `Paths.WithoutCalls`: paths with which no native call is ever taken
* `Reply.TakesCall`: a native call of a given name is taken
-/

namespace ReAct.Reply

/-! ## The names of tools -/

/-- The preferred name is one of the names. -/
theorem mem_of_preferred? {names : List String} {name : String}
    (h : preferred? names = some name) : name ∈ names := by
  induction names generalizing name with
  | nil => cases h
  | cons first rest ih =>
      rw [preferred?] at h
      split at h
      · cases h
        exact List.mem_cons_self
      · rename_i other hother
        cases h
        split
        · exact List.mem_cons_of_mem _ (ih hother)
        · exact List.mem_cons_self

/-- A tool that is recognised is one of those that there are. -/
theorem mem_of_toolName? {action name : String} {names : List String}
    (h : toolName? action names = some name) : name ∈ names := by
  unfold toolName? at h
  dsimp only at h
  split at h
  · rename_i hcontains
    cases h
    exact List.contains_iff_mem.mp hcontains
  · split at h
    · rename_i found hfound
      cases h
      exact List.mem_of_find?_eq_some hfound
    · exact (List.mem_filter.mp (mem_of_preferred? h)).1

/-! ## Decisions -/

/-- A turn that answers, or calls one of the given tools. -/
def Turn.Decides (toolNames : List String) (turn : Turn) : Prop :=
  turn.isFinal = true ∨ ∃ name ∈ toolNames, turn.action = some name

/-- A turn that answers or calls a tool, and does not do both. -/
def Turn.Completed (turn : Turn) : Prop :=
  (∃ name, turn.action = some name) ↔ turn.finalAnswer = none

/-- A completed turn that calls none but the given tools.  Only an answer may be degraded. -/
structure Turn.Settled (toolNames : List String) (turn : Turn) : Prop where
  completed : turn.Completed
  known : ∀ name, turn.action = some name → name ∈ toolNames
  answers_of_degraded : turn.degraded = true → turn.isFinal = true

/-- A turn that is settled answers or calls a tool. -/
theorem Turn.Settled.decides {toolNames : List String} {turn : Turn} (h : turn.Settled toolNames) :
    turn.Decides toolNames := by
  cases hanswer : turn.finalAnswer with
  | some answer => exact .inl (by rw [Turn.isFinal, hanswer]; rfl)
  | none =>
      obtain ⟨name, hname⟩ := h.completed.mpr hanswer
      exact .inr ⟨name, h.known name hname, hname⟩

/-- An answer without an action is settled, degraded or not. -/
theorem Turn.settled_of_answer (toolNames : List String) {turn : Turn}
    (haction : turn.action = none) (hanswer : turn.isFinal = true) : turn.Settled toolNames where
  completed := by
    rw [Turn.isFinal] at hanswer
    constructor
    · rintro ⟨name, hname⟩
      rw [haction] at hname
      cases hname
    · intro hnone
      rw [hnone] at hanswer
      cases hanswer
  known := by
    intro name hname
    rw [haction] at hname
    cases hname
  answers_of_degraded := fun _ => hanswer

/-- So is the call of a tool that there is. -/
theorem Turn.settled_of_call {toolNames : List String} {turn : Turn} {name : String}
    (haction : turn.action = some name) (hname : name ∈ toolNames)
    (hopen : turn.finalAnswer = none) (hproper : turn.degraded = false) :
    turn.Settled toolNames where
  completed := ⟨fun _ => hopen, fun _ => ⟨name, haction⟩⟩
  known := by
    intro other hother
    rw [haction] at hother
    cases hother
    exact hname
  answers_of_degraded := by
    intro hdegraded
    rw [hproper] at hdegraded
    cases hdegraded

/-- An object is read as an answer or as the call of a known tool; an action that names none makes
the object itself the answer. -/
theorem turnOfObject_settled (members : Fields Json) (source : String) (toolNames : List String) :
    (turnOfObject members source toolNames).Settled toolNames := by
  unfold turnOfObject
  dsimp only
  split
  · exact Turn.settled_of_answer _ rfl rfl
  · split
    · rename_i name hname
      split at hname
      · exact Turn.settled_of_call rfl (mem_of_toolName? hname) rfl rfl
      · cases hname
    · exact Turn.settled_of_answer _ rfl rfl

/-- A text without a readable object is salvaged, or is the answer. -/
theorem turnOfBrokenText_settled (text source : String) (toolNames : List String) :
    (turnOfBrokenText text source toolNames).Settled toolNames := by
  unfold turnOfBrokenText
  dsimp only
  split
  · exact turnOfObject_settled _ _ _
  · exact Turn.settled_of_answer _ rfl rfl

/-- A text is settled, whatever stands in it. -/
theorem turnOfText_settled (text : String) (toolNames : List String) :
    (turnOfText text toolNames).Settled toolNames := by
  unfold turnOfText
  split
  · exact turnOfBrokenText_settled _ _ _
  · split
    · exact turnOfObject_settled _ _ _
    · exact turnOfBrokenText_settled _ _ _

/-- So is whatever else the model may have written. -/
theorem turnOfProse_settled (members : Fields Json) (paths : Paths) (toolNames : List String) :
    (turnOfProse members paths toolNames).Settled toolNames := by
  unfold turnOfProse
  cases writtenPart members paths with
  | obj members => exact turnOfObject_settled _ _ _
  | null => exact Turn.settled_of_answer _ rfl rfl
  | bool value => exact turnOfText_settled _ _
  | int value => exact turnOfText_settled _ _
  | float value => exact turnOfText_settled _ _
  | str value => exact turnOfText_settled _ _
  | arr items => exact turnOfText_settled _ _

/-- So is a reply in which no native call is found. -/
theorem turnWithoutCall_settled (members : Fields Json) (written : Json) (paths : Paths)
    (toolNames : List String) :
    (turnWithoutCall members written paths toolNames).Settled toolNames := by
  unfold turnWithoutCall
  split
  · split
    · exact Turn.settled_of_answer _ rfl rfl
    · exact turnOfProse_settled _ _ _
  · exact turnOfProse_settled _ _ _

/-! ## Native calls -/

/-- What the paths of a reply lead to as its tool calls. -/
def calls (reply : Reply) (paths : Paths) : Json :=
  resolve reply.members (writtenPart reply.members paths) paths.toolCalls

/-- Whether the reason for stopping announces a tool call. -/
def Announces (reply : Reply) (paths : Paths) : Prop :=
  announcesCall paths
    (resolve reply.members (writtenPart reply.members paths) paths.finishReason) = true

/-- A native call is taken: there is a path to the calls, which leads to something, and the reason
for stopping announces it. -/
def Calls (reply : Reply) (paths : Paths) : Prop :=
  (∃ path, paths.toolCalls = some path ∧ path ≠ "") ∧
    holdsCall (reply.calls paths) = true ∧ reply.Announces paths

/-- A value that holds a call, by its looks, and is neither a record nor a list nor a text. -/
def Unlistable : Json → Prop
  | .bool value => value = true
  | .int value => value ≠ 0
  | .float value => value.isZero = false
  | _ => False

/-- A native call is announced, and what is found in its place cannot be a list of calls. -/
def Miscalls (reply : Reply) (paths : Paths) : Prop :=
  reply.Calls paths ∧ Unlistable (reply.calls paths)

/-- Paths that lead to no native calls. -/
def Paths.WithoutCalls (paths : Paths) : Prop :=
  ∀ path, paths.toolCalls = some path → path = ""

theorem not_calls_of_withoutCalls {paths : Paths} (h : paths.WithoutCalls) (reply : Reply) :
    ¬ reply.Calls paths := by
  rintro ⟨⟨path, hpath, hne⟩, -⟩
  exact hne (h path hpath)

/-- Of the values that are taken for calls, the first call is found unless there can be none. -/
theorem firstCall_of_holdsCall {v : Json} (h : holdsCall v = true) :
    (∃ call, firstCall v = .ok call) ↔ ¬ Unlistable v := by
  cases v with
  | null => cases h
  | bool value =>
      have hvalue : value = true := h
      simp [firstCall, Unlistable, hvalue]
  | int value =>
      have hvalue : value ≠ 0 := of_decide_eq_true h
      simp [firstCall, Unlistable, hvalue]
  | float value =>
      have hvalue : value.isZero = false := by simpa [holdsCall, Json.truthy] using h
      simp [firstCall, Unlistable, hvalue]
  | str value => simp [firstCall, Unlistable]
  | arr items => simp [firstCall, Unlistable]
  | obj members => simp [firstCall, Unlistable]

theorem withoutCalls_of_not_exists {paths : Paths}
    (h : ¬ ∃ path, paths.toolCalls = some path ∧ path ≠ "") : paths.WithoutCalls :=
  fun path hpath => Decidable.byContradiction fun hne => h ⟨path, hpath, hne⟩

/-- Without a path to native calls, a reply is read like any other. -/
theorem turnOf_of_withoutCalls {paths : Paths} (h : paths.WithoutCalls) (reply : Reply)
    (toolNames : List String) :
    turnOf reply paths toolNames = .ok (turnOfProse reply.members paths toolNames) := by
  unfold turnOf
  split
  · rfl
  · rename_i path hpath
    exact if_pos (h path hpath)

/-- If it was written as a text, that text is read. -/
theorem turnOf_of_written {reply : Reply} {paths : Paths} {text : String}
    (hwritten : writtenPart reply.members paths = .str text) (hcalls : paths.WithoutCalls)
    (toolNames : List String) :
    turnOf reply paths toolNames = .ok (turnOfText text toolNames) := by
  rw [turnOf_of_withoutCalls hcalls, turnOfProse, hwritten]
  rfl

/-- With such a path, native calls are looked for. -/
theorem turnOf_of_path {paths : Paths} (h : ∃ path, paths.toolCalls = some path ∧ path ≠ "")
    (reply : Reply) (toolNames : List String) :
    turnOf reply paths toolNames = turnOfNative reply.members paths toolNames := by
  obtain ⟨path, hpath, hne⟩ := h
  unfold turnOf
  rw [hpath]
  exact if_neg hne

/-- Where they are looked for and none is taken, the reply has the turn of one without a call. -/
theorem turnOf_eq_turnWithoutCall {reply : Reply} {paths : Paths}
    (hpath : ∃ path, paths.toolCalls = some path ∧ path ≠ "") (h : ¬ reply.Calls paths)
    (toolNames : List String) :
    turnOf reply paths toolNames =
      .ok (turnWithoutCall reply.members (writtenPart reply.members paths) paths toolNames) := by
  rw [turnOf_of_path hpath]
  exact if_neg fun htaken => h ⟨hpath, Bool.and_eq_true_iff.mp htaken⟩

/-- Where no native call is taken, a reply is read as a turn that is settled. -/
theorem turnOf_settled {reply : Reply} {paths : Paths} (toolNames : List String)
    (h : ¬ reply.Calls paths) :
    ∃ turn, turnOf reply paths toolNames = .ok turn ∧ turn.Settled toolNames := by
  by_cases hpath : ∃ path, paths.toolCalls = some path ∧ path ≠ ""
  · exact ⟨_, turnOf_eq_turnWithoutCall hpath h toolNames, turnWithoutCall_settled _ _ _ _⟩
  · exact ⟨_, turnOf_of_withoutCalls (withoutCalls_of_not_exists hpath) reply toolNames,
      turnOfProse_settled _ _ _⟩

/-- A reply without native calls is read, and decides. -/
theorem turnOf_of_not_calls {reply : Reply} {paths : Paths} (toolNames : List String)
    (h : ¬ reply.Calls paths) :
    ∃ turn, turnOf reply paths toolNames = .ok turn ∧ turn.Decides toolNames := by
  obtain ⟨turn, hturn, hsettled⟩ := turnOf_settled toolNames h
  exact ⟨turn, hturn, hsettled.decides⟩

/-- Where one is taken, the turn is that of the first call. -/
theorem turnOf_of_calls {reply : Reply} {paths : Paths} (toolNames : List String)
    (h : reply.Calls paths) :
    turnOf reply paths toolNames = (firstCall (reply.calls paths)).map fun call =>
      turnOfCall call (writtenPart reply.members paths)
        (isEmbedded paths.toolCalls || isEmbedded paths.finishReason) paths := by
  obtain ⟨hpath, htaken⟩ := h
  rw [turnOf_of_path hpath]
  exact if_pos (Bool.and_eq_true_iff.mpr htaken)

/-- **When a reply can be read.**  A reply is read as a turn unless it announces native calls where
there is `true` or a number other than zero.  The turn answers, or it calls one of the tools that
there are, or it is the native call that was taken. -/
theorem turnOf_returns_iff (reply : Reply) (paths : Paths) (toolNames : List String) :
    (∃ turn, turnOf reply paths toolNames = .ok turn ∧
      (turn.Decides toolNames ∨ reply.Calls paths)) ↔ ¬ reply.Miscalls paths := by
  by_cases hcalls : reply.Calls paths
  · rw [turnOf_of_calls toolNames hcalls, Miscalls, and_iff_right hcalls,
      ← firstCall_of_holdsCall hcalls.2.1]
    constructor
    · rintro ⟨turn, hturn, -⟩
      cases hfirst : firstCall (reply.calls paths) with
      | error failure =>
          rw [hfirst] at hturn
          cases hturn
      | ok call => exact ⟨call, rfl⟩
    · rintro ⟨call, hfirst⟩
      rw [hfirst]
      exact ⟨_, rfl, .inr hcalls⟩
  · obtain ⟨turn, hturn, hdecides⟩ := turnOf_of_not_calls toolNames hcalls
    exact ⟨fun _ hmiscalls => hcalls hmiscalls.1, fun _ => ⟨turn, hturn, .inl hdecides⟩⟩

/-- A number in the place of the tool calls: not every reply is read as a turn. -/
theorem not_forall_turnOf_returns :
    ¬ ∀ (reply : Reply) (paths : Paths) (toolNames : List String),
      ∃ turn, turnOf reply paths toolNames = .ok turn := by
  intro hall
  obtain ⟨turn, hturn⟩ := hall (.object [("tool_calls", .int 5)])
    { toolCalls := some "tool_calls" } []
  have hfails : turnOf (.object [("tool_calls", .int 5)]) { toolCalls := some "tool_calls" } [] =
      .error ⟨.type, "tool calls must be listed"⟩ := by rfl
  rw [hfails] at hturn
  cases hturn

/-! ## Completed turns -/

/-- A native call is taken that has the given name, or none. -/
def TakesCall (reply : Reply) (paths : Paths) (name : Option String) : Prop :=
  reply.Calls paths ∧ ∃ call, firstCall (reply.calls paths) = .ok call ∧
    nameText (call.readPath paths.toolName) = name

/-- The turn of a native call names no tool if the call has no name, and it never answers. -/
theorem turnOfCall_completed_iff (call written : Json) (embedded : Bool) (paths : Paths) :
    (turnOfCall call written embedded paths).Completed ↔
      nameText (call.readPath paths.toolName) ≠ none := by
  have hopen : (turnOfCall call written embedded paths).finalAnswer = none := rfl
  rw [Turn.Completed, iff_true_right hopen, Option.ne_none_iff_exists']
  rfl

/-- **When a turn is completed.**  A reply that is read as a turn answers or calls a tool, and does
not do both, unless the native call that is taken has no name.  A tool that it calls is one of those
that there are, or has the name of that call. -/
theorem turnOf_completed_iff {reply : Reply} {paths : Paths} {toolNames : List String} {turn : Turn}
    (hread : turnOf reply paths toolNames = .ok turn) :
    (turn.Completed ↔ ¬ reply.TakesCall paths none) ∧
      ∀ name, turn.action = some name →
        name ∈ toolNames ∨ reply.TakesCall paths (some name) := by
  -- A native call gives its name as it is; any other turn is completed and names a known tool.
  by_cases hcalls : reply.Calls paths
  · rw [turnOf_of_calls toolNames hcalls] at hread
    cases hfirst : firstCall (reply.calls paths) with
    | error failure =>
        rw [hfirst] at hread
        cases hread
    | ok call =>
        rw [hfirst] at hread
        cases hread
        have htakes (name : Option String) :
            reply.TakesCall paths name ↔ nameText (call.readPath paths.toolName) = name := by
          simp [TakesCall, hcalls, hfirst]
        rw [turnOfCall_completed_iff, htakes]
        exact ⟨Iff.rfl, fun name hname => .inr ((htakes _).mpr hname)⟩
  · obtain ⟨settled, hturn, hsettled⟩ := turnOf_settled toolNames hcalls
    rw [hread] at hturn
    cases hturn
    exact ⟨iff_of_true hsettled.completed fun htakes => hcalls htakes.1,
      fun name hname => .inl (hsettled.known name hname)⟩

/-- A reply with the native call of a tool. -/
def callReply (call : Fields Json) : Reply :=
  .object [("tool_calls", .arr [.obj call])]

/-- The paths that lead to that call. -/
def callPaths : Paths where
  toolCalls := some "tool_calls"

/-- A call with a name is a completed turn, whatever tools there are. -/
theorem turnOf_completed_named :
    ∃ turn, turnOf (callReply [("name", .str "Search")]) callPaths [] = .ok turn ∧
      turn.Completed ∧
        (callReply [("name", .str "Search")]).TakesCall callPaths (some "Search") := by
  have hread : turnOf (callReply [("name", .str "Search")]) callPaths [] =
      .ok { thought := some "", action := some "Search",
            source := some "\x7b\"name\":\"Search\"\x7d" } := by rfl
  obtain ⟨hcompleted, hnamed⟩ := turnOf_completed_iff hread
  refine ⟨_, hread, hcompleted.mpr ?_, (hnamed "Search" rfl).resolve_left List.not_mem_nil⟩
  rintro ⟨-, call, hcall, hnone⟩
  cases hcall
  cases hnone

/-- A call without a name: not every turn is completed. -/
theorem not_forall_turnOf_completed :
    ¬ ∀ (reply : Reply) (paths : Paths) (toolNames : List String) (turn : Turn),
      (∃ path, paths.toolCalls = some path ∧ path ≠ "") →
        turnOf reply paths toolNames = .ok turn → turn.Completed := by
  intro hall
  have hread : turnOf (callReply [("id", .str "c1"), ("input", .obj [])]) callPaths ["Search"] =
      .ok { thought := some "", actionInput := some "\x7b\x7d", toolCallId := some "c1",
            source := some "\x7b\"id\":\"c1\",\"input\":\x7b\x7d\x7d" } := by rfl
  obtain ⟨name, hname⟩ := (hall _ _ _ _ ⟨_, rfl, by decide⟩ hread).mpr rfl
  cases hname

end ReAct.Reply

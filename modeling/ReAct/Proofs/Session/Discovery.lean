import ReAct.Proofs.Dialogue.Parallel
import ReAct.Proofs.Http.Catalog
import ReAct.Proofs.Session.Inquiry
import ReAct.Proofs.Session.Served

/-!
# Inquiries whose catalogue fails

An inquiry asks the catalogue of tools at one point of its preparation, and nothing that comes
before or after concerns the catalogue.  So if the catalogue fails, the inquiry is answered as it
would be by a host that has none: the model is called, tools are built, run and closed, and memory
is asked, in the same way, and the outcome is the same (`answer_despite_catalogue`).

The catalogue is one that is reached over HTTP.  It may answer with anything; that is either a whole
list of valid specifications or a failure of discovery, so no other failure can get through.

## Main Definitions

* `Host.withoutCatalogue`: a host that does not ask for tools
* `catalogued`: a world in which the catalogue is at an address, and exchanges come to anything
* `Unsupplied`: an event in which the catalogue, if it is asked, fails to discover
-/

namespace ReAct.Session

open Dialogue (Parallel SameScript World)

/-- Whether the catalogue of tools is asked. -/
def Request.isDiscovery : Request → Bool
  | .discover _ _ => true
  | _ => false

theorem kind_of_isDiscovery (request : Request) (h : request.isDiscovery = true) :
    request.kind = .discovery := by
  cases request with
  | discover agent credentials => rfl
  | _ => cases h

/-- An event in which the catalogue, if it is asked, fails to discover. -/
def Unsupplied (event : Event) : Prop :=
  ∀ asked credentials (answer : Except Failure (List Tool.Spec)),
    event = ⟨.discover asked credentials, answer⟩ → ∃ text, answer = .error ⟨.discovery, text⟩

/-- Two actions that do the same, but for asking a catalogue that fails. -/
abbrev Same {α : Type} (first second : Action α) : Prop :=
  Parallel Request.isDiscovery Unsupplied (· = ·) first second

/-- What does not ask the catalogue is the same on both sides. -/
theorem same_of_asks {α : Type} {x : Action α} {kinds : List Request.Kind} (h : AsksOnly kinds x)
    (hkinds : .discovery ∉ kinds) : Same x x :=
  (h.overt kind_of_isDiscovery hkinds).parallel

/-- Attempts in a row are the same if their parts are. -/
theorem same_attempt_bind {α β : Type} {x y : Attempt α} {f g : α → Attempt β}
    (hx : Same x.run y.run) (hf : ∀ a, Same (f a).run (g a).run) :
    Same (x >>= f).run (y >>= g).run := by
  rw [ExceptT.run_bind, ExceptT.run_bind]
  refine hx.bind ?_
  rintro outcome _ rfl
  cases outcome with
  | error failure => exact .done rfl
  | ok a => exact hf a

namespace Host

/-- The host without its catalogue of tools. -/
def withoutCatalogue (host : Host) : Host :=
  { host with discovers := false }

variable (host : Host) (agent : Agent) (inquiry : Inquiry)

/-- To ask a catalogue that fails adds no tools, and neither does not to ask. -/
theorem discovered_silent :
    (host.discovered agent inquiry).run.Silent Request.isDiscovery Unsupplied (.ok []) := by
  unfold discovered
  split
  · refine Dialogue.silent_question rfl fun answer hanswer => ?_
    obtain ⟨text, rfl⟩ := hanswer _ _ _ rfl
    rfl
  · rfl

/-- Furnishing a session is the same without a catalogue that brings nothing. -/
theorem furnish_same (config : Config) (provider : Option Provider) (session : Session)
    (messages : List Message) :
    Same (host.furnish agent inquiry config provider session messages).run
      (host.withoutCatalogue.furnish agent inquiry config provider session messages).run := by
  refine same_attempt_bind (.of_silent (discovered_silent ..) (discovered_silent ..) rfl) ?_
  intro added
  refine same_attempt_bind (same_of_asks (asks_createTools _ _) (by decide)) fun tools => ?_
  exact same_attempt_bind (same_of_asks (asks_orClose _ _) (by decide)) fun _ => .done rfl

/-- So is preparing it. -/
theorem prepare_same :
    Same (host.prepare agent inquiry).run (host.withoutCatalogue.prepare agent inquiry).run := by
  have hconfigured : host.withoutCatalogue.configured agent inquiry =
      host.configured agent inquiry := rfl
  cases h : host.configured agent inquiry with
  | error failure =>
      rw [prepare_of_error h, prepare_of_error (hconfigured.trans h)]
      exact .done rfl
  | ok configured =>
      rw [prepare_of_ok h, prepare_of_ok (hconfigured.trans h)]
      refine same_attempt_bind (same_of_asks (host.asks_start inquiry) (by decide))
        fun session => ?_
      refine same_attempt_bind (same_of_asks (host.asks_earlierTurns session _) (by decide))
        fun messages => ?_
      exact host.furnish_same agent inquiry _ _ session messages

/-- A host without a catalogue asks none. -/
theorem visible_withoutCatalogue {history : History} {result : Except Failure Result}
    (h : (host.withoutCatalogue.answer agent inquiry).Yields history result) :
    visible Request.isDiscovery history = history := by
  have hkinds : Request.Kind.discovery ∉ host.withoutCatalogue.discoveryKinds ++
      [.model, .building, .running, .closing, .memory] := by
    have hnone : host.withoutCatalogue.discoveryKinds = [] := rfl
    rw [hnone]
    decide
  have hasks := host.withoutCatalogue.asks_answer agent inquiry
  exact (hasks.overt kind_of_isDiscovery hkinds).visible_eq h

/-- **An inquiry is the same with a catalogue that fails and without one**, but for the question to
the catalogue. -/
theorem answer_same :
    Same (host.answer agent inquiry) (host.withoutCatalogue.answer agent inquiry) := by
  rw [answer_eq, answer_eq]
  refine (host.prepare_same agent inquiry).bind ?_
  rintro prepared _ rfl
  cases prepared with
  | error failure => exact .done rfl
  | ok plan =>
      refine (same_of_asks plan.asks_run (by decide)).bind ?_
      rintro _ _ rfl
      exact .done rfl

end Host

/-! ## A catalogue over HTTP -/

/-- A world in which the catalogue is at an address: to ask it is to fetch from there.  What an
exchange comes to may depend on everything before, and all else follows a script. -/
def catalogued (url : Option String) (exchange : History → Http.Request → Http.Outcome)
    (script : World Request Request.Answer) : World Request Request.Answer
  | past, .discover agent credentials =>
    Http.Catalog.fetch (m := Id) (exchange past) url agent credentials
  | past, request => script past request

theorem catalogued_sameScript {script other : World Request Request.Answer}
    (h : SameScript Request.isDiscovery script other) (url : Option String)
    (exchange : History → Http.Request → Http.Outcome) :
    SameScript Request.isDiscovery (catalogued url exchange script) other := by
  intro past pastThere request hrequest hpast
  rw [← h past pastThere request hrequest hpast]
  cases request with
  | discover agent credentials => cases hrequest
  | _ => rfl

/-- What becomes of a memory has nothing to do with the catalogue. -/
theorem afterRequests_visible (registrar : Memory.Registrar) (memory : Memory.Backend)
    (history : History) :
    afterRequests registrar memory (visible Request.isDiscovery history) =
      afterRequests registrar memory history := by
  have hrequests : memoryRequests (visible Request.isDiscovery history) =
      memoryRequests history := by
    rw [memoryRequests, visible, List.filterMap_filter]
    refine List.filterMap_congr fun event _ => ?_
    obtain ⟨request, answer⟩ := event
    cases request <;> rfl
  rw [afterRequests, hrequests, afterRequests]

/-- Worlds that follow one script still do so with one memory behind them. -/
theorem backed_sameScript {script other : World Request Request.Answer}
    (h : SameScript Request.isDiscovery script other) (registrar : Memory.Registrar)
    (memory : Memory.Backend) :
    SameScript Request.isDiscovery (backed registrar memory script)
      (backed registrar memory other) := by
  intro past pastThere request hrequest hpast
  have hafter : afterRequests registrar memory past = afterRequests registrar memory pastThere :=
    (afterRequests_visible registrar memory past).symm.trans
      (hpast ▸ afterRequests_visible registrar memory pastThere)
  cases request with
  | memory request =>
      exact congrArg (fun behind => (behind.serve registrar request).1.mapError
        Memory.Error.failure) hafter
  | _ => exact h past pastThere _ hrequest hpast

/-- A catalogue that delivers nothing in a run fails to discover in every event of it. -/
theorem unsupplied_of_catalogued {α : Type} {url : Option String}
    {exchange : History → Http.Request → Http.Outcome} {script : World Request Request.Answer}
    {action : Action α} {event : Event}
    (h : event ∈ (action.play (catalogued url exchange script)).1)
    (hfailed : ∀ asked credentials (found : List Tool.Spec),
      event ≠ ⟨.discover asked credentials, (.ok found : Except Failure (List Tool.Spec))⟩) :
    Unsupplied event := by
  rintro asked credentials answer rfl
  obtain ⟨past, hanswer⟩ := Dialogue.exists_past_of_mem_playFrom _ _ _ h
  cases answer with
  | ok found => exact absurd rfl (hfailed asked credentials found)
  | error failure =>
      have hkind : failure.kind = .discovery := Http.Catalog.kind_of_fetch hanswer.symm
      exact ⟨failure.text, by rw [← hkind]⟩

/-- **A catalogue is of use or of no consequence.**  Let the catalogue of tools be at an address,
and let its exchanges come to anything: to a failure of the transport, or to a response of any
status with any body.  To fetch from it delivers the specifications of the whole answer, all of them
valid, or it fails to discover, and then there is no such answer.

And let an inquiry be answered in a world that follows a script but for its catalogue.  If the
catalogue delivers nothing, then the inquiry is answered as by the same host without a catalogue, in
a world that follows the same script: but for what the catalogue is asked, the two histories are the
same, the calls of the model, the building, running and closing of tools and what memory is asked,
with the same answers.  So are the results or the failures, and so is what becomes of any memory. -/
theorem answer_despite_catalogue (host : Host) (agent : Agent) (inquiry : Inquiry)
    (url : Option String) (exchange : History → Http.Request → Http.Outcome)
    {script other : World Request Request.Answer}
    (hscript : SameScript Request.isDiscovery script other) :
    let here := (host.answer agent inquiry).play (catalogued url exchange script)
    let there := (host.withoutCatalogue.answer agent inquiry).play other
    (∀ past asked credentials,
      let fetched : Except Failure (List Tool.Spec) :=
        Http.Catalog.fetch (m := Id) (exchange past) url asked credentials
      (∃ found, fetched = .ok found ∧
        Http.Catalog.Stocks (exchange past) asked credentials url found) ∨
      ∃ text, fetched = .error ⟨.discovery, text⟩ ∧
        ∀ found, ¬ Http.Catalog.Stocks (exchange past) asked credentials url found) ∧
    ((∀ asked credentials (found : List Tool.Spec),
        ⟨.discover asked credentials, (.ok found : Except Failure (List Tool.Spec))⟩ ∉ here.1) →
      visible Request.isDiscovery here.1 = there.1 ∧ here.2 = there.2 ∧
        ∀ registrar memory, afterRequests registrar memory here.1 =
          afterRequests registrar memory there.1) := by
  intro here there
  constructor
  · intro past asked credentials fetched
    cases hfetched : fetched with
    | ok found => exact .inl ⟨found, rfl, Http.Catalog.fetch_eq_ok_iff.mp hfetched⟩
    | error failure =>
        have hkind : failure.kind = .discovery := Http.Catalog.kind_of_fetch hfetched
        refine .inr ⟨failure.text, by rw [← hkind], fun found hstocks => ?_⟩
        have hfound : fetched = .ok found := Http.Catalog.fetch_eq_ok_iff.mpr hstocks
        rw [hfetched] at hfound
        cases hfound
  · intro hfailed
    -- Whatever the catalogue said, it supplied nothing: no discovery of this run succeeded.
    have hunsupplied (event : Event) (hevent : event ∈ here.1) : Unsupplied event := by
      refine unsupplied_of_catalogued hevent ?_
      rintro asked credentials found rfl
      exact hfailed asked credentials found hevent
    -- Without a catalogue nothing is discovered, so that run shows all it does.
    have hthere : visible Request.isDiscovery there.1 = there.1 :=
      host.visible_withoutCatalogue agent inquiry (Dialogue.play_yields other _)
    have hnone (event : Event) (hevent : event ∈ there.1) : Unsupplied event := by
      rintro asked credentials answer rfl
      rw [← hthere] at hevent
      obtain ⟨-, hshown⟩ := List.mem_filter.mp hevent
      cases hshown
    obtain ⟨hvisible, hresult⟩ := (host.answer_same agent inquiry).play
      (catalogued_sameScript hscript url exchange) hunsupplied hnone
    have hsame : visible Request.isDiscovery here.1 = there.1 := hvisible.trans hthere
    refine ⟨hsame, hresult, fun registrar memory => ?_⟩
    rw [← afterRequests_visible registrar memory here.1, hsame]

/-- A host with a memory, a catalogue, and one type of tools. -/
def shelfHost : Host where
  toolTypes := ["sum"]
  remembers := true
  discovers := true
  now := Plan.sumsRegistrar.now

/-- An agent with a tool of that type. -/
def shelfAgent : Agent where
  name := "a"
  model := { id := "m" }
  tools := [{ type := "sum" }]

/-- A world with a memory behind it, whose model asks for the tool again and again. -/
def shelfScript : World Request Request.Answer :=
  backed Plan.sumsRegistrar (.inProcess {}) fun
    | _, .callModel _ _ => .ok (.text "\x7b\"action\": \"sum\"\x7d")
    | _, .memory _ => .error ⟨.memory, ""⟩
    | _, .buildTool _ => .ok ⟨some "adds", []⟩
    | _, .runTool _ _ => .ok (.int 2)
    | _, .closeTool _ => .ok ()
    | _, .discover _ _ => .ok []

/-- A list of tools, the second of which has no type. -/
def spoiltList : Http.Outcome :=
  .response 200 "[\x7b\"type\": \"sum\", \"name\": \"plus\"\x7d, \x7b\"name\": \"minus\"\x7d]"

/-- A catalogue with one spoilt specification: the session has its own tool only, and goes on. -/
theorem answer_despite_catalogue_spoilt :
    let inquiry : Inquiry := { question := "1 + 1?", parameters := [("max_iteration", .str "2")] }
    let here := (shelfHost.answer shelfAgent inquiry).play
      (catalogued (some "u") (fun _ _ => spoiltList) shelfScript)
    let there := (shelfHost.withoutCatalogue.answer shelfAgent inquiry).play shelfScript
    (∃ event ∈ here.1, event.question.isDiscovery = true) ∧ toolRuns here.1 = [("sum", [])] ∧
      visible Request.isDiscovery here.1 = there.1 ∧ here.2 = there.2 := by
  intro inquiry here there
  have hread : (Http.Catalog.read "u" spoiltList).toOption.isNone = true := by decide +kernel
  have hscript : SameScript Request.isDiscovery shelfScript shelfScript := by
    refine backed_sameScript (fun past pastThere request hrequest hpast => ?_) _ _
    cases request <;> rfl
  have hfailed (asked : Agent) (credentials : Option (Fields String)) (found : List Tool.Spec) :
      ⟨.discover asked credentials, (.ok found : Except Failure (List Tool.Spec))⟩ ∉ here.1 := by
    intro hmem
    obtain ⟨past, hanswer⟩ := Dialogue.exists_past_of_mem_playFrom _ _ _ hmem
    have hfetched : Http.Catalog.read "u" spoiltList = .ok found := hanswer.symm
    rw [hfetched] at hread
    cases hread
  obtain ⟨hvisible, hresult, -⟩ := (answer_despite_catalogue shelfHost shelfAgent inquiry (some "u")
    (fun _ _ => spoiltList) hscript).2 hfailed
  exact ⟨by decide +kernel, by decide +kernel, hvisible, hresult⟩

end ReAct.Session

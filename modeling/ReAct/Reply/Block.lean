import ReAct.Text.Search

/-!
# The block of a reply

A model that answers in JSON often puts it into a code fence or between sentences. The block of a
text is its first balanced pair of braces. A fence moves the search behind it, so that braces in the
prose before the fence are passed over. Braces inside of string literals do not count.
-/

namespace ReAct.Reply

open ReAct.Text

/-- Where the search for the closing brace stands. -/
inductive Inside where
  /-- Outside of string literals. -/
  | code
  /-- Inside of a string literal. -/
  | literal
  /-- Behind a back-slash inside of a string literal. -/
  | escape
  deriving DecidableEq

/-- Splits a text behind the brace that closes `depth` open ones; a brace that closes none is
skipped. -/
def closeBraces : (depth : Nat) → Inside → List Char → Option (List Char × List Char)
  | _, _, [] => none
  | depth, .escape, c :: s =>
    (closeBraces depth .literal s).map fun (block, rest) => (c :: block, rest)
  | depth, .literal, c :: s =>
    let inside := if c = '\\' then .escape else if c = '"' then .code else .literal
    (closeBraces depth inside s).map fun (block, rest) => (c :: block, rest)
  | depth, .code, c :: s =>
    if c = '\x7d' ∧ depth = 1 then some ([c], s)
    else
      let inside := if c = '"' then Inside.literal else .code
      let depth := if c = '\x7b' then depth + 1 else if c = '\x7d' then depth - 1 else depth
      (closeBraces depth inside s).map fun (block, rest) => (c :: block, rest)

/-- The balanced block at the start of a text that starts with a brace, and what follows it. -/
def blockAt (s : List Char) : Option (List Char × List Char) :=
  closeBraces 0 .code s

/-- What follows the first code fence of a text, with the language mark if it is JSON. -/
def afterFence? (s : List Char) : Option (List Char) :=
  (afterFirst? ['\x60', '\x60', '\x60'] s).map fun rest =>
    (after? ['j', 's', 'o', 'n'] rest).getD rest

/-- The text from the brace on at which the block starts: the first one behind the fence, else the
first one at all. -/
def blockStart? (s : List Char) : Option (List Char) :=
  ((afterFence? s).bind (fromChar? '\x7b')).orElse fun _ => fromChar? '\x7b' s

/-- The block of a text. -/
def block? (s : List Char) : Option (List Char) :=
  ((blockStart? s).bind blockAt).map Prod.fst

/-- `block?` on strings. -/
def blockText? (s : String) : Option String :=
  (block? s.toList).map String.ofList

end ReAct.Reply

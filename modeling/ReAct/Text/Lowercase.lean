import ReAct.Text.LowercaseTable

/-!
# Lower case

Full lower-casing: every character by its own mapping, except that a capital sigma at the end of a
word becomes the final form. The end of a word is judged over the characters that case ignores.
-/

namespace ReAct.Text

/-- Whether one of the ranges holds the character. -/
def inRanges (ranges : List (Nat × Nat)) (c : Char) : Bool :=
  ranges.any fun range => range.1 ≤ c.toNat && c.toNat ≤ range.2

/-- Whether the character has case and counts as a neighbour of a sigma. -/
def isCased (c : Char) : Bool :=
  inRanges casedRanges c

/-- Whether the character is skipped when the neighbours of a sigma are looked up. -/
def isCaseIgnorable (c : Char) : Bool :=
  inRanges caseIgnorableRanges c

/-- The lower-case form of a character on its own. The dotted capital I is the one character whose
form has two. -/
def lowerChar (c : Char) : List Char :=
  if c.toNat < 128 then [c.toLower]
  else if c.toNat = 0x130 then ['i', '\u0307']
  else
    match lowerRuns.find? fun run =>
        run.first ≤ c.toNat && c.toNat ≤ run.last && (c.toNat - run.first) % run.step == 0 with
    | some run => [Char.ofNat (Int.toNat (c.toNat + run.offset))]
    | none => [c]

/-- Whether the first character that case does not ignore is cased. -/
def startsCased : List Char → Bool
  | [] => false
  | c :: cs => if isCaseIgnorable c then startsCased cs else isCased c

/-- Lower case of a text of which `afterCased` tells whether a cased character precedes it. -/
def lowerAfter (afterCased : Bool) : List Char → List Char
  | [] => []
  | c :: cs =>
    if c.toNat = 0x3A3 then
      (if afterCased && !startsCased cs then '\u03C2' else '\u03C3') :: lowerAfter true cs
    else
      lowerChar c ++ lowerAfter (if isCaseIgnorable c then afterCased else isCased c) cs

/-- The lower-case form of a text. -/
def lower (s : List Char) : List Char :=
  lowerAfter false s

/-- `lower` on strings. -/
def lowered (s : String) : String :=
  String.ofList (lower s.toList)

end ReAct.Text

/-!
# Searching a text

Leftmost search, as recursion on the text searched. `first?` runs any recogniser at every position
in turn; the other searches are instances of it.
-/

namespace ReAct.Text

/-- What follows `opening` when the text starts with it. -/
def after? : (opening : List Char) → List Char → Option (List Char)
  | [], s => some s
  | _ :: _, [] => none
  | p :: ps, c :: cs => if p = c then after? ps cs else none

/-- The result of `f` at the leftmost position where it has one; the end of the text counts. -/
def first? {α : Type} (f : List Char → Option α) : List Char → Option α
  | [] => f []
  | c :: cs =>
    match f (c :: cs) with
    | some a => some a
    | none => first? f cs

/-- The result of `f` at the rightmost position where it has one, with what precedes it. -/
def last? {α : Type} (f : List Char → Option α) : List Char → Option (List Char × α)
  | [] => (f []).map fun a => ([], a)
  | c :: cs =>
    match last? f cs with
    | some (before, a) => some (c :: before, a)
    | none => (f (c :: cs)).map fun a => ([], a)

/-- What follows the leftmost occurrence of `needle`. -/
def afterFirst? (needle : List Char) : List Char → Option (List Char) :=
  first? (after? needle)

/-- The text from the leftmost occurrence of `c` on. -/
def fromChar? (c : Char) : List Char → Option (List Char)
  | [] => none
  | d :: s => if d = c then some (d :: s) else fromChar? c s

/-- Whether `needle` occurs in the text. -/
def contains (needle s : List Char) : Bool :=
  (afterFirst? needle s).isSome

/-- Every occurrence of `needle`, left to right and without overlap, is replaced. The needle is
given by its first character and the rest, so it is never empty. -/
def replaceAll (n : Char) (ns : List Char) (instead : List Char) (s : List Char) : List Char :=
  go s 0
where
  /-- `skip` counts the characters of the current occurrence that are still to be dropped. -/
  go : List Char → Nat → List Char
    | [], _ => []
    | _ :: s, skip + 1 => go s skip
    | c :: s, 0 =>
      if (after? (n :: ns) (c :: s)).isSome then instead ++ go s ns.length else c :: go s 0

/-- The texts of a list, one after the other with `between` in the gaps. -/
def join (between : List Char) : List (List Char) → List Char
  | [] => []
  | [x] => x
  | x :: y :: rest => x ++ between ++ join between (y :: rest)

end ReAct.Text

import ReAct.Proofs.Json.Path
import ReAct.Proofs.Text.Blank
import ReAct.Proofs.Text.Digits
import ReAct.Proofs.Text.Search

/-!
# Paths in writing

A path is written as a dollar sign and its steps: a key behind a dot, an index or the star in
brackets.  The reader of such texts skips what it cannot match, so that it never fails; from a path
that was written it takes its steps, each with all its characters (`steps_written`).

What the path is read as is said step by step: a step turns a way to read on into a way to read
(`Step.denotation`).  Walking along a path does the same with one value in hand, and null for what
is not there (`walk_eq_denotation`).

## Main Definitions

* `denotation`: what a path reads out of a value
* `written`: a path in writing
* `Step.Writable`: the steps that can be written
-/

namespace ReAct.Json

open Text

/-! ## What a path denotes -/

/-- Reads on from what was found, unless it is null. -/
def readFound (readOn : Json → Json) : Option Json → Json
  | none => .null
  | some v => if v.isNull then .null else readOn v

/-- What a step reads, given how to read on behind it: a key reads a member of an object, an index
an element of a list, and the star all elements of a list, without those where reading on leads
nowhere. -/
def Step.denotation (readOn : Json → Json) : Step → Json → Json
  | .key name, .obj members => readFound readOn (Fields.get? members name)
  | .index n, .arr items => readFound readOn items[n]?
  | .every, .arr items => .arr ((items.map readOn).filter fun v => !v.isNull)
  | _, _ => .null

/-- What a path reads: its steps in order, and at its end the value itself. -/
def denotation (path : List Step) : Json → Json :=
  path.foldr (fun step readOn => step.denotation readOn) id

/-- Where nothing is found, there is nothing to go on with. -/
theorem walk_getD {path : List Step} {readOn : Json → Json} (h : ∀ v, walk path v = readOn v)
    (found : Option Json) : walk path (found.getD .null) = readFound readOn found := by
  cases found with
  | none => exact walk_null path
  | some v =>
      rw [Option.getD_some, readFound]
      split
      · rename_i hnull
        cases v with
        | null => exact walk_null path
        | _ => cases hnull
      · exact h v

/-- **Walking along a path reads what the path denotes.** -/
theorem walk_eq_denotation (path : List Step) (v : Json) : walk path v = denotation path v := by
  induction path generalizing v with
  | nil => rfl
  | cons step path ih =>
      cases step with
      | key name =>
          cases v with
          | obj members => exact walk_getD ih (Fields.get? members name)
          | _ => exact walk_null path
      | index n =>
          cases v with
          | arr items => exact walk_getD ih items[n]?
          | _ => exact walk_null path
      -- A wildcard walks on from every item, and leaves out what is not found.
      | every =>
          cases v with
          | arr items =>
              have hsame : walk path = denotation path := funext ih
              show Json.arr ((items.map (walk path)).filter _) = _
              rw [hsame]
              rfl
          | _ => rfl

/-! ## Steps in writing -/

/-- A step in writing. -/
def Step.text : Step → List Char
  | .key name => '.' :: name.toList
  | .index n => '[' :: natural n ++ [']']
  | .every => ['[', '*', ']']

/-- A path in writing. -/
def written (path : List Step) : String :=
  String.ofList ('$' :: path.flatMap Step.text)

/-- A step that can be written: a key is not empty, has none of the characters that end a key, and
does not end in a blank. -/
def Step.Writable : Step → Prop
  | .key name =>
    name ≠ "" ∧ name.toList.all isKeyChar = true ∧ name.toList.getLast?.any isBlank = false
  | _ => True

instance (step : Step) : Decidable step.Writable :=
  match step with
  | .key _ => inferInstanceAs (Decidable (_ ∧ _ ∧ _))
  | .index _ => .isTrue trivial
  | .every => .isTrue trivial

/-- A text at which a key ends. -/
def EndsKey (s : List Char) : Prop :=
  ∀ c, s.head? = some c → isKeyChar c = false

/-- Every step begins with a mark that ends a key. -/
theorem endsKey_text_append (step : Step) (s : List Char) : EndsKey (step.text ++ s) := by
  cases step <;> rintro c ⟨⟩ <;> rfl

/-- So a key ends where the next step begins, or where the path does. -/
theorem endsKey_texts (path : List Step) : EndsKey (path.flatMap Step.text) := by
  cases path with
  | nil => rintro c ⟨⟩
  | cons step path => exact endsKey_text_append step _

/-- An index is read back. -/
theorem bracketStep?_index (n : Nat) (rest : List Char) :
    bracketStep? ((Step.index n).text ++ rest) = some (.index n, rest) := by
  have hdigits : ∀ c ∈ natural n, isDigit c = true := fun c hc =>
    isDigit_of_isAsciiDigit (natural_isAsciiDigit n c hc)
  have hspan : (natural n ++ ']' :: rest).span isDigit = (natural n, ']' :: rest) :=
    span_append hdigits (by rintro c ⟨⟩; rfl)
  obtain ⟨d, digits, hcons⟩ := List.exists_cons_of_ne_nil (natural_ne_nil n)
  -- No index is taken for a wildcard: it begins with a digit.
  have hstar : ∀ more, natural n ++ ']' :: rest = '*' :: ']' :: more → False := by
    intro more heq
    rw [hcons] at heq
    have hd := natural_isAsciiDigit n d (by rw [hcons]; exact List.mem_cons_self)
    rw [(List.cons.inj heq).1] at hd
    cases hd
  have htext : (Step.index n).text ++ rest = '[' :: (natural n ++ ']' :: rest) := by
    rw [Step.text, List.cons_append, List.cons_append, List.append_assoc]
    rfl
  rw [htext, bracketStep?.eq_2 _ hstar, hspan, hcons]
  show (readNatural? (d :: digits)).map _ = _
  rw [← hcons, readNatural?_natural]
  rfl

/-- A key is read back up to the mark that ends it. -/
theorem keyStep?_key {name : String} (hname : Step.Writable (.key name)) {rest : List Char}
    (hrest : EndsKey rest) :
    keyStep? ((Step.key name).text ++ rest) = some (.key name, rest) := by
  obtain ⟨hne, hchars, -⟩ := hname
  have hspan : (name.toList ++ rest).span isKeyChar = (name.toList, rest) :=
    span_append (List.all_eq_true.mp hchars) hrest
  have hnil : name.toList ≠ [] := fun hnil => hne (String.toList_eq_nil_iff.mp hnil)
  obtain ⟨c, more, hcons⟩ := List.exists_cons_of_ne_nil hnil
  rw [Step.text, List.cons_append, keyStep?, hspan, hcons]
  show some (Step.key (String.ofList (c :: more)), rest) = _
  rw [← hcons, String.ofList_toList]

/-- **A step is read as it was written.** -/
theorem stepsWithin_text {step : Step} (h : step.Writable) {rest : List Char} (hrest : EndsKey rest)
    (bound : Nat) :
    stepsWithin (bound + 1) (step.text ++ rest) = step :: stepsWithin bound rest := by
  cases step with
  | key name =>
      have hbracket : bracketStep? ('.' :: (name.toList ++ rest)) = none := rfl
      have hkey : keyStep? ('.' :: (name.toList ++ rest)) = some (.key name, rest) :=
        keyStep?_key h hrest
      rw [Step.text, List.cons_append, stepsWithin, hbracket, hkey]
  | index n =>
      have hbracket := bracketStep?_index n rest
      rw [Step.text, List.cons_append, List.cons_append] at hbracket ⊢
      rw [stepsWithin, hbracket]
  | every => rfl

/-- Every step takes a character at least, so the bound on the steps of a text suffices. -/
theorem length_le_texts (path : List Step) : path.length ≤ (path.flatMap Step.text).length := by
  induction path with
  | nil => exact Nat.le_refl 0
  | cons step path ih =>
      have hstep : 0 < step.text.length := by cases step <;> exact Nat.succ_pos _
      rw [List.flatMap_cons, List.length_append, List.length_cons]
      omega

/-- All steps are read back, by induction on the path. -/
theorem stepsWithin_texts {path : List Step} (h : ∀ step ∈ path, step.Writable) {bound : Nat}
    (hbound : path.length ≤ bound) : stepsWithin bound (path.flatMap Step.text) = path := by
  induction path generalizing bound with
  | nil => cases bound <;> rfl
  | cons step path ih =>
      obtain ⟨hstep, hpath⟩ := List.forall_mem_cons.mp h
      obtain ⟨bound, rfl⟩ := Nat.exists_eq_add_one_of_ne_zero (Nat.ne_zero_of_lt hbound)
      rw [List.flatMap_cons, stepsWithin_text hstep (endsKey_texts path),
        ih hpath (Nat.le_of_succ_le_succ hbound)]

/-- A step in writing does not end in a blank. -/
theorem getLast?_text {step : Step} (h : step.Writable) {c : Char}
    (hc : step.text.getLast? = some c) : isBlank c = false := by
  cases step with
  | key name =>
      obtain ⟨-, -, hlast⟩ := h
      rw [Step.text, List.getLast?_cons] at hc
      cases hname : name.toList.getLast? with
      | none =>
          rw [hname] at hc
          cases hc
          rfl
      | some d =>
          rw [hname] at hc hlast
          cases hc
          exact hlast
  -- An index ends with a bracket, and a wildcard, too.
  | index n =>
      rw [Step.text, List.getLast?_concat] at hc
      cases hc
      rfl
  | every =>
      cases hc
      rfl

/-- Nor does a path. -/
theorem getLast?_written {path : List Step} (h : ∀ step ∈ path, step.Writable) {c : Char}
    (hc : ('$' :: path.flatMap Step.text).getLast? = some c) : isBlank c = false := by
  rcases List.eq_nil_or_concat path with rfl | ⟨init, step, rfl⟩
  · cases hc
    rfl
  · have hne : step.text ≠ [] := by cases step <;> exact List.cons_ne_nil _ _
    obtain ⟨d, hd⟩ := Option.isSome_iff_exists.mp (List.getLast?_isSome.mpr hne)
    rw [List.concat_eq_append, List.flatMap_append, List.flatMap_singleton, ← List.cons_append,
      List.getLast?_append, hd, Option.some_or] at hc
    cases hc
    exact getLast?_text (h step (by simp)) hd

/-- **From a path in writing its steps are taken.** -/
theorem steps_written {path : List Step} (h : ∀ step ∈ path, step.Writable) :
    steps (written path).toList = path := by
  have htrim : trim ('$' :: path.flatMap Step.text) = '$' :: path.flatMap Step.text :=
    trim_eq_self (by rintro c ⟨⟩; rfl) fun _ => getLast?_written h
  rw [written, String.toList_ofList, steps, htrim]
  exact stepsWithin_texts h (length_le_texts path)

/-- A path in writing is not the empty text, which would be no path at all. -/
theorem written_ne_empty (path : List Step) : written path ≠ "" := by
  intro hempty
  have hnil := congrArg String.toList hempty
  rw [written, String.toList_ofList] at hnil
  cases hnil

/-- **A path in writing reads what it denotes.**  Let the keys of a path be non-empty, without dots
and brackets and without a blank at the end.  What is read out of a value along the written path is
what its steps denote; and where a first part of it does not spread over lists, it is what the rest
reads out of what the first part reads. -/
theorem readPath_written {path : List Step} (h : ∀ step ∈ path, step.Writable) (v : Json) :
    v.readPath (written path) = denotation path v ∧
      ∀ first rest, path = first ++ rest → (∀ step ∈ first, step.Single) →
        v.readPath (written path) = (v.readPath (written first)).readPath (written rest) := by
  have hread {way : List Step} (hway : ∀ step ∈ way, step.Writable) (v : Json) :
      v.readPath (written way) = walk way v := by
    rw [readPath, if_neg (written_ne_empty way), steps_written hway]
  constructor
  · rw [hread h, walk_eq_denotation]
  · rintro first rest rfl hsingle
    obtain ⟨hfirst, hrest⟩ := List.forall_mem_append.mp h
    rw [hread h, hread hfirst, hread hrest, walk_append hsingle]

/-- A key with a blank and one that looks like a star, and an element in which nothing is found. -/
theorem readPath_written_spread :
    let v : Json := .obj [("a b", .arr [.null, .obj [("*", .arr [.obj [("x", .int 1)],
      .obj [("y", .int 2)], .obj [("x", .null)], .obj [("x", .str "")]])]])]
    v.readPath "$.a b[1].*[*].x" = .arr [.int 1, .str ""] := by
  intro v
  let path : List Step := [.key "a b", .index 1, .key "*", .every, .key "x"]
  have htext : written path = "$.a b[1].*[*].x" := by decide +kernel
  have hwritable : ∀ step ∈ path, step.Writable := by decide
  rw [← htext, (readPath_written hwritable v).1]
  rfl

end ReAct.Json

import ReAct.Proofs.Json.Distinct
import ReAct.Proofs.Json.Embedded

/-!
# Exchanging the texts of a value

A function on texts can be applied to all texts of a value, the names of members apart.  Two texts
of values that are scanned side by side lead to values that differ by such a function if they differ
in string literals only, each of them in a place where a value is due (`Scan.Maps.literal`), and if
the function leaves alone what they have in common (`Scan.Maps.foldl`).

## Main Definitions

* `mapTexts`: a function applied to the texts of a value
* `Scan.Maps`: two states of the scanner whose values differ by a function on texts
* `Spells`: the inside of a string literal and the text that it denotes
* `literals`: the string literals of a text
-/

namespace ReAct.Json

/-! ## Values -/

mutual

/-- Applies a function to every text of a value; names of members are left as they are. -/
def mapTexts (f : String → String) : Json → Json
  | .null => .null
  | .bool value => .bool value
  | .int value => .int value
  | .float value => .float value
  | .str value => .str (f value)
  | .arr items => .arr (mapTextsItems f items)
  | .obj members => .obj (mapTextsMembers f members)

/-- `mapTexts` on the items of a list. -/
def mapTextsItems (f : String → String) : List Json → List Json
  | [] => []
  | item :: items => mapTexts f item :: mapTextsItems f items

/-- `mapTexts` on the members of an object. -/
def mapTextsMembers (f : String → String) : List (String × Json) → List (String × Json)
  | [] => []
  | (name, value) :: members => (name, mapTexts f value) :: mapTextsMembers f members

end

variable {f : String → String}

/-- The texts of a list are those of its items. -/
theorem mapTexts_arr (f : String → String) (items : List Json) :
    mapTexts f (.arr items) = .arr (items.map (mapTexts f)) := by
  have hitems : mapTextsItems f items = items.map (mapTexts f) := by
    induction items with
    | nil => rfl
    | cons item items ih => rw [mapTextsItems, ih, List.map_cons]
  rw [mapTexts, hitems]

/-- The texts of an object are those of its values; its names are no texts in this sense. -/
theorem mapTexts_obj (f : String → String) (members : Fields Json) :
    mapTexts f (.obj members) = .obj (members.mapValues (mapTexts f)) := by
  have hmembers : mapTextsMembers f members = members.mapValues (mapTexts f) := by
    induction members with
    | nil => rfl
    | cons entry members ih =>
        obtain ⟨name, value⟩ := entry
        rw [mapTextsMembers, ih]
        rfl
  rw [mapTexts, hmembers]

/-- A word is no text, so nothing changes in it. -/
theorem mapTexts_of_wordValue? {word : List Char} {v : Json} (h : wordValue? word = some v) :
    mapTexts f v = v :=
  @wordValue?_induction (fun v => mapTexts f v = v) rfl (fun _ => rfl) (fun _ => rfl)
    (fun _ => rfl) word v h

/-! ## What is due -/

/-- `mapTexts` on an open container. -/
def Frame.mapTexts (f : String → String) : Frame → Frame
  | .items read => .items (read.map (Json.mapTexts f))
  | .member read name => .member (read.mapValues (Json.mapTexts f)) name

/-- `mapTexts` on what has been read. -/
def Due.mapTexts (f : String → String) : Due → Due
  | .value fresh stack => .value fresh (stack.map (Frame.mapTexts f))
  | .name fresh read stack =>
    .name fresh (read.mapValues (Json.mapTexts f)) (stack.map (Frame.mapTexts f))
  | .colon read key stack =>
    .colon (read.mapValues (Json.mapTexts f)) key (stack.map (Frame.mapTexts f))
  | .afterItem read stack =>
    .afterItem (read.map (Json.mapTexts f)) (stack.map (Frame.mapTexts f))
  | .afterMember read stack =>
    .afterMember (read.mapValues (Json.mapTexts f)) (stack.map (Frame.mapTexts f))
  | .nothing v => .nothing (v.mapTexts f)
  | .fault => .fault

/-- A value may be changed before it is handed over or afterwards. -/
theorem deliver_mapTexts (v : Json) (stack : List Frame) :
    (deliver v stack).mapTexts f = deliver (v.mapTexts f) (stack.map (Frame.mapTexts f)) := by
  cases stack with
  | nil => rfl
  | cons frame stack =>
      cases frame with
      | items read => rfl
      | member read name =>
          simp only [deliver, Due.mapTexts, List.map_cons, Frame.mapTexts, Fields.mapValues_put]

/-- A token that the function leaves alone. -/
def Token.Fixed (f : String → String) : Token → Prop
  | .text s => f s = s
  | .scalar v => v.mapTexts f = v
  | _ => True

/-- An array that has just been opened may be closed at once. -/
theorem closeBracket_mapTexts (stack : List Frame) :
    Due.step (.value true (stack.map (Frame.mapTexts f))) .closeBracket =
      (Due.step (.value true stack) .closeBracket).mapTexts f := by
  cases stack with
  | nil => rfl
  | cons frame stack =>
      cases frame with
      | member => rfl
      | items read =>
          cases read with
          | cons => rfl
          | nil => exact (deliver_mapTexts (.arr []) stack).symm

/-- **One token.**  What the function leaves alone does the same on both sides. -/
theorem Due.step_mapTexts {token : Token} (h : token.Fixed f) (due : Due) :
    (due.mapTexts f).step token = (due.step token).mapTexts f := by
  -- An object is handed over in two of the cases.
  have hobj (read : Fields Json) (stack : List Frame) :
      deliver (.obj (read.mapValues (Json.mapTexts f))) (stack.map (Frame.mapTexts f)) =
        (deliver (.obj read) stack).mapTexts f := by
    rw [deliver_mapTexts, mapTexts_obj]
  cases due with
  | value fresh stack =>
      cases token with
      | scalar v =>
          have hscalar : v.mapTexts f = v := h
          have hdeliver := deliver_mapTexts (f := f) v stack
          rw [hscalar] at hdeliver
          exact hdeliver.symm
      | text s =>
          have htext : f s = s := h
          have hdeliver := deliver_mapTexts (f := f) (.str s) stack
          rw [Json.mapTexts, htext] at hdeliver
          exact hdeliver.symm
      | openBrace => rfl
      | openBracket => rfl
      | closeBracket =>
          cases fresh with
          | true => exact closeBracket_mapTexts stack
          | false => rfl
      | _ => cases fresh <;> rfl
  | name fresh read stack =>
      cases token with
      | text s => rfl
      | closeBrace =>
          cases fresh with
          | true => exact hobj read stack
          | false => rfl
      | _ => cases fresh <;> rfl
  | colon read name stack => cases token <;> rfl
  | afterItem read stack =>
      cases token with
      | closeBracket =>
          have hdeliver := deliver_mapTexts (f := f) (.arr read.reverse) stack
          rw [mapTexts_arr, List.map_reverse] at hdeliver
          exact hdeliver.symm
      | _ => rfl
  | afterMember read stack =>
      cases token with
      | closeBrace => exact hobj read stack
      | _ => rfl
  | nothing v => rw [Due.mapTexts, Due.step_nothing, Due.step_nothing]; rfl
  | fault => rw [Due.mapTexts, Due.step_fault]; rfl

/-- Tokens that the change does not concern keep two states of the assembly alike. -/
theorem dueAfter_mapTexts {added base base' : List Token}
    (hbase : dueAfter base' = (dueAfter base).mapTexts f) (h : ∀ token ∈ added, token.Fixed f) :
    dueAfter (added ++ base') = (dueAfter (added ++ base)).mapTexts f := by
  induction added with
  | nil => exact hbase
  | cons token added ih =>
      obtain ⟨htoken, hadded⟩ := List.forall_mem_cons.mp h
      rw [List.cons_append, List.cons_append, dueAfter_cons, dueAfter_cons, ih hadded,
        Due.step_mapTexts htoken]

/-! ## Literals -/

/-- The text of a string literal. -/
def Token.text? : Token → Option String
  | .text s => some s
  | _ => none

/-- The string literals of a text, latest first, where control characters are escaped. -/
def literals (t : List Char) : List String :=
  (t.foldl (Scan.step .refused) .start).tokens.filterMap Token.text?

/-- The string literals that a text adds to a state in the given mode. -/
def literalsFrom (mode : Mode) (t : List Char) : List String :=
  (t.foldl (Scan.step .refused) ⟨[], mode⟩).tokens.filterMap Token.text?

/-- The literals of a text are those of its parts, if the second part is looked at from where the
first part leaves the scanner. -/
theorem literals_append (s t : List Char) :
    literals (s ++ t) =
      literalsFrom (s.foldl (Scan.step .refused) .start).mode t ++ literals s := by
  unfold literals literalsFrom
  rw [List.foldl_append]
  generalize s.foldl (Scan.step .refused) .start = state
  have honto : Scan.onto ⟨[], state.mode⟩ state.tokens = state := rfl
  have hfold := Scan.foldl_onto .refused ⟨[], state.mode⟩ state.tokens t
  rw [honto] at hfold
  rw [hfold, Scan.onto, List.filterMap_append]

/-- A token of the scanner is left alone if it is no text or one that the function leaves alone. -/
theorem fixed_of_literalsFrom {mode : Mode} {t : List Char}
    (h : ∀ s ∈ literalsFrom mode t, f s = s) :
    ∀ token ∈ (t.foldl (Scan.step .refused) ⟨[], mode⟩).tokens, token.Fixed f := by
  -- The values among the tokens are those of words, at every step of the scan.
  have hscalar : ∀ token ∈ (t.foldl (Scan.step .refused) ⟨[], mode⟩).tokens,
      ∀ v, token = .scalar v → v.mapTexts f = v := by
    have hstart : ∀ token ∈ (⟨[], mode⟩ : Scan).tokens, ∀ v, token = .scalar v → v.mapTexts f = v :=
      fun token htoken => by cases htoken
    clear h
    revert hstart
    generalize (⟨[], mode⟩ : Scan) = state
    induction t generalizing state with
    | nil => exact id
    | cons c t ih =>
        intro hstate
        refine ih (state.step .refused c) fun token htoken v hv => ?_
        subst hv
        rcases Scan.mem_step htoken with hadded | hold
        · cases hadded with
          | punctuation hc =>
              unfold punctuation? at hc
              repeat' split at hc
              all_goals cases hc
          | word hword => exact mapTexts_of_wordValue? hword
        · exact hstate _ hold v rfl
  intro token htoken
  cases token with
  | text s => exact h s (List.mem_filterMap.mpr ⟨_, htoken, rfl⟩)
  | scalar v => exact hscalar _ htoken v rfl
  | _ => trivial

/-- The inside of a string literal that denotes the given text. -/
def Spells (inside : List Char) (text : String) : Prop :=
  ∀ tokens, inside.foldl (Scan.step .refused) ⟨tokens, .inText [] .plain⟩ =
    ⟨tokens, .inText text.toList.reverse .plain⟩

/-- The inside of a literal spells the text that was written. -/
theorem spells_body (asciiOnly : Bool) (s : String) : Spells (body asciiOnly s.toList) s := by
  intro tokens
  rw [scan_body, List.append_nil]

theorem spells_literalBody (asciiOnly : Bool) (s : String) :
    Spells (literalBody asciiOnly s).toList s := by
  rw [literalBody, String.toList_ofList]
  exact spells_body asciiOnly s

/-- A literal is one token. -/
theorem Spells.scan {inside : List Char} {text : String} (h : Spells inside text)
    (tokens : List Token) :
    ('"' :: inside ++ ['"']).foldl (Scan.step .refused) ⟨tokens, .between⟩ =
      ⟨.text text :: tokens, .between⟩ := by
  rw [List.cons_append, List.foldl_cons, List.foldl_append, Scan.step_between, stepBetween_quote,
    h tokens, List.foldl_cons, Scan.step_quote, List.reverse_reverse, String.ofList_toList]
  rfl

/-! ## Two scans side by side -/

/-- Two states of the scanner whose values differ by a function on texts. -/
structure Scan.Maps (f : String → String) (s s' : Scan) : Prop where
  mode : s'.mode = s.mode
  due : dueAfter s'.tokens = (dueAfter s.tokens).mapTexts f

theorem Scan.maps_start (f : String → String) : Scan.start.Maps f .start :=
  ⟨rfl, rfl⟩

/-- What both texts have in common, if the function leaves its literals alone. -/
theorem Scan.Maps.foldl {s s' : Scan} (h : s.Maps f s') {t : List Char}
    (hfixed : ∀ text ∈ literalsFrom s.mode t, f text = text) :
    (t.foldl (Scan.step .refused) s).Maps f (t.foldl (Scan.step .refused) s') := by
  obtain ⟨tokens, mode⟩ := s
  obtain ⟨tokens', mode'⟩ := s'
  obtain ⟨hmode, hdue⟩ := h
  cases hmode
  have hfold (base : List Token) : t.foldl (Scan.step .refused) ⟨base, mode⟩ =
      (t.foldl (Scan.step .refused) ⟨[], mode⟩).onto base :=
    Scan.foldl_onto .refused ⟨[], mode⟩ base t
  rw [hfold tokens, hfold tokens']
  exact ⟨rfl, dueAfter_mapTexts hdue (fixed_of_literalsFrom hfixed)⟩

/-- **A literal in the place of a value.**  In its place the other text has what the function makes
of it. -/
theorem Scan.Maps.literal {s s' : Scan} (h : s.Maps f s') {fresh : Bool} {stack : List Frame}
    (hvalue : s.Between (.value fresh stack)) {inside inside' : List Char} {text : String}
    (hinside : Spells inside text) (hinside' : Spells inside' (f text)) :
    (('"' :: inside ++ ['"']).foldl (Scan.step .refused) s).Maps f
      (('"' :: inside' ++ ['"']).foldl (Scan.step .refused) s') := by
  obtain ⟨tokens, mode⟩ := s
  obtain ⟨tokens', mode'⟩ := s'
  obtain ⟨hmode, hdue⟩ := h
  obtain ⟨hbetween, hstack⟩ := hvalue
  cases hbetween
  cases hmode
  rw [hinside.scan, hinside'.scan]
  refine ⟨rfl, ?_⟩
  have hstack' : dueAfter tokens = .value fresh stack := hstack
  have hdue' : dueAfter tokens' = (dueAfter tokens).mapTexts f := hdue
  rw [dueAfter_cons, dueAfter_cons, hdue', hstack']
  exact (deliver_mapTexts (.str text) stack).symm

/-- The values that both texts have. -/
theorem Scan.Maps.value?_eq {s s' : Scan} (h : s.Maps f s') :
    s'.value? = s.value?.map (mapTexts f) := by
  obtain ⟨tokens, mode⟩ := s
  obtain ⟨tokens', mode'⟩ := s'
  obtain ⟨hmode, hdue⟩ := h
  cases hmode
  -- A word at the end is no text, so it is the same on both sides.
  have hvalue (due : Due) : (due.mapTexts f).value? = due.value?.map (mapTexts f) := by
    cases due <;> rfl
  cases mode with
  | between => rw [value?_between, value?_between, ← hvalue]; exact congrArg Due.value? hdue
  | word word =>
      rw [value?_word, value?_word]
      cases hword : wordValue? word.reverse with
      | none => rfl
      | some v =>
          have hfixed : Token.Fixed f (.scalar v) := mapTexts_of_wordValue? hword
          have hscalar : dueAfter (.scalar v :: tokens') =
              (dueAfter (.scalar v :: tokens)).mapTexts f :=
            @dueAfter_mapTexts f [.scalar v] tokens tokens' hdue (by simpa using hfixed)
          rw [Option.bind_some, Option.bind_some, hscalar, hvalue]
  | inText => rfl
  | failed => rfl

end ReAct.Json

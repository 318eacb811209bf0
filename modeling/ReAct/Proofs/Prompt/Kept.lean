import ReAct.Proofs.Prompt.Tools

/-!
# Scratchpads that are kept

The assembly of a prompt leaves the scratchpads to the session that fills them.  That is so of the
plain ones only: a scratchpad with a default is replaced by it, so that the session has no place to
show its entries.  A plain scratchpad is kept exactly if the text before it does not end within a
placeholder, which would swallow it (`assemble_keeps_iff`).  Where dollar signs do nothing but open
the placeholders of the templates, every text that comes before a scratchpad is sealed, and only the
defaults are left as a cause of loss.

## Main Definitions

* `Kept`: a scratchpad of a prompt between what stands before and after it
* `OnlyOpens`: templates and values whose dollar signs only open placeholders
* `Sealed`: texts that end outside of placeholders, and keep doing so in any concatenation
-/

namespace ReAct.Prompt

open Template Text

/-- What parts of a template become that is filled from the given values. -/
def filled (values : Fields Json) (pieces : List Piece) : List Char :=
  pieces.flatMap
    (Piece.fill parametersOpening.toList (textOf values) (.vanishes [scratchpadKey]))

/-- A scratchpad of a prompt between two texts: it is a placeholder of the prompt, and what the
second pass puts there is the scratchpad. -/
structure Kept (prompt before after : List Char) : Prop where
  survives : ∃ default, cut parametersOpening.toList prompt =
    cut parametersOpening.toList before ++
      .hole scratchpadKey.toList default :: cut parametersOpening.toList after
  shows : ∀ pad, padded pad prompt = padded pad before ++ pad ++ padded pad after

/-! ## One scratchpad -/

section

variable {values : Fields Json} {before after : List Piece} {pad : Piece}

/-- What the assembly makes of a plain scratchpad, which has no value. -/
theorem filled_padHole (hvalue : textOf values scratchpadKey = none) (before after : List Piece) :
    filled values (before ++ padHole :: after) =
      filled values before ++ padMark ++ filled values after := by
  simp [filled, Piece.fill, padHole, padMark, hvalue]

/-- What the assembly makes of a scratchpad with a default. -/
theorem filled_default (hvalue : textOf values scratchpadKey = none) (before after : List Piece)
    (text : List Char) :
    filled values (before ++ .hole scratchpadKey.toList (some text) :: after) =
      filled values before ++ text ++ filled values after := by
  simp [filled, Piece.fill, hvalue]

/-- A scratchpad that survives the first pass is filled by the second. -/
theorem Kept.of_survives {prompt before after : List Char} {default : Option (List Char)}
    (h : cut parametersOpening.toList prompt = cut parametersOpening.toList before ++
      .hole scratchpadKey.toList default :: cut parametersOpening.toList after) :
    Kept prompt before after := by
  refine ⟨⟨default, h⟩, fun pad => ?_⟩
  have hpad : padPiece pad (.hole scratchpadKey.toList default) = pad := by
    rw [padPiece_eq, if_pos (isPad_hole.mpr rfl)]
  rw [padded, h, List.flatMap_append, List.flatMap_cons, hpad, List.append_assoc]
  rfl

/-- A scratchpad that stands where a text does not end within a placeholder is kept. -/
theorem kept_padMark {before : List Char} (h : ¬ Unclosed parametersOpening.toList before)
    (after : List Char) : Kept (before ++ padMark ++ after) before after := by
  have hcut := @cut_intercalate_padMark [before, after] (by simpa using h)
  simp only [List.intercalate_cons_cons, List.intercalate_singleton, List.map_cons,
    List.map_nil] at hcut
  exact .of_survives (by simpa [padHole] using hcut)

/-- **When a scratchpad of a template is kept**: it is plain, and the text that stands before it in
the prompt does not end within a placeholder. -/
theorem kept_iff (hvalue : textOf values scratchpadKey = none) (hpad : IsPad pad)
    (hproper : pad.Proper) :
    Kept (filled values (before ++ pad :: after)) (filled values before) (filled values after) ↔
      pad = padHole ∧ ¬ Unclosed parametersOpening.toList (filled values before) := by
  constructor
  · rintro ⟨⟨default, hcut⟩, -⟩
    obtain ⟨-, hclosed, -⟩ := cut_before_hole parametersOpening_isOpening hcut
    rw [source_cut] at hclosed
    refine ⟨?_, hclosed⟩
    -- Cutting loses nothing, so the scratchpad has become the placeholder that is there.
    have hsource := source_cut parametersOpening.toList (filled values (before ++ pad :: after))
    rw [hcut, List.flatMap_append, List.flatMap_cons, source_cut, source_cut] at hsource
    cases pad with
    | char c => cases hpad
    | hole key text =>
        cases isPad_hole.mp hpad
        cases text with
        | none => rfl
        | some text =>
            rw [filled_default hvalue, List.append_assoc, List.append_cancel_left_eq,
              List.append_cancel_right_eq] at hsource
            have hbrace : '\x7d' ∈ text := by
              rw [← hsource]
              cases default <;> simp [Piece.source]
            exact absurd (hproper.2.2 text rfl _ hbrace) (by decide)
  · rintro ⟨rfl, hclosed⟩
    rw [filled_padHole hvalue]
    exact kept_padMark hclosed _

end

/-! ## Sealed texts -/

/-- A text in which every dollar sign is followed by a closing brace. -/
def Sealed (s : List Char) : Prop :=
  ∀ before inside, s = before ++ '$' :: inside → '\x7d' ∈ inside

/-- A text without a dollar leaves nothing open. -/
theorem sealed_of_notMem {s : List Char} (h : '$' ∉ s) : Sealed s := by
  rintro before inside rfl
  exact absurd (by simp) h

/-- A brace closes whatever was open. -/
theorem sealed_append_brace (s : List Char) : Sealed (s ++ ['\x7d']) := by
  intro before inside h
  rcases List.append_eq_append_iff.mp h with ⟨more, rfl, hmore⟩ | ⟨more, rfl, hmore⟩
  · cases more with
    | nil => cases hmore
    | cons c more =>
        obtain ⟨-, hmore⟩ := List.cons.inj hmore
        simp at hmore
  · cases more with
    | nil => cases hmore
    | cons c more =>
        obtain ⟨-, rfl⟩ := List.cons.inj hmore
        simp

/-- Texts that leave nothing open leave nothing open one after the other. -/
theorem Sealed.append {s t : List Char} (hs : Sealed s) (ht : Sealed t) : Sealed (s ++ t) := by
  intro before inside h
  rcases List.append_eq_append_iff.mp h with ⟨more, rfl, hmore⟩ | ⟨more, rfl, hmore⟩
  · exact ht more inside hmore
  · cases more with
    | nil => exact ht [] inside hmore.symm
    | cons c more =>
        obtain ⟨rfl, rfl⟩ := List.cons.inj hmore
        exact List.mem_append_left _ (hs before more rfl)

/-- Pieces whose texts leave nothing open, by induction on them. -/
theorem sealed_flatMap {pieces : List Piece} {f : Piece → List Char}
    (h : ∀ piece ∈ pieces, Sealed (f piece)) : Sealed (pieces.flatMap f) := by
  induction pieces with
  | nil => exact sealed_of_notMem (by simp)
  | cons piece pieces ih =>
      rw [List.forall_mem_cons] at h
      exact h.1.append (ih h.2)

/-- A sealed text does not end within a placeholder. -/
theorem Sealed.not_unclosed {s : List Char} (h : Sealed s) :
    ¬ Unclosed parametersOpening.toList s := by
  rintro ⟨before, inside, rfl, hpending⟩
  obtain ⟨name, hname, -⟩ := parametersOpening_isOpening.head
  have hbrace := h before (name ++ inside) (by rw [hname]; simp)
  rcases List.mem_append.mp hbrace with hmem | hmem
  · have hopening : '\x7d' ∈ parametersOpening.toList := hname ▸ List.mem_cons_of_mem _ hmem
    exact absurd (parametersOpening_isOpening.isKeyChar _ hopening) (by decide)
  · exact absurd (hpending.isDefaultChar _ hmem) (by decide)

/-! ## Dollar signs -/

/-- A piece whose dollar signs are that of its opening and those of its key. -/
def OpensOnly : Piece → Prop
  | .char c => c ≠ '$'
  | .hole _ none => True
  | .hole _ (some text) => '$' ∉ text

instance : DecidablePred OpensOnly
  | .char _ => inferInstanceAs (Decidable (_ ≠ _))
  | .hole _ none => .isTrue trivial
  | .hole _ (some _) => inferInstanceAs (Decidable (_ ∉ _))

/-- The values that are made from templates of their own. -/
def fragmentKeys : List String :=
  ["prompt.prefix", "prompt.suffix", "prompt.format_instruction"]

/-- Templates and values of a prompt whose dollar signs only open placeholders of the templates. -/
structure OnlyOpens (config : Config) (values : Fields Json) : Prop where
  templates : ∀ template ∈ templates config,
    ∀ piece ∈ cut parametersOpening.toList template.toList, OpensOnly piece
  values : ∀ entry ∈ values, entry.1 ∉ fragmentKeys → '$' ∉ entry.2.output.toList

/-- What is filled from sealed texts is sealed, where dollar signs only open placeholders. -/
theorem sealed_filled {values : Fields Json}
    (hvalues : ∀ key text, textOf values key = some text → Sealed text) {pieces : List Piece}
    (hpieces : ∀ piece ∈ pieces, OpensOnly piece) : Sealed (filled values pieces) := by
  refine sealed_flatMap fun piece hpiece => ?_
  have hopens := hpieces piece hpiece
  cases piece with
  | char c => exact sealed_of_notMem (by simpa [Piece.fill] using Ne.symm hopens)
  | hole key default =>
      -- A value is sealed by itself; what stays of a placeholder ends with its brace.
      cases hvalue : textOf values (String.ofList key) with
      | some text =>
          simp only [Piece.fill, hvalue]
          exact hvalues _ _ hvalue
      | none =>
          cases default with
          | some text =>
              simp only [Piece.fill, hvalue]
              exact sealed_of_notMem hopens
          | none =>
              simp only [Piece.fill, hvalue]
              split
              · exact sealed_append_brace _
              · exact sealed_of_notMem List.not_mem_nil

/-- A text comes from a value that is there. -/
theorem exists_of_textOf {values : Fields Json} {key : String} {text : List Char}
    (h : textOf values key = some text) :
    ∃ entry ∈ values, entry.1 = key ∧ entry.2.output.toList = text := by
  obtain ⟨output, hget, rfl⟩ := Option.map_eq_some_iff.mp h
  have hmem := Fields.mem_of_get? hget
  simp only [Json.outputs, List.mem_map, List.mem_filter, Prod.mk.injEq] at hmem
  obtain ⟨entry, ⟨hentry, -⟩, rfl, rfl⟩ := hmem
  exact ⟨entry, hentry, rfl, rfl⟩

theorem filled_cut (values : Fields Json) (template : String) :
    filled values (cut parametersOpening.toList template.toList) =
      (fillTemplate values template).toList :=
  (toList_fillTemplate values template).symm

section

variable {params : Parameters} {names lines : List String} {config : Config}

/-- What a prompt does not make itself is in its parameters. -/
theorem textOf_promptValues_of_notMem {key : String} (h : key ∉ sectionKeys) :
    textOf (promptValues params names lines config) key = textOf (plainValues params) key := by
  have hnone : key ∉ (sections params names lines config (plainValues params)).names :=
    fun hmem => h (List.mem_of_mem_dropLast hmem)
  rw [textOf_promptValues, Fields.get?_of_notMem hnone]
  rfl

/-- A value that is made from a template is filled from the parameters and the names of the
tools. -/
theorem fragment_of_textOf {key : String} {text : List Char} (hkey : key ∈ fragmentKeys)
    (htext : textOf (promptValues params names lines config) key = some text) :
    ∃ template ∈ templates config,
      text = filled (Fields.put (plainValues params) "tool_names"
        (.str (config.toolNamesSeparator.intercalate names)))
          (cut parametersOpening.toList template.toList) := by
  simp only [filled_cut]
  rw [textOf_promptValues] at htext
  simp only [fragmentKeys, List.mem_cons, List.not_mem_nil, or_false] at hkey
  rcases hkey with rfl | rfl | rfl
  · exact ⟨config.promptOpening, by simp [templates], (Option.some.inj htext).symm⟩
  · exact ⟨config.promptClosing, by simp [templates], (Option.some.inj htext).symm⟩
  · exact ⟨config.formatInstruction, by simp [templates], (Option.some.inj htext).symm⟩

/-- **The values of a prompt are sealed**, where dollar signs only open placeholders. -/
theorem sealed_promptValues (h : OnlyOpens config (promptValues params names lines config))
    {key : String} {text : List Char}
    (htext : textOf (promptValues params names lines config) key = some text) : Sealed text := by
  have hplain {key : String} {text : List Char} (hkey : key ∉ fragmentKeys)
      (htext : textOf (promptValues params names lines config) key = some text) : Sealed text := by
    obtain ⟨entry, hentry, rfl, rfl⟩ := exists_of_textOf htext
    exact sealed_of_notMem (h.values entry hentry hkey)
  by_cases hkey : key ∈ fragmentKeys
  · obtain ⟨template, htemplate, rfl⟩ := fragment_of_textOf hkey htext
    refine sealed_filled (fun key text htext => ?_) (h.templates template htemplate)
    -- A fragment knows no values but the names of the tools and the parameters.
    rw [textOf_put rfl] at htext
    split at htext
    · rename_i hnames
      subst hnames
      refine @hplain "tool_names" _ (by decide) ?_
      rw [textOf_promptValues, ← htext]
      rfl
    · have hsection : key ∉ sectionKeys := by
        intro hmem
        rw [textOf_plainValues params hmem] at htext
        cases htext
      have hsubset : fragmentKeys ⊆ sectionKeys := by decide
      exact hplain (fun hmem => hsection (hsubset hmem))
        ((textOf_promptValues_of_notMem hsection).trans htext)
  · exact hplain hkey htext

end

/-! ## The scratchpads of a template -/

/-- **Which scratchpads a prompt keeps.**  In the place of a scratchpad with a default the prompt
has the default.  A scratchpad is kept exactly if it is plain and what stands before it in the
prompt does not end within a placeholder, and exactly if it is plain, where dollar signs do nothing
but open the placeholders of the templates. -/
theorem assemble_keeps_iff {params : Parameters} {tools : List Tool.Entry} {names : List String}
    {config : Config} {prompt : String} (h : assemble params tools names config = .ok prompt) :
    ∃ lines, toolLines tools names = .ok lines ∧
      let values := promptValues params names lines config
      ∀ before pad after,
        cut parametersOpening.toList config.promptTemplate.toList = before ++ pad :: after →
        IsPad pad →
          (∀ text, pad = .hole scratchpadKey.toList (some text) →
            prompt.toList = filled values before ++ text ++ filled values after) ∧
          (Kept prompt.toList (filled values before) (filled values after) ↔
            pad = padHole ∧ ¬ Unclosed parametersOpening.toList (filled values before)) ∧
          (OnlyOpens config values →
            (Kept prompt.toList (filled values before) (filled values after) ↔ pad = padHole)) := by
  obtain ⟨lines, hlines, rfl⟩ := eq_fillTemplate_of_assemble h
  refine ⟨lines, hlines, fun before pad after hcut hpad => ?_⟩
  have hvalue : textOf (promptValues params names lines config) scratchpadKey = none := by
    rw [textOf_promptValues]
    exact textOf_plainValues params (by decide)
  -- The scratchpad has no value on assembly, so all turns on the piece itself and what stands
  -- before it.
  have hkept := @kept_iff _ before after _ hvalue hpad
    (proper_of_mem_cut (hcut ▸ List.mem_append_right _ List.mem_cons_self))
  rw [← filled_cut, hcut]
  refine ⟨?_, hkept, fun hopens => hkept.trans (and_iff_left ?_)⟩
  · rintro text rfl
    exact filled_default hvalue before after text
  · have hbefore (piece : Piece) (hpiece : piece ∈ before) : OpensOnly piece := by
      refine hopens.templates config.promptTemplate (by simp [templates]) piece ?_
      rw [hcut]
      exact List.mem_append_left _ hpiece
    exact (sealed_filled (fun _ _ => sealed_promptValues hopens) hbefore).not_unclosed

/-- The scratchpad of a prompt that asks a question. -/
theorem assemble_keeps_question :
    ∃ prompt, assemble [("question", .str "1 + 1?")] [] [] questionOnly = .ok prompt ∧
      Kept prompt.toList "Q: 1 + 1?\n".toList [] := by
  obtain ⟨lines, hlines, hkept⟩ :=
    assemble_keeps_iff (assemble_without_tools [("question", .str "1 + 1?")] questionOnly)
  cases hlines
  have hopens : OnlyOpens questionOnly
      (promptValues [("question", .str "1 + 1?")] [] [] questionOnly) :=
    ⟨by decide +kernel, by decide +kernel⟩
  have hcut : cut parametersOpening.toList questionOnly.promptTemplate.toList =
      [.char 'Q', .char ':', .char ' ', .hole "question".toList none, .char '\n'] ++
        padHole :: [] := by
    decide +kernel
  have hbefore : filled (promptValues [("question", .str "1 + 1?")] [] [] questionOnly)
      [.char 'Q', .char ':', .char ' ', .hole "question".toList none, .char '\n'] =
        "Q: 1 + 1?\n".toList := by
    decide +kernel
  refine ⟨_, assemble_without_tools _ _, ?_⟩
  have hone := ((hkept _ _ _ hcut isPad_padHole).2.2 hopens).mpr rfl
  rwa [hbefore] at hone

/-- A scratchpad with a default is not kept. -/
theorem not_forall_assemble_keeps :
    ¬ ∀ (params : Parameters) (tools : List Tool.Entry) (names lines : List String)
      (config : Config) (prompt : String) (before after : List Piece) (pad : Piece),
      let values := promptValues params names lines config
      assemble params tools names config = .ok prompt → toolLines tools names = .ok lines →
        OnlyOpens config values →
          cut parametersOpening.toList config.promptTemplate.toList = before ++ pad :: after →
            IsPad pad → Kept prompt.toList (filled values before) (filled values after) := by
  intro hall
  let config := { questionOnly with promptTemplate := "$\x7bparameters.scratchpad:-none\x7d" }
  have hkept := hall [] [] [] [] config _ [] [] (.hole scratchpadKey.toList (some "none".toList))
    (assemble_without_tools [] config) rfl ⟨by decide +kernel, by decide +kernel⟩
    (by decide +kernel) rfl
  have hshown := hkept.shows "SEEN".toList
  revert hshown
  decide +kernel

end ReAct.Prompt

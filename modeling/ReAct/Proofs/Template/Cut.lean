import ReAct.Proofs.Text.Search
import ReAct.Template

/-!
# Cutting a template

A template is cut from the left into placeholders and single characters.  What is a placeholder at
the start of a text is decided by the text up to its first closing brace (`hole?_eq_some`), and the
pieces of a template, written one after the other, are the template again (`source_cut`).

Where a text ends does not matter to what was cut before, unless it ends within a placeholder that
what follows may close (`cut_append`); and what a template has before one of its placeholders never
ends so (`cut_before_hole`).

## Main Definitions

* `Piece.Proper`: a placeholder that can be written
* `Pending`, `Unclosed`: what an open placeholder holds so far, and a text that ends within one
-/

namespace ReAct.Template

open Text

variable {opening : List Char}

/-! ## Placeholders -/

/-- A placeholder that can be written: its key is not empty and holds neither a colon nor a closing
brace, and its default holds no closing brace. -/
def Piece.Proper : Piece → Prop
  | .char _ => True
  | .hole key default => key ≠ [] ∧ (∀ c ∈ key, isKeyChar c = true) ∧
      ∀ text, default = some text → ∀ c ∈ text, isDefaultChar c = true

/-- How a placeholder may end: with a brace, or with a default and a brace. -/
theorem closing?_eq_some {s rest : List Char} {default : Option (List Char)} :
    closing? s = some (default, rest) ↔
      (default = none ∧ s = '\x7d' :: rest) ∨
        ∃ text, default = some text ∧ (∀ c ∈ text, isDefaultChar c = true) ∧
          s = ':' :: '-' :: text ++ '\x7d' :: rest := by
  constructor
  · intro h
    unfold closing? at h
    split at h
    · cases h
      exact .inl ⟨rfl, rfl⟩
    · rename_i inside
      rw [List.span_eq_takeWhile_dropWhile] at h
      have hsplit := List.takeWhile_append_dropWhile (p := isDefaultChar) (l := inside)
      split at h
      · rename_i text c after hspan
        cases h
        obtain ⟨htext, hafter⟩ := Prod.mk.inj hspan
        -- The span ends at the first character that no default may hold, which is the brace.
        have hc : isDefaultChar c = false := by
          have hhead := List.head?_dropWhile_not isDefaultChar inside
          simpa [hafter] using hhead
        have hbrace : c = '\x7d' := by simpa [isDefaultChar] using hc
        rw [htext, hafter, hbrace] at hsplit
        refine .inr ⟨text, rfl, ?_, by rw [← hsplit]; rfl⟩
        intro d hd
        rw [← htext] at hd
        exact List.mem_takeWhile_imp hd
      · cases h
    · cases h
  · rintro (⟨rfl, rfl⟩ | ⟨text, rfl, htext, rfl⟩)
    · rfl
    · have hspan : (text ++ '\x7d' :: rest).span isDefaultChar = (text, '\x7d' :: rest) :=
        span_append htext (by rintro c ⟨⟩; rfl)
      simp only [List.cons_append, closing?, hspan]

/-- **What a placeholder is.**  A text starts with a placeholder exactly if it starts with the
opening, a key, possibly a default, and the closing brace. -/
theorem hole?_eq_some {s rest : List Char} {piece : Piece} :
    hole? opening s = some (piece, rest) ↔
      ∃ key default, piece = .hole key default ∧ (Piece.hole key default).Proper ∧
        s = (Piece.hole key default).source opening ++ rest := by
  constructor
  · intro h
    unfold hole? at h
    obtain ⟨inside, hinside, h⟩ := Option.bind_eq_some_iff.mp h
    rw [after?_eq_some] at hinside
    rw [List.span_eq_takeWhile_dropWhile] at h
    have hsplit := List.takeWhile_append_dropWhile (p := isKeyChar) (l := inside)
    split at h
    · cases h
    · rename_i key after hne hspan
      obtain ⟨hkey, hafter⟩ := Prod.mk.inj hspan
      obtain ⟨⟨default, rest⟩, hclosing, hresult⟩ := Option.map_eq_some_iff.mp h
      cases hresult
      have hkeys : ∀ c ∈ key, isKeyChar c = true := by
        rw [← hkey]
        exact fun c hc => List.mem_takeWhile_imp hc
      have hnonempty : key ≠ [] := hne
      rw [hkey, hafter] at hsplit
      -- A key and its closing are what the source of the piece is made of.
      rcases closing?_eq_some.mp hclosing with ⟨rfl, rfl⟩ | ⟨text, rfl, htext, rfl⟩
      · refine ⟨key, none, rfl, ⟨hnonempty, hkeys, by simp⟩, ?_⟩
        simp [hinside, ← hsplit, Piece.source]
      · refine ⟨key, some text, rfl, ⟨hnonempty, hkeys, by simpa using htext⟩, ?_⟩
        simp [hinside, ← hsplit, Piece.source]
  · rintro ⟨key, default, rfl, ⟨hnonempty, hkeys, hdefault⟩, rfl⟩
    obtain ⟨after, hsource, hclosing, hhead⟩ : ∃ after,
        (Piece.hole key default).source opening ++ rest = opening ++ (key ++ after) ∧
          closing? after = some (default, rest) ∧
            ∀ c, after.head? = some c → isKeyChar c = false := by
      cases default with
      | none => exact ⟨'\x7d' :: rest, by simp [Piece.source], rfl, by rintro c ⟨⟩; rfl⟩
      | some text =>
          refine ⟨':' :: '-' :: text ++ '\x7d' :: rest, by simp [Piece.source], ?_, ?_⟩
          · exact closing?_eq_some.mpr (.inr ⟨text, rfl, hdefault text rfl, rfl⟩)
          · rintro c ⟨⟩
            rfl
    unfold hole?
    rw [after?_eq_some.mpr hsource, Option.bind_some, span_append hkeys hhead]
    cases key with
    | nil => exact absurd rfl hnonempty
    | cons c key => simp only [hclosing, Option.map_some]

/-- A placeholder is not empty. -/
theorem length_lt_of_hole? {s rest : List Char} {piece : Piece}
    (h : hole? opening s = some (piece, rest)) : rest.length < s.length := by
  obtain ⟨key, default, -, -, rfl⟩ := hole?_eq_some.mp h
  cases default <;> simp [Piece.source] <;> omega

/-! ## Pieces -/

/-- The bound on the number of pieces does not matter as long as the text is no longer. -/
theorem cutWithin_of_le {bound other : Nat} :
    ∀ {s : List Char}, s.length ≤ bound → s.length ≤ other →
      cutWithin opening bound s = cutWithin opening other s := by
  induction bound generalizing other with
  -- Each piece takes a character at least, so either bound is enough.
  | zero =>
      intro s hs _
      rw [List.eq_nil_of_length_eq_zero (Nat.le_zero.mp hs)]
      cases other <;> rfl
  | succ bound ih =>
      intro s hs hother
      cases s with
      | nil => cases other <;> rfl
      | cons c s =>
          cases other with
          | zero => exact absurd hother (Nat.not_succ_le_zero _)
          | succ other =>
              simp only [List.length_cons, Nat.add_le_add_iff_right] at hs hother
              simp only [cutWithin]
              split
              · rename_i piece rest hhole
                have hlt := length_lt_of_hole? hhole
                rw [List.length_cons] at hlt
                exact congrArg (piece :: ·) (ih (by omega) (by omega))
              · exact congrArg (Piece.char c :: ·) (ih hs hother)

@[simp] theorem cut_nil : cut opening [] = [] := rfl

/-- A placeholder at the start of the text is the first piece. -/
theorem cut_of_hole? {s rest : List Char} {piece : Piece}
    (h : hole? opening s = some (piece, rest)) :
    cut opening s = piece :: cut opening rest := by
  have hlt := length_lt_of_hole? h
  cases s with
  | nil => cases hlt
  | cons c s =>
      rw [List.length_cons] at hlt
      rw [cut, List.length_cons, cutWithin, h, cut]
      exact congrArg (piece :: ·) (cutWithin_of_le (by omega) (Nat.le_refl _))

/-- Any other character is a piece of its own. -/
theorem cut_cons {c : Char} {s : List Char} (h : hole? opening (c :: s) = none) :
    cut opening (c :: s) = .char c :: cut opening s := by
  rw [cut, List.length_cons, cutWithin, h, cut]

/-- Induction on a text along its pieces. -/
theorem cut_induction (opening : List Char) {motive : List Char → Prop} (nil : motive [])
    (hole : ∀ (s rest : List Char) (piece : Piece), hole? opening s = some (piece, rest) →
      motive rest → motive s)
    (char : ∀ (c : Char) (s : List Char), hole? opening (c :: s) = none → motive s →
      motive (c :: s)) (s : List Char) : motive s := by
  induction hlength : s.length using Nat.strong_induction_on generalizing s with
  | _ n ih =>
      subst hlength
      cases s with
      | nil => exact nil
      | cons c s =>
          cases hhole : hole? opening (c :: s) with
          | none => exact char c s hhole (ih s.length (by simp) s rfl)
          | some found =>
              obtain ⟨piece, rest⟩ := found
              exact hole _ rest piece hhole (ih _ (length_lt_of_hole? hhole) rest rfl)

/-- All placeholders of a text are proper, by the recursion of the cut. -/
theorem proper_of_mem_cut {s : List Char} {piece : Piece} (h : piece ∈ cut opening s) :
    piece.Proper := by
  induction s using cut_induction opening with
  | nil => cases h
  | hole s rest found hhole ih =>
      rw [cut_of_hole? hhole] at h
      rcases List.mem_cons.mp h with rfl | hmem
      · obtain ⟨key, default, rfl, hproper, -⟩ := hole?_eq_some.mp hhole
        exact hproper
      · exact ih hmem
  | char c s hnone ih =>
      rw [cut_cons hnone] at h
      rcases List.mem_cons.mp h with rfl | hmem
      · exact trivial
      · exact ih hmem

/-- **Cutting loses nothing.** -/
theorem source_cut (opening s : List Char) :
    (cut opening s).flatMap (Piece.source opening) = s := by
  induction s using cut_induction opening with
  | nil => rfl
  | hole s rest piece hhole ih =>
      obtain ⟨key, default, rfl, -, rfl⟩ := hole?_eq_some.mp hhole
      rw [cut_of_hole? hhole, List.flatMap_cons, ih]
  | char c s hnone ih =>
      rw [cut_cons hnone, List.flatMap_cons, ih]
      rfl

/-- **A value is found in what is filled**, as it is, if the template has a placeholder for it. -/
theorem infix_fillChars {value : String → Option (List Char)} {template key text : List Char}
    {default : Option (List Char)} (hmem : .hole key default ∈ cut opening template)
    (hvalue : value (String.ofList key) = some text) (missing : Missing) :
    text <:+: fillChars opening value missing template := by
  have hpiece : (Piece.hole key default).fill opening value missing = text := by
    simp [Piece.fill, hvalue]
  rw [← hpiece]
  exact List.infix_of_mem_flatten (List.mem_map_of_mem hmem)

/-! ## Where a text ends -/

/-- What follows the opening of a placeholder that is not closed yet: a part of a key, or a key and
a part of a default. -/
def Pending (inside : List Char) : Prop :=
  (∀ c ∈ inside, isKeyChar c = true) ∨
    ∃ key default, key ≠ [] ∧ (∀ c ∈ key, isKeyChar c = true) ∧
      (∀ c ∈ default, isDefaultChar c = true) ∧ inside = key ++ ':' :: '-' :: default

/-- A text that ends within a placeholder. -/
def Unclosed (opening s : List Char) : Prop :=
  ∃ before inside, s = before ++ opening ++ inside ∧ Pending inside

theorem Unclosed.append {s : List Char} (before : List Char) (h : Unclosed opening s) :
    Unclosed opening (before ++ s) := by
  obtain ⟨first, inside, rfl, hpending⟩ := h
  exact ⟨before ++ first, inside, by simp, hpending⟩

theorem isDefaultChar_of_isKeyChar {c : Char} (h : isKeyChar c = true) :
    isDefaultChar c = true := by
  simp only [isKeyChar, Bool.and_eq_true] at h
  exact h.1

/-- No closing brace is in a placeholder that is not closed yet. -/
theorem Pending.isDefaultChar {inside : List Char} (h : Pending inside) :
    ∀ c ∈ inside, isDefaultChar c = true := by
  rcases h with hkeys | ⟨key, default, -, hkeys, hdefault, rfl⟩
  · exact fun c hc => isDefaultChar_of_isKeyChar (hkeys c hc)
  · intro c hc
    simp only [List.mem_append, List.mem_cons] at hc
    rcases hc with hkey | rfl | rfl | hdefaults
    · exact isDefaultChar_of_isKeyChar (hkeys c hkey)
    · rfl
    · rfl
    · exact hdefault c hdefaults

/-- An opening that can only start with its first character, and that a key may hold. -/
structure IsOpening (opening : List Char) : Prop where
  head : ∃ name, opening = '$' :: name ∧ '$' ∉ name
  isKeyChar : ∀ c ∈ opening, isKeyChar c = true

theorem parametersOpening_isOpening : IsOpening parametersOpening.toList :=
  ⟨⟨"\x7bparameters.".toList, by decide, by decide⟩, List.all_eq_true.mp (by decide)⟩

/-- A placeholder that is not closed yet is closed by the next placeholder, which it swallows. -/
theorem hole?_of_pending (hopening : IsOpening opening) {inside : List Char} (h : Pending inside)
    {key : List Char} {default : Option (List Char)} (hproper : (Piece.hole key default).Proper)
    (rest : List Char) :
    ∃ piece, hole? opening
      (opening ++ (inside ++ ((Piece.hole key default).source opening ++ rest))) =
        some (piece, rest) := by
  obtain ⟨hnonempty, hkeys, hdefault⟩ := hproper
  rcases h with hinside | ⟨first, text, hfirst, hfirsts, htext, rfl⟩
  -- The key goes on through the other placeholder up to its default or brace.
  · refine ⟨.hole (inside ++ opening ++ key) default, hole?_eq_some.mpr ⟨_, _, rfl, ?_, ?_⟩⟩
    · refine ⟨by simp [hnonempty], ?_, hdefault⟩
      intro c hc
      simp only [List.mem_append] at hc
      rcases hc with (hc | hc) | hc
      · exact hinside c hc
      · exact hopening.isKeyChar c hc
      · exact hkeys c hc
    · cases default <;> simp [Piece.source]
  -- The default goes on up to the brace.
  · obtain ⟨inner, hsource, hinner⟩ : ∃ inner,
        (Piece.hole key default).source opening = inner ++ ['\x7d'] ∧
          ∀ c ∈ inner, isDefaultChar c = true := by
      cases default with
      | none =>
          refine ⟨opening ++ key, by simp [Piece.source], fun c hc => ?_⟩
          rcases List.mem_append.mp hc with hc | hc
          · exact isDefaultChar_of_isKeyChar (hopening.isKeyChar c hc)
          · exact isDefaultChar_of_isKeyChar (hkeys c hc)
      | some other =>
          refine ⟨opening ++ (key ++ ':' :: '-' :: other), by simp [Piece.source], fun c hc => ?_⟩
          rcases List.mem_append.mp hc with hc | hc
          · exact isDefaultChar_of_isKeyChar (hopening.isKeyChar c hc)
          · exact Pending.isDefaultChar
              (.inr ⟨key, other, hnonempty, hkeys, hdefault other rfl, rfl⟩) c hc
    refine ⟨.hole first (some (text ++ inner)), hole?_eq_some.mpr ⟨_, _, rfl, ?_, ?_⟩⟩
    · refine ⟨hfirst, hfirsts, fun _ hsome c hc => ?_⟩
      cases hsome
      rcases List.mem_append.mp hc with hc | hc
      · exact htext c hc
      · exact hinner c hc
    · rw [hsource]
      simp [Piece.source]

/-- What is found at the start of a text is also found there when more text follows. -/
theorem hole?_append_of_eq_some {s rest : List Char} {piece : Piece}
    (h : hole? opening s = some (piece, rest)) (tail : List Char) :
    hole? opening (s ++ tail) = some (piece, rest ++ tail) := by
  obtain ⟨key, default, rfl, hproper, rfl⟩ := hole?_eq_some.mp h
  exact hole?_eq_some.mpr ⟨key, default, rfl, hproper, by rw [List.append_assoc]⟩

/-- The source of a placeholder is its opening and what follows that. -/
theorem source_hole (opening key : List Char) (default : Option (List Char)) :
    (Piece.hole key default).source opening = opening ++ (Piece.hole key default).source [] := by
  cases default <;> simp [Piece.source]

/-- What a placeholder holds before a dollar sign in it is pending. -/
theorem pending_of_source {inside more key : List Char} {default : Option (List Char)}
    (hproper : (Piece.hole key default).Proper)
    (h : (Piece.hole key default).source [] = inside ++ '$' :: more) : Pending inside := by
  obtain ⟨hnonempty, hkeys, hdefault⟩ := hproper
  -- What stands before the dollar begins the key, or is the key, the mark and what begins the
  -- default.
  cases default with
  | none =>
      simp only [Piece.source, List.nil_append] at h
      rcases List.append_eq_append_iff.mp h with ⟨other, rfl, hother⟩ | ⟨other, rfl, -⟩
      · cases other <;> simp at hother
      · exact .inl fun c hc => hkeys c (List.mem_append_left other hc)
  | some text =>
      simp only [Piece.source, List.nil_append, List.append_assoc] at h
      rcases List.append_eq_append_iff.mp h with ⟨other, rfl, hother⟩ | ⟨other, rfl, -⟩
      · obtain - | ⟨c, - | ⟨d, begun⟩⟩ := other
        · simp at hother
        · simp at hother
        · simp only [List.cons_append, List.cons.injEq] at hother
          obtain ⟨rfl, rfl, hbegun⟩ := hother
          refine .inr ⟨key, begun, hnonempty, hkeys, ?_, rfl⟩
          rcases List.append_eq_append_iff.mp hbegun with ⟨rest, rfl, hrest⟩ | ⟨rest, rfl, -⟩
          · cases rest <;> simp at hrest
          · exact fun c hc => hdefault _ rfl c (List.mem_append_left rest hc)
      · exact .inl fun c hc => hkeys c (List.mem_append_left other hc)

/-- What is decided about the start of a text stays so when a dollar sign follows, unless the text
starts a placeholder that is not closed in it. -/
theorem hole?_append_of_eq_none (hopening : IsOpening opening) {c : Char} {s : List Char}
    (hnone : hole? opening (c :: s) = none)
    (h : ∀ inside, c :: s = opening ++ inside → ¬ Pending inside) (tail : List Char) :
    hole? opening (c :: s ++ '$' :: tail) = none := by
  rw [Option.eq_none_iff_forall_ne_some]
  rintro ⟨piece, rest⟩ hsome
  obtain ⟨key, default, rfl, hproper, hsource⟩ := hole?_eq_some.mp hsome
  -- A placeholder that ends within the text would have been found in it.
  have hends (after : List Char) :
      c :: s ≠ (Piece.hole key default).source opening ++ after := by
    intro heq
    rw [hole?_eq_some.mpr ⟨key, default, rfl, hproper, heq⟩] at hnone
    cases hnone
  rcases List.append_eq_append_iff.mp hsource with ⟨other, hother, htail⟩ | ⟨other, hother, -⟩
  · cases other with
    | nil => exact hends [] (by simpa using hother.symm)
    | cons d more =>
        obtain ⟨rfl, -⟩ := List.cons.inj htail
        rw [source_hole] at hother
        -- The dollar sign stands behind the opening, so the text is pending there, or in it.
        rcases List.append_eq_append_iff.mp hother with
          ⟨inside, hinside, hmore⟩ | ⟨inside, hinside, hmore⟩
        · exact h inside hinside (pending_of_source hproper hmore)
        · obtain ⟨name, hname, hdollar⟩ := hopening.head
          cases inside with
          | nil => exact h [] (by simpa using hinside.symm) (.inl (by simp))
          | cons e inside =>
              obtain ⟨rfl, -⟩ := List.cons.inj hmore
              rw [hname] at hinside
              obtain ⟨-, rfl⟩ := List.cons.inj hinside
              simp at hdollar
  · exact hends other hother

/-- **Where a text may be cut off.**  A text that does not end within a placeholder is cut alike
alone and before a dollar sign. -/
theorem cut_append (hopening : IsOpening opening) {s : List Char} (h : ¬ Unclosed opening s)
    (tail : List Char) :
    cut opening (s ++ '$' :: tail) = cut opening s ++ cut opening ('$' :: tail) := by
  induction s using cut_induction opening with
  | nil => rfl
  | hole s rest piece hhole ih =>
      obtain ⟨key, default, rfl, -, rfl⟩ := hole?_eq_some.mp hhole
      rw [cut_of_hole? hhole, cut_of_hole? (hole?_append_of_eq_some hhole _),
        ih fun hrest => h (hrest.append _), List.cons_append]
  | char c s hnone ih =>
      have hpending (inside : List Char) (heq : c :: s = opening ++ inside) : ¬ Pending inside :=
        fun hinside => h ⟨[], inside, heq, hinside⟩
      have hlonger : hole? opening (c :: (s ++ '$' :: tail)) = none :=
        hole?_append_of_eq_none hopening hnone hpending tail
      rw [cut_cons hnone, List.cons_append, cut_cons hlonger,
        ih fun hrest => h (hrest.append [c]), List.cons_append]

/-- A text that starts with a placeholder ends within one only if what follows does. -/
theorem Unclosed.of_source_append (hopening : IsOpening opening) {key s : List Char}
    {default : Option (List Char)}
    (h : Unclosed opening ((Piece.hole key default).source opening ++ s)) : Unclosed opening s := by
  obtain ⟨before, inside, heq, hpending⟩ := h
  obtain ⟨inner, hsource⟩ : ∃ inner,
      (Piece.hole key default).source opening = inner ++ ['\x7d'] := by
    cases default <;> exact ⟨_, rfl⟩
  have hbrace : '\x7d' ∉ opening ++ inside := by
    intro hmem
    rcases List.mem_append.mp hmem with hmem | hmem
    · exact absurd (hopening.isKeyChar _ hmem) (by decide)
    · exact absurd (hpending.isDefaultChar _ hmem) (by decide)
  rw [hsource, List.append_assoc, List.append_assoc] at heq
  -- The brace of the source lies before the opening or inside what is left open, where none can be.
  rcases List.append_eq_append_iff.mp heq with ⟨more, rfl, hmore⟩ | ⟨more, rfl, hmore⟩
  · cases more with
    | nil =>
        rw [List.nil_append] at hmore
        exact absurd (hmore ▸ List.mem_cons_self) hbrace
    | cons c more =>
        obtain ⟨rfl, rfl⟩ := List.cons.inj hmore
        exact ⟨more, inside, by simp, hpending⟩
  · exact absurd (by simp [hmore]) hbrace

theorem not_unclosed_nil (hopening : IsOpening opening) : ¬ Unclosed opening [] := by
  rintro ⟨before, inside, heq, -⟩
  obtain ⟨name, rfl, -⟩ := hopening.head
  simp at heq

/-- What begins no placeholder in a longer text begins none in a shorter one. -/
theorem hole?_eq_none_of_append {s tail : List Char} (h : hole? opening (s ++ tail) = none) :
    hole? opening s = none := by
  cases hfound : hole? opening s with
  | none => rfl
  | some found =>
      rw [hole?_append_of_eq_some hfound tail] at h
      cases h

/-- A character before a text opens no placeholder in which the text ends, if it does not when a
placeholder follows, for that would have been closed. -/
theorem not_unclosed_cons (hopening : IsOpening opening) {c : Char} {s key rest : List Char}
    {default : Option (List Char)} (hproper : (Piece.hole key default).Proper)
    (hnone : hole? opening (c :: s ++ ((Piece.hole key default).source opening ++ rest)) = none)
    (h : ¬ Unclosed opening s) : ¬ Unclosed opening (c :: s) := by
  rintro ⟨before, inside, heq, hpending⟩
  cases before with
  | nil =>
      obtain ⟨piece, hpiece⟩ := hole?_of_pending hopening hpending hproper rest
      rw [heq, List.nil_append, List.append_assoc, hpiece] at hnone
      cases hnone
  | cons d before =>
      obtain ⟨-, hs⟩ := List.cons.inj heq
      exact h ⟨before, inside, hs, hpending⟩

/-- **What stands before a placeholder.**  The text before a placeholder of a template is cut alike
on its own, and it does not end within a placeholder. -/
theorem cut_before_hole (hopening : IsOpening opening) {s key : List Char}
    {default : Option (List Char)} {before after : List Piece}
    (h : cut opening s = before ++ .hole key default :: after) :
    cut opening (before.flatMap (Piece.source opening)) = before ∧
      ¬ Unclosed opening (before.flatMap (Piece.source opening)) ∧
        cut opening (after.flatMap (Piece.source opening)) = after := by
  induction s using cut_induction opening generalizing before with
  | nil => simp at h
  -- Along the cut: the hole sought is the first piece, or the pieces before it are cut the same
  -- without it.
  | hole s rest piece hhole ih =>
      rw [cut_of_hole? hhole] at h
      cases before with
      | nil =>
          obtain ⟨-, rfl⟩ := List.cons.inj h
          exact ⟨rfl, not_unclosed_nil hopening, by rw [source_cut]⟩
      | cons first before =>
          obtain ⟨rfl, hrest⟩ := List.cons.inj h
          obtain ⟨hbefore, hclosed, hafter⟩ := ih hrest
          obtain ⟨name, text, rfl, hproper, -⟩ := hole?_eq_some.mp hhole
          rw [List.flatMap_cons]
          refine ⟨?_, fun hunclosed => hclosed (.of_source_append hopening hunclosed), hafter⟩
          rw [cut_of_hole? (hole?_eq_some.mpr ⟨name, text, rfl, hproper, rfl⟩), hbefore]
  | char c s hnone ih =>
      rw [cut_cons hnone] at h
      cases before with
      | nil => cases h
      | cons first before =>
          rw [List.cons_append] at h
          obtain ⟨rfl, hrest⟩ := List.cons.inj h
          obtain ⟨hbefore, hclosed, hafter⟩ := ih hrest
          have hproper : (Piece.hole key default).Proper :=
            proper_of_mem_cut (s := s) (by rw [hrest]; simp)
          rw [← source_cut opening s, hrest, List.flatMap_append, List.flatMap_cons,
            ← List.cons_append] at hnone
          refine ⟨?_, not_unclosed_cons hopening hproper hnone hclosed, hafter⟩
          exact (cut_cons (hole?_eq_none_of_append hnone)).trans (by rw [hbefore])

end ReAct.Template

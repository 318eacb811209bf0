import ReAct.Proofs.Json.MapTexts
import ReAct.Proofs.Template.Cut

/-!
# Placeholders as texts of a template

A template may be a JSON text in which placeholders are the whole of a string where a value is due.
If a placeholder is filled with the inside of a string literal, the text that comes of it is read as
the value of the template with the text of that literal in the place of the placeholder
(`read?_fill`).  Both texts are scanned side by side, part by part: what is not filled is the same
in both, and a slot is one literal in either of them.

That the template has no other string that reads like a placeholder is a condition on its literals,
of which there is one for every slot.  So none is left for the parts between the slots
(`Slotted.balance`).

## Main Definitions

* `mark`: a plain placeholder as it is written
* `timesRead`: how many literals of a text read like a placeholder
* `Slotted`: the parts of a template, some of them placeholders in quotes where a value is due
* `TextSlots`: a template in which every key has one such placeholder
* `inPlace`: a table of texts as a function on the texts of a value
* `SpellsEach`: two tables, of literals and of the texts that they denote
-/

namespace ReAct.Template

open Json Text

/-- A plain placeholder as it is written. -/
def mark (opening : List Char) (key : String) : List Char :=
  Piece.source opening (.hole key.toList none)

/-- A part of a template that is left as it is: a character, or a plain placeholder of a key that is
not among the given ones. -/
def Piece.Inert (keys : List String) : Piece → Prop
  | .char _ => True
  | .hole key default => default = none ∧ String.ofList key ∉ keys

/-- A text behind which a value is due. -/
def AwaitsValue (t : List Char) : Prop :=
  ∃ fresh stack, (t.foldl (Scan.step .refused) .start).Between (.value fresh stack)

/-- The parts of a template behind the text `before`: parts that are left as they are, and among
them placeholders of the given keys, in this order, each in quotes where a value is due. -/
inductive Slotted (opening : List Char) (keys : List String) :
    (before : List Char) → (order : List String) → List Piece → Prop
  | rest {before : List Char} {pieces : List Piece} (h : ∀ piece ∈ pieces, piece.Inert keys) :
      Slotted opening keys before [] pieces
  | slot {before : List Char} {key : String} {order : List String} {inert pieces : List Piece}
      (hkey : key ∈ keys) (hinert : ∀ piece ∈ inert, piece.Inert keys)
      (hvalue : AwaitsValue (before ++ inert.flatMap (Piece.source opening)))
      (h : Slotted opening keys
        (before ++ inert.flatMap (Piece.source opening) ++ ('"' :: mark opening key ++ ['"'])) order
        pieces) :
      Slotted opening keys before (key :: order)
        (inert ++ .char '"' :: .hole key.toList none :: .char '"' :: pieces)

/-- How many string literals of a text read like the placeholder of a key. -/
def timesRead (opening : List Char) (key : String) (t : List Char) : Nat :=
  (literals t).count (String.ofList (mark opening key))

/-- A template in which every key has one placeholder that is the whole of a string where a value is
due.  Nothing else in it is filled, and no other string reads like one of the placeholders. -/
structure TextSlots (opening : String) (keys : List String) (template : String) : Prop where
  slotted : ∃ order, order.Perm keys ∧
    Slotted opening.toList keys [] order (cut opening.toList template.toList)
  once : ∀ key ∈ keys, timesRead opening.toList key template.toList = 1

variable {opening : List Char} {keys : List String}

/-! ## Parts of a template -/

theorem mark_injective {key other : String} (h : mark opening key = mark opening other) :
    key = other := by
  simp only [mark, Piece.source, List.append_assoc] at h
  exact String.toList_inj.mp (List.append_cancel_right (List.append_cancel_left h))

/-- The text of parts with a slot among them. -/
theorem flatMap_slot (write : Piece → List Char) (hchar : ∀ c, write (.char c) = [c])
    (inert pieces : List Piece) (key : String) :
    (inert ++ .char '"' :: .hole key.toList none :: .char '"' :: pieces).flatMap write =
      inert.flatMap write ++ ('"' :: write (.hole key.toList none) ++ ['"']) ++
        pieces.flatMap write := by
  simp [hchar]

/-- A slot is a placeholder between quotes; this is how the template reads around it. -/
theorem source_slot (before : List Char) (inert pieces : List Piece) (key : String) :
    before ++ (inert ++ .char '"' :: .hole key.toList none :: .char '"' :: pieces).flatMap
        (Piece.source opening) =
      before ++ inert.flatMap (Piece.source opening) ++ ('"' :: mark opening key ++ ['"']) ++
        pieces.flatMap (Piece.source opening) := by
  have hsource : Piece.source opening (.hole key.toList none) = mark opening key := rfl
  rw [flatMap_slot _ (fun _ => rfl), hsource, List.append_assoc, List.append_assoc]
  simp only [List.append_assoc]

/-- Where only the keys of the slots have values, the other pieces stay as they are written. -/
theorem fill_of_inert {value : String → Option (List Char)}
    (hother : ∀ key, key ∉ keys → value key = none) {pieces : List Piece}
    (h : ∀ piece ∈ pieces, piece.Inert keys) :
    pieces.flatMap (Piece.fill opening value .stays) = pieces.flatMap (Piece.source opening) := by
  refine List.flatMap_congr fun piece hpiece => ?_
  have hinert := h piece hpiece
  cases piece with
  | char c => rfl
  | hole key default =>
      obtain ⟨rfl, hkey⟩ := hinert
      simp only [Piece.fill, hother _ hkey]

theorem inert_chars (keys : List String) (chars : List Char) :
    ∀ piece ∈ chars.map Piece.char, piece.Inert keys := by
  intro piece hpiece
  obtain ⟨c, -, rfl⟩ := List.mem_map.mp hpiece
  trivial

theorem source_chars (opening chars : List Char) :
    (chars.map Piece.char).flatMap (Piece.source opening) = chars := by
  rw [List.flatMap_map]
  simp [Piece.source]

/-- Plain characters are not filled. -/
theorem fill_chars (opening : List Char) (value : String → Option (List Char)) (missing : Missing)
    (chars : List Char) :
    (chars.map Piece.char).flatMap (Piece.fill opening value missing) = chars := by
  rw [List.flatMap_map]
  simp [Piece.fill]

theorem fill_hole {value : String → Option (List Char)} {key : String} {text : List Char}
    (h : value key = some text) (opening : List Char) (missing : Missing) :
    Piece.fill opening value missing (.hole key.toList none) = text := by
  simp only [Piece.fill, String.ofList_toList, h]

/-- A template with a single placeholder, which is the whole of a string. -/
theorem textSlots_of_cut {opening key template : String} {before after : List Char}
    (hcut : cut opening.toList template.toList = before.map .char ++
      .char '"' :: .hole key.toList none :: .char '"' :: after.map .char)
    (hvalue : AwaitsValue before)
    (honce : timesRead opening.toList key template.toList = 1) :
    TextSlots opening [key] template := by
  refine ⟨⟨[key], .refl _, ?_⟩, fun other hother => ?_⟩
  · rw [hcut]
    refine .slot List.mem_cons_self (inert_chars _ before) ?_ (.rest (inert_chars _ after))
    rwa [source_chars]
  · rwa [List.mem_singleton.mp hother]

/-! ## Literals that read like placeholders -/

theorem timesRead_append (key : String) (before part : List Char) :
    timesRead opening key (before ++ part) =
      (literalsFrom (before.foldl (Scan.step .refused) .start).mode part).count
        (String.ofList (mark opening key)) + timesRead opening key before := by
  rw [timesRead, literals_append, List.count_append]
  rfl

/-- A part that adds none has no literal that reads like a placeholder. -/
theorem ne_of_timesRead {key : String} {before part : List Char}
    (h : timesRead opening key (before ++ part) = timesRead opening key before) :
    ∀ text ∈ literalsFrom (before.foldl (Scan.step .refused) .start).mode part,
      text ≠ String.ofList (mark opening key) := by
  rintro text htext rfl
  have hpositive := List.count_pos_iff.mpr htext
  rw [timesRead_append] at h
  omega

/-- A slot adds one. -/
theorem timesRead_slot {before : List Char} {key : String} (hvalue : AwaitsValue before)
    (hmark : Spells (mark opening key) (String.ofList (mark opening key))) (other : String) :
    timesRead opening other before + (if key == other then 1 else 0) ≤
      timesRead opening other (before ++ ('"' :: mark opening key ++ ['"'])) := by
  obtain ⟨fresh, stack, hmode, -⟩ := hvalue
  have hadded : literalsFrom (before.foldl (Scan.step .refused) .start).mode
      ('"' :: mark opening key ++ ['"']) = [String.ofList (mark opening key)] := by
    rw [hmode, literalsFrom, hmark.scan]
    rfl
  rw [timesRead_append, hadded]
  by_cases hsame : key = other
  · subst hsame
    simp only [beq_self_eq_true, if_true, List.count_singleton_self]
    omega
  · rw [beq_eq_false_iff_ne.mpr hsame]
    simp

/-- The literals of a template are at least those before it and one for every slot. -/
theorem Slotted.timesRead_le {before : List Char} {order : List String} {pieces : List Piece}
    (h : Slotted opening keys before order pieces)
    (hmark : ∀ key ∈ keys, Spells (mark opening key) (String.ofList (mark opening key)))
    (key : String) :
    timesRead opening key before + order.count key ≤
      timesRead opening key (before ++ pieces.flatMap (Piece.source opening)) := by
  induction h with
  | rest =>
      rw [timesRead_append, List.count_nil]
      omega
  | @slot before other order inert pieces hkey _ hvalue _ ih =>
      have hslot := timesRead_slot hvalue (hmark other hkey) key
      have hpart := @timesRead_append opening key before
        (inert.flatMap (Piece.source opening))
      rw [source_slot, List.count_cons]
      omega

/-- If there are no more of them, the part before a slot has none and the rest one for every slot
that is left. -/
theorem Slotted.balance {before part : List Char} {key : String} {order : List String}
    {pieces : List Piece} (hvalue : AwaitsValue (before ++ part))
    (h : Slotted opening keys (before ++ part ++ ('"' :: mark opening key ++ ['"'])) order pieces)
    (hmark : ∀ key ∈ keys, Spells (mark opening key) (String.ofList (mark opening key)))
    (hkey : key ∈ keys) {other : String}
    (hcount : timesRead opening other (before ++ part ++ ('"' :: mark opening key ++ ['"']) ++
        pieces.flatMap (Piece.source opening)) =
      timesRead opening other before + (key :: order).count other) :
    timesRead opening other (before ++ part) = timesRead opening other before ∧
      timesRead opening other (before ++ part ++ ('"' :: mark opening key ++ ['"']) ++
          pieces.flatMap (Piece.source opening)) =
        timesRead opening other (before ++ part ++ ('"' :: mark opening key ++ ['"'])) +
          order.count other := by
  have hrest := h.timesRead_le hmark other
  have hslot := timesRead_slot hvalue (hmark key hkey) other
  have hpart := @timesRead_append opening other before part
  rw [List.count_cons] at hcount
  omega

/-! ## Filling -/

/-- **A template and what comes of filling it, side by side.**  The induction is on the slots; the
literals of a part without slots are none of the placeholders, because there are no more of them
than slots. -/
theorem Slotted.maps {f : String → String} {value : String → Option (List Char)}
    (hmark : ∀ key ∈ keys, Spells (mark opening key) (String.ofList (mark opening key)))
    (hfixed : ∀ text, (∀ key ∈ keys, text ≠ String.ofList (mark opening key)) → f text = text)
    (hvalue : ∀ key ∈ keys, ∃ text, value key = some text ∧
      Spells text (f (String.ofList (mark opening key))))
    (hother : ∀ key, key ∉ keys → value key = none) {before : List Char} {order : List String}
    {pieces : List Piece} (h : Slotted opening keys before order pieces)
    (hcount : ∀ key ∈ keys,
      timesRead opening key (before ++ pieces.flatMap (Piece.source opening)) =
        timesRead opening key before + order.count key)
    {s : Scan} (hs : (before.foldl (Scan.step .refused) .start).Maps f s) :
    ((before ++ pieces.flatMap (Piece.source opening)).foldl (Scan.step .refused) .start).Maps f
      ((pieces.flatMap (Piece.fill opening value .stays)).foldl (Scan.step .refused) s) := by
  -- What is not filled is the same on both sides, and none of its literals is a placeholder.
  have hinert {before : List Char} {s : Scan} {pieces : List Piece}
      (hs : (before.foldl (Scan.step .refused) .start).Maps f s)
      (hpieces : ∀ piece ∈ pieces, piece.Inert keys)
      (hsame : ∀ key ∈ keys,
        timesRead opening key (before ++ pieces.flatMap (Piece.source opening)) =
          timesRead opening key before) :
      ((before ++ pieces.flatMap (Piece.source opening)).foldl (Scan.step .refused) .start).Maps f
        ((pieces.flatMap (Piece.fill opening value .stays)).foldl (Scan.step .refused) s) := by
    rw [List.foldl_append, fill_of_inert hother hpieces]
    exact hs.foldl fun text htext =>
      hfixed text fun key hkey => ne_of_timesRead (hsame key hkey) text htext
  induction h generalizing s with
  | rest hpieces => exact hinert hs hpieces (by simpa using hcount)
  | @slot before key order inert pieces hkey hpieces hawaits hslots ih =>
      rw [source_slot] at hcount ⊢
      have hbalance (other : String) (hmem : other ∈ keys) :=
        hslots.balance hawaits hmark hkey (hcount other hmem)
      have hbefore := hinert hs hpieces fun other hmem => (hbalance other hmem).1
      obtain ⟨text, htext, hspells⟩ := hvalue key hkey
      obtain ⟨fresh, stack, hbetween⟩ := hawaits
      have hslot := hbefore.literal hbetween (hmark key hkey) hspells
      rw [← List.foldl_append] at hslot
      have hwhole := ih (fun other hmem => (hbalance other hmem).2) hslot
      rw [flatMap_slot _ fun _ => rfl, fill_hole htext]
      simpa only [List.foldl_append] using hwhole

/-! ## Tables of texts -/

/-- What a table of texts makes of a text: the text of a key in the place of its placeholder. -/
def inPlace (opening : String) (texts : Fields String) (s : String) : String :=
  ((texts.find? fun entry => String.ofList (mark opening.toList entry.1) = s).map Prod.snd).getD s

/-- In the place of a slot's mark the text of the slot is put. -/
theorem inPlace_mark {opening : String} {texts : Fields String} {key text : String}
    (h : texts.get? key = some text) :
    inPlace opening texts (String.ofList (mark opening.toList key)) = text := by
  unfold inPlace
  -- Marks of different keys differ, so the first that fits is the key's own.
  induction texts with
  | nil => cases h
  | cons entry texts ih =>
      obtain ⟨name, value⟩ := entry
      rw [Fields.get?] at h
      split at h
      · rename_i hname
        cases h
        subst hname
        rw [List.find?_cons_of_pos (by simp)]
        rfl
      · rename_i hname
        have hne : String.ofList (mark opening.toList name) ≠
            String.ofList (mark opening.toList key) := by
          intro heq
          exact hname (mark_injective (String.ofList_injective heq))
        rw [List.find?_cons_of_neg (by simpa using hne)]
        exact ih h

/-- Any other text is left alone. -/
theorem inPlace_of_ne {opening : String} {texts : Fields String} {s : String}
    (h : ∀ key ∈ texts.names, s ≠ String.ofList (mark opening.toList key)) :
    inPlace opening texts s = s := by
  have hnone :
      texts.find? (fun entry => String.ofList (mark opening.toList entry.1) = s) = none := by
    refine List.find?_eq_none.mpr fun entry hentry => ?_
    have hne := h entry.1 (List.mem_map_of_mem hentry)
    simpa using Ne.symm hne
  rw [inPlace, hnone]
  rfl

/-- Two tables with the same keys: literals in the one, and in the other the texts that they
denote. -/
def SpellsEach (values texts : Fields String) : Prop :=
  List.Forall₂ (fun value text => value.1 = text.1 ∧ Spells value.2.toList text.2) values texts

/-- Where there is a text, there is one that spells it. -/
theorem SpellsEach.get?_eq_some {values texts : Fields String} (h : SpellsEach values texts)
    {key text : String} (htext : texts.get? key = some text) :
    ∃ spelled, values.get? key = some spelled ∧ Spells spelled.toList text := by
  induction h with
  | nil => cases htext
  | @cons value entry values texts hentry _ ih =>
      obtain ⟨name, spelled⟩ := value
      obtain ⟨other, found⟩ := entry
      obtain ⟨rfl, hspells⟩ : name = other ∧ Spells spelled.toList found := hentry
      rw [Fields.get?] at htext ⊢
      split at htext
      · rename_i hname
        cases htext
        exact ⟨spelled, if_pos hname, hspells⟩
      · rename_i hname
        rw [if_neg hname]
        exact ih htext

/-- Where there is none, nothing is put. -/
theorem SpellsEach.get?_eq_none {values texts : Fields String} (h : SpellsEach values texts)
    {key : String} (hkey : key ∉ texts.names) : values.get? key = none := by
  have hnames : values.names = texts.names := by
    induction h with
    | nil => rfl
    | cons hentry _ ih =>
        rw [Fields.names, List.map_cons, hentry.1]
        exact congrArg _ (ih fun hmem => hkey (List.mem_cons_of_mem _ hmem))
  exact Fields.get?_of_notMem (hnames ▸ hkey)

/-- **A filled template is read as the template with texts in place of its placeholders**, if every
placeholder is filled with the inside of a literal of its text. -/
theorem read?_fill {opening template : String} {texts values : Fields String}
    (h : TextSlots opening texts.names template)
    (hmark : ∀ key ∈ texts.names, body false (mark opening.toList key) = mark opening.toList key)
    (hvalues : SpellsEach values texts) :
    read? (fill opening values .stays template) =
      (read? template).map (mapTexts (inPlace opening texts)) := by
  obtain ⟨⟨order, hperm, hslotted⟩, honce⟩ := h
  have hspells : ∀ key ∈ texts.names,
      Spells (mark opening.toList key) (String.ofList (mark opening.toList key)) := by
    intro key hkey
    have hbody := spells_body false (String.ofList (mark opening.toList key))
    rwa [String.toList_ofList, hmark key hkey] at hbody
  have hfilled : ∀ key ∈ texts.names,
      ∃ text, (values.get? key).map String.toList = some text ∧
        Spells text (inPlace opening texts (String.ofList (mark opening.toList key))) := by
    intro key hkey
    obtain ⟨text, htext⟩ := Fields.exists_get?_of_mem_names hkey
    obtain ⟨spelled, hspelled, hspell⟩ := hvalues.get?_eq_some htext
    refine ⟨spelled.toList, by rw [hspelled]; rfl, ?_⟩
    rwa [inPlace_mark htext]
  have hsource := source_cut opening.toList template.toList
  have hcount : ∀ key ∈ texts.names,
      timesRead opening.toList key
          ([] ++ (cut opening.toList template.toList).flatMap (Piece.source opening.toList)) =
        timesRead opening.toList key [] + order.count key := by
    intro key hkey
    -- One slot is at least one literal, and there is only one.
    have hle := hslotted.timesRead_le hspells key
    have hmem : 0 < order.count key := List.count_pos_iff.mpr (hperm.mem_iff.mpr hkey)
    have hnil : timesRead opening.toList key [] = 0 := rfl
    rw [List.nil_append, hsource, honce key hkey] at hle ⊢
    omega
  have hmaps := hslotted.maps hspells (fun text htext => inPlace_of_ne htext) hfilled
    (fun key hkey => by rw [hvalues.get?_eq_none hkey]; rfl) hcount (Scan.maps_start _)
  rw [List.nil_append, hsource] at hmaps
  have hvalue := hmaps.value?_eq
  rw [read?, read?, fill, String.toList_ofList, ofChars?_eq, ofChars?_eq]
  exact hvalue

end ReAct.Template

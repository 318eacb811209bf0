import ReAct.Proofs.Json.Displayed
import ReAct.Proofs.Json.Size
import ReAct.Proofs.Json.TextList
import ReAct.Prompt.Section

/-!
# The items of a list section

A list section has the items of a JSON list, each between its delimiters.  Whatever else a text is,
it should be the only item, but a text that happens to be JSON is read, and what is shown is the
value.  It comes out unchanged exactly if it is no JSON text at all, or what is shown of a number or
an object that is displayed as a JSON text of itself; and only if reading it, and showing the value,
exceeds no limit of the interpreter, which makes the section fail (`listSection_text_iff`).

A text may be JSON only for a reader that lets half of a surrogate pair stand alone.  What the
section shows of its value is no string here, so such texts are left aside.

## Main Definitions

* `SectionFormat.Wraps`: the section of some items
-/

namespace ReAct.Prompt

open Json

/-- The section of some items: nothing if there are none, else each of them between the delimiters
of an item and all of them between those of the section. -/
inductive SectionFormat.Wraps (format : SectionFormat) : List String → String → Prop
  | nothing : Wraps format [] ""
  | items {items : List String} (hne : items ≠ []) :
      Wraps format items
        (format.opening ++
          String.join (items.map fun item => format.itemOpening ++ item ++ format.itemClosing) ++
            format.closing)

theorem SectionFormat.wraps_iff {format : SectionFormat} {items : List String} {text : String} :
    format.Wraps items text ↔ text = format.wrap items := by
  constructor
  · rintro (_ | hne)
    · rfl
    · rw [wrap, if_neg (by simpa using hne)]
  · rintro rfl
    by_cases hne : items = []
    · subst hne
      exact .nothing
    · rw [wrap, if_neg (by simpa using hne)]
      exact .items hne

/-- A section shows its only item. -/
theorem SectionFormat.wrap_singleton_inj {format : SectionFormat} {item other : String} :
    format.wrap [item] = format.wrap [other] ↔ item = other := by
  constructor
  · intro h
    have hchars := congrArg String.toList h
    simpa [wrap, String.join, String.toList_inj] using hchars
  · rintro rfl
    rfl

theorem itemText_str (texts : List String) : (texts.map Json.str).map itemText = texts := by
  rw [List.map_map]
  exact List.map_id texts

/-- The items of the text of a list of texts. -/
theorem itemsOf_texts {texts : List String} {t : String} (h : read? t = some (ofTexts texts)) :
    itemsOf (.str t) = texts := by
  have hne : t ≠ "" := by
    rintro rfl
    cases h
  rw [itemsOf, if_neg hne, h]
  exact itemText_str texts

/-- The only item of a text that is no list is what is shown of its value, or the text itself. -/
theorem itemsOf_text {t : String} (hne : t ≠ "") (hlist : ∀ items, read? t ≠ some (.arr items)) :
    itemsOf (.str t) = [((read? t).map display).getD t] := by
  rw [itemsOf, if_neg hne]
  cases hread : read? t with
  | none => rfl
  | some v =>
      cases v with
      | arr items => exact absurd hread (hlist items)
      | _ => rfl

/-- The text of a list of texts reads as the list. -/
theorem read?_print_ofTexts {layout : Layout} (hlayout : layout.Plain) (texts : List String) :
    read? ((ofTexts texts).print layout) = some (ofTexts texts) := by
  have hdistinct : (ofTexts texts).Distinct := by
    refine .arr fun v hv => ?_
    obtain ⟨text, -, rfl⟩ := List.mem_map.mp hv
    exact .str text
  rw [read?, print, String.toList_ofList]
  exact ofChars?_chars .refused hlayout hdistinct

/-- What is shown of a value that is no text. -/
theorem display_eq {v : Json} (h : ∀ text, v ≠ .str text) : v.display = String.ofList v.shown := by
  cases v with
  | str text => exact absurd rfl (h text)
  | _ => rfl

/-- A text that is read as a string is longer than the string. -/
theorem read?_ne_str (t : String) : read? t ≠ some (.str t) := by
  intro h
  have hle := leastLength_le_of_ofChars? h
  have hbody := length_le_leastBody .refused t.toList
  rw [leastLength] at hle
  omega

/-- **Which values are displayed as a text that is read as them**: the legible ones that are not
themselves texts. -/
theorem read?_display_iff {v : Json} :
    read? v.display = some v ↔ v.Legible ∧ ∀ text, v ≠ .str text := by
  constructor
  · intro hread
    have htext (text : String) : v ≠ .str text := by
      rintro rfl
      exact read?_ne_str text hread
    rw [display_eq htext, read?, String.toList_ofList, ofChars?_shown_iff] at hread
    exact ⟨hread, htext⟩
  · rintro ⟨hlegible, htext⟩
    rwa [display_eq htext, read?, String.toList_ofList, ofChars?_shown_iff]

/-! ## The limits -/

variable {limits : Limits} {format : SectionFormat}

/-- A section is made exactly if nothing exceeds a limit. -/
theorem listSectionWithin_eq_ok {value : Json} {text : String} :
    listSectionWithin limits format value = .ok text ↔
      itemsOverrun? limits value = none ∧ text = listSection format value := by
  unfold listSectionWithin
  cases itemsOverrun? limits value with
  | none => exact ⟨fun h => ⟨rfl, (Except.ok.inj h).symm⟩, fun h => congrArg Except.ok h.2.symm⟩
  | some overrun => exact ⟨nofun, nofun⟩

/-- The interpreter and the reader agree about texts in which no half of a pair stands alone, and
about those that are no JSON text for either. -/
theorem looseValue?_eq_read? {s : String}
    (h : Whole .refused s.toList ∨ looseValue? .refused s.toList = none) :
    looseValue? .refused s.toList = read? s := by
  rcases h with hwhole | hnone
  · exact looseValue?_of_whole hwhole
  · cases hread : read? s with
    | none => exact hnone
    | some v => rw [looseValue?_of_whole (whole_of_ofChars? hread), ← hread, read?]

/-- Of a text, reading it and showing its value may exceed one. -/
theorem itemsOverrun?_text {s : String} (hs : s ≠ "")
    (hwhole : Whole .refused s.toList ∨ looseValue? .refused s.toList = none) :
    itemsOverrun? limits (.str s) = none ↔
      limits.readOverrun? .refused s.toList = none ∧
        ∀ v, read? s = some v → valueOverrun? limits v = none := by
  rw [itemsOverrun?, if_neg hs, Option.orElse_eq_orElse, Option.orElse_eq_or, Option.or_eq_none_iff,
    looseValue?_eq_read? hwhole, Option.bind_eq_none_iff]

/-- No limit is exceeded by the text of a list of texts. -/
theorem itemsOverrun?_texts (hlimits : 0 < limits.reading) {texts : List String} {t : String}
    (h : read? t = some (ofTexts texts)) : itemsOverrun? limits (.str t) = none := by
  have hne : t ≠ "" := by
    rintro rfl
    cases h
  refine (itemsOverrun?_text hne (.inl (whole_of_ofChars? h))).mpr
    ⟨Limits.readOverrun?_of_texts hlimits h, fun v hv => ?_⟩
  rw [h] at hv
  cases hv
  refine List.findSome?_eq_none_iff.mpr fun item hitem => ?_
  obtain ⟨text, -, rfl⟩ := List.mem_map.mp hitem
  rfl

/-- **The items of a section.**  The text of a list of texts is a section of just these.  Any other
text is the only item of its section, unchanged, exactly if reading it exceeds no limit and it is no
JSON text or displays, within the limits, a legible value that is not itself a text. -/
theorem listSection_text_iff (limits : Limits) (hlimits : 0 < limits.reading)
    (format : SectionFormat) :
    (∀ (texts : List String) (t : String), read? t = some (ofTexts texts) →
      ∃ text, listSectionWithin limits format (.str t) = .ok text ∧ format.Wraps texts text) ∧
    (∀ (texts : List String) (layout : Layout), layout.Plain →
      ∃ text, listSectionWithin limits format (.str ((ofTexts texts).print layout)) = .ok text ∧
        format.Wraps texts text) ∧
    ∀ s : String, s ≠ "" → (∀ items, read? s ≠ some (.arr items)) →
      (Whole .refused s.toList ∨ looseValue? .refused s.toList = none) →
        ((∃ text, listSectionWithin limits format (.str s) = .ok text ∧ format.Wraps [s] text) ↔
          limits.readOverrun? .refused s.toList = none ∧
            (read? s = none ∨ ∃ v : Json, v.Legible ∧ (∀ text, v ≠ .str text) ∧ s = v.display ∧
              limits.showOverrun? v = none)) := by
  have hwraps (texts : List String) (t : String) (ht : read? t = some (ofTexts texts)) :
      ∃ text, listSectionWithin limits format (.str t) = .ok text ∧ format.Wraps texts text := by
    refine ⟨_, listSectionWithin_eq_ok.mpr ⟨itemsOverrun?_texts hlimits ht, rfl⟩, ?_⟩
    rw [SectionFormat.wraps_iff, listSection, itemsOf_texts ht]
  refine ⟨hwraps, fun texts layout hlayout => hwraps texts _ (read?_print_ofTexts hlayout texts),
    fun s hs hlist hwhole => ?_⟩
  -- Wrapping is injective, so the section is the text's own exactly if the item is.
  have hshown : (∃ text, listSectionWithin limits format (.str s) = .ok text ∧
      format.Wraps [s] text) ↔
        itemsOverrun? limits (.str s) = none ∧ s = ((read? s).map display).getD s := by
    simp only [listSectionWithin_eq_ok, SectionFormat.wraps_iff, listSection,
      itemsOf_text hs hlist]
    constructor
    · rintro ⟨text, ⟨hwithin, rfl⟩, hsame⟩
      exact ⟨hwithin, (SectionFormat.wrap_singleton_inj.mp hsame).symm⟩
    · rintro ⟨hwithin, hsame⟩
      exact ⟨_, ⟨hwithin, rfl⟩, by rw [← hsame]⟩
  rw [hshown, itemsOverrun?_text hs hwhole, and_assoc]
  refine and_congr_right fun _ => ?_
  cases hread : read? s with
  | none => simp
  | some v =>
      have hvalue : valueOverrun? limits v = limits.showOverrun? v := by
        cases v with
        | arr items => exact absurd hread (hlist items)
        | _ => rfl
      simp only [Option.some.injEq, forall_eq', hvalue, Option.map_some, Option.getD_some,
        reduceCtorEq, false_or]
      constructor
      · rintro ⟨hshow, rfl⟩
        obtain ⟨hlegible, htext⟩ := read?_display_iff.mp hread
        exact ⟨v, hlegible, htext, rfl, hshow⟩
      · rintro ⟨w, hlegible, htext, rfl, hshow⟩
        rw [read?_display_iff.mpr ⟨hlegible, htext⟩] at hread
        cases hread
        exact ⟨hshow, rfl⟩

/-- A list written with blanks and an escape, and an object whose text has an apostrophe. -/
theorem listSection_text_apostrophe :
    let limits : Limits := {}
    let format : SectionFormat := ⟨"<", ">", "(", ")"⟩
    let t := " [\"a\", \"b\\u002c c\"]"
    let s := "\x7b\"it's\": 1\x7d"
    0 < limits.reading ∧ read? t = some (ofTexts ["a", "b, c"]) ∧ s ≠ "" ∧
      (∀ items, read? s ≠ some (.arr items)) ∧ Whole .refused s.toList ∧
      (∃ text, listSectionWithin limits format (.str t) = .ok text ∧
        format.Wraps ["a", "b, c"] text) ∧
      ∃ text, listSectionWithin limits format (.str s) = .ok text ∧ format.Wraps [s] text := by
  have ht : read? " [\"a\", \"b\\u002c c\"]" = some (ofTexts ["a", "b, c"]) := by rfl
  have hread : read? "\x7b\"it's\": 1\x7d" = some (.obj [("it's", .int 1)]) := by rfl
  have hlist (items : List Json) : read? "\x7b\"it's\": 1\x7d" ≠ some (.arr items) := by
    rw [hread]
    rintro ⟨⟩
  have hwhole : Whole .refused "\x7b\"it's\": 1\x7d".toList := whole_of_ofChars? hread
  have hlegible : Legible (.obj [("it's", .int 1)]) := by
    rw [legible_obj (by decide), List.forall_mem_singleton]
    have hall : "it's".toList.all Text.isPrintable = true := by decide
    exact ⟨⟨by decide, by decide, fun c hc => .inl (List.all_eq_true.mp hall c hc)⟩, .int 1⟩
  have hpos : 0 < ({} : Limits).reading := by decide
  intro limits format t s
  obtain ⟨hitems, -, htext⟩ := listSection_text_iff {} hpos format
  refine ⟨hpos, ht, by decide, hlist, hwhole, hitems _ t ht,
    (htext s (by decide) hlist (.inl hwhole)).mpr ⟨by decide +kernel, .inr ?_⟩⟩
  refine ⟨_, hlegible, ?_, by decide +kernel, by decide +kernel⟩
  rintro text ⟨⟩

/-- An object in JSON is shown in another notation. -/
theorem not_forall_listSection_text :
    ¬ ∀ (format : SectionFormat) (s : String), s ≠ "" →
      (∀ items, read? s ≠ some (.arr items)) →
        ∃ text, listSectionWithin {} format (.str s) = .ok text ∧ format.Wraps [s] text := by
  intro hall
  have hread : read? "\x7b\"question\": \"1+1?\"\x7d" =
      some (.obj [("question", .str "1+1?")]) := by rfl
  obtain ⟨text, hsection, hwraps⟩ := hall ⟨"<", ">", "(", ")"⟩ "\x7b\"question\": \"1+1?\"\x7d"
    (by decide) fun items hitems => by
      rw [hread] at hitems
      cases hitems
  obtain ⟨-, rfl⟩ := listSectionWithin_eq_ok.mp hsection
  rw [SectionFormat.wraps_iff] at hwraps
  exact absurd hwraps (by decide +kernel)

end ReAct.Prompt

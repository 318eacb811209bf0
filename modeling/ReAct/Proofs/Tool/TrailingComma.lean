import ReAct.Proofs.Json.Nesting
import ReAct.Proofs.Json.Path
import ReAct.Proofs.Tool.Entries

/-!
# A comma behind the last member

A JSON object of texts is read as it is.  A comma behind its last member takes it to the lenient
grammar, which drops the back-slash of every escape: quotes and back-slashes come out as they were,
but a line feed as the letter of its escape, and a control character as the letter and the digits
of its number (`read_trailing`).  So the comma makes no difference exactly if there is a member to
stand behind, and all names and texts are legible: every character stands for itself in a string
literal, or is a quote or back-slash (`read_trailing_iff`).

## Main Definitions

* `trailing`: the text of an object with a comma behind its last member
* `Legible`: the texts without characters that have an escape of another letter
-/

namespace ReAct.Tool.ActionInput

/-! ## Legible texts -/

/-- Whether a character is read leniently as it was written for: it is no control character and,
where only ASCII is written, not beyond it. -/
def isLegible (asciiOnly : Bool) (c : Char) : Bool :=
  0x20 ≤ c.toNat && !(asciiOnly && 0x7F ≤ c.toNat)

/-- A text without characters that have an escape of another letter. -/
def Legible (asciiOnly : Bool) (s : String) : Prop :=
  ∀ c ∈ s.toList, isLegible asciiOnly c = true

instance (asciiOnly : Bool) (s : String) : Decidable (Legible asciiOnly s) :=
  List.decidableBAll (fun c => isLegible asciiOnly c = true) s.toList

/-- A text does not vanish with its back-slashes. -/
theorem unescaped_ne_nil {s : List Char} (h : s ≠ []) : unescaped s ≠ [] := by
  unfold unescaped
  split
  · exact absurd rfl h
  · exact List.cons_ne_nil _ _
  · exact List.cons_ne_nil _ _

/-- So every character leaves something. -/
theorem altered_ne_nil (asciiOnly : Bool) (c : Char) : altered asciiOnly c ≠ [] := by
  refine unescaped_ne_nil fun h => ?_
  have hscan := Json.scan_escaped .allowed asciiOnly [] [] c
  rw [h] at hscan
  cases hscan

/-- What is written in one of two ways is legible if the way that is taken is. -/
theorem unescaped_ite {p : Prop} [Decidable p] {t t' u : List Char} {legible : Bool}
    (ht : p → (unescaped t = u ↔ legible = true))
    (ht' : ¬ p → (unescaped t' = u ↔ legible = true)) :
    unescaped (if p then t else t') = u ↔ legible = true :=
  iteInduction (motive := fun text => unescaped text = u ↔ legible = true) ht ht'

/-- A numbered escape is not read as one character. -/
theorem unescaped_unitEscape_ne (n : Nat) (rest : List Char) (c : Char) :
    unescaped (Json.unitEscape n ++ rest) ≠ [c] := by
  intro h
  have hlength := congrArg List.length h
  rw [unescaped_unitEscape, Json.hexDigits_four] at hlength
  simp at hlength

/-- What escapes by number leave is longer than a character. -/
theorem unescaped_unitEscapes_ne (c d : Char) : unescaped (Json.unitEscapes c) ≠ [d] := by
  unfold Json.unitEscapes
  split
  · rw [← List.append_nil (Json.unitEscape _)]
    exact unescaped_unitEscape_ne _ _ d
  · exact unescaped_unitEscape_ne _ _ d

/-- **The legible characters are those that come out as they were.** -/
theorem altered_eq_self_iff (asciiOnly : Bool) (c : Char) :
    altered asciiOnly c = [c] ↔ isLegible asciiOnly c = true := by
  have hnumber {n : Nat} (h : c.toNat = n) : c = Char.ofNat n := by rw [← h, Char.ofNat_toNat]
  -- One branch for every kind of escape, in the order the writer asks for them.
  refine unescaped_ite (fun hc => ?_) fun _ => ?_
  · subst hc
    cases asciiOnly <;> decide
  refine unescaped_ite (fun hc => ?_) fun hslash => ?_
  · subst hc
    cases asciiOnly <;> decide
  refine unescaped_ite (fun hc => ?_) fun _ => ?_
  · subst hc
    cases asciiOnly <;> decide
  refine unescaped_ite (fun hc => ?_) fun _ => ?_
  · subst hc
    cases asciiOnly <;> decide
  refine unescaped_ite (fun hc => ?_) fun _ => ?_
  · subst hc
    cases asciiOnly <;> decide
  refine unescaped_ite (fun hc => ?_) fun _ => ?_
  · rw [hnumber hc]
    cases asciiOnly <;> decide
  refine unescaped_ite (fun hc => ?_) fun _ => ?_
  · rw [hnumber hc]
    cases asciiOnly <;> decide
  refine unescaped_ite (fun hcontrol => iff_of_false ?_ ?_) fun hcontrol => ?_
  · rw [← List.append_nil (Json.unitEscape _)]
    exact unescaped_unitEscape_ne _ _ c
  · have hlow : ¬ 0x20 ≤ c.toNat := Nat.not_le.mpr hcontrol
    simp [isLegible, hlow]
  refine unescaped_ite (fun hbeyond => iff_of_false ?_ ?_) fun hbeyond => ?_
  · exact unescaped_unitEscapes_ne c c
  · simp only [isLegible, hbeyond]
    simp
  refine iff_of_true (unescaped_char hslash) ?_
  simp only [isLegible, hbeyond]
  simpa using hcontrol

/-- Since every character leaves something, a text does not get shorter. -/
theorem length_flatMap_altered_le (asciiOnly : Bool) (s : List Char) :
    s.length ≤ (s.flatMap (altered asciiOnly)).length := by
  induction s with
  | nil => exact Nat.le_refl 0
  | cons c s ih =>
      have hpos := List.length_pos_of_ne_nil (altered_ne_nil asciiOnly c)
      rw [List.flatMap_cons, List.length_append, List.length_cons, Nat.add_comm]
      exact Nat.add_le_add hpos ih

/-- A text comes out as it was only if each of its characters does. -/
theorem flatMap_altered_eq_self_iff (asciiOnly : Bool) (s : List Char) :
    s.flatMap (altered asciiOnly) = s ↔ ∀ c ∈ s, isLegible asciiOnly c = true := by
  induction s with
  | nil => simp
  | cons c s ih =>
      rw [List.flatMap_cons, List.forall_mem_cons, ← ih, ← altered_eq_self_iff]
      constructor
      · intro h
        have hlength := congrArg List.length h
        have hpos := List.length_pos_of_ne_nil (altered_ne_nil asciiOnly c)
        have hle := length_flatMap_altered_le asciiOnly s
        rw [List.length_append, List.length_cons] at hlength
        have hone : (altered asciiOnly c).length = [c].length := by
          rw [List.length_singleton]
          omega
        exact List.append_inj h hone
      · rintro ⟨hc, hs⟩
        rw [hc, hs]
        rfl

/-! ## Objects of texts -/

/-- The text of an object of texts with a comma behind its last member. -/
def trailing (layout : Json.Layout) (o : Fields String) : String :=
  String.ofList
    ('\x7b' :: (Json.memberChars layout (o.mapValues .str) ++ [',']) ++ ['\x7d'])

/-- What a text of an object comes out as behind the comma. -/
def alteredText (asciiOnly : Bool) (s : String) : String :=
  String.ofList (s.toList.flatMap (altered asciiOnly))

/-- What an entry of an object comes out as. -/
def alteredEntry (asciiOnly : Bool) (entry : String × String) : String × String :=
  (alteredText asciiOnly entry.1, alteredText asciiOnly entry.2)

variable {layout : Json.Layout}

/-- A text comes out as it was exactly if every character of it does: none gets shorter, so none can
make up for another. -/
theorem alteredText_eq_self_iff (asciiOnly : Bool) (s : String) :
    alteredText asciiOnly s = s ↔ Legible asciiOnly s := by
  rw [Legible, ← flatMap_altered_eq_self_iff, alteredText]
  constructor
  · intro h
    have hlist := congrArg String.toList h
    rwa [String.toList_ofList] at hlist
  · intro h
    rw [h, String.ofList_toList]

/-- A member as it is written. -/
def memberText (layout : Json.Layout) (entry : String × String) : List Char :=
  Json.memberChars layout [(entry.1, .str entry.2)]

theorem memberChars_eq (layout : Json.Layout) (o : Fields String) :
    Json.memberChars layout (o.mapValues .str) =
      layout.betweenItems.intercalate (o.map (memberText layout)) := by
  rw [Json.memberChars_eq_intercalate, Fields.mapValues, List.map_map]
  rfl

/-- The literal of a text is read as the altered text. -/
theorem isQuoted_alteredText (asciiOnly : Bool) (s : String) :
    IsQuoted (Json.literal asciiOnly s.toList) (alteredText asciiOnly s).toList := by
  rw [alteredText, String.toList_ofList]
  exact isQuoted_literal asciiOnly s.toList

/-- A member is an entry, read as the altered one. -/
theorem isEntry_memberText (hlayout : layout.Plain) (entry : String × String) :
    IsEntry (memberText layout entry) (alteredEntry layout.asciiOnly entry) := by
  obtain ⟨m, n, -, hafter⟩ := hlayout
  show IsEntry (Json.literal _ entry.1.toList ++ layout.afterName ++
    Json.literal _ entry.2.toList) _
  rw [hafter]
  exact isEntry_of_isQuoted (isQuoted_alteredText layout.asciiOnly entry.1)
    (isQuoted_alteredText layout.asciiOnly entry.2).isValue n

/-- The text of an object is read as the object. -/
theorem read_print (hlayout : layout.Plain) {o : Fields String} (hnames : o.names.Nodup) :
    read ((Json.ofTextFields o).print layout) = .ok o := by
  have hvalue := Json.ofChars?_chars .refused hlayout (Json.distinct_ofTextFields hnames)
  have htrim : Text.trim ((Json.ofTextFields o).print layout).toList =
      Json.chars layout (Json.ofTextFields o) := by
    rw [Json.print, String.toList_ofList]
    exact trim_braced (Json.memberChars layout (o.mapValues .str))
  have hback : Fields.mapValues delivered (o.mapValues .str) = o :=
    List.map_map.trans (List.map_id o)
  rw [read_of_object htrim hvalue, hback]

/-- No JSON object ends with a comma. -/
theorem ofChars?_trailing (controls : Json.Controls) (hlayout : layout.Plain) {o : Fields String}
    (hne : o ≠ []) (hnames : o.names.Nodup) :
    Json.ofChars? controls
      ('\x7b' :: (Json.memberChars layout (o.mapValues .str) ++ [',']) ++ ['\x7d']) = none := by
  have hmembers : ∀ entry ∈ o.mapValues .str, Json.Reads controls layout entry.2 := by
    intro entry hentry
    obtain ⟨text, -, rfl⟩ := List.mem_map.mp hentry
    exact Json.reads_str controls layout text.2
  have hdistinct : (Fields.names ([] ++ o.mapValues Json.str)).Nodup := by
    rw [List.nil_append, Fields.names_mapValues]
    exact hnames
  have hopen := (Json.Scan.Stands.between Json.Scan.between_start).punctuation controls
    (rfl : Json.punctuation? '\x7b' = some .openBrace)
  have hread := Json.scan_members hlayout (fun h => hne (List.map_eq_nil_iff.mp h)) hmembers
    hdistinct hopen
  -- Behind the comma a member's name is due, and the brace is none.
  have hcomma := hread.punctuation controls (rfl : Json.punctuation? ',' = some .comma)
  have hclose := (Json.Scan.Stands.between hcomma).punctuation controls
    (rfl : Json.punctuation? '\x7d' = some .closeBrace)
  rw [Json.ofChars?_eq, List.cons_append, List.foldl_cons, List.append_assoc, List.foldl_append]
  exact Json.value?_of_dead (.inr hclose.2)

/-- A comma on its own is no member. -/
theorem read_comma : read (String.ofList ['\x7b', ',', '\x7d']) =
    .error (.missingColon [',', '\x7d']) := by
  have hnone : Json.ofChars? .refused ('\x7b' :: [','] ++ ['\x7d']) = none := rfl
  exact (read_braced hnone).trans rfl

/-- **What the members of an object come out as behind the comma.** -/
theorem read_trailing (hlayout : layout.Plain) {o : Fields String} (hne : o ≠ [])
    (hnames : o.names.Nodup) :
    read (trailing layout o) = .ok (Fields.ofEntries (o.map (alteredEntry layout.asciiOnly))) := by
  have hnone := ofChars?_trailing .refused hlayout hne hnames
  have hentries := isEntry_memberText hlayout
  obtain ⟨m, n, hbetween, -⟩ := hlayout
  have hread := lenient_intercalate hentries m (.inl rfl)
    (rfl : behindComma [',', '\x7d'] = ['\x7d']) hne
  rw [trailing, read_braced hnone, List.append_assoc, memberChars_eq, hbetween]
  exact hread

/-- Members come out as they were exactly if all names and texts do. -/
theorem map_alteredEntry_eq_self_iff (asciiOnly : Bool) (o : Fields String) :
    o.map (alteredEntry asciiOnly) = o ↔
      ∀ entry ∈ o, Legible asciiOnly entry.1 ∧ Legible asciiOnly entry.2 := by
  induction o with
  | nil => simp
  | cons entry rest ih =>
      obtain ⟨name, text⟩ := entry
      rw [List.map_cons, List.cons.injEq, ih, List.forall_mem_cons, alteredEntry, Prod.mk.injEq,
        alteredText_eq_self_iff, alteredText_eq_self_iff]

/-- **A comma behind the last member makes no difference exactly if** there is a member, and all
names and texts are legible. -/
theorem read_trailing_iff (hlayout : layout.Plain) {o : Fields String} (hnames : o.names.Nodup) :
    read ((Json.ofTextFields o).print layout) = .ok o ∧
      (read (trailing layout o) = .ok o ↔
        o ≠ [] ∧ ∀ entry ∈ o,
          Legible layout.asciiOnly entry.1 ∧ Legible layout.asciiOnly entry.2) := by
  refine ⟨read_print hlayout hnames, ?_⟩
  by_cases hne : o = []
  · subst hne
    refine iff_of_false ?_ fun h => h.1 rfl
    show read (String.ofList ['\x7b', ',', '\x7d']) ≠ _
    rw [read_comma]
    exact fun h => by cases h
  · have hlength : (o.map (alteredEntry layout.asciiOnly)).length = o.length := List.length_map _
    rw [read_trailing hlayout hne hnames, Except.ok.injEq,
      Fields.ofEntries_eq_iff hnames hlength, map_alteredEntry_eq_self_iff]
    exact (and_iff_right hne).symm

/-- Two legible members, one of them with every mark of the notation in its text. -/
theorem read_trailing_marks :
    read "\x7b\"a\": \"say \\\"\\\\, \x7d\", \"\": \"\",\x7d" =
      .ok [("a", "say \"\\, \x7d"), ("", "")] := by
  have htext : trailing Json.spacedAscii [("a", "say \"\\, \x7d"), ("", "")] =
      "\x7b\"a\": \"say \\\"\\\\, \x7d\", \"\": \"\",\x7d" := by
    decide +kernel
  have hlegible := (read_trailing_iff Json.spacedAscii_plain
    (o := [("a", "say \"\\, \x7d"), ("", "")]) (by decide +kernel)).2
  rw [← htext]
  exact hlegible.mpr ⟨List.cons_ne_nil _ _, by decide +kernel⟩

/-- A line feed in a text comes out as a letter. -/
theorem not_forall_read_trailing :
    ¬ ∀ o : Fields String, o ≠ [] → o.names.Nodup →
      read ((Json.ofTextFields o).print Json.spacedAscii) = .ok o ∧
        read (trailing Json.spacedAscii o) = .ok o := by
  intro hall
  have hsame := (hall [("a", "x\ny")] (List.cons_ne_nil _ _) (by decide +kernel)).2
  have hread : read (trailing Json.spacedAscii [("a", "x\ny")]) = .ok [("a", "xny")] := by
    decide +kernel
  rw [hread] at hsame
  exact absurd hsame (by decide +kernel)

end ReAct.Tool.ActionInput

import Mathlib.Data.List.Induction
import Mathlib.Data.List.Nodup
import ReAct.Fields

/-!
# Names of a table

Writing a value keeps the names of a table distinct: it leaves them alone if the name is present
and adds it at the end if it is new (`names_put_of_mem`, `put_of_notMem`).  A table that is written
entry by entry therefore has every name once, and nothing in it that was not written.
-/

namespace ReAct.Fields

variable {α : Type}

theorem has_iff_mem_names {fs : Fields α} {name : String} :
    fs.has name = true ↔ name ∈ fs.names := by
  unfold has
  induction fs with
  | nil => simp [names]
  | cons entry rest ih =>
      obtain ⟨k, v⟩ := entry
      unfold names at ih ⊢
      by_cases hk : k = name
      · simp [get?, hk]
      · simp [get?, hk, Ne.symm hk, ih]

/-- A new field comes last. -/
theorem put_of_notMem {fs : Fields α} {name : String} (value : α) (h : name ∉ fs.names) :
    put fs name value = fs ++ [(name, value)] := by
  induction fs with
  | nil => rfl
  | cons entry rest ih =>
      obtain ⟨k, v⟩ := entry
      rw [names, List.map_cons, List.mem_cons, not_or] at h
      obtain ⟨hhead, htail⟩ := h
      rw [put, if_neg (Ne.symm hhead), ih htail]
      rfl

/-- A value that is there is written where it is, whatever comes behind. -/
theorem put_append_of_mem {fs : Fields α} {name : String} (value : α) (h : name ∈ fs.names)
    (more : Fields α) : put (fs ++ more) name value = put fs name value ++ more := by
  induction fs with
  | nil => cases h
  | cons entry rest ih =>
      obtain ⟨k, v⟩ := entry
      rw [List.cons_append, put, put]
      split
      · rfl
      · rename_i hk
        rw [names, List.map_cons, List.mem_cons] at h
        have htail : name ∈ names rest := h.resolve_left (Ne.symm hk)
        rw [ih htail, List.cons_append]

/-- The first field of a name counts. -/
theorem get?_append_of_mem {fs : Fields α} {name : String} (h : name ∈ fs.names)
    (more : Fields α) : get? (fs ++ more) name = get? fs name := by
  induction fs with
  | nil => cases h
  | cons entry rest ih =>
      obtain ⟨k, v⟩ := entry
      rw [List.cons_append, get?, get?]
      split
      · rfl
      · rename_i hk
        rw [names, List.map_cons, List.mem_cons] at h
        exact ih (h.resolve_left (Ne.symm hk))

/-- What is found is there. -/
theorem mem_of_get? {fs : Fields α} {name : String} {value : α} (h : get? fs name = some value) :
    (name, value) ∈ fs := by
  induction fs with
  | nil => cases h
  | cons entry rest ih =>
      obtain ⟨k, v⟩ := entry
      rw [get?] at h
      split at h
      · rename_i hk
        cases h
        rw [hk]
        exact List.mem_cons_self
      · exact List.mem_cons_of_mem _ (ih h)

theorem mem_names_of_get? {fs : Fields α} {name : String} {value : α}
    (h : get? fs name = some value) : name ∈ fs.names :=
  List.mem_map_of_mem (mem_of_get? h)

/-- What is not there is not found. -/
theorem get?_of_notMem {fs : Fields α} {name : String} (h : name ∉ fs.names) :
    get? fs name = none :=
  Option.eq_none_iff_forall_ne_some.mpr fun _ hvalue => h (mem_names_of_get? hvalue)

/-- What is there is found. -/
theorem exists_get?_of_mem_names {fs : Fields α} {name : String} (h : name ∈ fs.names) :
    ∃ value, get? fs name = some value :=
  Option.isSome_iff_exists.mp (has_iff_mem_names.mpr h)

/-- The names stay as they are where values are mapped. -/
theorem names_mapValues {β : Type} (f : α → β) (fs : Fields α) :
    names (mapValues f fs) = names fs :=
  List.map_map

/-- A mapped value is found where the value was. -/
theorem get?_mapValues {β : Type} (f : α → β) (fs : Fields α) (name : String) :
    get? (mapValues f fs) name = (get? fs name).map f := by
  induction fs with
  | nil => rfl
  | cons entry rest ih =>
      obtain ⟨k, v⟩ := entry
      have hcons : mapValues f ((k, v) :: rest) = (k, f v) :: mapValues f rest := rfl
      rw [hcons, get?, get?]
      split
      · rfl
      · exact ih

/-- A value may be mapped before it is put or afterwards. -/
theorem mapValues_put {β : Type} (f : α → β) (fs : Fields α) (name : String) (value : α) :
    mapValues f (put fs name value) = put (mapValues f fs) name (f value) := by
  induction fs with
  | nil => rfl
  | cons entry rest ih =>
      obtain ⟨k, v⟩ := entry
      have hcons (v : α) (rest : Fields α) :
          mapValues f ((k, v) :: rest) = (k, f v) :: mapValues f rest := rfl
      rw [put, hcons, put]
      split
      · rfl
      · rw [hcons, ih]

/-- Of entries that may be missing, those that are there are found under their names. -/
theorem get?_filterMap (entries : Fields (Option α)) (name : String)
    (hnames : entries.names.Nodup) :
    get? (entries.filterMap fun entry => entry.2.map fun value => (entry.1, value)) name =
      (get? entries name).join := by
  induction entries with
  | nil => rfl
  | cons entry rest ih =>
      obtain ⟨k, found⟩ := entry
      rw [names, List.map_cons, List.nodup_cons] at hnames
      rw [get?]
      cases found with
      | some value =>
          rw [List.filterMap_cons_some (by rfl), get?]
          split
          · rfl
          · exact ih hnames.2
      | none =>
          rw [List.filterMap_cons_none (by rfl), ih hnames.2]
          split
          · rename_i hname
            rw [← hname, get?_of_notMem hnames.1]
            rfl
          · rfl

/-- A new value under an old name leaves the names as they were. -/
theorem names_put_of_mem {fs : Fields α} {name : String} (value : α) (h : name ∈ fs.names) :
    (put fs name value).names = fs.names := by
  induction fs with
  | nil => cases h
  | cons entry rest ih =>
      obtain ⟨k, v⟩ := entry
      rw [put]
      split
      · rfl
      · rename_i hk
        rw [names, List.map_cons, List.mem_cons] at h
        have htail : name ∈ names rest := h.resolve_left (Ne.symm hk)
        exact congrArg (k :: ·) (ih htail)

/-- The value that was written last is the one that counts. -/
theorem put_put (fs : Fields α) (name : String) (first second : α) :
    put (put fs name first) name second = put fs name second := by
  induction fs with
  | nil => simp [put]
  | cons entry rest ih =>
      obtain ⟨k, v⟩ := entry
      by_cases hk : k = name
      · simp [put, hk]
      · rw [put, if_neg hk, put, if_neg hk, put, if_neg hk, ih]

/-- Writing the value that is there changes nothing. -/
theorem put_of_get? {fs : Fields α} {name : String} {value : α}
    (h : fs.get? name = some value) : put fs name value = fs := by
  induction fs with
  | nil => cases h
  | cons entry rest ih =>
      obtain ⟨k, v⟩ := entry
      rw [get?] at h
      split at h
      · rename_i hk
        cases h
        rw [put, if_pos hk]
      · rename_i hk
        rw [put, if_neg hk, ih h]

/-- A value that is new is taken back by removing its name. -/
theorem erase_put_of_notMem {fs : Fields α} {name : String} (value : α) (h : name ∉ fs.names) :
    erase (put fs name value) name = fs := by
  induction fs with
  | nil => simp [put, erase]
  | cons entry rest ih =>
      obtain ⟨k, v⟩ := entry
      rw [names, List.map_cons, List.mem_cons, not_or] at h
      obtain ⟨hhead, htail⟩ := h
      rw [put, if_neg (Ne.symm hhead), erase, if_neg (Ne.symm hhead), ih htail]

/-- What is under a name after a value was written. -/
theorem get?_put_eq_some {fs : Fields α} {name other : String} {value found : α} :
    get? (put fs name value) other = some found ↔
      other = name ∧ value = found ∨ other ≠ name ∧ get? fs other = some found := by
  by_cases h : other = name
  · subst h
    rw [get?_put_self]
    simp
  · rw [get?_put_of_ne fs value h]
    simp [h]

/-- Names stay distinct. -/
theorem nodup_names_put {fs : Fields α} (name : String) (value : α) (h : fs.names.Nodup) :
    (put fs name value).names.Nodup := by
  by_cases hmem : name ∈ fs.names
  · rw [names_put_of_mem value hmem]
    exact h
  · rw [put_of_notMem value hmem, names, List.map_append, List.nodup_append]
    refine ⟨h, by simp, ?_⟩
    rintro other hother _ hname rfl
    rw [List.map_singleton, List.mem_singleton] at hname
    subst hname
    exact hmem hother

/-- What is in a table after a value was written is that value or was there before. -/
theorem mem_put {fs : Fields α} {name : String} {value : α} {entry : String × α}
    (h : entry ∈ put fs name value) : entry = (name, value) ∨ entry ∈ fs := by
  induction fs with
  | nil => exact .inl (List.mem_singleton.mp h)
  | cons first rest ih =>
      obtain ⟨k, v⟩ := first
      rw [put] at h
      split at h
      · rename_i hk
        rcases List.mem_cons.mp h with rfl | hmem
        · exact .inl (by rw [hk])
        · exact .inr (List.mem_cons_of_mem _ hmem)
      · rcases List.mem_cons.mp h with rfl | hmem
        · exact .inr List.mem_cons_self
        · exact (ih hmem).imp_right (List.mem_cons_of_mem _)

/-- The names behind a put are those before it and the name itself. -/
theorem mem_names_put {fs : Fields α} {name other : String} {value : α} :
    other ∈ (put fs name value).names ↔ other = name ∨ other ∈ fs.names := by
  by_cases hmem : name ∈ fs.names
  · rw [names_put_of_mem value hmem]
    constructor
    · exact .inr
    · rintro (rfl | h)
      · exact hmem
      · exact h
  · rw [put_of_notMem value hmem]
    simp [names, or_comm]

/-- Of two tables, the one that is written into the other comes first. -/
theorem get?_merge {base changes : Fields α} (h : changes.names.Nodup) (name : String) :
    get? (merge base changes) name = (get? changes name).or (get? base name) := by
  induction changes generalizing base with
  | nil => rfl
  | cons entry rest ih =>
      obtain ⟨k, v⟩ := entry
      rw [names, List.map_cons, List.nodup_cons] at h
      obtain ⟨hk, hrest⟩ := h
      have hmerge : merge base ((k, v) :: rest) = merge (put base k v) rest := rfl
      rw [hmerge, ih hrest, get?]
      split
      · rename_i hname
        rw [← hname, get?_of_notMem hk, get?_put_self]
        rfl
      · rename_i hname
        rw [get?_put_of_ne base v (Ne.symm hname)]

/-- An erased field is not found. -/
theorem get?_erase_self (fs : Fields α) (name : String) : get? (erase fs name) name = none := by
  induction fs with
  | nil => rfl
  | cons entry rest ih =>
      obtain ⟨k, v⟩ := entry
      rw [erase]
      split
      · exact ih
      · rename_i hk
        rw [get?, if_neg hk, ih]

/-- All other fields are found as before. -/
theorem get?_erase_of_ne (fs : Fields α) {name other : String} (h : other ≠ name) :
    get? (erase fs name) other = get? fs other := by
  induction fs with
  | nil => rfl
  | cons entry rest ih =>
      obtain ⟨k, v⟩ := entry
      rw [erase, get?]
      split
      · rename_i hk
        rw [if_neg (hk ▸ Ne.symm h), ih]
      · rw [get?, ih]

/-- Erasing keeps the order. -/
theorem erase_sublist (fs : Fields α) (name : String) : List.Sublist (erase fs name) fs := by
  induction fs with
  | nil => exact List.Sublist.refl []
  | cons entry rest ih =>
      obtain ⟨k, v⟩ := entry
      rw [erase]
      split
      · exact ih.cons (k, v)
      · exact ih.cons_cons (k, v)

theorem nodup_names_erase {fs : Fields α} (h : fs.names.Nodup) (name : String) :
    (erase fs name).names.Nodup :=
  h.sublist ((erase_sublist fs name).map Prod.fst)

/-! ## Tables written entry by entry -/

/-- The last entry is put last. -/
theorem ofEntries_concat (entries : List (String × α)) (entry : String × α) :
    ofEntries (entries ++ [entry]) = put (ofEntries entries) entry.1 entry.2 :=
  List.foldl_append

/-- Entries with distinct names are the table that is written with them. -/
theorem ofEntries_of_nodup {entries : List (String × α)} (h : (names entries).Nodup) :
    ofEntries entries = entries := by
  induction entries using List.reverseRecOn with
  | nil => rfl
  | append_singleton entries entry ih =>
      rw [names, List.map_append, List.nodup_append] at h
      obtain ⟨hentries, -, hne⟩ := h
      have hnew : entry.1 ∉ names entries := fun hmem => hne _ hmem _ List.mem_cons_self rfl
      rw [ofEntries_concat, ih hentries, put_of_notMem _ hnew]

/-- A new value under an old name adds no field. -/
theorem length_put_of_mem {fs : Fields α} {name : String} (value : α) (h : name ∈ fs.names) :
    (put fs name value).length = fs.length := by
  have hlength := congrArg List.length (names_put_of_mem value h)
  rwa [names, names, List.length_map, List.length_map] at hlength

/-- There are at most as many fields as entries. -/
theorem length_ofEntries_le (entries : List (String × α)) :
    (ofEntries entries).length ≤ entries.length := by
  induction entries using List.reverseRecOn with
  | nil => exact Nat.le_refl 0
  | append_singleton entries entry ih =>
      rw [ofEntries_concat, List.length_append]
      by_cases hmem : entry.1 ∈ (ofEntries entries).names
      · rw [length_put_of_mem _ hmem]
        exact Nat.le_succ_of_le ih
      · rw [put_of_notMem _ hmem, List.length_append]
        exact Nat.succ_le_succ ih

/-- Entries that lose nothing when they are written have distinct names. -/
theorem ofEntries_of_length {entries : List (String × α)}
    (h : (ofEntries entries).length = entries.length) : ofEntries entries = entries := by
  induction entries using List.reverseRecOn with
  | nil => rfl
  | append_singleton entries entry ih =>
      rw [ofEntries_concat] at h ⊢
      by_cases hmem : entry.1 ∈ (ofEntries entries).names
      · have hle := length_ofEntries_le entries
        rw [length_put_of_mem _ hmem, List.length_append] at h
        exact absurd h (Nat.ne_of_lt (Nat.lt_succ_of_le hle))
      · rw [put_of_notMem _ hmem] at h ⊢
        rw [List.length_append, List.length_append] at h
        rw [ih (Nat.add_right_cancel h)]

/-- As many entries as a table has lead to that table only if they are its entries. -/
theorem ofEntries_eq_iff {entries : List (String × α)} {fs : Fields α} (hnames : fs.names.Nodup)
    (hlength : entries.length = fs.length) : ofEntries entries = fs ↔ entries = fs := by
  constructor
  · rintro rfl
    exact (ofEntries_of_length hlength.symm).symm
  · rintro rfl
    exact ofEntries_of_nodup hnames

end ReAct.Fields

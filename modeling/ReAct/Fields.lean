/-!
# Fields

An ordered table from names to values: the members of a JSON object, the parameters of a tool, the
interactions of a store. A new name goes to the end; writing a present name keeps its place.
-/

namespace ReAct

/-- An ordered table from names to values. -/
abbrev Fields (α : Type) : Type := List (String × α)

namespace Fields

variable {α β : Type}

/-- The value under a name. -/
def get? : Fields α → String → Option α
  | [], _ => none
  | (k, v) :: rest, name => if k = name then some v else get? rest name

/-- Writes a value: in place when the name is present, at the end when it is new. -/
def put : Fields α → String → α → Fields α
  | [], name, value => [(name, value)]
  | (k, v) :: rest, name, value =>
    if k = name then (k, value) :: rest else (k, v) :: put rest name value

/-- Removes a name. -/
def erase : Fields α → String → Fields α
  | [], _ => []
  | (k, v) :: rest, name => if k = name then erase rest name else (k, v) :: erase rest name

/-- Whether a name is present. -/
def has (fs : Fields α) (name : String) : Bool :=
  (fs.get? name).isSome

/-- Writes every entry of `changes` into `base`, in order. -/
def merge (base changes : Fields α) : Fields α :=
  changes.foldl (fun acc entry => acc.put entry.1 entry.2) base

/-- The table with the entries of a list written in order. -/
def ofEntries (entries : List (String × α)) : Fields α :=
  merge [] entries

/-- The names, in order. -/
def names (fs : Fields α) : List String :=
  fs.map Prod.fst

/-- The values, in order. -/
def values (fs : Fields α) : List α :=
  fs.map Prod.snd

/-- Applies a function to every value. -/
def mapValues (f : α → β) (fs : Fields α) : Fields β :=
  fs.map fun entry => (entry.1, f entry.2)

@[simp] theorem get?_nil (name : String) : get? ([] : Fields α) name = none := rfl

theorem get?_put_self (fs : Fields α) (name : String) (value : α) :
    get? (put fs name value) name = some value := by
  induction fs with
  | nil => simp [put, get?]
  | cons entry rest ih =>
    obtain ⟨k, v⟩ := entry
    by_cases h : k = name <;> simp [put, get?, h, ih]

theorem get?_put_of_ne (fs : Fields α) {name other : String} (value : α) (h : other ≠ name) :
    get? (put fs name value) other = get? fs other := by
  induction fs with
  | nil => simp [put, get?, Ne.symm h]
  | cons entry rest ih =>
    obtain ⟨k, v⟩ := entry
    by_cases hk : k = name
    · subst hk
      simp [put, get?, Ne.symm h]
    · by_cases ho : k = other
      · subst ho
        simp [put, get?, hk]
      · simp [put, get?, hk, ho, ih]

end Fields

end ReAct

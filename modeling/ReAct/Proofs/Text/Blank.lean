import Mathlib.Data.List.DropRight
import ReAct.Text.Blank

/-!
# Trimming

A trimmed text is the start of what is left when the leading blanks are removed (`isPrefix_trim`).
Trimming takes nothing from a text that neither begins nor ends with a blank (`trim_eq_self`).
-/

namespace ReAct.Text

/-- A trimmed text is the start of what is left when its leading blanks are removed. -/
theorem isPrefix_trim (s : List Char) : trim s <+: trimStart s :=
  List.rdropWhile_prefix isBlank (trimStart s)

theorem length_trim_le (s : List Char) : (trim s).length ≤ s.length :=
  (isPrefix_trim s).length_le.trans (List.dropWhile_suffix isBlank).length_le

/-- A text begins as its trimmed text does. -/
theorem head?_trimStart_of_trim {s inside : List Char} {c : Char} (h : trim s = c :: inside) :
    (trimStart s).head? = some c := by
  obtain ⟨more, hmore⟩ := isPrefix_trim s
  rw [← hmore, h]
  rfl

theorem trimStart_eq_self {s : List Char} (h : ∀ c, s.head? = some c → isBlank c = false) :
    trimStart s = s := by
  cases s with
  | nil => rfl
  | cons c s =>
      have hc : ¬ isBlank c = true := by
        rw [h c rfl]
        decide
      exact List.dropWhile_cons_of_neg hc

theorem trimEnd_eq_self {s : List Char} (h : ∀ c, s.getLast? = some c → isBlank c = false) :
    trimEnd s = s := by
  have hreverse : trimStart s.reverse = s.reverse :=
    trimStart_eq_self fun c hc => h c (by rwa [List.head?_reverse] at hc)
  rw [trimEnd, ← trimStart, hreverse, List.reverse_reverse]

/-- **A text without outer blanks is left as it is.** -/
theorem trim_eq_self {s : List Char} (hstart : ∀ c, s.head? = some c → isBlank c = false)
    (hend : ∀ c, s.getLast? = some c → isBlank c = false) : trim s = s := by
  rw [trim, trimStart_eq_self hstart, trimEnd_eq_self hend]

end ReAct.Text

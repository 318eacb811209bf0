import Mathlib.Data.List.Forall2
import ReAct.Http.Catalog

/-!
# What a catalogue of tools delivers

A catalogue may answer with anything, and every answer comes to one of two things.  Either it brings
a list of tools, each of which is a valid specification, and then fetching delivers the
specifications of the whole list, in its order; or fetching fails, and then it fails to discover
(`fetch_eq_ok_iff`, `kind_of_fetch`).

## Main Definitions

* `Lists`: the list of tools that a value holds
* `Brings`: an outcome of an exchange that is of use
* `Stocks`: the specifications at an address
-/

namespace ReAct.Http.Catalog

open Record (Checked)

/-- The list of tools in a value: the value itself, or the member of an object that holds it. -/
inductive Lists : Json → List Json → Prop
  | bare (items : List Json) : Lists (.arr items) items
  | member {members : Fields Json} {items : List Json}
      (h : Fields.get? members "tools" = some (.arr items)) : Lists (.obj members) items

/-- An outcome that brings specifications: a response of success, whose body is JSON and holds a
list of tools, each of which is valid. -/
inductive Brings : Outcome → List Tool.Spec → Prop
  | response {status : Nat} {body : String} {v : Json} {items : List Json}
      {found : List Tool.Spec} (hstatus : isSuccess status = true)
      (hbody : bodyValue? body = some v) (hlists : Lists v items)
      (hvalid : List.Forall₂ (fun item spec => Tool.Spec.check item = .valid spec) items found) :
      Brings (.response status body) found

/-- The specifications of a catalogue: none where there is no address, else what its answer
brings. -/
inductive Stocks (exchange : Request → Outcome) (agent : Agent)
    (credentials : Option (Fields String)) : Option String → List Tool.Spec → Prop
  | nowhere : Stocks exchange agent credentials none []
  | blank : Stocks exchange agent credentials (some "") []
  | address {url : String} {found : List Tool.Spec} (hurl : url ≠ "")
      (hbrings : Brings (exchange (request url agent credentials)) found) :
      Stocks exchange agent credentials (some url) found

theorem items?_eq_some_iff {v : Json} {items : List Json} :
    items? v = some items ↔ Lists v items := by
  constructor
  · intro h
    unfold items? at h
    split at h
    · cases h
      exact .bare items
    · split at h
      · rename_i hmember
        cases h
        exact .member hmember
      · cases h
    · cases h
  · rintro (_ | hmember)
    · rfl
    · simp only [items?, hmember]

/-- **All or nothing.**  A list of tools is read if every one of its items is valid, and then item
by item. -/
theorem specs_eq_valid_iff {items : List Json} {found : List Tool.Spec} :
    specs items = .valid found ↔
      List.Forall₂ (fun item spec => Tool.Spec.check item = .valid spec) items found := by
  induction items generalizing found with
  | nil =>
      rw [List.forall₂_nil_left_iff]
      constructor
      · rintro ⟨⟩
        rfl
      · rintro rfl
        rfl
  | cons item rest ih =>
      rw [specs]
      constructor
      · intro h
        split at h
        · cases h
        · rename_i spec hitem
          cases hrest : specs rest with
          | faulty issues =>
              rw [hrest] at h
              cases h
          | valid others =>
              rw [hrest] at h
              cases h
              exact .cons hitem (ih.mp hrest)
      · rintro (_ | ⟨hitem, hrest⟩)
        simp only [hitem, ih.mpr hrest, Checked.map]

/-- An outcome has a value if it is a response of success whose body is JSON. -/
theorem value_eq_ok_iff {outcome : Outcome} {v : Json} :
    outcome.value = .ok v ↔
      ∃ status body, outcome = .response status body ∧ isSuccess status = true ∧
        bodyValue? body = some v := by
  cases outcome with
  | broken text => simp [Outcome.value]
  | response status body =>
      unfold Outcome.value
      by_cases hstatus : isSuccess status = true
      · cases hbody : bodyValue? body <;> simp [hstatus, hbody]
      · simp [hstatus]

theorem brings_iff {outcome : Outcome} {found : List Tool.Spec} :
    Brings outcome found ↔
      ∃ v items, outcome.value = .ok v ∧ items? v = some items ∧ specs items = .valid found := by
  simp only [value_eq_ok_iff, items?_eq_some_iff, specs_eq_valid_iff]
  constructor
  · rintro ⟨hstatus, hbody, hlists, hvalid⟩
    exact ⟨_, _, ⟨_, _, rfl, hstatus, hbody⟩, hlists, hvalid⟩
  · rintro ⟨v, items, ⟨status, body, rfl, hstatus, hbody⟩, hlists, hvalid⟩
    exact .response hstatus hbody hlists hvalid

theorem read_eq_ok_iff {url : String} {outcome : Outcome} {found : List Tool.Spec} :
    read url outcome = .ok found ↔ Brings outcome found := by
  rw [brings_iff]
  unfold read
  cases hvalue : outcome.value with
  | error fault => simp
  | ok v =>
      cases hitems : items? v with
      | none => simp [hitems]
      | some items =>
          cases hspecs : specs items <;> simp [hitems, hspecs]

/-- Whatever is wrong with an outcome is a failure of discovery. -/
theorem kind_of_read {url : String} {outcome : Outcome} {failure : Failure}
    (h : read url outcome = .error failure) : failure.kind = .discovery := by
  unfold read at h
  split at h
  · cases h
    rfl
  · split at h
    · cases h
      rfl
    · split at h
      · cases h
      · cases h
        rfl

variable {exchange : Request → Outcome} {agent : Agent} {credentials : Option (Fields String)}

/-- Fetching delivers the specifications of the whole answer, or nothing. -/
theorem fetch_eq_ok_iff {url : Option String} {found : List Tool.Spec} :
    fetch (m := Id) exchange url agent credentials = .ok found ↔
      Stocks exchange agent credentials url found := by
  cases url with
  | none =>
      constructor
      · rintro ⟨⟩
        exact .nowhere
      · rintro ⟨⟩
        rfl
  | some url =>
      by_cases hurl : url = ""
      · subst hurl
        constructor
        · rintro ⟨⟩
          exact .blank
        · rintro (_ | _ | ⟨hurl, -⟩)
          · rfl
          · exact absurd rfl hurl
      · have hfetch : fetch (m := Id) exchange (some url) agent credentials =
            read url (exchange (request url agent credentials)) := by
          unfold fetch
          rw [Option.filter_some_pos (by simpa using hurl)]
          rfl
        rw [hfetch, read_eq_ok_iff]
        constructor
        · exact .address hurl
        · rintro (_ | _ | ⟨-, hbrings⟩)
          · exact absurd rfl hurl
          · exact hbrings

/-- Fetching fails to discover, if it fails. -/
theorem kind_of_fetch {url : Option String} {failure : Failure}
    (h : fetch (m := Id) exchange url agent credentials = .error failure) :
    failure.kind = .discovery := by
  unfold fetch at h
  split at h
  · cases h
  · exact kind_of_read h

end ReAct.Http.Catalog

import OrderTicket.Form.Reader
import OrderTicket.Proofs.Run

/-!
# What a form gives

A form is checked field by field. This module goes from a record that was put together back to the
fields it was made of: every field was read on its own, and nothing was wrong with any of them. A
form that gives no record has at least one problem.

* `Form.Checked.ap_eq_ok`, `Form.Checked.also_eq_ok`: a record without problems and its parts.
* `Form.required_eq_ok`, `Form.withDefault_eq_ok`, `Form.optional_eq_ok`: the value of a field.
* `Form.Checked.ap_failsOnly`, `Form.Checked.also_failsOnly`: where there is no record, there are
  problems.
* `Form.Checker.Reports`: all that is relied on of a checker of forms.
-/

namespace OrderTicket.Form

variable {α β : Type}

/-- A checker that refuses a form names at least one problem of it. -/
def Checker.Reports (checker : Checker α) : Prop :=
  ∀ fields, FailsOnly (checker fields) (· ≠ [])

namespace Checked

/-- A record without problems comes from parts without problems. -/
theorem ap_eq_ok {f : Checked (α → β)} {x : Checked α} {b : β} (h : f.ap x = .ok b) :
    ∃ g a, f = .ok g ∧ x = .ok a ∧ g a = b := by
  unfold ap at h
  split at h
  · exact ⟨_, _, rfl, rfl, Except.ok.inj h⟩
  all_goals cases h

/-- A check with further problems returns if there are none. -/
theorem also_eq_ok {x : Checked α} {problems : List Problem} {a : α}
    (h : x.also problems = .ok a) : x = .ok a ∧ problems = [] := by
  cases x with
  | error others => cases h
  | ok b =>
    cases problems with
    | nil => exact ⟨h, rfl⟩
    | cons problem rest => cases h

theorem named_eq_ok {name : String} {x : Except Complaint α} {a : α}
    (h : named name x = .ok a) : x = .ok a := by
  cases x with
  | error complaint => cases h
  | ok b => exact congrArg _ (Except.ok.inj h)

end Checked

variable {name : String} {read : Payload → Except Complaint α} {field : Option Payload} {a : α}

/-- A field that must be given has the value that is read from it. -/
theorem required_eq_ok (h : required name read field = .ok a) :
    ∃ x, field = some x ∧ read x = .ok a := by
  cases field with
  | none => cases h
  | some x => exact ⟨x, rfl, Checked.named_eq_ok h⟩

/-- A field with a value of its own has that value or the one that is read from it. -/
theorem withDefault_eq_ok {standard : α} (h : withDefault name read standard field = .ok a) :
    a = standard ∨ ∃ x, read x = .ok a := by
  cases field with
  | none => exact .inl (Except.ok.inj h).symm
  | some x => exact .inr ⟨x, Checked.named_eq_ok h⟩

theorem optional_eq_ok {x : Payload} (h : optional read x = .ok (some a)) : read x = .ok a := by
  unfold optional at h
  split at h
  · cases h
  · cases hread : read x with
    | error complaint => simp [hread, Except.map] at h
    | ok b => simpa [hread, Except.map] using h

/-! ## Forms with problems -/

namespace Checked

/-- Two checks together fail with problems only, if each of them does. -/
theorem ap_failsOnly {f : Checked (α → β)} {x : Checked α} (hf : FailsOnly f (· ≠ []))
    (hx : FailsOnly x (· ≠ [])) : FailsOnly (f.ap x) (· ≠ []) := by
  unfold ap
  split
  · exact .ok
  · exact .error (hx _ rfl)
  · exact .error (hf _ rfl)
  · exact .error (List.append_ne_nil_of_left_ne_nil (hf _ rfl) _)

/-- A check with further problems fails with problems only. -/
theorem also_failsOnly {x : Checked α} {problems : List Problem} (h : FailsOnly x (· ≠ [])) :
    FailsOnly (x.also problems) (· ≠ []) := by
  cases x with
  | error others => exact .error (List.append_ne_nil_of_left_ne_nil (h _ rfl) _)
  | ok b =>
    cases problems with
    | nil => exact .ok
    | cons problem rest => exact .error (List.cons_ne_nil problem rest)

theorem named_failsOnly (name : String) (x : Except Complaint α) :
    FailsOnly (named name x) (· ≠ []) := by
  cases x with
  | error complaint => exact .error (List.cons_ne_nil _ _)
  | ok a => exact .ok

end Checked

theorem required_failsOnly : FailsOnly (required name read field) (· ≠ []) := by
  cases field with
  | none => exact .error (List.cons_ne_nil _ _)
  | some x => exact Checked.named_failsOnly name (read x)

theorem withDefault_failsOnly {standard : α} :
    FailsOnly (withDefault name read standard field) (· ≠ []) := by
  cases field with
  | none => exact .ok
  | some x => exact Checked.named_failsOnly name (read x)

end OrderTicket.Form

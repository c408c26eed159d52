import OrderTicket.Failure

/-!
# Running computations that may fail

Ways of reasoning about a computation that goes through several steps. From a result one goes
backward: `bind_eq_ok` gives the result of the first step and the rest of the computation. To show
that there is a result one goes forward: `Returns.bind` and `Settles.bind` show it of each step in
turn, from what is known about the results before. `FailsOnly.bind` does so for the failures.

* `bind_eq_ok`, `liftM_eq_ok`: the steps of a computation that returned something.
* `Returns`: a computation returns something with a property.
* `Settles`: it does so, or it is refused for a reason; it does not fail in another way.
* `FailsOnly`: where it fails, the failure has a property.
-/

namespace OrderTicket

variable {ε α β : Type}

/-! ## From a result backward -/

/-- What a computation in two steps returns comes from both of them. -/
theorem bind_eq_ok {x : Except ε α} {next : α → Except ε β} {b : β} (h : x >>= next = .ok b) :
    ∃ a, x = .ok a ∧ next a = .ok b := by
  cases x with
  | error fault => cases h
  | ok a => exact ⟨a, rfl, h⟩

theorem map_eq_ok {x : Except ε α} {f : α → β} {b : β} (h : x.map f = .ok b) :
    ∃ a, x = .ok a ∧ f a = b := by
  cases x with
  | error fault => cases h
  | ok a => exact ⟨a, rfl, Except.ok.inj h⟩

/-- A decimal operation returns the same where its faults are failures. -/
theorem liftM_eq_ok {x : Except Decimal.Fault α} {a : α}
    (h : (liftM x : Except Failure α) = .ok a) : x = .ok a := by
  cases x with
  | error fault => cases h
  | ok b => exact congrArg _ (Except.ok.inj h)

/-! ## Forward to a result -/

/-- A decimal operation that returned something is followed by the rest of the computation. -/
theorem liftM_bind_of_eq_ok {x : Except Decimal.Fault α} {next : α → Except Failure β} {a : α}
    (h : x = .ok a) : ((liftM x : Except Failure α) >>= next) = next a := by
  subst h
  rfl

theorem bind_of_eq_ok {x : Except ε α} {next : α → Except ε β} {a : α} (h : x = .ok a) :
    x >>= next = next a := by
  subst h
  rfl

/-- The computation returns something with a property. -/
def Returns (x : Except ε α) (P : α → Prop) : Prop :=
  ∃ a, x = .ok a ∧ P a

namespace Returns

variable {x : Except ε α} {P : α → Prop} {Q : β → Prop}

theorem ok {a : α} (h : P a) : Returns (.ok a : Except ε α) P :=
  ⟨a, rfl, h⟩

theorem mono {P' : α → Prop} (h : Returns x P) (himp : ∀ a, P a → P' a) : Returns x P' := by
  obtain ⟨a, hx, ha⟩ := h
  exact ⟨a, hx, himp a ha⟩

/-- The second step only needs what the first one promises. -/
theorem bind {next : α → Except ε β} (h : Returns x P) (hnext : ∀ a, P a → Returns (next a) Q) :
    Returns (x >>= next) Q := by
  obtain ⟨a, rfl, ha⟩ := h
  exact hnext a ha

theorem map {f : α → β} (h : Returns x fun a => Q (f a)) : Returns (x.map f) Q := by
  obtain ⟨a, rfl, ha⟩ := h
  exact ⟨f a, rfl, ha⟩

/-- A step after another keeps what each single step keeps. -/
theorem foldlM {f : α → β → Except ε α} {bs : List β}
    (h : ∀ a, P a → ∀ b ∈ bs, Returns (f a b) P) {a : α} (ha : P a) :
    Returns (bs.foldlM f a) P := by
  induction bs generalizing a with
  | nil => exact ok ha
  | cons first rest ih =>
    rw [List.foldlM_cons]
    exact bind (h a ha first List.mem_cons_self) fun next hnext =>
      ih (fun a ha b hb => h a ha b (List.mem_cons_of_mem _ hb)) hnext

/-- A decimal operation returns the same where its faults are failures. -/
theorem lift {x : Except Decimal.Fault α} (h : Returns x P) :
    Returns (liftM x : Except Failure α) P := by
  obtain ⟨a, rfl, ha⟩ := h
  exact ⟨a, rfl, ha⟩

end Returns

/-- The computation returns something with a property, or is refused for at least one reason. -/
def Settles (x : Except Failure α) (P : α → Prop) : Prop :=
  Returns x P ∨ ∃ first rest, x = .error (.rejected (first :: rest))

namespace Settles

variable {x : Except Failure α} {P : α → Prop} {Q : β → Prop}

theorem of_returns (h : Returns x P) : Settles x P :=
  .inl h

theorem ok {a : α} (h : P a) : Settles (.ok a : Except Failure α) P :=
  .inl (.ok h)

theorem refused (first : Rejection) (rest : List Rejection) :
    Settles (.error (.rejected (first :: rest)) : Except Failure α) P :=
  .inr ⟨first, rest, rfl⟩

theorem mono {P' : α → Prop} (h : Settles x P) (himp : ∀ a, P a → P' a) : Settles x P' :=
  h.imp_left fun hx => hx.mono himp

/-- A step that is refused ends the computation, else the rest needs what the step promises. -/
theorem bind {next : α → Except Failure β} (h : Settles x P)
    (hnext : ∀ a, P a → Settles (next a) Q) : Settles (x >>= next) Q := by
  rcases h with ⟨a, rfl, ha⟩ | ⟨first, rest, rfl⟩
  · exact hnext a ha
  · exact refused first rest

theorem map {f : α → β} (h : Settles x fun a => Q (f a)) : Settles (x.map f) Q := by
  rcases h with hreturns | ⟨first, rest, rfl⟩
  · exact .inl hreturns.map
  · exact refused first rest

/-- A decimal operation that returns something. -/
theorem lift {x : Except Decimal.Fault α} (h : Returns x P) :
    Settles (liftM x : Except Failure α) P :=
  .inl h.lift

end Settles

/-! ## Failures -/

/-- Where the computation fails, the failure has a property. -/
def FailsOnly (x : Except ε α) (P : ε → Prop) : Prop :=
  ∀ failure, x = .error failure → P failure

namespace FailsOnly

variable {x : Except ε α} {P : ε → Prop}

theorem ok {a : α} : FailsOnly (.ok a : Except ε α) P :=
  fun _ h => nomatch h

theorem error {failure : ε} (h : P failure) : FailsOnly (.error failure : Except ε α) P := by
  rintro _ ⟨⟩
  exact h

/-- What returns something does not fail. -/
theorem of_returns {Q : α → Prop} (h : Returns x Q) : FailsOnly x P := by
  obtain ⟨a, rfl, -⟩ := h
  exact ok

theorem mono {P' : ε → Prop} (h : FailsOnly x P) (himp : ∀ failure, P failure → P' failure) :
    FailsOnly x P' :=
  fun failure hx => himp failure (h failure hx)

/-- Each step may fail; the second one only has to be looked at where the first one returns. -/
theorem bind {next : α → Except ε β} (h : FailsOnly x P)
    (hnext : ∀ a, x = .ok a → FailsOnly (next a) P) : FailsOnly (x >>= next) P := by
  cases x with
  | error failure => exact error (h failure rfl)
  | ok a => exact hnext a rfl

theorem map {f : α → β} (h : FailsOnly x P) : FailsOnly (x.map f) P := by
  cases x with
  | error failure => exact error (h failure rfl)
  | ok a => exact ok

theorem ite {c : Prop} [Decidable c] {y : Except ε α} (hx : c → FailsOnly x P)
    (hy : ¬ c → FailsOnly y P) : FailsOnly (if c then x else y) P := by
  split
  · exact hx ‹_›
  · exact hy ‹_›

theorem mapM {f : β → Except ε α} {bs : List β} (h : ∀ b ∈ bs, FailsOnly (f b) P) :
    FailsOnly (bs.mapM f) P := by
  induction bs with
  | nil => exact ok
  | cons first rest ih =>
    obtain ⟨hfirst, hrest⟩ := List.forall_mem_cons.1 h
    rw [List.mapM_cons]
    exact bind hfirst fun _ _ => bind (ih hrest) fun _ _ => ok

/-- A step after another fails as each single step does. -/
theorem foldlM {f : α → β → Except ε α} {bs : List β} (h : ∀ a, ∀ b ∈ bs, FailsOnly (f a b) P)
    (a : α) : FailsOnly (bs.foldlM f a) P := by
  induction bs generalizing a with
  | nil => exact ok
  | cons first rest ih =>
    rw [List.foldlM_cons]
    exact bind (h a first List.mem_cons_self) fun next _ =>
      ih (fun a b hb => h a b (List.mem_cons_of_mem _ hb)) next

/-- The faults of a decimal operation as failures. -/
theorem lift {x : Except Decimal.Fault α} {P : Failure → Prop}
    (h : FailsOnly x fun fault => P (.arithmetic fault)) :
    FailsOnly (liftM x : Except Failure α) P := by
  cases x with
  | error fault => exact error (h fault rfl)
  | ok a => exact ok

end FailsOnly

end OrderTicket

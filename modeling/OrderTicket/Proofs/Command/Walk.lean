import OrderTicket.Proofs.Command.Given
import OrderTicket.Proofs.Selection.Decided

/-!
# Walking over the words of a command

The clauses of a command may be read and taken up one at a time: a step starts at a word, takes up
the clause there, and goes on to the first word behind it. This module follows such a walk. What a
step keeps (`advances_of_step`) all steps together keep (`extends_of_reaches`, `completes_of_walk`):
every word is claimed by one step, problems stay, and without a new one nothing that was given is
replaced.

* `step`, `walk`: a step and the walk from a position to the end, which ends since steps go forward
  (`lt_of_step`) and not beyond the end (`le_of_step`).
* `walk_eq`: the walk takes up the clauses of the words.
* `Reaches`: the states on the way.
* `Draft.Keeps`, `Draft.Extends`: what is still there in a later draft.
* `Advances`, `Completes`: what a step and a walk do.
* `walk_keeps`: all of it, for accepted commands in particular.
* `not_advances_huge`: a word that no step goes beyond.
-/

namespace OrderTicket.Command

open Decimal

/-! ## The walk -/

section Walk

variable {settings : CommandSettings} {words : List String} {i j : ℕ} {h : i < words.length}
  {draft made : Draft} {fault : Fault}

/-- The clause that starts at a position, and how many of the words behind belong to it. -/
def clauseAt (words : List String) (i : ℕ) (h : i < words.length) : Clause × ℕ :=
  Clause.read words[i] (words.drop (i + 1))

/-- A step from a position: the next one, and the draft with the clause that starts there. -/
def step (settings : CommandSettings) (words : List String) (i : ℕ) (h : i < words.length)
    (draft : Draft) : Except Fault (ℕ × Draft) :=
  (draft.apply settings (clauseAt words i h).1).map fun made =>
    (i + 1 + (clauseAt words i h).2, made)

/-- A step that returns has applied the clause at its position. -/
theorem step_eq_ok (hstep : step settings words i h draft = .ok (j, made)) :
    draft.apply settings (clauseAt words i h).1 = .ok made ∧
      j = i + 1 + (clauseAt words i h).2 := by
  obtain ⟨made', hmade, heq⟩ := map_eq_ok hstep
  cases heq
  exact ⟨hmade, rfl⟩

/-- A step that fails has failed to apply the clause at its position. -/
theorem step_eq_error (hstep : step settings words i h draft = .error fault) :
    draft.apply settings (clauseAt words i h).1 = .error fault := by
  unfold step at hstep
  cases happly : draft.apply settings (clauseAt words i h).1 with
  | error other =>
    rw [happly] at hstep
    cases hstep
    rfl
  | ok made =>
    rw [happly] at hstep
    cases hstep

/-- A step goes forward. -/
theorem lt_of_step (hstep : step settings words i h draft = .ok (j, made)) : i < j := by
  have := (step_eq_ok hstep).2
  omega

theorem le_of_step (hstep : step settings words i h draft = .ok (j, made)) :
    j ≤ words.length := by
  have hle : (clauseAt words i h).2 ≤ (words.drop (i + 1)).length := Clause.read_snd_le _ _
  have := (step_eq_ok hstep).2
  rw [List.length_drop] at hle
  omega

/-- The walk from position `i` on: the positions that its steps claim, and the draft at the end. -/
def walk (settings : CommandSettings) (words : List String) (i : ℕ) (draft : Draft) :
    Except Fault (List (List ℕ) × Draft) :=
  if h : i < words.length then
    match hstep : step settings words i h draft with
    | .error fault => .error fault
    | .ok (j, made) =>
      have := lt_of_step hstep
      (walk settings words j made).map fun (claims, last) => (List.range' i (j - i) :: claims, last)
  else .ok ([], draft)
termination_by words.length - i

/-- A walk at the end changes nothing. -/
theorem walk_of_not_lt (h : ¬ i < words.length) :
    walk settings words i draft = .ok ([], draft) := by
  rw [walk, dif_neg h]

/-- A walk claims the words of its first step and goes on from there. -/
theorem walk_of_step (hstep : step settings words i h draft = .ok (j, made)) :
    walk settings words i draft = (walk settings words j made).map fun (claims, last) =>
      (List.range' i (j - i) :: claims, last) := by
  rw [walk, dif_pos h]
  split <;> simp_all

/-- A walk fails if its first step does. -/
theorem walk_of_step_error (hstep : step settings words i h draft = .error fault) :
    walk settings words i draft = .error fault := by
  rw [walk, dif_pos h]
  split <;> simp_all

/-- The walk takes up the clauses of the words from its position on. -/
theorem walk_eq (settings : CommandSettings) (words : List String) (i : ℕ) (draft : Draft) :
    (walk settings words i draft).map Prod.snd =
      (Clause.readAll (words.drop i)).foldlM (Draft.apply settings) draft := by
  -- on the steps of the walk; each takes up the first of the clauses that are left
  induction i, draft using walk.induct settings words with
  | case1 i draft h fault hstep =>
    have happly := step_eq_error hstep
    rw [clauseAt] at happly
    rw [walk_of_step_error hstep, List.drop_eq_getElem_cons h, Clause.readAll_cons,
      List.foldlM_cons, happly]
    rfl
  | case2 i draft h j made hstep hlt ih =>
    obtain ⟨happly, hj⟩ := step_eq_ok hstep
    rw [clauseAt] at happly hj
    rw [walk_of_step hstep, List.drop_eq_getElem_cons h, Clause.readAll_cons, List.foldlM_cons,
      List.drop_drop, bind_of_eq_ok happly, ← hj, ← ih]
    cases walk settings words j made <;> rfl
  | case3 i draft h =>
    rw [walk_of_not_lt h, List.drop_eq_nil_of_le (not_lt.1 h)]
    rfl

/-- The states that a walk comes to from another one: positions and drafts. -/
def Reaches (settings : CommandSettings) (words : List String) : ℕ × Draft → ℕ × Draft → Prop :=
  Relation.ReflTransGen fun state next => ∃ h, step settings words state.1 h state.2 = .ok next

/-- From a state on the way a walk ends as it does from the first one. -/
theorem walk_of_reaches {state next : ℕ × Draft} {last : Draft}
    (hreaches : Reaches settings words state next)
    (hwalk : (walk settings words state.1 state.2).map Prod.snd = .ok last) :
    (walk settings words next.1 next.2).map Prod.snd = .ok last := by
  -- on the states in between; the walk from each of them starts with the step to the next one
  induction hreaches with
  | refl => exact hwalk
  | tail _ hstep ih =>
    obtain ⟨h, hstep⟩ := hstep
    obtain ⟨⟨claims, made⟩, hmade, rfl⟩ := map_eq_ok ih
    rw [walk_of_step hstep] at hmade
    obtain ⟨rest, hrest, heq⟩ := map_eq_ok hmade
    cases heq
    rw [hrest]
    rfl

end Walk

/-! ## What is kept -/

namespace Draft

variable {draft made last : Draft} {settings : CommandSettings}

/-- A limit price comes with the mark of a limit order. -/
def Marked (draft : Draft) : Prop :=
  draft.limitPrice.isSome = true → draft.limit = true

theorem marked_empty (side : Side) : Marked { side } := by
  simp [Marked]

/-- What the first draft has stored is still stored in the second one, except perhaps a limit price
without the mark of a limit order. -/
structure Keeps (draft made : Draft) : Prop where
  /-- A limit order stays one. -/
  limit : draft.limit = true → made.limit = true
  /-- No price is stored without the mark. -/
  marked : draft.Marked → made.Marked
  /-- All that is held stays as it is. -/
  holds : ∀ entry, draft.Holds entry →
    made.Holds entry ∨ (¬ draft.Marked ∧ ∃ price, entry = .limit price)

theorem Keeps.refl (draft : Draft) : Keeps draft draft :=
  ⟨id, id, fun _ hholds => .inl hholds⟩

theorem Keeps.trans (h : Keeps draft made) (h' : Keeps made last) : Keeps draft last := by
  refine ⟨fun hlimit => h'.limit (h.limit hlimit), fun hmarked => h'.marked (h.marked hmarked),
    fun entry hholds => ?_⟩
  obtain hmade | hprice := h.holds entry hholds
  · exact (h'.holds entry hmade).imp_right fun ⟨hmarked, hprice⟩ => ⟨mt h.marked hmarked, hprice⟩
  · exact .inr hprice

/-- The second draft has all problems of the first one, and if it has no other ones then it keeps
what the first one has stored. -/
structure Extends (draft made : Draft) : Prop where
  /-- Problems are only added, behind the ones that are there. -/
  problems : draft.problems <+: made.problems
  /-- Without a new problem nothing is replaced. -/
  keeps : made.problems = draft.problems → Keeps draft made

theorem Extends.refl (draft : Draft) : Extends draft draft :=
  ⟨List.prefix_rfl, fun _ => .refl draft⟩

theorem Extends.trans (h : Extends draft made) (h' : Extends made last) : Extends draft last := by
  refine ⟨h.problems.trans h'.problems, fun hsame => ?_⟩
  -- there was no new problem in between
  have hmade : made.problems = draft.problems :=
    (h.problems.eq_of_length_le (hsame ▸ h'.problems.length_le)).symm
  exact (h.keeps hmade).trans (h'.keeps (hsame.trans hmade.symm))

/-- An entry that there is room for replaces nothing that comes with its mark. -/
theorem keeps_fill {entry : Entry}
    (hroom : draft.fits entry = true ∨ ∃ price, entry = .limit price ∧ draft.limitPrice = none) :
    Keeps draft (draft.fill entry) := by
  refine ⟨?_, ?_, fun other hholds => ?_⟩
  · rcases entry with _ | _ | _ | _ | ⟨_ | _ | _, _⟩ | _ | _ <;> simp [fill, withProtection]
  · rcases entry with _ | _ | _ | _ | ⟨_ | _ | _, _⟩ | _ | _ <;>
      simp [fill, withProtection, Marked]
  · -- each pair of kinds by itself; two of one kind leave no room for each other
    rcases entry with _ | _ | _ | _ | ⟨_ | _ | _, _⟩ | _ | _ <;>
      rcases other with _ | _ | _ | _ | ⟨_ | _ | _, _⟩ | _ | _ <;>
        simp_all [fits, fill, Holds, withProtection, protection, Marked]

/-- A clause extends a draft. -/
theorem Outcome.extended {clause : Clause} (h : Outcome settings draft clause made) :
    Extends draft made := by
  refine ⟨h.problems_kept, fun hsame => ?_⟩
  cases h with
  | refused hrefused => exact absurd hsame hrefused.problems_ne
  | marked => exact ⟨fun _ => rfl, fun _ _ => rfl, fun _ hholds => .inl (holds_limited.2 hholds)⟩
  | entered hgives hfits => exact keeps_fill (.inl hfits)
  | priced hgives hfree => exact keeps_fill (.inr ⟨_, rfl, hfree⟩)

-- a price without the mark is replaced where the clause looks at the mark only
example : Draft.apply {} { side := .buy, limitPrice := some 1 } (.limit (some "2")) =
    .ok { side := .buy, limit := true, limitPrice := some 2 } := by rfl

end Draft

/-! ## Steps and walks -/

section Kept

variable {settings : CommandSettings} {words : List String} {i : ℕ} {draft : Draft}

/-- The state behind a step lies further on, but not beyond the end, and extends the draft. -/
structure Advances (words : List String) (i : ℕ) (draft : Draft) (next : ℕ × Draft) : Prop where
  /-- The next position lies behind this one. -/
  lt : i < next.1
  /-- It is a position of a word, or the end. -/
  le : next.1 ≤ words.length
  /-- The draft is extended. -/
  extended : draft.Extends next.2

/-- A walk has claimed each word from its first position on once, and in order, and extends the
draft. -/
structure Completes (words : List String) (i : ℕ) (draft : Draft)
    (result : List (List ℕ) × Draft) : Prop where
  /-- The positions that the steps claim are all positions from the first one on. -/
  claims : result.1.flatten = List.range' i (words.length - i)
  /-- The draft is extended. -/
  extended : draft.Extends result.2

/-- A step claims words behind its position and extends the draft. -/
theorem advances_of_step {h : i < words.length} {next : ℕ × Draft}
    (hstep : step settings words i h draft = .ok next) : Advances words i draft next :=
  ⟨lt_of_step hstep, le_of_step hstep, (Draft.outcome_of_apply (step_eq_ok hstep).1).extended⟩

/-- A step takes up its clause, or the clause is to blame for a fault. -/
theorem step_advances (settings : CommandSettings) (h : i < words.length) (draft : Draft) :
    Returns (step settings words i h draft) (Advances words i draft) ∨
      ∃ fault, step settings words i h draft = .error fault ∧
        FaultOf settings [(clauseAt words i h).1] fault := by
  cases hstep : step settings words i h draft with
  | ok next => exact .inl (.ok (advances_of_step hstep))
  | error fault =>
    exact .inr ⟨fault, rfl, Draft.apply_failsOnly settings draft _ fault (step_eq_error hstep)⟩

/-- What each step does to a draft all steps together do. -/
theorem extends_of_reaches {state next : ℕ × Draft} (h : Reaches settings words state next) :
    state.2.Extends next.2 := by
  induction h with
  | refl => exact .refl _
  | tail _ hstep ih =>
    obtain ⟨h, hstep⟩ := hstep
    exact ih.trans (advances_of_step hstep).extended

/-- A walk that returns claims each word once and extends the draft. -/
theorem completes_of_walk {result : List (List ℕ) × Draft}
    (hwalk : walk settings words i draft = .ok result) : Completes words i draft result := by
  induction i, draft using walk.induct settings words generalizing result with
  | case1 i draft h fault hstep =>
    rw [walk_of_step_error hstep] at hwalk
    cases hwalk
  | case2 i draft h j made hstep hlt ih =>
    rw [walk_of_step hstep] at hwalk
    obtain ⟨⟨claims, last⟩, hrest, rfl⟩ := map_eq_ok hwalk
    have hstep := advances_of_step hstep
    have hcompletes := ih hrest
    refine ⟨?_, hstep.extended.trans hcompletes.extended⟩
    -- the words of the step lie in front of those of the other steps
    have hle := hstep.le
    have hnext : i + (j - i) = j := by omega
    have hall : j - i + (words.length - j) = words.length - i := by omega
    have hsplit : List.range' i (j - i) ++ List.range' (i + (j - i)) (words.length - j) =
      List.range' i (j - i + (words.length - j)) := List.range'_append_1
    rw [List.flatten_cons, hcompletes.claims, ← hall, ← hsplit, hnext]
  | case3 i draft h =>
    rw [walk_of_not_lt h] at hwalk
    cases hwalk
    have hzero : words.length - i = 0 := by omega
    exact ⟨by rw [hzero]; rfl, .refl draft⟩

/-- A walk takes up all clauses, or one of them is to blame for a fault. -/
theorem walk_completes (settings : CommandSettings) (words : List String) (i : ℕ)
    (draft : Draft) :
    Returns (walk settings words i draft) (Completes words i draft) ∨
      ∃ fault, walk settings words i draft = .error fault ∧
        FaultOf settings (Clause.readAll (words.drop i)) fault := by
  cases hwalk : walk settings words i draft with
  | ok result => exact .inl (.ok (completes_of_walk hwalk))
  | error fault =>
    have heq := walk_eq settings words i draft
    rw [hwalk] at heq
    exact .inr ⟨fault, rfl, Draft.foldlM_failsOnly settings draft _ fault heq.symm⟩

/-- On the way to a draft without problems there are none, and what is stored on the way is in the
draft at the end. -/
theorem kept_of_reaches {side : Side} {last : Draft} {next : ℕ × Draft}
    (hwalk : (walk settings words 0 { side }).map Prod.snd = .ok last) (hlast : last.problems = [])
    (hreaches : Reaches settings words (0, { side }) next) :
    next.2.problems = [] ∧ (next.2.limit = true → last.limit = true) ∧
      ∀ entry, next.2.Holds entry → last.Holds entry := by
  obtain ⟨⟨claims, last⟩, hrest, rfl⟩ := map_eq_ok (walk_of_reaches hreaches hwalk)
  have hbefore := extends_of_reaches hreaches
  have hbehind := (completes_of_walk hrest).extended
  have hnone : next.2.problems = [] := List.prefix_nil.1 (hlast ▸ hbehind.problems)
  -- no price is stored without its mark on the way, so all that is held stays
  have hmarked : next.2.Marked := (hbefore.keeps hnone).marked (Draft.marked_empty side)
  have hkeeps := hbehind.keeps (hlast.trans hnone.symm)
  refine ⟨hnone, hkeeps.limit, fun entry hholds => ?_⟩
  exact (hkeeps.holds entry hholds).resolve_right fun hprice => hprice.1 hmarked

/-- An accepted command is that of a walk to the end, whose draft is the one of the order. -/
theorem exists_walk_of_read {text action : String} {reading : Reading} {order : Order}
    (hwords : Text.words text = action :: words) (h : read settings text = .ok reading)
    (horder : reading.order = some order) :
    ∃ side last, sideOf? action = some side ∧
      (walk settings words 0 { side }).map Prod.snd = .ok last ∧ last.order? = some order := by
  have hok := ok_of_order h horder
  obtain ⟨side, last, hside, hlast, hreading⟩ := exists_draft_of_ok hwords h hok
  obtain ⟨made, -, hmade, heq⟩ := exists_order_of_ok hreading hok
  obtain rfl := Option.some.inj (horder.symm.trans heq)
  exact ⟨side, last, hside, by rw [walk_eq, List.drop_zero, hlast], hmade⟩

/-- From any draft and any word a step goes forward and extends the draft, and the walk to the end
claims each word once and extends the draft, or the number of a clause is to blame for a fault: it
is huge, or a leverage out of a range whose end cannot be written. On the way to an order there is
no problem at any word, and whatever is stored there is in the order's draft. -/
theorem walk_keeps (settings : CommandSettings) (words : List String) :
    (∀ i (h : i < words.length) draft,
      Returns (step settings words i h draft) (Advances words i draft) ∨
        ∃ fault, step settings words i h draft = .error fault ∧
          FaultOf settings [(clauseAt words i h).1] fault) ∧
    (∀ i draft, Returns (walk settings words i draft) (Completes words i draft) ∨
      ∃ fault, walk settings words i draft = .error fault ∧
        FaultOf settings (Clause.readAll (words.drop i)) fault) ∧
    ∀ text action reading order, Text.words text = action :: words →
      read settings text = .ok reading → reading.order = some order →
        ∃ side last, sideOf? action = some side ∧
          (walk settings words 0 { side }).map Prod.snd = .ok last ∧ last.order? = some order ∧
            ∀ j mid, Reaches settings words (0, { side }) (j, mid) →
              mid.problems = [] ∧ (mid.limit = true → last.limit = true) ∧
                ∀ entry, mid.Holds entry → last.Holds entry := by
  refine ⟨fun _ h draft => step_advances settings h draft,
    fun i draft => walk_completes settings words i draft, ?_⟩
  intro text action reading order hwords hread horder
  obtain ⟨side, last, hside, hwalk, hlast⟩ := exists_walk_of_read hwords hread horder
  exact ⟨side, last, hside, hwalk, hlast, fun _ _ hreaches =>
    kept_of_reaches hwalk (order?_eq_some hlast).1 hreaches⟩

/-- The words of a purchase behind its action. -/
def limitPurchase : List String := ["BTCUSDT", "2", "limit", "5"]

/-- The purchase is read, and the size in front of its limit price is that of the order. -/
theorem walk_keeps_limitPurchase :
    Returns (step {} limitPurchase 2 (by decide) { side := .buy })
      (Advances limitPurchase 2 { side := .buy }) ∧
    Returns (walk {} limitPurchase 0 { side := .buy })
      (Completes limitPurchase 0 { side := .buy }) ∧
    ∃ (last : Draft) (order : Order), last.order? = some order ∧
      last.Holds (.size ⟨.base, 2⟩) := by
  obtain ⟨hstep, hwalk, hread⟩ := walk_keeps {} limitPurchase
  obtain ⟨side, last, hside, hlast, horder, hkept⟩ := hread "/buy BTCUSDT 2 limit 5" "/buy"
    { order := some { symbol := "BTCUSDT", side := .buy, size := ⟨.base, 2⟩, type := .limit,
                      limitPrice := some 5 }
      suggestions := ["Consider adding leverage (e.g., x5)",
        "Consider adding risk management (sl1% tp3%)"] } _ (by decide +kernel) (by rfl) rfl
  have hbuy : sideOf? "/buy" = some .buy := by decide +kernel
  obtain rfl : side = .buy := Option.some.inj (hside.symm.trans hbuy)
  refine ⟨(hstep 2 (by decide) { side := .buy }).resolve_right ?_,
    (hwalk 0 { side := .buy }).resolve_right ?_, last, _, horder, ?_⟩
  · rintro ⟨fault, hfault, -⟩
    have hok : step {} limitPurchase 2 (by decide) { side := .buy } =
        .ok (4, { side := .buy, limit := true, limitPrice := some 5 }) := by rfl
    rw [hok] at hfault
    cases hfault
  · rintro ⟨fault, hfault, -⟩
    rw [hfault] at hlast
    cases hlast
  -- The size comes with the second word, before the limit price.
  · have hsymbol : Reaches {} limitPurchase (0, { side := .buy })
        (1, { side := .buy, symbol := some "BTCUSDT" }) := .single ⟨by decide, by rfl⟩
    have hsize : Reaches {} limitPurchase (0, { side := .buy })
        (2, { side := .buy, symbol := some "BTCUSDT", size := some ⟨.base, 2⟩ }) :=
      hsymbol.tail ⟨by decide, by rfl⟩
    exact (hkept 2 _ hsize).2.2 _ rfl

/-- A written number is read as a size in base units, and if it is huge no step goes beyond it. -/
theorem step_eq_error_of_huge {x : Decimal} (hx : Holdable x) (hhuge : Huge x.canonical)
    (hfree : draft.size = none) :
    step settings [x.canonical] 0 Nat.one_pos draft = .error .overflow := by
  have hterm := isTerm_price hx
  have hspells : Clause.Spells (.size x.canonical .base) [Text.lower x.canonical] := by
    rw [hterm.isPlain.lower_eq_self]
    exact hterm.spells
  have happly : draft.apply settings (.size x.canonical .base) = .error .overflow :=
    Draft.setSize_eq_error hfree hhuge .base
  have hclause : clauseAt [x.canonical] 0 Nat.one_pos = (.size x.canonical .base, 0) :=
    hspells.read_alone
  rw [step, hclause, happly]
  rfl

/-- No step goes beyond a word of one and a million zeros, so not every step advances. -/
theorem not_advances_huge :
    step {} [(finite false 1 1000000).canonical] 0 Nat.one_pos { side := .buy } =
        .error .overflow ∧
      ¬ ∀ (settings : CommandSettings) (words : List String) (i : ℕ) (h : i < words.length)
          (draft : Draft), Returns (step settings words i h draft) (Advances words i draft) := by
  have hholdable : Holdable (finite false 1 1000000) := ⟨false, 1, 1000000, rfl, by decide⟩
  have hvalue : |(finite false 1 1000000).value| = 10 ^ (1000000 : ℤ) := by
    rw [abs_value_finite, Nat.cast_one, one_mul]
  have hhuge : Huge (finite false 1 1000000).canonical := by
    refine (writes_canonical hholdable).huge ?_ ?_
    · rw [hvalue]
      exact overflowThreshold_le_pow.trans (zpow_le_zpow_right₀ (by norm_num) (by decide))
    · rw [hvalue]
      exact zpow_lt_zpow_right₀ (by norm_num) (by decide)
  have hstep : step {} [(finite false 1 1000000).canonical] 0 Nat.one_pos { side := .buy } =
      .error .overflow := step_eq_error_of_huge hholdable hhuge rfl
  -- A step that fails returns no next position, so this one input refutes what all would do.
  refine ⟨hstep, fun hall => ?_⟩
  obtain ⟨next, hnext, -⟩ :=
    hall {} [(finite false 1 1000000).canonical] 0 Nat.one_pos { side := .buy }
  rw [hstep] at hnext
  cases hnext

end Kept

end OrderTicket.Command

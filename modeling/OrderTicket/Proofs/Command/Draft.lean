import OrderTicket.Command.Draft
import OrderTicket.Proofs.Decimal.Bounds
import OrderTicket.Proofs.Decimal.Quantum
import OrderTicket.Proofs.Run

/-!
# The setters of a draft

This module shows what the setters of a draft let in. Each setter reads a typed number (`numberOf`),
checks it, and either stores it or adds a problem.

* `Typed`: a positive number below the limit of typed numbers.
* `BelowLimit`: a number that rounding leaves below that limit.
* `Accepted`: a typed number and the number that it is accepted as (`Draft.numberOf_eq_ok_iff`).
* `Draft.setSize_ok`, `Draft.setLeverage_ok`, `Draft.setLimitPrice_ok`, `Draft.setProtection_ok`:
  what a setter returns.
* `Draft.setSize_eq`, `Draft.setLeverage_eq`, `Draft.setLimitPrice_eq`, `Draft.setProtection_eq`:
  what a setter stores.
* `Draft.finished_ok`: a finished draft without problems has passed all checks.
-/

namespace OrderTicket.Command

open Decimal

/-! ## Typed numbers -/

/-- A number that a command may hold: finite, positive, and below `10 ^ 15`. -/
structure Typed (x : Decimal) : Prop where
  /-- The number is finite. -/
  isFinite : x.isFinite = true
  /-- It is positive. -/
  pos : 0 < x.value
  /-- It is below the limit of typed numbers. -/
  lt_limit : x.value < 10 ^ 15

/-- The limit of typed numbers is representable, so that rounding moves no number across it. -/
theorem representable_limit : Representable (10 ^ 15) :=
  (bound_pow (by decide)).representable

/-- A text of a number stands for a finite one. -/
theorem isFinite_of_ofText? {text : String} {x : Decimal} (h : ofText? text = some x) :
    x.isFinite = true := by
  unfold ofText? at h
  split at h
  · split at h
    · cases h
      assumption
    · cases h
  · cases h

/-- Rounded to the precision, the magnitude of the number is below the limit of typed numbers. -/
def BelowLimit (x : Decimal) : Prop :=
  ∃ y, x.abs = .ok y ∧ y.value < 10 ^ 15

/-- A magnitude that is rounded to one below the limit is below the limit itself. -/
theorem BelowLimit.abs_lt {x : Decimal} (h : BelowLimit x) (hx : x.isFinite = true) :
    |x.value| < 10 ^ 15 := by
  obtain ⟨y, hy, hlt⟩ := h
  have hround := (abs_computes hx).rounded hy
  -- a magnitude from the limit on would be rounded to one from the limit on
  exact not_le.1 fun hle => absurd (hround.le_value representable_limit hle) (not_le.2 hlt)

/-- Rounding goes by values, so numbers of the same value lie on the same side of the limit. -/
theorem BelowLimit.congr {x y : Decimal} (h : BelowLimit x) (hx : x.isFinite = true)
    (hy : y.isFinite = true) (hvalue : y.value = x.value) : BelowLimit y := by
  have hsmall : |y.value| < 10 ^ maxExponent := by
    rw [hvalue]
    exact lt_maxExponent ((h.abs_lt hx).le.trans (by norm_num))
  obtain ⟨a, ha, hlt⟩ := h
  obtain ⟨b, hb, -⟩ := (abs_computes hy).exists_ok (by rwa [abs_abs])
  exact ⟨b, hb, abs_value_congr hx hy hvalue.symm ha hb ▸ hlt⟩

/-- The typed number stands for `x`, which after rounding is below the limit of typed numbers. -/
structure Accepted (number : String) (x : Decimal) : Prop where
  /-- The text stands for the number. -/
  read : ofText? number = some x
  /-- Rounded, its magnitude is below the limit. -/
  lt_limit : BelowLimit x

namespace Accepted

variable {number : String} {x : Decimal}

theorem isFinite (h : Accepted number x) : x.isFinite = true :=
  isFinite_of_ofText? h.read

/-- A number that is accepted is below the limit of typed numbers. -/
theorem abs_lt_limit (h : Accepted number x) : |x.value| < 10 ^ 15 :=
  h.lt_limit.abs_lt h.isFinite

/-- A positive number that is accepted is one that a command may hold. -/
theorem typed (h : Accepted number x) (hpos : 0 < x.value) : Typed x :=
  ⟨h.isFinite, hpos, (abs_lt.1 h.abs_lt_limit).2⟩

/-- A text stands for one number. -/
theorem eq (h : Accepted number x) {y : Decimal} (hy : Accepted number y) : x = y :=
  Option.some.inj (h.read.symm.trans hy.read)

end Accepted

namespace Draft

theorem numberLimit_value : numberLimit.value = 10 ^ 15 := by
  simp [numberLimit, value, magnitude]

/-- A typed number is accepted with a value exactly if it stands for that number and the number,
rounded, is below the limit. -/
theorem numberOf_eq_ok_iff {what number : String} {x : Decimal} :
    numberOf what number = .ok (.ok x) ↔ Accepted number x := by
  constructor
  · intro h
    unfold numberOf at h
    split at h
    · cases h
    · rename_i y hread
      obtain ⟨a, ha, h⟩ := bind_eq_ok h
      obtain ⟨large, hlarge, h⟩ := bind_eq_ok h
      cases large with
      | true => cases h
      | false =>
        cases h
        refine ⟨hread, a, ha, ?_⟩
        -- the limit is compared with the rounded magnitude, not with the number itself
        have hround := (abs_computes (isFinite_of_ofText? hread)).rounded ha
        rw [le_eq rfl hround.isFinite, numberLimit_value] at hlarge
        simpa using hlarge
  · rintro ⟨hread, a, ha, hlt⟩
    have hround := (abs_computes (isFinite_of_ofText? hread)).rounded ha
    have hle : numberLimit.le a = .ok false := by
      rw [le_eq rfl hround.isFinite, numberLimit_value]
      simpa using hlt
    simp only [numberOf, hread, ha, hle, bind, Except.bind, pure, Except.pure, Bool.false_eq_true,
      if_false]

/-- `100` is above a number exactly if its value is. -/
theorem lt_hundred {x : Decimal} (hx : x.isFinite = true) (h : Decimal.le 100 x = .ok false) :
    x.value < 100 := by
  rw [le_eq rfl hx] at h
  simpa using h

theorem le_hundred {x : Decimal} (hx : x.isFinite = true) (h : Decimal.lt 100 x = .ok false) :
    x.value ≤ 100 := by
  rw [lt_eq rfl hx] at h
  simpa using h

/-- The integer part of a finite number is taken toward zero. -/
theorem toInt_eq {x : Decimal} (hx : x.isFinite = true) : x.toInt = towardZero x.value := by
  obtain ⟨n, c, e, rfl⟩ := isFinite_iff.1 hx
  have hone : (finite false 1 0).value = 1 := by simp [value, magnitude]
  have h := value_div_value n c e false 1 0
  rw [hone, div_one, Bool.bne_false, sub_zero, zero_sub] at h
  rw [h, towardZero_signed, toInt, shiftRight_down, widen_eq 1, Nat.one_mul]
  rfl

/-! ## Problems -/

/-- A check changes nothing but the problems. -/
theorem failIf_eq (draft : Draft) (condition : Bool) (problem : Problem) :
    draft.failIf condition problem =
      { draft with problems := draft.problems ++ if condition then [problem] else [] } := by
  cases condition
  · simp [failIf]
  · simp [failIf, fail]

/-! ## Setters -/

variable {settings : CommandSettings} {draft made : Draft} {number : String}

/-- A size is refused with a problem, or stored as a positive amount, a share of at most `100`. -/
theorem setSize_ok {unit : SizeUnit} (h : draft.setSize number unit = .ok made) :
    (∃ problem, made = draft.fail problem) ∨
      (draft.size = none ∧ ∃ amount, Accepted number amount ∧ 0 < amount.value ∧
        (unit = .percent → amount.value ≤ 100) ∧
          made = { draft with size := some ⟨unit, amount⟩ }) := by
  unfold setSize at h
  split at h
  · cases h
    exact .inl ⟨_, rfl⟩
  -- the checks in the order of the code: the number, its sign, and the bound of a share
  rename_i hfree
  obtain ⟨read, hread, h⟩ := bind_eq_ok h
  cases read with
  | error problem =>
    cases h
    exact .inl ⟨_, rfl⟩
  | ok amount =>
    have haccepted := numberOf_eq_ok_iff.1 hread
    obtain ⟨notPositive, hpos, h⟩ := bind_eq_ok h
    cases notPositive with
    | true =>
      cases h
      exact .inl ⟨_, rfl⟩
    | false =>
      rw [if_neg (by decide)] at h
      obtain ⟨tooHigh, hhigh, h⟩ := bind_eq_ok h
      split at h
      · cases h
        exact .inl ⟨_, rfl⟩
      · rename_i hcheck
        cases h
        refine .inr ⟨by simpa using hfree, amount, haccepted,
          value_pos_of_le_zero_eq_false haccepted.isFinite hpos, ?_, rfl⟩
        rintro rfl
        obtain rfl : tooHigh = false := by simpa using hcheck
        exact le_hundred haccepted.isFinite hhigh

/-- A positive amount is stored as the size, if there is none yet. -/
theorem setSize_eq {unit : SizeUnit} {amount : Decimal} (hfree : draft.size = none)
    (h : Accepted number amount) (hpos : 0 < amount.value)
    (hshare : unit = .percent → amount.value ≤ 100) :
    draft.setSize number unit = .ok { draft with size := some ⟨unit, amount⟩ } := by
  have hzero : amount.le 0 = .ok false := by
    rw [le_zero_eq h.isFinite, decide_eq_false (not_le.2 hpos)]
  have hhigh : Decimal.lt 100 amount = .ok (decide (100 < amount.value)) := by
    rw [lt_eq rfl h.isFinite]
    simp
  simp only [setSize, hfree, Option.isSome_none, Bool.false_eq_true, if_false,
    numberOf_eq_ok_iff.2 h, bind, Except.bind, hzero, hhigh]
  rw [if_neg (by simpa using hshare)]
  rfl

/-- A limit price is refused with a problem, or stored as a positive number. -/
theorem setLimitPrice_ok (h : draft.setLimitPrice number = .ok made) :
    (∃ problem, made = draft.fail problem) ∨
      ∃ price, Accepted number price ∧ 0 < price.value ∧
        made = { draft with limitPrice := some price } := by
  obtain ⟨read, hread, h⟩ := bind_eq_ok h
  cases read with
  | error problem =>
    cases h
    exact .inl ⟨_, rfl⟩
  | ok price =>
    have haccepted := numberOf_eq_ok_iff.1 hread
    obtain ⟨notPositive, hpos, h⟩ := bind_eq_ok h
    cases notPositive with
    | true =>
      cases h
      exact .inl ⟨_, rfl⟩
    | false =>
      cases h
      exact .inr ⟨price, haccepted, value_pos_of_le_zero_eq_false haccepted.isFinite hpos, rfl⟩

/-- A positive number is stored as the limit price. -/
theorem setLimitPrice_eq {price : Decimal} (h : Accepted number price) (hpos : 0 < price.value) :
    draft.setLimitPrice number = .ok { draft with limitPrice := some price } := by
  have hzero : price.le 0 = .ok false := by
    rw [le_zero_eq h.isFinite, decide_eq_false (not_le.2 hpos)]
  simp only [setLimitPrice, numberOf_eq_ok_iff.2 h, bind, Except.bind, hzero, Bool.false_eq_true,
    if_false]
  rfl

/-- A protection is refused with a problem, or stored as a positive distance, below `100` unless it
is a profit target. -/
theorem setProtection_ok {kind : Protection} (h : draft.setProtection kind number = .ok made) :
    (∃ problem, made = draft.fail problem) ∨
      (draft.protection kind = none ∧ ∃ distance, Accepted number distance ∧ 0 < distance.value ∧
        (kind ≠ .takeProfit → distance.value < 100) ∧
          made = draft.withProtection distance kind) := by
  unfold setProtection at h
  split at h
  · cases h
    exact .inl ⟨_, rfl⟩
  -- the checks in the order of the code: the number, its sign, and the bound of a distance
  rename_i hfree
  obtain ⟨read, hread, h⟩ := bind_eq_ok h
  cases read with
  | error problem =>
    cases h
    exact .inl ⟨_, rfl⟩
  | ok distance =>
    have haccepted := numberOf_eq_ok_iff.1 hread
    obtain ⟨notPositive, hpos, h⟩ := bind_eq_ok h
    cases notPositive with
    | true =>
      cases h
      exact .inl ⟨_, rfl⟩
    | false =>
      rw [if_neg (by decide)] at h
      obtain ⟨tooHigh, hhigh, h⟩ := bind_eq_ok h
      split at h
      · cases h
        exact .inl ⟨_, rfl⟩
      · rename_i hcheck
        cases h
        refine .inr ⟨by simpa using hfree, distance, haccepted,
          value_pos_of_le_zero_eq_false haccepted.isFinite hpos, ?_, rfl⟩
        intro hkind
        obtain rfl : tooHigh = false := by simpa [hkind] using hcheck
        exact lt_hundred haccepted.isFinite hhigh

/-- A positive distance is stored for a protection, if there is none yet. -/
theorem setProtection_eq {kind : Protection} {distance : Decimal}
    (hfree : draft.protection kind = none) (h : Accepted number distance)
    (hpos : 0 < distance.value) (hlt : kind ≠ .takeProfit → distance.value < 100) :
    draft.setProtection kind number = .ok (draft.withProtection distance kind) := by
  have hzero : distance.le 0 = .ok false := by
    rw [le_zero_eq h.isFinite, decide_eq_false (not_le.2 hpos)]
  have hhigh : Decimal.le 100 distance = .ok (decide (100 ≤ distance.value)) := by
    rw [le_eq rfl h.isFinite]
    simp
  simp only [setProtection, hfree, Option.isSome_none, Bool.false_eq_true, if_false,
    numberOf_eq_ok_iff.2 h, bind, Except.bind, hzero, hhigh]
  rw [if_neg (by simpa using hlt)]
  rfl

/-- A leverage is refused with a problem, or stored as an integer within the bounds, which is what
the typed number stands for. -/
theorem setLeverage_ok (h : draft.setLeverage settings number = .ok made) :
    (∃ problem, made = draft.fail problem) ∨
      (draft.leverage = none ∧ ∃ (x : Decimal) (leverage : ℤ), Accepted number x ∧
        x.value = leverage ∧ 1 ≤ leverage ∧ leverage ≤ settings.maxLeverage ∧
          made = { draft with leverage := some leverage }) := by
  unfold setLeverage at h
  split at h
  · cases h
    exact .inl ⟨_, rfl⟩
  rename_i hfree
  obtain ⟨read, hread, h⟩ := bind_eq_ok h
  cases read with
  | error problem =>
    cases h
    exact .inl ⟨_, rfl⟩
  | ok x =>
    have haccepted := numberOf_eq_ok_iff.1 hread
    have hfin := haccepted.isFinite
    obtain ⟨nearest, hnearest, h⟩ := bind_eq_ok h
    obtain ⟨whole, hwhole, h⟩ := bind_eq_ok h
    split at h
    · cases h
      exact .inl ⟨_, rfl⟩
    rename_i hcheck
    obtain rfl : whole = true := by simpa using hcheck
    obtain ⟨low, hlow, h⟩ := bind_eq_ok h
    obtain ⟨high, hhigh, h⟩ := bind_eq_ok h
    split at h
    · rename_i hbounds
      cases h
      obtain ⟨rfl, rfl⟩ : low = true ∧ high = true := by simpa using hbounds
      -- a number that rounding to an integer leaves as it is is an integer
      obtain ⟨r, hr, hrfin, hinteger⟩ := toIntegral_halfEven hfin
      obtain rfl : nearest = r := Except.ok.inj (hnearest.symm.trans hr)
      rw [equal_eq hfin hrfin] at hwhole
      obtain ⟨k, hk⟩ := hinteger.1 (by simpa using hwhole)
      rw [le_eq rfl hfin, hk] at hlow
      rw [le_eq hfin rfl, value_ofInt, hk] at hhigh
      have hone : (1 : ℚ) ≤ k := by simpa using hlow
      have hmax : (k : ℚ) ≤ settings.maxLeverage := by simpa using hhigh
      refine .inr ⟨by simpa using hfree, x, k, haccepted, hk, by exact_mod_cast hone,
        by exact_mod_cast hmax, ?_⟩
      rw [toInt_eq hfin, hk, towardZero_intCast]
    · obtain ⟨cap, -, h⟩ := bind_eq_ok h
      cases h
      exact .inl ⟨_, rfl⟩

/-- An integer within the bounds is stored as the leverage, if there is none yet. -/
theorem setLeverage_eq {x : Decimal} {leverage : ℤ} (hfree : draft.leverage = none)
    (h : Accepted number x) (hx : x.value = leverage) (hone : 1 ≤ leverage)
    (hmax : leverage ≤ settings.maxLeverage) :
    draft.setLeverage settings number = .ok { draft with leverage := some leverage } := by
  obtain ⟨r, hr, hrfin, hinteger⟩ := toIntegral_halfEven h.isFinite
  have hwhole : x.equal r = .ok true := by
    rw [equal_eq h.isFinite hrfin, decide_eq_true (hinteger.2 ⟨_, hx⟩)]
  have hlow : Decimal.le 1 x = .ok true := by
    rw [le_eq rfl h.isFinite, hx, value_ofNat, decide_eq_true]
    exact_mod_cast hone
  have hhigh : x.le (ofInt settings.maxLeverage) = .ok true := by
    rw [le_eq h.isFinite rfl, hx, value_ofInt, decide_eq_true]
    exact_mod_cast hmax
  have htoInt : x.toInt = leverage := by rw [toInt_eq h.isFinite, hx, towardZero_intCast]
  simp only [setLeverage, hfree, Option.isSome_none, Bool.false_eq_true, if_false,
    numberOf_eq_ok_iff.2 h, bind, Except.bind, hr, hwhole, hlow, hhigh, htoInt, Bool.not_true,
    Bool.and_self, if_true]
  rfl

/-! ## The last checks -/

/-- A profit target of a sale that is not too high is below `100`. -/
theorem targetTooHigh?_eq_none (h : draft.targetTooHigh? = .ok none) (hside : draft.side = .sell)
    {target : Decimal} (htarget : draft.takeProfit = some target) :
    Decimal.le 100 target = .ok false := by
  rw [targetTooHigh?, hside, htarget] at h
  obtain ⟨high, hhigh, h⟩ := bind_eq_ok h
  cases high with
  | true => cases h
  | false => exact hhigh

/-- The problems that a draft as a whole has, in order; `target` is a profit target that is too
high. -/
def lastProblems (settings : CommandSettings) (draft : Draft) (target : Option Decimal) :
    List Problem :=
  (if draft.symbol.isNone then [.symbolMissing] else []) ++
    (if draft.size.isNone then [.sizeMissing] else []) ++
    (if draft.market && draft.limit then [.marketAndLimit] else []) ++
    (if !(draft.market && draft.limit) && draft.limit && draft.limitPrice.isNone then
      [.limitWithoutPrice] else []) ++
    (if draft.isShare && draft.reduceOnly then [.shareReduceOnly] else []) ++
    (if draft.isShare && draft.leverage.isSome && settings.market == .spot then
      [.shareWithLeverage] else []) ++
    (target.map Problem.targetTooHigh).toList

/-- Finishing a draft adds the problems of the draft as a whole and changes nothing else. -/
theorem finished_eq (settings : CommandSettings) (draft : Draft) :
    draft.finished settings = draft.targetTooHigh?.map fun target =>
      { draft with problems := draft.problems ++ draft.lastProblems settings target } := by
  -- the check of the target does not look at the problems
  have htarget (problems : List Problem) :
      targetTooHigh? { draft with problems } = draft.targetTooHigh? := rfl
  simp only [finished, failIf_eq, htarget]
  cases draft.targetTooHigh? with
  | error fault => rfl
  | ok target =>
    cases target with
    | none => simp [lastProblems, isShare, Except.map, bind, Except.bind, pure, Except.pure]
    | some value =>
      simp [lastProblems, isShare, fail, Except.map, bind, Except.bind, pure, Except.pure]

/-- A draft that is finished without problems is as it was before, and has passed the checks that
need the whole command. -/
theorem finished_ok (h : draft.finished settings = .ok made) (hnone : made.problems = []) :
    made = draft ∧ (draft.limit = true → draft.limitPrice.isSome = true) ∧
      (draft.isShare = true → draft.reduceOnly = false) ∧
      (draft.isShare = true → settings.market = .spot → draft.leverage = none) ∧
      draft.targetTooHigh? = .ok none := by
  rw [finished_eq] at h
  obtain ⟨target, htarget, rfl⟩ := map_eq_ok h
  rw [List.append_eq_nil_iff] at hnone
  obtain ⟨-, hlast⟩ := hnone
  rw [hlast, List.append_nil]
  -- no last problem was found, so none of the conditions for them holds
  simp only [lastProblems, List.append_eq_nil_iff, ite_eq_right_iff, List.cons_ne_nil, imp_false,
    Bool.not_eq_true] at hlast
  obtain ⟨⟨⟨⟨⟨⟨-, -⟩, hboth⟩, hprice⟩, hreduce⟩, hspot⟩, htoo⟩ := hlast
  refine ⟨rfl, ?_, ?_, ?_, ?_⟩
  · intro hlimit
    rw [hboth, hlimit] at hprice
    simpa using hprice
  · intro hshare
    simpa [hshare] using hreduce
  · intro hshare hmarket
    simpa [hshare, hmarket] using hspot
  · cases target with
    | none => exact htarget
    | some value => cases htoo

end Draft

/-- The order of a draft without problems has the terms of the draft. -/
theorem order?_eq_some {draft : Draft} {order : Order} (h : draft.order? = some order) :
    draft.problems = [] ∧ ∃ symbol size, draft.symbol = some symbol ∧ draft.size = some size ∧
      order = {
        symbol, side := draft.side, size, leverage := draft.leverage
        type := if draft.limit then .limit else .market
        limitPrice := draft.limitPrice, stopLoss := draft.stopLoss, takeProfit := draft.takeProfit
        trailing := draft.trailing, reduceOnly := draft.reduceOnly } := by
  unfold Draft.order? at h
  split at h
  · rename_i symbol size hproblems hsymbol hsize
    exact ⟨hproblems, symbol, size, hsymbol, hsize, (Option.some.inj h).symm⟩
  · cases h

end OrderTicket.Command

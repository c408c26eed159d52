import OrderTicket.Proofs.Decimal.Line
import OrderTicket.Proofs.Rules.Suggested

/-!
# Limit prices near the mark price

A limit price may lie between two edges around the mark price. One that lies outside is refused, and
sent to the multiple of the tick that is nearest to it between the edges: the least one from below,
the largest one from above. The edges and the tick are held against each other over a common power
of ten, `10 ^ e`.

* `Decimal.FewDigits`: multiples of a power of ten with fewer digits than the precision.
* `TradingRules.InBand`: multiples of the tick between two edges.
* `TradingRules.isLeast_of_ceilWritten`, `TradingRules.isGreatest_of_floorWritten`: what the edges
  are moved to.
* `TradingRules.bandRejection?_of_outside`: when a limit price is refused.
* `TradingRules.band_suggests`: where a limit price is sent to.
-/

namespace OrderTicket

open Decimal

/-! ## Few digits over a power of ten -/

/-- A finite multiple of `10 ^ e` with fewer digits than the precision. -/
structure Decimal.FewDigits (e : ℤ) (x : Decimal) : Prop where
  /-- The number is finite. -/
  isFinite : x.isFinite = true
  /-- Over the power of ten the number has few digits. -/
  digits : ∃ a : ℤ, x.value = a * 10 ^ e ∧ |a| < 10 ^ (precision - 1)

section

variable {e : ℤ} {x step low : Decimal} {v : ℚ}

theorem Decimal.FewDigits.inContext (hx : x.FewDigits e) (he : tinyExponent ≤ e) : x.InContext where
  isFinite := hx.isFinite
  representable := by
    obtain ⟨a, ha, hlt⟩ := hx.digits
    rw [ha]
    exact representable_of_le (hlt.le.trans (by decide)) he

/-- A multiple of the unit that is not larger than a number of few digits has few digits as well. -/
theorem Decimal.FewDigits.digits_lt (hx : x.FewDigits e) {j : ℤ} (h : j * 10 ^ e ≤ x.value) :
    j < 10 ^ (precision - 1) := by
  obtain ⟨a, ha, hlt⟩ := hx.digits
  rw [ha, mul_le_mul_iff_left₀ (ten_zpow_pos e)] at h
  have hj : j ≤ a := by exact_mod_cast h
  exact (hj.trans (le_abs_self a)).trans_lt hlt

/-- Few digits fit into the precision with some decimals, at least those of the power of ten. -/
theorem Decimal.abs_mul_zpow_lt {j : ℤ} (hj : |j| < 10 ^ (precision - 1)) (places : ℤ)
    (hplaces : places + e ≤ 1) : |(j * 10 ^ e : ℚ)| < 10 ^ ((precision : ℤ) - places) := by
  have hunit := ten_zpow_pos e
  have hj' : |(j : ℚ)| < 10 ^ (precision - 1) := by exact_mod_cast hj
  calc |(j * 10 ^ e : ℚ)| = |(j : ℚ)| * 10 ^ e := by rw [abs_mul, abs_of_pos hunit]
    _ < 10 ^ (precision - 1) * 10 ^ e := mul_lt_mul_of_pos_right hj' hunit
    _ = 10 ^ (((precision - 1 : ℕ) : ℤ) + e) := by rw [ten_zpow_add, zpow_natCast]
    _ ≤ 10 ^ ((precision : ℤ) - places) := zpow_le_zpow_right₀ (by norm_num) (by
      have hp : precision = 28 := rfl
      omega)

/-- The quotient of two numbers of few digits is that of their digits. -/
theorem Decimal.FewDigits.div_eq (hlow : low.FewDigits e) (hstep : step.FewDigits e)
    (hnonneg : 0 ≤ low.value) (hpos : 0 < step.value) : ∃ a b : ℤ,
      low.value / step.value = a / b ∧ low.value = a * 10 ^ e ∧ step.value = b * 10 ^ e ∧
      0 ≤ a ∧ a < 10 ^ (precision - 1) ∧ 0 < b ∧ b < 10 ^ (precision - 1) := by
  obtain ⟨a, ha, halt⟩ := hlow.digits
  obtain ⟨b, hb, hblt⟩ := hstep.digits
  have hunit := ten_zpow_pos e
  have ha₀ : (0 : ℚ) ≤ a := nonneg_of_mul_nonneg_left (ha ▸ hnonneg) hunit
  have hb₀ : (0 : ℚ) < b := pos_of_mul_pos_left (hb ▸ hpos) hunit.le
  refine ⟨a, b, ?_, ha, hb, by exact_mod_cast ha₀, (le_abs_self a).trans_lt halt,
    by exact_mod_cast hb₀, (le_abs_self b).trans_lt hblt⟩
  rw [ha, hb, mul_div_mul_right _ _ hunit.ne']

/-- The quotient of a number of few digits by a step of few digits has few digits. -/
theorem Decimal.FewDigits.abs_div_lt (hlow : low.FewDigits e) (hstep : step.FewDigits e)
    (hnonneg : 0 ≤ low.value) (hpos : 0 < step.value) :
    |low.value / step.value| < 10 ^ (precision - 1) := by
  obtain ⟨a, b, hquot, -, -, ha, ha', hb, -⟩ := hlow.div_eq hstep hnonneg hpos
  have ha₀ : (0 : ℚ) ≤ a := by exact_mod_cast ha
  have hb₁ : (1 : ℚ) ≤ b := by exact_mod_cast hb
  rw [hquot, abs_of_nonneg (div_nonneg ha₀ (by linarith))]
  exact (div_le_self ha₀ hb₁).trans_lt (by exact_mod_cast ha')

/-- The rounded quotient of two integers with few digits has no ceiling below the exact one. -/
theorem Decimal.le_ceil_nearest_div_of_nonneg {a b : ℤ} (ha : 0 ≤ a)
    (ha' : a < 10 ^ (precision - 1)) (hb : 0 < b) (hb' : b < 10 ^ (precision - 1)) :
    (a / b : ℚ) ≤ ⌈nearest (a / b)⌉ := by
  rcases ha.eq_or_lt with rfl | hapos
  · simp
  · -- the quotient is not so small that it would be rounded to zero
    have hlow : (10 : ℚ) ^ (1 - precision : ℤ) ≤ a / b := by
      have hone : (1 : ℚ) ≤ a := by exact_mod_cast hapos
      have hb₀ : (0 : ℚ) < b := by exact_mod_cast hb
      have hlarge : (b : ℚ) ≤ 10 ^ (precision - 1) := by exact_mod_cast hb'.le
      calc (10 : ℚ) ^ (1 - precision : ℤ) = 1 / 10 ^ (precision - 1) := by
            rw [one_div, ← zpow_natCast, ← zpow_neg]
            rfl
        _ ≤ a / b := div_le_div₀ (by linarith) hone hb₀ hlarge
    have hround := nearest_mono hlow
    rw [nearest_of_representable (representable_zpow (by decide))] at hround
    exact le_ceil_nearest_div (by rwa [abs_of_pos hapos]) hb
      (Int.one_le_ceil_iff.2 ((ten_zpow_pos _).trans_le hround))

/-- A multiple of `10 ^ e` has no more decimals than that. -/
theorem Step.places_le {places : ℕ} (hstep : step.FewDigits e) (he : tinyExponent ≤ e)
    (hpos : 0 < step.value) (h : Step.places step = .ok places) : places ≤ (-e).toNat := by
  obtain ⟨-, m, hm, hlast⟩ := Step.places_ok (hstep.inContext he) hpos h
  obtain ⟨b, hb, -⟩ := hstep.digits
  by_contra hlt
  -- further decimals would be zeros, of which the last one is dropped
  obtain ⟨k, hk⟩ : ∃ k : ℕ, e + places = (k + 1 : ℕ) := ⟨(e + places - 1).toNat, by omega⟩
  have hdigits : (m : ℚ) = b * 10 ^ (k + 1) := by
    have hunit := ten_zpow_pos (-places : ℤ)
    refine mul_right_cancel₀ hunit.ne' ?_
    rw [← hm, hb, mul_assoc, ← zpow_natCast, ← hk, ← ten_zpow_add]
    congr 2
    omega
  have hdigits' : (m : ℤ) = b * 10 ^ (k + 1) := by exact_mod_cast hdigits
  rcases hlast with hzero | hten
  · omega
  · rw [pow_succ, ← mul_assoc] at hdigits'
    omega

end

namespace TradingRules

/-! ## Multiples of the tick between the edges -/

/-- A multiple of the tick between two edges. -/
structure InBand (rules : TradingRules) (low high : Decimal) (p : ℚ) : Prop where
  /-- It is a multiple of the tick. -/
  multiple : ∃ k : ℤ, p = k * rules.tick.value
  /-- It is not below the lower edge. -/
  low_le : low.value ≤ p
  /-- It is not above the upper edge. -/
  le_high : p ≤ high.value

/-- Edges and tick have few digits over a common power of ten, which lies within the context. -/
structure Aligned (rules : TradingRules) (e : ℤ) (low high : Decimal) : Prop where
  /-- The power of ten does not lie below the context. -/
  tiny_le : tinyExponent ≤ e
  /-- The lower edge. -/
  low : low.FewDigits e
  /-- The upper edge. -/
  high : high.FewDigits e
  /-- The tick. -/
  tick : rules.tick.FewDigits e

section

variable {rules : TradingRules} {e n : ℤ} {low high mark limit v q x : Decimal} {p : ℚ}

/-- A tick that is aligned with the edges of the band can be held by the context. -/
theorem Aligned.inContext (h : rules.Aligned e low high) : rules.tick.InContext :=
  h.tick.inContext h.tiny_le

theorem Aligned.tick_pos (h : rules.Aligned e low high) : 0 < rules.tick.value :=
  tick_value_pos h.inContext

/-- Multiples between the edges have few digits. -/
theorem InBand.digits (hp : rules.InBand low high p) (h : rules.Aligned e low high)
    (hnonneg : 0 ≤ low.value) : ∃ j : ℤ, p = j * 10 ^ e ∧ |j| < 10 ^ (precision - 1) := by
  obtain ⟨⟨k, rfl⟩, hlow, hhigh⟩ := hp
  obtain ⟨b, hb, -⟩ := h.tick.digits
  have hvalue : (k * rules.tick.value : ℚ) = (k * b : ℤ) * 10 ^ e := by
    rw [hb]
    push_cast
    ring
  rw [hvalue] at hlow hhigh
  have hj : (0 : ℚ) ≤ (k * b : ℤ) := nonneg_of_mul_nonneg_left (hnonneg.trans hlow) (ten_zpow_pos e)
  have hj' : 0 ≤ k * b := by exact_mod_cast hj
  exact ⟨k * b, hvalue, (abs_of_nonneg hj').trans_lt (h.high.digits_lt hhigh)⟩

/-- A price within the band has no more ticks than the precision has digits for. -/
theorem InBand.steps_le {k : ℤ} (hp : rules.InBand low high (k * rules.tick.value))
    (h : rules.Aligned e low high) (hnonneg : 0 ≤ low.value) : |k| ≤ 10 ^ precision := by
  obtain ⟨-, b, -, -, hb, -, -, hbpos, -⟩ := h.low.div_eq h.tick hnonneg h.tick_pos
  obtain ⟨j, hj, hlt⟩ := hp.digits h hnonneg
  rw [hb, ← mul_assoc, mul_left_inj' (ten_zpow_pos e).ne'] at hj
  have hj' : k * b = j := by exact_mod_cast hj
  have hk : |k| ≤ |j| := by
    rw [← hj', abs_mul, abs_of_pos hbpos]
    exact le_mul_of_one_le_right (abs_nonneg k) hbpos
  exact (hk.trans hlt.le).trans (by decide)

/-- The lower edge, moved up to the tick, is the least multiple between the edges. -/
theorem isLeast_ceil (h : rules.Aligned e low high) (hnonneg : 0 ≤ low.value)
    (hp : rules.InBand low high p) :
    IsLeast {p | rules.InBand low high p}
      (⌈nearest (low.value / rules.tick.value)⌉ * rules.tick.value) := by
  have hpos := h.tick_pos
  have hlower {p : ℚ} (hp : rules.InBand low high p) :
      ⌈nearest (low.value / rules.tick.value)⌉ * rules.tick.value ≤ p := by
    obtain ⟨k, rfl⟩ := hp.multiple
    refine mul_le_mul_of_nonneg_right ?_ hpos.le
    by_contra hlt
    have hbelow := lt_of_lt_ceil_nearest (hp.steps_le h hnonneg) (by exact_mod_cast not_le.1 hlt)
    rw [lt_div_iff₀ hpos] at hbelow
    exact absurd hp.low_le (not_le.2 hbelow)
  refine ⟨⟨⟨_, rfl⟩, ?_, (hlower hp).trans hp.le_high⟩, fun p hp => hlower hp⟩
  obtain ⟨a, b, hquot, -, -, ha, ha', hb, hb'⟩ := h.low.div_eq h.tick hnonneg hpos
  rw [← div_le_iff₀ hpos, hquot]
  exact le_ceil_nearest_div_of_nonneg ha ha' hb hb'

/-- The upper edge, cut to the tick, is the largest one. -/
theorem isGreatest_floor (h : rules.Aligned e low high) (hnonneg : 0 ≤ low.value)
    (hp : rules.InBand low high p) :
    IsGreatest {p | rules.InBand low high p}
      (towardZero (high.value / rules.tick.value) * rules.tick.value) := by
  have hpos := h.tick_pos
  have hquot : 0 ≤ high.value / rules.tick.value :=
    div_nonneg (hnonneg.trans (hp.low_le.trans hp.le_high)) hpos.le
  have hupper {p : ℚ} (hp : rules.InBand low high p) :
      p ≤ towardZero (high.value / rules.tick.value) * rules.tick.value := by
    obtain ⟨k, rfl⟩ := hp.multiple
    refine mul_le_mul_of_nonneg_right ?_ hpos.le
    rw [towardZero, if_pos hquot]
    exact_mod_cast Int.le_floor.2 ((le_div_iff₀ hpos).2 hp.le_high)
  refine ⟨⟨⟨_, rfl⟩, hp.low_le.trans (hupper hp), ?_⟩, fun p hp => hupper hp⟩
  exact (le_div_iff₀ hpos).1 (towardZero_le hquot)

/-! ## Edges that can be moved to the tick -/

/-- A multiple between the edges can be written, unless the power of ten is large. -/
theorem exists_write (h : rules.Aligned e low high) (he : e ≤ 1) (hnonneg : 0 ≤ low.value)
    (hp : rules.InBand low high p) (hx : Exactly p x) : ∃ v, Step.write x rules.tick = .ok v := by
  have hstep := h.inContext
  obtain ⟨b, hb, hblt⟩ := h.tick.digits
  have hlt : rules.tick.value < 10 ^ (maxExponent + 1) := by
    have hfits := abs_mul_zpow_lt (e := e) hblt 0 (by omega)
    rw [← hb] at hfits
    exact (le_abs_self _).trans_lt (hfits.trans (zpow_lt_zpow_right₀ (by norm_num) (by decide)))
  obtain ⟨places, hplaces⟩ := Step.exists_places hstep h.tick_pos hlt
  obtain ⟨htiny, -⟩ := Step.places_ok hstep h.tick_pos hplaces
  have hfew := Step.places_le h.tick h.tiny_le h.tick_pos hplaces
  obtain ⟨j, rfl, hj⟩ := hp.digits h hnonneg
  obtain ⟨v, hv⟩ := exists_truncate hx.isFinite htiny
    (by rw [hx.value_eq]; exact abs_mul_zpow_lt hj places (by omega))
  exact ⟨v, (bind_of_eq_ok hplaces).trans (congrArg (Except.mapError _) hv)⟩

/-- As many steps as lead between the edges are multiplied exactly. -/
theorem mul_tick_returns (h : rules.Aligned e low high) (he : e ≤ 1) (hnonneg : 0 ≤ low.value)
    (hp : rules.InBand low high (n * rules.tick.value)) (hq : Exactly n q) :
    Returns (q.mul rules.tick) (Exactly (n * rules.tick.value)) := by
  obtain ⟨j, hj, hlt⟩ := hp.digits h hnonneg
  have hproduct := mul_computes hq.isFinite h.tick.isFinite
  rw [hq.value_eq] at hproduct
  refine hproduct.returns_exactly ?_ ?_
  · rw [hj]
    exact representable_of_le (hlt.le.trans (by decide)) h.tiny_le
  · rw [hj]
    have hfits := abs_mul_zpow_lt (e := e) hlt 0 (by omega)
    exact hfits.trans (zpow_lt_zpow_right₀ (by norm_num) (by decide))

/-- The lower edge is moved up to the tick. -/
theorem exists_ceilWritten (h : rules.Aligned e low high) (he : e ≤ 1) (hnonneg : 0 ≤ low.value)
    (hp : rules.InBand low high p) : ∃ v, ceilWritten low rules.tick = .ok v := by
  have hmem := (isLeast_ceil h hnonneg hp).1
  have hdiv := div_computes h.low.isFinite h.tick.isFinite h.tick_pos.ne'
  have hsmall : |low.value / rules.tick.value| < 10 ^ maxExponent := by
    refine (h.low.abs_div_lt h.tick hnonneg h.tick_pos).trans ?_
    rw [← zpow_natCast]
    exact zpow_lt_zpow_right₀ (by norm_num) (by decide)
  obtain ⟨q, hq, hround⟩ := hdiv.exists_ok hsmall
  obtain ⟨i, hi, hifin, hivalue⟩ := toIntegral_ceiling hround.isFinite
  rw [hdiv.value_eq hq] at hivalue
  obtain ⟨x, hx, hexact⟩ := mul_tick_returns h he hnonneg hmem ⟨hifin, hivalue⟩
  have hceil : Step.ceil low rules.tick = .ok x :=
    (bind_of_eq_ok hq).trans ((bind_of_eq_ok hi).trans hx)
  obtain ⟨v, hv⟩ := exists_write h he hnonneg hmem hexact
  exact ⟨v, (liftM_bind_of_eq_ok hceil).trans hv⟩

/-- The upper edge is cut to the tick. -/
theorem exists_floorWritten (h : rules.Aligned e low high) (he : e ≤ 1) (hnonneg : 0 ≤ low.value)
    (hp : rules.InBand low high p) : ∃ v, floorWritten high rules.tick = .ok v := by
  have hmem := (isGreatest_floor h hnonneg hp).1
  have hhigh : 0 ≤ high.value := hnonneg.trans (hp.low_le.trans hp.le_high)
  have hsmall : |high.value / rules.tick.value| < 10 ^ precision :=
    (h.high.abs_div_lt h.tick hhigh h.tick_pos).trans
      (pow_lt_pow_right₀ (by norm_num) (by decide))
  obtain ⟨q, hq⟩ := exists_divTrunc h.high.isFinite h.tick.isFinite h.tick_pos.ne' hsmall
  obtain ⟨-, hqfin, hqvalue⟩ := divTrunc_ok h.high.isFinite h.tick.isFinite h.tick_pos.ne' hq
  obtain ⟨x, hx, hexact⟩ := mul_tick_returns h he hnonneg hmem ⟨hqfin, hqvalue⟩
  have hfloor : Step.floor high rules.tick = .ok x := (bind_of_eq_ok hq).trans hx
  obtain ⟨v, hv⟩ := exists_write h he hnonneg hmem hexact
  exact ⟨v, (liftM_bind_of_eq_ok hfloor).trans hv⟩

/-! ## Refusals -/

/-- The edges around a positive mark price are not negative. -/
theorem band_nonneg (hdown : Between 0 1 rules.bandDown) (hmark : 0 < mark.value)
    (h : rules.band mark = .ok (low, high)) : 0 ≤ low.value := by
  obtain ⟨down, hdown', h⟩ := bind_eq_ok h
  obtain ⟨low', hlow, h⟩ := bind_eq_ok h
  obtain ⟨up, -, h⟩ := bind_eq_ok h
  obtain ⟨high', -, h⟩ := bind_eq_ok h
  obtain ⟨rfl, -⟩ := Prod.mk.inj (Except.ok.inj h)
  have hone : (1 : Decimal).value = 1 := by simp
  obtain ⟨hdfin, hdvalue⟩ := (sub_computes rfl hdown.isFinite).exactly_nearest hdown'
  rw [hone] at hdvalue
  have hdnonneg : 0 ≤ down.value :=
    hdvalue ▸ nearest_nonneg (sub_nonneg.2 hdown.le_high)
  have hmarkfin := isFinite_of_pos hmark
  rw [((mul_computes hmarkfin hdfin).exactly_nearest hlow).value_eq]
  exact nearest_nonneg (mul_nonneg hmark.le hdnonneg)

/-- A number is within two finite bounds if its place lies between theirs. -/
theorem within_eq_place (hlow : low.isFinite = true) (hx : limit.IsNumber)
    (hhigh : high.isFinite = true) :
    within low limit high = .ok (decide (low.place ≤ limit.place ∧ limit.place ≤ high.place)) := by
  rw [within, le_eq_place (isNumber_of_isFinite hlow) hx]
  by_cases h : low.place ≤ limit.place
  · rw [decide_eq_true h, show (decide (low.place ≤ limit.place ∧ limit.place ≤ high.place)) =
      decide (limit.place ≤ high.place) by simp [h]]
    exact le_eq_place hx (isNumber_of_isFinite hhigh)
  · rw [decide_eq_false h, decide_eq_false (fun hin => h hin.1)]
    rfl

/-- Between the edges nothing is refused. -/
theorem bandRejection?_of_inside (hband : rules.band mark = .ok (low, high))
    (hlow : low.isFinite = true) (hx : limit.IsNumber) (hhigh : high.isFinite = true)
    (hin : low.place ≤ limit.place ∧ limit.place ≤ high.place) :
    rules.bandRejection? mark limit = .ok none := by
  have hwithin := within_eq_place hlow hx hhigh
  rw [decide_eq_true hin] at hwithin
  exact (liftM_bind_of_eq_ok hband).trans (liftM_bind_of_eq_ok hwithin)

/-- Outside the limit price is refused if the edge on its side can be moved to the tick. -/
theorem bandRejection?_of_outside (hband : rules.band mark = .ok (low, high))
    (hlow : low.isFinite = true) (hx : limit.IsNumber) (hhigh : high.isFinite = true)
    (hout : ¬ (low.place ≤ limit.place ∧ limit.place ≤ high.place))
    (hceil : ∃ v, ceilWritten low rules.tick = .ok v)
    (hfloor : ∃ v, floorWritten high rules.tick = .ok v) :
    ∃ r, rules.bandRejection? mark limit = .ok (some r) := by
  obtain ⟨v, hceil⟩ := hceil
  obtain ⟨v', hfloor⟩ := hfloor
  have hwithin := within_eq_place hlow hx hhigh
  rw [decide_eq_false hout] at hwithin
  obtain ⟨below, hbelow⟩ : ∃ below, limit.lt low = .ok below :=
    ⟨_, lt_eq_place hx (isNumber_of_isFinite hlow)⟩
  cases below with
  | true =>
    exact ⟨_, (liftM_bind_of_eq_ok hband).trans <| (liftM_bind_of_eq_ok hwithin).trans <|
      (liftM_bind_of_eq_ok hbelow).trans (bind_of_eq_ok hceil)⟩
  | false =>
    exact ⟨_, (liftM_bind_of_eq_ok hband).trans <| (liftM_bind_of_eq_ok hwithin).trans <|
      (liftM_bind_of_eq_ok hbelow).trans (bind_of_eq_ok hfloor)⟩

/-- A limit price that is refused lies outside, and is sent to the edge on its side, moved to the
tick. -/
theorem bandRejection?_eq_some {r : Rejection} (hband : rules.band mark = .ok (low, high))
    (hlow : low.isFinite = true) (hx : limit.IsNumber) (hhigh : high.isFinite = true)
    (h : rules.bandRejection? mark limit = .ok (some r)) :
    ∃ v, r.nearestValid = some v ∧
      (limit.place < low.place ∧ ceilWritten low rules.tick = .ok v ∨
        high.place < limit.place ∧ floorWritten high rules.tick = .ok v) := by
  have hwithin := within_eq_place hlow hx hhigh
  have hbelow := lt_eq_place hx (isNumber_of_isFinite hlow)
  -- the computation is followed step by step, each with the answer that is known
  replace h := (liftM_bind_of_eq_ok hband).symm.trans h
  replace h := (liftM_bind_of_eq_ok hwithin).symm.trans h
  by_cases hin : low.place ≤ limit.place ∧ limit.place ≤ high.place
  · rw [decide_eq_true hin] at h
    cases h
  · rw [decide_eq_false hin] at h
    replace h := (liftM_bind_of_eq_ok hbelow).symm.trans h
    by_cases hlt : limit.place < low.place
    · rw [decide_eq_true hlt] at h
      obtain ⟨v, hv, h⟩ := bind_eq_ok h
      cases h
      exact ⟨v, rfl, .inl ⟨hlt, hv⟩⟩
    · rw [decide_eq_false hlt] at h
      obtain ⟨v, hv, h⟩ := bind_eq_ok h
      cases h
      exact ⟨v, rfl, .inr ⟨not_le.1 fun hle => hin ⟨not_lt.1 hlt, hle⟩, hv⟩⟩

/-- Where a multiple of the tick lies between the edges, a limit price that is refused is sent to
the nearest such multiple, which is not refused in turn. No limit price between the edges is
refused. All those outside are, unless edges and tick are only aligned over a power of ten that is
large. -/
theorem band_suggests (hdown : Between 0 1 rules.bandDown) (hmark : 0 < mark.value)
    (hband : rules.band mark = .ok (low, high)) (haligned : rules.Aligned e low high)
    (hinside : ∃ p, rules.InBand low high p) (hlimit : limit.IsNumber) :
    (∀ r, rules.bandRejection? mark limit = .ok (some r) →
      ∃ v, r.nearestValid = some v ∧ rules.bandRejection? mark v = .ok none ∧
        (limit.place < low.place ∧ IsLeast {p | rules.InBand low high p} v.value ∨
          high.place < limit.place ∧ IsGreatest {p | rules.InBand low high p} v.value) ∧
        (limit.isFinite = true →
          ∀ p, rules.InBand low high p → |v.value - limit.value| ≤ |p - limit.value|)) ∧
      (low.place ≤ limit.place ∧ limit.place ≤ high.place →
        rules.bandRejection? mark limit = .ok none) ∧
      (e ≤ 1 → ¬ (low.place ≤ limit.place ∧ limit.place ≤ high.place) →
        ∃ r, rules.bandRejection? mark limit = .ok (some r)) := by
  obtain ⟨p, hp⟩ := hinside
  have hnonneg := band_nonneg hdown hmark hband
  have hlow := haligned.low.isFinite
  have hhigh := haligned.high.isFinite
  -- the suggested price lies between the edges, so the check lets it pass
  have hkept {v : Decimal} (hfin : v.isFinite = true) (hv : rules.InBand low high v.value) :
      rules.bandRejection? mark v = .ok none := by
    refine bandRejection?_of_inside hband hlow (isNumber_of_isFinite hfin) hhigh ?_
    rw [place_of_isFinite hlow, place_of_isFinite hfin, place_of_isFinite hhigh]
    exact_mod_cast (⟨hv.low_le, hv.le_high⟩ : low.value ≤ v.value ∧ v.value ≤ high.value)
  refine ⟨fun r h => ?_, bandRejection?_of_inside hband hlow hlimit hhigh, fun he hout => ?_⟩
  -- below the band the least tick within it is nearest, above it the greatest
  · obtain ⟨v, hnearest, ⟨hbelow, hv⟩ | ⟨habove, hv⟩⟩ :=
      bandRejection?_eq_some hband hlow hlimit hhigh h
    · obtain ⟨hfin, hvalue⟩ := ceilWritten_of_isFinite haligned.inContext haligned.tick_pos hlow hv
      have hleast := isLeast_ceil haligned hnonneg hp
      rw [← hvalue] at hleast
      refine ⟨v, hnearest, hkept hfin hleast.1, .inl ⟨hbelow, hleast⟩, fun hlimfin p hp => ?_⟩
      rw [place_of_isFinite hlow, place_of_isFinite hlimfin] at hbelow
      have hlt : limit.value < low.value := by exact_mod_cast hbelow
      exact abs_sub_le_of_isLeast hleast (hlt.le.trans hleast.1.low_le) hp
    · obtain ⟨hfin, hvalue⟩ :=
        floorWritten_of_isFinite haligned.inContext haligned.tick_pos hhigh hv
      have hgreatest := isGreatest_floor haligned hnonneg hp
      rw [← hvalue] at hgreatest
      refine ⟨v, hnearest, hkept hfin hgreatest.1, .inr ⟨habove, hgreatest⟩, fun hlimfin p hp => ?_⟩
      rw [place_of_isFinite hhigh, place_of_isFinite hlimfin] at habove
      have hlt : high.value < limit.value := by exact_mod_cast habove
      exact abs_sub_le_of_isGreatest hgreatest (hgreatest.1.le_high.trans hlt.le) hp
  · exact bandRejection?_of_outside hband hlow hlimit hhigh hout
      (exists_ceilWritten haligned he hnonneg hp) (exists_floorWritten haligned he hnonneg hp)

end

namespace Sample

/-- A market with a large tick. -/
def largeTickRules : TradingRules where
  symbol := .name "BTCUSDT"
  step := 0.2
  tick := .finite false 1 5
  step_pos := rfl
  tick_pos := rfl
  marketStep_pos := isPositive_of_none

/-- A market with a tick below the context, that takes no limit price but the mark price. -/
def tinyTickRules : TradingRules where
  symbol := .name "BTCUSDT"
  step := 0.2
  tick := .finite false 1 (-1000030)
  bandDown := 0
  bandUp := 0
  step_pos := rfl
  tick_pos := rfl
  marketStep_pos := isPositive_of_none

end Sample

/-- A price below the band of the sample market is sent to the least tick within it. -/
theorem band_suggests_sample : ∃ r v,
    Sample.rules.bandRejection? 1001 900 = .ok (some r) ∧ r.nearestValid = some v ∧
      IsLeast {p | Sample.rules.InBand 950.95 1051.05 p} v.value ∧
      Sample.rules.bandRejection? 1001 v = .ok none := by
  have hdown : Between 0 1 Sample.rules.bandDown := by
    have hvalue : Sample.rules.bandDown.value = 5 * 10 ^ (-2 : ℤ) := value_positive 5 (-2)
    exact ⟨rfl, by rw [hvalue]; norm_num, by rw [hvalue]; norm_num⟩
  have hmark : 0 < (1001 : Decimal).value := by
    rw [value_ofNat]
    norm_num
  have hband : Sample.rules.band 1001 = .ok (950.95, 1051.05) := rfl
  have hlow : (950.95 : Decimal).value = 95095 * 10 ^ (-2 : ℤ) := value_positive 95095 (-2)
  have hhigh : (1051.05 : Decimal).value = 105105 * 10 ^ (-2 : ℤ) := value_positive 105105 (-2)
  have htick : Sample.rules.tick.value = 25 * 10 ^ (-1 : ℤ) := value_positive 25 (-1)
  have haligned : Sample.rules.Aligned (-2) 950.95 1051.05 :=
    ⟨by decide, ⟨rfl, 95095, hlow, by decide⟩, ⟨rfl, 105105, hhigh, by decide⟩,
      ⟨rfl, 250, by rw [htick]; norm_num, by decide⟩⟩
  have hinside : Sample.rules.InBand 950.95 1051.05 1000 :=
    ⟨⟨400, by rw [htick]; norm_num⟩, by rw [hlow]; norm_num, by rw [hhigh]; norm_num⟩
  have hlimit : (900 : Decimal).IsNumber := trivial
  have hbelow : (900 : Decimal).place < (950.95 : Decimal).place := by
    rw [place_of_isFinite rfl, place_of_isFinite rfl, hlow, value_ofNat]
    exact_mod_cast (by norm_num : (900 : ℚ) < 95095 * 10 ^ (-2 : ℤ))
  obtain ⟨hrefused, -, houtside⟩ := band_suggests hdown hmark hband haligned ⟨_, hinside⟩ hlimit
  obtain ⟨r, hr⟩ := houtside (by decide) fun hin => absurd hin.1 (not_le.2 hbelow)
  obtain ⟨v, hnearest, hkept, ⟨-, hleast⟩ | ⟨habove, -⟩, -⟩ := hrefused r hr
  · exact ⟨r, v, hr, hnearest, hleast, hkept⟩
  · rw [place_of_isFinite rfl, place_of_isFinite rfl, hhigh, value_ofNat] at habove
    exact absurd (WithTop.coe_lt_coe.1 (WithBot.coe_lt_coe.1 habove)) (by norm_num)

/-- Where the tick is large, the nearest price may have more digits with its decimals than the
precision, so that there is no answer. Where it lies below the context, the limit price may be sent
to zero, outside the edges. -/
theorem not_suggests_band :
    (∃ low high,
      Sample.largeTickRules.band (finite false 1 30) = .ok (low, high) ∧
        Sample.largeTickRules.Aligned 5 low high ∧
        (∃ p, Sample.largeTickRules.InBand low high p) ∧
        high.place < (finite false 2 30).place ∧
        Sample.largeTickRules.bandRejection? (finite false 1 30) (finite false 2 30) =
          .error (.arithmetic .invalidOperation)) ∧
      ∃ edge r,
        Sample.tinyTickRules.band (finite false 5 (-1000026)) = .ok (edge, edge) ∧
          edge.FewDigits (-1000030) ∧ Sample.tinyTickRules.tick.FewDigits (-1000030) ∧
          Sample.tinyTickRules.InBand edge edge edge.value ∧
          Sample.tinyTickRules.bandRejection? (finite false 5 (-1000026)) 1 = .ok (some r) ∧
          r.nearestValid = some 0 ∧ ¬ Sample.tinyTickRules.InBand edge edge (value 0) := by
  -- a tick whose multiples have too many digits, then an edge below the last place of the context
  constructor
  · have hlow : (finite false 95 28).value = 95 * 10 ^ (28 : ℤ) := value_positive 95 28
    have hhigh : (finite false 105 28).value = 105 * 10 ^ (28 : ℤ) := value_positive 105 28
    have htick : Sample.largeTickRules.tick.value = 1 * 10 ^ (5 : ℤ) := value_positive 1 5
    have hlimit : (finite false 2 30).value = 2 * 10 ^ (30 : ℤ) := value_positive 2 30
    refine ⟨finite false 95 28, finite false 105 28, rfl, ⟨by decide,
      ⟨rfl, 95 * 10 ^ 23, ?_, by decide⟩, ⟨rfl, 105 * 10 ^ 23, ?_, by decide⟩,
      ⟨rfl, 1, ?_, by decide⟩⟩, ⟨_, ⟨10 ^ 25, rfl⟩, ?_, ?_⟩, ?_, rfl⟩
    · rw [hlow]
      norm_num
    · rw [hhigh]
      norm_num
    · rw [htick]
      norm_num
    · rw [hlow, htick]
      norm_num
    · rw [hhigh, htick]
      norm_num
    · rw [place_of_isFinite rfl, place_of_isFinite rfl, hhigh, hlimit]
      exact_mod_cast (by norm_num : (105 * 10 ^ (28 : ℤ) : ℚ) < 2 * 10 ^ (30 : ℤ))
  · have hedge : (finite false 5 (-1000026)).value = 50000 * 10 ^ (-1000030 : ℤ) := by
      rw [value_positive, show (-1000026 : ℤ) = 4 + -1000030 by decide, ten_zpow_add, ← mul_assoc]
      norm_num
    have htick : Sample.tinyTickRules.tick.value = 1 * 10 ^ (-1000030 : ℤ) :=
      value_positive 1 (-1000030)
    have hunit := ten_zpow_pos (-1000030)
    refine ⟨finite false 5 (-1000026), _, rfl, ⟨rfl, 50000, hedge, by decide⟩,
      ⟨rfl, 1, htick, by decide⟩, ⟨⟨50000, ?_⟩, le_rfl, le_rfl⟩, rfl, rfl, fun hzero => ?_⟩
    · rw [hedge, htick, one_mul]
      rfl
    · have hle := hzero.low_le
      rw [hedge, value_ofNat, Nat.cast_zero] at hle
      exact absurd hle (not_le.2 (mul_pos (by norm_num) hunit))

end TradingRules

end OrderTicket

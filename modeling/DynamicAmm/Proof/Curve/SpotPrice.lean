import DynamicAmm.Proof.Curve.Bracket

/-!
# The spot price of a stable pool

The amount without slippage is the source amount at a spot price in closed form, a quotient of two
polynomials in the balances and the invariant. It has the shape of the slope of the curve, with half of
the amplification's coefficient of the invariant that the solvers have. At equal balances that coefficient
cancels, and only there.
-/

namespace DynamicAmm.Client

open Js BoundedLoop StableCurve

namespace StableSwap

variable (curve : StableSwap) (x y D : Int)

/-- The quotient that `computeOutAmountWithoutSlippage` multiplies the source amount by. -/
def spotNumerator : Int :=
  (2 * (curve.amp * 16) * x + curve.amp * 16 * y + (D * 4 - D * curve.amp * 16)) * y

def spotDenominator : Int :=
  (curve.amp * 16 * x + (2 * (curve.amp * 16) * y + (D * 4 - D * curve.amp * 16))) * x

theorem spotDenominator_eq : curve.spotDenominator x y D = curve.spotNumerator y x D := by
  simp only [spotNumerator, spotDenominator]
  ring

variable {curve x y D}

theorem computeOutAmountWithoutSlippage_eq_ok {s w : Int} :
    curve.computeOutAmountWithoutSlippage s x y D = .ok w ↔
      curve.amp.natAbs < 2 ^ 53 ∧ curve.spotDenominator x y D ≠ 0 ∧
        (s * curve.spotNumerator x y D).tdiv (curve.spotDenominator x y D) = w := by
  simp only [computeOutAmountWithoutSlippage, bind_eq_ok, BN.div_eq_ok, BN.ofNumber]
  constructor
  · rintro ⟨amp, hamp, hdiv⟩
    split at hamp
    · rename_i hsafe
      cases hamp
      exact ⟨hsafe, hdiv⟩
    · cases hamp
  · rintro ⟨hsafe, hdiv⟩
    exact ⟨curve.amp, if_pos hsafe, hdiv⟩

/-- Up to a common factor, the numerator is the derivative of the curve with `16 * amp` in place of
`8 * amp` in front of the invariant. -/
theorem spotNumerator_eq :
    curve.spotNumerator x y D = -2 * polyX (curve.amp * 2) x y D - 4 * D * y := by
  simp only [spotNumerator, polyX]
  ring

theorem polyX_neg (hamp : 1 ≤ curve.amp) (hx : 1 ≤ x) (hy : 1 ≤ y) (hle : D ≤ x + y) :
    polyX (curve.amp * 2) x y D < 0 := by
  have h1 : (curve.amp * 2 - 1) * D ≤ (curve.amp * 2 - 1) * (x + y) :=
    mul_le_mul_of_nonneg_left hle (by omega)
  have h2 : 0 < curve.amp * 2 * x + (x + y) := by
    have : 0 < curve.amp * 2 * x := by positivity
    omega
  have h3 : 0 < y * (curve.amp * 2 * (2 * x + y) - (curve.amp * 2 - 1) * D) :=
    mul_pos (by omega) (by linarith)
  simp only [polyX]
  linarith

theorem spotNumerator_pos (hamp : 1 ≤ curve.amp) (hx : 1 ≤ x) (hy : 1 ≤ y) (hD : 1 ≤ D)
    (hle : D ≤ x + y) : 0 < curve.spotNumerator x y D := by
  have h1 : curve.amp * D ≤ curve.amp * (x + y) := mul_le_mul_of_nonneg_left hle (by omega)
  have h2 : 0 < curve.amp * x := by positivity
  have h3 : 0 < (16 * (curve.amp * (2 * x + y) - curve.amp * D) + 4 * D) * y :=
    mul_pos (by linarith) (by omega)
  simp only [spotNumerator]
  linarith

/-! ### The slope -/

/-- The quotient is the quotient of the derivatives exactly when the balances are equal. -/
theorem spot_cross_iff (hamp : 1 ≤ curve.amp) (hx : 1 ≤ x) (hy : 1 ≤ y) (hD : 1 ≤ D) :
    curve.spotNumerator x y D * polyX (curve.amp * 2) y x D =
      polyX (curve.amp * 2) x y D * curve.spotNumerator y x D ↔ x = y := by
  have hfactor : curve.spotNumerator x y D * polyX (curve.amp * 2) y x D -
      polyX (curve.amp * 2) x y D * curve.spotNumerator y x D =
        32 * (D * (x * y) * curve.amp) * (y - x) := by
    rw [spotNumerator_eq, spotNumerator_eq]
    simp only [polyX]
    ring
  have hpos : 0 < 32 * (D * (x * y) * curve.amp) := by positivity
  rw [← sub_eq_zero, hfactor, mul_eq_zero]
  constructor
  · intro hzero
    rcases hzero with h | h
    · omega
    · omega
  · intro heq
    exact Or.inr (by omega)

theorem isSlope_spot_iff (hamp : 1 ≤ curve.amp) (hx : 1 ≤ x) (hy : 1 ≤ y) (hD : 1 ≤ D) (hle : D ≤ x + y) :
    IsSlope (fun x y => poly (curve.amp * 2 : ℝ) x y D) x y
      ((curve.spotNumerator x y D : ℝ) / curve.spotDenominator x y D) ↔ x = y := by
  have hcast : ∀ x y : Int, ((polyX (curve.amp * 2) x y D : Int) : ℝ) = polyX (curve.amp * 2 : ℝ) x y D := by
    intro x y
    simp only [polyX]
    push_cast
    ring
  have hne : polyX (curve.amp * 2 : ℝ) y x D ≠ 0 := by
    rw [← hcast]
    exact_mod_cast (polyX_neg hamp hy hx (by omega)).ne
  have hden : (curve.spotNumerator y x D : ℝ) ≠ 0 := by
    exact_mod_cast (spotNumerator_pos hamp hy hx hD (by omega)).ne'
  rw [isSlope_poly_iff, spotDenominator_eq, ← spot_cross_iff hamp hx hy hD, div_eq_div_iff hden hne,
    ← hcast, ← hcast]
  constructor
  · rintro ⟨_, h⟩
    exact_mod_cast h
  · intro h
    refine ⟨?_, by exact_mod_cast h⟩
    rwa [hcast]

/-! ### Equal balances -/

theorem computeD_equal (hamp : 1 ≤ curve.amp) (hx : 1 ≤ x) : computeD curve.amp x x = .ok (2 * x) := by
  have hratio : flooredRatio x x (x + x) = x + x := by
    have h1 : (x + x) * (x + x) / (x * 2) = x + x := Int.ediv_eq_of_eq_mul_left (by omega) (by ring)
    rw [flooredRatio, h1]
    exact Int.ediv_eq_of_eq_mul_left (by omega) (by ring)
  have hloop : loopWhile Iterate.moving (computeDStep (curve.amp * 2) x x) maxIters ⟨0, x + x⟩ =
      .ok ⟨x + x, x + x⟩ := computeD_loop_of_ratio (by omega) hx hx hratio 19
  have hsum : x + x ≠ 0 := by omega
  rw [two_mul]
  simp only [computeD, if_neg hsum, hloop]
  rfl

theorem spot_equal {s w : Int}
    (h : curve.computeOutAmountWithoutSlippage s x x (2 * x) = .ok w) : w = s := by
  obtain ⟨-, hne, hw⟩ := computeOutAmountWithoutSlippage_eq_ok.mp h
  rw [spotDenominator_eq] at hne hw
  rw [← hw, Int.mul_tdiv_cancel _ hne]

/-- What a swap leaves is above the curve, and the curve is above its tangent. -/
theorem outAmount_le_of_equal (hamp : 1 ≤ curve.amp) (hx : 1 ≤ x) {s t : Int} (hs : 0 ≤ s) (ht : 1 ≤ t)
    (h : poly (curve.amp * 2) (x + s) t (2 * x) < 0) : x - t ≤ s := by
  by_contra hmore
  have hsum := @poly_sum_nonneg _ _ _ _ (curve.amp * 2) (x + s) t (by omega) (by omega)
  have hmono := poly_mono (by omega : 1 ≤ curve.amp * 2) (by omega : 0 ≤ x + s) (by omega : 0 ≤ t)
    (by omega : 0 ≤ x + s + t) (by omega : x + s + t ≤ 2 * x)
  omega

/-! ### Never beating the spot price -/

variable {decoders : StakeDecoders} {depeg : Depeg} {direction : TradeDirection} {s : Int}

/-- A swap pays at most the amount without slippage, which is the source amount at the slope of the curve
that the solvers solve. -/
structure NeverBeatsSpot (decoders : StakeDecoders) (curve : StableSwap) (depeg : Depeg)
    (direction : TradeDirection) (s x y : Int) : Prop where
  le_spot : ∀ D w out, computeD curve.amp x y = .ok D →
    curve.computeOutAmountWithoutSlippage s x y D = .ok w →
    (curve.computeOutAmount decoders s x y direction depeg).1 = .ok out → 0 < out.outAmount →
    out.outAmount ≤ w ∧ ∃ impact, out.priceImpact = some impact ∧ 0 ≤ impact ∧ impact < 1
  slope : ∀ D, computeD curve.amp x y = .ok D →
    IsSlope (fun x y => poly (curve.amp * 2 : ℝ) x y D) x y
      ((curve.spotNumerator x y D : ℝ) / curve.spotDenominator x y D)

theorem priceImpact_mem {amount spot : Int} (hamount : 0 < amount) (hle : amount ≤ spot) :
    ∃ impact, getPriceImpact amount spot = some impact ∧ 0 ≤ impact ∧ impact < 1 := by
  have hspot : (0 : ℚ) < spot := by exact_mod_cast (by omega : 0 < spot)
  refine ⟨((spot - amount : Int) : ℚ) / spot, ?_, ?_, ?_⟩
  · rw [getPriceImpact, if_neg (by omega)]
  · exact div_nonneg (by exact_mod_cast (by omega : 0 ≤ spot - amount)) hspot.le
  · rw [div_lt_one hspot]
    exact_mod_cast (by omega : spot - amount < spot)

theorem neverBeatsSpot_of_equal (hunit : Unscaled curve depeg) (hamp : 1 ≤ curve.amp) (hx : 1 ≤ x)
    (hs : 1 ≤ s) : NeverBeatsSpot decoders curve depeg direction s x x where
  le_spot D w out hD hw hout hpos := by
    obtain rfl : 2 * x = D := Except.ok.inj ((computeD_equal hamp hx).symm.trans hD)
    obtain rfl := spot_equal hw
    obtain ⟨D, hD', -, -, hleft, hbelow⟩ := computeOutAmount_above hunit hamp hx hx (by omega) hout
    obtain rfl : 2 * x = D := Except.ok.inj (hD.symm.trans hD')
    have hle := outAmount_le_of_equal hamp hx (by omega) hleft hbelow
    rw [sub_sub_cancel] at hle
    refine ⟨hle, ?_⟩
    change (curve.withRefreshed decoders _ depeg).1 = .ok out at hout
    rw [withRefreshed_none decoders curve hunit.depegType, computeOutAmountAt_eq_ok] at hout
    simp only [hunit.upscaleSource, hunit.upscaleDestination, hunit.downscaleDestination,
      Except.ok.injEq] at hout
    obtain ⟨D', hD'', -, -, w', hw', -, _, rfl, himpact⟩ := hout
    obtain rfl : 2 * x = D' := Except.ok.inj (hD.symm.trans hD'')
    obtain rfl := spot_equal hw'
    rw [himpact]
    exact priceImpact_mem hpos hle
  slope D hD := by
    obtain rfl : 2 * x = D := Except.ok.inj ((computeD_equal hamp hx).symm.trans hD)
    exact (isSlope_spot_iff hamp hx hx (by omega) (by omega)).mpr rfl

theorem neverBeatsSpot_iff (decoders : StakeDecoders) (direction : TradeDirection)
    (hunit : Unscaled curve depeg) (hamp : 1 ≤ curve.amp) (hx : 1 ≤ x) (hy : 1 ≤ y) (hs : 1 ≤ s) :
    NeverBeatsSpot decoders curve depeg direction s x y ↔ x = y := by
  constructor
  · intro h
    obtain ⟨-, D, hD, hpos, hle, -⟩ := computeD_brackets hamp hx hy
    exact (isSlope_spot_iff hamp hx hy hpos hle).mp (h.slope D hD)
  · intro heq
    subst heq
    exact neverBeatsSpot_of_equal hunit hamp hx hs

theorem neverBeatsSpot_iff_sample :
    NeverBeatsSpot sampleDecoders (sampleCurve 100) noDepeg .aToB 1000 1000000 1000000 ∧
      ¬ NeverBeatsSpot sampleDecoders (sampleCurve 100) noDepeg .aToB 1000 1000000 3000000 := by
  have hiff (y : Int) (hy : 1 ≤ y) :
      NeverBeatsSpot sampleDecoders (sampleCurve 100) noDepeg .aToB 1000 1000000 y ↔ 1000000 = y :=
    neverBeatsSpot_iff sampleDecoders .aToB (sampleCurve_unscaled 100) (by decide) (by decide) hy (by decide)
  constructor
  · exact (hiff 1000000 (by decide)).mpr rfl
  · intro hbeats
    exact absurd ((hiff 3000000 (by decide)).mp hbeats) (by decide)

/-- Out of a pool of one to three, amplified once, a swap of a thousandth of the source balance pays a
sixth more than the spot price promises. -/
theorem outAmount_beats_spot :
    computeD 1 1000000000 3000000000 = .ok 3717778143 ∧
      (sampleCurve 1).computeOutAmountWithoutSlippage 1000000 1000000000 3000000000 3717778143 =
        .ok 1575385 ∧
      ((sampleCurve 1).computeOutAmount sampleDecoders 1000000 1000000000 3000000000 .aToB noDepeg).1 =
        .ok ⟨1831986, some (-256601 / 1575385)⟩ ∧
      ¬ NeverBeatsSpot sampleDecoders (sampleCurve 1) noDepeg .aToB 1000000 1000000000 3000000000 := by
  have hD : computeD 1 1000000000 3000000000 = .ok 3717778143 := by decide
  have hspot : (sampleCurve 1).computeOutAmountWithoutSlippage 1000000 1000000000 3000000000 3717778143 =
      .ok 1575385 := by decide
  have hout : ((sampleCurve 1).computeOutAmount sampleDecoders 1000000 1000000000 3000000000 .aToB
      noDepeg).1 = .ok ⟨1831986, some (-256601 / 1575385)⟩ := by decide +kernel
  refine ⟨hD, hspot, hout, ?_⟩
  intro h
  obtain ⟨hle, -⟩ := h.le_spot _ _ _ hD hspot hout (by decide)
  exact absurd hle (by decide)

end StableSwap

end DynamicAmm.Client

import DynamicAmm.Proof.Curve.Swaps

/-!
# Swapping there and back

The second swap computes an invariant of its own from the balances the first one left, which is at least
the first one's. So the balances after both swaps lie strictly above the curve of the first invariant
`D`. That is all that can be said: where `D` is rounded down by more than one unit of a balance is worth,
the two swaps together may return more than was put in.
-/

namespace DynamicAmm.Client

open Js StableCurve

namespace StableSwap

variable {curve : StableSwap} {depeg : Depeg} {s x y D : Int} {out back : OutResult}

/-- The swap back leaves the source balance above the curve that the first swap computed. -/
theorem swapBack_above {decoders : StakeDecoders} (hunit : Unscaled curve depeg) (hamp : 1 ≤ curve.amp)
    (hx : 1 ≤ x) (hy : 1 ≤ y) (hs : 0 ≤ s) (ho : 0 ≤ out.outAmount)
    (hfirst : (curve.computeOutAmount decoders s x y .aToB depeg).1 = .ok out)
    (hsecond : (curve.computeOutAmount decoders out.outAmount (y - out.outAmount) (x + s) .bToA
      depeg).1 = .ok back)
    (hD : computeD curve.amp x y = .ok D) :
    1 ≤ x + s - back.outAmount ∧ poly (curve.amp * 2) (x + s - back.outAmount) y D < 0 := by
  obtain ⟨hleft, D₀, -, D₂, hD₀, -, hD₂, -, hle⟩ :=
    computeOutAmount_computeD_le hunit hamp hx hy hs hfirst
  rw [hD, Except.ok.injEq] at hD₀
  subst hD₀
  obtain ⟨D', hD', -, -, hback, hbelow⟩ :=
    computeOutAmount_above hunit hamp hleft (by omega) ho hsecond
  rw [hD₂, Except.ok.injEq] at hD'
  subst hD'
  rw [sub_add_cancel, poly_comm] at hbelow
  refine ⟨hback, ?_⟩
  obtain ⟨D₁, hD₁, hpos, -⟩ := computeD_ok hamp hx hy
  rw [hD, Except.ok.injEq] at hD₁
  subst hD₁
  exact (poly_mono (by omega) (by omega) (by omega) (by omega) hle).trans_lt hbelow

/-- A balance above the curve is at least any balance whose predecessor is not. -/
theorem le_of_poly_neg {amp x z d : Int} (hamp : 1 ≤ amp) (hd : 0 ≤ d) (hz : 1 ≤ z)
    (hbelow : poly (amp * 2) z y d < 0) (hy : 0 ≤ y) (h : 0 ≤ poly (amp * 2) (x - 1) y d) : x ≤ z := by
  by_contra hlt
  have hle := poly_nonneg_of_le (by omega) (by omega) hy hd (by omega : z ≤ x - 1) h
  omega

/-- Swapping there and back: what is left is above the curve of the first `D`. Where `D` is at least the
exact invariant of one unit less of a balance, the swaps return at most what was put in, and a swap of
nothing pays nothing. -/
theorem swapBack_le (decoders : StakeDecoders) (hunit : Unscaled curve depeg) (hamp : 1 ≤ curve.amp)
    (hx : 1 ≤ x) (hy : 1 ≤ y) (hs : 0 ≤ s) (ho : 0 ≤ out.outAmount)
    (hfirst : (curve.computeOutAmount decoders s x y .aToB depeg).1 = .ok out)
    (hsecond : (curve.computeOutAmount decoders out.outAmount (y - out.outAmount) (x + s) .bToA
      depeg).1 = .ok back)
    (hD : computeD curve.amp x y = .ok D) :
    poly (curve.amp * 2) (x + s - back.outAmount) y D < 0 ∧
      (0 ≤ poly (curve.amp * 2) (x - 1) y D → back.outAmount ≤ s) ∧
      (s = 0 → 0 ≤ poly (curve.amp * 2) x (y - 1) D → out.outAmount = 0) := by
  obtain ⟨hback, hbelow⟩ := swapBack_above hunit hamp hx hy hs ho hfirst hsecond hD
  obtain ⟨D₀, hD₀, hpos, -, hleft, hbelow₁⟩ := computeOutAmount_above hunit hamp hx hy hs hfirst
  rw [hD, Except.ok.injEq] at hD₀
  subst hD₀
  refine ⟨hbelow, ?_, ?_⟩
  · intro hsource
    have hle := le_of_poly_neg hamp (by omega) hback hbelow (by omega) hsource
    omega
  · intro hzero hdestination
    subst hzero
    rw [add_zero, poly_comm] at hbelow₁
    rw [poly_comm] at hdestination
    have hle := le_of_poly_neg hamp (by omega) hleft hbelow₁ (by omega) hdestination
    omega

theorem swapBack_le_sample :
    poly (200 : Int) (1000000 + 1000 - 998) 1000000 2000000 < 0 ∧
      (0 ≤ poly (200 : Int) (1000000 - 1) 1000000 2000000 → (998 : Int) ≤ 1000) ∧
      ((1000 : Int) = 0 → 0 ≤ poly (200 : Int) 1000000 (1000000 - 1) 2000000 → (999 : Int) = 0) := by
  have hfirst : ((sampleCurve 100).computeOutAmount sampleDecoders 1000 1000000 1000000 .aToB
      noDepeg).1 = .ok ⟨999, some (1 / 1000)⟩ := by decide +kernel
  have hsecond : ((sampleCurve 100).computeOutAmount sampleDecoders 999 (1000000 - 999)
      (1000000 + 1000) .bToA noDepeg).1 = .ok ⟨998, some (1 / 999)⟩ := by decide +kernel
  have hD : computeD 100 1000000 1000000 = .ok 2000000 := by decide
  have h := swapBack_le sampleDecoders (sampleCurve_unscaled 100) (by decide) (by decide) (by decide)
    (by decide) (by decide) hfirst hsecond hD
  exact h

/-- A swap of nothing that pays 160 out of a scarce source, and a swap of 2 that pays nothing and whose
way back pays 8. -/
theorem swapBack_profits :
    ((sampleCurve 1).computeOutAmount sampleDecoders 0 16081523 4163421733528024 .aToB noDepeg).1 =
        .ok ⟨160, none⟩ ∧
      ((sampleCurve 824).computeOutAmount sampleDecoders 2 100569944292726325 52889258407 .aToB
        noDepeg).1 = .ok ⟨0, none⟩ ∧
      ((sampleCurve 824).computeOutAmount sampleDecoders 0 (52889258407 - 0) (100569944292726325 + 2)
        .bToA noDepeg).1 = .ok ⟨8, none⟩ ∧
      ¬ (8 : Int) ≤ 2 := by
  refine ⟨?_, ?_, ?_, ?_⟩
  · decide +kernel
  · decide +kernel
  · decide +kernel
  · decide

end StableSwap

end DynamicAmm.Client

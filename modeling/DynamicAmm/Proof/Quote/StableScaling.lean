import DynamicAmm.Client.Calculator
import DynamicAmm.Quote.SwapCurve

/-!
# Scaling in the stable curve of the Rust quote

Each token is scaled by one factor, its multiplier times its share of the depeg price, although the code
multiplies and divides in two steps. Multiplying fails exactly when the product is no `u128`, dividing
never does, and a division undoes a multiplication. So a library that keeps one unit of the scaled
destination balance makes the curve keep one unit of the unscaled one.
-/

namespace DynamicAmm.Quote

open Rust Program

namespace StableSwap

variable (curve : StableSwap)

/-! ### One factor a token -/

def scaleA : Nat :=
  curve.tokenMultiplier.tokenAMultiplier.toNat * if curve.depeg.depegType ≠ .none then depegPrecision else 1

def scaleB : Nat :=
  curve.tokenMultiplier.tokenBMultiplier.toNat *
    if curve.depeg.depegType ≠ .none then curve.depeg.baseVirtualPrice.toNat else 1

/-- The multipliers and the price of a pool are never zero. -/
structure Positive : Prop where
  tokenA : 1 ≤ curve.tokenMultiplier.tokenAMultiplier
  tokenB : 1 ≤ curve.tokenMultiplier.tokenBMultiplier
  price : 1 ≤ curve.depeg.baseVirtualPrice

variable {curve} {amount scaled : Nat}

theorem checkedMul128_twice {a b : Nat} (hb : 1 ≤ b) :
    (checkedMul128 amount a >>= fun product => checkedMul128 product b) = checkedMul128 amount (a * b) := by
  have hle : amount * a ≤ amount * (a * b) := by
    rw [← Nat.mul_assoc]
    exact Nat.le_mul_of_pos_right _ hb
  simp only [checkedMul128, Option.bind_eq_bind]
  by_cases hfirst : amount * a < 2 ^ 128
  · rw [if_pos hfirst, Option.bind_some, Nat.mul_assoc]
  · rw [if_neg hfirst, if_neg (by omega), Option.bind_none]

theorem checkedDiv128_twice {a b : Nat} (hb : 1 ≤ b) :
    (checkedDiv128 amount a >>= fun quotient => checkedDiv128 quotient b) = checkedDiv128 amount (a * b) := by
  simp only [checkedDiv128, Option.bind_eq_bind]
  by_cases ha : a = 0
  · rw [if_pos ha, if_pos (by rw [ha, Nat.zero_mul]), Option.bind_none]
  · rw [if_neg ha, if_neg (Nat.mul_ne_zero ha (by omega)), Option.bind_some, if_neg (by omega),
      Nat.div_div_eq_div_mul]

theorem upscaleTokenA_eq : curve.upscaleTokenA amount = checkedMul128 amount curve.scaleA := by
  simp only [upscaleTokenA, TokenMultiplier.upscaleTokenA, scaleA]
  split
  · exact checkedMul128_twice (by decide)
  · rw [Nat.mul_one]
    exact Option.bind_fun_some _

theorem downscaleTokenA_eq : curve.downscaleTokenA amount = checkedDiv128 amount curve.scaleA := by
  simp only [downscaleTokenA, TokenMultiplier.downscaleTokenA, scaleA]
  split
  · exact checkedDiv128_twice (by decide)
  · rw [Nat.mul_one]
    exact Option.bind_fun_some _

section

variable (hpositive : curve.Positive)

include hpositive

theorem Positive.price_pos : 1 ≤ curve.depeg.baseVirtualPrice.toNat :=
  UInt64.le_iff_toNat_le.mp hpositive.price

theorem upscaleTokenB_eq : curve.upscaleTokenB amount = checkedMul128 amount curve.scaleB := by
  simp only [upscaleTokenB, TokenMultiplier.upscaleTokenB, scaleB]
  split
  · exact checkedMul128_twice hpositive.price_pos
  · rw [Nat.mul_one]
    exact Option.bind_fun_some _

theorem downscaleTokenB_eq : curve.downscaleTokenB amount = checkedDiv128 amount curve.scaleB := by
  simp only [downscaleTokenB, TokenMultiplier.downscaleTokenB, scaleB]
  split
  · exact checkedDiv128_twice hpositive.price_pos
  · rw [Nat.mul_one]
    exact Option.bind_fun_some _

theorem scaleA_pos : 1 ≤ curve.scaleA := by
  have hmultiplier : 1 ≤ curve.tokenMultiplier.tokenAMultiplier.toNat :=
    UInt64.le_iff_toNat_le.mp hpositive.tokenA
  simp only [scaleA]
  split
  · exact Nat.mul_pos hmultiplier (by decide)
  · exact Nat.mul_pos hmultiplier (by decide)

theorem scaleB_pos : 1 ≤ curve.scaleB := by
  have hmultiplier : 1 ≤ curve.tokenMultiplier.tokenBMultiplier.toNat :=
    UInt64.le_iff_toNat_le.mp hpositive.tokenB
  simp only [scaleB]
  split
  · exact Nat.mul_pos hmultiplier hpositive.price_pos
  · exact Nat.mul_pos hmultiplier (by decide)

end

theorem checkedDiv128_checkedMul128 {scale : Nat} (hscale : 1 ≤ scale)
    (h : checkedMul128 amount scale = some scaled) : checkedDiv128 scaled scale = some amount := by
  obtain ⟨-, rfl⟩ := checkedMul128_eq_some.mp h
  exact checkedDiv128_eq_some.mpr ⟨by omega, Nat.mul_div_cancel _ hscale⟩

/-! ### The two roles -/

def sourceScale (curve : StableSwap) : TradeDirection → Nat
  | .aToB => curve.scaleA
  | .bToA => curve.scaleB

def destinationScale (curve : StableSwap) : TradeDirection → Nat
  | .aToB => curve.scaleB
  | .bToA => curve.scaleA

def saberAmount (libraries : CurveLibraries) (curve : StableSwap) (direction : TradeDirection)
    (source swapSource swapDestination : UInt64) : Option Nat :=
  libraries.saberSwapTo2 curve.toSaber (source.toNat * curve.sourceScale direction)
    (swapSource.toNat * curve.sourceScale direction)
    (swapDestination.toNat * curve.destinationScale direction) saberFees

variable {libraries : CurveLibraries} {direction : TradeDirection} {source swapSource swapDestination : UInt64}

theorem destinationScale_pos (hpositive : curve.Positive) : 1 ≤ curve.destinationScale direction := by
  cases direction with
  | aToB => exact scaleB_pos hpositive
  | bToA => exact scaleA_pos hpositive

/-- The curve scales up, asks the library, and scales down. -/
theorem swap_eq (hpositive : curve.Positive) :
    curve.swap libraries source swapSource swapDestination direction = (do
      let upscaledSource ← checkedMul128 source.toNat (curve.sourceScale direction)
      let upscaledSwapSource ← checkedMul128 swapSource.toNat (curve.sourceScale direction)
      let upscaledSwapDestination ← checkedMul128 swapDestination.toNat (curve.destinationScale direction)
      let amountSwapped ← libraries.saberSwapTo2 curve.toSaber upscaledSource upscaledSwapSource
        upscaledSwapDestination saberFees
      let downscaled ← checkedDiv128 amountSwapped (curve.destinationScale direction)
      let newSwapSourceAmount ← checkedAdd128 swapSource.toNat source.toNat
      let newSwapDestinationAmount ← checkedSub128 swapDestination.toNat downscaled
      some {
        newSwapSourceAmount
        newSwapDestinationAmount
        sourceAmountSwapped := source.toNat
        destinationAmountSwapped := downscaled }) := by
  cases direction with
  | aToB =>
      simp only [swap, upscaleTokenA_eq, upscaleTokenB_eq hpositive, downscaleTokenB_eq hpositive,
        sourceScale, destinationScale]
  | bToA =>
      simp only [swap, upscaleTokenA_eq, upscaleTokenB_eq hpositive, downscaleTokenA_eq, sourceScale,
        destinationScale]

/-- An upscaled amount that is no `u128`. -/
def UpscaleOverflows (curve : StableSwap) (direction : TradeDirection)
    (source swapSource swapDestination : UInt64) : Prop :=
  2 ^ 128 ≤ source.toNat * curve.sourceScale direction ∨
    2 ^ 128 ≤ swapSource.toNat * curve.sourceScale direction ∨
    2 ^ 128 ≤ swapDestination.toNat * curve.destinationScale direction

theorem swap_eq_of_amount (hpositive : curve.Positive)
    (hfit : ¬ curve.UpscaleOverflows direction source swapSource swapDestination) {amount : Nat}
    (hsaber : saberAmount libraries curve direction source swapSource swapDestination = some amount)
    (hkept : amount + 1 ≤ swapDestination.toNat * curve.destinationScale direction) :
    amount / curve.destinationScale direction < swapDestination.toNat ∧
      curve.swap libraries source swapSource swapDestination direction = some {
        newSwapSourceAmount := swapSource.toNat + source.toNat
        newSwapDestinationAmount := swapDestination.toNat - amount / curve.destinationScale direction
        sourceAmountSwapped := source.toNat
        destinationAmountSwapped := amount / curve.destinationScale direction } := by
  have hscale : 1 ≤ curve.destinationScale direction := destinationScale_pos hpositive
  have hlt : amount / curve.destinationScale direction < swapDestination.toNat :=
    (Nat.div_lt_iff_lt_mul hscale).mpr hkept
  simp only [UpscaleOverflows, not_or, not_le] at hfit
  obtain ⟨hfit₁, hfit₂, hfit₃⟩ := hfit
  have hadd : swapSource.toNat + source.toNat < 2 ^ 128 := by
    have := swapSource.toNat_lt
    have := source.toNat_lt
    omega
  refine ⟨hlt, ?_⟩
  rw [swap_eq hpositive, checkedMul128_eq_some.mpr ⟨hfit₁, rfl⟩, checkedMul128_eq_some.mpr ⟨hfit₂, rfl⟩,
    checkedMul128_eq_some.mpr ⟨hfit₃, rfl⟩, checkedAdd128_eq_some.mpr ⟨hadd, rfl⟩]
  simp only [Option.bind_eq_bind, Option.bind_some]
  rw [saberAmount] at hsaber
  rw [hsaber, Option.bind_some, checkedDiv128_eq_some.mpr ⟨by omega, rfl⟩, Option.bind_some,
    checkedSub128_eq_some.mpr (Nat.sub_add_cancel hlt.le), Option.bind_some]

/-- No upscale overflows and the library returns: the only ways for the curve to get past it. -/
theorem amount_of_swap (hpositive : curve.Positive) {result : SwapResult}
    (h : curve.swap libraries source swapSource swapDestination direction = some result) :
    ¬ curve.UpscaleOverflows direction source swapSource swapDestination ∧
      ∃ amount, saberAmount libraries curve direction source swapSource swapDestination = some amount := by
  rw [swap_eq hpositive] at h
  simp only [Option.bind_eq_bind, Option.bind_eq_some_iff, checkedMul128_eq_some] at h
  obtain ⟨_, ⟨hfit₁, rfl⟩, _, ⟨hfit₂, rfl⟩, _, ⟨hfit₃, rfl⟩, amount, hsaber, -⟩ := h
  refine ⟨?_, amount, hsaber⟩
  simp only [UpscaleOverflows, not_or, not_le]
  exact ⟨hfit₁, hfit₂, hfit₃⟩

/-- The library pays less than the destination balance. -/
def SaberKeepsOne (libraries : CurveLibraries) (curve : StableSwap) (direction : TradeDirection)
    (source swapSource swapDestination : UInt64) : Prop :=
  ∀ amount, saberAmount libraries curve direction source swapSource swapDestination = some amount →
    amount + 1 ≤ swapDestination.toNat * curve.destinationScale direction

theorem swap_keeps_one (hpositive : curve.Positive)
    (hsaber : SaberKeepsOne libraries curve direction source swapSource swapDestination) :
    (∀ amount, ¬ curve.UpscaleOverflows direction source swapSource swapDestination →
      saberAmount libraries curve direction source swapSource swapDestination = some amount →
      ∃ result, curve.swap libraries source swapSource swapDestination direction = some result ∧
        result.destinationAmountSwapped = amount / curve.destinationScale direction ∧
        result.destinationAmountSwapped < swapDestination.toNat ∧
        result.newSwapDestinationAmount + result.destinationAmountSwapped = swapDestination.toNat ∧
        0 < result.newSwapDestinationAmount ∧
        result.newSwapSourceAmount = swapSource.toNat + source.toNat) ∧
    (curve.swap libraries source swapSource swapDestination direction = none ↔
      curve.UpscaleOverflows direction source swapSource swapDestination ∨
        saberAmount libraries curve direction source swapSource swapDestination = none) ∧
    (∀ amount scaled, curve.upscaleTokenA amount = some scaled →
      curve.downscaleTokenA scaled = some amount) ∧
    ∀ amount scaled, curve.upscaleTokenB amount = some scaled →
      curve.downscaleTokenB scaled = some amount := by
  refine ⟨?_, ?_, ?_, ?_⟩
  · intro amount hfit hamount
    obtain ⟨hlt, hswap⟩ := swap_eq_of_amount hpositive hfit hamount (hsaber amount hamount)
    refine ⟨_, hswap, rfl, hlt, Nat.sub_add_cancel hlt.le, ?_, rfl⟩
    simp only
    omega
  · constructor
    · intro hnone
      by_contra hneither
      rw [not_or] at hneither
      obtain ⟨hfit, hreturns⟩ := hneither
      obtain ⟨amount, hamount⟩ := Option.ne_none_iff_exists'.mp hreturns
      have hswap := (swap_eq_of_amount hpositive hfit hamount (hsaber amount hamount)).2
      rw [hnone] at hswap
      cases hswap
    · intro hfails
      cases hswap : curve.swap libraries source swapSource swapDestination direction with
      | none => rfl
      | some result =>
          obtain ⟨hfit, amount, hamount⟩ := amount_of_swap hpositive hswap
          rcases hfails with hoverflows | hnone
          · exact absurd hoverflows hfit
          · rw [hnone] at hamount
            cases hamount
  · intro amount scaled h
    rw [upscaleTokenA_eq] at h
    rw [downscaleTokenA_eq]
    exact checkedDiv128_checkedMul128 (scaleA_pos hpositive) h
  · intro amount scaled h
    rw [upscaleTokenB_eq hpositive] at h
    rw [downscaleTokenB_eq hpositive]
    exact checkedDiv128_checkedMul128 (scaleB_pos hpositive) h

/-- A library that solves for the destination balance and keeps one unit. -/
def sampleSaber : CurveLibraries where
  splSwap _ _ _ := none
  saberSwapTo2 saber source swapSource swapDestination _ :=
    match Client.computeD saber.initialAmpFactor.toNat swapSource swapDestination with
    | .ok d => match Client.computeY saber.initialAmpFactor.toNat (swapSource + source) d with
      | .ok y => some (swapDestination - y.toNat - 1)
      | .error _ => none
    | .error _ => none

def sampleDepegCurve : StableSwap where
  amp := 100
  tokenMultiplier := ⟨1000, 1⟩
  depeg := ⟨1100000, 0, .lido⟩
  lastAmpUpdatedTimestamp := 0

theorem swap_keeps_one_sample :
    SaberKeepsOne sampleSaber sampleDepegCurve .aToB 5000 1000000 3000000000 ∧
    (∀ amount, ¬ sampleDepegCurve.UpscaleOverflows .aToB 5000 1000000 3000000000 →
      saberAmount sampleSaber sampleDepegCurve .aToB 5000 1000000 3000000000 = some amount →
      ∃ result, sampleDepegCurve.swap sampleSaber 5000 1000000 3000000000 .aToB = some result ∧
        result.destinationAmountSwapped = amount / sampleDepegCurve.destinationScale .aToB ∧
        result.destinationAmountSwapped < 3000000000 ∧
        result.newSwapDestinationAmount + result.destinationAmountSwapped = 3000000000 ∧
        0 < result.newSwapDestinationAmount ∧ result.newSwapSourceAmount = 1000000 + 5000) ∧
    (sampleDepegCurve.swap sampleSaber 5000 1000000 3000000000 .aToB = none ↔
      sampleDepegCurve.UpscaleOverflows .aToB 5000 1000000 3000000000 ∨
        saberAmount sampleSaber sampleDepegCurve .aToB 5000 1000000 3000000000 = none) ∧
    (∀ amount scaled, sampleDepegCurve.upscaleTokenA amount = some scaled →
      sampleDepegCurve.downscaleTokenA scaled = some amount) ∧
    ∀ amount scaled, sampleDepegCurve.upscaleTokenB amount = some scaled →
      sampleDepegCurve.downscaleTokenB scaled = some amount := by
  have hpositive : sampleDepegCurve.Positive := ⟨by decide, by decide, by decide⟩
  have hamount : saberAmount sampleSaber sampleDepegCurve .aToB 5000 1000000 3000000000 =
      some 5102812445644 := by
    decide +kernel
  have hsaber : SaberKeepsOne sampleSaber sampleDepegCurve .aToB 5000 1000000 3000000000 := by
    intro amount h
    rw [hamount, Option.some.injEq] at h
    subst h
    decide
  exact ⟨hsaber, swap_keeps_one hpositive hsaber⟩

end StableSwap

end DynamicAmm.Quote

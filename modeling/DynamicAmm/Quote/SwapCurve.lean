import DynamicAmm.Program.Amm

/-!
# The two swap curves of the Rust quote

Both curves hand the arithmetic to a third-party library: the constant product curve to the SPL token
swap, the stable curve to the Saber stable swap after scaling both tokens to a common precision. What the
libraries return is a parameter here.
-/

namespace DynamicAmm.Quote

open Rust Program

structure SwapWithoutFeesResult where
  sourceAmountSwapped : Nat
  destinationAmountSwapped : Nat
  deriving DecidableEq, Repr

/-- `SaberStableSwap::new(initial_amp, target_amp, current_ts, start_ramp_ts, stop_ramp_ts)` -/
structure SaberStableSwap where
  initialAmpFactor : UInt64
  targetAmpFactor : UInt64
  currentTs : Int64
  startRampTs : Int64
  stopRampTs : Int64

/-- The Saber fees, of which the numerators are left at zero. -/
structure SaberFees where
  adminTradeFeeNumerator : Nat
  adminTradeFeeDenominator : Nat
  adminWithdrawFeeNumerator : Nat
  adminWithdrawFeeDenominator : Nat
  tradeFeeNumerator : Nat
  tradeFeeDenominator : Nat
  withdrawFeeNumerator : Nat
  withdrawFeeDenominator : Nat

structure CurveLibraries where
  /-- `spl_token_swap::curve::constant_product::swap` -/
  splSwap : (sourceAmount swapSourceAmount swapDestinationAmount : Nat) → Option SwapWithoutFeesResult
  /-- `SaberStableSwap::swap_to2`, as far as its `amount_swapped` -/
  saberSwapTo2 : SaberStableSwap → (sourceAmount swapSourceAmount swapDestinationAmount : Nat) →
    SaberFees → Option Nat

structure SwapResult where
  /-- New amount of source token -/
  newSwapSourceAmount : Nat
  /-- New amount of destination token -/
  newSwapDestinationAmount : Nat
  /-- Amount of source token swapped (includes fees) -/
  sourceAmountSwapped : Nat
  /-- Amount of destination token swapped -/
  destinationAmountSwapped : Nat
  deriving DecidableEq, Repr

variable (libraries : CurveLibraries)

namespace ConstantProduct

def swap (sourceAmount swapSourceAmount swapDestinationAmount : UInt64) : Option SwapResult := do
  let result ← libraries.splSwap sourceAmount.toNat swapSourceAmount.toNat swapDestinationAmount.toNat
  let newSwapSourceAmount ← checkedAdd128 swapSourceAmount.toNat result.sourceAmountSwapped
  let newSwapDestinationAmount ←
    checkedSub128 swapDestinationAmount.toNat result.destinationAmountSwapped
  some {
    newSwapSourceAmount
    newSwapDestinationAmount
    sourceAmountSwapped := result.sourceAmountSwapped
    destinationAmountSwapped := result.destinationAmountSwapped }

end ConstantProduct

structure StableSwap where
  amp : UInt64
  tokenMultiplier : TokenMultiplier
  depeg : Depeg
  lastAmpUpdatedTimestamp : UInt64
  deriving DecidableEq, Repr

namespace StableSwap

def upscaleTokenA (curve : StableSwap) (tokenAmount : Nat) : Option Nat := do
  let normalizedTokenAmount ← curve.tokenMultiplier.upscaleTokenA tokenAmount
  if curve.depeg.depegType ≠ .none then
    checkedMul128 normalizedTokenAmount depegPrecision
  else
    some normalizedTokenAmount

def downscaleTokenA (curve : StableSwap) (tokenAmount : Nat) : Option Nat := do
  let denormalizedTokenAmount ← curve.tokenMultiplier.downscaleTokenA tokenAmount
  if curve.depeg.depegType ≠ .none then
    checkedDiv128 denormalizedTokenAmount depegPrecision
  else
    some denormalizedTokenAmount

def upscaleTokenB (curve : StableSwap) (tokenAmount : Nat) : Option Nat := do
  let normalizedTokenAmount ← curve.tokenMultiplier.upscaleTokenB tokenAmount
  if curve.depeg.depegType ≠ .none then
    checkedMul128 normalizedTokenAmount curve.depeg.baseVirtualPrice.toNat
  else
    some normalizedTokenAmount

def downscaleTokenB (curve : StableSwap) (tokenAmount : Nat) : Option Nat := do
  let denormalizedTokenAmount ← curve.tokenMultiplier.downscaleTokenB tokenAmount
  if curve.depeg.depegType ≠ .none then
    checkedDiv128 denormalizedTokenAmount curve.depeg.baseVirtualPrice.toNat
  else
    some denormalizedTokenAmount

def toSaber (curve : StableSwap) : SaberStableSwap := ⟨curve.amp, curve.amp, 0, 0, 0⟩

/-- The fees `swap` passes: every denominator set, every numerator zero. -/
def saberFees : SaberFees :=
  ⟨0, feeDenominator, 0, feeDenominator, 0, feeDenominator, 0, feeDenominator⟩

def swap (curve : StableSwap) (sourceAmount swapSourceAmount swapDestinationAmount : UInt64)
    (tradeDirection : TradeDirection) : Option SwapResult := do
  let upscaledSourceAmount ← match tradeDirection with
    | .aToB => curve.upscaleTokenA sourceAmount.toNat
    | .bToA => curve.upscaleTokenB sourceAmount.toNat
  let upscaledSwapSourceAmount ← match tradeDirection with
    | .aToB => curve.upscaleTokenA swapSourceAmount.toNat
    | .bToA => curve.upscaleTokenB swapSourceAmount.toNat
  let upscaledSwapDestinationAmount ← match tradeDirection with
    | .aToB => curve.upscaleTokenB swapDestinationAmount.toNat
    | .bToA => curve.upscaleTokenA swapDestinationAmount.toNat
  let amountSwapped ← libraries.saberSwapTo2 curve.toSaber upscaledSourceAmount
    upscaledSwapSourceAmount upscaledSwapDestinationAmount saberFees
  let downscaledDestinationAmountSwapped ← match tradeDirection with
    | .aToB => curve.downscaleTokenB amountSwapped
    | .bToA => curve.downscaleTokenA amountSwapped
  let newSwapSourceAmount ← checkedAdd128 swapSourceAmount.toNat sourceAmount.toNat
  let newSwapDestinationAmount ←
    checkedSub128 swapDestinationAmount.toNat downscaledDestinationAmountSwapped
  some {
    newSwapSourceAmount
    newSwapDestinationAmount
    sourceAmountSwapped := sourceAmount.toNat
    destinationAmountSwapped := downscaledDestinationAmountSwapped }

end StableSwap

/-- `Box<dyn SwapCurve>`, one case for each implementation of the trait. -/
inductive SwapCurve where
  | constantProduct
  | stable (curve : StableSwap)
  deriving DecidableEq, Repr

def getSwapCurve : CurveType → SwapCurve
  | .constantProduct => .constantProduct
  | .stable amp tokenMultiplier depeg lastAmpUpdatedTimestamp =>
      .stable { amp, depeg, lastAmpUpdatedTimestamp, tokenMultiplier }

def SwapCurve.swap (curve : SwapCurve) (sourceAmount swapSourceAmount swapDestinationAmount : UInt64)
    (tradeDirection : TradeDirection) : Option SwapResult :=
  match curve with
  | .constantProduct =>
      ConstantProduct.swap libraries sourceAmount swapSourceAmount swapDestinationAmount
  | .stable curve =>
      curve.swap libraries sourceAmount swapSourceAmount swapDestinationAmount tradeDirection

end DynamicAmm.Quote

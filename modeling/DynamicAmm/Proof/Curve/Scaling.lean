import DynamicAmm.Proof.Curve.Swaps

/-!
# Scaling to a common precision

Scaling multiplies by one number for each token, and scaling down divides by it. An operation commutes
with the scaling if it computes what the curve without scales computes on the scaled amounts, scaled down
at the end. All operations do, except for one operand: `computeInAmount` takes the raw source balance off
the scaled one.
-/

namespace DynamicAmm.Client

open Js

/-- Numbers with the same truncated quotient are close to each other. -/
theorem sub_le_of_tdiv_eq {a b k : Int} (hk : 0 < k) (h : a.tdiv k = b.tdiv k) : a - b ≤ 2 * (k - 1) := by
  have ha := Int.tmod_add_mul_tdiv a k
  have hb := Int.tmod_add_mul_tdiv b k
  have ha' := Int.tmod_lt_of_pos a hk
  have hb' := Int.lt_tmod_of_pos b hk
  rw [h] at ha
  omega

namespace StableSwap

variable (curve : StableSwap) (depeg : Depeg)

def unit : StableSwap := { curve with tokenMultiplier := ⟨1, 1⟩ }

theorem unit_unscaled : Unscaled curve.unit noDepeg := ⟨rfl, rfl⟩

/-- Multipliers and price of at least one, as the record in force has them. -/
structure Scaled : Prop where
  tokenA : 1 ≤ curve.tokenMultiplier.tokenAMultiplier
  tokenB : 1 ≤ curve.tokenMultiplier.tokenBMultiplier
  price : depeg.depegType ≠ .none → 1 ≤ depeg.baseVirtualPrice

/-! ### The scale of a token -/

def sourceScale (direction : TradeDirection) : Int := curve.upscaleSource depeg direction 1

theorem upscaleSource_eq (direction : TradeDirection) (amount : Int) :
    curve.upscaleSource depeg direction amount = amount * curve.sourceScale depeg direction := by
  cases direction <;>
    simp only [sourceScale, upscaleSource, upscaleTokenA, upscaleTokenB] <;> split <;> ring

variable {curve depeg} {direction : TradeDirection}

theorem Scaled.sourceScale_pos (h : Scaled curve depeg) : 1 ≤ curve.sourceScale depeg direction := by
  have hA := h.tokenA
  have hB := h.tokenB
  cases direction with
  | aToB =>
      simp only [sourceScale, upscaleSource, upscaleTokenA, precision]
      split <;> omega
  | bToA =>
      simp only [sourceScale, upscaleSource, upscaleTokenB]
      split
      · rename_i hdepeg
        have := h.price hdepeg
        nlinarith
      · omega

theorem Scaled.downscaleTokenA (h : Scaled curve depeg) (amount : Int) :
    curve.downscaleTokenA depeg amount = .ok (amount.tdiv (curve.upscaleTokenA depeg 1)) := by
  have hA := h.tokenA
  simp only [StableSwap.downscaleTokenA, upscaleTokenA, bind_eq_ok]
  refine ⟨_, BN.div_eq_ok.mpr ⟨by omega, rfl⟩, ?_⟩
  split
  · rw [BN.div_eq_ok, tdiv_tdiv, one_mul]
    exact ⟨by decide, rfl⟩
  · rw [one_mul]
    rfl

theorem Scaled.downscaleTokenB (h : Scaled curve depeg) (amount : Int) :
    curve.downscaleTokenB depeg amount = .ok (amount.tdiv (curve.upscaleTokenB depeg 1)) := by
  have hB := h.tokenB
  simp only [StableSwap.downscaleTokenB, upscaleTokenB, bind_eq_ok]
  refine ⟨_, BN.div_eq_ok.mpr ⟨by omega, rfl⟩, ?_⟩
  split
  · rename_i hdepeg
    have hprice := h.price hdepeg
    rw [BN.div_eq_ok, tdiv_tdiv, one_mul]
    exact ⟨by omega, rfl⟩
  · rw [one_mul]
    rfl

theorem Scaled.downscaleSource (h : Scaled curve depeg) (amount : Int) :
    curve.downscaleSource depeg direction amount =
      .ok (amount.tdiv (curve.sourceScale depeg direction)) := by
  cases direction with
  | aToB => exact h.downscaleTokenA amount
  | bToA => exact h.downscaleTokenB amount

/-! ### The operations as one type -/

/-- A call of one of the four operations. -/
inductive Operation where
  | outAmount (sourceAmount swapSourceAmount swapDestinationAmount : Int)
      (tradeDirection : TradeDirection)
  | inAmount (destAmount swapSourceAmount swapDestinationAmount : Int) (tradeDirection : TradeDirection)
  | imbalanceDeposit (depositAAmount depositBAmount swapTokenAAmount swapTokenBAmount lpSupply : Int)
      (fees : PoolFees)
  | withdrawOne (lpAmount lpSupply swapTokenAAmount swapTokenBAmount : Int) (fees : PoolFees)
      (tradeDirection : TradeDirection)

variable (decoders : StakeDecoders) (toFixed : ℚ → Int) (curve depeg)

/-- The amount an operation computes on a record in force. -/
def Operation.amountAt : Operation → Throwing Int
  | .outAmount s x y direction => do
      let out ← curve.computeOutAmountAt depeg s x y direction
      pure out.outAmount
  | .inAmount wanted x y direction => curve.computeInAmountAt depeg wanted x y direction
  | .imbalanceDeposit a b x y supply fees =>
      curve.computeImbalanceDepositAt depeg toFixed a b x y supply fees
  | .withdrawOne lp supply x y fees direction =>
      curve.computeWithdrawOneAt depeg toFixed lp supply x y fees direction

def Operation.call : Operation → Call Depeg Int
  | .outAmount s x y direction => do
      let out ← curve.computeOutAmount decoders s x y direction
      pure out.outAmount
  | .inAmount wanted x y direction => curve.computeInAmount decoders wanted x y direction
  | .imbalanceDeposit a b x y supply fees =>
      curve.computeImbalanceDeposit decoders toFixed a b x y supply fees
  | .withdrawOne lp supply x y fees direction =>
      curve.computeWithdrawOne decoders toFixed lp supply x y fees direction

/-- The same call on scaled token amounts. -/
def Operation.upscale : Operation → Operation
  | .outAmount s x y direction =>
      .outAmount (curve.upscaleSource depeg direction s) (curve.upscaleSource depeg direction x)
        (curve.upscaleDestination depeg direction y) direction
  | .inAmount wanted x y direction =>
      .inAmount (curve.upscaleDestination depeg direction wanted)
        (curve.upscaleSource depeg direction x) (curve.upscaleDestination depeg direction y) direction
  | .imbalanceDeposit a b x y supply fees =>
      .imbalanceDeposit (curve.upscaleTokenA depeg a) (curve.upscaleTokenB depeg b)
        (curve.upscaleTokenA depeg x) (curve.upscaleTokenB depeg y) supply fees
  | .withdrawOne lp supply x y fees direction =>
      .withdrawOne lp supply (curve.upscaleTokenA depeg x) (curve.upscaleTokenB depeg y) fees direction

/-- Scale the result down for the token it denotes. LP is not scaled. -/
def Operation.downscale : Operation → Int → Throwing Int
  | .outAmount _ _ _ direction => curve.downscaleDestination depeg direction
  | .inAmount _ _ _ direction => curve.downscaleSource depeg direction
  | .imbalanceDeposit .. => pure
  | .withdrawOne _ _ _ _ _ direction => curve.downscaleDestination depeg direction

/-- An amount is what the curve without scales computes on the scaled amounts, scaled down. -/
def Operation.Commutes (operation : Operation) (amount : Int) : Prop :=
  (do let scaled ← ((operation.upscale curve depeg).call curve.unit decoders toFixed noDepeg).1
      operation.downscale curve depeg scaled) = .ok amount

/-- When the raw source balance of `computeInAmount` does not show: the source token is not scaled, or
there is none of it, or the balance is so small that both differences round to one quotient. -/
def Operation.RawBalanceHidden : Operation → Prop
  | .inAmount wanted x y direction =>
      curve.sourceScale depeg direction = 1 ∨ x = 0 ∨
      (-2 ≤ x ∧ x ≤ 2 ∧ ∃ D Y,
        computeD curve.amp (curve.upscaleSource depeg direction x)
          (curve.upscaleDestination depeg direction y) = .ok D ∧
        computeY curve.amp (curve.upscaleDestination depeg direction y -
          curve.upscaleDestination depeg direction wanted) D = .ok Y ∧
        (Y - x).tdiv (curve.sourceScale depeg direction) =
          (Y - curve.upscaleSource depeg direction x).tdiv (curve.sourceScale depeg direction))
  | _ => True

variable {decoders toFixed curve depeg}

/-- Every call is a refresh and a computation on the record it leaves. -/
theorem Operation.call_eq (operation : Operation) :
    operation.call curve decoders toFixed =
      curve.withRefreshed decoders fun depeg => operation.amountAt curve depeg toFixed := by
  cases operation with
  | outAmount s x y direction =>
      funext depeg
      simp only [call, amountAt, computeOutAmount, withRefreshed, Call.bind_apply, Call.read_apply,
        Call.lift_apply, Call.pure_apply]
      rcases curve.updateDepegInfoIfExpired decoders depeg with ⟨_ | _, depeg'⟩
      · rfl
      · simp only
        rcases curve.computeOutAmountAt depeg' s x y direction with _ | _ <;> rfl
  | inAmount => rfl
  | imbalanceDeposit => rfl
  | withdrawOne => rfl

theorem Operation.amountAt_of_call {operation : Operation} {amount : Int} {depeg' : Depeg}
    (h : operation.call curve decoders toFixed depeg = (.ok amount, depeg')) :
    operation.amountAt curve depeg' toFixed = .ok amount := by
  rw [operation.call_eq, withRefreshed_apply, Prod.mk.injEq] at h
  obtain ⟨hamount, hdepeg⟩ := h
  rw [hdepeg] at hamount
  exact (bind_eq_ok.mp hamount).choose_spec.2

/-! ### Which operations commute -/

theorem Operation.commutes_eq (operation : Operation) (amount : Int) :
    operation.Commutes curve depeg decoders toFixed amount ↔
      ∃ scaled, (operation.upscale curve depeg).amountAt curve.unit noDepeg toFixed = .ok scaled ∧
        operation.downscale curve depeg scaled = .ok amount := by
  rw [Operation.Commutes, Operation.call_eq, withRefreshed_none decoders curve.unit rfl, bind_eq_ok]

theorem unit_upscaleTokenA (amount : Int) : curve.unit.upscaleTokenA noDepeg amount = amount := by
  simp [upscaleTokenA, unit, noDepeg]

theorem unit_upscaleTokenB (amount : Int) : curve.unit.upscaleTokenB noDepeg amount = amount := by
  simp [upscaleTokenB, unit, noDepeg]

theorem outAmount_commutes {s x y amount : Int}
    (h : (Operation.outAmount s x y direction).amountAt curve depeg toFixed = .ok amount) :
    (Operation.outAmount s x y direction).Commutes curve depeg decoders toFixed amount := by
  have hunit := curve.unit_unscaled
  simp only [Operation.amountAt, bind_eq_ok, pure_eq_ok] at h
  obtain ⟨out, hout, hamount⟩ := h
  obtain ⟨D, hD, Y, hY, w, hw, ho, -⟩ := (computeOutAmountAt_eq_ok curve depeg).mp hout
  have hscaled : curve.unit.computeOutAmountAt noDepeg (curve.upscaleSource depeg direction s)
      (curve.upscaleSource depeg direction x) (curve.upscaleDestination depeg direction y) direction =
      .ok ⟨curve.upscaleDestination depeg direction y - Y - 1,
        getPriceImpact (curve.upscaleDestination depeg direction y - Y - 1) w⟩ := by
    rw [computeOutAmountAt_eq_ok]
    simp only [hunit.upscaleSource, hunit.upscaleDestination, hunit.downscaleDestination]
    exact ⟨D, hD, Y, hY, w, hw, rfl, w, rfl, rfl⟩
  rw [Operation.commutes_eq]
  refine ⟨curve.upscaleDestination depeg direction y - Y - 1, ?_, ?_⟩
  · simp only [Operation.upscale, Operation.amountAt, hscaled]
    rfl
  · rw [← hamount]
    exact ho

theorem imbalanceDeposit_commutes {a b x y supply amount : Int} {fees : PoolFees}
    (h : (Operation.imbalanceDeposit a b x y supply fees).amountAt curve depeg toFixed = .ok amount) :
    (Operation.imbalanceDeposit a b x y supply fees).Commutes curve depeg decoders toFixed amount := by
  rw [Operation.commutes_eq]
  refine ⟨amount, ?_, rfl⟩
  simp only [Operation.upscale, Operation.amountAt, computeImbalanceDepositAt, unit_upscaleTokenA,
    unit_upscaleTokenB]
  exact h

theorem computeWithdrawOneAt_eq_ok {lp supply x y amount : Int} {fees : PoolFees} :
    curve.computeWithdrawOneAt depeg toFixed lp supply x y fees direction = .ok amount ↔
      ∃ estimate, calculateEstimatedWithdrawOneAmount toFixed curve.amp (toFees fees) supply
          (curve.upscaleTokenA depeg x, curve.upscaleTokenB depeg y) lp direction = .ok estimate ∧
        curve.downscaleDestination depeg direction estimate.withdrawAmountBeforeFees = .ok amount := by
  rw [computeWithdrawOneAt, bind_eq_ok]
  cases direction <;> rfl

theorem withdrawOne_commutes {lp supply x y amount : Int} {fees : PoolFees}
    (h : (Operation.withdrawOne lp supply x y fees direction).amountAt curve depeg toFixed = .ok amount) :
    (Operation.withdrawOne lp supply x y fees direction).Commutes curve depeg decoders toFixed amount := by
  obtain ⟨estimate, hestimate, hdown⟩ := computeWithdrawOneAt_eq_ok.mp h
  rw [Operation.commutes_eq]
  refine ⟨estimate.withdrawAmountBeforeFees, ?_, hdown⟩
  refine computeWithdrawOneAt_eq_ok.mpr ⟨estimate, ?_, curve.unit_unscaled.downscaleDestination⟩
  rw [unit_upscaleTokenA, unit_upscaleTokenB]
  exact hestimate

/-! ### The operation that does not -/

theorem computeInAmountAt_eq_ok {wanted x y amount : Int} :
    curve.computeInAmountAt depeg wanted x y direction = .ok amount ↔
      ∃ D, computeD curve.amp (curve.upscaleSource depeg direction x)
          (curve.upscaleDestination depeg direction y) = .ok D ∧
      ∃ Y, computeY curve.amp (curve.upscaleDestination depeg direction y -
          curve.upscaleDestination depeg direction wanted) D = .ok Y ∧
        curve.downscaleSource depeg direction (Y - x) = .ok amount := by
  have hbody : curve.computeInAmountAt depeg wanted x y direction = (do
      let D ← computeD curve.amp (curve.upscaleSource depeg direction x)
        (curve.upscaleDestination depeg direction y)
      let Y ← computeY curve.amp (curve.upscaleDestination depeg direction y -
        curve.upscaleDestination depeg direction wanted) D
      curve.downscaleSource depeg direction (Y - x)) := by
    cases direction <;> rfl
  simp only [hbody, bind_eq_ok]

/-- Taking the raw balance off instead of the scaled one moves the quotient, as soon as the balance is
more than two units. -/
theorem raw_quotient_eq {Y x k : Int} (hk : 1 ≤ k) (h : (Y - x * k).tdiv k = (Y - x).tdiv k) :
    k = 1 ∨ x = 0 ∨ (-2 ≤ x ∧ x ≤ 2) := by
  by_cases hone : k = 1
  · exact Or.inl hone
  · refine Or.inr (Or.inr ?_)
    have hpos : 0 < k - 1 := by omega
    have h1 : -x * (k - 1) ≤ 2 * (k - 1) := by
      have := sub_le_of_tdiv_eq (by omega) h
      linarith
    have h2 : x * (k - 1) ≤ 2 * (k - 1) := by
      have := sub_le_of_tdiv_eq (by omega) h.symm
      linarith
    have hlo := le_of_mul_le_mul_right h1 hpos
    have hhi := le_of_mul_le_mul_right h2 hpos
    omega

theorem inAmount_commutes_iff (hscaled : Scaled curve depeg) {wanted x y amount : Int}
    (h : (Operation.inAmount wanted x y direction).amountAt curve depeg toFixed = .ok amount) :
    (Operation.inAmount wanted x y direction).Commutes curve depeg decoders toFixed amount ↔
      (Operation.inAmount wanted x y direction).RawBalanceHidden curve depeg := by
  have hunit := curve.unit_unscaled
  obtain ⟨D, hD, Y, hY, hamount⟩ := computeInAmountAt_eq_ok.mp h
  rw [hscaled.downscaleSource, Except.ok.injEq] at hamount
  have hraw : (Operation.inAmount wanted x y direction).Commutes curve depeg decoders toFixed amount ↔
      (Y - curve.upscaleSource depeg direction x).tdiv (curve.sourceScale depeg direction) =
        (Y - x).tdiv (curve.sourceScale depeg direction) := by
    rw [Operation.commutes_eq]
    simp only [Operation.upscale, Operation.amountAt, Operation.downscale, computeInAmountAt_eq_ok,
      hunit.upscaleSource, hunit.upscaleDestination, hunit.downscaleSource, hscaled.downscaleSource,
      Except.ok.injEq]
    rw [← hamount]
    constructor
    · rintro ⟨scaled, ⟨D', hD', Y', hY', hdifference⟩, hquotient⟩
      obtain rfl : D = D' := Except.ok.inj (hD.symm.trans hD')
      obtain rfl : Y = Y' := Except.ok.inj (hY.symm.trans hY')
      rw [hdifference]
      exact hquotient
    · intro hquotient
      exact ⟨_, ⟨D, hD, Y, hY, rfl⟩, hquotient⟩
  rw [hraw]
  constructor
  · intro hquotient
    have hscale : 1 ≤ curve.sourceScale depeg direction := hscaled.sourceScale_pos
    rw [upscaleSource_eq] at hquotient
    rcases raw_quotient_eq hscale hquotient with hone | hzero | ⟨hlo, hhi⟩
    · exact Or.inl hone
    · exact Or.inr (Or.inl hzero)
    · refine Or.inr (Or.inr ⟨hlo, hhi, D, Y, hD, hY, ?_⟩)
      rw [upscaleSource_eq, hquotient]
  · intro hhidden
    rcases hhidden with hone | hzero | ⟨-, -, D', Y', hD', hY', hquotient⟩
    · rw [upscaleSource_eq, hone, mul_one]
    · rw [upscaleSource_eq, hzero, zero_mul]
    · rw [hD, Except.ok.injEq] at hD'
      subst hD'
      rw [hY, Except.ok.injEq] at hY'
      subst hY'
      exact hquotient.symm

/-- Of the amounts that the operations return, those that are not what the unscaled curve computes are the
ones where `computeInAmount` shows its raw source balance. -/
theorem rawBalanceHidden_of_large {wanted x y : Int} (hx : 3 ≤ |x|) :
    (Operation.inAmount wanted x y direction).RawBalanceHidden curve depeg ↔
      curve.sourceScale depeg direction = 1 := by
  rw [le_abs] at hx
  constructor
  · rintro (hone | hzero | ⟨hlow, hhigh, -⟩)
    · exact hone
    · omega
    · omega
  · exact Or.inl

theorem Operation.commutes_iff {operation : Operation} {depeg' : Depeg} (hscaled : Scaled curve depeg')
    {amount : Int} (h : operation.call curve decoders toFixed depeg = (.ok amount, depeg')) :
    (operation.Commutes curve depeg' decoders toFixed amount ↔ operation.RawBalanceHidden curve depeg') ∧
      ∀ wanted x y direction, operation = .inAmount wanted x y direction → 3 ≤ |x| →
        (operation.Commutes curve depeg' decoders toFixed amount ↔
          curve.sourceScale depeg' direction = 1) := by
  have hamount := Operation.amountAt_of_call h
  have hiff : operation.Commutes curve depeg' decoders toFixed amount ↔
      operation.RawBalanceHidden curve depeg' := by
    cases operation with
    | outAmount => exact iff_of_true (outAmount_commutes hamount) trivial
    | inAmount => exact inAmount_commutes_iff hscaled hamount
    | imbalanceDeposit => exact iff_of_true (imbalanceDeposit_commutes hamount) trivial
    | withdrawOne => exact iff_of_true (withdrawOne_commutes hamount) trivial
  refine ⟨hiff, ?_⟩
  rintro wanted x y direction rfl hx
  rw [hiff, rawBalanceHidden_of_large hx]

def mixedCurve : StableSwap := { sampleCurve 100 with tokenMultiplier := ⟨1000, 1⟩ }

def sampleOperation : Operation := .inAmount 1000000 1000000 1000000000 .aToB

theorem Operation.commutes_iff_sample :
    (sampleOperation.Commutes mixedCurve noDepeg sampleDecoders (fun _ => 0) 1000000 ↔
      sampleOperation.RawBalanceHidden mixedCurve noDepeg) ∧
      ¬ sampleOperation.Commutes mixedCurve noDepeg sampleDecoders (fun _ => 0) 1000000 := by
  obtain ⟨hiff, hlarge⟩ := Operation.commutes_iff ⟨by decide, by decide, by decide⟩
    (by decide +kernel :
      sampleOperation.call mixedCurve sampleDecoders (fun _ => 0) noDepeg = (.ok 1000000, noDepeg))
  refine ⟨hiff, ?_⟩
  rw [hlarge 1000000 1000000 1000000000 .aToB rfl (by decide)]
  decide

/-- It costs one thousand units, and `computeInAmount` returns one million. -/
theorem inAmount_shows_raw_balance :
    sampleOperation.call mixedCurve sampleDecoders (fun _ => 0) noDepeg = (.ok 1000000, noDepeg) ∧
      sampleOperation.Commutes mixedCurve noDepeg sampleDecoders (fun _ => 0) 1000 ∧
      ¬ sampleOperation.Commutes mixedCurve noDepeg sampleDecoders (fun _ => 0) 1000000 := by
  unfold Operation.Commutes
  refine ⟨?_, ?_, ?_⟩
  · decide +kernel
  · decide +kernel
  · decide +kernel

end StableSwap

end DynamicAmm.Client

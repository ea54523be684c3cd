import DynamicAmm.Proof.Quote.Product

/-!
# Which fee a quote charges

The protocol fee is a cut of the trade fee, and the result reports the trade fee alone. The body takes
the cut off the amount that is deposited and then takes the whole trade fee off what the deposit was
worth, so the cut is charged twice, and the amounts add up only when there is no cut.
-/

namespace DynamicAmm.Quote

open Rust Program

/-- What the source vault's conversion rounded away. -/
def QuoteSteps.roundingLoss (steps : QuoteSteps) : Int :=
  steps.inAmountAfterProtocolFee.toNat - steps.actualInAmount.toNat

/-- The reported fee and the vault's rounding are all that the amount handed to the curve lacks. -/
def QuoteSteps.ChargesReportedFee (steps : QuoteSteps) (inAmount : UInt64) : Prop :=
  (steps.roundingLoss = 0 →
    (steps.actualInAmountAfterFee.toNat : Int) = inAmount.toNat - steps.result.fee.toNat) ∧
  (steps.actualInAmountAfterFee.toNat : Int) + steps.result.fee.toNat + steps.roundingLoss =
    inAmount.toNat

/-- No part of the trade fee goes to the protocol. -/
def NoProtocolCut (fees : PoolFees) (inAmount : UInt64) : Prop :=
  fees.tradeFeeNumerator = 0 ∨ fees.protocolTradeFeeNumerator = 0 ∨ inAmount = 0

variable {libraries : CurveLibraries} {fees : PoolFees} {curve : SwapCurve} {inAmount : UInt64}
  {direction : TradeDirection} {trade : TradeAccounts} {inUnlocked outUnlocked : Nat} {steps : QuoteSteps}

/-- The amounts of a quote add up to the in amount less the protocol fee. -/
theorem Settled.handed_add_fee
    (h : Settled libraries fees curve inAmount direction trade inUnlocked outUnlocked steps) :
    (steps.actualInAmountAfterFee.toNat : Int) + steps.result.fee.toNat + steps.roundingLoss +
      steps.protocolFee.toNat = inAmount.toNat := by
  have hfee := h.fee
  have hafterFee := h.afterFee
  have hafterProtocolFee := h.afterProtocolFee
  simp only [QuoteSteps.roundingLoss]
  omega

theorem Settled.chargesReportedFee_iff
    (h : Settled libraries fees curve inAmount direction trade inUnlocked outUnlocked steps) :
    steps.ChargesReportedFee inAmount ↔ steps.protocolFee.toNat = 0 := by
  have hsum := h.handed_add_fee
  simp only [QuoteSteps.ChargesReportedFee]
  omega

theorem Settled.protocolFee_eq_zero
    (h : Settled libraries fees curve inAmount direction trade inUnlocked outUnlocked steps) :
    steps.protocolFee.toNat = 0 ↔ NoProtocolCut fees inAmount := by
  rw [calculateFee_eq_zero h.protocolFee, calculateFee_eq_zero h.tradeFee]
  simp only [NoProtocolCut, ← UInt64.toNat_inj, UInt64.toNat_zero]
  tauto

variable (accounts : StakeAccounts)

theorem computeQuoteSteps_settled {inTokenMint : Pubkey} {quoteData : QuoteData}
    (h : computeQuoteSteps accounts libraries inTokenMint inAmount quoteData = .ok steps) :
    ∃ curve direction trade inUnlocked outUnlocked,
      Settled libraries quoteData.pool.fees curve inAmount direction trade inUnlocked outUnlocked steps := by
  obtain ⟨-, -, -, -, time, -, a, b, htokens, hsettle⟩ :=
    (computeQuoteSteps_eq_ok accounts libraries).mp h
  obtain ⟨ha, hb⟩ := QuoteData.poolTokens_eq_ok.mp htokens
  obtain ⟨unlockedA, hunlockedA, -⟩ := Vault.getAmountByShare_eq_some.mp ha
  obtain ⟨unlockedB, hunlockedB, -⟩ := Vault.getAmountByShare_eq_some.mp hb
  generalize quoteData.directionOf inTokenMint = direction at hsettle
  cases direction with
  | aToB => exact ⟨_, _, _, _, _, (settleTrade_eq_ok libraries hunlockedA hunlockedB).mp hsettle⟩
  | bToA => exact ⟨_, _, _, _, _, (settleTrade_eq_ok libraries hunlockedB hunlockedA).mp hsettle⟩

theorem computeQuote_chargesReportedFee_iff {inTokenMint : Pubkey} {quoteData : QuoteData}
    {result : QuoteResult}
    (h : computeQuote accounts libraries inTokenMint inAmount quoteData = .ok result) :
    ∃ steps, computeQuoteSteps accounts libraries inTokenMint inAmount quoteData = .ok steps ∧
      steps.result = result ∧
      (steps.ChargesReportedFee inAmount ↔ NoProtocolCut quoteData.pool.fees inAmount) := by
  simp only [computeQuote, Outcome.bind_eq_ok, Outcome.pure_eq_ok] at h
  obtain ⟨steps, hsteps, hresult⟩ := h
  obtain ⟨curve, direction, trade, inUnlocked, outUnlocked, hsettled⟩ :=
    computeQuoteSteps_settled accounts hsteps
  exact ⟨steps, hsteps, hresult, hsettled.chargesReportedFee_iff.trans hsettled.protocolFee_eq_zero⟩

theorem computeQuote_chargesReportedFee_iff_sample :
    ∃ steps, computeQuoteSteps sampleAccounts sampleLibraries (Pubkey.replicate 1) 10000
        (sampleQuoteData sampleFees 1230457 1048576) = .ok steps ∧
      steps.result = { outAmount := 6686, fee := 25 } ∧
      (steps.ChargesReportedFee 10000 ↔ NoProtocolCut sampleFees 10000) :=
  computeQuote_chargesReportedFee_iff sampleAccounts (by decide)

/-- At a share price of one nothing is rounded, and the curve gets 9970 of 10000 under a fee of 25. -/
theorem computeQuote_charges_protocolFee_twice :
    ∃ steps, computeQuoteSteps sampleAccounts sampleLibraries (Pubkey.replicate 1) 10000
        (sampleQuoteData sampleFees 1000000 1000000) = .ok steps ∧
      computeQuote sampleAccounts sampleLibraries (Pubkey.replicate 1) 10000
        (sampleQuoteData sampleFees 1000000 1000000) = .ok steps.result ∧
      steps.result.fee = 25 ∧ steps.roundingLoss = 0 ∧ steps.actualInAmountAfterFee = 9970 ∧
      ¬ steps.ChargesReportedFee 10000 := by
  refine ⟨{
    tradeFee := 25
    protocolFee := 5
    inAmountAfterProtocolFee := 9995
    inLp := 9995
    actualInAmount := 9995
    actualInAmountAfterFee := 9970
    destinationAmountSwapped := 7820
    outVaultLp := 7820
    result := { outAmount := 7820, fee := 25 } }, ?_, ?_, rfl, ?_, rfl, ?_⟩
  · decide
  · decide
  · decide
  · simp only [QuoteSteps.ChargesReportedFee]
    decide

end DynamicAmm.Quote

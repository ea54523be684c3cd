import DynamicAmm.Client.SwapQuote

/-!
# What a client quote does

The one place where the body of `calculateSwapQuote` is taken apart: its guards and its choice of a curve,
the deposit, the curve, the withdrawal.
-/

namespace DynamicAmm.Client

open Js
open Program (Pubkey)

variable {inTokenMint : Pubkey} {params : SwapQuoteParam} {swapInitiator : Option Pubkey}
  {poolState : PoolState} {swapCurve : SwapCurve}

/-! ### The curve -/

theorem makeSwapCurve_stable {amp : Int} {tokenMultiplier : TokenMultiplier} {depeg : Depeg}
    (h : poolState.curveType = .stable amp tokenMultiplier depeg) :
    makeSwapCurve inTokenMint params swapInitiator poolState = .ok swapCurve ↔
      (inTokenMint = poolState.tokenAMint ∨ inTokenMint = poolState.tokenBMint) ∧
      poolState.enabled = true ∧ amp.natAbs < 2 ^ 53 ∧
      swapCurve = .stable {
        amp
        tokenMultiplier
        extraAccounts := params.depegAccounts
        onChainTime := params.currentTime.val
        stakePoolPubkey := poolState.stake } := by
  simp only [makeSwapCurve, h, bind_eq_ok, pure_eq_ok, invariant_eq_ok, decide_eq_true_eq, BN.toNumber]
  constructor
  · rintro ⟨_, hmint, _, henabled, amp', hamp, hcurve⟩
    split at hamp
    · rename_i hsafe
      rw [Except.ok.injEq] at hamp
      subst hamp
      exact ⟨hmint, henabled, hsafe, hcurve.symm⟩
    · cases hamp
  · rintro ⟨hmint, henabled, hsafe, hcurve⟩
    exact ⟨(), hmint, (), henabled, amp, if_pos hsafe, hcurve.symm⟩

/-- The initiator is the vault that may swap before the activation. -/
def QuotesEarly (swapInitiator : Option Pubkey) (poolState : PoolState) : Prop :=
  swapInitiator = some poolState.bootstrapping.whitelistedVault

/-- The point that the activation is measured against. -/
def SwapQuoteParam.currentPoint (params : SwapQuoteParam) (poolState : PoolState) : Int :=
  if poolState.bootstrapping.activationType = 1 then params.currentTime.val else params.currentSlot.val

theorem makeSwapCurve_constantProduct (h : poolState.curveType = .constantProduct) :
    makeSwapCurve inTokenMint params swapInitiator poolState = .ok swapCurve ↔
      (inTokenMint = poolState.tokenAMint ∨ inTokenMint = poolState.tokenBMint) ∧
      poolState.enabled = true ∧
      (QuotesEarly swapInitiator poolState ∨
        poolState.bootstrapping.activationPoint ≤ params.currentPoint poolState) ∧
      swapCurve = .constantProduct := by
  have hguard : ∀ guarded : Bool, (do
      if guarded then
        invariant (params.currentPoint poolState ≥ poolState.bootstrapping.activationPoint)
          "Swap is disabled"
      pure SwapCurve.constantProduct) = (Except.ok swapCurve : Throwing SwapCurve) ↔
      (guarded = false ∨ poolState.bootstrapping.activationPoint ≤ params.currentPoint poolState) ∧
        swapCurve = .constantProduct := by
    intro guarded
    rw [eq_comm (a := swapCurve)]
    cases guarded with
    | false =>
        change (pure SwapCurve.constantProduct : Throwing SwapCurve) = .ok swapCurve ↔ _
        simp only [pure_eq_ok, true_or, true_and]
    | true =>
        change (invariant _ _ >>= fun _ => pure SwapCurve.constantProduct) = .ok swapCurve ↔ _
        simp only [bind_eq_ok, pure_eq_ok, invariant_eq_ok, decide_eq_true_eq, exists_const,
          Bool.true_eq_false, false_or, ge_iff_le]
  have hearly : ((!swapInitiator.elim false fun initiator =>
      decide (initiator = poolState.bootstrapping.whitelistedVault)) = false) ↔
      QuotesEarly swapInitiator poolState := by
    cases swapInitiator <;> simp [QuotesEarly]
  rw [← hearly, ← hguard]
  simp only [makeSwapCurve, h, bind_eq_ok, invariant_eq_ok, decide_eq_true_eq, exists_const]
  cases swapInitiator with
  | none => rfl
  | some initiator => rfl

/-! ### The fees -/

/-- The fees that the program accepts: fractions of at most one. -/
structure PoolFees.Valid (fees : PoolFees) : Prop where
  trade_nonneg : 0 ≤ fees.tradeFeeNumerator
  trade_le : fees.tradeFeeNumerator ≤ fees.tradeFeeDenominator
  trade_pos : 0 < fees.tradeFeeDenominator
  protocol_nonneg : 0 ≤ fees.protocolTradeFeeNumerator
  protocol_le : fees.protocolTradeFeeNumerator ≤ fees.protocolTradeFeeDenominator
  protocol_pos : 0 < fees.protocolTradeFeeDenominator

/-- A fraction of at most one of an amount is at most the amount. -/
theorem div_fraction_bounds {amount numerator denominator fee : Int} (hamount : 0 ≤ amount)
    (hnumerator : 0 ≤ numerator) (hle : numerator ≤ denominator) (hpos : 0 < denominator)
    (h : BN.div (amount * numerator) denominator = .ok fee) : 0 ≤ fee ∧ fee ≤ amount := by
  obtain ⟨-, rfl⟩ := BN.div_eq_ok.mp h
  have hproduct : 0 ≤ amount * numerator := mul_nonneg hamount hnumerator
  rw [Int.tdiv_eq_ediv_of_nonneg hproduct]
  refine ⟨Int.ediv_nonneg hproduct hpos.le, Int.ediv_le_of_le_mul hpos ?_⟩
  exact mul_le_mul_of_nonneg_left hle hamount

theorem tradingFee_bounds (hfees : poolState.fees.Valid) {amount fee : Int} (hamount : 0 ≤ amount)
    (h : calculateTradingFee amount poolState = .ok fee) : 0 ≤ fee ∧ fee ≤ amount :=
  div_fraction_bounds hamount hfees.trade_nonneg hfees.trade_le hfees.trade_pos h

/-! ### The whole body -/

/-- A quote takes three steps, of which only the second sees the depeg record. -/
theorem calculateSwapQuote_apply (sdk : VaultSdk) (decoders : StakeDecoders) (inTokenMint : Pubkey)
    (inAmount : Int) (params : SwapQuoteParam) (swapInitiator : Option Pubkey) (poolState : PoolState) :
    calculateSwapQuote sdk decoders inTokenMint inAmount params swapInitiator poolState =
      match makeSwapCurve inTokenMint params swapInitiator poolState,
        settleSource sdk inTokenMint inAmount params poolState with
      | .ok swapCurve, .ok source =>
          let direction := tradeDirectionOf inTokenMint poolState
          let sides := params.sides source.tokenAAmount source.tokenBAmount direction
          let out := swapCurve.computeOutAmount decoders source.sourceAmountWithFee
            sides.swapSourceAmount sides.swapDestinationAmount direction poolState
          (out.1.bind (payDestination sdk inTokenMint params poolState source), out.2)
      | .ok _, .error e => (.error e, poolState)
      | .error e, _ => (.error e, poolState) := by
  simp only [calculateSwapQuote, Call.bind_apply, Call.read_apply, Call.lift_apply]
  rcases makeSwapCurve inTokenMint params swapInitiator poolState with e | swapCurve
  · rfl
  rcases settleSource sdk inTokenMint inAmount params poolState with e | source
  · rfl
  simp only
  rcases swapCurve.computeOutAmount decoders _ _ _ _ poolState with ⟨_ | _, _⟩ <;> rfl

variable {sdk : VaultSdk} {inAmount : Int}

def Source.sides (source : Source) (params : SwapQuoteParam) (direction : TradeDirection) : TradeSides :=
  params.sides source.tokenAAmount source.tokenBAmount direction

theorem settleSource_eq_ok {source : Source} :
    settleSource sdk inTokenMint inAmount params poolState = .ok source ↔
      ∃ withdrawableA, sdk.calculateWithdrawableAmount params.currentTime params.vaultA =
        .ok withdrawableA ∧
      ∃ withdrawableB, sdk.calculateWithdrawableAmount params.currentTime params.vaultB =
        .ok withdrawableB ∧
      sdk.getAmountByShare params.poolVaultALp withdrawableA params.vaultALpSupply =
        .ok source.tokenAAmount ∧
      sdk.getAmountByShare params.poolVaultBLp withdrawableB params.vaultBLpSupply =
        .ok source.tokenBAmount ∧
      ∃ tradeFee, calculateTradingFee inAmount poolState = .ok tradeFee ∧
      ∃ protocolFee, calculateProtocolTradingFee tradeFee poolState = .ok protocolFee ∧
      source.tradeFeeAfterProtocolFee = tradeFee - protocolFee ∧
      ∃ withdrawable, sdk.calculateWithdrawableAmount params.currentTime
        (source.sides params (tradeDirectionOf inTokenMint poolState)).swapSourceVault =
        .ok withdrawable ∧
      ∃ lp, sdk.getUnmintAmount (inAmount - protocolFee) withdrawable
        (source.sides params (tradeDirectionOf inTokenMint poolState)).swapSourceVaultLpSupply = .ok lp ∧
      ∃ after, sdk.getAmountByShare
        (lp + (source.sides params (tradeDirectionOf inTokenMint poolState)).swapSourceVaultLpAmount)
        (withdrawable + (inAmount - protocolFee))
        ((source.sides params (tradeDirectionOf inTokenMint poolState)).swapSourceVaultLpSupply + lp) =
        .ok after ∧
      source.sourceAmountWithFee =
        after - (source.sides params (tradeDirectionOf inTokenMint poolState)).swapSourceAmount -
          (tradeFee - protocolFee) := by
  simp only [settleSource, bind_eq_ok, pure_eq_ok]
  constructor
  · rintro ⟨wA, hwA, wB, hwB, a, ha, b, hb, fee, hfee, cut, hcut, w, hw, lp, hlp, after, hafter, hsource⟩
    subst hsource
    exact ⟨wA, hwA, wB, hwB, ha, hb, fee, hfee, cut, hcut, rfl, w, hw, lp, hlp, after, hafter, rfl⟩
  · rintro ⟨wA, hwA, wB, hwB, ha, hb, fee, hfee, cut, hcut, hcharged, w, hw, lp, hlp, after, hafter, hleft⟩
    refine ⟨wA, hwA, wB, hwB, _, ha, _, hb, fee, hfee, cut, hcut, w, hw, lp, hlp, after, hafter, ?_⟩
    obtain ⟨a, b, charged, left⟩ := source
    simp only at hcharged hleft
    rw [hcharged, hleft]
    rfl

def SwapQuoteParam.destinationReserve (params : SwapQuoteParam) : TradeDirection → Int
  | .aToB => params.vaultBReserve
  | .bToA => params.vaultAReserve

/-- With two different mints, the limit is the smaller of the pool's own amount and the reserve. -/
theorem calculateMaxSwapOutAmount_eq (params : SwapQuoteParam) (source : Source)
    (hmints : poolState.tokenAMint ≠ poolState.tokenBMint) (direction : TradeDirection) :
    calculateMaxSwapOutAmount
        (match direction with
          | .aToB => poolState.tokenBMint
          | .bToA => poolState.tokenAMint)
        poolState.tokenAMint poolState.tokenBMint source.tokenAAmount source.tokenBAmount
        params.vaultAReserve params.vaultBReserve =
      .ok (min (source.sides params direction).swapDestinationAmount
        (params.destinationReserve direction)) := by
  have hmin : ∀ a b : Int, (if a > b then b else a) = min a b := by
    intro a b
    split <;> omega
  cases direction with
  | aToB => simp [calculateMaxSwapOutAmount, hmints.symm, hmin, invariant, Source.sides,
      SwapQuoteParam.sides, SwapQuoteParam.destinationReserve]
  | bToA => simp [calculateMaxSwapOutAmount, hmin, invariant, Source.sides,
      SwapQuoteParam.sides, SwapQuoteParam.destinationReserve]

theorem payDestination_eq_ok (hmints : poolState.tokenAMint ≠ poolState.tokenBMint) {source : Source}
    {out : OutResult} {result : SwapResult} :
    payDestination sdk inTokenMint params poolState source out = .ok result ↔
      ∃ withdrawable, sdk.calculateWithdrawableAmount params.currentTime
        (source.sides params (tradeDirectionOf inTokenMint poolState)).swapDestinationVault =
        .ok withdrawable ∧
      ∃ lp, sdk.getUnmintAmount out.outAmount withdrawable
        (source.sides params (tradeDirectionOf inTokenMint poolState)).swapDestinationVaultLpSupply =
        .ok lp ∧
      sdk.getAmountByShare lp withdrawable
        (source.sides params (tradeDirectionOf inTokenMint poolState)).swapDestinationVaultLpSupply =
        .ok result.amountOut ∧
      result.amountOut <
        (source.sides params (tradeDirectionOf inTokenMint poolState)).swapDestinationAmount ∧
      result.amountOut < params.destinationReserve (tradeDirectionOf inTokenMint poolState) ∧
      result.fee = source.tradeFeeAfterProtocolFee ∧ result.priceImpact = out.priceImpact := by
  have hmax := calculateMaxSwapOutAmount_eq params source hmints
    (tradeDirectionOf inTokenMint poolState)
  simp only [payDestination, bind_eq_ok, pure_eq_ok, invariant_eq_ok, decide_eq_true_eq]
  constructor
  · rintro ⟨w, hw, lp, hlp, amount, hamount, most, hmost, _, hlt, hresult⟩
    obtain rfl : _ = most := Except.ok.inj (hmax.symm.trans hmost)
    obtain ⟨htotal, hreserve⟩ := lt_min_iff.mp hlt
    subst hresult
    exact ⟨w, hw, lp, hlp, hamount, htotal, hreserve, rfl, rfl⟩
  · rintro ⟨w, hw, lp, hlp, hamount, htotal, hreserve, hfee, himpact⟩
    refine ⟨w, hw, lp, hlp, _, hamount, _, hmax, (), lt_min htotal hreserve, ?_⟩
    rw [← hfee, ← himpact]

/-- A quote returns when its three steps do. -/
theorem calculateSwapQuote_eq_ok {decoders : StakeDecoders} {result : SwapResult} :
    (calculateSwapQuote sdk decoders inTokenMint inAmount params swapInitiator poolState).1 = .ok result ↔
      ∃ swapCurve, makeSwapCurve inTokenMint params swapInitiator poolState = .ok swapCurve ∧
      ∃ source, settleSource sdk inTokenMint inAmount params poolState = .ok source ∧
      ∃ out, (swapCurve.computeOutAmount decoders source.sourceAmountWithFee
        (source.sides params (tradeDirectionOf inTokenMint poolState)).swapSourceAmount
        (source.sides params (tradeDirectionOf inTokenMint poolState)).swapDestinationAmount
        (tradeDirectionOf inTokenMint poolState) poolState).1 = .ok out ∧
      payDestination sdk inTokenMint params poolState source out = .ok result := by
  rw [calculateSwapQuote_apply]
  rcases makeSwapCurve inTokenMint params swapInitiator poolState with e | swapCurve
  · simp
  rcases settleSource sdk inTokenMint inAmount params poolState with e | source
  · simp
  simp only [Except.ok.injEq, exists_eq_left']
  exact bind_eq_ok

theorem calculateSwapQuote_constantProduct_eq_ok {decoders : StakeDecoders} {result : SwapResult}
    (hcurve : poolState.curveType = .constantProduct) :
    (calculateSwapQuote sdk decoders inTokenMint inAmount params swapInitiator poolState).1 = .ok result ↔
      makeSwapCurve inTokenMint params swapInitiator poolState = .ok .constantProduct ∧
      ∃ source, settleSource sdk inTokenMint inAmount params poolState = .ok source ∧
      ∃ out, ConstantProductSwap.computeOutAmount source.sourceAmountWithFee
        (source.sides params (tradeDirectionOf inTokenMint poolState)).swapSourceAmount
        (source.sides params (tradeDirectionOf inTokenMint poolState)).swapDestinationAmount = .ok out ∧
      payDestination sdk inTokenMint params poolState source out = .ok result := by
  rw [calculateSwapQuote_eq_ok]
  constructor
  · rintro ⟨swapCurve, hmake, hrest⟩
    obtain ⟨-, -, -, rfl⟩ := (makeSwapCurve_constantProduct hcurve).mp hmake
    exact ⟨hmake, hrest⟩
  · rintro ⟨hmake, hrest⟩
    exact ⟨.constantProduct, hmake, hrest⟩

/-! ### A pool to quote on -/

/-- A vault SDK that computes the formulas of the vault program. -/
def sampleSdk : VaultSdk where
  calculateWithdrawableAmount time vault := .ok (vault.withdrawable time.val)
  getAmountByShare share amount supply := if supply = 0 then .ok 0 else BN.div (share * amount) supply
  getUnmintAmount amount withdrawable supply := BN.div (amount * supply) withdrawable

theorem sampleSdk_lawful : sampleSdk.Lawful where
  withdrawable _ _ _ := rfl
  amountByShare share amount supply hsupply := by
    simp only [sampleSdk, if_neg hsupply]
    exact BN.div_eq_ok.mpr ⟨hsupply, rfl⟩
  amountByShare_zero share amount result h := by
    simp only [sampleSdk, if_true, Except.ok.injEq] at h
    exact h.symm
  unmintAmount amount withdrawable supply hwithdrawable :=
    BN.div_eq_ok.mpr ⟨hwithdrawable, rfl⟩
  unmintAmount_zero amount supply := ⟨assertionFailed, rfl⟩

def sampleDecoders : StakeDecoders := ⟨fun _ => throw missingAccount, fun _ => throw missingAccount⟩

def sampleMintA : Pubkey := Pubkey.replicate 1

def samplePoolState (fees : PoolFees) (curveType : CurveType) : PoolState where
  tokenAMint := sampleMintA
  tokenBMint := Pubkey.replicate 2
  enabled := true
  fees := fees
  stake := Pubkey.replicate 0
  bootstrapping := { activationPoint := 0, whitelistedVault := Pubkey.replicate 0, activationType := 0 }
  curveType := curveType

def sampleVault (totalAmount : Int) : VaultState where
  totalAmount := totalAmount
  lockedProfitTracker :=
    { lastUpdatedLockedProfit := 0, lastReport := 0, lockedProfitDegradation := 0 }

def sampleTime : SafeInteger := ⟨1000, by decide⟩

def sampleSlot : SafeInteger := ⟨10, by decide⟩

def sampleParams (totalA totalB : Int) (currentTime : SafeInteger) (depegAccounts : DepegAccounts) :
    SwapQuoteParam where
  vaultA := sampleVault totalA
  vaultB := sampleVault totalB
  poolVaultALp := 500000
  poolVaultBLp := 400000
  vaultALpSupply := 1000000
  vaultBLpSupply := 1000000
  vaultAReserve := 1000000
  vaultBReserve := 1000000
  currentTime := currentTime
  currentSlot := sampleSlot
  depegAccounts := depegAccounts

end DynamicAmm.Client

import DynamicAmm.Quote.ComputeQuote

/-!
# What a successful quote has settled

The one place where the body of the quote is taken apart. A run that returns `ok` has passed every guard,
and the amounts it leaves behind are tied together by the equations of `Settled`, all over the natural
numbers. The statement is an equivalence, so it is also how a run is shown to succeed.
-/

namespace DynamicAmm.Quote

open Rust Program
open Outcome (context ensure)

variable (accounts : StakeAccounts) (libraries : CurveLibraries)

/-! ### The refreshed pool -/

theorem updateBaseVirtualPrice_pool (pool : Pool) (clock : Clock) (stakeData : StakeData) :
    ∃ curveType, (updateBaseVirtualPrice accounts pool clock stakeData).2 = { pool with curveType } := by
  unfold updateBaseVirtualPrice
  split
  · exact ⟨_, rfl⟩
  · split
    · exact ⟨_, rfl⟩
    · split
      · exact ⟨_, rfl⟩
      · split
        · split <;> exact ⟨_, rfl⟩
        · exact ⟨_, rfl⟩

@[simp] theorem updateBaseVirtualPrice_tokenAMint (pool : Pool) (clock : Clock) (stakeData : StakeData) :
    (updateBaseVirtualPrice accounts pool clock stakeData).2.tokenAMint = pool.tokenAMint := by
  obtain ⟨_, h⟩ := updateBaseVirtualPrice_pool accounts pool clock stakeData
  rw [h]

@[simp] theorem updateBaseVirtualPrice_tokenBMint (pool : Pool) (clock : Clock) (stakeData : StakeData) :
    (updateBaseVirtualPrice accounts pool clock stakeData).2.tokenBMint = pool.tokenBMint := by
  obtain ⟨_, h⟩ := updateBaseVirtualPrice_pool accounts pool clock stakeData
  rw [h]

@[simp] theorem updateBaseVirtualPrice_fees (pool : Pool) (clock : Clock) (stakeData : StakeData) :
    (updateBaseVirtualPrice accounts pool clock stakeData).2.fees = pool.fees := by
  obtain ⟨_, h⟩ := updateBaseVirtualPrice_pool accounts pool clock stakeData
  rw [h]

/-! ### The guards -/

/-- The point that the activation of a pool is measured against. -/
def Clock.point (clock : Clock) : ActivationType → UInt64
  | .slot => clock.slot
  | .timestamp => clock.unixTimestamp.toUInt64

/-- The pool is past its activation point. -/
def Activated (pool : Pool) (clock : Clock) : Prop :=
  ∃ activationType, ActivationType.tryFrom pool.bootstrapping.activationType = .ok activationType ∧
    pool.bootstrapping.activationPoint ≤ clock.point activationType

theorem timeTryIntoU64_eq_ok {time : Int64} {t : UInt64} :
    timeTryIntoU64 time = .ok t ↔ 0 ≤ time.toInt ∧ t = time.toUInt64 := by
  unfold timeTryIntoU64
  split
  · simp_all [eq_comm]
  · simp_all

theorem tryIntoU64_eq_ok {amount : Nat} {r : UInt64} : tryIntoU64 amount = .ok r ↔ r.toNat = amount := by
  rw [tryIntoU64, Outcome.context_eq_ok, tryU64_eq_some]

/-- A deposit adds to the unlocked amount what it adds to the total. -/
theorem getUnlockedAmount_add {vault : Vault} {time unlocked totalAmount amount : UInt64}
    (hunlocked : vault.getUnlockedAmount time = some unlocked)
    (htotal : totalAmount.toNat = vault.totalAmount.toNat + amount.toNat) :
    ∃ unlocked', Vault.getUnlockedAmount { vault with totalAmount } time = some unlocked' ∧
      unlocked'.toNat = unlocked.toNat + amount.toNat := by
  rw [Vault.getUnlockedAmount_eq_some] at hunlocked
  have hlt : unlocked.toNat + amount.toNat < 2 ^ 64 := by
    have := totalAmount.toNat_lt
    omega
  refine ⟨UInt64.ofNat (unlocked.toNat + amount.toNat), ?_, UInt64.toNat_ofNat_of_lt' hlt⟩
  rw [Vault.getUnlockedAmount_eq_some, UInt64.toNat_ofNat_of_lt' hlt]
  exact ⟨hunlocked.1, by simp only; omega⟩

/-! ### The equations -/

/-- The equations between the amounts of a quote, given the unlocked amounts of the two vaults. -/
structure Settled (fees : PoolFees) (curve : SwapCurve) (inAmount : UInt64)
    (direction : TradeDirection) (trade : TradeAccounts) (inUnlocked outUnlocked : Nat)
    (steps : QuoteSteps) : Prop where
  inUnlocked_ne : inUnlocked ≠ 0
  outUnlocked_ne : outUnlocked ≠ 0
  outSupply_ne : trade.outVaultLpMint.supply.toNat ≠ 0
  tradeFee : fees.tradingFee inAmount.toNat = some steps.tradeFee
  protocolFee : fees.protocolTradingFee steps.tradeFee = some steps.protocolFee.toNat
  afterProtocolFee : steps.inAmountAfterProtocolFee.toNat + steps.protocolFee.toNat = inAmount.toNat
  inLp : steps.inLp.toNat =
    steps.inAmountAfterProtocolFee.toNat * trade.inVaultLpMint.supply.toNat / inUnlocked
  total_lt : trade.inVault.totalAmount.toNat + steps.inAmountAfterProtocolFee.toNat < 2 ^ 64
  held_lt : steps.inLp.toNat + trade.inVaultLp.amount.toNat < 2 ^ 64
  supply_lt : trade.inVaultLpMint.supply.toNat + steps.inLp.toNat < 2 ^ 64
  newSupply_ne : trade.inVaultLpMint.supply.toNat + steps.inLp.toNat ≠ 0
  actualInAmount : steps.actualInAmount.toNat + trade.inTokenTotalAmount.toNat =
    (steps.inLp.toNat + trade.inVaultLp.amount.toNat) *
      (inUnlocked + steps.inAmountAfterProtocolFee.toNat) /
      (trade.inVaultLpMint.supply.toNat + steps.inLp.toNat)
  after_lt : steps.actualInAmount.toNat + trade.inTokenTotalAmount.toNat < 2 ^ 64
  fee : steps.result.fee.toNat = steps.tradeFee
  afterFee : steps.actualInAmountAfterFee.toNat + steps.tradeFee = steps.actualInAmount.toNat
  swap : ∃ result, curve.swap libraries steps.actualInAmountAfterFee trade.inTokenTotalAmount
      trade.outTokenTotalAmount direction = some result ∧
    steps.destinationAmountSwapped.toNat = result.destinationAmountSwapped
  outVaultLp : steps.outVaultLp.toNat =
    steps.destinationAmountSwapped.toNat * trade.outVaultLpMint.supply.toNat / outUnlocked
  outAmount : steps.result.outAmount.toNat =
    steps.outVaultLp.toNat * outUnlocked / trade.outVaultLpMint.supply.toNat
  reserve : steps.result.outAmount < trade.outVaultTokenAccount.amount

theorem settleTrade_eq_ok {fees : PoolFees} {curveType : CurveType} {time inAmount : UInt64}
    {direction : TradeDirection} {trade : TradeAccounts} {inUnlocked outUnlocked : UInt64}
    {steps : QuoteSteps} (hin : trade.inVault.getUnlockedAmount time = some inUnlocked)
    (hout : trade.outVault.getUnlockedAmount time = some outUnlocked) :
    settleTrade libraries fees curveType time inAmount direction trade = .ok steps ↔
      Settled libraries fees (getSwapCurve curveType) inAmount direction trade inUnlocked.toNat
        outUnlocked.toNat steps := by
  simp only [settleTrade, Outcome.bind_eq_ok, Outcome.context_eq_ok, Outcome.ensure_eq_ok,
    Outcome.pure_eq_ok, exists_and_left, decide_eq_true_eq, tryIntoU64_eq_ok,
    Vault.getAmountByShare_eq_some, Vault.getUnmintAmount_eq_some, checkedAdd_eq_some,
    checkedSub_eq_some, hin, hout, Option.some.injEq, exists_eq_left']
  constructor
  · rintro ⟨tradeFee, htrade, _, hprotocol, protocolFee, rfl, afterProtocol, hafter, inLp, ⟨hne, hlp⟩,
      total, htotal, newLp, hnewLp, newSupply, hnewSupply, afterTotal, ⟨unlocked', hunlocked', hnewNe,
      hafterTotal⟩, actual, hactual, fee, hfee, afterFee, hafterFee, result, hswap, destination,
      hdestination, outLp, ⟨houtNe, houtLp⟩, outAmount, ⟨hsupplyNe, houtAmount⟩, hreserve, _, fee',
      hfee', rfl⟩
    obtain ⟨unlocked, hunlocked, hadd⟩ := getUnlockedAmount_add hin htotal
    rw [hunlocked, Option.some.injEq] at hunlocked'
    subst hunlocked'
    rw [hnewLp, hnewSupply, hadd] at hafterTotal
    exact {
      inUnlocked_ne := hne
      outUnlocked_ne := houtNe
      outSupply_ne := hsupplyNe
      tradeFee := htrade
      protocolFee := hprotocol
      afterProtocolFee := hafter
      inLp := hlp
      total_lt := htotal ▸ total.toNat_lt
      held_lt := hnewLp ▸ newLp.toNat_lt
      supply_lt := hnewSupply ▸ newSupply.toNat_lt
      newSupply_ne := hnewSupply ▸ hnewNe
      actualInAmount := hactual.trans hafterTotal
      after_lt := hactual ▸ afterTotal.toNat_lt
      fee := hfee'
      afterFee := hfee ▸ hafterFee
      swap := ⟨result, hswap, hdestination⟩
      outVaultLp := houtLp
      outAmount := houtAmount
      reserve := hreserve }
  · intro h
    obtain ⟨result, hswap, hdestination⟩ := h.swap
    have hfee : (UInt64.ofNat steps.tradeFee).toNat = steps.tradeFee := by
      rw [← h.fee, UInt64.ofNat_toNat]
    have htotal := UInt64.toNat_ofNat_of_lt' h.total_lt
    have hheld := UInt64.toNat_ofNat_of_lt' h.held_lt
    have hsupply := UInt64.toNat_ofNat_of_lt' h.supply_lt
    obtain ⟨unlocked, hunlocked, hadd⟩ := getUnlockedAmount_add hin htotal
    refine ⟨_, h.tradeFee, _, h.protocolFee, steps.protocolFee, rfl, steps.inAmountAfterProtocolFee,
      h.afterProtocolFee, steps.inLp, ⟨h.inUnlocked_ne, h.inLp⟩, _, htotal, _, hheld, _, hsupply,
      UInt64.ofNat _, ⟨unlocked, hunlocked, ?_, ?_⟩, steps.actualInAmount,
      (UInt64.toNat_ofNat_of_lt' h.after_lt).symm, _, hfee, steps.actualInAmountAfterFee, ?_, result,
      hswap, steps.destinationAmountSwapped, hdestination, steps.outVaultLp,
      ⟨h.outUnlocked_ne, h.outVaultLp⟩, steps.result.outAmount, ⟨h.outSupply_ne, h.outAmount⟩, h.reserve,
      (), steps.result.fee, h.fee, rfl⟩
    · rw [hsupply]
      exact h.newSupply_ne
    · rw [UInt64.toNat_ofNat_of_lt' h.after_lt, hheld, hsupply, hadd]
      exact h.actualInAmount
    · rw [hfee]
      exact h.afterFee

/-! ### The whole body -/

def QuoteData.vaultInfoA (quoteData : QuoteData) : VaultInfo where
  lpAmount := quoteData.poolVaultALpToken.amount
  lpSupply := quoteData.vaultALpMint.supply
  vault := quoteData.vaultA

def QuoteData.vaultInfoB (quoteData : QuoteData) : VaultInfo where
  lpAmount := quoteData.poolVaultBLpToken.amount
  lpSupply := quoteData.vaultBLpMint.supply
  vault := quoteData.vaultB

def QuoteData.poolTokens (quoteData : QuoteData) (time : UInt64) : Outcome (UInt64 × UInt64) :=
  computePoolTokens time quoteData.vaultInfoA quoteData.vaultInfoB

/-- The direction of a trade is decided by the first mint alone. -/
def QuoteData.directionOf (quoteData : QuoteData) (inTokenMint : Pubkey) : TradeDirection :=
  if inTokenMint = quoteData.pool.tokenAMint then .aToB else .bToA

/-- A quote runs through exactly when the pool is open, the price is fresh, the clock and the mint make
sense, the pool's amounts are defined, and the trade settles. -/
theorem computeQuoteSteps_eq_ok {inTokenMint : Pubkey} {inAmount : UInt64} {quoteData : QuoteData}
    {steps : QuoteSteps} :
    computeQuoteSteps accounts libraries inTokenMint inAmount quoteData = .ok steps ↔
      Activated quoteData.pool quoteData.clock ∧ quoteData.pool.enabled = true ∧
      (updateBaseVirtualPrice accounts quoteData.pool quoteData.clock quoteData.stakeData).1 = .ok () ∧
      (inTokenMint = quoteData.pool.tokenAMint ∨ inTokenMint = quoteData.pool.tokenBMint) ∧
      ∃ time, timeTryIntoU64 quoteData.clock.unixTimestamp = .ok time ∧
      ∃ a b, quoteData.poolTokens time = .ok (a, b) ∧
      settleTrade libraries quoteData.pool.fees
        (updateBaseVirtualPrice accounts quoteData.pool quoteData.clock quoteData.stakeData).2.curveType
        time inAmount (quoteData.directionOf inTokenMint)
        (quoteData.tradeAccounts a b (quoteData.directionOf inTokenMint)) = .ok steps := by
  simp only [computeQuoteSteps, Outcome.bind_eq_ok, Outcome.context_eq_ok, Outcome.ensure_eq_ok,
    exists_and_left, decide_eq_true_eq, updateBaseVirtualPrice_tokenAMint,
    updateBaseVirtualPrice_tokenBMint, updateBaseVirtualPrice_fees, QuoteData.poolTokens,
    QuoteData.vaultInfoA, QuoteData.vaultInfoB, computePoolTokens, Outcome.pure_eq_ok, Prod.mk.injEq]
  constructor
  · rintro ⟨type, htype, henabled, hpoint, -, -, ⟨⟩, hrefresh, time, htime, hmint, -, a, ha, b, hb, hsettle⟩
    exact ⟨⟨type, htype, hpoint⟩, henabled, hrefresh, hmint, time, htime, a, b,
      ⟨a, ha, b, hb, rfl, rfl⟩, hsettle⟩
  · rintro ⟨⟨type, htype, hpoint⟩, henabled, hrefresh, hmint, time, htime, a, b,
      ⟨_, ha, _, hb, rfl, rfl⟩, hsettle⟩
    exact ⟨type, htype, henabled, hpoint, (), (), (), hrefresh, time, htime, hmint, (), _, ha, _, hb,
      hsettle⟩

end DynamicAmm.Quote

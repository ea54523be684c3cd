import DynamicAmm.Base.PooledSwap
import DynamicAmm.Proof.Quote.Backing

/-!
# A quoted swap keeps the product

Executing the steps of a constant product quote deposits on one side and withdraws on the other. The
deposit raises the pool's amount by at least what the curve was given, the withdrawal lowers it by at most
what the curve paid, and the curve never pays more than the product allows. Every rounding in between
goes to the pool.
-/

namespace DynamicAmm.Quote

open Rust Program

/-- The swap of the SPL token swap library: it fails on an invariant that is smaller than the new source
balance and on a payout of zero. -/
def SplSwapPays (libraries : CurveLibraries) : Prop :=
  ∀ amount source destination, amount < 2 ^ 64 → source < 2 ^ 64 → destination < 2 ^ 64 →
    (libraries.splSwap amount source destination).map SwapWithoutFeesResult.destinationAmountSwapped =
      if source * destination < source + amount ∨ source + amount = 0 ∨
          ProductCurve.payout source destination amount = 0 then none
      else some (ProductCurve.payout source destination amount)

/-! ### Executing a quote -/

def TradeAccounts.inInfo (trade : TradeAccounts) : VaultInfo where
  lpAmount := trade.inVaultLp.amount
  lpSupply := trade.inVaultLpMint.supply
  vault := trade.inVault

def TradeAccounts.outInfo (trade : TradeAccounts) : VaultInfo where
  lpAmount := trade.outVaultLp.amount
  lpSupply := trade.outVaultLpMint.supply
  vault := trade.outVault

/-- Put the two sides back as vault A and vault B. -/
def QuoteData.withSides (quoteData : QuoteData) (infoA infoB : VaultInfo) : QuoteData :=
  { quoteData with
    vaultA := infoA.vault
    vaultB := infoB.vault
    poolVaultALpToken := ⟨infoA.lpAmount⟩
    poolVaultBLpToken := ⟨infoB.lpAmount⟩
    vaultALpMint := ⟨infoA.lpSupply⟩
    vaultBLpMint := ⟨infoB.lpSupply⟩ }

/-- Move the tokens and the LP that the steps of a quote settled. The token amounts of the pool are no
part of the accounts moved, so any two will do for the sides. -/
def QuoteData.execute (quoteData : QuoteData) (inTokenMint : Pubkey) (steps : QuoteSteps) :
    Option QuoteData := do
  let direction := quoteData.directionOf inTokenMint
  let trade := quoteData.tradeAccounts 0 0 direction
  let inInfo ← trade.inInfo.deposit steps.inAmountAfterProtocolFee steps.inLp
  let outInfo ← trade.outInfo.withdraw steps.result.outAmount steps.outVaultLp
  match direction with
  | .aToB => some (quoteData.withSides inInfo outInfo)
  | .bToA => some (quoteData.withSides outInfo inInfo)

/-! ### The two sides -/

variable {libraries : CurveLibraries}

theorem constantProduct_swap_pays (hspl : SplSwapPays libraries) {amount source destination : UInt64}
    {result : SwapResult} (h : ConstantProduct.swap libraries amount source destination = some result) :
    ProductCurve.Pays source.toNat destination.toNat amount.toNat ∧
      result.destinationAmountSwapped =
        ProductCurve.payout source.toNat destination.toNat amount.toNat := by
  simp only [ConstantProduct.swap, Option.bind_eq_bind, Option.bind_eq_some_iff, Option.some.injEq] at h
  obtain ⟨swapped, hswapped, -, -, -, -, rfl⟩ := h
  have hpays := hspl amount.toNat source.toNat destination.toNat amount.toNat_lt source.toNat_lt
    destination.toNat_lt
  rw [hswapped, Option.map_some] at hpays
  split at hpays
  · cases hpays
  · rename_i hguard
    rw [Option.some.injEq] at hpays
    exact ⟨⟨by omega, by omega, by omega⟩, hpays⟩

variable {fees : PoolFees} {curve : SwapCurve} {inAmount time : UInt64} {direction : TradeDirection}
  {trade : TradeAccounts} {steps : QuoteSteps} {v w : ShareVault}

theorem settleTrade_eq_ok_of_backs (libraries : CurveLibraries) {curveType : CurveType} (trade : TradeAccounts)
    (hin : Backs trade.inInfo time v) (hout : Backs trade.outInfo time w) :
    settleTrade libraries fees curveType time inAmount direction trade = .ok steps ↔
      Settled libraries fees (getSwapCurve curveType) inAmount direction trade v.total w.total steps := by
  obtain ⟨unlocked, hunlocked, htotal, -⟩ := hin
  obtain ⟨unlocked', hunlocked', htotal', -⟩ := hout
  rw [← htotal, ← htotal']
  exact settleTrade_eq_ok libraries hunlocked hunlocked'

/-- The source side after the deposit: it is worth what the curve was told, with the trade fee on top. -/
theorem Settled.deposit (h : Settled libraries fees curve inAmount direction trade v.total w.total steps)
    (hin : Backs trade.inInfo time v) :
    ∃ info, trade.inInfo.deposit steps.inAmountAfterProtocolFee steps.inLp = some info ∧
      ∃ amount, info.vault.getAmountByShare time info.lpAmount info.lpSupply = some amount ∧
        trade.inTokenTotalAmount.toNat + steps.actualInAmountAfterFee.toNat ≤ amount.toNat := by
  have hsupply : trade.inVaultLpMint.supply.toNat = v.supply := hin.choose_spec.2.2.1
  have hheld : trade.inVaultLp.amount.toNat = v.held := hin.choose_spec.2.2.2
  have hshares : steps.inLp.toNat = v.sharesFor steps.inAmountAfterProtocolFee.toNat := by
    rw [h.inLp, hsupply]
    rfl
  obtain ⟨info, hdeposit, hbacks⟩ := hin.deposit hshares h.total_lt h.supply_lt
  have hne : (v.deposit steps.inAmountAfterProtocolFee.toNat).supply ≠ 0 := by
    have := h.newSupply_ne
    simp only [ShareVault.deposit]
    omega
  obtain ⟨amount, hamount, hnew⟩ := hbacks.exists_amount hne
  refine ⟨info, hdeposit, amount, hamount, ?_⟩
  have hactual := h.actualInAmount
  rw [hsupply, hheld, hshares, Nat.add_comm (v.sharesFor _) v.held] at hactual
  have hafter := h.afterFee
  calc
    trade.inTokenTotalAmount.toNat + steps.actualInAmountAfterFee.toNat
        ≤ steps.actualInAmount.toNat + trade.inTokenTotalAmount.toNat := by omega
    _ = (v.deposit steps.inAmountAfterProtocolFee.toNat).value := hactual
    _ = amount.toNat := hnew.symm

/-- The destination side after the withdrawal: it keeps what the curve left, as long as the curve left
anything. -/
theorem Settled.withdraw (h : Settled libraries fees curve inAmount direction trade v.total w.total steps)
    (hout : Backs trade.outInfo time w) (hlt : steps.destinationAmountSwapped.toNat < w.value) :
    ∃ info, trade.outInfo.withdraw steps.result.outAmount steps.outVaultLp = some info ∧
      ∃ amount, info.vault.getAmountByShare time info.lpAmount info.lpSupply = some amount ∧
        w.value ≤ amount.toNat + steps.destinationAmountSwapped.toNat := by
  have hsupply : trade.outVaultLpMint.supply.toNat = w.supply := hout.choose_spec.2.2.1
  have hshares : steps.outVaultLp.toNat = w.sharesFor steps.destinationAmountSwapped.toNat := by
    rw [h.outVaultLp, hsupply]
    rfl
  have hworth : steps.result.outAmount.toNat = w.worth steps.outVaultLp.toNat := by
    rw [h.outAmount, hsupply]
    rfl
  have hheld := w.sharesFor_le_held hlt.le
  obtain ⟨info, hwithdraw, hbacks⟩ := hout.withdraw (hshares ▸ hheld) hworth
  rw [hshares] at hbacks
  have hsmall : w.sharesFor steps.destinationAmountSwapped.toNat < w.supply := by
    have hpos : 0 < w.supply := by
      have := h.outSupply_ne
      omega
    apply Nat.div_lt_of_lt_mul
    exact Nat.mul_lt_mul_of_pos_right (hlt.trans_le w.value_le_total) hpos
  have hne : (w.redeem (w.sharesFor steps.destinationAmountSwapped.toNat)).supply ≠ 0 := by
    simp only [ShareVault.redeem]
    omega
  obtain ⟨amount, hamount, hnew⟩ := hbacks.exists_amount hne
  refine ⟨info, hwithdraw, amount, hamount, ?_⟩
  rw [hnew]
  exact w.value_le_value_redeem_add hsmall

/-- Both sides together. -/
theorem Settled.product_le (hspl : SplSwapPays libraries)
    (h : Settled libraries fees .constantProduct inAmount direction trade v.total w.total steps)
    (hin : Backs trade.inInfo time v) (hout : Backs trade.outInfo time w)
    (houtValue : trade.outTokenTotalAmount.toNat = w.value) :
    ∃ inInfo outInfo, trade.inInfo.deposit steps.inAmountAfterProtocolFee steps.inLp = some inInfo ∧
      trade.outInfo.withdraw steps.result.outAmount steps.outVaultLp = some outInfo ∧
      ∃ x y, inInfo.vault.getAmountByShare time inInfo.lpAmount inInfo.lpSupply = some x ∧
        outInfo.vault.getAmountByShare time outInfo.lpAmount outInfo.lpSupply = some y ∧
        trade.inTokenTotalAmount.toNat * trade.outTokenTotalAmount.toNat ≤ x.toNat * y.toNat := by
  obtain ⟨result, hswap, hdestination⟩ := h.swap
  obtain ⟨hpays, hpaid⟩ := constantProduct_swap_pays hspl hswap
  rw [hpaid] at hdestination
  have hlt : steps.destinationAmountSwapped.toNat < w.value := by
    rw [hdestination, ← houtValue]
    exact hpays.payout_lt
  obtain ⟨inInfo, hdeposit, x, hx, hgrown⟩ := h.deposit hin
  obtain ⟨outInfo, hwithdraw, y, hy, hkept⟩ := h.withdraw hout hlt
  refine ⟨inInfo, outInfo, hdeposit, hwithdraw, x, y, hx, hy, ?_⟩
  have hleft : trade.outTokenTotalAmount.toNat -
      ProductCurve.payout trade.inTokenTotalAmount.toNat trade.outTokenTotalAmount.toNat
        steps.actualInAmountAfterFee.toNat ≤ y.toNat := by omega
  exact (ProductCurve.product_le (Nat.pos_of_ne_zero hpays.new_ne)).trans (Nat.mul_le_mul hgrown hleft)

/-! ### A pool to quote on -/

/-- A curve library that does what the SPL token swap does, with no stable curve. -/
def sampleLibraries : CurveLibraries where
  splSwap amount source destination :=
    if source * destination < source + amount ∨ source + amount = 0 ∨
        ProductCurve.payout source destination amount = 0 then none
    else some {
      sourceAmountSwapped :=
        (source * destination) ⌈/⌉ ProductCurve.keep source destination amount - source
      destinationAmountSwapped := ProductCurve.payout source destination amount }
  saberSwapTo2 _ _ _ _ _ := none

theorem sampleLibraries_pays : SplSwapPays sampleLibraries := by
  intro amount source destination _ _ _
  simp only [sampleLibraries]
  split <;> rfl

def sampleAccounts : StakeAccounts := ⟨fun _ => none, 0, fun _ => none⟩

def samplePool (fees : PoolFees) (curveType : CurveType) : Pool where
  tokenAMint := Pubkey.replicate 1
  tokenBMint := Pubkey.replicate 2
  enabled := true
  fees := fees
  stake := Pubkey.replicate 0
  bootstrapping := { activationPoint := 0, activationType := 0 }
  curveType := curveType

def sampleVault (totalAmount : UInt64) : Vault where
  totalAmount := totalAmount
  lockedProfitTracker :=
    { lastUpdatedLockedProfit := 0, lastReport := 0, lockedProfitDegradation := 0 }

def sampleQuoteData (fees : PoolFees) (totalA totalB : UInt64) : QuoteData where
  pool := samplePool fees .constantProduct
  vaultA := sampleVault totalA
  vaultB := sampleVault totalB
  poolVaultALpToken := ⟨500000⟩
  poolVaultBLpToken := ⟨400000⟩
  vaultALpMint := ⟨1000000⟩
  vaultBLpMint := ⟨1000000⟩
  vaultAToken := ⟨1000000⟩
  vaultBToken := ⟨1000000⟩
  clock := ⟨10, 1000⟩
  stakeData := fun _ => none

def sampleFees : PoolFees := ⟨250, 100000, 20000, 100000⟩

/-! ### The whole quote -/

variable (accounts : StakeAccounts)

theorem QuoteData.poolTokens_eq_ok {quoteData : QuoteData} {a b : UInt64} :
    quoteData.poolTokens time = .ok (a, b) ↔
      quoteData.vaultA.getAmountByShare time quoteData.poolVaultALpToken.amount
        quoteData.vaultALpMint.supply = some a ∧
      quoteData.vaultB.getAmountByShare time quoteData.poolVaultBLpToken.amount
        quoteData.vaultBLpMint.supply = some b := by
  simp only [QuoteData.poolTokens, computePoolTokens, Outcome.bind_eq_ok, Outcome.context_eq_ok,
    Outcome.pure_eq_ok, Prod.mk.injEq]
  constructor
  · rintro ⟨_, ha, _, hb, rfl, rfl⟩
    exact ⟨ha, hb⟩
  · rintro ⟨ha, hb⟩
    exact ⟨a, ha, b, hb, rfl, rfl⟩

theorem computeQuote_product_le (hspl : SplSwapPays libraries) {quoteData : QuoteData}
    (hcurve : quoteData.pool.curveType = .constantProduct)
    (hlpA : quoteData.poolVaultALpToken.amount ≤ quoteData.vaultALpMint.supply)
    (hlpB : quoteData.poolVaultBLpToken.amount ≤ quoteData.vaultBLpMint.supply)
    {inTokenMint : Pubkey} {result : QuoteResult}
    (h : computeQuote accounts libraries inTokenMint inAmount quoteData = .ok result) :
    ∃ steps, computeQuoteSteps accounts libraries inTokenMint inAmount quoteData = .ok steps ∧
      steps.result = result ∧
      ∃ time, timeTryIntoU64 quoteData.clock.unixTimestamp = .ok time ∧
      ∃ a b, quoteData.poolTokens time = .ok (a, b) ∧
      ∃ swapped, quoteData.execute inTokenMint steps = some swapped ∧
      ∃ a' b', swapped.poolTokens time = .ok (a', b') ∧ a.toNat * b.toNat ≤ a'.toNat * b'.toNat := by
  simp only [computeQuote, Outcome.bind_eq_ok, Outcome.pure_eq_ok] at h
  obtain ⟨steps, hsteps, hresult⟩ := h
  refine ⟨steps, hsteps, hresult, ?_⟩
  obtain ⟨-, -, -, -, time, htime, a, b, htokens, hsettle⟩ :=
    (computeQuoteSteps_eq_ok accounts libraries).mp hsteps
  refine ⟨time, htime, a, b, htokens, ?_⟩
  obtain ⟨ha, hb⟩ := QuoteData.poolTokens_eq_ok.mp htokens
  obtain ⟨v, hv⟩ : ∃ v, Backs quoteData.vaultInfoA time v := exists_backs ha hlpA
  obtain ⟨w, hw⟩ : ∃ w, Backs quoteData.vaultInfoB time w := exists_backs hb hlpB
  have hav := (hv.getAmountByShare_eq_some.mp ha).2
  have hbw := (hw.getAmountByShare_eq_some.mp hb).2
  rw [updateBaseVirtualPrice_constantProduct accounts hcurve, hcurve] at hsettle
  generalize hdirection : quoteData.directionOf inTokenMint = direction at hsettle
  cases direction with
  | aToB =>
      have hsettled := (settleTrade_eq_ok_of_backs libraries (quoteData.tradeAccounts a b .aToB) hv hw).mp hsettle
      obtain ⟨infoA, infoB, hdeposit, hwithdraw, a', b', ha', hb', hle⟩ :=
        hsettled.product_le hspl hv hw hbw
      refine ⟨quoteData.withSides infoA infoB, ?_, a', b', ?_, hle⟩
      · simp only [QuoteData.execute, hdirection]
        exact Option.bind_eq_some_iff.mpr ⟨_, hdeposit, Option.bind_eq_some_iff.mpr ⟨_, hwithdraw, rfl⟩⟩
      · exact QuoteData.poolTokens_eq_ok.mpr ⟨ha', hb'⟩
  | bToA =>
      have hsettled := (settleTrade_eq_ok_of_backs libraries (quoteData.tradeAccounts a b .bToA) hw hv).mp hsettle
      obtain ⟨infoB, infoA, hdeposit, hwithdraw, b', a', hb', ha', hle⟩ :=
        hsettled.product_le hspl hw hv hav
      refine ⟨quoteData.withSides infoA infoB, ?_, a', b', ?_, ?_⟩
      · simp only [QuoteData.execute, hdirection]
        exact Option.bind_eq_some_iff.mpr ⟨_, hdeposit, Option.bind_eq_some_iff.mpr ⟨_, hwithdraw, rfl⟩⟩
      · exact QuoteData.poolTokens_eq_ok.mpr ⟨ha', hb'⟩
      · rw [Nat.mul_comm a.toNat, Nat.mul_comm a'.toNat]
        exact hle

theorem computeQuote_product_le_sample :
    ∃ steps, computeQuoteSteps sampleAccounts sampleLibraries (Pubkey.replicate 1) 10000
        (sampleQuoteData sampleFees 1230457 1048576) = .ok steps ∧
      steps.result = { outAmount := 6686, fee := 25 } ∧
      ∃ time, timeTryIntoU64 1000 = .ok time ∧
      ∃ a b, (sampleQuoteData sampleFees 1230457 1048576).poolTokens time = .ok (a, b) ∧
      ∃ swapped, (sampleQuoteData sampleFees 1230457 1048576).execute (Pubkey.replicate 1) steps =
        some swapped ∧
      ∃ a' b', swapped.poolTokens time = .ok (a', b') ∧ a.toNat * b.toNat ≤ a'.toNat * b'.toNat :=
  computeQuote_product_le sampleAccounts sampleLibraries_pays rfl (by decide) (by decide) (by decide)

end DynamicAmm.Quote

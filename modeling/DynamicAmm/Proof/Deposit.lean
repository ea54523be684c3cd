import DynamicAmm.Proof.Client.Payable
import DynamicAmm.Proof.Client.Pooled
import DynamicAmm.Proof.Quote.Product

/-!
# The deposit of a swap

A swap puts what is sold into the source vault, where it is worth what the pool's shares gain by it. Both
the new shares and the new value are rounded down, and the pool's old shares are revalued on the way.
What comes of it is one statement about a vault, and each of the three places that make such a deposit
computes the amounts of that statement.
-/

namespace DynamicAmm

open Rust Program Js

/-- What a deposit of an amount leaves: the shares minted for it, what the pool had before and has after. -/
structure CreditsFairly (v : ShareVault) (amount lp before after : Nat) : Prop where
  lp_eq : lp = amount * v.supply / v.total
  before_eq : before = v.held * v.total / v.supply
  after_eq : after = (v.held + lp) * (v.total + amount) / (v.supply + lp)
  before_le : before ≤ after
  after_le : after ≤ before + amount
  lost_le : amount - (after - before) ≤ v.total ⌈/⌉ v.supply
  others_le : (v.supply - v.held) * v.total / v.supply ≤
    (v.supply - v.held) * (v.total + amount) / (v.supply + lp)

variable {v : ShareVault} {amount : Nat}

theorem creditsFairly (htotal : 0 < v.total) (hsupply : 0 < v.supply) (amount : Nat) :
    CreditsFairly v amount (v.sharesFor amount) v.value (v.deposit amount).value where
  lp_eq := rfl
  before_eq := rfl
  after_eq := rfl
  before_le := v.value_le_value_deposit amount
  after_le := v.value_deposit_le_value_add hsupply amount
  lost_le := by
    have hprice : v.total ≤ v.total ⌈/⌉ v.supply * v.supply := by
      rw [Nat.mul_comm]
      exact le_smul_ceilDiv hsupply
    have := v.value_add_le_value_deposit_add hsupply htotal hprice amount
    omega
  others_le := v.worth_le_worth_deposit amount _

/-! ### The Rust quote -/

namespace Quote

/-- The steps of the Rust quote from the pool's amount to what it has after the deposit. -/
structure DepositSteps (info : VaultInfo) (time inAmountAfterProtocolFee before inLp after : UInt64) : Prop where
  before_ok : info.vault.getAmountByShare time info.lpAmount info.lpSupply = some before
  inLp_ok : info.vault.getUnmintAmount time inAmountAfterProtocolFee info.lpSupply = some inLp
  after_ok : ∃ totalAmount newInVaultLp newInVaultLpMint,
    checkedAdd info.vault.totalAmount inAmountAfterProtocolFee = some totalAmount ∧
    checkedAdd inLp info.lpAmount = some newInVaultLp ∧
    checkedAdd info.lpSupply inLp = some newInVaultLpMint ∧
    Vault.getAmountByShare { info.vault with totalAmount } time newInVaultLp newInVaultLpMint = some after

variable {info : VaultInfo} {time deposit before inLp after : UInt64}

theorem DepositSteps.values (h : DepositSteps info time deposit before inLp after)
    (hbacks : Backs info time v) :
    0 < v.total ∧ 0 < v.supply ∧ inLp.toNat = v.sharesFor deposit.toNat ∧ before.toNat = v.value ∧
      after.toNat = (v.deposit deposit.toNat).value := by
  obtain ⟨hsupply_ne, hvalue⟩ := hbacks.getAmountByShare_eq_some.mp h.before_ok
  obtain ⟨unlocked, hunlocked, htotal, hsupply, hheld⟩ := hbacks
  obtain ⟨totalAmount, newInVaultLp, newInVaultLpMint, hadd, hlp, hmint, hafter⟩ := h.after_ok
  rw [checkedAdd_eq_some] at hadd hlp hmint
  obtain ⟨unlocked', hunlocked', hadded⟩ := getUnlockedAmount_add hunlocked hadd
  have hinLp := h.inLp_ok
  simp only [Vault.getUnmintAmount_eq_some, hunlocked, Option.some.injEq, exists_eq_left', htotal,
    hsupply] at hinLp
  simp only [Vault.getAmountByShare_eq_some, hunlocked', Option.some.injEq, exists_eq_left', hadded, hlp,
    hmint, htotal, hsupply, hheld] at hafter
  refine ⟨Nat.pos_of_ne_zero hinLp.1, Nat.pos_of_ne_zero hsupply_ne, hinLp.2, hvalue, ?_⟩
  rw [hafter.2, hinLp.2, Nat.add_comm (deposit.toNat * v.supply / v.total)]
  rfl

theorem DepositSteps.exists_checkedSub (h : DepositSteps info time deposit before inLp after)
    (hle : info.lpAmount ≤ info.lpSupply) : ∃ actual, checkedSub after before = some actual := by
  obtain ⟨v, hbacks⟩ := exists_backs h.before_ok hle
  obtain ⟨-, -, -, hbefore, hafter⟩ := h.values hbacks
  have hvalue := v.value_le_value_deposit deposit.toNat
  refine ⟨after - before, ?_⟩
  rw [checkedSub, if_pos]
  rw [UInt64.le_iff_toNat_le]
  omega

/-- The text of the error that the Rust quote would stop with if the deposit were worth less than nothing. -/
def noActualInAmount : String := "Fail to get actual_in_amount"

theorem settleTrade_ne_err (libraries : CurveLibraries) {fees : PoolFees} {curveType : CurveType}
    {inAmount : UInt64} {direction : TradeDirection} {trade : TradeAccounts}
    (hbefore : trade.inVault.getAmountByShare time trade.inVaultLp.amount trade.inVaultLpMint.supply =
      some trade.inTokenTotalAmount) (hle : trade.inVaultLp.amount ≤ trade.inVaultLpMint.supply) :
    settleTrade libraries fees curveType time inAmount direction trade ≠ .err noActualInAmount := by
  intro herr
  simp only [settleTrade, Outcome.bind_eq_err, Outcome.context_eq_err, Outcome.context_eq_ok,
    Outcome.ensure_eq_err, Outcome.pure_ne_err, tryIntoU64, tryFromIntError, noActualInAmount,
    String.reduceEq, and_false, and_true, false_or, or_false, exists_false] at herr
  obtain ⟨_, -, _, -, _, -, deposit, -, inLp, hinLp, totalAmount, htotal, newInVaultLp, hlp, newSupply,
    hsupply, after, hafter, hsub⟩ := herr
  have hsteps : DepositSteps trade.inInfo time deposit trade.inTokenTotalAmount inLp after :=
    ⟨hbefore, hinLp, totalAmount, newInVaultLp, newSupply, htotal, hlp, hsupply, hafter⟩
  obtain ⟨actual, hactual⟩ := hsteps.exists_checkedSub hle
  rw [hactual] at hsub
  cases hsub

variable (accounts : StakeAccounts)

theorem getStakePoolVirtualPrice_ne_err (depegType : DepegType) (splStakePool : Pubkey)
    (stakeData : StakeData) (text : String) :
    getStakePoolVirtualPrice accounts depegType splStakePool stakeData ≠ .err text := by
  have hslice : ∀ bytes start stop, slice bytes start stop ≠ .err text := by
    intro bytes start stop
    unfold slice
    split <;> simp
  unfold getStakePoolVirtualPrice
  split
  · split
    · simp only [Solido.getVirtualPrice, ne_eq, Outcome.bind_eq_err, hslice, false_or]
      rintro ⟨_, -, _, -, herr⟩
      exact Outcome.pure_ne_err herr
    · simp
  · split
    · simp only [Marinade.getVirtualPrice, ne_eq, Outcome.bind_eq_err, hslice, false_or]
      rintro ⟨_, -, herr⟩
      exact Outcome.pure_ne_err herr
    · simp
  · split <;> simp
  · simp

theorem updateBaseVirtualPrice_ne_err (pool : Pool) (clock : Clock) (stakeData : StakeData) :
    (updateBaseVirtualPrice accounts pool clock stakeData).1 ≠ .err noActualInAmount := by
  unfold updateBaseVirtualPrice
  split
  · simp
  · split
    · simp
    · split
      · simp [noActualInAmount]
      · split
        · split
          · simp
          · simp [noActualInAmount]
          · rename_i herr
            exact absurd herr (getStakePoolVirtualPrice_ne_err accounts _ _ _ _)
          · simp
        · simp

theorem activationType_ne_err (s : UInt8) : ActivationType.tryFrom s ≠ .err noActualInAmount := by
  unfold ActivationType.tryFrom
  split
  · simp
  · split <;> simp [noActualInAmount]

theorem timeTryIntoU64_ne_err (time : Int64) : timeTryIntoU64 time ≠ .err noActualInAmount := by
  unfold timeTryIntoU64
  split <;> simp [noActualInAmount, tryFromIntError]

theorem computeQuote_ne_err (libraries : CurveLibraries) (inTokenMint : Pubkey) (inAmount : UInt64)
    {quoteData : QuoteData} (hA : quoteData.poolVaultALpToken.amount ≤ quoteData.vaultALpMint.supply)
    (hB : quoteData.poolVaultBLpToken.amount ≤ quoteData.vaultBLpMint.supply) :
    computeQuote accounts libraries inTokenMint inAmount quoteData ≠ .err noActualInAmount := by
  intro herr
  have hrefreshed := updateBaseVirtualPrice_ne_err accounts quoteData.pool quoteData.clock quoteData.stakeData
  simp only [computeQuote, computeQuoteSteps, Outcome.bind_eq_err, Outcome.context_eq_err,
    Outcome.context_eq_ok, Outcome.ensure_eq_err, Outcome.pure_ne_err, timeTryIntoU64_ne_err,
    activationType_ne_err, hrefreshed] at herr
  simp only [noActualInAmount, String.reduceEq, and_false, false_or, exists_false, or_false] at herr
  obtain ⟨_, -, _, -, _, -, _, -, time, -, _, -, a, ha, b, hb, hsettle⟩ := herr
  split at hsettle
  · exact settleTrade_ne_err libraries ha hA hsettle
  · exact settleTrade_ne_err libraries hb hB hsettle

end Quote

/-! ### The client -/

namespace Client

theorem computeActualDepositAmount_eq (htotal : 0 < v.total) (hsupply : 0 < v.supply) (amount : Nat) :
    computeActualDepositAmount amount v.value v.held v.supply v.total =
      .ok ((v.deposit amount).value - v.value) := by
  by_cases hzero : (amount : Int) = 0
  · have hamount : amount = 0 := by exact_mod_cast hzero
    subst hamount
    have hsame : (v.deposit 0).value = v.value := by
      simp [ShareVault.deposit, ShareVault.value, ShareVault.worth, ShareVault.sharesFor]
    rw [computeActualDepositAmount, if_pos hzero, hsame, sub_self]
    rfl
  · have htotal_ne : (v.total : Int) ≠ 0 := by omega
    have hsupply_ne : (v.supply : Int) + v.sharesFor amount ≠ 0 := by omega
    have hafter := worth_tdiv (v.deposit amount) (v.deposit amount).held
    rw [computeActualDepositAmount, if_neg hzero]
    simp only [bind_eq_ok, pure_eq_ok, BN.div_eq_ok, sharesFor_tdiv]
    exact ⟨_, ⟨htotal_ne, rfl⟩, _, ⟨hsupply_ne, hafter⟩, rfl⟩

variable {sdk : VaultSdk} {params : SwapQuoteParam} {backing : Backing} {poolState : PoolState}
  {inTokenMint : Pubkey} {inAmount : Int} {direction : TradeDirection} {source : Source}

/-- The vault that a trade is paid into, and the pool's shares of it. -/
structure SourceHolds (params : SwapQuoteParam) (backing : Backing) (direction : TradeDirection)
    (v : ShareVault) : Prop where
  total : backing.source direction = v.total
  supply : (params.sidesOf backing direction).swapSourceVaultLpSupply = v.supply
  held : (params.sidesOf backing direction).swapSourceVaultLpAmount = v.held

theorem SourceHolds.swapSourceAmount (h : SourceHolds params backing direction v) :
    (params.sidesOf backing direction).swapSourceAmount = v.value := by
  have hvalue := worth_tdiv v v.held
  rw [← h.total, ← h.supply, ← h.held] at hvalue
  cases direction with
  | aToB => exact hvalue
  | bToA => exact hvalue

theorem settleSource_credited (hsdk : sdk.Lawful) (hbacking : backing.Of sdk params)
    (hdirection : tradeDirectionOf inTokenMint poolState = direction)
    (hholds : SourceHolds params backing direction v)
    (hamount : inAmount - poolState.fees.protocolFee inAmount = amount)
    (h : settleSource sdk inTokenMint inAmount params poolState = .ok source) :
    source.sourceAmountWithFee + source.tradeFeeAfterProtocolFee = (v.deposit amount).value - v.value := by
  obtain ⟨-, hfee, hnet, -⟩ := settleSource_value hsdk hbacking hdirection h
  have hafter : params.amountAfterDeposit backing direction amount = (v.deposit amount).value := by
    simp only [SwapQuoteParam.amountAfterDeposit, hholds.total, hholds.supply, hholds.held]
    exact worth_deposit_tdiv v amount
  rw [hnet, hfee, SwapQuoteParam.netSourceAmount, hamount, hafter, hholds.swapSourceAmount]
  ring

end Client

/-! ### The three deposits -/

theorem deposit_credits_fairly (htotal : 0 < v.total) (hsupply : 0 < v.supply) (amount : Nat) :
    (∀ info time inAmountAfterProtocolFee before inLp after, Quote.Backs info time v →
      inAmountAfterProtocolFee.toNat = amount →
      Quote.DepositSteps info time inAmountAfterProtocolFee before inLp after →
      CreditsFairly v amount inLp.toNat before.toNat after.toNat ∧
        ∃ actual, checkedSub after before = some actual) ∧
    (∃ lp after, CreditsFairly v amount lp v.value after ∧
      Client.computeActualDepositAmount amount v.value v.held v.supply v.total = .ok (after - v.value)) ∧
    (∀ sdk params backing poolState inTokenMint inAmount direction source,
      Client.VaultSdk.Lawful sdk → Client.Backing.Of backing sdk params →
      Client.tradeDirectionOf inTokenMint poolState = direction →
      Client.SourceHolds params backing direction v →
      inAmount - poolState.fees.protocolFee inAmount = amount →
      Client.settleSource sdk inTokenMint inAmount params poolState = .ok source →
      ∃ lp after, CreditsFairly v amount lp v.value after ∧
        source.sourceAmountWithFee + source.tradeFeeAfterProtocolFee = after - v.value) ∧
    ∀ accounts libraries inTokenMint inAmount (quoteData : Quote.QuoteData),
      quoteData.poolVaultALpToken.amount ≤ quoteData.vaultALpMint.supply →
      quoteData.poolVaultBLpToken.amount ≤ quoteData.vaultBLpMint.supply →
      Quote.computeQuote accounts libraries inTokenMint inAmount quoteData ≠
        .err "Fail to get actual_in_amount" := by
  have hfair := creditsFairly htotal hsupply amount
  refine ⟨?_, ?_, ?_, ?_⟩
  · intro info time deposit before inLp after hbacks hdeposit hsteps
    obtain ⟨-, -, hlp, hbefore, hafter⟩ := hsteps.values hbacks
    subst hdeposit
    obtain ⟨-, -, -, hsupply_eq, hheld_eq⟩ := hbacks
    have hheld : info.lpAmount ≤ info.lpSupply := by
      rw [UInt64.le_iff_toNat_le, hheld_eq, hsupply_eq]
      exact v.held_le
    rw [hlp, hbefore, hafter]
    exact ⟨hfair, hsteps.exists_checkedSub hheld⟩
  · exact ⟨_, _, hfair, Client.computeActualDepositAmount_eq htotal hsupply amount⟩
  · intro sdk params backing poolState inTokenMint inAmount direction source hsdk hbacking hdirection hholds
      hamount h
    exact ⟨_, _, hfair, Client.settleSource_credited hsdk hbacking hdirection hholds hamount h⟩
  · intro accounts libraries inTokenMint inAmount quoteData hA hB
    exact Quote.computeQuote_ne_err accounts libraries inTokenMint inAmount hA hB

def sampleShares : ShareVault := ⟨1230457, 1000000, 500000, by decide⟩

theorem deposit_credits_fairly_sample :
    (CreditsFairly sampleShares 9995 8122 615228 625222 ∧
      ∃ actual, checkedSub 625222 615228 = some actual) ∧
    (∃ lp after, CreditsFairly sampleShares 9995 lp 615228 after ∧
      Client.computeActualDepositAmount 9995 615228 500000 1000000 1230457 = .ok (after - 615228)) ∧
    (∃ lp after, CreditsFairly sampleShares 9995 lp 615228 after ∧ (9974 + 20 : Int) = after - 615228) ∧
    Quote.computeQuote Quote.sampleAccounts Quote.sampleLibraries (Pubkey.replicate 1) 10000
        (Quote.sampleQuoteData Quote.sampleFees 1230457 1048576) ≠ .err "Fail to get actual_in_amount" := by
  obtain ⟨hquote, hactual, hsource, herr⟩ :=
    deposit_credits_fairly (v := sampleShares) (by decide) (by decide) 9995
  refine ⟨?_, hactual, ?_, ?_⟩
  · exact hquote (Quote.sampleQuoteData Quote.sampleFees 1230457 1048576).vaultInfoA 1000 9995 615228 8122
      625222 ⟨1230457, by decide, rfl, rfl, rfl⟩ rfl
      ⟨by decide, by decide, 1240452, 508122, 1008122, by decide, by decide, by decide, by decide⟩
  · exact hsource Client.sampleSdk
      (Client.sampleParams 1230457 1048576 Client.sampleTime (fun _ => none)) ⟨1230457, 1048576⟩
      (Client.samplePoolState ⟨250, 100000, 20000, 100000⟩ .constantProduct) Client.sampleMintA 10000 .aToB
      ⟨615228, 419430, 20, 9974⟩ Client.sampleSdk_lawful ⟨rfl, rfl⟩ (by decide) ⟨rfl, rfl, rfl⟩ (by decide)
      rfl
  · exact herr _ _ _ _ _ (by decide) (by decide)

end DynamicAmm

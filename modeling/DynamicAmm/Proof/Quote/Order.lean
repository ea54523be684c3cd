import DynamicAmm.Proof.Fees
import DynamicAmm.Proof.Quote.Pooled

/-!
# When paying more quotes more

Over a source vault at par nothing is rounded on the way in, so the curve gets the in amount less the
trade fee and less the protocol's cut of it, which the quote takes off a second time. One fee alone never
grows faster than the amount. The two together do where both step up on the same token, and there the
larger amount leaves less to trade. So quotes are in the order of their amounts, in every pool with given
fees, exactly when the two fees never step up together.
-/

namespace DynamicAmm

open Rust Program

/-! ### Fees of two amounts -/

namespace Program

/-- A fee never grows by more than the amount. -/
theorem feeOf_le_add {numerator denominator i j : Nat} (hle : numerator ≤ denominator) (hij : i ≤ j) :
    feeOf numerator denominator j ≤ feeOf numerator denominator i + (j - i) := by
  unfold feeOf
  by_cases hnumerator : numerator = 0
  · rw [if_pos (Or.inl hnumerator)]
    exact Nat.zero_le _
  have hdenominator : 0 < denominator := by omega
  have hgrows : j * numerator / denominator ≤ i * numerator / denominator + (j - i) := by
    calc
      j * numerator / denominator ≤ (i * numerator + (j - i) * denominator) / denominator := by
        apply Nat.div_le_div_right
        have hsplit : j * numerator = i * numerator + (j - i) * numerator := by
          rw [← Nat.add_mul, Nat.add_sub_cancel' hij]
        rw [hsplit]
        exact Nat.add_le_add_left (Nat.mul_le_mul_left _ hle) _
      _ = i * numerator / denominator + (j - i) := Nat.add_mul_div_right _ _ hdenominator
  split
  · exact Nat.zero_le _
  · split
    · rename_i hzero
      rcases hzero with h | h
      · exact absurd h hnumerator
      · rw [h, Nat.zero_mul, Nat.zero_div] at hgrows
        omega
    · omega

theorem feeOf_mono {numerator denominator i j : Nat} (hij : i ≤ j) :
    feeOf numerator denominator i ≤ feeOf numerator denominator j := by
  have hfloor : i * numerator / denominator ≤ j * numerator / denominator :=
    Nat.div_le_div_right (Nat.mul_le_mul_right _ hij)
  unfold feeOf
  split
  · exact Nat.zero_le _
  · rw [if_neg (by omega)]
    exact max_le_max le_rfl hfloor

/-- The fee numerators of a pool are not above their denominators. -/
structure PoolFees.Bounded (fees : PoolFees) : Prop where
  tradeFee_le : fees.tradeFeeNumerator ≤ fees.tradeFeeDenominator
  protocolTradeFee_le : fees.protocolTradeFeeNumerator ≤ fees.protocolTradeFeeDenominator

namespace PoolFees

variable {fees : PoolFees} {i j : Nat}

/-- What the quote takes off an amount. -/
def chargedOn (fees : PoolFees) (amount : Nat) : Nat :=
  fees.tradeFeeOf amount + fees.protocolFeeOf (fees.tradeFeeOf amount)

/-- As long as something is left of the larger amount, no less is left of it than of the smaller one. -/
def KeepsOrder (fees : PoolFees) : Prop :=
  ∀ i j, i ≤ j → j < 2 ^ 64 → fees.chargedOn j < j → i + fees.chargedOn j ≤ j + fees.chargedOn i

/-- One more token raises both the trade fee and the protocol's cut of it. -/
def BothStep (fees : PoolFees) (amount : Nat) : Prop :=
  fees.tradeFeeOf amount < fees.tradeFeeOf (amount + 1) ∧
    fees.protocolFeeOf (fees.tradeFeeOf amount) < fees.protocolFeeOf (fees.tradeFeeOf (amount + 1))

/-- The two fees never step up together on an amount of which something is left. -/
def NeverBothStep (fees : PoolFees) : Prop :=
  ∀ amount, amount + 1 < 2 ^ 64 → fees.chargedOn (amount + 1) < amount + 1 → ¬ fees.BothStep amount

namespace Bounded

variable (h : fees.Bounded)

include h

theorem tradeFeeOf_le (amount : Nat) : fees.tradeFeeOf amount ≤ amount :=
  feeOf_le (UInt64.le_iff_toNat_le.mp h.tradeFee_le)

theorem protocolFeeOf_le (amount : Nat) : fees.protocolFeeOf amount ≤ amount :=
  feeOf_le (UInt64.le_iff_toNat_le.mp h.protocolTradeFee_le)

theorem tradingFee_eq (hamount : i < 2 ^ 64) : fees.tradingFee i = some (fees.tradeFeeOf i) :=
  calculateFee_of_le h.tradeFee_le hamount

theorem protocolTradingFee_eq (hamount : i < 2 ^ 64) :
    fees.protocolTradingFee (fees.tradeFeeOf i) = some (fees.protocolFeeOf (fees.tradeFeeOf i)) :=
  calculateFee_of_le h.protocolTradeFee_le ((h.tradeFeeOf_le i).trans_lt hamount)

/-- Where less is left of the larger amount, the protocol takes a cut of it. -/
theorem protocolFee_pos (hij : i ≤ j) (hmore : j + fees.chargedOn i < i + fees.chargedOn j) :
    1 ≤ fees.protocolFeeOf (fees.tradeFeeOf j) := by
  have hgrows : fees.tradeFeeOf j ≤ fees.tradeFeeOf i + (j - i) :=
    feeOf_le_add (UInt64.le_iff_toNat_le.mp h.tradeFee_le) hij
  simp only [chargedOn] at hmore
  omega

/-- The charge on one more token is at most two more, and two more only where both fees step. -/
theorem chargedOn_succ (amount : Nat) :
    fees.chargedOn (amount + 1) ≤ fees.chargedOn amount + 2 ∧
      (fees.chargedOn amount + 2 ≤ fees.chargedOn (amount + 1) ↔ fees.BothStep amount) := by
  have htrade : fees.tradeFeeOf (amount + 1) ≤ fees.tradeFeeOf amount + 1 := by
    have hgrows := feeOf_le_add (UInt64.le_iff_toNat_le.mp h.tradeFee_le) (Nat.le_add_right amount 1)
    rw [Nat.add_sub_cancel_left] at hgrows
    exact hgrows
  have hcut : fees.tradeFeeOf amount ≤ fees.tradeFeeOf (amount + 1) →
      fees.protocolFeeOf (fees.tradeFeeOf (amount + 1)) ≤ fees.protocolFeeOf (fees.tradeFeeOf amount) +
        (fees.tradeFeeOf (amount + 1) - fees.tradeFeeOf amount) :=
    feeOf_le_add (UInt64.le_iff_toNat_le.mp h.protocolTradeFee_le)
  have hmono : fees.tradeFeeOf amount ≤ fees.tradeFeeOf (amount + 1) := feeOf_mono (Nat.le_add_right _ _)
  have hcut := hcut hmono
  simp only [chargedOn, BothStep]
  omega

/-- Where less than `left` is left of an amount and more of a smaller one, the fees step together between
the two, at an amount of which exactly `left` is left. -/
theorem exists_bothStep (left : Nat) (hij : i ≤ j) (hi : fees.chargedOn i + left < i)
    (hj : j ≤ fees.chargedOn j + left) :
    ∃ amount, amount < j ∧ fees.chargedOn (amount + 1) + left = amount + 1 ∧ fees.BothStep amount := by
  induction j, hij using Nat.le_induction with
  | base => omega
  | succ m hm ih =>
      obtain ⟨hgrows, hboth⟩ := h.chargedOn_succ m
      rcases Nat.lt_or_ge (fees.chargedOn m + left) m with hmore | hless
      · exact ⟨m, Nat.lt_succ_self m, by omega, hboth.mp (by omega)⟩
      · obtain ⟨amount, hlt, hstep⟩ := ih hless
        exact ⟨amount, hlt.trans (Nat.lt_succ_self m), hstep⟩

theorem keepsOrder_iff : fees.KeepsOrder ↔ fees.NeverBothStep := by
  constructor
  · intro horder amount hamount hleft hboth
    have hle := horder amount (amount + 1) (Nat.le_add_right _ _) hamount hleft
    have hgrows := (h.chargedOn_succ amount).2.mpr hboth
    omega
  · intro hnever i j hij hj hleft
    by_contra hmore
    obtain ⟨amount, hlt, hrest, hboth⟩ := h.exists_bothStep (j - fees.chargedOn j) hij
      (by omega) (by omega)
    exact hnever amount (by omega) (by omega) hboth

end Bounded

end PoolFees

end Program

namespace Quote

variable {accounts : StakeAccounts} {libraries : CurveLibraries} {quoteData : QuoteData}
  {inTokenMint : Pubkey} {i j : UInt64} {r s : QuoteResult}

/-! ### What is traded -/

/-- The source vault's unlocked amount is the supply of its LP. -/
def QuoteData.SourceAtPar (quoteData : QuoteData) (inTokenMint : Pubkey) : Prop :=
  ∀ time, timeTryIntoU64 quoteData.clock.unixTimestamp = .ok time →
    ((quoteData.directionOf inTokenMint).source quoteData.vaultA quoteData.vaultB).getUnlockedAmount time =
      some ((quoteData.directionOf inTokenMint).source quoteData.vaultALpMint quoteData.vaultBLpMint).supply

variable {fees : PoolFees} {direction : TradeDirection} {trade : TradeAccounts} {outUnlocked : Nat}
  {steps : QuoteSteps}

/-- At par the curve gets what is left of the amount. -/
theorem Settled.net_add_charged (h : Settled libraries fees .constantProduct i direction trade
      trade.inVaultLpMint.supply.toNat outUnlocked steps) (hfees : fees.Bounded)
    (hx : trade.inTokenTotalAmount = trade.inVaultLp.amount) :
    steps.actualInAmountAfterFee.toNat + fees.chargedOn i.toNat = i.toNat := by
  have hsupply : 0 < trade.inVaultLpMint.supply.toNat := Nat.pos_of_ne_zero h.inUnlocked_ne
  have htrade : steps.tradeFee = fees.tradeFeeOf i.toNat :=
    Option.some.inj (h.tradeFee.symm.trans (hfees.tradingFee_eq i.toNat_lt))
  have hprotocol : steps.protocolFee.toNat = fees.protocolFeeOf (fees.tradeFeeOf i.toNat) := by
    have hcut := h.protocolFee
    rw [htrade, hfees.protocolTradingFee_eq i.toNat_lt, Option.some.injEq] at hcut
    exact hcut.symm
  have hlp : steps.inLp.toNat = steps.inAmountAfterProtocolFee.toNat := by
    rw [h.inLp, Nat.mul_div_cancel _ hsupply]
  have hactual := h.actualInAmount
  rw [hlp, hx, Nat.mul_div_cancel _ (by omega)] at hactual
  have hafterFee := h.afterFee
  have hafterProtocol := h.afterProtocolFee
  simp only [PoolFees.chargedOn]
  omega

/-- What the pool pays for an amount traded, through the conversions of the destination vault. -/
def TradeAccounts.paidFor (trade : TradeAccounts) (outUnlocked net : Nat) : Nat :=
  ProductCurve.payout trade.inTokenTotalAmount.toNat trade.outTokenTotalAmount.toNat net *
    trade.outVaultLpMint.supply.toNat / outUnlocked * outUnlocked / trade.outVaultLpMint.supply.toNat

theorem TradeAccounts.paidFor_mono (hx : 0 < trade.inTokenTotalAmount.toNat) {m n : Nat} (hmn : m ≤ n) :
    trade.paidFor outUnlocked m ≤ trade.paidFor outUnlocked n := by
  have hkeep : ProductCurve.keep trade.inTokenTotalAmount.toNat trade.outTokenTotalAmount.toNat n ≤
      ProductCurve.keep trade.inTokenTotalAmount.toNat trade.outTokenTotalAmount.toNat m := by
    rw [ProductCurve.keep, ceilDiv_le_iff_le_smul (by omega)]
    apply (@ProductCurve.product_le_mul_keep _ _ m (by omega)).trans
    exact Nat.mul_le_mul_right _ (Nat.add_le_add_left hmn _)
  apply Nat.div_le_div_right
  apply Nat.mul_le_mul_right
  apply Nat.div_le_div_right
  apply Nat.mul_le_mul_right
  exact Nat.sub_le_sub_left hkeep _

theorem Settled.outAmount_eq (hspl : SplSwapPays libraries) {inUnlocked : Nat}
    (h : Settled libraries fees .constantProduct i direction trade inUnlocked outUnlocked steps) :
    ProductCurve.Pays trade.inTokenTotalAmount.toNat trade.outTokenTotalAmount.toNat
        steps.actualInAmountAfterFee.toNat ∧
      steps.result.outAmount.toNat = trade.paidFor outUnlocked steps.actualInAmountAfterFee.toNat := by
  obtain ⟨result, hswap, hdestination⟩ := h.swap
  obtain ⟨hpays, hpaid⟩ := constantProduct_swap_pays hspl hswap
  refine ⟨hpays, ?_⟩
  rw [h.outAmount, h.outVaultLp, hdestination, hpaid]
  rfl

/-- A trade that settles, as what is left of its amount and what the pool pays for that. -/
theorem traded_of_settleTrade (hspl : SplSwapPays libraries) (hfees : fees.Bounded) (trade : TradeAccounts)
    {time unlocked : UInt64} (hin : trade.inVault.getUnlockedAmount time = some trade.inVaultLpMint.supply)
    (hout : trade.outVault.getUnlockedAmount time = some unlocked)
    (hx : trade.inTokenTotalAmount = trade.inVaultLp.amount)
    (h : settleTrade libraries fees .constantProduct time i direction trade = .ok steps) :
    ∃ net, net + fees.chargedOn i.toNat = i.toNat ∧
      ProductCurve.Pays trade.inTokenTotalAmount.toNat trade.outTokenTotalAmount.toNat net ∧
      steps.result.outAmount.toNat = trade.paidFor unlocked.toNat net := by
  have hsettled := (settleTrade_eq_ok libraries hin hout).mp h
  obtain ⟨hpays, hpaid⟩ := hsettled.outAmount_eq hspl
  exact ⟨_, hsettled.net_add_charged hfees hx, hpays, hpaid⟩

theorem traded_of_ok (hspl : SplSwapPays libraries) (hcurve : quoteData.pool.curveType = .constantProduct)
    (hfees : quoteData.pool.fees.Bounded) (hpar : quoteData.SourceAtPar inTokenMint)
    {time a b outUnlocked : UInt64} (htime : timeTryIntoU64 quoteData.clock.unixTimestamp = .ok time)
    (htokens : quoteData.poolTokens time = .ok (a, b))
    (hout : ((quoteData.directionOf inTokenMint).destination quoteData.vaultA
      quoteData.vaultB).getUnlockedAmount time = some outUnlocked)
    (h : computeQuote accounts libraries inTokenMint i quoteData = .ok r) :
    ∃ net, net + quoteData.pool.fees.chargedOn i.toNat = i.toNat ∧
      ProductCurve.Pays ((quoteData.directionOf inTokenMint).source a b).toNat
        ((quoteData.directionOf inTokenMint).destination a b).toNat net ∧
      r.outAmount.toNat = (quoteData.tradeAccounts a b (quoteData.directionOf inTokenMint)).paidFor
        outUnlocked.toNat net := by
  simp only [computeQuote, Outcome.bind_eq_ok, Outcome.pure_eq_ok] at h
  obtain ⟨steps, hsteps, rfl⟩ := h
  obtain ⟨-, -, -, -, time', htime', a', b', htokens', hsettle⟩ :=
    (computeQuoteSteps_eq_ok accounts libraries).mp hsteps
  rw [htime, Outcome.ok.injEq] at htime'
  subst htime'
  rw [htokens, Outcome.ok.injEq, Prod.mk.injEq] at htokens'
  obtain ⟨rfl, rfl⟩ := htokens'
  rw [updateBaseVirtualPrice_constantProduct accounts hcurve, hcurve] at hsettle
  have hin := hpar time htime
  obtain ⟨ha, hb⟩ := QuoteData.poolTokens_eq_ok.mp htokens
  -- At par the pool's amount in the source vault is its LP.
  have hvalue : ∀ {vault : Vault} {share supply amount : UInt64}, vault.getUnlockedAmount time = some supply →
      vault.getAmountByShare time share supply = some amount → amount = share := by
    intro vault share supply amount hunlocked hamount
    obtain ⟨unlocked, hunlocked', hne, heq⟩ := Vault.getAmountByShare_eq_some.mp hamount
    rw [hunlocked, Option.some.injEq] at hunlocked'
    subst hunlocked'
    rw [Nat.mul_div_cancel _ (Nat.pos_of_ne_zero hne)] at heq
    exact UInt64.toNat_inj.mp heq
  generalize quoteData.directionOf inTokenMint = direction at *
  cases direction with
  | aToB =>
      have hx := hvalue hin ha
      exact traded_of_settleTrade hspl hfees (quoteData.tradeAccounts a b .aToB) hin hout hx hsettle
  | bToA =>
      have hx := hvalue hin hb
      exact traded_of_settleTrade hspl hfees (quoteData.tradeAccounts a b .bToA) hin hout hx hsettle

/-- Nothing can be traded for nothing. -/
theorem Pays.amount_pos {source destination amount : Nat}
    (h : ProductCurve.Pays source destination amount) : 0 < source ∧ 0 < amount := by
  have hsource : 0 < source := Nat.pos_of_mul_pos_right h.product_pos
  refine ⟨hsource, Nat.pos_of_ne_zero ?_⟩
  intro hzero
  apply h.payout_ne
  rw [hzero, ProductCurve.payout, Nat.sub_eq_zero_iff_le]
  have hle : source * destination ≤ source * ProductCurve.keep source destination 0 :=
    @ProductCurve.product_le_mul_keep _ _ 0 hsource
  exact Nat.le_of_mul_le_mul_left hle hsource

theorem outAmount_le (hspl : SplSwapPays libraries) (hcurve : quoteData.pool.curveType = .constantProduct)
    (hfees : quoteData.pool.fees.Bounded) (hpar : quoteData.SourceAtPar inTokenMint)
    (horder : quoteData.pool.fees.KeepsOrder) (hij : i ≤ j)
    (hi : computeQuote accounts libraries inTokenMint i quoteData = .ok r)
    (hj : computeQuote accounts libraries inTokenMint j quoteData = .ok s) :
    r.outAmount ≤ s.outAmount := by
  obtain ⟨time, htime, a, b, htokens⟩ : ∃ time, timeTryIntoU64 quoteData.clock.unixTimestamp = .ok time ∧
      ∃ a b, quoteData.poolTokens time = .ok (a, b) := by
    simp only [computeQuote, Outcome.bind_eq_ok] at hi
    obtain ⟨steps, hsteps, -⟩ := hi
    obtain ⟨-, -, -, -, time, htime, a, b, htokens, -⟩ :=
      (computeQuoteSteps_eq_ok accounts libraries).mp hsteps
    exact ⟨time, htime, a, b, htokens⟩
  obtain ⟨outUnlocked, hout⟩ : ∃ outUnlocked, ((quoteData.directionOf inTokenMint).destination
      quoteData.vaultA quoteData.vaultB).getUnlockedAmount time = some outUnlocked := by
    obtain ⟨ha, hb⟩ := QuoteData.poolTokens_eq_ok.mp htokens
    obtain ⟨u, hu, -⟩ := Vault.getAmountByShare_eq_some.mp ha
    obtain ⟨w, hw, -⟩ := Vault.getAmountByShare_eq_some.mp hb
    cases quoteData.directionOf inTokenMint with
    | aToB => exact ⟨w, hw⟩
    | bToA => exact ⟨u, hu⟩
  obtain ⟨m, hm, hmpays, hmpaid⟩ := traded_of_ok hspl hcurve hfees hpar htime htokens hout hi
  obtain ⟨n, hn, hnpays, hnpaid⟩ := traded_of_ok hspl hcurve hfees hpar htime htokens hout hj
  obtain ⟨hx, -⟩ := Pays.amount_pos hmpays
  obtain ⟨-, hpos⟩ := Pays.amount_pos hnpays
  have hleft := horder i.toNat j.toNat (UInt64.le_iff_toNat_le.mp hij) j.toNat_lt (by omega)
  rw [UInt64.le_iff_toNat_le, hmpaid, hnpaid]
  apply TradeAccounts.paidFor_mono _ (by omega)
  cases hdirection : quoteData.directionOf inTokenMint with
  | aToB =>
      rw [hdirection] at hx
      exact hx
  | bToA =>
      rw [hdirection] at hx
      exact hx

/-! ### A pool where one more token counts -/

def parityQuoteData (fees : PoolFees) (amount : UInt64) : QuoteData where
  pool := samplePool fees .constantProduct
  vaultA := sampleVault 1
  vaultB := sampleVault amount
  poolVaultALpToken := ⟨1⟩
  poolVaultBLpToken := ⟨amount⟩
  vaultALpMint := ⟨1⟩
  vaultBLpMint := ⟨amount⟩
  vaultAToken := ⟨1⟩
  vaultBToken := ⟨amount⟩
  clock := ⟨10, 1000⟩
  stakeData := fun _ => none

theorem sampleVault_getUnlockedAmount (amount time : UInt64) :
    (sampleVault amount).getUnlockedAmount time = some amount := by
  rw [Vault.getUnlockedAmount_eq_some]
  refine ⟨UInt64.le_iff_toNat_le.mpr (Nat.zero_le _), ?_⟩
  have hlocked : (sampleVault amount).lockedProfitTracker.lockedProfit time.toNat = 0 :=
    Nat.le_zero.mp (lockedProfitAt_le _ _ _ _)
  rw [hlocked]
  rfl

theorem parityQuoteData_sourceAtPar (fees : PoolFees) (amount : UInt64) :
    (parityQuoteData fees amount).SourceAtPar (Pubkey.replicate 1) := by
  intro time _
  exact sampleVault_getUnlockedAmount 1 time

def paritySteps (fees : PoolFees) (inAmount out : UInt64) : QuoteSteps :=
  let tradeFee := fees.tradeFeeOf inAmount.toNat
  let protocolFee := fees.protocolFeeOf tradeFee
  { tradeFee := tradeFee
    protocolFee := UInt64.ofNat protocolFee
    inAmountAfterProtocolFee := UInt64.ofNat (inAmount.toNat - protocolFee)
    inLp := UInt64.ofNat (inAmount.toNat - protocolFee)
    actualInAmount := UInt64.ofNat (inAmount.toNat - protocolFee)
    actualInAmountAfterFee := UInt64.ofNat (inAmount.toNat - protocolFee - tradeFee)
    destinationAmountSwapped := out
    outVaultLp := out
    result := { outAmount := out, fee := UInt64.ofNat tradeFee } }

theorem paritySteps_settled (hspl : SplSwapPays libraries) (htakes : SplSwapTakes libraries)
    (hfees : fees.Bounded) (hleft : fees.chargedOn i.toNat < i.toNat)
    (hfits : i.toNat - fees.protocolFeeOf (fees.tradeFeeOf i.toNat) + 1 < 2 ^ 64)
    {amount out : UInt64} (hpays : ProductCurve.Pays 1 amount.toNat (i.toNat - fees.chargedOn i.toNat))
    (hout : out.toNat = ProductCurve.payout 1 amount.toNat (i.toNat - fees.chargedOn i.toNat)) :
    Settled libraries fees .constantProduct i .aToB ((parityQuoteData fees amount).tradeAccounts 1 amount .aToB)
      1 amount.toNat (paritySteps fees i out) := by
  have hword : ∀ {n : Nat}, n < 2 ^ 64 → (UInt64.ofNat n).toNat = n := UInt64.toNat_ofNat_of_lt'
  have hi := i.toNat_lt
  have htrade := hfees.tradeFeeOf_le i.toNat
  have hcut := hfees.protocolFeeOf_le (fees.tradeFeeOf i.toNat)
  have hamount : 0 < amount.toNat := by
    have hpos := hpays.product_pos
    omega
  simp only [PoolFees.chargedOn] at hleft
  have hprotocol : (UInt64.ofNat (fees.protocolFeeOf (fees.tradeFeeOf i.toNat))).toNat =
      fees.protocolFeeOf (fees.tradeFeeOf i.toNat) := hword (by omega)
  have hafter : (UInt64.ofNat (i.toNat - fees.protocolFeeOf (fees.tradeFeeOf i.toNat))).toNat =
      i.toNat - fees.protocolFeeOf (fees.tradeFeeOf i.toNat) := hword (by omega)
  have hfee : (UInt64.ofNat (fees.tradeFeeOf i.toNat)).toNat = fees.tradeFeeOf i.toNat := hword (by omega)
  have hnet : (UInt64.ofNat (i.toNat - fees.protocolFeeOf (fees.tradeFeeOf i.toNat) -
      fees.tradeFeeOf i.toNat)).toNat = i.toNat - fees.chargedOn i.toNat := by
    rw [hword (by omega), PoolFees.chargedOn]
    omega
  have hpaid := hpays.payout_lt
  rw [← hout] at hpaid
  have hpays' : ProductCurve.Pays (1 : UInt64).toNat amount.toNat (paritySteps fees i out
      |>.actualInAmountAfterFee).toNat := by
    rw [paritySteps, hnet]
    exact hpays
  obtain ⟨result, hswap, hdestination⟩ := constantProduct_swap_of_pays hspl htakes hpays'
  have hone : (1 : UInt64).toNat = 1 := rfl
  constructor
  · exact Nat.one_ne_zero
  · exact hamount.ne'
  · exact hamount.ne'
  · exact hfees.tradingFee_eq hi
  · rw [paritySteps, hprotocol]
    exact hfees.protocolTradingFee_eq hi
  · rw [paritySteps, hafter, hprotocol]
    omega
  · change _ = _ * 1 / 1
    rw [Nat.mul_one, Nat.div_one]
    rfl
  · change 1 + (UInt64.ofNat _).toNat < 2 ^ 64
    rw [hafter]
    omega
  · change (UInt64.ofNat _).toNat + 1 < 2 ^ 64
    rw [hafter]
    omega
  · change 1 + (UInt64.ofNat _).toNat < 2 ^ 64
    rw [hafter]
    omega
  · exact Nat.ne_of_gt (Nat.add_pos_left Nat.one_pos _)
  · change _ + 1 = ((UInt64.ofNat _).toNat + 1) * (1 + (UInt64.ofNat _).toNat) / (1 + (UInt64.ofNat _).toNat)
    rw [Nat.mul_div_cancel _ (by omega)]
    rfl
  · change (UInt64.ofNat _).toNat + 1 < 2 ^ 64
    rw [hafter]
    omega
  · exact hfee
  · change (UInt64.ofNat _).toNat + fees.tradeFeeOf i.toNat = (UInt64.ofNat _).toNat
    rw [hnet, hafter, PoolFees.chargedOn]
    omega
  · refine ⟨result, hswap, ?_⟩
    rw [hdestination, paritySteps, hnet]
    exact hout
  · exact (Nat.mul_div_cancel _ hamount).symm
  · exact (Nat.mul_div_cancel _ hamount).symm
  · exact UInt64.lt_iff_toNat_lt.mpr hpaid

theorem parityQuoteData_quote (accounts : StakeAccounts) (hspl : SplSwapPays libraries)
    (htakes : SplSwapTakes libraries) (hfees : fees.Bounded) (hleft : fees.chargedOn i.toNat < i.toNat)
    (hfits : i.toNat - fees.protocolFeeOf (fees.tradeFeeOf i.toNat) + 1 < 2 ^ 64) (amount : UInt64)
    (hpays : ProductCurve.Pays 1 amount.toNat (i.toNat - fees.chargedOn i.toNat)) :
    ∃ result, computeQuote accounts libraries (Pubkey.replicate 1) i (parityQuoteData fees amount) =
        .ok result ∧
      result.outAmount.toNat = ProductCurve.payout 1 amount.toNat (i.toNat - fees.chargedOn i.toNat) := by
  have hpaid := hpays.payout_lt
  have hamount : amount.toNat ≠ 0 := by omega
  have hout : (UInt64.ofNat (ProductCurve.payout 1 amount.toNat (i.toNat - fees.chargedOn i.toNat))).toNat =
      ProductCurve.payout 1 amount.toNat (i.toNat - fees.chargedOn i.toNat) :=
    UInt64.toNat_ofNat_of_lt' (hpaid.trans amount.toNat_lt)
  refine ⟨(paritySteps fees i (UInt64.ofNat _)).result, ?_, hout⟩
  simp only [computeQuote, Outcome.bind_eq_ok, Outcome.pure_eq_ok]
  refine ⟨paritySteps fees i _, ?_, rfl⟩
  rw [computeQuoteSteps_eq_ok]
  have hunlockedA : (parityQuoteData fees amount).vaultA.getUnlockedAmount 1000 = some 1 :=
    sampleVault_getUnlockedAmount 1 1000
  have hunlockedB : (parityQuoteData fees amount).vaultB.getUnlockedAmount 1000 = some amount :=
    sampleVault_getUnlockedAmount amount 1000
  refine ⟨⟨.slot, rfl, ?_⟩, rfl, rfl, Or.inl rfl, 1000, rfl, 1, amount, ?_, ?_⟩
  · exact UInt64.le_iff_toNat_le.mpr (Nat.zero_le _)
  · rw [QuoteData.poolTokens_eq_ok]
    have hone : (1 : UInt64).toNat ≠ 0 := by decide
    have hpar : (1 : UInt64).toNat = (1 : UInt64).toNat * (1 : UInt64).toNat / (1 : UInt64).toNat := by
      decide
    refine ⟨Vault.getAmountByShare_eq_some.mpr ⟨1, hunlockedA, hone, hpar⟩,
      Vault.getAmountByShare_eq_some.mpr ⟨amount, hunlockedB, hamount, ?_⟩⟩
    exact (Nat.mul_div_cancel _ (Nat.pos_of_ne_zero hamount)).symm
  · have hsettled := paritySteps_settled hspl htakes hfees hleft hfits hpays hout
    generalize htrade : (parityQuoteData fees amount).tradeAccounts 1 amount .aToB = trade at hsettled
    have hin : trade.inVault.getUnlockedAmount 1000 = some 1 := by
      rw [← htrade]
      exact hunlockedA
    have hout' : trade.outVault.getUnlockedAmount 1000 = some amount := by
      rw [← htrade]
      exact hunlockedB
    have hsettle : settleTrade libraries fees .constantProduct 1000 i .aToB trade = .ok _ :=
      (settleTrade_eq_ok libraries hin hout').mpr hsettled
    rw [← htrade] at hsettle
    exact hsettle

/-- The pool that holds a single token pays the whole amount traded when it has one more than that, and
less for every smaller amount. -/
theorem payout_lt_of_lt {m n : Nat} (hm : 0 < m) (hmn : m < n) :
    ProductCurve.Pays 1 (n + 1) m ∧ ProductCurve.Pays 1 (n + 1) n ∧
      ProductCurve.payout 1 (n + 1) m < ProductCurve.payout 1 (n + 1) n := by
  have hkeep : ProductCurve.keep 1 (n + 1) n = 1 := by
    rw [ProductCurve.keep, Nat.one_mul, Nat.add_comm 1 n, Nat.ceilDiv_eq_add_pred_div]
    exact Nat.div_eq_of_lt_le (by omega) (by omega)
  have hmore : 1 < ProductCurve.keep 1 (n + 1) m := by
    have hle := @ProductCurve.product_le_mul_keep 1 (n + 1) m (by omega)
    by_contra hsmall
    have hmul := Nat.mul_le_mul_left (1 + m) (Nat.not_lt.mp hsmall)
    omega
  have hless : ProductCurve.keep 1 (n + 1) m ≤ n := by
    rw [ProductCurve.keep, ceilDiv_le_iff_le_smul (by omega), smul_eq_mul]
    calc
      1 * (n + 1) ≤ 2 * n := by omega
      _ ≤ (1 + m) * n := Nat.mul_le_mul_right _ (by omega)
  have hm' : ProductCurve.payout 1 (n + 1) m = n + 1 - ProductCurve.keep 1 (n + 1) m := rfl
  have hn' : ProductCurve.payout 1 (n + 1) n = n + 1 - ProductCurve.keep 1 (n + 1) n := rfl
  refine ⟨⟨by omega, by omega, by omega⟩, ⟨by omega, by omega, by omega⟩, by omega⟩

theorem keepsOrder_of_quotes (accounts : StakeAccounts) (hspl : SplSwapPays libraries)
    (htakes : SplSwapTakes libraries) (hfees : fees.Bounded)
    (hquotes : ∀ (amount i j : UInt64) (r s : QuoteResult), i ≤ j →
      computeQuote accounts libraries (Pubkey.replicate 1) i (parityQuoteData fees amount) = .ok r →
      computeQuote accounts libraries (Pubkey.replicate 1) j (parityQuoteData fees amount) = .ok s →
      r.outAmount ≤ s.outAmount) :
    fees.KeepsOrder := by
  intro i j hij hj hleft
  by_contra hmore
  rw [Nat.not_le] at hmore
  have hcut := hfees.protocolFee_pos hij hmore
  have hi : (UInt64.ofNat i).toNat = i := UInt64.toNat_ofNat_of_lt' (hij.trans_lt hj)
  have hj' : (UInt64.ofNat j).toNat = j := UInt64.toNat_ofNat_of_lt' hj
  have hleft' : fees.chargedOn i < i := by omega
  have hlt : i < j := by
    rcases Nat.lt_or_ge i j with h | h
    · exact h
    · rw [Nat.le_antisymm hij h] at hmore
      exact absurd hmore (Nat.lt_irrefl _)
  obtain ⟨hm, hn, hpaid⟩ := payout_lt_of_lt (m := j - fees.chargedOn j) (n := i - fees.chargedOn i)
    (by omega) (by omega)
  have hamount : (UInt64.ofNat (i - fees.chargedOn i + 1)).toNat = i - fees.chargedOn i + 1 := by
    apply UInt64.toNat_ofNat_of_lt'
    exact (show i - fees.chargedOn i + 1 ≤ j by omega).trans_lt hj
  rw [← hamount] at hm hn hpaid
  generalize UInt64.ofNat (i - fees.chargedOn i + 1) = amount at hm hn hpaid
  generalize hfrom : UInt64.ofNat i = i' at hi
  generalize hto : UInt64.ofNat j = j' at hj'
  subst hi hj'
  obtain ⟨r, hr, hrout⟩ := parityQuoteData_quote accounts hspl htakes hfees hleft' (by omega) amount hn
  obtain ⟨s, hs, hsout⟩ := parityQuoteData_quote accounts hspl htakes hfees hleft (by omega) amount hm
  have hle := hquotes amount i' j' r s (UInt64.le_iff_toNat_le.mpr hij) hr hs
  rw [UInt64.le_iff_toNat_le, hrout, hsout] at hle
  exact absurd hle (Nat.not_le.mpr hpaid)

/-! ### Quotes in order -/

/-- In every constant product pool with these fees and its source vault at par, a larger amount is never
quoted less. -/
def QuotesInOrder (accounts : StakeAccounts) (libraries : CurveLibraries) (fees : PoolFees) : Prop :=
  ∀ quoteData : QuoteData, quoteData.pool.curveType = .constantProduct → quoteData.pool.fees = fees →
    ∀ inTokenMint, quoteData.SourceAtPar inTokenMint →
      ∀ (i j : UInt64) (r s : QuoteResult), i ≤ j →
        computeQuote accounts libraries inTokenMint i quoteData = .ok r →
        computeQuote accounts libraries inTokenMint j quoteData = .ok s → r.outAmount ≤ s.outAmount

theorem quotesInOrder_iff (accounts : StakeAccounts) (hspl : SplSwapPays libraries)
    (htakes : SplSwapTakes libraries) (hfees : fees.Bounded) :
    QuotesInOrder accounts libraries fees ↔ fees.NeverBothStep := by
  rw [← hfees.keepsOrder_iff]
  constructor
  · intro hquotes
    apply keepsOrder_of_quotes accounts hspl htakes hfees
    intro amount
    exact hquotes _ rfl rfl _ (parityQuoteData_sourceAtPar fees amount)
  · intro horder quoteData hcurve heq inTokenMint hpar i j r s hij hi hj
    subst heq
    exact outAmount_le hspl hcurve hfees hpar horder hij hi hj

theorem sampleLibraries_takes : SplSwapTakes sampleLibraries := by
  intro amount source destination result _ _ _ hswap
  simp only [sampleLibraries] at hswap
  split at hswap
  · cases hswap
  rename_i hpays
  rw [Option.some.injEq] at hswap
  subst hswap
  have hpos : 0 < source + amount := by omega
  have hkeep : 0 < ProductCurve.keep source destination amount := by
    by_contra hzero
    have hle := @ProductCurve.product_le_mul_keep source destination amount hpos
    rw [Nat.eq_zero_of_not_pos hzero, Nat.mul_zero] at hle
    omega
  have hceil : (source * destination) ⌈/⌉ ProductCurve.keep source destination amount ≤ source + amount := by
    rw [ceilDiv_le_iff_le_smul hkeep, smul_eq_mul, Nat.mul_comm (ProductCurve.keep _ _ _)]
    exact ProductCurve.product_le_mul_keep hpos
  simp only
  omega

theorem quotesInOrder_iff_sample :
    QuotesInOrder sampleAccounts sampleLibraries sampleFees ↔ sampleFees.NeverBothStep :=
  quotesInOrder_iff sampleAccounts sampleLibraries_pays sampleLibraries_takes ⟨by decide, by decide⟩

/-- The trade fee and the protocol's cut of it step up together at 4000 tokens. -/
theorem quotes_out_of_order : ¬ QuotesInOrder sampleAccounts sampleLibraries sampleFees := by
  intro hquotes
  have hle := hquotes (sampleQuoteData sampleFees 1000000 1000000) rfl rfl (Pubkey.replicate 2)
    (by
      intro time _
      exact sampleVault_getUnlockedAmount 1000000 time)
    3999 4000 { outAmount := 4937, fee := 9 } { outAmount := 4935, fee := 10 } (by decide) (by decide)
    (by decide)
  exact absurd hle (by decide)

end Quote

end DynamicAmm

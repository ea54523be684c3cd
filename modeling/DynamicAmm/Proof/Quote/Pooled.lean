import DynamicAmm.Proof.Quote.Product

/-!
# The Rust quote is a pooled swap in words

When the protocol takes no cut, what the trade settles is the swap between the two vaults, computed in
words: it goes through exactly when that swap does, its amount is below the reserve, and the totals and
the supply after the deposit still fit a word.
-/

namespace DynamicAmm.Quote

open Rust Program

variable {libraries : CurveLibraries}

/-- The SPL swap takes no more of the source token than it is given. -/
def SplSwapTakes (libraries : CurveLibraries) : Prop :=
  ∀ amount source destination result, amount < 2 ^ 64 → source < 2 ^ 64 → destination < 2 ^ 64 →
    libraries.splSwap amount source destination = some result → result.sourceAmountSwapped ≤ amount

theorem constantProduct_swap_of_pays (hspl : SplSwapPays libraries) (htakes : SplSwapTakes libraries)
    {amount source destination : UInt64}
    (h : ProductCurve.Pays source.toNat destination.toNat amount.toNat) :
    ∃ result, ConstantProduct.swap libraries amount source destination = some result ∧
      result.destinationAmountSwapped =
        ProductCurve.payout source.toNat destination.toNat amount.toNat := by
  have hpays := hspl amount.toNat source.toNat destination.toNat amount.toNat_lt source.toNat_lt
    destination.toNat_lt
  rw [if_neg (by have := h.new_ne; have := h.new_le; have := h.payout_ne; omega)] at hpays
  obtain ⟨swapped, hswapped, hdestination⟩ := Option.map_eq_some_iff.mp hpays
  have hsource := htakes _ _ _ swapped amount.toNat_lt source.toNat_lt destination.toNat_lt hswapped
  have hlt := h.payout_lt
  have hfit : source.toNat + swapped.sourceAmountSwapped < 2 ^ 128 := by
    have := source.toNat_lt
    have := amount.toNat_lt
    omega
  refine ⟨⟨source.toNat + swapped.sourceAmountSwapped,
    destination.toNat - swapped.destinationAmountSwapped, swapped.sourceAmountSwapped,
    swapped.destinationAmountSwapped⟩, ?_, hdestination⟩
  simp only [ConstantProduct.swap, Option.bind_eq_bind, Option.bind_eq_some_iff, Option.some.injEq]
  refine ⟨swapped, hswapped, _, checkedAdd128_eq_some.mpr ⟨hfit, rfl⟩, _,
    checkedSub128_eq_some.mpr ?_, rfl⟩
  omega

variable {fees : PoolFees} {inAmount time out : UInt64} {direction : TradeDirection}
  {trade : TradeAccounts} {v w : ShareVault} {fee : Nat}

/-- A trade fee of which the protocol takes nothing. -/
structure Uncut (fees : PoolFees) (inAmount : UInt64) (fee : Nat) : Prop where
  trade : fees.tradingFee inAmount.toNat = some fee
  protocol : fees.protocolTradingFee fee = some 0

theorem Settled.swapsTo (hspl : SplSwapPays libraries) {steps : QuoteSteps}
    (h : Settled libraries fees .constantProduct inAmount direction trade v.total w.total steps)
    (hfee : Uncut fees inAmount fee) (hin : Backs trade.inInfo time v) (hout : Backs trade.outInfo time w)
    (hx : trade.inTokenTotalAmount.toNat = v.value) (hy : trade.outTokenTotalAmount.toNat = w.value) :
    v.SwapsTo w inAmount.toNat fee steps.result.outAmount.toNat ∧
      steps.result.outAmount < trade.outVaultTokenAccount.amount ∧
      trade.inVault.totalAmount.toNat + inAmount.toNat < 2 ^ 64 ∧
      v.supply + v.sharesFor inAmount.toNat < 2 ^ 64 := by
  obtain ⟨-, -, -, hsupply, hheld⟩ := hin
  obtain ⟨-, -, -, hsupply', -⟩ := hout
  simp only [TradeAccounts.inInfo, TradeAccounts.outInfo] at hsupply hheld hsupply'
  have htrade : steps.tradeFee = fee := Option.some.inj (h.tradeFee.symm.trans hfee.trade)
  have hprotocol : steps.protocolFee.toNat = 0 := by
    have hcut := h.protocolFee
    rw [htrade, hfee.protocol, Option.some.injEq] at hcut
    exact hcut.symm
  have hafter : steps.inAmountAfterProtocolFee.toNat = inAmount.toNat := by
    have := h.afterProtocolFee
    omega
  have hlp : steps.inLp.toNat = v.sharesFor inAmount.toNat := by
    rw [h.inLp, hafter, hsupply]
    rfl
  have hactual : steps.actualInAmount.toNat = v.credited inAmount.toNat := by
    have hvalue := h.actualInAmount
    rw [hlp, hheld, hafter, hsupply, hx, Nat.add_comm (v.sharesFor _)] at hvalue
    have hcredited := v.value_add_credited inAmount.toNat
    change _ = (v.deposit inAmount.toNat).value at hvalue
    omega
  have hgiven : steps.actualInAmountAfterFee.toNat = v.credited inAmount.toNat - fee := by
    have := h.afterFee
    omega
  obtain ⟨result, hswap, hdestination⟩ := h.swap
  obtain ⟨hpays, hpaid⟩ := constantProduct_swap_pays hspl hswap
  rw [hx, hy, hgiven] at hpays hpaid
  refine ⟨⟨h.inUnlocked_ne, ?_, hpays, ?_⟩, h.reserve, ?_, ?_⟩
  · have := h.afterFee
    omega
  · rw [h.outAmount, h.outVaultLp, hdestination, hpaid, hsupply']
    rfl
  · have := h.total_lt
    omega
  · have := h.supply_lt
    omega

/-- The steps of a trade that settles, from the swap it computes. -/
def stepsOf (v w : ShareVault) (inAmount out : UInt64) (fee : Nat) : QuoteSteps where
  tradeFee := fee
  protocolFee := 0
  inAmountAfterProtocolFee := inAmount
  inLp := UInt64.ofNat (v.sharesFor inAmount.toNat)
  actualInAmount := UInt64.ofNat (v.credited inAmount.toNat)
  actualInAmountAfterFee := UInt64.ofNat (v.credited inAmount.toNat - fee)
  destinationAmountSwapped :=
    UInt64.ofNat (ProductCurve.payout v.value w.value (v.credited inAmount.toNat - fee))
  outVaultLp := UInt64.ofNat
    (w.sharesFor (ProductCurve.payout v.value w.value (v.credited inAmount.toNat - fee)))
  result := { outAmount := out, fee := UInt64.ofNat fee }

theorem settled_of_swapsTo (hspl : SplSwapPays libraries) (htakes : SplSwapTakes libraries)
    (direction : TradeDirection) (trade : TradeAccounts) (hfee : Uncut fees inAmount fee)
    (hin : Backs trade.inInfo time v) (hout : Backs trade.outInfo time w)
    (hx : trade.inTokenTotalAmount.toNat = v.value) (hy : trade.outTokenTotalAmount.toNat = w.value)
    (hswaps : v.SwapsTo w inAmount.toNat fee out.toNat)
    (hreserve : out < trade.outVaultTokenAccount.amount)
    (htotal : trade.inVault.totalAmount.toNat + inAmount.toNat < 2 ^ 64)
    (hsupply_lt : v.supply + v.sharesFor inAmount.toNat < 2 ^ 64) :
    Settled libraries fees .constantProduct inAmount direction trade v.total w.total
      (stepsOf v w inAmount out fee) := by
  obtain ⟨unlocked, hunlocked, hvtotal, hsupply, hheld⟩ := hin
  obtain ⟨unlocked', -, hwtotal, hsupply', -⟩ := hout
  simp only [TradeAccounts.inInfo, TradeAccounts.outInfo] at hunlocked hsupply hheld hsupply'
  have hlocked := (Vault.getUnlockedAmount_eq_some.mp hunlocked).2
  have hvalue := v.value_deposit_le inAmount.toNat
  have hcredited := v.value_add_credited inAmount.toNat
  have hheld_le := v.held_le
  have hfee_le := hswaps.fee_le
  have hpayout := hswaps.pays.payout_lt
  have hwvalue := w.value_le_total
  have hwtotal_lt := unlocked'.toNat_lt
  have hshares : w.sharesFor (ProductCurve.payout v.value w.value (v.credited inAmount.toNat - fee)) ≤
      w.held := w.sharesFor_le_held hpayout.le
  have hwheld := w.held_le
  have hwsupply := trade.outVaultLpMint.supply.toNat_lt
  have hword : ∀ {n : Nat}, n < 2 ^ 64 → (UInt64.ofNat n).toNat = n := UInt64.toNat_ofNat_of_lt'
  have hlp : (UInt64.ofNat (v.sharesFor inAmount.toNat)).toNat = v.sharesFor inAmount.toNat :=
    hword (by omega)
  have hactual : (UInt64.ofNat (v.credited inAmount.toNat)).toNat = v.credited inAmount.toNat :=
    hword (by omega)
  have hgiven : (UInt64.ofNat (v.credited inAmount.toNat - fee)).toNat = v.credited inAmount.toNat - fee :=
    hword (by omega)
  have hpaid : (UInt64.ofNat
      (ProductCurve.payout v.value w.value (v.credited inAmount.toNat - fee))).toNat =
        ProductCurve.payout v.value w.value (v.credited inAmount.toNat - fee) :=
    hword (by omega)
  have hburned : (UInt64.ofNat
      (w.sharesFor (ProductCurve.payout v.value w.value (v.credited inAmount.toNat - fee)))).toNat =
        w.sharesFor (ProductCurve.payout v.value w.value (v.credited inAmount.toNat - fee)) :=
    hword (by omega)
  have hpays := hswaps.pays
  rw [← hx, ← hy, ← hgiven] at hpays
  obtain ⟨result, hswap, hdestination⟩ := constantProduct_swap_of_pays hspl htakes hpays
  rw [hx, hy, hgiven] at hdestination
  have hsource_supply := hswaps.source_supply_ne
  constructor
  · exact hswaps.total_ne
  · exact hswaps.destination_total_ne
  · rw [hsupply']
    exact hswaps.destination_supply_ne
  · exact hfee.trade
  · exact hfee.protocol
  · rfl
  · rw [stepsOf, hlp, hsupply]
    rfl
  · exact htotal
  · rw [stepsOf, hlp]
    omega
  · rw [stepsOf, hlp]
    omega
  · rw [stepsOf, hlp]
    omega
  · rw [stepsOf, hlp, hactual, hx, hheld, hsupply, Nat.add_comm (v.sharesFor _)]
    change _ = (v.deposit inAmount.toNat).value
    omega
  · rw [stepsOf, hactual]
    omega
  · exact hword (by omega)
  · change (UInt64.ofNat _).toNat + fee = (UInt64.ofNat _).toNat
    rw [hgiven, hactual]
    omega
  · exact ⟨result, hswap, by rw [stepsOf, hpaid, hdestination]⟩
  · rw [stepsOf, hburned, hpaid, hsupply']
    rfl
  · rw [stepsOf, hburned, hsupply']
    exact hswaps.out_eq
  · exact hreserve

/-- A trade settles for an amount exactly when that is the swap between its two vaults. -/
theorem settleTrade_swaps_iff (hspl : SplSwapPays libraries) (htakes : SplSwapTakes libraries)
    (hfee : Uncut fees inAmount fee) (hin : Backs trade.inInfo time v) (hout : Backs trade.outInfo time w)
    (hx : trade.inTokenTotalAmount.toNat = v.value) (hy : trade.outTokenTotalAmount.toNat = w.value) :
    (∃ steps, settleTrade libraries fees .constantProduct time inAmount direction trade = .ok steps ∧
        steps.result.outAmount = out) ↔
      v.SwapsTo w inAmount.toNat fee out.toNat ∧ out < trade.outVaultTokenAccount.amount ∧
        trade.inVault.totalAmount.toNat + inAmount.toNat < 2 ^ 64 ∧
        v.supply + v.sharesFor inAmount.toNat < 2 ^ 64 := by
  simp only [settleTrade_eq_ok_of_backs libraries trade hin hout]
  constructor
  · rintro ⟨steps, hsettled, hout_eq⟩
    subst hout_eq
    exact Settled.swapsTo hspl hsettled hfee hin hout hx hy
  · rintro ⟨hswaps, hreserve, hfits, hsupply⟩
    exact ⟨_, settled_of_swapsTo hspl htakes direction trade hfee hin hout hx hy hswaps hreserve hfits hsupply,
      rfl⟩

/-! ### The whole quote -/

/-- The totals and the supply of the source vault fit a word after the deposit. -/
def QuoteData.FitsWords (quoteData : QuoteData) (direction : TradeDirection) (inAmount : UInt64)
    (source : ShareVault) : Prop :=
  (direction.source quoteData.vaultA quoteData.vaultB).totalAmount.toNat + inAmount.toNat < 2 ^ 64 ∧
    source.supply + source.sharesFor inAmount.toNat < 2 ^ 64

variable (accounts : StakeAccounts)

/-- A quote of an open constant product pool, from the two vaults it is over. -/
theorem computeQuote_eq_ok_iff (hspl : SplSwapPays libraries) (htakes : SplSwapTakes libraries)
    {quoteData : QuoteData} {inTokenMint : Pubkey} {vA vB : ShareVault}
    (hcurve : quoteData.pool.curveType = .constantProduct)
    (hactivated : Activated quoteData.pool quoteData.clock) (henabled : quoteData.pool.enabled = true)
    (hmint : inTokenMint = quoteData.pool.tokenAMint ∨ inTokenMint = quoteData.pool.tokenBMint)
    (htime : timeTryIntoU64 quoteData.clock.unixTimestamp = .ok time)
    (hA : Backs quoteData.vaultInfoA time vA) (hB : Backs quoteData.vaultInfoB time vB)
    (hfee : Uncut quoteData.pool.fees inAmount fee)
    (hdirection : quoteData.directionOf inTokenMint = direction) (out : UInt64) :
    (∃ result, computeQuote accounts libraries inTokenMint inAmount quoteData = .ok result ∧
        result.outAmount = out) ↔
      (direction.source vA vB).SwapsTo (direction.destination vA vB) inAmount.toNat fee out.toNat ∧
        out < (direction.destination quoteData.vaultAToken quoteData.vaultBToken).amount ∧
        quoteData.FitsWords direction inAmount (direction.source vA vB) := by
  have hquote : (∃ result, computeQuote accounts libraries inTokenMint inAmount quoteData = .ok result ∧
      result.outAmount = out) ↔
      ∃ a b, quoteData.poolTokens time = .ok (a, b) ∧
        ∃ steps, settleTrade libraries quoteData.pool.fees .constantProduct time inAmount direction
          (quoteData.tradeAccounts a b direction) = .ok steps ∧ steps.result.outAmount = out := by
    simp only [computeQuote, Outcome.bind_eq_ok, Outcome.pure_eq_ok, computeQuoteSteps_eq_ok,
      updateBaseVirtualPrice_constantProduct accounts hcurve, hcurve, hdirection, htime,
      Outcome.ok.injEq]
    constructor
    · rintro ⟨result, ⟨steps, ⟨_, _, _, _, _, htime', a, b, htokens, hsettle⟩, hresult⟩, hout⟩
      subst htime' hresult
      exact ⟨a, b, htokens, steps, hsettle, hout⟩
    · rintro ⟨a, b, htokens, steps, hsettle, hout⟩
      exact ⟨steps.result, ⟨steps, ⟨hactivated, henabled, trivial, hmint, time, rfl, a, b, htokens, hsettle⟩,
        rfl⟩, hout⟩
  have htokens : ∀ a b, quoteData.poolTokens time = .ok (a, b) ↔
      (vA.supply ≠ 0 ∧ a.toNat = vA.value) ∧ (vB.supply ≠ 0 ∧ b.toNat = vB.value) := by
    intro a b
    rw [QuoteData.poolTokens_eq_ok, ← hA.getAmountByShare_eq_some, ← hB.getAmountByShare_eq_some]
    rfl
  -- The two directions differ in which vault is the source.
  have hsettles : ∀ a b : UInt64, a.toNat = vA.value → b.toNat = vB.value →
      ((∃ steps, settleTrade libraries quoteData.pool.fees .constantProduct time inAmount direction
          (quoteData.tradeAccounts a b direction) = .ok steps ∧ steps.result.outAmount = out) ↔
        (direction.source vA vB).SwapsTo (direction.destination vA vB) inAmount.toNat fee out.toNat ∧
          out < (direction.destination quoteData.vaultAToken quoteData.vaultBToken).amount ∧
          quoteData.FitsWords direction inAmount (direction.source vA vB)) := by
    intro a b ha hb
    cases direction with
    | aToB => exact settleTrade_swaps_iff hspl htakes hfee hA hB ha hb
    | bToA => exact settleTrade_swaps_iff hspl htakes hfee hB hA hb ha
  rw [hquote]
  constructor
  · rintro ⟨a, b, hok, hsettle⟩
    obtain ⟨⟨-, ha⟩, -, hb⟩ := (htokens a b).mp hok
    exact (hsettles a b ha hb).mp hsettle
  · intro hswaps
    have hne : vA.supply ≠ 0 ∧ vB.supply ≠ 0 := by
      cases direction with
      | aToB => exact ⟨hswaps.1.source_supply_ne, hswaps.1.destination_supply_ne⟩
      | bToA => exact ⟨hswaps.1.destination_supply_ne, hswaps.1.source_supply_ne⟩
    obtain ⟨a, -, ha⟩ := hA.exists_amount hne.1
    obtain ⟨b, -, hb⟩ := hB.exists_amount hne.2
    exact ⟨a, b, (htokens a b).mpr ⟨⟨hne.1, ha⟩, hne.2, hb⟩, (hsettles a b ha hb).mpr hswaps⟩

end DynamicAmm.Quote

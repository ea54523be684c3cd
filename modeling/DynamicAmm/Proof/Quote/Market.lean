import DynamicAmm.Base.Exchange
import DynamicAmm.Proof.Quote.Unlocking
import DynamicAmm.Quote.Market

/-!
# Runs of the market

A market refines an exchange over two share vaults. A swap that goes through is a deposit on one side and a
redemption on the other, whatever the curve, and time only lets the vaults earn. What an exchange keeps over
any run therefore holds of the accounts after any sequence of swaps.
-/

namespace DynamicAmm.Quote

open Rust Program
open Relation (ReflTransGen)

variable {accounts : StakeAccounts} {libraries : CurveLibraries}

/-! ### One swap -/

section Swap

variable {quoteData quoteData' : QuoteData} {inTokenMint : Pubkey} {inAmount : UInt64} {steps : QuoteSteps}

/-- All that a swap does to the accounts. -/
theorem QuoteData.swap_cases
    (h : quoteData.swap accounts libraries inTokenMint inAmount = some (quoteData', steps)) :
    computeQuoteSteps accounts libraries inTokenMint inAmount quoteData = .ok steps ∧
      ∃ infoA infoB reserveA reserveB,
        quoteData' = { quoteData.withSides infoA infoB with
          vaultAToken := ⟨reserveA⟩
          vaultBToken := ⟨reserveB⟩
          pool := (updateBaseVirtualPrice accounts quoteData.pool quoteData.clock quoteData.stakeData).2 } ∧
        (quoteData.directionOf inTokenMint = .aToB ∧
          quoteData.vaultInfoA.deposit steps.inAmountAfterProtocolFee steps.inLp = some infoA ∧
          quoteData.vaultInfoB.withdraw steps.result.outAmount steps.outVaultLp = some infoB ∧
          checkedAdd quoteData.vaultAToken.amount steps.inAmountAfterProtocolFee = some reserveA ∧
          checkedSub quoteData.vaultBToken.amount steps.result.outAmount = some reserveB ∨
        quoteData.directionOf inTokenMint = .bToA ∧
          quoteData.vaultInfoB.deposit steps.inAmountAfterProtocolFee steps.inLp = some infoB ∧
          quoteData.vaultInfoA.withdraw steps.result.outAmount steps.outVaultLp = some infoA ∧
          checkedAdd quoteData.vaultBToken.amount steps.inAmountAfterProtocolFee = some reserveB ∧
          checkedSub quoteData.vaultAToken.amount steps.result.outAmount = some reserveA) := by
  rw [QuoteData.swap] at h
  cases hsteps : computeQuoteSteps accounts libraries inTokenMint inAmount quoteData with
  | err _ => simp [hsteps] at h
  | panic => simp [hsteps] at h
  | ok quoted =>
      simp only [hsteps, Option.bind_eq_bind, Option.bind_eq_some_iff, Option.some.injEq, Prod.mk.injEq] at h
      obtain ⟨swapped, hexecute, moved, hmove, rfl, rfl⟩ := h
      refine ⟨rfl, ?_⟩
      cases hdirection : quoteData.directionOf inTokenMint with
      | aToB =>
          simp only [QuoteData.execute, hdirection, Option.bind_eq_bind, Option.bind_eq_some_iff,
            Option.some.injEq] at hexecute
          obtain ⟨infoA, hA, infoB, hB, rfl⟩ := hexecute
          simp only [hdirection, QuoteData.moveTokens, Option.bind_eq_bind, Option.bind_eq_some_iff,
            Option.some.injEq] at hmove
          obtain ⟨reserveA, hreserveA, reserveB, hreserveB, rfl⟩ := hmove
          exact ⟨infoA, infoB, reserveA, reserveB, rfl, .inl ⟨rfl, hA, hB, hreserveA, hreserveB⟩⟩
      | bToA =>
          simp only [QuoteData.execute, hdirection, Option.bind_eq_bind, Option.bind_eq_some_iff,
            Option.some.injEq] at hexecute
          obtain ⟨infoB, hB, infoA, hA, rfl⟩ := hexecute
          simp only [hdirection, QuoteData.moveTokens, Option.bind_eq_bind, Option.bind_eq_some_iff,
            Option.some.injEq] at hmove
          obtain ⟨reserveB, hreserveB, reserveA, hreserveA, rfl⟩ := hmove
          exact ⟨infoA, infoB, reserveA, reserveB, rfl, .inr ⟨rfl, hB, hA, hreserveB, hreserveA⟩⟩

end Swap

/-! ### The exchange behind a market -/

inductive Token where
  | a
  | b
  deriving DecidableEq

/-- The two vaults at the time of the clock. -/
structure QuoteData.Backed (quoteData : QuoteData) (time : UInt64) (vault : Token → ShareVault) : Prop where
  clock : timeTryIntoU64 quoteData.clock.unixTimestamp = .ok time
  vaultA : Backs quoteData.vaultInfoA time (vault .a)
  vaultB : Backs quoteData.vaultInfoB time (vault .b)

structure Market.Refines (market : Market) (exchange : Exchange Token) : Prop where
  backed : ∃ time, market.quoteData.Backed time exchange.vault
  paidA : exchange.paid .a = market.ledger.paidA
  paidB : exchange.paid .b = market.ledger.paidB
  receivedA : exchange.received .a = market.ledger.receivedA
  receivedB : exchange.received .b = market.ledger.receivedB

variable {market : Market} {exchange : Exchange Token}

section Legs

variable {fees : PoolFees} {curve : SwapCurve} {inAmount time : UInt64} {direction : TradeDirection}
  {trade : TradeAccounts} {steps : QuoteSteps} {v w : ShareVault} {inInfo outInfo : VaultInfo}

theorem Backs.held_of_withdraw (hbacks : Backs outInfo time w) {amount lp : UInt64} {info : VaultInfo}
    (h : outInfo.withdraw amount lp = some info) : lp.toNat ≤ w.held := by
  obtain ⟨_, _, _, _, hheld⟩ := hbacks
  simp only [VaultInfo.withdraw, Option.bind_eq_bind, Option.bind_eq_some_iff, checkedSub_eq_some] at h
  obtain ⟨_, _, _, _, _, hlp, _⟩ := h
  omega

/-- Both sides of a trade after its tokens and LP have moved. -/
theorem Settled.moved (h : Settled libraries fees curve inAmount direction trade v.total w.total steps)
    (hin : Backs trade.inInfo time v) (hout : Backs trade.outInfo time w)
    (hdeposit : trade.inInfo.deposit steps.inAmountAfterProtocolFee steps.inLp = some inInfo)
    (hwithdraw : trade.outInfo.withdraw steps.result.outAmount steps.outVaultLp = some outInfo) :
    Backs inInfo time (v.deposit steps.inAmountAfterProtocolFee.toNat) ∧
      steps.outVaultLp.toNat ≤ w.held ∧ steps.result.outAmount.toNat = w.worth steps.outVaultLp.toNat ∧
      Backs outInfo time (w.redeem steps.outVaultLp.toNat) := by
  have hsupply : trade.inVaultLpMint.supply.toNat = v.supply := hin.choose_spec.2.2.1
  have hsupply' : trade.outVaultLpMint.supply.toNat = w.supply := hout.choose_spec.2.2.1
  have hshares : steps.inLp.toNat = v.sharesFor steps.inAmountAfterProtocolFee.toNat := by
    rw [h.inLp, hsupply]
    rfl
  have hworth : steps.result.outAmount.toNat = w.worth steps.outVaultLp.toNat := by
    rw [h.outAmount, hsupply']
    rfl
  have hheld := hout.held_of_withdraw hwithdraw
  obtain ⟨info, hinfo, hbacks⟩ := hin.deposit hshares h.total_lt h.supply_lt
  obtain ⟨info', hinfo', hbacks'⟩ := hout.withdraw hheld hworth
  rw [hdeposit, Option.some.injEq] at hinfo
  rw [hwithdraw, Option.some.injEq] at hinfo'
  subst hinfo hinfo'
  exact ⟨hbacks, hheld, hworth, hbacks'⟩

end Legs

section Step

variable {quoteData quoteData' : QuoteData} {inTokenMint : Pubkey} {inAmount time : UInt64}
  {steps : QuoteSteps} {vault : Token → ShareVault}

/-- What a quote has settled on, in terms of the vaults. -/
theorem QuoteData.Backed.settled (h : quoteData.Backed time vault)
    (hsteps : computeQuoteSteps accounts libraries inTokenMint inAmount quoteData = .ok steps) :
    ∃ a b, quoteData.poolTokens time = .ok (a, b) ∧ a.toNat = (vault .a).value ∧ b.toNat = (vault .b).value ∧
      Settled libraries quoteData.pool.fees
        (getSwapCurve
          (updateBaseVirtualPrice accounts quoteData.pool quoteData.clock quoteData.stakeData).2.curveType)
        inAmount (quoteData.directionOf inTokenMint)
        (quoteData.tradeAccounts a b (quoteData.directionOf inTokenMint))
        (match quoteData.directionOf inTokenMint with | .aToB => (vault .a).total | .bToA => (vault .b).total)
        (match quoteData.directionOf inTokenMint with | .aToB => (vault .b).total | .bToA => (vault .a).total)
        steps := by
  obtain ⟨_, _, _, _, time', htime', a, b, htokens, hsettle⟩ :=
    (computeQuoteSteps_eq_ok accounts libraries).mp hsteps
  obtain rfl := Outcome.ok.inj (h.clock.symm.trans htime')
  obtain ⟨ha, hb⟩ := QuoteData.poolTokens_eq_ok.mp htokens
  refine ⟨a, b, htokens, (h.vaultA.getAmountByShare_eq_some.mp ha).2,
    (h.vaultB.getAmountByShare_eq_some.mp hb).2, ?_⟩
  cases hdirection : quoteData.directionOf inTokenMint with
  | aToB =>
      rw [hdirection] at hsettle
      exact (settleTrade_eq_ok_of_backs libraries (quoteData.tradeAccounts a b .aToB) h.vaultA h.vaultB).mp hsettle
  | bToA =>
      rw [hdirection] at hsettle
      exact (settleTrade_eq_ok_of_backs libraries (quoteData.tradeAccounts a b .bToA) h.vaultB h.vaultA).mp hsettle

/-- A constant product curve leaves the two sides with shares, and with no smaller product. -/
theorem Settled.product_le_moved {fees : PoolFees} {direction : TradeDirection} {trade : TradeAccounts}
    {v w : ShareVault} {inInfo outInfo : VaultInfo} (hspl : SplSwapPays libraries)
    (h : Settled libraries fees .constantProduct inAmount direction trade v.total w.total steps)
    (hin : Backs trade.inInfo time v) (hout : Backs trade.outInfo time w)
    (hinValue : trade.inTokenTotalAmount.toNat = v.value) (houtValue : trade.outTokenTotalAmount.toNat = w.value)
    (hdeposit : trade.inInfo.deposit steps.inAmountAfterProtocolFee steps.inLp = some inInfo)
    (hwithdraw : trade.outInfo.withdraw steps.result.outAmount steps.outVaultLp = some outInfo) :
    (v.deposit steps.inAmountAfterProtocolFee.toNat).supply ≠ 0 ∧
      (w.redeem steps.outVaultLp.toNat).supply ≠ 0 ∧
      v.value * w.value ≤ (v.deposit steps.inAmountAfterProtocolFee.toNat).value *
        (w.redeem steps.outVaultLp.toNat).value := by
  obtain ⟨info, info', hinfo, hinfo', x, y, hx, hy, hle⟩ := h.product_le hspl hin hout houtValue
  rw [hdeposit, Option.some.injEq] at hinfo
  rw [hwithdraw, Option.some.injEq] at hinfo'
  subst hinfo hinfo'
  obtain ⟨hbacks, -, -, hbacks'⟩ := h.moved hin hout hdeposit hwithdraw
  obtain ⟨hsupply, hx⟩ := hbacks.getAmountByShare_eq_some.mp hx
  obtain ⟨hsupply', hy⟩ := hbacks'.getAmountByShare_eq_some.mp hy
  rw [hx, hy, hinValue, houtValue] at hle
  exact ⟨hsupply, hsupply', hle⟩

/-- A swap that goes through is one leg on either side. -/
theorem Market.Refines.swap (h : market.Refines exchange)
    (hswap : market.quoteData.swap accounts libraries inTokenMint inAmount = some (quoteData', steps)) :
    ∃ exchange', ReflTransGen Exchange.Leg exchange exchange' ∧
      Market.Refines ⟨quoteData', market.ledger.record inAmount.toNat steps.protocolFee.toNat
        steps.result.outAmount.toNat (market.quoteData.directionOf inTokenMint)⟩ exchange' ∧
      (SplSwapPays libraries → market.quoteData.pool.curveType = .constantProduct →
        quoteData'.pool.curveType = .constantProduct ∧ (∀ token, (exchange'.vault token).supply ≠ 0) ∧
        (exchange.vault .a).value * (exchange.vault .b).value ≤
          (exchange'.vault .a).value * (exchange'.vault .b).value) := by
  obtain ⟨time, hbacked⟩ := h.backed
  obtain ⟨hsteps, infoA, infoB, reserveA, reserveB, rfl, hcases⟩ := QuoteData.swap_cases hswap
  obtain ⟨a, b, -, ha, hb, hsettled⟩ := hbacked.settled hsteps
  have hpaid := hsettled.afterProtocolFee
  rcases hcases with ⟨hdirection, hdeposit, hwithdraw, -⟩ | ⟨hdirection, hdeposit, hwithdraw, -⟩
  · rw [hdirection] at hsettled ⊢
    obtain ⟨hA, hheld, hworth, hB⟩ := hsettled.moved hbacked.vaultA hbacked.vaultB hdeposit hwithdraw
    refine ⟨(exchange.deposit .a inAmount.toNat steps.inAmountAfterProtocolFee.toNat).redeem .b
      steps.outVaultLp.toNat, ?_, ?_, ?_⟩
    · refine .tail (.single (.deposit _ _ (by omega))) (.redeem _ _ ?_)
      simpa [Exchange.deposit] using hheld
    · refine ⟨⟨time, hbacked.clock, ?_, ?_⟩, ?_, ?_, ?_, ?_⟩
      · change Backs infoA time _
        simpa [Exchange.deposit, Exchange.redeem] using hA
      · change Backs infoB time _
        simpa [Exchange.deposit, Exchange.redeem] using hB
      · simp [Exchange.deposit, Exchange.redeem, Ledger.record, h.paidA]
      · simp [Exchange.deposit, Exchange.redeem, Ledger.record, h.paidB]
      · simp [Exchange.deposit, Exchange.redeem, Ledger.record, h.receivedA]
      · simp [Exchange.deposit, Exchange.redeem, Ledger.record, h.receivedB, hworth]
    · intro hspl hcurve
      rw [updateBaseVirtualPrice_constantProduct accounts hcurve] at hsettled ⊢
      rw [hcurve] at hsettled
      obtain ⟨hsupplyA, hsupplyB, hproduct⟩ :=
        hsettled.product_le_moved hspl hbacked.vaultA hbacked.vaultB ha hb hdeposit hwithdraw
      refine ⟨hcurve, ?_, ?_⟩
      · rintro (_ | _)
        · simpa [Exchange.deposit, Exchange.redeem] using hsupplyA
        · simpa [Exchange.deposit, Exchange.redeem] using hsupplyB
      · simpa [Exchange.deposit, Exchange.redeem] using hproduct
  · rw [hdirection] at hsettled ⊢
    obtain ⟨hB, hheld, hworth, hA⟩ := hsettled.moved hbacked.vaultB hbacked.vaultA hdeposit hwithdraw
    refine ⟨(exchange.deposit .b inAmount.toNat steps.inAmountAfterProtocolFee.toNat).redeem .a
      steps.outVaultLp.toNat, ?_, ?_, ?_⟩
    · refine .tail (.single (.deposit _ _ (by omega))) (.redeem _ _ ?_)
      simpa [Exchange.deposit] using hheld
    · refine ⟨⟨time, hbacked.clock, ?_, ?_⟩, ?_, ?_, ?_, ?_⟩
      · change Backs infoA time _
        simpa [Exchange.deposit, Exchange.redeem] using hA
      · change Backs infoB time _
        simpa [Exchange.deposit, Exchange.redeem] using hB
      · simp [Exchange.deposit, Exchange.redeem, Ledger.record, h.paidA]
      · simp [Exchange.deposit, Exchange.redeem, Ledger.record, h.paidB]
      · simp [Exchange.deposit, Exchange.redeem, Ledger.record, h.receivedA, hworth]
      · simp [Exchange.deposit, Exchange.redeem, Ledger.record, h.receivedB]
    · intro hspl hcurve
      rw [updateBaseVirtualPrice_constantProduct accounts hcurve] at hsettled ⊢
      rw [hcurve] at hsettled
      obtain ⟨hsupplyB, hsupplyA, hproduct⟩ :=
        hsettled.product_le_moved hspl hbacked.vaultB hbacked.vaultA hb ha hdeposit hwithdraw
      refine ⟨hcurve, ?_, ?_⟩
      · rintro (_ | _)
        · simpa [Exchange.deposit, Exchange.redeem] using hsupplyA
        · simpa [Exchange.deposit, Exchange.redeem] using hsupplyB
      · simpa [Exchange.deposit, Exchange.redeem] using
          (Nat.mul_comm _ _).trans_le (hproduct.trans_eq (Nat.mul_comm _ _))

end Step

/-! ### Time -/

section Wait

variable {vault : Vault} {info : VaultInfo} {t₁ t₂ unlocked : UInt64} {v : ShareVault}

/-- What is unlocked stays unlocked. -/
theorem getUnlockedAmount_later (h : vault.getUnlockedAmount t₁ = some unlocked) (hle : t₁ ≤ t₂) :
    ∃ unlocked', vault.getUnlockedAmount t₂ = some unlocked' ∧ unlocked.toNat ≤ unlocked'.toNat := by
  obtain ⟨hreport, hsum⟩ := Vault.getUnlockedAmount_eq_some.mp h
  have hfalls : vault.lockedProfitTracker.lockedProfit t₂.toNat ≤
      vault.lockedProfitTracker.lockedProfit t₁.toNat := lockedProfitAt_antitone (UInt64.le_iff_toNat_le.mp hle)
  have hlt : vault.totalAmount.toNat - vault.lockedProfitTracker.lockedProfit t₂.toNat < 2 ^ 64 := by
    have := vault.totalAmount.toNat_lt
    omega
  have hvalue := UInt64.toNat_ofNat_of_lt' hlt
  refine ⟨UInt64.ofNat (vault.totalAmount.toNat - vault.lockedProfitTracker.lockedProfit t₂.toNat),
    Vault.getUnlockedAmount_eq_some.mpr ⟨UInt64.le_trans hreport hle, ?_⟩, ?_⟩
  · rw [hvalue]
    omega
  · rw [hvalue]
    omega

theorem Backs.later (h : Backs info t₁ v) (hle : t₁ ≤ t₂) :
    ∃ v', Backs info t₂ v' ∧ v.total ≤ v'.total ∧ v'.supply = v.supply ∧ v'.held = v.held := by
  obtain ⟨unlocked, hunlocked, htotal, hsupply, hheld⟩ := h
  obtain ⟨unlocked', hunlocked', hgrown⟩ := getUnlockedAmount_later hunlocked hle
  exact ⟨⟨unlocked'.toNat, v.supply, v.held, v.held_le⟩, ⟨unlocked', hunlocked', rfl, hsupply, hheld⟩,
    htotal ▸ hgrown, rfl, rfl⟩

theorem Market.Refines.wait (h : market.Refines exchange) {clock : Clock} (stakeData : StakeData)
    (hclock : market.quoteData.clock.unixTimestamp ≤ clock.unixTimestamp) :
    ∃ exchange', exchange.Earns exchange' ∧
      Market.Refines { market with quoteData := { market.quoteData with clock, stakeData } } exchange' := by
  obtain ⟨time, hbacked⟩ := h.backed
  obtain ⟨hnonneg, rfl⟩ := timeTryIntoU64_eq_ok.mp hbacked.clock
  have hle := Int64.toUInt64_le (Int64.le_iff_toInt_le.mpr hnonneg) hclock
  obtain ⟨v, hv, hvtotal, hvsupply, hvheld⟩ := hbacked.vaultA.later hle
  obtain ⟨w, hw, hwtotal, hwsupply, hwheld⟩ := hbacked.vaultB.later hle
  refine ⟨{ exchange with vault := fun | .a => v | .b => w }, ?_, ?_⟩
  · refine ⟨?_, ?_, ?_, rfl, rfl⟩
    · rintro (_ | _) <;> assumption
    · rintro (_ | _) <;> assumption
    · rintro (_ | _) <;> assumption
  · refine ⟨⟨clock.unixTimestamp.toUInt64, ?_, hv, hw⟩, h.paidA, h.paidB, h.receivedA, h.receivedB⟩
    rw [timeTryIntoU64_eq_ok]
    exact ⟨hnonneg.trans (Int64.le_iff_toInt_le.mp hclock), rfl⟩

end Wait

/-! ### Runs -/

section Runs

variable {market' market'' : Market} {exchange' exchange'' : Exchange Token} {quiet quiet' : Prop}

/-- What a part of a run keeps, quiet if nothing but swaps are in it. -/
structure Market.Advances (libraries : CurveLibraries) (market market' : Market)
    (exchange exchange' : Exchange Token) (quiet : Prop) : Prop where
  refines : market'.Refines exchange'
  steps : ReflTransGen Exchange.Step exchange exchange'
  legs : quiet → ReflTransGen Exchange.Leg exchange exchange'
  product : SplSwapPays libraries → market.quoteData.pool.curveType = .constantProduct →
    (∀ token, (exchange.vault token).supply ≠ 0) →
    market'.quoteData.pool.curveType = .constantProduct ∧ (∀ token, (exchange'.vault token).supply ≠ 0) ∧
    (exchange.vault .a).value * (exchange.vault .b).value ≤
      (exchange'.vault .a).value * (exchange'.vault .b).value

theorem Market.Refines.advances_refl (h : market.Refines exchange) (quiet : Prop) :
    Market.Advances libraries market market exchange exchange quiet :=
  ⟨h, .refl, fun _ => .refl, fun _ hcurve hsupply => ⟨hcurve, hsupply, Nat.le_refl _⟩⟩

theorem Market.Advances.trans (h : Market.Advances libraries market market' exchange exchange' quiet)
    (h' : Market.Advances libraries market' market'' exchange' exchange'' quiet') :
    Market.Advances libraries market market'' exchange exchange'' (quiet ∧ quiet') where
  refines := h'.refines
  steps := h.steps.trans h'.steps
  legs hquiet := (h.legs hquiet.1).trans (h'.legs hquiet.2)
  product hspl hcurve hsupply := by
    obtain ⟨hcurve', hsupply', hle⟩ := h.product hspl hcurve hsupply
    obtain ⟨hcurve'', hsupply'', hle'⟩ := h'.product hspl hcurve' hsupply'
    exact ⟨hcurve'', hsupply'', hle.trans hle'⟩

variable (accounts libraries) in
theorem Market.Refines.step (h : market.Refines exchange) (event : Event) :
    ∃ exchange', Market.Advances libraries market (market.step accounts libraries event) exchange exchange'
      event.IsSwap := by
  cases event with
  | swap inTokenMint inAmount =>
      rw [Market.step]
      cases hswap : market.quoteData.swap accounts libraries inTokenMint inAmount with
      | none => exact ⟨exchange, h.advances_refl _⟩
      | some swapped =>
          obtain ⟨exchange', hlegs, hrefines, hproduct⟩ := h.swap hswap
          exact ⟨exchange', hrefines, Exchange.steps_of_legs hlegs, fun _ => hlegs,
            fun hspl hcurve _ => hproduct hspl hcurve⟩
  | wait clock stakeData =>
      rw [Market.step]
      split
      · rename_i hclock
        obtain ⟨exchange', hearns, hrefines⟩ := h.wait stakeData hclock
        refine ⟨exchange', hrefines, .single (.inr hearns), False.elim, ?_⟩
        intro _ hcurve hsupply
        refine ⟨hcurve, ?_, Nat.mul_le_mul (hearns.value_le .a) (hearns.value_le .b)⟩
        intro token
        rw [hearns.supply]
        exact hsupply token
      · exact ⟨exchange, h.advances_refl _⟩

variable (accounts libraries) in
/-- A market refines an exchange through any run. -/
theorem Market.Refines.run (h : market.Refines exchange) (events : List Event) :
    ∃ exchange', Market.Advances libraries market (market.run accounts libraries events) exchange exchange'
      (∀ event ∈ events, event.IsSwap) := by
  induction events generalizing market exchange with
  | nil => exact ⟨exchange, h.advances_refl _⟩
  | cons event rest ih =>
      obtain ⟨exchange₁, hfirst⟩ := h.step accounts libraries event
      obtain ⟨exchange', hrest⟩ := ih hfirst.refines
      have hboth := hfirst.trans hrest
      exact ⟨exchange', hboth.refines, hboth.steps, fun hquiet => hboth.legs (List.forall_mem_cons.mp hquiet),
        hboth.product⟩

end Runs

/-! ### What every run keeps -/

section Kept

variable {quoteData : QuoteData} {time a b : UInt64}

/-- The vault of a token, its LP, and the pool's part of it. -/
def QuoteData.info (quoteData : QuoteData) : Token → VaultInfo
  | .a => quoteData.vaultInfoA
  | .b => quoteData.vaultInfoB

theorem QuoteData.Backed.info {vault : Token → ShareVault} (h : quoteData.Backed time vault) (token : Token) :
    Backs (quoteData.info token) time (vault token) := by
  cases token with
  | a => exact h.vaultA
  | b => exact h.vaultB

/-- A market that opens on accounts whose amounts are defined refines an exchange. -/
theorem QuoteData.open_refines (hlpA : quoteData.poolVaultALpToken.amount ≤ quoteData.vaultALpMint.supply)
    (hlpB : quoteData.poolVaultBLpToken.amount ≤ quoteData.vaultBLpMint.supply)
    (htime : timeTryIntoU64 quoteData.clock.unixTimestamp = .ok time)
    (htokens : quoteData.poolTokens time = .ok (a, b)) :
    ∃ exchange, quoteData.open.Refines exchange ∧ quoteData.Backed time exchange.vault ∧
      (∀ token, (exchange.vault token).supply ≠ 0) ∧ a.toNat = (exchange.vault .a).value ∧
      b.toNat = (exchange.vault .b).value ∧ (∀ token, exchange.paid token = 0 ∧ exchange.received token = 0) := by
  obtain ⟨ha, hb⟩ := QuoteData.poolTokens_eq_ok.mp htokens
  obtain ⟨v, hv⟩ : ∃ v, Backs quoteData.vaultInfoA time v := exists_backs ha hlpA
  obtain ⟨w, hw⟩ : ∃ w, Backs quoteData.vaultInfoB time w := exists_backs hb hlpB
  obtain ⟨hsupplyA, hvalueA⟩ := hv.getAmountByShare_eq_some.mp ha
  obtain ⟨hsupplyB, hvalueB⟩ := hw.getAmountByShare_eq_some.mp hb
  refine ⟨⟨fun | .a => v | .b => w, fun _ => 0, fun _ => 0⟩, ⟨⟨time, htime, hv, hw⟩, rfl, rfl, rfl, rfl⟩,
    ⟨htime, hv, hw⟩, ?_, hvalueA, hvalueB, fun _ => ⟨rfl, rfl⟩⟩
  rintro (_ | _) <;> assumption

theorem Backs.exists_worth {info : VaultInfo} {v : ShareVault} (h : Backs info time v) (hsupply : v.supply ≠ 0)
    (shares : UInt64) (hle : shares.toNat ≤ v.supply) :
    ∃ amount, info.vault.getAmountByShare time shares info.lpSupply = some amount ∧
      amount.toNat = v.worth shares.toNat := by
  obtain ⟨unlocked, hunlocked, htotal, hsupplied, -⟩ := h
  have hlt : v.worth shares.toNat < 2 ^ 64 := by
    have := unlocked.toNat_lt
    have := v.worth_le_total hle
    omega
  have hvalue := UInt64.toNat_ofNat_of_lt' hlt
  refine ⟨UInt64.ofNat (v.worth shares.toNat), Vault.getAmountByShare_eq_some.mpr ⟨unlocked, hunlocked, ?_, ?_⟩,
    hvalue⟩
  · rw [hsupplied]
    exact hsupply
  · rw [hvalue, hsupplied, htotal]
    rfl

/-- Whatever the curve, what the other holders of a vault have is never worth less, and stays theirs. -/
theorem others_never_diluted (hlpA : quoteData.poolVaultALpToken.amount ≤ quoteData.vaultALpMint.supply)
    (hlpB : quoteData.poolVaultBLpToken.amount ≤ quoteData.vaultBLpMint.supply)
    (htime : timeTryIntoU64 quoteData.clock.unixTimestamp = .ok time)
    (htokens : quoteData.poolTokens time = .ok (a, b)) {events : List Event} {final : QuoteData}
    (hfinal : (quoteData.open.run accounts libraries events).quoteData = final) (token : Token)
    {shares : UInt64} (hpos : 0 < shares)
    (hshares : shares.toNat + (quoteData.info token).lpAmount.toNat ≤ (quoteData.info token).lpSupply.toNat) :
    (final.info token).lpSupply.toNat + (quoteData.info token).lpAmount.toNat =
        (quoteData.info token).lpSupply.toNat + (final.info token).lpAmount.toNat ∧
      ∃ time' amount amount', timeTryIntoU64 final.clock.unixTimestamp = .ok time' ∧
        (quoteData.info token).vault.getAmountByShare time shares (quoteData.info token).lpSupply = some amount ∧
        (final.info token).vault.getAmountByShare time' shares (final.info token).lpSupply = some amount' ∧
        amount ≤ amount' := by
  obtain ⟨exchange, hrefines, hbacked, -⟩ := QuoteData.open_refines hlpA hlpB htime htokens
  obtain ⟨exchange', hrun⟩ := hrefines.run accounts libraries events
  obtain ⟨time', hbacked'⟩ := hrun.refines.backed
  rw [hfinal] at hbacked'
  have hbacks := hbacked.info token
  have hbacks' := hbacked'.info token
  obtain ⟨_, _, _, hsupply, hheld⟩ := hbacks
  obtain ⟨_, _, _, hsupply', hheld'⟩ := hbacks'
  have hothers := Exchange.others_eq_of_steps hrun.steps token
  have hpos' : 0 < shares.toNat := UInt64.lt_iff_toNat_lt.mp hpos
  have hle := (exchange.vault token).held_le
  have hle' := (exchange'.vault token).held_le
  simp only [ShareVault.others] at hothers
  constructor
  · omega
  obtain ⟨amount, hamount, hvalue⟩ := (hbacked.info token).exists_worth (by omega) shares (by omega)
  obtain ⟨amount', hamount', hvalue'⟩ := (hbacked'.info token).exists_worth (by omega) shares (by omega)
  refine ⟨time', amount, amount', hbacked'.clock, hamount, hamount', ?_⟩
  rw [UInt64.le_iff_toNat_le, hvalue, hvalue']
  exact Exchange.worth_le_of_steps hrun.steps (by rw [ShareVault.others]; omega) _

/-- Over any run of a constant product market, in which time passes as well, the product of the pool's
amounts never falls. -/
theorem run_product_le (hspl : SplSwapPays libraries) (hcurve : quoteData.pool.curveType = .constantProduct)
    (hlpA : quoteData.poolVaultALpToken.amount ≤ quoteData.vaultALpMint.supply)
    (hlpB : quoteData.poolVaultBLpToken.amount ≤ quoteData.vaultBLpMint.supply)
    (htime : timeTryIntoU64 quoteData.clock.unixTimestamp = .ok time)
    (htokens : quoteData.poolTokens time = .ok (a, b)) (events : List Event) :
    ∃ time' a' b',
      timeTryIntoU64 (quoteData.open.run accounts libraries events).quoteData.clock.unixTimestamp = .ok time' ∧
      (quoteData.open.run accounts libraries events).quoteData.poolTokens time' = .ok (a', b') ∧
      a.toNat * b.toNat ≤ a'.toNat * b'.toNat := by
  obtain ⟨exchange, hrefines, -, hsupply, ha, hb, -⟩ := QuoteData.open_refines hlpA hlpB htime htokens
  obtain ⟨exchange', hrun⟩ := hrefines.run accounts libraries events
  obtain ⟨-, hsupply', hle⟩ := hrun.product hspl hcurve hsupply
  obtain ⟨time', hbacked⟩ := hrun.refines.backed
  obtain ⟨a', ha', hvalueA⟩ := hbacked.vaultA.exists_amount (hsupply' .a)
  obtain ⟨b', hb', hvalueB⟩ := hbacked.vaultB.exists_amount (hsupply' .b)
  refine ⟨time', a', b', hbacked.clock, QuoteData.poolTokens_eq_ok.mpr ⟨ha', hb'⟩, ?_⟩
  rw [ha, hb, hvalueA, hvalueB]
  exact hle

/-- Swaps against a constant product pool, in any order and number, cost the traders some of one token, unless
they get back exactly what they paid of both. -/
theorem swaps_gain_nothing (hspl : SplSwapPays libraries)
    (hcurve : quoteData.pool.curveType = .constantProduct)
    (hlpA : quoteData.poolVaultALpToken.amount ≤ quoteData.vaultALpMint.supply)
    (hlpB : quoteData.poolVaultBLpToken.amount ≤ quoteData.vaultBLpMint.supply)
    (htime : timeTryIntoU64 quoteData.clock.unixTimestamp = .ok time)
    (htokens : quoteData.poolTokens time = .ok (a, b)) (ha : 0 < a) (hb : 0 < b) {events : List Event}
    (hswaps : ∀ event ∈ events, event.IsSwap) {ledger : Ledger}
    (hledger : (quoteData.open.run accounts libraries events).ledger = ledger) :
    ledger.receivedA < ledger.paidA ∨ ledger.receivedB < ledger.paidB ∨
      (ledger.receivedA = ledger.paidA ∧ ledger.receivedB = ledger.paidB) := by
  obtain ⟨exchange, hrefines, -, hsupply, hvalueA, hvalueB, hzero⟩ :=
    QuoteData.open_refines hlpA hlpB htime htokens
  obtain ⟨exchange', hrun⟩ := hrefines.run accounts libraries events
  obtain ⟨-, -, hle⟩ := hrun.product hspl hcurve hsupply
  have hend := hrun.refines
  have hapos : 0 < (exchange.vault .a).value := by rwa [UInt64.lt_iff_toNat_lt, hvalueA] at ha
  have hbpos : 0 < (exchange.vault .b).value := by rwa [UInt64.lt_iff_toNat_lt, hvalueB] at hb
  subst hledger
  rw [← hend.paidA, ← hend.paidB, ← hend.receivedA, ← hend.receivedB]
  rcases lt_or_ge (exchange'.received .a) (exchange'.paid .a) with hA | hA
  · exact .inl hA
  rcases lt_or_ge (exchange'.received .b) (exchange'.paid .b) with hB | hB
  · exact .inr (.inl hB)
  obtain ⟨hpaidA, hreceivedA⟩ := hzero .a
  obtain ⟨hpaidB, hreceivedB⟩ := hzero .b
  have hgain := Exchange.no_gain (i := .a) (j := .b) (hrun.legs hswaps) (by omega) (by omega) hapos hbpos hle
  omega

def sampleEvents : List Event :=
  [.swap (Pubkey.replicate 1) 10000, .wait ⟨20, 2000⟩ (fun _ => none), .swap (Pubkey.replicate 2) 6686]

def sampleMarket : Market :=
  (sampleQuoteData sampleFees 1230457 1048576).open.run sampleAccounts sampleLibraries sampleEvents

theorem sample_time : timeTryIntoU64 (sampleQuoteData sampleFees 1230457 1048576).clock.unixTimestamp = .ok 1000 :=
  by decide

theorem sample_tokens : (sampleQuoteData sampleFees 1230457 1048576).poolTokens 1000 = .ok (615228, 419430) :=
  by decide

theorem run_product_le_sample :
    ∃ time' a' b', timeTryIntoU64 sampleMarket.quoteData.clock.unixTimestamp = .ok time' ∧
      sampleMarket.quoteData.poolTokens time' = .ok (a', b') ∧
      (615228 : UInt64).toNat * (419430 : UInt64).toNat ≤ a'.toNat * b'.toNat :=
  run_product_le sampleLibraries_pays rfl (by decide) (by decide) sample_time sample_tokens sampleEvents

theorem others_never_diluted_sample :
    (sampleMarket.quoteData.info .a).lpSupply.toNat + 500000 =
        1000000 + (sampleMarket.quoteData.info .a).lpAmount.toNat ∧
      ∃ time' amount amount', timeTryIntoU64 sampleMarket.quoteData.clock.unixTimestamp = .ok time' ∧
        (sampleVault 1230457).getAmountByShare 1000 300000 1000000 = some amount ∧
        (sampleMarket.quoteData.info .a).vault.getAmountByShare time' 300000
          (sampleMarket.quoteData.info .a).lpSupply = some amount' ∧
        amount ≤ amount' :=
  have hfinal : ((sampleQuoteData sampleFees 1230457 1048576).open.run sampleAccounts sampleLibraries
      sampleEvents).quoteData = sampleMarket.quoteData := rfl
  others_never_diluted (by decide) (by decide) sample_time sample_tokens hfinal .a
    (by decide : (0 : UInt64) < 300000) (by decide)

theorem swaps_gain_nothing_sample :
    (9937 : Nat) < 10000 ∨ (6686 : Nat) < 6686 ∨ (9937 : Nat) = 10000 ∧ (6686 : Nat) = 6686 :=
  have hledger :
      ((sampleQuoteData sampleFees 1230457 1048576).open.run sampleAccounts sampleLibraries
        [.swap (Pubkey.replicate 1) 10000, .swap (Pubkey.replicate 2) 6686]).ledger =
        ⟨10000, 6686, 9937, 6686, 5, 3⟩ := by
    decide +kernel
  swaps_gain_nothing sampleLibraries_pays rfl (by decide) (by decide) sample_time sample_tokens (by decide)
    (by decide) (by decide) hledger

end Kept

end DynamicAmm.Quote

import DynamicAmm.Client.Decode
import DynamicAmm.Proof.Client.Pooled
import DynamicAmm.Proof.Quote.Fee
import DynamicAmm.Proof.Quote.Pooled

/-!
# The Rust quote and the client's quote

Both quotes read the same accounts, and on a constant product pool both are the swap between its two
vaults. Where they are meant to differ is the numbers: the Rust quote refuses what leaves the words it
computes in, and the client computes on. Where they do differ besides is the fee. The Rust quote charges
the protocol's cut twice and rounds a fee below one up to one, and the client does neither, so the
agreement is about pools and amounts on which that makes no difference.
-/

namespace DynamicAmm

open Rust Program

namespace Quote

/-- What the client passes along with the pool account. Its clock readings are JavaScript numbers. -/
def QuoteData.decode (quoteData : QuoteData) (currentTime currentSlot : Js.SafeInteger)
    (depegAccounts : Client.DepegAccounts) : Client.SwapQuoteParam where
  vaultA := decodeVault quoteData.vaultA
  vaultB := decodeVault quoteData.vaultB
  poolVaultALp := quoteData.poolVaultALpToken.amount.toNat
  poolVaultBLp := quoteData.poolVaultBLpToken.amount.toNat
  vaultALpSupply := quoteData.vaultALpMint.supply.toNat
  vaultBLpSupply := quoteData.vaultBLpMint.supply.toNat
  vaultAReserve := quoteData.vaultAToken.amount.toNat
  vaultBReserve := quoteData.vaultBToken.amount.toNat
  currentTime := currentTime
  currentSlot := currentSlot
  depegAccounts := depegAccounts

end Quote

/-! ### Vaults -/

theorem decodeVault_lockedProfit {tracker : LockedProfitTracker} {time : Nat}
    (h : tracker.lastReport.toNat ≤ time) :
    Client.LockedProfitTracker.lockedProfit ⟨tracker.lastUpdatedLockedProfit.toNat,
      tracker.lastReport.toNat, tracker.lockedProfitDegradation.toNat⟩ time =
        tracker.lockedProfit time := by
  have hratio : ((time : Int) - tracker.lastReport.toNat) * tracker.lockedProfitDegradation.toNat =
      ((time - tracker.lastReport.toNat) * tracker.lockedProfitDegradation.toNat : Nat) := by
    rw [Nat.cast_mul, Nat.cast_sub h]
  simp only [Client.LockedProfitTracker.lockedProfit, LockedProfitTracker.lockedProfit, lockedProfitAt,
    hratio]
  generalize (time - tracker.lastReport.toNat) * tracker.lockedProfitDegradation.toNat = ratio
  by_cases hgt : ratio > lockedProfitDegradationDenominator
  · rw [if_pos hgt, if_pos (by exact_mod_cast hgt), Nat.cast_zero]
  · rw [if_neg hgt, if_neg (by exact_mod_cast hgt), Int.ofNat_tdiv, Nat.cast_mul,
      Nat.cast_sub (not_lt.mp hgt)]

/-- The Rust vault has an unlocked amount exactly when the client's is not negative, and it is the same. -/
theorem getUnlockedAmount_eq_some_iff {vault : Vault} {time unlocked : UInt64}
    (h : vault.lockedProfitTracker.lastReport ≤ time) :
    vault.getUnlockedAmount time = some unlocked ↔
      (decodeVault vault).withdrawable time.toNat = unlocked.toNat := by
  rw [Vault.getUnlockedAmount_eq_some, Client.VaultState.withdrawable]
  simp only [decodeVault, decodeVault_lockedProfit (UInt64.le_iff_toNat_le.mp h), h, true_and]
  omega

/-! ### Fees -/

namespace Quote

/-- The trade fee on the amount is not rounded up to the least fee of one. -/
def NotRoundedUp (fees : PoolFees) (inAmount : UInt64) : Prop :=
  fees.tradeFeeNumerator = 0 ∨ inAmount = 0 ∨
    fees.tradeFeeDenominator.toNat ≤ inAmount.toNat * fees.tradeFeeNumerator.toNat

theorem uncut_of_noProtocolCut {fees : PoolFees} {inAmount : UInt64}
    (htrade : fees.tradeFeeDenominator ≠ 0) (hcut : NoProtocolCut fees inAmount)
    (hround : NotRoundedUp fees inAmount) :
    Uncut fees inAmount
      (inAmount.toNat * fees.tradeFeeNumerator.toNat / fees.tradeFeeDenominator.toNat) := by
  have hdenominator : fees.tradeFeeDenominator.toNat ≠ 0 := by
    rwa [Ne, ← UInt64.toNat_inj] at htrade
  have hround' : fees.tradeFeeNumerator.toNat = 0 ∨ inAmount.toNat = 0 ∨
      fees.tradeFeeDenominator.toNat ≤ inAmount.toNat * fees.tradeFeeNumerator.toNat := by
    rw [NotRoundedUp, ← UInt64.toNat_inj, ← UInt64.toNat_inj] at hround
    exact hround
  refine ⟨calculateFee_eq_some (toNat_mul_lt _ _) hdenominator hround', ?_⟩
  rw [PoolFees.protocolTradingFee, calculateFee, if_pos]
  rcases hcut with h | h | h
  · right
    rw [h, UInt64.toNat_zero, mul_zero, Nat.zero_div]
  · left
    rw [h, UInt64.toNat_zero]
  · right
    rw [h, UInt64.toNat_zero, zero_mul, Nat.zero_div]

theorem decodeFees_uncut {fees : PoolFees} {inAmount : UInt64} (htrade : fees.tradeFeeDenominator ≠ 0)
    (hprotocol : fees.protocolTradeFeeDenominator ≠ 0) (hcut : NoProtocolCut fees inAmount) :
    Client.Uncut (decodeFees fees) inAmount.toNat
      (inAmount.toNat * fees.tradeFeeNumerator.toNat / fees.tradeFeeDenominator.toNat) := by
  have hfee : (decodeFees fees).tradeFee inAmount.toNat =
      (inAmount.toNat * fees.tradeFeeNumerator.toNat / fees.tradeFeeDenominator.toNat : Nat) := by
    simp only [Client.PoolFees.tradeFee, decodeFees]
    rw [Int.ofNat_tdiv, Nat.cast_mul]
  have hzero : ∀ {a : UInt64}, a ≠ 0 → (a.toNat : Int) ≠ 0 := by
    intro a ha
    rw [Ne, ← UInt64.toNat_inj] at ha
    exact_mod_cast ha
  refine ⟨hfee, ?_, hzero htrade, hzero hprotocol⟩
  rw [Client.PoolFees.protocolFee, hfee]
  simp only [decodeFees]
  rcases hcut with h | h | h <;> simp [h]

/-! ### The curve library -/

/-- What the client's port of the SPL token swap computes. -/
def splSwapPort (amount source destination : Nat) : Option SwapWithoutFeesResult :=
  match Client.ceilDiv (source * destination) (source + amount) with
  | .error _ => none
  | .ok (newDestination, newSource) =>
      if (destination : Int) - newDestination = 0 then none
      else some {
        sourceAmountSwapped := (newSource - source).toNat
        destinationAmountSwapped := (destination - newDestination).toNat }

/-- The library computes what its port does. -/
def SplSwapPorted (libraries : CurveLibraries) : Prop :=
  ∀ amount source destination, amount < 2 ^ 64 → source < 2 ^ 64 → destination < 2 ^ 64 →
    libraries.splSwap amount source destination = splSwapPort amount source destination

theorem splSwapPort_eq (amount source destination : Nat) :
    (splSwapPort amount source destination = none ∧
        ¬ ProductCurve.Pays source destination amount) ∨
      ∃ result, splSwapPort amount source destination = some result ∧
        ProductCurve.Pays source destination amount ∧ result.sourceAmountSwapped ≤ amount ∧
        result.destinationAmountSwapped = ProductCurve.payout source destination amount := by
  by_cases hnew : source + amount = 0
  · left
    have hzero : (source : Int) + amount = 0 := by exact_mod_cast hnew
    refine ⟨?_, fun hpays => hpays.new_ne hnew⟩
    simp only [splSwapPort, hzero, Client.ceilDiv, Js.BN.div, if_true]
    rfl
  have hpos : 0 < source + amount := Nat.pos_of_ne_zero hnew
  by_cases hnew_le : source + amount ≤ source * destination
  · obtain ⟨divisor, hceil, hle⟩ := Client.ceilDiv_eq_keep hpos hnew_le
    have hkeep : ProductCurve.keep source destination amount ≤ destination :=
      ProductCurve.keep_le_destination hpos
    by_cases hzero : ProductCurve.payout source destination amount = 0
    · left
      refine ⟨?_, fun hpays => hpays.payout_ne hzero⟩
      rw [ProductCurve.payout] at hzero
      simp only [splSwapPort, hceil]
      rw [if_pos (by omega)]
    · right
      have hpayout := hzero
      rw [ProductCurve.payout] at hpayout
      refine ⟨⟨(divisor - source).toNat,
        ((destination : Int) - ProductCurve.keep source destination amount).toNat⟩, ?_,
        ⟨hnew, hnew_le, hzero⟩, ?_, ?_⟩
      · simp only [splSwapPort, hceil]
        rw [if_neg (by omega)]
      · simp only
        omega
      · rw [ProductCurve.payout]
        simp only
        omega
  · left
    refine ⟨?_, fun hpays => hnew_le hpays.new_le⟩
    have hproduct : (0 : Int) ≤ source * destination := by positivity
    have hsmall : (source : Int) * destination < source + amount := by exact_mod_cast not_le.mp hnew_le
    simp only [splSwapPort, Client.ceilDiv_error hproduct hsmall]

theorem SplSwapPorted.pays {libraries : CurveLibraries} (h : SplSwapPorted libraries) :
    SplSwapPays libraries := by
  intro amount source destination hamount hsource hdestination
  rw [h amount source destination hamount hsource hdestination]
  rcases splSwapPort_eq amount source destination with ⟨hnone, hnot⟩ | ⟨result, hsome, hpays, -, hpaid⟩
  · rw [hnone, if_pos]
    · rfl
    by_contra hpays
    apply hnot
    refine ⟨by omega, by omega, by omega⟩
  · have := hpays.new_ne
    have := hpays.new_le
    have := hpays.payout_ne
    rw [hsome, if_neg (by omega), Option.map_some, hpaid]

theorem SplSwapPorted.takes {libraries : CurveLibraries} (h : SplSwapPorted libraries) :
    SplSwapTakes libraries := by
  intro amount source destination result hamount hsource hdestination hswap
  rw [h amount source destination hamount hsource hdestination] at hswap
  rcases splSwapPort_eq amount source destination with ⟨hnone, -⟩ | ⟨result', hsome, -, htakes, -⟩
  · rw [hnone] at hswap
    cases hswap
  · rw [hsome, Option.some.injEq] at hswap
    subst hswap
    exact htakes

/-! ### The quotes -/

/-- An enabled and activated constant product pool of two tokens, at a time when neither vault has yet to
report. -/
structure QuoteData.Open (quoteData : QuoteData) : Prop where
  curveType : quoteData.pool.curveType = .constantProduct
  enabled : quoteData.pool.enabled = true
  activated : Activated quoteData.pool quoteData.clock
  mints_ne : quoteData.pool.tokenAMint ≠ quoteData.pool.tokenBMint
  tradeFeeDenominator_ne : quoteData.pool.fees.tradeFeeDenominator ≠ 0
  protocolTradeFeeDenominator_ne : quoteData.pool.fees.protocolTradeFeeDenominator ≠ 0
  poolVaultALp_le : quoteData.poolVaultALpToken.amount ≤ quoteData.vaultALpMint.supply
  poolVaultBLp_le : quoteData.poolVaultBLpToken.amount ≤ quoteData.vaultBLpMint.supply
  reportedA : (quoteData.vaultA.lockedProfitTracker.lastReport.toNat : Int) ≤
    quoteData.clock.unixTimestamp.toInt
  reportedB : (quoteData.vaultB.lockedProfitTracker.lastReport.toNat : Int) ≤
    quoteData.clock.unixTimestamp.toInt

/-- What backs the two vaults at the time of the quote. -/
def QuoteData.backing (quoteData : QuoteData) : Client.Backing where
  a := (decodeVault quoteData.vaultA).withdrawable quoteData.clock.unixTimestamp.toInt
  b := (decodeVault quoteData.vaultB).withdrawable quoteData.clock.unixTimestamp.toInt

/-- The numbers that the Rust quote computes in words are words: the unlocked amounts, and the source
vault's total and supply after the deposit. -/
structure InWords (params : Client.SwapQuoteParam) (backing : Client.Backing)
    (direction : TradeDirection) (inAmount : Int) : Prop where
  unlockedA : 0 ≤ backing.a
  unlockedB : 0 ≤ backing.b
  total : (params.sidesOf backing direction).swapSourceVault.totalAmount + inAmount < 2 ^ 64
  supply : (params.sidesOf backing direction).swapSourceVaultLpSupply +
    (inAmount * (params.sidesOf backing direction).swapSourceVaultLpSupply).tdiv
      (backing.source direction) < 2 ^ 64

variable {libraries : CurveLibraries} {sdk : Client.VaultSdk} {decoders : Client.StakeDecoders}
  {quoteData : QuoteData} {whitelistedVault : Pubkey} {currentTime currentSlot : Js.SafeInteger}
  {depegAccounts : Client.DepegAccounts} {inTokenMint : Pubkey} {inAmount : UInt64}

theorem QuoteData.Open.time_nonneg (h : quoteData.Open) : 0 ≤ quoteData.clock.unixTimestamp.toInt :=
  (Nat.cast_nonneg _).trans h.reportedA

theorem QuoteData.Open.time_eq (h : quoteData.Open) :
    ((quoteData.clock.unixTimestamp.toUInt64.toNat : Nat) : Int) = quoteData.clock.unixTimestamp.toInt := by
  have hle : 0 ≤ quoteData.clock.unixTimestamp := by
    rw [Int64.le_iff_toInt_le]
    exact h.time_nonneg
  rw [Int64.toNat_toUInt64_of_le hle]
  exact Int.toNat_of_nonneg h.time_nonneg

/-- Where the client finds an unlocked amount, the accounts are backed by a vault with that total. -/
theorem exists_backs_of_nonneg (info : VaultInfo) {time : Int64} (hle : info.lpAmount ≤ info.lpSupply)
    (hreported : (info.vault.lockedProfitTracker.lastReport.toNat : Int) ≤ time.toInt)
    (htime : ((time.toUInt64.toNat : Nat) : Int) = time.toInt)
    (h : 0 ≤ (decodeVault info.vault).withdrawable time.toInt) :
    ∃ v, Backs info time.toUInt64 v ∧ ((v.total : Nat) : Int) =
      (decodeVault info.vault).withdrawable time.toInt := by
  have hreported' : info.vault.lockedProfitTracker.lastReport ≤ time.toUInt64 := by
    rw [UInt64.le_iff_toNat_le]
    omega
  rw [← htime] at h ⊢
  obtain ⟨unlocked, hunlocked⟩ := Int.eq_ofNat_of_zero_le h
  have hlt : unlocked < 2 ^ 64 := by
    have htotal := info.vault.totalAmount.toNat_lt
    have hlocked := decodeVault_lockedProfit (UInt64.le_iff_toNat_le.mp hreported')
    simp only [Client.VaultState.withdrawable, decodeVault, hlocked] at hunlocked
    omega
  have hword : (UInt64.ofNat unlocked).toNat = unlocked := UInt64.toNat_ofNat_of_lt' hlt
  refine ⟨⟨unlocked, info.lpSupply.toNat, info.lpAmount.toNat, hle⟩,
    ⟨UInt64.ofNat unlocked, ?_, hword, rfl, rfl⟩, hunlocked.symm⟩
  rw [getUnlockedAmount_eq_some_iff hreported', hword]
  exact hunlocked

/-- The words that the Rust quote leaves, over the vaults. -/
theorem inWords_iff {vA vB : ShareVault}
    (hholds : (quoteData.decode currentTime currentSlot depegAccounts).Holds quoteData.backing vA vB)
    (hA : 0 ≤ quoteData.backing.a) (hB : 0 ≤ quoteData.backing.b) (direction : TradeDirection)
    (inAmount : UInt64) :
    InWords (quoteData.decode currentTime currentSlot depegAccounts) quoteData.backing
        direction inAmount.toNat ↔
      quoteData.FitsWords direction inAmount (direction.source vA vB) := by
  obtain ⟨-, -, -, hsupply, -, htotal, -⟩ := hholds.sides direction
  have hvault : ((quoteData.decode currentTime currentSlot depegAccounts).sidesOf quoteData.backing
      direction).swapSourceVault.totalAmount =
        ((direction.source quoteData.vaultA quoteData.vaultB).totalAmount.toNat : Int) := by
    cases direction <;> rfl
  constructor
  · rintro ⟨_, _, htotal_lt, hsupply_lt⟩
    rw [hvault] at htotal_lt
    rw [hsupply, htotal, Client.sharesFor_tdiv] at hsupply_lt
    exact ⟨by exact_mod_cast htotal_lt, by exact_mod_cast hsupply_lt⟩
  · rintro ⟨htotal_lt, hsupply_lt⟩
    refine ⟨hA, hB, ?_, ?_⟩
    · rw [hvault]
      exact_mod_cast htotal_lt
    · rw [hsupply, htotal, Client.sharesFor_tdiv]
      exact_mod_cast hsupply_lt

/-- A Rust quote that returns has found both unlocked amounts. -/
theorem QuoteData.Open.unlocked_nonneg (h : quoteData.Open) (accounts : StakeAccounts)
    {result : QuoteResult}
    (hquote : computeQuote accounts libraries inTokenMint inAmount quoteData = .ok result) :
    0 ≤ quoteData.backing.a ∧ 0 ≤ quoteData.backing.b := by
  simp only [computeQuote, Outcome.bind_eq_ok, computeQuoteSteps_eq_ok] at hquote
  obtain ⟨_, ⟨-, -, -, -, time, htime, a, b, htokens, -⟩, -⟩ := hquote
  obtain ⟨-, rfl⟩ := timeTryIntoU64_eq_ok.mp htime
  obtain ⟨ha, hb⟩ := QuoteData.poolTokens_eq_ok.mp htokens
  obtain ⟨unlockedA, hunlockedA, -⟩ := Vault.getAmountByShare_eq_some.mp ha
  obtain ⟨unlockedB, hunlockedB, -⟩ := Vault.getAmountByShare_eq_some.mp hb
  have hreportedA := (Vault.getUnlockedAmount_eq_some.mp hunlockedA).1
  have hreportedB := (Vault.getUnlockedAmount_eq_some.mp hunlockedB).1
  rw [getUnlockedAmount_eq_some_iff hreportedA, h.time_eq] at hunlockedA
  rw [getUnlockedAmount_eq_some_iff hreportedB, h.time_eq] at hunlockedB
  rw [QuoteData.backing, hunlockedA, hunlockedB]
  exact ⟨Nat.cast_nonneg _, Nat.cast_nonneg _⟩

/-- The client's guards let the open pool through. -/
theorem QuoteData.Open.makeSwapCurve (h : quoteData.Open)
    (htime : currentTime.val = quoteData.clock.unixTimestamp.toInt)
    (hslot : currentSlot.val = quoteData.clock.slot.toNat)
    (hmint : inTokenMint = quoteData.pool.tokenAMint ∨ inTokenMint = quoteData.pool.tokenBMint) :
    Client.makeSwapCurve inTokenMint (quoteData.decode currentTime currentSlot depegAccounts) none
      (decodePool quoteData.pool whitelistedVault) = .ok .constantProduct := by
  have hcurve : (decodePool quoteData.pool whitelistedVault).curveType = .constantProduct := by
    rw [decodePool, h.curveType]
    rfl
  rw [Client.makeSwapCurve_constantProduct hcurve]
  refine ⟨hmint, h.enabled, Or.inr ?_, rfl⟩
  obtain ⟨activationType, htype, hpoint⟩ := h.activated
  rw [UInt64.le_iff_toNat_le] at hpoint
  rw [ActivationType.tryFrom] at htype
  by_cases hslotType : quoteData.pool.bootstrapping.activationType = 0
  · rw [if_pos hslotType, Outcome.ok.injEq] at htype
    subst htype
    have hdecoded : (decodePool quoteData.pool whitelistedVault).bootstrapping.activationType ≠ 1 := by
      simp [decodePool, hslotType]
    rw [Client.SwapQuoteParam.currentPoint, if_neg hdecoded]
    exact (Nat.cast_le.mpr hpoint).trans_eq hslot.symm
  · rw [if_neg hslotType] at htype
    by_cases htimeType : quoteData.pool.bootstrapping.activationType = 1
    · rw [if_pos htimeType, Outcome.ok.injEq] at htype
      subst htype
      have hdecoded : (decodePool quoteData.pool whitelistedVault).bootstrapping.activationType = 1 := by
        simp [decodePool, htimeType]
      rw [Client.SwapQuoteParam.currentPoint, if_pos hdecoded]
      exact (Nat.cast_le.mpr hpoint).trans_eq (h.time_eq.trans htime.symm)
    · rw [if_neg htimeType] at htype
      cases htype

/-- The two quotes of one pool. When no protocol fee is cut and no fee is rounded up, the Rust quote pays
an amount exactly when the client's quote returns it, the numbers stay in words, and the deposit covers
the fee. -/
theorem computeQuote_agrees (hsdk : sdk.Lawful) (hspl : SplSwapPorted libraries)
    (accounts : StakeAccounts) (hopen : quoteData.Open)
    (htime : currentTime.val = quoteData.clock.unixTimestamp.toInt)
    (hslot : currentSlot.val = quoteData.clock.slot.toNat)
    (hcut : NoProtocolCut quoteData.pool.fees inAmount)
    (hround : NotRoundedUp quoteData.pool.fees inAmount) (amount : Int) :
    (∃ result, computeQuote accounts libraries inTokenMint inAmount quoteData = .ok result ∧
        (result.outAmount.toNat : Int) = amount) ↔
      (∃ result, (Client.calculateSwapQuote sdk decoders inTokenMint inAmount.toNat
          (quoteData.decode currentTime currentSlot depegAccounts) none
          (decodePool quoteData.pool whitelistedVault)).1 = .ok result ∧ result.amountOut = amount) ∧
        InWords (quoteData.decode currentTime currentSlot depegAccounts) quoteData.backing
          (quoteData.directionOf inTokenMint) inAmount.toNat ∧
        0 ≤ (quoteData.decode currentTime currentSlot depegAccounts).netSourceAmount quoteData.backing
          (decodeFees quoteData.pool.fees) (quoteData.directionOf inTokenMint) inAmount.toNat := by
  have hdirection : Client.tradeDirectionOf inTokenMint (decodePool quoteData.pool whitelistedVault) =
      quoteData.directionOf inTokenMint := rfl
  have hbacking : quoteData.backing.Of sdk (quoteData.decode currentTime currentSlot depegAccounts) := by
    constructor
    · rw [QuoteData.backing, ← htime]
      exact hsdk.withdrawable _ _ (hopen.reportedA.trans_eq htime.symm)
    · rw [QuoteData.backing, ← htime]
      exact hsdk.withdrawable _ _ (hopen.reportedB.trans_eq htime.symm)
  have hdecoded : (decodePool quoteData.pool whitelistedVault).curveType = .constantProduct := by
    rw [decodePool, hopen.curveType]
    rfl
  by_cases hmint : inTokenMint = quoteData.pool.tokenAMint ∨ inTokenMint = quoteData.pool.tokenBMint
  · by_cases hunlocked : 0 ≤ quoteData.backing.a ∧ 0 ≤ quoteData.backing.b
    · obtain ⟨vA, hA, htotalA⟩ := exists_backs_of_nonneg quoteData.vaultInfoA hopen.poolVaultALp_le
        hopen.reportedA hopen.time_eq hunlocked.1
      obtain ⟨vB, hB, htotalB⟩ := exists_backs_of_nonneg quoteData.vaultInfoB hopen.poolVaultBLp_le
        hopen.reportedB hopen.time_eq hunlocked.2
      have hholds : (quoteData.decode currentTime currentSlot depegAccounts).Holds quoteData.backing vA vB := by
        obtain ⟨-, -, -, hsupplyA, hheldA⟩ := hA
        obtain ⟨-, -, -, hsupplyB, hheldB⟩ := hB
        exact ⟨htotalA.symm, congrArg _ hsupplyA, congrArg _ hheldA, htotalB.symm, congrArg _ hsupplyB,
          congrArg _ hheldB⟩
      have htime' : timeTryIntoU64 quoteData.clock.unixTimestamp =
          .ok quoteData.clock.unixTimestamp.toUInt64 :=
        timeTryIntoU64_eq_ok.mpr ⟨hopen.time_nonneg, rfl⟩
      have hrust := computeQuote_eq_ok_iff accounts hspl.pays hspl.takes hopen.curveType
        hopen.activated hopen.enabled hmint htime' hA hB
        (uncut_of_noProtocolCut hopen.tradeFeeDenominator_ne hcut hround) rfl
      have hclient := Client.calculateSwapQuote_eq_ok_iff hsdk hbacking hholds hdecoded
        (hopen.makeSwapCurve htime hslot hmint) hopen.mints_ne
        (decodeFees_uncut hopen.tradeFeeDenominator_ne hopen.protocolTradeFeeDenominator_ne hcut)
        hdirection decoders amount
      have hwords := inWords_iff hholds hunlocked.1 hunlocked.2 (quoteData.directionOf inTokenMint) inAmount
      have hreserve : (quoteData.decode currentTime currentSlot depegAccounts).destinationReserve
          (quoteData.directionOf inTokenMint) =
          ((quoteData.directionOf inTokenMint).destination quoteData.vaultAToken
            quoteData.vaultBToken).amount.toNat := by
        cases quoteData.directionOf inTokenMint <;> rfl
      rw [hreserve] at hclient
      rw [hwords, and_left_comm]
      constructor
      · rintro ⟨result, hresult, hamount⟩
        obtain ⟨hswaps, hlt, hfits⟩ := (hrust _).mp ⟨result, hresult, rfl⟩
        have hlt' := Int.ofNat_lt.mpr (UInt64.lt_iff_toNat_lt.mp hlt)
        exact ⟨hfits, hclient.mpr ⟨_, hamount, hswaps, hlt'⟩⟩
      · rintro ⟨hfits, hquote⟩
        obtain ⟨out, hamount, hswaps, hlt⟩ := hclient.mp hquote
        have hlt' := Int.ofNat_lt.mp hlt
        have hword : (UInt64.ofNat out).toNat = out :=
          UInt64.toNat_ofNat_of_lt' (hlt'.trans (UInt64.toNat_lt _))
        obtain ⟨result, hresult, hout⟩ := (hrust (UInt64.ofNat out)).mpr
          ⟨by rwa [hword], by rwa [UInt64.lt_iff_toNat_lt, hword], hfits⟩
        refine ⟨result, hresult, ?_⟩
        rw [hout, hword, hamount]
    · -- Without an unlocked amount the Rust quote stops at the pool's amounts.
      constructor
      · rintro ⟨result, hresult, _⟩
        exact absurd (hopen.unlocked_nonneg accounts hresult) hunlocked
      · rintro ⟨_, hwords, _⟩
        exact absurd ⟨hwords.unlockedA, hwords.unlockedB⟩ hunlocked
  · constructor
    · rintro ⟨result, hresult, _⟩
      simp only [computeQuote, Outcome.bind_eq_ok, computeQuoteSteps_eq_ok] at hresult
      obtain ⟨_, ⟨_, _, _, hmint', _⟩, _⟩ := hresult
      exact absurd hmint' hmint
    · rintro ⟨⟨result, hresult, _⟩, _⟩
      obtain ⟨hmake, _⟩ := (Client.calculateSwapQuote_constantProduct_eq_ok hdecoded).mp hresult
      exact absurd ((Client.makeSwapCurve_constantProduct hdecoded).mp hmake).1 hmint

/-! ### Two pools -/

/-- A curve library that computes what the client's port does. -/
def portedLibraries : CurveLibraries where
  splSwap := splSwapPort
  saberSwapTo2 _ _ _ _ _ := none

def uncutFees : PoolFees := ⟨250, 100000, 0, 100000⟩

theorem sampleQuoteData_open : (sampleQuoteData uncutFees 1230457 1048576).Open where
  curveType := rfl
  enabled := rfl
  activated := ⟨.slot, by decide, by decide⟩
  mints_ne := by decide
  tradeFeeDenominator_ne := by decide
  protocolTradeFeeDenominator_ne := by decide
  poolVaultALp_le := by decide
  poolVaultBLp_le := by decide
  reportedA := by decide
  reportedB := by decide

theorem computeQuote_agrees_sample :
    (∃ result, computeQuote sampleAccounts portedLibraries (Pubkey.replicate 1) 10000
        (sampleQuoteData uncutFees 1230457 1048576) = .ok result ∧ (result.outAmount.toNat : Int) = 6686) ↔
      (∃ result, (Client.calculateSwapQuote Client.sampleSdk Client.sampleDecoders (Pubkey.replicate 1)
          (10000 : UInt64).toNat ((sampleQuoteData uncutFees 1230457 1048576).decode ⟨1000, by decide⟩
            ⟨10, by decide⟩ (fun _ => none)) none
          (decodePool (samplePool uncutFees .constantProduct) (Pubkey.replicate 0))).1 = .ok result ∧
          result.amountOut = 6686) ∧
        InWords ((sampleQuoteData uncutFees 1230457 1048576).decode ⟨1000, by decide⟩ ⟨10, by decide⟩
            (fun _ => none)) (sampleQuoteData uncutFees 1230457 1048576).backing
          .aToB (10000 : UInt64).toNat ∧
        0 ≤ ((sampleQuoteData uncutFees 1230457 1048576).decode ⟨1000, by decide⟩ ⟨10, by decide⟩
            (fun _ => none)).netSourceAmount (sampleQuoteData uncutFees 1230457 1048576).backing
          (decodeFees uncutFees) .aToB (10000 : UInt64).toNat :=
  computeQuote_agrees Client.sampleSdk_lawful (fun _ _ _ _ _ _ => rfl) sampleAccounts
    sampleQuoteData_open (by decide) (by decide) (Or.inr (Or.inl rfl)) (Or.inr (Or.inr (by decide))) 6686

/-- A vault that is one deposit short of the largest word. -/
def fullQuoteData : QuoteData :=
  { sampleQuoteData uncutFees 18446744073709550000 1000000 with
    vaultALpMint := ⟨18446744073709550000⟩ }

/-- With a protocol cut the two amounts differ, and where the deposit overflows the source vault only the
client quotes. -/
theorem computeQuote_differs :
    (computeQuote sampleAccounts portedLibraries (Pubkey.replicate 1) 10000
        (sampleQuoteData sampleFees 1000000 1000000) = .ok { outAmount := 7820, fee := 25 } ∧
      (Client.calculateSwapQuote Client.sampleSdk Client.sampleDecoders (Pubkey.replicate 1) 10000
        ((sampleQuoteData sampleFees 1000000 1000000).decode ⟨1000, by decide⟩ ⟨10, by decide⟩
          (fun _ => none)) none
        (decodePool (samplePool sampleFees .constantProduct) (Pubkey.replicate 0))).1.toOption.map
          Client.SwapResult.amountOut = some 7823) ∧
    (computeQuote sampleAccounts portedLibraries (Pubkey.replicate 1) 10000 fullQuoteData =
        .err "Fail to add in_vault.total_amount" ∧
      (Client.calculateSwapQuote Client.sampleSdk Client.sampleDecoders (Pubkey.replicate 1) 10000
        (fullQuoteData.decode ⟨1000, by decide⟩ ⟨10, by decide⟩ (fun _ => none)) none
        (decodePool (samplePool uncutFees .constantProduct) (Pubkey.replicate 0))).1.toOption.map
          Client.SwapResult.amountOut = some 7823) := by
  decide +kernel

end Quote

end DynamicAmm

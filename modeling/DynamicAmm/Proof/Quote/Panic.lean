import DynamicAmm.Proof.Quote.Settled

/-!
# When the Rust quote panics

Every step of the quote that can fail is checked, except the slicing of stake account data. Lido's price
is read from the bytes 73 to 89 and Marinade's account from byte 8 on, both without looking at the length
first, so a quote that has to refresh the price from a shorter account aborts its caller. Nothing else
in the quote does.
-/

namespace DynamicAmm.Quote

open Rust Program
open Outcome (context ensure)

variable (accounts : StakeAccounts) (libraries : CurveLibraries)

/-! ### Reading a price -/

theorem slice_eq_panic {bytes : Bytes} {start stop : Nat} :
    slice bytes start stop = .panic ↔ ¬ (start ≤ stop ∧ stop ≤ bytes.length) := by
  unfold slice
  split
  · rename_i hbounds
    exact iff_of_false (fun h => by cases h) (not_not.mpr hbounds)
  · rename_i hbounds
    exact iff_of_true rfl hbounds

theorem Solido.getVirtualPrice_eq_panic {bytes : Bytes} :
    Solido.getVirtualPrice bytes = .panic ↔ bytes.length < 89 := by
  simp only [Solido.getVirtualPrice, Outcome.bind_eq_panic, slice_eq_panic, Outcome.pure_ne_panic, and_false,
    exists_false, or_false]
  constructor
  · intro h
    rcases h with h | ⟨_, _, h⟩
    · omega
    · omega
  · intro hshort
    by_cases h : bytes.length < 81
    · exact Or.inl (by omega)
    · right
      refine ⟨(bytes.drop 73).take (81 - 73), ?_, by omega⟩
      rw [slice, if_pos (by omega)]

theorem Marinade.getVirtualPrice_eq_panic {bytes : Bytes} :
    Marinade.getVirtualPrice accounts bytes = .panic ↔ bytes.length < 8 := by
  simp only [Marinade.getVirtualPrice, Outcome.bind_eq_panic, slice_eq_panic, Outcome.pure_ne_panic,
    and_false, exists_false, or_false]
  omega

/-- The stake account of a Lido or Marinade pool, too short for what is read of it. -/
def ShortStakeData (depegType : DepegType) (stakeData : StakeData) : Prop :=
  (depegType = .lido ∧ ∃ bytes, stakeData Solido.stakeId = some bytes ∧ bytes.length < 89) ∨
    (depegType = .marinade ∧ ∃ bytes, stakeData Marinade.stakeId = some bytes ∧ bytes.length < 8)

theorem getStakePoolVirtualPrice_eq_panic {depegType : DepegType} {stakePool : Pubkey}
    {stakeData : StakeData} :
    getStakePoolVirtualPrice accounts depegType stakePool stakeData = .panic ↔
      ShortStakeData depegType stakeData := by
  cases depegType with
  | lido =>
      simp only [getStakePoolVirtualPrice, ShortStakeData, true_and, reduceCtorEq, false_and, or_false]
      cases hdata : stakeData Solido.stakeId with
      | none => simp
      | some bytes => simp [Solido.getVirtualPrice_eq_panic]
  | marinade =>
      simp only [getStakePoolVirtualPrice, ShortStakeData, true_and, reduceCtorEq, false_and, false_or]
      cases hdata : stakeData Marinade.stakeId with
      | none => simp
      | some bytes => simp [Marinade.getVirtualPrice_eq_panic]
  | splStake =>
      simp only [getStakePoolVirtualPrice, ShortStakeData, reduceCtorEq, false_and, or_false, iff_false]
      cases stakeData stakePool with
      | none => exact fun h => by cases h
      | some bytes => exact fun h => by cases h
  | none =>
      simp only [getStakePoolVirtualPrice, ShortStakeData, reduceCtorEq, false_and, or_false]

/-- The cached price of a pool is older than ten minutes. -/
def Expired (depeg : Depeg) (clock : Clock) : Prop :=
  depeg.baseCacheUpdated.toNat + baseCacheExpires < clock.unixTimestamp.toUInt64.toNat

/-- The pool's price has to be read, from an account too short for it. -/
def RefreshesFromShortData (pool : Pool) (clock : Clock) (stakeData : StakeData) : Prop :=
  ∃ amp tokenMultiplier depeg lastAmpUpdatedTimestamp,
    pool.curveType = .stable amp tokenMultiplier depeg lastAmpUpdatedTimestamp ∧
      Expired depeg clock ∧ ShortStakeData depeg.depegType stakeData

theorem updateBaseVirtualPrice_eq_panic {pool : Pool} {clock : Clock} {stakeData : StakeData} :
    (updateBaseVirtualPrice accounts pool clock stakeData).1 = .panic ↔
      RefreshesFromShortData pool clock stakeData := by
  cases hcurve : pool.curveType with
  | constantProduct =>
      rw [updateBaseVirtualPrice_constantProduct accounts hcurve]
      apply iff_of_false
      · intro h
        cases h
      · rintro ⟨_, _, _, _, h, _⟩
        rw [hcurve] at h
        cases h
  | stable amp tokenMultiplier depeg lastAmpUpdatedTimestamp =>
      have hreads : RefreshesFromShortData pool clock stakeData ↔
          Expired depeg clock ∧ ShortStakeData depeg.depegType stakeData := by
        simp only [RefreshesFromShortData, hcurve, CurveType.stable.injEq]
        constructor
        · rintro ⟨_, _, _, _, ⟨_, _, hdepeg, _⟩, h⟩
          rw [hdepeg]
          exact h
        · intro h
          exact ⟨_, _, _, _, ⟨rfl, rfl, rfl, rfl⟩, h⟩
      rw [hreads, ← @getStakePoolVirtualPrice_eq_panic accounts _ pool.stake]
      simp only [updateBaseVirtualPrice, hcurve]
      split
      · rename_i hnone
        rw [hnone]
        simp [getStakePoolVirtualPrice]
      · cases hexpiry : checkedAdd depeg.baseCacheUpdated (UInt64.ofNat baseCacheExpires) with
        | none =>
            -- An expiry time beyond a word is later than every clock.
            have hover : 2 ^ 64 ≤ depeg.baseCacheUpdated.toNat + baseCacheExpires := by
              by_contra hfit
              have hfit : _ + (UInt64.ofNat baseCacheExpires).toNat < _ := not_le.mp hfit
              rw [checkedAdd, if_pos hfit] at hexpiry
              cases hexpiry
            have hnot : ¬ Expired depeg clock := by
              have := clock.unixTimestamp.toUInt64.toNat_lt
              rw [Expired]
              omega
            simp [hnot]
        | some expiry =>
            have hvalue : expiry.toNat = depeg.baseCacheUpdated.toNat + baseCacheExpires :=
              checkedAdd_eq_some.mp hexpiry
            have hexpired : clock.unixTimestamp.toUInt64 > expiry ↔ Expired depeg clock := by
              rw [gt_iff_lt, UInt64.lt_iff_toNat_lt, hvalue, Expired]
            by_cases hold : Expired depeg clock
            · simp only [if_pos (hexpired.mpr hold)]
              cases getStakePoolVirtualPrice accounts depeg.depegType pool.stake stakeData with
              | ok price => cases price <;> simp
              | err message => simp
              | panic => simp [hold]
            · simp [if_neg (fun h => hold (hexpired.mp h)), hold]

/-! ### The rest of the quote -/

theorem tryIntoU64_ne_panic {amount : Nat} : tryIntoU64 amount ≠ .panic := Outcome.context_ne_panic

theorem timeTryIntoU64_ne_panic {time : Int64} : timeTryIntoU64 time ≠ .panic := by
  unfold timeTryIntoU64
  split
  · intro h
    cases h
  · intro h
    cases h

theorem tryFrom_ne_panic {s : UInt8} : ActivationType.tryFrom s ≠ .panic := by
  unfold ActivationType.tryFrom
  split
  · intro h
    cases h
  · split
    · intro h
      cases h
    · intro h
      cases h

theorem settleTrade_ne_panic {fees : PoolFees} {curveType : CurveType} {time inAmount : UInt64}
    {direction : TradeDirection} {trade : TradeAccounts} :
    settleTrade libraries fees curveType time inAmount direction trade ≠ .panic := by
  simp only [settleTrade, ne_eq, Outcome.bind_eq_panic, Outcome.context_ne_panic, Outcome.ensure_ne_panic,
    Outcome.pure_ne_panic, tryIntoU64_ne_panic, and_false, exists_false, or_false, not_false_eq_true]

theorem computeQuote_panics_iff (accounts : StakeAccounts) (libraries : CurveLibraries) {inTokenMint : Pubkey}
    {inAmount : UInt64} {quoteData : QuoteData} :
    computeQuote accounts libraries inTokenMint inAmount quoteData = .panic ↔
      Activated quoteData.pool quoteData.clock ∧ quoteData.pool.enabled = true ∧
        RefreshesFromShortData quoteData.pool quoteData.clock quoteData.stakeData := by
  simp only [computeQuote, computeQuoteSteps, Outcome.bind_eq_panic, Outcome.context_ne_panic,
    Outcome.ensure_ne_panic, Outcome.pure_ne_panic, settleTrade_ne_panic, timeTryIntoU64_ne_panic,
    tryFrom_ne_panic, updateBaseVirtualPrice_eq_panic, Outcome.ensure_eq_ok, exists_and_left, and_false,
    exists_false, or_false, false_or, exists_const, decide_eq_true_eq]
  constructor
  · rintro ⟨type, htype, henabled, hpoint, hshort⟩
    exact ⟨⟨type, htype, hpoint⟩, henabled, hshort⟩
  · rintro ⟨⟨type, htype, hpoint⟩, henabled, hshort⟩
    exact ⟨type, htype, henabled, hpoint, hshort⟩

/-- A quote returns, with an amount or with an error, unless it has to read a price from an account that is
too short for it. -/
theorem computeQuote_returns_iff (inTokenMint : Pubkey) (inAmount : UInt64) (quoteData : QuoteData) :
    computeQuote accounts libraries inTokenMint inAmount quoteData ≠ .panic ↔
      ¬ (Activated quoteData.pool quoteData.clock ∧ quoteData.pool.enabled = true ∧
        RefreshesFromShortData quoteData.pool quoteData.clock quoteData.stakeData) :=
  (computeQuote_panics_iff accounts libraries).not

def emptyStakeData : QuoteData where
  pool := {
    tokenAMint := Pubkey.replicate 1
    tokenBMint := Pubkey.replicate 2
    enabled := true
    fees := ⟨250, 100000, 20000, 100000⟩
    stake := Pubkey.replicate 0
    bootstrapping := { activationPoint := 0, activationType := 0 }
    curveType := .stable 100 ⟨1, 1⟩ ⟨0, 0, .lido⟩ 0 }
  vaultA := ⟨1000000, ⟨0, 0, 0⟩⟩
  vaultB := ⟨1000000, ⟨0, 0, 0⟩⟩
  poolVaultALpToken := ⟨500000⟩
  poolVaultBLpToken := ⟨400000⟩
  vaultALpMint := ⟨1000000⟩
  vaultBLpMint := ⟨1000000⟩
  vaultAToken := ⟨1000000⟩
  vaultBToken := ⟨1000000⟩
  clock := ⟨10, 1000⟩
  stakeData := fun address => if address = Solido.stakeId then some [] else none

theorem computeQuote_panics :
    computeQuote ⟨fun _ => none, 0, fun _ => none⟩ ⟨fun _ _ _ => none, fun _ _ _ _ _ => none⟩
      (Pubkey.replicate 1) 10000 emptyStakeData = .panic := by
  decide

end DynamicAmm.Quote

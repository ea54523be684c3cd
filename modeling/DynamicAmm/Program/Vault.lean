import DynamicAmm.Rust.Checked
import DynamicAmm.Base.ShareVault

/-!
# The dynamic vault account

The part of the vault state that conversions between shares and tokens read. Profit reported by a
strategy is locked and released linearly, so only the unlocked part of the total backs the shares.
-/

namespace DynamicAmm.Program

open Rust

def lockedProfitDegradationDenominator : Nat := 1000000000000

structure LockedProfitTracker where
  lastUpdatedLockedProfit : UInt64
  lastReport : UInt64
  lockedProfitDegradation : UInt64
  deriving DecidableEq, Repr

def LockedProfitTracker.calculateLockedProfit (tracker : LockedProfitTracker) (currentTime : UInt64) :
    Option UInt64 := do
  let duration ← checkedSub currentTime tracker.lastReport
  let lockedFundRatio ← checkedMul128 duration.toNat tracker.lockedProfitDegradation.toNat
  if lockedFundRatio > lockedProfitDegradationDenominator then
    return 0
  let lockedProfit ← checkedMul128 tracker.lastUpdatedLockedProfit.toNat
    (lockedProfitDegradationDenominator - lockedFundRatio)
  let lockedProfit ← checkedDiv128 lockedProfit lockedProfitDegradationDenominator
  tryU64 lockedProfit

structure Vault where
  totalAmount : UInt64
  lockedProfitTracker : LockedProfitTracker
  deriving DecidableEq, Repr

namespace Vault

def getUnlockedAmount (vault : Vault) (currentTime : UInt64) : Option UInt64 := do
  let lockedProfit ← vault.lockedProfitTracker.calculateLockedProfit currentTime
  checkedSub vault.totalAmount lockedProfit

def getAmountByShare (vault : Vault) (currentTime share totalSupply : UInt64) : Option UInt64 := do
  let totalAmount ← vault.getUnlockedAmount currentTime
  let product ← checkedMul128 share.toNat totalAmount.toNat
  let quotient ← checkedDiv128 product totalSupply.toNat
  tryU64 quotient

def getUnmintAmount (vault : Vault) (currentTime outToken totalSupply : UInt64) : Option UInt64 := do
  let totalAmount ← vault.getUnlockedAmount currentTime
  let product ← checkedMul128 outToken.toNat totalSupply.toNat
  let quotient ← checkedDiv128 product totalAmount.toNat
  tryU64 quotient

end Vault

/-! ### What the conversions compute -/

/-- The locked profit at a time not before the last report, over the natural numbers. -/
def lockedProfitAt (profit lastReport degradation time : Nat) : Nat :=
  if (time - lastReport) * degradation > lockedProfitDegradationDenominator then 0
  else profit * (lockedProfitDegradationDenominator - (time - lastReport) * degradation)
    / lockedProfitDegradationDenominator

theorem lockedProfitAt_le (profit lastReport degradation time : Nat) :
    lockedProfitAt profit lastReport degradation time ≤ profit := by
  unfold lockedProfitAt
  split
  · exact Nat.zero_le _
  · apply Nat.div_le_of_le_mul
    rw [Nat.mul_comm lockedProfitDegradationDenominator]
    exact Nat.mul_le_mul_left _ (Nat.sub_le _ _)

def LockedProfitTracker.lockedProfit (tracker : LockedProfitTracker) (time : Nat) : Nat :=
  lockedProfitAt tracker.lastUpdatedLockedProfit.toNat tracker.lastReport.toNat
    tracker.lockedProfitDegradation.toNat time

/-- The locked profit is defined from the last report on, and no intermediate product overflows. -/
theorem LockedProfitTracker.calculateLockedProfit_eq_some {tracker : LockedProfitTracker}
    {time profit : UInt64} :
    tracker.calculateLockedProfit time = some profit ↔
      tracker.lastReport ≤ time ∧ profit.toNat = tracker.lockedProfit time.toNat := by
  have hbound := lockedProfitAt_le tracker.lastUpdatedLockedProfit.toNat tracker.lastReport.toNat
    tracker.lockedProfitDegradation.toNat time.toNat
  have hprofit := tracker.lastUpdatedLockedProfit.toNat_lt
  rw [UInt64.le_iff_toNat_le]
  simp only [calculateLockedProfit, Option.bind_eq_bind, Option.bind_eq_some_iff]
  constructor
  · rintro ⟨duration, hduration, ratio, hratio, hrest⟩
    rw [checkedSub_eq_some] at hduration
    rw [checkedMul128_eq_some] at hratio
    have hd : duration.toNat = time.toNat - tracker.lastReport.toNat := by omega
    obtain ⟨-, rfl⟩ := hratio
    refine ⟨by omega, ?_⟩
    rw [hd] at hrest
    unfold lockedProfit lockedProfitAt
    split at hrest
    · rename_i hgt
      rw [if_pos hgt]
      simp only [Option.pure_def, Option.some.injEq] at hrest
      subst hrest
      rfl
    · rename_i hgt
      rw [if_neg hgt]
      simp only [Option.bind_eq_some_iff, checkedMul128_eq_some,
        checkedDiv128_eq_some, tryU64_eq_some] at hrest
      obtain ⟨_, ⟨-, rfl⟩, _, ⟨-, rfl⟩, hval⟩ := hrest
      exact hval
  · rintro ⟨hle, hval⟩
    obtain ⟨duration, hduration⟩ : ∃ duration, checkedSub time tracker.lastReport = some duration := by
      simp [checkedSub, UInt64.le_iff_toNat_le, hle]
    have hd := checkedSub_eq_some.mp hduration
    refine ⟨duration, hduration, _, checkedMul128_eq_some.mpr ⟨toNat_mul_lt _ _, rfl⟩, ?_⟩
    have hd' : duration.toNat = time.toNat - tracker.lastReport.toNat := by omega
    unfold lockedProfit lockedProfitAt at hval
    rw [hd']
    split at hval
    · rename_i hgt
      rw [if_pos hgt]
      simp only [Option.pure_def, Option.some.injEq]
      exact UInt64.toNat_inj.mp (by rw [hval]; rfl)
    · rename_i hgt
      rw [if_neg hgt]
      simp only [Option.bind_eq_some_iff]
      refine ⟨_, checkedMul128_eq_some.mpr ⟨?_, rfl⟩, _, checkedDiv128_eq_some.mpr ⟨by decide, rfl⟩,
        tryU64_eq_some.mpr hval⟩
      calc
        _ ≤ tracker.lastUpdatedLockedProfit.toNat * lockedProfitDegradationDenominator :=
          Nat.mul_le_mul_left _ (Nat.sub_le _ _)
        _ < 2 ^ 64 * lockedProfitDegradationDenominator := Nat.mul_lt_mul_of_pos_right hprofit (by decide)
        _ < 2 ^ 128 := by decide

namespace Vault

theorem getUnlockedAmount_eq_some {vault : Vault} {time unlocked : UInt64} :
    vault.getUnlockedAmount time = some unlocked ↔
      vault.lockedProfitTracker.lastReport ≤ time ∧
        unlocked.toNat + vault.lockedProfitTracker.lockedProfit time.toNat = vault.totalAmount.toNat := by
  simp only [getUnlockedAmount, Option.bind_eq_bind, Option.bind_eq_some_iff,
    LockedProfitTracker.calculateLockedProfit_eq_some, checkedSub_eq_some]
  constructor
  · rintro ⟨profit, ⟨hle, hprofit⟩, hsub⟩
    exact ⟨hle, by omega⟩
  · rintro ⟨hle, hsub⟩
    have hlt : vault.lockedProfitTracker.lockedProfit time.toNat < 2 ^ 64 := by
      have := vault.totalAmount.toNat_lt
      omega
    refine ⟨UInt64.ofNat (vault.lockedProfitTracker.lockedProfit time.toNat), ⟨hle, ?_⟩, ?_⟩ <;>
      rw [UInt64.toNat_ofNat_of_lt' hlt]
    exact hsub

theorem getAmountByShare_eq_some {vault : Vault} {time share supply amount : UInt64} :
    vault.getAmountByShare time share supply = some amount ↔
      ∃ unlocked, vault.getUnlockedAmount time = some unlocked ∧ supply.toNat ≠ 0 ∧
        amount.toNat = share.toNat * unlocked.toNat / supply.toNat := by
  simp only [getAmountByShare, Option.bind_eq_bind, Option.bind_eq_some_iff, checkedMul128_eq_some,
    checkedDiv128_eq_some, tryU64_eq_some]
  constructor
  · rintro ⟨unlocked, hunlocked, _, ⟨-, rfl⟩, _, ⟨hne, rfl⟩, hval⟩
    exact ⟨unlocked, hunlocked, hne, hval⟩
  · rintro ⟨unlocked, hunlocked, hne, hval⟩
    exact ⟨unlocked, hunlocked, _, ⟨toNat_mul_lt _ _, rfl⟩, _, ⟨hne, rfl⟩, hval⟩

theorem getUnmintAmount_eq_some {vault : Vault} {time amount supply shares : UInt64} :
    vault.getUnmintAmount time amount supply = some shares ↔
      ∃ unlocked, vault.getUnlockedAmount time = some unlocked ∧ unlocked.toNat ≠ 0 ∧
        shares.toNat = amount.toNat * supply.toNat / unlocked.toNat := by
  simp only [getUnmintAmount, Option.bind_eq_bind, Option.bind_eq_some_iff, checkedMul128_eq_some,
    checkedDiv128_eq_some, tryU64_eq_some]
  constructor
  · rintro ⟨unlocked, hunlocked, _, ⟨-, rfl⟩, _, ⟨hne, rfl⟩, hval⟩
    exact ⟨unlocked, hunlocked, hne, hval⟩
  · rintro ⟨unlocked, hunlocked, hne, hval⟩
    exact ⟨unlocked, hunlocked, _, ⟨toNat_mul_lt _ _, rfl⟩, _, ⟨hne, rfl⟩, hval⟩

end Vault

end DynamicAmm.Program

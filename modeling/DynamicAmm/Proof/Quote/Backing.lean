import DynamicAmm.Base.ShareVault
import DynamicAmm.Proof.Quote.Settled

/-!
# The accounts as share vaults

A vault account, the supply of its LP mint and the pool's balance of that LP are together one
`ShareVault`, in which the pool is the holder. `Backs` is that correspondence at a fixed time. The
conversions of the program compute the conversions of the share vault, and moving tokens and LP the way a
deposit or a withdrawal does keeps the correspondence.
-/

namespace DynamicAmm.Quote

open Rust Program

def Backs (info : VaultInfo) (time : UInt64) (v : ShareVault) : Prop :=
  ∃ unlocked, info.vault.getUnlockedAmount time = some unlocked ∧ unlocked.toNat = v.total ∧
    info.lpSupply.toNat = v.supply ∧ info.lpAmount.toNat = v.held

def VaultInfo.deposit (info : VaultInfo) (amount lp : UInt64) : Option VaultInfo := do
  let totalAmount ← checkedAdd info.vault.totalAmount amount
  let lpSupply ← checkedAdd info.lpSupply lp
  let lpAmount ← checkedAdd info.lpAmount lp
  some { lpAmount, lpSupply, vault := { info.vault with totalAmount } }

def VaultInfo.withdraw (info : VaultInfo) (amount lp : UInt64) : Option VaultInfo := do
  let totalAmount ← checkedSub info.vault.totalAmount amount
  let lpSupply ← checkedSub info.lpSupply lp
  let lpAmount ← checkedSub info.lpAmount lp
  some { lpAmount, lpSupply, vault := { info.vault with totalAmount } }

theorem exists_backs {info : VaultInfo} {time share supply amount : UInt64}
    (h : info.vault.getAmountByShare time share supply = some amount) (hle : info.lpAmount ≤ info.lpSupply) :
    ∃ v, Backs info time v := by
  rw [Vault.getAmountByShare_eq_some] at h
  obtain ⟨unlocked, hunlocked, -⟩ := h
  exact ⟨⟨unlocked.toNat, info.lpSupply.toNat, info.lpAmount.toNat, hle⟩, unlocked, hunlocked, rfl, rfl, rfl⟩

variable {info : VaultInfo} {time : UInt64} {v : ShareVault}

theorem Backs.getAmountByShare_eq_some (h : Backs info time v) {amount : UInt64} :
    info.vault.getAmountByShare time info.lpAmount info.lpSupply = some amount ↔
      v.supply ≠ 0 ∧ amount.toNat = v.value := by
  obtain ⟨unlocked, hunlocked, htotal, hsupply, hheld⟩ := h
  rw [Vault.getAmountByShare_eq_some]
  simp only [hunlocked, Option.some.injEq, exists_eq_left', htotal, hsupply, hheld, ShareVault.value,
    ShareVault.worth]

/-- The pool's amount always fits a word. -/
theorem Backs.exists_amount (h : Backs info time v) (hsupply : v.supply ≠ 0) :
    ∃ amount, info.vault.getAmountByShare time info.lpAmount info.lpSupply = some amount ∧
      amount.toNat = v.value := by
  have hlt : v.value < 2 ^ 64 := by
    obtain ⟨unlocked, -, htotal, -⟩ := h
    have := unlocked.toNat_lt
    have := v.value_le_total
    omega
  refine ⟨UInt64.ofNat v.value, ?_, UInt64.toNat_ofNat_of_lt' hlt⟩
  exact h.getAmountByShare_eq_some.mpr ⟨hsupply, UInt64.toNat_ofNat_of_lt' hlt⟩

theorem Backs.deposit (h : Backs info time v) {amount lp : UInt64}
    (hlp : lp.toNat = v.sharesFor amount.toNat)
    (htotal : info.vault.totalAmount.toNat + amount.toNat < 2 ^ 64)
    (hsupply : info.lpSupply.toNat + lp.toNat < 2 ^ 64) :
    ∃ info', info.deposit amount lp = some info' ∧ Backs info' time (v.deposit amount.toNat) := by
  obtain ⟨unlocked, hunlocked, hvtotal, hvsupply, hvheld⟩ := h
  have hheld : info.lpAmount.toNat + lp.toNat < 2 ^ 64 := by
    have := v.held_le
    omega
  have htotal' := UInt64.toNat_ofNat_of_lt' htotal
  have hsupply' := UInt64.toNat_ofNat_of_lt' hsupply
  have hheld' := UInt64.toNat_ofNat_of_lt' hheld
  obtain ⟨unlocked', hunlocked', hadd⟩ := getUnlockedAmount_add hunlocked htotal'
  refine ⟨⟨UInt64.ofNat (info.lpAmount.toNat + lp.toNat), UInt64.ofNat (info.lpSupply.toNat + lp.toNat),
    { info.vault with totalAmount := UInt64.ofNat (info.vault.totalAmount.toNat + amount.toNat) }⟩, ?_,
    unlocked', hunlocked', ?_, ?_, ?_⟩
  · simp only [VaultInfo.deposit, checkedAdd_eq_some.mpr htotal', checkedAdd_eq_some.mpr hsupply',
      checkedAdd_eq_some.mpr hheld', Option.bind_eq_bind, Option.bind_some]
  · rw [hadd, hvtotal]
    rfl
  · rw [hsupply', hvsupply, hlp]
    rfl
  · rw [hheld', hvheld, hlp]
    rfl

theorem getUnlockedAmount_sub {vault : Vault} {time unlocked totalAmount amount : UInt64}
    (hunlocked : vault.getUnlockedAmount time = some unlocked) (hle : amount.toNat ≤ unlocked.toNat)
    (htotal : totalAmount.toNat + amount.toNat = vault.totalAmount.toNat) :
    ∃ unlocked', Vault.getUnlockedAmount { vault with totalAmount } time = some unlocked' ∧
      unlocked'.toNat + amount.toNat = unlocked.toNat := by
  rw [Vault.getUnlockedAmount_eq_some] at hunlocked
  have hlt : unlocked.toNat - amount.toNat < 2 ^ 64 := by
    have := unlocked.toNat_lt
    omega
  refine ⟨UInt64.ofNat (unlocked.toNat - amount.toNat), ?_, ?_⟩
  · rw [Vault.getUnlockedAmount_eq_some, UInt64.toNat_ofNat_of_lt' hlt]
    exact ⟨hunlocked.1, by simp only; omega⟩
  · rw [UInt64.toNat_ofNat_of_lt' hlt]
    omega

theorem Backs.withdraw (h : Backs info time v) {amount lp : UInt64} (hlp : lp.toNat ≤ v.held)
    (hamount : amount.toNat = v.worth lp.toNat) :
    ∃ info', info.withdraw amount lp = some info' ∧ Backs info' time (v.redeem lp.toNat) := by
  obtain ⟨unlocked, hunlocked, hvtotal, hvsupply, hvheld⟩ := h
  have hle : amount.toNat ≤ unlocked.toNat := by
    rw [hamount, hvtotal]
    exact v.worth_le_total (hlp.trans v.held_le)
  have htotal : amount.toNat ≤ info.vault.totalAmount.toNat := by
    have := (Vault.getUnlockedAmount_eq_some.mp hunlocked).2
    omega
  have hsupply : lp.toNat ≤ info.lpSupply.toNat := by
    have := v.held_le
    omega
  have hheld : lp.toNat ≤ info.lpAmount.toNat := by omega
  have subtract : ∀ {a b : UInt64}, b.toNat ≤ a.toNat → (a - b).toNat + b.toNat = a.toNat := by
    intro a b hab
    rw [UInt64.toNat_sub_of_le a b hab]
    omega
  obtain ⟨unlocked', hunlocked', hsub⟩ := getUnlockedAmount_sub hunlocked hle (subtract htotal)
  refine ⟨⟨info.lpAmount - lp, info.lpSupply - lp, _⟩, ?_, unlocked', hunlocked', ?_, ?_, ?_⟩
  · simp only [VaultInfo.withdraw, checkedSub_eq_some.mpr (subtract htotal),
      checkedSub_eq_some.mpr (subtract hsupply), checkedSub_eq_some.mpr (subtract hheld),
      Option.bind_eq_bind, Option.bind_some]
  · simp only [ShareVault.redeem]
    omega
  · have := subtract hsupply
    simp only [ShareVault.redeem]
    omega
  · have := subtract hheld
    simp only [ShareVault.redeem]
    omega

end DynamicAmm.Quote

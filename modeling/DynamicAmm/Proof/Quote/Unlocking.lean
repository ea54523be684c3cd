import DynamicAmm.Quote.ComputeQuote

/-!
# Locked profit only unlocks

From its last report on, a vault's locked profit is defined and falls to nothing, whatever the rate at
which it is released. So the part of the vault that backs the shares never falls as long as nobody
reports, deposits or withdraws, and neither does what a fixed number of shares is worth.
-/

namespace DynamicAmm.Program

open Rust

/-! ### The release -/

section Release

variable {profit lastReport degradation t₁ t₂ time : Nat}

/-- What is released by now is the profit times a ratio. -/
theorem lockedProfitAt_of_le (h : (time - lastReport) * degradation ≤ lockedProfitDegradationDenominator) :
    lockedProfitAt profit lastReport degradation time =
      profit * (lockedProfitDegradationDenominator - (time - lastReport) * degradation) /
        lockedProfitDegradationDenominator := by
  rw [lockedProfitAt, if_neg (by omega)]

theorem lockedProfitAt_lastReport : lockedProfitAt profit lastReport degradation lastReport = profit := by
  rw [lockedProfitAt_of_le (by rw [Nat.sub_self, Nat.zero_mul]; exact Nat.zero_le _), Nat.sub_self,
    Nat.zero_mul, Nat.sub_zero]
  exact Nat.mul_div_cancel _ (by decide)

/-- All is released when the ratio reaches the denominator, and not only beyond it. -/
theorem lockedProfitAt_eq_zero (h : lockedProfitDegradationDenominator ≤ (time - lastReport) * degradation) :
    lockedProfitAt profit lastReport degradation time = 0 := by
  rcases eq_or_lt_of_le h with heq | hlt
  · rw [lockedProfitAt_of_le heq.symm.le, ← heq, Nat.sub_self, Nat.mul_zero, Nat.zero_div]
  · rw [lockedProfitAt, if_pos hlt]

theorem lockedProfitAt_antitone (hle : t₁ ≤ t₂) :
    lockedProfitAt profit lastReport degradation t₂ ≤ lockedProfitAt profit lastReport degradation t₁ := by
  have hratio : (t₁ - lastReport) * degradation ≤ (t₂ - lastReport) * degradation :=
    Nat.mul_le_mul_right _ (Nat.sub_le_sub_right hle _)
  rcases le_total lockedProfitDegradationDenominator ((t₂ - lastReport) * degradation) with hout | hwithin
  · rw [lockedProfitAt_eq_zero hout]
    exact Nat.zero_le _
  · rw [lockedProfitAt_of_le hwithin, lockedProfitAt_of_le (hratio.trans hwithin)]
    apply Nat.div_le_div_right
    exact Nat.mul_le_mul_left _ (Nat.sub_le_sub_left hratio _)

end Release

/-! ### The account -/

/-- The locked profit is part of the total. -/
def Vault.Sound (vault : Vault) : Prop :=
  vault.lockedProfitTracker.lastUpdatedLockedProfit ≤ vault.totalAmount

variable {vault : Vault} {time t₁ t₂ share supply : UInt64}

theorem LockedProfitTracker.exists_lockedProfit {tracker : LockedProfitTracker}
    (htime : tracker.lastReport ≤ time) :
    ∃ profit, tracker.calculateLockedProfit time = some profit ∧
      profit.toNat = tracker.lockedProfit time.toNat := by
  have hlt : tracker.lockedProfit time.toNat < 2 ^ 64 :=
    (lockedProfitAt_le _ _ _ _).trans_lt tracker.lastUpdatedLockedProfit.toNat_lt
  have hvalue := UInt64.toNat_ofNat_of_lt' hlt
  exact ⟨_, LockedProfitTracker.calculateLockedProfit_eq_some.mpr ⟨htime, hvalue⟩, hvalue⟩

namespace Vault

theorem Sound.lockedProfit_le (h : vault.Sound) (time : Nat) :
    vault.lockedProfitTracker.lockedProfit time ≤ vault.totalAmount.toNat :=
  (lockedProfitAt_le _ _ _ _).trans (UInt64.le_iff_toNat_le.mp h)

theorem Sound.exists_unlocked (h : vault.Sound) (htime : vault.lockedProfitTracker.lastReport ≤ time) :
    ∃ unlocked, vault.getUnlockedAmount time = some unlocked ∧
      unlocked.toNat + vault.lockedProfitTracker.lockedProfit time.toNat = vault.totalAmount.toNat := by
  have hle := h.lockedProfit_le time.toNat
  have hlt : vault.totalAmount.toNat - vault.lockedProfitTracker.lockedProfit time.toNat < 2 ^ 64 := by
    have := vault.totalAmount.toNat_lt
    omega
  have hvalue := UInt64.toNat_ofNat_of_lt' hlt
  have hsum : (UInt64.ofNat (vault.totalAmount.toNat -
      vault.lockedProfitTracker.lockedProfit time.toNat)).toNat +
        vault.lockedProfitTracker.lockedProfit time.toNat = vault.totalAmount.toNat := by
    rw [hvalue]
    omega
  exact ⟨_, getUnlockedAmount_eq_some.mpr ⟨htime, hsum⟩, hsum⟩

theorem Sound.unlocked_mono (h : vault.Sound) (htime : vault.lockedProfitTracker.lastReport ≤ t₁)
    (hle : t₁ ≤ t₂) :
    ∃ u₁ u₂, vault.getUnlockedAmount t₁ = some u₁ ∧ vault.getUnlockedAmount t₂ = some u₂ ∧ u₁ ≤ u₂ := by
  obtain ⟨u₁, hu₁, hsum₁⟩ := h.exists_unlocked htime
  obtain ⟨u₂, hu₂, hsum₂⟩ := h.exists_unlocked (UInt64.le_trans htime hle)
  refine ⟨u₁, u₂, hu₁, hu₂, ?_⟩
  have hfalls : vault.lockedProfitTracker.lockedProfit t₂.toNat ≤
      vault.lockedProfitTracker.lockedProfit t₁.toNat := lockedProfitAt_antitone (UInt64.le_iff_toNat_le.mp hle)
  rw [UInt64.le_iff_toNat_le]
  omega

/-- What a share of the supply is worth fits a word and does not fall either. -/
theorem Sound.amountByShare_mono (h : vault.Sound) (htime : vault.lockedProfitTracker.lastReport ≤ t₁)
    (hle : t₁ ≤ t₂) (hshare : share ≤ supply) (hsupply : supply ≠ 0) :
    ∃ a₁ a₂, vault.getAmountByShare t₁ share supply = some a₁ ∧
      vault.getAmountByShare t₂ share supply = some a₂ ∧ a₁ ≤ a₂ := by
  obtain ⟨u₁, u₂, hu₁, hu₂, hunlocked⟩ := h.unlocked_mono htime hle
  have hshare' : share.toNat ≤ supply.toNat := UInt64.le_iff_toNat_le.mp hshare
  have hsupply' : supply.toNat ≠ 0 := fun hzero => hsupply (UInt64.toNat_inj.mp hzero)
  have hvalue : ∀ u : UInt64, (UInt64.ofNat (share.toNat * u.toNat / supply.toNat)).toNat =
      share.toNat * u.toNat / supply.toNat := by
    intro u
    apply UInt64.toNat_ofNat_of_lt'
    apply lt_of_le_of_lt _ u.toNat_lt
    exact Nat.div_le_of_le_mul (Nat.mul_le_mul_right _ hshare')
  refine ⟨_, _, getAmountByShare_eq_some.mpr ⟨u₁, hu₁, hsupply', hvalue u₁⟩,
    getAmountByShare_eq_some.mpr ⟨u₂, hu₂, hsupply', hvalue u₂⟩, ?_⟩
  rw [UInt64.le_iff_toNat_le, hvalue, hvalue]
  exact Nat.div_le_div_right (Nat.mul_le_mul_left _ (UInt64.le_iff_toNat_le.mp hunlocked))

/-- The three products of the conversions, each below `2 ^ 128`. -/
structure NoOverflow (vault : Vault) (time share : UInt64) : Prop where
  ratio : (time.toNat - vault.lockedProfitTracker.lastReport.toNat) *
    vault.lockedProfitTracker.lockedProfitDegradation.toNat < 2 ^ 128
  profit : vault.lockedProfitTracker.lastUpdatedLockedProfit.toNat *
    (lockedProfitDegradationDenominator - (time.toNat - vault.lockedProfitTracker.lastReport.toNat) *
      vault.lockedProfitTracker.lockedProfitDegradation.toNat) < 2 ^ 128
  worth : ∀ unlocked, vault.getUnlockedAmount time = some unlocked → share.toNat * unlocked.toNat < 2 ^ 128

theorem noOverflow (vault : Vault) (time share : UInt64) : vault.NoOverflow time share where
  ratio := by
    have hduration : time.toNat - vault.lockedProfitTracker.lastReport.toNat < 2 ^ 64 :=
      (Nat.sub_le _ _).trans_lt time.toNat_lt
    calc
      _ < 2 ^ 64 * 2 ^ 64 :=
        Nat.mul_lt_mul'' hduration vault.lockedProfitTracker.lockedProfitDegradation.toNat_lt
      _ = 2 ^ 128 := by norm_num
  profit := by
    calc
      _ ≤ vault.lockedProfitTracker.lastUpdatedLockedProfit.toNat * lockedProfitDegradationDenominator :=
        Nat.mul_le_mul_left _ (Nat.sub_le _ _)
      _ < 2 ^ 64 * lockedProfitDegradationDenominator :=
        Nat.mul_lt_mul_of_pos_right vault.lockedProfitTracker.lastUpdatedLockedProfit.toNat_lt (by decide)
      _ < 2 ^ 128 := by decide
  worth := fun unlocked _ => toNat_mul_lt share unlocked

end Vault

end DynamicAmm.Program

namespace DynamicAmm.Quote

open Rust Program

/-- A vault whose locked profit is part of its total, with the pool among the holders of its LP. -/
structure VaultInfo.Sound (info : VaultInfo) (time : UInt64) : Prop where
  vault : info.vault.Sound
  reported : info.vault.lockedProfitTracker.lastReport ≤ time
  held : info.lpAmount ≤ info.lpSupply
  supply_ne : info.lpSupply ≠ 0

variable {t₁ t₂ : UInt64}

theorem computePoolTokens_mono {infoA infoB : VaultInfo} (hA : infoA.Sound t₁) (hB : infoB.Sound t₁)
    (hle : t₁ ≤ t₂) :
    ∃ a₁ b₁ a₂ b₂, computePoolTokens t₁ infoA infoB = .ok (a₁, b₁) ∧
      computePoolTokens t₂ infoA infoB = .ok (a₂, b₂) ∧ a₁ ≤ a₂ ∧ b₁ ≤ b₂ := by
  obtain ⟨a₁, a₂, ha₁, ha₂, ha⟩ := hA.vault.amountByShare_mono hA.reported hle hA.held hA.supply_ne
  obtain ⟨b₁, b₂, hb₁, hb₂, hb⟩ := hB.vault.amountByShare_mono hB.reported hle hB.held hB.supply_ne
  refine ⟨a₁, b₁, a₂, b₂, ?_, ?_, ha, hb⟩
  · simp only [computePoolTokens, ha₁, hb₁]
    rfl
  · simp only [computePoolTokens, ha₂, hb₂]
    rfl

theorem lockedProfit_only_unlocks (hle : t₁ ≤ t₂) :
    (∀ vault : Vault, vault.Sound → vault.lockedProfitTracker.lastReport ≤ t₁ →
      (∃ p₁ p₂, vault.lockedProfitTracker.calculateLockedProfit t₁ = some p₁ ∧
        vault.lockedProfitTracker.calculateLockedProfit t₂ = some p₂ ∧ p₂ ≤ p₁ ∧
        p₁ ≤ vault.lockedProfitTracker.lastUpdatedLockedProfit) ∧
      vault.lockedProfitTracker.calculateLockedProfit vault.lockedProfitTracker.lastReport =
        some vault.lockedProfitTracker.lastUpdatedLockedProfit ∧
      (10 ^ 12 ≤ (t₁.toNat - vault.lockedProfitTracker.lastReport.toNat) *
          vault.lockedProfitTracker.lockedProfitDegradation.toNat →
        vault.lockedProfitTracker.calculateLockedProfit t₁ = some 0) ∧
      (∃ u₁ u₂, vault.getUnlockedAmount t₁ = some u₁ ∧ vault.getUnlockedAmount t₂ = some u₂ ∧ u₁ ≤ u₂) ∧
      ∀ share supply, share ≤ supply → supply ≠ 0 →
        vault.NoOverflow t₁ share ∧ vault.NoOverflow t₂ share ∧
        ∃ a₁ a₂, vault.getAmountByShare t₁ share supply = some a₁ ∧
          vault.getAmountByShare t₂ share supply = some a₂ ∧ a₁ ≤ a₂) ∧
    ∀ infoA infoB : VaultInfo, infoA.Sound t₁ → infoB.Sound t₁ →
      ∃ a₁ b₁ a₂ b₂, computePoolTokens t₁ infoA infoB = .ok (a₁, b₁) ∧
        computePoolTokens t₂ infoA infoB = .ok (a₂, b₂) ∧ a₁ ≤ a₂ ∧ b₁ ≤ b₂ := by
  refine ⟨?_, fun infoA infoB hA hB => computePoolTokens_mono hA hB hle⟩
  intro vault hvault htime
  refine ⟨?_, ?_, ?_, hvault.unlocked_mono htime hle, ?_⟩
  · obtain ⟨p₁, hp₁, hvalue₁⟩ := LockedProfitTracker.exists_lockedProfit htime
    obtain ⟨p₂, hp₂, hvalue₂⟩ := LockedProfitTracker.exists_lockedProfit (UInt64.le_trans htime hle)
    refine ⟨p₁, p₂, hp₁, hp₂, ?_, ?_⟩
    · rw [UInt64.le_iff_toNat_le, hvalue₁, hvalue₂]
      exact lockedProfitAt_antitone (UInt64.le_iff_toNat_le.mp hle)
    · rw [UInt64.le_iff_toNat_le, hvalue₁]
      exact lockedProfitAt_le _ _ _ _
  · rw [LockedProfitTracker.calculateLockedProfit_eq_some]
    exact ⟨UInt64.le_refl _, lockedProfitAt_lastReport.symm⟩
  · intro hreleased
    rw [LockedProfitTracker.calculateLockedProfit_eq_some]
    exact ⟨htime, (lockedProfitAt_eq_zero hreleased).symm⟩
  · intro share supply hshare hsupply
    exact ⟨vault.noOverflow t₁ share, vault.noOverflow t₂ share,
      hvault.amountByShare_mono htime hle hshare hsupply⟩

theorem lockedProfit_only_unlocks_sample :
    ((∃ p₁ p₂, LockedProfitTracker.calculateLockedProfit ⟨300, 100, 10000000000⟩ 100 = some p₁ ∧
        LockedProfitTracker.calculateLockedProfit ⟨300, 100, 10000000000⟩ 150 = some p₂ ∧ p₂ ≤ p₁ ∧ p₁ ≤ 300) ∧
      ∃ a₁ a₂, Vault.getAmountByShare ⟨1000, ⟨300, 100, 10000000000⟩⟩ 100 40 60 = some a₁ ∧
        Vault.getAmountByShare ⟨1000, ⟨300, 100, 10000000000⟩⟩ 150 40 60 = some a₂ ∧ a₁ ≤ a₂) ∧
    ∃ a₁ b₁ a₂ b₂,
      computePoolTokens 100 ⟨40, 60, ⟨1000, ⟨300, 100, 10000000000⟩⟩⟩ ⟨5, 10, ⟨80, ⟨0, 0, 0⟩⟩⟩ = .ok (a₁, b₁) ∧
      computePoolTokens 150 ⟨40, 60, ⟨1000, ⟨300, 100, 10000000000⟩⟩⟩ ⟨5, 10, ⟨80, ⟨0, 0, 0⟩⟩⟩ = .ok (a₂, b₂) ∧
      a₁ ≤ a₂ ∧ b₁ ≤ b₂ := by
  obtain ⟨hvaults, hpools⟩ := @lockedProfit_only_unlocks 100 150 (by decide)
  have hsound : Vault.Sound ⟨1000, ⟨300, 100, 10000000000⟩⟩ := (by decide : (300 : UInt64) ≤ 1000)
  obtain ⟨hprofit, -, -, -, hshares⟩ := hvaults _ hsound (by decide)
  refine ⟨⟨hprofit, (hshares 40 60 (by decide) (by decide)).2.2⟩, ?_⟩
  exact hpools _ _ ⟨hsound, by decide, by decide, by decide⟩
    ⟨(by decide : (0 : UInt64) ≤ 80), by decide, by decide, by decide⟩

end DynamicAmm.Quote

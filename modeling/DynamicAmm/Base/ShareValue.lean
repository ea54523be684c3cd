import DynamicAmm.Base.ShareVault

/-!
# The value of shares before it is rounded

What a holder owns is a fraction of the vault, and only what is paid out is rounded. In these terms a
deposit adds no more than its amount, a withdrawal takes off no less than what it pays, and the price that
everybody else's shares have never falls. All three add up over any number of deposits and withdrawals.
-/

namespace ShareVault

variable (v w : ShareVault)

/-! ### The holder -/

def exactValue : ℚ := v.held * v.total / v.supply

theorem floor_exactValue : ⌊v.exactValue⌋₊ = v.value := by
  rw [exactValue, value, worth, ← Nat.cast_mul, Nat.floor_div_eq_div]

variable {v w}

theorem value_le_value_of_exactValue_le (h : v.exactValue ≤ w.exactValue) : v.value ≤ w.value := by
  rw [← floor_exactValue, ← floor_exactValue]
  exact Nat.floor_le_floor h

theorem value_lt_value_of_exactValue_add_one_le (h : v.exactValue + 1 ≤ w.exactValue) :
    v.value < w.value := by
  have hnonneg : 0 ≤ v.exactValue := by
    rw [exactValue]
    positivity
  rw [← floor_exactValue, ← floor_exactValue, Nat.lt_iff_add_one_le, ← Nat.floor_add_one hnonneg]
  exact Nat.floor_le_floor h

variable (v)

/-- A deposit that buys no more shares than its amount is worth adds no more than its amount. -/
theorem exactValue_deposit_le (amount : Nat) : (v.deposit amount).exactValue ≤ v.exactValue + amount := by
  rcases Nat.eq_zero_or_pos v.supply with hzero | hpos
  · have hheld : v.held = 0 := Nat.le_zero.mp (hzero ▸ v.held_le)
    simp [exactValue, deposit, sharesFor, hzero, hheld]
  have hshares : ((v.sharesFor amount * v.total : Nat) : ℚ) ≤ (amount * v.supply : Nat) := by
    exact_mod_cast v.sharesFor_mul_total_le amount
  have hheld : (v.held : ℚ) ≤ v.supply := by exact_mod_cast v.held_le
  have hsupply : (0 : ℚ) < v.supply := by exact_mod_cast hpos
  have hnew : (0 : ℚ) < v.supply + v.sharesFor amount := by positivity
  simp only [exactValue, deposit]
  push_cast at hshares ⊢
  rw [div_add' _ _ _ hsupply.ne', div_le_div_iff₀ hnew hsupply]
  -- The rest of the supply gains what the new shares were short of.
  have hrest := mul_le_mul_of_nonneg_left hshares (sub_nonneg.mpr hheld)
  linarith

/-- Shares that are redeemed take no less off than what they are paid. -/
theorem exactValue_redeem_add_le {shares : Nat} (hshares : shares ≤ v.held) :
    (v.redeem shares).exactValue + v.worth shares ≤ v.exactValue := by
  rcases Nat.eq_zero_or_pos v.supply with hzero | hpos
  · have hheld : v.held = 0 := Nat.le_zero.mp (hzero ▸ v.held_le)
    simp [exactValue, redeem, worth, hzero, hheld]
  have hheld := v.held_le
  have htotal := v.worth_le_total (hshares.trans hheld)
  have hworth : ((v.worth shares * v.supply : Nat) : ℚ) ≤ (shares * v.total : Nat) := by
    exact_mod_cast v.worth_mul_supply_le shares
  have hsupply : (0 : ℚ) < v.supply := by exact_mod_cast hpos
  have hheld' : (v.held : ℚ) ≤ v.supply := by exact_mod_cast hheld
  push_cast at hworth
  simp only [exactValue, redeem]
  rw [Nat.cast_sub hshares, Nat.cast_sub htotal, Nat.cast_sub (hshares.trans hheld), le_div_iff₀ hsupply]
  rcases (hshares.trans hheld).eq_or_lt with hall | hlt
  · have heq : v.held = v.supply := by omega
    rw [hall, heq, sub_self, zero_mul, zero_div, zero_add]
    have := v.worth_mul_supply_le v.supply
    exact_mod_cast this
  · have hleft : (0 : ℚ) < v.supply - shares := by
      rw [sub_pos]
      exact_mod_cast hlt
    rw [add_mul, div_mul_eq_mul_div, ← le_sub_iff_add_le, div_le_iff₀ hleft]
    -- The rest of the supply gains what the shares were not paid for.
    have hrest := mul_le_mul_of_nonneg_left hworth (sub_nonneg.mpr hheld')
    linarith

/-! ### The other holders -/

def others : Nat := v.supply - v.held

@[simp] theorem others_deposit (amount : Nat) : (v.deposit amount).others = v.others := by
  simp only [others, deposit]
  omega

theorem others_redeem {shares : Nat} (hshares : shares ≤ v.held) : (v.redeem shares).others = v.others := by
  have := v.held_le
  simp only [others, redeem]
  omega

theorem supply_pos_of_others_pos (h : 0 < v.others) : 0 < v.supply := by
  rw [others] at h
  omega

variable (w) in
/-- The price of a share is no higher than in another vault. -/
def PriceLe : Prop := v.total * w.supply ≤ w.total * v.supply

variable {v}

theorem PriceLe.trans {u : ShareVault} (hvw : v.PriceLe w) (hwu : w.PriceLe u) (hpos : 0 < w.supply) :
    v.PriceLe u := by
  refine Nat.le_of_mul_le_mul_right ?_ hpos
  calc
    v.total * u.supply * w.supply = v.total * w.supply * u.supply := by ring
    _ ≤ w.total * v.supply * u.supply := Nat.mul_le_mul_right _ hvw
    _ = w.total * u.supply * v.supply := by ring
    _ ≤ u.total * w.supply * v.supply := Nat.mul_le_mul_right _ hwu
    _ = u.total * v.supply * w.supply := by ring

theorem PriceLe.worth_le (h : v.PriceLe w) (hpos : 0 < w.supply) (shares : Nat) :
    v.worth shares ≤ w.worth shares := by
  rcases Nat.eq_zero_or_pos v.supply with hzero | hsupply
  · simp [worth, hzero]
  rw [worth, worth, Nat.le_div_iff_mul_le hpos, ← worth]
  refine Nat.le_of_mul_le_mul_right ?_ hsupply
  calc
    v.worth shares * w.supply * v.supply = v.worth shares * v.supply * w.supply := by ring
    _ ≤ shares * v.total * w.supply := Nat.mul_le_mul_right _ (v.worth_mul_supply_le shares)
    _ = shares * (v.total * w.supply) := by ring
    _ ≤ shares * (w.total * v.supply) := Nat.mul_le_mul_left _ h
    _ = shares * w.total * v.supply := by ring

end ShareVault

import Mathlib

/-!
# A vault that issues shares

A vault holds an amount of one asset and issues shares of it. Shares are minted and redeemed at the
current price, `total / supply`, and both conversions round down. One holder is singled out, because
what a pool owns is the value of the shares it holds.

The facts below are the two directions of one statement: rounding down the shares minted by a deposit,
and rounding down both the shares and the amount of a withdrawal, never lowers the price, so the holder
never loses more than what the holder takes out.
-/

structure ShareVault where
  total : Nat
  supply : Nat
  held : Nat
  held_le : held ≤ supply

namespace ShareVault

variable (v : ShareVault)

def worth (shares : Nat) : Nat := shares * v.total / v.supply

def sharesFor (amount : Nat) : Nat := amount * v.supply / v.total

def value : Nat := v.worth v.held

def deposit (amount : Nat) : ShareVault where
  total := v.total + amount
  supply := v.supply + v.sharesFor amount
  held := v.held + v.sharesFor amount
  held_le := Nat.add_le_add_right v.held_le _

def redeem (shares : Nat) : ShareVault where
  total := v.total - v.worth shares
  supply := v.supply - shares
  held := v.held - shares
  held_le := Nat.sub_le_sub_right v.held_le _

theorem worth_mul_supply_le (shares : Nat) : v.worth shares * v.supply ≤ shares * v.total :=
  Nat.div_mul_le_self _ _

theorem sharesFor_mul_total_le (amount : Nat) : v.sharesFor amount * v.total ≤ amount * v.supply :=
  Nat.div_mul_le_self _ _

theorem lt_worth_succ_mul_supply (hsupply : 0 < v.supply) (shares : Nat) :
    shares * v.total < (v.worth shares + 1) * v.supply :=
  (Nat.div_lt_iff_lt_mul hsupply).mp (Nat.lt_succ_self _)

theorem lt_sharesFor_succ_mul_total (htotal : 0 < v.total) (amount : Nat) :
    amount * v.supply < (v.sharesFor amount + 1) * v.total :=
  (Nat.div_lt_iff_lt_mul htotal).mp (Nat.lt_succ_self _)

theorem worth_le_total {shares : Nat} (h : shares ≤ v.supply) : v.worth shares ≤ v.total := by
  apply Nat.div_le_of_le_mul
  exact Nat.mul_le_mul_right _ h

theorem value_le_total : v.value ≤ v.total := v.worth_le_total v.held_le

theorem pos_of_value_pos (h : 0 < v.value) : 0 < v.held ∧ 0 < v.total := by
  have hproduct : 0 < v.held * v.total := by
    by_contra hzero
    rw [value, worth, Nat.le_zero.mp (not_lt.mp hzero), Nat.zero_div] at h
    exact lt_irrefl _ h
  exact CanonicallyOrderedAdd.mul_pos.mp hproduct

theorem worth_sharesFor_le (amount : Nat) : v.worth (v.sharesFor amount) ≤ amount := by
  rcases Nat.eq_zero_or_pos v.supply with hzero | hpos
  · simp [worth, hzero]
  · refine Nat.le_of_mul_le_mul_right ?_ hpos
    exact (v.worth_mul_supply_le _).trans (v.sharesFor_mul_total_le amount)

/-- A deposit never lowers the price of a share. -/
theorem deposit_price_le (amount : Nat) :
    v.total * (v.deposit amount).supply ≤ (v.deposit amount).total * v.supply := by
  have h := v.sharesFor_mul_total_le amount
  simp only [deposit]
  calc
    v.total * (v.supply + v.sharesFor amount) = v.total * v.supply + v.sharesFor amount * v.total := by ring
    _ ≤ v.total * v.supply + amount * v.supply := Nat.add_le_add_left h _
    _ = (v.total + amount) * v.supply := by ring

theorem worth_mono {shares shares' : Nat} (h : shares ≤ shares') : v.worth shares ≤ v.worth shares' :=
  Nat.div_le_div_right (Nat.mul_le_mul_right _ h)

/-- A deposit never lowers what any number of shares is worth. -/
theorem worth_le_worth_deposit (amount shares : Nat) : v.worth shares ≤ (v.deposit amount).worth shares := by
  rcases Nat.eq_zero_or_pos v.supply with hzero | hpos
  · simp [worth, hzero]
  · have hsupply : 0 < (v.deposit amount).supply := Nat.add_pos_left hpos _
    rw [worth, worth, Nat.le_div_iff_mul_le hsupply, ← worth]
    refine Nat.le_of_mul_le_mul_right ?_ hpos
    calc
      v.worth shares * (v.deposit amount).supply * v.supply
          = v.worth shares * v.supply * (v.deposit amount).supply := by ring
      _ ≤ shares * v.total * (v.deposit amount).supply :=
          Nat.mul_le_mul_right _ (v.worth_mul_supply_le shares)
      _ = shares * (v.total * (v.deposit amount).supply) := by ring
      _ ≤ shares * ((v.deposit amount).total * v.supply) := Nat.mul_le_mul_left _ (v.deposit_price_le amount)
      _ = shares * (v.deposit amount).total * v.supply := by ring

/-- The holder's value never falls when the holder deposits. -/
theorem value_le_value_deposit (amount : Nat) : v.value ≤ (v.deposit amount).value := by
  have hheld : v.held ≤ (v.deposit amount).held := Nat.le_add_right _ _
  exact (v.worth_le_worth_deposit amount v.held).trans ((v.deposit amount).worth_mono hheld)

/-- The holder's value never grows by more than what the holder deposits: the rise in price that the
holder's old shares get is at most what the new shares were short of. -/
theorem value_deposit_le_value_add (hsupply : 0 < v.supply) (amount : Nat) :
    (v.deposit amount).value ≤ v.value + amount := by
  have hvalue : v.held * v.total < (v.value + 1) * v.supply := v.lt_worth_succ_mul_supply hsupply v.held
  have hshares := v.sharesFor_mul_total_le amount
  have hheld := v.held_le
  have hdeposit : 0 < (v.deposit amount).supply := Nat.add_pos_left hsupply _
  rw [← Nat.lt_succ_iff, value, worth, Nat.div_lt_iff_lt_mul hdeposit]
  simp only [deposit]
  generalize v.sharesFor amount = lp at *
  have hshort : v.held * (amount * v.supply - lp * v.total) ≤ v.supply * (amount * v.supply - lp * v.total) :=
    Nat.mul_le_mul_right _ hheld
  refine Nat.lt_of_mul_lt_mul_left (a := v.supply) ?_
  zify [hshares] at *
  nlinarith

/-- After a deposit, a holder who had a share owns no less than the deposit. -/
theorem le_value_deposit (hheld : 0 < v.held) (htotal : 0 < v.total) (amount : Nat) :
    amount ≤ (v.deposit amount).value := by
  have hlt := v.lt_sharesFor_succ_mul_total htotal amount
  have hdeposit : 0 < (v.deposit amount).supply := Nat.add_pos_left (hheld.trans_le v.held_le) _
  rw [value, worth, Nat.le_div_iff_mul_le hdeposit]
  simp only [deposit]
  generalize v.sharesFor amount = lp at *
  have hshare : v.total ≤ v.held * v.total := Nat.le_mul_of_pos_left _ hheld
  nlinarith

/-- What a deposit loses to rounding is at most the price of a share. -/
theorem value_add_le_value_deposit_add (hsupply : 0 < v.supply) (htotal : 0 < v.total) {price : Nat}
    (hprice : v.total ≤ price * v.supply) (amount : Nat) :
    v.value + amount ≤ (v.deposit amount).value + price := by
  have hvalue : v.value * v.supply ≤ v.held * v.total := v.worth_mul_supply_le v.held
  have hshares := v.sharesFor_mul_total_le amount
  have hlt := v.lt_sharesFor_succ_mul_total htotal amount
  have hdeposit : 0 < (v.deposit amount).supply := Nat.add_pos_left hsupply _
  by_contra hlost
  have hafter : (v.deposit amount).value < v.value + amount - price := by omega
  have hle : price ≤ v.value + amount := by omega
  rw [value, worth, Nat.div_lt_iff_lt_mul hdeposit] at hafter
  simp only [deposit] at hafter
  generalize v.sharesFor amount = lp at *
  generalize v.value = before at *
  zify [hle] at *
  have hscaled : (before + amount - price : Int) * v.supply ≤
      v.held * v.total + amount * v.supply - v.total := by linarith
  have hbound := mul_le_mul_of_nonneg_right hscaled (by positivity : (0 : Int) ≤ v.supply + lp)
  have hsupplied := mul_lt_mul_of_pos_left hafter hsupply
  -- What the deposit is short of a whole number of shares, and what it would take to the next one.
  have hshort : (0 : Int) ≤ (v.held + lp) * (amount * v.supply - lp * v.total) :=
    mul_nonneg (by positivity) (by linarith)
  have hspare : (0 : Int) ≤ ((lp + 1) * v.total - amount * v.supply) * (v.supply + lp) :=
    mul_nonneg (by linarith) (by positivity)
  linarith

/-- The shares that an amount within the holder's value costs are shares the holder has. -/
theorem sharesFor_le_held {amount : Nat} (h : amount ≤ v.value) : v.sharesFor amount ≤ v.held := by
  rcases Nat.eq_zero_or_pos v.total with hzero | hpos
  · simp [sharesFor, hzero]
  · refine Nat.le_of_mul_le_mul_right ?_ hpos
    calc
      v.sharesFor amount * v.total ≤ amount * v.supply := v.sharesFor_mul_total_le amount
      _ ≤ v.value * v.supply := Nat.mul_le_mul_right _ h
      _ ≤ v.held * v.total := v.worth_mul_supply_le _

/-- Redeeming never lowers the price of a share. -/
theorem redeem_price_le (shares : Nat) :
    v.total * (v.redeem shares).supply ≤ (v.redeem shares).total * v.supply := by
  have h := v.worth_mul_supply_le shares
  simp only [redeem, Nat.mul_sub, Nat.sub_mul]
  rw [Nat.mul_comm v.total shares]
  exact Nat.sub_le_sub_left h _

/-- What the holder keeps after paying an amount out: at most that amount less than before. -/
theorem value_le_value_redeem_add {amount : Nat} (h : v.sharesFor amount < v.supply) :
    v.value ≤ (v.redeem (v.sharesFor amount)).value + amount := by
  by_cases hle : v.value ≤ amount
  · omega
  · have hamount : amount ≤ v.value := by omega
    have hpos : 0 < v.supply := by omega
    have hheld := v.sharesFor_le_held hamount
    have hsupply : 0 < (v.redeem (v.sharesFor amount)).supply := Nat.sub_pos_of_lt h
    have hkept : (v.value - amount) * v.supply ≤ (v.held - v.sharesFor amount) * v.total := by
      rw [Nat.sub_mul, Nat.sub_mul]
      exact tsub_le_tsub (v.worth_mul_supply_le _) (v.sharesFor_mul_total_le _)
    have hprice := v.redeem_price_le (v.sharesFor amount)
    suffices hsub : v.value - amount ≤ (v.redeem (v.sharesFor amount)).value by omega
    rw [value, value, worth, worth, Nat.le_div_iff_mul_le hsupply, ← worth, ← value]
    refine Nat.le_of_mul_le_mul_right ?_ hpos
    calc
      (v.value - amount) * (v.redeem (v.sharesFor amount)).supply * v.supply
          = (v.value - amount) * v.supply * (v.redeem (v.sharesFor amount)).supply := by ring
      _ ≤ (v.held - v.sharesFor amount) * v.total * (v.redeem (v.sharesFor amount)).supply :=
          Nat.mul_le_mul_right _ hkept
      _ = (v.held - v.sharesFor amount) * (v.total * (v.redeem (v.sharesFor amount)).supply) := by ring
      _ ≤ (v.held - v.sharesFor amount) * ((v.redeem (v.sharesFor amount)).total * v.supply) :=
          Nat.mul_le_mul_left _ hprice
      _ = (v.redeem (v.sharesFor amount)).held * (v.redeem (v.sharesFor amount)).total * v.supply := by
          simp only [redeem]
          ring

end ShareVault

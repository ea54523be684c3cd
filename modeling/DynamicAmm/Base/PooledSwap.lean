import DynamicAmm.Base.ProductCurve
import DynamicAmm.Base.ShareVault

/-!
# A swap between two vaults

A pool that keeps its two assets in vaults swaps along the constant product curve. The deposit is worth
what the pool's shares gained, a fee stays behind, and what the curve pays leaves in whole shares. The
swap is refused when no shares can be bought, when the deposit does not cover the fee, and when the curve
would pay nothing or more than the product allows.
-/

namespace ShareVault

def paid (v : ShareVault) (amount : Nat) : Nat := v.worth (v.sharesFor amount)

def credited (v : ShareVault) (deposit : Nat) : Nat := (v.deposit deposit).value - v.value

theorem value_add_credited (v : ShareVault) (deposit : Nat) :
    v.value + v.credited deposit = (v.deposit deposit).value :=
  Nat.add_sub_cancel' (v.value_le_value_deposit deposit)

/-- What is credited is never more than what is deposited. -/
theorem value_deposit_le (v : ShareVault) (deposit : Nat) : (v.deposit deposit).value ≤ v.total + deposit :=
  (v.deposit deposit).value_le_total

structure SwapsTo (source destination : ShareVault) (deposit fee out : Nat) : Prop where
  total_ne : source.total ≠ 0
  fee_le : fee ≤ source.credited deposit
  pays : ProductCurve.Pays source.value destination.value (source.credited deposit - fee)
  out_eq : out =
    destination.paid (ProductCurve.payout source.value destination.value (source.credited deposit - fee))

variable {source destination : ShareVault} {deposit fee out : Nat}

namespace SwapsTo

variable (h : SwapsTo source destination deposit fee out)

include h

theorem source_supply_ne : source.supply ≠ 0 := by
  intro hzero
  have hpos := h.pays.product_pos
  simp [value, worth, hzero] at hpos

theorem destination_supply_ne : destination.supply ≠ 0 := by
  intro hzero
  have hpos := h.pays.product_pos
  simp [value, worth, hzero] at hpos

theorem destination_total_ne : destination.total ≠ 0 := by
  intro hzero
  have hpos := h.pays.product_pos
  simp [value, worth, hzero] at hpos

/-- The pool never pays all it has. -/
theorem out_lt : out < destination.value := by
  rw [h.out_eq]
  exact (destination.worth_sharesFor_le _).trans_lt h.pays.payout_lt

end SwapsTo

end ShareVault

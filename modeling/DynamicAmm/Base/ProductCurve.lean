import Mathlib

/-!
# The constant product curve

A pool of two assets that pays out as much of one as keeps the product of its two balances from falling.
The balance kept is the product divided by the new source balance, rounded up, and what the pool pays is
the rest. `keep` is over the natural numbers, so the rounding is part of the definition.
-/

namespace ProductCurve

/-- The destination balance the pool keeps once the source balance has grown by an amount. -/
def keep (source destination amount : Nat) : Nat := (source * destination) ⌈/⌉ (source + amount)

def payout (source destination amount : Nat) : Nat := destination - keep source destination amount

variable {source destination amount : Nat}

theorem product_le_mul_keep (h : 0 < source + amount) :
    source * destination ≤ (source + amount) * keep source destination amount := by
  simpa [keep] using le_smul_ceilDiv (b := source * destination) h

theorem keep_le_destination (h : 0 < source + amount) : keep source destination amount ≤ destination := by
  rw [keep, ceilDiv_le_iff_le_smul h, smul_eq_mul]
  exact Nat.mul_le_mul_right _ (Nat.le_add_right _ _)

theorem sub_payout (h : 0 < source + amount) :
    destination - payout source destination amount = keep source destination amount :=
  Nat.sub_sub_self (keep_le_destination h)

/-- The product of the balances never falls. -/
theorem product_le (h : 0 < source + amount) :
    source * destination ≤ (source + amount) * (destination - payout source destination amount) := by
  rw [sub_payout h]
  exact product_le_mul_keep h

/-- What is kept is no more than it has to be. -/
theorem mul_lt_of_lt_keep (h : 0 < source + amount) {n : Nat} (hn : n < keep source destination amount) :
    (source + amount) * n < source * destination := by
  by_contra hle
  have hkeep : keep source destination amount ≤ n := by
    rw [keep, ceilDiv_le_iff_le_smul h]
    exact not_lt.mp hle
  omega

/-- A positive product leaves the pool something to keep, so it never pays out everything. -/
theorem payout_lt (hpos : 0 < source * destination) : payout source destination amount < destination := by
  have hsource : 0 < source + amount := Nat.add_pos_left (Nat.pos_of_mul_pos_right hpos) _
  have hkeep : 0 < (source + amount) * keep source destination amount :=
    hpos.trans_le (product_le_mul_keep hsource)
  have hkeep' := Nat.pos_of_mul_pos_left hkeep
  have hdestination : 0 < destination := Nat.pos_of_mul_pos_left hpos
  rw [payout]
  omega

/-- The curve pays something, and the new source balance is not above the product. -/
structure Pays (source destination amount : Nat) : Prop where
  new_ne : source + amount ≠ 0
  new_le : source + amount ≤ source * destination
  payout_ne : payout source destination amount ≠ 0

theorem Pays.product_pos (h : Pays source destination amount) : 0 < source * destination :=
  (Nat.pos_of_ne_zero h.new_ne).trans_le h.new_le

theorem Pays.payout_lt (h : Pays source destination amount) :
    payout source destination amount < destination :=
  ProductCurve.payout_lt h.product_pos

end ProductCurve

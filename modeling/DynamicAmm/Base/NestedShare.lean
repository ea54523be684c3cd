import Mathlib

/-!
# A share of a share

Shares of an outer supply stand for shares of an inner one, and those for an amount. Both steps are
proportions of whole numbers. Rounding both down gives an amount that is never more than the exact one,
that grows with the shares and is not improved by splitting them. Rounding both to the nearest gives one
that may be either side of it, and the two remainders decide which.
-/

def Nat.nearest (a b : Nat) : Nat := if 2 * (a % b) < b then a / b else a / b + 1

theorem Nat.div_le_nearest (a b : Nat) : a / b ≤ Nat.nearest a b := by
  unfold Nat.nearest
  split
  · exact le_rfl
  · exact Nat.le_succ _

structure NestedShare where
  supply : Nat
  /-- The inner shares that the whole outer supply stands for. -/
  held : Nat
  innerSupply : Nat
  total : Nat

namespace NestedShare

variable (s : NestedShare) {shares shares' : Nat}

def paid (shares : Nat) : Nat := shares * s.held / s.supply * s.total / s.innerSupply

def whole : Nat := s.held * s.total / s.innerSupply

def charged (shares : Nat) : Nat :=
  Nat.nearest (Nat.nearest (shares * s.held) s.supply * s.total) s.innerSupply

/-! ### Rounded down -/

theorem paid_mul_le (shares : Nat) :
    s.paid shares * s.supply * s.innerSupply ≤ shares * s.held * s.total := by
  calc
    s.paid shares * s.supply * s.innerSupply = s.paid shares * s.innerSupply * s.supply := by ring
    _ ≤ shares * s.held / s.supply * s.total * s.supply := Nat.mul_le_mul_right _ (Nat.div_mul_le_self _ _)
    _ = shares * s.held / s.supply * s.supply * s.total := by ring
    _ ≤ shares * s.held * s.total := Nat.mul_le_mul_right _ (Nat.div_mul_le_self _ _)

theorem paid_mono (h : shares ≤ shares') : s.paid shares ≤ s.paid shares' := by
  apply Nat.div_le_div_right
  apply Nat.mul_le_mul_right
  exact Nat.div_le_div_right (Nat.mul_le_mul_right _ h)

theorem paid_add_le (shares shares' : Nat) : s.paid shares + s.paid shares' ≤ s.paid (shares + shares') := by
  calc
    s.paid shares + s.paid shares'
        ≤ (shares * s.held / s.supply * s.total + shares' * s.held / s.supply * s.total) / s.innerSupply :=
          Nat.div_add_div_le_add_div
    _ = (shares * s.held / s.supply + shares' * s.held / s.supply) * s.total / s.innerSupply := by
          rw [Nat.add_mul]
    _ ≤ (shares * s.held + shares' * s.held) / s.supply * s.total / s.innerSupply := by
          apply Nat.div_le_div_right
          exact Nat.mul_le_mul_right _ Nat.div_add_div_le_add_div
    _ = s.paid (shares + shares') := by rw [paid, Nat.add_mul]

theorem paid_supply (h : 0 < s.supply) : s.paid s.supply = s.whole := by
  rw [paid, whole, Nat.mul_div_cancel_left _ h]

theorem paid_le_whole (h : shares ≤ s.supply) : s.paid shares ≤ s.whole := by
  rcases Nat.eq_zero_or_pos s.supply with hzero | hpos
  · rw [paid, hzero, Nat.div_zero, Nat.zero_mul, Nat.zero_div]
    exact Nat.zero_le _
  · rw [← s.paid_supply hpos]
    exact s.paid_mono h

/-- Shares bought at a discount, for a part of the whole that the discount leaves room to round, are redeemed for
no more of any whole than that part. -/
theorem paid_mul_le_of_discounted {n m base amount : Nat} (hsupply : 0 < s.supply) (hinner : 0 < s.innerSupply)
    (hm : 0 < m) (hdiscount : shares * m * base ≤ n * (amount * s.supply)) (hroom : n * (s.whole + 1) ≤ m * s.whole) :
    s.paid shares * base ≤ amount * s.whole := by
  have hunit : s.paid shares * s.supply ≤ shares * (s.whole + 1) := by
    apply Nat.le_of_mul_le_mul_right _ hinner
    calc
      s.paid shares * s.supply * s.innerSupply ≤ shares * (s.held * s.total) := by
        rw [← Nat.mul_assoc]
        exact s.paid_mul_le shares
      _ ≤ shares * ((s.whole + 1) * s.innerSupply) := by
        apply Nat.mul_le_mul_left
        rw [Nat.mul_comm (s.whole + 1)]
        exact (Nat.lt_mul_div_succ _ hinner).le
      _ = shares * (s.whole + 1) * s.innerSupply := by ring
  apply Nat.le_of_mul_le_mul_right _ (Nat.mul_pos hm hsupply)
  calc
    s.paid shares * base * (m * s.supply) = s.paid shares * s.supply * (m * base) := by ring
    _ ≤ shares * (s.whole + 1) * (m * base) := Nat.mul_le_mul_right _ hunit
    _ = shares * m * base * (s.whole + 1) := by ring
    _ ≤ n * (amount * s.supply) * (s.whole + 1) := Nat.mul_le_mul_right _ hdiscount
    _ = n * (s.whole + 1) * (amount * s.supply) := by ring
    _ ≤ m * s.whole * (amount * s.supply) := Nat.mul_le_mul_right _ hroom
    _ = amount * s.whole * (m * s.supply) := by ring

/-! ### Rounded to the nearest -/

theorem paid_le_charged (shares : Nat) : s.paid shares ≤ s.charged shares := by
  calc
    s.paid shares ≤ Nat.nearest (shares * s.held) s.supply * s.total / s.innerSupply := by
      apply Nat.div_le_div_right
      exact Nat.mul_le_mul_right _ (Nat.div_le_nearest _ _)
    _ ≤ s.charged shares := Nat.div_le_nearest _ _

/-- What one step rounds down, the other makes up. The first case is that of inner shares rounded down,
where `lost` is what is left of them, and the second that of inner shares rounded up. -/
def Covers (shares : Nat) : Prop :=
  let inner := shares * s.held / s.supply
  let lost := shares * s.held % s.supply
  if 2 * lost < s.supply then
    let left := inner * s.total % s.innerSupply
    if 2 * left < s.innerSupply then left = 0 ∧ lost * s.total = 0
    else lost * s.total ≤ (s.innerSupply - left) * s.supply
  else
    let left := (inner + 1) * s.total % s.innerSupply
    2 * left < s.innerSupply → left * s.supply ≤ (s.supply - lost) * s.total

/-- The amount charged is at least the exact one exactly when the roundings cover each other. -/
theorem charged_covers_iff (hsupply : 0 < s.supply) (hinner : 0 < s.innerSupply) (shares : Nat) :
    shares * s.held * s.total ≤ s.charged shares * s.innerSupply * s.supply ↔ s.Covers shares := by
  have hlost : shares * s.held % s.supply < s.supply := Nat.mod_lt _ hsupply
  have hexact : shares * s.held * s.total =
      shares * s.held / s.supply * s.total * s.supply + shares * s.held % s.supply * s.total := by
    nth_rewrite 1 [← Nat.div_add_mod (shares * s.held) s.supply]
    ring
  rw [hexact]
  simp only [charged, Covers]
  -- From here on only the quotient and the remainder of the first step matter.
  unfold Nat.nearest
  generalize shares * s.held / s.supply = inner
  generalize shares * s.held % s.supply = lost at hlost
  split
  · have hleft : inner * s.total % s.innerSupply < s.innerSupply := Nat.mod_lt _ hinner
    have hsplit : inner * s.total * s.supply =
        inner * s.total / s.innerSupply * s.innerSupply * s.supply +
          inner * s.total % s.innerSupply * s.supply := by
      nth_rewrite 1 [← Nat.div_add_mod (inner * s.total) s.innerSupply]
      ring
    rw [hsplit]
    generalize inner * s.total / s.innerSupply = amount
    generalize inner * s.total % s.innerSupply = left at hleft
    split
    · have hzero : left * s.supply = 0 ↔ left = 0 := by
        rw [Nat.mul_eq_zero, or_iff_left hsupply.ne']
      omega
    · have hup : (amount + 1) * s.innerSupply * s.supply =
          amount * s.innerSupply * s.supply + (left * s.supply + (s.innerSupply - left) * s.supply) := by
        rw [← Nat.add_mul, Nat.add_sub_cancel' hleft.le]
        ring
      rw [hup]
      omega
  · have hleft : (inner + 1) * s.total % s.innerSupply < s.innerSupply := Nat.mod_lt _ hinner
    have hsplit : inner * s.total * s.supply + lost * s.total + (s.supply - lost) * s.total =
        (inner + 1) * s.total / s.innerSupply * s.innerSupply * s.supply +
          (inner + 1) * s.total % s.innerSupply * s.supply := by
      calc
        _ = inner * s.total * s.supply + (lost + (s.supply - lost)) * s.total := by ring
        _ = (inner + 1) * s.total * s.supply := by
            rw [Nat.add_sub_cancel' hlost.le]
            ring
        _ = _ := by
            nth_rewrite 1 [← Nat.div_add_mod ((inner + 1) * s.total) s.innerSupply]
            ring
    generalize (inner + 1) * s.total / s.innerSupply = amount at hsplit
    generalize (inner + 1) * s.total % s.innerSupply = left at hleft hsplit
    split
    · rename_i hdown
      rw [imp_iff_right hdown]
      omega
    · rename_i hup
      have hmore : left * s.supply ≤ s.innerSupply * s.supply := Nat.mul_le_mul_right _ hleft.le
      have hone : (amount + 1) * s.innerSupply * s.supply =
          amount * s.innerSupply * s.supply + s.innerSupply * s.supply := by ring
      rw [hone]
      apply iff_of_true
      · omega
      · intro hdown
        exact absurd hdown hup

end NestedShare

import DynamicAmm.Base.ProductCurve
import DynamicAmm.Client.ConstantProduct

/-!
# The client's constant product curve on signed numbers

The client's numbers have a sign and its curve does not look at it. While the new source balance is
positive, the curve keeps the product over that balance, rounded up; so it pays nothing for a negative
source amount, it charges. Below zero it pays more than the destination balance.
-/

namespace DynamicAmm.Client

open Js

/-! ### The rounded quotient -/

/-- The quotient rounded up is the one number within a divisor above the dividend. -/
theorem roundedUp_unique {lhs rhs p q : Int} (hrhs : 0 < rhs) (hp : (p - 1) * rhs < lhs)
    (hp' : lhs ≤ p * rhs) (hq : (q - 1) * rhs < lhs) (hq' : lhs ≤ q * rhs) : p = q := by
  have hpq : p - 1 < q := lt_of_mul_lt_mul_right (hp.trans_le hq') hrhs.le
  have hqp : q - 1 < p := lt_of_mul_lt_mul_right (hq.trans_le hp') hrhs.le
  omega

theorem roundedUp_neg_ediv (lhs : Int) {rhs : Int} (hrhs : 0 < rhs) :
    (-(-lhs / rhs) - 1) * rhs < lhs ∧ lhs ≤ -(-lhs / rhs) * rhs := by
  have hle := Int.ediv_mul_le (-lhs) hrhs.ne'
  have hlt := Int.lt_ediv_add_one_mul_self (-lhs) hrhs
  constructor <;> linarith

theorem ceilDiv_error {lhs rhs : Int} (hlhs : 0 ≤ lhs) (h : lhs < rhs) :
    ceilDiv lhs rhs = .error "ceilDiv result in zero" := by
  have hdiv : BN.div lhs rhs = .ok 0 :=
    BN.div_eq_ok.mpr ⟨(hlhs.trans_lt h).ne', Int.tdiv_eq_zero_of_lt hlhs h⟩
  simp only [ceilDiv, hdiv]
  rfl

theorem ceilDiv_ok {lhs rhs : Int} (hrhs : 0 < rhs) (h : rhs ≤ lhs) :
    ∃ quotient divisor, ceilDiv lhs rhs = .ok (quotient, divisor) ∧
      (quotient - 1) * rhs < lhs ∧ lhs ≤ quotient * rhs ∧ divisor ≤ rhs := by
  have hlhs : 0 ≤ lhs := hrhs.le.trans h
  have hdiv : BN.div lhs rhs = .ok (lhs / rhs) :=
    BN.div_eq_ok.mpr ⟨hrhs.ne', Int.tdiv_eq_ediv_of_nonneg hlhs⟩
  have hmod : BN.mod lhs rhs = .ok (lhs % rhs) :=
    BN.mod_eq_ok.mpr ⟨hrhs.ne', Int.tmod_eq_emod_of_nonneg hlhs⟩
  have hsplit := Int.emod_add_mul_ediv lhs rhs
  have hmod_nonneg := Int.emod_nonneg lhs hrhs.ne'
  have hmod_lt := Int.emod_lt_of_pos lhs hrhs
  have hpos : 1 ≤ lhs / rhs := (Int.le_ediv_iff_mul_le hrhs).mpr (by omega)
  simp only [ceilDiv, hdiv, hmod]
  by_cases hrem : lhs % rhs > 0
  · have hnext : lhs / rhs + 1 ≠ 0 := by omega
    have hdiv' : BN.div lhs (lhs / rhs + 1) = .ok (lhs.tdiv (lhs / rhs + 1)) :=
      BN.div_eq_ok.mpr ⟨hnext, rfl⟩
    have hmod' : BN.mod lhs (lhs / rhs + 1) = .ok (lhs.tmod (lhs / rhs + 1)) :=
      BN.mod_eq_ok.mpr ⟨hnext, rfl⟩
    have hhigh : lhs ≤ (lhs / rhs + 1) * rhs := by nlinarith
    refine ⟨lhs / rhs + 1, if lhs.tmod (lhs / rhs + 1) > 0 then lhs.tdiv (lhs / rhs + 1) + 1
      else lhs.tdiv (lhs / rhs + 1), ?_, by nlinarith, hhigh, ?_⟩
    · simp only [Bind.bind, Except.bind, if_neg (show lhs / rhs ≠ 0 by omega), if_pos hrem, hdiv', hmod']
      rfl
    · -- The lowered divisor is the dividend over the raised quotient, rounded up again.
      have hsplit' := Int.emod_add_mul_ediv lhs (lhs / rhs + 1)
      rw [Int.tdiv_eq_ediv_of_nonneg hlhs, Int.tmod_eq_emod_of_nonneg hlhs]
      split
      · have hlt : (lhs / rhs + 1) * (lhs / (lhs / rhs + 1)) < (lhs / rhs + 1) * rhs := by linarith
        have := lt_of_mul_lt_mul_left hlt (by omega)
        omega
      · have hle : (lhs / rhs + 1) * (lhs / (lhs / rhs + 1)) ≤ (lhs / rhs + 1) * rhs := by
          have := Int.emod_nonneg lhs hnext
          linarith
        exact le_of_mul_le_mul_left hle (by omega)
  · refine ⟨lhs / rhs, rhs, ?_, by nlinarith, by nlinarith, le_refl _⟩
    simp only [Bind.bind, Except.bind, if_neg (show lhs / rhs ≠ 0 by omega), if_neg hrem]
    rfl

/-- A negative divisor gives a negative quotient: minus one with a remainder would be raised to zero, which
the second division throws on. -/
theorem ceilDiv_neg {lhs rhs quotient divisor : Int} (hlhs : 0 ≤ lhs) (hrhs : rhs < 0)
    (h : ceilDiv lhs rhs = .ok (quotient, divisor)) : quotient < 0 := by
  have hnonpos : lhs.tdiv rhs ≤ 0 := Int.tdiv_nonpos_of_nonneg_of_nonpos hlhs hrhs.le
  have hdiv : BN.div lhs rhs = .ok (lhs.tdiv rhs) := BN.div_eq_ok.mpr ⟨hrhs.ne, rfl⟩
  have hmod : BN.mod lhs rhs = .ok (lhs.tmod rhs) := BN.mod_eq_ok.mpr ⟨hrhs.ne, rfl⟩
  simp only [ceilDiv, hdiv, hmod, Bind.bind, Except.bind] at h
  by_cases hzero : lhs.tdiv rhs = 0
  · rw [if_pos hzero] at h
    cases h
  · rw [if_neg hzero] at h
    by_cases hrem : lhs.tmod rhs > 0
    · simp only [if_pos hrem, BN.div] at h
      by_cases hnext : lhs.tdiv rhs + 1 = 0
      · rw [if_pos hnext] at h
        cases h
      · simp only [if_neg hnext, BN.mod] at h
        obtain ⟨rfl, -⟩ := Prod.mk.inj (Except.ok.inj h)
        omega
    · simp only [if_neg hrem] at h
      obtain ⟨rfl, -⟩ := Prod.mk.inj (Except.ok.inj h)
      omega

/-! ### The amount paid -/

section Curve

variable {s x y o : Int}

/-- With a positive new source balance, the curve pays what is left of the destination balance above the
rounded quotient, and throws when the quotient or the payment is zero. -/
theorem computeOutAmount_eq_ok (hproduct : 0 ≤ x * y) (hnew : 0 < x + s) :
    (∃ out, ConstantProductSwap.computeOutAmount s x y = .ok out ∧ out.outAmount = o) ↔
      x ≠ 0 ∧ x + s ≤ x * y ∧ o ≠ 0 ∧ (y - o - 1) * (x + s) < x * y ∧ x * y ≤ (y - o) * (x + s) := by
  simp only [ConstantProductSwap.computeOutAmount]
  by_cases hsmall : x * y < x + s
  · rw [ceilDiv_error hproduct hsmall]
    constructor
    · rintro ⟨_, h, _⟩
      cases h
    · rintro ⟨_, h, _⟩
      omega
  · obtain ⟨kept, divisor, hceil, hlow, hhigh, -⟩ := ceilDiv_ok hnew (not_lt.mp hsmall)
    rw [hceil]
    have hkept : y - o = kept ↔ (y - o - 1) * (x + s) < x * y ∧ x * y ≤ (y - o) * (x + s) := by
      constructor
      · intro h
        rw [h]
        exact ⟨hlow, hhigh⟩
      · rintro ⟨h, h'⟩
        exact roundedUp_unique hnew h h' hlow hhigh
    rw [← hkept]
    by_cases hzero : y - kept = 0
    · simp only [Bind.bind, Except.bind, if_pos hzero]
      constructor
      · rintro ⟨_, h, _⟩
        cases h
      · rintro ⟨_, _, ho, h⟩
        omega
    · simp only [Bind.bind, Except.bind, if_neg hzero,
        ConstantProductSwap.computeOutAmountWithoutSlippage, BN.div]
      by_cases hx : x = 0
      · simp only [if_pos hx]
        constructor
        · rintro ⟨_, h, _⟩
          cases h
        · rintro ⟨h, _⟩
          exact absurd hx h
      · simp only [if_neg hx]
        constructor
        · rintro ⟨out, h, ho⟩
          obtain rfl := Except.ok.inj h
          simp only at ho
          exact ⟨hx, not_lt.mp hsmall, by omega, by omega⟩
        · rintro ⟨_, _, _, h⟩
          exact ⟨_, rfl, show y - kept = o by omega⟩

variable {out : OutResult}

theorem computeOutAmount_new_ne (h : ConstantProductSwap.computeOutAmount s x y = .ok out) : x + s ≠ 0 := by
  intro hzero
  simp only [ConstantProductSwap.computeOutAmount, ceilDiv, BN.div, if_pos hzero] at h
  cases h

/-- For a source amount the curve pays something. -/
theorem computeOutAmount_pos (hx : 0 ≤ x) (hy : 0 ≤ y) (hs : 0 ≤ s)
    (h : ConstantProductSwap.computeOutAmount s x y = .ok out) : 0 < out.outAmount := by
  have hnew : 0 < x + s := lt_of_le_of_ne (by omega) (computeOutAmount_new_ne h).symm
  obtain ⟨_, _, hne, hlow, _⟩ := (computeOutAmount_eq_ok (mul_nonneg hx hy) hnew).mp ⟨out, h, rfl⟩
  have hlt : (y - out.outAmount - 1) * (x + s) < y * (x + s) := by nlinarith
  have := lt_of_mul_lt_mul_right hlt hnew.le
  omega

/-- For nothing or less, as long as the new source balance is positive, the curve pays nothing or less. -/
theorem computeOutAmount_neg (hx : 0 ≤ x) (hy : 0 ≤ y) (hs : s ≤ 0) (hnew : 0 < x + s)
    (h : ConstantProductSwap.computeOutAmount s x y = .ok out) : out.outAmount < 0 := by
  obtain ⟨_, _, hne, _, hhigh⟩ := (computeOutAmount_eq_ok (mul_nonneg hx hy) hnew).mp ⟨out, h, rfl⟩
  have hle : y * (x + s) ≤ (y - out.outAmount) * (x + s) := by nlinarith
  have := le_of_mul_le_mul_right hle hnew
  omega

/-- For a source amount that leaves a negative balance, the curve pays more than there is. -/
theorem computeOutAmount_gt (hproduct : 0 ≤ x * y) (hnew : x + s < 0)
    (h : ConstantProductSwap.computeOutAmount s x y = .ok out) : y < out.outAmount := by
  rw [ConstantProductSwap.computeOutAmount, bind_eq_ok] at h
  obtain ⟨⟨kept, divisor⟩, hceil, h⟩ := h
  have hkept := ceilDiv_neg hproduct hnew hceil
  by_cases hzero : y - kept = 0
  · simp only [if_pos hzero] at h
    cases h
  · simp only [if_neg hzero] at h
    obtain ⟨_, -, h⟩ := bind_eq_ok.mp h
    obtain rfl := pure_eq_ok.mp h
    simp only
    omega

end Curve

/-- The balance that the constant product curve keeps is the quotient rounded up. -/
theorem keep_roundedUp {amount x y : Nat} (hpos : 0 < x + amount) (hnew_le : x + amount ≤ x * y) :
    ((ProductCurve.keep x y amount : Int) - 1) * (x + amount) < x * y ∧
      (x : Int) * y ≤ (ProductCurve.keep x y amount : Int) * (x + amount) := by
  have hhigh : x * y ≤ (x + amount) * ProductCurve.keep x y amount := ProductCurve.product_le_mul_keep hpos
  have hkeep : 1 ≤ ProductCurve.keep x y amount := by
    have h : 0 < (x + amount) * ProductCurve.keep x y amount := (hpos.trans_le hnew_le).trans_le hhigh
    exact Nat.pos_of_mul_pos_left h
  have hlow : (x + amount) * (ProductCurve.keep x y amount - 1) < x * y :=
    ProductCurve.mul_lt_of_lt_keep hpos (by omega)
  constructor
  · have h : ((x + amount : Nat) : Int) * ((ProductCurve.keep x y amount - 1 : Nat) : Int) <
        ((x * y : Nat) : Int) := by exact_mod_cast hlow
    push_cast [Nat.cast_sub hkeep] at h
    linarith
  · have h : ((x * y : Nat) : Int) ≤ ((x + amount) * ProductCurve.keep x y amount : Nat) := by
      exact_mod_cast hhigh
    push_cast at h
    linarith

theorem ceilDiv_eq_keep {amount x y : Nat} (hpos : 0 < x + amount) (hnew_le : x + amount ≤ x * y) :
    ∃ divisor, ceilDiv (x * y) (x + amount) = .ok ((ProductCurve.keep x y amount : Int), divisor) ∧
      divisor ≤ x + amount := by
  have hpos' : (0 : Int) < x + amount := by exact_mod_cast hpos
  have hnew_le' : (x : Int) + amount ≤ x * y := by exact_mod_cast hnew_le
  obtain ⟨quotient, divisor, hceil, hlow, hhigh, hle⟩ := ceilDiv_ok hpos' hnew_le'
  obtain ⟨hlow', hhigh'⟩ := keep_roundedUp hpos hnew_le
  obtain rfl := roundedUp_unique hpos' hlow hhigh hlow' hhigh'
  exact ⟨divisor, hceil, hle⟩

/-- On natural numbers the curve pays what the constant product curve pays. -/
theorem computeOutAmount_eq_payout {amount x y out : Nat} :
    (∃ result, ConstantProductSwap.computeOutAmount amount x y = .ok result ∧ result.outAmount = out) ↔
      ProductCurve.Pays x y amount ∧ out = ProductCurve.payout x y amount := by
  by_cases hnew : x + amount = 0
  · constructor
    · rintro ⟨result, hresult, _⟩
      exact absurd (by exact_mod_cast hnew) (computeOutAmount_new_ne hresult)
    · rintro ⟨hpays, _⟩
      exact absurd hnew hpays.new_ne
  · have hpos : 0 < x + amount := Nat.pos_of_ne_zero hnew
    have hle : ProductCurve.keep x y amount ≤ y := ProductCurve.keep_le_destination hpos
    rw [computeOutAmount_eq_ok (by positivity) (by exact_mod_cast hpos)]
    have hkept : x + amount ≤ x * y → ((y : Int) - out = ProductCurve.keep x y amount ↔
        ((y : Int) - out - 1) * (x + amount) < x * y ∧ (x : Int) * y ≤ (y - out) * (x + amount)) := by
      intro hnew_le
      obtain ⟨hlow, hhigh⟩ := keep_roundedUp hpos hnew_le
      constructor
      · intro h
        rw [h]
        exact ⟨hlow, hhigh⟩
      · rintro ⟨h, h'⟩
        exact roundedUp_unique (by exact_mod_cast hpos) h h' hlow hhigh
    constructor
    · rintro ⟨_, hnew_le, hout, h⟩
      have hnew_le' : x + amount ≤ x * y := by exact_mod_cast hnew_le
      have heq := (hkept hnew_le').mpr h
      have hpayout : out = ProductCurve.payout x y amount := by
        rw [ProductCurve.payout]
        omega
      exact ⟨⟨hnew, hnew_le', by omega⟩, hpayout⟩
    · rintro ⟨hpays, hout⟩
      have hx : x ≠ 0 := by
        intro hzero
        have := hpays.product_pos
        rw [hzero, zero_mul] at this
        exact lt_irrefl _ this
      have hne := hpays.payout_ne
      refine ⟨by exact_mod_cast hx, by exact_mod_cast hpays.new_le, by omega, (hkept hpays.new_le).mp ?_⟩
      rw [ProductCurve.payout] at hout
      omega

end DynamicAmm.Client

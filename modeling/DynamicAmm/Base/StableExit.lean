import DynamicAmm.Base.StableImbalance

/-!
# What one more unit of a balance is worth

The iteration ends with a step that moves by one at most, and then the number it ends at may still be above
the invariant, by less than one. The equation tells by how much: the excess is small against what one more
unit of either balance takes off. So the number is not above the invariant of any larger balances, as long
as the first balance is at most `4 / 3 * ann` times the second one.
-/

namespace StableCurve

variable {ann x y d q : Int}

/-! ### The excess of the last step -/

/-- What the equation may exceed zero by at the end, without the product of the balances. -/
def excess (x q : Int) : Int := 2 * x * q + 5 * q + 2 * x - 1

theorem poly_newton_le (hann : 2 ≤ ann) (hx : 0 < x) (hy : 0 < y) (hd : 1 ≤ d)
    (hlo : d - 1 ≤ newton ann x y d) (hhi : newton ann x y d ≤ d + 1)
    (hmean : 4 * x * y < newton ann x y d ^ 2) :
    poly ann x y (newton ann x y d) ≤ 4 * x * y + excess x (newton ann x y d) := by
  have hstep := newton_mul_le hann hx hy hd
  have hlost := lost_nonneg hx hy (by omega : 0 ≤ d)
  have hloss : lost x y d ≤ (2 * x - 1) * d + 2 * x * (2 * y - 1) := by
    have := le_mul_flooredRatio hx hy (by omega : 0 ≤ d)
    simp only [lost]
    omega
  simp only [poly, excess]
  refine le_of_mul_le_mul_left ?_ (by omega : 0 < d)
  obtain hq | hq | hq : newton ann x y d = d + 1 ∨ newton ann x y d = d ∨ newton ann x y d = d - 1 := by omega
  · rw [hq] at hstep hmean ⊢
    have := mul_le_mul_of_nonneg_right hloss (by omega : 0 ≤ d + 3)
    nlinarith
  · rw [hq] at hstep ⊢
    have := mul_le_mul_of_nonneg_right hloss (by omega : 0 ≤ d)
    nlinarith
  · rw [hq] at hstep ⊢
    have := mul_le_mul_of_nonneg_right hloss (by omega : 0 ≤ d)
    nlinarith

/-! ### One more unit -/

/-- What one more unit takes off makes up for the excess. -/
def Room (ann x y q z : Int) : Prop := (z + 1) * (excess x q - 4 * x * y * (ann - 1)) ≤ q ^ 3

theorem poly_succ_left_le (hx : 0 < x) (hpoly : poly ann x y q ≤ 4 * x * y + excess x q)
    (hroom : Room ann x y q x) : poly ann (x + 1) y q ≤ 0 := by
  have hsplit : x * poly ann (x + 1) y q =
      (x + 1) * poly ann x y q - q ^ 3 - 4 * x * y * ann * (x + 1) := by
    simp only [poly]
    ring
  have := mul_le_mul_of_nonneg_left hpoly (by omega : 0 ≤ x + 1)
  simp only [Room] at hroom
  refine nonpos_of_mul_nonpos_right (a := x) ?_ hx
  linarith

theorem poly_succ_right_le (hy : 0 < y) (hpoly : poly ann x y q ≤ 4 * x * y + excess x q)
    (hroom : Room ann x y q y) : poly ann x (y + 1) q ≤ 0 := by
  have hsplit : y * poly ann x (y + 1) q =
      (y + 1) * poly ann x y q - q ^ 3 - 4 * x * y * ann * (y + 1) := by
    simp only [poly]
    ring
  have := mul_le_mul_of_nonneg_left hpoly (by omega : 0 ≤ y + 1)
  simp only [Room] at hroom
  refine nonpos_of_mul_nonpos_right (a := y) ?_ hy
  linarith

/-! ### Large invariants -/

/-- The bound that the larger balance needs, where it is the first one. -/
private theorem room_of_cubic (hx : 0 < x) (hq : 18 ≤ q) :
    (x + 1) * (4 * x * q + 10 * q + 4 * x - 2 - 3 * x ^ 2) ≤ 2 * q ^ 3 := by
  rcases le_total x q with hxq | hxq
  · obtain ⟨e, rfl⟩ : ∃ e, q = x + e := ⟨q - x, by ring⟩
    have he : 0 ≤ e := by omega
    have h1 : 0 ≤ (x + e - 18) * (x ^ 2 + x * e + 2 * e ^ 2) := mul_nonneg (by omega) (by positivity)
    nlinarith
  · obtain ⟨e, rfl⟩ : ∃ e, x = q + e := ⟨x - q, by ring⟩
    have he : 0 ≤ e := by omega
    have h1 : 0 ≤ (q - 18) * (q ^ 2 + q * e) := mul_nonneg (by omega) (by positivity)
    have h2 : 0 ≤ (q - 18) * e ^ 2 := mul_nonneg (by omega) (by positivity)
    have h3 : 0 ≤ e ^ 3 := by positivity
    nlinarith

theorem room_left (hann : 2 ≤ ann) (hx : 0 < x) (hy : 0 < y) (hle : 3 * x ≤ 4 * ann * y) (hq : 18 ≤ q) :
    Room ann x y q x := by
  have hcubic := room_of_cubic hx hq
  have hC : 3 * x ^ 2 ≤ 2 * (4 * x * y * (ann - 1)) := by
    have h1 := mul_le_mul_of_nonneg_left hle hx.le
    have h2 : 0 ≤ x * y * (ann - 2) := mul_nonneg (by positivity) (by omega)
    linarith
  have := mul_le_mul_of_nonneg_left hC (by omega : 0 ≤ x + 1)
  simp only [Room, excess]
  linarith

/-- The second balance, where it is the larger one. -/
private theorem room_of_lt (hann : 2 ≤ ann) (hx : 0 < x) (hxy : x < y) (hq : 18 ≤ q) (hsum : q ≤ x + y) :
    Room ann x y q y := by
  have hy : 0 < y := by omega
  have hC : 4 * x * y ≤ 4 * x * y * (ann - 1) := le_mul_of_one_le_right (by positivity) (by omega)
  have hcube : 0 ≤ q ^ 3 := by positivity
  simp only [Room]
  rcases le_or_gt (excess x q) (4 * x * y * (ann - 1)) with hsmall | hlarge
  · refine le_trans (mul_nonpos_of_nonneg_of_nonpos ?_ ?_) hcube
    · omega
    · omega
  · have hexcess : excess x q - 4 * x * y * (ann - 1) ≤ 2 * x * (q - 2 * y) + 5 * q + 2 * x - 1 := by
      simp only [excess]
      linarith
    have hpositive : 0 < excess x q - 4 * x * y * (ann - 1) := by omega
    rcases le_or_gt q y with hqy | hqy
    · have h1 : 2 * x * (q - 2 * y) + 5 * q + 2 * x - 1 ≤ 3 * q + 1 := by nlinarith
      have h2 : y + 1 ≤ 2 * q := by nlinarith
      have h3 := mul_le_mul h2 (hexcess.trans h1) hpositive.le (by omega)
      nlinarith
    · have h1 : 2 * x * (q - 2 * y) + 5 * q + 2 * x - 1 ≤ 7 * q := by nlinarith
      have h2 := mul_le_mul (by omega : y + 1 ≤ q) (hexcess.trans h1) hpositive.le (by omega)
      nlinarith

theorem room_right (hann : 2 ≤ ann) (hx : 0 < x) (hy : 0 < y) (hle : 3 * x ≤ 4 * ann * y) (hq : 18 ≤ q)
    (hsum : q ≤ x + y) : Room ann x y q y := by
  rcases lt_or_ge x y with hxy | hxy
  · exact room_of_lt hann hx hxy hq hsum
  · have hleft := room_left hann hx hy hle hq
    have hcube : 0 ≤ q ^ 3 := by positivity
    simp only [Room] at *
    rcases le_or_gt (excess x q) (4 * x * y * (ann - 1)) with hsmall | hlarge
    · refine le_trans (mul_nonpos_of_nonneg_of_nonpos ?_ ?_) hcube
      · omega
      · omega
    · have := mul_le_mul_of_nonneg_right (by omega : y + 1 ≤ x + 1) (sub_pos.mpr hlarge).le
      linarith

/-! ### Small invariants -/

/-- A larger amplification leaves more room. -/
theorem Room.mono {ann' z : Int} (hx : 0 < x) (hy : 0 < y) (hz : 0 ≤ z) (hle : ann ≤ ann')
    (h : Room ann x y q z) : Room ann' x y q z := by
  have hC := mul_le_mul_of_nonneg_left hle (by positivity : 0 ≤ 4 * x * y)
  have := mul_le_mul_of_nonneg_left hC (by omega : 0 ≤ z + 1)
  simp only [Room] at *
  linarith

def roomNat (ann x y q : Nat) : Bool :=
  let m := max x y + 1
  m * (2 * x * q + 5 * q + 2 * x) ≤ q ^ 3 + m * (4 * x * y * (ann - 1) + 1)

def belowNat (ann x y q : Nat) : Bool :=
  let k := 4 * x * y
  q ^ 3 + k * (ann - 1) * q ≤ k * ann * (x + y)

/-- What the finite check decides at one amplification, for a number whose predecessor is not above the
invariant. -/
def endsNat (ann x y q : Nat) : Bool :=
  3 * x ≤ 4 * ann * y → belowNat ann x y (q - 1) →
    belowNat ann x y q || roomNat ann x y q || (belowNat ann (x + 1) y q && belowNat ann x (y + 1) q)

private theorem endsNat_small : ∀ q ∈ List.range 18, ∀ x ∈ List.range 73, ∀ y ∈ List.range (72 / x + 1),
    0 < x → 0 < y → 4 * x * y < q ^ 2 → q ≤ x + y →
      roomNat (max 5 (leastAnn (3 * x) y)) x y q = true ∧
        ∀ ann ∈ [2, 3, 4], endsNat ann x y q = true := by
  decide +kernel

theorem belowNat_iff {ann x y q : Nat} (hann : 1 ≤ ann) :
    belowNat ann x y q = true ↔ poly (ann : Int) x y q ≤ 0 := by
  simp only [belowNat, poly, decide_eq_true_eq]
  zify [hann]
  rw [sub_nonpos]

theorem room_of_roomNat {ann x y q z : Nat} (hann : 1 ≤ ann) (hz : z ≤ max x y)
    (h : roomNat ann x y q = true) : Room ann x y q z := by
  simp only [roomNat, decide_eq_true_eq] at h
  zify [hann] at h
  simp only [Room, excess]
  rcases le_or_gt (2 * x * q + 5 * q + 2 * x - 1 : Int) (4 * x * y * (ann - 1)) with hsmall | hlarge
  · have : (0 : Int) ≤ q ^ 3 := by positivity
    refine le_trans (mul_nonpos_of_nonneg_of_nonpos ?_ ?_) this
    · omega
    · omega
  · have hz' : (z : Int) + 1 ≤ max (x : Int) y + 1 := by omega
    have := mul_le_mul_of_nonneg_right hz' (sub_pos.mpr hlarge).le
    linarith

/-! ### Every invariant -/

theorem poly_succ_le (hann : 2 ≤ ann) (hx : 0 < x) (hy : 0 < y) (hle : 3 * x ≤ 4 * ann * y) (hq : 1 ≤ q)
    (hsum : q ≤ x + y) (hpred : poly ann x y (q - 1) ≤ 0)
    (hexcess : 4 * x * y < q ^ 2 → poly ann x y q ≤ 4 * x * y + excess x q) :
    poly ann (x + 1) y q ≤ 0 ∧ poly ann x (y + 1) q ≤ 0 := by
  have hbelow : poly ann x y q ≤ 0 → poly ann (x + 1) y q ≤ 0 ∧ poly ann x (y + 1) q ≤ 0 := fun h =>
    ⟨poly_nonpos_of_le (by omega) hx hy (by omega) (by omega) h,
      poly_nonpos_of_le_right (by omega) hx hy (by omega) (by omega) h⟩
  rcases le_or_gt (poly ann x y q) 0 with hzero | habove
  · exact hbelow hzero
  have hmean := four_mul_lt_sq hann hx hy (by omega) hsum habove
  have hroom : Room ann x y q x → Room ann x y q y →
      poly ann (x + 1) y q ≤ 0 ∧ poly ann x (y + 1) q ≤ 0 := fun hleft hright =>
    ⟨poly_succ_left_le hx (hexcess hmean) hleft, poly_succ_right_le hy (hexcess hmean) hright⟩
  rcases le_or_gt 18 q with hlarge | hsmall
  · exact hroom (room_left hann hx hy hle hlarge) (room_right hann hx hy hle hlarge hsum)
  have hxy : x * y ≤ 72 := by nlinarith
  have hx72 : x ≤ 72 := by nlinarith
  lift x to Nat using hx.le
  lift y to Nat using hy.le
  lift q to Nat using by omega
  lift ann to Nat using by omega
  obtain ⟨hnear, hfew⟩ := endsNat_small q (List.mem_range.mpr (by omega)) x (List.mem_range.mpr (by omega)) y
    (by
      rw [List.mem_range, Nat.lt_succ_iff, Nat.le_div_iff_mul_le (by omega), Nat.mul_comm]
      exact_mod_cast hxy)
    (by omega) (by omega) (by exact_mod_cast hmean) (by omega)
  rcases le_or_gt 5 ann with hann5 | hann4
  · have hleast : leastAnn (3 * x) y ≤ ann := leastAnn_le (by omega) (by omega) (by exact_mod_cast hle)
    have hfive : max 5 (leastAnn (3 * x) y) ≤ ann := max_le (by omega) hleast
    have hmono : ∀ z : Nat, z ≤ max x y → Room ann x y q z := fun z hz =>
      (room_of_roomNat (by omega) hz hnear).mono (by omega) (by omega) (by omega) (by omega)
    exact hroom (hmono x (le_max_left x y)) (hmono y (le_max_right x y))
  · have hends := hfew ann (by
      simp only [List.mem_cons, List.not_mem_nil, or_false]
      omega)
    have hone : 1 ≤ ann := by omega
    have hpred' : belowNat ann x y (q - 1) = true := by
      rw [belowNat_iff hone, Nat.cast_sub (by omega)]
      exact hpred
    simp only [endsNat, decide_eq_true_eq, Bool.or_eq_true, Bool.and_eq_true] at hends
    rcases hends (by exact_mod_cast hle) hpred' with (hzero | hnat) | ⟨hleft, hright⟩
    · exact hbelow ((belowNat_iff hone).mp hzero)
    · exact hroom (room_of_roomNat hone (le_max_left x y) hnat) (room_of_roomNat hone (le_max_right x y) hnat)
    · exact ⟨by exact_mod_cast (belowNat_iff hone).mp hleft, by exact_mod_cast (belowNat_iff hone).mp hright⟩

end StableCurve

import DynamicAmm.Base.Convergence
import DynamicAmm.Base.StableSettling

/-!
# How far apart the balances may be

A first balance of at most `4 * ann` times the second one makes every iterate settle, with two exceptions.
For all but small invariants the most that the divisions can lose is little enough; the others are checked
one by one. A second balance that is not too far above the first one either keeps the sum, where the
iteration starts, within a fixed multiple of the invariant.
-/

namespace StableCurve

open Convergence

variable {ann x y d n : Int}

/-! ### The loss against the derivative -/

/-- What suffices, by the most that the divisions can lose. -/
theorem settling_of_le (hx : 0 < x) (hy : 0 < y) (hd : 1 ≤ d)
    (h : 2 * x * (d - 1) * (d + 6) + 6 * (4 * x * y) ≤
      3 * d ^ 3 - 2 * d ^ 2 + 5 * d + 4 * x * y * (ann - 2) * d) : Settling ann x y d := by
  have hratio := le_mul_flooredRatio hx hy (by omega : 0 ≤ d)
  have hlost : lost x y d ≤ (2 * x - 1) * d + 2 * x * (2 * y - 1) := by
    simp only [lost]
    omega
  have hscaled := mul_le_mul_of_nonneg_right hlost (by omega : 0 ≤ d + 6)
  simp only [Settling]
  linarith

/-- Balances that are not far apart lose little. -/
theorem settling_of_near (hann : 2 ≤ ann) (hx : 0 < x) (hy : 0 < y) (hd : 37 ≤ d)
    (hnear : 5 * x ≤ 6 * d) (hmean : 4 * x * y ≤ d ^ 2 + 2 * d) : Settling ann x y d := by
  apply settling_of_le hx hy (by omega)
  have h1 : 5 * x * ((d - 1) * (d + 6)) ≤ 6 * d * ((d - 1) * (d + 6)) :=
    mul_le_mul_of_nonneg_right hnear (mul_nonneg (by omega) (by omega))
  have h2 : 0 ≤ 4 * x * y * (ann - 2) * d :=
    mul_nonneg (mul_nonneg (by positivity) (by omega)) (by omega)
  nlinarith

/-- The bound that balances far apart need, in five times the first of them. -/
private theorem cubic_of_far {s : Int} (hd : 37 ≤ d) (hs : 6 * d < s) :
    125 * (2 * d + 6) * (d + 1) ^ 3 + 50 * s * (d - 1) * (d + 6) * (d + 1) ≤
      125 * (3 * d ^ 3 - 2 * d ^ 2 + 5 * d) * (d + 1) +
        s ^ 2 * (5 * d * (d + 1) + (2 * d + 6) * (s - 5 * d)) := by
  obtain ⟨e, rfl⟩ : ∃ e, d = 37 + e := ⟨d - 37, by ring⟩
  obtain ⟨w, rfl⟩ : ∃ w, s = 6 * (37 + e) + w := ⟨s - 6 * (37 + e), by ring⟩
  have he : 0 ≤ e := by omega
  have hw : 0 ≤ w := by omega
  have hslack : 0 ≤ 2 * e * w ^ 3 + 31 * e ^ 2 * w ^ 2 + 106 * e ^ 3 * w + 77 * e ^ 4 + 2377 * e * w ^ 2 +
      11814 * e ^ 2 * w + 8617 * e ^ 3 + 80 * w ^ 3 + 438944 * e * w + 321684 * e ^ 2 + 45510 * w ^ 2 +
      4015646 * e + 5437080 * w + 359260 := by positivity
  linarith

/-- For balances far apart the amplification makes up for what they lose. -/
theorem settling_of_far (hx : 0 < x) (hy : 0 < y) (hd : 37 ≤ d)
    (hfar : 6 * d < 5 * x) (hle : x ≤ 4 * ann * y) (habove : 0 < poly ann x y (d + 1)) :
    Settling ann x y d := by
  apply settling_of_le hx hy (by omega)
  have hA : x ^ 2 ≤ 4 * x * y * ann := by nlinarith
  have hK : 4 * x * y * (d + 1) < (d + 1) ^ 3 - 4 * x * y * ann * (x - d) := by
    have : 4 * x * y * ann * (x - d) ≤ 4 * x * y * ann * (x + y - (d + 1)) := by
      apply mul_le_mul_of_nonneg_left (by omega)
      nlinarith
    simp only [poly] at habove
    linarith
  generalize 4 * x * y = K at *
  generalize hT : K * ann = A at *
  refine le_of_mul_le_mul_right ?_ (by omega : 0 < d + 1)
  have h1 := mul_le_mul_of_nonneg_right hK.le (by omega : 0 ≤ 2 * d + 6)
  have h2 : x ^ 2 * (d * (d + 1) + (2 * d + 6) * (x - d)) ≤ A * (d * (d + 1) + (2 * d + 6) * (x - d)) := by
    apply mul_le_mul_of_nonneg_right hA
    have : 0 ≤ (2 * d + 6) * (x - d) := mul_nonneg (by omega) (by omega)
    positivity
  have h3 := cubic_of_far hd hfar
  nlinarith

/-! ### Small invariants -/

/-- A larger amplification settles what a smaller one does. -/
theorem Settling.mono {ann' : Int} (hx : 0 < x) (hy : 0 < y) (hd : 0 ≤ d) (hle : ann ≤ ann')
    (h : Settling ann x y d) : Settling ann' x y d := by
  have := mul_le_mul_of_nonneg_left hle (by positivity : 0 ≤ 4 * x * y * d)
  simp only [Settling] at *
  linarith

/-- The least amplification that balances may have whose ratio it bounds. -/
def leastAnn (x y : Nat) : Nat := max 2 ((x + 4 * y - 1) / (4 * y))

theorem leastAnn_le {x y ann : Nat} (hy : 0 < y) (hann : 2 ≤ ann) (hle : x ≤ 4 * ann * y) :
    leastAnn x y ≤ ann := by
  apply max_le hann
  rw [Nat.div_le_iff_le_mul_add_pred (by omega)]
  calc x + 4 * y - 1 ≤ 4 * ann * y + 4 * y - 1 := by omega
    _ = 4 * y * ann + (4 * y - 1) := by
      rw [Nat.add_sub_assoc (by omega)]
      ring

/-- What is above the invariant is above it for a smaller amplification too, up to the sum. -/
theorem poly_pos_of_ann_le {ann' : Int} (hx : 0 < x) (hy : 0 < y) (hann : 1 ≤ ann') (hle : ann' ≤ ann)
    (hd : 0 ≤ d) (hsum : d ≤ x + y) (habove : 0 < poly ann x y (d + 1)) : 0 < poly ann' x y (d + 1) := by
  rcases eq_or_lt_of_le hsum with rfl | hlt
  · have hsum : 0 ≤ poly ann' x y (x + y) := poly_sum_nonneg hx.le hy.le
    have hC := mul_nonneg (by positivity : 0 ≤ 4 * x * y) (sub_nonneg.mpr hann)
    have hcube : 0 < (x + y + 1) ^ 3 - (x + y) ^ 3 := by
      have : 0 < 3 * (x + y) ^ 2 + 3 * (x + y) + 1 := by positivity
      linarith
    simp only [poly] at *
    linarith
  · have := mul_nonneg (mul_nonneg (by positivity : 0 ≤ 4 * x * y) (sub_nonneg.mpr hle))
      (by omega : 0 ≤ x + y - (d + 1))
    simp only [poly] at *
    linarith

/-- The balances that the finite checks range over, at the least amplification. -/
def settlesNat (x y d : Nat) : Bool :=
  let k := 4 * x * y
  (d + 1) ^ 3 + k * leastAnn x y * (d + 1) ≤ k * (d + 1) + k * leastAnn x y * (x + y) ||
    d ^ 3 * (d + 6) + d * (3 * d + 1) ≤
      k * (d * d / (x * 2) * d / (y * 2)) * (d + 6) + d * (3 * d ^ 2 + k * (leastAnn x y - 1))

private theorem settlesNat_small : ∀ d ∈ List.range 18, ∀ x ∈ List.range 82, ∀ y ∈ List.range (81 / x + 1),
    0 < x → 0 < y → d ≤ x + y → ¬ (x = 3 ∧ y = 1) → ¬ (x = 5 ∧ y = 3) → settlesNat x y d = true := by
  decide +kernel

private theorem settlesNat_between : ∀ d ∈ List.range 37, ∀ i ∈ List.range 20,
    ∀ y ∈ List.range ((d + 1) * (d + 1) / (4 * (d + 1 + i)) + 1),
    18 ≤ d → 0 < y → settlesNat (d + 1 + i) y d = true := by
  decide +kernel

theorem settling_of_settlesNat {x y d ann : Nat} (hx : 0 < x) (hy : 0 < y) (hann : 2 ≤ ann)
    (hle : x ≤ 4 * ann * y) (hsum : d ≤ x + y) (habove : 0 < poly (ann : Int) x y (d + 1))
    (h : settlesNat x y d = true) : Settling ann x y d := by
  simp only [settlesNat, Bool.or_eq_true, decide_eq_true_eq] at h
  have hleast := leastAnn_le hy hann hle
  have htwo : 2 ≤ leastAnn x y := le_max_left _ _
  suffices hsettling : Settling (leastAnn x y) x y d from
    hsettling.mono (by omega) (by omega) (by omega) (by omega)
  have habove' : 0 < poly (leastAnn x y : Int) x y (d + 1) :=
    poly_pos_of_ann_le (by omega) (by omega) (by omega) (by omega) (by omega) (by omega) habove
  generalize leastAnn x y = ann' at *
  zify [(by omega : 1 ≤ ann')] at h
  simp only [poly] at habove'
  simp only [Settling, lost, flooredRatio]
  rcases h with h | h
  · linarith
  · linarith

/-! ### Every invariant -/

/-- Not far above the invariant, the balances are not much further apart than it is large. -/
theorem sq_mul_sub_lt (hx : 0 < x) (hy : 0 < y) (hd : 0 ≤ d) (hdx : d ≤ x) (hle : x ≤ 4 * ann * y)
    (habove : 0 < poly ann x y (d + 1)) : x ^ 2 * (x - d) < (d + 1) ^ 3 := by
  have hA : x ^ 2 ≤ 4 * x * y * ann := by nlinarith
  have h1 : x ^ 2 * (x - d) ≤ 4 * x * y * ann * (x - d) := mul_le_mul_of_nonneg_right hA (by omega)
  have hann : 0 ≤ 4 * x * y * ann := (sq_nonneg x).trans hA
  have h2 : 4 * x * y * ann * (x - d) ≤ 4 * x * y * ann * (x + y - (d + 1)) :=
    mul_le_mul_of_nonneg_left (by omega) hann
  have h3 : 0 ≤ 4 * x * y * (d + 1) := by positivity
  simp only [poly] at habove
  linarith

theorem settling_of_le_ann (hann : 2 ≤ ann) (hx : 0 < x) (hy : 0 < y) (hd : 1 ≤ d) (hle : x ≤ 4 * ann * y)
    (hsum : d ≤ x + y) (habove : 0 < poly ann x y (d + 1)) (h31 : ¬ (x = 3 ∧ y = 1))
    (h53 : ¬ (x = 5 ∧ y = 3)) : Settling ann x y d := by
  have hmean : 4 * x * y < (d + 1) ^ 2 := by
    rcases eq_or_lt_of_le hsum with rfl | hlt
    · nlinarith [sq_nonneg (x - y)]
    · exact four_mul_lt_sq hann hx hy (by omega) (by omega) habove
  have hmean' : 4 * x * y ≤ d ^ 2 + 2 * d := by linarith
  rcases le_or_gt 37 d with hlarge | hsmall
  · rcases le_or_gt (5 * x) (6 * d) with hnear | hfar
    · exact settling_of_near hann hx hy hlarge hnear hmean'
    · exact settling_of_far hx hy hlarge hfar hle habove
  rcases le_or_gt 18 d with hmiddle | hfew
  · rcases le_or_gt x d with hxd | hxd
    · apply settling_of_le hx hy hd
      have h1 : x * ((d - 1) * (d + 6)) ≤ d * ((d - 1) * (d + 6)) :=
        mul_le_mul_of_nonneg_right hxd (mul_nonneg (by omega) (by omega))
      have h2 : 0 ≤ 4 * x * y * (ann - 2) * d :=
        mul_nonneg (mul_nonneg (by positivity) (by omega)) (by omega)
      nlinarith
    · have hnot_far := sq_mul_sub_lt hx hy (by omega) hxd.le hle habove
      have hx20 : x < d + 21 := by
        by_contra hmore
        have : (d + 21) ^ 2 * 21 ≤ x ^ 2 * (x - d) := by
          apply mul_le_mul (pow_le_pow_left₀ (by omega) (by omega) 2) (by omega) (by norm_num) (sq_nonneg x)
        nlinarith
      lift x to Nat using hx.le
      lift y to Nat using hy.le
      lift d to Nat using by omega
      lift ann to Nat using by omega
      obtain ⟨i, rfl⟩ : ∃ i, x = d + 1 + i := ⟨x - (d + 1), by omega⟩
      apply settling_of_settlesNat (by omega) (by omega) (by omega) (by exact_mod_cast hle) (by omega) habove
      refine settlesNat_between d (List.mem_range.mpr (by omega)) i (List.mem_range.mpr (by omega)) y ?_
        (by omega) (by omega)
      rw [List.mem_range, Nat.lt_succ_iff, Nat.le_div_iff_mul_le (by omega)]
      zify
      push_cast at hmean
      linarith
  · have hxy : x * y ≤ 80 := by nlinarith
    lift x to Nat using hx.le
    lift y to Nat using hy.le
    lift d to Nat using by omega
    lift ann to Nat using by omega
    apply settling_of_settlesNat (by omega) (by omega) (by omega) (by exact_mod_cast hle) (by omega) habove
    refine settlesNat_small d (List.mem_range.mpr (by omega)) x (List.mem_range.mpr ?_) y ?_ (by omega) (by omega)
      (by omega) (by omega) (by omega)
    · nlinarith
    · rw [List.mem_range, Nat.lt_succ_iff, Nat.le_div_iff_mul_le (by omega), Nat.mul_comm]
      zify
      linarith

/-! ### The approach to the invariant -/

/-- The last integer that is not above the invariant. -/
theorem exists_floor (hann : 2 ≤ ann) (hx : 0 < x) (hy : 0 < y) :
    ∃ n, 1 ≤ n ∧ n ≤ x + y ∧ poly ann x y n ≤ 0 ∧ 0 < poly ann x y (n + 1) := by
  have hone : poly ann x y 1 ≤ 0 := by
    have h1 : 1 ≤ x * y := by nlinarith
    have h2 : 4 * x * y * ann * 2 ≤ 4 * x * y * ann * (x + y) :=
      mul_le_mul_of_nonneg_left (by omega) (by positivity)
    have h3 : x * y ≤ x * y * ann := le_mul_of_one_le_right (by omega) (by omega)
    simp only [poly]
    linarith
  have hsum : 0 < poly ann x y (x + y + 1) := by
    have hC : 0 ≤ 4 * x * y * (ann - 1) := mul_nonneg (by positivity) (by omega)
    have hsquare : 0 ≤ poly ann x y (x + y) := poly_sum_nonneg hx.le hy.le
    have hcube : 0 < 3 * (x + y) ^ 2 + 3 * (x + y) + 1 := by positivity
    simp only [poly] at *
    linarith
  have hbound : ∀ d, 0 ≤ d → poly ann x y d ≤ 0 → d < x + y + 1 := fun d _ hd =>
    lt_of_poly (by omega) hx.le hy.le (by omega) hd hsum
  obtain ⟨n, ⟨hn, hbelow⟩, hmax⟩ := Int.exists_greatest_of_bdd (P := fun d => 0 ≤ d ∧ poly ann x y d ≤ 0)
    ⟨x + y, fun d hd => Int.lt_add_one_iff.mp (hbound d hd.1 hd.2)⟩ ⟨1, by omega, hone⟩
  refine ⟨n, hmax 1 ⟨by omega, hone⟩, Int.lt_add_one_iff.mp (hbound n hn hbelow), hbelow, ?_⟩
  by_contra hmore
  have := hmax (n + 1) ⟨by omega, not_lt.mp hmore⟩
  omega

structure Iterates (ann x y d : Int) : Prop where
  pos : 1 ≤ d
  le_sum : d ≤ x + y
  above : 0 < poly ann x y (d + 1)

theorem iterates_sum (hann : 2 ≤ ann) (hx : 0 < x) (hy : 0 < y) : Iterates ann x y (x + y) where
  pos := by omega
  le_sum := le_refl _
  above := by
    obtain ⟨n, hn, hnsum, -, habove⟩ := exists_floor hann hx hy
    exact habove.trans_le (poly_mono (by omega) hx.le hy.le (by omega) (by omega))

theorem Iterates.newton (hann : 2 ≤ ann) (hx : 0 < x) (hy : 0 < y) (h31 : ¬ (x = 3 ∧ y = 1))
    (h : Iterates ann x y d) : Iterates ann x y (newton ann x y d) := by
  have hpos := h.pos
  have hden := newton_den_pos hann hx hy hpos
  have hratio := flooredRatio_nonneg hx hy (by omega : 0 ≤ d)
  have hsum : 0 ≤ ann * (x + y) := by positivity
  have habove : 0 < poly ann x y (StableCurve.newton ann x y d + 1) := by
    apply poly_pos_of_newton hx hy hpos (by omega) hratio (mul_flooredRatio_le hx hy (by omega))
    have := Int.lt_ediv_add_one_mul_self (d * (ann * (x + y) + flooredRatio x y d * 2)) hden
    simp only [StableCurve.newton]
    linarith
  have hnonneg : 0 ≤ StableCurve.newton ann x y d := Int.ediv_nonneg (by positivity) hden.le
  refine ⟨?_, ?_, habove⟩
  · obtain ⟨n, hn, -, hbelow, -⟩ := exists_floor hann hx hy
    have := lt_of_poly (by omega) hx.le hy.le (by omega) hbelow habove
    omega
  · have := newton_lt_succ_sum hann hx hy hpos h.le_sum h.above (by omega)
    rw [← Int.lt_add_one_iff]
    apply Int.ediv_lt_of_lt_mul hden
    linarith

theorem approach_newton (hann : 2 ≤ ann) (hx : 0 < x) (hy : 0 < y) (hle : x ≤ 4 * ann * y)
    (h31 : ¬ (x = 3 ∧ y = 1)) (h53 : ¬ (x = 5 ∧ y = 3)) (hn : 0 ≤ n) (hbelow : poly ann x y n ≤ 0)
    (habove : 0 < poly ann x y (n + 1)) : Approach (newton ann x y) (Iterates ann x y) n := by
  have hsettling : ∀ d, Iterates ann x y d → Settling ann x y d := fun d hd =>
    settling_of_le_ann hann hx hy hd.pos hle hd.le_sum hd.above h31 h53
  have hfloor : ∀ d, Iterates ann x y d → n ≤ d := fun d hd => by
    have hpos := hd.pos
    have := lt_of_poly (by omega) hx.le hy.le (by omega) hbelow hd.above
    omega
  constructor
  · exact fun d hd => hd.newton hann hx hy h31
  · exact hfloor
  · exact fun d hd => (hsettling d hd).newton_le_succ hann hx hy hd.pos hd.above
  · exact fun d hd => (hsettling d hd).newton_sub_mul_le hann hx hy hd.pos hn (hfloor d hd) habove
  · exact fun d hd hfar => (hsettling d hd).four_mul_newton_le hann hx hy hd.pos (by omega) hfar habove

/-- The sum of balances that are not too far apart, against a number above their invariant. -/
theorem sum_le_mul {u : Int} (hann : 2 ≤ ann) (hx : 0 < x) (hy : 0 < y) (hu : 0 < u) (hle : x ≤ 4 * ann * y)
    (hle' : y ≤ 25000 * ann * x) (habove : 0 < poly ann x y u) : x + y ≤ 19 * u := by
  by_contra hfar
  rw [not_le] at hfar
  have hxy : 0 < x * y := by positivity
  have hcube : 19 * (19 * 19 * u ^ 3) ≤ (x + y) ^ 3 := by
    have := pow_le_pow_left₀ (by omega : 0 ≤ 19 * u) hfar.le 3
    linarith
  have hlinear : 4 * x * y * (ann - 1) * (19 * u) ≤ 4 * x * y * (ann - 1) * (x + y) :=
    mul_le_mul_of_nonneg_left hfar.le (mul_nonneg (by positivity) (by omega))
  have h1 : 361 * (4 * x * y * (18 * ann)) * (x + y) < (x + y) ^ 2 * (x + y) := by
    have : 0 ≤ 4 * x * y * (x + y) := by positivity
    simp only [poly] at habove
    linarith
  have h2 : 361 * (4 * x * y * (18 * ann)) < (x + y) ^ 2 := lt_of_mul_lt_mul_right h1 (by omega)
  have h3 : x * x ≤ 4 * ann * y * x := mul_le_mul_of_nonneg_right hle hx.le
  have h4 : y * y ≤ 25000 * ann * x * y := mul_le_mul_of_nonneg_right hle' hy.le
  have h5 : 2 * (x * y) ≤ ann * (x * y) := mul_le_mul_of_nonneg_right hann hxy.le
  linarith

end StableCurve

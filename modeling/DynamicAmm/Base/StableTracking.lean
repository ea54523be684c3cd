import DynamicAmm.Base.StableImbalance

/-!
# The floored iteration follows the exact one

The exact Newton iteration for the invariant scales with the balances and grows with them, whether it has
come to the invariant or not. The floored iteration stays next to it: never more than three below, because
a step takes a third off every distance, and never above the iteration for slightly larger balances,
because what the two divisions lose is less than what one more unit of a balance makes up for. So the
floored iteration scales with the balances as well, up to a few units.
-/

namespace StableCurve

/-! ### Exact steps -/

section Exact

variable {ann x y d u v root c : ℝ}

/-- The positive root of the equation. -/
structure IsInvariant (ann x y root : ℝ) : Prop where
  pos : 0 < root
  le_sum : root ≤ x + y
  poly_eq : poly ann x y root = 0

theorem exactStep_den_pos (hann : 1 ≤ ann) (hx : 0 < x) (hy : 0 < y) (hd : 0 < d) :
    0 < 4 * x * y * (ann - 1) + 3 * d ^ 2 := by
  have : 0 ≤ 4 * x * y * (ann - 1) := mul_nonneg (by positivity) (by linarith)
  positivity

theorem exactStep_smul (hc : c ≠ 0) (ann x y d : ℝ) :
    exactStep ann (c * x) (c * y) (c * d) = c * exactStep ann x y d := by
  have hnum : 4 * (c * x) * (c * y) * ann * (c * x + c * y) + 2 * (c * d) ^ 3 =
      c ^ 2 * (c * (4 * x * y * ann * (x + y) + 2 * d ^ 3)) := by ring
  have hden : 4 * (c * x) * (c * y) * (ann - 1) + 3 * (c * d) ^ 2 =
      c ^ 2 * (4 * x * y * (ann - 1) + 3 * d ^ 2) := by ring
  rw [exactStep, hnum, hden, mul_div_mul_left _ _ (pow_ne_zero 2 hc), mul_div_assoc]
  rfl

/-- Beyond the root a step takes a part of the distance off. -/
theorem exactStep_sub_root (hann : 1 ≤ ann) (hx : 0 < x) (hy : 0 < y) (hd : 0 < d)
    (hroot : IsInvariant ann x y root) :
    exactStep ann x y d - root =
      (d - root) ^ 2 * (2 * d + root) / (4 * x * y * (ann - 1) + 3 * d ^ 2) := by
  have hden := exactStep_den_pos hann hx hy hd
  rw [exactStep, eq_div_iff hden.ne', sub_mul, div_mul_cancel₀ _ hden.ne']
  have hpoly := hroot.poly_eq
  simp only [poly] at hpoly
  linear_combination -hpoly

theorem root_le_exactStep (hann : 1 ≤ ann) (hx : 0 < x) (hy : 0 < y) (hd : 0 < d)
    (hroot : IsInvariant ann x y root) : root ≤ exactStep ann x y d := by
  have hpos := hroot.pos
  have hsub := exactStep_sub_root hann hx hy hd hroot
  have hden := exactStep_den_pos hann hx hy hd
  have : 0 ≤ (d - root) ^ 2 * (2 * d + root) / (4 * x * y * (ann - 1) + 3 * d ^ 2) := by positivity
  linarith

theorem exactStep_le_self (hann : 1 ≤ ann) (hx : 0 < x) (hy : 0 < y) (hd : 0 < d)
    (hpoly : 0 ≤ poly ann x y d) : exactStep ann x y d ≤ d := by
  rw [exactStep, div_le_iff₀ (exactStep_den_pos hann hx hy hd)]
  simp only [poly] at hpoly
  linarith

/-- Above the root a step from further away comes out further away. -/
theorem exactStep_mono (hann : 1 ≤ ann) (hx : 0 < x) (hy : 0 < y) (hv : 0 < v)
    (hpoly : 0 ≤ poly ann x y v) (hvu : v ≤ u) : exactStep ann x y v ≤ exactStep ann x y u := by
  rw [exactStep, exactStep, div_le_div_iff₀ (exactStep_den_pos hann hx hy hv)
    (exactStep_den_pos hann hx hy (hv.trans_le hvu))]
  simp only [poly] at hpoly
  have hcoef : 0 ≤ 4 * x * y * (ann - 1) := mul_nonneg (by positivity) (by linarith)
  generalize 4 * x * y * (ann - 1) = Q at *
  generalize 4 * x * y * ann * (x + y) = c at *
  have hsub : 0 ≤ u - v := by linarith
  have hsum : 0 ≤ u + v := by linarith
  have h1 : 0 ≤ 3 * ((u - v) * (u + v)) * (v ^ 3 + Q * v - c) := by
    apply mul_nonneg (by positivity)
    linarith
  have h2 : 0 ≤ (u - v) ^ 2 * (2 * u + v) * (Q + 3 * v ^ 2) := by
    have : 0 ≤ 2 * u + v := by linarith
    positivity
  linarith

/-- Up to the sum of the balances a step shortens every distance by a third. -/
theorem exactStep_sub_le (hann : 1 ≤ ann) (hx : 0 < x) (hy : 0 < y) (hv : 0 < v) (hvu : v ≤ u)
    (hu : u ≤ x + y) : 3 * (exactStep ann x y u - exactStep ann x y v) ≤ 2 * (u - v) := by
  have hcoef : 0 ≤ 4 * x * y * (ann - 1) := mul_nonneg (by positivity) (by linarith)
  have hlinear : 4 * x * y * (ann - 1) * u ≤ 4 * x * y * ann * (x + y) := by
    have h1 := mul_le_mul_of_nonneg_left hu hcoef
    have h2 : 0 ≤ 4 * x * y * (x + y) := by positivity
    linarith
  have hden : ∀ {d : ℝ}, 0 < d → 0 < 4 * x * y * (ann - 1) + 3 * d ^ 2 := exactStep_den_pos hann hx hy
  have hsplit : ∀ {d : ℝ}, 0 < d → 3 * exactStep ann x y d = 2 * d +
      (3 * (4 * x * y * ann * (x + y)) - 2 * (4 * x * y * (ann - 1)) * d) /
        (4 * x * y * (ann - 1) + 3 * d ^ 2) := by
    intro d hd
    rw [exactStep, ← mul_div_assoc, eq_comm, ← eq_sub_iff_add_eq', div_eq_iff (hden hd).ne', sub_mul,
      div_mul_cancel₀ _ (hden hd).ne']
    ring
  rw [mul_sub, hsplit (hv.trans_le hvu), hsplit hv]
  have hfalls : (3 * (4 * x * y * ann * (x + y)) - 2 * (4 * x * y * (ann - 1)) * u) /
        (4 * x * y * (ann - 1) + 3 * u ^ 2) ≤
      (3 * (4 * x * y * ann * (x + y)) - 2 * (4 * x * y * (ann - 1)) * v) /
        (4 * x * y * (ann - 1) + 3 * v ^ 2) := by
    have hless := mul_le_mul_of_nonneg_left hvu hcoef
    have hpos : 0 ≤ 4 * x * y * ann * (x + y) := by positivity
    exact div_le_div₀ (by linarith) (by linarith) (hden hv) (by gcongr)
  linarith

/-- A step for larger balances goes less far down. -/
theorem exactStep_le_of_le {x' y' : ℝ} (hann : 1 ≤ ann) (hx : 0 < x) (hy : 0 < y) (hxx' : x ≤ x')
    (hyy' : y ≤ y') (hd : 0 < d) (hle : 2 * d ≤ 3 * (x + y)) : exactStep ann x y d ≤ exactStep ann x' y' d := by
  have hx' : 0 < x' := hx.trans_le hxx'
  have hy' : 0 < y' := hy.trans_le hyy'
  rw [exactStep, exactStep, div_le_div_iff₀ (exactStep_den_pos hann hx hy hd) (exactStep_den_pos hann hx' hy' hd)]
  have hproduct : 4 * x * y ≤ 4 * x' * y' := by
    have := mul_le_mul hxx' hyy' hy.le hx'.le
    linarith
  have hpos : 0 < 4 * x * y := by positivity
  have hsum : x + y ≤ x' + y' := by linarith
  have hsum_pos : 0 < x + y := by positivity
  generalize 4 * x * y = P at *
  generalize 4 * x' * y' = P' at *
  generalize x + y = S at *
  generalize x' + y' = S' at *
  have hpos' : 0 < P' := hpos.trans_le hproduct
  have hmore : 0 ≤ S' - S := by linarith
  have h1 : 0 ≤ ann * (ann - 1) * (P * P') * (S' - S) := by
    have : 0 ≤ ann - 1 := by linarith
    positivity
  have h2 : 0 ≤ 3 * d ^ 2 * ann * P' * (S' - S) := by positivity
  have h3 : 0 ≤ d ^ 2 * (P' - P) * (3 * ann * S - 2 * d * (ann - 1)) := by
    apply mul_nonneg (mul_nonneg (by positivity) (by linarith))
    have := mul_le_mul_of_nonneg_left hle (by linarith : 0 ≤ ann - 1)
    linarith
  linarith

theorem exists_invariant (hann : 1 ≤ ann) (hx : 0 < x) (hy : 0 < y) : ∃ root, IsInvariant ann x y root := by
  have hcontinuous : ContinuousOn (fun d => poly ann x y d) (Set.Icc 0 (x + y)) := by
    simp only [poly]
    fun_prop
  have hzero : poly ann x y 0 < 0 := by
    simp only [poly]
    have : 0 < 4 * x * y * ann * (x + y) := by positivity
    linarith
  have hsum : 0 ≤ poly ann x y (x + y) := by
    have h : poly ann x y (x + y) = (x + y) * (x - y) ^ 2 := by
      simp only [poly]
      ring
    rw [h]
    positivity
  obtain ⟨root, ⟨hnonneg, hle⟩, hroot⟩ :=
    intermediate_value_Icc (by positivity : 0 ≤ x + y) hcontinuous ⟨hzero.le, hsum⟩
  simp only at hroot
  refine ⟨root, lt_of_le_of_ne hnonneg ?_, hle, hroot⟩
  rintro rfl
  exact hzero.ne hroot

/-- The root is not below twice the geometric mean of the balances. -/
theorem four_mul_le_root_sq (hann : 1 ≤ ann) (hx : 0 < x) (hy : 0 < y) (hroot : IsInvariant ann x y root) :
    4 * x * y ≤ root ^ 2 := by
  by_contra hlt
  have hcube : root * root ^ 2 < root * (4 * x * y) := mul_lt_mul_of_pos_left (not_le.mp hlt) hroot.pos
  have hsum : 4 * x * y * ann * root ≤ 4 * x * y * ann * (x + y) :=
    mul_le_mul_of_nonneg_left hroot.le_sum (by positivity)
  have hpoly := hroot.poly_eq
  simp only [poly] at hpoly
  linarith

end Exact

/-! ### The exact iteration -/

section Iteration

variable {ann x y root c : ℝ}

/-- Newton's method from the sum of the balances. -/
noncomputable def exactIterate (ann x y : ℝ) : Nat → ℝ
  | 0 => x + y
  | k + 1 => exactStep ann x y (exactIterate ann x y k)

theorem IsInvariant.poly_nonneg (hroot : IsInvariant ann x y root) (hann : 1 ≤ ann) (hx : 0 < x) (hy : 0 < y)
    {d : ℝ} (hle : root ≤ d) : 0 ≤ poly ann x y d :=
  hroot.poly_eq.ge.trans (poly_mono hann hx.le hy.le hroot.pos.le hle)

theorem IsInvariant.smul (hroot : IsInvariant ann x y root) (hc : 0 < c) :
    IsInvariant ann (c * x) (c * y) (c * root) where
  pos := mul_pos hc hroot.pos
  le_sum := by
    rw [← mul_add]
    exact mul_le_mul_of_nonneg_left hroot.le_sum hc.le
  poly_eq := by rw [poly_smul, hroot.poly_eq, mul_zero]

/-- From less than one below the invariant, a step for slightly larger balances does not go far over theirs. -/
theorem exactStep_wide_le {d e : ℝ} (hann : 1 ≤ ann) (hx : 0 < x) (hy : 0 < y) (hroot : IsInvariant ann x y root)
    (he : 0 < e) (hten : 10 * e ≤ 1) (hunit : 2 ≤ e * root) (hnear : root ≤ d + 1)
    (hbelow : d ≤ (1 + e) * root) : exactStep ann ((1 + e) * x) ((1 + e) * y) d ≤ (1 + 2 * e) * root := by
  have hpos := hroot.pos
  have htwenty : 20 ≤ root := by nlinarith
  have hd : 0 < d := by linarith
  have hwide : 0 < 1 + e := by linarith
  have hsub := exactStep_sub_root hann (mul_pos hwide hx) (mul_pos hwide hy) hd (hroot.smul hwide)
  have hden := exactStep_den_pos hann (mul_pos hwide hx) (mul_pos hwide hy) hd
  have hcoef : 0 ≤ 4 * ((1 + e) * x) * ((1 + e) * y) * (ann - 1) := mul_nonneg (by positivity) (by linarith)
  have hover : (d - (1 + e) * root) ^ 2 * (2 * d + (1 + e) * root) ≤ e * root * (3 * d ^ 2) := by
    have hdistance : (d - (1 + e) * root) ^ 2 ≤ (3 / 2 * (e * root)) ^ 2 := by
      apply sq_le_sq' <;> linarith
    have hclose : (19 / 20 * root) ^ 2 ≤ d ^ 2 := pow_le_pow_left₀ (by positivity) (by linarith) 2
    have hsum : 2 * d + (1 + e) * root ≤ 33 / 10 * root := by linarith [mul_le_mul_of_nonneg_right hten hpos.le]
    calc
      (d - (1 + e) * root) ^ 2 * (2 * d + (1 + e) * root) ≤ (3 / 2 * (e * root)) ^ 2 * (33 / 10 * root) :=
        mul_le_mul hdistance hsum (by positivity) (by positivity)
      _ = 10 * e * (e * root * (297 / 400 * root ^ 2)) := by ring
      _ ≤ 1 * (e * root * (297 / 400 * root ^ 2)) := mul_le_mul_of_nonneg_right hten (by positivity)
      _ ≤ e * root * (3 * d ^ 2) := by
        rw [one_mul]
        exact mul_le_mul_of_nonneg_left (by linarith [sq_nonneg root]) (by positivity)
  have hshare : (d - (1 + e) * root) ^ 2 * (2 * d + (1 + e) * root) /
      (4 * ((1 + e) * x) * ((1 + e) * y) * (ann - 1) + 3 * d ^ 2) ≤ e * root := by
    rw [div_le_iff₀ hden]
    have := mul_nonneg (by positivity : 0 ≤ e * root) hcoef
    linarith
  linarith

/-- A step for slightly larger balances from a number that is larger by twice as much. -/
theorem exactStep_wide_smul {e : ℝ} (hann : 1 ≤ ann) (hx : 0 < x) (hy : 0 < y) (he : 0 < e) (he_le : e ≤ 1)
    {u : ℝ} (hu : 0 < u) (hle : u ≤ x + y) :
    exactStep ann ((1 + e) * x) ((1 + e) * y) ((1 + 2 * e) * u) ≤ (1 + 2 * e) * exactStep ann x y u := by
  have htwice : 0 < 1 + 2 * e := by linarith
  obtain ⟨r, hr⟩ : ∃ r, r = (1 + e) / (1 + 2 * e) := ⟨_, rfl⟩
  have hmul : (1 + 2 * e) * r = 1 + e := by
    rw [hr, mul_div_cancel₀ _ htwice.ne']
  have hr_le : r ≤ 1 := by
    rw [hr, div_le_one htwice]
    linarith
  have hr_ge : 2 ≤ 3 * r := by
    refine le_of_mul_le_mul_left ?_ htwice
    linarith
  have hr_pos : 0 < r := by linarith
  rw [← hmul, mul_assoc, mul_assoc, exactStep_smul htwice.ne']
  refine mul_le_mul_of_nonneg_left ?_ htwice.le
  refine exactStep_le_of_le hann (by positivity) (by positivity) (mul_le_of_le_one_left hx.le hr_le)
    (mul_le_of_le_one_left hy.le hr_le) hu ?_
  have := mul_le_mul_of_nonneg_right hr_ge (by positivity : 0 ≤ x + y)
  linarith

theorem exactIterate_bounds (hann : 1 ≤ ann) (hx : 0 < x) (hy : 0 < y) (hroot : IsInvariant ann x y root)
    (k : Nat) : root ≤ exactIterate ann x y k ∧ exactIterate ann x y k ≤ x + y := by
  induction k with
  | zero => exact ⟨hroot.le_sum, le_refl _⟩
  | succ k ih =>
      have hiterate := hroot.pos.trans_le ih.1
      have hpoly := hroot.poly_nonneg hann hx hy ih.1
      exact ⟨root_le_exactStep hann hx hy hiterate hroot,
        (exactStep_le_self hann hx hy hiterate hpoly).trans ih.2⟩

theorem exactIterate_pos (hann : 1 ≤ ann) (hx : 0 < x) (hy : 0 < y) (k : Nat) :
    0 < exactIterate ann x y k := by
  obtain ⟨root, hroot⟩ := exists_invariant hann hx hy
  exact hroot.pos.trans_le (exactIterate_bounds hann hx hy hroot k).1

theorem exactIterate_antitone (hann : 1 ≤ ann) (hx : 0 < x) (hy : 0 < y) :
    Antitone (exactIterate ann x y) := by
  obtain ⟨root, hroot⟩ := exists_invariant hann hx hy
  refine antitone_nat_of_succ_le fun k => ?_
  have hiterate := (exactIterate_bounds hann hx hy hroot k).1
  exact exactStep_le_self hann hx hy (hroot.pos.trans_le hiterate) (hroot.poly_nonneg hann hx hy hiterate)

/-- The iterates scale with the balances. -/
theorem exactIterate_smul (hc : c ≠ 0) (ann x y : ℝ) (k : Nat) :
    exactIterate ann (c * x) (c * y) k = c * exactIterate ann x y k := by
  induction k with
  | zero => exact (mul_add c x y).symm
  | succ k ih =>
      rw [exactIterate, ih, exactStep_smul hc]
      rfl

theorem exactIterate_comm (ann x y : ℝ) (k : Nat) : exactIterate ann x y k = exactIterate ann y x k := by
  induction k with
  | zero => exact add_comm x y
  | succ k ih =>
      simp only [exactIterate, ih]
      unfold exactStep
      ring

/-- The iterates grow with the balances. -/
theorem exactIterate_mono {x' y' : ℝ} (hann : 1 ≤ ann) (hx : 0 < x) (hy : 0 < y) (hxx' : x ≤ x')
    (hyy' : y ≤ y') (k : Nat) : exactIterate ann x y k ≤ exactIterate ann x' y' k := by
  have hx' : 0 < x' := hx.trans_le hxx'
  have hy' : 0 < y' := hy.trans_le hyy'
  obtain ⟨root, hroot⟩ := exists_invariant hann hx hy
  obtain ⟨root', hroot'⟩ := exists_invariant hann hx' hy'
  induction k with
  | zero => exact add_le_add hxx' hyy'
  | succ k ih =>
      obtain ⟨hlow, hhigh⟩ := exactIterate_bounds hann hx hy hroot k
      have hiterate := hroot.pos.trans_le hlow
      rcases le_total root' (exactIterate ann x y k) with habove | hbelow
      · calc
          exactStep ann x y (exactIterate ann x y k) ≤ exactStep ann x' y' (exactIterate ann x y k) :=
            exactStep_le_of_le hann hx hy hxx' hyy' hiterate (by linarith)
          _ ≤ exactStep ann x' y' (exactIterate ann x' y' k) :=
            exactStep_mono hann hx' hy' hiterate (hroot'.poly_nonneg hann hx' hy' habove) ih
      · -- Below the larger invariant the smaller iterate has nowhere further down to go.
        calc
          exactIterate ann x y (k + 1) ≤ exactIterate ann x y k :=
            exactIterate_antitone hann hx hy (Nat.le_succ k)
          _ ≤ root' := hbelow
          _ ≤ exactIterate ann x' y' (k + 1) :=
            (exactIterate_bounds hann hx' hy' hroot' (k + 1)).1

end Iteration

/-! ### Floored steps -/

section Ratio

variable {ann x y s s' d p : ℝ}

theorem ratioStep_den_pos (hann : 1 < ann) (hd : 0 < d) (hp : 0 ≤ p) : 0 < d * (ann - 1) + 3 * p := by
  have : 0 < d * (ann - 1) := mul_pos hd (by linarith)
  linarith

theorem ratioStep_le_of_le (hann : 1 < ann) (hd : 0 < d) (hp : 0 ≤ p) (hss' : s ≤ s') :
    ratioStep ann s d p ≤ ratioStep ann s' d p := by
  have hden := ratioStep_den_pos hann hd hp
  have hsum := mul_le_mul_of_nonneg_left hss' (by linarith : 0 ≤ ann)
  exact div_le_div_of_nonneg_right (mul_le_mul_of_nonneg_left (by linarith) hd.le) hden.le

/-- The smaller the ratio, the less far down the step goes. -/
theorem exactStep_le_ratioStep (hann : 1 < ann) (hx : 0 < x) (hy : 0 < y) (hd : 0 < d) (hp : 0 ≤ p)
    (hle : 2 * d ≤ 3 * (x + y)) (hratio : 4 * x * y * p ≤ d ^ 3) :
    exactStep ann x y d ≤ ratioStep ann (x + y) d p := by
  rw [exactStep, ratioStep, div_le_div_iff₀ (exactStep_den_pos hann.le hx hy hd) (ratioStep_den_pos hann hd hp)]
  have hslope : 2 * d * (ann - 1) ≤ 3 * (x + y) * ann := by
    have h1 := mul_le_mul_of_nonneg_right hle (by linarith : 0 ≤ ann - 1)
    have h2 : 0 < x + y := by positivity
    linarith
  have h := mul_nonneg (sub_nonneg.mpr hratio) (sub_nonneg.mpr hslope)
  linarith

theorem ratioStep_le_exactStep (hann : 1 < ann) (hx : 0 < x) (hy : 0 < y) (hd : 0 < d) (hp : 0 ≤ p)
    (hle : 2 * d ≤ 3 * (x + y)) (hratio : d ^ 3 ≤ 4 * x * y * p) :
    ratioStep ann (x + y) d p ≤ exactStep ann x y d := by
  rw [exactStep, ratioStep, div_le_div_iff₀ (ratioStep_den_pos hann hd hp) (exactStep_den_pos hann.le hx hy hd)]
  have hslope : 2 * d * (ann - 1) ≤ 3 * (x + y) * ann := by
    have h1 := mul_le_mul_of_nonneg_right hle (by linarith : 0 ≤ ann - 1)
    have h2 : 0 < x + y := by positivity
    linarith
  have h := mul_nonneg (sub_nonneg.mpr hratio) (sub_nonneg.mpr hslope)
  linarith

end Ratio

section Floored

-- `e` is the share of the smaller balance that one unit is.
variable {ann x y d least : Int} {e root u : ℝ}

/-- An iterate is at least twice the smaller balance. -/
theorem Iterates.two_mul_le (hann : 2 ≤ ann) (h : Iterates ann x y d) (hleast : 0 < least) (hx : least ≤ x)
    (hy : least ≤ y) : 4 * x * y ≤ d * (d + 2) ∧ 2 * least ≤ d := by
  have hpos := h.pos
  have hsq : 4 * x * y ≤ d * (d + 2) := by
    rcases le_or_gt (d + 1) (x + y) with hle | hgt
    · have := four_mul_lt_sq hann (by omega) (by omega) (by omega : 0 ≤ d + 1) hle h.above
      nlinarith
    · have hsum : d = x + y := by linarith [h.le_sum]
      subst hsum
      nlinarith [sq_nonneg (x - y)]
  refine ⟨hsq, ?_⟩
  have hleast_sq : least * least ≤ x * y := mul_le_mul hx hy hleast.le (by omega)
  by_contra hlt
  nlinarith

/-- The two divisions lose no more than one more unit of each balance makes up for. -/
theorem Iterates.cube_le (hann : 2 ≤ ann) (h : Iterates ann x y d) (hleast : 4 ≤ least) (hx : least ≤ x)
    (hy : least ≤ y) : d ^ 3 * least ^ 2 ≤ 4 * x * y * flooredRatio x y d * (least + 1) ^ 2 := by
  have hpos := h.pos
  obtain ⟨hsq, htwo⟩ := h.two_mul_le hann (by omega) hx hy
  have hx_pos : 0 < x := by omega
  have hy_pos : 0 < y := by omega
  have hratio := le_mul_flooredRatio hx_pos hy_pos (by omega : 0 ≤ d)
  generalize 4 * x * y * flooredRatio x y d = p at *
  -- What is lost, in units of the smaller balance.
  have hlost : least * (2 * x * d + 4 * x * y) ≤ d ^ 2 * (d + 2) := by
    have h1 : 2 * x * d * least ≤ 2 * x * d * y := mul_le_mul_of_nonneg_left hy (by positivity)
    have h2 : 4 * x * y * (2 * least) ≤ 4 * x * y * d := mul_le_mul_of_nonneg_left htwo (by positivity)
    have h3 := mul_le_mul_of_nonneg_right hsq (by omega : 0 ≤ d)
    linarith
  have hscaled : least ^ 2 * (2 * x * d + 4 * x * y) ≤ d ^ 3 * (least + 1) := by
    have h1 := mul_le_mul_of_nonneg_left hlost (by omega : 0 ≤ least)
    have h2 := mul_le_mul_of_nonneg_left htwo (by positivity : 0 ≤ d ^ 2)
    linarith
  have hmade : d ^ 3 * (least + 1) ^ 3 ≤ d ^ 3 * (least ^ 2 * (2 * least + 1)) := by
    refine mul_le_mul_of_nonneg_left ?_ (by positivity)
    nlinarith
  have hsquared := mul_le_mul_of_nonneg_right hscaled (by positivity : 0 ≤ (least + 1) ^ 2)
  have hfloor : d ^ 3 - 2 * x * d - 4 * x * y ≤ p := by linarith
  have hwhole := mul_le_mul_of_nonneg_right hfloor (by positivity : 0 ≤ least ^ 2 * (least + 1) ^ 2)
  refine le_of_mul_le_mul_left ?_ (by positivity : 0 < least ^ 2)
  linarith

/-- A floored step ends between the exact step less one and the exact step for slightly larger balances. -/
theorem newton_between (hann : 2 ≤ ann) (h : Iterates ann x y d) (hleast : 4 ≤ least) (hx : least ≤ x)
    (hy : least ≤ y) (he : e * least = 1) : exactStep ann x y d - 1 < newton ann x y d ∧
      (newton ann x y d : ℝ) ≤ exactStep ann ((1 + e) * x) ((1 + e) * y) d := by
  have hpos := h.pos
  have hratio := flooredRatio_nonneg (by omega : 0 < x) (by omega : 0 < y) (by omega : 0 ≤ d)
  have hden := newton_den_pos hann (by omega : 0 < x) (by omega : 0 < y) hpos
  have hcube := mul_flooredRatio_le (by omega : 0 < x) (by omega : 0 < y) (by omega : 0 ≤ d)
  have hmade := h.cube_le hann hleast hx hy
  have hfloor := Int.ediv_mul_le (d * (ann * (x + y) + flooredRatio x y d * 2)) hden.ne'
  have hceil := Int.lt_ediv_add_one_mul_self (d * (ann * (x + y) + flooredRatio x y d * 2)) hden
  rw [← newton] at hfloor hceil
  have hann' : (1 : ℝ) < ann := by exact_mod_cast (by omega : 1 < ann)
  have hleast' : (0 : ℝ) < least := by exact_mod_cast (by omega : 0 < least)
  have hx' : (0 : ℝ) < x := by exact_mod_cast (by omega : 0 < x)
  have hy' : (0 : ℝ) < y := by exact_mod_cast (by omega : 0 < y)
  have hd' : (0 : ℝ) < d := by exact_mod_cast (by omega : 0 < d)
  have hsum : (d : ℝ) ≤ x + y := by exact_mod_cast h.le_sum
  have hratio' : (0 : ℝ) ≤ flooredRatio x y d := by exact_mod_cast hratio
  have hden' := ratioStep_den_pos hann' hd' hratio'
  constructor
  · have hstep : ratioStep ann (x + y) d (flooredRatio x y d) < newton ann x y d + 1 := by
      rw [ratioStep, div_lt_iff₀ hden']
      have : (d * (ann * (x + y) + flooredRatio x y d * 2) : ℝ) <
          (newton ann x y d + 1) * (d * (ann - 1) + flooredRatio x y d * (2 + 1)) := by exact_mod_cast hceil
      linarith
    have hexact := exactStep_le_ratioStep hann' hx' hy' hd' hratio' (by linarith)
      (by exact_mod_cast hcube : (4 : ℝ) * x * y * flooredRatio x y d ≤ d ^ 3)
    linarith
  · have hstep : (newton ann x y d : ℝ) ≤ ratioStep ann (x + y) d (flooredRatio x y d) := by
      rw [ratioStep, le_div_iff₀ hden']
      have : (newton ann x y d * (d * (ann - 1) + flooredRatio x y d * (2 + 1)) : ℝ) ≤
          d * (ann * (x + y) + flooredRatio x y d * 2) := by exact_mod_cast hfloor
      linarith
    have he_pos : 0 < e := pos_of_mul_pos_left (he ▸ one_pos) hleast'.le
    have hwide_sum : (x + y : ℝ) ≤ (1 + e) * x + (1 + e) * y := by
      have : 0 < e * (x + y) := by positivity
      linarith
    refine hstep.trans ((ratioStep_le_of_le hann' hd' hratio' hwide_sum).trans ?_)
    refine ratioStep_le_exactStep hann' (by positivity) (by positivity) hd' hratio' (by linarith) ?_
    have hmade' : (d : ℝ) ^ 3 * least ^ 2 ≤ 4 * x * y * flooredRatio x y d * (least + 1) ^ 2 := by
      exact_mod_cast hmade
    have hunit : (least + 1 : ℝ) = (1 + e) * least := by linarith
    rw [hunit] at hmade'
    refine le_of_mul_le_mul_right ?_ (by positivity : (0 : ℝ) < least ^ 2)
    linarith

/-- An iterate is less than one below the invariant, which is at least twice the smaller balance. -/
theorem Iterates.root_lt (hann : 2 ≤ ann) (h : Iterates ann x y d) (hleast : 0 < least) (hx : least ≤ x)
    (hy : least ≤ y) (hroot : IsInvariant ann x y root) : root < d + 1 ∧ 2 * least ≤ root := by
  have hann' : (1 : ℝ) ≤ ann := by exact_mod_cast (by omega : 1 ≤ ann)
  have hleast' : (0 : ℝ) < least := by exact_mod_cast hleast
  have hx' : (least : ℝ) ≤ x := by exact_mod_cast hx
  have hy' : (least : ℝ) ≤ y := by exact_mod_cast hy
  have hpos := h.pos
  constructor
  · have habove : (0 : ℝ) < poly (ann : ℝ) x y (d + 1) := by exact_mod_cast h.above
    exact lt_of_poly hann' (by linarith) (by linarith) (by exact_mod_cast (by omega : 0 ≤ d + 1))
      hroot.poly_eq.le habove
  · have hsq := four_mul_le_root_sq hann' (by linarith) (by linarith) hroot
    have hleast_sq := mul_le_mul hx' hy' hleast'.le (by linarith)
    refine le_of_sq_le_sq ?_ hroot.pos.le
    linarith

section Follows

variable (hann : 2 ≤ ann) (h : Iterates ann x y d) (hleast : 10 ≤ least) (hx : least ≤ x) (hy : least ≤ y)
  (he : e * least = 1) (hroot : IsInvariant ann x y root)

include hann h hleast hx hy he hroot

/-- From where the larger balances' invariant is above the iterate, the step ends next to it. -/
theorem newton_le_of_below (hbelow : (d : ℝ) ≤ (1 + e) * root) :
    (newton ann x y d : ℝ) ≤ (1 + 2 * e) * root := by
  obtain ⟨hnear, htwo⟩ := h.root_lt hann (by omega) hx hy hroot
  have hleast' : (10 : ℝ) ≤ least := by exact_mod_cast hleast
  have he_pos : 0 < e := pos_of_mul_pos_left (he ▸ one_pos) (by linarith)
  have hunit := mul_le_mul_of_nonneg_left htwo he_pos.le
  have hten := mul_le_mul_of_nonneg_left hleast' he_pos.le
  refine (newton_between hann h (by omega) hx hy he).2.trans ?_
  exact exactStep_wide_le (by exact_mod_cast (by omega : 1 ≤ ann)) (by exact_mod_cast (by omega : 0 < x))
    (by exact_mod_cast (by omega : 0 < y)) hroot he_pos (by linarith) (by linarith) hnear.le hbelow

/-- A step keeps what the floored iteration is below the exact one. -/
theorem le_newton (hroot_le : root ≤ u) (hle : u ≤ x + y) (hd : u - 3 ≤ d) :
    exactStep ann x y u - 3 ≤ newton ann x y d := by
  have hann' : (1 : ℝ) ≤ ann := by exact_mod_cast (by omega : 1 ≤ ann)
  have hx' : (0 : ℝ) < x := by exact_mod_cast (by omega : 0 < x)
  have hy' : (0 : ℝ) < y := by exact_mod_cast (by omega : 0 < y)
  have hd' : (0 : ℝ) < d := by exact_mod_cast h.pos
  have hfloor := (newton_between hann h (by omega) hx hy he).1
  rcases le_total u d with habove | hbelow
  · have := exactStep_mono hann' hx' hy' (hroot.pos.trans_le hroot_le)
      (hroot.poly_nonneg hann' hx' hy' hroot_le) habove
    linarith
  · have := exactStep_sub_le hann' hx' hy' hd' hbelow hle
    linarith

/-- A step keeps the share by which the floored iteration is above the exact one. -/
theorem newton_le (hroot_le : root ≤ u) (hle : u ≤ x + y) (hd : d ≤ (1 + 2 * e) * u) :
    newton ann x y d ≤ (1 + 2 * e) * exactStep ann x y u := by
  have hann' : (1 : ℝ) ≤ ann := by exact_mod_cast (by omega : 1 ≤ ann)
  have hx' : (0 : ℝ) < x := by exact_mod_cast (by omega : 0 < x)
  have hy' : (0 : ℝ) < y := by exact_mod_cast (by omega : 0 < y)
  have hd' : (0 : ℝ) < d := by exact_mod_cast h.pos
  have he_pos : 0 < e := pos_of_mul_pos_left (he ▸ one_pos) (by exact_mod_cast (by omega : 0 ≤ least))
  have hunit : e * 1 ≤ e * least := mul_le_mul_of_nonneg_left (by exact_mod_cast (by omega : 1 ≤ least)) he_pos.le
  have hu := hroot.pos.trans_le hroot_le
  have hwide : 0 < 1 + e := by linarith
  rcases le_total ((1 + e) * root) d with habove | hbelow
  · have hpoly := (hroot.smul hwide).poly_nonneg hann' (mul_pos hwide hx') (mul_pos hwide hy') habove
    calc
      (newton ann x y d : ℝ) ≤ exactStep ann ((1 + e) * x) ((1 + e) * y) d :=
        (newton_between hann h (by omega) hx hy he).2
      _ ≤ exactStep ann ((1 + e) * x) ((1 + e) * y) ((1 + 2 * e) * u) :=
        exactStep_mono hann' (mul_pos hwide hx') (mul_pos hwide hy') hd' hpoly hd
      _ ≤ (1 + 2 * e) * exactStep ann x y u := exactStep_wide_smul hann' hx' hy' he_pos (by linarith) hu hle
  · refine (newton_le_of_below hann h hleast hx hy he hroot hbelow).trans ?_
    exact mul_le_mul_of_nonneg_left (root_le_exactStep hann' hx' hy' hu hroot) (by linarith)

/-- Where a step goes down by one at most, it ends next to the invariant. -/
theorem newton_le_of_stopped (hstop : d - 1 ≤ newton ann x y d) :
    2 * (newton ann x y d : ℝ) ≤ (2 + 5 * e) * root := by
  have hann' : (1 : ℝ) ≤ ann := by exact_mod_cast (by omega : 1 ≤ ann)
  have hx' : (0 : ℝ) < x := by exact_mod_cast (by omega : 0 < x)
  have hy' : (0 : ℝ) < y := by exact_mod_cast (by omega : 0 < y)
  have he_pos : 0 < e := pos_of_mul_pos_left (he ▸ one_pos) (by exact_mod_cast (by omega : 0 ≤ least))
  have hwide : 0 < 1 + e := by linarith
  have hunit : 2 ≤ e * root := by
    have := mul_le_mul_of_nonneg_left (h.root_lt hann (by omega) hx hy hroot).2 he_pos.le
    linarith
  rcases le_total ((1 + e) * root) d with habove | hbelow
  · have hfloor := (newton_between hann h (by omega) hx hy he).2
    have hfixed : exactStep ann ((1 + e) * x) ((1 + e) * y) ((1 + e) * root) = (1 + e) * root := by
      have := exactStep_sub_root hann' (mul_pos hwide hx') (mul_pos hwide hy') (mul_pos hwide hroot.pos)
        (hroot.smul hwide)
      rw [sub_self, zero_pow two_ne_zero, zero_mul, zero_div] at this
      linarith
    have hsum : (d : ℝ) ≤ (1 + e) * x + (1 + e) * y := by
      have hle : (d : ℝ) ≤ x + y := by exact_mod_cast h.le_sum
      have : 0 < e * (x + y) := by positivity
      linarith
    have hshort := exactStep_sub_le hann' (mul_pos hwide hx') (mul_pos hwide hy')
      (mul_pos hwide hroot.pos) habove hsum
    have hstop' : (d : ℝ) - 1 ≤ newton ann x y d := by exact_mod_cast hstop
    rw [hfixed] at hshort
    linarith
  · have := newton_le_of_below hann h hleast hx hy he hroot hbelow
    have : 0 < e * root := mul_pos he_pos hroot.pos
    linarith

end Follows

end Floored

end StableCurve

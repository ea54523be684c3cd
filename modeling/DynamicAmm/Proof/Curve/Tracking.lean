import DynamicAmm.Base.StableTracking
import DynamicAmm.Proof.Curve.Accuracy

/-!
# The solver for the invariant follows exact arithmetic

Whether the loop comes to the invariant or the cap ends it on the way, the result is next to what twenty
exact steps give: three units less at most, and more by a few units of a balance at most.
-/

namespace DynamicAmm.Client

open Js BoundedLoop StableCurve

variable {Ann amp a b d least : Int} {c e root : ℝ}

noncomputable def exactD (amp : Int) (a b : ℝ) : ℝ := exactIterate ((amp * 2 : Int) : ℝ) a b maxIters

/-- From an iterate next to the exact one, the rest of the loop stays next to the rest of the exact iteration. -/
theorem loopWhile_tracks (hAnn : 2 ≤ Ann) (hleast : 10 ≤ least) (ha : least ≤ a) (hb : least ≤ b)
    (he : e * least = 1) (hroot : IsInvariant Ann a b root) {cap k : Nat} (hcap : cap + k = maxIters)
    {prev : Int} {s : Iterate} (hd : Iterates Ann a b d)
    (hlow : exactIterate Ann a b k - 3 ≤ d) (hhigh : d ≤ (1 + 2 * e) * exactIterate Ann a b k)
    (hstopped : Iterate.moving ⟨prev, d⟩ = false → 2 * (d : ℝ) ≤ (2 + 5 * e) * root)
    (hloop : loopWhile Iterate.moving (computeDStep Ann a b) cap ⟨prev, d⟩ = .ok s) :
    exactIterate Ann a b maxIters - 3 ≤ s.cur ∧
      2 * (s.cur : ℝ) ≤ (2 + 5 * e) * exactIterate Ann a b maxIters := by
  have hAnn' : (1 : ℝ) ≤ Ann := by exact_mod_cast (by omega : 1 ≤ Ann)
  have ha' : (0 : ℝ) < a := by exact_mod_cast (by omega : 0 < a)
  have hb' : (0 : ℝ) < b := by exact_mod_cast (by omega : 0 < b)
  have he_pos : 0 < e := pos_of_mul_pos_left (he ▸ one_pos) (by exact_mod_cast (by omega : 0 ≤ least))
  induction cap generalizing k prev d with
  | zero =>
      obtain rfl : k = maxIters := by omega
      cases hloop
      have := mul_pos he_pos (exactIterate_pos hAnn' ha' hb' maxIters)
      exact ⟨hlow, by simp only; linarith⟩
  | succ cap ih =>
      obtain ⟨hroot_le, hle_sum⟩ := exactIterate_bounds hAnn' ha' hb' hroot k
      unfold loopWhile at hloop
      split at hloop
      · rw [computeDStep_newton hAnn (by omega) (by omega) hd.pos] at hloop
        refine ih (k := k + 1) (by omega) (hd.newton hAnn (by omega) (by omega) (by omega)) ?_ ?_ ?_ hloop
        · exact le_newton hAnn hd hleast ha hb he hroot hroot_le hle_sum hlow
        · exact newton_le hAnn hd hleast ha hb he hroot hroot_le hle_sum hhigh
        · intro hstop
          rw [Iterate.moving_eq_false] at hstop
          exact newton_le_of_stopped hAnn hd hleast ha hb he hroot (by simp only at hstop; omega)
      · rename_i hstop
        cases hloop
        have hlater := exactIterate_antitone hAnn' ha' hb' (by omega : k ≤ maxIters)
        have hroot_le' := (exactIterate_bounds hAnn' ha' hb' hroot maxIters).1
        have hshare := mul_le_mul_of_nonneg_left hroot_le' (by linarith : 0 ≤ 2 + 5 * e)
        have := hstopped (by simpa using hstop)
        exact ⟨by simp only; linarith, by simp only; linarith⟩

theorem computeD_tracks (hamp : 1 ≤ amp) (hleast : 10 ≤ least) (ha : least ≤ a) (hb : least ≤ b)
    (he : e * least = 1) (hd : computeD amp a b = .ok d) :
    exactD amp a b - 3 ≤ d ∧ 2 * (d : ℝ) ≤ (2 + 5 * e) * exactD amp a b := by
  have hAnn : 2 ≤ amp * 2 := by omega
  have hAnn' : (1 : ℝ) ≤ (amp * 2 : Int) := by exact_mod_cast (by omega : 1 ≤ amp * 2)
  have he_pos : 0 < e := pos_of_mul_pos_left (he ▸ one_pos) (by exact_mod_cast (by omega : 0 ≤ least))
  have ha' : (0 : ℝ) < a := by exact_mod_cast (by omega : 0 < a)
  have hb' : (0 : ℝ) < b := by exact_mod_cast (by omega : 0 < b)
  obtain ⟨root, hroot⟩ := exists_invariant hAnn' ha' hb'
  have hsum : a + b ≠ 0 := by omega
  simp only [computeD, if_neg hsum, bind_eq_ok, pure_eq_ok] at hd
  obtain ⟨s, hloop, rfl⟩ := hd
  refine loopWhile_tracks (k := 0) hAnn hleast ha hb he hroot rfl (iterates_sum hAnn (by omega) (by omega))
    ?_ ?_ ?_ hloop
  · rw [exactIterate]
    push_cast
    linarith
  · rw [exactIterate]
    push_cast
    have : 0 < e * (a + b) := by positivity
    linarith
  · intro hstop
    rw [Iterate.moving_eq_false] at hstop
    simp only at hstop
    omega

/-! ### Between balances -/

theorem exactD_smul (hc : c ≠ 0) (amp : Int) (a b : ℝ) : exactD amp (c * a) (c * b) = c * exactD amp a b :=
  exactIterate_smul hc _ a b maxIters

theorem exactD_mono (hamp : 1 ≤ amp) {a b a' b' : ℝ} (ha : 0 < a) (hb : 0 < b) (haa' : a ≤ a') (hbb' : b ≤ b') :
    exactD amp a b ≤ exactD amp a' b' :=
  exactIterate_mono (by exact_mod_cast (by omega : 1 ≤ amp * 2)) ha hb haa' hbb' maxIters

theorem exactD_comm (amp : Int) (a b : ℝ) : exactD amp a b = exactD amp b a :=
  exactIterate_comm _ a b maxIters

section Scaled

variable {p q a' b' : Int}

theorem exactD_le_of_covers (hamp : 1 ≤ amp) (hp : 1 ≤ p) (hq : 1 ≤ q) (ha : 1 ≤ a) (hb : 1 ≤ b)
    (hcovers : (p * a ≤ q * a' ∧ p * b ≤ q * b') ∨ (p * a ≤ q * b' ∧ p * b ≤ q * a')) :
    p * exactD amp a b ≤ q * exactD amp a' b' := by
  have hp' : (0 : ℝ) < p := by exact_mod_cast (by omega : 0 < p)
  have hq' : (0 : ℝ) < q := by exact_mod_cast (by omega : 0 < q)
  have ha' : (0 : ℝ) < a := by exact_mod_cast (by omega : 0 < a)
  have hb' : (0 : ℝ) < b := by exact_mod_cast (by omega : 0 < b)
  rw [← exactD_smul hp'.ne', ← exactD_smul hq'.ne']
  cases hcovers with
  | inl hcovers =>
      exact exactD_mono hamp (mul_pos hp' ha') (mul_pos hp' hb') (by exact_mod_cast hcovers.1)
        (by exact_mod_cast hcovers.2)
  | inr hcovers =>
      rw [exactD_comm amp (q * a')]
      exact exactD_mono hamp (mul_pos hp' ha') (mul_pos hp' hb') (by exact_mod_cast hcovers.1)
        (by exact_mod_cast hcovers.2)

/-- Where the balances of one pool are, in one order or the other, `p / q` times those of another or more, so
is its invariant, up to a share of the least balance and three units. -/
theorem computeD_scales (hamp : 1 ≤ amp) (hleast : 10 ≤ least) (ha : least ≤ a) (hb : least ≤ b)
    (ha' : least ≤ a') (hb' : least ≤ b') (hp : 1 ≤ p) (hq : 1 ≤ q)
    (hcovers : (p * a ≤ q * a' ∧ p * b ≤ q * b') ∨ (p * a ≤ q * b' ∧ p * b ≤ q * a')) :
    ∃ d d', computeD amp a b = .ok d ∧ computeD amp a' b' = .ok d' ∧
      2 * p * least * d ≤ q * (2 * least + 5) * (d' + 3) := by
  obtain ⟨d, hd, -, -⟩ := computeD_ok hamp (by omega : 1 ≤ a) (by omega : 1 ≤ b)
  obtain ⟨d', hd', -, -⟩ := computeD_ok hamp (by omega : 1 ≤ a') (by omega : 1 ≤ b')
  refine ⟨d, d', hd, hd', ?_⟩
  have hleast' : (0 : ℝ) < least := by exact_mod_cast (by omega : 0 < least)
  have hp' : (0 : ℝ) < p := by exact_mod_cast (by omega : 0 < p)
  have hq' : (0 : ℝ) < q := by exact_mod_cast (by omega : 0 < q)
  have hshare : (least : ℝ)⁻¹ * least = 1 := inv_mul_cancel₀ hleast'.ne'
  have hover := (computeD_tracks hamp hleast ha hb hshare hd).2
  have hunder := (computeD_tracks hamp hleast ha' hb' hshare hd').1
  have hexact := exactD_le_of_covers hamp hp hq (by omega) (by omega) hcovers
  have hwide : (0 : ℝ) < 2 * least + 5 := by linarith
  have hclear : 2 * (least : ℝ) * d ≤ (2 * least + 5) * exactD amp a b := by
    calc 2 * (least : ℝ) * d = least * (2 * d) := by ring
      _ ≤ least * ((2 + 5 * (least : ℝ)⁻¹) * exactD amp a b) := by gcongr
      _ = (2 * least + 5 * ((least : ℝ)⁻¹ * least)) * exactD amp a b := by ring
      _ = (2 * least + 5) * exactD amp a b := by rw [hshare, mul_one]
  have hle : 2 * (p : ℝ) * least * d ≤ q * (2 * least + 5) * (d' + 3) := by
    calc 2 * (p : ℝ) * least * d = p * (2 * least * d) := by ring
      _ ≤ p * ((2 * least + 5) * exactD amp a b) := by gcongr
      _ = (2 * least + 5) * (p * exactD amp a b) := by ring
      _ ≤ (2 * least + 5) * (q * exactD amp a' b') := by gcongr
      _ ≤ (2 * least + 5) * (q * (d' + 3)) := by
        gcongr
        linarith
      _ = q * (2 * least + 5) * (d' + 3) := by ring
  exact_mod_cast hle

theorem computeD_scales_sample :
    ∃ d d', computeD 100 300 (2 * 10 ^ 9) = .ok d ∧ computeD 100 (10 ^ 9 + 7) 151 = .ok d' ∧
      2 * 1 * 151 * d ≤ 2 * (2 * 151 + 5) * (d' + 3) :=
  computeD_scales (by decide) (by decide) (by decide) (by decide) (by decide) (by decide) (by decide)
    (by decide) (Or.inr ⟨by decide, by decide⟩)

end Scaled

end DynamicAmm.Client

import DynamicAmm.Base.StableExit
import DynamicAmm.Proof.Curve.Accuracy

/-!
# More of a balance

From balances that the solver settles on, more of either balance never gives a lower `D`. The solver stops
within one of the invariant, so this says what the last step leaves above it: less than one more unit of
a balance is worth.
-/

namespace DynamicAmm.Client

open StableCurve Convergence

variable {amp a b a' b' d d' : Int}

/-- Balances whose invariant the solver settles on. -/
structure Settles (amp a b : Int) : Prop where
  left_pos : 1 ≤ a
  right_pos : 1 ≤ b
  left_lt : a < 2 ^ 128
  right_lt : b < 2 ^ 128
  left_le : 3 * a ≤ 8 * amp * b
  right_le : b ≤ 50000 * amp * a

theorem Settles.computeD_stopped (hamp : 1 ≤ amp) (h : Settles amp a b) :
    ∃ s, computeD amp a b = .ok s.cur ∧ Stopped (amp * 2) a b s := by
  have hpositive : 0 ≤ amp * b := mul_nonneg (by omega) (by linarith [h.right_pos])
  exact Client.computeD_stopped hamp h.left_pos h.right_pos h.left_lt h.right_lt (by linarith [h.left_le])
    h.right_le

/-- The result is not above the invariant of balances with one unit more. -/
theorem Settles.poly_succ_nonpos (hamp : 1 ≤ amp) (h : Settles amp a b) (hd : computeD amp a b = .ok d) :
    poly (amp * 2) (a + 1) b d ≤ 0 ∧ poly (amp * 2) a (b + 1) d ≤ 0 := by
  obtain ⟨s, hs, hstopped⟩ := h.computeD_stopped hamp
  obtain rfl : s.cur = d := Except.ok.inj (hs.symm.trans hd)
  obtain ⟨-, d, hd', hpos, hsum, -⟩ := computeD_brackets hamp h.left_pos h.right_pos
  obtain rfl : s.cur = d := Except.ok.inj (hs.symm.trans hd')
  have hmoving := hstopped.moving
  rw [Iterate.moving_eq_false] at hmoving
  have ha := h.left_pos
  have hb := h.right_pos
  refine poly_succ_le (by omega) (by omega) (by omega) (by linarith [h.left_le]) hpos hsum
    hstopped.pred_nonpos fun hmean => ?_
  rw [hstopped.cur_eq] at hmoving hmean ⊢
  exact poly_newton_le (by omega) (by omega) (by omega) hstopped.iterates.pos (by omega) (by omega) hmean

theorem Settles.poly_pred_nonpos (hamp : 1 ≤ amp) (h : Settles amp a b) (hd : computeD amp a b = .ok d) :
    poly (amp * 2) a b (d - 1) ≤ 0 := by
  obtain ⟨s, hs, hstopped⟩ := h.computeD_stopped hamp
  obtain rfl : s.cur = d := Except.ok.inj (hs.symm.trans hd)
  exact hstopped.pred_nonpos

theorem computeD_mono (hamp : 1 ≤ amp) (h : Settles amp a b) (haa' : a ≤ a') (hbb' : b ≤ b')
    (hd : computeD amp a b = .ok d) (hd' : computeD amp a' b' = .ok d') : d ≤ d' := by
  have ha := h.left_pos
  have hb := h.right_pos
  obtain ⟨D, hD, hpos, -⟩ := computeD_ok hamp ha hb
  obtain rfl : d = D := Except.ok.inj (hd.symm.trans hD)
  obtain ⟨D', hD', hpos', habove⟩ := computeD_ok hamp (by omega : 1 ≤ a') (by omega : 1 ≤ b')
  obtain rfl : d' = D' := Except.ok.inj (hd'.symm.trans hD')
  obtain ⟨hleft, hright⟩ := h.poly_succ_nonpos hamp hd
  have hann : 1 ≤ amp * 2 := by omega
  have hbelow : (a = a' ∧ b = b') ∨ poly (amp * 2) a' b' d ≤ 0 := by
    rcases haa'.eq_or_lt with rfl | hlt
    · rcases hbb'.eq_or_lt with rfl | hlt
      · exact Or.inl ⟨rfl, rfl⟩
      · exact Or.inr (poly_nonpos_of_le_right hann (by omega) (by omega) (by omega) (by omega) hright)
    · have hmore := poly_nonpos_of_le hann (by omega) (by omega) (by omega) (by omega : a + 1 ≤ a') hleft
      exact Or.inr (poly_nonpos_of_le_right hann (by omega) (by omega) (by omega) hbb' hmore)
  rcases hbelow with ⟨rfl, rfl⟩ | hbelow
  · exact (Except.ok.inj (hd.symm.trans hd')).le
  · have := lt_of_poly hann (by omega) (by omega) (by omega) hbelow habove
    omega

end DynamicAmm.Client

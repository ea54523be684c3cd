import DynamicAmm.Proof.Client.ConstantProduct

/-!
# The client's constant product curve pays the most it can

On positive balances a swap is refused only where every payment would be refused, and what it pays is the
greatest amount that keeps the product. So the input for a wanted amount is the least one that suffices,
and a swap made in parts never pays more than the swap made at once: the parts keep the product as well,
and their payments together are one of the amounts that the whole swap could have paid.
-/

namespace DynamicAmm.Client

open Js ConstantProductSwap

/-- A payment of at least one that keeps the product from falling. -/
def KeepsProduct (s x y o : Int) : Prop := 1 ≤ o ∧ x * y ≤ (x + s) * (y - o)

variable {s x y o : Int} {out : OutResult}

/-! ### The largest payment -/

theorem KeepsProduct.lt (hx : 1 ≤ x) (hy : 1 ≤ y) (hs : 0 ≤ s) (h : KeepsProduct s x y o) : o < y := by
  have hproduct : 0 < x * y := by positivity
  have hpos := pos_of_mul_pos_right (hproduct.trans_le h.2) (by omega : 0 ≤ x + s)
  omega

/-- A payment that keeps the product leaves the swap with one to make. -/
theorem KeepsProduct.payable (hx : 1 ≤ x) (hy : 1 ≤ y) (hs : 0 ≤ s) (hnew : x + s ≤ x * y)
    (h : KeepsProduct s x y o) : ∃ out, computeOutAmount s x y = .ok out ∧ o ≤ out.outAmount := by
  have hpos : 0 < x + s := by omega
  obtain ⟨kept, divisor, -, hlow, hhigh, -⟩ := ceilDiv_ok hpos hnew
  have hkept : kept ≤ y - o := by
    have hlt : (kept - 1) * (x + s) < (y - o) * (x + s) := hlow.trans_le (by linarith [h.2])
    have := lt_of_mul_lt_mul_right hlt hpos.le
    omega
  have hone := h.1
  obtain ⟨out, hout, hamount⟩ := (computeOutAmount_eq_ok (o := y - kept) (by positivity) hpos).mpr
    ⟨by omega, hnew, by omega, by linarith, by linarith⟩
  exact ⟨out, hout, by omega⟩

/-- What is paid keeps the product, one more would not, and the balances were large enough to divide. -/
theorem keepsProduct_of_ok (hx : 1 ≤ x) (hy : 1 ≤ y) (hs : 0 ≤ s) (h : computeOutAmount s x y = .ok out) :
    KeepsProduct s x y out.outAmount ∧ (x + s) * (y - out.outAmount - 1) < x * y ∧ x + s ≤ x * y := by
  obtain ⟨-, hnew, -, hmore, hkeeps⟩ :=
    (computeOutAmount_eq_ok (by positivity) (by omega : 0 < x + s)).mp ⟨out, h, rfl⟩
  have hpos := computeOutAmount_pos (by omega) (by omega) hs h
  exact ⟨⟨by omega, by linarith⟩, by linarith, hnew⟩

theorem KeepsProduct.le_outAmount (hx : 1 ≤ x) (hy : 1 ≤ y) (hs : 0 ≤ s)
    (h : computeOutAmount s x y = .ok out) (ho : KeepsProduct s x y o) : o ≤ out.outAmount := by
  obtain ⟨-, -, hnew⟩ := keepsProduct_of_ok hx hy hs h
  obtain ⟨out', hout', hle⟩ := ho.payable hx hy hs hnew
  rw [h, Except.ok.injEq] at hout'
  subst hout'
  exact hle

theorem computeOutAmount_priceImpact (h : computeOutAmount s x y = .ok out) :
    out.priceImpact = getPriceImpact out.outAmount ((s * y).tdiv x) := by
  simp only [computeOutAmount, computeOutAmountWithoutSlippage, bind_eq_ok] at h
  obtain ⟨⟨kept, divisor⟩, -, h⟩ := h
  simp only at h
  split at h
  · cases h
  · simp only [bind_eq_ok, pure_eq_ok, BN.div_eq_ok] at h
    obtain ⟨_, ⟨-, rfl⟩, rfl⟩ := h
    rfl

/-- The amount without slippage is not below the amount paid, and the amount paid is not zero. -/
theorem priceImpact_of_ok (hx : 1 ≤ x) (hy : 1 ≤ y) (hs : 0 ≤ s) (h : computeOutAmount s x y = .ok out) :
    ∃ impact, out.priceImpact = some impact ∧ 0 ≤ impact ∧ impact < 1 := by
  obtain ⟨⟨hone, hkeeps⟩, -, -⟩ := keepsProduct_of_ok hx hy hs h
  have hspot : out.outAmount ≤ (s * y).tdiv x := by
    rw [Int.tdiv_eq_ediv_of_nonneg (by positivity), Int.le_ediv_iff_mul_le (by omega)]
    have : 0 ≤ s * out.outAmount := by positivity
    linarith
  have hpos : (0 : ℚ) < (s * y).tdiv x := by exact_mod_cast (by omega : 0 < (s * y).tdiv x)
  refine ⟨(((s * y).tdiv x - out.outAmount : Int) : ℚ) / ((s * y).tdiv x : Int), ?_, ?_, ?_⟩
  · rw [computeOutAmount_priceImpact h, getPriceImpact, if_neg (by omega)]
  · apply div_nonneg _ hpos.le
    exact_mod_cast sub_nonneg.mpr hspot
  · rw [div_lt_one hpos]
    exact_mod_cast (by omega : (s * y).tdiv x - out.outAmount < (s * y).tdiv x)

theorem computeOutAmount_largest (hx : 1 ≤ x) (hy : 1 ≤ y) (hs : 0 ≤ s) :
    (∀ out, computeOutAmount s x y = .ok out →
      1 ≤ out.outAmount ∧ out.outAmount < y ∧ x * y ≤ (x + s) * (y - out.outAmount) ∧
      (x + s) * (y - out.outAmount - 1) < x * y ∧
      ∃ impact, out.priceImpact = some impact ∧ 0 ≤ impact ∧ impact < 1) ∧
    ((∃ message, computeOutAmount s x y = .error message) ↔
      x * y < x + s ∨ ¬ ∃ o, 1 ≤ o ∧ x * y ≤ (x + s) * (y - o)) := by
  constructor
  · intro out h
    obtain ⟨hkeeps, hmore, -⟩ := keepsProduct_of_ok hx hy hs h
    exact ⟨hkeeps.1, hkeeps.lt hx hy hs, hkeeps.2, hmore, priceImpact_of_ok hx hy hs h⟩
  · constructor
    · rintro ⟨message, h⟩
      by_contra hneither
      rw [not_or, not_lt, not_not] at hneither
      obtain ⟨hnew, o, ho⟩ := hneither
      obtain ⟨out, hout, -⟩ := KeepsProduct.payable hx hy hs hnew ho
      rw [h] at hout
      cases hout
    · intro hrefused
      cases h : computeOutAmount s x y with
      | error message => exact ⟨message, rfl⟩
      | ok out =>
          obtain ⟨hkeeps, -, hnew⟩ := keepsProduct_of_ok hx hy hs h
          rcases hrefused with hsmall | hnone
          · omega
          · exact absurd ⟨out.outAmount, hkeeps⟩ hnone

theorem computeOutAmount_largest_sample :
    (∀ out, computeOutAmount 10 7 100 = .ok out →
      1 ≤ out.outAmount ∧ out.outAmount < 100 ∧ 7 * 100 ≤ (7 + 10) * (100 - out.outAmount) ∧
      (7 + 10) * (100 - out.outAmount - 1) < 7 * 100 ∧
      ∃ impact, out.priceImpact = some impact ∧ 0 ≤ impact ∧ impact < 1) ∧
    ((∃ message, computeOutAmount 10 7 100 = .error message) ↔
      (7 : Int) * 100 < 7 + 10 ∨ ¬ ∃ o : Int, 1 ≤ o ∧ 7 * 100 ≤ (7 + 10) * (100 - o)) :=
  computeOutAmount_largest (by decide) (by decide) (by decide)

/-! ### The least input -/

/-- The swap pays at least the wanted amount. -/
def Suffices (d x y s : Int) : Prop := ∃ out, computeOutAmount s x y = .ok out ∧ d ≤ out.outAmount

/-- The input for `d` is the least one that leaves a product over `y - d`. -/
theorem computeInAmount_ok {d : Int} (hx : 1 ≤ x) (hd : 1 ≤ d) (hdy : d < y) :
    ∃ s, computeInAmount d x y = .ok s ∧ 1 ≤ s ∧
      (x + s - 1) * (y - d) < x * y ∧ x * y ≤ (x + s) * (y - d) := by
  have hpos : 0 < y - d := by omega
  have hle : y - d ≤ x * y := by nlinarith
  obtain ⟨new, divisor, hceil, hlow, hhigh, -⟩ := ceilDiv_ok hpos hle
  have hgrows : x < new := by
    have hlt : x * (y - d) < new * (y - d) := lt_of_lt_of_le (by nlinarith) hhigh
    exact lt_of_mul_lt_mul_right hlt hpos.le
  refine ⟨new - x, ?_, by omega, by simpa using hlow, by simpa using hhigh⟩
  simp only [computeInAmount, hceil, Bind.bind, Except.bind, if_neg (by omega : new - x ≠ 0)]
  rfl

theorem computeInAmount_least {d : Int} (hx : 1 ≤ x) (hy : 1 ≤ y) (hd : 1 ≤ d) (hdy : d < y) :
    ∃ s, computeInAmount d x y = .ok s ∧ 1 ≤ s ∧ Suffices d x y s ∧
      ∀ s', 0 ≤ s' → s' < s → ¬ Suffices d x y s' := by
  obtain ⟨s, hs, hone, hlow, hhigh⟩ := computeInAmount_ok hx hd hdy
  have hnew : x + s ≤ x * y := by
    have : (x + s - 1) * 1 ≤ (x + s - 1) * (y - d) := mul_le_mul_of_nonneg_left (by omega) (by omega)
    omega
  have hkeeps : KeepsProduct s x y d := ⟨hd, hhigh⟩
  refine ⟨s, hs, hone, hkeeps.payable hx hy (by omega) hnew, ?_⟩
  rintro s' hs' hless ⟨out, hout, hle⟩
  obtain ⟨⟨-, hproduct⟩, -, -⟩ := keepsProduct_of_ok hx hy hs' hout
  have hless' : (x + s') * (y - d) ≤ (x + s - 1) * (y - d) :=
    mul_le_mul_of_nonneg_right (by omega) (by omega)
  have hpaid : (x + s') * (y - out.outAmount) ≤ (x + s') * (y - d) :=
    mul_le_mul_of_nonneg_left (by omega) (by omega)
  linarith

theorem computeInAmount_least_sample :
    ∃ s, computeInAmount 99 7 100 = .ok s ∧ 1 ≤ s ∧ Suffices 99 7 100 s ∧
      ∀ s', 0 ≤ s' → s' < s → ¬ Suffices 99 7 100 s' :=
  computeInAmount_least (by decide) (by decide) (by decide) (by decide)

/-! ### A swap in parts -/

/-- One swap of a run: what it paid and the balances it left. -/
structure Part where
  out : OutResult
  source : Int
  destination : Int

def swapInParts : List Int → (source destination : Int) → Throwing (List Part)
  | [], _, _ => pure []
  | amount :: rest, source, destination => do
      let out ← computeOutAmount amount source destination
      let later ← swapInParts rest (source + amount) (destination - out.outAmount)
      pure (⟨out, source + amount, destination - out.outAmount⟩ :: later)

/-- The products of the balances along a run, from the first balances on. -/
def products (x y : Int) (parts : List Part) : List Int :=
  x * y :: parts.map fun part => part.source * part.destination

def totalOut (parts : List Part) : Int := (parts.map fun part => part.out.outAmount).sum

theorem swapInParts_cons_eq_ok {amount : Int} {rest : List Int} {parts : List Part} :
    swapInParts (amount :: rest) x y = .ok parts ↔
      ∃ out later, computeOutAmount amount x y = .ok out ∧
        swapInParts rest (x + amount) (y - out.outAmount) = .ok later ∧
        ⟨out, x + amount, y - out.outAmount⟩ :: later = parts := by
  simp only [swapInParts, bind_eq_ok, pure_eq_ok]
  constructor
  · rintro ⟨out, hout, later, hlater, h⟩
    exact ⟨out, later, hout, hlater, h⟩
  · rintro ⟨out, later, hout, hlater, h⟩
    exact ⟨out, hout, later, hlater, h⟩

/-- No swap of a run lowers the product. -/
theorem products_pairwise {amounts : List Int} {parts : List Part} (hx : 1 ≤ x) (hy : 1 ≤ y)
    (hpos : ∀ amount ∈ amounts, 1 ≤ amount) (h : swapInParts amounts x y = .ok parts) :
    (products x y parts).Pairwise (· ≤ ·) := by
  induction amounts generalizing x y parts with
  | nil =>
      obtain rfl := pure_eq_ok.mp h
      exact List.pairwise_singleton _ _
  | cons amount rest ih =>
      obtain ⟨out, later, hout, hlater, rfl⟩ := swapInParts_cons_eq_ok.mp h
      have hamount : 1 ≤ amount := hpos amount List.mem_cons_self
      obtain ⟨hkeeps, -, -⟩ := keepsProduct_of_ok hx hy (by omega) hout
      have hlt := hkeeps.lt hx hy (by omega)
      have hlater := ih (by omega) (by omega) (fun a ha => hpos a (List.mem_cons_of_mem _ ha)) hlater
      apply List.Pairwise.cons _ hlater
      intro product hproduct
      rcases List.mem_cons.mp hproduct with rfl | hproduct
      · exact hkeeps.2
      · exact hkeeps.2.trans (List.rel_of_pairwise_cons hlater hproduct)

/-- The payments of a run together keep the product, as one payment for the whole amount. -/
theorem totalOut_keepsProduct {amounts : List Int} {parts : List Part} (hx : 1 ≤ x) (hy : 1 ≤ y)
    (hpos : ∀ amount ∈ amounts, 1 ≤ amount) (hne : amounts ≠ []) (h : swapInParts amounts x y = .ok parts) :
    KeepsProduct amounts.sum x y (totalOut parts) := by
  induction amounts generalizing x y parts with
  | nil => exact absurd rfl hne
  | cons amount rest ih =>
      obtain ⟨out, later, hout, hlater, rfl⟩ := swapInParts_cons_eq_ok.mp h
      have hamount : 1 ≤ amount := hpos amount List.mem_cons_self
      obtain ⟨hkeeps, -, -⟩ := keepsProduct_of_ok hx hy (by omega) hout
      have hlt := hkeeps.lt hx hy (by omega)
      cases rest with
      | nil =>
          obtain rfl := pure_eq_ok.mp hlater
          simpa [totalOut] using hkeeps
      | cons next rest =>
          have hrest := ih (by omega) (by omega) (fun a ha => hpos a (List.mem_cons_of_mem _ ha))
            (List.cons_ne_nil _ _) hlater
          have hone := hkeeps.1
          have hmore := hrest.1
          refine ⟨?_, ?_⟩
          · simp only [totalOut, List.map_cons, List.sum_cons] at hmore ⊢
            omega
          · have hproduct := hkeeps.2.trans hrest.2
            simp only [totalOut, List.map_cons, List.sum_cons] at hproduct ⊢
            linarith

theorem swapInParts_le {amounts : List Int} {parts : List Part} (hx : 1 ≤ x) (hy : 1 ≤ y)
    (hne : amounts ≠ []) (hpos : ∀ amount ∈ amounts, 1 ≤ amount)
    (h : swapInParts amounts x y = .ok parts) :
    (products x y parts).Pairwise (· ≤ ·) ∧
      (∀ out, computeOutAmount amounts.sum x y = .ok out → totalOut parts ≤ out.outAmount) ∧
      (x + amounts.sum ≤ x * y → ∃ out, computeOutAmount amounts.sum x y = .ok out) := by
  have hsum : 0 ≤ amounts.sum := List.sum_nonneg fun amount ha => by
    have := hpos amount ha
    omega
  have hkeeps := totalOut_keepsProduct hx hy hpos hne h
  refine ⟨products_pairwise hx hy hpos h, ?_, ?_⟩
  · intro out hout
    exact hkeeps.le_outAmount hx hy hsum hout
  · intro hnew
    obtain ⟨out, hout, -⟩ := hkeeps.payable hx hy hsum hnew
    exact ⟨out, hout⟩

theorem swapInParts_le_sample :
    ∃ parts, swapInParts [10, 1, 25] 7 100 = .ok parts ∧ totalOut parts = 83 ∧
      (products 7 100 parts).Pairwise (· ≤ ·) ∧
      (∀ out, computeOutAmount [10, 1, 25].sum 7 100 = .ok out → totalOut parts ≤ out.outAmount) ∧
      ((7 : Int) + [10, 1, 25].sum ≤ 7 * 100 → ∃ out, computeOutAmount [10, 1, 25].sum 7 100 = .ok out) := by
  have hrun : swapInParts [10, 1, 25] 7 100 = .ok
      [⟨⟨58, getPriceImpact 58 142⟩, 17, 42⟩, ⟨⟨2, getPriceImpact 2 2⟩, 18, 40⟩,
        ⟨⟨23, getPriceImpact 23 55⟩, 43, 17⟩] := rfl
  exact ⟨_, hrun, rfl, swapInParts_le (by decide) (by decide) (by decide) (by decide) hrun⟩

end DynamicAmm.Client

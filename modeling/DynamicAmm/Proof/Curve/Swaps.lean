import DynamicAmm.Proof.Client.Quote
import DynamicAmm.Proof.Curve.Operations
import DynamicAmm.Proof.Curve.Solvers

/-!
# Swaps on an unscaled stable pool

A swap moves the balances to `x + s` and `Y + 1`, where `Y` solves the curve for `x + s` under the
computed `D`. The successor of `Y` is strictly above the curve, so `D` is strictly below the invariant of
the new balances, and the computed invariant of the new balances is one of the integers above it.
-/

namespace DynamicAmm.Client

open Js StableCurve

namespace StableSwap

variable {decoders : StakeDecoders} {curve : StableSwap} {depeg : Depeg} {direction : TradeDirection}
  {s x y : Int} {out : OutResult}

/-- What a swap does: the balance it leaves is above the curve of the invariant it computed. -/
theorem computeOutAmount_above (hunit : Unscaled curve depeg) (hamp : 1 ≤ curve.amp) (hx : 1 ≤ x)
    (hy : 1 ≤ y) (hs : 0 ≤ s)
    (h : (curve.computeOutAmount decoders s x y direction depeg).1 = .ok out) :
    ∃ D, computeD curve.amp x y = .ok D ∧ 1 ≤ D ∧ 0 < poly (curve.amp * 2) x y (D + 1) ∧
      1 ≤ y - out.outAmount ∧ poly (curve.amp * 2) (x + s) (y - out.outAmount) D < 0 := by
  obtain ⟨D, hD, Y, hY, hamount⟩ := hunit.computeOutAmount_eq_ok decoders h
  obtain ⟨D', hD', hpos, habove⟩ := computeD_ok hamp hx hy
  rw [hD, Except.ok.injEq] at hD'
  subst hD'
  obtain ⟨Y', hY', hnonneg, hbelow⟩ := computeY_ok (x := x + s) (d := D) hamp (by omega) (by omega)
  rw [hY, Except.ok.injEq] at hY'
  subst hY'
  have hleft : y - out.outAmount = Y + 1 := by omega
  rw [hleft]
  exact ⟨D, hD, hpos, habove, by omega, hbelow⟩

/-- An invariant that lies below the curve of some balances is at most what is computed for them. -/
theorem le_computeD {amp a b D : Int} (hamp : 1 ≤ amp) (ha : 1 ≤ a) (hb : 1 ≤ b)
    (h : poly (amp * 2) a b D < 0) : ∃ D', computeD amp a b = .ok D' ∧ D ≤ D' := by
  obtain ⟨D', hD', hpos, habove⟩ := computeD_ok hamp ha hb
  refine ⟨D', hD', ?_⟩
  have hlt := lt_of_poly (by omega) (by omega) (by omega) (by omega) h.le habove
  omega

theorem computeOutAmount_computeD_le (hunit : Unscaled curve depeg) (hamp : 1 ≤ curve.amp) (hx : 1 ≤ x)
    (hy : 1 ≤ y) (hs : 0 ≤ s)
    (h : (curve.computeOutAmount decoders s x y direction depeg).1 = .ok out) :
    1 ≤ y - out.outAmount ∧ ∃ D D₁ D₂, computeD curve.amp x y = .ok D ∧
      computeD curve.amp (x + s) (y - out.outAmount) = .ok D₁ ∧
      computeD curve.amp (y - out.outAmount) (x + s) = .ok D₂ ∧ D ≤ D₁ ∧ D ≤ D₂ := by
  obtain ⟨D, hD, -, -, hleft, hbelow⟩ := computeOutAmount_above hunit hamp hx hy hs h
  obtain ⟨D₁, hD₁, hle₁⟩ := le_computeD hamp (by omega) hleft hbelow
  rw [poly_comm] at hbelow
  obtain ⟨D₂, hD₂, hle₂⟩ := le_computeD hamp hleft (by omega) hbelow
  exact ⟨hleft, D, D₁, D₂, hD, hD₁, hD₂, hle₁, hle₂⟩

/-! ### Runs -/

structure Balances where
  tokenA : Int
  tokenB : Int
  deriving DecidableEq, Repr

def Balances.source (balances : Balances) : TradeDirection → Int
  | .aToB => balances.tokenA
  | .bToA => balances.tokenB

def Balances.destination (balances : Balances) : TradeDirection → Int
  | .aToB => balances.tokenB
  | .bToA => balances.tokenA

def Balances.swapped (balances : Balances) (sourceAmount outAmount : Int) : TradeDirection → Balances
  | .aToB => ⟨balances.tokenA + sourceAmount, balances.tokenB - outAmount⟩
  | .bToA => ⟨balances.tokenA - outAmount, balances.tokenB + sourceAmount⟩

structure Swap where
  tradeDirection : TradeDirection
  sourceAmount : Int
  deriving DecidableEq, Repr

variable (decoders curve depeg)

/-- Run swaps one after the other, each on the balances the last one left, and list the invariant that
each of them computes. -/
def runSwaps : List Swap → Balances → Throwing (List Int)
  | [], _ => pure []
  | swap :: swaps, balances => do
      let source := balances.source swap.tradeDirection
      let destination := balances.destination swap.tradeDirection
      let D ← computeD curve.amp source destination
      let out ← (curve.computeOutAmount decoders swap.sourceAmount source destination
        swap.tradeDirection depeg).1
      let rest ← runSwaps swaps
        (balances.swapped swap.sourceAmount out.outAmount swap.tradeDirection)
      pure (D :: rest)

variable {decoders curve depeg}

/-- One swap of a run: the balances stay positive, and in either order their invariant is computed to be
at least the one the swap computed. -/
theorem computeD_le_swapped (hunit : Unscaled curve depeg) (hamp : 1 ≤ curve.amp) {balances : Balances}
    (hA : 1 ≤ balances.tokenA) (hB : 1 ≤ balances.tokenB) (hs : 0 ≤ s) {D : Int}
    (hD : computeD curve.amp (balances.source direction) (balances.destination direction) = .ok D)
    (h : (curve.computeOutAmount decoders s (balances.source direction)
      (balances.destination direction) direction depeg).1 = .ok out) :
    1 ≤ (balances.swapped s out.outAmount direction).tokenA ∧
      1 ≤ (balances.swapped s out.outAmount direction).tokenB ∧
      ∀ next D', computeD curve.amp ((balances.swapped s out.outAmount direction).source next)
        ((balances.swapped s out.outAmount direction).destination next) = .ok D' → D ≤ D' := by
  have hsource : 1 ≤ balances.source direction := by cases direction <;> assumption
  have hdestination : 1 ≤ balances.destination direction := by cases direction <;> assumption
  obtain ⟨hleft, D₀, D₁, D₂, hD₀, hD₁, hD₂, hle₁, hle₂⟩ :=
    computeOutAmount_computeD_le hunit hamp hsource hdestination hs h
  rw [hD, Except.ok.injEq] at hD₀
  subst hD₀
  cases direction with
  | aToB =>
      simp only [Balances.source, Balances.destination] at hsource hleft hD₁ hD₂
      refine ⟨by simp only [Balances.swapped]; omega, hleft, ?_⟩
      intro next D' hD'
      cases next with
      | aToB => exact hle₁.trans_eq (Except.ok.inj (hD₁.symm.trans hD'))
      | bToA => exact hle₂.trans_eq (Except.ok.inj (hD₂.symm.trans hD'))
  | bToA =>
      simp only [Balances.source, Balances.destination] at hsource hleft hD₁ hD₂
      refine ⟨hleft, by simp only [Balances.swapped]; omega, ?_⟩
      intro next D' hD'
      cases next with
      | aToB => exact hle₂.trans_eq (Except.ok.inj (hD₂.symm.trans hD'))
      | bToA => exact hle₁.trans_eq (Except.ok.inj (hD₁.symm.trans hD'))

/-- Whatever bounds the invariant of the balances in both orders bounds every invariant of a run. -/
theorem runSwaps_le (hunit : Unscaled curve depeg) (hamp : 1 ≤ curve.amp) {swaps : List Swap}
    (hamounts : ∀ swap ∈ swaps, 0 ≤ swap.sourceAmount) {balances : Balances}
    (hA : 1 ≤ balances.tokenA) (hB : 1 ≤ balances.tokenB) {ds : List Int}
    (h : runSwaps decoders curve depeg swaps balances = .ok ds) {K : Int}
    (hK : ∀ direction D, computeD curve.amp (balances.source direction) (balances.destination direction) =
      .ok D → K ≤ D) :
    (∀ D ∈ ds, K ≤ D) ∧ ds.Pairwise (· ≤ ·) := by
  induction swaps generalizing balances ds K with
  | nil =>
      simp only [runSwaps, pure_eq_ok] at h
      subst h
      exact ⟨by simp, List.Pairwise.nil⟩
  | cons swap swaps ih =>
      obtain ⟨direction, amount⟩ := swap
      simp only [runSwaps, bind_eq_ok, pure_eq_ok] at h
      obtain ⟨D, hD, out, hout, rest, hrest, hds⟩ := h
      subst hds
      have hamount : 0 ≤ amount := hamounts _ List.mem_cons_self
      have hKD : K ≤ D := hK direction D hD
      obtain ⟨hA', hB', hK'⟩ := computeD_le_swapped hunit hamp hA hB hamount hD hout
      obtain ⟨hbound, hsorted⟩ :=
        ih (fun swap hswap => hamounts swap (List.mem_cons_of_mem _ hswap)) hA' hB' hrest hK'
      refine ⟨?_, List.Pairwise.cons hbound hsorted⟩
      intro D' hD'
      rcases List.mem_cons.mp hD' with rfl | hmem
      · exact hKD
      · exact hKD.trans (hbound D' hmem)

/-- The invariants that the swaps of a run compute never fall. -/
theorem runSwaps_sorted (hunit : Unscaled curve depeg) (hamp : 1 ≤ curve.amp) {swaps : List Swap}
    (hamounts : ∀ swap ∈ swaps, 0 ≤ swap.sourceAmount) {balances : Balances}
    (hA : 1 ≤ balances.tokenA) (hB : 1 ≤ balances.tokenB) {ds : List Int}
    (h : runSwaps decoders curve depeg swaps balances = .ok ds) : ds.Pairwise (· ≤ ·) := by
  obtain ⟨D₁, hD₁, hpos₁, -⟩ := computeD_ok hamp hA hB
  obtain ⟨D₂, hD₂, hpos₂, -⟩ := computeD_ok hamp hB hA
  refine (runSwaps_le (K := 1) hunit hamp hamounts hA hB h ?_).2
  intro direction D hD
  cases direction with
  | aToB => exact hpos₁.trans_eq (Except.ok.inj (hD₁.symm.trans hD))
  | bToA => exact hpos₂.trans_eq (Except.ok.inj (hD₂.symm.trans hD))

/-- A swap never lowers the computed invariant, in either order of the new balances, and so along a run
of swaps the invariants that they compute never fall. -/
theorem swaps_never_lower_computeD (decoders : StakeDecoders) (hunit : Unscaled curve depeg)
    (hamp : 1 ≤ curve.amp) :
    (∀ s x y direction out, 1 ≤ x → 1 ≤ y → 0 ≤ s →
      (curve.computeOutAmount decoders s x y direction depeg).1 = .ok out →
      1 ≤ y - out.outAmount ∧ ∃ D D₁ D₂, computeD curve.amp x y = .ok D ∧
        computeD curve.amp (x + s) (y - out.outAmount) = .ok D₁ ∧
        computeD curve.amp (y - out.outAmount) (x + s) = .ok D₂ ∧ D ≤ D₁ ∧ D ≤ D₂) ∧
    (∀ (swaps : List Swap) (balances : Balances) (ds : List Int),
      (∀ swap ∈ swaps, 0 ≤ swap.sourceAmount) → 1 ≤ balances.tokenA → 1 ≤ balances.tokenB →
      runSwaps decoders curve depeg swaps balances = .ok ds → ds.Pairwise (· ≤ ·)) :=
  ⟨fun _ _ _ _ _ hx hy hs h => computeOutAmount_computeD_le hunit hamp hx hy hs h,
    fun _ _ _ hamounts hA hB h => runSwaps_sorted hunit hamp hamounts hA hB h⟩

def sampleCurve (amp : Int) : StableSwap where
  amp := amp
  tokenMultiplier := ⟨1, 1⟩
  extraAccounts := fun _ => none
  onChainTime := 0
  stakePoolPubkey := Program.Pubkey.replicate 0

def noDepeg : Depeg := ⟨0, 0, .none⟩

theorem sampleCurve_unscaled (amp : Int) : Unscaled (sampleCurve amp) noDepeg := ⟨rfl, rfl⟩

theorem swaps_never_lower_computeD_sample :
    (1 ≤ (3000000 : Int) - 1018 ∧ ∃ D D₁ D₂, computeD 100 1000000 3000000 = .ok D ∧
      computeD 100 (1000000 + 1000) (3000000 - 1018) = .ok D₁ ∧
      computeD 100 (3000000 - 1018) (1000000 + 1000) = .ok D₂ ∧ D ≤ D₁ ∧ D ≤ D₂) ∧
    [3993431, 3993431, (3993431 : Int)].Pairwise (· ≤ ·) := by
  have h := swaps_never_lower_computeD sampleDecoders (sampleCurve_unscaled 100) (by decide)
  exact ⟨h.1 1000 1000000 3000000 .aToB ⟨1018, some (-4 / 505)⟩ (by decide) (by decide) (by decide)
      (by decide +kernel),
    h.2 [⟨.aToB, 1000⟩, ⟨.bToA, 500⟩, ⟨.aToB, 0⟩] ⟨1000000, 3000000⟩ _ (by decide) (by decide)
      (by decide) (by decide)⟩

end StableSwap

end DynamicAmm.Client

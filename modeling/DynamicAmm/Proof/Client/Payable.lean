import DynamicAmm.Proof.Client.ClosedForm
import DynamicAmm.Proof.Client.ConstantProduct
import DynamicAmm.Proof.Curve.Balance
import DynamicAmm.Proof.Curve.Operations

/-!
# When a quote is an amount that can be paid

The last guard of a quote bounds the amount out from above, and nothing bounds it from below. A constant
product pool pays if what it is credited covers the fee. A stable pool pays if its invariant grows past a whole
number although two units of the output token are taken out: one unit is withheld, and the two solvers may
take the other.
-/

namespace DynamicAmm.Client

open Js StableCurve
open Program (Pubkey)

/-- If the quote returns, its amount is not negative, and it is less than what the pool has of the token
and less than the reserve of the vault. -/
def Payable (sdk : VaultSdk) (decoders : StakeDecoders) (inTokenMint : Pubkey) (inAmount : Int)
    (params : SwapQuoteParam) (swapInitiator : Option Pubkey) (poolState : PoolState)
    (backing : Backing) : Prop :=
  ∀ result, (calculateSwapQuote sdk decoders inTokenMint inAmount params swapInitiator poolState).1 =
      .ok result →
    0 ≤ result.amountOut ∧
      result.amountOut <
        (params.sidesOf backing (tradeDirectionOf inTokenMint poolState)).swapDestinationAmount ∧
      result.amountOut < params.destinationReserve (tradeDirectionOf inTokenMint poolState)

/-- Accounts as the programs keep them: the vaults are backed, and the pool's LP is part of the supply. -/
structure SwapQuoteParam.WellFormed (params : SwapQuoteParam) (backing : Backing) : Prop where
  backingA_nonneg : 0 ≤ backing.a
  backingB_nonneg : 0 ≤ backing.b
  poolVaultALp_nonneg : 0 ≤ params.poolVaultALp
  poolVaultALp_le : params.poolVaultALp ≤ params.vaultALpSupply
  poolVaultBLp_nonneg : 0 ≤ params.poolVaultBLp
  poolVaultBLp_le : params.poolVaultBLp ≤ params.vaultBLpSupply
  vaultAReserve_nonneg : 0 ≤ params.vaultAReserve
  vaultBReserve_nonneg : 0 ≤ params.vaultBReserve

/-! ### What covers an amount -/

/-- The source amount is not negative, or it takes more than there is, or there is nothing to pay. -/
def ConstantProductSwap.Covers (s x y : Int) : Prop := 0 ≤ s ∨ x + s ≤ 0 ∨ y = 0

theorem ConstantProductSwap.Covers.outAmount_nonneg {s x y : Int} {out : OutResult} (hx : 0 ≤ x) (hy : 0 ≤ y)
    (h : Covers s x y) (hout : computeOutAmount s x y = .ok out) : 0 ≤ out.outAmount := by
  have hproduct := mul_nonneg hx hy
  have hne := computeOutAmount_new_ne hout
  rcases h with hs | hnew | rfl
  · exact (computeOutAmount_pos hx hy hs hout).le
  · have := computeOutAmount_gt hproduct (by omega) hout
    omega
  · by_contra hneg
    rcases lt_or_gt_of_ne hne with hnew | hnew
    · have := computeOutAmount_gt hproduct hnew hout
      omega
    · obtain ⟨-, hle, -⟩ := (computeOutAmount_eq_ok hproduct hnew).mp ⟨out, hout, rfl⟩
      omega

/-- Where the source amount is not covered, the curve asks for something. -/
theorem ConstantProductSwap.exists_outAmount_neg {s x y : Int} (hx : 0 ≤ x) (hy : 0 ≤ y) (h : ¬ Covers s x y) :
    ∃ out, computeOutAmount s x y = .ok out ∧ out.outAmount < 0 := by
  simp only [Covers, not_or, not_le] at h
  obtain ⟨hs, hnew, hy'⟩ := h
  have hproduct := mul_nonneg hx hy
  obtain ⟨hlow, hhigh⟩ := roundedUp_neg_ediv (x * y) hnew
  have hneg : y < -(-(x * y) / (x + s)) := by
    by_contra hle
    have hy'' : 0 < y := lt_of_le_of_ne hy (Ne.symm hy')
    have hkept := mul_le_mul_of_nonneg_right (not_lt.mp hle) hnew.le
    have : y * s < 0 := mul_neg_of_pos_of_neg hy'' hs
    linarith
  have hy'' : 1 ≤ y := by omega
  obtain ⟨out, hout, hamount⟩ := (computeOutAmount_eq_ok (o := y - -(-(x * y) / (x + s))) hproduct hnew).mpr
    ⟨by omega, by nlinarith, by omega, by linarith, by linarith⟩
  exact ⟨out, hout, by omega⟩

/-- Scaling down divides by what scaling up multiplies with. -/
theorem StableSwap.downscaleDestination_eq (curve : StableSwap) (depeg : Depeg) (direction : TradeDirection) :
    ∃ multiplier price, multiplier * price = curve.upscaleDestination depeg direction 1 ∧
      ∀ amount result, curve.downscaleDestination depeg direction amount = .ok result →
        (amount.tdiv multiplier).tdiv price = result := by
  by_cases h : depeg.depegType = .none
  · cases direction with
    | aToB =>
        refine ⟨curve.tokenMultiplier.tokenBMultiplier, 1, ?_, ?_⟩
        · simp [upscaleDestination, upscaleTokenB, h]
        · intro amount result
          simp [downscaleDestination, downscaleTokenB, h, BN.div_eq_ok]
    | bToA =>
        refine ⟨curve.tokenMultiplier.tokenAMultiplier, 1, ?_, ?_⟩
        · simp [upscaleDestination, upscaleTokenA, h]
        · intro amount result
          simp [downscaleDestination, downscaleTokenA, h, BN.div_eq_ok]
  · cases direction with
    | aToB =>
        refine ⟨curve.tokenMultiplier.tokenBMultiplier, depeg.baseVirtualPrice, ?_, ?_⟩
        · simp [upscaleDestination, upscaleTokenB, h]
        · intro amount result
          simp [downscaleDestination, downscaleTokenB, h, bind_eq_ok, BN.div_eq_ok]
    | bToA =>
        refine ⟨curve.tokenMultiplier.tokenAMultiplier, precision, ?_, ?_⟩
        · simp [upscaleDestination, upscaleTokenA, h]
        · intro amount result
          simp [downscaleDestination, downscaleTokenA, h, bind_eq_ok, BN.div_eq_ok]

def StableSwap.Covers (curve : StableSwap) (depeg : Depeg) (direction : TradeDirection) (s x y : Int) : Prop :=
  Covered curve.amp (curve.upscaleSource depeg direction x) (curve.upscaleDestination depeg direction y)
    (curve.upscaleSource depeg direction s) (curve.upscaleDestination depeg direction 1)

theorem StableSwap.Covers.outAmount_nonneg {curve : StableSwap} {depeg : Depeg} {direction : TradeDirection}
    {s x y : Int} {out : OutResult} (h : curve.Covers depeg direction s x y)
    (hout : curve.computeOutAmountAt depeg s x y direction = .ok out) : 0 ≤ out.outAmount := by
  rw [computeOutAmountAt_eq_ok] at hout
  obtain ⟨D, hD, Y, hY, -, -, hdown, -⟩ := hout
  obtain ⟨multiplier, price, hunit, hdownscale⟩ := curve.downscaleDestination_eq depeg direction
  have hlt := Covered.computeY_lt h hD hY
  have hpos := Covered.unit_pos h
  rw [← hunit] at hlt hpos
  rw [← hdownscale _ _ hdown, tdiv_tdiv]
  exact tdiv_nonneg_of_neg_lt (by omega) (by omega)

/-! ### The quote -/

/-- The stable curve of a quote. -/
def SwapQuoteParam.stableSwap (params : SwapQuoteParam) (poolState : PoolState) (amp : Int)
    (tokenMultiplier : TokenMultiplier) : StableSwap where
  amp := amp
  tokenMultiplier := tokenMultiplier
  extraAccounts := params.depegAccounts
  onChainTime := params.currentTime.val
  stakePoolPubkey := poolState.stake

variable {sdk : VaultSdk} {decoders : StakeDecoders} {inTokenMint : Pubkey} {inAmount : Int}
  {params : SwapQuoteParam} {swapInitiator : Option Pubkey} {poolState : PoolState} {backing : Backing}
  {direction : TradeDirection}

/-- What the deposit of the in amount is credited covers the fee that is left in the pool, and at a stable pool
what is withheld, at the price in force. -/
def Covers (decoders : StakeDecoders) (inAmount : Int) (params : SwapQuoteParam) (poolState : PoolState)
    (backing : Backing) (direction : TradeDirection) : Prop :=
  let s := params.netSourceAmount backing poolState.fees direction inAmount
  let sides := params.sidesOf backing direction
  match poolState.curveType with
  | .constantProduct => ConstantProductSwap.Covers s sides.swapSourceAmount sides.swapDestinationAmount
  | .stable amp tokenMultiplier _ =>
      let curve := params.stableSwap poolState amp tokenMultiplier
      let depeg := (curve.updateDepegInfoIfExpired decoders poolState.depeg).2
      curve.Covers depeg direction s sides.swapSourceAmount sides.swapDestinationAmount

theorem SwapQuoteParam.WellFormed.sides_nonneg (h : params.WellFormed backing)
    (direction : TradeDirection) :
    0 ≤ (params.sidesOf backing direction).swapSourceAmount ∧
      0 ≤ (params.sidesOf backing direction).swapDestinationAmount ∧
      0 ≤ (params.sidesOf backing direction).swapDestinationVaultLpSupply ∧
      0 ≤ backing.destination direction ∧ 0 ≤ params.destinationReserve direction := by
  have hsupplyA := h.poolVaultALp_nonneg.trans h.poolVaultALp_le
  have hsupplyB := h.poolVaultBLp_nonneg.trans h.poolVaultBLp_le
  have hA : 0 ≤ params.tokenAAmount backing :=
    Int.tdiv_nonneg (mul_nonneg h.poolVaultALp_nonneg h.backingA_nonneg) hsupplyA
  have hB : 0 ≤ params.tokenBAmount backing :=
    Int.tdiv_nonneg (mul_nonneg h.poolVaultBLp_nonneg h.backingB_nonneg) hsupplyB
  cases direction with
  | aToB => exact ⟨hA, hB, hsupplyB, h.backingB_nonneg, h.vaultBReserve_nonneg⟩
  | bToA => exact ⟨hB, hA, hsupplyA, h.backingA_nonneg, h.vaultAReserve_nonneg⟩

/-- Whatever the curve of the quote, what it pays for a covered amount is not negative. -/
theorem Covers.outAmount_nonneg {swapCurve : SwapCurve} {out : OutResult}
    (hparams : params.WellFormed backing) (h : Covers decoders inAmount params poolState backing direction)
    (hcurve : makeSwapCurve inTokenMint params swapInitiator poolState = .ok swapCurve)
    (hout : (swapCurve.computeOutAmount decoders
      (params.netSourceAmount backing poolState.fees direction inAmount)
      (params.sidesOf backing direction).swapSourceAmount
      (params.sidesOf backing direction).swapDestinationAmount direction poolState).1 = .ok out) :
    0 ≤ out.outAmount := by
  obtain ⟨hx, hy, -⟩ := hparams.sides_nonneg direction
  cases htype : poolState.curveType with
  | constantProduct =>
      obtain ⟨-, -, -, rfl⟩ := (makeSwapCurve_constantProduct htype).mp hcurve
      simp only [Covers, htype] at h
      exact h.outAmount_nonneg hx hy hout
  | stable amp tokenMultiplier depeg =>
      obtain ⟨-, -, -, rfl⟩ := (makeSwapCurve_stable htype).mp hcurve
      simp only [Covers, htype] at h
      change ((params.stableSwap poolState amp tokenMultiplier).withRefreshed decoders _ poolState.depeg).1 =
        .ok out at hout
      rw [StableSwap.withRefreshed_apply] at hout
      obtain ⟨-, -, hout⟩ := bind_eq_ok.mp hout
      exact h.outAmount_nonneg hout

/-- A quote for a covered amount can be paid. Past the guards, a constant product pool whose output vault has not
earned anything quotes a negative amount for any other. -/
theorem payable_of_covers (hsdk : sdk.Lawful) (hbacking : backing.Of sdk params)
    (hparams : params.WellFormed backing) (hmints : poolState.tokenAMint ≠ poolState.tokenBMint)
    (hdirection : tradeDirectionOf inTokenMint poolState = direction) :
    (Covers decoders inAmount params poolState backing direction →
      Payable sdk decoders inTokenMint inAmount params swapInitiator poolState backing) ∧
    (poolState.curveType = .constantProduct →
      backing.destination direction = (params.sidesOf backing direction).swapDestinationVaultLpSupply →
      makeSwapCurve inTokenMint params swapInitiator poolState = .ok .constantProduct →
      (∃ source, settleSource sdk inTokenMint inAmount params poolState = .ok source) →
      Payable sdk decoders inTokenMint inAmount params swapInitiator poolState backing →
      Covers decoders inAmount params poolState backing direction) := by
  subst hdirection
  obtain ⟨hx, hy, hsupply, hdestination, hreserve⟩ :=
    hparams.sides_nonneg (tradeDirectionOf inTokenMint poolState)
  constructor
  · intro hcovers result hquote
    obtain ⟨swapCurve, hcurve, source, hsource, out, hout, hpay⟩ := calculateSwapQuote_eq_ok.mp hquote
    obtain ⟨hsides, -, hnet, -⟩ := settleSource_value hsdk hbacking rfl hsource
    rw [hnet, hsides] at hout
    rw [payDestination_closed hsdk hbacking hmints rfl hsides] at hpay
    obtain ⟨-, -, hamount, hlt, hlt', -⟩ := hpay
    refine ⟨?_, hlt, hlt'⟩
    rw [hamount]
    exact paidInShares_nonneg hdestination hsupply (hcovers.outAmount_nonneg hparams hcurve hout)
  · intro htype hpar hcurve ⟨source, hsource⟩ hpayable
    by_contra hcovers
    simp only [Covers, htype] at hcovers
    obtain ⟨out, hout, hneg⟩ := ConstantProductSwap.exists_outAmount_neg hx hy hcovers
    obtain ⟨hsides, -, hnet, -⟩ := settleSource_value hsdk hbacking rfl hsource
    have hsome : (params.sidesOf backing (tradeDirectionOf inTokenMint poolState)).swapDestinationAmount ≠ 0 :=
      fun hzero => hcovers (.inr (.inr hzero))
    have hshares := mt (destinationAmount_of_empty params backing) hsome
    -- The quote that returns the negative amount passes the last guard, which only looks upward.
    have hquote : payDestination sdk inTokenMint params poolState source out = .ok {
        amountOut := out.outAmount
        fee := source.tradeFeeAfterProtocolFee
        priceImpact := out.priceImpact } := by
      rw [payDestination_closed hsdk hbacking hmints rfl hsides, hpar]
      refine ⟨hshares, hshares, ?_, by simp only; omega, by simp only; omega, rfl, rfl⟩
      rw [paidInShares, Int.mul_tdiv_cancel _ hshares, Int.mul_tdiv_cancel _ hshares]
    rw [← hnet, ← hsides] at hout
    obtain ⟨hge, -⟩ := hpayable _ (calculateSwapQuote_eq_ok.mpr
      ⟨.constantProduct, hcurve, source, hsource, out, hout, hquote⟩)
    simp only at hge
    omega

def sampleEvenParams : SwapQuoteParam := sampleParams 1000000 1000000 sampleTime (fun _ => none)

def sampleStableState : PoolState :=
  samplePoolState ⟨250, 100000, 20000, 100000⟩ (.stable 100 ⟨1, 1⟩ ⟨1000000, 0, .none⟩)

/-- A swap of a thousand takes the stable invariant past 900500, and covers its fee in either pool. -/
theorem payable_of_covers_sample :
    Payable sampleSdk sampleDecoders sampleMintA 1000 sampleEvenParams none sampleStableState
        ⟨1000000, 1000000⟩ ∧
      Payable sampleSdk sampleDecoders sampleMintA 1000 sampleEvenParams none
        (samplePoolState ⟨250, 100000, 20000, 100000⟩ .constantProduct) ⟨1000000, 1000000⟩ := by
  have hbacking : Backing.Of ⟨1000000, 1000000⟩ sampleSdk sampleEvenParams := ⟨rfl, rfl⟩
  have hparams : sampleEvenParams.WellFormed ⟨1000000, 1000000⟩ := by constructor <;> decide
  have haToB : ∀ curveType, tradeDirectionOf sampleMintA (samplePoolState ⟨250, 100000, 20000, 100000⟩ curveType) =
      .aToB := fun _ => rfl
  constructor
  · refine (payable_of_covers sampleSdk_lawful hbacking hparams (by decide) (haToB _)).1 ?_
    have hcovered : Covered 100 500000 400000 998 1 := by
      refine ⟨?_, ?_, ?_, ?_, ?_, ?_, ?_, ?_, ?_, ?_, ?_, ?_, 900500, ?_, ?_, ?_⟩ <;> decide
    exact hcovered
  · exact (payable_of_covers sampleSdk_lawful hbacking hparams (by decide) (haToB _)).1 (Or.inl (by decide))

/-- A source vault whose shares are worth a million each, of which the pool holds one. -/
def sampleCoarseParams : SwapQuoteParam :=
  { sampleParams 1000000000000 1000000 sampleTime (fun _ => none) with poolVaultALp := 1 }

/-- An in amount that buys no share does not cover its fee, and a stable quote of nothing is withheld one
unit: both are returned as negative amounts. -/
theorem quotes_negative :
    ¬ Payable sampleSdk sampleDecoders sampleMintA 999999 sampleCoarseParams none
        (samplePoolState ⟨250, 100000, 20000, 100000⟩ .constantProduct) ⟨1000000000000, 1000000⟩ ∧
      (calculateSwapQuote sampleSdk sampleDecoders sampleMintA 999999 sampleCoarseParams none
        (samplePoolState ⟨250, 100000, 20000, 100000⟩ .constantProduct)).1.map SwapResult.amountOut =
        .ok (-802) ∧
      (calculateSwapQuote sampleSdk sampleDecoders sampleMintA 0 sampleEvenParams none
        (samplePoolState ⟨250, 100000, 20000, 100000⟩
          (.stable 100 ⟨1, 1⟩ ⟨1000000, 0, .none⟩))).1.map SwapResult.amountOut = .ok (-1) := by
  have hproduct : (calculateSwapQuote sampleSdk sampleDecoders sampleMintA 999999 sampleCoarseParams none
      (samplePoolState ⟨250, 100000, 20000, 100000⟩ .constantProduct)).1.map SwapResult.amountOut =
      .ok (-802) := by
    decide +kernel
  refine ⟨?_, hproduct, by decide +kernel⟩
  intro hpayable
  cases h : (calculateSwapQuote sampleSdk sampleDecoders sampleMintA 999999 sampleCoarseParams none
      (samplePoolState ⟨250, 100000, 20000, 100000⟩ .constantProduct)).1 with
  | error e => rw [h] at hproduct; cases hproduct
  | ok result =>
      rw [h] at hproduct
      have hamount : result.amountOut = -802 := Except.ok.inj hproduct
      obtain ⟨hge, -⟩ := hpayable result h
      omega

end DynamicAmm.Client

import DynamicAmm.Client.MaxSwap
import DynamicAmm.Proof.Client.BestPayout
import DynamicAmm.Proof.Client.Payable
import DynamicAmm.Proof.Client.Pooled

/-!
# Whether the largest amount in can be quoted

The largest amount in is the least one for which the curve pays the limit, less the fees on it. A quote
takes at least the same fees, so it pays less than the limit if any is taken or a deposit loses anything.
If nothing is, it pays the limit or more, and a quote has to stay below. That is only so if the limit is
the reserve: the pool's own amount is lowered by one beforehand.
-/

namespace DynamicAmm.Client

open Js
open Program (Pubkey)

def outAmountTooLarge : String := "Out amount > vault reserve"

/-- The largest amount in, if it is one, is not refused for what it would pay. -/
def QuotesMaxIn (sdk : VaultSdk) (decoders : StakeDecoders) (poolInfo : PoolInformation)
    (params : SwapQuoteParam) (swapInitiator : Option Pubkey) (tokenMint : Pubkey) (poolState : PoolState) :
    Prop :=
  ∀ maxInAmount,
    (getMaxSwapInAmount decoders poolInfo params .constantProduct tokenMint poolState).1 = .ok maxInAmount →
    0 < maxInAmount →
    (calculateSwapQuote sdk decoders tokenMint maxInAmount params swapInitiator poolState).1 ≠
      .error outAmountTooLarge

/-- The least amount in for which the curve pays an amount. -/
def leastAmountIn (swapSourceAmount swapDestinationAmount amount : Int) : Int :=
  -(-(swapSourceAmount * amount) / (swapDestinationAmount - amount))

/-- The reserve is what limits the pool, and the least amount in for which the curve pays it is too small
for a fee, is credited in full and is still paid the reserve in whole shares. -/
def SwapQuoteParam.Drained (params : SwapQuoteParam) (backing : Backing) (fees : PoolFees)
    (direction : TradeDirection) : Prop :=
  let sides := params.sidesOf backing direction
  let reserve := params.destinationReserve direction
  let amountIn := leastAmountIn sides.swapSourceAmount sides.swapDestinationAmount reserve
  (0 < reserve ∧ reserve < sides.swapDestinationAmount) ∧
  (amountIn * fees.tradeFeeNumerator < fees.tradeFeeDenominator ∧
    amountIn * fees.protocolTradeFeeNumerator < fees.protocolTradeFeeDenominator) ∧
  params.amountAfterDeposit backing direction amountIn = sides.swapSourceAmount + amountIn ∧
  reserve ≤ paidInShares (backing.destination direction) sides.swapDestinationVaultLpSupply
    (sides.swapDestinationAmount * amountIn / (sides.swapSourceAmount + amountIn))

theorem bind_ne_error {α β : Type} {x : Throwing α} {next : α → Throwing β} {e : String} (hx : x ≠ .error e)
    (hnext : ∀ a, next a ≠ .error e) : x >>= next ≠ .error e := by
  cases x with
  | error e' => exact fun h => hx (congrArg Except.error (Except.error.inj h))
  | ok a => exact hnext a

/-! ### The curve -/

section Curve

open ConstantProductSwap

variable {s x y d k : Int} {out : OutResult}

theorem leastAmountIn_bounds (x : Int) (hdy : d < y) :
    (x + leastAmountIn x y d - 1) * (y - d) < x * y ∧ x * y ≤ (x + leastAmountIn x y d) * (y - d) := by
  obtain ⟨hlow, hhigh⟩ := roundedUp_neg_ediv (x * d) (by omega : 0 < y - d)
  rw [leastAmountIn]
  constructor <;> linarith

theorem leastAmountIn_pos (hx : 1 ≤ x) (hd : 1 ≤ d) (hdy : d < y) : 0 < leastAmountIn x y d := by
  obtain ⟨-, hhigh⟩ := leastAmountIn_bounds x hdy
  have hless : x * (y - d) < x * y := mul_lt_mul_of_pos_left (by omega) (by omega)
  have := lt_of_mul_lt_mul_right (hless.trans_le hhigh) (by omega)
  omega

/-- The curve's amount in for one that it has is the least one, and there is none for nothing. -/
theorem computeInAmount_eq_ok (hx : 1 ≤ x) (hd : 0 ≤ d) (hdy : d < y) :
    computeInAmount d x y = .ok s ↔ 1 ≤ d ∧ s = leastAmountIn x y d := by
  obtain ⟨hlow, hhigh⟩ := leastAmountIn_bounds x hdy
  rcases lt_or_eq_of_le hd with hpos | rfl
  · obtain ⟨s', hs', -, hlow', hhigh'⟩ := computeInAmount_ok hx hpos hdy
    have hsum := roundedUp_unique (by omega : 0 < y - d) hlow' hhigh' hlow hhigh
    rw [hs', Except.ok.injEq]
    omega
  · have hceil : ∃ divisor, ceilDiv (x * y) (y - 0) = .ok (x, divisor) := by
      have hle : y - 0 ≤ x * y := by nlinarith
      obtain ⟨new, divisor, hceil, hlow, hhigh, -⟩ := ceilDiv_ok (by omega : 0 < y - 0) hle
      have hnew : new = x := by
        have hlt : (new - 1) * y < x * y := by linarith
        have hle : x * y ≤ new * y := by linarith
        have := lt_of_mul_lt_mul_right hlt (by omega)
        have := le_of_mul_le_mul_right hle (by omega)
        omega
      exact ⟨divisor, hnew ▸ hceil⟩
    obtain ⟨divisor, hceil⟩ := hceil
    simp only [computeInAmount, hceil, Bind.bind, Except.bind, sub_self, if_true]
    constructor
    · intro h
      cases h
    · rintro ⟨h, -⟩
      omega

/-- For less than the least amount in, the curve pays less. -/
theorem outAmount_lt (hx : 1 ≤ x) (hy : 1 ≤ y) (hdy : d < y) (hless : k < leastAmountIn x y d)
    (hnew : 0 < x + k) (h : computeOutAmount k x y = .ok out) : out.outAmount < d := by
  obtain ⟨-, -, -, -, hkeeps⟩ := (computeOutAmount_eq_ok (by positivity) hnew).mp ⟨out, h, rfl⟩
  by_contra hge
  have hkept : (y - out.outAmount) * (x + k) ≤ (y - d) * (x + k) :=
    mul_le_mul_of_nonneg_right (by omega) hnew.le
  have hin : (y - d) * (x + k) ≤ (y - d) * (x + leastAmountIn x y d - 1) :=
    mul_le_mul_of_nonneg_left (by omega) (by omega)
  linarith [(leastAmountIn_bounds x hdy).1]

theorem outAmount_lt_destination (hx : 1 ≤ x) (hy : 1 ≤ y) (hnew : 0 < x + k)
    (h : computeOutAmount k x y = .ok out) : out.outAmount < y := by
  obtain ⟨-, -, -, -, hkeeps⟩ := (computeOutAmount_eq_ok (by positivity) hnew).mp ⟨out, h, rfl⟩
  have hproduct : 0 < x * y := by positivity
  have := pos_of_mul_pos_left (hproduct.trans_le hkeeps) hnew.le
  omega

/-- For the least amount in, the curve pays its share of the destination, rounded down. -/
theorem computeOutAmount_leastAmountIn (hx : 1 ≤ x) (hd : 1 ≤ d) (hdy : d < y) :
    ∃ out, computeOutAmount (leastAmountIn x y d) x y = .ok out ∧
      out.outAmount = y * leastAmountIn x y d / (x + leastAmountIn x y d) := by
  have hs := (computeInAmount_eq_ok hx (by omega) hdy).mpr ⟨hd, rfl⟩
  obtain ⟨s, hs', hone, ⟨out, hout, hpaid⟩, -⟩ := computeInAmount_least hx (by omega) hd hdy
  obtain rfl : leastAmountIn x y d = s := Except.ok.inj (hs.symm.trans hs')
  generalize leastAmountIn x y d = s at *
  have hnew : 0 < x + s := by omega
  refine ⟨out, hout, ?_⟩
  obtain ⟨-, -, -, hlow, hhigh⟩ :=
    (computeOutAmount_eq_ok (mul_nonneg (by omega) (by omega)) hnew).mp ⟨out, hout, rfl⟩
  rw [eq_comm, Int.ediv_eq_iff_of_pos hnew]
  constructor <;> linarith

/-- What the curve throws is not about the reserve. -/
theorem computeOutAmount_ne_tooLarge : computeOutAmount k x y ≠ .error outAmountTooLarge := by
  have hdiv : ∀ a b, BN.div a b ≠ .error outAmountTooLarge ∧ BN.mod a b ≠ .error outAmountTooLarge := by
    intro a b
    unfold BN.div BN.mod
    split <;> simp [assertionFailed, outAmountTooLarge]
  have hceil : ∀ a b, ceilDiv a b ≠ .error outAmountTooLarge := by
    intro a b
    refine bind_ne_error (hdiv _ _).1 fun quotient => ?_
    split
    · simp [throw, throwThe, MonadExceptOf.throw, Bind.bind, Except.bind, outAmountTooLarge]
    · refine bind_ne_error (hdiv _ _).2 fun remainder => ?_
      split
      · exact bind_ne_error (hdiv _ _).1 fun _ => bind_ne_error (hdiv _ _).2 fun _ => by simp [Pure.pure, Except.pure]
      · simp [Pure.pure, Except.pure]
  refine bind_ne_error (hceil _ _) fun quotient => ?_
  simp only
  split
  · simp [throw, throwThe, MonadExceptOf.throw, Bind.bind, Except.bind, outAmountTooLarge]
  · exact bind_ne_error (hdiv _ _).1 fun _ => by simp [Pure.pure, Except.pure]

end Curve

/-! ### The quote -/

section Quote

variable {sdk : VaultSdk} {decoders : StakeDecoders} {inTokenMint : Pubkey} {inAmount : Int}
  {params : SwapQuoteParam} {swapInitiator : Option Pubkey} {poolState : PoolState} {backing : Backing}
  {direction : TradeDirection}

/-- A pool that has both tokens and whose trade fee is less than what it is taken from. -/
structure SwapQuoteParam.Tradable (params : SwapQuoteParam) (backing : Backing) (fees : PoolFees) : Prop
    extends params.WellFormed backing, fees.Valid where
  tokenA_pos : 0 < params.tokenAAmount backing
  tokenB_pos : 0 < params.tokenBAmount backing
  trade_lt : fees.tradeFeeNumerator < fees.tradeFeeDenominator

theorem fraction_eq_zero {amount numerator denominator : Int} (hamount : 0 ≤ amount)
    (hnumerator : 0 ≤ numerator) (hpos : 0 < denominator) :
    (amount * numerator).tdiv denominator = 0 ↔ amount * numerator < denominator := by
  have hproduct : 0 ≤ amount * numerator := mul_nonneg hamount hnumerator
  rw [Int.tdiv_eq_ediv_of_nonneg hproduct]
  have hnonneg := Int.ediv_nonneg hproduct hpos.le
  have hone : amount * numerator / denominator < 1 ↔ amount * numerator < 1 * denominator :=
    Int.ediv_lt_iff_lt_mul hpos
  rw [one_mul] at hone
  omega

namespace SwapQuoteParam.Tradable

variable {fees : PoolFees} (h : params.Tradable backing fees)

include h

theorem fee_bounds (hpos : 0 < inAmount) :
    (0 ≤ fees.tradeFee inAmount ∧ fees.tradeFee inAmount < inAmount) ∧
      0 ≤ fees.protocolFee inAmount ∧ fees.protocolFee inAmount ≤ fees.tradeFee inAmount := by
  have hproduct : 0 ≤ inAmount * fees.tradeFeeNumerator := mul_nonneg hpos.le h.trade_nonneg
  have htrade : 0 ≤ fees.tradeFee inAmount := Int.tdiv_nonneg hproduct h.trade_pos.le
  refine ⟨⟨htrade, ?_⟩, ?_⟩
  · rw [PoolFees.tradeFee, Int.tdiv_eq_ediv_of_nonneg hproduct, Int.ediv_lt_iff_lt_mul h.trade_pos]
    exact mul_lt_mul_of_pos_left h.trade_lt hpos
  · exact div_fraction_bounds htrade h.protocol_nonneg h.protocol_le h.protocol_pos
      (BN.div_eq_ok.mpr ⟨h.protocol_pos.ne', rfl⟩)

theorem sides_pos (direction : TradeDirection) :
    0 < (params.sidesOf backing direction).swapSourceAmount ∧
      0 < (params.sidesOf backing direction).swapDestinationAmount := by
  cases direction with
  | aToB => exact ⟨h.tokenA_pos, h.tokenB_pos⟩
  | bToA => exact ⟨h.tokenB_pos, h.tokenA_pos⟩

theorem exists_holds : ∃ vA vB : ShareVault, params.Holds backing vA vB := by
  obtain ⟨vA, htotalA, hsupplyA, hheldA⟩ :=
    exists_shareVault h.backingA_nonneg h.poolVaultALp_nonneg h.poolVaultALp_le
  obtain ⟨vB, htotalB, hsupplyB, hheldB⟩ :=
    exists_shareVault h.backingB_nonneg h.poolVaultBLp_nonneg h.poolVaultBLp_le
  exact ⟨vA, vB, htotalA.symm, hsupplyA.symm, hheldA.symm, htotalB.symm, hsupplyB.symm, hheldB.symm⟩

/-- What is credited leaves the pool with some of the source token and is no more than the amount in less
the trade fee on it. -/
theorem netSourceAmount_bounds (direction : TradeDirection) (hpos : 0 < inAmount) :
    0 < (params.sidesOf backing direction).swapSourceAmount +
        params.netSourceAmount backing fees direction inAmount ∧
      params.netSourceAmount backing fees direction inAmount ≤ inAmount - fees.tradeFee inAmount := by
  obtain ⟨vA, vB, hholds⟩ := h.exists_holds
  obtain ⟨⟨htrade, htrade_lt⟩, hprotocol, hcut⟩ := h.fee_bounds hpos
  obtain ⟨hx, -⟩ := hholds.sides direction
  have hvalue : 0 < (direction.source vA vB).value := by
    exact_mod_cast hx ▸ (h.sides_pos direction).1
  obtain ⟨hheld, htotal⟩ := (direction.source vA vB).pos_of_value_pos hvalue
  obtain ⟨n, hn⟩ := Int.eq_ofNat_of_zero_le (by omega : 0 ≤ inAmount - fees.protocolFee inAmount)
  have hdeposited := (direction.source vA vB).le_value_deposit hheld htotal n
  have hcredited := (direction.source vA vB).value_deposit_le_value_add
    (hheld.trans_le (direction.source vA vB).held_le) n
  rw [SwapQuoteParam.netSourceAmount, hn, hholds.amountAfterDeposit, hx]
  omega

theorem settles (hsdk : sdk.Lawful) (hbacking : backing.Of sdk params) (hfees : fees = poolState.fees)
    (hdirection : tradeDirectionOf inTokenMint poolState = direction) (hpos : 0 < inAmount) :
    ∃ source, settleSource sdk inTokenMint inAmount params poolState = .ok source := by
  subst hfees
  obtain ⟨vA, vB, hholds⟩ := h.exists_holds
  obtain ⟨⟨htrade, htrade_lt⟩, hprotocol, hcut⟩ := h.fee_bounds hpos
  have hsupplies : params.vaultALpSupply ≠ 0 ∧ params.vaultBLpSupply ≠ 0 := by
    constructor
    · intro hzero
      have hA := h.tokenA_pos
      rw [tokenAAmount, hzero, Int.tdiv_zero] at hA
      exact lt_irrefl _ hA
    · intro hzero
      have hB := h.tokenB_pos
      rw [tokenBAmount, hzero, Int.tdiv_zero] at hB
      exact lt_irrefl _ hB
  obtain ⟨hx, -, -, hsupply, -, htotal, -⟩ := hholds.sides direction
  have hvalue : 0 < (direction.source vA vB).value := by
    exact_mod_cast hx ▸ (h.sides_pos direction).1
  obtain ⟨hheld, htotal_pos⟩ := (direction.source vA vB).pos_of_value_pos hvalue
  have hsupply_pos := hheld.trans_le (direction.source vA vB).held_le
  obtain ⟨n, hn⟩ := Int.eq_ofNat_of_zero_le (by omega : 0 ≤ inAmount - poolState.fees.protocolFee inAmount)
  refine exists_settleSource hsdk hbacking hdirection hsupplies.1 hsupplies.2 h.trade_pos.ne' h.protocol_pos.ne' ?_ ?_
  · rw [htotal]
    omega
  · rw [hn, hsupply, htotal, sharesFor_tdiv]
    omega

/-- Whole shares are worth no more than what they are paid for, and less than the limit if that is. -/
theorem paidInShares_lt (direction : TradeDirection) (hreserve : 0 < params.destinationReserve direction)
    {amount : Int}
    (hlt : amount < min (params.sidesOf backing direction).swapDestinationAmount
      (params.destinationReserve direction)) :
    paidInShares (backing.destination direction)
        (params.sidesOf backing direction).swapDestinationVaultLpSupply amount <
      min (params.sidesOf backing direction).swapDestinationAmount (params.destinationReserve direction) := by
  obtain ⟨vA, vB, hholds⟩ := h.exists_holds
  obtain ⟨-, -, -, -, hsupply, -, htotal⟩ := hholds.sides direction
  have hy := (h.sides_pos direction).2
  rw [hsupply, htotal]
  rcases le_or_gt 0 amount with hnonneg | hneg
  · obtain ⟨n, rfl⟩ := Int.eq_ofNat_of_zero_le hnonneg
    have hle : (direction.destination vA vB).paid n ≤ n := (direction.destination vA vB).worth_sharesFor_le n
    rw [paidInShares_eq]
    omega
  · have hpaid := paidInShares_nonneg (Int.natCast_nonneg (direction.destination vA vB).total)
      (Int.natCast_nonneg (direction.destination vA vB).supply) (neg_nonneg.mpr hneg.le)
    rw [paidInShares_neg] at hpaid
    omega

end SwapQuoteParam.Tradable

theorem poolInfo_amounts (hsdk : sdk.Lawful) (hbacking : backing.Of sdk params) {sqrt : Int → Throwing Int}
    {poolLpSupply : Int} {swapCurve : SwapCurve} {poolInfo : PoolInformation} {poolState₀ poolState₁ : PoolState}
    (hinfo : calculatePoolInfo sdk decoders sqrt params.currentTime params.poolVaultALp params.poolVaultBLp
      params.vaultALpSupply params.vaultBLpSupply poolLpSupply swapCurve params.vaultA params.vaultB
      poolState₀ = (.ok poolInfo, poolState₁)) :
    poolInfo.tokenAAmount = params.tokenAAmount backing ∧
      poolInfo.tokenBAmount = params.tokenBAmount backing := by
  simp only [calculatePoolInfo, Call.bind_eq_ok, Call.lift_apply, Prod.mk.injEq, hbacking.a, hbacking.b,
    Except.ok.injEq] at hinfo
  obtain ⟨_, _, ⟨rfl, rfl⟩, _, _, ⟨rfl, rfl⟩, a, _, ⟨ha, rfl⟩, b, _, ⟨hb, rfl⟩, _, _, -, _, _, -, _, _, -,
    hinfo⟩ := hinfo
  simp only [Call.pure_apply, Prod.mk.injEq, Except.ok.injEq] at hinfo
  obtain ⟨rfl, -⟩ := hinfo
  exact ⟨(hsdk.amountByShare_value ha).symm, (hsdk.amountByShare_value hb).symm⟩

/-- What the curve is asked for: the limit, or one less than the pool has. -/
def wantedAmount (swapDestinationAmount reserve : Int) : Int :=
  if swapDestinationAmount ≤ reserve then swapDestinationAmount - 1 else reserve

theorem getMaxSwapInAmount_eq_ok {poolInfo : PoolInformation} {maxInAmount : Int}
    (hA : poolInfo.tokenAAmount = params.tokenAAmount backing)
    (hB : poolInfo.tokenBAmount = params.tokenBAmount backing)
    (hmint : inTokenMint = poolState.tokenAMint ∨ inTokenMint = poolState.tokenBMint)
    (hmints : poolState.tokenAMint ≠ poolState.tokenBMint) (hfees : poolState.fees.Valid)
    (hdirection : tradeDirectionOf inTokenMint poolState = direction) :
    (getMaxSwapInAmount decoders poolInfo params .constantProduct inTokenMint poolState).1 = .ok maxInAmount ↔
      ∃ amountIn,
        ConstantProductSwap.computeInAmount
          (wantedAmount (params.sidesOf backing direction).swapDestinationAmount
            (params.destinationReserve direction))
          (params.sidesOf backing direction).swapSourceAmount
          (params.sidesOf backing direction).swapDestinationAmount = .ok amountIn ∧
        maxInAmount = amountIn -
          (amountIn * poolState.fees.protocolTradeFeeNumerator).tdiv
            poolState.fees.protocolTradeFeeDenominator -
          (amountIn * poolState.fees.tradeFeeNumerator).tdiv poolState.fees.tradeFeeDenominator := by
  have hguard : invariant (inTokenMint = poolState.tokenAMint ∨ inTokenMint = poolState.tokenBMint) invalidMint =
      .ok () := invariant_eq_ok.mpr (decide_eq_true hmint)
  have hsides : (if inTokenMint = poolState.tokenAMint then
        (poolState.tokenBMint, params.tokenAAmount backing, params.tokenBAmount backing, TradeDirection.aToB)
      else (poolState.tokenAMint, params.tokenBAmount backing, params.tokenAAmount backing, TradeDirection.bToA)) =
      (direction.destination poolState.tokenAMint poolState.tokenBMint,
        (params.sidesOf backing direction).swapSourceAmount,
        (params.sidesOf backing direction).swapDestinationAmount, direction) := by
    rw [← hdirection, tradeDirectionOf]
    split <;> rfl
  have hmax : calculateMaxSwapOutAmount (direction.destination poolState.tokenAMint poolState.tokenBMint)
      poolState.tokenAMint poolState.tokenBMint (params.tokenAAmount backing) (params.tokenBAmount backing)
      params.vaultAReserve params.vaultBReserve =
        .ok (min (params.sidesOf backing direction).swapDestinationAmount (params.destinationReserve direction)) := by
    have h := calculateMaxSwapOutAmount_eq params
      ⟨params.tokenAAmount backing, params.tokenBAmount backing, 0, 0⟩ hmints direction
    cases direction <;> exact h
  have hwanted : ∀ y r : Int, (if min y r = y then min y r - 1 else min y r) = wantedAmount y r := by
    intro y r
    rw [wantedAmount]
    split <;> split <;> omega
  have hprotocol : poolState.fees.protocolTradeFeeDenominator ≠ 0 := hfees.protocol_pos.ne'
  have htrade : poolState.fees.tradeFeeDenominator ≠ 0 := hfees.trade_pos.ne'
  simp only [getMaxSwapInAmount, Call.bind_apply, Call.read_apply, Call.lift_apply, hguard,
    getMaxSwapOutAmount, hA, hB, hsides, hmax, hwanted, SwapCurve.computeInAmount]
  rcases ConstantProductSwap.computeInAmount _ _ _ with e | amountIn
  · simp
  · simp [calculateProtocolTradingFee, calculateTradingFee, BN.div, hprotocol, htrade, eq_comm]

/-- The withdrawal is refused when what is paid in whole shares comes to the limit. -/
theorem payDestination_eq (hsdk : sdk.Lawful) (hbacking : backing.Of sdk params)
    (hmints : poolState.tokenAMint ≠ poolState.tokenBMint)
    (hdirection : tradeDirectionOf inTokenMint poolState = direction) {source : Source}
    (hsides : source.sides params direction = params.sidesOf backing direction)
    (htotal : backing.destination direction ≠ 0)
    (hsupply : (params.sidesOf backing direction).swapDestinationVaultLpSupply ≠ 0) (out : OutResult) :
    payDestination sdk inTokenMint params poolState source out =
      let amountOut := paidInShares (backing.destination direction)
        (params.sidesOf backing direction).swapDestinationVaultLpSupply out.outAmount
      if amountOut < min (params.sidesOf backing direction).swapDestinationAmount
          (params.destinationReserve direction) then
        .ok ⟨amountOut, source.tradeFeeAfterProtocolFee, out.priceImpact⟩
      else .error outAmountTooLarge := by
  have hmax := calculateMaxSwapOutAmount_eq params source hmints direction
  have hvault := hbacking.destinationVault direction
  have hburned := hsdk.unmintAmount out.outAmount _
    (params.sidesOf backing direction).swapDestinationVaultLpSupply htotal
  rw [← hsides] at hvault hburned hsupply ⊢
  have hpaid := fun share => hsdk.amountByShare share (backing.destination direction) _ hsupply
  simp only [Source.sides] at hvault hburned hpaid hmax
  have hlast : ∀ amountOut most : Int, (invariant (amountOut < most) "Out amount > vault reserve").bind
      (fun _ => .ok ⟨amountOut, source.tradeFeeAfterProtocolFee, out.priceImpact⟩) =
        if amountOut < most then .ok (SwapResult.mk amountOut source.tradeFeeAfterProtocolFee out.priceImpact)
        else .error outAmountTooLarge := by
    intro amountOut most
    by_cases h : amountOut < most <;> simp [invariant, h, Except.bind, outAmountTooLarge]
  cases direction with
  | aToB =>
      simp only [payDestination, hdirection, hvault, hburned, hpaid, hmax, Bind.bind, Except.bind]
      exact hlast _ _
  | bToA =>
      simp only [payDestination, hdirection, hvault, hburned, hpaid, hmax, Bind.bind, Except.bind]
      exact hlast _ _

/-- Once the deposit is settled, the quote is refused for what it pays exactly when that comes to the limit
in whole shares. -/
theorem calculateSwapQuote_tooLarge_iff (hsdk : sdk.Lawful) (hbacking : backing.Of sdk params)
    (htradable : params.Tradable backing poolState.fees)
    (hmints : poolState.tokenAMint ≠ poolState.tokenBMint)
    (hdirection : tradeDirectionOf inTokenMint poolState = direction)
    (hopen : makeSwapCurve inTokenMint params swapInitiator poolState = .ok .constantProduct)
    (hpos : 0 < inAmount) :
    (calculateSwapQuote sdk decoders inTokenMint inAmount params swapInitiator poolState).1 =
        .error outAmountTooLarge ↔
      ∃ out, ConstantProductSwap.computeOutAmount
          (params.netSourceAmount backing poolState.fees direction inAmount)
          (params.sidesOf backing direction).swapSourceAmount
          (params.sidesOf backing direction).swapDestinationAmount = .ok out ∧
        min (params.sidesOf backing direction).swapDestinationAmount (params.destinationReserve direction) ≤
          paidInShares (backing.destination direction)
            (params.sidesOf backing direction).swapDestinationVaultLpSupply out.outAmount := by
  obtain ⟨source, hsource⟩ := htradable.settles hsdk hbacking rfl hdirection hpos
  obtain ⟨hsides, -, hnet, -⟩ := settleSource_value hsdk hbacking hdirection hsource
  obtain ⟨vA, vB, hholds⟩ := htradable.exists_holds
  obtain ⟨-, hy, -, -, hsupply, -, htotal⟩ := hholds.sides direction
  have hvalue : 0 < (direction.destination vA vB).value := by
    exact_mod_cast hy ▸ (htradable.sides_pos direction).2
  obtain ⟨hheld, htotal_pos⟩ := (direction.destination vA vB).pos_of_value_pos hvalue
  have hsupply_pos := hheld.trans_le (direction.destination vA vB).held_le
  have hsupply_ne : (params.sidesOf backing direction).swapDestinationVaultLpSupply ≠ 0 := by
    rw [hsupply]
    omega
  have htotal_ne : backing.destination direction ≠ 0 := by
    rw [htotal]
    omega
  rw [calculateSwapQuote_apply, hopen, hsource]
  simp only [SwapCurve.computeOutAmount, Call.lift_apply, hdirection]
  rw [← Source.sides, hsides, hnet]
  rcases hcurve : ConstantProductSwap.computeOutAmount _ _ _ with e | out
  · simp only [Except.bind, reduceCtorEq, false_and, exists_false, iff_false, Except.error.injEq]
    rintro rfl
    exact computeOutAmount_ne_tooLarge hcurve
  · simp only [Except.bind, Except.ok.injEq, exists_eq_left',
      payDestination_eq hsdk hbacking hmints hdirection hsides htotal_ne hsupply_ne out]
    split <;> simp <;> omega

/-- Without a fee and with a deposit that is credited in full, all of the amount in goes to the curve. -/
theorem netSourceAmount_of_full {fees : PoolFees} (htrade : fees.tradeFee inAmount = 0)
    (hfull : params.amountAfterDeposit backing direction inAmount =
      (params.sidesOf backing direction).swapSourceAmount + inAmount) :
    params.netSourceAmount backing fees direction inAmount = inAmount := by
  have hprotocol : fees.protocolFee inAmount = 0 := by
    rw [PoolFees.protocolFee, htrade, zero_mul, Int.zero_tdiv]
  rw [SwapQuoteParam.netSourceAmount, htrade, hprotocol, sub_zero, hfull]
  omega

theorem quotesMaxIn_iff (hsdk : sdk.Lawful) (hbacking : backing.Of sdk params)
    (htradable : params.Tradable backing poolState.fees)
    (hmints : poolState.tokenAMint ≠ poolState.tokenBMint)
    (hdirection : tradeDirectionOf inTokenMint poolState = direction)
    (hopen : makeSwapCurve inTokenMint params swapInitiator poolState = .ok .constantProduct)
    {sqrt : Int → Throwing Int} {poolLpSupply : Int} {poolInfo : PoolInformation}
    {poolState₀ poolState₁ : PoolState}
    (hinfo : calculatePoolInfo sdk decoders sqrt params.currentTime params.poolVaultALp params.poolVaultBLp
      params.vaultALpSupply params.vaultBLpSupply poolLpSupply .constantProduct params.vaultA params.vaultB
      poolState₀ = (.ok poolInfo, poolState₁)) :
    QuotesMaxIn sdk decoders poolInfo params swapInitiator inTokenMint poolState ↔
      ¬ params.Drained backing poolState.fees direction := by
  obtain ⟨hA, hB⟩ := poolInfo_amounts hsdk hbacking hinfo
  have hmint : inTokenMint = poolState.tokenAMint ∨ inTokenMint = poolState.tokenBMint := by
    simp only [makeSwapCurve, bind_eq_ok, invariant_eq_ok, decide_eq_true_eq] at hopen
    obtain ⟨_, hmint, -⟩ := hopen
    exact hmint
  obtain ⟨hx, hy⟩ := htradable.sides_pos direction
  obtain ⟨-, -, -, -, hreserve⟩ := htradable.toWellFormed.sides_nonneg direction
  simp only [QuotesMaxIn, SwapQuoteParam.Drained,
    getMaxSwapInAmount_eq_ok hA hB hmint hmints htradable.toValid hdirection]
  constructor
  · rintro hquotes ⟨⟨hpos, hlt⟩, ⟨htrade, hprotocol⟩, hfull, hpaid⟩
    have hin := leastAmountIn_pos hx hpos hlt
    have hleast := (computeInAmount_eq_ok hx hpos.le hlt).mpr ⟨hpos, rfl⟩
    obtain ⟨out, hout, hamount⟩ := computeOutAmount_leastAmountIn hx hpos hlt
    generalize leastAmountIn _ _ _ = amountIn at *
    rw [← fraction_eq_zero hin.le htradable.trade_nonneg htradable.trade_pos] at htrade
    rw [← fraction_eq_zero hin.le htradable.protocol_nonneg htradable.protocol_pos] at hprotocol
    refine hquotes amountIn ⟨amountIn, ?_, by omega⟩ hin ?_
    · rw [wantedAmount, if_neg (by omega)]
      exact hleast
    · rw [calculateSwapQuote_tooLarge_iff hsdk hbacking htradable hmints hdirection hopen hin,
        netSourceAmount_of_full htrade hfull]
      exact ⟨out, hout, (min_le_right _ _).trans (hamount ▸ hpaid)⟩
  · rintro hnot maxInAmount ⟨amountIn, hleast, hmax⟩ hpos herror
    rw [calculateSwapQuote_tooLarge_iff hsdk hbacking htradable hmints hdirection hopen hpos] at herror
    obtain ⟨out, hout, hpaid⟩ := herror
    obtain ⟨hnew, hnet⟩ := htradable.netSourceAmount_bounds direction hpos
    obtain ⟨⟨hfee, -⟩, hcut, hcut_le⟩ := htradable.fee_bounds hpos
    have hreserve_pos : 0 < params.destinationReserve direction := by
      by_contra hzero
      rw [wantedAmount, if_neg (by omega)] at hleast
      have := ((computeInAmount_eq_ok hx hreserve (by omega)).mp hleast).1
      omega
    have hbelow : min (params.sidesOf backing direction).swapDestinationAmount
        (params.destinationReserve direction) ≤ out.outAmount := by
      by_contra hless
      exact not_lt.mpr hpaid (htradable.paidInShares_lt direction hreserve_pos (not_le.mp hless))
    have hlt := outAmount_lt_destination hx hy hnew hout
    have hreserve_lt : params.destinationReserve direction <
        (params.sidesOf backing direction).swapDestinationAmount := by omega
    rw [wantedAmount, if_neg (not_le.mpr hreserve_lt)] at hleast
    obtain ⟨hone, rfl⟩ := (computeInAmount_eq_ok hx hreserve hreserve_lt).mp hleast
    have hin := leastAmountIn_pos hx hone hreserve_lt
    -- A quote that pays the reserve takes all of the least amount in to the curve.
    have hall := fun hless => outAmount_lt hx hy hreserve_lt hless hnew hout
    obtain ⟨out', hout', hamount⟩ := computeOutAmount_leastAmountIn hx hone hreserve_lt
    rw [min_eq_right hreserve_lt.le] at hpaid hbelow
    rw [← fraction_eq_zero hin.le htradable.trade_nonneg htradable.trade_pos,
      ← fraction_eq_zero hin.le htradable.protocol_nonneg htradable.protocol_pos] at hnot
    generalize leastAmountIn _ _ _ = amountIn at *
    have htrade := Int.tdiv_nonneg (mul_nonneg hin.le htradable.trade_nonneg) htradable.trade_pos.le
    have hprotocol := Int.tdiv_nonneg (mul_nonneg hin.le htradable.protocol_nonneg) htradable.protocol_pos.le
    obtain rfl : maxInAmount = amountIn := by omega
    have hfree : poolState.fees.tradeFee maxInAmount = 0 := by omega
    have hfull : params.netSourceAmount backing poolState.fees direction maxInAmount = maxInAmount := by omega
    rw [hfull, hout', Except.ok.injEq] at hout
    subst hout
    refine hnot ⟨⟨hone, hreserve_lt⟩, ⟨by omega, by omega⟩, ?_, hamount ▸ hpaid⟩
    have hcut_eq : poolState.fees.protocolFee maxInAmount = 0 := by omega
    rw [SwapQuoteParam.netSourceAmount, hfree, hcut_eq, sub_zero] at hfull
    omega

end Quote

/-! ### Samples -/

def sampleReserveParams (vaultBReserve : Int) : SwapQuoteParam :=
  { sampleParams 1000000 1000000 sampleTime (fun _ => none) with vaultBReserve }

def sampleFeePool : PoolState := samplePoolState ⟨250, 100000, 0, 100000⟩ .constantProduct

def samplePoolInfo : PoolInformation := ⟨500000, 400000, 44721300, 8249623757435869706⟩

theorem samplePoolInfo_eq :
    calculatePoolInfo sampleSdk sampleDecoders (fun n => .ok n.sqrt) sampleTime 500000 400000 1000000 1000000
        1000000 .constantProduct (sampleReserveParams 300000).vaultA (sampleReserveParams 300000).vaultB
        sampleFeePool = (.ok samplePoolInfo, sampleFeePool) := by
  have hsqrt : Int.sqrt (500000 * 400000) = 447213 := by
    have hroot : 447213 = Nat.sqrt 200000000000 := Nat.eq_sqrt.mpr (by decide)
    exact congrArg Nat.cast hroot.symm
  have hA : sampleSdk.getAmountByShare 500000 1000000 1000000 = .ok 500000 := by decide
  have hB : sampleSdk.getAmountByShare 400000 1000000 1000000 = .ok 400000 := by decide
  have hvaultA : sampleSdk.calculateWithdrawableAmount sampleTime (sampleReserveParams 300000).vaultA =
      .ok 1000000 := by decide
  have hvaultB : sampleSdk.calculateWithdrawableAmount sampleTime (sampleReserveParams 300000).vaultB =
      .ok 1000000 := by decide
  have hprices : BN.div (447213 * virtualPricePrecision) 1000000 = .ok 44721300 ∧
      BN.div (2 ^ 64 * 447213) 1000000 = .ok 8249623757435869706 := by decide
  simp only [calculatePoolInfo, SwapCurve.computeD, Call.bind_apply, Call.lift_apply, Call.pure_apply,
    hvaultA, hvaultB, hA, hB, hsqrt, if_neg (show (1000000 : Int) ≠ 0 by decide), hprices.1, hprices.2]
  rfl

theorem quotesMaxIn_iff_sample :
    QuotesMaxIn sampleSdk sampleDecoders samplePoolInfo (sampleReserveParams 300000) none sampleMintA
      sampleFeePool := by
  have htradable : (sampleReserveParams 300000).Tradable ⟨1000000, 1000000⟩ sampleFeePool.fees := by
    refine ⟨?_, ?_, ?_, ?_, ?_⟩
    · constructor <;> decide
    · constructor <;> decide
    all_goals decide
  refine (quotesMaxIn_iff sampleSdk_lawful ⟨rfl, rfl⟩ htradable (by decide) rfl rfl
    samplePoolInfo_eq).mpr ?_
  -- The least amount in is 1500000, on which the fee is 3750.
  rintro ⟨-, ⟨htrade, -⟩, -⟩
  exact absurd htrade (by decide)

/-- The fee on the largest amount in is rounded down to nothing, and the curve pays the whole reserve for it. -/
theorem maxIn_refused :
    ¬ QuotesMaxIn sampleSdk sampleDecoders samplePoolInfo (sampleReserveParams 300) none sampleMintA
      sampleFeePool := by
  intro hquotes
  exact hquotes 376 (by decide) (by decide) (by decide)

end DynamicAmm.Client

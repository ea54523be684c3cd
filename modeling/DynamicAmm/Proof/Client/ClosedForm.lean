import DynamicAmm.Proof.Client.Conversions
import DynamicAmm.Proof.Client.Quote

/-!
# The quote in closed form

What the two halves of a quote around the curve compute, as formulas in the accounts that are given, when
the vault SDK computes what the vault program does. The vault that pays turns the curve's amount into
whole shares and pays what these are worth, so what is paid may be less.
-/

namespace DynamicAmm.Client

open Js
open Program (Pubkey)

/-! ### The SDK by its values -/

variable {sdk : VaultSdk}

theorem VaultSdk.Lawful.amountByShare_value (hsdk : sdk.Lawful) {share amount supply result : Int}
    (h : sdk.getAmountByShare share amount supply = .ok result) : (share * amount).tdiv supply = result := by
  by_cases hzero : supply = 0
  · subst hzero
    rw [Int.tdiv_zero, hsdk.amountByShare_zero _ _ _ h]
  · rw [hsdk.amountByShare _ _ _ hzero] at h
    exact Except.ok.inj h

theorem VaultSdk.Lawful.unmintAmount_eq_ok (hsdk : sdk.Lawful) {amount withdrawable supply result : Int} :
    sdk.getUnmintAmount amount withdrawable supply = .ok result ↔
      withdrawable ≠ 0 ∧ (amount * supply).tdiv withdrawable = result := by
  by_cases hzero : withdrawable = 0
  · subst hzero
    obtain ⟨message, hthrows⟩ := hsdk.unmintAmount_zero amount supply
    rw [hthrows]
    simp
  · rw [hsdk.unmintAmount _ _ _ hzero]
    simp [hzero]

/-! ### Formulas -/

namespace PoolFees

variable (fees : PoolFees) (amount : Int)

def tradeFee : Int := (amount * fees.tradeFeeNumerator).tdiv fees.tradeFeeDenominator

def protocolFee : Int :=
  (fees.tradeFee amount * fees.protocolTradeFeeNumerator).tdiv fees.protocolTradeFeeDenominator

end PoolFees

/-- What backs the shares of the two vaults at the time of a quote. -/
structure Backing where
  a : Int
  b : Int

namespace Backing

variable (backing : Backing)

def source : TradeDirection → Int
  | .aToB => backing.a
  | .bToA => backing.b

def destination : TradeDirection → Int
  | .aToB => backing.b
  | .bToA => backing.a

/-- The SDK finds the vaults of the quote backed so. -/
structure Of (sdk : VaultSdk) (params : SwapQuoteParam) : Prop where
  a : sdk.calculateWithdrawableAmount params.currentTime params.vaultA = .ok backing.a
  b : sdk.calculateWithdrawableAmount params.currentTime params.vaultB = .ok backing.b

end Backing

namespace SwapQuoteParam

variable (params : SwapQuoteParam) (backing : Backing)

def tokenAAmount : Int := (params.poolVaultALp * backing.a).tdiv params.vaultALpSupply

def tokenBAmount : Int := (params.poolVaultBLp * backing.b).tdiv params.vaultBLpSupply

def sidesOf (direction : TradeDirection) : TradeSides :=
  params.sides (params.tokenAAmount backing) (params.tokenBAmount backing) direction

/-- What the pool's source side is worth after a deposit into its vault. -/
def amountAfterDeposit (direction : TradeDirection) (deposit : Int) : Int :=
  let sides := params.sidesOf backing direction
  let minted := (deposit * sides.swapSourceVaultLpSupply).tdiv (backing.source direction)
  ((minted + sides.swapSourceVaultLpAmount) * (backing.source direction + deposit)).tdiv
    (sides.swapSourceVaultLpSupply + minted)

/-- What the deposit of an in amount is credited, net of the part of the fee that stays in the pool. -/
def netSourceAmount (fees : PoolFees) (direction : TradeDirection) (inAmount : Int) : Int :=
  params.amountAfterDeposit backing direction (inAmount - fees.protocolFee inAmount) -
    (params.sidesOf backing direction).swapSourceAmount -
    (fees.tradeFee inAmount - fees.protocolFee inAmount)

end SwapQuoteParam

variable {inTokenMint : Pubkey} {inAmount : Int} {params : SwapQuoteParam} {poolState : PoolState}
  {source : Source}

/-! ### The two halves -/

theorem Backing.Of.sourceVault {backing : Backing} (h : backing.Of sdk params) (direction : TradeDirection) :
    sdk.calculateWithdrawableAmount params.currentTime
      (params.sidesOf backing direction).swapSourceVault = .ok (backing.source direction) := by
  cases direction with
  | aToB => exact h.a
  | bToA => exact h.b

theorem Backing.Of.destinationVault {backing : Backing} (h : backing.Of sdk params)
    (direction : TradeDirection) :
    sdk.calculateWithdrawableAmount params.currentTime
      (params.sidesOf backing direction).swapDestinationVault = .ok (backing.destination direction) := by
  cases direction with
  | aToB => exact h.b
  | bToA => exact h.a

variable {backing : Backing} {direction : TradeDirection}

theorem settleSource_value (hsdk : sdk.Lawful) (hbacking : backing.Of sdk params)
    (hdirection : tradeDirectionOf inTokenMint poolState = direction)
    (h : settleSource sdk inTokenMint inAmount params poolState = .ok source) :
    source.sides params direction = params.sidesOf backing direction ∧
      source.tradeFeeAfterProtocolFee =
        poolState.fees.tradeFee inAmount - poolState.fees.protocolFee inAmount ∧
      source.sourceAmountWithFee =
        params.netSourceAmount backing poolState.fees direction inAmount ∧
      backing.source direction ≠ 0 := by
  rw [settleSource_eq_ok, hbacking.a, hbacking.b, hdirection] at h
  obtain ⟨_, ⟨⟩, _, ⟨⟩, ha, hb, fee, hfee, cut, hcut, hcharged, w, hw, lp, hlp, after, hafter, hleft⟩ := h
  have hsides : source.sides params direction = params.sidesOf backing direction := by
    rw [Source.sides, SwapQuoteParam.sidesOf, ← hsdk.amountByShare_value ha, ← hsdk.amountByShare_value hb]
    rfl
  rw [hsides] at hw hlp hafter hleft
  obtain rfl := Except.ok.inj ((hbacking.sourceVault direction).symm.trans hw)
  obtain rfl := (BN.div_eq_ok.mp hfee).2
  obtain rfl := (BN.div_eq_ok.mp hcut).2
  obtain ⟨hne, rfl⟩ := hsdk.unmintAmount_eq_ok.mp hlp
  obtain rfl := hsdk.amountByShare_value hafter
  exact ⟨hsides, hcharged, hleft, hne⟩

/-- The deposit goes through when its divisors are not zero. -/
theorem exists_settleSource (hsdk : sdk.Lawful) (hbacking : backing.Of sdk params)
    (hdirection : tradeDirectionOf inTokenMint poolState = direction)
    (hA : params.vaultALpSupply ≠ 0) (hB : params.vaultBLpSupply ≠ 0)
    (htrade : poolState.fees.tradeFeeDenominator ≠ 0)
    (hprotocol : poolState.fees.protocolTradeFeeDenominator ≠ 0) (hsource : backing.source direction ≠ 0)
    (hsupply : (params.sidesOf backing direction).swapSourceVaultLpSupply +
      ((inAmount - poolState.fees.protocolFee inAmount) *
        (params.sidesOf backing direction).swapSourceVaultLpSupply).tdiv (backing.source direction) ≠ 0) :
    ∃ source, settleSource sdk inTokenMint inAmount params poolState = .ok source := by
  refine ⟨⟨params.tokenAAmount backing, params.tokenBAmount backing,
    poolState.fees.tradeFee inAmount - poolState.fees.protocolFee inAmount,
    params.netSourceAmount backing poolState.fees direction inAmount⟩, ?_⟩
  rw [settleSource_eq_ok, hdirection]
  exact ⟨_, hbacking.a, _, hbacking.b, hsdk.amountByShare _ _ _ hA, hsdk.amountByShare _ _ _ hB,
    _, BN.div_eq_ok.mpr ⟨htrade, rfl⟩, _, BN.div_eq_ok.mpr ⟨hprotocol, rfl⟩, rfl,
    _, hbacking.sourceVault direction, _, hsdk.unmintAmount _ _ _ hsource,
    _, hsdk.amountByShare _ _ _ hsupply, rfl⟩

/-- Of a vault without shares the pool has nothing. -/
theorem destinationAmount_of_empty (params : SwapQuoteParam) (backing : Backing) {direction : TradeDirection}
    (h : (params.sidesOf backing direction).swapDestinationVaultLpSupply = 0) :
    (params.sidesOf backing direction).swapDestinationAmount = 0 := by
  cases direction with
  | aToB => exact (congrArg _ h).trans (Int.tdiv_zero _)
  | bToA => exact (congrArg _ h).trans (Int.tdiv_zero _)

/-- The withdrawal goes through exactly when the vault that pays has something, and what it pays is below
what the pool has there and below the reserve. -/
theorem payDestination_closed (hsdk : sdk.Lawful) (hbacking : backing.Of sdk params)
    (hmints : poolState.tokenAMint ≠ poolState.tokenBMint)
    (hdirection : tradeDirectionOf inTokenMint poolState = direction)
    (hsides : source.sides params direction = params.sidesOf backing direction) {out : OutResult}
    {result : SwapResult} :
    payDestination sdk inTokenMint params poolState source out = .ok result ↔
      backing.destination direction ≠ 0 ∧
      (params.sidesOf backing direction).swapDestinationVaultLpSupply ≠ 0 ∧
      result.amountOut = paidInShares (backing.destination direction)
        (params.sidesOf backing direction).swapDestinationVaultLpSupply out.outAmount ∧
      result.amountOut < (params.sidesOf backing direction).swapDestinationAmount ∧
      result.amountOut < params.destinationReserve direction ∧
      result.fee = source.tradeFeeAfterProtocolFee ∧ result.priceImpact = out.priceImpact := by
  rw [payDestination_eq_ok hmints, hdirection, hsides]
  simp only [hbacking.destinationVault, Except.ok.injEq, exists_eq_left', hsdk.unmintAmount_eq_ok]
  constructor
  · rintro ⟨lp, ⟨hw, hlp⟩, hamount, hlt, hreserve, hfee, himpact⟩
    subst hlp
    have hvalue := hsdk.amountByShare_value hamount
    refine ⟨hw, ?_, hvalue.symm, hlt, hreserve, hfee, himpact⟩
    intro hzero
    rw [destinationAmount_of_empty params backing hzero, ← hvalue, hzero, Int.tdiv_zero] at hlt
    exact lt_irrefl _ hlt
  · rintro ⟨hw, hsupply, hvalue, hlt, hreserve, hfee, himpact⟩
    refine ⟨_, ⟨hw, rfl⟩, ?_, hlt, hreserve, hfee, himpact⟩
    rw [hsdk.amountByShare _ _ _ hsupply, hvalue]
    rfl

end DynamicAmm.Client

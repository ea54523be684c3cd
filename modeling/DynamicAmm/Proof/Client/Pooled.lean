import DynamicAmm.Base.PooledSwap
import DynamicAmm.Proof.Client.ClosedForm
import DynamicAmm.Proof.Client.ConstantProduct

/-!
# The client's quote is a pooled swap

When the protocol takes no cut and the deposit covers the fee, a constant product quote of the client is
the swap between the two vaults, on the integers: it returns exactly when that swap goes through and its
amount is below the reserve.
-/

namespace DynamicAmm.Client

open Js
open Program (Pubkey)

variable {params : SwapQuoteParam} {backing : Backing} {vA vB : ShareVault}

/-- The two vaults and the pool's shares of them. -/
structure SwapQuoteParam.Holds (params : SwapQuoteParam) (backing : Backing) (vA vB : ShareVault) : Prop where
  totalA : backing.a = vA.total
  supplyA : params.vaultALpSupply = vA.supply
  heldA : params.poolVaultALp = vA.held
  totalB : backing.b = vB.total
  supplyB : params.vaultBLpSupply = vB.supply
  heldB : params.poolVaultBLp = vB.held

theorem worth_deposit_tdiv (v : ShareVault) (amount : Nat) :
    (((((amount : Int) * v.supply).tdiv v.total) + v.held) * (v.total + amount)).tdiv
        (v.supply + ((amount : Int) * v.supply).tdiv v.total) =
      (v.deposit amount).value := by
  rw [sharesFor_tdiv, add_comm (v.sharesFor amount : Int)]
  exact worth_tdiv (v.deposit amount) (v.deposit amount).held

theorem paidInShares_eq (v : ShareVault) (amount : Nat) :
    paidInShares v.total v.supply amount = v.paid amount := by
  rw [paidInShares, sharesFor_tdiv, worth_tdiv]
  rfl

namespace SwapQuoteParam.Holds

variable (h : params.Holds backing vA vB) (direction : TradeDirection)

include h

theorem sides :
    (params.sidesOf backing direction).swapSourceAmount = (direction.source vA vB).value ∧
      (params.sidesOf backing direction).swapDestinationAmount = (direction.destination vA vB).value ∧
      (params.sidesOf backing direction).swapSourceVaultLpAmount = (direction.source vA vB).held ∧
      (params.sidesOf backing direction).swapSourceVaultLpSupply = (direction.source vA vB).supply ∧
      (params.sidesOf backing direction).swapDestinationVaultLpSupply =
        (direction.destination vA vB).supply ∧
      backing.source direction = (direction.source vA vB).total ∧
      backing.destination direction = (direction.destination vA vB).total := by
  have hA : params.tokenAAmount backing = vA.value := by
    rw [tokenAAmount, h.heldA, h.totalA, h.supplyA, worth_tdiv]
    rfl
  have hB : params.tokenBAmount backing = vB.value := by
    rw [tokenBAmount, h.heldB, h.totalB, h.supplyB, worth_tdiv]
    rfl
  cases direction with
  | aToB => exact ⟨hA, hB, h.heldA, h.supplyA, h.supplyB, h.totalA, h.totalB⟩
  | bToA => exact ⟨hB, hA, h.heldB, h.supplyB, h.supplyA, h.totalB, h.totalA⟩

theorem amountAfterDeposit (amount : Nat) :
    params.amountAfterDeposit backing direction amount =
      ((direction.source vA vB).deposit amount).value := by
  obtain ⟨-, -, hheld, hsupply, -, htotal, -⟩ := h.sides direction
  simp only [SwapQuoteParam.amountAfterDeposit, hheld, hsupply, htotal]
  exact worth_deposit_tdiv _ amount

end SwapQuoteParam.Holds

variable {sdk : VaultSdk} {inTokenMint : Pubkey} {inAmount fee : Nat}
  {swapInitiator : Option Pubkey} {poolState : PoolState} {direction : TradeDirection}

/-- A trade fee of which the protocol takes nothing. -/
structure Uncut (fees : PoolFees) (inAmount fee : Nat) : Prop where
  trade : fees.tradeFee inAmount = fee
  protocol : fees.protocolFee inAmount = 0
  tradeDenominator_ne : fees.tradeFeeDenominator ≠ 0
  protocolDenominator_ne : fees.protocolTradeFeeDenominator ≠ 0

theorem netSourceAmount_eq (hholds : params.Holds backing vA vB) (hfee : Uncut poolState.fees inAmount fee)
    (direction : TradeDirection) :
    params.netSourceAmount backing poolState.fees direction inAmount =
      (direction.source vA vB).credited inAmount - fee := by
  obtain ⟨hx, -⟩ := hholds.sides direction
  have hcredited := (direction.source vA vB).value_add_credited inAmount
  rw [SwapQuoteParam.netSourceAmount, hfee.trade, hfee.protocol, sub_zero, sub_zero,
    hholds.amountAfterDeposit, hx]
  omega

/-- A quote of an open constant product pool whose deposit covers the fee, from the two vaults it is over. -/
theorem calculateSwapQuote_eq_ok_iff (hsdk : sdk.Lawful) (hbacking : backing.Of sdk params)
    (hholds : params.Holds backing vA vB) (hcurve : poolState.curveType = .constantProduct)
    (hopen : makeSwapCurve inTokenMint params swapInitiator poolState = .ok .constantProduct)
    (hmints : poolState.tokenAMint ≠ poolState.tokenBMint)
    (hfee : Uncut poolState.fees inAmount fee)
    (hdirection : tradeDirectionOf inTokenMint poolState = direction) (decoders : StakeDecoders)
    (amount : Int) :
    ((∃ result, (calculateSwapQuote sdk decoders inTokenMint inAmount params swapInitiator
        poolState).1 = .ok result ∧ result.amountOut = amount) ∧
      0 ≤ params.netSourceAmount backing poolState.fees direction inAmount) ↔
      ∃ out : Nat, (out : Int) = amount ∧
        (direction.source vA vB).SwapsTo (direction.destination vA vB) inAmount fee out ∧
        (out : Int) < params.destinationReserve direction := by
  obtain ⟨hx, hy, -, hsupply, hsupply', htotal, htotal'⟩ := hholds.sides direction
  have hnet := netSourceAmount_eq hholds hfee direction
  constructor
  · rintro ⟨⟨result, hquote, hamount⟩, hnonneg⟩
    rw [calculateSwapQuote_constantProduct_eq_ok hcurve, hdirection] at hquote
    obtain ⟨-, source, hsource, curveOut, hcurveOut, hpay⟩ := hquote
    obtain ⟨hsides, -, hsourceAmount, hne⟩ := settleSource_value hsdk hbacking hdirection hsource
    have hfee_le : fee ≤ (direction.source vA vB).credited inAmount := by omega
    have hgiven : source.sourceAmountWithFee =
        ((direction.source vA vB).credited inAmount - fee : Nat) := by
      rw [hsourceAmount, hnet, Nat.cast_sub hfee_le]
    rw [hsides, hx, hy, hgiven] at hcurveOut
    rw [payDestination_closed hsdk hbacking hmints hdirection hsides] at hpay
    obtain ⟨-, -, hpaid, -, hreserve, -⟩ := hpay
    have hpos := computeOutAmount_pos (Nat.cast_nonneg _) (Nat.cast_nonneg _) (Nat.cast_nonneg _) hcurveOut
    obtain ⟨payout, hpayout⟩ := Int.eq_ofNat_of_zero_le hpos.le
    obtain ⟨hpays, rfl⟩ := computeOutAmount_eq_payout.mp ⟨curveOut, hcurveOut, hpayout⟩
    rw [hpayout, htotal', hsupply', paidInShares_eq] at hpaid
    rw [hpaid] at hamount hreserve
    refine ⟨_, hamount, ⟨?_, hfee_le, hpays, rfl⟩, hreserve⟩
    rw [htotal] at hne
    exact_mod_cast hne
  · rintro ⟨out, hamount, hswaps, hreserve⟩
    have hfee_le := hswaps.fee_le
    have hsource_ne := hswaps.source_supply_ne
    have hdestination_ne := hswaps.destination_supply_ne
    have hsupplies : params.vaultALpSupply ≠ 0 ∧ params.vaultBLpSupply ≠ 0 := by
      rw [hholds.supplyA, hholds.supplyB]
      cases direction with
      | aToB => exact ⟨by exact_mod_cast hsource_ne, by exact_mod_cast hdestination_ne⟩
      | bToA => exact ⟨by exact_mod_cast hdestination_ne, by exact_mod_cast hsource_ne⟩
    have hminted : (params.sidesOf backing direction).swapSourceVaultLpSupply +
        (((inAmount : Int) - poolState.fees.protocolFee inAmount) *
          (params.sidesOf backing direction).swapSourceVaultLpSupply).tdiv (backing.source direction) ≠
          0 := by
      rw [hsupply, htotal, hfee.protocol, sub_zero, sharesFor_tdiv]
      omega
    obtain ⟨source, hsource⟩ := exists_settleSource hsdk hbacking hdirection hsupplies.1 hsupplies.2
      hfee.tradeDenominator_ne hfee.protocolDenominator_ne
      (by rw [htotal]; exact_mod_cast hswaps.total_ne) hminted
    obtain ⟨hsides, -, hsourceAmount, -⟩ := settleSource_value hsdk hbacking hdirection hsource
    have hgiven : source.sourceAmountWithFee =
        ((direction.source vA vB).credited inAmount - fee : Nat) := by
      rw [hsourceAmount, hnet, Nat.cast_sub hfee_le]
    obtain ⟨curveOut, hcurveOut, hpayout⟩ := computeOutAmount_eq_payout.mpr ⟨hswaps.pays, rfl⟩
    refine ⟨⟨⟨out, source.tradeFeeAfterProtocolFee, curveOut.priceImpact⟩, ?_, hamount⟩, by omega⟩
    rw [calculateSwapQuote_constantProduct_eq_ok hcurve, hdirection]
    refine ⟨hopen, source, hsource, curveOut, ?_, ?_⟩
    · rw [hsides, hx, hy, hgiven]
      exact hcurveOut
    · rw [payDestination_closed hsdk hbacking hmints hdirection hsides, hsupply', htotal', hy, hpayout,
        paidInShares_eq]
      exact ⟨by exact_mod_cast hswaps.destination_total_ne, by exact_mod_cast hdestination_ne,
        Nat.cast_inj.mpr hswaps.out_eq, Nat.cast_lt.mpr hswaps.out_lt, hreserve, rfl, rfl⟩

end DynamicAmm.Client

import DynamicAmm.Client.Decode
import DynamicAmm.Client.SwapQuote

/-!
# The fee on an amount

The program rounds a fee below one token up to one, the client does not. The two agree on an amount
exactly when nothing is rounded up, first in the trade fee on the amount and then in the protocol's cut of
that fee. Either way a fee is a part of what it is taken from.
-/

namespace DynamicAmm

open Rust Program

namespace Program

def feeOf (numerator denominator amount : Nat) : Nat :=
  if numerator = 0 ∨ amount = 0 then 0 else max 1 (amount * numerator / denominator)

/-- The floored fraction is the fee, and no minimum applies. -/
def FeeIsFloor (numerator denominator amount : Nat) : Prop :=
  numerator = 0 ∨ amount = 0 ∨ denominator ≤ amount * numerator

variable {numerator denominator amount : Nat}

theorem calculateFee_eq (hproduct : amount * numerator < 2 ^ 128) (hdenominator : denominator ≠ 0) :
    calculateFee amount numerator denominator = some (feeOf numerator denominator amount) := by
  unfold calculateFee feeOf
  split
  · rfl
  · rw [checkedMul128_eq_some.mpr ⟨hproduct, rfl⟩, Option.bind_eq_bind, Option.bind_some,
      checkedDiv128_eq_some.mpr ⟨hdenominator, rfl⟩, Option.bind_some]
    split
    · rename_i hzero
      rw [hzero]
      rfl
    · rename_i hpos
      rw [max_eq_right (Nat.one_le_iff_ne_zero.mpr hpos)]

/-- A fraction of a word that is not more than one never overflows, and divides by zero only where the fee is
zero anyway. -/
theorem calculateFee_of_le {numerator denominator : UInt64} {amount : Nat} (hle : numerator ≤ denominator)
    (hamount : amount < 2 ^ 64) :
    calculateFee amount numerator.toNat denominator.toNat =
      some (feeOf numerator.toNat denominator.toNat amount) := by
  have hle' : numerator.toNat ≤ denominator.toNat := UInt64.le_iff_toNat_le.mp hle
  by_cases hzero : denominator.toNat = 0
  · have hnumerator : numerator.toNat = 0 := by omega
    rw [calculateFee, feeOf, if_pos (Or.inl hnumerator), if_pos (Or.inl hnumerator)]
  · apply calculateFee_eq _ hzero
    calc
      _ < 2 ^ 64 * 2 ^ 64 := Nat.mul_lt_mul'' hamount numerator.toNat_lt
      _ = 2 ^ 128 := by norm_num

theorem feeOf_le (hle : numerator ≤ denominator) :
    feeOf numerator denominator amount ≤ amount := by
  unfold feeOf
  split
  · exact Nat.zero_le _
  · apply max_le (by omega)
    apply Nat.div_le_of_le_mul
    rw [Nat.mul_comm denominator]
    exact Nat.mul_le_mul_left _ hle

theorem feeOf_eq_floor_iff (hdenominator : denominator ≠ 0) :
    feeOf numerator denominator amount = amount * numerator / denominator ↔
      FeeIsFloor numerator denominator amount := by
  unfold feeOf FeeIsFloor
  split
  · rename_i hzero
    have hfloor : amount * numerator / denominator = 0 := by
      rcases hzero with rfl | rfl
      · rw [Nat.mul_zero, Nat.zero_div]
      · rw [Nat.zero_mul, Nat.zero_div]
    constructor
    · intro _
      rcases hzero with h | h
      · exact Or.inl h
      · exact Or.inr (Or.inl h)
    · intro _
      exact hfloor.symm
  · rename_i hpos
    rw [not_or] at hpos
    have hone : 1 ≤ amount * numerator / denominator ↔ denominator ≤ amount * numerator := by
      rw [Nat.le_div_iff_mul_le (Nat.pos_of_ne_zero hdenominator), Nat.one_mul]
    rw [max_eq_right_iff, hone]
    constructor
    · intro h
      exact Or.inr (Or.inr h)
    · intro h
      rcases h with h | h | h
      · exact absurd h hpos.1
      · exact absurd h hpos.2
      · exact h

/-! ### The fees of a pool -/

variable {fees : PoolFees}

/-- The fractions of a pool are fractions, and not more than one. -/
structure PoolFees.Proper (fees : PoolFees) : Prop where
  tradeFeeDenominator_ne : fees.tradeFeeDenominator ≠ 0
  protocolTradeFeeDenominator_ne : fees.protocolTradeFeeDenominator ≠ 0
  tradeFee_le : fees.tradeFeeNumerator ≤ fees.tradeFeeDenominator
  protocolTradeFee_le : fees.protocolTradeFeeNumerator ≤ fees.protocolTradeFeeDenominator

def PoolFees.tradeFeeOf (fees : PoolFees) (amount : Nat) : Nat :=
  feeOf fees.tradeFeeNumerator.toNat fees.tradeFeeDenominator.toNat amount

def PoolFees.protocolFeeOf (fees : PoolFees) (amount : Nat) : Nat :=
  feeOf fees.protocolTradeFeeNumerator.toNat fees.protocolTradeFeeDenominator.toNat amount

namespace PoolFees.Proper

variable (h : fees.Proper)

include h

theorem tradeDenominator_toNat_ne : fees.tradeFeeDenominator.toNat ≠ 0 :=
  fun hzero => h.tradeFeeDenominator_ne (UInt64.toNat_inj.mp hzero)

theorem protocolDenominator_toNat_ne : fees.protocolTradeFeeDenominator.toNat ≠ 0 :=
  fun hzero => h.protocolTradeFeeDenominator_ne (UInt64.toNat_inj.mp hzero)

theorem tradeFeeOf_le (amount : Nat) : fees.tradeFeeOf amount ≤ amount :=
  feeOf_le (UInt64.le_iff_toNat_le.mp h.tradeFee_le)

theorem protocolFeeOf_le (amount : Nat) : fees.protocolFeeOf amount ≤ amount :=
  feeOf_le (UInt64.le_iff_toNat_le.mp h.protocolTradeFee_le)

theorem tradingFee_eq (hamount : amount < 2 ^ 64) :
    fees.tradingFee amount = some (fees.tradeFeeOf amount) :=
  calculateFee_of_le h.tradeFee_le hamount

theorem protocolTradingFee_eq (hamount : amount < 2 ^ 64) :
    fees.protocolTradingFee amount = some (fees.protocolFeeOf amount) :=
  calculateFee_of_le h.protocolTradeFee_le hamount

end PoolFees.Proper

end Program

/-! ### The client's fees -/

namespace Quote

variable {fees : PoolFees} {poolState : Client.PoolState}

theorem calculateTradingFee_decode (hfees : poolState.fees = decodeFees fees)
    (hne : fees.tradeFeeDenominator.toNat ≠ 0) (amount : Nat) :
    Client.calculateTradingFee amount poolState =
      .ok ((amount * fees.tradeFeeNumerator.toNat / fees.tradeFeeDenominator.toNat : Nat) : Int) := by
  rw [Client.calculateTradingFee, Js.BN.div_eq_ok, hfees]
  simp only [decodeFees]
  refine ⟨by exact_mod_cast hne, ?_⟩
  rw [Int.ofNat_tdiv, Nat.cast_mul]

theorem calculateProtocolTradingFee_decode (hfees : poolState.fees = decodeFees fees)
    (hne : fees.protocolTradeFeeDenominator.toNat ≠ 0) (amount : Nat) :
    Client.calculateProtocolTradingFee amount poolState =
      .ok ((amount * fees.protocolTradeFeeNumerator.toNat /
        fees.protocolTradeFeeDenominator.toNat : Nat) : Int) := by
  rw [Client.calculateProtocolTradingFee, Js.BN.div_eq_ok, hfees]
  simp only [decodeFees]
  refine ⟨by exact_mod_cast hne, ?_⟩
  rw [Int.ofNat_tdiv, Nat.cast_mul]

/-- Both compute the same trade fee on an amount and the same protocol cut of it, and neither fee is more
than what it is taken from. -/
def FeesAgree (fees : PoolFees) (poolState : Client.PoolState) (amount : UInt64) : Prop :=
  ∃ t p : Nat, fees.tradingFee amount.toNat = some t ∧
    Client.calculateTradingFee amount.toNat poolState = .ok (t : Int) ∧
    fees.protocolTradingFee t = some p ∧ Client.calculateProtocolTradingFee t poolState = .ok (p : Int) ∧
    p ≤ t ∧ t ≤ amount.toNat

theorem feesAgree_iff (h : fees.Proper) (hfees : poolState.fees = decodeFees fees) (amount : UInt64) :
    FeesAgree fees poolState amount ↔
      FeeIsFloor fees.tradeFeeNumerator.toNat fees.tradeFeeDenominator.toNat amount.toNat ∧
        FeeIsFloor fees.protocolTradeFeeNumerator.toNat fees.protocolTradeFeeDenominator.toNat
          (amount.toNat * fees.tradeFeeNumerator.toNat / fees.tradeFeeDenominator.toNat) := by
  have htrade := h.tradeDenominator_toNat_ne
  have hprotocol := h.protocolDenominator_toNat_ne
  have htle := h.tradeFeeOf_le amount.toNat
  have hlt : fees.tradeFeeOf amount.toNat < 2 ^ 64 := htle.trans_lt amount.toNat_lt
  rw [← feeOf_eq_floor_iff htrade, ← feeOf_eq_floor_iff hprotocol]
  simp only [FeesAgree, h.tradingFee_eq amount.toNat_lt, calculateTradingFee_decode hfees htrade,
    calculateProtocolTradingFee_decode hfees hprotocol, Option.some.injEq, Except.ok.injEq,
    Nat.cast_inj, exists_and_left, exists_eq_left']
  rw [PoolFees.tradeFeeOf] at *
  constructor
  · rintro ⟨hfloor, p, hp, hcut, _, _⟩
    rw [h.protocolTradingFee_eq hlt, Option.some.injEq, PoolFees.protocolFeeOf] at hp
    rw [← hfloor] at hp hcut ⊢
    exact ⟨rfl, hp.trans hcut.symm⟩
  · rintro ⟨hfloor, hcut⟩
    refine ⟨hfloor.symm, _, h.protocolTradingFee_eq hlt, ?_, h.protocolFeeOf_le _, htle⟩
    rw [PoolFees.protocolFeeOf, hfloor]
    exact hcut.symm

def sampleFeePool (fees : PoolFees) : Client.PoolState where
  tokenAMint := Pubkey.replicate 1
  tokenBMint := Pubkey.replicate 2
  enabled := true
  fees := decodeFees fees
  stake := Pubkey.replicate 0
  bootstrapping := { activationPoint := 0, whitelistedVault := Pubkey.replicate 0, activationType := 0 }
  curveType := .constantProduct

theorem feesAgree_iff_sample :
    FeesAgree ⟨250, 100000, 20000, 100000⟩ (sampleFeePool ⟨250, 100000, 20000, 100000⟩) 10000 ↔
      FeeIsFloor 250 100000 10000 ∧ FeeIsFloor 20000 100000 (10000 * 250 / 100000) :=
  @feesAgree_iff ⟨250, 100000, 20000, 100000⟩ _ ⟨by decide, by decide, by decide, by decide⟩ rfl 10000

/-- On 399 the program charges one, the client nothing. -/
theorem fees_differ :
    PoolFees.tradingFee ⟨250, 100000, 20000, 100000⟩ 399 = some 1 ∧
      Client.calculateTradingFee 399 (sampleFeePool ⟨250, 100000, 20000, 100000⟩) = .ok 0 ∧
      ¬ FeesAgree ⟨250, 100000, 20000, 100000⟩ (sampleFeePool ⟨250, 100000, 20000, 100000⟩) 399 := by
  refine ⟨by decide, by decide, ?_⟩
  rintro ⟨t, p, hrust, hclient, _⟩
  have hone : some 1 = some t := hrust
  have hzero : (Except.ok 0 : Js.Throwing Int) = .ok (t : Int) := hclient
  rw [Option.some.injEq] at hone
  rw [Except.ok.injEq] at hzero
  omega

end Quote

end DynamicAmm

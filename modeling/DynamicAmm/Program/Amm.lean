import DynamicAmm.Rust.Checked

/-!
# The AMM program's accounts

The pool account as far as the quotes read it, with the two helpers that the program attaches to its
state: fee calculation, and the scaling of token amounts to a common precision.
-/

namespace DynamicAmm

/-! ### Directions -/

/-- Which way a swap goes, in either quote. -/
inductive TradeDirection where
  | aToB
  | bToA
  deriving DecidableEq, Repr

/-- Of two things, the one on the side that is sold. -/
def TradeDirection.source {α : Type} (direction : TradeDirection) (a b : α) : α :=
  match direction with
  | .aToB => a
  | .bToA => b

/-- The one on the side that is bought. -/
def TradeDirection.destination {α : Type} (direction : TradeDirection) (a b : α) : α :=
  direction.source b a

namespace Program

open Rust

abbrev Bytes := List UInt8

structure Pubkey where
  bytes : Bytes
  length_eq : bytes.length = 32
  deriving DecidableEq

/-- The address whose bytes are all the given one. -/
def Pubkey.replicate (byte : UInt8) : Pubkey := ⟨List.replicate 32 byte, List.length_replicate⟩

/-! ### Constants -/

/-- Base virtual time caching time, 10 minutes -/
def baseCacheExpires : Nat := 60 * 10

def depegPrecision : Nat := 10 ^ 6

def feeDenominator : Nat := 100000

/-! ### Fees -/

def calculateFee (tokenAmount feeNumerator feeDenominator : Nat) : Option Nat :=
  if feeNumerator = 0 ∨ tokenAmount = 0 then some 0
  else do
    let product ← checkedMul128 tokenAmount feeNumerator
    let fee ← checkedDiv128 product feeDenominator
    if fee = 0 then
      some 1 -- minimum fee of one token
    else
      some fee

structure PoolFees where
  tradeFeeNumerator : UInt64
  tradeFeeDenominator : UInt64
  protocolTradeFeeNumerator : UInt64
  protocolTradeFeeDenominator : UInt64
  deriving DecidableEq, Repr

def PoolFees.tradingFee (fees : PoolFees) (tradingTokens : Nat) : Option Nat :=
  calculateFee tradingTokens fees.tradeFeeNumerator.toNat fees.tradeFeeDenominator.toNat

def PoolFees.protocolTradingFee (fees : PoolFees) (tradingTokens : Nat) : Option Nat :=
  calculateFee tradingTokens fees.protocolTradeFeeNumerator.toNat
    fees.protocolTradeFeeDenominator.toNat

theorem calculateFee_eq_zero {amount numerator denominator fee : Nat}
    (h : calculateFee amount numerator denominator = some fee) :
    fee = 0 ↔ numerator = 0 ∨ amount = 0 := by
  unfold calculateFee at h
  split at h
  · rename_i hzero
    simp only [Option.some.injEq] at h
    exact iff_of_true h.symm hzero
  · rename_i hzero
    refine iff_of_false ?_ hzero
    simp only [Option.bind_eq_bind, Option.bind_eq_some_iff] at h
    obtain ⟨-, -, quotient, -, hfee⟩ := h
    split at hfee <;> simp only [Option.some.injEq] at hfee <;> omega

/-- Away from the minimum of one token the fee is the floored fraction. -/
theorem calculateFee_eq_some {amount numerator denominator : Nat} (hprod : amount * numerator < 2 ^ 128)
    (hden : denominator ≠ 0) (hfloor : numerator = 0 ∨ amount = 0 ∨ denominator ≤ amount * numerator) :
    calculateFee amount numerator denominator = some (amount * numerator / denominator) := by
  unfold calculateFee
  split
  · rename_i hzero
    rcases hzero with rfl | rfl <;> simp
  · rename_i hzero
    have hfloor' : denominator ≤ amount * numerator := by
      rcases hfloor with h | h | h
      · exact absurd (Or.inl h) hzero
      · exact absurd (Or.inr h) hzero
      · exact h
    have hpos : amount * numerator / denominator ≠ 0 := by
      have := Nat.div_pos hfloor' (Nat.pos_of_ne_zero hden)
      omega
    rw [checkedMul128_eq_some.mpr ⟨hprod, rfl⟩, Option.bind_eq_bind, Option.bind_some,
      checkedDiv128_eq_some.mpr ⟨hden, rfl⟩, Option.bind_some, if_neg hpos]

/-! ### Curves -/

structure TokenMultiplier where
  tokenAMultiplier : UInt64
  tokenBMultiplier : UInt64
  deriving DecidableEq, Repr

namespace TokenMultiplier

def upscaleTokenA (multiplier : TokenMultiplier) (tokenAmount : Nat) : Option Nat :=
  checkedMul128 tokenAmount multiplier.tokenAMultiplier.toNat

def upscaleTokenB (multiplier : TokenMultiplier) (tokenAmount : Nat) : Option Nat :=
  checkedMul128 tokenAmount multiplier.tokenBMultiplier.toNat

def downscaleTokenA (multiplier : TokenMultiplier) (tokenAmount : Nat) : Option Nat :=
  checkedDiv128 tokenAmount multiplier.tokenAMultiplier.toNat

def downscaleTokenB (multiplier : TokenMultiplier) (tokenAmount : Nat) : Option Nat :=
  checkedDiv128 tokenAmount multiplier.tokenBMultiplier.toNat

end TokenMultiplier

inductive DepegType where
  | none
  | marinade
  | lido
  | splStake
  deriving DecidableEq, Repr

structure Depeg where
  baseVirtualPrice : UInt64
  baseCacheUpdated : UInt64
  depegType : DepegType
  deriving DecidableEq, Repr

inductive CurveType where
  | constantProduct
  | stable (amp : UInt64) (tokenMultiplier : TokenMultiplier) (depeg : Depeg)
      (lastAmpUpdatedTimestamp : UInt64)
  deriving DecidableEq, Repr

/-! ### The pool -/

inductive ActivationType where
  | slot
  | timestamp
  deriving DecidableEq, Repr

def ActivationType.tryFrom (s : UInt8) : Outcome ActivationType :=
  if s = 0 then .ok .slot else if s = 1 then .ok .timestamp else .err "Invalid value"

structure Bootstrapping where
  /-- Activation point, can be slot or timestamp -/
  activationPoint : UInt64
  /-- Activation type, 0 means by slot, 1 means by timestamp -/
  activationType : UInt8
  deriving DecidableEq, Repr

structure Pool where
  tokenAMint : Pubkey
  tokenBMint : Pubkey
  enabled : Bool
  fees : PoolFees
  stake : Pubkey
  bootstrapping : Bootstrapping
  curveType : CurveType
  deriving DecidableEq

end Program

end DynamicAmm

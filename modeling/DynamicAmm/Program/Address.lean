import DynamicAmm.Base.Seeds
import DynamicAmm.Program.Amm

/-!
# Addresses of the AMM program's accounts

Every account of the program is at the address that its seeds are hashed to. The seeds are those of the
account constraints of the program, which the Rust client repeats in its own derivations.
-/

namespace DynamicAmm.Program

open Rust Seeds

/-! ### Seeds of a pool -/

def toLeBytes (n : UInt64) : Bytes := leBytes 8 n.toNat

def getFirstKey (key1 key2 : Pubkey) : Pubkey := if key1.bytes > key2.bytes then key1 else key2

def getSecondKey (key1 key2 : Pubkey) : Pubkey := if key1.bytes > key2.bytes then key2 else key1

def getCurveType : CurveType → UInt8
  | .constantProduct => 0
  | _ => 1

def maxBasisPoint : Nat := 10000

/-- Convert fees numerator and denominator to BPS. Minimum 1 bps, Maximum 10_000 bps. 0.01% -> 100% -/
def toBps (numerator denominator : Nat) : Option UInt64 := do
  let product ← checkedMul128 numerator maxBasisPoint
  let bps ← checkedDiv128 product denominator
  tryU64 bps

def defaultFees : PoolFees where
  tradeFeeNumerator := 250
  tradeFeeDenominator := 100000
  protocolTradeFeeNumerator := 0
  protocolTradeFeeDenominator := 100000

def defaultTradeFeeBps : UInt64 :=
  (toBps defaultFees.tradeFeeNumerator.toNat defaultFees.tradeFeeDenominator.toNat).get (by decide)

def getTradeFeeBpsBytes (tradeFeeBps : UInt64) : Bytes :=
  if defaultTradeFeeBps = tradeFeeBps then [] else toLeBytes tradeFeeBps

/-! ### Accounts -/

/-- The accounts that the program creates, each with what its address is derived from. -/
inductive DerivedAccount where
  /-- A pool of a fee tier. -/
  | pool (curveType : CurveType) (tokenAMint tokenBMint : Pubkey) (tradeFeeBps : UInt64)
  | poolWithConfig (tokenAMint tokenBMint config : Pubkey)
  | poolLpMint (pool : Pubkey)
  | vaultLpToken (vault pool : Pubkey)
  | protocolTokenFee (tokenMint pool : Pubkey)
  | lockEscrow (pool owner : Pubkey)
  | config (index : UInt64)
  deriving DecidableEq

/-- The bytes of an ASCII text. -/
def text (s : String) : Bytes := s.toList.map fun c => UInt8.ofNat c.toNat

def DerivedAccount.seeds : DerivedAccount → List Bytes
  | .pool curveType tokenAMint tokenBMint tradeFeeBps =>
      [[getCurveType curveType], (getFirstKey tokenAMint tokenBMint).bytes,
        (getSecondKey tokenAMint tokenBMint).bytes, getTradeFeeBpsBytes tradeFeeBps]
  | .poolWithConfig tokenAMint tokenBMint configKey =>
      [(getFirstKey tokenAMint tokenBMint).bytes, (getSecondKey tokenAMint tokenBMint).bytes, configKey.bytes]
  | .poolLpMint poolKey => [text "lp_mint", poolKey.bytes]
  | .vaultLpToken vault poolKey => [vault.bytes, poolKey.bytes]
  | .protocolTokenFee tokenMint poolKey => [text "fee", tokenMint.bytes, poolKey.bytes]
  | .lockEscrow poolKey owner => [text "lock_escrow", poolKey.bytes, owner.bytes]
  | .config index => [text "config", toLeBytes index]

end DynamicAmm.Program

import DynamicAmm.Base.Seeds
import DynamicAmm.Client.State
import DynamicAmm.Program.Address

/-!
# Addresses as the client derives them

The client repeats the seeds of the program. Whether a fee is the default one, which has no seed, it
decides by itself, and by the curve.
-/

namespace DynamicAmm.Client

open Js Seeds
open Program (Bytes Pubkey text)

/-- `BN.toBuffer('le', 8)`, which writes the magnitude. -/
def toBuffer (n : Int) : Throwing Bytes :=
  if n.natAbs < 256 ^ 8 then .ok (leBytes 8 n.natAbs) else .error "byte array longer than desired length"

def encodeCurveType : CurveType → UInt8
  | .constantProduct => 0
  | .stable .. => 1

def getSecondKey (key1 key2 : Pubkey) : Bytes :=
  if lexCompare key1.bytes key2.bytes = 1 then key2.bytes else key1.bytes

def getFirstKey (key1 key2 : Pubkey) : Bytes :=
  if lexCompare key1.bytes key2.bytes = 1 then key1.bytes else key2.bytes

def constantProductDefaultTradeFeeBps : Int := 25

def stableSwapDefaultTradeFeeBps : Int := 1

def getTradeFeeBpsBuffer (curve : CurveType) (tradeFeeBps : Int) : Throwing Bytes :=
  let defaultFeeBps := match curve with
    | .stable .. => stableSwapDefaultTradeFeeBps
    | .constantProduct => constantProductDefaultTradeFeeBps
  if tradeFeeBps = defaultFeeBps then .ok [] else toBuffer tradeFeeBps

/-- The accounts of the program, by what the client derives their addresses from. -/
inductive DerivedAccount where
  | pool (curveType : CurveType) (tokenAMint tokenBMint : Pubkey) (tradeFeeBps : Int)
  | poolWithConfig (tokenA tokenB config : Pubkey)
  | poolLpMint (pool : Pubkey)
  | vaultLpToken (vault pool : Pubkey)
  | protocolTokenFee (tokenMint pool : Pubkey)
  | lockEscrow (pool owner : Pubkey)
  | config (index : Int)

def DerivedAccount.seeds : DerivedAccount → Throwing (List Bytes)
  | .pool curveType tokenAMint tokenBMint tradeFeeBps => do
      let fee ← getTradeFeeBpsBuffer curveType tradeFeeBps
      pure [[encodeCurveType curveType], getFirstKey tokenAMint tokenBMint,
        getSecondKey tokenAMint tokenBMint, fee]
  | .poolWithConfig tokenA tokenB configKey =>
      pure [getFirstKey tokenA tokenB, getSecondKey tokenA tokenB, configKey.bytes]
  | .poolLpMint poolKey => pure [text "lp_mint", poolKey.bytes]
  | .vaultLpToken vault poolKey => pure [vault.bytes, poolKey.bytes]
  | .protocolTokenFee tokenMint poolKey => pure [text "fee", tokenMint.bytes, poolKey.bytes]
  | .lockEscrow poolKey owner => pure [text "lock_escrow", poolKey.bytes, owner.bytes]
  | .config index => do
      let index ← toBuffer index
      pure [text "config", index]

end DynamicAmm.Client

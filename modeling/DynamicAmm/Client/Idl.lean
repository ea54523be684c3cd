import DynamicAmm.Base.Schema
import DynamicAmm.Client.CreateConfig
import DynamicAmm.Client.Loading

/-!
# The accounts by the interface description

The client knows the program by an interface description, and the accounts coder of `@coral-xyz/anchor` reads
account data by it. The coder hands out records with the names of fields and variants in camel case, in which
they are written here.
-/

namespace DynamicAmm.Client

open Js Schema
open Program (Bytes DepegType Pubkey)

namespace Idl

/-! ### The description -/

def u8 : Ty := .uint 1

def u64 : Ty := .uint 8

def u128 : Ty := .uint 16

def publicKey : Ty := .bytes 32

def tokenMultiplier : Ty := .struct (.ofList
  [("tokenAMultiplier", u64), ("tokenBMultiplier", u64), ("precisionFactor", u8)])

def poolFees : Ty := .struct (.ofList
  [("tradeFeeNumerator", u64), ("tradeFeeDenominator", u64), ("protocolTradeFeeNumerator", u64),
    ("protocolTradeFeeDenominator", u64)])

def depegType : Ty := .enum (.ofNames ["none", "marinade", "lido", "splStake"])

def depeg : Ty := .struct (.ofList
  [("baseVirtualPrice", u64), ("baseCacheUpdated", u64), ("depegType", depegType)])

def padding : Ty := .struct (.ofList [("padding0", .array u8 14), ("padding", .array u128 24)])

def bootstrapping : Ty := .struct (.ofList
  [("activationPoint", u64), ("whitelistedVault", publicKey), ("poolCreator", publicKey), ("activationType", u8)])

def curveType : Ty := .enum (.ofList
  [("constantProduct", .nil),
    ("stable", .ofList
      [("amp", u64), ("tokenMultiplier", tokenMultiplier), ("depeg", depeg), ("lastAmpUpdatedTimestamp", u64)])])

def poolType : Ty := .enum (.ofNames ["permissioned", "permissionless"])

def pool : Ty := .struct (.ofList
  [("lpMint", publicKey), ("tokenAMint", publicKey), ("tokenBMint", publicKey), ("aVault", publicKey),
    ("bVault", publicKey), ("aVaultLp", publicKey), ("bVaultLp", publicKey), ("aVaultLpBump", u8),
    ("enabled", .bool), ("protocolTokenAFee", publicKey), ("protocolTokenBFee", publicKey),
    ("feeLastUpdatedAt", u64), ("padding0", .array u8 24), ("fees", poolFees), ("poolType", poolType),
    ("stake", publicKey), ("totalLockedLp", u64), ("bootstrapping", bootstrapping), ("padding", padding),
    ("curveType", curveType)])

def config : Ty := .struct (.ofList
  [("poolFees", poolFees), ("activationDuration", u64), ("vaultConfigKey", publicKey),
    ("poolCreatorAuthority", publicKey), ("activationType", u8), ("padding", .array u8 227)])

def lockEscrow : Ty := .struct (.ofList
  [("pool", publicKey), ("owner", publicKey), ("escrowVault", publicKey), ("bump", u8), ("totalLockedAmount", u64),
    ("lpPerToken", u128), ("unclaimedFeePending", u64), ("aFee", u64), ("bFee", u64)])

def accounts : List (String × Ty) := [("config", config), ("lockEscrow", lockEscrow), ("pool", pool)]

def configParameters : Ty := .struct (.ofList
  [("tradeFeeNumerator", u64), ("protocolTradeFeeNumerator", u64), ("activationDuration", u64),
    ("vaultConfigKey", publicKey), ("poolCreatorAuthority", publicKey), ("activationType", u8), ("index", u64)])

end Idl

/-! ### The records -/

namespace Record

def get (record : Value) (name : String) : Option Value :=
  match record with
  | .record entries => entries.lookup name
  | _ => none

def bool (value : Value) : Option Bool :=
  match value with
  | .bool b => some b
  | _ => none

def number (value : Value) : Option Nat :=
  match value with
  | .nat n => some n
  | _ => none

def publicKey (value : Value) : Option Pubkey :=
  match value with
  | .bytes bytes => if h : bytes.length = 32 then some ⟨bytes, h⟩ else none
  | _ => none

def poolFees (record : Value) : Option PoolFees := do
  let tradeFeeNumerator ← get record "tradeFeeNumerator" >>= number
  let tradeFeeDenominator ← get record "tradeFeeDenominator" >>= number
  let protocolTradeFeeNumerator ← get record "protocolTradeFeeNumerator" >>= number
  let protocolTradeFeeDenominator ← get record "protocolTradeFeeDenominator" >>= number
  some { tradeFeeNumerator, tradeFeeDenominator, protocolTradeFeeNumerator, protocolTradeFeeDenominator }

def depegType (value : Value) : Option DepegType :=
  match value with
  | .variant "none" _ => some .none
  | .variant "marinade" _ => some .marinade
  | .variant "lido" _ => some .lido
  | .variant "splStake" _ => some .splStake
  | _ => none

def depeg (record : Value) : Option Depeg := do
  let baseVirtualPrice ← get record "baseVirtualPrice" >>= number
  let baseCacheUpdated ← get record "baseCacheUpdated" >>= number
  let depegType ← get record "depegType" >>= depegType
  some { baseVirtualPrice, baseCacheUpdated, depegType }

def tokenMultiplier (record : Value) : Option TokenMultiplier := do
  let tokenAMultiplier ← get record "tokenAMultiplier" >>= number
  let tokenBMultiplier ← get record "tokenBMultiplier" >>= number
  some { tokenAMultiplier, tokenBMultiplier }

def curveType (value : Value) : Option CurveType :=
  match value with
  | .variant "stable" entries => do
      let amp ← entries.lookup "amp" >>= number
      let tokenMultiplier ← entries.lookup "tokenMultiplier" >>= tokenMultiplier
      let depeg ← entries.lookup "depeg" >>= depeg
      some (.stable amp tokenMultiplier depeg)
  | .variant _ _ => some .constantProduct
  | _ => none

def bootstrapping (record : Value) : Option Bootstrapping := do
  let activationPoint ← get record "activationPoint" >>= number
  let whitelistedVault ← get record "whitelistedVault" >>= publicKey
  let activationType ← get record "activationType" >>= number
  some { activationPoint, whitelistedVault, activationType }

def poolAccount (record : Value) : Option PoolAccount := do
  let lpMint ← get record "lpMint" >>= publicKey
  let tokenAMint ← get record "tokenAMint" >>= publicKey
  let tokenBMint ← get record "tokenBMint" >>= publicKey
  let aVault ← get record "aVault" >>= publicKey
  let bVault ← get record "bVault" >>= publicKey
  let aVaultLp ← get record "aVaultLp" >>= publicKey
  let bVaultLp ← get record "bVaultLp" >>= publicKey
  let enabled ← get record "enabled" >>= bool
  let fees ← get record "fees" >>= poolFees
  let stake ← get record "stake" >>= publicKey
  let bootstrapping ← get record "bootstrapping" >>= bootstrapping
  let curveType ← get record "curveType" >>= curveType
  some { lpMint, tokenAMint, tokenBMint, aVault, bVault, aVaultLp, bVaultLp, enabled, fees, stake, bootstrapping,
         curveType }

end Record

/-! ### The arguments of `createConfig` -/

/-- A `BN` as a record has it, which is written without its sign. -/
def Record.bn (n : Int) : Value := .nat n.natAbs

def CreateConfigInstruction.configParameters (instruction : CreateConfigInstruction) : Value := .record
  [("tradeFeeNumerator", Record.bn instruction.tradeFeeNumerator),
    ("protocolTradeFeeNumerator", Record.bn instruction.protocolTradeFeeNumerator),
    ("vaultConfigKey", .bytes instruction.vaultConfigKey.bytes),
    ("activationDuration", Record.bn instruction.activationDuration),
    ("poolCreatorAuthority", .bytes instruction.poolCreatorAuthority.bytes),
    ("index", Record.bn instruction.index),
    ("activationType", .nat instruction.activationType)]

/-! ### The coder -/

structure AccountsCoder where
  /-- `accountDiscriminator` of an account's name -/
  accountDiscriminator : String → Bytes
  decode : String → Bytes → Throwing Value

namespace AccountsCoder

variable (coder : AccountsCoder)

def poolAccount (data : Bytes) : Throwing PoolAccount := do
  let record ← coder.decode "pool" data
  match Record.poolAccount record with
  | some poolAccount => pure poolAccount
  | none => .error "Cannot read properties of undefined"

end AccountsCoder

end DynamicAmm.Client

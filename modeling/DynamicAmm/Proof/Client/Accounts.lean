import DynamicAmm.Client.Decode
import DynamicAmm.Client.Idl
import DynamicAmm.Program.Accounts

/-!
# The interface description is that of the program

Field by field the client's description reads the bytes of the program's state, and the records it makes of them
are those of the state. So the client reads an account exactly when the program does.
-/

namespace DynamicAmm

open Schema Program

namespace Program

/-! ### Primitive types -/

theorem u8_describes : Describes Client.Idl.u8 u8 (fun x => .nat x.toNat) :=
  (describes_uint 1).map _ fun n => congrArg Value.nat (UInt8.toNat_ofNat_of_lt' n.isLt)

theorem u64_describes : Describes Client.Idl.u64 u64 (fun x => .nat x.toNat) :=
  (describes_uint 8).map _ fun n => congrArg Value.nat (UInt64.toNat_ofNat_of_lt' n.isLt)

theorem u128_describes : Describes Client.Idl.u128 u128 (fun x => .nat x.val) :=
  (describes_uint 16).map _ fun _ => rfl

theorem pubkey_describes : Describes Client.Idl.publicKey pubkey (fun key => .bytes key.bytes) :=
  (describes_bytes 32).map _ fun _ => rfl

/-! ### The state of a pool -/

def PoolFees.view (fees : PoolFees) : Value := .record
  [("tradeFeeNumerator", .nat fees.tradeFeeNumerator.toNat),
    ("tradeFeeDenominator", .nat fees.tradeFeeDenominator.toNat),
    ("protocolTradeFeeNumerator", .nat fees.protocolTradeFeeNumerator.toNat),
    ("protocolTradeFeeDenominator", .nat fees.protocolTradeFeeDenominator.toNat)]

theorem poolFees_describes : Describes Client.Idl.poolFees PoolFees.codec PoolFees.view :=
  Describes.map (DescribesFields.struct (u64_describes.cons _ (u64_describes.cons _ (u64_describes.cons _
    (u64_describes.last _)))) (by decide)) _ fun _ => rfl

def DepegType.view : DepegType → Value
  | .none => .variant "none" []
  | .marinade => .variant "marinade" []
  | .lido => .variant "lido" []
  | .splStake => .variant "splStake" []

theorem depegType_describes : Describes Client.Idl.depegType DepegType.codec DepegType.view :=
  Describes.map (describes_names (by decide) (by decide)) _ fun i => by fin_cases i <;> rfl

def Depeg.view (depeg : Depeg) : Value := .record
  [("baseVirtualPrice", .nat depeg.baseVirtualPrice.toNat), ("baseCacheUpdated", .nat depeg.baseCacheUpdated.toNat),
    ("depegType", DepegType.view depeg.depegType)]

theorem depeg_describes : Describes Client.Idl.depeg Depeg.codec Depeg.view :=
  Describes.map (DescribesFields.struct (u64_describes.cons _ (u64_describes.cons _ (depegType_describes.last _)))
    (by decide)) _ fun _ => rfl

namespace State

/-- A sequence of words as a record holds it. -/
def bytesView {n : Nat} (v : List.Vector UInt8 n) : Value := .array (v.toList.map fun x => .nat x.toNat)

def Padding.view (padding : Padding) : Value := .record
  [("padding0", bytesView padding.padding0), ("padding", .array (padding.padding.toList.map fun x => .nat x.val))]

theorem padding_describes : Describes Client.Idl.padding Padding.codec Padding.view :=
  Describes.map (DescribesFields.struct ((u8_describes.array 14).cons _ ((u128_describes.array 24).last _))
    (by decide)) _ fun _ => rfl

def PoolType.view : PoolType → Value
  | .permissioned => .variant "permissioned" []
  | .permissionless => .variant "permissionless" []

theorem poolType_describes : Describes Client.Idl.poolType PoolType.codec PoolType.view :=
  Describes.map (describes_names (by decide) (by decide)) _ fun i => by fin_cases i <;> rfl

def TokenMultiplier.view (multiplier : TokenMultiplier) : Value := .record
  [("tokenAMultiplier", .nat multiplier.tokenAMultiplier.toNat),
    ("tokenBMultiplier", .nat multiplier.tokenBMultiplier.toNat),
    ("precisionFactor", .nat multiplier.precisionFactor.toNat)]

theorem tokenMultiplier_describes :
    Describes Client.Idl.tokenMultiplier TokenMultiplier.codec TokenMultiplier.view :=
  Describes.map (DescribesFields.struct (u64_describes.cons _ (u64_describes.cons _ (u8_describes.last _)))
    (by decide)) _ fun _ => rfl

def CurveType.view : CurveType → Value
  | .constantProduct => .variant "constantProduct" []
  | .stable amp tokenMultiplier depeg lastAmpUpdatedTimestamp => .variant "stable"
      [("amp", .nat amp.toNat), ("tokenMultiplier", tokenMultiplier.view), ("depeg", Depeg.view depeg),
        ("lastAmpUpdatedTimestamp", .nat lastAmpUpdatedTimestamp.toNat)]

theorem curveType_describes : Describes Client.Idl.curveType CurveType.codec CurveType.view := by
  refine Describes.map (DescribesFields.sum (by decide) describesFields_nil (u64_describes.cons _
    (tokenMultiplier_describes.cons _ (depeg_describes.cons _ (u64_describes.last _)))) (by decide) (by decide)) _ ?_
  intro s
  rcases s with _ | ⟨_, _, _, _⟩ <;> rfl

def Bootstrapping.view (bootstrapping : Bootstrapping) : Value := .record
  [("activationPoint", .nat bootstrapping.activationPoint.toNat),
    ("whitelistedVault", .bytes bootstrapping.whitelistedVault.bytes),
    ("poolCreator", .bytes bootstrapping.poolCreator.bytes),
    ("activationType", .nat bootstrapping.activationType.toNat)]

theorem bootstrapping_describes : Describes Client.Idl.bootstrapping Bootstrapping.codec Bootstrapping.view :=
  Describes.map (DescribesFields.struct (u64_describes.cons _ (pubkey_describes.cons _ (pubkey_describes.cons _
    (u8_describes.last _)))) (by decide)) _ fun _ => rfl

def Pool.view (pool : Pool) : Value := .record
  [("lpMint", .bytes pool.lpMint.bytes), ("tokenAMint", .bytes pool.tokenAMint.bytes),
    ("tokenBMint", .bytes pool.tokenBMint.bytes), ("aVault", .bytes pool.aVault.bytes),
    ("bVault", .bytes pool.bVault.bytes), ("aVaultLp", .bytes pool.aVaultLp.bytes),
    ("bVaultLp", .bytes pool.bVaultLp.bytes), ("aVaultLpBump", .nat pool.aVaultLpBump.toNat),
    ("enabled", .bool pool.enabled), ("protocolTokenAFee", .bytes pool.protocolTokenAFee.bytes),
    ("protocolTokenBFee", .bytes pool.protocolTokenBFee.bytes),
    ("feeLastUpdatedAt", .nat pool.feeLastUpdatedAt.toNat), ("padding0", bytesView pool.padding0),
    ("fees", PoolFees.view pool.fees), ("poolType", pool.poolType.view), ("stake", .bytes pool.stake.bytes),
    ("totalLockedLp", .nat pool.totalLockedLp.toNat), ("bootstrapping", pool.bootstrapping.view),
    ("padding", pool.padding.view), ("curveType", pool.curveType.view)]

theorem pool_describes : Describes Client.Idl.pool Pool.codec Pool.view :=
  Describes.map (DescribesFields.struct (pubkey_describes.cons _ (pubkey_describes.cons _ (pubkey_describes.cons _
    (pubkey_describes.cons _ (pubkey_describes.cons _ (pubkey_describes.cons _ (pubkey_describes.cons _
      (u8_describes.cons _ (describes_bool.cons _ (pubkey_describes.cons _ (pubkey_describes.cons _
        (u64_describes.cons _ ((u8_describes.array 24).cons _ (poolFees_describes.cons _
          (poolType_describes.cons _ (pubkey_describes.cons _ (u64_describes.cons _ (bootstrapping_describes.cons _
            (padding_describes.cons _ (curveType_describes.last _)))))))))))))))))))) (by decide)) _ fun _ => rfl

/-! ### Other accounts -/

def LockEscrow.view (escrow : LockEscrow) : Value := .record
  [("pool", .bytes escrow.pool.bytes), ("owner", .bytes escrow.owner.bytes),
    ("escrowVault", .bytes escrow.escrowVault.bytes), ("bump", .nat escrow.bump.toNat),
    ("totalLockedAmount", .nat escrow.totalLockedAmount.toNat), ("lpPerToken", .nat escrow.lpPerToken.val),
    ("unclaimedFeePending", .nat escrow.unclaimedFeePending.toNat), ("aFee", .nat escrow.aFee.toNat),
    ("bFee", .nat escrow.bFee.toNat)]

theorem lockEscrow_describes : Describes Client.Idl.lockEscrow LockEscrow.codec LockEscrow.view :=
  Describes.map (DescribesFields.struct (pubkey_describes.cons _ (pubkey_describes.cons _ (pubkey_describes.cons _
    (u8_describes.cons _ (u64_describes.cons _ (u128_describes.cons _ (u64_describes.cons _ (u64_describes.cons _
      (u64_describes.last _))))))))) (by decide)) _ fun _ => rfl

def Config.view (config : Config) : Value := .record
  [("poolFees", PoolFees.view config.poolFees), ("activationDuration", .nat config.activationDuration.toNat),
    ("vaultConfigKey", .bytes config.vaultConfigKey.bytes),
    ("poolCreatorAuthority", .bytes config.poolCreatorAuthority.bytes),
    ("activationType", .nat config.activationType.toNat), ("padding", bytesView config.padding)]

theorem config_describes : Describes Client.Idl.config Config.codec Config.view :=
  Describes.map (DescribesFields.struct (poolFees_describes.cons _ (u64_describes.cons _ (pubkey_describes.cons _
    (pubkey_describes.cons _ (u8_describes.cons _ ((u8_describes.array 227).last _)))))) (by decide)) _ fun _ => rfl

end State

end Program

/-! ### The client's copy of a pool -/

namespace Client.Record

@[simp] theorem publicKey_bytes (key : Pubkey) : publicKey (.bytes key.bytes) = some key := dif_pos key.length_eq

end Client.Record

end DynamicAmm

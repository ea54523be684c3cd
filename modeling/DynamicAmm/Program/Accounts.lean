import DynamicAmm.Base.Codec
import DynamicAmm.Program.Amm

/-!
# The program's accounts as bytes

The state of the AMM program with all its fields, in the order in which they are serialized. An account holds
the discriminator of its type and then the Borsh encoding of the value: words with the lowest byte first, fields
and array elements one after the other, and a byte for which of its alternatives an enumeration is. What is left
of the account's space after that is not read.
-/

namespace DynamicAmm.Program

/-! ### Primitive types -/

abbrev U128 := Fin (2 ^ 128)

def u8 : Codec UInt8 := (Codec.word 1).map {
  toFun := fun n => UInt8.ofNat n
  invFun := fun x => ⟨x.toNat, x.toNat_lt⟩
  left_inv := fun n => Fin.ext (UInt8.toNat_ofNat_of_lt' n.isLt)
  right_inv := fun _ => UInt8.ofNat_toNat }

def u64 : Codec UInt64 := (Codec.word 8).map {
  toFun := fun n => UInt64.ofNat n
  invFun := fun x => ⟨x.toNat, x.toNat_lt⟩
  left_inv := fun n => Fin.ext (UInt64.toNat_ofNat_of_lt' n.isLt)
  right_inv := fun _ => UInt64.ofNat_toNat }

def u128 : Codec U128 := (Codec.word 16).map (finCongr (by norm_num))

def pubkey : Codec Pubkey := (Codec.raw 32).map {
  toFun := fun v => ⟨v.toList, v.toList_length⟩
  invFun := fun key => ⟨key.bytes, key.length_eq⟩
  left_inv := fun _ => rfl
  right_inv := fun _ => rfl }

/-! ### The state of a pool -/

def PoolFees.codec : Codec PoolFees := (u64.prod (u64.prod (u64.prod u64))).map {
  toFun := fun (tradeFeeNumerator, tradeFeeDenominator, protocolTradeFeeNumerator, protocolTradeFeeDenominator) =>
    ⟨tradeFeeNumerator, tradeFeeDenominator, protocolTradeFeeNumerator, protocolTradeFeeDenominator⟩
  invFun := fun fees => (fees.tradeFeeNumerator, fees.tradeFeeDenominator, fees.protocolTradeFeeNumerator,
    fees.protocolTradeFeeDenominator)
  left_inv := fun _ => rfl
  right_inv := fun _ => rfl }

def DepegType.codec : Codec DepegType := (Codec.tag 4 (by decide)).map {
  toFun := fun
    | 0 => .none
    | 1 => .marinade
    | 2 => .lido
    | 3 => .splStake
  invFun := fun
    | .none => 0
    | .marinade => 1
    | .lido => 2
    | .splStake => 3
  left_inv := by decide
  right_inv := fun depegType => by cases depegType <;> rfl }

def Depeg.codec : Codec Depeg := (u64.prod (u64.prod DepegType.codec)).map {
  toFun := fun (baseVirtualPrice, baseCacheUpdated, depegType) => ⟨baseVirtualPrice, baseCacheUpdated, depegType⟩
  invFun := fun depeg => (depeg.baseVirtualPrice, depeg.baseCacheUpdated, depeg.depegType)
  left_inv := fun _ => rfl
  right_inv := fun _ => rfl }

namespace State

structure Padding where
  /-- Padding 0 -/
  padding0 : List.Vector UInt8 14
  /-- Padding 1 -/
  padding : List.Vector U128 24

def Padding.codec : Codec Padding := ((u8.array 14).prod (u128.array 24)).map {
  toFun := fun (padding0, padding) => ⟨padding0, padding⟩
  invFun := fun padding => (padding.padding0, padding.padding)
  left_inv := fun _ => rfl
  right_inv := fun _ => rfl }

inductive PoolType where
  | permissioned
  | permissionless
  deriving DecidableEq, Repr

def PoolType.codec : Codec PoolType := (Codec.tag 2 Codec.two_le_tags).map {
  toFun := fun
    | 0 => .permissioned
    | 1 => .permissionless
  invFun := fun
    | .permissioned => ⟨0, Nat.zero_lt_two⟩
    | .permissionless => ⟨1, Nat.one_lt_two⟩
  left_inv := by decide
  right_inv := fun poolType => by cases poolType <;> rfl }

structure TokenMultiplier where
  tokenAMultiplier : UInt64
  tokenBMultiplier : UInt64
  precisionFactor : UInt8

def TokenMultiplier.codec : Codec TokenMultiplier := (u64.prod (u64.prod u8)).map {
  toFun := fun (tokenAMultiplier, tokenBMultiplier, precisionFactor) =>
    ⟨tokenAMultiplier, tokenBMultiplier, precisionFactor⟩
  invFun := fun multiplier => (multiplier.tokenAMultiplier, multiplier.tokenBMultiplier, multiplier.precisionFactor)
  left_inv := fun _ => rfl
  right_inv := fun _ => rfl }

inductive CurveType where
  | constantProduct
  | stable (amp : UInt64) (tokenMultiplier : TokenMultiplier) (depeg : Depeg) (lastAmpUpdatedTimestamp : UInt64)

def CurveType.codec : Codec CurveType :=
  (Codec.unit.sum (u64.prod (TokenMultiplier.codec.prod (Depeg.codec.prod u64)))).map {
    toFun := fun
      | .inl _ => .constantProduct
      | .inr (amp, tokenMultiplier, depeg, lastAmpUpdatedTimestamp) =>
          .stable amp tokenMultiplier depeg lastAmpUpdatedTimestamp
    invFun := fun
      | .constantProduct => .inl ()
      | .stable amp tokenMultiplier depeg lastAmpUpdatedTimestamp =>
          .inr (amp, tokenMultiplier, depeg, lastAmpUpdatedTimestamp)
    left_inv := fun s => by rcases s with _ | ⟨_, _, _, _⟩ <;> rfl
    right_inv := fun curveType => by cases curveType <;> rfl }

structure Bootstrapping where
  activationPoint : UInt64
  /-- Whitelisted vault to be able to buy pool before open slot -/
  whitelistedVault : Pubkey
  poolCreator : Pubkey
  activationType : UInt8

def Bootstrapping.codec : Codec Bootstrapping := (u64.prod (pubkey.prod (pubkey.prod u8))).map {
  toFun := fun (activationPoint, whitelistedVault, poolCreator, activationType) =>
    ⟨activationPoint, whitelistedVault, poolCreator, activationType⟩
  invFun := fun bootstrapping => (bootstrapping.activationPoint, bootstrapping.whitelistedVault,
    bootstrapping.poolCreator, bootstrapping.activationType)
  left_inv := fun _ => rfl
  right_inv := fun _ => rfl }

structure Pool where
  lpMint : Pubkey
  tokenAMint : Pubkey
  tokenBMint : Pubkey
  aVault : Pubkey
  bVault : Pubkey
  aVaultLp : Pubkey
  bVaultLp : Pubkey
  aVaultLpBump : UInt8
  enabled : Bool
  protocolTokenAFee : Pubkey
  protocolTokenBFee : Pubkey
  feeLastUpdatedAt : UInt64
  padding0 : List.Vector UInt8 24
  fees : PoolFees
  poolType : PoolType
  stake : Pubkey
  totalLockedLp : UInt64
  bootstrapping : Bootstrapping
  padding : Padding
  curveType : CurveType

def Pool.codec : Codec Pool :=
  (pubkey.prod (pubkey.prod (pubkey.prod (pubkey.prod (pubkey.prod (pubkey.prod (pubkey.prod (u8.prod
    (Codec.bool.prod (pubkey.prod (pubkey.prod (u64.prod ((u8.array 24).prod (PoolFees.codec.prod
      (PoolType.codec.prod (pubkey.prod (u64.prod (Bootstrapping.codec.prod (Padding.codec.prod
        CurveType.codec))))))))))))))))))).map {
    toFun := fun (lpMint, tokenAMint, tokenBMint, aVault, bVault, aVaultLp, bVaultLp, aVaultLpBump, enabled,
        protocolTokenAFee, protocolTokenBFee, feeLastUpdatedAt, padding0, fees, poolType, stake, totalLockedLp,
        bootstrapping, padding, curveType) =>
      { lpMint, tokenAMint, tokenBMint, aVault, bVault, aVaultLp, bVaultLp, aVaultLpBump, enabled,
        protocolTokenAFee, protocolTokenBFee, feeLastUpdatedAt, padding0, fees, poolType, stake, totalLockedLp,
        bootstrapping, padding, curveType }
    invFun := fun pool => (pool.lpMint, pool.tokenAMint, pool.tokenBMint, pool.aVault, pool.bVault, pool.aVaultLp,
      pool.bVaultLp, pool.aVaultLpBump, pool.enabled, pool.protocolTokenAFee, pool.protocolTokenBFee,
      pool.feeLastUpdatedAt, pool.padding0, pool.fees, pool.poolType, pool.stake, pool.totalLockedLp,
      pool.bootstrapping, pool.padding, pool.curveType)
    left_inv := fun _ => rfl
    right_inv := fun _ => rfl }

/-! ### What the quotes read -/

def TokenMultiplier.quoted (multiplier : TokenMultiplier) : Program.TokenMultiplier where
  tokenAMultiplier := multiplier.tokenAMultiplier
  tokenBMultiplier := multiplier.tokenBMultiplier

def CurveType.quoted : CurveType → Program.CurveType
  | .constantProduct => .constantProduct
  | .stable amp tokenMultiplier depeg lastAmpUpdatedTimestamp =>
      .stable amp tokenMultiplier.quoted depeg lastAmpUpdatedTimestamp

def Pool.quoted (pool : Pool) : Program.Pool where
  tokenAMint := pool.tokenAMint
  tokenBMint := pool.tokenBMint
  enabled := pool.enabled
  fees := pool.fees
  stake := pool.stake
  bootstrapping := {
    activationPoint := pool.bootstrapping.activationPoint
    activationType := pool.bootstrapping.activationType }
  curveType := pool.curveType.quoted

/-! ### Other accounts -/

structure LockEscrow where
  pool : Pubkey
  owner : Pubkey
  escrowVault : Pubkey
  bump : UInt8
  totalLockedAmount : UInt64
  lpPerToken : U128
  unclaimedFeePending : UInt64
  aFee : UInt64
  bFee : UInt64

def LockEscrow.codec : Codec LockEscrow :=
  (pubkey.prod (pubkey.prod (pubkey.prod (u8.prod (u64.prod (u128.prod (u64.prod (u64.prod u64)))))))).map {
    toFun := fun (pool, owner, escrowVault, bump, totalLockedAmount, lpPerToken, unclaimedFeePending, aFee, bFee) =>
      { pool, owner, escrowVault, bump, totalLockedAmount, lpPerToken, unclaimedFeePending, aFee, bFee }
    invFun := fun escrow => (escrow.pool, escrow.owner, escrow.escrowVault, escrow.bump, escrow.totalLockedAmount,
      escrow.lpPerToken, escrow.unclaimedFeePending, escrow.aFee, escrow.bFee)
    left_inv := fun _ => rfl
    right_inv := fun _ => rfl }

structure Config where
  poolFees : PoolFees
  activationDuration : UInt64
  vaultConfigKey : Pubkey
  poolCreatorAuthority : Pubkey
  activationType : UInt8
  padding : List.Vector UInt8 227

def Config.codec : Codec Config :=
  (PoolFees.codec.prod (u64.prod (pubkey.prod (pubkey.prod (u8.prod (u8.array 227)))))).map {
    toFun := fun (poolFees, activationDuration, vaultConfigKey, poolCreatorAuthority, activationType, padding) =>
      { poolFees, activationDuration, vaultConfigKey, poolCreatorAuthority, activationType, padding }
    invFun := fun config => (config.poolFees, config.activationDuration, config.vaultConfigKey,
      config.poolCreatorAuthority, config.activationType, config.padding)
    left_inv := fun _ => rfl
    right_inv := fun _ => rfl }

end State

/-! ### Arguments of an instruction -/

namespace State

structure ConfigParameters where
  tradeFeeNumerator : UInt64
  protocolTradeFeeNumerator : UInt64
  activationDuration : UInt64
  poolCreatorAuthority : Pubkey
  activationType : UInt8
  index : UInt64

def ConfigParameters.codec : Codec ConfigParameters :=
  (u64.prod (u64.prod (u64.prod (pubkey.prod (u8.prod u64))))).map {
    toFun := fun (tradeFeeNumerator, protocolTradeFeeNumerator, activationDuration, poolCreatorAuthority,
        activationType, index) =>
      { tradeFeeNumerator, protocolTradeFeeNumerator, activationDuration, poolCreatorAuthority, activationType, index }
    invFun := fun parameters => (parameters.tradeFeeNumerator, parameters.protocolTradeFeeNumerator,
      parameters.activationDuration, parameters.poolCreatorAuthority, parameters.activationType, parameters.index)
    left_inv := fun _ => rfl
    right_inv := fun _ => rfl }

end State

/-! ### Accounts -/

/-- What an account of a type holds: the first eight bytes of `sha256("account:<Name>")`, and the encoding of the
rest. -/
structure AccountFormat (α : Type) where
  discriminator : List.Vector UInt8 8
  codec : Codec α

inductive AccountError where
  | accountDiscriminatorNotFound
  | accountDiscriminatorMismatch
  | accountDidNotDeserialize
  deriving DecidableEq, Repr

namespace AccountFormat

variable {α : Type} (format : AccountFormat α)

def serialize (a : α) : Bytes := format.discriminator.toList ++ format.codec.encode a

def tryDeserialize (data : Bytes) : Except AccountError α :=
  if data.length < 8 then .error .accountDiscriminatorNotFound
  else if data.take 8 ≠ format.discriminator.toList then .error .accountDiscriminatorMismatch
  else match format.codec.decode (data.drop 8) with
    | some (a, _) => .ok a
    | none => .error .accountDidNotDeserialize

end AccountFormat

namespace State

def Pool.account : AccountFormat Pool := ⟨⟨[241, 154, 109, 4, 17, 177, 109, 188], rfl⟩, Pool.codec⟩

def Config.account : AccountFormat Config := ⟨⟨[155, 12, 170, 224, 30, 250, 204, 130], rfl⟩, Config.codec⟩

def LockEscrow.account : AccountFormat LockEscrow := ⟨⟨[190, 106, 121, 6, 200, 182, 21, 75], rfl⟩, LockEscrow.codec⟩

end State

end DynamicAmm.Program

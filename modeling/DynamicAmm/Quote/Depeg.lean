import DynamicAmm.Program.Amm

/-!
# Refreshing the depeg price

A depeg pool values its token B by a virtual price read from a stake account. The price is cached in the
pool for ten minutes. Reading it slices and decodes raw account data: solido by fixed offsets, marinade
and the SPL stake pool through their own deserializers, which are not part of this repository.
-/

namespace DynamicAmm.Quote

open Rust Program

structure SplStakePool where
  totalLamports : UInt64
  poolTokenSupply : UInt64

/-- The third-party deserializers of stake accounts. -/
structure StakeAccounts where
  /-- `State::deserialize`, as far as its `msol_price` -/
  marinadeMsolPrice : Bytes → Option UInt64
  /-- `State::PRICE_DENOMINATOR` -/
  marinadePriceDenominator : UInt64
  /-- `borsh0_10::try_from_slice_unchecked::<StakePool>` -/
  splStakePool : Bytes → Option SplStakePool

structure Clock where
  slot : UInt64
  unixTimestamp : Int64

abbrev StakeData := Pubkey → Option Bytes

def slice (bytes : Bytes) (start stop : Nat) : Outcome Bytes :=
  if start ≤ stop ∧ stop ≤ bytes.length then .ok ((bytes.drop start).take (stop - start)) else .panic

def fromLeBytes (bytes : Bytes) : Nat :=
  bytes.foldr (fun byte rest => byte.toNat + 256 * rest) 0

namespace Solido

/-- `49Yi1TKkNyYjPAFdR9LBvoHcUjuPX4Df5T5yv39w2XTn` -/
def stakeIdBytes : Bytes :=
  [46, 195, 142, 250, 71, 7, 14, 31, 131, 13, 41, 188, 37, 184, 24, 165, 85, 96, 114, 68, 1, 123, 223,
    158, 34, 157, 250, 98, 24, 162, 89, 209]

def stakeId : Pubkey :=
  ⟨stakeIdBytes, rfl⟩

def getVirtualPrice (bytes : Bytes) : Outcome (Option UInt64) := do
  let stsolSupplyByte ← slice bytes 73 81
  let stolBalanceBytes ← slice bytes 81 89
  let stsolSupply := fromLeBytes stsolSupplyByte
  let solBalance := fromLeBytes stolBalanceBytes
  pure do
    let product ← checkedMul128 solBalance depegPrecision
    let stsolPrice ← checkedDiv128 product stsolSupply
    tryU64 stsolPrice

end Solido

namespace Marinade

/-- `8szGkuLTAux9XMgZ2vtY39jVSowEcpBfFfD8hXSEqdGC` -/
def stakeIdBytes : Bytes :=
  [117, 17, 155, 49, 117, 128, 117, 134, 227, 244, 167, 229, 205, 15, 137, 14, 150, 167, 83, 177, 15,
    204, 199, 104, 30, 148, 115, 160, 8, 50, 112, 241]

def stakeId : Pubkey :=
  ⟨stakeIdBytes, rfl⟩

def getVirtualPrice (accounts : StakeAccounts) (bytes : Bytes) : Outcome (Option UInt64) := do
  let state ← slice bytes 8 bytes.length
  pure do
    let msolPrice ← accounts.marinadeMsolPrice state
    let product ← checkedMul128 msolPrice.toNat depegPrecision
    let virtualPrice ← checkedDiv128 product accounts.marinadePriceDenominator.toNat
    tryU64 virtualPrice

end Marinade

namespace SplStake

def getVirtualPrice (accounts : StakeAccounts) (bytes : Bytes) : Option UInt64 := do
  let stake ← accounts.splStakePool bytes
  let product ← checkedMul128 stake.totalLamports.toNat depegPrecision
  let virtualPrice ← checkedDiv128 product stake.poolTokenSupply.toNat
  tryU64 virtualPrice

end SplStake

variable (accounts : StakeAccounts)

def getStakePoolVirtualPrice (depegType : DepegType) (splStakePool : Pubkey) (stakeData : StakeData) :
    Outcome (Option UInt64) :=
  match depegType with
  | .lido =>
      match stakeData Solido.stakeId with
      | some bytes => Solido.getVirtualPrice bytes
      | none => .ok none
  | .marinade =>
      match stakeData Marinade.stakeId with
      | some bytes => Marinade.getVirtualPrice accounts bytes
      | none => .ok none
  | .splStake =>
      match stakeData splStakePool with
      | some bytes => .ok (SplStake.getVirtualPrice accounts bytes)
      | none => .ok none
  | .none => .ok none

/-- Update depeg base virtual price. The pool is written in place, so the pool that the call leaves
behind is returned beside the outcome. -/
def updateBaseVirtualPrice (pool : Pool) (clock : Clock) (stakeData : StakeData) :
    Outcome Unit × Pool :=
  match pool.curveType with
  | .constantProduct => (.ok (), pool)
  | .stable amp tokenMultiplier depeg lastAmpUpdatedTimestamp =>
      if depeg.depegType = .none then (.ok (), pool)
      else
        match checkedAdd depeg.baseCacheUpdated (UInt64.ofNat baseCacheExpires) with
        | none => (.err "Math overflow", pool)
        | some cacheExpireTime =>
            if clock.unixTimestamp.toUInt64 > cacheExpireTime then
              match getStakePoolVirtualPrice accounts depeg.depegType pool.stake stakeData with
              | .ok (some virtualPrice) =>
                  (.ok (), { pool with
                    curveType := .stable amp tokenMultiplier
                      { depeg with
                        baseCacheUpdated := clock.unixTimestamp.toUInt64
                        baseVirtualPrice := virtualPrice }
                      lastAmpUpdatedTimestamp })
              | .ok none => (.err "Fail to get stake pool virtual price", pool)
              | .err message => (.err message, pool)
              | .panic => (.panic, pool)
            else (.ok (), pool)

/-- A constant product pool has no price to refresh. -/
theorem updateBaseVirtualPrice_constantProduct {pool : Pool} (h : pool.curveType = .constantProduct)
    (clock : Clock) (stakeData : StakeData) :
    updateBaseVirtualPrice accounts pool clock stakeData = (.ok (), pool) := by
  rw [updateBaseVirtualPrice, h]

end DynamicAmm.Quote

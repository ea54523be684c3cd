import DynamicAmm.Client.State

/-!
# The client's view of the accounts

The client decodes the accounts that the Rust code reads. A number keeps its value and becomes a `BN`.
-/

namespace DynamicAmm

open Program

def decodeFees (fees : PoolFees) : Client.PoolFees where
  tradeFeeNumerator := fees.tradeFeeNumerator.toNat
  tradeFeeDenominator := fees.tradeFeeDenominator.toNat
  protocolTradeFeeNumerator := fees.protocolTradeFeeNumerator.toNat
  protocolTradeFeeDenominator := fees.protocolTradeFeeDenominator.toNat

def decodeCurveType : CurveType → Client.CurveType
  | .constantProduct => .constantProduct
  | .stable amp tokenMultiplier depeg _ =>
      .stable amp.toNat
        ⟨tokenMultiplier.tokenAMultiplier.toNat, tokenMultiplier.tokenBMultiplier.toNat⟩
        ⟨depeg.baseVirtualPrice.toNat, depeg.baseCacheUpdated.toNat, depeg.depegType⟩

/-- The pool account. The whitelisted vault is a field that the Rust quote does not read. -/
def decodePool (pool : Pool) (whitelistedVault : Pubkey) : Client.PoolState where
  tokenAMint := pool.tokenAMint
  tokenBMint := pool.tokenBMint
  enabled := pool.enabled
  fees := decodeFees pool.fees
  stake := pool.stake
  bootstrapping := {
    activationPoint := pool.bootstrapping.activationPoint.toNat
    whitelistedVault
    activationType := pool.bootstrapping.activationType.toNat }
  curveType := decodeCurveType pool.curveType

def decodeVault (vault : Vault) : Client.VaultState where
  totalAmount := vault.totalAmount.toNat
  lockedProfitTracker := {
    lastUpdatedLockedProfit := vault.lockedProfitTracker.lastUpdatedLockedProfit.toNat
    lastReport := vault.lockedProfitTracker.lastReport.toNat
    lockedProfitDegradation := vault.lockedProfitTracker.lockedProfitDegradation.toNat }

end DynamicAmm

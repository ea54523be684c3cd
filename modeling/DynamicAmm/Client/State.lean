import DynamicAmm.Js.Call
import DynamicAmm.Program.Amm
import DynamicAmm.Program.Vault

/-!
# The accounts as the client holds them

The client decodes the same accounts as the Rust quote, but every number is a `BN`, and the depeg record
is an object of its own inside the pool state, which a curve may write to. The conversions between vault
shares and tokens come from the vault SDK, which is a package of its own: `VaultSdk` stands for it, and
`VaultSdk.Lawful` is what its documentation promises.
-/

namespace DynamicAmm.Client

open Js
open Program (Bytes DepegType Pubkey)

/-! ### Pools -/

structure PoolFees where
  tradeFeeNumerator : Int
  tradeFeeDenominator : Int
  protocolTradeFeeNumerator : Int
  protocolTradeFeeDenominator : Int
  deriving DecidableEq, Repr

structure TokenMultiplier where
  tokenAMultiplier : Int
  tokenBMultiplier : Int
  deriving DecidableEq, Repr

structure Depeg where
  baseVirtualPrice : Int
  baseCacheUpdated : Int
  depegType : DepegType
  deriving DecidableEq, Repr

inductive CurveType where
  | stable (amp : Int) (tokenMultiplier : TokenMultiplier) (depeg : Depeg)
  | constantProduct
  deriving DecidableEq, Repr

structure Bootstrapping where
  activationPoint : Int
  whitelistedVault : Pubkey
  activationType : Nat
  deriving DecidableEq

structure PoolState where
  tokenAMint : Pubkey
  tokenBMint : Pubkey
  enabled : Bool
  fees : PoolFees
  stake : Pubkey
  bootstrapping : Bootstrapping
  curveType : CurveType
  deriving DecidableEq

/-- The depeg record inside a stable pool. A constant product pool has none. -/
def PoolState.depeg (poolState : PoolState) : Depeg :=
  match poolState.curveType with
  | .stable _ _ depeg => depeg
  | .constantProduct => ⟨0, 0, .none⟩

def PoolState.setDepeg (poolState : PoolState) (depeg : Depeg) : PoolState :=
  match poolState.curveType with
  | .stable amp tokenMultiplier _ =>
      { poolState with curveType := .stable amp tokenMultiplier depeg }
  | .constantProduct => poolState

/-! ### Vaults -/

structure LockedProfitTracker where
  lastUpdatedLockedProfit : Int
  lastReport : Int
  lockedProfitDegradation : Int
  deriving DecidableEq, Repr

structure VaultState where
  totalAmount : Int
  lockedProfitTracker : LockedProfitTracker
  deriving DecidableEq, Repr

/-- The functions used of `@mercurial-finance/vault-sdk`. -/
structure VaultSdk where
  calculateWithdrawableAmount : SafeInteger → VaultState → Throwing Int
  getAmountByShare : (share withdrawableAmount totalSupply : Int) → Throwing Int
  getUnmintAmount : (amount withdrawableAmount totalSupply : Int) → Throwing Int

/-- The locked profit: a linear release from the last report on. -/
def LockedProfitTracker.lockedProfit (tracker : LockedProfitTracker) (time : Int) : Int :=
  let lockedFundRatio := (time - tracker.lastReport) * tracker.lockedProfitDegradation
  if lockedFundRatio > Program.lockedProfitDegradationDenominator then 0
  else (tracker.lastUpdatedLockedProfit *
    (Program.lockedProfitDegradationDenominator - lockedFundRatio)).tdiv
      Program.lockedProfitDegradationDenominator

/-- The part of a vault's total that backs its shares. -/
def VaultState.withdrawable (vault : VaultState) (time : Int) : Int :=
  vault.totalAmount - vault.lockedProfitTracker.lockedProfit time

/-- The helpers compute the integer formulas of the vault program, which has no unlocked amount at a time
before the last report. -/
structure VaultSdk.Lawful (sdk : VaultSdk) : Prop where
  withdrawable : ∀ time vault, vault.lockedProfitTracker.lastReport ≤ time.val →
    sdk.calculateWithdrawableAmount time vault = .ok (vault.withdrawable time.val)
  amountByShare : ∀ share amount supply, supply ≠ 0 →
    sdk.getAmountByShare share amount supply = .ok ((share * amount).tdiv supply)
  amountByShare_zero : ∀ share amount result,
    sdk.getAmountByShare share amount 0 = .ok result → result = 0
  unmintAmount : ∀ amount withdrawable supply, withdrawable ≠ 0 →
    sdk.getUnmintAmount amount withdrawable supply = .ok ((amount * supply).tdiv withdrawable)
  unmintAmount_zero : ∀ amount supply, ∃ message, sdk.getUnmintAmount amount 0 supply = .error message

/-! ### Stake accounts -/

abbrev DepegAccounts := Pubkey → Option Bytes

/-- The third-party decoders of stake accounts. -/
structure StakeDecoders where
  /-- `new BorshCoder(MarinadeIDL).accounts.decode('State', data).msolPrice` -/
  msolPrice : Bytes → Throwing Int
  /-- `StakePoolLayout.decode(data)`, as far as `totalLamports` and `poolTokenSupply` -/
  stakePool : Bytes → Throwing (Int × Int)

end DynamicAmm.Client

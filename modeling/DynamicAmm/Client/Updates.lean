import DynamicAmm.Client.Loading

/-!
# A pool over time

An object is used for as long as its owner likes. `updateState` brings it up to date field by field, so a
request that fails leaves it with the fields that were assigned before. In between it answers quotes, which
write to the depeg record inside its pool state.
-/

namespace DynamicAmm.Client

open Js
open Program (Bytes Pubkey)

namespace Loading

/-- What a pool and its vaults are read from. -/
structure Network where
  connection : Connection
  /-- `VaultImpl.refreshVaultState` -/
  refreshVaultState : Call VaultImpl Unit

section

variable (sdk : VaultSdk) (decoders : StakeDecoders) (toFixed : ℚ → Int) (sqrt : Int → Throwing Int)
  (layouts : TokenLayouts)

namespace AmmImpl

/-- The part of the pool state that curves and quotes read and write. -/
def onPoolState {α : Type} (call : Call PoolState α) : Call AmmImpl α :=
  Call.focus (fun amm => amm.poolState.toPoolState)
    (fun amm poolState => { amm with poolState := { amm.poolState with toPoolState := poolState } }) call

/-! ### Updates -/

/-- The accounts that are fetched once the pool state is there, and what is made of them. -/
def reloadAccounts (connection : Connection) (poolState : SuppliedPool) : Call AmmImpl Unit := do
  let amm ← Call.read
  let accounts := accountsToFetch poolState.toPoolAccount amm.vaultA amm.vaultB
  let accountsBufferMap ← Call.lift (getAccountsBuffer connection (accounts.toList ++ [clockToFetch]))
  let accountsInfoMap ← Call.lift (deserializeAccountsBuffer layouts accountsBufferMap)
  let clock ← Call.lift (getClock accountsBufferMap)
  let accountsInfo ← Call.lift (getAccountsInfo accountsInfoMap clock accounts)
  Call.modify fun amm => { amm with accountsInfo }
  let depegAccounts ← Call.lift (getDepegAccounts connection [poolState.toPoolState])
  Call.modify fun amm => { amm with depegAccounts }
  let swapCurve ← Call.lift (makeCurve poolState.toPoolState depegAccounts accountsInfo.currentTime)
  Call.modify fun amm => { amm with swapCurve }
  let currentTimestamp ← Call.lift (toSeconds accountsInfo.currentTime)
  let poolInfo ← onPoolState (calculatePoolInfo sdk decoders sqrt currentTimestamp accountsInfo.poolVaultALp
    accountsInfo.poolVaultBLp accountsInfo.vaultALpSupply accountsInfo.vaultBLpSupply
    accountsInfo.poolLpSupply swapCurve amm.vaultA.vaultState.toVaultState amm.vaultB.vaultState.toVaultState)
  Call.modify fun amm => { amm with poolInfo }

def updateState (network : Network) : Call AmmImpl Unit := do
  let amm ← Call.read
  -- The three requests are made at once, and a vault keeps what it was given whatever becomes of the others.
  let (refreshedA, vaultA) := network.refreshVaultState amm.vaultA
  let (refreshedB, vaultB) := network.refreshVaultState amm.vaultB
  Call.modify fun amm => { amm with vaultA, vaultB }
  let poolState ← Call.lift (getPoolState network.connection amm.pool)
  Call.lift refreshedA
  Call.lift refreshedB
  Call.modify fun amm => { amm with poolState }
  reloadAccounts sdk decoders sqrt layouts network.connection poolState

/-! ### Quotes -/

structure SwapQuote where
  swapInAmount : Int
  swapOutAmount : Int
  minSwapOutAmount : Int
  fee : Int
  priceImpact : Option ℚ

def swapQuoteParam (amm : AmmImpl) (currentTime currentSlot : SafeInteger) : SwapQuoteParam where
  vaultA := amm.vaultA.vaultState.toVaultState
  vaultB := amm.vaultB.vaultState.toVaultState
  poolVaultALp := amm.accountsInfo.poolVaultALp
  poolVaultBLp := amm.accountsInfo.poolVaultBLp
  vaultALpSupply := amm.accountsInfo.vaultALpSupply
  vaultBLpSupply := amm.accountsInfo.vaultBLpSupply
  vaultAReserve := amm.accountsInfo.vaultAReserve
  vaultBReserve := amm.accountsInfo.vaultBReserve
  currentTime
  currentSlot
  depegAccounts := amm.depegAccounts.get

def getSwapQuote (inTokenMint : Pubkey) (inAmountLamport : Int) (slippage : Slippage)
    (swapInitiator : Option Pubkey) : Call AmmImpl SwapQuote := do
  let amm ← Call.read
  let currentTime ← Call.lift (toSeconds amm.accountsInfo.currentTime)
  let currentSlot ← Call.lift (toSeconds amm.accountsInfo.currentSlot)
  let result ← onPoolState (calculateSwapQuote sdk decoders inTokenMint inAmountLamport
    (amm.swapQuoteParam currentTime currentSlot) swapInitiator)
  let minSwapOutAmount ← Call.lift (getMinAmountWithSlippage result.amountOut slippage)
  pure {
    swapInAmount := inAmountLamport
    swapOutAmount := result.amountOut
    minSwapOutAmount
    fee := result.fee
    priceImpact := result.priceImpact }

/-- What the liquidity quotes read of the object. They take the time as a number. -/
def forLiquidity (amm : AmmImpl) : Throwing Client.AmmImpl := do
  let currentTime ← toSeconds amm.accountsInfo.currentTime
  pure {
    tokenAMint := amm.tokenAMint
    tokenBMint := amm.tokenBMint
    poolInfo := amm.poolInfo
    vaultA := amm.vaultA.vaultState.toVaultState
    vaultB := amm.vaultB.vaultState.toVaultState
    accountsInfo := {
      currentTime
      poolVaultALp := amm.accountsInfo.poolVaultALp
      poolVaultBLp := amm.accountsInfo.poolVaultBLp
      vaultALpSupply := amm.accountsInfo.vaultALpSupply
      vaultBLpSupply := amm.accountsInfo.vaultBLpSupply
      poolLpSupply := amm.accountsInfo.poolLpSupply }
    swapCurve := amm.swapCurve }

def getDepositQuote (tokenAInAmount tokenBInAmount : Int) (balance : Bool) (slippage : Slippage) :
    Call AmmImpl DepositQuote := do
  let amm ← Call.read
  let quoted ← Call.lift amm.forLiquidity
  onPoolState (quoted.getDepositQuote sdk decoders toFixed sqrt tokenAInAmount tokenBInAmount balance slippage)

def getWithdrawQuote (withdrawTokenAmount : Int) (slippage : Slippage) (tokenMint : Option Pubkey) :
    Call AmmImpl WithdrawQuote := do
  let amm ← Call.read
  let quoted ← Call.lift amm.forLiquidity
  onPoolState (quoted.getWithdrawQuote sdk decoders toFixed withdrawTokenAmount slippage tokenMint)

/-! ### Uses -/

/-- A call on the object. -/
inductive Use where
  | updateState (network : Network)
  | getSwapQuote (inTokenMint : Pubkey) (inAmountLamport : Int) (slippage : Slippage)
      (swapInitiator : Option Pubkey)
  | getDepositQuote (tokenAInAmount tokenBInAmount : Int) (balance : Bool) (slippage : Slippage)
  | getWithdrawQuote (withdrawTokenAmount : Int) (slippage : Slippage) (tokenMint : Option Pubkey)

end AmmImpl

end

end Loading

end DynamicAmm.Client

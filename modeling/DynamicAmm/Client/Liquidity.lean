import DynamicAmm.Client.SwapQuote

/-!
# The client's liquidity quotes

Deposits and withdrawals go through two units: LP of the pool stands for LP of the two vaults, and that
for tokens. A balanced quote makes both steps for both tokens, rounded down for a withdrawal and with
`divRound` for a deposit. An imbalanced one leaves the amount to the stable curve.
-/

namespace DynamicAmm.Client

open Js
open Program (Pubkey)

/-- The accounts of a pool at the time of its last update. -/
structure AccountsInfo where
  currentTime : SafeInteger
  poolVaultALp : Int
  poolVaultBLp : Int
  vaultALpSupply : Int
  vaultBLpSupply : Int
  poolLpSupply : Int

structure PoolInformation where
  tokenAAmount : Int
  tokenBAmount : Int
  /-- In units of `VIRTUAL_PRICE_PRECISION`, before it becomes a number. -/
  virtualPrice : Int
  virtualPriceRaw : Int
  deriving DecidableEq, Repr

/-- A slippage rate, as the integers that `new BN` makes of its two factors of ten thousand. The factors
are computed in floating point. -/
structure Slippage where
  /-- `((100 + slippageRate) / 100) * 10000` -/
  max : Int
  /-- `((100 - slippageRate) / 100) * 10000` -/
  min : Int

structure DepositQuote where
  poolTokenAmountOut : Int
  minPoolTokenAmountOut : Int
  tokenAInAmount : Int
  tokenBInAmount : Int
  deriving DecidableEq, Repr

structure WithdrawQuote where
  poolTokenAmountIn : Int
  minTokenAOutAmount : Int
  minTokenBOutAmount : Int
  tokenAOutAmount : Int
  tokenBOutAmount : Int
  deriving DecidableEq, Repr

def getMaxAmountWithSlippage (amount : Int) (slippage : Slippage) : Throwing Int :=
  BN.div (amount * slippage.max) 10000

def getMinAmountWithSlippage (amount : Int) (slippage : Slippage) : Throwing Int :=
  BN.div (amount * slippage.min) 10000

/-- `UNLOCK_AMOUNT_BUFFER`, a rate of 0.998. -/
def unlockAmountBuffer : Slippage := ⟨10099, 9900⟩

def virtualPricePrecision : Int := 100000000

/-! ### The curve -/

-- `sqrt` is the package `bn-sqrt`.
variable (sdk : VaultSdk) (decoders : StakeDecoders) (toFixed : ℚ → Int) (sqrt : Int → Throwing Int)

def unsupportedOperation : String := "UnsupportedOperation"

def StableSwap.computeDAt (curve : StableSwap) (depeg : Depeg) (tokenAAmount tokenBAmount : Int) :
    Throwing Int := do
  let upscaledTokenAAmount := curve.upscaleTokenA depeg tokenAAmount
  let upscaledTokenBAmount := curve.upscaleTokenB depeg tokenBAmount
  let invariantD ← computeD curve.amp upscaledTokenAAmount upscaledTokenBAmount
  if depeg.depegType ≠ .none then BN.div invariantD precision else pure invariantD

def SwapCurve.computeD (swapCurve : SwapCurve) (tokenAAmount tokenBAmount : Int) : Call PoolState Int :=
  match swapCurve with
  | .stable curve =>
      Call.focus PoolState.depeg PoolState.setDepeg (do
        curve.updateDepegInfoIfExpired decoders
        let depeg ← Call.read
        Call.lift (curve.computeDAt depeg tokenAAmount tokenBAmount))
  | .constantProduct => Call.lift (sqrt (tokenAAmount * tokenBAmount))

def SwapCurve.computeImbalanceDeposit (swapCurve : SwapCurve) (depositAAmount depositBAmount
    swapTokenAAmount swapTokenBAmount lpSupply : Int) (fees : PoolFees) : Call PoolState Int :=
  match swapCurve with
  | .stable curve =>
      Call.focus PoolState.depeg PoolState.setDepeg
        (curve.computeImbalanceDeposit decoders toFixed depositAAmount depositBAmount swapTokenAAmount
          swapTokenBAmount lpSupply fees)
  | .constantProduct => Call.lift (.error unsupportedOperation)

def SwapCurve.computeWithdrawOne (swapCurve : SwapCurve) (lpAmount lpSupply swapTokenAAmount
    swapTokenBAmount : Int) (fees : PoolFees) (tradeDirection : TradeDirection) : Call PoolState Int :=
  match swapCurve with
  | .stable curve =>
      Call.focus PoolState.depeg PoolState.setDepeg
        (curve.computeWithdrawOne decoders toFixed lpAmount lpSupply swapTokenAAmount swapTokenBAmount
          fees tradeDirection)
  | .constantProduct => Call.lift (.error unsupportedOperation)

/-! ### Between the units -/

def getShareByAmount (amount tokenAmount lpSupply : Int) (roundUp : Bool) : Throwing Int :=
  if tokenAmount = 0 then pure 0
  else if roundUp then BN.divRound (amount * lpSupply) tokenAmount
  else BN.div (amount * lpSupply) tokenAmount

def getAmountByShare (amount tokenAmount lpSupply : Int) (roundUp : Bool) : Throwing Int :=
  if lpSupply = 0 then pure 0
  else if roundUp then BN.divRound (amount * tokenAmount) lpSupply
  else BN.div (amount * tokenAmount) lpSupply

def computeActualInAmount (poolTokenAmount poolLpSupply poolVaultALp poolVaultBLp vaultALpSupply
    vaultBLpSupply vaultAWithdrawableAmount vaultBWithdrawableAmount : Int) : Throwing (Int × Int) := do
  let aVaultLpMinted ← getShareByAmount poolTokenAmount poolLpSupply poolVaultALp true
  let bVaultLpMinted ← getShareByAmount poolTokenAmount poolLpSupply poolVaultBLp true
  let actualTokenAInAmount ← getAmountByShare aVaultLpMinted vaultAWithdrawableAmount vaultALpSupply true
  let actualTokenBInAmount ← getAmountByShare bVaultLpMinted vaultBWithdrawableAmount vaultBLpSupply true
  pure (actualTokenAInAmount, actualTokenBInAmount)

def calculatePoolInfo (currentTimestamp : SafeInteger) (poolVaultALp poolVaultBLp vaultALpSupply
    vaultBLpSupply poolLpSupply : Int) (swapCurve : SwapCurve) (vaultA vaultB : VaultState) :
    Call PoolState PoolInformation := do
  let vaultAWithdrawableAmount ← Call.lift (sdk.calculateWithdrawableAmount currentTimestamp vaultA)
  let vaultBWithdrawableAmount ← Call.lift (sdk.calculateWithdrawableAmount currentTimestamp vaultB)
  let tokenAAmount ← Call.lift
    (sdk.getAmountByShare poolVaultALp vaultAWithdrawableAmount vaultALpSupply)
  let tokenBAmount ← Call.lift
    (sdk.getAmountByShare poolVaultBLp vaultBWithdrawableAmount vaultBLpSupply)
  let d ← swapCurve.computeD decoders sqrt tokenAAmount tokenBAmount
  let virtualPrice ← Call.lift
    (if poolLpSupply = 0 then pure 0 else BN.div (d * virtualPricePrecision) poolLpSupply)
  let virtualPriceRaw ← Call.lift
    (if poolLpSupply = 0 then pure 0 else BN.div (2 ^ 64 * d) poolLpSupply)
  pure { tokenAAmount, tokenBAmount, virtualPrice, virtualPriceRaw }

/-! ### The quotes of a pool -/

/-- What the quotes read of a pool, apart from the state that a curve may write to. -/
structure AmmImpl where
  tokenAMint : Pubkey
  tokenBMint : Pubkey
  poolInfo : PoolInformation
  vaultA : VaultState
  vaultB : VaultState
  accountsInfo : AccountsInfo
  swapCurve : SwapCurve

def PoolState.isStablePool (poolState : PoolState) : Bool :=
  match poolState.curveType with
  | .stable _ _ _ => true
  | .constantProduct => false

namespace AmmImpl

variable (amm : AmmImpl)

/-- A balanced deposit, of the one amount that is given. -/
def balancedDeposit (isStablePool tokenAGiven : Bool) (inAmount : Int) (slippage : Slippage)
    (vaultAWithdrawableAmount vaultBWithdrawableAmount : Int) : Throwing DepositQuote := do
  let info := amm.accountsInfo
  let (inTokenAmount, otherTokenAmount) :=
    if tokenAGiven then (amm.poolInfo.tokenAAmount, amm.poolInfo.tokenBAmount)
    else (amm.poolInfo.tokenBAmount, amm.poolInfo.tokenAAmount)
  let poolTokenAmountOut ← getShareByAmount inAmount inTokenAmount info.poolLpSupply false
  let bufferedPoolTokenAmountOut ← getMinAmountWithSlippage poolTokenAmountOut unlockAmountBuffer
  -- Calculate for stable pool balance deposit but used `addImbalanceLiquidity`
  if isStablePool then
    let minPoolTokenAmountOut ← getMinAmountWithSlippage bufferedPoolTokenAmountOut slippage
    let otherInAmount ← BN.div (inAmount * otherTokenAmount) inTokenAmount
    pure {
      poolTokenAmountOut := bufferedPoolTokenAmountOut
      minPoolTokenAmountOut
      tokenAInAmount := if tokenAGiven then inAmount else otherInAmount
      tokenBInAmount := if tokenAGiven then otherInAmount else inAmount }
  else
    let (actualTokenAInAmount, actualTokenBInAmount) ← computeActualInAmount poolTokenAmountOut
      info.poolLpSupply info.poolVaultALp info.poolVaultBLp info.vaultALpSupply info.vaultBLpSupply
      vaultAWithdrawableAmount vaultBWithdrawableAmount
    let minPoolTokenAmountOut ← getMinAmountWithSlippage bufferedPoolTokenAmountOut slippage
    let tokenAInAmount ← getMaxAmountWithSlippage actualTokenAInAmount slippage
    let tokenBInAmount ← getMaxAmountWithSlippage actualTokenBInAmount slippage
    pure {
      poolTokenAmountOut := bufferedPoolTokenAmountOut
      minPoolTokenAmountOut
      tokenAInAmount
      tokenBInAmount }

def getDepositQuote (tokenAInAmount tokenBInAmount : Int) (balance : Bool) (slippage : Slippage) :
    Call PoolState DepositQuote := do
  let poolState ← Call.read
  let info := amm.accountsInfo
  Call.lift (invariant
    (!(!poolState.isStablePool && tokenAInAmount ≠ 0 && tokenBInAmount ≠ 0 && info.poolLpSupply ≠ 0))
    "Constant product only supports balanced deposit")
  Call.lift (invariant (!(tokenAInAmount ≠ 0 && tokenBInAmount ≠ 0 && balance))
    "Deposit balance is not possible when both token in amount is non-zero")
  if info.poolLpSupply = 0 then
    let poolTokenAmountOut ← amm.swapCurve.computeD decoders sqrt tokenAInAmount tokenBInAmount
    pure {
      poolTokenAmountOut
      minPoolTokenAmountOut := poolTokenAmountOut
      tokenAInAmount
      tokenBInAmount }
  else
    let vaultAWithdrawableAmount ← Call.lift (sdk.calculateWithdrawableAmount info.currentTime amm.vaultA)
    let vaultBWithdrawableAmount ← Call.lift (sdk.calculateWithdrawableAmount info.currentTime amm.vaultB)
    if tokenAInAmount = 0 ∧ balance then
      Call.lift (amm.balancedDeposit poolState.isStablePool false tokenBInAmount slippage
        vaultAWithdrawableAmount vaultBWithdrawableAmount)
    else if tokenBInAmount = 0 ∧ balance then
      Call.lift (amm.balancedDeposit poolState.isStablePool true tokenAInAmount slippage
        vaultAWithdrawableAmount vaultBWithdrawableAmount)
    else
      let actualDepositAAmount ← Call.lift (computeActualDepositAmount tokenAInAmount
        amm.poolInfo.tokenAAmount info.poolVaultALp info.vaultALpSupply vaultAWithdrawableAmount)
      let actualDepositBAmount ← Call.lift (computeActualDepositAmount tokenBInAmount
        amm.poolInfo.tokenBAmount info.poolVaultBLp info.vaultBLpSupply vaultBWithdrawableAmount)
      let poolTokenAmountOut ← amm.swapCurve.computeImbalanceDeposit decoders toFixed actualDepositAAmount
        actualDepositBAmount amm.poolInfo.tokenAAmount amm.poolInfo.tokenBAmount info.poolLpSupply
        poolState.fees
      let minPoolTokenAmountOut ← Call.lift (getMinAmountWithSlippage poolTokenAmountOut slippage)
      pure { poolTokenAmountOut, minPoolTokenAmountOut, tokenAInAmount, tokenBInAmount }

def balancedWithdraw (withdrawTokenAmount : Int) (slippage : Slippage)
    (vaultAWithdrawableAmount vaultBWithdrawableAmount : Int) : Throwing WithdrawQuote := do
  let info := amm.accountsInfo
  let vaultALpBurn ← getShareByAmount withdrawTokenAmount info.poolLpSupply info.poolVaultALp false
  let vaultBLpBurn ← getShareByAmount withdrawTokenAmount info.poolLpSupply info.poolVaultBLp false
  let tokenAOutAmount ← getAmountByShare vaultALpBurn vaultAWithdrawableAmount info.vaultALpSupply false
  let tokenBOutAmount ← getAmountByShare vaultBLpBurn vaultBWithdrawableAmount info.vaultBLpSupply false
  let minTokenAOutAmount ← getMinAmountWithSlippage tokenAOutAmount slippage
  let minTokenBOutAmount ← getMinAmountWithSlippage tokenBOutAmount slippage
  pure {
    poolTokenAmountIn := withdrawTokenAmount
    minTokenAOutAmount
    minTokenBOutAmount
    tokenAOutAmount
    tokenBOutAmount }

def getWithdrawQuote (withdrawTokenAmount : Int) (slippage : Slippage) (tokenMint : Option Pubkey) :
    Call PoolState WithdrawQuote := do
  let poolState ← Call.read
  let info := amm.accountsInfo
  let vaultAWithdrawableAmount ← Call.lift (sdk.calculateWithdrawableAmount info.currentTime amm.vaultA)
  let vaultBWithdrawableAmount ← Call.lift (sdk.calculateWithdrawableAmount info.currentTime amm.vaultB)
  match tokenMint with
  | none =>
      Call.lift (amm.balancedWithdraw withdrawTokenAmount slippage vaultAWithdrawableAmount
        vaultBWithdrawableAmount)
  | some tokenMint =>
      let isWithdrawingTokenA := tokenMint = amm.tokenAMint
      let isWithdrawingTokenB := tokenMint = amm.tokenBMint
      Call.lift (invariant (isWithdrawingTokenA ∨ isWithdrawingTokenB) invalidMint)
      let tradeDirection : TradeDirection := if tokenMint = poolState.tokenAMint then .bToA else .aToB
      let outAmount ← amm.swapCurve.computeWithdrawOne decoders toFixed withdrawTokenAmount
        info.poolLpSupply amm.poolInfo.tokenAAmount amm.poolInfo.tokenBAmount poolState.fees
        tradeDirection
      let (vaultLpSupply, vaultTotalAmount) := match tradeDirection with
        | .aToB => (info.vaultBLpSupply, vaultBWithdrawableAmount)
        | .bToA => (info.vaultALpSupply, vaultAWithdrawableAmount)
      let vaultLpToBurn ← Call.lift (BN.div (outAmount * vaultLpSupply) vaultTotalAmount)
      let realOutAmount ← Call.lift (BN.div (vaultLpToBurn * vaultTotalAmount) vaultLpSupply)
      let minRealOutAmount ← Call.lift (getMinAmountWithSlippage realOutAmount slippage)
      pure {
        poolTokenAmountIn := withdrawTokenAmount
        tokenAOutAmount := if isWithdrawingTokenA then realOutAmount else 0
        tokenBOutAmount := if isWithdrawingTokenB then realOutAmount else 0
        minTokenAOutAmount := if isWithdrawingTokenA then minRealOutAmount else 0
        minTokenBOutAmount := if isWithdrawingTokenB then minRealOutAmount else 0 }

end AmmImpl

end DynamicAmm.Client

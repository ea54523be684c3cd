import DynamicAmm.Client.StableSwap

/-!
# The client's quote

`calculateSwapQuote` writes to the pool state it is given, through the depeg record that the stable curve
refreshes, so it is a `Call` on the pool state. That write happens inside `computeOutAmount`. What comes
before it and after it only reads, and is the two functions `settleSource` and `payDestination`.
-/

namespace DynamicAmm.Client

open Js
open Program (Pubkey)

def invalidMint : String := "Invalid mint"

structure SwapQuoteParam where
  vaultA : VaultState
  vaultB : VaultState
  poolVaultALp : Int
  poolVaultBLp : Int
  vaultALpSupply : Int
  vaultBLpSupply : Int
  vaultAReserve : Int
  vaultBReserve : Int
  currentTime : SafeInteger
  currentSlot : SafeInteger
  depegAccounts : DepegAccounts

structure SwapResult where
  amountOut : Int
  fee : Int
  priceImpact : Option ℚ
  deriving DecidableEq

def calculateProtocolTradingFee (amount : Int) (poolState : PoolState) : Throwing Int :=
  BN.div (amount * poolState.fees.protocolTradeFeeNumerator) poolState.fees.protocolTradeFeeDenominator

def calculateTradingFee (amount : Int) (poolState : PoolState) : Throwing Int :=
  BN.div (amount * poolState.fees.tradeFeeNumerator) poolState.fees.tradeFeeDenominator

def calculateMaxSwapOutAmount (tokenMint tokenAMint tokenBMint : Pubkey)
    (tokenAAmount tokenBAmount vaultAReserve vaultBReserve : Int) : Throwing Int := do
  invariant (tokenMint = tokenAMint ∨ tokenMint = tokenBMint) invalidMint
  let (outTotalAmount, outReserveBalance) :=
    if tokenMint = tokenAMint then (tokenAAmount, vaultAReserve) else (tokenBAmount, vaultBReserve)
  pure (if outTotalAmount > outReserveBalance then outReserveBalance else outTotalAmount)

/-! ### The curve -/

inductive SwapCurve where
  | stable (curve : StableSwap)
  | constantProduct

def SwapCurve.computeOutAmount (decoders : StakeDecoders) (swapCurve : SwapCurve)
    (sourceAmount swapSourceAmount swapDestinationAmount : Int) (tradeDirection : TradeDirection) :
    Call PoolState OutResult :=
  match swapCurve with
  | .stable curve =>
      Call.focus PoolState.depeg PoolState.setDepeg
        (curve.computeOutAmount decoders sourceAmount swapSourceAmount swapDestinationAmount
          tradeDirection)
  | .constantProduct =>
      Call.lift (ConstantProductSwap.computeOutAmount sourceAmount swapSourceAmount
        swapDestinationAmount)

/-- The guards of the quote and its choice of a curve. -/
def makeSwapCurve (inTokenMint : Pubkey) (params : SwapQuoteParam) (swapInitiator : Option Pubkey)
    (poolState : PoolState) : Throwing SwapCurve := do
  invariant (inTokenMint = poolState.tokenAMint ∨ inTokenMint = poolState.tokenBMint) invalidMint
  invariant poolState.enabled "Pool disabled"
  match poolState.curveType with
  | .stable amp tokenMultiplier _ =>
      let amp ← BN.toNumber amp
      pure (.stable {
        amp
        tokenMultiplier
        extraAccounts := params.depegAccounts
        onChainTime := params.currentTime.val
        stakePoolPubkey := poolState.stake })
  | .constantProduct =>
      let currentPoint :=
        if poolState.bootstrapping.activationType = 1 then params.currentTime.val
        else params.currentSlot.val
      let canQuoteEarlier := match swapInitiator with
        | some swapInitiator => decide (swapInitiator = poolState.bootstrapping.whitelistedVault)
        | none => false
      if !canQuoteEarlier then
        invariant (currentPoint ≥ poolState.bootstrapping.activationPoint) "Swap is disabled"
      pure .constantProduct

/-! ### Before the swap -/

/-- What the two sides of a trade are, by their role in it. -/
structure TradeSides where
  swapSourceVaultLpAmount : Int
  swapSourceAmount : Int
  swapDestinationAmount : Int
  swapSourceVault : VaultState
  swapDestinationVault : VaultState
  swapSourceVaultLpSupply : Int
  swapDestinationVaultLpSupply : Int

def SwapQuoteParam.sides (params : SwapQuoteParam) (tokenAAmount tokenBAmount : Int) :
    TradeDirection → TradeSides
  | .aToB =>
      { swapSourceVaultLpAmount := params.poolVaultALp
        swapSourceAmount := tokenAAmount
        swapDestinationAmount := tokenBAmount
        swapSourceVault := params.vaultA
        swapDestinationVault := params.vaultB
        swapSourceVaultLpSupply := params.vaultALpSupply
        swapDestinationVaultLpSupply := params.vaultBLpSupply }
  | .bToA =>
      { swapSourceVaultLpAmount := params.poolVaultBLp
        swapSourceAmount := tokenBAmount
        swapDestinationAmount := tokenAAmount
        swapSourceVault := params.vaultB
        swapDestinationVault := params.vaultA
        swapSourceVaultLpSupply := params.vaultBLpSupply
        swapDestinationVaultLpSupply := params.vaultALpSupply }

/-- What the deposit into the source vault leaves for the rest of the quote. -/
structure Source where
  tokenAAmount : Int
  tokenBAmount : Int
  tradeFeeAfterProtocolFee : Int
  sourceAmountWithFee : Int
  deriving DecidableEq

variable (sdk : VaultSdk) (decoders : StakeDecoders)

def tradeDirectionOf (inTokenMint : Pubkey) (poolState : PoolState) : TradeDirection :=
  if inTokenMint = poolState.tokenAMint then .aToB else .bToA

def settleSource (inTokenMint : Pubkey) (sourceAmount : Int) (params : SwapQuoteParam)
    (poolState : PoolState) : Throwing Source := do
  let currentTime := params.currentTime
  let vaultAWithdrawableAmount ← sdk.calculateWithdrawableAmount currentTime params.vaultA
  let vaultBWithdrawableAmount ← sdk.calculateWithdrawableAmount currentTime params.vaultB
  let tokenAAmount ← sdk.getAmountByShare params.poolVaultALp vaultAWithdrawableAmount
    params.vaultALpSupply
  let tokenBAmount ← sdk.getAmountByShare params.poolVaultBLp vaultBWithdrawableAmount
    params.vaultBLpSupply
  let sides := params.sides tokenAAmount tokenBAmount (tradeDirectionOf inTokenMint poolState)
  let tradeFee ← calculateTradingFee sourceAmount poolState
  let protocolFee ← calculateProtocolTradingFee tradeFee poolState
  let tradeFeeAfterProtocolFee := tradeFee - protocolFee
  let sourceVaultWithdrawableAmount ←
    sdk.calculateWithdrawableAmount currentTime sides.swapSourceVault
  let beforeSwapSourceAmount := sides.swapSourceAmount
  let sourceAmountLessProtocolFee := sourceAmount - protocolFee
  let sourceVaultLp ← sdk.getUnmintAmount sourceAmountLessProtocolFee sourceVaultWithdrawableAmount
    sides.swapSourceVaultLpSupply
  let sourceVaultTotalAmount := sourceVaultWithdrawableAmount + sourceAmountLessProtocolFee
  let afterSwapSourceAmount ← sdk.getAmountByShare (sourceVaultLp + sides.swapSourceVaultLpAmount)
    sourceVaultTotalAmount (sides.swapSourceVaultLpSupply + sourceVaultLp)
  let actualSourceAmount := afterSwapSourceAmount - beforeSwapSourceAmount
  let sourceAmountWithFee := actualSourceAmount - tradeFeeAfterProtocolFee
  pure { tokenAAmount, tokenBAmount, tradeFeeAfterProtocolFee, sourceAmountWithFee }

/-! ### After the swap -/

def payDestination (inTokenMint : Pubkey) (params : SwapQuoteParam) (poolState : PoolState)
    (source : Source) (out : OutResult) : Throwing SwapResult := do
  let tradeDirection := tradeDirectionOf inTokenMint poolState
  let sides := params.sides source.tokenAAmount source.tokenBAmount tradeDirection
  let destinationVaultWithdrawableAmount ←
    sdk.calculateWithdrawableAmount params.currentTime sides.swapDestinationVault
  let destinationVaultLp ← sdk.getUnmintAmount out.outAmount destinationVaultWithdrawableAmount
    sides.swapDestinationVaultLpSupply
  let actualDestinationAmount ← sdk.getAmountByShare destinationVaultLp
    destinationVaultWithdrawableAmount sides.swapDestinationVaultLpSupply
  let maxSwapOutAmount ← calculateMaxSwapOutAmount
    (match tradeDirection with
      | .aToB => poolState.tokenBMint
      | .bToA => poolState.tokenAMint)
    poolState.tokenAMint poolState.tokenBMint source.tokenAAmount source.tokenBAmount
    params.vaultAReserve params.vaultBReserve
  invariant (actualDestinationAmount < maxSwapOutAmount) "Out amount > vault reserve"
  pure {
    amountOut := actualDestinationAmount
    fee := source.tradeFeeAfterProtocolFee
    priceImpact := out.priceImpact }

def calculateSwapQuote (inTokenMint : Pubkey) (inAmountLamport : Int) (params : SwapQuoteParam)
    (swapInitiator : Option Pubkey) : Call PoolState SwapResult := do
  let poolState ← Call.read
  let swapCurve ← Call.lift (makeSwapCurve inTokenMint params swapInitiator poolState)
  let source ← Call.lift (settleSource sdk inTokenMint inAmountLamport params poolState)
  let tradeDirection := tradeDirectionOf inTokenMint poolState
  let sides := params.sides source.tokenAAmount source.tokenBAmount tradeDirection
  let out ← swapCurve.computeOutAmount decoders source.sourceAmountWithFee sides.swapSourceAmount
    sides.swapDestinationAmount tradeDirection
  Call.lift (payDestination sdk inTokenMint params poolState source out)

/-! ### A deposit on its own -/

def computeActualDepositAmount (depositAmount beforeAmount vaultLpBalance vaultLpSupply
    vaultTotalAmount : Int) : Throwing Int := do
  if depositAmount = 0 then return depositAmount
  let vaultLpMinted ← BN.div (depositAmount * vaultLpSupply) vaultTotalAmount
  let vaultLpSupply := vaultLpSupply + vaultLpMinted
  let vaultTotalAmount := vaultTotalAmount + depositAmount
  let vaultLpBalance := vaultLpBalance + vaultLpMinted
  let afterAmount ← BN.div (vaultLpBalance * vaultTotalAmount) vaultLpSupply
  pure (afterAmount - beforeAmount)

end DynamicAmm.Client

import DynamicAmm.Client.Liquidity

/-!
# The largest swap

What a pool can pay is limited by its own amount of the token and by the reserve of the vault, and the
largest amount in is computed from that limit backward, through the curve and the fees.
-/

namespace DynamicAmm.Client

open Js
open Program (Pubkey)

variable (decoders : StakeDecoders)

def SwapCurve.computeInAmount (swapCurve : SwapCurve)
    (destAmount swapSourceAmount swapDestinationAmount : Int) (tradeDirection : TradeDirection) :
    Call PoolState Int :=
  match swapCurve with
  | .stable curve =>
      Call.focus PoolState.depeg PoolState.setDepeg
        (curve.computeInAmount decoders destAmount swapSourceAmount swapDestinationAmount tradeDirection)
  | .constantProduct =>
      Call.lift (ConstantProductSwap.computeInAmount destAmount swapSourceAmount swapDestinationAmount)

-- The reserves are those of `accountsInfo`, and `params` is what `getSwapQuote` makes of it for a quote.
variable (poolInfo : PoolInformation) (params : SwapQuoteParam)

def getMaxSwapOutAmount (poolState : PoolState) (tokenMint : Pubkey) : Throwing Int :=
  calculateMaxSwapOutAmount tokenMint poolState.tokenAMint poolState.tokenBMint poolInfo.tokenAAmount
    poolInfo.tokenBAmount params.vaultAReserve params.vaultBReserve

def getMaxSwapInAmount (swapCurve : SwapCurve) (tokenMint : Pubkey) : Call PoolState Int := do
  let poolState ← Call.read
  Call.lift (invariant (tokenMint = poolState.tokenAMint ∨ tokenMint = poolState.tokenBMint) invalidMint)
  let (outTokenMint, swapSourceAmount, swapDestAmount, tradeDirection) :=
    if tokenMint = poolState.tokenAMint then
      (poolState.tokenBMint, poolInfo.tokenAAmount, poolInfo.tokenBAmount, TradeDirection.aToB)
    else (poolState.tokenAMint, poolInfo.tokenBAmount, poolInfo.tokenAAmount, TradeDirection.bToA)
  let maxOutAmount ← Call.lift (getMaxSwapOutAmount poolInfo params poolState outTokenMint)
  -- Impossible to deplete the pool, therefore if maxOutAmount is equals to tokenAmount in pool, subtract it by 1
  let maxOutAmount := if maxOutAmount = swapDestAmount then maxOutAmount - 1 else maxOutAmount
  let maxInAmount ← swapCurve.computeInAmount decoders maxOutAmount swapSourceAmount swapDestAmount
    tradeDirection
  let adminFee ← Call.lift (calculateProtocolTradingFee maxInAmount poolState)
  let tradeFee ← Call.lift (calculateTradingFee maxInAmount poolState)
  pure (maxInAmount - adminFee - tradeFee)

end DynamicAmm.Client

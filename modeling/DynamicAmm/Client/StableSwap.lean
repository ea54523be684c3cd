import DynamicAmm.Client.Calculator
import DynamicAmm.Client.ConstantProduct

/-!
# The stable curve of the client

Every operation first refreshes the depeg record, which the curve shares with the pool state it was made
from, and then computes on amounts that are scaled to a common precision. The refresh is the only write,
so an operation is the refresh followed by a function of the record it leaves, and the two are separate
definitions: `computeOutAmount` is the operation and `computeOutAmountAt` its second part.
-/

namespace DynamicAmm.Client

open Js
open Program (Bytes DepegType Pubkey)

def precision : Int := 1000000

def baseCacheExpire : Int := 60 * 10

/-- `account!.data` of a missing account. -/
def missingAccount : String := "Cannot read properties of undefined (reading 'data')"

def readBigInt64LE (bytes : Bytes) (offset : Nat) : Throwing Int :=
  if offset + 8 ≤ bytes.length then
    let unsigned : Nat :=
      ((bytes.drop offset).take 8).foldr (fun byte rest => byte.toNat + 256 * rest) 0
    .ok (if unsigned < 2 ^ 63 then unsigned else unsigned - 2 ^ 64)
  else if bytes.length < 8 then .error "Attempt to access memory outside buffer bounds"
  else .error ("The value of \"offset\" is out of range. It must be >= 0 and <= " ++ toString (bytes.length - 8) ++
    ". Received " ++ toString offset)

def marinadeAccount : Pubkey :=
  ⟨[117, 17, 155, 49, 117, 128, 117, 134, 227, 244, 167, 229, 205, 15, 137, 14, 150, 167, 83, 177, 15,
    204, 199, 104, 30, 148, 115, 160, 8, 50, 112, 241], rfl⟩

def lidoAccount : Pubkey :=
  ⟨[46, 195, 142, 250, 71, 7, 14, 31, 131, 13, 41, 188, 37, 184, 24, 165, 85, 96, 114, 68, 1, 123, 223,
    158, 34, 157, 250, 98, 24, 162, 89, 209], rfl⟩

structure StableSwap where
  amp : Int
  tokenMultiplier : TokenMultiplier
  extraAccounts : DepegAccounts
  onChainTime : Int
  stakePoolPubkey : Pubkey

/-! ### Fees of the stable calculator -/

/-- A fraction of a zero denominator is only found out when it is rounded to an integer. -/
def fraction (numerator denominator : Int) : Throwing ℚ :=
  if denominator = 0 then .error "[big.js] Division by zero"
  else .ok ((numerator : ℚ) / denominator)

structure Fees where
  trade : Throwing ℚ
  withdraw : Throwing ℚ
  adminTrade : Throwing ℚ
  adminWithdraw : Throwing ℚ

def toFees (fees : PoolFees) : Fees where
  adminTrade := fraction fees.protocolTradeFeeNumerator fees.protocolTradeFeeDenominator
  trade := fraction fees.tradeFeeNumerator fees.tradeFeeDenominator
  adminWithdraw := fraction 0 100
  withdraw := fraction 0 100

def normalizedTradeFee (feeInfo : Fees) (nCoins amount : Int) : Throwing ℚ := do
  let adjustedTradeFee ← fraction nCoins ((nCoins - 1) * 4)
  let trade ← feeInfo.trade
  pure (amount * trade * adjustedTradeFee)

structure WithdrawOneAmount where
  withdrawAmount : Int
  withdrawAmountBeforeFees : Int
  swapFee : Int
  withdrawFee : Int
  lpSwapFee : Int
  lpWithdrawFee : Int
  adminSwapFee : Int
  adminWithdrawFee : Int
  deriving DecidableEq, Repr

structure MintAmount where
  mintAmountBeforeFees : Int
  mintAmount : Int
  fees : Int
  deriving DecidableEq, Repr

section Estimates

-- `Fraction.toFixed(0)` of the token math library
variable (toFixed : ℚ → Int)

def calculateEstimatedWithdrawOneAmount (ampFactor : Int) (feeInfo : Fees) (lpTotalSupply : Int)
    (reserves : Int × Int) (poolTokenAmount : Int) (tradeDirection : TradeDirection) :
    Throwing WithdrawOneAmount := do
  if poolTokenAmount = 0 then return ⟨0, 0, 0, 0, 0, 0, 0, 0⟩
  let (baseReserves, quoteReserves) := match tradeDirection with
    | .bToA => (reserves.1, reserves.2)
    | .aToB => (reserves.2, reserves.1)
  let d0 ← computeD ampFactor baseReserves quoteReserves
  let burned ← bigDiv (poolTokenAmount * d0) lpTotalSupply
  let d1 := d0 - burned
  let newY ← computeY ampFactor quoteReserves d1
  let baseShare ← bigDiv (baseReserves * d1) d0
  let expectedBaseAmount := baseShare - newY
  let quoteShare ← bigDiv (quoteReserves * d1) d0
  let expectedQuoteAmount := quoteReserves - quoteShare
  let newBaseAmount : ℚ := baseReserves - (← normalizedTradeFee feeInfo 2 expectedBaseAmount)
  let newQuoteAmount : ℚ := quoteReserves - (← normalizedTradeFee feeInfo 2 expectedQuoteAmount)
  let left ← computeY ampFactor (toFixed newQuoteAmount) d1
  let dy : ℚ := newBaseAmount - left
  let dy0 := baseReserves - newY
  let swapFee : ℚ := dy0 - dy
  let withdrawFee : ℚ := dy * (← feeInfo.withdraw)
  let adminSwapFee : ℚ := swapFee * (← feeInfo.adminTrade)
  let adminWithdrawFee : ℚ := withdrawFee * (← feeInfo.adminWithdraw)
  let lpSwapFee : ℚ := swapFee - adminSwapFee
  let lpWithdrawFee : ℚ := withdrawFee - adminWithdrawFee
  let withdrawAmount : ℚ := dy - withdrawFee - swapFee
  pure {
    withdrawAmount := toFixed withdrawAmount
    withdrawAmountBeforeFees := toFixed dy
    swapFee := toFixed swapFee
    withdrawFee := toFixed withdrawFee
    lpSwapFee := toFixed lpSwapFee
    lpWithdrawFee := toFixed lpWithdrawFee
    adminSwapFee := toFixed adminSwapFee
    adminWithdrawFee := toFixed adminWithdrawFee }

/-- One entry of `adjustedBalances`: the new balance less the fee on its distance from the ideal one. -/
def adjustedBalance (feeInfo : Fees) (d0 d1 oldBalance newBalance : Int) : Throwing Int := do
  let idealBalance : ℚ := (← fraction d1 d0) * oldBalance
  let difference := idealBalance - newBalance
  let diffAbs := if difference > 0 then difference else difference * (-1)
  let fee ← normalizedTradeFee feeInfo 2 (toFixed diffAbs)
  pure (newBalance - toFixed fee)

def calculateEstimatedMintAmount (ampFactor : Int) (feeInfo : Fees) (lpTotalSupply : Int)
    (reserves : Int × Int) (depositAmountA depositAmountB : Int) : Throwing MintAmount := do
  if depositAmountA = 0 ∧ depositAmountB = 0 then return ⟨0, 0, 0⟩
  let (reserveA, reserveB) := reserves
  let d0 ← computeD ampFactor reserveA reserveB
  let d1 ← computeD ampFactor (reserveA + depositAmountA) (reserveB + depositAmountB)
  if d1 < d0 then throw "New D cannot be less than previous D"
  let adjustedA ← adjustedBalance toFixed feeInfo d0 d1 reserveA (reserveA + depositAmountA)
  let adjustedB ← adjustedBalance toFixed feeInfo d0 d1 reserveB (reserveB + depositAmountB)
  let d2 ← computeD ampFactor adjustedA adjustedB
  let mintAmountRaw ← bigDiv (lpTotalSupply * (d2 - d0)) d0
  let mintAmountRawBeforeFees ← bigDiv (lpTotalSupply * (d1 - d0)) d0
  pure {
    mintAmount := mintAmountRaw
    mintAmountBeforeFees := mintAmountRawBeforeFees
    fees := mintAmountRawBeforeFees - mintAmountRaw }

end Estimates

namespace StableSwap

/-! ### The depeg record -/

variable (decoders : StakeDecoders)

def getBasePoolVirtualPrice (curve : StableSwap) (depegType : DepegType) : Throwing Int :=
  match depegType with
  | .marinade => do
      let some data := curve.extraAccounts marinadeAccount | throw missingAccount
      let msolPrice ← decoders.msolPrice data
      BN.div (msolPrice * precision) 0x100000000
  | .lido => do
      let some data := curve.extraAccounts lidoAccount | throw missingAccount
      let stSolSupply ← readBigInt64LE data 73
      let stSolBalance ← readBigInt64LE data 81
      BN.div (stSolBalance * precision) stSolSupply
  | .splStake => do
      let some data := curve.extraAccounts curve.stakePoolPubkey | throw missingAccount
      let (totalLamports, poolTokenSupply) ← decoders.stakePool data
      BN.div (totalLamports * precision) poolTokenSupply
  | .none => throw "UnsupportedBasePool"

def updateDepegInfoIfExpired (curve : StableSwap) : Call Depeg Unit := do
  let depeg ← Call.read
  if depeg.depegType ≠ .none then
    let now ← Call.lift (BN.toNumber curve.onChainTime)
    let expiry ← Call.lift (BN.toNumber (depeg.baseCacheUpdated + baseCacheExpire))
    if now > expiry then
      let baseVirtualPrice ← Call.lift (curve.getBasePoolVirtualPrice decoders depeg.depegType)
      Call.write { depeg with baseVirtualPrice, baseCacheUpdated := curve.onChainTime }

/-! ### Scaling -/

variable (curve : StableSwap) (depeg : Depeg)

def upscaleTokenA (tokenAAmount : Int) : Int :=
  let normalizedTokenAAmount := tokenAAmount * curve.tokenMultiplier.tokenAMultiplier
  if depeg.depegType ≠ .none then normalizedTokenAAmount * precision else normalizedTokenAAmount

def downscaleTokenA (tokenAAmount : Int) : Throwing Int := do
  let denormalizedTokenAAmount ← BN.div tokenAAmount curve.tokenMultiplier.tokenAMultiplier
  if depeg.depegType ≠ .none then BN.div denormalizedTokenAAmount precision
  else pure denormalizedTokenAAmount

def upscaleTokenB (tokenBAmount : Int) : Int :=
  let normalizedTokenBAmount := tokenBAmount * curve.tokenMultiplier.tokenBMultiplier
  if depeg.depegType ≠ .none then normalizedTokenBAmount * depeg.baseVirtualPrice
  else normalizedTokenBAmount

def downscaleTokenB (tokenBAmount : Int) : Throwing Int := do
  let denormalizedTokenBAmount ← BN.div tokenBAmount curve.tokenMultiplier.tokenBMultiplier
  if depeg.depegType ≠ .none then BN.div denormalizedTokenBAmount depeg.baseVirtualPrice
  else pure denormalizedTokenBAmount

/-! ### The operations on a record in force -/

def computeOutAmountWithoutSlippage (sourceAmount swapSourceAmount swapDestinationAmount invariantD : Int) :
    Throwing Int := do
  let amp ← BN.ofNumber curve.amp
  let a := amp * 16
  let b := a
  let c := invariantD * 4 - invariantD * amp * 16
  let numerator := (2 * a * swapSourceAmount + b * swapDestinationAmount + c) * swapDestinationAmount
  let denominator := (a * swapSourceAmount + (2 * b * swapDestinationAmount + c)) * swapSourceAmount
  BN.div (sourceAmount * numerator) denominator

def computeOutAmountAt (sourceAmount swapSourceAmount swapDestinationAmount : Int)
    (tradeDirection : TradeDirection) : Throwing OutResult := do
  let (upscaledSourceAmount, upscaledSwapSourceAmount, upscaledSwapDestinationAmount) :=
    match tradeDirection with
    | .aToB => (curve.upscaleTokenA depeg sourceAmount, curve.upscaleTokenA depeg swapSourceAmount,
        curve.upscaleTokenB depeg swapDestinationAmount)
    | .bToA => (curve.upscaleTokenB depeg sourceAmount, curve.upscaleTokenB depeg swapSourceAmount,
        curve.upscaleTokenA depeg swapDestinationAmount)
  let invariantD ← computeD curve.amp upscaledSwapSourceAmount upscaledSwapDestinationAmount
  let newSwapSourceAmount := upscaledSwapSourceAmount + upscaledSourceAmount
  let newSwapDestinationAmount ← computeY curve.amp newSwapSourceAmount invariantD
  let outAmount := upscaledSwapDestinationAmount - newSwapDestinationAmount - 1
  let outAmountWithoutSlippage ← curve.computeOutAmountWithoutSlippage upscaledSourceAmount
    upscaledSwapSourceAmount upscaledSwapDestinationAmount invariantD
  let downscale := match tradeDirection with
    | .aToB => curve.downscaleTokenB depeg
    | .bToA => curve.downscaleTokenA depeg
  let outAmount ← downscale outAmount
  let outAmountWithoutSlippage ← downscale outAmountWithoutSlippage
  pure { outAmount, priceImpact := getPriceImpact outAmount outAmountWithoutSlippage }

def computeInAmountAt (destAmount swapSourceAmount swapDestinationAmount : Int)
    (tradeDirection : TradeDirection) : Throwing Int := do
  let (upscaledDestAmount, upscaledSwapSourceAmount, upscaledSwapDestinationAmount) :=
    match tradeDirection with
    | .aToB => (curve.upscaleTokenB depeg destAmount, curve.upscaleTokenA depeg swapSourceAmount,
        curve.upscaleTokenB depeg swapDestinationAmount)
    | .bToA => (curve.upscaleTokenA depeg destAmount, curve.upscaleTokenB depeg swapSourceAmount,
        curve.upscaleTokenA depeg swapDestinationAmount)
  let invariantD ← computeD curve.amp upscaledSwapSourceAmount upscaledSwapDestinationAmount
  let newSwapDestAmount := upscaledSwapDestinationAmount - upscaledDestAmount
  let newSwapSourceAmount ← computeY curve.amp newSwapDestAmount invariantD
  -- the raw balance, not the scaled one
  let inAmount := newSwapSourceAmount - swapSourceAmount
  match tradeDirection with
  | .aToB => curve.downscaleTokenA depeg inAmount
  | .bToA => curve.downscaleTokenB depeg inAmount

variable (toFixed : ℚ → Int)

def computeImbalanceDepositAt (depositAAmount depositBAmount swapTokenAAmount swapTokenBAmount
    lpSupply : Int) (fees : PoolFees) : Throwing Int := do
  let estimate ← calculateEstimatedMintAmount toFixed curve.amp (toFees fees) lpSupply
    (curve.upscaleTokenA depeg swapTokenAAmount, curve.upscaleTokenB depeg swapTokenBAmount)
    (curve.upscaleTokenA depeg depositAAmount) (curve.upscaleTokenB depeg depositBAmount)
  pure estimate.mintAmount

def computeWithdrawOneAt (lpAmount lpSupply swapTokenAAmount swapTokenBAmount : Int) (fees : PoolFees)
    (tradeDirection : TradeDirection) : Throwing Int := do
  let estimate ← calculateEstimatedWithdrawOneAmount toFixed curve.amp (toFees fees) lpSupply
    (curve.upscaleTokenA depeg swapTokenAAmount, curve.upscaleTokenB depeg swapTokenBAmount) lpAmount
    tradeDirection
  match tradeDirection with
  | .aToB => curve.downscaleTokenB depeg estimate.withdrawAmountBeforeFees
  | .bToA => curve.downscaleTokenA depeg estimate.withdrawAmountBeforeFees

/-! ### The operations -/

def computeOutAmount (sourceAmount swapSourceAmount swapDestinationAmount : Int)
    (tradeDirection : TradeDirection) : Call Depeg OutResult := do
  curve.updateDepegInfoIfExpired decoders
  let depeg ← Call.read
  Call.lift (curve.computeOutAmountAt depeg sourceAmount swapSourceAmount swapDestinationAmount
    tradeDirection)

def computeInAmount (destAmount swapSourceAmount swapDestinationAmount : Int)
    (tradeDirection : TradeDirection) : Call Depeg Int := do
  curve.updateDepegInfoIfExpired decoders
  let depeg ← Call.read
  Call.lift (curve.computeInAmountAt depeg destAmount swapSourceAmount swapDestinationAmount
    tradeDirection)

def computeImbalanceDeposit (depositAAmount depositBAmount swapTokenAAmount swapTokenBAmount
    lpSupply : Int) (fees : PoolFees) : Call Depeg Int := do
  curve.updateDepegInfoIfExpired decoders
  let depeg ← Call.read
  Call.lift (curve.computeImbalanceDepositAt depeg toFixed depositAAmount depositBAmount
    swapTokenAAmount swapTokenBAmount lpSupply fees)

def computeWithdrawOne (lpAmount lpSupply swapTokenAAmount swapTokenBAmount : Int) (fees : PoolFees)
    (tradeDirection : TradeDirection) : Call Depeg Int := do
  curve.updateDepegInfoIfExpired decoders
  let depeg ← Call.read
  Call.lift (curve.computeWithdrawOneAt depeg toFixed lpAmount lpSupply swapTokenAAmount
    swapTokenBAmount fees tradeDirection)

end StableSwap

end DynamicAmm.Client

import DynamicAmm.Program.Vault
import DynamicAmm.Quote.Depeg
import DynamicAmm.Quote.SwapCurve

/-!
# The Rust quote

`computeQuoteSteps` is the body of `compute_quote` with every amount it settles on the way kept in the
result, because the properties of a quote are about these amounts: what is deposited, what the curve
sees, which shares are burned. `computeQuote` keeps the two amounts that the function returns.
-/

namespace DynamicAmm.Quote

open Rust Program

structure TokenAccount where
  amount : UInt64
  deriving DecidableEq, Repr

structure Mint where
  supply : UInt64
  deriving DecidableEq, Repr

structure QuoteData where
  pool : Pool
  vaultA : Vault
  vaultB : Vault
  poolVaultALpToken : TokenAccount
  poolVaultBLpToken : TokenAccount
  vaultALpMint : Mint
  vaultBLpMint : Mint
  vaultAToken : TokenAccount
  vaultBToken : TokenAccount
  clock : Clock
  stakeData : StakeData

structure VaultInfo where
  /-- Amount of vault lp hold by the pool -/
  lpAmount : UInt64
  /-- Vault lp mint supply -/
  lpSupply : UInt64
  vault : Vault
  deriving DecidableEq, Repr

structure QuoteResult where
  /-- Swap out amount -/
  outAmount : UInt64
  /-- Total fee amount. Fee is charged based on in token mint. -/
  fee : UInt64
  deriving DecidableEq, Repr

/-- What the two sides of a trade are, by their role in it. -/
structure TradeAccounts where
  inVault : Vault
  outVault : Vault
  inVaultLp : TokenAccount
  outVaultLp : TokenAccount
  inVaultLpMint : Mint
  outVaultLpMint : Mint
  outVaultTokenAccount : TokenAccount
  inTokenTotalAmount : UInt64
  outTokenTotalAmount : UInt64

def QuoteData.tradeAccounts (quoteData : QuoteData) (tokenAAmount tokenBAmount : UInt64) :
    TradeDirection → TradeAccounts
  | .aToB =>
      { inVault := quoteData.vaultA
        outVault := quoteData.vaultB
        inVaultLp := quoteData.poolVaultALpToken
        outVaultLp := quoteData.poolVaultBLpToken
        inVaultLpMint := quoteData.vaultALpMint
        outVaultLpMint := quoteData.vaultBLpMint
        outVaultTokenAccount := quoteData.vaultBToken
        inTokenTotalAmount := tokenAAmount
        outTokenTotalAmount := tokenBAmount }
  | .bToA =>
      { inVault := quoteData.vaultB
        outVault := quoteData.vaultA
        inVaultLp := quoteData.poolVaultBLpToken
        outVaultLp := quoteData.poolVaultALpToken
        inVaultLpMint := quoteData.vaultBLpMint
        outVaultLpMint := quoteData.vaultALpMint
        outVaultTokenAccount := quoteData.vaultAToken
        inTokenTotalAmount := tokenBAmount
        outTokenTotalAmount := tokenAAmount }

structure QuoteSteps where
  tradeFee : Nat
  protocolFee : UInt64
  inAmountAfterProtocolFee : UInt64
  inLp : UInt64
  actualInAmount : UInt64
  actualInAmountAfterFee : UInt64
  destinationAmountSwapped : UInt64
  outVaultLp : UInt64
  result : QuoteResult
  deriving DecidableEq, Repr

variable (accounts : StakeAccounts) (libraries : CurveLibraries)

def tryFromIntError : String := "out of range integral type conversion attempted"

def tryIntoU64 (amount : Nat) : Outcome UInt64 := Outcome.context (tryU64 amount) tryFromIntError

def timeTryIntoU64 (time : Int64) : Outcome UInt64 :=
  if 0 ≤ time.toInt then .ok time.toUInt64 else .err tryFromIntError

open Outcome (context ensure)

/-- The second half of the body, from the fees on. -/
def settleTrade (fees : PoolFees) (curveType : CurveType) (currentTime inAmount : UInt64)
    (tradeDirection : TradeDirection) (trade : TradeAccounts) : Outcome QuoteSteps := do
  let tradeFee ← context (fees.tradingFee inAmount.toNat) "Fail to calculate trading fee"
  let protocolFee ← context (fees.protocolTradingFee tradeFee) "Fail to calculate protocol trading fee"
  let protocolFee ← tryIntoU64 protocolFee
  let inAmountAfterProtocolFee ← context (checkedSub inAmount protocolFee)
    "Fail to calculate in_amount_after_protocol_fee"
  let beforeInTokenTotalAmount := trade.inTokenTotalAmount
  let inLp ← context
    (trade.inVault.getUnmintAmount currentTime inAmountAfterProtocolFee trade.inVaultLpMint.supply)
    "Fail to get in_vault_lp"
  let totalAmount ← context (checkedAdd trade.inVault.totalAmount inAmountAfterProtocolFee)
    "Fail to add in_vault.total_amount"
  let inVault : Vault := { trade.inVault with totalAmount }
  let newInVaultLp ← context (checkedAdd inLp trade.inVaultLp.amount) "Fail to get new in_vault_lp"
  let newInVaultLpMint ← context (checkedAdd trade.inVaultLpMint.supply inLp)
    "Fail to get new in_vault_lp_mint"
  let afterInTokenTotalAmount ← context
    (inVault.getAmountByShare currentTime newInVaultLp newInVaultLpMint)
    "Fail to get after_in_token_total_amount"
  let actualInAmount ← context (checkedSub afterInTokenTotalAmount beforeInTokenTotalAmount)
    "Fail to get actual_in_amount"
  let fee ← tryIntoU64 tradeFee
  let actualInAmountAfterFee ← context (checkedSub actualInAmount fee)
    "Fail to calculate in_amount_after_fee"
  let swapCurve := getSwapCurve curveType
  let swapResult ← context
    (swapCurve.swap libraries actualInAmountAfterFee trade.inTokenTotalAmount
      trade.outTokenTotalAmount tradeDirection)
    "Fail to get swap result"
  let destinationAmountSwapped ← tryIntoU64 swapResult.destinationAmountSwapped
  let outVaultLp ← context
    (trade.outVault.getUnmintAmount currentTime destinationAmountSwapped trade.outVaultLpMint.supply)
    "Fail to get out_vault_lp"
  let outAmount ← context
    (trade.outVault.getAmountByShare currentTime outVaultLp trade.outVaultLpMint.supply)
    "Fail to get out_amount"
  ensure (outAmount < trade.outVaultTokenAccount.amount) "Out amount > vault reserve"
  let fee ← tryIntoU64 tradeFee
  pure {
    tradeFee, protocolFee, inAmountAfterProtocolFee, inLp, actualInAmount, actualInAmountAfterFee,
    destinationAmountSwapped, outVaultLp
    result := { fee, outAmount } }

def computeQuoteSteps (inTokenMint : Pubkey) (inAmount : UInt64) (quoteData : QuoteData) :
    Outcome QuoteSteps := do
  let clock := quoteData.clock
  let activationType ← ActivationType.tryFrom quoteData.pool.bootstrapping.activationType
  let currentPoint := match activationType with
    | .slot => clock.slot
    | .timestamp => clock.unixTimestamp.toUInt64
  ensure quoteData.pool.enabled "Pool disabled"
  ensure (currentPoint ≥ quoteData.pool.bootstrapping.activationPoint) "Swap is disabled"
  let (refreshed, pool) := updateBaseVirtualPrice accounts quoteData.pool clock quoteData.stakeData
  refreshed
  let currentTime ← timeTryIntoU64 clock.unixTimestamp
  ensure (inTokenMint = pool.tokenAMint ∨ inTokenMint = pool.tokenBMint)
    "In token mint not matches with pool token mints"
  let tokenAAmount ← context
    (quoteData.vaultA.getAmountByShare currentTime quoteData.poolVaultALpToken.amount
      quoteData.vaultALpMint.supply)
    "Fail to get token a amount"
  let tokenBAmount ← context
    (quoteData.vaultB.getAmountByShare currentTime quoteData.poolVaultBLpToken.amount
      quoteData.vaultBLpMint.supply)
    "Fail to get token b amount"
  let tradeDirection : TradeDirection := if inTokenMint = pool.tokenAMint then .aToB else .bToA
  settleTrade libraries pool.fees pool.curveType currentTime inAmount tradeDirection
    (quoteData.tradeAccounts tokenAAmount tokenBAmount tradeDirection)

def computeQuote (inTokenMint : Pubkey) (inAmount : UInt64) (quoteData : QuoteData) :
    Outcome QuoteResult := do
  let steps ← computeQuoteSteps accounts libraries inTokenMint inAmount quoteData
  pure steps.result

def computePoolTokens (currentTime : UInt64) (vaultA vaultB : VaultInfo) :
    Outcome (UInt64 × UInt64) := do
  let tokenAAmount ← context
    (vaultA.vault.getAmountByShare currentTime vaultA.lpAmount vaultA.lpSupply) "Math operation overflow"
  let tokenBAmount ← context
    (vaultB.vault.getAmountByShare currentTime vaultB.lpAmount vaultB.lpSupply) "Math operation overflow"
  pure (tokenAAmount, tokenBAmount)

end DynamicAmm.Quote

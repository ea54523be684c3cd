import DynamicAmm.Client.SwapQuote

/-!
# The quote of a pool that does not exist yet

The quote deposits the two amounts the pool will be created with and then swaps, keeping the vault's
numbers up to date on the way. The vault objects it updates are the caller's own, so it is a `Call` on
the caller's parameters. What is local to the call is the LP that the pool would hold.
-/

namespace DynamicAmm.Client

open Js

structure VaultAssociatedAccountStates where
  vault : VaultState
  reserve : Int
  lpSupply : Int
  deriving DecidableEq, Repr

structure SwapQuoteParams2 where
  vaultA : Option VaultAssociatedAccountStates
  vaultB : Option VaultAssociatedAccountStates
  currentTime : SafeInteger
  deriving DecidableEq

structure MemecoinQuoteResult where
  amountOut : Int
  fee : Int
  deriving DecidableEq, Repr

inductive Side where
  | a
  | b
  deriving DecidableEq, Repr

/-- `LocalStates`: the caller's object for one side, and the pool's LP on that side. -/
structure LocalStates where
  vaultStates : VaultAssociatedAccountStates
  poolVaultLp : Int
  deriving DecidableEq, Repr

/-- What the body of the call can reach: the local states of each side. -/
structure Session where
  vaultA : Option LocalStates
  vaultB : Option LocalStates
  deriving DecidableEq

def Session.get (session : Session) : Side → Option LocalStates
  | .a => session.vaultA
  | .b => session.vaultB

def Session.set (session : Session) (states : LocalStates) : Side → Session
  | .a => { session with vaultA := some states }
  | .b => { session with vaultB := some states }

variable (sdk : VaultSdk) (currentTime : SafeInteger)

def getTokenAmountAfterDepositVault (amount : Int) (side : Side) : Call Session Int := do
  let session ← Call.read
  match session.get side with
  | none => pure amount
  | some states =>
      let vaultWithdrawableAmount ←
        Call.lift (sdk.calculateWithdrawableAmount currentTime states.vaultStates.vault)
      let lpMinted ← Call.lift
        (sdk.getUnmintAmount amount vaultWithdrawableAmount states.vaultStates.lpSupply)
      let vault :=
        { states.vaultStates.vault with totalAmount := states.vaultStates.vault.totalAmount + amount }
      let lpSupply := states.vaultStates.lpSupply + lpMinted
      let poolVaultLp := states.poolVaultLp + lpMinted
      Call.write
        (session.set ⟨{ states.vaultStates with vault, lpSupply }, poolVaultLp⟩ side)
      let vaultWithdrawableAmount ← Call.lift (sdk.calculateWithdrawableAmount currentTime vault)
      Call.lift (sdk.getAmountByShare poolVaultLp vaultWithdrawableAmount lpSupply)

def getTokenAmountAfterWithdrawVault (amount : Int) (side : Side) : Call Session Int := do
  let session ← Call.read
  match session.get side with
  | none => pure amount
  | some states =>
      let vaultWithdrawableAmount ←
        Call.lift (sdk.calculateWithdrawableAmount currentTime states.vaultStates.vault)
      let lpBurned ← Call.lift
        (sdk.getUnmintAmount amount vaultWithdrawableAmount states.vaultStates.lpSupply)
      let vault :=
        { states.vaultStates.vault with totalAmount := states.vaultStates.vault.totalAmount - amount }
      let lpSupply := states.vaultStates.lpSupply - lpBurned
      let poolVaultLp := states.poolVaultLp - lpBurned
      Call.write
        (session.set ⟨{ states.vaultStates with vault, lpSupply }, poolVaultLp⟩ side)
      let vaultWithdrawableAmount ← Call.lift (sdk.calculateWithdrawableAmount currentTime vault)
      Call.lift (sdk.getAmountByShare poolVaultLp vaultWithdrawableAmount lpSupply)

/-- The swap, once the sides have their roles. A side without a vault takes and pays the bare amount. -/
def swapSession (sourceAmount swapSourceAmount swapDestinationAmount : Int)
    (sourceVault destinationVault : Side) (fees : PoolFees) : Call Session MemecoinQuoteResult := do
  let tradeFee ← Call.lift (BN.div (sourceAmount * fees.tradeFeeNumerator) fees.tradeFeeDenominator)
  let protocolFee ← Call.lift
    (BN.div (tradeFee * fees.protocolTradeFeeNumerator) fees.protocolTradeFeeDenominator)
  let sourceAmountLessProtocolFee := sourceAmount - protocolFee
  let beforeSwapSourceAmount := swapSourceAmount
  let afterSwapSourceAmount ←
    getTokenAmountAfterDepositVault sdk currentTime sourceAmountLessProtocolFee sourceVault
  let actualSourceAmount := afterSwapSourceAmount - beforeSwapSourceAmount
  let sourceAmountLessFee := actualSourceAmount - (tradeFee - protocolFee)
  let { outAmount := destinationAmount, priceImpact := _ } ← Call.lift
    (ConstantProductSwap.computeOutAmount sourceAmountLessFee swapSourceAmount swapDestinationAmount)
  let afterDestinationAmount ←
    getTokenAmountAfterWithdrawVault sdk currentTime destinationAmount destinationVault
  pure { amountOut := afterDestinationAmount, fee := sourceAmountLessProtocolFee }

/-- The body, from the deposits of the pool's creation on. -/
def quoteSession (sourceAmount tokenADepositAmount tokenBDepositAmount : Int) (aToB : Bool)
    (fees : PoolFees) : Call Session MemecoinQuoteResult := do
  let tokenAAmount ← getTokenAmountAfterDepositVault sdk currentTime tokenADepositAmount .a
  let tokenBAmount ← getTokenAmountAfterDepositVault sdk currentTime tokenBDepositAmount .b
  if aToB then swapSession sdk currentTime sourceAmount tokenAAmount tokenBAmount .a .b fees
  else swapSession sdk currentTime sourceAmount tokenBAmount tokenAAmount .b .a fees

/-- The caller's vault objects wrapped as local states, with no LP held yet. -/
def SwapQuoteParams2.session (params : SwapQuoteParams2) : Session where
  vaultA := params.vaultA.map fun vaultStates => { vaultStates, poolVaultLp := 0 }
  vaultB := params.vaultB.map fun vaultStates => { vaultStates, poolVaultLp := 0 }

/-- The caller's parameters after the call: the objects inside the local states are the caller's. -/
def SwapQuoteParams2.after (params : SwapQuoteParams2) (session : Session) : SwapQuoteParams2 where
  vaultA := session.vaultA.map LocalStates.vaultStates
  vaultB := session.vaultB.map LocalStates.vaultStates
  currentTime := params.currentTime

def calculateSwapQuoteForGoingToCreateMemecoinPool
    (inAmountLamport tokenADepositAmount tokenBDepositAmount : Int) (aToB : Bool) (fees : PoolFees) :
    Call SwapQuoteParams2 MemecoinQuoteResult := do
  let params ← Call.read
  Call.lift (invariant (params.vaultA.isSome ∨ params.vaultB.isSome) "Must one side have vault")
  Call.lift (invariant (¬ params.vaultA.isSome ∨ ¬ params.vaultB.isSome) "Must one side have vault")
  Call.focus SwapQuoteParams2.session SwapQuoteParams2.after
    (quoteSession sdk params.currentTime inAmountLamport tokenADepositAmount tokenBDepositAmount aToB
      fees)

end DynamicAmm.Client

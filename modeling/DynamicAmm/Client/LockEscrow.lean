import DynamicAmm.Client.Address
import DynamicAmm.Client.Liquidity

/-!
# The fee of locked liquidity

An escrow locks LP and records the virtual price at which it last settled. What the LP gained since then
is its fee, which the client shows in LP and in the two tokens.
-/

namespace DynamicAmm.Client

open Js
open Program (Bytes Pubkey)

/-- State of lock escrow account, as far as it is read. -/
structure LockEscrowAccount where
  escrowVault : Pubkey
  totalLockedAmount : Int
  /-- Lp per token, virtual price of lp token -/
  lpPerToken : Int
  unclaimedFeePending : Int
  aFee : Int
  bFee : Int

structure LockEscrow.Fees where
  lp : Option Int
  tokenA : Int
  tokenB : Int
  deriving DecidableEq, Repr

structure LockEscrow.Fee where
  claimed : LockEscrow.Fees
  unClaimed : LockEscrow.Fees
  deriving DecidableEq, Repr

structure LockEscrow where
  address : Pubkey
  amount : Int
  fee : LockEscrow.Fee
  deriving DecidableEq

/-- The accounts of the network that are fetched for an escrow. -/
structure LockEscrowNetwork where
  /-- `program.account.lockEscrow.fetchNullable` -/
  fetchNullable : Pubkey → Option LockEscrowAccount
  /-- `connection.getTokenAccountBalance`, as the `BN` of its amount -/
  getTokenAccountBalance : Pubkey → Throwing Int

def calculateUnclaimedLockEscrowFee (totalLockedAmount lpPerToken unclaimedFeePending
    currentVirtualPrice : Int) : Throwing Int :=
  if currentVirtualPrice = 0 then pure 0
  else do
    let newFee ← BN.div (totalLockedAmount * (currentVirtualPrice - lpPerToken)) currentVirtualPrice
    pure (newFee + unclaimedFeePending)

def noSlippage : Slippage := ⟨10000, 10000⟩

-- `PublicKey.findProgramAddressSync`, without the bump it found
variable (findProgramAddressSync : List Bytes → Pubkey → Pubkey)

def deriveLockEscrowPda (pool owner ammProgram : Pubkey) : Throwing Pubkey := do
  let seeds ← (DerivedAccount.lockEscrow pool owner).seeds
  pure (findProgramAddressSync seeds ammProgram)

def AmmImpl.getUserLockEscrow (sdk : VaultSdk) (decoders : StakeDecoders) (toFixed : ℚ → Int)
    (network : LockEscrowNetwork) (address programId : Pubkey) (amm : AmmImpl) (owner : Pubkey) :
    Call PoolState (Option LockEscrow) := do
  let lockEscrow ← Call.lift (deriveLockEscrowPda findProgramAddressSync address owner programId)
  match network.fetchNullable lockEscrow with
  | none => pure none
  | some lockEscrowAccount => do
      let escrowVaultAmount ← Call.lift (network.getTokenAccountBalance lockEscrowAccount.escrowVault)
      let unClaimedFee ← Call.lift (calculateUnclaimedLockEscrowFee lockEscrowAccount.totalLockedAmount
        lockEscrowAccount.lpPerToken lockEscrowAccount.unclaimedFeePending amm.poolInfo.virtualPriceRaw)
      let unclaimedFeeCap := if unClaimedFee > escrowVaultAmount then escrowVaultAmount else unClaimedFee
      let quote ← amm.getWithdrawQuote sdk decoders toFixed unclaimedFeeCap noSlippage none
      pure (some {
        address := lockEscrow
        amount := lockEscrowAccount.totalLockedAmount
        fee := {
          claimed := { lp := none, tokenA := lockEscrowAccount.aFee, tokenB := lockEscrowAccount.bFee }
          unClaimed := {
            lp := some unclaimedFeeCap
            tokenA := quote.tokenAOutAmount
            tokenB := quote.tokenBOutAmount } } })

end DynamicAmm.Client

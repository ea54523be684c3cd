import DynamicAmm.Client.LockEscrow
import DynamicAmm.Client.Loading

/-!
# Transactions

A transaction of the client is one instruction of the program among others that prepare it: token accounts that
the user does not have yet are created, the native token is wrapped before it is paid in, and unwrapped after it
was paid out. Which accounts there are the client finds out by asking the network for each of them.
-/

namespace DynamicAmm.Client

open Js
open Program (Bytes Pubkey)

def nativeMint : Pubkey :=
  ⟨[6, 155, 136, 87, 254, 171, 129, 132, 251, 104, 127, 99, 70, 24, 192, 53, 218, 196, 57, 220, 26, 235, 59, 85,
    152, 160, 240, 0, 0, 0, 0, 1], rfl⟩

def tokenProgramId : Pubkey :=
  ⟨[6, 221, 246, 225, 215, 101, 161, 147, 217, 203, 225, 70, 206, 235, 121, 172, 28, 180, 133, 237, 95, 91, 55, 145,
    58, 140, 245, 133, 126, 255, 0, 169], rfl⟩

def systemProgramId : Pubkey := .replicate 0

inductive Method where
  | swap (inAmount minimumOutAmount : Int)
  | bootstrapLiquidity (tokenAAmount tokenBAmount : Int)
  | addImbalanceLiquidity (minimumPoolTokenAmount tokenAAmount tokenBAmount : Int)
  | addBalanceLiquidity (poolTokenAmount maximumTokenAAmount maximumTokenBAmount : Int)
  | removeLiquiditySingleSide (poolTokenAmount minimumOutAmount : Int)
  | removeBalanceLiquidity (poolTokenAmount minimumATokenOut minimumBTokenOut : Int)
  | createLockEscrow
  | lock (maxAmount : Int)
  | claimFee (maxAmount : Int)
  deriving DecidableEq

inductive Instruction where
  | createAssociatedTokenAccount (payer associatedToken owner mint : Pubkey)
  | transfer (fromPubkey toPubkey : Pubkey) (lamports : Int)
  | syncNative (pubkey : Pubkey)
  | closeAccount (account destination authority : Pubkey)
  | amm (method : Method) (accounts : List (String × Pubkey)) (remainingAccounts : List Pubkey)
  deriving DecidableEq

structure Transaction where
  feePayer : Pubkey
  instructions : List Instruction
  deriving DecidableEq

def Method.signer : Method → String
  | .createLockEscrow => "payer"
  | .lock _ => "owner"
  | .claimFee _ => "owner"
  | _ => "user"

def named (names : List String) (accounts : List (String × Pubkey)) : List Pubkey :=
  (accounts.filter fun account => account.1 ∈ names).map Prod.snd

section

-- what the cluster leaves of the accounts that there are, if an instruction goes through
variable (execute : Instruction → Finset Pubkey → Option (Finset Pubkey))
  -- the accounts that the packages mark as signers of an instruction
  (signersOf : Instruction → List Pubkey)

def Transaction.run (transaction : Transaction) (accounts : Finset Pubkey) : Option (Finset Pubkey) :=
  transaction.instructions.foldlM (fun accounts instruction => execute instruction accounts) accounts

def Transaction.signers (transaction : Transaction) : List Pubkey :=
  transaction.feePayer :: transaction.instructions.flatMap signersOf

end

/-- What transactions ask the network. -/
structure TransactionNetwork where
  getAccountInfo : Pubkey → Throwing (Option Bytes)
  /-- `program.account.lockEscrow.fetchNullable` -/
  fetchNullable : Pubkey → Throwing (Option LockEscrowAccount)

section Accounts

-- `getAssociatedTokenAddressSync` of `@solana/spl-token`, whose owner may be off the curve
variable (getAssociatedTokenAddressSync : Pubkey → Pubkey → Pubkey)

def getAssociatedTokenAccount (tokenMint owner : Pubkey) : Pubkey := getAssociatedTokenAddressSync tokenMint owner

def getOrCreateATAInstruction (network : TransactionNetwork) (tokenMint owner : Pubkey) (payer : Option Pubkey) :
    Throwing (Pubkey × Option Instruction) := do
  let toAccount := getAssociatedTokenAccount getAssociatedTokenAddressSync tokenMint owner
  match ← network.getAccountInfo toAccount with
  | none => pure (toAccount, some (.createAssociatedTokenAccount (payer.getD owner) toAccount owner tokenMint))
  | some _ => pure (toAccount, none)

def wrapSOLInstruction (fromPubkey toPubkey : Pubkey) (amount : Int) : List Instruction :=
  [.transfer fromPubkey toPubkey amount, .syncNative toPubkey]

def unwrapSOLInstruction (owner : Pubkey) : Instruction :=
  .closeAccount (getAssociatedTokenAccount getAssociatedTokenAddressSync nativeMint owner) owner owner

end Accounts

/-! ### Accounts of a curve -/

def StableSwap.getRemainingAccounts (curve : StableSwap) (depeg : Depeg) : List Pubkey :=
  (if depeg.depegType = .marinade then [marinadeAccount] else []) ++
    (if depeg.depegType = .lido then [lidoAccount] else []) ++
    (if curve.stakePoolPubkey ≠ .replicate 0 then [curve.stakePoolPubkey] else [])

def SwapCurve.getRemainingAccounts (swapCurve : SwapCurve) (poolState : PoolState) : List Pubkey :=
  match swapCurve with
  | .stable curve => curve.getRemainingAccounts poolState.depeg
  | .constantProduct => []

/-! ### Transactions of a pool -/

namespace Loading

/-- A pool with the rest of what its transactions name. -/
structure TradableAmm extends AmmImpl where
  protocolTokenAFee : Pubkey
  protocolTokenBFee : Pubkey
  programId : Pubkey
  vaultProgramId : Pubkey

namespace TradableAmm

variable (getAssociatedTokenAddressSync : Pubkey → Pubkey → Pubkey)
  (findProgramAddressSync : List Bytes → Pubkey → Pubkey) (network : TransactionNetwork) (amm : TradableAmm)

/-- The accounts that every instruction names which moves tokens between the pool and its vaults. -/
def vaultAccounts : List (String × Pubkey) :=
  [("aTokenVault", amm.vaultA.vaultState.tokenVault), ("bTokenVault", amm.vaultB.vaultState.tokenVault),
    ("aVault", amm.poolState.aVault), ("bVault", amm.poolState.bVault), ("aVaultLp", amm.poolState.aVaultLp),
    ("bVaultLp", amm.poolState.bVaultLp), ("aVaultLpMint", amm.vaultA.vaultState.lpMint),
    ("bVaultLpMint", amm.vaultB.vaultState.lpMint), ("pool", amm.pool), ("tokenProgram", tokenProgramId),
    ("vaultProgram", amm.vaultProgramId)]

def tradesNative : Bool := amm.tokenAMint = nativeMint || amm.tokenBMint = nativeMint

/-- The account that receives the host fee, and the instruction that creates it. -/
def referralAccounts (owner inTokenMint : Pubkey) (referralOwner : Option Pubkey) :
    Throwing (List Pubkey × Option Instruction) :=
  match referralOwner with
  | none => pure ([], none)
  | some referralOwner => do
      let (referralTokenAccount, createReferralTokenAccountIx) ←
        getOrCreateATAInstruction getAssociatedTokenAddressSync network inTokenMint referralOwner (some owner)
      pure ([referralTokenAccount], createReferralTokenAccountIx)

def swap (owner inTokenMint : Pubkey) (inAmountLamport outAmountLamport : Int) (referralOwner : Option Pubkey) :
    Throwing Transaction := do
  let (sourceToken, destinationToken) :=
    if amm.tokenAMint = inTokenMint then (amm.poolState.tokenAMint, amm.poolState.tokenBMint)
    else (amm.poolState.tokenBMint, amm.poolState.tokenAMint)
  let protocolTokenFee := if amm.tokenAMint = inTokenMint then amm.protocolTokenAFee else amm.protocolTokenBFee
  let (userSourceToken, createUserSourceIx) ←
    getOrCreateATAInstruction getAssociatedTokenAddressSync network sourceToken owner none
  let (userDestinationToken, createUserDestinationIx) ←
    getOrCreateATAInstruction getAssociatedTokenAddressSync network destinationToken owner none
  let wrapIx := if sourceToken = nativeMint then wrapSOLInstruction owner userSourceToken inAmountLamport else []
  let postInstructions :=
    if destinationToken = nativeMint then [unwrapSOLInstruction getAssociatedTokenAddressSync owner] else []
  let (referralAccount, createReferralTokenAccountIx) ←
    referralAccounts getAssociatedTokenAddressSync network owner inTokenMint referralOwner
  let preInstructions := createUserSourceIx.toList ++ createUserDestinationIx.toList ++ wrapIx ++
    createReferralTokenAccountIx.toList
  let swapIx := .amm (.swap inAmountLamport outAmountLamport)
    (amm.vaultAccounts ++ [("userSourceToken", userSourceToken), ("userDestinationToken", userDestinationToken),
      ("user", owner), ("protocolTokenFee", protocolTokenFee)])
    (amm.swapCurve.getRemainingAccounts amm.poolState.toPoolState ++ referralAccount)
  pure { feePayer := owner, instructions := preInstructions ++ swapIx :: postInstructions }

def deposit (owner : Pubkey) (tokenAInAmount tokenBInAmount poolTokenAmount : Int) : Throwing Transaction := do
  let (userAToken, createTokenAIx) ←
    getOrCreateATAInstruction getAssociatedTokenAddressSync network amm.poolState.tokenAMint owner none
  let (userBToken, createTokenBIx) ←
    getOrCreateATAInstruction getAssociatedTokenAddressSync network amm.poolState.tokenBMint owner none
  let (userPoolLp, createLpMintIx) ←
    getOrCreateATAInstruction getAssociatedTokenAddressSync network amm.poolState.lpMint owner none
  let wrapAIx := if amm.tokenAMint = nativeMint then wrapSOLInstruction owner userAToken tokenAInAmount else []
  let wrapBIx := if amm.tokenBMint = nativeMint then wrapSOLInstruction owner userBToken tokenBInAmount else []
  let preInstructions :=
    createTokenAIx.toList ++ createTokenBIx.toList ++ createLpMintIx.toList ++ wrapAIx ++ wrapBIx
  let postInstructions :=
    if amm.tradesNative then [unwrapSOLInstruction getAssociatedTokenAddressSync owner] else []
  let programMethod :=
    if amm.poolState.lpSupply = 0 then .bootstrapLiquidity tokenAInAmount tokenBInAmount
    else if amm.poolState.isStablePool then .addImbalanceLiquidity poolTokenAmount tokenAInAmount tokenBInAmount
    else .addBalanceLiquidity poolTokenAmount tokenAInAmount tokenBInAmount
  let depositIx := .amm programMethod
    (amm.vaultAccounts ++ [("user", owner), ("userAToken", userAToken), ("userBToken", userBToken),
      ("lpMint", amm.poolState.lpMint), ("userPoolLp", userPoolLp)])
    (amm.swapCurve.getRemainingAccounts amm.poolState.toPoolState)
  pure { feePayer := owner, instructions := preInstructions ++ depositIx :: postInstructions }

def withdraw (owner : Pubkey) (lpTokenAmount tokenAOutAmount tokenBOutAmount : Int) : Throwing Transaction := do
  let (userAToken, createUserAIx) ←
    getOrCreateATAInstruction getAssociatedTokenAddressSync network amm.poolState.tokenAMint owner none
  let (userBToken, createUserBIx) ←
    getOrCreateATAInstruction getAssociatedTokenAddressSync network amm.poolState.tokenBMint owner none
  let (userPoolLp, createLpTokenIx) ←
    getOrCreateATAInstruction getAssociatedTokenAddressSync network amm.poolState.lpMint owner none
  let preInstructions := createUserAIx.toList ++ createUserBIx.toList ++ createLpTokenIx.toList
  let postInstructions :=
    if amm.tradesNative then [unwrapSOLInstruction getAssociatedTokenAddressSync owner] else []
  let remainingAccounts := amm.swapCurve.getRemainingAccounts amm.poolState.toPoolState
  let withdrawIx :=
    if amm.poolState.isStablePool && (tokenAOutAmount = 0 || tokenBOutAmount = 0) then
      .amm (.removeLiquiditySingleSide lpTokenAmount 0)
        (amm.vaultAccounts ++ [("lpMint", amm.poolState.lpMint),
          ("userDestinationToken", if tokenBOutAmount = 0 then userAToken else userBToken),
          ("userPoolLp", userPoolLp), ("user", owner)])
        remainingAccounts
    else
      .amm (.removeBalanceLiquidity lpTokenAmount tokenAOutAmount tokenBOutAmount)
        (amm.vaultAccounts ++ [("lpMint", amm.poolState.lpMint), ("userAToken", userAToken),
          ("userBToken", userBToken), ("user", owner), ("userPoolLp", userPoolLp)])
        remainingAccounts
  pure { feePayer := owner, instructions := preInstructions ++ withdrawIx :: postInstructions }

def lockAccounts (lockEscrow sourceTokens escrowVault owner : Pubkey) : List (String × Pubkey) :=
  [("pool", amm.pool), ("lockEscrow", lockEscrow), ("owner", owner), ("lpMint", amm.poolState.lpMint),
    ("sourceTokens", sourceTokens), ("escrowVault", escrowVault), ("tokenProgram", tokenProgramId),
    ("aVault", amm.poolState.aVault), ("bVault", amm.poolState.bVault), ("aVaultLp", amm.poolState.aVaultLp),
    ("bVaultLp", amm.poolState.bVaultLp), ("aVaultLpMint", amm.vaultA.vaultState.lpMint),
    ("bVaultLpMint", amm.vaultB.vaultState.lpMint)]

def createLockEscrow (owner payer lockEscrowPK : Pubkey) : Throwing (List Instruction) := do
  match ← network.fetchNullable lockEscrowPK with
  | none => pure [.amm .createLockEscrow
      [("pool", amm.pool), ("lockEscrow", lockEscrowPK), ("owner", owner), ("lpMint", amm.poolState.lpMint),
        ("payer", payer), ("systemProgram", systemProgramId)] []]
  | some _ => pure []

def lockLiquidity (owner : Pubkey) (amount : Int) (feePayer : Option Pubkey) : Throwing Transaction := do
  let payer := feePayer.getD owner
  let lockEscrowPK ← deriveLockEscrowPda findProgramAddressSync amm.pool owner amm.programId
  let createLockEscrowIx ← amm.createLockEscrow network owner payer lockEscrowPK
  let (userAta, createUserAtaIx) ← getOrCreateATAInstruction getAssociatedTokenAddressSync network
    amm.poolState.lpMint payer (some payer)
  let (escrowAta, createEscrowAtaIx) ← getOrCreateATAInstruction getAssociatedTokenAddressSync network
    amm.poolState.lpMint lockEscrowPK (some payer)
  let preInstructions := createLockEscrowIx ++ createUserAtaIx.toList ++ createEscrowAtaIx.toList
  let lockIx := .amm (.lock amount) (amm.lockAccounts lockEscrowPK userAta escrowAta payer) []
  pure { feePayer := payer, instructions := preInstructions ++ [lockIx] }

def claimLockFee (owner : Pubkey) (maxAmount : Int) : Throwing Transaction := do
  let lockEscrowPK ← deriveLockEscrowPda findProgramAddressSync amm.pool owner amm.programId
  let (userAta, createUserAtaIx) ←
    getOrCreateATAInstruction getAssociatedTokenAddressSync network amm.poolState.lpMint owner none
  let (escrowAta, createEscrowAtaIx) ←
    getOrCreateATAInstruction getAssociatedTokenAddressSync network amm.poolState.lpMint lockEscrowPK none
  let (tokenAAta, createTokenAAtaIx) ←
    getOrCreateATAInstruction getAssociatedTokenAddressSync network amm.poolState.tokenAMint owner none
  let (tokenBAta, createTokenBAtaIx) ←
    getOrCreateATAInstruction getAssociatedTokenAddressSync network amm.poolState.tokenBMint owner none
  let preInstructions := createUserAtaIx.toList ++ createEscrowAtaIx.toList ++ createTokenAAtaIx.toList ++
    createTokenBAtaIx.toList
  let postInstructions :=
    if amm.poolState.tokenAMint = nativeMint ∨ amm.poolState.tokenBMint = nativeMint then
      [unwrapSOLInstruction getAssociatedTokenAddressSync owner]
    else []
  let claimFeeIx := .amm (.claimFee maxAmount)
    (amm.lockAccounts lockEscrowPK userAta escrowAta owner ++ [("vaultProgram", amm.vaultProgramId),
      ("aTokenVault", amm.vaultA.vaultState.tokenVault), ("bTokenVault", amm.vaultB.vaultState.tokenVault),
      ("userAToken", tokenAAta), ("userBToken", tokenBAta)])
    []
  pure { feePayer := owner, instructions := preInstructions ++ claimFeeIx :: postInstructions }

/-! ### Requests -/

/-- A call of one of the functions that build a transaction. -/
inductive Request where
  | swap (owner inTokenMint : Pubkey) (inAmountLamport outAmountLamport : Int) (referralOwner : Option Pubkey)
  | deposit (owner : Pubkey) (tokenAInAmount tokenBInAmount poolTokenAmount : Int)
  | withdraw (owner : Pubkey) (lpTokenAmount tokenAOutAmount tokenBOutAmount : Int)
  | lockLiquidity (owner : Pubkey) (amount : Int) (feePayer : Option Pubkey)
  | claimLockFee (owner : Pubkey) (maxAmount : Int)

def build : Request → Throwing Transaction
  | .swap owner inTokenMint inAmountLamport outAmountLamport referralOwner =>
      amm.swap getAssociatedTokenAddressSync network owner inTokenMint inAmountLamport outAmountLamport referralOwner
  | .deposit owner tokenAInAmount tokenBInAmount poolTokenAmount =>
      amm.deposit getAssociatedTokenAddressSync network owner tokenAInAmount tokenBInAmount poolTokenAmount
  | .withdraw owner lpTokenAmount tokenAOutAmount tokenBOutAmount =>
      amm.withdraw getAssociatedTokenAddressSync network owner lpTokenAmount tokenAOutAmount tokenBOutAmount
  | .lockLiquidity owner amount feePayer =>
      amm.lockLiquidity getAssociatedTokenAddressSync findProgramAddressSync network owner amount feePayer
  | .claimLockFee owner maxAmount =>
      amm.claimLockFee getAssociatedTokenAddressSync findProgramAddressSync network owner maxAmount

end TradableAmm

end Loading

end DynamicAmm.Client

import DynamicAmm.Base.Footprint
import DynamicAmm.Client.Transactions
import DynamicAmm.Proof.Client.Loading

/-!
# What transactions need

A transaction creates the token accounts that were missing when it was built, before the program's instruction that
uses them, and unwraps the native token last.
-/

namespace DynamicAmm.Client

open Js Footprint
open Program (Bytes Pubkey)

/-! ### The cluster -/

/-- Addresses that need not have an account. -/
def wallets : List String := ["user", "owner", "payer"]

/-- The accounts that the instruction initializes. -/
def Method.inits : Method → List String
  | .createLockEscrow => ["lockEscrow"]
  | _ => []

/-- The accounts under other names. -/
def others (names : List String) (accounts : List (String × Pubkey)) : List Pubkey :=
  (accounts.filter fun account => account.1 ∉ names).map Prod.snd

/-- What the programs of the cluster do, as far as it depends on which accounts are initialized. A token account is
created of a mint that there is, if there is none yet. One that there is can be synchronized and closed. A transfer
initializes nothing. The program needs all accounts that are passed to it, but for wallets, and the one that it
initializes must not be there yet. -/
structure Executes (execute : Instruction → Finset Pubkey → Option (Finset Pubkey)) : Prop where
  createAssociatedTokenAccount : ∀ payer associatedToken owner mint keys,
    execute (.createAssociatedTokenAccount payer associatedToken owner mint) keys =
      if mint ∈ keys ∧ associatedToken ∉ keys then some (insert associatedToken keys) else none
  transfer : ∀ fromPubkey toPubkey lamports keys, execute (.transfer fromPubkey toPubkey lamports) keys = some keys
  syncNative : ∀ pubkey keys, execute (.syncNative pubkey) keys = if pubkey ∈ keys then some keys else none
  closeAccount : ∀ account destination authority keys, execute (.closeAccount account destination authority) keys =
    if account ∈ keys then some (keys.erase account) else none
  amm : ∀ method accounts remainingAccounts keys, execute (.amm method accounts remainingAccounts) keys =
    if (∀ key ∈ others (wallets ++ method.inits) accounts ++ remainingAccounts, key ∈ keys) ∧
        ∀ key ∈ named method.inits accounts, key ∉ keys then
      some (keys ∪ (named method.inits accounts).toFinset)
    else none

def Instruction.footprint : Instruction → Footprint Pubkey
  | .createAssociatedTokenAccount _ associatedToken _ mint => ⟨{mint}, {associatedToken}, ∅⟩
  | .transfer _ _ _ => ⟨∅, ∅, ∅⟩
  | .syncNative pubkey => ⟨{pubkey}, ∅, ∅⟩
  | .closeAccount account _ _ => ⟨{account}, ∅, {account}⟩
  | .amm method accounts remainingAccounts =>
      ⟨(others (wallets ++ method.inits) accounts ++ remainingAccounts).toFinset,
        (named method.inits accounts).toFinset, ∅⟩

section Cluster

variable {execute : Instruction → Finset Pubkey → Option (Finset Pubkey)}

theorem Executes.step (h : Executes execute) (instruction : Instruction) (keys : Finset Pubkey) :
    execute instruction keys = instruction.footprint.step keys := by
  cases instruction with
  | createAssociatedTokenAccount payer associatedToken owner mint =>
      rw [h.createAssociatedTokenAccount]
      simp [Instruction.footprint, Footprint.step, Fits, after]
  | transfer fromPubkey toPubkey lamports =>
      rw [h.transfer]
      simp [Instruction.footprint, Footprint.step, Fits, after]
  | syncNative pubkey =>
      rw [h.syncNative]
      simp [Instruction.footprint, Footprint.step, Fits, after]
  | closeAccount account destination authority =>
      rw [h.closeAccount]
      simp [Instruction.footprint, Footprint.step, Fits, after, Finset.sdiff_singleton_eq_erase]
  | amm method accounts remainingAccounts =>
      rw [h.amm]
      simp only [Instruction.footprint, Footprint.step, Fits, after, Finset.sdiff_empty, Finset.subset_iff,
        Finset.disjoint_left, List.mem_toFinset]

theorem Executes.run (h : Executes execute) (tx : Transaction) (keys : Finset Pubkey) :
    tx.run execute keys = Footprint.run (tx.instructions.map Instruction.footprint) keys := by
  simp only [Transaction.run, Footprint.run, h.step, List.foldlM_map]

end Cluster

/-! ### The network -/

/-- The network's answers are about these accounts. -/
structure TransactionNetwork.Shows (network : TransactionNetwork) (accounts : Finset Pubkey) : Prop where
  getAccountInfo : ∀ key ∈ accounts, ∃ data, network.getAccountInfo key = .ok (some data)
  getAccountInfo_missing : ∀ key ∉ accounts, network.getAccountInfo key = .ok none
  fetchNullable : ∀ key ∈ accounts, network.fetchNullable key ≠ .ok none
  fetchNullable_missing : ∀ key ∉ accounts, network.fetchNullable key = .ok none

variable {getAssociatedTokenAddressSync : Pubkey → Pubkey → Pubkey}
  {findProgramAddressSync : List Bytes → Pubkey → Pubkey} {network : TransactionNetwork}
  {seen accounts accounts' : Finset Pubkey}

section Created

variable (getAssociatedTokenAddressSync) (seen)

def creation (tokenMint owner payer : Pubkey) : List Instruction :=
  if getAssociatedTokenAddressSync tokenMint owner ∈ seen then []
  else [.createAssociatedTokenAccount payer (getAssociatedTokenAddressSync tokenMint owner) owner tokenMint]

/-- The token account as an item that needs its mint. -/
def tokenAccount (tokenMint owner : Pubkey) : Finset Pubkey × Pubkey :=
  ({tokenMint}, getAssociatedTokenAddressSync tokenMint owner)

end Created

theorem toList_head?_creation (tokenMint owner payer : Pubkey) :
    (creation getAssociatedTokenAddressSync seen tokenMint owner payer).head?.toList =
      creation getAssociatedTokenAddressSync seen tokenMint owner payer := by
  rw [creation]
  split_ifs <;> rfl

theorem getOrCreateATAInstruction_eq (h : network.Shows seen) (tokenMint owner : Pubkey) (payer : Option Pubkey) :
    getOrCreateATAInstruction getAssociatedTokenAddressSync network tokenMint owner payer =
      .ok (getAssociatedTokenAddressSync tokenMint owner,
        (creation getAssociatedTokenAddressSync seen tokenMint owner (payer.getD owner)).head?) := by
  rw [getOrCreateATAInstruction, creation, getAssociatedTokenAccount]
  split_ifs with hseen
  · obtain ⟨data, hdata⟩ := h.getAccountInfo _ hseen
    rw [hdata]
    rfl
  · rw [h.getAccountInfo_missing _ hseen]
    rfl

/-! ### The program's instructions -/

section Needs

variable {method : Method} {listed listed' : List (String × Pubkey)} {remainingAccounts : List Pubkey} {key : Pubkey}

end Needs

namespace Loading.TradableAmm

variable (getAssociatedTokenAddressSync findProgramAddressSync) (amm : TradableAmm)

/-- The accounts of the pool, which are there as long as it is. -/
def poolAccounts : Finset Pubkey :=
  (amm.vaultAccounts.map Prod.snd ++ [amm.poolState.tokenAMint, amm.poolState.tokenBMint, amm.poolState.lpMint,
    amm.protocolTokenAFee, amm.protocolTokenBFee, systemProgramId] ++
    amm.swapCurve.getRemainingAccounts amm.poolState.toPoolState).toFinset

/-- The escrow of an owner. -/
def lockEscrow (owner : Pubkey) : Pubkey :=
  findProgramAddressSync [Program.text "lock_escrow", amm.pool.bytes, owner.bytes] amm.programId

/-- The vaults hold the tokens of the pool. -/
structure Matches : Prop where
  tokenAMint : amm.tokenAMint = amm.poolState.tokenAMint
  tokenBMint : amm.tokenBMint = amm.poolState.tokenBMint

def sourceToken (inTokenMint : Pubkey) : Pubkey :=
  if amm.tokenAMint = inTokenMint then amm.poolState.tokenAMint else amm.poolState.tokenBMint

def destinationToken (inTokenMint : Pubkey) : Pubkey :=
  if amm.tokenAMint = inTokenMint then amm.poolState.tokenBMint else amm.poolState.tokenAMint

/-- The accounts of the users that a request looks for. -/
def asked : Request → List (Finset Pubkey × Pubkey)
  | .swap owner inTokenMint _ _ referralOwner =>
      [tokenAccount getAssociatedTokenAddressSync (amm.sourceToken inTokenMint) owner,
        tokenAccount getAssociatedTokenAddressSync (amm.destinationToken inTokenMint) owner] ++
        referralOwner.toList.map (tokenAccount getAssociatedTokenAddressSync inTokenMint)
  | .deposit owner _ _ _ => [tokenAccount getAssociatedTokenAddressSync amm.poolState.tokenAMint owner,
      tokenAccount getAssociatedTokenAddressSync amm.poolState.tokenBMint owner,
      tokenAccount getAssociatedTokenAddressSync amm.poolState.lpMint owner]
  | .withdraw owner _ _ _ => [tokenAccount getAssociatedTokenAddressSync amm.poolState.tokenAMint owner,
      tokenAccount getAssociatedTokenAddressSync amm.poolState.tokenBMint owner,
      tokenAccount getAssociatedTokenAddressSync amm.poolState.lpMint owner]
  | .lockLiquidity owner _ feePayer =>
      [({amm.pool, amm.poolState.lpMint, systemProgramId}, amm.lockEscrow findProgramAddressSync owner),
        tokenAccount getAssociatedTokenAddressSync amm.poolState.lpMint (feePayer.getD owner),
        tokenAccount getAssociatedTokenAddressSync amm.poolState.lpMint
          (amm.lockEscrow findProgramAddressSync owner)]
  | .claimLockFee owner _ => [tokenAccount getAssociatedTokenAddressSync amm.poolState.lpMint owner,
      tokenAccount getAssociatedTokenAddressSync amm.poolState.lpMint (amm.lockEscrow findProgramAddressSync owner),
      tokenAccount getAssociatedTokenAddressSync amm.poolState.tokenAMint owner,
      tokenAccount getAssociatedTokenAddressSync amm.poolState.tokenBMint owner]

/-- The addresses among them. -/
def askedKeys (request : Request) : Finset Pubkey :=
  ((amm.asked getAssociatedTokenAddressSync findProgramAddressSync request).map Prod.snd).toFinset

/-- The account of the wrapped native token that is closed at the end. -/
def unwrapped : Request → Option Pubkey
  | .swap owner inTokenMint _ _ _ =>
      if amm.destinationToken inTokenMint = nativeMint then some (getAssociatedTokenAddressSync nativeMint owner)
      else none
  | .lockLiquidity _ _ _ => none
  | .deposit owner _ _ _ | .withdraw owner _ _ _ | .claimLockFee owner _ =>
      if amm.tradesNative then some (getAssociatedTokenAddressSync nativeMint owner) else none

/-- The accounts among those looked for that the transaction uses. A withdrawal of one token leaves the account of
the other one alone, unless that is the native one. -/
def used : Request → Finset Pubkey
  | .withdraw owner lpTokenAmount tokenAOutAmount tokenBOutAmount =>
      if amm.poolState.isStablePool && (tokenAOutAmount = 0 || tokenBOutAmount = 0) then
        {getAssociatedTokenAddressSync
            (if tokenBOutAmount = 0 then amm.poolState.tokenAMint else amm.poolState.tokenBMint) owner,
          getAssociatedTokenAddressSync amm.poolState.lpMint owner} ∪
          (amm.unwrapped getAssociatedTokenAddressSync
            (.withdraw owner lpTokenAmount tokenAOutAmount tokenBOutAmount)).toFinset
      else amm.askedKeys getAssociatedTokenAddressSync findProgramAddressSync
        (.withdraw owner lpTokenAmount tokenAOutAmount tokenBOutAmount)
  | request => amm.askedKeys getAssociatedTokenAddressSync findProgramAddressSync request

variable {getAssociatedTokenAddressSync findProgramAddressSync} {amm} {owner : Pubkey} {tx : Transaction}

/-! ### Parts of a transaction -/

variable (findProgramAddressSync amm owner) in
theorem deriveLockEscrowPda_eq : deriveLockEscrowPda findProgramAddressSync amm.pool owner amm.programId =
    .ok (amm.lockEscrow findProgramAddressSync owner) := by
  rfl

theorem toList_head?_referral (inTokenMint : Pubkey) (referralOwner : Option Pubkey) :
    (referralOwner.toList.flatMap fun referralOwner =>
        creation getAssociatedTokenAddressSync seen inTokenMint referralOwner owner).head?.toList =
      referralOwner.toList.flatMap fun referralOwner =>
        creation getAssociatedTokenAddressSync seen inTokenMint referralOwner owner := by
  cases referralOwner with
  | none => rfl
  | some referralOwner => rw [Option.toList_some, List.flatMap_singleton, toList_head?_creation]

theorem referralAccounts_eq (hseen : network.Shows seen) (inTokenMint : Pubkey) (referralOwner : Option Pubkey) :
    referralAccounts getAssociatedTokenAddressSync network owner inTokenMint referralOwner =
      .ok (referralOwner.toList.map (getAssociatedTokenAddressSync inTokenMint),
        (referralOwner.toList.flatMap fun referralOwner =>
          creation getAssociatedTokenAddressSync seen inTokenMint referralOwner owner).head?) := by
  cases referralOwner with
  | none => rfl
  | some referralOwner =>
      rw [referralAccounts, getOrCreateATAInstruction_eq hseen, Option.toList_some, List.flatMap_singleton]
      rfl

variable (amm) in
theorem tokens_eq (inTokenMint : Pubkey) : (if amm.tokenAMint = inTokenMint then
      (amm.poolState.tokenAMint, amm.poolState.tokenBMint)
    else (amm.poolState.tokenBMint, amm.poolState.tokenAMint)) =
      (amm.sourceToken inTokenMint, amm.destinationToken inTokenMint) := by
  rw [sourceToken, destinationToken]
  split_ifs <;> rfl

section Requests

variable (getAssociatedTokenAddressSync findProgramAddressSync amm)

/-- A swap sells a token of the pool. -/
def Trades : Request → Prop
  | .swap _ inTokenMint _ _ _ => inTokenMint = amm.poolState.tokenAMint ∨ inTokenMint = amm.poolState.tokenBMint
  | _ => True

/-- What the builders leave to the caller. No two accounts that the request looks for are one, unless it is there. -/
structure Proper (seen : Finset Pubkey) (request : Request) : Prop where
  trades : amm.Trades request
  distinct : Distinct seen (amm.asked getAssociatedTokenAddressSync findProgramAddressSync request)

/-- What has to be there without the client looking for it: the pool, and the escrow that a claim is about. -/
def presupposed : Request → Finset Pubkey
  | .claimLockFee owner _ => insert (amm.lockEscrow findProgramAddressSync owner) amm.poolAccounts
  | _ => amm.poolAccounts

end Requests

variable {request : Request}

variable (getAssociatedTokenAddressSync) in
/-- The client answers every request, if each escrow's address holds an escrow or nothing. -/
theorem exists_build (hseen : network.Shows seen)
    (hescrow : ∀ owner, ∃ account, network.fetchNullable (amm.lockEscrow findProgramAddressSync owner) = .ok account)
    (request : Request) :
    ∃ tx, amm.build getAssociatedTokenAddressSync findProgramAddressSync network request = .ok tx := by
  cases request with
  | swap owner inTokenMint inAmountLamport outAmountLamport referralOwner =>
      simp only [build, swap, tokens_eq, getOrCreateATAInstruction_eq hseen, referralAccounts_eq hseen]
      exact ⟨_, rfl⟩
  | deposit owner tokenAInAmount tokenBInAmount poolTokenAmount =>
      simp only [build, deposit, getOrCreateATAInstruction_eq hseen]
      exact ⟨_, rfl⟩
  | withdraw owner lpTokenAmount tokenAOutAmount tokenBOutAmount =>
      simp only [build, withdraw, getOrCreateATAInstruction_eq hseen]
      exact ⟨_, rfl⟩
  | lockLiquidity owner amount feePayer =>
      obtain ⟨account, haccount⟩ := hescrow owner
      simp only [build, lockLiquidity, createLockEscrow, deriveLockEscrowPda_eq, getOrCreateATAInstruction_eq hseen]
      cases account with
      | none => exact ⟨_, by rw [Js.bind_eq_ok]; exact ⟨_, rfl, by rw [haccount]; rfl⟩⟩
      | some account => exact ⟨_, by rw [Js.bind_eq_ok]; exact ⟨_, rfl, by rw [haccount]; rfl⟩⟩
  | claimLockFee owner maxAmount =>
      simp only [build, claimLockFee, deriveLockEscrowPda_eq, getOrCreateATAInstruction_eq hseen]
      exact ⟨_, rfl⟩

/-! ### A pool that trades the native token -/

section Sample

def sampleTradableAmm : TradableAmm where
  pool := .replicate 10
  tokenAMint := .replicate 1
  tokenBMint := nativeMint
  poolState := { samplePoolAccount (.replicate 1) nativeMint (.replicate 12) (.replicate 20) (.replicate 21)
    (.replicate 30) (.replicate 31) with lpSupply := 1000 }
  poolInfo := ⟨400, 100, 0, 0⟩
  vaultA := sampleVaults ⟨0, Nat.zero_lt_two⟩
  vaultB := sampleVaults ⟨1, Nat.one_lt_two⟩
  accountsInfo := ⟨0, 0, 400, 100, 900000, 800000, 500000, 700000, 1000⟩
  swapCurve := .constantProduct
  depegAccounts := .empty
  protocolTokenAFee := .replicate 40
  protocolTokenBFee := .replicate 41
  programId := .replicate 42
  vaultProgramId := .replicate 43

def sampleTokenAddress (tokenMint owner : Pubkey) : Pubkey :=
  ⟨200 :: (tokenMint.bytes.take 15 ++ owner.bytes.take 16), by simp [tokenMint.length_eq, owner.length_eq]⟩

def sampleProgramAddress (_ : List Bytes) (_ : Pubkey) : Pubkey := .replicate 99

def sampleLook (accounts : Finset Pubkey) : TransactionNetwork where
  getAccountInfo key := .ok (if key ∈ accounts then some [] else none)
  fetchNullable key := .ok (if key ∈ accounts then some ⟨key, 0, 0, 0, 0, 0⟩ else none)

theorem sampleLook_shows (accounts : Finset Pubkey) : (sampleLook accounts).Shows accounts where
  getAccountInfo key hkey := ⟨[], by simp [sampleLook, hkey]⟩
  getAccountInfo_missing key hkey := by simp [sampleLook, hkey]
  fetchNullable key hkey := by simp [sampleLook, hkey]
  fetchNullable_missing key hkey := by simp [sampleLook, hkey]

theorem sampleLook_escrow (accounts : Finset Pubkey) (owner : Pubkey) : ∃ account, (sampleLook accounts).fetchNullable
    (sampleTradableAmm.lockEscrow sampleProgramAddress owner) = .ok account := ⟨_, rfl⟩

end Sample

/-! ### Referrals -/

end Loading.TradableAmm

end DynamicAmm.Client

import DynamicAmm.Proof.Client.Transactions

/-!
# Who signs

The sender of a transaction signs it. A claim whose escrow has no token account yet also asks for the signature of
the escrow, which is a derived address and has no key.
-/

namespace DynamicAmm.Client

open Js Footprint
open Program (Bytes Pubkey)

/-- Who the packages let sign an instruction: the one who pays or gives up an account, and of the program's accounts
the one that is declared a signer. -/
structure MarksSigners (signersOf : Instruction → List Pubkey) : Prop where
  createAssociatedTokenAccount : ∀ payer associatedToken owner mint,
    signersOf (.createAssociatedTokenAccount payer associatedToken owner mint) = [payer]
  transfer : ∀ fromPubkey toPubkey lamports, signersOf (.transfer fromPubkey toPubkey lamports) = [fromPubkey]
  syncNative : ∀ pubkey, signersOf (.syncNative pubkey) = []
  closeAccount : ∀ account destination authority, signersOf (.closeAccount account destination authority) = [authority]
  amm : ∀ method accounts remainingAccounts,
    signersOf (.amm method accounts remainingAccounts) = named [method.signer] accounts

namespace Loading.TradableAmm

variable {signersOf : Instruction → List Pubkey} {getAssociatedTokenAddressSync : Pubkey → Pubkey → Pubkey}
  {findProgramAddressSync : List Bytes → Pubkey → Pubkey} {network : TransactionNetwork}
  {seen : Finset Pubkey} {amm : TradableAmm} {owner : Pubkey} {tx : Transaction} {request : Request}

section Signers

variable {payer : Pubkey}

theorem signers_creation (hsigners : MarksSigners signersOf) {tokenMint holder key : Pubkey}
    (h : key ∈ (creation getAssociatedTokenAddressSync seen tokenMint holder payer).flatMap signersOf) :
    key = payer ∧ getAssociatedTokenAddressSync tokenMint holder ∉ seen := by
  rw [creation] at h
  split_ifs at h with hmem
  · cases h
  · exact ⟨by simpa [hsigners.createAssociatedTokenAccount] using h, hmem⟩

theorem signers_wrap (hsigners : MarksSigners signersOf) {native : Prop} [Decidable native] {toPubkey : Pubkey}
    {amount : Int} {key : Pubkey}
    (h : key ∈ (if native then wrapSOLInstruction payer toPubkey amount else []).flatMap signersOf) :
    key = payer := by
  split_ifs at h
  · simpa [wrapSOLInstruction, hsigners.transfer, hsigners.syncNative] using h
  · cases h

theorem signers_unwrap (hsigners : MarksSigners signersOf) {native : Prop} [Decidable native] {key : Pubkey}
    (h : key ∈ (if native then [unwrapSOLInstruction getAssociatedTokenAddressSync payer] else []).flatMap
      signersOf) : key = payer := by
  split_ifs at h
  · simpa [unwrapSOLInstruction, hsigners.closeAccount] using h
  · cases h

end Signers

section Requests

variable (getAssociatedTokenAddressSync findProgramAddressSync amm)

def sender : Request → Pubkey
  | .swap owner _ _ _ _ => owner
  | .deposit owner _ _ _ => owner
  | .withdraw owner _ _ _ => owner
  | .lockLiquidity owner _ feePayer => feePayer.getD owner
  | .claimLockFee owner _ => owner

/-- The escrow, which a claim lets pay for its own token account if that is missing. -/
def escrowSigner (seen : Finset Pubkey) : Request → Option Pubkey
  | .claimLockFee owner _ =>
      if getAssociatedTokenAddressSync amm.poolState.lpMint (amm.lockEscrow findProgramAddressSync owner) ∈ seen then
        none
      else some (amm.lockEscrow findProgramAddressSync owner)
  | _ => none

end Requests

/-- The user signs the instructions that move tokens. -/
theorem signers_amm (hsigners : MarksSigners signersOf) {method : Method} (hmethod : method.signer = "user")
    {rest : List (String × Pubkey)}
    {remainingAccounts : List Pubkey} (hrest : named ["user"] rest = [owner]) {key : Pubkey} :
    key ∈ signersOf (.amm method (amm.vaultAccounts ++ rest) remainingAccounts) ↔ key = owner := by
  have hvaults : named ["user"] amm.vaultAccounts = [] := by simp [named, vaultAccounts]
  rw [hsigners.amm, hmethod, named, List.filter_append, List.map_append, ← named, ← named, hvaults, hrest,
    List.nil_append, List.mem_singleton]

theorem createLockEscrow_signers (hsigners : MarksSigners signersOf) {payer lockEscrow : Pubkey}
    {createIx : List Instruction}
    (hcreate : amm.createLockEscrow network owner payer lockEscrow = .ok createIx) {key : Pubkey}
    (h : key ∈ createIx.flatMap signersOf) : key = payer := by
  rw [createLockEscrow, Js.bind_eq_ok] at hcreate
  obtain ⟨account, -, hcreate⟩ := hcreate
  cases account with
  | none =>
      cases hcreate
      simpa [hsigners.amm, Method.signer, named] using h
  | some account =>
      cases hcreate
      cases h

theorem swap_signers (hsigners : MarksSigners signersOf) (hseen : network.Shows seen) {inTokenMint : Pubkey}
    {inAmountLamport outAmountLamport : Int}
    {referralOwner : Option Pubkey}
    (hbuild : amm.swap getAssociatedTokenAddressSync network owner inTokenMint inAmountLamport outAmountLamport
      referralOwner = .ok tx) (key : Pubkey) : key ∈ tx.signers signersOf ↔ key = owner := by
  simp only [swap, tokens_eq, getOrCreateATAInstruction_eq hseen, referralAccounts_eq hseen, Js.bind_eq_ok,
    Except.ok.injEq, exists_eq_left'] at hbuild
  cases hbuild
  simp only [Transaction.signers, toList_head?_creation, toList_head?_referral, List.flatMap_append,
    List.flatMap_cons, List.mem_cons, List.mem_append]
  refine or_iff_left_of_imp ?_
  rintro ((((h | h) | h) | h) | h | h)
  · exact (signers_creation hsigners h).1
  · exact (signers_creation hsigners h).1
  · exact signers_wrap hsigners h
  · rw [List.flatMap_assoc, List.mem_flatMap] at h
    obtain ⟨referralOwner, -, h⟩ := h
    exact (signers_creation hsigners h).1
  · exact (signers_amm hsigners rfl (by simp [named])).mp h
  · exact signers_unwrap hsigners h

theorem deposit_signers (hsigners : MarksSigners signersOf) (hseen : network.Shows seen)
    {tokenAInAmount tokenBInAmount poolTokenAmount : Int}
    (hbuild : amm.deposit getAssociatedTokenAddressSync network owner tokenAInAmount tokenBInAmount poolTokenAmount =
      .ok tx) (key : Pubkey) : key ∈ tx.signers signersOf ↔ key = owner := by
  simp only [deposit, getOrCreateATAInstruction_eq hseen, Js.bind_eq_ok, Except.ok.injEq, exists_eq_left'] at hbuild
  cases hbuild
  simp only [Transaction.signers, toList_head?_creation, List.flatMap_append, List.flatMap_cons,
    List.mem_cons, List.mem_append]
  refine or_iff_left_of_imp ?_
  rintro (((((h | h) | h) | h) | h) | h | h)
  · exact (signers_creation hsigners h).1
  · exact (signers_creation hsigners h).1
  · exact (signers_creation hsigners h).1
  · exact signers_wrap hsigners h
  · exact signers_wrap hsigners h
  · exact (signers_amm hsigners (by split_ifs <;> rfl) (by simp [named])).mp h
  · exact signers_unwrap hsigners h

theorem withdraw_signers (hsigners : MarksSigners signersOf) (hseen : network.Shows seen)
    {lpTokenAmount tokenAOutAmount tokenBOutAmount : Int}
    (hbuild : amm.withdraw getAssociatedTokenAddressSync network owner lpTokenAmount tokenAOutAmount tokenBOutAmount =
      .ok tx) (key : Pubkey) : key ∈ tx.signers signersOf ↔ key = owner := by
  simp only [withdraw, getOrCreateATAInstruction_eq hseen, Js.bind_eq_ok, Except.ok.injEq, exists_eq_left'] at hbuild
  cases hbuild
  simp only [Transaction.signers, toList_head?_creation, List.flatMap_append, List.flatMap_cons,
    List.mem_cons, List.mem_append]
  refine or_iff_left_of_imp ?_
  rintro (((h | h) | h) | h | h)
  · exact (signers_creation hsigners h).1
  · exact (signers_creation hsigners h).1
  · exact (signers_creation hsigners h).1
  · split_ifs at h <;> exact (signers_amm hsigners rfl (by simp [named])).mp h
  · exact signers_unwrap hsigners h

theorem lockLiquidity_signers (hsigners : MarksSigners signersOf) (hseen : network.Shows seen) {amount : Int}
    {feePayer : Option Pubkey}
    (hbuild : amm.lockLiquidity getAssociatedTokenAddressSync findProgramAddressSync network owner amount feePayer =
      .ok tx) (key : Pubkey) : key ∈ tx.signers signersOf ↔ key = feePayer.getD owner := by
  simp only [lockLiquidity, deriveLockEscrowPda_eq, getOrCreateATAInstruction_eq hseen, Js.bind_eq_ok, Except.ok.injEq,
    exists_eq_left'] at hbuild
  obtain ⟨createIx, hcreate, hbuild⟩ := hbuild
  cases hbuild
  simp only [Transaction.signers, toList_head?_creation, List.flatMap_append, List.flatMap_cons,
    List.flatMap_nil, List.append_nil, List.mem_cons, List.mem_append]
  refine or_iff_left_of_imp ?_
  rintro (((h | h) | h) | h)
  · exact createLockEscrow_signers hsigners hcreate h
  · exact (signers_creation hsigners h).1
  · exact (signers_creation hsigners h).1
  · simpa [hsigners.amm, Method.signer, named, lockAccounts] using h

theorem claimLockFee_signers (hsigners : MarksSigners signersOf) (hseen : network.Shows seen) {maxAmount : Int}
    (hbuild : amm.claimLockFee getAssociatedTokenAddressSync findProgramAddressSync network owner maxAmount = .ok tx)
    (key : Pubkey) :
    key ∈ tx.signers signersOf ↔ key = owner ∨
      key ∈ amm.escrowSigner getAssociatedTokenAddressSync findProgramAddressSync seen
        (.claimLockFee owner maxAmount) := by
  simp only [claimLockFee, deriveLockEscrowPda_eq, getOrCreateATAInstruction_eq hseen, Js.bind_eq_ok, Except.ok.injEq,
    exists_eq_left'] at hbuild
  cases hbuild
  simp only [Transaction.signers, toList_head?_creation, List.flatMap_append,
    List.flatMap_cons, List.mem_cons, List.mem_append]
  refine or_congr_right' fun howner => ?_
  constructor
  · rintro ((((h | h) | h) | h) | h | h)
    · exact absurd (signers_creation hsigners h).1 howner
    · obtain ⟨rfl, hmissing⟩ := signers_creation hsigners h
      rw [escrowSigner, if_neg hmissing]
      rfl
    · exact absurd (signers_creation hsigners h).1 howner
    · exact absurd (signers_creation hsigners h).1 howner
    · exact absurd (by simpa [hsigners.amm, Method.signer, named, lockAccounts] using h) howner
    · exact absurd (signers_unwrap hsigners h) howner
  · intro h
    rw [escrowSigner, Option.mem_def, Option.ite_none_left_eq_some, Option.some.injEq] at h
    obtain ⟨hmissing, rfl⟩ := h
    refine .inl (.inl (.inl (.inr ?_)))
    rw [creation, if_neg hmissing]
    simp [hsigners.createAssociatedTokenAccount]

/-- The sender alone has to sign, unless a claim finds no token account of the escrow: then the escrow has to sign,
which is a derived address. -/
theorem signers_built (hsigners : MarksSigners signersOf) (hseen : network.Shows seen)
    (hbuild : amm.build getAssociatedTokenAddressSync findProgramAddressSync network request = .ok tx) (key : Pubkey) :
    key ∈ tx.signers signersOf ↔ key = sender request ∨
      key ∈ amm.escrowSigner getAssociatedTokenAddressSync findProgramAddressSync seen request := by
  cases request with
  | swap owner inTokenMint inAmountLamport outAmountLamport referralOwner =>
      rw [swap_signers hsigners hseen hbuild, sender, escrowSigner, iff_self_or]
      exact fun h => absurd h (Option.not_mem_none key)
      all_goals simp
  | deposit owner tokenAInAmount tokenBInAmount poolTokenAmount =>
      rw [deposit_signers hsigners hseen hbuild, sender, escrowSigner, iff_self_or]
      exact fun h => absurd h (Option.not_mem_none key)
      all_goals simp
  | withdraw owner lpTokenAmount tokenAOutAmount tokenBOutAmount =>
      rw [withdraw_signers hsigners hseen hbuild, sender, escrowSigner, iff_self_or]
      exact fun h => absurd h (Option.not_mem_none key)
      all_goals simp
  | lockLiquidity owner amount feePayer =>
      rw [lockLiquidity_signers hsigners hseen hbuild, sender, escrowSigner, iff_self_or]
      exact fun h => absurd h (Option.not_mem_none key)
      all_goals simp
  | claimLockFee owner maxAmount => exact claimLockFee_signers hsigners hseen hbuild key

def sampleSigners : Instruction → List Pubkey
  | .createAssociatedTokenAccount payer _ _ _ => [payer]
  | .transfer fromPubkey _ _ => [fromPubkey]
  | .syncNative _ => []
  | .closeAccount _ _ authority => [authority]
  | .amm method accounts _ => named [method.signer] accounts

theorem sampleSigners_marks : MarksSigners sampleSigners :=
  ⟨fun _ _ _ _ => rfl, fun _ _ _ => rfl, fun _ => rfl, fun _ _ _ => rfl, fun _ _ _ => rfl⟩

/-- A claim by one whose escrow has no token account. -/
theorem signers_built_sample :
    ∃ tx, sampleTradableAmm.build sampleTokenAddress sampleProgramAddress (sampleLook sampleTradableAmm.poolAccounts)
        (.claimLockFee (.replicate 50) 5) = .ok tx ∧
      sampleProgramAddress [] (.replicate 0) ∈ tx.signers sampleSigners := by
  obtain ⟨tx, hbuild⟩ := exists_build sampleTokenAddress (sampleLook_shows sampleTradableAmm.poolAccounts)
    (sampleLook_escrow _) (.claimLockFee (.replicate 50) 5)
  exact ⟨tx, hbuild, (signers_built sampleSigners_marks (sampleLook_shows _) hbuild _).mpr (.inr (by decide +kernel))⟩

end Loading.TradableAmm

end DynamicAmm.Client

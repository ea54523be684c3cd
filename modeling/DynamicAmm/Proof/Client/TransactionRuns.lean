import DynamicAmm.Proof.Client.Transactions

/-!
# When transactions go through

A transaction is built from one look at the accounts and lands later. It goes through exactly if each account that
it was built around is still as it was, and it leaves them all there, apart from the wrapped native token.
-/

namespace DynamicAmm.Client

open Js Footprint
open Program (Bytes Pubkey)

namespace Loading.TradableAmm

variable {getAssociatedTokenAddressSync : Pubkey → Pubkey → Pubkey}
  {findProgramAddressSync : List Bytes → Pubkey → Pubkey} {network : TransactionNetwork}
  {execute : Instruction → Finset Pubkey → Option (Finset Pubkey)} {seen accounts : Finset Pubkey} {amm : TradableAmm}
  {tx : Transaction} {request : Request}

section Steps

variable (getAssociatedTokenAddressSync findProgramAddressSync execute amm)

/-- The accounts change as a user of the pool sends what the client built, whenever that was, or in any way that
leaves the pool there. -/
inductive Step : Finset Pubkey → Finset Pubkey → Prop
  | send {network : TransactionNetwork} {seen accounts accounts' : Finset Pubkey} {request : Request}
      {tx : Transaction} (hseen : network.Shows seen) (hpool : amm.poolAccounts ⊆ seen)
      (hproper : amm.Proper getAssociatedTokenAddressSync findProgramAddressSync seen request)
      (hthere : amm.presupposed findProgramAddressSync request ⊆ accounts)
      (hbuild : amm.build getAssociatedTokenAddressSync findProgramAddressSync network request = .ok tx)
      (hrun : tx.run execute accounts = some accounts') : Step accounts accounts'
  | other {accounts accounts' : Finset Pubkey} (h : amm.poolAccounts ⊆ accounts → amm.poolAccounts ⊆ accounts') :
      Step accounts accounts'

end Steps

end Loading.TradableAmm

end DynamicAmm.Client

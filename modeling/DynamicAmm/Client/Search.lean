import DynamicAmm.Client.Idl
import DynamicAmm.Js.Map

/-!
# Searching accounts

The client finds accounts of the program by the bytes at an offset of their data: pools by a token, pool
configurations by who may create a pool with them, and lock escrows by their owner.
-/

namespace DynamicAmm.Client

open Js Schema
open Program (Bytes Pubkey)

structure Memcmp where
  offset : Nat
  bytes : Bytes

abbrev AccountRecord := Pubkey × Value

-- `program.account.<name>.all`
variable (all : String → List Memcmp → Throwing (List AccountRecord))

def searchPoolsByToken (tokenMint : Pubkey) : Throwing (List AccountRecord) := do
  let poolsForTokenAMint ← all "pool" [⟨8 + 32, tokenMint.bytes⟩]
  let poolsForTokenBMint ← all "pool" [⟨8 + 32 + 32, tokenMint.bytes⟩]
  pure (poolsForTokenAMint ++ poolsForTokenBMint)

def getPoolConfigsWithPoolCreatorAuthority (wallet : Pubkey) : Throwing (List AccountRecord) :=
  all "config" [⟨8 + 72, wallet.bytes⟩]

/-- The key of an escrow's entry is the text of its pool's address. -/
def lockEscrowEntry (escrow : AccountRecord) : Throwing (Pubkey × Value) :=
  match Record.get escrow.2 "pool" >>= Record.publicKey with
  | some pool => pure (pool, escrow.2)
  | none => .error "Cannot read properties of undefined (reading 'toBase58')"

def getLockedLpAmountByUser (userPubKey : Pubkey) : Throwing (JsMap Pubkey Value) := do
  let lockEscrows ← all "lockEscrow" [⟨8 + 32, userPubKey.bytes⟩]
  let entries ← lockEscrows.mapM lockEscrowEntry
  pure (JsMap.empty.setAll entries)

end DynamicAmm.Client

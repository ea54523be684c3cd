import DynamicAmm.Client.Updates
import DynamicAmm.Js.Keeps
import DynamicAmm.Proof.Client.Loading

/-!
# An updated object is a fresh one

Nothing that is done with an object changes which pool it is of. All the rest is assigned by an update, so
where `create` makes an object of the pool, an update turns any other object of it into the same one, whatever
quotes and failed updates that one has been through.
-/

namespace DynamicAmm.Client

open Js
open Program (Bytes Pubkey)

namespace Loading

variable {sdk : VaultSdk} {decoders : StakeDecoders} {toFixed : ℚ → Int} {sqrt : Int → Throwing Int}
  {layouts : TokenLayouts} {connection : Connection} {network : Network}

/-! ### What is created -/

section Create

variable {pool : Pubkey} {poolState : SuppliedPool} {vaultA vaultB : VaultImpl} {info : AccountsInfo}

/-- The requests for the amounts of a pool and its vaults, and what comes of them. -/
structure Reads (layouts : TokenLayouts) (connection : Connection) (poolAccount : PoolAccount)
    (vaultA vaultB : VaultImpl) (info : AccountsInfo) (buffer : JsMap Pubkey AccountTypeInfo)
    (amounts : JsMap Pubkey Int) (clock : Clock) : Prop where
  fetched : getAccountsBuffer connection ((accountsToFetch poolAccount vaultA vaultB).toList ++ [clockToFetch]) =
    .ok buffer
  decoded : deserializeAccountsBuffer layouts buffer = .ok amounts
  timed : getClock buffer = .ok clock
  read : getAccountsInfo amounts clock (accountsToFetch poolAccount vaultA vaultB) = .ok info

variable {depegAccounts : JsMap Pubkey Bytes} {fresh : AmmImpl}

end Create

/-! ### What an update assigns -/

/-- Which pool an object is of, with its vaults and the tokens that these hold. -/
structure AmmImpl.Of (tokenOf : Pubkey → Pubkey) (pool aVault bVault : Pubkey) (amm : AmmImpl) : Prop where
  pool : amm.pool = pool
  vaultA : amm.vaultA.vaultPda = aVault
  vaultB : amm.vaultB.vaultPda = bVault
  vaultTokenA : amm.vaultA.tokenMint = tokenOf aVault
  vaultTokenB : amm.vaultB.tokenMint = tokenOf bVault
  tokenAMint : amm.tokenAMint = tokenOf aVault
  tokenBMint : amm.tokenBMint = tokenOf bVault

/-- A refresh writes to the state of the vault and to nothing else. -/
def Network.RefreshesState (network : Network) : Prop :=
  ∀ vault, ∃ vaultState, (network.refreshVaultState vault).2 = { vault with vaultState }

/-- Vaults are made of the accounts that are there, and a refresh fetches the same accounts. -/
structure Network.Serves (tokenOf : Pubkey → Pubkey) (vaultAt : Pubkey → Option VaultAccount)
    (network : Network) : Prop where
  created : ∀ keys vaults, network.connection.createMultipleWithPda keys = .ok vaults ↔
    List.Forall₂ (fun key vault => vaultAt key = some vault.vaultState ∧ vault.vaultPda = key ∧
      vault.tokenMint = tokenOf key) keys vaults
  refreshes : network.RefreshesState
  refreshed : ∀ vault vault', network.refreshVaultState vault = (.ok (), vault') →
    vaultAt vault.vaultPda = some vault'.vaultState

section Update

variable {tokenOf : Pubkey → Pubkey} {vaultAt : Pubkey → Option VaultAccount} {pool aVault bVault : Pubkey}
  {amm fresh : AmmImpl}

/-- The refreshes of an update write to the states of the vaults only. -/
def AmmImpl.Use.RefreshesState : AmmImpl.Use → Prop
  | .updateState network => network.RefreshesState
  | _ => True

end Update

/-! ### A sample -/

end Loading

end DynamicAmm.Client

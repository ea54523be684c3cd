import DynamicAmm.Base.IndexSearch
import DynamicAmm.Client.Address

/-!
# Creating a configuration

A configuration account is at the address of its index, and a new one takes the first index whose address
no existing configuration has. The search for it is a `while (true)`.
-/

namespace DynamicAmm.Client

open Js IndexSearch
open Program (Pubkey)

structure ConfigAccount where
  publicKey : Pubkey
  poolFees : PoolFees

structure FeeConfiguration where
  publicKey : Pubkey
  poolFees : PoolFees
  tradeFeeBps : Int
  protocolTradeFeeBps : Int
  deriving DecidableEq

def toFeeConfiguration (configAccount : ConfigAccount) : Throwing FeeConfiguration := do
  let poolFees := configAccount.poolFees
  let tradeFeeBps ← BN.div (poolFees.tradeFeeNumerator * 10000) poolFees.tradeFeeDenominator
  let protocolTradeFeeBps ←
    BN.div (poolFees.protocolTradeFeeNumerator * 10000) poolFees.protocolTradeFeeDenominator
  pure { publicKey := configAccount.publicKey, poolFees, tradeFeeBps, protocolTradeFeeBps }

def getFeeConfigurations (configs : List ConfigAccount) : Throwing (List FeeConfiguration) :=
  configs.mapM toFeeConfiguration

structure ConfigArguments where
  payer : Pubkey
  tradeFeeBps : Int
  protocolFeeBps : Int
  vaultConfigKey : Pubkey
  activationDuration : Int
  poolCreatorAuthority : Pubkey
  activationType : Nat
  deriving DecidableEq

structure CreateConfigInstruction where
  tradeFeeNumerator : Int
  protocolTradeFeeNumerator : Int
  vaultConfigKey : Pubkey
  activationDuration : Int
  poolCreatorAuthority : Pubkey
  index : Int
  activationType : Nat
  config : Pubkey
  admin : Pubkey
  deriving DecidableEq

-- `PublicKey.findProgramAddressSync`, without the bump it found
variable (findProgramAddressSync : List Program.Bytes → Pubkey → Pubkey)

def deriveConfigPda (index : Int) (programId : Pubkey) : Throwing Pubkey := do
  let seeds ← (DerivedAccount.config index).seeds
  pure (findProgramAddressSync seeds programId)

variable (programId : Pubkey) (configs : List FeeConfiguration) (arguments : ConfigArguments)

/-- The body of the loop: the instruction, or nothing if the index is taken. -/
def createConfigAt (index : Nat) : Throwing (Option CreateConfigInstruction) := do
  let configPda ← deriveConfigPda findProgramAddressSync (← BN.ofNumber index) programId
  match configs.find? fun c => c.publicKey = configPda with
  | none =>
      pure (some {
        -- Default fee denominator is 100_000
        tradeFeeNumerator := arguments.tradeFeeBps * 10
        protocolTradeFeeNumerator := arguments.protocolFeeBps * 10
        vaultConfigKey := arguments.vaultConfigKey
        activationDuration := arguments.activationDuration
        poolCreatorAuthority := arguments.poolCreatorAuthority
        index := ← BN.ofNumber index
        activationType := arguments.activationType
        config := configPda
        admin := arguments.payer })
  | some _ => pure none

/-- `while (true)`, cut off after `cap` iterations. -/
def createConfigLoop (cap : Nat) : Throwing (Option CreateConfigInstruction) :=
  searchFrom (createConfigAt findProgramAddressSync programId configs arguments) cap 0

def createConfig (accounts : List ConfigAccount) (cap : Nat) : Throwing (Option CreateConfigInstruction) := do
  let configs ← getFeeConfigurations accounts
  createConfigLoop findProgramAddressSync programId configs arguments cap

end DynamicAmm.Client

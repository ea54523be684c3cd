import DynamicAmm.Client.Liquidity
import DynamicAmm.Js.Map

/-!
# Loading pools

A pool is loaded from the network together with the accounts that its quotes read. `create` loads one pool,
and `createMultiple` loads a list of them with a few large requests, whose answers it deals out by address.
-/

namespace DynamicAmm.Client

open Js
open Program (Bytes Pubkey)

/-! ### Accounts -/

structure PoolAccount extends PoolState where
  lpMint : Pubkey
  aVault : Pubkey
  bVault : Pubkey
  aVaultLp : Pubkey
  bVaultLp : Pubkey
  deriving DecidableEq

structure SuppliedPool extends PoolAccount where
  lpSupply : Int
  deriving DecidableEq

structure VaultAccount extends VaultState where
  tokenVault : Pubkey
  lpMint : Pubkey
  deriving DecidableEq

/-- A vault, as far as a pool uses it. -/
structure VaultImpl where
  vaultPda : Pubkey
  tokenMint : Pubkey
  vaultState : VaultAccount
  deriving DecidableEq

structure Clock where
  slot : Int
  unixTimestamp : Int
  deriving DecidableEq

/-- What the network and the packages that read it answer. -/
structure Connection where
  getMultipleAccountsInfo : List Pubkey → Throwing (List (Option Bytes))
  /-- `program.account.pool.fetchMultiple` -/
  fetchMultiple : List Pubkey → Throwing (List (Option PoolAccount))
  /-- `program.account.pool.fetchNullable` -/
  fetchNullable : Pubkey → Throwing (Option PoolAccount)
  /-- `getTokenSupply`, as the `BN` of its amount -/
  getTokenSupply : Pubkey → Throwing Int
  /-- `VaultImpl.createMultipleWithPda` -/
  createMultipleWithPda : List Pubkey → Throwing (List VaultImpl)

/-- The account layouts of `@solana/spl-token`. -/
structure TokenLayouts where
  /-- `MintLayout.decode(data).supply` -/
  mintSupply : Bytes → Throwing Int
  /-- `AccountLayout.decode(data).amount` -/
  accountAmount : Bytes → Throwing Int

def readBigUInt64LE (bytes : Bytes) (offset : Nat) : Throwing Int := do
  let signed ← readBigInt64LE bytes offset
  pure (if signed < 0 then signed + 2 ^ 64 else signed)

def decodeClock (data : Bytes) : Throwing Clock := do
  let slot ← readBigUInt64LE data 0
  let unixTimestamp ← readBigInt64LE data 32
  pure { slot, unixTimestamp }

def sysvarClock : Pubkey :=
  ⟨[6, 167, 213, 23, 24, 199, 116, 201, 40, 86, 99, 152, 105, 29, 94, 182, 139, 94, 184, 163, 155, 75,
    109, 92, 115, 85, 91, 33, 0, 0, 0, 0], rfl⟩

def toBase58 (key : Pubkey) : String :=
  let alphabet := "123456789ABCDEFGHJKLMNPQRSTUVWXYZabcdefghijkmnopqrstuvwxyz".toList
  let value := key.bytes.foldl (fun n byte => 256 * n + byte.toNat) 0
  let zeros := (key.bytes.takeWhile (· = 0)).map fun _ => '1'
  String.ofList (zeros ++ (Nat.digits 58 value).reverse.map fun digit => alphabet.getD digit '1')

def invalidAccount : String := "Account not found"

/-! ### Requests in chunks -/

section Requests

variable {α : Type}

def chunks (array : List α) (size : Nat) : List (List α) :=
  (List.range ((array.length + size - 1) / size)).map fun index => (array.drop (index * size)).take size

variable (connection : Connection)

def chunkedFetchMultiplePoolAccount (pks : List Pubkey) : Throwing (List PoolAccount) := do
  let accounts ← (chunks pks 100).mapM connection.fetchMultiple
  pure (accounts.flatten.filterMap id)

def chunkedGetMultipleAccountInfos (pks : List Pubkey) : Throwing (List (Option Bytes)) := do
  let accountInfos ← (chunks pks 100).mapM connection.getMultipleAccountsInfo
  pure accountInfos.flatten

/-! ### Pool states -/

variable (layouts : TokenLayouts)

def getAllPoolState (poolMints : List Pubkey) : Throwing (List SuppliedPool) := do
  let poolStates ← chunkedFetchMultiplePoolAccount connection poolMints
  invariant (poolStates.length = poolMints.length) "Some of the pool state not found"
  let poolLpMints := poolStates.map PoolAccount.lpMint
  let lpMintAccounts ← chunkedGetMultipleAccountInfos connection poolLpMints
  poolStates.zipIdx.mapM fun (poolState, idx) => do
    match lpMintAccounts[idx]?.join with
    | none => throw invalidAccount
    | some lpMintAccount =>
        let lpSupply ← layouts.mintSupply lpMintAccount
        pure { poolState with lpSupply }

def getPoolState (poolMint : Pubkey) : Throwing SuppliedPool := do
  match ← connection.fetchNullable poolMint with
  | none => throw ("Pool " ++ toBase58 poolMint ++ " not found")
  | some poolState =>
      let lpSupply ← connection.getTokenSupply poolState.lpMint
      pure { poolState with lpSupply }

/-! ### Amounts by address -/

inductive AccountType where
  | vaultAReserve
  | vaultBReserve
  | vaultALp
  | vaultBLp
  | poolVaultALp
  | poolVaultBLp
  | poolLpMint
  | sysvarClock
  deriving DecidableEq, Repr

def decodeAccountTypeMapper : AccountType → Bytes → Throwing Int
  | .vaultAReserve => layouts.accountAmount
  | .vaultBReserve => layouts.accountAmount
  | .vaultALp => layouts.mintSupply
  | .vaultBLp => layouts.mintSupply
  | .poolVaultALp => layouts.accountAmount
  | .poolVaultBLp => layouts.accountAmount
  | .poolLpMint => layouts.mintSupply
  | .sysvarClock => fun accountData => readBigInt64LE accountData 32

structure AccountsType where
  pubkey : Pubkey
  type : AccountType
  deriving DecidableEq

structure AccountTypeInfo where
  type : AccountType
  account : Option Bytes

def AccountTypeInfo.decode (info : AccountTypeInfo) : Throwing Int :=
  match info.account with
  | none => throw missingAccount
  | some data => decodeAccountTypeMapper layouts info.type data

def getAccountsBuffer (accountsToFetch : List AccountsType) : Throwing (JsMap Pubkey AccountTypeInfo) := do
  let accounts ← chunkedGetMultipleAccountInfos connection (accountsToFetch.map AccountsType.pubkey)
  pure (JsMap.empty.setAll (accountsToFetch.mapIdx fun index account =>
    (account.pubkey, { type := account.type, account := accounts[index]?.join })))

def deserializeAccountsBuffer (accountInfoMap : JsMap Pubkey AccountTypeInfo) :
    Throwing (JsMap Pubkey Int) := do
  let decodedAccountInfos ← accountInfoMap.entries.mapM fun (publicKey, info) => do
    let decodedAccountInfo ← info.decode layouts
    pure (publicKey, decodedAccountInfo)
  pure (JsMap.empty.setAll decodedAccountInfos)

def getStakePubkey (poolState : PoolState) : Option Pubkey :=
  match poolState.depeg.depegType with
  | .none => none
  | .marinade => some marinadeAccount
  | .lido => some lidoAccount
  | .splStake => some poolState.stake

/-- The set of stake accounts holds objects: one for each constant account, and one for every pool with its own. -/
def stakePoolPubkeys (poolsState : List PoolState) : List Pubkey :=
  let add (keys : List (Program.DepegType × Pubkey)) (poolState : PoolState) :=
    match getStakePubkey poolState with
    | none => keys
    | some key =>
        let depegType := poolState.depeg.depegType
        if depegType ≠ .splStake ∧ (depegType, key) ∈ keys then keys else keys ++ [(depegType, key)]
  (poolsState.foldl add []).map Prod.snd

def getDepegAccounts (poolsState : List PoolState) : Throwing (JsMap Pubkey Bytes) := do
  let stakePoolKeys := stakePoolPubkeys poolsState
  let accountBuffers ← chunkedGetMultipleAccountInfos connection stakePoolKeys
  let found := (stakePoolKeys.mapIdx fun i key => accountBuffers[i]?.join.map fun data => (key, data))
  pure (JsMap.empty.setAll (found.filterMap id))

end Requests

namespace Loading

/-! ### One pool -/

structure AccountsInfo where
  currentTime : Int
  currentSlot : Int
  poolVaultALp : Int
  poolVaultBLp : Int
  vaultALpSupply : Int
  vaultBLpSupply : Int
  vaultAReserve : Int
  vaultBReserve : Int
  poolLpSupply : Int
  deriving DecidableEq, Repr

structure AmmImpl where
  pool : Pubkey
  tokenAMint : Pubkey
  tokenBMint : Pubkey
  poolState : SuppliedPool
  poolInfo : PoolInformation
  vaultA : VaultImpl
  vaultB : VaultImpl
  accountsInfo : AccountsInfo
  swapCurve : SwapCurve
  depegAccounts : JsMap Pubkey Bytes

/-- The accounts to fetch for a pool, in this order. -/
structure PoolAccounts where
  tokenAVault : AccountsType
  tokenBVault : AccountsType
  vaultALp : AccountsType
  vaultBLp : AccountsType
  poolVaultA : AccountsType
  poolVaultB : AccountsType
  poolLpMint : AccountsType

def PoolAccounts.toList (accounts : PoolAccounts) : List AccountsType :=
  [accounts.tokenAVault, accounts.tokenBVault, accounts.vaultALp, accounts.vaultBLp, accounts.poolVaultA,
    accounts.poolVaultB, accounts.poolLpMint]

def accountsToFetch (poolState : PoolAccount) (vaultA vaultB : VaultImpl) : PoolAccounts where
  tokenAVault := { pubkey := vaultA.vaultState.tokenVault, type := .vaultAReserve }
  tokenBVault := { pubkey := vaultB.vaultState.tokenVault, type := .vaultBReserve }
  vaultALp := { pubkey := vaultA.vaultState.lpMint, type := .vaultALp }
  vaultBLp := { pubkey := vaultB.vaultState.lpMint, type := .vaultBLp }
  poolVaultA := { pubkey := poolState.aVaultLp, type := .poolVaultALp }
  poolVaultB := { pubkey := poolState.bVaultLp, type := .poolVaultBLp }
  poolLpMint := { pubkey := poolState.lpMint, type := .poolLpMint }

def clockToFetch : AccountsType := { pubkey := sysvarClock, type := .sysvarClock }

def getClock (accountsBufferMap : JsMap Pubkey AccountTypeInfo) : Throwing Clock := do
  match accountsBufferMap.get sysvarClock with
  | none => throw "Clock account not found"
  | some clockAccount =>
      match clockAccount.account with
      | none => throw missingAccount
      | some data => decodeClock data

def getAccountsInfo (accountsInfoMap : JsMap Pubkey Int) (clock : Clock) (accounts : PoolAccounts) :
    Throwing AccountsInfo :=
  let amounts := do
    let poolVaultALp ← accountsInfoMap.get accounts.poolVaultA.pubkey
    let poolVaultBLp ← accountsInfoMap.get accounts.poolVaultB.pubkey
    let vaultALpSupply ← accountsInfoMap.get accounts.vaultALp.pubkey
    let vaultBLpSupply ← accountsInfoMap.get accounts.vaultBLp.pubkey
    let vaultAReserve ← accountsInfoMap.get accounts.tokenAVault.pubkey
    let vaultBReserve ← accountsInfoMap.get accounts.tokenBVault.pubkey
    let poolLpSupply ← accountsInfoMap.get accounts.poolLpMint.pubkey
    pure {
      currentTime := clock.unixTimestamp
      currentSlot := clock.slot
      poolVaultALp
      poolVaultBLp
      vaultALpSupply
      vaultBLpSupply
      vaultAReserve
      vaultBReserve
      poolLpSupply : AccountsInfo }
  match amounts with
  | none => throw "Account Info not found"
  | some accountsInfo => pure accountsInfo

def toSeconds (currentTime : Int) : Throwing SafeInteger :=
  if safe : currentTime.natAbs < 2 ^ 53 then .ok ⟨currentTime, safe⟩
  else .error "Number can only safely store up to 53 bits"

section

variable (sdk : VaultSdk) (decoders : StakeDecoders) (sqrt : Int → Throwing Int)
  (layouts : TokenLayouts) (connection : Connection)

def makeCurve (poolState : PoolState) (depegAccounts : JsMap Pubkey Bytes) (currentTime : Int) :
    Throwing SwapCurve :=
  match poolState.curveType with
  | .stable amp tokenMultiplier _ => do
      let amp ← BN.toNumber amp
      pure (.stable {
        amp
        tokenMultiplier
        extraAccounts := depegAccounts.get
        onChainTime := currentTime
        stakePoolPubkey := poolState.stake })
  | .constantProduct => pure .constantProduct

/-- The curve and the pool information, once all accounts are there. The pool state is left with the depeg
record that the curve refreshed. -/
def makeAmm (pool : Pubkey) (poolState : SuppliedPool) (vaultA vaultB : VaultImpl)
    (accountsInfo : AccountsInfo) (depegAccounts : JsMap Pubkey Bytes) : Throwing AmmImpl := do
  let swapCurve ← makeCurve poolState.toPoolState depegAccounts accountsInfo.currentTime
  let currentTimestamp ← toSeconds accountsInfo.currentTime
  let (poolInfo, poolState') := calculatePoolInfo sdk decoders sqrt currentTimestamp
    accountsInfo.poolVaultALp accountsInfo.poolVaultBLp accountsInfo.vaultALpSupply
    accountsInfo.vaultBLpSupply accountsInfo.poolLpSupply swapCurve vaultA.vaultState.toVaultState
    vaultB.vaultState.toVaultState poolState.toPoolState
  let poolInfo ← poolInfo
  pure {
    pool
    tokenAMint := vaultA.tokenMint
    tokenBMint := vaultB.tokenMint
    poolState := { poolState with toPoolState := poolState' }
    poolInfo
    vaultA
    vaultB
    accountsInfo
    swapCurve
    depegAccounts }

/-- What `create` reads of the network before it makes the curve. -/
def load (pool : Pubkey) : Throwing (SuppliedPool × VaultImpl × VaultImpl × AccountsInfo) := do
  let poolState ← getPoolState connection pool
  match ← connection.createMultipleWithPda [poolState.aVault, poolState.bVault] with
  | vaultA :: vaultB :: _ =>
      let accounts := accountsToFetch poolState.toPoolAccount vaultA vaultB
      let accountsBufferMap ← getAccountsBuffer connection (accounts.toList ++ [clockToFetch])
      let accountsInfoMap ← deserializeAccountsBuffer layouts accountsBufferMap
      let clock ← getClock accountsBufferMap
      let accountsInfo ← getAccountsInfo accountsInfoMap clock accounts
      pure (poolState, vaultA, vaultB, accountsInfo)
  | _ => throw "Cannot read properties of undefined (reading 'vaultState')"

def AmmImpl.create (pool : Pubkey) : Throwing AmmImpl := do
  let (poolState, vaultA, vaultB, accountsInfo) ← load layouts connection pool
  let depegAccounts ← getDepegAccounts connection [poolState.toPoolState]
  makeAmm sdk decoders sqrt pool poolState vaultA vaultB accountsInfo depegAccounts

/-! ### Several pools -/

structure PoolInfoData where
  pool : Pubkey
  poolState : SuppliedPool
  vaultA : VaultImpl
  vaultB : VaultImpl

/-- The vaults of a pool among all those that were loaded. -/
def findVaults (vaultsImpl : List VaultImpl) (pool : Pubkey) (poolState : SuppliedPool) :
    Throwing PoolInfoData := do
  let vaultA := vaultsImpl.find? fun vault => vault.vaultPda = poolState.aVault
  let vaultB := vaultsImpl.find? fun vault => vault.vaultPda = poolState.bVault
  match vaultA, vaultB with
  | none, _ => throw ("Vault " ++ toBase58 poolState.tokenAMint ++ " not found")
  | some _, none => throw ("Vault " ++ toBase58 poolState.tokenBMint ++ " not found")
  | some vaultA, some vaultB => pure { pool, poolState, vaultA, vaultB }

/-- The objects, one after the other. Pools with one LP mint share an entry of `poolInfoMap`, and with it
the pool state that the curve writes to. -/
def makeAmms (accountsInfoMap : JsMap Pubkey Int) (clock : Clock) (depegAccounts : JsMap Pubkey Bytes) :
    List PoolAccounts → JsMap Pubkey PoolInfoData → Throwing (List AmmImpl)
  | [], _ => pure []
  | accounts :: rest, poolInfoMap => do
      let accountsInfo ← getAccountsInfo accountsInfoMap clock accounts
      match poolInfoMap.get accounts.poolLpMint.pubkey with
      | none => throw "Cannot find pool info"
      | some poolInfoData =>
          let amm ← makeAmm sdk decoders sqrt poolInfoData.pool poolInfoData.poolState poolInfoData.vaultA
            poolInfoData.vaultB accountsInfo depegAccounts
          let poolInfoMap :=
            poolInfoMap.set accounts.poolLpMint.pubkey { poolInfoData with poolState := amm.poolState }
          let amms ← makeAmms accountsInfoMap clock depegAccounts rest poolInfoMap
          pure (amm :: amms)

def AmmImpl.createMultiple (poolList : List Pubkey) : Throwing (List AmmImpl) := do
  let poolsState ← getAllPoolState connection layouts poolList
  let pdaInfos := poolsState.flatMap fun poolState => [poolState.aVault, poolState.bVault]
  let vaultsImpl ← connection.createMultipleWithPda pdaInfos
  let poolInfoData ← (poolList.zip poolsState).mapM fun (pool, poolState) =>
    findVaults vaultsImpl pool poolState
  let poolInfoMap := JsMap.empty.setAll (poolInfoData.map fun data => (data.poolState.lpMint, data))
  let accounts := poolInfoData.map fun data =>
    accountsToFetch data.poolState.toPoolAccount data.vaultA data.vaultB
  let accountsBufferMap ← getAccountsBuffer connection
    (accounts.flatMap PoolAccounts.toList ++ [clockToFetch])
  let clock ← getClock accountsBufferMap
  let accountsInfoMap ← deserializeAccountsBuffer layouts accountsBufferMap
  let depegAccounts ← getDepegAccounts connection (poolsState.map fun poolState => poolState.toPoolState)
  makeAmms sdk decoders sqrt accountsInfoMap clock depegAccounts accounts poolInfoMap

end

end Loading

end DynamicAmm.Client

import DynamicAmm.Client.Search
import DynamicAmm.Proof.Client.Accounts
import DynamicAmm.Proof.Client.Loading
import DynamicAmm.Program.Address

/-!
# What the client finds among the program's accounts

The filters of a search are offsets into bytes, and the fields they mean are where the program's encoding puts
them. A search answers exactly with the accounts of its type whose field is the one asked for.
-/

namespace DynamicAmm

open Schema Program

/-! ### Accounts of a type -/

namespace Program.AccountFormat

variable {α : Type} {format : AccountFormat α} {data : Bytes} {a : α}

theorem tryDeserialize_eq_ok :
    format.tryDeserialize data = .ok a ↔
      data.take 8 = format.discriminator.toList ∧ ∃ rest, format.codec.decode (data.drop 8) = some (a, rest) := by
  unfold tryDeserialize
  have hlength := format.discriminator.toList_length
  constructor
  · intro h
    split at h
    · cases h
    · split at h
      · cases h
      · rename_i hdiscriminator
        split at h
        · rename_i rest hdecode
          cases h
          exact ⟨not_not.mp hdiscriminator, rest, hdecode⟩
        · cases h
  · rintro ⟨hdiscriminator, rest, hdecode⟩
    have hdata : ¬ data.length < 8 := by
      rw [← hdiscriminator, List.length_take] at hlength
      omega
    rw [if_neg hdata, if_neg (not_not.mpr hdiscriminator), hdecode]

/-- An account that deserializes holds the serialized value, and anything after it. -/
theorem tryDeserialize_eq_ok_iff_append :
    format.tryDeserialize data = .ok a ↔ ∃ rest, data = format.serialize a ++ rest := by
  have hlength := format.discriminator.toList_length
  rw [tryDeserialize_eq_ok]
  constructor
  · rintro ⟨hdiscriminator, rest, hdecode⟩
    refine ⟨rest, ?_⟩
    rw [serialize, List.append_assoc, format.codec.decode_eq_some.mp hdecode, ← hdiscriminator,
      List.take_append_drop]
  · rintro ⟨rest, rfl⟩
    rw [serialize, List.append_assoc, List.take_left' hlength, List.drop_left' hlength]
    exact ⟨rfl, rest, format.codec.decode_encode a rest⟩

end Program.AccountFormat

/-! ### Reading an account -/

namespace Client

/-- The coder decodes an account that starts with the discriminator of its name, where the data holds what the
description of that name describes, and both libraries take the discriminator from the account's name. -/
structure AccountsCoder.Lawful (coder : AccountsCoder) : Prop where
  pool : coder.accountDiscriminator "pool" = State.Pool.account.discriminator.toList
  config : coder.accountDiscriminator "config" = State.Config.account.discriminator.toList
  lockEscrow : coder.accountDiscriminator "lockEscrow" = State.LockEscrow.account.discriminator.toList
  decode : ∀ name ty, (name, ty) ∈ Idl.accounts → ∀ data value rest,
    data.take 8 = coder.accountDiscriminator name → ty.decode (data.drop 8) = some (value, rest) →
      coder.decode name data = .ok value

/-- What the program deserializes under a type the client decodes by a name, as the record of the same value. -/
structure AccountsCoder.Reads (coder : AccountsCoder) {α : Type} (name : String) (format : AccountFormat α)
    (view : α → Value) : Prop where
  accountDiscriminator : coder.accountDiscriminator name = format.discriminator.toList
  decode : ∀ data a, format.tryDeserialize data = .ok a → coder.decode name data = .ok (view a)

namespace AccountsCoder.Lawful

variable {coder : AccountsCoder}

theorem reads (h : coder.Lawful) {α : Type} {name : String} {ty : Ty} {format : AccountFormat α} {view : α → Value}
    (hmem : (name, ty) ∈ Idl.accounts) (hname : coder.accountDiscriminator name = format.discriminator.toList)
    (hdescribes : Describes ty format.codec view) : coder.Reads name format view where
  accountDiscriminator := hname
  decode data a ha := by
    obtain ⟨hdiscriminator, rest, hdecode⟩ := AccountFormat.tryDeserialize_eq_ok.mp ha
    apply h.decode name ty hmem data (view a) rest (hdiscriminator.trans hname.symm)
    rw [hdescribes.decode, hdecode]
    rfl

theorem readsPool (h : coder.Lawful) : coder.Reads "pool" State.Pool.account State.Pool.view :=
  h.reads (by simp [Idl.accounts]) h.pool State.pool_describes

theorem readsConfig (h : coder.Lawful) : coder.Reads "config" State.Config.account State.Config.view :=
  h.reads (by simp [Idl.accounts]) h.config State.config_describes

theorem readsLockEscrow (h : coder.Lawful) :
    coder.Reads "lockEscrow" State.LockEscrow.account State.LockEscrow.view :=
  h.reads (by simp [Idl.accounts]) h.lockEscrow State.lockEscrow_describes

end AccountsCoder.Lawful

end Client

/-! ### The accounts of the program -/

namespace Program.State

/-- An account that starts with the discriminator of a type holds a value of it. -/
def Readable {α : Type} (format : AccountFormat α) (data : Bytes) : Prop :=
  data.take 8 = format.discriminator.toList → ∃ a, format.tryDeserialize data = .ok a

/-- The accounts that the program owns, by address. Whatever else it keeps in accounts of its own, the accounts under
these three discriminators it writes as a whole. -/
structure Ledger where
  accounts : List (Pubkey × Bytes)
  distinct : (accounts.map Prod.fst).Nodup
  readablePool : ∀ account ∈ accounts, Readable Pool.account account.2
  readableConfig : ∀ account ∈ accounts, Readable Config.account account.2
  readableLockEscrow : ∀ account ∈ accounts, Readable State.LockEscrow.account account.2

section Holding

variable {α : Type} {format : AccountFormat α} {accounts : List (Pubkey × Bytes)}

def holding (format : AccountFormat α) (accounts : List (Pubkey × Bytes)) : List (Pubkey × α) :=
  accounts.filterMap fun account => (format.tryDeserialize account.2).toOption.map (account.1, ·)

theorem mem_holding {key : Pubkey} {a : α} :
    (key, a) ∈ holding format accounts ↔ ∃ data, (key, data) ∈ accounts ∧ format.tryDeserialize data = .ok a := by
  simp only [holding, List.mem_filterMap, Option.map_eq_some_iff, Prod.mk.injEq, Prod.exists]
  constructor
  · rintro ⟨key, data, hmem, a, hok, rfl, rfl⟩
    refine ⟨data, hmem, ?_⟩
    cases h : format.tryDeserialize data with
    | error e => rw [h] at hok; cases hok
    | ok b => rw [h] at hok; exact congrArg Except.ok (Option.some.inj hok)
  · rintro ⟨data, hmem, hok⟩
    exact ⟨key, data, hmem, a, by rw [hok]; rfl, rfl, rfl⟩

theorem holding_inj (hdistinct : (accounts.map Prod.fst).Nodup) {key : Pubkey} {a b : α}
    (ha : (key, a) ∈ holding format accounts) (hb : (key, b) ∈ holding format accounts) : a = b := by
  obtain ⟨data, hdata, ha⟩ := mem_holding.mp ha
  obtain ⟨data', hdata', hb⟩ := mem_holding.mp hb
  have hsame := List.inj_on_of_nodup_map hdistinct hdata hdata' rfl
  rw [Prod.mk.injEq] at hsame
  rw [← hsame.2, ha] at hb
  exact Except.ok.inj hb

theorem holding_cons_ok {account : Pubkey × Bytes} {a : α} (h : format.tryDeserialize account.2 = .ok a) :
    holding format (account :: accounts) = (account.1, a) :: holding format accounts := by
  rw [holding, List.filterMap_cons, h]
  rfl

theorem holding_cons_error {account : Pubkey × Bytes} {e : AccountError}
    (h : format.tryDeserialize account.2 = .error e) :
    holding format (account :: accounts) = holding format accounts := by
  rw [holding, List.filterMap_cons, h]
  rfl

end Holding

def Ledger.pools (ledger : Ledger) : List (Pubkey × Pool) := holding Pool.account ledger.accounts

def Ledger.configs (ledger : Ledger) : List (Pubkey × Config) := holding Config.account ledger.accounts

def Ledger.lockEscrows (ledger : Ledger) : List (Pubkey × State.LockEscrow) :=
  holding State.LockEscrow.account ledger.accounts

end Program.State

namespace Client

open Js Program.State

/-! ### Searches -/

def Memcmp.matches (filter : Memcmp) (data : Bytes) : Bool :=
  (data.drop filter.offset).take filter.bytes.length = filter.bytes

/-- A filter on an offset finds what is there. -/
theorem Memcmp.matches_append (front rest : Bytes) {bytes found : Bytes} (hlength : bytes.length = found.length) :
    (Memcmp.mk front.length bytes).matches (front ++ (found ++ rest)) = decide (found = bytes) := by
  rw [Memcmp.matches, List.drop_left, hlength, List.take_left]

/-- Where all of the accounts can be decoded that start with the discriminator of the name and pass the filters, they
are the answer, in any order. -/
def Answers (coder : AccountsCoder) (all : String → List Memcmp → Throwing (List AccountRecord))
    (accounts : List (Pubkey × Bytes)) : Prop :=
  ∀ name filters records,
    List.Forall₂ (fun account record => account.1 = record.1 ∧ coder.decode name account.2 = .ok record.2)
      (accounts.filter fun account =>
        (Memcmp.mk 0 (coder.accountDiscriminator name) :: filters).all (·.matches account.2)) records →
    ∃ answer, all name filters = .ok answer ∧ answer.Perm records

section Search

variable {coder : AccountsCoder} {all : String → List Memcmp → Throwing (List AccountRecord)} {ledger : Ledger}
  {α : Type} {name : String} {format : AccountFormat α} {view : α → Value} {filters : List Memcmp} {asked : α → Bool}

/-- What is decoded of the accounts that pass the filters. -/
theorem decode_filter (hreads : coder.Reads name format view) {accounts : List (Pubkey × Bytes)}
    (hreadable : ∀ account ∈ accounts, Readable format account.2)
    (hfilters : ∀ data a, format.tryDeserialize data = .ok a → filters.all (·.matches data) = asked a) :
    List.Forall₂ (fun account record => account.1 = record.1 ∧ coder.decode name account.2 = .ok record.2)
      (accounts.filter fun account =>
        (Memcmp.mk 0 (coder.accountDiscriminator name) :: filters).all (·.matches account.2))
      (((holding format accounts).filter (asked ·.2)).map fun p => (p.1, view p.2)) := by
  induction accounts with
  | nil => exact .nil
  | cons account accounts ih =>
      have hrest := ih fun other hother => hreadable other (List.mem_cons_of_mem _ hother)
      have hfirst : (Memcmp.mk 0 (coder.accountDiscriminator name)).matches account.2 =
          decide (account.2.take 8 = format.discriminator.toList) := by
        rw [Memcmp.matches, hreads.accountDiscriminator, List.drop_zero, List.Vector.toList_length]
      rw [List.filter_cons, List.all_cons, hfirst]
      cases h : format.tryDeserialize account.2 with
      | ok a =>
          rw [holding_cons_ok h, List.filter_cons, hfilters account.2 a h,
            decide_eq_true (AccountFormat.tryDeserialize_eq_ok.mp h).1, Bool.true_and]
          cases hasked : asked a with
          | false => simpa only [Bool.false_eq_true, if_false] using hrest
          | true =>
              rw [if_pos rfl, if_pos rfl, List.map_cons]
              exact .cons ⟨rfl, hreads.decode _ _ h⟩ hrest
      | error e =>
          have hother : ¬ account.2.take 8 = format.discriminator.toList := by
            intro hdiscriminator
            obtain ⟨a, ha⟩ := hreadable account List.mem_cons_self hdiscriminator
            rw [h] at ha
            cases ha
          rw [holding_cons_error h, decide_eq_false hother, Bool.false_and]
          exact hrest

/-- A search answers with the accounts of the type that it asks for. -/
theorem all_perm (asked : α → Bool) (hreads : coder.Reads name format view)
    (hanswers : Answers coder all ledger.accounts)
    (hreadable : ∀ account ∈ ledger.accounts, Readable format account.2)
    (hfilters : ∀ data a, format.tryDeserialize data = .ok a → filters.all (·.matches data) = asked a) :
    ∃ records, all name filters = .ok records ∧
      records.Perm (((holding format ledger.accounts).filter (asked ·.2)).map fun p => (p.1, view p.2)) :=
  hanswers name filters _ (decode_filter hreads hreadable hfilters)

/-- A filter on the bytes of an address asks for the field at its offset. -/
theorem matches_field (front : Bytes) {data back : Bytes} {a : α} {field key : Pubkey} {offset : Nat}
    (hdata : format.tryDeserialize data = .ok a)
    (hencode : format.codec.encode a = front ++ (field.bytes ++ back)) (hoffset : 8 + front.length = offset) :
    [Memcmp.mk offset key.bytes].all (·.matches data) = decide (field = key) := by
  obtain ⟨rest, rfl⟩ := AccountFormat.tryDeserialize_eq_ok_iff_append.mp hdata
  have hlength : (format.discriminator.toList ++ front).length = offset := by
    rw [List.length_append, List.Vector.toList_length, hoffset]
  have hsplit : format.serialize a ++ rest =
      format.discriminator.toList ++ front ++ (field.bytes ++ (back ++ rest)) := by
    simp only [AccountFormat.serialize, hencode, List.append_assoc]
  have hmatches := Memcmp.matches_append (format.discriminator.toList ++ front) (back ++ rest)
    (key.length_eq.trans field.length_eq.symm)
  rw [List.all_cons, List.all_nil, Bool.and_true, hsplit, ← hlength, hmatches]
  rw [decide_eq_decide, Pubkey.mk.injEq]

theorem searchPoolsByToken_exact (hcoder : coder.Lawful) (hanswers : Answers coder all ledger.accounts)
    (tokenMint : Pubkey) :
    ∃ records, searchPoolsByToken all tokenMint = .ok records ∧
      records.Perm ((ledger.pools.filter (·.2.tokenAMint = tokenMint) ++
        ledger.pools.filter (·.2.tokenBMint = tokenMint)).map fun p => (p.1, p.2.view)) := by
  obtain ⟨poolsA, hpoolsA, hpermA⟩ := all_perm (fun pool : State.Pool => decide (pool.tokenAMint = tokenMint))
    hcoder.readsPool hanswers ledger.readablePool
    (fun data pool hdata => matches_field pool.lpMint.bytes hdata rfl (by rw [pool.lpMint.length_eq]))
  obtain ⟨poolsB, hpoolsB, hpermB⟩ := all_perm (fun pool : State.Pool => decide (pool.tokenBMint = tokenMint))
    hcoder.readsPool hanswers ledger.readablePool
    (fun data pool hdata => matches_field (pool.lpMint.bytes ++ pool.tokenAMint.bytes) hdata
      (List.append_assoc ..).symm
      (by rw [List.length_append, pool.lpMint.length_eq, pool.tokenAMint.length_eq]))
  refine ⟨poolsA ++ poolsB, ?_, ?_⟩
  · simp only [searchPoolsByToken, Js.bind_eq_ok]
    exact ⟨_, hpoolsA, _, hpoolsB, rfl⟩
  · rw [List.map_append]
    exact hpermA.append hpermB

theorem pubkey_encode (key : Pubkey) : pubkey.encode key = key.bytes := rfl

theorem length_u64 (n : UInt64) : (u64.encode n).length = 8 := Seeds.length_leBytes 8 n.toNat

/-- What is in front of the authority in a configuration. -/
def configFront (config : Config) : Bytes :=
  PoolFees.codec.encode config.poolFees ++ (u64.encode config.activationDuration ++ config.vaultConfigKey.bytes)

theorem length_configFront (config : Config) : 8 + (configFront config).length = 8 + 72 := by
  have hfees : PoolFees.codec.encode config.poolFees =
      u64.encode config.poolFees.tradeFeeNumerator ++ (u64.encode config.poolFees.tradeFeeDenominator ++
        (u64.encode config.poolFees.protocolTradeFeeNumerator ++
          u64.encode config.poolFees.protocolTradeFeeDenominator)) := rfl
  simp only [configFront, hfees, List.length_append, length_u64, config.vaultConfigKey.length_eq]

theorem encode_config (config : Config) :
    Config.account.codec.encode config = configFront config ++ (config.poolCreatorAuthority.bytes ++
      (u8.encode config.activationType ++ (u8.array 227).encode config.padding)) := by
  simp only [configFront, Config.account, Config.codec, Codec.map_encode, Codec.prod_encode,
    Equiv.coe_fn_symm_mk, pubkey_encode, List.append_assoc]

theorem getPoolConfigsWithPoolCreatorAuthority_exact (hcoder : coder.Lawful)
    (hanswers : Answers coder all ledger.accounts) (wallet : Pubkey) :
    ∃ records, getPoolConfigsWithPoolCreatorAuthority all wallet = .ok records ∧
      records.Perm ((ledger.configs.filter (·.2.poolCreatorAuthority = wallet)).map fun p => (p.1, p.2.view)) :=
  all_perm (fun config : State.Config => decide (config.poolCreatorAuthority = wallet)) hcoder.readsConfig hanswers
    ledger.readableConfig
    (fun _ config hdata => matches_field (configFront config) hdata (encode_config config) (length_configFront config))

/-- The entry of an escrow that was read. -/
theorem lockEscrowEntry_view (key : Pubkey) (escrow : State.LockEscrow) :
    lockEscrowEntry (key, escrow.view) = .ok (escrow.pool, escrow.view) := by
  have hpool : (Record.get escrow.view "pool" >>= Record.publicKey) = some escrow.pool :=
    Record.publicKey_bytes escrow.pool
  simp only [lockEscrowEntry, hpool]
  rfl

/-- The map has the user's escrow of every pool, where the program has each at the address of its pool and owner. -/
theorem getLockedLpAmountByUser_exact (hcoder : coder.Lawful)
    (hanswers : Answers coder all ledger.accounts) {findProgramAddress : List Bytes → Pubkey → Pubkey}
    {programId : Pubkey}
    (hplaced : ∀ key escrow, (key, escrow) ∈ ledger.lockEscrows →
      key = findProgramAddress (Program.DerivedAccount.lockEscrow escrow.pool escrow.owner).seeds programId)
    (userPubKey : Pubkey) :
    ∃ map, getLockedLpAmountByUser all userPubKey = .ok map ∧
      ∀ pool record, map.get pool = some record ↔ ∃ key escrow, (key, escrow) ∈ ledger.lockEscrows ∧
        escrow.pool = pool ∧ escrow.owner = userPubKey ∧ escrow.view = record := by
  obtain ⟨records, hrecords, hperm⟩ := all_perm (fun escrow : State.LockEscrow => decide (escrow.owner = userPubKey))
    hcoder.readsLockEscrow hanswers ledger.readableLockEscrow
    (fun data escrow hdata => matches_field escrow.pool.bytes hdata rfl (by rw [escrow.pool.length_eq]))
  have hmem : ∀ key record, (key, record) ∈ records ↔
      ∃ escrow, (key, escrow) ∈ ledger.lockEscrows ∧ escrow.owner = userPubKey ∧ escrow.view = record := by
    intro key record
    rw [hperm.mem_iff, List.mem_map]
    constructor
    · rintro ⟨⟨key, escrow⟩, hescrow, heq⟩
      obtain ⟨hescrow, howner⟩ := List.mem_filter.mp hescrow
      cases heq
      exact ⟨escrow, hescrow, of_decide_eq_true howner, rfl⟩
    · rintro ⟨escrow, hescrow, howner, rfl⟩
      exact ⟨(key, escrow), List.mem_filter.mpr ⟨hescrow, decide_eq_true howner⟩, rfl⟩
  obtain ⟨entries, hentries⟩ : ∃ entries, records.mapM lockEscrowEntry = .ok entries := by
    apply exists_mapM
    rintro ⟨key, record⟩ hrecord
    obtain ⟨escrow, -, -, rfl⟩ := (hmem key record).mp hrecord
    exact ⟨_, lockEscrowEntry_view key escrow⟩
  -- The entries are those of the user's escrows, each with its pool as its key.
  have hentry : ∀ pool record, (pool, record) ∈ entries ↔ ∃ key escrow, (key, escrow) ∈ ledger.lockEscrows ∧
      escrow.pool = pool ∧ escrow.owner = userPubKey ∧ escrow.view = record := by
    intro pool record
    constructor
    · intro h
      obtain ⟨⟨key, _⟩, hrecord, hread⟩ := exists_left_of_mem (mapM_eq_ok.mp hentries) h
      obtain ⟨escrow, hescrow, howner, rfl⟩ := (hmem key _).mp hrecord
      rw [lockEscrowEntry_view, Except.ok.injEq, Prod.mk.injEq] at hread
      exact ⟨key, escrow, hescrow, hread.1, howner, hread.2⟩
    · rintro ⟨key, escrow, hescrow, rfl, howner, rfl⟩
      obtain ⟨entry, hentry, hread⟩ := exists_right_of_mem (mapM_eq_ok.mp hentries)
        ((hmem key _).mpr ⟨escrow, hescrow, howner, rfl⟩)
      rw [lockEscrowEntry_view, Except.ok.injEq] at hread
      rwa [hread]
  refine ⟨JsMap.empty.setAll entries, ?_, ?_⟩
  · simp only [getLockedLpAmountByUser, bind_eq_ok]
    exact ⟨records, hrecords, entries, hentries, rfl⟩
  · intro pool record
    rw [← hentry]
    constructor
    · intro hget
      by_cases hkey : pool ∈ entries.map Prod.fst
      · obtain ⟨value, hvalue, hset⟩ := JsMap.exists_get_setAll hkey JsMap.empty
        rw [hset] at hget
        rwa [← Option.some.inj hget]
      · rw [JsMap.get_setAll_of_not_mem hkey, JsMap.get_empty] at hget
        cases hget
    · intro h
      obtain ⟨value, hvalue, hset⟩ := JsMap.exists_get_setAll (List.mem_map_of_mem h) JsMap.empty
      rw [hset]
      -- Two escrows of the user for one pool are at one address.
      obtain ⟨key, escrow, hescrow, hpool, howner, rfl⟩ := (hentry pool value).mp hvalue
      obtain ⟨key', escrow', hescrow', hpool', howner', rfl⟩ := (hentry pool record).mp h
      have hkey : key = key' := by
        rw [hplaced key escrow hescrow, hplaced key' escrow' hescrow', hpool, howner, hpool', howner']
      subst hkey
      rw [holding_inj ledger.distinct hescrow hescrow']

end Search

/-! ### A sample -/

namespace Search

def sampleCoder : AccountsCoder where
  accountDiscriminator := sampleDiscriminator
  decode name data :=
    match Idl.accounts.lookup name with
    | none => .error "Account not found"
    | some ty =>
        if data.take 8 = sampleDiscriminator name then
          match ty.decode (data.drop 8) with
          | some (value, _) => .ok value
          | none => .error "Trying to access beyond buffer length"
        else .error "Invalid account discriminator"
where
  sampleDiscriminator (name : String) : Bytes :=
    if name = "pool" then Pool.account.discriminator.toList
    else if name = "config" then Config.account.discriminator.toList
    else State.LockEscrow.account.discriminator.toList

theorem sampleCoder_lawful : sampleCoder.Lawful where
  pool := rfl
  config := rfl
  lockEscrow := rfl
  decode := by
    intro name ty hmem data value rest hdiscriminator hdecode
    have hlookup : Idl.accounts.lookup name = some ty := by
      simp only [Idl.accounts, List.mem_cons, Prod.mk.injEq, List.not_mem_nil, or_false] at hmem
      rcases hmem with ⟨rfl, rfl⟩ | ⟨rfl, rfl⟩ | ⟨rfl, rfl⟩ <;> rfl
    simp only [sampleCoder, hlookup]
    have hstarts : data.take 8 = sampleCoder.sampleDiscriminator name := hdiscriminator
    rw [if_pos hstarts, hdecode]

def sampleFees : Program.PoolFees := ⟨250, 100000, 0, 100000⟩

def samplePoolAccount : State.Pool where
  lpMint := .replicate 3
  tokenAMint := .replicate 1
  tokenBMint := .replicate 2
  aVault := .replicate 4
  bVault := .replicate 5
  aVaultLp := .replicate 6
  bVaultLp := .replicate 7
  aVaultLpBump := 255
  enabled := true
  protocolTokenAFee := .replicate 8
  protocolTokenBFee := .replicate 9
  feeLastUpdatedAt := 0
  padding0 := .replicate 24 0
  fees := sampleFees
  poolType := .permissionless
  stake := .replicate 0
  totalLockedLp := 0
  bootstrapping := ⟨0, .replicate 0, .replicate 0, 0⟩
  padding := ⟨.replicate 14 0, .replicate 24 0⟩
  curveType := .stable 100 ⟨1000, 1, 9⟩ ⟨0, 0, .none⟩ 0

def sampleConfig : State.Config := ⟨sampleFees, 0, .replicate 0, .replicate 14, 0, .replicate 227 0⟩

def sampleLockEscrow : State.LockEscrow := ⟨.replicate 10, .replicate 15, .replicate 16, 254, 5000, 0, 0, 0, 0⟩

theorem take_serialize {α : Type} (format : AccountFormat α) (a : α) (rest : Bytes) :
    (format.serialize a ++ rest).take 8 = format.discriminator.toList := by
  rw [AccountFormat.serialize, List.append_assoc, List.take_left' format.discriminator.toList_length]

theorem tryDeserialize_serialize {α : Type} (format : AccountFormat α) (a : α) (rest : Bytes) :
    format.tryDeserialize (format.serialize a ++ rest) = .ok a :=
  AccountFormat.tryDeserialize_eq_ok_iff_append.mpr ⟨rest, rfl⟩

/-- Data under the discriminator of another type. -/
theorem readable_of_ne {α : Type} {format : AccountFormat α} {data : Bytes}
    (h : data.take 8 ≠ format.discriminator.toList) : Readable format data :=
  fun hdiscriminator => absurd hdiscriminator h

def sampleAccountsOwned : List (Pubkey × Bytes) :=
  [(.replicate 10, Pool.account.serialize samplePoolAccount ++ []),
    (.replicate 11, Config.account.serialize sampleConfig ++ []),
    (.replicate 12, State.LockEscrow.account.serialize sampleLockEscrow ++ []), (.replicate 13, [1, 2, 3])]

theorem mem_sampleAccountsOwned {P : Bytes → Prop} (hpool : P (Pool.account.serialize samplePoolAccount ++ []))
    (hconfig : P (Config.account.serialize sampleConfig ++ []))
    (hlockEscrow : P (State.LockEscrow.account.serialize sampleLockEscrow ++ [])) (hother : P [1, 2, 3]) :
    ∀ account ∈ sampleAccountsOwned, P account.2 := by
  simp only [sampleAccountsOwned, List.mem_cons, List.not_mem_nil, or_false]
  rintro account (rfl | rfl | rfl | rfl)
  · exact hpool
  · exact hconfig
  · exact hlockEscrow
  · exact hother

/-- One account of each type, and one that is none of them. -/
def sampleLedger : Ledger where
  accounts := sampleAccountsOwned
  distinct := by decide
  readablePool := mem_sampleAccountsOwned (fun _ => ⟨_, tryDeserialize_serialize ..⟩)
    (readable_of_ne (by rw [take_serialize]; decide)) (readable_of_ne (by rw [take_serialize]; decide))
    (readable_of_ne (by decide))
  readableConfig := mem_sampleAccountsOwned (readable_of_ne (by rw [take_serialize]; decide))
    (fun _ => ⟨_, tryDeserialize_serialize ..⟩) (readable_of_ne (by rw [take_serialize]; decide))
    (readable_of_ne (by decide))
  readableLockEscrow := mem_sampleAccountsOwned (readable_of_ne (by rw [take_serialize]; decide))
    (readable_of_ne (by rw [take_serialize]; decide)) (fun _ => ⟨_, tryDeserialize_serialize ..⟩)
    (readable_of_ne (by decide))

def sampleAll (name : String) (filters : List Memcmp) : Throwing (List AccountRecord) :=
  (sampleLedger.accounts.filter fun account =>
    (Memcmp.mk 0 (sampleCoder.accountDiscriminator name) :: filters).all (·.matches account.2)).mapM
    fun (publicKey, data) => do
      let account ← sampleCoder.decode name data
      pure (publicKey, account)

theorem sampleAnswers : Answers sampleCoder sampleAll sampleLedger.accounts := by
  intro name filters records h
  refine ⟨records, mapM_eq_ok.mpr (h.imp ?_), .rfl⟩
  rintro ⟨publicKey, data⟩ ⟨key, record⟩ ⟨rfl, hdecode⟩
  exact bind_eq_ok.mpr ⟨record, hdecode, rfl⟩

theorem searchPoolsByToken_exact_sample :
    ∃ records, searchPoolsByToken sampleAll (.replicate 2) = .ok records ∧
      records.Perm ((sampleLedger.pools.filter (·.2.tokenAMint = .replicate 2) ++
        sampleLedger.pools.filter (·.2.tokenBMint = .replicate 2)).map fun p => (p.1, p.2.view)) :=
  searchPoolsByToken_exact sampleCoder_lawful sampleAnswers _

theorem getPoolConfigsWithPoolCreatorAuthority_exact_sample :
    ∃ records, getPoolConfigsWithPoolCreatorAuthority sampleAll (.replicate 14) =
        .ok records ∧
      records.Perm ((sampleLedger.configs.filter (·.2.poolCreatorAuthority = .replicate 14)).map
        fun p => (p.1, p.2.view)) :=
  getPoolConfigsWithPoolCreatorAuthority_exact sampleCoder_lawful sampleAnswers _

def sampleFindProgramAddress (_ : List Bytes) (_ : Pubkey) : Pubkey := .replicate 12

theorem getLockedLpAmountByUser_exact_sample :
    ∃ map, getLockedLpAmountByUser sampleAll (.replicate 15) = .ok map ∧
      ∀ pool record, map.get pool = some record ↔ ∃ key escrow, (key, escrow) ∈ sampleLedger.lockEscrows ∧
        escrow.pool = pool ∧ escrow.owner = .replicate 15 ∧ escrow.view = record := by
  have hplaced : ∀ key escrow, (key, escrow) ∈ sampleLedger.lockEscrows → key = sampleFindProgramAddress
      (Program.DerivedAccount.lockEscrow escrow.pool escrow.owner).seeds (.replicate 0) := by
    intro key escrow h
    obtain ⟨data, hdata, hescrow⟩ := mem_holding.mp h
    have hdiscriminator := (AccountFormat.tryDeserialize_eq_ok.mp hescrow).1
    simp only [sampleLedger, sampleAccountsOwned, List.mem_cons, Prod.mk.injEq, List.not_mem_nil, or_false] at hdata
    rcases hdata with ⟨rfl, rfl⟩ | ⟨rfl, rfl⟩ | ⟨rfl, rfl⟩ | ⟨rfl, rfl⟩
    · exact absurd ((take_serialize ..).symm.trans hdiscriminator) (by decide)
    · exact absurd ((take_serialize ..).symm.trans hdiscriminator) (by decide)
    · rfl
    · exact absurd hdiscriminator (by decide)
  exact getLockedLpAmountByUser_exact sampleCoder_lawful sampleAnswers hplaced _

end Search

end Client

end DynamicAmm

import DynamicAmm.Base.Seeds
import DynamicAmm.Client.Loading
import DynamicAmm.Proof.Client.Quote

/-!
# Loading pools one by one and together

Both ways of loading a pool fetch the same accounts. What reaches a pool through the maps is the amount at
each of its addresses: whatever entry of a list comes last for an address, its type decodes the account the
same way, since no address is both a mint and a token account.
-/

namespace DynamicAmm.Client

open Js
open Program (Bytes Pubkey)

/-! ### Lists of results -/

theorem mapM_eq_ok {α β : Type} {f : α → Throwing β} {l : List α} {r : List β} :
    l.mapM f = .ok r ↔ List.Forall₂ (fun a b => f a = .ok b) l r := by
  induction l generalizing r with
  | nil =>
      rw [List.mapM_nil, pure_eq_ok, List.forall₂_nil_left_iff]
      exact eq_comm
  | cons a rest ih =>
      rw [List.mapM_cons]
      simp only [bind_eq_ok, pure_eq_ok, ih, List.forall₂_cons_left_iff]
      constructor
      · rintro ⟨b, hb, bs, hbs, rfl⟩
        exact ⟨b, bs, hb, hbs, rfl⟩
      · rintro ⟨b, bs, hb, hbs, rfl⟩
        exact ⟨b, hb, bs, hbs, rfl⟩

section

variable {α β : Type} {f : α → Throwing β} {l : List α} {r : List β}

theorem exists_left_of_mem {R : α → β → Prop} (h : List.Forall₂ R l r) {b : β} (hb : b ∈ r) :
    ∃ a ∈ l, R a b := by
  induction h with
  | nil => exact absurd hb List.not_mem_nil
  | @cons a' b' l r hhead _ ih =>
      rcases List.mem_cons.mp hb with rfl | hrest
      · exact ⟨a', List.mem_cons_self, hhead⟩
      · obtain ⟨a, ha, hab⟩ := ih hrest
        exact ⟨a, List.mem_cons_of_mem _ ha, hab⟩

theorem exists_right_of_mem {R : α → β → Prop} (h : List.Forall₂ R l r) {a : α} (ha : a ∈ l) :
    ∃ b ∈ r, R a b :=
  exists_left_of_mem h.flip ha

/-- Two relations along lists, the second from pairs of the first. -/
theorem forall₂_of_zip {γ : Type} {R : α → β → Prop} {S : α × β → γ → Prop} {results : List γ}
    (h : List.Forall₂ R l r) (h' : List.Forall₂ S (l.zip r) results) :
    List.Forall₂ (fun a c => ∃ b, R a b ∧ S (a, b) c) l results := by
  induction h generalizing results with
  | nil =>
      cases h'
      exact .nil
  | @cons a b l r hhead _ ih =>
      rw [List.zip_cons_cons] at h'
      cases h' with
      | cons hpair hrest => exact .cons ⟨b, hhead, hpair⟩ (ih hrest)

theorem forall₂_comp {γ : Type} {R : α → β → Prop} {S : β → γ → Prop} {results : List γ}
    (h : List.Forall₂ R l r) (h' : List.Forall₂ S r results) :
    List.Forall₂ (fun a c => ∃ b, R a b ∧ S b c) l results := by
  induction h generalizing results with
  | nil =>
      cases h'
      exact .nil
  | @cons a b l r hhead _ ih =>
      cases h' with
      | cons hpair hrest => exact .cons ⟨b, hhead, hpair⟩ (ih hrest)

theorem eq_map_some_of_length {results : List (Option α)}
    (h : (results.filterMap id).length = results.length) : results = (results.filterMap id).map some := by
  rw [List.filterMap_length_eq_length] at h
  induction results with
  | nil => rfl
  | cons o rest ih =>
      obtain ⟨a, rfl⟩ := Option.isSome_iff_exists.mp (h o List.mem_cons_self)
      exact congrArg (some a :: ·) (ih fun o' ho' => h o' (List.mem_cons_of_mem _ ho'))

theorem exists_mapM (h : ∀ a ∈ l, ∃ b, f a = .ok b) : ∃ r, l.mapM f = .ok r := by
  induction l with
  | nil => exact ⟨[], rfl⟩
  | cons a rest ih =>
      obtain ⟨b, hb⟩ := h a List.mem_cons_self
      obtain ⟨bs, hbs⟩ := ih fun a' ha' => h a' (List.mem_cons_of_mem _ ha')
      exact ⟨b :: bs, mapM_eq_ok.mpr (.cons hb (mapM_eq_ok.mp hbs))⟩

end

/-- Results that were computed in parts are those of the whole list. -/
theorem mapM_flatten {α β : Type} (f : α → Throwing β) (parts : List (List α)) :
    (do let results ← parts.mapM fun part => part.mapM f
        pure results.flatten) = parts.flatten.mapM f := by
  induction parts with
  | nil => rfl
  | cons part rest ih =>
      rw [List.flatten_cons, List.mapM_append, List.mapM_cons, ← ih]
      simp only [bind_assoc, pure_bind, List.flatten_cons]

theorem flatten_map_range {α : Type} (array : List α) (size n : Nat) :
    ((List.range n).map fun index => (array.drop (index * size)).take size).flatten =
      array.take (n * size) := by
  induction n with
  | zero => rw [List.range_zero, Nat.zero_mul]; rfl
  | succ n ih =>
      rw [List.range_succ, List.map_append, List.flatten_append, ih, Nat.succ_mul, List.take_add]
      simp

theorem chunks_flatten {α : Type} (array : List α) {size : Nat} (h : 0 < size) :
    (chunks array size).flatten = array := by
  rw [chunks, flatten_map_range, List.take_of_length_le]
  have := Nat.lt_div_mul_add h (a := array.length + size - 1)
  omega

/-! ### A network -/

/-- The accounts of a network, and what the programs that own them make of their data. -/
structure Store where
  accounts : Pubkey → Option Bytes
  /-- The decoder of pool accounts. -/
  decodePool : Bytes → Throwing PoolAccount
  vault : Pubkey → Throwing VaultImpl
  /-- Which addresses are mints. The others are token accounts. -/
  isMint : Pubkey → Bool

namespace Store

variable (store : Store)

def pool (key : Pubkey) : Throwing (Option PoolAccount) :=
  match store.accounts key with
  | none => pure none
  | some data => do
      let poolAccount ← store.decodePool data
      pure (some poolAccount)

/-- Every request is answered from one state of the accounts, in the order of the request and with nothing
for an account that does not exist. -/
structure Serves (connection : Connection) (layouts : TokenLayouts) : Prop where
  accountsInfo : ∀ keys, connection.getMultipleAccountsInfo keys = .ok (keys.map store.accounts)
  fetchMultiple : ∀ keys, connection.fetchMultiple keys = keys.mapM store.pool
  fetchNullable : ∀ key, connection.fetchNullable key = store.pool key
  tokenSupply : ∀ mint data supply, store.accounts mint = some data →
    layouts.mintSupply data = .ok supply → connection.getTokenSupply mint = .ok supply
  vaults : ∀ keys, connection.createMultipleWithPda keys = keys.mapM store.vault
  vaultPda : ∀ key vault, store.vault key = .ok vault → vault.vaultPda = key

/-- No address is both a mint and a token account to the pools of a list. -/
structure Separates (poolList : List Pubkey) : Prop where
  lpMint : ∀ key ∈ poolList, ∀ poolAccount, store.pool key = .ok (some poolAccount) →
    store.isMint poolAccount.lpMint = true
  vaultLp : ∀ key ∈ poolList, ∀ poolAccount, store.pool key = .ok (some poolAccount) →
    store.isMint poolAccount.aVaultLp = false ∧ store.isMint poolAccount.bVaultLp = false
  vault : ∀ key ∈ poolList, ∀ poolAccount, store.pool key = .ok (some poolAccount) →
    ∀ vault, store.vault poolAccount.aVault = .ok vault ∨ store.vault poolAccount.bVault = .ok vault →
      store.isMint vault.vaultState.lpMint = true ∧ store.isMint vault.vaultState.tokenVault = false

end Store

variable {store : Store} {connection : Connection} {layouts : TokenLayouts}

namespace Store.Serves

theorem getMultipleAccountInfos (h : store.Serves connection layouts) (pks : List Pubkey) :
    chunkedGetMultipleAccountInfos connection pks = .ok (pks.map store.accounts) := by
  have hchunks : ∀ parts : List (List Pubkey),
      parts.mapM connection.getMultipleAccountsInfo = .ok (parts.map (List.map store.accounts)) := by
    intro parts
    rw [mapM_eq_ok, List.forall₂_map_right_iff, List.forall₂_same]
    intro part _
    exact h.accountsInfo part
  rw [chunkedGetMultipleAccountInfos, hchunks]
  change Except.ok _ = _
  rw [← List.map_flatten, chunks_flatten pks (by decide)]

theorem fetchMultiplePoolAccount (h : store.Serves connection layouts) (pks : List Pubkey) :
    chunkedFetchMultiplePoolAccount connection pks =
      (do let accounts ← pks.mapM store.pool
          pure (accounts.filterMap id)) := by
  have hfetch : connection.fetchMultiple = fun keys => keys.mapM store.pool := funext h.fetchMultiple
  rw [chunkedFetchMultiplePoolAccount, hfetch]
  conv_rhs => rw [← chunks_flatten pks (show 0 < 100 by decide), ← mapM_flatten]
  simp only [bind_assoc, pure_bind]

theorem getAccountsBuffer_eq (h : store.Serves connection layouts) (accountsToFetch : List AccountsType) :
    getAccountsBuffer connection accountsToFetch =
      .ok (JsMap.empty.setAll (accountsToFetch.map fun account =>
        (account.pubkey, ⟨account.type, store.accounts account.pubkey⟩))) := by
  have hpaired : (accountsToFetch.mapIdx fun index account => (account.pubkey,
        (⟨account.type, ((accountsToFetch.map AccountsType.pubkey).map store.accounts)[index]?.join⟩ :
          AccountTypeInfo))) =
      accountsToFetch.map fun account => (account.pubkey, ⟨account.type, store.accounts account.pubkey⟩) := by
    apply List.ext_getElem
    · rw [List.length_mapIdx, List.length_map]
    · intro index hleft hright
      have hindex : index < accountsToFetch.length := by simpa using hright
      simp [List.getElem?_eq_getElem hindex]
  rw [getAccountsBuffer, h.getMultipleAccountInfos, ← hpaired]
  rfl

end Store.Serves

/-! ### Amounts by address -/

def AccountType.ofMint : AccountType → Bool
  | .vaultALp | .vaultBLp | .poolLpMint => true
  | _ => false

/-- What the account at an address holds, by what it is. -/
def Store.amountAt (store : Store) (layouts : TokenLayouts) (key : Pubkey) : Throwing Int :=
  match store.accounts key with
  | none => throw missingAccount
  | some data =>
      if key = sysvarClock then readBigInt64LE data 32
      else if store.isMint key then layouts.mintSupply data else layouts.accountAmount data

/-- A request whose types are those of its accounts. -/
def Store.Typed (store : Store) (accountsToFetch : List AccountsType) : Prop :=
  ∀ account ∈ accountsToFetch,
    account.type ≠ .sysvarClock ∧ account.type.ofMint = store.isMint account.pubkey

/-- The answers to a request, and to one for the clock after it. -/
def Store.buffer (store : Store) (accountsToFetch : List AccountsType) : JsMap Pubkey AccountTypeInfo :=
  JsMap.empty.setAll ((accountsToFetch ++ [Loading.clockToFetch]).map fun account =>
    (account.pubkey, ⟨account.type, store.accounts account.pubkey⟩))

section Amounts

variable {accountsToFetch : List AccountsType}

theorem buffer_eq (store : Store) (accountsToFetch : List AccountsType) :
    store.buffer accountsToFetch =
      (JsMap.empty.setAll (accountsToFetch.map fun account =>
        (account.pubkey, ⟨account.type, store.accounts account.pubkey⟩))).set sysvarClock
          ⟨.sysvarClock, store.accounts sysvarClock⟩ := by
  rw [Store.buffer, List.map_append, JsMap.setAll, List.foldl_append]
  rfl

theorem buffer_get_clock : (store.buffer accountsToFetch).get sysvarClock =
    some ⟨.sysvarClock, store.accounts sysvarClock⟩ := by
  rw [buffer_eq, JsMap.get_set, if_pos rfl]

theorem exists_buffer_get {account : AccountsType} (h : account ∈ accountsToFetch) :
    ∃ info, (store.buffer accountsToFetch).get account.pubkey = some info := by
  have hkey : account.pubkey ∈ ((accountsToFetch ++ [Loading.clockToFetch]).map fun account =>
      (account.pubkey, (⟨account.type, store.accounts account.pubkey⟩ : AccountTypeInfo))).map Prod.fst := by
    rw [List.map_map]
    exact List.mem_map.mpr ⟨account, List.mem_append_left _ h, rfl⟩
  obtain ⟨info, _, hget⟩ := JsMap.exists_get_setAll hkey JsMap.empty
  exact ⟨info, hget⟩

/-- Whichever entry is the last one for an address, its type suits the account. -/
theorem decode_buffer (htyped : store.Typed accountsToFetch) {key : Pubkey} {info : AccountTypeInfo}
    (h : (store.buffer accountsToFetch).get key = some info) :
    info.decode layouts = store.amountAt layouts key := by
  rw [buffer_eq, JsMap.get_set] at h
  by_cases hclock : key = sysvarClock
  · rw [if_pos hclock, Option.some.injEq] at h
    rw [← h, AccountTypeInfo.decode, Store.amountAt, ← hclock]
    cases store.accounts key with
    | none => rfl
    | some data =>
        simp only [if_true]
        rfl
  · rw [if_neg hclock] at h
    have hkey : key ∈ (accountsToFetch.map fun account =>
        (account.pubkey, (⟨account.type, store.accounts account.pubkey⟩ : AccountTypeInfo))).map Prod.fst := by
      by_contra hnot
      rw [JsMap.get_setAll_of_not_mem hnot] at h
      cases h
    obtain ⟨info', hmem, hget⟩ := JsMap.exists_get_setAll hkey JsMap.empty
    rw [h, Option.some.injEq] at hget
    subst hget
    obtain ⟨account, haccount, heq⟩ := List.mem_map.mp hmem
    rw [Prod.mk.injEq] at heq
    obtain ⟨rfl, rfl⟩ := heq
    obtain ⟨hne, hmint⟩ := htyped account haccount
    rw [AccountTypeInfo.decode, Store.amountAt]
    cases store.accounts account.pubkey with
    | none => rfl
    | some data =>
        simp only [if_neg hclock, ← hmint]
        cases htype : account.type <;> first | rfl | exact absurd htype hne

variable {accountInfoMap : JsMap Pubkey AccountTypeInfo} {amounts : JsMap Pubkey Int}

/-- Each account that was fetched is decoded under its own address. -/
theorem deserialize_get (h : deserializeAccountsBuffer layouts accountInfoMap = .ok amounts) {key : Pubkey}
    {info : AccountTypeInfo} (hkey : accountInfoMap.get key = some info) :
    ∃ amount, info.decode layouts = .ok amount ∧ amounts.get key = some amount := by
  obtain ⟨decoded, hdecoded, hamounts⟩ := bind_eq_ok.mp h
  rw [pure_eq_ok] at hamounts
  obtain ⟨entry, hentry, hdecode⟩ := exists_right_of_mem (mapM_eq_ok.mp hdecoded) (JsMap.mem_of_get_eq_some hkey)
  obtain ⟨_, _, hpair⟩ := bind_eq_ok.mp hdecode
  rw [pure_eq_ok] at hpair
  subst hpair
  obtain ⟨amount, hmem, hget⟩ := JsMap.exists_get_setAll (List.mem_map_of_mem hentry) JsMap.empty
  -- The entry that the amount comes from is the one of the address.
  obtain ⟨⟨publicKey, info'⟩, hinfo', hamount⟩ := exists_left_of_mem (mapM_eq_ok.mp hdecoded) hmem
  obtain ⟨_, hdecode', heq⟩ := bind_eq_ok.mp hamount
  rw [pure_eq_ok, Prod.mk.injEq] at heq
  obtain ⟨rfl, rfl⟩ := heq
  rw [JsMap.get_eq_some_of_mem hinfo', Option.some.injEq] at hkey
  exact ⟨_, hkey ▸ hdecode', hamounts ▸ hget⟩

theorem exists_deserialize
    (h : ∀ key info, accountInfoMap.get key = some info → ∃ amount, info.decode layouts = .ok amount) :
    ∃ amounts, deserializeAccountsBuffer layouts accountInfoMap = .ok amounts := by
  obtain ⟨decoded, hdecoded⟩ := exists_mapM (l := accountInfoMap.entries)
    (f := fun entry => entry.2.decode layouts >>= fun amount => pure (entry.1, amount)) (by
    rintro ⟨publicKey, info⟩ hentry
    obtain ⟨amount, hamount⟩ := h publicKey info (JsMap.get_eq_some_of_mem hentry)
    exact ⟨(publicKey, amount), bind_eq_ok.mpr ⟨amount, hamount, rfl⟩⟩)
  exact ⟨_, bind_eq_ok.mpr ⟨decoded, hdecoded, rfl⟩⟩

end Amounts

/-! ### The accounts of one pool -/

namespace Loading

/-- The accounts information that is read directly, each amount at its own address. -/
structure Shows (store : Store) (layouts : TokenLayouts) (accounts : PoolAccounts) (info : AccountsInfo) :
    Prop where
  clock : ∃ data, store.accounts sysvarClock = some data ∧
    decodeClock data = .ok ⟨info.currentSlot, info.currentTime⟩
  vaultAReserve : store.amountAt layouts accounts.tokenAVault.pubkey = .ok info.vaultAReserve
  vaultBReserve : store.amountAt layouts accounts.tokenBVault.pubkey = .ok info.vaultBReserve
  vaultALpSupply : store.amountAt layouts accounts.vaultALp.pubkey = .ok info.vaultALpSupply
  vaultBLpSupply : store.amountAt layouts accounts.vaultBLp.pubkey = .ok info.vaultBLpSupply
  poolVaultALp : store.amountAt layouts accounts.poolVaultA.pubkey = .ok info.poolVaultALp
  poolVaultBLp : store.amountAt layouts accounts.poolVaultB.pubkey = .ok info.poolVaultBLp
  poolLpSupply : store.amountAt layouts accounts.poolLpMint.pubkey = .ok info.poolLpSupply

variable {accounts : PoolAccounts} {info info' : AccountsInfo}

theorem Shows.unique (h : Shows store layouts accounts info) (h' : Shows store layouts accounts info') :
    info = info' := by
  obtain ⟨data, hdata, hclock⟩ := h.clock
  obtain ⟨data', hdata', hclock'⟩ := h'.clock
  rw [hdata, Option.some.injEq] at hdata'
  rw [← hdata', hclock, Except.ok.injEq, Clock.mk.injEq] at hclock'
  have hamount : ∀ {key a a'}, store.amountAt layouts key = .ok a → store.amountAt layouts key = .ok a' →
      a = a' := by
    intro key a a' ha ha'
    exact Except.ok.inj (ha.symm.trans ha')
  cases info
  cases info'
  rw [AccountsInfo.mk.injEq]
  exact ⟨hclock'.2, hclock'.1, hamount h.poolVaultALp h'.poolVaultALp, hamount h.poolVaultBLp h'.poolVaultBLp,
    hamount h.vaultALpSupply h'.vaultALpSupply, hamount h.vaultBLpSupply h'.vaultBLpSupply,
    hamount h.vaultAReserve h'.vaultAReserve, hamount h.vaultBReserve h'.vaultBReserve,
    hamount h.poolLpSupply h'.poolLpSupply⟩

variable {accountsToFetch : List AccountsType} {amounts : JsMap Pubkey Int} {clock : Clock}

theorem getClock_buffer : getClock (store.buffer accountsToFetch) = .ok clock ↔
    ∃ data, store.accounts sysvarClock = some data ∧ decodeClock data = .ok clock := by
  simp only [getClock, buffer_get_clock]
  cases store.accounts sysvarClock with
  | none => simp [throw, throwThe, MonadExceptOf.throw]
  | some data => simp

/-- A pool is given the amounts at its own addresses, out of any request that its accounts are part of. -/
theorem getAccountsInfo_shows (htyped : store.Typed accountsToFetch)
    (hamounts : deserializeAccountsBuffer layouts (store.buffer accountsToFetch) = .ok amounts)
    (hclock : getClock (store.buffer accountsToFetch) = .ok clock)
    (hpart : ∀ account ∈ accounts.toList, account ∈ accountsToFetch) :
    ∃ info, getAccountsInfo amounts clock accounts = .ok info ∧ Shows store layouts accounts info := by
  have hget : ∀ account ∈ accounts.toList, ∃ amount, store.amountAt layouts account.pubkey = .ok amount ∧
      amounts.get account.pubkey = some amount := by
    intro account haccount
    obtain ⟨info, hinfo⟩ := exists_buffer_get (hpart account haccount)
    obtain ⟨amount, hdecode, hamount⟩ := deserialize_get hamounts hinfo
    exact ⟨amount, decode_buffer htyped hinfo ▸ hdecode, hamount⟩
  simp only [PoolAccounts.toList, List.forall_mem_cons, List.not_mem_nil, false_imp_iff, implies_true,
    and_true] at hget
  obtain ⟨⟨_, hshowsAR, hAR⟩, ⟨_, hshowsBR, hBR⟩, ⟨_, hshowsAS, hAS⟩, ⟨_, hshowsBS, hBS⟩,
    ⟨_, hshowsAL, hAL⟩, ⟨_, hshowsBL, hBL⟩, ⟨_, hshowsLp, hLp⟩⟩ := hget
  refine ⟨⟨clock.unixTimestamp, clock.slot, _, _, _, _, _, _, _⟩, ?_, getClock_buffer.mp hclock, hshowsAR,
    hshowsBR, hshowsAS, hshowsBS, hshowsAL, hshowsBL, hshowsLp⟩
  rw [getAccountsInfo, hAR, hBR, hAS, hBS, hAL, hBL, hLp]
  rfl

/-- The accounts of a pool are read, if each is there and of its type. -/
theorem exists_amounts (htyped : store.Typed accountsToFetch)
    (hclock : ∃ data, store.accounts sysvarClock = some data ∧ decodeClock data = .ok clock)
    (h : ∀ account ∈ accountsToFetch, ∃ amount, store.amountAt layouts account.pubkey = .ok amount) :
    ∃ amounts, deserializeAccountsBuffer layouts (store.buffer accountsToFetch) = .ok amounts := by
  apply exists_deserialize
  intro key info hinfo
  rw [decode_buffer htyped hinfo]
  by_cases hkey : key = sysvarClock
  · obtain ⟨data, hdata, hclock⟩ := hclock
    obtain ⟨_, _, hrest⟩ := bind_eq_ok.mp hclock
    obtain ⟨unixTimestamp, htime, _⟩ := bind_eq_ok.mp hrest
    refine ⟨unixTimestamp, ?_⟩
    rw [Store.amountAt, hkey, hdata]
    exact (if_pos rfl).trans htime
  · have hmem : key ∈ (accountsToFetch.map fun account =>
        (account.pubkey, (⟨account.type, store.accounts account.pubkey⟩ : AccountTypeInfo))).map Prod.fst := by
      by_contra hnot
      rw [buffer_eq, JsMap.get_set, if_neg hkey, JsMap.get_setAll_of_not_mem hnot] at hinfo
      cases hinfo
    rw [List.map_map] at hmem
    obtain ⟨account, haccount, rfl⟩ := List.mem_map.mp hmem
    exact h account haccount

/-! ### One pool alone -/

/-- A pool of the store, with its vaults. -/
structure Holds (store : Store) (pool : Pubkey) (poolAccount : PoolAccount) (vaultA vaultB : VaultImpl) :
    Prop where
  fetched : store.pool pool = .ok (some poolAccount)
  vaultA : store.vault poolAccount.aVault = .ok vaultA
  vaultB : store.vault poolAccount.bVault = .ok vaultB

variable {poolList : List Pubkey} {pool : Pubkey} {poolAccount : PoolAccount} {vaultA vaultB : VaultImpl}

theorem Holds.typed (h : Holds store pool poolAccount vaultA vaultB) (hseparates : store.Separates poolList)
    (hpool : pool ∈ poolList) : store.Typed (Loading.accountsToFetch poolAccount vaultA vaultB).toList := by
  obtain ⟨hmintA, htokenA⟩ := hseparates.vault pool hpool poolAccount h.fetched vaultA (Or.inl h.vaultA)
  obtain ⟨hmintB, htokenB⟩ := hseparates.vault pool hpool poolAccount h.fetched vaultB (Or.inr h.vaultB)
  obtain ⟨hlpA, hlpB⟩ := hseparates.vaultLp pool hpool poolAccount h.fetched
  have hlp := hseparates.lpMint pool hpool poolAccount h.fetched
  simp [Store.Typed, PoolAccounts.toList, Loading.accountsToFetch, AccountType.ofMint, hmintA, htokenA, hmintB,
    htokenB, hlpA, hlpB, hlp]

/-- `create` reads what is shown at the addresses of its pool. -/
theorem load_eq_ok (hserves : store.Serves connection layouts) (h : Holds store pool poolAccount vaultA vaultB)
    (hsupply : ∃ lpSupply, connection.getTokenSupply poolAccount.lpMint = .ok lpSupply)
    (htyped : store.Typed (Loading.accountsToFetch poolAccount vaultA vaultB).toList)
    (hshows : Shows store layouts (Loading.accountsToFetch poolAccount vaultA vaultB) info) :
    ∃ poolState, load layouts connection pool = .ok (poolState, vaultA, vaultB, info) := by
  obtain ⟨lpSupply, hsupply⟩ := hsupply
  have hstate : getPoolState connection pool = .ok { poolAccount with lpSupply } := by
    rw [getPoolState, hserves.fetchNullable]
    exact bind_eq_ok.mpr ⟨_, h.fetched, bind_eq_ok.mpr ⟨_, hsupply, rfl⟩⟩
  have hvaults : connection.createMultipleWithPda [poolAccount.aVault, poolAccount.bVault] =
      .ok [vaultA, vaultB] := by
    rw [hserves.vaults]
    exact mapM_eq_ok.mpr (.cons h.vaultA (.cons h.vaultB .nil))
  obtain ⟨amounts, hamounts⟩ := exists_amounts htyped hshows.clock (by
    intro account haccount
    simp only [PoolAccounts.toList, List.mem_cons, List.not_mem_nil, or_false] at haccount
    obtain rfl | rfl | rfl | rfl | rfl | rfl | rfl := haccount
    exacts [⟨_, hshows.vaultAReserve⟩, ⟨_, hshows.vaultBReserve⟩, ⟨_, hshows.vaultALpSupply⟩,
      ⟨_, hshows.vaultBLpSupply⟩, ⟨_, hshows.poolVaultALp⟩, ⟨_, hshows.poolVaultBLp⟩,
      ⟨_, hshows.poolLpSupply⟩])
  have hclock : getClock (store.buffer (Loading.accountsToFetch poolAccount vaultA vaultB).toList) = .ok _ :=
    getClock_buffer.mpr hshows.clock
  obtain ⟨info', hinfo', hshows'⟩ := getAccountsInfo_shows htyped hamounts hclock fun _ => id
  rw [hshows'.unique hshows] at hinfo'
  refine ⟨{ poolAccount with lpSupply }, ?_⟩
  rw [load]
  refine bind_eq_ok.mpr ⟨_, hstate, bind_eq_ok.mpr ⟨_, hvaults, ?_⟩⟩
  refine bind_eq_ok.mpr ⟨_, hserves.getAccountsBuffer_eq _, bind_eq_ok.mpr ⟨_, hamounts, ?_⟩⟩
  exact bind_eq_ok.mpr ⟨_, hclock, bind_eq_ok.mpr ⟨_, hinfo', rfl⟩⟩

/-! ### Several pools -/

/-- Every pool of the list was found, in the order of the list, and so was its LP mint. -/
theorem getAllPoolState_eq_ok (hserves : store.Serves connection layouts) {poolsState : List SuppliedPool}
    (h : getAllPoolState connection layouts poolList = .ok poolsState) :
    List.Forall₂ (fun pool poolState => store.pool pool = .ok (some poolState.toPoolAccount) ∧
      ∃ lpSupply, connection.getTokenSupply poolState.lpMint = .ok lpSupply) poolList poolsState := by
  rw [getAllPoolState, hserves.fetchMultiplePoolAccount] at h
  obtain ⟨poolStates, hfetch, h⟩ := bind_eq_ok.mp h
  obtain ⟨found, hfound, hpoolStates⟩ := bind_eq_ok.mp hfetch
  rw [pure_eq_ok] at hpoolStates
  obtain ⟨_, hlength, h⟩ := bind_eq_ok.mp h
  rw [invariant_eq_ok, decide_eq_true_iff] at hlength
  obtain ⟨lpMintAccounts, hmints, h⟩ := bind_eq_ok.mp h
  rw [hserves.getMultipleAccountInfos, Except.ok.injEq] at hmints
  have hfound := mapM_eq_ok.mp hfound
  -- No pool was filtered out, since none is missing from the count.
  have hall : found = poolStates.map some := by
    rw [← hpoolStates]
    apply eq_map_some_of_length
    rw [hpoolStates, hlength, hfound.length_eq]
  rw [hall, List.forall₂_map_right_iff] at hfound
  have hsupplied : List.Forall₂ (fun poolAccount (poolState : SuppliedPool) =>
      poolState.toPoolAccount = poolAccount ∧
        ∃ lpSupply, connection.getTokenSupply poolState.lpMint = .ok lpSupply) poolStates poolsState := by
    obtain ⟨hlength, hget⟩ := List.forall₂_iff_get.mp (mapM_eq_ok.mp h)
    rw [List.length_zipIdx] at hlength
    refine List.forall₂_iff_get.mpr ⟨hlength, fun i hi hi' => ?_⟩
    have hi'' : i < poolStates.zipIdx.length := by
      rw [List.length_zipIdx]
      exact hi
    have hstep := hget i hi'' hi'
    have hmint : lpMintAccounts[i]?.join = store.accounts poolStates[i].lpMint := by
      simp [← hmints, List.getElem?_eq_getElem hi]
    simp only [List.get_eq_getElem, List.getElem_zipIdx, Nat.zero_add, hmint] at hstep
    cases hdata : store.accounts poolStates[i].lpMint with
    | none =>
        rw [hdata] at hstep
        cases hstep
    | some data =>
        rw [hdata] at hstep
        obtain ⟨lpSupply, hsupply, hstate⟩ := bind_eq_ok.mp hstep
        rw [pure_eq_ok] at hstate
        rw [List.get_eq_getElem, List.get_eq_getElem, ← hstate]
        exact ⟨rfl, lpSupply, hserves.tokenSupply _ data lpSupply hdata hsupply⟩
  refine (forall₂_comp hfound hsupplied).imp ?_
  rintro pool poolState ⟨_, hpool, rfl, hsupply⟩
  exact ⟨hpool, hsupply⟩

theorem find?_vault (hserves : store.Serves connection layouts) {keys : List Pubkey}
    {vaultsImpl : List VaultImpl} (hvaults : connection.createMultipleWithPda keys = .ok vaultsImpl)
    {key : Pubkey} {vault : VaultImpl}
    (h : (vaultsImpl.find? fun vault => vault.vaultPda = key) = some vault) : store.vault key = .ok vault := by
  rw [hserves.vaults] at hvaults
  obtain ⟨key', _, hkey'⟩ := exists_left_of_mem (mapM_eq_ok.mp hvaults) (List.mem_of_find?_eq_some h)
  have hpda : vault.vaultPda = key := by simpa using List.find?_some h
  rw [hserves.vaultPda key' vault hkey'] at hpda
  rw [← hpda]
  exact hkey'

theorem findVaults_eq_ok (hserves : store.Serves connection layouts) {keys : List Pubkey}
    {vaultsImpl : List VaultImpl} (hvaults : connection.createMultipleWithPda keys = .ok vaultsImpl)
    {poolState : SuppliedPool} {data : PoolInfoData} (h : findVaults vaultsImpl pool poolState = .ok data) :
    data.poolState = poolState ∧ store.vault poolState.aVault = .ok data.vaultA ∧
      store.vault poolState.bVault = .ok data.vaultB := by
  rw [findVaults] at h
  rcases hA : vaultsImpl.find? fun vault => vault.vaultPda = poolState.aVault with _ | vaultA
  · rw [hA] at h
    cases h
  rcases hB : vaultsImpl.find? fun vault => vault.vaultPda = poolState.bVault with _ | vaultB
  · rw [hA, hB] at h
    cases h
  rw [hA, hB] at h
  cases h
  exact ⟨rfl, find?_vault hserves hvaults hA, find?_vault hserves hvaults hB⟩

variable {sdk : VaultSdk} {decoders : StakeDecoders} {sqrt : Int → Throwing Int}
  {depegAccounts : JsMap Pubkey Bytes}

theorem makeAmm_accountsInfo {poolState : SuppliedPool} {amm : AmmImpl}
    (h : makeAmm sdk decoders sqrt pool poolState vaultA vaultB info depegAccounts = .ok amm) :
    amm.accountsInfo = info := by
  obtain ⟨_, _, h⟩ := bind_eq_ok.mp h
  obtain ⟨_, _, h⟩ := bind_eq_ok.mp h
  obtain ⟨_, _, h⟩ := bind_eq_ok.mp h
  rw [← pure_eq_ok.mp h]

theorem makeAmms_accountsInfo {requests : List PoolAccounts} {poolInfoMap : JsMap Pubkey PoolInfoData}
    {amms : List AmmImpl}
    (h : makeAmms sdk decoders sqrt amounts clock depegAccounts requests poolInfoMap = .ok amms) :
    List.Forall₂ (fun accounts amm => getAccountsInfo amounts clock accounts = .ok amm.accountsInfo)
      requests amms := by
  induction requests generalizing poolInfoMap amms with
  | nil =>
      rw [← pure_eq_ok.mp h]
      exact .nil
  | cons accounts rest ih =>
      obtain ⟨info, hinfo, h⟩ := bind_eq_ok.mp h
      cases hdata : poolInfoMap.get accounts.poolLpMint.pubkey with
      | none =>
          rw [hdata] at h
          cases h
      | some data =>
          rw [hdata] at h
          obtain ⟨amm, hamm, h⟩ := bind_eq_ok.mp h
          obtain ⟨amms, hamms, h⟩ := bind_eq_ok.mp h
          rw [← pure_eq_ok.mp h]
          refine .cons ?_ (ih hamms)
          rw [makeAmm_accountsInfo hamm]
          exact hinfo

/-- Every pool of the list exists, and its object holds what is shown at the addresses of the pool. -/
theorem createMultiple_shows (hserves : store.Serves connection layouts)
    (hseparates : store.Separates poolList) {amms : List AmmImpl}
    (h : AmmImpl.createMultiple sdk decoders sqrt layouts connection poolList = .ok amms) :
    List.Forall₂ (fun pool amm => ∃ poolAccount vaultA vaultB,
      Holds store pool poolAccount vaultA vaultB ∧
        (∃ lpSupply, connection.getTokenSupply poolAccount.lpMint = .ok lpSupply) ∧
        Shows store layouts (Loading.accountsToFetch poolAccount vaultA vaultB) amm.accountsInfo)
      poolList amms := by
  obtain ⟨poolsState, hpoolsState, h⟩ := bind_eq_ok.mp h
  obtain ⟨vaultsImpl, hvaults, h⟩ := bind_eq_ok.mp h
  obtain ⟨poolInfoData, hdata, h⟩ := bind_eq_ok.mp h
  obtain ⟨accountsBufferMap, hbuffer, h⟩ := bind_eq_ok.mp h
  obtain ⟨clock, hclock, h⟩ := bind_eq_ok.mp h
  obtain ⟨amounts, hamounts, h⟩ := bind_eq_ok.mp h
  obtain ⟨depegAccounts, _, hamms⟩ := bind_eq_ok.mp h
  rw [hserves.getAccountsBuffer_eq, Except.ok.injEq] at hbuffer
  subst hbuffer
  have hheld : List.Forall₂ (fun pool (data : PoolInfoData) =>
      Holds store pool data.poolState.toPoolAccount data.vaultA data.vaultB ∧
        ∃ lpSupply, connection.getTokenSupply data.poolState.lpMint = .ok lpSupply) poolList poolInfoData := by
    refine (forall₂_of_zip (getAllPoolState_eq_ok hserves hpoolsState) (mapM_eq_ok.mp hdata)).imp ?_
    rintro pool data ⟨poolState, ⟨hpool, hsupply⟩, hfind⟩
    obtain ⟨rfl, hA, hB⟩ := findVaults_eq_ok hserves hvaults hfind
    exact ⟨⟨hpool, hA, hB⟩, hsupply⟩
  have htyped : store.Typed ((poolInfoData.map fun data =>
      Loading.accountsToFetch data.poolState.toPoolAccount data.vaultA data.vaultB).flatMap
        PoolAccounts.toList) := by
    intro account haccount
    obtain ⟨request, hrequest, haccount⟩ := List.mem_flatMap.mp haccount
    obtain ⟨data, hdata, rfl⟩ := List.mem_map.mp hrequest
    obtain ⟨pool, hpool, hholds, _⟩ := exists_left_of_mem hheld hdata
    exact hholds.typed hseparates hpool account haccount
  have hinfos := makeAmms_accountsInfo hamms
  rw [List.forall₂_map_left_iff] at hinfos
  have hshown : List.Forall₂ (fun (data : PoolInfoData) amm => data ∈ poolInfoData ∧
      getAccountsInfo amounts clock (Loading.accountsToFetch data.poolState.toPoolAccount data.vaultA
        data.vaultB) = .ok amm.accountsInfo) poolInfoData amms := by
    rw [List.forall₂_and_left]
    exact ⟨fun _ => id, hinfos⟩
  refine (forall₂_comp hheld hshown).imp ?_
  rintro pool amm ⟨data, ⟨hholds, hsupply⟩, hmem, hinfo⟩
  have hpart : ∀ account ∈ (Loading.accountsToFetch data.poolState.toPoolAccount data.vaultA
      data.vaultB).toList, account ∈ (poolInfoData.map fun data =>
        Loading.accountsToFetch data.poolState.toPoolAccount data.vaultA data.vaultB).flatMap
          PoolAccounts.toList := by
    intro account haccount
    exact List.mem_flatMap.mpr ⟨_, List.mem_map.mpr ⟨data, hmem, rfl⟩, haccount⟩
  obtain ⟨info, hinfo', hshows⟩ := getAccountsInfo_shows htyped hamounts hclock hpart
  rw [hinfo, Except.ok.injEq] at hinfo'
  exact ⟨_, _, _, hholds, hsupply, hinfo' ▸ hshows⟩

theorem createMultiple_eq_create (hserves : store.Serves connection layouts) (poolList : List Pubkey)
    (hseparates : store.Separates poolList) :
    (∀ amms, AmmImpl.createMultiple sdk decoders sqrt layouts connection poolList = .ok amms →
      List.Forall₂ (fun pool amm =>
        (∃ poolState vaultA vaultB,
          load layouts connection pool = .ok (poolState, vaultA, vaultB, amm.accountsInfo)) ∧
        ∀ alone, AmmImpl.create sdk decoders sqrt layouts connection pool = .ok alone →
          amm.accountsInfo = alone.accountsInfo) poolList amms) ∧
    ((∃ pool ∈ poolList, store.accounts pool = none) →
      ∃ message, AmmImpl.createMultiple sdk decoders sqrt layouts connection poolList = .error message) := by
  constructor
  · intro amms h
    have hshown := createMultiple_shows hserves hseparates h
    have hmem : List.Forall₂ (fun pool amm => pool ∈ poolList ∧ ∃ poolAccount vaultA vaultB,
        Holds store pool poolAccount vaultA vaultB ∧
          (∃ lpSupply, connection.getTokenSupply poolAccount.lpMint = .ok lpSupply) ∧
          Shows store layouts (Loading.accountsToFetch poolAccount vaultA vaultB) amm.accountsInfo)
        poolList amms := (List.forall₂_and_left _ _).mpr ⟨fun _ => id, hshown⟩
    refine hmem.imp ?_
    rintro pool amm ⟨hpool, poolAccount, vaultA, vaultB, hholds, hsupply, hshows⟩
    obtain ⟨poolState, hload⟩ := load_eq_ok hserves hholds hsupply (hholds.typed hseparates hpool) hshows
    refine ⟨⟨poolState, vaultA, vaultB, hload⟩, fun alone halone => ?_⟩
    obtain ⟨_, hload', halone⟩ := bind_eq_ok.mp halone
    rw [hload, Except.ok.injEq] at hload'
    subst hload'
    obtain ⟨_, _, halone⟩ := bind_eq_ok.mp halone
    exact (makeAmm_accountsInfo halone).symm
  · rintro ⟨pool, hpool, hmissing⟩
    cases h : AmmImpl.createMultiple sdk decoders sqrt layouts connection poolList with
    | error message => exact ⟨message, rfl⟩
    | ok amms =>
        obtain ⟨amm, _, poolAccount, vaultA, vaultB, hholds, _⟩ :=
          exists_right_of_mem (createMultiple_shows hserves hseparates h) hpool
        have hfetched := hholds.fetched
        rw [Store.pool, hmissing] at hfetched
        cases hfetched

/-! ### A sample -/

open Seeds (leBytes)

def storeConnection (store : Store) (layouts : TokenLayouts) : Connection where
  getMultipleAccountsInfo keys := .ok (keys.map store.accounts)
  fetchMultiple keys := keys.mapM store.pool
  fetchNullable := store.pool
  getTokenSupply mint :=
    match store.accounts mint with
    | none => throw "failed to get token supply: Invalid param: could not find account"
    | some data => layouts.mintSupply data
  createMultipleWithPda keys := keys.mapM store.vault

theorem storeConnection_serves {store : Store} (layouts : TokenLayouts)
    (hvault : ∀ key vault, store.vault key = .ok vault → vault.vaultPda = key) :
    store.Serves (storeConnection store layouts) layouts where
  accountsInfo _ := rfl
  fetchMultiple _ := rfl
  fetchNullable _ := rfl
  tokenSupply mint data supply hdata hsupply := by
    simp only [storeConnection, hdata, hsupply]
  vaults _ := rfl
  vaultPda := hvault

/-- The offsets of the two layouts. -/
def tokenLayouts : TokenLayouts where
  mintSupply data := readBigUInt64LE data 36
  accountAmount data := readBigUInt64LE data 64

def mintData (supply : Nat) : Bytes := List.replicate 36 0 ++ leBytes 8 supply ++ List.replicate 38 0

def tokenData (amount : Nat) : Bytes := List.replicate 64 0 ++ leBytes 8 amount ++ List.replicate 93 0

def clockData (slot unixTimestamp : Nat) : Bytes :=
  leBytes 8 slot ++ List.replicate 24 0 ++ leBytes 8 unixTimestamp

def samplePoolAccount (tokenAMint tokenBMint lpMint aVault bVault aVaultLp bVaultLp : Pubkey) :
    PoolAccount where
  toPoolState := { samplePoolState ⟨0, 100000, 0, 100000⟩ .constantProduct with tokenAMint, tokenBMint }
  lpMint := lpMint
  aVault := aVault
  bVault := bVault
  aVaultLp := aVaultLp
  bVaultLp := bVaultLp

def poolData (poolAccount : PoolAccount) : Bytes :=
  [241, 154, 109, 4, 17, 177, 109, 188] ++ poolAccount.lpMint.bytes ++ poolAccount.tokenAMint.bytes ++
    poolAccount.tokenBMint.bytes ++ poolAccount.aVault.bytes ++ poolAccount.bVault.bytes ++
    poolAccount.aVaultLp.bytes ++ poolAccount.bVaultLp.bytes ++ [255, 1] ++ List.replicate 96 0 ++
    leBytes 8 0 ++ leBytes 8 100000 ++ leBytes 8 0 ++ leBytes 8 100000 ++ List.replicate 513 0

def samplePoolAccounts : Fin 2 → PoolAccount
  | 0 => samplePoolAccount (.replicate 1) (.replicate 2) (.replicate 12) (.replicate 20) (.replicate 21)
      (.replicate 30) (.replicate 31)
  | 1 => samplePoolAccount (.replicate 2) (.replicate 1) (.replicate 13) (.replicate 21) (.replicate 20)
      (.replicate 32) (.replicate 33)

def sampleAccounts : List (Pubkey × Bytes) :=
  [(.replicate 10, poolData (samplePoolAccounts 0)), (.replicate 11, poolData (samplePoolAccounts 1)),
    (.replicate 12, mintData 1000), (.replicate 13, mintData 2000),
    (.replicate 22, tokenData 500000), (.replicate 23, mintData 900000),
    (.replicate 24, tokenData 700000), (.replicate 25, mintData 800000),
    (.replicate 30, tokenData 400), (.replicate 31, tokenData 100), (.replicate 32, tokenData 900),
    (.replicate 33, tokenData 2500), (sysvarClock, clockData 77 1000)]

def sampleVaults : Fin 2 → VaultImpl
  | 0 => ⟨.replicate 20, .replicate 1,
      { sampleVault 900000 with tokenVault := .replicate 22, lpMint := .replicate 23 }⟩
  | 1 => ⟨.replicate 21, .replicate 2,
      { sampleVault 800000 with tokenVault := .replicate 24, lpMint := .replicate 25 }⟩

def sampleStore : Store where
  accounts key := sampleAccounts.lookup key
  decodePool data :=
    if data = poolData (samplePoolAccounts 0) then .ok (samplePoolAccounts 0)
    else if data = poolData (samplePoolAccounts 1) then .ok (samplePoolAccounts 1)
    else .error "Invalid account discriminator"
  vault key :=
    if key = .replicate 20 then .ok (sampleVaults 0)
    else if key = .replicate 21 then .ok (sampleVaults 1)
    else .error "Cannot find vault"
  isMint key := key ∈ [.replicate 12, .replicate 13, .replicate 23, .replicate 25]

theorem sampleStore_serves :
    sampleStore.Serves (storeConnection sampleStore tokenLayouts) tokenLayouts := by
  apply storeConnection_serves
  intro key vault hvault
  simp only [sampleStore] at hvault
  split_ifs at hvault with hfirst hsecond
  · cases hvault
    exact hfirst.symm
  · cases hvault
    exact hsecond.symm

theorem sampleStore_pool {key : Pubkey} (hkey : key ∈ [Pubkey.replicate 10, .replicate 11, .replicate 10])
    {poolAccount : PoolAccount} (h : sampleStore.pool key = .ok (some poolAccount)) :
    ∃ i, poolAccount = samplePoolAccounts i := by
  have hpools : ∀ key ∈ [Pubkey.replicate 10, .replicate 11, .replicate 10],
      ∃ i, sampleStore.pool key = .ok (some (samplePoolAccounts i)) := by
    decide +kernel
  obtain ⟨i, hi⟩ := hpools key hkey
  rw [hi, Except.ok.injEq, Option.some.injEq] at h
  exact ⟨i, h.symm⟩

theorem sampleStore_vault {key : Pubkey} {vault : VaultImpl} (h : sampleStore.vault key = .ok vault) :
    ∃ i, vault = sampleVaults i := by
  simp only [sampleStore] at h
  split_ifs at h
  · exact ⟨0, (Except.ok.inj h).symm⟩
  · exact ⟨1, (Except.ok.inj h).symm⟩

theorem sampleStore_separates : sampleStore.Separates [.replicate 10, .replicate 11, .replicate 10] where
  lpMint key hkey poolAccount hpool := by
    obtain ⟨i, rfl⟩ := sampleStore_pool hkey hpool
    clear hpool
    revert i
    decide
  vaultLp key hkey poolAccount hpool := by
    obtain ⟨i, rfl⟩ := sampleStore_pool hkey hpool
    clear hpool
    revert i
    decide
  vault key hkey poolAccount hpool vault hvault := by
    obtain ⟨i, rfl⟩ := hvault.elim sampleStore_vault sampleStore_vault
    clear hvault
    revert i
    decide

/-- Each pool gets its own amounts, the repeated one both times. -/
theorem createMultiple_eq_create_sample :
    (AmmImpl.createMultiple sampleSdk sampleDecoders (fun n => .ok n.sqrt) tokenLayouts
        (storeConnection sampleStore tokenLayouts) [.replicate 10, .replicate 11, .replicate 10]).map
          (List.map AmmImpl.accountsInfo) =
      .ok [⟨1000, 77, 400, 100, 900000, 800000, 500000, 700000, 1000⟩,
        ⟨1000, 77, 900, 2500, 800000, 900000, 700000, 500000, 2000⟩,
        ⟨1000, 77, 400, 100, 900000, 800000, 500000, 700000, 1000⟩] ∧
    (∀ amms, AmmImpl.createMultiple sampleSdk sampleDecoders (fun n => .ok n.sqrt) tokenLayouts
        (storeConnection sampleStore tokenLayouts) [.replicate 10, .replicate 11, .replicate 10] = .ok amms →
      List.Forall₂ (fun pool amm =>
        (∃ poolState vaultA vaultB, load tokenLayouts (storeConnection sampleStore tokenLayouts) pool =
          .ok (poolState, vaultA, vaultB, amm.accountsInfo)) ∧
        ∀ alone, AmmImpl.create sampleSdk sampleDecoders (fun n => .ok n.sqrt) tokenLayouts
          (storeConnection sampleStore tokenLayouts) pool = .ok alone →
            amm.accountsInfo = alone.accountsInfo) [.replicate 10, .replicate 11, .replicate 10] amms) ∧
    ((∃ pool ∈ [Pubkey.replicate 10, .replicate 11, .replicate 10], sampleStore.accounts pool = none) →
      ∃ message, AmmImpl.createMultiple sampleSdk sampleDecoders (fun n => .ok n.sqrt) tokenLayouts
        (storeConnection sampleStore tokenLayouts) [.replicate 10, .replicate 11, .replicate 10] =
          .error message) :=
  ⟨by decide +kernel,
    createMultiple_eq_create sampleStore_serves [.replicate 10, .replicate 11, .replicate 10]
      sampleStore_separates⟩

end Loading

end DynamicAmm.Client

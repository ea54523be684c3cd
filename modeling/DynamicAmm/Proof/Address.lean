import DynamicAmm.Client.Address
import DynamicAmm.Client.Decode

/-!
# Pool addresses in both SDKs, and collisions

The Rust code has one default fee for both kinds of curve and the client has one for each, so the two
agree on every constant product pool and on every stable pool whose fee neither of them leaves out. In
each of them alone no two accounts share an address: the lengths of the concatenated seeds tell the kinds
of accounts apart, and inside a kind the seeds have fixed places.
-/

namespace DynamicAmm

open Js Seeds

/-! ### Keys and fees -/

namespace Program

theorem Pubkey.bytes_inj {key1 key2 : Pubkey} : key1.bytes = key2.bytes ↔ key1 = key2 := by
  constructor
  · cases key1
    cases key2
    rintro rfl
    rfl
  · exact congrArg _

theorem sym2_getFirstKey_getSecondKey (key1 key2 : Pubkey) :
    s(getFirstKey key1 key2, getSecondKey key1 key2) = s(key1, key2) := by
  by_cases h : key1.bytes > key2.bytes
  · rw [getFirstKey, getSecondKey, if_pos h, if_pos h]
  · rw [getFirstKey, getSecondKey, if_neg h, if_neg h]
    exact Sym2.eq_swap

theorem getFirstKey_comm (key1 key2 : Pubkey) : getFirstKey key1 key2 = getFirstKey key2 key1 := by
  by_cases h : key1.bytes > key2.bytes
  · rw [getFirstKey, getFirstKey, if_pos h, if_neg (List.lt_asymm h)]
  · by_cases h' : key2.bytes > key1.bytes
    · rw [getFirstKey, getFirstKey, if_neg h, if_pos h']
    · rw [getFirstKey, getFirstKey, if_neg h, if_neg h']
      exact Pubkey.bytes_inj.mp (List.le_antisymm (List.not_lt.mp h') (List.not_lt.mp h))

theorem getSecondKey_comm (key1 key2 : Pubkey) : getSecondKey key1 key2 = getSecondKey key2 key1 := by
  have h1 := sym2_getFirstKey_getSecondKey key1 key2
  have h2 := sym2_getFirstKey_getSecondKey key2 key1
  rw [getFirstKey_comm, Sym2.eq_swap (a := key1), ← h2] at h1
  exact Sym2.congr_right.mp h1

/-- The two keys in order are the two keys as an unordered pair. -/
theorem orderedKeys_inj {key1 key2 key1' key2' : Pubkey} :
    getFirstKey key1 key2 = getFirstKey key1' key2' ∧ getSecondKey key1 key2 = getSecondKey key1' key2' ↔
      s(key1, key2) = s(key1', key2') := by
  constructor
  · rintro ⟨hfirst, hsecond⟩
    rw [← sym2_getFirstKey_getSecondKey key1 key2, hfirst, hsecond, sym2_getFirstKey_getSecondKey]
  · intro h
    rcases Sym2.eq_iff.mp h with ⟨rfl, rfl⟩ | ⟨rfl, rfl⟩
    · exact ⟨rfl, rfl⟩
    · exact ⟨getFirstKey_comm _ _, getSecondKey_comm _ _⟩

theorem toLeBytes_inj {m n : UInt64} : toLeBytes m = toLeBytes n ↔ m = n := by
  rw [toLeBytes, toLeBytes, leBytes_inj m.toNat_lt n.toNat_lt, UInt64.toNat_inj]

/-- The seed of a fee when the default fee has none. -/
def tradeFeeSeed (default tradeFeeBps : UInt64) : Bytes :=
  if default = tradeFeeBps then [] else toLeBytes tradeFeeBps

theorem length_tradeFeeSeed (default tradeFeeBps : UInt64) :
    (tradeFeeSeed default tradeFeeBps).length = if default = tradeFeeBps then 0 else 8 := by
  rw [tradeFeeSeed, apply_ite List.length]
  rfl

theorem tradeFeeSeed_inj {default m n : UInt64} :
    tradeFeeSeed default m = tradeFeeSeed default n ↔ m = n := by
  refine ⟨?_, congrArg _⟩
  intro h
  have hlength := congrArg List.length h
  rw [length_tradeFeeSeed, length_tradeFeeSeed] at hlength
  by_cases hm : default = m <;> by_cases hn : default = n
  · exact hm.symm.trans hn
  · rw [if_pos hm, if_neg hn] at hlength
    cases hlength
  · rw [if_neg hm, if_pos hn] at hlength
    cases hlength
  · rw [tradeFeeSeed, tradeFeeSeed, if_neg hm, if_neg hn] at h
    exact toLeBytes_inj.mp h

theorem getTradeFeeBpsBytes_eq (tradeFeeBps : UInt64) :
    getTradeFeeBpsBytes tradeFeeBps = tradeFeeSeed 25 tradeFeeBps := by
  have hdefault : defaultTradeFeeBps = 25 := by decide
  rw [getTradeFeeBpsBytes, hdefault, tradeFeeSeed]

/-- Two default fees are told apart by exactly the fees that only one of them leaves out. -/
theorem tradeFeeSeed_eq_iff {default default' n : UInt64} :
    tradeFeeSeed default n = tradeFeeSeed default' n ↔ default = default' ∨ n ≠ default ∧ n ≠ default' := by
  have hlength : ∀ {d d' : UInt64}, d = n → d' ≠ n → tradeFeeSeed d n ≠ tradeFeeSeed d' n := by
    intro d d' hd hd' h
    have := congrArg List.length h
    rw [length_tradeFeeSeed, length_tradeFeeSeed, if_pos hd, if_neg hd'] at this
    cases this
  by_cases h : default = n <;> by_cases h' : default' = n
  · exact iff_of_true (by rw [h, h']) (Or.inl (h.trans h'.symm))
  · refine iff_of_false (hlength h h') ?_
    rintro (heq | ⟨hne, -⟩)
    · exact h' (heq ▸ h)
    · exact hne h.symm
  · refine iff_of_false (hlength h' h).symm ?_
    rintro (heq | ⟨-, hne⟩)
    · exact h (heq ▸ h')
    · exact hne h'.symm
  · exact iff_of_true (by rw [tradeFeeSeed, tradeFeeSeed, if_neg h, if_neg h'])
      (Or.inr ⟨Ne.symm h, Ne.symm h'⟩)

end Program

/-! ### The client's seeds -/

namespace Client

open Program (Pubkey)

theorem getFirstKey_eq (key1 key2 : Pubkey) : getFirstKey key1 key2 = (Program.getFirstKey key1 key2).bytes := by
  simp only [getFirstKey, Program.getFirstKey, lexCompare_eq_one]
  exact (apply_ite Pubkey.bytes _ _ _).symm

theorem getSecondKey_eq (key1 key2 : Pubkey) :
    getSecondKey key1 key2 = (Program.getSecondKey key1 key2).bytes := by
  simp only [getSecondKey, Program.getSecondKey, lexCompare_eq_one]
  exact (apply_ite Pubkey.bytes _ _ _).symm

theorem toBuffer_toNat (n : UInt64) : toBuffer n.toNat = .ok (Program.toLeBytes n) := by
  have hlt : (n.toNat : Int).natAbs < 256 ^ 8 := n.toNat_lt
  rw [toBuffer, if_pos hlt]
  rfl

theorem encodeCurveType_decode (curveType : Program.CurveType) :
    encodeCurveType (decodeCurveType curveType) = Program.getCurveType curveType := by
  cases curveType <;> rfl

/-- The fee that the client leaves out of the seeds. -/
def defaultTradeFeeBps : Program.CurveType → UInt64
  | .constantProduct => 25
  | .stable .. => 1

theorem getTradeFeeBpsBuffer_decode (curveType : Program.CurveType) (tradeFeeBps : UInt64) :
    getTradeFeeBpsBuffer (decodeCurveType curveType) tradeFeeBps.toNat =
      .ok (Program.tradeFeeSeed (defaultTradeFeeBps curveType) tradeFeeBps) := by
  have hbuffer : getTradeFeeBpsBuffer (decodeCurveType curveType) tradeFeeBps.toNat =
      if (tradeFeeBps.toNat : Int) = (defaultTradeFeeBps curveType).toNat then .ok []
      else toBuffer tradeFeeBps.toNat := by
    cases curveType <;> rfl
  rw [hbuffer, toBuffer_toNat, Program.tradeFeeSeed]
  by_cases h : defaultTradeFeeBps curveType = tradeFeeBps
  · rw [if_pos h, if_pos (by rw [h])]
  · rw [if_neg h, if_neg (fun heq => h (UInt64.toNat_inj.mp (Nat.cast_inj.mp heq)).symm)]

end Client

/-! ### The same pool in both SDKs -/

theorem poolSeeds_agree_iff (curveType : Program.CurveType) (tokenAMint tokenBMint : Program.Pubkey)
    (tradeFeeBps : UInt64) :
    ∃ seeds, (Client.DerivedAccount.pool (decodeCurveType curveType) tokenAMint tokenBMint
        tradeFeeBps.toNat).seeds = .ok seeds ∧
      (seeds.flatten =
          (Program.DerivedAccount.pool curveType tokenAMint tokenBMint tradeFeeBps).seeds.flatten ↔
        curveType = .constantProduct ∨ tradeFeeBps ≠ 1 ∧ tradeFeeBps ≠ 25) := by
  refine ⟨[[Program.getCurveType curveType], (Program.getFirstKey tokenAMint tokenBMint).bytes,
    (Program.getSecondKey tokenAMint tokenBMint).bytes,
    Program.tradeFeeSeed (Client.defaultTradeFeeBps curveType) tradeFeeBps], ?_, ?_⟩
  · simp only [Client.DerivedAccount.seeds, Client.getTradeFeeBpsBuffer_decode,
      Client.encodeCurveType_decode, Client.getFirstKey_eq, Client.getSecondKey_eq]
    rfl
  · simp only [Program.DerivedAccount.seeds, Program.getTradeFeeBpsBytes_eq, List.flatten_cons,
      List.append_cancel_left_eq, List.flatten_nil, List.append_nil, Program.tradeFeeSeed_eq_iff]
    cases curveType with
    | constantProduct => exact iff_of_true (Or.inl rfl) (Or.inl rfl)
    | stable => simp [Client.defaultTradeFeeBps]

/-- A stable pool, which the program lets have any amplification. -/
def stableCurve (amp : UInt64) : Program.CurveType := .stable amp ⟨1, 1⟩ ⟨0, 0, .none⟩ 0

/-- The fee of one basis point, which the client takes for the default of a stable pool. -/
theorem poolSeeds_differ :
    ∃ seeds, (Client.DerivedAccount.pool (decodeCurveType (stableCurve 100)) (.replicate 1) (.replicate 2)
        (1 : UInt64).toNat).seeds = .ok seeds ∧
      seeds.flatten ≠
        (Program.DerivedAccount.pool (stableCurve 100) (.replicate 1) (.replicate 2) 1).seeds.flatten :=
  ⟨_, rfl, by decide⟩

/-! ### Collisions -/

namespace Program.DerivedAccount

/-- Two accounts that the program takes for one: the mints of a pool come in either order, and of its
curve only the kind counts. -/
def Same : DerivedAccount → DerivedAccount → Prop
  | .pool curveType tokenAMint tokenBMint tradeFeeBps, .pool curveType' tokenAMint' tokenBMint' tradeFeeBps' =>
      getCurveType curveType = getCurveType curveType' ∧ s(tokenAMint, tokenBMint) = s(tokenAMint', tokenBMint') ∧
        tradeFeeBps = tradeFeeBps'
  | .poolWithConfig tokenAMint tokenBMint configKey, .poolWithConfig tokenAMint' tokenBMint' configKey' =>
      s(tokenAMint, tokenBMint) = s(tokenAMint', tokenBMint') ∧ configKey = configKey'
  | x, y => x = y

/-- The seeds under a default fee for each curve. -/
def seedsOver (default : CurveType → UInt64) : DerivedAccount → List Bytes
  | .pool curveType tokenAMint tokenBMint tradeFeeBps =>
      [[getCurveType curveType], (getFirstKey tokenAMint tokenBMint).bytes,
        (getSecondKey tokenAMint tokenBMint).bytes, tradeFeeSeed (default curveType) tradeFeeBps]
  | x => x.seeds

theorem seeds_eq (x : DerivedAccount) : x.seeds = x.seedsOver (fun _ => 25) := by
  cases x with
  | pool => rw [seeds, seedsOver, getTradeFeeBpsBytes_eq]
  | _ => rfl

/-- What the client is given for the account. -/
def decode : DerivedAccount → Client.DerivedAccount
  | .pool curveType tokenAMint tokenBMint tradeFeeBps =>
      .pool (decodeCurveType curveType) tokenAMint tokenBMint tradeFeeBps.toNat
  | .poolWithConfig tokenAMint tokenBMint configKey => .poolWithConfig tokenAMint tokenBMint configKey
  | .poolLpMint poolKey => .poolLpMint poolKey
  | .vaultLpToken vault poolKey => .vaultLpToken vault poolKey
  | .protocolTokenFee tokenMint poolKey => .protocolTokenFee tokenMint poolKey
  | .lockEscrow poolKey owner => .lockEscrow poolKey owner
  | .config index => .config index.toNat

theorem seeds_decode (x : DerivedAccount) :
    x.decode.seeds = .ok (x.seedsOver Client.defaultTradeFeeBps) := by
  cases x with
  | pool =>
      simp only [decode, Client.DerivedAccount.seeds, Client.getTradeFeeBpsBuffer_decode,
        Client.encodeCurveType_decode, Client.getFirstKey_eq, Client.getSecondKey_eq]
      rfl
  | poolWithConfig =>
      simp only [decode, Client.DerivedAccount.seeds, Client.getFirstKey_eq, Client.getSecondKey_eq]
      rfl
  | config index =>
      simp only [decode, Client.DerivedAccount.seeds, Client.toBuffer_toNat]
      rfl
  | _ => rfl

section Injective

variable {default : CurveType → UInt64}

theorem pool_seedsOver_inj (hkind : ∀ c c', getCurveType c = getCurveType c' → default c = default c')
    {c c' : CurveType} {a b a' b' : Pubkey} {n n' : UInt64} :
    ((pool c a b n).seedsOver default).flatten = ((pool c' a' b' n').seedsOver default).flatten ↔
      (pool c a b n).Same (pool c' a' b' n') := by
  have hlists : ((pool c a b n).seedsOver default).flatten = ((pool c' a' b' n').seedsOver default).flatten ↔
      (pool c a b n).seedsOver default = (pool c' a' b' n').seedsOver default := by
    simp only [seedsOver, List.flatten_cons, List.flatten_nil, List.append_nil, List.cons.injEq, and_true]
    constructor
    · intro h
      obtain ⟨hcurve, h⟩ := List.append_inj h rfl
      obtain ⟨hfirst, h⟩ := List.append_inj h (by rw [Pubkey.length_eq, Pubkey.length_eq])
      obtain ⟨hsecond, hfee⟩ := List.append_inj h (by rw [Pubkey.length_eq, Pubkey.length_eq])
      exact ⟨(List.cons.inj hcurve).1, hfirst, hsecond, hfee⟩
    · rintro ⟨hcurve, hfirst, hsecond, hfee⟩
      rw [hcurve, hfirst, hsecond, hfee]
  rw [hlists]
  simp only [seedsOver, List.cons.injEq, and_true, Pubkey.bytes_inj, Same, ← orderedKeys_inj]
  constructor
  · rintro ⟨hcurve, hfirst, hsecond, hfee⟩
    rw [hkind c c' hcurve] at hfee
    exact ⟨hcurve, ⟨hfirst, hsecond⟩, tradeFeeSeed_inj.mp hfee⟩
  · rintro ⟨hcurve, ⟨hfirst, hsecond⟩, rfl⟩
    exact ⟨hcurve, hfirst, hsecond, by rw [hkind c c' hcurve]⟩

/-- The length of the concatenation tells the kinds apart. -/
def size (default : CurveType → UInt64) : DerivedAccount → Nat
  | .pool curveType _ _ tradeFeeBps => 65 + if default curveType = tradeFeeBps then 0 else 8
  | .poolWithConfig .. => 96
  | .poolLpMint _ => 39
  | .vaultLpToken .. => 64
  | .protocolTokenFee .. => 67
  | .lockEscrow .. => 75
  | .config _ => 14

theorem length_seedsOver (x : DerivedAccount) : (x.seedsOver default).flatten.length = x.size default := by
  have hlpMint : (text "lp_mint").length = 7 := by decide
  have hfee : (text "fee").length = 3 := by decide
  have hlockEscrow : (text "lock_escrow").length = 11 := by decide
  have hconfig : (text "config").length = 6 := by decide
  cases x <;>
    simp only [seedsOver, seeds, size, List.flatten_cons, List.flatten_nil, List.length_append,
      List.length_cons, List.length_nil, Pubkey.length_eq, length_tradeFeeSeed, hlpMint, hfee, hlockEscrow,
      hconfig, toLeBytes, length_leBytes]
  omega

theorem seedsOver_inj (hkind : ∀ c c', getCurveType c = getCurveType c' → default c = default c')
    (x y : DerivedAccount) :
    (x.seedsOver default).flatten = (y.seedsOver default).flatten ↔ x.Same y := by
  -- Inside a kind other than the fee tier pools the seeds have the same lengths.
  have hlists : ∀ {s t : List Bytes} {P : Prop}, s.map List.length = t.map List.length → (s = t ↔ P) →
      (s.flatten = t.flatten ↔ P) := fun hlength h => (flatten_inj hlength).trans h
  cases x <;> cases y
  case pool.pool => exact pool_seedsOver_inj hkind
  case poolWithConfig.poolWithConfig =>
    apply hlists
    · simp [seedsOver, seeds, Pubkey.length_eq]
    · simp only [seedsOver, seeds, List.cons.injEq, and_true, Pubkey.bytes_inj, Same, ← orderedKeys_inj,
        and_assoc]
  case config.config =>
    apply hlists
    · simp [seedsOver, seeds, toLeBytes]
    · simp [seedsOver, seeds, Same, toLeBytes_inj]
  case poolLpMint.poolLpMint | vaultLpToken.vaultLpToken | protocolTokenFee.protocolTokenFee |
      lockEscrow.lockEscrow =>
    apply hlists
    · simp [seedsOver, seeds, Pubkey.length_eq]
    · simp [seedsOver, seeds, Same, Pubkey.bytes_inj]
  all_goals
    refine iff_of_false (flatten_ne ?_) (by simp [Same])
    rw [length_seedsOver, length_seedsOver, size, size]
    first | decide | split <;> decide

end Injective

theorem seeds_collide_iff (x y : DerivedAccount) :
    (x.seeds.flatten = y.seeds.flatten ↔ x.Same y) ∧
      ∃ s t, x.decode.seeds = .ok s ∧ y.decode.seeds = .ok t ∧ (s.flatten = t.flatten ↔ x.Same y) := by
  refine ⟨?_, _, _, seeds_decode x, seeds_decode y, seedsOver_inj ?_ x y⟩
  · rw [seeds_eq, seeds_eq]
    exact seedsOver_inj (fun _ _ _ => rfl) x y
  · intro c c' hkind
    cases c <;> cases c' <;> first | rfl | cases hkind

/-- Two stable pools of one fee tier share an address whatever their amplifications. -/
theorem stablePools_collide :
    pool (stableCurve 100) (.replicate 1) (.replicate 2) 25 ≠
        pool (stableCurve 200) (.replicate 1) (.replicate 2) 25 ∧
      (pool (stableCurve 100) (.replicate 1) (.replicate 2) 25).seeds.flatten =
        (pool (stableCurve 200) (.replicate 1) (.replicate 2) 25).seeds.flatten := by
  decide

end Program.DerivedAccount

end DynamicAmm

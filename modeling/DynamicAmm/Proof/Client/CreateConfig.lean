import DynamicAmm.Client.CreateConfig

/-!
# The index of a new configuration

The search meets each index below the first free one, and by counting there is a free one among the first
`configs.length + 1`. An array is shorter than `2 ^ 32`, so every index on the way fits a number and its
eight byte seed.
-/

namespace DynamicAmm.Client

open Js IndexSearch Seeds
open Program (Pubkey text)

variable (findProgramAddressSync : List Program.Bytes → Pubkey → Pubkey) (programId : Pubkey)

def configAddress (index : Nat) : Pubkey :=
  findProgramAddressSync [text "config", leBytes 8 index] programId

theorem deriveConfigPda_eq {index : Nat} (h : index < 2 ^ 53) :
    deriveConfigPda findProgramAddressSync index programId =
      .ok (configAddress findProgramAddressSync programId index) := by
  have hbuffer : toBuffer index = .ok (leBytes 8 index) := by
    rw [toBuffer, Int.natAbs_natCast, if_pos (by omega)]
  rw [deriveConfigPda, DerivedAccount.seeds, hbuffer]
  rfl

section Search

variable {findProgramAddressSync : List Program.Bytes → Pubkey → Pubkey} {programId : Pubkey}
  {configs : List FeeConfiguration} {index : Nat} (arguments : ConfigArguments)

theorem createConfigAt_of_mem (h : index < 2 ^ 53)
    (htaken : configAddress findProgramAddressSync programId index ∈ configs.map FeeConfiguration.publicKey) :
    createConfigAt findProgramAddressSync programId configs arguments index = .ok none := by
  have hnumber : BN.ofNumber index = .ok index := by
    rw [BN.ofNumber, if_pos (by omega)]
  have hfind : (configs.find? fun c =>
      c.publicKey = configAddress findProgramAddressSync programId index).isSome := by
    obtain ⟨c, hc, hkey⟩ := List.mem_map.mp htaken
    exact List.find?_isSome.mpr ⟨c, hc, by simpa using hkey⟩
  obtain ⟨c, hc⟩ := Option.isSome_iff_exists.mp hfind
  simp only [createConfigAt, hnumber, deriveConfigPda_eq _ _ h, Bind.bind, Except.bind, hc]
  rfl

theorem createConfigAt_of_not_mem (h : index < 2 ^ 53)
    (hfree : configAddress findProgramAddressSync programId index ∉ configs.map FeeConfiguration.publicKey) :
    ∃ instruction, createConfigAt findProgramAddressSync programId configs arguments index =
        .ok (some instruction) ∧ instruction.index = index ∧
      instruction.config = configAddress findProgramAddressSync programId index := by
  have hnumber : BN.ofNumber index = .ok index := by
    rw [BN.ofNumber, if_pos (by omega)]
  have hfind : (configs.find? fun c =>
      c.publicKey = configAddress findProgramAddressSync programId index) = none := by
    rw [List.find?_eq_none]
    intro c hc hkey
    exact hfree (List.mem_map.mpr ⟨c, hc, by simpa using hkey⟩)
  simp only [createConfigAt, hnumber, deriveConfigPda_eq _ _ h, Bind.bind, Except.bind, hfind]
  exact ⟨_, rfl, rfl, rfl⟩

end Search

theorem exists_createConfigLoop {configs : List FeeConfiguration} (hlength : configs.length < 2 ^ 32)
    (arguments : ConfigArguments)
    (hinjective : ∀ (i j : Nat) (configPda : Pubkey),
      deriveConfigPda findProgramAddressSync i programId = .ok configPda →
      deriveConfigPda findProgramAddressSync j programId = .ok configPda → i = j) :
    ∃ (index : Nat) (configPda : Pubkey) (instruction : CreateConfigInstruction),
      deriveConfigPda findProgramAddressSync index programId = .ok configPda ∧
      instruction.index = index ∧ instruction.config = configPda ∧
      (∀ cap ≥ configs.length + 1,
        createConfigLoop findProgramAddressSync programId configs arguments cap =
          .ok (some instruction)) ∧
      (∀ c ∈ configs, c.publicKey ≠ configPda) ∧
      ∀ smaller < index, ∃ c ∈ configs,
        deriveConfigPda findProgramAddressSync smaller programId = .ok c.publicKey := by
  have hinjOn : Set.InjOn (configAddress findProgramAddressSync programId)
      (Set.Iic (configs.map FeeConfiguration.publicKey).length) := by
    intro i hi j hj heq
    rw [Set.mem_Iic, List.length_map] at hi hj
    exact hinjective i j _ (deriveConfigPda_eq _ _ (by omega)) (heq ▸ deriveConfigPda_eq _ _ (by omega))
  obtain ⟨index, hle, hfree, htaken⟩ := exists_least_free hinjOn
  rw [List.length_map] at hle
  obtain ⟨instruction, hat, hindex, hconfig⟩ :=
    createConfigAt_of_not_mem arguments (by omega) hfree
  refine ⟨index, _, instruction, deriveConfigPda_eq _ _ (by omega), hindex, hconfig, ?_, ?_, ?_⟩
  · intro cap hcap
    refine searchFrom_ok ?_ hat (Nat.zero_le index) (by omega)
    intro i _ hi
    exact createConfigAt_of_mem arguments (by omega) (htaken i hi)
  · intro c hc hkey
    exact hfree (List.mem_map.mpr ⟨c, hc, hkey⟩)
  · intro smaller hsmaller
    obtain ⟨c, hc, hkey⟩ := List.mem_map.mp (htaken smaller hsmaller)
    exact ⟨c, hc, hkey ▸ deriveConfigPda_eq _ _ (by omega)⟩

theorem createConfig_takes_least_index (configs : JsArray FeeConfiguration) (arguments : ConfigArguments)
    (hinjective : ∀ (i j : Nat) (configPda : Pubkey),
      deriveConfigPda findProgramAddressSync i programId = .ok configPda →
      deriveConfigPda findProgramAddressSync j programId = .ok configPda → i = j) :
    ∃ (index : Nat) (configPda : Pubkey) (instruction : CreateConfigInstruction),
      deriveConfigPda findProgramAddressSync index programId = .ok configPda ∧
      instruction.index = index ∧ instruction.config = configPda ∧
      (∀ cap ≥ configs.elements.length + 1,
        createConfigLoop findProgramAddressSync programId configs.elements arguments cap =
          .ok (some instruction)) ∧
      (∀ c ∈ configs.elements, c.publicKey ≠ configPda) ∧
      ∀ smaller < index, ∃ c ∈ configs.elements,
        deriveConfigPda findProgramAddressSync smaller programId = .ok c.publicKey :=
  exists_createConfigLoop findProgramAddressSync programId configs.length_lt arguments hinjective

/-! ### From the accounts -/

theorem toFeeConfiguration_ok {account : ConfigAccount}
    (h : account.poolFees.tradeFeeDenominator ≠ 0 ∧ account.poolFees.protocolTradeFeeDenominator ≠ 0) :
    ∃ config, toFeeConfiguration account = .ok config ∧ config.publicKey = account.publicKey := by
  have htrade := BN.div_eq_ok (a := account.poolFees.tradeFeeNumerator * 10000).mpr ⟨h.1, rfl⟩
  have hprotocol := BN.div_eq_ok (a := account.poolFees.protocolTradeFeeNumerator * 10000).mpr ⟨h.2, rfl⟩
  exact ⟨_, bind_eq_ok.mpr ⟨_, htrade, bind_eq_ok.mpr ⟨_, hprotocol, rfl⟩⟩, rfl⟩

theorem getFeeConfigurations_ok {accounts : List ConfigAccount} (h : ∀ account ∈ accounts,
      account.poolFees.tradeFeeDenominator ≠ 0 ∧ account.poolFees.protocolTradeFeeDenominator ≠ 0) :
    ∃ configs, getFeeConfigurations accounts = .ok configs ∧
      configs.map FeeConfiguration.publicKey = accounts.map ConfigAccount.publicKey := by
  induction accounts with
  | nil => exact ⟨[], rfl, rfl⟩
  | cons account accounts ih =>
      obtain ⟨hfirst, hrest⟩ := List.forall_mem_cons.mp h
      obtain ⟨config, hconfig, hkey⟩ := toFeeConfiguration_ok hfirst
      obtain ⟨configs, hconfigs, hkeys⟩ := ih hrest
      refine ⟨config :: configs, ?_, by rw [List.map_cons, List.map_cons, hkey, hkeys]⟩
      rw [getFeeConfigurations, List.mapM_cons]
      exact bind_eq_ok.mpr ⟨config, hconfig, bind_eq_ok.mpr ⟨configs, hconfigs, rfl⟩⟩

/-- The configuration that is created has the least index whose address no account of the program has. -/
theorem createConfig_creates {accounts : List ConfigAccount} (hlength : accounts.length < 2 ^ 32)
    (hfees : ∀ account ∈ accounts,
      account.poolFees.tradeFeeDenominator ≠ 0 ∧ account.poolFees.protocolTradeFeeDenominator ≠ 0)
    (arguments : ConfigArguments)
    (hinjective : ∀ (i j : Nat) (configPda : Pubkey),
      deriveConfigPda findProgramAddressSync i programId = .ok configPda →
      deriveConfigPda findProgramAddressSync j programId = .ok configPda → i = j) :
    ∃ (index : Nat) (instruction : CreateConfigInstruction),
      instruction.index = index ∧ deriveConfigPda findProgramAddressSync index programId = .ok instruction.config ∧
      (∀ cap ≥ accounts.length + 1,
        createConfig findProgramAddressSync programId arguments accounts cap = .ok (some instruction)) ∧
      instruction.config ∉ accounts.map ConfigAccount.publicKey ∧
      ∀ smaller < index, ∃ account ∈ accounts,
        deriveConfigPda findProgramAddressSync smaller programId = .ok account.publicKey := by
  obtain ⟨configs, hconfigs, hkeys⟩ := getFeeConfigurations_ok hfees
  have hsame : configs.length = accounts.length := by
    rw [← List.length_map FeeConfiguration.publicKey, hkeys, List.length_map]
  obtain ⟨index, configPda, instruction, hpda, hindex, rfl, hloop, hfree, htaken⟩ :=
    exists_createConfigLoop findProgramAddressSync programId (hsame ▸ hlength) arguments hinjective
  refine ⟨index, instruction, hindex, hpda, fun cap hcap => ?_, ?_, fun smaller hsmaller => ?_⟩
  · exact bind_eq_ok.mpr ⟨configs, hconfigs, hloop cap (hsame ▸ hcap)⟩
  · rw [← hkeys, List.mem_map]
    rintro ⟨config, hconfig, hkey⟩
    exact hfree config hconfig hkey
  · obtain ⟨config, hconfig, hsmaller⟩ := htaken smaller hsmaller
    have hmem : config.publicKey ∈ accounts.map ConfigAccount.publicKey := hkeys ▸ List.mem_map_of_mem hconfig
    obtain ⟨account, haccount, hkey⟩ := List.mem_map.mp hmem
    exact ⟨account, haccount, hkey ▸ hsmaller⟩

/-! ### A sample -/

/-- `Eo7WjKq67rjJQSZxS6z3YkapzY3eMj6Xy8X5EQVn5UaB` -/
def ammProgramId : Pubkey :=
  ⟨[204, 248, 2, 212, 204, 204, 132, 215, 251, 33, 181, 247, 59, 73, 216, 26, 22, 197, 180, 200,
    142, 227, 35, 148, 225, 201, 29, 53, 136, 204, 64, 128], rfl⟩

def firstConfigs : Fin 3 → Pubkey
  | 0 =>
    ⟨[218, 147, 138, 221, 173, 179, 21, 166, 38, 189, 211, 213, 239, 59, 144, 26, 92, 127, 180, 76,
      83, 29, 254, 55, 96, 184, 19, 64, 240, 95, 167, 93], rfl⟩
  | 1 =>
    ⟨[112, 143, 45, 155, 147, 183, 63, 28, 189, 110, 173, 108, 178, 253, 132, 21, 58, 206, 88, 18,
      187, 234, 201, 193, 62, 247, 188, 169, 247, 21, 49, 113], rfl⟩
  | 2 =>
    ⟨[14, 245, 101, 241, 183, 10, 213, 2, 96, 57, 9, 88, 31, 238, 149, 191, 225, 4, 125, 46, 100,
      81, 75, 221, 69, 22, 135, 90, 85, 18, 47, 185], rfl⟩

/-- Seeds as an address of their own, for what lies beyond the sample. -/
def paddedSeeds (seeds : List Program.Bytes) : Pubkey :=
  ⟨(seeds.flatten ++ List.replicate 32 0).take 32, by simp⟩

/-- The addresses of the program, right for the first three configurations. -/
def sampleProgramAddress (seeds : List Program.Bytes) (_ : Pubkey) : Pubkey :=
  if seeds = [text "config", leBytes 8 0] then firstConfigs 0
  else if seeds = [text "config", leBytes 8 1] then firstConfigs 1
  else if seeds = [text "config", leBytes 8 2] then firstConfigs 2
  else paddedSeeds seeds

theorem firstConfigs_ne_paddedSeeds (k : Fin 3) (seed : Program.Bytes) :
    firstConfigs k ≠ paddedSeeds [text "config", seed] := by
  intro h
  have hfirst := congrArg (fun key : Pubkey => key.bytes.head?) h
  have hpadded : (paddedSeeds [text "config", seed]).bytes.head? = some 99 := rfl
  rw [hpadded] at hfirst
  have hconfigs : ∀ k, (firstConfigs k).bytes.head? ≠ some 99 := by decide
  exact hconfigs k hfirst

theorem paddedSeeds_inj {seed seed' : Program.Bytes} (h : seed.length = 8) (h' : seed'.length = 8)
    (heq : paddedSeeds [text "config", seed] = paddedSeeds [text "config", seed']) : seed = seed' := by
  have hbytes := congrArg (fun key : Pubkey => (key.bytes.drop 6).take 8) heq
  have htake : ∀ s : Program.Bytes, s.length = 8 →
      ((paddedSeeds [text "config", s]).bytes.drop 6).take 8 = s := by
    intro s hs
    have hconfig : (text "config").length = 6 := by decide
    simp only [paddedSeeds, List.flatten_cons, List.flatten_nil, List.append_nil, List.append_assoc]
    rw [List.drop_take, List.drop_append_of_le_length (by omega), List.drop_of_length_le (by omega),
      List.nil_append, List.take_take, List.take_append_of_le_length (by omega),
      List.take_of_length_le (by omega)]
  simp only [htake seed h, htake seed' h'] at hbytes
  exact hbytes

theorem sampleProgramAddress_cases (seed : Program.Bytes) :
    (∃ k : Fin 3, seed = leBytes 8 k ∧
        sampleProgramAddress [text "config", seed] ammProgramId = firstConfigs k) ∨
      sampleProgramAddress [text "config", seed] ammProgramId = paddedSeeds [text "config", seed] := by
  simp only [sampleProgramAddress, List.cons.injEq, true_and, and_true]
  split_ifs with h0 h1 h2
  · exact Or.inl ⟨0, h0, rfl⟩
  · exact Or.inl ⟨1, h1, rfl⟩
  · exact Or.inl ⟨2, h2, rfl⟩
  · exact Or.inr rfl

theorem sampleProgramAddress_inj {seed seed' : Program.Bytes} (h : seed.length = 8) (h' : seed'.length = 8)
    (heq : sampleProgramAddress [text "config", seed] ammProgramId =
      sampleProgramAddress [text "config", seed'] ammProgramId) : seed = seed' := by
  have hconfigs : ∀ k k', firstConfigs k = firstConfigs k' → k = k' := by decide
  obtain ⟨k, rfl, hk⟩ | hpadded := sampleProgramAddress_cases seed <;>
    obtain ⟨k', rfl, hk'⟩ | hpadded' := sampleProgramAddress_cases seed'
  · rw [hconfigs k k' (hk.symm.trans (heq.trans hk'))]
  · exact absurd (hk.symm.trans (heq.trans hpadded')) (firstConfigs_ne_paddedSeeds k _)
  · exact absurd (hk'.symm.trans (heq.symm.trans hpadded)) (firstConfigs_ne_paddedSeeds k' _)
  · exact paddedSeeds_inj h h' (hpadded.symm.trans (heq.trans hpadded'))

theorem deriveConfigPda_eq_ok {index : Nat} {configPda : Pubkey}
    (h : deriveConfigPda sampleProgramAddress index ammProgramId = .ok configPda) :
    index < 256 ^ 8 ∧
      sampleProgramAddress [text "config", leBytes 8 index] ammProgramId = configPda := by
  obtain ⟨seeds, hseeds, hpda⟩ := bind_eq_ok.mp h
  obtain ⟨buffer, hbuffer, hlist⟩ := bind_eq_ok.mp hseeds
  rw [toBuffer, Int.natAbs_natCast] at hbuffer
  by_cases hfit : index < 256 ^ 8
  · rw [if_pos hfit] at hbuffer
    cases hbuffer
    cases hlist
    exact ⟨hfit, pure_eq_ok.mp hpda⟩
  · rw [if_neg hfit] at hbuffer
    cases hbuffer

/-- The first two indices are taken, one of them twice, and an unrelated account is among them. -/
def sampleConfigs : JsArray FeeConfiguration where
  elements := [firstConfigs 1, ammProgramId, firstConfigs 0, firstConfigs 1].map fun publicKey =>
    ⟨publicKey, ⟨250, 100000, 20000, 100000⟩, 25, 2000⟩
  length_lt := by decide

def sampleArguments : ConfigArguments :=
  ⟨.replicate 1, 25, 2000, .replicate 0, 0, .replicate 2, 1⟩

theorem createConfig_takes_least_index_sample :
    ∃ (index : Nat) (configPda : Pubkey) (instruction : CreateConfigInstruction),
      deriveConfigPda sampleProgramAddress index ammProgramId = .ok configPda ∧
      instruction.index = index ∧ instruction.config = configPda ∧
      (∀ cap ≥ sampleConfigs.elements.length + 1,
        createConfigLoop sampleProgramAddress ammProgramId sampleConfigs.elements sampleArguments cap =
          .ok (some instruction)) ∧
      (∀ c ∈ sampleConfigs.elements, c.publicKey ≠ configPda) ∧
      ∀ smaller < index, ∃ c ∈ sampleConfigs.elements,
        deriveConfigPda sampleProgramAddress smaller ammProgramId = .ok c.publicKey := by
  refine createConfig_takes_least_index sampleProgramAddress ammProgramId sampleConfigs sampleArguments ?_
  intro i j configPda hi hj
  obtain ⟨hi, heqi⟩ := deriveConfigPda_eq_ok hi
  obtain ⟨hj, heqj⟩ := deriveConfigPda_eq_ok hj
  refine (leBytes_inj hi hj).mp (sampleProgramAddress_inj ?_ ?_ (heqi.trans heqj.symm))
  · exact length_leBytes 8 i
  · exact length_leBytes 8 j

end DynamicAmm.Client

import DynamicAmm.Proof.Client.Accounts

/-!
# What the program reads of a new configuration

The client writes the arguments of `createConfig` by its interface description, which has the vault configuration
among them. The program of this repository has no such argument, so it takes the key for the authority, and the
first bytes of the authority for the activation type and the index, by which it derives the account's address.
-/

namespace DynamicAmm.Client

open Codec Schema Seeds Program

/-- The arguments are in the ranges of the description. -/
structure CreateConfigInstruction.Fits (instruction : CreateConfigInstruction) : Prop where
  tradeFeeNumerator : 0 ≤ instruction.tradeFeeNumerator ∧ instruction.tradeFeeNumerator < 2 ^ 64
  protocolTradeFeeNumerator : 0 ≤ instruction.protocolTradeFeeNumerator ∧ instruction.protocolTradeFeeNumerator < 2 ^ 64
  activationDuration : 0 ≤ instruction.activationDuration ∧ instruction.activationDuration < 2 ^ 64
  index : 0 ≤ instruction.index ∧ instruction.index < 2 ^ 64
  activationType : instruction.activationType < 256

/-- The client's coder writes what the description says. -/
def WritesParameters (encode : Value → Option Bytes) : Prop :=
  ∀ value bytes, Idl.configParameters.encode value = some bytes → encode value = some bytes

/-- The program reads what it would have written, and does not look at what follows. -/
def ReadsParameters (deserialize : Bytes → Option State.ConfigParameters) : Prop :=
  ∀ parameters rest, deserialize (State.ConfigParameters.codec.encode parameters ++ rest) = some parameters

variable {instruction : CreateConfigInstruction}

/-- The arguments as the client writes them, one after the other. -/
def CreateConfigInstruction.sent (instruction : CreateConfigInstruction) : Bytes :=
  leBytes 8 instruction.tradeFeeNumerator.toNat ++ (leBytes 8 instruction.protocolTradeFeeNumerator.toNat ++
    (leBytes 8 instruction.activationDuration.toNat ++ (instruction.vaultConfigKey.bytes ++
      (instruction.poolCreatorAuthority.bytes ++ (leBytes 1 instruction.activationType ++
        leBytes 8 instruction.index.toNat)))))

theorem encode_u64 {n : Int} (h : 0 ≤ n ∧ n < 2 ^ 64) : Idl.u64.encode (Record.bn n) = some (leBytes 8 n.toNat) := by
  have hnat : n.natAbs = n.toNat := by omega
  have hlt : n.toNat < 256 ^ 8 := by omega
  rw [Record.bn, Idl.u64, Ty.encode, hnat, dif_pos hlt]
  rfl

theorem encode_publicKey (key : Pubkey) : Idl.publicKey.encode (.bytes key.bytes) = some key.bytes :=
  pubkey_describes.encode key

theorem encode_u8 {n : Nat} (h : n < 256) : Idl.u8.encode (.nat n) = some (leBytes 1 n) := dif_pos h

theorem encode_configParameters (h : instruction.Fits) :
    Idl.configParameters.encode instruction.configParameters = some instruction.sent := by
  have htrade := encode_u64 h.tradeFeeNumerator
  have hprotocol := encode_u64 h.protocolTradeFeeNumerator
  have hduration := encode_u64 h.activationDuration
  have hindex := encode_u64 h.index
  have htype := encode_u8 h.activationType
  simp [Idl.configParameters, CreateConfigInstruction.configParameters, Ty.encode, Fields.ofList, Fields.encode,
    List.lookup, htrade, hprotocol, hduration, hindex, htype, encode_publicKey, CreateConfigInstruction.sent]

/-! ### The program's reading -/

theorem u64_encode (n : UInt64) : u64.encode n = leBytes 8 n.toNat := rfl

theorem u64_encode_ofNat {n : Nat} (h : n < 2 ^ 64) : u64.encode (.ofNat n) = leBytes 8 n := by
  rw [u64_encode, UInt64.toNat_ofNat_of_lt' h]

theorem u8_encode (byte : UInt8) : u8.encode byte = [byte] := by
  change [UInt8.ofNat byte.toNat] = [byte]
  rw [UInt8.ofNat_toNat]

/-- The address that the program derives the configuration from is the client's. -/
def CreateConfigInstruction.SameSeeds (instruction : CreateConfigInstruction) (parameters : State.ConfigParameters) :
    Prop :=
  (DerivedAccount.config instruction.index).seeds = .ok (Program.DerivedAccount.config parameters.index).seeds

theorem seeds_eq_iff (h : instruction.Fits) (parameters : State.ConfigParameters) :
    instruction.SameSeeds parameters ↔ instruction.index = parameters.index.toNat := by
  obtain ⟨hnonneg, hlt⟩ := h.index
  have hfit : instruction.index.natAbs < 256 ^ 8 := by omega
  have hindex : parameters.index.toNat < 256 ^ 8 := parameters.index.toNat_lt
  have hclient : (DerivedAccount.config instruction.index).seeds =
      .ok [text "config", leBytes 8 instruction.index.natAbs] := by
    rw [DerivedAccount.seeds, toBuffer, if_pos hfit]
    rfl
  rw [CreateConfigInstruction.SameSeeds, hclient, Program.DerivedAccount.seeds, Except.ok.injEq, List.cons.injEq,
    and_iff_right rfl, List.cons.injEq, and_iff_left rfl, toLeBytes, leBytes_inj hfit hindex]
  omega

/-- What the program makes of the arguments, where the authority's bytes are these. -/
def CreateConfigInstruction.misread (instruction : CreateConfigInstruction) (byte : UInt8) (others : Bytes) :
    State.ConfigParameters where
  tradeFeeNumerator := .ofNat instruction.tradeFeeNumerator.toNat
  protocolTradeFeeNumerator := .ofNat instruction.protocolTradeFeeNumerator.toNat
  activationDuration := .ofNat instruction.activationDuration.toNat
  poolCreatorAuthority := instruction.vaultConfigKey
  activationType := byte
  index := .ofNat (ofLeBytes (others.take 8))

section Misread

variable {byte : UInt8} {others : Bytes} (hbytes : instruction.poolCreatorAuthority.bytes = byte :: others)

include hbytes

theorem length_take_others : (others.take 8).length = 8 := by
  have := instruction.poolCreatorAuthority.length_eq
  rw [hbytes, List.length_cons] at this
  rw [List.length_take]
  omega

theorem ofLeBytes_take_lt : ofLeBytes (others.take 8) < 2 ^ 64 :=
  (ofLeBytes_lt _).trans_eq (by rw [length_take_others hbytes]; rfl)

theorem sent_eq (h : instruction.Fits) :
    instruction.sent = State.ConfigParameters.codec.encode (instruction.misread byte others) ++
      (others.drop 8 ++ (leBytes 1 instruction.activationType ++ leBytes 8 instruction.index.toNat)) := by
  have hindex : leBytes 8 (ofLeBytes (others.take 8)) = others.take 8 := by
    nth_rewrite 1 [← length_take_others hbytes]
    exact leBytes_ofLeBytes _
  have htrade := h.tradeFeeNumerator
  have hprotocol := h.protocolTradeFeeNumerator
  have hduration := h.activationDuration
  have hencode : State.ConfigParameters.codec.encode (instruction.misread byte others) =
      leBytes 8 instruction.tradeFeeNumerator.toNat ++ (leBytes 8 instruction.protocolTradeFeeNumerator.toNat ++
        (leBytes 8 instruction.activationDuration.toNat ++ (instruction.vaultConfigKey.bytes ++
          ([byte] ++ others.take 8)))) := by
    rw [← u64_encode_ofNat (by omega : instruction.tradeFeeNumerator.toNat < 2 ^ 64),
      ← u64_encode_ofNat (by omega : instruction.protocolTradeFeeNumerator.toNat < 2 ^ 64),
      ← u64_encode_ofNat (by omega : instruction.activationDuration.toNat < 2 ^ 64), ← u8_encode, ← hindex,
      ← u64_encode_ofNat (ofLeBytes_take_lt hbytes)]
    rfl
  have hothers : ∀ rest : Bytes, others.take 8 ++ (others.drop 8 ++ rest) = others ++ rest := by
    intro rest
    rw [← List.append_assoc, List.take_append_drop]
  rw [hencode, CreateConfigInstruction.sent, hbytes]
  simp only [List.append_assoc, List.cons_append, List.nil_append, hothers]

end Misread

/-- The program reads the client's arguments of a new configuration without an error, but takes the vault
configuration for the authority and the authority's first nine bytes for the activation type and the index. So
it looks for the account where the client put it only if those bytes happen to be the index. -/
theorem createConfig_misread {encode : Value → Option Bytes} {deserialize : Bytes → Option State.ConfigParameters}
    (hwrites : WritesParameters encode) (hreads : ReadsParameters deserialize) (h : instruction.Fits) :
    ∃ sent parameters, encode instruction.configParameters = some sent ∧ deserialize sent = some parameters ∧
      parameters.tradeFeeNumerator.toNat = instruction.tradeFeeNumerator ∧
      parameters.protocolTradeFeeNumerator.toNat = instruction.protocolTradeFeeNumerator ∧
      parameters.activationDuration.toNat = instruction.activationDuration ∧
      parameters.poolCreatorAuthority = instruction.vaultConfigKey ∧
      instruction.poolCreatorAuthority.bytes.head? = some parameters.activationType ∧
      (instruction.SameSeeds parameters ↔
        ofLeBytes ((instruction.poolCreatorAuthority.bytes.drop 1).take 8) = instruction.index) := by
  have htrade := h.tradeFeeNumerator
  have hprotocol := h.protocolTradeFeeNumerator
  have hduration := h.activationDuration
  obtain ⟨byte, others, hbytes⟩ :=
    List.exists_cons_of_length_eq_add_one instruction.poolCreatorAuthority.length_eq
  refine ⟨instruction.sent, instruction.misread byte others, hwrites _ _ (encode_configParameters h),
    sent_eq hbytes h ▸ hreads _ _, ?_, ?_, ?_, rfl, congrArg List.head? hbytes, ?_⟩
  · rw [CreateConfigInstruction.misread, UInt64.toNat_ofNat_of_lt' (by simp; omega)]
    omega
  · rw [CreateConfigInstruction.misread, UInt64.toNat_ofNat_of_lt' (by simp; omega)]
    omega
  · rw [CreateConfigInstruction.misread, UInt64.toNat_ofNat_of_lt' (by simp; omega)]
    omega
  · rw [seeds_eq_iff h, CreateConfigInstruction.misread, UInt64.toNat_ofNat_of_lt' (ofLeBytes_take_lt hbytes), hbytes,
      List.drop_one, List.tail_cons]
    exact eq_comm

def sampleInstruction : CreateConfigInstruction where
  tradeFeeNumerator := 250
  protocolTradeFeeNumerator := 20000
  vaultConfigKey := .replicate 5
  activationDuration := 3600
  poolCreatorAuthority := .replicate 6
  index := 3
  activationType := 1
  config := .replicate 7
  admin := .replicate 8

theorem sampleInstruction_fits : sampleInstruction.Fits := by
  constructor <;> decide

def sampleDeserialize (bytes : Bytes) : Option State.ConfigParameters :=
  (State.ConfigParameters.codec.decode bytes).map Prod.fst

theorem sampleDeserialize_reads : ReadsParameters sampleDeserialize := by
  intro parameters rest
  rw [sampleDeserialize, State.ConfigParameters.codec.decode_encode]
  rfl

theorem createConfig_misread_sample :
    ∃ sent parameters, Idl.configParameters.encode sampleInstruction.configParameters = some sent ∧
      sampleDeserialize sent = some parameters ∧
      parameters.tradeFeeNumerator.toNat = (250 : Int) ∧
      parameters.protocolTradeFeeNumerator.toNat = (20000 : Int) ∧
      parameters.activationDuration.toNat = (3600 : Int) ∧
      parameters.poolCreatorAuthority = .replicate 5 ∧
      sampleInstruction.poolCreatorAuthority.bytes.head? = some parameters.activationType ∧
      (sampleInstruction.SameSeeds parameters ↔
        ofLeBytes ((sampleInstruction.poolCreatorAuthority.bytes.drop 1).take 8) = (3 : Int)) :=
  createConfig_misread (fun _ _ => id) sampleDeserialize_reads sampleInstruction_fits

end DynamicAmm.Client

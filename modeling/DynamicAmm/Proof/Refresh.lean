import DynamicAmm.Base.Seeds
import DynamicAmm.Proof.Client.Quote
import DynamicAmm.Proof.Quote.Product

/-!
# Refreshing a Lido price in both SDKs

Both read the supply and the balance of the stake pool from the same sixteen bytes, the Rust quote as
unsigned words and the client as signed ones, and both divide. The quotients are the same number for words
below `2 ^ 63`, and only by coincidence above. The Rust quote also refuses a price that is no word, and the
client a clock reading that is no safe integer.
-/

namespace DynamicAmm

open Rust Program

/-! ### The price -/

def wordAt (bytes : Bytes) (offset : Nat) : Nat := Quote.fromLeBytes ((bytes.drop offset).take 8)

theorem fromLeBytes_lt (bytes : Bytes) : Quote.fromLeBytes bytes < 256 ^ bytes.length := by
  induction bytes with
  | nil => decide
  | cons byte rest ih =>
      have hbyte := byte.toNat_lt
      change byte.toNat + 256 * Quote.fromLeBytes rest < 256 ^ (rest.length + 1)
      rw [pow_succ]
      omega

theorem wordAt_lt (bytes : Bytes) (offset : Nat) : wordAt bytes offset < 2 ^ 64 := by
  have hlength : ((bytes.drop offset).take 8).length ≤ 8 := by simp
  calc
    wordAt bytes offset < 256 ^ ((bytes.drop offset).take 8).length := fromLeBytes_lt _
    _ ≤ 256 ^ 8 := Nat.pow_le_pow_right (by norm_num) hlength
    _ = 2 ^ 64 := by norm_num

def signed (word : Nat) : Int := if word < 2 ^ 63 then word else word - 2 ^ 64

theorem signed_of_lt {word : Nat} (h : word < 2 ^ 63) : signed word = word := if_pos h

theorem signed_of_le {word : Nat} (h : 2 ^ 63 ≤ word) (hword : word < 2 ^ 64) :
    signed word = -((2 ^ 64 - word : Nat) : Int) := by
  rw [signed, if_neg (not_lt.mpr h)]
  omega

theorem readBigInt64LE_eq {bytes : Bytes} {offset : Nat} (h : offset + 8 ≤ bytes.length) :
    Client.readBigInt64LE bytes offset = .ok (signed (wordAt bytes offset)) := by
  rw [Client.readBigInt64LE, if_pos h]
  rfl

theorem solidoQuotient_eq {supply balance : Nat} (hbalance : balance < 2 ^ 64) :
    (do
      let product ← checkedMul128 balance depegPrecision
      let price ← checkedDiv128 product supply
      tryU64 price) = if supply = 0 then none else tryU64 (balance * 10 ^ 6 / supply) := by
  have hprecision : depegPrecision = 10 ^ 6 := rfl
  have hfits : balance * 10 ^ 6 < 2 ^ 128 :=
    (Nat.mul_lt_mul_of_pos_right hbalance (by norm_num)).trans (by norm_num)
  rw [hprecision, checkedMul128, if_pos hfits, Option.bind_eq_bind, Option.bind_some, checkedDiv128]
  by_cases hzero : supply = 0
  · rw [if_pos hzero, if_pos hzero, Option.bind_none]
  · rw [if_neg hzero, if_neg hzero, Option.bind_some]

theorem Solido_getVirtualPrice_eq {bytes : Bytes} (h : 89 ≤ bytes.length) :
    Quote.Solido.getVirtualPrice bytes =
      .ok (if wordAt bytes 73 = 0 then none else tryU64 (wordAt bytes 81 * 10 ^ 6 / wordAt bytes 73)) := by
  have hsupply : Quote.slice bytes 73 81 = .ok ((bytes.drop 73).take 8) := by
    rw [Quote.slice, if_pos (by omega)]
  have hbalance : Quote.slice bytes 81 89 = .ok ((bytes.drop 81).take 8) := by
    rw [Quote.slice, if_pos (by omega)]
  rw [Quote.Solido.getVirtualPrice, hsupply, hbalance, ← solidoQuotient_eq (wordAt_lt bytes 81)]
  rfl

/-- The two words give the same price, or a supply of zero gives none. -/
def PricesAgree (supply balance : Nat) : Prop :=
  supply = 0 ∨
    (supply < 2 ^ 63 ∧ balance < 2 ^ 63 ∧ balance * 10 ^ 6 < supply * 2 ^ 64) ∨
    (2 ^ 63 ≤ supply ∧ (balance * 10 ^ 6 < 2 ^ 64 - supply ∨ balance = supply))

instance (supply balance : Nat) : Decidable (PricesAgree supply balance) := inferInstanceAs (Decidable (_ ∨ _))

theorem tdiv_natCast (m n : Nat) : ((m : Int) * 10 ^ 6).tdiv n = ((m * 10 ^ 6 / n : Nat) : Int) := by
  rw [Int.ofNat_tdiv]
  push_cast
  rfl

theorem tdiv_signed {supply balance : Nat} (hsupply : supply < 2 ^ 64) (hbalance : balance < 2 ^ 64) :
    (signed balance * 10 ^ 6).tdiv (signed supply) =
      if supply < 2 ^ 63 then
        if balance < 2 ^ 63 then ((balance * 10 ^ 6 / supply : Nat) : Int)
        else -(((2 ^ 64 - balance) * 10 ^ 6 / supply : Nat) : Int)
      else if balance < 2 ^ 63 then -((balance * 10 ^ 6 / (2 ^ 64 - supply) : Nat) : Int)
      else (((2 ^ 64 - balance) * 10 ^ 6 / (2 ^ 64 - supply) : Nat) : Int) := by
  split_ifs with hs hb hb
  · rw [signed_of_lt hs, signed_of_lt hb, tdiv_natCast]
  · rw [signed_of_lt hs, signed_of_le (not_lt.mp hb) hbalance, Int.neg_mul, Int.neg_tdiv, tdiv_natCast]
  · rw [signed_of_le (not_lt.mp hs) hsupply, signed_of_lt hb, Int.tdiv_neg, tdiv_natCast]
  · rw [signed_of_le (not_lt.mp hs) hsupply, signed_of_le (not_lt.mp hb) hbalance, Int.neg_mul,
      Int.neg_tdiv, Int.tdiv_neg, neg_neg, tdiv_natCast]

/-- The two sides of one are told apart by the quotients of the complements. -/
theorem complement_div_eq_iff {supply balance : Nat} (hsupply : supply < 2 ^ 64)
    (hbalance : balance < 2 ^ 64) (hpos : 0 < supply) :
    (2 ^ 64 - balance) * 10 ^ 6 / (2 ^ 64 - supply) = balance * 10 ^ 6 / supply ↔ balance = supply := by
  constructor
  · intro h
    by_contra hne
    rcases lt_or_gt_of_ne hne with hlt | hgt
    · have hbelow : balance * 10 ^ 6 / supply < 10 ^ 6 := (Nat.div_lt_iff_lt_mul hpos).mpr (by omega)
      have habove : 10 ^ 6 ≤ (2 ^ 64 - balance) * 10 ^ 6 / (2 ^ 64 - supply) :=
        (Nat.le_div_iff_mul_le (by omega)).mpr (by omega)
      omega
    · have habove : 10 ^ 6 ≤ balance * 10 ^ 6 / supply := (Nat.le_div_iff_mul_le hpos).mpr (by omega)
      have hbelow : (2 ^ 64 - balance) * 10 ^ 6 / (2 ^ 64 - supply) < 10 ^ 6 :=
        (Nat.div_lt_iff_lt_mul (by omega)).mpr (by omega)
      omega
  · rintro rfl
    rw [Nat.mul_div_cancel_left _ hpos, Nat.mul_div_cancel_left _ (by omega)]

theorem neg_natCast_ne_natCast {m n : Nat} (h : 0 < n) : -(m : Int) ≠ n := by
  omega

theorem tdiv_signed_eq_iff {supply balance : Nat} (hsupply : supply < 2 ^ 64) (hbalance : balance < 2 ^ 64)
    (hpos : 0 < supply) :
    (balance * 10 ^ 6 / supply < 2 ^ 64 ∧
        (signed balance * 10 ^ 6).tdiv (signed supply) = ((balance * 10 ^ 6 / supply : Nat) : Int)) ↔
      PricesAgree supply balance := by
  rw [tdiv_signed hsupply hbalance, PricesAgree, or_iff_right hpos.ne']
  by_cases hs : supply < 2 ^ 63 <;> by_cases hb : balance < 2 ^ 63
  · -- both readings are the words themselves
    rw [if_pos hs, if_pos hb, Nat.div_lt_iff_lt_mul hpos]
    omega
  · -- a price of at least one against one that is not positive
    have hprice : 0 < balance * 10 ^ 6 / supply := Nat.div_pos (by omega) hpos
    rw [if_pos hs, if_neg hb]
    refine iff_of_false ?_ (by omega)
    rintro ⟨-, heq⟩
    exact neg_natCast_ne_natCast hprice heq
  · -- prices of opposite signs
    have hprice : balance * 10 ^ 6 / (2 ^ 64 - supply) = 0 ↔ balance * 10 ^ 6 < 2 ^ 64 - supply :=
      Nat.div_eq_zero_iff_lt (by omega)
    have hfits : balance * 10 ^ 6 < 2 ^ 64 - supply → balance * 10 ^ 6 / supply = 0 :=
      fun h => Nat.div_eq_of_lt (by omega)
    rw [if_neg hs, if_pos hb]
    generalize balance * 10 ^ 6 / (2 ^ 64 - supply) = price at hprice ⊢
    generalize balance * 10 ^ 6 / supply = price' at hfits ⊢
    omega
  · have hfits : balance * 10 ^ 6 / supply < 2 ^ 64 := (Nat.div_lt_iff_lt_mul hpos).mpr (by omega)
    rw [if_neg hs, if_neg hb, Int.natCast_inj, complement_div_eq_iff hsupply hbalance hpos]
    omega

/-! ### The Rust refresh -/

def solidoPrice (bytes : Bytes) : Option UInt64 :=
  if wordAt bytes 73 = 0 then none else tryU64 (wordAt bytes 81 * 10 ^ 6 / wordAt bytes 73)

section Rust

variable {accounts : Quote.StakeAccounts} {pool : Pool} {amp : UInt64} {tokenMultiplier : TokenMultiplier}
  {depeg : Depeg} {lastAmpUpdatedTimestamp : UInt64} {clock : Quote.Clock} {stakeData : Quote.StakeData}
  {bytes : Bytes}

theorem updateBaseVirtualPrice_of_le
    (hpool : pool.curveType = .stable amp tokenMultiplier depeg lastAmpUpdatedTimestamp)
    (hlido : depeg.depegType = .lido) (hcache : depeg.baseCacheUpdated.toNat + 600 < 2 ^ 64)
    (h : clock.unixTimestamp.toUInt64.toNat ≤ depeg.baseCacheUpdated.toNat + 600) :
    Quote.updateBaseVirtualPrice accounts pool clock stakeData = (.ok (), pool) := by
  obtain ⟨expiry, hexpiry⟩ : ∃ expiry,
      checkedAdd depeg.baseCacheUpdated (UInt64.ofNat baseCacheExpires) = some expiry :=
    ⟨_, if_pos hcache⟩
  have hvalue : expiry.toNat = depeg.baseCacheUpdated.toNat + 600 := checkedAdd_eq_some.mp hexpiry
  have hfresh : ¬ clock.unixTimestamp.toUInt64 > expiry := by
    rw [gt_iff_lt, UInt64.lt_iff_toNat_lt]
    omega
  simp only [Quote.updateBaseVirtualPrice, hpool, hlido, reduceCtorEq, if_false, hexpiry, if_neg hfresh]

theorem updateBaseVirtualPrice_of_lt
    (hpool : pool.curveType = .stable amp tokenMultiplier depeg lastAmpUpdatedTimestamp)
    (hlido : depeg.depegType = .lido) (hcache : depeg.baseCacheUpdated.toNat + 600 < 2 ^ 64)
    (h : depeg.baseCacheUpdated.toNat + 600 < clock.unixTimestamp.toUInt64.toNat)
    (hdata : stakeData Quote.Solido.stakeId = some bytes) (hbytes : 89 ≤ bytes.length) :
    Quote.updateBaseVirtualPrice accounts pool clock stakeData =
      match solidoPrice bytes with
      | some virtualPrice =>
          (.ok (), { pool with
            curveType := .stable amp tokenMultiplier
              { depeg with
                baseCacheUpdated := clock.unixTimestamp.toUInt64
                baseVirtualPrice := virtualPrice }
              lastAmpUpdatedTimestamp })
      | none => (.err "Fail to get stake pool virtual price", pool) := by
  obtain ⟨expiry, hexpiry⟩ : ∃ expiry,
      checkedAdd depeg.baseCacheUpdated (UInt64.ofNat baseCacheExpires) = some expiry :=
    ⟨_, if_pos hcache⟩
  have hvalue : expiry.toNat = depeg.baseCacheUpdated.toNat + 600 := checkedAdd_eq_some.mp hexpiry
  have hexpired : clock.unixTimestamp.toUInt64 > expiry := by
    rw [gt_iff_lt, UInt64.lt_iff_toNat_lt]
    omega
  have hprice : Quote.getStakePoolVirtualPrice accounts .lido pool.stake stakeData =
      .ok (solidoPrice bytes) := by
    rw [Quote.getStakePoolVirtualPrice, hdata]
    exact Solido_getVirtualPrice_eq hbytes
  simp only [Quote.updateBaseVirtualPrice, hpool, hlido, reduceCtorEq, if_false, hexpiry, if_pos hexpired,
    hprice]
  cases solidoPrice bytes <;> rfl

end Rust

/-! ### The client's refresh -/

def clientPrice (bytes : Bytes) : Js.Throwing Int :=
  Js.BN.div (signed (wordAt bytes 81) * 10 ^ 6) (signed (wordAt bytes 73))

namespace Client.StableSwap

variable {decoders : StakeDecoders} {curve : StableSwap} {depeg : Depeg} {bytes : Bytes}

theorem getBasePoolVirtualPrice_lido (hdata : curve.extraAccounts lidoAccount = some bytes)
    (hbytes : 89 ≤ bytes.length) :
    curve.getBasePoolVirtualPrice decoders .lido = clientPrice bytes := by
  simp only [getBasePoolVirtualPrice, hdata]
  rw [readBigInt64LE_eq (by omega), readBigInt64LE_eq (by omega)]
  rfl

/-- A clock reading that is no safe integer is refused before anything is read or written. -/
theorem updateDepegInfoIfExpired_of_unsafe (hlido : depeg.depegType = .lido)
    (h : 2 ^ 53 ≤ curve.onChainTime.natAbs) :
    ∃ e, curve.updateDepegInfoIfExpired decoders depeg = (.error e, depeg) := by
  have hnow : Js.BN.toNumber curve.onChainTime =
      .error "Number can only safely store up to 53 bits" := if_neg (not_lt.mpr h)
  simp [updateDepegInfoIfExpired, hlido, hnow]

theorem updateDepegInfoIfExpired_of_le (hlido : depeg.depegType = .lido) (hupdated : 0 ≤ depeg.baseCacheUpdated)
    (hcache : depeg.baseCacheUpdated + 600 < 2 ^ 53) (hnow : 0 ≤ curve.onChainTime)
    (h : curve.onChainTime ≤ depeg.baseCacheUpdated + 600) :
    curve.updateDepegInfoIfExpired decoders depeg = (.ok (), depeg) := by
  have hnow : Js.BN.toNumber curve.onChainTime = .ok curve.onChainTime := if_pos (by omega)
  have hexpiry : Js.BN.toNumber (depeg.baseCacheUpdated + baseCacheExpire) =
      .ok (depeg.baseCacheUpdated + baseCacheExpire) := if_pos (by simp only [baseCacheExpire]; omega)
  have hfresh : ¬ curve.onChainTime > depeg.baseCacheUpdated + baseCacheExpire := by
    simp only [baseCacheExpire]
    omega
  simp [updateDepegInfoIfExpired, hlido, hnow, hexpiry, hfresh]

/-- Before the cache expires the record stays, even where a time is no safe integer. -/
theorem updateDepegInfoIfExpired_snd_of_le (hlido : depeg.depegType = .lido)
    (h : curve.onChainTime ≤ depeg.baseCacheUpdated + 600) :
    (curve.updateDepegInfoIfExpired decoders depeg).2 = depeg := by
  have hdepeg : depeg.depegType ≠ .none := by simp [hlido]
  simp only [updateDepegInfoIfExpired, Js.Call.bind_apply, Js.Call.read_apply, Js.Call.lift_apply, if_pos hdepeg]
  cases hnow : Js.BN.toNumber curve.onChainTime with
  | error e => rfl
  | ok now =>
      cases hexpiry : Js.BN.toNumber (depeg.baseCacheUpdated + baseCacheExpire) with
      | error e => rfl
      | ok expiry =>
          obtain ⟨-, rfl⟩ := Js.BN.toNumber_eq_ok.mp hnow
          obtain ⟨-, rfl⟩ := Js.BN.toNumber_eq_ok.mp hexpiry
          have hfresh : ¬ curve.onChainTime > depeg.baseCacheUpdated + baseCacheExpire := by
            simp only [baseCacheExpire]
            omega
          simp only [if_neg hfresh]
          rfl

theorem updateDepegInfoIfExpired_of_lt (hlido : depeg.depegType = .lido) (hupdated : 0 ≤ depeg.baseCacheUpdated)
    (hnow : curve.onChainTime < 2 ^ 53) (h : depeg.baseCacheUpdated + 600 < curve.onChainTime)
    (hdata : curve.extraAccounts lidoAccount = some bytes) (hbytes : 89 ≤ bytes.length) :
    curve.updateDepegInfoIfExpired decoders depeg =
      match clientPrice bytes with
      | .ok price => (.ok (), ⟨price, curve.onChainTime, depeg.depegType⟩)
      | .error e => (.error e, depeg) := by
  have hnow : Js.BN.toNumber curve.onChainTime = .ok curve.onChainTime := if_pos (by omega)
  have hexpiry : Js.BN.toNumber (depeg.baseCacheUpdated + baseCacheExpire) =
      .ok (depeg.baseCacheUpdated + baseCacheExpire) := if_pos (by simp only [baseCacheExpire]; omega)
  have hexpired : curve.onChainTime > depeg.baseCacheUpdated + baseCacheExpire := by
    simp only [baseCacheExpire]
    omega
  have hprice : curve.getBasePoolVirtualPrice decoders depeg.depegType = clientPrice bytes := by
    rw [hlido]
    exact getBasePoolVirtualPrice_lido hdata hbytes
  have hdepeg : depeg.depegType ≠ .none := by simp [hlido]
  simp only [updateDepegInfoIfExpired, Js.Call.bind_apply, Js.Call.read_apply, Js.Call.lift_apply,
    if_pos hdepeg, hnow, hexpiry, if_pos hexpired, hprice]
  cases clientPrice bytes <;> rfl

end Client.StableSwap

/-! ### The two refreshes -/

/-- A depeg record as the client holds it. -/
def decodeDepeg (depeg : Depeg) : Client.Depeg :=
  ⟨depeg.baseVirtualPrice.toNat, depeg.baseCacheUpdated.toNat, depeg.depegType⟩

/-- The client's record is the one in the pool. -/
def CachedAs (pool : Pool) (record : Client.Depeg) : Prop :=
  ∃ amp tokenMultiplier depeg lastAmpUpdatedTimestamp,
    pool.curveType = .stable amp tokenMultiplier depeg lastAmpUpdatedTimestamp ∧ decodeDepeg depeg = record

section Refresh

variable (accounts : Quote.StakeAccounts) (decoders : Client.StakeDecoders) (pool : Pool) (depeg : Depeg)
  (clock : Quote.Clock) (stakeData : Quote.StakeData) (curve : Client.StableSwap)

/-- Both calls succeed and leave the same record, or both fail and leave theirs alone. -/
def SameOutcome : Prop :=
  ((Quote.updateBaseVirtualPrice accounts pool clock stakeData).1 = .ok () ∧
      (curve.updateDepegInfoIfExpired decoders (decodeDepeg depeg)).1 = .ok () ∧
      CachedAs (Quote.updateBaseVirtualPrice accounts pool clock stakeData).2
        (curve.updateDepegInfoIfExpired decoders (decodeDepeg depeg)).2) ∨
    ((∃ message, Quote.updateBaseVirtualPrice accounts pool clock stakeData = (.err message, pool)) ∧
      ∃ e, curve.updateDepegInfoIfExpired decoders (decodeDepeg depeg) = (.error e, decodeDepeg depeg))

/-- The Rust call on the pool and the client's on its record of it. -/
structure RefreshesAlike : Prop where
  agrees : SameOutcome accounts decoders pool depeg clock stakeData curve
  kept : clock.unixTimestamp.toInt ≤ depeg.baseCacheUpdated.toNat + 600 →
    Quote.updateBaseVirtualPrice accounts pool clock stakeData = (.ok (), pool) ∧
      curve.updateDepegInfoIfExpired decoders (decodeDepeg depeg) = (.ok (), decodeDepeg depeg)
  renewed : depeg.baseCacheUpdated.toNat + 600 < clock.unixTimestamp.toInt →
    ((Quote.updateBaseVirtualPrice accounts pool clock stakeData).1 = .ok () →
        ∃ record, CachedAs (Quote.updateBaseVirtualPrice accounts pool clock stakeData).2 record ∧
          record.baseCacheUpdated = clock.unixTimestamp.toInt) ∧
      ((curve.updateDepegInfoIfExpired decoders (decodeDepeg depeg)).1 = .ok () →
        (curve.updateDepegInfoIfExpired decoders (decodeDepeg depeg)).2.baseCacheUpdated =
          clock.unixTimestamp.toInt)
  /-- A call within ten minutes of a refresh changes nothing, whatever the stake account holds by then. -/
  settled : depeg.baseCacheUpdated.toNat + 600 < clock.unixTimestamp.toInt → ∀ later : Quote.Clock,
    0 ≤ later.unixTimestamp.toInt → later.unixTimestamp.toInt ≤ clock.unixTimestamp.toInt + 600 →
    ((Quote.updateBaseVirtualPrice accounts pool clock stakeData).1 = .ok () → ∀ laterData,
        (Quote.updateBaseVirtualPrice accounts
          (Quote.updateBaseVirtualPrice accounts pool clock stakeData).2 later laterData).2 =
            (Quote.updateBaseVirtualPrice accounts pool clock stakeData).2) ∧
      ((curve.updateDepegInfoIfExpired decoders (decodeDepeg depeg)).1 = .ok () →
        ∀ laterCurve : Client.StableSwap, laterCurve.onChainTime = later.unixTimestamp.toInt →
          (laterCurve.updateDepegInfoIfExpired decoders
            (curve.updateDepegInfoIfExpired decoders (decodeDepeg depeg)).2).2 =
              (curve.updateDepegInfoIfExpired decoders (decodeDepeg depeg)).2)

variable {accounts decoders pool depeg clock stakeData curve} {amp : UInt64}
  {tokenMultiplier : TokenMultiplier} {lastAmpUpdatedTimestamp : UInt64} {bytes : Bytes}

theorem unixTimestamp_toNat {clock : Quote.Clock} (h : 0 ≤ clock.unixTimestamp.toInt) :
    (clock.unixTimestamp.toUInt64.toNat : Int) = clock.unixTimestamp.toInt := by
  have hle : 0 ≤ clock.unixTimestamp := by
    rw [Int64.le_iff_toInt_le]
    exact h
  rw [Int64.toNat_toUInt64_of_le hle]
  exact Int.toNat_of_nonneg h

/-- The prices in force after a refresh are equal exactly when the words agree. -/
theorem prices_eq_iff {bytes : Bytes} :
    ((∃ virtualPrice, solidoPrice bytes = some virtualPrice ∧
          clientPrice bytes = .ok virtualPrice.toNat) ∨
        (solidoPrice bytes = none ∧ ∃ e, clientPrice bytes = .error e)) ↔
      PricesAgree (wordAt bytes 73) (wordAt bytes 81) := by
  have hsupply := wordAt_lt bytes 73
  have hbalance := wordAt_lt bytes 81
  by_cases hzero : wordAt bytes 73 = 0
  · refine iff_of_true (Or.inr ⟨if_pos hzero, Js.assertionFailed, ?_⟩) (Or.inl hzero)
    rw [clientPrice, hzero]
    rfl
  · have hsigned : signed (wordAt bytes 73) ≠ 0 := by
      unfold signed
      split <;> omega
    rw [← tdiv_signed_eq_iff hsupply hbalance (by omega), solidoPrice, clientPrice, Js.BN.div, if_neg hzero,
      if_neg hsigned]
    simp only [tryU64_eq_some, Except.ok.injEq, reduceCtorEq, exists_false, and_false, or_false]
    constructor
    · rintro ⟨virtualPrice, hword, hprice⟩
      exact ⟨hword ▸ virtualPrice.toNat_lt, hword ▸ hprice⟩
    · rintro ⟨hfits, hprice⟩
      have hword := UInt64.toNat_ofNat_of_lt' hfits
      exact ⟨_, hword, hword.symm ▸ hprice⟩

theorem solidoPrice_eq_none_iff {bytes : Bytes} :
    solidoPrice bytes = none ↔ wordAt bytes 73 * 2 ^ 64 ≤ wordAt bytes 81 * 10 ^ 6 := by
  unfold solidoPrice tryU64
  by_cases hzero : wordAt bytes 73 = 0
  · simp [hzero]
  · rw [if_neg hzero, ite_eq_right_iff]
    simp only [reduceCtorEq, imp_false, not_lt]
    rw [Nat.le_div_iff_mul_le (by omega), Nat.mul_comm]

section Expired

variable (hpool : pool.curveType = .stable amp tokenMultiplier depeg lastAmpUpdatedTimestamp)
  (hlido : depeg.depegType = .lido) (hcache : depeg.baseCacheUpdated.toNat + 600 < 2 ^ 53)
  (htime : 0 ≤ clock.unixTimestamp.toInt) (hdata : stakeData Quote.Solido.stakeId = some bytes)
  (hbytes : 89 ≤ bytes.length) (hclock : curve.onChainTime = clock.unixTimestamp.toInt)
  (haccounts : curve.extraAccounts = stakeData)
  (hlt : depeg.baseCacheUpdated.toNat + 600 < clock.unixTimestamp.toInt)

include hpool hlido hcache htime hdata hbytes hlt in
/-- What a Rust refresh of an expired cache leaves behind. -/
theorem exists_renewed (hok : (Quote.updateBaseVirtualPrice accounts pool clock stakeData).1 = .ok ()) :
    ∃ virtualPrice, solidoPrice bytes = some virtualPrice ∧
      (Quote.updateBaseVirtualPrice accounts pool clock stakeData).2.curveType =
        .stable amp tokenMultiplier ⟨virtualPrice, clock.unixTimestamp.toUInt64, .lido⟩
          lastAmpUpdatedTimestamp := by
  have hseconds := unixTimestamp_toNat htime
  rw [updateBaseVirtualPrice_of_lt hpool hlido (by omega) (by omega) hdata hbytes] at hok ⊢
  cases hprice : solidoPrice bytes with
  | none =>
      rw [hprice] at hok
      cases hok
  | some virtualPrice =>
      refine ⟨virtualPrice, rfl, ?_⟩
      simp only [hlido]

include hlido hdata hbytes hclock haccounts hlt in
/-- What a client's refresh of an expired cache leaves behind. -/
theorem exists_renewed_client
    (hok : (curve.updateDepegInfoIfExpired decoders (decodeDepeg depeg)).1 = .ok ()) :
    clock.unixTimestamp.toInt < 2 ^ 53 ∧ ∃ price, clientPrice bytes = .ok price ∧
      (curve.updateDepegInfoIfExpired decoders (decodeDepeg depeg)).2 =
        ⟨price, clock.unixTimestamp.toInt, .lido⟩ := by
  by_cases hsafe : clock.unixTimestamp.toInt < 2 ^ 53
  · refine ⟨hsafe, ?_⟩
    rw [Client.StableSwap.updateDepegInfoIfExpired_of_lt hlido (Nat.cast_nonneg _) (hclock ▸ hsafe)
      (hclock ▸ hlt) (haccounts ▸ hdata) hbytes] at hok ⊢
    cases hprice : clientPrice bytes with
    | error e =>
        rw [hprice] at hok
        cases hok
    | ok price =>
        refine ⟨price, rfl, ?_⟩
        simp only [decodeDepeg, hclock, hlido]
  · obtain ⟨e, he⟩ : ∃ e, curve.updateDepegInfoIfExpired decoders (decodeDepeg depeg) =
        (.error e, decodeDepeg depeg) :=
      Client.StableSwap.updateDepegInfoIfExpired_of_unsafe hlido (by omega)
    rw [he] at hok
    cases hok

include hpool hlido hcache htime hdata hbytes hclock haccounts hlt in
/-- After a cache has expired the two calls can only differ in what `agrees` says. -/
theorem refreshesAlike_of_agrees
    (hagrees : SameOutcome accounts decoders pool depeg clock stakeData curve) :
    RefreshesAlike accounts decoders pool depeg clock stakeData curve := by
  have hseconds := unixTimestamp_toNat htime
  have hclockLt := Int64.toInt_lt clock.unixTimestamp
  refine ⟨hagrees, fun hle => absurd hlt (not_lt.mpr hle), fun _ => ⟨?_, ?_⟩, ?_⟩
  · intro hok
    obtain ⟨virtualPrice, -, hrenewed⟩ :=
      exists_renewed hpool hlido hcache htime hdata hbytes hlt hok
    exact ⟨_, ⟨_, _, _, _, hrenewed, rfl⟩, hseconds⟩
  · intro hok
    obtain ⟨-, price, -, hrenewed⟩ :=
      exists_renewed_client hlido hdata hbytes hclock haccounts hlt hok
    rw [hrenewed]
  · intro _ later hlater hwithin
    have hlaterSeconds := unixTimestamp_toNat hlater
    constructor
    · intro hok laterData
      obtain ⟨virtualPrice, -, hrenewed⟩ :=
        exists_renewed hpool hlido hcache htime hdata hbytes hlt hok
      rw [updateBaseVirtualPrice_of_le hrenewed rfl (by simp only; omega) (by simp only; omega)]
    · intro hok laterCurve hlaterClock
      obtain ⟨-, price, -, hrenewed⟩ :=
        exists_renewed_client hlido hdata hbytes hclock haccounts hlt hok
      rw [hrenewed]
      exact Client.StableSwap.updateDepegInfoIfExpired_snd_of_le rfl (by simp only; omega)

include hpool hlido hcache htime hdata hbytes hclock haccounts hlt in
theorem sameOutcome_iff : SameOutcome accounts decoders pool depeg clock stakeData curve ↔
    (clock.unixTimestamp.toInt < 2 ^ 53 ∧ PricesAgree (wordAt bytes 73) (wordAt bytes 81)) ∨
      (2 ^ 53 ≤ clock.unixTimestamp.toInt ∧ wordAt bytes 73 * 2 ^ 64 ≤ wordAt bytes 81 * 10 ^ 6) := by
  have hseconds := unixTimestamp_toNat htime
  rw [SameOutcome, updateBaseVirtualPrice_of_lt hpool hlido (by omega) (by omega) hdata hbytes,
    ← solidoPrice_eq_none_iff, ← prices_eq_iff]
  by_cases hsafe : clock.unixTimestamp.toInt < 2 ^ 53
  · rw [Client.StableSwap.updateDepegInfoIfExpired_of_lt hlido (Nat.cast_nonneg _) (hclock ▸ hsafe)
      (hclock ▸ hlt) (haccounts ▸ hdata) hbytes]
    simp only [hsafe, true_and, not_le.mpr hsafe, false_and, or_false]
    cases solidoPrice bytes with
    | none => cases clientPrice bytes <;> simp
    | some virtualPrice =>
        cases clientPrice bytes with
        | error e => simp
        | ok price =>
            have hcached : CachedAs { pool with
                curveType := .stable amp tokenMultiplier
                  { depeg with
                    baseCacheUpdated := clock.unixTimestamp.toUInt64
                    baseVirtualPrice := virtualPrice }
                  lastAmpUpdatedTimestamp }
                ⟨price, curve.onChainTime, (decodeDepeg depeg).depegType⟩ ↔ price = virtualPrice.toNat := by
              constructor
              · rintro ⟨_, _, _, _, hcurve, hrecord⟩
                cases hcurve
                exact (congrArg Client.Depeg.baseVirtualPrice hrecord).symm
              · rintro rfl
                refine ⟨_, _, _, _, rfl, ?_⟩
                rw [decodeDepeg, hseconds, hclock]
                rfl
            simp [hcached]
  · obtain ⟨e, he⟩ : ∃ e, curve.updateDepegInfoIfExpired decoders (decodeDepeg depeg) =
        (.error e, decodeDepeg depeg) :=
      Client.StableSwap.updateDepegInfoIfExpired_of_unsafe hlido (by omega)
    rw [he]
    simp only [hsafe, not_lt.mp hsafe, true_and, false_and, false_or]
    cases solidoPrice bytes <;> simp

end Expired

theorem refreshesAlike_iff
    (hpool : pool.curveType = .stable amp tokenMultiplier depeg lastAmpUpdatedTimestamp)
    (hlido : depeg.depegType = .lido) (hcache : depeg.baseCacheUpdated.toNat + 600 < 2 ^ 53)
    (htime : 0 ≤ clock.unixTimestamp.toInt) (hdata : stakeData Quote.Solido.stakeId = some bytes)
    (hbytes : 89 ≤ bytes.length) (hclock : curve.onChainTime = clock.unixTimestamp.toInt)
    (haccounts : curve.extraAccounts = stakeData) :
    RefreshesAlike accounts decoders pool depeg clock stakeData curve ↔
      clock.unixTimestamp.toInt ≤ depeg.baseCacheUpdated.toNat + 600 ∨
        (clock.unixTimestamp.toInt < 2 ^ 53 ∧ PricesAgree (wordAt bytes 73) (wordAt bytes 81)) ∨
        (2 ^ 53 ≤ clock.unixTimestamp.toInt ∧ wordAt bytes 73 * 2 ^ 64 ≤ wordAt bytes 81 * 10 ^ 6) := by
  by_cases hle : clock.unixTimestamp.toInt ≤ depeg.baseCacheUpdated.toNat + 600
  · have hseconds := unixTimestamp_toNat htime
    have hrust : Quote.updateBaseVirtualPrice accounts pool clock stakeData = (.ok (), pool) :=
      updateBaseVirtualPrice_of_le hpool hlido (by omega) (by omega)
    have hclient : curve.updateDepegInfoIfExpired decoders (decodeDepeg depeg) =
        (.ok (), decodeDepeg depeg) :=
      Client.StableSwap.updateDepegInfoIfExpired_of_le hlido (Nat.cast_nonneg _)
        (by simp only [decodeDepeg]; omega) (by omega) (by simp only [decodeDepeg]; omega)
    refine iff_of_true ⟨Or.inl ?_, fun _ => ⟨hrust, hclient⟩, ?_, ?_⟩ (Or.inl hle)
    · rw [hrust, hclient]
      exact ⟨rfl, rfl, _, _, _, _, hpool, rfl⟩
    · exact fun hlt => absurd hle (not_le.mpr hlt)
    · exact fun hlt => absurd hle (not_le.mpr hlt)
  · have hlt := not_le.mp hle
    have hsame : SameOutcome accounts decoders pool depeg clock stakeData curve ↔ _ :=
      sameOutcome_iff hpool hlido hcache htime hdata hbytes hclock haccounts hlt
    rw [or_iff_right hle, ← hsame]
    constructor
    · exact fun h => h.agrees
    · exact refreshesAlike_of_agrees hpool hlido hcache htime hdata hbytes hclock haccounts hlt

end Refresh

/-! ### A pool whose cache has expired -/

def lidoBytes (supply balance : Nat) : Bytes :=
  List.replicate 73 0 ++ Seeds.leBytes 8 supply ++ Seeds.leBytes 8 balance

def lidoStake (supply balance : Nat) : Quote.StakeData := fun key =>
  if key = Quote.Solido.stakeId then some (lidoBytes supply balance) else none

def staleDepeg : Depeg := ⟨1000000, 0, .lido⟩

def stalePool : Pool := Quote.samplePool Quote.sampleFees (.stable 100 ⟨1, 1⟩ staleDepeg 0)

def lidoCurve (supply balance : Nat) (time : Int64) : Client.StableSwap :=
  ⟨100, ⟨1, 1⟩, lidoStake supply balance, time.toInt, .replicate 0⟩

/-- What the two calls do on that pool. -/
def StaleRefreshesAlike (supply balance : Nat) (time : Int64) : Prop :=
  RefreshesAlike Quote.sampleAccounts Client.sampleDecoders stalePool staleDepeg ⟨10, time⟩
    (lidoStake supply balance) (lidoCurve supply balance time)

theorem refreshesAlike_iff_sample : StaleRefreshesAlike 100 110 1000 ↔
    ((1000 : Int64).toInt ≤ staleDepeg.baseCacheUpdated.toNat + 600 ∨
      ((1000 : Int64).toInt < 2 ^ 53 ∧
        PricesAgree (wordAt (lidoBytes 100 110) 73) (wordAt (lidoBytes 100 110) 81)) ∨
      (2 ^ 53 ≤ (1000 : Int64).toInt ∧
        wordAt (lidoBytes 100 110) 73 * 2 ^ 64 ≤ wordAt (lidoBytes 100 110) 81 * 10 ^ 6)) :=
  refreshesAlike_iff rfl rfl (by decide) (by decide) (if_pos rfl) (by decide) rfl rfl

theorem StaleRefreshesAlike.cond {supply balance : Nat} {time : Int64} (h : StaleRefreshesAlike supply balance time)
    (htime : 600 < time.toInt) :
    (time.toInt < 2 ^ 53 ∧
        PricesAgree (wordAt (lidoBytes supply balance) 73) (wordAt (lidoBytes supply balance) 81)) ∨
      (2 ^ 53 ≤ time.toInt ∧ wordAt (lidoBytes supply balance) 73 * 2 ^ 64 ≤
        wordAt (lidoBytes supply balance) 81 * 10 ^ 6) := by
  have hpool : stalePool.curveType = .stable 100 ⟨1, 1⟩ staleDepeg 0 := rfl
  have hdata : lidoStake supply balance Quote.Solido.stakeId = some (lidoBytes supply balance) := if_pos rfl
  have hlength : 89 ≤ (lidoBytes supply balance).length := by simp [lidoBytes]
  have hcache : staleDepeg.baseCacheUpdated.toNat + 600 < 2 ^ 53 := by decide
  have hnonneg : 0 ≤ Int64.toInt (Quote.Clock.unixTimestamp ⟨10, time⟩) :=
    le_trans (by norm_num) htime.le
  have hlt : (staleDepeg.baseCacheUpdated.toNat : Int) + 600 <
      Int64.toInt (Quote.Clock.unixTimestamp ⟨10, time⟩) := htime
  exact (sameOutcome_iff hpool rfl hcache hnonneg hdata hlength rfl rfl hlt).mp h.agrees

/-- A supply above the signed words makes the client's price negative, a price above the words is an
error of the Rust quote only, and a time above the safe integers is one of the client only. -/
theorem refreshes_differ :
    ((lidoCurve (2 ^ 63) (2 ^ 62) 1000).updateDepegInfoIfExpired Client.sampleDecoders
        (decodeDepeg staleDepeg) = (.ok (), ⟨-500000, 1000, .lido⟩) ∧
      solidoPrice (lidoBytes (2 ^ 63) (2 ^ 62)) = some 500000 ∧
      ¬ StaleRefreshesAlike (2 ^ 63) (2 ^ 62) 1000) ∧
    ¬ StaleRefreshesAlike 1 (2 ^ 45) 1000 ∧
    ¬ StaleRefreshesAlike 100 110 (2 ^ 53) := by
  refine ⟨⟨by decide +kernel, by decide +kernel, fun h => ?_⟩, fun h => ?_, fun h => ?_⟩
  · exact absurd (h.cond (by decide)) (by decide +kernel)
  · exact absurd (h.cond (by decide)) (by decide +kernel)
  · exact absurd (h.cond (by decide)) (by decide +kernel)

end DynamicAmm

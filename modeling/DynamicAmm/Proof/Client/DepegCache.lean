import DynamicAmm.Proof.Client.Quote
import DynamicAmm.Proof.Curve.Operations

/-!
# Quotes that share a pool state

A quote on a stable pool refreshes the depeg record inside the pool state it was given, so a later quote
on the same object starts from another record. All that a quote takes from the record is one price, the
stake account's if the cache has expired and the cached one otherwise. As long as the record before each
quote gives the price that the untouched record gives at that time, the quotes do not affect each other.
-/

namespace DynamicAmm.Client

open Js

/-! ### The price in force -/

namespace StableSwap

variable (decoders : StakeDecoders) (curve : StableSwap)

/-- The price an operation computes with: the stake account's once the cache has expired, the cached one
before that. -/
def priceInForce (depeg : Depeg) : Throwing Int := do
  let now ← BN.toNumber curve.onChainTime
  let expiry ← BN.toNumber (depeg.baseCacheUpdated + baseCacheExpire)
  if now > expiry then curve.getBasePoolVirtualPrice decoders depeg.depegType
  else pure depeg.baseVirtualPrice

/-- The refresh leaves a record that holds the price in force, or throws and leaves the record alone. -/
theorem updateDepegInfoIfExpired_eq {depeg : Depeg} (h : depeg.depegType ≠ .none) :
    ∃ updated, curve.updateDepegInfoIfExpired decoders depeg =
      match curve.priceInForce decoders depeg with
      | .ok price => (.ok (), ⟨price, updated, depeg.depegType⟩)
      | .error e => (.error e, depeg) := by
  simp only [updateDepegInfoIfExpired, priceInForce, Call.bind_apply, Call.read_apply, Call.lift_apply,
    if_pos h]
  rcases BN.toNumber curve.onChainTime with e | now
  · exact ⟨0, rfl⟩
  rcases BN.toNumber (depeg.baseCacheUpdated + baseCacheExpire) with e | expiry
  · exact ⟨0, rfl⟩
  by_cases hexpired : now > expiry
  · refine ⟨curve.onChainTime, ?_⟩
    simp only [if_pos hexpired, Call.bind_apply, Call.lift_apply]
    rcases curve.getBasePoolVirtualPrice decoders depeg.depegType with e | price <;>
      simp [Bind.bind, Except.bind, hexpired]
  · refine ⟨depeg.baseCacheUpdated, ?_⟩
    simp [Bind.bind, Except.bind, hexpired, Pure.pure, Except.pure]

theorem updateDepegInfoIfExpired_depegType (depeg : Depeg) :
    (curve.updateDepegInfoIfExpired decoders depeg).2.depegType = depeg.depegType := by
  by_cases h : depeg.depegType = .none
  · rw [updateDepegInfoIfExpired_none decoders curve h]
  · obtain ⟨updated, heq⟩ := curve.updateDepegInfoIfExpired_eq decoders h
    rw [heq]
    split <;> rfl

/-- An amount out depends on the record through the price in force alone. -/
theorem computeOutAmount_fst {depeg : Depeg} (h : depeg.depegType ≠ .none) (s x y : Int)
    (direction : TradeDirection) :
    (curve.computeOutAmount decoders s x y direction depeg).1 =
      (curve.priceInForce decoders depeg).bind fun price =>
        curve.computeOutAmountAt ⟨price, 0, depeg.depegType⟩ s x y direction := by
  obtain ⟨updated, heq⟩ := curve.updateDepegInfoIfExpired_eq decoders h
  change (curve.withRefreshed decoders _ depeg).1 = _
  rw [withRefreshed_apply, heq]
  rcases curve.priceInForce decoders depeg with e | price <;> rfl

theorem computeOutAmount_depegType (depeg : Depeg) (s x y : Int) (direction : TradeDirection) :
    (curve.computeOutAmount decoders s x y direction depeg).2.depegType = depeg.depegType := by
  change (curve.withRefreshed decoders _ depeg).2.depegType = _
  rw [withRefreshed_apply]
  exact curve.updateDepegInfoIfExpired_depegType decoders depeg

theorem computeOutAmount_none {depeg : Depeg} (h : depeg.depegType = .none) (s x y : Int)
    (direction : TradeDirection) :
    (curve.computeOutAmount decoders s x y direction depeg).2 = depeg := by
  change (curve.withRefreshed decoders _ depeg).2 = _
  rw [withRefreshed_none decoders curve h]

end StableSwap

/-! ### The quote -/

section Quote

variable (sdk : VaultSdk) (decoders : StakeDecoders) (inTokenMint : Program.Pubkey) (inAmount : Int)
  (params : SwapQuoteParam) (swapInitiator : Option Program.Pubkey)

/-- The call reaches a stable curve: the guards hold and the deposit settles. -/
def ReachesCurve (poolState : PoolState) (curve : StableSwap) : Prop :=
  makeSwapCurve inTokenMint params swapInitiator poolState = .ok (.stable curve) ∧
    ∃ source, settleSource sdk inTokenMint inAmount params poolState = .ok source

theorem PoolState.setDepeg_depeg (poolState : PoolState) : poolState.setDepeg poolState.depeg = poolState := by
  obtain ⟨_, _, _, _, _, _, curveType⟩ := poolState
  cases curveType <;> rfl

theorem PoolState.setDepeg_setDepeg (poolState : PoolState) (d d' : Depeg) :
    (poolState.setDepeg d).setDepeg d' = poolState.setDepeg d' := by
  obtain ⟨_, _, _, _, _, _, curveType⟩ := poolState
  cases curveType <;> rfl

theorem makeSwapCurve_setDepeg (poolState : PoolState) (depeg : Depeg) :
    makeSwapCurve inTokenMint params swapInitiator (poolState.setDepeg depeg) =
      makeSwapCurve inTokenMint params swapInitiator poolState := by
  obtain ⟨_, _, _, _, _, _, curveType⟩ := poolState
  cases curveType <;> rfl

theorem settleSource_setDepeg (poolState : PoolState) (depeg : Depeg) :
    settleSource sdk inTokenMint inAmount params (poolState.setDepeg depeg) =
      settleSource sdk inTokenMint inAmount params poolState := by
  obtain ⟨_, _, _, _, _, _, curveType⟩ := poolState
  cases curveType <;> rfl

theorem payDestination_setDepeg (poolState : PoolState) (depeg : Depeg) (source : Source)
    (out : OutResult) :
    payDestination sdk inTokenMint params (poolState.setDepeg depeg) source out =
      payDestination sdk inTokenMint params poolState source out := by
  obtain ⟨_, _, _, _, _, _, curveType⟩ := poolState
  cases curveType <;> rfl

theorem tradeDirectionOf_setDepeg (poolState : PoolState) (depeg : Depeg) :
    tradeDirectionOf inTokenMint (poolState.setDepeg depeg) = tradeDirectionOf inTokenMint poolState := by
  obtain ⟨_, _, _, _, _, _, curveType⟩ := poolState
  cases curveType <;> rfl

theorem depeg_setDepeg_of_stable {poolState : PoolState} {curve : StableSwap}
    (h : makeSwapCurve inTokenMint params swapInitiator poolState = .ok (.stable curve)) (depeg : Depeg) :
    (poolState.setDepeg depeg).depeg = depeg := by
  cases hcurve : poolState.curveType with
  | stable => simp only [PoolState.setDepeg, PoolState.depeg, hcurve]
  | constantProduct => cases ((makeSwapCurve_constantProduct hcurve).mp h).2.2.2

end Quote

/-! ### Runs of quotes -/

/-- The arguments of one quote besides the pool state. -/
structure QuoteCall where
  inTokenMint : Program.Pubkey
  inAmount : Int
  params : SwapQuoteParam
  swapInitiator : Option Program.Pubkey

def QuoteCall.call (sdk : VaultSdk) (decoders : StakeDecoders) (quote : QuoteCall) :
    Call PoolState SwapResult :=
  calculateSwapQuote sdk decoders quote.inTokenMint quote.inAmount quote.params quote.swapInitiator

/-- The record before the call gives the price that the untouched record gives at the call's time and
from its stake accounts, if the pool has a depeg and the call gets as far as its curve. -/
def QuoteCall.SamePrice (sdk : VaultSdk) (decoders : StakeDecoders) (untouched : PoolState)
    (quote : QuoteCall) (poolState : PoolState) : Prop :=
  untouched.depeg.depegType = .none ∨
    ∀ curve, ReachesCurve sdk quote.inTokenMint quote.inAmount quote.params quote.swapInitiator
        untouched curve →
      curve.priceInForce decoders poolState.depeg = curve.priceInForce decoders untouched.depeg

/-- The pool state as earlier quotes may have left it: only the price and the age of its cache differ,
and not even these without a depeg. -/
def OnlyRefreshed (untouched poolState : PoolState) : Prop :=
  ∃ depeg, poolState = untouched.setDepeg depeg ∧ depeg.depegType = untouched.depeg.depegType ∧
    (depeg.depegType = .none → depeg = untouched.depeg)

variable {sdk : VaultSdk} {decoders : StakeDecoders} {untouched poolState : PoolState}

theorem QuoteCall.call_onlyRefreshed (quote : QuoteCall) (h : OnlyRefreshed untouched poolState) :
    OnlyRefreshed untouched (quote.call sdk decoders poolState).2 := by
  obtain ⟨depeg, rfl, htype, hnone⟩ := h
  simp only [call, calculateSwapQuote_apply, makeSwapCurve_setDepeg, settleSource_setDepeg]
  rcases hmake : makeSwapCurve quote.inTokenMint quote.params quote.swapInitiator untouched with e | swapCurve
  · exact ⟨depeg, rfl, htype, hnone⟩
  rcases settleSource sdk quote.inTokenMint quote.inAmount quote.params untouched with e | source
  · exact ⟨depeg, rfl, htype, hnone⟩
  cases swapCurve with
  | constantProduct => exact ⟨depeg, rfl, htype, hnone⟩
  | stable curve =>
      simp only [SwapCurve.computeOutAmount, Call.focus_apply, PoolState.setDepeg_setDepeg,
        depeg_setDepeg_of_stable _ _ _ hmake]
      refine ⟨_, rfl, ?_, ?_⟩
      · rw [StableSwap.computeOutAmount_depegType, htype]
      · intro htype'
        rw [StableSwap.computeOutAmount_depegType] at htype'
        rw [StableSwap.computeOutAmount_none decoders curve htype', hnone htype']

theorem QuoteCall.call_eq_untouched (quote : QuoteCall) (h : OnlyRefreshed untouched poolState)
    (hprice : quote.SamePrice sdk decoders untouched poolState) :
    (quote.call sdk decoders poolState).1 = (quote.call sdk decoders untouched).1 := by
  obtain ⟨depeg, rfl, htype, hnone⟩ := h
  by_cases hsame : depeg.depegType = .none
  · rw [hnone hsame, PoolState.setDepeg_depeg]
  · simp only [call, calculateSwapQuote_apply, makeSwapCurve_setDepeg, settleSource_setDepeg,
      tradeDirectionOf_setDepeg]
    rcases hmake : makeSwapCurve quote.inTokenMint quote.params quote.swapInitiator untouched with e | swapCurve
    · rfl
    rcases hsource : settleSource sdk quote.inTokenMint quote.inAmount quote.params untouched with e | source
    · rfl
    cases swapCurve with
    | constantProduct =>
        simp only [SwapCurve.computeOutAmount, Call.lift_apply]
        congr 1
        funext out
        exact payDestination_setDepeg sdk quote.inTokenMint quote.params untouched depeg source out
    | stable curve =>
        have hforce : curve.priceInForce decoders depeg = curve.priceInForce decoders untouched.depeg := by
          rcases hprice with hnodepeg | hprice
          · exact absurd (htype.trans hnodepeg) hsame
          · have := hprice curve ⟨hmake, source, hsource⟩
            rwa [depeg_setDepeg_of_stable _ _ _ hmake] at this
        simp only [SwapCurve.computeOutAmount, Call.focus_apply, depeg_setDepeg_of_stable _ _ _ hmake]
        rw [StableSwap.computeOutAmount_fst decoders curve hsame,
          StableSwap.computeOutAmount_fst decoders curve (htype ▸ hsame), hforce, htype]
        congr 1
        funext out
        exact payDestination_setDepeg sdk quote.inTokenMint quote.params untouched depeg source out

/-- In a run of quotes on one pool state in which the record before each quote gives the price of the
untouched record, every quote returns what it returns on the untouched pool state. -/
theorem quotes_independent {quotes : List QuoteCall}
    (h : Call.Along (QuoteCall.call sdk decoders) (QuoteCall.SamePrice sdk decoders untouched) quotes
      untouched) :
    (Call.run (QuoteCall.call sdk decoders) quotes untouched).1 =
      quotes.map fun quote => (quote.call sdk decoders untouched).1 := by
  have hstart : OnlyRefreshed untouched untouched :=
    ⟨untouched.depeg, (PoolState.setDepeg_depeg untouched).symm, rfl, fun _ => rfl⟩
  refine (Call.run_eq_map ?_ hstart h).1
  intro quote poolState hpool hprice
  exact ⟨quote.call_eq_untouched hpool hprice, quote.call_onlyRefreshed hpool⟩

def lidoData (stSolSupply stSolBalance : UInt8) : DepegAccounts := fun key =>
  if key = lidoAccount then
    some (List.replicate 73 0 ++ stSolSupply :: List.replicate 7 0 ++ stSolBalance :: List.replicate 7 0)
  else none

def lidoPool : PoolState :=
  samplePoolState ⟨250, 100000, 20000, 100000⟩ (.stable 100 ⟨1, 1⟩ ⟨1000000, 0, .lido⟩)

def lidoQuote (currentTime : SafeInteger) (stSolBalance : UInt8) : QuoteCall where
  inTokenMint := sampleMintA
  inAmount := 10000
  params := sampleParams 1000000 1000000 currentTime (lidoData 100 stSolBalance)
  swapInitiator := none

/-- Eleven minutes apart, each quote reads its own stake account. -/
theorem quotes_independent_sample :
    (Call.run (QuoteCall.call sampleSdk sampleDecoders)
        [lidoQuote ⟨1000, by decide⟩ 110, lidoQuote ⟨1660, by decide⟩ 120] lidoPool).1 =
      [lidoQuote ⟨1000, by decide⟩ 110, lidoQuote ⟨1660, by decide⟩ 120].map fun quote =>
        (quote.call sampleSdk sampleDecoders lidoPool).1 := by
  refine quotes_independent ⟨Or.inr fun _ _ => rfl, Or.inr ?_, trivial⟩
  intro curve hreaches
  obtain ⟨-, -, -, hcurve⟩ := (makeSwapCurve_stable rfl).mp hreaches.1
  rw [SwapCurve.stable.injEq] at hcurve
  subst hcurve
  decide +kernel

/-- Less than ten minutes apart, the second quote gets the first one's price. -/
theorem quotes_share_price :
    (Call.run (QuoteCall.call sampleSdk sampleDecoders)
        [lidoQuote ⟨1000, by decide⟩ 110, lidoQuote ⟨1200, by decide⟩ 120] lidoPool).1.map
          (fun result => result.toOption.map SwapResult.amountOut) = [some 9054, some 9054] ∧
      [lidoQuote ⟨1000, by decide⟩ 110, lidoQuote ⟨1200, by decide⟩ 120].map (fun quote =>
        (quote.call sampleSdk sampleDecoders lidoPool).1.toOption.map SwapResult.amountOut) =
          [some 9054, some 8307] ∧
      (Call.run (QuoteCall.call sampleSdk sampleDecoders)
        [lidoQuote ⟨1000, by decide⟩ 110, lidoQuote ⟨1200, by decide⟩ 120] lidoPool).1 ≠
      [lidoQuote ⟨1000, by decide⟩ 110, lidoQuote ⟨1200, by decide⟩ 120].map fun quote =>
        (quote.call sampleSdk sampleDecoders lidoPool).1 := by
  refine ⟨?_, ?_, ?_⟩
  · decide +kernel
  · decide +kernel
  · decide +kernel

end DynamicAmm.Client

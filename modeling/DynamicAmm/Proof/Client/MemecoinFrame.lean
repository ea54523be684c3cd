import DynamicAmm.Proof.Client.ClosedForm
import DynamicAmm.Proof.Client.MemecoinVault

/-!
# What the quote of a future pool does to its arguments

The local states of the quote wrap the caller's vault objects, and the deposits of the pool's creation are
written to them. So the caller's objects stay as they are only when nothing is deposited: there is no
vault to deposit into, the deposit throws before its first write, or every amount deposited is zero.
-/

namespace DynamicAmm.Client

open Js

variable {sdk : VaultSdk} {time : SafeInteger} {session : Session} {side : Side}

/-! ### Deposits of nothing -/

theorem LocalStates.moved_zero (states : LocalStates) : states.moved 0 0 = states := by
  simp [LocalStates.moved]

theorem LocalStates.lpFor_zero (hsdk : sdk.Lawful) {states : LocalStates} {lp : Int}
    (h : states.lpFor sdk time 0 = .ok lp) : lp = 0 := by
  rw [LocalStates.lpFor, bind_eq_ok] at h
  obtain ⟨withdrawable, -, hlp⟩ := h
  by_cases hzero : withdrawable = 0
  · subst hzero
    obtain ⟨message, hthrows⟩ := hsdk.unmintAmount_zero 0 states.vaultStates.lpSupply
    rw [hthrows] at hlp
    cases hlp
  · rw [hsdk.unmintAmount _ _ _ hzero, zero_mul, Int.zero_tdiv, Except.ok.injEq] at hlp
    exact hlp.symm

/-- LP that is not held is worth nothing. -/
theorem LocalStates.tokenAmount_zero (hsdk : sdk.Lawful) {states : LocalStates} {amount : Int}
    (hlp : states.poolVaultLp = 0) (h : states.tokenAmount sdk time = .ok amount) : amount = 0 := by
  rw [LocalStates.tokenAmount, bind_eq_ok, hlp] at h
  obtain ⟨withdrawable, -, hamount⟩ := h
  by_cases hzero : states.vaultStates.lpSupply = 0
  · rw [hzero] at hamount
    exact hsdk.amountByShare_zero _ _ _ hamount
  · rw [hsdk.amountByShare _ _ _ hzero, zero_mul, Int.zero_tdiv, Except.ok.injEq] at hamount
    exact hamount.symm

/-- A deposit of nothing writes what was there. -/
theorem depositVault_zero (hsdk : sdk.Lawful) :
    (getTokenAmountAfterDepositVault sdk time 0 side session).2 = session := by
  cases h : session.get side with
  | none => rw [depositVault_none h]
  | some states =>
      rw [depositVault_some h]
      cases hlp : states.lpFor sdk time 0 with
      | error => rfl
      | ok lp =>
          obtain rfl := LocalStates.lpFor_zero hsdk hlp
          simp only [LocalStates.moved_zero]
          exact Session.set_get h

/-- Its value is what no LP is worth. -/
theorem depositVault_zero_amount (hsdk : sdk.Lawful) {states : LocalStates} {amount : Int}
    (h : session.get side = some states) (hheld : states.poolVaultLp = 0)
    (hamount : (getTokenAmountAfterDepositVault sdk time 0 side session).1 = .ok amount) : amount = 0 := by
  rw [depositVault_some h] at hamount
  cases hlp : states.lpFor sdk time 0 with
  | error => rw [hlp] at hamount; cases hamount
  | ok lp =>
      obtain rfl := LocalStates.lpFor_zero hsdk hlp
      rw [hlp] at hamount
      simp only [LocalStates.moved_zero] at hamount
      exact LocalStates.tokenAmount_zero hsdk hheld hamount

/-! ### The swap -/

/-- An empty side cannot be swapped against. -/
theorem computeOutAmount_empty (source swapSource : Int) :
    ∃ message, ConstantProductSwap.computeOutAmount source swapSource 0 = .error message := by
  simp only [ConstantProductSwap.computeOutAmount, mul_zero, ceilDiv, BN.div]
  by_cases h : swapSource + source = 0
  · exact ⟨assertionFailed, by rw [if_pos h]; rfl⟩
  · refine ⟨"ceilDiv result in zero", ?_⟩
    rw [if_neg h]
    simp only [Int.zero_tdiv]
    rfl

variable {sourceAmount swapSourceAmount swapDestinationAmount : Int} {sourceVault destinationVault : Side}
  {fees : PoolFees}

/-- The swap moves nothing when its deposit is one of nothing and its withdrawal is not reached or meets
no vault. -/
theorem swapSession_snd_eq (hsdk : sdk.Lawful)
    (hdeposit : session.get sourceVault = none ∨ fees.tradeFeeDenominator = 0 ∨
      fees.protocolTradeFeeDenominator = 0 ∨ sourceAmount - fees.protocolFee sourceAmount = 0)
    (hwithdraw : session.get destinationVault = none ∨ swapDestinationAmount = 0) :
    (swapSession sdk time sourceAmount swapSourceAmount swapDestinationAmount sourceVault
      destinationVault fees session).2 = session := by
  rw [swapSession]
  refine Call.bind_snd_eq rfl ?_
  intro tradeFee htrade
  refine Call.bind_snd_eq rfl ?_
  intro protocolFee hprotocol
  rw [Call.lift_apply, BN.div_eq_ok] at htrade hprotocol
  refine Call.bind_snd_eq ?_ ?_
  · rcases hdeposit with hnone | hzero | hzero | hzero
    · rw [depositVault_none hnone]
    · exact absurd hzero htrade.1
    · exact absurd hzero hprotocol.1
    · rw [PoolFees.protocolFee, PoolFees.tradeFee, htrade.2, hprotocol.2] at hzero
      rw [hzero]
      exact depositVault_zero hsdk
  intro after _
  refine Call.bind_snd_eq rfl ?_
  intro out hout
  refine Call.bind_snd_eq ?_ ?_
  · rcases hwithdraw with hnone | hzero
    · rw [withdrawVault_none hnone]
    · obtain ⟨message, hthrows⟩ :=
        computeOutAmount_empty (after - swapSourceAmount - (tradeFee - protocolFee)) swapSourceAmount
      rw [hzero, Call.lift_apply, hthrows] at hout
      cases hout
  intro _ _
  rfl

/-! ### The quote -/

/-- The arguments of one quote besides the shared parameters. -/
structure MemecoinCall where
  inAmount : Int
  tokenADepositAmount : Int
  tokenBDepositAmount : Int
  aToB : Bool
  fees : PoolFees
  deriving DecidableEq, Repr

def MemecoinCall.call (sdk : VaultSdk) (quote : MemecoinCall) :
    Call SwapQuoteParams2 MemecoinQuoteResult :=
  calculateSwapQuoteForGoingToCreateMemecoinPool sdk quote.inAmount quote.tokenADepositAmount
    quote.tokenBDepositAmount quote.aToB quote.fees

def MemecoinCall.depositAmount (quote : MemecoinCall) : Side → Int
  | .a => quote.tokenADepositAmount
  | .b => quote.tokenBDepositAmount

def MemecoinCall.sourceSide (quote : MemecoinCall) : Side := if quote.aToB then .a else .b

/-- The quote moves nothing in or out of the vault on a side: the deposit of the pool's creation throws
before its first write, or it is one of nothing and, where the vault is on the source side, so is the
deposit of the swap. -/
def MemecoinCall.MovesNothingOn (sdk : VaultSdk) (time : SafeInteger) (quote : MemecoinCall) (side : Side)
    (states : LocalStates) : Prop :=
  (∃ e, states.lpFor sdk time (quote.depositAmount side) = .error e) ∨
    quote.depositAmount side = 0 ∧
      (quote.sourceSide ≠ side ∨ quote.fees.tradeFeeDenominator = 0 ∨
        quote.fees.protocolTradeFeeDenominator = 0 ∨
        quote.inAmount - quote.fees.protocolFee quote.inAmount = 0)

/-- The same of the caller's parameters. Without exactly one vault the quote throws at once. -/
def MemecoinCall.MovesNothing (sdk : VaultSdk) (quote : MemecoinCall) (params : SwapQuoteParams2) : Prop :=
  match params.vaultA, params.vaultB with
  | some vaultStates, none => quote.MovesNothingOn sdk params.currentTime .a ⟨vaultStates, 0⟩
  | none, some vaultStates => quote.MovesNothingOn sdk params.currentTime .b ⟨vaultStates, 0⟩
  | _, _ => True

/-- A deposit of the pool's creation leaves the states alone, and if it returns, the vault's side of the
pool is empty. -/
theorem MemecoinCall.deposit_snd_eq (hsdk : sdk.Lawful) (quote : MemecoinCall) {states : LocalStates}
    (hget : session.get side = some states) (hheld : states.poolVaultLp = 0)
    (h : quote.MovesNothingOn sdk time side states) :
    (getTokenAmountAfterDepositVault sdk time (quote.depositAmount side) side session).2 = session ∧
      ∀ amount, (getTokenAmountAfterDepositVault sdk time (quote.depositAmount side) side session).1 =
        .ok amount → amount = 0 ∧ (quote.sourceSide ≠ side ∨ quote.fees.tradeFeeDenominator = 0 ∨
          quote.fees.protocolTradeFeeDenominator = 0 ∨
          quote.inAmount - quote.fees.protocolFee quote.inAmount = 0) := by
  rcases h with ⟨e, hthrows⟩ | ⟨hzero, hswap⟩
  · rw [depositVault_some hget, hthrows]
    refine ⟨rfl, ?_⟩
    intro amount hamount
    cases hamount
  · rw [hzero]
    exact ⟨depositVault_zero hsdk, fun amount hamount =>
      ⟨depositVault_zero_amount hsdk hget hheld hamount, hswap⟩⟩

theorem MemecoinCall.quoteSession_snd_eq (hsdk : sdk.Lawful) (quote : MemecoinCall)
    {states : LocalStates} (hget : session.get side = some states) (hheld : states.poolVaultLp = 0)
    (hother : ∀ other, other ≠ side → session.get other = none)
    (h : quote.MovesNothingOn sdk time side states) :
    (quoteSession sdk time quote.inAmount quote.tokenADepositAmount quote.tokenBDepositAmount quote.aToB
      quote.fees session).2 = session := by
  obtain ⟨hsame, hempty⟩ := quote.deposit_snd_eq hsdk hget hheld h
  rw [quoteSession]
  cases side with
  | a =>
      have hb := hother .b (by decide)
      refine Call.bind_snd_eq hsame ?_
      intro tokenA htokenA
      obtain ⟨rfl, hswap⟩ := hempty tokenA htokenA
      refine Call.bind_snd_eq (by rw [depositVault_none hb]) ?_
      intro tokenB _
      split
      · rename_i haToB
        apply swapSession_snd_eq hsdk (Or.inr ?_) (Or.inl hb)
        simpa [sourceSide, haToB] using hswap
      · exact swapSession_snd_eq hsdk (Or.inl hb) (Or.inr rfl)
  | b =>
      have ha := hother .a (by decide)
      refine Call.bind_snd_eq (by rw [depositVault_none ha]) ?_
      intro tokenA _
      refine Call.bind_snd_eq hsame ?_
      intro tokenB htokenB
      obtain ⟨rfl, hswap⟩ := hempty tokenB htokenB
      split
      · exact swapSession_snd_eq hsdk (Or.inl ha) (Or.inr rfl)
      · rename_i haToB
        apply swapSession_snd_eq hsdk (Or.inr ?_) (Or.inl ha)
        simpa [sourceSide, haToB] using hswap

theorem SwapQuoteParams2.after_session (params : SwapQuoteParams2) : params.after params.session = params := by
  obtain ⟨vaultA, vaultB, time⟩ := params
  cases vaultA <;> cases vaultB <;> rfl

/-- A quote that moves nothing leaves the caller's parameters as they were. -/
theorem MemecoinCall.call_snd_eq (hsdk : sdk.Lawful) (quote : MemecoinCall) {params : SwapQuoteParams2}
    (h : quote.MovesNothing sdk params) : (quote.call sdk params).2 = params := by
  rw [call, calculateSwapQuoteForGoingToCreateMemecoinPool]
  refine Call.bind_snd_eq rfl ?_
  intro params' hparams
  obtain rfl : params = params' := Except.ok.inj hparams
  refine Call.bind_snd_eq rfl ?_
  intro _ hsome
  refine Call.bind_snd_eq rfl ?_
  intro _ hone
  rw [Call.lift_apply, invariant_eq_ok] at hsome hone
  suffices hsession : (quoteSession sdk params.currentTime quote.inAmount quote.tokenADepositAmount
      quote.tokenBDepositAmount quote.aToB quote.fees params.session).2 = params.session by
    rw [Call.focus_apply, hsession]
    exact params.after_session
  obtain ⟨vaultA, vaultB, currentTime⟩ := params
  cases vaultA with
  | none =>
      cases vaultB with
      | none => simp at hsome
      | some vaultStates =>
          have hget : Session.get (SwapQuoteParams2.session ⟨none, some vaultStates, currentTime⟩) .b =
            some ⟨vaultStates, 0⟩ := rfl
          refine quote.quoteSession_snd_eq hsdk hget rfl ?_ h
          intro other hne
          cases other with
          | a => rfl
          | b => exact absurd rfl hne
  | some vaultStates =>
      cases vaultB with
      | some => simp at hone
      | none =>
          have hget : Session.get (SwapQuoteParams2.session ⟨some vaultStates, none, currentTime⟩) .a =
            some ⟨vaultStates, 0⟩ := rfl
          refine quote.quoteSession_snd_eq hsdk hget rfl ?_ h
          intro other hne
          cases other with
          | a => exact absurd rfl hne
          | b => rfl

/-- In a run of quotes on one set of parameters that move nothing, the parameters stay as they were, and
every quote returns what it returns as the first one. -/
theorem memecoinQuotes_independent (hsdk : sdk.Lawful) {quotes : List MemecoinCall}
    {params : SwapQuoteParams2}
    (h : Call.Along (MemecoinCall.call sdk) (MemecoinCall.MovesNothing sdk) quotes params) :
    (Call.run (MemecoinCall.call sdk) quotes params).1 =
        quotes.map (fun quote => (quote.call sdk params).1) ∧
      (Call.run (MemecoinCall.call sdk) quotes params).2 = params := by
  have hstep : ∀ (quote : MemecoinCall) state, state = params → quote.MovesNothing sdk state →
      (quote.call sdk state).1 = (quote.call sdk params).1 ∧ (quote.call sdk state).2 = params := by
    intro quote state hstate hmoves
    subst hstate
    exact ⟨rfl, quote.call_snd_eq hsdk hmoves⟩
  exact Call.run_eq_map hstep rfl h

def sampleMemecoinParams : SwapQuoteParams2 where
  vaultA := none
  vaultB := some { vault := sampleVault 1001, reserve := 1001, lpSupply := 7 }
  currentTime := sampleTime

def sampleMemecoinCall (aToB : Bool) (tokenBDepositAmount : Int) : MemecoinCall where
  inAmount := 50000
  tokenADepositAmount := 1000000000
  tokenBDepositAmount := tokenBDepositAmount
  aToB := aToB
  fees := ⟨250, 100000, 20000, 100000⟩

theorem memecoinQuotes_independent_sample :
    (Call.run (MemecoinCall.call sampleSdk) [sampleMemecoinCall true 0, sampleMemecoinCall true 0]
        sampleMemecoinParams).1 =
        [sampleMemecoinCall true 0, sampleMemecoinCall true 0].map
          (fun quote => (quote.call sampleSdk sampleMemecoinParams).1) ∧
      (Call.run (MemecoinCall.call sampleSdk) [sampleMemecoinCall true 0, sampleMemecoinCall true 0]
        sampleMemecoinParams).2 = sampleMemecoinParams := by
  have hmoves : (sampleMemecoinCall true 0).MovesNothing sampleSdk sampleMemecoinParams :=
    Or.inr ⟨rfl, Or.inl (by decide)⟩
  refine memecoinQuotes_independent sampleSdk_lawful ⟨hmoves, ?_, trivial⟩
  rw [(sampleMemecoinCall true 0).call_snd_eq sampleSdk_lawful hmoves]
  exact hmoves

/-- The quote of a pool with a real deposit writes to the vault, and the same quote again returns another
amount. -/
theorem memecoinQuote_writes :
    ((sampleMemecoinCall false 50000).call sampleSdk sampleMemecoinParams).2 ≠ sampleMemecoinParams ∧
      (Call.run (MemecoinCall.call sampleSdk)
        [sampleMemecoinCall false 50000, sampleMemecoinCall false 50000] sampleMemecoinParams).1 =
        [.ok ⟨499374192, 49975⟩, .ok ⟨499584172, 49975⟩] := by
  constructor
  · decide +kernel
  · decide +kernel

end DynamicAmm.Client

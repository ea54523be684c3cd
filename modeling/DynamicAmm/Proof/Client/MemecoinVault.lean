import DynamicAmm.Client.MemecoinQuote
import DynamicAmm.Proof.Client.Quote

/-!
# The vault helpers of the memecoin quote

Each helper takes the LP for an amount from the vault as it is, writes the moved amount and LP, and then
values the pool's LP on what it wrote. A throw before the write leaves the states alone. A withdrawal is a
deposit of the negated amount and LP, as far as what is written goes.
-/

namespace DynamicAmm.Client

open Js

/-- The LP that is minted or burned for an amount. -/
def LocalStates.lpFor (sdk : VaultSdk) (time : SafeInteger) (states : LocalStates) (amount : Int) :
    Throwing Int := do
  let withdrawable ← sdk.calculateWithdrawableAmount time states.vaultStates.vault
  sdk.getUnmintAmount amount withdrawable states.vaultStates.lpSupply

def LocalStates.tokenAmount (sdk : VaultSdk) (time : SafeInteger) (states : LocalStates) :
    Throwing Int := do
  let withdrawable ← sdk.calculateWithdrawableAmount time states.vaultStates.vault
  sdk.getAmountByShare states.poolVaultLp withdrawable states.vaultStates.lpSupply

/-- The states with an amount and its LP moved in. -/
def LocalStates.moved (states : LocalStates) (amount lp : Int) : LocalStates where
  vaultStates := { states.vaultStates with
    vault := { states.vaultStates.vault with totalAmount := states.vaultStates.vault.totalAmount + amount }
    lpSupply := states.vaultStates.lpSupply + lp }
  poolVaultLp := states.poolVaultLp + lp

variable {sdk : VaultSdk} {time : SafeInteger} {session : Session} {side : Side} {amount : Int}

theorem depositVault_none (h : session.get side = none) :
    getTokenAmountAfterDepositVault sdk time amount side session = (.ok amount, session) := by
  simp [getTokenAmountAfterDepositVault, h]

theorem withdrawVault_none (h : session.get side = none) :
    getTokenAmountAfterWithdrawVault sdk time amount side session = (.ok amount, session) := by
  simp [getTokenAmountAfterWithdrawVault, h]

theorem Session.set_get {states : LocalStates} (h : session.get side = some states) :
    session.set states side = session := by
  cases side <;> simp only [Session.get] at h <;> simp [Session.set, ← h]

theorem Session.get_set_of_ne {other : Side} (h : side ≠ other) (states : LocalStates) :
    (session.set states side).get other = session.get other := by
  cases side <;> cases other
  · exact absurd rfl h
  · rfl
  · rfl
  · exact absurd rfl h

theorem depositVault_some {states : LocalStates} (h : session.get side = some states) :
    getTokenAmountAfterDepositVault sdk time amount side session =
      match states.lpFor sdk time amount with
      | .ok lp =>
          ((states.moved amount lp).tokenAmount sdk time, session.set (states.moved amount lp) side)
      | .error e => (.error e, session) := by
  simp only [getTokenAmountAfterDepositVault, Call.bind_apply, Call.read_apply, Call.lift_apply, h,
    LocalStates.lpFor]
  rcases sdk.calculateWithdrawableAmount time states.vaultStates.vault with e | withdrawable
  · rfl
  simp only [Bind.bind, Except.bind]
  rcases sdk.getUnmintAmount amount withdrawable states.vaultStates.lpSupply with e | lp
  · rfl
  simp only [LocalStates.tokenAmount, LocalStates.moved, Call.write_apply]
  rcases sdk.calculateWithdrawableAmount time _ with e | withdrawable <;> rfl

theorem withdrawVault_some {states : LocalStates} (h : session.get side = some states) :
    getTokenAmountAfterWithdrawVault sdk time amount side session =
      match states.lpFor sdk time amount with
      | .ok lp =>
          ((states.moved (-amount) (-lp)).tokenAmount sdk time,
            session.set (states.moved (-amount) (-lp)) side)
      | .error e => (.error e, session) := by
  simp only [getTokenAmountAfterWithdrawVault, Call.bind_apply, Call.read_apply, Call.lift_apply, h,
    LocalStates.lpFor]
  rcases sdk.calculateWithdrawableAmount time states.vaultStates.vault with e | withdrawable
  · rfl
  simp only [Bind.bind, Except.bind]
  rcases sdk.getUnmintAmount amount withdrawable states.vaultStates.lpSupply with e | lp
  · rfl
  simp only [LocalStates.tokenAmount, LocalStates.moved, Call.write_apply, ← sub_eq_add_neg]
  rcases sdk.calculateWithdrawableAmount time _ with e | withdrawable <;> rfl

end DynamicAmm.Client

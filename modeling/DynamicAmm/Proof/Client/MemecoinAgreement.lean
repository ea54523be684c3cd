import DynamicAmm.Proof.Client.ConstantProduct
import DynamicAmm.Proof.Client.Conversions
import DynamicAmm.Proof.Client.MemecoinVault

/-!
# The quote of a future pool and the quote of the pool

Creating a pool deposits into the vault that exists and into a fresh one. When the existing vault is on
the side that is sold, the quote made beforehand goes through the same conversions as the quote on the
created pool. On the other side it does not: without a source vault it takes the pool's balance off the
bare in amount, and with a destination vault it returns what the pool has left instead of what is paid.
-/

namespace DynamicAmm.Client

open Js
open Program (Pubkey)

/-- What a pool is created from: one existing vault with shares, a deposit on each side, and what the
quote on the created pool reads besides. -/
structure Creation where
  vault : VaultState
  lpSupply : Int
  reserve : Int
  tokenADepositAmount : Int
  tokenBDepositAmount : Int
  currentTime : SafeInteger
  currentSlot : SafeInteger
  poolState : PoolState
  /-- The tracker of the vault that the creation makes. -/
  freshTracker : LockedProfitTracker
  vaultAReserve : Int
  vaultBReserve : Int
  depegAccounts : DepegAccounts
  reported : vault.lockedProfitTracker.lastReport ≤ currentTime.val
  withdrawable_pos : 0 < vault.withdrawable currentTime.val
  lpSupply_pos : 0 < lpSupply
  depositA_pos : 0 < tokenADepositAmount
  depositB_pos : 0 < tokenBDepositAmount
  constantProduct : poolState.curveType = .constantProduct
  mints_ne : poolState.tokenAMint ≠ poolState.tokenBMint
  fresh_reported : freshTracker.lastReport ≤ currentTime.val
  fresh_unlocked : freshTracker.lastUpdatedLockedProfit = 0

namespace Creation

variable (creation : Creation)

def depositAmount : Side → Int
  | .a => creation.tokenADepositAmount
  | .b => creation.tokenBDepositAmount

/-- The parameters of the quote before the creation, with the existing vault on a side. -/
def params (side : Side) : SwapQuoteParams2 :=
  let states : VaultAssociatedAccountStates :=
    { vault := creation.vault, reserve := creation.reserve, lpSupply := creation.lpSupply }
  match side with
  | .a => { vaultA := some states, vaultB := none, currentTime := creation.currentTime }
  | .b => { vaultA := none, vaultB := some states, currentTime := creation.currentTime }

/-- The LP that the deposit on its side is minted. -/
def minted (side : Side) : Int :=
  (creation.depositAmount side * creation.lpSupply).tdiv
    (creation.vault.withdrawable creation.currentTime.val)

/-- The vault on a side of the created pool: the existing one with the deposit, or a fresh one that holds
the deposit alone. -/
def vaultOf (side of : Side) : VaultState :=
  if of = side then
    { creation.vault with totalAmount := creation.vault.totalAmount + creation.depositAmount of }
  else
    { totalAmount := creation.depositAmount of, lockedProfitTracker := creation.freshTracker }

def lpSupplyOf (side of : Side) : Int :=
  if of = side then creation.lpSupply + creation.minted of else creation.depositAmount of

def poolLpOf (side of : Side) : Int :=
  if of = side then creation.minted of else creation.depositAmount of

/-- The parameters of the quote on the created pool. -/
def createdParams (side : Side) : SwapQuoteParam where
  vaultA := creation.vaultOf side .a
  vaultB := creation.vaultOf side .b
  poolVaultALp := creation.poolLpOf side .a
  poolVaultBLp := creation.poolLpOf side .b
  vaultALpSupply := creation.lpSupplyOf side .a
  vaultBLpSupply := creation.lpSupplyOf side .b
  vaultAReserve := creation.vaultAReserve
  vaultBReserve := creation.vaultBReserve
  currentTime := creation.currentTime
  currentSlot := creation.currentSlot
  depegAccounts := creation.depegAccounts

/-- The token that is sold in a direction. -/
def inTokenMint (aToB : Bool) : Pubkey :=
  if aToB then creation.poolState.tokenAMint else creation.poolState.tokenBMint

end Creation

def sourceSideOf (aToB : Bool) : Side := if aToB then .a else .b

/-- Whenever the quote on the created pool succeeds, the quote made beforehand returns the same amount. -/
def Agrees (sdk : VaultSdk) (decoders : StakeDecoders) (side : Side) (aToB : Bool) (creation : Creation)
    (inAmount : Int) : Prop :=
  ∀ result, (calculateSwapQuote sdk decoders (creation.inTokenMint aToB) inAmount
      (creation.createdParams side) none creation.poolState).1 = .ok result →
    ∃ quoted, (calculateSwapQuoteForGoingToCreateMemecoinPool sdk inAmount creation.tokenADepositAmount
        creation.tokenBDepositAmount aToB creation.poolState.fees (creation.params side)).1 = .ok quoted ∧
      quoted.amountOut = result.amountOut

variable {sdk : VaultSdk} {decoders : StakeDecoders} {inAmount : Int}

/-! ### The vaults of the creation -/

namespace Creation

variable (creation : Creation)

theorem depositAmount_pos (side : Side) : 0 < creation.depositAmount side := by
  cases side with
  | a => exact creation.depositA_pos
  | b => exact creation.depositB_pos

theorem minted_nonneg (side : Side) : 0 ≤ creation.minted side :=
  Int.tdiv_nonneg (mul_nonneg (creation.depositAmount_pos side).le creation.lpSupply_pos.le)
    creation.withdrawable_pos.le

/-- What backs the shares of the vault on a side. -/
def backing (side of : Side) : Int :=
  if of = side then creation.vault.withdrawable creation.currentTime.val + creation.depositAmount of
  else creation.depositAmount of

theorem vaultOf_reported (side of : Side) :
    (creation.vaultOf side of).lockedProfitTracker.lastReport ≤ creation.currentTime.val := by
  rw [vaultOf]
  split
  · exact creation.reported
  · exact creation.fresh_reported

theorem vaultOf_withdrawable (hsdk : sdk.Lawful) (side of : Side) :
    sdk.calculateWithdrawableAmount creation.currentTime (creation.vaultOf side of) =
      .ok (creation.backing side of) := by
  rw [vaultOf, backing]
  split
  · refine (hsdk.withdrawable _ _ ?_).trans ?_
    · exact creation.reported
    · simp only [VaultState.withdrawable, Except.ok.injEq]
      ring
  · have hlocked : creation.freshTracker.lockedProfit creation.currentTime.val = 0 := by
      simp [LockedProfitTracker.lockedProfit, creation.fresh_unlocked]
    rw [hsdk.withdrawable _ _ creation.fresh_reported, VaultState.withdrawable, hlocked, sub_zero]

end Creation

/-! ### The quote made beforehand -/

def Side.other : Side → Side
  | .a => .b
  | .b => .a

namespace Creation

variable (creation : Creation)

/-- The local states of the existing vault once the pool's creation has deposited. -/
def createdStates (side : Side) : LocalStates where
  vaultStates :=
    { vault := creation.vaultOf side side
      reserve := creation.reserve
      lpSupply := creation.lpSupplyOf side side }
  poolVaultLp := creation.poolLpOf side side

/-- What the pool has on each side, when its LP of the existing vault is worth an amount. -/
def amounts (side : Side) (worth : Int) (of : Side) : Int :=
  if of = side then worth else creation.depositAmount of

def sessionOf (side : Side) : Session :=
  match side with
  | .a => { vaultA := some (creation.createdStates .a), vaultB := none }
  | .b => { vaultA := none, vaultB := some (creation.createdStates .b) }

theorem sessionOf_get (side of : Side) :
    (creation.sessionOf side).get of = if of = side then some (creation.createdStates side) else none := by
  cases side <;> cases of <;> rfl

theorem depositVault_created (hsdk : sdk.Lawful) (side : Side) :
    getTokenAmountAfterDepositVault sdk creation.currentTime (creation.depositAmount side) side
        (creation.params side).session =
      ((creation.createdStates side).tokenAmount sdk creation.currentTime, creation.sessionOf side) := by
  have hget : (creation.params side).session.get side =
      some ⟨⟨creation.vault, creation.reserve, creation.lpSupply⟩, 0⟩ := by
    cases side <;> rfl
  have hlp : LocalStates.lpFor sdk creation.currentTime
      ⟨⟨creation.vault, creation.reserve, creation.lpSupply⟩, 0⟩ (creation.depositAmount side) =
        .ok (creation.minted side) := by
    rw [LocalStates.lpFor, bind_eq_ok]
    exact ⟨_, hsdk.withdrawable _ _ creation.reported,
      hsdk.unmintAmount _ _ _ creation.withdrawable_pos.ne'⟩
  have hmoved : LocalStates.moved ⟨⟨creation.vault, creation.reserve, creation.lpSupply⟩, 0⟩
      (creation.depositAmount side) (creation.minted side) = creation.createdStates side := by
    simp [LocalStates.moved, createdStates, vaultOf, lpSupplyOf, poolLpOf]
  rw [depositVault_some hget, hlp]
  simp only [hmoved]
  cases side <;> rfl

/-- The quote made beforehand is the swap on the pool that the two deposits make. -/
theorem quoteBefore_eq_ok (hsdk : sdk.Lawful) (side : Side) (aToB : Bool) {quoted : MemecoinQuoteResult} :
    (calculateSwapQuoteForGoingToCreateMemecoinPool sdk inAmount creation.tokenADepositAmount
        creation.tokenBDepositAmount aToB creation.poolState.fees (creation.params side)).1 = .ok quoted ↔
      ∃ worth, (creation.createdStates side).tokenAmount sdk creation.currentTime = .ok worth ∧
        (swapSession sdk creation.currentTime inAmount
          (creation.amounts side worth (sourceSideOf aToB))
          (creation.amounts side worth (sourceSideOf aToB).other)
          (sourceSideOf aToB) (sourceSideOf aToB).other creation.poolState.fees
          (creation.sessionOf side)).1 = .ok quoted := by
  have hdeposit := creation.depositVault_created hsdk side
  have hcall : (calculateSwapQuoteForGoingToCreateMemecoinPool sdk inAmount creation.tokenADepositAmount
      creation.tokenBDepositAmount aToB creation.poolState.fees (creation.params side)).1 =
      (quoteSession sdk creation.currentTime inAmount creation.tokenADepositAmount
        creation.tokenBDepositAmount aToB creation.poolState.fees (creation.params side).session).1 := by
    cases side <;> rfl
  rw [hcall]
  cases side with
  | a =>
      have hfresh : (creation.sessionOf .a).get .b = none := rfl
      simp only [quoteSession, Call.bind_apply]
      rw [show creation.tokenADepositAmount = creation.depositAmount .a from rfl, hdeposit]
      cases (creation.createdStates .a).tokenAmount sdk creation.currentTime with
      | error e => simp
      | ok worth =>
          simp only [depositVault_none hfresh, Except.ok.injEq, exists_eq_left']
          cases aToB <;> rfl
  | b =>
      have hfresh : (creation.params .b).session.get .a = none := rfl
      simp only [quoteSession, Call.bind_apply, depositVault_none hfresh]
      rw [show creation.tokenBDepositAmount = creation.depositAmount .b from rfl, hdeposit]
      cases (creation.createdStates .b).tokenAmount sdk creation.currentTime with
      | error e => simp
      | ok worth =>
          simp only [Except.ok.injEq, exists_eq_left']
          cases aToB <;> rfl

end Creation

/-! ### The quote on the created pool -/

def directionOf (aToB : Bool) : TradeDirection := if aToB then .aToB else .bToA

namespace Creation

variable (creation : Creation)

theorem tradeDirectionOf_inTokenMint (aToB : Bool) :
    tradeDirectionOf (creation.inTokenMint aToB) creation.poolState = directionOf aToB := by
  cases aToB <;> simp [tradeDirectionOf, inTokenMint, directionOf, creation.mints_ne.symm]

theorem createdQuote_eq_ok (hsdk : sdk.Lawful) (side : Side) (aToB : Bool) {result : SwapResult}
    (h : (calculateSwapQuote sdk decoders (creation.inTokenMint aToB) inAmount
      (creation.createdParams side) none creation.poolState).1 = .ok result) :
    ∃ amountOf : Side → Int,
      (∀ of, sdk.getAmountByShare (creation.poolLpOf side of) (creation.backing side of)
        (creation.lpSupplyOf side of) = .ok (amountOf of)) ∧
      ∃ tradeFee, calculateTradingFee inAmount creation.poolState = .ok tradeFee ∧
      ∃ protocolFee, calculateProtocolTradingFee tradeFee creation.poolState = .ok protocolFee ∧
      ∃ minted, sdk.getUnmintAmount (inAmount - protocolFee)
        (creation.backing side (sourceSideOf aToB)) (creation.lpSupplyOf side (sourceSideOf aToB)) =
        .ok minted ∧
      ∃ after, sdk.getAmountByShare (minted + creation.poolLpOf side (sourceSideOf aToB))
        (creation.backing side (sourceSideOf aToB) + (inAmount - protocolFee))
        (creation.lpSupplyOf side (sourceSideOf aToB) + minted) = .ok after ∧
      ∃ out, ConstantProductSwap.computeOutAmount
        (after - amountOf (sourceSideOf aToB) - (tradeFee - protocolFee))
        (amountOf (sourceSideOf aToB)) (amountOf (sourceSideOf aToB).other) = .ok out ∧
      ∃ burned, sdk.getUnmintAmount out.outAmount (creation.backing side (sourceSideOf aToB).other)
        (creation.lpSupplyOf side (sourceSideOf aToB).other) = .ok burned ∧
      sdk.getAmountByShare burned (creation.backing side (sourceSideOf aToB).other)
        (creation.lpSupplyOf side (sourceSideOf aToB).other) = .ok result.amountOut ∧
      result.amountOut < amountOf (sourceSideOf aToB).other := by
  rw [calculateSwapQuote_constantProduct_eq_ok creation.constantProduct] at h
  obtain ⟨-, source, hsource, out, hout, hpay⟩ := h
  rw [settleSource_eq_ok] at hsource
  rw [payDestination_eq_ok creation.mints_ne] at hpay
  let amountOf : Side → Int := fun of => match of with
    | .a => source.tokenAAmount
    | .b => source.tokenBAmount
  have hsides : source.sides (creation.createdParams side) (directionOf aToB) = {
      swapSourceVaultLpAmount := creation.poolLpOf side (sourceSideOf aToB)
      swapSourceAmount := amountOf (sourceSideOf aToB)
      swapDestinationAmount := amountOf (sourceSideOf aToB).other
      swapSourceVault := creation.vaultOf side (sourceSideOf aToB)
      swapDestinationVault := creation.vaultOf side (sourceSideOf aToB).other
      swapSourceVaultLpSupply := creation.lpSupplyOf side (sourceSideOf aToB)
      swapDestinationVaultLpSupply := creation.lpSupplyOf side (sourceSideOf aToB).other } := by
    cases aToB <;> rfl
  rw [creation.tradeDirectionOf_inTokenMint, hsides] at hsource hout hpay
  obtain ⟨backingA, hA, backingB, hB, hamountA, hamountB, tradeFee, htrade, protocolFee, hprotocol,
    -, backing, hbacking, minted, hminted, after, hafter, hleft⟩ := hsource
  obtain ⟨kept, hkept, burned, hburned, hamount, hlt, -⟩ := hpay
  rw [hleft] at hout
  have hvault := creation.vaultOf_withdrawable hsdk side
  obtain rfl : _ = backingA := Except.ok.inj ((hvault .a).symm.trans hA)
  obtain rfl : _ = backingB := Except.ok.inj ((hvault .b).symm.trans hB)
  obtain rfl : _ = backing := Except.ok.inj ((hvault _).symm.trans hbacking)
  obtain rfl : _ = kept := Except.ok.inj ((hvault _).symm.trans hkept)
  refine ⟨amountOf, ?_, tradeFee, htrade, protocolFee, hprotocol, minted, hminted, after, hafter, out,
    hout, burned, hburned, hamount, hlt⟩
  intro of
  cases of with
  | a => exact hamountA
  | b => exact hamountB

end Creation

/-! ### The existing vault on its side -/

namespace Creation

variable (creation : Creation)

theorem createdStates_tokenAmount (hsdk : sdk.Lawful) (side : Side) :
    (creation.createdStates side).tokenAmount sdk creation.currentTime =
      sdk.getAmountByShare (creation.poolLpOf side side) (creation.backing side side)
        (creation.lpSupplyOf side side) := by
  rw [LocalStates.tokenAmount]
  simp only [createdStates, creation.vaultOf_withdrawable hsdk]
  rfl

theorem createdStates_lpFor (hsdk : sdk.Lawful) (side : Side) (amount : Int) :
    (creation.createdStates side).lpFor sdk creation.currentTime amount =
      sdk.getUnmintAmount amount (creation.backing side side) (creation.lpSupplyOf side side) := by
  rw [LocalStates.lpFor]
  simp only [createdStates, creation.vaultOf_withdrawable hsdk]
  rfl

theorem createdStates_moved_tokenAmount (hsdk : sdk.Lawful) (side : Side) (amount lp : Int) :
    ((creation.createdStates side).moved amount lp).tokenAmount sdk creation.currentTime =
      sdk.getAmountByShare (creation.poolLpOf side side + lp) (creation.backing side side + amount)
        (creation.lpSupplyOf side side + lp) := by
  have hbacking : ((creation.createdStates side).moved amount lp).vaultStates.vault.withdrawable
      creation.currentTime.val = creation.backing side side + amount := by
    have hvault := (hsdk.withdrawable _ _ (creation.vaultOf_reported side side)).symm.trans
      (creation.vaultOf_withdrawable hsdk side side)
    rw [← Except.ok.inj hvault]
    simp only [createdStates, LocalStates.moved, VaultState.withdrawable]
    ring
  rw [LocalStates.tokenAmount, hsdk.withdrawable, hbacking]
  · rfl
  · exact creation.vaultOf_reported side side

theorem existing_bounds (side : Side) :
    0 ≤ creation.poolLpOf side side ∧ creation.poolLpOf side side ≤ creation.lpSupplyOf side side ∧
      0 < creation.lpSupplyOf side side ∧ 0 < creation.backing side side := by
  have hminted := creation.minted_nonneg side
  have hsupply := creation.lpSupply_pos
  have hwithdrawable := creation.withdrawable_pos
  have hdeposit := creation.depositAmount_pos side
  simp only [poolLpOf, lpSupplyOf, backing, if_true]
  omega

end Creation

/-! ### The swap with one vault -/

section Swap

variable {time : SafeInteger} {session : Session} {source destination : Side} {states : LocalStates}
  {x y tradeFee protocolFee : Int} {fees : PoolFees}

/-- With a vault on the source side alone, the amount out is the curve's. -/
theorem swapSession_of_sourceVault {minted after : Int} {out : OutResult}
    (hsource : session.get source = some states) (hdestination : session.get destination = none)
    (htrade : BN.div (inAmount * fees.tradeFeeNumerator) fees.tradeFeeDenominator = .ok tradeFee)
    (hprotocol : BN.div (tradeFee * fees.protocolTradeFeeNumerator) fees.protocolTradeFeeDenominator =
      .ok protocolFee)
    (hminted : states.lpFor sdk time (inAmount - protocolFee) = .ok minted)
    (hafter : (states.moved (inAmount - protocolFee) minted).tokenAmount sdk time = .ok after)
    (hout : ConstantProductSwap.computeOutAmount (after - x - (tradeFee - protocolFee)) x y = .ok out) :
    (swapSession sdk time inAmount x y source destination fees session).1 =
      .ok ⟨out.outAmount, inAmount - protocolFee⟩ := by
  have hstill : (session.set (states.moved (inAmount - protocolFee) minted) source).get destination =
      none := by
    have hne : source ≠ destination := by
      intro h
      rw [h, hdestination] at hsource
      cases hsource
    rw [Session.get_set_of_ne hne]
    exact hdestination
  simp only [swapSession, Call.bind_apply, Call.lift_apply, htrade, hprotocol,
    depositVault_some hsource, hminted, hafter, hout, withdrawVault_none hstill, Call.pure_apply]

/-- With a vault on the destination side alone, the bare in amount has the pool's balance taken off, and
the amount out is what the pool's LP is worth afterwards. -/
theorem swapSession_of_destinationVault {quoted : MemecoinQuoteResult}
    (hsource : session.get source = none) (hdestination : session.get destination = some states)
    (htrade : BN.div (inAmount * fees.tradeFeeNumerator) fees.tradeFeeDenominator = .ok tradeFee)
    (hprotocol : BN.div (tradeFee * fees.protocolTradeFeeNumerator) fees.protocolTradeFeeDenominator =
      .ok protocolFee)
    (h : (swapSession sdk time inAmount x y source destination fees session).1 = .ok quoted) :
    ∃ out, ConstantProductSwap.computeOutAmount
        (inAmount - protocolFee - x - (tradeFee - protocolFee)) x y = .ok out ∧
      ∃ burned, states.lpFor sdk time out.outAmount = .ok burned ∧
      (states.moved (-out.outAmount) (-burned)).tokenAmount sdk time = .ok quoted.amountOut := by
  simp only [swapSession, Call.bind_apply, Call.lift_apply, htrade, hprotocol,
    depositVault_none hsource] at h
  cases hout : ConstantProductSwap.computeOutAmount
      (inAmount - protocolFee - x - (tradeFee - protocolFee)) x y with
  | error e => rw [hout] at h; cases h
  | ok out =>
      simp only [hout, withdrawVault_some hdestination] at h
      cases hburned : states.lpFor sdk time out.outAmount with
      | error e => rw [hburned] at h; cases h
      | ok burned =>
          simp only [hburned] at h
          cases hleft : (states.moved (-out.outAmount) (-burned)).tokenAmount sdk time with
          | error e => rw [hleft] at h; cases h
          | ok left =>
              rw [hleft] at h
              obtain rfl := Except.ok.inj h
              exact ⟨out, rfl, burned, hburned, hleft⟩

end Swap

/-! ### A vault on the side that is sold -/

theorem Side.other_ne (side : Side) : side.other ≠ side := by
  cases side <;> decide

theorem agrees_of_source (hsdk : sdk.Lawful) (decoders : StakeDecoders) (creation : Creation) (aToB : Bool)
    (inAmount : Int) : Agrees sdk decoders (sourceSideOf aToB) aToB creation inAmount := by
  intro result h
  obtain ⟨amountOf, hamountOf, tradeFee, htrade, protocolFee, hprotocol, minted, hminted, after, hafter,
    out, hout, burned, hburned, hamount, -⟩ := creation.createdQuote_eq_ok hsdk _ _ h
  generalize hside : sourceSideOf aToB = side at *
  have hdeposit := creation.depositAmount_pos side.other
  -- The fresh vault takes and pays the bare amounts.
  have hother := hamountOf side.other
  simp only [Creation.poolLpOf, Creation.backing, Creation.lpSupplyOf, if_neg side.other_ne] at hother hburned hamount
  rw [hsdk.amountByShare _ _ _ hdeposit.ne', Int.mul_tdiv_cancel _ hdeposit.ne', Except.ok.injEq] at hother hamount
  rw [hsdk.unmintAmount _ _ _ hdeposit.ne', Int.mul_tdiv_cancel _ hdeposit.ne', Except.ok.injEq] at hburned
  refine ⟨⟨out.outAmount, inAmount - protocolFee⟩, ?_, by rw [← hamount, ← hburned]⟩
  rw [creation.quoteBefore_eq_ok hsdk side aToB, hside]
  refine ⟨amountOf side, ?_, ?_⟩
  · rw [creation.createdStates_tokenAmount hsdk]
    exact hamountOf side
  · rw [Creation.amounts, Creation.amounts, if_pos rfl, if_neg side.other_ne, hother]
    have hget : (creation.sessionOf side).get side = some (creation.createdStates side) := by
      rw [creation.sessionOf_get, if_pos rfl]
    have hfresh : (creation.sessionOf side).get side.other = none := by
      rw [creation.sessionOf_get, if_neg side.other_ne]
    have hlp : (creation.createdStates side).lpFor sdk creation.currentTime (inAmount - protocolFee) =
        .ok minted := by
      rw [creation.createdStates_lpFor hsdk]
      exact hminted
    have hworth : ((creation.createdStates side).moved (inAmount - protocolFee) minted).tokenAmount sdk
        creation.currentTime = .ok after := by
      rw [creation.createdStates_moved_tokenAmount hsdk, add_comm (creation.poolLpOf side side)]
      exact hafter
    exact swapSession_of_sourceVault hget hfresh htrade hprotocol hlp hworth hout

/-! ### A vault on the side that is bought -/

/-- A withdrawal of a negative amount is a deposit, and leaves the pool with no less than it had. -/
theorem le_worth_of_negative {backing lpSupply poolLp amount burned worth left : Int} (hbacking : 0 < backing)
    (hpool : 0 ≤ poolLp) (hle : poolLp ≤ lpSupply) (hsupply : 0 < lpSupply) (hamount : amount ≤ 0)
    (hburned : (amount * lpSupply).tdiv backing = burned)
    (hworth : (poolLp * backing).tdiv lpSupply = worth)
    (hleft : ((poolLp - burned) * (backing - amount)).tdiv (lpSupply - burned) = left) : worth ≤ left := by
  obtain ⟨v, rfl, rfl, rfl⟩ := exists_shareVault hbacking.le hpool hle
  obtain ⟨n, rfl⟩ := Int.exists_eq_neg_ofNat hamount
  rw [sharesFor_neg_tdiv] at hburned
  subst hburned hworth hleft
  have hdeposit := worth_tdiv (v.deposit n) (v.deposit n).held
  simp only [ShareVault.deposit, Nat.cast_add] at hdeposit
  rw [worth_tdiv, sub_neg_eq_add, sub_neg_eq_add, sub_neg_eq_add, hdeposit]
  exact_mod_cast v.value_le_value_deposit n

theorem differs_of_destination (hsdk : sdk.Lawful) {creation : Creation} {aToB : Bool}
    (hfees : creation.poolState.fees.Valid) (hin : 0 ≤ inAmount)
    (hle : inAmount ≤ creation.depositAmount (sourceSideOf aToB)) {result : SwapResult}
    (h : (calculateSwapQuote sdk decoders (creation.inTokenMint aToB) inAmount
      (creation.createdParams (sourceSideOf aToB).other) none creation.poolState).1 = .ok result) :
    ¬ Agrees sdk decoders (sourceSideOf aToB).other aToB creation inAmount := by
  intro hagrees
  obtain ⟨quoted, hquoted, heq⟩ := hagrees result h
  obtain ⟨amountOf, hamountOf, tradeFee, htrade, protocolFee, hprotocol, -, -, -, -, -, -, -, -, -, hlt⟩ :=
    creation.createdQuote_eq_ok hsdk _ _ h
  rw [creation.quoteBefore_eq_ok hsdk] at hquoted
  obtain ⟨worth, hworth, hswap⟩ := hquoted
  rw [creation.createdStates_tokenAmount hsdk, hamountOf, Except.ok.injEq] at hworth
  generalize sourceSideOf aToB = source at *
  have hdeposit := creation.depositAmount_pos source
  rw [Creation.amounts, Creation.amounts, if_pos rfl, if_neg source.other_ne.symm] at hswap
  have hfresh : (creation.sessionOf source.other).get source = none := by
    rw [creation.sessionOf_get, if_neg source.other_ne.symm]
  have hget : (creation.sessionOf source.other).get source.other =
      some (creation.createdStates source.other) := by
    rw [creation.sessionOf_get, if_pos rfl]
  obtain ⟨out, hout, burned, hburned, hleft⟩ :=
    swapSession_of_destinationVault hfresh hget htrade hprotocol hswap
  rw [creation.createdStates_lpFor hsdk] at hburned
  rw [creation.createdStates_moved_tokenAmount hsdk] at hleft
  obtain ⟨hpool, hle', hsupply, hbacking⟩ := creation.existing_bounds source.other
  obtain ⟨hfee, hfee_le⟩ := tradingFee_bounds hfees hin htrade
  -- What the pool has on the side that pays.
  have hheld := hamountOf source.other
  rw [hsdk.amountByShare _ _ _ hsupply.ne', Except.ok.injEq] at hheld
  have hworth_nonneg : 0 ≤ worth := by
    rw [← hworth, ← hheld]
    exact Int.tdiv_nonneg (mul_nonneg hpool hbacking.le) hsupply.le
  -- The in amount net of the fee is what the curve sees as the whole new balance.
  have hnew := computeOutAmount_new_ne hout
  have hpaid : out.outAmount < 0 :=
    computeOutAmount_neg hdeposit.le hworth_nonneg (by omega) (by omega) hout
  rw [hsdk.unmintAmount _ _ _ hbacking.ne', Except.ok.injEq] at hburned
  have hburned_nonpos : burned ≤ 0 := by
    have h := Int.tdiv_nonneg (mul_nonneg (neg_nonneg.mpr hpaid.le) hsupply.le) hbacking.le
    rw [neg_mul, Int.neg_tdiv, hburned] at h
    omega
  simp only [← sub_eq_add_neg] at hleft
  rw [hsdk.amountByShare _ _ _ (by omega), Except.ok.injEq] at hleft
  have hkept : worth ≤ quoted.amountOut := le_worth_of_negative hbacking hpool hle' hsupply hpaid.le
    hburned (hheld.trans hworth) hleft
  omega

/-! ### Both -/

def sampleCreation : Creation where
  vault := sampleVault 1000000
  lpSupply := 1000000
  reserve := 1000000
  tokenADepositAmount := 100000
  tokenBDepositAmount := 200000
  currentTime := sampleTime
  currentSlot := sampleSlot
  poolState := samplePoolState ⟨250, 100000, 20000, 100000⟩ .constantProduct
  freshTracker := { lastUpdatedLockedProfit := 0, lastReport := 0, lockedProfitDegradation := 0 }
  vaultAReserve := 1000000
  vaultBReserve := 1000000
  depegAccounts := fun _ => none
  reported := by decide
  withdrawable_pos := by decide
  lpSupply_pos := by decide
  depositA_pos := by decide
  depositB_pos := by decide
  constantProduct := rfl
  mints_ne := by decide
  fresh_reported := by decide
  fresh_unlocked := rfl

theorem sampleCreation_quoted (side : Side) (aToB : Bool) :
    ∃ result, (calculateSwapQuote sampleSdk sampleDecoders (sampleCreation.inTokenMint aToB) 10000
      (sampleCreation.createdParams side) none sampleCreation.poolState).1 = .ok result := by
  have hquotes : ∀ (side : Side) (aToB : Bool), (calculateSwapQuote sampleSdk sampleDecoders
      (sampleCreation.inTokenMint aToB) 10000 (sampleCreation.createdParams side) none
      sampleCreation.poolState).1.isOk = true := by
    intro side aToB
    cases side <;> cases aToB <;> decide +kernel
  cases h : (calculateSwapQuote sampleSdk sampleDecoders (sampleCreation.inTokenMint aToB) 10000
      (sampleCreation.createdParams side) none sampleCreation.poolState).1 with
  | ok result => exact ⟨result, rfl⟩
  | error e =>
      have hok := hquotes side aToB
      rw [h] at hok
      cases hok

theorem eq_other_of_ne {side source : Side} (h : side ≠ source) : side = source.other := by
  cases side <;> cases source <;> first | rfl | exact absurd rfl h

/-- Up to the deposit of the token sold, the side of the existing vault decides on every single quote. -/
theorem agrees_iff_of_le (hsdk : sdk.Lawful) {creation : Creation} {side : Side} {aToB : Bool}
    (hfees : creation.poolState.fees.Valid) (hin : 0 ≤ inAmount)
    (hle : inAmount ≤ creation.depositAmount (sourceSideOf aToB))
    (hquote : ∃ result, (calculateSwapQuote sdk decoders (creation.inTokenMint aToB) inAmount
      (creation.createdParams side) none creation.poolState).1 = .ok result) :
    Agrees sdk decoders side aToB creation inAmount ↔ side = sourceSideOf aToB := by
  obtain ⟨result, hquote⟩ := hquote
  constructor
  · intro hagrees
    by_contra hne
    obtain rfl := eq_other_of_ne hne
    exact differs_of_destination hsdk hfees hin hle hquote hagrees
  · intro hside
    subst hside
    exact agrees_of_source hsdk decoders creation aToB inAmount

/-- The quote made beforehand agrees with the one on the created pool, whatever the vault, the deposits,
the fees and the in amount are, exactly when the existing vault is on the side that is sold. On the other
side it fails for every in amount up to the deposit. -/
theorem quotes_agree_iff (side : Side) (aToB : Bool) :
    ((∀ sdk : VaultSdk, sdk.Lawful → ∀ decoders creation inAmount,
        Agrees sdk decoders side aToB creation inAmount) ↔ side = sourceSideOf aToB) ∧
      ∀ sdk : VaultSdk, sdk.Lawful → ∀ decoders (creation : Creation) inAmount,
        creation.poolState.fees.Valid → 0 ≤ inAmount →
        inAmount ≤ creation.depositAmount (sourceSideOf aToB) →
        (∃ result, (calculateSwapQuote sdk decoders (creation.inTokenMint aToB) inAmount
          (creation.createdParams side) none creation.poolState).1 = .ok result) →
        (Agrees sdk decoders side aToB creation inAmount ↔ side = sourceSideOf aToB) := by
  refine ⟨⟨?_, ?_⟩, fun sdk hsdk decoders creation inAmount => agrees_iff_of_le hsdk⟩
  · intro hagrees
    have hfees : sampleCreation.poolState.fees.Valid := by constructor <;> decide
    have hle : 10000 ≤ sampleCreation.depositAmount (sourceSideOf aToB) := by
      cases aToB <;> decide
    exact (agrees_iff_of_le sampleSdk_lawful hfees (by decide) hle (sampleCreation_quoted side aToB)).mp
      (hagrees sampleSdk sampleSdk_lawful sampleDecoders sampleCreation 10000)
  · intro hside sdk hsdk decoders creation inAmount
    subst hside
    exact agrees_of_source hsdk decoders creation aToB inAmount

/-- With the vault on the side that is bought, the quote made beforehand is a hundred times the quote on
the pool. -/
theorem quoteBefore_differs :
    ¬ Agrees sampleSdk sampleDecoders .b true sampleCreation 10000 ∧
      (calculateSwapQuote sampleSdk sampleDecoders (sampleCreation.inTokenMint true) 10000
        (sampleCreation.createdParams .b) none sampleCreation.poolState).1.map SwapResult.amountOut =
        .ok 18140 ∧
      (calculateSwapQuoteForGoingToCreateMemecoinPool sampleSdk 10000 sampleCreation.tokenADepositAmount
        sampleCreation.tokenBDepositAmount true sampleCreation.poolState.fees
        (sampleCreation.params .b)).1 = .ok ⟨2005013, 9995⟩ := by
  have hbefore : (calculateSwapQuoteForGoingToCreateMemecoinPool sampleSdk 10000
      sampleCreation.tokenADepositAmount sampleCreation.tokenBDepositAmount true
      sampleCreation.poolState.fees (sampleCreation.params .b)).1 = .ok ⟨2005013, 9995⟩ := by
    decide +kernel
  have hcreated : (calculateSwapQuote sampleSdk sampleDecoders (sampleCreation.inTokenMint true) 10000
      (sampleCreation.createdParams .b) none sampleCreation.poolState).1.map SwapResult.amountOut =
      .ok 18140 := by
    decide +kernel
  refine ⟨?_, hcreated, hbefore⟩
  intro hagrees
  obtain ⟨result, hresult⟩ := sampleCreation_quoted .b true
  obtain ⟨quoted, hquoted, heq⟩ := hagrees result hresult
  rw [hresult] at hcreated
  rw [hbefore] at hquoted
  obtain rfl := Except.ok.inj hquoted
  have hamount : result.amountOut = 18140 := Except.ok.inj hcreated
  rw [hamount] at heq
  exact absurd heq (by decide)

end DynamicAmm.Client

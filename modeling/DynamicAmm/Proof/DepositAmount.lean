import DynamicAmm.Rust.Checked

/-!
# The LP amount of a balanced deposit

The Rust client turns the two token amounts a depositor is ready to pay into the LP amount it asks the
program for. Every intermediate number is a `u128`, and every checked operation is unwrapped.

The amount is the smaller of two floored shares, less the slippage and floored again. It never asks for
more tokens than the depositor allowed. It is the number the program gets as long as it fits a word: from
`2 ^ 64` on the last cast drops its high bits, and further up the product before the cast panics.
-/

namespace DynamicAmm.RustClient

open Rust

/-- The event `PoolInfo`, as far as the token amounts. -/
structure PoolInfo where
  tokenAAmount : UInt64
  tokenBAmount : UInt64

/-- The part of `get_pool_token_amount` after the pool info has been fetched. -/
def getPoolTokenAmount (poolInfo : PoolInfo)
    (poolLpSupply maxTokenAAmount maxTokenBAmount slippageRate : UInt64) : Outcome UInt64 := do
  let product ← Outcome.unwrap (checkedMul128 maxTokenAAmount.toNat poolLpSupply.toNat)
  let poolTokenByA ← Outcome.unwrap (checkedDiv128 product poolInfo.tokenAAmount.toNat)
  let product ← Outcome.unwrap (checkedMul128 maxTokenBAmount.toNat poolLpSupply.toNat)
  let poolTokenByB ← Outcome.unwrap (checkedDiv128 product poolInfo.tokenBAmount.toNat)
  let kept ← Outcome.unwrap (checkedSub128 100 slippageRate.toNat)
  let product ← Outcome.unwrap (checkedMul128 (min poolTokenByA poolTokenByB) kept)
  let poolTokenAmount ← Outcome.unwrap (checkedDiv128 product 100)
  pure (UInt64.ofNat poolTokenAmount) -- `as u64`

variable (poolInfo : PoolInfo) (poolLpSupply maxTokenAAmount maxTokenBAmount slippageRate : UInt64)

/-- The LP that both allowed amounts pay for. -/
def affordableLp : Nat :=
  min (maxTokenAAmount.toNat * poolLpSupply.toNat / poolInfo.tokenAAmount.toNat)
    (maxTokenBAmount.toNat * poolLpSupply.toNat / poolInfo.tokenBAmount.toNat)

/-- The LP to request, as an unbounded number. -/
def requestedLp : Nat :=
  affordableLp poolInfo poolLpSupply maxTokenAAmount maxTokenBAmount * (100 - slippageRate.toNat) / 100

/-- The least LP that does not fit a word once the slippage is off. -/
def leastTooLarge : Nat := 100 * 2 ^ 64 ⌈/⌉ (100 - slippageRate.toNat)

/-- The request is the exact amount and costs no more than the depositor allowed, or an error says that
the amount does not fit. -/
def RequestsExactly : Prop :=
  (∃ r, getPoolTokenAmount poolInfo poolLpSupply maxTokenAAmount maxTokenBAmount slippageRate = .ok r ∧
    r.toNat = requestedLp poolInfo poolLpSupply maxTokenAAmount maxTokenBAmount slippageRate ∧
    r.toNat * poolInfo.tokenAAmount.toNat ≤ maxTokenAAmount.toNat * poolLpSupply.toNat ∧
    r.toNat * poolInfo.tokenBAmount.toNat ≤ maxTokenBAmount.toNat * poolLpSupply.toNat) ∨
  ∃ message, getPoolTokenAmount poolInfo poolLpSupply maxTokenAAmount maxTokenBAmount slippageRate =
      .err message ∧
    2 ^ 64 ≤ requestedLp poolInfo poolLpSupply maxTokenAAmount maxTokenBAmount slippageRate

variable {poolInfo poolLpSupply maxTokenAAmount maxTokenBAmount slippageRate}

theorem getPoolTokenAmount_eq (ha : poolInfo.tokenAAmount.toNat ≠ 0) (hb : poolInfo.tokenBAmount.toNat ≠ 0)
    (hslippage : slippageRate.toNat ≤ 100) :
    getPoolTokenAmount poolInfo poolLpSupply maxTokenAAmount maxTokenBAmount slippageRate =
      if affordableLp poolInfo poolLpSupply maxTokenAAmount maxTokenBAmount * (100 - slippageRate.toNat) <
          2 ^ 128 then
        .ok (UInt64.ofNat
          (requestedLp poolInfo poolLpSupply maxTokenAAmount maxTokenBAmount slippageRate))
      else .panic := by
  have hmulA := toNat_mul_lt maxTokenAAmount poolLpSupply
  have hmulB := toNat_mul_lt maxTokenBAmount poolLpSupply
  rw [getPoolTokenAmount, checkedMul128, if_pos hmulA, checkedMul128, if_pos hmulB, checkedSub128,
    if_pos hslippage]
  simp only [checkedDiv128, if_neg ha, if_neg hb, Bind.bind, Outcome.bind, Outcome.unwrap]
  by_cases hfits : affordableLp poolInfo poolLpSupply maxTokenAAmount maxTokenBAmount *
      (100 - slippageRate.toNat) < 2 ^ 128
  · rw [if_pos hfits]
    unfold affordableLp at hfits
    simp only [checkedMul128, if_pos hfits]
    rfl
  · rw [if_neg hfits]
    unfold affordableLp at hfits
    simp only [checkedMul128, if_neg hfits]

theorem requestedLp_le_affordableLp (hslippage : slippageRate.toNat ≤ 100) :
    requestedLp poolInfo poolLpSupply maxTokenAAmount maxTokenBAmount slippageRate ≤
      affordableLp poolInfo poolLpSupply maxTokenAAmount maxTokenBAmount := by
  refine Nat.div_le_of_le_mul ?_
  rw [Nat.mul_comm 100]
  exact Nat.mul_le_mul_left _ (by omega)

/-- Whatever pays for less LP than both allowed amounts do costs no more than either of them. -/
theorem cost_le_of_le_affordableLp {r : Nat}
    (h : r ≤ affordableLp poolInfo poolLpSupply maxTokenAAmount maxTokenBAmount) :
    r * poolInfo.tokenAAmount.toNat ≤ maxTokenAAmount.toNat * poolLpSupply.toNat ∧
      r * poolInfo.tokenBAmount.toNat ≤ maxTokenBAmount.toNat * poolLpSupply.toNat := by
  obtain ⟨ha, hb⟩ := le_min_iff.mp h
  exact ⟨(Nat.mul_le_mul_right _ ha).trans (Nat.div_mul_le_self _ _),
    (Nat.mul_le_mul_right _ hb).trans (Nat.div_mul_le_self _ _)⟩

theorem affordableLp_lt_iff (ha : 0 < poolInfo.tokenAAmount.toNat) (hb : 0 < poolInfo.tokenBAmount.toNat)
    {n : Nat} : affordableLp poolInfo poolLpSupply maxTokenAAmount maxTokenBAmount < n ↔
      maxTokenAAmount.toNat * poolLpSupply.toNat < n * poolInfo.tokenAAmount.toNat ∨
        maxTokenBAmount.toNat * poolLpSupply.toNat < n * poolInfo.tokenBAmount.toNat := by
  rw [affordableLp, min_lt_iff, Nat.div_lt_iff_lt_mul ha, Nat.div_lt_iff_lt_mul hb]

theorem requestedLp_lt_iff (hslippage : slippageRate.toNat < 100) :
    requestedLp poolInfo poolLpSupply maxTokenAAmount maxTokenBAmount slippageRate < 2 ^ 64 ↔
      affordableLp poolInfo poolLpSupply maxTokenAAmount maxTokenBAmount < leastTooLarge slippageRate := by
  rw [requestedLp, Nat.div_lt_iff_lt_mul (by norm_num), ← not_le, ← not_le, leastTooLarge,
    ceilDiv_le_iff_le_mul (by omega), Nat.mul_comm (100 - _), Nat.mul_comm 100]

theorem requestsExactly_iff_lt (ha : 0 < poolInfo.tokenAAmount.toNat)
    (hb : 0 < poolInfo.tokenBAmount.toNat) (hslippage : slippageRate.toNat ≤ 100) :
    RequestsExactly poolInfo poolLpSupply maxTokenAAmount maxTokenBAmount slippageRate ↔
      requestedLp poolInfo poolLpSupply maxTokenAAmount maxTokenBAmount slippageRate < 2 ^ 64 := by
  rw [RequestsExactly, getPoolTokenAmount_eq ha.ne' hb.ne' hslippage]
  constructor
  · rintro (⟨r, -, hr, -⟩ | ⟨message, herr, -⟩)
    · exact hr ▸ r.toNat_lt
    · split at herr <;> cases herr
  · intro hlt
    have hproduct : affordableLp poolInfo poolLpSupply maxTokenAAmount maxTokenBAmount *
        (100 - slippageRate.toNat) < 2 ^ 128 := by
      rw [requestedLp, Nat.div_lt_iff_lt_mul (by norm_num)] at hlt
      exact hlt.trans (by norm_num)
    have htoNat := UInt64.toNat_ofNat_of_lt' hlt
    refine Or.inl ⟨_, if_pos hproduct, htoNat, ?_⟩
    rw [htoNat]
    exact cost_le_of_le_affordableLp (requestedLp_le_affordableLp hslippage)

theorem requestsExactly_iff (ha : 0 < poolInfo.tokenAAmount.toNat) (hb : 0 < poolInfo.tokenBAmount.toNat)
    (hslippage : slippageRate.toNat ≤ 100) :
    RequestsExactly poolInfo poolLpSupply maxTokenAAmount maxTokenBAmount slippageRate ↔
      slippageRate.toNat = 100 ∨
        maxTokenAAmount.toNat * poolLpSupply.toNat <
          leastTooLarge slippageRate * poolInfo.tokenAAmount.toNat ∨
        maxTokenBAmount.toNat * poolLpSupply.toNat <
          leastTooLarge slippageRate * poolInfo.tokenBAmount.toNat := by
  rw [requestsExactly_iff_lt ha hb hslippage]
  by_cases hall : slippageRate.toNat = 100
  · refine iff_of_true ?_ (Or.inl hall)
    rw [requestedLp, hall]
    norm_num
  · rw [requestedLp_lt_iff (by omega), affordableLp_lt_iff ha hb]
    exact (or_iff_right hall).symm

/-- A pool whose depositor allows two amounts that pay for little LP. -/
theorem requestsExactly_iff_sample :
    RequestsExactly ⟨1000, 4000⟩ 2000 50 300 1 ↔
      (1 : UInt64).toNat = 100 ∨ (50 : UInt64).toNat * (2000 : UInt64).toNat <
          leastTooLarge 1 * (1000 : UInt64).toNat ∨
        (300 : UInt64).toNat * (2000 : UInt64).toNat < leastTooLarge 1 * (4000 : UInt64).toNat :=
  requestsExactly_iff (by decide) (by decide) (by decide)

/-- A pool drained to one unit of each token, first where the cast drops the high bits and then where the
last product leaves the `u128`. -/
theorem requests_wrong :
    (getPoolTokenAmount ⟨1, 1⟩ (2 ^ 32) (2 ^ 32 + 1) (2 ^ 32 + 1) 0 = .ok (2 ^ 32) ∧
        ¬ RequestsExactly ⟨1, 1⟩ (2 ^ 32) (2 ^ 32 + 1) (2 ^ 32 + 1) 0) ∧
      getPoolTokenAmount ⟨1, 1⟩ (2 ^ 64 - 1) (2 ^ 64 - 1) (2 ^ 64 - 1) 0 = .panic ∧
        ¬ RequestsExactly ⟨1, 1⟩ (2 ^ 64 - 1) (2 ^ 64 - 1) (2 ^ 64 - 1) 0 := by
  refine ⟨⟨by decide, ?_⟩, by decide, ?_⟩
  · rw [requestsExactly_iff_lt (by decide) (by decide) (by decide)]
    decide
  · rw [requestsExactly_iff_lt (by decide) (by decide) (by decide)]
    decide

end DynamicAmm.RustClient

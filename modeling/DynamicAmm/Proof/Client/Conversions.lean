import DynamicAmm.Base.ShareVault

/-!
# The client's conversions as those of a vault

The client multiplies and divides signed integers. On a vault whose numbers are not negative that is the
conversion of the vault, and for a negative amount it is the negated conversion.
-/

namespace DynamicAmm.Client

/-- A withdrawable amount, an LP supply and the LP of a pool make a vault. -/
theorem exists_shareVault {total supply held : Int} (htotal : 0 ≤ total) (hheld : 0 ≤ held)
    (hle : held ≤ supply) : ∃ v : ShareVault, v.total = total ∧ v.supply = supply ∧ v.held = held :=
  ⟨⟨total.toNat, supply.toNat, held.toNat, Int.toNat_le_toNat hle⟩, Int.toNat_of_nonneg htotal,
    Int.toNat_of_nonneg (hheld.trans hle), Int.toNat_of_nonneg hheld⟩

variable (v : ShareVault) (amount : Nat)

theorem worth_tdiv : ((amount : Int) * v.total).tdiv v.supply = v.worth amount := by
  rw [ShareVault.worth, Int.ofNat_tdiv, Nat.cast_mul]

theorem sharesFor_tdiv : ((amount : Int) * v.supply).tdiv v.total = v.sharesFor amount := by
  rw [ShareVault.sharesFor, Int.ofNat_tdiv, Nat.cast_mul]

theorem sharesFor_neg_tdiv : (-(amount : Int) * v.supply).tdiv v.total = -v.sharesFor amount := by
  rw [neg_mul, Int.neg_tdiv, sharesFor_tdiv]

def paidInShares (withdrawable supply amount : Int) : Int :=
  ((amount * supply).tdiv withdrawable * withdrawable).tdiv supply

theorem paidInShares_neg (withdrawable supply amount : Int) :
    paidInShares withdrawable supply (-amount) = -paidInShares withdrawable supply amount := by
  simp only [paidInShares, neg_mul, Int.neg_tdiv]

theorem paidInShares_nonneg {withdrawable supply amount : Int} (hwithdrawable : 0 ≤ withdrawable)
    (hsupply : 0 ≤ supply) (hamount : 0 ≤ amount) : 0 ≤ paidInShares withdrawable supply amount := by
  apply Int.tdiv_nonneg _ hsupply
  exact mul_nonneg (Int.tdiv_nonneg (mul_nonneg hamount hsupply) hwithdrawable) hwithdrawable

end DynamicAmm.Client

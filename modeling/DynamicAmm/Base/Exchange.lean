import DynamicAmm.Base.ShareValue

/-!
# An exchange over share vaults

An exchange holds shares of one vault for each of its assets. Whoever trades with it pays some assets, of
which a part is deposited, and receives others, which are redeemed. A run is any sequence of such legs, with
the vaults earning in between.

A leg leaves the shares of everybody else alone and never lowers their price. As long as the vaults do not
earn, what the exchange owns of an asset grows by no more than what was paid in, net of what was paid out.
So whoever wants to come out ahead has to get by with an exchange that owns less.
-/

structure Exchange (ι : Type) where
  vault : ι → ShareVault
  paid : ι → Nat
  received : ι → Nat

namespace Exchange

open Relation (ReflTransGen)

variable {ι : Type} [DecidableEq ι] {m m' m'' : Exchange ι}

def deposit (m : Exchange ι) (i : ι) (payment amount : Nat) : Exchange ι :=
  { m with
    vault := Function.update m.vault i ((m.vault i).deposit amount)
    paid := Function.update m.paid i (m.paid i + payment) }

def redeem (m : Exchange ι) (i : ι) (shares : Nat) : Exchange ι :=
  { m with
    vault := Function.update m.vault i ((m.vault i).redeem shares)
    received := Function.update m.received i (m.received i + (m.vault i).worth shares) }

/-- One leg of a trade. -/
inductive Leg : Exchange ι → Exchange ι → Prop
  | deposit (m : Exchange ι) (i : ι) {payment amount : Nat} (h : amount ≤ payment) :
      Leg m (m.deposit i payment amount)
  | redeem (m : Exchange ι) (i : ι) {shares : Nat} (h : shares ≤ (m.vault i).held) :
      Leg m (m.redeem i shares)

/-- The vaults earn, and nobody's shares change. -/
structure Earns (m m' : Exchange ι) : Prop where
  total_le : ∀ i, (m.vault i).total ≤ (m'.vault i).total
  supply : ∀ i, (m'.vault i).supply = (m.vault i).supply
  held : ∀ i, (m'.vault i).held = (m.vault i).held
  paid : m'.paid = m.paid
  received : m'.received = m.received

def Step (m m' : Exchange ι) : Prop := Leg m m' ∨ Earns m m'

/-! ### One leg -/

/-- What a leg does to one asset. -/
theorem Leg.vault (h : Leg m m') (i : ι) :
    (∃ payment amount, amount ≤ payment ∧ m'.vault i = (m.vault i).deposit amount ∧
      m'.paid i = m.paid i + payment ∧ m'.received i = m.received i) ∨
    (∃ shares, shares ≤ (m.vault i).held ∧ m'.vault i = (m.vault i).redeem shares ∧
      m'.paid i = m.paid i ∧ m'.received i = m.received i + (m.vault i).worth shares) ∨
    (m'.vault i = m.vault i ∧ m'.paid i = m.paid i ∧ m'.received i = m.received i) := by
  cases h with
  | @deposit j payment amount hle =>
      by_cases hij : i = j
      · subst hij
        exact .inl ⟨payment, amount, hle, by simp [Exchange.deposit]⟩
      · exact .inr (.inr (by simp [Exchange.deposit, hij]))
  | @redeem j shares hle =>
      by_cases hij : i = j
      · subst hij
        exact .inr (.inl ⟨shares, hle, by simp [Exchange.redeem]⟩)
      · exact .inr (.inr (by simp [Exchange.redeem, hij]))

theorem Leg.exactValue_le (h : Leg m m') (i : ι) :
    (m'.vault i).exactValue + m'.received i + m.paid i ≤ (m.vault i).exactValue + m'.paid i + m.received i := by
  rcases h.vault i with ⟨payment, amount, hle, hvault, hpaid, hreceived⟩ | ⟨shares, hle, hvault, hpaid, hreceived⟩ |
    ⟨hvault, hpaid, hreceived⟩
  · have hgrown := (m.vault i).exactValue_deposit_le amount
    have hle' : (amount : ℚ) ≤ payment := by exact_mod_cast hle
    rw [hvault, hpaid, hreceived]
    push_cast
    linarith
  · have hshrunk := (m.vault i).exactValue_redeem_add_le hle
    rw [hvault, hpaid, hreceived]
    push_cast
    linarith
  · rw [hvault, hpaid, hreceived]
    linarith

theorem Step.others_eq (h : Step m m') (i : ι) : (m'.vault i).others = (m.vault i).others := by
  rcases h with hleg | hearns
  · rcases hleg.vault i with ⟨_, _, _, hvault, _⟩ | ⟨_, hle, hvault, _⟩ | ⟨hvault, _⟩
    · rw [hvault, ShareVault.others_deposit]
    · rw [hvault, ShareVault.others_redeem _ hle]
    · rw [hvault]
  · rw [ShareVault.others, ShareVault.others, hearns.supply, hearns.held]

theorem Step.priceLe (h : Step m m') (i : ι) : (m.vault i).PriceLe (m'.vault i) := by
  rcases h with hleg | hearns
  · rcases hleg.vault i with ⟨_, amount, _, hvault, _⟩ | ⟨shares, _, hvault, _⟩ | ⟨hvault, _⟩
    · rw [hvault]
      exact (m.vault i).deposit_price_le amount
    · rw [hvault]
      exact (m.vault i).redeem_price_le shares
    · rw [hvault]
      exact Nat.le_refl _
  · rw [ShareVault.PriceLe, hearns.supply]
    exact Nat.mul_le_mul_right _ (hearns.total_le i)

omit [DecidableEq ι] in
theorem Earns.value_le (h : Earns m m') (i : ι) : (m.vault i).value ≤ (m'.vault i).value := by
  rw [ShareVault.value, ShareVault.value, ShareVault.worth, ShareVault.worth, h.held, h.supply]
  exact Nat.div_le_div_right (Nat.mul_le_mul_left _ (h.total_le i))

/-! ### Runs -/

/-- What the exchange owns in the end is covered by what it owned and what was paid in. -/
theorem exactValue_le_of_legs (h : ReflTransGen Leg m m') (i : ι) :
    (m'.vault i).exactValue + m'.received i + m.paid i ≤ (m.vault i).exactValue + m'.paid i + m.received i := by
  induction h with
  | refl => linarith
  | tail _ hleg ih =>
      have := hleg.exactValue_le i
      linarith

theorem others_eq_of_steps (h : ReflTransGen Step m m') (i : ι) : (m'.vault i).others = (m.vault i).others := by
  induction h with
  | refl => rfl
  | tail _ hstep ih => exact (hstep.others_eq i).trans ih

theorem priceLe_of_steps (h : ReflTransGen Step m m') {i : ι} (hothers : 0 < (m.vault i).others) :
    (m.vault i).PriceLe (m'.vault i) := by
  induction h with
  | refl => exact Nat.le_refl _
  | tail hsteps hstep ih =>
      rw [← others_eq_of_steps hsteps] at hothers
      exact ih.trans (hstep.priceLe i) (ShareVault.supply_pos_of_others_pos _ hothers)

/-- What anybody else's shares are worth never falls. -/
theorem worth_le_of_steps (h : ReflTransGen Step m m') {i : ι} (hothers : 0 < (m.vault i).others)
    (shares : Nat) : (m.vault i).worth shares ≤ (m'.vault i).worth shares := by
  refine (priceLe_of_steps h hothers).worth_le ?_ shares
  apply ShareVault.supply_pos_of_others_pos
  rwa [others_eq_of_steps h]

theorem steps_of_legs (h : ReflTransGen Leg m m') : ReflTransGen Step m m' := by
  induction h with
  | refl => exact .refl
  | tail _ hleg ih => exact ih.tail (.inl hleg)

/-! ### Nobody comes out ahead -/

section Two

variable {i j : ι} (hlegs : ReflTransGen Leg m m')
  (hi : m'.paid i + m.received i ≤ m'.received i + m.paid i)

include hlegs hi

theorem value_le_of_gain : (m'.vault i).value ≤ (m.vault i).value := by
  have hexact := exactValue_le_of_legs hlegs i
  have hgain : (m'.paid i + m.received i : ℚ) ≤ m'.received i + m.paid i := by exact_mod_cast hi
  exact ShareVault.value_le_value_of_exactValue_le (by linarith)

theorem value_lt_of_gain (hlt : m'.paid i + m.received i ≠ m'.received i + m.paid i) :
    (m'.vault i).value < (m.vault i).value := by
  have hexact := exactValue_le_of_legs hlegs i
  have hgain : m'.paid i + m.received i + 1 ≤ m'.received i + m.paid i := by omega
  have hgain' : (m'.paid i + m.received i + 1 : ℚ) ≤ m'.received i + m.paid i := by exact_mod_cast hgain
  exact ShareVault.value_lt_value_of_exactValue_add_one_le (by linarith)

/-- As long as the product of two assets does not fall, who gets no less than was paid of either gets no
more of either. -/
theorem no_gain (hj : m'.paid j + m.received j ≤ m'.received j + m.paid j)
    (hipos : 0 < (m.vault i).value) (hjpos : 0 < (m.vault j).value)
    (hproduct : (m.vault i).value * (m.vault j).value ≤ (m'.vault i).value * (m'.vault j).value) :
    m'.paid i + m.received i = m'.received i + m.paid i ∧
      m'.paid j + m.received j = m'.received j + m.paid j := by
  have hile := value_le_of_gain hlegs hi
  have hjle := value_le_of_gain hlegs hj
  constructor
  · by_contra hne
    have hlt := value_lt_of_gain hlegs hi hne
    exact absurd hproduct (not_le.mpr (Nat.mul_lt_mul_of_lt_of_le hlt hjle hjpos))
  · by_contra hne
    have hlt := value_lt_of_gain hlegs hj hne
    exact absurd hproduct (not_le.mpr (Nat.mul_lt_mul_of_le_of_lt hile hlt hipos))

end Two

end Exchange

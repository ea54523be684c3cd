import Mathlib

/-!
# Base64

The standard alphabet with padding. Every three bytes become four characters of six bits each, and
decoding refuses padding bits that are not zero.
-/

namespace Base64

def alphabet : List Char :=
  "ABCDEFGHIJKLMNOPQRSTUVWXYZabcdefghijklmnopqrstuvwxyz0123456789+/".toList

def digit (value : Nat) : Char := alphabet.getD value '='

def value (c : Char) : Option Nat := alphabet.findIdx? (· == c)

theorem value_digit {n : Nat} (hn : n < 64) : value (digit n) = some n := by
  have h : ∀ k : Fin 64, value (digit k) = some k.val := by decide +kernel
  exact h ⟨n, hn⟩

theorem digit_ne_padding {n : Nat} (hn : n < 64) : digit n ≠ '=' := by
  have h : ∀ k : Fin 64, digit k ≠ '=' := by decide +kernel
  exact h ⟨n, hn⟩

theorem digit_mem {n : Nat} (hn : n < 64) : digit n ∈ alphabet := by
  have h : ∀ k : Fin 64, digit k ∈ alphabet := by decide +kernel
  exact h ⟨n, hn⟩

/-! ### Encoding -/

def encode : List UInt8 → List Char
  | [] => []
  | [a] => [digit (a.toNat / 4), digit (a.toNat % 4 * 16), '=', '=']
  | [a, b] =>
      [digit (a.toNat / 4), digit (a.toNat % 4 * 16 + b.toNat / 16), digit (b.toNat % 16 * 4), '=']
  | a :: b :: c :: rest =>
      digit (a.toNat / 4) :: digit (a.toNat % 4 * 16 + b.toNat / 16) ::
        digit (b.toNat % 16 * 4 + c.toNat / 64) :: digit (c.toNat % 64) :: encode rest

theorem mem_encode {bytes : List UInt8} {c : Char} (h : c ∈ encode bytes) : c ∈ alphabet ∨ c = '=' := by
  induction bytes using encode.induct with
  | case1 => cases h
  | case2 a =>
      have ha := a.toNat_lt
      simp only [encode, List.mem_cons, List.not_mem_nil, or_false] at h
      rcases h with rfl | rfl | rfl | rfl
      · exact Or.inl (digit_mem (by omega))
      · exact Or.inl (digit_mem (by omega))
      · exact Or.inr rfl
      · exact Or.inr rfl
  | case3 a b =>
      have ha := a.toNat_lt
      have hb := b.toNat_lt
      simp only [encode, List.mem_cons, List.not_mem_nil, or_false] at h
      rcases h with rfl | rfl | rfl | rfl
      · exact Or.inl (digit_mem (by omega))
      · exact Or.inl (digit_mem (by omega))
      · exact Or.inl (digit_mem (by omega))
      · exact Or.inr rfl
  | case4 a b c rest ih =>
      have ha := a.toNat_lt
      have hb := b.toNat_lt
      have hc := c.toNat_lt
      simp only [encode, List.mem_cons] at h
      rcases h with rfl | rfl | rfl | rfl | h
      · exact Or.inl (digit_mem (by omega))
      · exact Or.inl (digit_mem (by omega))
      · exact Or.inl (digit_mem (by omega))
      · exact Or.inl (digit_mem (by omega))
      · exact ih h

/-! ### Decoding -/

def firstByte (v₀ v₁ : Nat) : UInt8 := UInt8.ofNat (v₀ * 4 + v₁ / 16)

def secondByte (v₁ v₂ : Nat) : UInt8 := UInt8.ofNat (v₁ % 16 * 16 + v₂ / 4)

def thirdByte (v₂ v₃ : Nat) : UInt8 := UInt8.ofNat (v₂ % 4 * 64 + v₃)

def decode : List Char → Option (List UInt8)
  | [] => some []
  | c₀ :: c₁ :: c₂ :: c₃ :: rest => do
      let v₀ ← value c₀
      let v₁ ← value c₁
      if c₃ = '=' then
        if rest ≠ [] then none
        else if c₂ = '=' then
          if v₁ % 16 = 0 then some [firstByte v₀ v₁] else none
        else do
          let v₂ ← value c₂
          if v₂ % 4 = 0 then some [firstByte v₀ v₁, secondByte v₁ v₂] else none
      else do
        let v₂ ← value c₂
        let v₃ ← value c₃
        let bytes ← decode rest
        some (firstByte v₀ v₁ :: secondByte v₁ v₂ :: thirdByte v₂ v₃ :: bytes)
  | _ => none

theorem firstByte_eq {a : UInt8} {v₀ v₁ : Nat} (h : v₀ * 4 + v₁ / 16 = a.toNat) : firstByte v₀ v₁ = a := by
  rw [firstByte, h, UInt8.ofNat_toNat]

theorem secondByte_eq {a : UInt8} {v₁ v₂ : Nat} (h : v₁ % 16 * 16 + v₂ / 4 = a.toNat) :
    secondByte v₁ v₂ = a := by
  rw [secondByte, h, UInt8.ofNat_toNat]

theorem thirdByte_eq {a : UInt8} {v₂ v₃ : Nat} (h : v₂ % 4 * 64 + v₃ = a.toNat) : thirdByte v₂ v₃ = a := by
  rw [thirdByte, h, UInt8.ofNat_toNat]

theorem decode_encode (bytes : List UInt8) : decode (encode bytes) = some bytes := by
  induction bytes using encode.induct with
  | case1 => rfl
  | case2 a =>
      have ha := a.toNat_lt
      simp only [encode, decode]
      rw [value_digit (by omega), value_digit (by omega)]
      simp only [Option.bind_eq_bind, Option.bind_some, if_true, ne_eq, not_true_eq_false, if_false]
      rw [if_pos (by omega), firstByte_eq (a := a) (by omega)]
  | case3 a b =>
      have ha := a.toNat_lt
      have hb := b.toNat_lt
      simp only [encode, decode]
      rw [value_digit (by omega), value_digit (by omega), value_digit (by omega)]
      simp only [Option.bind_eq_bind, Option.bind_some, if_true, ne_eq, not_true_eq_false, if_false]
      rw [if_neg (digit_ne_padding (by omega)), if_pos (by omega), firstByte_eq (a := a) (by omega),
        secondByte_eq (a := b) (by omega)]
  | case4 a b c rest ih =>
      have ha := a.toNat_lt
      have hb := b.toNat_lt
      have hc := c.toNat_lt
      simp only [encode, decode]
      rw [value_digit (by omega), value_digit (by omega), value_digit (by omega), value_digit (by omega), ih]
      simp only [Option.bind_eq_bind, Option.bind_some]
      rw [if_neg (digit_ne_padding (by omega)), firstByte_eq (a := a) (by omega),
        secondByte_eq (a := b) (by omega), thirdByte_eq (a := c) (by omega)]

end Base64

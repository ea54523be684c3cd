import DynamicAmm.Base.Seeds

/-!
# Codecs

A codec writes a value as bytes that tell where they end. Its one law is that reading a value off the front of
some bytes is finding its encoding there: what was written is read back whatever follows, and nothing is read
that a value would not have been written as. Codecs are put together from those of the parts.
-/

structure Codec (α : Type) where
  encode : α → List UInt8
  decode : List UInt8 → Option (α × List UInt8)
  decode_eq_some : ∀ {bytes a rest}, decode bytes = some (a, rest) ↔ encode a ++ rest = bytes

namespace Codec

open Seeds

variable {α β γ : Type} {a b : α} {bytes rest rest' : List UInt8}

theorem decode_encode (c : Codec α) (a : α) (rest : List UInt8) : c.decode (c.encode a ++ rest) = some (a, rest) :=
  c.decode_eq_some.mpr rfl

/-! ### Parts -/

def unit : Codec Unit where
  encode _ := []
  decode bytes := some ((), bytes)
  decode_eq_some := by
    intro bytes _ rest
    rw [Option.some.injEq, Prod.mk.injEq, List.nil_append, and_iff_right rfl, eq_comm]

def raw (n : Nat) : Codec (List.Vector UInt8 n) where
  encode v := v.toList
  decode bytes :=
    if h : (bytes.take n).length = n then some (⟨bytes.take n, h⟩, bytes.drop n) else none
  decode_eq_some := by
    intro bytes v rest
    obtain ⟨front, hfront⟩ := v
    constructor
    · intro h
      split at h
      · cases h
        exact List.take_append_drop n bytes
      · cases h
    · rintro rfl
      subst hfront
      simp [List.Vector.toList]

def map (c : Codec α) (e : α ≃ β) : Codec β where
  encode b := c.encode (e.symm b)
  decode bytes := (c.decode bytes).map (Prod.map e id)
  decode_eq_some := by
    intro bytes b rest
    rw [Option.map_eq_some_iff]
    constructor
    · rintro ⟨⟨a, _⟩, hdecode, h⟩
      cases h
      rw [e.symm_apply_apply]
      exact c.decode_eq_some.mp hdecode
    · intro h
      exact ⟨_, c.decode_eq_some.mpr h, by simp⟩

@[simp] theorem map_encode (c : Codec α) (e : α ≃ β) (b : β) : (c.map e).encode b = c.encode (e.symm b) := rfl

@[simp] theorem map_decode (c : Codec α) (e : α ≃ β) (bytes : List UInt8) :
    (c.map e).decode bytes = (c.decode bytes).map (Prod.map e id) := rfl

def prod (c : Codec α) (d : Codec β) : Codec (α × β) where
  encode p := c.encode p.1 ++ d.encode p.2
  decode bytes := (c.decode bytes).bind fun (a, rest) => (d.decode rest).map (Prod.map (a, ·) id)
  decode_eq_some := by
    intro bytes p rest
    obtain ⟨a, b⟩ := p
    simp only [Option.bind_eq_some_iff, Option.map_eq_some_iff, Prod.exists, List.append_assoc]
    constructor
    · rintro ⟨_, middle, hc, _, _, hd, h⟩
      cases h
      rw [← c.decode_eq_some.mp hc, ← d.decode_eq_some.mp hd]
      rfl
    · intro h
      exact ⟨a, d.encode b ++ rest, c.decode_eq_some.mpr h, b, rest, d.decode_encode b rest, rfl⟩

@[simp] theorem prod_encode (c : Codec α) (d : Codec β) (p : α × β) :
    (c.prod d).encode p = c.encode p.1 ++ d.encode p.2 := rfl

@[simp] theorem prod_decode (c : Codec α) (d : Codec β) (bytes : List UInt8) :
    (c.prod d).decode bytes =
      (c.decode bytes).bind fun (a, rest) => (d.decode rest).map (Prod.map (a, ·) id) := rfl

/-! ### Words -/

/-- The number that bytes stand for, the lowest first. -/
def ofLeBytes : List UInt8 → Nat
  | [] => 0
  | byte :: rest => byte.toNat + 256 * ofLeBytes rest

theorem ofLeBytes_lt (bytes : List UInt8) : ofLeBytes bytes < 256 ^ bytes.length := by
  induction bytes with
  | nil => exact Nat.one_pos
  | cons byte rest ih =>
      have := byte.toNat_lt
      rw [ofLeBytes, List.length_cons, pow_succ]
      omega

theorem leBytes_ofLeBytes (bytes : List UInt8) : leBytes bytes.length (ofLeBytes bytes) = bytes := by
  induction bytes with
  | nil => rfl
  | cons byte rest ih =>
      have := byte.toNat_lt
      have hrest : (byte.toNat + 256 * ofLeBytes rest) / 256 = ofLeBytes rest := by omega
      have hbyte : UInt8.ofNat (byte.toNat + 256 * ofLeBytes rest) = byte := by
        rw [← UInt8.toNat_inj, UInt8.toNat_ofNat']
        omega
      rw [List.length_cons, leBytes, ofLeBytes, hrest, ih, hbyte]

theorem ofLeBytes_leBytes {width n : Nat} (hn : n < 256 ^ width) : ofLeBytes (leBytes width n) = n := by
  induction width generalizing n with
  | zero => simp only [pow_zero] at hn; rw [leBytes, ofLeBytes]; omega
  | succ width ih =>
      rw [pow_succ] at hn
      rw [leBytes, ofLeBytes, ih (by omega), UInt8.toNat_ofNat']
      omega

theorem leBytes_toList {n : Nat} (v : List.Vector UInt8 n) : leBytes n (ofLeBytes v.toList) = v.toList := by
  obtain ⟨bytes, rfl⟩ := v
  exact leBytes_ofLeBytes bytes

/-- Words of a width, and their bytes with the lowest first. -/
def littleEndian (width : Nat) : List.Vector UInt8 width ≃ Fin (256 ^ width) where
  toFun v := ⟨ofLeBytes v.toList, (ofLeBytes_lt _).trans_eq (congrArg (256 ^ ·) v.toList_length)⟩
  invFun n := ⟨leBytes width n, length_leBytes width n⟩
  left_inv v := Subtype.ext (leBytes_toList v)
  right_inv n := Fin.ext (ofLeBytes_leBytes n.isLt)

def word (width : Nat) : Codec (Fin (256 ^ width)) := (raw width).map (littleEndian width)

/-! ### Arrays -/

def array (c : Codec α) : (n : Nat) → Codec (List.Vector α n)
  | 0 => unit.map {
      toFun := fun _ => .nil
      invFun := fun _ => ()
      left_inv := fun _ => rfl
      right_inv := fun v => v.eq_nil.symm }
  | n + 1 => (c.prod (array c n)).map {
      toFun := fun p => p.1 ::ᵥ p.2
      invFun := fun v => (v.head, v.tail)
      left_inv := fun _ => rfl
      right_inv := fun v => v.cons_head_tail }

/-! ### Alternatives -/

def tag (n : Nat) (hn : n ≤ 256) : Codec (Fin n) where
  encode i := [UInt8.ofNat i]
  decode
    | [] => none
    | byte :: rest => if h : byte.toNat < n then some (⟨byte.toNat, h⟩, rest) else none
  decode_eq_some := by
    intro bytes i rest
    constructor
    · intro h
      cases bytes with
      | nil => cases h
      | cons byte bytes =>
          simp only at h
          split at h
          · cases h
            rw [UInt8.ofNat_toNat]
            rfl
          · cases h
    · rintro rfl
      have hi : (UInt8.ofNat i).toNat = i := by
        rw [UInt8.toNat_ofNat', Nat.mod_eq_of_lt (by omega)]
      simp only [List.singleton_append, hi, i.isLt, dif_pos]

def sum (c : Codec α) (d : Codec β) : Codec (α ⊕ β) where
  encode
    | .inl a => 0 :: c.encode a
    | .inr b => 1 :: d.encode b
  decode
    | [] => none
    | byte :: rest =>
        if byte = 0 then (c.decode rest).map (Prod.map .inl id)
        else if byte = 1 then (d.decode rest).map (Prod.map .inr id)
        else none
  decode_eq_some := by
    intro bytes s rest
    constructor
    · intro h
      cases bytes with
      | nil => cases h
      | cons byte bytes =>
          simp only at h
          split at h
          · rename_i hbyte
            obtain ⟨⟨a, _⟩, hc, h⟩ := Option.map_eq_some_iff.mp h
            cases h
            rw [← c.decode_eq_some.mp hc, hbyte]
            rfl
          · split at h
            · rename_i hbyte
              obtain ⟨⟨b, _⟩, hd, h⟩ := Option.map_eq_some_iff.mp h
              cases h
              rw [← d.decode_eq_some.mp hd, hbyte]
              rfl
            · cases h
    · rintro rfl
      cases s with
      | inl a => exact congrArg (Option.map _) (c.decode_encode a rest)
      | inr b => exact congrArg (Option.map _) (d.decode_encode b rest)

@[simp] theorem tag_decode_cons {n : Nat} (hn : n ≤ 256) (byte : UInt8) (rest : List UInt8) :
    (tag n hn).decode (byte :: rest) = if h : byte.toNat < n then some (⟨byte.toNat, h⟩, rest) else none := rfl

@[simp] theorem sum_decode_cons (c : Codec α) (d : Codec β) (byte : UInt8) (rest : List UInt8) :
    (c.sum d).decode (byte :: rest) =
      if byte = 0 then (c.decode rest).map (Prod.map .inl id)
      else if byte = 1 then (d.decode rest).map (Prod.map .inr id)
      else none := rfl

theorem two_le_tags : 2 ≤ 256 := by decide

def bool : Codec Bool := (tag 2 two_le_tags).map finTwoEquiv

end Codec

import DynamicAmm.Base.Codec

/-!
# Schemas

A schema describes a byte format as data: a program that is given one reads and writes values of no type of
its own, records with named entries, by walking over it. A program that has the type compiled in uses a codec
instead. `Schema.Describes` is that the two agree on all bytes, and it follows the way the codec is put
together.
-/

namespace Schema

mutual

inductive Ty where
  | bool
  | uint (width : Nat)
  | bytes (length : Nat)
  | array (element : Ty) (length : Nat)
  | struct (fields : Fields)
  | enum (variants : Variants)

inductive Fields where
  | nil
  | cons (name : String) (ty : Ty) (rest : Fields)

inductive Variants where
  | nil
  | cons (name : String) (fields : Fields) (rest : Variants)

end

def Fields.ofList : List (String × Ty) → Fields
  | [] => .nil
  | (name, ty) :: rest => .cons name ty (ofList rest)

def Variants.ofList : List (String × Fields) → Variants
  | [] => .nil
  | (name, fields) :: rest => .cons name fields (ofList rest)

/-- A value as a record of named entries, down to numbers and bytes. -/
inductive Value where
  | bool (b : Bool)
  | nat (n : Nat)
  | bytes (bytes : List UInt8)
  | array (elements : List Value)
  | record (entries : List (String × Value))
  | variant (name : String) (entries : List (String × Value))

/-! ### Reading -/

def decodeMany {α : Type} (decode : List UInt8 → Option (α × List UInt8)) :
    Nat → List UInt8 → Option (List α × List UInt8)
  | 0, bytes => some ([], bytes)
  | n + 1, bytes => (decode bytes).bind fun (a, rest) =>
      (decodeMany decode n rest).map (Prod.map (a :: ·) id)

mutual

def Ty.decode : Ty → List UInt8 → Option (Value × List UInt8)
  | .bool, bytes => (Codec.bool.decode bytes).map (Prod.map .bool id)
  | .uint width, bytes => ((Codec.word width).decode bytes).map (Prod.map (fun n => .nat n.val) id)
  | .bytes length, bytes => ((Codec.raw length).decode bytes).map (Prod.map (fun v => .bytes v.toList) id)
  | .array element length, bytes => (decodeMany element.decode length bytes).map (Prod.map .array id)
  | .struct fields, bytes => (fields.decode bytes).map (Prod.map .record id)
  | .enum variants, bytes =>
      match bytes with
      | [] => none
      | tag :: rest => variants.decode tag.toNat rest

def Fields.decode : Fields → List UInt8 → Option (List (String × Value) × List UInt8)
  | .nil, bytes => some ([], bytes)
  | .cons name ty others, bytes => (ty.decode bytes).bind fun (value, rest) =>
      (others.decode rest).map (Prod.map ((name, value) :: ·) id)

def Variants.decode : Variants → Nat → List UInt8 → Option (Value × List UInt8)
  | .nil, _, _ => none
  | .cons name fields _, 0, bytes => (fields.decode bytes).map (Prod.map (.variant name) id)
  | .cons _ _ others, tag + 1, bytes => others.decode tag bytes

end

/-! ### Writing -/

mutual

def Ty.encode : Ty → Value → Option (List UInt8)
  | .bool, .bool b => some (Codec.bool.encode b)
  | .uint width, .nat n => if h : n < 256 ^ width then some ((Codec.word width).encode ⟨n, h⟩) else none
  | .bytes length, .bytes bytes => if bytes.length = length then some bytes else none
  | .array element length, .array elements =>
      if elements.length = length then (elements.mapM element.encode).map List.flatten else none
  | .struct fields, .record entries => fields.encode entries
  | .enum variants, .variant name entries => variants.encode 0 name entries
  | _, _ => none

def Fields.encode : Fields → List (String × Value) → Option (List UInt8)
  | .nil, _ => some []
  | .cons name ty others, entries => do
      let value ← entries.lookup name
      let front ← ty.encode value
      let rest ← others.encode entries
      some (front ++ rest)

def Variants.encode : Variants → Nat → String → List (String × Value) → Option (List UInt8)
  | .nil, _, _, _ => none
  | .cons name fields others, tag, chosen, entries =>
      if chosen = name then (fields.encode entries).map (UInt8.ofNat tag :: ·)
      else others.encode (tag + 1) chosen entries

end

/-! ### Schemas of codecs -/

variable {α β : Type} {ty : Ty} {c : Codec α} {d : Codec β} {view : α → Value}

/-- By the schema the same bytes are read as by the codec and written for the same values, where `view` is the
record of a value. -/
structure Describes (ty : Ty) (c : Codec α) (view : α → Value) : Prop where
  decode : ∀ bytes, ty.decode bytes = (c.decode bytes).map (Prod.map view id)
  encode : ∀ a, ty.encode (view a) = some (c.encode a)

def Fields.names : Fields → List String
  | .nil => []
  | .cons name _ rest => name :: rest.names

structure DescribesFields (fields : Fields) (c : Codec α) (view : α → List (String × Value)) : Prop where
  decode : ∀ bytes, fields.decode bytes = (c.decode bytes).map (Prod.map view id)
  names : ∀ a, (view a).map Prod.fst = fields.names
  encode : ∀ a entries, (∀ entry ∈ view a, entries.lookup entry.1 = some entry.2) →
    fields.encode entries = some (c.encode a)

theorem describes_bool : Describes .bool Codec.bool .bool := ⟨fun _ => rfl, fun _ => rfl⟩

theorem describes_uint (width : Nat) : Describes (.uint width) (Codec.word width) (fun n => .nat n.val) where
  decode _ := rfl
  encode n := dif_pos n.isLt

theorem describes_bytes (length : Nat) :
    Describes (.bytes length) (Codec.raw length) (fun v => .bytes v.toList) where
  decode _ := rfl
  encode v := if_pos v.toList_length

theorem Describes.map (h : Describes ty c view) (e : α ≃ β) {view' : β → Value} (hview : ∀ a, view' (e a) = view a) :
    Describes ty (c.map e) view' where
  decode bytes := by
    rw [h.decode, Codec.map_decode, Option.map_map]
    congr 1
    funext p
    exact Prod.ext (hview p.1).symm rfl
  encode b := by
    obtain ⟨a, rfl⟩ := e.surjective b
    rw [hview, h.encode, Codec.map_encode, e.symm_apply_apply]

theorem decodeMany_array (h : Describes ty c view) (n : Nat) (bytes : List UInt8) :
    decodeMany ty.decode n bytes = ((c.array n).decode bytes).map (Prod.map (fun v => v.toList.map view) id) := by
  induction n generalizing bytes with
  | zero => rfl
  | succ n ih =>
      rw [decodeMany, h.decode, Codec.array, Codec.map_decode, Codec.prod_decode]
      rcases c.decode bytes with _ | ⟨a, rest⟩
      · rfl
      · simp only [Option.map_some, Option.bind_some, Prod.map_fst, Prod.map_snd, id, ih, Option.map_map]
        congr 1

theorem encode_array (h : Describes ty c view) {n : Nat} (v : List.Vector α n) :
    ((v.toList.map view).mapM ty.encode).map List.flatten = some ((c.array n).encode v) := by
  induction n with
  | zero =>
      rw [v.eq_nil]
      rfl
  | succ n ih =>
      obtain ⟨a, others, rfl⟩ := v.exists_eq_cons
      have hothers := ih others
      rw [Option.map_eq_some_iff] at hothers
      obtain ⟨parts, hparts, hflatten⟩ := hothers
      simp only [List.Vector.toList_cons, List.map_cons, List.mapM_cons, h.encode, hparts, Option.pure_def,
        Option.bind_eq_bind, Option.bind_some, Option.map_some, List.flatten_cons, hflatten]
      rfl

theorem Describes.array (h : Describes ty c view) (n : Nat) :
    Describes (.array ty n) (c.array n) (fun v => .array (v.toList.map view)) where
  decode bytes := by
    rw [Ty.decode, decodeMany_array h, Option.map_map]
    rfl
  encode v := by
    rw [Ty.encode, if_pos (by rw [List.length_map, v.toList_length]), encode_array h]

/-! ### Fields -/

variable {fields others : Fields} {entries : α → List (String × Value)} {entries' : β → List (String × Value)}

theorem describesFields_nil : DescribesFields .nil Codec.unit (fun _ => []) where
  decode _ := rfl
  names _ := rfl
  encode _ _ _ := rfl

theorem Describes.last (h : Describes ty c view) (name : String) :
    DescribesFields (.cons name ty .nil) c (fun a => [(name, view a)]) where
  decode bytes := by
    rw [Fields.decode, h.decode]
    rcases c.decode bytes with _ | ⟨a, rest⟩
    · rfl
    · rfl
  names _ := rfl
  encode a entries hentries := by
    simp only [Fields.encode, hentries (name, view a) (List.mem_singleton_self _), h.encode, Option.bind_eq_bind,
      Option.bind_some, List.append_nil]

theorem Describes.cons (h : Describes ty c view) (name : String) (hothers : DescribesFields others d entries') :
    DescribesFields (.cons name ty others) (c.prod d) (fun p => (name, view p.1) :: entries' p.2) where
  decode bytes := by
    rw [Fields.decode, h.decode, Codec.prod_decode]
    rcases c.decode bytes with _ | ⟨a, rest⟩
    · rfl
    · simp only [Option.map_some, Option.bind_some, Prod.map_fst, Prod.map_snd, id, hothers.decode, Option.map_map]
      congr 1
  names p := congrArg (name :: ·) (hothers.names p.2)
  encode p entries hentries := by
    have hname := hentries (name, view p.1) List.mem_cons_self
    have hrest := hothers.encode p.2 entries (fun entry hentry => hentries entry (List.mem_cons_of_mem _ hentry))
    simp only [Fields.encode, hname, h.encode, hrest, Option.bind_eq_bind, Option.bind_some, Codec.prod_encode]

/-- Of entries with different names each is found by its name. -/
theorem lookup_of_mem {all : List (String × Value)} (hnodup : (all.map Prod.fst).Nodup) {entry : String × Value}
    (hentry : entry ∈ all) : all.lookup entry.1 = some entry.2 := by
  induction all with
  | nil => cases hentry
  | cons first all ih =>
      obtain ⟨name, value⟩ := first
      rw [List.map_cons, List.nodup_cons] at hnodup
      rcases List.mem_cons.mp hentry with rfl | hmem
      · exact List.lookup_cons_self
      · have hne : entry.1 ≠ name := fun h => hnodup.1 (List.mem_map.mpr ⟨entry, hmem, h⟩)
        rw [List.lookup_cons, beq_false_of_ne hne]
        exact ih hnodup.2 hmem

theorem DescribesFields.encode_self (h : DescribesFields fields c entries) (hnames : fields.names.Nodup) (a : α) :
    fields.encode (entries a) = some (c.encode a) :=
  h.encode a (entries a) fun _ hentry => lookup_of_mem (h.names a ▸ hnames) hentry

theorem DescribesFields.struct (h : DescribesFields fields c entries) (hnames : fields.names.Nodup) :
    Describes (.struct fields) c (fun a => .record (entries a)) where
  decode bytes := by
    rw [Ty.decode, h.decode, Option.map_map]
    rfl
  encode a := h.encode_self hnames a

/-! ### Alternatives -/

def Variants.ofNames (names : List String) : Variants := .ofList (names.map (·, .nil))

theorem decode_ofNames (names : List String) (tag : Nat) (rest : List UInt8) :
    (Variants.ofNames names).decode tag rest = names[tag]?.map fun name => (.variant name [], rest) := by
  induction names generalizing tag with
  | nil => rfl
  | cons name names ih =>
      cases tag with
      | zero => rfl
      | succ tag => exact ih tag

theorem encode_ofNames {names : List String} (hnames : names.Nodup) (tag : Nat) {i : Nat} (hi : i < names.length) :
    (Variants.ofNames names).encode tag names[i] [] = some [UInt8.ofNat (tag + i)] := by
  induction names generalizing tag i with
  | nil => cases hi
  | cons name names ih =>
      obtain ⟨hname, hnames⟩ := List.nodup_cons.mp hnames
      change (if (name :: names)[i] = name then _ else (Variants.ofNames names).encode (tag + 1) _ []) = _
      cases i with
      | zero => rw [List.getElem_cons_zero, if_pos rfl]; rfl
      | succ i =>
          have hi : i < names.length := Nat.lt_of_succ_lt_succ hi
          have hne : names[i] ≠ name := fun h => hname (h ▸ List.getElem_mem hi)
          rw [List.getElem_cons_succ, if_neg hne, ih hnames (tag + 1) hi, Nat.add_right_comm]
          rfl

theorem describes_names {names : List String} (hnames : names.Nodup) (hlength : names.length ≤ 256) :
    Describes (.enum (.ofNames names)) (Codec.tag names.length hlength) (fun i => .variant names[i] []) where
  decode bytes := by
    cases bytes with
    | nil => rfl
    | cons byte rest =>
        rw [Ty.decode, decode_ofNames, Codec.tag_decode_cons]
        by_cases h : byte.toNat < names.length
        · simp only [dif_pos h, List.getElem?_eq_getElem h, Option.map_some, Prod.map_apply, Fin.getElem_fin, id]
        · simp only [dif_neg h, List.getElem?_eq_none (Nat.le_of_not_lt h), Option.map_none]
  encode i := by
    rw [Ty.encode, Fin.getElem_fin, encode_ofNames hnames, Nat.zero_add]
    rfl

theorem DescribesFields.sum {first second : Fields} {name name' : String} (hname : name ≠ name')
    (h : DescribesFields first c entries) (h' : DescribesFields second d entries')
    (hfirst : first.names.Nodup) (hsecond : second.names.Nodup) :
    Describes (.enum (.cons name first (.cons name' second .nil))) (c.sum d)
      (Sum.elim (fun a => .variant name (entries a)) (fun b => .variant name' (entries' b))) where
  decode bytes := by
    cases bytes with
    | nil => rfl
    | cons byte rest =>
        rw [Ty.decode, Codec.sum_decode_cons]
        by_cases hzero : byte = 0
        · subst hzero
          rw [if_pos rfl, Option.map_map]
          exact (congrArg (Option.map _) (h.decode rest)).trans (Option.map_map ..)
        · by_cases hone : byte = 1
          · subst hone
            rw [if_neg hzero, if_pos rfl, Option.map_map]
            exact (congrArg (Option.map _) (h'.decode rest)).trans (Option.map_map ..)
          · obtain ⟨n, hn⟩ : ∃ n, byte.toNat = n + 2 := by
              have h0 : byte.toNat ≠ 0 := fun h => hzero (UInt8.toNat_inj.mp h)
              have h1 : byte.toNat ≠ 1 := fun h => hone (UInt8.toNat_inj.mp h)
              exact ⟨byte.toNat - 2, by omega⟩
            rw [if_neg hzero, if_neg hone, hn]
            rfl
  encode s := by
    cases s with
    | inl a => simp [Ty.encode, Variants.encode, h.encode_self hfirst, Codec.sum]
    | inr b => simp [Ty.encode, Variants.encode, h'.encode_self hsecond, hname.symm, Codec.sum]

end Schema

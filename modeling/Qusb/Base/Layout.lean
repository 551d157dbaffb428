import Qusb.Base.Bytes
import Mathlib.Logic.Equiv.Defs

/-! Fixed-width byte layouts, as of a packed C structure.

A `Layout α` writes a value in exactly `width` bytes and reads it back from the front of a byte string;
reading fails when the string is too short or when its bytes are no value of `α`. The laws are fields, so
a layout built from the combinators below (integers, byte-wide enumerations, pairs, renamed records)
round-trips by construction. -/

namespace ByteCodec

structure Layout (α : Type*) where
  width : Nat
  encode : α → Bytes
  decode : Bytes → Option α
  length_encode : ∀ a, (encode a).length = width
  decode_encode : ∀ a rest, decode (encode a ++ rest) = some a
  encode_decode : ∀ bs a, decode bs = some a → bs.take width = encode a

/-- An enumeration stored in one byte. -/
structure ByteEnum (α : Type*) where
  toByte : α → UInt8
  ofByte : UInt8 → Option α
  ofByte_toByte : ∀ a, ofByte (toByte a) = some a
  toByte_ofByte : ∀ b a, ofByte b = some a → toByte a = b

namespace Layout

variable {α β : Type*}

/-- What decodes is the encoding of the value followed by some rest. -/
theorem eq_append_of_decode (L : Layout α) {bs : Bytes} {a : α} (h : L.decode bs = some a) :
    bs = L.encode a ++ bs.drop L.width := by
  rw [← L.encode_decode bs a h, List.take_append_drop]

/-- Bytes after the layout do not change what is read. -/
theorem decode_append (L : Layout α) {bs : Bytes} (rest : Bytes) (h : L.width ≤ bs.length) :
    L.decode (bs ++ rest) = L.decode bs := by
  cases hd : L.decode bs with
  | some a =>
      rw [L.eq_append_of_decode hd, List.append_assoc]
      exact L.decode_encode a _
  | none =>
      cases hd' : L.decode (bs ++ rest) with
      | none => rfl
      | some a =>
          have htake := L.encode_decode _ a hd'
          rw [List.take_append_of_le_length h] at htake
          have hbs : bs = L.encode a ++ bs.drop L.width := by
            rw [← htake, List.take_append_drop]
          rw [hbs, L.decode_encode] at hd
          cases hd

/-- Too few bytes are not read. -/
theorem decode_of_lt (L : Layout α) {bs : Bytes} (h : bs.length < L.width) : L.decode bs = none := by
  cases hd : L.decode bs with
  | none => rfl
  | some a =>
      have hlen := congrArg List.length (L.encode_decode bs a hd)
      rw [List.length_take, L.length_encode] at hlen
      omega

theorem decode_take (L : Layout α) {bs : Bytes} {n : Nat} (hn : L.width ≤ n)
    (h : L.width ≤ bs.length) : L.decode (bs.take n) = L.decode bs := by
  have hlen : L.width ≤ (bs.take n).length := by
    rw [List.length_take]
    omega
  have happ := L.decode_append (bs.drop n) hlen
  rw [List.take_append_drop] at happ
  exact happ.symm

theorem drop_encode_append (L : Layout α) (a : α) (rest : Bytes) :
    (L.encode a ++ rest).drop L.width = rest :=
  List.drop_left' (L.length_encode a)

/-- A little-endian integer of `w` bytes, carried by a type in bijection with the numbers below
`256 ^ w`. -/
def ofNatLE (w : Nat) (toNat : α → Nat) (ofNat : Nat → α)
    (hlt : ∀ a, toNat a < 256 ^ w) (hof : ∀ a, ofNat (toNat a) = a)
    (hto : ∀ n, n < 256 ^ w → toNat (ofNat n) = n) : Layout α where
  width := w
  encode a := leBytes w (toNat a)
  decode bs := if w ≤ bs.length then some (ofNat (leNat (bs.take w))) else none
  length_encode a := leBytes_length w _
  decode_encode a rest := by
    have htake : (leBytes w (toNat a) ++ rest).take w = leBytes w (toNat a) :=
      List.take_left' (leBytes_length w _)
    have hlen : w ≤ (leBytes w (toNat a) ++ rest).length := by simp
    rw [if_pos hlen, htake, leNat_leBytes, Nat.mod_eq_of_lt (hlt a), hof]
  encode_decode bs a h := by
    split at h
    · next hlen =>
        have hw : (bs.take w).length = w := by
          rw [List.length_take]
          omega
        have hbound := leNat_lt (bs.take w)
        rw [hw] at hbound
        rw [← Option.some.inj h, hto _ hbound]
        have hround := leBytes_leNat (bs.take w)
        rw [hw] at hround
        exact hround.symm
    · cases h

def u8 : Layout UInt8 :=
  ofNatLE 1 UInt8.toNat UInt8.ofNat (fun a => by simpa using a.toNat_lt)
    (fun a => UInt8.ofNat_toNat) (fun n hn => UInt8.toNat_ofNat_of_lt' (by simpa using hn))

def u16 : Layout UInt16 :=
  ofNatLE 2 UInt16.toNat UInt16.ofNat (fun a => by simpa using a.toNat_lt)
    (fun a => UInt16.ofNat_toNat) (fun n hn => UInt16.toNat_ofNat_of_lt' (by simpa using hn))

def u32 : Layout UInt32 :=
  ofNatLE 4 UInt32.toNat UInt32.ofNat (fun a => by simpa using a.toNat_lt)
    (fun a => UInt32.ofNat_toNat) (fun n hn => UInt32.toNat_ofNat_of_lt' (by simpa using hn))

def enum (E : ByteEnum α) : Layout α where
  width := 1
  encode a := [E.toByte a]
  decode
    | [] => none
    | b :: _ => E.ofByte b
  length_encode _ := rfl
  decode_encode a _ := E.ofByte_toByte a
  encode_decode bs a h := by
    cases bs with
    | nil => cases h
    | cons b bs =>
        rw [← E.toByte_ofByte b a h]
        simp

/-- One field after another. -/
def pair (L : Layout α) (M : Layout β) : Layout (α × β) where
  width := L.width + M.width
  encode p := L.encode p.1 ++ M.encode p.2
  decode bs := (L.decode bs).bind fun a => (M.decode (bs.drop L.width)).map fun b => (a, b)
  length_encode p := by rw [List.length_append, L.length_encode, M.length_encode]
  decode_encode p rest := by
    rw [List.append_assoc, L.decode_encode, Option.bind_some, L.drop_encode_append,
      M.decode_encode, Option.map_some]
  encode_decode bs p h := by
    obtain ⟨a, ha, hrest⟩ := Option.bind_eq_some_iff.mp h
    obtain ⟨b, hb, rfl⟩ := Option.map_eq_some_iff.mp hrest
    rw [List.take_add, L.encode_decode bs a ha, M.encode_decode _ b hb]

/-- The layout of a record with the given fields. -/
def rename (L : Layout α) (e : β ≃ α) : Layout β where
  width := L.width
  encode b := L.encode (e b)
  decode bs := (L.decode bs).map e.symm
  length_encode b := L.length_encode (e b)
  decode_encode b rest := by rw [L.decode_encode, Option.map_some, e.symm_apply_apply]
  encode_decode bs b h := by
    obtain ⟨a, ha, rfl⟩ := Option.map_eq_some_iff.mp h
    rw [e.apply_symm_apply]
    exact L.encode_decode bs a ha

/-- A tag, followed by a value of the kind that the tag names. -/
def tagged {τ : Type} {body : τ → Type} (T : Layout τ) (w : Nat) (L : (t : τ) → Layout (body t))
    (hw : ∀ t, (L t).width = w) : Layout (Σ t, body t) where
  width := T.width + w
  encode p := T.encode p.1 ++ (L p.1).encode p.2
  decode bs := (T.decode bs).bind fun t => ((L t).decode (bs.drop T.width)).map fun a => ⟨t, a⟩
  length_encode p := by rw [List.length_append, T.length_encode, (L p.1).length_encode, hw]
  decode_encode p rest := by
    rw [List.append_assoc, T.decode_encode, Option.bind_some, T.drop_encode_append,
      (L p.1).decode_encode, Option.map_some]
  encode_decode bs p h := by
    obtain ⟨t, ht, hrest⟩ := Option.bind_eq_some_iff.mp h
    obtain ⟨a, ha, rfl⟩ := Option.map_eq_some_iff.mp hrest
    rw [List.take_add, T.encode_decode bs t ht, ← hw t, (L t).encode_decode _ a ha]

/-- Bytes that mean nothing. -/
def pad (w : Nat) : Layout { bs : Bytes // bs.length = w } where
  width := w
  encode p := p.1
  decode bs :=
    if h : w ≤ bs.length then some ⟨bs.take w, by rw [List.length_take]; omega⟩ else none
  length_encode p := p.2
  decode_encode p rest := by
    obtain ⟨bs, rfl⟩ := p
    simp
  encode_decode bs p h := by
    split at h
    · cases h
      rfl
    · cases h

/-- One value after another. -/
def encodeAll (L : Layout α) (as : List α) : Bytes := as.flatMap L.encode

/-- The given number of values from the front of a byte string. -/
def decodeAll (L : Layout α) : Nat → Bytes → Option (List α)
  | 0, _ => some []
  | n + 1, bs => (L.decode bs).bind fun a => (L.decodeAll n (bs.drop L.width)).map (a :: ·)

theorem length_encodeAll (L : Layout α) (as : List α) :
    (L.encodeAll as).length = as.length * L.width := by
  induction as with
  | nil => simp [encodeAll]
  | cons a as ih =>
      have hcons : L.encodeAll (a :: as) = L.encode a ++ L.encodeAll as := rfl
      rw [hcons, List.length_append, L.length_encode, ih, List.length_cons, Nat.succ_mul]
      omega

theorem decodeAll_encodeAll (L : Layout α) (as : List α) (rest : Bytes) :
    L.decodeAll as.length (L.encodeAll as ++ rest) = some as := by
  induction as with
  | nil => rfl
  | cons a as ih =>
      have hcons : L.encodeAll (a :: as) ++ rest = L.encode a ++ (L.encodeAll as ++ rest) :=
        List.append_assoc _ _ _
      rw [hcons, List.length_cons, decodeAll, L.decode_encode, Option.bind_some,
        L.drop_encode_append, ih]
      rfl

end Layout
end ByteCodec

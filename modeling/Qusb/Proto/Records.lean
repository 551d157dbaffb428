import Mathlib.Data.List.Infix
import Qusb.Proto.Data

/-! A sequence of records of varying length, read off a byte string.

Each record ends in a slice whose length is found in its first bytes. `Measures` is what a reader of that
length owes: on a record followed by anything it finds the length of the slice, and on a record that is cut
short it asks for more. The iterator over the records stops at the first that it cannot read; it yields all
of them from a whole sequence, and from a sequence that is cut short those that are whole. -/

open ByteCodec

namespace Qusb.Proto

/-- A part of a byte string is shorter. -/
theorem length_lt_of_prefix {p bytes : Bytes} (hpart : p <+: bytes) (hne : p ≠ bytes) : p.length < bytes.length :=
  lt_of_le_of_ne hpart.length_le fun heq => hne (hpart.eq_of_length heq)

section

variable (T : Type) [GetSliceLen T]

/-- The size of a `T` whose slice has `n` elements. -/
def sizeWithElems (n : Nat) : Nat := GetSliceLen.sizeOfHeader T + n * GetSliceLen.sizeOfData T

/-- `T::try_ref_from_prefix_with_elems`. -/
def tryRefFromPrefixWithElems (bs : Bytes) (n : Nat) : Option (T × Bytes) :=
  if sizeWithElems T n ≤ bs.length then
    (tryRefFromBytes T (bs.take (sizeWithElems T n))).map fun item => (item, bs.drop (sizeWithElems T n))
  else none

/-- `IterDst::next`, with the bytes that are left. -/
def IterDst.next (b : Build) (buf : Bytes) : Except Fault (Option (T × Bytes)) :=
  match GetSliceLen.getSliceLen T b buf with
  | .error f => .error f
  | .ok (.error _) => .ok none
  | .ok (.ok len) => .ok (tryRefFromPrefixWithElems T buf len)

/-- What the reader of the length of a slice owes, on a value of the given bytes whose slice has `n`
elements. -/
structure Measures (b : Build) (bytes : Bytes) (n : Nat) : Prop where
  size : sizeWithElems T n = bytes.length
  exact : ∀ t, GetSliceLen.getSliceLen T b (bytes ++ t) = .ok (.ok n)
  short : ∀ p, p <+: bytes → p ≠ bytes →
    ∃ k, 0 < k ∧ GetSliceLen.getSliceLen T b p = .ok (.error (.bufferShort k))

variable {T}

theorem tryRefFromPrefixWithElems_length {bs rest : Bytes} {n : Nat} {item : T}
    (hpos : 0 < GetSliceLen.sizeOfHeader T)
    (h : tryRefFromPrefixWithElems T bs n = some (item, rest)) : rest.length < bs.length := by
  unfold tryRefFromPrefixWithElems at h
  split at h
  · next hle =>
      obtain ⟨item', -, heq⟩ := Option.map_eq_some_iff.mp h
      cases heq
      unfold sizeWithElems at hle ⊢
      rw [List.length_drop]
      omega
  · cases h

/-- Each record takes at least its header off the front. -/
theorem IterDst.next_length {b : Build} {buf rest : Bytes} {item : T}
    (hpos : 0 < GetSliceLen.sizeOfHeader T) (h : next T b buf = .ok (some (item, rest))) :
    rest.length < buf.length := by
  unfold next at h
  split at h
  · cases h
  · cases h
  · exact tryRefFromPrefixWithElems_length hpos (Except.ok.inj h)

/-- The items of `Ring::iter_dst`. -/
def iterDst (hpos : 0 < GetSliceLen.sizeOfHeader T) (b : Build) (buf : Bytes) : Except Fault (List T) :=
  match _h : IterDst.next T b buf with
  | .error f => .error f
  | .ok none => .ok []
  | .ok (some (item, rest)) => (iterDst hpos b rest).map (item :: ·)
termination_by buf.length
decreasing_by exact IterDst.next_length hpos _h

/-! ### Sequences of records -/

variable {hpos : 0 < GetSliceLen.sizeOfHeader T} {b : Build}

theorem iterDst_of_error {buf : Bytes} {err : GetSliceLenErr}
    (h : GetSliceLen.getSliceLen T b buf = .ok (.error err)) : iterDst hpos b buf = .ok [] := by
  have hnext : IterDst.next T b buf = .ok none := by
    unfold IterDst.next
    rw [h]
  unfold iterDst
  split
  · next heq => cases hnext.symm.trans heq
  · rfl
  · next heq => cases hnext.symm.trans heq

/-- The iterator takes a whole record off the front. -/
theorem iterDst_cons {bytes : Bytes} {n : Nat} {v : T} (hmeasures : Measures T b bytes n)
    (hvalid : tryRefFromBytes T bytes = some v) (rest : Bytes) :
    iterDst hpos b (bytes ++ rest) = (iterDst hpos b rest).map (v :: ·) := by
  have hnext : IterDst.next T b (bytes ++ rest) = .ok (some (v, rest)) := by
    unfold IterDst.next tryRefFromPrefixWithElems
    rw [hmeasures.exact]
    simp only
    rw [hmeasures.size, if_pos (by rw [List.length_append]; exact Nat.le_add_right _ _),
      List.take_left, List.drop_left, hvalid]
    rfl
  rw [iterDst]
  split
  · next heq => cases hnext.symm.trans heq
  · next heq => cases hnext.symm.trans heq
  · next heq =>
      cases hnext.symm.trans heq
      rfl

variable {α : Type} {value : α → T} {encode : α → Bytes} {count : α → Nat}

/-- **A whole sequence** of records is read back. -/
theorem iterDst_all (hmeasures : ∀ a, Measures T b (encode a) (count a))
    (hvalid : ∀ a, tryRefFromBytes T (encode a) = some (value a)) {err : GetSliceLenErr}
    (hnil : GetSliceLen.getSliceLen T b [] = .ok (.error err)) (as : List α) :
    iterDst hpos b (as.flatMap encode) = .ok (as.map value) := by
  induction as with
  | nil => exact iterDst_of_error hnil
  | cons a as ih =>
      rw [List.flatMap_cons, iterDst_cons (hmeasures a) (hvalid a), ih]
      rfl

/-- **A sequence that is cut short** yields fewer records. -/
theorem iterDst_cut (hmeasures : ∀ a, Measures T b (encode a) (count a))
    (hvalid : ∀ a, tryRefFromBytes T (encode a) = some (value a)) {as : List α} {p : Bytes}
    (hpart : p <+: as.flatMap encode) (hcut : p ≠ as.flatMap encode) :
    ∃ k < as.length, iterDst hpos b p = .ok ((as.take k).map value) := by
  induction as generalizing p with
  | nil => exact absurd (List.prefix_nil.mp hpart) hcut
  | cons a as ih =>
      rw [List.flatMap_cons] at hpart hcut
      rcases Nat.lt_or_ge p.length (encode a).length with hlt | hge
      · have hshort : p <+: encode a :=
          List.prefix_of_prefix_length_le hpart (List.prefix_append _ _) hlt.le
        obtain ⟨k, -, herr⟩ := (hmeasures a).short p hshort (by rintro rfl; exact absurd hlt (lt_irrefl _))
        exact ⟨0, Nat.succ_pos _, iterDst_of_error herr⟩
      · obtain ⟨q, rfl⟩ : encode a <+: p :=
          List.prefix_of_prefix_length_le (List.prefix_append _ _) hpart hge
        obtain ⟨k, hk, hrest⟩ := ih ((List.prefix_append_right_inj _).mp hpart) fun heq => hcut (by rw [heq])
        refine ⟨k + 1, Nat.succ_lt_succ hk, ?_⟩
        rw [iterDst_cons (hmeasures a) (hvalid a), hrest]
        rfl

end

end Qusb.Proto

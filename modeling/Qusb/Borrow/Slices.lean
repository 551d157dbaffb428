import Qusb.Borrow.Send

/-! The unchecked accesses of a submission.

`process_urb` reserves a frame whose length is computed from the fields of its header, and cuts it by the
lengths of the URB without a check. The fields are the lengths modulo 2^16, so the cuts are in bounds as long
as the lengths fit. -/

open ByteCodec Tables

namespace Qusb.Borrow

open Msg Proto

namespace BorrowSendHandler

def headerLen : Nat := Header.size + UrbHeader.size

def realTransferLen (urb : IocUrb) : Nat :=
  (urbHeader urb).paddedTransferLen * (urbHeader urb).isOut.toNat

/-- What `process_urb` cuts a frame into. -/
structure Slices where
  frame : Bytes
  data : Bytes
  transfer : Bytes
  isoRaw : Bytes

/-- The slices of the frame of a URB, in reserved memory that holds `mem`. -/
def slices (mem : Nat → UInt8) (urb : IocUrb) : Slices :=
  let frame := (List.range (headerLen + dataLen urb)).map mem
  let data := frame.drop headerLen
  ⟨frame, data, data.take (realTransferLen urb), data.drop (realTransferLen urb)⟩

/-- What the unsafe operations of `process_urb` need: the two splits, the slice of the transfer and the
packets are within what they are cut from. -/
structure InBounds (mem : Nat → UInt8) (urb : IocUrb) : Prop where
  headers : headerLen ≤ (slices mem urb).frame.length
  transfer : realTransferLen urb ≤ (slices mem urb).data.length
  actual : asUsize urb.bufferLength * (urbHeader urb).isOut.toNat ≤ (slices mem urb).transfer.length
  packets : (slices mem urb).isoRaw.length = asUsize urb.packetCount * UrbHeader.isoPacketSize

/-! ### The lengths of the slices -/

section

variable (mem : Nat → UInt8) (urb : IocUrb)

theorem slices_frame_length : (slices mem urb).frame.length = headerLen + dataLen urb := by
  simp [slices]

theorem slices_data_length : (slices mem urb).data.length = dataLen urb := by
  simp [slices]

theorem realTransferLen_le : realTransferLen urb ≤ dataLen urb := Nat.le_add_right _ _

variable {urb} {data : Bytes}

theorem transfer_length (h : data.length = dataLen urb) :
    (data.take (realTransferLen urb)).length = realTransferLen urb := by
  rw [List.length_take, h, min_eq_left (realTransferLen_le urb)]

theorem isoRaw_length (h : data.length = dataLen urb) :
    (data.drop (realTransferLen urb)).length = (urbHeader urb).isoByteLen := by
  rw [List.length_drop, h]
  exact Nat.add_sub_cancel_left _ _

end

/-! ### Truncated lengths -/

theorem eq_ofNat_iff {n : Nat} : (UInt16.ofNat n).toNat = n ↔ n ≤ 65535 := by
  rw [UInt16.toNat_ofNat']
  omega

/-- A length is at most its truncation, rounded up, only if nothing is cut off. -/
theorem le_align_ofNat_iff {n : Nat} : n ≤ ((UInt16.ofNat n).toNat + 7) / 8 * 8 ↔ n ≤ 65535 := by
  rw [UInt16.toNat_ofNat']
  omega

theorem packets_iff (urb : IocUrb) :
    (urbHeader urb).isoByteLen = asUsize urb.packetCount * UrbHeader.isoPacketSize ↔
      asUsize urb.packetCount ≤ 65535 :=
  (Nat.mul_left_inj (by decide)).trans eq_ofNat_iff

theorem actual_iff (urb : IocUrb) :
    asUsize urb.bufferLength * (urbHeader urb).isOut.toNat ≤ realTransferLen urb ↔
      ((urbHeader urb).isOut → asUsize urb.bufferLength ≤ 65535) := by
  unfold realTransferLen
  cases (urbHeader urb).isOut with
  | false => simp
  | true =>
      have hpadded := (urbHeader urb).paddedTransferLen_eq
      have hfield : (urbHeader urb).actualTransferLen = UInt16.ofNat (asUsize urb.bufferLength) := rfl
      rw [hpadded, hfield]
      simpa using le_align_ofNat_iff

/-- The first two cuts are always in bounds; the others are if the lengths are not truncated. -/
theorem inBounds_iff (mem : Nat → UInt8) (urb : IocUrb) :
    InBounds mem urb ↔
      asUsize urb.packetCount ≤ 65535 ∧ ((urbHeader urb).isOut → asUsize urb.bufferLength ≤ 65535) := by
  rw [← packets_iff, ← actual_iff]
  constructor
  · rintro ⟨-, -, hactual, hpackets⟩
    exact ⟨(isoRaw_length (slices_data_length mem urb)).symm.trans hpackets,
      hactual.trans_eq (transfer_length (slices_data_length mem urb))⟩
  · rintro ⟨hpackets, hactual⟩
    exact
      { headers := by
          rw [slices_frame_length]
          exact Nat.le_add_right _ _
        transfer := by
          rw [slices_data_length]
          exact realTransferLen_le urb
        actual := hactual.trans_eq (transfer_length (slices_data_length mem urb)).symm
        packets := (isoRaw_length (slices_data_length mem urb)).trans hpackets }

/-- The cuts that are not made with a check are what a fetch of the data can go wrong with. -/
theorem urbData_undefinedBehaviour_iff (mem : Nat → UInt8) (urb : IocUrb) (fetched : Fetched) :
    urbData mem urb fetched = .error .undefinedBehaviour ↔
      ¬(asUsize urb.packetCount ≤ 65535 ∧ ((urbHeader urb).isOut → asUsize urb.bufferLength ≤ 65535)) := by
  have hdata : ((List.range (dataLen urb)).map mem).length = dataLen urb := by
    rw [List.length_map, List.length_range]
  have hpadded := transfer_length hdata
  have hraw := isoRaw_length hdata
  rw [← packets_iff, ← actual_iff, not_and_or, Nat.not_le]
  unfold urbData
  simp only
  unfold realTransferLen at hpadded hraw ⊢
  rw [hpadded, hraw]
  split
  · next hlt => simp [hlt]
  · next hle =>
      split
      · next hne => simp [hne]
      · next heq =>
          have hfits : asUsize urb.bufferLength * (urbHeader urb).isOut.toNat ≤
              (urbHeader urb).paddedTransferLen * (urbHeader urb).isOut.toNat := by omega
          simp only [heq, false_or, Nat.not_lt.mpr hfits]
          split <;> simp

/-- Nothing else in a submission has undefined behaviour. -/
theorem processUrb_defined_iff (mem : Nat → UInt8) (urb : IocUrb) :
    (∀ b h linker handle fetched, processUrb b mem h linker urb handle fetched ≠ .error .undefinedBehaviour) ↔
      asUsize urb.packetCount ≤ 65535 ∧ ((urbHeader urb).isOut → asUsize urb.bufferLength ≤ 65535) := by
  constructor
  · intro hdefined
    by_contra hcut
    have hdata := (urbData_undefinedBehaviour_iff mem urb (.ok ([], []))).mpr hcut
    refine hdefined .release .new .empty ⟨0⟩ (.ok ([], [])) ?_
    unfold processUrb increment
    simp [Build.debugAssert, Build.addU32, hdata]
  · intro hfits b h linker handle fetched hub
    have hdata : urbData mem urb fetched ≠ .error .undefinedBehaviour := fun heq =>
      (urbData_undefinedBehaviour_iff mem urb fetched).mp heq hfits
    unfold processUrb increment at hub
    rcases bind_eq_error_iff.mp hub with hassert | ⟨_, -, hub⟩
    · cases Build.debugAssert_eq_error hassert
    rcases bind_eq_error_iff.mp hub with hinc | ⟨_, -, hub⟩
    · rcases bind_eq_error_iff.mp hinc with hadd | ⟨_, -, hinc⟩
      · cases Build.addU32_eq_error hadd
      · cases hinc
    rcases bind_eq_error_iff.mp hub with hub | ⟨result, -, hub⟩
    · exact hdata hub
    · cases result <;> cases hub

/-- **The unchecked accesses are in bounds** exactly if no length is cut off in the header: at most 65535
packets, and to the device at most 65535 bytes. Otherwise a submission has undefined behaviour. -/
theorem in_bounds_iff (mem : Nat → UInt8) {urb : IocUrb} (hlength : 0 ≤ urb.bufferLength.toInt)
    (hcount : 0 ≤ urb.packetCount.toInt) :
    (InBounds mem urb ↔ urb.packetCount.toInt ≤ 65535 ∧
      ((urbHeader urb).isOut → urb.bufferLength.toInt ≤ 65535)) ∧
    (InBounds mem urb ↔ ∀ b h linker handle fetched,
      processUrb b mem h linker urb handle fetched ≠ .error .undefinedBehaviour) := by
  have hlength' := asUsize_of_nonneg hlength
  have hcount' := asUsize_of_nonneg hcount
  refine ⟨?_, (inBounds_iff mem urb).trans (processUrb_defined_iff mem urb).symm⟩
  rw [inBounds_iff, ← hlength', ← hcount']
  exact and_congr (by omega) (imp_congr_right fun _ => by omega)

/-- A full packet to the device. -/
theorem packet_in_bounds :
    let urb : IocUrb := ⟨.bulk, ⟨1⟩, ⟨0x01⟩, .zero, 512, 0, 0, 0⟩
    InBounds (fun _ => 0) urb :=
  (in_bounds_iff _ (by decide) (by decide)).1.mpr (by decide)

/-- 64 KiB to the device: the header says zero bytes, and the slice of the transfer has 65536. -/
theorem transfer_out_of_bounds :
    let urb : IocUrb := ⟨.bulk, ⟨1⟩, ⟨0x01⟩, .zero, 65536, 0, 0, 0⟩
    0 ≤ urb.bufferLength.toInt ∧ 0 ≤ urb.packetCount.toInt ∧ ¬ InBounds (fun _ => 0) urb := by
  intro urb
  refine ⟨by decide, by decide, fun h => ?_⟩
  exact absurd ((inBounds_iff _ urb).mp h) (by decide)

end BorrowSendHandler
end Qusb.Borrow

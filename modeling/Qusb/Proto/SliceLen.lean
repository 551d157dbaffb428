import Qusb.Proto.Accepted
import Qusb.Proto.DeviceInfo

/-! The three readers of the length of a slice.

A reader owes the length of the slice on a value whose header describes it, and a request for more bytes on a
part of one. The reader of device records does; the reader of frames multiplies in sixteen bits, and the reader
of URB frames subtracts the size of a header that it did not count. -/

open ByteCodec

namespace Qusb.Proto

open Msg

namespace QusbFrame

/-- The header counts the frame in units of eight bytes. -/
def Described (v : QusbFrame) : Prop := v.header.totalFrameLen.toNat * 8 = Header.size + v.data.length

def asBytes (v : QusbFrame) : Bytes := v.header.asBytes ++ v.data

theorem asBytes_length (v : QusbFrame) : v.asBytes.length = 8 + v.data.length := by
  rw [asBytes, List.length_append, Header.asBytes_length]

theorem lenField_asBytes (v : QusbFrame) (t : Bytes) : lenField (v.asBytes ++ t) = v.header.totalFrameLen := by
  rw [asBytes, List.append_assoc, lenField_header]

end QusbFrame

namespace UrbFrame

/-- The payload has the length that the header prescribes. -/
def Described (v : UrbFrame) : Prop := v.data.length = requiredByteLen v.header

def asBytes (v : UrbFrame) : Bytes := v.header.asBytes ++ v.data

theorem asBytes_length (v : UrbFrame) : v.asBytes.length = 24 + v.data.length := by
  rw [asBytes, List.length_append, UrbHeader.asBytes_length]

end UrbFrame

/-! ### Frames -/

namespace QusbFrame

variable {b : Build} {v : QusbFrame}

/-- The reader, where the multiplication goes through. -/
theorem getSliceLen_of_mul {buf : Bytes} {frameLen : UInt16} (hlen : 2 ≤ buf.length)
    (hmul : b.mulU16 (lenField buf) 8 = .ok frameLen) :
    getSliceLen b buf =
      if frameLen.toNat > buf.length then .ok (.error (.bufferShort (frameLen.toNat - buf.length)))
      else (b.subUsize frameLen.toNat Header.size).map .ok := by
  unfold getSliceLen
  rw [if_neg (Nat.not_lt_of_le hlen), hmul]

/-- The length of a described frame is multiplied out if it fits sixteen bits. -/
theorem mulU16_totalFrameLen (b : Build) (hdescribed : v.Described) (hfits : 8 + v.data.length < 65536) :
    b.mulU16 v.header.totalFrameLen 8 = .ok (v.header.totalFrameLen * 8) ∧
      (v.header.totalFrameLen * 8).toNat = 8 + v.data.length := by
  have hlen : v.header.totalFrameLen.toNat * 8 = 8 + v.data.length := hdescribed
  obtain ⟨hmul, hprod⟩ := mulU16_of_fits b (n := v.header.totalFrameLen) (by omega)
  exact ⟨hmul, by omega⟩

/-- A frame whose length fits sixteen bits is measured. -/
theorem measures (b : Build) (hdescribed : v.Described) (hfits : 8 + v.data.length < 65536) :
    Measures QusbFrame b v.asBytes v.data.length where
  size := by
    rw [v.asBytes_length]
    exact congrArg (8 + ·) (Nat.mul_one _)
  exact t := by
    have hlen : (v.asBytes ++ t).length = 8 + v.data.length + t.length := by
      rw [List.length_append, v.asBytes_length]
    obtain ⟨hmul, hprod⟩ := mulU16_totalFrameLen b hdescribed hfits
    rw [← v.lenField_asBytes t] at hmul
    show getSliceLen b (v.asBytes ++ t) = _
    rw [getSliceLen_of_mul (by omega) hmul, v.lenField_asBytes, hprod, if_neg (by omega),
      Build.subUsize_of_le b (Nat.le_add_right _ _) (by omega)]
    exact congrArg (fun n => Except.ok (Except.ok n)) (Nat.add_sub_cancel_left 8 _)
  short p hp hne := by
    have hlt : p.length < 8 + v.data.length := by
      rw [← v.asBytes_length]
      exact length_lt_of_prefix hp hne
    show ∃ k, 0 < k ∧ getSliceLen b p = _
    rcases Nat.lt_or_ge p.length 2 with hshort | hlen
    · refine ⟨Header.size - p.length, ?_, if_pos hshort⟩
      show 0 < 8 - p.length
      omega
    · obtain ⟨t, ht⟩ := hp
      have hfield : lenField p = v.header.totalFrameLen := by
        rw [← lenField_append hlen t, ht, ← List.append_nil v.asBytes, lenField_asBytes]
      obtain ⟨hmul, hprod⟩ := mulU16_totalFrameLen b hdescribed hfits
      rw [← hfield] at hmul
      rw [getSliceLen_of_mul hlen hmul, hfield, hprod, if_pos hlt]
      exact ⟨_, Nat.sub_pos_of_lt hlt, rfl⟩

/-- Above that the multiplication overflows, or the product is the length modulo 2^16. -/
theorem lt_of_measures (hdescribed : v.Described) (h : Measures QusbFrame b v.asBytes v.data.length) :
    8 + v.data.length < 65536 := by
  have hlen : v.header.totalFrameLen.toNat * 8 = 8 + v.data.length := hdescribed
  have hfield := v.header.totalFrameLen.toNat_lt
  have hexact : getSliceLen b (v.asBytes ++ []) = .ok (.ok v.data.length) := h.exact []
  have hbytes : (v.asBytes ++ []).length = 8 + v.data.length := by
    rw [List.append_nil, v.asBytes_length]
  by_contra hlong
  cases b with
  | dev =>
      have hmul : Build.dev.mulU16 (lenField (v.asBytes ++ [])) 8 = .error .overflow := by
        rw [v.lenField_asBytes]
        exact if_neg (show ¬ v.header.totalFrameLen.toNat * 8 < 2 ^ 16 by omega)
      unfold getSliceLen at hexact
      rw [if_neg (by omega), hmul] at hexact
      cases hexact
  | release =>
      have hprod : (v.header.totalFrameLen * 8).toNat = v.header.totalFrameLen.toNat * 8 % 2 ^ 16 :=
        UInt16.toNat_mul _ 8
      have hmul : Build.release.mulU16 (lenField (v.asBytes ++ [])) 8 = .ok (v.header.totalFrameLen * 8) := by
        rw [v.lenField_asBytes]
        rfl
      rw [getSliceLen_of_mul (by omega) hmul, if_neg (by omega)] at hexact
      have hsub : ((v.header.totalFrameLen * 8).toNat + 2 ^ 64 - 8) % 2 ^ 64 = v.data.length :=
        Except.ok.inj (Except.ok.inj hexact)
      omega

end QusbFrame

/-! ### URB frames -/

namespace UrbFrame

variable {b : Build} {v : UrbFrame}

theorem decode_asBytes (v : UrbFrame) (t : Bytes) :
    UrbHeader.layout.decode (v.asBytes ++ t) = some v.header := by
  rw [asBytes, List.append_assoc]
  exact UrbHeader.layout.decode_encode _ _

/-- The reader, where there is a header. -/
theorem getSliceLen_of_decode {buf : Bytes} {header : UrbHeader}
    (h : UrbHeader.layout.decode buf = some header) :
    getSliceLen b buf =
      if requiredByteLen header > (buf.drop UrbHeader.size).length then
        .ok (.error (.bufferShort (requiredByteLen header - (buf.drop UrbHeader.size).length)))
      else (b.subUsize (requiredByteLen header) UrbHeader.size).map .ok := by
  unfold getSliceLen
  rw [h]
  rfl

theorem requiredByteLen_lt (header : UrbHeader) : requiredByteLen header < 2 ^ 20 := by
  have hpadded := header.paddedTransferLen_le
  have hpackets := header.isoPacketCount.toNat_lt
  have hiso : header.isoByteLen = header.isoPacketCount.toNat * 8 := rfl
  have htransfer : (hasTransfer header).toNat ≤ 1 := Bool.toNat_le _
  have hmul := Nat.mul_le_mul hpadded htransfer
  unfold requiredByteLen
  omega

/-- A part of a URB frame is found too short. -/
theorem short_of_prefix (b : Build) (hdescribed : v.Described) {p : Bytes} (hp : p <+: v.asBytes)
    (hne : p ≠ v.asBytes) : ∃ k, 0 < k ∧ getSliceLen b p = .ok (.error (.bufferShort k)) := by
  have hrequired : v.data.length = requiredByteLen v.header := hdescribed
  have hlt : p.length < 24 + v.data.length := by
    rw [← v.asBytes_length]
    exact length_lt_of_prefix hp hne
  rcases Nat.lt_or_ge p.length 24 with hshort | hlen
  · have hdecode : UrbHeader.layout.decode p = none := UrbHeader.layout.decode_of_lt hshort
    refine ⟨24 - p.length, Nat.sub_pos_of_lt hshort, ?_⟩
    unfold getSliceLen
    rw [hdecode]
    exact if_pos hshort
  · obtain ⟨t, ht⟩ := hp
    have hdecode : UrbHeader.layout.decode p = some v.header := by
      rw [← UrbHeader.layout.decode_append t hlen, ht, ← List.append_nil v.asBytes, decode_asBytes]
    have hrest : (p.drop UrbHeader.size).length = p.length - 24 := List.length_drop
    rw [getSliceLen_of_decode hdecode, if_pos (by omega)]
    exact ⟨_, Nat.sub_pos_of_lt (by omega), rfl⟩

/-- A whole one is found too long by the size of its header. -/
theorem not_measures (hdescribed : v.Described) : ¬ Measures UrbFrame b v.asBytes v.data.length := by
  intro h
  have hexact : getSliceLen b (v.asBytes ++ []) = .ok (.ok v.data.length) := h.exact []
  have hrequired : v.data.length = requiredByteLen v.header := hdescribed
  have hlt := requiredByteLen_lt v.header
  have hdrop : ((v.asBytes ++ []).drop UrbHeader.size).length = v.data.length := by
    rw [List.append_nil, asBytes, List.drop_left' (UrbHeader.asBytes_length _)]
  rw [getSliceLen_of_decode (v.decode_asBytes []), hdrop, ← hrequired, if_neg (lt_irrefl _)] at hexact
  cases b with
  | dev =>
      simp only [Build.subUsize] at hexact
      split at hexact
      · next hle =>
          have hsize : UrbHeader.size = 24 := rfl
          have hsub : v.data.length - 24 = v.data.length := Except.ok.inj (Except.ok.inj hexact)
          omega
      · cases hexact
  | release =>
      have hsub : (v.data.length + 2 ^ 64 - 24) % 2 ^ 64 = v.data.length := Except.ok.inj (Except.ok.inj hexact)
      omega

end UrbFrame

/-! ### The contract -/

/-- **The contract of the three readers.** The length of a frame is found exactly if it fits sixteen bits; that
of a URB frame never is, though a part of one is found too short; that of a device record always is. -/
theorem getSliceLen_contract_iff (b : Build) :
    (∀ v : QusbFrame, v.Described →
      (Measures QusbFrame b v.asBytes v.data.length ↔ 8 + v.data.length < 65536)) ∧
    (∀ v : UrbFrame, v.Described → ¬ Measures UrbFrame b v.asBytes v.data.length ∧
      ∀ p, p <+: v.asBytes → p ≠ v.asBytes →
        ∃ k, 0 < k ∧ UrbFrame.getSliceLen b p = .ok (.error (.bufferShort k))) ∧
    (∀ info : UsbDeviceInfo, info.Described → Measures UsbDeviceInfo b info.asBytes info.interfaces.length) :=
  ⟨fun _ hdescribed => ⟨QusbFrame.lt_of_measures hdescribed, QusbFrame.measures b hdescribed⟩,
    fun _ hdescribed => ⟨UrbFrame.not_measures hdescribed, fun _ => UrbFrame.short_of_prefix b hdescribed⟩,
    fun _ hdescribed => UsbDeviceInfo.measures b hdescribed⟩

/-- A submission that carries nothing, with its URB header as payload. -/
def bareFrame : QusbFrame := ⟨⟨4, .cmdSubmit, .success, 0⟩, (bulkHeader 0x81 .pending).asBytes⟩

theorem bareFrame_measured : Measures QusbFrame .dev bareFrame.asBytes 24 :=
  ((getSliceLen_contract_iff .dev).1 bareFrame rfl).mpr (by decide)

/-- The URB header of a read, without a payload. -/
def bareRead : UrbFrame := ⟨bulkHeader 0x81 .pending, []⟩

/-- The length of its payload is 0 - 24. -/
theorem bareRead_underflows :
    bareRead.Described ∧ UrbFrame.getSliceLen .dev bareRead.asBytes = .error .overflow ∧
      UrbFrame.getSliceLen .release bareRead.asBytes = .ok (.ok (2 ^ 64 - 24)) := by
  refine ⟨rfl, ?_, ?_⟩ <;> decide

end Qusb.Proto

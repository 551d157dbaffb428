import Qusb.Proto.Recv

/-! The URB frames that are accepted.

The URB header says how long the payload after it is to be, and whether the URB is still pending. `parse_frame`
compares neither with the frame it found the header in, so a frame that is accepted is well formed only if its
bytes agree with each other. -/

open ByteCodec

namespace Qusb.Proto

open Msg

/-- Whether the transfer is sent in the direction of this frame. -/
def hasTransfer (h : UrbHeader) : Bool := (h.isOut && !h.isReply) || (!h.isOut && h.isReply)

/-- The length of the payload that a URB header prescribes. -/
def requiredByteLen (h : UrbHeader) : Nat := h.paddedTransferLen * (hasTransfer h).toNat + h.isoByteLen

/-- The payload of a URB has the prescribed length, and only a submission is pending. -/
structure WellFormed (command : Command) (data : Data UrbFrame) : Prop where
  length : data.get.data.length = requiredByteLen data.get.header
  pending : data.get.header.status = .pending ↔ command = .cmdSubmit

/-! ### The bytes of a frame -/

section

variable (bs : Bytes)

/-- A little-endian field of two bytes. -/
def fieldAt (offset : Nat) : Nat := leNat ((bs.drop offset).take 2)

def isOutAt : Prop := bs.getD 12 0 &&& 0x80 = 0

def isPendingAt : Prop := bs.getD 16 0 = 1

instance decidableIsOutAt : Decidable (isOutAt bs) := inferInstanceAs (Decidable (_ = _))

instance decidableIsPendingAt : Decidable (isPendingAt bs) := inferInstanceAs (Decidable (_ = _))

/-- The length of a frame and its first byte after the length agree with the URB header in it. -/
structure Agrees : Prop where
  length : bs.length = 32 + (if isOutAt bs ↔ isPendingAt bs then (fieldAt bs 8 + 7) / 8 * 8 else 0) +
    fieldAt bs 10 * 8
  pending : isPendingAt bs ↔ bs.getD 2 0 = 0

end

section

variable (header : Header) (urb : UrbHeader) (payload : Bytes)

theorem commandAt : (header.asBytes ++ (urb.asBytes ++ payload)).getD 2 0 = header.command.toByte := rfl

theorem statusAt : (header.asBytes ++ (urb.asBytes ++ payload)).getD 16 0 = urb.status.toByte := rfl

theorem endpointAt : (header.asBytes ++ (urb.asBytes ++ payload)).getD 12 0 = urb.endpoint.addr :=
  UInt8.ofNat_toNat

theorem actualTransferLenAt :
    fieldAt (header.asBytes ++ (urb.asBytes ++ payload)) 8 = urb.actualTransferLen.toNat := by
  show leNat (leBytes 2 urb.actualTransferLen.toNat) = _
  rw [leNat_leBytes]
  exact Nat.mod_eq_of_lt urb.actualTransferLen.toNat_lt

theorem isoPacketCountAt :
    fieldAt (header.asBytes ++ (urb.asBytes ++ payload)) 10 = urb.isoPacketCount.toNat := by
  show leNat (leBytes 2 urb.isoPacketCount.toNat) = _
  rw [leNat_leBytes]
  exact Nat.mod_eq_of_lt urb.isoPacketCount.toNat_lt

theorem isOutAt_iff : isOutAt (header.asBytes ++ (urb.asBytes ++ payload)) ↔ urb.isOut = true := by
  unfold isOutAt UrbHeader.isOut Endpoint.dir Dir.ofU8
  rw [endpointAt]
  by_cases hbit : urb.endpoint.addr &&& 0x80 = 0 <;> simp [hbit]

theorem isPendingAt_iff :
    isPendingAt (header.asBytes ++ (urb.asBytes ++ payload)) ↔ urb.status = .pending := by
  unfold isPendingAt
  rw [statusAt]
  cases urb.status <;> decide

theorem cmdSubmitAt_iff :
    (header.asBytes ++ (urb.asBytes ++ payload)).getD 2 0 = 0 ↔ header.command = .cmdSubmit := by
  rw [commandAt]
  cases header.command <;> decide

end

/-- A transfer is sent if it goes out and is pending, or comes in and is not. -/
theorem hasTransfer_eq (urb : UrbHeader) : hasTransfer urb = (urb.isOut == decide (urb.status = .pending)) := by
  unfold hasTransfer UrbHeader.isReply UrbHeader.isPending
  cases urb.isOut <;> cases decide (urb.status = .pending) <;> rfl

theorem transferAt_iff (header : Header) (urb : UrbHeader) (payload : Bytes) :
    (isOutAt (header.asBytes ++ (urb.asBytes ++ payload)) ↔
      isPendingAt (header.asBytes ++ (urb.asBytes ++ payload))) ↔ hasTransfer urb = true := by
  rw [isOutAt_iff, isPendingAt_iff, hasTransfer_eq]
  by_cases hpending : urb.status = .pending <;> cases urb.isOut <;> simp [hpending]

/-- The length that the bytes of a frame prescribe is that of its URB header. -/
theorem requiredByteLenAt (header : Header) (urb : UrbHeader) (payload : Bytes) :
    (if isOutAt (header.asBytes ++ (urb.asBytes ++ payload)) ↔
        isPendingAt (header.asBytes ++ (urb.asBytes ++ payload)) then
      (fieldAt (header.asBytes ++ (urb.asBytes ++ payload)) 8 + 7) / 8 * 8 else 0) +
      fieldAt (header.asBytes ++ (urb.asBytes ++ payload)) 10 * 8 = requiredByteLen urb := by
  rw [actualTransferLenAt, isoPacketCountAt, ← urb.paddedTransferLen_eq]
  unfold requiredByteLen
  congr 1
  by_cases htransfer : hasTransfer urb = true
  · rw [if_pos ((transferAt_iff header urb payload).mpr htransfer), htransfer]
    exact (Nat.mul_one _).symm
  · rw [if_neg fun h => htransfer ((transferAt_iff header urb payload).mp h), Bool.eq_false_of_not_eq_true htransfer]
    exact (Nat.mul_zero _).symm

/-- The bytes of a frame agree if the payload has the prescribed length and only a submission is pending. -/
theorem agrees_iff (header : Header) (urb : UrbHeader) (payload : Bytes) :
    Agrees (header.asBytes ++ (urb.asBytes ++ payload)) ↔
      payload.length = requiredByteLen urb ∧ (urb.status = .pending ↔ header.command = .cmdSubmit) := by
  have hlen : (header.asBytes ++ (urb.asBytes ++ payload)).length = 32 + payload.length := by
    rw [List.length_append, List.length_append, Header.asBytes_length, UrbHeader.asBytes_length]
    omega
  have hrequired := requiredByteLenAt header urb payload
  rw [← isPendingAt_iff header urb payload, ← cmdSubmitAt_iff header urb payload]
  constructor
  · rintro ⟨hlength, hpending⟩
    exact ⟨by omega, hpending⟩
  · rintro ⟨hlength, hpending⟩
    exact ⟨by omega, hpending⟩

/-! ### What `parse_frame` accepts -/

theorem urbOf_urb {d : Data QusbFrame} {seq : Seq (Data UrbFrame)} (h : urbOf d = .ok (.urb seq)) :
    d.buf = d.get.header.asBytes ++ (seq.data.get.header.asBytes ++ seq.data.get.data) := by
  unfold urbOf at h
  cases hsplit : d.splitData UrbFrame with
  | none =>
      rw [hsplit] at h
      cases h
  | some data =>
      rw [hsplit] at h
      cases h
      have hdrop : data.buf = d.get.data := by
        rw [Data.buf_of_toOption hsplit, Data.frame_buf d]
        exact List.drop_left' (Header.asBytes_length _)
      rw [← data.urb_buf, hdrop]
      exact d.frame_buf

theorem replyStatus_eq_ok {status : Status} {success : Except AbortableError Frame} {frame : Frame}
    (h : replyStatus status success = .ok (.ok frame)) : status = .success ∧ success = .ok frame := by
  cases status with
  | success => exact ⟨rfl, Except.ok.inj h⟩
  | _ => cases h

/-- A frame that is accepted as a URB is a submission or a successful reply, and its bytes are the two headers
and the payload. -/
theorem parseFrame_urb {d : Data QusbFrame} {seq : Seq (Data UrbFrame)}
    (h : parseFrame d = .ok (.ok (.urb seq))) :
    (d.get.header.command = .cmdSubmit ∨
      (d.get.header.command = .retSubmit ∧ d.get.header.status = .success)) ∧
    d.buf = d.get.header.asBytes ++ (seq.data.get.header.asBytes ++ seq.data.get.data) := by
  unfold parseFrame at h
  simp only at h
  cases hcommand : d.get.header.command with
  | retSubmit =>
      rw [hcommand] at h
      obtain ⟨hstatus, hurb⟩ := replyStatus_eq_ok h
      exact ⟨Or.inr ⟨rfl, hstatus⟩, urbOf_urb hurb⟩
  | cmdSubmit =>
      rw [hcommand] at h
      exact ⟨Or.inl rfl, urbOf_urb (Except.ok.inj h)⟩
  | cmdUnlink =>
      rw [hcommand] at h
      cases h
  | cmdPort =>
      rw [hcommand] at h
      cases h
  | retPort =>
      rw [hcommand] at h
      cases (replyStatus_eq_ok h).2

/-- An accepted frame is well formed if its bytes agree. -/
theorem wellFormed_iff_agrees {d : Data QusbFrame} {seq : Seq (Data UrbFrame)}
    (h : parseFrame d = .ok (.ok (.urb seq))) :
    WellFormed d.get.header.command seq.data ↔ Agrees d.buf := by
  obtain ⟨-, hbuf⟩ := parseFrame_urb h
  rw [hbuf, agrees_iff]
  exact ⟨fun hwf => ⟨hwf.length, hwf.pending⟩, fun hagrees => ⟨hagrees.1, hagrees.2⟩⟩

/-- A frame of the two headers. -/
def bareUrb (command : Command) (urb : UrbHeader) : Data QusbFrame where
  buf := Header.asBytes ⟨4, command, .success, 0⟩ ++ urb.asBytes
  valid := by
    rw [tryRef_header]
    rfl

/-- A bulk transfer of 512 bytes with the given endpoint and status. -/
def bulkHeader (endpoint : UInt8) (status : TransferStatus) : UrbHeader :=
  ⟨512, 0, ⟨endpoint⟩, .bulk, 0, status, (0, 0, 0), 0, 0, .zero⟩

end Qusb.Proto

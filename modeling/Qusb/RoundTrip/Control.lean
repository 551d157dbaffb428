import Qusb.RoundTrip.Request

/-! The buffers of control transfers.

libusb transfers as many bytes as the setup packet says, whatever the length of the buffer. The length of the
buffer comes from the URB header, and only on the way out is the length of the setup packet looked at. -/

open ByteCodec

namespace Qusb

open Msg Proto Lend

/-- What `into_ctrl` relies on. -/
structure FitsSetup (setup : IocSetupPacket) (buf : Bytes) : Prop where
  starts : IocSetupPacket.layout.encode setup <+: buf
  length : buf.length = 8 + setup.length.toNat

/-- The two lengths of a control URB agree; on the way out the URB header may announce more than a whole
number of eight bytes. -/
def LengthsAgree (header : UrbHeader) : Prop :=
  header.actualTransferLen = header.ctrlPacket.length ∨
    (header.isOut = true ∧ 8 ∣ header.ctrlPacket.length.toNat ∧
      header.ctrlPacket.length.toNat ≤ header.actualTransferLen.toNat)

namespace Lend.LendRecvHandler

variable {mem : Nat → UInt8} {data : Data UrbFrame} {buf : Bytes}

/-- The buffer starts with the setup packet of the URB header. -/
theorem ctrlBuf_starts (hbuf : ctrlBuf mem data = .ok buf) :
    IocSetupPacket.layout.encode data.get.header.ctrlPacket <+: buf := by
  have hwidth : (IocSetupPacket.layout.encode data.get.header.ctrlPacket).length =
      IocSetupPacket.layout.width := IocSetupPacket.layout.length_encode _
  unfold ctrlBuf at hbuf
  simp only at hbuf
  split at hbuf
  · obtain ⟨_, -, hbuf⟩ := bind_eq_ok_iff.mp hbuf
    cases hbuf
    rw [Data.urb_buf, drop_urbHeader, ← hwidth, List.take_length_add_append]
    exact List.prefix_append _ _
  · obtain ⟨scratchBuf, -, hbuf⟩ := bind_eq_ok_iff.mp hbuf
    cases hbuf
    rw [← hwidth, List.take_length_add_append]
    exact List.prefix_append _ _

/-- The length of the buffer is that of the URB header; on the way out it is at most what the check compares
the length of the setup packet with. -/
theorem ctrlBuf_length (hbuf : ctrlBuf mem data = .ok buf) :
    buf.length =
      if data.get.header.isOut then
        min ((data.get.header.ctrlPacket.length.toNat + 8 + 7) / 8 * 8)
          (8 + data.get.header.actualTransferLen.toNat)
      else 8 + data.get.header.actualTransferLen.toNat := by
  have hwidth : IocSetupPacket.layout.width = 8 := rfl
  have hpadded := data.get.header.le_paddedTransferLen
  have hlt := data.get.header.ctrlPacket.length.toNat_lt
  unfold ctrlBuf at hbuf
  simp only at hbuf
  split at hbuf
  · next hout =>
      obtain ⟨_, hassert, hbuf⟩ := bind_eq_ok_iff.mp hbuf
      cases hbuf
      have hcheck := assert_eq_ok_iff.mp hassert
      rw [align_eight_eq (by rw [hwidth]; omega)] at hcheck
      rw [if_pos hout, List.length_take, ← hcheck, hwidth, Nat.min_comm]
  · next hout =>
      obtain ⟨scratchBuf, hscratch, hbuf⟩ := bind_eq_ok_iff.mp hbuf
      obtain ⟨-, hlen⟩ := scratch_ok hscratch
      cases hbuf
      rw [if_neg hout, List.length_take, List.length_append, IocSetupPacket.layout.length_encode, List.length_drop,
        hlen, hwidth]
      omega

/-- A buffer that was not rejected has the length of its setup packet exactly if the two lengths agree. -/
theorem ctrlBuf_fitsSetup_iff (hbuf : ctrlBuf mem data = .ok buf) :
    FitsSetup data.get.header.ctrlPacket buf ↔ LengthsAgree data.get.header := by
  have hlen := ctrlBuf_length hbuf
  have hfield : data.get.header.actualTransferLen = data.get.header.ctrlPacket.length ↔
      data.get.header.actualTransferLen.toNat = data.get.header.ctrlPacket.length.toNat := UInt16.toNat_inj.symm
  have hfits : FitsSetup data.get.header.ctrlPacket buf ↔
      buf.length = 8 + data.get.header.ctrlPacket.length.toNat :=
    ⟨FitsSetup.length, fun hlength => ⟨ctrlBuf_starts hbuf, hlength⟩⟩
  rw [hfits, hlen]
  unfold LengthsAgree
  rw [hfield]
  cases hout : data.get.header.isOut with
  | false =>
      simp only [Bool.false_eq_true, if_false, false_and, or_false]
      omega
  | true =>
      simp only [if_true, true_and]
      omega

theorem ctrlBuf_of_fits (mem : Nat → UInt8) (hfits : CtrlFits data) : ∃ buf, ctrlBuf mem data = .ok buf := by
  unfold CtrlFits at hfits
  unfold ctrlBuf
  simp only at hfits ⊢
  split
  · next hout =>
      rw [if_pos hout] at hfits
      have hassert : assert (align (data.get.header.ctrlPacket.length.toNat + IocSetupPacket.layout.width) 8 =
          (data.buf.drop (UrbHeader.size - IocSetupPacket.layout.width)).length) = .ok () :=
        assert_eq_ok_iff.mpr (hfits.trans List.length_drop.symm)
      rw [hassert]
      exact ⟨_, rfl⟩
  · next hout =>
      rw [if_neg hout] at hfits
      have hpadded := data.get.header.paddedTransferLen_eq
      have hle : IocSetupPacket.layout.width + data.get.header.paddedTransferLen ≤ 65536 := by
        rw [hpadded]
        show 8 + _ ≤ 65536
        omega
      rw [scratch_eq_ok hle]
      exact ⟨_, rfl⟩

/-- **The buffer of a control transfer** that is not rejected starts with the setup packet and has its length
exactly if the lengths of the URB header and of the setup packet agree. -/
theorem newCtrl_fitsSetup_iff {V : Vhci} {h : LendRecvHandler} {seq : Seq (Data UrbFrame)}
    {r : InProgress × LendRecvHandler} (mem : Nat → UInt8) (hok : h.newCtrl V seq = .ok r) :
    ∃ buf, ctrlBuf mem seq.data = .ok buf ∧ r.1.Holds seq buf [] ∧
      (FitsSetup seq.data.get.header.ctrlPacket buf ↔ LengthsAgree seq.data.get.header) := by
  obtain ⟨buf, hbuf⟩ := ctrlBuf_of_fits mem (newCtrl_ok_iff.mp ⟨r, hok⟩)
  obtain ⟨r', hok', hholds⟩ := newCtrl_of_buf (V := V) (h := h) hbuf
  obtain rfl : r' = r := Except.ok.inj (hok'.symm.trans hok)
  exact ⟨buf, hbuf, hholds, ctrlBuf_fitsSetup_iff hbuf⟩

/-- The URB header of a request for the device descriptor that announces `n` bytes. -/
def descriptorRequest (n : UInt16) : UrbHeader :=
  ⟨n, 0, ⟨0x80⟩, .control, 0, .pending, (0, 0, 0), 0, 0, ⟨0x80, 6, 0x0100, 0, 18⟩⟩

theorem descriptor_fitsSetup :
    ∃ buf, ctrlBuf (fun _ => 0) ⟨(descriptorRequest 18).asBytes, by decide⟩ = .ok buf ∧
      FitsSetup (descriptorRequest 18).ctrlPacket buf := by
  have haccepted : ∃ r, RecvLoop.start.handler.newCtrl .usb ⟨0, ⟨(descriptorRequest 18).asBytes, by decide⟩⟩ = .ok r :=
    ⟨_, rfl⟩
  obtain ⟨r, hr⟩ := haccepted
  obtain ⟨buf, hbuf, -, hiff⟩ := newCtrl_fitsSetup_iff (fun _ => 0) hr
  exact ⟨buf, hbuf, hiff.mpr (Or.inl rfl)⟩

/-- A URB header without a length and a setup packet that asks for 18 bytes are accepted; the buffer has only
the setup packet. -/
theorem descriptor_overruns :
    ∃ r, RecvLoop.start.handler.newCtrl .usb ⟨0, ⟨(descriptorRequest 0).asBytes, by decide⟩⟩ = .ok r ∧
      ∃ buf, ctrlBuf (fun _ => 0) ⟨(descriptorRequest 0).asBytes, by decide⟩ = .ok buf ∧ r.1.Holds
        ⟨0, ⟨(descriptorRequest 0).asBytes, by decide⟩⟩ buf [] ∧
      buf.length = 8 ∧ ¬ FitsSetup (descriptorRequest 0).ctrlPacket buf := by
  refine ⟨_, rfl, _, rfl, ⟨rfl, rfl, rfl⟩, rfl, fun hfits => ?_⟩
  exact absurd hfits.length (by decide)

end Lend.LendRecvHandler
end Qusb

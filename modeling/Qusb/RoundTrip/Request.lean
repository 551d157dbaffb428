import Qusb.Frames
import Qusb.Lend.Recv

/-! Requests from the borrower's driver to the lender's device.

The borrower reserves the whole frame, lets the driver write the transfer and the packet descriptors into
it, and fills in the headers last. The lender finds the boundaries again from the URB header, differently
for each kind of transfer: a control transfer keeps the setup packet at the end of that header as the start
of its buffer, an isochronous one is split at the padded length, the others are cut to their length. -/

open ByteCodec Tables

namespace Qusb

open Msg Proto Borrow Lend

/-! ### What is sent -/

namespace Borrow

theorem blit_of_length {slice new : Bytes} (h : new.length = slice.length) : blit slice new = new := by
  unfold blit
  rw [List.take_of_length_le h.le, h, List.drop_length, List.append_nil]

namespace BorrowSendHandler

/-- The driver fills the slices it is given. -/
structure Fills (urb : IocUrb) (transfer isoRaw : Bytes) : Prop where
  transfer : transfer.length = asUsize urb.bufferLength * (urbHeader urb).isOut.toNat
  isoRaw : isoRaw.length = asUsize urb.packetCount * UrbHeader.isoPacketSize

/-- Nothing is fetched only when there is nothing to fetch. -/
theorem unfetched_nil {urb : IocUrb} {transfer isoRaw : Bytes} (hfit : FieldsFit urb)
    (hfills : Fills urb transfer isoRaw) (hfetch : ¬ needsFetch urb = true) :
    dataLen urb = 0 ∧ transfer = [] ∧ isoRaw = [] := by
  have htransfer := hfills.transfer
  have hiso := hfills.isoRaw
  simp only [needsFetch, Bool.or_eq_true, Bool.and_eq_true, decide_eq_true_eq, not_or,
    not_and, Bool.not_eq_true, Nat.not_lt, Nat.le_zero] at hfetch
  obtain ⟨hout, hpackets⟩ := hfetch
  have hlen : asUsize urb.bufferLength * (urbHeader urb).isOut.toNat = 0 ∧
      (urbHeader urb).paddedTransferLen * (urbHeader urb).isOut.toNat = 0 := by
    rw [paddedTransferLen_of_fits hfit]
    rcases Nat.eq_zero_or_pos (asUsize urb.bufferLength) with hzero | hpos
    · rw [hzero]
      simp
    · rw [hout hpos]
      simp
  rw [hlen.1] at htransfer
  rw [hpackets, Nat.zero_mul] at hiso
  refine ⟨?_, List.eq_nil_of_length_eq_zero htransfer, List.eq_nil_of_length_eq_zero hiso⟩
  unfold dataLen UrbHeader.isoByteLen
  rw [hlen.2, isoPacketCount_of_fits hfit, hpackets, Nat.zero_mul]

/-- The data of a URB is what the driver delivered, with the transfer padded. -/
theorem urbData_fills (mem : Nat → UInt8) {urb : IocUrb} {transfer isoRaw : Bytes} (hfit : FieldsFit urb)
    (hfills : Fills urb transfer isoRaw) :
    ∃ pad, urbData mem urb (.ok (transfer, isoRaw)) = .ok (.ok (transfer ++ (pad ++ isoRaw))) ∧
      (transfer ++ pad).length = (urbHeader urb).paddedTransferLen * (urbHeader urb).isOut.toNat := by
  have hcount := isoPacketCount_of_fits hfit
  have hmul := transfer_le_padded hfit
  have htransfer := hfills.transfer
  have hiso := hfills.isoRaw
  let data := (List.range (dataLen urb)).map mem
  let padded := data.take ((urbHeader urb).paddedTransferLen * (urbHeader urb).isOut.toNat)
  have hpadded : padded.length = (urbHeader urb).paddedTransferLen * (urbHeader urb).isOut.toNat := by
    simp only [padded, data, List.length_take, List.length_map, List.length_range]
    unfold dataLen
    omega
  refine ⟨padded.drop (asUsize urb.bufferLength * (urbHeader urb).isOut.toNat), ?_, ?_⟩
  · rw [urbData_fits mem _ hfit]
    split
    · have hfront : blit (padded.take (asUsize urb.bufferLength * (urbHeader urb).isOut.toNat))
          transfer = transfer := by
        refine blit_of_length ?_
        rw [List.length_take, hpadded, htransfer, Nat.min_eq_left hmul]
      have hback : blit (data.drop ((urbHeader urb).paddedTransferLen * (urbHeader urb).isOut.toNat))
          isoRaw = isoRaw := by
        refine blit_of_length ?_
        simp only [data, List.length_drop, List.length_map, List.length_range]
        unfold dataLen UrbHeader.isoByteLen
        rw [hcount, hiso]
        omega
      show Except.ok (Except.ok (blit _ transfer ++ _ ++ blit _ isoRaw)) = _
      rw [hfront, hback, List.append_assoc]
    · next hfetch =>
        obtain ⟨hdata, rfl, rfl⟩ := unfetched_nil hfit hfills hfetch
        have hnil : data = [] := by
          simp only [data, hdata, List.range_zero, List.map_nil]
        have hpad : padded = [] := by
          simp only [padded, hnil, List.take_nil]
        rw [hpad, List.drop_nil]
        exact congrArg (fun d => Except.ok (Except.ok d)) hnil
  · rw [List.length_append, List.length_drop, hpadded, htransfer]
    omega

end BorrowSendHandler
end Borrow

/-! ### What is handed to the device -/

namespace Lend
namespace LendRecvHandler

/-- Memory of the allocator. -/
def scratch (mem : Nat → UInt8) (numBytes : Nat) : Except Fault Bytes := do
  reserve numBytes
  return (List.range numBytes).map mem

/-- The buffer of a control transfer. -/
def ctrlBuf (mem : Nat → UInt8) (data : Data UrbFrame) : Except Fault Bytes :=
  let header := data.get.header
  let setupSize := IocSetupPacket.layout.width
  if header.isOut then do
    let buf := data.buf.drop (UrbHeader.size - setupSize)
    assert (align (header.ctrlPacket.length.toNat + setupSize) 8 = buf.length)
    return buf.take (setupSize + header.actualTransferLen.toNat)
  else do
    let buf ← scratch mem (setupSize + header.paddedTransferLen)
    return (IocSetupPacket.layout.encode header.ctrlPacket ++ buf.drop setupSize).take
      (setupSize + header.actualTransferLen.toNat)

/-- The buffer of an interrupt or a bulk transfer. -/
def smallBuf (mem : Nat → UInt8) (data : Data UrbFrame) : Except Fault Bytes :=
  let header := data.get.header
  if header.isOut then do
    let rest ← unwrap (data.splitData Bytes)
    return rest.buf.take header.actualTransferLen.toNat
  else do
    let buf ← scratch mem header.paddedTransferLen
    return buf.take header.actualTransferLen.toNat

/-- The payload of an isochronous transfer, split into the transfer and the packet descriptors. -/
def isoSplit (mem : Nat → UInt8) (header : UrbHeader) (payload : Bytes) : Except Fault (Bytes × Bytes) :=
  if header.isOut then
    if header.paddedTransferLen ≤ payload.length then
      .ok (payload.take header.paddedTransferLen, payload.drop header.paddedTransferLen)
    else .error .splitOutOfRange
  else (scratch mem header.paddedTransferLen).map fun buf => (buf, payload)

/-- The buffer of an isochronous transfer and its packet descriptors. -/
def isoBufs (mem : Nat → UInt8) (data : Data UrbFrame) : Except Fault (Bytes × Bytes) := do
  let header := data.get.header
  let rest ← unwrap (data.splitData Bytes)
  let (transferBuf, rawIsoBuf) ← isoSplit mem header rest.buf
  if rawIsoBuf.length = header.isoByteLen then
    return (transferBuf.take header.actualTransferLen.toNat, rawIsoBuf)
  else .error .unwrapNone

/-- The buffers that the handler of a submission's kind hands to the device. -/
def buffers (mem : Nat → UInt8) (data : Data UrbFrame) : Except Fault (Bytes × Bytes) :=
  match data.get.header.kind with
  | .isochronous => isoBufs mem data
  | .interrupt => (smallBuf mem data).map fun buf => (buf, [])
  | .control => (ctrlBuf mem data).map fun buf => (buf, [])
  | .bulk => (smallBuf mem data).map fun buf => (buf, [])

/-- The handler of a submission's kind. -/
def newUrb (V : Vhci) (h : LendRecvHandler) (seq : Seq (Data UrbFrame)) :
    Except Fault (InProgress × LendRecvHandler) :=
  match seq.data.get.header.kind with
  | .isochronous => h.newIso seq
  | .interrupt => h.newInt seq
  | .control => h.newCtrl V seq
  | .bulk => h.newBulk seq

end LendRecvHandler

/-- The item in progress is the given submission with the given buffers. -/
def InProgress.Holds (seq : Seq (Data UrbFrame)) (buf rawIso : Bytes) : InProgress → Prop
  | .ctrl seqnum endpoint bufLen _ => seqnum = seq.seqnum ∧ endpoint = seq.data.get.header.endpoint ∧
      bufLen = buf.length - IocSetupPacket.layout.width
  | .int seqnum endpoint interval bufLen => seqnum = seq.seqnum ∧
      endpoint = seq.data.get.header.endpoint ∧ interval = seq.data.get.header.interval ∧
      bufLen = buf.length
  | .iso seqnum endpoint interval bufLen _ rawIsoBuf numIsoPackets _ => seqnum = seq.seqnum ∧
      endpoint = seq.data.get.header.endpoint ∧ interval = seq.data.get.header.interval ∧
      bufLen = buf.length ∧ rawIsoBuf = rawIso ∧ numIsoPackets = seq.data.get.header.isoPacketCount
  | .bulk seqnum endpoint bufLen => seqnum = seq.seqnum ∧ endpoint = seq.data.get.header.endpoint ∧
      bufLen = buf.length
  | .reset _ => False
  | .setInterface _ _ => False
  | .setConfig _ _ => False
  | .clearStall _ _ => False

namespace LendRecvHandler

variable {V : Vhci} {h : LendRecvHandler} {seq : Seq (Data UrbFrame)} {mem : Nat → UInt8}

theorem scratch_eq_ok {numBytes : Nat} (hle : numBytes ≤ 65536) :
    scratch mem numBytes = .ok ((List.range numBytes).map mem) := by
  unfold scratch
  rw [reserve_ok hle]
  rfl

theorem scratch_ok {numBytes : Nat} {buf : Bytes} (hok : scratch mem numBytes = .ok buf) :
    reserve numBytes = .ok () ∧ buf.length = numBytes := by
  obtain ⟨u, hreserve, hok⟩ := bind_eq_ok_iff.mp hok
  cases hok
  exact ⟨hreserve, by rw [List.length_map, List.length_range]⟩

/-- The handler's item has the buffer that was set up. -/
theorem newCtrl_of_buf {buf : Bytes} (hbuf : ctrlBuf mem seq.data = .ok buf) :
    ∃ r, h.newCtrl V seq = .ok r ∧ r.1.Holds seq buf [] := by
  have hlen : ∃ n, ctrlBufLen seq.data = .ok n ∧
      min n (IocSetupPacket.layout.width + seq.data.get.header.actualTransferLen.toNat) = buf.length := by
    unfold ctrlBuf at hbuf
    unfold ctrlBufLen
    simp only at hbuf ⊢
    split at hbuf
    · next hout =>
        rw [if_pos hout]
        obtain ⟨u, hassert, hbuf⟩ := bind_eq_ok_iff.mp hbuf
        cases hbuf
        rw [List.length_drop] at hassert
        refine ⟨_, by rw [hassert]; rfl, ?_⟩
        rw [List.length_take, List.length_drop, Nat.min_comm]
    · next hout =>
        rw [if_neg hout]
        obtain ⟨scratchBuf, hscratch, hbuf⟩ := bind_eq_ok_iff.mp hbuf
        obtain ⟨hreserve, hlen⟩ := scratch_ok hscratch
        cases hbuf
        refine ⟨_, by rw [hreserve]; rfl, ?_⟩
        have hwidth : IocSetupPacket.layout.width = 8 := rfl
        rw [List.length_take, List.length_append, IocSetupPacket.layout.length_encode,
          List.length_drop, hlen, Nat.min_comm]
        omega
  obtain ⟨n, hn, hmin⟩ := hlen
  refine ⟨(.ctrl seq.seqnum seq.data.get.header.endpoint (min n (IocSetupPacket.layout.width +
      seq.data.get.header.actualTransferLen.toNat) - IocSetupPacket.layout.width)
    (V.req seq.data.get.header.ctrlPacket = .deviceGetStatus),
    (h.registerCancelToken seq.seqnum).removeSmall), ?_, rfl, rfl, ?_⟩
  · unfold newCtrl
    simp only [hn, ok_bind]
    rfl
  · rw [hmin]

theorem smallBufLen_of_buf {data : Data UrbFrame} {buf : Bytes} (hbuf : smallBuf mem data = .ok buf) :
    smallBufLen data = .ok buf.length := by
  unfold smallBuf at hbuf
  unfold smallBufLen
  simp only at hbuf ⊢
  split at hbuf
  · next hout =>
      rw [if_pos hout]
      obtain ⟨rest, hrest, hbuf⟩ := bind_eq_ok_iff.mp hbuf
      cases hbuf
      rw [hrest, ok_bind, List.length_take, Nat.min_comm]
      rfl
  · next hout =>
      rw [if_neg hout]
      obtain ⟨scratchBuf, hscratch, hbuf⟩ := bind_eq_ok_iff.mp hbuf
      obtain ⟨hreserve, hlen⟩ := scratch_ok hscratch
      cases hbuf
      rw [hreserve, ok_bind, List.length_take, hlen, Nat.min_comm]
      rfl

theorem newInt_of_buf {buf : Bytes} (hbuf : smallBuf mem seq.data = .ok buf) :
    ∃ r, h.newInt seq = .ok r ∧ r.1.Holds seq buf [] := by
  have hlen := smallBufLen_of_buf hbuf
  refine ⟨(.int seq.seqnum seq.data.get.header.endpoint seq.data.get.header.interval buf.length,
    (h.registerCancelToken seq.seqnum).removeSmall), ?_, rfl, rfl, rfl, rfl⟩
  unfold newInt
  simp only [hlen, ok_bind]
  rfl

theorem newBulk_of_buf {buf : Bytes} (hbuf : smallBuf mem seq.data = .ok buf) :
    ∃ r, h.newBulk seq = .ok r ∧ r.1.Holds seq buf [] := by
  have hlen := smallBufLen_of_buf hbuf
  refine ⟨(.bulk seq.seqnum seq.data.get.header.endpoint buf.length,
    (h.registerCancelToken seq.seqnum).removeSmall), ?_, rfl, rfl, rfl⟩
  unfold newBulk
  simp only [hlen, ok_bind]
  rfl

theorem newIso_of_bufs (hisos : h.isos.Sound) {buf rawIso : Bytes}
    (hbufs : isoBufs mem seq.data = .ok (buf, rawIso)) :
    ∃ r, h.newIso seq = .ok r ∧ r.1.Holds seq buf rawIso := by
  obtain ⟨rest, hrest, hbufs⟩ := bind_eq_ok_iff.mp hbufs
  obtain ⟨⟨transferBuf, raw⟩, hsplit, hbufs⟩ := bind_eq_ok_iff.mp hbufs
  have hraw : rawIsoBuf seq.data = .ok raw ∧
      transferBuf.length = seq.data.get.header.paddedTransferLen := by
    unfold rawIsoBuf
    rw [hrest, ok_bind]
    unfold isoSplit at hsplit
    split at hsplit
    · next hout =>
        split at hsplit
        · next hle =>
            cases hsplit
            refine ⟨?_, by rw [List.length_take, Nat.min_eq_left hle]⟩
            simp only [if_pos hout, if_pos hle]
        · cases hsplit
    · next hout =>
        cases hscratch : scratch mem seq.data.get.header.paddedTransferLen with
        | error f =>
            rw [hscratch] at hsplit
            cases hsplit
        | ok scratchBuf =>
            rw [hscratch] at hsplit
            cases hsplit
            obtain ⟨hreserve, hlen⟩ := scratch_ok hscratch
            refine ⟨?_, hlen⟩
            simp only [if_neg hout, hreserve, ok_bind]
            rfl
  simp only at hbufs
  split at hbufs
  · next hcount =>
      cases hbufs
      obtain ⟨⟨cached, isos⟩, hremove, -⟩ :=
        BigTransfers.remove_ok hisos seq.data.get.header.isoPacketCount
      refine ⟨(.iso seq.seqnum seq.data.get.header.endpoint seq.data.get.header.interval
          (min seq.data.get.header.paddedTransferLen seq.data.get.header.actualTransferLen.toNat)
          seq.data.get.header.paddedTransferLen rawIso seq.data.get.header.isoPacketCount
          (cached.getD seq.data.get.header.isoPacketCount.toNat),
        { h.registerCancelToken seq.seqnum with isos := isos }), ?_, rfl, rfl, rfl, ?_, rfl, rfl⟩
      · have hremove' : (h.registerCancelToken seq.seqnum).isos.remove
            seq.data.get.header.isoPacketCount = .ok (cached, isos) := hremove
        unfold newIso
        simp only [hraw.1, ok_bind, if_pos hcount, hremove']
        rfl
      · rw [List.length_take, hraw.2, Nat.min_comm]
  · cases hbufs

/-- **The handler of a submission's kind** goes on when its buffers can be set up. -/
theorem newUrb_of_buffers (hisos : h.isos.Sound) {buf rawIso : Bytes}
    (hbufs : buffers mem seq.data = .ok (buf, rawIso)) :
    ∃ r, newUrb V h seq = .ok r ∧ r.1.Holds seq buf rawIso := by
  have hsingle : ∀ {r : Except Fault Bytes},
      r.map (fun buf => (buf, ([] : Bytes))) = .ok (buf, rawIso) → r = .ok buf ∧ rawIso = [] := by
    intro r hr
    cases r with
    | error f => cases hr
    | ok buf' =>
        cases hr
        exact ⟨rfl, rfl⟩
  unfold buffers at hbufs
  unfold newUrb
  split at hbufs
  · exact newIso_of_bufs hisos hbufs
  · obtain ⟨hbuf, rfl⟩ := hsingle hbufs
    exact newInt_of_buf hbuf
  · obtain ⟨hbuf, rfl⟩ := hsingle hbufs
    exact newCtrl_of_buf hbuf
  · obtain ⟨hbuf, rfl⟩ := hsingle hbufs
    exact newBulk_of_buf hbuf

end LendRecvHandler
end Lend

/-! ### The round trip -/

open BorrowSendHandler LendRecvHandler

/-- The buffer of a transfer: the setup packet, for a control transfer, and then the bytes to send or room
for the bytes to receive. -/
def IsBufferOf (urb : IocUrb) (transfer buf : Bytes) : Prop :=
  ∃ rest, buf = (if urb.typ = .control then IocSetupPacket.layout.encode urb.setupPacket else []) ++ rest ∧
    if (urbHeader urb).isOut then rest = transfer else rest.length = asUsize urb.bufferLength

/-- The setup packet is the end of the URB header. -/
theorem drop_urbHeader (h : UrbHeader) (rest : Bytes) :
    (h.asBytes ++ rest).drop (UrbHeader.size - IocSetupPacket.layout.width) =
      IocSetupPacket.layout.encode h.ctrlPacket ++ rest := by
  let fields : Bytes := Layout.u16.encode h.actualTransferLen ++
    (Layout.u16.encode h.isoPacketCount ++ (Layout.u8.encode h.endpoint.addr ++
      ((Layout.enum TransferKind.byteEnum).encode h.kind ++ (Layout.u16.encode h.interval ++
        ((Layout.enum TransferStatus.byteEnum).encode h.status ++
          ((Layout.u8.pair (Layout.u8.pair Layout.u8)).encode h.padding ++
            (Layout.u16.encode h.flags ++ Layout.u16.encode h.numErrors)))))))
  have hsplit : h.asBytes = fields ++ IocSetupPacket.layout.encode h.ctrlPacket := by
    simp only [fields, List.append_assoc]
    rfl
  have hlen : fields.length = UrbHeader.size - IocSetupPacket.layout.width := by
    simp only [fields, List.length_append, Layout.length_encode]
    rfl
  rw [hsplit, List.append_assoc, ← hlen, List.drop_left]

/-- The data of a submission as the lender finds it. -/
structure Submitted (urb : IocUrb) (transfer pad isoRaw : Bytes) (data : Data UrbFrame) : Prop where
  header : data.get.header = urbHeader urb
  buf : data.buf = (urbHeader urb).asBytes ++ (transfer ++ (pad ++ isoRaw))
  fits : FieldsFit urb
  fills : Fills urb transfer isoRaw
  padded : (transfer ++ pad).length = (urbHeader urb).paddedTransferLen * (urbHeader urb).isOut.toNat

section

variable {urb : IocUrb} {transfer pad isoRaw : Bytes} {data : Data UrbFrame}

theorem Submitted.splitData (hs : Submitted urb transfer pad isoRaw data) :
    ∃ rest, data.splitData Bytes = some rest ∧ rest.buf = transfer ++ (pad ++ isoRaw) := by
  obtain ⟨rest, hrest, hbuf⟩ := splitData_bytes data
  refine ⟨rest, hrest, ?_⟩
  rw [hbuf, hs.buf]
  exact List.drop_left' (UrbHeader.asBytes_length _)

theorem Submitted.smallBuf (hs : Submitted urb transfer pad isoRaw data) (mem : Nat → UInt8)
    (hkind : urb.typ ≠ .control) :
    ∃ buf, LendRecvHandler.smallBuf mem data = .ok buf ∧ IsBufferOf urb transfer buf := by
  obtain ⟨rest, hrest, hbuf⟩ := hs.splitData
  have hactual := actualTransferLen_of_fits hs.fits
  have htransfer := hs.fills.transfer
  unfold LendRecvHandler.smallBuf IsBufferOf
  simp only [hs.header, hrest, unwrap, ok_bind, if_neg hkind, List.nil_append, hbuf, hactual]
  cases hout : (urbHeader urb).isOut with
  | true =>
      rw [hout, Bool.toNat_true, Nat.mul_one] at htransfer
      refine ⟨_, rfl, _, rfl, ?_⟩
      show (transfer ++ (pad ++ isoRaw)).take (asUsize urb.bufferLength) = transfer
      rw [← htransfer, List.take_left]
  | false =>
      have hle := bufferLength_le_padded hs.fits
      rw [scratch_eq_ok (urbHeader urb).paddedTransferLen_le]
      refine ⟨_, rfl, _, rfl, ?_⟩
      simp only [Bool.false_eq_true, if_false, List.length_take, List.length_map, List.length_range]
      exact Nat.min_eq_left hle

theorem Submitted.isoBufs (hs : Submitted urb transfer pad isoRaw data) (mem : Nat → UInt8)
    (hkind : urb.typ ≠ .control) :
    ∃ buf, LendRecvHandler.isoBufs mem data = .ok (buf, isoRaw) ∧ IsBufferOf urb transfer buf := by
  obtain ⟨rest, hrest, hbuf⟩ := hs.splitData
  have hactual := actualTransferLen_of_fits hs.fits
  have htransfer := hs.fills.transfer
  have hpadded := hs.padded
  have hcount : isoRaw.length = (urbHeader urb).isoByteLen := by
    rw [hs.fills.isoRaw, UrbHeader.isoByteLen, isoPacketCount_of_fits hs.fits]
  cases hout : (urbHeader urb).isOut with
  | true =>
      rw [hout, Bool.toNat_true, Nat.mul_one] at htransfer hpadded
      have hsplit : isoSplit mem (urbHeader urb) (transfer ++ (pad ++ isoRaw)) =
          .ok (transfer ++ pad, isoRaw) := by
        unfold isoSplit
        have hle : (transfer ++ pad).length ≤ (transfer ++ pad ++ isoRaw).length :=
          (List.prefix_append _ _).length_le
        rw [if_pos hout, ← List.append_assoc, ← hpadded, List.take_left, List.drop_left, if_pos hle]
      refine ⟨transfer, ?_, transfer, by rw [if_neg hkind, List.nil_append], by rw [hout]; rfl⟩
      unfold LendRecvHandler.isoBufs
      simp only [hs.header, hrest, unwrap, ok_bind, hbuf, hsplit, if_pos hcount, hactual]
      rw [← htransfer, List.take_left]
      rfl
  | false =>
      rw [hout, Bool.toNat_false, Nat.mul_zero] at htransfer hpadded
      obtain rfl := List.eq_nil_of_length_eq_zero htransfer
      obtain rfl : pad = [] := List.eq_nil_of_length_eq_zero hpadded
      have hsplit : isoSplit mem (urbHeader urb) isoRaw =
          .ok ((List.range (urbHeader urb).paddedTransferLen).map mem, isoRaw) := by
        unfold isoSplit
        rw [if_neg (by rw [hout]; exact Bool.false_ne_true),
          scratch_eq_ok (urbHeader urb).paddedTransferLen_le]
        rfl
      have hle := bufferLength_le_padded hs.fits
      refine ⟨((List.range (urbHeader urb).paddedTransferLen).map mem).take
        (asUsize urb.bufferLength), ?_, _, by rw [if_neg hkind, List.nil_append], ?_⟩
      · unfold LendRecvHandler.isoBufs
        simp only [hs.header, hrest, unwrap, ok_bind, hbuf, List.nil_append, hsplit, if_pos hcount,
          hactual]
        rfl
      · simp only [hout, Bool.false_eq_true, if_false, List.length_take, List.length_map,
          List.length_range]
        exact Nat.min_eq_left hle

/-- An outgoing control transfer is the setup packet and the data of the frame without its padding. -/
theorem Submitted.ctrlBuf_out (hs : Submitted urb transfer pad [] data) (mem : Nat → UInt8)
    (hlength : asUsize urb.bufferLength = urb.setupPacket.length.toNat)
    (hout : (urbHeader urb).isOut = true) :
    LendRecvHandler.ctrlBuf mem data = .ok (IocSetupPacket.layout.encode urb.setupPacket ++ transfer) := by
  have hactual := actualTransferLen_of_fits hs.fits
  have htransfer := hs.fills.transfer
  have hpadded := hs.padded
  have hwidth : (IocSetupPacket.layout.encode urb.setupPacket).length = IocSetupPacket.layout.width :=
    IocSetupPacket.layout.length_encode _
  have hsetup : (urbHeader urb).ctrlPacket = urb.setupPacket := rfl
  have hpaddedLen := paddedTransferLen_of_fits hs.fits
  rw [hout, Bool.toNat_true, Nat.mul_one] at htransfer hpadded
  have hdrop : data.buf.drop (UrbHeader.size - IocSetupPacket.layout.width) =
      IocSetupPacket.layout.encode urb.setupPacket ++ (transfer ++ pad) := by
    rw [hs.buf, drop_urbHeader, List.append_nil, hsetup]
  have hassert : align (urb.setupPacket.length.toNat + IocSetupPacket.layout.width) 8 =
      (IocSetupPacket.layout.encode urb.setupPacket ++ (transfer ++ pad)).length := by
    have hlt := urb.setupPacket.length.toNat_lt
    rw [List.length_append, hwidth, hpadded, hpaddedLen, ← hlength, align_eight_eq]
    · show (asUsize urb.bufferLength + 8 + 7) / 8 * 8 = 8 + _
      omega
    · show asUsize urb.bufferLength + 8 < 2 ^ 63
      omega
  have hok : assert (align (urb.setupPacket.length.toNat + IocSetupPacket.layout.width) 8 =
      (IocSetupPacket.layout.encode urb.setupPacket ++ (transfer ++ pad)).length) = .ok () :=
    assert_eq_ok_iff.mpr hassert
  unfold LendRecvHandler.ctrlBuf
  simp only [hs.header, hsetup, if_pos hout, hdrop, hactual]
  rw [hok, ok_bind, ← List.append_assoc, ← hwidth, ← htransfer, ← List.length_append, List.take_left]
  rfl

/-- An incoming control transfer is the setup packet and as much memory as it asks for. -/
theorem Submitted.ctrlBuf_in (hs : Submitted urb transfer pad [] data) (mem : Nat → UInt8)
    (hout : (urbHeader urb).isOut = false) (hle : asUsize urb.bufferLength ≤ 65528) :
    ∃ room, LendRecvHandler.ctrlBuf mem data = .ok (IocSetupPacket.layout.encode urb.setupPacket ++ room) ∧
      room.length = asUsize urb.bufferLength := by
  have hactual := actualTransferLen_of_fits hs.fits
  have hwidth : (IocSetupPacket.layout.encode urb.setupPacket).length = IocSetupPacket.layout.width :=
    IocSetupPacket.layout.length_encode _
  have hsetup : (urbHeader urb).ctrlPacket = urb.setupPacket := rfl
  have hpaddedLen := paddedTransferLen_of_fits hs.fits
  have hfit : IocSetupPacket.layout.width + (urbHeader urb).paddedTransferLen ≤ 65536 := by
    rw [hpaddedLen]
    show 8 + _ ≤ _
    omega
  let memory := ((List.range (IocSetupPacket.layout.width + (urbHeader urb).paddedTransferLen)).map
    mem).drop IocSetupPacket.layout.width
  refine ⟨memory.take (asUsize urb.bufferLength), ?_, ?_⟩
  · have hscratch : scratch mem (IocSetupPacket.layout.width + (urbHeader urb).paddedTransferLen) = _ :=
      scratch_eq_ok hfit
    rw [← List.take_length_add_append, hwidth]
    unfold LendRecvHandler.ctrlBuf
    simp only [hs.header, hsetup, hout, Bool.false_eq_true, if_false, hscratch, ok_bind, hactual]
    rfl
  · simp only [memory, List.length_take, List.length_drop, List.length_map, List.length_range, hpaddedLen]
    omega

theorem Submitted.ctrlBuf (hs : Submitted urb transfer pad isoRaw data) (mem : Nat → UInt8)
    (hkind : urb.typ = .control)
    (hempty : isoRaw = []) (hlength : asUsize urb.bufferLength = urb.setupPacket.length.toNat)
    (hroom : (urbHeader urb).isOut ∨ asUsize urb.bufferLength ≤ 65528) :
    ∃ buf, LendRecvHandler.ctrlBuf mem data = .ok buf ∧ IsBufferOf urb transfer buf := by
  subst hempty
  cases hout : (urbHeader urb).isOut with
  | true => exact ⟨_, hs.ctrlBuf_out mem hlength hout, transfer, by rw [if_pos hkind], by rw [hout]; rfl⟩
  | false =>
      have hle : asUsize urb.bufferLength ≤ 65528 := by
        rcases hroom with h | h
        · rw [hout] at h
          cases h
        · exact h
      obtain ⟨room, hok, hlen⟩ := hs.ctrlBuf_in mem hout hle
      exact ⟨_, hok, room, by rw [if_pos hkind], by rw [hout]; exact hlen⟩

/-- Each kind of transfer gets the buffer of its URB. -/
theorem Submitted.buffers (hs : Submitted urb transfer pad isoRaw data) (mem : Nat → UInt8)
    (hiso : urb.typ ≠ .isochronous → isoRaw = [])
    (hctrl : urb.typ = .control → asUsize urb.bufferLength = urb.setupPacket.length.toNat ∧
      ((urbHeader urb).isOut ∨ asUsize urb.bufferLength ≤ 65528)) :
    ∃ buf, LendRecvHandler.buffers mem data = .ok (buf, isoRaw) ∧ IsBufferOf urb transfer buf := by
  have hkind : data.get.header.kind = urb.typ := congrArg UrbHeader.kind hs.header
  unfold LendRecvHandler.buffers
  rw [hkind]
  cases htyp : urb.typ with
  | isochronous =>
      exact hs.isoBufs mem (by rw [htyp]; exact fun h => by cases h)
  | interrupt =>
      obtain ⟨buf, hbuf, hof⟩ := hs.smallBuf mem (by rw [htyp]; exact fun h => by cases h)
      obtain rfl := hiso (by rw [htyp]; exact fun h => by cases h)
      exact ⟨buf, by rw [hbuf]; rfl, hof⟩
  | control =>
      obtain ⟨hlength, hroom⟩ := hctrl htyp
      obtain rfl := hiso (by rw [htyp]; exact fun h => by cases h)
      obtain ⟨buf, hbuf, hof⟩ := hs.ctrlBuf mem htyp rfl hlength hroom
      exact ⟨buf, by rw [hbuf]; rfl, hof⟩
  | bulk =>
      obtain ⟨buf, hbuf, hof⟩ := hs.smallBuf mem (by rw [htyp]; exact fun h => by cases h)
      obtain rfl := hiso (by rw [htyp]; exact fun h => by cases h)
      exact ⟨buf, by rw [hbuf]; rfl, hof⟩

end

/-- However the bytes of the frame arrive, and whatever follows them, the lender cuts the frame off and
parses it as the submission that was sent, and the handler of its kind hands the same buffer and the same
packet descriptors to the device. -/
def ReceivesRequest {δ : Type} (a : Alloc) (b : Build) (V : Vhci) (mem : Nat → UInt8) (D : Layout δ)
    (h : LendRecvHandler) (urb : IocUrb) (seqnum : Seqnum) (transfer : Bytes) (packets : List δ)
    (f : Bytes) : Prop :=
  ∀ (ring : Ring) (rx : Reader) (more : Bytes), ring.buf ++ rx.bytes = f ++ more → rx.errors = [] →
    ∃ d ring' rx' seq, recvFrame a b ring rx = .ok (.ok d, ring', rx') ∧
      ring'.buf ++ rx'.bytes = more ∧ parseFrame d = .ok (.ok (.urb seq)) ∧ seq.seqnum = seqnum ∧
      (let header := seq.data.get.header
       header.kind = urb.typ ∧ header.endpoint = urb.endpoint ∧
        (header.interval.toNat : ℤ) = urb.interval.toInt % 65536 ∧
        header.ctrlPacket = urb.setupPacket) ∧
      ∃ buf rawIso r, buffers mem seq.data = .ok (buf, rawIso) ∧ newUrb V h seq = .ok r ∧
        r.1.Holds seq buf rawIso ∧ IsBufferOf urb transfer buf ∧
        rawIso.length = packets.length * UrbHeader.isoPacketSize ∧
        D.decodeAll packets.length rawIso = some packets

theorem interval_urbHeader (urb : IocUrb) :
    ((urbHeader urb).interval.toNat : ℤ) = urb.interval.toInt % 65536 := by
  have hinterval : (urbHeader urb).interval.toNat = asUsize urb.interval % 2 ^ 16 :=
    UInt16.toNat_ofNat' ..
  rw [hinterval]
  unfold asUsize
  omega

theorem receivesRequest_of_frame {δ : Type} (a : Alloc) (b : Build) (V : Vhci) (mem : Nat → UInt8)
    (D : Layout δ) {h : LendRecvHandler} (hisos : h.isos.Sound) {urb : IocUrb} {seqnum : Seqnum}
    {transfer : Bytes} (pad : Bytes) {packets : List δ} (hfit : FieldsFit urb)
    (hfills : Fills urb transfer (D.encodeAll packets)) (hcount : packets.length = asUsize urb.packetCount)
    (hpadded : (transfer ++ pad).length =
      (urbHeader urb).paddedTransferLen * (urbHeader urb).isOut.toNat)
    (hiso : urb.typ ≠ .isochronous → packets = [])
    (hctrl : urb.typ = .control → asUsize urb.bufferLength = urb.setupPacket.length.toNat ∧
      ((urbHeader urb).isOut ∨ asUsize urb.bufferLength ≤ 65528))
    (hdata : (transfer ++ (pad ++ D.encodeAll packets)).length = dataLen urb)
    (hlt : (submitFrame urb seqnum (transfer ++ (pad ++ D.encodeAll packets))).length < 65536) :
    ReceivesRequest a b V mem D h urb seqnum transfer packets
      (submitFrame urb seqnum (transfer ++ (pad ++ D.encodeAll packets))) := by
  intro ring rx more hbytes herrors
  obtain ⟨d, ring', rx', hcall, hbuf, hbytes', -⟩ :=
    recvFrame_of_wire a b ring rx (isWire_submitFrame hdata) hlt hbytes herrors
  obtain ⟨hheader, data, hurb, hurbHeader, hpayload⟩ := urbOf_of_buf hbuf
  have hparse : parseFrame d = .ok (.ok (.urb ⟨seqnum, data⟩)) := by
    unfold parseFrame
    simp only [hheader, hurb]
  have hsubmitted : Submitted urb transfer pad (D.encodeAll packets) data :=
    ⟨hurbHeader, hpayload, hfit, hfills, hpadded⟩
  have hempty : urb.typ ≠ .isochronous → D.encodeAll packets = [] := by
    intro hne
    rw [hiso hne]
    rfl
  obtain ⟨buf, hbufs, hof⟩ := hsubmitted.buffers mem hempty hctrl
  obtain ⟨r, hnew, hholds⟩ : ∃ r, newUrb V h ⟨seqnum, data⟩ = .ok r ∧ r.1.Holds ⟨seqnum, data⟩ buf _ :=
    newUrb_of_buffers hisos hbufs
  have hdecode := D.decodeAll_encodeAll packets []
  rw [List.append_nil] at hdecode
  refine ⟨d, ring', rx', _, hcall, hbytes', hparse, rfl, ?_, buf, _, r, hbufs, hnew, hholds, hof,
    ?_, hdecode⟩
  · rw [hurbHeader]
    exact ⟨rfl, rfl, interval_urbHeader urb, rfl⟩
  · rw [hfills.isoRaw, hcount]

/-- **Requests.** Whatever the send buffer holds and whatever the driver delivers, a URB appends one
frame; unless the frame reaches 65536 bytes, the lender receives the same submission, with the interval in
sixteen bits, and hands the same bytes and packet descriptors to the device. -/
theorem request_round_trip {δ : Type} (b b' : Build) (a : Alloc) (V : Vhci) (mem mem' : Nat → UInt8)
    (D : Layout δ) (hwidth : D.width = UrbHeader.isoPacketSize) (h : BorrowSendHandler) (linker : Linker)
    (urb : IocUrb) (handle : UrbHandle) (haddr : h.addr = urb.address.get)
    (hseq : h.curSeq.toNat + 1 < 2 ^ 32) (hfit : FieldsFit urb)
    (hiso : urb.typ ≠ .isochronous → asUsize urb.packetCount = 0)
    (hctrl : urb.typ = .control → asUsize urb.bufferLength = urb.setupPacket.length.toNat ∧
      ((urbHeader urb).isOut ∨ asUsize urb.bufferLength ≤ 65528))
    (transfer : Bytes) (packets : List δ)
    (htransfer : transfer.length = asUsize urb.bufferLength * (urbHeader urb).isOut.toNat)
    (hpackets : packets.length = asUsize urb.packetCount) (lh : LendRecvHandler)
    (hisos : lh.isos.Sound) :
    ∃ h' linker' f, h.processUrb b mem linker urb handle (.ok (transfer, D.encodeAll packets)) =
        .ok (.ok (), h', linker') ∧ h'.buf = h.buf ++ f ∧
      (f.length < 65536 → ReceivesRequest a b' V mem' D lh urb h.curSeq transfer packets f) := by
  have hfills : Fills urb transfer (D.encodeAll packets) :=
    ⟨htransfer, by rw [D.length_encodeAll, hwidth, hpackets]⟩
  obtain ⟨pad, hdata, hpadded⟩ := urbData_fills mem hfit hfills
  have hnext := b.addU32_of_lt (x := h.curSeq) (y := 1) hseq
  refine ⟨_, _, _, processUrb_of_data haddr hnext hdata, rfl, fun hlt => ?_⟩
  refine receivesRequest_of_frame a b' V mem' D hisos pad hfit hfills hpackets hpadded ?_ hctrl
    (urbData_length hdata) hlt
  intro hne
  exact List.eq_nil_of_length_eq_zero (hpackets.trans (hiso hne))

/-- An isochronous transfer of three bytes to the device, with one packet. -/
def isoUrb : IocUrb := ⟨.isochronous, ⟨0⟩, ⟨0x01⟩, .zero, 3, 1, 4, 0x04⟩

theorem iso_request_received :
    ∃ h' linker' f, BorrowSendHandler.new.processUrb .dev (fun _ => 0) .empty isoUrb ⟨3⟩
        (.ok ([7, 8, 9], (Layout.u32.pair Layout.u32).encodeAll [(0, 3)])) = .ok (.ok (), h', linker') ∧
      h'.buf = BorrowSendHandler.new.buf ++ f ∧
      (f.length < 65536 → ReceivesRequest .tight .dev .usb (fun _ => 1) (Layout.u32.pair Layout.u32)
        RecvLoop.start.handler isoUrb 0 [7, 8, 9] [(0, 3)] f) :=
  request_round_trip .dev .dev .tight .usb (fun _ => 0) (fun _ => 1) (Layout.u32.pair Layout.u32) rfl
    .new .empty isoUrb ⟨3⟩ rfl (by decide) ⟨by decide, by decide⟩ (fun h => absurd rfl h)
    (fun h => by cases h) [7, 8, 9] [(0, 3)] (by decide) rfl RecvLoop.start.handler
    BigTransfers.sound_empty

/-- An interrupt transfer whose interval does not fit sixteen bits. -/
def slowUrb : IocUrb := ⟨.interrupt, ⟨0⟩, ⟨0x81⟩, .zero, 8, 0, 65536, 0⟩

/-- A control transfer from the device that asks for the most bytes its setup packet can. -/
def longRead : IocUrb := ⟨.control, ⟨0⟩, ⟨0x80⟩, ⟨0x80, 6, 0, 0, 65535⟩, 65535, 0, 0, 0⟩

/-- An interval of 65536 arrives as 0; a control transfer of 65535 bytes is more than the lender's
allocator gives out; and the last sequence number cannot be used when overflow is checked. -/
theorem request_not_kept :
    (∃ h' linker' f seq, BorrowSendHandler.new.processUrb .dev (fun _ => 0) .empty slowUrb ⟨3⟩
        (.ok ([], [])) = .ok (.ok (), h', linker') ∧ h'.buf = f ∧
      (∃ ring rx ring' rx' d, ring.buf ++ Reader.bytes rx = f ∧
        recvFrame .tight .dev ring rx = .ok (.ok d, ring', rx') ∧
        parseFrame d = .ok (.ok (.urb seq))) ∧
      (seq.data.get.header.interval.toNat : ℤ) ≠ slowUrb.interval.toInt) ∧
    RecvLoop.start.handler.newCtrl .usb ⟨0, ⟨(urbHeader longRead).asBytes, by decide⟩⟩ =
      .error .assertFailed ∧
    { BorrowSendHandler.new with curSeq := 0xffffffff }.processUrb .dev (fun _ => 0) .empty slowUrb ⟨3⟩
      (.ok ([], [])) = .error .overflow := by
  refine ⟨?_, rfl, rfl⟩
  have hfit : FieldsFit slowUrb := ⟨by decide, by decide⟩
  have hreceives : ReceivesRequest .tight .dev .usb (fun _ => 0) (Layout.u32.pair Layout.u32)
      RecvLoop.start.handler slowUrb 0 [] [] (submitFrame slowUrb 0 []) :=
    receivesRequest_of_frame .tight .dev .usb (fun _ => 0) _ BigTransfers.sound_empty [] hfit
      ⟨rfl, rfl⟩ rfl rfl (fun _ => rfl) (fun h => by cases h) rfl (by decide)
  let ring : Ring := ⟨submitFrame slowUrb 0 [], 32, by decide⟩
  obtain ⟨d, ring', rx', seq, hcall, -, hparse, -, ⟨-, -, hinterval, -⟩, -⟩ :=
    hreceives ring [] [] rfl rfl
  refine ⟨_, _, _, seq, rfl, rfl, ⟨ring, [], ring', rx', d, rfl, hcall, hparse⟩, ?_⟩
  rw [hinterval]
  decide

end Qusb

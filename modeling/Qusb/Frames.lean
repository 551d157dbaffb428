import Qusb.Proto.Framing
import Qusb.Borrow.Send
import Qusb.Lend.Send

/-! The frames of both sides on the wire.

Every frame the two send handlers append is a wire frame. Streams of them are therefore received frame
by frame exactly when no frame reaches 65536 bytes: the length field counts units of eight bytes, but the
receiver multiplies it back in sixteen bits. -/

open ByteCodec Tables

namespace Qusb

open Msg Proto Borrow Lend

/-- The lengths of a completed transfer are those of a request whose lengths fit sixteen bits. -/
def LengthsFit : CompletedTransfer → Prop
  | .reset _ => True
  | .ctrl seq => seq.data.res.actualTransferLen ≤ 65535
  | .int seq => seq.data.res.actualTransferLen ≤ 65535
  | .bulk seq => seq.data.res.actualTransferLen ≤ 65535
  | .iso seq => seq.data.res.actualTransferLen ≤ 65535 ∧
      seq.data.rawIsoBuf.length = UrbHeader.isoPacketSize * seq.data.numIsoPackets.toNat

/-- The frames an operation of a send handler can append, from any state. -/
inductive Appended : Bytes → Prop
  | submit {b mem h h' linker linker' urb handle fetched f} (hfit : BorrowSendHandler.FieldsFit urb)
      (hop : BorrowSendHandler.processUrb b mem h linker urb handle fetched =
        .ok (.ok (), h', linker'))
      (hbuf : h'.buf = h.buf ++ f) : Appended f
  | unlink {h linker handle f} (hbuf : (BorrowSendHandler.cancelUrb h linker handle).buf = h.buf ++ f)
      (hne : f ≠ []) : Appended f
  | portReset {b h h' linker linker' next handle f}
      (hop : BorrowSendHandler.portStat b h linker next handle = .ok (h', linker'))
      (hbuf : h'.buf = h.buf ++ f) (hne : f ≠ []) : Appended f
  | reply {b h h' tokens tokens' event f} (hfit : LengthsFit event)
      (hop : LendSendHandler.handleEvent b h tokens event = .ok (.ok h', tokens'))
      (hbuf : h'.buf = h.buf ++ f) : Appended f

theorem isWire_bareHeader (command : Command) (status : Status) (seqnum : UInt32) :
    IsWire (bareHeader command status seqnum).asBytes where
  split := ⟨_, [], (List.append_nil _).symm, by rw [Header.asBytes_length]; rfl⟩
  dvd := by
    rw [Header.asBytes_length]

theorem isWire_submitFrame {urb : IocUrb} {seqnum : UInt32} {data : Bytes}
    (hdata : data.length = BorrowSendHandler.dataLen urb) :
    IsWire (BorrowSendHandler.submitFrame urb seqnum data) where
  split := by
    refine ⟨_, _, rfl, ?_⟩
    rw [BorrowSendHandler.submitFrame_length hdata]
    rfl
  dvd := by
    rw [BorrowSendHandler.submitFrame_length hdata]
    exact Nat.dvd_add (by decide) (BorrowSendHandler.eight_dvd_dataLen urb)

theorem isWire_replyFrame (kind : TransferKind) (seqnum : UInt32) {res : ResultData}
    (endpoint : Endpoint) (interval : UInt16) {rawIsoBuf : Bytes} (numErrors numIsoPackets : UInt16)
    (status : TransferStatus) (hres : res.get.length ≤ 65535) (hiso : 8 ∣ rawIsoBuf.length) :
    IsWire (LendSendHandler.replyFrame kind seqnum res endpoint interval rawIsoBuf numErrors
      numIsoPackets status) where
  split := by
    refine ⟨_, _, rfl, ?_⟩
    have hpad := padding_length (UInt16.ofNat res.get.length)
    rw [UInt16.toNat_ofNat', Nat.mod_eq_of_lt (by omega)] at hpad
    have hlen : Header.size + UrbHeader.size + rawIsoBuf.length + res.get.length +
        (padding (UInt16.ofNat res.get.length)).length =
        32 + (res.get.length + 7) / 8 * 8 + rawIsoBuf.length := by
      show 8 + 24 + _ + _ + _ = _
      omega
    rw [LendSendHandler.replyFrame_length _ _ _ _ _ _ _ _ hres]
    exact congrArg compressFrameLen hlen
  dvd := by
    rw [LendSendHandler.replyFrame_length _ _ _ _ _ _ _ _ hres]
    omega

/-- The reply of a completion whose lengths fit. -/
theorem isWire_of_completed {b : Build} {h h' : LendSendHandler} {tokens tokens' : Tokens}
    {kind : TransferKind} {seqnum : UInt32} {res : ResultData} {endpoint : Endpoint} {interval : UInt16}
    {rawIsoBuf : Bytes} {numErrors numIsoPackets : UInt16} {status : Except TransferError Unit}
    {f : Bytes}
    (hop : h.completed b tokens kind seqnum res endpoint interval rawIsoBuf numErrors numIsoPackets
      status = .ok (.ok h', tokens')) (hbuf : h'.buf = h.buf ++ f)
    (hres : res.actualTransferLen ≤ 65535) (hiso : 8 ∣ rawIsoBuf.length) : IsWire f := by
  obtain ⟨status', -, rfl⟩ := LendSendHandler.completed_ok hop
  rw [← List.append_cancel_left hbuf]
  exact isWire_replyFrame _ _ _ _ _ _ _ (res.get_length_le.trans hres) hiso

theorem isWire_of_appended {f : Bytes} (h : Appended f) : IsWire f := by
  cases h with
  | submit hfit hop hbuf =>
      obtain ⟨-, -, data, hdata, hframe⟩ := BorrowSendHandler.processUrb_ok hop
      rw [← List.append_cancel_left (hframe.symm.trans hbuf)]
      exact isWire_submitFrame hdata
  | @unlink h linker handle _ hbuf hne =>
      rw [BorrowSendHandler.cancelUrb_eq] at hbuf
      have hf := List.append_cancel_left hbuf
      cases hlookup : linker.seqnums.lookup handle with
      | none =>
          rw [hlookup] at hf
          exact absurd hf.symm hne
      | some seqnum =>
          rw [← hf, hlookup]
          exact isWire_bareHeader _ _ _
  | portReset hop hbuf hne =>
      rcases BorrowSendHandler.portStat_ok hop with ⟨hsame, -⟩ | ⟨-, -, -, -, hframe⟩
      · rw [hsame] at hbuf
        exact absurd (List.self_eq_append_right.mp hbuf) hne
      · rw [← List.append_cancel_left (hframe.symm.trans hbuf)]
        exact isWire_bareHeader _ _ _
  | @reply b h h' tokens tokens' event _ hfit hop hbuf =>
      cases event with
      | reset seq =>
          have hop := (Prod.mk.inj (Except.ok.inj hop)).1
          unfold LendSendHandler.deviceResetted at hop
          split at hop
          · cases hop
            rw [← List.append_cancel_left hbuf]
            exact isWire_bareHeader _ _ _
          · cases hop
      | ctrl seq => exact isWire_of_completed hop hbuf hfit (dvd_zero 8)
      | int seq => exact isWire_of_completed hop hbuf hfit (dvd_zero 8)
      | iso seq => exact isWire_of_completed hop hbuf hfit.1 (Dvd.intro _ hfit.2.symm)
      | bulk seq => exact isWire_of_completed hop hbuf hfit (dvd_zero 8)

/-- **Frame boundaries.** For any frames the send handlers append and any way of cutting their bytes
into reads, the receiver returns exactly these frames and then the end of the stream, and each length
field decodes to the true length, if and only if every frame is shorter than 65536 bytes. -/
theorem frames_delivered_iff (a : Alloc) (b : Build) (capacity : Nat) (frames : List Bytes)
    (happended : ∀ f ∈ frames, Appended f) (cs : List Chunk)
    (hcut : (cs.map Chunk.bytes).flatten = frames.flatten) :
    (Delivers a b (Ring.withCapacity capacity) (Reader.ofChunks cs) frames ∧
      ∀ f ∈ frames, QusbFrame.getSliceLen b f = .ok (.ok (f.length - Header.size))) ↔
    ∀ f ∈ frames, f.length < 65536 := by
  have hwire : ∀ f ∈ frames, IsWire f := fun f hf => isWire_of_appended (happended f hf)
  have hbytes : (Ring.withCapacity capacity).buf ++ (Reader.ofChunks cs).bytes = frames.flatten := by
    rw [Reader.bytes_ofChunks, hcut]
    rfl
  have hdelivers := delivers_iff a b _ _ frames hwire hbytes (Reader.errors_ofChunks cs)
  constructor
  · exact fun h => hdelivers.mp h.1
  · exact fun hlt => ⟨hdelivers.mpr hlt, fun f hf => getSliceLen_of_wire b (hwire f hf) (hlt f hf)⟩

/-- Two unlinks, read in pieces of five and eleven bytes. -/
theorem two_unlinks_delivered :
    let f := (bareHeader .cmdUnlink .success 7).asBytes
    Delivers .tight .dev (Ring.withCapacity 16)
      (Reader.ofChunks [⟨(f ++ f).take 5, by decide⟩, ⟨(f ++ f).drop 5, by decide⟩]) [f, f] ∧
    ∀ g ∈ [f, f], QusbFrame.getSliceLen .dev g = .ok (.ok (g.length - Header.size)) := by
  intro f
  let h : BorrowSendHandler :=
    ⟨[], 8, ⟨⟨true, true, false, true⟩, ⟨false, false⟩, ⟨1⟩, ⟨false⟩⟩, 0⟩
  have hbuf : (h.cancelUrb (Linker.empty.insert ⟨3⟩ 7) ⟨3⟩).buf = h.buf ++ f := rfl
  have hunlink : Appended f := .unlink hbuf (by decide)
  exact (frames_delivered_iff .tight .dev 16 [f, f] (by simpa using hunlink) _ (by decide)).mpr
    (by decide)

/-- The frame of a URB whose data is zero. -/
def zeroFrame (urb : IocUrb) : Bytes :=
  BorrowSendHandler.submitFrame urb 0 ((List.range (BorrowSendHandler.dataLen urb)).map fun _ => 0)

theorem zeroFrame_length (urb : IocUrb) :
    (zeroFrame urb).length = 32 + BorrowSendHandler.dataLen urb :=
  BorrowSendHandler.submitFrame_length (by rw [List.length_map, List.length_range])

theorem processUrb_zero {urb : IocUrb} (hfit : BorrowSendHandler.FieldsFit urb) :
    ∃ (h h' : BorrowSendHandler) (linker' : Linker),
      h.processUrb .dev (fun _ => 0) .empty urb ⟨3⟩ (.ok ([], [])) = .ok (.ok (), h', linker') ∧
        h'.buf = h.buf ++ zeroFrame urb := by
  let h : BorrowSendHandler :=
    ⟨[], 0, ⟨⟨true, true, false, true⟩, ⟨false, false⟩, ⟨1⟩, ⟨false⟩⟩, urb.address.get⟩
  have hnext : Build.dev.addU32 h.curSeq 1 = .ok 1 := rfl
  exact ⟨h, _, _, BorrowSendHandler.processUrb_of_data rfl hnext
    (BorrowSendHandler.urbData_blank (fun _ => 0) hfit), rfl⟩

theorem zeroFrame_appended {urb : IocUrb} (hfit : BorrowSendHandler.FieldsFit urb) :
    Appended (zeroFrame urb) := by
  obtain ⟨h, h', linker', hop, hbuf⟩ := processUrb_zero hfit
  exact .submit hfit hop hbuf

/-- A bulk transfer of 65535 bytes to the device. -/
def bigUrb : IocUrb := ⟨.bulk, ⟨1⟩, ⟨0x01⟩, .zero, 65535, 0, 0, 0⟩

theorem bigFrame_length : (zeroFrame bigUrb).length = 65568 := by
  have hdata : BorrowSendHandler.dataLen bigUrb = 65536 := by decide
  rw [zeroFrame_length, hdata]

/-- A long frame is not received even when it arrives in one read. -/
theorem not_delivers_of_long (b : Build) {f : Bytes} (hwire : IsWire f) (hne : f ≠ [])
    (hlong : 65536 ≤ f.length) :
    ¬ Delivers .tight b (Ring.withCapacity 0) (Reader.ofChunks [⟨f, hne⟩]) [f] := by
  intro h
  have hlt := (delivers_iff .tight b _ _ [f] (by simpa using hwire) rfl rfl).mp h f
    List.mem_cons_self
  omega

theorem zeroFrame_ne_nil : zeroFrame bigUrb ≠ [] :=
  List.ne_nil_of_length_pos (by rw [bigFrame_length]; decide)

theorem zeroFrame_not_delivered :
    Appended (zeroFrame bigUrb) ∧
    ¬ Delivers .tight .dev (Ring.withCapacity 0)
      (Reader.ofChunks [⟨zeroFrame bigUrb, zeroFrame_ne_nil⟩]) [zeroFrame bigUrb] ∧
    ¬ Delivers .tight .release (Ring.withCapacity 0)
      (Reader.ofChunks [⟨zeroFrame bigUrb, zeroFrame_ne_nil⟩]) [zeroFrame bigUrb] := by
  have happended := zeroFrame_appended (show BorrowSendHandler.FieldsFit bigUrb from ⟨by decide, by decide⟩)
  have hlong : 65536 ≤ (zeroFrame bigUrb).length := by
    rw [bigFrame_length]
    decide
  exact ⟨happended,
    not_delivers_of_long .dev (isWire_of_appended happended) zeroFrame_ne_nil hlong,
    not_delivers_of_long .release (isWire_of_appended happended) zeroFrame_ne_nil hlong⟩

end Qusb

import Qusb.Borrow.Recv
import Qusb.Frames

/-! Replies from the lender to the borrower's driver.

The lender writes a completed transfer as a header, a URB header, the padded transfer and the packet
descriptors, in four handlers that share no length with the reader. The borrower cuts the frame off its
stream, reads both headers, and splits the payload by the transfer length and the direction of the
endpoint. What was completed is what is given back. -/

open ByteCodec Tables

namespace Qusb

open Msg Proto Borrow Lend

namespace Lend

/-- What the four kinds of completions have in common. -/
structure Completion where
  seqnum : Seqnum
  kind : TransferKind
  res : ResultData
  endpoint : Endpoint
  interval : UInt16
  rawIsoBuf : Bytes
  numErrors : UInt16
  numIsoPackets : UInt16
  status : Except TransferError Unit

def CompletedTransfer.completion : CompletedTransfer → Option Completion
  | .reset _ => none
  | .ctrl seq =>
      some ⟨seq.seqnum, .control, seq.data.res, seq.data.endpoint, 0, [], 0, 0, seq.data.status⟩
  | .int seq =>
      some ⟨seq.seqnum, .interrupt, seq.data.res, seq.data.endpoint, seq.data.interval, [], 0, 0,
        seq.data.status⟩
  | .iso seq =>
      some ⟨seq.seqnum, .isochronous, seq.data.res, seq.data.endpoint, seq.data.interval,
        seq.data.rawIsoBuf, seq.data.numErrors, seq.data.numIsoPackets, seq.data.status⟩
  | .bulk seq =>
      some ⟨seq.seqnum, .bulk, seq.data.res, seq.data.endpoint, 0, [], 0, 0, seq.data.status⟩

def ResultData.dir : ResultData → Dir
  | .in _ => .in
  | .out _ => .out

theorem ResultData.dir_new (buf : Bytes) (dir : Dir) : (new buf dir).dir = dir := by
  cases dir <;> rfl

/-- The status of a completion that does not end the session. -/
def transferStatus : Except TransferError Unit → Option TransferStatus
  | .ok () => some .success
  | .error (.reportable err) => some err.toStatus
  | .error (.abortable _) => none

/-- The URB header of a reply. -/
def Completion.urbHeader (c : Completion) (status : TransferStatus) : UrbHeader :=
  ⟨c.res.asHeaderData.actualTransferLen, c.numIsoPackets, c.endpoint, c.kind, c.interval, status,
    (0, 0, 0), 0, c.numErrors, .zero⟩

def Completion.payload (c : Completion) : Bytes :=
  c.res.get ++ (padding (UInt16.ofNat c.res.get.length) ++ c.rawIsoBuf)

def Completion.frame (c : Completion) (status : TransferStatus) : Bytes :=
  LendSendHandler.replyFrame c.kind c.seqnum c.res c.endpoint c.interval c.rawIsoBuf c.numErrors
    c.numIsoPackets status

/-- The directions agree, the lengths are those the types of the protocol can hold, and the descriptors
of an isochronous transfer are complete. -/
structure Completion.WellFormed (c : Completion) : Prop where
  dir : c.res.dir = c.endpoint.dir
  out : ∀ n, c.res = .out n → n ≤ 65535
  iso : c.rawIsoBuf.length = UrbHeader.isoPacketSize * c.numIsoPackets.toNat

/-- The four kinds of completions are handled alike. -/
theorem handleEvent_eq {b : Build} {h : LendSendHandler} {tokens : Tokens} {completed : CompletedTransfer}
    {c : Completion} (hc : completed.completion = some c) :
    h.handleEvent b tokens completed = h.completed b tokens c.kind c.seqnum c.res c.endpoint c.interval
      c.rawIsoBuf c.numErrors c.numIsoPackets c.status := by
  cases completed with
  | reset seq => cases hc
  | ctrl seq => cases hc; rfl
  | int seq => cases hc; rfl
  | iso seq => cases hc; rfl
  | bulk seq => cases hc; rfl

/-- A completion that does not end the session appends its frame. -/
theorem handleEvent_completion {b : Build} {h : LendSendHandler} {tokens : Tokens}
    (hsound : tokens.Sound) {completed : CompletedTransfer} {c : Completion}
    (hc : completed.completion = some c) {status : TransferStatus}
    (hstatus : transferStatus c.status = some status) :
    ∃ tokens', h.handleEvent b tokens completed = .ok (.ok (h.putSlice (c.frame status)), tokens') := by
  obtain ⟨tokens', htokens, -⟩ := hsound.deregister b c.seqnum
  refine ⟨tokens', ?_⟩
  rw [handleEvent_eq hc]
  unfold LendSendHandler.completed
  rw [htokens, ok_bind]
  cases hs : c.status with
  | ok u =>
      rw [hs] at hstatus
      cases hstatus
      rfl
  | error err =>
      rw [hs] at hstatus
      cases err with
      | reportable err =>
          cases hstatus
          rfl
      | abortable err => cases hstatus

/-- A frame is its two headers and the payload. -/
theorem Completion.frame_eq (c : Completion) (status : TransferStatus) :
    c.frame status = (Header.mk (compressFrameLen (c.frame status).length) .retSubmit .success
      c.seqnum).asBytes ++ ((c.urbHeader status).asBytes ++ c.payload) := by
  have hlen : (c.frame status).length = Header.size + UrbHeader.size + c.rawIsoBuf.length +
      c.res.get.length + (padding (UInt16.ofNat c.res.get.length)).length := by
    simp only [frame, LendSendHandler.replyFrame, ResultData.asHeaderData, List.length_append,
      Header.asBytes_length, UrbHeader.asBytes_length, Header.size, UrbHeader.size]
    omega
  rw [hlen]
  rfl

theorem Completion.res_length_le (c : Completion) (status : TransferStatus) :
    32 + c.res.get.length ≤ (c.frame status).length := by
  rw [c.frame_eq]
  simp only [List.length_append, Header.asBytes_length, UrbHeader.asBytes_length, payload]
  omega

end Lend

namespace Borrow

/-- What is given back is what was completed. -/
structure GivesBack (handle : UrbHandle) (c : Completion) (g : OwnedUrbGiveback) : Prop where
  handle : g.handle = handle
  kind : g.kind = c.kind
  status : transferStatus c.status = some g.status
  data : match c.res with
    | .in buf => g.data = .in buf
    | .out n => ∃ transferred, g.data = .out transferred ∧ transferred.toNat = n
  isoPackets : g.isoPackets = c.rawIsoBuf

/-- The transfer of a payload ends where the URB header says. -/
theorem splitTo_payload {c : Completion} (status : TransferStatus) {buf : Bytes}
    (hres : c.res = .in buf) (hlen : c.res.get.length ≤ 65535) :
    (c.urbHeader status).actualTransferLen.toNat = buf.length ∧
      splitTo c.payload (c.urbHeader status).paddedTransferLen =
        .ok (buf ++ padding (UInt16.ofNat buf.length), c.rawIsoBuf) := by
  have hget : c.res.get = buf := by rw [hres]; rfl
  rw [hget] at hlen
  have hactual : (c.urbHeader status).actualTransferLen.toNat = buf.length := by
    show (UInt16.ofNat c.res.actualTransferLen).toNat = buf.length
    rw [hres, UInt16.toNat_ofNat']
    exact Nat.mod_eq_of_lt (by show buf.length < 65536; omega)
  have hpad := padding_length (UInt16.ofNat buf.length)
  rw [UInt16.toNat_ofNat', Nat.mod_eq_of_lt (by omega)] at hpad
  have hpadded : (c.urbHeader status).paddedTransferLen =
      (buf ++ padding (UInt16.ofNat buf.length)).length := by
    rw [UrbHeader.paddedTransferLen_eq, hactual, List.length_append, hpad]
  refine ⟨hactual, ?_⟩
  have hpayload : c.payload = (buf ++ padding (UInt16.ofNat buf.length)) ++ c.rawIsoBuf := by
    unfold Completion.payload
    rw [hget, List.append_assoc]
  have hle : (buf ++ padding (UInt16.ofNat buf.length)).length ≤
      (buf ++ padding (UInt16.ofNat buf.length) ++ c.rawIsoBuf).length :=
    (List.prefix_append _ _).length_le
  unfold splitTo
  rw [hpadded, hpayload, List.take_left, List.drop_left, if_pos hle]

/-- The reader splits the payload where the writer joined it. -/
theorem urbReply_completion {linker : Linker} {handle : UrbHandle} {c : Completion}
    {status : TransferStatus} {data : Data UrbFrame} (hwf : c.WellFormed)
    (hlen : c.res.get.length ≤ 65535) (hstatus : transferStatus c.status = some status)
    (hhandle : linker.handles.lookup c.seqnum = some handle)
    (hseqnum : linker.seqnums.lookup handle = some c.seqnum)
    (hheader : data.get.header = c.urbHeader status)
    (hbuf : data.buf = (c.urbHeader status).asBytes ++ c.payload) :
    ∃ giveback linker', BorrowRecvHandler.urbReply linker ⟨c.seqnum, data⟩ = .ok (giveback, linker') ∧
      GivesBack handle c giveback := by
  have hremove : linker.remove c.seqnum = .ok (handle,
      ⟨linker.seqnums.erase handle, linker.handles.erase c.seqnum⟩) := by
    unfold Linker.remove
    rw [hhandle, unwrap, ok_bind, hseqnum]
    rfl
  obtain ⟨rest, hrest, hpayload⟩ := splitData_bytes data
  rw [hbuf, List.drop_left' (UrbHeader.asBytes_length _)] at hpayload
  have hdir : (c.urbHeader status).isOut = decide (c.res.dir = .out) := by
    rw [hwf.dir]
    rfl
  unfold BorrowRecvHandler.urbReply
  simp only [hremove, ok_bind, hrest, unwrap, hheader, hpayload, hdir]
  cases hres : c.res with
  | out n =>
      have hempty : c.payload = c.rawIsoBuf := by
        have hpadding : padding (UInt16.ofNat (List.length ([] : Bytes))) = [] := by decide
        unfold Completion.payload
        rw [hres]
        show [] ++ (padding (UInt16.ofNat (List.length ([] : Bytes))) ++ c.rawIsoBuf) = c.rawIsoBuf
        rw [hpadding, List.nil_append, List.nil_append]
      have hcount : (c.urbHeader status).actualTransferLen.toNat = n := by
        have hn := hwf.out n hres
        show (UInt16.ofNat c.res.actualTransferLen).toNat = n
        rw [hres, UInt16.toNat_ofNat']
        exact Nat.mod_eq_of_lt (by show n < 65536; omega)
      exact ⟨_, _, rfl, rfl, rfl, hstatus, by rw [hres]; exact ⟨_, rfl, hcount⟩, hempty⟩
  | «in» buf =>
      obtain ⟨hactual, hsplit⟩ := splitTo_payload status hres hlen
      simp only [ResultData.dir, reduceCtorEq, decide_false, if_false, Bool.false_eq_true, hsplit,
        ok_bind, hactual, List.take_left]
      exact ⟨_, _, rfl, rfl, rfl, hstatus, by rw [hres], rfl⟩

/-- However the bytes of the frame arrive, and whatever follows them, the borrower cuts the frame off,
parses it as the reply to the sequence number, and gives back what was completed. -/
def ReceivesReply (a : Alloc) (b : Build) (linker : Linker) (handle : UrbHandle) (c : Completion)
    (f : Bytes) : Prop :=
  ∀ (ring : Ring) (rx : Reader) (more : Bytes), ring.buf ++ rx.bytes = f ++ more → rx.errors = [] →
    ∃ d ring' rx' seq giveback linker', recvFrame a b ring rx = .ok (.ok d, ring', rx') ∧
      ring'.buf ++ rx'.bytes = more ∧ parseFrame d = .ok (.ok (.urb seq)) ∧
      BorrowRecvHandler.urbReply linker seq = .ok (giveback, linker') ∧ GivesBack handle c giveback

theorem receivesReply_of_frame (a : Alloc) (b : Build) {linker : Linker} {handle : UrbHandle}
    {c : Completion} {status : TransferStatus} (hwf : c.WellFormed)
    (hstatus : transferStatus c.status = some status)
    (hhandle : linker.handles.lookup c.seqnum = some handle)
    (hseqnum : linker.seqnums.lookup handle = some c.seqnum) (hlt : (c.frame status).length < 65536)
    (hlen : c.res.get.length ≤ 65535) (hwire : IsWire (c.frame status)) :
    ReceivesReply a b linker handle c (c.frame status) := by
  intro ring rx more hbytes herrors
  obtain ⟨d, ring', rx', hcall, hbuf, hbytes', -⟩ :=
    recvFrame_of_wire a b ring rx hwire hlt hbytes herrors
  obtain ⟨hheader, data, hurb, hdata, hpayload⟩ := urbOf_of_buf (hbuf.trans (c.frame_eq status))
  have hparse : parseFrame d = .ok (.ok (.urb ⟨c.seqnum, data⟩)) := by
    unfold parseFrame
    simp only [hheader, replyStatus, hurb]
  obtain ⟨giveback, linker', hreply, hgives⟩ :=
    urbReply_completion hwf hlen hstatus hhandle hseqnum hdata hpayload
  exact ⟨d, ring', rx', _, giveback, linker', hcall, hbytes', hparse, hreply, hgives⟩

end Borrow

/-- **Replies.** Whatever the send buffer holds, a completion that does not end the session appends one
frame; unless the frame reaches 65536 bytes, its length is eight times its length field and the borrower
gives back what was completed, under the handle that its sequence number is filed under. -/
theorem reply_round_trip (b b' : Build) (a : Alloc) (h : LendSendHandler) (tokens : Tokens)
    (hsound : tokens.Sound) (completed : CompletedTransfer) (c : Completion)
    (hc : completed.completion = some c) (hwf : c.WellFormed) (status : TransferStatus)
    (hstatus : transferStatus c.status = some status) (linker : Linker) (handle : UrbHandle)
    (hhandle : linker.handles.lookup c.seqnum = some handle)
    (hseqnum : linker.seqnums.lookup handle = some c.seqnum) :
    ∃ h' tokens' f, h.handleEvent b tokens completed = .ok (.ok h', tokens') ∧
      h'.buf = h.buf ++ f ∧ (f.length < 65536 →
        f.length = 8 * (lenField f).toNat ∧ ReceivesReply a b' linker handle c f) := by
  obtain ⟨tokens', hevent⟩ := handleEvent_completion (b := b) (h := h) hsound hc hstatus
  refine ⟨_, tokens', c.frame status, hevent, rfl, fun hlt => ?_⟩
  have hlen : c.res.get.length ≤ 65535 := by
    have hle := c.res_length_le status
    omega
  have hwire : IsWire (c.frame status) :=
    isWire_replyFrame _ _ _ _ _ _ _ hlen (Dvd.intro _ hwf.iso.symm)
  have hfield : lenField (c.frame status) = compressFrameLen (c.frame status).length := by
    simpa using lenField_of_wire hwire []
  refine ⟨?_, receivesReply_of_frame a b' hwf hstatus hhandle hseqnum hlt hlen hwire⟩
  rw [hfield, eight_mul_compressFrameLen hwire.dvd hlt]

/-- An isochronous transfer of three bytes with one packet descriptor, one of whose packets timed out. -/
def isoSample : Seq Iso :=
  ⟨7, ⟨.in [1, 2, 3], ⟨0x81⟩, 4, [9, 0, 0, 0, 3, 0, 0, 0], 0, 1, .error (.reportable .timedOut)⟩⟩

theorem iso_reply_received :
    ∃ c h' tokens' f, (CompletedTransfer.iso isoSample).completion = some c ∧
      (LendSendHandler.new ⟨1, 2⟩).handleEvent .dev .empty (.iso isoSample) = .ok (.ok h', tokens') ∧
      h'.buf = [] ++ f ∧ (f.length < 65536 → f.length = 8 * (lenField f).toNat ∧
        ReceivesReply .tight .release (Linker.empty.insert ⟨3⟩ 7) ⟨3⟩ c f) := by
  have hwf : Completion.WellFormed ⟨7, .isochronous, .in [1, 2, 3], ⟨0x81⟩, 4,
      [9, 0, 0, 0, 3, 0, 0, 0], 0, 1, .error (.reportable .timedOut)⟩ :=
    ⟨by decide, fun n hn => (by cases hn), rfl⟩
  obtain ⟨h', tokens', f, hf⟩ := reply_round_trip .dev .release .tight (.new ⟨1, 2⟩) .empty
    Tokens.sound_empty (.iso isoSample) _ rfl hwf .timedOut rfl (Linker.empty.insert ⟨3⟩ 7) ⟨3⟩ rfl rfl
  exact ⟨_, h', tokens', f, rfl, hf⟩

end Qusb

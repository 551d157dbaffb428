import Qusb.RoundTrip.Reply
import Qusb.Proto.Accepted

/-! The shapes of URB frames.

A frame of the senders carries the payload that its header prescribes, and is pending exactly if it submits.
`parse_frame` does not check either, so what it accepts is well formed only if it has the shape of a frame that
one of the senders writes. -/

open ByteCodec Tables

namespace Qusb

open Msg Proto Borrow Lend

/-! ### The frames of the senders -/

/-- The URB frames that the send handlers append: what the borrower makes of a URB, and what the lender makes of
a transfer that ran in the direction of its endpoint. -/
inductive SentUrb : Bytes → Prop
  | submit {b mem h h' linker linker' urb handle fetched f}
      (hop : BorrowSendHandler.processUrb b mem h linker urb handle fetched = .ok (.ok (), h', linker'))
      (hbuf : h'.buf = h.buf ++ f) : SentUrb f
  | reply {b h h' tokens tokens' completed c f} (hc : CompletedTransfer.completion completed = some c)
      (hdir : c.res.dir = c.endpoint.dir) (hfit : LengthsFit completed)
      (hop : LendSendHandler.handleEvent b h tokens completed = .ok (.ok h', tokens'))
      (hbuf : h'.buf = h.buf ++ f) : SentUrb f

/-- A submission is pending and has the payload that its header prescribes. -/
theorem agrees_submitFrame {urb : IocUrb} (seqnum : UInt32) {data : Bytes}
    (hdata : data.length = BorrowSendHandler.dataLen urb) :
    Agrees (BorrowSendHandler.submitFrame urb seqnum data) := by
  refine (agrees_iff _ _ data).mpr ⟨?_, iff_of_true rfl rfl⟩
  have hpending : decide ((BorrowSendHandler.urbHeader urb).status = .pending) = true := rfl
  rw [hdata, BorrowSendHandler.dataLen, requiredByteLen, hasTransfer_eq, hpending, beq_true]

/-- Only what was read is sent back, padded to eight bytes. -/
theorem sent_length {buf : Bytes} (hlen : buf.length ≤ 65535) (dir : Dir) :
    (ResultData.new buf dir).asHeaderData.transfer.length + (ResultData.new buf dir).asHeaderData.padding.length =
      ((ResultData.new buf dir).asHeaderData.actualTransferLen.toNat + 7) / 8 * 8 *
        (!decide (dir = .out)).toNat := by
  cases dir with
  | out =>
      have htransfer : (ResultData.new buf .out).asHeaderData.transfer.length = 0 := rfl
      have hpadding : (ResultData.new buf .out).asHeaderData.padding.length = 0 := by
        simp only [ResultData.new, ResultData.asHeaderData, ResultData.get, List.length_nil]
        rfl
      rw [htransfer, hpadding]
      exact (Nat.mul_zero _).symm
  | «in» =>
      have hpad := padding_length (UInt16.ofNat buf.length)
      have hfield : (UInt16.ofNat buf.length).toNat = buf.length := by
        rw [UInt16.toNat_ofNat']
        omega
      show buf.length + (padding (UInt16.ofNat buf.length)).length =
        ((UInt16.ofNat buf.length).toNat + 7) / 8 * 8 * 1
      rw [Nat.mul_one, ← hpad, hfield]

/-- A reply has the payload that its header prescribes if the transfer ran in the direction of its endpoint. -/
theorem agrees_replyFrame (kind : TransferKind) (seqnum : UInt32) {buf : Bytes} (endpoint : Endpoint)
    (interval : UInt16) {rawIsoBuf : Bytes} (numErrors : UInt16) {numIsoPackets : UInt16}
    {status : TransferStatus} (hlen : buf.length ≤ 65535)
    (hiso : rawIsoBuf.length = numIsoPackets.toNat * UrbHeader.isoPacketSize) (hdone : status ≠ .pending) :
    Agrees (LendSendHandler.replyFrame kind seqnum (ResultData.new buf endpoint.dir) endpoint interval rawIsoBuf
      numErrors numIsoPackets status) := by
  refine (agrees_iff _ _ _).mpr ⟨?_, iff_of_false hdone Command.noConfusion⟩
  have hsent : decide (status = .pending) = false := decide_eq_false hdone
  have htransfer := sent_length hlen endpoint.dir
  rw [requiredByteLen, hasTransfer_eq, UrbHeader.paddedTransferLen_eq]
  simp only [UrbHeader.isOut, UrbHeader.isoByteLen, hsent, beq_false, List.length_append, hiso]
  rw [← Nat.add_assoc]
  exact congrArg (· + _) htransfer

theorem exists_eq_new (res : ResultData) :
    ∃ buf, res = ResultData.new buf res.dir ∧ buf.length = res.actualTransferLen := by
  cases res with
  | «in» buf => exact ⟨buf, rfl, rfl⟩
  | out n =>
      refine ⟨List.replicate n 0, ?_, List.length_replicate⟩
      show ResultData.out n = .out (List.replicate n 0).length
      rw [List.length_replicate]

theorem lengths_of_fit {completed : CompletedTransfer} {c : Completion} (hc : completed.completion = some c)
    (hfit : LengthsFit completed) :
    c.res.actualTransferLen ≤ 65535 ∧ c.rawIsoBuf.length = c.numIsoPackets.toNat * UrbHeader.isoPacketSize := by
  cases completed with
  | reset seq => cases hc
  | ctrl seq =>
      cases hc
      exact ⟨hfit, rfl⟩
  | int seq =>
      cases hc
      exact ⟨hfit, rfl⟩
  | bulk seq =>
      cases hc
      exact ⟨hfit, rfl⟩
  | iso seq =>
      cases hc
      exact ⟨hfit.1, hfit.2.trans (Nat.mul_comm _ _)⟩

/-- The frames of the senders agree with their headers. -/
theorem SentUrb.agrees {f : Bytes} (h : SentUrb f) : Agrees f := by
  cases h with
  | submit hop hbuf =>
      obtain ⟨-, -, data, hdata, hframe⟩ := BorrowSendHandler.processUrb_ok hop
      rw [← List.append_cancel_left (hframe.symm.trans hbuf)]
      exact agrees_submitFrame _ hdata
  | @reply b h h' tokens tokens' completed c _ hc hdir hfit hop hbuf =>
      obtain ⟨hres, hiso⟩ := lengths_of_fit hc hfit
      rw [handleEvent_eq hc] at hop
      obtain ⟨status, hdone, rfl⟩ := LendSendHandler.completed_ok hop
      obtain ⟨buf, hnew, hlen⟩ := exists_eq_new c.res
      rw [← List.append_cancel_left hbuf, hnew, hdir]
      exact agrees_replyFrame _ _ _ _ _ (hlen.trans_le hres) hiso hdone

/-! ### Shapes -/

/-- Frames of one length whose command, transfer length, packet count, endpoint and status are the same. -/
structure SameShape (bs bs' : Bytes) : Prop where
  length : bs.length = bs'.length
  command : bs.getD 2 0 = bs'.getD 2 0
  actualTransferLen : fieldAt bs 8 = fieldAt bs' 8
  isoPacketCount : fieldAt bs 10 = fieldAt bs' 10
  endpoint : bs.getD 12 0 = bs'.getD 12 0
  status : bs.getD 16 0 = bs'.getD 16 0

/-- Whether the bytes of a frame agree depends on its shape alone. -/
theorem SameShape.agrees {bs bs' : Bytes} (h : SameShape bs bs') (hagrees : Agrees bs') : Agrees bs := by
  have hout : isOutAt bs ↔ isOutAt bs' := by
    unfold isOutAt
    rw [h.endpoint]
  have hpending : isPendingAt bs ↔ isPendingAt bs' := by
    unfold isPendingAt
    rw [h.status]
  constructor
  · rw [h.length, hagrees.length, h.actualTransferLen, h.isoPacketCount]
    exact congrArg (32 + · + _) (if_congr (iff_congr hout hpending) rfl rfl).symm
  · rw [hpending, h.command]
    exact hagrees.pending

theorem requiredByteLen_congr {urb urb' : UrbHeader} (hlen : urb.actualTransferLen = urb'.actualTransferLen)
    (hcount : urb.isoPacketCount = urb'.isoPacketCount) (hendpoint : urb.endpoint = urb'.endpoint)
    (hstatus : urb.status = urb'.status) : requiredByteLen urb = requiredByteLen urb' := by
  simp only [requiredByteLen, hasTransfer, UrbHeader.isReply, UrbHeader.isPending, UrbHeader.isOut,
    UrbHeader.isoByteLen, UrbHeader.paddedTransferLen, hlen, hcount, hendpoint, hstatus]

/-- Frames that agree with headers of the same fields have the same shape. -/
theorem sameShape_of_agrees {header header' : Header} {urb urb' : UrbHeader} {payload payload' : Bytes}
    (h : Agrees (header.asBytes ++ (urb.asBytes ++ payload)))
    (h' : Agrees (header'.asBytes ++ (urb'.asBytes ++ payload'))) (hcommand : header.command = header'.command)
    (hlen : urb.actualTransferLen = urb'.actualTransferLen)
    (hcount : urb.isoPacketCount = urb'.isoPacketCount) (hendpoint : urb.endpoint = urb'.endpoint)
    (hstatus : urb.status = urb'.status) :
    SameShape (header.asBytes ++ (urb.asBytes ++ payload)) (header'.asBytes ++ (urb'.asBytes ++ payload')) where
  length := by
    have hpayload : payload.length = payload'.length :=
      calc payload.length = requiredByteLen urb := ((agrees_iff _ _ _).mp h).1
        _ = requiredByteLen urb' := requiredByteLen_congr hlen hcount hendpoint hstatus
        _ = payload'.length := ((agrees_iff _ _ _).mp h').1.symm
    simp only [List.length_append, Header.asBytes_length, UrbHeader.asBytes_length, hpayload]
  command := by rw [commandAt, commandAt, hcommand]
  actualTransferLen := by rw [actualTransferLenAt, actualTransferLenAt, hlen]
  isoPacketCount := by rw [isoPacketCountAt, isoPacketCountAt, hcount]
  endpoint := by rw [endpointAt, endpointAt, hendpoint]
  status := by rw [statusAt, statusAt, hstatus]

/-! ### Senders of every shape -/

/-- A URB with the given lengths. -/
def urbOfHeader (urb : UrbHeader) : IocUrb where
  typ := urb.kind
  address := ⟨1⟩
  endpoint := urb.endpoint
  setupPacket := .zero
  bufferLength := .ofNat urb.actualTransferLen.toNat
  packetCount := .ofNat urb.isoPacketCount.toNat
  interval := 0
  flags := 0

theorem toInt_ofField (field : UInt16) : (Int32.ofNat field.toNat).toInt = field.toNat :=
  Int32.toInt_ofNat_of_lt (field.toNat_lt.trans (by decide))

theorem ofField_fits (field : UInt16) :
    0 ≤ (Int32.ofNat field.toNat).toInt ∧ (Int32.ofNat field.toNat).toInt ≤ 65535 := by
  have hint := toInt_ofField field
  have hlt := field.toNat_lt
  exact ⟨by omega, by omega⟩

theorem ofNat_asUsize_ofField (field : UInt16) : UInt16.ofNat (asUsize (Int32.ofNat field.toNat)) = field := by
  have hint := toInt_ofField field
  have hlen : asUsize (Int32.ofNat field.toNat) = field.toNat := by
    have hpos := asUsize_of_nonneg (ofField_fits field).1
    omega
  rw [hlen, UInt16.ofNat_toNat]

theorem urbOfHeader_fits (urb : UrbHeader) : BorrowSendHandler.FieldsFit (urbOfHeader urb) :=
  ⟨ofField_fits urb.actualTransferLen, ofField_fits urb.isoPacketCount⟩

theorem zeroFrame_sent {urb : IocUrb} (hfit : BorrowSendHandler.FieldsFit urb) : SentUrb (zeroFrame urb) := by
  obtain ⟨h, h', linker', hop, hbuf⟩ := processUrb_zero hfit
  exact .submit hop hbuf

/-- Every status but a pending one is that of some completion. -/
theorem exists_transferStatus {status : TransferStatus} (hdone : status ≠ .pending) :
    ∃ done, transferStatus done = some status := by
  cases status with
  | success => exact ⟨.ok (), rfl⟩
  | pending => exact absurd rfl hdone
  | timedOut => exact ⟨.error (.reportable .timedOut), rfl⟩
  | cancelled => exact ⟨.error (.reportable .cancelled), rfl⟩
  | stall => exact ⟨.error (.reportable .stall), rfl⟩
  | overflow => exact ⟨.error (.reportable .overflow), rfl⟩
  | notEnoughBandwidth => exact ⟨.error (.reportable .notEnoughBandwidth), rfl⟩

/-- An isochronous transfer with the given lengths. -/
def isoOfHeader (urb : UrbHeader) (status : Except TransferError Unit) : Iso where
  res := ResultData.new (List.replicate urb.actualTransferLen.toNat 0) urb.endpoint.dir
  endpoint := urb.endpoint
  interval := 0
  rawIsoBuf := List.replicate (UrbHeader.isoPacketSize * urb.isoPacketCount.toNat) 0
  numErrors := 0
  numIsoPackets := urb.isoPacketCount
  status := status

theorem exists_sent_submit {header : Header} {urb : UrbHeader} {payload : Bytes}
    (hagrees : Agrees (header.asBytes ++ (urb.asBytes ++ payload))) (hcommand : header.command = .cmdSubmit) :
    ∃ f, SentUrb f ∧ SameShape (header.asBytes ++ (urb.asBytes ++ payload)) f := by
  have hsent := zeroFrame_sent (urbOfHeader_fits urb)
  have hpending : urb.status = .pending := ((agrees_iff _ _ _).mp hagrees).2.mpr hcommand
  exact ⟨_, hsent, sameShape_of_agrees hagrees hsent.agrees hcommand
    (ofNat_asUsize_ofField urb.actualTransferLen).symm (ofNat_asUsize_ofField urb.isoPacketCount).symm rfl hpending⟩

theorem exists_sent_reply {header : Header} {urb : UrbHeader} {payload : Bytes}
    (hagrees : Agrees (header.asBytes ++ (urb.asBytes ++ payload))) (hcommand : header.command = .retSubmit) :
    ∃ f, SentUrb f ∧ SameShape (header.asBytes ++ (urb.asBytes ++ payload)) f := by
  have hdone : urb.status ≠ .pending := fun hpending => by
    have hsubmit := ((agrees_iff _ _ _).mp hagrees).2.mp hpending
    rw [hcommand] at hsubmit
    cases hsubmit
  obtain ⟨status, hstatus⟩ := exists_transferStatus hdone
  let iso := isoOfHeader urb status
  let c : Completion := ⟨0, .isochronous, iso.res, iso.endpoint, iso.interval, iso.rawIsoBuf, iso.numErrors,
    iso.numIsoPackets, iso.status⟩
  have hc : (CompletedTransfer.iso ⟨0, iso⟩).completion = some c := rfl
  have hlen : c.res.actualTransferLen = urb.actualTransferLen.toNat :=
    (ResultData.actualTransferLen_new _ _).trans List.length_replicate
  have hfit : LengthsFit (.iso ⟨0, iso⟩) :=
    ⟨hlen.trans_le (Nat.le_of_lt_succ urb.actualTransferLen.toNat_lt), List.length_replicate⟩
  obtain ⟨tokens', hop⟩ := handleEvent_completion (b := .dev) (h := .new ⟨0, 0⟩) Tokens.sound_empty hc hstatus
  have hsent : SentUrb (c.frame urb.status) := .reply hc (ResultData.dir_new _ _) hfit hop rfl
  have hfield : urb.actualTransferLen = (c.urbHeader urb.status).actualTransferLen :=
    (UInt16.ofNat_toNat.symm).trans (congrArg UInt16.ofNat hlen.symm)
  refine ⟨c.frame urb.status, hsent, ?_⟩
  have hagrees' := hsent.agrees
  rw [c.frame_eq urb.status] at hagrees' ⊢
  exact sameShape_of_agrees hagrees hagrees' hcommand hfield rfl rfl rfl

/-! ### What is accepted -/

/-- **An accepted frame is well formed** exactly if it has the shape of a frame that a sender appends. -/
theorem accepted_wellFormed_iff {d : Data QusbFrame} {seq : Seq (Data UrbFrame)}
    (h : parseFrame d = .ok (.ok (.urb seq))) :
    WellFormed d.get.header.command seq.data ↔ ∃ f, SentUrb f ∧ SameShape d.buf f := by
  rw [wellFormed_iff_agrees h]
  obtain ⟨hcommand, hbuf⟩ := parseFrame_urb h
  constructor
  · intro hagrees
    rw [hbuf] at hagrees ⊢
    rcases hcommand with hsubmit | ⟨hreply, -⟩
    · exact exists_sent_submit hagrees hsubmit
    · exact exists_sent_reply hagrees hreply
  · rintro ⟨f, hsent, hshape⟩
    exact hshape.agrees hsent.agrees

/-- A read of 512 bytes is sent without a payload. -/
theorem read_wellFormed :
    ∃ seq, parseFrame (bareUrb .cmdSubmit (bulkHeader 0x81 .pending)) = .ok (.ok (.urb seq)) ∧
      WellFormed .cmdSubmit seq.data := by
  have haccepted : ∃ seq, parseFrame (bareUrb .cmdSubmit (bulkHeader 0x81 .pending)) = .ok (.ok (.urb seq)) :=
    ⟨_, rfl⟩
  obtain ⟨seq, hseq⟩ := haccepted
  have hsent : SentUrb (zeroFrame (urbOfHeader (bulkHeader 0x81 .pending))) :=
    zeroFrame_sent (urbOfHeader_fits _)
  exact ⟨seq, hseq, (accepted_wellFormed_iff hseq).mpr
    ⟨_, hsent, ⟨by decide, by decide, by decide, by decide, by decide, by decide⟩⟩⟩

/-- A write of 512 bytes without a payload is accepted, and so is a reply to a read that is still pending. -/
theorem malformed_accepted :
    (∃ seq, parseFrame (bareUrb .cmdSubmit (bulkHeader 0x01 .pending)) = .ok (.ok (.urb seq)) ∧
      ¬ WellFormed .cmdSubmit seq.data) ∧
    (∃ seq, parseFrame (bareUrb .retSubmit (bulkHeader 0x81 .pending)) = .ok (.ok (.urb seq)) ∧
      ¬ WellFormed .retSubmit seq.data) := by
  refine ⟨⟨_, rfl, fun h => ?_⟩, ⟨_, rfl, fun h => ?_⟩⟩
  · exact absurd h.length (by decide)
  · exact absurd (h.pending.mp rfl) (by decide)

end Qusb

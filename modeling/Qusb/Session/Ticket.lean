import Qusb.Borrow.Recv
import Qusb.Lend.Recv

/-! What travels between the peers.

A URB and a port reset are known by their sequence number on both sides: in the frame that submits them,
in the lender's items in progress and completions, and in the frame of the reply. `Ticket` is that
common identity. Unlinks and the header of a failed session carry none. -/

open ByteCodec Tables

namespace Qusb

open Msg Proto Borrow Lend

inductive Ticket where
  | urb (seqnum : Seqnum)
  | reset (seqnum : Seqnum)
  deriving DecidableEq, Repr

def Ticket.seqnum : Ticket → Seqnum
  | .urb n => n
  | .reset n => n

def Proto.Frame.ticket : Frame → Option Ticket
  | .urb seq => some (.urb seq.seqnum)
  | .portReset seqnum => some (.reset seqnum)
  | .unlink _ => none

/-- The frame that some bytes cut off the stream are; `none` stands for an error of the stream. -/
def readFrame (f : Bytes) : Except Fault (Option Frame) :=
  match (Data.new f).toOption with
  | some frame => do
      let parsed ← parseFrame frame
      return parsed.toOption
  | none => .ok none

def ticketOf (f : Bytes) : Option Ticket :=
  match readFrame f with
  | .ok (some frame) => frame.ticket
  | _ => none

theorem ticketOf_eq {f : Bytes} {frame : Frame} (h : readFrame f = .ok (some frame)) :
    ticketOf f = frame.ticket := by
  rw [ticketOf, h]

/-! ### Frames of the send handlers -/

/-- A frame is read by its header. -/
theorem readFrame_header (header : Header) (data : Bytes) :
    ∃ d : Data QusbFrame, d.buf = header.asBytes ++ data ∧ d.get = ⟨header, data⟩ ∧
      readFrame (header.asBytes ++ data) = (parseFrame d).map Except.toOption := by
  obtain ⟨d, hnew, hbuf, hget⟩ := Data.new_of_tryRef (tryRef_header header data)
  refine ⟨d, hbuf, hget, ?_⟩
  unfold readFrame
  rw [hnew]
  show (do let parsed ← parseFrame d; return parsed.toOption : Except Fault (Option Frame)) = _
  cases parseFrame d <;> rfl

theorem readFrame_bare {header : Header} {frame : Frame}
    (h : ∀ d : Data QusbFrame, d.get = ⟨header, []⟩ → parseFrame d = .ok (.ok frame)) :
    readFrame header.asBytes = .ok (some frame) := by
  obtain ⟨d, -, hget, hread⟩ := readFrame_header header []
  rw [List.append_nil] at hread
  rw [hread, h d hget]
  rfl

theorem readFrame_cmdPort (seqnum : Seqnum) :
    readFrame (bareHeader .cmdPort .success seqnum).asBytes = .ok (some (.portReset seqnum)) :=
  readFrame_bare fun d hget => by simp only [parseFrame, hget, bareHeader]

theorem readFrame_cmdUnlink (seqnum : Seqnum) :
    readFrame (bareHeader .cmdUnlink .success seqnum).asBytes = .ok (some (.unlink seqnum)) :=
  readFrame_bare fun d hget => by simp only [parseFrame, hget, bareHeader]

theorem readFrame_retPort (seqnum : Seqnum) :
    readFrame (bareHeader .retPort .success seqnum).asBytes = .ok (some (.portReset seqnum)) :=
  readFrame_bare fun d hget => by simp only [parseFrame, hget, bareHeader, replyStatus]

/-- A header and a URB header make a URB, unless the status of a reply says otherwise. -/
theorem readFrame_urb (header : Header) (urbHeader : UrbHeader) (data : Bytes)
    (hcommand : header.command = .cmdSubmit ∨ header.command = .retSubmit ∧ header.status = .success) :
    ∃ d : Data UrbFrame, d.get.header = urbHeader ∧
      readFrame (header.asBytes ++ (urbHeader.asBytes ++ data)) =
        .ok (some (.urb ⟨header.seqnum, d⟩)) := by
  obtain ⟨frame, hbuf, hget, hread⟩ := readFrame_header header (urbHeader.asBytes ++ data)
  have htry : tryRefFromBytes UrbFrame (urbHeader.asBytes ++ data) = some ⟨urbHeader, data⟩ := by
    show (UrbHeader.layout.decode (UrbHeader.layout.encode urbHeader ++ data)).map _ = _
    rw [UrbHeader.layout.decode_encode, Option.map_some]
    exact congrArg (fun rest => some (UrbFrame.mk urbHeader rest))
      (UrbHeader.layout.drop_encode_append _ _)
  obtain ⟨d, hnew, -, hd⟩ := Data.new_of_tryRef htry
  have hsplit : frame.splitData UrbFrame = some d := by
    show (Data.new (frame.buf.drop Header.size)).toOption = some d
    rw [hbuf, List.drop_left' (Header.asBytes_length _), hnew]
    rfl
  refine ⟨d, by rw [hd], ?_⟩
  rw [hread]
  rcases hcommand with hcmd | ⟨hcmd, hstatus⟩
  · simp only [parseFrame, hget, hcmd, urbOf, hsplit]
    rfl
  · simp only [parseFrame, hget, hcmd, hstatus, replyStatus, urbOf, hsplit]
    rfl

theorem ticketOf_submitFrame (urb : IocUrb) (seqnum : Seqnum) (data : Bytes) :
    ticketOf (BorrowSendHandler.submitFrame urb seqnum data) = some (.urb seqnum) := by
  obtain ⟨d, -, hread⟩ := readFrame_urb ⟨_, .cmdSubmit, .success, seqnum⟩
    (BorrowSendHandler.urbHeader urb) data (Or.inl rfl)
  exact ticketOf_eq hread

theorem ticketOf_replyFrame (kind : TransferKind) (seqnum : Seqnum) (res : ResultData)
    (endpoint : Endpoint) (interval : UInt16) (rawIsoBuf : Bytes) (numErrors numIsoPackets : UInt16)
    (status : TransferStatus) :
    ticketOf (LendSendHandler.replyFrame kind seqnum res endpoint interval rawIsoBuf numErrors
      numIsoPackets status) = some (.urb seqnum) := by
  obtain ⟨d, -, hread⟩ := readFrame_urb ⟨_, .retSubmit, .success, seqnum⟩ _ _ (Or.inr ⟨rfl, rfl⟩)
  exact ticketOf_eq hread

/-- The header of a failed session is never read as a frame. -/
theorem readFrame_error (e : UsbError) (frame : Frame) :
    readFrame e.asHeader.asBytes ≠ .ok (some frame) := by
  obtain ⟨d, -, hget, hread⟩ := readFrame_header e.asHeader []
  rw [List.append_nil] at hread
  rw [hread]
  obtain ⟨id, seqnum, err⟩ := e
  cases err with
  | reset =>
      simp [parseFrame, hget, UsbError.asHeader, bareHeader, SeqError.asCommand, SeqError.asStatus,
        replyStatus, Except.map, Except.toOption]
  | transfer kind endpoint err =>
      cases err <;>
        simp [parseFrame, hget, UsbError.asHeader, bareHeader, SeqError.asCommand, SeqError.asStatus,
          AbortableError.asProto, replyStatus, Except.map, Except.toOption]

/-! ### The lender's items -/

def Lend.InProgress.ticket : InProgress → Ticket
  | .reset n => .reset n
  | .ctrl n _ _ _ => .urb n
  | .setInterface n _ => .urb n
  | .setConfig n _ => .urb n
  | .clearStall n _ => .urb n
  | .int n _ _ _ => .urb n
  | .iso n _ _ _ _ _ _ _ => .urb n
  | .bulk n _ _ => .urb n

def Lend.CompletedTransfer.ticket : CompletedTransfer → Ticket
  | .reset seq => .reset seq.seqnum
  | .ctrl seq => .urb seq.seqnum
  | .int seq => .urb seq.seqnum
  | .iso seq => .urb seq.seqnum
  | .bulk seq => .urb seq.seqnum

end Qusb

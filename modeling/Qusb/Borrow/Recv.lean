import Qusb.Borrow.Send
import Qusb.Base.Runs
import Qusb.Proto.Recv

/-! The borrower's receiving side.

A reply is given back to the driver under the handle its sequence number is filed under. The loop trusts
the peer: a sequence number that is not in the tables, an unlink, or a payload shorter than the transfer
it announces stops it with a panic. `Expected` says which frames are safe in which state of the tables,
and the loop goes through a frame exactly when it is expected. -/

open ByteCodec Tables

namespace Qusb.Borrow

open Msg Proto

inductive GivebackData where
  | in (buf : Bytes)
  | out (transferred : UInt16)
  deriving DecidableEq, Repr

/-- A completed URB on its way back to the driver. -/
structure OwnedUrbGiveback where
  handle : UrbHandle
  kind : TransferKind
  status : TransferStatus
  data : GivebackData
  isoPackets : Bytes
  deriving DecidableEq, Repr

/-- Take the pair of a sequence number out of both tables. -/
def Linker.remove (linker : Linker) (seqnum : Seqnum) : Except Fault (UrbHandle × Linker) := do
  let handle ← unwrap (linker.handles.lookup seqnum)
  let _ ← unwrap (linker.seqnums.lookup handle)
  return (handle, ⟨linker.seqnums.erase handle, linker.handles.erase seqnum⟩)

/-- `BytesMut::split_to` of owned bytes. -/
def splitTo (buf : Bytes) (n : Nat) : Except Fault (Bytes × Bytes) :=
  if n ≤ buf.length then .ok (buf.take n, buf.drop n) else .error .splitOutOfRange

namespace BorrowRecvHandler

def urbReply (linker : Linker) (seq : Seq (Data UrbFrame)) :
    Except Fault (OwnedUrbGiveback × Linker) := do
  let (handle, linker) ← linker.remove seq.seqnum
  let urb := seq.data.get.header
  let data ← unwrap (seq.data.splitData Bytes)
  if urb.isOut then
    return (⟨handle, urb.kind, urb.status, .out urb.actualTransferLen, data.buf⟩, linker)
  else do
    let (transfer, rest) ← splitTo data.buf urb.paddedTransferLen
    return (⟨handle, urb.kind, urb.status, .in (transfer.take urb.actualTransferLen.toNat), rest⟩,
      linker)

def deviceReset (linker : Linker) (seqnum : Seqnum) : Except Fault Linker := do
  let (_, linker) ← linker.remove seqnum
  return linker

end BorrowRecvHandler

/-! ### The loop -/

/-- What the loop of the receiving side waits for. `resetDone` is the driver's answer to the end of a
port reset. -/
inductive RecvEvent where
  | frame (frame : Frame) (resetDone : Except IoError Unit)
  | frameError
  | givebackComplete (result : Except IoError Unit)
  | closed

/-- The shared tables, the URBs given back so far, and whether the loop still runs. -/
structure RecvLoop where
  linker : Linker
  givenBack : List OwnedUrbGiveback
  running : Bool

namespace RecvLoop

/-- One turn of `do_loop`; once it has returned, nothing is taken from its channels. -/
def step (s : RecvLoop) (event : RecvEvent) : Except Fault RecvLoop :=
  if s.running then
    match event with
    | .givebackComplete (.ok ()) => .ok s
    | .frame (.urb seq) _ => do
        let (giveback, linker) ← BorrowRecvHandler.urbReply s.linker seq
        return { s with linker := linker, givenBack := s.givenBack ++ [giveback] }
    | .frame (.portReset seqnum) resetDone => do
        let linker ← BorrowRecvHandler.deviceReset s.linker seqnum
        return { s with linker := linker, running := resetDone.isOk }
    | .frame (.unlink _) _ => .error .unreachable
    | .frameError => .ok { s with running := false }
    | .givebackComplete (.error _) => .ok { s with running := false }
    | .closed => .ok { s with running := false }
  else .ok s

end RecvLoop

/-! ### Which frames are safe -/

/-- Both tables know the sequence number. -/
def Linker.Knows (linker : Linker) (seqnum : Seqnum) : Prop :=
  ∃ handle, linker.handles.lookup seqnum = some handle ∧ linker.seqnums.lookup handle ≠ none

/-- A reply from the device carries the padded transfer it announces. -/
def CarriesTransfer (data : Data UrbFrame) : Prop :=
  data.get.header.isOut ∨
    data.get.header.paddedTransferLen ≤ data.buf.length - UrbHeader.size

/-- The frames the loop relies on its peer to send. -/
def Expected (linker : Linker) : Frame → Prop
  | .urb seq => linker.Knows seq.seqnum ∧ CarriesTransfer seq.data
  | .portReset seqnum => linker.Knows seqnum
  | .unlink _ => False

theorem Linker.remove_ok_iff {linker : Linker} {seqnum : Seqnum} :
    (∃ r, linker.remove seqnum = .ok r) ↔ linker.Knows seqnum := by
  unfold remove Knows
  cases hhandle : linker.handles.lookup seqnum with
  | none => simp [unwrap]
  | some handle =>
      cases hseqnum : linker.seqnums.lookup handle with
      | none => simp [unwrap, hseqnum]
      | some seqnum' => simp [unwrap, hseqnum, pure, Except.pure]

theorem urbReply_ok_iff {linker : Linker} {seq : Seq (Data UrbFrame)} :
    (∃ r, BorrowRecvHandler.urbReply linker seq = .ok r) ↔
      linker.Knows seq.seqnum ∧ CarriesTransfer seq.data := by
  obtain ⟨rest, hrest, hbuf⟩ := splitData_bytes seq.data
  rw [← Linker.remove_ok_iff]
  unfold BorrowRecvHandler.urbReply CarriesTransfer
  cases hremove : linker.remove seq.seqnum with
  | error f => simp
  | ok r =>
      have hlen : rest.buf.length = seq.data.buf.length - UrbHeader.size := by
        rw [hbuf, List.length_drop]
      cases hout : seq.data.get.header.isOut with
      | true => simp [hrest, unwrap, hout, pure, Except.pure]
      | false =>
          by_cases hfits : seq.data.get.header.paddedTransferLen ≤ rest.buf.length
          · simp [hrest, unwrap, hout, splitTo, hfits, ← hlen, pure, Except.pure]
          · simp [hrest, unwrap, hout, splitTo, hfits, ← hlen]

theorem deviceReset_ok_iff {linker : Linker} {seqnum : Seqnum} :
    (∃ linker', BorrowRecvHandler.deviceReset linker seqnum = .ok linker') ↔ linker.Knows seqnum := by
  rw [← Linker.remove_ok_iff]
  unfold BorrowRecvHandler.deviceReset
  cases linker.remove seqnum with
  | error f => simp
  | ok r => simp [pure, Except.pure]

/-- A giveback is made under the handle that is taken out of the tables. -/
theorem urbReply_remove {linker linker' : Linker} {seq : Seq (Data UrbFrame)}
    {giveback : OwnedUrbGiveback}
    (hok : BorrowRecvHandler.urbReply linker seq = .ok (giveback, linker')) :
    linker.remove seq.seqnum = .ok (giveback.handle, linker') := by
  obtain ⟨⟨handle, linker₁⟩, hremove, hok⟩ := bind_eq_ok_iff.mp hok
  obtain ⟨data, -, hok⟩ := bind_eq_ok_iff.mp hok
  simp only at hok
  split at hok
  · cases hok
    exact hremove
  · obtain ⟨⟨transfer, rest⟩, -, hok⟩ := bind_eq_ok_iff.mp hok
    cases hok
    exact hremove

theorem deviceReset_remove {linker linker' : Linker} {seqnum : Seqnum}
    (hok : BorrowRecvHandler.deviceReset linker seqnum = .ok linker') :
    ∃ handle, linker.remove seqnum = .ok (handle, linker') := by
  obtain ⟨⟨handle, linker₁⟩, hremove, hok⟩ := bind_eq_ok_iff.mp hok
  cases hok
  exact ⟨handle, hremove⟩

namespace RecvLoop

/-- The frame of an event, if it is one, is safe in the state it is taken from. -/
def Safe (s : RecvLoop) : RecvEvent → Prop
  | .frame frame _ => s.running → Expected s.linker frame
  | _ => True

theorem step_ok_iff (s : RecvLoop) (event : RecvEvent) :
    (∃ s', s.step event = .ok s') ↔ s.Safe event := by
  unfold step Safe
  cases hrunning : s.running with
  | false => cases event <;> simp
  | true =>
      cases event with
      | frame frame resetDone =>
          cases frame with
          | urb seq =>
              simp only [if_true, true_implies]
              rw [show Expected s.linker (.urb seq) ↔ _ from urbReply_ok_iff.symm]
              cases BorrowRecvHandler.urbReply s.linker seq with
              | error f => simp
              | ok r => simp [pure, Except.pure]
          | portReset seqnum =>
              simp only [if_true, true_implies]
              rw [show Expected s.linker (.portReset seqnum) ↔ _ from deviceReset_ok_iff.symm]
              cases BorrowRecvHandler.deviceReset s.linker seqnum with
              | error f => simp
              | ok linker => simp [pure, Except.pure]
          | unlink seqnum => simp [Expected]
      | frameError => simp
      | givebackComplete result => cases result <;> simp
      | closed => simp

end RecvLoop

/-! ### The borrower -/

/-- Both sides of a borrower. The tables are in `recv`; `sending` says that the send loop still runs. -/
structure Borrower where
  send : BorrowSendHandler
  sending : Bool
  recv : RecvLoop

inductive BorrowEvent where
  | work (work : Work) (env : BorrowSendHandler.WorkEnv)
  | recv (event : RecvEvent)

namespace Borrower

/-- A borrower that has just connected its port. -/
def start : Borrower where
  send := .new
  sending := true
  recv := ⟨.empty, [], true⟩

def step (V : Vhci) (b : Build) (s : Borrower) : BorrowEvent → Except Fault Borrower
  | .work work env =>
      if s.sending then do
        let (result, send, linker) ← s.send.handleWork V b env s.recv.linker work
        return ⟨send, result matches .setAddress | .processUrb (.ok _) | .mustveBeenTheWind,
          { s.recv with linker := linker }⟩
      else .ok s
  | .recv event => do
      let recv ← s.recv.step event
      return { s with recv := recv }

/-- The receiving side takes the event without a panic. -/
def RecvSafe (V : Vhci) (b : Build) (s : Borrower) (event : BorrowEvent) : Prop :=
  ∀ e, event = .recv e → ∃ s', step V b s event = .ok s'

/-- The frame of the event is one the receiving side relies on. -/
def RecvExpected (s : Borrower) (event : BorrowEvent) : Prop :=
  ∀ e, event = .recv e → s.recv.Safe e

theorem recvSafe_iff (V : Vhci) (b : Build) (s : Borrower) (event : BorrowEvent) :
    RecvSafe V b s event ↔ RecvExpected s event := by
  cases event with
  | work work env => simp [RecvSafe, RecvExpected]
  | recv e =>
      simp only [RecvSafe, RecvExpected, BorrowEvent.recv.injEq, forall_eq', step]
      rw [← RecvLoop.step_ok_iff]
      cases s.recv.step e with
      | error f => simp
      | ok recv => simp [pure, Except.pure]

/-- **A lender and the borrower's panics.** Along every run of a borrower, from any tables and with its own
work in any order, the receiving side goes through each of its events exactly when each frame is
expected in the state it arrives in. -/
theorem recv_safe_iff (V : Vhci) (b : Build) (s : Borrower) (events : List BorrowEvent) :
    Runs.Meets (step V b) (RecvSafe V b) s events ↔ Runs.Meets (step V b) RecvExpected s events :=
  Runs.Meets.congr (recvSafe_iff V b)

/-- A reply with a transfer of eight bytes that carries none. -/
def emptyReply : Seq (Data UrbFrame) where
  seqnum := 0
  data := ⟨(UrbHeader.mk 8 0 ⟨0x81⟩ .bulk 0 .success (0, 0, 0) 0 0 .zero).asBytes, by decide⟩

/-- A bulk URB of eight bytes from the device. -/
def readUrb : IocUrb := ⟨.bulk, ⟨0⟩, ⟨0x81⟩, .zero, 8, 0, 0, 0⟩

theorem not_recv_safe :
    ¬ (∀ events, Runs.Meets (step .usb .dev) (RecvSafe .usb .dev) start events) ∧
    start.recv.step (.frame (.unlink 0) (.ok ())) = .error .unreachable ∧
    start.recv.step (.frame (.portReset 0) (.ok ())) = .error .unwrapNone ∧
    Runs.run (step .usb .dev) start
      [.work (.processUrb readUrb ⟨3⟩) ⟨fun _ => 0, .ok ([], []), ⟨0⟩⟩,
        .recv (.frame (.urb emptyReply) (.ok ()))] = .error .splitOutOfRange := by
  refine ⟨fun h => ?_, rfl, rfl, ?_⟩
  · obtain ⟨s', hs'⟩ := (h [.recv (.frame (.unlink 0) (.ok ()))]).1 _ rfl
    cases hs'
  · rfl

end Borrower
end Qusb.Borrow

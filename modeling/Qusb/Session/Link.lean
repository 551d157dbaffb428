import Qusb.Frames
import Qusb.SendLoop.Loops
import Qusb.Session.Transparency

/-! The two programs over their two streams.

Here the four loops run as they are: each sending loop has its buffer, its timer and its flusher, and each receiving
loop calls `recvFrame` on its ring, which is fed with whatever pieces of the stream have arrived. The ends of a session
are not modelled here; a sending loop that ends is a state that no more is said of. -/

open ByteCodec Tables

namespace Qusb

open Msg Proto Borrow Lend

/-! ### The model -/

/-- The bytes of a stream that may have arrived: those written, and those of the flush under way. -/
def Writer.sent {σ : Type} (w : Writer σ) : Bytes := w.written ++ w.flusher.getD []

/-- What a receiving loop has of its stream: its ring, and how many bytes it has read. -/
structure Inlet where
  ring : Ring
  read : Nat

/-- The chunks are the next bytes of the stream. -/
def Inlet.Arrived (inlet : Inlet) (sent : Bytes) (chunks : List Chunk) : Prop :=
  (Reader.ofChunks chunks).bytes <+: sent.drop inlet.read

instance (inlet : Inlet) (sent : Bytes) (chunks : List Chunk) : Decidable (inlet.Arrived sent chunks) :=
  inferInstanceAs (Decidable (_ <+: _))

/-- A call of `recv_frame` that is fed with the chunks, and what it returns. As long as the stream is open, a call
that runs out of bytes has not returned. -/
def Inlet.recv (a : Alloc) (b : Build) (inlet : Inlet) (sent : Bytes) (chunks : List Chunk) :
    Except Fault (Option (Option Frame × Inlet)) :=
  if inlet.Arrived sent chunks then do
    let (received, ring, rx) ← recvFrame a b inlet.ring (.ofChunks chunks)
    let inlet := ⟨ring, inlet.read + ((Reader.ofChunks chunks).bytes.length - rx.bytes.length)⟩
    match received with
    | .ok d => do
        let parsed ← parseFrame d
        return some (parsed.toOption, inlet)
    | .error (some _) => return some (none, inlet)
    | .error none => return none
  else .ok none

structure BorrowSide where
  send : Borrow.SendLoop
  recv : Borrow.RecvLoop
  inlet : Inlet

structure LendSide where
  send : Lend.SendLoop
  recv : Lend.RecvLoop
  inlet : Inlet

structure Link where
  borrow : BorrowSide
  lend : LendSide

inductive LinkEvent where
  | work (work : Work) (env : BorrowSendHandler.WorkEnv)
  | flushBuf
  | flushComplete (result : Except IoError Unit)
  | addressSet (result : Except IoError Unit)
  | workEnded
  | toLender (chunks : List Chunk)
  | completed (index : Nat) (outcome : Lend.Outcome)
  | lend (index : Nat)
  | lendFlushBuf
  | lendFlushComplete (result : Except IoError Unit)
  | lendEnded
  | toBorrower (chunks : List Chunk) (resetDone : Except IoError Unit)
  | giveback (result : Except IoError Unit)

namespace Link

def start (devId : Lend.UsbDeviceId) (cap : Nat) : Link where
  borrow := ⟨.start, Borrow.Borrower.start.recv, ⟨.withCapacity cap, 0⟩⟩
  lend := ⟨Lend.SendLoop.start devId, .start, ⟨.withCapacity cap, 0⟩⟩

/-- Both sending loops still run. -/
def Sending (x : Link) : Prop := x.borrow.send.writer.running = true ∧ x.lend.send.running = true

variable (V : Vhci) (a : Alloc) (b : Build)

def stepWork (x : Link) (work : Work) (env : BorrowSendHandler.WorkEnv) : Except Fault Link :=
  if x.borrow.send.writer.running then do
    let (result, handler, linker) ←
      x.borrow.send.writer.handler.handleWork V b env x.borrow.recv.linker work
    return { x with borrow := { x.borrow with
      send := x.borrow.send.worked result handler
      recv := { x.borrow.recv with linker := linker } } }
  else .ok x

/-- A turn of the borrower's sending loop that takes no work. -/
def stepSend (x : Link) (event : Borrow.SendEvent) : Except Fault Link := do
  let send ← x.borrow.send.step V b event
  return { x with borrow := { x.borrow with send := send } }

/-- A turn of the lender's sending loop that takes no completion. -/
def stepLendSend (x : Link) (event : Lend.SendEvent) : Except Fault Link := do
  let send ← Lend.SendLoop.step b x.lend.send event
  return { x with lend := { x.lend with send := send } }

def stepLend (x : Link) (index : Nat) : Except Fault Link :=
  if x.lend.send.running then
    match x.lend.recv.sent[index]? with
    | none => .ok x
    | some completed => do
        let (result, tokens) ← x.lend.send.handler.handleEvent b x.lend.recv.handler.tokens completed
        let handler := { x.lend.recv.handler with tokens := tokens }
        return { x with lend := { x.lend with
          send := x.lend.send.lent result
          recv := { x.lend.recv with handler := handler, sent := x.lend.recv.sent.eraseIdx index } } }
  else .ok x

def stepToLender (x : Link) (chunks : List Chunk) : Except Fault Link :=
  if x.lend.recv.running then do
    match ← x.lend.inlet.recv a b x.borrow.send.writer.sent chunks with
    | none => return x
    | some (frame, inlet) => do
        let recv ← x.lend.recv.step V (frame.elim .frameError .frame)
        return { x with lend := { x.lend with recv := recv, inlet := inlet } }
  else .ok x

def stepToBorrower (x : Link) (chunks : List Chunk) (resetDone : Except IoError Unit) : Except Fault Link :=
  if x.borrow.recv.running then do
    match ← x.borrow.inlet.recv a b x.lend.send.sent chunks with
    | none => return x
    | some (frame, inlet) => do
        let event := frame.elim Borrow.RecvEvent.frameError fun frame => .frame frame resetDone
        let recv ← x.borrow.recv.step event
        return { x with borrow := { x.borrow with recv := recv, inlet := inlet } }
  else .ok x

def step (x : Link) : LinkEvent → Except Fault Link
  | .work work env => x.stepWork V b work env
  | .flushBuf => x.stepSend V b .flushBuf
  | .flushComplete result => x.stepSend V b (.flushComplete result)
  | .addressSet result => x.stepSend V b (.setAddress result)
  | .workEnded => x.stepSend V b .closed
  | .toLender chunks => x.stepToLender V a b chunks
  | .completed index outcome => do
      let recv ← x.lend.recv.step V (.completed index outcome)
      return { x with lend := { x.lend with recv := recv } }
  | .lend index => x.stepLend b index
  | .lendFlushBuf => x.stepLendSend b .flushBuf
  | .lendFlushComplete result => x.stepLendSend b (.flushComplete result)
  | .lendEnded => x.stepLendSend b .closed
  | .toBorrower chunks resetDone => x.stepToBorrower a b chunks resetDone
  | .giveback result => do
      let recv ← x.borrow.recv.step (.givebackComplete result)
      return { x with borrow := { x.borrow with recv := recv } }

/-- The submission that the lender's loop takes up. -/
def arriving (x : Link) (chunks : List Chunk) : Option (Seq (Data UrbFrame)) :=
  match x.lend.inlet.recv a b x.borrow.send.writer.sent chunks with
  | .ok (some (frame, _)) => x.lend.recv.takes frame
  | _ => none

def traffic (x : Link) (event : LinkEvent) (x' : Link) (t : Traffic) : Traffic :=
  match event with
  | .work (.processUrb urb handle) env =>
      let seqnum := x.borrow.send.writer.handler.curSeq
      if x'.borrow.send.writer.handler.curSeq = seqnum then t
      else { t with submitted := t.submitted ++ [⟨seqnum, urb, handle, env.fetched⟩] }
  | .toLender chunks => { t with taken := t.taken ++ (x.arriving a b chunks).toList }
  | .completed index o => { t with answered := t.answered ++ (x.lend.recv.ends index).toList.map fun n => (n, o) }
  | _ => t

/-- The drivers' side of the contract, in terms of the tables. -/
def Contract (x : Link) (event : LinkEvent) : Prop :=
  let numbered := x.borrow.send.writer.handler.curSeq.toNat + 1 < 2 ^ 32
  match event with
  | .work (.processUrb urb handle) env => numbered ∧ x.borrow.recv.linker.seqnums.lookup handle = none ∧
      Sendable urb ∧ Submission.Filled ⟨x.borrow.send.writer.handler.curSeq, urb, handle, env.fetched⟩
  | .work (.portStat _) env => numbered ∧ x.borrow.recv.linker.seqnums.lookup env.random = none
  | .completed index o => ∀ item, x.lend.recv.inProgress[index]? = some item → AllPackets o item
  | _ => True

end Link
end Qusb

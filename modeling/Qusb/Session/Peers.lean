import Qusb.Base.Ledger
import Qusb.Session.Lender

/-! A borrower and a lender that talk to each other.

The two directions are queues of whole frames. A frame waits in its queue from the moment a send handler
appends it until the peer receives it; when a send loop ends, frames that were not written yet are lost.
The history records which ticket was filed for which handle and which pair was settled by a reply. It is
not part of the code: the code has the two tables, and `Ledger` says how they agree with the history. -/

open ByteCodec Tables Ledgers

namespace Qusb

open Msg Proto

/-- Both sides of a lender; `sending` says that the send loop still runs. -/
structure Lender where
  recv : Lend.RecvLoop
  send : Lend.LendSendHandler
  sending : Bool

structure Session where
  borrow : Borrow.Borrower
  lend : Lender
  toLender : List Bytes
  toBorrower : List Bytes
  history : History Ticket UrbHandle

/-- What happens next: the borrower takes a work item, a frame arrives at the lender, the item in
progress with the given index ends, the lender replies to the completion with the given index, a frame
arrives at the borrower, or a giveback returns. `lost` counts the frames that are not written when the
send loop ends in this event. -/
inductive SessionEvent where
  | work (work : Work) (env : Borrow.BorrowSendHandler.WorkEnv) (lost : Nat)
  | toLender
  | completed (index : Nat) (outcome : Lend.Outcome)
  | reply (index : Nat) (lost : Nat)
  | toBorrower (resetDone : Except IoError Unit)
  | giveback (result : Except IoError Unit)

namespace Session

/-- The frame an operation appended to an empty buffer, if any. -/
def appended (buf : Bytes) : List Bytes := if buf = [] then [] else [buf]

/-- The queue once a send loop has ended. -/
def loseLast (frames : List Bytes) (lost : Nat) : List Bytes := frames.take (frames.length - lost)

/-- The ticket and the handle that a sequence number is taken for. -/
def filing (work : Work) (random : UrbHandle) (seqnum : Seqnum) : Option (Ticket × UrbHandle) :=
  match work with
  | .processUrb _ handle => some (.urb seqnum, handle)
  | .portStat _ => some (.reset seqnum, random)
  | .cancelUrb _ => none

/-- A sequence number was taken if the counter moved. -/
def number (hist : History Ticket UrbHandle) (work : Work) (random : UrbHandle) (seqnum next : Seqnum) :
    History Ticket UrbHandle :=
  if next = seqnum then hist
  else (filing work random seqnum).elim hist fun p => hist.file p.1 p.2

/-- A reply settles its ticket with the handle that was given back; the end of a port reset settles it
with the handle it was filed for. -/
def settle (hist : History Ticket UrbHandle) (frame : Option Frame) (before after : Borrow.RecvLoop) :
    History Ticket UrbHandle :=
  match frame with
  | some (.urb seq) => { hist with
      settled := hist.settled ++ (after.givenBack.drop before.givenBack.length).map fun giveback =>
        (.urb seq.seqnum, giveback.handle) }
  | some (.portReset seqnum) =>
      if before.running then { hist with
        settled := hist.settled ++ (before.linker.handles.lookup seqnum).toList.map fun handle =>
          (.reset seqnum, handle) }
      else hist
  | _ => hist

variable (V : Vhci) (b : Build)

def stepWork (s : Session) (work : Work) (env : Borrow.BorrowSendHandler.WorkEnv) (lost : Nat) :
    Except Fault Session := do
  let borrow ← s.borrow.step V b (.work work env)
  return { s with
    borrow := { borrow with send := { borrow.send with buf := [] } }
    toLender := if borrow.sending then s.toLender ++ appended borrow.send.buf
      else loseLast s.toLender lost
    history := number s.history work env.random s.borrow.send.curSeq borrow.send.curSeq }

def stepToLender (s : Session) : Except Fault Session :=
  match s.toLender with
  | [] => .ok s
  | f :: rest => do
      let frame ← readFrame f
      let recv ← s.lend.recv.step V (frame.elim .frameError .frame)
      return { s with toLender := rest, lend := { s.lend with recv := recv } }

def stepCompleted (s : Session) (index : Nat) (outcome : Lend.Outcome) : Except Fault Session := do
  let recv ← s.lend.recv.step V (.completed index outcome)
  return { s with lend := { s.lend with recv := recv } }

/-- The lender after it has handled a completion: it sent a reply or ended the session. -/
def replied (s : Session) (recv : Lend.RecvLoop) (lost : Nat) :
    Except Lend.UsbError Lend.LendSendHandler → Session
  | .ok send => { s with
      lend := { s.lend with recv := recv, send := { send with buf := [] } }
      toBorrower := s.toBorrower ++ appended send.buf }
  | .error e => { s with
      lend := { s.lend with recv := recv, sending := false }
      toBorrower := loseLast s.toBorrower lost ++ [e.asHeader.asBytes] }

def stepReply (s : Session) (index lost : Nat) : Except Fault Session :=
  if s.lend.sending then
    match s.lend.recv.sent[index]? with
    | none => .ok s
    | some completed => do
        let (result, tokens) ← s.lend.send.handleEvent b s.lend.recv.handler.tokens completed
        let handler := { s.lend.recv.handler with tokens := tokens }
        let recv := { s.lend.recv with handler := handler, sent := s.lend.recv.sent.eraseIdx index }
        return s.replied recv lost result
  else .ok s

def stepToBorrower (s : Session) (resetDone : Except IoError Unit) : Except Fault Session :=
  match s.toBorrower with
  | [] => .ok s
  | f :: rest => do
      let frame ← readFrame f
      let event := frame.elim Borrow.RecvEvent.frameError fun frame => .frame frame resetDone
      let recv ← s.borrow.recv.step event
      return { s with
        toBorrower := rest
        borrow := { s.borrow with recv := recv }
        history := settle s.history frame s.borrow.recv recv }

def stepGiveback (s : Session) (result : Except IoError Unit) : Except Fault Session := do
  let recv ← s.borrow.recv.step (.givebackComplete result)
  return { s with borrow := { s.borrow with recv := recv } }

def step (s : Session) : SessionEvent → Except Fault Session
  | .work work env lost => s.stepWork V b work env lost
  | .toLender => s.stepToLender V
  | .completed index outcome => s.stepCompleted V index outcome
  | .reply index lost => s.stepReply b index lost
  | .toBorrower resetDone => s.stepToBorrower resetDone
  | .giveback result => s.stepGiveback result

/-- Two peers that have just connected for a device. -/
def start (devId : Lend.UsbDeviceId) : Session where
  borrow := .start
  lend := ⟨.start, .new devId, true⟩
  toLender := []
  toBorrower := []
  history := .empty

/-- The driver's side of the contract: sequence numbers do not run out, a URB comes with a handle that no
outstanding URB or reset has, and so does the handle drawn for a port reset. -/
def Allowed (s : Session) : SessionEvent → Prop
  | .work (.processUrb _ handle) _ _ =>
      s.history.filed.length + 1 < 2 ^ 32 ∧ ¬ s.history.Live handle
  | .work (.portStat _) env _ =>
      s.history.filed.length + 1 < 2 ^ 32 ∧ ¬ s.history.Live env.random
  | _ => True

/-! ### The invariant -/

/-- The tickets that are not settled yet, wherever they are. -/
def tickets (s : Session) : List Ticket :=
  s.toLender.filterMap ticketOf ++ (s.lend.recv.tickets ++ s.toBorrower.filterMap ticketOf)

/-- The handles of the URBs among settled pairs. -/
def urbHandles (pairs : List (Ticket × UrbHandle)) : List UrbHandle :=
  pairs.filterMap fun p => match p.1 with
    | .urb _ => some p.2
    | .reset _ => none

structure Sound (s : Session) : Prop where
  flushed : s.borrow.send.buf = [] ∧ s.lend.send.buf = []
  numbered : s.borrow.send.curSeq.toNat = s.history.filed.length
  earlier : ∀ p ∈ s.history.filed, p.1.seqnum.toNat < s.history.filed.length
  ledger : Ledger Ticket.seqnum s.history s.borrow.recv.linker.seqnums s.borrow.recv.linker.handles
  custody : Custody Ticket.seqnum s.history s.tickets
  held : s.lend.recv.Held
  replies : ∀ f ∈ s.toBorrower, ∀ frame, readFrame f = .ok (some frame) → frame.ticket ≠ none
  givenBack : s.borrow.recv.givenBack.map (·.handle) = urbHandles s.history.settled

theorem sound_start (devId : Lend.UsbDeviceId) : Sound (start devId) where
  flushed := ⟨rfl, rfl⟩
  numbered := rfl
  earlier := by simp [start, History.empty]
  ledger := Ledger.start
  custody := Custody.start
  held := by
    intro n hn
    exact absurd hn (AList.notMem_empty n)
  replies := by simp [start]
  givenBack := rfl

/-- The next sequence number is new. -/
theorem Sound.fresh {s : Session} (hs : s.Sound) :
    ¬ s.history.Used Ticket.seqnum s.borrow.send.curSeq := by
  intro hused
  obtain ⟨p, hp, heq⟩ := List.mem_map.mp hused
  have hlt := hs.earlier p hp
  rw [heq, hs.numbered] at hlt
  exact lt_irrefl _ hlt

end Session
end Qusb

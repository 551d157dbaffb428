import Qusb.Base.Settling
import Qusb.Session.Tasks

/-! How a session ends.

`borrow` registers a port, spawns its two loops and awaits the receiving one; only then does it cancel the
token, await the sending loop and give the port back. `lend` starts a thread for the USB library and its two
loops, awaits both, cancels the token and awaits the thread. The two hosts share nothing but the two
directions of the stream: a session is over when the end of one loop has reached the other three. Tasks do not
panic here: a panic would go on through the unwrapped result of the join, and is left out. -/

open Runs

namespace Qusb.Teardown

open Lend Proto

/-! ### The two operations -/

/-- `borrow::error::VhciError`. -/
inductive VhciError where
  | driver (e : IoError)
  | phys (e : AbortableError)

/-- `borrow::error::Error`. -/
inductive BorrowError where
  | vhci (e : VhciError)
  | recv (e : RecvError)
  | send (e : IoError)

/-- `lend::error::Error`. -/
inductive LendError where
  | usb (e : UsbError)
  | recv (e : RecvError)
  | send (e : IoError)

/-- The errors of the library that the two operations return. -/
inductive Error where
  | network (e : IoError)
  | unknown
  | usb (e : UsbError)
  | vhci (e : VhciError)

def Error.ofLend : LendError → Error
  | .usb e => .usb e
  | .recv (.io e) => .network e
  | .send e => .network e
  | .recv .corruptedData => .unknown

def Error.ofBorrow : BorrowError → Error
  | .vhci e => .vhci e
  | .recv (.io e) => .network e
  | .send e => .network e
  | .recv .corruptedData => .unknown

/-- Where `borrow` is: it waits for the port, for the receiving loop, for the sending loop, for the port to be
given back, or has returned. -/
inductive BorrowPhase where
  | registering
  | running
  | stopping (recv : Except BorrowError Unit)
  | disconnecting (recv send : Except BorrowError Unit)
  | returned (result : Except Error Unit)

/-- Where `lend` is: it waits for both loops, for the thread of the USB library, or has returned. -/
inductive LendPhase where
  | running
  | stopping (result : Except LendError Unit)
  | returned (result : Except Error Unit)

/-- The channels between the lender's loops. -/
inductive ChannelKind where
  | reset
  | ctrl
  | int
  | iso
  | bulk
  deriving DecidableEq, Repr

def ChannelKind.slots : ChannelKind → Nat
  | .reset => 1
  | .ctrl => 1
  | .int => 1
  | .iso => 8
  | .bulk => 8

/-- A completed transfer: the length of its reply, or the error that ends the sending loop. -/
structure Completed where
  kind : ChannelKind
  reply : Except UsbError Nat

structure Borrowing where
  phase : BorrowPhase
  cancelled : Bool
  send : SendTask BorrowError
  recv : RecvTask BorrowError

/-- `delivering` is a completed transfer that waits for room in its channel, and keeps the receiving loop
from anything else. -/
structure Lending where
  phase : LendPhase
  cancelled : Bool
  libusb : Bool
  send : SendTask LendError
  recv : RecvTask LendError
  delivering : Option Completed
  queued : List Completed

structure Session where
  lost : Bool
  toLender : Pipe
  toBorrower : Pipe
  borrower : Borrowing
  lender : Lending

/-- What the user, the kernel, the devices, the network and the bytes of the peer do. None of it makes a task
panic, and there is no flow control: a stream takes all that is written. -/
inductive Environment where
  /-- The connection is lost. -/
  | lose
  | cancelBorrower
  | cancelLender
  /-- The borrower's sending loop takes a work item, and appends so many bytes. -/
  | work (n : Nat)
  /-- The work items end, or one of them fails in the driver. -/
  | workEnded (result : Except IoError Unit)
  /-- The driver or a frame about the device fails the borrower's receiving loop. -/
  | recvFailed (n : Nat) (e : VhciError)
  /-- The bytes that the borrower, or the lender, reads are no frame. -/
  | borrowCorrupted (n : Nat)
  | lendCorrupted (n : Nat)
  /-- A transfer of the lender is completed. -/
  | completed (item : Completed)

inductive BorrowEvent where
  | registered (result : Except IoError Unit)
  | send (m : SendMove)
  | recv (m : RecvMove)
  | recvJoined
  | sendJoined
  | disconnected (result : Except IoError Unit)

inductive LendEvent where
  | send (m : SendMove)
  | recv (m : RecvMove)
  /-- The channel has room for the completed transfer, or has no receiver any more. -/
  | delivered
  /-- The sending loop takes a completed transfer from a channel. -/
  | handled (kind : ChannelKind)
  /-- The channels are empty and have no sender any more. -/
  | eventsEnded
  | joined
  | libusbEnded
  | libusbJoined

inductive Event where
  | env (e : Environment)
  | borrow (e : BorrowEvent)
  | lend (e : LendEvent)

/-- The steps of the program happen sooner or later; the environment need not do anything. -/
def Internal : Event → Prop
  | .env _ => False
  | .borrow _ => True
  | .lend _ => True

/-- The event cannot happen, or the code panics. -/
inductive Halt where
  | disabled
  | fault (f : Fault)

/-- The `match` on what the lender's loops returned. -/
def lendResult (recv send : Except LendError Unit) : Except Halt (Except LendError Unit) :=
  match recv, send with
  | .ok (), .ok () => .ok (.ok ())
  | .ok (), .error e => .ok (.error e)
  | .error e, .ok () => .ok (.error e)
  | .error (.recv _), .error (.usb e) => .ok (.error (.usb e))
  | .error (.recv .corruptedData), .error (.send _) => .ok (.error (.recv .corruptedData))
  | .error (.recv (.io _)), .error (.send e) => .ok (.error (.send e))
  | .error (.send _), .error _ => .error (.fault .unreachable)
  | .error _, .error (.recv _) => .error (.fault .unreachable)
  | .error (.usb _), .error _ => .error (.fault .unreachable)

/-- The end of `borrow`: the port's error goes before the sending loop's, and this before the receiving loop's. -/
def borrowResult (recv send : Except BorrowError Unit) (disconnect : Except IoError Unit) : Except Error Unit := do
  disconnect.mapError .network
  send.mapError .ofBorrow
  recv.mapError .ofBorrow

namespace Session

/-- Both hosts have shaken hands; `borrow` and `lend` are called. -/
def start : Session where
  lost := false
  toLender := .new
  toBorrower := .new
  borrower := ⟨.registering, false, .held, .held⟩
  lender := ⟨.running, false, true, .main 0, .main, none, []⟩

def ensure (c : Prop) [Decidable c] (s : Session) : Except Halt Session :=
  if c then .ok s else .error .disabled

def environment (s : Session) : Environment → Except Halt Session
  | .lose => .ok { s with lost := true }
  | .cancelBorrower => .ok { s with borrower := { s.borrower with cancelled := true } }
  | .cancelLender => .ok { s with lender := { s.lender with cancelled := true } }
  | .work n =>
      match s.borrower.send with
      | .main buffered => .ok { s with borrower := { s.borrower with send := .main (buffered + n) } }
      | _ => .error .disabled
  | .workEnded result =>
      match s.borrower.send with
      | .main _ => .ok { s with
          borrower := { s.borrower with send := .closing (result.mapError fun e => .vhci (.driver e)) }
          toLender := { s.toLender with finished := true } }
      | _ => .error .disabled
  | .recvFailed n e =>
      match s.borrower.recv with
      | .main => ensure (n ≤ s.toBorrower.unread) { s with
          borrower := { s.borrower with recv := .draining drainRoom (.error (.vhci e)) }
          toBorrower := { s.toBorrower with unread := s.toBorrower.unread - n } }
      | _ => .error .disabled
  | .borrowCorrupted n =>
      match s.borrower.recv with
      | .main => ensure (n ≤ s.toBorrower.unread) { s with
          borrower := { s.borrower with recv := .draining drainRoom (.error (.recv .corruptedData)) }
          toBorrower := { s.toBorrower with unread := s.toBorrower.unread - n } }
      | _ => .error .disabled
  | .lendCorrupted n =>
      match s.lender.recv, s.lender.delivering with
      | .main, none => ensure (n ≤ s.toLender.unread) { s with
          lender := { s.lender with recv := .draining drainRoom (.error (.recv .corruptedData)) }
          toLender := { s.toLender with unread := s.toLender.unread - n } }
      | _, _ => .error .disabled
  | .completed item =>
      match s.lender.recv, s.lender.delivering with
      | .main, none => .ok { s with lender := { s.lender with delivering := some item } }
      | _, _ => .error .disabled

/-- The steps of `borrow` and of its loops. -/
def borrowStep (s : Session) : BorrowEvent → Except Halt Session
  | .registered (.ok ()) =>
      match s.borrower.phase with
      | .registering => .ok { s with
          borrower := { s.borrower with phase := .running, send := .main 0, recv := .main } }
      | _ => .error .disabled
  | .registered (.error e) =>
      -- The streams are dropped, and the token is not cancelled.
      match s.borrower.phase with
      | .registering => .ok { s with
          borrower := { s.borrower with phase := .returned (.error (.network e)), send := .dropped, recv := .dropped }
          toLender := { s.toLender with finished := true }
          toBorrower := { s.toBorrower with dropped := true } }
      | _ => .error .disabled
  | .send m =>
      match s.borrower.send.move .send s.borrower.cancelled s.lost s.toLender m with
      | some (t, p) => .ok { s with borrower := { s.borrower with send := t }, toLender := p }
      | none => .error .disabled
  | .recv m =>
      match s.borrower.recv.move .recv s.borrower.cancelled s.lost s.toBorrower m with
      | some (t, p) => .ok { s with borrower := { s.borrower with recv := t }, toBorrower := p }
      | none => .error .disabled
  | .recvJoined =>
      match s.borrower.phase, s.borrower.recv with
      | .running, .done recv => .ok { s with borrower := { s.borrower with phase := .stopping recv, cancelled := true } }
      | _, _ => .error .disabled
  | .sendJoined =>
      match s.borrower.phase, s.borrower.send with
      | .stopping recv, .done send => .ok { s with borrower := { s.borrower with phase := .disconnecting recv send } }
      | _, _ => .error .disabled
  | .disconnected result =>
      match s.borrower.phase with
      | .disconnecting recv send => .ok { s with
          borrower := { s.borrower with phase := .returned (borrowResult recv send result) } }
      | _ => .error .disabled

/-- The arms of a completed transfer: its reply is appended, or the header of its error is written and the
main loop left; the channels have no receiver then. -/
def handle (s : Session) (buffered : Nat) (rest : List Completed) : Except UsbError Nat → Session
  | .ok n => { s with lender := { s.lender with send := .main (buffered + n), queued := rest } }
  | .error e =>
      let written := if s.toBorrower.dropped ∨ s.lost then 0 else Msg.Header.size
      { s with
        lender := { s.lender with send := .closing (.error (.usb e)), queued := [] }
        toBorrower := { s.toBorrower with unread := s.toBorrower.unread + written, finished := true } }

/-- The steps of `lend`, of its loops and of its thread. -/
def lendStep (s : Session) : LendEvent → Except Halt Session
  | .send m =>
      match s.lender.send.move .send s.lender.cancelled s.lost s.toBorrower m with
      | some (t, p) => .ok { s with
          lender := { s.lender with send := t, queued := if t.isOpen then s.lender.queued else [] }
          toBorrower := p }
      | none => .error .disabled
  | .recv m =>
      match s.lender.delivering, s.lender.recv.move .recv s.lender.cancelled s.lost s.toLender m with
      | none, some (t, p) => .ok { s with lender := { s.lender with recv := t }, toLender := p }
      | _, _ => .error .disabled
  | .delivered =>
      match s.lender.delivering with
      | some item =>
          if s.lender.send.isOpen then
            ensure ((s.lender.queued.map Completed.kind).count item.kind < item.kind.slots) { s with
              lender := { s.lender with delivering := none, queued := s.lender.queued ++ [item] } }
          else .ok { s with lender := { s.lender with delivering := none } }
      | none => .error .disabled
  | .handled kind =>
      match s.lender.send, s.lender.queued.find? (·.kind == kind) with
      | .main buffered, some item =>
          .ok (s.handle buffered (s.lender.queued.eraseP (·.kind == kind)) item.reply)
      | _, _ => .error .disabled
  | .eventsEnded =>
      match s.lender.send, s.lender.recv with
      | .main _, .main => .error .disabled
      | .main _, _ => ensure (s.lender.queued = []) { s with
          lender := { s.lender with send := .closing (.ok ()) }
          toBorrower := { s.toBorrower with finished := true } }
      | _, _ => .error .disabled
  | .joined =>
      match s.lender.phase, s.lender.recv, s.lender.send with
      | .running, .done recv, .done send => do
          let result ← lendResult recv send
          return { s with lender := { s.lender with phase := .stopping result, cancelled := true } }
      | _, _, _ => .error .disabled
  | .libusbEnded => ensure (s.lender.cancelled ∧ s.lender.libusb) { s with lender := { s.lender with libusb := false } }
  | .libusbJoined =>
      match s.lender.phase with
      | .stopping result => ensure (s.lender.libusb = false) { s with
          lender := { s.lender with phase := .returned (result.mapError .ofLend) } }
      | _ => .error .disabled

def step (s : Session) : Event → Except Halt Session
  | .env e => s.environment e
  | .borrow e => s.borrowStep e
  | .lend e => s.lendStep e

end Session
end Qusb.Teardown

import Qusb.Borrow.Recv
import Qusb.Proto.Framing

/-! The borrower's receiving side on the bytes of its stream.

`Receiver` is the loop with the stream it reads: a turn receives and parses one frame, or finishes giving a
URB back, and a turn that fails ends the loop with its error. Frames that are valid are consumed one by one,
so the turn after them starts at the first byte that follows them. -/

open ByteCodec

namespace Qusb.Borrow

open Msg Proto

/-- How the receiving side ends: with an error of the device, of the stream or of the driver, or in order. -/
inductive Ended where
  | phys (err : AbortableError)
  | recv (err : RecvError)
  | driver (err : IoError)
  | closed
  deriving DecidableEq, Repr

structure Receiver where
  ring : Ring
  rx : Reader
  loop : RecvLoop
  ended : Option Ended

/-- `resetDone` is the driver's answer to the end of a port reset, should the frame be one. -/
inductive ReceiverEvent where
  | frame (resetDone : Except IoError Unit)
  | givebackComplete (result : Except IoError Unit)
  | cancelled

def ReceiverEvent.isFrame : ReceiverEvent → Bool
  | .frame _ => true
  | _ => false

/-- The driver's answer ends the loop when it is an error. -/
def Ended.ofDriver : Except IoError Unit → Option Ended
  | .ok () => none
  | .error err => some (.driver err)

namespace Receiver

/-- One turn on what was received and parsed. -/
def received (s : Receiver) (resetDone : Except IoError Unit) :
    Except (Option RecvError) (Except AbortableError Frame) → Except Fault Receiver
  | .ok (.ok frame) => do
      let loop ← s.loop.step (.frame frame resetDone)
      let ended := if frame matches .portReset _ then Ended.ofDriver resetDone else none
      return { s with loop := loop, ended := ended }
  | .ok (.error err) => do
      let loop ← s.loop.step .frameError
      return { s with loop := loop, ended := some (.phys err) }
  | .error (some err) => do
      let loop ← s.loop.step .frameError
      return { s with loop := loop, ended := some (.recv err) }
  | .error none => do
      let loop ← s.loop.step .closed
      return { s with loop := loop, ended := some .closed }

/-- A turn of the loop while it runs. -/
def turn (a : Alloc) (b : Build) (s : Receiver) : ReceiverEvent → Except Fault Receiver
  | .frame resetDone =>
      match recvFrame a b s.ring s.rx with
      | .error f => .error f
      | .ok (frame, ring, rx) => do
          let out ← onReceived parseFrame frame
          { s with ring := ring, rx := rx }.received resetDone out
  | .givebackComplete result => do
      let loop ← s.loop.step (.givebackComplete result)
      return { s with loop := loop, ended := Ended.ofDriver result }
  | .cancelled => do
      let loop ← s.loop.step .closed
      return { s with loop := loop, ended := some .closed }

/-- Once the loop has ended, nothing is taken from the stream. -/
def step (a : Alloc) (b : Build) (s : Receiver) (event : ReceiverEvent) : Except Fault Receiver :=
  match s.ended with
  | none => s.turn a b event
  | some _ => .ok s

section

variable {a : Alloc} {b : Build} {s s' : Receiver}

theorem step_running (h : s.ended = none) (event : ReceiverEvent) : s.step a b event = s.turn a b event := by
  rw [step, h]

/-- A loop that has ended stays as it is. -/
theorem run_ended (h : s.ended ≠ none) (events : List ReceiverEvent) :
    Runs.run (step a b) s events = .ok s := by
  induction events with
  | nil => rfl
  | cons event events ih =>
      obtain ⟨e, he⟩ := Option.ne_none_iff_exists'.mp h
      have hstep : s.step a b event = .ok s := by rw [step, he]
      rw [Runs.run_cons_ok hstep, ih]

theorem received_stream {resetDone : Except IoError Unit}
    {out : Except (Option RecvError) (Except AbortableError Frame)}
    (hok : s.received resetDone out = .ok s') : s'.ring = s.ring ∧ s'.rx = s.rx := by
  rcases out with err | frame
  · cases err with
    | none =>
        obtain ⟨loop, -, hok⟩ := bind_eq_ok_iff.mp hok
        cases hok
        exact ⟨rfl, rfl⟩
    | some err =>
        obtain ⟨loop, -, hok⟩ := bind_eq_ok_iff.mp hok
        cases hok
        exact ⟨rfl, rfl⟩
  · cases frame with
    | error err =>
        obtain ⟨loop, -, hok⟩ := bind_eq_ok_iff.mp hok
        cases hok
        exact ⟨rfl, rfl⟩
    | ok frame =>
        obtain ⟨loop, -, hok⟩ := bind_eq_ok_iff.mp hok
        cases hok
        exact ⟨rfl, rfl⟩

/-- The turn on a wire frame is the one on its parse. -/
theorem turn_frame (a : Alloc) (b : Build) (s : Receiver) {f more : Bytes} (hwire : IsWire f)
    (hlt : f.length < 65536) (hbytes : s.ring.buf ++ s.rx.bytes = f ++ more) (herrors : s.rx.errors = [])
    (resetDone : Except IoError Unit) :
    ∃ (d : Data QusbFrame) (ring : Ring) (rx : Reader), d.buf = f ∧ ring.buf ++ rx.bytes = more ∧
      rx.errors = [] ∧ s.turn a b (.frame resetDone) = (do
        let parsed ← parseFrame d
        { s with ring := ring, rx := rx }.received resetDone (.ok parsed)) := by
  obtain ⟨d, ring, rx, hcall, hbuf, hmore, hend⟩ :=
    recvFrame_of_wire a b s.ring s.rx hwire hlt hbytes herrors
  refine ⟨d, ring, rx, hbuf, hmore, hend, ?_⟩
  simp only [turn, hcall, onReceived]
  cases parseFrame d <;> rfl

/-- A turn that takes no frame leaves the stream. -/
theorem turn_other {event : ReceiverEvent} (hother : event.isFrame = false)
    (hok : s.turn a b event = .ok s') : s'.ring = s.ring ∧ s'.rx = s.rx := by
  cases event with
  | frame resetDone => cases hother
  | givebackComplete result =>
      obtain ⟨loop, -, hok⟩ := bind_eq_ok_iff.mp hok
      cases hok
      exact ⟨rfl, rfl⟩
  | cancelled =>
      obtain ⟨loop, -, hok⟩ := bind_eq_ok_iff.mp hok
      cases hok
      exact ⟨rfl, rfl⟩

/-- **Valid frames** are consumed one by one while the loop runs. -/
theorem run_frames {events : List ReceiverEvent} {frames : List Bytes} {more : Bytes}
    (hwire : ∀ f ∈ frames, IsWire f) (hlt : ∀ f ∈ frames, f.length < 65536)
    (hbytes : s.ring.buf ++ s.rx.bytes = frames.flatten ++ more) (herrors : s.rx.errors = [])
    (hrun : Runs.run (step a b) s events = .ok s') (hrunning : s'.ended = none)
    (hcount : events.countP ReceiverEvent.isFrame = frames.length) :
    s'.ring.buf ++ s'.rx.bytes = more ∧ s'.rx.errors = [] := by
  induction events generalizing s frames with
  | nil =>
      cases hrun
      obtain rfl : frames = [] := List.eq_nil_of_length_eq_zero hcount.symm
      exact ⟨hbytes, herrors⟩
  | cons event events ih =>
      have hstart : s.ended = none := by
        by_contra hended
        rw [run_ended hended] at hrun
        cases hrun
        exact hended hrunning
      obtain ⟨s₁, hstep, hrest⟩ := Runs.run_cons_eq_ok_iff.mp hrun
      rw [step_running hstart] at hstep
      cases hframe : event.isFrame with
      | false =>
          obtain ⟨hring, hrx⟩ := turn_other hframe hstep
          rw [List.countP_cons_of_neg (by simp [hframe])] at hcount
          rw [← hring, ← hrx] at hbytes
          rw [← hrx] at herrors
          exact ih hwire hlt hbytes herrors hrest hcount
      | true =>
          obtain ⟨resetDone, rfl⟩ : ∃ resetDone, event = .frame resetDone := by
            cases event with
            | frame resetDone => exact ⟨resetDone, rfl⟩
            | givebackComplete result => cases hframe
            | cancelled => cases hframe
          rw [List.countP_cons_of_pos rfl] at hcount
          cases frames with
          | nil => cases hcount
          | cons f frames =>
              rw [List.flatten_cons, List.append_assoc] at hbytes
              obtain ⟨d, ring, rx, -, hmore, hend, hturn⟩ := turn_frame a b s
                (hwire f List.mem_cons_self) (hlt f List.mem_cons_self) hbytes herrors resetDone
              rw [hturn] at hstep
              obtain ⟨parsed, -, hok⟩ := bind_eq_ok_iff.mp hstep
              obtain ⟨hring, hrx⟩ := received_stream hok
              refine ih (fun g hg => hwire g (List.mem_cons_of_mem f hg))
                (fun g hg => hlt g (List.mem_cons_of_mem f hg)) ?_ ?_ hrest
                (Nat.succ.inj hcount)
              · rw [hring, hrx]
                exact hmore
              · rw [hrx]
                exact hend

end

end Receiver
end Qusb.Borrow

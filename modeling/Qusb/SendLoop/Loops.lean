import Qusb.Borrow.Send
import Qusb.Lend.Send
import Qusb.SendLoop.Writer

/-! The send loops of the borrower and of the lender.

Each turn takes one of the futures that are raced in the current state. The two loops differ in their
handlers, in the driver's answer to a SET_ADDRESS request, which only the borrower waits for, and in that
the lender arms its timer after any reply without looking at the buffer. -/

open ByteCodec

namespace Qusb

open Proto

instance : SendBuf Borrow.BorrowSendHandler where
  buf h := h.buf
  flushBuf h := (h.buf, { h with buf := [] })
  flushBuf_fst _ := rfl
  flushBuf_snd _ := rfl

instance : SendBuf Lend.LendSendHandler where
  buf h := h.buf
  flushBuf h := (h.buf, { h with buf := [] })
  flushBuf_fst _ := rfl
  flushBuf_snd _ := rfl

/-! ### The borrower -/

namespace Borrow

/-- What the loop waits for. The tables are shared with the receiving side, so a work item meets any. -/
inductive SendEvent where
  | work (work : Work) (env : BorrowSendHandler.WorkEnv) (linker : Linker)
  | flushBuf
  | flushComplete (result : Except IoError Unit)
  | setAddress (result : Except IoError Unit)
  | closed

structure SendLoop where
  writer : Writer BorrowSendHandler
  addrSetter : Bool

namespace SendLoop

def start : SendLoop := ⟨.start .new, false⟩

/-- The futures raced in the current state that can become ready. -/
def ready (s : SendLoop) : SendEvent → Bool
  | .work _ _ _ => true
  | .flushBuf => s.writer.timerReady
  | .flushComplete _ => s.writer.flusherReady
  | .setAddress _ => s.addrSetter
  | .closed => true

/-- The arm of `Event::Work`, by what `handle_work` returned. -/
def worked (s : SendLoop) (result : BorrowSendHandler.WorkResult) (handler : BorrowSendHandler) :
    SendLoop :=
  let writer := s.writer.handled handler
  let solicited := if s.writer.state = .solicit && !writer.isBufEmpty then writer.armTimer else writer
  match result with
  | .setAddress => { s with writer := writer, addrSetter := true }
  | .processUrb (.ok ()) => { s with writer := solicited }
  | .mustveBeenTheWind => { s with writer := solicited }
  | .processUrb (.error _) => { s with writer := writer.exit }

/-- One turn of `do_loop`. -/
def step (V : Vhci) (b : Build) (s : SendLoop) (event : SendEvent) : Except Fault SendLoop :=
  if s.writer.running && s.ready event then
    match event with
    | .work work env linker => do
        let (result, handler, _) ← s.writer.handler.handleWork V b env linker work
        return s.worked result handler
    | .flushBuf => do
        let writer ← s.writer.flushBuf
        return { s with writer := writer }
    | .flushComplete result => .ok { s with writer := s.writer.flushComplete result }
    | .setAddress (.ok ()) => .ok { s with addrSetter := false }
    | .setAddress (.error _) => .ok { s with writer := s.writer.exit }
    | .closed => .ok { s with writer := s.writer.exit }
  else .ok s

theorem consistent_solicited {w : Writer BorrowSendHandler} {handler : BorrowSendHandler} {f : Bytes}
    (hw : w.Consistent) (hbuf : handler.buf = w.buf ++ f) :
    (if w.state = .solicit && !(w.handled handler).isBufEmpty then (w.handled handler).armTimer
      else w.handled handler).Consistent := by
  cases hempty : (w.handled handler).isBufEmpty with
  | true =>
      have hnil : handler.buf = [] := List.isEmpty_iff.mp hempty
      have hsame : handler.buf = w.buf := by
        rw [hnil, List.append_eq_nil_iff.mp (hbuf.symm.trans hnil) |>.1]
      rw [if_neg (by simp)]
      exact hw.still hsame
  | false =>
      have hne : handler.buf ≠ [] := fun hnil => by
        rw [show (w.handled handler).isBufEmpty = true from List.isEmpty_iff.mpr hnil] at hempty
        cases hempty
      by_cases hstate : w.state = .solicit
      · rw [if_pos (by simp [hstate])]
        exact hw.arm hbuf hstate hne
      · rw [if_neg (by simp [hstate])]
        exact hw.busy hbuf hstate

/-- A turn after which the loop still runs leaves it consistent. -/
theorem consistent_step {V : Vhci} {b : Build} {s s' : SendLoop} {event : SendEvent}
    (hs : s.writer.running → s.writer.Consistent) (hok : s.step V b event = .ok s') :
    s'.writer.running → s'.writer.Consistent := by
  unfold step at hok
  split at hok
  · next hready =>
      rw [Bool.and_eq_true] at hready
      have hw := hs hready.1
      cases event with
      | work work env linker =>
          obtain ⟨⟨result, handler, linker'⟩, hwork, hok⟩ := bind_eq_ok_iff.mp hok
          cases hok
          have hbuf := BorrowSendHandler.handleWork_ok hwork
          cases result with
          | setAddress => exact fun _ => hw.still hbuf
          | mustveBeenTheWind =>
              obtain ⟨f, hbuf⟩ := hbuf
              exact fun _ => consistent_solicited hw hbuf
          | processUrb result =>
              cases result with
              | ok u =>
                  obtain ⟨f, hbuf⟩ := hbuf
                  exact fun _ => consistent_solicited hw hbuf
              | error e => exact fun hrunning => absurd hrunning (Writer.not_running_exit _)
      | flushBuf =>
          obtain ⟨writer, hflush, hok⟩ := bind_eq_ok_iff.mp hok
          cases hok
          exact fun _ => hw.of_flushBuf hready.2 hflush
      | flushComplete result =>
          cases hok
          exact hw.of_flushComplete hready.2 result
      | setAddress result =>
          cases result with
          | ok u =>
              cases hok
              exact fun _ => hw
          | error e =>
              cases hok
              exact fun hrunning => absurd hrunning (Writer.not_running_exit _)
      | closed =>
          cases hok
          exact fun hrunning => absurd hrunning (Writer.not_running_exit _)
  · cases hok
    exact hs

end SendLoop
end Borrow

/-! ### The lender -/

namespace Lend

inductive SendEvent where
  | lend (completed : CompletedTransfer) (tokens : Tokens)
  | flushBuf
  | flushComplete (result : Except IoError Unit)
  | closed

abbrev SendLoop := Writer LendSendHandler

namespace SendLoop

def start (devId : UsbDeviceId) : SendLoop := Writer.start (.new devId)

def ready (s : SendLoop) : SendEvent → Bool
  | .lend _ _ => true
  | .flushBuf => s.timerReady
  | .flushComplete _ => s.flusherReady
  | .closed => true

/-- The arm of `Event::Lend`, by what `handle_event` returned. -/
def lent (s : SendLoop) : Except UsbError LendSendHandler → SendLoop
  | .error _ => s.exit
  | .ok handler => if s.state = .solicit then (s.handled handler).armTimer else s.handled handler

/-- One turn of `do_loop`. -/
def step (b : Build) (s : SendLoop) (event : SendEvent) : Except Fault SendLoop :=
  if s.running && s.ready event then
    match event with
    | .lend completed tokens => do
        let (result, _) ← s.handler.handleEvent b tokens completed
        return s.lent result
    | .flushBuf => s.flushBuf
    | .flushComplete result => .ok (s.flushComplete result)
    | .closed => .ok s.exit
  else .ok s

theorem consistent_step {b : Build} {s s' : SendLoop} {event : SendEvent}
    (hs : s.running → s.Consistent) (hok : step b s event = .ok s') :
    s'.running → s'.Consistent := by
  unfold step at hok
  split at hok
  · next hready =>
      rw [Bool.and_eq_true] at hready
      have hw := hs hready.1
      cases event with
      | lend completed tokens =>
          obtain ⟨⟨result, tokens'⟩, hevent, hok⟩ := bind_eq_ok_iff.mp hok
          cases hok
          cases result with
          | error e => exact fun hrunning => absurd hrunning s.not_running_exit
          | ok handler =>
              obtain ⟨f, hne, hbuf⟩ := LendSendHandler.handleEvent_ok hevent
              intro _
              show (if s.state = .solicit then (s.handled handler).armTimer
                else s.handled handler).Consistent
              split
              · next hstate =>
                  refine hw.arm hbuf hstate ?_
                  show handler.buf ≠ []
                  rw [hbuf]
                  exact List.append_ne_nil_of_right_ne_nil _ hne
              · next hstate => exact hw.busy hbuf hstate
      | flushBuf => exact fun _ => hw.of_flushBuf hready.2 hok
      | flushComplete result =>
          cases hok
          exact hw.of_flushComplete hready.2 result
      | closed =>
          cases hok
          exact fun hrunning => absurd hrunning s.not_running_exit
  · cases hok
    exact hs

end SendLoop
end Lend

/-! ### Both loops -/

/-- **The send loops.** As long as they have not exited, for every order of events: the state agrees with
the buffer, the writer, the timer and the flusher; the timer never finds the writer gone; and what was
written, what is being written and what is buffered are together all that was appended, in order. -/
theorem send_loops_consistent (V : Vhci) (b : Build) (devId : Lend.UsbDeviceId) :
    (∀ events s, Runs.run (Borrow.SendLoop.step V b) .start events = .ok s → s.writer.running →
      s.writer.Consistent ∧ ∃ s', s.step V b .flushBuf = .ok s') ∧
    (∀ events s, Runs.run (Lend.SendLoop.step b) (.start devId) events = .ok s → s.running →
      s.Consistent ∧ ∃ s', Lend.SendLoop.step b s .flushBuf = .ok s') := by
  constructor
  · intro events s hrun hrunning
    have hinv : s.writer.running → s.writer.Consistent :=
      (Runs.meets_true.reach hrun).inv (fun _ => Writer.consistent_start rfl)
        fun _ _ _ hs _ => Borrow.SendLoop.consistent_step hs
    refine ⟨hinv hrunning, ?_⟩
    unfold Borrow.SendLoop.step
    split
    · next hready =>
        rw [Bool.and_eq_true] at hready
        obtain ⟨writer, hflush, -⟩ := (hinv hrunning).flushBuf (Writer.timer_of_ready hready.2)
        exact ⟨⟨writer, s.addrSetter⟩, by simp only [hflush, ok_bind]; rfl⟩
    · exact ⟨s, rfl⟩
  · intro events s hrun hrunning
    have hinv : s.running → s.Consistent :=
      (Runs.meets_true.reach hrun).inv (fun _ => Writer.consistent_start rfl)
        fun _ _ _ hs _ => Lend.SendLoop.consistent_step hs
    refine ⟨hinv hrunning, ?_⟩
    unfold Lend.SendLoop.step
    split
    · next hready =>
        rw [Bool.and_eq_true] at hready
        obtain ⟨writer, hflush, -⟩ := (hinv hrunning).flushBuf (Writer.timer_of_ready hready.2)
        exact ⟨writer, hflush⟩
    · exact ⟨s, rfl⟩

/-- A URB, a flush, and a cancel while the flush is under way. -/
def Borrow.SendLoop.sample : List Borrow.SendEvent :=
  let env : Borrow.BorrowSendHandler.WorkEnv := ⟨fun _ => 0, .ok ([], []), ⟨0⟩⟩
  [.work (.processUrb ⟨.bulk, ⟨0⟩, ⟨0x81⟩, .zero, 2, 0, 0, 0⟩ ⟨3⟩) env .empty, .flushBuf,
    .work (.cancelUrb ⟨3⟩) env (Borrow.Linker.empty.insert ⟨3⟩ 0), .flushComplete (.ok ())]

/-- The end of a port reset and a flush. -/
def Lend.SendLoop.sample : List Lend.SendEvent :=
  [.lend (.reset ⟨7, .ok ()⟩) .empty, .flushBuf, .flushComplete (.ok ())]

theorem sample_consistent :
    (∃ s, Runs.run (Borrow.SendLoop.step .usb .dev) .start Borrow.SendLoop.sample = .ok s ∧
      s.writer.running = true ∧ s.writer.state = .timer ∧ s.writer.Consistent) ∧
    ∃ s, Runs.run (Lend.SendLoop.step .dev) (.start ⟨1, 2⟩) Lend.SendLoop.sample = .ok s ∧
      s.running = true ∧ s.state = .solicit ∧ s.Consistent := by
  have h := send_loops_consistent .usb .dev ⟨1, 2⟩
  exact ⟨⟨_, rfl, rfl, rfl, (h.1 Borrow.SendLoop.sample _ rfl rfl).1⟩,
    ⟨_, rfl, rfl, rfl, (h.2 Lend.SendLoop.sample _ rfl rfl).1⟩⟩

end Qusb

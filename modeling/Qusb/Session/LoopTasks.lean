import Qusb.Proto.Drain
import Qusb.SendLoop.Loops
import Qusb.Session.Tasks

/-! The loops of the source are such tasks.

Of a sending loop a session knows only how many bytes it has taken and not written, of a drain only how much room is
left in its buffer. Every turn of a loop is matched by what its task does on the stream: the bytes that a session
counts are the bytes of the source. -/

open Runs ByteCodec

namespace Qusb.Teardown

open Proto

/-! ### Sending -/

/-- What a task does in its main loop, on a stream that the peer does not read. -/
inductive SendTurn where
  | appended (n : Nat)
  | flushed (n : Nat)
  deriving DecidableEq, Repr

/-- A flush of nothing is no move. -/
def sendTurn {ε : Type} (send : IoError → ε) (s : SendTask ε × Pipe) : SendTurn → Except Unit (SendTask ε × Pipe)
  | .appended n =>
      match s.1 with
      | .main buffered => .ok (.main (buffered + n), s.2)
      | _ => .error ()
  | .flushed 0 => .ok s
  | .flushed (n + 1) =>
      match s.1.move send false false s.2 (.flushed (n + 1)) with
      | some r => .ok r
      | none => .error ()

section Writer

variable {σ : Type} [SendBuf σ] {ε : Type} {send : IoError → ε} {w w' : Writer σ}

/-- The bytes under way to the stream. -/
def flushing (w : Writer σ) : Nat := (w.flusher.getD []).length

/-- The bytes that the loop has taken and not written. -/
def pending (w : Writer σ) : Nat := flushing w + w.buf.length

/-- The task of a running loop, and the stream that nobody has read of. -/
def taskOf (w : Writer σ) : SendTask ε × Pipe := (.main (pending w), ⟨w.written.length, false, false⟩)

/-- What the handler appended between two states. -/
def taken (w w' : Writer σ) : SendTurn := .appended (w'.appended.length - w.appended.length)

/-- No byte is lost between the handler and the stream. -/
theorem written_add_pending (hw : w.Consistent) : w.written.length + pending w = w.appended.length := by
  rw [← hw.conserved, List.length_append, List.length_append]
  rfl

/-- A turn that writes nothing takes what the handler appended. -/
theorem taken_simulated (hw : w.Consistent) (hw' : w'.Consistent) (hwritten : w'.written = w.written)
    (happended : w.appended <+: w'.appended) : sendTurn send (taskOf w) (taken w w') = .ok (taskOf w') := by
  have hpending := written_add_pending hw
  have hpending' := written_add_pending hw'
  have hle := happended.length_le
  have htaken : pending w + (w'.appended.length - w.appended.length) = pending w' := by
    rw [hwritten] at hpending'
    omega
  show Except.ok (SendTask.main (pending w + (w'.appended.length - w.appended.length)), _) = _
  rw [htaken, taskOf, taskOf, hwritten]

/-- A flush that completes writes what the flusher had. -/
theorem flushed_simulated (w : Writer σ) :
    sendTurn send (taskOf w) (.flushed (flushing w)) = .ok (taskOf (w.flushComplete (.ok ()))) := by
  have htask : taskOf (ε := ε) (w.flushComplete (.ok ())) =
      (.main w.buf.length, ⟨w.written.length + flushing w, false, false⟩) := by
    have hwritten : (w.flushComplete (.ok ())).written.length = w.written.length + flushing w := by
      unfold Writer.flushComplete
      simp only
      split
      · exact List.length_append
      · exact List.length_append
    have hpending : pending (w.flushComplete (.ok ())) = w.buf.length := by
      unfold Writer.flushComplete
      simp only
      split
      · exact Nat.zero_add _
      · exact Nat.zero_add _
    rw [taskOf, hwritten, hpending]
  rw [htask]
  cases hn : flushing w with
  | zero =>
      show Except.ok (SendTask.main (pending w), _) = _
      rw [pending, hn, Nat.zero_add, Nat.add_zero]
  | succ n =>
      have hle : n + 1 ≤ pending w := by
        rw [← hn]
        exact Nat.le_add_right _ _
      have hmove : (SendTask.main (pending w)).move send false false ⟨w.written.length, false, false⟩
          (.flushed (n + 1)) = some (.main (pending w - (n + 1)), ⟨w.written.length + (n + 1), false, false⟩) :=
        if_pos ⟨Nat.succ_pos n, hle, rfl, rfl⟩
      have hrest : pending w - (n + 1) = w.buf.length := by
        rw [← hn]
        exact Nat.add_sub_cancel_left _ _
      unfold sendTurn taskOf
      simp only [hmove, hrest]

/-- While no flush can complete nothing is under way. -/
theorem flushing_of_not_ready (hw : w.Consistent) (h : w.flusherReady = false) : flushing w = 0 := by
  have hnone : w.flusher = none := by
    cases hstate : w.state with
    | solicit => exact (hw.solicit hstate).2.2.2
    | timer => exact (hw.timer hstate).2.2.2
    | flush =>
        have hsome := (hw.flush hstate).2.2
        rw [Writer.flusherReady, hstate, hsome] at h
        cases h
  rw [flushing, hnone]
  rfl

theorem appended_handled (w : Writer σ) (handler : σ) : w.appended <+: (w.handled handler).appended :=
  List.prefix_append _ _

theorem flushBuf_records (hok : w.flushBuf = .ok w') : w'.written = w.written ∧ w.appended <+: w'.appended := by
  obtain ⟨u, -, hok⟩ := bind_eq_ok_iff.mp hok
  cases hok
  exact ⟨rfl, List.prefix_refl _⟩

end Writer

/-- The turn of its task when the borrower's loop takes an event. -/
def borrowTurn (s : Borrow.SendLoop) (event : Borrow.SendEvent) (s' : Borrow.SendLoop) : SendTurn :=
  match event with
  | .flushComplete _ => .flushed (flushing s.writer)
  | _ => taken s.writer s'.writer

def lendTurn (s : Lend.SendLoop) (event : Lend.SendEvent) (s' : Lend.SendLoop) : SendTurn :=
  match event with
  | .flushComplete _ => .flushed (flushing s)
  | _ => taken s s'

section Turn

variable {ε : Type} {send : IoError → ε}

/-- **A turn of the borrower's loop** after which it runs is that of its task. -/
theorem borrowTurn_simulated {V : Vhci} {b : Build} {s s' : Borrow.SendLoop} {event : Borrow.SendEvent}
    (hs : s.writer.running → s.writer.Consistent) (hok : s.step V b event = .ok s') (hrunning : s'.writer.running) :
    s.writer.running ∧ sendTurn send (taskOf s.writer) (borrowTurn s event s') = .ok (taskOf s'.writer) := by
  have hw' := Borrow.SendLoop.consistent_step hs hok hrunning
  unfold Borrow.SendLoop.step at hok
  split at hok
  · next hready =>
      rw [Bool.and_eq_true] at hready
      refine ⟨hready.1, ?_⟩
      have hw := hs hready.1
      cases event with
      | work work env linker =>
          obtain ⟨⟨result, handler, linker'⟩, -, hok⟩ := bind_eq_ok_iff.mp hok
          cases hok
          have hprefix := appended_handled s.writer handler
          have hsolicited : ∀ {w : Writer Borrow.BorrowSendHandler} {c : Bool},
              w = (if c then (s.writer.handled handler).armTimer else s.writer.handled handler) →
              w.written = s.writer.written ∧ s.writer.appended <+: w.appended := by
            rintro w (_ | _) rfl
            · exact ⟨rfl, hprefix⟩
            · exact ⟨rfl, hprefix⟩
          cases result with
          | setAddress => exact taken_simulated hw hw' rfl hprefix
          | mustveBeenTheWind => exact taken_simulated hw hw' (hsolicited rfl).1 (hsolicited rfl).2
          | processUrb result =>
              cases result with
              | ok u => exact taken_simulated hw hw' (hsolicited rfl).1 (hsolicited rfl).2
              | error e => exact absurd hrunning (Writer.not_running_exit _)
      | flushBuf =>
          obtain ⟨writer, hflush, hok⟩ := bind_eq_ok_iff.mp hok
          cases hok
          obtain ⟨hwritten, happended⟩ := flushBuf_records hflush
          exact taken_simulated hw hw' hwritten happended
      | flushComplete result =>
          cases hok
          cases result with
          | ok u => exact flushed_simulated s.writer
          | error e => exact absurd hrunning (Writer.not_running_exit _)
      | setAddress result =>
          cases result with
          | ok u =>
              cases hok
              exact taken_simulated hw hw rfl (List.prefix_refl _)
          | error e =>
              cases hok
              exact absurd hrunning (Writer.not_running_exit _)
      | closed =>
          cases hok
          exact absurd hrunning (Writer.not_running_exit _)
  · next hready =>
      cases hok
      refine ⟨hrunning, ?_⟩
      have hstill : sendTurn send (taskOf s.writer) (taken s.writer s.writer) = .ok (taskOf s.writer) :=
        taken_simulated hw' hw' rfl (List.prefix_refl _)
      rw [hrunning, Bool.true_and] at hready
      cases event with
      | flushComplete result =>
          show sendTurn send _ (.flushed (flushing s.writer)) = _
          rw [flushing_of_not_ready hw' (Bool.eq_false_of_not_eq_true hready)]
          rfl
      | work work env linker => exact hstill
      | flushBuf => exact hstill
      | setAddress result => exact hstill
      | closed => exact hstill

/-- **A turn of the lender's loop.** -/
theorem lendTurn_simulated {b : Build} {s s' : Lend.SendLoop} {event : Lend.SendEvent}
    (hs : s.running → s.Consistent) (hok : Lend.SendLoop.step b s event = .ok s') (hrunning : s'.running) :
    s.running ∧ sendTurn send (taskOf s) (lendTurn s event s') = .ok (taskOf s') := by
  have hw' := Lend.SendLoop.consistent_step hs hok hrunning
  unfold Lend.SendLoop.step at hok
  split at hok
  · next hready =>
      rw [Bool.and_eq_true] at hready
      refine ⟨hready.1, ?_⟩
      have hw := hs hready.1
      cases event with
      | lend completed tokens =>
          obtain ⟨⟨result, tokens'⟩, -, hok⟩ := bind_eq_ok_iff.mp hok
          cases hok
          cases result with
          | error e => exact absurd hrunning s.not_running_exit
          | ok handler =>
              have hprefix := appended_handled s handler
              have hrecords : (Lend.SendLoop.lent s (.ok handler)).written = s.written ∧
                  s.appended <+: (Lend.SendLoop.lent s (.ok handler)).appended := by
                unfold Lend.SendLoop.lent
                simp only
                split
                · exact ⟨rfl, hprefix⟩
                · exact ⟨rfl, hprefix⟩
              exact taken_simulated hw hw' hrecords.1 hrecords.2
      | flushBuf =>
          obtain ⟨hwritten, happended⟩ := flushBuf_records hok
          exact taken_simulated hw hw' hwritten happended
      | flushComplete result =>
          cases hok
          cases result with
          | ok u => exact flushed_simulated s
          | error e => exact absurd hrunning s.not_running_exit
      | closed =>
          cases hok
          exact absurd hrunning s.not_running_exit
  · next hready =>
      cases hok
      refine ⟨hrunning, ?_⟩
      have hstill : sendTurn send (taskOf s) (taken s s) = .ok (taskOf s) :=
        taken_simulated hw' hw' rfl (List.prefix_refl _)
      rw [hrunning, Bool.true_and] at hready
      cases event with
      | flushComplete result =>
          show sendTurn send _ (.flushed (flushing s)) = _
          rw [flushing_of_not_ready hw' (Bool.eq_false_of_not_eq_true hready)]
          rfl
      | lend completed tokens => exact hstill
      | flushBuf => exact hstill
      | closed => exact hstill

end Turn

/-! ### Draining -/

def recvTurn {ε : Type} (recv : RecvError → ε) (lost : Bool) (s : RecvTask ε × Pipe) (m : RecvMove) :
    Except Unit (RecvTask ε × Pipe) :=
  match s.1.move recv false lost s.2 m with
  | some r => .ok r
  | none => .error ()

section Drain

variable {ε : Type} {recv : RecvError → ε} {lost : Bool} {result : Except ε Unit} {p : Pipe} {room : Nat}

theorem recvTurn_drained {n : Nat} (hpos : 0 < n) (hroom : n ≤ room) (hunread : n ≤ p.unread) :
    recvTurn recv lost (.draining room result, p) (.drained n) =
      .ok (.draining (room - n) result, { p with unread := p.unread - n }) := by
  have hmove : (RecvTask.draining room result).move recv false lost p (.drained n) =
      some (.draining (room - n) result, { p with unread := p.unread - n }) := if_pos ⟨hpos, hroom, hunread⟩
  rw [recvTurn, hmove]

theorem recvTurn_drainEnded (hend : room = 0 ∨ lost = true ∨ (p.finished = true ∧ p.unread = 0)) :
    recvTurn recv lost (.draining room result, p) .drainEnded = .ok (.done result, { p with dropped := true }) := by
  have hmove : (RecvTask.draining room result).move recv false lost p .drainEnded =
      some (.done result, { p with dropped := true }) := if_pos hend
  rw [recvTurn, hmove]

/-- **A drain** is that of its task: each read that brings bytes is a move, and so is the end. The stream has all
its bytes yet, and ends if the reader does not fail. -/
theorem drainLoop_simulated (ring : Ring) (rx : Reader) (hunread : p.unread = rx.bytes.length)
    (hfinished : rx.errors = [] → p.finished = true) (hlost : rx.errors ≠ [] → lost = true) :
    ∃ moves, run (recvTurn recv lost) (.draining (ring.capacity - ring.len) result, p) moves =
      .ok (.done result, ⟨(drainLoop ring rx).rx.bytes.length, p.finished, true⟩) := by
  fun_induction drainLoop ring rx generalizing p with
  | case1 ring rx e ring' rx' hfill =>
      obtain ⟨-, hbytes, herrors⟩ := Ring.fillWithReader_error hfill
      have hlost' : lost = true := hlost (by rw [herrors]; exact List.cons_ne_nil _ _)
      refine ⟨[.drainEnded], (run_cons_ok (recvTurn_drainEnded (.inr (.inl hlost')))).trans ?_⟩
      show Except.ok (_, (⟨p.unread, p.finished, true⟩ : Pipe)) = .ok (_, ⟨rx'.bytes.length, p.finished, true⟩)
      rw [hunread, hbytes]
  | case2 ring rx ring' rx' hfill =>
      obtain ⟨-, hlen, hmoved⟩ := Ring.fillWithReader_moves hfill
      have hsame := congrArg List.length hmoved
      rw [List.length_append, List.length_append] at hsame
      have hunread' : p.unread = rx'.bytes.length := by
        unfold Ring.len at hlen
        omega
      have hend : ring.capacity - ring.len = 0 ∨ lost = true ∨ (p.finished = true ∧ p.unread = 0) := by
        rcases Nat.lt_or_ge ring.len ring.capacity with hroom | hfull
        · obtain ⟨-, -, hover⟩ := Ring.fillWithReader_ok hfill hroom
          obtain ⟨hnil, herrors, -⟩ := hover rfl
          exact .inr (.inr ⟨hfinished herrors, by rw [hunread', hnil]; rfl⟩)
        · exact .inl (Nat.sub_eq_zero_of_le hfull)
      refine ⟨[.drainEnded], (run_cons_ok (recvTurn_drainEnded hend)).trans ?_⟩
      show Except.ok (_, (⟨p.unread, p.finished, true⟩ : Pipe)) = .ok (_, ⟨rx'.bytes.length, p.finished, true⟩)
      rw [hunread']
  | case3 ring rx n ring' rx' hfill hn ih =>
      obtain ⟨hcap, hlen, hmoved⟩ := Ring.fillWithReader_moves hfill
      have hle : ring'.len ≤ ring'.capacity := ring'.len_le
      obtain ⟨-, herrors, -⟩ := Ring.fillWithReader_ok hfill (by omega)
      have htotal : n + rx'.bytes.length = rx.bytes.length := by
        have hsame := congrArg List.length hmoved
        rw [List.length_append, List.length_append] at hsame
        unfold Ring.len at hlen
        omega
      have hread : recvTurn recv lost (.draining (ring.capacity - ring.len) result, p) (.drained n) =
          .ok (.draining (ring.capacity - ring.len - n) result, { p with unread := p.unread - n }) :=
        recvTurn_drained (Nat.pos_of_ne_zero hn) (by omega) (by omega)
      obtain ⟨moves, hmoves⟩ := ih (p := { p with unread := p.unread - n }) (by show p.unread - n = _; omega)
        (fun h => hfinished (herrors ▸ h)) (fun h => hlost (herrors ▸ h))
      refine ⟨.drained n :: moves, (run_cons_ok hread).trans ?_⟩
      have hroom : ring.capacity - ring.len - n = ring'.capacity - ring'.len := by omega
      rw [hroom]
      exact hmoves

end Drain

/-! ### The three loops -/

/-- **Loops and tasks.** For every order of events, as long as it runs, each sending loop is matched turn by turn by
its task: a completed flush is the move that writes what was under way, and every other event takes what the
handler appended. Whatever is left of the stream, a drain ends as that of its task does, with the same bytes
unread. -/
theorem loops_are_tasks {ε : Type} (send : IoError → ε) (recv : RecvError → ε) (V : Vhci) (b : Build)
    (devId : Lend.UsbDeviceId) :
    (∀ events s, run (Borrow.SendLoop.step V b) .start events = .ok s → s.writer.running →
      run (sendTurn send) (.main 0, .new) (matched (Borrow.SendLoop.step V b) borrowTurn .start events) =
        .ok (taskOf s.writer)) ∧
    (∀ events s, run (Lend.SendLoop.step b) (.start devId) events = .ok s → s.running →
      run (sendTurn send) (.main 0, .new) (matched (Lend.SendLoop.step b) lendTurn (.start devId) events) =
        .ok (taskOf s)) ∧
    ∀ (rx : Reader) (result : Except ε Unit),
      ∃ moves, run (recvTurn recv (rx.errors ≠ [])) (.draining drainRoom result, ⟨rx.bytes.length, true, false⟩) moves =
        .ok (.done result, ⟨(drain rx).rx.bytes.length, true, true⟩) := by
  refine ⟨?_, ?_, ?_⟩
  · intro events s hrun hrunning
    refine (run_matched (I := fun s => s.writer.running → s.writer.Consistent) (f := fun s => taskOf s.writer)
      (L := fun s => s.writer.running = true) ?_ (fun _ => Writer.consistent_start rfl) hrun hrunning).2
    exact fun s e s' hs hok => ⟨Borrow.SendLoop.consistent_step hs hok, borrowTurn_simulated hs hok⟩
  · intro events s hrun hrunning
    refine (run_matched (I := fun s => s.running → s.Consistent) (f := fun s => taskOf s)
      (L := fun s => s.running = true) ?_ (fun _ => Writer.consistent_start rfl) hrun hrunning).2
    exact fun s e s' hs hok => ⟨Lend.SendLoop.consistent_step hs hok, lendTurn_simulated hs hok⟩
  · intro rx result
    exact drainLoop_simulated (Ring.withCapacity drainRoom) rx rfl (fun _ => rfl) decide_eq_true

/-- The borrower's loop takes a submission, flushes it and takes a cancel in the meantime, which it still has to
send; the lender's loop takes a reply and flushes it. -/
theorem samples_are_tasks :
    run (sendTurn id) (.main 0, .new) [.appended 32, .appended 0, .appended 8, .flushed 32] =
      .ok (.main 8, ⟨32, false, false⟩) ∧
    run (sendTurn id) (.main 0, .new) [.appended 8, .appended 0, .flushed 8] = .ok (.main 0, ⟨8, false, false⟩) ∧
    ∃ moves, run (recvTurn (fun _ => IoError.mk 5) false)
      (.draining drainRoom (.ok ()), ⟨longRest.bytes.length, true, false⟩) moves =
        .ok (.done (.ok ()), ⟨(drain longRest).rx.bytes.length, true, true⟩) :=
  have hall := loops_are_tasks id (fun _ => IoError.mk 5) .usb .dev ⟨1, 2⟩
  ⟨hall.1 Borrow.SendLoop.sample _ rfl rfl, hall.2.1 Lend.SendLoop.sample _ rfl rfl, hall.2.2 longRest (.ok ())⟩

end Qusb.Teardown

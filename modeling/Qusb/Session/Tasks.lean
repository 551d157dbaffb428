import Qusb.Lend.Send
import Qusb.Proto.Recv

/-! The loops of a session as tasks.

A sending task leaves its main loop when its events end, when a write fails or by an error of its own; it
then closes the stream, without what is still buffered, and waits until the peer has read everything or is
gone. A receiving task leaves its main loop at the end of the stream, on a failed read or by an error, and
then drains the stream into 32 bytes. A move is what such a task can do next. Handlers that panic, and a stream
that takes no more bytes until the peer has read some, are left out. -/

namespace Qusb.Teardown

open Proto

/-- One direction of the stream: the bytes that are written and not read, whether the writer has closed it,
and whether the reader has dropped it. -/
structure Pipe where
  unread : Nat
  finished : Bool
  dropped : Bool
  deriving DecidableEq, Repr

def Pipe.new : Pipe := ⟨0, false, false⟩

/-- `SendLoop::run`: the stream is still with the caller; the main loop; closed and waiting for `stopped`;
the task has returned; or the caller dropped the stream without a task. -/
inductive SendTask (ε : Type) where
  | held
  | main (buffered : Nat)
  | closing (result : Except ε Unit)
  | done (result : Except ε Unit)
  | dropped

/-- `RecvLoop::run`. A drain has room for so many bytes yet. -/
inductive RecvTask (ε : Type) where
  | held
  | main
  | draining (room : Nat) (result : Except ε Unit)
  | done (result : Except ε Unit)
  | dropped

inductive SendMove where
  /-- Part of what is buffered is written. -/
  | flushed (n : Nat)
  | writeFailed (e : IoError)
  /-- The token is cancelled, which ends the stream of events. -/
  | cancelled
  | stopped
  deriving DecidableEq, Repr

inductive RecvMove where
  | read (n : Nat)
  /-- The stream has ended, between two frames or in one. -/
  | ended (result : Except RecvError Unit)
  | readFailed (e : IoError)
  | cancelled
  | drained (n : Nat)
  | drainEnded

/-- The capacity of the buffer of a drain. -/
def drainRoom : Nat := 32

namespace SendTask

variable {ε : Type}

/-- The main loop has ended. -/
def leave (result : Except ε Unit) (p : Pipe) : SendTask ε × Pipe := (.closing result, { p with finished := true })

/-- `send` is how the task names a failed write. -/
def move (send : IoError → ε) (cancelled lost : Bool) (t : SendTask ε) (p : Pipe) :
    SendMove → Option (SendTask ε × Pipe)
  | .flushed n =>
      match t with
      | .main buffered =>
          if 0 < n ∧ n ≤ buffered ∧ p.dropped = false ∧ lost = false then
            some (.main (buffered - n), { p with unread := p.unread + n })
          else none
      | _ => none
  | .writeFailed e =>
      match t with
      | .main buffered => if 0 < buffered ∧ (p.dropped ∨ lost) then some (leave (.error (send e)) p) else none
      | _ => none
  | .cancelled =>
      match t with
      | .main _ => if cancelled then some (leave (.ok ()) p) else none
      | _ => none
  | .stopped =>
      match t with
      | .closing result => if p.dropped ∨ lost ∨ p.unread = 0 then some (.done result, p) else none
      | _ => none

/-- The task has not closed the stream. -/
def isOpen : SendTask ε → Bool
  | .held | .main _ => true
  | .closing _ | .done _ | .dropped => false

/-- The task runs or has returned. -/
def isSpawned : SendTask ε → Bool
  | .main _ | .closing _ | .done _ => true
  | .held | .dropped => false

/-- The task has returned, or there was none. -/
def isOver : SendTask ε → Bool
  | .done _ | .dropped => true
  | .held | .main _ | .closing _ => false

/-- What the main loop ended with. -/
def result : SendTask ε → Option (Except ε Unit)
  | .closing result | .done result => some result
  | .held | .main _ | .dropped => none

/-- What is still to be done, in moves. -/
def weight : SendTask ε → Nat
  | .held => 3
  | .main buffered => 2 * buffered + 2
  | .closing _ => 1
  | .done _ | .dropped => 0

/-- The task waits for what is not its own: for something to send, or for the peer to read on. -/
def Waits (cancelled lost : Bool) (t : SendTask ε) (p : Pipe) : Prop :=
  match t with
  | .main buffered => buffered = 0 ∧ cancelled = false
  | .closing _ => 0 < p.unread ∧ p.dropped = false ∧ lost = false
  | .held | .done _ | .dropped => True

end SendTask

namespace RecvTask

variable {ε : Type}

/-- `recv` is how the task names an error of the stream. -/
def move (recv : RecvError → ε) (cancelled lost : Bool) (t : RecvTask ε) (p : Pipe) :
    RecvMove → Option (RecvTask ε × Pipe)
  | .read n =>
      match t with
      | .main => if 0 < n ∧ n ≤ p.unread then some (.main, { p with unread := p.unread - n }) else none
      | _ => none
  | .ended result =>
      match t with
      | .main => if p.finished ∧ p.unread = 0 then some (.draining drainRoom (result.mapError recv), p) else none
      | _ => none
  | .readFailed e =>
      match t with
      | .main => if lost then some (.draining drainRoom (.error (recv (.io e))), p) else none
      | _ => none
  | .cancelled =>
      match t with
      | .main => if cancelled then some (.draining drainRoom (.ok ()), p) else none
      | _ => none
  | .drained n =>
      match t with
      | .draining room result =>
          if 0 < n ∧ n ≤ room ∧ n ≤ p.unread then
            some (.draining (room - n) result, { p with unread := p.unread - n })
          else none
      | _ => none
  | .drainEnded =>
      match t with
      | .draining room result =>
          if room = 0 ∨ lost ∨ (p.finished ∧ p.unread = 0) then some (.done result, { p with dropped := true })
          else none
      | _ => none

/-- The task has not dropped the stream. -/
def isOpen : RecvTask ε → Bool
  | .held | .main | .draining _ _ => true
  | .done _ | .dropped => false

def isSpawned : RecvTask ε → Bool
  | .main | .draining _ _ | .done _ => true
  | .held | .dropped => false

def isOver : RecvTask ε → Bool
  | .done _ | .dropped => true
  | .held | .main | .draining _ _ => false

def result : RecvTask ε → Option (Except ε Unit)
  | .draining _ result | .done result => some result
  | .held | .main | .dropped => none

def weight : RecvTask ε → Nat
  | .held => 3
  | .main => 2
  | .draining _ _ => 1
  | .done _ | .dropped => 0

/-- The task waits for the peer to write or to close, or for a token. -/
def Waits (cancelled lost : Bool) (t : RecvTask ε) (p : Pipe) : Prop :=
  match t with
  | .main => p.unread = 0 ∧ p.finished = false ∧ lost = false ∧ cancelled = false
  | .draining room _ => 0 < room ∧ p.unread = 0 ∧ p.finished = false ∧ lost = false
  | .held | .done _ | .dropped => True

end RecvTask

theorem RecvTask.eq_done {ε : Type} {t : RecvTask ε} (hspawned : t.isSpawned = true) (hover : t.isOver = true) :
    ∃ r, t = .done r := by
  cases t with
  | done r => exact ⟨r, rfl⟩
  | held | dropped => cases hspawned
  | main | draining => cases hover

theorem SendTask.eq_main {ε : Type} {t : SendTask ε} (hspawned : t.isSpawned = true) (hopen : t.isOpen = true) :
    ∃ buffered, t = .main buffered := by
  cases t with
  | main buffered => exact ⟨buffered, rfl⟩
  | held | dropped => cases hspawned
  | closing | done => cases hopen

theorem SendTask.not_isOpen {ε : Type} {t : SendTask ε} (hover : t.isOver = true) : t.isOpen = false := by
  cases t with
  | done | dropped => rfl
  | held | main | closing => cases hover

theorem RecvTask.not_isOpen {ε : Type} {t : RecvTask ε} (hover : t.isOver = true) : t.isOpen = false := by
  cases t with
  | done | dropped => rfl
  | held | main | draining => cases hover

/-! ### What a move does -/

section Send

variable {ε : Type} {send : IoError → ε} {cancelled lost : Bool} {t t' : SendTask ε} {p p' : Pipe} {m : SendMove}

/-- What a move of a sending task can be: bytes are written, the main loop is left with or without an error of a
write, or the peer is done. -/
theorem SendTask.move_cases (h : t.move send cancelled lost p m = some (t', p')) :
    (∃ n buffered, t = .main buffered ∧ t' = .main (buffered - n) ∧ 0 < n ∧ n ≤ buffered ∧
      p' = { p with unread := p.unread + n }) ∨
    (∃ buffered result, t = .main buffered ∧ t' = .closing result ∧ (∀ e, result = .error e → ∃ e', e = send e') ∧
      (p.dropped = true ∨ lost = true ∨ cancelled = true) ∧ p' = { p with finished := true }) ∨
    (∃ result, t = .closing result ∧ t' = .done result ∧ p' = p) := by
  cases m with
  | flushed n =>
      cases t with
      | main buffered =>
          obtain ⟨⟨hpos, hle, -⟩, hmoved⟩ := Option.ite_none_right_eq_some.mp h
          cases hmoved
          exact .inl ⟨n, buffered, rfl, rfl, hpos, hle, rfl⟩
      | _ => cases h
  | writeFailed e =>
      cases t with
      | main buffered =>
          obtain ⟨⟨-, hbroken⟩, hmoved⟩ := Option.ite_none_right_eq_some.mp h
          cases hmoved
          exact .inr (.inl ⟨buffered, _, rfl, rfl, fun e' he => ⟨e, (Except.error.inj he).symm⟩,
            hbroken.imp_right .inl, rfl⟩)
      | _ => cases h
  | cancelled =>
      cases t with
      | main buffered =>
          obtain ⟨hcancelled, hmoved⟩ := Option.ite_none_right_eq_some.mp h
          cases hmoved
          exact .inr (.inl ⟨buffered, _, rfl, rfl, nofun, .inr (.inr hcancelled), rfl⟩)
      | _ => cases h
  | stopped =>
      cases t with
      | closing result =>
          obtain ⟨-, hmoved⟩ := Option.ite_none_right_eq_some.mp h
          cases hmoved
          exact .inr (.inr ⟨result, rfl, rfl, rfl⟩)
      | _ => cases h

/-- A move leaves less to be done. -/
theorem SendTask.move_weight (h : t.move send cancelled lost p m = some (t', p')) :
    t'.weight + p'.unread < t.weight + p.unread := by
  obtain ⟨n, buffered, rfl, rfl, hpos, hle, rfl⟩ | ⟨buffered, result, rfl, rfl, -, -, rfl⟩ | ⟨result, rfl, rfl, rfl⟩ :=
    move_cases h
  · simp only [weight]
    omega
  · simp only [weight]
    omega
  · simp only [weight]
    omega

/-- A move is one of a task that is spawned and has not returned. It closes the stream if it leaves the main
loop, and leaves the reader's side of the stream alone. -/
theorem SendTask.move_spec (h : t.move send cancelled lost p m = some (t', p')) :
    t.isSpawned = true ∧ t.isOver = false ∧ t'.isSpawned = true ∧ p'.dropped = p.dropped ∧
      (p.finished = !t.isOpen → p'.finished = !t'.isOpen) ∧ (p.finished = true → p'.finished = true) := by
  obtain ⟨n, buffered, rfl, rfl, -, -, rfl⟩ | ⟨buffered, result, rfl, rfl, -, -, rfl⟩ | ⟨result, rfl, rfl, rfl⟩ :=
    move_cases h
  · exact ⟨rfl, rfl, rfl, rfl, id, id⟩
  · exact ⟨rfl, rfl, rfl, rfl, fun _ => rfl, fun _ => rfl⟩
  · exact ⟨rfl, rfl, rfl, rfl, id, id⟩

/-- An error of the task is one it had, or one of a write. -/
theorem SendTask.move_result (h : t.move send cancelled lost p m = some (t', p')) {e : ε}
    (he : t'.result = some (.error e)) : t.result = some (.error e) ∨ ∃ e', e = send e' := by
  obtain ⟨n, buffered, rfl, rfl, -, -, rfl⟩ | ⟨buffered, result, rfl, rfl, hsend, -, rfl⟩ | ⟨result, rfl, rfl, rfl⟩ :=
    move_cases h
  · cases he
  · exact .inr (hsend e (Option.some.inj he))
  · exact .inl he

/-- **A sending task that cannot move** waits. -/
theorem SendTask.waits_of_stuck (e : IoError) (h : ∀ m, t.move send cancelled lost p m = none) :
    t.Waits cancelled lost p := by
  cases t with
  | main buffered =>
      have hflush := h (.flushed buffered)
      have hfail := h (.writeFailed e)
      have hcancel := h .cancelled
      simp only [move, ite_eq_right_iff, reduceCtorEq, imp_false, not_and, not_or, Bool.not_eq_true] at hflush hfail hcancel
      refine ⟨?_, hcancel⟩
      by_contra hne
      have hpos : 0 < buffered := Nat.pos_of_ne_zero hne
      obtain ⟨hdropped, hlost⟩ := hfail hpos
      exact hflush hpos le_rfl hdropped hlost
  | closing result =>
      have hstopped := h .stopped
      simp only [move, ite_eq_right_iff, reduceCtorEq, imp_false, not_or, Bool.not_eq_true] at hstopped
      exact ⟨Nat.pos_of_ne_zero hstopped.2.2, hstopped.1, hstopped.2.1⟩
  | held | done result | dropped => trivial

end Send

section Recv

variable {ε : Type} {recv : RecvError → ε} {cancelled lost : Bool} {t t' : RecvTask ε} {p p' : Pipe} {m : RecvMove}

/-- What a move of a receiving task can be: the main loop takes bytes, it is left, the drain takes bytes, or it
ends. -/
theorem RecvTask.move_cases (h : t.move recv cancelled lost p m = some (t', p')) :
    (∃ n, t = .main ∧ t' = .main ∧ 0 < n ∧ n ≤ p.unread ∧ p' = { p with unread := p.unread - n }) ∨
    (∃ result, t = .main ∧ t' = .draining drainRoom result ∧ (∀ e, result = .error e → ∃ e', e = recv e') ∧
      ((p.finished = true ∧ p.unread = 0) ∨ lost = true ∨ cancelled = true) ∧ p' = p) ∨
    (∃ n room result, t = .draining room result ∧ t' = .draining (room - n) result ∧ 0 < n ∧ n ≤ room ∧
      n ≤ p.unread ∧ p' = { p with unread := p.unread - n }) ∨
    (∃ room result, t = .draining room result ∧ t' = .done result ∧
      (room = 0 ∨ lost = true ∨ (p.finished = true ∧ p.unread = 0)) ∧ p' = { p with dropped := true }) := by
  cases m with
  | read n =>
      cases t with
      | main =>
          obtain ⟨⟨hpos, hle⟩, hmoved⟩ := Option.ite_none_right_eq_some.mp h
          cases hmoved
          exact .inl ⟨n, rfl, rfl, hpos, hle, rfl⟩
      | _ => cases h
  | ended result =>
      cases t with
      | main =>
          obtain ⟨hend, hmoved⟩ := Option.ite_none_right_eq_some.mp h
          cases hmoved
          refine .inr (.inl ⟨_, rfl, rfl, fun e he => ?_, .inl hend, rfl⟩)
          cases result with
          | ok u => cases he
          | error e' => exact ⟨e', (Except.error.inj he).symm⟩
      | _ => cases h
  | readFailed e =>
      cases t with
      | main =>
          obtain ⟨hlost, hmoved⟩ := Option.ite_none_right_eq_some.mp h
          cases hmoved
          exact .inr (.inl ⟨_, rfl, rfl, fun e' he => ⟨_, (Except.error.inj he).symm⟩, .inr (.inl hlost), rfl⟩)
      | _ => cases h
  | cancelled =>
      cases t with
      | main =>
          obtain ⟨hcancelled, hmoved⟩ := Option.ite_none_right_eq_some.mp h
          cases hmoved
          exact .inr (.inl ⟨_, rfl, rfl, nofun, .inr (.inr hcancelled), rfl⟩)
      | _ => cases h
  | drained n =>
      cases t with
      | draining room result =>
          obtain ⟨⟨hpos, hroom, hle⟩, hmoved⟩ := Option.ite_none_right_eq_some.mp h
          cases hmoved
          exact .inr (.inr (.inl ⟨n, room, result, rfl, rfl, hpos, hroom, hle, rfl⟩))
      | _ => cases h
  | drainEnded =>
      cases t with
      | draining room result =>
          obtain ⟨hend, hmoved⟩ := Option.ite_none_right_eq_some.mp h
          cases hmoved
          exact .inr (.inr (.inr ⟨room, result, rfl, rfl, hend, rfl⟩))
      | _ => cases h

theorem RecvTask.move_weight (h : t.move recv cancelled lost p m = some (t', p')) :
    t'.weight + p'.unread < t.weight + p.unread := by
  obtain ⟨n, rfl, rfl, hpos, hle, rfl⟩ | ⟨result, rfl, rfl, -, -, rfl⟩ |
    ⟨n, room, result, rfl, rfl, hpos, -, hle, rfl⟩ | ⟨room, result, rfl, rfl, -, rfl⟩ := move_cases h
  · simp only [weight]
    omega
  · simp only [weight]
    omega
  · simp only [weight]
    omega
  · simp only [weight]
    omega

theorem RecvTask.move_spec (h : t.move recv cancelled lost p m = some (t', p')) :
    t.isSpawned = true ∧ t.isOver = false ∧ t'.isSpawned = true ∧ p'.finished = p.finished ∧
      (p.dropped = !t.isOpen → p'.dropped = !t'.isOpen) ∧ (t ≠ .main → t' ≠ .main) := by
  obtain ⟨n, rfl, rfl, -, -, rfl⟩ | ⟨result, rfl, rfl, -, -, rfl⟩ |
    ⟨n, room, result, rfl, rfl, -, -, -, rfl⟩ | ⟨room, result, rfl, rfl, -, rfl⟩ := move_cases h
  · exact ⟨rfl, rfl, rfl, rfl, id, id⟩
  · exact ⟨rfl, rfl, rfl, rfl, id, fun _ => nofun⟩
  · exact ⟨rfl, rfl, rfl, rfl, id, fun _ => nofun⟩
  · exact ⟨rfl, rfl, rfl, rfl, fun _ => rfl, fun _ => nofun⟩

/-- An error of the task is one it had, or one of the stream. -/
theorem RecvTask.move_result (h : t.move recv cancelled lost p m = some (t', p')) {e : ε}
    (he : t'.result = some (.error e)) : t.result = some (.error e) ∨ ∃ e', e = recv e' := by
  obtain ⟨n, rfl, rfl, -, -, rfl⟩ | ⟨result, rfl, rfl, hrecv, -, rfl⟩ |
    ⟨n, room, result, rfl, rfl, -, -, -, rfl⟩ | ⟨room, result, rfl, rfl, -, rfl⟩ := move_cases h
  · cases he
  · exact .inr (hrecv e (Option.some.inj he))
  · exact .inl he
  · exact .inl he

/-- **A receiving task that cannot move** waits. -/
theorem RecvTask.waits_of_stuck (e : IoError) (h : ∀ m, t.move recv cancelled lost p m = none) :
    t.Waits cancelled lost p := by
  cases t with
  | main =>
      have hread := h (.read p.unread)
      have hended := h (.ended (.ok ()))
      have hfail := h (.readFailed e)
      have hcancel := h .cancelled
      simp only [move, ite_eq_right_iff, reduceCtorEq, imp_false, not_and, Bool.not_eq_true] at hread hended hfail hcancel
      have hnone : p.unread = 0 := by
        by_contra hne
        exact hread (Nat.pos_of_ne_zero hne) le_rfl
      exact ⟨hnone, Bool.eq_false_iff.mpr fun hfinished => hended hfinished hnone, hfail, hcancel⟩
  | draining room result =>
      have hdrain := h (.drained (min room p.unread))
      have hend := h .drainEnded
      simp only [move, ite_eq_right_iff, reduceCtorEq, imp_false, not_and, not_or, Bool.not_eq_true] at hdrain hend
      obtain ⟨hroom, hlost, hfinished⟩ := hend
      have hnone : p.unread = 0 := by
        by_contra hne
        exact hdrain (by omega) (Nat.min_le_left _ _) (Nat.min_le_right _ _)
      exact ⟨Nat.pos_of_ne_zero hroom, hnone, Bool.eq_false_iff.mpr fun h => hfinished h hnone, hlost⟩
  | held | done result | dropped => trivial

end Recv

end Qusb.Teardown

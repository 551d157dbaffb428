import Qusb.Base.Bytes
import Qusb.Base.Runs
import Qusb.Proto.Data

/-! The part that the two send loops share: a handler whose buffer is flushed in intervals.

The loop solicits work while the buffer is empty, waits for a timer once there is data, and owns no writer
while a flush is under way. The three optional values of the source (`tx_holder`, `sleeper`, `flusher`)
and the state are kept apart, as there; `Consistent` says how they belong together. What was written and
what the handler appended are recorded beside them. -/

open ByteCodec

namespace Qusb

open Proto

/-- A handler with a buffer, and the splitting off of the bytes to flush. -/
class SendBuf (σ : Type) where
  buf : σ → Bytes
  flushBuf : σ → Bytes × σ
  flushBuf_fst : ∀ h, (flushBuf h).1 = buf h
  flushBuf_snd : ∀ h, buf (flushBuf h).2 = []

inductive LoopState where
  | flush
  | solicit
  | timer
  deriving DecidableEq, Repr

/-- The variables of a send loop. `txHolder` and `sleeper` say whether the option is `Some`; the flusher
owns the writer and the bytes it writes. `running` ends with the loop. -/
structure Writer (σ : Type) where
  handler : σ
  state : LoopState
  txHolder : Bool
  sleeper : Bool
  flusher : Option Bytes
  running : Bool
  written : Bytes
  appended : Bytes

namespace Writer

variable {σ : Type} [SendBuf σ]

def buf (w : Writer σ) : Bytes := SendBuf.buf w.handler

/-- `is_buf_empty`. -/
def isBufEmpty (w : Writer σ) : Bool := w.buf.isEmpty

def start (handler : σ) : Writer σ := ⟨handler, .solicit, true, false, none, true, [], []⟩

def exit (w : Writer σ) : Writer σ := { w with running := false }

/-- The handler has taken an event; what it appended is recorded. -/
def handled (w : Writer σ) (handler : σ) : Writer σ :=
  { w with handler := handler, appended := w.appended ++ (SendBuf.buf handler).drop w.buf.length }

def armTimer (w : Writer σ) : Writer σ := { w with sleeper := true, state := .timer }

/-- The arm of `Event::FlushBuf`. -/
def flushBuf (w : Writer σ) : Except Fault (Writer σ) := do
  unwrap (if w.txHolder then some () else none)
  let (bytes, handler) := SendBuf.flushBuf w.handler
  return { w with
    handler := handler, sleeper := false, txHolder := false, flusher := some bytes, state := .flush }

/-- The arms of `Event::FlushComplete`. -/
def flushComplete (w : Writer σ) (result : Except IoError Unit) : Writer σ :=
  match result with
  | .error _ => w.exit
  | .ok () =>
      let w := { w with
        flusher := none, txHolder := true, written := w.written ++ w.flusher.getD [] }
      if w.isBufEmpty then { w with state := .solicit } else w.armTimer

/-- The timer is raced in the state `Timer` and is ready at some time once it is armed. -/
def timerReady (w : Writer σ) : Bool := w.state = .timer && w.sleeper

/-- The flusher is raced in the state `Flush`. -/
def flusherReady (w : Writer σ) : Bool := w.state = .flush && w.flusher.isSome

omit [SendBuf σ] in
theorem timer_of_ready {w : Writer σ} (h : w.timerReady = true) : w.state = .timer := by
  rw [timerReady, Bool.and_eq_true, decide_eq_true_eq] at h
  exact h.1

omit [SendBuf σ] in
theorem flush_of_ready {w : Writer σ} (h : w.flusherReady = true) : w.state = .flush := by
  rw [flusherReady, Bool.and_eq_true, decide_eq_true_eq] at h
  exact h.1

/-- How the variables of the loop belong together. -/
structure Consistent (w : Writer σ) : Prop where
  solicit : w.state = .solicit →
    w.buf = [] ∧ w.txHolder = true ∧ w.sleeper = false ∧ w.flusher = none
  timer : w.state = .timer →
    w.buf ≠ [] ∧ w.txHolder = true ∧ w.sleeper = true ∧ w.flusher = none
  flush : w.state = .flush →
    w.txHolder = false ∧ w.sleeper = false ∧ w.flusher.isSome = true
  conserved : w.written ++ (w.flusher.getD [] ++ w.buf) = w.appended

theorem consistent_start {handler : σ} (h : SendBuf.buf handler = []) :
    (start handler).Consistent where
  solicit := fun _ => ⟨h, rfl, rfl, rfl⟩
  timer := fun h => by cases h
  flush := fun h => by cases h
  conserved := h

variable {w : Writer σ}

/-- What the handler appends goes to the end. -/
theorem Consistent.conserved_handled (hw : w.Consistent) {handler : σ} {f : Bytes}
    (hbuf : SendBuf.buf handler = w.buf ++ f) :
    w.written ++ (w.flusher.getD [] ++ SendBuf.buf handler) = (w.handled handler).appended := by
  have happended : (w.handled handler).appended = w.appended ++ f := by
    show w.appended ++ (SendBuf.buf handler).drop w.buf.length = _
    rw [hbuf, List.drop_left]
  rw [happended, ← hw.conserved, hbuf]
  simp only [List.append_assoc]

/-- Outside `Solicit` the handler may append and the state stays. -/
theorem Consistent.busy (hw : w.Consistent) {handler : σ} {f : Bytes}
    (hbuf : SendBuf.buf handler = w.buf ++ f) (hstate : w.state ≠ .solicit) :
    (w.handled handler).Consistent where
  solicit := fun h => absurd h hstate
  timer := by
    intro h
    obtain ⟨hne, hrest⟩ := hw.timer h
    refine ⟨?_, hrest⟩
    show SendBuf.buf handler ≠ []
    rw [hbuf]
    exact List.append_ne_nil_of_left_ne_nil hne f
  flush := hw.flush
  conserved := hw.conserved_handled hbuf

/-- In `Solicit` the timer is armed when there is data. -/
theorem Consistent.arm (hw : w.Consistent) {handler : σ} {f : Bytes}
    (hbuf : SendBuf.buf handler = w.buf ++ f) (hstate : w.state = .solicit)
    (hne : SendBuf.buf handler ≠ []) : (w.handled handler).armTimer.Consistent where
  solicit := fun h => by cases h
  timer := fun _ => ⟨hne, (hw.solicit hstate).2.1, rfl, (hw.solicit hstate).2.2.2⟩
  flush := fun h => by cases h
  conserved := hw.conserved_handled hbuf

/-- The loop stays where it is when the buffer did not change. -/
theorem Consistent.still (hw : w.Consistent) {handler : σ} (hbuf : SendBuf.buf handler = w.buf) :
    (w.handled handler).Consistent where
  solicit := fun h => ⟨hbuf.trans (hw.solicit h).1, (hw.solicit h).2⟩
  timer := by
    intro h
    obtain ⟨hne, hrest⟩ := hw.timer h
    exact ⟨fun hnil => hne (hbuf.symm.trans hnil), hrest⟩
  flush := hw.flush
  conserved := hw.conserved_handled (hbuf.trans (List.append_nil _).symm)

theorem flushBuf_eq (w : Writer σ) (htx : w.txHolder = true) :
    w.flushBuf = .ok { w with
      handler := (SendBuf.flushBuf w.handler).2, sleeper := false, txHolder := false,
      flusher := some w.buf, state := .flush } := by
  unfold flushBuf
  rw [htx, ← show (SendBuf.flushBuf w.handler).1 = w.buf from SendBuf.flushBuf_fst w.handler]
  rfl

/-- **The writer is there when the timer expires**, and the whole buffer goes to the flusher. -/
theorem Consistent.flushBuf (hw : w.Consistent) (hstate : w.state = .timer) :
    ∃ w', w.flushBuf = .ok w' ∧ w'.Consistent := by
  obtain ⟨-, htx, -, hflusher⟩ := hw.timer hstate
  refine ⟨_, w.flushBuf_eq htx, ?_⟩
  constructor
  · intro h
    cases h
  · intro h
    cases h
  · exact fun _ => ⟨rfl, rfl, rfl⟩
  · have hempty : SendBuf.buf (SendBuf.flushBuf w.handler).2 = [] := SendBuf.flushBuf_snd w.handler
    calc w.written ++ (w.buf ++ SendBuf.buf (SendBuf.flushBuf w.handler).2)
        = w.written ++ (w.flusher.getD [] ++ w.buf) := by
          rw [hempty, hflusher, List.append_nil]
          rfl
      _ = w.appended := hw.conserved

/-- A flush that completes gives the writer back. -/
theorem Consistent.flushComplete (hw : w.Consistent) (hstate : w.state = .flush) :
    (w.flushComplete (.ok ())).Consistent := by
  obtain ⟨-, hsleeper, -⟩ := hw.flush hstate
  have hbytes : w.written ++ w.flusher.getD [] ++ ([] ++ w.buf) = w.appended := by
    rw [List.nil_append, List.append_assoc, hw.conserved]
  unfold Writer.flushComplete
  simp only
  split
  · next hempty =>
      have hnil : w.buf = [] := List.isEmpty_iff.mp hempty
      exact ⟨fun _ => ⟨hnil, rfl, hsleeper, rfl⟩, fun h => (by cases h), fun h => (by cases h), hbytes⟩
  · next hempty =>
      have hne : w.buf ≠ [] := fun hnil => hempty (List.isEmpty_iff.mpr hnil)
      exact ⟨fun h => (by cases h), fun _ => ⟨hne, rfl, rfl, rfl⟩, fun h => (by cases h), hbytes⟩

/-! What a turn of either loop leaves, if it still runs. -/

omit [SendBuf σ] in
theorem not_running_exit (w : Writer σ) : ¬ w.exit.running = true := Bool.false_ne_true

theorem Consistent.of_flushBuf (hw : w.Consistent) {w' : Writer σ} (hready : w.timerReady = true)
    (hok : w.flushBuf = .ok w') : w'.Consistent := by
  obtain ⟨w₁, hflush, hconsistent⟩ := hw.flushBuf (timer_of_ready hready)
  rw [hflush] at hok
  cases hok
  exact hconsistent

theorem Consistent.of_flushComplete (hw : w.Consistent) (hready : w.flusherReady = true)
    (result : Except IoError Unit) (hrunning : (w.flushComplete result).running = true) :
    (w.flushComplete result).Consistent := by
  cases result with
  | ok u => exact hw.flushComplete (flush_of_ready hready)
  | error e => exact absurd hrunning w.not_running_exit

end Writer
end Qusb

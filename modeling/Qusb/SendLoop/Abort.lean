import Mathlib.Algebra.BigOperators.Ring.List
import Qusb.Frames
import Qusb.SendLoop.Loops

/-! How the lender ends a session that failed.

A completed transfer that carries an abortable error ends the send loop. The flush that may be under way
is dropped, and the header of the error is written to the same stream. `Sender` is the loop with what the
transport has taken: of the running flush while the loop runs, of the error header afterwards. The header
follows whole frames exactly when the dropped flush had stopped between two frames. -/

open ByteCodec

namespace Qusb.Lend

open Msg Proto

/-- The send loop and its stream. `flushed` counts the bytes of the flusher that are on the wire, `frames`
are the replies that were appended, and `aborted` is the error the loop ended with, together with the
number of bytes of its header that are on the wire. -/
structure Sender where
  loop : SendLoop
  flushed : Nat
  frames : List Bytes
  aborted : Option (UsbError × Nat)

inductive SenderEvent where
  | loop (event : SendEvent)
  | wrote (n : Nat)

/-- The completions whose lengths fit sixteen bits. -/
def SendEvent.Fits : SendEvent → Prop
  | .lend completed _ => LengthsFit completed
  | _ => True

namespace SendLoop

/-- The error in what the handler returned. -/
def errorOf : Except Fault (Except UsbError LendSendHandler × Tokens) → Option UsbError
  | .ok (.error e, _) => some e
  | _ => none

/-- The error that the next turn returns. -/
def abortsWith (b : Build) (s : SendLoop) : SendEvent → Option UsbError
  | .lend completed tokens =>
      if s.running then errorOf (s.handler.handleEvent b tokens completed) else none
  | _ => none

theorem errorOf_eq_some {result : Except Fault (Except UsbError LendSendHandler × Tokens)}
    {e : UsbError} (h : errorOf result = some e) : ∃ tokens, result = .ok (.error e, tokens) := by
  unfold errorOf at h
  split at h
  · next e' tokens =>
      cases h
      exact ⟨tokens, rfl⟩
  · cases h

/-- What a turn can do: nothing, or stop; append a reply; hand the whole buffer to the flusher; or finish
a flush. -/
inductive Turn (s : SendLoop) : SendLoop → Prop
  | idle : Turn s s
  | stop : Turn s s.exit
  | reply {s' : SendLoop} (f : Bytes) (hwire : IsWire f) (hwritten : s'.written = s.written)
      (hflusher : s'.flusher = s.flusher) (hbuf : s'.buf = s.buf ++ f)
      (happended : s'.appended = s.appended ++ f) : Turn s s'
  | flush {s' : SendLoop} (hwritten : s'.written = s.written) (hidle : s.flusher = none)
      (hflusher : s'.flusher = some s.buf) (hbuf : s'.buf = [])
      (happended : s'.appended = s.appended) : Turn s s'
  | complete {s' : SendLoop} (hwritten : s'.written = s.written ++ s.flusher.getD [])
      (hflusher : s'.flusher = none) (hbuf : s'.buf = s.buf)
      (happended : s'.appended = s.appended) : Turn s s'

theorem turn_of_step {b : Build} {s s' : SendLoop} {event : SendEvent}
    (hs : s.running → s.Consistent) (hfit : event.Fits) (hok : step b s event = .ok s') :
    Turn s s' := by
  unfold step at hok
  split at hok
  · next hready =>
      rw [Bool.and_eq_true] at hready
      cases event with
      | lend completed tokens =>
          obtain ⟨⟨result, tokens'⟩, hevent, hok⟩ := bind_eq_ok_iff.mp hok
          cases hok
          cases result with
          | error e => exact .stop
          | ok handler =>
              obtain ⟨f, -, hbuf⟩ := LendSendHandler.handleEvent_ok hevent
              have hnew : (SendBuf.buf handler).drop s.buf.length = f := by
                show handler.buf.drop s.handler.buf.length = f
                rw [hbuf, List.drop_left]
              have happended : (s.handled handler).appended = s.appended ++ f :=
                congrArg (s.appended ++ ·) hnew
              have hwire : IsWire f := isWire_of_appended (.reply hfit hevent hbuf)
              show Turn s (if s.state = .solicit then (s.handled handler).armTimer
                else s.handled handler)
              split
              · exact .reply f hwire rfl rfl hbuf happended
              · exact .reply f hwire rfl rfl hbuf happended
      | flushBuf =>
          obtain ⟨-, htx, -, hidle⟩ := (hs hready.1).timer (Writer.timer_of_ready hready.2)
          have hflush : s.flushBuf = .ok s' := hok
          rw [s.flushBuf_eq htx] at hflush
          cases hflush
          exact .flush rfl hidle rfl rfl rfl
      | flushComplete result =>
          cases hok
          cases result with
          | error e => exact .stop
          | ok u =>
              unfold Writer.flushComplete
              simp only
              split
              · exact .complete rfl rfl rfl rfl
              · exact .complete rfl rfl rfl rfl
      | closed =>
          cases hok
          exact .stop
  · cases hok
    exact .idle

/-- The turn that returns an error ends the loop. -/
theorem step_aborts {b : Build} {s s' : SendLoop} {event : SendEvent} {e : UsbError}
    (hok : step b s event = .ok s') (habort : abortsWith b s event = some e) : s' = s.exit := by
  cases event with
  | lend completed tokens =>
      simp only [abortsWith, Option.ite_none_right_eq_some] at habort
      obtain ⟨hrunning, herror⟩ := habort
      obtain ⟨tokens', hevent⟩ := errorOf_eq_some herror
      have hstep : step b s (.lend completed tokens) = .ok s.exit := by
        unfold step
        rw [if_pos (by rw [hrunning]; rfl)]
        simp only [hevent, ok_bind]
        rfl
      exact Except.ok.inj (hok.symm.trans hstep)
  | flushBuf => cases habort
  | flushComplete result => cases habort
  | closed => cases habort

end SendLoop

namespace Sender

def start (devId : UsbDeviceId) : Sender := ⟨.start devId, 0, [], none⟩

def flusher (s : Sender) : Bytes := s.loop.flusher.getD []

/-- The bytes of replies on the wire. -/
def sent (s : Sender) : Bytes := s.loop.written ++ s.flusher.take s.flushed

/-- The bytes on the wire. -/
def wire (s : Sender) : Bytes :=
  s.sent ++ (s.aborted.elim [] fun (e, taken) => e.asHeader.asBytes.take taken)

/-- The transport takes up to `n` more bytes of the flush, or of the error header. -/
def wrote (s : Sender) (n : Nat) : Sender :=
  match s.aborted with
  | some (e, taken) => { s with aborted := some (e, taken + n) }
  | none => if s.loop.running then { s with flushed := s.flushed + n } else s

/-- A turn of the loop. A frame that was appended is recorded; another flush starts with no byte
written. -/
def turned (b : Build) (s : Sender) (event : SendEvent) (loop : SendLoop) : Sender where
  loop := loop
  flushed := if loop.flusher = s.loop.flusher then s.flushed else 0
  frames :=
    if loop.appended = s.loop.appended then s.frames
    else s.frames ++ [loop.appended.drop s.loop.appended.length]
  aborted := s.aborted.or ((s.loop.abortsWith b event).map fun e => (e, 0))

def step (b : Build) (s : Sender) : SenderEvent → Except Fault Sender
  | .loop event => do
      let loop ← s.loop.step b event
      return s.turned b event loop
  | .wrote n => .ok (s.wrote n)

/-- The frames that were appended are those written, those in the flush, and those in the buffer. -/
structure Sound (s : Sender) : Prop where
  consistent : s.loop.running → s.loop.Consistent
  isWire : ∀ f ∈ s.frames, IsWire f
  split : ∃ done flushing waiting, s.frames = done ++ (flushing ++ waiting) ∧
    s.loop.written = done.flatten ∧ s.flusher = flushing.flatten ∧ s.loop.buf = waiting.flatten

theorem sound_start (devId : UsbDeviceId) : (start devId).Sound where
  consistent := fun _ => Writer.consistent_start rfl
  isWire := fun f hf => by cases hf
  split := ⟨[], [], [], rfl, rfl, rfl, rfl⟩

theorem Sound.wrote {s : Sender} (hs : s.Sound) (n : Nat) : (s.wrote n).Sound := by
  unfold Sender.wrote
  split
  · exact ⟨hs.consistent, hs.isWire, hs.split⟩
  · split
    · exact ⟨hs.consistent, hs.isWire, hs.split⟩
    · exact hs

/-- Each turn moves whole frames. -/
theorem Sound.turned {b : Build} {s : Sender} (hs : s.Sound) {event : SendEvent} {loop : SendLoop}
    (hfit : event.Fits) (hok : s.loop.step b event = .ok loop) : (s.turned b event loop).Sound := by
  obtain ⟨done, flushing, waiting, hframes, hwritten, hflusher, hbuf⟩ := hs.split
  have hconsistent := SendLoop.consistent_step hs.consistent hok
  have hsame : loop.appended = s.loop.appended → (s.turned b event loop).frames = s.frames :=
    fun h => if_pos h
  have hkept : loop.appended = s.loop.appended → ∀ f ∈ (s.turned b event loop).frames, IsWire f := by
    intro h
    rw [hsame h]
    exact hs.isWire
  cases SendLoop.turn_of_step hs.consistent hfit hok with
  | idle =>
      exact ⟨hconsistent, hkept rfl, done, flushing, waiting, (hsame rfl).trans hframes, hwritten,
        hflusher, hbuf⟩
  | stop =>
      exact ⟨hconsistent, hkept rfl, done, flushing, waiting, (hsame rfl).trans hframes, hwritten,
        hflusher, hbuf⟩
  | reply f hwire hwritten' hflusher' hbuf' happended =>
      have hne : f ≠ [] := List.ne_nil_of_length_pos (by have := hwire.length_pos; omega)
      have hnew : (s.turned b event loop).frames = s.frames ++ [f] := by
        have hchanged : loop.appended ≠ s.loop.appended := fun h =>
          hne (List.self_eq_append_right.mp (h.symm.trans happended))
        show (if loop.appended = s.loop.appended then s.frames
          else s.frames ++ [loop.appended.drop s.loop.appended.length]) = _
        rw [if_neg hchanged, happended, List.drop_left]
      refine ⟨hconsistent, ?_, done, flushing, waiting ++ [f], ?_, ?_, ?_, ?_⟩
      · rw [hnew]
        simpa [or_imp, forall_and] using And.intro hs.isWire hwire
      · rw [hnew, hframes]
        simp only [List.append_assoc]
      · exact hwritten'.trans hwritten
      · exact (congrArg (Option.getD · []) hflusher').trans hflusher
      · show loop.buf = (waiting ++ [f]).flatten
        rw [hbuf', hbuf, List.flatten_append, List.flatten_singleton]
  | flush hwritten' hidle hflusher' hbuf' happended =>
      -- nothing was being flushed, so the flush takes all frames that are not written
      have hnil : flushing.flatten = [] := by
        rw [← hflusher]
        exact congrArg (Option.getD · []) hidle
      refine ⟨hconsistent, hkept happended, done, flushing ++ waiting, [], ?_, ?_, ?_, hbuf'⟩
      · rw [hsame happended, hframes, List.append_nil]
      · exact hwritten'.trans hwritten
      · show loop.flusher.getD [] = (flushing ++ waiting).flatten
        rw [hflusher', List.flatten_append, hnil]
        exact hbuf
  | complete hwritten' hflusher' hbuf' happended =>
      refine ⟨hconsistent, hkept happended, done ++ flushing, [], waiting, ?_, ?_, ?_, ?_⟩
      · rw [hsame happended, hframes, List.append_assoc, List.nil_append]
      · show loop.written = (done ++ flushing).flatten
        rw [hwritten', hwritten, List.flatten_append]
        exact congrArg (done.flatten ++ ·) hflusher
      · exact congrArg (Option.getD · []) hflusher'
      · exact hbuf'.trans hbuf

theorem Sound.step {b : Build} {s s' : Sender} (hs : s.Sound) {event : SenderEvent}
    (hfit : ∀ e, event = .loop e → e.Fits) (hok : s.step b event = .ok s') : s'.Sound := by
  cases event with
  | loop event =>
      obtain ⟨loop, hloop, hok⟩ := bind_eq_ok_iff.mp hok
      cases hok
      exact hs.turned (hfit event rfl) hloop
  | wrote n =>
      cases hok
      exact hs.wrote n

/-! ### The end of the session -/

/-- The header of the error follows whole replies, and once the transport has taken all of it a receiver
gets these replies and then the header, however the bytes are read. -/
def EndsOnFrame (s : Sender) (e : UsbError) (taken : Nat) : Prop :=
  ∃ n, s.wire = (s.frames.take n).flatten ++ e.asHeader.asBytes.take taken ∧
    (8 ≤ taken → ∀ (a : Alloc) (b : Build) (capacity : Nat) (cs : List Chunk),
      (cs.map Chunk.bytes).flatten = s.wire →
      Delivers a b (Ring.withCapacity capacity) (Reader.ofChunks cs)
        (s.frames.take n ++ [e.asHeader.asBytes]))

/-- The replies on the wire end between two frames, and none of them is too long to be received. -/
def AtBoundary (s : Sender) (taken : Nat) : Prop :=
  ∃ n, (s.frames.take n).flatten.length = s.sent.length ∧
    (8 ≤ taken → ∀ f ∈ s.frames.take n, f.length < 65536)

/-- What is on the wire is the first part of the frames. -/
theorem Sound.sent_prefix {s : Sender} (hs : s.Sound) : s.sent <+: s.frames.flatten := by
  obtain ⟨done, flushing, waiting, hframes, hwritten, hflusher, -⟩ := hs.split
  unfold sent
  rw [hframes, hwritten, hflusher, List.flatten_append, List.prefix_append_right_inj,
    List.flatten_append]
  exact (List.take_prefix _ _).trans (List.prefix_append _ _)

/-- Between two frames is between two frames of the list. -/
theorem Sound.sent_eq {s : Sender} (hs : s.Sound) {n : Nat}
    (hlen : (s.frames.take n).flatten.length = s.sent.length) : s.sent = (s.frames.take n).flatten := by
  have hprefix : (s.frames.take n).flatten <+: s.frames.flatten := by
    conv_rhs => rw [← List.take_append_drop n s.frames, List.flatten_append]
    exact List.prefix_append _ _
  exact ((List.prefix_of_prefix_length_le hprefix hs.sent_prefix hlen.le).eq_of_length hlen).symm

/-- Whole replies and the error header are received exactly when no reply is too long. -/
theorem delivers_abort_iff {frames : List Bytes} (hwire : ∀ f ∈ frames, IsWire f) (e : UsbError) :
    (∀ (a : Alloc) (b : Build) (capacity : Nat) (cs : List Chunk),
      (cs.map Chunk.bytes).flatten = frames.flatten ++ e.asHeader.asBytes →
      Delivers a b (Ring.withCapacity capacity) (Reader.ofChunks cs) (frames ++ [e.asHeader.asBytes])) ↔
    ∀ f ∈ frames, f.length < 65536 := by
  have hall : ∀ f ∈ frames ++ [e.asHeader.asBytes], IsWire f := by
    have hheader : IsWire e.asHeader.asBytes := isWire_bareHeader _ _ _
    simpa [or_imp, forall_and] using And.intro hwire hheader
  have hflat : (frames ++ [e.asHeader.asBytes]).flatten = frames.flatten ++ e.asHeader.asBytes := by
    rw [List.flatten_append, List.flatten_singleton]
  have hdelivers : ∀ (a : Alloc) (b : Build) (capacity : Nat) (cs : List Chunk),
      (cs.map Chunk.bytes).flatten = frames.flatten ++ e.asHeader.asBytes →
      (Delivers a b (Ring.withCapacity capacity) (Reader.ofChunks cs) (frames ++ [e.asHeader.asBytes]) ↔
        ∀ f ∈ frames ++ [e.asHeader.asBytes], f.length < 65536) := by
    intro a b capacity cs hcs
    refine delivers_iff a b _ _ _ hall ?_ (Reader.errors_ofChunks cs)
    rw [Reader.bytes_ofChunks, hcs, hflat]
    rfl
  have hlong : (∀ f ∈ frames ++ [e.asHeader.asBytes], f.length < 65536) ↔
      ∀ f ∈ frames, f.length < 65536 := by
    simp [or_imp, forall_and]
  constructor
  · intro h
    have hne : frames.flatten ++ e.asHeader.asBytes ≠ [] :=
      List.append_ne_nil_of_right_ne_nil _ (List.ne_nil_of_length_pos (by simp))
    have hone : ([Chunk.mk _ hne].map Chunk.bytes).flatten = frames.flatten ++ e.asHeader.asBytes :=
      List.flatten_singleton
    exact hlong.mp ((hdelivers .tight .dev 0 _ hone).mp (h .tight .dev 0 _ hone))
  · intro h a b capacity cs hcs
    exact (hdelivers a b capacity cs hcs).mpr (hlong.mpr h)

theorem Sound.endsOnFrame_iff {s : Sender} (hs : s.Sound) {e : UsbError} {taken : Nat}
    (habort : s.aborted = some (e, taken)) : s.EndsOnFrame e taken ↔ s.AtBoundary taken := by
  have hwire : s.wire = s.sent ++ e.asHeader.asBytes.take taken := by
    unfold wire
    rw [habort]
    rfl
  refine exists_congr fun n => ?_
  have heq : s.sent = (s.frames.take n).flatten ↔
      (s.frames.take n).flatten.length = s.sent.length :=
    ⟨fun h => congrArg List.length h.symm, hs.sent_eq⟩
  rw [hwire, List.append_left_inj, heq]
  refine and_congr_right fun hlen => forall_congr' fun htaken => ?_
  have hwhole : e.asHeader.asBytes.take taken = e.asHeader.asBytes :=
    List.take_of_length_le (by rw [Header.asBytes_length]; exact htaken)
  rw [hwhole, hs.sent_eq hlen]
  exact delivers_abort_iff (fun f hf => hs.isWire f (List.mem_of_mem_take hf)) e

/-- When no flush is dropped the header follows whole replies. -/
theorem Sound.atBoundary_of_idle {s : Sender} (hs : s.Sound) (hidle : s.loop.flusher = none)
    {taken : Nat} (hshort : ∀ f ∈ s.frames, f.length < 65536) : s.AtBoundary taken := by
  obtain ⟨done, flushing, waiting, hframes, hwritten, -, -⟩ := hs.split
  have hsent : s.sent = done.flatten := by
    unfold sent flusher
    rw [hidle, hwritten, Option.getD_none, List.take_nil, List.append_nil]
  refine ⟨done.length, ?_, fun _ f hf => hshort f (List.mem_of_mem_take hf)⟩
  rw [hframes, List.take_left, hsent]

/-- Whole replies and the whole header have a length that is a multiple of eight. -/
theorem Sound.eight_dvd_of_ends {s : Sender} (hs : s.Sound) {e : UsbError}
    (hends : s.EndsOnFrame e 8) : 8 ∣ s.wire.length := by
  obtain ⟨n, hwire, -⟩ := hends
  have hheader : (e.asHeader.asBytes.take 8).length = 8 := by
    rw [List.length_take, Header.asBytes_length, Nat.min_self]
  rw [hwire, List.length_append, hheader, List.length_flatten]
  refine Nat.dvd_add (List.dvd_sum fun l hl => ?_) (dvd_refl 8)
  obtain ⟨f, hf, rfl⟩ := List.mem_map.mp hl
  exact (hs.isWire f (List.mem_of_mem_take hf)).dvd

theorem sound_of_run {b : Build} {devId : UsbDeviceId} {events : List SenderEvent} {s : Sender}
    (hfit : ∀ e, .loop e ∈ events → e.Fits)
    (hrun : Runs.run (step b) (start devId) events = .ok s) : s.Sound := by
  have hmeets : Runs.Meets (step b) (fun _ event => ∀ e, event = .loop e → e.Fits) (start devId)
      events := Runs.meets_of_forall fun event hevent _ e he => hfit e (he ▸ hevent)
  exact (hmeets.reach hrun).inv (sound_start devId) fun _ _ _ hs hfits hok => hs.step hfits hok

/-- **Aborts.** In every run that ends with an abortable error, at whatever point, what is on the wire is a
sequence of whole replies and then the error header, received as such, if and only if the part of the
dropped flush that was written ends between two frames and none of the replies reaches 65536 bytes. -/
theorem aborts_on_boundary_iff (b : Build) (devId : UsbDeviceId) (events : List SenderEvent)
    (hfit : ∀ e, .loop e ∈ events → e.Fits) {s : Sender}
    (hrun : Runs.run (step b) (start devId) events = .ok s) {e : UsbError} {taken : Nat}
    (habort : s.aborted = some (e, taken)) : s.EndsOnFrame e taken ↔ s.AtBoundary taken :=
  (sound_of_run hfit hrun).endsOnFrame_iff habort

/-- The reply of a reset is flushed, `taken` of its bytes are written, and then a transfer finds the
device gone. -/
def abortSample (taken : Nat) : List SenderEvent :=
  [.loop (.lend (.reset ⟨7, .ok ()⟩) .empty), .loop .flushBuf, .wrote taken,
    .loop (.lend (.ctrl ⟨8, ⟨.out 0, ⟨0⟩, .error (.abortable .deviceDisconnected)⟩⟩) .empty), .wrote 8]

theorem abortSample_fits (taken : Nat) : ∀ e, .loop e ∈ abortSample taken → e.Fits := by
  intro e he
  simp only [abortSample, List.mem_cons, SenderEvent.loop.injEq, reduceCtorEq, List.not_mem_nil,
    or_false, false_or] at he
  rcases he with rfl | rfl | rfl
  · trivial
  · trivial
  · exact Nat.zero_le _

/-- The flush had written the whole reply. -/
theorem abortSample_ends : ∃ s e, Runs.run (step .dev) (start ⟨1, 2⟩) (abortSample 8) = .ok s ∧
    s.aborted = some (e, 8) ∧ s.EndsOnFrame e 8 :=
  ⟨_, _, rfl, rfl, (aborts_on_boundary_iff .dev ⟨1, 2⟩ (abortSample 8) (abortSample_fits 8) rfl
    rfl).mpr ⟨1, by decide, by decide⟩⟩

/-- The flush had written three bytes of the reply. -/
theorem torn_reply_before_header : ∃ s e, Runs.run (step .dev) (start ⟨1, 2⟩) (abortSample 3) = .ok s ∧
    s.aborted = some (e, 8) ∧ s.wire = [1, 0, 4, 1, 0, 3, 4, 8, 0, 0, 0] ∧ ¬ s.EndsOnFrame e 8 := by
  refine ⟨_, _, rfl, rfl, by decide, fun hends => ?_⟩
  have hdvd := (sound_of_run (b := .dev) (abortSample_fits 3) rfl).eight_dvd_of_ends hends
  exact absurd hdvd (by decide)

end Sender
end Qusb.Lend

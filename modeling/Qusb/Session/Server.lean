import Qusb.Base.Runs

/-! The server's event loop and its shutdown.

The server spawns a session for each connection, and every session hands its result back through a channel
of one. The first loop takes connections and results until both streams have ended. The stream of results
ends once every sender is dropped; one sender belongs to the server itself, which drops it after the loop. -/

open Runs

namespace Qusb.Server

/-- The number of a session, and whether `open_session` returned `Ok`. -/
structure TaskResult where
  id : Nat
  ok : Bool
  deriving DecidableEq, Repr

/-- The capacity of the channel of results. -/
def taskSlots : Nat := 1

/-- Where `serve` is: in its first loop, in its second, or done. -/
inductive Phase where
  | serving
  | draining
  | finished
  deriving DecidableEq, Repr

/-- `running` are the sessions that have not returned, `sending` the results that wait for room in the
channel; each of these holds a sender. -/
structure ServeLoop where
  phase : Phase
  cancelled : Bool
  incoming : Bool
  nextId : Nat
  running : List Nat
  sending : List TaskResult
  results : List TaskResult
  deriving DecidableEq, Repr

inductive ServeEvent where
  /-- The token is cancelled, by `shutdown`. -/
  | cancel
  /-- A connection comes in, and its session is spawned. -/
  | incoming
  /-- The stream of connections sees that the token is cancelled. -/
  | stopped
  /-- The endpoint is closed. -/
  | closed
  /-- A session returns. -/
  | returned (id : Nat) (ok : Bool)
  /-- The channel has room for a result, and its sender is dropped. -/
  | sent (result : TaskResult)
  | taken
  /-- Both streams have ended. -/
  | eventsEnded
  | tasksEnded
  deriving DecidableEq, Repr

/-- The event cannot happen. -/
inductive Disabled where
  | disabled
  deriving DecidableEq, Repr

namespace ServeLoop

def start : ServeLoop := ⟨.serving, false, true, 1, [], [], []⟩

/-- The senders that are not dropped: the server's own and one for each session. -/
def senders (s : ServeLoop) : Nat :=
  (if s.phase = .serving then 1 else 0) + s.running.length + s.sending.length

/-- The stream of results has ended. -/
def noTasks (s : ServeLoop) : Bool := s.results.isEmpty && s.senders == 0

def guard (c : Bool) (s : ServeLoop) : Except Disabled ServeLoop :=
  if c then .ok s else .error .disabled

def step (s : ServeLoop) : ServeEvent → Except Disabled ServeLoop
  | .cancel => .ok { s with cancelled := true }
  | .incoming => guard (s.phase = .serving && s.incoming && !s.cancelled)
      { s with nextId := s.nextId + 1, running := s.running ++ [s.nextId] }
  | .stopped => guard (s.phase = .serving && s.incoming && s.cancelled) { s with incoming := false }
  | .closed => guard (s.phase = .serving && s.incoming && !s.cancelled) { s with incoming := false }
  | .returned id ok => guard (id ∈ s.running)
      { s with running := s.running.erase id, sending := s.sending ++ [⟨id, ok⟩] }
  | .sent result => guard (result ∈ s.sending && s.results.length < taskSlots)
      { s with sending := s.sending.erase result, results := s.results ++ [result] }
  | .taken => guard (s.phase ≠ .finished && !s.results.isEmpty) { s with results := s.results.tail }
  | .eventsEnded => guard (s.phase = .serving && !s.incoming && s.noTasks)
      { s with phase := .draining, cancelled := true }
  | .tasksEnded => guard (s.phase = .draining && s.noTasks) { s with phase := .finished }

/-- Cancellation was requested, no connection can come any more, and every session has delivered its result,
which was taken. -/
structure Drained (s : ServeLoop) : Prop where
  cancelled : s.cancelled = true
  incoming : s.incoming = false
  running : s.running = []
  sending : s.sending = []
  results : s.results = []

/-- The first loop still waits, and nothing that can happen changes anything. -/
structure Stuck (s : ServeLoop) : Prop where
  drained : s.Drained
  serving : s.phase = .serving
  idle : ∀ e s', s.step e = .ok s' → s' = s

section

variable {s s' : ServeLoop}

theorem guard_eq_ok_iff {c : Bool} {r : ServeLoop} : guard c r = .ok s' ↔ c = true ∧ r = s' := by
  unfold guard
  cases c with
  | false => simp
  | true => simp

/-- While the server's own sender is alive the stream of results does not end. -/
theorem not_noTasks (h : s.phase = .serving) : s.noTasks = false := by
  have hpos : s.senders ≠ 0 := by
    unfold senders
    rw [if_pos h]
    omega
  unfold noTasks
  rw [beq_eq_false_iff_ne.mpr hpos, Bool.and_false]

/-- **The first loop is never left.** -/
theorem serving_step (h : s.phase = .serving) {e : ServeEvent} (hok : s.step e = .ok s') :
    s'.phase = .serving := by
  cases e with
  | cancel =>
      cases hok
      exact h
  | eventsEnded | tasksEnded =>
      obtain ⟨hends, -⟩ := guard_eq_ok_iff.mp hok
      rw [not_noTasks h, Bool.and_false] at hends
      cases hends
  | incoming | stopped | closed | returned | sent | taken =>
      obtain ⟨-, rfl⟩ := guard_eq_ok_iff.mp hok
      exact h

/-- With nothing left to come, the first loop waits for ever. -/
theorem Drained.stuck (hs : s.Drained) (h : s.phase = .serving) : s.Stuck where
  drained := hs
  serving := h
  idle := by
    obtain ⟨hcancelled, hincoming, hrunning, hsending, hresults⟩ := hs
    intro e s' hok
    cases e with
    | cancel =>
        cases hok
        rw [← hcancelled]
    | eventsEnded | tasksEnded =>
        obtain ⟨hends, -⟩ := guard_eq_ok_iff.mp hok
        simp [not_noTasks h] at hends
    | incoming | stopped | closed =>
        obtain ⟨hopen, -⟩ := guard_eq_ok_iff.mp hok
        simp [hincoming] at hopen
    | returned | sent | taken =>
        obtain ⟨hwaiting, -⟩ := guard_eq_ok_iff.mp hok
        simp [hrunning, hsending, hresults] at hwaiting

/-- A step on the way to a drained state. -/
theorem reach_step {e : ServeEvent} (hok : s.step e = .ok s') : Reach step (fun _ _ => True) s s' :=
  .next e .start trivial hok

/-- Every session can return, and its result be delivered and taken: the induction is on what is still to
be done for that. -/
theorem reach_drained (h : s.phase = .serving) (hcancelled : s.cancelled = true)
    (hincoming : s.incoming = false) :
    ∃ d, Reach step (fun _ _ => True) s d ∧ d.Drained ∧ d.phase = .serving := by
  generalize hsize : 3 * s.running.length + 2 * s.sending.length + s.results.length = size
  induction size using Nat.strongRecOn generalizing s with
  | ind size ih =>
      have hnext : ∀ {e s'}, s.step e = .ok s' → s'.cancelled = true → s'.incoming = false →
          3 * s'.running.length + 2 * s'.sending.length + s'.results.length < size →
          ∃ d, Reach step (fun _ _ => True) s d ∧ d.Drained ∧ d.phase = .serving := by
        intro e s' hok hcancelled' hincoming' hlt
        obtain ⟨d, hreach, hdrained⟩ := ih _ hlt (serving_step h hok) hcancelled' hincoming' rfl
        exact ⟨d, (reach_step hok).trans hreach, hdrained⟩
      cases hresults : s.results with
      | cons r results =>
          refine hnext (e := .taken) (guard_eq_ok_iff.mpr ⟨by simp [h, hresults], rfl⟩)
            hcancelled hincoming ?_
          simp only [hresults, List.length_cons, List.tail_cons] at hsize ⊢
          omega
      | nil =>
          cases hsending : s.sending with
          | cons r sending =>
              refine hnext (e := .sent r)
                (guard_eq_ok_iff.mpr ⟨by simp [hsending, hresults, taskSlots], rfl⟩) hcancelled hincoming ?_
              simp only [hsending, hresults, List.erase_cons_head, List.length_cons, List.length_append,
                List.length_nil] at hsize ⊢
              omega
          | nil =>
              cases hrunning : s.running with
              | cons id running =>
                  refine hnext (e := .returned id true) (guard_eq_ok_iff.mpr ⟨by simp [hrunning], rfl⟩)
                    hcancelled hincoming ?_
                  simp only [hrunning, hsending, hresults, List.erase_cons_head, List.length_cons,
                    List.length_append, List.length_nil] at hsize ⊢
                  omega
              | nil => exact ⟨s, .start, ⟨hcancelled, hincoming, hrunning, hsending, hresults⟩, h⟩

/-- A server in its first loop can be shut down, and then gets stuck. -/
theorem reach_stuck (h : s.phase = .serving) : ∃ d, Reach step (fun _ _ => True) s d ∧ d.Stuck := by
  have hcancel : s.step .cancel = .ok { s with cancelled := true } := rfl
  cases hincoming : s.incoming with
  | false =>
      obtain ⟨d, hreach, hdrained, hserving⟩ :=
        reach_drained (s := { s with cancelled := true }) h rfl hincoming
      exact ⟨d, (reach_step hcancel).trans hreach, hdrained.stuck hserving⟩
  | true =>
      have hstop : ({ s with cancelled := true } : ServeLoop).step .stopped =
          .ok { s with cancelled := true, incoming := false } :=
        guard_eq_ok_iff.mpr ⟨by simp [h, hincoming], rfl⟩
      obtain ⟨d, hreach, hdrained, hserving⟩ :=
        reach_drained (s := { s with cancelled := true, incoming := false }) h rfl rfl
      exact ⟨d, ((reach_step hcancel).trans (reach_step hstop)).trans hreach, hdrained.stuck hserving⟩

end

/-- **Shutdown never completes.** Whatever connections came and in whatever order their sessions return, the
server is in its first loop; it is stuck there in every state in which it could go on, and gets into such a
state once it is shut down. -/
theorem shutdown_stuck {s : ServeLoop} (hreach : Reach step (fun _ _ => True) start s) :
    s.phase = .serving ∧ (s.Drained → s.Stuck) ∧ ∃ d, Reach step (fun _ _ => True) s d ∧ d.Stuck := by
  have hserving : s.phase = .serving :=
    hreach.inv (I := fun s => s.phase = .serving) rfl fun _ _ _ hs _ hok => serving_step hs hok
  exact ⟨hserving, fun hdrained => hdrained.stuck hserving, reach_stuck hserving⟩

/-- A session that returns, and a shutdown. -/
def shutdownRun : List ServeEvent :=
  [.incoming, .cancel, .stopped, .returned 1 true, .sent ⟨1, true⟩, .taken]

theorem session_shutdown_stuck :
    ∃ s, run step start shutdownRun = .ok s ∧ s.Drained ∧ s.Stuck := by
  have hrun : run step start shutdownRun = .ok ⟨.serving, true, false, 2, [], [], []⟩ := by decide
  have hdrained : Drained ⟨.serving, true, false, 2, [], [], []⟩ := ⟨rfl, rfl, rfl, rfl, rfl⟩
  exact ⟨_, hrun, hdrained, (shutdown_stuck (Meets.reach meets_true hrun)).2.1 hdrained⟩

/-- A server that is shut down before any connection hangs. -/
theorem shutdown_hangs : ¬ ∀ s, Reach step (fun _ _ => True) start s → ¬ s.Stuck := by
  intro hfree
  have hrun : run step start [.cancel, .stopped] = .ok ⟨.serving, true, false, 1, [], [], []⟩ := by decide
  have hdrained : Drained ⟨.serving, true, false, 1, [], [], []⟩ := ⟨rfl, rfl, rfl, rfl, rfl⟩
  exact hfree _ (Meets.reach meets_true hrun) (hdrained.stuck rfl)

end ServeLoop

end Qusb.Server

import Qusb.Base.Backlog
import Qusb.Base.Runs

/-! The runtime thread and the blocking thread.

Tasks of the runtime hand closures to the blocking thread through a queue of 64, and wait while it is full;
the closures of the demuxer's requests hand their results back through a channel of one, and wait while it
is full. The demuxer empties that channel only when the runtime polls it, and a receive loop once polled
goes on until it has handled every reply already in its buffer. -/

open Backlog Runs

namespace Qusb.Blocking

/-- What a session asks of the demuxer. -/
inductive Request where
  | register
  | disconnect
  deriving DecidableEq, Repr

/-- A closure for the blocking thread: the driver call of a request, whose result goes to the demuxer, or
work on a single URB, whose result nobody waits for. -/
inductive Task where
  | request (r : Request)
  | urb
  deriving DecidableEq, Repr

/-- The capacity of the queue of the blocking thread. -/
def taskSlots : Nat := 64

/-- The capacity of the demuxer's channel of results. -/
def resultSlots : Nat := 1

/-- A task that the runtime polls: the demuxer, or a receive loop with a number of replies buffered. -/
inductive Turn where
  | demux
  | receive (replies : Nat)
  deriving DecidableEq, Repr

/-- A call of `spawn_blocking`: for a request, by the demuxer, or to give back the URB of a reply, by a
receive loop that has more of them. -/
inductive Spawn where
  | request (r : Request)
  | giveback (replies : Nat)
  deriving DecidableEq, Repr

def Spawn.task : Spawn → Task
  | .request r => .request r
  | .giveback _ => .urb

/-- Where the caller goes on. -/
def Spawn.turn : Spawn → Turn
  | .request _ => .demux
  | .giveback replies => .receive replies

inductive Runtime where
  | free
  | running (turn : Turn)
  | spawning (spawn : Spawn)
  deriving DecidableEq, Repr

inductive Worker where
  | waiting
  | running (task : Task)
  | sending (r : Request)
  deriving DecidableEq, Repr

/-- Both threads, with the queues between them and the two channels of one to the demuxer. -/
structure Threads where
  runtime : Runtime
  worker : Worker
  tasks : List Task
  results : List Request
  register : Bool
  disconnect : Bool
  deriving DecidableEq, Repr

inductive Event where
  /-- A session's request enters its channel. -/
  | send (r : Request)
  | poll (turn : Turn)
  /-- The demuxer takes a request and spawns its closure. -/
  | takeRequest (r : Request)
  | takeResult
  /-- A receive loop handles a reply and spawns its giveback. -/
  | reply
  /-- The queue has room for the closure that is being spawned. -/
  | spawned
  | yield
  /-- The demuxer waits for a session to take its work. -/
  | stall
  | recvTask
  /-- The blocking thread has made the driver call. -/
  | called
  | sendResult
  deriving DecidableEq, Repr

/-- The event cannot happen. -/
inductive Disabled where
  | disabled
  deriving DecidableEq, Repr

namespace Threads

def start : Threads := ⟨.free, .waiting, [], [], false, false⟩

def has (s : Threads) : Request → Bool
  | .register => s.register
  | .disconnect => s.disconnect

def put (s : Threads) (full : Bool) : Request → Threads
  | .register => { s with register := full }
  | .disconnect => { s with disconnect := full }

/-- An event of a polled task. -/
def stepTurn (s : Threads) : Turn → Event → Except Disabled Threads
  | .demux, .takeRequest r =>
      if s.has r then .ok { s.put false r with runtime := .spawning (.request r) } else .error .disabled
  | .demux, .takeResult =>
      match s.results with
      | _ :: results => .ok { s with results := results }
      | [] => .error .disabled
  | .demux, .yield =>
      if s.register || s.disconnect || !s.results.isEmpty then .error .disabled
      else .ok { s with runtime := .free }
  | .demux, .stall => .ok { s with runtime := .free }
  | .receive (replies + 1), .reply => .ok { s with runtime := .spawning (.giveback replies) }
  | .receive 0, .yield => .ok { s with runtime := .free }
  | _, _ => .error .disabled

/-- An event of the runtime thread. -/
def stepRuntime (s : Threads) : Runtime → Event → Except Disabled Threads
  | .free, .send r => if s.has r then .error .disabled else .ok (s.put true r)
  | .free, .poll turn => .ok { s with runtime := .running turn }
  | .running turn, e => s.stepTurn turn e
  | .spawning spawn, .spawned =>
      if s.tasks.length < taskSlots then
        .ok { s with runtime := .running spawn.turn, tasks := s.tasks ++ [spawn.task] }
      else .error .disabled
  | _, _ => .error .disabled

/-- An event of the blocking thread. -/
def stepWorker (s : Threads) : Worker → Event → Except Disabled Threads
  | .waiting, .recvTask =>
      match s.tasks with
      | task :: tasks => .ok { s with worker := .running task, tasks := tasks }
      | [] => .error .disabled
  | .running (.request r), .called => .ok { s with worker := .sending r }
  | .running .urb, .called => .ok { s with worker := .waiting }
  | .sending r, .sendResult =>
      if s.results.length < resultSlots then
        .ok { s with worker := .waiting, results := s.results ++ [r] }
      else .error .disabled
  | _, _ => .error .disabled

def step (s : Threads) : Event → Except Disabled Threads
  | .recvTask => s.stepWorker s.worker .recvTask
  | .called => s.stepWorker s.worker .called
  | .sendResult => s.stepWorker s.worker .sendResult
  | e => s.stepRuntime s.runtime e

/-- The runtime thread waits for room in the queue. -/
def RuntimeBlocked (s : Threads) : Prop := ∃ spawn, s.runtime = .spawning spawn ∧ taskSlots ≤ s.tasks.length

/-- The blocking thread waits for room in the channel of results. -/
def WorkerBlocked (s : Threads) : Prop := ∃ r, s.worker = .sending r ∧ resultSlots ≤ s.results.length

def Deadlocked (s : Threads) : Prop := s.RuntimeBlocked ∧ s.WorkerBlocked

/-- Once the threads wait for each other nothing happens any more. -/
theorem Deadlocked.stuck {s : Threads} (h : s.Deadlocked) (e : Event) : s.step e = .error .disabled := by
  obtain ⟨⟨spawn, hruntime, htasks⟩, r, hworker, hresults⟩ := h
  cases e <;> simp only [step, hruntime, hworker, stepRuntime, stepWorker]
  · exact if_neg (Nat.not_lt_of_le htasks)
  · exact if_neg (Nat.not_lt_of_le hresults)

/-! ### What a step does -/

inductive Step : Threads → Event → Threads → Prop
  | send {s : Threads} (r : Request) (hruntime : s.runtime = .free) (hroom : s.has r = false) :
      Step s (.send r) (s.put true r)
  | poll {s : Threads} (turn : Turn) (hruntime : s.runtime = .free) :
      Step s (.poll turn) { s with runtime := .running turn }
  | takeRequest {s : Threads} (r : Request) (hruntime : s.runtime = .running .demux) (hfull : s.has r = true) :
      Step s (.takeRequest r) { s.put false r with runtime := .spawning (.request r) }
  | takeResult {s : Threads} {r : Request} {results : List Request} (hruntime : s.runtime = .running .demux)
      (hresults : s.results = r :: results) : Step s .takeResult { s with results := results }
  | reply {s : Threads} {replies : Nat} (hruntime : s.runtime = .running (.receive (replies + 1))) :
      Step s .reply { s with runtime := .spawning (.giveback replies) }
  | spawned {s : Threads} {spawn : Spawn} (hruntime : s.runtime = .spawning spawn)
      (hroom : s.tasks.length < taskSlots) :
      Step s .spawned { s with runtime := .running spawn.turn, tasks := s.tasks ++ [spawn.task] }
  | stall {s : Threads} (hruntime : s.runtime = .running .demux) : Step s .stall { s with runtime := .free }
  | yieldDemux {s : Threads} (hruntime : s.runtime = .running .demux) (hregister : s.register = false)
      (hdisconnect : s.disconnect = false) (hresults : s.results = []) :
      Step s .yield { s with runtime := .free }
  | yieldReceive {s : Threads} (hruntime : s.runtime = .running (.receive 0)) :
      Step s .yield { s with runtime := .free }
  | recvTask {s : Threads} {task : Task} {tasks : List Task} (hworker : s.worker = .waiting)
      (htasks : s.tasks = task :: tasks) : Step s .recvTask { s with worker := .running task, tasks := tasks }
  | called {s : Threads} {r : Request} (hworker : s.worker = .running (.request r)) :
      Step s .called { s with worker := .sending r }
  | done {s : Threads} (hworker : s.worker = .running .urb) : Step s .called { s with worker := .waiting }
  | sendResult {s : Threads} {r : Request} (hworker : s.worker = .sending r)
      (hroom : s.results.length < resultSlots) :
      Step s .sendResult { s with worker := .waiting, results := s.results ++ [r] }

theorem step_turn {s s' : Threads} {turn : Turn} {e : Event} (hruntime : s.runtime = .running turn)
    (h : s.stepTurn turn e = .ok s') : Step s e s' := by
  unfold stepTurn at h
  split at h
  · split at h
    · next hfull =>
        cases h
        exact .takeRequest _ hruntime hfull
    · cases h
  · split at h
    · next hresults =>
        cases h
        exact .takeResult hruntime hresults
    · cases h
  · split at h
    · cases h
    · next hidle =>
        simp only [Bool.or_eq_true, Bool.not_eq_true', not_or, Bool.not_eq_true, Bool.not_eq_false,
          List.isEmpty_iff] at hidle
        cases h
        exact .yieldDemux hruntime hidle.1.1 hidle.1.2 hidle.2
  · cases h
    exact .stall hruntime
  · cases h
    exact .reply hruntime
  · cases h
    exact .yieldReceive hruntime
  · cases h

theorem step_runtime {s s' : Threads} {e : Event} (h : s.stepRuntime s.runtime e = .ok s') : Step s e s' := by
  cases hruntime : s.runtime with
  | free =>
      rw [hruntime] at h
      unfold stepRuntime at h
      split at h
      · split at h
        · cases h
        · next hroom =>
            cases h
            exact .send _ hruntime (Bool.eq_false_iff.mpr hroom)
      · cases h
        exact .poll _ hruntime
      · next heq => cases heq
      · next heq => cases heq
      · cases h
  | running turn =>
      rw [hruntime] at h
      exact step_turn hruntime h
  | spawning spawn =>
      rw [hruntime] at h
      cases e <;> simp only [stepRuntime, reduceCtorEq] at h
      split at h
      · next hroom =>
          cases h
          exact .spawned hruntime hroom
      · cases h

theorem step_worker {s s' : Threads} {e : Event} (h : s.stepWorker s.worker e = .ok s') : Step s e s' := by
  cases hworker : s.worker with
  | waiting =>
      rw [hworker] at h
      cases e <;> simp only [stepWorker, reduceCtorEq] at h
      split at h
      · next htasks =>
          cases h
          exact .recvTask hworker htasks
      · cases h
  | running task =>
      rw [hworker] at h
      cases task <;> cases e <;> simp only [stepWorker, reduceCtorEq] at h
      · cases h
        exact .called hworker
      · cases h
        exact .done hworker
  | sending r =>
      rw [hworker] at h
      cases e <;> simp only [stepWorker, reduceCtorEq] at h
      split at h
      · next hroom =>
          cases h
          exact .sendResult hworker hroom
      · cases h

theorem step_cases {s s' : Threads} {e : Event} (h : s.step e = .ok s') : Step s e s' := by
  cases e with
  | recvTask => exact step_worker h
  | called => exact step_worker h
  | sendResult => exact step_worker h
  | _ => exact step_runtime h

end Threads

end Qusb.Blocking

import Qusb.Stub.Blocking

/-! When the two threads wait for each other.

The blocking thread gets stuck on the second request whose result finds the channel full. The runtime thread
can then go on only until the queue is full: what counts is how many closures lie behind that request, and
how many more the polled task spawns before it yields and the demuxer gets to empty the channel. -/

open Backlog Runs

namespace Qusb.Blocking

def Task.isRequest : Task → Bool
  | .request _ => true
  | .urb => false

/-- The closure in the hands of the blocking thread. -/
def Worker.tasks : Worker → List Task
  | .waiting => []
  | .running task => [task]
  | .sending r => [.request r]

namespace Threads

/-- The closures behind the request on which the blocking thread gets stuck if the demuxer is not run. -/
def behind (s : Threads) : Option Nat :=
  Backlog.behind Task.isRequest (resultSlots - s.results.length) (s.worker.tasks ++ s.tasks)

/-- How many closures a task spawns before it yields: one for each reply, or each request in a channel. -/
def load (s : Threads) : Turn → Nat
  | .demux => s.register.toNat + s.disconnect.toNat
  | .receive replies => replies

/-- A task is polled only if the queue has room for what it spawns behind the request on which the blocking
thread gets stuck. -/
def Roomy (s : Threads) : Event → Prop
  | .poll turn => ∀ m ∈ s.behind, m + s.load turn ≤ taskSlots
  | _ => True

instance (s : Threads) : ∀ e, Decidable (s.Roomy e)
  | .poll turn => inferInstanceAs (Decidable (∀ m ∈ s.behind, m + s.load turn ≤ taskSlots))
  | .send _ | .takeRequest _ | .takeResult | .reply | .spawned | .yield | .stall | .recvTask | .called
  | .sendResult => isTrue trivial

/-- What the polled task is still going to spawn. -/
def left (s : Threads) : Nat :=
  match s.runtime with
  | .free => 0
  | .running turn => s.load turn
  | .spawning spawn => s.load spawn.turn + 1

/-- The queues keep to their capacities. -/
structure Sized (s : Threads) : Prop where
  tasks_le : s.tasks.length ≤ taskSlots
  results_le : s.results.length ≤ resultSlots

/-- There is room for what the polled task spawns, too. -/
structure Bounded (s : Threads) : Prop extends Sized s where
  fits : ∀ m ∈ s.behind, m + s.left ≤ taskSlots

theorem sized_start : start.Sized := ⟨Nat.zero_le _, Nat.zero_le _⟩

theorem Sized.step {s s' : Threads} {e : Event} (hs : s.Sized) (h : s.step e = .ok s') : s'.Sized := by
  cases step_cases h with
  | send r hruntime hroom => cases r <;> exact ⟨hs.tasks_le, hs.results_le⟩
  | takeRequest r hruntime hfull => cases r <;> exact ⟨hs.tasks_le, hs.results_le⟩
  | takeResult hruntime hresults =>
      have hle := hs.results_le
      rw [hresults, List.length_cons] at hle
      exact ⟨hs.tasks_le, Nat.le_trans (Nat.le_succ _) hle⟩
  | spawned hruntime hroom =>
      refine ⟨?_, hs.results_le⟩
      rw [List.length_append, List.length_singleton]
      exact hroom
  | recvTask hworker htasks =>
      have hle := hs.tasks_le
      rw [htasks, List.length_cons] at hle
      exact ⟨Nat.le_trans (Nat.le_succ _) hle, hs.results_le⟩
  | sendResult hworker hroom =>
      refine ⟨hs.tasks_le, ?_⟩
      rw [List.length_append, List.length_singleton]
      exact hroom
  | _ => exact ⟨hs.tasks_le, hs.results_le⟩

theorem load_demux_le (s : Threads) : s.load .demux ≤ 2 := by
  unfold load
  cases s.register <;> cases s.disconnect <;> decide

theorem behind_le (s : Threads) {m : Nat} (h : m ∈ s.behind) : m ≤ s.tasks.length := by
  have hlt := behind_lt (Option.mem_def.mp h)
  rw [List.length_append] at hlt
  have hworker : s.worker.tasks.length ≤ 1 := by
    cases s.worker <;> simp [Worker.tasks]
  omega

theorem load_put_false {s : Threads} {r : Request} (h : s.has r = true) :
    (s.put false r).load .demux + 1 = s.load .demux := by
  cases r with
  | register =>
      have hfull : s.register = true := h
      simp only [put, load, hfull, Bool.toNat_false, Bool.toNat_true]
      omega
  | disconnect =>
      have hfull : s.disconnect = true := h
      simp only [put, load, hfull, Bool.toNat_false, Bool.toNat_true]

/-! ### The blocking thread -/

/-- What the blocking thread does for itself does not move the request on which it gets stuck. -/
theorem behind_recvTask {s : Threads} {task : Task} {tasks : List Task} (hworker : s.worker = .waiting)
    (htasks : s.tasks = task :: tasks) :
    behind { s with worker := .running task, tasks := tasks } = s.behind := by
  simp only [behind, hworker, htasks, Worker.tasks, List.nil_append, List.singleton_append]

theorem behind_called {s : Threads} {r : Request} (hworker : s.worker = .running (.request r)) :
    behind { s with worker := .sending r } = s.behind := by
  simp only [behind, hworker, Worker.tasks]

theorem behind_done {s : Threads} (hworker : s.worker = .running .urb) :
    behind { s with worker := .waiting } = s.behind := by
  simp only [behind, hworker, Worker.tasks, List.nil_append, List.singleton_append]
  exact (behind_cons_of_not rfl).symm

theorem behind_sendResult {s : Threads} {r : Request} (hworker : s.worker = .sending r)
    (hroom : s.results.length < resultSlots) :
    behind { s with worker := .waiting, results := s.results ++ [r] } = s.behind := by
  have hslots : resultSlots - s.results.length = resultSlots - (s.results ++ [r]).length + 1 := by
    rw [List.length_append, List.length_singleton]
    omega
  simp only [behind, hworker, Worker.tasks, List.nil_append, List.singleton_append, hslots]
  exact (behind_succ_cons rfl).symm

/-! ### The runtime thread -/

theorem behind_takeResult {s : Threads} {r : Request} {results : List Request}
    (hresults : s.results = r :: results) (hle : s.results.length ≤ resultSlots) {m : Nat}
    (h : m ∈ behind { s with results := results }) : ∃ n ∈ s.behind, m < n := by
  have hslots : resultSlots - results.length = resultSlots - s.results.length + 1 := by
    rw [hresults, List.length_cons] at hle ⊢
    omega
  have hbehind : Backlog.behind Task.isRequest (resultSlots - s.results.length + 1)
      (s.worker.tasks ++ s.tasks) = some m := by
    rw [← hslots]
    exact h
  exact behind_of_succ hbehind

/-- A closure that is spawned lies behind the request on which the blocking thread gets stuck, or is that
request. -/
theorem behind_spawned {s : Threads} (runtime : Runtime) (task : Task) {m : Nat}
    (h : m ∈ behind { s with runtime := runtime, tasks := s.tasks ++ [task] }) :
    (∃ n ∈ s.behind, m = n + 1) ∨ (task.isRequest ∧ m = 0) := by
  have happ : Backlog.behind Task.isRequest (resultSlots - s.results.length)
      (s.worker.tasks ++ s.tasks ++ [task]) = some m := by
    rw [List.append_assoc]
    exact h
  cases hs : s.behind with
  | some n =>
      rw [behind_append_of_some [task] hs] at happ
      exact Or.inl ⟨n, rfl, (Option.some.inj happ).symm⟩
  | none =>
      rcases behind_concat_of_none hs with hnone | ⟨hreq, hzero⟩
      · rw [hnone] at happ
        cases happ
      · rw [hzero] at happ
        exact Or.inr ⟨hreq, (Option.some.inj happ).symm⟩

theorem bounded_start : start.Bounded := ⟨sized_start, fun m h => by cases h⟩

/-- A task that has yielded spawns nothing more. -/
theorem Sized.fits_of_left {s : Threads} (hs : s.Sized) (hleft : s.left = 0) :
    ∀ m ∈ s.behind, m + s.left ≤ taskSlots := by
  intro m hm
  rw [hleft]
  exact Nat.le_trans (s.behind_le hm) hs.tasks_le

/-- **The room is kept by every step.** -/
theorem Bounded.step {s s' : Threads} {e : Event} (hs : s.Bounded) (hroomy : s.Roomy e)
    (h : s.step e = .ok s') : s'.Bounded := by
  have hsized : s'.Sized := hs.toSized.step h
  refine ⟨hsized, ?_⟩
  cases step_cases h with
  | send r hruntime hroom => exact hsized.fits_of_left (by cases r <;> simp only [left, put, hruntime])
  | poll turn hruntime => exact hroomy
  | takeRequest r hruntime hfull =>
      intro m hm
      have hfits := hs.fits m (by cases r <;> exact hm)
      simp only [left, hruntime] at hfits
      rw [← load_put_false hfull] at hfits
      exact hfits
  | takeResult hruntime hresults =>
      intro m hm
      obtain ⟨n, hn, hlt⟩ := behind_takeResult hresults hs.results_le hm
      exact Nat.le_trans (Nat.add_le_add_right (Nat.le_of_lt hlt) _) (hs.fits n hn)
  | reply hruntime =>
      intro m hm
      have hfits := hs.fits m hm
      simp only [left, hruntime] at hfits
      exact hfits
  | @spawned spawn hruntime hroom =>
      intro m hm
      rcases behind_spawned _ _ hm with ⟨n, hn, rfl⟩ | ⟨hreq, rfl⟩
      · have hfits := hs.fits n hn
        simp only [left, hruntime] at hfits
        change n + 1 + s.load spawn.turn ≤ taskSlots
        omega
      · cases spawn with
        | request r =>
            have hload := s.load_demux_le
            change 0 + s.load .demux ≤ 64
            omega
        | giveback replies => cases hreq
  | stall hruntime => exact hsized.fits_of_left rfl
  | yieldDemux hruntime hregister hdisconnect hresults => exact hsized.fits_of_left rfl
  | yieldReceive hruntime => exact hsized.fits_of_left rfl
  | recvTask hworker htasks =>
      rw [behind_recvTask hworker htasks]
      exact hs.fits
  | called hworker =>
      rw [behind_called hworker]
      exact hs.fits
  | done hworker =>
      rw [behind_done hworker]
      exact hs.fits
  | sendResult hworker hroom =>
      rw [behind_sendResult hworker hroom]
      exact hs.fits

/-- A deadlock leaves no room. -/
theorem Bounded.not_deadlocked {s : Threads} (hs : s.Bounded) : ¬ s.Deadlocked := by
  rintro ⟨⟨spawn, hruntime, htasks⟩, r, hworker, hresults⟩
  have hstuck : s.behind = some s.tasks.length := by
    have hslots : resultSlots - s.results.length = 0 := Nat.sub_eq_zero_of_le hresults
    simp only [behind, hworker, hslots, Worker.tasks, List.singleton_append]
    exact behind_zero_cons rfl
  have hfits := hs.fits _ hstuck
  simp only [left, hruntime] at hfits
  omega

/-- A single request under way leaves room for any turn. -/
theorem roomy_of_one {s : Threads}
    (h : s.results.length + (s.worker.tasks ++ s.tasks).countP Task.isRequest ≤ resultSlots) (e : Event) :
    s.Roomy e := by
  have hnone : s.behind = none := behind_eq_none_iff.mpr (by omega)
  cases e with
  | poll turn =>
      intro m hm
      rw [hnone] at hm
      cases hm
  | _ => trivial

/-! ### A task that finds no room -/

/-- A condition on what the runtime polls, and on nothing else. -/
def Polls (P : Threads → Turn → Prop) (s : Threads) : Event → Prop
  | .poll turn => P s turn
  | _ => True

variable {P : Threads → Turn → Prop}

theorem reach_step {s s' : Threads} (e : Event) (he : Polls P s e) (h : s.step e = .ok s') :
    Reach Threads.step (Polls P) s s' :=
  .next e .start he h

/-- The steps the blocking thread has left before it waits. -/
def work (s : Threads) : Nat :=
  3 * s.tasks.length +
    match s.worker with
    | .waiting => 0
    | .running _ => 2
    | .sending _ => 1

/-- The state of the runtime thread, and what it can read. -/
def SameTurn (s s' : Threads) : Prop :=
  s'.runtime = s.runtime ∧ s'.register = s.register ∧ s'.disconnect = s.disconnect

/-- Left alone, the blocking thread gets stuck where it is bound to. -/
theorem worker_sticks {s : Threads} {m : Nat} (hbehind : s.behind = some m) :
    ∃ s', Reach Threads.step (Polls P) s s' ∧ SameTurn s s' ∧ s'.WorkerBlocked ∧ s'.tasks.length = m := by
  induction hn : s.work using Nat.strongRecOn generalizing s with
  | ind n ih =>
      subst hn
      -- one step of the blocking thread, then the rest of its steps
      have next : ∀ e s₁, Polls P s e → s.step e = .ok s₁ → s₁.behind = s.behind → SameTurn s s₁ → s₁.work < s.work →
          ∃ s', Reach Threads.step (Polls P) s s' ∧ SameTurn s s' ∧ s'.WorkerBlocked ∧ s'.tasks.length = m := by
        intro e s₁ he hstep hsame hturn hlt
        obtain ⟨s', hreach, hturn', hblocked, hlen⟩ := ih s₁.work hlt (hsame.trans hbehind) rfl
        exact ⟨s', (reach_step e he hstep).trans hreach,
          ⟨hturn'.1.trans hturn.1, hturn'.2.1.trans hturn.2.1, hturn'.2.2.trans hturn.2.2⟩, hblocked, hlen⟩
      cases hworker : s.worker with
      | waiting =>
          cases htasks : s.tasks with
          | nil =>
              simp only [behind, hworker, htasks, Worker.tasks, List.append_nil, behind_nil] at hbehind
              cases hbehind
          | cons task tasks =>
              refine next .recvTask _ trivial ?_ (behind_recvTask hworker htasks) ⟨rfl, rfl, rfl⟩ ?_
              · simp only [Threads.step, hworker, stepWorker, htasks]
              · simp only [work, hworker, htasks, List.length_cons]
                omega
      | running task =>
          cases task with
          | request r =>
              refine next .called _ trivial ?_ (behind_called hworker) ⟨rfl, rfl, rfl⟩ ?_
              · simp only [Threads.step, hworker, stepWorker]
              · simp only [work, hworker]
                omega
          | urb =>
              refine next .called _ trivial ?_ (behind_done hworker) ⟨rfl, rfl, rfl⟩ ?_
              · simp only [Threads.step, hworker, stepWorker]
              · simp only [work, hworker]
                omega
      | sending r =>
          by_cases hroom : s.results.length < resultSlots
          · refine next .sendResult _ trivial ?_ (behind_sendResult hworker hroom) ⟨rfl, rfl, rfl⟩ ?_
            · simp only [Threads.step, hworker, stepWorker, if_pos hroom]
            · simp only [work, hworker]
              omega
          · have hslots : resultSlots - s.results.length = 0 := Nat.sub_eq_zero_of_le (Nat.le_of_not_lt hroom)
            simp only [behind, hworker, hslots, Worker.tasks, List.singleton_append] at hbehind
            rw [behind_zero_cons rfl] at hbehind
            exact ⟨s, .start, ⟨rfl, rfl, rfl⟩, ⟨r, hworker, Nat.le_of_not_lt hroom⟩, Option.some.inj hbehind⟩

/-- A polled task with a closure left to spawn goes on to spawn it. -/
theorem turn_spawns {s : Threads} {turn : Turn} (hruntime : s.runtime = .running turn)
    (hload : 0 < s.load turn) :
    ∃ e s' spawn, Polls P s e ∧ s.step e = .ok s' ∧ s'.runtime = .spawning spawn ∧
      s'.load spawn.turn + 1 = s.load turn ∧ s'.worker = s.worker ∧ s'.tasks = s.tasks ∧
      s'.results = s.results := by
  cases turn with
  | demux =>
      have hfull : ∃ r, s.has r = true := by
        by_contra hnone
        have hregister : s.register = false := Bool.eq_false_iff.mpr fun h => hnone ⟨.register, h⟩
        have hdisconnect : s.disconnect = false := Bool.eq_false_iff.mpr fun h => hnone ⟨.disconnect, h⟩
        simp only [load, hregister, hdisconnect, Bool.toNat_false] at hload
        omega
      obtain ⟨r, hr⟩ := hfull
      refine ⟨.takeRequest r, { s.put false r with runtime := .spawning (.request r) }, .request r, trivial, ?_,
        rfl, load_put_false hr, ?_⟩
      · simp only [Threads.step, stepRuntime, hruntime, stepTurn, if_pos hr]
      · cases r <;> exact ⟨rfl, rfl, rfl⟩
  | receive replies =>
      cases replies with
      | zero => exact absurd hload (Nat.lt_irrefl 0)
      | succ replies =>
          refine ⟨.reply, { s with runtime := .spawning (.giveback replies) }, .giveback replies, trivial, ?_,
            rfl, rfl, rfl, rfl, rfl⟩
          simp only [Threads.step, stepRuntime, hruntime, stepTurn]

/-- Beside a blocked thread a polled task fills the queue, and waits for it if it has more to spawn. -/
theorem turn_fills {s : Threads} {turn : Turn} (hruntime : s.runtime = .running turn)
    (hworker : s.WorkerBlocked) (hload : taskSlots < s.tasks.length + s.load turn)
    (hle : s.tasks.length ≤ taskSlots) : ∃ d, Reach Threads.step (Polls P) s d ∧ d.Deadlocked := by
  induction hn : s.load turn generalizing s turn with
  | zero => omega
  | succ n ih =>
      obtain ⟨e, s₁, spawn, he, hstep, hspawning, hleft, hsame, htasks, hresults⟩ :=
        turn_spawns hruntime (hn ▸ Nat.succ_pos n)
      have hworker₁ : s₁.WorkerBlocked := by
        obtain ⟨r, hsending, hfull⟩ := hworker
        exact ⟨r, hsame.trans hsending, by rw [hresults]; exact hfull⟩
      by_cases hroom : s₁.tasks.length < taskSlots
      · have hspawned : s₁.step .spawned =
            .ok { s₁ with runtime := .running spawn.turn, tasks := s₁.tasks ++ [spawn.task] } := by
          simp only [Threads.step, stepRuntime, hspawning, if_pos hroom]
        have hlen : (s₁.tasks ++ [spawn.task]).length = s.tasks.length + 1 := by
          rw [List.length_append, htasks, List.length_singleton]
        have hload₁ : s₁.load spawn.turn = n := by omega
        have hmore : taskSlots < (s₁.tasks ++ [spawn.task]).length + s₁.load spawn.turn := by
          rw [hlen]
          omega
        have hfull : (s₁.tasks ++ [spawn.task]).length ≤ taskSlots := by
          rw [hlen, ← htasks]
          exact hroom
        obtain ⟨d, hreach, hdead⟩ := ih
          (s := { s₁ with runtime := .running spawn.turn, tasks := s₁.tasks ++ [spawn.task] })
          rfl hworker₁ hmore hfull hload₁
        exact ⟨d, (reach_step e he hstep).trans ((reach_step .spawned trivial hspawned).trans hreach), hdead⟩
      · exact ⟨s₁, reach_step e he hstep, ⟨spawn, hspawning, Nat.le_of_not_lt hroom⟩, hworker₁⟩

/-- A task that finds no room when it is polled can deadlock the threads. -/
theorem deadlocks_of_not_roomy {s : Threads} {turn : Turn} (hs : s.Sized) (hruntime : s.runtime = .free)
    (hpoll : P s turn) (hroomy : ¬ s.Roomy (.poll turn)) :
    ∃ d, Reach Threads.step (Polls P) s d ∧ d.Deadlocked := by
  obtain ⟨m, hm, hgt⟩ : ∃ m ∈ s.behind, taskSlots < m + s.load turn := by
    by_contra hnone
    exact hroomy fun m hm => Nat.le_of_not_lt fun hgt => hnone ⟨m, hm, hgt⟩
  have hstep : s.step (.poll turn) = .ok { s with runtime := .running turn } := by
    simp only [Threads.step, stepRuntime, hruntime]
  have hbehind : behind { s with runtime := .running turn } = some m := hm
  obtain ⟨s₁, hreach, ⟨hturn, hregister, hdisconnect⟩, hworker, htasks⟩ := worker_sticks (P := P) hbehind
  have hload : s₁.load turn = s.load turn := by
    simp only [load, hregister, hdisconnect]
  have hmore : taskSlots < s₁.tasks.length + s₁.load turn := by
    rw [htasks, hload]
    exact hgt
  have hle : s₁.tasks.length ≤ taskSlots := by
    rw [htasks]
    exact Nat.le_trans (s.behind_le hm) hs.tasks_le
  obtain ⟨d, hfill, hdead⟩ := turn_fills hturn hworker hmore hle
  exact ⟨d, (reach_step (.poll turn) hpoll hstep).trans (hreach.trans hfill), hdead⟩

/-- **Deadlock between the two threads.** Whatever decides which tasks the runtime polls, no run deadlocks
exactly when every task that is polled finds room. -/
theorem deadlock_free_iff (P : Threads → Turn → Prop) :
    (∀ s, Reach Threads.step (Polls P) start s → ¬ s.Deadlocked) ↔
      ∀ s turn, Reach Threads.step (Polls P) start s → s.runtime = .free → P s turn →
        s.Roomy (.poll turn) := by
  constructor
  · intro hfree s turn hreach hruntime hpoll
    by_contra hroomy
    have hsized := hreach.inv sized_start fun _ _ _ hs _ hstep => hs.step hstep
    obtain ⟨d, hdead, hblocked⟩ := deadlocks_of_not_roomy hsized hruntime hpoll hroomy
    exact hfree d (hreach.trans hdead) hblocked
  · intro hroomy s hreach
    have hbounded : Reach Threads.step (Polls P) start s ∧ s.Bounded := by
      refine hreach.inv (I := fun s => Reach Threads.step (Polls P) start s ∧ s.Bounded)
        ⟨.start, bounded_start⟩ fun s e s' hs he hstep => ?_
      refine ⟨.next e hs.1 he hstep, hs.2.step ?_ hstep⟩
      cases e with
      | poll turn =>
          cases step_cases hstep with
          | poll turn hruntime => exact hroomy s turn hs.1 hruntime he
      | _ => trivial
    exact hbounded.2.not_deadlocked

/-- A register and a disconnect are under way when a session's receive loop finds 65 replies in its
buffer. -/
theorem burst_deadlocks : ¬ ∀ s, Reach Threads.step (fun _ _ => True) start s → ¬ s.Deadlocked := by
  intro hfree
  have hrun : run Threads.step start
      [.send .register, .send .disconnect, .poll .demux, .takeRequest .register, .spawned,
        .takeRequest .disconnect, .spawned, .yield] =
      .ok ⟨.free, .waiting, [.request .register, .request .disconnect], [], false, false⟩ := by decide
  have hreach : Reach Threads.step (Polls fun _ _ => True) start _ :=
    Meets.reach (meets_of_forall fun e _ _ => by cases e <;> trivial) hrun
  have hsized := hreach.inv sized_start fun _ _ _ hs _ hstep => hs.step hstep
  have hcrowded : ¬ Roomy ⟨.free, .waiting, [.request .register, .request .disconnect], [], false, false⟩
      (.poll (.receive 65)) := by decide
  obtain ⟨d, hdead, hblocked⟩ := deadlocks_of_not_roomy (P := fun _ _ => True) hsized rfl trivial hcrowded
  exact hfree d ((hreach.trans hdead).mono fun _ _ _ => trivial) hblocked

end Threads

end Qusb.Blocking

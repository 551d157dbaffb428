import Mathlib.Logic.Function.Basic
import Mathlib.Order.Basic
import Qusb.Session.Server

/-! One token for the whole server.

A session serves its requests one after the other, and hands each of them the server's own token. `lend` cancels
the token once its two loops have ended, and `borrow` once its receiving loop has: the end of one request is
a shutdown for all. A session that waits for a stream meanwhile does not see it, and serves one request more. -/

open Runs

namespace Qusb.Server

inductive Request where
  | listDevices
  | borrowDevice
  | lendDevice
  deriving DecidableEq, Repr

/-- Where `open_session` is: in the handshake; at the condition of its loop; waiting for a stream and its request;
sending the device list; in `lend` before and after its loops have ended; in `borrow` before it has a port, while
its loops run, and after its receiving loop has ended. -/
inductive SessionPhase where
  | connecting
  | checking
  | accepting
  | listing
  | lending
  | lent
  | registering
  | borrowing
  | borrowed
  deriving DecidableEq, Repr

/-- The server with its sessions; `phase` is that of a running session. -/
structure Daemon where
  serve : ServeLoop
  phase : Nat → SessionPhase

inductive SessionEvent where
  | connected
  /-- The race with the handshake is won by the token. -/
  | cancelled
  /-- `close_reason` is looked at, and the token. -/
  | checked (closed : Bool)
  | accepted (request : Request)
  /-- `accept_stream` returns an error. -/
  | refused
  | listed (ok : Bool)
  /-- Both loops of `lend`, or the receiving loop of `borrow`, have ended. -/
  | loopsEnded
  | registered (ok : Bool)
  | returned (ok : Bool)
  /-- The session panics: the handshake has failed, the connection is closed while it waits for a stream, or an
  unexpected value is met. -/
  | panicked
  deriving DecidableEq, Repr

/-- Neither the end of a request's loops nor a new request. -/
def SessionEvent.Silent : SessionEvent → Prop
  | .loopsEnded | .accepted _ => False
  | _ => True

inductive DaemonEvent where
  | serve (e : ServeEvent)
  | session (id : Nat) (e : SessionEvent)
  deriving DecidableEq, Repr

namespace Daemon

def start : Daemon := ⟨.start, fun _ => .connecting⟩

def moveTo (s : Daemon) (id : Nat) (phase : SessionPhase) : Daemon :=
  { s with phase := Function.update s.phase id phase }

def cancel (s : Daemon) : Daemon := { s with serve := { s.serve with cancelled := true } }

/-- `open_session` returns. -/
def finish (s : Daemon) (id : Nat) (ok : Bool) : Except Disabled Daemon := do
  let serve ← s.serve.step (.returned id ok)
  return { s with serve := serve }

/-- The task is gone, and its sender with it. -/
def panic (s : Daemon) (id : Nat) : Daemon :=
  { s with serve := { s.serve with running := s.serve.running.erase id } }

/-- A finished request leads back to the loop; an error ends the session. -/
def operated (s : Daemon) (id : Nat) (ok : Bool) : Except Disabled Daemon :=
  if ok then .ok (s.moveTo id .checking) else s.finish id false

def sessionStep (s : Daemon) (id : Nat) (e : SessionEvent) : Except Disabled Daemon :=
  match s.phase id, e with
  | .connecting, .connected => .ok (s.moveTo id .checking)
  | .connecting, .cancelled => if s.serve.cancelled then s.finish id true else .error .disabled
  | .checking, .checked closed =>
      if closed || s.serve.cancelled then s.finish id true else .ok (s.moveTo id .accepting)
  | .accepting, .accepted .listDevices => .ok (s.moveTo id .listing)
  | .accepting, .accepted .borrowDevice => .ok (s.moveTo id .lending)
  | .accepting, .accepted .lendDevice => .ok (s.moveTo id .registering)
  | .accepting, .refused => s.finish id false
  | .listing, .listed ok => s.operated id ok
  | .lending, .loopsEnded => .ok (s.cancel.moveTo id .lent)
  | .lent, .returned ok => s.operated id ok
  | .registering, .registered ok => if ok then .ok (s.moveTo id .borrowing) else s.finish id false
  | .borrowing, .loopsEnded => .ok (s.cancel.moveTo id .borrowed)
  | .borrowed, .returned ok => s.operated id ok
  | _, .panicked => .ok (s.panic id)
  | _, _ => .error .disabled

def step (s : Daemon) : DaemonEvent → Except Disabled Daemon
  | .serve (.returned _ _) => .error .disabled
  | .serve .incoming => do
      let serve ← s.serve.step .incoming
      return ⟨serve, Function.update s.phase s.serve.nextId .connecting⟩
  | .serve e => do
      let serve ← s.serve.step e
      return { s with serve := serve }
  | .session id e => if id ∈ s.serve.running then s.sessionStep id e else .error .disabled

/-- The sessions that wait for a stream. -/
def waiting (s : Daemon) : Nat := s.serve.running.countP (s.phase · = .accepting)

/-- What has happened: whether `shutdown` was called, how many `lend` and `borrow` have seen the end of their
loops, and how many requests were accepted. -/
structure Record where
  shutdown : Bool
  ended : Nat
  accepted : Nat
  deriving DecidableEq, Repr

def record (_ : Daemon) (e : DaemonEvent) (_ : Daemon) (r : Record) : Record :=
  match e with
  | .serve .cancel => { r with shutdown := true }
  | .session _ .loopsEnded => { r with ended := r.ended + 1 }
  | .session _ (.accepted _) => { r with accepted := r.accepted + 1 }
  | _ => r

/-! ### What a session does -/

inductive SessionTurn (s : Daemon) (id : Nat) : SessionEvent → Daemon → Prop
  | accept (request : Request) (phase : SessionPhase) (haccepting : s.phase id = .accepting)
      (hphase : phase ≠ .accepting) : SessionTurn s id (.accepted request) (s.moveTo id phase)
  | await (closed : Bool) (hrunning : s.serve.cancelled = false) :
      SessionTurn s id (.checked closed) (s.moveTo id .accepting)
  | move {e : SessionEvent} (phase : SessionPhase) (hsilent : e.Silent) (hphase : phase ≠ .accepting) :
      SessionTurn s id e (s.moveTo id phase)
  | ended (phase : SessionPhase) (hphase : phase ≠ .accepting) :
      SessionTurn s id .loopsEnded (s.cancel.moveTo id phase)
  | finish {e : SessionEvent} (ok : Bool) (hsilent : e.Silent) (hmem : id ∈ s.serve.running) :
      SessionTurn s id e { s with serve := { s.serve with
        running := s.serve.running.erase id, sending := s.serve.sending ++ [⟨id, ok⟩] } }
  | panic : SessionTurn s id .panicked (s.panic id)

variable {s s' : Daemon} {id : Nat} {e : SessionEvent}

theorem finish_turn {ok : Bool} (hsilent : e.Silent) (hok : s.finish id ok = .ok s') : SessionTurn s id e s' := by
  unfold finish at hok
  cases hstep : s.serve.step (.returned id ok) with
  | error f =>
      rw [hstep] at hok
      cases hok
  | ok serve =>
      rw [hstep] at hok
      cases hok
      obtain ⟨hmem, rfl⟩ := ServeLoop.guard_eq_ok_iff.mp hstep
      exact .finish ok hsilent (of_decide_eq_true hmem)

theorem operated_turn {ok : Bool} (hsilent : e.Silent) (hok : s.operated id ok = .ok s') : SessionTurn s id e s' := by
  unfold operated at hok
  split at hok
  · cases hok
    exact .move _ hsilent nofun
  · exact finish_turn hsilent hok

theorem turn_of_sessionStep (hok : s.sessionStep id e = .ok s') : SessionTurn s id e s' := by
  unfold sessionStep at hok
  split at hok
  · cases hok
    exact .move _ trivial nofun
  · split at hok
    · exact finish_turn trivial hok
    · cases hok
  · next closed hphase =>
      split at hok
      · exact finish_turn trivial hok
      · next hgo =>
          cases hok
          rw [Bool.or_eq_true, not_or] at hgo
          exact .await closed (Bool.eq_false_iff.mpr hgo.2)
  · next haccepting =>
      cases hok
      exact .accept _ _ haccepting nofun
  · next haccepting =>
      cases hok
      exact .accept _ _ haccepting nofun
  · next haccepting =>
      cases hok
      exact .accept _ _ haccepting nofun
  · exact finish_turn trivial hok
  · exact operated_turn trivial hok
  · cases hok
    exact .ended _ nofun
  · exact operated_turn trivial hok
  · split at hok
    · cases hok
      exact .move _ trivial nofun
    · exact finish_turn trivial hok
  · cases hok
    exact .ended _ nofun
  · exact operated_turn trivial hok
  · cases hok
    exact .panic
  · cases hok

/-! ### What the loop of the server does -/

theorem bind_ok {α β : Type} {x : Except Disabled α} {f : α → β} {b : β}
    (h : (do let a ← x; return f a : Except Disabled β) = .ok b) : ∃ a, x = .ok a ∧ f a = b := by
  cases x with
  | error d => cases h
  | ok a => exact ⟨a, rfl, Except.ok.inj h⟩

theorem serve_of_step {e : ServeEvent} (hok : s.step (.serve e) = .ok s') :
    s.serve.step e = .ok s'.serve ∧ (∀ id ok, e ≠ .returned id ok) ∧ (e ≠ .incoming → s'.phase = s.phase) := by
  cases e with
  | returned id ok => cases hok
  | incoming =>
      obtain ⟨serve, hserve, rfl⟩ := bind_ok hok
      exact ⟨hserve, nofun, fun hne => absurd rfl hne⟩
  | cancel | stopped | closed | sent | taken | eventsEnded | tasksEnded =>
      obtain ⟨serve, hserve, rfl⟩ := bind_ok hok
      exact ⟨hserve, nofun, fun _ => rfl⟩

/-- The loop itself cancels the token by a shutdown only; once it is cancelled, no session is spawned. -/
theorem serve_turn {l l' : ServeLoop} {e : ServeEvent} (hserving : l.phase = .serving) (hok : l.step e = .ok l')
    (he : ∀ id ok, e ≠ .returned id ok) :
    (l'.cancelled = true ↔ e = .cancel ∨ l.cancelled = true) ∧
      (l.cancelled = true → e ≠ .incoming ∧ l'.nextId = l.nextId ∧ l'.running = l.running) := by
  cases e with
  | returned id ok => exact absurd rfl (he id ok)
  | cancel =>
      cases hok
      exact ⟨by simp, fun _ => ⟨nofun, rfl, rfl⟩⟩
  | incoming =>
      obtain ⟨hopen, rfl⟩ := ServeLoop.guard_eq_ok_iff.mp hok
      refine ⟨by simp, fun hcancelled => ?_⟩
      rw [hcancelled] at hopen
      simp at hopen
  | eventsEnded =>
      obtain ⟨hends, -⟩ := ServeLoop.guard_eq_ok_iff.mp hok
      rw [ServeLoop.not_noTasks hserving, Bool.and_false] at hends
      cases hends
  | stopped | closed | sent | taken | tasksEnded =>
      obtain ⟨-, rfl⟩ := ServeLoop.guard_eq_ok_iff.mp hok
      exact ⟨by simp, fun _ => ⟨nofun, rfl, rfl⟩⟩

/-! ### Who cancels the token -/

abbrev Recorded := Daemon × Record

def recordedStep : Recorded → DaemonEvent → Except Disabled Recorded := track step record

def recordedStart : Recorded := (start, ⟨false, 0, 0⟩)

/-- The first loop still runs, and the token is cancelled by a shutdown or by the end of a request. -/
def Attributed (x : Recorded) : Prop :=
  x.1.serve.phase = .serving ∧ (x.1.serve.cancelled = true ↔ x.2.shutdown = true ∨ 0 < x.2.ended)

theorem attributed_step {x x' : Recorded} {e : DaemonEvent} (hx : Attributed x) (hok : recordedStep x e = .ok x') :
    Attributed x' := by
  obtain ⟨s, r⟩ := x
  obtain ⟨s', r'⟩ := x'
  obtain ⟨hstep, hr⟩ := track_eq_ok.mp hok
  obtain ⟨hserving, hiff⟩ := hx
  dsimp only at hstep hr hserving hiff
  subst hr
  cases e with
  | session id e =>
      simp only [step] at hstep
      split at hstep
      · cases turn_of_sessionStep hstep with
        | accept request phase => exact ⟨hserving, hiff⟩
        | await closed => exact ⟨hserving, hiff⟩
        | ended phase => exact ⟨hserving, by simp [record, moveTo, cancel]⟩
        | panic => exact ⟨hserving, hiff⟩
        | move phase hsilent | finish ok hsilent =>
            cases e with
            | loopsEnded => exact hsilent.elim
            | accepted request => exact hsilent.elim
            | _ => exact ⟨hserving, hiff⟩
      · cases hstep
  | serve e =>
      obtain ⟨hserve, hother, -⟩ := serve_of_step hstep
      refine ⟨ServeLoop.serving_step hserving hserve, (serve_turn hserving hserve hother).1.trans ?_⟩
      show _ ↔ (record s (.serve e) s' r).shutdown = true ∨ 0 < (record s (.serve e) s' r).ended
      cases e with
      | cancel => simp [record]
      | _ => simpa [record] using hiff

/-- **The token of the server** is cancelled exactly if `shutdown` was called, or some request to borrow or to lend
has seen the end of its loops. -/
theorem cancelled_iff {x : Recorded} (hreach : Reach recordedStep (fun _ _ => True) recordedStart x) :
    x.1.serve.cancelled = true ↔ x.2.shutdown = true ∨ 0 < x.2.ended := by
  have hstart : Attributed recordedStart := ⟨rfl, by decide⟩
  exact (hreach.inv hstart fun _ _ _ hx _ => attributed_step hx).2

/-! ### What is still accepted -/

theorem moveTo_phase (s : Daemon) (id : Nat) (phase : SessionPhase) (other : Nat) :
    (s.moveTo id phase).phase other = if other = id then phase else s.phase other :=
  Function.update_apply s.phase id phase other

theorem waiting_moveTo_le {phase : SessionPhase} (hphase : phase ≠ .accepting) :
    (s.moveTo id phase).waiting ≤ s.waiting := by
  refine List.countP_mono_left fun other _ hother => ?_
  have hother := of_decide_eq_true hother
  rw [moveTo_phase] at hother
  split at hother
  · exact absurd hother hphase
  · exact decide_eq_true hother

/-- A session that has got its stream does not wait. -/
theorem waiting_accept {phase : SessionPhase} (hmem : id ∈ s.serve.running) (haccepting : s.phase id = .accepting)
    (hphase : phase ≠ .accepting) : (s.moveTo id phase).waiting + 1 ≤ s.waiting := by
  obtain ⟨front, rest, hrunning⟩ := List.append_of_mem hmem
  have hpart : ∀ l : List Nat, l.countP ((s.moveTo id phase).phase · = .accepting) ≤
      l.countP (s.phase · = .accepting) := by
    intro l
    refine List.countP_mono_left fun other _ hother => ?_
    have hother := of_decide_eq_true hother
    rw [moveTo_phase] at hother
    split at hother
    · exact absurd hother hphase
    · exact decide_eq_true hother
  have hself : (s.moveTo id phase).phase id ≠ .accepting := by
    rw [moveTo_phase, if_pos rfl]
    exact hphase
  have hfront := hpart front
  have hrest := hpart rest
  show (s.serve.running.countP _) + 1 ≤ s.serve.running.countP _
  rw [hrunning, List.countP_append, List.countP_append, List.countP_cons_of_neg (by simpa using hself),
    List.countP_cons_of_pos (by simpa using haccepting)]
  omega

/-- Once the token is cancelled, it stays so, no session is spawned, and a request is accepted only by a session
that gives up waiting for it. -/
theorem accepted_step {x x' : Recorded} {e : DaemonEvent} (hx : Attributed x) (hcancelled : x.1.serve.cancelled = true)
    (hok : recordedStep x e = .ok x') :
    x'.1.serve.cancelled = true ∧ x'.1.serve.nextId = x.1.serve.nextId ∧
      x'.2.accepted + x'.1.waiting ≤ x.2.accepted + x.1.waiting := by
  obtain ⟨s, r⟩ := x
  obtain ⟨s', r'⟩ := x'
  obtain ⟨hstep, hr⟩ := track_eq_ok.mp hok
  dsimp only at hstep hr hcancelled
  subst hr
  cases e with
  | session id e =>
      simp only [step] at hstep
      split at hstep
      · next hmem =>
          cases turn_of_sessionStep hstep with
          | accept request phase haccepting hphase =>
              refine ⟨hcancelled, rfl, ?_⟩
              have hless := waiting_accept hmem haccepting hphase
              show r.accepted + 1 + (s.moveTo id phase).waiting ≤ r.accepted + s.waiting
              omega
          | await closed hrunning => exact absurd hcancelled (Bool.eq_false_iff.mp hrunning)
          | ended phase hphase =>
              refine ⟨rfl, rfl, Nat.add_le_add_left ?_ _⟩
              exact waiting_moveTo_le (s := s.cancel) hphase
          | panic =>
              refine ⟨hcancelled, rfl, Nat.add_le_add_left ?_ _⟩
              exact List.erase_sublist.countP_le
          | move phase hsilent hphase =>
              have hsame : (record s (.session id e) (s.moveTo id phase) r).accepted = r.accepted := by
                cases e <;> first | exact hsilent.elim | rfl
              refine ⟨hcancelled, rfl, ?_⟩
              rw [hsame]
              exact Nat.add_le_add_left (waiting_moveTo_le hphase) _
          | finish ok hsilent =>
              have hsame : ∀ s', (record s (.session id e) s' r).accepted = r.accepted := by
                intro s'
                cases e <;> first | exact hsilent.elim | rfl
              refine ⟨hcancelled, rfl, ?_⟩
              rw [hsame]
              exact Nat.add_le_add_left List.erase_sublist.countP_le _
      · cases hstep
  | serve e =>
      obtain ⟨hserve, hother, hphase⟩ := serve_of_step hstep
      obtain ⟨hcancels, hidle⟩ := serve_turn hx.1 hserve hother
      obtain ⟨hincoming, hnext, hrunning⟩ := hidle hcancelled
      refine ⟨hcancels.mpr (.inr hcancelled), hnext, ?_⟩
      have hwaiting : s'.waiting = s.waiting := by
        unfold waiting
        rw [hrunning, hphase hincoming]
      show (record s (.serve e) s' r).accepted + s'.waiting ≤ r.accepted + s.waiting
      rw [hwaiting]
      cases e <;> exact Nat.le_refl _

/-- **The end of one request.** Once a request to borrow or to lend has seen the end of its loops, or the server is
shut down, no connection becomes a session any more, and the requests that are accepted from then on are at most as
many as the sessions that were waiting for one. -/
theorem accepted_after_end {x x' : Recorded} (hreach : Reach recordedStep (fun _ _ => True) recordedStart x)
    (hended : x.2.shutdown = true ∨ 0 < x.2.ended) (hlater : Reach recordedStep (fun _ _ => True) x x') :
    x'.1.serve.nextId = x.1.serve.nextId ∧ x'.2.accepted ≤ x.2.accepted + x.1.waiting := by
  have hstart : Attributed recordedStart := ⟨rfl, by decide⟩
  have hx : Attributed x := hreach.inv hstart fun _ _ _ hx _ => attributed_step hx
  have hkept := hlater.inv
    (I := fun y => Attributed y ∧ y.1.serve.cancelled = true ∧ y.1.serve.nextId = x.1.serve.nextId ∧
      y.2.accepted + y.1.waiting ≤ x.2.accepted + x.1.waiting)
    ⟨hx, hx.2.mpr hended, rfl, Nat.le_refl _⟩ fun y e y' hy _ hok => by
      obtain ⟨hcancelled, hnext, hcount⟩ := accepted_step hy.1 hy.2.1 hok
      exact ⟨attributed_step hy.1 hok, hcancelled, hnext.trans hy.2.2.1, Nat.le_trans hcount hy.2.2.2⟩
  exact ⟨hkept.2.2.1, Nat.le_trans (Nat.le_add_right _ _) hkept.2.2.2⟩

/-- Two clients connect, and both sessions wait for a stream; the first lends a device, which is soon gone. -/
def unplugged : List DaemonEvent :=
  [.serve .incoming, .serve .incoming, .session 1 .connected, .session 2 .connected, .session 1 (.checked false),
    .session 2 (.checked false), .session 1 (.accepted .lendDevice), .session 1 (.registered true),
    .session 1 .loopsEnded]

theorem unplugged_accepts : ∃ x x', run recordedStep recordedStart unplugged = .ok x ∧ x.2 = ⟨false, 1, 1⟩ ∧
    run recordedStep x [.session 2 (.accepted .listDevices), .session 2 (.listed true), .session 2 (.checked false)] =
      .ok x' ∧ x'.2.accepted = 2 ∧ x'.2.accepted ≤ x.2.accepted + x.1.waiting :=
  ⟨_, _, rfl, rfl, rfl, rfl, (accepted_after_end (reach_of_run unplugged rfl)
    (.inr (by decide)) (reach_of_run [.session 2 (.accepted .listDevices), .session 2 (.listed true),
      .session 2 (.checked false)] rfl)).2⟩

theorem unplugged_cancelled : ∃ x, run recordedStep recordedStart unplugged = .ok x ∧ x.2.shutdown = false ∧
    x.1.serve.cancelled = true :=
  ⟨_, rfl, rfl, (cancelled_iff (reach_of_run unplugged rfl)).mpr (.inr (by decide))⟩

end Daemon
end Qusb.Server

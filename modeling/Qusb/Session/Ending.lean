import Mathlib.Algebra.BigOperators.Group.List.Basic
import Qusb.Session.Teardown

/-! Every end is the end of the whole session, but one.

The end of a loop closes or drops its direction of the stream, which ends the loops of the other host, whose
ends do the same. The invariant says where each operation is by what its loops still hold. The one exception
is a borrower whose receiving loop has failed: nothing tells its sending loop or the lender, and `borrow`
waits for the drain. -/

open Runs

namespace Qusb.Teardown

open Lend Proto

/-! ### Where the operations are -/

def Borrowing.Sound (b : Borrowing) : Prop :=
  match b.phase with
  | .registering => b.send = .held ∧ b.recv = .held
  | .running => b.send.isSpawned = true ∧ b.recv.isSpawned = true
  | .stopping recv => b.cancelled = true ∧ b.send.isSpawned = true ∧ b.recv = .done recv
  | .disconnecting recv send => b.cancelled = true ∧ b.recv = .done recv ∧ b.send = .done send
  | .returned _ => b.send.isOver = true ∧ b.recv.isOver = true

def LendPhase.Sound (l : Lending) : LendPhase → Prop
  | .running => True
  | .stopping _ => l.cancelled = true ∧ l.send.isOver = true ∧ l.recv.isOver = true
  | .returned _ => l.send.isOver = true ∧ l.recv.isOver = true ∧ l.libusb = false

structure Lending.Sound (l : Lending) : Prop where
  send : l.send.isSpawned = true
  recv : l.recv.isSpawned = true
  delivering : l.delivering ≠ none → l.recv = .main
  queued : l.queued ≠ [] → l.send.isOpen = true
  sendError : ∀ e, l.send.result = some (.error e) → ∀ e', e ≠ .recv e'
  recvError : ∀ e, l.recv.result = some (.error e) → ∃ e', e = .recv e'
  phase : l.phase.Sound l

/-- What the lender's loops can return never meets the arms that are said to be unreachable. -/
theorem lendResult_ok {recv send : Except LendError Unit} (hrecv : ∀ e, recv = .error e → ∃ e', e = .recv e')
    (hsend : ∀ e, send = .error e → ∀ e', e ≠ .recv e') : ∃ result, lendResult recv send = .ok result := by
  cases recv with
  | ok u =>
      cases send with
      | ok u' => exact ⟨_, rfl⟩
      | error e => exact ⟨_, rfl⟩
  | error e =>
      obtain ⟨e', rfl⟩ := hrecv e rfl
      cases send with
      | ok u => exact ⟨_, rfl⟩
      | error e =>
          cases e with
          | usb e => exact ⟨_, rfl⟩
          | recv e => exact absurd rfl (hsend _ rfl e)
          | send e => cases e' <;> exact ⟨_, rfl⟩

namespace Session

structure Sound (s : Session) : Prop where
  borrower : s.borrower.Sound
  lender : s.lender.Sound
  toLender : s.toLender.finished = !s.borrower.send.isOpen ∧ s.toLender.dropped = !s.lender.recv.isOpen
  toBorrower : s.toBorrower.finished = !s.lender.send.isOpen ∧ s.toBorrower.dropped = !s.borrower.recv.isOpen

/-- Something has ended that ends the session: the connection, a token, a direction of the stream, or the
lender's receiving loop. -/
structure Ending (s : Session) : Prop where
  of : s.lost = true ∨ s.borrower.cancelled = true ∨ s.lender.cancelled = true ∨ s.toLender.finished = true ∨
    s.toBorrower.finished = true ∨ s.lender.recv ≠ .main

/-- Both operations have returned. -/
def Finished (s : Session) : Prop :=
  (∃ r, s.borrower.phase = .returned r) ∧ ∃ r, s.lender.phase = .returned r

/-- What a step of the program does. -/
inductive Turn (s : Session) : Session → Prop
  | registered (hphase : s.borrower.phase = .registering) :
      Turn s { s with borrower := { s.borrower with phase := .running, send := .main 0, recv := .main } }
  | refused (e : IoError) (hphase : s.borrower.phase = .registering) :
      Turn s { s with
        borrower := { s.borrower with phase := .returned (.error (.network e)), send := .dropped, recv := .dropped }
        toLender := { s.toLender with finished := true }
        toBorrower := { s.toBorrower with dropped := true } }
  | borrowSend {t : SendTask BorrowError} {p : Pipe} (m : SendMove)
      (hmove : s.borrower.send.move .send s.borrower.cancelled s.lost s.toLender m = some (t, p)) :
      Turn s { s with borrower := { s.borrower with send := t }, toLender := p }
  | borrowRecv {t : RecvTask BorrowError} {p : Pipe} (m : RecvMove)
      (hmove : s.borrower.recv.move .recv s.borrower.cancelled s.lost s.toBorrower m = some (t, p)) :
      Turn s { s with borrower := { s.borrower with recv := t }, toBorrower := p }
  | recvJoined {recv : Except BorrowError Unit} (hphase : s.borrower.phase = .running)
      (hrecv : s.borrower.recv = .done recv) :
      Turn s { s with borrower := { s.borrower with phase := .stopping recv, cancelled := true } }
  | sendJoined {recv send : Except BorrowError Unit} (hphase : s.borrower.phase = .stopping recv)
      (hsend : s.borrower.send = .done send) :
      Turn s { s with borrower := { s.borrower with phase := .disconnecting recv send } }
  | disconnected {recv send : Except BorrowError Unit} (result : Except IoError Unit)
      (hphase : s.borrower.phase = .disconnecting recv send) :
      Turn s { s with borrower := { s.borrower with phase := .returned (borrowResult recv send result) } }
  | lendSend {t : SendTask LendError} {p : Pipe} (m : SendMove)
      (hmove : s.lender.send.move .send s.lender.cancelled s.lost s.toBorrower m = some (t, p)) :
      Turn s { s with
        lender := { s.lender with send := t, queued := if t.isOpen then s.lender.queued else [] }
        toBorrower := p }
  | lendRecv {t : RecvTask LendError} {p : Pipe} (m : RecvMove) (hidle : s.lender.delivering = none)
      (hmove : s.lender.recv.move .recv s.lender.cancelled s.lost s.toLender m = some (t, p)) :
      Turn s { s with lender := { s.lender with recv := t }, toLender := p }
  | delivered {item : Completed} (hitem : s.lender.delivering = some item) (hopen : s.lender.send.isOpen = true) :
      Turn s { s with lender := { s.lender with delivering := none, queued := s.lender.queued ++ [item] } }
  | undelivered {item : Completed} (hitem : s.lender.delivering = some item) (hclosed : s.lender.send.isOpen = false) :
      Turn s { s with lender := { s.lender with delivering := none } }
  | handled {buffered : Nat} {item : Completed} {front rest : List Completed}
      (hsend : s.lender.send = .main buffered) (hqueued : s.lender.queued = front ++ item :: rest) :
      Turn s (s.handle buffered (front ++ rest) item.reply)
  | eventsEnded {buffered : Nat} (hsend : s.lender.send = .main buffered) (hrecv : s.lender.recv ≠ .main)
      (hqueued : s.lender.queued = []) :
      Turn s { s with
        lender := { s.lender with send := .closing (.ok ()) }
        toBorrower := { s.toBorrower with finished := true } }
  | joined {recv send result : Except LendError Unit} (hphase : s.lender.phase = .running)
      (hrecv : s.lender.recv = .done recv) (hsend : s.lender.send = .done send)
      (hresult : lendResult recv send = .ok result) :
      Turn s { s with lender := { s.lender with phase := .stopping result, cancelled := true } }
  | libusbEnded (hcancelled : s.lender.cancelled = true) (hlibusb : s.lender.libusb = true) :
      Turn s { s with lender := { s.lender with libusb := false } }
  | libusbJoined {result : Except LendError Unit} (hphase : s.lender.phase = .stopping result)
      (hlibusb : s.lender.libusb = false) :
      Turn s { s with lender := { s.lender with phase := .returned (result.mapError .ofLend) } }

variable {s s' : Session}

theorem ensure_eq_ok_iff {c : Prop} [Decidable c] {r : Session} : ensure c r = .ok s' ↔ c ∧ r = s' := by
  unfold ensure
  split
  · next hc => simp [hc]
  · next hc => simp [hc]

theorem turn_of_borrowStep {e : BorrowEvent} (hok : s.borrowStep e = .ok s') : s.Turn s' := by
  cases e with
  | registered result =>
      cases result with
      | ok u =>
          simp only [borrowStep] at hok
          split at hok
          · next hphase =>
              cases hok
              exact .registered hphase
          · cases hok
      | error e =>
          simp only [borrowStep] at hok
          split at hok
          · next hphase =>
              cases hok
              exact .refused e hphase
          · cases hok
  | send m =>
      simp only [borrowStep] at hok
      split at hok
      · next t p hmove =>
          cases hok
          exact .borrowSend m hmove
      · cases hok
  | recv m =>
      simp only [borrowStep] at hok
      split at hok
      · next t p hmove =>
          cases hok
          exact .borrowRecv m hmove
      · cases hok
  | recvJoined =>
      simp only [borrowStep] at hok
      split at hok
      · next recv hphase hrecv =>
          cases hok
          exact .recvJoined hphase hrecv
      · cases hok
  | sendJoined =>
      simp only [borrowStep] at hok
      split at hok
      · next recv send hphase hsend =>
          cases hok
          exact .sendJoined hphase hsend
      · cases hok
  | disconnected result =>
      simp only [borrowStep] at hok
      split at hok
      · next recv send hphase =>
          cases hok
          exact .disconnected result hphase
      · cases hok

theorem turn_of_lendStep {e : LendEvent} (hok : s.lendStep e = .ok s') : s.Turn s' := by
  cases e with
  | send m =>
      simp only [lendStep] at hok
      split at hok
      · next t p hmove =>
          cases hok
          exact .lendSend m hmove
      · cases hok
  | recv m =>
      simp only [lendStep] at hok
      split at hok
      · next t p hidle hmove =>
          cases hok
          exact .lendRecv m hidle hmove
      · cases hok
  | delivered =>
      simp only [lendStep] at hok
      split at hok
      · next item hitem =>
          split at hok
          · next hopen =>
              obtain ⟨-, rfl⟩ := ensure_eq_ok_iff.mp hok
              exact .delivered hitem hopen
          · next hclosed =>
              cases hok
              exact .undelivered hitem (Bool.eq_false_iff.mpr hclosed)
      · cases hok
  | handled kind =>
      simp only [lendStep] at hok
      split at hok
      · next buffered item hsend hfind =>
          cases hok
          obtain ⟨hkind, front, rest, hqueued, hfront⟩ := List.find?_eq_some_iff_append.mp hfind
          have hnone : ∀ c ∈ front, ¬ ((c.kind == kind) = true) := fun c hc => by simpa using hfront c hc
          have herase : (item :: rest).eraseP (·.kind == kind) = rest := List.eraseP_cons_of_pos hkind
          rw [hqueued, List.eraseP_append_right _ hnone, herase]
          exact .handled hsend hqueued
      · cases hok
  | eventsEnded =>
      simp only [lendStep] at hok
      split at hok
      · cases hok
      · next buffered hsend hrecv =>
          obtain ⟨hqueued, rfl⟩ := ensure_eq_ok_iff.mp hok
          exact .eventsEnded hsend hrecv hqueued
      · cases hok
  | joined =>
      simp only [lendStep] at hok
      split at hok
      · next recv send hphase hrecv hsend =>
          cases hresult : lendResult recv send with
          | error f =>
              rw [hresult] at hok
              cases hok
          | ok result =>
              rw [hresult] at hok
              cases hok
              exact .joined hphase hrecv hsend hresult
      · cases hok
  | libusbEnded =>
      obtain ⟨⟨hcancelled, hlibusb⟩, rfl⟩ := ensure_eq_ok_iff.mp hok
      exact .libusbEnded hcancelled hlibusb
  | libusbJoined =>
      simp only [lendStep] at hok
      split at hok
      · next result hphase =>
          obtain ⟨hlibusb, rfl⟩ := ensure_eq_ok_iff.mp hok
          exact .libusbJoined hphase hlibusb
      · cases hok

/-- **A step of the program** is one of these turns. -/
theorem turn_of_step {e : Event} (hinternal : Internal e) (hok : s.step e = .ok s') : s.Turn s' := by
  cases e with
  | env e => exact hinternal.elim
  | borrow e => exact turn_of_borrowStep hok
  | lend e => exact turn_of_lendStep hok

/-! ### What every step keeps -/

theorem sound_start : start.Sound where
  borrower := ⟨rfl, rfl⟩
  lender := {
    send := rfl
    recv := rfl
    delivering := fun h => absurd rfl h
    queued := fun h => absurd rfl h
    sendError := nofun
    recvError := nofun
    phase := trivial }
  toLender := ⟨rfl, rfl⟩
  toBorrower := ⟨rfl, rfl⟩

end Session

/-- While a loop of the borrower can move, `borrow` waits for it. -/
theorem Borrowing.Sound.sendMoves {b : Borrowing} (hb : b.Sound) (hspawned : b.send.isSpawned = true)
    (hover : b.send.isOver = false) {t : SendTask BorrowError} (ht : t.isSpawned = true) :
    { b with send := t }.Sound := by
  obtain ⟨phase, cancelled, send, recv⟩ := b
  cases phase with
  | registering =>
      obtain ⟨rfl, -⟩ := hb
      cases hspawned
  | running => exact ⟨ht, hb.2⟩
  | stopping result => exact ⟨hb.1, ht, hb.2.2⟩
  | disconnecting result result' =>
      obtain ⟨-, -, rfl⟩ := hb
      cases hover
  | returned result =>
      rw [hb.1] at hover
      cases hover

theorem Borrowing.Sound.recvMoves {b : Borrowing} (hb : b.Sound) (hspawned : b.recv.isSpawned = true)
    (hover : b.recv.isOver = false) {t : RecvTask BorrowError} (ht : t.isSpawned = true) :
    { b with recv := t }.Sound := by
  obtain ⟨phase, cancelled, send, recv⟩ := b
  cases phase with
  | registering =>
      obtain ⟨-, rfl⟩ := hb
      cases hspawned
  | running => exact ⟨hb.1, ht⟩
  | stopping result =>
      obtain ⟨-, -, rfl⟩ := hb
      cases hover
  | disconnecting result result' =>
      obtain ⟨-, rfl, -⟩ := hb
      cases hover
  | returned result =>
      rw [hb.2] at hover
      cases hover

/-- While a loop of the lender is not over, `lend` waits for both. -/
theorem Lending.Sound.running {l : Lending} (hl : l.Sound) (h : l.send.isOver = false ∨ l.recv.isOver = false) :
    l.phase = .running := by
  have hphase := hl.phase
  cases hcase : l.phase with
  | running => rfl
  | stopping result =>
      rw [hcase] at hphase
      obtain ⟨-, hsend, hrecv⟩ := hphase
      rw [hsend, hrecv] at h
      simp at h
  | returned result =>
      rw [hcase] at hphase
      obtain ⟨hsend, hrecv, -⟩ := hphase
      rw [hsend, hrecv] at h
      simp at h

namespace Session

variable {s s' : Session}

theorem Sound.turn (hs : s.Sound) (h : s.Turn s') : s'.Sound := by
  obtain ⟨hborrower, hlender, htoLender, htoBorrower⟩ := hs
  cases h with
  | registered hphase =>
      rw [Borrowing.Sound, hphase] at hborrower
      rw [hborrower.1] at htoLender
      rw [hborrower.2] at htoBorrower
      exact ⟨⟨rfl, rfl⟩, hlender, htoLender, htoBorrower⟩
  | refused e hphase =>
      exact ⟨⟨rfl, rfl⟩, hlender, ⟨rfl, htoLender.2⟩, ⟨htoBorrower.1, rfl⟩⟩
  | borrowSend m hmove =>
      obtain ⟨hspawned, hover, hspawned', hdropped, hfinished, -⟩ := SendTask.move_spec hmove
      exact ⟨hborrower.sendMoves hspawned hover hspawned', hlender,
        ⟨hfinished htoLender.1, hdropped.trans htoLender.2⟩, htoBorrower⟩
  | borrowRecv m hmove =>
      obtain ⟨hspawned, hover, hspawned', hfinished, hdropped, -⟩ := RecvTask.move_spec hmove
      exact ⟨hborrower.recvMoves hspawned hover hspawned', hlender, htoLender,
        ⟨hfinished.trans htoBorrower.1, hdropped htoBorrower.2⟩⟩
  | recvJoined hphase hrecv =>
      rw [Borrowing.Sound, hphase] at hborrower
      exact ⟨⟨rfl, hborrower.1, hrecv⟩, hlender, htoLender, htoBorrower⟩
  | sendJoined hphase hsend =>
      rw [Borrowing.Sound, hphase] at hborrower
      exact ⟨⟨hborrower.1, hborrower.2.2, hsend⟩, hlender, htoLender, htoBorrower⟩
  | disconnected result hphase =>
      rw [Borrowing.Sound, hphase] at hborrower
      obtain ⟨-, hrecv, hsend⟩ := hborrower
      refine ⟨⟨?_, ?_⟩, hlender, htoLender, htoBorrower⟩
      · show s.borrower.send.isOver = true
        rw [hsend]
        rfl
      · show s.borrower.recv.isOver = true
        rw [hrecv]
        rfl
  | @lendSend t p m hmove =>
      obtain ⟨-, hover, hspawned', hdropped, hfinished, -⟩ := SendTask.move_spec hmove
      have hrunning := hlender.running (.inl hover)
      refine ⟨hborrower, { hlender with send := hspawned', queued := ?_, sendError := ?_, phase := ?_ }, htoLender,
        ⟨hfinished htoBorrower.1, hdropped.trans htoBorrower.2⟩⟩
      · intro hqueued
        by_contra hclosed
        exact hqueued (if_neg hclosed)
      · intro e he e'
        rcases SendTask.move_result hmove he with hold | ⟨e₁, rfl⟩
        · exact hlender.sendError e hold e'
        · nofun
      · show LendPhase.Sound _ s.lender.phase
        rw [hrunning]
        trivial
  | lendRecv m hidle hmove =>
      obtain ⟨-, hover, hspawned', hfinished, hdropped, -⟩ := RecvTask.move_spec hmove
      have hrunning := hlender.running (.inr hover)
      refine ⟨hborrower, { hlender with recv := hspawned', delivering := ?_, recvError := ?_, phase := ?_ },
        ⟨hfinished.trans htoLender.1, hdropped htoLender.2⟩, htoBorrower⟩
      · exact fun hdelivering => absurd hidle hdelivering
      · intro e he
        rcases RecvTask.move_result hmove he with hold | hnew
        · exact hlender.recvError e hold
        · exact hnew
      · show LendPhase.Sound _ s.lender.phase
        rw [hrunning]
        trivial
  | delivered hitem hopen =>
      exact ⟨hborrower, { hlender with delivering := fun h => absurd rfl h, queued := fun _ => hopen }, htoLender,
        htoBorrower⟩
  | undelivered hitem hclosed =>
      exact ⟨hborrower, { hlender with delivering := fun h => absurd rfl h }, htoLender, htoBorrower⟩
  | @handled buffered item front rest hsend hqueued =>
      have hrunning := hlender.running (.inl (by rw [hsend]; rfl))
      cases hreply : item.reply with
      | ok n =>
          refine ⟨hborrower, { hlender with send := rfl, queued := fun _ => rfl, sendError := nofun, phase := ?_ },
            htoLender, ⟨?_, htoBorrower.2⟩⟩
          · show LendPhase.Sound _ s.lender.phase
            rw [hrunning]
            trivial
          · have hopen := htoBorrower.1
            rw [hsend] at hopen
            exact hopen
      | error e =>
          refine ⟨hborrower, { hlender with
            send := rfl, queued := fun h => absurd rfl h, sendError := ?_, phase := ?_ }, htoLender,
            ⟨rfl, htoBorrower.2⟩⟩
          · rintro e' he e''
            cases he
            nofun
          · show LendPhase.Sound _ s.lender.phase
            rw [hrunning]
            trivial
  | eventsEnded hsend hrecv hqueued =>
      have hrunning := hlender.running (.inl (by rw [hsend]; rfl))
      refine ⟨hborrower, { hlender with
        send := rfl, queued := fun h => absurd hqueued h, sendError := nofun, phase := ?_ }, htoLender,
        ⟨rfl, htoBorrower.2⟩⟩
      show LendPhase.Sound _ s.lender.phase
      rw [hrunning]
      trivial
  | joined hphase hrecv hsend hresult =>
      refine ⟨hborrower, { hlender with phase := ⟨rfl, ?_, ?_⟩ }, htoLender, htoBorrower⟩
      · show s.lender.send.isOver = true
        rw [hsend]
        rfl
      · show s.lender.recv.isOver = true
        rw [hrecv]
        rfl
  | libusbEnded hcancelled hlibusb =>
      refine ⟨hborrower, { hlender with phase := ?_ }, htoLender, htoBorrower⟩
      have hphase := hlender.phase
      show LendPhase.Sound _ s.lender.phase
      cases hcase : s.lender.phase with
      | running => trivial
      | stopping result =>
          rw [hcase] at hphase
          exact hphase
      | returned result =>
          rw [hcase] at hphase
          exact ⟨hphase.1, hphase.2.1, rfl⟩
  | libusbJoined hphase hlibusb =>
      have hstopping := hlender.phase
      rw [hphase] at hstopping
      exact ⟨hborrower, { hlender with phase := ⟨hstopping.2.1, hstopping.2.2, hlibusb⟩ }, htoLender, htoBorrower⟩

theorem Sound.env {e : Environment} (hs : s.Sound) (hok : s.environment e = .ok s') : s'.Sound := by
  obtain ⟨hborrower, hlender, htoLender, htoBorrower⟩ := hs
  cases e with
  | lose =>
      cases hok
      exact ⟨hborrower, hlender, htoLender, htoBorrower⟩
  | cancelBorrower =>
      cases hok
      refine ⟨?_, hlender, htoLender, htoBorrower⟩
      unfold Borrowing.Sound at hborrower ⊢
      cases hphase : s.borrower.phase with
      | registering | running | returned =>
          simp only [hphase] at hborrower ⊢
          exact hborrower
      | stopping | disconnecting =>
          simp only [hphase] at hborrower ⊢
          exact ⟨trivial, hborrower.2⟩
  | cancelLender =>
      cases hok
      refine ⟨hborrower, { hlender with phase := ?_ }, htoLender, htoBorrower⟩
      have hphase := hlender.phase
      show LendPhase.Sound _ s.lender.phase
      cases hcase : s.lender.phase with
      | running => trivial
      | stopping result =>
          rw [hcase] at hphase
          exact ⟨rfl, hphase.2⟩
      | returned result =>
          rw [hcase] at hphase
          exact hphase
  | work n =>
      simp only [environment] at hok
      split at hok
      · next buffered hsend =>
          cases hok
          rw [hsend] at htoLender
          exact ⟨hborrower.sendMoves (by rw [hsend]; rfl) (by rw [hsend]; rfl) rfl, hlender, htoLender, htoBorrower⟩
      · cases hok
  | workEnded result =>
      simp only [environment] at hok
      split at hok
      · next buffered hsend =>
          cases hok
          exact ⟨hborrower.sendMoves (by rw [hsend]; rfl) (by rw [hsend]; rfl) rfl, hlender, ⟨rfl, htoLender.2⟩,
            htoBorrower⟩
      · cases hok
  | recvFailed n e =>
      simp only [environment] at hok
      split at hok
      · next hrecv =>
          obtain ⟨-, rfl⟩ := ensure_eq_ok_iff.mp hok
          rw [hrecv] at htoBorrower
          exact ⟨hborrower.recvMoves (by rw [hrecv]; rfl) (by rw [hrecv]; rfl) rfl, hlender, htoLender, htoBorrower⟩
      · cases hok
  | borrowCorrupted n =>
      simp only [environment] at hok
      split at hok
      · next hrecv =>
          obtain ⟨-, rfl⟩ := ensure_eq_ok_iff.mp hok
          rw [hrecv] at htoBorrower
          exact ⟨hborrower.recvMoves (by rw [hrecv]; rfl) (by rw [hrecv]; rfl) rfl, hlender, htoLender, htoBorrower⟩
      · cases hok
  | lendCorrupted n =>
      simp only [environment] at hok
      split at hok
      · next hrecv hidle =>
          obtain ⟨-, rfl⟩ := ensure_eq_ok_iff.mp hok
          have hrunning := hlender.running (.inr (by rw [hrecv]; rfl))
          rw [hrecv] at htoLender
          refine ⟨hborrower, { hlender with recv := rfl, delivering := ?_, recvError := ?_, phase := ?_ }, htoLender,
            htoBorrower⟩
          · exact fun hdelivering => absurd hidle hdelivering
          · rintro e he
            cases he
            exact ⟨_, rfl⟩
          · show LendPhase.Sound _ s.lender.phase
            rw [hrunning]
            trivial
      · cases hok
  | completed item =>
      simp only [environment] at hok
      split at hok
      · next hrecv hidle =>
          cases hok
          exact ⟨hborrower, { hlender with delivering := fun _ => hrecv }, htoLender, htoBorrower⟩
      · cases hok

theorem Sound.step {e : Event} (hs : s.Sound) (hok : s.step e = .ok s') : s'.Sound := by
  cases e with
  | env e => exact hs.env hok
  | borrow e => exact hs.turn (turn_of_borrowStep hok)
  | lend e => exact hs.turn (turn_of_lendStep hok)

theorem sound_of_reach (hreach : Reach step (fun _ _ => True) start s) : s.Sound :=
  hreach.inv sound_start fun _ _ _ hs _ => hs.step

/-- What has ended stays so. -/
structure Onward (s s' : Session) : Prop where
  lost : s.lost = true → s'.lost = true
  borrower : s.borrower.cancelled = true → s'.borrower.cancelled = true
  lender : s.lender.cancelled = true → s'.lender.cancelled = true
  toLender : s.toLender.finished = true → s'.toLender.finished = true
  toBorrower : s.toBorrower.finished = true → s'.toBorrower.finished = true
  recv : s.lender.recv ≠ .main → s'.lender.recv ≠ .main

theorem onward_of_turn (h : s.Turn s') : Onward s s' := by
  cases h with
  | registered | sendJoined | disconnected | delivered | undelivered | libusbEnded | libusbJoined =>
      exact ⟨id, id, id, id, id, id⟩
  | refused => exact ⟨id, id, id, fun _ => rfl, id, id⟩
  | borrowSend m hmove => exact ⟨id, id, id, (SendTask.move_spec hmove).2.2.2.2.2, id, id⟩
  | borrowRecv m hmove => exact ⟨id, id, id, id, fun h => (RecvTask.move_spec hmove).2.2.2.1.trans h, id⟩
  | recvJoined => exact ⟨id, fun _ => rfl, id, id, id, id⟩
  | lendSend m hmove => exact ⟨id, id, id, id, (SendTask.move_spec hmove).2.2.2.2.2, id⟩
  | lendRecv m hidle hmove =>
      obtain ⟨-, -, -, hfinished, -, hleft⟩ := RecvTask.move_spec hmove
      exact ⟨id, id, id, fun h => hfinished.trans h, id, hleft⟩
  | @handled buffered item front rest hsend hqueued =>
      cases item.reply with
      | ok n => exact ⟨id, id, id, id, id, id⟩
      | error e => exact ⟨id, id, id, id, fun _ => rfl, id⟩
  | eventsEnded => exact ⟨id, id, id, id, fun _ => rfl, id⟩
  | joined => exact ⟨id, id, fun _ => rfl, id, id, id⟩

theorem onward_of_env {e : Environment} (hok : s.environment e = .ok s') : Onward s s' := by
  cases e with
  | lose =>
      cases hok
      exact ⟨fun _ => rfl, id, id, id, id, id⟩
  | cancelBorrower =>
      cases hok
      exact ⟨id, fun _ => rfl, id, id, id, id⟩
  | cancelLender =>
      cases hok
      exact ⟨id, id, fun _ => rfl, id, id, id⟩
  | work n =>
      simp only [environment] at hok
      split at hok
      · cases hok
        exact ⟨id, id, id, id, id, id⟩
      · cases hok
  | workEnded result =>
      simp only [environment] at hok
      split at hok
      · cases hok
        exact ⟨id, id, id, fun _ => rfl, id, id⟩
      · cases hok
  | recvFailed n e =>
      simp only [environment] at hok
      split at hok
      · obtain ⟨-, rfl⟩ := ensure_eq_ok_iff.mp hok
        exact ⟨id, id, id, id, id, id⟩
      · cases hok
  | borrowCorrupted n =>
      simp only [environment] at hok
      split at hok
      · obtain ⟨-, rfl⟩ := ensure_eq_ok_iff.mp hok
        exact ⟨id, id, id, id, id, id⟩
      · cases hok
  | lendCorrupted n =>
      simp only [environment] at hok
      split at hok
      · obtain ⟨-, rfl⟩ := ensure_eq_ok_iff.mp hok
        exact ⟨id, id, id, id, id, fun _ => nofun⟩
      · cases hok
  | completed item =>
      simp only [environment] at hok
      split at hok
      · cases hok
        exact ⟨id, id, id, id, id, id⟩
      · cases hok

/-- **An end is not taken back.** -/
theorem Ending.step {e : Event} (hs : s.Ending) (hok : s.step e = .ok s') : s'.Ending := by
  have honward : Onward s s' := by
    cases e with
    | env e => exact onward_of_env hok
    | borrow e => exact onward_of_turn (turn_of_borrowStep hok)
    | lend e => exact onward_of_turn (turn_of_lendStep hok)
  obtain h | h | h | h | h | h := hs.of
  · exact ⟨.inl (honward.lost h)⟩
  · exact ⟨.inr (.inl (honward.borrower h))⟩
  · exact ⟨.inr (.inr (.inl (honward.lender h)))⟩
  · exact ⟨.inr (.inr (.inr (.inl (honward.toLender h))))⟩
  · exact ⟨.inr (.inr (.inr (.inr (.inl (honward.toBorrower h)))))⟩
  · exact ⟨.inr (.inr (.inr (.inr (.inr (honward.recv h)))))⟩

end Session

/-! ### What is left to do -/

def Completed.weight (item : Completed) : Nat :=
  match item.reply with
  | .ok n => 2 * n + 1
  | .error _ => Msg.Header.size + 1

def BorrowPhase.weight : BorrowPhase → Nat
  | .registering => 4
  | .running => 3
  | .stopping _ => 2
  | .disconnecting _ _ => 1
  | .returned _ => 0

def LendPhase.weight : LendPhase → Nat
  | .running => 2
  | .stopping _ => 1
  | .returned _ => 0

def Borrowing.weight (b : Borrowing) : Nat := b.phase.weight + b.send.weight + b.recv.weight

/-- What has been completed and is not handled. -/
def Lending.pending (l : Lending) : Nat :=
  (l.delivering.elim 0 fun item => item.weight + 1) + (l.queued.map Completed.weight).sum

def Lending.weight (l : Lending) : Nat :=
  l.phase.weight + l.libusb.toNat + l.send.weight + l.recv.weight + l.pending

namespace Session

def weight (s : Session) : Nat := s.borrower.weight + s.lender.weight + s.toLender.unread + s.toBorrower.unread

variable {s s' : Session}

/-- **Every step of the program** leaves less to do. -/
theorem weight_lt_of_turn (hs : s.Sound) (h : s.Turn s') : s'.weight < s.weight := by
  unfold weight Borrowing.weight Lending.weight Lending.pending
  cases h with
  | registered hphase =>
      have hheld := hs.borrower
      rw [Borrowing.Sound, hphase] at hheld
      simp only [hphase, hheld.1, hheld.2, BorrowPhase.weight, SendTask.weight, RecvTask.weight]
      omega
  | refused e hphase =>
      simp only [hphase, BorrowPhase.weight, SendTask.weight, RecvTask.weight]
      omega
  | borrowSend m hmove =>
      have hless := SendTask.move_weight hmove
      dsimp only
      omega
  | borrowRecv m hmove =>
      have hless := RecvTask.move_weight hmove
      dsimp only
      omega
  | recvJoined hphase hrecv =>
      simp only [hphase, BorrowPhase.weight]
      omega
  | sendJoined hphase hsend =>
      simp only [hphase, BorrowPhase.weight]
      omega
  | disconnected result hphase =>
      simp only [hphase, BorrowPhase.weight]
      omega
  | @lendSend t p m hmove =>
      have hless := SendTask.move_weight hmove
      have hqueued : ((if t.isOpen = true then s.lender.queued else []).map Completed.weight).sum ≤
          (s.lender.queued.map Completed.weight).sum := by
        split
        · exact Nat.le_refl _
        · exact Nat.zero_le _
      dsimp only
      omega
  | lendRecv m hidle hmove =>
      have hless := RecvTask.move_weight hmove
      dsimp only
      omega
  | delivered hitem hopen =>
      simp only [hitem, List.map_append, List.sum_append, List.map_cons, List.map_nil, List.sum_cons, List.sum_nil,
        Option.elim]
      omega
  | undelivered hitem hclosed =>
      simp only [hitem, Option.elim]
      omega
  | @handled buffered item front rest hsend hqueued =>
      have hsum : (s.lender.queued.map Completed.weight).sum =
          item.weight + ((front ++ rest).map Completed.weight).sum := by
        rw [hqueued]
        simp only [List.map_append, List.map_cons, List.sum_append, List.sum_cons]
        omega
      cases hreply : item.reply with
      | ok n =>
          have hitem : item.weight = 2 * n + 1 := by rw [Completed.weight, hreply]
          simp only [handle, hsend, SendTask.weight, hsum, hitem]
          omega
      | error e =>
          have hitem : item.weight = 9 := by rw [Completed.weight, hreply]
          have hwritten : (if s.toBorrower.dropped = true ∨ s.lost = true then 0 else Msg.Header.size) ≤ 8 := by
            split
            · exact Nat.zero_le _
            · exact Nat.le_refl _
          simp only [handle, hsend, SendTask.weight, hsum, hitem, List.map_nil, List.sum_nil]
          omega
  | eventsEnded hsend hrecv hqueued =>
      simp only [hsend, SendTask.weight]
      omega
  | joined hphase hrecv hsend hresult =>
      simp only [hphase, LendPhase.weight]
      omega
  | libusbEnded hcancelled hlibusb =>
      simp only [hlibusb, Bool.toNat_true, Bool.toNat_false]
      omega
  | libusbJoined hphase hlibusb =>
      simp only [hphase, LendPhase.weight]
      omega

/-! ### When nothing can happen -/

/-- A session in which nothing ends: both operations run and all loops wait. Only the borrower's receiving loop
may have failed; it is then in its drain. -/
structure Waiting (s : Session) : Prop where
  lost : s.lost = false
  tokens : s.borrower.cancelled = false ∧ s.lender.cancelled = false
  phases : s.borrower.phase = .running ∧ s.lender.phase = .running
  toLender : s.borrower.send = .main 0 ∧ s.toLender.unread = 0 ∧ s.toLender.finished = false ∧ s.lender.recv = .main
  toBorrower : s.lender.send = .main 0 ∧ s.toBorrower.unread = 0 ∧ s.toBorrower.finished = false
  pending : s.lender.delivering = none ∧ s.lender.queued = []
  recv : s.borrower.recv = .main ∨ ∃ room result, 0 < room ∧ s.borrower.recv = .draining room result

section Stuck

variable (hstuck : ¬ CanMove step Internal s)

include hstuck

theorem not_borrowStep (e : BorrowEvent) : s.borrowStep e ≠ .ok s' :=
  fun hok => hstuck ⟨.borrow e, s', trivial, hok⟩

theorem not_lendStep (e : LendEvent) : s.lendStep e ≠ .ok s' :=
  fun hok => hstuck ⟨.lend e, s', trivial, hok⟩

theorem borrowSend_waits : s.borrower.send.Waits s.borrower.cancelled s.lost s.toLender := by
  have hmoves : ∀ m, s.borrower.send.move BorrowError.send s.borrower.cancelled s.lost s.toLender m = none := by
    intro m
    by_contra hmove
    obtain ⟨⟨t, p⟩, hmove⟩ := Option.ne_none_iff_exists'.mp hmove
    exact not_borrowStep hstuck (.send m) (by simp only [borrowStep, hmove]; rfl)
  exact SendTask.waits_of_stuck ⟨0⟩ hmoves

theorem borrowRecv_waits : s.borrower.recv.Waits s.borrower.cancelled s.lost s.toBorrower := by
  have hmoves : ∀ m, s.borrower.recv.move BorrowError.recv s.borrower.cancelled s.lost s.toBorrower m = none := by
    intro m
    by_contra hmove
    obtain ⟨⟨t, p⟩, hmove⟩ := Option.ne_none_iff_exists'.mp hmove
    exact not_borrowStep hstuck (.recv m) (by simp only [borrowStep, hmove]; rfl)
  exact RecvTask.waits_of_stuck ⟨0⟩ hmoves

theorem lendSend_waits : s.lender.send.Waits s.lender.cancelled s.lost s.toBorrower := by
  have hmoves : ∀ m, s.lender.send.move LendError.send s.lender.cancelled s.lost s.toBorrower m = none := by
    intro m
    by_contra hmove
    obtain ⟨⟨t, p⟩, hmove⟩ := Option.ne_none_iff_exists'.mp hmove
    exact not_lendStep hstuck (.send m) (by simp only [lendStep, hmove]; rfl)
  exact SendTask.waits_of_stuck ⟨0⟩ hmoves

/-- The sending loop of the lender takes what is in the channels. -/
theorem queued_nil {buffered : Nat} (hsend : s.lender.send = .main buffered) : s.lender.queued = [] := by
  cases hqueued : s.lender.queued with
  | nil => rfl
  | cons item rest =>
      have hfind : s.lender.queued.find? (·.kind == item.kind) = some item := by
        rw [hqueued]
        exact List.find?_cons_of_pos (beq_self_eq_true item.kind)
      exact absurd (by simp only [lendStep, hsend, hfind]; rfl) (not_lendStep hstuck (.handled item.kind))

/-- And it ends when no one can fill them any more. -/
theorem lendRecv_main {buffered : Nat} (hsend : s.lender.send = .main buffered) : s.lender.recv = .main := by
  by_contra hrecv
  have hended : s.lendStep .eventsEnded = ensure (s.lender.queued = []) { s with
      lender := { s.lender with send := .closing (.ok ()) }
      toBorrower := { s.toBorrower with finished := true } } := by
    simp only [lendStep, hsend]
  exact not_lendStep hstuck .eventsEnded (hended.trans (if_pos (queued_nil hstuck hsend)))

variable (hs : s.Sound)

include hs

theorem delivering_none : s.lender.delivering = none := by
  cases hitem : s.lender.delivering with
  | none => rfl
  | some item =>
      cases hopen : s.lender.send.isOpen with
      | false =>
          exact absurd (by simp only [lendStep, hitem, hopen]; rfl) (not_lendStep hstuck .delivered)
      | true =>
          obtain ⟨buffered, hsend⟩ := SendTask.eq_main hs.lender.send hopen
          have hroom : (s.lender.queued.map Completed.kind).count item.kind < item.kind.slots := by
            rw [queued_nil hstuck hsend]
            cases item.kind <;> decide
          exact absurd (by simp only [lendStep, hitem, hopen, if_true]; exact if_pos hroom)
            (not_lendStep hstuck .delivered)

theorem lendRecv_waits : s.lender.recv.Waits s.lender.cancelled s.lost s.toLender := by
  have hmoves : ∀ m, s.lender.recv.move LendError.recv s.lender.cancelled s.lost s.toLender m = none := by
    intro m
    by_contra hmove
    obtain ⟨⟨t, p⟩, hmove⟩ := Option.ne_none_iff_exists'.mp hmove
    exact not_lendStep hstuck (.recv m) (by simp only [lendStep, delivering_none hstuck hs, hmove]; rfl)
  exact RecvTask.waits_of_stuck ⟨0⟩ hmoves

/-- Where the borrower's direction is closed, the lender's receiving loop is over. -/
theorem lendRecv_over (hclosed : s.toLender.finished = true) : s.lender.recv.isOver = true := by
  have hwaits := lendRecv_waits hstuck hs
  have hspawned := hs.lender.recv
  cases hrecv : s.lender.recv with
  | held =>
      rw [hrecv] at hspawned
      cases hspawned
  | main =>
      rw [hrecv] at hwaits
      exact absurd hclosed (Bool.eq_false_iff.mp hwaits.2.1)
  | draining room result =>
      rw [hrecv] at hwaits
      exact absurd hclosed (Bool.eq_false_iff.mp hwaits.2.2.1)
  | done result => rfl
  | dropped => rfl

/-- `lend` has returned once both directions are given up by the borrower. -/
theorem lend_returned (hclosed : s.toLender.finished = true) (hdropped : s.toBorrower.dropped = true) :
    ∃ r, s.lender.phase = .returned r := by
  obtain ⟨recv, hrecv⟩ := RecvTask.eq_done hs.lender.recv (lendRecv_over hstuck hs hclosed)
  obtain ⟨send, hsend⟩ : ∃ send, s.lender.send = .done send := by
    have hwaits := lendSend_waits hstuck
    have hspawned := hs.lender.send
    cases hcase : s.lender.send with
    | main buffered => exact absurd (hrecv.symm.trans (lendRecv_main hstuck hcase)) nofun
    | closing result =>
        rw [hcase] at hwaits
        exact absurd hdropped (Bool.eq_false_iff.mp hwaits.2.1)
    | done send => exact ⟨send, rfl⟩
    | held | dropped =>
        rw [hcase] at hspawned
        cases hspawned
  cases hphase : s.lender.phase with
  | running =>
      obtain ⟨result, hresult⟩ : ∃ result, lendResult recv send = .ok result := by
        refine lendResult_ok (fun e he => ?_) fun e he => ?_
        · exact hs.lender.recvError e (by rw [hrecv, he]; rfl)
        · exact hs.lender.sendError e (by rw [hsend, he]; rfl)
      exact absurd (by simp only [lendStep, hphase, hrecv, hsend, hresult]; rfl) (not_lendStep hstuck .joined)
  | stopping result =>
      have hcancelled : s.lender.cancelled = true := by
        have hstopping := hs.lender.phase
        rw [hphase] at hstopping
        exact hstopping.1
      cases hlibusb : s.lender.libusb with
      | true => exact absurd (if_pos ⟨hcancelled, hlibusb⟩) (not_lendStep hstuck .libusbEnded)
      | false =>
          exact absurd (by simp only [lendStep, hphase]; exact if_pos hlibusb) (not_lendStep hstuck .libusbJoined)
  | returned r => exact ⟨r, rfl⟩

/-- `borrow` does not wait for its sending loop. -/
theorem not_stopping (recv : Except BorrowError Unit) : s.borrower.phase ≠ .stopping recv := by
  intro hphase
  have hborrower := hs.borrower
  have hwaits := borrowSend_waits hstuck
  rw [Borrowing.Sound, hphase] at hborrower
  obtain ⟨hcancelled, hspawned, -⟩ := hborrower
  cases hsend : s.borrower.send with
  | main buffered =>
      rw [hsend] at hwaits
      exact absurd hcancelled (Bool.eq_false_iff.mp hwaits.2)
  | closing result =>
      rw [hsend] at hwaits
      have hclosed : s.toLender.finished = true := by rw [hs.toLender.1, hsend]; rfl
      have hdropped : s.toLender.dropped = true := by
        rw [hs.toLender.2, RecvTask.not_isOpen (lendRecv_over hstuck hs hclosed)]
        rfl
      exact absurd hdropped (Bool.eq_false_iff.mp hwaits.2.1)
  | done send =>
      exact absurd (by simp only [borrowStep, hphase, hsend]; rfl) (not_borrowStep hstuck .sendJoined)
  | held | dropped =>
      rw [hsend] at hspawned
      cases hspawned

/-- While `borrow` waits for its receiving loop, so do the other three. -/
theorem waiting_of_running (hphase : s.borrower.phase = .running) (hclosed : s.toBorrower.finished = false)
    (hnone : s.toBorrower.unread = 0) (hlost : s.lost = false)
    (hrecv : s.borrower.recv = .main ∨ ∃ room result, 0 < room ∧ s.borrower.recv = .draining room result) :
    s.Waiting := by
  have hborrower := hs.borrower
  rw [Borrowing.Sound, hphase] at hborrower
  obtain ⟨buffered, hlend⟩ := SendTask.eq_main hs.lender.send (by simpa [hclosed] using hs.toBorrower.1)
  have hlendSend := lendSend_waits hstuck
  rw [hlend] at hlendSend
  obtain ⟨rfl, hcancelled⟩ := hlendSend
  have hmain := lendRecv_main hstuck hlend
  have hlendRecv := lendRecv_waits hstuck hs
  rw [hmain] at hlendRecv
  obtain ⟨hunread, hopen, -, -⟩ := hlendRecv
  obtain ⟨buffered, hsend⟩ := SendTask.eq_main hborrower.1 (by simpa [hopen] using hs.toLender.1)
  have hborrowSend := borrowSend_waits hstuck
  rw [hsend] at hborrowSend
  obtain ⟨rfl, hcancelled'⟩ := hborrowSend
  exact {
    lost := hlost
    tokens := ⟨hcancelled', hcancelled⟩
    phases := ⟨hphase, hs.lender.running (.inl (by rw [hlend]; rfl))⟩
    toLender := ⟨hsend, hunread, hopen, hmain⟩
    toBorrower := ⟨hlend, hnone, hclosed⟩
    pending := ⟨delivering_none hstuck hs, queued_nil hstuck hlend⟩
    recv := hrecv }

/-- **A session in which nothing can happen** is over, or waits. -/
theorem finished_or_waiting : s.Finished ∨ s.Waiting := by
  cases hphase : s.borrower.phase with
  | registering =>
      exact absurd (by simp only [borrowStep, hphase]; rfl) (not_borrowStep hstuck (.registered (.ok ())))
  | running =>
      have hborrower := hs.borrower
      have hwaits := borrowRecv_waits hstuck
      rw [Borrowing.Sound, hphase] at hborrower
      cases hrecv : s.borrower.recv with
      | main =>
          rw [hrecv] at hwaits
          obtain ⟨hnone, hclosed, hlost, -⟩ := hwaits
          exact .inr (waiting_of_running hstuck hs hphase hclosed hnone hlost (.inl hrecv))
      | draining room result =>
          rw [hrecv] at hwaits
          obtain ⟨hroom, hnone, hclosed, hlost⟩ := hwaits
          exact .inr (waiting_of_running hstuck hs hphase hclosed hnone hlost (.inr ⟨room, result, hroom, hrecv⟩))
      | done recv =>
          exact absurd (by simp only [borrowStep, hphase, hrecv]; rfl) (not_borrowStep hstuck .recvJoined)
      | held | dropped =>
          rw [hrecv] at hborrower
          cases hborrower.2
  | stopping recv => exact absurd hphase (not_stopping hstuck hs recv)
  | disconnecting recv send =>
      exact absurd (by simp only [borrowStep, hphase]; rfl) (not_borrowStep hstuck (.disconnected (.ok ())))
  | returned r =>
      have hborrower := hs.borrower
      rw [Borrowing.Sound, hphase] at hborrower
      refine .inl ⟨⟨r, hphase⟩, lend_returned hstuck hs ?_ ?_⟩
      · rw [hs.toLender.1, SendTask.not_isOpen hborrower.1]
        rfl
      · rw [hs.toBorrower.2, RecvTask.not_isOpen hborrower.2]
        rfl

end Stuck

/-- A session that waits is not about to end. -/
theorem Waiting.not_ending (hw : s.Waiting) : ¬ s.Ending := by
  rintro ⟨h⟩
  rw [hw.lost, hw.tokens.1, hw.tokens.2, hw.toLender.2.2.1, hw.toBorrower.2.2] at h
  simp [hw.toLender.2.2.2] at h

/-- **Every end is the end of the session.** Once the connection is lost, a token is cancelled, a direction of the
stream is closed or the lender's receiving loop has ended, then at any later time, whatever the environment did
in the meantime and in whatever order the steps of the program come, they come to an end with both operations
returned. -/
theorem session_settles (hreach : Reach step (fun _ _ => True) start s) (hending : s.Ending)
    (hlater : Reach step (fun _ _ => True) s s') : Settles step Internal Finished s' := by
  have hending' : s'.Ending := hlater.inv hending fun _ _ _ hs _ => hs.step
  refine settles_of_measure (I := fun s => s.Sound ∧ s.Ending) (μ := weight)
    ⟨sound_of_reach (hreach.trans hlater), hending'⟩ ?_ ?_
  · intro s e s' hs he hok
    exact ⟨⟨hs.1.step hok, hs.2.step hok⟩, weight_lt_of_turn hs.1 (turn_of_step he hok)⟩
  · intro s hs hstuck
    rcases finished_or_waiting hstuck hs.1 with hfinished | hwaiting
    · exact hfinished
    · exact absurd hs.2 hwaiting.not_ending

end Session

namespace Session

/-- A work item fails in the driver. -/
def workFailedRun : List Event := [.borrow (.registered (.ok ())), .env (.work 48), .env (.workEnded (.error ⟨5⟩))]

theorem workFailed_settles : ∃ s, run step start workFailedRun = .ok s ∧ s.Ending ∧ Settles step Internal Finished s :=
  ⟨_, rfl, ⟨.inr (.inr (.inr (.inl rfl)))⟩,
    session_settles (reach_of_run workFailedRun rfl) ⟨.inr (.inr (.inr (.inl rfl)))⟩ .start⟩

end Session

/-! ### A borrower whose receiving loop has failed -/

def SendTask.buffered {ε : Type} : SendTask ε → Nat
  | .main buffered => buffered
  | .held | .closing _ | .done _ | .dropped => 0

def Completed.bytes (item : Completed) : Nat :=
  match item.reply with
  | .ok n => n
  | .error _ => 0

def Lending.outstanding (l : Lending) : List Completed := l.delivering.toList ++ l.queued

namespace Session

/-- The bytes that the lender has for the borrower. -/
def inFlight (s : Session) : Nat :=
  s.toBorrower.unread + s.lender.send.buffered + (s.lender.outstanding.map Completed.bytes).sum

/-- A transfer is completed with an error that ends the lender's sending loop. -/
def Aborts (s : Session) : Prop := ∃ item ∈ s.lender.outstanding, ∃ e, item.reply = .error e

variable {s s' : Session}

/-- Nothing has ended that ends the session. -/
structure Calm (s : Session) : Prop where
  lost : s.lost = false
  borrower : s.borrower.cancelled = false
  lender : s.lender.cancelled = false
  toLender : s.toLender.finished = false
  toBorrower : s.toBorrower.finished = false
  recv : s.lender.recv = .main

theorem calm_iff : s.Calm ↔ ¬ s.Ending := by
  constructor
  · rintro ⟨hlost, hborrower, hlender, htoLender, htoBorrower, hrecv⟩ ⟨h⟩
    rw [hlost, hborrower, hlender, htoLender, htoBorrower, hrecv] at h
    simp at h
  · intro h
    refine ⟨?_, ?_, ?_, ?_, ?_, ?_⟩
    · exact Bool.eq_false_iff.mpr fun hlost => h ⟨.inl hlost⟩
    · exact Bool.eq_false_iff.mpr fun hborrower => h ⟨.inr (.inl hborrower)⟩
    · exact Bool.eq_false_iff.mpr fun hlender => h ⟨.inr (.inr (.inl hlender))⟩
    · exact Bool.eq_false_iff.mpr fun htoLender => h ⟨.inr (.inr (.inr (.inl htoLender)))⟩
    · exact Bool.eq_false_iff.mpr fun htoBorrower => h ⟨.inr (.inr (.inr (.inr (.inl htoBorrower))))⟩
    · by_contra hrecv
      exact h ⟨.inr (.inr (.inr (.inr (.inr hrecv))))⟩

/-- The drain of a session in which nothing has ended, after a step: an error is on its way; the drain is full and
ends; or it has taken some of the bytes in flight, and nothing else has changed. -/
inductive Drains (s : Session) (room : Nat) (result : Except BorrowError Unit) (s' : Session) : Prop
  | aborted (haborts : s.Aborts) (hending : s'.Ending)
  | full (hroom : room = 0) (hcalm : s'.Calm) (hrecv : s'.borrower.recv = .done result)
  | took (n : Nat) (hcalm : s'.Calm) (hrecv : s'.borrower.recv = .draining (room - n) result) (hle : n ≤ room)
      (hbytes : s'.inFlight + n = s.inFlight) (haborts : s'.Aborts ↔ s.Aborts)

section Drain

variable {room : Nat} {result : Except BorrowError Unit}

/-- What does not concern the drain. -/
theorem Drains.idle (hcalm : s'.Calm) (hrecv : s'.borrower.recv = .draining room result)
    (hunread : s'.toBorrower.unread + s'.lender.send.buffered = s.toBorrower.unread + s.lender.send.buffered)
    (houtstanding : s'.lender.outstanding = s.lender.outstanding) : s.Drains room result s' := by
  refine .took 0 hcalm hrecv (Nat.zero_le _) ?_ ?_
  · unfold inFlight
    rw [houtstanding, hunread, Nat.add_zero]
  · unfold Aborts
    rw [houtstanding]

theorem drains_of_turn (hs : s.Sound) (hcalm : s.Calm) (hrecv : s.borrower.recv = .draining room result)
    (h : s.Turn s') : s.Drains room result s' := by
  have hborrower := hs.borrower
  have hrunning : s.lender.phase = .running := hs.lender.running (.inr (by rw [hcalm.recv]; rfl))
  cases h with
  | registered hphase =>
      rw [Borrowing.Sound, hphase, hrecv] at hborrower
      cases hborrower.2
  | refused e hphase =>
      rw [Borrowing.Sound, hphase, hrecv] at hborrower
      cases hborrower.2
  | @borrowSend t p m hmove =>
      obtain ⟨n, buffered, hsend, rfl, -, -, rfl⟩ | ⟨buffered, result, hsend, rfl, -, hbroken, rfl⟩ |
        ⟨result, hsend, rfl, rfl⟩ := SendTask.move_cases hmove
      · exact .idle ⟨hcalm.lost, hcalm.borrower, hcalm.lender, hcalm.toLender, hcalm.toBorrower, hcalm.recv⟩ hrecv rfl
          rfl
      · rw [hs.toLender.2, hcalm.recv, hcalm.lost, hcalm.borrower] at hbroken
        simp [RecvTask.isOpen] at hbroken
      · have hopen := hcalm.toLender
        rw [hs.toLender.1, hsend] at hopen
        cases hopen
  | @borrowRecv t p m hmove =>
      rw [hrecv] at hmove
      obtain ⟨n, h, -⟩ | ⟨result', h, -⟩ | ⟨n, room', result', h, rfl, -, hroom, hle, rfl⟩ |
        ⟨room', result', h, rfl, hend, rfl⟩ := RecvTask.move_cases hmove
      · cases h
      · cases h
      · cases h
        refine .took n ⟨hcalm.lost, hcalm.borrower, hcalm.lender, hcalm.toLender, hcalm.toBorrower, hcalm.recv⟩ rfl
          hroom ?_ Iff.rfl
        unfold inFlight
        simp only
        omega
      · cases h
        rw [hcalm.lost, hcalm.toBorrower] at hend
        exact .full (by simpa using hend) ⟨hcalm.lost, hcalm.borrower, hcalm.lender, hcalm.toLender, hcalm.toBorrower,
          hcalm.recv⟩ rfl
  | recvJoined hphase hdone => exact absurd (hrecv.symm.trans hdone) nofun
  | sendJoined hphase hsend =>
      rw [Borrowing.Sound, hphase] at hborrower
      exact absurd hborrower.1 (Bool.eq_false_iff.mp hcalm.borrower)
  | disconnected result hphase =>
      rw [Borrowing.Sound, hphase] at hborrower
      exact absurd hborrower.1 (Bool.eq_false_iff.mp hcalm.borrower)
  | @lendSend t p m hmove =>
      obtain ⟨n, buffered, hsend, rfl, -, hle, rfl⟩ | ⟨buffered, result, hsend, rfl, -, hbroken, rfl⟩ |
        ⟨result, hsend, rfl, rfl⟩ := SendTask.move_cases hmove
      · refine .idle ⟨hcalm.lost, hcalm.borrower, hcalm.lender, hcalm.toLender, hcalm.toBorrower, hcalm.recv⟩ hrecv ?_
          rfl
        show s.toBorrower.unread + n + (buffered - n) = _
        rw [hsend]
        simp only [SendTask.buffered]
        omega
      · rw [hs.toBorrower.2, hrecv, hcalm.lost, hcalm.lender] at hbroken
        simp [RecvTask.isOpen] at hbroken
      · have hopen := hcalm.toBorrower
        rw [hs.toBorrower.1, hsend] at hopen
        cases hopen
  | @lendRecv t p m hidle hmove =>
      rw [hcalm.recv] at hmove
      obtain ⟨n, -, rfl, -, -, rfl⟩ | ⟨result', -, rfl, -, hend, rfl⟩ | ⟨n, room', result', h, -⟩ |
        ⟨room', result', h, -⟩ := RecvTask.move_cases hmove
      · exact .idle ⟨hcalm.lost, hcalm.borrower, hcalm.lender, hcalm.toLender, hcalm.toBorrower, rfl⟩ hrecv rfl rfl
      · rw [hcalm.toLender, hcalm.lost, hcalm.lender] at hend
        simp at hend
      · cases h
      · cases h
  | @delivered item hitem hopen =>
      have hperm : (s.lender.queued ++ [item]).Perm s.lender.outstanding := by
        unfold Lending.outstanding
        rw [hitem]
        exact List.perm_append_comm
      refine .took 0 ⟨hcalm.lost, hcalm.borrower, hcalm.lender, hcalm.toLender, hcalm.toBorrower, hcalm.recv⟩ hrecv
        (Nat.zero_le _) ?_ ?_
      · show _ + ((s.lender.queued ++ [item]).map Completed.bytes).sum + 0 = _
        rw [(hperm.map _).sum_eq]
        rfl
      · exact exists_congr fun other => and_congr_left fun _ => hperm.mem_iff
  | undelivered hitem hclosed =>
      have hopen := hcalm.toBorrower
      rw [hs.toBorrower.1, hclosed] at hopen
      cases hopen
  | @handled buffered item front rest hsend hqueued =>
      have hmem : item ∈ s.lender.outstanding := by
        unfold Lending.outstanding
        rw [hqueued]
        simp
      cases hreply : item.reply with
      | ok n =>
          have hitem : item.bytes = n := by rw [Completed.bytes, hreply]
          refine .took 0 ⟨hcalm.lost, hcalm.borrower, hcalm.lender, hcalm.toLender, hcalm.toBorrower, hcalm.recv⟩ hrecv
            (Nat.zero_le _) ?_ ?_
          · unfold inFlight Lending.outstanding
            rw [hqueued, hsend]
            simp only [handle, SendTask.buffered, List.map_append, List.map_cons, List.sum_append, List.sum_cons, hitem]
            omega
          · unfold Aborts Lending.outstanding
            rw [hqueued]
            simp only [handle, List.mem_append, List.mem_cons]
            constructor
            · rintro ⟨other, hother, hbad⟩
              exact ⟨other, by tauto, hbad⟩
            · rintro ⟨other, hother, e, hbad⟩
              have hne : other ≠ item := by
                rintro rfl
                rw [hreply] at hbad
                cases hbad
              exact ⟨other, by tauto, e, hbad⟩
      | error e =>
          exact .aborted ⟨item, hmem, e, hreply⟩ ⟨.inr (.inr (.inr (.inr (.inl rfl))))⟩
  | eventsEnded hsend hleft hqueued => exact absurd hcalm.recv hleft
  | joined hphase hdone hsend hresult => exact absurd (hcalm.recv.symm.trans hdone) nofun
  | libusbEnded hcancelled hlibusb => exact absurd hcancelled (Bool.eq_false_iff.mp hcalm.lender)
  | libusbJoined hphase hlibusb => exact absurd (hrunning.symm.trans hphase) nofun

end Drain

/-- What ends a drain: its own end, or what is in flight. -/
def Enough (s : Session) : Prop :=
  match s.borrower.recv with
  | .draining room _ => room ≤ s.inFlight ∨ s.Aborts
  | .done _ => True
  | .held | .main | .dropped => False

theorem enough_draining {room : Nat} {result : Except BorrowError Unit}
    (hrecv : s.borrower.recv = .draining room result) : s.Enough ↔ room ≤ s.inFlight ∨ s.Aborts := by
  unfold Enough
  rw [hrecv]

/-- Once the drain has ended, so will the session. -/
theorem done_of_turn (hs : s.Sound) {result : Except BorrowError Unit} (hrecv : s.borrower.recv = .done result)
    (h : s.Turn s') : s'.borrower.recv = .done result := by
  have hborrower := hs.borrower
  cases h with
  | registered hphase | refused e hphase =>
      rw [Borrowing.Sound, hphase, hrecv] at hborrower
      cases hborrower.2
  | borrowRecv m hmove =>
      have hover := (RecvTask.move_spec hmove).2.1
      rw [hrecv] at hover
      cases hover
  | handled hsend hqueued =>
      unfold handle
      split <;> exact hrecv
  | _ => exact hrecv

/-- What ends a drain goes on to do so. -/
theorem Enough.turn (hs : s.Sound) (hcalm : s.Calm) (henough : s.Enough) (h : s.Turn s') : s'.Ending ∨ s'.Enough := by
  cases hrecv : s.borrower.recv with
  | draining room result =>
      have hsome := (enough_draining hrecv).mp henough
      cases drains_of_turn hs hcalm hrecv h with
      | aborted haborts hending => exact .inl hending
      | full hroom hcalm' hrecv' =>
          right
          unfold Enough
          rw [hrecv']
          trivial
      | took n hcalm' hrecv' hle hbytes haborts =>
          right
          rw [enough_draining hrecv', haborts]
          exact hsome.imp_left fun hroom => by omega
  | done result =>
      right
      unfold Enough
      rw [done_of_turn hs hrecv h]
      trivial
  | held | main | dropped =>
      unfold Enough at henough
      rw [hrecv] at henough
      exact henough.elim

/-- A session that waits has nothing in flight. -/
theorem Waiting.not_enough (hw : s.Waiting) : ¬ s.Enough := by
  have houtstanding : s.lender.outstanding = [] := by
    unfold Lending.outstanding
    rw [hw.pending.1, hw.pending.2]
    rfl
  unfold Enough
  rcases hw.recv with hrecv | ⟨room, result, hroom, hrecv⟩
  · rw [hrecv]
    exact id
  · rw [hrecv]
    rintro (hle | ⟨item, hmem, -⟩)
    · have hnone : s.inFlight = 0 := by
        unfold inFlight
        rw [houtstanding, hw.toBorrower.1, hw.toBorrower.2.1]
        rfl
      omega
    · rw [houtstanding] at hmem
      cases hmem

theorem Finished.ending (hs : s.Sound) (hfinished : s.Finished) : s.Ending := by
  obtain ⟨⟨r, hphase⟩, -⟩ := hfinished
  have hborrower := hs.borrower
  rw [Borrowing.Sound, hphase] at hborrower
  refine ⟨.inr (.inr (.inr (.inl ?_)))⟩
  rw [hs.toLender.1, SendTask.not_isOpen hborrower.1]
  rfl

/-- **A failed receiving loop and the session.** The borrower's receiving loop has failed, and nothing else has
ended. If the environment does nothing more, both operations return if and only if the lender still has as many
bytes for the borrower as the drain has room for, or an error. -/
theorem failed_recv_settles_iff (hreach : Reach step (fun _ _ => True) start s) (hending : ¬ s.Ending) {room : Nat}
    {result : Except BorrowError Unit} (hrecv : s.borrower.recv = .draining room result) :
    Settles step Internal Finished s ↔ room ≤ s.inFlight ∨ s.Aborts := by
  have hsound := sound_of_reach hreach
  rw [← enough_draining hrecv]
  constructor
  · intro hsettles
    by_contra hfew
    obtain ⟨s₁, hreach₁, hfinished⟩ := hsettles.reach
    -- Along every run nothing ends, and the drain keeps more room than there are bytes.
    have hkept : s₁.Sound ∧ s₁.Calm ∧ (∃ room result, s₁.borrower.recv = .draining room result) ∧ ¬ s₁.Enough := by
      refine hreach₁.inv
        (I := fun s => s.Sound ∧ s.Calm ∧ (∃ room result, s.borrower.recv = .draining room result) ∧ ¬ s.Enough)
        ⟨hsound, calm_iff.mpr hending, ⟨room, result, hrecv⟩, hfew⟩ ?_
      rintro s e s' ⟨hs, hcalm, ⟨room, result, hrecv⟩, hfew⟩ he hok
      refine ⟨hs.step hok, ?_⟩
      rw [enough_draining hrecv, not_or] at hfew
      cases drains_of_turn hs hcalm hrecv (turn_of_step he hok) with
      | aborted haborts hending => exact absurd haborts hfew.2
      | full hroom hcalm' hrecv' => exact (hfew.1 (by omega)).elim
      | took n hcalm' hrecv' hle hbytes haborts =>
          refine ⟨hcalm', ⟨_, _, hrecv'⟩, ?_⟩
          rw [enough_draining hrecv', haborts, not_or]
          exact ⟨by omega, hfew.2⟩
    exact calm_iff.mp hkept.2.1 (hfinished.ending hkept.1)
  · intro henough
    refine settles_of_measure (I := fun s => s.Sound ∧ (s.Ending ∨ s.Enough)) (μ := weight)
      ⟨hsound, .inr henough⟩ ?_ ?_
    · rintro s e s' ⟨hs, hends⟩ he hok
      have hturn := turn_of_step he hok
      refine ⟨⟨hs.step hok, ?_⟩, weight_lt_of_turn hs hturn⟩
      by_cases hending : s.Ending
      · exact .inl (hending.step hok)
      · exact (hends.resolve_left hending).turn hs (calm_iff.mpr hending) hturn
    · rintro s ⟨hs, hends⟩ hstuck
      rcases finished_or_waiting hstuck hs with hfinished | hwaiting
      · exact hfinished
      · rcases hends with hending | henough
        · exact absurd hending hwaiting.not_ending
        · exact absurd henough hwaiting.not_enough

/-- A giveback fails in the driver, with so many bytes of a reply outstanding. -/
def recvFailedRun (n : Nat) : List Event :=
  [.borrow (.registered (.ok ())), .env (.completed ⟨.bulk, .ok n⟩), .env (.recvFailed 0 (.driver ⟨5⟩))]

theorem recvFailed_settles :
    (∃ s, run step start (recvFailedRun 24) = .ok s ∧ ¬ Settles step Internal Finished s) ∧
    ∃ s, run step start (recvFailedRun 536) = .ok s ∧ Settles step Internal Finished s := by
  have hcalm : ∀ n, ∃ s, run step start (recvFailedRun n) = .ok s ∧ ¬ s.Ending ∧
      s.borrower.recv = .draining 32 (.error (.vhci (.driver ⟨5⟩))) ∧ s.inFlight = n ∧ ¬ s.Aborts := by
    intro n
    refine ⟨_, rfl, calm_iff.mp ⟨rfl, rfl, rfl, rfl, rfl, rfl⟩, rfl, ?_, ?_⟩
    · show 0 + 0 + (n + 0) = n
      omega
    · rintro ⟨item, hitem, e, herror⟩
      obtain rfl := List.mem_singleton.mp hitem
      cases herror
  constructor
  · obtain ⟨s, hrun, hending, hrecv, hbytes, haborts⟩ := hcalm 24
    refine ⟨s, hrun, fun h => ?_⟩
    rcases (failed_recv_settles_iff (reach_of_run _ hrun) hending hrecv).mp h with hroom | hbad
    · omega
    · exact haborts hbad
  · obtain ⟨s, hrun, hending, hrecv, hbytes, -⟩ := hcalm 536
    exact ⟨s, hrun, (failed_recv_settles_iff (reach_of_run _ hrun) hending hrecv).mpr (.inl (by omega))⟩

end Session

end Qusb.Teardown

import Qusb.SendLoop.Loops
import Qusb.Session.Link

/-! The two loops of `lend`, and what a turn of them can do.

The receiving loop and the sending loop share the completions between them and the table of tokens; their streams and
their device are whatever happens next. -/

open ByteCodec Tables Runs

namespace Qusb

open Msg Proto

namespace Lend

structure LendLoops where
  recv : RecvLoop
  send : SendLoop

/-- The receiving loop takes a turn; the sending loop takes the completion with the given index, or another turn. -/
inductive LendEvent where
  | recv (event : RecvEvent)
  | lend (index : Nat)
  | flushBuf
  | flushComplete (result : Except IoError Unit)
  | closed

namespace LendLoops

def start (devId : UsbDeviceId) : LendLoops := ⟨.start, SendLoop.start devId⟩

variable (V : Vhci) (b : Build)

def stepRecv (x : LendLoops) (event : RecvEvent) : Except Fault LendLoops := do
  let recv ← x.recv.step V event
  return { x with recv := recv }

def stepSend (x : LendLoops) (event : SendEvent) : Except Fault LendLoops := do
  let send ← SendLoop.step b x.send event
  return { x with send := send }

/-- The loop takes a completion, and its handler the token of the URB. -/
def stepLend (x : LendLoops) (index : Nat) : Except Fault LendLoops :=
  if x.send.running then
    match x.recv.sent[index]? with
    | none => .ok x
    | some completed => do
        let (result, tokens) ← x.send.handler.handleEvent b x.recv.handler.tokens completed
        let handler := { x.recv.handler with tokens := tokens }
        return ⟨{ x.recv with handler := handler, sent := x.recv.sent.eraseIdx index }, x.send.lent result⟩
  else .ok x

def step (x : LendLoops) : LendEvent → Except Fault LendLoops
  | .recv event => x.stepRecv V event
  | .lend index => x.stepLend b index
  | .flushBuf => x.stepSend b .flushBuf
  | .flushComplete result => x.stepSend b (.flushComplete result)
  | .closed => x.stepSend b .closed

end LendLoops

variable {V : Vhci} {b : Build}

/-! ### What a turn can do -/

namespace LendLoops

/-- Everything that a turn of the two loops can do. -/
inductive Turn (b : Build) (x : LendLoops) : LendEvent → LendLoops → Prop
  | taken {seq : Seq (Data UrbFrame)} {r : InProgress × LendRecvHandler} (hrunning : x.recv.running = true)
      (htaken : Taken x.recv.handler seq r) :
      Turn b x (.recv (.frame (.urb seq))) { x with recv := x.recv.push r }
  | reset {seqnum : Seqnum} :
      Turn b x (.recv (.frame (.portReset seqnum))) { x with recv := x.recv.push (.reset seqnum, x.recv.handler) }
  | cancelled {seqnum : Seqnum} : Turn b x (.recv (.frame (.unlink seqnum)))
      { x with recv := { x.recv with handler := x.recv.handler.cancelUrb seqnum } }
  | completed {index : Nat} {o : Outcome} {item : InProgress} {completed : CompletedTransfer}
      (hitem : x.recv.inProgress[index]? = some item) (hcompleted : item.complete o = .ok completed) :
      Turn b x (.recv (.completed index o)) { x with recv := ⟨item.recycle x.recv.handler,
        x.recv.inProgress.eraseIdx index, x.recv.sent ++ [completed], x.recv.running⟩ }
  | ended {event : RecvEvent} (hevent : event = .frameError ∨ event = .closed) :
      Turn b x (.recv event) { x with recv := { x.recv with running := false } }
  | lent {index : Nat} {completed : CompletedTransfer} {result : Except UsbError LendSendHandler} {tokens : Tokens}
      (hrunning : x.send.running = true) (hitem : x.recv.sent[index]? = some completed)
      (hevent : x.send.handler.handleEvent b x.recv.handler.tokens completed = .ok (result, tokens)) :
      Turn b x (.lend index) ⟨{ x.recv with
        handler := { x.recv.handler with tokens := tokens }, sent := x.recv.sent.eraseIdx index }, x.send.lent result⟩
  | flushed {send : SendLoop} (hrunning : x.send.running = true) (hready : x.send.timerReady = true)
      (hflush : x.send.flushBuf = .ok send) : Turn b x .flushBuf { x with send := send }
  | wrote {result : Except IoError Unit} (hrunning : x.send.running = true) (hready : x.send.flusherReady = true) :
      Turn b x (.flushComplete result) { x with send := x.send.flushComplete result }
  | exited : Turn b x .closed { x with send := x.send.exit }
  /-- A loop that has ended, an index without an item or a completion, or an event that is not due. -/
  | idle {event : LendEvent} (hseq : ∀ seq, event = .recv (.frame (.urb seq)) → x.recv.running = false)
      (hlend : ∀ index, event = .lend index → x.send.running = true → x.recv.sent[index]? = none)
      (hflush : event = .flushBuf → (x.send.running && x.send.timerReady) = false) : Turn b x event x

theorem turn_of_step {x x' : LendLoops} {event : LendEvent} (hok : x.step V b event = .ok x') :
    Turn b x event x' := by
  cases event with
  | recv event =>
      obtain ⟨recv, hrecv, hok⟩ := bind_eq_ok_iff.mp hok
      cases hok
      unfold RecvLoop.step at hrecv
      split at hrecv
      · next hrunning =>
          cases event with
          | frame frame =>
              cases frame with
              | urb seq =>
                  obtain ⟨r, htaken, rfl⟩ := taken_of_stepUrb hrecv
                  exact .taken hrunning htaken
              | portReset seqnum =>
                  cases hrecv
                  exact .reset
              | unlink seqnum =>
                  cases hrecv
                  exact .cancelled
          | frameError =>
              cases hrecv
              exact .ended (.inl rfl)
          | closed =>
              cases hrecv
              exact .ended (.inr rfl)
          | completed index o =>
              simp only at hrecv
              split at hrecv
              · cases hrecv
                exact .idle (fun _ h => by cases h) (fun _ h => by cases h) (fun h => by cases h)
              · next item hitem =>
                  obtain ⟨completed, hcompleted, hrecv⟩ := bind_eq_ok_iff.mp hrecv
                  cases hrecv
                  exact .completed hitem hcompleted
      · next hended =>
          cases hrecv
          exact .idle (fun _ _ => Bool.eq_false_iff.mpr hended) (fun _ h => by cases h) (fun h => by cases h)
  | lend index =>
      simp only [step, stepLend] at hok
      split at hok
      · next hrunning =>
          split at hok
          · next hnone =>
              cases hok
              exact .idle (fun _ h => by cases h) (fun _ h _ => by cases h; exact hnone) (fun h => by cases h)
          · next completed hitem =>
              obtain ⟨⟨result, tokens⟩, hevent, hok⟩ := bind_eq_ok_iff.mp hok
              cases hok
              exact .lent hrunning hitem hevent
      · next hended =>
          cases hok
          exact .idle (fun _ h => by cases h) (fun _ _ h => absurd h hended) (fun h => by cases h)
  | flushBuf =>
      obtain ⟨send, hsend, hok⟩ := bind_eq_ok_iff.mp hok
      cases hok
      unfold SendLoop.step at hsend
      split at hsend
      · next hready =>
          obtain ⟨hrunning, hready⟩ := Bool.and_eq_true_iff.mp hready
          exact .flushed hrunning hready hsend
      · next hidle =>
          cases hsend
          exact .idle (fun _ h => by cases h) (fun _ h => by cases h) (fun _ => Bool.eq_false_iff.mpr hidle)
  | flushComplete result =>
      obtain ⟨send, hsend, hok⟩ := bind_eq_ok_iff.mp hok
      cases hok
      unfold SendLoop.step at hsend
      split at hsend
      · next hready =>
          obtain ⟨hrunning, hready⟩ := Bool.and_eq_true_iff.mp hready
          cases hsend
          exact .wrote hrunning hready
      · cases hsend
        exact .idle (fun _ h => by cases h) (fun _ h => by cases h) (fun h => by cases h)
  | closed =>
      obtain ⟨send, hsend, hok⟩ := bind_eq_ok_iff.mp hok
      cases hok
      unfold SendLoop.step at hsend
      split at hsend
      · cases hsend
        exact .exited
      · cases hsend
        exact .idle (fun _ h => by cases h) (fun _ h => by cases h) (fun h => by cases h)

end LendLoops
end Lend

/-! ### The loops of a link -/

section

variable {b : Build} {x : Lend.LendLoops} {index : Nat}

theorem Lend.LendLoops.stepLend_none (hnone : x.recv.sent[index]? = none) : x.stepLend b index = .ok x := by
  unfold stepLend
  split
  · rw [hnone]
  · rfl

theorem Lend.LendLoops.stepLend_some {completed : CompletedTransfer} {result : Except UsbError LendSendHandler}
    {tokens : Tokens} (hrunning : x.send.running = true) (hitem : x.recv.sent[index]? = some completed)
    (hevent : x.send.handler.handleEvent b x.recv.handler.tokens completed = .ok (result, tokens)) :
    x.stepLend b index = .ok ⟨{ x.recv with
      handler := { x.recv.handler with tokens := tokens }, sent := x.recv.sent.eraseIdx index },
      x.send.lent result⟩ := by
  unfold stepLend
  rw [if_pos hrunning, hitem]
  simp only [hevent, ok_bind]
  rfl

end

def Link.lendLoops (x : Link) : Lend.LendLoops := ⟨x.lend.recv, x.lend.send⟩

/-- A turn of a link is a turn of the lender's loops, or it leaves them as they are. -/
theorem Link.lendLoops_step {V : Vhci} {a : Alloc} {b : Build} {x x' : Link} {event : LinkEvent}
    (hok : x.step V a b event = .ok x') :
    x'.lendLoops = x.lendLoops ∨ ∃ e, x.lendLoops.step V b e = .ok x'.lendLoops := by
  have hrecv : ∀ {event : Lend.RecvEvent} {recv : Lend.RecvLoop}, x.lend.recv.step V event = .ok recv →
      x.lendLoops.step V b (.recv event) = .ok ⟨recv, x.lend.send⟩ := by
    intro event recv hrecv
    simp only [Lend.LendLoops.step, Lend.LendLoops.stepRecv, lendLoops, hrecv, ok_bind]
    rfl
  have hsend : ∀ {event : Lend.SendEvent} {e : Lend.LendEvent}, x.stepLendSend b event = .ok x' →
      x.lendLoops.step V b e = x.lendLoops.stepSend b event → x.lendLoops.step V b e = .ok x'.lendLoops := by
    intro event e hok heq
    obtain ⟨send, hsend, hok⟩ := bind_eq_ok_iff.mp hok
    cases hok
    rw [heq]
    simp only [Lend.LendLoops.stepSend, lendLoops, hsend, ok_bind]
    rfl
  cases event with
  | work work env =>
      simp only [Link.step, Link.stepWork] at hok
      split at hok
      · obtain ⟨⟨result, handler, linker⟩, -, hok⟩ := bind_eq_ok_iff.mp hok
        cases hok
        exact .inl rfl
      · cases hok
        exact .inl rfl
  | flushBuf | flushComplete | addressSet | workEnded =>
      obtain ⟨send, -, hok⟩ := bind_eq_ok_iff.mp hok
      cases hok
      exact .inl rfl
  | toLender chunks =>
      simp only [Link.step, Link.stepToLender] at hok
      split at hok
      · obtain ⟨received, -, hok⟩ := bind_eq_ok_iff.mp hok
        cases received with
        | none =>
            cases hok
            exact .inl rfl
        | some received =>
            obtain ⟨recv, hturn, hok⟩ := bind_eq_ok_iff.mp hok
            cases hok
            exact .inr ⟨_, hrecv hturn⟩
      · cases hok
        exact .inl rfl
  | completed index o =>
      obtain ⟨recv, hturn, hok⟩ := bind_eq_ok_iff.mp hok
      cases hok
      exact .inr ⟨_, hrecv hturn⟩
  | lend index =>
      refine .inr ⟨.lend index, ?_⟩
      by_cases hrunning : x.lend.send.running = true
      · cases hitem : x.lend.recv.sent[index]? with
        | none =>
            simp only [Link.step, Link.stepLend, hrunning, hitem, if_true, Except.ok.injEq] at hok
            rw [← hok]
            exact Lend.LendLoops.stepLend_none hitem
        | some completed =>
            simp only [Link.step, Link.stepLend, hrunning, hitem, if_true] at hok
            obtain ⟨⟨result, tokens⟩, hevent, hok⟩ := bind_eq_ok_iff.mp hok
            cases hok
            exact Lend.LendLoops.stepLend_some hrunning hitem hevent
      · simp only [Link.step, Link.stepLend, if_neg hrunning, Except.ok.injEq] at hok
        rw [← hok]
        exact if_neg hrunning
  | lendFlushBuf => exact .inr ⟨.flushBuf, hsend hok rfl⟩
  | lendFlushComplete result => exact .inr ⟨.flushComplete result, hsend hok rfl⟩
  | lendEnded => exact .inr ⟨.closed, hsend hok rfl⟩
  | toBorrower chunks resetDone =>
      simp only [Link.step, Link.stepToBorrower] at hok
      split at hok
      · obtain ⟨received, -, hok⟩ := bind_eq_ok_iff.mp hok
        cases received with
        | none =>
            cases hok
            exact .inl rfl
        | some received =>
            obtain ⟨recv, -, hok⟩ := bind_eq_ok_iff.mp hok
            cases hok
            exact .inl rfl
      · cases hok
        exact .inl rfl
  | giveback result =>
      obtain ⟨recv, -, hok⟩ := bind_eq_ok_iff.mp hok
      cases hok
      exact .inl rfl

/-- **The lender of a link** is reached by turns of its two loops, whatever is recorded beside them. -/
theorem Link.reach_lendLoops {V : Vhci} {a : Alloc} {b : Build} {C : Link → LinkEvent → Prop}
    {devId : Lend.UsbDeviceId} {cap : Nat} {x : Link} (hreach : Reach (Link.step V a b) C (.start devId cap) x)
    {γ : Type} (next : Lend.LendLoops → Lend.LendEvent → Lend.LendLoops → γ → γ) (history : γ) :
    ∃ history', Reach (track (Lend.LendLoops.step V b) next) (fun _ _ => True) (.start devId, history)
      (x.lendLoops, history') := by
  have hsim : ∀ (x : Link) (y : Lend.LendLoops × γ) event x', x.lendLoops = y.1 → C x event →
      x.step V a b event = .ok x' →
      ∃ y', Reach (track (Lend.LendLoops.step V b) next) (fun _ _ => True) y y' ∧ x'.lendLoops = y'.1 := by
    intro x y event x' heq _ hok
    rcases Link.lendLoops_step hok with hsame | ⟨e, hstep⟩
    · exact ⟨y, .start, hsame.trans heq⟩
    · rw [heq] at hstep
      exact ⟨(x'.lendLoops, next y.1 e x'.lendLoops y.2),
        .next e .start trivial (track_eq_ok.mpr ⟨hstep, rfl⟩), rfl⟩
  have hloops : ∃ y : Lend.LendLoops × γ,
      Reach (track (Lend.LendLoops.step V b) next) (fun _ _ => True) (.start devId, history) y ∧
        x.lendLoops = y.1 :=
    Reach.simulated (R := fun x (y : Lend.LendLoops × γ) => x.lendLoops = y.1) hreach rfl hsim
  obtain ⟨⟨loops, history'⟩, hloops, heq⟩ := hloops
  exact ⟨history', heq ▸ hloops⟩

end Qusb

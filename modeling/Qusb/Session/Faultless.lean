import Qusb.Session.Refinement

/-! When two programs whose drivers keep their side panic.

Almost every `unwrap`, assertion, checked sum and unchecked slice on the way of a URB relies on something that another
part of the code has done before: the tables on the numbering, the tokens on their table, the writer on the timer, and
each receiving handler on the sending handler of the peer. Two rely on others alone: a debug build of the borrower on
the address that the driver puts on a URB, and the items of the lender's loop on what the device and the other threads
answer. -/

open ByteCodec Tables Ledgers Runs

namespace Qusb

open Msg Proto Borrow Lend
open BorrowSendHandler LendRecvHandler

/-! ### The tokens -/

namespace Lend.RecvLoop

variable {V : Vhci} {recv recv' : RecvLoop}

/-- A submission registers at most one token, under its number. -/
theorem stepUrb_tokens {seq : Seq (Data UrbFrame)} (hok : recv.stepUrb V seq = .ok recv') :
    recv'.handler.tokens = recv.handler.tokens ∨
      recv'.handler.tokens = (recv.handler.tokens.registerCancelToken seq.seqnum).2 := by
  obtain ⟨r, htaken, rfl⟩ := taken_of_stepUrb hok
  cases htaken with
  | blocking hticket hsmall hiso => exact .inl rfl
  | small hticket hsmall hiso => exact .inr rfl
  | iso hkind hticket hsmall hremove hiso => exact .inr rfl

theorem step_tokens {event : RecvEvent} (hsound : recv.handler.tokens.Sound) (hok : recv.step V event = .ok recv') :
    recv'.handler.tokens.Sound := by
  unfold step at hok
  split at hok
  · cases event with
    | frame frame =>
        cases frame with
        | urb seq =>
            rcases stepUrb_tokens hok with h | h
            · rw [h]
              exact hsound
            · rw [h]
              exact hsound.register seq.seqnum
        | portReset seqnum =>
            cases hok
            exact hsound
        | unlink seqnum =>
            cases hok
            exact hsound.cancel seqnum
    | completed index o =>
        simp only at hok
        split at hok
        · cases hok
          exact hsound
        · next item hitem =>
            obtain ⟨completed, -, hok⟩ := bind_eq_ok_iff.mp hok
            cases hok
            have htokens : (item.recycle recv.handler).tokens = recv.handler.tokens := by
              cases item <;> rfl
            show (item.recycle recv.handler).tokens.Sound
            rw [htokens]
            exact hsound
    | frameError =>
        cases hok
        exact hsound
    | closed =>
        cases hok
        exact hsound
  · cases hok
    exact hsound

end Lend.RecvLoop

/-- Returning the token of a completion never fails. -/
theorem handleEvent_sound (b : Build) (h : LendSendHandler) {tokens : Tokens} (hsound : tokens.Sound)
    (completed : CompletedTransfer) :
    ∃ result tokens', h.handleEvent b tokens completed = .ok (result, tokens') ∧ tokens'.Sound := by
  have hreply : ∀ kind seqnum res endpoint interval rawIsoBuf numErrors numIsoPackets status,
      ∃ result tokens', h.completed b tokens kind seqnum res endpoint interval rawIsoBuf numErrors numIsoPackets
        status = .ok (result, tokens') ∧ tokens'.Sound := by
    intro kind seqnum res endpoint interval rawIsoBuf numErrors numIsoPackets status
    obtain ⟨tokens', htokens, hsound'⟩ := hsound.deregister b seqnum
    unfold LendSendHandler.completed
    rw [htokens]
    cases status with
    | ok u => exact ⟨_, tokens', rfl, hsound'⟩
    | error err =>
        cases err with
        | reportable err => exact ⟨_, tokens', rfl, hsound'⟩
        | abortable err => exact ⟨_, tokens', rfl, hsound'⟩
  cases completed with
  | reset seq => exact ⟨_, tokens, rfl, hsound⟩
  | ctrl seq => exact hreply _ _ _ _ _ _ _ _ _
  | int seq => exact hreply _ _ _ _ _ _ _ _ _
  | iso seq => exact hreply _ _ _ _ _ _ _ _ _
  | bulk seq => exact hreply _ _ _ _ _ _ _ _ _

section Turns

variable {V : Vhci} {a : Alloc} {b : Build} {x x' : Link} {s : Session} {t : Traffic}

/-- **No token is in two places**, whatever the programs do. -/
theorem Link.tokens_step {event : LinkEvent} (hsound : x.lend.recv.handler.tokens.Sound)
    (hok : x.step V a b event = .ok x') : x'.lend.recv.handler.tokens.Sound := by
  have hsend : ∀ event, x.stepSend V b event = .ok x' → x'.lend.recv.handler.tokens.Sound := by
    intro event hok
    obtain ⟨send, -, hok⟩ := bind_eq_ok_iff.mp hok
    cases hok
    exact hsound
  have hlendSend : ∀ event, x.stepLendSend b event = .ok x' → x'.lend.recv.handler.tokens.Sound := by
    intro event hok
    obtain ⟨send, -, hok⟩ := bind_eq_ok_iff.mp hok
    cases hok
    exact hsound
  cases event with
  | work work env =>
      simp only [Link.step, Link.stepWork] at hok
      split at hok
      · obtain ⟨⟨result, handler, linker⟩, -, hok⟩ := bind_eq_ok_iff.mp hok
        cases hok
        exact hsound
      · cases hok
        exact hsound
  | flushBuf => exact hsend _ hok
  | flushComplete result => exact hsend _ hok
  | addressSet result => exact hsend _ hok
  | workEnded => exact hsend _ hok
  | toLender chunks =>
      simp only [Link.step, Link.stepToLender] at hok
      split at hok
      · obtain ⟨received, -, hok⟩ := bind_eq_ok_iff.mp hok
        cases received with
        | none =>
            cases hok
            exact hsound
        | some received =>
            obtain ⟨recv, hturn, hok⟩ := bind_eq_ok_iff.mp hok
            cases hok
            exact Lend.RecvLoop.step_tokens hsound hturn
      · cases hok
        exact hsound
  | completed index o =>
      obtain ⟨recv, hturn, hok⟩ := bind_eq_ok_iff.mp hok
      cases hok
      exact Lend.RecvLoop.step_tokens hsound hturn
  | lend index =>
      simp only [Link.step, Link.stepLend] at hok
      split at hok
      · split at hok
        · cases hok
          exact hsound
        · next completed hitem =>
            obtain ⟨result, tokens, hevent, htokens⟩ := handleEvent_sound b x.lend.send.handler hsound completed
            rw [hevent] at hok
            cases hok
            exact htokens
      · cases hok
        exact hsound
  | lendFlushBuf => exact hlendSend _ hok
  | lendFlushComplete result => exact hlendSend _ hok
  | lendEnded => exact hlendSend _ hok
  | toBorrower chunks resetDone =>
      simp only [Link.step, Link.stepToBorrower] at hok
      split at hok
      · obtain ⟨received, -, hok⟩ := bind_eq_ok_iff.mp hok
        cases received with
        | none =>
            cases hok
            exact hsound
        | some received =>
            obtain ⟨recv, -, hok⟩ := bind_eq_ok_iff.mp hok
            cases hok
            exact hsound
      · cases hok
        exact hsound
  | giveback result =>
      obtain ⟨recv, -, hok⟩ := bind_eq_ok_iff.mp hok
      cases hok
      exact hsound

/-! ### What a turn asserts -/

/-- What the code asserts and no side of the contract promises: in debug builds a URB has the address that the
borrower knows, and an item that ends is answered as its future expects. -/
def Link.Honours (V : Vhci) (b : Build) (x : Link) : LinkEvent → Prop
  | .work (.processUrb urb _) _ => isSetAddress V urb = true ∨
      (b = .dev → x.borrow.send.writer.handler.addr = urb.address.get)
  | .completed index o => x.lend.recv.running = true →
      ∀ item, x.lend.recv.inProgress[index]? = some item → Answered o item
  | _ => True

/-! ### Turn by turn -/

theorem Refines.work_ok {work : Work} {env : WorkEnv} (href : Refines V x s t) (hcontract : x.Contract (.work work env))
    (hhonours : x.Honours V b (.work work env)) :
    ∃ r, x.borrow.send.writer.handler.handleWork V b env x.borrow.recv.linker work = .ok r := by
  have hsound := href.tracked.sound
  have hnext : x.borrow.send.writer.handler.curSeq.toNat + 1 < 2 ^ 32 →
      ∃ h, increment b x.borrow.send.writer.handler = .ok (x.borrow.send.writer.handler.curSeq, h) := by
    intro hlt
    refine ⟨{ x.borrow.send.writer.handler with curSeq := x.borrow.send.writer.handler.curSeq + 1 }, ?_⟩
    unfold increment
    rw [Build.addU32_of_lt b hlt]
    rfl
  cases work with
  | portStat next =>
      obtain ⟨hnumbered, hidle⟩ := hcontract
      obtain ⟨h, hinc⟩ := hnext hnumbered
      have hfresh : x.borrow.recv.linker.handles.lookup x.borrow.send.writer.handler.curSeq = none := by
        have hlookup := hsound.ledger.lookup_fresh hsound.fresh
        rw [href.abstracts.borrow] at hlookup
        exact hlookup
      suffices hstat : ∃ r, portStat b x.borrow.send.writer.handler x.borrow.recv.linker next env.random = .ok r by
        obtain ⟨r, hstat⟩ := hstat
        unfold handleWork
        simp only [hstat, ok_bind]
        exact ⟨_, rfl⟩
      unfold portStat
      split
      · exact ⟨_, rfl⟩
      · split
        · exact ⟨_, rfl⟩
        · split
          · exact ⟨_, rfl⟩
          · split
            · have hseqnum : assert (x.borrow.recv.linker.seqnums.lookup env.random = none) = .ok () :=
                assert_eq_ok_iff.mpr hidle
              have hhandle : assert (x.borrow.recv.linker.handles.lookup x.borrow.send.writer.handler.curSeq = none) =
                  .ok () := assert_eq_ok_iff.mpr hfresh
              simp only [hinc, ok_bind, hseqnum, hhandle]
              exact ⟨_, rfl⟩
            · exact ⟨_, rfl⟩
  | processUrb urb handle =>
      obtain ⟨hnumbered, -, hsendable, -⟩ := hcontract
      obtain ⟨h, hinc⟩ := hnext hnumbered
      unfold handleWork
      simp only
      by_cases hset : isSetAddress V urb = true
      · rw [if_pos hset]
        exact ⟨_, rfl⟩
      · rw [if_neg hset]
        have haddr := hhonours.resolve_left hset
        have hassert : b.debugAssert (x.borrow.send.writer.handler.addr = urb.address.get) = .ok () :=
          Build.debugAssert_eq_ok_iff.mpr haddr
        obtain ⟨fetched, hdata⟩ : ∃ fetched, urbData env.mem urb env.fetched = .ok fetched :=
          ⟨_, urbData_fits env.mem env.fetched hsendable.fits⟩
        unfold processUrb
        simp only [hassert, hinc, ok_bind, hdata]
        cases fetched with
        | ok data => exact ⟨_, rfl⟩
        | error e => exact ⟨_, rfl⟩
  | cancelUrb handle => exact ⟨_, rfl⟩

theorem Refines.send_ok {event : Borrow.SendEvent} (href : Refines V x s t)
    (hevent : ∀ work env linker, event ≠ .work work env linker) : ∃ x', x.stepSend V b event = .ok x' := by
  suffices hstep : ∃ send, x.borrow.send.step V b event = .ok send by
    obtain ⟨send, hstep⟩ := hstep
    unfold Link.stepSend
    rw [hstep]
    exact ⟨_, rfl⟩
  unfold Borrow.SendLoop.step
  split
  · next hready =>
      rw [Bool.and_eq_true] at hready
      cases event with
      | work work env linker => exact absurd rfl (hevent work env linker)
      | flushBuf =>
          obtain ⟨writer, hflush, -⟩ := href.borrowWriter.flushBuf (Writer.timer_of_ready hready.2)
          simp only [hflush, ok_bind]
          exact ⟨_, rfl⟩
      | flushComplete result => exact ⟨_, rfl⟩
      | setAddress result => cases result <;> exact ⟨_, rfl⟩
      | closed => exact ⟨_, rfl⟩
  · exact ⟨_, rfl⟩

theorem Refines.lendSend_ok {event : Lend.SendEvent} (href : Refines V x s t)
    (hevent : ∀ completed tokens, event ≠ .lend completed tokens) : ∃ x', x.stepLendSend b event = .ok x' := by
  suffices hstep : ∃ send, Lend.SendLoop.step b x.lend.send event = .ok send by
    obtain ⟨send, hstep⟩ := hstep
    unfold Link.stepLendSend
    rw [hstep]
    exact ⟨_, rfl⟩
  unfold Lend.SendLoop.step
  split
  · next hready =>
      rw [Bool.and_eq_true] at hready
      cases event with
      | lend completed tokens => exact absurd rfl (hevent completed tokens)
      | flushBuf =>
          obtain ⟨writer, hflush, -⟩ := href.lendWriter.flushBuf (Writer.timer_of_ready hready.2)
          exact ⟨writer, hflush⟩
      | flushComplete result => exact ⟨_, rfl⟩
      | closed => exact ⟨_, rfl⟩
  · exact ⟨_, rfl⟩

/-- The lender's loop takes up whatever the borrower's loop sends. -/
theorem Session.Tracked.takes_up (ht : Session.Tracked V s t) {f : Bytes} {rest : List Bytes} {frame : Frame}
    (hqueue : s.toLender = f :: rest) (hread : readFrame f = .ok (some frame)) :
    ∃ recv, s.lend.recv.step V (.frame frame) = .ok recv := by
  have hhead : f ∈ s.toLender := by
    rw [hqueue]
    exact List.mem_cons_self
  unfold Lend.RecvLoop.step
  split
  · cases frame with
    | urb seq =>
        obtain ⟨sub, hsub, -, hsent⟩ := ht.frames f hhead _ (ticketOf_eq hread)
        have hsendable := ht.sendable sub hsub
        obtain ⟨data, pad, hread', hsubmitted⟩ := hsent.read hsendable
        obtain rfl : seq = ⟨sub.seqnum, data⟩ :=
          Frame.urb.inj (Option.some.inj (Except.ok.inj (hread.symm.trans hread')))
        obtain ⟨item, handler, hstep, -⟩ := hsubmitted.stepUrb hsendable s.lend.recv ht.isos
        exact ⟨_, hstep⟩
    | portReset seqnum => exact ⟨_, rfl⟩
    | unlink seqnum => exact ⟨_, rfl⟩
  · exact ⟨_, rfl⟩

/-- The borrower's loop finds the pair of whatever the lender's loop replies. -/
theorem Session.Tracked.accepts_reply (ht : Session.Tracked V s t) {f : Bytes} {rest : List Bytes} {frame : Frame}
    (hqueue : s.toBorrower = f :: rest) (hread : readFrame f = .ok (some frame)) (resetDone : Except IoError Unit) :
    ∃ recv, s.borrow.recv.step (.frame frame resetDone) = .ok recv := by
  rw [Borrow.RecvLoop.step_ok_iff]
  intro hrunning
  obtain ⟨ticket, handle, hticket, hopen, -⟩ := ht.sound.expected hqueue hread
  cases frame with
  | urb seq =>
      obtain ⟨giveback, linker, hreply, -⟩ := ht.giveBack hqueue hread
      exact Borrow.urbReply_ok_iff.mp ⟨_, hreply⟩
  | portReset seqnum =>
      cases hticket
      exact Borrow.Linker.remove_ok_iff.mp ⟨_, ht.sound.remove hopen⟩
  | unlink seqnum => cases hticket

theorem Refines.toLender_ok {chunks : List Chunk} (href : Refines V x s t) :
    ∃ x', x.stepToLender V a b chunks = .ok x' := by
  unfold Link.stepToLender
  split
  · rcases (href.abstracts.toLender.receives a b).cases chunks with hcall | hcall
    · rw [hcall]
      exact ⟨_, rfl⟩
    · obtain ⟨f, rest, frame, inlet, hqueue, hread, hcall⟩ := hcall
      obtain ⟨recv, hturn⟩ := href.tracked.takes_up hqueue hread
      rw [href.abstracts.lend] at hturn
      rw [hcall]
      simp only [ok_bind, Option.elim_some, hturn]
      exact ⟨_, rfl⟩
  · exact ⟨_, rfl⟩

theorem Refines.toBorrower_ok {chunks : List Chunk} {resetDone : Except IoError Unit} (href : Refines V x s t) :
    ∃ x', x.stepToBorrower a b chunks resetDone = .ok x' := by
  unfold Link.stepToBorrower
  split
  · rcases (href.abstracts.toBorrower.receives a b).cases chunks with hcall | hcall
    · rw [hcall]
      exact ⟨_, rfl⟩
    · obtain ⟨f, rest, frame, inlet, hqueue, hread, hcall⟩ := hcall
      obtain ⟨recv, hturn⟩ := href.tracked.accepts_reply hqueue hread resetDone
      rw [href.abstracts.borrow] at hturn
      rw [hcall]
      simp only [ok_bind, Option.elim_some, hturn]
      exact ⟨_, rfl⟩
  · exact ⟨_, rfl⟩

theorem Refines.isos (href : Refines V x s t) : x.lend.recv.handler.isos.Sound := by
  have hisos := href.tracked.isos
  rw [href.abstracts.lend] at hisos
  exact hisos

theorem Refines.completed_ok {index : Nat} {o : Lend.Outcome} (href : Refines V x s t)
    (hhonours : x.Honours V b (.completed index o)) : ∃ x', x.step V a b (.completed index o) = .ok x' := by
  obtain ⟨recv, hturn⟩ : ∃ recv, x.lend.recv.step V (.completed index o) = .ok recv := by
    rw [Lend.RecvLoop.step_ok_iff href.isos]
    exact hhonours
  exact ⟨{ x with lend := { x.lend with recv := recv } }, by simp only [Link.step, hturn, ok_bind]; rfl⟩

theorem Link.lend_ok {index : Nat} (hsound : x.lend.recv.handler.tokens.Sound) : ∃ x', x.stepLend b index = .ok x' := by
  unfold Link.stepLend
  split
  · split
    · exact ⟨_, rfl⟩
    · next completed hitem =>
        obtain ⟨result, tokens, hevent, -⟩ := handleEvent_sound b x.lend.send.handler hsound completed
        rw [hevent]
        exact ⟨_, rfl⟩
  · exact ⟨_, rfl⟩

/-- **Every turn goes through.** -/
theorem Refines.step_ok {event : LinkEvent} (href : Refines V x s t) (hsound : x.lend.recv.handler.tokens.Sound)
    (hcontract : x.Contract event) (hhonours : x.Honours V b event) : ∃ x', x.step V a b event = .ok x' := by
  cases event with
  | work work env =>
      simp only [Link.step, Link.stepWork]
      split
      · obtain ⟨r, hwork⟩ := href.work_ok (b := b) hcontract hhonours
        rw [hwork]
        exact ⟨_, rfl⟩
      · exact ⟨_, rfl⟩
  | flushBuf => exact href.send_ok fun _ _ _ heq => by cases heq
  | flushComplete result => exact href.send_ok fun _ _ _ heq => by cases heq
  | addressSet result => exact href.send_ok fun _ _ _ heq => by cases heq
  | workEnded => exact href.send_ok fun _ _ _ heq => by cases heq
  | toLender chunks => exact href.toLender_ok
  | completed index o => exact href.completed_ok hhonours
  | lend index => exact Link.lend_ok hsound
  | lendFlushBuf => exact href.lendSend_ok fun _ _ heq => by cases heq
  | lendFlushComplete result => exact href.lendSend_ok fun _ _ heq => by cases heq
  | lendEnded => exact href.lendSend_ok fun _ _ heq => by cases heq
  | toBorrower chunks resetDone => exact href.toBorrower_ok
  | giveback result =>
      obtain ⟨recv, hturn⟩ := (x.borrow.recv.step_ok_iff (.givebackComplete result)).mpr trivial
      exact ⟨{ x with borrow := { x.borrow with recv := recv } }, by simp only [Link.step, hturn, ok_bind]; rfl⟩

/-- What goes through honours the assertions. -/
theorem Link.honours_of_ok {event : LinkEvent} (hsending : x.Sending) (hisos : x.lend.recv.handler.isos.Sound)
    (hok : ∃ x', x.step V a b event = .ok x') : x.Honours V b event := by
  obtain ⟨x', hok⟩ := hok
  cases event with
  | work work env =>
      cases work with
      | processUrb urb handle =>
          by_cases hset : isSetAddress V urb = true
          · exact .inl hset
          · simp only [Link.step, Link.stepWork, if_pos hsending.1, handleWork, if_neg hset] at hok
            obtain ⟨r, hwork, -⟩ := bind_eq_ok_iff.mp hok
            obtain ⟨r', hurb, -⟩ := bind_eq_ok_iff.mp hwork
            obtain ⟨u, hassert, -⟩ := bind_eq_ok_iff.mp hurb
            exact .inr (Build.debugAssert_eq_ok_iff.mp hassert)
      | portStat next => trivial
      | cancelUrb handle => trivial
  | completed index o =>
      obtain ⟨recv, hturn, -⟩ := bind_eq_ok_iff.mp hok
      exact (Lend.RecvLoop.step_ok_iff hisos _).mp ⟨recv, hturn⟩
  | _ => trivial

end Turns

/-! ### Whole runs -/

/-- **What can panic.** In every state that the two programs reach while the drivers keep their side, and as long as
both sending loops run, whatever happens next under the contract (a work item, a flush, some pieces of a stream, an
answer of the device, a reply or a giveback) goes through exactly if the two assertions hold that the contract does
not promise. -/
theorem link_faultless (V : Vhci) (a : Alloc) (b : Build) (devId : Lend.UsbDeviceId) (cap : Nat) {x : Link}
    {t : Traffic} (hreach : Reach (track (Link.step V a b) (Link.traffic a b)) (fun y event => y.1.Contract event)
      (Link.start devId cap, ⟨[], [], []⟩) (x, t)) (hsending : x.Sending) {event : LinkEvent}
    (hcontract : x.Contract event) : (∃ x', x.step V a b event = .ok x') ↔ x.Honours V b event := by
  obtain ⟨s, -, href⟩ := refines_reach hreach hsending
  have hsound : x.lend.recv.handler.tokens.Sound := by
    refine hreach.inv (I := fun y => y.1.lend.recv.handler.tokens.Sound) Tokens.sound_empty ?_
    intro y event y' hy _ hok
    exact Link.tokens_step hy (track_eq_ok.mp hok).1
  exact ⟨Link.honours_of_ok hsending href.isos, href.step_ok hsound hcontract⟩

/-- The same URB again, after it was given back. -/
theorem pieces_faultless :
    ∃ x x' : Link,
      x.step .usb .tight .dev (.work (.processUrb Session.bulkIn ⟨5⟩) (Session.delivering [])) = .ok x' := by
  obtain ⟨x, t, hreach, hsending, -, hhandler, hidle⟩ := pieces_reached
  have hsendable : Sendable Session.bulkIn := ⟨⟨by decide, by decide⟩, by decide, fun _ => rfl, nofun⟩
  have hfills : Fills Session.bulkIn [] [] := ⟨rfl, rfl⟩
  have hcontract : x.Contract (.work (.processUrb Session.bulkIn ⟨5⟩) (Session.delivering [])) := by
    refine ⟨by rw [hhandler]; decide, hidle, hsendable, ?_⟩
    rintro transfer isoRaw heq
    cases heq
    exact hfills
  have hhonours : x.Honours .usb .dev (.work (.processUrb Session.bulkIn ⟨5⟩) (Session.delivering [])) :=
    .inr fun _ => by rw [hhandler]; rfl
  exact ⟨x, (link_faultless .usb .tight .dev ⟨1, 2⟩ 32 hreach hsending hcontract).mpr hhonours⟩

end Qusb

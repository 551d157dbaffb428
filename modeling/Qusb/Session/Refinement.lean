import Qusb.Session.Streams

/-! The two programs over their streams stand for the two peers over their queues.

While both sending loops run, every state of the two programs is one of the two peers: the buffer of a handler is the
end of a stream, and a stream is a queue. A turn that only pushes bytes on changes nothing there, and every other turn
is one event of the peers. -/

open ByteCodec Tables Ledgers Runs

namespace Qusb

open Msg Proto Borrow Lend
open BorrowSendHandler LendRecvHandler

/-! ### The handlers and their buffers -/

theorem legible_bareHeader {command : Command} {status : Status} {seqnum : Seqnum} {frame : Frame}
    (hread : readFrame (bareHeader command status seqnum).asBytes = .ok (some frame)) :
    Legible (bareHeader command status seqnum).asBytes where
  wire := isWire_bareHeader command status seqnum
  short := by
    rw [Header.asBytes_length]
    decide
  read := ⟨frame, hread⟩

theorem legible_submitFrame {urb : IocUrb} {seqnum : Seqnum} {data : Bytes} (hsendable : Sendable urb)
    (hdata : data.length = dataLen urb) : Legible (submitFrame urb seqnum data) where
  wire := isWire_submitFrame hdata
  short := by
    have hsize := hsendable.size
    have hout : (urbHeader urb).paddedTransferLen * (urbHeader urb).isOut.toNat ≤
        (urbHeader urb).paddedTransferLen := by
      calc (urbHeader urb).paddedTransferLen * (urbHeader urb).isOut.toNat
          ≤ (urbHeader urb).paddedTransferLen * 1 := Nat.mul_le_mul_left _ (Bool.toNat_le _)
        _ = (urbHeader urb).paddedTransferLen := Nat.mul_one _
    rw [submitFrame_length hdata]
    unfold dataLen
    omega
  read := by
    obtain ⟨d, -, -, hread⟩ := readFrame_headers ⟨_, .cmdSubmit, .success, seqnum⟩ (urbHeader urb) data (.inl rfl)
    exact ⟨_, hread⟩

/-- The same handler, with nothing in its buffer. -/
def Borrow.BorrowSendHandler.flushed (h : BorrowSendHandler) : BorrowSendHandler := { h with buf := [] }

def Lend.LendSendHandler.flushed (h : LendSendHandler) : LendSendHandler := { h with buf := [] }

theorem increment_flushed {b : Build} {h h' : BorrowSendHandler} {seqnum : Seqnum}
    (hok : h.increment b = .ok (seqnum, h')) : seqnum = h.curSeq ∧ h'.buf = h.buf ∧
      h.flushed.increment b = .ok (seqnum, h'.flushed) := by
  obtain ⟨next, hnext, hok⟩ := bind_eq_ok_iff.mp hok
  cases hok
  refine ⟨rfl, rfl, ?_⟩
  unfold increment
  rw [show b.addU32 h.flushed.curSeq 1 = .ok next from hnext]
  rfl

theorem portStat_flushed {b : Build} {h h' : BorrowSendHandler} {linker linker' : Linker} {next : IocPortStat}
    {handle : UrbHandle} (hok : h.portStat b linker next handle = .ok (h', linker')) :
    ∃ f, h'.buf = h.buf ++ f ∧ (f = [] ∨ Legible f) ∧
      h.flushed.portStat b linker next handle = .ok ({ h' with buf := f }, linker') := by
  unfold portStat at hok
  split at hok
  · next hconnection =>
      cases hok
      exact ⟨[], (List.append_nil _).symm, .inl rfl, if_pos hconnection⟩
  · next hconnection =>
      split at hok
      · next hreset =>
          cases hok
          exact ⟨[], (List.append_nil _).symm, .inl rfl, (if_neg hconnection).trans (if_pos hreset)⟩
      · next hreset =>
          split at hok
          · next hoff =>
              cases hok
              refine ⟨[], (List.append_nil _).symm, .inl rfl, ?_⟩
              exact (if_neg hconnection).trans ((if_neg hreset).trans (if_pos hoff))
          · next hoff =>
              have hskip : h.flushed.portStat b linker next handle = _ :=
                (if_neg hconnection).trans ((if_neg hreset).trans (if_neg hoff))
              split at hok
              · next hsend =>
                  obtain ⟨⟨nextSeqnum, h₁⟩, hinc, hok⟩ := bind_eq_ok_iff.mp hok
                  obtain ⟨rfl, hbuf, hinc⟩ := increment_flushed hinc
                  obtain ⟨_, hseqnum, hok⟩ := bind_eq_ok_iff.mp hok
                  obtain ⟨_, hhandle, hok⟩ := bind_eq_ok_iff.mp hok
                  cases hok
                  refine ⟨_, congrArg (· ++ _) hbuf, .inr (legible_bareHeader (readFrame_cmdPort _)), ?_⟩
                  refine (hskip.trans (if_pos hsend)).trans ?_
                  simp only [hinc, hseqnum, hhandle, ok_bind]
                  rfl
              · next hsend =>
                  cases hok
                  exact ⟨[], (List.append_nil _).symm, .inl rfl, hskip.trans (if_neg hsend)⟩

theorem processUrb_flushed {b : Build} {mem : Nat → UInt8} {h h' : BorrowSendHandler} {linker linker' : Linker}
    {urb : IocUrb} {handle : UrbHandle} {fetched : Fetched} (hsendable : Sendable urb)
    (hok : h.processUrb b mem linker urb handle fetched = .ok (.ok (), h', linker')) :
    ∃ f, h'.buf = h.buf ++ f ∧ Legible f ∧
      h.flushed.processUrb b mem linker urb handle fetched = .ok (.ok (), { h' with buf := f }, linker') := by
  obtain ⟨_, hassert, hok⟩ := bind_eq_ok_iff.mp hok
  obtain ⟨⟨nextSeq, h₁⟩, hinc, hok⟩ := bind_eq_ok_iff.mp hok
  obtain ⟨rfl, hbuf, hinc⟩ := increment_flushed hinc
  obtain ⟨fetchedData, hdata, hok⟩ := bind_eq_ok_iff.mp hok
  cases fetchedData with
  | error e => cases hok
  | ok data =>
      cases hok
      refine ⟨_, congrArg (· ++ _) hbuf, legible_submitFrame hsendable (urbData_length hdata), ?_⟩
      have hassert' : b.debugAssert (h.flushed.addr = urb.address.get) = .ok () := hassert
      unfold processUrb
      simp only [hassert', hinc, hdata, ok_bind]
      rfl

/-- A work item is handled the same whatever waits in the buffer, and what it appends is a legible frame or nothing. -/
theorem handleWork_flushed {V : Vhci} {b : Build} {env : WorkEnv} {h h' : BorrowSendHandler}
    {linker linker' : Linker} {work : Work} {result : WorkResult}
    (hsendable : ∀ urb handle, work = .processUrb urb handle → Sendable urb)
    (hok : h.handleWork V b env linker work = .ok (result, h', linker'))
    (hgoes : ∀ e, result ≠ .processUrb (.error e)) :
    ∃ f, h'.buf = h.buf ++ f ∧ (f = [] ∨ Legible f) ∧
      h.flushed.handleWork V b env linker work = .ok (result, { h' with buf := f }, linker') := by
  cases work with
  | portStat next =>
      obtain ⟨⟨h₁, linker₁⟩, hstat, hok⟩ := bind_eq_ok_iff.mp hok
      cases hok
      obtain ⟨f, hbuf, hf, hstat⟩ := portStat_flushed hstat
      refine ⟨f, hbuf, hf, ?_⟩
      unfold handleWork
      simp only [hstat, ok_bind]
      rfl
  | processUrb urb handle =>
      unfold handleWork at hok ⊢
      simp only at hok ⊢
      split at hok
      · next hset =>
          cases hok
          exact ⟨[], (List.append_nil _).symm, .inl rfl, if_pos hset⟩
      · next hset =>
          obtain ⟨⟨result₁, h₁, linker₁⟩, hurb, hok⟩ := bind_eq_ok_iff.mp hok
          cases hok
          cases result₁ with
          | error e => exact absurd rfl (hgoes e)
          | ok u =>
              obtain ⟨f, hbuf, hf, hurb⟩ := processUrb_flushed (hsendable urb handle rfl) hurb
              refine ⟨f, hbuf, .inr hf, ?_⟩
              rw [if_neg hset]
              simp only [hurb, ok_bind]
              rfl
  | cancelUrb handle =>
      cases hok
      unfold handleWork
      simp only [cancelUrb_eq]
      refine ⟨_, rfl, ?_, rfl⟩
      cases linker.seqnums.lookup handle with
      | none => exact .inl rfl
      | some seqnum => exact .inr (legible_bareHeader (readFrame_cmdUnlink _))

/-- A completion is handled the same whatever waits in the buffer. -/
theorem handleEvent_flushed {b : Build} {h h' : LendSendHandler} {tokens tokens' : Tokens}
    {completed : CompletedTransfer} (hok : h.handleEvent b tokens completed = .ok (.ok h', tokens')) :
    ∃ f, h'.buf = h.buf ++ f ∧ h.flushed.handleEvent b tokens completed = .ok (.ok { h' with buf := f }, tokens') := by
  have hreply : ∀ kind seqnum res endpoint interval rawIsoBuf numErrors numIsoPackets status,
      h.completed b tokens kind seqnum res endpoint interval rawIsoBuf numErrors numIsoPackets status =
        .ok (.ok h', tokens') →
      ∃ f, h'.buf = h.buf ++ f ∧ h.flushed.completed b tokens kind seqnum res endpoint interval rawIsoBuf numErrors
        numIsoPackets status = .ok (.ok { h' with buf := f }, tokens') := by
    intro kind seqnum res endpoint interval rawIsoBuf numErrors numIsoPackets status hok
    obtain ⟨tokens₁, htokens, hok⟩ := bind_eq_ok_iff.mp hok
    unfold LendSendHandler.completed
    rw [htokens]
    cases status with
    | ok u =>
        cases hok
        exact ⟨_, rfl, rfl⟩
    | error err =>
        cases err with
        | reportable err =>
            cases hok
            exact ⟨_, rfl, rfl⟩
        | abortable err => cases hok
  cases completed with
  | reset seq =>
      obtain ⟨seqnum, result⟩ := seq
      cases result with
      | ok u =>
          cases hok
          exact ⟨_, rfl, rfl⟩
      | error e => cases hok
  | ctrl seq => exact hreply _ _ _ _ _ _ _ _ _ hok
  | int seq => exact hreply _ _ _ _ _ _ _ _ _ hok
  | iso seq => exact hreply _ _ _ _ _ _ _ _ _ hok
  | bulk seq => exact hreply _ _ _ _ _ _ _ _ _ hok

/-- The reply to a recorded URB is legible because the request was. -/
theorem Session.Tracked.legible_reply {V : Vhci} {b : Build} {s : Session} {t : Traffic} {h h' : LendSendHandler}
    {tokens tokens' : Tokens} {completed : CompletedTransfer} {f : Bytes} (ht : Tracked V s t)
    (hmem : completed ∈ s.lend.recv.sent) (hok : h.handleEvent b tokens completed = .ok (.ok h', tokens'))
    (hbuf : h'.buf = h.buf ++ f) : Legible f := by
  cases hc : completed.completion with
  | none =>
      cases completed with
      | reset seq =>
          obtain ⟨seqnum, result⟩ := seq
          cases result with
          | ok u =>
              cases hok
              rw [← List.append_cancel_left hbuf]
              exact legible_bareHeader (readFrame_retPort _)
          | error e => cases hok
      | ctrl seq => cases hc
      | int seq => cases hc
      | iso seq => cases hc
      | bulk seq => cases hc
  | some c =>
      have hticket : completed.ticket = .urb c.seqnum := by
        cases completed with
        | reset seq => cases hc
        | ctrl seq => cases hc; rfl
        | int seq => cases hc; rfl
        | iso seq => cases hc; rfl
        | bulk seq => cases hc; rfl
      obtain ⟨sub, hsub, -, o, -, c', hc', hanswer⟩ := ht.completions completed hmem _ (congrArg some hticket)
      obtain rfl := Option.some.inj (hc.symm.trans hc')
      obtain ⟨status, -, hframe⟩ := handleEvent_frame hc hok
      obtain ⟨hres, hlt⟩ := hanswer.frame_lt (ht.sendable sub hsub) status
      rw [← List.append_cancel_left (hframe.symm.trans hbuf)]
      obtain ⟨data, -, -, hread⟩ := readFrame_completion c status
      refine ⟨isWire_replyFrame _ _ _ _ _ _ _ hres ?_, hlt, _, hread⟩
      rw [hanswer.packets]
      exact Dvd.intro_left _ (Nat.mul_comm _ _)

/-! ### The abstraction -/

/-- The state of the two peers that a state of the two programs stands for. -/
structure Abstracts (x : Link) (s : Session) : Prop where
  borrow : s.borrow = ⟨x.borrow.send.writer.handler.flushed, true, x.borrow.recv⟩
  lend : s.lend = ⟨x.lend.recv, x.lend.send.handler.flushed, true⟩
  toLender : x.lend.inlet.Holds x.borrow.send.writer.sent x.borrow.send.writer.buf s.toLender
  toBorrower : x.borrow.inlet.Holds x.lend.send.sent x.lend.send.buf s.toBorrower

/-- The peers keep their record, and the variables of each sending loop belong together. -/
structure Refines (V : Vhci) (x : Link) (s : Session) (t : Traffic) : Prop where
  abstracts : Abstracts x s
  tracked : Session.Tracked V s t
  borrowWriter : x.borrow.send.writer.Consistent
  lendWriter : x.lend.send.Consistent

theorem refines_start (V : Vhci) (devId : Lend.UsbDeviceId) (cap : Nat) :
    Refines V (Link.start devId cap) (Session.start devId) ⟨[], [], []⟩ where
  abstracts := ⟨rfl, rfl, ⟨le_rfl, rfl, nofun⟩, ⟨le_rfl, rfl, nofun⟩⟩
  tracked := Session.tracked_start V devId
  borrowWriter := Writer.consistent_start rfl
  lendWriter := Writer.consistent_start rfl

/-- What the peers do while the programs take a turn. -/
def Matched (V : Vhci) (b : Build) (s : Session) (t : Traffic) (x' : Link) (t' : Traffic) : Prop :=
  ∃ s', Reach (track (Session.step V b) Session.traffic) (fun y event => y.1.Contract event) (s, t) (s', t') ∧
    Refines V x' s' t'

section Turns

variable {V : Vhci} {a : Alloc} {b : Build} {x x' : Link} {s s' : Session} {t t' : Traffic}

/-- A turn that the peers do not see. -/
theorem Refines.idle (hrefines : Refines V x' s t) (htraffic : t' = t) : Matched V b s t x' t' := by
  subst htraffic
  exact ⟨s, .start, hrefines⟩

/-- A turn that is one event of the peers. -/
theorem Refines.matched {event : SessionEvent} (hrefines : Refines V x s t)
    (hstep : s.step V b event = .ok s') (hcontract : s.Contract event)
    (htraffic : Session.traffic s event s' t = t') (habstracts : Abstracts x' s')
    (hborrow : x'.borrow.send.writer.Consistent) (hlend : x'.lend.send.Consistent) : Matched V b s t x' t' := by
  have htracked := Session.tracked_step hrefines.tracked hcontract hstep
  rw [htraffic] at htracked
  refine ⟨s', .next event .start hcontract ?_, habstracts, htracked, hborrow, hlend⟩
  exact track_eq_ok.mpr ⟨hstep, htraffic.symm⟩

/-! ### The sending loops -/

theorem flushed_of_pushes {w w' : Writer BorrowSendHandler} (hpushes : Pushes w w') :
    w'.handler.flushed = w.handler.flushed := by
  rcases hpushes.handler with h | h
  · rw [h]
  · rw [h]
    rfl

theorem lend_flushed_of_pushes {w w' : Writer LendSendHandler} (hpushes : Pushes w w') :
    w'.handler.flushed = w.handler.flushed := by
  rcases hpushes.handler with h | h
  · rw [h]
  · rw [h]
    rfl

theorem refines_send {event : Borrow.SendEvent} (href : Refines V x s t) (hok : x.stepSend V b event = .ok x')
    (hevent : ∀ work env linker, event ≠ .work work env linker) (hsending : x'.Sending) : Matched V b s t x' t := by
  obtain ⟨send, hstep, hok⟩ := bind_eq_ok_iff.mp hok
  cases hok
  have hpushes := pushes_send href.borrowWriter hstep hevent hsending.1
  refine Refines.idle ⟨⟨?_, href.abstracts.lend, ?_, href.abstracts.toBorrower⟩, href.tracked, ?_, href.lendWriter⟩ rfl
  · rw [flushed_of_pushes hpushes]
    exact href.abstracts.borrow
  · exact href.abstracts.toLender.pushed hpushes
  · exact Borrow.SendLoop.consistent_step (fun _ => href.borrowWriter) hstep hsending.1

theorem refines_lendSend {event : Lend.SendEvent} (href : Refines V x s t) (hok : x.stepLendSend b event = .ok x')
    (hevent : ∀ completed tokens, event ≠ .lend completed tokens) (hsending : x'.Sending) : Matched V b s t x' t := by
  obtain ⟨send, hstep, hok⟩ := bind_eq_ok_iff.mp hok
  cases hok
  have hpushes := pushes_lendSend href.lendWriter hstep hevent hsending.2
  refine Refines.idle ⟨⟨href.abstracts.borrow, ?_, href.abstracts.toLender, ?_⟩, href.tracked, href.borrowWriter, ?_⟩
    rfl
  · rw [lend_flushed_of_pushes hpushes]
    exact href.abstracts.lend
  · exact href.abstracts.toBorrower.pushed hpushes
  · exact Lend.SendLoop.consistent_step (fun _ => href.lendWriter) hstep hsending.2

/-- The loop that goes on after a work item has what the handler made of it in its buffer, and nothing moved on. -/
theorem worked_goes {loop : Borrow.SendLoop} {result : WorkResult} {handler : BorrowSendHandler}
    (hrunning : (loop.worked result handler).writer.running = true) :
    (∀ e, result ≠ .processUrb (.error e)) ∧ (loop.worked result handler).writer.handler = handler ∧
      (loop.worked result handler).writer.sent = loop.writer.sent := by
  have hsolicited : ∀ w : Writer BorrowSendHandler,
      w = (if loop.writer.state = .solicit && !(loop.writer.handled handler).isBufEmpty then
        (loop.writer.handled handler).armTimer else loop.writer.handled handler) →
      w.handler = handler ∧ w.sent = loop.writer.sent := by
    rintro w rfl
    split <;> exact ⟨rfl, rfl⟩
  cases result with
  | setAddress => exact ⟨nofun, rfl, rfl⟩
  | mustveBeenTheWind => exact ⟨nofun, hsolicited _ rfl⟩
  | processUrb result =>
      cases result with
      | ok u => exact ⟨nofun, hsolicited _ rfl⟩
      | error e => exact absurd hrunning (Writer.not_running_exit _)

theorem lent_goes {loop : Lend.SendLoop} {result : Except UsbError LendSendHandler}
    (hrunning : (loop.lent result).running = true) :
    ∃ handler, result = .ok handler ∧ (loop.lent result).handler = handler ∧ (loop.lent result).sent = loop.sent := by
  cases result with
  | error e => exact absurd hrunning loop.not_running_exit
  | ok handler =>
      refine ⟨handler, rfl, ?_⟩
      unfold Lend.SendLoop.lent
      simp only
      split <;> exact ⟨rfl, rfl⟩

/-- A work item that the loop survives, as a turn of the borrower that the peers know. -/
theorem step_work {env : WorkEnv} {h handler : BorrowSendHandler} {recv : Borrow.RecvLoop} {linker : Linker}
    {work : Work} {result : WorkResult} (hwork : h.handleWork V b env recv.linker work = .ok (result, handler, linker))
    (hgoes : ∀ e, result ≠ .processUrb (.error e)) :
    Borrower.step V b ⟨h, true, recv⟩ (.work work env) = .ok ⟨handler, true, { recv with linker := linker }⟩ := by
  unfold Borrower.step
  simp only [hwork, ok_bind, if_true]
  cases result with
  | setAddress => rfl
  | mustveBeenTheWind => rfl
  | processUrb result =>
      cases result with
      | ok u => rfl
      | error e => exact absurd rfl (hgoes e)

/-- What the tables and the counter say of the drivers, the history says. -/
theorem Refines.contract_work {work : Work} {env : WorkEnv} (hrefines : Refines V x s t)
    (hcontract : x.Contract (.work work env)) : s.Contract (.work work env 0) := by
  have hborrow := hrefines.abstracts.borrow
  have hsound := hrefines.tracked.sound
  have hfiled : s.history.filed.length = x.borrow.send.writer.handler.curSeq.toNat := by
    rw [← hsound.numbered, hborrow]
    rfl
  have hlive : ∀ handle, x.borrow.recv.linker.seqnums.lookup handle = none → ¬ s.history.Live handle := by
    rintro handle hnone ⟨ticket, hopen⟩
    have hlookup := hsound.ledger.lookup_key hopen
    rw [hborrow] at hlookup
    exact nomatch hnone.symm.trans hlookup
  cases work with
  | portStat next =>
      obtain ⟨hnumbered, hnone⟩ := hcontract
      exact ⟨⟨by rw [hfiled]; exact hnumbered, hlive _ hnone⟩, trivial⟩
  | processUrb urb handle =>
      obtain ⟨hnumbered, hnone, hsendable, hfilled⟩ := hcontract
      exact ⟨⟨by rw [hfiled]; exact hnumbered, hlive _ hnone⟩, hsendable, hfilled⟩
  | cancelUrb handle => exact ⟨trivial, trivial⟩

theorem refines_work {work : Work} {env : WorkEnv} (href : Refines V x s t)
    (hcontract : x.Contract (.work work env)) (hok : x.stepWork V b work env = .ok x') (hsending : x'.Sending) :
    Matched V b s t x' (x.traffic a b (.work work env) x' t) := by
  unfold Link.stepWork at hok
  split at hok
  · next hrunning =>
      obtain ⟨⟨result, handler, linker⟩, hwork, hok⟩ := bind_eq_ok_iff.mp hok
      cases hok
      obtain ⟨hgoes, hhandler, hsent⟩ := worked_goes hsending.1
      have hsendable : ∀ urb handle, work = .processUrb urb handle → Sendable urb := by
        rintro urb handle rfl
        exact hcontract.2.2.1
      obtain ⟨f, hbuf, hf, hflushed⟩ := handleWork_flushed hsendable hwork hgoes
      have hloop : x.borrow.send.step V b (.work work env x.borrow.recv.linker) =
          .ok (x.borrow.send.worked result handler) := by
        unfold Borrow.SendLoop.step
        rw [if_pos (by rw [hrunning]; rfl)]
        simp only [hwork, ok_bind]
        rfl
      -- The peers take the same work item, with nothing in the buffer before it.
      have hstep : s.step V b (.work work env 0) = .ok { s with
          borrow := ⟨handler.flushed, true, { x.borrow.recv with linker := linker }⟩
          toLender := s.toLender ++ Session.appended f
          history := Session.number s.history work env.random x.borrow.send.writer.handler.curSeq handler.curSeq } := by
        show s.stepWork V b work env 0 = _
        unfold Session.stepWork
        rw [href.abstracts.borrow, step_work hflushed hgoes]
        rfl
      refine href.matched hstep (href.contract_work hcontract) ?_
        ⟨?_, href.abstracts.lend, ?_, href.abstracts.toBorrower⟩
        (Borrow.SendLoop.consistent_step (fun _ => href.borrowWriter) hloop hsending.1) href.lendWriter
      · cases work with
        | portStat next => rfl
        | cancelUrb handle => rfl
        | processUrb urb handle =>
            show (if handler.curSeq = s.borrow.send.curSeq then t else _) =
              if (x.borrow.send.worked result handler).writer.handler.curSeq = _ then t else _
            rw [hhandler, href.abstracts.borrow]
            rfl
      · show _ = (⟨(x.borrow.send.worked result handler).writer.handler.flushed, _, _⟩ : Borrower)
        rw [hhandler]
      · show Inlet.Holds _ (x.borrow.send.worked result handler).writer.sent
          (SendBuf.buf (x.borrow.send.worked result handler).writer.handler) _
        rw [hhandler, hsent]
        have happend := href.abstracts.toLender.append hf
        have hmore : SendBuf.buf handler = x.borrow.send.writer.buf ++ f := hbuf
        rw [hmore]
        exact happend
  · next hstopped =>
      cases hok
      exact absurd hsending.1 hstopped

theorem refines_lend {index : Nat} (href : Refines V x s t) (hok : x.stepLend b index = .ok x')
    (hsending : x'.Sending) : Matched V b s t x' t := by
  unfold Link.stepLend at hok
  split at hok
  · next hrunning =>
      split at hok
      · cases hok
        exact href.idle rfl
      · next completed hitem =>
          obtain ⟨⟨result, tokens⟩, hevent, hok⟩ := bind_eq_ok_iff.mp hok
          cases hok
          obtain ⟨handler, rfl, hhandler, hsent⟩ := lent_goes hsending.2
          obtain ⟨f, hbuf, hflushed⟩ := handleEvent_flushed hevent
          have hlend := href.abstracts.lend
          have hmem : completed ∈ s.lend.recv.sent := by
            rw [hlend]
            exact List.mem_of_getElem? hitem
          have hlegible : Legible f := href.tracked.legible_reply hmem hevent hbuf
          have hloop : Lend.SendLoop.step b x.lend.send (.lend completed x.lend.recv.handler.tokens) =
              .ok (Lend.SendLoop.lent x.lend.send (.ok handler)) := by
            unfold Lend.SendLoop.step
            rw [if_pos (by rw [hrunning]; rfl)]
            simp only [hevent, ok_bind]
            rfl
          have hstep : s.step V b (.reply index 0) = .ok { s with
              lend := { s.lend with
                recv := { x.lend.recv with
                  handler := { x.lend.recv.handler with tokens := tokens }
                  sent := x.lend.recv.sent.eraseIdx index }
                send := handler.flushed }
              toBorrower := s.toBorrower ++ Session.appended f } := by
            show s.stepReply b index 0 = _
            unfold Session.stepReply
            rw [if_pos (by rw [hlend])]
            simp only [hlend, hitem, hflushed, ok_bind, Session.replied]
            rfl
          refine href.matched hstep ⟨trivial, trivial⟩ rfl ⟨href.abstracts.borrow, ?_, href.abstracts.toLender, ?_⟩
            href.borrowWriter (Lend.SendLoop.consistent_step (fun _ => href.lendWriter) hloop hsending.2)
          · show _ = (⟨_, (Lend.SendLoop.lent x.lend.send (.ok handler)).handler.flushed, _⟩ : Lender)
            rw [hhandler, hlend]
          · show Inlet.Holds _ (Lend.SendLoop.lent x.lend.send (.ok handler)).sent
              (SendBuf.buf (Lend.SendLoop.lent x.lend.send (.ok handler)).handler) _
            rw [hhandler, hsent]
            have hmore : SendBuf.buf handler = Writer.buf x.lend.send ++ f := hbuf
            rw [hmore]
            exact href.abstracts.toBorrower.append (.inr hlegible)
  · next hstopped =>
      cases hok
      exact absurd hsending.2 hstopped

/-! ### The receiving loops -/

/-- A loop that has ended takes up nothing. -/
theorem Link.arriving_stopped (x : Link) {chunks : List Chunk} (hstopped : ¬ x.lend.recv.running = true) :
    x.arriving a b chunks = none := by
  unfold Link.arriving
  split
  · next frame inlet hrecv =>
      unfold Lend.RecvLoop.takes
      split
      · exact if_neg hstopped
      · rfl
  · rfl

theorem refines_toLender {chunks : List Chunk} (href : Refines V x s t)
    (hok : x.stepToLender V a b chunks = .ok x') :
    Matched V b s t x' (x.traffic a b (.toLender chunks) x' t) := by
  unfold Link.stepToLender at hok
  split at hok
  · next hrunning =>
      obtain ⟨received, hrecv, hok⟩ := bind_eq_ok_iff.mp hok
      cases received with
      | none =>
          cases hok
          refine href.idle ?_
          show { t with taken := t.taken ++ (x.arriving a b chunks).toList } = t
          unfold Link.arriving
          rw [hrecv]
          exact congrArg (fun taken => { t with taken := taken }) (List.append_nil _)
      | some received =>
          obtain ⟨frame, inlet⟩ := received
          obtain ⟨recv, hturn, hok⟩ := bind_eq_ok_iff.mp hok
          cases hok
          obtain ⟨f, rest, hqueue, hread, hholds⟩ := href.abstracts.toLender.recv hrecv
          have hlend := href.abstracts.lend
          have hstep : s.step V b .toLender = .ok { s with
              toLender := rest, lend := { s.lend with recv := recv } } := by
            show s.stepToLender V = _
            unfold Session.stepToLender
            rw [hqueue]
            simp only [hread, ok_bind, hlend, hturn]
            rfl
          refine href.matched hstep ⟨trivial, trivial⟩ ?_ ⟨href.abstracts.borrow, ?_, hholds, href.abstracts.toBorrower⟩
            href.borrowWriter href.lendWriter
          · show { t with taken := t.taken ++ s.arriving.toList } =
              { t with taken := t.taken ++ (x.arriving a b chunks).toList }
            unfold Session.arriving Link.arriving
            rw [hqueue, hrecv, hlend]
            simp only [hread]
          · rw [hlend]
  · next hstopped =>
      cases hok
      refine href.idle ?_
      show { t with taken := t.taken ++ (x.arriving a b chunks).toList } = t
      rw [x.arriving_stopped hstopped]
      exact congrArg (fun taken => { t with taken := taken }) (List.append_nil _)

theorem refines_completed {index : Nat} {o : Lend.Outcome} (href : Refines V x s t)
    (hcontract : x.Contract (.completed index o)) (hok : x.step V a b (.completed index o) = .ok x') :
    Matched V b s t x' (x.traffic a b (.completed index o) x' t) := by
  obtain ⟨recv, hturn, hok⟩ := bind_eq_ok_iff.mp hok
  cases hok
  have hlend := href.abstracts.lend
  have hstep : s.step V b (.completed index o) = .ok { s with lend := { s.lend with recv := recv } } := by
    show s.stepCompleted V index o = _
    unfold Session.stepCompleted
    simp only [hlend, hturn, ok_bind]
    rfl
  refine href.matched hstep ⟨trivial, ?_⟩ ?_ ⟨href.abstracts.borrow, ?_, href.abstracts.toLender,
    href.abstracts.toBorrower⟩ href.borrowWriter href.lendWriter
  · show ∀ item, s.lend.recv.inProgress[index]? = some item → AllPackets o item
    rw [hlend]
    exact hcontract
  · unfold Session.traffic Link.traffic
    simp only [hlend]
  · rw [hlend]

theorem refines_toBorrower {chunks : List Chunk} {resetDone : Except IoError Unit} (href : Refines V x s t)
    (hok : x.stepToBorrower a b chunks resetDone = .ok x') : Matched V b s t x' t := by
  unfold Link.stepToBorrower at hok
  split at hok
  · next hrunning =>
      obtain ⟨received, hrecv, hok⟩ := bind_eq_ok_iff.mp hok
      cases received with
      | none =>
          cases hok
          exact href.idle rfl
      | some received =>
          obtain ⟨frame, inlet⟩ := received
          obtain ⟨recv, hturn, hok⟩ := bind_eq_ok_iff.mp hok
          cases hok
          obtain ⟨f, rest, hqueue, hread, hholds⟩ := href.abstracts.toBorrower.recv hrecv
          have hborrow := href.abstracts.borrow
          have hstep : s.step V b (.toBorrower resetDone) = .ok { s with
              toBorrower := rest, borrow := { s.borrow with recv := recv }
              history := Session.settle s.history frame s.borrow.recv recv } := by
            show s.stepToBorrower resetDone = _
            unfold Session.stepToBorrower
            rw [hqueue]
            simp only [hread, ok_bind, hborrow, hturn]
            rfl
          refine href.matched hstep ⟨trivial, trivial⟩ rfl ⟨?_, href.abstracts.lend, href.abstracts.toLender, hholds⟩
            href.borrowWriter href.lendWriter
          rw [hborrow]
  · cases hok
    exact href.idle rfl

theorem refines_giveback {result : Except IoError Unit} (href : Refines V x s t)
    (hok : x.step V a b (.giveback result) = .ok x') : Matched V b s t x' t := by
  obtain ⟨recv, hturn, hok⟩ := bind_eq_ok_iff.mp hok
  cases hok
  have hborrow := href.abstracts.borrow
  have hstep : s.step V b (.giveback result) = .ok { s with borrow := { s.borrow with recv := recv } } := by
    show s.stepGiveback result = _
    unfold Session.stepGiveback
    simp only [hborrow, hturn, ok_bind]
    rfl
  refine href.matched hstep ⟨trivial, trivial⟩ rfl ⟨?_, href.abstracts.lend, href.abstracts.toLender,
    href.abstracts.toBorrower⟩ href.borrowWriter href.lendWriter
  rw [hborrow]

/-- **Every turn is matched**, as long as both sending loops run. -/
theorem refines_step {event : LinkEvent} (href : Refines V x s t) (hcontract : x.Contract event)
    (hok : x.step V a b event = .ok x') (hsending : x'.Sending) : Matched V b s t x' (x.traffic a b event x' t) := by
  cases event with
  | work work env => exact refines_work href hcontract hok hsending
  | flushBuf => exact refines_send href hok (fun _ _ _ heq => by cases heq) hsending
  | flushComplete result => exact refines_send href hok (fun _ _ _ heq => by cases heq) hsending
  | addressSet result => exact refines_send href hok (fun _ _ _ heq => by cases heq) hsending
  | workEnded => exact refines_send href hok (fun _ _ _ heq => by cases heq) hsending
  | toLender chunks => exact refines_toLender href hok
  | completed index o => exact refines_completed href hcontract hok
  | lend index => exact refines_lend href hok hsending
  | lendFlushBuf => exact refines_lendSend href hok (fun _ _ heq => by cases heq) hsending
  | lendFlushComplete result => exact refines_lendSend href hok (fun _ _ heq => by cases heq) hsending
  | lendEnded => exact refines_lendSend href hok (fun _ _ heq => by cases heq) hsending
  | toBorrower chunks resetDone => exact refines_toBorrower href hok
  | giveback result => exact refines_giveback href hok

/-- A sending loop that has ended does not run again. -/
theorem Link.sending_of_step {event : LinkEvent} (hok : x.step V a b event = .ok x') (hsending : x'.Sending) :
    x.Sending := by
  have hsend : ∀ event, x.stepSend V b event = .ok x' → x.Sending := by
    intro event hok
    obtain ⟨send, hstep, hok⟩ := bind_eq_ok_iff.mp hok
    cases hok
    refine ⟨?_, hsending.2⟩
    by_contra hstopped
    have hsame : x.borrow.send.step V b event = .ok x.borrow.send := if_neg (by simp [hstopped])
    obtain rfl := Except.ok.inj (hsame.symm.trans hstep)
    exact hstopped hsending.1
  have hlendSend : ∀ event, x.stepLendSend b event = .ok x' → x.Sending := by
    intro event hok
    obtain ⟨send, hstep, hok⟩ := bind_eq_ok_iff.mp hok
    cases hok
    refine ⟨hsending.1, ?_⟩
    by_contra hstopped
    have hsame : Lend.SendLoop.step b x.lend.send event = .ok x.lend.send := if_neg (by simp [hstopped])
    obtain rfl := Except.ok.inj (hsame.symm.trans hstep)
    exact hstopped hsending.2
  cases event with
  | work work env =>
      simp only [Link.step, Link.stepWork] at hok
      split at hok
      · next hrunning =>
          obtain ⟨⟨result, handler, linker⟩, -, hok⟩ := bind_eq_ok_iff.mp hok
          cases hok
          exact ⟨hrunning, hsending.2⟩
      · cases hok
        exact hsending
  | flushBuf => exact hsend _ hok
  | flushComplete result => exact hsend _ hok
  | addressSet result => exact hsend _ hok
  | workEnded => exact hsend _ hok
  | toLender chunks =>
      simp only [Link.step, Link.stepToLender] at hok
      split at hok
      · obtain ⟨received, -, hok⟩ := bind_eq_ok_iff.mp hok
        cases received with
        | none =>
            cases hok
            exact hsending
        | some received =>
            obtain ⟨recv, -, hok⟩ := bind_eq_ok_iff.mp hok
            cases hok
            exact hsending
      · cases hok
        exact hsending
  | completed index o =>
      obtain ⟨recv, -, hok⟩ := bind_eq_ok_iff.mp hok
      cases hok
      exact hsending
  | lend index =>
      simp only [Link.step, Link.stepLend] at hok
      split at hok
      · next hrunning =>
          split at hok
          · cases hok
            exact hsending
          · obtain ⟨⟨result, tokens⟩, -, hok⟩ := bind_eq_ok_iff.mp hok
            cases hok
            exact ⟨hsending.1, hrunning⟩
      · cases hok
        exact hsending
  | lendFlushBuf => exact hlendSend _ hok
  | lendFlushComplete result => exact hlendSend _ hok
  | lendEnded => exact hlendSend _ hok
  | toBorrower chunks resetDone =>
      simp only [Link.step, Link.stepToBorrower] at hok
      split at hok
      · obtain ⟨received, -, hok⟩ := bind_eq_ok_iff.mp hok
        cases received with
        | none =>
            cases hok
            exact hsending
        | some received =>
            obtain ⟨recv, -, hok⟩ := bind_eq_ok_iff.mp hok
            cases hok
            exact hsending
      · cases hok
        exact hsending
  | giveback result =>
      obtain ⟨recv, -, hok⟩ := bind_eq_ok_iff.mp hok
      cases hok
      exact hsending

/-- A call that returns, with the turn that it leads to. -/
theorem track_toLender {chunks : List Chunk} {frame : Option Frame} {inlet : Inlet} {recv : Lend.RecvLoop}
    (hrunning : x.lend.recv.running = true)
    (hcall : x.lend.inlet.recv a b x.borrow.send.writer.sent chunks = .ok (some (frame, inlet)))
    (hturn : x.lend.recv.step V (frame.elim .frameError .frame) = .ok recv) :
    track (Link.step V a b) (Link.traffic a b) (x, t) (.toLender chunks) =
      .ok ({ x with lend := { x.lend with recv := recv, inlet := inlet } },
        { t with taken := t.taken ++ (x.lend.recv.takes frame).toList }) := by
  refine track_eq_ok.mpr ⟨?_, ?_⟩
  · show x.stepToLender V a b chunks = _
    unfold Link.stepToLender
    rw [if_pos hrunning, hcall]
    simp only [ok_bind, hturn]
    rfl
  · show _ = { t with taken := t.taken ++ (x.arriving a b chunks).toList }
    unfold Link.arriving
    rw [hcall]

theorem track_toBorrower {chunks : List Chunk} {resetDone : Except IoError Unit} {frame : Option Frame} {inlet : Inlet}
    {recv : Borrow.RecvLoop} (hrunning : x.borrow.recv.running = true)
    (hcall : x.borrow.inlet.recv a b x.lend.send.sent chunks = .ok (some (frame, inlet)))
    (hturn : x.borrow.recv.step (frame.elim Borrow.RecvEvent.frameError fun frame => .frame frame resetDone) =
      .ok recv) :
    track (Link.step V a b) (Link.traffic a b) (x, t) (.toBorrower chunks resetDone) =
      .ok ({ x with borrow := { x.borrow with recv := recv, inlet := inlet } }, t) := by
  refine track_eq_ok.mpr ⟨?_, rfl⟩
  show x.stepToBorrower a b chunks resetDone = _
  unfold Link.stepToBorrower
  rw [if_pos hrunning, hcall]
  simp only [ok_bind, hturn]
  rfl
end Turns

/-! ### Whole runs -/

/-- As long as both sending loops run, the peers have the same record and stand for the programs. -/
def Simulated (V : Vhci) (y : Link × Traffic) (z : Session × Traffic) : Prop :=
  y.1.Sending → y.2 = z.2 ∧ Refines V y.1 z.1 z.2

theorem simulated_step {V : Vhci} {a : Alloc} {b : Build} {y y' : Link × Traffic} {z : Session × Traffic}
    {event : LinkEvent} (hsim : Simulated V y z) (hcontract : y.1.Contract event)
    (hok : track (Link.step V a b) (Link.traffic a b) y event = .ok y') :
    ∃ z', Reach (track (Session.step V b) Session.traffic) (fun z event => z.1.Contract event) z z' ∧
      Simulated V y' z' := by
  obtain ⟨hstep, htraffic⟩ := track_eq_ok.mp hok
  by_cases hsending : y'.1.Sending
  · obtain ⟨hrecord, href⟩ := hsim (Link.sending_of_step hstep hsending)
    rw [hrecord] at htraffic
    obtain ⟨s', hreach, href'⟩ := refines_step href hcontract hstep hsending
    exact ⟨_, hreach, fun _ => ⟨htraffic, htraffic ▸ href'⟩⟩
  · exact ⟨z, .start, fun hsending' => absurd hsending' hsending⟩

theorem refines_reach {V : Vhci} {a : Alloc} {b : Build} {devId : Lend.UsbDeviceId} {cap : Nat} {x : Link} {t : Traffic}
    (hreach : Reach (track (Link.step V a b) (Link.traffic a b)) (fun y event => y.1.Contract event)
      (Link.start devId cap, ⟨[], [], []⟩) (x, t)) (hsending : x.Sending) :
    ∃ s, Reach (track (Session.step V b) Session.traffic) (fun z event => z.1.Contract event)
      (Session.start devId, ⟨[], [], []⟩) (s, t) ∧ Refines V x s t := by
  have hstart : Simulated V (Link.start devId cap, ⟨[], [], []⟩) (Session.start devId, ⟨[], [], []⟩) :=
    fun _ => ⟨rfl, refines_start V devId cap⟩
  obtain ⟨⟨s, t'⟩, hreach', hsim⟩ := hreach.simulated hstart fun _ _ _ _ => simulated_step
  obtain ⟨rfl, href⟩ := hsim hsending
  exact ⟨s, hreach', href⟩

/-- The frame of a URB that asks for two bytes. -/
def request : Bytes := submitFrame Session.bulkIn 0 []

/-- The frame of the reply to it. -/
def reply : Bytes := LendSendHandler.replyFrame .bulk 0 (.in [1, 2]) ⟨0x81⟩ 0 [] 0 0 .success

/-- A frame that arrives in two pieces, the first of which ends inside its header. -/
def pieces (f : Bytes) (h : f.take 5 ≠ [] ∧ f.drop 5 ≠ []) : List Chunk := [⟨f.take 5, h.1⟩, ⟨f.drop 5, h.2⟩]

theorem Legible.arrives {f : Bytes} {frame : Frame} (hf : Legible f) (hread : readFrame f = .ok (some frame)) (h) :
    ∃ inlet', Inlet.recv .tight .dev ⟨.withCapacity 32, 0⟩ f (pieces f h) = .ok (some (some frame, inlet')) := by
  have hholds : Inlet.Holds ⟨.withCapacity 32, 0⟩ f [] [f] := by
    refine ⟨Nat.zero_le _, ?_, List.forall_mem_singleton.mpr hf⟩
    show [] ++ (f ++ []).drop 0 = _
    rw [List.flatten_singleton, List.drop_zero, List.nil_append, List.append_nil]
  have hbytes : (Reader.ofChunks (pieces f h)).bytes = f := by
    show f.take 5 ++ (f.drop 5 ++ []) = f
    rw [List.append_nil, List.take_append_drop]
  have harrived : Inlet.Arrived ⟨.withCapacity 32, 0⟩ f (pieces f h) := by
    show (Reader.ofChunks (pieces f h)).bytes <+: f.drop 0
    rw [hbytes]
    exact List.prefix_rfl
  have hcall := hholds.receives .tight .dev _ harrived
  simp only [hbytes, if_pos (Nat.le_add_left f.length _)] at hcall
  obtain ⟨frame', inlet', hread', hcall⟩ := hcall
  obtain rfl := Option.some.inj (Except.ok.inj (hread.symm.trans hread'))
  exact ⟨inlet', hcall⟩

/-- A URB there and back, with both frames in pieces. -/
theorem pieces_reached :
    ∃ x t, Reach (track (Link.step .usb .tight .dev) (Link.traffic .tight .dev)) (fun y event => y.1.Contract event)
        (Link.start ⟨1, 2⟩ 32, ⟨[], [], []⟩) (x, t) ∧ x.Sending ∧
      x.borrow.recv.givenBack = [⟨⟨5⟩, .bulk, .success, .in [1, 2], []⟩] ∧
      x.borrow.send.writer.handler = { BorrowSendHandler.new with curSeq := 1 } ∧
      x.borrow.recv.linker.seqnums.lookup ⟨5⟩ = none := by
  have hsendable : Sendable Session.bulkIn := ⟨⟨by decide, by decide⟩, by decide, fun _ => rfl, nofun⟩
  have hfilled : Submission.Filled ⟨0, Session.bulkIn, ⟨5⟩, .ok ([], [])⟩ := by
    rintro transfer isoRaw heq
    cases heq
    exact ⟨rfl, rfl⟩
  have hstart : Reach (track (Link.step .usb .tight .dev) (Link.traffic .tight .dev))
    (fun y event => y.1.Contract event) (Link.start ⟨1, 2⟩ 32, ⟨[], [], []⟩)
    (Link.start ⟨1, 2⟩ 32, ⟨[], [], []⟩) := .start
  have hsent := hstart
    |>.next (LinkEvent.work (.processUrb Session.bulkIn ⟨5⟩) (Session.delivering []))
      ⟨by decide, rfl, hsendable, hfilled⟩ rfl
    |>.next LinkEvent.flushBuf trivial rfl
  have hrequest : Legible request := legible_submitFrame hsendable rfl
  obtain ⟨inlet, hcall⟩ := hrequest.arrives (h := by decide) rfl
  have hdone := hsent
    |>.next (LinkEvent.toLender (pieces request (by decide))) trivial (track_toLender rfl hcall rfl)
    |>.next (LinkEvent.completed 0 (Session.bulkAnswer [1, 2])) (fun item hitem => by cases hitem; trivial) rfl
    |>.next (LinkEvent.lend 0) trivial rfl
    |>.next LinkEvent.lendFlushBuf trivial rfl
  have hreply : Legible reply := ⟨isWire_replyFrame _ _ _ _ _ _ _ (by decide) (by decide), by decide, _, rfl⟩
  obtain ⟨inlet', hcall'⟩ := hreply.arrives (h := by decide) rfl
  have hback := hdone.next (LinkEvent.toBorrower (pieces reply (by decide)) (.ok ())) trivial
    (track_toBorrower rfl hcall' rfl)
  exact ⟨_, _, hback, ⟨rfl, rfl⟩, rfl, rfl, rfl⟩
/-- **The streams carry the session.** Whatever the two programs do over their streams, wherever the pieces begin and
end that arrive, and whenever the buffers are flushed: as long as both sending loops run and the drivers keep their
side, the programs are in a state that the two peers reach over queues of frames, with the same record, and each
receiving loop takes the next frame of its queue as soon as that frame has arrived. -/
theorem link_refines (V : Vhci) (a : Alloc) (b : Build) (devId : Lend.UsbDeviceId) (cap : Nat) {x : Link} {t : Traffic}
    (hreach : Reach (track (Link.step V a b) (Link.traffic a b)) (fun y event => y.1.Contract event)
      (Link.start devId cap, ⟨[], [], []⟩) (x, t)) (hsending : x.Sending) :
    ∃ s, Reach (track (Session.step V b) Session.traffic) (fun y event => y.1.Contract event)
        (Session.start devId, ⟨[], [], []⟩) (s, t) ∧ Abstracts x s ∧
      x.lend.inlet.Receives a b x.borrow.send.writer.sent s.toLender ∧
      x.borrow.inlet.Receives a b x.lend.send.sent s.toBorrower := by
  obtain ⟨s, hreach', href⟩ := refines_reach hreach hsending
  exact ⟨s, hreach', href.abstracts, href.abstracts.toLender.receives a b, href.abstracts.toBorrower.receives a b⟩

theorem pieces_refines :
    ∃ x, x.borrow.recv.givenBack = [⟨⟨5⟩, .bulk, .success, .in [1, 2], []⟩] ∧ ∃ s, Abstracts x s := by
  obtain ⟨x, t, hreach, hsending, hgiven, -⟩ := pieces_reached
  obtain ⟨s, -, habstracts, -⟩ := link_refines .usb .tight .dev ⟨1, 2⟩ 32 hreach hsending
  exact ⟨x, hgiven, s, habstracts⟩

/-- The drivers see of the two programs what they see of the two peers. -/
theorem link_transparent (V : Vhci) (a : Alloc) (b : Build) (devId : Lend.UsbDeviceId) (cap : Nat) {x : Link}
    {t : Traffic} (hreach : Reach (track (Link.step V a b) (Link.traffic a b)) (fun y event => y.1.Contract event)
      (Link.start devId cap, ⟨[], [], []⟩) (x, t)) (hsending : x.Sending) :
    Session.Transparent V t x.borrow.recv.givenBack := by
  obtain ⟨s, -, href⟩ := refines_reach hreach hsending
  have htransparent := href.tracked.transparent
  rw [href.abstracts.borrow] at htransparent
  exact htransparent

theorem pieces_transparent :
    ∃ t, Session.Transparent .usb t [⟨⟨5⟩, .bulk, .success, .in [1, 2], []⟩] := by
  obtain ⟨x, t, hreach, hsending, hgiven, -⟩ := pieces_reached
  have htransparent := link_transparent .usb .tight .dev ⟨1, 2⟩ 32 hreach hsending
  rw [hgiven] at htransparent
  exact ⟨t, htransparent⟩

end Qusb

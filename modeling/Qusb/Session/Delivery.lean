import Mathlib.Data.List.Perm.Subperm
import Qusb.Session.Peers

/-! Every URB is completed at most once, under its own handle.

Each event of a session keeps the invariant: the tables hold the open pairs of the history, and every
ticket on its way, in a frame or with the lender, is that of an open pair and is there once. So a reply
always finds its pair, and an unlink that comes too late finds no token. -/

open ByteCodec Tables Ledgers

namespace Qusb

open Msg Proto

namespace Session

variable {V : Vhci} {b : Build}

/-! ### The borrower takes a work item -/

theorem ticketOf_nil : ticketOf [] = none := rfl

theorem tickets_appended (f : Bytes) : (appended f).filterMap ticketOf = (ticketOf f).toList := by
  unfold appended
  split
  · next hempty =>
      rw [hempty, ticketOf_nil]
      rfl
  · rw [List.filterMap_cons, List.filterMap_nil]
    cases ticketOf f with
    | none => rfl
    | some t => rfl

theorem tickets_cons (f : Bytes) (rest : List Bytes) :
    (f :: rest).filterMap ticketOf = (ticketOf f).toList ++ rest.filterMap ticketOf := by
  rw [List.filterMap_cons]
  cases ticketOf f with
  | none => rfl
  | some t => rfl

theorem ne_of_addU32 {n next : UInt32} (h : b.addU32 n 1 = .ok next) : next ≠ n := by
  rw [(Build.addU32_eq_ok_iff.mp h).1]
  intro heq
  have hnat := congrArg UInt32.toNat heq
  rw [UInt32.toNat_add] at hnat
  have hone : (1 : UInt32).toNat = 1 := rfl
  have hlt := n.toNat_lt
  omega

/-- What the sending side did with a work item: it left the counter and the tables alone and appended no
frame with a ticket, or it took a number, filed it and appended the frame with its ticket, unless the
send loop ended. -/
inductive Worked (b : Build) (s s' : Borrow.Borrower) (work : Work) (random : UrbHandle) : Prop
  | quiet (hseq : s'.send.curSeq = s.send.curSeq) (hlinker : s'.recv.linker = s.recv.linker)
      (hframes : (appended s'.send.buf).filterMap ticketOf = [])
  | filed (t : Ticket) (h : UrbHandle) (hfiling : filing work random s.send.curSeq = some (t, h))
      (hkey : t.seqnum = s.send.curSeq) (hnext : b.addU32 s.send.curSeq 1 = .ok s'.send.curSeq)
      (hlinker : s'.recv.linker = s.recv.linker.insert h s.send.curSeq)
      (hframes : s'.sending = true → (appended s'.send.buf).filterMap ticketOf = [t])

theorem worked_of_step {s s' : Borrow.Borrower} {work : Work} {env : Borrow.BorrowSendHandler.WorkEnv}
    (hbuf : s.send.buf = []) (hok : s.step V b (.work work env) = .ok s') :
    s'.recv.givenBack = s.recv.givenBack ∧ Worked b s s' work env.random := by
  unfold Borrow.Borrower.step at hok
  simp only at hok
  split at hok
  · obtain ⟨⟨result, send, linker⟩, hwork, hok⟩ := bind_eq_ok_iff.mp hok
    cases hok
    refine ⟨rfl, ?_⟩
    cases work with
    | portStat next =>
        obtain ⟨⟨send₁, linker₁⟩, hstat, hwork⟩ := bind_eq_ok_iff.mp hwork
        cases hwork
        rcases Borrow.BorrowSendHandler.portStat_ok hstat with ⟨hb, hseq, rfl⟩ | ⟨-, -, rfl, hnext, hb⟩
        · refine .quiet hseq rfl ?_
          rw [hb, hbuf]
          rfl
        · refine .filed (.reset s.send.curSeq) env.random rfl rfl hnext rfl fun _ => ?_
          rw [hb, hbuf, List.nil_append]
          rw [tickets_appended, ticketOf_eq (readFrame_cmdPort _)]
          rfl
    | processUrb urb handle =>
        unfold Borrow.BorrowSendHandler.handleWork at hwork
        simp only at hwork
        split at hwork
        · cases hwork
          refine .quiet rfl rfl ?_
          show (appended s.send.buf).filterMap ticketOf = []
          rw [hbuf]
          rfl
        · obtain ⟨⟨result₁, send₁, linker₁⟩, hurb, hwork⟩ := bind_eq_ok_iff.mp hwork
          cases hwork
          obtain ⟨rfl, hnext, hdata⟩ := Borrow.BorrowSendHandler.processUrb_ok hurb
          refine .filed (.urb s.send.curSeq) handle rfl rfl hnext rfl fun hsending => ?_
          cases result₁ with
          | ok u =>
              obtain ⟨data, -, hb⟩ := hdata
              rw [hb, hbuf, List.nil_append]
              rw [tickets_appended, ticketOf_submitFrame]
              rfl
          | error e => cases hsending
    | cancelUrb handle =>
        cases hwork
        rw [Borrow.BorrowSendHandler.cancelUrb_eq]
        refine .quiet rfl rfl ?_
        show (appended (s.send.buf ++ _)).filterMap ticketOf = []
        rw [hbuf, List.nil_append]
        rw [tickets_appended]
        cases s.recv.linker.seqnums.lookup handle with
        | none => rfl
        | some n =>
            show (ticketOf (bareHeader .cmdUnlink .success n).asBytes).toList = []
            rw [ticketOf_eq (readFrame_cmdUnlink n)]
            rfl
  · cases hok
    refine ⟨rfl, .quiet rfl rfl ?_⟩
    rw [hbuf]
    rfl

theorem loseLast_sublist (frames : List Bytes) (lost : Nat) :
    (loseLast frames lost).Sublist frames := List.take_sublist _ _

theorem filing_live {s : Session} {work : Work} {env : Borrow.BorrowSendHandler.WorkEnv} {lost : Nat}
    {t : Ticket} {h : UrbHandle} {n : Seqnum} (hallowed : s.Allowed (.work work env lost))
    (hfiling : filing work env.random n = some (t, h)) :
    s.history.filed.length + 1 < 2 ^ 32 ∧ ¬ s.history.Live h := by
  cases work with
  | portStat next =>
      cases hfiling
      exact hallowed
  | processUrb urb handle =>
      cases hfiling
      exact hallowed
  | cancelUrb handle => cases hfiling

theorem toNat_of_addU32 {n next : UInt32} (h : b.addU32 n 1 = .ok next) (hlt : n.toNat + 1 < 2 ^ 32) :
    next.toNat = n.toNat + 1 := by
  have hone : (1 : UInt32).toNat = 1 := rfl
  rw [(Build.addU32_eq_ok_iff.mp h).1, UInt32.toNat_add, hone]
  exact Nat.mod_eq_of_lt hlt

theorem sound_work {s s' : Session} {work : Work} {env : Borrow.BorrowSendHandler.WorkEnv} {lost : Nat}
    (hs : s.Sound) (hallowed : s.Allowed (.work work env lost))
    (hok : s.stepWork V b work env lost = .ok s') : s'.Sound := by
  obtain ⟨borrow, hborrow, hok⟩ := bind_eq_ok_iff.mp hok
  cases hok
  obtain ⟨hgiven, hworked⟩ := worked_of_step hs.flushed.1 hborrow
  cases hworked with
  | quiet hseq hlinker hframes =>
      have hhist : number s.history work env.random s.borrow.send.curSeq borrow.send.curSeq = s.history :=
        if_pos hseq
      have hqueue : ((if borrow.sending then s.toLender ++ appended borrow.send.buf
          else loseLast s.toLender lost).filterMap ticketOf).Sublist (s.toLender.filterMap ticketOf) := by
        split
        · rw [List.filterMap_append, hframes, List.append_nil]
        · exact (loseLast_sublist _ _).filterMap _
      constructor
      · exact ⟨rfl, hs.flushed.2⟩
      · rw [hhist]
        exact (congrArg UInt32.toNat hseq).trans hs.numbered
      · rw [hhist]
        exact hs.earlier
      · rw [hhist, hlinker]
        exact hs.ledger
      · rw [hhist]
        exact hs.custody.of_subperm (hqueue.append_right _).subperm
      · exact hs.held
      · exact hs.replies
      · rw [hhist, hgiven]
        exact hs.givenBack
  | filed t h hfiling hkey hnext hlinker hframes =>
      obtain ⟨hlength, hidle⟩ := filing_live hallowed hfiling
      have hhist : number s.history work env.random s.borrow.send.curSeq borrow.send.curSeq =
          s.history.file t h := by
        rw [number, if_neg (ne_of_addU32 hnext), hfiling]
        rfl
      have hfiled : (s.history.file t h).filed.length = s.history.filed.length + 1 := by
        simp [History.file]
      have hfresh := hs.fresh
      rw [← hkey] at hfresh
      have hqueue : ((if borrow.sending then s.toLender ++ appended borrow.send.buf
          else loseLast s.toLender lost).filterMap ticketOf).Subperm
          (t :: s.toLender.filterMap ticketOf) := by
        split
        · next hsending =>
            rw [List.filterMap_append, hframes hsending]
            exact (List.perm_append_singleton _ _).subperm
        · exact ((loseLast_sublist _ _).filterMap _).subperm.trans (List.sublist_cons_self _ _).subperm
      constructor
      · exact ⟨rfl, hs.flushed.2⟩
      · rw [hhist, hfiled]
        exact (toNat_of_addU32 hnext (by rw [hs.numbered]; exact hlength)).trans
          (congrArg (· + 1) hs.numbered)
      · rw [hhist, hfiled]
        intro p hp
        rcases List.mem_append.mp hp with hold | hlast
        · exact (hs.earlier p hold).trans (Nat.lt_succ_self _)
        · rw [List.mem_singleton.mp hlast]
          show t.seqnum.toNat < _
          rw [hkey, hs.numbered]
          exact Nat.lt_succ_self _
      · rw [hhist, hlinker, ← hkey]
        exact hs.ledger.file hfresh hidle
      · rw [hhist]
        refine hs.custody.file hs.ledger.settled_filed hfresh h ?_
        exact hqueue.append (List.Subperm.refl _)
      · exact hs.held
      · exact hs.replies
      · rw [hhist, hgiven]
        exact hs.givenBack

/-! ### The lender takes its events -/

/-- An event of the lender passes the tickets on. -/
theorem sound_lend {s : Session} (hs : s.Sound) {lend : Lender} {toLender toBorrower : List Bytes}
    (hflushed : lend.send.buf = []) (hheld : lend.recv.Held)
    (hsub : (toLender.filterMap ticketOf ++
      (lend.recv.tickets ++ toBorrower.filterMap ticketOf)).Subperm s.tickets)
    (hreplies : ∀ f ∈ toBorrower, ∀ frame, readFrame f = .ok (some frame) → frame.ticket ≠ none) :
    Sound { s with toLender := toLender, toBorrower := toBorrower, lend := lend } where
  flushed := ⟨hs.flushed.1, hflushed⟩
  numbered := hs.numbered
  earlier := hs.earlier
  ledger := hs.ledger
  custody := hs.custody.of_subperm hsub
  held := hheld
  replies := hreplies
  givenBack := hs.givenBack

/-- A turn of the lender's receiving loop. -/
theorem sound_lendRecv {s : Session} (hs : s.Sound) {recv : Lend.RecvLoop} {toLender : List Bytes}
    (hheld : recv.Held)
    (hsub : (toLender.filterMap ticketOf ++ recv.tickets).Subperm
      (s.toLender.filterMap ticketOf ++ s.lend.recv.tickets)) :
    Sound { s with toLender := toLender, lend := { s.lend with recv := recv } } := by
  refine sound_lend hs hs.flushed.2 hheld ?_ hs.replies
  unfold tickets
  rw [← List.append_assoc, ← List.append_assoc]
  exact hsub.append (List.Subperm.refl _)

theorem sound_toLender {s s' : Session} (hs : s.Sound) (hok : s.stepToLender V = .ok s') :
    s'.Sound := by
  unfold stepToLender at hok
  split at hok
  · cases hok
    exact hs
  · next f rest hqueue =>
      obtain ⟨frame, hread, hok⟩ := bind_eq_ok_iff.mp hok
      obtain ⟨recv, hstep, hok⟩ := bind_eq_ok_iff.mp hok
      cases hok
      obtain ⟨hsub, hheld⟩ := Lend.RecvLoop.step_tickets hs.held hstep
      refine sound_lendRecv hs hheld ?_
      have hhead : (frame.elim Lend.RecvEvent.frameError .frame).tickets = (ticketOf f).toList := by
        cases frame with
        | none =>
            rw [ticketOf, hread]
            rfl
        | some frame =>
            rw [ticketOf_eq hread]
            rfl
      rw [hhead] at hsub
      rw [hqueue, tickets_cons]
      refine ((List.subperm_append_left _).mpr hsub).trans (List.Perm.subperm ?_)
      rw [← List.append_assoc]
      exact List.perm_append_comm.append_right _

theorem sound_completed {s s' : Session} {index : Nat} {outcome : Lend.Outcome} (hs : s.Sound)
    (hok : s.stepCompleted V index outcome = .ok s') : s'.Sound := by
  obtain ⟨recv, hstep, hok⟩ := bind_eq_ok_iff.mp hok
  cases hok
  obtain ⟨hsub, hheld⟩ := Lend.RecvLoop.step_tickets hs.held hstep
  exact sound_lendRecv hs hheld ((List.subperm_append_left _).mpr hsub)

/-- The ticket of a completion leaves the lender with the reply. -/
theorem tickets_eraseIdx {recv : Lend.RecvLoop} {index : Nat} {completed : Lend.CompletedTransfer}
    (hitem : recv.sent[index]? = some completed) (handler : Lend.LendRecvHandler) :
    (completed.ticket :: ({ recv with handler := handler, sent := recv.sent.eraseIdx index } :
      Lend.RecvLoop).tickets).Perm recv.tickets := by
  have hmove := (Lend.perm_eraseIdx hitem).map Lend.CompletedTransfer.ticket
  exact List.perm_middle.symm.trans (hmove.symm.append_left _)

theorem ticketOf_error (e : Lend.UsbError) : ticketOf e.asHeader.asBytes = none := by
  unfold ticketOf
  split
  · next frame hread => exact absurd hread (readFrame_error e frame)
  · rfl

theorem eq_of_mem_appended {f g : Bytes} (h : g ∈ appended f) : g = f := by
  unfold appended at h
  split at h
  · cases h
  · exact List.mem_singleton.mp h

theorem sound_reply {s s' : Session} {index lost : Nat} (hs : s.Sound)
    (hok : s.stepReply b index lost = .ok s') : s'.Sound := by
  unfold stepReply at hok
  split at hok
  · split at hok
    · cases hok
      exact hs
    · next completed hitem =>
        obtain ⟨⟨result, tokens⟩, hevent, hok⟩ := bind_eq_ok_iff.mp hok
        cases hok
        obtain ⟨htokens, hreply⟩ := Lend.LendSendHandler.handleEvent_ticket hevent
        have hperm := tickets_eraseIdx hitem { s.lend.recv.handler with tokens := tokens }
        have hheld : ({ s.lend.recv with
            handler := { s.lend.recv.handler with tokens := tokens }
            sent := s.lend.recv.sent.eraseIdx index } : Lend.RecvLoop).Held := by
          intro n hn
          obtain ⟨hold, hne⟩ := htokens n hn
          rcases List.mem_cons.mp (hperm.symm.subset (hs.held n hold)) with heq | hmem
          · exact absurd heq.symm hne
          · exact hmem
        cases result with
        | ok send =>
            obtain ⟨f, hbuf, hticket⟩ := hreply send rfl
            rw [hs.flushed.2, List.nil_append] at hbuf
            refine sound_lend hs rfl hheld ((List.subperm_append_left _).mpr (List.Perm.subperm ?_)) ?_
            · rw [List.filterMap_append, tickets_appended, hbuf, hticket, ← List.append_assoc]
              exact (List.perm_append_singleton _ _).trans (hperm.append_right _)
            · intro g hg frame hread
              rcases List.mem_append.mp hg with hold | hnew
              · exact hs.replies g hold frame hread
              · rw [← ticketOf_eq hread, eq_of_mem_appended hnew, hbuf, hticket]
                simp
        | error e =>
            refine sound_lend hs hs.flushed.2 hheld ((List.subperm_append_left _).mpr ?_) ?_
            · rw [List.filterMap_append, tickets_cons, ticketOf_error, List.filterMap_nil]
              rw [Option.toList_none, List.append_nil, List.append_nil]
              have hleft := (List.sublist_cons_self completed.ticket _).subperm.trans hperm.subperm
              exact hleft.append ((loseLast_sublist _ _).filterMap _).subperm
            · intro g hg frame hread
              rcases List.mem_append.mp hg with hold | hnew
              · exact hs.replies g ((loseLast_sublist _ _).subset hold) frame hread
              · rw [List.mem_singleton.mp hnew] at hread
                exact absurd hread (readFrame_error e frame)
  · cases hok
    exact hs

/-! ### The borrower receives -/

/-- The pair of an open ticket can be taken out of the tables. -/
theorem Sound.remove {s : Session} (hs : s.Sound) {t : Ticket} {h : UrbHandle}
    (ho : s.history.Open t h) :
    s.borrow.recv.linker.remove t.seqnum =
      .ok (h, ⟨s.borrow.recv.linker.seqnums.erase h, s.borrow.recv.linker.handles.erase t.seqnum⟩) := by
  unfold Borrow.Linker.remove
  rw [hs.ledger.lookup_value ho]
  show (do let _ ← unwrap (s.borrow.recv.linker.seqnums.lookup h); _ : Except Fault _) = _
  rw [hs.ledger.lookup_key ho]
  rfl

/-- The handle that is taken out is the one the ticket was filed for. -/
theorem Sound.removed {s : Session} (hs : s.Sound) {t : Ticket} {h h' : UrbHandle}
    {linker : Borrow.Linker} (ho : s.history.Open t h)
    (hremove : s.borrow.recv.linker.remove t.seqnum = .ok (h', linker)) : h' = h := by
  rw [hs.remove ho] at hremove
  exact (Prod.mk.inj (Except.ok.inj hremove)).1.symm

/-- **Every frame that reaches the borrower** is the reply to an open ticket, and the tables give the
handle it was filed for. -/
theorem Sound.expected {s : Session} (hs : s.Sound) {f : Bytes} {rest : List Bytes} {frame : Frame}
    (hqueue : s.toBorrower = f :: rest) (hread : readFrame f = .ok (some frame)) :
    ∃ t h, frame.ticket = some t ∧ s.history.Open t h ∧
      s.tickets.Perm (t :: ({ s with toBorrower := rest } : Session).tickets) := by
  have hne := hs.replies f (by rw [hqueue]; exact List.mem_cons_self) frame hread
  obtain ⟨t, ht⟩ := Option.ne_none_iff_exists'.mp hne
  have hperm : s.tickets.Perm (t :: ({ s with toBorrower := rest } : Session).tickets) := by
    unfold tickets
    rw [hqueue, List.filterMap_cons_some ((ticketOf_eq hread).trans ht), ← List.append_assoc,
      ← List.append_assoc]
    exact List.perm_middle
  obtain ⟨h, ho⟩ := hs.custody.isOpen t (hperm.symm.subset List.mem_cons_self)
  exact ⟨t, h, ht, ho, hperm⟩

/-- The borrower's loop has ended, or it takes something that is no frame. -/
theorem sound_drop {s : Session} (hs : s.Sound) {rest : List Bytes} {recv : Borrow.RecvLoop}
    (hlinker : recv.linker = s.borrow.recv.linker) (hgiven : recv.givenBack = s.borrow.recv.givenBack)
    (hsub : rest.Sublist s.toBorrower) :
    Sound { s with toBorrower := rest, borrow := { s.borrow with recv := recv } } where
  flushed := hs.flushed
  numbered := hs.numbered
  earlier := hs.earlier
  ledger := by
    show Ledger _ _ recv.linker.seqnums recv.linker.handles
    rw [hlinker]
    exact hs.ledger
  custody := hs.custody.of_subperm
    ((((hsub.filterMap ticketOf).append_left _).append_left _).subperm)
  held := hs.held
  replies := fun f hf => hs.replies f (hsub.subset hf)
  givenBack := by
    show recv.givenBack.map _ = _
    rw [hgiven]
    exact hs.givenBack

theorem urbHandles_append (l l' : List (Ticket × UrbHandle)) :
    urbHandles (l ++ l') = urbHandles l ++ urbHandles l' := List.filterMap_append

/-- A reply settles its ticket. -/
theorem sound_settled {s : Session} (hs : s.Sound) {rest : List Bytes} {recv : Borrow.RecvLoop}
    {t : Ticket} {h : UrbHandle} (ho : s.history.Open t h) (hsub : rest.Sublist s.toBorrower)
    (hperm : s.tickets.Perm (t :: ({ s with toBorrower := rest } : Session).tickets))
    (hlinker : s.borrow.recv.linker.remove t.seqnum = .ok (h, recv.linker))
    (hgiven : recv.givenBack.map (·.handle) =
      s.borrow.recv.givenBack.map (·.handle) ++ urbHandles [(t, h)]) :
    Sound { s with
      toBorrower := rest
      borrow := { s.borrow with recv := recv }
      history := s.history.settle t h } where
  flushed := hs.flushed
  numbered := hs.numbered
  earlier := hs.earlier
  ledger := by
    rw [hs.remove ho] at hlinker
    have heq : recv.linker = ⟨s.borrow.recv.linker.seqnums.erase h,
        s.borrow.recv.linker.handles.erase t.seqnum⟩ := (Prod.mk.inj (Except.ok.inj hlinker)).2.symm
    show Ledger _ _ recv.linker.seqnums recv.linker.handles
    rw [heq]
    exact hs.ledger.settle ho
  custody := (hs.custody.of_subperm hperm.symm.subperm).settle h
  held := hs.held
  replies := fun f hf => hs.replies f (hsub.subset hf)
  givenBack := by
    show recv.givenBack.map _ = urbHandles (s.history.settled ++ [(t, h)])
    rw [urbHandles_append, ← hs.givenBack, hgiven]

/-- A loop that has ended settles nothing. -/
theorem settle_stopped (hist : History Ticket UrbHandle) (frame : Option Frame) {recv : Borrow.RecvLoop}
    (hstopped : recv.running = false) : settle hist frame recv recv = hist := by
  unfold settle
  split
  · simp
  · exact if_neg (by simp [hstopped])
  · rfl

theorem sound_toBorrower {s s' : Session} {resetDone : Except IoError Unit} (hs : s.Sound)
    (hok : s.stepToBorrower resetDone = .ok s') : s'.Sound := by
  unfold stepToBorrower at hok
  split at hok
  · cases hok
    exact hs
  · next f rest hqueue =>
      have hsub : rest.Sublist s.toBorrower := by
        rw [hqueue]
        exact List.sublist_cons_self f rest
      obtain ⟨frame, hread, hok⟩ := bind_eq_ok_iff.mp hok
      obtain ⟨recv, hstep, hok⟩ := bind_eq_ok_iff.mp hok
      cases hok
      unfold Borrow.RecvLoop.step at hstep
      cases hrunning : s.borrow.recv.running with
      | false =>
          rw [if_neg (by simp [hrunning])] at hstep
          cases hstep
          rw [settle_stopped _ _ hrunning]
          exact sound_drop hs rfl rfl hsub
      | true =>
          rw [if_pos hrunning] at hstep
          cases frame with
          | none =>
              cases hstep
              exact sound_drop hs rfl rfl hsub
          | some frame =>
              obtain ⟨t, h, hticket, ho, hperm⟩ := hs.expected hqueue hread
              cases frame with
              | urb seq =>
                  obtain ⟨⟨giveback, linker⟩, hreply, hstep⟩ := bind_eq_ok_iff.mp hstep
                  cases hstep
                  cases hticket
                  have hremove := Borrow.urbReply_remove hreply
                  have hhandle : giveback.handle = h := hs.removed ho hremove
                  have hsettle : settle s.history (some (.urb seq)) s.borrow.recv
                      { s.borrow.recv with
                        linker := linker, givenBack := s.borrow.recv.givenBack ++ [giveback] } =
                      s.history.settle (.urb seq.seqnum) h := by
                    simp [settle, History.settle, hhandle]
                  rw [hsettle]
                  refine sound_settled hs ho hsub hperm ?_ ?_
                  · rw [← hhandle]
                    exact hremove
                  · rw [List.map_append, ← hhandle]
                    rfl
              | portReset seqnum =>
                  obtain ⟨linker, hreset, hstep⟩ := bind_eq_ok_iff.mp hstep
                  cases hstep
                  cases hticket
                  obtain ⟨h', hremove⟩ := Borrow.deviceReset_remove hreset
                  have hhandle : h' = h := hs.removed ho hremove
                  have hsettle : settle s.history (some (.portReset seqnum)) s.borrow.recv
                      { s.borrow.recv with linker := linker, running := resetDone.isOk } =
                      s.history.settle (.reset seqnum) h := by
                    have hlookup : s.borrow.recv.linker.handles.lookup seqnum = some h :=
                      hs.ledger.lookup_value ho
                    unfold settle
                    simp only
                    rw [if_pos hrunning, hlookup]
                    rfl
                  rw [hsettle]
                  refine sound_settled hs ho hsub hperm ?_ ?_
                  · rw [← hhandle]
                    exact hremove
                  · exact (List.append_nil _).symm
              | unlink seqnum => cases hticket

theorem sound_giveback {s s' : Session} {result : Except IoError Unit} (hs : s.Sound)
    (hok : s.stepGiveback result = .ok s') : s'.Sound := by
  obtain ⟨recv, hstep, hok⟩ := bind_eq_ok_iff.mp hok
  cases hok
  unfold Borrow.RecvLoop.step at hstep
  split at hstep
  · cases result with
    | ok u =>
        cases hstep
        exact sound_drop hs rfl rfl (List.Sublist.refl _)
    | error e =>
        cases hstep
        exact sound_drop hs rfl rfl (List.Sublist.refl _)
  · cases hstep
    exact sound_drop hs rfl rfl (List.Sublist.refl _)

theorem sound_step {s s' : Session} {event : SessionEvent} (hs : s.Sound) (hallowed : s.Allowed event)
    (hok : s.step V b event = .ok s') : s'.Sound := by
  cases event with
  | work work env lost => exact sound_work hs hallowed hok
  | toLender => exact sound_toLender hs hok
  | completed index outcome => exact sound_completed hs hok
  | reply index lost => exact sound_reply hs hok
  | toBorrower resetDone => exact sound_toBorrower hs hok
  | giveback result => exact sound_giveback hs hok

/-! ### Whole runs -/

/-- The URBs submitted to the lender, with their handles, and those given back. -/
def urbs (pairs : List (Ticket × UrbHandle)) : List (Seqnum × UrbHandle) :=
  pairs.filterMap fun p => match p.1 with
    | .urb n => some (n, p.2)
    | .reset _ => none

/-- What is promised of a state that two honest peers reach. -/
structure ExactlyOnce (V : Vhci) (b : Build) (s : Session) : Prop where
  /-- The two tables are each other's inverse. -/
  inverse : Inverse s.borrow.recv.linker.seqnums s.borrow.recv.linker.handles
  /-- No two submissions share a sequence number. -/
  numbered : ((urbs s.history.filed).map Prod.fst).Nodup
  /-- What was given back are handles of different submissions, in this order. -/
  givenBack : s.borrow.recv.givenBack.map (·.handle) = (urbs s.history.settled).map Prod.snd ∧
    (urbs s.history.settled).Nodup ∧ urbs s.history.settled ⊆ urbs s.history.filed
  /-- No handle is given back more often than it was submitted. -/
  atMostOnce : ∀ handle, (s.borrow.recv.givenBack.map (·.handle)).count handle ≤
    ((urbs s.history.filed).map Prod.snd).count handle
  /-- The next frame for the borrower, if it is read as one, finds its pair in both tables: the handle it
  was submitted under, which was not given back yet. -/
  expected : ∀ f rest frame, s.toBorrower = f :: rest → readFrame f = .ok (some frame) →
    ∃ t handle linker, frame.ticket = some t ∧
      (t, handle) ∈ s.history.filed ∧ (t, handle) ∉ s.history.settled ∧
      s.borrow.recv.linker.remove t.seqnum = .ok (handle, linker)
  /-- An unlink that arrives when the reply is under way or was received changes nothing. -/
  crossing : ∀ f rest n, s.toLender = f :: rest → readFrame f = .ok (some (.unlink n)) →
    some (Ticket.urb n) ∈ s.toBorrower.map ticketOf ∨ n ∈ (urbs s.history.settled).map Prod.fst →
    s.step V b .toLender = .ok { s with toLender := rest }

theorem mem_urbs {pairs : List (Ticket × UrbHandle)} {n : Seqnum} {h : UrbHandle} :
    (n, h) ∈ urbs pairs ↔ (Ticket.urb n, h) ∈ pairs := by
  unfold urbs
  rw [List.mem_filterMap]
  constructor
  · rintro ⟨⟨t, h'⟩, hmem, heq⟩
    cases t with
    | urb m =>
        cases heq
        exact hmem
    | reset m => cases heq
  · exact fun hmem => ⟨_, hmem, rfl⟩

theorem urbs_nodup {pairs : List (Ticket × UrbHandle)} (h : pairs.Nodup) : (urbs pairs).Nodup := by
  refine h.filterMap fun p p' q hq hq' => ?_
  obtain ⟨t, h⟩ := p
  obtain ⟨t', h'⟩ := p'
  cases t with
  | reset n => cases hq
  | urb n =>
      cases t' with
      | reset n' => cases hq'
      | urb n' =>
          have heq : (n, h) = (n', h') := (Option.some.inj hq).trans (Option.some.inj hq').symm
          cases heq
          rfl

theorem urbs_fst_sublist (pairs : List (Ticket × UrbHandle)) :
    ((urbs pairs).map Prod.fst).Sublist (pairs.map fun p => p.1.seqnum) := by
  induction pairs with
  | nil => exact List.Sublist.slnil
  | cons p pairs ih =>
      obtain ⟨t, h⟩ := p
      cases t with
      | urb n => exact ih.cons_cons n
      | reset n => exact ih.cons n

theorem urbs_snd (pairs : List (Ticket × UrbHandle)) :
    (urbs pairs).map Prod.snd = urbHandles pairs := by
  induction pairs with
  | nil => rfl
  | cons p pairs ih =>
      obtain ⟨t, h⟩ := p
      cases t with
      | urb n => exact congrArg (h :: ·) ih
      | reset n => exact ih

/-- A URB whose reply is under way or was received is not with the lender. -/
theorem Sound.gone {s : Session} (hs : s.Sound) {n : Seqnum}
    (h : some (Ticket.urb n) ∈ s.toBorrower.map ticketOf ∨
      n ∈ (urbs s.history.settled).map Prod.fst) : Ticket.urb n ∉ s.lend.recv.tickets := by
  intro hmem
  rcases h with hreply | hsettled
  · have htravel : Ticket.urb n ∈ s.toBorrower.filterMap ticketOf := by
      obtain ⟨f, hf, hticket⟩ := List.mem_map.mp hreply
      exact List.mem_filterMap.mpr ⟨f, hf, hticket⟩
    have hnodup := List.Nodup.of_map _ hs.custody.distinct
    have hdisj := (List.nodup_append.mp (List.nodup_append.mp hnodup).2.1).2.2
    exact hdisj _ hmem _ htravel rfl
  · obtain ⟨⟨m, h⟩, hpair, rfl⟩ := List.mem_map.mp hsettled
    refine hs.ledger.not_mem_of_settled hs.custody (mem_urbs.mp hpair) ?_
    exact List.mem_append_right _ (List.mem_append_left _ hmem)

theorem Sound.exactlyOnce {s : Session} (hs : s.Sound) : s.ExactlyOnce V b where
  inverse := hs.ledger.inverse
  numbered := hs.ledger.distinct.sublist (urbs_fst_sublist _)
  givenBack := by
    refine ⟨hs.givenBack.trans (urbs_snd _).symm, urbs_nodup hs.ledger.settled_nodup, ?_⟩
    intro p hp
    exact mem_urbs.mpr (hs.ledger.settled_filed (mem_urbs.mp hp))
  atMostOnce := by
    intro handle
    have hsubset : urbs s.history.settled ⊆ urbs s.history.filed := fun p hp =>
      mem_urbs.mpr (hs.ledger.settled_filed (mem_urbs.mp hp))
    obtain ⟨l, hperm, hsub⟩ := (urbs_nodup hs.ledger.settled_nodup).subperm hsubset
    rw [hs.givenBack, ← urbs_snd, ← (hperm.map Prod.snd).count_eq]
    exact (hsub.map Prod.snd).count_le handle
  expected := by
    intro f rest frame hqueue hread
    obtain ⟨t, h, hticket, ho, -⟩ := hs.expected hqueue hread
    exact ⟨t, h, _, hticket, ho.1, ho.2, hs.remove ho⟩
  crossing := by
    intro f rest n hqueue hread hgone
    have hstale := Lend.RecvLoop.step_stale_unlink V hs.held (hs.gone hgone)
    show s.stepToLender V = _
    unfold stepToLender
    rw [hqueue]
    simp only [hread, ok_bind, Option.elim_some, hstale]
    rfl

/-- **Exactly-once completion.** Whatever the order of submissions, cancels, port resets, deliveries,
completions and replies, in every state that the two peers reach: the tables are inverse, every reply
finds its pair, no handle is given back twice, each under its own submission, and an unlink that crosses
its reply changes nothing. -/
theorem exactly_once (V : Vhci) (b : Build) (devId : Lend.UsbDeviceId) {s : Session}
    (hreach : Runs.Reach (step V b) Allowed (start devId) s) : s.ExactlyOnce V b := by
  have hs : s.Sound := hreach.inv (sound_start devId) fun _ _ _ => sound_step
  exact hs.exactlyOnce

/-- A URB that is cancelled while its reply is already under way. -/
def crossing : List SessionEvent :=
  [.work (.processUrb ⟨.bulk, ⟨0⟩, ⟨0x81⟩, .zero, 2, 0, 0, 0⟩ ⟨3⟩) ⟨fun _ => 0, .ok ([], []), ⟨0⟩⟩ 0,
    .toLender, .completed 0 ⟨.completed, [1, 2], [], fun _ => 0, false, .ok ()⟩, .reply 0 0,
    .work (.cancelUrb ⟨3⟩) ⟨fun _ => 0, .ok ([], []), ⟨0⟩⟩ 0, .toLender, .toBorrower (.ok ())]

theorem crossing_exactly_once :
    ∃ s, Runs.run (step .usb .dev) (start ⟨1, 2⟩) crossing = .ok s ∧
      s.borrow.recv.givenBack.map (·.handle) = [⟨3⟩] ∧ s.ExactlyOnce .usb .dev := by
  have hmeets : Runs.Meets (step .usb .dev) Allowed (start ⟨1, 2⟩) crossing := by
    refine ⟨⟨by decide, ?_⟩, fun s' _ => Runs.meets_of_forall ?_⟩
    · rintro ⟨t, ho, -⟩
      cases ho
    · intro e he s
      simp only [List.mem_cons, List.not_mem_nil, or_false] at he
      rcases he with rfl | rfl | rfl | rfl | rfl | rfl <;> trivial
  refine ⟨_, rfl, rfl, exactly_once .usb .dev ⟨1, 2⟩ (hmeets.reach rfl)⟩

end Session
end Qusb

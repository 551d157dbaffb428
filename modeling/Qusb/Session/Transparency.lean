import Qusb.Session.Delivery
import Qusb.Session.Traffic

/-! The session as the two drivers see it.

The borrower's driver and the lender's device do not see frames, tickets, tables, queues or buffers. What they see is
that a URB is submitted to the device once and whole, and that the answer to it, and to no other, is what the driver is
given back. The invariant says of everything that is on its way that it is a form of one recorded URB, and of the two
records that they name a URB only after it has left the place before. -/

open ByteCodec Tables Ledgers Runs

namespace Qusb

open Msg Proto Borrow Lend
open BorrowSendHandler LendRecvHandler

/-- The library fills in a length and a status for every packet of an item. -/
def AllPackets (o : Lend.Outcome) : InProgress → Prop
  | .iso _ _ _ _ _ _ numIsoPackets _ => numIsoPackets.toNat ≤ o.packets.length
  | _ => True

theorem AllPackets.answered {V : Vhci} {urb : IocUrb} {seqnum : Seqnum} {item : InProgress} {o : Lend.Outcome}
    (hall : AllPackets o item) (hitem : IsItemOf V urb seqnum item) (hfit : FieldsFit urb) : PacketsAnswered urb o := by
  intro htyp
  unfold IsItemOf at hitem
  rw [htyp] at hitem
  obtain ⟨raw, transfer, -, rfl⟩ := hitem
  calc asUsize urb.packetCount = (urbHeader urb).isoPacketCount.toNat := (isoPacketCount_of_fits hfit).symm
    _ ≤ o.packets.length := hall

namespace Session

/-- What is asked of the drivers and the library: the driver submits URBs that fit a frame, under handles that are not
outstanding, and fills the slices that it is given; the library fills in every packet. -/
def Contract (s : Session) (event : SessionEvent) : Prop :=
  s.Allowed event ∧
    match event with
    | .work (.processUrb urb handle) env _ =>
        Sendable urb ∧ Submission.Filled ⟨s.borrow.send.curSeq, urb, handle, env.fetched⟩
    | .completed index o => ∀ item, s.lend.recv.inProgress[index]? = some item → AllPackets o item
    | _ => True

/-- The answer to the URB with the number is what the driver is given back for it. -/
def Returns (V : Vhci) (t : Traffic) (n : Seqnum) (g : OwnedUrbGiveback) : Prop :=
  ∃ sub ∈ t.submitted, sub.seqnum = n ∧ ∃ o, (n, o) ∈ t.answered ∧ GivenBack V sub.urb sub.handle o g

/-! ### The invariant -/

structure Tracked (V : Vhci) (s : Session) (t : Traffic) : Prop where
  sound : s.Sound
  isos : s.lend.recv.handler.isos.Sound
  sendable : ∀ sub ∈ t.submitted, Sendable sub.urb
  filed : t.submitted.map (fun sub => (sub.seqnum, sub.handle)) = urbs s.history.filed
  frames : ∀ f ∈ s.toLender, t.Carries (ticketOf f) fun sub => sub.SentAs f
  items : ∀ item ∈ s.lend.recv.inProgress, t.Carries (some item.ticket) fun sub => sub.HeldAs V t item
  completions : ∀ completed ∈ s.lend.recv.sent,
    t.Carries (some completed.ticket) fun sub => sub.CompletedAs V t completed
  replies : ∀ f ∈ s.toBorrower, t.Carries (ticketOf f) fun sub => sub.RepliedAs V t f
  givenBack : List.Forall₂ (Returns V t) ((urbs s.history.settled).map Prod.fst) s.borrow.recv.givenBack
  taken : (t.taken.map (·.seqnum)).Nodup
  handed : ∀ seq ∈ t.taken, (∃ sub ∈ t.submitted, sub.HandedAs seq) ∧
    Ticket.urb seq.seqnum ∉ s.toLender.filterMap ticketOf
  answered : (t.answered.map Prod.fst).Nodup
  reached : ∀ n ∈ t.answered.map Prod.fst, n ∈ t.taken.map (·.seqnum) ∧
    Ticket.urb n ∉ s.lend.recv.inProgress.map InProgress.ticket

theorem tracked_start (V : Vhci) (devId : Lend.UsbDeviceId) : Tracked V (start devId) ⟨[], [], []⟩ where
  sound := sound_start devId
  isos := BigTransfers.sound_empty
  sendable := nofun
  filed := rfl
  frames := nofun
  items := nofun
  completions := nofun
  replies := nofun
  givenBack := .nil
  taken := .nil
  handed := nofun
  answered := .nil
  reached := nofun

variable {V : Vhci} {b : Build} {s s' : Session} {t t' : Traffic}

theorem Returns.mono {n : Seqnum} {g : OwnedUrbGiveback} (hreturns : Returns V t n g)
    (hsubmitted : t.submitted ⊆ t'.submitted) (hanswered : t.answered ⊆ t'.answered) : Returns V t' n g := by
  obtain ⟨sub, hsub, hseqnum, o, ho, hgiven⟩ := hreturns
  exact ⟨sub, hsubmitted hsub, hseqnum, o, hanswered ho, hgiven⟩

/-- What a number was recorded for is what it was filed for. -/
theorem Tracked.handle_eq (ht : Tracked V s t) {sub : Submission} (hsub : sub ∈ t.submitted) {handle : UrbHandle}
    (hfiled : (Ticket.urb sub.seqnum, handle) ∈ s.history.filed) : sub.handle = handle := by
  have hmem : (sub.seqnum, sub.handle) ∈ urbs s.history.filed := by
    rw [← ht.filed]
    exact List.mem_map_of_mem hsub
  exact (Prod.mk.inj (ht.sound.ledger.filed_unique (mem_urbs.mp hmem) hfiled rfl)).2

/-- No two URBs are recorded with one number. -/
theorem Tracked.numbered (ht : Tracked V s t) : (t.submitted.map (·.seqnum)).Nodup := by
  have hnumbers : t.submitted.map (·.seqnum) = (urbs s.history.filed).map Prod.fst := by
    rw [← ht.filed, List.map_map]
    rfl
  rw [hnumbers]
  exact ht.sound.ledger.distinct.sublist (urbs_fst_sublist _)

/-! ### Steps that move no URB -/

/-- Nothing that carries a URB has come to another place, though some may be lost. -/
structure Silent (s s' : Session) : Prop where
  filed : urbs s'.history.filed = urbs s.history.filed
  settled : urbs s'.history.settled = urbs s.history.settled
  frames : ∀ f ∈ s'.toLender, f ∈ s.toLender ∨ ∀ n, ticketOf f ≠ some (.urb n)
  items : ∀ item ∈ s'.lend.recv.inProgress, item ∈ s.lend.recv.inProgress ∨ ∀ n, item.ticket ≠ .urb n
  completions : ∀ completed ∈ s'.lend.recv.sent, completed ∈ s.lend.recv.sent ∨ ∀ n, completed.ticket ≠ .urb n
  replies : ∀ f ∈ s'.toBorrower, f ∈ s.toBorrower ∨ ∀ n, ticketOf f ≠ some (.urb n)
  givenBack : s'.borrow.recv.givenBack = s.borrow.recv.givenBack

theorem not_mem_filterMap {frames frames' : List Bytes} {n : Seqnum}
    (hframes : ∀ f ∈ frames', f ∈ frames ∨ ∀ n, ticketOf f ≠ some (.urb n))
    (hmem : Ticket.urb n ∉ frames.filterMap ticketOf) : Ticket.urb n ∉ frames'.filterMap ticketOf := by
  intro hmem'
  obtain ⟨f, hf, hticket⟩ := List.mem_filterMap.mp hmem'
  rcases hframes f hf with hold | hother
  · exact hmem (List.mem_filterMap.mpr ⟨f, hold, hticket⟩)
  · exact hother n hticket

theorem Tracked.silent (ht : Tracked V s t) (hsilent : Silent s s') (hsound : s'.Sound)
    (hisos : s'.lend.recv.handler.isos.Sound) : Tracked V s' t where
  sound := hsound
  isos := hisos
  sendable := ht.sendable
  filed := ht.filed.trans hsilent.filed.symm
  frames := by
    intro f hf
    rcases hsilent.frames f hf with hold | hother
    · exact ht.frames f hold
    · exact t.carries_of_ne hother
  items := by
    intro item hitem
    rcases hsilent.items item hitem with hold | hother
    · exact ht.items item hold
    · exact t.carries_of_ne fun n hn => hother n (Option.some.inj hn)
  completions := by
    intro completed hcompleted
    rcases hsilent.completions completed hcompleted with hold | hother
    · exact ht.completions completed hold
    · exact t.carries_of_ne fun n hn => hother n (Option.some.inj hn)
  replies := by
    intro f hf
    rcases hsilent.replies f hf with hold | hother
    · exact ht.replies f hold
    · exact t.carries_of_ne hother
  givenBack := by
    rw [hsilent.settled, hsilent.givenBack]
    exact ht.givenBack
  taken := ht.taken
  handed := fun seq hseq => (ht.handed seq hseq).imp_right (not_mem_filterMap hsilent.frames)
  answered := ht.answered
  reached := by
    intro n hn
    obtain ⟨htaken, hgone⟩ := ht.reached n hn
    refine ⟨htaken, fun hmem => ?_⟩
    obtain ⟨item, hitem, hticket⟩ := List.mem_map.mp hmem
    rcases hsilent.items item hitem with hold | hother
    · exact hgone (List.mem_map.mpr ⟨item, hold, hticket⟩)
    · exact hother n hticket

/-! ### The borrower submits -/

/-- A URB that takes a number while the loop runs is sent with its data. -/
theorem submitted_of_step {s s' : Borrower} {urb : IocUrb} {handle : UrbHandle} {env : WorkEnv}
    (hbuf : s.send.buf = []) (hok : s.step V b (.work (.processUrb urb handle) env) = .ok s')
    (hmoved : s'.send.curSeq ≠ s.send.curSeq) (hsending : s'.sending = true) :
    ∃ data, urbData env.mem urb env.fetched = .ok (.ok data) ∧ s'.send.buf = submitFrame urb s.send.curSeq data := by
  simp only [Borrower.step] at hok
  split at hok
  · obtain ⟨⟨result, send, linker⟩, hwork, hok⟩ := bind_eq_ok_iff.mp hok
    cases hok
    simp only [handleWork] at hwork
    split at hwork
    · cases hwork
      exact absurd rfl hmoved
    · obtain ⟨⟨result₁, send₁, linker₁⟩, hurb, hwork⟩ := bind_eq_ok_iff.mp hwork
      cases hwork
      cases result₁ with
      | ok u =>
          obtain ⟨data, hdata, hsent⟩ := processUrb_data hurb
          exact ⟨data, hdata, by rw [hsent, hbuf, List.nil_append]⟩
      | error e => cases hsending
  · cases hok
    exact absurd rfl hmoved

theorem mem_queue {queue : List Bytes} {buf f : Bytes} {sending : Bool} {lost : Nat}
    (hf : f ∈ if sending then queue ++ appended buf else loseLast queue lost) :
    f ∈ queue ∨ sending = true ∧ f ∈ appended buf := by
  split at hf
  · next hsending =>
      exact (List.mem_append.mp hf).imp_right fun hnew => ⟨hsending, hnew⟩
  · exact .inl ((loseLast_sublist _ _).subset hf)

/-- What carries no ticket carries no URB. -/
theorem ticketOf_of_appended {buf f : Bytes} (hnone : (appended buf).filterMap ticketOf = []) (hf : f ∈ appended buf) :
    ∀ n, ticketOf f ≠ some (.urb n) := by
  intro n hn
  have hmem : Ticket.urb n ∈ (appended buf).filterMap ticketOf := List.mem_filterMap.mpr ⟨f, hf, hn⟩
  rw [hnone] at hmem
  cases hmem

theorem urbs_append (l l' : List (Ticket × UrbHandle)) : urbs (l ++ l') = urbs l ++ urbs l' := List.filterMap_append

/-- **A URB takes a number.** -/
theorem Tracked.submit (ht : Tracked V s t) {sub : Submission} (hsendable : Sendable sub.urb)
    (hsound : s'.Sound) (hfiled : s'.history.filed = s.history.filed ++ [(.urb sub.seqnum, sub.handle)])
    (hsettled : s'.history.settled = s.history.settled) (hlend : s'.lend = s.lend)
    (hreplies : s'.toBorrower = s.toBorrower) (hgiven : s'.borrow.recv.givenBack = s.borrow.recv.givenBack)
    (hfresh : ¬ s.history.Used Ticket.seqnum sub.seqnum)
    (hframes : ∀ f ∈ s'.toLender, f ∈ s.toLender ∨ sub.SentAs f) :
    Tracked V s' { t with submitted := t.submitted ++ [sub] } where
  sound := hsound
  isos := by
    rw [hlend]
    exact ht.isos
  sendable := by
    intro sub' hsub'
    rcases List.mem_append.mp hsub' with hold | hnew
    · exact ht.sendable sub' hold
    · obtain rfl := List.mem_singleton.mp hnew
      exact hsendable
  filed := by
    rw [hfiled, urbs_append, ← ht.filed, List.map_append]
    rfl
  frames := by
    intro f hf
    rcases hframes f hf with hold | hsent
    · exact (ht.frames f hold).mono (List.subset_append_left _ _) fun _ h => h
    · have hticket : ticketOf f = some (.urb sub.seqnum) := by
        obtain ⟨-, pad, -, rfl⟩ := hsent
        exact ticketOf_submitFrame _ _ _
      rw [hticket]
      exact Traffic.carries_urb (List.mem_append_right _ List.mem_cons_self) hsent
  items := by
    rw [hlend]
    exact fun item hitem => (ht.items item hitem).mono (List.subset_append_left _ _) fun _ h => h
  completions := by
    rw [hlend]
    exact fun completed hmem => (ht.completions completed hmem).mono (List.subset_append_left _ _) fun _ h => h
  replies := by
    rw [hreplies]
    exact fun f hf => (ht.replies f hf).mono (List.subset_append_left _ _) fun _ h => h
  givenBack := by
    rw [hsettled, hgiven]
    exact ht.givenBack.imp fun n g hreturns => hreturns.mono (List.subset_append_left _ _) (List.Subset.refl _)
  taken := ht.taken
  handed := by
    intro seq hseq
    obtain ⟨⟨sub', hsub', hhanded⟩, hgone⟩ := ht.handed seq hseq
    refine ⟨⟨sub', List.mem_append_left _ hsub', hhanded⟩, fun hmem => ?_⟩
    obtain ⟨f, hf, hticket⟩ := List.mem_filterMap.mp hmem
    rcases hframes f hf with hold | ⟨-, pad, -, rfl⟩
    · exact hgone (List.mem_filterMap.mpr ⟨f, hold, hticket⟩)
    · -- The number of a submission that was taken up is not new.
      have hseqnum : sub.seqnum = seq.seqnum :=
        Ticket.urb.inj (Option.some.inj ((ticketOf_submitFrame _ _ _).symm.trans hticket))
      have hmem' : (sub'.seqnum, sub'.handle) ∈ urbs s.history.filed := by
        rw [← ht.filed]
        exact List.mem_map_of_mem hsub'
      exact hfresh (List.mem_map.mpr ⟨_, mem_urbs.mp hmem', (hseqnum.trans hhanded.seqnum).symm⟩)
  answered := ht.answered
  reached := by
    rw [hlend]
    exact ht.reached

theorem tracked_work {work : Work} {env : WorkEnv} {lost : Nat} (ht : Tracked V s t)
    (hcontract : s.Contract (.work work env lost)) (hok : s.stepWork V b work env lost = .ok s') :
    Tracked V s' (traffic s (.work work env lost) s' t) := by
  have hsound : s'.Sound := sound_work ht.sound hcontract.1 hok
  obtain ⟨borrow, hborrow, hok⟩ := bind_eq_ok_iff.mp hok
  cases hok
  obtain ⟨hgiven, hworked⟩ := worked_of_step ht.sound.flushed.1 hborrow
  cases hworked with
  | quiet hseq hlinker hnone =>
      have hhist : number s.history work env.random s.borrow.send.curSeq borrow.send.curSeq = s.history :=
        if_pos hseq
      have htraffic : ∀ s₁ : Session, s₁.borrow.send.curSeq = borrow.send.curSeq →
          traffic s (.work work env lost) s₁ t = t := by
        intro s₁ hs₁
        cases work with
        | processUrb urb handle => exact if_pos (hs₁.trans hseq)
        | portStat next => rfl
        | cancelUrb handle => rfl
      rw [htraffic _ rfl]
      refine ht.silent ⟨congrArg (fun hist => urbs hist.filed) hhist, congrArg (fun hist => urbs hist.settled) hhist,
        fun f hf => ?_, fun _ => .inl, fun _ => .inl, fun _ => .inl, hgiven⟩ hsound ht.isos
      exact (mem_queue hf).imp_right fun hnew => ticketOf_of_appended hnone hnew.2
  | filed ticket h hfiling hkey hnext hlinker hframes =>
      have hmoved : borrow.send.curSeq ≠ s.borrow.send.curSeq := ne_of_addU32 hnext
      have hhist : number s.history work env.random s.borrow.send.curSeq borrow.send.curSeq =
          s.history.file ticket h := by
        rw [number, if_neg hmoved, hfiling]
        rfl
      have hsettled : (number s.history work env.random s.borrow.send.curSeq borrow.send.curSeq).settled =
          s.history.settled := by
        rw [hhist]
        rfl
      cases work with
      | cancelUrb handle => cases hfiling
      | portStat next =>
          cases hfiling
          refine ht.silent ⟨?_, congrArg urbs hsettled, fun f hf => ?_, fun _ => .inl, fun _ => .inl, fun _ => .inl,
            hgiven⟩ hsound ht.isos
          · refine (congrArg (fun hist => urbs hist.filed) hhist).trans ?_
            exact (urbs_append _ _).trans (List.append_nil _)
          · refine (mem_queue hf).imp_right fun hnew n hn => ?_
            have hmem := List.mem_filterMap.mpr ⟨f, hnew.2, hn⟩
            rw [hframes hnew.1] at hmem
            cases List.mem_singleton.mp hmem
      | processUrb urb handle =>
          cases hfiling
          obtain ⟨hsendable, hfilled⟩ := hcontract.2
          have htraffic : ∀ s₁ : Session, s₁.borrow.send.curSeq = borrow.send.curSeq →
              traffic s (.work (.processUrb urb h) env lost) s₁ t =
                { t with submitted := t.submitted ++ [⟨s.borrow.send.curSeq, urb, h, env.fetched⟩] } :=
            fun s₁ hs₁ => if_neg (by rw [hs₁]; exact hmoved)
          rw [htraffic _ rfl]
          refine ht.submit hsendable hsound (congrArg History.filed hhist) hsettled rfl rfl hgiven
            ht.sound.fresh fun f hf => ?_
          refine (mem_queue hf).imp_right fun hnew => ?_
          obtain ⟨data, hdata, hbuf⟩ := submitted_of_step ht.sound.flushed.1 hborrow hmoved hnew.1
          rw [eq_of_mem_appended hnew.2, hbuf]
          exact Submission.sentAs hsendable hfilled hdata

/-! ### The lender takes up -/

/-- A turn of the lender's loop takes up a submission, ends an item, or moves no URB. -/
inductive RecvTurn (V : Vhci) (recv : Lend.RecvLoop) : Lend.RecvEvent → Lend.RecvLoop → Prop
  | took {seq : Seq (Data UrbFrame)} {recv' : Lend.RecvLoop} (hrunning : recv.running)
      (hok : recv.stepUrb V seq = .ok recv') : RecvTurn V recv (.frame (.urb seq)) recv'
  | ended {index : Nat} {o : Lend.Outcome} {item : InProgress} {completed : CompletedTransfer}
      (hrunning : recv.running) (hitem : recv.inProgress[index]? = some item)
      (hcomplete : item.complete o = .ok completed) : RecvTurn V recv (.completed index o)
        { recv with handler := item.recycle recv.handler, inProgress := recv.inProgress.eraseIdx index,
                    sent := recv.sent ++ [completed] }
  | silent {event : Lend.RecvEvent} {recv' : Lend.RecvLoop}
      (hitems : ∀ item ∈ recv'.inProgress, item ∈ recv.inProgress ∨ ∀ n, item.ticket ≠ .urb n)
      (hsent : recv'.sent = recv.sent)
      (hevent : recv.running →
        (∀ seq, event ≠ .frame (.urb seq)) ∧ ∀ index o, event = .completed index o → recv.inProgress[index]? = none) :
      RecvTurn V recv event recv'

theorem recvTurn_of_step {recv recv' : Lend.RecvLoop} {event : Lend.RecvEvent}
    (hok : recv.step V event = .ok recv') : RecvTurn V recv event recv' := by
  unfold Lend.RecvLoop.step at hok
  split at hok
  · next hrunning =>
      cases event with
      | frame frame =>
          cases frame with
          | urb seq => exact .took hrunning hok
          | portReset seqnum =>
              cases hok
              refine .silent (fun item hitem => ?_) rfl fun _ => ⟨nofun, nofun⟩
              refine (List.mem_append.mp hitem).imp_right fun hnew => ?_
              rw [List.mem_singleton.mp hnew]
              exact nofun
          | unlink seqnum =>
              cases hok
              exact .silent (fun _ => .inl) rfl fun _ => ⟨nofun, nofun⟩
      | completed index o =>
          simp only at hok
          split at hok
          · next hnone =>
              cases hok
              refine .silent (fun _ => .inl) rfl fun _ => ⟨nofun, fun index' o' heq => ?_⟩
              cases heq
              exact hnone
          · next item hitem =>
              obtain ⟨completed, hcomplete, hok⟩ := bind_eq_ok_iff.mp hok
              cases hok
              exact .ended hrunning hitem hcomplete
      | frameError =>
          cases hok
          exact .silent (fun _ => .inl) rfl fun _ => ⟨nofun, nofun⟩
      | closed =>
          cases hok
          exact .silent (fun _ => .inl) rfl fun _ => ⟨nofun, nofun⟩
  · next hstopped =>
      cases hok
      exact .silent (fun _ => .inl) rfl fun hrunning => absurd hrunning hstopped

theorem ticket_of_isItemOf {urb : IocUrb} {seqnum : Seqnum} {item : InProgress} (hitem : IsItemOf V urb seqnum item) :
    item.ticket = .urb seqnum := by
  unfold IsItemOf at hitem
  cases htyp : urb.typ with
  | control =>
      rw [htyp] at hitem
      cases hparse : CtrlKind.parse V urb.setupPacket <;> rw [hparse] at hitem <;> cases hitem <;> rfl
  | isochronous =>
      rw [htyp] at hitem
      obtain ⟨raw, transfer, -, rfl⟩ := hitem
      rfl
  | interrupt =>
      rw [htyp] at hitem
      cases hitem
      rfl
  | bulk =>
      rw [htyp] at hitem
      cases hitem
      rfl

/-- The number of the next frame is not that of a later one. -/
theorem Sound.not_mem_rest (hs : s.Sound) {f : Bytes} {rest : List Bytes} {ticket : Ticket}
    (hqueue : s.toLender = f :: rest) (hticket : ticketOf f = some ticket) : ticket ∉ rest.filterMap ticketOf := by
  have hnodup : (s.toLender.filterMap ticketOf).Nodup := (List.nodup_append.mp hs.custody.distinct.of_map).1
  rw [hqueue, List.filterMap_cons_some hticket] at hnodup
  exact (List.nodup_cons.mp hnodup).1

/-- **A submission is taken up.** -/
theorem Tracked.take (ht : Tracked V s t) {f : Bytes} {rest : List Bytes} {seq : Seq (Data UrbFrame)}
    {recv : Lend.RecvLoop} (hqueue : s.toLender = f :: rest) (hread : readFrame f = .ok (some (.urb seq)))
    (hstep : s.lend.recv.stepUrb V seq = .ok recv)
    (hsound : Sound { s with toLender := rest, lend := { s.lend with recv := recv } })
    (hisos : recv.handler.isos.Sound) :
    Tracked V { s with toLender := rest, lend := { s.lend with recv := recv } }
      { t with taken := t.taken ++ [seq] } := by
  have hticket : ticketOf f = some (.urb seq.seqnum) := ticketOf_eq hread
  have hhead : f ∈ s.toLender := by
    rw [hqueue]
    exact List.mem_cons_self
  have hrest : rest ⊆ s.toLender := by
    rw [hqueue]
    exact List.subset_cons_self f rest
  obtain ⟨sub, hsub, hseqnum, hsent⟩ := ht.frames f hhead _ hticket
  have hsendable := ht.sendable sub hsub
  obtain ⟨data, pad, hread', hsubmitted⟩ := hsent.read hsendable
  obtain rfl : seq = ⟨sub.seqnum, data⟩ := by
    have hframe := Option.some.inj (Except.ok.inj (hread.symm.trans hread'))
    exact Frame.urb.inj hframe
  obtain ⟨item, handler, hstep', hitem⟩ : ∃ item handler,
      s.lend.recv.stepUrb V ⟨sub.seqnum, data⟩ = .ok (s.lend.recv.push (item, handler)) ∧
        IsItemOf V sub.urb sub.seqnum item :=
    hsubmitted.stepUrb hsendable s.lend.recv ht.isos
  obtain rfl := Except.ok.inj (hstep.symm.trans hstep')
  have hfirst : Ticket.urb sub.seqnum ∈ s.toLender.filterMap ticketOf :=
    List.mem_filterMap.mpr ⟨f, hhead, hticket⟩
  have hnew : ∀ n ∈ t.taken.map (·.seqnum), n ≠ sub.seqnum := by
    rintro n hn rfl
    obtain ⟨seq, hseq, heq⟩ := List.mem_map.mp hn
    have hgone := (ht.handed seq hseq).2
    rw [heq] at hgone
    exact hgone hfirst
  exact {
    sound := hsound
    isos := hisos
    sendable := ht.sendable
    filed := ht.filed
    frames := fun f hf => ht.frames f (hrest hf)
    items := by
      intro item' hitem'
      rcases List.mem_append.mp hitem' with hold | hlast
      · exact (ht.items item' hold).mono (List.Subset.refl _) fun _ h => h.mono (List.subset_append_left _ _)
      · obtain rfl := List.mem_singleton.mp hlast
        rw [ticket_of_isItemOf hitem]
        exact Traffic.carries_urb hsub ⟨hitem, List.mem_map_of_mem (List.mem_append_right _ List.mem_cons_self)⟩
    completions := ht.completions
    replies := ht.replies
    givenBack := ht.givenBack
    taken := by
      rw [List.map_append]
      refine List.Nodup.append ht.taken (List.nodup_singleton _) (List.disjoint_singleton.mpr fun hmem => ?_)
      exact hnew _ hmem rfl
    handed := by
      intro seq hseq
      rcases List.mem_append.mp hseq with hold | hlast
      · obtain ⟨hhanded, hgone⟩ := ht.handed seq hold
        refine ⟨hhanded, fun hmem => ?_⟩
        obtain ⟨f', hf', hticket'⟩ := List.mem_filterMap.mp hmem
        exact hgone (List.mem_filterMap.mpr ⟨f', hrest hf', hticket'⟩)
      · obtain rfl := List.mem_singleton.mp hlast
        exact ⟨⟨sub, hsub, hsubmitted.handedAs hsendable⟩, ht.sound.not_mem_rest hqueue hticket⟩
    answered := ht.answered
    reached := by
      intro n hn
      obtain ⟨htaken, hgone⟩ := ht.reached n hn
      refine ⟨?_, ?_⟩
      · rw [List.map_append]
        exact List.mem_append_left _ htaken
      · intro hmem
        obtain ⟨item', hitem', hticket'⟩ := List.mem_map.mp hmem
        rcases List.mem_append.mp hitem' with hold | hlast
        · exact hgone (List.mem_map.mpr ⟨item', hold, hticket'⟩)
        · obtain rfl := List.mem_singleton.mp hlast
          rw [ticket_of_isItemOf hitem] at hticket'
          exact hnew n htaken (Ticket.urb.inj hticket').symm }

theorem tracked_toLender (ht : Tracked V s t) (hok : s.stepToLender V = .ok s') :
    Tracked V s' (traffic s .toLender s' t) := by
  have hsound : s'.Sound := sound_toLender ht.sound hok
  have hidle : s.arriving = none → traffic s .toLender s' t = t := by
    intro harriving
    unfold traffic
    rw [harriving, Option.toList_none, List.append_nil]
  unfold stepToLender at hok
  split at hok
  · next hqueue =>
      cases hok
      rw [hidle (by rw [arriving, hqueue])]
      exact ht
  · next f rest hqueue =>
      obtain ⟨frame, hread, hok⟩ := bind_eq_ok_iff.mp hok
      obtain ⟨recv, hstep, hok⟩ := bind_eq_ok_iff.mp hok
      cases hok
      have hisos : recv.handler.isos.Sound := Lend.RecvLoop.step_sound ht.isos hstep
      generalize hevent : frame.elim Lend.RecvEvent.frameError .frame = event at hstep
      cases recvTurn_of_step hstep with
      | @took seq _ hrunning htook =>
          cases frame with
          | none => cases hevent
          | some frame =>
              cases hevent
              have harriving : s.arriving = some seq := by
                rw [arriving, hqueue]
                simp only [hread]
                exact if_pos hrunning
              have htraffic : ∀ s₁, traffic s .toLender s₁ t = { t with taken := t.taken ++ [seq] } := by
                intro s₁
                unfold traffic
                rw [harriving]
                rfl
              rw [htraffic]
              exact ht.take hqueue hread htook hsound hisos
      | ended => cases frame <;> cases hevent
      | silent hitems hsent hquiet =>
          have harriving : s.arriving = none := by
            rw [arriving, hqueue]
            simp only [hread]
            unfold Lend.RecvLoop.takes
            split
            · next seq => exact if_neg fun hrunning => (hquiet hrunning).1 seq hevent.symm
            · rfl
          rw [hidle harriving]
          refine ht.silent ⟨rfl, rfl, fun f' hf' => .inl ?_, hitems, fun c hc => .inl ?_, fun _ => .inl, rfl⟩
            hsound hisos
          · rw [hqueue]
            exact List.mem_cons_of_mem f hf'
          · rw [← hsent]
            exact hc

/-! ### The device answers -/

/-- The number of an item in progress is not that of another. -/
theorem Sound.not_mem_eraseIdx (hs : s.Sound) {index : Nat} {item : InProgress}
    (hitem : s.lend.recv.inProgress[index]? = some item) :
    item.ticket ∉ (s.lend.recv.inProgress.eraseIdx index).map InProgress.ticket := by
  have htickets : s.lend.recv.tickets.Nodup :=
    (List.nodup_append.mp (List.nodup_append.mp hs.custody.distinct.of_map).2.1).1
  have hnodup : (s.lend.recv.inProgress.map InProgress.ticket).Nodup := (List.nodup_append.mp htickets).1
  have hperm := (perm_eraseIdx hitem).map InProgress.ticket
  exact (List.nodup_cons.mp (hperm.nodup_iff.mp hnodup)).1

/-- **An item ends** with the answer of the device. -/
theorem Tracked.complete (ht : Tracked V s t) {index : Nat} {o : Lend.Outcome} {item : InProgress}
    {completed : CompletedTransfer} {n : Seqnum} (hitem : s.lend.recv.inProgress[index]? = some item)
    (hticket : item.ticket = .urb n) (hcomplete : item.complete o = .ok completed) (hall : AllPackets o item)
    {recv : Lend.RecvLoop} (hprogress : recv.inProgress = s.lend.recv.inProgress.eraseIdx index)
    (hsent : recv.sent = s.lend.recv.sent ++ [completed])
    (hsound : Sound { s with lend := { s.lend with recv := recv } }) (hisos : recv.handler.isos.Sound) :
    Tracked V { s with lend := { s.lend with recv := recv } } { t with answered := t.answered ++ [(n, o)] } := by
  have hmem : item ∈ s.lend.recv.inProgress := List.mem_of_getElem? hitem
  obtain ⟨sub, hsub, rfl, his, htaken⟩ := ht.items item hmem n (congrArg some hticket)
  have hsendable := ht.sendable sub hsub
  obtain ⟨completed', c, hcomplete', hc, hanswer⟩ :=
    his.complete hsendable (complete_ok_iff.mp ⟨completed, hcomplete⟩) (hall.answered his hsendable.fits)
  obtain rfl := Except.ok.inj (hcomplete.symm.trans hcomplete')
  have hgone : sub.seqnum ∉ t.answered.map Prod.fst := fun hn =>
    (ht.reached _ hn).2 (List.mem_map.mpr ⟨item, hmem, hticket⟩)
  have hrest : ∀ item' ∈ recv.inProgress, item' ∈ s.lend.recv.inProgress := by
    rw [hprogress]
    exact fun item' hitem' => List.mem_of_mem_eraseIdx hitem'
  have hanswered : t.answered ⊆ t.answered ++ [(sub.seqnum, o)] := List.subset_append_left _ _
  exact {
    sound := hsound
    isos := hisos
    sendable := ht.sendable
    filed := ht.filed
    frames := ht.frames
    items := fun item' hitem' => ht.items item' (hrest item' hitem')
    completions := by
      intro completed' hcompleted'
      have hsplit : completed' ∈ s.lend.recv.sent ++ [completed] := hsent ▸ hcompleted'
      rcases List.mem_append.mp hsplit with hold | hlast
      · exact (ht.completions completed' hold).mono (List.Subset.refl _) fun _ h => h.mono hanswered
      · obtain rfl := List.mem_singleton.mp hlast
        rw [(complete_ticket hcomplete).trans hticket]
        exact Traffic.carries_urb hsub ⟨o, List.mem_append_right _ List.mem_cons_self, c, hc, hanswer⟩
    replies := fun f hf => (ht.replies f hf).mono (List.Subset.refl _) fun _ h => h.mono hanswered
    givenBack := ht.givenBack.imp fun n g hreturns => hreturns.mono (List.Subset.refl _) hanswered
    taken := ht.taken
    handed := ht.handed
    answered := by
      rw [List.map_append]
      exact List.Nodup.append ht.answered (List.nodup_singleton _) (List.disjoint_singleton.mpr hgone)
    reached := by
      intro n hn
      rw [List.map_append] at hn
      rcases List.mem_append.mp hn with hold | hlast
      · obtain ⟨htaken, hother⟩ := ht.reached n hold
        refine ⟨htaken, fun hmem' => ?_⟩
        obtain ⟨item', hitem', hticket'⟩ := List.mem_map.mp hmem'
        exact hother (List.mem_map.mpr ⟨item', hrest item' hitem', hticket'⟩)
      · obtain rfl : n = sub.seqnum := List.mem_singleton.mp hlast
        refine ⟨htaken, ?_⟩
        show _ ∉ recv.inProgress.map InProgress.ticket
        rw [hprogress, ← hticket]
        exact ht.sound.not_mem_eraseIdx hitem }

theorem tracked_completed {index : Nat} {o : Lend.Outcome} (ht : Tracked V s t)
    (hcontract : s.Contract (.completed index o)) (hok : s.stepCompleted V index o = .ok s') :
    Tracked V s' (traffic s (.completed index o) s' t) := by
  have hsound : s'.Sound := sound_completed ht.sound hok
  have hidle : ∀ s₁, s.lend.recv.ends index = none → traffic s (.completed index o) s₁ t = t := by
    intro s₁ hending
    unfold traffic
    simp only [hending, Option.toList_none, List.map_nil, List.append_nil]
  obtain ⟨recv, hstep, hok⟩ := bind_eq_ok_iff.mp hok
  cases hok
  have hisos : recv.handler.isos.Sound := Lend.RecvLoop.step_sound ht.isos hstep
  cases recvTurn_of_step hstep with
  | @ended _ _ item completed hrunning hitem hcomplete =>
      cases hticket : item.ticket with
      | urb n =>
          have hending := Lend.RecvLoop.ends_urb hrunning hitem hticket
          have htraffic : ∀ s₁,
              traffic s (.completed index o) s₁ t = { t with answered := t.answered ++ [(n, o)] } := by
            intro s₁
            unfold traffic
            simp only [hending]
            rfl
          rw [htraffic]
          exact ht.complete hitem hticket hcomplete (hcontract.2 item hitem) rfl rfl hsound hisos
      | reset n =>
          rw [hidle _ (Lend.RecvLoop.ends_reset hrunning hitem hticket)]
          refine ht.silent ⟨rfl, rfl, fun _ => .inl, fun item' hitem' => .inl (List.mem_of_mem_eraseIdx hitem'),
            fun completed' hcompleted' => ?_, fun _ => .inl, rfl⟩ hsound hisos
          refine (List.mem_append.mp hcompleted').imp_right fun hlast => ?_
          rw [List.mem_singleton.mp hlast, complete_ticket hcomplete, hticket]
          exact nofun
  | silent hitems hsent hquiet =>
      have hending : s.lend.recv.ends index = none := by
        unfold Lend.RecvLoop.ends
        split
        · next hrunning =>
            rw [(hquiet hrunning).2 index o rfl]
            rfl
        · rfl
      rw [hidle _ hending]
      refine ht.silent ⟨rfl, rfl, fun _ => .inl, hitems, fun c hc => .inl ?_, fun _ => .inl, rfl⟩ hsound hisos
      rw [← hsent]
      exact hc

/-! ### The lender replies -/

/-- **A reply** is the answer that the completion holds. -/
theorem Tracked.reply (ht : Tracked V s t) {lend : Lender} {toBorrower : List Bytes}
    (hsound : Sound { s with lend := lend, toBorrower := toBorrower }) (hisos : lend.recv.handler.isos.Sound)
    (hprogress : lend.recv.inProgress = s.lend.recv.inProgress) (hsent : lend.recv.sent ⊆ s.lend.recv.sent)
    (hreplies : ∀ f ∈ toBorrower, f ∈ s.toBorrower ∨ t.Carries (ticketOf f) fun sub => sub.RepliedAs V t f) :
    Tracked V { s with lend := lend, toBorrower := toBorrower } t := by
  exact { ht with
    sound := hsound
    isos := hisos
    items := by
      intro item hitem
      exact ht.items item (hprogress ▸ hitem)
    completions := fun completed hcompleted => ht.completions completed (hsent hcompleted)
    replies := by
      intro f hf
      rcases hreplies f hf with hold | hnew
      · exact ht.replies f hold
      · exact hnew
    reached := by
      intro n hn
      show _ ∧ _ ∉ lend.recv.inProgress.map InProgress.ticket
      rw [hprogress]
      exact ht.reached n hn }

theorem tracked_reply {index lost : Nat} (ht : Tracked V s t) (hok : s.stepReply b index lost = .ok s') :
    Tracked V s' t := by
  have hsound : s'.Sound := sound_reply ht.sound hok
  unfold stepReply at hok
  split at hok
  · split at hok
    · cases hok
      exact ht
    · next completed hitem =>
        obtain ⟨⟨result, tokens⟩, hevent, hok⟩ := bind_eq_ok_iff.mp hok
        cases hok
        have hmem : completed ∈ s.lend.recv.sent := List.mem_of_getElem? hitem
        have hrest : s.lend.recv.sent.eraseIdx index ⊆ s.lend.recv.sent := List.eraseIdx_subset
        cases result with
        | error e =>
            refine ht.reply hsound ht.isos rfl hrest fun f hf => ?_
            rcases List.mem_append.mp hf with hold | hnew
            · exact .inl ((loseLast_sublist _ _).subset hold)
            · rw [List.mem_singleton.mp hnew, ticketOf_error]
              exact .inr (t.carries_of_ne nofun)
        | ok send =>
            refine ht.reply hsound ht.isos rfl hrest fun f hf => ?_
            refine (List.mem_append.mp hf).imp_right fun hnew => ?_
            obtain rfl := eq_of_mem_appended hnew
            obtain ⟨f, hbuf, hticket⟩ := (LendSendHandler.handleEvent_ticket hevent).2 send rfl
            rw [ht.sound.flushed.2, List.nil_append] at hbuf
            intro n hn
            rw [hbuf, hticket] at hn
            obtain ⟨sub, hsub, hseqnum, o, ho, c, hc, hanswer⟩ := ht.completions completed hmem n hn
            obtain ⟨status, hstatus, hframe⟩ := handleEvent_frame hc hevent
            rw [ht.sound.flushed.2, List.nil_append] at hframe
            exact ⟨sub, hsub, hseqnum, o, ho, c, status, hanswer, hstatus, hframe⟩
  · cases hok
    exact ht

/-! ### The borrower gives back -/

/-- **A URB is given back** with the answer in the reply. -/
theorem Tracked.giveBack (ht : Tracked V s t) {f : Bytes} {rest : List Bytes} {seq : Seq (Data UrbFrame)}
    (hqueue : s.toBorrower = f :: rest) (hread : readFrame f = .ok (some (.urb seq))) :
    ∃ giveback linker, BorrowRecvHandler.urbReply s.borrow.recv.linker seq = .ok (giveback, linker) ∧
      Returns V t seq.seqnum giveback := by
  have hticket : ticketOf f = some (.urb seq.seqnum) := ticketOf_eq hread
  have hhead : f ∈ s.toBorrower := by
    rw [hqueue]
    exact List.mem_cons_self
  obtain ⟨sub, hsub, hseqnum, o, ho, c, status, hanswer, hstatus, rfl⟩ := ht.replies f hhead _ hticket
  have hsendable := ht.sendable sub hsub
  obtain ⟨data, hheader, hbuf, hread'⟩ := readFrame_completion c status
  obtain rfl : seq = ⟨c.seqnum, data⟩ := by
    have hframe := Option.some.inj (Except.ok.inj (hread.symm.trans hread'))
    exact Frame.urb.inj hframe
  obtain ⟨ticket, handle, hticket', hopen, -⟩ := ht.sound.expected hqueue hread
  cases hticket'
  have hhandle : sub.handle = handle := ht.handle_eq hsub (by rw [hseqnum]; exact hopen.1)
  obtain ⟨giveback, linker, hreply, hgives⟩ := urbReply_completion (hanswer.wellFormed hsendable)
    (hanswer.frame_lt hsendable status).1 hstatus (ht.sound.ledger.lookup_value hopen)
    (ht.sound.ledger.lookup_key hopen) hheader hbuf
  refine ⟨giveback, linker, hreply, sub, hsub, hseqnum, o, ?_, ?_⟩
  · rw [← hseqnum]
    exact ho
  · rw [hhandle]
    exact hanswer.givenBack hgives

theorem tracked_toBorrower {resetDone : Except IoError Unit} (ht : Tracked V s t)
    (hok : s.stepToBorrower resetDone = .ok s') : Tracked V s' t := by
  have hsound : s'.Sound := sound_toBorrower ht.sound hok
  unfold stepToBorrower at hok
  split at hok
  · cases hok
    exact ht
  · next f rest hqueue =>
      obtain ⟨frame, hread, hok⟩ := bind_eq_ok_iff.mp hok
      obtain ⟨recv, hstep, hok⟩ := bind_eq_ok_iff.mp hok
      cases hok
      have hrest : ∀ f' ∈ rest, f' ∈ s.toBorrower := by
        rw [hqueue]
        exact fun f' hf' => List.mem_cons_of_mem f hf'
      unfold Borrow.RecvLoop.step at hstep
      cases hrunning : s.borrow.recv.running with
      | false =>
          rw [if_neg (by simp [hrunning])] at hstep
          cases hstep
          have hhist : settle s.history frame s.borrow.recv s.borrow.recv = s.history := settle_stopped _ _ hrunning
          exact ht.silent ⟨congrArg (fun hist => urbs hist.filed) hhist, congrArg (fun hist => urbs hist.settled) hhist,
            fun _ => .inl, fun _ => .inl, fun _ => .inl, fun f' hf' => .inl (hrest f' hf'), rfl⟩ hsound ht.isos
      | true =>
          rw [if_pos hrunning] at hstep
          cases frame with
          | none =>
              cases hstep
              exact ht.silent ⟨rfl, rfl, fun _ => .inl, fun _ => .inl, fun _ => .inl,
                fun f' hf' => .inl (hrest f' hf'), rfl⟩ hsound ht.isos
          | some frame =>
              cases frame with
              | urb seq =>
                  obtain ⟨⟨giveback, linker⟩, hreply, hstep⟩ := bind_eq_ok_iff.mp hstep
                  cases hstep
                  obtain ⟨giveback', linker', hreply', hreturns⟩ := ht.giveBack hqueue hread
                  obtain ⟨rfl, -⟩ := Prod.mk.inj (Except.ok.inj (hreply.symm.trans hreply'))
                  have hsettle : settle s.history (some (.urb seq)) s.borrow.recv { s.borrow.recv with
                      linker := linker, givenBack := s.borrow.recv.givenBack ++ [giveback] } =
                      s.history.settle (.urb seq.seqnum) giveback.handle := by
                    simp [settle, History.settle]
                  exact { ht with
                    sound := hsound
                    filed := by
                      rw [hsettle]
                      exact ht.filed
                    replies := fun f' hf' => ht.replies f' (hrest f' hf')
                    givenBack := by
                      rw [hsettle]
                      show List.Forall₂ _ ((urbs (s.history.settled ++ [_])).map Prod.fst) _
                      rw [urbs_append, List.map_append]
                      exact List.rel_append ht.givenBack (.cons hreturns .nil) }
              | portReset seqnum =>
                  obtain ⟨linker, hreset, hstep⟩ := bind_eq_ok_iff.mp hstep
                  cases hstep
                  refine ht.silent ⟨?_, ?_, fun _ => .inl, fun _ => .inl, fun _ => .inl,
                    fun f' hf' => .inl (hrest f' hf'), rfl⟩ hsound ht.isos
                  · simp only [settle, hrunning, if_true]
                  · simp only [settle, hrunning, if_true, urbs_append]
                    cases s.borrow.recv.linker.handles.lookup seqnum <;> exact List.append_nil _
              | unlink seqnum =>
                  obtain ⟨ticket, handle, hticket, -⟩ := ht.sound.expected hqueue hread
                  cases hticket

theorem tracked_giveback {result : Except IoError Unit} (ht : Tracked V s t)
    (hok : s.stepGiveback result = .ok s') : Tracked V s' t := by
  have hsound : s'.Sound := sound_giveback ht.sound hok
  obtain ⟨recv, hstep, hok⟩ := bind_eq_ok_iff.mp hok
  cases hok
  have hgiven : recv.givenBack = s.borrow.recv.givenBack := by
    unfold Borrow.RecvLoop.step at hstep
    split at hstep
    · cases result <;> cases hstep <;> rfl
    · cases hstep
      rfl
  exact ht.silent ⟨rfl, rfl, fun _ => .inl, fun _ => .inl, fun _ => .inl, fun _ => .inl, hgiven⟩ hsound ht.isos

/-- **Every step keeps the record.** -/
theorem tracked_step {event : SessionEvent} (ht : Tracked V s t) (hcontract : s.Contract event)
    (hok : s.step V b event = .ok s') : Tracked V s' (traffic s event s' t) := by
  cases event with
  | work work env lost => exact tracked_work ht hcontract hok
  | toLender => exact tracked_toLender ht hok
  | completed index o => exact tracked_completed ht hcontract hok
  | reply index lost => exact tracked_reply ht hok
  | toBorrower resetDone => exact tracked_toBorrower ht hok
  | giveback result => exact tracked_giveback ht hok

/-! ### Whole runs -/

/-- What the drivers may rely on: what was said, and what was given back. -/
structure Transparent (V : Vhci) (t : Traffic) (givenBack : List OwnedUrbGiveback) : Prop where
  /-- No two URBs have one number. -/
  numbered : (t.submitted.map (·.seqnum)).Nodup
  /-- The device is handed each URB at most once, and as it was submitted. -/
  handed : (t.taken.map (·.seqnum)).Nodup ∧ ∀ seq ∈ t.taken, ∃ sub ∈ t.submitted, sub.HandedAs seq
  /-- Each URB that it was handed is answered at most once. -/
  answered : (t.answered.map Prod.fst).Nodup ∧ t.answered.map Prod.fst ⊆ t.taken.map (·.seqnum)
  /-- What the driver is given back are the answers to different URBs, each to its own. -/
  returned : ∃ numbers : List Seqnum, numbers.Nodup ∧ List.Forall₂ (Returns V t) numbers givenBack

theorem Tracked.transparent (ht : Tracked V s t) : Transparent V t s.borrow.recv.givenBack where
  numbered := ht.numbered
  handed := ⟨ht.taken, fun seq hseq => (ht.handed seq hseq).1⟩
  answered := ⟨ht.answered, fun n hn => (ht.reached n hn).1⟩
  returned := by
    refine ⟨_, ?_, ht.givenBack⟩
    have hledger := ht.sound.ledger
    have hinj : ∀ p ∈ s.history.settled, ∀ p' ∈ s.history.settled, p.1.seqnum = p'.1.seqnum → p = p' :=
      fun p hp p' hp' hkey => hledger.filed_unique (hledger.settled_filed hp) (hledger.settled_filed hp') hkey
    exact (hledger.settled_nodup.map_on hinj).sublist (urbs_fst_sublist _)

/-- **The session is transparent.** Whatever the order of submissions, cancels, port resets, deliveries, answers and
replies, in every state that the two peers reach while the drivers keep their side: each URB is handed to the device at
most once, with its header and with the bytes that the driver delivered, and each URB that the driver is given back has
the status and the bytes that the device answered to that URB. -/
theorem session_transparent (V : Vhci) (b : Build) (devId : Lend.UsbDeviceId)
    (hreach : Reach (track (step V b) traffic) (fun x event => x.1.Contract event) (start devId, ⟨[], [], []⟩) (s, t)) :
    Transparent V t s.borrow.recv.givenBack := by
  have ht : Tracked V s t := by
    refine hreach.inv (I := fun x => Tracked V x.1 x.2) (tracked_start V devId) ?_
    rintro ⟨s₁, t₁⟩ event ⟨s₂, t₂⟩ ht hcontract hok
    obtain ⟨hstep, ht₂⟩ := track_eq_ok.mp hok
    obtain rfl : t₂ = traffic s₁ event s₂ t₁ := ht₂
    exact tracked_step ht hcontract hstep
  exact ht.transparent

/-- Two bytes to a bulk endpoint, and two from another. -/
def bulkOut : IocUrb := ⟨.bulk, ⟨0⟩, ⟨0x01⟩, .zero, 2, 0, 0, 0⟩

def bulkIn : IocUrb := ⟨.bulk, ⟨0⟩, ⟨0x81⟩, .zero, 2, 0, 0, 0⟩

def delivering (transfer : Bytes) : WorkEnv := ⟨fun _ => 0, .ok (transfer, []), ⟨0⟩⟩

def bulkAnswer (data : Bytes) : Lend.Outcome := ⟨.completed, data, [], fun _ => 0, false, .ok ()⟩

/-- A handle that nothing was filed for is not outstanding. -/
theorem not_live {hist : History Ticket UrbHandle} {h : UrbHandle} (hfiled : ∀ p ∈ hist.filed, p.2 ≠ h) :
    ¬ hist.Live h := by
  rintro ⟨t, hopen, -⟩
  exact hfiled _ hopen rfl

/-- Of two URBs the second is answered first. -/
theorem swapped_transparent :
    ∃ s t, Reach (track (step .usb .dev) traffic) (fun x event => x.1.Contract event) (start ⟨1, 2⟩, ⟨[], [], []⟩)
        (s, t) ∧
      s.borrow.recv.givenBack = [⟨⟨5⟩, .bulk, .success, .in [1, 2], []⟩, ⟨⟨3⟩, .bulk, .success, .out 2, []⟩] ∧
      Transparent .usb t s.borrow.recv.givenBack := by
  have hout : Sendable bulkOut := ⟨⟨by decide, by decide⟩, by decide, fun _ => rfl, nofun⟩
  have hin : Sendable bulkIn := ⟨⟨by decide, by decide⟩, by decide, fun _ => rfl, nofun⟩
  have hfirst : Submission.Filled ⟨0, bulkOut, ⟨3⟩, .ok ([7, 8], [])⟩ := by
    rintro transfer isoRaw heq
    cases heq
    exact ⟨rfl, rfl⟩
  have hsecond : Submission.Filled ⟨1, bulkIn, ⟨5⟩, .ok ([], [])⟩ := by
    rintro transfer isoRaw heq
    cases heq
    exact ⟨rfl, rfl⟩
  have hstart : Reach (track (step .usb .dev) traffic) (fun x event => x.1.Contract event)
    (start ⟨1, 2⟩, ⟨[], [], []⟩) (start ⟨1, 2⟩, ⟨[], [], []⟩) := .start
  have hreach := hstart
    |>.next (SessionEvent.work (.processUrb bulkOut ⟨3⟩) (delivering [7, 8]) 0)
      ⟨⟨by decide, not_live nofun⟩, hout, hfirst⟩ rfl
    |>.next (SessionEvent.work (.processUrb bulkIn ⟨5⟩) (delivering []) 0)
      ⟨⟨by decide, not_live (by decide)⟩, hin, hsecond⟩ rfl
    |>.next SessionEvent.toLender ⟨trivial, trivial⟩ rfl
    |>.next SessionEvent.toLender ⟨trivial, trivial⟩ rfl
    |>.next (SessionEvent.completed 1 (bulkAnswer [1, 2])) ⟨trivial, fun item hitem => by cases hitem; trivial⟩ rfl
    |>.next (SessionEvent.reply 0 0) ⟨trivial, trivial⟩ rfl
    |>.next (SessionEvent.completed 0 (bulkAnswer [7, 8])) ⟨trivial, fun item hitem => by cases hitem; trivial⟩ rfl
    |>.next (SessionEvent.reply 0 0) ⟨trivial, trivial⟩ rfl
    |>.next (SessionEvent.toBorrower (.ok ())) ⟨trivial, trivial⟩ rfl
    |>.next (SessionEvent.toBorrower (.ok ())) ⟨trivial, trivial⟩ rfl
  exact ⟨_, _, hreach, rfl, session_transparent .usb .dev ⟨1, 2⟩ hreach⟩

end Session
end Qusb

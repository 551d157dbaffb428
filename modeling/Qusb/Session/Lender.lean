import Mathlib.Data.List.Perm.Basic
import Qusb.Session.Ticket

/-! The tickets a lender holds.

A ticket enters with its frame, stays while its item is in progress and while its completion waits, and
leaves with the reply. A cancellation token is active only for a URB the lender still holds, so an unlink
for any other URB finds no token. -/

open ByteCodec Tables

namespace Qusb

open Msg Proto Lend

/-! ### Tokens -/

namespace Lend.Tokens

theorem active_register (t : Tokens) (seqnum : Seqnum) :
    ∃ token, (t.registerCancelToken seqnum).2.active = t.active.insert seqnum token := by
  unfold registerCancelToken
  cases t.cached with
  | nil => exact ⟨_, rfl⟩
  | cons token cached => exact ⟨_, rfl⟩

theorem mem_active_of_cancel {t : Tokens} {seqnum n : Seqnum}
    (h : n ∈ (t.cancelUrb seqnum).active) : n ∈ t.active := by
  unfold cancelUrb at h
  split at h
  · exact (AList.mem_erase.mp h).2
  · exact h

/-- Cancelling a transfer without an active token does nothing. -/
theorem cancelUrb_of_notMem {t : Tokens} {seqnum : Seqnum} (h : seqnum ∉ t.active) :
    t.cancelUrb seqnum = t := by
  unfold cancelUrb
  rw [AList.lookup_eq_none.mpr h]

theorem mem_active_of_deregister {b : Build} {t t' : Tokens} {seqnum n : Seqnum}
    (hok : t.deregisterToken b seqnum = .ok t') (h : n ∈ t'.active) : n ∈ t.active ∧ n ≠ seqnum := by
  unfold deregisterToken at hok
  split at hok
  · obtain ⟨-, -, hok⟩ := bind_eq_ok_iff.mp hok
    cases hok
    exact (AList.mem_erase.mp h).symm
  · next hnone =>
      cases hok
      refine ⟨h, ?_⟩
      rintro rfl
      exact AList.lookup_eq_none.mp hnone h

end Lend.Tokens

/-! ### Items -/

namespace Lend

/-- The transfer of an item that comes from the cache of small transfers. -/
def InProgress.isSmall : InProgress → Bool
  | .ctrl _ _ _ _ => true
  | .int _ _ _ _ => true
  | .bulk _ _ _ => true
  | _ => false

/-- The transfer of an item that comes from the cache of big transfers. -/
def InProgress.isoTransfer : InProgress → Option LibusbTransfer
  | .iso _ _ _ _ _ _ _ transfer => some transfer
  | _ => none

/-- The item in progress of a submission, and the handler once it is set up. -/
inductive Taken (h : LendRecvHandler) (seq : Seq (Data UrbFrame)) : InProgress × LendRecvHandler → Prop
  | blocking {item : InProgress} (hticket : item.ticket = .urb seq.seqnum) (hsmall : item.isSmall = false)
      (hiso : item.isoTransfer = none) : Taken h seq (item, h)
  | small {item : InProgress} (hticket : item.ticket = .urb seq.seqnum) (hsmall : item.isSmall = true)
      (hiso : item.isoTransfer = none) : Taken h seq (item, (h.registerCancelToken seq.seqnum).removeSmall)
  | iso {item : InProgress} {cached : Option LibusbTransfer} {isos : BigTransfers LibusbTransfer}
      (hkind : seq.data.get.header.kind = .isochronous) (hticket : item.ticket = .urb seq.seqnum)
      (hsmall : item.isSmall = false)
      (hremove : h.isos.remove seq.data.get.header.isoPacketCount = .ok (cached, isos))
      (hiso : item.isoTransfer = some (cached.getD seq.data.get.header.isoPacketCount.toNat)) :
      Taken h seq (item, { h.registerCancelToken seq.seqnum with isos := isos })

theorem taken_newIso {h : LendRecvHandler} {seq : Seq (Data UrbFrame)} {r : InProgress × LendRecvHandler}
    (hkind : seq.data.get.header.kind = .isochronous) (hok : h.newIso seq = .ok r) : Taken h seq r := by
  obtain ⟨raw, -, hok⟩ := bind_eq_ok_iff.mp hok
  split at hok
  · obtain ⟨⟨cached, isos⟩, hremove, hok⟩ := bind_eq_ok_iff.mp hok
    cases hok
    exact .iso hkind rfl rfl hremove rfl
  · cases hok

/-- **A submission** becomes an item with its number, and takes at most one token and one transfer for it. -/
theorem taken_of_stepUrb {V : Vhci} {s s' : RecvLoop} {seq : Seq (Data UrbFrame)} (hok : s.stepUrb V seq = .ok s') :
    ∃ r, Taken s.handler seq r ∧ s' = s.push r := by
  unfold RecvLoop.stepUrb at hok
  split at hok
  · next hkind =>
      obtain ⟨r, hr, hs⟩ := RecvLoop.push_map_eq_ok_iff.mp hok
      exact ⟨r, taken_newIso hkind hr, hs⟩
  · obtain ⟨r, hr, hs⟩ := RecvLoop.push_map_eq_ok_iff.mp hok
    obtain ⟨n, -, hr⟩ := bind_eq_ok_iff.mp hr
    cases hr
    exact ⟨_, .small rfl rfl rfl, hs⟩
  · split at hok
    · exact ⟨_, .blocking rfl rfl rfl, (Except.ok.inj hok).symm⟩
    · exact ⟨_, .blocking rfl rfl rfl, (Except.ok.inj hok).symm⟩
    · exact ⟨_, .blocking rfl rfl rfl, (Except.ok.inj hok).symm⟩
    · obtain ⟨r, hr, hs⟩ := RecvLoop.push_map_eq_ok_iff.mp hok
      obtain ⟨n, -, hr⟩ := bind_eq_ok_iff.mp hr
      cases hr
      exact ⟨_, .small rfl rfl rfl, hs⟩
  · obtain ⟨r, hr, hs⟩ := RecvLoop.push_map_eq_ok_iff.mp hok
    obtain ⟨n, -, hr⟩ := bind_eq_ok_iff.mp hr
    cases hr
    exact ⟨_, .small rfl rfl rfl, hs⟩

/-- A transfer that was set up has the sequence number of its frame, and so has the only new token. -/
def SetUp (h : LendRecvHandler) (seqnum : Seqnum) (r : InProgress × LendRecvHandler) : Prop :=
  r.1.ticket = .urb seqnum ∧ ∀ n ∈ r.2.tokens.active, n = seqnum ∨ n ∈ h.tokens.active

theorem setUp_of_registered {h : LendRecvHandler} {seqnum : Seqnum} {r : InProgress × LendRecvHandler}
    (hticket : r.1.ticket = .urb seqnum)
    (htokens : r.2.tokens = (h.registerCancelToken seqnum).tokens) : SetUp h seqnum r := by
  refine ⟨hticket, fun n hn => ?_⟩
  obtain ⟨token, hactive⟩ := h.tokens.active_register seqnum
  rw [htokens] at hn
  have hn' : n ∈ h.tokens.active.insert seqnum token := hactive ▸ hn
  exact (AList.mem_insert _).mp hn'

theorem setUp_of_taken {h : LendRecvHandler} {seq : Seq (Data UrbFrame)} {r : InProgress × LendRecvHandler}
    (htaken : Taken h seq r) : SetUp h seq.seqnum r := by
  cases htaken with
  | blocking hticket hsmall hiso => exact ⟨hticket, fun n hn => .inr hn⟩
  | small hticket hsmall hiso => exact setUp_of_registered hticket rfl
  | iso hkind hticket hsmall hremove hiso => exact setUp_of_registered hticket rfl

variable {V : Vhci}

/-- A completion has the ticket of its item. -/
theorem complete_ticket {o : Outcome} {item : InProgress} {completed : CompletedTransfer}
    (hok : item.complete o = .ok completed) : completed.ticket = item.ticket := by
  cases item with
  | reset seqnum =>
      cases hok
      rfl
  | ctrl seqnum endpoint bufLen isGetStatus =>
      obtain ⟨-, -, hok⟩ := bind_eq_ok_iff.mp hok
      obtain ⟨buf, -, hok⟩ := bind_eq_ok_iff.mp hok
      cases hok
      rfl
  | setInterface seqnum req =>
      obtain ⟨status, -, hok⟩ := bind_eq_ok_iff.mp hok
      cases hok
      rfl
  | setConfig seqnum req =>
      cases hok
      rfl
  | clearStall seqnum req =>
      cases hok
      rfl
  | int seqnum endpoint interval bufLen =>
      obtain ⟨-, -, hok⟩ := bind_eq_ok_iff.mp hok
      cases hok
      rfl
  | iso seqnum endpoint interval bufLen capacity raw n transfer =>
      obtain ⟨-, -, hok⟩ := bind_eq_ok_iff.mp hok
      cases hok
      rfl
  | bulk seqnum endpoint bufLen =>
      obtain ⟨-, -, hok⟩ := bind_eq_ok_iff.mp hok
      cases hok
      rfl

theorem perm_eraseIdx {α : Type} {l : List α} {index : Nat} {a : α} (h : l[index]? = some a) :
    l.Perm (a :: l.eraseIdx index) := by
  obtain ⟨hlt, rfl⟩ := List.getElem?_eq_some_iff.mp h
  exact (List.getElem_cons_eraseIdx_perm hlt).symm

theorem recycle_tokens (h : LendRecvHandler) (item : InProgress) :
    (item.recycle h).tokens = h.tokens := by
  cases item <;> rfl

/-! ### The receiving loop -/

/-- The ticket that comes with a frame. -/
def RecvEvent.tickets : RecvEvent → List Ticket
  | .frame f => f.ticket.toList
  | _ => []

namespace RecvLoop

/-- The tickets of the items in progress and of the completions not yet replied to. -/
def tickets (s : RecvLoop) : List Ticket :=
  s.inProgress.map InProgress.ticket ++ s.sent.map CompletedTransfer.ticket

/-- Active tokens belong to URBs that the lender holds. -/
def Held (s : RecvLoop) : Prop := ∀ n ∈ s.handler.tokens.active, Ticket.urb n ∈ s.tickets

theorem tickets_push (s : RecvLoop) (r : InProgress × LendRecvHandler) :
    (s.push r).tickets.Perm (r.1.ticket :: s.tickets) := by
  simp only [tickets, push, List.map_append, List.map_cons, List.map_nil, List.append_assoc,
    List.singleton_append]
  exact List.perm_middle

theorem held_push {s : RecvLoop} {r : InProgress × LendRecvHandler} {seqnum : Seqnum}
    (hheld : s.Held) (hr : SetUp s.handler seqnum r) : (s.push r).Held := by
  intro n hn
  have hperm := s.tickets_push r
  rw [hperm.mem_iff]
  rcases hr.2 n hn with rfl | hold
  · rw [hr.1]
    exact List.mem_cons_self
  · exact List.mem_cons_of_mem _ (hheld n hold)

/-- The item that finishes moves to the completions. -/
theorem tickets_complete {s : RecvLoop} {index : Nat} {item : InProgress}
    {completed : CompletedTransfer} (handler : LendRecvHandler)
    (hitem : s.inProgress[index]? = some item) (hticket : completed.ticket = item.ticket) :
    (RecvLoop.mk handler (s.inProgress.eraseIdx index) (s.sent ++ [completed]) s.running).tickets.Perm
      s.tickets := by
  have hmove := (perm_eraseIdx hitem).map InProgress.ticket
  rw [List.map_cons] at hmove
  have hadd : ((s.inProgress.eraseIdx index).map InProgress.ticket ++
      (s.sent ++ [completed]).map CompletedTransfer.ticket).Perm
      (item.ticket :: ((s.inProgress.eraseIdx index).map InProgress.ticket ++
        s.sent.map CompletedTransfer.ticket)) := by
    rw [List.map_append, ← List.append_assoc, List.map_singleton, hticket]
    exact List.perm_append_singleton _ _
  exact hadd.trans (hmove.symm.append_right _)

/-- **One turn of the loop** passes on the tickets it has and those that arrive, and keeps tokens only
for URBs among them. -/
theorem step_tickets {V : Vhci} {s s' : RecvLoop} {event : RecvEvent} (hheld : s.Held)
    (hok : s.step V event = .ok s') :
    s'.tickets.Subperm (event.tickets ++ s.tickets) ∧ s'.Held := by
  have hsame : s.tickets.Subperm (event.tickets ++ s.tickets) :=
    (List.sublist_append_right _ _).subperm
  unfold step at hok
  split at hok
  · cases event with
    | frame frame =>
        cases frame with
        | urb seq =>
            obtain ⟨r, htaken, rfl⟩ := taken_of_stepUrb hok
            have hr := setUp_of_taken htaken
            refine ⟨(s.tickets_push r).subperm.trans ?_, held_push hheld hr⟩
            rw [hr.1]
            exact List.Subperm.refl _
        | portReset seqnum =>
            cases hok
            refine ⟨(s.tickets_push _).subperm, fun n hn => ?_⟩
            rw [(s.tickets_push _).mem_iff]
            exact List.mem_cons_of_mem _ (hheld n hn)
        | unlink seqnum =>
            cases hok
            exact ⟨hsame, fun n hn => hheld n (Tokens.mem_active_of_cancel hn)⟩
    | frameError =>
        cases hok
        exact ⟨hsame, hheld⟩
    | closed =>
        cases hok
        exact ⟨hsame, hheld⟩
    | completed index o =>
        simp only at hok
        split at hok
        · cases hok
          exact ⟨hsame, hheld⟩
        · next item hitem =>
            obtain ⟨completed, hcompleted, hok⟩ := bind_eq_ok_iff.mp hok
            cases hok
            have hperm := tickets_complete (item.recycle s.handler) hitem (complete_ticket hcompleted)
            refine ⟨hperm.subperm.trans hsame, fun n hn => hperm.symm.subset (hheld n ?_)⟩
            rw [← recycle_tokens s.handler item]
            exact hn
  · cases hok
    exact ⟨hsame, hheld⟩

/-- An unlink for a URB that the lender does not hold changes nothing. -/
theorem step_stale_unlink (V : Vhci) {s : RecvLoop} (hheld : s.Held) {n : Seqnum}
    (hgone : Ticket.urb n ∉ s.tickets) : s.step V (.frame (.unlink n)) = .ok s := by
  have hcancel := Tokens.cancelUrb_of_notMem fun hn => hgone (hheld n hn)
  unfold step
  split
  · simp only [LendRecvHandler.cancelUrb, hcancel]
  · rfl

end RecvLoop

/-! ### The sending handler -/

/-- The reply of a completed transfer has its ticket, and the token of the URB is let go. -/
theorem LendSendHandler.completed_ticket {b : Build} {h : LendSendHandler} {tokens tokens' : Tokens}
    {kind : TransferKind} {seqnum : Seqnum} {res : ResultData} {endpoint : Endpoint} {interval : UInt16}
    {rawIsoBuf : Bytes} {numErrors numIsoPackets : UInt16} {status : Except TransferError Unit}
    {r : Except UsbError LendSendHandler}
    (hok : h.completed b tokens kind seqnum res endpoint interval rawIsoBuf numErrors numIsoPackets
      status = .ok (r, tokens')) :
    (∀ n ∈ tokens'.active, n ∈ tokens.active ∧ Ticket.urb seqnum ≠ .urb n) ∧
    ∀ h', r = .ok h' → ∃ f, h'.buf = h.buf ++ f ∧ ticketOf f = some (.urb seqnum) := by
  obtain ⟨tokens₁, hderegister, hrest⟩ := bind_eq_ok_iff.mp hok
  have htokens : tokens' = tokens₁ := by
    cases status with
    | ok u =>
        cases hrest
        rfl
    | error err =>
        cases err <;> cases hrest <;> rfl
  subst htokens
  constructor
  · intro n hn
    obtain ⟨hold, hne⟩ := Tokens.mem_active_of_deregister hderegister hn
    exact ⟨hold, fun heq => hne (Ticket.urb.inj heq).symm⟩
  · rintro h' rfl
    obtain ⟨status', -, rfl⟩ := completed_ok hok
    exact ⟨_, rfl, ticketOf_replyFrame _ _ _ _ _ _ _ _ _⟩

theorem LendSendHandler.handleEvent_ticket {b : Build} {h : LendSendHandler} {tokens tokens' : Tokens}
    {completed : CompletedTransfer} {r : Except UsbError LendSendHandler}
    (hok : h.handleEvent b tokens completed = .ok (r, tokens')) :
    (∀ n ∈ tokens'.active, n ∈ tokens.active ∧ completed.ticket ≠ .urb n) ∧
    ∀ h', r = .ok h' → ∃ f, h'.buf = h.buf ++ f ∧ ticketOf f = some completed.ticket := by
  cases completed with
  | reset seq =>
      cases hok
      refine ⟨fun n hn => ⟨hn, by simp [CompletedTransfer.ticket]⟩, fun h' hr => ?_⟩
      unfold deviceResetted at hr
      split at hr
      · cases hr
        exact ⟨_, rfl, ticketOf_eq (readFrame_retPort seq.seqnum)⟩
      · cases hr
  | ctrl seq => exact completed_ticket hok
  | int seq => exact completed_ticket hok
  | iso seq => exact completed_ticket hok
  | bulk seq => exact completed_ticket hok

end Lend
end Qusb

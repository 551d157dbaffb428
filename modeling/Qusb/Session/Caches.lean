import Qusb.Base.Reuse
import Qusb.Session.Lending

/-! What a lender keeps for reuse.

A transfer is taken from a cache, or made, when a submission is set up, and kept when the device has answered; a token
is taken with it, and kept when the completion is handled. How many a session has then depends on how many it has had in
use at once, and not on how long it runs. -/

open Tables Runs Reuse

namespace Qusb.Lend

open Msg Proto

/-! ### The caches -/

def Tokens.stock (t : Tokens) : Stock := ⟨t.cached.length, t.active.entries.length⟩

/-- The transfers without room for packets. -/
def RecvLoop.smalls (s : RecvLoop) : Stock := ⟨s.handler.smalls, s.inProgress.countP InProgress.isSmall⟩

/-- The transfers with room for packets, each by its room. -/
def RecvLoop.isos (s : RecvLoop) : SortedStock LibusbTransfer :=
  ⟨s.handler.isos.contents, ↑(s.inProgress.filterMap InProgress.isoTransfer)⟩

/-- How many of each were in use at once, and the numbers of packets that a transfer was needed for. -/
structure Peaks where
  smalls : Nat
  isos : Nat
  tokens : Nat
  packets : Finset UInt16

def Peaks.zero : Peaks := ⟨0, 0, 0, ∅⟩

def Peaks.next (p : Peaks) (s : RecvLoop) (packets : Finset UInt16) : Peaks where
  smalls := max p.smalls s.smalls.used
  isos := max p.isos s.isos.used.card
  tokens := max p.tokens s.handler.tokens.stock.used
  packets := p.packets ∪ packets

namespace LendLoops

/-- The number of packets that a transfer is needed for in this event. -/
def needed (x : LendLoops) : LendEvent → Finset UInt16
  | .recv (.frame (.urb seq)) =>
      if x.recv.running ∧ seq.data.get.header.kind = .isochronous then {seq.data.get.header.isoPacketCount} else ∅
  | _ => ∅

def peaks (x : LendLoops) (event : LendEvent) (x' : LendLoops) (p : Peaks) : Peaks :=
  p.next x'.recv (x.needed event)

end LendLoops

/-! ### Tokens -/

namespace Tokens

variable {t t' : Tokens} {first peak : Nat}

theorem active_erase_length (t : Tokens) (seqnum : Seqnum) :
    (t.active.erase seqnum).entries.length ≤ t.active.entries.length :=
  (List.kerase_sublist seqnum t.active.entries).length_le

theorem stock_register (t : Tokens) (seqnum : Seqnum) : (t.registerCancelToken seqnum).2.stock =
    ⟨t.cached.length - 1, (t.active.erase seqnum).entries.length + 1⟩ := by
  unfold registerCancelToken
  cases t.cached with
  | nil => rfl
  | cons token cached => rfl

/-- A number that is registered again loses the token that it had. -/
theorem within_register (h : t.stock.Within first peak) (seqnum : Seqnum) :
    (t.registerCancelToken seqnum).2.stock.Within first
      (max peak (t.registerCancelToken seqnum).2.stock.used) := by
  rw [stock_register]
  cases hlookup : t.active.lookup seqnum with
  | none =>
      rw [entries_erase_of_lookup_eq_none hlookup]
      exact h.take
  | some token =>
      have hpos := (entries_perm_erase hlookup).length_eq
      rw [List.length_cons] at hpos
      exact h.drop (Nat.sub_le _ _) hpos.ge

theorem within_cancel (h : t.stock.Within first peak) (seqnum : Seqnum) :
    (t.cancelUrb seqnum).stock.Within first (max peak (t.cancelUrb seqnum).stock.used) := by
  unfold cancelUrb
  split
  · exact h.drop le_rfl (t.active_erase_length seqnum)
  · exact h.drop le_rfl le_rfl

theorem within_deregister {b : Build} {seqnum : Seqnum} (h : t.stock.Within first peak)
    (hok : t.deregisterToken b seqnum = .ok t') : t'.stock.Within first (max peak t'.stock.used) := by
  unfold deregisterToken at hok
  split at hok
  · next token hlookup =>
      obtain ⟨-, -, hok⟩ := bind_eq_ok_iff.mp hok
      cases hok
      have hlength := (entries_perm_erase hlookup).length_eq
      rw [List.length_cons] at hlength
      have hgive := h.give (show 0 < t.active.entries.length by omega)
      rwa [Stock.give, stock, hlength, Nat.add_sub_cancel] at hgive
  · cases hok
    exact h.drop le_rfl le_rfl

end Tokens

/-- A completion gives its token back, if it has one. -/
theorem LendSendHandler.within_handleEvent {b : Build} {h : LendSendHandler} {tokens tokens' : Tokens}
    {completed : CompletedTransfer} {result : Except UsbError LendSendHandler} {first peak : Nat}
    (hwithin : tokens.stock.Within first peak) (hok : h.handleEvent b tokens completed = .ok (result, tokens')) :
    tokens'.stock.Within first (max peak tokens'.stock.used) := by
  have hreply : ∀ kind seqnum res endpoint interval rawIsoBuf numErrors numIsoPackets status,
      h.completed b tokens kind seqnum res endpoint interval rawIsoBuf numErrors numIsoPackets status =
        .ok (result, tokens') → tokens'.stock.Within first (max peak tokens'.stock.used) := by
    intro kind seqnum res endpoint interval rawIsoBuf numErrors numIsoPackets status hok
    obtain ⟨tokens₁, htokens, hrest⟩ := bind_eq_ok_iff.mp hok
    have hsame : tokens' = tokens₁ := by
      cases status with
      | ok u =>
          cases hrest
          rfl
      | error err => cases err <;> cases hrest <;> rfl
    rw [hsame]
    exact Tokens.within_deregister hwithin htokens
  cases completed with
  | reset seq =>
      cases hok
      exact hwithin.drop le_rfl le_rfl
  | ctrl seq => exact hreply _ _ _ _ _ _ _ _ _ hok
  | int seq => exact hreply _ _ _ _ _ _ _ _ _ hok
  | iso seq => exact hreply _ _ _ _ _ _ _ _ _ hok
  | bulk seq => exact hreply _ _ _ _ _ _ _ _ _ hok

/-! ### Transfers -/

/-- What a lender has for reuse and in use. -/
structure Bounded (s : RecvLoop) (p : Peaks) : Prop where
  smalls : s.smalls.Exact 2 p.smalls
  isos : s.isos.Within p.isos
  packets : ∀ t ∈ s.isos.all, ∃ n ∈ p.packets, t = n.toNat
  sound : s.handler.isos.Sound
  keyed : s.handler.isos.Keyed
  tokens : s.handler.tokens.stock.Within 0 p.tokens

theorem bounded_start : Bounded .start .zero where
  smalls := Stock.exact_start 2
  isos := SortedStock.within_start
  packets t ht := absurd ht (Multiset.notMem_zero t)
  sound := BigTransfers.sound_empty
  keyed key entry h := by
    rw [RecvLoop.start, AList.lookup_empty] at h
    cases h
  tokens := Stock.within_start 0

namespace Bounded

variable {s s' : RecvLoop} {p : Peaks} {packets : Finset UInt16}

/-- Nothing happens to the transfers with room for packets. -/
theorem of_isos (h : Bounded s p) (hhandler : s'.handler.isos = s.handler.isos)
    (hused : (s'.inProgress.filterMap InProgress.isoTransfer).Perm (s.inProgress.filterMap InProgress.isoTransfer))
    (hsmalls : s'.smalls.Exact 2 (max p.smalls s'.smalls.used))
    (htokens : s'.handler.tokens.stock.Within 0 (max p.tokens s'.handler.tokens.stock.used)) :
    Bounded s' (p.next s' packets) := by
  have hisos : s'.isos = s.isos := by
    rw [RecvLoop.isos, RecvLoop.isos, hhandler, Multiset.coe_eq_coe.mpr hused]
  refine ⟨hsmalls, ?_, fun t ht => ?_, hhandler ▸ h.sound, hhandler ▸ h.keyed, htokens⟩
  · show s'.isos.Within (max p.isos s'.isos.used.card)
    rw [hisos]
    exact h.isos.keep
  · obtain ⟨n, hn, heq⟩ := h.packets t (hisos ▸ ht)
    exact ⟨n, Finset.mem_union_left _ hn, heq⟩

/-- Nothing happens to any transfer. -/
theorem of_tokens (h : Bounded s p) (hsmalls : s'.handler.smalls = s.handler.smalls)
    (hisos : s'.handler.isos = s.handler.isos) (hinProgress : s'.inProgress = s.inProgress)
    (htokens : s'.handler.tokens.stock.Within 0 (max p.tokens s'.handler.tokens.stock.used)) :
    Bounded s' (p.next s' packets) := by
  have hsame : s'.smalls = s.smalls := by
    rw [RecvLoop.smalls, RecvLoop.smalls, hsmalls, hinProgress]
  exact h.of_isos hisos (List.Perm.of_eq (by rw [hinProgress])) (hsame ▸ h.smalls.keep) htokens

theorem smalls_push (s : RecvLoop) (r : InProgress × LendRecvHandler) :
    (s.push r).smalls = ⟨r.2.smalls, s.smalls.used + r.1.isSmall.toNat⟩ := by
  rw [RecvLoop.smalls, RecvLoop.push, List.countP_append, List.countP_singleton]
  cases r.1.isSmall <;> rfl

theorem isos_push (s : RecvLoop) (r : InProgress × LendRecvHandler) :
    (s.push r).inProgress.filterMap InProgress.isoTransfer =
      s.inProgress.filterMap InProgress.isoTransfer ++ r.1.isoTransfer.toList := by
  rw [RecvLoop.push, List.filterMap_append]
  cases h : r.1.isoTransfer <;> simp [h]

/-- An item that takes no transfer. -/
theorem push_blocking (h : Bounded s p) {item : InProgress} (hsmall : item.isSmall = false)
    (hiso : item.isoTransfer = none) :
    Bounded (s.push (item, s.handler)) (p.next (s.push (item, s.handler)) packets) := by
  have hsmalls : (s.push (item, s.handler)).smalls = s.smalls := by
    rw [smalls_push, hsmall]
    rfl
  refine h.of_isos rfl ?_ (hsmalls ▸ h.smalls.keep) (h.tokens.drop le_rfl le_rfl)
  rw [isos_push, hiso, Option.toList_none, List.append_nil]

/-- A transfer with room for the packets is a best fit of those that are kept, or a new one. -/
theorem take_iso (h : Bounded s p) {seq : Seq (Data UrbFrame)} {item : InProgress} {cached : Option LibusbTransfer}
    {isos : BigTransfers LibusbTransfer}
    (hremove : s.handler.isos.remove seq.data.get.header.isoPacketCount = .ok (cached, isos))
    (hiso : item.isoTransfer = some (cached.getD seq.data.get.header.isoPacketCount.toNat)) :
    s.isos.Take seq.data.get.header.isoPacketCount.toNat
        (s.push (item, { s.handler.registerCancelToken seq.seqnum with isos := isos })).isos ∧
      isos.Sound ∧ isos.Keyed := by
  obtain ⟨r, hok, hsound, hkeyed, hfit⟩ :=
    BigTransfers.remove_bestFit h.sound h.keyed seq.data.get.header.isoPacketCount
  obtain rfl : (cached, isos) = r := Except.ok.inj (hremove.symm.trans hok)
  refine ⟨?_, hsound, hkeyed⟩
  have hisos : (s.push (item, { s.handler.registerCancelToken seq.seqnum with isos := isos })).isos =
      ⟨isos.contents, cached.getD seq.data.get.header.isoPacketCount.toNat ::ₘ s.isos.used⟩ := by
    rw [RecvLoop.isos, isos_push, hiso, Option.toList_some]
    exact congrArg (SortedStock.mk _) (Multiset.coe_eq_coe.mpr (List.perm_append_singleton _ _))
  rw [hisos]
  cases cached with
  | none =>
      obtain ⟨rfl, hless⟩ := hfit
      exact .new hless
  | some t => exact .kept hfit.1

/-- **Setting up** takes at most one transfer and one token. -/
theorem taken {seq : Seq (Data UrbFrame)} {r : InProgress × LendRecvHandler} (h : Bounded s p)
    (htaken : Taken s.handler seq r)
    (hpackets : seq.data.get.header.kind = .isochronous → seq.data.get.header.isoPacketCount ∈ packets) :
    Bounded (s.push r) (p.next (s.push r) packets) := by
  cases htaken with
  | blocking hticket hsmall hiso => exact h.push_blocking hsmall hiso
  | small hticket hsmall hiso =>
      refine h.of_isos rfl ?_ ?_ (Tokens.within_register h.tokens seq.seqnum)
      · rw [isos_push, hiso, Option.toList_none, List.append_nil]
      · have htake := h.smalls.take
        rw [smalls_push, hsmall]
        exact htake
  | @iso item cached isos hkind hticket hsmall hremove hiso =>
      obtain ⟨htake, hsound, hkeyed⟩ := h.take_iso hremove hiso
      have hsmalls : (s.push (item, { s.handler.registerCancelToken seq.seqnum with isos := isos })).smalls =
          s.smalls := by
        rw [smalls_push, hsmall]
        rfl
      refine ⟨?_, h.isos.take htake, fun t ht => ?_, hsound, hkeyed, Tokens.within_register h.tokens seq.seqnum⟩
      · rw [hsmalls]
        show s.smalls.Exact 2 (max p.smalls (s.push _).smalls.used)
        rw [hsmalls]
        exact h.smalls.keep
      · rcases htake.mem_all ht with rfl | hold
        · exact ⟨_, Finset.mem_union_right _ (hpackets hkind), rfl⟩
        · obtain ⟨n, hn, heq⟩ := h.packets t hold
          exact ⟨n, Finset.mem_union_left _ hn, heq⟩

/-! ### Finishing -/

theorem recycle_smalls (h : LendRecvHandler) (item : InProgress) :
    (item.recycle h).smalls = h.smalls + item.isSmall.toNat := by
  cases item <;> rfl

theorem recycle_isos (h : LendRecvHandler) (item : InProgress) :
    (item.recycle h).isos = item.isoTransfer.elim h.isos fun transfer => h.isos.insert transfer := by
  cases item <;> rfl

/-- **Finishing** an item gives its transfer back. -/
theorem completed {index : Nat} {item : InProgress} {completed : CompletedTransfer} (h : Bounded s p)
    (hitem : s.inProgress[index]? = some item)
    (hs : s' = ⟨item.recycle s.handler, s.inProgress.eraseIdx index, s.sent ++ [completed], s.running⟩) :
    Bounded s' (p.next s' packets) := by
  have hperm := perm_eraseIdx hitem
  have htokens : s'.handler.tokens.stock.Within 0 (max p.tokens s'.handler.tokens.stock.used) := by
    rw [hs, recycle_tokens]
    exact h.tokens.drop le_rfl le_rfl
  have hcount : s.smalls.used = s'.smalls.used + item.isSmall.toNat := by
    rw [RecvLoop.smalls, RecvLoop.smalls, hs, hperm.countP_eq, List.countP_cons]
    cases item.isSmall <;> rfl
  have hfree : s'.smalls.free = s.smalls.free + item.isSmall.toNat := by
    rw [RecvLoop.smalls, hs]
    exact recycle_smalls s.handler item
  have hsmalls : s'.smalls.Exact 2 (max p.smalls s'.smalls.used) := by
    have hmoved : s'.smalls = ⟨s.smalls.free + item.isSmall.toNat, s.smalls.used - item.isSmall.toNat⟩ := by
      rw [hcount, Nat.add_sub_cancel, ← hfree]
    rw [hmoved]
    cases hsmall : item.isSmall with
    | false => exact h.smalls.keep
    | true =>
        rw [hsmall] at hcount
        exact h.smalls.give (hcount ▸ Nat.succ_pos _)
  cases hiso : item.isoTransfer with
  | none =>
      refine h.of_isos ?_ ?_ hsmalls htokens
      · rw [hs, recycle_isos, hiso, Option.elim_none]
      · have hused := hperm.filterMap InProgress.isoTransfer
        rw [List.filterMap_cons_none hiso] at hused
        rw [hs]
        exact hused.symm
  | some transfer =>
      have hused : s.isos.used = transfer ::ₘ s'.isos.used := by
        have hused := hperm.filterMap InProgress.isoTransfer
        rw [List.filterMap_cons_some hiso] at hused
        rw [RecvLoop.isos, RecvLoop.isos, hs]
        exact Multiset.coe_eq_coe.mpr hused
      have hhandler : s'.handler.isos = s.handler.isos.insert transfer := by
        rw [hs, recycle_isos, hiso, Option.elim_some]
      have hgive : s'.isos = ⟨transfer ::ₘ s.isos.free, s'.isos.used⟩ := by
        rw [RecvLoop.isos, hhandler, BigTransfers.contents_insert]
        rfl
      have hall : s'.isos.all = s.isos.all := by
        rw [hgive, SortedStock.all, SortedStock.all, hused, Multiset.cons_add, Multiset.add_cons]
      have hfits : Transfer.maxIsoPackets transfer ≤ 65535 := by
        have hmem : transfer ∈ s.isos.all := by
          rw [SortedStock.all, hused]
          exact Multiset.mem_add.mpr (.inr (Multiset.mem_cons_self _ _))
        obtain ⟨n, -, heq⟩ := h.packets transfer hmem
        show transfer ≤ 65535
        rw [heq]
        exact Nat.le_of_lt_succ n.toNat_lt
      refine ⟨hsmalls, ?_, fun t ht => ?_, ?_, ?_, htokens⟩
      · rw [hgive]
        exact h.isos.give hused
      · obtain ⟨n, hn, heq⟩ := h.packets t (hall ▸ ht)
        exact ⟨n, Finset.mem_union_left _ hn, heq⟩
      · rw [hhandler]
        exact BigTransfers.sound_insert h.sound transfer
      · rw [hhandler]
        exact BigTransfers.keyed_insert h.keyed hfits

end Bounded

/-! ### Whole runs -/

namespace LendLoops

variable {V : Vhci} {b : Build}

theorem bounded_step {x x' : LendLoops} {p : Peaks} {event : LendEvent} (h : Bounded x.recv p)
    (hok : x.step V b event = .ok x') : Bounded x'.recv (peaks x event x' p) := by
  have hkeep : ∀ {s' : RecvLoop}, s'.handler = x.recv.handler → s'.inProgress = x.recv.inProgress →
      Bounded s' (p.next s' (x.needed event)) := by
    intro s' hhandler hinProgress
    exact h.of_tokens (by rw [hhandler]) (by rw [hhandler]) hinProgress (by
      rw [hhandler]
      exact h.tokens.drop le_rfl le_rfl)
  cases turn_of_step hok with
  | @taken seq r hrunning htaken =>
      refine h.taken htaken fun hkind => ?_
      rw [needed, if_pos ⟨hrunning, hkind⟩]
      exact Finset.mem_singleton_self _
  | reset => exact h.push_blocking rfl rfl
  | cancelled => exact h.of_tokens rfl rfl rfl (Tokens.within_cancel h.tokens _)
  | completed hitem hcompleted => exact h.completed hitem rfl
  | lent hrunning hitem hevent =>
      exact h.of_tokens rfl rfl rfl (LendSendHandler.within_handleEvent h.tokens hevent)
  | ended hevent => exact hkeep rfl rfl
  | flushed hrunning hready hflush => exact hkeep rfl rfl
  | wrote hrunning hready => exact hkeep rfl rfl
  | exited => exact hkeep rfl rfl
  | idle hseq hlend hflush => exact hkeep rfl rfl

/-- **A lender keeps no more than it needs.** In every run, and at any point of it: the transfers without room for
packets, kept or in use, are the two that were made at first, or as many as were in use at once; the tokens are not more
than were in use at once; and neither are the transfers with room for any one number of packets, so that all of these
are not more than that for each number of packets that was asked for. -/
theorem caches_bounded (V : Vhci) (b : Build) (devId : UsbDeviceId) {x : LendLoops} {p : Peaks}
    (hreach : Reach (track (step V b) peaks) (fun _ _ => True) (start devId, .zero) (x, p)) :
    x.recv.smalls.total = max 2 p.smalls ∧ x.recv.handler.tokens.stock.total ≤ p.tokens ∧
      (∀ packets, x.recv.isos.all.count packets ≤ p.isos) ∧ x.recv.isos.all.card ≤ p.packets.card * p.isos := by
  have hbounded : Bounded x.recv p := by
    refine hreach.inv (I := fun y => Bounded y.1.recv y.2) bounded_start ?_
    intro y event y' hy _ hok
    obtain ⟨hstep, hpeaks⟩ := track_eq_ok.mp hok
    rw [hpeaks]
    exact bounded_step hy hstep
  refine ⟨hbounded.smalls.total_eq, ?_, hbounded.isos.count_le, ?_⟩
  · have htotal := hbounded.tokens.total_le
    rwa [Nat.zero_max] at htotal
  · have hsizes : ∀ t ∈ x.recv.isos.all, t ∈ p.packets.image UInt16.toNat := by
      intro t ht
      obtain ⟨n, hn, rfl⟩ := hbounded.packets t ht
      exact Finset.mem_image_of_mem _ hn
    exact (hbounded.isos.card_le hsizes).trans (Nat.mul_le_mul_right _ Finset.card_image_le)

/-- A bulk transfer from the device. -/
def bulkIn (seqnum : Seqnum) : Seq (Data UrbFrame) where
  seqnum := seqnum
  data := ⟨(UrbHeader.mk 512 0 ⟨0x81⟩ .bulk 0 .pending (0, 0, 0) 0 0 .zero).asBytes, by decide⟩

/-- Three transfers at once, one of which is answered and replied to, and a fourth. -/
def threeAtOnce : List LendEvent :=
  [.recv (.frame (.urb (bulkIn 0))), .recv (.frame (.urb (bulkIn 1))), .recv (.frame (.urb (bulkIn 2))),
    .recv (.completed 1 ⟨.completed, [7], [], fun _ => 0, false, .ok ()⟩), .lend 0,
    .recv (.frame (.urb (bulkIn 3)))]

theorem threeAtOnce_bounded :
    ∃ x p, run (track (step .usb .dev) peaks) (start ⟨1, 2⟩, .zero) threeAtOnce = .ok (x, p) ∧
      p.smalls = 3 ∧ p.tokens = 3 ∧
      (x.recv.smalls.total = max 2 p.smalls ∧ x.recv.handler.tokens.stock.total ≤ p.tokens ∧
        (∀ packets, x.recv.isos.all.count packets ≤ p.isos) ∧
        x.recv.isos.all.card ≤ p.packets.card * p.isos) := by
  refine ⟨_, _, rfl, rfl, rfl, ?_⟩
  exact caches_bounded .usb .dev ⟨1, 2⟩ (reach_of_run threeAtOnce rfl)

end LendLoops

end Qusb.Lend

import Qusb.Lend.Recv
import Qusb.RoundTrip.Reply

/-! The length of an isochronous reply.

The buffer of an isochronous transfer is taken with its padding and then shortened to the length of the request.
Its capacity keeps the padding, and the completed transfer is sent back at the full capacity: the reply has the
length of the request exactly if the request needs no padding. -/

open ByteCodec

namespace Qusb.Lend

open Msg Proto

/-- What the handler appended for the completed transfer: one reply, whose URB header has the length of the
request and which, towards the host, carries so many bytes before its padding. -/
def KeepsLength (request : UrbHeader) (completed : CompletedTransfer) (s s' : LendSendHandler) : Prop :=
  ∃ c status, completed.completion = some c ∧ s'.buf = s.buf ++ c.frame status ∧
    (c.urbHeader status).actualTransferLen = request.actualTransferLen ∧
    (request.endpoint.dir = .in → c.res.get.length = request.actualTransferLen.toNat)

/-! ### The buffer of a transfer -/

theorem fillToCapacity_length {buf : Bytes} {capacity : Nat} (h : buf.length ≤ capacity) (mem : Nat → UInt8) :
    (fillToCapacity buf capacity mem).length = capacity := by
  unfold fillToCapacity
  rw [List.length_append, List.length_map, List.length_range]
  omega

/-- The capacity of the buffer is the padded length, in both directions. -/
theorem newIso_item {h h' : LendRecvHandler} {seq : Seq (Data UrbFrame)} {item : InProgress}
    (hnew : h.newIso seq = .ok (item, h')) :
    ∃ raw transfer, item = .iso seq.seqnum seq.data.get.header.endpoint seq.data.get.header.interval
      (min seq.data.get.header.paddedTransferLen seq.data.get.header.actualTransferLen.toNat)
      seq.data.get.header.paddedTransferLen raw seq.data.get.header.isoPacketCount transfer := by
  obtain ⟨raw, -, hnew⟩ := bind_eq_ok_iff.mp hnew
  split at hnew
  · obtain ⟨⟨cached, isos⟩, -, hnew⟩ := bind_eq_ok_iff.mp hnew
    cases hnew
    exact ⟨raw, _, rfl⟩
  · cases hnew

/-- **The result** of a completed isochronous transfer is its whole buffer. -/
theorem newIso_completion {h h' : LendRecvHandler} {seq : Seq (Data UrbFrame)} {item : InProgress} {o : Outcome}
    {completed : CompletedTransfer} (hnew : h.newIso seq = .ok (item, h')) (hdone : item.complete o = .ok completed) :
    ∃ (c : Completion) (buf : Bytes), completed.completion = some c ∧
      buf.length = seq.data.get.header.paddedTransferLen ∧
      c.res = ResultData.new buf seq.data.get.header.endpoint.dir := by
  obtain ⟨raw, transfer, rfl⟩ := newIso_item hnew
  obtain ⟨u, -, hdone⟩ := bind_eq_ok_iff.mp hdone
  cases hdone
  refine ⟨_, _, rfl, fillToCapacity_length ?_ o.mem, rfl⟩
  rw [List.length_take]
  omega

/-! ### The reply -/

/-- A length survives its padding exactly if it is a multiple of eight. -/
theorem ofNat_padded_eq_iff (header : UrbHeader) :
    UInt16.ofNat header.paddedTransferLen = header.actualTransferLen ↔ 8 ∣ header.actualTransferLen.toNat := by
  have hlt := header.actualTransferLen.toNat_lt
  have hpadded := header.paddedTransferLen_eq
  rw [← UInt16.toNat_inj, UInt16.toNat_ofNat']
  constructor
  · intro heq
    omega
  · intro hdvd
    omega

/-- A completion that goes through appends its frame. -/
theorem handleEvent_appends {b : Build} {s s' : LendSendHandler} {tokens tokens' : Tokens}
    {completed : CompletedTransfer} {c : Completion} (hc : completed.completion = some c)
    (hevent : s.handleEvent b tokens completed = .ok (.ok s', tokens')) :
    ∃ status, s'.buf = s.buf ++ c.frame status := by
  have hreply : s.completed b tokens c.kind c.seqnum c.res c.endpoint c.interval c.rawIsoBuf c.numErrors
      c.numIsoPackets c.status = .ok (.ok s', tokens') := by
    cases completed with
    | reset seq => cases hc
    | ctrl seq => cases hc; exact hevent
    | int seq => cases hc; exact hevent
    | iso seq => cases hc; exact hevent
    | bulk seq => cases hc; exact hevent
  obtain ⟨status, -, rfl⟩ := LendSendHandler.completed_ok hreply
  exact ⟨status, rfl⟩

/-- **Isochronous replies.** For every isochronous submission that is accepted, whatever its direction, length
and packets, and however its transfer ends, the reply keeps the length of the request exactly if this is a multiple
of eight. -/
theorem iso_length_kept_iff (b : Build) {h h' : LendRecvHandler} {seq : Seq (Data UrbFrame)} {item : InProgress}
    (hnew : h.newIso seq = .ok (item, h')) {o : Outcome} {completed : CompletedTransfer}
    (hdone : item.complete o = .ok completed) {s s' : LendSendHandler} {tokens tokens' : Tokens}
    (hevent : s.handleEvent b tokens completed = .ok (.ok s', tokens')) :
    KeepsLength seq.data.get.header completed s s' ↔ 8 ∣ seq.data.get.header.actualTransferLen.toNat := by
  obtain ⟨c, buf, hc, hlen, hres⟩ := newIso_completion hnew hdone
  have hactual : ∀ status, (c.urbHeader status).actualTransferLen =
      UInt16.ofNat seq.data.get.header.paddedTransferLen := by
    intro status
    show UInt16.ofNat c.res.actualTransferLen = _
    rw [hres, ResultData.actualTransferLen_new, hlen]
  constructor
  · rintro ⟨c', status, hc', -, hkept, -⟩
    obtain rfl : c = c' := Option.some.inj (hc.symm.trans hc')
    exact (ofNat_padded_eq_iff _).mp ((hactual status).symm.trans hkept)
  · intro hdvd
    obtain ⟨status, hbuf⟩ := handleEvent_appends hc hevent
    refine ⟨c, status, hc, hbuf, (hactual status).trans ((ofNat_padded_eq_iff _).mpr hdvd), fun hin => ?_⟩
    have hpadded := seq.data.get.header.paddedTransferLen_eq
    rw [hres, hin]
    show buf.length = _
    omega

/-! ### Requests of eight and of three bytes -/

/-- An isochronous request of the given length and direction, with one packet. -/
def isoRequest (endpoint : UInt8) (len : UInt16) (transfer : Bytes) : Seq (Data UrbFrame) where
  seqnum := 7
  data :=
    ⟨(UrbHeader.mk len 1 ⟨endpoint⟩ .isochronous 1 .pending (0, 0, 0) 0 0 .zero).asBytes ++
        (transfer ++ [0, 0, 0, 0, 3, 0, 0, 0]), by rw [tryRef_urb]; rfl⟩

/-- The device transfers three bytes. -/
def threeBytes : Outcome := ⟨.completed, [1, 2, 3], [(3, 0)], fun _ => 0, false, .ok ()⟩

theorem eight_bytes_kept :
    ∃ item h' completed s' tokens',
      LendRecvHandler.newIso ⟨.empty, ∅, 2⟩ (isoRequest 0x81 8 []) = .ok (item, h') ∧
      item.complete threeBytes = .ok completed ∧
      (LendSendHandler.new ⟨1, 2⟩).handleEvent .dev .empty completed = .ok (.ok s', tokens') ∧
      KeepsLength (isoRequest 0x81 8 []).data.get.header completed (.new ⟨1, 2⟩) s' := by
  refine ⟨_, _, _, _, _, rfl, rfl, rfl, ?_⟩
  have hkept := @iso_length_kept_iff .dev ⟨.empty, ∅, 2⟩ _ (isoRequest 0x81 8 []) _ rfl threeBytes _ rfl
    (.new ⟨1, 2⟩) _ .empty _ rfl
  exact hkept.mpr ⟨1, rfl⟩

theorem three_bytes_grow :
    ∃ item h' completed s' tokens',
      LendRecvHandler.newIso ⟨.empty, ∅, 2⟩ (isoRequest 0x81 3 []) = .ok (item, h') ∧
      item.complete threeBytes = .ok completed ∧
      (LendSendHandler.new ⟨1, 2⟩).handleEvent .dev .empty completed = .ok (.ok s', tokens') ∧
      ¬ KeepsLength (isoRequest 0x81 3 []).data.get.header completed (.new ⟨1, 2⟩) s' := by
  refine ⟨_, _, _, _, _, rfl, rfl, rfl, ?_⟩
  rintro ⟨c, status, hc, -, hkept, -⟩
  cases hc
  revert hkept
  show ¬ UInt16.ofNat 8 = 3
  decide

end Qusb.Lend

import Qusb.RoundTrip.IsoLength
import Qusb.RoundTrip.Request

/-! A transfer, from the driver to the device and back.

A URB becomes a frame, the frame an item of the lender's loop, the item's end a completed transfer, this a reply, and
the reply a URB that is given back. Each of the five steps is taken in its own state, so that anything may happen
between them. `GivenBack` says of the two ends what the driver is to be told of the device's answer. -/

open ByteCodec Tables

namespace Qusb

open Msg Proto Borrow Lend
open BorrowSendHandler LendRecvHandler

/-! ### The two ends -/

/-- The lender serves the request with a blocking call. -/
def Blocking (V : Vhci) (urb : IocUrb) : Prop :=
  urb.typ = .control ∧ CtrlKind.parse V urb.setupPacket ≠ .async

instance (V : Vhci) (urb : IocUrb) : Decidable (Blocking V urb) := inferInstanceAs (Decidable (_ ∧ _))

/-- The bytes that the device has transferred. -/
def moved (urb : IocUrb) (o : Lend.Outcome) : Bytes := o.data.take (asUsize urb.bufferLength)

/-- The bytes of the answer. A status that the driver asks for is always that of a self-powered device; an
isochronous answer has the whole padded buffer, whatever is in its rest. -/
def answerBytes (V : Vhci) (urb : IocUrb) (o : Lend.Outcome) : Bytes :=
  if Blocking V urb then []
  else
    match urb.typ with
    | .control => if V.req urb.setupPacket = .deviceGetStatus then 0x01 :: (moved urb o).drop 1 else moved urb o
    | .isochronous => fillToCapacity (moved urb o) (urbHeader urb).paddedTransferLen o.mem
    | .interrupt => moved urb o
    | .bulk => moved urb o

def answerDir (V : Vhci) (urb : IocUrb) : Dir := if Blocking V urb then .out else urb.endpoint.dir

def answerStatus (V : Vhci) (urb : IocUrb) (o : Lend.Outcome) : Except TransferError Unit :=
  if Blocking V urb then pollBlocking o.result else convertLibusbToProto o.status

/-- The length and the status of each packet. -/
def answerPackets (urb : IocUrb) (o : Lend.Outcome) : Bytes :=
  if urb.typ = .isochronous then
    (o.packets.take (asUsize urb.packetCount)).flatMap fun packet =>
      leBytes 4 packet.1.toNat ++ leBytes 4 packet.2.toNat
  else []

/-- What the driver is given back for the answer of the device. -/
structure GivenBack (V : Vhci) (urb : IocUrb) (handle : UrbHandle) (o : Lend.Outcome) (g : OwnedUrbGiveback) : Prop where
  handle : g.handle = handle
  kind : g.kind = urb.typ
  status : transferStatus (answerStatus V urb o) = some g.status
  data : match answerDir V urb with
    | .in => g.data = .in (answerBytes V urb o)
    | .out => ∃ transferred, g.data = .out transferred ∧ transferred.toNat = (answerBytes V urb o).length
  isoPackets : g.isoPackets = answerPackets urb o

/-! ### The item in progress -/

/-- The item that a URB becomes on the lender's side. -/
def IsItemOf (V : Vhci) (urb : IocUrb) (seqnum : Seqnum) (item : InProgress) : Prop :=
  match urb.typ with
  | .control =>
      match CtrlKind.parse V urb.setupPacket with
      | .setInterface req => item = .setInterface seqnum req
      | .setConfig req => item = .setConfig seqnum req
      | .clearStall req => item = .clearStall seqnum req
      | .async => item = .ctrl seqnum urb.endpoint (asUsize urb.bufferLength) (V.req urb.setupPacket = .deviceGetStatus)
  | .interrupt => item = .int seqnum urb.endpoint (urbHeader urb).interval (asUsize urb.bufferLength)
  | .isochronous => ∃ raw transfer, raw.length = asUsize urb.packetCount * UrbHeader.isoPacketSize ∧
      item = .iso seqnum urb.endpoint (urbHeader urb).interval (asUsize urb.bufferLength)
        (urbHeader urb).paddedTransferLen raw (urbHeader urb).isoPacketCount transfer
  | .bulk => item = .bulk seqnum urb.endpoint (asUsize urb.bufferLength)

/-- What a URB needs to reach the device whole: its lengths fit the frame, only isochronous URBs have packets, and
the setup packet has the length of the URB. -/
structure Sendable (urb : IocUrb) : Prop where
  fits : FieldsFit urb
  size : 32 + (urbHeader urb).paddedTransferLen + (urbHeader urb).isoByteLen < 65536
  iso : urb.typ ≠ .isochronous → asUsize urb.packetCount = 0
  ctrl : urb.typ = .control → asUsize urb.bufferLength = urb.setupPacket.length.toNat

section Item

variable {V : Vhci} {urb : IocUrb} {transfer pad isoRaw buf : Bytes} {data : Data UrbFrame} {seqnum : Seqnum}
  {mem : Nat → UInt8} {h : LendRecvHandler}

theorem Sendable.bufferLength_le (hsendable : Sendable urb) :
    asUsize urb.bufferLength ≤ (urbHeader urb).paddedTransferLen ∧ (urbHeader urb).paddedTransferLen ≤ 65503 := by
  have hsize := hsendable.size
  exact ⟨bufferLength_le_padded hsendable.fits, by omega⟩

/-- The room for the transfer, after the setup packet if there is one. -/
theorem IsBufferOf.length (hof : IsBufferOf urb transfer buf) (hfills : Fills urb transfer isoRaw) :
    buf.length = (if urb.typ = .control then IocSetupPacket.layout.width else 0) + asUsize urb.bufferLength := by
  obtain ⟨rest, rfl, hrest⟩ := hof
  have hlen : rest.length = asUsize urb.bufferLength := by
    split at hrest
    · next hout =>
        rw [hrest, hfills.transfer, hout]
        exact Nat.mul_one _
    · exact hrest
  rw [List.length_append, hlen]
  split
  · rw [IocSetupPacket.layout.length_encode]
  · rfl

theorem newCtrl_item {r : InProgress × LendRecvHandler} {seq : Seq (Data UrbFrame)} (hnew : h.newCtrl V seq = .ok r)
    (hholds : r.1.Holds seq buf isoRaw) :
    r.1 = .ctrl seq.seqnum seq.data.get.header.endpoint (buf.length - IocSetupPacket.layout.width)
      (V.req seq.data.get.header.ctrlPacket = .deviceGetStatus) := by
  obtain ⟨n, -, hnew⟩ := bind_eq_ok_iff.mp hnew
  cases hnew
  obtain ⟨-, -, hlen⟩ := hholds
  rw [← hlen]

theorem newInt_item {r : InProgress × LendRecvHandler} {seq : Seq (Data UrbFrame)} (hnew : h.newInt seq = .ok r)
    (hholds : r.1.Holds seq buf isoRaw) :
    r.1 = .int seq.seqnum seq.data.get.header.endpoint seq.data.get.header.interval buf.length := by
  obtain ⟨n, -, hnew⟩ := bind_eq_ok_iff.mp hnew
  cases hnew
  obtain ⟨-, -, -, hlen⟩ := hholds
  rw [← hlen]

theorem newBulk_item {r : InProgress × LendRecvHandler} {seq : Seq (Data UrbFrame)} (hnew : h.newBulk seq = .ok r)
    (hholds : r.1.Holds seq buf isoRaw) :
    r.1 = .bulk seq.seqnum seq.data.get.header.endpoint buf.length := by
  obtain ⟨n, -, hnew⟩ := bind_eq_ok_iff.mp hnew
  cases hnew
  obtain ⟨-, -, hlen⟩ := hholds
  rw [← hlen]

/-- **The lender takes a submission up** as the item of its URB. -/
theorem Submitted.stepUrb (hs : Submitted urb transfer pad isoRaw data) (hsendable : Sendable urb)
    (s : Lend.RecvLoop) (hisos : s.handler.isos.Sound) :
    ∃ item handler, s.stepUrb V ⟨seqnum, data⟩ = .ok (s.push (item, handler)) ∧ IsItemOf V urb seqnum item := by
  have hpackets : urb.typ ≠ .isochronous → isoRaw = [] := by
    intro hne
    refine List.eq_nil_of_length_eq_zero ?_
    rw [hs.fills.isoRaw, hsendable.iso hne, Nat.zero_mul]
  have hctrl : urb.typ = .control → asUsize urb.bufferLength = urb.setupPacket.length.toNat ∧
      ((urbHeader urb).isOut ∨ asUsize urb.bufferLength ≤ 65528) := by
    intro htyp
    obtain ⟨hle, hle'⟩ := hsendable.bufferLength_le
    exact ⟨hsendable.ctrl htyp, .inr (by omega)⟩
  obtain ⟨buf, hbufs, hof⟩ := hs.buffers (fun _ => 0) hpackets hctrl
  obtain ⟨r, hnew, hholds⟩ : ∃ r, newUrb V s.handler ⟨seqnum, data⟩ = .ok r ∧ r.1.Holds ⟨seqnum, data⟩ buf isoRaw :=
    newUrb_of_buffers hisos hbufs
  have hlen := hof.length hs.fills
  have hkind : (urbHeader urb).kind = urb.typ := rfl
  have hsetup : (urbHeader urb).ctrlPacket = urb.setupPacket := rfl
  have hendpoint : (urbHeader urb).endpoint = urb.endpoint := rfl
  have hpush : ∀ {e : Except Fault (InProgress × LendRecvHandler)}, e = .ok r →
      s.push <$> e = .ok (s.push (r.1, r.2)) := fun he => by rw [he]; rfl
  unfold Lend.RecvLoop.stepUrb IsItemOf
  unfold newUrb at hnew
  simp only [hs.header, hkind, hsetup] at hnew ⊢
  cases htyp : urb.typ with
  | isochronous =>
      rw [htyp] at hnew hlen
      rw [if_neg (by decide), Nat.zero_add] at hlen
      have hnew' : s.handler.newIso ⟨seqnum, data⟩ = .ok (r.1, r.2) := hnew
      obtain ⟨raw, transfer', hitem⟩ := newIso_item hnew'
      rw [hitem] at hholds
      obtain ⟨-, -, -, hbuf, rfl, -⟩ := hholds
      refine ⟨r.1, r.2, hpush hnew, raw, transfer', hs.fills.isoRaw, ?_⟩
      rw [hitem, hbuf, hlen, hs.header, hendpoint]
  | interrupt =>
      rw [htyp] at hnew hlen
      rw [if_neg (by decide), Nat.zero_add] at hlen
      refine ⟨r.1, r.2, hpush hnew, (newInt_item hnew hholds).trans ?_⟩
      rw [hlen, hs.header, hendpoint]
  | control =>
      rw [htyp] at hnew hlen
      rw [if_pos rfl] at hlen
      cases CtrlKind.parse V urb.setupPacket with
      | setInterface req => exact ⟨_, _, rfl, rfl⟩
      | setConfig req => exact ⟨_, _, rfl, rfl⟩
      | clearStall req => exact ⟨_, _, rfl, rfl⟩
      | async =>
          refine ⟨r.1, r.2, hpush hnew, (newCtrl_item hnew hholds).trans ?_⟩
          rw [hlen, Nat.add_sub_cancel_left, hs.header, hendpoint, hsetup]
  | bulk =>
      rw [htyp] at hnew hlen
      rw [if_neg (by decide), Nat.zero_add] at hlen
      refine ⟨r.1, r.2, hpush hnew, (newBulk_item hnew hholds).trans ?_⟩
      rw [hlen, hs.header, hendpoint]

end Item

/-! ### The answer -/

/-- The completion says of the device's answer what the driver is to be told. -/
structure IsAnswer (V : Vhci) (urb : IocUrb) (seqnum : Seqnum) (o : Lend.Outcome) (c : Completion) : Prop where
  seqnum : c.seqnum = seqnum
  kind : c.kind = urb.typ
  res : c.res = ResultData.new (answerBytes V urb o) (answerDir V urb)
  dir : c.endpoint.dir = answerDir V urb
  rawIsoBuf : c.rawIsoBuf = answerPackets urb o
  packets : c.rawIsoBuf.length = UrbHeader.isoPacketSize * c.numIsoPackets.toNat
  isoByteLen : c.rawIsoBuf.length ≤ (urbHeader urb).isoByteLen
  status : c.status = answerStatus V urb o
  length : (answerBytes V urb o).length ≤ (urbHeader urb).paddedTransferLen

/-- The library fills in a length and a status for every packet of a transfer. -/
def PacketsAnswered (urb : IocUrb) (o : Lend.Outcome) : Prop :=
  urb.typ = .isochronous → asUsize urb.packetCount ≤ o.packets.length

section Answer

variable {V : Vhci} {urb : IocUrb} {seqnum : Seqnum} {item : InProgress} {o : Lend.Outcome}

theorem not_blocking_of_typ (htyp : urb.typ ≠ .control) : ¬ Blocking V urb := fun hblocking => htyp hblocking.1

theorem answerPackets_nil (htyp : urb.typ ≠ .isochronous) : answerPackets urb o = [] := if_neg htyp

theorem moved_length_le (hsendable : Sendable urb) : (moved urb o).length ≤ (urbHeader urb).paddedTransferLen := by
  have hle := hsendable.bufferLength_le.1
  unfold moved
  rw [List.length_take]
  omega

theorem packetBytes_length (packets : List (UInt32 × UInt32)) :
    (packets.flatMap fun packet => leBytes 4 packet.1.toNat ++ leBytes 4 packet.2.toNat).length =
      UrbHeader.isoPacketSize * packets.length := by
  induction packets with
  | nil => rfl
  | cons packet packets ih =>
      rw [List.flatMap_cons, List.length_append, ih, List.length_append, leBytes_length, leBytes_length,
        List.length_cons]
      show 4 + 4 + 8 * packets.length = 8 * (packets.length + 1)
      omega

/-- A completion without packets that is not made by a blocking call. -/
theorem isAnswer_plain {kind : TransferKind} {interval : UInt16} (hkind : kind = urb.typ)
    (htyp : urb.typ ≠ .isochronous) (hblocking : ¬ Blocking V urb) {bytes : Bytes}
    (hbytes : answerBytes V urb o = bytes) (hlen : bytes.length ≤ (urbHeader urb).paddedTransferLen) :
    IsAnswer V urb seqnum o ⟨seqnum, kind, ResultData.new bytes urb.endpoint.dir, urb.endpoint, interval, [], 0, 0,
      convertLibusbToProto o.status⟩ where
  seqnum := rfl
  kind := hkind
  res := by rw [hbytes, answerDir, if_neg hblocking]
  dir := by rw [answerDir, if_neg hblocking]
  rawIsoBuf := (answerPackets_nil htyp).symm
  packets := rfl
  isoByteLen := Nat.zero_le _
  status := by rw [answerStatus, if_neg hblocking]
  length := by rw [hbytes]; exact hlen

/-- The completion of a blocking call. -/
theorem isAnswer_blocking (hblocking : Blocking V urb) :
    IsAnswer V urb seqnum o ⟨seqnum, .control, .out 0, ⟨0⟩, 0, [], 0, 0, pollBlocking o.result⟩ where
  seqnum := rfl
  kind := hblocking.1.symm
  res := by
    rw [answerBytes, if_pos hblocking, answerDir, if_pos hblocking]
    rfl
  dir := by
    rw [answerDir, if_pos hblocking]
    show (⟨0⟩ : Endpoint).dir = .out
    decide
  rawIsoBuf := (answerPackets_nil (by rw [hblocking.1]; decide)).symm
  packets := rfl
  isoByteLen := Nat.zero_le _
  status := by rw [answerStatus, if_pos hblocking]
  length := by
    rw [answerBytes, if_pos hblocking]
    exact Nat.zero_le _

/-- The first byte of a status is overwritten; a status without a byte is not answered. -/
theorem patchStatus_moved {isGetStatus : Bool} (hanswered : isGetStatus → moved urb o ≠ []) :
    ∃ bytes, patchStatus isGetStatus (moved urb o) = .ok bytes ∧ bytes.length = (moved urb o).length ∧
      bytes = if isGetStatus then 0x01 :: (moved urb o).drop 1 else moved urb o := by
  cases isGetStatus with
  | false => exact ⟨moved urb o, rfl, rfl, rfl⟩
  | true =>
      cases hmoved : moved urb o with
      | nil => exact absurd hmoved (hanswered rfl)
      | cons x rest => exact ⟨0x01 :: rest, rfl, rfl, rfl⟩

theorem intoInner_ok (hshared : o.shared = false) : intoInner o = .ok () :=
  if_neg (by rw [hshared]; exact Bool.false_ne_true)

/-- The descriptors are those of the library, for all packets. -/
theorem givebackPackets_answer {raw : Bytes} {packets : List (UInt32 × UInt32)}
    (hraw : raw.length = packets.length * UrbHeader.isoPacketSize) :
    givebackPackets raw packets = packets.flatMap fun packet =>
      leBytes 4 packet.1.toNat ++ leBytes 4 packet.2.toNat := by
  have hrest : raw.drop (8 * packets.length) = [] := by
    refine List.drop_of_length_le ?_
    rw [hraw]
    show packets.length * 8 ≤ 8 * packets.length
    omega
  unfold givebackPackets
  rw [hrest, List.append_nil]

theorem isAnswer_iso (hsendable : Sendable urb) (htyp : urb.typ = .isochronous) (hpackets : PacketsAnswered urb o)
    {raw : Bytes} (hraw : raw.length = asUsize urb.packetCount * UrbHeader.isoPacketSize) (numErrors : UInt16) :
    IsAnswer V urb seqnum o ⟨seqnum, .isochronous,
      ResultData.new (fillToCapacity (moved urb o) (urbHeader urb).paddedTransferLen o.mem) urb.endpoint.dir,
      urb.endpoint, (urbHeader urb).interval,
      givebackPackets raw (o.packets.take (urbHeader urb).isoPacketCount.toNat), numErrors,
      (urbHeader urb).isoPacketCount, convertLibusbToProto o.status⟩ := by
  have hblocking : ¬ Blocking V urb := not_blocking_of_typ (by rw [htyp]; decide)
  have hcount := isoPacketCount_of_fits hsendable.fits
  have htaken : (o.packets.take (urbHeader urb).isoPacketCount.toNat).length = asUsize urb.packetCount := by
    rw [List.length_take, hcount, Nat.min_eq_left (hpackets htyp)]
  have hgiven := givebackPackets_answer (hraw.trans (congrArg (· * UrbHeader.isoPacketSize) htaken.symm))
  have hlength := packetBytes_length (o.packets.take (urbHeader urb).isoPacketCount.toNat)
  have hbytes : answerBytes V urb o =
      fillToCapacity (moved urb o) (urbHeader urb).paddedTransferLen o.mem := by
    rw [answerBytes, if_neg hblocking, htyp]
  refine ⟨rfl, htyp.symm, ?_, ?_, ?_, ?_, ?_, ?_, ?_⟩
  · rw [hbytes, answerDir, if_neg hblocking]
  · rw [answerDir, if_neg hblocking]
  · rw [hgiven, answerPackets, if_pos htyp, hcount]
  · rw [hgiven, hlength, htaken, hcount]
  · rw [hgiven, hlength, htaken, UrbHeader.isoByteLen, hcount]
    exact (Nat.mul_comm _ _).le
  · rw [answerStatus, if_neg hblocking]
  · rw [hbytes, fillToCapacity_length (moved_length_le hsendable)]

/-- A control transfer, or the blocking call that stands for it. -/
theorem complete_control (hsendable : Sendable urb) (htyp : urb.typ = .control) (hitem : IsItemOf V urb seqnum item)
    (hanswered : Answered o item) :
    ∃ completed c, item.complete o = .ok completed ∧ completed.completion = some c ∧ IsAnswer V urb seqnum o c := by
  unfold IsItemOf at hitem
  rw [htyp] at hitem
  cases hparse : CtrlKind.parse V urb.setupPacket with
  | setInterface req =>
      rw [hparse] at hitem
      cases hitem
      have hpoll : pollSetInterface o.result = .ok (pollBlocking o.result) := by
        unfold pollSetInterface
        split
        · next hresult => exact absurd hresult hanswered.1
        · next hresult => exact absurd hresult hanswered.2
        · rfl
      have hblocking : Blocking V urb := ⟨htyp, by rw [hparse]; exact nofun⟩
      exact ⟨_, _, by rw [InProgress.complete, hpoll]; rfl, rfl, isAnswer_blocking hblocking⟩
  | setConfig req =>
      rw [hparse] at hitem
      cases hitem
      exact ⟨_, _, rfl, rfl, isAnswer_blocking ⟨htyp, by rw [hparse]; exact nofun⟩⟩
  | clearStall req =>
      rw [hparse] at hitem
      cases hitem
      exact ⟨_, _, rfl, rfl, isAnswer_blocking ⟨htyp, by rw [hparse]; exact nofun⟩⟩
  | async =>
      rw [hparse] at hitem
      cases hitem
      have hblocking : ¬ Blocking V urb := fun hboth => hboth.2 hparse
      obtain ⟨bytes, hpatch, hlen, hbytes⟩ := patchStatus_moved hanswered.2
      have hanswer : answerBytes V urb o = bytes := by
        rw [answerBytes, if_neg hblocking, htyp, hbytes]
        simp only [decide_eq_true_eq]
      have hle : bytes.length ≤ (urbHeader urb).paddedTransferLen := hlen ▸ moved_length_le hsendable
      refine ⟨.ctrl ⟨seqnum, ⟨ResultData.new bytes urb.endpoint.dir, urb.endpoint, convertLibusbToProto o.status⟩⟩, _,
        ?_, rfl, isAnswer_plain htyp.symm (by rw [htyp]; decide) hblocking hanswer hle⟩
      rw [InProgress.complete, intoInner_ok hanswered.1]
      show (patchStatus _ (moved urb o) >>= _) = _
      rw [hpatch]
      rfl

/-- **The end of an item** is a completion with the device's answer. -/
theorem IsItemOf.complete (hitem : IsItemOf V urb seqnum item) (hsendable : Sendable urb)
    (hanswered : Answered o item) (hpackets : PacketsAnswered urb o) :
    ∃ completed c, item.complete o = .ok completed ∧ completed.completion = some c ∧ IsAnswer V urb seqnum o c := by
  have hplain := moved_length_le (o := o) hsendable
  have hitem' := hitem
  unfold IsItemOf at hitem
  cases htyp : urb.typ with
  | isochronous =>
      rw [htyp] at hitem
      obtain ⟨raw, transfer, hraw, rfl⟩ := hitem
      exact ⟨_, _, by rw [InProgress.complete, intoInner_ok hanswered]; rfl, rfl,
        isAnswer_iso hsendable htyp hpackets hraw _⟩
  | interrupt =>
      rw [htyp] at hitem
      cases hitem
      have hblocking : ¬ Blocking V urb := not_blocking_of_typ (by rw [htyp]; decide)
      have hbytes : answerBytes V urb o = moved urb o := by rw [answerBytes, if_neg hblocking, htyp]
      exact ⟨_, _, by rw [InProgress.complete, intoInner_ok hanswered]; rfl, rfl,
        isAnswer_plain htyp.symm (by rw [htyp]; decide) hblocking hbytes hplain⟩
  | control => exact complete_control hsendable htyp hitem' hanswered
  | bulk =>
      rw [htyp] at hitem
      cases hitem
      have hblocking : ¬ Blocking V urb := not_blocking_of_typ (by rw [htyp]; decide)
      have hbytes : answerBytes V urb o = moved urb o := by rw [answerBytes, if_neg hblocking, htyp]
      exact ⟨_, _, by rw [InProgress.complete, intoInner_ok hanswered]; rfl, rfl,
        isAnswer_plain htyp.symm (by rw [htyp]; decide) hblocking hbytes hplain⟩

end Answer

/-! ### There and back -/

/-- However the bytes of the frame arrive, and whatever follows them, the lender cuts the frame off, and its loop
takes up an item. -/
def TakesUp (a : Alloc) (b : Build) (V : Vhci) (s : Lend.RecvLoop) (f : Bytes) (P : InProgress → Prop) : Prop :=
  ∀ (ring : Ring) (rx : Reader) (more : Bytes), ring.buf ++ rx.bytes = f ++ more → rx.errors = [] →
    ∃ d ring' rx' frame s' item, recvFrame a b ring rx = .ok (.ok d, ring', rx') ∧ ring'.buf ++ rx'.bytes = more ∧
      parseFrame d = .ok (.ok frame) ∧ s.step V (.frame frame) = .ok s' ∧ s'.running ∧
      s'.inProgress = s.inProgress ++ [item] ∧ P item

/-- However the bytes of the frame arrive, and whatever follows them, the borrower cuts the frame off, and its loop
gives a URB back. -/
def PassesBack (a : Alloc) (b : Build) (s : Borrow.RecvLoop) (f : Bytes) (P : OwnedUrbGiveback → Prop) : Prop :=
  ∀ (ring : Ring) (rx : Reader) (more : Bytes), ring.buf ++ rx.bytes = f ++ more → rx.errors = [] →
    ∃ d ring' rx' frame s' g, recvFrame a b ring rx = .ok (.ok d, ring', rx') ∧ ring'.buf ++ rx'.bytes = more ∧
      parseFrame d = .ok (.ok frame) ∧ (∀ resetDone, s.step (.frame frame resetDone) = .ok s') ∧ s'.running ∧
      s'.givenBack = s.givenBack ++ [g] ∧ P g

/-- Whatever the device answers, unless it ends the session, the lender's loop passes a completion on when the item
ends, the completion appends a frame to whatever is to be sent, and a borrower that knows the sequence number gives
the answer back. -/
def AnswersReach (a : Alloc) (b b' : Build) (V : Vhci) (urb : IocUrb) (handle : UrbHandle) (seqnum : Seqnum)
    (item : InProgress) : Prop :=
  ∀ o : Lend.Outcome, Answered o item → PacketsAnswered urb o → transferStatus (answerStatus V urb o) ≠ none →
    ∃ completed,
      (∀ (s : Lend.RecvLoop) (i : Nat), s.running → s.inProgress[i]? = some item →
        ∃ s', s.step V (.completed i o) = .ok s' ∧ s'.sent = s.sent ++ [completed]) ∧
      ∀ (h : LendSendHandler) (tokens : Tokens), tokens.Sound →
        ∃ h' tokens' f, h.handleEvent b tokens completed = .ok (.ok h', tokens') ∧ h'.buf = h.buf ++ f ∧
          ∀ s : Borrow.RecvLoop, s.running → s.linker.handles.lookup seqnum = some handle →
            s.linker.seqnums.lookup handle = some seqnum → PassesBack a b' s f (GivenBack V urb handle o)

section RoundTrip

variable {V : Vhci} {urb : IocUrb} {seqnum : Seqnum} {handle : UrbHandle} {o : Lend.Outcome} {c : Completion}

theorem IsAnswer.wellFormed (hanswer : IsAnswer V urb seqnum o c) (hsendable : Sendable urb) : c.WellFormed := by
  refine ⟨?_, ?_, hanswer.packets⟩
  · rw [hanswer.res, ResultData.dir_new, hanswer.dir]
  · intro n hn
    have hle := hsendable.bufferLength_le.2
    have hlen := hanswer.length
    have hactual := ResultData.actualTransferLen_new (answerBytes V urb o) (answerDir V urb)
    rw [← hanswer.res, hn] at hactual
    have hn' : n = (answerBytes V urb o).length := hactual
    omega

/-- The reply fits a frame because the request does. -/
theorem IsAnswer.frame_lt (hanswer : IsAnswer V urb seqnum o c) (hsendable : Sendable urb) (status : TransferStatus) :
    c.res.get.length ≤ 65535 ∧ (c.frame status).length < 65536 := by
  have hle := hsendable.bufferLength_le.2
  have hlen := hanswer.length
  have hsize := hsendable.size
  have hraw := hanswer.isoByteLen
  have hres : c.res.get.length ≤ (answerBytes V urb o).length := by
    rw [hanswer.res]
    exact (ResultData.get_length_le _).trans_eq (ResultData.actualTransferLen_new _ _)
  refine ⟨by omega, ?_⟩
  rw [Completion.frame, LendSendHandler.replyFrame_length _ _ _ _ _ _ _ _ (by omega)]
  have hpadded := (urbHeader urb).paddedTransferLen_eq
  omega

theorem IsAnswer.givenBack (hanswer : IsAnswer V urb seqnum o c) {g : OwnedUrbGiveback}
    (hgives : GivesBack handle c g) : GivenBack V urb handle o g where
  handle := hgives.handle
  kind := hgives.kind.trans hanswer.kind
  status := hanswer.status ▸ hgives.status
  data := by
    have hdata := hgives.data
    rw [hanswer.res] at hdata
    cases hdir : answerDir V urb with
    | «in» =>
        rw [hdir] at hdata
        exact hdata
    | out =>
        rw [hdir] at hdata
        exact hdata
  isoPackets := hgives.isoPackets.trans hanswer.rawIsoBuf

/-- The borrower's loop gives the reply back. -/
theorem IsAnswer.passesBack (hanswer : IsAnswer V urb seqnum o c) (hsendable : Sendable urb) (a : Alloc) (b : Build)
    {status : TransferStatus} (hstatus : transferStatus c.status = some status) {s : Borrow.RecvLoop}
    (hrunning : s.running) (hhandle : s.linker.handles.lookup seqnum = some handle)
    (hseqnum : s.linker.seqnums.lookup handle = some seqnum) :
    PassesBack a b s (c.frame status) (GivenBack V urb handle o) := by
  intro ring rx more hbytes herrors
  obtain ⟨hlen, hlt⟩ := hanswer.frame_lt hsendable status
  have hwire : IsWire (c.frame status) :=
    isWire_replyFrame _ _ _ _ _ _ _ hlen (Dvd.intro _ hanswer.packets.symm)
  obtain ⟨d, ring', rx', seq, g, linker', hcall, hrest, hparse, hreply, hgives⟩ :=
    receivesReply_of_frame a b (hanswer.wellFormed hsendable) hstatus (by rw [hanswer.seqnum]; exact hhandle)
      (by rw [hanswer.seqnum]; exact hseqnum) hlt hlen hwire ring rx more hbytes herrors
  refine ⟨d, ring', rx', .urb seq, { s with linker := linker', givenBack := s.givenBack ++ [g] }, g, hcall, hrest,
    hparse, fun resetDone => ?_, hrunning, rfl, hanswer.givenBack hgives⟩
  unfold Borrow.RecvLoop.step
  rw [if_pos hrunning]
  simp only [hreply, ok_bind]
  rfl

/-- The answer to an item reaches the driver. -/
theorem IsItemOf.answersReach {item : InProgress} (hitem : IsItemOf V urb seqnum item) (hsendable : Sendable urb)
    (a : Alloc) (b b' : Build) : AnswersReach a b b' V urb handle seqnum item := by
  intro o hanswered hpackets hreported
  obtain ⟨completed, c, hcomplete, hc, hanswer⟩ := hitem.complete hsendable hanswered hpackets
  obtain ⟨status, hstatus⟩ := Option.ne_none_iff_exists'.mp hreported
  rw [← hanswer.status] at hstatus
  refine ⟨completed, ?_, ?_⟩
  · intro s i hrunning hi
    refine ⟨{ s with
      handler := item.recycle s.handler
      inProgress := s.inProgress.eraseIdx i
      sent := s.sent ++ [completed] }, ?_, rfl⟩
    unfold Lend.RecvLoop.step
    rw [if_pos hrunning]
    simp only [hi, hcomplete, ok_bind]
    rfl
  · intro h tokens hsound
    obtain ⟨tokens', hevent⟩ := handleEvent_completion (b := b) (h := h) hsound hc hstatus
    exact ⟨_, tokens', c.frame status, hevent, rfl, fun s hrunning hhandle hseqnum =>
      hanswer.passesBack hsendable a b' hstatus hrunning hhandle hseqnum⟩

/-- The lender's loop takes the frame of a URB up. -/
theorem takesUp_submitFrame (a : Alloc) (b : Build) (V : Vhci) {transfer pad isoRaw : Bytes}
    (hsendable : Sendable urb) (hfills : Fills urb transfer isoRaw)
    (hpadded : (transfer ++ pad).length = (urbHeader urb).paddedTransferLen * (urbHeader urb).isOut.toNat)
    (hdata : (transfer ++ (pad ++ isoRaw)).length = dataLen urb) {s : Lend.RecvLoop} (hrunning : s.running)
    (hisos : s.handler.isos.Sound) :
    TakesUp a b V s (submitFrame urb seqnum (transfer ++ (pad ++ isoRaw))) (IsItemOf V urb seqnum) := by
  intro ring rx more hbytes herrors
  have hlt : (submitFrame urb seqnum (transfer ++ (pad ++ isoRaw))).length < 65536 := by
    have hsize := hsendable.size
    have hle : (urbHeader urb).paddedTransferLen * (urbHeader urb).isOut.toNat ≤ (urbHeader urb).paddedTransferLen :=
      (Nat.mul_le_mul_left _ (Bool.toNat_le _)).trans (Nat.mul_one _).le
    rw [submitFrame_length hdata, dataLen]
    omega
  obtain ⟨d, ring', rx', hcall, hbuf, hrest, -⟩ :=
    recvFrame_of_wire a b ring rx (isWire_submitFrame hdata) hlt hbytes herrors
  obtain ⟨hheader, data, hurb, hurbHeader, hpayload⟩ := urbOf_of_buf hbuf
  have hparse : parseFrame d = .ok (.ok (.urb ⟨seqnum, data⟩)) := by
    unfold parseFrame
    simp only [hheader, hurb]
  have hsubmitted : Submitted urb transfer pad isoRaw data :=
    ⟨hurbHeader, hpayload, hsendable.fits, hfills, hpadded⟩
  obtain ⟨item, handler, hstep, hitem⟩ : ∃ item handler,
      s.stepUrb V ⟨seqnum, data⟩ = .ok (s.push (item, handler)) ∧ IsItemOf V urb seqnum item :=
    hsubmitted.stepUrb hsendable s hisos
  refine ⟨d, ring', rx', _, s.push (item, handler), item, hcall, hrest, hparse, ?_, hrunning, rfl, hitem⟩
  unfold Lend.RecvLoop.step
  rw [if_pos hrunning]
  exact hstep

end RoundTrip

/-- **There and back.** For every URB that fits a frame, whatever is waiting to be sent: the borrower appends a frame
and files the URB under its sequence number; the lender's loop takes the frame up as an item; and for every answer of
the device that the item expects, unless it ends the session, and whenever it comes, the borrower's loop gives the URB
back with the status and the bytes that the device answered. -/
theorem transfer_there_and_back (b b' : Build) (a : Alloc) (V : Vhci) (mem : Nat → UInt8) (h : BorrowSendHandler)
    (linker : Linker) (urb : IocUrb) (handle : UrbHandle) (haddr : h.addr = urb.address.get)
    (hseq : h.curSeq.toNat + 1 < 2 ^ 32) (hsendable : Sendable urb) (transfer isoRaw : Bytes)
    (hfills : Fills urb transfer isoRaw) (s : Lend.RecvLoop) (hrunning : s.running)
    (hisos : s.handler.isos.Sound) :
    ∃ h' linker' f, h.processUrb b mem linker urb handle (.ok (transfer, isoRaw)) = .ok (.ok (), h', linker') ∧
      h'.buf = h.buf ++ f ∧ linker'.handles.lookup h.curSeq = some handle ∧
      linker'.seqnums.lookup handle = some h.curSeq ∧
      TakesUp a b' V s f (AnswersReach a b' b V urb handle h.curSeq) := by
  obtain ⟨pad, hdata, hpadded⟩ := urbData_fills mem hsendable.fits hfills
  have hnext := b.addU32_of_lt (x := h.curSeq) (y := 1) hseq
  refine ⟨_, _, _, processUrb_of_data haddr hnext hdata, rfl, AList.lookup_insert _, AList.lookup_insert _, ?_⟩
  intro ring rx more hbytes herrors
  obtain ⟨d, ring', rx', frame, s', item, hcall, hrest, hparse, hstep, hrunning', hpushed, hitem⟩ :=
    takesUp_submitFrame a b' V hsendable hfills hpadded (urbData_length hdata) hrunning hisos ring rx more hbytes
      herrors
  exact ⟨d, ring', rx', frame, s', item, hcall, hrest, hparse, hstep, hrunning', hpushed,
    hitem.answersReach hsendable a b' b⟩

/-- Three bytes to an isochronous endpoint, in one packet. -/
theorem isoUrb_there_and_back :
    ∃ h' linker' f, BorrowSendHandler.new.processUrb .dev (fun _ => 0) .empty isoUrb ⟨3⟩
        (.ok ([7, 8, 9], [0, 0, 0, 0, 3, 0, 0, 0])) = .ok (.ok (), h', linker') ∧
      h'.buf = [] ++ f ∧ linker'.handles.lookup 0 = some ⟨3⟩ ∧ linker'.seqnums.lookup ⟨3⟩ = some 0 ∧
      TakesUp .tight .release .usb .start f (AnswersReach .tight .release .dev .usb isoUrb ⟨3⟩ 0) :=
  have hsendable : Sendable isoUrb :=
    ⟨⟨by decide, by decide⟩, by decide, fun hne => absurd rfl hne, fun htyp => by cases htyp⟩
  transfer_there_and_back .dev .release .tight .usb (fun _ => 0) .new .empty isoUrb ⟨3⟩ rfl (by decide) hsendable
    [7, 8, 9] [0, 0, 0, 0, 3, 0, 0, 0] ⟨by decide, by decide⟩ .start rfl BigTransfers.sound_empty

end Qusb

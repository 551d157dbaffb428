import Qusb.Base.Runs
import Qusb.Lend.Pool
import Qusb.Lend.Send
import Qusb.Proto.Recv
import Qusb.Vhci

/-! The lender's receiving side.

A submission is set up as a transfer of the device (or a blocking request) and stays in progress until
the device answers; its completion then goes to the sending side. Setting up trusts the lengths the
borrower chose, and completing trusts what the device returns. `Acceptable` and `Answered` say what is
trusted; the loop goes through an event exactly when they hold. -/

open ByteCodec Tables

namespace Qusb.Lend

open Msg Proto

/-! ### What the device answers -/

/-- The status of a finished transfer. -/
inductive LibusbStatus where
  | completed
  | error
  | timedOut
  | cancelled
  | stall
  | noDevice
  | overflow
  deriving DecidableEq, Repr

inductive RusbError where
  | io
  | invalidParam
  | access
  | noDevice
  | notFound
  | busy
  | timeout
  | overflow
  | pipe
  | interrupted
  | noMem
  | notSupported
  | badDescriptor
  | other
  deriving DecidableEq, Repr

def convertLibusbToProto : LibusbStatus → Except TransferError Unit
  | .completed => .ok ()
  | .error => .error (.abortable .other)
  | .timedOut => .error (.reportable .timedOut)
  | .cancelled => .error (.reportable .cancelled)
  | .stall => .error (.reportable .stall)
  | .noDevice => .error (.abortable .deviceDisconnected)
  | .overflow => .error (.reportable .overflow)

/-- The end of a transfer or of a blocking request. `data` are the bytes transferred, as far as they fit
the buffer; `packets` the length and the status of each isochronous packet; `mem` what is in the rest of
the buffer; `shared` says that the thread which submitted the transfer has not let go of it yet; `result`
is what a blocking request returns. -/
structure Outcome where
  status : LibusbStatus
  data : Bytes
  packets : List (UInt32 × UInt32)
  mem : Nat → UInt8
  shared : Bool
  result : Except RusbError Unit

/-- `BytesAllocator::reserve`, as far as it can fail. -/
def reserve (numBytes : Nat) : Except Fault Unit := assert (numBytes ≤ 16 <<< 12)

/-! ### Blocking requests -/

structure SetConfig where
  desired : UInt8
  deriving DecidableEq, Repr

structure SetInterface where
  setting : UInt8
  interface : UInt8
  deriving DecidableEq, Repr

structure ClearStall where
  endpoint : UInt8
  deriving DecidableEq, Repr

inductive CtrlKind where
  | setInterface (req : SetInterface)
  | setConfig (req : SetConfig)
  | clearStall (req : ClearStall)
  | async
  deriving DecidableEq, Repr

def CtrlKind.parse (V : Vhci) (setupPkt : IocSetupPacket) : CtrlKind :=
  match V.req setupPkt with
  | .interfaceSetInterface => .setInterface ⟨setupPkt.value.toUInt8, setupPkt.index.toUInt8⟩
  | .deviceSetConfiguration => .setConfig ⟨setupPkt.value.toUInt8⟩
  | .endpointClearFeature => .clearStall ⟨setupPkt.index.toUInt8⟩
  | _ => .async

/-- The end of a request that reports any error as a stall. -/
def pollBlocking (result : Except RusbError Unit) : Except TransferError Unit :=
  match result with
  | .ok () => .ok ()
  | .error _ => .error (.reportable .stall)

/-- The end of a SET_INTERFACE request; two errors have no implementation. -/
def pollSetInterface (result : Except RusbError Unit) : Except Fault (Except TransferError Unit) :=
  match result with
  | .error .notFound => .error .todo
  | .error .noDevice => .error .todo
  | result => .ok (pollBlocking result)

/-! ### Transfers in progress -/

inductive InProgress where
  | reset (seqnum : Seqnum)
  | ctrl (seqnum : Seqnum) (endpoint : Endpoint) (bufLen : Nat) (isGetStatus : Bool)
  | setInterface (seqnum : Seqnum) (req : SetInterface)
  | setConfig (seqnum : Seqnum) (req : SetConfig)
  | clearStall (seqnum : Seqnum) (req : ClearStall)
  | int (seqnum : Seqnum) (endpoint : Endpoint) (interval : UInt16) (bufLen : Nat)
  | iso (seqnum : Seqnum) (endpoint : Endpoint) (interval : UInt16) (bufLen capacity : Nat)
      (rawIsoBuf : Bytes) (numIsoPackets : UInt16) (transfer : LibusbTransfer)
  | bulk (seqnum : Seqnum) (endpoint : Endpoint) (bufLen : Nat)

/-- What the handler keeps between its calls. -/
structure LendRecvHandler where
  tokens : Tokens
  isos : BigTransfers LibusbTransfer
  smalls : Nat

namespace LendRecvHandler

def registerCancelToken (h : LendRecvHandler) (seqnum : Seqnum) : LendRecvHandler :=
  { h with tokens := (h.tokens.registerCancelToken seqnum).2 }

def cancelUrb (h : LendRecvHandler) (seqnum : Seqnum) : LendRecvHandler :=
  { h with tokens := h.tokens.cancelUrb seqnum }

/-- Take a small transfer out of the cache, or make one. -/
def removeSmall (h : LendRecvHandler) : LendRecvHandler := { h with smalls := h.smalls - 1 }

def insertSmall (h : LendRecvHandler) : LendRecvHandler := { h with smalls := h.smalls + 1 }

/-- The length of the buffer of a control transfer. It starts with the setup packet: the last eight bytes
of the URB header on the way out, a copy on the way in. -/
def ctrlBufLen (data : Data UrbFrame) : Except Fault Nat :=
  let header := data.get.header
  let setupSize := IocSetupPacket.layout.width
  if header.isOut then do
    let wLength := header.ctrlPacket.length.toNat
    let len := data.buf.length - (UrbHeader.size - setupSize)
    assert (align (wLength + setupSize) 8 = len)
    return len
  else do
    reserve (setupSize + header.paddedTransferLen)
    return setupSize + header.paddedTransferLen

def newCtrl (V : Vhci) (h : LendRecvHandler) (seq : Seq (Data UrbFrame)) :
    Except Fault (InProgress × LendRecvHandler) := do
  let h := h.registerCancelToken seq.seqnum
  let header := seq.data.get.header
  let setupSize := IocSetupPacket.layout.width
  let bufLen ← ctrlBufLen seq.data
  let isGetStatus := V.req header.ctrlPacket = .deviceGetStatus
  let bufLen := min bufLen (setupSize + header.actualTransferLen.toNat)
  return (.ctrl seq.seqnum header.endpoint (bufLen - setupSize) isGetStatus, h.removeSmall)

/-- The length of the buffer of an interrupt or a bulk transfer. -/
def smallBufLen (data : Data UrbFrame) : Except Fault Nat :=
  let header := data.get.header
  if header.isOut then do
    let rest ← unwrap (data.splitData Bytes)
    return min rest.buf.length header.actualTransferLen.toNat
  else do
    reserve header.paddedTransferLen
    return min header.paddedTransferLen header.actualTransferLen.toNat

def newInt (h : LendRecvHandler) (seq : Seq (Data UrbFrame)) :
    Except Fault (InProgress × LendRecvHandler) := do
  let h := h.registerCancelToken seq.seqnum
  let header := seq.data.get.header
  let bufLen ← smallBufLen seq.data
  return (.int seq.seqnum header.endpoint header.interval bufLen, h.removeSmall)

def newBulk (h : LendRecvHandler) (seq : Seq (Data UrbFrame)) :
    Except Fault (InProgress × LendRecvHandler) := do
  let h := h.registerCancelToken seq.seqnum
  let header := seq.data.get.header
  let bufLen ← smallBufLen seq.data
  return (.bulk seq.seqnum header.endpoint bufLen, h.removeSmall)

/-- The packet descriptors: what follows the transfer. -/
def rawIsoBuf (data : Data UrbFrame) : Except Fault Bytes := do
  let rest ← unwrap (data.splitData Bytes)
  let padded := data.get.header.paddedTransferLen
  if data.get.header.isOut then
    if padded ≤ rest.buf.length then .ok (rest.buf.drop padded) else .error .splitOutOfRange
  else do
    reserve padded
    return rest.buf

/-- There must be exactly as many bytes of descriptors as the header announces. -/
def newIso (h : LendRecvHandler) (seq : Seq (Data UrbFrame)) :
    Except Fault (InProgress × LendRecvHandler) := do
  let h := h.registerCancelToken seq.seqnum
  let header := seq.data.get.header
  let padded := header.paddedTransferLen
  let rawIsoBuf ← rawIsoBuf seq.data
  if rawIsoBuf.length = header.isoByteLen then do
    let (cached, isos) ← h.isos.remove header.isoPacketCount
    let transfer := cached.getD header.isoPacketCount.toNat
    return (.iso seq.seqnum header.endpoint header.interval
      (min padded header.actualTransferLen.toNat) padded rawIsoBuf header.isoPacketCount transfer,
      { h with isos := isos })
  else .error .unwrapNone

end LendRecvHandler

/-! ### Completions -/

/-- The bytes of the packets as they are given back. -/
def givebackPackets (rawIsoBuf : Bytes) (packets : List (UInt32 × UInt32)) : Bytes :=
  packets.flatMap (fun packet => leBytes 4 packet.1.toNat ++ leBytes 4 packet.2.toNat) ++
    rawIsoBuf.drop (8 * packets.length)

/-- `set_len` to the capacity of a buffer. -/
def fillToCapacity (buf : Bytes) (capacity : Nat) (mem : Nat → UInt8) : Bytes :=
  buf ++ (List.range (capacity - buf.length)).map fun i => mem (buf.length + i)

/-- The transfer is taken back from the thread that submitted it. -/
def intoInner (o : Outcome) : Except Fault Unit :=
  if o.shared then .error .unwrapNone else .ok ()

/-- The first byte of the answer to a GET_STATUS request is overwritten. -/
def patchStatus (isGetStatus : Bool) (buf : Bytes) : Except Fault Bytes :=
  match isGetStatus, buf with
  | true, [] => .error .indexOutOfRange
  | true, _ :: rest => .ok (0x01 :: rest)
  | false, buf => .ok buf

def ctrlOfBlocking (seqnum : Seqnum) (status : Except TransferError Unit) : CompletedTransfer :=
  .ctrl ⟨seqnum, ⟨.out 0, ⟨0⟩, status⟩⟩

namespace InProgress

/-- What the future of the item does once the device has answered. -/
def complete (o : Outcome) : InProgress → Except Fault CompletedTransfer
  | .reset seqnum => .ok (.reset ⟨seqnum, .ok ()⟩)
  | .ctrl seqnum endpoint bufLen isGetStatus => do
      intoInner o
      let buf ← patchStatus isGetStatus (o.data.take bufLen)
      return .ctrl ⟨seqnum, ⟨ResultData.new buf endpoint.dir, endpoint, convertLibusbToProto o.status⟩⟩
  | .setInterface seqnum _ => do
      let status ← pollSetInterface o.result
      return ctrlOfBlocking seqnum status
  | .setConfig seqnum _ => .ok (ctrlOfBlocking seqnum (pollBlocking o.result))
  | .clearStall seqnum _ => .ok (ctrlOfBlocking seqnum (pollBlocking o.result))
  | .int seqnum endpoint interval bufLen => do
      intoInner o
      return .int ⟨seqnum, ⟨ResultData.new (o.data.take bufLen) endpoint.dir, endpoint, interval,
        convertLibusbToProto o.status⟩⟩
  | .iso seqnum endpoint interval bufLen capacity rawIsoBuf numIsoPackets _ => do
      intoInner o
      let packets := o.packets.take numIsoPackets.toNat
      let numErrors := packets.countP fun packet => packet.2 ≠ 0
      let buf := fillToCapacity (o.data.take bufLen) capacity o.mem
      return .iso ⟨seqnum, ⟨ResultData.new buf endpoint.dir, endpoint, interval,
        givebackPackets rawIsoBuf packets, UInt16.ofNat numErrors, numIsoPackets,
        convertLibusbToProto o.status⟩⟩
  | .bulk seqnum endpoint bufLen => do
      intoInner o
      return .bulk ⟨seqnum, ⟨ResultData.new (o.data.take bufLen) endpoint.dir, endpoint,
        convertLibusbToProto o.status⟩⟩

/-- The transfer of a finished item goes back to its cache. -/
def recycle (h : LendRecvHandler) : InProgress → LendRecvHandler
  | .ctrl _ _ _ _ => h.insertSmall
  | .int _ _ _ _ => h.insertSmall
  | .bulk _ _ _ => h.insertSmall
  | .iso _ _ _ _ _ _ _ transfer => { h with isos := h.isos.insert transfer }
  | .reset _ => h
  | .setInterface _ _ => h
  | .setConfig _ _ => h
  | .clearStall _ _ => h

end InProgress

/-! ### The loop -/

/-- What the loop of the receiving side waits for: a frame, or the end of the item in progress with the
given index. -/
inductive RecvEvent where
  | frame (frame : Frame)
  | frameError
  | completed (index : Nat) (outcome : Outcome)
  | closed

/-- The handler, the items in progress, the completions passed on so far, and whether the loop runs. -/
structure RecvLoop where
  handler : LendRecvHandler
  inProgress : List InProgress
  sent : List CompletedTransfer
  running : Bool

namespace RecvLoop

def push (s : RecvLoop) (r : InProgress × LendRecvHandler) : RecvLoop :=
  { s with handler := r.2, inProgress := s.inProgress ++ [r.1] }

/-- A submission, by the kind of its transfer. -/
def stepUrb (V : Vhci) (s : RecvLoop) (seq : Seq (Data UrbFrame)) : Except Fault RecvLoop :=
  match seq.data.get.header.kind with
  | .isochronous => s.push <$> s.handler.newIso seq
  | .interrupt => s.push <$> s.handler.newInt seq
  | .control =>
      match CtrlKind.parse V seq.data.get.header.ctrlPacket with
      | .setInterface req => .ok (s.push (.setInterface seq.seqnum req, s.handler))
      | .setConfig req => .ok (s.push (.setConfig seq.seqnum req, s.handler))
      | .clearStall req => .ok (s.push (.clearStall seq.seqnum req, s.handler))
      | .async => s.push <$> s.handler.newCtrl V seq
  | .bulk => s.push <$> s.handler.newBulk seq

/-- One turn of `do_loop`. -/
def step (V : Vhci) (s : RecvLoop) (event : RecvEvent) : Except Fault RecvLoop :=
  if s.running then
    match event with
    | .frame (.urb seq) => s.stepUrb V seq
    | .frame (.portReset seqnum) => .ok (s.push (.reset seqnum, s.handler))
    | .frame (.unlink seqnum) => .ok { s with handler := s.handler.cancelUrb seqnum }
    | .completed index o =>
        match s.inProgress[index]? with
        | none => .ok s
        | some item => do
            let completed ← item.complete o
            return { s with
              handler := item.recycle s.handler
              inProgress := s.inProgress.eraseIdx index
              sent := s.sent ++ [completed] }
    | .frameError => .ok { s with running := false }
    | .closed => .ok { s with running := false }
  else .ok s

/-- A lender that has just opened its device. -/
def start : RecvLoop := ⟨⟨.empty, ∅, 2⟩, [], [], true⟩

end RecvLoop

/-! ### What is trusted -/

/-- The payload of a control transfer is the data stage its setup packet announces; towards the host the
buffer, eight bytes longer than the padded transfer, fits a block of the allocator. -/
def CtrlFits (data : Data UrbFrame) : Prop :=
  let header := data.get.header
  if header.isOut then
    align (header.ctrlPacket.length.toNat + 8) 8 = data.buf.length - (UrbHeader.size - 8)
  else header.actualTransferLen.toNat ≤ 65528

/-- The payload of an isochronous transfer is the padded transfer, on the way to the device, and exactly
the packet descriptors that are announced. -/
def IsoFits (data : Data UrbFrame) : Prop :=
  let header := data.get.header
  let payloadLen := data.buf.length - UrbHeader.size
  if header.isOut then payloadLen = header.paddedTransferLen + header.isoByteLen
  else payloadLen = header.isoByteLen

/-- The submissions the handler relies on its peer to send. -/
def AcceptableUrb (V : Vhci) (data : Data UrbFrame) : Prop :=
  match data.get.header.kind with
  | .isochronous => IsoFits data
  | .control => CtrlKind.parse V data.get.header.ctrlPacket = .async → CtrlFits data
  | .interrupt => True
  | .bulk => True

def Acceptable (V : Vhci) : Frame → Prop
  | .urb seq => AcceptableUrb V seq.data
  | .portReset _ => True
  | .unlink _ => True

/-- The answers the futures rely on the device and the other threads to give. -/
def Answered (o : Outcome) : InProgress → Prop
  | .ctrl _ _ bufLen isGetStatus => o.shared = false ∧ (isGetStatus → o.data.take bufLen ≠ [])
  | .setInterface _ _ => o.result ≠ .error .notFound ∧ o.result ≠ .error .noDevice
  | .int _ _ _ _ => o.shared = false
  | .iso _ _ _ _ _ _ _ _ => o.shared = false
  | .bulk _ _ _ => o.shared = false
  | .reset _ => True
  | .setConfig _ _ => True
  | .clearStall _ _ => True

/-! ### Setting up and completing -/

section

variable {V : Vhci} {h : LendRecvHandler} {seq : Seq (Data UrbFrame)}

theorem reserve_ok {n : Nat} (hn : n ≤ 65536) : reserve n = .ok () := if_pos hn

theorem smallBufLen_ok (data : Data UrbFrame) : ∃ n, LendRecvHandler.smallBufLen data = .ok n := by
  unfold LendRecvHandler.smallBufLen
  simp only
  split
  · exact ⟨_, rfl⟩
  · rw [reserve_ok data.get.header.paddedTransferLen_le, ok_bind]
    exact ⟨_, rfl⟩

theorem newInt_ok (h : LendRecvHandler) (seq : Seq (Data UrbFrame)) :
    ∃ r, h.newInt seq = .ok r ∧ r.2.isos = h.isos := by
  obtain ⟨n, hn⟩ := smallBufLen_ok seq.data
  unfold LendRecvHandler.newInt
  simp only [hn, ok_bind]
  exact ⟨_, rfl, rfl⟩

theorem newBulk_ok (h : LendRecvHandler) (seq : Seq (Data UrbFrame)) :
    ∃ r, h.newBulk seq = .ok r ∧ r.2.isos = h.isos := by
  obtain ⟨n, hn⟩ := smallBufLen_ok seq.data
  unfold LendRecvHandler.newBulk
  simp only [hn, ok_bind]
  exact ⟨_, rfl, rfl⟩

/-- A check followed by a result goes through exactly when the condition holds. -/
theorem assert_then_ok_iff {α : Type} {c : Prop} [Decidable c] {a : α} :
    (∃ r, (do assert c; return a : Except Fault α) = .ok r) ↔ c := by
  by_cases hc : c
  · simp [assert, hc, pure, Except.pure]
  · simp [assert, hc]

theorem ctrlBufLen_ok_iff (data : Data UrbFrame) :
    (∃ n, LendRecvHandler.ctrlBufLen data = .ok n) ↔ CtrlFits data := by
  have hpadded := data.get.header.paddedTransferLen_eq
  unfold LendRecvHandler.ctrlBufLen CtrlFits
  simp only
  split
  · exact assert_then_ok_iff
  · refine assert_then_ok_iff.trans ?_
    show 8 + data.get.header.paddedTransferLen ≤ 65536 ↔ _
    omega

theorem newCtrl_ok_iff : (∃ r, h.newCtrl V seq = .ok r) ↔ CtrlFits seq.data := by
  rw [← ctrlBufLen_ok_iff]
  unfold LendRecvHandler.newCtrl
  cases LendRecvHandler.ctrlBufLen seq.data with
  | error f => simp
  | ok n => simp [pure, Except.pure]

theorem newCtrl_isos {r : InProgress × LendRecvHandler} (hok : h.newCtrl V seq = .ok r) :
    r.2.isos = h.isos := by
  obtain ⟨n, -, hok⟩ := bind_eq_ok_iff.mp hok
  cases hok
  rfl

theorem rawIsoBuf_fits_iff (data : Data UrbFrame) :
    (∃ raw, LendRecvHandler.rawIsoBuf data = .ok raw ∧
      raw.length = data.get.header.isoByteLen) ↔ IsoFits data := by
  obtain ⟨rest, hrest, hbuf⟩ := splitData_bytes data
  have hlen : rest.buf.length = data.buf.length - 24 := by
    rw [hbuf, List.length_drop]
  unfold LendRecvHandler.rawIsoBuf IsoFits
  rw [hrest, show unwrap (some rest) = .ok rest from rfl, ok_bind]
  simp only
  show _ ↔ if _ then data.buf.length - 24 = _ else data.buf.length - 24 = _
  rw [← hlen]
  split
  · by_cases hfits : data.get.header.paddedTransferLen ≤ rest.buf.length
    · simp only [if_pos hfits, Except.ok.injEq, exists_eq_left', List.length_drop]
      omega
    · simp only [if_neg hfits, reduceCtorEq, false_and, exists_false, false_iff]
      omega
  · rw [reserve_ok data.get.header.paddedTransferLen_le, ok_bind]
    simp [pure, Except.pure]

theorem newIso_ok_iff (hsound : h.isos.Sound) :
    (∃ r, h.newIso seq = .ok r) ↔ IsoFits seq.data := by
  rw [← rawIsoBuf_fits_iff]
  unfold LendRecvHandler.newIso
  cases hraw : LendRecvHandler.rawIsoBuf seq.data with
  | error f => simp
  | ok raw =>
      obtain ⟨⟨cached, isos⟩, hremove, -⟩ :=
        BigTransfers.remove_ok hsound seq.data.get.header.isoPacketCount
      simp only [ok_bind, Except.ok.injEq, exists_eq_left']
      by_cases hlen : raw.length = seq.data.get.header.isoByteLen
      · have hisos : (h.registerCancelToken seq.seqnum).isos = h.isos := rfl
        simp [hlen, hisos, hremove, pure, Except.pure]
      · simp [hlen]

theorem newIso_isos {r : InProgress × LendRecvHandler} (hsound : h.isos.Sound)
    (hok : h.newIso seq = .ok r) : r.2.isos.Sound := by
  obtain ⟨raw, -, hok⟩ := bind_eq_ok_iff.mp hok
  split at hok
  · obtain ⟨⟨cached, isos⟩, hremove, hok⟩ := bind_eq_ok_iff.mp hok
    obtain ⟨r', hremove', hsound'⟩ :=
      BigTransfers.remove_ok hsound seq.data.get.header.isoPacketCount
    obtain rfl : (cached, isos) = r' := Except.ok.inj (hremove.symm.trans hremove')
    cases hok
    exact hsound'
  · cases hok

theorem pollSetInterface_ok_iff {result : Except RusbError Unit} :
    (∃ status, pollSetInterface result = .ok status) ↔
      result ≠ .error .notFound ∧ result ≠ .error .noDevice := by
  unfold pollSetInterface
  split <;> simp_all

theorem complete_ok_iff {o : Outcome} {item : InProgress} :
    (∃ c, item.complete o = .ok c) ↔ Answered o item := by
  unfold InProgress.complete Answered intoInner
  cases item with
  | reset seqnum => simp
  | ctrl seqnum endpoint bufLen isGetStatus =>
      cases o.shared with
      | true => simp
      | false =>
          cases isGetStatus with
          | false => simp [patchStatus, pure, Except.pure]
          | true => cases hbuf : o.data.take bufLen <;> simp [hbuf, patchStatus, pure, Except.pure]
  | setInterface seqnum req =>
      simp only
      rw [← pollSetInterface_ok_iff]
      cases pollSetInterface o.result with
      | error f => simp
      | ok status => simp [pure, Except.pure]
  | setConfig seqnum req => simp
  | clearStall seqnum req => simp
  | int seqnum endpoint interval bufLen => cases o.shared <;> simp [pure, Except.pure]
  | iso seqnum endpoint interval bufLen capacity raw n transfer =>
      cases o.shared <;> simp [pure, Except.pure]
  | bulk seqnum endpoint bufLen => cases o.shared <;> simp [pure, Except.pure]

end

/-! ### Runs of the loop -/

namespace RecvLoop

/-- What the loop trusts about an event, in the state it takes it from. -/
def Trusts (V : Vhci) (s : RecvLoop) : RecvEvent → Prop
  | .frame frame => s.running → Acceptable V frame
  | .completed index o => s.running → ∀ item, s.inProgress[index]? = some item → Answered o item
  | _ => True

theorem stepUrb_ok_iff {V : Vhci} {s : RecvLoop} {seq : Seq (Data UrbFrame)}
    (hsound : s.handler.isos.Sound) :
    (∃ s', s.stepUrb V seq = .ok s') ↔ AcceptableUrb V seq.data := by
  have hmap : ∀ x : Except Fault (InProgress × LendRecvHandler),
      (∃ s', s.push <$> x = .ok s') ↔ ∃ r, x = .ok r := by
    intro x
    cases x <;> simp [Functor.map, Except.map]
  unfold stepUrb AcceptableUrb
  cases hkind : seq.data.get.header.kind with
  | isochronous => exact (hmap _).trans (newIso_ok_iff hsound)
  | interrupt =>
      obtain ⟨r, hr, -⟩ := newInt_ok s.handler seq
      simp [hr, Functor.map, Except.map]
  | bulk =>
      obtain ⟨r, hr, -⟩ := newBulk_ok s.handler seq
      simp [hr, Functor.map, Except.map]
  | control =>
      cases hparse : CtrlKind.parse V seq.data.get.header.ctrlPacket with
      | setInterface req => simp
      | setConfig req => simp
      | clearStall req => simp
      | async =>
          simp only [true_implies]
          exact (hmap _).trans newCtrl_ok_iff

theorem step_ok_iff {V : Vhci} {s : RecvLoop} (hsound : s.handler.isos.Sound) (event : RecvEvent) :
    (∃ s', s.step V event = .ok s') ↔ s.Trusts V event := by
  unfold step Trusts
  cases hrunning : s.running with
  | false => cases event <;> simp
  | true =>
      cases event with
      | frame frame =>
          cases frame with
          | urb seq =>
              simp only [if_true, true_implies]
              exact stepUrb_ok_iff hsound
          | portReset seqnum => simp [Acceptable]
          | unlink seqnum => simp [Acceptable]
      | frameError => simp
      | closed => simp
      | completed index o =>
          cases hitem : s.inProgress[index]? with
          | none => simp [hitem]
          | some item =>
              simp only [if_true, true_implies, hitem, Option.some.injEq, forall_eq']
              rw [← complete_ok_iff]
              cases item.complete o with
              | error f => simp
              | ok completed => simp [pure, Except.pure]

theorem recycle_sound {h : LendRecvHandler} (hsound : h.isos.Sound) (item : InProgress) :
    (item.recycle h).isos.Sound := by
  cases item with
  | iso seqnum endpoint interval bufLen capacity raw n transfer =>
      exact BigTransfers.sound_insert hsound transfer
  | _ => exact hsound

theorem push_map_eq_ok_iff {s s' : RecvLoop} {new : Except Fault (InProgress × LendRecvHandler)} :
    s.push <$> new = .ok s' ↔ ∃ r, new = .ok r ∧ s' = s.push r := by
  cases new with
  | error f => exact ⟨fun h => (by cases h), fun ⟨r, h, _⟩ => (by cases h)⟩
  | ok r =>
      constructor
      · intro h
        exact ⟨r, rfl, (Except.ok.inj h).symm⟩
      · rintro ⟨r', hr, rfl⟩
        rw [hr]
        rfl

theorem stepUrb_sound {V : Vhci} {s s' : RecvLoop} {seq : Seq (Data UrbFrame)}
    (hsound : s.handler.isos.Sound) (hstep : s.stepUrb V seq = .ok s') :
    s'.handler.isos.Sound := by
  unfold stepUrb at hstep
  split at hstep
  · obtain ⟨r, hr, rfl⟩ := push_map_eq_ok_iff.mp hstep
    exact newIso_isos hsound hr
  · obtain ⟨r, hr, rfl⟩ := push_map_eq_ok_iff.mp hstep
    obtain ⟨r', hr', hisos⟩ := newInt_ok s.handler seq
    obtain rfl : r = r' := Except.ok.inj (hr.symm.trans hr')
    exact hisos ▸ hsound
  · split at hstep
    · cases hstep
      exact hsound
    · cases hstep
      exact hsound
    · cases hstep
      exact hsound
    · obtain ⟨r, hr, rfl⟩ := push_map_eq_ok_iff.mp hstep
      exact newCtrl_isos hr ▸ hsound
  · obtain ⟨r, hr, rfl⟩ := push_map_eq_ok_iff.mp hstep
    obtain ⟨r', hr', hisos⟩ := newBulk_ok s.handler seq
    obtain rfl : r = r' := Except.ok.inj (hr.symm.trans hr')
    exact hisos ▸ hsound

/-- Every step keeps the caches free of empty lists. -/
theorem step_sound {V : Vhci} {s s' : RecvLoop} {event : RecvEvent} (hsound : s.handler.isos.Sound)
    (hstep : s.step V event = .ok s') : s'.handler.isos.Sound := by
  unfold step at hstep
  split at hstep
  · cases event with
    | frame frame =>
        cases frame with
        | urb seq => exact stepUrb_sound hsound hstep
        | portReset seqnum =>
            cases hstep
            exact hsound
        | unlink seqnum =>
            cases hstep
            exact hsound
    | frameError =>
        cases hstep
        exact hsound
    | closed =>
        cases hstep
        exact hsound
    | completed index o =>
        simp only at hstep
        split at hstep
        · cases hstep
          exact hsound
        · next item hitem =>
            obtain ⟨completed, -, hstep⟩ := bind_eq_ok_iff.mp hstep
            cases hstep
            exact recycle_sound hsound item
  · cases hstep
    exact hsound

/-- **A borrower, or the device, and the lender's panics.** A run of the lender's receiving side is free
of panics exactly when everything it trusts holds of each event. -/
theorem run_safe_iff (V : Vhci) (events : List RecvEvent) :
    Runs.Safe (step V) start events ↔ Runs.Meets (step V) (Trusts V) start events :=
  Runs.safe_iff_meets (A := fun _ _ => True) (I := fun s => s.handler.isos.Sound)
    BigTransfers.sound_empty Runs.meets_true (fun _ event hsound _ => step_ok_iff hsound event)
    fun _ _ _ hsound _ hstep => step_sound hsound hstep

/-- A control transfer to the device whose setup packet announces eight bytes that do not come. -/
def shortCtrl : Seq (Data UrbFrame) where
  seqnum := 0
  data := ⟨(UrbHeader.mk 0 0 ⟨0x00⟩ .control 0 .pending (0, 0, 0) 0 0 ⟨0x40, 1, 0, 0, 8⟩).asBytes,
    by decide⟩

/-- A GET_STATUS request. -/
def getStatus : Seq (Data UrbFrame) where
  seqnum := 0
  data := ⟨(UrbHeader.mk 2 0 ⟨0x80⟩ .control 0 .pending (0, 0, 0) 0 0 ⟨0x80, 0, 0, 0, 2⟩).asBytes,
    by decide⟩

/-- A SET_INTERFACE request. -/
def selectInterface : Seq (Data UrbFrame) where
  seqnum := 0
  data := ⟨(UrbHeader.mk 0 0 ⟨0x00⟩ .control 0 .pending (0, 0, 0) 0 0 ⟨0x01, 11, 1, 7, 0⟩).asBytes,
    by decide⟩

theorem not_run_safe :
    Runs.run (step .usb) start [.frame (.urb shortCtrl)] = .error .assertFailed ∧
    Runs.run (step .usb) start [.frame (.urb getStatus),
      .completed 0 ⟨.stall, [], [], fun _ => 0, false, .ok ()⟩] = .error .indexOutOfRange ∧
    Runs.run (step .usb) start [.frame (.urb selectInterface),
      .completed 0 ⟨.completed, [], [], fun _ => 0, false, .error .notFound⟩] = .error .todo ∧
    ¬ ∀ events, Runs.Safe (step .usb) start events := by
  have hshort : Runs.run (step .usb) start [.frame (.urb shortCtrl)] = .error .assertFailed := rfl
  refine ⟨hshort, rfl, rfl, fun h => ?_⟩
  obtain ⟨s', hs'⟩ := h [.frame (.urb shortCtrl)]
  rw [hshort] at hs'
  cases hs'

end RecvLoop

end Qusb.Lend

import Qusb.Vhci
import Qusb.Base.Tables
import Qusb.Proto.Data

/-! The borrower's sending side.

The handler turns work of the driver into frames appended to its buffer and keeps, together with the
receiving side, the two tables that relate sequence numbers to URB handles. -/

open ByteCodec Tables

namespace Qusb.Borrow

open Msg Proto

/-- The tables shared by the sending and the receiving handler. -/
structure Linker where
  seqnums : Table UrbHandle UInt32
  handles : Table UInt32 UrbHandle

def Linker.empty : Linker := ⟨∅, ∅⟩

/-- Enter a pair in both tables; an earlier entry of either key is overwritten. -/
def Linker.insert (linker : Linker) (handle : UrbHandle) (seqnum : UInt32) : Linker :=
  ⟨linker.seqnums.insert handle seqnum, linker.handles.insert seqnum handle⟩

structure BorrowSendHandler where
  buf : Bytes
  curSeq : UInt32
  prev : IocPortStat
  addr : UInt8

/-- The handler of a borrower that connects its port. -/
def BorrowSendHandler.new : BorrowSendHandler where
  buf := []
  curSeq := 0
  prev := ⟨⟨false, false, false, false⟩, ⟨false, false⟩, ⟨0⟩, ⟨false⟩⟩
  addr := 0

/-- What the driver answers to `fetch_data`: the bytes for the transfer and for the packets. -/
abbrev Fetched := Except IoError (Bytes × Bytes)

/-- Overwrite the front of a slice; its length stays. -/
def blit (slice new : Bytes) : Bytes := new.take slice.length ++ slice.drop new.length

@[simp] theorem blit_nil (slice : Bytes) : blit slice [] = slice := by
  simp [blit]

@[simp] theorem blit_length (slice new : Bytes) : (blit slice new).length = slice.length := by
  simp only [blit, List.length_append, List.length_take, List.length_drop]
  omega

namespace BorrowSendHandler

def putSlice (h : BorrowSendHandler) (bs : Bytes) : BorrowSendHandler := { h with buf := h.buf ++ bs }

/-- `Counter::increment`. -/
def increment (b : Build) (h : BorrowSendHandler) : Except Fault (UInt32 × BorrowSendHandler) := do
  let next ← b.addU32 h.curSeq 1
  return (h.curSeq, { h with curSeq := next })

def portPowerOff (prev next : IocPortStat) : Bool := prev.status.power && !next.status.power

def sendPortReset (prev next : IocPortStat) : Bool :=
  !prev.status.reset && (next.status.reset && next.status.connection)

/-- `handle` is the random handle a port reset is filed under. -/
def portStat (b : Build) (h : BorrowSendHandler) (linker : Linker) (next : IocPortStat)
    (handle : UrbHandle) : Except Fault (BorrowSendHandler × Linker) :=
  if next.change.connection then .ok ({ h with addr := 0xff, prev := next }, linker)
  else if next.resetSuccessful then .ok ({ h with addr := 0, prev := next }, linker)
  else if portPowerOff h.prev next then .ok ({ h with prev := next }, linker)
  else if sendPortReset h.prev next then do
    let (nextSeqnum, h) ← h.increment b
    assert (linker.seqnums.lookup handle = none)
    assert (linker.handles.lookup nextSeqnum = none)
    return ({ h.putSlice ((bareHeader .cmdPort .success nextSeqnum).asBytes) with prev := next },
      linker.insert handle nextSeqnum)
  else .ok ({ h with prev := next }, linker)

/-- The device keeps its address on the lender's side, so the URB is given back without a frame. -/
def setAddress (h : BorrowSendHandler) (urb : IocUrb) : BorrowSendHandler :=
  { h with addr := urb.setupPacket.value.toUInt8 }

def cancelUrb (h : BorrowSendHandler) (linker : Linker) (handle : UrbHandle) : BorrowSendHandler :=
  match linker.seqnums.lookup handle with
  | some seqnum => h.putSlice ((bareHeader .cmdUnlink .success seqnum).asBytes)
  | none => h

/-- A port status either sends nothing and leaves the tables alone, or files a port reset under the
next sequence number. -/
theorem portStat_ok {b : Build} {h h' : BorrowSendHandler} {linker linker' : Linker}
    {next : IocPortStat} {handle : UrbHandle}
    (hok : portStat b h linker next handle = .ok (h', linker')) :
    (h'.buf = h.buf ∧ h'.curSeq = h.curSeq ∧ linker' = linker) ∨
      (linker.seqnums.lookup handle = none ∧ linker.handles.lookup h.curSeq = none ∧
        linker' = linker.insert handle h.curSeq ∧ b.addU32 h.curSeq 1 = .ok h'.curSeq ∧
        h'.buf = h.buf ++ (bareHeader .cmdPort .success h.curSeq).asBytes) := by
  unfold portStat at hok
  split at hok
  · cases hok
    exact Or.inl ⟨rfl, rfl, rfl⟩
  · split at hok
    · cases hok
      exact Or.inl ⟨rfl, rfl, rfl⟩
    · split at hok
      · cases hok
        exact Or.inl ⟨rfl, rfl, rfl⟩
      · split at hok
        · obtain ⟨⟨nextSeqnum, h₁⟩, hinc, hok⟩ := bind_eq_ok_iff.mp hok
          obtain ⟨next', hnext, hinc⟩ := bind_eq_ok_iff.mp hinc
          cases hinc
          obtain ⟨_, hseqnum, hok⟩ := bind_eq_ok_iff.mp hok
          obtain ⟨_, hhandle, hok⟩ := bind_eq_ok_iff.mp hok
          cases hok
          exact Or.inr ⟨assert_eq_ok_iff.mp hseqnum, assert_eq_ok_iff.mp hhandle, rfl, hnext, rfl⟩
        · cases hok
          exact Or.inl ⟨rfl, rfl, rfl⟩

/-- A cancel sends an unlink for the sequence number the handle is filed under, if any. -/
theorem cancelUrb_eq (h : BorrowSendHandler) (linker : Linker) (handle : UrbHandle) :
    cancelUrb h linker handle = h.putSlice (((linker.seqnums.lookup handle).map fun seqnum =>
      (bareHeader .cmdUnlink .success seqnum).asBytes).getD []) := by
  unfold cancelUrb
  cases linker.seqnums.lookup handle with
  | none => simp [putSlice]
  | some seqnum => rfl

def urbHeader (urb : IocUrb) : UrbHeader where
  actualTransferLen := UInt16.ofNat (asUsize urb.bufferLength)
  isoPacketCount := UInt16.ofNat (asUsize urb.packetCount)
  endpoint := urb.endpoint
  kind := urb.typ
  interval := UInt16.ofNat (asUsize urb.interval)
  status := .pending
  padding := (0, 0, 0)
  flags := urb.flags &&& ~~~0x04
  numErrors := 0
  ctrlPacket := urb.setupPacket

/-- The length of the data that goes with a URB: the padded transfer if there is one to send, and the
packet descriptors. -/
def dataLen (urb : IocUrb) : Nat :=
  (urbHeader urb).paddedTransferLen * (urbHeader urb).isOut.toNat + (urbHeader urb).isoByteLen

def needsFetch (urb : IocUrb) : Bool :=
  (asUsize urb.bufferLength > 0 && (urbHeader urb).isOut) || asUsize urb.packetCount > 0

/-- The data of a URB, fetched from the driver into reserved memory that holds `mem`. The two unchecked
slices are in range only if the lengths of the URB fit the fields of the header. -/
def urbData (mem : Nat → UInt8) (urb : IocUrb) (fetched : Fetched) :
    Except Fault (Except IoError Bytes) :=
  let isOut := (urbHeader urb).isOut.toNat
  let data := (List.range (dataLen urb)).map mem
  let realTransferLen := (urbHeader urb).paddedTransferLen * isOut
  let padded := data.take realTransferLen
  let isoRaw := data.drop realTransferLen
  let transferLen := asUsize urb.bufferLength * isOut
  if padded.length < transferLen then .error .undefinedBehaviour
  else if isoRaw.length ≠ asUsize urb.packetCount * UrbHeader.isoPacketSize then
    .error .undefinedBehaviour
  else if needsFetch urb then
    .ok (fetched.map fun new =>
      blit (padded.take transferLen) new.1 ++ padded.drop transferLen ++ blit isoRaw new.2)
  else .ok (.ok data)

/-- The frame of a submission. -/
def submitFrame (urb : IocUrb) (seqnum : UInt32) (data : Bytes) : Bytes :=
  let totalFrameLen := Header.size + UrbHeader.size + dataLen urb
  (Header.mk (compressFrameLen totalFrameLen) .cmdSubmit .success seqnum).asBytes ++
    ((urbHeader urb).asBytes ++ data)

/-- When the driver refuses the data, the bytes split off the buffer are lost. -/
def processUrb (b : Build) (mem : Nat → UInt8) (h : BorrowSendHandler) (linker : Linker)
    (urb : IocUrb) (handle : UrbHandle) (fetched : Fetched) :
    Except Fault (Except IoError Unit × BorrowSendHandler × Linker) := do
  b.debugAssert (h.addr = urb.address.get)
  let (nextSeq, h) ← h.increment b
  let linker := linker.insert handle nextSeq
  match ← urbData mem urb fetched with
  | .ok data => return (.ok (), h.putSlice (submitFrame urb nextSeq data), linker)
  | .error e => return (.error e, { h with buf := [] }, linker)

theorem submitFrame_length {urb : IocUrb} {seqnum : UInt32} {data : Bytes}
    (hdata : data.length = dataLen urb) :
    (submitFrame urb seqnum data).length = 32 + dataLen urb := by
  simp only [submitFrame, List.length_append, Header.asBytes_length, UrbHeader.asBytes_length, hdata]
  omega

theorem eight_dvd_dataLen (urb : IocUrb) : 8 ∣ dataLen urb := by
  unfold dataLen
  rw [UrbHeader.paddedTransferLen_eq]
  exact Nat.dvd_add (Dvd.dvd.mul_right (Dvd.intro_left _ rfl) _) (Dvd.intro_left _ rfl)

/-- The lengths of the URB fit the fields of the header. -/
structure FieldsFit (urb : IocUrb) : Prop where
  bufferLength : 0 ≤ urb.bufferLength.toInt ∧ urb.bufferLength.toInt ≤ 65535
  packetCount : 0 ≤ urb.packetCount.toInt ∧ urb.packetCount.toInt ≤ 65535

theorem urbData_length {mem : Nat → UInt8} {urb : IocUrb} {fetched : Fetched} {data : Bytes}
    (h : urbData mem urb fetched = .ok (.ok data)) : data.length = dataLen urb := by
  unfold urbData at h
  simp only at h
  split at h
  · cases h
  · next hpad =>
      split at h
      · cases h
      · split at h
        · cases fetched with
          | error e => cases h
          | ok new =>
              cases h
              simp only [List.length_append, blit_length, List.length_take, List.length_drop,
                List.length_map, List.length_range] at hpad ⊢
              unfold dataLen
              omega
        · cases h
          simp

theorem actualTransferLen_of_fits {urb : IocUrb} (hfit : FieldsFit urb) :
    (urbHeader urb).actualTransferLen.toNat = asUsize urb.bufferLength := by
  have hlen := asUsize_of_nonneg hfit.bufferLength.1
  have hbound := hfit.bufferLength.2
  show (UInt16.ofNat (asUsize urb.bufferLength)).toNat = _
  rw [UInt16.toNat_ofNat']
  omega

theorem paddedTransferLen_of_fits {urb : IocUrb} (hfit : FieldsFit urb) :
    (urbHeader urb).paddedTransferLen = (asUsize urb.bufferLength + 7) / 8 * 8 := by
  rw [UrbHeader.paddedTransferLen_eq, actualTransferLen_of_fits hfit]

theorem bufferLength_le_padded {urb : IocUrb} (hfit : FieldsFit urb) :
    asUsize urb.bufferLength ≤ (urbHeader urb).paddedTransferLen :=
  actualTransferLen_of_fits hfit ▸ (urbHeader urb).le_paddedTransferLen

/-- The transfer of a URB is a front part of its data. -/
theorem transfer_le_padded {urb : IocUrb} (hfit : FieldsFit urb) :
    asUsize urb.bufferLength * (urbHeader urb).isOut.toNat ≤
      (urbHeader urb).paddedTransferLen * (urbHeader urb).isOut.toNat :=
  Nat.mul_le_mul_right _ (bufferLength_le_padded hfit)

theorem isoPacketCount_of_fits {urb : IocUrb} (hfit : FieldsFit urb) :
    (urbHeader urb).isoPacketCount.toNat = asUsize urb.packetCount := by
  have hlen := asUsize_of_nonneg hfit.packetCount.1
  have hbound := hfit.packetCount.2
  show (UInt16.ofNat (asUsize urb.packetCount)).toNat = _
  rw [UInt16.toNat_ofNat']
  omega

/-- Lengths that fit keep the slices in range. -/
theorem urbData_fits (mem : Nat → UInt8) {urb : IocUrb} (fetched : Fetched) (hfit : FieldsFit urb) :
    urbData mem urb fetched = .ok (if needsFetch urb then
      fetched.map fun new =>
        let data := (List.range (dataLen urb)).map mem
        let padded := data.take ((urbHeader urb).paddedTransferLen * (urbHeader urb).isOut.toNat)
        let transferLen := asUsize urb.bufferLength * (urbHeader urb).isOut.toNat
        blit (padded.take transferLen) new.1 ++ padded.drop transferLen ++
          blit (data.drop ((urbHeader urb).paddedTransferLen * (urbHeader urb).isOut.toNat)) new.2
      else .ok ((List.range (dataLen urb)).map mem)) := by
  have hcount := isoPacketCount_of_fits hfit
  have hmul := transfer_le_padded hfit
  unfold urbData
  simp only [List.length_take, List.length_drop, List.length_map, List.length_range]
  rw [if_neg (by unfold dataLen; omega),
    if_neg (by unfold dataLen UrbHeader.isoByteLen; rw [hcount]; omega)]
  split <;> rfl

/-- A driver that delivers nothing leaves the reserved memory as it is. -/
theorem urbData_blank (mem : Nat → UInt8) {urb : IocUrb} (hfit : FieldsFit urb) :
    urbData mem urb (.ok ([], [])) = .ok (.ok ((List.range (dataLen urb)).map mem)) := by
  rw [urbData_fits mem _ hfit]
  split
  · simp only [Except.map, blit_nil, List.take_append_drop]
  · rfl

/-- What a submission that went through did: it took the next sequence number, filed the handle under
it and, unless the driver refused the data, appended one frame. -/
theorem processUrb_ok {b : Build} {mem : Nat → UInt8} {h h' : BorrowSendHandler}
    {linker linker' : Linker} {urb : IocUrb} {handle : UrbHandle} {fetched : Fetched}
    {r : Except IoError Unit}
    (hok : processUrb b mem h linker urb handle fetched = .ok (r, h', linker')) :
    linker' = linker.insert handle h.curSeq ∧ b.addU32 h.curSeq 1 = .ok h'.curSeq ∧
      match r with
      | .ok () => ∃ data : Bytes, data.length = dataLen urb ∧
          h'.buf = h.buf ++ submitFrame urb h.curSeq data
      | .error _ => h'.buf = [] := by
  obtain ⟨-, -, hok⟩ := bind_eq_ok_iff.mp hok
  obtain ⟨⟨nextSeq, h₁⟩, hinc, hok⟩ := bind_eq_ok_iff.mp hok
  obtain ⟨next, hnext, hinc⟩ := bind_eq_ok_iff.mp hinc
  cases hinc
  obtain ⟨fetchedData, hdata, hok⟩ := bind_eq_ok_iff.mp hok
  cases fetchedData with
  | error e =>
      cases hok
      exact ⟨rfl, hnext, rfl⟩
  | ok data =>
      cases hok
      exact ⟨rfl, hnext, data, urbData_length hdata, rfl⟩

/-- A submission whose address is the device's and whose data the driver delivers goes through. -/
theorem processUrb_of_data {b : Build} {mem : Nat → UInt8} {h : BorrowSendHandler} {linker : Linker}
    {urb : IocUrb} {handle : UrbHandle} {fetched : Fetched} {next : UInt32} {data : Bytes}
    (haddr : h.addr = urb.address.get) (hnext : b.addU32 h.curSeq 1 = .ok next)
    (hdata : urbData mem urb fetched = .ok (.ok data)) :
    processUrb b mem h linker urb handle fetched =
      .ok (.ok (), { h with buf := h.buf ++ submitFrame urb h.curSeq data, curSeq := next },
        linker.insert handle h.curSeq) := by
  have hassert : b.debugAssert (h.addr = urb.address.get) = .ok () :=
    Build.debugAssert_eq_ok_iff.mpr fun _ => haddr
  unfold processUrb increment
  simp only [hassert, hnext, hdata, ok_bind]
  rfl

/-- What a work item meets: the content of reserved memory, the driver's data and a random handle. -/
structure WorkEnv where
  mem : Nat → UInt8
  fetched : Fetched
  random : UrbHandle

inductive WorkResult where
  | setAddress
  | processUrb (result : Except IoError Unit)
  | mustveBeenTheWind
  deriving DecidableEq

/-- A SET_ADDRESS request stays on this side. -/
def isSetAddress (V : Vhci) (urb : IocUrb) : Bool :=
  urb.typ = .control && V.isForUnassigned urb.address && V.req urb.setupPacket = .deviceSetAddress

def handleWork (V : Vhci) (b : Build) (env : WorkEnv) (h : BorrowSendHandler) (linker : Linker)
    (work : Work) : Except Fault (WorkResult × BorrowSendHandler × Linker) :=
  match work with
  | .portStat next => do
      let (h, linker) ← h.portStat b linker next env.random
      return (.mustveBeenTheWind, h, linker)
  | .processUrb urb handle =>
      if isSetAddress V urb then .ok (.setAddress, h.setAddress urb, linker)
      else do
        let (result, h, linker) ← h.processUrb b env.mem linker urb handle env.fetched
        return (.processUrb result, h, linker)
  | .cancelUrb handle => .ok (.mustveBeenTheWind, h.cancelUrb linker handle, linker)

/-- Work that goes through appends to the buffer; a SET_ADDRESS request leaves it as it is. -/
theorem handleWork_ok {V : Vhci} {b : Build} {env : WorkEnv} {h h' : BorrowSendHandler}
    {linker linker' : Linker} {work : Work} {result : WorkResult}
    (hok : handleWork V b env h linker work = .ok (result, h', linker')) :
    match result with
    | .setAddress => h'.buf = h.buf
    | .processUrb (.ok ()) => ∃ f, h'.buf = h.buf ++ f
    | .processUrb (.error _) => True
    | .mustveBeenTheWind => ∃ f, h'.buf = h.buf ++ f := by
  cases work with
  | portStat next =>
      obtain ⟨⟨h₁, linker₁⟩, hstat, hok⟩ := bind_eq_ok_iff.mp hok
      cases hok
      rcases portStat_ok hstat with ⟨hbuf, -⟩ | ⟨-, -, -, -, hbuf⟩
      · exact ⟨[], hbuf.trans (List.append_nil _).symm⟩
      · exact ⟨_, hbuf⟩
  | processUrb urb handle =>
      unfold handleWork at hok
      simp only at hok
      split at hok
      · cases hok
        rfl
      · obtain ⟨⟨result₁, h₁, linker₁⟩, hurb, hok⟩ := bind_eq_ok_iff.mp hok
        cases hok
        obtain ⟨-, -, hdata⟩ := processUrb_ok hurb
        cases result₁ with
        | ok u =>
            obtain ⟨data, -, hbuf⟩ := hdata
            exact ⟨_, hbuf⟩
        | error e => trivial
  | cancelUrb handle =>
      cases hok
      exact ⟨_, congrArg BorrowSendHandler.buf (cancelUrb_eq h linker handle)⟩

end BorrowSendHandler
end Qusb.Borrow

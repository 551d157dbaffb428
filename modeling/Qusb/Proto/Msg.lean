import Qusb.Base.Layout
import Qusb.Proto.Machine

/-! The messages of a Qusb stream: the enumerations with their wire values, the frame header, the URB
header and the lengths computed from them. Every record is packed little-endian, in the order of its
fields; the layouts give its `as_bytes` and its `try_read_from_prefix`. -/

open ByteCodec

namespace Qusb.Msg

inductive Status where
  | success
  | failed
  | devBusy
  | devErr
  | noDev
  | unexpected
  | versionMismatch
  | timeout
  | proto
  deriving DecidableEq, Repr

def Status.toByte : Status → UInt8
  | .success => 0
  | .failed => 1
  | .devBusy => 2
  | .devErr => 3
  | .noDev => 4
  | .unexpected => 5
  | .versionMismatch => 6
  | .timeout => 7
  | .proto => 8

def Status.ofByte (b : UInt8) : Option Status :=
  match b.toNat with
  | 0 => some .success
  | 1 => some .failed
  | 2 => some .devBusy
  | 3 => some .devErr
  | 4 => some .noDev
  | 5 => some .unexpected
  | 6 => some .versionMismatch
  | 7 => some .timeout
  | 8 => some .proto
  | _ => none

inductive Command where
  | cmdSubmit
  | cmdUnlink
  | cmdPort
  | retSubmit
  | retPort
  deriving DecidableEq, Repr

def Command.toByte : Command → UInt8
  | .cmdSubmit => 0
  | .cmdUnlink => 1
  | .cmdPort => 2
  | .retSubmit => 3
  | .retPort => 4

def Command.ofByte (b : UInt8) : Option Command :=
  match b.toNat with
  | 0 => some .cmdSubmit
  | 1 => some .cmdUnlink
  | 2 => some .cmdPort
  | 3 => some .retSubmit
  | 4 => some .retPort
  | _ => none

/-- The status of a transfer; the values from 2 on are those of `ReportableError`. -/
inductive TransferStatus where
  | success
  | pending
  | timedOut
  | cancelled
  | stall
  | overflow
  | notEnoughBandwidth
  deriving DecidableEq, Repr

def TransferStatus.toByte : TransferStatus → UInt8
  | .success => 0
  | .pending => 1
  | .timedOut => 2
  | .cancelled => 3
  | .stall => 4
  | .overflow => 5
  | .notEnoughBandwidth => 6

def TransferStatus.ofByte (b : UInt8) : Option TransferStatus :=
  match b.toNat with
  | 0 => some .success
  | 1 => some .pending
  | 2 => some .timedOut
  | 3 => some .cancelled
  | 4 => some .stall
  | 5 => some .overflow
  | 6 => some .notEnoughBandwidth
  | _ => none

inductive TransferKind where
  | isochronous
  | interrupt
  | control
  | bulk
  deriving DecidableEq, Repr

def TransferKind.toByte : TransferKind → UInt8
  | .isochronous => 0
  | .interrupt => 1
  | .control => 2
  | .bulk => 3

def TransferKind.ofByte (b : UInt8) : Option TransferKind :=
  match b.toNat with
  | 0 => some .isochronous
  | 1 => some .interrupt
  | 2 => some .control
  | 3 => some .bulk
  | _ => none

private theorem byte_eq_of_toNat {b c : UInt8} (h : b.toNat = c.toNat) : c = b :=
  UInt8.toNat_inj.mp h.symm

def Status.byteEnum : ByteEnum Status where
  toByte := toByte
  ofByte := ofByte
  ofByte_toByte a := by cases a <;> rfl
  toByte_ofByte b a h := by
    unfold ofByte at h
    split at h <;> cases h <;> exact byte_eq_of_toNat (by assumption)

def Command.byteEnum : ByteEnum Command where
  toByte := toByte
  ofByte := ofByte
  ofByte_toByte a := by cases a <;> rfl
  toByte_ofByte b a h := by
    unfold ofByte at h
    split at h <;> cases h <;> exact byte_eq_of_toNat (by assumption)

def TransferStatus.byteEnum : ByteEnum TransferStatus where
  toByte := toByte
  ofByte := ofByte
  ofByte_toByte a := by cases a <;> rfl
  toByte_ofByte b a h := by
    unfold ofByte at h
    split at h <;> cases h <;> exact byte_eq_of_toNat (by assumption)

def TransferKind.byteEnum : ByteEnum TransferKind where
  toByte := toByte
  ofByte := ofByte
  ofByte_toByte a := by cases a <;> rfl
  toByte_ofByte b a h := by
    unfold ofByte at h
    split at h <;> cases h <;> exact byte_eq_of_toNat (by assumption)

inductive Dir where
  | out
  | in
  deriving DecidableEq, Repr

/-- An endpoint address; the highest bit is the direction. -/
structure Endpoint where
  addr : UInt8
  deriving DecidableEq, Repr

def Dir.ofU8 (num : UInt8) : Dir :=
  if num &&& 0x80 = 0 then .out else .in

def Endpoint.dir (e : Endpoint) : Dir := Dir.ofU8 e.addr

/-- The eight bytes of a control setup packet. -/
structure IocSetupPacket where
  requestType : UInt8
  request : UInt8
  value : UInt16
  index : UInt16
  length : UInt16
  deriving DecidableEq, Repr

def IocSetupPacket.zero : IocSetupPacket := ⟨0, 0, 0, 0, 0⟩

def IocSetupPacket.layout : Layout IocSetupPacket :=
  (Layout.u8.pair (Layout.u8.pair (Layout.u16.pair (Layout.u16.pair Layout.u16)))).rename
    { toFun := fun p => (p.requestType, p.request, p.value, p.index, p.length)
      invFun := fun t => ⟨t.1, t.2.1, t.2.2.1, t.2.2.2.1, t.2.2.2.2⟩
      left_inv := fun _ => rfl
      right_inv := fun _ => rfl }

/-! ### The frame header -/

structure Header where
  totalFrameLen : UInt16
  command : Command
  status : Status
  seqnum : UInt32
  deriving DecidableEq, Repr

def Header.layout : Layout Header :=
  (Layout.u16.pair ((Layout.enum Command.byteEnum).pair
    ((Layout.enum Status.byteEnum).pair Layout.u32))).rename
    { toFun := fun h => (h.totalFrameLen, h.command, h.status, h.seqnum)
      invFun := fun t => ⟨t.1, t.2.1, t.2.2.1, t.2.2.2⟩
      left_inv := fun _ => rfl
      right_inv := fun _ => rfl }

/-- `size_of::<Header>()`. -/
abbrev Header.size : Nat := 8

theorem Header.width_eq : Header.layout.width = Header.size := rfl

def Header.asBytes (h : Header) : Bytes := Header.layout.encode h

@[simp] theorem Header.asBytes_length (h : Header) : h.asBytes.length = 8 :=
  Header.layout.length_encode h

/-- The header starts with the two bytes of the frame length. -/
theorem Header.asBytes_eq (h : Header) :
    h.asBytes = leBytes 2 h.totalFrameLen.toNat ++
      ([h.command.toByte] ++ ([h.status.toByte] ++ leBytes 4 h.seqnum.toNat)) := rfl

/-- `(len / size_of::<u64>()) as u16`. -/
def compressFrameLen (len : Nat) : UInt16 := UInt16.ofNat (len / 8)

/-- The header of a frame without a payload. -/
def bareHeader (command : Command) (status : Status) (seqnum : UInt32) : Header :=
  ⟨compressFrameLen Header.size, command, status, seqnum⟩

/-! ### The URB header -/

/-- `(val + (alignment - 1)) & !(alignment - 1)` on `usize`. -/
def align (val alignment : Nat) : Nat := alignMask 64 val alignment

structure UrbHeader where
  actualTransferLen : UInt16
  isoPacketCount : UInt16
  endpoint : Endpoint
  kind : TransferKind
  interval : UInt16
  status : TransferStatus
  padding : UInt8 × UInt8 × UInt8
  flags : UInt16
  numErrors : UInt16
  ctrlPacket : IocSetupPacket
  deriving DecidableEq, Repr

def UrbHeader.layout : Layout UrbHeader :=
  (Layout.u16.pair (Layout.u16.pair (Layout.u8.pair ((Layout.enum TransferKind.byteEnum).pair
    (Layout.u16.pair ((Layout.enum TransferStatus.byteEnum).pair
      ((Layout.u8.pair (Layout.u8.pair Layout.u8)).pair
        (Layout.u16.pair (Layout.u16.pair IocSetupPacket.layout))))))))).rename
    { toFun := fun h => (h.actualTransferLen, h.isoPacketCount, h.endpoint.addr, h.kind, h.interval,
        h.status, h.padding, h.flags, h.numErrors, h.ctrlPacket)
      invFun := fun t => ⟨t.1, t.2.1, ⟨t.2.2.1⟩, t.2.2.2.1, t.2.2.2.2.1, t.2.2.2.2.2.1,
        t.2.2.2.2.2.2.1, t.2.2.2.2.2.2.2.1, t.2.2.2.2.2.2.2.2.1, t.2.2.2.2.2.2.2.2.2⟩
      left_inv := fun _ => rfl
      right_inv := fun _ => rfl }

/-- `size_of::<UrbHeader>()`. -/
abbrev UrbHeader.size : Nat := 24

theorem UrbHeader.width_eq : UrbHeader.layout.width = UrbHeader.size := rfl

def UrbHeader.asBytes (h : UrbHeader) : Bytes := UrbHeader.layout.encode h

@[simp] theorem UrbHeader.asBytes_length (h : UrbHeader) : h.asBytes.length = 24 :=
  UrbHeader.layout.length_encode h

namespace UrbHeader

/-- `size_of::<vhci::ioctl::IocIsoPacketData>()`, also that of `IocIsoPacketGiveback`. -/
abbrev isoPacketSize : Nat := 8

def paddedTransferLen (h : UrbHeader) : Nat := align h.actualTransferLen.toNat 8

def isOut (h : UrbHeader) : Bool := h.endpoint.dir = .out

def isPending (h : UrbHeader) : Bool := h.status = .pending

def isoByteLen (h : UrbHeader) : Nat := h.isoPacketCount.toNat * isoPacketSize

def isReply (h : UrbHeader) : Bool := !h.isPending

end UrbHeader

theorem align_eight {n : Nat} (h : n < 2 ^ 63) : align n 8 = alignUp n 8 :=
  alignMask_eq (w := 64) (k := 3) (by omega) (by omega)

theorem align_eight_eq {n : Nat} (h : n < 2 ^ 63) : align n 8 = (n + 7) / 8 * 8 := align_eight h

theorem UrbHeader.paddedTransferLen_eq (h : UrbHeader) :
    h.paddedTransferLen = (h.actualTransferLen.toNat + 7) / 8 * 8 :=
  align_eight_eq (h.actualTransferLen.toNat_lt.trans (by decide))

theorem UrbHeader.paddedTransferLen_le (h : UrbHeader) : h.paddedTransferLen ≤ 65536 := by
  have hlt := h.actualTransferLen.toNat_lt
  rw [h.paddedTransferLen_eq]
  omega

theorem UrbHeader.le_paddedTransferLen (h : UrbHeader) :
    h.actualTransferLen.toNat ≤ h.paddedTransferLen := by
  rw [h.paddedTransferLen_eq]
  omega

/-- The zero bytes that align a transfer of the given length to eight. -/
def padding (actualTransferLen : UInt16) : Bytes :=
  List.replicate (align actualTransferLen.toNat 8 - actualTransferLen.toNat) 0

theorem padding_length (n : UInt16) :
    n.toNat + (padding n).length = (n.toNat + 7) / 8 * 8 := by
  have hlt := n.toNat_lt
  rw [padding, List.length_replicate, align_eight_eq (by omega)]
  omega

end Qusb.Msg

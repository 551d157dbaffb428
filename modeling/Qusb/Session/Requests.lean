import Qusb.Lend.Recv

/-! The messages that open a stream.

A client sends its version and a request in eight bytes, and the server answers with eight bytes. An
enumeration with data is a tag and a body of fixed width, so each message has a layout. -/

open ByteCodec

namespace Qusb.Msg

open Lend

/-- Bytes of padding. -/
abbrev Pad (w : Nat) := { bs : Bytes // bs.length = w }

/-- `Default::default()`. -/
def Pad.zero (w : Nat) : Pad w := ⟨List.replicate w 0, List.length_replicate⟩

structure Version where
  major : UInt8
  minor : UInt8
  patch : UInt16
  deriving DecidableEq, Repr

def Version.isCompat (self other : Version) : Bool := self.major == other.major && self.minor == other.minor

def Version.layout : Layout Version :=
  (Layout.u8.pair (Layout.u8.pair Layout.u16)).rename
    { toFun := fun v => (v.major, v.minor, v.patch)
      invFun := fun t => ⟨t.1, t.2.1, t.2.2⟩
      left_inv := fun _ => rfl
      right_inv := fun _ => rfl }

def UsbDeviceId.layout : Layout UsbDeviceId :=
  (Layout.u8.pair Layout.u8).rename
    { toFun := fun id => (id.busNumber, id.deviceAddr)
      invFun := fun t => ⟨t.1, t.2⟩
      left_inv := fun _ => rfl
      right_inv := fun _ => rfl }

inductive DataRate where
  | low
  | full
  | high
  deriving DecidableEq, Repr

private theorem toNat_ofNat_of_lt {n : Nat} (h : n < 256) : (UInt8.ofNat n).toNat = n :=
  UInt8.toNat_ofNat_of_lt' h

private theorem ofNat_eq_of_toNat {b : UInt8} {n : Nat} (hn : n < 256) (h : b.toNat = n) :
    UInt8.ofNat n = b :=
  UInt8.toNat_inj.mp ((toNat_ofNat_of_lt hn).trans h.symm)

def DataRate.toByte : DataRate → UInt8
  | .low => 0
  | .full => 1
  | .high => 2

def DataRate.ofByte (b : UInt8) : Option DataRate :=
  match b.toNat with
  | 0 => some .low
  | 1 => some .full
  | 2 => some .high
  | _ => none

def DataRate.byteEnum : ByteEnum DataRate where
  toByte := toByte
  ofByte := ofByte
  ofByte_toByte a := by cases a <;> rfl
  toByte_ofByte b a h := by
    unfold ofByte at h
    split at h <;> cases h <;> exact ofNat_eq_of_toNat (by decide) (by assumption)

/-! ### Requests -/

inductive Req where
  | listDevices (padding : Pad 3)
  | borrowDevice (padding : Pad 1) (devId : UsbDeviceId)
  | lendDevice (dataRate : DataRate) (devId : UsbDeviceId)
  deriving DecidableEq

namespace Req

inductive Tag where
  | listDevices
  | borrowDevice
  | lendDevice

def Tag.toByte : Tag → UInt8
  | .listDevices => 0
  | .borrowDevice => 1
  | .lendDevice => 2

def Tag.ofByte (b : UInt8) : Option Tag :=
  match b.toNat with
  | 0 => some .listDevices
  | 1 => some .borrowDevice
  | 2 => some .lendDevice
  | _ => none

def Tag.byteEnum : ByteEnum Tag where
  toByte := toByte
  ofByte := ofByte
  ofByte_toByte a := by cases a <;> rfl
  toByte_ofByte b a h := by
    unfold ofByte at h
    split at h <;> cases h <;> exact ofNat_eq_of_toNat (by decide) (by assumption)

@[reducible] def Body : Tag → Type
  | .listDevices => Pad 3
  | .borrowDevice => Pad 1 × UsbDeviceId
  | .lendDevice => DataRate × UsbDeviceId

def Body.layout : (t : Tag) → Layout (Body t)
  | .listDevices => Layout.pad 3
  | .borrowDevice => (Layout.pad 1).pair UsbDeviceId.layout
  | .lendDevice => (Layout.enum DataRate.byteEnum).pair UsbDeviceId.layout

def layout : Layout Req :=
  (Layout.tagged (Layout.enum Tag.byteEnum) 3 Body.layout fun t => by cases t <;> rfl).rename
    { toFun := fun
        | .listDevices p => ⟨.listDevices, p⟩
        | .borrowDevice p id => ⟨.borrowDevice, (p, id)⟩
        | .lendDevice rate id => ⟨.lendDevice, (rate, id)⟩
      invFun := fun
        | ⟨.listDevices, p⟩ => .listDevices p
        | ⟨.borrowDevice, (p, id)⟩ => .borrowDevice p id
        | ⟨.lendDevice, (rate, id)⟩ => .lendDevice rate id
      left_inv := fun req => by cases req <;> rfl
      right_inv := fun ⟨t, body⟩ => by cases t <;> rfl }

end Req

structure ReqFrame where
  version : Version
  req : Req
  deriving DecidableEq

namespace ReqFrame

/-- `ReqFrame` has no `repr`, so the order of its fields is the compiler's. -/
inductive Order where
  | versionFirst
  | reqFirst
  deriving DecidableEq, Repr

def layout : Order → Layout ReqFrame
  | .versionFirst =>
      (Version.layout.pair Req.layout).rename
        { toFun := fun f => (f.version, f.req)
          invFun := fun t => ⟨t.1, t.2⟩
          left_inv := fun _ => rfl
          right_inv := fun _ => rfl }
  | .reqFirst =>
      (Req.layout.pair Version.layout).rename
        { toFun := fun f => (f.req, f.version)
          invFun := fun t => ⟨t.2, t.1⟩
          left_inv := fun _ => rfl
          right_inv := fun _ => rfl }

/-- `size_of::<ReqFrame>()`. -/
abbrev size : Nat := 8

theorem width_eq (order : Order) : (layout order).width = size := by cases order <;> rfl

def toBytes (order : Order) (f : ReqFrame) : Bytes := (layout order).encode f

end ReqFrame

/-! ### Responses -/

inductive VersionOpt where
  | some (version : Version)
  | none (padding : Pad 4)
  deriving DecidableEq

namespace VersionOpt

/-- The tag has sixteen bits. -/
inductive Tag where
  | some
  | none

/-- The tag of two bytes: its low byte, and a zero. -/
def Tag.byteEnum : ByteEnum Tag where
  toByte
    | .some => 0
    | .none => 1
  ofByte b := if b = 0 then Option.some .some else if b = 1 then Option.some .none else Option.none
  ofByte_toByte a := by cases a <;> rfl
  toByte_ofByte b a h := by
    split at h
    · next hb =>
        cases h
        exact hb.symm
    · split at h
      · next hb =>
          cases h
          exact hb.symm
      · cases h

def zeroByte : ByteEnum Unit where
  toByte _ := 0
  ofByte b := if b = 0 then Option.some () else Option.none
  ofByte_toByte _ := rfl
  toByte_ofByte b a h := by
    split at h
    · next hb => exact hb.symm
    · cases h

def Tag.layout : Layout Tag :=
  ((Layout.enum Tag.byteEnum).pair (Layout.enum zeroByte)).rename
    { toFun := fun t => (t, ())
      invFun := fun p => p.1
      left_inv := fun _ => rfl
      right_inv := fun _ => rfl }

@[reducible] def Body : Tag → Type
  | .some => Version
  | .none => Pad 4

def Body.layout : (t : Tag) → Layout (Body t)
  | .some => Version.layout
  | .none => Layout.pad 4

def layout : Layout VersionOpt :=
  (Layout.tagged Tag.layout 4 Body.layout fun t => by cases t <;> rfl).rename
    { toFun := fun
        | .some version => ⟨.some, version⟩
        | .none p => ⟨.none, p⟩
      invFun := fun
        | ⟨.some, version⟩ => .some version
        | ⟨.none, p⟩ => .none p
      left_inv := fun ver => by cases ver <;> rfl
      right_inv := fun ⟨t, body⟩ => by cases t <;> rfl }

end VersionOpt

inductive Resp where
  | listDevices (padding : Pad 7)
  | borrowDevice (dataRate : DataRate) (padding : Pad 6)
  | lendDevice (padding : Pad 7)
  | failure (stat : Status) (ver : VersionOpt)
  deriving DecidableEq

namespace Resp

inductive Tag where
  | listDevices
  | borrowDevice
  | lendDevice
  | failure

def Tag.toByte : Tag → UInt8
  | .listDevices => 0
  | .borrowDevice => 1
  | .lendDevice => 2
  | .failure => 3

def Tag.ofByte (b : UInt8) : Option Tag :=
  match b.toNat with
  | 0 => some .listDevices
  | 1 => some .borrowDevice
  | 2 => some .lendDevice
  | 3 => some .failure
  | _ => none

def Tag.byteEnum : ByteEnum Tag where
  toByte := toByte
  ofByte := ofByte
  ofByte_toByte a := by cases a <;> rfl
  toByte_ofByte b a h := by
    unfold ofByte at h
    split at h <;> cases h <;> exact ofNat_eq_of_toNat (by decide) (by assumption)

@[reducible] def Body : Tag → Type
  | .listDevices => Pad 7
  | .borrowDevice => DataRate × Pad 6
  | .lendDevice => Pad 7
  | .failure => Status × VersionOpt

def Body.layout : (t : Tag) → Layout (Body t)
  | .listDevices => Layout.pad 7
  | .borrowDevice => (Layout.enum DataRate.byteEnum).pair (Layout.pad 6)
  | .lendDevice => Layout.pad 7
  | .failure => (Layout.enum Status.byteEnum).pair VersionOpt.layout

def layout : Layout Resp :=
  (Layout.tagged (Layout.enum Tag.byteEnum) 7 Body.layout fun t => by cases t <;> rfl).rename
    { toFun := fun
        | .listDevices p => ⟨.listDevices, p⟩
        | .borrowDevice rate p => ⟨.borrowDevice, (rate, p)⟩
        | .lendDevice p => ⟨.lendDevice, p⟩
        | .failure stat ver => ⟨.failure, (stat, ver)⟩
      invFun := fun
        | ⟨.listDevices, p⟩ => .listDevices p
        | ⟨.borrowDevice, (rate, p)⟩ => .borrowDevice rate p
        | ⟨.lendDevice, p⟩ => .lendDevice p
        | ⟨.failure, (stat, ver)⟩ => .failure stat ver
      left_inv := fun resp => by cases resp <;> rfl
      right_inv := fun ⟨t, body⟩ => by cases t <;> rfl }

/-- `size_of::<Resp>()`. -/
abbrev size : Nat := 8

theorem width_eq : layout.width = size := rfl

def toBytes (resp : Resp) : Bytes := layout.encode resp

end Resp

end Qusb.Msg

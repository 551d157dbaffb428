import Qusb.Proto.Msg

/-! The virtual host controller's driver, as the repository uses it.

The driver's crate is not part of the repository. Its plain data (URBs, port status, work items) is
restated with the fields that are read; what it decides about an address, an endpoint or a setup packet
is a parameter, `Vhci`. -/

namespace Qusb

open Msg

structure UrbHandle where
  raw : UInt64
  deriving DecidableEq, Repr

structure Port where
  get : UInt8
  deriving DecidableEq, Repr

structure Address where
  get : UInt8
  deriving DecidableEq, Repr

/-- The standard requests that are told apart. -/
inductive Request where
  | deviceSetAddress
  | deviceGetStatus
  | deviceSetConfiguration
  | interfaceSetInterface
  | endpointClearFeature
  | other
  deriving DecidableEq, Repr

/-- The decisions of the driver's crate. -/
structure Vhci where
  isForUnassigned : Address → Bool
  isAnycast : Endpoint → Bool
  addressNew : UInt8 → Option Address
  req : IocSetupPacket → Request

/-- The decisions as USB defines them, for concrete runs. -/
def Vhci.usb : Vhci where
  isForUnassigned address := address.get == 0
  isAnycast endpoint := endpoint.addr &&& 0x0f == 0
  addressNew n := if n ≤ 127 then some ⟨n⟩ else none
  req packet :=
    match packet.requestType.toNat, packet.request.toNat with
    | 0x00, 5 => .deviceSetAddress
    | 0x80, 0 => .deviceGetStatus
    | 0x00, 9 => .deviceSetConfiguration
    | 0x01, 11 => .interfaceSetInterface
    | 0x02, 1 => .endpointClearFeature
    | _, _ => .other

structure PortStatus where
  connection : Bool
  enable : Bool
  reset : Bool
  power : Bool
  deriving DecidableEq, Repr

structure PortChange where
  connection : Bool
  reset : Bool
  deriving DecidableEq, Repr

structure PortFlag where
  resuming : Bool
  deriving DecidableEq, Repr

structure IocPortStat where
  status : PortStatus
  change : PortChange
  index : Port
  flags : PortFlag
  deriving DecidableEq, Repr

structure IocUrb where
  typ : TransferKind
  address : Address
  endpoint : Endpoint
  setupPacket : IocSetupPacket
  bufferLength : Int32
  packetCount : Int32
  interval : Int32
  flags : UInt16
  deriving DecidableEq, Repr

inductive Work where
  | portStat (stat : IocPortStat)
  | processUrb (urb : IocUrb) (handle : UrbHandle)
  | cancelUrb (handle : UrbHandle)
  deriving DecidableEq, Repr

/-- A port whose reset has just completed. -/
def IocPortStat.resetSuccessful (stat : IocPortStat) : Bool :=
  stat.change.reset && !stat.status.reset && stat.status.enable

/-- `as usize` of an `i32`. -/
def asUsize (x : Int32) : Nat := (x.toInt % 2 ^ 64).toNat

theorem asUsize_of_nonneg {x : Int32} (h : 0 ≤ x.toInt) : (asUsize x : Int) = x.toInt := by
  have hlt := x.toInt_lt
  unfold asUsize
  omega

end Qusb

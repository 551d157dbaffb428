import Qusb.Proto.Msg
import Qusb.Proto.Records

/-! The records of a device list.

A record is a header of 312 bytes and the interfaces of the device. Near its end the header has the number of
interfaces that follow, padding included. -/

open ByteCodec

namespace Qusb.Msg

open Proto

structure UsbInterfaceInfo where
  bInterfaceNumber : UInt8
  bInterfaceClass : UInt8
  bInterfaceSubclass : UInt8
  bInterfaceProtocol : UInt8
  deriving DecidableEq, Repr

def UsbInterfaceInfo.layout : Layout UsbInterfaceInfo :=
  (Layout.u8.pair (Layout.u8.pair (Layout.u8.pair Layout.u8))).rename
    { toFun := fun i => (i.bInterfaceNumber, i.bInterfaceClass, i.bInterfaceSubclass, i.bInterfaceProtocol)
      invFun := fun t => ⟨t.1, t.2.1, t.2.2.1, t.2.2.2⟩
      left_inv := fun _ => rfl
      right_inv := fun _ => rfl }

/-- USB connection speed. -/
inductive Speed where
  | unknown
  | low
  | full
  | high
  | super
  | superPlus
  deriving DecidableEq, Repr

def Speed.toByte : Speed → UInt8
  | .unknown => 0
  | .low => 1
  | .full => 2
  | .high => 3
  | .super => 4
  | .superPlus => 5

def Speed.ofByte (b : UInt8) : Option Speed :=
  match b.toNat with
  | 0 => some .unknown
  | 1 => some .low
  | 2 => some .full
  | 3 => some .high
  | 4 => some .super
  | 5 => some .superPlus
  | _ => none

private theorem speedByte_eq_of_toNat {b c : UInt8} (h : b.toNat = c.toNat) : c = b :=
  UInt8.toNat_inj.mp h.symm

def Speed.byteEnum : ByteEnum Speed where
  toByte := toByte
  ofByte := ofByte
  ofByte_toByte a := by cases a <;> rfl
  toByte_ofByte b a h := by
    unfold ofByte at h
    split at h <;> cases h <;> exact speedByte_eq_of_toNat (by assumption)

def pathMaxLen : Nat := 256

def busIdMaxLen : Nat := 32

structure UsbDeviceInfoHeader where
  path : { bs : Bytes // bs.length = pathMaxLen }
  busId : { bs : Bytes // bs.length = busIdMaxLen }
  pathLen : UInt16
  idVendor : UInt16
  idProduct : UInt16
  bcdDevice : UInt16
  busIdLen : UInt8
  busnum : UInt8
  devnum : UInt8
  speed : Speed
  bDeviceClass : UInt8
  bDeviceSubclass : UInt8
  bDeviceProtocol : UInt8
  bConfigurationValue : UInt8
  bNumConfigurations : UInt8
  bNumInterfaces : UInt8
  paddedNumInterfaces : UInt8
  padding : { bs : Bytes // bs.length = 5 }

namespace UsbDeviceInfoHeader

/-- The fields before the number of interfaces that follow. -/
def frontLayout : Layout ({ bs : Bytes // bs.length = pathMaxLen } × { bs : Bytes // bs.length = busIdMaxLen } ×
    UInt16 × UInt16 × UInt16 × UInt16 × UInt8 × UInt8 × UInt8 × Speed × UInt8 × UInt8 × UInt8 × UInt8 × UInt8 ×
    UInt8) :=
  (Layout.pad pathMaxLen).pair ((Layout.pad busIdMaxLen).pair (Layout.u16.pair (Layout.u16.pair
    (Layout.u16.pair (Layout.u16.pair (Layout.u8.pair (Layout.u8.pair (Layout.u8.pair
      ((Layout.enum Speed.byteEnum).pair (Layout.u8.pair (Layout.u8.pair (Layout.u8.pair (Layout.u8.pair
        (Layout.u8.pair Layout.u8))))))))))))))

def layout : Layout UsbDeviceInfoHeader :=
  (frontLayout.pair (Layout.u8.pair (Layout.pad 5))).rename
    { toFun := fun h => ((h.path, h.busId, h.pathLen, h.idVendor, h.idProduct, h.bcdDevice, h.busIdLen, h.busnum,
          h.devnum, h.speed, h.bDeviceClass, h.bDeviceSubclass, h.bDeviceProtocol, h.bConfigurationValue,
          h.bNumConfigurations, h.bNumInterfaces), h.paddedNumInterfaces, h.padding)
      invFun := fun ⟨⟨path, busId, pathLen, idVendor, idProduct, bcdDevice, busIdLen, busnum, devnum, speed,
          bDeviceClass, bDeviceSubclass, bDeviceProtocol, bConfigurationValue, bNumConfigurations,
          bNumInterfaces⟩, paddedNumInterfaces, padding⟩ =>
        ⟨path, busId, pathLen, idVendor, idProduct, bcdDevice, busIdLen, busnum, devnum, speed, bDeviceClass,
          bDeviceSubclass, bDeviceProtocol, bConfigurationValue, bNumConfigurations, bNumInterfaces,
          paddedNumInterfaces, padding⟩
      left_inv := fun _ => rfl
      right_inv := fun _ => rfl }

/-- `size_of::<UsbDeviceInfoHeader>()`. -/
abbrev size : Nat := 312

/-- `offset_of!(UsbDeviceInfoHeader, padded_num_interfaces)`. -/
abbrev lenOffset : Nat := 306

theorem width_eq : layout.width = size := rfl

theorem frontLayout_width : frontLayout.width = lenOffset := rfl

def asBytes (h : UsbDeviceInfoHeader) : Bytes := layout.encode h

@[simp] theorem asBytes_length (h : UsbDeviceInfoHeader) : h.asBytes.length = 312 := layout.length_encode h

/-- The number of interfaces is at its offset. -/
theorem asBytes_getD (h : UsbDeviceInfoHeader) (rest : Bytes) :
    (h.asBytes ++ rest).getD lenOffset 0 = h.paddedNumInterfaces := by
  let front := frontLayout.encode (h.path, h.busId, h.pathLen, h.idVendor, h.idProduct, h.bcdDevice, h.busIdLen,
    h.busnum, h.devnum, h.speed, h.bDeviceClass, h.bDeviceSubclass, h.bDeviceProtocol, h.bConfigurationValue,
    h.bNumConfigurations, h.bNumInterfaces)
  have hfront : front.length = lenOffset := (frontLayout.length_encode _).trans frontLayout_width
  have hcount : Layout.u8.encode h.paddedNumInterfaces = [h.paddedNumInterfaces] :=
    congrArg (fun x => [x]) UInt8.ofNat_toNat
  have hbytes : h.asBytes = front ++ ([h.paddedNumInterfaces] ++ h.padding.1) := by
    rw [← hcount]
    rfl
  rw [hbytes, List.append_assoc, List.getD_append_right _ _ _ _ hfront.le, hfront]
  rfl

end UsbDeviceInfoHeader

structure UsbDeviceInfo where
  header : UsbDeviceInfoHeader
  interfaces : List UsbInterfaceInfo

namespace UsbDeviceInfo

/-- The header counts the interfaces that follow it. -/
def Described (info : UsbDeviceInfo) : Prop :=
  info.header.paddedNumInterfaces.toNat = info.interfaces.length

def asBytes (info : UsbDeviceInfo) : Bytes :=
  info.header.asBytes ++ UsbInterfaceInfo.layout.encodeAll info.interfaces

theorem asBytes_length (info : UsbDeviceInfo) : info.asBytes.length = 312 + info.interfaces.length * 4 := by
  unfold asBytes
  rw [List.length_append, UsbDeviceInfoHeader.asBytes_length, Layout.length_encodeAll]
  rfl

instance tryFromBytes : TryFromBytes UsbDeviceInfo where
  tryRef bs := (UsbDeviceInfoHeader.layout.decode bs).bind fun header =>
    let rest := bs.drop UsbDeviceInfoHeader.size
    if rest.length % 4 = 0 then
      (UsbInterfaceInfo.layout.decodeAll (rest.length / 4) rest).map fun interfaces => ⟨header, interfaces⟩
    else none

def getSliceLen (buf : Bytes) : Except GetSliceLenErr Nat :=
  if UsbDeviceInfoHeader.size > buf.length then .error (.bufferShort (UsbDeviceInfoHeader.size - buf.length))
  else
    let paddedLen := (buf.getD UsbDeviceInfoHeader.lenOffset 0).toNat
    let sizeOfT := paddedLen * 4 + UsbDeviceInfoHeader.size
    if sizeOfT > buf.length then .error (.bufferShort (sizeOfT - buf.length)) else .ok paddedLen

/-- The sums are far below the range of `usize`. -/
instance getSliceLenInst : GetSliceLen UsbDeviceInfo where
  sizeOfHeader := UsbDeviceInfoHeader.size
  sizeOfData := 4
  getSliceLen _ buf := .ok (getSliceLen buf)

theorem tryRef_asBytes (info : UsbDeviceInfo) : tryRefFromBytes UsbDeviceInfo info.asBytes = some info := by
  have hdrop : info.asBytes.drop UsbDeviceInfoHeader.size =
      UsbInterfaceInfo.layout.encodeAll info.interfaces :=
    UsbDeviceInfoHeader.layout.drop_encode_append info.header _
  have hlen : (UsbInterfaceInfo.layout.encodeAll info.interfaces).length = info.interfaces.length * 4 :=
    Layout.length_encodeAll _ _
  have hall := UsbInterfaceInfo.layout.decodeAll_encodeAll info.interfaces []
  rw [List.append_nil] at hall
  show (UsbDeviceInfoHeader.layout.decode info.asBytes).bind _ = _
  rw [show UsbDeviceInfoHeader.layout.decode info.asBytes = some info.header from
    UsbDeviceInfoHeader.layout.decode_encode _ _, Option.bind_some]
  simp only
  rw [hdrop, hlen, if_pos (Nat.mul_mod_left _ _), Nat.mul_div_cancel _ (by decide), hall]
  rfl

theorem getSliceLen_nil : getSliceLen [] = .error (.bufferShort 312) := rfl

/-- The length of a described record is found, and a part of one is found too short. -/
theorem measures (b : Build) {info : UsbDeviceInfo} (hdescribed : info.Described) :
    Measures UsbDeviceInfo b info.asBytes info.interfaces.length where
  size := info.asBytes_length.symm
  exact t := by
    have hlen := info.asBytes_length
    have hcount : ((info.asBytes ++ t).getD UsbDeviceInfoHeader.lenOffset 0).toNat = info.interfaces.length := by
      unfold asBytes
      rw [List.append_assoc, UsbDeviceInfoHeader.asBytes_getD, hdescribed]
    show Except.ok (getSliceLen (info.asBytes ++ t)) = _
    have hsize : UsbDeviceInfoHeader.size = 312 := rfl
    unfold getSliceLen
    simp only
    rw [hcount, List.length_append, hlen, if_neg (by omega), if_neg (by omega)]
  short p hp hne := by
    have hlt : p.length < 312 + info.interfaces.length * 4 := by
      rw [← info.asBytes_length]
      exact length_lt_of_prefix hp hne
    obtain ⟨q, hq⟩ := hp
    have hsize : UsbDeviceInfoHeader.size = 312 := rfl
    have hoffset : UsbDeviceInfoHeader.lenOffset = 306 := rfl
    show ∃ k, 0 < k ∧ Except.ok (getSliceLen p) = _
    unfold getSliceLen
    by_cases hshort : UsbDeviceInfoHeader.size > p.length
    · rw [if_pos hshort]
      exact ⟨_, Nat.sub_pos_of_lt hshort, rfl⟩
    · have hcount : (p.getD UsbDeviceInfoHeader.lenOffset 0).toNat = info.interfaces.length := by
        have hget := List.getD_append p q 0 UsbDeviceInfoHeader.lenOffset (by omega)
        rw [hq] at hget
        have hwhole := UsbDeviceInfoHeader.asBytes_getD info.header
          (UsbInterfaceInfo.layout.encodeAll info.interfaces)
        rw [← hget]
        unfold asBytes
        rw [hwhole, hdescribed]
      simp only
      rw [if_neg hshort, hcount, if_pos (by omega)]
      exact ⟨_, by omega, rfl⟩

end UsbDeviceInfo

end Qusb.Msg

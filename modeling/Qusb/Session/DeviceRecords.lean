import Qusb.Session.DeviceList

/-! The record of a device.

`getUsbDevice` turns what the USB library knows of a device into a record: lengths are clamped to the fields that
hold the bytes, by a conversion that gives zero where the length does not fit the integer, and an odd number of
interfaces is padded before it is counted again into a byte. -/

open ByteCodec

namespace Qusb.Msg

/-- `Speed::from_u8`. -/
def Speed.fromU8 (num : UInt8) : Speed := (Speed.ofByte num).getD .unknown

def UsbInterfaceInfo.zero : UsbInterfaceInfo := ⟨0, 0, 0, 0⟩

namespace UsbDeviceInfo

/-- `get(..len)` of a slice. -/
def getTo (bs : Bytes) (len : Nat) : Option Bytes := if len ≤ bs.length then some (bs.take len) else none

def path (info : UsbDeviceInfo) : Option Bytes := getTo info.header.path.1 info.header.pathLen.toNat

def busId (info : UsbDeviceInfo) : Option Bytes := getTo info.header.busId.1 info.header.busIdLen.toNat

end UsbDeviceInfo
end Qusb.Msg

namespace Qusb.Session

open Msg Proto

/-! ### What the USB library says -/

/-- An opened device: the value of its active configuration, if it has one, and how many there are. -/
structure OpenedDevice where
  activeConfiguration : Option UInt8
  configurations : Nat

/-- A device of `nusb::list_devices`. `fileName` is the last component of its path, `opened` what opening it
gives. -/
structure DeviceInfo where
  sysfsPath : Bytes
  fileName : Option Bytes
  opened : Option OpenedDevice
  interfaces : List UsbInterfaceInfo
  busNumber : UInt8
  deviceAddress : UInt8
  speed : Option UInt8
  vendorId : UInt16
  productId : UInt16
  deviceVersion : UInt16
  cls : UInt8
  subclass : UInt8
  protocol : UInt8

/-! ### The record -/

/-- `u8::try_from(n).unwrap()`. -/
def tryIntoU8 (n : Nat) : Except Fault { b : UInt8 // b.toNat = n } :=
  if h : n < 256 then .ok ⟨UInt8.ofNat n, UInt8.toNat_ofNat_of_lt' h⟩ else .error .unwrapNone

/-- A length that is converted to an integer below `limit`, zero if it does not fit, and then clamped. -/
def clampedLen (limit bound len : Nat) : Nat := if len < limit then min len bound else 0

def pathLen (path : Bytes) : UInt16 := UInt16.ofNat (clampedLen 65536 pathMaxLen path.length)

def busIdLen (busId : Bytes) : UInt8 := UInt8.ofNat (clampedLen 256 busIdMaxLen busId.length)

/-- The first bytes in an array that starts out as zeros. -/
def arrayOf (n : Nat) (bs : Bytes) : { arr : Bytes // arr.length = n } :=
  ⟨bs.take n ++ List.replicate (n - bs.length) 0, by
    rw [List.length_append, List.length_take, List.length_replicate]
    omega⟩

/-- The interfaces, with one of zeros if their number is odd. -/
def interfacesWithPadding (interfaces : List UsbInterfaceInfo) : List UsbInterfaceInfo :=
  if interfaces.length % 2 = 1 then interfaces ++ [.zero] else interfaces

/-- The closure of `get_usb_devices`; a device that cannot be opened, or whose path ends in no name, is left
out. -/
def getUsbDevice (info : DeviceInfo) : Except Fault (Option UsbDeviceWrapper) :=
  match info.opened with
  | none => .ok none
  | some device => do
      let bNumInterfaces ← tryIntoU8 info.interfaces.length
      match info.fileName with
      | none => return none
      | some busId =>
          let paddedNumInterfaces ← tryIntoU8 (interfacesWithPadding info.interfaces).length
          return some {
            info := {
              path := arrayOf pathMaxLen info.sysfsPath
              busId := arrayOf busIdMaxLen busId
              pathLen := pathLen info.sysfsPath
              idVendor := info.vendorId
              idProduct := info.productId
              bcdDevice := info.deviceVersion
              busIdLen := busIdLen busId
              busnum := info.busNumber
              devnum := info.deviceAddress
              speed := (info.speed.map Speed.fromU8).getD .unknown
              bDeviceClass := info.cls
              bDeviceSubclass := info.subclass
              bDeviceProtocol := info.protocol
              bConfigurationValue := device.activeConfiguration.getD 0
              bNumConfigurations := UInt8.ofNat device.configurations
              bNumInterfaces := bNumInterfaces.1
              paddedNumInterfaces := paddedNumInterfaces.1
              padding := Pad.zero 5 }
            interfaces := interfacesWithPadding info.interfaces
            counted := paddedNumInterfaces.2 }

/-- The devices that `get_usb_devices` yields. -/
def getUsbDevices : List DeviceInfo → Except Fault (List UsbDeviceWrapper)
  | [] => .ok []
  | info :: infos => do
      let usb ← getUsbDevice info
      let rest ← getUsbDevices infos
      return usb.toList ++ rest

/-! ### What a record has to say -/

/-- The devices that are listed, with their bus ids. -/
def listed (infos : List DeviceInfo) : List (DeviceInfo × Bytes) :=
  infos.filterMap fun info => if info.opened.isSome then info.fileName.map (info, ·) else none

/-- The record says what is known of the device, as far as its fields can hold it. -/
structure Represents (device : DeviceInfo × Bytes) (record : UsbDeviceInfo) : Prop where
  interfaces : record.interfaces.take record.header.bNumInterfaces.toNat = device.1.interfaces
  padding : record.interfaces.drop record.header.bNumInterfaces.toNat = [] ∨
    record.interfaces.drop record.header.bNumInterfaces.toNat = [.zero]
  path : record.path = some (device.1.sysfsPath.take 256)
  busId : record.busId = some (device.2.take 32)

theorem headerSize_pos : 0 < GetSliceLen.sizeOfHeader UsbDeviceInfo := by decide

/-- Building the list goes through; what is written after the response is read back as one record for each
device, in order, with the header that was sent and saying what is known of the device. -/
def RecordsKept (b : Build) (infos : List DeviceInfo) : Prop :=
  ∃ devices records, getUsbDevices infos = .ok devices ∧
    iterDst (T := UsbDeviceInfo) headerSize_pos b ((listResponse devices).drop Resp.layout.width) = .ok records ∧
    records.map (·.header) = devices.map (·.info) ∧ List.Forall₂ Represents (listed infos) records

/-- The lengths that the record can hold: an odd 255 has no padding that fits. -/
def Holds (device : DeviceInfo × Bytes) : Prop :=
  device.1.interfaces.length ≠ 255 ∧ device.1.sysfsPath.length < 65536 ∧ device.2.length < 256

/-! ### The lengths -/

theorem clampedLen_le (limit bound len : Nat) : clampedLen limit bound len ≤ bound := by
  unfold clampedLen
  split
  · exact Nat.min_le_right _ _
  · exact Nat.zero_le _

theorem pathLen_toNat (path : Bytes) : (pathLen path).toNat = clampedLen 65536 pathMaxLen path.length :=
  UInt16.toNat_ofNat_of_lt' (lt_of_le_of_lt (clampedLen_le _ _ _) (by decide))

theorem busIdLen_toNat (busId : Bytes) : (busIdLen busId).toNat = clampedLen 256 busIdMaxLen busId.length :=
  UInt8.toNat_ofNat_of_lt' (lt_of_le_of_lt (clampedLen_le _ _ _) (by decide))

/-- The first bytes are found again exactly if their number fitted the integer: no bytes are found where it did
not. -/
theorem getTo_clampedLen_iff {limit bound : Nat} (bs : Bytes) (hbound : 0 < bound) (hlimit : bound < limit) :
    UsbDeviceInfo.getTo (arrayOf bound bs).1 (clampedLen limit bound bs.length) = some (bs.take bound) ↔
      bs.length < limit := by
  have hroom : clampedLen limit bound bs.length ≤ (arrayOf bound bs).1.length := by
    rw [(arrayOf bound bs).2]
    exact clampedLen_le _ _ _
  rw [UsbDeviceInfo.getTo, if_pos hroom, Option.some.injEq, clampedLen]
  split
  · next hlt =>
      have htake : (arrayOf bound bs).1.take (min bs.length bound) = bs.take bound := by
        have hlen : (bs.take bound).length = min bs.length bound := by
          rw [List.length_take, Nat.min_comm]
        rw [← hlen]
        exact List.take_left
      exact iff_of_true htake hlt
  · next hge =>
      refine iff_of_false (fun heq => ?_) hge
      have hlen := congrArg List.length heq
      rw [List.take_zero, List.length_nil, List.length_take] at hlen
      omega

/-- One more where the number is odd: only 255 is too many for a byte then. -/
theorem interfacesWithPadding_fits_iff {interfaces : List UsbInterfaceInfo} (hfits : interfaces.length ≤ 255) :
    (interfacesWithPadding interfaces).length < 256 ↔ interfaces.length ≠ 255 := by
  unfold interfacesWithPadding
  split
  · rw [List.length_append, List.length_singleton]
    omega
  · omega

theorem tryIntoU8_eq_ok {n : Nat} (h : n < 256) : ∃ b, tryIntoU8 n = .ok b := ⟨_, dif_pos h⟩

theorem tryIntoU8_eq_error {n : Nat} (h : ¬ n < 256) : tryIntoU8 n = .error .unwrapNone := dif_neg h

/-! ### One device -/

/-- What the wrapper holds of the device. -/
structure Describes (device : DeviceInfo × Bytes) (usb : UsbDeviceWrapper) : Prop where
  interfaces : usb.interfaces = interfacesWithPadding device.1.interfaces
  bNumInterfaces : usb.info.bNumInterfaces.toNat = device.1.interfaces.length
  path : usb.info.path = arrayOf pathMaxLen device.1.sysfsPath
  pathLen : usb.info.pathLen = pathLen device.1.sysfsPath
  busId : usb.info.busId = arrayOf busIdMaxLen device.2
  busIdLen : usb.info.busIdLen = busIdLen device.2

theorem getUsbDevice_skipped {info : DeviceInfo} (hfits : info.interfaces.length ≤ 255)
    (hskipped : info.opened = none ∨ info.fileName = none) : getUsbDevice info = .ok none := by
  unfold getUsbDevice
  cases hopened : info.opened with
  | none => rfl
  | some device =>
      have hname : info.fileName = none := hskipped.resolve_left (by rw [hopened]; exact Option.some_ne_none _)
      obtain ⟨b, hb⟩ := tryIntoU8_eq_ok (Nat.lt_succ_of_le hfits)
      simp only [hname, hb]
      rfl

theorem getUsbDevice_listed {info : DeviceInfo} {device : OpenedDevice} {busId : Bytes}
    (hfits : info.interfaces.length ≤ 255) (hopened : info.opened = some device)
    (hname : info.fileName = some busId) (hodd : info.interfaces.length ≠ 255) :
    ∃ usb, getUsbDevice info = .ok (some usb) ∧ Describes (info, busId) usb := by
  obtain ⟨b, hb⟩ := tryIntoU8_eq_ok (Nat.lt_succ_of_le hfits)
  obtain ⟨padded, hpadded⟩ := tryIntoU8_eq_ok ((interfacesWithPadding_fits_iff hfits).mpr hodd)
  unfold getUsbDevice
  simp only [hopened, hname, hb, hpadded]
  exact ⟨_, rfl, rfl, b.2, rfl, rfl, rfl, rfl⟩

theorem getUsbDevice_faults {info : DeviceInfo} {device : OpenedDevice} {busId : Bytes}
    (hopened : info.opened = some device) (hname : info.fileName = some busId)
    (hmany : info.interfaces.length = 255) : getUsbDevice info = .error .unwrapNone := by
  obtain ⟨b, hb⟩ := tryIntoU8_eq_ok (show info.interfaces.length < 256 by omega)
  have hover : tryIntoU8 (interfacesWithPadding info.interfaces).length = .error .unwrapNone :=
    tryIntoU8_eq_error (mt (interfacesWithPadding_fits_iff hmany.le).mp (not_not_intro hmany))
  unfold getUsbDevice
  simp only [hopened, hname, hb, hover]
  rfl

/-- The interfaces come back, with at most one of zeros after them; path and bus id do if their lengths
fitted. -/
theorem represents_iff {device : DeviceInfo × Bytes} {usb : UsbDeviceWrapper} (hdescribes : Describes device usb) :
    Represents device usb.toInfo ↔ device.1.sysfsPath.length < 65536 ∧ device.2.length < 256 := by
  have hpath : usb.toInfo.path = UsbDeviceInfo.getTo (arrayOf pathMaxLen device.1.sysfsPath).1
      (clampedLen 65536 pathMaxLen device.1.sysfsPath.length) := by
    rw [← pathLen_toNat, ← hdescribes.path, ← hdescribes.pathLen]
    rfl
  have hbusId : usb.toInfo.busId = UsbDeviceInfo.getTo (arrayOf busIdMaxLen device.2).1
      (clampedLen 256 busIdMaxLen device.2.length) := by
    rw [← busIdLen_toNat, ← hdescribes.busId, ← hdescribes.busIdLen]
    rfl
  constructor
  · intro h
    exact ⟨(getTo_clampedLen_iff _ (by decide) (by decide)).mp (hpath.symm.trans h.path),
      (getTo_clampedLen_iff _ (by decide) (by decide)).mp (hbusId.symm.trans h.busId)⟩
  · rintro ⟨hlt, hlt'⟩
    have hinterfaces : usb.toInfo.interfaces = interfacesWithPadding device.1.interfaces := hdescribes.interfaces
    have hnum : usb.toInfo.header.bNumInterfaces.toNat = device.1.interfaces.length := hdescribes.bNumInterfaces
    refine ⟨?_, ?_, hpath.trans ((getTo_clampedLen_iff _ (by decide) (by decide)).mpr hlt),
      hbusId.trans ((getTo_clampedLen_iff _ (by decide) (by decide)).mpr hlt')⟩
    · rw [hinterfaces, hnum, interfacesWithPadding]
      split
      · exact List.take_left
      · exact List.take_length
    · rw [hinterfaces, hnum, interfacesWithPadding]
      split
      · exact .inr List.drop_left
      · exact .inl List.drop_length

/-! ### The list -/

theorem listed_cons_skipped {info : DeviceInfo} (infos : List DeviceInfo)
    (hskipped : info.opened = none ∨ info.fileName = none) : listed (info :: infos) = listed infos := by
  refine List.filterMap_cons_none ?_
  rcases hskipped with h | h
  · rw [h]
    rfl
  · rw [h]
    exact ite_self _

theorem listed_cons {info : DeviceInfo} {device : OpenedDevice} {busId : Bytes} (infos : List DeviceInfo)
    (hopened : info.opened = some device) (hname : info.fileName = some busId) :
    listed (info :: infos) = (info, busId) :: listed infos := by
  refine List.filterMap_cons_some ?_
  rw [hopened, hname]
  rfl

theorem skipped_or_listed (info : DeviceInfo) :
    (info.opened = none ∨ info.fileName = none) ∨
      ∃ device busId, info.opened = some device ∧ info.fileName = some busId := by
  cases info.opened <;> cases info.fileName <;> simp

/-- If the list can be built, it has a wrapper for each listed device. -/
theorem describes_of_getUsbDevices {infos : List DeviceInfo} (hfits : ∀ info ∈ infos, info.interfaces.length ≤ 255) :
    ∀ {devices : List UsbDeviceWrapper}, getUsbDevices infos = .ok devices →
      (∀ device ∈ listed infos, device.1.interfaces.length ≠ 255) ∧
        List.Forall₂ Describes (listed infos) devices := by
  induction infos with
  | nil =>
      rintro devices ⟨⟩
      exact ⟨fun _ h => absurd h List.not_mem_nil, .nil⟩
  | cons info infos ih =>
      intro devices hok
      obtain ⟨hfit, hfits'⟩ := List.forall_mem_cons.mp hfits
      obtain ⟨usb, husb, hrest⟩ := bind_eq_ok_iff.mp hok
      obtain ⟨rest, hrest, hdevices⟩ := bind_eq_ok_iff.mp hrest
      obtain ⟨hodd, hall⟩ := ih hfits' hrest
      rcases skipped_or_listed info with hskipped | ⟨device, busId, hopened, hname⟩
      · cases (getUsbDevice_skipped hfit hskipped).symm.trans husb
        cases hdevices
        rw [listed_cons_skipped infos hskipped]
        exact ⟨hodd, hall⟩
      · rw [listed_cons infos hopened hname]
        by_cases hmany : info.interfaces.length = 255
        · cases (getUsbDevice_faults hopened hname hmany).symm.trans husb
        · obtain ⟨usb', husb', hdescribes⟩ := getUsbDevice_listed hfit hopened hname hmany
          cases husb'.symm.trans husb
          cases hdevices
          exact ⟨List.forall_mem_cons.mpr ⟨hmany, hodd⟩, .cons hdescribes hall⟩

theorem getUsbDevices_ok {infos : List DeviceInfo} (hfits : ∀ info ∈ infos, info.interfaces.length ≤ 255)
    (hodd : ∀ device ∈ listed infos, device.1.interfaces.length ≠ 255) :
    ∃ devices, getUsbDevices infos = .ok devices := by
  induction infos with
  | nil => exact ⟨[], rfl⟩
  | cons info infos ih =>
      obtain ⟨hfit, hfits'⟩ := List.forall_mem_cons.mp hfits
      rcases skipped_or_listed info with hskipped | ⟨device, busId, hopened, hname⟩
      · rw [listed_cons_skipped infos hskipped] at hodd
        obtain ⟨rest, hrest⟩ := ih hfits' hodd
        exact ⟨_, bind_eq_ok_iff.mpr ⟨_, getUsbDevice_skipped hfit hskipped, bind_eq_ok_iff.mpr ⟨_, hrest, rfl⟩⟩⟩
      · rw [listed_cons infos hopened hname] at hodd
        obtain ⟨hmany, hodd'⟩ := List.forall_mem_cons.mp hodd
        obtain ⟨usb, husb, -⟩ := getUsbDevice_listed hfit hopened hname hmany
        obtain ⟨rest, hrest⟩ := ih hfits' hodd'
        exact ⟨_, bind_eq_ok_iff.mpr ⟨_, husb, bind_eq_ok_iff.mpr ⟨_, hrest, rfl⟩⟩⟩

theorem forall₂_represents_iff {devices : List (DeviceInfo × Bytes)} {wrappers : List UsbDeviceWrapper}
    (hdescribes : List.Forall₂ Describes devices wrappers) :
    List.Forall₂ Represents devices (wrappers.map UsbDeviceWrapper.toInfo) ↔
      ∀ device ∈ devices, device.1.sysfsPath.length < 65536 ∧ device.2.length < 256 := by
  induction hdescribes with
  | nil => exact iff_of_true .nil fun _ h => absurd h List.not_mem_nil
  | cons hhead _ ih => rw [List.map_cons, List.forall₂_cons, List.forall_mem_cons, represents_iff hhead, ih]

theorem iterDst_listResponse (b : Build) (devices : List UsbDeviceWrapper) :
    iterDst (T := UsbDeviceInfo) headerSize_pos b ((listResponse devices).drop Resp.layout.width) =
      .ok (devices.map UsbDeviceWrapper.toInfo) := by
  rw [listResponse_eq, Resp.toBytes, Layout.drop_encode_append]
  exact iterDst_all (UsbDeviceWrapper.measures b) UsbDeviceWrapper.tryRef_asBytes
    (congrArg Except.ok UsbDeviceInfo.getSliceLen_nil) devices

/-- **The records are kept** exactly if no listed device has 255 interfaces, which cannot be padded, a path of
65536 bytes or a bus id of 256, which come back empty. -/
theorem records_kept_iff (b : Build) (infos : List DeviceInfo)
    (hfits : ∀ info ∈ infos, info.interfaces.length ≤ 255) :
    RecordsKept b infos ↔ ∀ device ∈ listed infos, Holds device := by
  constructor
  · rintro ⟨devices, records, hok, hiter, -, hrepresents⟩
    obtain ⟨hodd, hdescribes⟩ := describes_of_getUsbDevices hfits hok
    cases (iterDst_listResponse b devices).symm.trans hiter
    have hlens := (forall₂_represents_iff hdescribes).mp hrepresents
    exact fun device hmem => ⟨hodd device hmem, hlens device hmem⟩
  · intro hholds
    obtain ⟨devices, hok⟩ := getUsbDevices_ok hfits fun device hmem => (hholds device hmem).1
    obtain ⟨-, hdescribes⟩ := describes_of_getUsbDevices hfits hok
    refine ⟨devices, devices.map UsbDeviceWrapper.toInfo, hok, iterDst_listResponse b devices, ?_,
      (forall₂_represents_iff hdescribes).mpr fun device hmem => (hholds device hmem).2⟩
    rw [List.map_map]
    rfl

/-- A device with that many interfaces. -/
def deviceWith (n : Nat) : DeviceInfo where
  sysfsPath := [47, 115, 121, 115, 47, 49, 45, 49]
  fileName := some [49, 45, 49]
  opened := some ⟨some 1, 1⟩
  interfaces := List.replicate n ⟨0, 3, 1, 1⟩
  busNumber := 1
  deviceAddress := 4
  speed := some 2
  vendorId := 0x046d
  productId := 0xc31c
  deviceVersion := 0x6402
  cls := 0
  subclass := 0
  protocol := 0

/-- Three interfaces are padded to four. -/
theorem three_interfaces_kept : RecordsKept .release [deviceWith 3] := by
  refine (records_kept_iff .release [deviceWith 3] ?_).mpr ?_
  · exact List.forall_mem_singleton.mpr (by decide)
  · exact List.forall_mem_singleton.mpr ⟨by decide, by decide, by decide⟩

/-- 255 interfaces fit the byte that counts them, but not the byte that counts them with their padding. -/
theorem many_interfaces_fault :
    (∀ info ∈ [deviceWith 255], info.interfaces.length ≤ 255) ∧ ¬ RecordsKept .release [deviceWith 255] ∧
      getUsbDevices [deviceWith 255] = .error .unwrapNone := by
  have hfault : getUsbDevices [deviceWith 255] = .error .unwrapNone := by
    have hone : getUsbDevice (deviceWith 255) = .error .unwrapNone :=
      getUsbDevice_faults rfl rfl List.length_replicate
    show getUsbDevice (deviceWith 255) >>= _ = _
    rw [hone]
    rfl
  refine ⟨List.forall_mem_singleton.mpr List.length_replicate.le, ?_, hfault⟩
  rintro ⟨devices, -, hok, -⟩
  cases hfault.symm.trans hok

end Qusb.Session

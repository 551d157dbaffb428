import Qusb.Session.Handshake
import Qusb.Proto.DeviceInfo

/-! The device list of a request.

The server answers with the records of its devices, one after the other, and ends the stream. The client
reads until it holds 8192 bytes or the stream ends, and what it then holds is all that its iterator sees: the
list is complete if nothing was left in the stream. -/

open ByteCodec

namespace Qusb.Session

open Msg Proto

/-! ### The server -/

/-- A device that the server found; `get_usb_devices` counts the interfaces, with their padding, into a
byte. -/
structure UsbDeviceWrapper where
  info : UsbDeviceInfoHeader
  interfaces : List UsbInterfaceInfo
  counted : info.paddedNumInterfaces.toNat = interfaces.length

namespace UsbDeviceWrapper

/-- What the client is to see of the device. -/
def toInfo (usb : UsbDeviceWrapper) : UsbDeviceInfo := ⟨usb.info, usb.interfaces⟩

def asBytes (usb : UsbDeviceWrapper) : Bytes :=
  usb.info.asBytes ++ UsbInterfaceInfo.layout.encodeAll usb.interfaces

theorem measures (b : Build) (usb : UsbDeviceWrapper) :
    Measures UsbDeviceInfo b usb.asBytes usb.interfaces.length :=
  UsbDeviceInfo.measures b (show usb.toInfo.Described from usb.counted)

theorem tryRef_asBytes (usb : UsbDeviceWrapper) :
    tryRefFromBytes UsbDeviceInfo usb.asBytes = some usb.toInfo := usb.toInfo.tryRef_asBytes

end UsbDeviceWrapper

/-- The bytes that `send_device_list` writes for the devices. -/
def deviceBytes (devices : List UsbDeviceWrapper) : Bytes := devices.flatMap UsbDeviceWrapper.asBytes

/-- The bytes an answer puts on the stream. -/
def Answered.sent : Answered Bytes → Bytes
  | (.ok list, written) => written.flatMap Resp.toBytes ++ list
  | (.error _, written) => written.flatMap Resp.toBytes

/-- The answer to a request for the list, as the server writes it. -/
def listResponse (devices : List UsbDeviceWrapper) : Bytes :=
  (sendDeviceList (.ok (deviceBytes devices)) (.ok ())).sent

theorem listResponse_eq (devices : List UsbDeviceWrapper) :
    listResponse devices = Resp.toBytes (.listDevices (Pad.zero 7)) ++ deviceBytes devices := rfl

theorem listResponse_length (devices : List UsbDeviceWrapper) :
    (listResponse devices).length = 8 + (devices.map fun usb => 312 + usb.interfaces.length * 4).sum := by
  have hsizes : List.length ∘ UsbDeviceWrapper.asBytes = fun usb => 312 + usb.interfaces.length * 4 :=
    funext fun usb => usb.toInfo.asBytes_length
  rw [listResponse_eq, List.length_append, deviceBytes, List.length_flatMap, ← hsizes]
  rfl

/-! ### The client -/

/-- The reads in which a byte string arrives before the stream ends. -/
structure Reads (bs : Bytes) where
  chunks : List Chunk
  whole : (chunks.map Chunk.bytes).flatten = bs

/-- What `UsbDevices::iter` yields. -/
def UsbDevices.iter (b : Build) (buf : Ring) : Except Fault (List UsbDeviceInfo) :=
  iterDst (by decide) b buf.buf

/-- The iterator yields all devices exactly if it has the whole list. -/
theorem UsbDevices.iter_eq_iff (b : Build) {devices : List UsbDeviceWrapper} {buf : Ring}
    (hpart : buf.buf <+: deviceBytes devices) :
    iter b buf = .ok (devices.map UsbDeviceWrapper.toInfo) ↔ buf.buf = deviceBytes devices := by
  constructor
  · intro hyields
    by_contra hcut
    have hfewer : ∃ k < devices.length, iter b buf = .ok ((devices.take k).map UsbDeviceWrapper.toInfo) :=
      iterDst_cut (UsbDeviceWrapper.measures b) UsbDeviceWrapper.tryRef_asBytes hpart hcut
    obtain ⟨k, hk, hshort⟩ := hfewer
    have hlen := congrArg List.length (Except.ok.inj (hshort.symm.trans hyields))
    rw [List.length_map, List.length_map, List.length_take] at hlen
    omega
  · intro hwhole
    unfold iter
    rw [hwhole]
    exact iterDst_all (UsbDeviceWrapper.measures b) UsbDeviceWrapper.tryRef_asBytes
      (congrArg Except.ok UsbDeviceInfo.getSliceLen_nil) devices

/-- The client gets the list, and its iterator yields the devices. -/
def Complete (a : Alloc) (b : Build) (devices : List UsbDeviceWrapper) (reads : Reads (listResponse devices)) :
    Prop :=
  ∃ rx buf, reqListDevices a (.ok ()) (Reader.ofChunks reads.chunks) = .ok (.ok ((), rx, buf)) ∧
    UsbDevices.iter b buf = .ok (devices.map UsbDeviceWrapper.toInfo)

/-- What the client gets: the bytes of the list up to where it stopped reading. -/
theorem reqListDevices_returns (a : Alloc) {rx : Reader} {devices : List UsbDeviceWrapper}
    (hnil : rx.errors = []) (hbytes : rx.bytes = listResponse devices) :
    ∃ rx' buf, reqListDevices a (.ok ()) rx = .ok (.ok ((), rx', buf)) ∧
      rx' = ((Ring.withCapacity 1024).fillUntil a rx 8192).2.2 ∧ buf.buf ++ rx'.bytes = deviceBytes devices := by
  have hread := Ring.read_of_fillUntil Resp.layout a rx 1024 (show Resp.layout.width ≤ 8192 by decide)
  have hall := (Ring.fillUntil_bytes a (Ring.withCapacity 1024) rx 8192).trans hbytes
  have hfront : frontOf Resp.layout rx.beforeError = .ok (.listDevices (Pad.zero 7)) := by
    rw [Reader.beforeError_of_errors_nil hnil, hbytes, listResponse_eq]
    exact frontOf_encode _ _ _
  unfold reqListDevices request
  rcases hfill : (Ring.withCapacity 1024).fillUntil a rx 8192 with ⟨e | filled, ring, rx'⟩
  · rw [hfill] at hread
    exact absurd hnil hread.2
  · rw [hfill] at hread hall
    have hfst : (ring.read Resp.layout).1 = .ok (.listDevices (Pad.zero 7)) := hread.2.trans hfront
    rcases hring : ring.read Resp.layout with ⟨e | resp, buf⟩
    · rw [hring] at hfst
      cases hfst
    · rw [hring] at hfst
      obtain rfl : resp = .listDevices (Pad.zero 7) := Except.ok.inj hfst
      obtain ⟨hlen, hbuf⟩ := Ring.read_ok hring
      refine ⟨rx', buf, by simp only [hring]; rfl, rfl, ?_⟩
      have hdrop := congrArg (List.drop Resp.layout.width) hall
      rw [listResponse_eq, Resp.toBytes, Layout.drop_encode_append, List.drop_append_of_le_length hlen] at hdrop
      rw [hbuf]
      exact hdrop

/-- The list is complete exactly if the client read the stream to its end. -/
theorem complete_iff_takes_all (a : Alloc) (b : Build) {devices : List UsbDeviceWrapper}
    (reads : Reads (listResponse devices)) :
    Complete a b devices reads ↔
      ((Ring.withCapacity 1024).fillUntil a (Reader.ofChunks reads.chunks) 8192).2.2.bytes = [] := by
  obtain ⟨rx, buf, hreturns, hrx, hall⟩ := reqListDevices_returns a (Reader.errors_ofChunks reads.chunks)
    ((Reader.bytes_ofChunks _).trans reads.whole)
  have hiter : Complete a b devices reads ↔
      UsbDevices.iter b buf = .ok (devices.map UsbDeviceWrapper.toInfo) := by
    refine ⟨?_, fun h => ⟨rx, buf, hreturns, h⟩⟩
    rintro ⟨rx', buf', hreturns', h⟩
    cases hreturns.symm.trans hreturns'
    exact h
  rw [hiter, ← hrx, UsbDevices.iter_eq_iff b ⟨rx.bytes, hall⟩, ← hall]
  exact List.self_eq_append_right

/-! ### When the list is complete -/

namespace Reads

variable {bs : Bytes}

/-- The bytes that arrive before the last read. -/
def beforeLast (reads : Reads bs) : Bytes := (reads.chunks.dropLast.map Chunk.bytes).flatten

theorem chunks_ne_nil (reads : Reads bs) (hne : bs ≠ []) : reads.chunks ≠ [] := by
  intro h
  have hwhole := reads.whole
  rw [h] at hwhole
  exact hne hwhole.symm

theorem beforeLast_length_lt (reads : Reads bs) (hne : bs ≠ []) : reads.beforeLast.length < bs.length := by
  have hsplit : reads.chunks.dropLast ++ [reads.chunks.getLast (reads.chunks_ne_nil hne)] = reads.chunks :=
    List.dropLast_append_getLast (reads.chunks_ne_nil hne)
  have hlast := List.length_pos_iff.mpr (reads.chunks.getLast (reads.chunks_ne_nil hne)).ne_nil
  have hwhole : reads.beforeLast ++ (reads.chunks.getLast (reads.chunks_ne_nil hne)).bytes = bs :=
    calc reads.beforeLast ++ (reads.chunks.getLast (reads.chunks_ne_nil hne)).bytes
      _ = ((reads.chunks.dropLast ++ [reads.chunks.getLast (reads.chunks_ne_nil hne)]).map Chunk.bytes).flatten := by
          simp [beforeLast]
      _ = (reads.chunks.map Chunk.bytes).flatten := congrArg (fun cs => (cs.map Chunk.bytes).flatten) hsplit
      _ = bs := reads.whole
  have hlen := congrArg List.length hwhole
  rw [List.length_append] at hlen
  omega

/-- Two reads: the first `n` bytes, and the others. -/
def cutAt (bs : Bytes) (n : Nat) (hpos : 0 < n) (hlt : n < bs.length) : Reads bs where
  chunks := [⟨bs.take n, by simpa using ⟨hpos.ne', List.length_pos_iff.mp (by omega)⟩⟩,
    ⟨bs.drop n, by simpa using hlt⟩]
  whole := by simp

theorem cutAt_beforeLast {n : Nat} (hpos : 0 < n) (hlt : n < bs.length) :
    (cutAt bs n hpos hlt).beforeLast.length = n := by
  simpa [beforeLast, cutAt] using hlt.le

end Reads

theorem listResponse_ne_nil (devices : List UsbDeviceWrapper) : listResponse devices ≠ [] :=
  List.append_ne_nil_of_left_ne_nil (by decide) _

theorem complete_iff (a : Alloc) (b : Build) {devices : List UsbDeviceWrapper}
    (reads : Reads (listResponse devices)) :
    Complete a b devices reads ↔
      reads.beforeLast.length < 8192 ∧ (listResponse devices).length ≤ a.grow 0 1024 Ring.extra := by
  have hcap : ((Ring.withCapacity 1024).reserve a Ring.extra).capacity = a.grow 0 1024 Ring.extra :=
    congrArg Ring.capacity (if_pos (by decide))
  have hlen : ((Ring.withCapacity 1024).reserve a Ring.extra).len = 0 :=
    congrArg List.length (Ring.reserve_buf a _ _)
  have hroom : 8192 + 8192 ≤ ((Ring.withCapacity 1024).reserve a Ring.extra).capacity :=
    Ring.le_reserve a (Ring.withCapacity 1024) Ring.extra
  rw [complete_iff_takes_all,
    Ring.fillUntil_reserve a (show 8192 > (Ring.withCapacity 1024).len by decide) (by decide) (by decide),
    Ring.fillUntil_takes_all_iff a _ hroom, hcap, hlen, reads.whole,
    or_iff_right (reads.chunks_ne_nil (listResponse_ne_nil devices)), Nat.zero_add, Nat.zero_add]
  rfl

/-- **The list arrives complete** exactly if the client waits for the last read and that read has room: then
less than 8192 bytes come before it. It does for all ways to cut the response exactly if the response has at
most 8192 bytes. -/
theorem device_list_complete_iff (a : Alloc) (b : Build) (devices : List UsbDeviceWrapper) :
    (∀ reads : Reads (listResponse devices), Complete a b devices reads ↔
      reads.beforeLast.length < 8192 ∧ (listResponse devices).length ≤ a.grow 0 1024 Ring.extra) ∧
    ((∀ reads : Reads (listResponse devices), Complete a b devices reads) ↔
      (listResponse devices).length ≤ 8192) := by
  refine ⟨fun reads => complete_iff a b reads, ?_⟩
  constructor
  · intro hall
    by_contra hlong
    have hlt : 8192 < (listResponse devices).length := Nat.lt_of_not_le hlong
    obtain ⟨hfew, -⟩ := (complete_iff a b _).mp (hall (Reads.cutAt _ 8192 (by decide) hlt))
    rw [Reads.cutAt_beforeLast] at hfew
    exact absurd hfew (lt_irrefl _)
  · intro hle reads
    have hlast := reads.beforeLast_length_lt (listResponse_ne_nil devices)
    have hgrow : 8192 ≤ a.grow 0 1024 Ring.extra := le_trans (by decide) (a.le_grow 0 1024 Ring.extra)
    exact (complete_iff a b reads).mpr ⟨hlast.trans_le hle, hle.trans hgrow⟩

/-! ### A list that is too long -/

/-- A device without interfaces. -/
def bareDevice : UsbDeviceWrapper where
  info :=
    { path := Pad.zero pathMaxLen, busId := Pad.zero busIdMaxLen, pathLen := 0, idVendor := 0, idProduct := 0
      bcdDevice := 0, busIdLen := 0, busnum := 0, devnum := 0, speed := .unknown, bDeviceClass := 0
      bDeviceSubclass := 0, bDeviceProtocol := 0, bConfigurationValue := 0, bNumConfigurations := 0
      bNumInterfaces := 0, paddedNumInterfaces := 0, padding := Pad.zero 5 }
  interfaces := []
  counted := rfl

/-- A server with 27 devices. -/
def manyDevices : List UsbDeviceWrapper := List.replicate 27 bareDevice

theorem manyDevices_long : 8192 < (listResponse manyDevices).length := by
  rw [listResponse_length]
  decide

/-- The client stops after 8192 bytes and has 26 of the 27 devices. -/
theorem last_device_lost :
    ¬ Complete .tight .release manyDevices
      (Reads.cutAt (listResponse manyDevices) 8192 (by decide) manyDevices_long) := by
  intro h
  obtain ⟨hfew, -⟩ := (complete_iff .tight .release _).mp h
  rw [Reads.cutAt_beforeLast] at hfew
  exact absurd hfew (lt_irrefl _)

end Qusb.Session

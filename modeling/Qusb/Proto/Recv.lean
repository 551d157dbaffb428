import Qusb.Proto.Data
import Qusb.Proto.Errors

/-! Receiving and parsing frames.

`recvFrame` fills the ring until the next frame is complete and cuts it off; `parseFrame` reads a cut
frame as a submission or reply, an unlink or a port reset. What `recvFrame` returns depends on the bytes
not yet cut, not on how the transport delivers them: `recvFrame_spec` reduces it to `cutFrame`, a
function of those bytes. -/

open ByteCodec

namespace Qusb.Proto

open Qusb.Msg

structure QusbFrame where
  header : Header
  data : Bytes

structure UrbFrame where
  header : UrbHeader
  data : Bytes

instance : TryFromBytes QusbFrame where
  tryRef bs := (Header.layout.decode bs).map fun h => ⟨h, bs.drop Header.size⟩

instance : TryFromBytes UrbFrame where
  tryRef bs := (UrbHeader.layout.decode bs).map fun h => ⟨h, bs.drop UrbHeader.size⟩

/-- The first two bytes: the length of the frame in units of eight bytes. -/
def lenField (bs : Bytes) : UInt16 := UInt16.ofNat (leNat (bs.take 2))

def QusbFrame.getSliceLen (b : Build) (buf : Bytes) : Except Fault (Except GetSliceLenErr Nat) :=
  if buf.length < 2 then .ok (.error (.bufferShort (Header.size - buf.length)))
  else
    match b.mulU16 (lenField buf) 8 with
    | .error f => .error f
    | .ok frameLen =>
        if frameLen.toNat > buf.length then
          .ok (.error (.bufferShort (frameLen.toNat - buf.length)))
        else (b.subUsize frameLen.toNat Header.size).map .ok

instance : GetSliceLen QusbFrame where
  sizeOfHeader := Header.size
  sizeOfData := 1
  getSliceLen := QusbFrame.getSliceLen

/-- Bytes of any length and content. -/
instance : TryFromBytes Bytes where
  tryRef bs := some bs

/-- The data length a URB header announces: the padded transfer, if it is sent in this direction, and the
packet descriptors; the header's own size is subtracted although it is not part of either. -/
def UrbFrame.getSliceLen (b : Build) (buf : Bytes) : Except Fault (Except GetSliceLenErr Nat) :=
  match UrbHeader.layout.decode buf with
  | none =>
      if buf.length < UrbHeader.size then
        .ok (.error (.bufferShort (UrbHeader.size - buf.length)))
      else .ok (.error .noConfidence)
  | some header =>
      let rest := buf.drop UrbHeader.size
      let hasTransfer := (header.isOut && !header.isReply) || (!header.isOut && header.isReply)
      let requiredByteLen := header.paddedTransferLen * hasTransfer.toNat + header.isoByteLen
      if requiredByteLen > rest.length then
        .ok (.error (.bufferShort (requiredByteLen - rest.length)))
      else (b.subUsize requiredByteLen UrbHeader.size).map .ok

instance : GetSliceLen UrbFrame where
  sizeOfHeader := UrbHeader.size
  sizeOfData := 1
  getSliceLen := UrbFrame.getSliceLen

/-- The payload of a URB frame is what follows its header. -/
theorem splitData_bytes (data : Data UrbFrame) :
    ∃ rest : Data Bytes, data.splitData Bytes = some rest ∧ rest.buf = data.buf.drop UrbHeader.size :=
  ⟨⟨data.buf.drop UrbHeader.size, rfl⟩, rfl, rfl⟩

inductive RecvError where
  | io (e : IoError)
  | corruptedData
  deriving DecidableEq, Repr

/-- What a call of `recvFrame` returns; `error none` is the end of the stream. -/
abbrev Received := Except (Option RecvError) (Data QusbFrame)

/-! ### Cutting a frame off a ring -/

theorem QusbFrame.getSliceLen_short {b : Build} {buf : Bytes} {n : Nat}
    (h : QusbFrame.getSliceLen b buf = .ok (.error (.bufferShort n))) : 0 < n := by
  unfold QusbFrame.getSliceLen at h
  split at h
  · next hshort =>
      cases h
      show 0 < 8 - buf.length
      omega
  · split at h
    · cases h
    · next frameLen hmul =>
        split at h
        · next hlen =>
            cases h
            omega
        · cases hsub : b.subUsize frameLen.toNat Header.size <;> rw [hsub] at h <;> cases h

/-- A ring that is too short for its frame lacks at least one byte. -/
theorem Ring.claimDst_short {b : Build} {ring ring' : Ring} {n : Nat}
    (h : ring.claimDst QusbFrame b = .ok (.error (.bufferShort n), ring')) : 0 < n := by
  unfold Ring.claimDst at h
  split at h
  · cases h
  · next err herr =>
      cases err with
      | noConfidence => cases h
      | bufferShort m =>
          cases h
          exact QusbFrame.getSliceLen_short herr
  · next sliceLen hlen =>
      obtain ⟨dataByteLen, -, h⟩ := bind_eq_ok_iff.mp h
      obtain ⟨size, -, h⟩ := bind_eq_ok_iff.mp h
      obtain ⟨⟨buf, rest⟩, -, h⟩ := bind_eq_ok_iff.mp h
      have hnew : (Data.new buf : Except ReadError (Data QusbFrame)) = .error (.bufferShort n) :=
        (Prod.mk.inj (Except.ok.inj h)).1
      unfold Data.new at hnew
      split at hnew <;> cases hnew

/-- Cut `frameLen` bytes off a byte string: the frame, or `none` if they are no `QusbFrame`, and what
follows it; no cut while bytes are missing. A length of zero underflows. -/
def cutAt (b : Build) (frameLen : UInt16) (bs : Bytes) :
    Except Fault (Option (Option (Data QusbFrame) × Bytes)) :=
  if bs.length < frameLen.toNat then .ok none
  else if frameLen = 0 then
    match b with
    | .dev => .error .overflow
    | .release => .ok (some (none, bs))
  else .ok (some ((Data.new (bs.take frameLen.toNat)).toOption, bs.drop frameLen.toNat))

/-- The next frame of a byte string; no cut while bytes are missing. -/
def cutFrame (b : Build) (bs : Bytes) : Except Fault (Option (Option (Data QusbFrame) × Bytes)) :=
  if bs.length < 8 then .ok none
  else do
    let frameLen ← b.mulU16 (lenField bs) 8
    cutAt b frameLen bs

theorem lenField_append {bs : Bytes} (h : 2 ≤ bs.length) (more : Bytes) :
    lenField (bs ++ more) = lenField bs := by
  unfold lenField
  rw [List.take_append_of_le_length h]

/-- The length of a frame, as it wraps. -/
theorem mulU16_eight_toNat {b : Build} {n frameLen : UInt16} (h : b.mulU16 n 8 = .ok frameLen) :
    frameLen.toNat = 8 * n.toNat % 65536 := by
  have hmod : frameLen = n * 8 := by
    cases b with
    | dev =>
        simp only [Build.mulU16] at h
        split at h <;> cases h
        rfl
    | release =>
        cases h
        rfl
  have hmul : (n * 8).toNat = n.toNat * 8 % 65536 := UInt16.toNat_mul n 8
  rw [hmod, hmul, Nat.mul_comm]

/-- A frame length is a multiple of eight, also when the product wraps. -/
theorem eight_dvd_of_mulU16 {b : Build} {n frameLen : UInt16} (h : b.mulU16 n 8 = .ok frameLen) :
    8 ∣ frameLen.toNat := by
  rw [mulU16_eight_toNat h]
  omega

theorem cutFrame_append_eq (b : Build) {bs : Bytes} (more : Bytes) (h : 8 ≤ bs.length) :
    cutFrame b (bs ++ more) = (do
      let frameLen ← b.mulU16 (lenField bs) 8
      cutAt b frameLen (bs ++ more)) := by
  unfold cutFrame
  rw [if_neg (by rw [List.length_append]; omega), lenField_append (by omega)]

theorem cutFrame_eq (b : Build) {bs : Bytes} (h : 8 ≤ bs.length) :
    cutFrame b bs = (do
      let frameLen ← b.mulU16 (lenField bs) 8
      cutAt b frameLen bs) := if_neg (by omega)

/-- Once a frame is complete, or refused, bytes that arrive later do not change what is cut. -/
theorem cutFrame_append {b : Build} {bs : Bytes} (more : Bytes) (h : cutFrame b bs ≠ .ok none) :
    cutFrame b (bs ++ more) =
      (cutFrame b bs).map (Option.map fun cut => (cut.1, cut.2 ++ more)) := by
  have hlen : 8 ≤ bs.length := by
    by_contra hlt
    exact h (if_pos (by omega))
  rw [cutFrame_eq b hlen] at h
  rw [cutFrame_append_eq b more hlen, cutFrame_eq b hlen]
  cases hmul : b.mulU16 (lenField bs) 8 with
  | error f => rfl
  | ok frameLen =>
      rw [hmul, ok_bind] at h
      rw [ok_bind, ok_bind]
      unfold cutAt at h ⊢
      by_cases hshort : bs.length < frameLen.toNat
      · exact absurd (if_pos hshort) h
      · rw [if_neg hshort, if_neg (by rw [List.length_append]; omega)]
        split
        · cases b <;> rfl
        · rw [List.take_append_of_le_length (Nat.le_of_not_lt hshort),
            List.drop_append_of_le_length (Nat.le_of_not_lt hshort)]
          rfl

/-- The result of a cut in the terms of `claimDst`. -/
def Cut.claimed (frame : Option (Data QusbFrame)) : Except ReadError (Data QusbFrame) :=
  frame.elim (.error .corruptedData) .ok

theorem new_empty : (Data.new [] : Except ReadError (Data QusbFrame)) = .error .corruptedData := rfl

theorem claimed_new (buf : Bytes) :
    Cut.claimed (Data.new buf : Except ReadError (Data QusbFrame)).toOption = Data.new buf := by
  unfold Data.new
  split <;> rfl

theorem Ring.claimDst_of_error {b : Build} {ring : Ring} {f : Fault}
    (h : QusbFrame.getSliceLen b ring.buf = .error f) : ring.claimDst QusbFrame b = .error f := by
  unfold Ring.claimDst
  rw [show GetSliceLen.getSliceLen QusbFrame b ring.buf = .error f from h]

theorem Ring.claimDst_of_err {b : Build} {ring : Ring} {err : GetSliceLenErr}
    (h : QusbFrame.getSliceLen b ring.buf = .ok (.error err)) :
    ring.claimDst QusbFrame b = .ok (.error (.ofGetSliceLenErr err), ring) := by
  unfold Ring.claimDst
  rw [show GetSliceLen.getSliceLen QusbFrame b ring.buf = .ok (.error err) from h]

/-- Once the length is known, the frame with its header is split off. -/
theorem Ring.claimDst_of_sliceLen {b : Build} {ring : Ring} {sliceLen : Nat}
    (h : QusbFrame.getSliceLen b ring.buf = .ok (.ok sliceLen)) :
    ring.claimDst QusbFrame b = b.mulUsize sliceLen 1 >>= fun dataByteLen =>
      b.addUsize 8 dataByteLen >>= fun size =>
        ring.splitTo size >>= fun p => .ok (Data.new p.1, p.2) := by
  unfold Ring.claimDst
  rw [show GetSliceLen.getSliceLen QusbFrame b ring.buf = .ok (.ok sliceLen) from h]
  rfl

/-- A ring that holds a header is cut as its bytes say; a ring that is too short names the length from
which on its frame can be cut. -/
theorem Ring.claimDst_spec (b : Build) (ring : Ring) (hlen : 8 ≤ ring.buf.length) :
    match cutFrame b ring.buf with
    | .error f => ring.claimDst QusbFrame b = .error f
    | .ok none => ∃ n, ring.claimDst QusbFrame b = .ok (.error (.bufferShort n), ring) ∧
        ∀ more, (ring.buf ++ more).length < ring.len + n → cutFrame b (ring.buf ++ more) = .ok none
    | .ok (some (frame, rest)) => ∃ ring', ring'.buf = rest ∧
        ring.claimDst QusbFrame b = .ok (Cut.claimed frame, ring') := by
  have hget : QusbFrame.getSliceLen b ring.buf = b.mulU16 (lenField ring.buf) 8 >>= fun frameLen =>
      if frameLen.toNat > ring.buf.length then
        .ok (.error (.bufferShort (frameLen.toNat - ring.buf.length)))
      else (b.subUsize frameLen.toNat Header.size).map .ok := by
    unfold QusbFrame.getSliceLen
    rw [if_neg (by omega)]
    cases b.mulU16 (lenField ring.buf) 8 with
    | error f => rfl
    | ok frameLen => rfl
  rw [cutFrame_eq b hlen]
  cases hmul : b.mulU16 (lenField ring.buf) 8 with
  | error f => exact Ring.claimDst_of_error (by rw [hget, hmul]; rfl)
  | ok frameLen =>
      have hdvd := eight_dvd_of_mulU16 hmul
      have hlt := frameLen.toNat_lt
      rw [hmul, ok_bind] at hget
      rw [ok_bind]
      unfold cutAt
      by_cases hshort : ring.buf.length < frameLen.toNat
      · rw [if_pos hshort] at hget
        simp only [if_pos hshort]
        refine ⟨_, Ring.claimDst_of_err hget, fun more hmore => ?_⟩
        rw [cutFrame_append_eq b more hlen, hmul, ok_bind]
        exact if_pos (by unfold len at hmore; omega)
      · rw [if_neg hshort] at hget
        simp only [if_neg hshort]
        by_cases hzero : frameLen = 0
        · subst hzero
          cases b with
          | dev => exact Ring.claimDst_of_error hget
          | release =>
              refine ⟨⟨ring.buf, ring.capacity - 0, ring.len_le⟩, rfl, ?_⟩
              rw [Ring.claimDst_of_sliceLen hget]
              simp [Build.mulUsize, Build.addUsize, splitTo, new_empty, Cut.claimed]
        · have hpos : frameLen.toNat ≠ 0 := fun h => hzero (UInt16.toNat_inj.mp h)
          have hle : 8 ≤ frameLen.toNat := by omega
          have hmul' : b.mulUsize (frameLen.toNat - 8) 1 = .ok (frameLen.toNat - 8) := by
            rw [b.mulUsize_of_lt (by omega), Nat.mul_one]
          have hadd : b.addUsize 8 (frameLen.toNat - 8) = .ok frameLen.toNat := by
            rw [b.addUsize_of_lt (by omega), Nat.add_sub_cancel' hle]
          have hsplit : ring.splitTo frameLen.toNat = .ok (ring.buf.take frameLen.toNat,
              ⟨ring.buf.drop frameLen.toNat, ring.capacity - frameLen.toNat, by
                have hring := ring.len_le
                rw [List.length_drop]
                omega⟩) := dif_pos (Nat.le_of_not_lt hshort)
          rw [b.subUsize_of_le hle (by omega)] at hget
          simp only [if_neg hzero, claimed_new, Ring.claimDst_of_sliceLen hget, hmul', hadd, hsplit, ok_bind]
          exact ⟨_, rfl, rfl⟩

/-- What a claim says about the bytes of the ring and any that follow them. -/
theorem Ring.claimDst_cut {b : Build} {ring : Ring} (hlen : 8 ≤ ring.buf.length) (more : Bytes) :
    match ring.claimDst QusbFrame b with
    | .error f => cutFrame b (ring.buf ++ more) = .error f
    | .ok (.ok frame, ring') => cutFrame b (ring.buf ++ more) =
        .ok (some (some frame, ring'.buf ++ more))
    | .ok (.error .corruptedData, ring') => cutFrame b (ring.buf ++ more) =
        .ok (some (none, ring'.buf ++ more))
    | .ok (.error (.bufferShort n), ring') => ring' = ring ∧
        ∀ more, (ring.buf ++ more).length < ring.len + n →
          cutFrame b (ring.buf ++ more) = .ok none := by
  have hspec := ring.claimDst_spec b hlen
  have happ : cutFrame b ring.buf ≠ .ok none → _ := cutFrame_append more
  cases hcut : cutFrame b ring.buf with
  | error f =>
      rw [hcut] at hspec happ
      rw [hspec]
      exact happ (by simp)
  | ok cut =>
      rw [hcut] at hspec happ
      cases cut with
      | none =>
          obtain ⟨n, hclaim, hmore⟩ := hspec
          rw [hclaim]
          exact ⟨rfl, hmore⟩
      | some p =>
          obtain ⟨frame, rest⟩ := p
          obtain ⟨ring', rfl, hclaim⟩ := hspec
          rw [hclaim]
          cases frame with
          | none => exact happ (by simp)
          | some d => exact happ (by simp)

/-! ### Receiving -/

theorem recvFrame_size {a : Alloc} {b : Build} {ring ring₁ ring₂ : Ring} {rx rx₁ : Reader}
    {minLen n : Nat} (hfill : ring.fillUntil a rx minLen = (.ok (some ()), ring₁, rx₁))
    (hclaim : ring₁.claimDst QusbFrame b = .ok (.error (.bufferShort n), ring₂)) :
    rx₁.size < rx.size ∨
      rx₁.size = rx.size ∧
        (if ring₂.len + n ≤ ring₂.len then 1 else 0) < if minLen ≤ ring.len then 1 else 0 := by
  have hn := Ring.claimDst_short hclaim
  rcases Ring.fillUntil_size hfill with hless | ⟨hle, -, rfl⟩
  · exact Or.inl hless
  · rw [if_pos hle, if_neg (by omega)]
    exact Or.inr ⟨rfl, Nat.zero_lt_one⟩

/-- The loop of `recvFrame`, entered with `minLen` bytes wanted. -/
def recvFrameLoop (a : Alloc) (b : Build) (ring : Ring) (rx : Reader) (minLen : Nat) :
    Except Fault (Received × Ring × Reader) :=
  match _hfill : ring.fillUntil a rx minLen with
  | (.error e, ring, rx) => .ok (.error (some (.io e)), ring, rx)
  | (.ok none, ring, rx) => .ok (.error none, ring, rx)
  | (.ok (some ()), ring₁, rx) =>
      match _hclaim : ring₁.claimDst QusbFrame b with
      | .error f => .error f
      | .ok (.ok frame, ring) => .ok (.ok frame, ring, rx)
      | .ok (.error .corruptedData, ring) => .ok (.error (some .corruptedData), ring, rx)
      | .ok (.error (.bufferShort n), ring) => recvFrameLoop a b ring rx (ring.len + n)
termination_by (rx.size, if minLen ≤ ring.len then 1 else 0)
decreasing_by
  simp only [Prod.lex_def]
  exact recvFrame_size _hfill _hclaim

/-- Receive bytes until the next frame can be cut off. -/
def recvFrame (a : Alloc) (b : Build) (ring : Ring) (rx : Reader) :
    Except Fault (Received × Ring × Reader) := recvFrameLoop a b ring rx Header.size

/-- The result of a cut in the terms of `recvFrame`. -/
def Cut.received (frame : Option (Data QusbFrame)) : Received :=
  frame.elim (.error (some .corruptedData)) .ok

/-- The call returned `out` and left `rest` to be received, with the I/O errors `errors` to come. -/
def Returns (call : Except Fault (Received × Ring × Reader)) (out : Received) (rest : Bytes)
    (errors : List IoError) : Prop :=
  ∃ ring rx, call = .ok (out, ring, rx) ∧ ring.buf ++ rx.bytes = rest ∧ rx.errors = errors

/-- What a call does with the bytes that are buffered or still to be delivered: it is stopped by the
next I/O error, which takes none of them, or it cuts a frame off them, or they do not hold a frame. -/
def RecvSpec (b : Build) (bs : Bytes) (errors : List IoError)
    (call : Except Fault (Received × Ring × Reader)) : Prop :=
  (∃ e errors', errors = e :: errors' ∧ Returns call (.error (some (.io e))) bs errors') ∨
    match cutFrame b bs with
    | .error f => call = .error f
    | .ok none => Returns call (.error none) bs errors
    | .ok (some (frame, rest)) => Returns call (Cut.received frame) rest errors

theorem recvFrameLoop_spec (a : Alloc) (b : Build) (ring : Ring) (rx : Reader) (minLen : Nat)
    (hmin : 8 ≤ minLen)
    (hshort : ∀ more, (ring.buf ++ more).length < minLen → cutFrame b (ring.buf ++ more) = .ok none) :
    RecvSpec b (ring.buf ++ rx.bytes) rx.errors (recvFrameLoop a b ring rx minLen) := by
  fun_induction recvFrameLoop a b ring rx minLen with
  | case1 ring rx minLen e ring' rx' hfill =>
      obtain ⟨hall, herrors⟩ := Ring.fillUntil_error hfill
      exact Or.inl ⟨e, rx'.errors, herrors, ring', rx', rfl, hall, rfl⟩
  | case2 ring rx minLen ring' rx' hfill =>
      obtain ⟨hall, hlt, hnil, herrors⟩ := Ring.fillUntil_none hfill
      have hcut := hshort rx.bytes (by
        rw [← hall, hnil, List.append_nil]
        exact hlt)
      refine Or.inr ?_
      rw [hcut]
      exact ⟨ring', rx', rfl, hall, herrors⟩
  | case3 ring rx minLen ring₁ rx₁ hfill f hclaim =>
      obtain ⟨hall, hle, herrors⟩ := Ring.fillUntil_some hfill
      have hcut := Ring.claimDst_cut (b := b) (hmin.trans hle) rx₁.bytes
      rw [hclaim, hall] at hcut
      refine Or.inr ?_
      rw [hcut]
  | case4 ring rx minLen ring₁ rx₁ hfill frame ring' hclaim =>
      obtain ⟨hall, hle, herrors⟩ := Ring.fillUntil_some hfill
      have hcut := Ring.claimDst_cut (b := b) (hmin.trans hle) rx₁.bytes
      rw [hclaim, hall] at hcut
      refine Or.inr ?_
      rw [hcut]
      exact ⟨ring', rx₁, rfl, rfl, herrors⟩
  | case5 ring rx minLen ring₁ rx₁ hfill ring' hclaim =>
      obtain ⟨hall, hle, herrors⟩ := Ring.fillUntil_some hfill
      have hcut := Ring.claimDst_cut (b := b) (hmin.trans hle) rx₁.bytes
      rw [hclaim, hall] at hcut
      refine Or.inr ?_
      rw [hcut]
      exact ⟨ring', rx₁, rfl, rfl, herrors⟩
  | case6 ring rx minLen ring₁ rx₁ hfill n ring' hclaim ih =>
      obtain ⟨hall, hle, herrors⟩ := Ring.fillUntil_some hfill
      have hcut := Ring.claimDst_cut (b := b) (hmin.trans hle) rx₁.bytes
      rw [hclaim] at hcut
      obtain ⟨rfl, hmore⟩ := hcut
      rw [← hall, ← herrors]
      exact ih (Nat.le_add_right_of_le (hmin.trans hle)) hmore

/-- **What a call receives** does not depend on how the bytes are delivered. -/
theorem recvFrame_spec (a : Alloc) (b : Build) (ring : Ring) (rx : Reader) :
    RecvSpec b (ring.buf ++ rx.bytes) rx.errors (recvFrame a b ring rx) :=
  recvFrameLoop_spec a b ring rx 8 le_rfl fun _ hlt => if_pos hlt

/-- A frame that is received was cut off the front of the bytes. -/
theorem recvFrame_ok_cut {a : Alloc} {b : Build} {ring ring' : Ring} {rx rx' : Reader}
    {d : Data QusbFrame} (h : recvFrame a b ring rx = .ok (.ok d, ring', rx')) :
    cutFrame b (ring.buf ++ rx.bytes) = .ok (some (some d, ring'.buf ++ rx'.bytes)) := by
  have hspec := recvFrame_spec a b ring rx
  rw [h] at hspec
  rcases hspec with ⟨e, errors, -, ring₁, rx₁, hcall, -⟩ | hcut
  · cases hcall
  · cases hc : cutFrame b (ring.buf ++ rx.bytes) with
    | error f =>
        rw [hc] at hcut
        cases hcut
    | ok cut =>
        rw [hc] at hcut
        cases cut with
        | none =>
            obtain ⟨ring₁, rx₁, hcall, -⟩ := hcut
            cases hcall
        | some p =>
            obtain ⟨ring₁, rx₁, hcall, hrest, -⟩ := hcut
            obtain ⟨frame, rest⟩ := p
            cases frame with
            | none => cases hcall
            | some d' =>
                cases hcall
                exact congrArg (fun rest => Except.ok (some (some d, rest))) hrest.symm

/-! ### Parsing -/

inductive Frame where
  | urb (urb : Seq (Data UrbFrame))
  | portReset (seqnum : Seqnum)
  | unlink (seqnum : Seqnum)

/-- The dispatch of a reply on its status; five statuses have no implementation. -/
def replyStatus (status : Status) (success : Except AbortableError Frame) :
    Except Fault (Except AbortableError Frame) :=
  match status with
  | .success => .ok success
  | .failed => .error .unimplemented
  | .devBusy => .error .unimplemented
  | .devErr => .ok (.error .proto)
  | .noDev => .ok (.error .deviceDisconnected)
  | .unexpected => .error .unimplemented
  | .versionMismatch => .error .unimplemented
  | .timeout => .error .unimplemented
  | .proto => .ok (.error .oops)

/-- A frame with a URB as its payload. -/
def urbOf (frame : Data QusbFrame) : Except AbortableError Frame :=
  match frame.splitData UrbFrame with
  | some data => .ok (.urb ⟨frame.get.header.seqnum, data⟩)
  | none => .error .invalidData

def parseFrame (frame : Data QusbFrame) : Except Fault (Except AbortableError Frame) :=
  let header := frame.get.header
  match header.command with
  | .retSubmit => replyStatus header.status (urbOf frame)
  | .cmdSubmit => .ok (urbOf frame)
  | .cmdUnlink => .ok (.ok (.unlink header.seqnum))
  | .cmdPort => .ok (.ok (.portReset header.seqnum))
  | .retPort => replyStatus header.status (.ok (.portReset header.seqnum))

def onReceived {β : Type} (handle : Data QusbFrame → Except Fault β) :
    Received → Except Fault (Except (Option RecvError) β)
  | .ok frame => (handle frame).map .ok
  | .error err => .ok (.error err)

/-- Call `recvFrame` the given number of times, also after an error, and handle each frame. -/
def recvEach {β : Type} (handle : Data QusbFrame → Except Fault β) (a : Alloc) (b : Build) :
    Nat → Ring → Reader → Except Fault (List (Except (Option RecvError) β))
  | 0, _, _ => .ok []
  | n + 1, ring, rx =>
      match recvFrame a b ring rx with
      | .error f => .error f
      | .ok (received, ring, rx) => do
          let out ← onReceived handle received
          let outs ← recvEach handle a b n ring rx
          return out :: outs

/-- A run of calls goes through exactly when the first call does, its frame is handled and the rest of
the run goes through. -/
theorem recvEach_succ_eq_ok_iff {β : Type} {handle : Data QusbFrame → Except Fault β} {a : Alloc}
    {b : Build} {n : Nat} {ring : Ring} {rx : Reader} {all : List (Except (Option RecvError) β)} :
    recvEach handle a b (n + 1) ring rx = .ok all ↔
      ∃ received ring' rx' out outs, recvFrame a b ring rx = .ok (received, ring', rx') ∧
        onReceived handle received = .ok out ∧ recvEach handle a b n ring' rx' = .ok outs ∧
        all = out :: outs := by
  rw [recvEach]
  constructor
  · intro h
    split at h
    · cases h
    · next received ring' rx' hrecv =>
        obtain ⟨out, hout, h⟩ := bind_eq_ok_iff.mp h
        obtain ⟨outs, houts, h⟩ := bind_eq_ok_iff.mp h
        exact ⟨received, ring', rx', out, outs, hrecv, hout, houts, (Except.ok.inj h).symm⟩
  · rintro ⟨received, ring', rx', out, outs, hrecv, hout, houts, rfl⟩
    simp only [hrecv, hout, houts, ok_bind]
    rfl

/-! ### Bytes that are frames -/

/-- Bytes that read as a frame are its header followed by its data. -/
theorem tryRef_frame {bs : Bytes} {v : QusbFrame} (h : tryRefFromBytes QusbFrame bs = some v) :
    bs = v.header.asBytes ++ v.data := by
  obtain ⟨header, hdec, rfl⟩ := Option.map_eq_some_iff.mp h
  exact Header.layout.eq_append_of_decode hdec

theorem tryRef_header (header : Header) (data : Bytes) :
    tryRefFromBytes QusbFrame (header.asBytes ++ data) = some ⟨header, data⟩ := by
  show (Header.layout.decode (Header.layout.encode header ++ data)).map _ = _
  rw [Header.layout.decode_encode, Option.map_some]
  exact congrArg (fun rest => some (QusbFrame.mk header rest)) (Header.layout.drop_encode_append _ _)

theorem tryRef_urb (urb : UrbHeader) (payload : Bytes) :
    tryRefFromBytes UrbFrame (urb.asBytes ++ payload) = some ⟨urb, payload⟩ := by
  show (UrbHeader.layout.decode (UrbHeader.layout.encode urb ++ payload)).map _ = _
  rw [UrbHeader.layout.decode_encode, Option.map_some]
  exact congrArg (fun rest => some (UrbFrame.mk urb rest)) (UrbHeader.layout.drop_encode_append _ _)

/-- A frame that was written as a header, a URB header and a payload is read as these. -/
theorem urbOf_of_buf {d : Data QusbFrame} {header : Header} {urb : UrbHeader} {payload : Bytes}
    (hbuf : d.buf = header.asBytes ++ (urb.asBytes ++ payload)) :
    d.get.header = header ∧ ∃ data : Data UrbFrame, urbOf d = .ok (.urb ⟨header.seqnum, data⟩) ∧
      data.get.header = urb ∧ data.buf = urb.asBytes ++ payload := by
  have hget : d.get = ⟨header, urb.asBytes ++ payload⟩ :=
    Data.get_of_tryRef (by rw [hbuf]; exact tryRef_header header _)
  obtain ⟨data, hnew, hdata, hurb⟩ := Data.new_of_tryRef (tryRef_urb urb payload)
  have hdrop : d.buf.drop Header.size = urb.asBytes ++ payload := by
    rw [hbuf]
    exact List.drop_left' (Header.asBytes_length _)
  have hsplit : d.splitData UrbFrame = some data := by
    show (Data.new (d.buf.drop Header.size)).toOption = some data
    rw [hdrop, hnew]
    rfl
  refine ⟨by rw [hget], data, ?_, by rw [hurb], hdata⟩
  simp only [urbOf, hget, hsplit]

/-- Owned frame bytes are the header that `get` reads followed by its data. -/
theorem Data.frame_buf (d : Data QusbFrame) : d.buf = d.get.header.asBytes ++ d.get.data :=
  tryRef_frame (Option.some_get d.valid).symm

/-- Owned bytes of a URB frame are the URB header that `get` reads followed by its payload. -/
theorem Data.urb_buf (d : Data UrbFrame) : d.buf = d.get.header.asBytes ++ d.get.data := by
  obtain ⟨header, hdec, hget⟩ := Option.map_eq_some_iff.mp (Option.some_get d.valid).symm
  have hbuf : d.buf = header.asBytes ++ d.buf.drop UrbHeader.size := UrbHeader.layout.eq_append_of_decode hdec
  rw [show d.get = ⟨header, d.buf.drop UrbHeader.size⟩ from hget.symm]
  exact hbuf

/-- Every frame is one that some bytes are parsed as. -/
theorem parseFrame_onto (frame : Frame) : ∃ d : Data QusbFrame, parseFrame d = .ok (.ok frame) := by
  have hmake : ∀ header data, ∃ d : Data QusbFrame,
      d.buf = header.asBytes ++ data ∧ d.get = ⟨header, data⟩ := by
    intro header data
    obtain ⟨d, -, hbuf, hget⟩ := Data.new_of_tryRef (tryRef_header header data)
    exact ⟨d, hbuf, hget⟩
  cases frame with
  | urb seq =>
      obtain ⟨d, hbuf, hget⟩ := hmake ⟨0, .cmdSubmit, .success, seq.seqnum⟩ seq.data.buf
      have hdrop : d.buf.drop Header.size = seq.data.buf := by
        rw [hbuf]
        exact List.drop_left' (Header.asBytes_length _)
      have hsplit : d.splitData UrbFrame = some seq.data := by
        have hnew : (Data.new seq.data.buf : Except ReadError (Data UrbFrame)) = .ok seq.data :=
          Data.new_of_isSome seq.data.valid
        show (Data.new (d.buf.drop Header.size)).toOption = some seq.data
        rw [hdrop, hnew]
        rfl
      refine ⟨d, ?_⟩
      simp only [parseFrame, urbOf, hget, hsplit]
  | portReset seqnum =>
      obtain ⟨d, -, hget⟩ := hmake ⟨0, .cmdPort, .success, seqnum⟩ []
      exact ⟨d, by simp only [parseFrame, hget]⟩
  | unlink seqnum =>
      obtain ⟨d, -, hget⟩ := hmake ⟨0, .cmdUnlink, .success, seqnum⟩ []
      exact ⟨d, by simp only [parseFrame, hget]⟩

theorem lenField_header (header : Header) (data : Bytes) :
    lenField (header.asBytes ++ data) = header.totalFrameLen := by
  have htake : (header.asBytes ++ data).take 2 = leBytes 2 header.totalFrameLen.toNat := by
    rw [header.asBytes_eq, List.append_assoc]
    exact List.take_left' (leBytes_length 2 _)
  have hlt := header.totalFrameLen.toNat_lt
  rw [lenField, htake, leNat_leBytes]
  apply UInt16.toNat_inj.mp
  rw [UInt16.toNat_ofNat']
  omega

/-- The product of a length field below 8192 does not wrap. -/
theorem mulU16_of_fits (b : Build) {n : UInt16} (hfits : n.toNat < 8192) :
    b.mulU16 n 8 = .ok (n * 8) ∧ (n * 8).toNat = 8 * n.toNat := by
  constructor
  · cases b with
    | dev =>
        have hbound : n.toNat * (8 : UInt16).toNat < 2 ^ 16 := by
          show n.toNat * 8 < 2 ^ 16
          omega
        exact if_pos hbound
    | release => rfl
  · have hmul : (n * 8).toNat = n.toNat * 8 % 2 ^ 16 := UInt16.toNat_mul _ 8
    omega

/-- A length field that is not zero and whose product with eight fits is the length of the frame. -/
theorem cutFrame_of_fits (b : Build) {bs : Bytes} (hlen : 8 ≤ bs.length)
    (hpos : lenField bs ≠ 0) (hfits : (lenField bs).toNat < 8192) :
    cutFrame b bs = .ok (if bs.length < 8 * (lenField bs).toNat then none
      else some ((Data.new (bs.take (8 * (lenField bs).toNat))).toOption,
        bs.drop (8 * (lenField bs).toNat))) := by
  obtain ⟨hmul, hprod⟩ := mulU16_of_fits b hfits
  have hpos' : (lenField bs).toNat ≠ 0 := fun h => hpos (UInt16.toNat_inj.mp h)
  have hne : lenField bs * 8 ≠ 0 := by
    intro h
    rw [h] at hprod
    have hzero : (0 : UInt16).toNat = 0 := rfl
    omega
  rw [cutFrame_eq b hlen, hmul, ok_bind]
  unfold cutAt
  rw [hprod, if_neg hne]
  split <;> rfl

/-- A frame that is cut off is shorter than 65536 bytes. -/
theorem cutFrame_lt {b : Build} {bs rest : Bytes} {d : Data QusbFrame}
    (h : cutFrame b bs = .ok (some (some d, rest))) : d.buf.length < 65536 := by
  unfold cutFrame at h
  split at h
  · cases h
  · obtain ⟨frameLen, -, h⟩ := bind_eq_ok_iff.mp h
    unfold cutAt at h
    split at h
    · cases h
    · split at h
      · cases b <;> cases h
      · simp only [Except.ok.injEq, Option.some.injEq, Prod.mk.injEq] at h
        have hbuf := Data.buf_of_toOption h.1
        have hlt := frameLen.toNat_lt
        rw [hbuf, List.length_take]
        omega

end Qusb.Proto

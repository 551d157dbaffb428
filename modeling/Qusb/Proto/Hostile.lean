import Qusb.Proto.Recv

/-! Bytes from a peer that does not follow the protocol.

`Tame` says of a byte string what the receiving side silently relies on: every length field that is
reached is between 1 and 8191, and no complete frame is a reply with one of the five statuses that
`parseFrame` does not implement. With overflow checks on, any number of calls of `recvFrame`, each frame
then parsed, goes through exactly on the tame strings. -/

open ByteCodec

namespace Qusb.Proto

open Qusb.Msg

/-- A reply whose status `parseFrame` has no implementation for. -/
def unsupported (header : Header) : Bool :=
  (header.command == .retSubmit || header.command == .retPort) &&
    (header.status == .failed || header.status == .devBusy || header.status == .unexpected ||
      header.status == .versionMismatch || header.status == .timeout)

inductive Tame : Bytes → Prop
  /-- Too few bytes for a header. -/
  | headerless {bs : Bytes} (hlen : bs.length < 8) : Tame bs
  /-- The frame is not complete. -/
  | waiting {bs : Bytes} (hlen : 8 ≤ bs.length) (hpos : lenField bs ≠ 0)
      (hfits : (lenField bs).toNat < 8192) (hshort : bs.length < 8 * (lenField bs).toNat) : Tame bs
  /-- The frame is complete, whether or not its bytes make sense. -/
  | frame {bs : Bytes} (hlen : 8 ≤ bs.length) (hpos : lenField bs ≠ 0)
      (hfits : (lenField bs).toNat < 8192)
      (hparse : ∀ header, Header.layout.decode bs = some header → unsupported header = false)
      (hrest : Tame (bs.drop (8 * (lenField bs).toNat))) : Tame bs

theorem replyStatus_ok_iff (status : Status) (success : Except AbortableError Frame) :
    (∃ r, replyStatus status success = .ok r) ↔
      (status == .failed || status == .devBusy || status == .unexpected ||
        status == .versionMismatch || status == .timeout) = false := by
  cases status <;> simp [replyStatus]

theorem parseFrame_ok_iff (d : Data QusbFrame) :
    (∃ r, parseFrame d = .ok r) ↔ unsupported d.get.header = false := by
  unfold parseFrame unsupported
  cases hcmd : d.get.header.command with
  | retSubmit => simpa [hcmd] using replyStatus_ok_iff d.get.header.status (urbOf d)
  | retPort =>
      simpa [hcmd] using replyStatus_ok_iff d.get.header.status (.ok (.portReset d.get.header.seqnum))
  | cmdSubmit => simp [hcmd]
  | cmdUnlink => simp [hcmd]
  | cmdPort => simp [hcmd]

/-- With overflow checks on, a complete header whose length field does not fit faults. -/
theorem cutFrame_dev_fits {bs : Bytes} {cut : Option (Option (Data QusbFrame) × Bytes)}
    (hlen : 8 ≤ bs.length) (h : cutFrame .dev bs = .ok cut) :
    lenField bs ≠ 0 ∧ (lenField bs).toNat < 8192 := by
  rw [cutFrame_eq .dev hlen] at h
  obtain ⟨frameLen, hmul, hcut⟩ := bind_eq_ok_iff.mp h
  simp only [Build.mulU16] at hmul
  split at hmul
  · next hfits =>
      cases hmul
      have hfits : (lenField bs).toNat * 8 < 2 ^ 16 := hfits
      refine ⟨?_, by omega⟩
      intro hzero
      rw [hzero] at hcut
      cases hcut
  · cases hmul

/-- A length field that is not zero counts at least the header. -/
theorem header_le_lenField {bs : Bytes} (hpos : lenField bs ≠ 0) : 8 ≤ 8 * (lenField bs).toNat := by
  have hne : (lenField bs).toNat ≠ 0 := fun hzero => hpos (UInt16.toNat_inj.mp hzero)
  omega

/-- A frame cut off the front is read from the first bytes. -/
theorem decode_of_cut {bs : Bytes} {n : Nat} {d : Data QusbFrame} (hn : 8 ≤ n) (hlen : 8 ≤ bs.length)
    (h : (Data.new (bs.take n)).toOption = some d) : Header.layout.decode bs = some d.get.header := by
  have hbuf := Data.buf_of_toOption h
  rw [Data.frame_buf] at hbuf
  have hdec : Header.layout.decode (bs.take n) = some d.get.header := by
    rw [← hbuf]
    exact Header.layout.decode_encode _ _
  rw [← hdec]
  exact (Header.layout.decode_take hn hlen).symm

theorem cut_of_decode {bs : Bytes} {n : Nat} {header : Header} (hn : 8 ≤ n) (hlen : 8 ≤ bs.length)
    (h : Header.layout.decode bs = some header) :
    ∃ d : Data QusbFrame, (Data.new (bs.take n)).toOption = some d ∧ d.get.header = header := by
  have htry : tryRefFromBytes QusbFrame (bs.take n) =
      some ⟨header, (bs.take n).drop Header.size⟩ := by
    show (Header.layout.decode (bs.take n)).map _ = _
    rw [Header.layout.decode_take hn hlen, h, Option.map_some]
  obtain ⟨d, hnew, -, hget⟩ := Data.new_of_tryRef htry
  exact ⟨d, by rw [hnew]; rfl, by rw [hget]⟩

theorem parse_of_onReceived {d : Data QusbFrame}
    {out : Except (Option RecvError) (Except AbortableError Frame)}
    (h : onReceived parseFrame (Cut.received (some d)) = .ok out) : ∃ r, parseFrame d = .ok r := by
  have h : (parseFrame d).map Except.ok = .ok out := h
  cases hp : parseFrame d with
  | error f =>
      rw [hp] at h
      cases h
  | ok r => exact ⟨r, rfl⟩

theorem onReceived_received {frame : Option (Data QusbFrame)}
    (h : ∀ d, frame = some d → unsupported d.get.header = false) :
    ∃ out, onReceived parseFrame (Cut.received frame) = .ok out := by
  cases frame with
  | none => exact ⟨_, rfl⟩
  | some d =>
      obtain ⟨r, hr⟩ := (parseFrame_ok_iff d).mpr (h d rfl)
      refine ⟨.ok r, ?_⟩
      show (parseFrame d).map Except.ok = _
      rw [hr]
      rfl

/-- One call on tame bytes does not fault, parses its frame and leaves tame bytes. -/
theorem Tame.step (a : Alloc) {ring : Ring} {rx : Reader} (h : Tame (ring.buf ++ rx.bytes)) :
    ∃ received ring' rx' out, recvFrame a .dev ring rx = .ok (received, ring', rx') ∧
      onReceived parseFrame received = .ok out ∧ Tame (ring'.buf ++ rx'.bytes) := by
  have hspec := recvFrame_spec a .dev ring rx
  rcases hspec with ⟨e, errors, -, ring', rx', hcall, hbytes, -⟩ | hcut
  · exact ⟨_, ring', rx', _, hcall, rfl, hbytes ▸ h⟩
  · cases h with
    | headerless hlen =>
        rw [cutFrame, if_pos hlen] at hcut
        obtain ⟨ring', rx', hcall, hbytes, -⟩ := hcut
        exact ⟨_, ring', rx', _, hcall, rfl, hbytes ▸ .headerless hlen⟩
    | waiting hlen hpos hfits hshort =>
        rw [cutFrame_of_fits .dev hlen hpos hfits, if_pos hshort] at hcut
        obtain ⟨ring', rx', hcall, hbytes, -⟩ := hcut
        exact ⟨_, ring', rx', _, hcall, rfl, hbytes ▸ .waiting hlen hpos hfits hshort⟩
    | frame hlen hpos hfits hparse hrest =>
        rw [cutFrame_of_fits .dev hlen hpos hfits] at hcut
        by_cases hshort : (ring.buf ++ rx.bytes).length < 8 * (lenField (ring.buf ++ rx.bytes)).toNat
        · rw [if_pos hshort] at hcut
          obtain ⟨ring', rx', hcall, hbytes, -⟩ := hcut
          exact ⟨_, ring', rx', _, hcall, rfl, hbytes ▸ .waiting hlen hpos hfits hshort⟩
        · rw [if_neg hshort] at hcut
          obtain ⟨ring', rx', hcall, hbytes, -⟩ := hcut
          obtain ⟨out, hout⟩ := onReceived_received fun d hd =>
            hparse _ (decode_of_cut (header_le_lenField hpos) hlen hd)
          exact ⟨_, ring', rx', out, hcall, hout, hbytes ▸ hrest⟩

theorem Tame.recvEach (a : Alloc) {ring : Ring} {rx : Reader} (h : Tame (ring.buf ++ rx.bytes))
    (n : Nat) : ∃ outs, recvEach parseFrame a .dev n ring rx = .ok outs := by
  induction n generalizing ring rx with
  | zero => exact ⟨[], rfl⟩
  | succ n ih =>
      obtain ⟨received, ring', rx', out, hcall, hout, htame⟩ := h.step a
      obtain ⟨outs, houts⟩ := ih htame
      exact ⟨out :: outs, recvEach_succ_eq_ok_iff.mpr
        ⟨received, ring', rx', out, outs, hcall, hout, houts, rfl⟩⟩

/-- The calls after the first one. -/
theorem recvEach_after {a : Alloc} {ring ring' : Ring} {rx rx' : Reader} {received : Received} {n : Nat}
    (h : ∃ outs, recvEach parseFrame a .dev (n + 1) ring rx = .ok outs)
    (hcall : recvFrame a .dev ring rx = .ok (received, ring', rx')) :
    (∃ out, onReceived parseFrame received = .ok out) ∧
      ∃ outs, recvEach parseFrame a .dev n ring' rx' = .ok outs := by
  obtain ⟨all, hall⟩ := h
  obtain ⟨received₁, ring₁, rx₁, out, outs, hcall₁, hout, houts, -⟩ :=
    recvEach_succ_eq_ok_iff.mp hall
  obtain ⟨rfl, rfl, rfl⟩ : received = received₁ ∧ ring' = ring₁ ∧ rx' = rx₁ := by
    simpa using hcall.symm.trans hcall₁
  exact ⟨⟨out, hout⟩, outs, houts⟩

/-- Bytes on which every number of calls goes through are tame: each call removes an I/O error or a
frame, so the induction is on how many of them are left. -/
theorem tame_of_recvEach (a : Alloc) (ring : Ring) (rx : Reader)
    (h : ∀ n, ∃ outs, recvEach parseFrame a .dev n ring rx = .ok outs) :
    Tame (ring.buf ++ rx.bytes) := by
  generalize hsize : rx.errors.length + (ring.buf ++ rx.bytes).length = size
  induction size using Nat.strongRecOn generalizing ring rx with
  | ind size ih =>
      have hnext : ∀ received ring' rx', recvFrame a .dev ring rx = .ok (received, ring', rx') →
          rx'.errors.length + (ring'.buf ++ rx'.bytes).length < size → Tame (ring'.buf ++ rx'.bytes) :=
        fun received ring' rx' hcall hlt =>
          ih _ hlt ring' rx' (fun n => (recvEach_after (h (n + 1)) hcall).2) rfl
      rcases recvFrame_spec a .dev ring rx with ⟨e, errors, herrors, ring', rx', hcall, hbytes, hrx⟩ | hcut
      · rw [← hbytes]
        refine hnext _ ring' rx' hcall ?_
        rw [hbytes, hrx, ← hsize, herrors, List.length_cons]
        omega
      · by_cases hlen : (ring.buf ++ rx.bytes).length < 8
        · exact .headerless hlen
        · have hlen : 8 ≤ (ring.buf ++ rx.bytes).length := by omega
          cases hcf : cutFrame .dev (ring.buf ++ rx.bytes) with
          | error f =>
              rw [hcf] at hcut
              obtain ⟨all, hall⟩ := h 1
              obtain ⟨_, _, _, _, _, hcall, -⟩ := recvEach_succ_eq_ok_iff.mp hall
              rw [hcut] at hcall
              cases hcall
          | ok cut =>
              obtain ⟨hpos, hfits⟩ := cutFrame_dev_fits hlen hcf
              have hheader := header_le_lenField hpos
              rw [cutFrame_of_fits .dev hlen hpos hfits] at hcut
              by_cases hshort :
                  (ring.buf ++ rx.bytes).length < 8 * (lenField (ring.buf ++ rx.bytes)).toNat
              · exact .waiting hlen hpos hfits hshort
              · rw [if_neg hshort] at hcut
                obtain ⟨ring', rx', hcall, hbytes, hrx⟩ := hcut
                obtain ⟨⟨out, hout⟩, -⟩ := recvEach_after (h 1) hcall
                have htame := hnext _ ring' rx' hcall
                refine .frame hlen hpos hfits ?_ ?_
                · intro header hdecoded
                  obtain ⟨d, hd, rfl⟩ := cut_of_decode hheader hlen hdecoded
                  rw [hd] at hout
                  exact (parseFrame_ok_iff d).mp (parse_of_onReceived hout)
                · rw [hbytes, hrx] at htame
                  refine htame ?_
                  rw [← hsize, List.length_drop]
                  omega

/-- **Hostile bytes.** With overflow checks on, whatever is buffered and however the rest arrives, any
number of calls goes through exactly when the bytes are tame. -/
theorem recvEach_parse_safe_iff (a : Alloc) (ring : Ring) (rx : Reader) :
    (∀ n, ∃ outs, recvEach parseFrame a .dev n ring rx = .ok outs) ↔
      Tame (ring.buf ++ rx.bytes) :=
  ⟨tame_of_recvEach a ring rx, fun h n => h.recvEach a n⟩

/-- Eight zero bytes: a header with a frame length of zero. -/
def zeroHeader : Chunk := ⟨List.replicate 8 0, by decide⟩

theorem not_recvEach_parse_safe :
    ¬ ∀ n, ∃ outs, recvEach parseFrame .tight .dev n (Ring.withCapacity 64)
      (Reader.ofChunks [zeroHeader]) = .ok outs := by
  intro h
  have htame := tame_of_recvEach _ _ _ h
  have hzero : lenField ((Ring.withCapacity 64).buf ++ (Reader.ofChunks [zeroHeader]).bytes) = 0 := by
    decide
  cases htame with
  | headerless hlen => exact absurd hlen (by decide)
  | waiting _ hpos => exact hpos hzero
  | frame _ hpos => exact hpos hzero

end Qusb.Proto

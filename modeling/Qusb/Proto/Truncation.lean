import Qusb.Proto.Recv

/-! The end of the stream.

`recvFrame` takes a read of no bytes for the end of the stream and reports a close, whatever it has buffered by
then. A close inside a frame is therefore told from a proper one only where the length of the frame does not
fit its sixteen bits and the wrapped length lets the header be refused first. -/

open ByteCodec

namespace Qusb.Proto

open Qusb.Msg

/-- The bytes begin a frame and do not finish it: they are fewer than a header, or fewer than the header says. -/
def InsideFrame (bs : Bytes) : Prop := bs ≠ [] ∧ (bs.length < 8 ∨ bs.length < 8 * (lenField bs).toNat)

/-- The length of a frame as sixteen bits hold it. -/
def wrappedLen (bs : Bytes) : Nat := 8 * (lenField bs).toNat % 65536

/-- Without overflow checks: the wrapped length has arrived, and is zero or begins with no header. -/
def RefusedWrapped (b : Build) (bs : Bytes) : Prop :=
  b = .release ∧ 8 ≤ bs.length ∧ wrappedLen bs ≤ bs.length ∧
    (wrappedLen bs = 0 ∨ Header.layout.decode bs = none)

/-- A close is reported only between frames, and a stream that ends inside a frame is an error. -/
structure TellsTruncation (a : Alloc) (b : Build) (ring : Ring) (rx : Reader) : Prop where
  clean : ∀ ring' rx', recvFrame a b ring rx = .ok (.error none, ring', rx') → ring'.buf = []
  truncated : rx.errors = [] → InsideFrame (ring.buf ++ rx.bytes) →
    ∃ e ring' rx', recvFrame a b ring rx = .ok (.error (some e), ring', rx')

/-! ### What is buffered at the end -/

theorem recvFrameLoop_end {a : Alloc} {b : Build} {ring ring' : Ring} {rx rx' : Reader} {minLen : Nat}
    (hmin : 8 ≤ minLen) (h : recvFrameLoop a b ring rx minLen = .ok (.error none, ring', rx')) :
    rx.errors = [] ∧ ring'.buf = ring.buf ++ rx.bytes := by
  fun_induction recvFrameLoop a b ring rx minLen with
  | case1 => cases h
  | case2 ring rx minLen ring₁ rx₁ hfill =>
      cases h
      have hdelivered := Ring.fillUntil_delivered a ring rx minLen
      rw [hfill] at hdelivered
      obtain ⟨-, hnil, hbuf⟩ := hdelivered
      rw [Reader.beforeError_of_errors_nil hnil] at hbuf
      exact ⟨hnil, hbuf⟩
  | case3 => cases h
  | case4 => cases h
  | case5 => cases h
  | case6 ring rx minLen ring₁ rx₁ hfill n ring₂ hclaim ih =>
      obtain ⟨hall, hle, herrors⟩ := Ring.fillUntil_some hfill
      have hcut := Ring.claimDst_cut (b := b) (hmin.trans hle) rx₁.bytes
      rw [hclaim] at hcut
      obtain ⟨rfl, -⟩ := hcut
      obtain ⟨hnil, hbuf⟩ := ih (Nat.le_add_right_of_le (hmin.trans hle)) h
      exact ⟨herrors.symm.trans hnil, hbuf.trans hall⟩

/-- A reported close finds the rest of the stream buffered, and no frame in it. -/
theorem recvFrame_end {a : Alloc} {b : Build} {ring ring' : Ring} {rx rx' : Reader}
    (h : recvFrame a b ring rx = .ok (.error none, ring', rx')) :
    rx.errors = [] ∧ ring'.buf = ring.buf ++ rx.bytes ∧ cutFrame b ring'.buf = .ok none := by
  obtain ⟨hnil, hbuf⟩ := recvFrameLoop_end (le_refl 8) h
  refine ⟨hnil, hbuf, ?_⟩
  rw [hbuf]
  have hspec := recvFrame_spec a b ring rx
  rw [h, hnil] at hspec
  rcases hspec with ⟨e, errors, he, -⟩ | hcut
  · cases he
  · cases hc : cutFrame b (ring.buf ++ rx.bytes) with
    | error f =>
        rw [hc] at hcut
        cases hcut
    | ok cut =>
        rw [hc] at hcut
        cases cut with
        | none => rfl
        | some p =>
            obtain ⟨ring₁, rx₁, hcall, -⟩ := hcut
            obtain ⟨frame, rest⟩ := p
            cases frame <;> cases hcall

/-- If no frame can be cut off what the stream delivers, a close is reported. -/
theorem recvFrame_of_cut_none (a : Alloc) (b : Build) (ring : Ring) {rx : Reader} (hnil : rx.errors = [])
    (hcut : cutFrame b (ring.buf ++ rx.bytes) = .ok none) :
    ∃ ring' rx', recvFrame a b ring rx = .ok (.error none, ring', rx') := by
  have hspec := recvFrame_spec a b ring rx
  unfold RecvSpec at hspec
  rw [hnil, hcut] at hspec
  rcases hspec with ⟨e, errors, he, -⟩ | ⟨ring', rx', hcall, -⟩
  · cases he
  · exact ⟨ring', rx', hcall⟩

/-- Where no I/O error comes, the error is that the front of the bytes is no frame. -/
theorem recvFrame_refused_iff (a : Alloc) (b : Build) (ring : Ring) {rx : Reader} (hnil : rx.errors = []) :
    (∃ e ring' rx', recvFrame a b ring rx = .ok (.error (some e), ring', rx')) ↔
      ∃ rest, cutFrame b (ring.buf ++ rx.bytes) = .ok (some (none, rest)) := by
  have hspec := recvFrame_spec a b ring rx
  rw [hnil] at hspec
  rcases hspec with ⟨e, errors, he, -⟩ | hcut
  · cases he
  · cases hc : cutFrame b (ring.buf ++ rx.bytes) with
    | error f =>
        rw [hc] at hcut
        have hcall : recvFrame a b ring rx = .error f := hcut
        simp [hcall]
    | ok cut =>
        rw [hc] at hcut
        cases cut with
        | none =>
            obtain ⟨ring', rx', hcall, -⟩ := hcut
            simp [hcall]
        | some p =>
            obtain ⟨ring', rx', hcall, -⟩ := hcut
            obtain ⟨frame, rest⟩ := p
            cases frame <;> simp [hcall, Cut.received]

/-! ### Where the length wraps -/

/-- With overflow checks on, a length that is found has not wrapped. -/
theorem mulU16_dev_toNat {n frameLen : UInt16} (h : Build.dev.mulU16 n 8 = .ok frameLen) :
    frameLen.toNat = 8 * n.toNat := by
  have hwrap := mulU16_eight_toNat h
  simp only [Build.mulU16] at h
  split at h
  · next hfits =>
      have hfits : n.toNat * 8 < 65536 := hfits
      omega
  · cases h

/-- Bytes that no frame can be cut off yet are none, or end inside a frame. -/
theorem insideFrame_of_cut {b : Build} {bs : Bytes} (hne : bs ≠ []) (h : cutFrame b bs = .ok none) :
    InsideFrame bs := by
  refine ⟨hne, ?_⟩
  by_cases hlen : bs.length < 8
  · exact Or.inl hlen
  · right
    rw [cutFrame_eq b (Nat.le_of_not_lt hlen)] at h
    obtain ⟨frameLen, hmul, hcut⟩ := bind_eq_ok_iff.mp h
    have hwrap := mulU16_eight_toNat hmul
    unfold cutAt at hcut
    split at hcut
    · next hshort => exact hshort.trans_le (hwrap.trans_le (Nat.mod_le _ _))
    · split at hcut
      · cases b <;> cases hcut
      · cases hcut

/-- The front of the bytes is refused exactly if its first eight bytes are no header. -/
theorem new_take_eq_none_iff {bs : Bytes} {n : Nat} (hn : 8 ≤ n) (hlen : 8 ≤ bs.length) :
    (Data.new (bs.take n) : Except ReadError (Data QusbFrame)).toOption = none ↔
      Header.layout.decode bs = none := by
  have hread : tryRefFromBytes QusbFrame (bs.take n) =
      (Header.layout.decode bs).map fun h => ⟨h, (bs.take n).drop Header.size⟩ := by
    show (Header.layout.decode (bs.take n)).map _ = _
    rw [Header.layout.decode_take hn hlen]
  unfold Data.new
  cases hdec : Header.layout.decode bs with
  | none => simp [hread, hdec, Except.toOption]
  | some header => simp [hread, hdec, Except.toOption]

/-- Inside a frame, the front is refused exactly if the wrapped length lets it be. -/
theorem cutFrame_refuses_iff {b : Build} {bs : Bytes} (h : InsideFrame bs) :
    (∃ rest, cutFrame b bs = .ok (some (none, rest))) ↔ RefusedWrapped b bs := by
  obtain ⟨-, hinside⟩ := h
  by_cases hlen : bs.length < 8
  · have hcut : cutFrame b bs = .ok none := if_pos hlen
    refine iff_of_false (by simp [hcut]) ?_
    rintro ⟨-, hle, -⟩
    omega
  have hge : 8 ≤ bs.length := Nat.le_of_not_lt hlen
  have hshort : bs.length < 8 * (lenField bs).toNat := hinside.resolve_left hlen
  rw [cutFrame_eq b hge]
  cases b with
  | dev =>
      refine iff_of_false ?_ fun hwrapped => by cases hwrapped.1
      rintro ⟨rest, hcut⟩
      obtain ⟨frameLen, hmul, hcut⟩ := bind_eq_ok_iff.mp hcut
      have hwait : cutAt .dev frameLen bs = .ok none := if_pos (by rw [mulU16_dev_toNat hmul]; exact hshort)
      cases hwait.symm.trans hcut
  | release =>
      obtain ⟨frameLen, hmul⟩ : ∃ frameLen, Build.release.mulU16 (lenField bs) 8 = .ok frameLen := ⟨_, rfl⟩
      have hwrap : frameLen.toNat = wrappedLen bs := mulU16_eight_toNat hmul
      have hdvd := eight_dvd_of_mulU16 hmul
      rw [hmul, ok_bind]
      unfold cutAt RefusedWrapped
      by_cases hwait : bs.length < frameLen.toNat
      · rw [if_pos hwait]
        refine iff_of_false (by simp) ?_
        rintro ⟨-, -, hle, -⟩
        omega
      · rw [if_neg hwait]
        by_cases hzero : frameLen = 0
        · have hnone : wrappedLen bs = 0 := by rw [← hwrap, hzero]; rfl
          rw [if_pos hzero]
          exact iff_of_true ⟨bs, rfl⟩ ⟨rfl, hge, by omega, Or.inl hnone⟩
        · have hpos : frameLen.toNat ≠ 0 := fun hval => hzero (UInt16.toNat_inj.mp hval)
          have hrefused := new_take_eq_none_iff (n := frameLen.toNat) (by omega) hge
          rw [if_neg hzero]
          simp only [Except.ok.injEq, Option.some.injEq, Prod.mk.injEq, exists_and_left, exists_eq', and_true,
            true_and, hrefused]
          constructor
          · exact fun hdec => ⟨hge, by omega, Or.inr hdec⟩
          · rintro ⟨-, -, hnone | hdec⟩
            · omega
            · exact hdec

/-! ### The claim of the documentation -/

/-- **A truncated frame** is told from a proper close exactly if the stream does not end inside a frame, an I/O
error comes before its end, or the wrapped length of the frame has it refused. -/
theorem tells_truncation_iff (a : Alloc) (b : Build) (ring : Ring) (rx : Reader) :
    TellsTruncation a b ring rx ↔
      (rx.errors = [] → InsideFrame (ring.buf ++ rx.bytes) → RefusedWrapped b (ring.buf ++ rx.bytes)) := by
  constructor
  · intro h hnil hinside
    have herr := h.truncated hnil hinside
    exact (cutFrame_refuses_iff hinside).mp ((recvFrame_refused_iff a b ring hnil).mp herr)
  · intro h
    refine ⟨fun ring' rx' hend => ?_, fun hnil hinside => ?_⟩
    · obtain ⟨hnil, hbuf, hcut⟩ := recvFrame_end hend
      by_contra hne
      have hinside := insideFrame_of_cut hne hcut
      rw [hbuf] at hinside hcut
      obtain ⟨rest, hrefused⟩ := (cutFrame_refuses_iff hinside).mpr (h hnil hinside)
      cases hcut.symm.trans hrefused
    · exact (recvFrame_refused_iff a b ring hnil).mpr ((cutFrame_refuses_iff hinside).mpr (h hnil hinside))

/-- The first byte of a header, and the end of the stream. -/
def oneByte : Reader := .ofChunks [⟨[3], by decide⟩]

theorem one_byte_closes_cleanly :
    (∃ ring' rx', recvFrame .tight .dev (Ring.withCapacity 64) oneByte = .ok (.error none, ring', rx') ∧
      ring'.buf = [3]) ∧
    ¬ ∀ ring rx, TellsTruncation .tight .dev ring rx := by
  obtain ⟨ring', rx', hcall⟩ := recvFrame_of_cut_none .tight .dev (Ring.withCapacity 64)
    (show oneByte.errors = [] from rfl) rfl
  obtain ⟨-, hbuf, -⟩ := recvFrame_end hcall
  refine ⟨⟨ring', rx', hcall, hbuf⟩, fun h => ?_⟩
  have hnil := (h _ _).clean ring' rx' hcall
  rw [hbuf] at hnil
  cases hnil

end Qusb.Proto

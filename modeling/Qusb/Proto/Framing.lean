import Qusb.Proto.Recv

/-! Frame boundaries.

A byte string is a wire frame when it starts with a header whose length field was written by
`compressFrameLen` for its own length. A stream of such frames is received frame by frame, whatever the
reads are, exactly when each of them is shorter than 65536 bytes. -/

open ByteCodec

namespace Qusb.Proto

open Qusb.Msg

structure IsWire (f : Bytes) : Prop where
  split : ∃ (header : Header) (body : Bytes), f = header.asBytes ++ body ∧
    header.totalFrameLen = compressFrameLen f.length
  dvd : 8 ∣ f.length

/-- Calls receive the given frames in order, each with its bytes, and from then on end of stream. -/
def Delivers (a : Alloc) (b : Build) (ring : Ring) (rx : Reader) (frames : List Bytes) : Prop :=
  ∀ extra, ∃ outs, recvEach .ok a b (frames.length + extra) ring rx = .ok outs ∧
    outs.map (Except.map Data.buf) = frames.map .ok ++ List.replicate extra (.error none)

theorem lenField_of_wire {f : Bytes} (hwire : IsWire f) (more : Bytes) :
    lenField (f ++ more) = compressFrameLen f.length := by
  obtain ⟨header, body, hf, hlen⟩ := hwire.split
  rw [← hlen, hf, List.append_assoc, lenField_header]

theorem IsWire.length_pos {f : Bytes} (hwire : IsWire f) : 8 ≤ f.length := by
  obtain ⟨header, body, hf, -⟩ := hwire.split
  rw [hf, List.length_append, header.asBytes_length]
  omega

/-- The compressed length of a short frame stands for the length itself. -/
theorem eight_mul_compressFrameLen {n : Nat} (hdvd : 8 ∣ n) (hlt : n < 65536) :
    8 * (compressFrameLen n).toNat = n := by
  rw [compressFrameLen, UInt16.toNat_ofNat']
  omega

theorem new_of_wire {f : Bytes} (hwire : IsWire f) :
    ∃ d : Data QusbFrame, Data.new f = .ok d ∧ d.buf = f := by
  obtain ⟨header, body, hf, -⟩ := hwire.split
  have htry : tryRefFromBytes QusbFrame f = some ⟨header, body⟩ := by
    rw [hf]
    exact tryRef_header header body
  obtain ⟨d, hnew, hbuf, -⟩ := Data.new_of_tryRef htry
  exact ⟨d, hnew, hbuf⟩

/-- A short wire frame is cut off whatever follows it. -/
theorem cutFrame_of_wire (b : Build) {f : Bytes} (hwire : IsWire f) (hlt : f.length < 65536)
    (more : Bytes) :
    ∃ d : Data QusbFrame, d.buf = f ∧ cutFrame b (f ++ more) = .ok (some (some d, more)) := by
  have hpos := hwire.length_pos
  have hfield := lenField_of_wire hwire more
  have hval := eight_mul_compressFrameLen hwire.dvd hlt
  obtain ⟨d, hnew, hbuf⟩ := new_of_wire hwire
  refine ⟨d, hbuf, ?_⟩
  have hne : lenField (f ++ more) ≠ 0 := by
    intro hzero
    rw [hfield] at hzero
    rw [hzero] at hval
    have h0 : (0 : UInt16).toNat = 0 := rfl
    omega
  have hlen : 8 ≤ (f ++ more).length := by
    rw [List.length_append]
    omega
  rw [cutFrame_of_fits b hlen hne (by rw [hfield]; omega), hfield, hval,
    if_neg (by rw [List.length_append]; omega), List.take_left' rfl, List.drop_left' rfl, hnew]
  rfl

/-- The length field of a short wire frame decodes to the length of its data. -/
theorem getSliceLen_of_wire (b : Build) {f : Bytes} (hwire : IsWire f) (hlt : f.length < 65536) :
    QusbFrame.getSliceLen b f = .ok (.ok (f.length - 8)) := by
  have hpos := hwire.length_pos
  have hfield : lenField f = compressFrameLen f.length := by
    simpa using lenField_of_wire hwire []
  have hval := eight_mul_compressFrameLen hwire.dvd hlt
  obtain ⟨hmul, hprod⟩ := mulU16_of_fits b (n := compressFrameLen f.length) (by omega)
  unfold QusbFrame.getSliceLen
  rw [if_neg (by omega), hfield, hmul]
  simp only [hprod, hval, gt_iff_lt, lt_irrefl, if_false]
  rw [b.subUsize_of_le hpos (by omega)]
  rfl

/-- A call that finds the bytes of no further frame reports the end of the stream. -/
theorem recvEach_end (a : Alloc) (b : Build) (ring : Ring) (rx : Reader)
    (hbytes : ring.buf ++ rx.bytes = []) (herrors : rx.errors = []) (n : Nat) :
    recvEach .ok a b n ring rx = .ok (List.replicate n (.error none)) := by
  induction n generalizing ring rx with
  | zero => rfl
  | succ n ih =>
      have hspec := recvFrame_spec a b ring rx
      rw [hbytes, herrors] at hspec
      rcases hspec with ⟨e, errors, he, -⟩ | ⟨ring', rx', hcall, hbytes', herrors'⟩
      · cases he
      · exact recvEach_succ_eq_ok_iff.mpr ⟨_, ring', rx', .error none, _, hcall, rfl,
          ih ring' rx' hbytes' herrors', List.replicate_succ⟩

/-- A call returns the short wire frame that comes first and leaves what follows it. -/
theorem recvFrame_of_wire (a : Alloc) (b : Build) (ring : Ring) (rx : Reader) {f more : Bytes}
    (hwire : IsWire f) (hlt : f.length < 65536) (hbytes : ring.buf ++ rx.bytes = f ++ more)
    (herrors : rx.errors = []) :
    ∃ d ring' rx', recvFrame a b ring rx = .ok (.ok d, ring', rx') ∧ d.buf = f ∧
      ring'.buf ++ rx'.bytes = more ∧ rx'.errors = [] := by
  obtain ⟨d, hbuf, hcut⟩ := cutFrame_of_wire b hwire hlt more
  have hspec := recvFrame_spec a b ring rx
  unfold RecvSpec at hspec
  rw [hbytes, hcut, herrors] at hspec
  rcases hspec with ⟨e, errors, he, -⟩ | ⟨ring', rx', hcall, hbytes', herrors'⟩
  · cases he
  · exact ⟨d, ring', rx', hcall, hbuf, hbytes', herrors'⟩

theorem delivers_of_lt (a : Alloc) (b : Build) (ring : Ring) (rx : Reader) (frames : List Bytes)
    (hwire : ∀ f ∈ frames, IsWire f) (hlt : ∀ f ∈ frames, f.length < 65536)
    (hbytes : ring.buf ++ rx.bytes = frames.flatten) (herrors : rx.errors = []) :
    Delivers a b ring rx frames := by
  intro extra
  induction frames generalizing ring rx with
  | nil =>
      refine ⟨_, recvEach_end a b ring rx hbytes herrors (0 + extra), ?_⟩
      rw [Nat.zero_add, List.map_replicate]
      rfl
  | cons f frames ih =>
      obtain ⟨d, ring', rx', hcall, hbuf, hbytes', herrors'⟩ := recvFrame_of_wire a b ring rx
        (hwire f List.mem_cons_self) (hlt f List.mem_cons_self) hbytes herrors
      obtain ⟨outs, houts, hview⟩ := ih ring' rx' (fun g hg => hwire g (List.mem_cons_of_mem f hg))
        (fun g hg => hlt g (List.mem_cons_of_mem f hg)) hbytes' herrors'
      refine ⟨.ok d :: outs, ?_, ?_⟩
      · rw [List.length_cons, Nat.succ_add]
        exact recvEach_succ_eq_ok_iff.mpr ⟨_, ring', rx', .ok d, outs, hcall, rfl, houts, rfl⟩
      · rw [List.map_cons, hview, ← hbuf]
        rfl

/-- Every frame that is received is shorter than 65536 bytes. -/
theorem recvEach_lt {a : Alloc} {b : Build} {n : Nat} {ring : Ring} {rx : Reader}
    {outs : List Received} (h : recvEach .ok a b n ring rx = .ok outs) {d : Data QusbFrame}
    (hd : .ok d ∈ outs) : d.buf.length < 65536 := by
  induction n generalizing ring rx outs with
  | zero =>
      cases h
      cases hd
  | succ n ih =>
      obtain ⟨received, ring', rx', out, outs', hcall, hout, houts, rfl⟩ :=
        recvEach_succ_eq_ok_iff.mp h
      rcases List.mem_cons.mp hd with rfl | hmem
      · cases received with
        | error e => cases hout
        | ok d' =>
            cases hout
            exact cutFrame_lt (recvFrame_ok_cut hcall)
      · exact ih houts hmem

theorem delivers_iff (a : Alloc) (b : Build) (ring : Ring) (rx : Reader) (frames : List Bytes)
    (hwire : ∀ f ∈ frames, IsWire f) (hbytes : ring.buf ++ rx.bytes = frames.flatten)
    (herrors : rx.errors = []) :
    Delivers a b ring rx frames ↔ ∀ f ∈ frames, f.length < 65536 := by
  refine ⟨fun h f hf => ?_, fun hlt => delivers_of_lt a b ring rx frames hwire hlt hbytes herrors⟩
  obtain ⟨outs, houts, hview⟩ := h 0
  have hmem : (Except.ok f : Except (Option RecvError) Bytes) ∈ outs.map (Except.map Data.buf) := by
    rw [hview]
    simpa using hf
  obtain ⟨received, hreceived, hmap⟩ := List.mem_map.mp hmem
  cases received with
  | error e => cases hmap
  | ok d =>
      cases hmap
      exact recvEach_lt houts hreceived

end Qusb.Proto

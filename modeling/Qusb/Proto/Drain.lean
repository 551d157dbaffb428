import Qusb.Proto.Data

/-! Draining a stream.

After its main loop each receiving side reads what is left of the stream until a read brings no byte. All reads
go into one buffer of 32 bytes that is neither emptied nor grown, and a read into a full buffer brings no byte
either: the loop then stops although the stream goes on. -/

open ByteCodec

namespace Qusb.Proto

/-- How a drain ended: the result of its last read, the buffer this read was given, and what was left to read. -/
structure Drained where
  result : Except IoError Nat
  ring : Ring
  rx : Reader

/-- The reader said that the stream is over, or failed: the last read was given room, or is an error. -/
def Drained.ByReader (d : Drained) : Prop :=
  match d.result with
  | .error _ => True
  | .ok _ => d.ring.len < d.ring.capacity

/-- `while buf.fill_with_reader(rx) is Ok(n) and n != 0`. -/
def drainLoop (ring : Ring) (rx : Reader) : Drained :=
  match _h : ring.fillWithReader rx with
  | (.error e, _, rx') => ⟨.error e, ring, rx'⟩
  | (.ok n, ring', rx') => if _hn : n = 0 then ⟨.ok 0, ring, rx'⟩ else drainLoop ring' rx'
termination_by rx.size
decreasing_by exact Ring.fillWithReader_size_lt _h _hn

/-- The loop at the end of both receiving sides. -/
def drain (rx : Reader) : Drained := drainLoop (Ring.withCapacity 32) rx

/-- A read moves bytes of the stream into the ring, and does not grow it. -/
theorem Ring.fillWithReader_moves {ring ring' : Ring} {rx rx' : Reader} {n : Nat}
    (h : ring.fillWithReader rx = (.ok n, ring', rx')) :
    ring'.capacity = ring.capacity ∧ ring'.len = ring.len + n ∧ ring'.buf ++ rx'.bytes = ring.buf ++ rx.bytes := by
  unfold fillWithReader at h
  split at h
  · next bs rx₁ hread =>
      obtain ⟨hbytes, -, -⟩ := Reader.read_ok hread
      cases h
      exact ⟨rfl, List.length_append, by rw [List.append_assoc, hbytes]⟩
  · cases h

/-- An I/O error is met only with room. -/
theorem Ring.room_of_fillWithReader_error {ring ring' : Ring} {rx rx' : Reader} {e : IoError}
    (h : ring.fillWithReader rx = (.error e, ring', rx')) : ring.len < ring.capacity := by
  unfold fillWithReader at h
  split at h
  · cases h
  · next e' rx₁ hread =>
      obtain ⟨-, -, hroom⟩ := Reader.read_error hread
      omega

/-- A read of no bytes met a full ring or the end of the stream. -/
theorem Ring.fillWithReader_zero {ring ring' : Ring} {rx rx' : Reader}
    (h : ring.fillWithReader rx = (.ok 0, ring', rx')) :
    ring.len = ring.capacity ∨ (ring.len < ring.capacity ∧ rx.beforeError = []) := by
  rcases Nat.lt_or_ge ring.len ring.capacity with hroom | hfull
  · obtain ⟨hall, herrors, hend⟩ := fillWithReader_ok h hroom
    obtain ⟨hrest, hnil, hsame⟩ := hend rfl
    rw [hrest, hsame, List.append_nil, List.self_eq_append_right] at hall
    exact Or.inr ⟨hroom, (Reader.beforeError_of_errors_nil hnil).trans hall⟩
  · exact Or.inl (Nat.le_antisymm ring.len_le hfull)

/-- **A drain** ends by the reader's word exactly if the buffer has room for all that comes before an error, and
for one byte more. -/
theorem drainLoop_byReader_iff (ring : Ring) (rx : Reader) :
    (drainLoop ring rx).ByReader ↔ ring.len + rx.beforeError.length < ring.capacity := by
  fun_induction drainLoop ring rx with
  | case1 ring rx e ring' rx' hfill =>
      have hnone := Ring.beforeError_of_fillWithReader_error hfill
      refine iff_of_true trivial ?_
      rw [hnone]
      exact Ring.room_of_fillWithReader_error hfill
  | case2 ring rx ring' rx' hfill =>
      show ring.len < ring.capacity ↔ _
      rcases Ring.fillWithReader_zero hfill with hfull | ⟨hroom, hnone⟩
      · omega
      · rw [hnone]
        exact Iff.rfl
  | case3 ring rx n ring' rx' hfill hn ih =>
      obtain ⟨hcap, hlen, -⟩ := Ring.fillWithReader_moves hfill
      have htotal := congrArg List.length (Ring.fillWithReader_beforeError hfill)
      rw [List.length_append, List.length_append] at htotal
      unfold Ring.len at ih hlen ⊢
      rw [ih, hcap]
      omega

/-- The bytes of the stream were read into the buffer or are still unread; the buffer is as large as it was. -/
theorem drainLoop_bytes (ring : Ring) (rx : Reader) :
    (drainLoop ring rx).ring.capacity = ring.capacity ∧
      (drainLoop ring rx).ring.len + (drainLoop ring rx).rx.bytes.length = ring.len + rx.bytes.length := by
  fun_induction drainLoop ring rx with
  | case1 ring rx e ring' rx' hfill =>
      obtain ⟨-, hbytes, -⟩ := Ring.fillWithReader_error hfill
      exact ⟨rfl, by rw [hbytes]⟩
  | case2 ring rx ring' rx' hfill =>
      obtain ⟨-, hlen, hmoved⟩ := Ring.fillWithReader_moves hfill
      have htotal := congrArg List.length hmoved
      rw [List.length_append, List.length_append] at htotal
      refine ⟨rfl, ?_⟩
      show ring.len + rx'.bytes.length = ring.len + rx.bytes.length
      unfold Ring.len at hlen ⊢
      omega
  | case3 ring rx n ring' rx' hfill hn ih =>
      obtain ⟨hcap, -, hmoved⟩ := Ring.fillWithReader_moves hfill
      have htotal := congrArg List.length hmoved
      rw [List.length_append, List.length_append] at htotal
      exact ⟨ih.1.trans hcap, ih.2.trans htotal⟩

/-- A drain that its full buffer stops leaves all but 32 bytes unread. -/
theorem drain_unread {rx : Reader} (h : ¬ (drain rx).ByReader) :
    32 + (drain rx).rx.bytes.length = rx.bytes.length := by
  obtain ⟨hcap, hbytes⟩ := drainLoop_bytes (Ring.withCapacity 32) rx
  have hcap : (drain rx).ring.capacity = 32 := hcap
  have hbytes : (drain rx).ring.len + (drain rx).rx.bytes.length = 0 + rx.bytes.length := hbytes
  have hle : (drain rx).ring.len ≤ (drain rx).ring.capacity := (drain rx).ring.len_le
  have hfull : ¬ (drain rx).ring.len < (drain rx).ring.capacity := by
    intro hlt
    apply h
    unfold Drained.ByReader
    split
    · trivial
    · exact hlt
  omega

end Qusb.Proto

/-! ### The two sides -/

namespace Qusb

open Proto

/-- The end of `borrow::RecvLoop::run`. -/
def Borrow.RecvLoop.drain (rx : Reader) : Drained := Proto.drain rx

/-- The end of `lend::RecvLoop::run`. -/
def Lend.RecvLoop.drain (rx : Reader) : Drained := Proto.drain rx

/-- **Draining.** Whatever is left of the stream, each side reads until the reader says that it is over or fails
exactly if fewer than 32 bytes come before that. -/
theorem drains_iff (rx : Reader) :
    ((Borrow.RecvLoop.drain rx).ByReader ↔ rx.beforeError.length < 32) ∧
      ((Lend.RecvLoop.drain rx).ByReader ↔ rx.beforeError.length < 32) := by
  have hloop := drainLoop_byReader_iff (Ring.withCapacity 32) rx
  have hempty : (Ring.withCapacity 32).len + rx.beforeError.length = rx.beforeError.length := Nat.zero_add _
  rw [hempty] at hloop
  exact ⟨hloop, hloop⟩

/-- A stream with 33 bytes left. -/
def longRest : Reader := .ofChunks [⟨List.replicate 33 0, by decide⟩]

/-- One of the bytes is never read. -/
theorem longRest_not_drained :
    ¬ (Borrow.RecvLoop.drain longRest).ByReader ∧ ¬ (Lend.RecvLoop.drain longRest).ByReader ∧
      (Borrow.RecvLoop.drain longRest).rx.bytes.length = 1 ∧
      (Lend.RecvLoop.drain longRest).rx.bytes.length = 1 := by
  have hstopped : ¬ (drain longRest).ByReader := by
    intro h
    have hfew := (drainLoop_byReader_iff (Ring.withCapacity 32) longRest).mp h
    revert hfew
    decide
  have hunread := drain_unread hstopped
  have htotal : longRest.bytes.length = 33 := rfl
  have hone : (drain longRest).rx.bytes.length = 1 := by omega
  exact ⟨hstopped, hstopped, hone, hone⟩

end Qusb

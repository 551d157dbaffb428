import Qusb.Proto.Msg

/-! Receive buffers and typed views of bytes.

`Ring` is the receive buffer: the bytes it holds and the capacity of its allocation, which never falls
below them. A `Reader` is the script of what the transport delivers: non-empty chunks and I/O errors,
followed by end of stream. A read returns at most the spare capacity it is given, so a chunk that does
not fit is delivered by several reads. `Data T` owns bytes that were checked to be a `T`. -/

open ByteCodec

namespace Qusb.Proto

structure IoError where
  errno : Nat
  deriving DecidableEq, Repr

/-! ### The transport -/

/-- A non-empty piece of the stream. -/
structure Chunk where
  bytes : Bytes
  ne_nil : bytes ≠ []

inductive Arrival where
  | chunk (c : Chunk)
  | error (e : IoError)

/-- What the transport delivers, in order, before end of stream. -/
abbrev Reader := List Arrival

namespace Reader

def ofChunks (cs : List Chunk) : Reader := cs.map .chunk

/-- A measure of what is left to deliver. -/
def size : Reader → Nat
  | [] => 0
  | .chunk c :: rest => c.bytes.length + 1 + size rest
  | .error _ :: rest => 1 + size rest

/-- One read into `spare` bytes; no bytes means end of stream, or no room. A read without room takes nothing. -/
def read (spare : Nat) : Reader → Except IoError Bytes × Reader
  | [] => (.ok [], [])
  | .error e :: rest => if spare = 0 then (.ok [], .error e :: rest) else (.error e, rest)
  | .chunk c :: rest =>
      if h : spare < c.bytes.length then
        (.ok (c.bytes.take spare), .chunk ⟨c.bytes.drop spare, by simpa using h⟩ :: rest)
      else (.ok c.bytes, rest)

theorem read_length_le (spare : Nat) (rx rx' : Reader) {bs : Bytes}
    (h : rx.read spare = (.ok bs, rx')) : bs.length ≤ spare := by
  cases rx with
  | nil =>
      cases h
      simp
  | cons arrival rest =>
      cases arrival with
      | error e =>
          rw [read] at h
          split at h <;> cases h
          simp
      | chunk c =>
          rw [read] at h
          split at h
          · cases h
            simp
          · next hfit =>
              cases h
              omega

/-- A read that delivers bytes leaves less to deliver. -/
theorem read_size_lt (spare : Nat) (rx rx' : Reader) {bs : Bytes}
    (h : rx.read spare = (.ok bs, rx')) (hne : bs.length ≠ 0) : rx'.size < rx.size := by
  cases rx with
  | nil =>
      cases h
      simp at hne
  | cons arrival rest =>
      cases arrival with
      | error e =>
          rw [read] at h
          split at h <;> cases h
          simp at hne
      | chunk c =>
          rw [read] at h
          split at h
          · next hsplit =>
              cases h
              simp only [List.length_take] at hne
              simp only [size, List.length_drop]
              omega
          · cases h
            simp only [size]
            omega

end Reader

/-- The bytes still to be delivered. -/
def Reader.bytes : Reader → Bytes
  | [] => []
  | .chunk c :: rest => c.bytes ++ bytes rest
  | .error _ :: rest => bytes rest

/-- The I/O errors still to come. -/
def Reader.errors : Reader → List IoError
  | [] => []
  | .chunk _ :: rest => errors rest
  | .error e :: rest => e :: errors rest

/-- The bytes delivered before the first I/O error. -/
def Reader.beforeError : Reader → Bytes
  | [] => []
  | .chunk c :: rest => c.bytes ++ beforeError rest
  | .error _ :: _ => []

/-- A read takes the next bytes of the stream and leaves the others; it delivers none only at the end
of the stream or into no room. -/
theorem Reader.read_ok {spare : Nat} {rx rx' : Reader} {bs : Bytes}
    (h : rx.read spare = (.ok bs, rx')) :
    bs ++ rx'.bytes = rx.bytes ∧ rx'.errors = rx.errors ∧
      (bs = [] → spare = 0 ∨ (rx.bytes = [] ∧ rx.errors = [])) := by
  cases rx with
  | nil =>
      cases h
      exact ⟨rfl, rfl, fun _ => Or.inr ⟨rfl, rfl⟩⟩
  | cons arrival rest =>
      cases arrival with
      | error e =>
          rw [Reader.read] at h
          split at h
          · next hfull =>
              cases h
              exact ⟨rfl, rfl, fun _ => Or.inl hfull⟩
          · cases h
      | chunk c =>
          rw [Reader.read] at h
          split at h
          · next hsplit =>
              cases h
              refine ⟨?_, rfl, fun hnil => Or.inl ?_⟩
              · show c.bytes.take spare ++ (c.bytes.drop spare ++ bytes rest) = c.bytes ++ bytes rest
                rw [← List.append_assoc, List.take_append_drop]
              · have hlen := congrArg List.length hnil
                simp only [List.length_take, List.length_nil] at hlen
                omega
          · cases h
            exact ⟨rfl, rfl, fun hnil => absurd hnil c.ne_nil⟩

/-- A failed read had room; it takes its error off the script and no bytes. -/
theorem Reader.read_error {spare : Nat} {rx rx' : Reader} {e : IoError}
    (h : rx.read spare = (.error e, rx')) :
    rx'.bytes = rx.bytes ∧ rx.errors = e :: rx'.errors ∧ spare ≠ 0 := by
  cases rx with
  | nil => cases h
  | cons arrival rest =>
      cases arrival with
      | error e' =>
          rw [Reader.read] at h
          split at h
          · cases h
          · next hroom =>
              cases h
              exact ⟨rfl, rfl, hroom⟩
      | chunk c =>
          rw [Reader.read] at h
          split at h <;> cases h

theorem Reader.read_beforeError {spare : Nat} {rx rx' : Reader} {bs : Bytes}
    (h : rx.read spare = (.ok bs, rx')) : bs ++ rx'.beforeError = rx.beforeError := by
  cases rx with
  | nil =>
      cases h
      rfl
  | cons arrival rest =>
      cases arrival with
      | error e =>
          rw [Reader.read] at h
          split at h <;> cases h
          rfl
      | chunk c =>
          rw [Reader.read] at h
          split at h
          · cases h
            show c.bytes.take spare ++ (c.bytes.drop spare ++ beforeError rest) = c.bytes ++ beforeError rest
            rw [← List.append_assoc, List.take_append_drop]
          · cases h
            rfl

theorem Reader.beforeError_of_read_error {spare : Nat} {rx rx' : Reader} {e : IoError}
    (h : rx.read spare = (.error e, rx')) : rx.beforeError = [] := by
  cases rx with
  | nil => cases h
  | cons arrival rest =>
      cases arrival with
      | error e' => rfl
      | chunk c =>
          rw [Reader.read] at h
          split at h <;> cases h

@[simp] theorem Reader.errors_ofChunks (cs : List Chunk) : (Reader.ofChunks cs).errors = [] := by
  induction cs with
  | nil => rfl
  | cons c cs ih => exact ih

theorem Reader.bytes_ofChunks (cs : List Chunk) :
    (Reader.ofChunks cs).bytes = (cs.map Chunk.bytes).flatten := by
  induction cs with
  | nil => rfl
  | cons c cs ih => exact congrArg (c.bytes ++ ·) ih

/-- Without an I/O error all bytes of the stream are delivered. -/
theorem Reader.beforeError_of_errors_nil {rx : Reader} (h : rx.errors = []) : rx.beforeError = rx.bytes := by
  induction rx with
  | nil => rfl
  | cons arrival rest ih =>
      cases arrival with
      | chunk c => exact congrArg (c.bytes ++ ·) (ih h)
      | error e => cases h

/-! ### The receive buffer -/

/-- How the allocator grows a buffer: the new capacity for `len` bytes held and `additional` wanted. -/
structure Alloc where
  grow : Nat → Nat → Nat → Nat
  le_grow : ∀ len cap additional, len + additional ≤ grow len cap additional

/-- The allocator that grows a buffer to exactly what is wanted. -/
def Alloc.tight : Alloc := ⟨fun len _ additional => len + additional, fun _ _ _ => le_rfl⟩

structure Ring where
  buf : Bytes
  capacity : Nat
  len_le : buf.length ≤ capacity

namespace Ring

def withCapacity (cap : Nat) : Ring := ⟨[], cap, Nat.zero_le cap⟩

def len (ring : Ring) : Nat := ring.buf.length

/-- `BytesMut::reserve`: room for `additional` more bytes. -/
def reserve (a : Alloc) (ring : Ring) (additional : Nat) : Ring :=
  if ring.capacity - ring.len < additional then
    ⟨ring.buf, a.grow ring.len ring.capacity additional,
      (Nat.le_add_right _ _).trans (a.le_grow ring.len ring.capacity additional)⟩
  else ring

/-- Pull bytes into the spare capacity; the number of bytes read. -/
def fillWithReader (ring : Ring) (rx : Reader) : Except IoError Nat × Ring × Reader :=
  match h : rx.read (ring.capacity - ring.len) with
  | (.ok bs, rx') =>
      (.ok bs.length, ⟨ring.buf ++ bs, ring.capacity, by
        have hbs := Reader.read_length_le _ _ _ h
        have hlen := ring.len_le
        rw [List.length_append]
        unfold len at hbs
        omega⟩, rx')
  | (.error e, rx') => (.error e, ring, rx')

/-- `BytesMut::split_to`. -/
def splitTo (ring : Ring) (n : Nat) : Except Fault (Bytes × Ring) :=
  if n ≤ ring.len then
    .ok (ring.buf.take n, ⟨ring.buf.drop n, ring.capacity - n, by
      have hlen := ring.len_le
      rw [List.length_drop]
      omega⟩)
  else .error .splitOutOfRange

@[simp] theorem reserve_buf (a : Alloc) (ring : Ring) (n : Nat) :
    (ring.reserve a n).buf = ring.buf := by
  unfold reserve
  split <;> rfl

theorem le_reserve (a : Alloc) (ring : Ring) (n : Nat) :
    ring.len + n ≤ (ring.reserve a n).capacity := by
  unfold reserve
  split
  · exact a.le_grow _ _ _
  · have hlen := ring.len_le
    unfold len at *
    omega

theorem fillWithReader_size_lt {ring ring' : Ring} {rx rx' : Reader} {n : Nat}
    (h : ring.fillWithReader rx = (.ok n, ring', rx')) (hn : n ≠ 0) : rx'.size < rx.size := by
  unfold fillWithReader at h
  split at h
  · next bs rx₁ hread =>
      simp only [Prod.mk.injEq, Except.ok.injEq] at h
      obtain ⟨rfl, -, rfl⟩ := h
      exact Reader.read_size_lt _ _ _ hread hn
  · cases h

def extra : Nat := 16 <<< 10

/-- Make room and read until `numBytes` are buffered; `none` when the stream ends before. -/
def fillUntil (a : Alloc) (ring : Ring) (rx : Reader) (numBytes : Nat) :
    Except IoError (Option Unit) × Ring × Reader :=
  if numBytes > ring.len then
    let ring := if ring.capacity < ring.len + numBytes then ring.reserve a extra else ring
    match _h : ring.fillWithReader rx with
    | (.error e, ring', rx') => (.error e, ring', rx')
    | (.ok n, ring', rx') =>
        if _hn : n = 0 then (.ok none, ring', rx')
        else fillUntil a ring' rx' numBytes
  else (.ok (some ()), ring, rx)
termination_by rx.size
decreasing_by exact fillWithReader_size_lt _h _hn

/-- A read into a ring with room appends the bytes it takes off the stream. -/
theorem fillWithReader_ok {ring ring' : Ring} {rx rx' : Reader} {n : Nat}
    (h : ring.fillWithReader rx = (.ok n, ring', rx')) (hroom : ring.len < ring.capacity) :
    ring'.buf ++ rx'.bytes = ring.buf ++ rx.bytes ∧ rx'.errors = rx.errors ∧
      (n = 0 → rx'.bytes = [] ∧ rx.errors = [] ∧ ring'.buf = ring.buf) := by
  unfold fillWithReader at h
  split at h
  · next bs rx₁ hread =>
      obtain ⟨hbytes, herrors, hnil⟩ := Reader.read_ok hread
      simp only [Prod.mk.injEq, Except.ok.injEq] at h
      obtain ⟨rfl, rfl, rfl⟩ := h
      refine ⟨by rw [List.append_assoc, hbytes], herrors, fun hn => ?_⟩
      obtain rfl : bs = [] := List.eq_nil_of_length_eq_zero hn
      rcases hnil rfl with hfull | ⟨hrest, herr⟩
      · omega
      · exact ⟨hbytes.trans hrest, herr, List.append_nil _⟩
  · cases h

theorem fillWithReader_error {ring ring' : Ring} {rx rx' : Reader} {e : IoError}
    (h : ring.fillWithReader rx = (.error e, ring', rx')) :
    ring' = ring ∧ rx'.bytes = rx.bytes ∧ rx.errors = e :: rx'.errors := by
  unfold fillWithReader at h
  split at h
  · cases h
  · next e' rx₁ hread =>
      cases h
      obtain ⟨hbytes, herrors, -⟩ := Reader.read_error hread
      exact ⟨rfl, hbytes, herrors⟩

/-- What is true after an attempt to fill a ring to `numBytes`: no byte of the stream is lost, and the
ring is full enough, or the stream is over, or an I/O error came first. -/
def Filled (ring : Ring) (rx : Reader) (numBytes : Nat) :
    Except IoError (Option Unit) × Ring × Reader → Prop
  | (result, ring', rx') =>
      ring'.buf ++ rx'.bytes = ring.buf ++ rx.bytes ∧
        match result with
        | .error e => rx.errors = e :: rx'.errors
        | .ok none => ring'.len < numBytes ∧ rx'.bytes = [] ∧ rx'.errors = rx.errors
        | .ok (some ()) => numBytes ≤ ring'.len ∧ rx'.errors = rx.errors

/-- A ring that has to be filled gets room for at least one byte. -/
theorem room_of_lt (a : Alloc) {ring : Ring} {numBytes : Nat} (h : numBytes > ring.len) :
    let ring₁ := if ring.capacity < ring.len + numBytes then ring.reserve a extra else ring
    ring₁.buf = ring.buf ∧ ring₁.len < ring₁.capacity := by
  intro ring₁
  by_cases hfull : ring.capacity < ring.len + numBytes
  · have hring : ring₁ = ring.reserve a extra := if_pos hfull
    have hle := le_reserve a ring extra
    rw [hring]
    refine ⟨reserve_buf a ring extra, ?_⟩
    show (ring.reserve a extra).buf.length < _
    rw [reserve_buf]
    exact lt_of_lt_of_le (Nat.lt_add_of_pos_right (by decide)) hle
  · have hring : ring₁ = ring := if_neg hfull
    rw [hring]
    exact ⟨rfl, by omega⟩

theorem fillUntil_filled (a : Alloc) (ring : Ring) (rx : Reader) (numBytes : Nat) :
    Filled ring rx numBytes (ring.fillUntil a rx numBytes) := by
  fun_induction Ring.fillUntil a ring rx numBytes with
  | case1 ring rx hlt ring₁ e ring' rx' hfill =>
      obtain ⟨hbuf, -⟩ := room_of_lt a hlt
      obtain ⟨hring, hbytes, herrors⟩ := fillWithReader_error hfill
      refine ⟨?_, herrors⟩
      rw [hring, hbytes]
      exact congrArg (· ++ rx.bytes) hbuf
  | case2 ring rx hlt ring₁ ring' rx' hfill =>
      obtain ⟨hbuf, hroom⟩ := room_of_lt a hlt
      obtain ⟨hall, herrors, hend⟩ := fillWithReader_ok hfill hroom
      obtain ⟨hnil, -, hsame⟩ := hend rfl
      refine ⟨hall.trans (congrArg (· ++ rx.bytes) hbuf), ?_, hnil, herrors⟩
      show ring'.buf.length < numBytes
      rw [hsame]
      exact lt_of_eq_of_lt (congrArg List.length hbuf) hlt
  | case3 ring rx hlt ring₁ n ring' rx' hfill hn ih =>
      obtain ⟨hbuf, hroom⟩ := room_of_lt a hlt
      obtain ⟨hall, herrors, -⟩ := fillWithReader_ok hfill hroom
      have hstart : ring'.buf ++ rx'.bytes = ring.buf ++ rx.bytes :=
        hall.trans (congrArg (· ++ rx.bytes) hbuf)
      unfold Filled at ih ⊢
      rw [hstart, herrors] at ih
      exact ih
  | case4 ring rx hge => exact ⟨rfl, Nat.le_of_not_lt hge, rfl⟩

theorem fillUntil_bytes (a : Alloc) (ring : Ring) (rx : Reader) (numBytes : Nat) :
    (ring.fillUntil a rx numBytes).2.1.buf ++ (ring.fillUntil a rx numBytes).2.2.bytes = ring.buf ++ rx.bytes :=
  (fillUntil_filled a ring rx numBytes).1

theorem fillUntil_none {a : Alloc} {ring ring' : Ring} {rx rx' : Reader} {numBytes : Nat}
    (h : ring.fillUntil a rx numBytes = (.ok none, ring', rx')) :
    ring'.buf ++ rx'.bytes = ring.buf ++ rx.bytes ∧ ring'.len < numBytes ∧ rx'.bytes = [] ∧
      rx'.errors = rx.errors := by
  have hfilled := fillUntil_filled a ring rx numBytes
  rw [h] at hfilled
  exact hfilled

theorem fillUntil_some {a : Alloc} {ring ring' : Ring} {rx rx' : Reader} {numBytes : Nat}
    (h : ring.fillUntil a rx numBytes = (.ok (some ()), ring', rx')) :
    ring'.buf ++ rx'.bytes = ring.buf ++ rx.bytes ∧ numBytes ≤ ring'.len ∧
      rx'.errors = rx.errors := by
  have hfilled := fillUntil_filled a ring rx numBytes
  rw [h] at hfilled
  exact hfilled

theorem fillUntil_error {a : Alloc} {ring ring' : Ring} {rx rx' : Reader} {numBytes : Nat}
    {e : IoError} (h : ring.fillUntil a rx numBytes = (.error e, ring', rx')) :
    ring'.buf ++ rx'.bytes = ring.buf ++ rx.bytes ∧ rx.errors = e :: rx'.errors := by
  have hfilled := fillUntil_filled a ring rx numBytes
  rw [h] at hfilled
  exact hfilled

theorem fillWithReader_beforeError {ring ring' : Ring} {rx rx' : Reader} {n : Nat}
    (h : ring.fillWithReader rx = (.ok n, ring', rx')) :
    ring'.buf ++ rx'.beforeError = ring.buf ++ rx.beforeError := by
  unfold fillWithReader at h
  split at h
  · next bs rx₁ hread =>
      cases h
      calc ring.buf ++ bs ++ rx'.beforeError = ring.buf ++ (bs ++ rx'.beforeError) :=
            List.append_assoc _ _ _
        _ = ring.buf ++ rx.beforeError := by rw [Reader.read_beforeError hread]
  · cases h

theorem beforeError_of_fillWithReader_error {ring ring' : Ring} {rx rx' : Reader} {e : IoError}
    (h : ring.fillWithReader rx = (.error e, ring', rx')) : rx.beforeError = [] := by
  unfold fillWithReader at h
  split at h
  · cases h
  · next e' rx₁ hread => exact Reader.beforeError_of_read_error hread

/-- How an attempt to fill a ring ends depends on the bytes delivered before the first I/O error: if they
are enough the ring holds a prefix of them, and otherwise the error or the end of the stream comes first. -/
def Delivered (ring : Ring) (rx : Reader) (numBytes : Nat) :
    Except IoError (Option Unit) × Ring × Reader → Prop
  | (.error _, _, _) => (ring.buf ++ rx.beforeError).length < numBytes ∧ rx.errors ≠ []
  | (.ok none, ring', _) =>
      (ring.buf ++ rx.beforeError).length < numBytes ∧ rx.errors = [] ∧
        ring'.buf = ring.buf ++ rx.beforeError
  | (.ok (some ()), ring', _) => numBytes ≤ ring'.buf.length ∧ ring'.buf <+: ring.buf ++ rx.beforeError

theorem fillUntil_delivered (a : Alloc) (ring : Ring) (rx : Reader) (numBytes : Nat) :
    Delivered ring rx numBytes (ring.fillUntil a rx numBytes) := by
  fun_induction Ring.fillUntil a ring rx numBytes with
  | case1 ring rx hlt ring₁ e ring' rx' hfill =>
      obtain ⟨-, -, herrors⟩ := fillWithReader_error hfill
      have hnone := beforeError_of_fillWithReader_error hfill
      refine ⟨?_, by rw [herrors]; exact List.cons_ne_nil _ _⟩
      rw [hnone, List.append_nil]
      exact hlt
  | case2 ring rx hlt ring₁ ring' rx' hfill =>
      obtain ⟨hbuf, hroom⟩ := room_of_lt a hlt
      obtain ⟨-, herrors, hend⟩ := fillWithReader_ok hfill hroom
      obtain ⟨hrest, hnil, hsame⟩ := hend rfl
      have hrx' : rx'.beforeError = [] := (Reader.beforeError_of_errors_nil (herrors.trans hnil)).trans hrest
      have hall : ring'.buf ++ rx'.beforeError = ring.buf ++ rx.beforeError :=
        calc ring'.buf ++ rx'.beforeError = ring₁.buf ++ rx.beforeError := fillWithReader_beforeError hfill
          _ = ring.buf ++ rx.beforeError := congrArg (· ++ rx.beforeError) hbuf
      rw [hrx', List.append_nil] at hall
      refine ⟨?_, hnil, hall⟩
      rw [← hall, hsame]
      exact lt_of_eq_of_lt (congrArg List.length hbuf) hlt
  | case3 ring rx hlt ring₁ n ring' rx' hfill hn ih =>
      obtain ⟨hbuf, hroom⟩ := room_of_lt a hlt
      obtain ⟨-, herrors, -⟩ := fillWithReader_ok hfill hroom
      have hall : ring'.buf ++ rx'.beforeError = ring.buf ++ rx.beforeError :=
        calc ring'.buf ++ rx'.beforeError = ring₁.buf ++ rx.beforeError := fillWithReader_beforeError hfill
          _ = ring.buf ++ rx.beforeError := congrArg (· ++ rx.beforeError) hbuf
      unfold Delivered at ih ⊢
      rw [hall, herrors] at ih
      exact ih
  | case4 ring rx hge => exact ⟨Nat.le_of_not_lt hge, List.prefix_append _ _⟩

/-- A ring that was not full enough was filled by at least one read. -/
theorem fillUntil_size {a : Alloc} {ring ring' : Ring} {rx rx' : Reader} {numBytes : Nat}
    (h : ring.fillUntil a rx numBytes = (.ok (some ()), ring', rx')) :
    rx'.size < rx.size ∨ (numBytes ≤ ring.len ∧ ring' = ring ∧ rx' = rx) := by
  fun_induction Ring.fillUntil a ring rx numBytes with
  | case1 => cases h
  | case2 => cases h
  | case3 ring rx hlt ring₁ n ring₂ rx₂ hfill hn ih =>
      have hsize := fillWithReader_size_lt hfill hn
      rcases ih h with hless | ⟨-, -, rfl⟩
      · exact Or.inl (hless.trans hsize)
      · exact Or.inl hsize
  | case4 ring rx hge =>
      cases h
      exact Or.inr ⟨Nat.le_of_not_lt hge, rfl, rfl⟩

theorem fillUntil_of_le (a : Alloc) {ring : Ring} {numBytes : Nat} (h : numBytes ≤ ring.len) (rx : Reader) :
    ring.fillUntil a rx numBytes = (.ok (some ()), ring, rx) := by
  rw [fillUntil, if_neg (Nat.not_lt_of_le h)]

theorem fillUntil_nil (a : Alloc) (ring : Ring) (numBytes : Nat) :
    (ring.fillUntil a [] numBytes).2.2 = [] := by
  rw [fillUntil]
  split
  · simp only
    split
    · next heq => cases heq
    · next heq =>
        cases heq
        rfl
  · rfl

/-- The room that is made at the first read is made before it. -/
theorem fillUntil_reserve (a : Alloc) {ring : Ring} {numBytes : Nat} (hlt : numBytes > ring.len)
    (hfull : ring.capacity < ring.len + numBytes) (hextra : numBytes ≤ extra) (rx : Reader) :
    ring.fillUntil a rx numBytes = (ring.reserve a extra).fillUntil a rx numBytes := by
  have hlen : (ring.reserve a extra).len = ring.len := congrArg List.length (reserve_buf a ring extra)
  have hroom := le_reserve a ring extra
  rw [fillUntil, fillUntil, hlen, if_pos hlt, if_pos hfull, if_pos hlt,
    if_neg (show ¬ (ring.reserve a extra).capacity < ring.len + numBytes by omega)]

/-- A read into enough room, and the reads after it. -/
theorem fillUntil_step (a : Alloc) {ring ring' : Ring} {rx rx' : Reader} {numBytes n : Nat}
    (hlt : numBytes > ring.len) (hroom : ring.len + numBytes ≤ ring.capacity)
    (hfill : ring.fillWithReader rx = (.ok n, ring', rx')) (hn : n ≠ 0) :
    ring.fillUntil a rx numBytes = ring'.fillUntil a rx' numBytes := by
  rw [fillUntil, if_pos hlt, if_neg (Nat.not_lt_of_le hroom)]
  simp only
  split
  · next heq => cases hfill.symm.trans heq
  · next heq =>
      cases hfill.symm.trans heq
      rw [dif_neg hn]

theorem fillWithReader_chunk {ring : Ring} {c : Chunk} (hfits : ring.len + c.bytes.length ≤ ring.capacity)
    (rx : Reader) :
    ∃ ring' : Ring, ring'.capacity = ring.capacity ∧ ring'.len = ring.len + c.bytes.length ∧
      ring.fillWithReader (.chunk c :: rx) = (.ok c.bytes.length, ring', rx) := by
  have hread : Reader.read (ring.capacity - ring.len) (.chunk c :: rx) = (.ok c.bytes, rx) := by
    rw [Reader.read, dif_neg (by omega)]
  unfold fillWithReader
  split
  · next bs rx' heq =>
      cases hread.symm.trans heq
      exact ⟨⟨ring.buf ++ c.bytes, ring.capacity, _⟩, rfl, List.length_append, rfl⟩
  · next heq => cases hread.symm.trans heq

/-- A chunk that does not fit fills the ring. -/
theorem fillWithReader_chunk_of_lt {ring : Ring} {c : Chunk}
    (hover : ring.capacity < ring.len + c.bytes.length) (rx : Reader) :
    ∃ (ring' : Ring) (c' : Chunk), ring'.len = ring.capacity ∧
      ring.fillWithReader (.chunk c :: rx) = (.ok (ring.capacity - ring.len), ring', .chunk c' :: rx) := by
  have hcap : ring.len ≤ ring.capacity := ring.len_le
  have hlt : ring.capacity - ring.len < c.bytes.length := by omega
  have htake : (c.bytes.take (ring.capacity - ring.len)).length = ring.capacity - ring.len :=
    List.length_take_of_le hlt.le
  have hread : Reader.read (ring.capacity - ring.len) (.chunk c :: rx) =
      (.ok (c.bytes.take (ring.capacity - ring.len)),
        .chunk ⟨c.bytes.drop (ring.capacity - ring.len), by simpa using hlt⟩ :: rx) := by
    rw [Reader.read, dif_pos hlt]
  unfold fillWithReader
  split
  · next bs rx' heq =>
      cases hread.symm.trans heq
      refine ⟨_, _, ?_, by rw [htake]⟩
      show (ring.buf ++ _).length = _
      rw [List.length_append, htake]
      show ring.len + (ring.capacity - ring.len) = ring.capacity
      omega
  · next heq => cases hread.symm.trans heq

/-- A ring with room for twice what it waits for takes the whole stream exactly if the last read finds it
not yet full enough, and has room. -/
theorem fillUntil_takes_all_iff (a : Alloc) (cs : List Chunk) {ring : Ring} {numBytes : Nat}
    (hcap : numBytes + numBytes ≤ ring.capacity) :
    (ring.fillUntil a (Reader.ofChunks cs) numBytes).2.2.bytes = [] ↔
      cs = [] ∨
        (ring.len + (cs.dropLast.map Chunk.bytes).flatten.length < numBytes ∧
          ring.len + (cs.map Chunk.bytes).flatten.length ≤ ring.capacity) := by
  induction cs generalizing ring with
  | nil =>
      refine iff_of_true ?_ (Or.inl rfl)
      rw [Reader.ofChunks, List.map_nil, fillUntil_nil]
      rfl
  | cons c cs ih =>
      rcases Nat.lt_or_ge ring.len numBytes with hlt | hge
      · have hroom : ring.len + numBytes ≤ ring.capacity := by omega
        have hpos : c.bytes.length ≠ 0 := fun h => c.ne_nil (List.length_eq_zero_iff.mp h)
        rcases Nat.lt_or_ge ring.capacity (ring.len + c.bytes.length) with hover | hfits
        · obtain ⟨ring', c', hfull, hfill⟩ := fillWithReader_chunk_of_lt hover (Reader.ofChunks cs)
          show (ring.fillUntil a (.chunk c :: Reader.ofChunks cs) numBytes).2.2.bytes = [] ↔ _
          rw [fillUntil_step a hlt hroom hfill (by omega), fillUntil_of_le a (by omega)]
          refine iff_of_false (fun h => c'.ne_nil (List.append_eq_nil_iff.mp h).1) ?_
          rintro (h | ⟨-, h⟩)
          · cases h
          · rw [List.map_cons, List.flatten_cons, List.length_append] at h
            omega
        · obtain ⟨ring', hsame, hlen, hfill⟩ := fillWithReader_chunk hfits (Reader.ofChunks cs)
          show (ring.fillUntil a (.chunk c :: Reader.ofChunks cs) numBytes).2.2.bytes = [] ↔ _
          rw [fillUntil_step a hlt hroom hfill hpos, ih (hcap.trans hsame.ge), hlen, hsame]
          cases cs with
          | nil => simpa [hlt] using hfits
          | cons d ds => simp [Nat.add_assoc]
      · rw [fillUntil_of_le a hge]
        refine iff_of_false (fun h => c.ne_nil (List.append_eq_nil_iff.mp h).1) ?_
        rintro (h | ⟨h, -⟩)
        · cases h
        · omega

end Ring

/-! ### Typed views -/

/-- `zerocopy::TryFromBytes` of a type: the value the bytes are, if their length and their contents are
those of one. -/
class TryFromBytes (T : Type) where
  tryRef : Bytes → Option T

def tryRefFromBytes (T : Type) [TryFromBytes T] (bs : Bytes) : Option T := TryFromBytes.tryRef bs

inductive GetSliceLenErr where
  | noConfidence
  | bufferShort (numBytesNeeded : Nat)
  deriving DecidableEq, Repr

/-- A type that ends in a slice, whose length is found in its first bytes. -/
class GetSliceLen (T : Type) extends TryFromBytes T where
  sizeOfHeader : Nat
  sizeOfData : Nat
  getSliceLen : Build → Bytes → Except Fault (Except GetSliceLenErr Nat)

/-- Owned bytes that are a `T`. -/
structure Data (T : Type) [TryFromBytes T] where
  buf : Bytes
  valid : (tryRefFromBytes T buf).isSome

inductive ReadError where
  | corruptedData
  | bufferShort (numBytesNeeded : Nat)
  deriving DecidableEq, Repr

def ReadError.ofGetSliceLenErr : GetSliceLenErr → ReadError
  | .noConfidence => .corruptedData
  | .bufferShort n => .bufferShort n

namespace Data

section

variable {T : Type} [TryFromBytes T]

def get (d : Data T) : T := (tryRefFromBytes T d.buf).get d.valid

def new (buf : Bytes) : Except ReadError (Data T) :=
  if h : (tryRefFromBytes T buf).isSome then .ok ⟨buf, h⟩ else .error .corruptedData

theorem new_of_isSome {buf : Bytes} (h : (tryRefFromBytes T buf).isSome) :
    new buf = .ok (⟨buf, h⟩ : Data T) := dif_pos h

theorem get_of_tryRef {d : Data T} {v : T} (h : tryRefFromBytes T d.buf = some v) : d.get = v := by
  simp only [get, h, Option.get_some]

theorem new_of_tryRef {buf : Bytes} {v : T} (h : tryRefFromBytes T buf = some v) :
    ∃ d : Data T, new buf = .ok d ∧ d.buf = buf ∧ d.get = v := by
  have hsome : (tryRefFromBytes T buf).isSome := by rw [h]; rfl
  exact ⟨⟨buf, hsome⟩, new_of_isSome hsome, rfl, get_of_tryRef h⟩

theorem new_buf {buf : Bytes} {d : Data T} (h : new buf = .ok d) : d.buf = buf := by
  unfold new at h
  split at h
  · cases h
    rfl
  · cases h

theorem buf_of_toOption {buf : Bytes} {d : Data T} (h : (new buf).toOption = some d) :
    d.buf = buf := by
  cases hnew : (new buf : Except ReadError (Data T)) with
  | error e =>
      rw [hnew] at h
      cases h
  | ok d' =>
      rw [hnew] at h
      cases h
      exact new_buf hnew

end

/-- Skip the header of `T` and read the remainder as a `U`. -/
def splitData {T : Type} [GetSliceLen T] (d : Data T) (U : Type) [TryFromBytes U] : Option (Data U) :=
  (new (d.buf.drop (GetSliceLen.sizeOfHeader T))).toOption

end Data

/-- Take the next `T` off the front of the ring. -/
def Ring.claimDst (T : Type) [GetSliceLen T] (b : Build) (ring : Ring) :
    Except Fault (Except ReadError (Data T) × Ring) :=
  match GetSliceLen.getSliceLen T b ring.buf with
  | .error f => .error f
  | .ok (.error err) => .ok (.error (.ofGetSliceLenErr err), ring)
  | .ok (.ok sliceLen) => do
      let dataByteLen ← b.mulUsize sliceLen (GetSliceLen.sizeOfData T)
      let size ← b.addUsize (GetSliceLen.sizeOfHeader T) dataByteLen
      let (buf, rest) ← ring.splitTo size
      return (Data.new buf, rest)

/-! ### Reading a message of fixed width -/

/-- `Ring::read`: copy out the value at the front. -/
def Ring.read {α : Type} (L : Layout α) (ring : Ring) : Except ReadError α × Ring :=
  if ring.len < L.width then (.error (.bufferShort (L.width - ring.len)), ring)
  else
    match L.decode (ring.buf.take L.width) with
    | none => (.error .corruptedData, ring)
    | some item => (.ok item, ⟨ring.buf.drop L.width, ring.capacity - L.width, by
        have hlen := ring.len_le
        rw [List.length_drop]
        omega⟩)

/-- What can be read of a stream that delivers the bytes `bs`. -/
def frontOf {α : Type} (L : Layout α) (bs : Bytes) : Except ReadError α :=
  if bs.length < L.width then .error (.bufferShort (L.width - bs.length))
  else
    match L.decode bs with
    | none => .error .corruptedData
    | some item => .ok item

theorem Ring.read_fst {α : Type} (L : Layout α) (ring : Ring) : (ring.read L).1 = frontOf L ring.buf := by
  unfold Ring.read frontOf
  by_cases hshort : ring.buf.length < L.width
  · rw [if_pos hshort, if_pos (show ring.len < L.width from hshort)]
    rfl
  · rw [if_neg hshort, if_neg (show ¬ ring.len < L.width from hshort),
      L.decode_take le_rfl (Nat.le_of_not_lt hshort)]
    cases L.decode ring.buf <;> rfl

/-- A read that succeeds takes the value off the front. -/
theorem Ring.read_ok {α : Type} {L : Layout α} {ring ring' : Ring} {item : α}
    (h : ring.read L = (.ok item, ring')) : L.width ≤ ring.buf.length ∧ ring'.buf = ring.buf.drop L.width := by
  unfold Ring.read at h
  split at h
  · cases h
  · next hlen =>
      split at h
      · cases h
      · cases h
        exact ⟨Nat.le_of_not_lt hlen, rfl⟩

/-- A prefix that is long enough reads as the whole. -/
theorem frontOf_mono {α : Type} (L : Layout α) {bs all : Bytes} (h : bs <+: all)
    (hlen : L.width ≤ bs.length) : frontOf L bs = frontOf L all := by
  obtain ⟨rest, rfl⟩ := h
  have hall : L.width ≤ (bs ++ rest).length := by
    rw [List.length_append]
    omega
  rw [frontOf, frontOf, if_neg (Nat.not_lt_of_le hlen), if_neg (Nat.not_lt_of_le hall), L.decode_append _ hlen]

theorem frontOf_encode {α : Type} (L : Layout α) (a : α) (rest : Bytes) :
    frontOf L (L.encode a ++ rest) = .ok a := by
  have hlen : ¬ (L.encode a ++ rest).length < L.width := by
    rw [List.length_append, L.length_encode]
    omega
  rw [frontOf, if_neg hlen, L.decode_encode]

theorem frontOf_of_lt {α : Type} (L : Layout α) {bs : Bytes} (h : bs.length < L.width) :
    frontOf L bs = .error (.bufferShort (L.width - bs.length)) := if_pos h

theorem lt_of_frontOf {α : Type} {L : Layout α} {bs : Bytes} {n : Nat}
    (h : frontOf L bs = .error (.bufferShort n)) : bs.length < L.width := by
  unfold frontOf at h
  split at h
  · assumption
  · split at h <;> cases h

/-- After an attempt to fill an empty ring, a read sees the front of what the stream delivers, unless an
I/O error came before there were enough bytes. -/
theorem Ring.read_of_fillUntil {α : Type} (L : Layout α) (a : Alloc) (rx : Reader) (cap : Nat)
    {numBytes : Nat} (hwidth : L.width ≤ numBytes) :
    match (Ring.withCapacity cap).fillUntil a rx numBytes with
    | (.error _, _, _) => rx.beforeError.length < numBytes ∧ rx.errors ≠ []
    | (.ok _, ring, _) =>
        (rx.errors = [] ∨ numBytes ≤ rx.beforeError.length) ∧ (ring.read L).1 = frontOf L rx.beforeError := by
  have hdelivered := fillUntil_delivered a (withCapacity cap) rx numBytes
  rcases hfill : (withCapacity cap).fillUntil a rx numBytes with ⟨_ | _ | _, ring, rx'⟩
  · rw [hfill] at hdelivered
    exact hdelivered
  · rw [hfill] at hdelivered
    obtain ⟨-, hnil, hbuf⟩ := hdelivered
    refine ⟨Or.inl hnil, ?_⟩
    rw [read_fst, hbuf]
    rfl
  · rw [hfill] at hdelivered
    obtain ⟨hle, hprefix⟩ := hdelivered
    refine ⟨Or.inr (hle.trans hprefix.length_le), ?_⟩
    rw [read_fst]
    exact frontOf_mono L hprefix (hwidth.trans hle)

end Qusb.Proto

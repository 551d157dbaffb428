import Mathlib.Data.List.Perm.Basic
import Qusb.Lend.Recv

/-! The allocator of buffers.

`BytesAllocator` hands out blocks of a few large allocations. A buffer of the queue is the part of an allocation that
is not handed out; a block is split off its front. What the crate of the buffers decides, whether it can reclaim room
and how, is the parameter `TryReclaim`; `Lawful` says what is relied on. No length is checked but against the size of
an allocation: that all buffers of the queue have length zero is what keeps the blocks in bounds. -/

namespace Qusb.Lend

/-- A handle to a part of an allocation: `cap` bytes from `start` on, the first `len` of which are in use. -/
structure BytesMut where
  alloc : Nat
  start : Nat
  len : Nat
  cap : Nat
  deriving DecidableEq, Repr

namespace BytesMut

/-- `set_len` is undefined beyond the capacity. -/
def setLen (b : BytesMut) (n : Nat) : Except Fault BytesMut :=
  if n ≤ b.cap then .ok { b with len := n } else .error .undefinedBehaviour

/-- The first bytes, and the rest. -/
def splitTo (b : BytesMut) (n : Nat) : Except Fault (BytesMut × BytesMut) :=
  if n ≤ b.len then .ok ({ b with len := n, cap := n }, ⟨b.alloc, b.start + n, b.len - n, b.cap - n⟩)
  else .error .splitOutOfRange

def Owns (b : BytesMut) (alloc i : Nat) : Prop := b.alloc = alloc ∧ b.start ≤ i ∧ i < b.start + b.cap

/-- No byte belongs to both. -/
def Apart (b c : BytesMut) : Prop := ∀ alloc i, b.Owns alloc i → ¬ c.Owns alloc i

def InBounds (room : Nat → Nat) (b : BytesMut) : Prop := b.len ≤ b.cap ∧ b.start + b.cap ≤ room b.alloc

end BytesMut

/-- What `try_reclaim` makes of a buffer that is to have room for so many more bytes, beside the other handles that
are alive: the buffer, if it returns true. -/
abbrev TryReclaim := List BytesMut → BytesMut → Nat → Option BytesMut

/-- There is room if it returns true, in the same allocation; and room that the buffer did not have is that of earlier
splits, which is reused only if no other handle to the allocation is alive. -/
structure Lawful (room : Nat → Nat) (tryReclaim : TryReclaim) : Prop where
  enough : ∀ {others b k b'}, tryReclaim others b k = some b' → b'.len + k ≤ b'.cap
  len : ∀ {others b k b'}, tryReclaim others b k = some b' → b'.len = b.len
  alloc : ∀ {others b k b'}, tryReclaim others b k = some b' → b'.alloc = b.alloc
  within : ∀ {others b k b'}, b.InBounds room → tryReclaim others b k = some b' → b'.InBounds room
  reuse : ∀ {others b k b'}, tryReclaim others b k = some b' →
    (∀ i, b'.Owns b.alloc i → b.Owns b.alloc i) ∨ ∀ c ∈ others, c.alloc ≠ b.alloc

def bufLen : Nat := 16 <<< 12

/-- The queue of the allocator, the blocks that are alive, and the number of allocations so far. -/
structure BytesAllocator where
  queue : List BytesMut
  live : List BytesMut
  allocs : Nat

namespace BytesAllocator

variable (room : Nat → Nat)

/-- `BytesMut::with_capacity(BUF_LEN)`: an allocation has room for that many bytes at least. -/
def buffer (alloc : Nat) : BytesMut := ⟨alloc, 0, 0, room alloc⟩

def withCapacity (capacity : Nat) : BytesAllocator := ⟨(List.range capacity).map (buffer room), [], capacity⟩

/-- The block at the front of a buffer with room for it, and the rest of the buffer. -/
def takeFront (b : BytesMut) (numBytes : Nat) : Except Fault (BytesMut × BytesMut) := do
  let b ← b.setLen numBytes
  b.splitTo numBytes

/-- The loop of `reserve`: each buffer is tried, and goes to the end of the queue if it cannot be reclaimed. -/
def tryQueue (tryReclaim : TryReclaim) (numBytes : Nat) (live : List BytesMut) :
    Nat → List BytesMut → Except Fault (Option BytesMut × List BytesMut)
  | 0, queue => .ok (none, queue)
  | _ + 1, [] => .error .unwrapNone
  | k + 1, b :: rest =>
      match tryReclaim (rest ++ live) b (numBytes - b.len) with
      | some b => do
          let (mem, b) ← takeFront b numBytes
          return (some mem, b :: rest)
      | none => tryQueue tryReclaim numBytes live k (rest ++ [b])

def reserve (a : BytesAllocator) (tryReclaim : TryReclaim) (numBytes : Nat) :
    Except Fault (BytesMut × BytesAllocator) := do
  assert (numBytes ≤ bufLen)
  let (found, queue) ← tryQueue tryReclaim numBytes a.live a.queue.length a.queue
  match found with
  | some mem => return (mem, { a with queue := queue, live := mem :: a.live })
  | none =>
      let (mem, b) ← takeFront (buffer room a.allocs) numBytes
      return (mem, ⟨b :: queue, mem :: a.live, a.allocs + 1⟩)

inductive Call where
  | reserve (numBytes : Nat) (tryReclaim : TryReclaim)
  | drop (index : Nat)

def step (a : BytesAllocator) : Call → Except Fault BytesAllocator
  | .reserve numBytes tryReclaim => (a.reserve room tryReclaim numBytes).map Prod.snd
  | .drop index => .ok { a with live := a.live.eraseIdx index }

/-! ### What holds between two calls -/

/-- All handles that are alive. -/
def handles (a : BytesAllocator) : List BytesMut := a.queue ++ a.live

structure Inv (a : BytesAllocator) : Prop where
  empty : ∀ b ∈ a.queue, b.len = 0
  inBounds : ∀ b ∈ a.handles, b.InBounds room
  old : ∀ b ∈ a.handles, b.alloc < a.allocs
  apart : a.handles.Pairwise BytesMut.Apart

/-- What a call of `reserve` has to do: a block of the length, in bounds and apart from all blocks that are alive; and a
new allocation only if no buffer of the queue can be reclaimed. -/
structure Served (tryReclaim : TryReclaim) (numBytes : Nat) (a : BytesAllocator) (mem : BytesMut)
    (a' : BytesAllocator) : Prop where
  len : mem.len = numBytes
  inBounds : mem.InBounds room
  live : a'.live = mem :: a.live
  apart : ∀ b ∈ a.live, mem.Apart b
  allocs : a'.allocs ≠ a.allocs → ∀ pre b post, a.queue = pre ++ b :: post →
    tryReclaim (post ++ pre ++ a.live) b numBytes = none

variable {room}

theorem apart_symm {b c : BytesMut} (h : b.Apart c) : c.Apart b := fun alloc i hc hb => h alloc i hb hc

theorem apart_of_alloc_ne {b c : BytesMut} (h : b.alloc ≠ c.alloc) : b.Apart c := by
  rintro alloc i ⟨rfl, -⟩ ⟨heq, -⟩
  exact h heq.symm

theorem apart_mono {b b' c : BytesMut} (hsub : ∀ alloc i, b'.Owns alloc i → b.Owns alloc i) (h : b.Apart c) :
    b'.Apart c := fun alloc i hb => h alloc i (hsub alloc i hb)

/-! ### A block off the front -/

/-- The first bytes of a buffer, all in use. -/
def front (b : BytesMut) (n : Nat) : BytesMut := ⟨b.alloc, b.start, n, n⟩

/-- What is left of it, none in use. -/
def rest (b : BytesMut) (n : Nat) : BytesMut := ⟨b.alloc, b.start + n, 0, b.cap - n⟩

theorem takeFront_eq {b : BytesMut} {n : Nat} (hroom : n ≤ b.cap) :
    takeFront b n = .ok (front b n, rest b n) := by
  simp [takeFront, front, rest, BytesMut.setLen, BytesMut.splitTo, hroom]

theorem owns_front {b : BytesMut} {n : Nat} (hroom : n ≤ b.cap) {alloc i : Nat}
    (h : (front b n).Owns alloc i) : b.Owns alloc i := by
  obtain ⟨halloc, hle, hlt⟩ := h
  exact ⟨halloc, hle, lt_of_lt_of_le hlt (Nat.add_le_add_left hroom _)⟩

theorem owns_rest {b : BytesMut} {n : Nat} (hroom : n ≤ b.cap) {alloc i : Nat}
    (h : (rest b n).Owns alloc i) : b.Owns alloc i := by
  obtain ⟨halloc, hle, hlt⟩ := h
  simp only [rest] at hle hlt
  exact ⟨halloc, by omega, by omega⟩

theorem front_apart_rest (b : BytesMut) (n : Nat) : (front b n).Apart (rest b n) := by
  rintro alloc i ⟨-, -, hlt⟩ ⟨-, hle, -⟩
  simp only [front, rest] at hlt hle
  omega

/-- Splitting a block off the front of a buffer keeps the handles as they have to be. -/
theorem pairwise_split {b : BytesMut} {n : Nat} (hroom : n ≤ b.cap) {others : List BytesMut}
    (h : (b :: others).Pairwise BytesMut.Apart) :
    (front b n :: rest b n :: others).Pairwise BytesMut.Apart := by
  obtain ⟨hb, hothers⟩ := List.pairwise_cons.mp h
  have hrest : ∀ c ∈ others, (rest b n).Apart c :=
    fun c hc => apart_mono (fun _ _ => owns_rest hroom) (hb c hc)
  have hfront : ∀ c ∈ others, (front b n).Apart c :=
    fun c hc => apart_mono (fun _ _ => owns_front hroom) (hb c hc)
  exact List.pairwise_cons.mpr ⟨List.forall_mem_cons.mpr ⟨front_apart_rest b n, hfront⟩,
    List.pairwise_cons.mpr ⟨hrest, hothers⟩⟩

/-! ### The loop -/

/-- The first buffer that can be reclaimed gives the block; if there is none, the queue is as it was. -/
theorem tryQueue_cases {tryReclaim : TryReclaim} (hlawful : Lawful room tryReclaim) (n : Nat) (live pre : List BytesMut)
    {post : List BytesMut} (hempty : ∀ b ∈ post, b.len = 0) :
    (tryQueue tryReclaim n live post.length (post ++ pre) = .ok (none, pre ++ post) ∧
      ∀ mid b after, post = mid ++ b :: after → tryReclaim (after ++ (pre ++ mid) ++ live) b n = none) ∨
    ∃ mid b after b', post = mid ++ b :: after ∧ tryReclaim (after ++ (pre ++ mid) ++ live) b n = some b' ∧
      b'.len = 0 ∧ n ≤ b'.cap ∧
      tryQueue tryReclaim n live post.length (post ++ pre) =
        .ok (some (front b' n), rest b' n :: (after ++ (pre ++ mid))) := by
  induction post generalizing pre with
  | nil =>
      refine .inl ⟨by simp [tryQueue], fun mid b after h => ?_⟩
      simp at h
  | cons b post ih =>
      obtain ⟨hb, hempty'⟩ := List.forall_mem_cons.mp hempty
      have hadditional : n - b.len = n := by rw [hb, Nat.sub_zero]
      cases hreclaim : tryReclaim (post ++ pre ++ live) b n with
      | some b' =>
          have hlen : b'.len = 0 := (hlawful.len hreclaim).trans hb
          have hroom : n ≤ b'.cap := by
            have henough := hlawful.enough hreclaim
            omega
          refine .inr ⟨[], b, post, b', rfl, by simpa using hreclaim, hlen, hroom, ?_⟩
          rw [List.length_cons, List.cons_append, tryQueue, hadditional, hreclaim]
          simp only [takeFront_eq hroom, ok_bind, List.append_nil]
          rfl
      | none =>
          have hstep : tryQueue tryReclaim n live (b :: post).length ((b :: post) ++ pre) =
              tryQueue tryReclaim n live post.length (post ++ (pre ++ [b])) := by
            rw [List.length_cons, List.cons_append, tryQueue, hadditional, hreclaim, List.append_assoc]
          rcases ih (pre ++ [b]) hempty' with ⟨hnone, hall⟩ | ⟨mid, c, after, b', rfl, hsome, hlen, hroom, hrun⟩
          · refine .inl ⟨?_, fun mid c after heq => ?_⟩
            · rw [hstep, hnone, List.append_assoc]
              rfl
            · cases mid with
              | nil =>
                  cases heq
                  simpa using hreclaim
              | cons d mid =>
                  cases heq
                  have hnone := hall mid c after rfl
                  simpa using hnone
          · refine .inr ⟨b :: mid, c, after, b', rfl, by simpa using hsome, hlen, hroom, ?_⟩
            rw [hstep, hrun]
            simp

/-! ### A call -/

/-- A buffer that is reclaimed stays apart from the other handles. -/
theorem apart_reclaimed {tryReclaim : TryReclaim} (hlawful : Lawful room tryReclaim) {others : List BytesMut}
    {b b' : BytesMut} {k : Nat} (hreclaim : tryReclaim others b k = some b') {c : BytesMut} (hc : c ∈ others)
    (hapart : b.Apart c) : b'.Apart c := by
  have halloc := hlawful.alloc hreclaim
  rcases hlawful.reuse hreclaim with hsub | hother
  · refine apart_mono (fun alloc i howns => ?_) hapart
    obtain rfl : b.alloc = alloc := halloc.symm.trans howns.1
    exact hsub i howns
  · refine apart_of_alloc_ne ?_
    rw [halloc]
    exact (hother c hc).symm

theorem inv_withCapacity (capacity : Nat) : Inv room (withCapacity room capacity) where
  empty b hb := by
    obtain ⟨alloc, -, rfl⟩ := List.mem_map.mp hb
    rfl
  inBounds b hb := by
    rw [handles, withCapacity, List.append_nil] at hb
    obtain ⟨alloc, -, rfl⟩ := List.mem_map.mp hb
    exact ⟨Nat.zero_le _, (Nat.zero_add _).le⟩
  old b hb := by
    rw [handles, withCapacity, List.append_nil] at hb
    obtain ⟨alloc, halloc, rfl⟩ := List.mem_map.mp hb
    exact List.mem_range.mp halloc
  apart := by
    rw [handles, withCapacity, List.append_nil, List.pairwise_map]
    exact List.pairwise_lt_range.imp fun hlt => apart_of_alloc_ne (Nat.ne_of_lt hlt)

theorem inv_drop {a : BytesAllocator} (h : Inv room a) (index : Nat) :
    Inv room { a with live := a.live.eraseIdx index } := by
  have hsub : (a.queue ++ a.live.eraseIdx index).Sublist a.handles :=
    List.Sublist.append (List.Sublist.refl _) (List.eraseIdx_sublist _ _)
  exact ⟨h.empty, fun b hb => h.inBounds b (hsub.subset hb), fun b hb => h.old b (hsub.subset hb), h.apart.sublist hsub⟩

/-- A block off the front of a buffer, and the rest in its place, keep the invariant of all handles. -/
theorem inv_split {b : BytesMut} {n : Nat} (hroom : n ≤ b.cap)
    (hb : b.InBounds room) {queue live : List BytesMut} {allocs : Nat}
    (hempty : ∀ c ∈ queue, c.len = 0) (hinBounds : ∀ c ∈ queue ++ live, c.InBounds room)
    (hold : ∀ c ∈ b :: (queue ++ live), c.alloc < allocs) (hapart : (b :: (queue ++ live)).Pairwise BytesMut.Apart) :
    Inv room ⟨rest b n :: queue, front b n :: live, allocs⟩ := by
  have hperm : (rest b n :: queue ++ front b n :: live).Perm (front b n :: rest b n :: (queue ++ live)) :=
    List.perm_middle
  obtain ⟨-, hend⟩ := hb
  obtain ⟨hbold, hothers⟩ := List.forall_mem_cons.mp hold
  refine ⟨List.forall_mem_cons.mpr ⟨rfl, hempty⟩, fun c hc => ?_, fun c hc => ?_, ?_⟩
  · rcases List.mem_cons.mp (hperm.mem_iff.mp hc) with rfl | hc
    · refine ⟨le_rfl, ?_⟩
      show b.start + n ≤ room b.alloc
      omega
    · rcases List.mem_cons.mp hc with rfl | hc
      · refine ⟨Nat.zero_le _, ?_⟩
        show b.start + n + (b.cap - n) ≤ room b.alloc
        omega
      · exact hinBounds c hc
  · rcases List.mem_cons.mp (hperm.mem_iff.mp hc) with rfl | hc
    · exact hbold
    · rcases List.mem_cons.mp hc with rfl | hc
      · exact hbold
      · exact hothers c hc
  · exact (hperm.pairwise_iff apart_symm).mpr (pairwise_split hroom hapart)

/-- The block that was handed out last is in bounds and apart from the others. -/
theorem head_apart {mem : BytesMut} {queue live : List BytesMut} {allocs : Nat}
    (h : Inv room ⟨queue, mem :: live, allocs⟩) : mem.InBounds room ∧ ∀ b ∈ live, mem.Apart b := by
  have hlive : (mem :: live).Pairwise BytesMut.Apart := (List.pairwise_append.mp h.apart).2.1
  exact ⟨h.inBounds mem (List.mem_append_right _ List.mem_cons_self), (List.pairwise_cons.mp hlive).1⟩

/-- **A call of `reserve`** goes through, serves the request and keeps the invariant. -/
theorem reserve_served (hroom : ∀ alloc, bufLen ≤ room alloc) {a : BytesAllocator} (h : Inv room a)
    {tryReclaim : TryReclaim} (hlawful : Lawful room tryReclaim) {n : Nat} (hn : n ≤ bufLen) :
    ∃ mem a', a.reserve room tryReclaim n = .ok (mem, a') ∧ Inv room a' ∧ Served room tryReclaim n a mem a' := by
  have hassert : assert (n ≤ bufLen) = .ok () := if_pos hn
  have hcases := tryQueue_cases hlawful n a.live [] h.empty
  simp only [List.append_nil, List.nil_append] at hcases
  rcases hcases with ⟨hrun, hall⟩ | ⟨mid, b, after, b', hqueue, hreclaim, hlen, hcap, hrun⟩
  · -- no buffer can be reclaimed: the block is of a new allocation, which no other handle has
    have hfits : n ≤ (buffer room a.allocs).cap := hn.trans (hroom a.allocs)
    have hnew : ∀ c ∈ a.handles, (buffer room a.allocs).Apart c :=
      fun c hc => apart_of_alloc_ne (Nat.ne_of_gt (h.old c hc))
    have hinv := inv_split hfits ⟨Nat.zero_le _, (Nat.zero_add _).le⟩ h.empty h.inBounds
      (List.forall_mem_cons.mpr ⟨Nat.lt_succ_self _, fun c hc => Nat.lt_succ_of_lt (h.old c hc)⟩)
      (List.pairwise_cons.mpr ⟨hnew, h.apart⟩)
    refine ⟨_, _, ?_, hinv, rfl, (head_apart hinv).1, rfl, (head_apart hinv).2, fun _ => hall⟩
    rw [reserve, hassert, ok_bind, hrun, ok_bind]
    simp only [takeFront_eq hfits, ok_bind]
    rfl
  · -- the buffer that is reclaimed takes the place of the one that was in the queue
    have hrotate : a.queue.Perm (b :: (after ++ mid)) := by
      rw [hqueue]
      exact List.perm_append_comm
    have hperm : a.handles.Perm (b :: (after ++ mid ++ a.live)) := hrotate.append_right a.live
    have hothers : ∀ c ∈ after ++ mid ++ a.live, c ∈ a.handles :=
      fun c hc => hperm.mem_iff.mpr (List.mem_cons_of_mem _ hc)
    have hb : b ∈ a.handles := hperm.mem_iff.mpr List.mem_cons_self
    have hwithin := hlawful.within (h.inBounds b hb) hreclaim
    obtain ⟨hbapart, hrest⟩ := List.pairwise_cons.mp ((hperm.pairwise_iff apart_symm).mp h.apart)
    have hempty : ∀ c ∈ after ++ mid, c.len = 0 :=
      fun c hc => h.empty c (hrotate.mem_iff.mpr (List.mem_cons_of_mem _ hc))
    have hold : b'.alloc < a.allocs := hlawful.alloc hreclaim ▸ h.old b hb
    have hinv := inv_split hcap hwithin hempty (fun c hc => h.inBounds c (hothers c hc))
      (List.forall_mem_cons.mpr ⟨hold, fun c hc => h.old c (hothers c hc)⟩)
      (List.pairwise_cons.mpr ⟨fun c hc => apart_reclaimed hlawful hreclaim hc (hbapart c hc), hrest⟩)
    refine ⟨_, _, ?_, hinv, rfl, (head_apart hinv).1, rfl, (head_apart hinv).2, fun hne => absurd rfl hne⟩
    rw [reserve, hassert, ok_bind, hrun, ok_bind]
    rfl

/-! ### Any sequence of calls -/

/-- What the callers keep to, and what the crate of the buffers promises. -/
def Allowed (room : Nat → Nat) : Call → Prop
  | .reserve numBytes tryReclaim => numBytes ≤ bufLen ∧ Lawful room tryReclaim
  | .drop _ => True

theorem inv_step (hroom : ∀ alloc, bufLen ≤ room alloc) {a : BytesAllocator} (h : Inv room a) {call : Call}
    (hcall : Allowed room call) : ∃ a', step room a call = .ok a' ∧ Inv room a' := by
  cases call with
  | reserve n tryReclaim =>
      obtain ⟨mem, a', hok, hinv, -⟩ := reserve_served hroom h hcall.2 hcall.1
      exact ⟨a', by rw [step, hok]; rfl, hinv⟩
  | drop index => exact ⟨_, rfl, inv_drop h index⟩

/-- **The allocator hands out disjoint blocks in bounds**: any sequence of calls goes through, so no length is set
beyond a capacity; the buffers of its queue have length zero, the blocks that are alive are in bounds and apart, and
a further call of `reserve` is served. -/
theorem blocks_apart (room : Nat → Nat) (hroom : ∀ alloc, bufLen ≤ room alloc) (capacity : Nat) (calls : List Call)
    (hcalls : ∀ call ∈ calls, Allowed room call) :
    ∃ a, Runs.run (step room) (withCapacity room capacity) calls = .ok a ∧
      (∀ b ∈ a.queue, b.len = 0) ∧ (∀ b ∈ a.live, b.InBounds room) ∧ a.live.Pairwise BytesMut.Apart ∧
      ∀ numBytes tryReclaim, Allowed room (.reserve numBytes tryReclaim) →
        ∃ mem a', a.reserve room tryReclaim numBytes = .ok (mem, a') ∧ Served room tryReclaim numBytes a mem a' := by
  obtain ⟨a, hrun, hinv⟩ := Runs.run_ok_of_inv (inv_withCapacity capacity) hcalls fun _ _ hinv hcall =>
    inv_step hroom hinv hcall
  refine ⟨a, hrun, hinv.empty, fun b hb => hinv.inBounds b (List.mem_append_right _ hb),
    (List.pairwise_append.mp hinv.apart).2.1, fun n tryReclaim hcall => ?_⟩
  obtain ⟨mem, a', hok, -, hserved⟩ := reserve_served hroom hinv hcall.2 hcall.1
  exact ⟨mem, a', hok, hserved⟩

/-- What `BytesMut` does: the room behind the buffer, or all of an allocation to which there is no other handle. -/
def tryReclaimFront (room : Nat → Nat) : TryReclaim := fun others b k =>
  if b.len + k ≤ b.cap then some b
  else if (∀ c ∈ others, c.alloc ≠ b.alloc) ∧ b.len + k ≤ room b.alloc then some ⟨b.alloc, 0, b.len, room b.alloc⟩
  else none

theorem tryReclaimFront_eq_some {others : List BytesMut} {b b' : BytesMut} {k : Nat}
    (h : tryReclaimFront room others b k = some b') :
    (b.len + k ≤ b.cap ∧ b' = b) ∨
      ((∀ c ∈ others, c.alloc ≠ b.alloc) ∧ b.len + k ≤ room b.alloc ∧ b' = ⟨b.alloc, 0, b.len, room b.alloc⟩) := by
  unfold tryReclaimFront at h
  split at h
  · next hcap => exact .inl ⟨hcap, (Option.some.inj h).symm⟩
  · split at h
    · next hreuse => exact .inr ⟨hreuse.1, hreuse.2, (Option.some.inj h).symm⟩
    · cases h

theorem lawful_tryReclaimFront (room : Nat → Nat) : Lawful room (tryReclaimFront room) where
  enough h := by
    obtain ⟨hcap, rfl⟩ | ⟨-, hroom, rfl⟩ := tryReclaimFront_eq_some h
    · exact hcap
    · exact hroom
  len h := by obtain ⟨-, rfl⟩ | ⟨-, -, rfl⟩ := tryReclaimFront_eq_some h <;> rfl
  alloc h := by obtain ⟨-, rfl⟩ | ⟨-, -, rfl⟩ := tryReclaimFront_eq_some h <;> rfl
  within hb h := by
    obtain ⟨-, rfl⟩ | ⟨-, hroom, rfl⟩ := tryReclaimFront_eq_some h
    · exact hb
    · exact ⟨(Nat.le_add_right _ _).trans hroom, (Nat.zero_add _).le⟩
  reuse h := by
    obtain ⟨-, rfl⟩ | ⟨hother, -, rfl⟩ := tryReclaimFront_eq_some h
    · exact .inl fun _ howns => howns
    · exact .inr hother

/-- The second block does not fit behind the first, so it is of a new allocation; the first is given back. -/
theorem given_back_apart :
    ∃ a, Runs.run (step fun _ => 65536) (withCapacity (fun _ => 65536) 1)
        [.reserve 40000 (tryReclaimFront fun _ => 65536), .reserve 30000 (tryReclaimFront fun _ => 65536), .drop 1] =
          .ok a ∧
      (∀ b ∈ a.queue, b.len = 0) ∧ a.live.Pairwise BytesMut.Apart := by
  have hlawful := lawful_tryReclaimFront fun _ => 65536
  obtain ⟨a, hrun, hempty, -, hapart, -⟩ := blocks_apart (fun _ => 65536) (fun _ => by decide) 1
    [.reserve 40000 (tryReclaimFront fun _ => 65536), .reserve 30000 (tryReclaimFront fun _ => 65536), .drop 1]
    (by simp [Allowed, bufLen, hlawful])
  exact ⟨a, hrun, hempty, hapart⟩

/-- A call after that has the room of the first block again. -/
example :
    (do let a ← Runs.run (step fun _ => 65536) (withCapacity (fun _ => 65536) 1)
          [.reserve 40000 (tryReclaimFront fun _ => 65536), .reserve 30000 (tryReclaimFront fun _ => 65536), .drop 1]
        let (mem, a) ← a.reserve (fun _ => 65536) (tryReclaimFront fun _ => 65536) 50000
        return (mem, a.allocs)) = .ok (⟨0, 0, 50000, 50000⟩, 2) := by
  decide +kernel

/-- The lender reads of a call that it fails exactly at the assertion. -/
theorem reserve_map (hroom : ∀ alloc, bufLen ≤ room alloc) {a : BytesAllocator} (h : Inv room a)
    {tryReclaim : TryReclaim} (hlawful : Lawful room tryReclaim) (n : Nat) :
    (a.reserve room tryReclaim n).map (fun _ => ()) = Lend.reserve n := by
  by_cases hn : n ≤ bufLen
  · obtain ⟨mem, a', hok, -, -⟩ := reserve_served hroom h hlawful hn
    rw [hok]
    exact (reserve_ok hn).symm
  · have hassert : assert (n ≤ bufLen) = .error .assertFailed := if_neg hn
    rw [reserve, hassert]
    exact hassert.symm

end BytesAllocator
end Qusb.Lend

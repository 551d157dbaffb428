import Qusb.Proto.Data

/-! Filling a buffer, from any reader.

`Ring.fillUntil` reads a script. Here the loop runs against any reader, on any buffers that do what `BytesMut` is
documented to do: a read takes the buffer out, splits it behind its contents, is given the rest, and joins the two
again. Whether there is room is tested with a sum of two lengths, which may overflow: only then can a read be given
no room, and what it returns be mistaken for the end of the stream. -/

open ByteCodec

namespace Qusb.Proto

/-- The buffers. `split` gives the contents, and the buffer without them; `put` is what a read does to the buffer that
it is given. -/
structure BytesMut (H : Type) where
  contents : H → Bytes
  capacity : H → Nat
  reserve : H → Nat → H
  split : H → H × H
  unsplit : H → H → H
  put : H → Bytes → H
  contents_reserve : ∀ h n, contents (reserve h n) = contents h
  le_reserve : ∀ h n, (contents h).length + n ≤ capacity (reserve h n)
  capacity_le_reserve : ∀ h n, capacity h ≤ capacity (reserve h n)
  contents_split : ∀ h, contents (split h).1 = contents h ∧ contents (split h).2 = []
  capacity_split : ∀ h, (contents h).length + capacity (split h).2 = capacity h
  contents_put : ∀ h bs, (contents h).length + bs.length ≤ capacity h → contents (put h bs) = contents h ++ bs
  contents_unsplit : ∀ h h', contents (unsplit h h') = contents h ++ contents h'
  capacity_unsplit : ∀ h bs, bs.length ≤ capacity (split h).2 →
    capacity (unsplit (split h).1 (put (split h).2 bs)) = capacity h

namespace BytesMut

variable {H : Type} (m : BytesMut H)

def len (h : H) : Nat := (m.contents h).length

def spare (h : H) : Nat := m.capacity h - m.len h

theorem len_le (h : H) : m.len h ≤ m.capacity h := m.capacity_split h ▸ Nat.le_add_right _ _

theorem len_append {m : BytesMut H} {h h' : H} {bs : Bytes} (happ : m.contents h' = m.contents h ++ bs) :
    m.len h' = m.len h + bs.length :=
  (congrArg List.length happ).trans List.length_append

end BytesMut

/-- A reader: what a read into so much room returns. No bytes mean the end of the stream, or no room. -/
structure AsyncRead (σ : Type) where
  read : σ → Nat → Except IoError Bytes × σ
  fits : ∀ s spare bs, (read s spare).1 = .ok bs → bs.length ≤ spare

/-- The buffer of a `Ring`, which is away while a read is under way. -/
structure Buf (H : Type) where
  inner : Option H

namespace Buf

variable {H σ : Type}

def withOwnedAsync {T : Type} (buf : Buf H) (f : H → H × T) : Except Fault (T × Buf H) :=
  match buf.inner with
  | none => .error .expectNone
  | some h => .ok ((f h).2, ⟨some (f h).1⟩)

def fillWithReader (m : BytesMut H) (rx : AsyncRead σ) (buf : Buf H) (s : σ) :
    Except Fault ((Except IoError Nat × σ) × Buf H) :=
  buf.withOwnedAsync fun h =>
    let (start, rest) := m.split h
    match rx.read s (m.spare rest) with
    | (.ok bs, s') => (m.unsplit start (m.put rest bs), (.ok bs.length, s'))
    | (.error e, s') => (m.unsplit start rest, (.error e, s'))

/-- Room is made if the capacity is below the bound. -/
def makeRoom (m : BytesMut H) (h : H) (bound : Nat) : H :=
  if m.capacity h < bound then m.reserve h Ring.extra else h

/-- The body of the loop of `fill_until`. -/
def turn (m : BytesMut H) (rx : AsyncRead σ) (b : Build) (numBytes : Nat) (h : H) (s : σ) :
    Except Fault ((Except IoError Nat × σ) × Buf H) := do
  let bound ← b.addUsize (m.len h) numBytes
  fillWithReader m rx ⟨some (makeRoom m h bound)⟩ s

/-- The number of bytes that are held. -/
def held (m : BytesMut H) (buf : Buf H) : Nat := (buf.inner.map m.len).getD 0

theorem spare_split (m : BytesMut H) (h : H) : m.spare (m.split h).2 = m.spare h := by
  have hcap := m.capacity_split h
  have hnil := (m.contents_split h).2
  unfold BytesMut.spare BytesMut.len
  rw [hnil, List.length_nil]
  omega

/-- What is read is behind what was there; the room is what the buffer had. -/
theorem fillWithReader_some (m : BytesMut H) (rx : AsyncRead σ) (h : H) (s : σ) :
    ∃ h', fillWithReader m rx ⟨some h⟩ s =
        .ok (((rx.read s (m.spare h)).1.map List.length, (rx.read s (m.spare h)).2), ⟨some h'⟩) ∧
      match (rx.read s (m.spare h)).1 with
      | .ok bs => m.contents h' = m.contents h ++ bs ∧ m.capacity h' = m.capacity h
      | .error _ => m.contents h' = m.contents h := by
  obtain ⟨hfst, hsnd⟩ := m.contents_split h
  unfold fillWithReader withOwnedAsync
  simp only [spare_split]
  cases hread : rx.read s (m.spare h) with
  | mk result s' =>
      cases result with
      | ok bs =>
          have hfits : bs.length ≤ m.spare h := rx.fits s _ bs (congrArg Prod.fst hread)
          have hcap := m.capacity_split h
          have hrest : bs.length ≤ m.capacity (m.split h).2 := by
            unfold BytesMut.spare BytesMut.len at hfits
            omega
          refine ⟨m.unsplit (m.split h).1 (m.put (m.split h).2 bs), rfl, ?_, m.capacity_unsplit h bs hrest⟩
          rw [m.contents_unsplit, hfst, m.contents_put _ _ (by rw [hsnd, List.length_nil, Nat.zero_add]; exact hrest),
            hsnd, List.nil_append]
      | error e =>
          refine ⟨m.unsplit (m.split h).1 (m.split h).2, rfl, ?_⟩
          show m.contents (m.unsplit (m.split h).1 (m.split h).2) = m.contents h
          rw [m.contents_unsplit, hfst, hsnd, List.append_nil]

theorem contents_makeRoom (m : BytesMut H) (h : H) (bound : Nat) : m.contents (makeRoom m h bound) = m.contents h := by
  unfold makeRoom
  split
  · exact m.contents_reserve h _
  · rfl

theorem len_makeRoom (m : BytesMut H) (h : H) (bound : Nat) : m.len (makeRoom m h bound) = m.len h :=
  congrArg List.length (contents_makeRoom m h bound)

/-- A turn, if the sum goes through. -/
theorem turn_ok (m : BytesMut H) (rx : AsyncRead σ) {b : Build} {numBytes bound : Nat} {h : H}
    (hbound : b.addUsize (m.len h) numBytes = .ok bound) (s : σ) :
    ∃ h', turn m rx b numBytes h s =
        .ok (((rx.read s (m.spare (makeRoom m h bound))).1.map List.length,
          (rx.read s (m.spare (makeRoom m h bound))).2), ⟨some h'⟩) ∧
      match (rx.read s (m.spare (makeRoom m h bound))).1 with
      | .ok bs => m.contents h' = m.contents h ++ bs ∧ m.capacity h' = m.capacity (makeRoom m h bound)
      | .error _ => m.contents h' = m.contents h := by
  obtain ⟨h', hfill, hbytes⟩ := fillWithReader_some m rx (makeRoom m h bound) s
  rw [contents_makeRoom] at hbytes
  refine ⟨h', ?_, hbytes⟩
  rw [turn, hbound, ok_bind, hfill]

/-- A turn that brings bytes leaves more held. -/
theorem turn_held {m : BytesMut H} {rx : AsyncRead σ} {b : Build} {numBytes n : Nat} {h : H} {s s' : σ} {buf : Buf H}
    (hturn : turn m rx b numBytes h s = .ok ((.ok n, s'), buf)) : held m buf = m.len h + n := by
  obtain ⟨bound, hbound, -⟩ := bind_eq_ok_iff.mp hturn
  obtain ⟨h', hok, hbytes⟩ := turn_ok m rx hbound s
  rw [hok] at hturn
  cases hread : (rx.read s (m.spare (makeRoom m h bound))).1 with
  | error e =>
      rw [hread] at hturn
      cases hturn
  | ok bs =>
      rw [hread] at hturn hbytes
      cases hturn
      exact BytesMut.len_append hbytes.1

def fillUntil (m : BytesMut H) (rx : AsyncRead σ) (b : Build) (numBytes : Nat) (buf : Buf H) (s : σ) :
    Except Fault (Except IoError (Option Unit) × Buf H × σ) :=
  match _hbuf : buf.inner with
  | none => .error .unwrapNone
  | some h =>
      if _hlt : numBytes > m.len h then
        match _hturn : turn m rx b numBytes h s with
        | .error f => .error f
        | .ok ((.error e, s'), buf') => .ok (.error e, buf', s')
        | .ok ((.ok n, s'), buf') =>
            if _hn : n = 0 then .ok (.ok none, buf', s') else fillUntil m rx b numBytes buf' s'
      else .ok (.ok (some ()), buf, s)
termination_by numBytes - held m buf
decreasing_by
  rw [turn_held _hturn, held, _hbuf, Option.map_some, Option.getD_some]
  omega

theorem fillUntil_of_le {m : BytesMut H} {rx : AsyncRead σ} {b : Build} {numBytes : Nat} {h : H}
    (hge : numBytes ≤ m.len h) (s : σ) :
    fillUntil m rx b numBytes ⟨some h⟩ s = .ok (.ok (some ()), ⟨some h⟩, s) := by
  rw [fillUntil]
  exact dif_neg (Nat.not_lt_of_le hge)

/-- As long as bytes are missing there is a turn, and the call goes on from it unless it brought none. -/
theorem fillUntil_turn {m : BytesMut H} {rx : AsyncRead σ} {b : Build} {numBytes : Nat} {h : H}
    (hlt : m.len h < numBytes) (s : σ) :
    fillUntil m rx b numBytes ⟨some h⟩ s = turn m rx b numBytes h s >>= fun r =>
      match r.1.1 with
      | .error e => .ok (.error e, r.2, r.1.2)
      | .ok n => if n = 0 then .ok (.ok none, r.2, r.1.2) else fillUntil m rx b numBytes r.2 r.1.2 := by
  rw [fillUntil]
  simp only [dif_pos hlt]
  split
  · next hturn => rw [hturn, error_bind]
  · next hturn => rw [hturn, ok_bind]
  · next hturn =>
      rw [hturn, ok_bind]
      simp only [dite_eq_ite]

end Buf

/-! ### What a call has to do -/

/-- A read of a call: the room that it was given, and what it returned. -/
structure Read where
  spare : Nat
  result : Except IoError Bytes

/-- The bytes that it brought. -/
def Read.bytes (r : Read) : Bytes :=
  match r.result with
  | .ok bs => bs
  | .error _ => []

/-- The reader with a record of its reads. -/
def AsyncRead.logged {σ : Type} (rx : AsyncRead σ) : AsyncRead (σ × List Read) where
  read s spare := ((rx.read s.1 spare).1, (rx.read s.1 spare).2, s.2 ++ [⟨spare, (rx.read s.1 spare).1⟩])
  fits s spare bs h := rx.fits s.1 spare bs h

/-- What a call has to do that starts from `h` and leaves `h'`: every read has room, what the reads bring is behind
what was there, and the call succeeds only with enough bytes, reports the end of the stream only if the last read
does, and an error only if that fails. There is at most a read for each byte that is missing. -/
structure Exact {H : Type} (m : BytesMut H) (numBytes : Nat) (h h' : H) (reads : List Read)
    (result : Except IoError (Option Unit)) : Prop where
  room : ∀ r ∈ reads, 0 < r.spare
  appended : m.contents h' = m.contents h ++ reads.flatMap Read.bytes
  enough : result = .ok (some ()) → numBytes ≤ m.len h'
  ended : result = .ok none → ∃ r, reads.getLast? = some r ∧ r.result = .ok []
  failed : ∀ e, result = .error e → ∃ r, reads.getLast? = some r ∧ r.result = .error e
  turns : reads.length ≤ numBytes - m.len h

/-- A call for so many bytes returns and does what it has to, on any buffer with the contents and the capacity of the
ring, whatever the reader does. -/
def FillsExactly (b : Build) (ring : Ring) (numBytes : Nat) : Prop :=
  ∀ {H : Type} (m : BytesMut H) (h : H), m.contents h = ring.buf → m.capacity h = ring.capacity →
    ∀ {σ : Type} (rx : AsyncRead σ) (s : σ), ∃ result h' s' reads,
      Buf.fillUntil m rx.logged b numBytes ⟨some h⟩ (s, []) = .ok (result, ⟨some h'⟩, (s', reads)) ∧
        Exact m numBytes h h' reads result

namespace Exact

variable {H : Type} {m : BytesMut H} {numBytes : Nat} {h h₁ h' : H}

theorem of_le (hge : numBytes ≤ m.len h) : Exact m numBytes h h [] (.ok (some ())) where
  room := fun _ hmem => nomatch hmem
  appended := (List.append_nil _).symm
  enough := fun _ => hge
  ended := fun heq => nomatch heq
  failed := fun _ heq => nomatch heq
  turns := Nat.zero_le _

/-- A read that brings nothing is the last one, and decides. -/
theorem last {r : Read} {result : Except IoError (Option Unit)} (hroom : 0 < r.spare) (hlt : m.len h < numBytes)
    (hsame : m.contents h' = m.contents h)
    (hresult : r.result = .ok [] ∧ result = .ok none ∨ ∃ e, r.result = .error e ∧ result = .error e) :
    Exact m numBytes h h' [r] result where
  room := fun _ hmem => List.mem_singleton.mp hmem ▸ hroom
  appended := by
    have hnil : r.bytes = [] := by
      rcases hresult with ⟨hread, -⟩ | ⟨e, hread, -⟩ <;> rw [Read.bytes, hread]
    rw [hsame, List.flatMap_singleton, hnil, List.append_nil]
  enough := by
    rintro rfl
    rcases hresult with ⟨-, heq⟩ | ⟨e, -, heq⟩ <;> cases heq
  ended := by
    rintro rfl
    rcases hresult with ⟨hread, -⟩ | ⟨e, -, heq⟩
    · exact ⟨r, rfl, hread⟩
    · cases heq
  failed := by
    rintro e rfl
    rcases hresult with ⟨-, heq⟩ | ⟨e', hread, heq⟩
    · cases heq
    · cases heq
      exact ⟨r, rfl, hread⟩
  turns := Nat.sub_pos_of_lt hlt

theorem getLast?_cons {reads : List Read} {r last : Read} (hlast : reads.getLast? = some last) :
    (r :: reads).getLast? = some last := by
  rw [List.getLast?_cons, hlast, Option.getD_some]

/-- A read that brings bytes is followed by a call for the bytes that are still missing. -/
theorem cons {r : Read} {reads : List Read} {result : Except IoError (Option Unit)} (hroom : 0 < r.spare)
    (hlt : m.len h < numBytes) (hne : r.bytes ≠ []) (happ : m.contents h₁ = m.contents h ++ r.bytes)
    (hrest : Exact m numBytes h₁ h' reads result) : Exact m numBytes h h' (r :: reads) result where
  room := List.forall_mem_cons.mpr ⟨hroom, hrest.room⟩
  appended := by rw [hrest.appended, happ, List.append_assoc, List.flatMap_cons]
  enough := hrest.enough
  ended := fun heq => (hrest.ended heq).imp fun _ hlast => ⟨getLast?_cons hlast.1, hlast.2⟩
  failed := fun e heq => (hrest.failed e heq).imp fun _ hlast => ⟨getLast?_cons hlast.1, hlast.2⟩
  turns := by
    have hlen := BytesMut.len_append happ
    have hpos := List.length_pos_iff.mpr hne
    have hturns := hrest.turns
    rw [List.length_cons]
    omega

end Exact

/-- The sum of the capacity test does not overflow before there are enough bytes, or (without overflow checks) there is
room for all of them by then. -/
def Roomy (b : Build) (len capacity numBytes : Nat) : Prop :=
  numBytes ≤ 2 ^ 63 ∨
    match b with
    | .dev => numBytes ≤ len
    | .release => numBytes ≤ capacity ∨ (len + numBytes < 2 ^ 64 ∧ numBytes ≤ len + Ring.extra)

instance (b : Build) (len capacity numBytes : Nat) : Decidable (Roomy b len capacity numBytes) :=
  match b with
  | .dev => inferInstanceAs (Decidable (_ ∨ _))
  | .release => inferInstanceAs (Decidable (_ ∨ _ ∨ _ ∧ _))

namespace Buf

variable {H σ : Type}

/-! ### Calls with room -/

theorem capacity_le_makeRoom (m : BytesMut H) (h : H) (bound : Nat) :
    m.capacity h ≤ m.capacity (makeRoom m h bound) := by
  unfold makeRoom
  split
  · exact m.capacity_le_reserve h _
  · exact le_rfl

/-- If the sum does not overflow, room is made for all that is missing, or for the extra bytes. -/
theorem makeRoom_sum (m : BytesMut H) (h : H) (numBytes : Nat) :
    m.len h + numBytes ≤ m.capacity (makeRoom m h (m.len h + numBytes)) ∨
      m.len h + Ring.extra ≤ m.capacity (makeRoom m h (m.len h + numBytes)) := by
  unfold makeRoom
  split
  · exact .inr (m.le_reserve h _)
  · next hroom => exact .inl (Nat.le_of_not_lt hroom)

theorem spare_pos {m : BytesMut H} {h : H} {bound : Nat} (hlt : m.len h < m.capacity (makeRoom m h bound)) :
    0 < m.spare (makeRoom m h bound) := by
  rw [BytesMut.spare, len_makeRoom]
  exact Nat.sub_pos_of_lt hlt

/-- Where the condition holds, a turn has room, and the condition holds after it. -/
theorem roomy_turn {m : BytesMut H} {b : Build} {numBytes : Nat} {h : H}
    (hroomy : Roomy b (m.len h) (m.capacity h) numBytes) (hlt : m.len h < numBytes) :
    ∃ bound, b.addUsize (m.len h) numBytes = .ok bound ∧ 0 < m.spare (makeRoom m h bound) ∧
      ∀ n, Roomy b (m.len h + n) (m.capacity (makeRoom m h bound)) numBytes := by
  have hextra : 0 < Ring.extra := by decide
  have hsum := makeRoom_sum m h numBytes
  rcases hroomy with hsmall | hroomy
  · have hno : m.len h + numBytes < 2 ^ 64 := by omega
    exact ⟨_, Build.addUsize_of_lt b hno, spare_pos (by omega), fun n => .inl hsmall⟩
  · cases b with
    | dev => exact absurd hlt (Nat.not_lt_of_le hroomy)
    | release =>
        rcases hroomy with hcap | ⟨hno, hfirst⟩
        · have hcap' := fun bound => hcap.trans (capacity_le_makeRoom m h bound)
          exact ⟨_, rfl, spare_pos (hlt.trans_le (hcap' _)), fun n => .inr (.inl (hcap' _))⟩
        · have hcap' : numBytes ≤ m.capacity (makeRoom m h (m.len h + numBytes)) := by omega
          exact ⟨_, Build.addUsize_of_lt .release hno, spare_pos (hlt.trans_le hcap'), fun n => .inr (.inl hcap')⟩

/-- A turn with the record: its read is the last one in it. -/
theorem turn_logged_ok (m : BytesMut H) (rx : AsyncRead σ) {b : Build} {numBytes bound : Nat} {h : H}
    (hbound : b.addUsize (m.len h) numBytes = .ok bound) (s : σ) (log : List Read) :
    ∃ h', turn m rx.logged b numBytes h (s, log) =
        .ok (((rx.read s (m.spare (makeRoom m h bound))).1.map List.length,
          ((rx.read s (m.spare (makeRoom m h bound))).2,
            log ++ [⟨m.spare (makeRoom m h bound), (rx.read s (m.spare (makeRoom m h bound))).1⟩])), ⟨some h'⟩) ∧
      match (rx.read s (m.spare (makeRoom m h bound))).1 with
      | .ok bs => m.contents h' = m.contents h ++ bs ∧ m.capacity h' = m.capacity (makeRoom m h bound)
      | .error _ => m.contents h' = m.contents h :=
  turn_ok m rx.logged hbound (s, log)

/-- **A call with room** returns and does what it has to. -/
theorem fillUntil_roomy {m : BytesMut H} (rx : AsyncRead σ) {b : Build} {numBytes : Nat} {h : H}
    (hroomy : Roomy b (m.len h) (m.capacity h) numBytes) (s : σ) (log : List Read) :
    ∃ result h' s' reads,
      fillUntil m rx.logged b numBytes ⟨some h⟩ (s, log) = .ok (result, ⟨some h'⟩, (s', log ++ reads)) ∧
        Exact m numBytes h h' reads result := by
  induction hmissing : numBytes - m.len h using Nat.strong_induction_on generalizing h s log with
  | _ missing ih =>
      rcases Nat.lt_or_ge (m.len h) numBytes with hlt | hge
      · obtain ⟨bound, hbound, hroom, hnext⟩ := roomy_turn hroomy hlt
        obtain ⟨h₁, hturn, hbytes⟩ := turn_logged_ok m rx hbound s log
        rw [fillUntil_turn hlt, hturn, ok_bind]
        cases hresult : (rx.read s (m.spare (makeRoom m h bound))).1 with
        | error e =>
            rw [hresult] at hbytes
            exact ⟨.error e, h₁, _, [⟨_, .error e⟩], rfl, .last hroom hlt hbytes (.inr ⟨e, rfl, rfl⟩)⟩
        | ok bs =>
            rw [hresult] at hbytes
            obtain ⟨happ, hcap⟩ := hbytes
            cases bs with
            | nil =>
                rw [List.append_nil] at happ
                exact ⟨.ok none, h₁, _, [⟨_, .ok []⟩], rfl, .last hroom hlt happ (.inl ⟨rfl, rfl⟩)⟩
            | cons c cs =>
                have hlen := BytesMut.len_append happ
                have hroomy₁ : Roomy b (m.len h₁) (m.capacity h₁) numBytes := by
                  rw [hlen, hcap]
                  exact hnext _
                have hfewer : numBytes - m.len h₁ < missing := by
                  rw [hlen, List.length_cons]
                  omega
                obtain ⟨result, h', s', reads, hcall, hexact⟩ := ih _ hfewer hroomy₁
                  (rx.read s (m.spare (makeRoom m h bound))).2
                  (log ++ [⟨m.spare (makeRoom m h bound), .ok (c :: cs)⟩]) rfl
                rw [List.append_assoc] at hcall
                exact ⟨result, h', s', ⟨_, .ok (c :: cs)⟩ :: reads, hcall,
                  .cons hroom hlt (List.cons_ne_nil c cs) happ hexact⟩
      · exact ⟨.ok (some ()), h, s, [], by rw [fillUntil_of_le hge, List.append_nil], .of_le hge⟩

/-! ### The record of the reads -/

theorem turn_logged (m : BytesMut H) (rx : AsyncRead σ) (b : Build) (numBytes : Nat) (h : H) (s : σ) (log : List Read) :
    ∃ log', turn m rx.logged b numBytes h (s, log) =
      (turn m rx b numBytes h s).map fun r => ((r.1.1, (r.1.2, log')), r.2) := by
  cases hbound : b.addUsize (m.len h) numBytes with
  | error f => exact ⟨log, by rw [turn, turn, hbound, error_bind, error_bind]; rfl⟩
  | ok bound =>
      refine ⟨(rx.logged.read (s, log) (m.spare (makeRoom m h bound))).2.2, ?_⟩
      rw [turn, turn, hbound, ok_bind, ok_bind]
      unfold fillWithReader withOwnedAsync
      simp only [spare_split, AsyncRead.logged]
      rcases rx.read s (m.spare (makeRoom m h bound)) with ⟨_ | _, s'⟩ <;> rfl

/-- A call without the record of its reads. -/
def forget (r : Except IoError (Option Unit) × Buf H × σ × List Read) : Except IoError (Option Unit) × Buf H × σ :=
  (r.1, r.2.1, r.2.2.1)

/-- The record changes nothing. -/
theorem fillUntil_logged (m : BytesMut H) (rx : AsyncRead σ) (b : Build) (numBytes : Nat) (buf : Buf H) (s : σ)
    (log : List Read) :
    (fillUntil m rx.logged b numBytes buf (s, log)).map forget = fillUntil m rx b numBytes buf s := by
  fun_induction fillUntil m rx b numBytes buf s generalizing log with
  | case1 buf s hbuf =>
      obtain rfl : buf = ⟨none⟩ := congrArg Buf.mk hbuf
      rw [fillUntil]
      rfl
  | case2 buf s h hbuf hlt f hturn =>
      obtain rfl : buf = ⟨some h⟩ := congrArg Buf.mk hbuf
      obtain ⟨log', hlogged⟩ := turn_logged m rx b numBytes h s log
      rw [fillUntil_turn hlt, hlogged, hturn]
      rfl
  | case3 buf s h hbuf hlt e s' buf' hturn =>
      obtain rfl : buf = ⟨some h⟩ := congrArg Buf.mk hbuf
      obtain ⟨log', hlogged⟩ := turn_logged m rx b numBytes h s log
      rw [fillUntil_turn hlt, hlogged, hturn]
      rfl
  | case4 buf s h hbuf hlt s' buf' hturn =>
      obtain rfl : buf = ⟨some h⟩ := congrArg Buf.mk hbuf
      obtain ⟨log', hlogged⟩ := turn_logged m rx b numBytes h s log
      rw [fillUntil_turn hlt, hlogged, hturn]
      rfl
  | case5 buf s h hbuf hlt n s' buf' hturn hn ih =>
      obtain rfl : buf = ⟨some h⟩ := congrArg Buf.mk hbuf
      obtain ⟨log', hlogged⟩ := turn_logged m rx b numBytes h s log
      rw [fillUntil_turn hlt, hlogged, hturn]
      exact (congrArg _ (if_neg hn)).trans (ih log')
  | case6 buf s h hbuf hge =>
      obtain rfl : buf = ⟨some h⟩ := congrArg Buf.mk hbuf
      rw [fillUntil_of_le (Nat.le_of_not_lt hge)]
      rfl

end Buf

/-! ### The ring and the script -/

/-- The ring as a buffer. -/
def Ring.bytesMut (a : Alloc) : BytesMut Ring where
  contents := Ring.buf
  capacity := Ring.capacity
  reserve := Ring.reserve a
  split ring := (⟨ring.buf, ring.len, le_rfl⟩, ⟨[], ring.capacity - ring.len, Nat.zero_le _⟩)
  unsplit ring ring' := ⟨ring.buf ++ ring'.buf, ring.capacity + ring'.capacity, by
    rw [List.length_append]
    exact Nat.add_le_add ring.len_le ring'.len_le⟩
  put ring bs := ⟨ring.buf ++ bs, max ring.capacity (ring.buf ++ bs).length, Nat.le_max_right _ _⟩
  contents_reserve := Ring.reserve_buf a
  le_reserve := Ring.le_reserve a
  capacity_le_reserve ring n := by
    unfold Ring.reserve
    split
    · next hfull =>
        have hgrow := a.le_grow ring.len ring.capacity n
        exact (Nat.sub_lt_iff_lt_add' ring.len_le).mp hfull |>.le.trans hgrow
    · exact le_rfl
  contents_split _ := ⟨rfl, rfl⟩
  capacity_split ring := Nat.add_sub_cancel' ring.len_le
  contents_put _ _ _ := rfl
  contents_unsplit _ _ := rfl
  capacity_unsplit ring bs hfits := by
    show ring.len + max (ring.capacity - ring.len) ([] ++ bs).length = ring.capacity
    rw [List.nil_append, Nat.max_eq_left hfits]
    exact Nat.add_sub_cancel' ring.len_le

/-- The script as a reader. -/
def Reader.asyncRead : AsyncRead Reader where
  read rx spare := rx.read spare
  fits rx spare _ hread := Reader.read_length_le spare rx _ (Prod.ext hread rfl)

namespace Buf

theorem fillWithReader_ring (a : Alloc) {ring ring' : Ring} {rx rx' : Reader} {result : Except IoError Nat}
    (hfill : ring.fillWithReader rx = (result, ring', rx')) :
    fillWithReader (Ring.bytesMut a) Reader.asyncRead ⟨some ring⟩ rx = .ok ((result, rx'), ⟨some ring'⟩) := by
  have hlen := Nat.add_sub_cancel' ring.len_le
  unfold fillWithReader withOwnedAsync
  simp only [spare_split]
  unfold Ring.fillWithReader at hfill
  split at hfill
  · next bs rx₁ hread =>
      cases hfill
      have hread₁ : Reader.asyncRead.read rx ((Ring.bytesMut a).spare ring) = (.ok bs, rx') := hread
      have hfits : bs.length ≤ ring.capacity - ring.buf.length := Reader.read_length_le _ _ _ hread
      rw [hread₁]
      simp only [Ring.bytesMut, Ring.len, List.nil_append, Nat.max_eq_left hfits, hlen]
  · next e rx₁ hread =>
      cases hfill
      have hread₁ : Reader.asyncRead.read rx ((Ring.bytesMut a).spare ring) = (.error e, rx') := hread
      rw [hread₁]
      simp only [Ring.bytesMut, Ring.len, List.append_nil, hlen]

theorem turn_ring (a : Alloc) (b : Build) {ring ring' : Ring} {rx rx' : Reader} {numBytes : Nat}
    {result : Except IoError Nat} (hn : numBytes ≤ 2 ^ 63) (hlt : ring.len < numBytes)
    (hfill : Ring.fillWithReader (if ring.capacity < ring.len + numBytes then ring.reserve a Ring.extra else ring) rx =
      (result, ring', rx')) :
    turn (Ring.bytesMut a) Reader.asyncRead b numBytes ring rx = .ok ((result, rx'), ⟨some ring'⟩) := by
  have hsum : b.addUsize ring.len numBytes = .ok (ring.len + numBytes) := Build.addUsize_of_lt b (by omega)
  exact (congrArg (· >>= _) hsum).trans (fillWithReader_ring a hfill)

/-- **The ring's `fill_until`** is the call on this buffer with the script, as far as the sum does not overflow. -/
theorem fillUntil_ring (a : Alloc) (b : Build) (ring : Ring) (rx : Reader) {numBytes : Nat} (hn : numBytes ≤ 2 ^ 63) :
    fillUntil (Ring.bytesMut a) Reader.asyncRead b numBytes ⟨some ring⟩ rx =
      .ok ((ring.fillUntil a rx numBytes).1, ⟨some (ring.fillUntil a rx numBytes).2.1⟩,
        (ring.fillUntil a rx numBytes).2.2) := by
  fun_induction Ring.fillUntil a ring rx numBytes with
  | case1 ring rx hlt ring₁ e ring' rx' hfill => rw [fillUntil_turn hlt, turn_ring a b hn hlt hfill, ok_bind]
  | case2 ring rx hlt ring₁ ring' rx' hfill =>
      rw [fillUntil_turn hlt, turn_ring a b hn hlt hfill, ok_bind]
      rfl
  | case3 ring rx hlt ring₁ n ring' rx' hfill hne ih =>
      rw [fillUntil_turn hlt, turn_ring a b hn hlt hfill, ok_bind]
      exact (if_neg hne).trans ih
  | case4 ring rx hge => exact fillUntil_of_le (Nat.le_of_not_lt hge) rx

/-! ### Calls without room -/

/-- A call that panics, or in which a read has no room. -/
def Starved : Except Fault (Except IoError (Option Unit) × Buf H × σ × List Read) → Prop
  | .error _ => True
  | .ok (_, _, _, reads) => ∃ r ∈ reads, r.spare = 0

theorem starved_overflow {m : BytesMut H} (rx : AsyncRead σ) {numBytes : Nat} {h : H} (hlt : m.len h < numBytes)
    (hsum : 2 ^ 64 ≤ m.len h + numBytes) (s : σ) (log : List Read) :
    Starved (fillUntil m rx.logged .dev numBytes ⟨some h⟩ (s, log)) := by
  have hpanic : Build.dev.addUsize (m.len h) numBytes = .error .overflow := if_neg (Nat.not_lt_of_le hsum)
  rw [fillUntil_turn hlt, turn, hpanic]
  trivial

theorem starved_full {m : BytesMut H} (rx : AsyncRead σ) {b : Build} {numBytes bound : Nat} {h : H}
    (hlt : m.len h < numBytes) (hbound : b.addUsize (m.len h) numBytes = .ok bound)
    (hfull : m.spare (makeRoom m h bound) = 0) (s : σ) (log : List Read) :
    Starved (fillUntil m rx.logged b numBytes ⟨some h⟩ (s, log)) := by
  obtain ⟨h₁, hturn, -⟩ := turn_logged_ok m rx hbound s log
  have hmem : ⟨0, (rx.read s 0).1⟩ ∈ log ++ [(⟨0, (rx.read s 0).1⟩ : Read)] :=
    List.mem_append_right log (List.mem_singleton_self _)
  rw [fillUntil_turn hlt, hturn, hfull, ok_bind]
  cases hread : (rx.read s 0).1 with
  | error e =>
      rw [hread] at hmem
      exact ⟨_, hmem, rfl⟩
  | ok bs =>
      have hnil : bs = [] := List.eq_nil_of_length_eq_zero (Nat.le_zero.mp (rx.fits s 0 bs hread))
      subst hnil
      rw [hread] at hmem
      exact ⟨_, hmem, rfl⟩

/-- A call is starved if it is after a first read that brings bytes. -/
theorem starved_read {m : BytesMut H} {rx : AsyncRead σ} {b : Build} {numBytes bound : Nat} {h : H} {s : σ} {bs : Bytes}
    (hlt : m.len h < numBytes) (hbound : b.addUsize (m.len h) numBytes = .ok bound)
    (hread : (rx.read s (m.spare (makeRoom m h bound))).1 = .ok bs) (hne : bs ≠ [])
    (hnext : ∀ h₁ log, m.len h₁ = m.len h + bs.length → m.capacity h₁ = m.capacity (makeRoom m h bound) →
      Starved (fillUntil m rx.logged b numBytes ⟨some h₁⟩ ((rx.read s (m.spare (makeRoom m h bound))).2, log)))
    (log : List Read) : Starved (fillUntil m rx.logged b numBytes ⟨some h⟩ (s, log)) := by
  obtain ⟨h₁, hturn, hbytes⟩ := turn_logged_ok m rx hbound s log
  rw [hread] at hturn hbytes
  have hlen := BytesMut.len_append hbytes.1
  have hgo : ¬ bs.length = 0 := fun hzero => hne (List.eq_nil_of_length_eq_zero hzero)
  rw [fillUntil_turn hlt, hturn, ok_bind]
  simp only [Except.map, if_neg hgo]
  exact hnext h₁ _ hlen hbytes.2

/-- The reader that brings a byte so many times, and then all that there is room for. -/
def trickle : AsyncRead Nat where
  read
    | 0, spare => (.ok (List.replicate spare 0), 0)
    | n + 1, spare => (.ok (List.replicate (min 1 spare) 0), n)
  fits
    | 0, spare, _, hread => by
        cases hread
        exact (List.length_replicate).le
    | _ + 1, spare, _, hread => by
        cases hread
        exact (List.length_replicate).trans_le (Nat.min_le_right 1 spare)

theorem trickle_succ (n : Nat) {spare : Nat} (hspare : 0 < spare) : (trickle.read (n + 1) spare).1 = .ok [0] := by
  show Except.ok (List.replicate (min 1 spare) 0) = _
  rw [Nat.min_eq_left hspare, List.replicate_one]

/-- A byte at a time there is always room, so the sum overflows. -/
theorem starved_dev {m : BytesMut H} {numBytes n : Nat} {h : H} (hreach : 2 ^ 64 ≤ m.len h + n + numBytes)
    (hlt : m.len h + n < numBytes) (log : List Read) :
    Starved (fillUntil m trickle.logged .dev numBytes ⟨some h⟩ (n, log)) := by
  induction n generalizing h log with
  | zero => exact starved_overflow trickle hlt hreach 0 log
  | succ n ih =>
      have hlt₀ : m.len h < numBytes := by omega
      by_cases hsum : 2 ^ 64 ≤ m.len h + numBytes
      · exact starved_overflow trickle hlt₀ hsum (n + 1) log
      · have hextra : 0 < Ring.extra := by decide
        have hroom := makeRoom_sum m h numBytes
        have hspare : 0 < m.spare (makeRoom m h (m.len h + numBytes)) := spare_pos (by omega)
        refine starved_read hlt₀ (Build.addUsize_of_lt .dev (Nat.lt_of_not_le hsum)) (trickle_succ n hspare)
          (List.cons_ne_nil _ _) (fun h₁ log₁ hlen _ => ?_) log
        rw [List.length_singleton] at hlen
        exact ih (by omega) (by omega) log₁

/-- After the sum has wrapped no room is made. -/
theorem makeRoom_wrapped {m : BytesMut H} {numBytes : Nat} {h : H} (hn : numBytes < 2 ^ 64)
    (hsum : 2 ^ 64 ≤ m.len h + numBytes) :
    makeRoom m h ((m.len h + numBytes) % 2 ^ 64) = h := by
  have hle := m.len_le h
  have hmod : (m.len h + numBytes) % 2 ^ 64 ≤ m.len h := by omega
  exact if_neg (Nat.not_lt_of_le (hmod.trans hle))

theorem starved_wrapped {m : BytesMut H} {numBytes : Nat} {h : H} (hn : numBytes < 2 ^ 64)
    (hsum : 2 ^ 64 ≤ m.len h + numBytes) (hcap : m.capacity h < numBytes) (log : List Read) :
    Starved (fillUntil m trickle.logged .release numBytes ⟨some h⟩ (0, log)) := by
  have hfull : ∀ (h₁ : H) log₁, m.capacity h₁ = m.capacity h → m.len h₁ = m.capacity h₁ →
      Starved (fillUntil m trickle.logged .release numBytes ⟨some h₁⟩ (0, log₁)) := by
    intro h₁ log₁ hcap₁ hlen₁
    have hle := m.len_le h
    refine starved_full trickle (by omega) rfl ?_ 0 log₁
    rw [makeRoom_wrapped hn (by omega), BytesMut.spare, hlen₁, Nat.sub_self]
  have hkeep := makeRoom_wrapped hn hsum
  rcases (m.len_le h).lt_or_eq with hlt | heq
  · have hspare : m.spare h ≠ 0 := Nat.sub_ne_zero_of_lt hlt
    have hread : (trickle.read 0 (m.spare (makeRoom m h ((m.len h + numBytes) % 2 ^ 64)))).1 =
        .ok (List.replicate (m.spare h) 0) := by
      rw [hkeep]
      rfl
    refine starved_read (by omega) rfl hread (by simpa using hspare) (fun h₁ log₁ hlen hcap₁ => ?_) log
    rw [hkeep] at hcap₁
    rw [List.length_replicate, BytesMut.spare] at hlen
    exact hfull h₁ log₁ hcap₁ (by omega)
  · exact hfull h log rfl heq

theorem makeRoom_tight {m : BytesMut H} {numBytes : Nat} {h : H}
    (htight : ∀ h additional, m.capacity (m.reserve h additional) = max (m.capacity h) (m.len h + additional))
    (hcap : m.capacity h < numBytes) :
    m.capacity (makeRoom m h (m.len h + numBytes)) = max (m.capacity h) (m.len h + Ring.extra) ∧
      0 < m.spare (makeRoom m h (m.len h + numBytes)) := by
  have hroom : m.capacity (makeRoom m h (m.len h + numBytes)) = max (m.capacity h) (m.len h + Ring.extra) :=
    (congrArg m.capacity (if_pos (hcap.trans_le (Nat.le_add_left _ _)))).trans (htight h Ring.extra)
  have hextra : 0 < Ring.extra := by decide
  refine ⟨hroom, spare_pos ?_⟩
  rw [hroom]
  omega

/-- A buffer that is grown to no more than what is asked for can be filled beyond the point from which the sum wraps
without room for all. -/
theorem starved_release {m : BytesMut H} {numBytes n : Nat} {h : H}
    (htight : ∀ h additional, m.capacity (m.reserve h additional) = max (m.capacity h) (m.len h + additional))
    (hn : numBytes < 2 ^ 64) (hcap : m.capacity h < numBytes) (hsum : m.len h + n + numBytes < 2 ^ 64)
    (hreach : 2 ^ 64 ≤ m.len h + n + Ring.extra + numBytes) (hlt : m.len h + n + Ring.extra < numBytes)
    (log : List Read) : Starved (fillUntil m trickle.logged .release numBytes ⟨some h⟩ (n, log)) := by
  induction n generalizing h log with
  | zero =>
      obtain ⟨hroom, hspare⟩ := makeRoom_tight htight hcap
      -- All that there is room for is read: the buffer is full, and the next sum wraps.
      refine starved_read (by omega) (Build.addUsize_of_lt .release hsum) rfl (by simpa using hspare.ne')
        (fun h₁ log₁ hlen hcap₁ => starved_wrapped hn ?_ ?_ log₁) log
      · rw [hlen, List.length_replicate, BytesMut.spare, hroom, len_makeRoom]
        omega
      · rw [hcap₁, hroom]
        exact max_lt hcap hlt
  | succ n ih =>
      obtain ⟨hroom, hspare⟩ := makeRoom_tight htight hcap
      refine starved_read (by omega) (Build.addUsize_of_lt .release (by omega)) (trickle_succ n hspare)
        (List.cons_ne_nil _ _) (fun h₁ log₁ hlen hcap₁ => ?_) log
      rw [List.length_singleton] at hlen
      rw [hroom] at hcap₁
      exact ih (by omega) (by omega) (by omega) (by omega) log₁

theorem reserve_tight (ring : Ring) (additional : Nat) :
    (ring.reserve .tight additional).capacity = max ring.capacity (ring.len + additional) := by
  have hlen := ring.len_le
  unfold Ring.reserve
  split
  · show ring.len + additional = _
    omega
  · unfold Ring.len at *
    omega

/-- Where the condition fails there is a reader for which the call does. -/
theorem starved_of_not_roomy {b : Build} {ring : Ring} {numBytes : Nat} (hn : numBytes < 2 ^ 64)
    (hnot : ¬ Roomy b ring.len ring.capacity numBytes) :
    ∃ n, Starved (fillUntil (Ring.bytesMut .tight) trickle.logged b numBytes ⟨some ring⟩ (n, [])) := by
  have hextra : Ring.extra = 16384 := rfl
  have hlen : (Ring.bytesMut .tight).len ring = ring.len := rfl
  have hcap : (Ring.bytesMut .tight).capacity ring = ring.capacity := rfl
  obtain ⟨hlarge, hnot⟩ := not_or.mp hnot
  cases b with
  | dev =>
      have hlt : ring.len < numBytes := Nat.lt_of_not_le hnot
      exact ⟨2 ^ 64 - numBytes - ring.len, starved_dev (by omega) (by omega) []⟩
  | release =>
      obtain ⟨hfew, hfirst⟩ := not_or.mp hnot
      by_cases hsum : 2 ^ 64 ≤ ring.len + numBytes
      · exact ⟨0, starved_wrapped hn (by omega) (by omega) []⟩
      · exact ⟨2 ^ 64 - numBytes - Ring.extra - ring.len,
          starved_release reserve_tight hn (by omega) (by omega) (by omega) (by omega) []⟩

end Buf

theorem fillsExactly_of_roomy {b : Build} {ring : Ring} {numBytes : Nat}
    (hroomy : Roomy b ring.len ring.capacity numBytes) : FillsExactly b ring numBytes := by
  intro H m h hcontents hcapacity σ rx s
  have hlen : m.len h = ring.len := congrArg List.length hcontents
  exact Buf.fillUntil_roomy rx (by rw [hlen, hcapacity]; exact hroomy) s []

theorem not_fillsExactly {b : Build} {ring : Ring} {numBytes : Nat} (hn : numBytes < 2 ^ 64)
    (hnot : ¬ Roomy b ring.len ring.capacity numBytes) : ¬ FillsExactly b ring numBytes := by
  intro hall
  obtain ⟨n, hstarved⟩ := Buf.starved_of_not_roomy hn hnot
  obtain ⟨result, h', s', reads, hcall, hexact⟩ := hall (Ring.bytesMut .tight) ring rfl rfl Buf.trickle n
  rw [hcall] at hstarved
  obtain ⟨r, hmem, hzero⟩ := hstarved
  exact (hexact.room r hmem).ne' hzero

/-- **Filling is exact** on every buffer and with every reader if and only if the sum of the capacity test cannot
overflow before there are enough bytes, or there is room for all of them without it. -/
theorem fillUntil_exact_iff (b : Build) (ring : Ring) {numBytes : Nat} (hn : numBytes < 2 ^ 64) :
    FillsExactly b ring numBytes ↔ Roomy b ring.len ring.capacity numBytes := by
  constructor
  · intro hall
    by_contra hnot
    exact not_fillsExactly hn hnot hall
  · exact fillsExactly_of_roomy

/-- The bytes of a device list, into the ring that the client makes for them. -/
theorem listing_fills_exactly : FillsExactly .release (Ring.withCapacity 1024) 8192 :=
  (fillUntil_exact_iff .release (Ring.withCapacity 1024) (by decide)).mpr (.inl (by decide))

/-- A full ring, of which the largest number of bytes is asked: the read has no room, and the stream is taken to be over
before its last byte. -/
theorem full_ring_misread :
    let ring : Ring := ⟨[0], 1, le_rfl⟩
    let rx : Reader := [.chunk ⟨[1], List.cons_ne_nil 1 []⟩]
    Buf.fillUntil (Ring.bytesMut .tight) Reader.asyncRead .release (2 ^ 64 - 1) ⟨some ring⟩ rx =
        .ok (.ok none, ⟨some ring⟩, rx) ∧
      ∀ b, ¬ FillsExactly b ring (2 ^ 64 - 1) := by
  intro ring rx
  constructor
  · have hbound : Build.release.addUsize 1 (2 ^ 64 - 1) = .ok 0 := by decide
    have hread : ring.fillWithReader rx = (.ok 0, ring, rx) := rfl
    have hturn : Buf.turn (Ring.bytesMut .tight) Reader.asyncRead .release (2 ^ 64 - 1) ring rx =
        .ok ((.ok 0, rx), ⟨some ring⟩) :=
      (congrArg (· >>= _) hbound).trans (Buf.fillWithReader_ring .tight hread)
    rw [Buf.fillUntil_turn (by decide), hturn]
    rfl
  · intro b
    exact not_fillsExactly (by decide) (by cases b <;> decide)

end Qusb.Proto

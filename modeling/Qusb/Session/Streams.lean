import Qusb.Proto.Drain
import Qusb.Proto.Truncation
import Qusb.Session.Link

/-! A stream carries a queue of frames.

As long as the sending loop runs, the bytes of a direction that were not cut off yet (in the ring, on the way, with the
flusher and in the buffer) are the frames of a queue, one after the other. Pushing the bytes on does not change them,
and a call of `recvFrame` that returns has cut off the first frame, wherever the pieces that it read begin and end. -/

open ByteCodec Tables

namespace Qusb

open Msg Proto Borrow Lend

/-! ### Reading -/

namespace Proto

theorem suffix_of_moved {ring ring' : Ring} {rx rx' : Reader} (hlen : ring.len ≤ ring'.len)
    (hmoved : ring'.buf ++ rx'.bytes = ring.buf ++ rx.bytes) : rx'.bytes <:+ rx.bytes := by
  have hwhole : rx'.bytes <:+ ring.buf ++ rx.bytes := ⟨ring'.buf, hmoved⟩
  refine List.suffix_of_suffix_length_le hwhole (List.suffix_append _ _) ?_
  have hsame := congrArg List.length hmoved
  rw [List.length_append, List.length_append] at hsame
  unfold Ring.len at hlen
  omega

/-- What a read leaves is the end of the stream. -/
theorem Ring.fillUntil_suffix (a : Alloc) (ring : Ring) (rx : Reader) (numBytes : Nat) :
    (ring.fillUntil a rx numBytes).2.2.bytes <:+ rx.bytes := by
  fun_induction Ring.fillUntil a ring rx numBytes with
  | case1 ring rx hlt ring₁ e ring' rx' hfill =>
      obtain ⟨-, hbytes, -⟩ := Ring.fillWithReader_error hfill
      exact ⟨[], hbytes⟩
  | case2 ring rx hlt ring₁ ring' rx' hfill =>
      obtain ⟨-, hlen, hmoved⟩ := Ring.fillWithReader_moves hfill
      exact suffix_of_moved (by omega) hmoved
  | case3 ring rx hlt ring₁ n ring' rx' hfill hn ih =>
      obtain ⟨-, hlen, hmoved⟩ := Ring.fillWithReader_moves hfill
      exact ih.trans (suffix_of_moved (by omega) hmoved)
  | case4 => exact List.suffix_refl _

theorem recvFrameLoop_suffix {a : Alloc} {b : Build} {ring ring' : Ring} {rx rx' : Reader} {minLen : Nat}
    {received : Received} (hok : recvFrameLoop a b ring rx minLen = .ok (received, ring', rx')) :
    rx'.bytes <:+ rx.bytes := by
  fun_induction recvFrameLoop a b ring rx minLen with
  | case1 ring rx minLen e ring₁ rx₁ hfill =>
      cases hok
      have hsuffix := Ring.fillUntil_suffix a ring rx minLen
      rw [hfill] at hsuffix
      exact hsuffix
  | case2 ring rx minLen ring₁ rx₁ hfill =>
      cases hok
      have hsuffix := Ring.fillUntil_suffix a ring rx minLen
      rw [hfill] at hsuffix
      exact hsuffix
  | case3 => cases hok
  | case4 ring rx minLen ring₁ rx₁ hfill frame ring₂ hclaim =>
      cases hok
      have hsuffix := Ring.fillUntil_suffix a ring rx minLen
      rw [hfill] at hsuffix
      exact hsuffix
  | case5 ring rx minLen ring₁ rx₁ hfill ring₂ hclaim =>
      cases hok
      have hsuffix := Ring.fillUntil_suffix a ring rx minLen
      rw [hfill] at hsuffix
      exact hsuffix
  | case6 ring rx minLen ring₁ rx₁ hfill n ring₂ hclaim ih =>
      have hsuffix := Ring.fillUntil_suffix a ring rx minLen
      rw [hfill] at hsuffix
      exact (ih hok).trans hsuffix

end Proto

theorem readFrame_buf (d : Data QusbFrame) :
    readFrame d.buf = (do let parsed ← parseFrame d; return parsed.toOption) := by
  unfold readFrame
  rw [Data.new_of_isSome d.valid]
  rfl

/-- A frame that the receiver can cut off and read. -/
structure Legible (f : Bytes) : Prop where
  wire : IsWire f
  short : f.length < 65536
  read : ∃ frame, readFrame f = .ok (some frame)

section Cut

variable {b : Build} {bs tail : Bytes} {frames : List Bytes}

/-- What is cut off the front of some frames is the first. -/
theorem cutFrame_flatten (hall : bs ++ tail = frames.flatten) (hlegible : ∀ f ∈ frames, Legible f)
    (hcut : cutFrame b bs ≠ .ok none) :
    ∃ f rest d more, frames = f :: rest ∧ cutFrame b bs = .ok (some (some d, more)) ∧ d.buf = f ∧
      more ++ tail = rest.flatten := by
  have hlonger := cutFrame_append tail hcut
  rw [hall] at hlonger
  cases frames with
  | nil =>
      obtain ⟨rfl, -⟩ := List.append_eq_nil_iff.mp hall
      exact absurd (if_pos (by decide)) hcut
  | cons f rest =>
      have hf := hlegible f List.mem_cons_self
      obtain ⟨d, hd, hfirst⟩ := cutFrame_of_wire b hf.wire hf.short rest.flatten
      rw [List.flatten_cons, hfirst] at hlonger
      cases hbs : cutFrame b bs with
      | error fault =>
          rw [hbs] at hlonger
          cases hlonger
      | ok cut =>
          rw [hbs] at hlonger
          cases cut with
          | none => exact absurd hbs hcut
          | some cut =>
              obtain ⟨hsame, hrest⟩ := Prod.mk.inj (Option.some.inj (Except.ok.inj hlonger))
              refine ⟨f, rest, d, cut.2, rfl, ?_, hd, hrest.symm⟩
              rw [hsame]

end Cut

/-- The bytes that are not cut off yet are those of the frames. -/
structure Inlet.Holds (inlet : Inlet) (sent more : Bytes) (frames : List Bytes) : Prop where
  read_le : inlet.read ≤ sent.length
  bytes : inlet.ring.buf ++ (sent ++ more).drop inlet.read = frames.flatten
  legible : ∀ f ∈ frames, Legible f

/-- A call of `recvFrame` neither faults nor reports an error. It returns the first frame when the frame has arrived
whole, and does not return before. -/
def Inlet.Receives (a : Alloc) (b : Build) (inlet : Inlet) (sent : Bytes) (frames : List Bytes) : Prop :=
  ∀ chunks, inlet.Arrived sent chunks →
    match frames with
    | [] => inlet.recv a b sent chunks = .ok none
    | f :: _ =>
        if f.length ≤ inlet.ring.len + (Reader.ofChunks chunks).bytes.length then
          ∃ frame inlet', readFrame f = .ok (some frame) ∧
            inlet.recv a b sent chunks = .ok (some (some frame, inlet'))
        else inlet.recv a b sent chunks = .ok none

section Inlet

variable {a : Alloc} {b : Build} {inlet inlet' : Inlet} {sent more later : Bytes} {frames : List Bytes}
  {chunks : List Chunk}

/-- What was read and what comes later are all the bytes there are. -/
theorem Inlet.Holds.arrived (hholds : inlet.Holds sent more frames)
    (hlater : (Reader.ofChunks chunks).bytes ++ later = sent.drop inlet.read) :
    inlet.ring.buf ++ (Reader.ofChunks chunks).bytes ++ (later ++ more) = frames.flatten := by
  rw [← hholds.bytes, List.drop_append_of_le_length hholds.read_le, ← hlater]
  simp only [List.append_assoc]

/-- **A call that returns** has cut off the first frame. -/
theorem Inlet.Holds.recv {frame : Option Frame} (hholds : inlet.Holds sent more frames)
    (hok : inlet.recv a b sent chunks = .ok (some (frame, inlet'))) :
    ∃ f rest, frames = f :: rest ∧ readFrame f = .ok frame ∧ inlet'.Holds sent more rest := by
  unfold Inlet.recv at hok
  split at hok
  · next harrived =>
      obtain ⟨⟨received, ring, rx⟩, hcall, hok⟩ := bind_eq_ok_iff.mp hok
      obtain ⟨later, hlater⟩ := harrived
      have herrors : (Reader.ofChunks chunks).errors = [] := Reader.errors_ofChunks chunks
      have hall := hholds.arrived hlater
      obtain ⟨front, hfront⟩ := recvFrameLoop_suffix hcall
      cases received with
      | error e =>
          cases e with
          | none => cases hok
          | some e =>
              obtain ⟨rest, hrefused⟩ := (recvFrame_refused_iff a b inlet.ring herrors).mp ⟨e, ring, rx, hcall⟩
              obtain ⟨f, frames', d, more', -, hcut, -⟩ :=
                cutFrame_flatten hall hholds.legible (by rw [hrefused]; exact nofun)
              rw [hrefused] at hcut
              cases hcut
      | ok d =>
          obtain ⟨parsed, hparse, hok⟩ := bind_eq_ok_iff.mp hok
          cases hok
          have hcut : cutFrame b _ = .ok (some (some d, ring.buf ++ rx.bytes)) := recvFrame_ok_cut hcall
          obtain ⟨f, frames', d', more', rfl, hcut', rfl, hrest⟩ :=
            cutFrame_flatten hall hholds.legible (by rw [hcut]; exact nofun)
          obtain ⟨hd, rfl⟩ := Prod.mk.inj (Option.some.inj (Except.ok.inj (hcut.symm.trans hcut')))
          obtain rfl := Option.some.inj hd
          refine ⟨d.buf, frames', rfl, ?_, ?_⟩
          · rw [readFrame_buf, hparse]
            rfl
          have hread : (Reader.ofChunks chunks).bytes.length - rx.bytes.length = front.length := by
            rw [← hfront, List.length_append, Nat.add_sub_cancel_right]
          constructor
          · have hle := congrArg List.length hlater
            rw [List.length_append, List.length_drop] at hle
            show inlet.read + _ ≤ _
            have hread_le := hholds.read_le
            omega
          · calc ring.buf ++ (sent ++ more).drop
                  (inlet.read + ((Reader.ofChunks chunks).bytes.length - rx.bytes.length))
                = ring.buf ++ ((Reader.ofChunks chunks).bytes ++ (later ++ more)).drop front.length := by
                  rw [hread, ← List.drop_drop, List.drop_append_of_le_length hholds.read_le, ← hlater,
                    List.append_assoc]
              _ = ring.buf ++ (rx.bytes ++ (later ++ more)) := by
                  rw [← hfront, List.append_assoc, List.drop_left]
              _ = frames'.flatten := by
                  rw [← List.append_assoc, hrest]
          · exact fun f hf => hholds.legible f (List.mem_cons_of_mem _ hf)
  · cases hok

/-- A call that finds no frame has not returned. -/
theorem Inlet.recv_of_cut_none (harrived : inlet.Arrived sent chunks)
    (hcut : cutFrame b (inlet.ring.buf ++ (Reader.ofChunks chunks).bytes) = .ok none) :
    inlet.recv a b sent chunks = .ok none := by
  obtain ⟨ring, rx, hcall⟩ := recvFrame_of_cut_none a b inlet.ring (Reader.errors_ofChunks chunks) hcut
  unfold Inlet.recv
  rw [if_pos harrived, hcall]
  rfl

/-- **The streams neither stall nor lose their place.** -/
theorem Inlet.Holds.receives (a : Alloc) (b : Build) (hholds : inlet.Holds sent more frames) :
    inlet.Receives a b sent frames := by
  intro chunks harrived
  obtain ⟨later, hlater⟩ := id harrived
  have hall := hholds.arrived hlater
  cases frames with
  | nil =>
      obtain ⟨hnil, -⟩ := List.append_eq_nil_iff.mp hall
      refine Inlet.recv_of_cut_none harrived ?_
      rw [hnil]
      exact if_pos (by decide)
  | cons f rest =>
      have hf := hholds.legible f List.mem_cons_self
      have hlen : (inlet.ring.buf ++ (Reader.ofChunks chunks).bytes).length =
          inlet.ring.len + (Reader.ofChunks chunks).bytes.length := List.length_append
      by_cases hwhole : f.length ≤ inlet.ring.len + (Reader.ofChunks chunks).bytes.length
      · show if _ then _ else _
        rw [if_pos hwhole]
        have hprefix : f <+: inlet.ring.buf ++ (Reader.ofChunks chunks).bytes := by
          refine List.prefix_of_prefix_length_le (List.prefix_append f rest.flatten) ?_ (by omega)
          rw [← List.flatten_cons, ← hall]
          exact List.prefix_append _ _
        obtain ⟨more', hmore⟩ := hprefix
        obtain ⟨d, ring, rx, hcall, rfl, -⟩ :=
          recvFrame_of_wire a b inlet.ring _ hf.wire hf.short hmore.symm (Reader.errors_ofChunks chunks)
        obtain ⟨frame, hread⟩ := hf.read
        obtain ⟨parsed, hparse, hparsed⟩ := bind_eq_ok_iff.mp ((readFrame_buf d).symm.trans hread)
        have hsome : parsed.toOption = some frame := Except.ok.inj hparsed
        refine ⟨frame, ⟨ring, inlet.read + ((Reader.ofChunks chunks).bytes.length - rx.bytes.length)⟩, hread, ?_⟩
        unfold Inlet.recv
        rw [if_pos harrived, hcall]
        simp only [ok_bind, hparse, hsome]
        rfl
      · show if _ then _ else _
        rw [if_neg hwhole]
        refine Inlet.recv_of_cut_none harrived ?_
        by_contra hcut
        obtain ⟨f', rest', d, more', hframes, -, -, hrest⟩ := cutFrame_flatten hall hholds.legible hcut
        obtain ⟨rfl, rfl⟩ := List.cons.inj hframes
        have hsame := congrArg List.length hall
        rw [List.flatten_cons, ← hrest] at hsame
        simp only [List.length_append] at hsame hlen
        omega

/-- A call that has returned has returned the first frame. -/
theorem Inlet.Receives.cases (hreceives : inlet.Receives a b sent frames) (chunks : List Chunk) :
    inlet.recv a b sent chunks = .ok none ∨ ∃ f rest frame inlet', frames = f :: rest ∧
      readFrame f = .ok (some frame) ∧ inlet.recv a b sent chunks = .ok (some (some frame, inlet')) := by
  by_cases harrived : inlet.Arrived sent chunks
  · have hcall := hreceives chunks harrived
    cases frames with
    | nil => exact .inl hcall
    | cons f rest =>
        simp only at hcall
        split at hcall
        · obtain ⟨frame, inlet', hread, hcall⟩ := hcall
          exact .inr ⟨f, rest, frame, inlet', rfl, hread, hcall⟩
        · exact .inl hcall
  · exact .inl (if_neg harrived)

end Inlet

/-! ### Writing -/

section Writer

variable {σ : Type} [SendBuf σ] {w w' : Writer σ}

/-- The bytes of a writer move on, and none is added. -/
structure Pushes (w w' : Writer σ) : Prop where
  handler : w'.handler = w.handler ∨ w'.handler = (SendBuf.flushBuf w.handler).2
  sent_le : w.sent.length ≤ w'.sent.length
  bytes : w'.sent ++ w'.buf = w.sent ++ w.buf

theorem Pushes.refl (w : Writer σ) : Pushes w w := ⟨.inl rfl, le_rfl, rfl⟩

theorem pushes_flushBuf (hw : w.Consistent) (hready : w.timerReady = true) (hok : w.flushBuf = .ok w') :
    Pushes w w' := by
  obtain ⟨-, htx, -, hflusher⟩ := hw.timer (Writer.timer_of_ready hready)
  rw [w.flushBuf_eq htx] at hok
  cases hok
  have hsent : w.sent = w.written := by
    unfold Writer.sent
    rw [hflusher]
    exact List.append_nil _
  refine ⟨.inr rfl, ?_, ?_⟩
  · rw [hsent]
    exact (List.prefix_append _ _).length_le
  · have hempty : SendBuf.buf (SendBuf.flushBuf w.handler).2 = [] := SendBuf.flushBuf_snd w.handler
    show w.written ++ w.buf ++ SendBuf.buf (SendBuf.flushBuf w.handler).2 = w.sent ++ w.buf
    rw [hempty, List.append_nil, hsent]

theorem pushes_flushComplete (w : Writer σ) : Pushes w (w.flushComplete (.ok ())) := by
  have hparts : (w.flushComplete (.ok ())).handler = w.handler ∧ (w.flushComplete (.ok ())).sent = w.sent := by
    unfold Writer.flushComplete
    simp only
    split
    · exact ⟨rfl, List.append_nil _⟩
    · exact ⟨rfl, List.append_nil _⟩
  refine ⟨.inl hparts.1, by rw [hparts.2], ?_⟩
  rw [hparts.2]
  exact congrArg (fun h => w.sent ++ SendBuf.buf h) hparts.1

end Writer

/-- Pushing the bytes on does not change what they are. -/
theorem Inlet.Holds.pushed {σ : Type} [SendBuf σ] {w w' : Writer σ} {inlet : Inlet} {frames : List Bytes}
    (hholds : inlet.Holds w.sent w.buf frames) (hpushes : Pushes w w') : inlet.Holds w'.sent w'.buf frames where
  read_le := hholds.read_le.trans hpushes.sent_le
  bytes := by
    rw [hpushes.bytes]
    exact hholds.bytes
  legible := hholds.legible

/-- A frame that is appended is the last. -/
theorem Inlet.Holds.append {inlet : Inlet} {sent more f : Bytes} {frames : List Bytes}
    (hholds : inlet.Holds sent more frames) (hf : f = [] ∨ Legible f) :
    inlet.Holds sent (more ++ f) (frames ++ Session.appended f) where
  read_le := hholds.read_le
  bytes := by
    have hflat : (Session.appended f).flatten = f := by
      unfold Session.appended
      split
      · next hnil => exact hnil.symm
      · exact List.append_nil f
    rw [List.flatten_append, hflat, ← hholds.bytes, ← List.append_assoc sent, List.append_assoc inlet.ring.buf,
      List.drop_append_of_le_length]
    rw [List.length_append]
    exact hholds.read_le.trans (Nat.le_add_right _ _)
  legible := by
    intro g hg
    rcases List.mem_append.mp hg with hold | hnew
    · exact hholds.legible g hold
    · obtain rfl := Session.eq_of_mem_appended hnew
      refine hf.resolve_left ?_
      rintro rfl
      cases hnew

/-- A turn of the borrower's loop that takes no work. -/
theorem pushes_send {V : Vhci} {b : Build} {s s' : Borrow.SendLoop} {event : Borrow.SendEvent}
    (hw : s.writer.Consistent) (hok : s.step V b event = .ok s')
    (hevent : ∀ work env linker, event ≠ .work work env linker) (hrunning : s'.writer.running) :
    Pushes s.writer s'.writer := by
  unfold Borrow.SendLoop.step at hok
  split at hok
  · next hready =>
      rw [Bool.and_eq_true] at hready
      cases event with
      | work work env linker => exact absurd rfl (hevent work env linker)
      | flushBuf =>
          obtain ⟨writer, hflush, hok⟩ := bind_eq_ok_iff.mp hok
          cases hok
          exact pushes_flushBuf hw hready.2 hflush
      | flushComplete result =>
          cases hok
          cases result with
          | ok u => exact pushes_flushComplete s.writer
          | error e => exact absurd hrunning s.writer.not_running_exit
      | setAddress result =>
          cases result with
          | ok u =>
              cases hok
              exact .refl _
          | error e =>
              cases hok
              exact absurd hrunning s.writer.not_running_exit
      | closed =>
          cases hok
          exact absurd hrunning s.writer.not_running_exit
  · cases hok
    exact .refl _

/-- A turn of the lender's loop that takes no completion. -/
theorem pushes_lendSend {b : Build} {s s' : Lend.SendLoop} {event : Lend.SendEvent} (hw : s.Consistent)
    (hok : Lend.SendLoop.step b s event = .ok s') (hevent : ∀ completed tokens, event ≠ .lend completed tokens)
    (hrunning : s'.running) : Pushes s s' := by
  unfold Lend.SendLoop.step at hok
  split at hok
  · next hready =>
      rw [Bool.and_eq_true] at hready
      cases event with
      | lend completed tokens => exact absurd rfl (hevent completed tokens)
      | flushBuf => exact pushes_flushBuf hw hready.2 hok
      | flushComplete result =>
          cases hok
          cases result with
          | ok u => exact pushes_flushComplete s
          | error e => exact absurd hrunning s.not_running_exit
      | closed =>
          cases hok
          exact absurd hrunning s.not_running_exit
  · cases hok
    exact .refl _

end Qusb

import Qusb.RoundTrip.Transfer
import Qusb.Session.Peers

/-! What is said between two peers.

Beside the state of a session stands a record of what crossed its ends: the URBs that took a number, the submissions
that the lender's loop took up, and the device's answers. It is not part of the code. On its way a URB changes its form
four times, and each form is tied to the record: the frame that submits it, the item in progress, the completion, and
the frame of the reply. -/

open ByteCodec Tables Ledgers

namespace Qusb

open Msg Proto Borrow Lend
open BorrowSendHandler LendRecvHandler

/-! ### The record -/

/-- A URB that took a number, and what the driver delivers when it is asked for the data. -/
structure Submission where
  seqnum : Seqnum
  urb : IocUrb
  handle : UrbHandle
  fetched : Fetched

/-- The transfer and the packet descriptors; there are none where the driver delivers none. -/
def Submission.data (sub : Submission) : Bytes × Bytes :=
  match sub.fetched with
  | .ok data => data
  | .error _ => ([], [])

structure Traffic where
  submitted : List Submission
  taken : List (Seq (Data UrbFrame))
  answered : List (Seqnum × Lend.Outcome)

/-- The submission that the lender's loop takes up with a frame. -/
def Lend.RecvLoop.takes (recv : Lend.RecvLoop) : Option Frame → Option (Seq (Data UrbFrame))
  | some (.urb seq) => if recv.running then some seq else none
  | _ => none

/-- The number of the URB whose item ends. -/
def Lend.RecvLoop.ends (recv : Lend.RecvLoop) (index : Nat) : Option Seqnum :=
  if recv.running then
    match (recv.inProgress[index]?).map InProgress.ticket with
    | some (.urb n) => some n
    | _ => none
  else none

section Ends

variable {recv : Lend.RecvLoop} {index : Nat} {item : InProgress} {n : Seqnum}

theorem Lend.RecvLoop.ends_urb (hrunning : recv.running) (hitem : recv.inProgress[index]? = some item)
    (hticket : item.ticket = .urb n) : recv.ends index = some n := by
  unfold Lend.RecvLoop.ends
  rw [if_pos hrunning, hitem, Option.map_some, hticket]

theorem Lend.RecvLoop.ends_reset (hrunning : recv.running) (hitem : recv.inProgress[index]? = some item)
    (hticket : item.ticket = .reset n) : recv.ends index = none := by
  unfold Lend.RecvLoop.ends
  rw [if_pos hrunning, hitem, Option.map_some, hticket]

end Ends

namespace Session

/-- The submission that the lender's loop is about to take up. -/
def arriving (s : Session) : Option (Seq (Data UrbFrame)) :=
  match s.toLender with
  | [] => none
  | f :: _ =>
      match readFrame f with
      | .ok frame => s.lend.recv.takes frame
      | .error _ => none

def traffic (s : Session) (event : SessionEvent) (s' : Session) (t : Traffic) : Traffic :=
  match event with
  | .work (.processUrb urb handle) env _ =>
      if s'.borrow.send.curSeq = s.borrow.send.curSeq then t
      else { t with submitted := t.submitted ++ [⟨s.borrow.send.curSeq, urb, handle, env.fetched⟩] }
  | .toLender => { t with taken := t.taken ++ s.arriving.toList }
  | .completed index o => { t with answered := t.answered ++ (s.lend.recv.ends index).toList.map fun n => (n, o) }
  | _ => t

end Session

/-! ### The forms of a URB -/

/-- The frame that submits a URB, with what the driver delivered for it. -/
def Submission.SentAs (sub : Submission) (f : Bytes) : Prop :=
  Fills sub.urb sub.data.1 sub.data.2 ∧
    ∃ pad, (sub.data.1 ++ pad).length = (urbHeader sub.urb).paddedTransferLen * (urbHeader sub.urb).isOut.toNat ∧
      f = submitFrame sub.urb sub.seqnum (sub.data.1 ++ (pad ++ sub.data.2))

/-- What the lender is handed for a URB: its header, and the buffers of its kind with what the driver delivered. -/
structure Submission.HandedAs (sub : Submission) (seq : Seq (Data UrbFrame)) : Prop where
  seqnum : seq.seqnum = sub.seqnum
  header : seq.data.get.header = urbHeader sub.urb
  buffers : ∀ mem, ∃ buf, buffers mem seq.data = .ok (buf, sub.data.2) ∧ IsBufferOf sub.urb sub.data.1 buf

/-- The item in progress of a URB that was taken up. -/
def Submission.HeldAs (V : Vhci) (t : Traffic) (sub : Submission) (item : InProgress) : Prop :=
  IsItemOf V sub.urb sub.seqnum item ∧ sub.seqnum ∈ t.taken.map (·.seqnum)

/-- A completion that says what the device answered. -/
def Submission.CompletedAs (V : Vhci) (t : Traffic) (sub : Submission) (completed : CompletedTransfer) : Prop :=
  ∃ o, (sub.seqnum, o) ∈ t.answered ∧ ∃ c, completed.completion = some c ∧ IsAnswer V sub.urb sub.seqnum o c

/-- The frame of a reply that says what the device answered. -/
def Submission.RepliedAs (V : Vhci) (t : Traffic) (sub : Submission) (f : Bytes) : Prop :=
  ∃ o, (sub.seqnum, o) ∈ t.answered ∧ ∃ c status, IsAnswer V sub.urb sub.seqnum o c ∧
    transferStatus c.status = some status ∧ f = c.frame status

/-- What carries the ticket of a URB is a form of the URB. -/
def Traffic.Carries (t : Traffic) (ticket : Option Ticket) (P : Submission → Prop) : Prop :=
  ∀ n, ticket = some (.urb n) → ∃ sub ∈ t.submitted, sub.seqnum = n ∧ P sub

section Carries

variable {t t' : Traffic} {ticket : Option Ticket} {P P' : Submission → Prop}

theorem Traffic.Carries.mono (hc : t.Carries ticket P) (hsub : t.submitted ⊆ t'.submitted)
    (hP : ∀ sub, P sub → P' sub) : t'.Carries ticket P' := by
  intro n hn
  obtain ⟨sub, hmem, hseqnum, hsub'⟩ := hc n hn
  exact ⟨sub, hsub hmem, hseqnum, hP sub hsub'⟩

/-- Nothing is said of what carries no URB. -/
theorem Traffic.carries_of_ne (hne : ∀ n, ticket ≠ some (.urb n)) : t.Carries ticket P :=
  fun n hn => absurd hn (hne n)

theorem Traffic.carries_urb {sub : Submission} (hmem : sub ∈ t.submitted) (hP : P sub) :
    t.Carries (some (.urb sub.seqnum)) P := by
  intro n hn
  cases hn
  exact ⟨sub, hmem, rfl, hP⟩

theorem Submission.HeldAs.mono {V : Vhci} {sub : Submission} {item : InProgress} (hheld : sub.HeldAs V t item)
    (hsub : t.taken ⊆ t'.taken) : sub.HeldAs V t' item :=
  ⟨hheld.1, List.map_subset _ hsub hheld.2⟩

theorem Submission.CompletedAs.mono {V : Vhci} {sub : Submission} {completed : CompletedTransfer}
    (hcompleted : sub.CompletedAs V t completed) (hsub : t.answered ⊆ t'.answered) :
    sub.CompletedAs V t' completed := by
  obtain ⟨o, ho, hc⟩ := hcompleted
  exact ⟨o, hsub ho, hc⟩

theorem Submission.RepliedAs.mono {V : Vhci} {sub : Submission} {f : Bytes}
    (hreplied : sub.RepliedAs V t f) (hsub : t.answered ⊆ t'.answered) : sub.RepliedAs V t' f := by
  obtain ⟨o, ho, hc⟩ := hreplied
  exact ⟨o, hsub ho, hc⟩

end Carries

/-! ### Reading the frames -/

/-- A frame with two headers is read as a URB with the second and what follows it. -/
theorem readFrame_headers (header : Header) (urb : UrbHeader) (payload : Bytes)
    (hcommand : header.command = .cmdSubmit ∨ header.command = .retSubmit ∧ header.status = .success) :
    ∃ data : Data UrbFrame, data.get.header = urb ∧ data.buf = urb.asBytes ++ payload ∧
      readFrame (header.asBytes ++ (urb.asBytes ++ payload)) = .ok (some (.urb ⟨header.seqnum, data⟩)) := by
  obtain ⟨d, hbuf, -, hread⟩ := readFrame_header header (urb.asBytes ++ payload)
  obtain ⟨hheader, data, hurb, hdata, hpayload⟩ := urbOf_of_buf hbuf
  refine ⟨data, hdata, hpayload, ?_⟩
  rw [hread]
  rcases hcommand with hcmd | ⟨hcmd, hstatus⟩
  · simp only [parseFrame, hheader, hcmd, hurb]
    rfl
  · simp only [parseFrame, hheader, hcmd, hstatus, replyStatus, hurb]
    rfl

/-- The lender reads the frame of a URB as its submission. -/
theorem Submission.SentAs.read {sub : Submission} {f : Bytes} (hsent : sub.SentAs f) (hsendable : Sendable sub.urb) :
    ∃ data pad, readFrame f = .ok (some (.urb ⟨sub.seqnum, data⟩)) ∧
      Submitted sub.urb sub.data.1 pad sub.data.2 data := by
  obtain ⟨hfills, pad, hpadded, rfl⟩ := hsent
  obtain ⟨data, hheader, hbuf, hread⟩ := readFrame_headers ⟨_, .cmdSubmit, .success, sub.seqnum⟩ (urbHeader sub.urb)
    (sub.data.1 ++ (pad ++ sub.data.2)) (.inl rfl)
  exact ⟨data, pad, hread, hheader, hbuf, hsendable.fits, hfills, hpadded⟩

theorem Submitted.handedAs {sub : Submission} {pad : Bytes} {data : Data UrbFrame}
    (hs : Submitted sub.urb sub.data.1 pad sub.data.2 data) (hsendable : Sendable sub.urb) :
    sub.HandedAs ⟨sub.seqnum, data⟩ where
  seqnum := rfl
  header := hs.header
  buffers := by
    intro mem
    apply hs.buffers mem
    · intro hne
      apply List.eq_nil_of_length_eq_zero
      rw [hs.fills.isoRaw, hsendable.iso hne, Nat.zero_mul]
    · intro htyp
      obtain ⟨hle, hle'⟩ := hsendable.bufferLength_le
      exact ⟨hsendable.ctrl htyp, .inr (by omega)⟩

/-- The borrower reads the frame of a reply as the completion it was made of. -/
theorem readFrame_completion (c : Completion) (status : TransferStatus) :
    ∃ data : Data UrbFrame, data.get.header = c.urbHeader status ∧
      data.buf = (c.urbHeader status).asBytes ++ c.payload ∧
      readFrame (c.frame status) = .ok (some (.urb ⟨c.seqnum, data⟩)) := by
  rw [c.frame_eq status]
  exact readFrame_headers _ _ _ (.inr ⟨rfl, rfl⟩)

/-! ### The handlers -/

/-- A submission that goes through appends the frame with the data that the driver delivered. -/
theorem processUrb_data {b : Build} {mem : Nat → UInt8} {h h' : BorrowSendHandler} {linker linker' : Linker}
    {urb : IocUrb} {handle : UrbHandle} {fetched : Fetched}
    (hok : processUrb b mem h linker urb handle fetched = .ok (.ok (), h', linker')) :
    ∃ data, urbData mem urb fetched = .ok (.ok data) ∧ h'.buf = h.buf ++ submitFrame urb h.curSeq data := by
  obtain ⟨-, -, hok⟩ := bind_eq_ok_iff.mp hok
  obtain ⟨⟨nextSeq, h₁⟩, hinc, hok⟩ := bind_eq_ok_iff.mp hok
  obtain ⟨next, -, hinc⟩ := bind_eq_ok_iff.mp hinc
  cases hinc
  obtain ⟨fetchedData, hdata, hok⟩ := bind_eq_ok_iff.mp hok
  cases fetchedData with
  | error e => cases hok
  | ok data =>
      cases hok
      exact ⟨data, hdata, rfl⟩

/-- Where the driver delivers no data, none is asked for. -/
theorem urbData_error {mem : Nat → UInt8} {urb : IocUrb} {e : IoError} {data : Bytes} (hfit : FieldsFit urb)
    (hdata : urbData mem urb (.error e) = .ok (.ok data)) :
    Fills urb [] [] ∧ urbData mem urb (.ok ([], [])) = .ok (.ok data) := by
  rw [urbData_fits mem _ hfit] at hdata ⊢
  split at hdata
  · cases hdata
  · next hfetch =>
      rw [if_neg hfetch]
      refine ⟨?_, hdata⟩
      simp only [needsFetch, Bool.or_eq_true, Bool.and_eq_true, decide_eq_true_eq, not_or, not_and, Bool.not_eq_true,
        Nat.not_lt, Nat.le_zero] at hfetch
      obtain ⟨hout, hpackets⟩ := hfetch
      constructor
      · rcases Nat.eq_zero_or_pos (asUsize urb.bufferLength) with hzero | hpos
        · rw [hzero, Nat.zero_mul]
          rfl
        · rw [hout hpos]
          exact (Nat.mul_zero _).symm
      · rw [hpackets, Nat.zero_mul]
        rfl

/-- The driver fills the slices whenever it is asked for them. -/
def Submission.Filled (sub : Submission) : Prop :=
  ∀ transfer isoRaw, sub.fetched = .ok (transfer, isoRaw) → Fills sub.urb transfer isoRaw

theorem Submission.sentAs {sub : Submission} {mem : Nat → UInt8} {data : Bytes} (hsendable : Sendable sub.urb)
    (hfilled : sub.Filled) (hdata : urbData mem sub.urb sub.fetched = .ok (.ok data)) :
    sub.SentAs (submitFrame sub.urb sub.seqnum data) := by
  have hfetched : Fills sub.urb sub.data.1 sub.data.2 ∧ urbData mem sub.urb (.ok sub.data) = .ok (.ok data) := by
    obtain ⟨seqnum, urb, handle, fetched⟩ := sub
    cases fetched with
    | ok d => exact ⟨hfilled d.1 d.2 rfl, hdata⟩
    | error e => exact urbData_error hsendable.fits hdata
  obtain ⟨hfills, hdata⟩ := hfetched
  obtain ⟨pad, hpad, hpadded⟩ := urbData_fills mem hsendable.fits hfills
  obtain rfl := Except.ok.inj (Except.ok.inj (hdata.symm.trans hpad))
  exact ⟨hfills, pad, hpadded, rfl⟩

/-- A completion that is not the end of the session appends the frame of its status. -/
theorem handleEvent_frame {b : Build} {h h' : LendSendHandler} {tokens tokens' : Tokens}
    {completed : CompletedTransfer} {c : Completion} (hc : completed.completion = some c)
    (hok : h.handleEvent b tokens completed = .ok (.ok h', tokens')) :
    ∃ status, transferStatus c.status = some status ∧ h'.buf = h.buf ++ c.frame status := by
  have hcompleted : h.completed b tokens c.kind c.seqnum c.res c.endpoint c.interval c.rawIsoBuf c.numErrors
      c.numIsoPackets c.status = .ok (.ok h', tokens') := by
    cases completed with
    | reset seq => cases hc
    | ctrl seq => cases hc; exact hok
    | int seq => cases hc; exact hok
    | iso seq => cases hc; exact hok
    | bulk seq => cases hc; exact hok
  obtain ⟨tokens₁, -, hstatus⟩ := bind_eq_ok_iff.mp hcompleted
  cases hs : c.status with
  | ok u =>
      rw [hs] at hstatus
      cases hstatus
      exact ⟨.success, rfl, rfl⟩
  | error err =>
      rw [hs] at hstatus
      cases err with
      | reportable err =>
          cases hstatus
          exact ⟨err.toStatus, rfl, rfl⟩
      | abortable err => cases hstatus

end Qusb

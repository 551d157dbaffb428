import Qusb.Borrow.Receiver
import Qusb.Lend.Recv
import Qusb.SendLoop.Abort

/-! How a failure on the lender's side reaches the borrower.

A failure passes through five tables: what libusb says, the transfer error, the error that ends the lender's
send loop, the status in the header it sends, and the error the borrower parses the header as. The last two
do not agree: a failure that libusb does not name becomes a status that the borrower's parser does not
implement. Every other failure ends the borrower's loop with an error of the device. -/

open ByteCodec

namespace Qusb.Lend

open Msg Proto Borrow

/-! ### Failures -/

/-- `convert_libusb_to_proto`, for a transfer that could not be made too. -/
def convertLibusbResult : Except RusbError LibusbStatus → Except TransferError Unit
  | .ok status => convertLibusbToProto status
  | .error .io => .error (.abortable .proto)
  | .error .invalidParam => .error (.abortable .proto)
  | .error .noDevice => .error (.abortable .deviceDisconnected)
  | .error .timeout => .error (.reportable .timedOut)
  | .error .overflow => .error (.reportable .overflow)
  | .error .pipe => .error (.reportable .stall)
  | .error _ => .error (.abortable .other)

/-- A reset that failed, or a transfer with the result libusb gave it. -/
inductive Failure where
  | reset (seqnum : Seqnum)
  | transfer (kind : TransferKind) (endpoint : Endpoint) (seqnum : Seqnum)
      (result : Except RusbError LibusbStatus)

namespace Failure

def seqnum : Failure → Seqnum
  | .reset seqnum => seqnum
  | .transfer _ _ seqnum _ => seqnum

/-- The error that ends the session; none for a transfer whose result is not abortable. -/
def seqError : Failure → Option SeqError
  | .reset _ => some .reset
  | .transfer kind endpoint _ result =>
      match convertLibusbResult result with
      | .error (.abortable err) => some (.transfer kind endpoint err)
      | _ => none

/-- The completions of a failure. -/
inductive Completes : Failure → CompletedTransfer → Prop
  | reset (seqnum : Seqnum) (err : AbortableError) :
      Completes (.reset seqnum) (.reset ⟨seqnum, .error err⟩)
  | ctrl (seqnum : Seqnum) (result : Except RusbError LibusbStatus) (c : Ctrl)
      (hstatus : c.status = convertLibusbResult result) :
      Completes (.transfer .control c.endpoint seqnum result) (.ctrl ⟨seqnum, c⟩)
  | int (seqnum : Seqnum) (result : Except RusbError LibusbStatus) (c : Lend.Int)
      (hstatus : c.status = convertLibusbResult result) :
      Completes (.transfer .interrupt c.endpoint seqnum result) (.int ⟨seqnum, c⟩)
  | iso (seqnum : Seqnum) (result : Except RusbError LibusbStatus) (c : Iso)
      (hstatus : c.status = convertLibusbResult result) :
      Completes (.transfer .isochronous c.endpoint seqnum result) (.iso ⟨seqnum, c⟩)
  | bulk (seqnum : Seqnum) (result : Except RusbError LibusbStatus) (c : Bulk)
      (hstatus : c.status = convertLibusbResult result) :
      Completes (.transfer .bulk c.endpoint seqnum result) (.bulk ⟨seqnum, c⟩)

/-- A transfer that failed in a way libusb has no name for. -/
def Unnamed : Failure → Bool
  | .reset _ => false
  | .transfer _ _ _ (.ok status) => status == .error
  | .transfer _ _ _ (.error err) =>
      !(err == .io || err == .invalidParam || err == .noDevice || err == .timeout || err == .overflow ||
        err == .pipe)

/-! ### The lender -/

theorem completed_error {b : Build} {h : LendSendHandler} {tokens : Tokens} (htokens : tokens.Sound)
    (kind : TransferKind) (seqnum : Seqnum) (res : ResultData) (endpoint : Endpoint) (interval : UInt16)
    (rawIsoBuf : Bytes) (numErrors numIsoPackets : UInt16) {status : Except TransferError Unit}
    {err : AbortableError} (hstatus : status = .error (.abortable err)) :
    ∃ tokens', h.completed b tokens kind seqnum res endpoint interval rawIsoBuf numErrors numIsoPackets
      status = .ok (.error ⟨h.devId, seqnum, .transfer kind endpoint err⟩, tokens') := by
  obtain ⟨tokens', hderegister, -⟩ := htokens.deregister b seqnum
  refine ⟨tokens', ?_⟩
  rw [LendSendHandler.completed, hderegister, hstatus, ok_bind]
  rfl

/-- The completion of an abortable failure ends the send loop with its error. -/
theorem handleEvent_failed {f : Failure} {completed : CompletedTransfer} {e : SeqError} {b : Build}
    {h : LendSendHandler} {tokens : Tokens} (htokens : tokens.Sound) (hcompletes : f.Completes completed)
    (he : f.seqError = some e) :
    ∃ tokens', h.handleEvent b tokens completed = .ok (.error ⟨h.devId, f.seqnum, e⟩, tokens') := by
  have habortable : ∀ {kind endpoint seqnum result}, (Failure.transfer kind endpoint seqnum result).seqError =
      some e → ∃ err, convertLibusbResult result = .error (.abortable err) ∧
        e = .transfer kind endpoint err := by
    intro kind endpoint seqnum result hsome
    simp only [seqError] at hsome
    split at hsome
    · next err hresult =>
        cases hsome
        exact ⟨err, hresult, rfl⟩
    · cases hsome
  cases hcompletes with
  | reset seqnum err =>
      cases he
      exact ⟨tokens, rfl⟩
  | ctrl seqnum result c hstatus =>
      obtain ⟨err, hresult, rfl⟩ := habortable he
      exact completed_error htokens _ _ _ _ _ _ _ _ (hstatus.trans hresult)
  | int seqnum result c hstatus =>
      obtain ⟨err, hresult, rfl⟩ := habortable he
      exact completed_error htokens _ _ _ _ _ _ _ _ (hstatus.trans hresult)
  | iso seqnum result c hstatus =>
      obtain ⟨err, hresult, rfl⟩ := habortable he
      exact completed_error htokens _ _ _ _ _ _ _ _ (hstatus.trans hresult)
  | bulk seqnum result c hstatus =>
      obtain ⟨err, hresult, rfl⟩ := habortable he
      exact completed_error htokens _ _ _ _ _ _ _ _ (hstatus.trans hresult)

/-- The header of a failure, whatever the device. -/
def header (f : Failure) (e : SeqError) : Header := bareHeader e.asCommand e.asStatus f.seqnum

/-! ### The borrower -/

/-- A header with a status that means an error parses as that error; the status of a failure without a name
is not implemented. -/
theorem parse_header {f : Failure} {e : SeqError} (he : f.seqError = some e) {d : Data QusbFrame}
    (hbuf : d.buf = (f.header e).asBytes) :
    if f.Unnamed then parseFrame d = .error .unimplemented
    else ∃ err, parseFrame d = .ok (.error err) := by
  have hget : d.get.header = f.header e := by
    have := tryRef_header (f.header e) []
    rw [List.append_nil, ← hbuf] at this
    rw [Data.get_of_tryRef this]
  cases f with
  | reset seqnum =>
      cases he
      refine ⟨.deviceDisconnected, ?_⟩
      simp only [parseFrame, hget]
      rfl
  | transfer kind endpoint seqnum result =>
      have hparse : ∀ err, e = .transfer kind endpoint err →
          parseFrame d = replyStatus err.asProto (urbOf d) := by
        rintro err rfl
        simp only [parseFrame, hget]
        rfl
      simp only [seqError] at he
      cases result with
      | ok status =>
          cases status with
          | error =>
              cases he
              exact hparse _ rfl
          | noDevice =>
              cases he
              exact ⟨_, hparse _ rfl⟩
          | _ => cases he
      | error err =>
          cases err with
          | io =>
              cases he
              exact ⟨_, hparse _ rfl⟩
          | invalidParam =>
              cases he
              exact ⟨_, hparse _ rfl⟩
          | noDevice =>
              cases he
              exact ⟨_, hparse _ rfl⟩
          | timeout => cases he
          | overflow => cases he
          | pipe => cases he
          | _ =>
              cases he
              exact hparse _ rfl

/-- A borrower that has consumed the valid frames before the header of an error, and is still running. -/
structure Reaches (a : Alloc) (b : Build) (header : Header) (s : Receiver) : Prop where
  start : ∃ (s₀ : Receiver) (frames : List Bytes) (more : Bytes) (events : List ReceiverEvent),
    (∀ f ∈ frames, IsWire f) ∧ (∀ f ∈ frames, f.length < 65536) ∧
    s₀.ring.buf ++ s₀.rx.bytes = frames.flatten ++ (header.asBytes ++ more) ∧ s₀.rx.errors = [] ∧
    events.countP ReceiverEvent.isFrame = frames.length ∧
    Runs.run (Receiver.step a b) s₀ events = .ok s
  running : s.ended = none

/-- The next turn on the stream ends the loop with an error of the device, and gives nothing back. -/
def EndsPhys (a : Alloc) (b : Build) (s : Receiver) (resetDone : Except IoError Unit) : Prop :=
  ∃ s' err, s.step a b (.frame resetDone) = .ok s' ∧ s'.ended = some (.phys err) ∧
    s'.loop.givenBack = s.loop.givenBack ∧ s'.loop.linker = s.loop.linker

theorem turn_header {a : Alloc} {b : Build} {f : Failure} {e : SeqError} {s : Receiver}
    (he : f.seqError = some e) (hs : Reaches a b (f.header e) s) (resetDone : Except IoError Unit) :
    if f.Unnamed then s.step a b (.frame resetDone) = .error .unimplemented
    else EndsPhys a b s resetDone := by
  obtain ⟨s₀, frames, more, events, hwire, hlt, hbytes, herrors, hcount, hrun⟩ := hs.start
  obtain ⟨hnext, hend⟩ := Receiver.run_frames hwire hlt hbytes herrors hrun hs.running hcount
  have hheader : IsWire (f.header e).asBytes := isWire_bareHeader _ _ _
  obtain ⟨d, ring, rx, hbuf, -, -, hturn⟩ := Receiver.turn_frame a b s hheader
    (by rw [Header.asBytes_length]; decide) hnext hend resetDone
  have hparse := parse_header he hbuf
  unfold EndsPhys
  rw [Receiver.step_running hs.running, hturn]
  cases hunnamed : f.Unnamed with
  | true =>
      rw [hunnamed, if_pos rfl] at hparse
      rw [hparse]
      rfl
  | false =>
      rw [hunnamed, if_neg Bool.false_ne_true] at hparse
      obtain ⟨err, hparse⟩ := hparse
      rw [hparse, if_neg Bool.false_ne_true]
      -- the loop of the borrower drops an error, whether it runs or not
      obtain ⟨loop, hloop, hgiven, hlinker⟩ : ∃ loop, s.loop.step .frameError = .ok loop ∧
          loop.givenBack = s.loop.givenBack ∧ loop.linker = s.loop.linker := by
        unfold Borrow.RecvLoop.step
        split
        · exact ⟨_, rfl, rfl, rfl⟩
        · exact ⟨_, rfl, rfl, rfl⟩
      refine ⟨⟨ring, rx, loop, some (.phys err)⟩, err, ?_, rfl, hgiven, hlinker⟩
      simp only [ok_bind, Receiver.received, hloop]
      rfl

/-- **Errors reach the borrower.** The completion of an abortable failure ends the lender's send loop with an
error; and wherever the header of that error follows valid frames, it ends the borrower's loop with an error
of the device precisely when libusb has a name for the failure. -/
theorem header_ends_phys_iff (a : Alloc) (b b' : Build) (f : Failure) (completed : CompletedTransfer)
    (hcompletes : f.Completes completed) (habortable : f.seqError ≠ none) (s : SendLoop)
    (hrunning : s.running = true) (tokens : Tokens) (htokens : tokens.Sound) :
    ∃ err : UsbError, s.abortsWith b' (.lend completed tokens) = some err ∧
      ∀ r, Reaches a b err.asHeader r → ∀ resetDone, EndsPhys a b r resetDone ↔ f.Unnamed = false := by
  obtain ⟨e, he⟩ := Option.ne_none_iff_exists'.mp habortable
  obtain ⟨tokens', hevent⟩ := handleEvent_failed (b := b') (h := s.handler) htokens hcompletes he
  refine ⟨⟨s.handler.devId, ⟨f.seqnum, e⟩⟩, ?_, fun r hr resetDone => ?_⟩
  · simp only [SendLoop.abortsWith, hrunning, if_true, hevent, SendLoop.errorOf]
  · have hturn := turn_header he hr resetDone
    cases hunnamed : f.Unnamed with
    | false =>
        rw [hunnamed, if_neg Bool.false_ne_true] at hturn
        exact ⟨fun _ => rfl, fun _ => hturn⟩
    | true =>
        rw [hunnamed, if_pos rfl] at hturn
        refine ⟨fun h => ?_, fun h => absurd h (by decide)⟩
        obtain ⟨s', err, hok, -⟩ := h
        rw [hturn] at hok
        cases hok

/-- A borrower with nothing but the header in its buffer. -/
def waiting (header : Header) : Receiver where
  ring := ⟨header.asBytes, header.asBytes.length, le_rfl⟩
  rx := []
  loop := Borrower.start.recv
  ended := none

theorem reaches_waiting (a : Alloc) (b : Build) (header : Header) :
    Reaches a b header (waiting header) where
  start := ⟨waiting header, [], [], [], by simp, by simp, by simp [waiting, Reader.bytes], rfl, rfl, rfl⟩
  running := rfl

/-- A bulk transfer from endpoint `0x81` that ended as libusb says. -/
def readEnded (status : LibusbStatus) : Bulk := ⟨.in [], ⟨0x81⟩, convertLibusbToProto status⟩

/-- A device that is unplugged. -/
theorem unplugged_ends_phys :
    ∃ err : UsbError, (SendLoop.start ⟨1, 2⟩).abortsWith .release
        (.lend (.bulk ⟨7, readEnded .noDevice⟩) .empty) = some err ∧
      EndsPhys .tight .release (waiting err.asHeader) (.ok ()) := by
  obtain ⟨err, habort, hiff⟩ := header_ends_phys_iff .tight .release .release
    (.transfer .bulk ⟨0x81⟩ 7 (.ok .noDevice)) _ (.bulk 7 (.ok .noDevice) (readEnded .noDevice) rfl)
    (by decide) (.start ⟨1, 2⟩) rfl .empty Tokens.sound_empty
  exact ⟨err, habort, (hiff _ (reaches_waiting _ _ _) (.ok ())).mpr rfl⟩

/-- A transfer that ended with `LIBUSB_TRANSFER_ERROR`: the borrower stops with a panic. -/
theorem transfer_error_panics :
    ∃ err : UsbError, (SendLoop.start ⟨1, 2⟩).abortsWith .release
        (.lend (.bulk ⟨7, readEnded .error⟩) .empty) = some err ∧
      err.asHeader = bareHeader .retSubmit .unexpected 7 ∧
      Reaches .tight .release err.asHeader (waiting err.asHeader) ∧
      (waiting err.asHeader).step .tight .release (.frame (.ok ())) = .error .unimplemented := by
  refine ⟨⟨⟨1, 2⟩, 7, .transfer .bulk ⟨0x81⟩ .other⟩, rfl, rfl, reaches_waiting _ _ _, ?_⟩
  have he : (Failure.transfer .bulk ⟨0x81⟩ 7 (.ok .error)).seqError =
      some (.transfer .bulk ⟨0x81⟩ .other) := rfl
  exact turn_header he (reaches_waiting .tight .release _) (.ok ())

end Failure
end Qusb.Lend

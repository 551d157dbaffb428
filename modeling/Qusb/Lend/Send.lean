import Qusb.Base.Tables
import Qusb.Proto.Data
import Qusb.Proto.Errors

/-! The lender's sending side.

A completed transfer becomes one reply frame appended to the buffer; an error that ends the session
becomes a `UsbError` instead. Every transfer holds a cancellation token under its sequence number; a
token comes back for reuse unless it was cancelled. -/

open ByteCodec Tables

namespace Qusb.Lend

open Msg Proto

structure UsbDeviceId where
  busNumber : UInt8
  deviceAddr : UInt8
  deriving DecidableEq, Repr

inductive SeqError where
  | reset
  | transfer (kind : TransferKind) (endpoint : Endpoint) (err : AbortableError)
  deriving DecidableEq, Repr

def SeqError.asCommand : SeqError → Command
  | .reset => .retPort
  | .transfer _ _ _ => .retSubmit

def SeqError.asStatus : SeqError → Status
  | .reset => .noDev
  | .transfer _ _ err => err.asProto

structure UsbError where
  id : UsbDeviceId
  seq : Seq SeqError

def UsbError.asHeader (e : UsbError) : Header :=
  bareHeader e.seq.data.asCommand e.seq.data.asStatus e.seq.seqnum

/-! ### Results of transfers -/

inductive ResultData where
  | in (buf : Bytes)
  | out (bytesTransferred : Nat)
  deriving DecidableEq, Repr

def ResultData.new (buf : Bytes) : Dir → ResultData
  | .out => .out buf.length
  | .in => .in buf

def ResultData.actualTransferLen : ResultData → Nat
  | .in buf => buf.length
  | .out bytesTransferred => bytesTransferred

def ResultData.get : ResultData → Bytes
  | .in buf => buf
  | .out _ => []

theorem ResultData.actualTransferLen_new (buf : Bytes) (dir : Dir) :
    (new buf dir).actualTransferLen = buf.length := by
  cases dir <;> rfl

theorem ResultData.get_length_le (res : ResultData) : res.get.length ≤ res.actualTransferLen := by
  cases res with
  | «in» buf => exact le_rfl
  | out n => exact Nat.zero_le n

structure HeaderData where
  actualTransferLen : UInt16
  transfer : Bytes
  padding : Bytes

def ResultData.asHeaderData (res : ResultData) : HeaderData where
  actualTransferLen := UInt16.ofNat res.actualTransferLen
  transfer := res.get
  padding := padding (UInt16.ofNat res.get.length)

structure Iso where
  res : ResultData
  endpoint : Endpoint
  interval : UInt16
  rawIsoBuf : Bytes
  numErrors : UInt16
  numIsoPackets : UInt16
  status : Except TransferError Unit

structure Int where
  res : ResultData
  endpoint : Endpoint
  interval : UInt16
  status : Except TransferError Unit

structure Ctrl where
  res : ResultData
  endpoint : Endpoint
  status : Except TransferError Unit

structure Bulk where
  res : ResultData
  endpoint : Endpoint
  status : Except TransferError Unit

inductive CompletedTransfer where
  | reset (seq : Seq (Except AbortableError Unit))
  | ctrl (seq : Seq Ctrl)
  | int (seq : Seq Int)
  | iso (seq : Seq Iso)
  | bulk (seq : Seq Bulk)

/-! ### Cancellation tokens -/

/-- A token, and the clones that share its state. -/
abbrev CancelTransferToken := Nat

/-- The tokens of a session: those of active transfers, those kept for reuse, those that were cancelled;
the tokens from `fresh` on do not exist yet. -/
structure Tokens where
  active : Table UInt32 CancelTransferToken
  cached : List CancelTransferToken
  cancelled : List CancelTransferToken
  fresh : CancelTransferToken

namespace Tokens

def empty : Tokens := ⟨∅, [], [], 0⟩

def registerCancelToken (t : Tokens) (seqnum : UInt32) : CancelTransferToken × Tokens :=
  match t.cached with
  | token :: cached => (token, { t with active := t.active.insert seqnum token, cached := cached })
  | [] => (t.fresh, { t with active := t.active.insert seqnum t.fresh, fresh := t.fresh + 1 })

def cancelUrb (t : Tokens) (seqnum : UInt32) : Tokens :=
  match t.active.lookup seqnum with
  | some token => { t with active := t.active.erase seqnum, cancelled := token :: t.cancelled }
  | none => t

def deregisterToken (b : Build) (t : Tokens) (seqnum : UInt32) : Except Fault Tokens :=
  match t.active.lookup seqnum with
  | some token => do
      b.debugAssert (token ∉ t.cancelled)
      return { t with active := t.active.erase seqnum, cached := token :: t.cached }
  | none => .ok t

/-- The tokens that exist, by where they are. -/
def all (t : Tokens) : List CancelTransferToken :=
  t.active.entries.map Sigma.snd ++ (t.cached ++ t.cancelled)

/-- No token is in two places. -/
structure Sound (t : Tokens) : Prop where
  nodup : t.all.Nodup
  lt_fresh : ∀ token ∈ t.all, token < t.fresh

theorem sound_empty : empty.Sound := ⟨List.nodup_nil, by simp [all, empty]⟩

/-- Rearranging the tokens, or forgetting some, keeps them apart. -/
theorem Sound.of_subperm {t t' : Tokens} (h : t.Sound) (hperm : t'.all.Subperm t.all)
    (hfresh : t.fresh = t'.fresh) : t'.Sound := by
  obtain ⟨l, hl, hsub⟩ := hperm
  refine ⟨hl.nodup_iff.mp (h.nodup.sublist hsub), fun token htoken => ?_⟩
  rw [← hfresh]
  exact h.lt_fresh token (hsub.subset (hl.symm.subset htoken))

/-- The token of an active transfer, taken out of the table. -/
theorem active_perm {t : Tokens} {seqnum : UInt32} {token : CancelTransferToken}
    (h : t.active.lookup seqnum = some token) :
    (t.active.entries.map Sigma.snd).Perm (token :: (t.active.erase seqnum).entries.map Sigma.snd) := by
  have hkey : seqnum ∈ t.active.entries.keys := AList.lookup_isSome.mp (by rw [h]; rfl)
  obtain ⟨token', l₁, l₂, -, hsplit, herase⟩ := List.exists_of_kerase hkey
  have hmem : (⟨seqnum, token'⟩ : Sigma fun _ : UInt32 => CancelTransferToken) ∈ t.active.entries := by
    simp [hsplit]
  obtain rfl : token = token' :=
    Option.some.inj (h.symm.trans ((lookup_eq_some_iff _ _ _).mpr hmem))
  have herase' : (t.active.erase seqnum).entries = l₁ ++ l₂ := herase
  rw [herase', hsplit, List.map_append, List.map_append, List.map_cons]
  exact List.perm_middle

theorem Sound.register {t : Tokens} (h : t.Sound) (seqnum : UInt32) :
    (t.registerCancelToken seqnum).2.Sound := by
  have herase : ((t.active.erase seqnum).entries.map Sigma.snd).Sublist
      (t.active.entries.map Sigma.snd) := (List.kerase_sublist seqnum t.active.entries).map _
  unfold registerCancelToken
  cases hcached : t.cached with
  | cons token cached =>
      refine h.of_subperm ?_ rfl
      refine List.Subperm.trans (List.Perm.subperm ?_)
        (herase.append_right (t.cached ++ t.cancelled)).subperm
      rw [hcached]
      exact List.perm_middle.symm
  | nil =>
      have hsub : ((t.active.erase seqnum).entries.map Sigma.snd ++ ([] ++ t.cancelled)).Sublist
          t.all := by
        rw [← hcached]
        exact herase.append_right _
      have hnew : t.fresh ∉ (t.active.erase seqnum).entries.map Sigma.snd ++
          ([] ++ t.cancelled) :=
        fun hmem => absurd (h.lt_fresh _ (hsub.subset hmem)) (lt_irrefl _)
      refine ⟨List.nodup_cons.mpr ⟨hnew, h.nodup.sublist hsub⟩, ?_⟩
      intro token htoken
      show token < t.fresh + 1
      rcases List.mem_cons.mp htoken with rfl | hmem
      · exact Nat.lt_succ_self _
      · exact Nat.lt_succ_of_lt (h.lt_fresh token (hsub.subset hmem))

theorem Sound.cancel {t : Tokens} (h : t.Sound) (seqnum : UInt32) : (t.cancelUrb seqnum).Sound := by
  unfold cancelUrb
  cases hlookup : t.active.lookup seqnum with
  | none => exact h
  | some token =>
      refine h.of_subperm (List.Perm.subperm ?_) rfl
      have hmove := (active_perm hlookup).append_right (t.cached ++ t.cancelled)
      refine List.Perm.trans ?_ hmove.symm
      show ((t.active.erase seqnum).entries.map Sigma.snd ++ (t.cached ++ token :: t.cancelled)).Perm _
      rw [← List.append_assoc, ← List.append_assoc, List.cons_append]
      exact List.perm_middle

/-- A token that is returned was not cancelled, so returning it never fails. -/
theorem Sound.deregister {t : Tokens} (h : t.Sound) (b : Build) (seqnum : UInt32) :
    ∃ t', t.deregisterToken b seqnum = .ok t' ∧ t'.Sound := by
  unfold deregisterToken
  cases hlookup : t.active.lookup seqnum with
  | none => exact ⟨t, rfl, h⟩
  | some token =>
      have hactive := active_perm hlookup
      have hlive : token ∉ t.cancelled := by
        intro hmem
        have hdisj := (List.nodup_append.mp h.nodup).2.2
        exact hdisj token (hactive.symm.subset List.mem_cons_self) token
          (List.mem_append_right _ hmem) rfl
      have hassert : b.debugAssert (token ∉ t.cancelled) = .ok () :=
        Build.debugAssert_eq_ok_iff.mpr fun _ => hlive
      refine ⟨{ t with active := t.active.erase seqnum, cached := token :: t.cached }, ?_, ?_⟩
      · simp only [hassert, ok_bind]
        rfl
      · refine h.of_subperm (List.Perm.subperm ?_) rfl
        refine List.Perm.trans ?_ (hactive.append_right (t.cached ++ t.cancelled)).symm
        exact List.perm_middle

end Tokens

/-! ### The handler -/

structure LendSendHandler where
  devId : UsbDeviceId
  buf : Bytes

namespace LendSendHandler

def new (devId : UsbDeviceId) : LendSendHandler := ⟨devId, []⟩

def putSlice (h : LendSendHandler) (bs : Bytes) : LendSendHandler := { h with buf := h.buf ++ bs }

/-- The reply of a completed transfer. -/
def replyFrame (kind : TransferKind) (seqnum : UInt32) (res : ResultData) (endpoint : Endpoint)
    (interval : UInt16) (rawIsoBuf : Bytes) (numErrors numIsoPackets : UInt16)
    (status : TransferStatus) : Bytes :=
  let data := res.asHeaderData
  let guaranteed := Header.size + UrbHeader.size + rawIsoBuf.length
  let len := guaranteed + data.transfer.length + data.padding.length
  let header : Header := ⟨compressFrameLen len, .retSubmit, .success, seqnum⟩
  let urbHeader : UrbHeader :=
    ⟨data.actualTransferLen, numIsoPackets, endpoint, kind, interval, status, (0, 0, 0), 0, numErrors,
      .zero⟩
  header.asBytes ++ (urbHeader.asBytes ++ (data.transfer ++ (data.padding ++ rawIsoBuf)))

/-- The transfer of a reply is sent padded to eight bytes. -/
theorem replyFrame_length (kind : TransferKind) (seqnum : UInt32) {res : ResultData}
    (endpoint : Endpoint) (interval : UInt16) (rawIsoBuf : Bytes) (numErrors numIsoPackets : UInt16)
    (status : TransferStatus) (hres : res.get.length ≤ 65535) :
    (replyFrame kind seqnum res endpoint interval rawIsoBuf numErrors numIsoPackets status).length =
      32 + (res.get.length + 7) / 8 * 8 + rawIsoBuf.length := by
  have hpad := padding_length (UInt16.ofNat res.get.length)
  rw [UInt16.toNat_ofNat', Nat.mod_eq_of_lt (by omega)] at hpad
  simp only [replyFrame, ResultData.asHeaderData, List.length_append, Header.asBytes_length,
    UrbHeader.asBytes_length]
  omega

/-- The four kinds of completions share one shape. -/
def completed (b : Build) (h : LendSendHandler) (tokens : Tokens) (kind : TransferKind)
    (seqnum : UInt32) (res : ResultData) (endpoint : Endpoint) (interval : UInt16) (rawIsoBuf : Bytes)
    (numErrors numIsoPackets : UInt16) (status : Except TransferError Unit) :
    Except Fault (Except UsbError LendSendHandler × Tokens) := do
  let tokens ← tokens.deregisterToken b seqnum
  let reply (status : TransferStatus) : Except UsbError LendSendHandler :=
    .ok (h.putSlice
      (replyFrame kind seqnum res endpoint interval rawIsoBuf numErrors numIsoPackets status))
  match status with
  | .ok () => return (reply .success, tokens)
  | .error (.reportable err) => return (reply err.toStatus, tokens)
  | .error (.abortable err) =>
      return (.error ⟨h.devId, seqnum, .transfer kind endpoint err⟩, tokens)

/-- A completion that is not the end of the session appends its reply, which is not pending. -/
theorem completed_ok {b : Build} {h h' : LendSendHandler} {tokens tokens' : Tokens}
    {kind : TransferKind} {seqnum : UInt32} {res : ResultData} {endpoint : Endpoint} {interval : UInt16}
    {rawIsoBuf : Bytes} {numErrors numIsoPackets : UInt16} {status : Except TransferError Unit}
    (hok : h.completed b tokens kind seqnum res endpoint interval rawIsoBuf numErrors numIsoPackets
      status = .ok (.ok h', tokens')) :
    ∃ status', status' ≠ .pending ∧ h' = h.putSlice
      (replyFrame kind seqnum res endpoint interval rawIsoBuf numErrors numIsoPackets status') := by
  obtain ⟨tokens₁, -, hok⟩ := bind_eq_ok_iff.mp hok
  cases status with
  | ok u =>
      cases hok
      exact ⟨_, TransferStatus.noConfusion, rfl⟩
  | error err =>
      cases err with
      | reportable err =>
          cases hok
          exact ⟨_, err.toStatus_ne_pending, rfl⟩
      | abortable err => cases hok

def isoCompleted (b : Build) (h : LendSendHandler) (tokens : Tokens) (seq : Seq Iso) :
    Except Fault (Except UsbError LendSendHandler × Tokens) :=
  h.completed b tokens .isochronous seq.seqnum seq.data.res seq.data.endpoint seq.data.interval
    seq.data.rawIsoBuf seq.data.numErrors seq.data.numIsoPackets seq.data.status

def intCompleted (b : Build) (h : LendSendHandler) (tokens : Tokens) (seq : Seq Int) :
    Except Fault (Except UsbError LendSendHandler × Tokens) :=
  h.completed b tokens .interrupt seq.seqnum seq.data.res seq.data.endpoint seq.data.interval [] 0 0
    seq.data.status

def ctrlCompleted (b : Build) (h : LendSendHandler) (tokens : Tokens) (seq : Seq Ctrl) :
    Except Fault (Except UsbError LendSendHandler × Tokens) :=
  h.completed b tokens .control seq.seqnum seq.data.res seq.data.endpoint 0 [] 0 0 seq.data.status

def bulkCompleted (b : Build) (h : LendSendHandler) (tokens : Tokens) (seq : Seq Bulk) :
    Except Fault (Except UsbError LendSendHandler × Tokens) :=
  h.completed b tokens .bulk seq.seqnum seq.data.res seq.data.endpoint 0 [] 0 0 seq.data.status

def deviceResetted (h : LendSendHandler) (seq : Seq (Except AbortableError Unit)) :
    Except UsbError LendSendHandler :=
  match seq.data with
  | .ok () => .ok (h.putSlice (bareHeader .retPort .success seq.seqnum).asBytes)
  | .error _ => .error ⟨h.devId, seq.seqnum, .reset⟩

def handleEvent (b : Build) (h : LendSendHandler) (tokens : Tokens) :
    CompletedTransfer → Except Fault (Except UsbError LendSendHandler × Tokens)
  | .reset seq => .ok (h.deviceResetted seq, tokens)
  | .ctrl seq => h.ctrlCompleted b tokens seq
  | .int seq => h.intCompleted b tokens seq
  | .iso seq => h.isoCompleted b tokens seq
  | .bulk seq => h.bulkCompleted b tokens seq

theorem replyFrame_ne_nil (kind : TransferKind) (seqnum : UInt32) (res : ResultData)
    (endpoint : Endpoint) (interval : UInt16) (rawIsoBuf : Bytes) (numErrors numIsoPackets : UInt16)
    (status : TransferStatus) :
    replyFrame kind seqnum res endpoint interval rawIsoBuf numErrors numIsoPackets status ≠ [] := by
  refine List.append_ne_nil_of_left_ne_nil (List.ne_nil_of_length_pos ?_) _
  rw [Header.asBytes_length]
  decide

/-- A completion that goes through appends a reply. -/
theorem handleEvent_ok {b : Build} {h h' : LendSendHandler} {tokens tokens' : Tokens}
    {completed : CompletedTransfer}
    (hok : h.handleEvent b tokens completed = .ok (.ok h', tokens')) :
    ∃ f, f ≠ [] ∧ h'.buf = h.buf ++ f := by
  have hreply : ∀ kind seqnum res endpoint interval rawIsoBuf numErrors numIsoPackets status,
      h.completed b tokens kind seqnum res endpoint interval rawIsoBuf numErrors numIsoPackets
        status = .ok (.ok h', tokens') → ∃ f, f ≠ [] ∧ h'.buf = h.buf ++ f := by
    intro kind seqnum res endpoint interval rawIsoBuf numErrors numIsoPackets status hok
    obtain ⟨status', -, rfl⟩ := completed_ok hok
    exact ⟨_, replyFrame_ne_nil _ _ _ _ _ _ _ _ _, rfl⟩
  cases completed with
  | reset seq =>
      have hok := (Prod.mk.inj (Except.ok.inj hok)).1
      unfold deviceResetted at hok
      split at hok
      · cases hok
        refine ⟨_, List.ne_nil_of_length_pos ?_, rfl⟩
        rw [Header.asBytes_length]
        decide
      · cases hok
  | ctrl seq => exact hreply _ _ _ _ _ _ _ _ _ hok
  | int seq => exact hreply _ _ _ _ _ _ _ _ _ hok
  | iso seq => exact hreply _ _ _ _ _ _ _ _ _ hok
  | bulk seq => exact hreply _ _ _ _ _ _ _ _ _ hok

end LendSendHandler
end Qusb.Lend

import Qusb.Session.Handshake

/-! One stream, from both ends.

The server's answer is a function of the front of what reaches it, and a client's outcome a function of the
answer. Neither side implements every case of the other: the server panics on a request that ends early and
on some errors of `open_device`, the clients on responses they do not expect and on a stream that ends
before the response. They fit exactly when each stays within what the other implements. -/

open ByteCodec

namespace Qusb.Session

open Msg Proto Lend

/-! ### The server's answer -/

/-- An outcome of `open_device` from which the server goes on. -/
def Opens : Except Fault (Except RusbError Speed) → Prop
  | .error _ => False
  | .ok (.ok speed) => speed ≠ .newer
  | .ok (.error err) => err ≠ .io ∧ err ≠ .overflow ∧ err ≠ .badDescriptor

theorem dataRateOf_ok_iff (speed : Speed) : (∃ rate, dataRateOf speed = .ok rate) ↔ speed ≠ .newer := by
  cases speed <;> simp [dataRateOf]

theorem ofRusb_ok_iff (err : RusbError) (devId : UsbDeviceId) :
    (∃ ret, Error.ofRusb err devId = .ok ret) ↔
      err ≠ .io ∧ err ≠ .overflow ∧ err ≠ .badDescriptor := by
  cases err <;> simp [Error.ofRusb]

@[simp] theorem respond_written {α : Type} (write : Except IoError Unit) (resp : Resp)
    (result : Except Error α) : (respond write resp result).2 = [resp] := by
  cases write <;> rfl

theorem respond_isOk {α : Type} (write : Except IoError Unit) (resp : Resp) (result : Except Error α) :
    (respond write resp result).1.isOk = (result.isOk && write.isOk) := by
  rcases write with _ | _ <;> rcases result with _ | _ <;> rfl

theorem acceptBorrow_ok_iff (openDevice : OpenDevice) (write : Except IoError Unit) (rx : Reader)
    (buf : Ring) (devId : UsbDeviceId) :
    (∃ answered, acceptBorrow openDevice write rx buf devId = .ok answered) ↔ Opens (openDevice devId) := by
  rcases hopen : openDevice devId with f | err | speed <;> simp only [acceptBorrow, hopen]
  · exact ⟨fun ⟨_, h⟩ => (nomatch h), False.elim⟩
  · refine Iff.trans ?_ (ofRusb_ok_iff err devId)
    cases Error.ofRusb err devId <;> simp
  · refine Iff.trans ?_ (dataRateOf_ok_iff speed)
    cases dataRateOf speed <;> simp

theorem acceptBorrow_written {openDevice : OpenDevice} {write : Except IoError Unit} {rx : Reader}
    {buf : Ring} {devId : UsbDeviceId} {answered : Answered ServerResp}
    (h : acceptBorrow openDevice write rx buf devId = .ok answered) : answered.2.length = 1 := by
  unfold acceptBorrow at h
  split at h
  · cases h
  · split at h
    · cases h
    · cases h
      rw [respond_written, List.length_singleton]
  · split at h
    · cases h
    · cases h
      rw [respond_written, List.length_singleton]

theorem acceptReq_ok_iff (openDevice : OpenDevice) (write : Except IoError Unit) (rx : Reader)
    (buf : Ring) (req : Req) :
    (∃ answered, acceptReq openDevice write rx buf req = .ok answered) ↔
      ∀ p devId, req = .borrowDevice p devId → Opens (openDevice devId) := by
  cases req with
  | listDevices p => exact ⟨fun _ _ _ h => (nomatch h), fun _ => ⟨_, rfl⟩⟩
  | borrowDevice p devId =>
      refine (acceptBorrow_ok_iff openDevice write rx buf devId).trans ⟨?_, fun h => h p devId rfl⟩
      intro h p' devId' heq
      cases heq
      exact h
  | lendDevice rate devId => exact ⟨fun _ _ _ h => (nomatch h), fun _ => ⟨_, rfl⟩⟩

theorem acceptReq_written {openDevice : OpenDevice} {write : Except IoError Unit} {rx : Reader}
    {buf : Ring} {req : Req} {answered : Answered ServerResp}
    (h : acceptReq openDevice write rx buf req = .ok answered) : answered.2.length ≤ 1 := by
  cases req with
  | listDevices p =>
      cases h
      exact Nat.zero_le 1
  | borrowDevice p devId => exact (acceptBorrow_written h).le
  | lendDevice rate devId =>
      cases h
      rw [respond_written, List.length_singleton]

/-- The response to a request, and whether the server goes on with it. -/
def replyReq (openDevice : OpenDevice) (iter : Except IoError Bytes) : Req → Except Fault (Resp × Bool)
  | .listDevices _ =>
      match iter with
      | .ok _ => .ok (.listDevices (Pad.zero 7), true)
      | .error _ => .ok (.failure .failed (.none (Pad.zero 4)), false)
  | .borrowDevice _ devId =>
      match openDevice devId with
      | .error f => .error f
      | .ok (.ok speed) => (dataRateOf speed).map fun rate => (.borrowDevice rate (Pad.zero 6), true)
      | .ok (.error err) =>
          (Error.ofRusb err devId).map fun _ => (.failure (statusOfRusb err) (.none (Pad.zero 4)), false)
  | .lendDevice _ _ => .ok (.lendDevice (Pad.zero 7), true)

/-- The response to what can be read of a stream. -/
def reply (ver : Version) (openDevice : OpenDevice) (iter : Except IoError Bytes) :
    Except ReadError ReqFrame → Except Fault (Resp × Bool)
  | .error .corruptedData => .ok (.failure .proto (.some ver), false)
  | .error (.bufferShort _) => .error .unreachable
  | .ok f =>
      if f.version.isCompat ver then replyReq openDevice iter f.req
      else .ok (.failure .versionMismatch (.some ver), false)

/-- The server from the end of `accept_stream` on. -/
def finish (iter : Except IoError Bytes) (write : Except IoError Unit) :
    Except Fault (Answered ServerResp) → Except Fault Served
  | .error f => .error f
  | .ok (.error _, written) => .ok ⟨written, false⟩
  | .ok (.ok .listDevices, written) =>
      .ok ⟨written ++ (sendDeviceList iter write).2, (sendDeviceList iter write).1.isOk⟩
  | .ok (.ok _, written) => .ok ⟨written, true⟩

theorem serve_eq_finish (a : Alloc) (order : ReqFrame.Order) (ver : Version) (openDevice : OpenDevice)
    (iter : Except IoError Bytes) (write : Except IoError Unit) (rx : Reader) :
    serve a order ver openDevice iter write rx =
      finish iter write (acceptStream a order ver openDevice write rx) := by
  unfold serve finish
  split <;> simp_all

theorem finish_ok (iter : Except IoError Bytes) (write : Except IoError Unit)
    (answered : Answered ServerResp) : ∃ served, finish iter write (.ok answered) = .ok served := by
  obtain ⟨_ | (_ | _ | _), written⟩ := answered <;> exact ⟨_, rfl⟩

theorem finish_acceptReq (openDevice : OpenDevice) (iter : Except IoError Bytes)
    (write : Except IoError Unit) (rx : Reader) (buf : Ring) (req : Req) :
    finish iter write (acceptReq openDevice write rx buf req) =
      (replyReq openDevice iter req).map fun r => ⟨[r.1], r.2 && write.isOk⟩ := by
  cases req with
  | listDevices p => rcases iter with _ | _ <;> rcases write with _ | _ <;> rfl
  | borrowDevice p devId =>
      rcases hopen : openDevice devId with f | err | speed <;>
        simp only [acceptReq, acceptBorrow, replyReq, hopen]
      · rfl
      · cases Error.ofRusb err devId with
        | error f => rfl
        | ok ret => cases write <;> rfl
      · cases dataRateOf speed with
        | error f => rfl
        | ok rate => cases write <;> rfl
  | lendDevice rate devId => cases write <;> rfl

/-- **The server's answer.** It is a function of the front of what the stream delivers. -/
theorem serve_eq (a : Alloc) (order : ReqFrame.Order) (ver : Version) (openDevice : OpenDevice)
    (iter : Except IoError Bytes) (write : Except IoError Unit) {rx : Reader}
    (h : rx.errors = [] ∨ ReqFrame.size ≤ rx.beforeError.length) :
    serve a order ver openDevice iter write rx =
      (reply ver openDevice iter (frontOf (ReqFrame.layout order) rx.beforeError)).map
        fun r => ⟨[r.1], r.2 && write.isOk⟩ := by
  obtain ⟨rx', buf, haccept⟩ := acceptStream_eq a order ver openDevice write h
  rw [serve_eq_finish, haccept]
  rcases frontOf (ReqFrame.layout order) rx.beforeError with (_ | _) | f
  · cases write <;> rfl
  · rfl
  · unfold reply
    by_cases hcompat : f.version.isCompat ver = true
    · simp only [if_pos hcompat]
      exact finish_acceptReq openDevice iter write rx' buf f.req
    · simp only [if_neg hcompat]
      cases write <;> rfl

/-- The client takes a response for what the server did. -/
def Query.Understands (q : Query) (resp : Resp) (proceeded : Bool) : Prop :=
  ∃ result, q.onResp resp = .ok result ∧ result.isOk = proceeded

/-- An outcome of `open_device` whose response a borrower implements. -/
def Reported : Except Fault (Except RusbError Speed) → Prop
  | .error _ => False
  | .ok (.ok _) => True
  | .ok (.error err) => err = .noDevice ∨ err = .notFound ∨ err = .busy

/-- What the server finds when it goes on with a request, if the response to it is implemented. -/
def Query.Answerable (openDevice : OpenDevice) (iter : Except IoError Bytes) : Query → Prop
  | .listDevices => iter.isOk
  | .borrow id => Reported (openDevice id)
  | .lend _ => True

/-- Of a request that the server cannot read, only a client that asks for the list has to know. -/
def Query.Implements (ver : Version) (openDevice : OpenDevice) (iter : Except IoError Bytes) (q : Query) :
    Except ReadError ReqFrame → Prop
  | .error _ => q ≠ .listDevices
  | .ok f => f.version.isCompat ver → q.Answerable openDevice iter

theorem understands_versionMismatch (q : Query) (ver : Version) :
    q.Understands (.failure .versionMismatch (.some ver)) false := by
  cases q <;> exact ⟨_, rfl, rfl⟩

theorem understands_proto_iff (q : Query) (ver : Version) :
    q.Understands (.failure .proto (.some ver)) false ↔ q ≠ .listDevices := by
  cases q with
  | listDevices => exact ⟨fun ⟨_, h, _⟩ => (nomatch h), fun h => absurd rfl h⟩
  | borrow id => exact ⟨fun _ => nofun, fun _ => ⟨_, rfl, rfl⟩⟩
  | lend id => exact ⟨fun _ => nofun, fun _ => ⟨_, rfl, rfl⟩⟩

/-- A borrower implements the responses to three of the errors of `open_device`. -/
theorem understands_open_error_iff (id : UsbDeviceId) {err : RusbError} {ret : Error}
    (h : Error.ofRusb err id = .ok ret) :
    (Query.borrow id).Understands (.failure (statusOfRusb err) (.none (Pad.zero 4))) false ↔
      err = .noDevice ∨ err = .notFound ∨ err = .busy := by
  cases err <;> simp [Query.Understands, Query.onResp, onBorrow, onDevice, statusOfRusb, forget, Except.map,
    Except.isOk, Except.toBool, Error.ofRusb] at h ⊢

/-- The request asks for what the client asks for: its padding and its data rate do not matter. -/
def Query.Matches : Query → Req → Prop
  | .listDevices, .listDevices _ => True
  | .borrow id, .borrowDevice _ devId => devId = id
  | .lend id, .lendDevice _ devId => devId = id
  | _, _ => False

theorem Query.matches_req {q : Query} {clientOpen : OpenDevice} {req : Req}
    (hreq : q.req clientOpen = some req) : q.Matches req := by
  cases q with
  | listDevices =>
      cases hreq
      exact trivial
  | borrow id =>
      cases hreq
      exact rfl
  | lend id =>
      obtain ⟨speed, rate, -, -, rfl⟩ := Query.lend_req hreq
      exact rfl

theorem understands_replyReq {q : Query} {openDevice : OpenDevice} {iter : Except IoError Bytes}
    {req : Req} {r : Resp × Bool} (hmatch : q.Matches req) (h : replyReq openDevice iter req = .ok r) :
    q.Understands r.1 r.2 ↔ q.Answerable openDevice iter := by
  cases q with
  | listDevices =>
      cases req with
      | borrowDevice p devId => exact hmatch.elim
      | lendDevice rate devId => exact hmatch.elim
      | listDevices p =>
          rcases iter with err | devices
          · cases h
            exact ⟨fun ⟨_, hresp, _⟩ => (nomatch hresp), fun h => (nomatch h)⟩
          · cases h
            exact ⟨fun _ => rfl, fun _ => ⟨_, rfl, rfl⟩⟩
  | borrow id =>
      cases req with
      | listDevices p => exact hmatch.elim
      | lendDevice rate devId => exact hmatch.elim
      | borrowDevice p devId =>
          obtain rfl : devId = id := hmatch
          rcases hopen : openDevice devId with f | err | speed <;>
            simp only [replyReq, Query.Answerable, Reported, hopen] at h ⊢
          · cases h
          · cases hret : Error.ofRusb err devId with
            | error f =>
                rw [hret] at h
                cases h
            | ok ret =>
                rw [hret] at h
                cases h
                exact understands_open_error_iff devId hret
          · cases hrate : dataRateOf speed with
            | error f =>
                rw [hrate] at h
                cases h
            | ok rate =>
                rw [hrate] at h
                cases h
                exact ⟨fun _ => trivial, fun _ => ⟨_, rfl, rfl⟩⟩
  | lend id =>
      cases req with
      | listDevices p => exact hmatch.elim
      | borrowDevice p devId => exact hmatch.elim
      | lendDevice rate devId =>
          cases h
          exact ⟨fun _ => trivial, fun _ => ⟨_, rfl, rfl⟩⟩

section Dispatch

variable {ver : Version} {openDevice : OpenDevice} {iter : Except IoError Bytes}
  {front : Except ReadError ReqFrame} {r : Resp × Bool}

/-- **The client's dispatch against the server's.** -/
theorem understands_reply {q : Query}
    (hfront : ∀ f, front = .ok f → f.version.isCompat ver → q.Matches f.req)
    (h : reply ver openDevice iter front = .ok r) :
    q.Understands r.1 r.2 ↔ q.Implements ver openDevice iter front := by
  rcases front with (_ | _) | f
  · cases h
    exact understands_proto_iff q ver
  · cases h
  · by_cases hcompat : f.version.isCompat ver = true
    · rw [reply, if_pos hcompat] at h
      rw [understands_replyReq (hfront f rfl hcompat) h]
      exact ⟨fun ha _ => ha, fun hi => hi hcompat⟩
    · rw [reply, if_neg hcompat] at h
      cases h
      exact ⟨fun _ hc => absurd hc hcompat, fun _ => understands_versionMismatch q ver⟩

/-- The server goes on only with a request of a compatible version. -/
theorem compat_of_reply (h : reply ver openDevice iter front = .ok r) (hgoes : r.2 = true) :
    ∃ f, front = .ok f ∧ f.version.isCompat ver = true := by
  rcases front with (_ | _) | f
  · cases h
    cases hgoes
  · cases h
  · by_cases hcompat : f.version.isCompat ver = true
    · exact ⟨f, rfl, hcompat⟩
    · rw [reply, if_neg hcompat] at h
      cases h
      cases hgoes

theorem replyReq_list {req : Req} (hmatch : Query.listDevices.Matches req)
    (h : replyReq openDevice iter req = .ok r) : r.2 = iter.isOk := by
  cases req with
  | borrowDevice p devId => exact hmatch.elim
  | lendDevice rate devId => exact hmatch.elim
  | listDevices p => rcases iter with _ | _ <;> (cases h; rfl)

/-- With a request for the list it goes on if it can list the devices. -/
theorem reply_list_iff (hfront : ∀ f, front = .ok f → f.version.isCompat ver → Query.listDevices.Matches f.req)
    (h : reply ver openDevice iter front = .ok r) :
    r.2 = true ↔ ∃ f, front = .ok f ∧ f.version.isCompat ver = true ∧ iter.isOk = true := by
  constructor
  · intro hgoes
    obtain ⟨f, rfl, hcompat⟩ := compat_of_reply h hgoes
    rw [reply, if_pos hcompat] at h
    exact ⟨f, rfl, hcompat, (replyReq_list (hfront f rfl hcompat) h).symm.trans hgoes⟩
  · rintro ⟨f, rfl, hcompat, hiter⟩
    rw [reply, if_pos hcompat] at h
    exact (replyReq_list (hfront f rfl hcompat) h).trans hiter

end Dispatch

/-! ### One stream -/

/-- A stream that a client opened. What the server receives is arbitrary; what the client receives is what
the server wrote, up to a point where the stream ends or fails. -/
structure Exchange where
  alloc : Alloc
  order : ReqFrame.Order
  /-- The server's version. -/
  ver : Version
  openDevice : OpenDevice
  iter : Except IoError Bytes
  /-- Whether the server could write its response. -/
  write : Except IoError Unit
  received : Reader
  query : Query
  clientOpen : OpenDevice
  /-- Whether the client could write its request. -/
  sent : Except IoError Unit
  /-- What the operator writes after the response. -/
  rest : Bytes
  answer : Reader
  arrives : ∀ served, serve alloc order ver openDevice iter write received = .ok served →
    answer.beforeError <+: served.written.flatMap Resp.toBytes ++ if served.proceeded then rest else []
  unwritten : ∀ e, write = .error e → answer.beforeError.length < Resp.size

namespace Exchange

/-- The request as the server reads it. -/
def front (x : Exchange) : Except ReadError ReqFrame :=
  frontOf (ReqFrame.layout x.order) x.received.beforeError

def accept (x : Exchange) : Except Fault (Answered ServerResp) :=
  acceptStream x.alloc x.order x.ver x.openDevice x.write x.received

def serve (x : Exchange) : Except Fault Served :=
  Session.serve x.alloc x.order x.ver x.openDevice x.iter x.write x.received

def run (x : Exchange) : Except Fault (Except Error Unit) := x.query.run x.alloc x.clientOpen x.sent x.answer

/-- The client got to send its request. -/
def Sends (x : Exchange) : Prop := x.sent = .ok () ∧ ∃ req, x.query.req x.clientOpen = some req

/-- A whole response reaches the client. -/
def Whole (x : Exchange) : Prop := Resp.size ≤ x.answer.beforeError.length

/-- The client is the one that matches: it sent a request, and one of a compatible version asks for the same. -/
def Matching (x : Exchange) : Prop :=
  ∀ f, x.front = .ok f → f.version.isCompat x.ver → x.query.Matches f.req ∧ x.Sends

/-- The server returns, writes at most one response, and goes on only with a compatible version. -/
def ServerCloses (x : Exchange) : Prop :=
  ∃ answered, x.accept = .ok answered ∧ answered.2.length ≤ 1 ∧
    (answered.1.isOk → ∃ f, x.front = .ok f ∧ f.version.isCompat x.ver)

/-- The client returns, with `Ok` exactly when the server went on and its response arrived. -/
def Follows (x : Exchange) (served : Served) : Prop :=
  ∃ result, x.run = .ok result ∧ (result.isOk ↔ served.proceeded ∧ x.Whole)

/-- If the server returns then the matching client follows it. -/
def ClientCloses (x : Exchange) : Prop := x.Matching → ∀ served, x.serve = .ok served → x.Follows served

/-- A whole request or an I/O error reaches the server, and to borrow a device does not fail in a way that
is not implemented. -/
def Servable (x : Exchange) : Prop :=
  (x.received.errors ≠ [] ∨ ReqFrame.size ≤ x.received.beforeError.length) ∧
    ∀ f p devId, x.front = .ok f → f.version.isCompat x.ver → f.req = .borrowDevice p devId →
      Opens (x.openDevice devId)

/-- An I/O error comes before the bytes that the client waits for. -/
def Interrupted (x : Exchange) : Prop :=
  x.answer.errors ≠ [] ∧ x.answer.beforeError.length < x.query.wanted

/-- The server reads a request of a compatible version and can list its devices. -/
def Listable (x : Exchange) : Prop :=
  ∃ f, x.front = .ok f ∧ f.version.isCompat x.ver = true ∧ x.iter.isOk = true

/-- Once the client sent its request: no I/O error cuts off a list whose response arrived; a client that does
not ask for the list gets a whole response or an I/O error; and of a whole response it implements what the
server found. -/
def Heard (x : Exchange) : Prop :=
  (x.Interrupted → x.Whole → ¬ x.Listable) ∧
    (¬ x.Interrupted → ¬ x.Whole → x.query = .listDevices) ∧
    (¬ x.Interrupted → x.Whole → x.query.Implements x.ver x.openDevice x.iter x.front)

/-- A client that lends opens its device or fails in a way that is implemented, and once it sent its request
it implements what it hears. -/
def Implemented (x : Exchange) : Prop :=
  (∀ id, x.query = .lend id → Opens (x.clientOpen id)) ∧
    (x.Sends → x.Heard)

/-! ### The server's side -/

theorem accept_io {x : Exchange} (herrors : x.received.errors ≠ [])
    (hshort : x.received.beforeError.length < ReqFrame.size) :
    ∃ e, x.accept = .ok (.error (.stream e), []) :=
  acceptStream_io x.alloc x.order x.ver x.openDevice x.write herrors hshort

theorem front_of_short {x : Exchange} (hshort : x.received.beforeError.length < ReqFrame.size) :
    ∃ n, x.front = .error (.bufferShort n) :=
  ⟨_, frontOf_of_lt (ReqFrame.layout x.order) (hshort.trans_eq (ReqFrame.width_eq x.order).symm)⟩

/-- A stream that ends early panics the server. -/
theorem accept_short {x : Exchange} (hnil : x.received.errors = [])
    (hshort : x.received.beforeError.length < ReqFrame.size) : x.accept = .error .unreachable := by
  obtain ⟨rx', buf, haccept⟩ := acceptStream_eq x.alloc x.order x.ver x.openDevice x.write (Or.inl hnil)
  obtain ⟨n, hfront⟩ := front_of_short hshort
  rw [show frontOf (ReqFrame.layout x.order) x.received.beforeError = _ from hfront] at haccept
  exact haccept

/-- A refusal returns `Err` after one response. -/
theorem serverCloses_of_refusal {x : Exchange} {resp : Resp} {err : Error}
    (h : x.accept = .ok (respond x.write resp (.error err))) : x.ServerCloses := by
  refine ⟨_, h, ?_, ?_⟩
  · rw [respond_written, List.length_singleton]
  · rw [respond_isOk]
    exact fun hok => nomatch hok

/-- Only a request with a compatible version asks for more than its bytes. -/
theorem servable_of_refused {x : Exchange}
    (hread : x.received.errors ≠ [] ∨ ReqFrame.size ≤ x.received.beforeError.length)
    (h : ∀ f, x.front = .ok f → ¬ f.version.isCompat x.ver = true) : x.Servable :=
  ⟨hread, fun f _ _ hf hcompat _ => absurd hcompat (h f hf)⟩

/-- The server goes on with a request that it reads and whose version is compatible, unless it is to borrow a
device that fails to open in a way that is not implemented. -/
theorem serverCloses_compat_iff {x : Exchange} {rx : Reader} {buf : Ring} {f : ReqFrame}
    (hle : ReqFrame.size ≤ x.received.beforeError.length) (hfront : x.front = .ok f)
    (hcompat : f.version.isCompat x.ver = true)
    (haccept : x.accept = acceptReq x.openDevice x.write rx buf f.req) : x.ServerCloses ↔ x.Servable := by
  have hok := acceptReq_ok_iff x.openDevice x.write rx buf f.req
  constructor
  · rintro ⟨answered, hacc, -⟩
    refine ⟨Or.inr hle, fun g p devId hg _ hreq => ?_⟩
    obtain rfl : f = g := Except.ok.inj (hfront.symm.trans hg)
    exact hok.mp ⟨answered, haccept.symm.trans hacc⟩ p devId hreq
  · rintro ⟨-, hopens⟩
    obtain ⟨answered, hacc⟩ := hok.mpr fun p devId hreq => hopens f p devId hfront hcompat hreq
    exact ⟨answered, haccept.trans hacc, acceptReq_written hacc, fun _ => ⟨f, hfront, hcompat⟩⟩

theorem serverCloses_iff (x : Exchange) : x.ServerCloses ↔ x.Servable := by
  by_cases hshort : x.received.beforeError.length < ReqFrame.size
  · by_cases hnil : x.received.errors = []
    · have haccept := accept_short hnil hshort
      constructor
      · rintro ⟨answered, hok, -⟩
        rw [haccept] at hok
        cases hok
      · rintro ⟨herrors | hle, -⟩
        · exact absurd hnil herrors
        · omega
    · obtain ⟨e, haccept⟩ := accept_io hnil hshort
      obtain ⟨n, hfront⟩ := front_of_short hshort
      refine iff_of_true ⟨_, haccept, Nat.zero_le 1, nofun⟩ (servable_of_refused (Or.inl hnil) fun f hf => ?_)
      rw [hfront] at hf
      cases hf
  · have hle : ReqFrame.size ≤ x.received.beforeError.length := Nat.le_of_not_lt hshort
    obtain ⟨rx', buf, haccept⟩ := acceptStream_eq x.alloc x.order x.ver x.openDevice x.write (Or.inr hle)
    change x.accept = _ at haccept
    cases hfront : x.front with
    | error err =>
        rw [show frontOf (ReqFrame.layout x.order) x.received.beforeError = _ from hfront] at haccept
        cases err with
        | corruptedData =>
            refine iff_of_true (serverCloses_of_refusal haccept) (servable_of_refused (Or.inr hle) fun f hf => ?_)
            rw [hfront] at hf
            cases hf
        | bufferShort n =>
            exact absurd ((lt_of_frontOf hfront).trans_eq (ReqFrame.width_eq x.order)) hshort
    | ok f =>
        rw [show frontOf (ReqFrame.layout x.order) x.received.beforeError = _ from hfront] at haccept
        by_cases hcompat : f.version.isCompat x.ver = true
        · simp only [if_pos hcompat] at haccept
          exact serverCloses_compat_iff hle hfront hcompat haccept
        · simp only [if_neg hcompat] at haccept
          refine iff_of_true (serverCloses_of_refusal haccept) (servable_of_refused (Or.inr hle) fun g hg => ?_)
          obtain rfl : f = g := Except.ok.inj (hfront.symm.trans hg)
          exact hcompat

/-- A server that accepts the stream also returns from what follows. -/
theorem serve_of_accept {x : Exchange} {answered : Answered ServerResp} (haccept : x.accept = .ok answered) :
    ∃ served, x.serve = .ok served := by
  obtain ⟨served, hfinish⟩ := finish_ok x.iter x.write answered
  have hserve := serve_eq_finish x.alloc x.order x.ver x.openDevice x.iter x.write x.received
  rw [show acceptStream x.alloc x.order x.ver x.openDevice x.write x.received = _ from haccept] at hserve
  exact ⟨served, hserve.trans hfinish⟩

/-! ### The client's side -/

theorem onShort_isErr_iff (q : Query) :
    (∃ result, q.onShort = .ok result ∧ result.isOk = false) ↔ q = .listDevices := by
  cases q with
  | listDevices => exact ⟨fun _ => rfl, fun _ => ⟨_, rfl, rfl⟩⟩
  | borrow id => exact ⟨fun ⟨_, h, _⟩ => (nomatch h), nofun⟩
  | lend id => exact ⟨fun ⟨_, h, _⟩ => (nomatch h), nofun⟩

/-- A client returns `Err`. -/
theorem isErr_returned (err : Error) :
    ∃ result : Except Error Unit, (.ok (.error err) : Except Fault (Except Error Unit)) = .ok result ∧
      result.isOk = false :=
  ⟨_, rfl, rfl⟩

theorem not_isErr_panicked (f : Fault) :
    ¬ ∃ result : Except Error Unit, (.error f : Except Fault (Except Error Unit)) = .ok result ∧
      result.isOk = false := by
  rintro ⟨result, h, -⟩
  cases h

/-- A client that cannot send its request returns `Err` or panics for that alone. -/
theorem run_unsent_iff {x : Exchange} (hunsent : ¬ x.Sends) :
    (∃ result, x.run = .ok result ∧ result.isOk = false) ↔
      ∀ id, x.query = .lend id → Opens (x.clientOpen id) := by
  unfold Sends at hunsent
  unfold Exchange.run
  cases hquery : x.query with
  | listDevices =>
      rw [hquery] at hunsent
      refine iff_of_true ?_ (by rintro id ⟨⟩)
      cases hsent : x.sent with
      | error e => exact isErr_returned _
      | ok u => exact absurd ⟨hsent, _, rfl⟩ hunsent
  | borrow id =>
      rw [hquery] at hunsent
      refine iff_of_true ?_ (by rintro id ⟨⟩)
      cases hsent : x.sent with
      | error e => exact isErr_returned _
      | ok u => exact absurd ⟨hsent, _, rfl⟩ hunsent
  | lend id =>
      rw [hquery] at hunsent
      have hlend : (∀ id', Query.lend id = .lend id' → Opens (x.clientOpen id')) ↔ Opens (x.clientOpen id) :=
        ⟨fun h => h id rfl, fun h id' heq => Query.lend.inj heq ▸ h⟩
      rw [hlend]
      rcases hopen : x.clientOpen id with f | err | speed <;>
        simp only [Query.run, Query.req, reqLend, hopen] at hunsent ⊢
      · exact iff_of_false (not_isErr_panicked f) not_false
      · refine Iff.trans ?_ (ofRusb_ok_iff err id)
        cases Error.ofRusb err id with
        | error f => exact iff_of_false (not_isErr_panicked f) (by rintro ⟨ret, ⟨⟩⟩)
        | ok ret => exact iff_of_true (isErr_returned ret) ⟨ret, rfl⟩
      · refine Iff.trans ?_ (dataRateOf_ok_iff speed)
        cases hrate : dataRateOf speed with
        | error f => exact iff_of_false (not_isErr_panicked f) (by rintro ⟨rate, ⟨⟩⟩)
        | ok rate =>
            rw [hrate] at hunsent
            refine iff_of_true ?_ ⟨rate, rfl⟩
            cases hsent : x.sent with
            | error e => exact isErr_returned _
            | ok u => exact absurd ⟨hsent, _, rfl⟩ hunsent

/-- A client that sends its request opened its device. -/
theorem opens_of_req {q : Query} {openDevice : OpenDevice} {req : Req} (hreq : q.req openDevice = some req) :
    ∀ id, q = .lend id → Opens (openDevice id) := by
  rintro id rfl
  obtain ⟨speed, rate, hopen, hrate, -⟩ := Query.lend_req hreq
  rw [hopen]
  exact (dataRateOf_ok_iff speed).mp ⟨rate, hrate⟩

/-- Only a list is waited for beyond its response. -/
theorem query_of_interrupted {x : Exchange} (hint : x.Interrupted) (hwhole : x.Whole) :
    x.query = .listDevices := by
  have hlt : Resp.size < x.query.wanted := hwhole.trans_lt hint.2
  cases hq : x.query with
  | listDevices => rfl
  | borrow id =>
      rw [hq] at hlt
      exact absurd hlt (Nat.lt_irrefl _)
  | lend id =>
      rw [hq] at hlt
      exact absurd hlt (Nat.lt_irrefl _)

/-- A whole response arrives only of a server that read a request and wrote a response to it. -/
theorem replied_of_whole {x : Exchange} {served : Served} (hserve : x.serve = .ok served)
    (hwhole : x.Whole) :
    ∃ r, reply x.ver x.openDevice x.iter x.front = .ok r ∧ served = ⟨[r.1], r.2⟩ ∧
      frontOf Resp.layout x.answer.beforeError = .ok r.1 := by
  have harrives := x.arrives served hserve
  have hwrite : x.write = .ok () := by
    cases hw : x.write with
    | ok u => rfl
    | error e => exact absurd (x.unwritten e hw) (Nat.not_lt_of_le hwhole)
  have hread : x.received.errors = [] ∨ ReqFrame.size ≤ x.received.beforeError.length := by
    by_contra hcon
    obtain ⟨herrors, hshort⟩ := not_or.mp hcon
    obtain ⟨e, haccept⟩ := accept_io herrors (Nat.lt_of_not_le hshort)
    have hfinish := serve_eq_finish x.alloc x.order x.ver x.openDevice x.iter x.write x.received
    rw [show acceptStream x.alloc x.order x.ver x.openDevice x.write x.received = _ from haccept] at hfinish
    cases hserve.symm.trans hfinish
    have hnone := harrives.length_le
    simp only [List.flatMap_nil, Bool.false_eq_true, if_false, List.append_nil, List.length_nil] at hnone
    exact absurd (Nat.le_trans hwhole hnone) (by decide)
  have heq : x.serve = (reply x.ver x.openDevice x.iter x.front).map
      fun r => ⟨[r.1], r.2 && x.write.isOk⟩ :=
    serve_eq x.alloc x.order x.ver x.openDevice x.iter x.write hread
  rw [hserve, hwrite] at heq
  cases hreply : reply x.ver x.openDevice x.iter x.front with
  | error f =>
      rw [hreply] at heq
      cases heq
  | ok r =>
      rw [hreply] at heq
      have hserved : served = ⟨[r.1], r.2⟩ := (Except.ok.inj heq).trans (by simp [Except.isOk, Except.toBool])
      refine ⟨r, rfl, hserved, ?_⟩
      rw [hserved] at harrives
      rw [frontOf_mono Resp.layout harrives hwhole]
      simp only [List.flatMap_singleton]
      exact frontOf_encode Resp.layout r.1 _

section Client

variable {x : Exchange} {served : Served}

/-- Where the server did not go on or its response did not arrive, the client has to return `Err`. -/
theorem follows_iff_isErr (h : ¬ (served.proceeded = true ∧ x.Whole)) :
    x.Follows served ↔ ∃ result, x.run = .ok result ∧ result.isOk = false := by
  simp only [Follows, h, iff_false, Bool.not_eq_true]

/-- The server does not go on with a request that was not sent. -/
theorem follows_unsent_iff (hmatch : x.Matching) (hserve : x.serve = .ok served)
    (hunsent : ¬ x.Sends) : x.Follows served ↔ x.Implemented := by
  have hstays : ¬ (served.proceeded = true ∧ x.Whole) := by
    rintro ⟨hgoes, hwhole⟩
    obtain ⟨r, hreply, rfl, -⟩ := replied_of_whole hserve hwhole
    obtain ⟨f, hfront, hcompat⟩ := compat_of_reply hreply hgoes
    exact hunsent (hmatch f hfront hcompat).2
  rw [follows_iff_isErr hstays]
  exact (run_unsent_iff hunsent).trans ⟨fun h => ⟨h, fun hsends => absurd hsends hunsent⟩, fun h => h.1⟩

theorem run_sent (hsent : x.sent = .ok ()) : x.run = x.query.run x.alloc x.clientOpen (.ok ()) x.answer := by
  rw [Exchange.run, hsent]

/-- A client whose stream fails returns `Err`, whatever the server did. -/
theorem follows_interrupted_iff (hmatch : x.Matching) (hserve : x.serve = .ok served)
    (hsends : x.Sends) (hint : x.Interrupted) : x.Follows served ↔ (x.Whole → ¬ x.Listable) := by
  obtain ⟨hsent, req, hreq⟩ := hsends
  obtain ⟨e, hrun⟩ : ∃ e, x.run = .ok (.error (.stream e)) := by
    rw [run_sent hsent]
    exact Query.run_io hreq x.alloc hint.1 hint.2
  calc x.Follows served ↔ ¬ (served.proceeded = true ∧ x.Whole) := by
        refine ⟨fun ⟨result, hresult, hok⟩ hgoes => ?_, fun h => ⟨_, hrun, iff_of_false nofun h⟩⟩
        rw [hrun] at hresult
        cases hresult
        cases hok.mpr hgoes
    _ ↔ (x.Whole → ¬ served.proceeded = true) := not_and'
    _ ↔ (x.Whole → ¬ x.Listable) := by
        refine imp_congr_right fun hwhole => not_congr ?_
        obtain ⟨r, hreply, rfl, -⟩ := replied_of_whole hserve hwhole
        have hlist := query_of_interrupted hint hwhole
        exact reply_list_iff (fun f hfront hcompat => hlist ▸ (hmatch f hfront hcompat).1) hreply

/-- Without a whole response only a client that asks for the list returns. -/
theorem follows_short_iff (hsends : x.Sends) (hnil : x.answer.errors = []) (hshort : ¬ x.Whole) :
    x.Follows served ↔ x.query = .listDevices := by
  obtain ⟨hsent, req, hreq⟩ := hsends
  have hfront := frontOf_of_lt Resp.layout (Nat.lt_of_not_le hshort)
  have hrun : x.run = x.query.onShort := by
    rw [run_sent hsent, Query.run_eq hreq x.alloc (Or.inl hnil), hfront]
  rw [follows_iff_isErr fun h => hshort h.2, hrun]
  exact onShort_isErr_iff x.query

/-- With one it has to understand what the server found. -/
theorem follows_whole_iff (hmatch : x.Matching) (hserve : x.serve = .ok served)
    (hsends : x.Sends)
    (hread : x.answer.errors = [] ∨ x.query.wanted ≤ x.answer.beforeError.length) (hwhole : x.Whole) :
    x.Follows served ↔ x.query.Implements x.ver x.openDevice x.iter x.front := by
  obtain ⟨hsent, req, hreq⟩ := hsends
  obtain ⟨r, hreply, rfl, hfront⟩ := replied_of_whole hserve hwhole
  have hrun : x.run = x.query.onResp r.1 := by
    rw [run_sent hsent, Query.run_eq hreq x.alloc hread, hfront]
  calc x.Follows ⟨[r.1], r.2⟩ ↔ x.query.Understands r.1 r.2 := by
        rw [Follows, hrun]
        refine exists_congr fun result => and_congr_right fun _ => ?_
        rw [and_iff_left hwhole]
        exact Bool.eq_iff_iff.symm
    _ ↔ x.query.Implements x.ver x.openDevice x.iter x.front :=
        understands_reply (fun f hf hcompat => (hmatch f hf hcompat).1) hreply

theorem follows_iff (hmatch : x.Matching) (hserve : x.serve = .ok served) :
    x.Follows served ↔ x.Implemented := by
  by_cases hsends : x.Sends
  · have hheard : x.Implemented ↔ x.Heard := by
      have ⟨_, _, hreq⟩ := hsends
      exact ⟨fun h => h.2 hsends, fun h => ⟨opens_of_req hreq, fun _ => h⟩⟩
    rw [hheard]
    by_cases hint : x.Interrupted
    · rw [follows_interrupted_iff hmatch hserve hsends hint]
      simp only [Heard, hint, not_true_eq_false, false_implies, true_implies, and_true]
    · have hread : x.answer.errors = [] ∨ x.query.wanted ≤ x.answer.beforeError.length := by
        by_contra hcon
        obtain ⟨herrors, hlt⟩ := not_or.mp hcon
        exact hint ⟨herrors, Nat.lt_of_not_le hlt⟩
      by_cases hwhole : x.Whole
      · rw [follows_whole_iff hmatch hserve hsends hread hwhole]
        simp only [Heard, hint, hwhole, not_true_eq_false, not_false_eq_true, false_implies, true_implies,
          implies_true, true_and]
      · have hnil : x.answer.errors = [] :=
          hread.resolve_right fun hle => hwhole ((Query.size_le_wanted x.query).trans hle)
        rw [follows_short_iff hsends hnil hwhole]
        simp only [Heard, hint, hwhole, not_false_eq_true, false_implies, true_implies, implies_true, true_and,
          and_true]
  · exact follows_unsent_iff hmatch hserve hsends

theorem clientCloses_iff (hserve : x.serve = .ok served) :
    x.ClientCloses ↔ (x.Matching → x.Implemented) := by
  refine forall_congr' fun hmatch => ?_
  rw [← follows_iff hmatch hserve]
  refine ⟨fun h => h served hserve, fun h other hother => ?_⟩
  obtain rfl : served = other := Except.ok.inj (hserve.symm.trans hother)
  exact h

end Client

/-! ### Exchanges that are not closed -/

/-- A chunk of one message. -/
def chunkOf {α : Type} (L : Layout α) (a : α) (h : L.width ≠ 0) : Chunk :=
  ⟨L.encode a, fun hnil => h (by rw [← L.length_encode a, hnil, List.length_nil])⟩

theorem beforeError_chunkOf {α : Type} (L : Layout α) (a : α) (h : L.width ≠ 0) :
    Reader.beforeError (.ofChunks [chunkOf L a h]) = L.encode a := List.append_nil _

theorem frontOf_chunkOf {α : Type} (L : Layout α) (a : α) (h : L.width ≠ 0) :
    frontOf L (Reader.beforeError (.ofChunks [chunkOf L a h])) = .ok a := by
  rw [beforeError_chunkOf, ← List.append_nil (L.encode a), frontOf_encode]

theorem width_ne_zero (order : ReqFrame.Order) : (ReqFrame.layout order).width ≠ 0 := by
  rw [ReqFrame.width_eq]
  decide

/-- The exchange in which a request and the response to it arrive whole. -/
def ofFrame (order : ReqFrame.Order) (ver : Version) (openDevice : OpenDevice) (iter : Except IoError Bytes)
    (query : Query) (clientOpen : OpenDevice) (frame : ReqFrame) {r : Resp × Bool}
    (hreply : reply ver openDevice iter (.ok frame) = .ok r) : Exchange where
  alloc := .tight
  order := order
  ver := ver
  openDevice := openDevice
  iter := iter
  write := .ok ()
  received := .ofChunks [chunkOf (ReqFrame.layout order) frame (width_ne_zero order)]
  query := query
  clientOpen := clientOpen
  sent := .ok ()
  rest := []
  answer := .ofChunks [chunkOf Resp.layout r.1 (by decide)]
  arrives served hserve := by
    rw [serve_eq _ _ _ _ _ _ (Or.inl (Reader.errors_ofChunks _)), frontOf_chunkOf, hreply] at hserve
    obtain rfl := Except.ok.inj hserve
    rw [beforeError_chunkOf]
    simp only [List.flatMap_singleton]
    exact List.prefix_append _ _
  unwritten e he := nomatch he

/-- A request to borrow a device that the server is not allowed to open. -/
def refused (order : ReqFrame.Order) : Exchange :=
  ofFrame order ⟨0, 4, 0⟩ (fun _ => .ok (.error .access)) (.ok []) (.borrow ⟨1, 2⟩)
    (fun _ => .ok (.error .noDevice)) ⟨⟨0, 4, 0⟩, .borrowDevice (Pad.zero 1) ⟨1, 2⟩⟩ rfl

/-- The same request, of which three bytes reach the server before the client closes the stream. -/
def cutOff (order : ReqFrame.Order) : Exchange where
  alloc := .tight
  order := order
  ver := ⟨0, 4, 0⟩
  openDevice _ := .ok (.error .access)
  iter := .ok []
  write := .ok ()
  received := .ofChunks [⟨[0, 4, 0], by decide⟩]
  query := .borrow ⟨1, 2⟩
  clientOpen _ := .ok (.error .noDevice)
  sent := .ok ()
  rest := []
  answer := []
  arrives _ _ := List.nil_prefix
  unwritten e he := nomatch he

theorem refused_front (order : ReqFrame.Order) :
    (refused order).front = .ok ⟨⟨0, 4, 0⟩, .borrowDevice (Pad.zero 1) ⟨1, 2⟩⟩ :=
  frontOf_chunkOf (ReqFrame.layout order) _ (width_ne_zero order)

/-- A client matches its own request. -/
theorem matching_of_own {x : Exchange} {f : ReqFrame} (hsent : x.sent = .ok ())
    (hreq : x.query.req x.clientOpen = some f.req) (hfront : x.front = .ok f) : x.Matching := by
  intro g hg _
  obtain rfl : f = g := Except.ok.inj (hfront.symm.trans hg)
  exact ⟨Query.matches_req hreq, hsent, _, hreq⟩

theorem refused_matching (order : ReqFrame.Order) : (refused order).Matching :=
  matching_of_own rfl rfl (refused_front order)

theorem not_closed_refused (order : ReqFrame.Order) :
    ¬ ((refused order).ServerCloses ∧ (refused order).ClientCloses) := by
  rintro ⟨⟨answered, haccept, -⟩, hclient⟩
  obtain ⟨served, hserve⟩ := serve_of_accept haccept
  have himplemented := (clientCloses_iff hserve).mp hclient (refused_matching order)
  obtain ⟨-, -, himplements⟩ := himplemented.2 ⟨rfl, _, rfl⟩
  have hwhole : (refused order).Whole := Nat.le_of_eq rfl
  have hreported := himplements (fun h => h.1 rfl) hwhole
  rw [refused_front] at hreported
  exact absurd (hreported rfl) (by simp [Query.Answerable, Reported, refused, ofFrame])

theorem not_closed_cutOff (order : ReqFrame.Order) :
    ¬ ((cutOff order).ServerCloses ∧ (cutOff order).ClientCloses) := by
  rintro ⟨⟨answered, hok, -⟩, -⟩
  have hpanic : (cutOff order).accept = .error .unreachable := accept_short rfl (show 3 < 8 by decide)
  rw [hpanic] at hok
  cases hok

/-- **The handshake.** It is closed under failure exactly when the server can serve what it receives and
the client that matches it implements what comes back. -/
theorem handshake_closed_iff (x : Exchange) :
    (x.ServerCloses ∧ x.ClientCloses) ↔ (x.Servable ∧ (x.Matching → x.Implemented)) := by
  rw [serverCloses_iff]
  refine and_congr_right fun hservable => ?_
  obtain ⟨answered, haccept, -⟩ := (serverCloses_iff x).mpr hservable
  obtain ⟨served, hserve⟩ := serve_of_accept haccept
  exact clientCloses_iff hserve

/-- A stream that ends early panics the server, and a refusal panics the borrower. -/
theorem handshake_not_closed :
    ¬ ((cutOff .versionFirst).ServerCloses ∧ (cutOff .versionFirst).ClientCloses) ∧
      ¬ ((cutOff .reqFirst).ServerCloses ∧ (cutOff .reqFirst).ClientCloses) ∧
      ¬ ((refused .versionFirst).ServerCloses ∧ (refused .versionFirst).ClientCloses) ∧
      ¬ ((refused .reqFirst).ServerCloses ∧ (refused .reqFirst).ClientCloses) :=
  ⟨not_closed_cutOff _, not_closed_cutOff _, not_closed_refused _, not_closed_refused _⟩

end Exchange

end Qusb.Session

import Qusb.Session.Requests

/-! Opening a stream.

The server reads one request and answers it with at most one response before it hands the stream to an
operator; the client sends its request and waits for that response. Each side dispatches for itself, and
the client implements only some of the answers the server gives. -/

open ByteCodec

namespace Qusb.Session

open Msg Proto Lend

/-! ### What libusb says when a device is opened -/

/-- `rusb::Speed`, an enumeration that may grow: `newer` is a speed that the code does not know. -/
inductive Speed where
  | unknown
  | low
  | full
  | high
  | super
  | superPlus
  | newer
  deriving DecidableEq, Repr

def dataRateOf : Speed → Except Fault DataRate
  | .unknown | .low => .ok .low
  | .full => .ok .full
  | .high | .super | .superPlus => .ok .high
  | .newer => .error .unimplemented

inductive ErrorKind where
  | invalidInput
  | permissionDenied
  | resourceBusy
  | timedOut
  | brokenPipe
  | interrupted
  | outOfMemory
  | unsupported
  | other
  deriving DecidableEq, Repr

inductive Error where
  | stream (err : IoError)
  | network (kind : ErrorKind)
  | versionMismatch (theirs : Version)
  | devNotFound (devId : UsbDeviceId)
  | unknown
  deriving DecidableEq, Repr

/-- `From<RusbError> for Error`. -/
def Error.ofRusb (kind : RusbError) (devId : UsbDeviceId) : Except Fault Error :=
  match kind with
  | .io => .error .todo
  | .invalidParam => .ok (.network .invalidInput)
  | .access => .ok (.network .permissionDenied)
  | .noDevice | .notFound => .ok (.devNotFound devId)
  | .busy => .ok (.network .resourceBusy)
  | .timeout => .ok (.network .timedOut)
  | .overflow => .error .todo
  | .pipe => .ok (.network .brokenPipe)
  | .interrupted => .ok (.network .interrupted)
  | .noMem => .ok (.network .outOfMemory)
  | .notSupported => .ok (.network .unsupported)
  | .badDescriptor => .error .todo
  | .other => .ok (.network .other)

/-- `From<RusbError> for msg::Status`. -/
def statusOfRusb : RusbError → Status
  | .io => .failed
  | .invalidParam => .unexpected
  | .access => .failed
  | .noDevice | .notFound => .noDev
  | .busy => .devBusy
  | .timeout => .timeout
  | .badDescriptor => .devErr
  | _ => .unexpected

/-- What `open_device` does: it panics, fails, or opens a device of some speed. -/
abbrev OpenDevice := UsbDeviceId → Except Fault (Except RusbError Speed)

/-! ### The server -/

/-- The operator a stream is handed to, with the rest of the stream. -/
inductive ServerResp where
  | listDevices
  | borrowDevice (devId : UsbDeviceId) (rx : Reader) (buf : Ring)
  | lendDevice (dataRate : DataRate) (devId : UsbDeviceId) (rx : Reader) (buf : Ring)

/-- What a function returns, and the responses it has written. -/
abbrev Answered (α : Type) := Except Error α × List Resp

/-- `send_resp`, and what is returned if the response could be written. -/
def respond {α : Type} (write : Except IoError Unit) (resp : Resp) (result : Except Error α) : Answered α :=
  match write with
  | .ok () => (result, [resp])
  | .error e => (.error (.stream e), [resp])

def acceptBorrow (openDevice : OpenDevice) (write : Except IoError Unit) (rx : Reader) (buf : Ring)
    (devId : UsbDeviceId) : Except Fault (Answered ServerResp) :=
  match openDevice devId with
  | .error f => .error f
  | .ok (.ok speed) =>
      match dataRateOf speed with
      | .error f => .error f
      | .ok rate => .ok (respond write (.borrowDevice rate (Pad.zero 6)) (.ok (.borrowDevice devId rx buf)))
  | .ok (.error err) =>
      match Error.ofRusb err devId with
      | .error f => .error f
      | .ok retErr =>
          .ok (respond write (.failure (statusOfRusb err) (.none (Pad.zero 4))) (.error retErr))

def acceptReq (openDevice : OpenDevice) (write : Except IoError Unit) (rx : Reader) (buf : Ring) :
    Req → Except Fault (Answered ServerResp)
  | .listDevices _ => .ok (.ok .listDevices, [])
  | .borrowDevice _ devId => acceptBorrow openDevice write rx buf devId
  | .lendDevice rate devId =>
      .ok (respond write (.lendDevice (Pad.zero 7)) (.ok (.lendDevice rate devId rx buf)))

def acceptStream (a : Alloc) (order : ReqFrame.Order) (ver : Version) (openDevice : OpenDevice)
    (write : Except IoError Unit) (rx : Reader) : Except Fault (Answered ServerResp) :=
  match (Ring.withCapacity 32).fillUntil a rx ReqFrame.size with
  | (.error e, _, _) => .ok (.error (.stream e), [])
  | (.ok _, buf, rx) =>
      match buf.read (ReqFrame.layout order) with
      | (.error .corruptedData, _) =>
          .ok (respond write (.failure .proto (.some ver)) (.error .unknown))
      | (.error (.bufferShort _), _) => .error .unreachable
      | (.ok ⟨version, req⟩, buf) =>
          if version.isCompat ver then acceptReq openDevice write rx buf req
          else
            .ok (respond write (.failure .versionMismatch (.some ver)) (.error (.versionMismatch version)))

/-- `send_device_list`, as far as the response: the list that follows it. -/
def sendDeviceList (iter : Except IoError Bytes) (write : Except IoError Unit) : Answered Bytes :=
  match iter with
  | .ok devices => respond write (.listDevices (Pad.zero 7)) (.ok devices)
  | .error err => respond write (.failure .failed (.none (Pad.zero 4))) (.error (.stream err))

/-- What the server did with a stream: the responses it wrote, and whether it went on with the request. -/
structure Served where
  written : List Resp
  proceeded : Bool

/-- `accept_stream`, and for a list of devices `send_device_list`. -/
def serve (a : Alloc) (order : ReqFrame.Order) (ver : Version) (openDevice : OpenDevice)
    (iter : Except IoError Bytes) (write : Except IoError Unit) (rx : Reader) : Except Fault Served :=
  match acceptStream a order ver openDevice write rx with
  | .error f => .error f
  | .ok (.error _, written) => .ok ⟨written, false⟩
  | .ok (.ok .listDevices, written) =>
      let (result, list) := sendDeviceList iter write
      .ok ⟨written ++ list, result.isOk⟩
  | .ok (.ok _, written) => .ok ⟨written, true⟩

/-! ### The client -/

/-- What `req_list_devices` makes of the response. -/
def onList : Resp → Except Fault (Except Error Unit)
  | .listDevices _ => .ok (.ok ())
  | .failure .versionMismatch (.some theirs) => .ok (.error (.versionMismatch theirs))
  | _ => .error .unimplemented

/-- What a client makes of the response to a request for the device `id` that `accept` recognises. -/
def onDevice {β : Type} (accept : Resp → Option β) (id : UsbDeviceId) (resp : Resp) :
    Except Fault (Except Error β) :=
  match accept resp, resp with
  | some answer, _ => .ok (.ok answer)
  | none, .failure .versionMismatch (.some theirs) => .ok (.error (.versionMismatch theirs))
  | none, .failure .proto (.some theirs) => .ok (.error (.versionMismatch theirs))
  | none, .failure .devBusy _ => .ok (.error (.network .resourceBusy))
  | none, .failure .noDev _ => .ok (.error (.devNotFound id))
  | none, _ => .error .unimplemented

def onBorrow : UsbDeviceId → Resp → Except Fault (Except Error DataRate) :=
  onDevice fun
    | .borrowDevice rate _ => some rate
    | _ => none

def onLend : UsbDeviceId → Resp → Except Fault (Except Error Unit) :=
  onDevice fun
    | .lendDevice _ => some ()
    | _ => none

/-- Send a request, wait for `numBytes` and act on the response, or on what there is of it. -/
def request {β : Type} (a : Alloc) (sent : Except IoError Unit) (rx : Reader) (numBytes : Nat)
    (onShort : Except Fault (Except Error β)) (onResp : Resp → Except Fault (Except Error β)) :
    Except Fault (Except Error (β × Reader × Ring)) :=
  match sent with
  | .error e => .ok (.error (.stream e))
  | .ok () =>
      match (Ring.withCapacity 1024).fillUntil a rx numBytes with
      | (.error e, _, _) => .ok (.error (.stream e))
      | (.ok _, buf, rx) =>
          match buf.read Resp.layout with
          | (.error .corruptedData, _) => .error .unimplemented
          | (.error (.bufferShort _), buf) => onShort.map (·.map (·, rx, buf))
          | (.ok resp, buf) => (onResp resp).map (·.map (·, rx, buf))

def reqListDevices (a : Alloc) (sent : Except IoError Unit) (rx : Reader) :=
  request a sent rx 8192 (.ok (.error .unknown)) onList

def reqBorrow (a : Alloc) (sent : Except IoError Unit) (rx : Reader) (id : UsbDeviceId) :=
  request a sent rx Resp.size (.error .unimplemented) (onBorrow id)

/-- The client opens its device before it sends the request. -/
def reqLend (a : Alloc) (openDevice : OpenDevice) (sent : Except IoError Unit) (rx : Reader)
    (id : UsbDeviceId) : Except Fault (Except Error (Unit × Reader × Ring)) :=
  match openDevice id with
  | .error f => .error f
  | .ok (.ok speed) =>
      match dataRateOf speed with
      | .error f => .error f
      | .ok _ => request a sent rx Resp.size (.error .unimplemented) (onLend id)
  | .ok (.error err) => (Error.ofRusb err id).map .error

/-- What is returned, without the value. -/
def forget {β : Type} (returned : Except Fault (Except Error β)) : Except Fault (Except Error Unit) :=
  returned.map (·.map fun _ => ())

theorem forget_map {β γ : Type} (returned : Except Fault (Except Error β)) (f : β → γ) :
    forget (returned.map (·.map f)) = forget returned := by
  rcases returned with _ | _ | _ <;> rfl

inductive Query where
  | listDevices
  | borrow (id : UsbDeviceId)
  | lend (id : UsbDeviceId)
  deriving DecidableEq

namespace Query

/-- The request the client sends; none if it cannot open the device it lends. -/
def req (openDevice : OpenDevice) : Query → Option Req
  | .listDevices => some (.listDevices (Pad.zero 3))
  | .borrow id => some (.borrowDevice (Pad.zero 1) id)
  | .lend id =>
      match openDevice id with
      | .ok (.ok speed) => (dataRateOf speed).toOption.map (.lendDevice · id)
      | _ => none

/-- The bytes the client waits for. -/
def wanted : Query → Nat
  | .listDevices => 8192
  | .borrow _ => Resp.size
  | .lend _ => Resp.size

/-- What the client's function returns, without the operator. -/
def run (a : Alloc) (openDevice : OpenDevice) (sent : Except IoError Unit) (rx : Reader) :
    Query → Except Fault (Except Error Unit)
  | .listDevices => forget (reqListDevices a sent rx)
  | .borrow id => forget (reqBorrow a sent rx id)
  | .lend id => forget (reqLend a openDevice sent rx id)

/-- What a client makes of a response. -/
def onResp : Query → Resp → Except Fault (Except Error Unit)
  | .listDevices, resp => forget (onList resp)
  | .borrow id, resp => forget (onBorrow id resp)
  | .lend id, resp => forget (onLend id resp)

/-- What a client makes of a stream that ends before a whole response. -/
def onShort : Query → Except Fault (Except Error Unit)
  | .listDevices => .ok (.error .unknown)
  | .borrow _ => .error .unimplemented
  | .lend _ => .error .unimplemented

end Query

/-! ### What decides the handshake -/

/-- `accept_stream` acts on the front of what the stream delivers, unless an I/O error comes before it. -/
theorem acceptStream_eq (a : Alloc) (order : ReqFrame.Order) (ver : Version) (openDevice : OpenDevice)
    (write : Except IoError Unit) {rx : Reader}
    (h : rx.errors = [] ∨ ReqFrame.size ≤ rx.beforeError.length) :
    ∃ (rx' : Reader) (buf : Ring), acceptStream a order ver openDevice write rx =
      match frontOf (ReqFrame.layout order) rx.beforeError with
      | .error .corruptedData => .ok (respond write (.failure .proto (.some ver)) (.error .unknown))
      | .error (.bufferShort _) => .error .unreachable
      | .ok f =>
          if f.version.isCompat ver then acceptReq openDevice write rx' buf f.req
          else
            .ok (respond write (.failure .versionMismatch (.some ver))
              (.error (.versionMismatch f.version))) := by
  have hread := Ring.read_of_fillUntil (ReqFrame.layout order) a rx 32 (ReqFrame.width_eq order).le
  unfold acceptStream
  rcases hfill : (Ring.withCapacity 32).fillUntil a rx ReqFrame.size with ⟨e | filled, ring, rx'⟩
  · rw [hfill] at hread
    obtain ⟨hshort, herrors⟩ := hread
    rcases h with hnil | hle
    · exact absurd hnil herrors
    · omega
  · rw [hfill] at hread
    obtain ⟨-, hfront⟩ := hread
    rw [← hfront]
    rcases hring : ring.read (ReqFrame.layout order) with ⟨(_ | _) | ⟨version, req⟩, buf⟩ <;>
      exact ⟨rx', buf, by simp only [hring]⟩

theorem acceptStream_io (a : Alloc) (order : ReqFrame.Order) (ver : Version) (openDevice : OpenDevice)
    (write : Except IoError Unit) {rx : Reader} (herrors : rx.errors ≠ [])
    (hshort : rx.beforeError.length < ReqFrame.size) :
    ∃ e, acceptStream a order ver openDevice write rx = .ok (.error (.stream e), []) := by
  have hread := Ring.read_of_fillUntil (ReqFrame.layout order) a rx 32 (ReqFrame.width_eq order).le
  unfold acceptStream
  rcases hfill : (Ring.withCapacity 32).fillUntil a rx ReqFrame.size with ⟨e | filled, ring, rx'⟩
  · exact ⟨e, rfl⟩
  · rw [hfill] at hread
    obtain ⟨hnil | hle, -⟩ := hread
    · exact absurd hnil herrors
    · omega

variable {β : Type}

/-- A client acts on the front of what the stream delivers, unless an I/O error comes before it. -/
theorem request_eq (a : Alloc) {rx : Reader} {numBytes : Nat} (hwidth : Resp.size ≤ numBytes)
    (h : rx.errors = [] ∨ numBytes ≤ rx.beforeError.length) (onShort : Except Fault (Except Error β))
    (onResp : Resp → Except Fault (Except Error β)) :
    forget (request a (.ok ()) rx numBytes onShort onResp) =
      match frontOf Resp.layout rx.beforeError with
      | .error .corruptedData => .error .unimplemented
      | .error (.bufferShort _) => forget onShort
      | .ok resp => forget (onResp resp) := by
  have hread := Ring.read_of_fillUntil Resp.layout a rx 1024 hwidth
  unfold request
  rcases hfill : (Ring.withCapacity 1024).fillUntil a rx numBytes with ⟨e | filled, ring, rx'⟩
  · rw [hfill] at hread
    obtain ⟨hshort, herrors⟩ := hread
    rcases h with hnil | hle
    · exact absurd hnil herrors
    · omega
  · rw [hfill] at hread
    obtain ⟨-, hfront⟩ := hread
    rw [← hfront]
    rcases hring : ring.read Resp.layout with ⟨(_ | _) | resp, buf⟩ <;> simp only [hring]
    · rfl
    · exact forget_map _ _
    · exact forget_map _ _

theorem request_io (a : Alloc) {rx : Reader} {numBytes : Nat} (hwidth : Resp.size ≤ numBytes)
    (herrors : rx.errors ≠ []) (hshort : rx.beforeError.length < numBytes)
    (onShort : Except Fault (Except Error β)) (onResp : Resp → Except Fault (Except Error β)) :
    ∃ e, forget (request a (.ok ()) rx numBytes onShort onResp) = .ok (.error (.stream e)) := by
  have hread := Ring.read_of_fillUntil Resp.layout a rx 1024 hwidth
  unfold request
  rcases hfill : (Ring.withCapacity 1024).fillUntil a rx numBytes with ⟨e | filled, ring, rx'⟩
  · exact ⟨e, rfl⟩
  · rw [hfill] at hread
    obtain ⟨hnil | hle, -⟩ := hread
    · exact absurd hnil herrors
    · omega

theorem Query.lend_req {openDevice : OpenDevice} {id : UsbDeviceId} {req : Req}
    (h : (Query.lend id).req openDevice = some req) :
    ∃ speed rate, openDevice id = .ok (.ok speed) ∧ dataRateOf speed = .ok rate ∧
      req = .lendDevice rate id := by
  simp only [Query.req] at h
  split at h
  · next speed hopen =>
      obtain ⟨rate, hrate, rfl⟩ := Option.map_eq_some_iff.mp h
      refine ⟨speed, rate, hopen, ?_, rfl⟩
      cases hrate' : dataRateOf speed with
      | error f =>
          rw [hrate'] at hrate
          cases hrate
      | ok rate' =>
          rw [hrate'] at hrate
          cases hrate
          rfl
  · cases h

theorem Query.size_le_wanted (q : Query) : Resp.size ≤ q.wanted := by
  cases q with
  | listDevices => decide
  | borrow id => exact le_rfl
  | lend id => exact le_rfl

/-- A client that sent its request waits for the response. -/
theorem Query.run_of_req {q : Query} {openDevice : OpenDevice} {req : Req}
    (hreq : q.req openDevice = some req) (a : Alloc) (rx : Reader) :
    ∃ (γ : Type) (short : Except Fault (Except Error γ)) (onResp : Resp → Except Fault (Except Error γ)),
      q.run a openDevice (.ok ()) rx = forget (request a (.ok ()) rx q.wanted short onResp) ∧
        forget short = q.onShort ∧ ∀ resp, forget (onResp resp) = q.onResp resp := by
  cases q with
  | listDevices => exact ⟨_, _, _, rfl, rfl, fun _ => rfl⟩
  | borrow id => exact ⟨_, _, _, rfl, rfl, fun _ => rfl⟩
  | lend id =>
      refine ⟨_, .error .unimplemented, onLend id, ?_, rfl, fun _ => rfl⟩
      obtain ⟨speed, rate, hopen, hrate, -⟩ := Query.lend_req hreq
      simp only [Query.run, reqLend, hopen, hrate, wanted]

theorem Query.run_eq {q : Query} {openDevice : OpenDevice} {req : Req}
    (hreq : q.req openDevice = some req) (a : Alloc) {rx : Reader}
    (h : rx.errors = [] ∨ q.wanted ≤ rx.beforeError.length) :
    q.run a openDevice (.ok ()) rx =
      match frontOf Resp.layout rx.beforeError with
      | .error .corruptedData => .error .unimplemented
      | .error (.bufferShort _) => q.onShort
      | .ok resp => q.onResp resp := by
  obtain ⟨γ, short, onResp, hrun, hshort, hresp⟩ := Query.run_of_req hreq a rx
  rw [hrun, request_eq a q.size_le_wanted h, hshort]
  simp only [hresp]

theorem Query.run_io {q : Query} {openDevice : OpenDevice} {req : Req}
    (hreq : q.req openDevice = some req) (a : Alloc) {rx : Reader} (herrors : rx.errors ≠ [])
    (hlt : rx.beforeError.length < q.wanted) :
    ∃ e, q.run a openDevice (.ok ()) rx = .ok (.error (.stream e)) := by
  obtain ⟨γ, short, onResp, hrun, -, -⟩ := Query.run_of_req hreq a rx
  rw [hrun]
  exact request_io a q.size_le_wanted herrors hlt short onResp

end Qusb.Session

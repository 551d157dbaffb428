import Qusb.Base.Runs
import Qusb.Proto.Data
import Qusb.Stub.Routes
import Qusb.Vhci

/-! The demultiplexer of the virtual host controller.

One task takes the work of the driver, the requests of the sessions and the results of the driver calls,
and sends every work item to the channel of the port it is for. A port is found by its number, an address
or a URB handle, which are the three keys of the mailer. -/

open Tables

namespace Qusb

open Proto

/-- A work channel, numbered in the order of creation. -/
abbrev Chan := Nat

abbrev Mailer := ThreeKeyMap Port Address UrbHandle Chan

/-- The demuxer's variables, what it sent so far, and for each port the receiving end that was handed to
its session. -/
structure Demuxer where
  registerQueue : List Port
  mailer : Mailer
  fresh : Chan
  sent : List (Chan × Work)
  sessions : Table Port Chan

/-- Who waits for the answer to a request: it can be sent only while the requester still waits. -/
abbrev Waiting := Bool

/-- Where to plug a device in. -/
inductive RegisterPort where
  | any
  | port (port : Port)
  deriving DecidableEq, Repr

/-- The events of the demuxer. The results of the driver come back from the blocking thread; that of a
disconnect does not name the port in the source, here it does for the record. -/
inductive DemuxEvent where
  | register (port : RegisterPort)
  | givebackUrb (handle : UrbHandle)
  | disconnect (port : Port)
  | work (work : Work)
  | registered (result : Except IoError Port) (waiting : Waiting)
  | disconnected (port : Port) (result : Except IoError Unit) (waiting : Waiting)

namespace Demuxer

def start : Demuxer := ⟨[], .empty, 0, [], ∅⟩

/-- A reset that has completed queues the port for an address and cuts its old links. -/
def portStat (d : Demuxer) (stat : IocPortStat) : Demuxer × Option Chan :=
  let d := if stat.resetSuccessful && !d.registerQueue.contains stat.index then
    { d with
      registerQueue := d.registerQueue ++ [stat.index]
      mailer := d.mailer.unlinkAllButKey1 stat.index }
    else d
  (d, d.mailer.getByKey1 stat.index)

/-- The URB that gives the first port of the queue its address. -/
def setAddress (V : Vhci) (d : Demuxer) (urb : IocUrb) (handle : UrbHandle) :
    Except Fault (Demuxer × Option Chan) :=
  match V.addressNew urb.setupPacket.value.toUInt8, d.registerQueue with
  | none, _ => .error .expectNone
  | some _, [] => .error .unwrapNone
  | some address, port :: queue => do
      let zero ← unwrap (V.addressNew 0)
      let (_, mailer) ← d.mailer.removeByKey2 zero
      let (_, mailer) ← mailer.linkKey2ToKey1 address port
      let (result, mailer) ← mailer.linkKey3ToKey1 handle port
      assert (result = .success)
      return ({ d with registerQueue := queue, mailer := mailer }, mailer.getByKey1 port)

/-- Any other control URB for the port that has no address yet. -/
def defaultUrb (d : Demuxer) (handle : UrbHandle) (port : Port) :
    Except Fault (Demuxer × Option Chan) := do
  let (result, mailer) ← d.mailer.linkKey3ToKey1 handle port
  assert (result = .success)
  return ({ d with mailer := mailer }, mailer.getByKey1 port)

def addressUrb (d : Demuxer) (handle : UrbHandle) (address : Address) :
    Except Fault (Demuxer × Option Chan) := do
  let (result, mailer) ← d.mailer.linkKey3ToKey2 handle address
  assert (result ≠ .existingKeyDoesNotExist)
  return ({ d with mailer := mailer }, mailer.getByKey2 address)

/-- A control URB at the unassigned address. -/
def isDefaultUrb (V : Vhci) (urb : IocUrb) : Bool :=
  urb.typ = .control && V.isForUnassigned urb.address

def isSetAddress (V : Vhci) (urb : IocUrb) : Bool :=
  isDefaultUrb V urb && V.isAnycast urb.endpoint && V.req urb.setupPacket = .deviceSetAddress

def processUrb (V : Vhci) (d : Demuxer) (urb : IocUrb) (handle : UrbHandle) :
    Except Fault (Demuxer × Option Chan) :=
  match d.registerQueue with
  | port :: _ =>
      if isSetAddress V urb then d.setAddress V urb handle
      else if isDefaultUrb V urb then d.defaultUrb handle port
      else d.addressUrb handle urb.address
  | [] => d.addressUrb handle urb.address

def cancelUrb (d : Demuxer) (handle : UrbHandle) : Except Fault (Demuxer × Option Chan) := do
  let tx := d.mailer.getByKey3 handle
  let (_, mailer) ← d.mailer.removeByKey3 handle
  return ({ d with mailer := mailer }, tx)

/-- What a work item does to the mailer, and the channel it goes to. -/
def route (V : Vhci) (d : Demuxer) : Work → Except Fault (Demuxer × Option Chan)
  | .portStat stat => .ok (d.portStat stat)
  | .processUrb urb handle => d.processUrb V urb handle
  | .cancelUrb handle => d.cancelUrb handle

/-- An item that belongs to no port is dropped. -/
def send (d : Demuxer) (tx : Option Chan) (work : Work) : Demuxer :=
  match tx with
  | some c => { d with sent := d.sent ++ [(c, work)] }
  | none => d

/-- A port that the driver has connected gets a channel, whose receiving end goes to the requester. -/
def register (d : Demuxer) (port : Port) (waiting : Waiting) : Except Fault Demuxer := do
  let (old, mailer) := d.mailer.insertByKey1 port d.fresh
  assert (old = none)
  unwrap (if waiting then some () else none)
  return { d with mailer := mailer, fresh := d.fresh + 1, sessions := d.sessions.insert port d.fresh }

/-- One turn of the loop. A request only starts a call of the driver. -/
def step (V : Vhci) (d : Demuxer) : DemuxEvent → Except Fault Demuxer
  | .register _ => .ok d
  | .disconnect _ => .ok d
  | .givebackUrb handle => do
      let (_, mailer) ← d.mailer.removeByKey3 handle
      return { d with mailer := mailer }
  | .work work => do
      let (d, tx) ← d.route V work
      return d.send tx work
  | .registered (.ok port) waiting => d.register port waiting
  | .registered (.error _) _ => .ok d
  | .disconnected _ _ _ => .ok d

end Demuxer

/-! ### What the kernel issues -/

/-- An event of the demuxer and, for a URB, the port on whose behalf the kernel issues it. -/
structure Issue where
  event : DemuxEvent
  port : Port

/-- A condition on the URB, where the event is one. -/
def Issue.OnUrb (C : IocUrb → UrbHandle → Port → Prop) (e : Issue) : Prop :=
  match e.event with
  | .work (.processUrb urb handle) => C urb handle e.port
  | _ => True

def Issue.decidableOnUrb {C : IocUrb → UrbHandle → Port → Prop}
    (h : ∀ urb handle port, Decidable (C urb handle port)) (e : Issue) : Decidable (e.OnUrb C) :=
  match e with
  | ⟨.work (.processUrb urb handle), port⟩ => h urb handle port
  | ⟨.work (.portStat _), _⟩ | ⟨.work (.cancelUrb _), _⟩ | ⟨.register _, _⟩ | ⟨.givebackUrb _, _⟩
  | ⟨.disconnect _, _⟩ | ⟨.registered _ _, _⟩ | ⟨.disconnected _ _ _, _⟩ => isTrue trivial

/-! Events of concrete runs. -/

/-- A port that completes a reset. -/
def resetDone (port : Port) : DemuxEvent :=
  .work (.portStat ⟨⟨true, true, false, true⟩, ⟨false, true⟩, port, ⟨false⟩⟩)

/-- A device that leaves its port. -/
def unplugged (port : Port) : DemuxEvent :=
  .work (.portStat ⟨⟨false, false, false, true⟩, ⟨true, false⟩, port, ⟨false⟩⟩)

/-- A SET_ADDRESS at the unassigned address. -/
def setAddressUrb (address : UInt16) : IocUrb :=
  ⟨.control, ⟨0⟩, ⟨0⟩, ⟨0, 5, address, 0, 0⟩, 0, 0, 0, 0⟩

/-- A GET_DESCRIPTOR. -/
def getDescriptorUrb (address : Address) : IocUrb :=
  ⟨.control, address, ⟨0x80⟩, ⟨0x80, 6, 0x100, 0, 18⟩, 18, 0, 0, 0⟩

end Qusb

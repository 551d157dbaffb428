import Qusb.Stub.Holders

/-! Which port the unassigned address stands for, and where the control URBs at it go.

The kernel enumerates one port at a time: a port is the default port from its completed reset until its
SET_ADDRESS or until it leaves. The demuxer keeps a queue of ports in place of the default port. The queue
holds exactly the default port as long as no port leaves while it is in the queue; the code does not take
such a port out. -/

open Tables

namespace Qusb

open Proto Runs

/-- The default port, and who holds the addresses and the handles. -/
structure Enumeration where
  default : Option Port
  holders : Holders

namespace Demuxer

/-- The port of the unassigned address after an event. A port leaves with a change of its connection or
when its session disconnects it. -/
def defaultAfter (V : Vhci) (default : Option Port) (e : Issue) : Option Port :=
  match e.event with
  | .work (.portStat stat) =>
      if stat.change.connection then (if default = some stat.index then none else default)
      else if stat.resetSuccessful then some stat.index
      else default
  | .work (.processUrb urb _) => if isSetAddress V urb then none else default
  | .disconnect port => if default = some port then none else default
  | _ => default

abbrev defaultStep (V : Vhci) : Demuxer × Enumeration → Issue → Except Fault (Demuxer × Enumeration) :=
  track (fun d e => d.step V e.event)
    (fun d e _ g => ⟨defaultAfter V g.default e, g.holders.after V d e.event⟩)

def defaultStart : Demuxer × Enumeration := (start, ⟨none, .start⟩)

/-- What the kernel keeps to: a reset completes only while no other port is the default port, and control
URBs at the unassigned address are issued on behalf of the default port. -/
def Serial (V : Vhci) (s : Demuxer × Enumeration) (e : Issue) : Prop :=
  match e.event with
  | .work (.portStat stat) =>
      stat.resetSuccessful = true → s.2.default = none ∨ s.2.default = some stat.index
  | .work (.processUrb urb _) => isDefaultUrb V urb = true → s.2.default = some e.port
  | _ => True

/-- No port leaves while it is in the register queue or by the report that its reset has completed. A
control URB at the unassigned address is for a registered port, with a handle that no port holds and, for a
SET_ADDRESS, a valid address; of any other URB a port holds the address or the handle. -/
def Staying (V : Vhci) (s : Demuxer × Enumeration) (e : Issue) : Prop :=
  match e.event with
  | .work (.portStat stat) => stat.change.connection = true →
      stat.index ∉ s.1.registerQueue ∧ stat.resetSuccessful = false
  | .disconnect port => port ∉ s.1.registerQueue
  | .work (.processUrb urb handle) =>
      (isDefaultUrb V urb = true → s.1.sessions.lookup e.port ≠ none ∧ s.2.holders.handle handle = none ∧
        (isSetAddress V urb = true → V.addressNew urb.setupPacket.value.toUInt8 ≠ none)) ∧
      (isDefaultUrb V urb = false →
        s.2.holders.address urb.address ≠ none ∨ s.2.holders.handle handle ≠ none)
  | _ => True

/-- A control URB at the unassigned address goes to the session of the default port, and no link of a URB
fails. -/
def RoutedToDefault (V : Vhci) (s : Demuxer × Enumeration) (e : Issue) : Prop :=
  e.OnUrb fun urb handle _ =>
    (isDefaultUrb V urb = true →
      ∃ p ∈ s.2.default, ∃ c ∈ s.1.sessions.lookup p, ∃ d', s.1.step V e.event = .ok d' ∧
        d'.sent = s.1.sent ++ [(c, .processUrb urb handle)]) ∧
    ∃ d', s.1.step V e.event = .ok d'

/-- The register queue holds the default port and no other. -/
structure Enumerating (s : Demuxer × Enumeration) : Prop where
  sound : s.1.Sound
  held : Held s.1 s.2.holders
  queue_eq : s.1.registerQueue = s.2.default.toList

variable {V : Vhci} {s s' : Demuxer × Enumeration} {d d' : Demuxer}

theorem enumerating_start : Enumerating defaultStart := ⟨sound_start, held_start, rfl⟩

/-! ### One event -/

/-- A control URB at the unassigned address goes to the first port of the queue. -/
theorem step_default (hzero : V.addressNew 0 ≠ none) (hd : d.Sound) {urb : IocUrb} {handle : UrbHandle}
    {p : Port} {queue : List Port} (hdefault : isDefaultUrb V urb = true)
    (hqueue : d.registerQueue = p :: queue) (hport : d.routes.byKey1 p ≠ none)
    (hhandle : d.routes.byKey3 handle = none)
    (hvalid : isSetAddress V urb = true → V.addressNew urb.setupPacket.value.toUInt8 ≠ none) :
    ∃ c d', d.routes.byKey1 p = some c ∧ d.step V (.work (.processUrb urb handle)) = .ok d' ∧
      d'.sent = d.sent ++ [(c, .processUrb urb handle)] := by
  rcases processUrb_default hd handle hdefault hqueue with
    ⟨c, d₁, hc, hsent, hok⟩ | ⟨hfail, -⟩ | ⟨hset, hinvalid, -⟩ | ⟨hnone, -⟩
  · refine ⟨c, _, hc, step_work_ok.mpr ⟨d₁, some c, hok, rfl⟩, ?_⟩
    rw [send_sent, hsent]
    rfl
  · exact absurd hfail fun h => h.elim hport (absurd hhandle)
  · exact absurd hinvalid (hvalid hset)
  · exact absurd hnone hzero

theorem Enumerating.routed (hzero : V.addressNew 0 ≠ none) (hs : Enumerating s) {e : Issue}
    (hserial : Serial V s e) (hstaying : Staying V s e) : RoutedToDefault V s e := by
  obtain ⟨event, port⟩ := e
  cases event with
  | work work =>
      cases work with
      | processUrb urb handle =>
          cases hdefault : isDefaultUrb V urb with
          | true =>
              have hport : s.2.default = some port := hserial hdefault
              have hqueue : s.1.registerQueue = [port] := by rw [hs.queue_eq, hport]; rfl
              obtain ⟨hregistered, hfree, hvalid⟩ := hstaying.1 hdefault
              rw [hs.sound.sessions] at hregistered
              have hhandle := (hs.held.handle handle).eq_none_iff.mpr hfree
              obtain ⟨c, d', hc, hok, hsent⟩ :=
                step_default hzero hs.sound hdefault hqueue hregistered hhandle hvalid
              have hsession := (hs.sound.sessions port).trans hc
              exact ⟨fun _ => ⟨port, hport, c, hsession, d', hok, hsent⟩, d', hok⟩
          | false =>
              refine ⟨fun h => absurd (hdefault.symm.trans h) (by decide), ?_⟩
              exact (hs.held.step_ok_iff hs.sound handle (Or.inr hdefault)).mpr (hstaying.2 hdefault)
      | portStat stat => trivial
      | cancelUrb handle => trivial
  | _ => trivial

theorem Enumerating.portStat (hs : Enumerating s) {stat : IocPortStat} {port : Port}
    {r : Routes Port Address UrbHandle Chan}
    (hserial : Serial V s ⟨.work (.portStat stat), port⟩)
    (hstaying : Staying V s ⟨.work (.portStat stat), port⟩)
    (hbecame : Became s.1 d
      (if s.1.enqueues stat then s.1.registerQueue ++ [stat.index] else s.1.registerQueue) r) :
    d.registerQueue = (defaultAfter V s.2.default ⟨.work (.portStat stat), port⟩).toList := by
  rw [hbecame.queue_eq]
  have hmem : stat.index ∈ s.1.registerQueue ↔ s.2.default = some stat.index := by
    rw [hs.queue_eq, Option.mem_toList]
  simp only [defaultAfter]
  cases hconnection : stat.change.connection with
  | true =>
      obtain ⟨hstays, hreset⟩ := hstaying hconnection
      have henqueues : s.1.enqueues stat = false := by rw [enqueues, hreset, Bool.false_and]
      rw [if_pos rfl, if_neg fun h => hstays (hmem.mpr h), henqueues]
      exact hs.queue_eq
  | false =>
      cases hreset : stat.resetSuccessful with
      | false =>
          have henqueues : s.1.enqueues stat = false := by rw [enqueues, hreset, Bool.false_and]
          rw [henqueues]
          exact hs.queue_eq
      | true =>
          rcases hserial hreset with hnone | hsome
          · have henqueues : s.1.enqueues stat = true := by simp [enqueues, hreset, hs.queue_eq, hnone]
            rw [henqueues, hs.queue_eq, hnone]
            rfl
          · have henqueues : s.1.enqueues stat = false := by simp [enqueues, hreset, hmem.mpr hsome]
            rw [henqueues, hs.queue_eq, hsome]
            rfl

theorem Enumerating.processUrb (hs : Enumerating s) {urb : IocUrb} {handle : UrbHandle} {port : Port}
    {tx : Option Chan} (hserial : Serial V s ⟨.work (.processUrb urb handle), port⟩)
    (hurb : UrbStep V s.1 urb handle d tx) :
    d.registerQueue = (defaultAfter V s.2.default ⟨.work (.processUrb urb handle), port⟩).toList := by
  have hqueue : isDefaultUrb V urb = true → s.1.registerQueue = [port] := fun h => by
    rw [hs.queue_eq, show s.2.default = some port from hserial h]
    rfl
  have hother : s.1.registerQueue = [] ∨ isDefaultUrb V urb = false → ¬ isSetAddress V urb = true :=
    fun hother hset => by
      have hdefault := isDefault_of_isSetAddress hset
      rcases hother with hnil | hnot
      · rw [hqueue hdefault] at hnil
        cases hnil
      · rw [hdefault] at hnot
        cases hnot
  show d.registerQueue = Option.toList (if isSetAddress V urb then none else s.2.default)
  cases hurb with
  | setAddress hset haddress hz hq hc hh hbecame =>
      rw [hqueue (isDefault_of_isSetAddress hset)] at hq
      cases hq
      rw [if_pos hset, hbecame.queue_eq]
      rfl
  | default hset hdefault hq hc hh hbecame =>
      rw [if_neg (by simp [hset]), hbecame.queue_eq]
      exact hs.queue_eq
  | stale h hh hbecame =>
      rw [if_neg (hother h), hbecame.queue_eq]
      exact hs.queue_eq
  | address h hh hc hbecame =>
      rw [if_neg (hother h), hbecame.queue_eq]
      exact hs.queue_eq

/-- **One event keeps the queue.** -/
theorem Enumerating.step (hs : Enumerating s) {e : Issue} (hserial : Serial V s e)
    (hstaying : Staying V s e) (hok : defaultStep V s e = .ok s') : Enumerating s' := by
  obtain ⟨hstep, hnext⟩ := track_eq_ok.mp hok
  obtain ⟨d', g'⟩ := s'
  obtain ⟨event, port⟩ := e
  subst hnext
  have hstepped := stepped_of_step hs.sound hstep
  refine ⟨hstepped.sound hs.sound, hs.held.step hs.sound hstep, ?_⟩
  show d'.registerQueue = (defaultAfter V s.2.default ⟨event, port⟩).toList
  cases hstepped with
  | idle hidle hwork hgive =>
      cases event with
      | disconnect q =>
          have hne : s.2.default ≠ some q := fun h =>
            hstaying (by rw [hs.queue_eq, h]; exact List.mem_singleton_self q)
          show _ = Option.toList (if s.2.default = some q then none else s.2.default)
          rw [if_neg hne]
          exact hs.queue_eq
      | work work => exact absurd rfl (hwork work)
      | _ => exact hs.queue_eq
  | giveback handle hbecame => exact hbecame.queue_eq.trans hs.queue_eq
  | registered q hregistered => exact hregistered.queue_eq.trans hs.queue_eq
  | portStat stat hbecame hsend =>
      subst hsend
      exact (send_registerQueue _ _ _).trans (hs.portStat hserial hstaying hbecame)
  | processUrb urb handle hurb hsend =>
      subst hsend
      exact (send_registerQueue _ _ _).trans (hs.processUrb hserial hurb)
  | cancelUrb handle hbecame hsend =>
      subst hsend
      exact (send_registerQueue _ _ _).trans (hbecame.queue_eq.trans hs.queue_eq)

/-! ### Runs -/

/-- **Every control URB at the unassigned address goes to the default port**, and no link of a URB fails, in
every run in which the kernel keeps to its part and no port leaves in the middle of its enumeration. -/
theorem default_routing (hzero : V.addressNew 0 ≠ none) {es : List Issue}
    (h : Meets (defaultStep V) (fun s e => Serial V s e ∧ Staying V s e) defaultStart es) :
    Meets (defaultStep V) (RoutedToDefault V) defaultStart es :=
  Meets.imp enumerating_start h (fun _ _ hs he => hs.routed hzero he.1 he.2)
    fun _ _ _ hs he hok => hs.step he.1 he.2 hok

/-- A port is enumerated, resets again and gets its address, then another one. -/
def enumerationRun : List Issue :=
  [⟨.registered (.ok ⟨1⟩) true, ⟨1⟩⟩, ⟨.registered (.ok ⟨2⟩) true, ⟨2⟩⟩,
    ⟨resetDone ⟨1⟩, ⟨1⟩⟩, ⟨.work (.processUrb (getDescriptorUrb ⟨0⟩) ⟨1⟩), ⟨1⟩⟩,
    ⟨resetDone ⟨1⟩, ⟨1⟩⟩, ⟨.work (.processUrb (setAddressUrb 5) ⟨2⟩), ⟨1⟩⟩,
    ⟨resetDone ⟨2⟩, ⟨2⟩⟩, ⟨.work (.processUrb (getDescriptorUrb ⟨0⟩) ⟨3⟩), ⟨2⟩⟩]

/-- The first port leaves before it has an address. -/
def abandonedEnumerationRun : List Issue :=
  [⟨.registered (.ok ⟨1⟩) true, ⟨1⟩⟩, ⟨.registered (.ok ⟨2⟩) true, ⟨2⟩⟩,
    ⟨resetDone ⟨1⟩, ⟨1⟩⟩, ⟨.work (.processUrb (getDescriptorUrb ⟨0⟩) ⟨1⟩), ⟨1⟩⟩, ⟨unplugged ⟨1⟩, ⟨1⟩⟩,
    ⟨resetDone ⟨2⟩, ⟨2⟩⟩, ⟨.work (.processUrb (getDescriptorUrb ⟨0⟩) ⟨2⟩), ⟨2⟩⟩]

instance (s : Demuxer × Enumeration) (e : Issue) : Decidable (Serial V s e) :=
  match e with
  | ⟨.work (.processUrb urb _), _⟩ => inferInstanceAs (Decidable (isDefaultUrb V urb = true → _))
  | ⟨.work (.portStat stat), _⟩ => inferInstanceAs (Decidable (stat.resetSuccessful = true → _ ∨ _))
  | ⟨.work (.cancelUrb _), _⟩ | ⟨.register _, _⟩ | ⟨.givebackUrb _, _⟩
  | ⟨.disconnect _, _⟩ | ⟨.registered _ _, _⟩ | ⟨.disconnected _ _ _, _⟩ => isTrue trivial

instance (s : Demuxer × Enumeration) (e : Issue) : Decidable (Staying V s e) :=
  match e with
  | ⟨.work (.processUrb _ _), _⟩ => inferInstanceAs (Decidable (_ ∧ _))
  | ⟨.work (.portStat stat), _⟩ => inferInstanceAs (Decidable (stat.change.connection = true → _ ∧ _))
  | ⟨.disconnect _, _⟩ => inferInstanceAs (Decidable (_ ∉ _))
  | ⟨.work (.cancelUrb _), _⟩ | ⟨.register _, _⟩ | ⟨.givebackUrb _, _⟩
  | ⟨.registered _ _, _⟩ | ⟨.disconnected _ _ _, _⟩ => isTrue trivial

instance (s : Demuxer × Enumeration) (e : Issue) : Decidable (RoutedToDefault V s e) :=
  e.decidableOnUrb fun _ _ _ => inferInstanceAs (Decidable (_ ∧ _))

theorem default_routing_run :
    Meets (defaultStep Vhci.usb) (RoutedToDefault Vhci.usb) defaultStart enumerationRun :=
  default_routing (by decide) (by decide)

/-- The next port's control URBs go to the port that left. -/
theorem abandoned_enumeration_misroutes :
    Meets (defaultStep Vhci.usb) (Serial Vhci.usb) defaultStart abandonedEnumerationRun ∧
      ¬ Meets (defaultStep Vhci.usb) (RoutedToDefault Vhci.usb) defaultStart abandonedEnumerationRun := by
  decide

end Demuxer
end Qusb

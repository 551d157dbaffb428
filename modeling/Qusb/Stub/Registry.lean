import Mathlib.Data.List.Perm.Basic
import Qusb.Stub.Dispatch

/-! Ports that come and go: the demuxer between the requesters and the driver.

A request starts a call of the driver on a thread of its own; the result comes back to the demuxer later,
and the results of several calls come in any order. A requester waits for its answer and can give up at any
time. The mailer has exactly the connected ports as long as no port is disconnected and no requester of a
connected port gives up; the code never takes a port out of the mailer. -/

open Tables

namespace Qusb

open Proto Runs

abbrev Requester := Nat

inductive PortRequest where
  | register (port : RegisterPort)
  | disconnect (port : Port)

/-- The result of a driver call, with the requester to answer. -/
inductive ControllerResult where
  | register (result : Except IoError Port) (tx : Requester)
  | disconnect (port : Port) (result : Except IoError Unit) (tx : Requester)

def PortRequest.event : PortRequest → DemuxEvent
  | .register port => .register port
  | .disconnect port => .disconnect port

/-- What the thread sends back when the driver replies; the driver picks the port of a plain connect. -/
def PortRequest.result (reply : Except IoError Port) (tx : Requester) : PortRequest → ControllerResult
  | .register .any => .register reply tx
  | .register (.port port) => .register (reply.map fun _ => port) tx
  | .disconnect port => .disconnect port (reply.map fun _ => ()) tx

namespace ControllerResult

def tx : ControllerResult → Requester
  | .register _ tx => tx
  | .disconnect _ _ tx => tx

def event (waiting : Waiting) : ControllerResult → DemuxEvent
  | .register result _ => .registered result waiting
  | .disconnect port result _ => .disconnected port result waiting

/-- The port that was connected. -/
def connects : ControllerResult → Option Port
  | .register (.ok port) _ => some port
  | _ => none

/-- The port that was disconnected. -/
def disconnects : ControllerResult → Option Port
  | .disconnect port (.ok ()) _ => some port
  | _ => none

/-- The connected ports after a result. -/
def update (r : ControllerResult) (ports : Port → Bool) : Port → Bool :=
  match r.connects, r.disconnects with
  | some port, _ => Function.update ports port true
  | none, some port => Function.update ports port false
  | none, none => ports

end ControllerResult

/-- The demuxer, the calls that wait for the driver, the results on their way, the table of the driver, the
ports that are connected as far as the handled results tell, and the requesters that gave up. -/
structure Registry where
  demuxer : Demuxer
  calls : List (PortRequest × Requester)
  results : List ControllerResult
  table : Port → Bool
  connected : Port → Bool
  gone : Requester → Bool

inductive RegistryEvent where
  | request (request : PortRequest) (tx : Requester)
  | call (i : Nat) (reply : Except IoError Port)
  | drop (tx : Requester)
  | controller (i : Nat)
  | givebackUrb (handle : UrbHandle)
  | work (work : Work)

namespace Registry

def start : Registry := ⟨.start, [], [], fun _ => false, fun _ => false, fun _ => false⟩

/-- The driver replies to a call. -/
def called (s : Registry) (i : Nat) (r : ControllerResult) : Registry :=
  { s with calls := s.calls.eraseIdx i, results := s.results ++ [r], table := r.update s.table }

/-- The demuxer has handled a result. -/
def handled (s : Registry) (i : Nat) (r : ControllerResult) (d : Demuxer) : Registry :=
  { s with demuxer := d, results := s.results.eraseIdx i, connected := r.update s.connected }

def step (V : Vhci) (s : Registry) : RegistryEvent → Except Fault Registry
  | .request request tx =>
      (s.demuxer.step V request.event).map fun d =>
        { s with demuxer := d, calls := s.calls ++ [(request, tx)] }
  | .call i reply =>
      match s.calls[i]? with
      | none => .ok s
      | some (request, tx) => .ok (s.called i (request.result reply tx))
  | .drop tx => .ok { s with gone := Function.update s.gone tx true }
  | .controller i =>
      match s.results[i]? with
      | none => .ok s
      | some r => (s.demuxer.step V (r.event (!s.gone r.tx))).map (s.handled i r)
  | .givebackUrb handle => (s.demuxer.step V (.givebackUrb handle)).map fun d => { s with demuxer := d }
  | .work work => (s.demuxer.step V (.work work)).map fun d => { s with demuxer := d }

/-- What the driver keeps to: a connect returns a port that is not connected. -/
def Fresh (s : Registry) (e : RegistryEvent) : Prop :=
  match e with
  | .call i reply => ∀ c ∈ s.calls[i]?, ∀ p ∈ (c.1.result reply c.2).connects, s.table p = false
  | _ => True

/-- No connected port is disconnected, and the requester of a connected port waits for it. -/
def Lasting (s : Registry) (e : RegistryEvent) : Prop :=
  match e with
  | .call i reply => ∀ c ∈ s.calls[i]?, ∀ p ∈ (c.1.result reply c.2).disconnects, s.table p = false
  | .controller i => ∀ r ∈ s.results[i]?,
      (∀ _ ∈ r.connects, s.gone r.tx = false) ∧ ∀ p ∈ r.disconnects, s.connected p = false
  | _ => True

/-- The mailer has the connected ports, each with the channel that its session got last. -/
structure Listed (s : Registry) : Prop where
  ports : ∀ p, s.demuxer.routes.byKey1 p ≠ none ↔ s.connected p = true
  newest : ∀ p, s.connected p = true → s.demuxer.routes.byKey1 p = s.demuxer.sessions.lookup p

/-- No request and no result makes the demuxer fault, the mailer has the connected ports after every event,
and work is sent only to the channels that the sessions of connected ports got last. -/
def Kept (V : Vhci) (s : Registry) (e : RegistryEvent) : Prop :=
  ((∀ work, e ≠ .work work) → ∃ s', s.step V e = .ok s') ∧
  ∀ s', s.step V e = .ok s' → s'.Listed ∧
    ∀ item ∈ s'.demuxer.sent.drop s.demuxer.sent.length,
      ∃ p, s.connected p = true ∧ s.demuxer.sessions.lookup p = some item.1

/-- The demuxer has the connected ports, which the driver has too; a port on its way is in the table of the
driver only, and no two results bring the same port. -/
structure Consistent (s : Registry) : Prop where
  sound : s.demuxer.Sound
  current : Demuxer.Current s.demuxer.routes
  ports : ∀ p, s.demuxer.routes.byKey1 p ≠ none ↔ s.connected p = true
  table : ∀ p, s.connected p = true → s.table p = true
  coming : ∀ p ∈ s.results.filterMap ControllerResult.connects, s.table p = true ∧ s.connected p = false
  once : (s.results.filterMap ControllerResult.connects).Nodup

variable {V : Vhci} {s s' : Registry} {d : Demuxer} {i : Nat} {r : ControllerResult}

theorem consistent_start : start.Consistent where
  sound := Demuxer.sound_start
  current := by rintro c (⟨a, ha⟩ | ⟨h, hh⟩) <;> contradiction
  ports := fun p => by simp [start, Demuxer.start, Demuxer.routes, ThreeKeyMap.view, ThreeKeyMap.empty,
    ThreeKeyMap.getByKey1, getByKey]
  table := fun _ h => nomatch h
  coming := fun _ h => nomatch h
  once := List.nodup_nil

theorem Consistent.listed (hs : s.Consistent) : s.Listed :=
  ⟨hs.ports, fun p _ => (hs.sound.sessions p).symm⟩

/-! ### Results -/

/-- A result whose disconnected port was not connected can only add a port. -/
theorem update_eq_true {ports : Port → Bool} (h : ∀ p ∈ r.disconnects, ports p = false) (p : Port) :
    r.update ports p = true ↔ ports p = true ∨ r.connects = some p := by
  unfold ControllerResult.update
  cases hconnects : r.connects with
  | some q =>
      simp only [Function.update_apply]
      by_cases hp : p = q
      · simp [hp]
      · simp [hp, Ne.symm hp]
  | none =>
      cases hdisconnects : r.disconnects with
      | none => simp
      | some q =>
          have hq := h q hdisconnects
          simp only [Function.update_apply]
          by_cases hp : p = q
          · simp [hp, hq]
          · simp [hp]

/-- Taking out a result takes out the port it connects. -/
theorem connects_perm {results : List ControllerResult} (h : results[i]? = some r) :
    (results.filterMap ControllerResult.connects).Perm
      (r.connects.toList ++ (results.eraseIdx i).filterMap ControllerResult.connects) := by
  obtain ⟨hlt, rfl⟩ := List.getElem?_eq_some_iff.mp h
  have hperm := (List.getElem_cons_eraseIdx_perm hlt).symm.filterMap ControllerResult.connects
  refine hperm.trans ?_
  rw [List.filterMap_cons]
  cases results[i].connects <;> exact List.Perm.refl _

/-! ### One event -/

theorem Consistent.called (hs : s.Consistent) (hfresh : ∀ p ∈ r.connects, s.table p = false)
    (hlasting : ∀ p ∈ r.disconnects, s.table p = false) : (s.called i r).Consistent := by
  have htable := update_eq_true hlasting
  have hresults : (s.called i r).results.filterMap ControllerResult.connects =
      s.results.filterMap ControllerResult.connects ++ r.connects.toList := by
    rw [Registry.called, List.filterMap_append]
    cases h : r.connects <;> simp [h]
  refine ⟨hs.sound, hs.current, hs.ports, fun p hp => (htable p).mpr (Or.inl (hs.table p hp)),
    fun p hp => ?_, ?_⟩
  · rw [hresults, List.mem_append, Option.mem_toList] at hp
    rcases hp with hold | hnew
    · obtain ⟨htrue, hconnected⟩ := hs.coming p hold
      exact ⟨(htable p).mpr (Or.inl htrue), hconnected⟩
    · refine ⟨(htable p).mpr (Or.inr hnew), ?_⟩
      by_contra hconnected
      have htrue := hs.table p (Bool.not_eq_false _ ▸ hconnected)
      rw [hfresh p hnew] at htrue
      cases htrue
  · rw [hresults]
    refine List.nodup_append.mpr ⟨hs.once, by cases r.connects <;> simp, fun p hp q hq heq => ?_⟩
    subst heq
    have htrue := (hs.coming p hp).1
    rw [hfresh p (Option.mem_toList.mp hq)] at htrue
    cases htrue

/-- The demuxer takes a result, and has a new port when the result brings one. -/
theorem Consistent.takes (hs : s.Consistent) (hget : s.results[i]? = some r)
    (hwaits : ∀ p ∈ r.connects, s.gone r.tx = false) :
    ∃ d, s.demuxer.step V (r.event (!s.gone r.tx)) = .ok d ∧
      ∀ p, d.routes.byKey1 p ≠ none ↔ s.connected p = true ∨ r.connects = some p := by
  have hidle : r.connects = none → ∀ p,
      s.demuxer.routes.byKey1 p ≠ none ↔ s.connected p = true ∨ r.connects = some p := fun hnone p => by
    rw [hs.ports, hnone]
    simp
  cases r with
  | disconnect port result tx => exact ⟨s.demuxer, rfl, hidle rfl⟩
  | register result tx =>
      cases result with
      | error e => exact ⟨s.demuxer, rfl, hidle rfl⟩
      | ok port =>
          have hmem : port ∈ s.results.filterMap ControllerResult.connects :=
            List.mem_filterMap.mpr ⟨_, List.mem_of_getElem? hget, rfl⟩
          have hnew : s.demuxer.routes.byKey1 port = none := by
            by_contra hold
            have hconnected := (hs.ports port).mp hold
            rw [(hs.coming port hmem).2] at hconnected
            cases hconnected
          obtain ⟨⟨d, hok, hregistered⟩, -⟩ := Demuxer.register_new hs.sound hnew
          refine ⟨d, ?_, fun p => ?_⟩
          · have hgone : s.gone tx = false := hwaits port rfl
            show s.demuxer.register port (!s.gone tx) = .ok d
            rw [hgone]
            exact hok
          · rw [hregistered.routes_eq, ← hs.ports p]
            show Function.update s.demuxer.routes.byKey1 port _ p ≠ none ↔ _ ∨ some port = some p
            rw [Function.update_apply]
            by_cases hp : p = port
            · simp [hp]
            · simp [hp, Ne.symm hp]

theorem Consistent.handled (hs : s.Consistent) (hget : s.results[i]? = some r)
    (hlasting : ∀ p ∈ r.disconnects, s.connected p = false) (hd : d.Sound)
    (hcurrent : Demuxer.Current d.routes)
    (hports : ∀ p, d.routes.byKey1 p ≠ none ↔ s.connected p = true ∨ r.connects = some p) :
    (s.handled i r d).Consistent := by
  have hconnected := update_eq_true hlasting
  have hperm := connects_perm hget
  have hcoming : ∀ p, r.connects = some p → s.table p = true := fun p hp =>
    (hs.coming p (hperm.mem_iff.mpr (List.mem_append_left _ (Option.mem_toList.mpr hp)))).1
  have honce := hperm.nodup_iff.mp hs.once
  refine ⟨hd, hcurrent, fun p => (hports p).trans (hconnected p).symm, fun p hp => ?_, fun p hp => ?_, ?_⟩
  · rcases (hconnected p).mp hp with hold | hnew
    · exact hs.table p hold
    · exact hcoming p hnew
  · have hp : p ∈ (s.results.eraseIdx i).filterMap ControllerResult.connects := hp
    obtain ⟨htrue, hnot⟩ := hs.coming p (hperm.mem_iff.mpr (List.mem_append_right _ hp))
    refine ⟨htrue, ?_⟩
    by_contra htaken
    rcases (hconnected p).mp (Bool.not_eq_false _ ▸ htaken) with hold | hnew
    · rw [hnot] at hold
      cases hold
    · exact (List.nodup_append.mp honce).2.2 p (Option.mem_toList.mpr hnew) p hp rfl
  · exact (List.nodup_append.mp honce).2.1

/-- Events that are no results leave the ports alone. -/
theorem Consistent.demuxed (hs : s.Consistent) {event : DemuxEvent}
    (hstep : s.demuxer.step V event = .ok d)
    (hevent : ∀ port waiting, event ≠ .registered (.ok port) waiting) :
    ({ s with demuxer := d } : Registry).Consistent := by
  have hstepped := Demuxer.stepped_of_step hs.sound hstep
  refine ⟨hstepped.sound hs.sound, (hstepped.current hs.current).1, fun p => ?_, hs.table, hs.coming,
    hs.once⟩
  show d.routes.byKey1 p ≠ none ↔ s.connected p = true
  rw [hstepped.byKey1_eq hevent]
  exact hs.ports p

theorem map_eq_ok {α β : Type} {x : Except Fault α} {f : α → β} {b : β} (h : x.map f = .ok b) :
    ∃ a, x = .ok a ∧ f a = b := by
  cases x with
  | error e => cases h
  | ok a => exact ⟨a, rfl, Except.ok.inj h⟩

/-- **One event keeps the registry consistent.** -/
theorem Consistent.step (hs : s.Consistent) {e : RegistryEvent} (hfresh : s.Fresh e)
    (hlasting : s.Lasting e) (hok : s.step V e = .ok s') : s'.Consistent := by
  cases e with
  | request request tx =>
      obtain ⟨d, hstep, rfl⟩ := map_eq_ok hok
      have hdemuxed := hs.demuxed hstep (by cases request <;> simp [PortRequest.event])
      exact ⟨hdemuxed.sound, hdemuxed.current, hdemuxed.ports, hs.table, hs.coming, hs.once⟩
  | call i reply =>
      simp only [Registry.step] at hok
      cases hget : s.calls[i]? with
      | none =>
          rw [hget] at hok
          cases hok
          exact hs
      | some c =>
          rw [hget] at hok
          cases hok
          exact hs.called (hfresh c hget) (hlasting c hget)
  | drop tx =>
      cases hok
      exact ⟨hs.sound, hs.current, hs.ports, hs.table, hs.coming, hs.once⟩
  | controller i =>
      simp only [Registry.step] at hok
      cases hget : s.results[i]? with
      | none =>
          rw [hget] at hok
          cases hok
          exact hs
      | some r =>
          rw [hget] at hok
          obtain ⟨d, hstep, rfl⟩ := map_eq_ok hok
          obtain ⟨hwaits, hstays⟩ := hlasting r hget
          obtain ⟨d', hstep', hports⟩ := hs.takes (V := V) hget hwaits
          obtain rfl : d' = d := Except.ok.inj (hstep'.symm.trans hstep)
          have hstepped := Demuxer.stepped_of_step hs.sound hstep
          exact hs.handled hget hstays (hstepped.sound hs.sound) (hstepped.current hs.current).1 hports
  | givebackUrb handle =>
      obtain ⟨d, hstep, rfl⟩ := map_eq_ok hok
      exact hs.demuxed hstep (by simp)
  | work work =>
      obtain ⟨d, hstep, rfl⟩ := map_eq_ok hok
      exact hs.demuxed hstep (by simp)

/-- Every event but a work item goes through. -/
theorem Consistent.goes_through (hs : s.Consistent) {e : RegistryEvent} (hlasting : s.Lasting e)
    (hwork : ∀ work, e ≠ .work work) : ∃ s', s.step V e = .ok s' := by
  cases e with
  | request request tx =>
      cases request with
      | register port => exact ⟨_, rfl⟩
      | disconnect port => exact ⟨_, rfl⟩
  | call i reply =>
      simp only [Registry.step]
      cases s.calls[i]? with
      | none => exact ⟨s, rfl⟩
      | some c => exact ⟨_, rfl⟩
  | drop tx => exact ⟨_, rfl⟩
  | controller i =>
      simp only [Registry.step]
      cases hget : s.results[i]? with
      | none => exact ⟨s, rfl⟩
      | some r =>
          obtain ⟨d, hstep, -⟩ := hs.takes (V := V) hget (hlasting r hget).1
          exact ⟨s.handled i r d, by simp only [hstep]; rfl⟩
  | givebackUrb handle =>
      obtain ⟨d, hstep, -⟩ := Demuxer.givebackUrb_spec (V := V) hs.sound handle
      exact ⟨{ s with demuxer := d }, by simp only [Registry.step, hstep]; rfl⟩
  | work work => exact absurd rfl (hwork work)

/-- An event that goes through is at most one turn of the demuxer. -/
theorem step_demuxer {e : RegistryEvent} (hok : s.step V e = .ok s') :
    s'.demuxer = s.demuxer ∨ ∃ event, s.demuxer.step V event = .ok s'.demuxer := by
  cases e with
  | call i reply =>
      simp only [Registry.step] at hok
      split at hok <;> cases hok <;> exact Or.inl rfl
  | drop tx =>
      cases hok
      exact Or.inl rfl
  | controller i =>
      simp only [Registry.step] at hok
      split at hok
      · cases hok
        exact Or.inl rfl
      · obtain ⟨d, hstep, rfl⟩ := map_eq_ok hok
        exact Or.inr ⟨_, hstep⟩
  | request request tx =>
      obtain ⟨d, hstep, rfl⟩ := map_eq_ok hok
      exact Or.inr ⟨_, hstep⟩
  | givebackUrb handle =>
      obtain ⟨d, hstep, rfl⟩ := map_eq_ok hok
      exact Or.inr ⟨_, hstep⟩
  | work work =>
      obtain ⟨d, hstep, rfl⟩ := map_eq_ok hok
      exact Or.inr ⟨_, hstep⟩

theorem Consistent.kept (hs : s.Consistent) {e : RegistryEvent} (hfresh : s.Fresh e)
    (hlasting : s.Lasting e) : s.Kept V e := by
  refine ⟨hs.goes_through hlasting, fun s' hok => ⟨(hs.step hfresh hlasting hok).listed, ?_⟩⟩
  intro item hitem
  have hport : ∃ p, s.demuxer.routes.byKey1 p = some item.1 := by
    rcases step_demuxer hok with hsame | ⟨event, hstep⟩
    · rw [hsame, List.drop_length] at hitem
      cases hitem
    · exact ((Demuxer.stepped_of_step hs.sound hstep).current hs.current).2 item hitem
  obtain ⟨p, hp⟩ := hport
  exact ⟨p, (hs.ports p).mp (by simp [hp]), (hs.sound.sessions p).trans hp⟩

/-! ### Runs -/

/-- **Ports come and go**: no request and no result makes the demuxer fault, the mailer has the connected
ports, and work goes to their newest channels only, in every run in which the driver keeps to its part, no
connected port is disconnected and no requester of a connected port gives up. -/
theorem ports_kept {es : List RegistryEvent}
    (h : Meets (step V) (fun s e => s.Fresh e ∧ s.Lasting e) start es) : Meets (step V) (Kept V) start es :=
  Meets.imp consistent_start h (fun _ _ hs he => hs.kept he.1 he.2)
    fun _ _ _ hs he hok => hs.step he.1 he.2 hok

instance (s : Registry) (e : RegistryEvent) : Decidable (s.Fresh e) :=
  match e with
  | .call i _ => inferInstanceAs (Decidable (∀ _ ∈ s.calls[i]?, ∀ _ ∈ _, _))
  | .request _ _ | .drop _ | .controller _ | .givebackUrb _ | .work _ => isTrue trivial

instance (s : Registry) (e : RegistryEvent) : Decidable (s.Lasting e) :=
  match e with
  | .call i _ => inferInstanceAs (Decidable (∀ _ ∈ s.calls[i]?, ∀ _ ∈ _, _))
  | .controller i => inferInstanceAs (Decidable (∀ _ ∈ s.results[i]?, (∀ _ ∈ _, _) ∧ ∀ _ ∈ _, _))
  | .request _ _ | .drop _ | .givebackUrb _ | .work _ => isTrue trivial

/-- Two ports are connected, and their results come back in the other order. -/
def registerRun : List RegistryEvent :=
  [.request (.register .any) 1, .request (.register (.port ⟨2⟩)) 2, .call 0 (.ok ⟨1⟩), .call 0 (.ok ⟨0⟩),
    .controller 1, .controller 0]

/-- A port is disconnected and connected again. -/
def reregisterRun : List RegistryEvent :=
  [.request (.register .any) 1, .call 0 (.ok ⟨1⟩), .controller 0, .request (.disconnect ⟨1⟩) 2,
    .call 0 (.ok ⟨0⟩), .controller 0, .request (.register .any) 3, .call 0 (.ok ⟨1⟩), .controller 0]

/-- A requester gives up before its port is connected. -/
def abandonedRun : List RegistryEvent :=
  [.request (.register .any) 1, .drop 1, .call 0 (.ok ⟨1⟩), .controller 0]

theorem ports_kept_run : Meets (step Vhci.usb) (Kept Vhci.usb) start registerRun :=
  ports_kept (by decide)

/-- The demuxer faults when a port comes back, and when a requester has given up. -/
theorem returning_port_faults :
    (Meets (step Vhci.usb) Fresh start reregisterRun ∧
      ¬ Meets (step Vhci.usb) (Kept Vhci.usb) start reregisterRun) ∧
    (Meets (step Vhci.usb) Fresh start abandonedRun ∧
      ¬ Meets (step Vhci.usb) (Kept Vhci.usb) start abandonedRun) := by
  have hsafe : ∀ es, Meets (step Vhci.usb) (Kept Vhci.usb) start es →
      (∀ e ∈ es, ∀ work, e ≠ .work work) → Safe (step Vhci.usb) start es := fun es h hwork =>
    h.safe fun s e he hkept => hkept.1 (hwork e he)
  refine ⟨⟨by decide, fun h => ?_⟩, by decide, fun h => ?_⟩
  · exact absurd (hsafe _ h (by simp [reregisterRun])) (by decide)
  · exact absurd (hsafe _ h (by simp [abandonedRun])) (by decide)

end Registry
end Qusb

import Qusb.Stub.Demuxer

/-! What the demuxer does with an event, in terms of where the keys of its mailer lead.

`Demuxer.Sound` is the invariant of the demuxer alone: the mailer is sound, no two ports share a channel,
and the sessions hold the receiving ends of the channels. Each handler is described once by what it does to
the routes; the properties of routing are proved from these descriptions. -/

open Tables

namespace Qusb

open Proto

namespace Demuxer

/-- Where the keys lead. -/
def routes (d : Demuxer) : Routes Port Address UrbHandle Chan := d.mailer.view

structure Sound (d : Demuxer) : Prop where
  mailer : d.mailer.Sound
  fresh : ∀ c ∈ d.mailer.vals, c < d.fresh
  sessions : ∀ p, d.sessions.lookup p = d.routes.byKey1 p
  injective : ∀ p q c, d.routes.byKey1 p = some c → d.routes.byKey1 q = some c → p = q

theorem sound_start : start.Sound where
  mailer := ThreeKeyMap.sound_empty
  fresh := by simp [start, ThreeKeyMap.vals, ThreeKeyMap.empty]
  sessions := fun p => AList.lookup_empty p
  injective := fun p q c h => by cases h

/-- The demuxer has a new queue and new routes; the ports and their channels are the same. -/
structure Became (d d' : Demuxer) (queue : List Port) (r : Routes Port Address UrbHandle Chan) : Prop where
  sound : d'.Sound
  queue_eq : d'.registerQueue = queue
  routes_eq : d'.routes = r
  sent_eq : d'.sent = d.sent
  sessions_eq : d'.sessions = d.sessions

variable {V : Vhci} {d d' : Demuxer}

theorem Sound.became (hd : d.Sound) {m : Mailer} {r : Routes Port Address UrbHandle Chan}
    (h : ThreeKeyMap.Follows d.mailer m r) (hports : r.byKey1 = d.routes.byKey1) (queue : List Port) :
    Became d { d with registerQueue := queue, mailer := m } queue r := by
  have hroutes : routes { d with registerQueue := queue, mailer := m } = r := h.view_eq
  refine ⟨⟨h.sound, fun c hc => hd.fresh c (h.vals_subset hc), fun p => ?_, fun p q c => ?_⟩, rfl,
    hroutes, rfl, rfl⟩
  · rw [hroutes, hports]
    exact hd.sessions p
  · rw [hroutes, hports]
    exact hd.injective p q c

/-- The routes with one more handle. -/
def withHandle (r : Routes Port Address UrbHandle Chan) (handle : UrbHandle) (tx : Option Chan) :
    Routes Port Address UrbHandle Chan :=
  { r with byKey3 := Function.update r.byKey3 handle tx }

/-- What linking a handle to a port can do, in a mailer with the given view: it goes through exactly when
the port is there and the handle is new. -/
theorem linkHandle {m : Mailer} (hm : m.Sound) (handle : UrbHandle) (p : Port) :
    (∃ c m', m.view.byKey1 p = some c ∧ m.view.byKey3 handle = none ∧
      m.linkKey3ToKey1 handle p = .ok (.success, m') ∧
      ThreeKeyMap.Follows m m' (withHandle m.view handle (some c))) ∨
    ((m.view.byKey1 p = none ∨ m.view.byKey3 handle ≠ none) ∧
      ∃ result m', result ≠ LinkResult.success ∧ m.linkKey3ToKey1 handle p = .ok (result, m')) := by
  obtain ⟨m', hok, hfollows⟩ := hm.linkKey3ToKey1 handle p
  unfold Routes.linkKey3ToKey1 at hok hfollows
  by_cases hh : m.view.byKey3 handle = none
  · cases hc : m.view.byKey1 p with
    | none =>
        simp only [hc, Routes.link_none hh] at hok
        exact Or.inr ⟨Or.inl rfl, _, m', by decide, hok⟩
    | some c =>
        simp only [hc, Routes.link_some hh c] at hok hfollows
        exact Or.inl ⟨c, m', rfl, hh, hok, hfollows⟩
  · simp only [Routes.link_old hh] at hok
    exact Or.inr ⟨Or.inr hh, _, m', by decide, hok⟩

/-! ### The handlers -/

theorem defaultUrb_cases (hd : d.Sound) (handle : UrbHandle) (p : Port) :
    (∃ c d', d.routes.byKey1 p = some c ∧ d.routes.byKey3 handle = none ∧
      d.defaultUrb handle p = .ok (d', some c) ∧
      Became d d' d.registerQueue (withHandle d.routes handle (some c))) ∨
    ((d.routes.byKey1 p = none ∨ d.routes.byKey3 handle ≠ none) ∧
      d.defaultUrb handle p = .error .assertFailed) := by
  rcases linkHandle hd.mailer handle p with
    ⟨c, m, hc, hh, hok, hfollows⟩ | ⟨hfail, result, m, hresult, hok⟩
  · have hbecame := hd.became hfollows rfl d.registerQueue
    have htarget : m.getByKey1 p = some c := by
      show m.view.byKey1 p = some c
      rw [hfollows.view_eq]
      exact hc
    refine Or.inl ⟨c, _, hc, hh, ?_, hbecame⟩
    unfold defaultUrb
    rw [hok, ok_bind]
    simp only [assert, if_true, ok_bind, htarget]
    rfl
  · refine Or.inr ⟨hfail, ?_⟩
    unfold defaultUrb
    rw [hok, ok_bind]
    simp only [assert, if_neg hresult, error_bind]

/-- The routes after the first port of the queue got its address. -/
def addressed (r : Routes Port Address UrbHandle Chan) (zero address : Address) (handle : UrbHandle)
    (c : Chan) : Routes Port Address UrbHandle Chan :=
  withHandle { r with
    byKey2 := (Routes.link (Function.update r.byKey2 zero none) address (some c)).2 } handle (some c)

theorem setAddress_cases (hd : d.Sound) {urb : IocUrb} {address zero : Address} {p : Port}
    {queue : List Port} (handle : UrbHandle)
    (haddress : V.addressNew urb.setupPacket.value.toUInt8 = some address)
    (hzero : V.addressNew 0 = some zero) (hqueue : d.registerQueue = p :: queue) :
    (∃ c d', d.routes.byKey1 p = some c ∧ d.routes.byKey3 handle = none ∧
      d.setAddress V urb handle = .ok (d', some c) ∧
      Became d d' queue (addressed d.routes zero address handle c)) ∨
    ((d.routes.byKey1 p = none ∨ d.routes.byKey3 handle ≠ none) ∧
      d.setAddress V urb handle = .error .assertFailed) := by
  obtain ⟨v, m₁, hremove, hfollows₁⟩ := hd.mailer.removeByKey2 zero
  obtain ⟨m₂, hlink, hfollows₂⟩ := hfollows₁.sound.linkKey2ToKey1 address p
  have hview : m₂.view = { d.routes with byKey2 :=
      (Routes.link (Function.update d.routes.byKey2 zero none) address (d.routes.byKey1 p)).2 } := by
    rw [hfollows₂.view_eq, hfollows₁.view_eq]
    rfl
  have hstep : d.setAddress V urb handle = m₂.linkKey3ToKey1 handle p >>= fun r =>
      assert (r.1 = .success) >>= fun _ =>
        .ok ({ d with registerQueue := queue, mailer := r.2 }, r.2.getByKey1 p) := by
    unfold setAddress
    simp only [haddress, hqueue, hzero, unwrap, hremove, hlink, ok_bind]
    rfl
  have hvals : m₂.vals ⊆ d.mailer.vals := fun x hx => hfollows₁.vals_subset (hfollows₂.vals_subset hx)
  rw [hstep]
  rcases linkHandle hfollows₂.sound handle p with
    ⟨c, m, hc, hh, hok, hfollows⟩ | ⟨hfail, result, m, hresult, hok⟩
  · rw [hview] at hc hh hfollows
    have hr : withHandle { d.routes with byKey2 := (Routes.link (Function.update d.routes.byKey2 zero none)
        address (d.routes.byKey1 p)).2 } handle (some c) = addressed d.routes zero address handle c := by
      rw [show d.routes.byKey1 p = some c from hc]
      rfl
    have htarget : m.getByKey1 p = some c := by
      show m.view.byKey1 p = some c
      rw [hfollows.view_eq]
      exact hc
    refine Or.inl ⟨c, _, hc, hh, ?_, hd.became ⟨hfollows.sound, hfollows.view_eq.trans hr,
      fun x hx => hvals (hfollows.vals_subset hx)⟩ rfl queue⟩
    rw [hok, ok_bind]
    simp only [assert, if_true, ok_bind, htarget]
  · rw [hview] at hfail
    refine Or.inr ⟨hfail, ?_⟩
    rw [hok, ok_bind]
    simp only [assert, if_neg hresult, error_bind]

/-- A URB at an address: a handle that is already linked passes, too. -/
theorem addressUrb_cases (hd : d.Sound) (handle : UrbHandle) (address : Address) :
    (∃ d', d.routes.byKey3 handle ≠ none ∧
      d.addressUrb handle address = .ok (d', d.routes.byKey2 address) ∧
      Became d d' d.registerQueue d.routes) ∨
    (∃ c d', d.routes.byKey3 handle = none ∧ d.routes.byKey2 address = some c ∧
      d.addressUrb handle address = .ok (d', some c) ∧
      Became d d' d.registerQueue (withHandle d.routes handle (some c))) ∨
    (d.routes.byKey3 handle = none ∧ d.routes.byKey2 address = none ∧
      d.addressUrb handle address = .error .assertFailed) := by
  obtain ⟨m, hok, hfollows⟩ := hd.mailer.linkKey3ToKey2 handle address
  unfold Routes.linkKey3ToKey2 at hok hfollows
  by_cases hh : d.mailer.view.byKey3 handle = none
  · cases hc : d.mailer.view.byKey2 address with
    | none =>
        simp only [hc, Routes.link_none hh] at hok
        refine Or.inr (Or.inr ⟨hh, hc, ?_⟩)
        unfold addressUrb
        rw [hok, ok_bind]
        rfl
    | some c =>
        simp only [hc, Routes.link_some hh c] at hok hfollows
        have htarget : m.getByKey2 address = some c := by
          show m.view.byKey2 address = some c
          rw [hfollows.view_eq]
          exact hc
        refine Or.inr (Or.inl ⟨c, _, hh, hc, ?_, hd.became hfollows rfl d.registerQueue⟩)
        unfold addressUrb
        rw [hok, ok_bind]
        simp only [htarget]
        rfl
  · simp only [Routes.link_old hh] at hok hfollows
    have hsame : m.getByKey2 address = d.routes.byKey2 address := by
      show m.view.byKey2 address = _
      rw [hfollows.view_eq]
      rfl
    refine Or.inl ⟨_, hh, ?_, hd.became hfollows rfl d.registerQueue⟩
    unfold addressUrb
    rw [hok, ok_bind]
    simp only [hsame]
    rfl

theorem cancelUrb_spec (hd : d.Sound) (handle : UrbHandle) :
    ∃ d', d.cancelUrb handle = .ok (d', d.routes.byKey3 handle) ∧
      Became d d' d.registerQueue (withHandle d.routes handle none) := by
  obtain ⟨v, m, hok, hfollows⟩ := hd.mailer.removeByKey3 handle
  refine ⟨_, ?_, hd.became hfollows rfl d.registerQueue⟩
  unfold cancelUrb
  rw [hok]
  rfl

theorem givebackUrb_spec (hd : d.Sound) (handle : UrbHandle) :
    ∃ d', d.step V (.givebackUrb handle) = .ok d' ∧
      Became d d' d.registerQueue (withHandle d.routes handle none) := by
  obtain ⟨v, m, hok, hfollows⟩ := hd.mailer.removeByKey3 handle
  refine ⟨_, ?_, hd.became hfollows rfl d.registerQueue⟩
  simp only [step, hok, ok_bind]
  rfl

/-- The port completes a reset and is not in the queue yet. -/
def enqueues (d : Demuxer) (stat : IocPortStat) : Bool :=
  stat.resetSuccessful && !d.registerQueue.contains stat.index

/-- The routes without the addresses and handles of a port. -/
def without (r : Routes Port Address UrbHandle Chan) (p : Port) : Routes Port Address UrbHandle Chan :=
  { r with
    byKey2 := fun a => if r.byKey2 a = r.byKey1 p then none else r.byKey2 a
    byKey3 := fun h => if r.byKey3 h = r.byKey1 p then none else r.byKey3 h }

/-- No other port shares the channel, so the ports keep theirs. -/
theorem unlink_eq_without (hd : d.Sound) (p : Port) :
    d.routes.unlinkAllButKey1 p = without d.routes p := by
  unfold Routes.unlinkAllButKey1 without
  cases hc : d.routes.byKey1 p with
  | none =>
      have h2 : (fun a => if d.routes.byKey2 a = none then none else d.routes.byKey2 a) =
          d.routes.byKey2 := by
        funext a
        split
        · next h => exact h.symm
        · rfl
      have h3 : (fun h => if d.routes.byKey3 h = none then none else d.routes.byKey3 h) =
          d.routes.byKey3 := by
        funext h
        split
        · next h => exact h.symm
        · rfl
      simp only [h2, h3]
  | some c =>
      have h1 : Function.update (Routes.cut d.routes.byKey1 c) p (some c) = d.routes.byKey1 := by
        funext q
        rw [Function.update_apply]
        split
        · next hq => rw [hq, hc]
        · next hq =>
            unfold Routes.cut
            rw [if_neg fun h => hq (hd.injective q p c h hc)]
      simp only [h1]
      rfl

theorem portStat_spec (hd : d.Sound) (stat : IocPortStat) :
    (d.portStat stat).2 = d.routes.byKey1 stat.index ∧
    Became d (d.portStat stat).1
      (if d.enqueues stat then d.registerQueue ++ [stat.index] else d.registerQueue)
      (if d.enqueues stat then without d.routes stat.index else d.routes) := by
  unfold portStat enqueues
  simp only
  split
  · have hfollows := hd.mailer.unlinkAllButKey1 stat.index
    rw [show d.mailer.view.unlinkAllButKey1 stat.index = _ from unlink_eq_without hd stat.index]
      at hfollows
    refine ⟨?_, hd.became hfollows rfl _⟩
    show (d.mailer.unlinkAllButKey1 stat.index).view.byKey1 stat.index = _
    rw [hfollows.view_eq]
    rfl
  · exact ⟨rfl, hd, rfl, rfl, rfl, rfl⟩

/-- What a registration did: the port is new, its requester waits, and it has a channel of its own. -/
structure Registered (d d' : Demuxer) (port : Port) : Prop where
  sound : d'.Sound
  isNew : d.routes.byKey1 port = none
  queue_eq : d'.registerQueue = d.registerQueue
  routes_eq : d'.routes = { d.routes with byKey1 := Function.update d.routes.byKey1 port (some d.fresh) }
  sent_eq : d'.sent = d.sent
  sessions_eq : d'.sessions = d.sessions.insert port d.fresh

theorem register_old {port : Port} (waiting : Waiting) (hold : d.routes.byKey1 port ≠ none) :
    d.register port waiting = .error .assertFailed := by
  have hvalue := ThreeKeyMap.Sound.insertByKey1_old (m := d.mailer) d.fresh hold
  unfold register
  simp only [hvalue, assert, reduceCtorEq, if_false, error_bind]

theorem register_new (hd : d.Sound) {port : Port} (hnew : d.routes.byKey1 port = none) :
    (∃ d', d.register port true = .ok d' ∧ Registered d d' port) ∧
      d.register port false = .error .unwrapNone := by
  have hfresh : d.fresh ∉ d.mailer.vals := fun hmem => Nat.lt_irrefl _ (hd.fresh _ hmem)
  obtain ⟨m, hok, hsound, hvals, hview⟩ := hd.mailer.insertByKey1 hnew hfresh
  let d' : Demuxer := { d with
    mailer := m, fresh := d.fresh + 1, sessions := d.sessions.insert port d.fresh }
  have hroutes : d'.routes =
      { d.routes with byKey1 := Function.update d.routes.byKey1 port (some d.fresh) } := hview
  have hlt : ∀ p c, d.routes.byKey1 p = some c → c < d.fresh := fun p c hc =>
    hd.fresh c (ThreeKeyMap.mem_vals_of_get1 hc)
  constructor
  · refine ⟨d', ?_, ⟨⟨hsound, fun c hc => ?_, fun p => ?_, fun p q c hp hq => ?_⟩, hnew, rfl, hroutes,
      rfl, rfl⟩⟩
    · unfold register
      simp only [hok, assert, if_true, unwrap, ok_bind]
      rfl
    · show c < d.fresh + 1
      have hmem : c ∈ d.mailer.vals ++ [d.fresh] := hvals ▸ hc
      rcases List.mem_append.mp hmem with hold | hlast
      · exact Nat.lt_succ_of_lt (hd.fresh c hold)
      · rw [List.mem_singleton.mp hlast]
        exact Nat.lt_succ_self _
    · rw [hroutes]
      show (d.sessions.insert port d.fresh).lookup p = Function.update d.routes.byKey1 port _ p
      rw [lookup_insert_eq, Function.update_apply, hd.sessions]
    · rw [hroutes] at hp hq
      simp only [Function.update_apply] at hp hq
      split at hp <;> split at hq
      · next h h' => rw [h, h']
      · exact absurd (Option.some.inj hp) (Nat.ne_of_gt (hlt q c hq))
      · exact absurd (Option.some.inj hq) (Nat.ne_of_gt (hlt p c hp))
      · exact hd.injective p q c hp hq
  · unfold register
    simp only [hok, assert, if_true, unwrap, ok_bind, Bool.false_eq_true, if_false, error_bind]

/-! ### A URB -/

/-- What a URB that went through did, by the branch it took. -/
inductive UrbStep (V : Vhci) (d : Demuxer) (urb : IocUrb) (handle : UrbHandle) :
    Demuxer → Option Chan → Prop
  | setAddress {d' : Demuxer} {address zero : Address} {p : Port} {queue : List Port} {c : Chan}
      (hset : isSetAddress V urb = true)
      (haddress : V.addressNew urb.setupPacket.value.toUInt8 = some address)
      (hzero : V.addressNew 0 = some zero) (hqueue : d.registerQueue = p :: queue)
      (hc : d.routes.byKey1 p = some c) (hh : d.routes.byKey3 handle = none)
      (hbecame : Became d d' queue (addressed d.routes zero address handle c)) :
      UrbStep V d urb handle d' (some c)
  | default {d' : Demuxer} {p : Port} {queue : List Port} {c : Chan}
      (hset : isSetAddress V urb = false) (hdefault : isDefaultUrb V urb = true)
      (hqueue : d.registerQueue = p :: queue) (hc : d.routes.byKey1 p = some c)
      (hh : d.routes.byKey3 handle = none)
      (hbecame : Became d d' d.registerQueue (withHandle d.routes handle (some c))) :
      UrbStep V d urb handle d' (some c)
  | stale {d' : Demuxer} (hother : d.registerQueue = [] ∨ isDefaultUrb V urb = false)
      (hh : d.routes.byKey3 handle ≠ none) (hbecame : Became d d' d.registerQueue d.routes) :
      UrbStep V d urb handle d' (d.routes.byKey2 urb.address)
  | address {d' : Demuxer} {c : Chan} (hother : d.registerQueue = [] ∨ isDefaultUrb V urb = false)
      (hh : d.routes.byKey3 handle = none) (hc : d.routes.byKey2 urb.address = some c)
      (hbecame : Became d d' d.registerQueue (withHandle d.routes handle (some c))) :
      UrbStep V d urb handle d' (some c)

theorem isDefault_of_isSetAddress {urb : IocUrb} (h : isSetAddress V urb = true) :
    isDefaultUrb V urb = true := by
  unfold isSetAddress at h
  rw [Bool.and_eq_true, Bool.and_eq_true] at h
  exact h.1.1

/-- The last branch. -/
theorem addressUrb_ok (hd : d.Sound) {urb : IocUrb} {handle : UrbHandle} {tx : Option Chan}
    (hother : d.registerQueue = [] ∨ isDefaultUrb V urb = false)
    (hok : d.addressUrb handle urb.address = .ok (d', tx)) : UrbStep V d urb handle d' tx := by
  rcases addressUrb_cases hd handle urb.address with
    ⟨d₁, hh, h, hbecame⟩ | ⟨c, d₁, hh, hc, h, hbecame⟩ | ⟨-, -, h⟩
  · cases h.symm.trans hok
    exact .stale hother hh hbecame
  · cases h.symm.trans hok
    exact .address hother hh hc hbecame
  · cases h.symm.trans hok

theorem processUrb_ok (hd : d.Sound) {urb : IocUrb} {handle : UrbHandle} {tx : Option Chan}
    (hok : d.processUrb V urb handle = .ok (d', tx)) : UrbStep V d urb handle d' tx := by
  unfold processUrb at hok
  split at hok
  · next p queue hqueue =>
      split at hok
      · next hset =>
          cases haddress : V.addressNew urb.setupPacket.value.toUInt8 with
          | none =>
              simp only [setAddress, haddress] at hok
              cases hok
          | some address =>
              cases hzero : V.addressNew 0 with
              | none =>
                  simp only [setAddress, haddress, hqueue, hzero, unwrap, error_bind] at hok
                  cases hok
              | some zero =>
                  rcases setAddress_cases hd handle haddress hzero hqueue with
                    ⟨c, d₁, hc, hh, h, hbecame⟩ | ⟨-, h⟩
                  · cases h.symm.trans hok
                    exact .setAddress hset haddress hzero hqueue hc hh hbecame
                  · cases h.symm.trans hok
      · next hset =>
          rw [Bool.not_eq_true] at hset
          split at hok
          · next hdefault =>
              rcases defaultUrb_cases hd handle p with ⟨c, d₁, hc, hh, h, hbecame⟩ | ⟨-, h⟩
              · cases h.symm.trans hok
                exact .default hset hdefault hqueue hc hh hbecame
              · cases h.symm.trans hok
          · next hdefault =>
              exact addressUrb_ok hd (Or.inr (by simpa using hdefault)) hok
  · next hqueue => exact addressUrb_ok hd (Or.inl hqueue) hok

/-- The URB takes the last branch. -/
def UsesAddress (V : Vhci) (d : Demuxer) (urb : IocUrb) : Prop :=
  d.registerQueue = [] ∨ isDefaultUrb V urb = false

instance (d : Demuxer) (urb : IocUrb) : Decidable (UsesAddress V d urb) :=
  inferInstanceAs (Decidable (_ ∨ _))

theorem processUrb_address {urb : IocUrb} (handle : UrbHandle) (h : UsesAddress V d urb) :
    d.processUrb V urb handle = d.addressUrb handle urb.address := by
  unfold processUrb
  split
  · next p queue hqueue =>
      rcases h with hnil | hdefault
      · rw [hqueue] at hnil
        cases hnil
      · have hset : ¬ isSetAddress V urb = true := fun hset => by
          rw [isDefault_of_isSetAddress hset] at hdefault
          cases hdefault
        rw [if_neg hset, if_neg (by simp [hdefault])]
  · rfl

/-- A control URB at the unassigned address, while a port waits in the queue: it goes to that port, or the
handle cannot be linked, or the address of a SET_ADDRESS is no address. -/
theorem processUrb_default (hd : d.Sound) {urb : IocUrb} {p : Port} {queue : List Port}
    (handle : UrbHandle) (hdefault : isDefaultUrb V urb = true) (hqueue : d.registerQueue = p :: queue) :
    (∃ c d₁, d.routes.byKey1 p = some c ∧ d₁.sent = d.sent ∧
      d.processUrb V urb handle = .ok (d₁, some c)) ∨
    ((d.routes.byKey1 p = none ∨ d.routes.byKey3 handle ≠ none) ∧
      d.processUrb V urb handle = .error .assertFailed) ∨
    (isSetAddress V urb = true ∧ V.addressNew urb.setupPacket.value.toUInt8 = none ∧
      d.processUrb V urb handle = .error .expectNone) ∨
    (V.addressNew 0 = none ∧ d.processUrb V urb handle = .error .unwrapNone) := by
  unfold processUrb
  simp only [hqueue]
  by_cases hset : isSetAddress V urb = true
  · rw [if_pos hset]
    cases haddress : V.addressNew urb.setupPacket.value.toUInt8 with
    | none =>
        refine Or.inr (Or.inr (Or.inl ⟨hset, rfl, ?_⟩))
        simp only [setAddress, haddress]
    | some address =>
        cases hzero : V.addressNew 0 with
        | none =>
            refine Or.inr (Or.inr (Or.inr ⟨rfl, ?_⟩))
            simp only [setAddress, haddress, hqueue, hzero, unwrap, error_bind]
        | some zero =>
            rcases setAddress_cases hd handle haddress hzero hqueue with
              ⟨c, d₁, hc, -, hok, hbecame⟩ | ⟨hfail, hfault⟩
            · exact Or.inl ⟨c, d₁, hc, hbecame.sent_eq, hok⟩
            · exact Or.inr (Or.inl ⟨hfail, hfault⟩)
  · rw [if_neg hset, if_pos hdefault]
    rcases defaultUrb_cases hd handle p with ⟨c, d₁, hc, -, hok, hbecame⟩ | ⟨hfail, hfault⟩
    · exact Or.inl ⟨c, d₁, hc, hbecame.sent_eq, hok⟩
    · exact Or.inr (Or.inl ⟨hfail, hfault⟩)

/-! ### Sending -/

@[simp] theorem send_routes (d : Demuxer) (tx : Option Chan) (work : Work) :
    (d.send tx work).routes = d.routes := by
  cases tx <;> rfl

@[simp] theorem send_registerQueue (d : Demuxer) (tx : Option Chan) (work : Work) :
    (d.send tx work).registerQueue = d.registerQueue := by
  cases tx <;> rfl

@[simp] theorem send_sessions (d : Demuxer) (tx : Option Chan) (work : Work) :
    (d.send tx work).sessions = d.sessions := by
  cases tx <;> rfl

theorem send_sent (d : Demuxer) (tx : Option Chan) (work : Work) :
    (d.send tx work).sent = d.sent ++ (tx.map fun c => (c, work)).toList := by
  cases tx with
  | none => exact (List.append_nil _).symm
  | some c => rfl

theorem Sound.send (hd : d.Sound) (tx : Option Chan) (work : Work) : (d.send tx work).Sound := by
  cases tx with
  | none => exact hd
  | some c => exact ⟨hd.mailer, hd.fresh, hd.sessions, hd.injective⟩

theorem step_work_ok {work : Work} :
    d.step V (.work work) = .ok d' ↔
      ∃ d₁ tx, d.route V work = .ok (d₁, tx) ∧ d' = d₁.send tx work := by
  simp only [step]
  rw [bind_eq_ok_iff]
  constructor
  · rintro ⟨⟨d₁, tx⟩, hroute, hsend⟩
    exact ⟨d₁, tx, hroute, (Except.ok.inj hsend).symm⟩
  · rintro ⟨d₁, tx, hroute, rfl⟩
    exact ⟨(d₁, tx), hroute, rfl⟩

theorem step_work_error {work : Work} {f : Fault} :
    d.step V (.work work) = .error f ↔ d.route V work = .error f := by
  cases hroute : d.route V work with
  | error f' => simp only [step, hroute, error_bind, Except.error.injEq]
  | ok result => simp only [step, hroute, ok_bind, pure, Except.pure, reduceCtorEq]

/-- A URB that is looked up by an address which is linked goes to the channel the address leads to. -/
theorem step_linked (hd : d.Sound) {urb : IocUrb} (handle : UrbHandle) {c : Chan}
    (huses : UsesAddress V d urb) (hc : d.routes.byKey2 urb.address = some c) :
    ∃ d', d.step V (.work (.processUrb urb handle)) = .ok d' ∧
      d'.sent = d.sent ++ [(c, .processUrb urb handle)] := by
  rcases addressUrb_cases hd handle urb.address with
    ⟨d₁, -, hok, hbecame⟩ | ⟨c', d₁, -, hc', hok, hbecame⟩ | ⟨-, hnone, -⟩
  · rw [hc] at hok
    have hroute := (processUrb_address handle huses).trans hok
    refine ⟨_, step_work_ok.mpr ⟨d₁, some c, hroute, rfl⟩, ?_⟩
    rw [send_sent, hbecame.sent_eq]
    rfl
  · obtain rfl : c = c' := Option.some.inj (hc.symm.trans hc')
    have hroute := (processUrb_address handle huses).trans hok
    refine ⟨_, step_work_ok.mpr ⟨d₁, some c, hroute, rfl⟩, ?_⟩
    rw [send_sent, hbecame.sent_eq]
    rfl
  · rw [hc] at hnone
    cases hnone

/-- Looking up an address faults exactly when neither the address nor the handle is linked. -/
theorem step_address_ok_iff (hd : d.Sound) {urb : IocUrb} (handle : UrbHandle)
    (huses : UsesAddress V d urb) :
    (∃ d', d.step V (.work (.processUrb urb handle)) = .ok d') ↔
      d.routes.byKey2 urb.address ≠ none ∨ d.routes.byKey3 handle ≠ none := by
  have hprocess := processUrb_address handle huses
  rcases addressUrb_cases hd handle urb.address with
    ⟨d₁, hh, hok, -⟩ | ⟨c, d₁, -, hc, hok, -⟩ | ⟨hh, hnone, herr⟩
  · exact ⟨fun _ => Or.inr hh, fun _ => ⟨_, step_work_ok.mpr ⟨d₁, _, hprocess.trans hok, rfl⟩⟩⟩
  · exact ⟨fun _ => Or.inl (by simp [hc]), fun _ => ⟨_, step_work_ok.mpr ⟨d₁, _, hprocess.trans hok, rfl⟩⟩⟩
  · refine ⟨fun ⟨d', h⟩ => ?_, fun h => (h.elim (absurd hnone) (absurd hh))⟩
    obtain ⟨d₁, tx, hroute, -⟩ := step_work_ok.mp h
    cases (hprocess.trans herr).symm.trans hroute

theorem usesAddress_of_assigned {urb : IocUrb} (h : V.isForUnassigned urb.address = false) :
    UsesAddress V d urb := by
  refine Or.inr ?_
  unfold isDefaultUrb
  rw [h, Bool.and_false]

/-- What an event that went through did. -/
inductive Stepped (V : Vhci) (d : Demuxer) : DemuxEvent → Demuxer → Prop
  | idle {event : DemuxEvent} (hidle : ∀ port waiting, event ≠ .registered (.ok port) waiting)
      (hwork : ∀ work, event ≠ .work work) (hgive : ∀ handle, event ≠ .givebackUrb handle) :
      Stepped V d event d
  | giveback {d' : Demuxer} (handle : UrbHandle)
      (hbecame : Became d d' d.registerQueue (withHandle d.routes handle none)) :
      Stepped V d (.givebackUrb handle) d'
  | registered {d' : Demuxer} (port : Port) (hregistered : Registered d d' port) :
      Stepped V d (.registered (.ok port) true) d'
  | portStat (stat : IocPortStat) {d₁ d' : Demuxer}
      (hbecame : Became d d₁
        (if d.enqueues stat then d.registerQueue ++ [stat.index] else d.registerQueue)
        (if d.enqueues stat then without d.routes stat.index else d.routes))
      (hsend : d' = d₁.send (d.routes.byKey1 stat.index) (.portStat stat)) :
      Stepped V d (.work (.portStat stat)) d'
  | processUrb (urb : IocUrb) (handle : UrbHandle) {d₁ d' : Demuxer} {tx : Option Chan}
      (hurb : UrbStep V d urb handle d₁ tx) (hsend : d' = d₁.send tx (.processUrb urb handle)) :
      Stepped V d (.work (.processUrb urb handle)) d'
  | cancelUrb (handle : UrbHandle) {d₁ d' : Demuxer}
      (hbecame : Became d d₁ d.registerQueue (withHandle d.routes handle none))
      (hsend : d' = d₁.send (d.routes.byKey3 handle) (.cancelUrb handle)) :
      Stepped V d (.work (.cancelUrb handle)) d'

/-- **One turn of the demuxer**, from a sound state. -/
theorem stepped_of_step (hd : d.Sound) {event : DemuxEvent} (hok : d.step V event = .ok d') :
    Stepped V d event d' := by
  cases event with
  | register port =>
      cases hok
      exact .idle (by simp) (by simp) (by simp)
  | disconnect port =>
      cases hok
      exact .idle (by simp) (by simp) (by simp)
  | disconnected port result waiting =>
      cases hok
      exact .idle (by simp) (by simp) (by simp)
  | givebackUrb handle =>
      obtain ⟨d₁, h, hbecame⟩ := givebackUrb_spec (V := V) hd handle
      cases h.symm.trans hok
      exact .giveback handle hbecame
  | registered result waiting =>
      cases result with
      | error e =>
          cases hok
          exact .idle (by simp) (by simp) (by simp)
      | ok port =>
          have hok : d.register port waiting = .ok d' := hok
          cases hc : d.routes.byKey1 port with
          | some c =>
              rw [register_old waiting (by simp [hc])] at hok
              cases hok
          | none =>
              obtain ⟨⟨d₁, h, hregistered⟩, hgone⟩ := register_new hd hc
              cases waiting with
              | false => cases hgone.symm.trans hok
              | true =>
                  cases h.symm.trans hok
                  exact .registered port hregistered
  | work work =>
      obtain ⟨d₁, tx, hroute, rfl⟩ := step_work_ok.mp hok
      cases work with
      | portStat stat =>
          obtain ⟨htx, hbecame⟩ := portStat_spec hd stat
          have hroute : d.portStat stat = (d₁, tx) := Except.ok.inj hroute
          rw [hroute] at htx hbecame
          rw [show tx = d.routes.byKey1 stat.index from htx]
          exact .portStat stat hbecame rfl
      | processUrb urb handle => exact .processUrb urb handle (processUrb_ok hd hroute) rfl
      | cancelUrb handle =>
          obtain ⟨d₂, h, hbecame⟩ := cancelUrb_spec hd handle
          cases h.symm.trans hroute
          exact .cancelUrb handle hbecame rfl

theorem UrbStep.sound {urb : IocUrb} {handle : UrbHandle} {tx : Option Chan}
    (h : UrbStep V d urb handle d' tx) : d'.Sound := by
  cases h with
  | setAddress _ _ _ _ _ _ hbecame => exact hbecame.sound
  | default _ _ _ _ _ hbecame => exact hbecame.sound
  | stale _ _ hbecame => exact hbecame.sound
  | address _ _ _ hbecame => exact hbecame.sound

/-- No URB changes what the ports lead to. -/
theorem UrbStep.byKey1_eq {urb : IocUrb} {handle : UrbHandle} {tx : Option Chan}
    (h : UrbStep V d urb handle d' tx) : d'.routes.byKey1 = d.routes.byKey1 := by
  cases h with
  | setAddress _ _ _ _ _ _ hbecame => rw [hbecame.routes_eq]; rfl
  | default _ _ _ _ _ hbecame => rw [hbecame.routes_eq]; rfl
  | stale _ _ hbecame => rw [hbecame.routes_eq]
  | address _ _ _ hbecame => rw [hbecame.routes_eq]; rfl

/-- A URB with a new handle goes to a channel, and the handle is linked to it. -/
theorem UrbStep.linked {urb : IocUrb} {handle : UrbHandle} {tx : Option Chan}
    (h : UrbStep V d urb handle d' tx) (hnew : d.routes.byKey3 handle = none) :
    d'.sent = d.sent ∧ ∃ c, tx = some c ∧
      d'.routes.byKey3 = Function.update d.routes.byKey3 handle (some c) := by
  cases h with
  | setAddress _ _ _ _ _ _ hbecame => exact ⟨hbecame.sent_eq, _, rfl, by rw [hbecame.routes_eq]; rfl⟩
  | default _ _ _ _ _ hbecame => exact ⟨hbecame.sent_eq, _, rfl, by rw [hbecame.routes_eq]; rfl⟩
  | stale _ hh _ => exact absurd hnew hh
  | address _ _ _ hbecame => exact ⟨hbecame.sent_eq, _, rfl, by rw [hbecame.routes_eq]; rfl⟩

/-- Only a registration changes what the ports lead to. -/
theorem Stepped.byKey1_eq {event : DemuxEvent} (h : Stepped V d event d')
    (hevent : ∀ port waiting, event ≠ .registered (.ok port) waiting) :
    d'.routes.byKey1 = d.routes.byKey1 := by
  cases h with
  | idle _ _ _ => rfl
  | giveback handle hbecame => rw [hbecame.routes_eq]; rfl
  | registered port _ => exact absurd rfl (hevent port true)
  | portStat stat hbecame hsend =>
      rw [hsend, send_routes, hbecame.routes_eq]
      split <;> rfl
  | processUrb urb handle hurb hsend => rw [hsend, send_routes, hurb.byKey1_eq]
  | cancelUrb handle hbecame hsend => rw [hsend, send_routes, hbecame.routes_eq]; rfl

/-- Every address and handle leads to the channel of a port. -/
def Current (r : Routes Port Address UrbHandle Chan) : Prop :=
  ∀ c, (∃ a, r.byKey2 a = some c) ∨ (∃ h, r.byKey3 h = some c) → ∃ p, r.byKey1 p = some c

theorem Current.withHandle {r : Routes Port Address UrbHandle Chan} (hr : Current r) (handle : UrbHandle)
    {tx : Option Chan} (htx : ∀ c, tx = some c → ∃ p, r.byKey1 p = some c) :
    Current (withHandle r handle tx) := by
  rintro c (⟨a, ha⟩ | ⟨h, hh⟩)
  · exact hr c (Or.inl ⟨a, ha⟩)
  · have hh : Function.update r.byKey3 handle tx h = some c := hh
    rw [Function.update_apply] at hh
    split at hh
    · exact htx c hh
    · exact hr c (Or.inr ⟨h, hh⟩)

theorem Current.without {r : Routes Port Address UrbHandle Chan} (hr : Current r) (p : Port) :
    Current (without r p) := by
  rintro c (⟨a, ha⟩ | ⟨h, hh⟩)
  · have ha : (if r.byKey2 a = r.byKey1 p then none else r.byKey2 a) = some c := ha
    split at ha
    · cases ha
    · exact hr c (Or.inl ⟨a, ha⟩)
  · have hh : (if r.byKey3 h = r.byKey1 p then none else r.byKey3 h) = some c := hh
    split at hh
    · cases hh
    · exact hr c (Or.inr ⟨h, hh⟩)

theorem Current.addressed {r : Routes Port Address UrbHandle Chan} (hr : Current r) {p : Port} {c : Chan}
    (hc : r.byKey1 p = some c) (zero address : Address) (handle : UrbHandle) :
    Current (addressed r zero address handle c) := by
  have hunlinked : ∀ a c', Function.update r.byKey2 zero none a = some c' → ∃ p, r.byKey1 p = some c' :=
    fun a c' ha => by
      rw [Function.update_apply] at ha
      split at ha
      · cases ha
      · exact hr c' (Or.inl ⟨a, ha⟩)
  refine Current.withHandle ?_ handle fun c' h => ⟨p, by rw [← h]; exact hc⟩
  rintro c' (⟨a, ha⟩ | ⟨h, hh⟩)
  · have ha : (Routes.link (Function.update r.byKey2 zero none) address (some c)).2 a = some c' := ha
    rw [Routes.link_apply] at ha
    split at ha
    · rcases Option.or_eq_some_iff.mp ha with hold | ⟨-, hnew⟩
      · exact hunlinked address c' hold
      · exact ⟨p, hnew ▸ hc⟩
    · exact hunlinked a c' ha
  · exact hr c' (Or.inr ⟨h, hh⟩)

/-- A URB goes to the channel of a port, and the links stay current. -/
theorem UrbStep.current {urb : IocUrb} {handle : UrbHandle} {tx : Option Chan}
    (h : UrbStep V d urb handle d' tx) (hcurrent : Current d.routes) :
    Current d'.routes ∧ d'.sent = d.sent ∧ ∀ c, tx = some c → ∃ p, d.routes.byKey1 p = some c := by
  cases h with
  | @setAddress address zero p queue c hset haddress hzero hqueue hc hh hbecame =>
      refine ⟨?_, hbecame.sent_eq, fun c' h => ⟨p, h ▸ hc⟩⟩
      rw [hbecame.routes_eq]
      exact hcurrent.addressed hc zero address handle
  | @default p queue c hset hdefault hqueue hc hh hbecame =>
      refine ⟨?_, hbecame.sent_eq, fun c' h => ⟨p, h ▸ hc⟩⟩
      rw [hbecame.routes_eq]
      exact hcurrent.withHandle handle fun c' h => ⟨p, h ▸ hc⟩
  | stale hother hh hbecame =>
      refine ⟨?_, hbecame.sent_eq, fun c h => hcurrent c (Or.inl ⟨_, h⟩)⟩
      rw [hbecame.routes_eq]
      exact hcurrent
  | address hother hh hc hbecame =>
      have hport := hcurrent _ (Or.inl ⟨_, hc⟩)
      refine ⟨?_, hbecame.sent_eq, fun c h => Option.some.inj h ▸ hport⟩
      rw [hbecame.routes_eq]
      exact hcurrent.withHandle handle fun c h => Option.some.inj h ▸ hport

theorem mem_sent_drop {d₁ : Demuxer} (hsent : d₁.sent = d.sent) {tx : Option Chan} {work : Work}
    {item : Chan × Work} (h : item ∈ (d₁.send tx work).sent.drop d.sent.length) : tx = some item.1 := by
  rw [send_sent, hsent, List.drop_left] at h
  cases tx with
  | none => cases h
  | some c => rw [List.mem_singleton.mp h]

/-- **Work goes to the channels of ports only**, in one turn. -/
theorem Stepped.current {event : DemuxEvent} (h : Stepped V d event d') (hcurrent : Current d.routes) :
    Current d'.routes ∧
      ∀ item ∈ d'.sent.drop d.sent.length, ∃ p, d.routes.byKey1 p = some item.1 := by
  have hnothing : d'.sent = d.sent →
      ∀ item ∈ d'.sent.drop d.sent.length, ∃ p, d.routes.byKey1 p = some item.1 := fun hsent item h => by
    rw [hsent, List.drop_length] at h
    cases h
  cases h with
  | idle hidle hwork hgive => exact ⟨hcurrent, hnothing rfl⟩
  | giveback handle hbecame =>
      refine ⟨?_, hnothing hbecame.sent_eq⟩
      rw [hbecame.routes_eq]
      exact hcurrent.withHandle handle fun c h => nomatch h
  | registered port hregistered =>
      refine ⟨fun c hc => ?_, hnothing hregistered.sent_eq⟩
      rw [hregistered.routes_eq] at hc ⊢
      obtain ⟨p, hp⟩ := hcurrent c hc
      refine ⟨p, (Function.update_of_ne (fun heq => ?_) _ _).trans hp⟩
      rw [heq, hregistered.isNew] at hp
      cases hp
  | portStat stat hbecame hsend =>
      subst hsend
      refine ⟨?_, fun item h => ⟨stat.index, mem_sent_drop hbecame.sent_eq h⟩⟩
      rw [send_routes, hbecame.routes_eq]
      split
      · exact hcurrent.without stat.index
      · exact hcurrent
  | processUrb urb handle hurb hsend =>
      subst hsend
      obtain ⟨hnext, hsent, htx⟩ := hurb.current hcurrent
      exact ⟨by rw [send_routes]; exact hnext, fun item h => htx _ (mem_sent_drop hsent h)⟩
  | cancelUrb handle hbecame hsend =>
      subst hsend
      refine ⟨?_, fun item h => hcurrent _ (Or.inr ⟨handle, mem_sent_drop hbecame.sent_eq h⟩)⟩
      rw [send_routes, hbecame.routes_eq]
      exact hcurrent.withHandle handle fun c h => nomatch h

/-- The demuxer stays sound. -/
theorem Stepped.sound (hd : d.Sound) {event : DemuxEvent} (h : Stepped V d event d') : d'.Sound := by
  cases h with
  | idle _ _ _ => exact hd
  | giveback handle hbecame => exact hbecame.sound
  | registered port hregistered => exact hregistered.sound
  | portStat stat hbecame hsend => exact hsend ▸ hbecame.sound.send _ _
  | processUrb urb handle hurb hsend => exact hsend ▸ hurb.sound.send _ _
  | cancelUrb handle hbecame hsend => exact hsend ▸ hbecame.sound.send _ _

end Demuxer
end Qusb

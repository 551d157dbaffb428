import Qusb.Stub.Dispatch

/-! Which port holds an address or a handle.

This is the history of the demuxer in terms of its ports. A port holds an address from the SET_ADDRESS that
gives it the address, and a handle from the URB, until it is queued again; a cancel or the notification of a
giveback frees a handle, too. Nothing else does: neither a disconnect nor a change of the connection. The
mailer links each key to the channel of its holder. -/

namespace Qusb

open Proto

structure Holders where
  address : Address → Option Port
  handle : UrbHandle → Option Port

namespace Holders

def start : Holders := ⟨fun _ => none, fun _ => none⟩

/-- The port that a URB is for: the first of the queue, or the holder of its address. -/
def target (V : Vhci) (d : Demuxer) (holders : Holders) (urb : IocUrb) : Option Port :=
  match d.registerQueue with
  | p :: _ => if Demuxer.isDefaultUrb V urb then some p else holders.address urb.address
  | [] => holders.address urb.address

/-- A port gets an address, unless the address has a holder; the unassigned address is freed. -/
def assign (holders : Holders) (zero address : Address) (p : Port) : Address → Option Port :=
  let rest := Function.update holders.address zero none
  fun a => if a = address then (rest address).or (some p) else rest a

/-- A SET_ADDRESS is for the first port of the queue. -/
def assigned (V : Vhci) (d : Demuxer) (holders : Holders) (urb : IocUrb) : Address → Option Port :=
  match Demuxer.isSetAddress V urb, d.registerQueue, V.addressNew urb.setupPacket.value.toUInt8,
      V.addressNew 0 with
  | true, p :: _, some address, some zero => holders.assign zero address p
  | _, _, _, _ => holders.address

def takeHandle (holders : Holders) (handle : UrbHandle) (p : Option Port) : UrbHandle → Option Port :=
  Function.update holders.handle handle ((holders.handle handle).or p)

def freeHandle (holders : Holders) (handle : UrbHandle) : Holders :=
  { holders with handle := Function.update holders.handle handle none }

def release (holders : Holders) (p : Port) : Holders where
  address a := if holders.address a = some p then none else holders.address a
  handle h := if holders.handle h = some p then none else holders.handle h

/-- Who holds the addresses and the handles after an event. -/
def after (V : Vhci) (d : Demuxer) (holders : Holders) : DemuxEvent → Holders
  | .work (.processUrb urb handle) =>
      ⟨holders.assigned V d urb, holders.takeHandle handle (holders.target V d urb)⟩
  | .work (.portStat stat) => if d.enqueues stat then holders.release stat.index else holders
  | .work (.cancelUrb handle) | .givebackUrb handle => holders.freeHandle handle
  | _ => holders

end Holders

/-! ### The links of the mailer -/

/-- What a key leads to that has this holder. -/
inductive Leads (ports : Port → Option Chan) : Option Port → Option Chan → Prop
  | free : Leads ports none none
  | held {p : Port} {c : Chan} (hc : ports p = some c) : Leads ports (some p) (some c)

namespace Leads

variable {ports : Port → Option Chan} {holder : Option Port} {link : Option Chan} {p : Port} {c : Chan}

theorem eq_none_iff (h : Leads ports holder link) : link = none ↔ holder = none := by
  cases h with
  | free => exact iff_of_true rfl rfl
  | held hc => exact iff_of_false (Option.some_ne_none _) (Option.some_ne_none _)

theorem of_holder (h : Leads ports holder link) (hp : holder = some p) :
    ∃ c, ports p = some c ∧ link = some c := by
  subst hp
  cases h with
  | held hc => exact ⟨_, hc, rfl⟩

/-- A key leads to the channel of a port that holds it, and of no other. -/
theorem eq_port_iff (hinj : ∀ p q c, ports p = some c → ports q = some c → p = q)
    (h : Leads ports holder link) (hc : ports p = some c) : link = some c ↔ holder = some p := by
  cases h with
  | free => exact iff_of_false (Option.some_ne_none _).symm (Option.some_ne_none _).symm
  | @held q c' hc' =>
      constructor
      · rintro ⟨⟩
        rw [hinj q p c hc' hc]
      · rintro ⟨⟩
        exact hc'.symm.trans hc

theorem update {K : Type} [DecidableEq K] {f : K → Option Port} {g : K → Option Chan}
    (hfg : ∀ k, Leads ports (f k) (g k)) (h : Leads ports holder link) (k q : K) :
    Leads ports (Function.update f k holder q) (Function.update g k link q) := by
  rw [Function.update_apply, Function.update_apply]
  split
  · exact h
  · exact hfg q

theorem register (hnew : ports p = none) (h : Leads ports holder link) :
    Leads (Function.update ports p (some c)) holder link := by
  cases h with
  | free => exact .free
  | @held q c' hc' =>
      refine .held ((Function.update_of_ne (fun heq => ?_) _ _).trans hc')
      rw [← heq, hc'] at hnew
      cases hnew

/-- A key that is free gets a holder. -/
theorem or (h : Leads ports holder link) (hc : ports p = some c) :
    Leads ports (holder.or (some p)) (link.or (some c)) := by
  cases h with
  | free => exact .held hc
  | held hc' => exact .held hc'

theorem release (hinj : ∀ p q c, ports p = some c → ports q = some c → p = q)
    (h : Leads ports holder link) (p : Port) :
    Leads ports (if holder = some p then none else holder) (if link = ports p then none else link) := by
  cases hc : ports p with
  | none =>
      cases h with
      | free => exact .free
      | @held q c hq =>
          have hne : some q ≠ some p := by
            rintro ⟨⟩
            cases hq.symm.trans hc
          rw [if_neg hne, if_neg (Option.some_ne_none c)]
          exact .held hq
  | some c =>
      by_cases hholder : holder = some p
      · rw [if_pos hholder, if_pos ((h.eq_port_iff hinj hc).mpr hholder)]
        exact .free
      · rw [if_neg hholder, if_neg fun hlink => hholder ((h.eq_port_iff hinj hc).mp hlink)]
        exact h

end Leads

namespace Demuxer

/-- The mailer links each address and each handle to the channel of its holder. -/
structure Held (d : Demuxer) (holders : Holders) : Prop where
  address : ∀ a, Leads d.routes.byKey1 (holders.address a) (d.routes.byKey2 a)
  handle : ∀ h, Leads d.routes.byKey1 (holders.handle h) (d.routes.byKey3 h)

variable {V : Vhci} {d d' : Demuxer} {holders : Holders}

theorem held_start : Held start .start := ⟨fun _ => .free, fun _ => .free⟩

/-- Looking up an address faults exactly when neither the address nor the handle has a holder. -/
theorem Held.step_ok_iff (hs : Held d holders) (hd : d.Sound) {urb : IocUrb} (handle : UrbHandle)
    (huses : UsesAddress V d urb) :
    (∃ d', d.step V (.work (.processUrb urb handle)) = .ok d') ↔
      holders.address urb.address ≠ none ∨ holders.handle handle ≠ none :=
  (step_address_ok_iff hd handle huses).trans
    (or_congr (hs.address urb.address).eq_none_iff.not (hs.handle handle).eq_none_iff.not)

/-! ### One event -/

theorem Held.of_routes (hs : Held d holders) (hroutes : d'.routes = d.routes) : Held d' holders := by
  refine ⟨?_, ?_⟩
  · rw [hroutes]
    exact hs.address
  · rw [hroutes]
    exact hs.handle

/-- A handle gets a new link. -/
theorem Held.withHandle (hs : Held d holders) {queue : List Port} {handle : UrbHandle} {p : Option Port}
    {tx : Option Chan} (hp : Leads d.routes.byKey1 p tx)
    (hbecame : Became d d' queue (withHandle d.routes handle tx)) :
    Held d' { holders with handle := Function.update holders.handle handle p } := by
  refine ⟨?_, ?_⟩
  · rw [hbecame.routes_eq]
    exact hs.address
  · rw [hbecame.routes_eq]
    exact .update hs.handle hp handle

/-- A handle that is not linked has no holder, so it goes to the port that takes it. -/
theorem Held.takeHandle_eq (hs : Held d holders) {handle : UrbHandle} (hh : d.routes.byKey3 handle = none)
    (p : Option Port) : holders.takeHandle handle p = Function.update holders.handle handle p := by
  rw [Holders.takeHandle, (hs.handle handle).eq_none_iff.mp hh, Option.none_or]

theorem Held.freeHandle (hs : Held d holders) {queue : List Port} {handle : UrbHandle}
    (hbecame : Became d d' queue (Demuxer.withHandle d.routes handle none)) :
    Held d' (holders.freeHandle handle) :=
  hs.withHandle .free hbecame

/-- The addresses of the first port of the queue, with the one it gets. -/
theorem Held.setAddress (hs : Held d holders) {queue : List Port} {p : Port} {c : Chan}
    {zero address : Address} {handle : UrbHandle} (hc : d.routes.byKey1 p = some c)
    (hh : d.routes.byKey3 handle = none)
    (hbecame : Became d d' queue (addressed d.routes zero address handle c)) :
    Held d' ⟨holders.assign zero address p, holders.takeHandle handle (some p)⟩ := by
  have hrest : ∀ a, Leads d.routes.byKey1 (Function.update holders.address zero none a)
      (Function.update d.routes.byKey2 zero none a) := .update hs.address .free zero
  refine ⟨fun a => ?_, ?_⟩
  · rw [hbecame.routes_eq]
    show Leads d.routes.byKey1 (holders.assign zero address p a)
      ((Routes.link (Function.update d.routes.byKey2 zero none) address (some c)).2 a)
    rw [Routes.link_apply]
    unfold Holders.assign
    split
    · exact (hrest address).or hc
    · exact hrest a
  · rw [hbecame.routes_eq, hs.takeHandle_eq hh]
    exact .update hs.handle (.held hc) handle

/-- The last branch leaves the addresses alone, and the URB is for the holder of its address. -/
theorem holders_of_usesAddress (holders : Holders) {urb : IocUrb} (h : UsesAddress V d urb) :
    holders.assigned V d urb = holders.address ∧ holders.target V d urb = holders.address urb.address := by
  unfold Holders.assigned Holders.target
  rcases h with hnil | hdefault
  · rw [hnil]
    exact ⟨by cases isSetAddress V urb <;> rfl, rfl⟩
  · have hset : isSetAddress V urb = false := by
      rw [isSetAddress, hdefault, Bool.false_and, Bool.false_and]
    rw [hset, hdefault]
    exact ⟨rfl, by split <;> rfl⟩

theorem assigned_of_isSetAddress {urb : IocUrb} {address zero : Address} {p : Port} {queue : List Port}
    (hset : isSetAddress V urb = true)
    (haddress : V.addressNew urb.setupPacket.value.toUInt8 = some address)
    (hzero : V.addressNew 0 = some zero) (hqueue : d.registerQueue = p :: queue) :
    holders.assigned V d urb = holders.assign zero address p := by
  simp only [Holders.assigned, hset, hqueue, haddress, hzero]

theorem target_of_isDefault {urb : IocUrb} {p : Port} {queue : List Port} (hdefault : isDefaultUrb V urb = true)
    (hqueue : d.registerQueue = p :: queue) : holders.target V d urb = some p := by
  rw [Holders.target, hqueue]
  exact if_pos hdefault

theorem Held.processUrb (hs : Held d holders) {urb : IocUrb} {handle : UrbHandle} {tx : Option Chan}
    (hurb : UrbStep V d urb handle d' tx) :
    Held d' (holders.after V d (.work (.processUrb urb handle))) := by
  show Held d' ⟨holders.assigned V d urb, holders.takeHandle handle (holders.target V d urb)⟩
  cases hurb with
  | @setAddress address zero p queue c hset haddress hzero hqueue hc hh hbecame =>
      rw [target_of_isDefault (isDefault_of_isSetAddress hset) hqueue,
        assigned_of_isSetAddress hset haddress hzero hqueue]
      exact hs.setAddress hc hh hbecame
  | @default p queue c hset hdefault hqueue hc hh hbecame =>
      have hassigned : holders.assigned V d urb = holders.address := by
        rw [Holders.assigned, hset]
      rw [target_of_isDefault hdefault hqueue, hassigned, hs.takeHandle_eq hh]
      exact hs.withHandle (.held hc) hbecame
  | stale h hh hbecame =>
      obtain ⟨p, hp⟩ := Option.ne_none_iff_exists'.mp fun hnone => hh ((hs.handle handle).eq_none_iff.mpr hnone)
      have hkept : holders.takeHandle handle (holders.target V d urb) = holders.handle := by
        rw [Holders.takeHandle, hp, Option.some_or, ← hp, Function.update_eq_self]
      rw [(holders_of_usesAddress holders h).1, hkept]
      exact hs.of_routes hbecame.routes_eq
  | @address c h hh hc hbecame =>
      obtain ⟨hassigned, htarget⟩ := holders_of_usesAddress holders h
      rw [htarget, hassigned, hs.takeHandle_eq hh]
      exact hs.withHandle (hc ▸ hs.address urb.address) hbecame

theorem Held.portStat (hd : d.Sound) (hs : Held d holders) {stat : IocPortStat} {queue : List Port}
    (hbecame : Became d d' queue
      (if d.enqueues stat then without d.routes stat.index else d.routes)) :
    Held d' (holders.after V d (.work (.portStat stat))) := by
  show Held d' (if d.enqueues stat then holders.release stat.index else holders)
  split
  · next henqueues =>
      have hroutes := hbecame.routes_eq
      rw [if_pos henqueues] at hroutes
      refine ⟨?_, ?_⟩
      · rw [hroutes]
        exact fun a => (hs.address a).release hd.injective stat.index
      · rw [hroutes]
        exact fun h => (hs.handle h).release hd.injective stat.index
  · next henqueues => exact hs.of_routes (hbecame.routes_eq.trans (if_neg henqueues))

theorem Held.send (hs : Held d holders) (tx : Option Chan) (work : Work) : Held (d.send tx work) holders :=
  hs.of_routes (send_routes d tx work)

/-- **One event keeps the links.** -/
theorem Held.step (hd : d.Sound) (hs : Held d holders) {event : DemuxEvent}
    (hok : d.step V event = .ok d') : Held d' (holders.after V d event) := by
  cases stepped_of_step hd hok with
  | idle hidle hwork hgive =>
      cases event with
      | work work => exact absurd rfl (hwork work)
      | givebackUrb handle => exact absurd rfl (hgive handle)
      | _ => exact hs
  | giveback handle hbecame => exact hs.freeHandle hbecame
  | registered q hregistered =>
      refine ⟨fun a => ?_, fun h => ?_⟩
      · rw [hregistered.routes_eq]
        exact (hs.address a).register hregistered.isNew
      · rw [hregistered.routes_eq]
        exact (hs.handle h).register hregistered.isNew
  | portStat stat hbecame hsend =>
      subst hsend
      exact (hs.portStat hd hbecame).send _ _
  | processUrb urb handle hurb hsend =>
      subst hsend
      exact (hs.processUrb hurb).send _ _
  | cancelUrb handle hbecame hsend =>
      subst hsend
      exact (hs.freeHandle hbecame).send _ _

end Demuxer

end Qusb

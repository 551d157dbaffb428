import Qusb.Borrow.Resets
import Qusb.Stub.Dispatch

/-! The address of a device, as the demuxer and the handler of its port know it.

The demuxer keeps a queue of the ports that were reset and links an address to a port with SET_ADDRESS; the
handler that takes the port's work keeps the address itself. Both follow the same reports and URBs, with
conditions of their own. They agree on a URB that the demuxer routes to a port unless the last change of the
port's connection was not followed by a reset or an address, and on a SET_ADDRESS unless only the handler
takes it for one. -/

open Tables

namespace Qusb

open Msg Proto Runs
open Borrow (BorrowSendHandler Linker)

/-- What is known of the driver's addresses: an address holds its number, which has seven bits, and the
unassigned address is zero. -/
structure Vhci.Lawful (V : Vhci) : Prop where
  addressNew_get : ∀ n a, V.addressNew n = some a → a.get = n
  addressNew_le : ∀ n a, V.addressNew n = some a → n ≤ 127
  isForUnassigned_iff : ∀ a, V.isForUnassigned a = true ↔ a.get = 0

theorem Vhci.usb_lawful : Vhci.usb.Lawful where
  addressNew_get n a h := by
    unfold usb at h
    simp only [Option.ite_none_right_eq_some, Option.some.injEq] at h
    rw [← h.2]
  addressNew_le n a h := by
    unfold usb at h
    simp only [Option.ite_none_right_eq_some] at h
    exact h.1
  isForUnassigned_iff a := beq_iff_eq

/-- A handler, and whether its device was plugged in or out since its last reset or address. -/
structure Handling where
  handler : BorrowSendHandler
  replugged : Bool

namespace Handling

/-- The last of the three that happened decides. -/
def repluggedAfter (V : Vhci) (replugged : Bool) : Work → Bool
  | .portStat stat =>
      if stat.change.connection then true else if stat.resetSuccessful then false else replugged
  | .processUrb urb _ => if BorrowSendHandler.isSetAddress V urb then false else replugged
  | .cancelUrb _ => replugged

/-- What a work item does to the address. -/
def addrAfter (V : Vhci) (addr : UInt8) : Work → UInt8
  | .portStat stat => BorrowSendHandler.addrAfter addr stat
  | .processUrb urb _ => if BorrowSendHandler.isSetAddress V urb then urb.setupPacket.value.toUInt8 else addr
  | .cancelUrb _ => addr

/-- The handler takes a work item; it stops at a panic and when the driver refuses the data of a URB. -/
def take (V : Vhci) (b : Build) (env : BorrowSendHandler.WorkEnv) (linker : Linker) (s : Handling)
    (work : Work) : Option Handling :=
  match s.handler.handleWork V b env linker work with
  | .ok (.processUrb (.error _), _, _) => none
  | .ok (_, handler, _) => some ⟨handler, repluggedAfter V s.replugged work⟩
  | .error _ => none

/-- The address is `n`, or the invalid one since the device was replugged. -/
def At (s : Handling) (n : UInt8) : Prop := s.handler.addr = if s.replugged then 0xff else n

variable {V : Vhci} {b : Build} {env : BorrowSendHandler.WorkEnv} {linker : Linker} {s s' : Handling}
  {work : Work} {n : UInt8}

theorem processUrb_addr {h h' : BorrowSendHandler} {linker' : Linker} {mem : Nat → UInt8} {urb : IocUrb}
    {handle : UrbHandle} {fetched : Borrow.Fetched} {r : Except IoError Unit}
    (hok : h.processUrb b mem linker urb handle fetched = .ok (r, h', linker')) : h'.addr = h.addr := by
  obtain ⟨_, -, hok⟩ := bind_eq_ok_iff.mp hok
  obtain ⟨⟨nextSeq, h₁⟩, hinc, hok⟩ := bind_eq_ok_iff.mp hok
  obtain ⟨next, -, hinc⟩ := bind_eq_ok_iff.mp hinc
  cases hinc
  obtain ⟨data, -, hok⟩ := bind_eq_ok_iff.mp hok
  cases data with
  | error e =>
      cases hok
      rfl
  | ok data =>
      cases hok
      rfl

theorem handleWork_addr {h h' : BorrowSendHandler} {linker' : Linker} {result : BorrowSendHandler.WorkResult}
    (hok : h.handleWork V b env linker work = .ok (result, h', linker')) :
    h'.addr = addrAfter V h.addr work := by
  cases work with
  | portStat next =>
      obtain ⟨⟨h₁, linker₁⟩, hstat, hok⟩ := bind_eq_ok_iff.mp hok
      cases hok
      exact BorrowSendHandler.portStat_addr hstat
  | processUrb urb handle =>
      unfold BorrowSendHandler.handleWork at hok
      simp only at hok
      split at hok
      · next hset =>
          cases hok
          exact (if_pos hset).symm
      · next hset =>
          obtain ⟨⟨result₁, h₁, linker₁⟩, hurb, hok⟩ := bind_eq_ok_iff.mp hok
          cases hok
          exact (processUrb_addr hurb).trans (if_neg hset).symm
  | cancelUrb handle =>
      cases hok
      rw [BorrowSendHandler.cancelUrb_eq]
      rfl

/-- A handler that goes on has followed the work item. -/
theorem take_eq_some (h : s.take V b env linker work = some s') :
    s'.handler.addr = addrAfter V s.handler.addr work ∧
      s'.replugged = repluggedAfter V s.replugged work := by
  unfold take at h
  split at h
  · cases h
  · next hok =>
      cases h
      exact ⟨handleWork_addr hok, rfl⟩
  · cases h

/-- A report moves the address to zero with a reset, and otherwise keeps it or invalidates it. -/
theorem At.portStat {stat : IocPortStat} (h : s.take V b env linker (.portStat stat) = some s')
    (hreset : stat.resetSuccessful = true → n = 0) (hkeep : stat.resetSuccessful = false → s.At n) :
    s'.At n := by
  obtain ⟨haddr, hreplugged⟩ := take_eq_some h
  unfold At at hkeep ⊢
  rw [haddr, hreplugged]
  simp only [addrAfter, BorrowSendHandler.addrAfter, repluggedAfter]
  by_cases hconnection : stat.change.connection = true
  · simp [hconnection]
  · by_cases hdone : stat.resetSuccessful = true
    · simp [hconnection, hdone, hreset hdone]
    · simpa [hconnection, hdone] using hkeep (Bool.eq_false_iff.mpr hdone)

/-- A SET_ADDRESS moves the address to its value. -/
theorem At.setAddress {urb : IocUrb} {handle : UrbHandle} (hset : BorrowSendHandler.isSetAddress V urb = true)
    (h : s.take V b env linker (.processUrb urb handle) = some s') :
    s'.At urb.setupPacket.value.toUInt8 := by
  obtain ⟨haddr, hreplugged⟩ := take_eq_some h
  unfold At
  rw [haddr, hreplugged]
  simp only [addrAfter, repluggedAfter, if_pos hset]
  rfl

/-- Any other URB leaves the address. -/
theorem At.processUrb {urb : IocUrb} {handle : UrbHandle} (hs : s.At n)
    (hset : BorrowSendHandler.isSetAddress V urb = false)
    (h : s.take V b env linker (.processUrb urb handle) = some s') : s'.At n := by
  obtain ⟨haddr, hreplugged⟩ := take_eq_some h
  unfold At at hs ⊢
  rw [haddr, hreplugged]
  simpa [addrAfter, repluggedAfter, hset] using hs

theorem At.cancelUrb {handle : UrbHandle} (hs : s.At n)
    (h : s.take V b env linker (.cancelUrb handle) = some s') : s'.At n := by
  obtain ⟨haddr, hreplugged⟩ := take_eq_some h
  unfold At at hs ⊢
  rw [haddr, hreplugged]
  exact hs

/-- Unless the handler's device was replugged, a URB at the address is at the handler's. -/
theorem At.agrees_iff (hs : s.At n) (hn : n ≠ 0xff) : n = s.handler.addr ↔ s.replugged = false := by
  unfold At at hs
  rw [hs]
  cases s.replugged with
  | true => simpa using hn
  | false => simp

end Handling

/-! ### The demuxer and its handlers -/

/-- An event of the demuxer, and what the handler that gets the work finds. -/
structure Fed where
  event : DemuxEvent
  env : BorrowSendHandler.WorkEnv
  linker : Linker

/-- The handler at the end of each channel, while it runs. -/
abbrev Handlings := Chan → Option Handling

namespace Demuxer

/-- The handlers take what was sent; a registered port gets a new one. -/
def handlingsAfter (V : Vhci) (b : Build) (d : Demuxer) (e : Fed) (d' : Demuxer) (g : Handlings) : Handlings :=
  match e.event with
  | .registered (.ok _) _ => Function.update g d.fresh (some ⟨.new, false⟩)
  | _ => (d'.sent.drop d.sent.length).foldl (fun g item =>
      Function.update g item.1 ((g item.1).bind fun s => s.take V b e.env e.linker item.2)) g

abbrev fedStep (V : Vhci) (b : Build) : Demuxer × Handlings → Fed → Except Fault (Demuxer × Handlings) :=
  track (fun d e => d.step V e.event) (handlingsAfter V b)

def fedStart : Demuxer × Handlings := (start, fun _ => none)

/-- A condition on a URB that is sent to a handler that runs. -/
def OnUrb (C : Demuxer → Handling → IocUrb → Prop) (s : Demuxer × Handlings) (item : Chan × Work) : Prop :=
  match item.2, s.2 item.1 with
  | .processUrb urb _, some h => C s.1 h urb
  | _, _ => True

/-- A condition on the URB of the event, if it is sent to a handler that runs. -/
def Routed (V : Vhci) (C : Demuxer → Handling → IocUrb → Prop) (s : Demuxer × Handlings) (e : Fed) : Prop :=
  ∀ d', s.1.step V e.event = .ok d' → ∀ item ∈ d'.sent.drop s.1.sent.length, OnUrb C s item

/-- The URB is at the handler's address, and the handler takes it for a SET_ADDRESS exactly when the demuxer
does. -/
def Agree (V : Vhci) (d : Demuxer) (h : Handling) (urb : IocUrb) : Prop :=
  urb.address.get = h.handler.addr ∧
    (BorrowSendHandler.isSetAddress V urb = true ↔ isSetAddress V urb = true ∧ d.registerQueue ≠ [])

/-- The device was not replugged since its last reset or address, and a SET_ADDRESS at the unassigned address
is at endpoint zero while a port waits for its address. -/
def Settled (V : Vhci) (d : Demuxer) (h : Handling) (urb : IocUrb) : Prop :=
  h.replugged = false ∧
    (BorrowSendHandler.isSetAddress V urb = true → V.isAnycast urb.endpoint = true ∧ d.registerQueue ≠ [])

theorem onUrb_some {C : Demuxer → Handling → IocUrb → Prop} {s : Demuxer × Handlings} {c : Chan} {h : Handling}
    {urb : IocUrb} {handle : UrbHandle} (hh : s.2 c = some h) :
    OnUrb C s (c, .processUrb urb handle) ↔ C s.1 h urb := by
  simp only [OnUrb, hh]

/-- What the two sides know of the addresses. The handler of a linked address has that address, and the
handlers of the ports in the queue have address zero and nothing linked to them. -/
structure Addressed (s : Demuxer × Handlings) : Prop where
  sound : s.1.Sound
  current : Current s.1.routes
  nodup : s.1.registerQueue.Nodup
  linked : ∀ a c h, s.1.routes.byKey2 a = some c → s.2 c = some h → h.At a.get
  range : ∀ a c, s.1.routes.byKey2 a = some c → a.get ≠ 0xff
  queued : ∀ p ∈ s.1.registerQueue, ∀ c h, s.1.routes.byKey1 p = some c → s.2 c = some h → h.At 0
  unlinked : ∀ p ∈ s.1.registerQueue, ∀ c, s.1.routes.byKey1 p = some c → ∀ a, s.1.routes.byKey2 a ≠ some c

variable {V : Vhci} {b : Build} {s : Demuxer × Handlings} {d d₁ d' : Demuxer} {e : Fed} {g : Handlings}

theorem addressed_start : Addressed fedStart where
  sound := sound_start
  current := by
    rintro c (⟨a, h⟩ | ⟨a, h⟩)
    · cases h
    · cases h
  nodup := List.nodup_nil
  linked a c h ha := by cases ha
  range a c ha := by cases ha
  queued p hp := by cases hp
  unlinked p hp := by cases hp

/-! ### One event -/

theorem sent_drop (hsent : d₁.sent = d.sent) (tx : Option Chan) (work : Work) :
    (d₁.send tx work).sent.drop d.sent.length = (tx.map fun c => (c, work)).toList := by
  rw [send_sent, hsent, List.drop_left]

theorem mem_sent (hsent : d₁.sent = d.sent) {tx : Option Chan} {work work' : Work} {c : Chan}
    (h : (c, work') ∈ (d₁.send tx work).sent.drop d.sent.length) : tx = some c ∧ work = work' := by
  rw [sent_drop hsent] at h
  cases tx with
  | none => cases h
  | some c' =>
      cases List.mem_singleton.mp h
      exact ⟨rfl, rfl⟩

/-- A handler that runs afterwards took what was sent to it, or nothing was. -/
theorem handlingsAfter_send {work : Work} {tx : Option Chan} {c : Chan} {h' : Handling}
    (hevent : e.event = .work work) (hsent : d₁.sent = d.sent)
    (h : handlingsAfter V b d e (d₁.send tx work) g c = some h') :
    (tx = some c ∧ ∃ h, g c = some h ∧ h.take V b e.env e.linker work = some h') ∨
      (tx ≠ some c ∧ g c = some h') := by
  unfold handlingsAfter at h
  rw [hevent, sent_drop hsent] at h
  cases tx with
  | none => exact Or.inr ⟨Option.some_ne_none c |>.symm, h⟩
  | some c₁ =>
      have h : Function.update g c₁ ((g c₁).bind fun s => s.take V b e.env e.linker work) c = some h' := h
      rw [Function.update_apply] at h
      split at h
      · next hc =>
          subst hc
          exact Or.inl ⟨rfl, Option.bind_eq_some_iff.mp h⟩
      · next hc => exact Or.inr ⟨fun heq => hc (Option.some.inj heq).symm, h⟩

/-- Where nothing is sent and no port is registered, the handlers do nothing. -/
theorem handlingsAfter_idle {event : DemuxEvent} (hevent : e.event = event)
    (hidle : ∀ port waiting, event ≠ .registered (.ok port) waiting) (hsent : d'.sent = d.sent) :
    handlingsAfter V b d e d' g = g := by
  unfold handlingsAfter
  split
  · next heq => exact absurd (hevent.symm.trans heq) (hidle _ _)
  · rw [hsent, List.drop_length]
    rfl

/-- A URB that was sent is that of the event, on the way the demuxer chose. -/
theorem Stepped.urb_routed {event : DemuxEvent} (h : Stepped V d event d') (hcurrent : Current d.routes)
    {c : Chan} {urb : IocUrb} {handle : UrbHandle}
    (hmem : (c, .processUrb urb handle) ∈ d'.sent.drop d.sent.length) :
    ∃ d₁, UrbStep V d urb handle d₁ (some c) := by
  have hnothing : d'.sent = d.sent → ∃ d₁, UrbStep V d urb handle d₁ (some c) := fun hsent => by
    rw [hsent, List.drop_length] at hmem
    cases hmem
  cases h with
  | idle hidle hwork hgive => exact hnothing rfl
  | giveback handle hbecame => exact hnothing hbecame.sent_eq
  | registered port hregistered => exact hnothing hregistered.sent_eq
  | portStat stat hbecame hsend =>
      rw [hsend] at hmem
      cases (mem_sent hbecame.sent_eq hmem).2
  | @processUrb urb' handle' d₁ _ tx hurb hsend =>
      rw [hsend] at hmem
      obtain ⟨rfl, heq⟩ := mem_sent (hurb.current hcurrent).2.1 hmem
      cases heq
      exact ⟨d₁, hurb⟩
  | cancelUrb handle hbecame hsend =>
      rw [hsend] at hmem
      cases (mem_sent hbecame.sent_eq hmem).2

theorem get_of_isDefault (hV : V.Lawful) {urb : IocUrb} (h : isDefaultUrb V urb = true) :
    urb.address.get = 0 := by
  unfold isDefaultUrb at h
  rw [Bool.and_eq_true] at h
  exact (hV.isForUnassigned_iff _).mp h.2

/-- A URB is sent to a handler that has its address. -/
theorem Addressed.at_urb (hV : V.Lawful) (hs : Addressed s) {urb : IocUrb} {handle : UrbHandle}
    {tx : Option Chan} (hurb : UrbStep V s.1 urb handle d₁ tx) {c : Chan} {h : Handling}
    (htx : tx = some c) (hh : s.2 c = some h) : h.At urb.address.get ∧ urb.address.get ≠ 0xff := by
  cases hurb with
  | @setAddress address zero p queue c' hset _ _ hqueue hc _ _ =>
      cases htx
      rw [get_of_isDefault hV (isDefault_of_isSetAddress hset)]
      exact ⟨hs.queued p (by rw [hqueue]; exact List.mem_cons_self) c h hc hh, by decide⟩
  | @default p queue c' _ hdefault hqueue hc _ _ =>
      cases htx
      rw [get_of_isDefault hV hdefault]
      exact ⟨hs.queued p (by rw [hqueue]; exact List.mem_cons_self) c h hc hh, by decide⟩
  | stale _ _ _ => exact ⟨hs.linked _ c h htx hh, hs.range _ c htx⟩
  | address _ _ hc _ =>
      cases htx
      exact ⟨hs.linked _ c h hc hh, hs.range _ c hc⟩

theorem isSetAddress_eq (V : Vhci) (urb : IocUrb) :
    isSetAddress V urb = (BorrowSendHandler.isSetAddress V urb && V.isAnycast urb.endpoint) := by
  unfold isSetAddress isDefaultUrb BorrowSendHandler.isSetAddress
  exact Bool.and_right_comm _ _ _

/-- The sides agree on a URB exactly when it is settled. -/
theorem Addressed.agree_iff (hV : V.Lawful) (hs : Addressed s) {urb : IocUrb} {handle : UrbHandle} {c : Chan}
    {h : Handling} (hurb : UrbStep V s.1 urb handle d₁ (some c)) (hh : s.2 c = some h) :
    Agree V s.1 h urb ↔ Settled V s.1 h urb := by
  obtain ⟨hat, hrange⟩ := hs.at_urb hV hurb rfl hh
  unfold Agree Settled
  refine and_congr (hat.agrees_iff hrange) ?_
  rw [isSetAddress_eq, Bool.and_eq_true]
  constructor
  · intro hiff hset
    exact ⟨(hiff.mp hset).1.2, (hiff.mp hset).2⟩
  · intro himp
    exact ⟨fun hset => ⟨⟨hset, (himp hset).1⟩, (himp hset).2⟩, fun hboth => hboth.1.1⟩

/-- A link after a SET_ADDRESS is an old one or the new one. -/
theorem addressed_byKey2 {r : Routes Port Address UrbHandle Chan} {zero address a : Address}
    {handle : UrbHandle} {c c' : Chan} (h : (addressed r zero address handle c).byKey2 a = some c') :
    r.byKey2 a = some c' ∨ a = address ∧ c' = c := by
  have hold : ∀ a, Function.update r.byKey2 zero none a = some c' → r.byKey2 a = some c' := by
    intro a ha
    rw [Function.update_apply] at ha
    split at ha
    · cases ha
    · exact ha
  have h : (Routes.link (Function.update r.byKey2 zero none) address (some c)).2 a = some c' := h
  rw [Routes.link_apply] at h
  split at h
  · next ha =>
      rcases Option.or_eq_some_iff.mp h with hlinked | ⟨-, hnew⟩
      · exact Or.inl (hold a (ha ▸ hlinked))
      · exact Or.inr ⟨ha, (Option.some.inj hnew).symm⟩
  · exact Or.inl (hold a h)

/-- Where ports and addresses lead to the same channels and the handlers keep their addresses, nothing
changes. -/
theorem Addressed.kept (hs : Addressed s) (hsound : d'.Sound) (hcurrent : Current d'.routes)
    (hqueue : d'.registerQueue = s.1.registerQueue) (h1 : d'.routes.byKey1 = s.1.routes.byKey1)
    (h2 : d'.routes.byKey2 = s.1.routes.byKey2)
    (hg : ∀ c h', g c = some h' → ∃ h, s.2 c = some h ∧ ∀ n, h.At n → h'.At n) : Addressed (d', g) where
  sound := hsound
  current := hcurrent
  nodup := by rw [hqueue]; exact hs.nodup
  linked a c h' ha hh' := by
    obtain ⟨h, hh, hat⟩ := hg c h' hh'
    exact hat _ (hs.linked a c h (by rw [← h2]; exact ha) hh)
  range a c ha := hs.range a c (by rw [← h2]; exact ha)
  queued p hp c h' hc hh' := by
    obtain ⟨h, hh, hat⟩ := hg c h' hh'
    exact hat _ (hs.queued p (by rw [← hqueue]; exact hp) c h (by rw [← h1]; exact hc) hh)
  unlinked p hp c hc a := by
    rw [h2]
    exact hs.unlinked p (by rw [← hqueue]; exact hp) c (by rw [← h1]; exact hc) a

/-- Sending changes neither the routes nor the queue. -/
theorem Addressed.send (h : Addressed (d, g)) (tx : Option Chan) (work : Work) : Addressed (d.send tx work, g) where
  sound := h.sound.send tx work
  current := by rw [send_routes]; exact h.current
  nodup := by rw [send_registerQueue]; exact h.nodup
  linked := by rw [send_routes]; exact h.linked
  range := by rw [send_routes]; exact h.range
  queued := by rw [send_registerQueue, send_routes]; exact h.queued
  unlinked := by rw [send_registerQueue, send_routes]; exact h.unlinked

/-! ### A report -/

/-- The queue after a report. -/
def queueAfter (d : Demuxer) (stat : IocPortStat) : List Port :=
  if d.enqueues stat then d.registerQueue ++ [stat.index] else d.registerQueue

/-- The routes after a report: a port that enters the queue loses its addresses. -/
def routesAfter (d : Demuxer) (stat : IocPortStat) : Routes Port Address UrbHandle Chan :=
  if d.enqueues stat then without d.routes stat.index else d.routes

theorem mem_queueAfter {stat : IocPortStat} {p : Port} (hp : p ∈ queueAfter d stat) :
    p ∈ d.registerQueue ∨ p = stat.index ∧ stat.resetSuccessful = true := by
  unfold queueAfter at hp
  split at hp
  · next hnew =>
      rcases List.mem_append.mp hp with hp | hp
      · exact Or.inl hp
      · exact Or.inr ⟨List.mem_singleton.mp hp, (Bool.and_eq_true_iff.mp hnew).1⟩
  · exact Or.inl hp

theorem nodup_queueAfter (hnodup : d.registerQueue.Nodup) (stat : IocPortStat) : (queueAfter d stat).Nodup := by
  unfold queueAfter
  split
  · next hnew =>
      refine List.nodup_append.mpr ⟨hnodup, List.nodup_singleton _, ?_⟩
      rintro p hp q hq rfl
      rw [List.mem_singleton.mp hq] at hp
      simp [enqueues, hp] at hnew
  · exact hnodup

theorem routesAfter_byKey1 (d : Demuxer) (stat : IocPortStat) :
    (routesAfter d stat).byKey1 = d.routes.byKey1 := by
  unfold routesAfter
  split <;> rfl

/-- A link that is left is an old one, and not to a port that was just reset. -/
theorem Addressed.routesAfter_byKey2 (hs : Addressed s) {stat : IocPortStat} {a : Address} {c : Chan}
    (ha : (routesAfter s.1 stat).byKey2 a = some c) :
    s.1.routes.byKey2 a = some c ∧
      (stat.resetSuccessful = true → s.1.routes.byKey1 stat.index ≠ some c) := by
  unfold routesAfter at ha
  split at ha
  · have ha : (if s.1.routes.byKey2 a = s.1.routes.byKey1 stat.index then none
        else s.1.routes.byKey2 a) = some c := ha
    split at ha
    · cases ha
    · next hne => exact ⟨ha, fun _ hc => hne (ha.trans hc.symm)⟩
  · next hold =>
      refine ⟨ha, fun hreset hc => ?_⟩
      have hqueued : stat.index ∈ s.1.registerQueue := by simpa [enqueues, hreset] using hold
      exact hs.unlinked _ hqueued c hc a ha

theorem Addressed.portStat (hs : Addressed s) {stat : IocPortStat} (hevent : e.event = .work (.portStat stat))
    (hbecame : Became s.1 d₁ (queueAfter s.1 stat) (routesAfter s.1 stat)) (hcurrent : Current d₁.routes) :
    Addressed (d₁, handlingsAfter V b s.1 e (d₁.send (s.1.routes.byKey1 stat.index) (.portStat stat)) s.2) := by
  have h1 : d₁.routes.byKey1 = s.1.routes.byKey1 := by
    rw [hbecame.routes_eq, routesAfter_byKey1]
  have h2 : ∀ a c, d₁.routes.byKey2 a = some c → s.1.routes.byKey2 a = some c ∧
      (stat.resetSuccessful = true → s.1.routes.byKey1 stat.index ≠ some c) := fun a c ha =>
    hs.routesAfter_byKey2 (by rw [← hbecame.routes_eq]; exact ha)
  have hqueue : ∀ p ∈ d₁.registerQueue, p ∈ s.1.registerQueue ∨ p = stat.index ∧ stat.resetSuccessful = true :=
    fun p hp => mem_queueAfter (by rw [← hbecame.queue_eq]; exact hp)
  refine ⟨hbecame.sound, hcurrent, ?_, ?_, ?_, ?_, ?_⟩
  · show d₁.registerQueue.Nodup
    rw [hbecame.queue_eq]
    exact nodup_queueAfter hs.nodup stat
  · intro a c h' ha hh'
    obtain ⟨hold, hnot⟩ := h2 a c ha
    rcases handlingsAfter_send hevent hbecame.sent_eq hh' with ⟨htx, h, hh, htake⟩ | ⟨-, hh⟩
    · exact .portStat htake (fun hreset => absurd htx (hnot hreset)) fun _ => hs.linked a c h hold hh
    · exact hs.linked a c h' hold hh
  · intro a c ha
    exact hs.range a c (h2 a c ha).1
  · intro p hp c h' hc hh'
    have hc : s.1.routes.byKey1 p = some c := h1 ▸ hc
    rcases handlingsAfter_send hevent hbecame.sent_eq hh' with ⟨htx, h, hh, htake⟩ | ⟨htx, hh⟩
    · refine .portStat htake (fun _ => rfl) fun hreset => ?_
      rcases hqueue p hp with hold | ⟨-, hdone⟩
      · exact hs.queued p hold c h hc hh
      · rw [hreset] at hdone
        cases hdone
    · rcases hqueue p hp with hold | ⟨rfl, -⟩
      · exact hs.queued p hold c h' hc hh
      · exact absurd hc htx
  · intro p hp c hc a ha
    have hc : s.1.routes.byKey1 p = some c := h1 ▸ hc
    obtain ⟨hlinked, hnot⟩ := h2 a c ha
    rcases hqueue p hp with hold | ⟨rfl, hreset⟩
    · exact hs.unlinked p hold c hc a hlinked
    · exact hnot hreset hc

/-! ### A URB -/

theorem Addressed.setAddress (hV : V.Lawful) (hs : Addressed s) {urb : IocUrb} {handle : UrbHandle}
    {address zero : Address} {p : Port} {queue : List Port} {c : Chan}
    (hevent : e.event = .work (.processUrb urb handle)) (hset : isSetAddress V urb = true)
    (haddress : V.addressNew urb.setupPacket.value.toUInt8 = some address)
    (hqueue : s.1.registerQueue = p :: queue) (hc : s.1.routes.byKey1 p = some c)
    (hbecame : Became s.1 d₁ queue (addressed s.1.routes zero address handle c)) (hcurrent : Current d₁.routes) :
    Addressed (d₁, handlingsAfter V b s.1 e (d₁.send (some c) (.processUrb urb handle)) s.2) := by
  have hlocal : BorrowSendHandler.isSetAddress V urb = true := by
    rw [isSetAddress_eq, Bool.and_eq_true] at hset
    exact hset.1
  have hmem : p ∈ s.1.registerQueue := by rw [hqueue]; exact List.mem_cons_self
  have hnodup : (p :: queue).Nodup := hqueue ▸ hs.nodup
  have hold : ∀ q ∈ queue, q ∈ s.1.registerQueue := fun q hq => by
    rw [hqueue]
    exact List.mem_cons_of_mem _ hq
  have hother : ∀ q ∈ queue, s.1.routes.byKey1 q ≠ some c := by
    intro q hq hqc
    rw [hs.sound.injective q p c hqc hc] at hq
    exact (List.nodup_cons.mp hnodup).1 hq
  have hrest : ∀ q ∈ d₁.registerQueue, q ∈ queue := fun q hq => hbecame.queue_eq ▸ hq
  have h1 : d₁.routes.byKey1 = s.1.routes.byKey1 := by
    rw [hbecame.routes_eq]
    rfl
  have h2 : ∀ a c', d₁.routes.byKey2 a = some c' → s.1.routes.byKey2 a = some c' ∨ a = address ∧ c' = c :=
    fun a c' ha => addressed_byKey2 (by rw [← hbecame.routes_eq]; exact ha)
  refine ⟨hbecame.sound, hcurrent, ?_, ?_, ?_, ?_, ?_⟩
  · show d₁.registerQueue.Nodup
    rw [hbecame.queue_eq]
    exact (List.nodup_cons.mp hnodup).2
  · intro a c' h' ha hh'
    rcases handlingsAfter_send hevent hbecame.sent_eq hh' with ⟨htx, h, hh, htake⟩ | ⟨htx, hh⟩
    · cases htx
      rcases h2 a _ ha with hlinked | ⟨rfl, -⟩
      · exact absurd hlinked (hs.unlinked p hmem c hc a)
      · rw [hV.addressNew_get _ _ haddress]
        exact .setAddress hlocal htake
    · rcases h2 a c' ha with hlinked | ⟨-, rfl⟩
      · exact hs.linked a c' h' hlinked hh
      · exact absurd rfl htx
  · intro a c' ha
    rcases h2 a c' ha with hlinked | ⟨rfl, -⟩
    · exact hs.range a c' hlinked
    · intro hff
      have hle := hV.addressNew_le _ _ haddress
      rw [← hV.addressNew_get _ _ haddress, hff] at hle
      exact absurd hle (by decide)
  · intro q hq c' h' hc' hh'
    have hc' : s.1.routes.byKey1 q = some c' := h1 ▸ hc'
    rcases handlingsAfter_send hevent hbecame.sent_eq hh' with ⟨htx, -⟩ | ⟨-, hh⟩
    · cases htx
      exact absurd hc' (hother q (hrest q hq))
    · exact hs.queued q (hold q (hrest q hq)) c' h' hc' hh
  · intro q hq c' hc' a ha
    have hport : s.1.routes.byKey1 q = some c' := h1 ▸ hc'
    rcases h2 a c' ha with hlinked | ⟨-, heq⟩
    · exact hs.unlinked q (hold q (hrest q hq)) c' hport a hlinked
    · rw [heq] at hport
      exact hother q (hrest q hq) hport

theorem Addressed.registered (hs : Addressed s) {port : Port} {waiting : Waiting}
    (hevent : e.event = .registered (.ok port) waiting) (hregistered : Registered s.1 d' port)
    (hcurrent : Current d'.routes) : Addressed (d', handlingsAfter V b s.1 e d' s.2) := by
  have hafter : ∀ c, handlingsAfter V b s.1 e d' s.2 c =
      if c = s.1.fresh then some ⟨.new, false⟩ else s.2 c := by
    intro c
    unfold handlingsAfter
    rw [hevent]
    exact Function.update_apply _ _ _ _
  have hport : ∀ p c, s.1.routes.byKey1 p = some c → c ≠ s.1.fresh := fun p c hc =>
    Nat.ne_of_lt (hs.sound.fresh c (ThreeKeyMap.mem_vals_of_get1 hc))
  have hlinked : ∀ a c, s.1.routes.byKey2 a = some c → c ≠ s.1.fresh := by
    intro a c ha
    obtain ⟨p, hp⟩ := hs.current c (Or.inl ⟨a, ha⟩)
    exact hport p c hp
  have h1 : ∀ p c, d'.routes.byKey1 p = some c →
      c = s.1.fresh ∨ c ≠ s.1.fresh ∧ s.1.routes.byKey1 p = some c := by
    intro p c hc
    rw [hregistered.routes_eq] at hc
    have hc : Function.update s.1.routes.byKey1 port (some s.1.fresh) p = some c := hc
    rw [Function.update_apply] at hc
    split at hc
    · exact Or.inl (Option.some.inj hc).symm
    · exact Or.inr ⟨hport p c hc, hc⟩
  have h2 : d'.routes.byKey2 = s.1.routes.byKey2 := by rw [hregistered.routes_eq]
  refine ⟨hregistered.sound, hcurrent, by rw [hregistered.queue_eq]; exact hs.nodup, ?_, ?_, ?_, ?_⟩
  · intro a c h ha hh
    rw [h2] at ha
    have hh : handlingsAfter V b s.1 e d' s.2 c = some h := hh
    rw [hafter, if_neg (hlinked a c ha)] at hh
    exact hs.linked a c h ha hh
  · intro a c ha
    rw [h2] at ha
    exact hs.range a c ha
  · intro p hp c h hc hh
    rw [hregistered.queue_eq] at hp
    have hh : handlingsAfter V b s.1 e d' s.2 c = some h := hh
    rw [hafter] at hh
    rcases h1 p c hc with rfl | ⟨hne, hold⟩
    · rw [if_pos rfl] at hh
      cases hh
      rfl
    · rw [if_neg hne] at hh
      exact hs.queued p hp c h hold hh
  · intro p hp c hc a ha
    rw [hregistered.queue_eq] at hp
    rw [h2] at ha
    rcases h1 p c hc with rfl | ⟨-, hold⟩
    · exact hlinked a _ ha rfl
    · exact hs.unlinked p hp c hold a ha

/-- Any URB but a SET_ADDRESS leaves the addresses. -/
theorem Addressed.processUrb (hV : V.Lawful) (hs : Addressed s) {urb : IocUrb} {handle : UrbHandle}
    {tx : Option Chan} (hevent : e.event = .work (.processUrb urb handle))
    (hurb : UrbStep V s.1 urb handle d₁ tx)
    (hsettled : ∀ c h, tx = some c → s.2 c = some h → Settled V s.1 h urb) :
    Addressed (d₁, handlingsAfter V b s.1 e (d₁.send tx (.processUrb urb handle)) s.2) := by
  obtain ⟨hcurrent, hsent, -⟩ := hurb.current hs.current
  -- on the other ways the handler does not take the URB for a SET_ADDRESS either
  have hkept : (isSetAddress V urb = true → s.1.registerQueue = []) →
      ∀ c h', handlingsAfter V b s.1 e (d₁.send tx (.processUrb urb handle)) s.2 c = some h' →
        ∃ h, s.2 c = some h ∧ ∀ n, h.At n → h'.At n := by
    intro hother c h' hh'
    rcases handlingsAfter_send hevent hsent hh' with ⟨htx, h, hh, htake⟩ | ⟨-, hh⟩
    · refine ⟨h, hh, fun n hat => hat.processUrb ?_ htake⟩
      rw [Bool.eq_false_iff]
      intro hset
      obtain ⟨hanycast, hqueue⟩ := (hsettled c h htx hh).2 hset
      exact hqueue (hother (by rw [isSetAddress_eq, hset, hanycast, Bool.and_true]))
    · exact ⟨h', hh, fun n hat => hat⟩
  have hnotSet : s.1.registerQueue = [] ∨ isDefaultUrb V urb = false →
      isSetAddress V urb = true → s.1.registerQueue = [] := by
    rintro (hnil | hdefault) hset
    · exact hnil
    · rw [isDefault_of_isSetAddress hset] at hdefault
      cases hdefault
  have hsound := hurb.sound
  cases hurb with
  | setAddress hset haddress hzero hqueue hc hh hbecame =>
      exact hs.setAddress hV hevent hset haddress hqueue hc hbecame hcurrent
  | default hset hdefault hqueue hc hh hbecame =>
      refine hs.kept hsound hcurrent hbecame.queue_eq ?_ ?_ (hkept fun hset' => ?_)
      · rw [hbecame.routes_eq]
        rfl
      · rw [hbecame.routes_eq]
        rfl
      · rw [hset] at hset'
        cases hset'
  | stale hother hh hbecame =>
      refine hs.kept hsound hcurrent hbecame.queue_eq ?_ ?_ (hkept (hnotSet hother))
      · rw [hbecame.routes_eq]
      · rw [hbecame.routes_eq]
  | address hother hh hc hbecame =>
      refine hs.kept hsound hcurrent hbecame.queue_eq ?_ ?_ (hkept (hnotSet hother))
      · rw [hbecame.routes_eq]
        rfl
      · rw [hbecame.routes_eq]
        rfl

/-- **One event** whose URB is settled keeps the addresses in step. -/
theorem Addressed.step (hV : V.Lawful) (hs : Addressed s) (hsettled : Routed V (Settled V) s e)
    (hok : s.1.step V e.event = .ok d') : Addressed (d', handlingsAfter V b s.1 e d' s.2) := by
  have hstepped := stepped_of_step hs.sound hok
  obtain ⟨hcurrent, -⟩ := hstepped.current hs.current
  have hsound := hstepped.sound hs.sound
  generalize hevent : e.event = event at hok hstepped
  cases hstepped with
  | idle hidle hwork hgive =>
      refine hs.kept hsound hcurrent rfl rfl rfl fun c h' hh' => ⟨h', ?_, fun n hat => hat⟩
      rwa [handlingsAfter_idle hevent hidle rfl] at hh'
  | giveback handle hbecame =>
      refine hs.kept hsound hcurrent hbecame.queue_eq ?_ ?_ fun c h' hh' => ⟨h', ?_, fun n hat => hat⟩
      · rw [hbecame.routes_eq]
        rfl
      · rw [hbecame.routes_eq]
        rfl
      · rwa [handlingsAfter_idle hevent (by simp) hbecame.sent_eq] at hh'
  | registered port hregistered => exact hs.registered hevent hregistered hcurrent
  | portStat stat hbecame hsend =>
      subst hsend
      rw [send_routes] at hcurrent
      exact (hs.portStat hevent hbecame hcurrent).send _ _
  | @processUrb urb handle d₁ _ tx hurb hsend =>
      subst hsend
      refine (hs.processUrb hV hevent hurb fun c h htx hh => ?_).send _ _
      refine (onUrb_some hh).mp (hsettled _ (hevent ▸ hok) (c, .processUrb urb handle) ?_)
      rw [sent_drop (hurb.current hs.current).2.1, htx]
      exact List.mem_singleton_self _
  | cancelUrb handle hbecame hsend =>
      subst hsend
      rw [send_routes] at hcurrent
      refine (hs.kept hbecame.sound hcurrent hbecame.queue_eq ?_ ?_ fun c h' hh' => ?_).send _ _
      · rw [hbecame.routes_eq]
        rfl
      · rw [hbecame.routes_eq]
        rfl
      · rcases handlingsAfter_send hevent hbecame.sent_eq hh' with ⟨-, h, hh, htake⟩ | ⟨-, hh⟩
        · exact ⟨h, hh, fun n hat => hat.cancelUrb htake⟩
        · exact ⟨h', hh, fun n hat => hat⟩

/-- **The demuxer and the handlers agree on a device's address.** In every run, with any reports, URBs and
ports in any order, every URB that is sent to a handler is at the handler's address and is a SET_ADDRESS to
both or to neither exactly when each such URB is settled. -/
theorem addresses_agree_iff (hV : V.Lawful) (es : List Fed) :
    Meets (fedStep V b) (Routed V (Agree V)) fedStart es ↔
      Meets (fedStep V b) (Routed V (Settled V)) fedStart es := by
  refine meets_iff_of_inv (I := Addressed) addressed_start meets_true ?_ ?_
  · intro s e hs _
    refine forall₂_congr fun d' hok => forall₂_congr fun item hmem => ?_
    obtain ⟨c, work⟩ := item
    cases work with
    | processUrb urb handle =>
        cases hh : s.2 c with
        | none => simp [OnUrb, hh]
        | some h =>
            obtain ⟨d₁, hurb⟩ := (stepped_of_step hs.sound hok).urb_routed hs.current hmem
            rw [onUrb_some hh, onUrb_some hh]
            exact hs.agree_iff hV hurb hh
    | portStat stat => exact Iff.rfl
    | cancelUrb handle => exact Iff.rfl
  · rintro s e ⟨d', g⟩ hs - hsettled hstep
    obtain ⟨hok, hg⟩ := track_eq_ok.mp hstep
    rw [show g = _ from hg]
    exact hs.step hV hsettled hok

/-! ### Concrete runs -/

instance Agree.decidable (V : Vhci) (d : Demuxer) (h : Handling) (urb : IocUrb) :
    Decidable (Agree V d h urb) :=
  inferInstanceAs (Decidable (_ ∧ _))

instance Settled.decidable (V : Vhci) (d : Demuxer) (h : Handling) (urb : IocUrb) :
    Decidable (Settled V d h urb) :=
  inferInstanceAs (Decidable (_ ∧ _))

instance OnUrb.decidable {C : Demuxer → Handling → IocUrb → Prop} [hC : ∀ d h urb, Decidable (C d h urb)]
    (s : Demuxer × Handlings) : ∀ item : Chan × Work, Decidable (OnUrb C s item)
  | (c, .processUrb urb _) =>
      match hh : s.2 c with
      | some h => decidable_of_iff (C s.1 h urb) (by simp only [OnUrb, hh])
      | none => isTrue (by simp only [OnUrb, hh])
  | (_, .portStat _) => isTrue trivial
  | (_, .cancelUrb _) => isTrue trivial

instance Routed.decidable {C : Demuxer → Handling → IocUrb → Prop} [∀ d h urb, Decidable (C d h urb)]
    (s : Demuxer × Handlings) (e : Fed) : Decidable (Routed V C s e) :=
  inferInstanceAs (Decidable (∀ d', s.1.step V e.event = .ok d' →
    ∀ item ∈ d'.sent.drop s.1.sent.length, OnUrb C s item))

/-- What the kernel may use at each port: the unassigned address from a completed reset, another one from
the SET_ADDRESS that assigns it. -/
def usableAfter (V : Vhci) (usable : Port → Option UInt8) (e : Issue) : Port → Option UInt8 :=
  match e.event with
  | .work (.portStat stat) =>
      if stat.resetSuccessful then Function.update usable stat.index (some 0) else usable
  | .work (.processUrb urb _) =>
      if BorrowSendHandler.isSetAddress V urb then
        Function.update usable e.port (some urb.setupPacket.value.toUInt8)
      else usable
  | _ => usable

def Uses (usable : Port → Option UInt8) (e : Issue) : Prop :=
  e.OnUrb fun urb _ port => usable port = some urb.address.get

instance Uses.decidable (usable : Port → Option UInt8) (e : Issue) : Decidable (Uses usable e) :=
  e.decidableOnUrb fun _ _ _ => inferInstanceAs (Decidable (_ = _))

/-- The uses of the kernel along a list of events, which do not depend on the demuxer. -/
abbrev kernelStep (V : Vhci) (usable : Port → Option UInt8) (e : Issue) :
    Except Fault (Port → Option UInt8) :=
  .ok (usableAfter V usable e)

def feed (e : Issue) : Fed := ⟨e.event, ⟨fun _ => 0, .ok ([], []), ⟨9⟩⟩, .empty⟩

/-- A device is enumerated and asked for its descriptor at both addresses. -/
def settledRun : List Issue :=
  [⟨.registered (.ok ⟨1⟩) true, ⟨1⟩⟩, ⟨resetDone ⟨1⟩, ⟨1⟩⟩,
    ⟨.work (.processUrb (getDescriptorUrb ⟨0⟩) ⟨1⟩), ⟨1⟩⟩, ⟨.work (.processUrb (setAddressUrb 5) ⟨2⟩), ⟨1⟩⟩,
    ⟨.work (.processUrb (getDescriptorUrb ⟨5⟩) ⟨3⟩), ⟨1⟩⟩]

theorem settled_run_agrees :
    Meets (fedStep .usb .dev) (Routed .usb (Agree .usb)) fedStart (settledRun.map feed) :=
  (addresses_agree_iff Vhci.usb_lawful _).mpr (by decide)

/-- One report says that a device was plugged in and that its port completed a reset. -/
def pluggedAndReset (port : Port) : DemuxEvent :=
  .work (.portStat ⟨⟨true, true, false, true⟩, ⟨true, true⟩, port, ⟨false⟩⟩)

def pluggedRun : List Issue :=
  [⟨.registered (.ok ⟨1⟩) true, ⟨1⟩⟩, ⟨pluggedAndReset ⟨1⟩, ⟨1⟩⟩,
    ⟨.work (.processUrb (getDescriptorUrb ⟨0⟩) ⟨1⟩), ⟨1⟩⟩]

/-- The demuxer queues the port for an address, and the handler's address is the invalid one. -/
theorem plugged_and_reset_disagrees :
    Meets (kernelStep .usb) Uses (fun _ => none) pluggedRun ∧
      ¬ Meets (fedStep .usb .release) (Routed .usb (Agree .usb)) fedStart (pluggedRun.map feed) := by
  decide

end Demuxer
end Qusb

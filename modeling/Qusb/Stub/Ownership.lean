import Qusb.Stub.Holders

/-! Which port owns an address, and where the URBs at an address go.

A port owns an address from its SET_ADDRESS until it completes a reset or is disconnected. The demuxer
does not store this; its mailer links the address to the channel of the port that holds it. The owner holds
the address as long as each SET_ADDRESS comes while its port is the first of the register queue and while
no other port holds the address. The code does not ensure this: nothing is unlinked when a port is
disconnected, and the result of linking the address is dropped. -/

open Tables

namespace Qusb

open Proto Runs

abbrev Owners := Address → Option Port

namespace Owners

def release (owners : Owners) (p : Port) : Owners :=
  fun a => if owners a = some p then none else owners a

theorem release_eq_some {owners : Owners} {p q : Port} {a : Address} (h : owners.release p a = some q) :
    owners a = some q ∧ q ≠ p := by
  unfold release at h
  split at h
  · cases h
  · next hne => exact ⟨h, fun hq => hne (hq ▸ h)⟩

end Owners

/-- Who owns the addresses, and who holds them and the handles. -/
structure Ownership where
  owners : Owners
  holders : Holders

namespace Demuxer

/-- The address that a SET_ADDRESS carries. -/
def newAddress (V : Vhci) (urb : IocUrb) : Option Address :=
  if isSetAddress V urb then V.addressNew urb.setupPacket.value.toUInt8 else none

/-- Who owns the addresses after an event. -/
def ownersAfter (V : Vhci) (owners : Owners) (e : Issue) : Owners :=
  match e.event with
  | .work (.portStat stat) => if stat.resetSuccessful then owners.release stat.index else owners
  | .work (.processUrb urb _) =>
      match newAddress V urb with
      | some a => Function.update owners a (some e.port)
      | none => owners
  | .disconnected port (.ok ()) _ => owners.release port
  | _ => owners

abbrev ownedStep (V : Vhci) : Demuxer × Ownership → Issue → Except Fault (Demuxer × Ownership) :=
  track (fun d e => d.step V e.event)
    (fun d e _ g => ⟨ownersAfter V g.owners e, g.holders.after V d e.event⟩)

def ownedStart : Demuxer × Ownership := (start, ⟨fun _ => none, .start⟩)

/-- What the kernel keeps to: URBs at an address are issued on behalf of its owner, and an address is not
given to a second port while another owns it. -/
def Issued (V : Vhci) (s : Demuxer × Ownership) (e : Issue) : Prop :=
  e.OnUrb fun urb _ port =>
    (V.isForUnassigned urb.address = true ∨ s.2.owners urb.address = some port) ∧
    ∀ a ∈ newAddress V urb, V.isForUnassigned a = true ∨ s.2.owners a = none ∨ s.2.owners a = some port

/-- A SET_ADDRESS comes while its port is the first of the register queue and no other port holds the
address. A URB at the unassigned address is not looked up by address unless a port holds the address or the
handle. -/
def Addressable (V : Vhci) (s : Demuxer × Ownership) (e : Issue) : Prop :=
  e.OnUrb fun urb handle port =>
    (∀ a ∈ newAddress V urb, s.1.registerQueue.head? = some port ∧
      (s.2.holders.address a = none ∨ s.2.holders.address a = some port)) ∧
    (V.isForUnassigned urb.address = true → UsesAddress V s.1 urb →
      s.2.holders.address urb.address ≠ none ∨ s.2.holders.handle handle ≠ none)

/-- A URB at an assigned address goes to the session of the port that owns the address, and looking up an
address does not fault. -/
def RoutedToOwner (V : Vhci) (s : Demuxer × Ownership) (e : Issue) : Prop :=
  e.OnUrb fun urb handle _ =>
    (V.isForUnassigned urb.address = false →
      ∃ p ∈ s.2.owners urb.address, ∃ c ∈ s.1.sessions.lookup p, ∃ d', s.1.step V e.event = .ok d' ∧
        d'.sent = s.1.sent ++ [(c, .processUrb urb handle)]) ∧
    (UsesAddress V s.1 urb → ∃ d', s.1.step V e.event = .ok d')

/-- The owner of an assigned address holds it. -/
def Holds (V : Vhci) (g : Ownership) : Prop :=
  ∀ a p, V.isForUnassigned a = false → g.owners a = some p → g.holders.address a = some p

structure Owned (V : Vhci) (s : Demuxer × Ownership) : Prop where
  sound : s.1.Sound
  held : Held s.1 s.2.holders
  holds : Holds V s.2

variable {V : Vhci} {s s' : Demuxer × Ownership} {d d' : Demuxer}

theorem owned_start (V : Vhci) : Owned V ownedStart := ⟨sound_start, held_start, fun _ _ _ h => nomatch h⟩

/-! ### One event -/

theorem Owned.routed (hs : Owned V s) {e : Issue} (hissued : Issued V s e)
    (haddressable : Addressable V s e) : RoutedToOwner V s e := by
  obtain ⟨event, port⟩ := e
  cases event with
  | work work =>
      cases work with
      | processUrb urb handle =>
          cases hassigned : V.isForUnassigned urb.address with
          | true =>
              refine ⟨fun h => absurd (hassigned.symm.trans h) (by decide), fun huses => ?_⟩
              exact (hs.held.step_ok_iff hs.sound handle huses).mpr (haddressable.2 hassigned huses)
          | false =>
              have howner : s.2.owners urb.address = some port := by
                rcases hissued.1 with h | h
                · rw [hassigned] at h
                  cases h
                · exact h
              obtain ⟨c, hport, haddress⟩ := (hs.held.address urb.address).of_holder
                (hs.holds urb.address port hassigned howner)
              obtain ⟨d', hok, hsent⟩ :=
                step_linked hs.sound handle (usesAddress_of_assigned hassigned) haddress
              have hsession := (hs.sound.sessions port).trans hport
              exact ⟨fun _ => ⟨port, howner, c, hsession, d', hok, hsent⟩, fun _ => ⟨d', hok⟩⟩
      | portStat stat => trivial
      | cancelUrb handle => trivial
  | _ => trivial

theorem newAddress_eq_some {urb : IocUrb} {a : Address} (hset : isSetAddress V urb = true)
    (h : V.addressNew urb.setupPacket.value.toUInt8 = some a) : newAddress V urb = some a := by
  rw [newAddress, if_pos hset, h]

theorem newAddress_eq_none {urb : IocUrb} (hset : ¬ isSetAddress V urb = true) :
    newAddress V urb = none := if_neg hset

/-- Where owners are only lost and the addresses keep their holders, every owner holds its address. -/
theorem Holds.of_le {g g' : Ownership} (hs : Holds V g)
    (howners : ∀ a p, g'.owners a = some p → g.owners a = some p)
    (hholders : g'.holders.address = g.holders.address) : Holds V g' := by
  intro a p ha howner
  rw [hholders]
  exact hs a p ha (howners a p howner)

/-- A SET_ADDRESS makes the port that it is for the owner and the holder of the address. -/
theorem Holds.assign (hzero : ∀ z, V.addressNew 0 = some z → V.isForUnassigned z = true) {g : Ownership}
    (hs : Holds V g) {address zero : Address} {p : Port} {handles : UrbHandle → Option Port}
    (hz : V.addressNew 0 = some zero)
    (hfree : g.holders.address address = none ∨ g.holders.address address = some p) :
    Holds V ⟨Function.update g.owners address (some p), ⟨g.holders.assign zero address p, handles⟩⟩ := by
  have hother : ∀ a, V.isForUnassigned a = false →
      Function.update g.holders.address zero none a = g.holders.address a := fun a ha => by
    refine Function.update_of_ne (fun h => ?_) _ _
    rw [h, hzero zero hz] at ha
    cases ha
  intro a q ha howner
  have howner : Function.update g.owners address (some p) a = some q := howner
  show g.holders.assign zero address p a = some q
  unfold Holders.assign
  by_cases haddress : a = address
  · subst haddress
    rw [Function.update_self] at howner
    rw [if_pos rfl, hother a ha, ← howner]
    rcases hfree with h | h
    · rw [h, Option.none_or]
    · rw [h, Option.some_or]
  · rw [Function.update_of_ne haddress] at howner
    rw [if_neg haddress, hother a ha]
    exact hs a q ha howner

/-- A reset takes its addresses from a port, as their owner and perhaps as their holder. -/
theorem Owned.portStat (hs : Owned V s) (stat : IocPortStat) (port : Port) :
    Holds V ⟨ownersAfter V s.2.owners ⟨.work (.portStat stat), port⟩,
      s.2.holders.after V s.1 (.work (.portStat stat))⟩ := by
  intro a p ha howner
  have ⟨hold, hne⟩ : s.2.owners a = some p ∧ (stat.resetSuccessful = true → p ≠ stat.index) := by
    cases hreset : stat.resetSuccessful with
    | true =>
        obtain ⟨hold, hne⟩ := Owners.release_eq_some (by simpa [ownersAfter, hreset] using howner)
        exact ⟨hold, fun _ => hne⟩
    | false => exact ⟨by simpa [ownersAfter, hreset] using howner, fun h => nomatch h⟩
  have hholds := hs.holds a p ha hold
  show (if s.1.enqueues stat then s.2.holders.release stat.index else s.2.holders).address a = some p
  split
  · next henqueues =>
      have hreset : stat.resetSuccessful = true := by
        unfold enqueues at henqueues
        exact (Bool.and_eq_true _ _ ▸ henqueues).1
      show (if s.2.holders.address a = some stat.index then none else s.2.holders.address a) = some p
      rw [hholds, if_neg fun heq => hne hreset (Option.some.inj heq)]
  · exact hholds

theorem assigned_of_not_new {holders : Holders} {urb : IocUrb} (d : Demuxer) (hnew : newAddress V urb = none) :
    holders.assigned V d urb = holders.address := by
  unfold Holders.assigned
  split
  · next hset _ haddress _ =>
      rw [newAddress_eq_some hset haddress] at hnew
      cases hnew
  · rfl

theorem Owned.processUrb (hzero : ∀ z, V.addressNew 0 = some z → V.isForUnassigned z = true)
    (hs : Owned V s) {urb : IocUrb} {handle : UrbHandle} {port : Port} {tx : Option Chan}
    (haddressable : Addressable V s ⟨.work (.processUrb urb handle), port⟩)
    (hurb : UrbStep V s.1 urb handle d tx) :
    Holds V ⟨ownersAfter V s.2.owners ⟨.work (.processUrb urb handle), port⟩,
      s.2.holders.after V s.1 (.work (.processUrb urb handle))⟩ := by
  cases hnew : newAddress V urb with
  | none =>
      refine hs.holds.of_le (fun a p howner => ?_) (assigned_of_not_new s.1 hnew)
      simpa [ownersAfter, hnew] using howner
  | some a =>
      obtain ⟨hhead, hfree⟩ := haddressable.1 a hnew
      have hset : isSetAddress V urb = true := by
        by_contra hset
        rw [newAddress_eq_none hset] at hnew
        cases hnew
      have hnotLast : ¬ UsesAddress V s.1 urb := by
        rintro (hnil | hdefault)
        · rw [hnil] at hhead
          cases hhead
        · rw [isDefault_of_isSetAddress hset] at hdefault
          cases hdefault
      cases hurb with
      | @setAddress address zero p queue c _ haddress hz hqueue hc hh hbecame =>
          obtain rfl : address = a := Option.some.inj ((newAddress_eq_some hset haddress).symm.trans hnew)
          obtain rfl : p = port := by simpa [hqueue] using hhead
          simp only [ownersAfter, hnew, Holders.after, assigned_of_isSetAddress hset haddress hz hqueue]
          exact hs.holds.assign hzero hz hfree
      | default hnotSet _ _ _ _ _ => exact absurd hset (by simp [hnotSet])
      | stale hlast _ _ => exact absurd hlast hnotLast
      | address hlast _ _ _ => exact absurd hlast hnotLast

/-- **One event keeps the owners.** -/
theorem Owned.step (hzero : ∀ z, V.addressNew 0 = some z → V.isForUnassigned z = true)
    (hs : Owned V s) {e : Issue} (haddressable : Addressable V s e)
    (hok : ownedStep V s e = .ok s') : Owned V s' := by
  obtain ⟨hstep, hnext⟩ := track_eq_ok.mp hok
  obtain ⟨d', g'⟩ := s'
  obtain ⟨event, port⟩ := e
  subst hnext
  have hstepped := stepped_of_step hs.sound hstep
  refine ⟨hstepped.sound hs.sound, hs.held.step hs.sound hstep, ?_⟩
  cases hstepped with
  | idle hidle hwork hgive =>
      refine hs.holds.of_le (fun a p howner => ?_) ?_
      · cases event with
        | disconnected q result waiting =>
            cases result with
            | ok _ => exact (Owners.release_eq_some howner).1
            | error _ => exact howner
        | work work => exact absurd rfl (hwork work)
        | _ => exact howner
      · cases event with
        | work work => exact absurd rfl (hwork work)
        | _ => rfl
  | giveback handle hbecame => exact hs.holds.of_le (fun a p howner => howner) rfl
  | registered q hregistered => exact hs.holds.of_le (fun a p howner => howner) rfl
  | portStat stat hbecame hsend => exact hs.portStat stat port
  | processUrb urb handle hurb hsend => exact hs.processUrb hzero haddressable hurb
  | cancelUrb handle hbecame hsend => exact hs.holds.of_le (fun a p howner => howner) rfl

/-! ### Runs -/

/-- **Every URB at an assigned address goes to the owner of the address**, and no lookup of an address
faults, in every run in which the kernel keeps to its part and whose SET_ADDRESS URBs find their port first
in the queue and their address free. -/
theorem address_routing (hzero : ∀ z, V.addressNew 0 = some z → V.isForUnassigned z = true)
    {es : List Issue}
    (h : Meets (ownedStep V) (fun s e => Issued V s e ∧ Addressable V s e) ownedStart es) :
    Meets (ownedStep V) (RoutedToOwner V) ownedStart es :=
  Meets.imp (owned_start V) h (fun _ _ hs he => hs.routed he.1 he.2)
    fun _ _ _ hs he hok => hs.step hzero he.2 hok

/-- Two ports are given an address each, one after the other. -/
def addressRun : List Issue :=
  [⟨.registered (.ok ⟨1⟩) true, ⟨1⟩⟩, ⟨.registered (.ok ⟨2⟩) true, ⟨2⟩⟩,
    ⟨resetDone ⟨1⟩, ⟨1⟩⟩, ⟨.work (.processUrb (setAddressUrb 5) ⟨1⟩), ⟨1⟩⟩,
    ⟨resetDone ⟨2⟩, ⟨2⟩⟩, ⟨.work (.processUrb (setAddressUrb 6) ⟨2⟩), ⟨2⟩⟩,
    ⟨.work (.processUrb (getDescriptorUrb ⟨5⟩) ⟨3⟩), ⟨1⟩⟩]

/-- The first port is disconnected and the second one gets its address. -/
def staleAddressRun : List Issue :=
  [⟨.registered (.ok ⟨1⟩) true, ⟨1⟩⟩, ⟨.registered (.ok ⟨2⟩) true, ⟨2⟩⟩,
    ⟨resetDone ⟨1⟩, ⟨1⟩⟩, ⟨.work (.processUrb (setAddressUrb 5) ⟨1⟩), ⟨1⟩⟩,
    ⟨.disconnect ⟨1⟩, ⟨1⟩⟩, ⟨.disconnected ⟨1⟩ (.ok ()) true, ⟨1⟩⟩,
    ⟨resetDone ⟨2⟩, ⟨2⟩⟩, ⟨.work (.processUrb (setAddressUrb 5) ⟨2⟩), ⟨2⟩⟩,
    ⟨.work (.processUrb (getDescriptorUrb ⟨5⟩) ⟨3⟩), ⟨2⟩⟩]

instance (s : Demuxer × Ownership) (e : Issue) : Decidable (Issued V s e) :=
  e.decidableOnUrb fun _ _ _ => inferInstanceAs (Decidable (_ ∧ _))

instance (s : Demuxer × Ownership) (e : Issue) : Decidable (Addressable V s e) :=
  e.decidableOnUrb fun _ _ _ => inferInstanceAs (Decidable (_ ∧ _))

instance (s : Demuxer × Ownership) (e : Issue) : Decidable (RoutedToOwner V s e) :=
  e.decidableOnUrb fun _ _ _ => inferInstanceAs (Decidable (_ ∧ _))

theorem address_routing_run :
    Meets (ownedStep Vhci.usb) (RoutedToOwner Vhci.usb) ownedStart addressRun :=
  address_routing (fun z hz => by cases hz; rfl) (by decide)

/-- The address still leads to the port that had it first. -/
theorem stale_address_misroutes :
    Meets (ownedStep Vhci.usb) (Issued Vhci.usb) ownedStart staleAddressRun ∧
      ¬ Meets (ownedStep Vhci.usb) (RoutedToOwner Vhci.usb) ownedStart staleAddressRun := by
  decide

end Demuxer
end Qusb

import Mathlib.Logic.Function.Iterate
import Qusb.Lend.Open

/-! Configurations that are set at once.

Each SET_CONFIGURATION request runs `set_config` on a thread of its own, and a borrower may send several. A thread
holds the lock of the table for one pass over it, so that the passes of the threads are taken in some order, and
between the release pass and the claim pass of one the others may make theirs. -/

open Runs

namespace Qusb.Lend.Handle

/-- Where a call of `set_config` is: before `active_config`, before its release pass, before
`set_active_configuration`, before its claim pass. -/
inductive ConfigCall where
  | querying (config : UInt8)
  | releasing (config : UInt8)
  | setting (config : UInt8)
  | claiming
  | returned (result : Except RusbError Unit)
  deriving DecidableEq

/-- The next step of a call that has not returned; `lib` is what the library returns now. -/
def ConfigCall.advance (lib : Libusb) (h : Handle) : ConfigCall → ConfigCall × Handle
  | .querying config =>
      match lib.activeConfiguration with
      | .error e => (.returned (.error e), h)
      | .ok active => if config = active then (.returned (.ok ()), h) else (.releasing config, h)
  | .releasing config =>
      match release lib h with
      | (.error e, h) => (.returned (.error e), h)
      | (.ok (), h) => (.setting config, h)
  | .setting config =>
      match lib.setActiveConfiguration config with
      | .error e => (.returned (.error e), h)
      | .ok () => (.claiming, h)
  | .claiming =>
      match claim lib h with
      | (result, h) => (.returned result, h)
  | .returned result => (.returned result, h)

/-- A device with the calls that have been made. -/
structure Configuring where
  handle : Handle
  calls : List ConfigCall

inductive ConfigEvent where
  | begin (config : UInt8)
  | advance (i : Nat) (lib : Libusb)

namespace Configuring

def step (s : Configuring) : ConfigEvent → Except Unit Configuring
  | .begin config => .ok { s with calls := s.calls ++ [.querying config] }
  | .advance i lib =>
      match s.calls[i]? with
      | none => .error ()
      | some call => .ok ⟨(call.advance lib s.handle).2, s.calls.set i (call.advance lib s.handle).1⟩

/-- The passes go through: the library releases what is claimed, and claims what was released. Whether the
configuration can be asked for or set is left open. -/
def PassesSucceed (s : Configuring) : ConfigEvent → Prop
  | .begin _ => True
  | .advance _ lib =>
      (∀ k, s.handle.interfaces k = .claimed → lib.releaseInterface (interfaceNum k) = .ok ()) ∧
      ∀ k, s.handle.interfaces k = .unclaimed → lib.claimInterface (interfaceNum k) = .ok ()

/-- Which call has released the interfaces, if the last pass was a release. -/
def lastRelease (s : Configuring) (event : ConfigEvent) (_ : Configuring) (last : Option Nat) : Option Nat :=
  match event with
  | .begin _ => last
  | .advance i _ =>
      match s.calls[i]? with
      | some (.releasing _) => some i
      | some .claiming => none
      | _ => last

end Configuring

/-! ### One call -/

/-- A step of a call that has the device to itself. -/
def alone (lib : Libusb) (s : ConfigCall × Handle) : ConfigCall × Handle := s.1.advance lib s.2

theorem alone_returned (lib : Libusb) (n : Nat) (r : Except RusbError Unit) (h : Handle) :
    (alone lib)^[n] (.returned r, h) = (.returned r, h) := Function.iterate_fixed rfl n

/-- A call that nobody interrupts is `set_config`. -/
theorem alone_setConfig (lib : Libusb) (config : UInt8) (h : Handle) :
    (alone lib)^[4] (.querying config, h) = (.returned (setConfig lib config h).1, (setConfig lib config h).2) := by
  rw [Function.iterate_succ_apply, setConfig, alone, ConfigCall.advance]
  cases lib.activeConfiguration with
  | error e => exact alone_returned lib 3 _ h
  | ok active =>
      by_cases hsame : config = active
      · simp only [hsame, if_true]
        exact alone_returned lib 3 _ h
      · simp only [hsame, if_false]
        rw [Function.iterate_succ_apply, setConfigInner, alone, ConfigCall.advance]
        rcases release lib h with ⟨e | u, h₁⟩
        · exact alone_returned lib 2 _ h₁
        · show (alone lib)^[2] (.setting config, h₁) = _
          rw [Function.iterate_succ_apply, alone, ConfigCall.advance]
          cases lib.setActiveConfiguration config with
          | error e => exact alone_returned lib 1 _ h₁
          | ok u => rfl

/-- A call that has yet to claim what was released, or never will. -/
def ConfigCall.Owes : ConfigCall → Prop
  | .setting _ => True
  | .claiming => True
  | .returned (.error _) => True
  | _ => False

section Calls

variable {h₀ h : Handle} {lib : Libusb} {call : ConfigCall}

/-- A call that asks for the configuration, or sets it, touches no interface. -/
theorem ConfigCall.advance_handle (hquiet : ∀ config, call ≠ .releasing config) (hclaim : call ≠ .claiming) :
    (call.advance lib h).2 = h := by
  cases call with
  | querying config =>
      rw [ConfigCall.advance]
      split
      · rfl
      · split <;> rfl
  | releasing config => exact absurd rfl (hquiet config)
  | setting config =>
      rw [ConfigCall.advance]
      split <;> rfl
  | claiming => exact absurd rfl hclaim
  | returned r => rfl

/-- What is owed stays owed until the claim pass. -/
theorem ConfigCall.Owes.advance (howes : call.Owes) (hclaim : call ≠ .claiming) : (call.advance lib h).1.Owes := by
  cases call with
  | querying config => exact howes.elim
  | releasing config => exact howes.elim
  | setting config =>
      rw [ConfigCall.advance]
      split <;> trivial
  | claiming => exact absurd rfl hclaim
  | returned r => exact howes

theorem Settled.advance_releasing (hsettled : h₀.Settled) (hcase : Agrees h₀ h ∨ Released h₀ h) (config : UInt8)
    (hcalls : ∀ k, h.interfaces k = .claimed → lib.releaseInterface (interfaceNum k) = .ok ()) :
    ∃ h', (ConfigCall.releasing config).advance lib h = (.setting config, h') ∧ Released h₀ h' := by
  obtain ⟨h', hpass, hreleased⟩ := hsettled.release hcase hcalls
  refine ⟨h', ?_, hreleased⟩
  rw [ConfigCall.advance, hpass]

theorem Settled.advance_claiming (hsettled : h₀.Settled) (hcase : Agrees h₀ h ∨ Released h₀ h)
    (hcalls : ∀ k, h.interfaces k = .unclaimed → lib.claimInterface (interfaceNum k) = .ok ()) :
    ∃ h', ConfigCall.claiming.advance lib h = (.returned (.ok ()), h') ∧ Agrees h₀ h' := by
  obtain ⟨h', hpass, hagrees⟩ := hsettled.claim hcase hcalls
  refine ⟨h', ?_, hagrees⟩
  rw [ConfigCall.advance, hpass]

end Calls

/-! ### All calls -/

namespace Configuring

variable {h₀ : Handle} {s s' : Configuring} {last : Option Nat}

/-- After a claim pass all is claimed as it was opened; after a release pass nothing is, and the call that made it
is there to claim it again, or has failed. -/
def Kept (h₀ : Handle) (t : Configuring × Option Nat) : Prop :=
  match t.2 with
  | none => Agrees h₀ t.1.handle
  | some i => Released h₀ t.1.handle ∧ ∃ call, t.1.calls[i]? = some call ∧ call.Owes

theorem Kept.agrees_or_released {t : Configuring × Option Nat} (hkept : Kept h₀ t) :
    Agrees h₀ t.1.handle ∨ Released h₀ t.1.handle := by
  obtain ⟨s, last⟩ := t
  cases last with
  | none => exact .inl hkept
  | some i => exact .inr hkept.1

/-- A new call touches no other. -/
theorem Kept.begin (hkept : Kept h₀ (s, last)) (config : UInt8) :
    Kept h₀ ({ s with calls := s.calls ++ [.querying config] }, last) := by
  cases last with
  | none => exact hkept
  | some i =>
      obtain ⟨hreleased, call, hcall, howes⟩ := hkept
      obtain ⟨hi, -⟩ := List.getElem?_eq_some_iff.mp hcall
      exact ⟨hreleased, call, (List.getElem?_append_left hi).trans hcall, howes⟩

/-- A step of a call that makes no pass. -/
theorem Kept.quiet (hkept : Kept h₀ (s, last)) {i : Nat} {call : ConfigCall} {lib : Libusb}
    (hcall : s.calls[i]? = some call) (hquiet : ∀ config, call ≠ .releasing config) (hclaim : call ≠ .claiming) :
    Kept h₀ (⟨(call.advance lib s.handle).2, s.calls.set i (call.advance lib s.handle).1⟩, last) := by
  rw [ConfigCall.advance_handle hquiet hclaim]
  cases last with
  | none => exact hkept
  | some j =>
      obtain ⟨hreleased, owing, howing, howes⟩ := hkept
      refine ⟨hreleased, ?_⟩
      by_cases hij : i = j
      · subst hij
        obtain rfl : call = owing := Option.some.inj (hcall.symm.trans howing)
        obtain ⟨hi, -⟩ := List.getElem?_eq_some_iff.mp hcall
        exact ⟨_, List.getElem?_set_self hi, howes.advance hclaim⟩
      · exact ⟨owing, (List.getElem?_set_ne hij).trans howing, howes⟩

theorem lastRelease_advance {i : Nat} {lib : Libusb} {call : ConfigCall} (hcall : s.calls[i]? = some call) :
    lastRelease s (.advance i lib) s' last =
      match some call with
      | some (.releasing _) => some i
      | some .claiming => none
      | _ => last := by
  rw [← hcall]
  rfl

/-- **A step keeps the claims in order**, whichever call makes it. -/
theorem Kept.step (hsettled : h₀.Settled) (hkept : Kept h₀ (s, last)) {event : ConfigEvent}
    (hpasses : s.PassesSucceed event) (hstep : step s event = .ok s') :
    Kept h₀ (s', lastRelease s event s' last) := by
  cases event with
  | begin config =>
      cases hstep
      exact hkept.begin config
  | advance i lib =>
      simp only [Configuring.step] at hstep
      split at hstep
      · cases hstep
      · next call hcall =>
          cases hstep
          obtain ⟨hi, -⟩ := List.getElem?_eq_some_iff.mp hcall
          rw [lastRelease_advance hcall]
          cases call with
          | releasing config =>
              obtain ⟨h', hadvance, hreleased⟩ :=
                hsettled.advance_releasing hkept.agrees_or_released config hpasses.1
              rw [hadvance]
              exact ⟨hreleased, .setting config, List.getElem?_set_self hi, trivial⟩
          | claiming =>
              obtain ⟨h', hadvance, hagrees⟩ := hsettled.advance_claiming hkept.agrees_or_released hpasses.2
              rw [hadvance]
              exact hagrees
          | querying config => exact hkept.quiet hcall nofun nofun
          | setting config => exact hkept.quiet hcall nofun nofun
          | returned r => exact hkept.quiet hcall nofun nofun

/-- **Configurations set at once.** However many calls of `set_config` are made on an open device, and in whatever
order they take their steps: while the passes go through, the table mirrors the claims; after a claim pass just
those interfaces are claimed that were when the device was opened, after a release pass none is until the call that
made it, or another, claims them. Once all calls have succeeded, the claims are as they were. -/
theorem configuring_kept (hsettled : h₀.Settled)
    (hreach : Reach (track step lastRelease) (fun t event => t.1.PassesSucceed event) (⟨h₀, []⟩, none) (s, last)) :
    s.handle.Mirrors ∧
    (last = none → Agrees h₀ s.handle) ∧
    (∀ i, last = some i → Released h₀ s.handle ∧ ∃ call, s.calls[i]? = some call ∧ call.Owes) ∧
    ((∀ call ∈ s.calls, call = .returned (.ok ())) → Agrees h₀ s.handle) := by
  have hkept : Kept h₀ (s, last) := by
    refine hreach.inv (I := Kept h₀) (fun i => ⟨rfl, Iff.rfl⟩) ?_
    rintro ⟨s₁, last₁⟩ event ⟨s₂, last₂⟩ hkept hpasses hstep
    obtain ⟨hs, hlast⟩ := track_eq_ok.mp hstep
    obtain rfl : last₂ = lastRelease s₁ event s₂ last₁ := hlast
    exact hkept.step hsettled hpasses hs
  refine ⟨?_, ?_, ?_, ?_⟩
  · rcases hkept.agrees_or_released with hagrees | hreleased
    · exact hagrees.mirrors hsettled
    · exact hreleased.mirrors
  · rintro rfl
    exact hkept
  · rintro i rfl
    exact hkept
  · intro hall
    cases last with
    | none => exact hkept
    | some i =>
        obtain ⟨-, call, hcall, howes⟩ := hkept
        obtain rfl := hall call (List.mem_of_getElem? hcall)
        exact howes.elim

theorem oneClaimed_settled : oneClaimed.Settled :=
  ⟨oneClaimed_mirrors, by decide⟩

/-- Two calls: the second has found nothing to release, and the first has claimed the interface again. -/
def racing : List ConfigEvent :=
  [.begin 2, .begin 3, .advance 0 allSucceed, .advance 1 allSucceed, .advance 0 allSucceed, .advance 1 allSucceed,
    .advance 0 allSucceed, .advance 0 allSucceed]

/-- The second call is about to set its configuration with the interface claimed. -/
theorem racing_kept :
    ∃ s, Runs.run (track step lastRelease) (⟨oneClaimed, []⟩, none) racing = .ok (s, none) ∧ s.handle.Mirrors ∧
      Agrees oneClaimed s.handle ∧ s.calls[1]? = some (.setting 3) ∧ 0 ∈ s.handle.device := by
  have hrun : ∃ t, Runs.run (track step lastRelease) (⟨oneClaimed, []⟩, none) racing = .ok t ∧
      (t.2 = none ∧ t.1.calls[1]? = some (.setting 3) ∧ 0 ∈ t.1.handle.device) := by decide
  obtain ⟨⟨s, last⟩, hrun, rfl, hcall, hheld⟩ := hrun
  have hpasses : Meets (track step lastRelease) (fun t event => t.1.PassesSucceed event) (⟨oneClaimed, []⟩, none)
      racing := by
    exact meets_of_forall (by simp [racing, PassesSucceed, allSucceed])
  obtain ⟨hmirrors, hagrees, -⟩ := configuring_kept oneClaimed_settled (hpasses.reach hrun)
  exact ⟨s, hrun, hmirrors, hagrees rfl, hcall, hheld⟩

end Configuring
end Qusb.Lend.Handle

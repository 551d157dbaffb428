import Qusb.SendLoop.Loops

/-! The futures of SET_ADDRESS requests.

The driver answers a SET_ADDRESS request through a future, which the borrower's loop keeps in `addr_setter` and races
in every state until it completes. There is one place for it, and work is taken in every state: a second request puts
its future in the place of the first. `Futures` records beside the loop which futures there were. -/

open Runs

namespace Qusb.Borrow.SendLoop

open BorrowSendHandler

/-- The URB for which `set_address` returns a future. -/
def setsAddress (V : Vhci) : SendEvent → Option UrbHandle
  | .work (.processUrb urb handle) _ _ => if isSetAddress V urb then some handle else none
  | _ => none

/-- The future in the slot has completed. -/
def completes : SendEvent → Bool
  | .setAddress (.ok ()) => true
  | _ => false

theorem completes_iff {e : SendEvent} : completes e = true ↔ e = .setAddress (.ok ()) := by
  constructor
  · intro h
    cases e with
    | setAddress result =>
        cases result with
        | ok u => rfl
        | error err => cases h
    | work work env linker => cases h
    | flushBuf => cases h
    | flushComplete result => cases h
    | closed => cases h
  · rintro rfl
    rfl

/-- The futures that `set_address` returned, those that completed, and the one in `addr_setter`, by their URBs. -/
structure Futures where
  issued : List UrbHandle
  completed : List UrbHandle
  slot : Option UrbHandle
  deriving DecidableEq

namespace Futures

def start : Futures := ⟨[], [], none⟩

/-- `reset` drops the future that is in the slot. -/
def after (V : Vhci) (s : SendLoop) (event : SendEvent) (_ : SendLoop) (f : Futures) : Futures :=
  if s.writer.running && s.ready event then
    match setsAddress V event with
    | some handle => { f with issued := f.issued ++ [handle], slot := some handle }
    | none => if completes event then { f with completed := f.completed ++ f.slot.toList, slot := none } else f
  else f

/-- The futures that have completed or will, as long as they are polled. -/
def kept (f : Futures) : List UrbHandle := f.completed ++ f.slot.toList

end Futures

/-- The loop with its futures. -/
def stepFutures (V : Vhci) (b : Build) : SendLoop × Futures → SendEvent → Except Fault (SendLoop × Futures) :=
  track (step V b) (Futures.after V)

/-- Every future has completed or is in the slot, and that in the slot is polled: the race can end with it. -/
structure NoneDropped (s : SendLoop) (f : Futures) : Prop where
  all : f.issued = f.kept
  polled : ∀ result, s.ready (.setAddress result) = f.slot.isSome

/-- After a SET_ADDRESS request, its future completes before the loop takes another. -/
def Spaced (V : Vhci) (events : List SendEvent) : Prop :=
  ∀ pre first mid second post, events = pre ++ first :: (mid ++ second :: post) →
    (setsAddress V first).isSome → (setsAddress V second).isSome → .setAddress (.ok ()) ∈ mid

/-- A future completes before the loop takes a SET_ADDRESS request. -/
def CompletesFirst (V : Vhci) (events : List SendEvent) : Prop :=
  ∀ mid second post, events = mid ++ second :: post → (setsAddress V second).isSome → .setAddress (.ok ()) ∈ mid

/-! ### Orders of events -/

theorem spaced_cons_iff {V : Vhci} {e : SendEvent} {es : List SendEvent} :
    Spaced V (e :: es) ↔ Spaced V es ∧ ((setsAddress V e).isSome → CompletesFirst V es) := by
  constructor
  · intro h
    refine ⟨fun pre first mid second post heq => ?_, fun he mid second post heq => ?_⟩
    · exact h (e :: pre) first mid second post (congrArg (e :: ·) heq)
    · exact h [] e mid second post (congrArg (e :: ·) heq) he
  · rintro ⟨hes, he⟩ pre first mid second post heq hfirst
    cases pre with
    | nil =>
        cases heq
        exact he hfirst mid second post rfl
    | cons p pre =>
        cases heq
        exact hes pre first mid second post rfl hfirst

theorem completesFirst_cons_iff {V : Vhci} {e : SendEvent} {es : List SendEvent} :
    CompletesFirst V (e :: es) ↔
      (setsAddress V e).isSome = false ∧ (e = .setAddress (.ok ()) ∨ CompletesFirst V es) := by
  constructor
  · intro h
    refine ⟨?_, ?_⟩
    · rw [Bool.eq_false_iff]
      intro he
      exact absurd (h [] e es rfl he) List.not_mem_nil
    · by_cases hdone : e = .setAddress (.ok ())
      · exact .inl hdone
      · refine .inr fun mid second post heq hsecond => ?_
        have hmem := h (e :: mid) second post (congrArg (e :: ·) heq) hsecond
        rcases List.mem_cons.mp hmem with heq' | hmem
        · exact absurd heq'.symm hdone
        · exact hmem
  · rintro ⟨he, hes⟩ mid second post heq hsecond
    cases mid with
    | nil =>
        cases heq
        rw [he] at hsecond
        cases hsecond
    | cons m mid =>
        cases heq
        rcases hes with rfl | hes
        · exact List.mem_cons_self
        · exact List.mem_cons_of_mem _ (hes mid second post rfl hsecond)

/-! ### A turn -/

/-- Only a SET_ADDRESS request has its future waited for. -/
theorem handleWork_setAddress {V : Vhci} {b : Build} {env : WorkEnv} {h h' : BorrowSendHandler}
    {linker linker' : Linker} {work : Work} {result : WorkResult}
    (hok : handleWork V b env h linker work = .ok (result, h', linker')) :
    result = .setAddress ↔ (setsAddress V (.work work env linker)).isSome := by
  cases work with
  | portStat next =>
      obtain ⟨p, -, hok⟩ := bind_eq_ok_iff.mp hok
      cases hok
      exact iff_of_false (by simp) (by simp [setsAddress])
  | cancelUrb handle =>
      cases hok
      exact iff_of_false (by simp) (by simp [setsAddress])
  | processUrb urb handle =>
      unfold handleWork at hok
      simp only at hok
      split at hok
      · next hset =>
          cases hok
          exact iff_of_true rfl (by simp [setsAddress, hset])
      · next hset =>
          obtain ⟨p, -, hok⟩ := bind_eq_ok_iff.mp hok
          cases hok
          exact iff_of_false (by simp) (by simp [setsAddress, hset])

/-- What a turn does to the slot after which the loop still runs: it takes a SET_ADDRESS request, the future in the
slot completes, or the slot stays as it is. -/
theorem step_cases {V : Vhci} {b : Build} {s s' : SendLoop} {e : SendEvent} (hok : s.step V b e = .ok s')
    (hrunning : s'.writer.running = true) :
    s.writer.running = true ∧
      ((∃ handle, setsAddress V e = some handle ∧ s.ready e = true ∧ s'.addrSetter = true) ∨
        (e = .setAddress (.ok ()) ∧ s.addrSetter = true ∧ s'.addrSetter = false) ∨
        (setsAddress V e = none ∧ (e = .setAddress (.ok ()) → s.addrSetter = false) ∧
          s'.addrSetter = s.addrSetter)) := by
  unfold step at hok
  split at hok
  · next hready =>
      obtain ⟨hrun, hready⟩ := Bool.and_eq_true_iff.mp hready
      refine ⟨hrun, ?_⟩
      cases e with
      | work work env linker =>
          obtain ⟨⟨result, handler, linker'⟩, hwork, hok⟩ := bind_eq_ok_iff.mp hok
          have hset := handleWork_setAddress hwork
          cases hok
          cases result with
          | setAddress =>
              obtain ⟨handle, hhandle⟩ := Option.isSome_iff_exists.mp (hset.mp rfl)
              exact .inl ⟨handle, hhandle, rfl, rfl⟩
          | mustveBeenTheWind =>
              have hnone := Option.not_isSome_iff_eq_none.mp (mt hset.mpr (by simp))
              exact .inr (.inr ⟨hnone, by simp, rfl⟩)
          | processUrb result =>
              have hnone := Option.not_isSome_iff_eq_none.mp (mt hset.mpr (by simp))
              cases result with
              | ok u => exact .inr (.inr ⟨hnone, by simp, rfl⟩)
              | error err => exact absurd hrunning (Writer.not_running_exit _)
      | flushBuf =>
          obtain ⟨writer, -, hok⟩ := bind_eq_ok_iff.mp hok
          cases hok
          exact .inr (.inr ⟨rfl, by simp, rfl⟩)
      | flushComplete result =>
          cases hok
          exact .inr (.inr ⟨rfl, by simp, rfl⟩)
      | setAddress result =>
          cases result with
          | ok u =>
              cases hok
              exact .inr (.inl ⟨rfl, hready, rfl⟩)
          | error err =>
              cases hok
              exact absurd hrunning (Writer.not_running_exit _)
      | closed =>
          cases hok
          exact absurd hrunning (Writer.not_running_exit _)
  · next hnot =>
      cases hok
      rw [hrunning, Bool.true_and] at hnot
      refine ⟨hrunning, .inr (.inr ?_)⟩
      cases e with
      | work work env linker => exact absurd rfl hnot
      | flushBuf => exact ⟨rfl, by simp, rfl⟩
      | flushComplete result => exact ⟨rfl, by simp, rfl⟩
      | setAddress result => exact ⟨rfl, fun _ => Bool.eq_false_iff.mpr hnot, rfl⟩
      | closed => exact absurd rfl hnot

/-- A loop that has ended does not run again. -/
theorem running_of_run {V : Vhci} {b : Build} {events : List SendEvent} {t t' : SendLoop × Futures}
    (hrun : run (stepFutures V b) t events = .ok t') (hrunning : t'.1.writer.running = true) :
    t.1.writer.running = true := by
  induction events generalizing t with
  | nil =>
      cases hrun
      exact hrunning
  | cons e es ih =>
      obtain ⟨t₁, hstep, hrest⟩ := run_cons_eq_ok_iff.mp hrun
      exact (step_cases (track_eq_ok.mp hstep).1 (ih hrest)).1

/-- The slot as the loop and as its record have it. -/
def Agrees (t : SendLoop × Futures) : Prop := t.1.addrSetter = t.2.slot.isSome

/-- What a turn does to the futures. -/
theorem stepFutures_cases {V : Vhci} {b : Build} {t t' : SendLoop × Futures} {e : SendEvent} (hagrees : Agrees t)
    (hok : stepFutures V b t e = .ok t') (hrunning : t'.1.writer.running = true) :
    Agrees t' ∧
      ((∃ handle, setsAddress V e = some handle ∧
          t'.2 = { t.2 with issued := t.2.issued ++ [handle], slot := some handle }) ∨
        (e = .setAddress (.ok ()) ∧ t.2.slot.isSome = true ∧
          t'.2 = { t.2 with completed := t.2.completed ++ t.2.slot.toList, slot := none }) ∨
        (setsAddress V e = none ∧ (e = .setAddress (.ok ()) → t.2.slot.isSome = false) ∧ t'.2 = t.2)) := by
  obtain ⟨hstep, hfutures⟩ := track_eq_ok.mp hok
  unfold Agrees at hagrees ⊢
  obtain ⟨hrun, hcases⟩ := step_cases hstep hrunning
  rcases hcases with ⟨handle, hset, hready, hslot⟩ | ⟨rfl, hslot, hslot'⟩ | ⟨hset, hnot, hslot⟩
  · have hafter : t'.2 = { t.2 with issued := t.2.issued ++ [handle], slot := some handle } := by
      rw [hfutures, Futures.after, hrun, hready, hset, Bool.true_and, if_pos rfl]
    exact ⟨by rw [hslot, hafter]; rfl, .inl ⟨handle, hset, hafter⟩⟩
  · have hafter : t'.2 = { t.2 with completed := t.2.completed ++ t.2.slot.toList, slot := none } := by
      have hready : t.1.ready (.setAddress (.ok ())) = true := hslot
      rw [hfutures, Futures.after, hrun, hready]
      rfl
    exact ⟨by rw [hslot', hafter]; rfl, .inr (.inl ⟨rfl, hagrees.symm.trans hslot, hafter⟩)⟩
  · have hafter : t'.2 = t.2 := by
      rw [hfutures, Futures.after, hset]
      split
      · next hready =>
          refine if_neg fun hdone => ?_
          obtain rfl := completes_iff.mp hdone
          have hfree : t.1.ready (.setAddress (.ok ())) = false := hnot rfl
          rw [hfree, Bool.and_false] at hready
          cases hready
      · rfl
    refine ⟨by rw [hslot, hafter, hagrees], .inr (.inr ⟨hset, fun he => ?_, hafter⟩)⟩
    rw [← hagrees]
    exact hnot he

/-! ### Runs -/

/-- A future that was dropped is never made up for. -/
theorem dropped_of_run {V : Vhci} {b : Build} {events : List SendEvent} {t t' : SendLoop × Futures}
    (hagrees : Agrees t) (hrun : run (stepFutures V b) t events = .ok t') (hrunning : t'.1.writer.running = true)
    (hdropped : t.2.kept.length < t.2.issued.length) : t'.2.kept.length < t'.2.issued.length := by
  induction events generalizing t with
  | nil =>
      cases hrun
      exact hdropped
  | cons e es ih =>
      obtain ⟨t₁, hstep, hrest⟩ := run_cons_eq_ok_iff.mp hrun
      obtain ⟨hagrees', hcases⟩ := stepFutures_cases hagrees hstep (running_of_run hrest hrunning)
      refine ih hagrees' hrest ?_
      unfold Futures.kept at hdropped ⊢
      rw [List.length_append] at hdropped
      rcases hcases with ⟨handle, -, heq⟩ | ⟨-, -, heq⟩ | ⟨-, -, heq⟩
      · rw [heq]
        simp only [List.length_append, Option.toList_some, List.length_singleton]
        omega
      · rw [heq]
        simp only [List.length_append, Option.toList_none, List.length_nil]
        omega
      · rw [heq, List.length_append]
        exact hdropped

theorem all_kept_iff {V : Vhci} {b : Build} {events : List SendEvent} {t t' : SendLoop × Futures}
    (hagrees : Agrees t) (hkept : t.2.issued = t.2.kept) (hrun : run (stepFutures V b) t events = .ok t')
    (hrunning : t'.1.writer.running = true) :
    (Agrees t' ∧ t'.2.issued = t'.2.kept) ↔ Spaced V events ∧ (t.2.slot.isSome → CompletesFirst V events) := by
  induction events generalizing t with
  | nil =>
      cases hrun
      refine iff_of_true ⟨hagrees, hkept⟩ ⟨?_, fun _ => ?_⟩
      · intro pre first mid second post heq
        simp at heq
      · intro mid second post heq
        simp at heq
  | cons e es ih =>
      obtain ⟨t₁, hstep, hrest⟩ := run_cons_eq_ok_iff.mp hrun
      obtain ⟨hagrees', hcases⟩ := stepFutures_cases hagrees hstep (running_of_run hrest hrunning)
      rw [spaced_cons_iff, completesFirst_cons_iff]
      unfold Futures.kept at hkept
      rcases hcases with ⟨handle, hset, heq⟩ | ⟨rfl, hslot, heq⟩ | ⟨hset, hnot, heq⟩
      · cases hslot : t.2.slot with
        | some old =>
            -- The future in the slot is dropped.
            have hdropped : t₁.2.kept.length < t₁.2.issued.length := by
              rw [heq, Futures.kept]
              simp [hkept, hslot]
            have hlost := dropped_of_run hagrees' hrest hrunning hdropped
            refine iff_of_false (fun hall => ?_) (fun hspaced => ?_)
            · rw [hall.2] at hlost
              exact absurd hlost (lt_irrefl _)
            · obtain ⟨hfalse, -⟩ := hspaced.2 rfl
              rw [hset] at hfalse
              cases hfalse
        | none =>
            have hkept' : t₁.2.issued = t₁.2.kept := by
              rw [heq, Futures.kept]
              simp [hkept, hslot]
            rw [ih hagrees' hkept' hrest, heq, hset]
            simp
      · have hkept' : t₁.2.issued = t₁.2.kept := by
          rw [heq, Futures.kept]
          simp [hkept]
        rw [ih hagrees' hkept' hrest, heq]
        simp [setsAddress]
      · have hkept' : t₁.2.issued = t₁.2.kept := by
          rw [heq]
          exact hkept
        rw [ih hagrees' hkept' hrest, heq, hset]
        have hne : t.2.slot.isSome = true → e ≠ .setAddress (.ok ()) := by
          rintro hsome rfl
          rw [hnot rfl] at hsome
          cases hsome
        constructor
        · rintro ⟨hspaced, hfirst⟩
          exact ⟨⟨hspaced, by simp⟩, fun hsome => ⟨rfl, .inr (hfirst hsome)⟩⟩
        · rintro ⟨⟨hspaced, -⟩, hfirst⟩
          exact ⟨hspaced, fun hsome => (hfirst hsome).2.resolve_left (hne hsome)⟩

/-- **The futures of SET_ADDRESS requests.** In every run after which the loop still runs, none was dropped exactly
if, between two SET_ADDRESS requests, the future of the first completed. -/
theorem none_dropped_iff (V : Vhci) (b : Build) (events : List SendEvent) {s : SendLoop} {f : Futures}
    (hrun : run (stepFutures V b) (.start, .start) events = .ok (s, f)) (hrunning : s.writer.running = true) :
    NoneDropped s f ↔ Spaced V events := by
  have hiff := all_kept_iff (t := (.start, .start)) rfl rfl hrun hrunning
  constructor
  · intro h
    exact (hiff.mp ⟨h.polled (.ok ()), h.all⟩).1
  · intro h
    obtain ⟨hagrees, hall⟩ := hiff.mpr ⟨h, fun hsome => by cases hsome⟩
    exact ⟨hall, fun _ => hagrees⟩

/-- A SET_ADDRESS request for the default address. -/
def setAddressWork (handle : UInt64) : SendEvent :=
  .work (.processUrb ⟨.control, ⟨0⟩, ⟨0⟩, ⟨0, 5, 7, 0, 0⟩, 0, 0, 0, 0⟩ ⟨handle⟩) ⟨fun _ => 0, .ok ([], []), ⟨0⟩⟩ .empty

/-- A request, its completion, and another request. -/
def spacedRequests : List SendEvent := [setAddressWork 1, .setAddress (.ok ()), setAddressWork 2]

theorem spacedRequests_kept :
    ∃ s f, run (stepFutures .usb .dev) (.start, .start) spacedRequests = .ok (s, f) ∧ s.writer.running = true ∧
      NoneDropped s f := by
  refine ⟨_, _, rfl, rfl, (none_dropped_iff .usb .dev spacedRequests rfl rfl).mpr ?_⟩
  rw [spacedRequests, spaced_cons_iff, spaced_cons_iff, spaced_cons_iff]
  have hnil : Spaced .usb [] := by
    intro pre first mid second post heq
    simp at heq
  have hfirst : CompletesFirst .usb [] := by
    intro mid second post heq
    simp at heq
  exact ⟨⟨⟨hnil, fun _ => hfirst⟩, fun h => by cases h⟩, fun _ => completesFirst_cons_iff.mpr ⟨rfl, .inl rfl⟩⟩

/-- The future of the first of two requests in a row is dropped. -/
theorem two_requests_dropped :
    ∃ s, run (stepFutures .usb .dev) (.start, .start) [setAddressWork 1, setAddressWork 2] =
        .ok (s, ⟨[⟨1⟩, ⟨2⟩], [], some ⟨2⟩⟩) ∧ s.writer.running = true ∧
      ¬ ∀ events s f, run (stepFutures .usb .dev) (.start, .start) events = .ok (s, f) →
        s.writer.running = true → NoneDropped s f := by
  refine ⟨_, rfl, rfl, fun h => ?_⟩
  have hall := (h [setAddressWork 1, setAddressWork 2] _ _ rfl rfl).all
  cases hall

end Qusb.Borrow.SendLoop

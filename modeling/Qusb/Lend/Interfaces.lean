import Mathlib.Data.Finset.Erase
import Mathlib.Data.Finset.Insert
import Mathlib.Logic.Function.Basic
import Mathlib.Order.Fin.Basic
import Qusb.Lend.Recv

/-! The interfaces that the lender has claimed.

`Handle` keeps a table of what it has claimed beside what the USB library holds for it. A new configuration needs all
interfaces released before and claimed after: each pass over the table changes an entry before the call that is to
make the change true. The table mirrors the claims exactly if no such call fails. -/

namespace Qusb.Lend

def numInterfaces : Nat := 16

inductive InterfaceStatus
  | claimed
  | unclaimed
  | driverClaimed
  | notFound
  deriving DecidableEq, Repr

/-- A device handle. `device` are the interfaces that are claimed from the USB library. -/
structure Handle where
  device : Finset UInt8
  interfaces : Fin numInterfaces → InterfaceStatus

/-- What the calls to the USB library return. -/
structure Libusb where
  activeConfiguration : Except RusbError UInt8
  releaseInterface : UInt8 → Except RusbError Unit
  setActiveConfiguration : UInt8 → Except RusbError Unit
  claimInterface : UInt8 → Except RusbError Unit

/-- `interface as u8`. -/
def interfaceNum (i : Fin numInterfaces) : UInt8 := UInt8.ofNat i.val

namespace Handle

/-- The closure `is_claimed`: what a claimed entry becomes. -/
def isClaimed : InterfaceStatus → Option InterfaceStatus
  | .claimed => some .unclaimed
  | _ => none

/-- The closure `is_unclaimed`. -/
def isUnclaimed : InterfaceStatus → Option InterfaceStatus
  | .unclaimed => some .claimed
  | _ => none

/-- `iter_mut().enumerate().filter_map(select).try_for_each(call)`: the entries that are selected are changed one by
one, each before its call; `effect` is what a call does that succeeds. -/
def pass (select : InterfaceStatus → Option InterfaceStatus) (call : UInt8 → Except RusbError Unit)
    (effect : UInt8 → Finset UInt8 → Finset UInt8) : List (Fin numInterfaces) → Handle →
      Except RusbError Unit × Handle
  | [], h => (.ok (), h)
  | i :: is, h =>
      match select (h.interfaces i) with
      | none => pass select call effect is h
      | some status =>
          let changed := { h with interfaces := Function.update h.interfaces i status }
          match call (interfaceNum i) with
          | .error e => (.error e, changed)
          | .ok () => pass select call effect is { changed with device := effect (interfaceNum i) h.device }

def release (lib : Libusb) (h : Handle) : Except RusbError Unit × Handle :=
  pass isClaimed lib.releaseInterface (fun k s => s.erase k) (List.finRange numInterfaces) h

def claim (lib : Libusb) (h : Handle) : Except RusbError Unit × Handle :=
  pass isUnclaimed lib.claimInterface insert (List.finRange numInterfaces) h

def setConfigInner (lib : Libusb) (config : UInt8) (h : Handle) : Except RusbError Unit × Handle :=
  match release lib h with
  | (.error e, h) => (.error e, h)
  | (.ok (), h) =>
      match lib.setActiveConfiguration config with
      | .error e => (.error e, h)
      | .ok () => claim lib h

def setConfig (lib : Libusb) (config : UInt8) (h : Handle) : Except RusbError Unit × Handle :=
  match lib.activeConfiguration with
  | .error e => (.error e, h)
  | .ok active => if config = active then (.ok (), h) else setConfigInner lib config h

def claimInterfaceInner (lib : Libusb) (interface : UInt8) (h : Handle) :
    Except Fault (Except RusbError Unit × Handle) :=
  match lib.claimInterface interface with
  | .error e => .ok (.error e, h)
  | .ok () =>
      if hlt : interface.toNat < numInterfaces then
        .ok (.ok (), ⟨insert interface h.device, Function.update h.interfaces ⟨interface.toNat, hlt⟩ .claimed⟩)
      else .error .indexOutOfRange

def claimInterface (lib : Libusb) (interface : UInt8) (h : Handle) :
    Except Fault (Except RusbError Unit × Handle) :=
  if ∃ hlt : interface.toNat < numInterfaces, h.interfaces ⟨interface.toNat, hlt⟩ = .claimed then .ok (.ok (), h)
  else claimInterfaceInner lib interface h

/-! ### What the table says -/

/-- An entry says that its interface is claimed exactly if it is. -/
def Mirrors (h : Handle) : Prop := ∀ i, h.interfaces i = .claimed ↔ interfaceNum i ∈ h.device

/-- After a new configuration the table mirrors the claims, and no claim is lost if it failed. -/
structure Keeps (lib : Libusb) (config : UInt8) (h : Handle) : Prop where
  mirrors : (setConfig lib config h).2.Mirrors
  claims : ∀ e, (setConfig lib config h).1 = .error e → h.device ⊆ (setConfig lib config h).2.device

/-- A configuration other than the active one is set without a failure, or fails to be set with nothing claimed. -/
def Undisturbed (lib : Libusb) (config : UInt8) (h : Handle) : Prop :=
  ∀ active, lib.activeConfiguration = .ok active → config ≠ active →
    (∀ i, h.interfaces i = .claimed → lib.releaseInterface (interfaceNum i) = .ok ()) ∧
      match lib.setActiveConfiguration config with
      | .error _ => ∀ i, h.interfaces i ≠ .claimed
      | .ok () => ∀ i, h.interfaces i = .claimed ∨ h.interfaces i = .unclaimed →
          lib.claimInterface (interfaceNum i) = .ok ()

/-! ### A pass -/

theorem interfaceNum_inj {i j : Fin numInterfaces} (h : interfaceNum i = interfaceNum j) : i = j := by
  revert i j
  decide

theorem interfaceNum_toNat (i : Fin numInterfaces) : (interfaceNum i).toNat = i.val := by
  revert i
  decide

section Pass

variable {select : InterfaceStatus → Option InterfaceStatus} {call : UInt8 → Except RusbError Unit}
  {effect : UInt8 → Finset UInt8 → Finset UInt8} {held : Prop}

/-- The entry is changed, and the call for it has succeeded. -/
def applied (effect : UInt8 → Finset UInt8 → Finset UInt8) (h : Handle) (j : Fin numInterfaces)
    (status : InterfaceStatus) : Handle :=
  ⟨effect (interfaceNum j) h.device, Function.update h.interfaces j status⟩

theorem applied_interfaces (h : Handle) (i j : Fin numInterfaces) (status : InterfaceStatus) :
    (applied effect h j status).interfaces i = if i = j then status else h.interfaces i :=
  Function.update_apply h.interfaces j status i

theorem applied_device (heffect : ∀ k s l, l ∈ effect k s ↔ if l = k then held else l ∈ s) (h : Handle)
    (i j : Fin numInterfaces) (status : InterfaceStatus) :
    interfaceNum i ∈ (applied effect h j status).device ↔ if i = j then held else interfaceNum i ∈ h.device := by
  rw [applied, heffect]
  by_cases hij : i = j
  · rw [if_pos hij, if_pos (congrArg interfaceNum hij)]
  · rw [if_neg hij, if_neg fun h => hij (interfaceNum_inj h)]

theorem pass_none {j : Fin numInterfaces} {h : Handle} (hselect : select (h.interfaces j) = none)
    (is : List (Fin numInterfaces)) : pass select call effect (j :: is) h = pass select call effect is h := by
  rw [pass, hselect]

theorem pass_some {j : Fin numInterfaces} {h : Handle} {status : InterfaceStatus}
    (hselect : select (h.interfaces j) = some status) (hcall : call (interfaceNum j) = .ok ())
    (is : List (Fin numInterfaces)) :
    pass select call effect (j :: is) h = pass select call effect is (applied effect h j status) := by
  rw [pass, hselect]
  simp only [hcall]
  rfl

/-- The calls that a pass makes succeed. -/
def Succeeds (select : InterfaceStatus → Option InterfaceStatus) (call : UInt8 → Except RusbError Unit)
    (is : List (Fin numInterfaces)) (h : Handle) : Prop :=
  ∀ i ∈ is, (select (h.interfaces i)).isSome → call (interfaceNum i) = .ok ()

theorem succeeds_applied_iff {j : Fin numInterfaces} {is : List (Fin numInterfaces)} (hj : j ∉ is) (h : Handle)
    (status : InterfaceStatus) :
    Succeeds select call is (applied effect h j status) ↔ Succeeds select call is h := by
  refine forall₂_congr fun i hi => ?_
  have hij : i ≠ j := ne_of_mem_of_not_mem hi hj
  rw [applied_interfaces, if_neg hij]

/-- A pass without a failure changes the entries that are selected, and what is held with them. -/
theorem pass_ok (heffect : ∀ k s l, l ∈ effect k s ↔ if l = k then held else l ∈ s)
    {is : List (Fin numInterfaces)} (hnodup : is.Nodup) {h : Handle} (hcalls : Succeeds select call is h) :
    ∃ h', pass select call effect is h = (.ok (), h') ∧
      ∀ i, h'.interfaces i = (if i ∈ is then (select (h.interfaces i)).getD (h.interfaces i) else h.interfaces i) ∧
        (interfaceNum i ∈ h'.device ↔
          if i ∈ is ∧ (select (h.interfaces i)).isSome then held else interfaceNum i ∈ h.device) := by
  induction is generalizing h with
  | nil => exact ⟨h, rfl, fun i => by simp⟩
  | cons j is ih =>
      obtain ⟨hj, hnodup'⟩ := List.nodup_cons.mp hnodup
      obtain ⟨hcall, hcalls'⟩ := List.forall_mem_cons.mp hcalls
      cases hselect : select (h.interfaces j) with
      | none =>
          obtain ⟨h', hpass, hall⟩ := ih hnodup' hcalls'
          refine ⟨h', (pass_none hselect is).trans hpass, fun i => ?_⟩
          by_cases hij : i = j
          · subst hij
            simpa [hj, hselect] using hall i
          · simpa [hij] using hall i
      | some status =>
          have hok : call (interfaceNum j) = .ok () := hcall (by rw [hselect]; rfl)
          have hrest : Succeeds select call is (applied effect h j status) :=
            (succeeds_applied_iff hj h status).mpr hcalls'
          obtain ⟨h', hpass, hall⟩ := ih hnodup' hrest
          refine ⟨h', (pass_some hselect hok is).trans hpass, fun i => ?_⟩
          have hi := hall i
          rw [applied_interfaces, applied_device heffect] at hi
          by_cases hij : i = j
          · subst hij
            simpa [hj, hselect] using hi
          · simpa [hij] using hi

/-- A pass in which a call fails leaves an entry that was changed, and what is held as it was. -/
theorem pass_error (heffect : ∀ k s l, l ∈ effect k s ↔ if l = k then held else l ∈ s)
    {is : List (Fin numInterfaces)} (hnodup : is.Nodup) {h : Handle} (hfails : ¬ Succeeds select call is h) :
    ∃ e h' i, pass select call effect is h = (.error e, h') ∧ select (h.interfaces i) = some (h'.interfaces i) ∧
      (interfaceNum i ∈ h'.device ↔ interfaceNum i ∈ h.device) := by
  -- What is changed at `i` is not changed again, for `i` is not among the entries before.
  suffices hstrong : ∃ e h', ∃ i ∈ is, pass select call effect is h = (.error e, h') ∧
      select (h.interfaces i) = some (h'.interfaces i) ∧ (interfaceNum i ∈ h'.device ↔ interfaceNum i ∈ h.device) by
    obtain ⟨e, h', i, -, hi⟩ := hstrong
    exact ⟨e, h', i, hi⟩
  induction is generalizing h with
  | nil => exact absurd (fun _ hmem => absurd hmem List.not_mem_nil) hfails
  | cons j is ih =>
      obtain ⟨hj, hnodup'⟩ := List.nodup_cons.mp hnodup
      cases hselect : select (h.interfaces j) with
      | none =>
          have hfails' : ¬ Succeeds select call is h := fun hall =>
            hfails (List.forall_mem_cons.mpr ⟨fun hsome => absurd hsome (by simp [hselect]), hall⟩)
          obtain ⟨e, h', i, hi, hpass, hrest⟩ := ih hnodup' hfails'
          exact ⟨e, h', i, List.mem_cons_of_mem _ hi, (pass_none hselect is).trans hpass, hrest⟩
      | some status =>
          cases hcall : call (interfaceNum j) with
          | error e =>
              refine ⟨e, { h with interfaces := Function.update h.interfaces j status }, j, List.mem_cons_self,
                by rw [pass, hselect]; simp only [hcall], ?_, Iff.rfl⟩
              exact hselect.trans (congrArg some (Function.update_self j status h.interfaces).symm)
          | ok u =>
              have hfails' : ¬ Succeeds select call is (applied effect h j status) := fun hall =>
                hfails (List.forall_mem_cons.mpr ⟨fun _ => hcall, (succeeds_applied_iff hj h status).mp hall⟩)
              obtain ⟨e, h', i, hi, hpass, hstatus, hheld⟩ := ih hnodup' hfails'
              have hij : i ≠ j := ne_of_mem_of_not_mem hi hj
              rw [applied_interfaces, if_neg hij] at hstatus
              rw [applied_device heffect, if_neg hij] at hheld
              exact ⟨e, h', i, List.mem_cons_of_mem _ hi, (pass_some hselect hcall is).trans hpass, hstatus, hheld⟩

theorem pass_idle {is : List (Fin numInterfaces)} {h : Handle} (hnone : ∀ i, select (h.interfaces i) = none) :
    pass select call effect is h = (.ok (), h) := by
  induction is with
  | nil => rfl
  | cons j is ih => exact (pass_none (hnone j) is).trans ih

end Pass

/-! ### Setting a configuration -/

variable {lib : Libusb} {config : UInt8} {h : Handle}

theorem isClaimed_isSome_iff (s : InterfaceStatus) : (isClaimed s).isSome ↔ s = .claimed := by
  cases s <;> simp [isClaimed]

theorem isUnclaimed_isSome_iff (s : InterfaceStatus) : (isUnclaimed s).isSome ↔ s = .unclaimed := by
  cases s <;> simp [isUnclaimed]

theorem mem_erase_iff (k : UInt8) (s : Finset UInt8) (l : UInt8) :
    l ∈ s.erase k ↔ if l = k then False else l ∈ s := by
  rw [Finset.mem_erase]
  split <;> simp [*]

theorem mem_insert_iff (k : UInt8) (s : Finset UInt8) (l : UInt8) :
    l ∈ insert k s ↔ if l = k then True else l ∈ s := by
  rw [Finset.mem_insert]
  split <;> simp [*]

/-- All that was claimed is released, if no release fails. -/
theorem release_ok (hmirrors : h.Mirrors)
    (hcalls : ∀ i, h.interfaces i = .claimed → lib.releaseInterface (interfaceNum i) = .ok ()) :
    ∃ h', release lib h = (.ok (), h') ∧ ∀ i, interfaceNum i ∉ h'.device ∧ h'.interfaces i ≠ .claimed ∧
      (h'.interfaces i = .unclaimed ↔ h.interfaces i = .claimed ∨ h.interfaces i = .unclaimed) := by
  have hsucceeds : Succeeds isClaimed lib.releaseInterface (List.finRange numInterfaces) h :=
    fun i _ hsome => hcalls i ((isClaimed_isSome_iff _).mp hsome)
  obtain ⟨h', hpass, hall⟩ := pass_ok mem_erase_iff (List.nodup_finRange numInterfaces) hsucceeds
  refine ⟨h', hpass, fun i => ?_⟩
  obtain ⟨hi, hheld⟩ := hall i
  have hmirror := hmirrors i
  rw [if_pos (List.mem_finRange i)] at hi
  simp only [List.mem_finRange, true_and, isClaimed_isSome_iff] at hheld
  cases hstatus : h.interfaces i <;> simp_all [isClaimed]

/-- All entries that are not claimed are claimed, if no claim fails. -/
theorem claim_ok (hnone : ∀ i, interfaceNum i ∉ h.device ∧ h.interfaces i ≠ .claimed)
    (hcalls : ∀ i, h.interfaces i = .unclaimed → lib.claimInterface (interfaceNum i) = .ok ()) :
    ∃ h', claim lib h = (.ok (), h') ∧ h'.Mirrors := by
  have hsucceeds : Succeeds isUnclaimed lib.claimInterface (List.finRange numInterfaces) h :=
    fun i _ hsome => hcalls i ((isUnclaimed_isSome_iff _).mp hsome)
  obtain ⟨h', hpass, hall⟩ := pass_ok mem_insert_iff (List.nodup_finRange numInterfaces) hsucceeds
  refine ⟨h', hpass, fun i => ?_⟩
  obtain ⟨hi, hheld⟩ := hall i
  obtain ⟨hfree, hclaimed⟩ := hnone i
  rw [if_pos (List.mem_finRange i)] at hi
  simp only [List.mem_finRange, true_and, isUnclaimed_isSome_iff] at hheld
  cases hstatus : h.interfaces i <;> simp_all [isUnclaimed]

/-- An entry is said not to be claimed whose release failed. -/
theorem release_error (hmirrors : h.Mirrors)
    (hfails : ¬ ∀ i, h.interfaces i = .claimed → lib.releaseInterface (interfaceNum i) = .ok ()) :
    ∃ e h', release lib h = (.error e, h') ∧ ¬ h'.Mirrors := by
  have hnot : ¬ Succeeds isClaimed lib.releaseInterface (List.finRange numInterfaces) h :=
    fun hall => hfails fun i hi => hall i (List.mem_finRange i) ((isClaimed_isSome_iff _).mpr hi)
  obtain ⟨e, h', i, hpass, hstatus, hheld⟩ := pass_error mem_erase_iff (List.nodup_finRange numInterfaces) hnot
  refine ⟨e, h', hpass, fun hmirrors' => ?_⟩
  have hbefore := hmirrors i
  have hafter := hmirrors' i
  cases hi : h.interfaces i <;> simp_all [isClaimed]

/-- An entry is said to be claimed whose claim failed. -/
theorem claim_error (hnone : ∀ i, interfaceNum i ∉ h.device)
    (hfails : ¬ ∀ i, h.interfaces i = .unclaimed → lib.claimInterface (interfaceNum i) = .ok ()) :
    ∃ e h', claim lib h = (.error e, h') ∧ ¬ h'.Mirrors := by
  have hnot : ¬ Succeeds isUnclaimed lib.claimInterface (List.finRange numInterfaces) h :=
    fun hall => hfails fun i hi => hall i (List.mem_finRange i) ((isUnclaimed_isSome_iff _).mpr hi)
  obtain ⟨e, h', i, hpass, hstatus, hheld⟩ := pass_error mem_insert_iff (List.nodup_finRange numInterfaces) hnot
  refine ⟨e, h', hpass, fun hmirrors' => ?_⟩
  have hafter := hmirrors' i
  have hfree := hnone i
  cases hi : h.interfaces i <;> simp_all [isUnclaimed]

theorem setConfig_inner {active : UInt8} (hactive : lib.activeConfiguration = .ok active) (hne : config ≠ active) :
    setConfig lib config h = setConfigInner lib config h := by
  rw [setConfig, hactive]
  exact if_neg hne

/-- If the configuration is not set after all, what was claimed is lost. -/
theorem keeps_unset_iff (hmirrors : h.Mirrors) {e : RusbError} {h' : Handle}
    (hresult : setConfig lib config h = (.error e, h')) (hreleased : release lib h = (.ok (), h'))
    (hfree : ∀ i, interfaceNum i ∉ h'.device) : Keeps lib config h ↔ ∀ i, h.interfaces i ≠ .claimed := by
  constructor
  · intro hkeeps i hi
    have hlost := hkeeps.claims e (congrArg Prod.fst hresult) ((hmirrors i).mp hi)
    rw [hresult] at hlost
    exact hfree i hlost
  · intro hnone
    -- Nothing was claimed, so that the pass did nothing.
    have hidle : release lib h = (.ok (), h) := pass_idle fun i =>
      Option.not_isSome_iff_eq_none.mp (mt (isClaimed_isSome_iff _).mp (hnone i))
    obtain rfl : h = h' := (Prod.ext_iff.mp (hidle.symm.trans hreleased)).2
    refine ⟨?_, fun e _ => ?_⟩
    · rw [hresult]
      exact hmirrors
    · rw [hresult]

/-- If it is set, the table is kept exactly if all claims succeed. -/
theorem keeps_reclaimed_iff {h' : Handle} (hresult : setConfig lib config h = claim lib h')
    (hnone : ∀ i, interfaceNum i ∉ h'.device ∧ h'.interfaces i ≠ .claimed) :
    Keeps lib config h ↔ ∀ i, h'.interfaces i = .unclaimed → lib.claimInterface (interfaceNum i) = .ok () := by
  by_cases hclaim : ∀ i, h'.interfaces i = .unclaimed → lib.claimInterface (interfaceNum i) = .ok ()
  · obtain ⟨h'', hclaimed, hmirrors'⟩ := claim_ok hnone hclaim
    refine iff_of_true ⟨?_, fun e herr => ?_⟩ hclaim
    · rw [hresult, hclaimed]
      exact hmirrors'
    · rw [hresult, hclaimed] at herr
      cases herr
  · obtain ⟨e, h'', hclaimed, hnot⟩ := claim_error (fun i => (hnone i).1) hclaim
    refine iff_of_false (fun hkeeps => hnot ?_) hclaim
    have hmirrors' := hkeeps.mirrors
    rwa [hresult, hclaimed] at hmirrors'

/-- A change of the configuration keeps the table exactly if it goes undisturbed. -/
theorem keeps_inner_iff {active : UInt8} (hactive : lib.activeConfiguration = .ok active) (hne : config ≠ active)
    (hmirrors : h.Mirrors) :
    Keeps lib config h ↔
      (∀ i, h.interfaces i = .claimed → lib.releaseInterface (interfaceNum i) = .ok ()) ∧
        match lib.setActiveConfiguration config with
        | .error _ => ∀ i, h.interfaces i ≠ .claimed
        | .ok () => ∀ i, h.interfaces i = .claimed ∨ h.interfaces i = .unclaimed →
            lib.claimInterface (interfaceNum i) = .ok () := by
  have hinner := setConfig_inner (h := h) hactive hne
  by_cases hrelease : ∀ i, h.interfaces i = .claimed → lib.releaseInterface (interfaceNum i) = .ok ()
  · obtain ⟨h', hreleased, hall⟩ := release_ok hmirrors hrelease
    rw [and_iff_right hrelease]
    cases hset : lib.setActiveConfiguration config with
    | error e =>
        have hresult : setConfig lib config h = (.error e, h') := by
          rw [hinner, setConfigInner, hreleased]
          simp only [hset]
        exact keeps_unset_iff hmirrors hresult hreleased fun i => (hall i).1
    | ok u =>
        have hresult : setConfig lib config h = claim lib h' := by
          rw [hinner, setConfigInner, hreleased]
          simp only [hset]
        rw [keeps_reclaimed_iff hresult fun i => ⟨(hall i).1, (hall i).2.1⟩]
        exact forall_congr' fun i => by rw [(hall i).2.2]
  · obtain ⟨e, h', hreleased, hnot⟩ := release_error hmirrors hrelease
    refine iff_of_false (fun hkeeps => hnot ?_) fun hboth => hrelease hboth.1
    have hmirrors' := hkeeps.mirrors
    rwa [hinner, setConfigInner, hreleased] at hmirrors'

theorem keeps_iff (lib : Libusb) (config : UInt8) {h : Handle} (hmirrors : h.Mirrors) :
    Keeps lib config h ↔ Undisturbed lib config h := by
  cases hactive : lib.activeConfiguration with
  | error e =>
      have hresult : setConfig lib config h = (.error e, h) := by rw [setConfig, hactive]
      refine iff_of_true ⟨by rw [hresult]; exact hmirrors, fun _ _ => by rw [hresult]⟩ ?_
      intro active hok
      rw [hactive] at hok
      cases hok
  | ok active =>
      by_cases hne : config = active
      · have hresult : setConfig lib config h = (.ok (), h) := by
          rw [setConfig, hactive]
          exact if_pos hne
        refine iff_of_true ⟨by rw [hresult]; exact hmirrors, fun _ _ => by rw [hresult]⟩ ?_
        intro active' hok hne'
        rw [hactive] at hok
        cases hok
        exact absurd hne hne'
      · rw [keeps_inner_iff hactive hne hmirrors]
        constructor
        · intro hundisturbed active' hok _
          exact hundisturbed
        · intro hundisturbed
          exact hundisturbed active hactive hne

/-! ### Claiming an interface -/

/-- A claim changes the entry after the call. -/
theorem claimInterface_mirrors {interface : UInt8} {r : Except RusbError Unit} {h' : Handle} (hmirrors : h.Mirrors)
    (hreturns : claimInterface lib interface h = .ok (r, h')) : h'.Mirrors := by
  unfold claimInterface at hreturns
  split at hreturns
  · cases hreturns
    exact hmirrors
  · unfold claimInterfaceInner at hreturns
    split at hreturns
    · cases hreturns
      exact hmirrors
    · split at hreturns
      · next hlt =>
          cases hreturns
          intro i
          have hnum : interfaceNum i = interface ↔ i = ⟨interface.toNat, hlt⟩ := by
            rw [← UInt8.toNat_inj, interfaceNum_toNat, Fin.ext_iff]
          show Function.update h.interfaces _ _ i = .claimed ↔ interfaceNum i ∈ insert interface h.device
          rw [Function.update_apply, Finset.mem_insert, hnum]
          by_cases hi : i = ⟨interface.toNat, hlt⟩
          · simp [hi]
          · simpa [hi] using hmirrors i
      · cases hreturns

/-- **The table of claims.** For every table that mirrors the claims, setting a configuration keeps it so, and loses
no claim when it fails, exactly if it goes undisturbed; claiming an interface always keeps it so. -/
theorem mirrors_iff (lib : Libusb) {h : Handle} (hmirrors : h.Mirrors) :
    (∀ config, Keeps lib config h ↔ Undisturbed lib config h) ∧
      ∀ interface r h', claimInterface lib interface h = .ok (r, h') → h'.Mirrors :=
  ⟨fun config => keeps_iff lib config hmirrors, fun _ _ _ hreturns => claimInterface_mirrors hmirrors hreturns⟩

/-- A device whose first interface is claimed. -/
def oneClaimed : Handle := ⟨{0}, fun i => if i.val = 0 then .claimed else .notFound⟩

theorem oneClaimed_mirrors : oneClaimed.Mirrors := by
  unfold Mirrors
  decide

/-- All calls succeed but that which releases an interface. -/
def releaseFails : Libusb := ⟨.ok 1, fun _ => .error .other, fun _ => .ok (), fun _ => .ok ()⟩

def allSucceed : Libusb := ⟨.ok 1, fun _ => .ok (), fun _ => .ok (), fun _ => .ok ()⟩

theorem second_config_kept :
    Keeps allSucceed 2 oneClaimed ∧
      ∀ interface r h', claimInterface allSucceed interface oneClaimed = .ok (r, h') → h'.Mirrors :=
  have hall := mirrors_iff allSucceed oneClaimed_mirrors
  ⟨(hall.1 2).mpr fun _ _ _ => ⟨fun _ _ => rfl, fun _ _ => rfl⟩, hall.2⟩

/-- The interface is claimed, and its entry says that it is not. -/
theorem release_failure_not_kept :
    oneClaimed.Mirrors ∧ ¬ Keeps releaseFails 2 oneClaimed ∧ 0 ∈ (setConfig releaseFails 2 oneClaimed).2.device ∧
      (setConfig releaseFails 2 oneClaimed).2.interfaces ⟨0, by decide⟩ = .unclaimed := by
  refine ⟨oneClaimed_mirrors, fun hkeeps => ?_, by decide, by decide⟩
  have hundisturbed := (keeps_iff releaseFails 2 oneClaimed_mirrors).mp hkeeps 1 rfl (by decide)
  cases hundisturbed.1 ⟨0, by decide⟩ rfl

end Handle
end Qusb.Lend

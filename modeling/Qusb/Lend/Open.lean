import Qusb.Base.Runs
import Qusb.Lend.Interfaces

/-! Opening a device, and configuring it from several threads.

`open` fills the table of interfaces one by one, and sets the first configuration. From then on each
SET_CONFIGURATION request runs `set_config` on a thread of its own: the table is locked for each pass over it, and
between the passes the requests interleave. -/

open Runs

namespace Qusb.Lend

/-- What the calls to the USB library return while a device is opened: `device` are the calls up to the reset, each of
which ends `open` if it fails. -/
structure Opener where
  device : Except RusbError Unit
  kernelDriverActive : UInt8 → Except RusbError Bool
  detachKernelDriver : UInt8 → Except RusbError Unit
  claimInterface : UInt8 → Except RusbError Unit
  lib : Libusb

namespace Handle

def baseConfig : UInt8 := 1

/-- A device with nothing claimed, and the table that `open` starts with. -/
def fresh : Handle := ⟨∅, fun _ => .notFound⟩

/-- One turn of the loop of `open`. -/
def openInterface (o : Opener) (i : Fin numInterfaces) (h : Handle) : Except Fault (Except RusbError Handle) :=
  match o.kernelDriverActive (interfaceNum i) with
  | .ok true =>
      match o.detachKernelDriver (interfaceNum i), o.claimInterface (interfaceNum i) with
      | .error e, _ => .ok (.error e)
      | .ok (), .error e => .ok (.error e)
      | .ok (), .ok () => .ok (.ok (applied insert h i .claimed))
  | .ok false =>
      match o.claimInterface (interfaceNum i) with
      | .ok () => .ok (.ok (applied insert h i .claimed))
      | .error .notFound => .ok (.ok { h with interfaces := Function.update h.interfaces i .notFound })
      | .error _ => .error .todo
  | .error _ => .ok (.ok { h with interfaces := Function.update h.interfaces i .notFound })

def openLoop (o : Opener) : List (Fin numInterfaces) → Handle → Except Fault (Except RusbError Handle)
  | [], h => .ok (.ok h)
  | i :: is, h =>
      match openInterface o i h with
      | .error f => .error f
      | .ok (.error e) => .ok (.error e)
      | .ok (.ok h) => openLoop o is h

/-- `open`. -/
def openDevice (o : Opener) : Except Fault (Except RusbError Handle) :=
  match o.device with
  | .error e => .ok (.error e)
  | .ok () =>
      match openLoop o (List.finRange numInterfaces) fresh with
      | .error f => .error f
      | .ok (.error e) => .ok (.error e)
      | .ok (.ok h) =>
          match setConfig o.lib baseConfig h with
          | (.error e, _) => .ok (.error e)
          | (.ok (), h) => .ok (.ok h)

/-! ### What is opened -/

/-- The interface is there, and free or to be freed. -/
def Claims (o : Opener) (i : Fin numInterfaces) : Prop :=
  (o.kernelDriverActive (interfaceNum i) = .ok true ∧ o.detachKernelDriver (interfaceNum i) = .ok () ∨
    o.kernelDriverActive (interfaceNum i) = .ok false) ∧ o.claimInterface (interfaceNum i) = .ok ()

/-- The interface is not there, as far as the library says. -/
def Missing (o : Opener) (i : Fin numInterfaces) : Prop :=
  o.kernelDriverActive (interfaceNum i) = .ok false ∧ o.claimInterface (interfaceNum i) = .error .notFound ∨
    ∃ e, o.kernelDriverActive (interfaceNum i) = .error e

/-- The case that `open` leaves open: no driver has the interface, and it cannot be claimed all the same. -/
def Unhandled (o : Opener) (i : Fin numInterfaces) : Prop :=
  o.kernelDriverActive (interfaceNum i) = .ok false ∧ ∃ e, e ≠ .notFound ∧ o.claimInterface (interfaceNum i) = .error e

/-- The call that ends `open` with an error at an interface. -/
def Fails (o : Opener) (i : Fin numInterfaces) (e : RusbError) : Prop :=
  o.kernelDriverActive (interfaceNum i) = .ok true ∧
    (o.detachKernelDriver (interfaceNum i) = .error e ∨
      o.detachKernelDriver (interfaceNum i) = .ok () ∧ o.claimInterface (interfaceNum i) = .error e)

variable {o : Opener} {h h' : Handle}

/-- **A turn of the loop**: the interface is claimed, or is not there, or the loop ends with an error or a panic. -/
theorem openInterface_cases (o : Opener) (i : Fin numInterfaces) (h : Handle) :
    (Claims o i ∧ openInterface o i h = .ok (.ok (applied insert h i .claimed))) ∨
    (Missing o i ∧ openInterface o i h = .ok (.ok { h with interfaces := Function.update h.interfaces i .notFound })) ∨
    (∃ e, Fails o i e ∧ openInterface o i h = .ok (.error e)) ∨
    (Unhandled o i ∧ openInterface o i h = .error .todo) := by
  unfold openInterface
  cases hactive : o.kernelDriverActive (interfaceNum i) with
  | error e => exact .inr (.inl ⟨.inr ⟨e, hactive⟩, rfl⟩)
  | ok active =>
      cases active with
      | true =>
          cases hdetach : o.detachKernelDriver (interfaceNum i) with
          | error e => exact .inr (.inr (.inl ⟨e, ⟨hactive, .inl hdetach⟩, rfl⟩))
          | ok u =>
              cases hclaim : o.claimInterface (interfaceNum i) with
              | error e => exact .inr (.inr (.inl ⟨e, ⟨hactive, .inr ⟨hdetach, hclaim⟩⟩, rfl⟩))
              | ok u => exact .inl ⟨⟨.inl ⟨hactive, hdetach⟩, hclaim⟩, rfl⟩
      | false =>
          cases hclaim : o.claimInterface (interfaceNum i) with
          | ok u => exact .inl ⟨⟨.inr hactive, hclaim⟩, rfl⟩
          | error e =>
              by_cases he : e = .notFound
              · subst he
                exact .inr (.inl ⟨.inl ⟨hactive, hclaim⟩, rfl⟩)
              · refine .inr (.inr (.inr ⟨⟨hactive, e, he, hclaim⟩, ?_⟩))
                cases e <;> first | rfl | exact absurd rfl he

/-- The interfaces that the loop has seen are claimed, or are not there. -/
def Opened (o : Opener) (is : List (Fin numInterfaces)) (h h' : Handle) : Prop :=
  ∀ i, if i ∈ is then
    (Claims o i ∧ h'.interfaces i = .claimed ∧ interfaceNum i ∈ h'.device) ∨
      (Missing o i ∧ h'.interfaces i = .notFound ∧ (interfaceNum i ∈ h'.device ↔ interfaceNum i ∈ h.device))
  else h'.interfaces i = h.interfaces i ∧ (interfaceNum i ∈ h'.device ↔ interfaceNum i ∈ h.device)

/-- An interface that is done stays so for the rest of the loop. -/
theorem Opened.cons {i : Fin numInterfaces} {is : List (Fin numInterfaces)} (hi : i ∉ is) {h₁ : Handle}
    (hrest : Opened o is h₁ h')
    (hturn : (Claims o i ∧ h₁ = applied insert h i .claimed) ∨
      (Missing o i ∧ h₁ = { h with interfaces := Function.update h.interfaces i .notFound })) :
    Opened o (i :: is) h h' := by
  intro j
  have hj := hrest j
  by_cases hji : j = i
  · subst hji
    rw [if_neg hi] at hj
    rw [if_pos List.mem_cons_self]
    rcases hturn with ⟨hclaims, rfl⟩ | ⟨hmissing, rfl⟩
    · rw [applied_interfaces, applied_device mem_insert_iff, if_pos rfl, if_pos rfl] at hj
      exact .inl ⟨hclaims, hj.1, hj.2.mpr trivial⟩
    · exact .inr ⟨hmissing, hj.1.trans (Function.update_self j _ h.interfaces), hj.2⟩
  · have hmem : j ∈ i :: is ↔ j ∈ is := List.mem_cons.trans (or_iff_right hji)
    have hsame : h₁.interfaces j = h.interfaces j ∧ (interfaceNum j ∈ h₁.device ↔ interfaceNum j ∈ h.device) := by
      rcases hturn with ⟨-, rfl⟩ | ⟨-, rfl⟩
      · rw [applied_interfaces, applied_device mem_insert_iff, if_neg hji, if_neg hji]
        exact ⟨rfl, Iff.rfl⟩
      · exact ⟨Function.update_of_ne hji _ h.interfaces, Iff.rfl⟩
    simp only [hmem]
    rw [hsame.1, hsame.2] at hj
    exact hj

/-- How the loop ends: all interfaces are done, or the first that is neither claimed nor missing ends it. -/
theorem openLoop_cases {is : List (Fin numInterfaces)} (hnodup : is.Nodup) (h : Handle) :
    (∃ h', openLoop o is h = .ok (.ok h') ∧ Opened o is h h') ∨
    ∃ front i rest, is = front ++ i :: rest ∧ (∀ j ∈ front, Claims o j ∨ Missing o j) ∧
      ((∃ e, Fails o i e ∧ openLoop o is h = .ok (.error e)) ∨ (Unhandled o i ∧ openLoop o is h = .error .todo)) := by
  induction is generalizing h with
  | nil => exact .inl ⟨h, rfl, fun i => by simp⟩
  | cons i is ih =>
      obtain ⟨hi, hnodup'⟩ := List.nodup_cons.mp hnodup
      -- The loop goes on after an interface that is claimed or missing.
      have hgo : ∀ h₁, openInterface o i h = .ok (.ok h₁) →
          ((Claims o i ∧ h₁ = applied insert h i .claimed) ∨
            (Missing o i ∧ h₁ = { h with interfaces := Function.update h.interfaces i .notFound })) →
          (∃ h', openLoop o (i :: is) h = .ok (.ok h') ∧ Opened o (i :: is) h h') ∨
          ∃ front j rest, i :: is = front ++ j :: rest ∧ (∀ k ∈ front, Claims o k ∨ Missing o k) ∧
            ((∃ e, Fails o j e ∧ openLoop o (i :: is) h = .ok (.error e)) ∨
              (Unhandled o j ∧ openLoop o (i :: is) h = .error .todo)) := by
        intro h₁ hturn hcase
        have hloop : openLoop o (i :: is) h = openLoop o is h₁ := by rw [openLoop, hturn]
        rcases ih hnodup' h₁ with ⟨h', hok, hopened⟩ | ⟨front, j, rest, rfl, hfront, hends⟩
        · exact .inl ⟨h', hloop.trans hok, hopened.cons hi hcase⟩
        · rw [hloop]
          refine .inr ⟨i :: front, j, rest, rfl, ?_, hends⟩
          exact List.forall_mem_cons.mpr ⟨hcase.imp And.left And.left, hfront⟩
      rcases openInterface_cases o i h with ⟨hclaims, hturn⟩ | ⟨hmissing, hturn⟩ | ⟨e, hfails, hturn⟩ |
        ⟨hunhandled, hturn⟩
      · exact hgo _ hturn (.inl ⟨hclaims, rfl⟩)
      · exact hgo _ hturn (.inr ⟨hmissing, rfl⟩)
      · refine .inr ⟨[], i, is, rfl, nofun, .inl ⟨e, hfails, ?_⟩⟩
        rw [openLoop, hturn]
      · refine .inr ⟨[], i, is, rfl, nofun, .inr ⟨hunhandled, ?_⟩⟩
        rw [openLoop, hturn]

/-! ### What the two passes do -/

section Passes

variable {lib : Libusb}

/-- The entries after a release. -/
def released : InterfaceStatus → InterfaceStatus
  | .claimed => .unclaimed
  | s => s

/-- The entries after a claim. -/
def reclaimed : InterfaceStatus → InterfaceStatus
  | .unclaimed => .claimed
  | s => s

theorem release_spec (hcalls : ∀ i, h.interfaces i = .claimed → lib.releaseInterface (interfaceNum i) = .ok ()) :
    ∃ h', release lib h = (.ok (), h') ∧ ∀ i, h'.interfaces i = released (h.interfaces i) ∧
      (interfaceNum i ∈ h'.device ↔ h.interfaces i ≠ .claimed ∧ interfaceNum i ∈ h.device) := by
  have hsucceeds : Succeeds isClaimed lib.releaseInterface (List.finRange numInterfaces) h :=
    fun i _ hsome => hcalls i ((isClaimed_isSome_iff _).mp hsome)
  obtain ⟨h', hpass, hall⟩ := pass_ok mem_erase_iff (List.nodup_finRange numInterfaces) hsucceeds
  refine ⟨h', hpass, fun i => ?_⟩
  obtain ⟨hi, hheld⟩ := hall i
  rw [if_pos (List.mem_finRange i)] at hi
  simp only [List.mem_finRange, true_and, isClaimed_isSome_iff] at hheld
  cases hstatus : h.interfaces i <;> simp_all [isClaimed, released]

theorem claim_spec (hcalls : ∀ i, h.interfaces i = .unclaimed → lib.claimInterface (interfaceNum i) = .ok ()) :
    ∃ h', claim lib h = (.ok (), h') ∧ ∀ i, h'.interfaces i = reclaimed (h.interfaces i) ∧
      (interfaceNum i ∈ h'.device ↔ h.interfaces i = .unclaimed ∨ interfaceNum i ∈ h.device) := by
  have hsucceeds : Succeeds isUnclaimed lib.claimInterface (List.finRange numInterfaces) h :=
    fun i _ hsome => hcalls i ((isUnclaimed_isSome_iff _).mp hsome)
  obtain ⟨h', hpass, hall⟩ := pass_ok mem_insert_iff (List.nodup_finRange numInterfaces) hsucceeds
  refine ⟨h', hpass, fun i => ?_⟩
  obtain ⟨hi, hheld⟩ := hall i
  rw [if_pos (List.mem_finRange i)] at hi
  simp only [List.mem_finRange, true_and, isUnclaimed_isSome_iff] at hheld
  cases hstatus : h.interfaces i <;> simp_all [isUnclaimed, reclaimed]

/-- A pass that returns has made its calls. -/
theorem release_calls (hok : (release lib h).1 = .ok ()) (i : Fin numInterfaces) (hi : h.interfaces i = .claimed) :
    lib.releaseInterface (interfaceNum i) = .ok () := by
  by_contra hcall
  have hfails : ¬ Succeeds isClaimed lib.releaseInterface (List.finRange numInterfaces) h := fun hall =>
    hcall (hall i (List.mem_finRange i) ((isClaimed_isSome_iff _).mpr hi))
  obtain ⟨e, h', -, hpass, -⟩ := pass_error mem_erase_iff (List.nodup_finRange numInterfaces) hfails
  have herror : (release lib h).1 = .error e := congrArg Prod.fst hpass
  rw [herror] at hok
  cases hok

theorem claim_calls (hok : (claim lib h).1 = .ok ()) (i : Fin numInterfaces) (hi : h.interfaces i = .unclaimed) :
    lib.claimInterface (interfaceNum i) = .ok () := by
  by_contra hcall
  have hfails : ¬ Succeeds isUnclaimed lib.claimInterface (List.finRange numInterfaces) h := fun hall =>
    hcall (hall i (List.mem_finRange i) ((isUnclaimed_isSome_iff _).mpr hi))
  obtain ⟨e, h', -, hpass, -⟩ := pass_error mem_insert_iff (List.nodup_finRange numInterfaces) hfails
  have herror : (claim lib h).1 = .error e := congrArg Prod.fst hpass
  rw [herror] at hok
  cases hok

end Passes

/-! ### A device that is open -/

/-- The table mirrors the claims, and every interface is claimed or not there. -/
structure Settled (h : Handle) : Prop where
  mirrors : h.Mirrors
  known : ∀ i, h.interfaces i = .claimed ∨ h.interfaces i = .notFound

/-- The two say the same of every interface, and hold the same. -/
def Agrees (h₀ h : Handle) : Prop :=
  ∀ i, h.interfaces i = h₀.interfaces i ∧ (interfaceNum i ∈ h.device ↔ interfaceNum i ∈ h₀.device)

/-- All that was claimed is released. -/
def Released (h₀ h : Handle) : Prop := ∀ i, h.interfaces i = released (h₀.interfaces i) ∧ interfaceNum i ∉ h.device

section Settled

variable {h₀ : Handle} {lib : Libusb}

theorem Agrees.mirrors (hagrees : Agrees h₀ h) (hsettled : h₀.Settled) : h.Mirrors := by
  intro i
  rw [(hagrees i).1, (hagrees i).2]
  exact hsettled.mirrors i

theorem Released.mirrors (hreleased : Released h₀ h) : h.Mirrors := by
  intro i
  refine iff_of_false ?_ (hreleased i).2
  rw [(hreleased i).1]
  cases h₀.interfaces i <;> exact nofun

/-- A release pass releases what is claimed, and does nothing if nothing is. -/
theorem Settled.release (hsettled : h₀.Settled) (hcase : Agrees h₀ h ∨ Released h₀ h)
    (hcalls : ∀ i, h.interfaces i = .claimed → lib.releaseInterface (interfaceNum i) = .ok ()) :
    ∃ h', release lib h = (.ok (), h') ∧ Released h₀ h' := by
  obtain ⟨h', hpass, hall⟩ := release_spec hcalls
  refine ⟨h', hpass, fun i => ?_⟩
  obtain ⟨hi, hheld⟩ := hall i
  rw [hi, hheld]
  rcases hcase with hagrees | hreleased
  · refine ⟨congrArg released (hagrees i).1, ?_⟩
    rintro ⟨hclaimed, hmem⟩
    exact hclaimed ((hagrees.mirrors hsettled i).mpr hmem)
  · refine ⟨?_, fun hboth => (hreleased i).2 hboth.2⟩
    rw [(hreleased i).1]
    cases h₀.interfaces i <;> rfl

/-- A claim pass claims what was claimed when the device was opened. -/
theorem Settled.claim (hsettled : h₀.Settled) (hcase : Agrees h₀ h ∨ Released h₀ h)
    (hcalls : ∀ i, h.interfaces i = .unclaimed → lib.claimInterface (interfaceNum i) = .ok ()) :
    ∃ h', claim lib h = (.ok (), h') ∧ Agrees h₀ h' := by
  obtain ⟨h', hpass, hall⟩ := claim_spec hcalls
  refine ⟨h', hpass, fun i => ?_⟩
  obtain ⟨hi, hheld⟩ := hall i
  have hmirror := hsettled.mirrors i
  rw [hi, hheld]
  rcases hcase with hagrees | hreleased
  · obtain ⟨hsame, hmem⟩ := hagrees i
    rcases hsettled.known i with hknown | hknown <;> simp_all [reclaimed]
  · obtain ⟨hsame, hmem⟩ := hreleased i
    rcases hsettled.known i with hknown | hknown <;> simp_all [reclaimed, released]

/-- A configuration that is set leaves the claims as they were. -/
theorem Settled.setConfig (hsettled : h₀.Settled) {config : UInt8} (hok : setConfig lib config h₀ = (.ok (), h')) :
    Agrees h₀ h' := by
  have hself : Agrees h₀ h₀ := fun i => ⟨rfl, Iff.rfl⟩
  unfold Handle.setConfig at hok
  split at hok
  · cases hok
  · split at hok
    · cases hok
      exact hself
    · unfold setConfigInner at hok
      split at hok
      · cases hok
      · next h₁ hrelease =>
          obtain ⟨h₁', hrelease', hreleased⟩ :=
            hsettled.release (.inl hself) (release_calls (congrArg Prod.fst hrelease))
          obtain rfl : h₁' = h₁ := congrArg Prod.snd (hrelease'.symm.trans hrelease)
          split at hok
          · cases hok
          · obtain ⟨h₂, hclaim, hagrees⟩ := hsettled.claim (.inr hreleased) (claim_calls (congrArg Prod.fst hok))
            obtain rfl : h₂ = h' := congrArg Prod.snd (hclaim.symm.trans hok)
            exact hagrees

end Settled

/-! ### Opening -/

theorem Unhandled.not_done {i : Fin numInterfaces} (hunhandled : Unhandled o i) : ¬ (Claims o i ∨ Missing o i) := by
  obtain ⟨hactive, e, he, hclaim⟩ := hunhandled
  rintro (⟨-, hok⟩ | ⟨-, hmissing⟩ | ⟨e', herror⟩)
  · cases hclaim.symm.trans hok
  · cases hclaim.symm.trans hmissing
    exact he rfl
  · cases hactive.symm.trans herror

theorem Fails.not_done {i : Fin numInterfaces} {e : RusbError} (hfails : Fails o i e) :
    ¬ (Claims o i ∨ Missing o i) := by
  obtain ⟨hactive, hcalls⟩ := hfails
  rintro (⟨⟨-, hdetached⟩ | hfree, hok⟩ | ⟨hfree, -⟩ | ⟨e', herror⟩)
  · rcases hcalls with hdetach | ⟨-, hclaim⟩
    · cases hdetach.symm.trans hdetached
    · cases hclaim.symm.trans hok
  · cases hactive.symm.trans hfree
  · cases hactive.symm.trans hfree
  · cases hactive.symm.trans herror

theorem Fails.not_unhandled {i : Fin numInterfaces} {e : RusbError} (hfails : Fails o i e) : ¬ Unhandled o i :=
  fun hunhandled => by cases hfails.1.symm.trans hunhandled.1

theorem Claims.not_missing {i : Fin numInterfaces} (hclaims : Claims o i) : ¬ Missing o i := by
  obtain ⟨hfree, hok⟩ := hclaims
  rintro (⟨-, hmissing⟩ | ⟨e, herror⟩)
  · cases hok.symm.trans hmissing
  · rcases hfree with ⟨hactive, -⟩ | hactive
    · cases hactive.symm.trans herror
    · cases hactive.symm.trans herror

/-- Before an interface the loop has seen just those with a smaller number. -/
theorem mem_front_iff {front rest : List (Fin numInterfaces)} {i : Fin numInterfaces}
    (hall : List.finRange numInterfaces = front ++ i :: rest) (j : Fin numInterfaces) : j ∈ front ↔ j < i := by
  have hsorted : (front ++ i :: rest).Pairwise (· < ·) := hall ▸ List.pairwise_lt_finRange numInterfaces
  obtain ⟨-, htail, hcross⟩ := List.pairwise_append.mp hsorted
  constructor
  · intro hj
    exact hcross j hj i List.mem_cons_self
  · intro hlt
    have hmem : j ∈ front ++ i :: rest := hall ▸ List.mem_finRange j
    rcases List.mem_append.mp hmem with hfront | hrest
    · exact hfront
    · rcases List.mem_cons.mp hrest with rfl | hafter
      · exact absurd hlt (lt_irrefl j)
      · exact absurd hlt (lt_asymm ((List.pairwise_cons.mp htail).1 j hafter))

/-- The first interface that is not done is the same however it is found. -/
theorem first_unique {i j : Fin numInterfaces} (hi : ¬ (Claims o i ∨ Missing o i)) (hj : ¬ (Claims o j ∨ Missing o j))
    (hbefore : ∀ k, k < i → Claims o k ∨ Missing o k) (hbefore' : ∀ k, k < j → Claims o k ∨ Missing o k) : i = j := by
  rcases lt_trichotomy i j with hlt | heq | hgt
  · exact absurd (hbefore' i hlt) hi
  · exact heq
  · exact absurd (hbefore j hgt) hj

/-- The handle that the loop leaves. -/
theorem Opened.settled (hopened : Opened o (List.finRange numInterfaces) fresh h) :
    h.Settled ∧ ∀ i, h.interfaces i = .claimed ↔ Claims o i := by
  have hdone : ∀ i, (Claims o i ∧ h.interfaces i = .claimed ∧ interfaceNum i ∈ h.device) ∨
      (Missing o i ∧ h.interfaces i = .notFound ∧ interfaceNum i ∉ h.device) := by
    intro i
    have hi := hopened i
    rw [if_pos (List.mem_finRange i)] at hi
    refine hi.imp_right fun hmissing => ⟨hmissing.1, hmissing.2.1, fun hmem => ?_⟩
    exact absurd (hmissing.2.2.mp hmem) (Finset.notMem_empty _)
  refine ⟨⟨fun i => ?_, fun i => ?_⟩, fun i => ?_⟩
  · rcases hdone i with ⟨-, hstatus, hmem⟩ | ⟨-, hstatus, hmem⟩
    · exact iff_of_true hstatus hmem
    · exact iff_of_false (by rw [hstatus]; exact nofun) hmem
  · exact (hdone i).imp (fun hclaims => hclaims.2.1) fun hmissing => hmissing.2.1
  · rcases hdone i with ⟨hclaims, hstatus, -⟩ | ⟨hmissing, hstatus, -⟩
    · exact iff_of_true hstatus hclaims
    · exact iff_of_false (by rw [hstatus]; exact nofun) fun hclaims => hclaims.not_missing hmissing

theorem Agrees.settled {h₀ : Handle} (hagrees : Agrees h₀ h) (hsettled : h₀.Settled) : h.Settled :=
  ⟨hagrees.mirrors hsettled, fun i => by rw [(hagrees i).1]; exact hsettled.known i⟩

/-- **Opening a device.** Whatever the calls return, `open` panics exactly if the first interface that is neither
claimed nor missing is free and cannot be claimed; a handle that it returns mirrors the claims, and has claimed just
the interfaces that can be. -/
theorem openDevice_spec (o : Opener) :
    ((∃ f, openDevice o = .error f) ↔ o.device = .ok () ∧
      ∃ i, Unhandled o i ∧ ∀ j, j < i → Claims o j ∨ Missing o j) ∧
    ∀ h, openDevice o = .ok (.ok h) → h.Settled ∧ ∀ i, h.interfaces i = .claimed ↔ Claims o i := by
  unfold openDevice
  rcases hdevice : o.device with e | ⟨⟩
  · simp
  · rcases openLoop_cases (o := o) (List.nodup_finRange numInterfaces) fresh with
      ⟨h₀, hloop, hopened⟩ | ⟨front, i, rest, hall, hfront, hends⟩
    · obtain ⟨hsettled, hclaimed⟩ := hopened.settled
      simp only [hloop]
      constructor
      · refine iff_of_false ?_ ?_
        · rintro ⟨f, hf⟩
          split at hf
          · cases hf
          · cases hf
        · rintro ⟨-, i, hunhandled, -⟩
          have hi := hopened i
          rw [if_pos (List.mem_finRange i)] at hi
          exact hunhandled.not_done (hi.imp And.left And.left)
      · intro h hok
        split at hok
        · cases hok
        · next h₁ hset =>
            cases hok
            have hagrees := hsettled.setConfig hset
            exact ⟨hagrees.settled hsettled, fun i => by rw [(hagrees i).1]; exact hclaimed i⟩
    · have hbefore : ∀ j, j < i → Claims o j ∨ Missing o j := fun j hj => hfront j ((mem_front_iff hall j).mpr hj)
      rcases hends with ⟨e, hfails, hloop⟩ | ⟨hunhandled, hloop⟩
      · simp only [hloop]
        refine ⟨iff_of_false nofun ?_, nofun⟩
        rintro ⟨-, j, hunhandled, hbefore'⟩
        obtain rfl := first_unique hfails.not_done hunhandled.not_done hbefore hbefore'
        exact hfails.not_unhandled hunhandled
      · simp only [hloop]
        exact ⟨iff_of_true ⟨_, rfl⟩ ⟨trivial, i, hunhandled, hbefore⟩, nofun⟩

end Handle
end Qusb.Lend

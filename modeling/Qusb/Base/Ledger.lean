import Qusb.Base.Tables

/-! Requests in flight.

A request is filed under a key and later settled once. The history keeps every pair filed and every pair
settled; a pair is open in between. `Ledger` ties the history to two inverse tables of the open pairs:
filing a fresh key and settling an open pair keep it. `Custody` is about the requests that are still
travelling: no two of them have one key, and each is open. Messages may be reordered or lost, and a
request that is settled leaves. -/

namespace Ledgers

open Tables

variable {τ κ η : Type*} (key : τ → κ)

/-- All pairs filed and all pairs settled, in order. -/
structure History (τ η : Type*) where
  filed : List (τ × η)
  settled : List (τ × η)

namespace History

def empty : History τ η := ⟨[], []⟩

def file (hist : History τ η) (t : τ) (h : η) : History τ η :=
  { hist with filed := hist.filed ++ [(t, h)] }

def settle (hist : History τ η) (t : τ) (h : η) : History τ η :=
  { hist with settled := hist.settled ++ [(t, h)] }

def Open (hist : History τ η) (t : τ) (h : η) : Prop :=
  (t, h) ∈ hist.filed ∧ (t, h) ∉ hist.settled

/-- The value is in use by an open pair. -/
def Live (hist : History τ η) (h : η) : Prop := ∃ t, hist.Open t h

/-- The key was filed before. -/
def Used (hist : History τ η) (k : κ) : Prop := k ∈ hist.filed.map fun p => key p.1

variable {key} {hist : History τ η} {t t' : τ} {h h' : η}

theorem open_settle_iff :
    (hist.settle t h).Open t' h' ↔ hist.Open t' h' ∧ (t', h') ≠ (t, h) := by
  simp [Open, settle, and_assoc]

end History

/-! ### Travelling requests -/

/-- The travelling requests have different keys, and each is open. -/
structure Custody (hist : History τ η) (travelling : List τ) : Prop where
  distinct : (travelling.map key).Nodup
  isOpen : ∀ t ∈ travelling, ∃ h, hist.Open t h

variable {key} {hist : History τ η} {t t' : τ} {h h' : η}

namespace Custody

variable {travelling travelling' : List τ}

theorem start : Custody key (History.empty : History τ η) [] := ⟨List.nodup_nil, by simp⟩

/-- Requests may be reordered and lost. -/
theorem of_subperm (hc : Custody key hist travelling) (hsub : travelling'.Subperm travelling) :
    Custody key hist travelling' := by
  obtain ⟨l, hl, hsub⟩ := hsub
  refine ⟨?_, fun t ht => hc.isOpen t (hsub.subset (hl.symm.subset ht))⟩
  exact (hl.map key).nodup_iff.mp (hc.distinct.sublist (hsub.map key))

/-- A request that is filed may be lost, or start to travel. -/
theorem file (hc : Custody key hist travelling) (hsettled : hist.settled ⊆ hist.filed)
    (hfresh : ¬ hist.Used key (key t)) (h : η) (hsub : travelling'.Subperm (t :: travelling)) :
    Custody key (hist.file t h) travelling' := by
  have hused : ∀ p ∈ hist.filed, key p.1 ≠ key t := fun p hp heq =>
    hfresh (List.mem_map.mpr ⟨p, hp, heq⟩)
  refine of_subperm (show Custody key (hist.file t h) (t :: travelling) from ⟨?_, ?_⟩) hsub
  · refine List.nodup_cons.mpr ⟨fun hmem => ?_, hc.distinct⟩
    obtain ⟨t', ht', heq⟩ := List.mem_map.mp hmem
    obtain ⟨h', ho⟩ := hc.isOpen t' ht'
    exact hused _ ho.1 heq
  · intro t' ht'
    rcases List.mem_cons.mp ht' with rfl | hold
    · exact ⟨h, by simp [History.file], fun hp => hused _ (hsettled hp) rfl⟩
    · obtain ⟨h', hfiled, hopen⟩ := hc.isOpen t' hold
      exact ⟨h', List.mem_append_left _ hfiled, hopen⟩

/-- A request that arrives is settled; the others stay open. -/
theorem settle (hc : Custody key hist (t :: travelling)) (h : η) :
    Custody key (hist.settle t h) travelling := by
  have hnodup := List.nodup_cons.mp hc.distinct
  refine ⟨hnodup.2, fun t' ht' => ?_⟩
  obtain ⟨h', ho⟩ := hc.isOpen t' (List.mem_cons_of_mem t ht')
  refine ⟨h', History.open_settle_iff.mpr ⟨ho, fun heq => hnodup.1 ?_⟩⟩
  obtain ⟨rfl, -⟩ := Prod.mk.inj heq
  exact List.mem_map_of_mem ht'

end Custody

/-! ### The tables -/

variable [DecidableEq κ] [DecidableEq η] (key)

/-- The tables hold the open pairs of the history. -/
structure Ledger (hist : History τ η) (keys : Table η κ) (values : Table κ η) : Prop where
  distinct : (hist.filed.map fun p => key p.1).Nodup
  settled_nodup : hist.settled.Nodup
  settled_filed : hist.settled ⊆ hist.filed
  inverse : Inverse keys values
  open_iff : ∀ k h, values.lookup k = some h ↔ ∃ t, key t = k ∧ hist.Open t h

variable {key} {keys : Table η κ} {values : Table κ η}

namespace Ledger

theorem start : Ledger key (History.empty : History τ η) ∅ ∅ where
  distinct := List.nodup_nil
  settled_nodup := List.nodup_nil
  settled_filed := List.nil_subset _
  inverse := inverse_empty
  open_iff := by
    intro k h
    simp [AList.lookup_empty, History.Open, History.empty]

/-- A key is filed for one pair only. -/
theorem filed_unique (hl : Ledger key hist keys values) (hp : (t, h) ∈ hist.filed)
    (hp' : (t', h') ∈ hist.filed) (hkey : key t = key t') : (t, h) = (t', h') :=
  List.inj_on_of_nodup_map hl.distinct hp hp' hkey

theorem lookup_value (hl : Ledger key hist keys values) (ho : hist.Open t h) :
    values.lookup (key t) = some h := (hl.open_iff _ _).mpr ⟨t, rfl, ho⟩

theorem lookup_key (hl : Ledger key hist keys values) (ho : hist.Open t h) :
    keys.lookup h = some (key t) := (hl.inverse _ _).mpr (hl.lookup_value ho)

/-- A key that was never filed is in neither table. -/
theorem lookup_fresh (hl : Ledger key hist keys values) {k : κ} (hfresh : ¬ hist.Used key k) :
    values.lookup k = none := by
  rw [Option.eq_none_iff_forall_ne_some]
  intro h hlookup
  obtain ⟨t, rfl, ho⟩ := (hl.open_iff k h).mp hlookup
  exact hfresh (List.mem_map.mpr ⟨(t, h), ho.1, rfl⟩)

theorem lookup_idle (hl : Ledger key hist keys values) (hidle : ¬ hist.Live h) :
    keys.lookup h = none := by
  rw [Option.eq_none_iff_forall_ne_some]
  intro k hlookup
  obtain ⟨t, -, ho⟩ := (hl.open_iff k h).mp ((hl.inverse h k).mp hlookup)
  exact hidle ⟨t, ho⟩

/-- **Filing** a fresh key for a value that is not in use. -/
theorem file (hl : Ledger key hist keys values) (hfresh : ¬ hist.Used key (key t))
    (hidle : ¬ hist.Live h) :
    Ledger key (hist.file t h) (keys.insert h (key t)) (values.insert (key t) h) where
  distinct := by
    have hdisj : List.Disjoint (hist.filed.map fun p => key p.1) [key t] :=
      List.disjoint_singleton.mpr hfresh
    simpa [History.file] using List.Nodup.append hl.distinct (List.nodup_singleton _) hdisj
  settled_nodup := hl.settled_nodup
  settled_filed := fun p hp => List.mem_append_left _ (hl.settled_filed hp)
  inverse := hl.inverse.insert (hl.lookup_idle hidle) (hl.lookup_fresh hfresh)
  open_iff := by
    have hnew : (t, h) ∉ hist.settled := fun hp =>
      hfresh (List.mem_map.mpr ⟨(t, h), hl.settled_filed hp, rfl⟩)
    intro k h'
    rw [lookup_insert_eq]
    split
    · next hk =>
        subst hk
        constructor
        · intro heq
          obtain rfl := Option.some.inj heq
          exact ⟨t, rfl, by simp [History.file], hnew⟩
        · rintro ⟨t', hkey, hmem, -⟩
          rcases List.mem_append.mp hmem with hold | hlast
          · exact absurd (List.mem_map.mpr ⟨(t', h'), hold, hkey⟩) hfresh
          · obtain ⟨-, rfl⟩ := Prod.mk.inj (List.mem_singleton.mp hlast)
            rfl
    · next hk =>
        rw [hl.open_iff]
        constructor
        · rintro ⟨t', hkey, hmem, hopen⟩
          exact ⟨t', hkey, List.mem_append_left _ hmem, hopen⟩
        · rintro ⟨t', hkey, hmem, hopen⟩
          rcases List.mem_append.mp hmem with hold | hlast
          · exact ⟨t', hkey, hold, hopen⟩
          · obtain ⟨rfl, -⟩ := Prod.mk.inj (List.mem_singleton.mp hlast)
            exact absurd hkey.symm hk

/-- **Settling** an open pair takes it out of both tables. -/
theorem settle (hl : Ledger key hist keys values) (ho : hist.Open t h) :
    Ledger key (hist.settle t h) (keys.erase h) (values.erase (key t)) where
  distinct := hl.distinct
  settled_nodup :=
    List.Nodup.append hl.settled_nodup (List.nodup_singleton _) (by simpa using ho.2)
  settled_filed := by
    intro p hp
    rcases List.mem_append.mp hp with hold | hlast
    · exact hl.settled_filed hold
    · rw [List.mem_singleton.mp hlast]
      exact ho.1
  inverse := hl.inverse.erase (hl.lookup_value ho)
  open_iff := by
    intro k h'
    simp only [History.open_settle_iff]
    rw [lookup_erase_eq]
    split
    · next hk =>
        subst hk
        simp only [reduceCtorEq, false_iff, not_exists, not_and]
        intro t' hkey hopen hne
        exact hne (hl.filed_unique hopen.1 ho.1 hkey)
    · next hk =>
        rw [hl.open_iff]
        refine exists_congr fun t' => and_congr_right fun hkey => ?_
        refine (and_iff_left ?_).symm
        rintro heq
        obtain ⟨rfl, -⟩ := Prod.mk.inj heq
        exact hk hkey.symm

/-- A settled key does not travel. -/
theorem not_mem_of_settled (hl : Ledger key hist keys values) {travelling : List τ}
    (hc : Custody key hist travelling) (hp : (t, h) ∈ hist.settled) : t ∉ travelling := by
  intro ht
  obtain ⟨h', hfiled, hopen⟩ := hc.isOpen t ht
  have heq := hl.filed_unique (hl.settled_filed hp) hfiled rfl
  exact hopen (heq ▸ hp)

end Ledger

end Ledgers

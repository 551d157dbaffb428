import Mathlib.Data.Multiset.AddSub
import Qusb.Base.Runs
import Qusb.Base.Tables
import Qusb.Proto.Machine

/-! The transfers that are kept for reuse.

`BigTransfers` keeps transfers by the number of isochronous packets they have room for, one or many at each number. A
transfer is taken from the least number that is enough. -/

open Tables

namespace Qusb.Lend

/-- A transfer of the USB library has room for a number of isochronous packets. -/
class Transfer (T : Type) where
  maxIsoPackets : T → Nat

open Transfer

/-- A libusb transfer, by the number of packets it has room for. -/
abbrev LibusbTransfer := Nat

instance : Transfer LibusbTransfer := ⟨fun transfer => transfer⟩

inductive OneOrMany (T : Type) where
  | one (transfer : T)
  | many (transfers : List T)
  deriving DecidableEq, Repr

/-- The transfers of an entry. -/
def OneOrMany.transfers {T : Type} : OneOrMany T → List T
  | .one transfer => [transfer]
  | .many transfers => transfers

/-- The kept transfers by the number of packets; the last of a list is its head here. -/
abbrev BigTransfers (T : Type) := Table UInt16 (OneOrMany T)

namespace BigTransfers

variable {T : Type}

def insert [Transfer T] (cache : BigTransfers T) (transfer : T) : BigTransfers T :=
  let key := UInt16.ofNat (maxIsoPackets transfer)
  match cache.lookup key with
  | some (.one other) => AList.insert key (.many [other, transfer]) cache
  | some (.many transfers) => AList.insert key (.many (transfer :: transfers)) cache
  | none => AList.insert key (.one transfer) cache

/-- The entry with the lesser key. -/
def lesser (best : Option (UInt16 × OneOrMany T)) (e : Sigma fun _ : UInt16 => OneOrMany T) :
    Option (UInt16 × OneOrMany T) :=
  match best with
  | some b => if e.1 < b.1 then some (e.1, e.2) else some b
  | none => some (e.1, e.2)

/-- The entry with the least key from `numIsoPackets` on. -/
def firstFrom (cache : BigTransfers T) (numIsoPackets : UInt16) : Option (UInt16 × OneOrMany T) :=
  (cache.entries.filter fun e => numIsoPackets ≤ e.1).foldl lesser none

def remove (cache : BigTransfers T) (numIsoPackets : UInt16) : Except Fault (Option T × BigTransfers T) :=
  match cache.firstFrom numIsoPackets with
  | some (numPkts, .one transfer) => .ok (some transfer, AList.erase numPkts cache)
  | some (_, .many []) => .error .expectNone
  | some (numPkts, .many [transfer]) => .ok (some transfer, AList.erase numPkts cache)
  | some (numPkts, .many (transfer :: rest)) =>
      .ok (some transfer, AList.insert numPkts (.many rest) cache)
  | none => .ok (none, cache)

/-- No list of kept transfers is empty. -/
def Sound (cache : BigTransfers T) : Prop := ∀ key, cache.lookup key ≠ some (.many [])

/-! ### No list is empty -/

theorem sound_empty : Sound (∅ : BigTransfers T) := by
  intro key
  rw [AList.lookup_empty]
  simp

theorem sound_insert_of_ne {cache : BigTransfers T} (h : Sound cache) {key : UInt16} {entry : OneOrMany T}
    (hne : entry ≠ .many []) : Sound (AList.insert key entry cache) := by
  intro key'
  rw [lookup_insert_eq]
  split
  · simpa using hne
  · exact h key'

theorem sound_erase {cache : BigTransfers T} (h : Sound cache) (key : UInt16) :
    Sound (AList.erase key cache) := by
  intro key'
  rw [lookup_erase_eq]
  split
  · simp
  · exact h key'

theorem sound_insert [Transfer T] {cache : BigTransfers T} (h : Sound cache) (transfer : T) :
    Sound (cache.insert transfer) := by
  unfold insert
  simp only
  split
  · exact sound_insert_of_ne h (by simp)
  · exact sound_insert_of_ne h (by simp)
  · exact sound_insert_of_ne h (by simp)

/-! ### The least key -/

theorem lesser_eq (best : Option (UInt16 × OneOrMany T)) (e : Sigma fun _ : UInt16 => OneOrMany T) :
    ∃ b, lesser best e = some b ∧ (best = some b ∨ b = (e.1, e.2)) ∧ b.1 ≤ e.1 ∧ ∀ b' ∈ best, b.1 ≤ b'.1 := by
  cases best with
  | none => exact ⟨(e.1, e.2), rfl, .inr rfl, UInt16.le_refl _, fun _ h => by cases h⟩
  | some b =>
      by_cases hlt : e.1 < b.1
      · refine ⟨(e.1, e.2), if_pos hlt, .inr rfl, UInt16.le_refl _, ?_⟩
        rintro b' ⟨⟩
        exact UInt16.le_of_lt hlt
      · refine ⟨b, if_neg hlt, .inl rfl, UInt16.not_lt.mp hlt, ?_⟩
        rintro b' ⟨⟩
        exact UInt16.le_refl _

/-- The fold finds an entry with the least key, if there is one. -/
theorem foldl_lesser (l : List (Sigma fun _ : UInt16 => OneOrMany T)) (best : Option (UInt16 × OneOrMany T)) :
    match l.foldl lesser best with
    | none => best = none ∧ l = []
    | some b => (best = some b ∨ (⟨b.1, b.2⟩ : Sigma fun _ : UInt16 => OneOrMany T) ∈ l) ∧
        (∀ e ∈ l, b.1 ≤ e.1) ∧ ∀ b' ∈ best, b.1 ≤ b'.1 := by
  induction l generalizing best with
  | nil =>
      cases best with
      | none => exact ⟨rfl, rfl⟩
      | some b =>
          refine ⟨.inl rfl, fun e he => absurd he List.not_mem_nil, ?_⟩
          rintro b' ⟨⟩
          exact UInt16.le_refl _
  | cons e l ih =>
      obtain ⟨b₀, hb₀, hfrom, hle, hbest⟩ := lesser_eq best e
      rw [List.foldl_cons, hb₀]
      have hrest := ih (some b₀)
      cases hfold : l.foldl lesser (some b₀) with
      | none =>
          rw [hfold] at hrest
          cases hrest.1
      | some b =>
          rw [hfold] at hrest
          obtain ⟨hmem, hall, hleast⟩ := hrest
          have hb : b.1 ≤ b₀.1 := hleast b₀ rfl
          refine ⟨?_, ?_, fun b' hb' => UInt16.le_trans hb (hbest b' hb')⟩
          · rcases hmem with heq | hmem
            · obtain rfl : b₀ = b := Option.some.inj heq
              rcases hfrom with h | rfl
              · exact .inl h
              · exact .inr List.mem_cons_self
            · exact .inr (List.mem_cons_of_mem _ hmem)
          · exact List.forall_mem_cons.mpr ⟨UInt16.le_trans hb hle, hall⟩

/-- The entry that is found is one of the table's, with the least key from the number on. -/
theorem firstFrom_eq_some {cache : BigTransfers T} {n key : UInt16} {entry : OneOrMany T}
    (h : cache.firstFrom n = some (key, entry)) :
    cache.lookup key = some entry ∧ n ≤ key ∧
      ∀ key' entry', cache.lookup key' = some entry' → n ≤ key' → key ≤ key' := by
  have hfold := foldl_lesser (cache.entries.filter fun e => n ≤ e.1) none
  rw [show (cache.entries.filter fun e => n ≤ e.1).foldl lesser none = some (key, entry) from h] at hfold
  obtain ⟨hnone | hmem, hleast, -⟩ := hfold
  · cases hnone
  · obtain ⟨hentry, hn⟩ := List.mem_filter.mp hmem
    refine ⟨(lookup_eq_some_iff cache key entry).mpr hentry, of_decide_eq_true hn, ?_⟩
    intro key' entry' hlookup hn'
    exact hleast ⟨key', entry'⟩
      (List.mem_filter.mpr ⟨(lookup_eq_some_iff cache key' entry').mp hlookup, decide_eq_true hn'⟩)

theorem firstFrom_eq_none {cache : BigTransfers T} {n : UInt16} (h : cache.firstFrom n = none) {key : UInt16}
    {entry : OneOrMany T} (hlookup : cache.lookup key = some entry) : ¬ n ≤ key := by
  have hfold := foldl_lesser (cache.entries.filter fun e => n ≤ e.1) none
  rw [show (cache.entries.filter fun e => n ≤ e.1).foldl lesser none = none from h] at hfold
  intro hn
  have hmem : (⟨key, entry⟩ : Sigma fun _ : UInt16 => OneOrMany T) ∈ cache.entries.filter fun e => n ≤ e.1 :=
    List.mem_filter.mpr ⟨(lookup_eq_some_iff cache key entry).mp hlookup, decide_eq_true hn⟩
  rw [hfold.2] at hmem
  exact List.not_mem_nil hmem

/-- Taking a transfer out never meets an empty list. -/
theorem remove_ok {cache : BigTransfers T} (h : Sound cache) (numIsoPackets : UInt16) :
    ∃ r, cache.remove numIsoPackets = .ok r ∧ Sound r.2 := by
  unfold remove
  cases hfirst : cache.firstFrom numIsoPackets with
  | none => exact ⟨_, rfl, h⟩
  | some p =>
      obtain ⟨key, entry⟩ := p
      cases entry with
      | one transfer => exact ⟨_, rfl, sound_erase h key⟩
      | many transfers =>
          match transfers, hfirst with
          | [], hfirst => exact absurd (firstFrom_eq_some hfirst).1 (h key)
          | [transfer], _ => exact ⟨_, rfl, sound_erase h key⟩
          | transfer :: other :: rest, _ =>
              exact ⟨_, rfl, sound_insert_of_ne h (by simp)⟩

/-! ### The pool as a multiset -/

/-- The transfers that are kept. -/
def contents (cache : BigTransfers T) : Multiset T := ↑(cache.entries.flatMap fun e => e.2.transfers)

/-- A transfer is kept under its number of packets. -/
def Keyed [Transfer T] (cache : BigTransfers T) : Prop :=
  ∀ key entry, cache.lookup key = some entry → ∀ t ∈ entry.transfers, maxIsoPackets t = key.toNat

theorem mem_contents_iff {cache : BigTransfers T} {t : T} :
    t ∈ contents cache ↔ ∃ key entry, cache.lookup key = some entry ∧ t ∈ entry.transfers := by
  rw [contents, Multiset.mem_coe, List.mem_flatMap]
  constructor
  · rintro ⟨⟨key, entry⟩, hmem, ht⟩
    exact ⟨key, entry, (lookup_eq_some_iff cache key entry).mpr hmem, ht⟩
  · rintro ⟨key, entry, hlookup, ht⟩
    exact ⟨⟨key, entry⟩, (lookup_eq_some_iff cache key entry).mp hlookup, ht⟩

theorem contents_of_lookup {cache : BigTransfers T} {key : UInt16} {entry : OneOrMany T}
    (h : cache.lookup key = some entry) :
    contents cache = ↑entry.transfers + contents (AList.erase key cache) := by
  rw [contents, contents, Multiset.coe_add, Multiset.coe_eq_coe]
  exact ((entries_perm_erase h).flatMap_right _).trans (List.Perm.of_eq List.flatMap_cons)

theorem contents_insert_entry (cache : BigTransfers T) (key : UInt16) (entry : OneOrMany T) :
    contents (AList.insert key entry cache) = ↑entry.transfers + contents (AList.erase key cache) := by
  rw [contents, contents, Multiset.coe_add]
  rfl

theorem contents_erase_of_none {cache : BigTransfers T} {key : UInt16} (h : cache.lookup key = none) :
    contents (AList.erase key cache) = contents cache := by
  rw [contents, contents, entries_erase_of_lookup_eq_none h]

/-- What is inserted is kept beside what was. -/
theorem contents_insert [Transfer T] (cache : BigTransfers T) (transfer : T) :
    contents (cache.insert transfer) = transfer ::ₘ contents cache := by
  unfold insert
  simp only
  split
  · next other hlookup =>
      rw [contents_insert_entry, contents_of_lookup hlookup]
      exact congrArg (· + _) (Multiset.coe_eq_coe.mpr (List.Perm.swap _ _ _))
  · next transfers hlookup =>
      rw [contents_insert_entry, contents_of_lookup hlookup]
      exact Multiset.cons_add transfer ↑transfers _
  · next hlookup =>
      rw [contents_insert_entry, contents_erase_of_none hlookup]
      rfl

theorem keyed_insert_entry [Transfer T] {cache : BigTransfers T} (h : Keyed cache) {key : UInt16}
    {entry : OneOrMany T} (hentry : ∀ t ∈ entry.transfers, maxIsoPackets t = key.toNat) :
    Keyed (AList.insert key entry cache) := by
  intro key' entry' hlookup
  rw [lookup_insert_eq] at hlookup
  split at hlookup
  · next heq =>
      cases hlookup
      rw [heq]
      exact hentry
  · exact h key' entry' hlookup

theorem keyed_erase [Transfer T] {cache : BigTransfers T} (h : Keyed cache) (key : UInt16) :
    Keyed (AList.erase key cache) := by
  intro key' entry' hlookup
  rw [lookup_erase_eq] at hlookup
  split at hlookup
  · cases hlookup
  · exact h key' entry' hlookup

theorem keyed_insert [Transfer T] {cache : BigTransfers T} (h : Keyed cache) {transfer : T}
    (hfits : maxIsoPackets transfer ≤ 65535) : Keyed (cache.insert transfer) := by
  have hkey : maxIsoPackets transfer = (UInt16.ofNat (maxIsoPackets transfer)).toNat :=
    (UInt16.toNat_ofNat_of_lt' (show maxIsoPackets transfer < 65536 by omega)).symm
  unfold insert
  simp only
  split
  · next other hlookup =>
      have hother := h _ _ hlookup other List.mem_cons_self
      exact keyed_insert_entry h (List.forall_mem_cons.mpr ⟨hother, List.forall_mem_singleton.mpr hkey⟩)
  · next transfers hlookup =>
      exact keyed_insert_entry h (List.forall_mem_cons.mpr ⟨hkey, h _ _ hlookup⟩)
  · exact keyed_insert_entry h (List.forall_mem_singleton.mpr hkey)

/-- What taking a transfer for `n` packets out of the pool has to do. -/
def BestFit [Transfer T] (cache : BigTransfers T) (n : UInt16) : Option T × BigTransfers T → Prop
  | (none, cache') => cache' = cache ∧ ∀ t ∈ contents cache, maxIsoPackets t < n.toNat
  | (some t, cache') => contents cache = t ::ₘ contents cache' ∧ n.toNat ≤ maxIsoPackets t ∧
      ∀ t' ∈ contents cache, n.toNat ≤ maxIsoPackets t' → maxIsoPackets t ≤ maxIsoPackets t'

/-- The first transfer of the entry that is found is of the least room that is enough. -/
theorem least_of_firstFrom [Transfer T] {cache : BigTransfers T} (h : Keyed cache) {n key : UInt16}
    {entry : OneOrMany T} (hfirst : cache.firstFrom n = some (key, entry)) {t : T} (ht : t ∈ entry.transfers) :
    n.toNat ≤ maxIsoPackets t ∧
      ∀ t' ∈ contents cache, n.toNat ≤ maxIsoPackets t' → maxIsoPackets t ≤ maxIsoPackets t' := by
  obtain ⟨hlookup, hn, hleast⟩ := firstFrom_eq_some hfirst
  rw [h key entry hlookup t ht]
  refine ⟨UInt16.le_iff_toNat_le.mp hn, fun t' ht' hfits => ?_⟩
  obtain ⟨key', entry', hlookup', hmem'⟩ := mem_contents_iff.mp ht'
  have hkey' := h key' entry' hlookup' t' hmem'
  rw [hkey'] at hfits ⊢
  exact UInt16.le_iff_toNat_le.mp (hleast key' entry' hlookup' (UInt16.le_iff_toNat_le.mpr hfits))

/-- **Taking a transfer out** takes a best fit. -/
theorem remove_bestFit [Transfer T] {cache : BigTransfers T} (h : Sound cache) (hkeyed : Keyed cache) (n : UInt16) :
    ∃ r, cache.remove n = .ok r ∧ Sound r.2 ∧ Keyed r.2 ∧ BestFit cache n r := by
  obtain ⟨r, hok, hsound⟩ := remove_ok h n
  refine ⟨r, hok, hsound, ?_⟩
  unfold remove at hok
  split at hok
  · next key transfer hfirst =>
      cases hok
      have hlookup := (firstFrom_eq_some hfirst).1
      refine ⟨keyed_erase hkeyed key, ?_, least_of_firstFrom hkeyed hfirst List.mem_cons_self⟩
      exact contents_of_lookup hlookup
  · cases hok
  · next key transfer hfirst =>
      cases hok
      have hlookup := (firstFrom_eq_some hfirst).1
      refine ⟨keyed_erase hkeyed key, ?_, least_of_firstFrom hkeyed hfirst List.mem_cons_self⟩
      exact contents_of_lookup hlookup
  · next key transfer rest _ hfirst =>
      cases hok
      have hlookup := (firstFrom_eq_some hfirst).1
      refine ⟨keyed_insert_entry hkeyed fun t ht => hkeyed _ _ hlookup t (List.mem_cons_of_mem _ ht), ?_,
        least_of_firstFrom hkeyed hfirst List.mem_cons_self⟩
      rw [contents_insert_entry, contents_of_lookup hlookup]
      exact Multiset.cons_add transfer ↑rest _
  · next hfirst =>
      cases hok
      refine ⟨hkeyed, rfl, fun t ht => ?_⟩
      obtain ⟨key, entry, hlookup, hmem⟩ := mem_contents_iff.mp ht
      rw [hkeyed key entry hlookup t hmem]
      exact Nat.lt_of_not_le fun hle => firstFrom_eq_none hfirst hlookup (UInt16.le_iff_toNat_le.mpr hle)

end BigTransfers

/-! ### Any sequence of calls -/

open BigTransfers

inductive PoolCall (T : Type) where
  | insert (transfer : T)
  | remove (numIsoPackets : UInt16)

/-- The pool, with what was inserted so far and what was taken out. -/
structure Pool (T : Type) where
  cache : BigTransfers T
  inserted : Multiset T
  removed : Multiset T

namespace Pool

variable {T : Type} [Transfer T]

def start : Pool T := ⟨∅, 0, 0⟩

def step (pool : Pool T) : PoolCall T → Except Fault (Pool T)
  | .insert transfer =>
      .ok { pool with cache := pool.cache.insert transfer, inserted := transfer ::ₘ pool.inserted }
  | .remove n => do
      let (taken, cache) ← pool.cache.remove n
      return { pool with cache := cache, removed := ↑taken.toList + pool.removed }

/-- What holds of the pool between two calls. -/
structure Kept (pool : Pool T) : Prop where
  sound : pool.cache.Sound
  keyed : pool.cache.Keyed
  all : pool.inserted = pool.removed + pool.cache.contents

/-- A transfer has room for at most 65535 packets. -/
def Fits : PoolCall T → Prop
  | .insert transfer => maxIsoPackets transfer ≤ 65535
  | .remove _ => True

theorem kept_start : Kept (start : Pool T) where
  sound := sound_empty
  keyed key entry h := by
    rw [start, AList.lookup_empty] at h
    cases h
  all := rfl

theorem kept_step {pool : Pool T} (h : pool.Kept) {call : PoolCall T} (hfits : Fits call) :
    ∃ pool', pool.step call = .ok pool' ∧ pool'.Kept := by
  cases call with
  | insert transfer =>
      refine ⟨_, rfl, sound_insert h.sound transfer, keyed_insert h.keyed hfits, ?_⟩
      show transfer ::ₘ pool.inserted = pool.removed + (pool.cache.insert transfer).contents
      rw [contents_insert, h.all, Multiset.add_cons]
  | remove n =>
      obtain ⟨⟨taken, cache⟩, hok, hsound, hkeyed, hfit⟩ := remove_bestFit h.sound h.keyed n
      refine ⟨⟨cache, pool.inserted, ↑taken.toList + pool.removed⟩, by rw [step, hok]; rfl, hsound, hkeyed, ?_⟩
      show pool.inserted = ↑taken.toList + pool.removed + cache.contents
      rw [h.all]
      cases taken with
      | none =>
          obtain ⟨rfl, -⟩ := hfit
          exact congrArg (· + _) (Multiset.zero_add _).symm
      | some t =>
          rw [hfit.1, Multiset.add_cons, Option.toList_some, Multiset.coe_singleton, Multiset.singleton_add,
            Multiset.cons_add]

/-- **The pool** keeps exactly what was inserted and not taken out, no list of it is ever empty, so that no call
fails, and a transfer that is taken out is a best fit. -/
theorem pool_best_fit (calls : List (PoolCall T)) (hfits : ∀ call ∈ calls, Fits call) :
    ∃ pool, Runs.run step start calls = .ok pool ∧ pool.inserted = pool.removed + pool.cache.contents ∧
      pool.cache.Sound ∧ ∀ n, ∃ r, pool.cache.remove n = .ok r ∧ pool.cache.BestFit n r := by
  obtain ⟨pool, hrun, hkept⟩ := Runs.run_ok_of_inv kept_start hfits fun _ _ hkept hcall => kept_step hkept hcall
  refine ⟨pool, hrun, hkept.all, hkept.sound, fun n => ?_⟩
  obtain ⟨r, hok, -, -, hfit⟩ := remove_bestFit hkept.sound hkept.keyed n
  exact ⟨r, hok, hfit⟩

/-- Two transfers with room for three packets and one with room for five, which is taken for four. -/
theorem three_transfers_best_fit :
    ∃ pool, Runs.run step (start : Pool LibusbTransfer) [.insert 3, .insert 5, .insert 3, .remove 4] = .ok pool ∧
      pool.inserted = pool.removed + pool.cache.contents ∧ pool.cache.Sound ∧
        ∀ n, ∃ r, pool.cache.remove n = .ok r ∧ pool.cache.BestFit n r :=
  pool_best_fit [.insert 3, .insert 5, .insert 3, .remove 4] (by simp [Fits, maxIsoPackets])

end Pool
end Qusb.Lend

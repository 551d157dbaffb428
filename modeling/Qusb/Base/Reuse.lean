import Mathlib.Algebra.Order.BigOperators.Group.Finset

/-! Things that are kept for reuse.

A thing is taken for use, from those that are kept if one of them will do, and kept again once it was used. How many
there are then follows from how many were in use at once. A stock has things of one kind; a sorted stock has things of
many sizes, of which any size that is enough will do. -/

namespace Reuse

/-! ### Things of one kind -/

/-- How many are kept, and how many are in use. -/
structure Stock where
  free : Nat
  used : Nat

namespace Stock

def total (s : Stock) : Nat := s.free + s.used

/-- One that is kept is taken for use, or a new one. -/
def take (s : Stock) : Stock := ⟨s.free - 1, s.used + 1⟩

/-- One that was in use is kept. -/
def give (s : Stock) : Stock := ⟨s.free + 1, s.used - 1⟩

/-- There are as many as there were at first, or as were in use at once if these are more. -/
structure Exact (first peak : Nat) (s : Stock) : Prop where
  used_le : s.used ≤ peak
  total_eq : s.total = max first peak

/-- There are not more than that. -/
structure Within (first peak : Nat) (s : Stock) : Prop where
  used_le : s.used ≤ peak
  total_le : s.total ≤ max first peak

variable {first peak : Nat} {s : Stock}

theorem exact_start (first : Nat) : Exact first 0 ⟨first, 0⟩ := ⟨le_rfl, (Nat.max_zero first).symm⟩

theorem within_start (first : Nat) : Within first 0 ⟨first, 0⟩ := ⟨le_rfl, (Nat.max_zero first).ge⟩

theorem Exact.take (h : s.Exact first peak) : s.take.Exact first (max peak s.take.used) where
  used_le := le_max_right _ _
  total_eq := by
    obtain ⟨hused, htotal⟩ := h
    simp only [total, Stock.take] at htotal ⊢
    omega

theorem Exact.give (h : s.Exact first peak) (hpos : 0 < s.used) : s.give.Exact first (max peak s.give.used) where
  used_le := le_max_right _ _
  total_eq := by
    obtain ⟨hused, htotal⟩ := h
    simp only [total, Stock.give] at htotal ⊢
    omega

/-- Nothing is taken or given. -/
theorem Exact.keep (h : s.Exact first peak) : s.Exact first (max peak s.used) := by
  rw [max_eq_left h.used_le]
  exact h

theorem Within.take (h : s.Within first peak) : s.take.Within first (max peak s.take.used) where
  used_le := le_max_right _ _
  total_le := by
    obtain ⟨hused, htotal⟩ := h
    simp only [total, Stock.take] at htotal ⊢
    omega

theorem Within.give (h : s.Within first peak) (hpos : 0 < s.used) : s.give.Within first (max peak s.give.used) where
  used_le := le_max_right _ _
  total_le := by
    obtain ⟨hused, htotal⟩ := h
    simp only [total, Stock.give] at htotal ⊢
    omega

/-- Some are dropped, or none. -/
theorem Within.drop {s' : Stock} (h : s.Within first peak) (hfree : s'.free ≤ s.free) (hused : s'.used ≤ s.used) :
    s'.Within first (max peak s'.used) where
  used_le := le_max_right _ _
  total_le := by
    obtain ⟨-, htotal⟩ := h
    simp only [total] at htotal ⊢
    omega

end Stock

/-! ### Things of many sizes -/

variable {κ : Type*}

structure SortedStock (κ : Type*) where
  free : Multiset κ
  used : Multiset κ

namespace SortedStock

def all (s : SortedStock κ) : Multiset κ := s.free + s.used

/-- One that is kept is taken for use; or one of the size that is needed is made, if all that are kept are less. -/
inductive Take [LT κ] (s : SortedStock κ) (n : κ) : SortedStock κ → Prop
  | kept {t : κ} {free : Multiset κ} (hfree : s.free = t ::ₘ free) : Take s n ⟨free, t ::ₘ s.used⟩
  | new (hless : ∀ t ∈ s.free, t < n) : Take s n ⟨s.free, n ::ₘ s.used⟩

variable [DecidableEq κ]

/-- Of no size are there more than were in use at once. -/
structure Within (peak : Nat) (s : SortedStock κ) : Prop where
  used_le : s.used.card ≤ peak
  count_le : ∀ c, s.all.count c ≤ peak

variable {peak : Nat} {s s' : SortedStock κ} {n t : κ}

theorem within_start : Within 0 (⟨0, 0⟩ : SortedStock κ) := ⟨le_rfl, fun _ => le_rfl⟩

omit [DecidableEq κ] in
theorem all_kept {free : Multiset κ} (hfree : s.free = t ::ₘ free) : SortedStock.all ⟨free, t ::ₘ s.used⟩ = s.all := by
  rw [all, all, hfree, Multiset.cons_add, Multiset.add_cons]

omit [DecidableEq κ] in
/-- What there is after a taking was there before, or is of the size that was needed. -/
theorem Take.mem_all [LT κ] (htake : s.Take n s') (ht : t ∈ s'.all) : t = n ∨ t ∈ s.all := by
  cases htake with
  | kept hfree => exact .inr (all_kept hfree ▸ ht)
  | new hless =>
      rw [all, Multiset.add_cons, Multiset.mem_cons] at ht
      exact ht

theorem Within.take [Preorder κ] (h : s.Within peak) (htake : s.Take n s') :
    s'.Within (max peak s'.used.card) where
  used_le := le_max_right _ _
  count_le c := by
    cases htake with
    | kept hfree =>
        rw [all_kept hfree]
        exact (h.count_le c).trans (le_max_left _ _)
    | new hless =>
        by_cases hc : c = n
        · -- Nothing of the size was kept, so all there are now are in use.
          have hnone : n ∉ s.free := fun hmem => lt_irrefl n (hless n hmem)
          rw [hc, all, Multiset.count_add, Multiset.count_eq_zero_of_notMem hnone, Nat.zero_add]
          exact (Multiset.count_le_card n _).trans (le_max_right _ _)
        · rw [all, Multiset.add_cons, Multiset.count_cons_of_ne hc]
          exact (h.count_le c).trans (le_max_left _ _)

/-- One that was in use is kept. -/
theorem Within.give {used : Multiset κ} (h : s.Within peak) (hused : s.used = t ::ₘ used) :
    Within (max peak used.card) ⟨t ::ₘ s.free, used⟩ where
  used_le := le_max_right _ _
  count_le c := by
    have hall : SortedStock.all ⟨t ::ₘ s.free, used⟩ = s.all := by
      rw [all, all, hused, Multiset.cons_add, Multiset.add_cons]
    rw [hall]
    exact (h.count_le c).trans (le_max_left _ _)

theorem Within.keep (h : s.Within peak) : s.Within (max peak s.used.card) := by
  rw [max_eq_left h.used_le]
  exact h

/-- There are not more than were in use at once, for each of the sizes. -/
theorem Within.card_le {sizes : Finset κ} (h : s.Within peak) (hsizes : ∀ t ∈ s.all, t ∈ sizes) :
    s.all.card ≤ sizes.card * peak := by
  have hsub : s.all.toFinset ⊆ sizes := fun t ht => hsizes t (Multiset.mem_toFinset.mp ht)
  calc s.all.card = ∑ t ∈ s.all.toFinset, s.all.count t := (Multiset.toFinset_sum_count_eq s.all).symm
    _ ≤ s.all.toFinset.card * peak := Finset.sum_le_card_nsmul _ _ _ fun t _ => h.count_le t
    _ ≤ sizes.card * peak := Nat.mul_le_mul_right _ (Finset.card_le_card hsub)

end SortedStock
end Reuse

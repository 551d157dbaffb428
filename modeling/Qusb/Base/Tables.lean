import Mathlib.Data.List.AList

/-! Finite tables: association lists without a repeated key, with the operations of a hash map.

`AList` supplies lookup, insertion and erasure. This module adds filtering (`retain`), rewriting of the
values (`mapVals`) and counting of the keys whose value has a property (`count`), with the lemmas that
say what each does to a lookup and to a count. The last section is about pairs of tables that are each
other's inverse. -/

namespace Tables

abbrev Table (K V : Type*) := AList fun _ : K => V

variable {K V : Type*} [DecidableEq K]

theorem lookup_insert_eq (t : Table K V) (k k' : K) (v : V) :
    (t.insert k v).lookup k' = if k' = k then some v else t.lookup k' := by
  split
  · next h => rw [h, AList.lookup_insert]
  · next h => exact AList.lookup_insert_ne h

theorem lookup_erase_eq (t : Table K V) (k k' : K) :
    (t.erase k).lookup k' = if k' = k then none else t.lookup k' := by
  split
  · next h => rw [h, AList.lookup_erase]
  · next h => exact AList.lookup_erase_ne h

omit [DecidableEq K] in
theorem nodupKeys_map (l : List (Sigma fun _ : K => V)) (f : V → V) (h : l.NodupKeys) :
    (l.map fun e => (⟨e.1, f e.2⟩ : Sigma fun _ : K => V)).NodupKeys := by
  simpa only [List.NodupKeys, List.keys, List.map_map, Function.comp_def] using h

omit [DecidableEq K] in
theorem nodupKeys_filter (l : List (Sigma fun _ : K => V)) (p : (Sigma fun _ : K => V) → Bool)
    (h : l.NodupKeys) : (l.filter p).NodupKeys :=
  h.sublist List.filter_sublist

/-- Keep the pairs that satisfy `p`. -/
def retain (p : K → V → Bool) (t : Table K V) : Table K V :=
  ⟨t.entries.filter fun e => p e.1 e.2, nodupKeys_filter _ _ t.nodupKeys⟩

/-- Rewrite every value. -/
def mapVals (f : V → V) (t : Table K V) : Table K V :=
  ⟨t.entries.map fun e => ⟨e.1, f e.2⟩, nodupKeys_map _ f t.nodupKeys⟩

/-- The number of keys whose value satisfies `p`. -/
def count (p : V → Bool) (t : Table K V) : Nat := t.entries.countP fun e => p e.2

theorem lookup_eq_some_iff (t : Table K V) (k : K) (v : V) :
    t.lookup k = some v ↔ (⟨k, v⟩ : Sigma fun _ : K => V) ∈ t.entries :=
  AList.mem_lookup_iff

theorem isEmpty_iff (t : Table K V) : t.entries.isEmpty = true ↔ ∀ k, t.lookup k = none := by
  rw [List.isEmpty_iff]
  constructor
  · intro h k
    rw [Option.eq_none_iff_forall_ne_some]
    intro v hv
    rw [lookup_eq_some_iff, h] at hv
    cases hv
  · intro h
    refine List.eq_nil_iff_forall_not_mem.mpr fun ⟨k, v⟩ hmem => ?_
    rw [← lookup_eq_some_iff, h] at hmem
    cases hmem

theorem lookup_retain (p : K → V → Bool) (t : Table K V) (k : K) :
    (retain p t).lookup k = (t.lookup k).filter (p k) := by
  apply Option.ext
  intro v
  rw [lookup_eq_some_iff, Option.filter_eq_some_iff, lookup_eq_some_iff]
  simp [retain]

theorem lookup_mapVals (f : V → V) (t : Table K V) (k : K) :
    (mapVals f t).lookup k = (t.lookup k).map f := by
  apply Option.ext
  intro v
  rw [lookup_eq_some_iff, Option.map_eq_some_iff]
  simp only [lookup_eq_some_iff, mapVals, List.mem_map]
  constructor
  · rintro ⟨⟨k', v'⟩, hmem, heq⟩
    cases heq
    exact ⟨v', hmem, rfl⟩
  · rintro ⟨v', hmem, rfl⟩
    exact ⟨⟨k, v'⟩, hmem, rfl⟩

/-! ### Counting -/

theorem count_insert (p : V → Bool) (t : Table K V) (k : K) (v : V) (h : t.lookup k = none) :
    count p (t.insert k v) = count p t + (if p v then 1 else 0) := by
  rw [AList.lookup_eq_none] at h
  simp only [count, AList.entries_insert_of_notMem h, List.countP_cons]

/-- A pair of the table, and the table without it. -/
theorem entries_perm_erase {t : Table K V} {k : K} {v : V} (h : t.lookup k = some v) :
    t.entries.Perm (⟨k, v⟩ :: (t.erase k).entries) := by
  have hkey : k ∈ t.entries.keys := AList.lookup_isSome.mp (by rw [h]; rfl)
  obtain ⟨v', l₁, l₂, -, hsplit, herase⟩ := List.exists_of_kerase hkey
  have hmem : (⟨k, v'⟩ : Sigma fun _ : K => V) ∈ t.entries := by simp [hsplit]
  obtain rfl : v = v' := Option.some.inj (h.symm.trans ((lookup_eq_some_iff t k v').mpr hmem))
  rw [show (t.erase k).entries = l₁ ++ l₂ from herase, hsplit]
  exact List.perm_middle

theorem entries_erase_of_lookup_eq_none {t : Table K V} {k : K} (h : t.lookup k = none) :
    (t.erase k).entries = t.entries :=
  List.kerase_of_notMem_keys (AList.lookup_eq_none.mp h)

/-- Erasing a key lowers the count by one when its value was counted. -/
theorem count_erase (p : V → Bool) (t : Table K V) (k : K) :
    count p (t.erase k) + (if (t.lookup k).any p then 1 else 0) = count p t := by
  cases h : t.lookup k with
  | none => simp [count, entries_erase_of_lookup_eq_none h]
  | some v =>
      unfold count
      rw [(entries_perm_erase h).countP_eq, List.countP_cons, Option.any_some]

theorem count_pos_iff (p : V → Bool) (t : Table K V) :
    0 < count p t ↔ ∃ k v, t.lookup k = some v ∧ p v = true := by
  simp only [count, List.countP_pos_iff, lookup_eq_some_iff]
  exact ⟨fun ⟨⟨k, v⟩, hmem, hp⟩ => ⟨k, v, hmem, hp⟩, fun ⟨k, v, hmem, hp⟩ => ⟨⟨k, v⟩, hmem, hp⟩⟩

/-- Nothing that is counted was dropped. -/
theorem count_retain_eq {p : V → Bool} {q : K → V → Bool} {t : Table K V}
    (h : ∀ k v, t.lookup k = some v → p v = true → q k v = true) :
    count p (retain q t) = count p t := by
  simp only [count, retain, List.countP_filter]
  refine List.countP_congr fun e he => ?_
  have hq := h e.1 e.2 ((lookup_eq_some_iff t e.1 e.2).mpr he)
  rw [Bool.and_eq_true]
  exact ⟨fun hp => hp.1, fun hp => ⟨hp, hq hp⟩⟩

omit [DecidableEq K] in
theorem count_mapVals (p : V → Bool) (f : V → V) (t : Table K V) :
    count p (mapVals f t) = count (p ∘ f) t := by
  simp only [count, mapVals, List.countP_map]
  rfl

theorem count_congr {p q : V → Bool} (t : Table K V)
    (h : ∀ k v, t.lookup k = some v → p v = q v) : count p t = count q t := by
  refine List.countP_congr fun e he => ?_
  rw [h e.1 e.2 ((lookup_eq_some_iff t e.1 e.2).mpr he)]

/-! ### Inverse pairs -/

variable {L : Type*} [DecidableEq L]

/-- The tables are each other's inverse: one maps `k` to `l` exactly when the other maps `l` to `k`. -/
def Inverse (t : Table K L) (u : Table L K) : Prop :=
  ∀ k l, t.lookup k = some l ↔ u.lookup l = some k

theorem inverse_empty : Inverse (∅ : Table K L) (∅ : Table L K) := by
  intro k l
  simp [AList.lookup_empty]

/-- A pair both of whose components are new can be added. -/
theorem Inverse.insert {t : Table K L} {u : Table L K} (h : Inverse t u) {k : K} {l : L}
    (hk : t.lookup k = none) (hl : u.lookup l = none) : Inverse (t.insert k l) (u.insert l k) := by
  intro k' l'
  rw [lookup_insert_eq, lookup_insert_eq]
  by_cases hk' : k' = k
  · subst hk'
    by_cases hl' : l' = l
    · simp [hl']
    · rw [if_pos rfl, if_neg hl', ← h, hk]
      simp [Ne.symm hl']
  · by_cases hl' : l' = l
    · subst hl'
      rw [if_neg hk', if_pos rfl, h, hl]
      simp [Ne.symm hk']
    · rw [if_neg hk', if_neg hl']
      exact h k' l'

/-- A pair of the tables can be removed from both. -/
theorem Inverse.erase {t : Table K L} {u : Table L K} (h : Inverse t u) {k : K} {l : L}
    (hl : u.lookup l = some k) : Inverse (t.erase k) (u.erase l) := by
  have hk : t.lookup k = some l := (h k l).mpr hl
  intro k' l'
  rw [lookup_erase_eq, lookup_erase_eq]
  by_cases hk' : k' = k
  · subst hk'
    by_cases hl' : l' = l
    · simp [hl']
    · rw [if_pos rfl, if_neg hl', ← h, hk]
      simp [Ne.symm hl']
  · by_cases hl' : l' = l
    · subst hl'
      rw [if_neg hk', if_pos rfl, h, hl]
      simp [Ne.symm hk']
    · rw [if_neg hk', if_neg hl']
      exact h k' l'

end Tables

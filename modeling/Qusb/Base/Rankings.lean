import Mathlib.Data.Finset.Card
import Mathlib.Data.List.Nodup

/-! The least few of many keys, and the last few of many values.

A `SortedMap` has at most one entry for each key and lists them in the order of their keys. Pushing an entry inserts
it and drops the greatest one beyond a limit; what is kept after any number of pushes is what a map without the limit
has at its front. A window keeps the last values that were pushed. -/

namespace Rankings

variable {κ ν : Type*} [LinearOrder κ]

/-! ### Sorted maps -/

structure SortedMap (κ ν : Type*) [LT κ] where
  entries : List (κ × ν)
  sorted : entries.Pairwise fun e f => e.1 < f.1

/-- Insert an entry in its place; an entry with the same key is replaced. -/
def insertEntry (k : κ) (v : ν) : List (κ × ν) → List (κ × ν)
  | [] => [(k, v)]
  | e :: l => if k < e.1 then (k, v) :: e :: l else if k = e.1 then (k, v) :: l else e :: insertEntry k v l

theorem mem_insertEntry {k : κ} {v : ν} {l : List (κ × ν)} (hl : l.Pairwise fun e f => e.1 < f.1) {e : κ × ν} :
    e ∈ insertEntry k v l ↔ e = (k, v) ∨ e.1 ≠ k ∧ e ∈ l := by
  induction l with
  | nil => simp [insertEntry]
  | cons f l ih =>
      obtain ⟨hf, hl⟩ := List.pairwise_cons.mp hl
      unfold insertEntry
      by_cases hlt : k < f.1
      · have hother : ∀ d ∈ f :: l, d.1 ≠ k := by
          intro d hd
          rcases List.mem_cons.mp hd with rfl | hd
          · exact ne_of_gt hlt
          · exact ne_of_gt (hlt.trans (hf d hd))
        rw [if_pos hlt, List.mem_cons]
        exact or_congr_right ⟨fun he => ⟨hother e he, he⟩, And.right⟩
      · rw [if_neg hlt]
        by_cases heq : k = f.1
        · have hother : ∀ d ∈ l, d.1 ≠ k := fun d hd => heq ▸ ne_of_gt (hf d hd)
          rw [if_pos heq, List.mem_cons, List.mem_cons]
          refine or_congr_right ⟨fun he => ⟨hother e he, .inr he⟩, ?_⟩
          rintro ⟨hne, rfl | he⟩
          · exact absurd heq.symm hne
          · exact he
        · rw [if_neg heq, List.mem_cons, List.mem_cons, ih hl]
          constructor
          · rintro (rfl | rfl | ⟨hne, he⟩)
            · exact .inr ⟨fun h => heq h.symm, .inl rfl⟩
            · exact .inl rfl
            · exact .inr ⟨hne, .inr he⟩
          · rintro (rfl | ⟨hne, rfl | he⟩)
            · exact .inr (.inl rfl)
            · exact .inl rfl
            · exact .inr (.inr ⟨hne, he⟩)

theorem sorted_insertEntry (k : κ) (v : ν) {l : List (κ × ν)} (hl : l.Pairwise fun e f => e.1 < f.1) :
    (insertEntry k v l).Pairwise fun e f => e.1 < f.1 := by
  induction l with
  | nil => exact List.pairwise_singleton _ _
  | cons f l ih =>
      obtain ⟨hf, htail⟩ := List.pairwise_cons.mp hl
      unfold insertEntry
      by_cases hlt : k < f.1
      · rw [if_pos hlt]
        refine List.pairwise_cons.mpr ⟨fun d hd => ?_, hl⟩
        rcases List.mem_cons.mp hd with rfl | hd
        · exact hlt
        · exact hlt.trans (hf d hd)
      · rw [if_neg hlt]
        by_cases heq : k = f.1
        · rw [if_pos heq]
          exact List.pairwise_cons.mpr ⟨fun d hd => heq ▸ hf d hd, htail⟩
        · rw [if_neg heq]
          refine List.pairwise_cons.mpr ⟨fun d hd => ?_, ih htail⟩
          rcases (mem_insertEntry htail).mp hd with rfl | ⟨-, hd⟩
          · exact lt_of_le_of_ne (not_lt.mp hlt) (Ne.symm heq)
          · exact hf d hd

theorem length_insertEntry_le (k : κ) (v : ν) (l : List (κ × ν)) : (insertEntry k v l).length ≤ l.length + 1 := by
  induction l with
  | nil => exact le_rfl
  | cons f l ih =>
      unfold insertEntry
      split
      · exact le_rfl
      · split
        · exact Nat.le_succ _
        · exact Nat.succ_le_succ ih

/-- What stands in the first places after an insertion is decided by what stood there before. -/
theorem take_insertEntry_take (n : Nat) (k : κ) (v : ν) (l : List (κ × ν)) :
    (insertEntry k v (l.take n)).take n = (insertEntry k v l).take n := by
  induction l generalizing n with
  | nil => rw [List.take_nil]
  | cons f l ih =>
      cases n with
      | zero => rfl
      | succ n =>
          rw [List.take_succ_cons]
          unfold insertEntry
          by_cases hlt : k < f.1
          · have hfront : (f :: l.take n).take n = (f :: l).take n := by
              rw [← List.take_succ_cons, List.take_take, Nat.min_eq_left (Nat.le_succ n)]
            rw [if_pos hlt, if_pos hlt, List.take_succ_cons, List.take_succ_cons, hfront]
          · rw [if_neg hlt, if_neg hlt]
            by_cases heq : k = f.1
            · rw [if_pos heq, if_pos heq, List.take_succ_cons, List.take_succ_cons, List.take_take, Nat.min_self]
            · rw [if_neg heq, if_neg heq, List.take_succ_cons, List.take_succ_cons, ih]

namespace SortedMap

def empty : SortedMap κ ν := ⟨[], List.Pairwise.nil⟩

def length (m : SortedMap κ ν) : Nat := m.entries.length

def insert (m : SortedMap κ ν) (k : κ) (v : ν) : SortedMap κ ν :=
  ⟨insertEntry k v m.entries, sorted_insertEntry k v m.sorted⟩

def popLast (m : SortedMap κ ν) : SortedMap κ ν :=
  ⟨m.entries.dropLast, m.sorted.sublist (List.dropLast_sublist _)⟩

/-- Insert an entry, and drop the greatest one if there are more than `n`. -/
def push (n : Nat) (m : SortedMap κ ν) (k : κ) (v : ν) : SortedMap κ ν :=
  if n < (m.insert k v).length then (m.insert k v).popLast else m.insert k v

/-- In a map, an entry is among the first `n` exactly when fewer than `n` keys are less than its own. -/
theorem mem_take_iff (n : Nat) (m : SortedMap κ ν) {e : κ × ν} :
    e ∈ m.entries.take n ↔ e ∈ m.entries ∧ ((m.entries.map Prod.fst).toFinset.filter (· < e.1)).card < n := by
  obtain ⟨l, hl⟩ := m
  dsimp only
  induction l generalizing n with
  | nil => simp
  | cons f l ih =>
      obtain ⟨hf, htail⟩ := List.pairwise_cons.mp hl
      cases n with
      | zero => simp
      | succ n =>
          have hnew : f.1 ∉ (l.map Prod.fst).toFinset := by
            intro hmem
            obtain ⟨d, hd, heq⟩ := List.mem_map.mp (List.mem_toFinset.mp hmem)
            exact absurd (hf d hd) (by rw [heq]; exact lt_irrefl _)
          rw [List.take_succ_cons, List.mem_cons, List.mem_cons, List.map_cons, List.toFinset_cons]
          constructor
          · rintro (rfl | he)
            · refine ⟨.inl rfl, ?_⟩
              rw [Finset.filter_insert, if_neg (lt_irrefl _), Finset.card_eq_zero.mpr]
              · exact Nat.succ_pos n
              · refine Finset.filter_eq_empty_iff.mpr fun k hk => not_lt.mpr (le_of_lt ?_)
                obtain ⟨d, hd, rfl⟩ := List.mem_map.mp (List.mem_toFinset.mp hk)
                exact hf d hd
            · obtain ⟨hmem, hcard⟩ := (ih n htail).mp he
              refine ⟨.inr hmem, ?_⟩
              rw [Finset.filter_insert, if_pos (hf e hmem), Finset.card_insert_of_notMem]
              · exact Nat.succ_lt_succ hcard
              · exact fun h => hnew (Finset.mem_filter.mp h).1
          · rintro ⟨rfl | hmem, hcard⟩
            · exact .inl rfl
            · refine .inr ((ih n htail).mpr ⟨hmem, ?_⟩)
              rw [Finset.filter_insert, if_pos (hf e hmem), Finset.card_insert_of_notMem] at hcard
              · exact Nat.lt_of_succ_lt_succ hcard
              · exact fun h => hnew (Finset.mem_filter.mp h).1

end SortedMap

/-! ### Pushes -/

/-- The last of the entries with the key has the value. -/
def Latest (ps : List (κ × ν)) (k : κ) (v : ν) : Prop :=
  ∃ front rest, ps = front ++ (k, v) :: rest ∧ ∀ p ∈ rest, p.1 ≠ k

omit [LinearOrder κ] in
theorem latest_append {ps : List (κ × ν)} {p : κ × ν} {k : κ} {v : ν} :
    Latest (ps ++ [p]) k v ↔ (k, v) = p ∨ k ≠ p.1 ∧ Latest ps k v := by
  constructor
  · rintro ⟨front, rest, heq, hrest⟩
    rcases List.eq_nil_or_concat' rest with rfl | ⟨rest, q, rfl⟩
    · have hlast : [p] = [(k, v)] := List.append_inj_right' heq rfl
      exact .inl (List.singleton_inj.mp hlast).symm
    · rw [← List.cons_append, ← List.append_assoc] at heq
      obtain ⟨hfront, hlast⟩ := List.append_inj' heq rfl
      obtain rfl : p = q := List.singleton_inj.mp hlast
      have hne : p.1 ≠ k := hrest p (List.mem_append_right _ (List.mem_singleton_self p))
      exact .inr ⟨hne.symm, front, rest, hfront, fun d hd => hrest d (List.mem_append_left _ hd)⟩
  · rintro (rfl | ⟨hne, front, rest, rfl, hrest⟩)
    · exact ⟨ps, [], rfl, nofun⟩
    · refine ⟨front, rest ++ [p], by rw [List.append_assoc, List.cons_append], fun q hq => ?_⟩
      rcases List.mem_append.mp hq with hq | hq
      · exact hrest q hq
      · rw [List.mem_singleton.mp hq]
        exact hne.symm

omit [LinearOrder κ] in
theorem latest_map {κ' : Type*} {g : κ → κ'} (hg : Function.Injective g) {ps : List (κ × ν)} {k : κ} {v : ν} :
    Latest (ps.map fun p => (g p.1, p.2)) (g k) v ↔ Latest ps k v := by
  induction ps using List.reverseRecOn with
  | nil => exact ⟨fun ⟨_, _, heq, _⟩ => by simp at heq, fun ⟨_, _, heq, _⟩ => by simp at heq⟩
  | append_singleton ps p ih =>
      have hsame : (g k, v) = (g p.1, p.2) ↔ (k, v) = p := by
        rw [Prod.mk.injEq, hg.eq_iff, ← Prod.mk.injEq]
      rw [List.map_append, List.map_singleton, latest_append, latest_append, ih, hsame, hg.ne_iff]

/-- Of keys without values, any that was pushed is the last with its key. -/
theorem latest_unit {ks : List κ} {k : κ} : Latest (ks.map fun k => (k, ())) k () ↔ k ∈ ks := by
  induction ks using List.reverseRecOn with
  | nil => exact ⟨fun ⟨_, _, heq, _⟩ => by simp at heq, fun h => by cases h⟩
  | append_singleton ks j ih =>
      rw [List.map_append, List.map_singleton, latest_append, ih, List.mem_append, List.mem_singleton,
        Prod.mk.injEq]
      by_cases heq : k = j
      · exact ⟨fun _ => .inr heq, fun _ => .inl ⟨heq, rfl⟩⟩
      · exact ⟨fun h => h.elim (fun h => absurd h.1 heq) fun h => .inl h.2,
          fun h => h.elim (fun h => .inr ⟨heq, h⟩) fun h => absurd h heq⟩

namespace SortedMap

def pushAll (n : Nat) (ps : List (κ × ν)) : SortedMap κ ν := ps.foldl (fun m p => m.push n p.1 p.2) empty

/-- A map that is filled without a limit. -/
def insertAll (ps : List (κ × ν)) : SortedMap κ ν := ps.foldl (fun m p => m.insert p.1 p.2) empty

theorem pushAll_append (n : Nat) (ps : List (κ × ν)) (p : κ × ν) :
    (pushAll n (ps ++ [p]) : SortedMap κ ν) = (pushAll n ps).push n p.1 p.2 :=
  List.foldl_append

theorem insertAll_append (ps : List (κ × ν)) (p : κ × ν) :
    (insertAll (ps ++ [p]) : SortedMap κ ν) = (insertAll ps).insert p.1 p.2 :=
  List.foldl_append

theorem entries_push {n : Nat} {m : SortedMap κ ν} (hm : m.entries.length ≤ n) (k : κ) (v : ν) :
    (m.push n k v).entries = (insertEntry k v m.entries).take n := by
  have hlen := length_insertEntry_le k v m.entries
  unfold push
  split
  · next hlong =>
      have hsucc : (insertEntry k v m.entries).length - 1 = n := by
        have hlong : n < (insertEntry k v m.entries).length := hlong
        omega
      show (insertEntry k v m.entries).dropLast = _
      rw [List.dropLast_eq_take, hsucc]
  · next hshort =>
      exact (List.take_of_length_le (not_lt.mp hshort)).symm

/-- **The limit is no loss**: what is kept is the front of what a map without a limit has. -/
theorem entries_pushAll (n : Nat) (ps : List (κ × ν)) :
    (pushAll n ps : SortedMap κ ν).entries = (insertAll ps).entries.take n := by
  induction ps using List.reverseRecOn with
  | nil => exact List.take_nil.symm
  | append_singleton ps p ih =>
      have hbounded : (pushAll n ps : SortedMap κ ν).entries.length ≤ n := by
        rw [ih]
        exact List.length_take_le _ _
      rw [pushAll_append, insertAll_append, entries_push hbounded, ih]
      exact take_insertEntry_take n p.1 p.2 _

theorem mem_insertAll {ps : List (κ × ν)} {k : κ} {v : ν} :
    (k, v) ∈ (insertAll ps : SortedMap κ ν).entries ↔ Latest ps k v := by
  induction ps using List.reverseRecOn with
  | nil => exact ⟨nofun, fun ⟨front, rest, heq, _⟩ => by simp at heq⟩
  | append_singleton ps p ih =>
      rw [insertAll_append, latest_append, ← ih]
      exact mem_insertEntry (insertAll ps).sorted

theorem keys_insertAll (ps : List (κ × ν)) :
    ((insertAll ps : SortedMap κ ν).entries.map Prod.fst).toFinset = (ps.map Prod.fst).toFinset := by
  induction ps using List.reverseRecOn with
  | nil => rfl
  | append_singleton ps p ih =>
      ext k
      have hk := Finset.ext_iff.mp ih k
      simp only [List.mem_toFinset, List.mem_map] at hk ⊢
      rw [insertAll_append]
      constructor
      · rintro ⟨e, he, rfl⟩
        rcases (mem_insertEntry (insertAll ps).sorted).mp he with rfl | ⟨-, he⟩
        · exact ⟨p, List.mem_append_right _ (List.mem_singleton_self p), rfl⟩
        · obtain ⟨d, hd, heq⟩ := hk.mp ⟨e, he, rfl⟩
          exact ⟨d, List.mem_append_left _ hd, heq⟩
      · rintro ⟨d, hd, rfl⟩
        by_cases heq : d.1 = p.1
        · exact ⟨(p.1, p.2), (mem_insertEntry (insertAll ps).sorted).mpr (.inl rfl), heq.symm⟩
        · rcases List.mem_append.mp hd with hd | hd
          · obtain ⟨e, he, hkey⟩ := hk.mpr ⟨d, hd, rfl⟩
            exact ⟨e, (mem_insertEntry (insertAll ps).sorted).mpr (.inr ⟨hkey ▸ heq, he⟩), hkey⟩
          · exact absurd (congrArg Prod.fst (List.mem_singleton.mp hd)) heq

/-- **What is kept of many pushes**: the `n` least of the keys that were pushed, each with the value of its last
push. -/
theorem mem_pushAll_iff {n : Nat} {ps : List (κ × ν)} {k : κ} {v : ν} :
    (k, v) ∈ (pushAll n ps : SortedMap κ ν).entries ↔
      Latest ps k v ∧ ((ps.map Prod.fst).toFinset.filter (· < k)).card < n := by
  rw [entries_pushAll, mem_take_iff, mem_insertAll, keys_insertAll]

end SortedMap

/-! ### Windows -/

variable {α : Type*}

/-- Append a value, after dropping the first one if there are `n`. -/
def slide (n : Nat) (q : List α) (x : α) : List α := (if n ≤ q.length then q.tail else q) ++ [x]

/-- **A window** has the last values that were pushed; one without room still has the last. -/
theorem foldl_slide (n : Nat) (xs : List α) : xs.foldl (slide n) [] = xs.drop (xs.length - max n 1) := by
  induction xs using List.reverseRecOn with
  | nil => exact List.drop_nil.symm
  | append_singleton xs x ih =>
      rw [List.foldl_append, List.foldl_cons, List.foldl_nil, ih, List.length_append, List.length_singleton]
      unfold slide
      by_cases hfull : max n 1 ≤ xs.length
      · have hlen : n ≤ (xs.drop (xs.length - max n 1)).length := by
          rw [List.length_drop]
          omega
        rw [if_pos hlen, List.tail_drop, List.drop_append_of_le_length (by omega)]
        congr 2
        omega
      · have hall : xs.length - max n 1 = 0 := by omega
        have hnone : xs.length + 1 - max n 1 = 0 := by omega
        rw [hall, hnone, List.drop_zero, List.drop_zero]
        split
        · next hle =>
            have hnil : xs = [] := List.length_eq_zero_iff.mp (by omega)
            rw [hnil]
            rfl
        · rfl

end Rankings

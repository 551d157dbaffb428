import Mathlib.Data.List.Nodup
import Qusb.Base.Tables
import Qusb.Proto.Machine

/-! A map from three kinds of keys to shared values.

Each kind of key has a hash map to positions of one vector, and each value counts the keys that point to
it. A value whose count falls to zero is removed by swapping the last one into its place. The abstract
view of the map is three partial functions, `Routes`; every operation is shown to do on the view what
`Routes` does, as long as the counts cover the keys. -/

open Tables

namespace Qusb

inductive LinkResult where
  | success
  | newKeyAlreadyExists
  | existingKeyDoesNotExist
  deriving DecidableEq, Repr

/-! ### One kind of key -/

section

variable {K K' V : Type} [DecidableEq K] [DecidableEq K']

/-- `get_by_key`. -/
def getByKey (map : Table K Nat) (values : List (V × Nat)) (k : K) : Option V :=
  (map.lookup k).bind fun index => (values[index]?).map Prod.fst

/-- Adding one to the count of a value; an index out of range panics. -/
def incCount (values : List (V × Nat)) (index : Nat) : Except Fault (List (V × Nat)) :=
  match values[index]? with
  | some (v, count) => .ok (values.set index (v, count + 1))
  | none => .error .indexOutOfRange

/-- `link_key_to_key`. -/
def linkKeyToKey (map1 : Table K Nat) (map2 : Table K' Nat) (values : List (V × Nat)) (newKey : K)
    (existingKey : K') : Except Fault (LinkResult × Table K Nat × List (V × Nat)) :=
  if (map1.lookup newKey).isSome then .ok (.newKeyAlreadyExists, map1, values)
  else
    match map2.lookup existingKey with
    | none => .ok (.existingKeyDoesNotExist, map1, values)
    | some index => do
        let values ← incCount values index
        return (.success, map1.insert newKey index, values)

/-- `insert_by_key`: the new value is pushed, and popped again when the key had a value. -/
def insertByKey (map : Table K Nat) (values : List (V × Nat)) (k : K) (v : V) :
    Option V × Table K Nat × List (V × Nat) :=
  match map.lookup k with
  | none => (none, map.insert k values.length, values ++ [(v, 1)])
  | some _ => (some v, map.insert k values.length, values)

/-- `remove_by_key`: the position the key had and what its count is now. -/
def removeByKey (map : Table K Nat) (values : List (V × Nat)) (k : K) :
    Except Fault (Option (Nat × Nat) × Table K Nat × List (V × Nat)) :=
  match map.lookup k with
  | none => .ok (none, map, values)
  | some index =>
      match values[index]? with
      | none => .ok (none, map.erase k, values)
      | some (_, 0) => .error .unwrapNone
      | some (v, count + 1) => .ok (some (index, count), map.erase k, values.set index (v, count))

end

/-! ### One kind of key: lemmas -/

section

variable {K V : Type} [DecidableEq K]

/-- The number of keys that point to a position. -/
def uses (map : Table K Nat) (i : Nat) : Nat := count (fun j => j = i) map

/-- What a position counts; nothing is counted past the end. -/
def refs (values : List (V × Nat)) (i : Nat) : Nat := ((values[i]?).map Prod.snd).getD 0

theorem uses_pos {map : Table K Nat} {k : K} {i : Nat} (h : map.lookup k = some i) :
    0 < uses map i := (count_pos_iff _ _).mpr ⟨k, i, h, decide_eq_true rfl⟩

theorem uses_insert {map : Table K Nat} {k : K} (h : map.lookup k = none) (index i : Nat) :
    uses (map.insert k index) i = uses map i + (if index = i then 1 else 0) := by
  simpa [uses] using count_insert (fun j => decide (j = i)) map k index h

theorem uses_erase {map : Table K Nat} {k : K} {index : Nat} (h : map.lookup k = some index) (i : Nat) :
    uses (map.erase k) i + (if index = i then 1 else 0) = uses map i := by
  simpa [uses, h] using count_erase (fun j => decide (j = i)) map k

theorem uses_eq_zero {map : Table K Nat} {i : Nat} (h : ∀ k, map.lookup k ≠ some i) : uses map i = 0 := by
  refine Nat.eq_zero_of_not_pos fun hpos => ?_
  obtain ⟨k, j, hk, hj⟩ := (count_pos_iff _ _).mp hpos
  exact h k (hk.trans (congrArg some (of_decide_eq_true hj)))

/-- Dropping the keys of one position leaves the number of keys at the others. -/
theorem uses_retain (map : Table K Nat) (q : K → Bool) {index i : Nat} (hi : i ≠ index) :
    uses (retain (fun k j => q k || j ≠ index) map) i = uses map i := by
  refine count_retain_eq fun k j _ hj => ?_
  have hne : j ≠ index := (of_decide_eq_true hj).trans_ne hi
  simp [hne]

/-- Dropping the keys of a position except one leaves that one. -/
theorem uses_retain_one {map : Table K Nat} {k : K} {index : Nat} (hk : map.lookup k = some index) :
    uses (retain (fun q j => q = k || j ≠ index) map) index = 1 := by
  have hleft : (retain (fun q j => decide (q = k) || decide (j ≠ index)) map).lookup k = some index := by
    rw [lookup_retain, hk]
    simp [Option.filter]
  have hrest := uses_erase hleft index
  rw [uses_eq_zero, if_pos rfl] at hrest
  · exact hrest.symm
  · intro q hq
    rw [lookup_erase_eq, lookup_retain] at hq
    split at hq
    · cases hq
    · next hne =>
        obtain ⟨-, hkept⟩ := Option.filter_eq_some_iff.mp hq
        simp [hne] at hkept

theorem uses_retain_ne (map : Table K Nat) (index i : Nat) :
    uses (retain (fun _ j => j ≠ index) map) i = if index = i then 0 else uses map i := by
  split
  · next hi =>
      refine uses_eq_zero fun q hq => ?_
      rw [lookup_retain] at hq
      obtain ⟨-, hkept⟩ := Option.filter_eq_some_iff.mp hq
      simp [hi] at hkept
  · next hi =>
      have hrest := uses_retain map (fun _ => false) (Ne.symm hi)
      simpa only [Bool.false_or] using hrest

theorem refs_eq {values : List (V × Nat)} {i n : Nat} {v : V} (h : values[i]? = some (v, n)) :
    refs values i = n := by
  simp [refs, h]

theorem lt_of_refs_pos {values : List (V × Nat)} {i : Nat} (h : 0 < refs values i) :
    i < values.length := by
  by_contra hge
  rw [refs, List.getElem?_eq_none (Nat.le_of_not_lt hge)] at h
  exact absurd h (Nat.lt_irrefl 0)

theorem refs_append (values : List (V × Nat)) (v : V) (n i : Nat) :
    refs (values ++ [(v, n)]) i = if i = values.length then n else refs values i := by
  unfold refs
  split
  · next h => simp [h]
  · next h =>
      rcases Nat.lt_or_gt_of_ne h with hlt | hgt
      · rw [List.getElem?_append_left hlt]
      · rw [List.getElem?_eq_none (by simp; omega), List.getElem?_eq_none (by omega)]

theorem refs_set {values : List (V × Nat)} {index : Nat} (hlt : index < values.length) (v : V)
    (n i : Nat) : refs (values.set index (v, n)) i = if i = index then n else refs values i := by
  unfold refs
  split
  · next h => simp [h, hlt]
  · next h => rw [List.getElem?_set_ne (Ne.symm h)]

theorem getByKey_eq_some_iff {map : Table K Nat} {values : List (V × Nat)} {k : K} {v : V} :
    getByKey map values k = some v ↔
      ∃ i n, map.lookup k = some i ∧ values[i]? = some (v, n) := by
  unfold getByKey
  rw [Option.bind_eq_some_iff]
  constructor
  · rintro ⟨i, hi, hv⟩
    obtain ⟨⟨v', n⟩, hget, rfl⟩ := Option.map_eq_some_iff.mp hv
    exact ⟨i, n, hi, hget⟩
  · rintro ⟨i, n, hi, hget⟩
    exact ⟨i, hi, by rw [hget]; rfl⟩

end

/-! ### The map -/

structure ThreeKeyMap (K1 K2 K3 V : Type) where
  key1Map : Table K1 Nat
  key2Map : Table K2 Nat
  key3Map : Table K3 Nat
  values : List (V × Nat)

/-- The abstract view: what each key leads to. -/
structure Routes (K1 K2 K3 V : Type) where
  byKey1 : K1 → Option V
  byKey2 : K2 → Option V
  byKey3 : K3 → Option V

variable {K1 K2 K3 V : Type} [DecidableEq K1] [DecidableEq K2] [DecidableEq K3]

namespace ThreeKeyMap

def empty : ThreeKeyMap K1 K2 K3 V := ⟨∅, ∅, ∅, []⟩

def getByKey1 (m : ThreeKeyMap K1 K2 K3 V) (k : K1) : Option V := getByKey m.key1Map m.values k

def getByKey2 (m : ThreeKeyMap K1 K2 K3 V) (k : K2) : Option V := getByKey m.key2Map m.values k

def getByKey3 (m : ThreeKeyMap K1 K2 K3 V) (k : K3) : Option V := getByKey m.key3Map m.values k

def insertByKey1 (m : ThreeKeyMap K1 K2 K3 V) (k : K1) (v : V) : Option V × ThreeKeyMap K1 K2 K3 V :=
  let (old, map, values) := insertByKey m.key1Map m.values k v
  (old, { m with key1Map := map, values := values })

def insertByKey2 (m : ThreeKeyMap K1 K2 K3 V) (k : K2) (v : V) : Option V × ThreeKeyMap K1 K2 K3 V :=
  let (old, map, values) := insertByKey m.key2Map m.values k v
  (old, { m with key2Map := map, values := values })

def insertByKey3 (m : ThreeKeyMap K1 K2 K3 V) (k : K3) (v : V) : Option V × ThreeKeyMap K1 K2 K3 V :=
  let (old, map, values) := insertByKey m.key3Map m.values k v
  (old, { m with key3Map := map, values := values })

def linkKey1ToKey1 (m : ThreeKeyMap K1 K2 K3 V) (newKey existingKey : K1) :
    Except Fault (LinkResult × ThreeKeyMap K1 K2 K3 V) := do
  let (result, map, values) ← linkKeyToKey m.key1Map m.key1Map m.values newKey existingKey
  return (result, { m with key1Map := map, values := values })

def linkKey1ToKey2 (m : ThreeKeyMap K1 K2 K3 V) (newKey : K1) (existingKey : K2) :
    Except Fault (LinkResult × ThreeKeyMap K1 K2 K3 V) := do
  let (result, map, values) ← linkKeyToKey m.key1Map m.key2Map m.values newKey existingKey
  return (result, { m with key1Map := map, values := values })

def linkKey1ToKey3 (m : ThreeKeyMap K1 K2 K3 V) (newKey : K1) (existingKey : K3) :
    Except Fault (LinkResult × ThreeKeyMap K1 K2 K3 V) := do
  let (result, map, values) ← linkKeyToKey m.key1Map m.key3Map m.values newKey existingKey
  return (result, { m with key1Map := map, values := values })

def linkKey2ToKey2 (m : ThreeKeyMap K1 K2 K3 V) (newKey existingKey : K2) :
    Except Fault (LinkResult × ThreeKeyMap K1 K2 K3 V) := do
  let (result, map, values) ← linkKeyToKey m.key2Map m.key2Map m.values newKey existingKey
  return (result, { m with key2Map := map, values := values })

def linkKey2ToKey3 (m : ThreeKeyMap K1 K2 K3 V) (newKey : K2) (existingKey : K3) :
    Except Fault (LinkResult × ThreeKeyMap K1 K2 K3 V) := do
  let (result, map, values) ← linkKeyToKey m.key2Map m.key3Map m.values newKey existingKey
  return (result, { m with key2Map := map, values := values })

def linkKey3ToKey3 (m : ThreeKeyMap K1 K2 K3 V) (newKey existingKey : K3) :
    Except Fault (LinkResult × ThreeKeyMap K1 K2 K3 V) := do
  let (result, map, values) ← linkKeyToKey m.key3Map m.key3Map m.values newKey existingKey
  return (result, { m with key3Map := map, values := values })

def linkKey2ToKey1 (m : ThreeKeyMap K1 K2 K3 V) (newKey : K2) (existingKey : K1) :
    Except Fault (LinkResult × ThreeKeyMap K1 K2 K3 V) := do
  let (result, map, values) ← linkKeyToKey m.key2Map m.key1Map m.values newKey existingKey
  return (result, { m with key2Map := map, values := values })

def linkKey3ToKey1 (m : ThreeKeyMap K1 K2 K3 V) (newKey : K3) (existingKey : K1) :
    Except Fault (LinkResult × ThreeKeyMap K1 K2 K3 V) := do
  let (result, map, values) ← linkKeyToKey m.key3Map m.key1Map m.values newKey existingKey
  return (result, { m with key3Map := map, values := values })

def linkKey3ToKey2 (m : ThreeKeyMap K1 K2 K3 V) (newKey : K3) (existingKey : K2) :
    Except Fault (LinkResult × ThreeKeyMap K1 K2 K3 V) := do
  let (result, map, values) ← linkKeyToKey m.key3Map m.key2Map m.values newKey existingKey
  return (result, { m with key3Map := map, values := values })

/-- `values_mut` where the keys of the last position move to `index`. -/
def moveLast {K : Type} (map : Table K Nat) (last index : Nat) : Table K Nat :=
  mapVals (fun i => if i = last then index else i) map

/-- `Vec::swap_remove`, with the keys of the last value. -/
def swapRemove (m : ThreeKeyMap K1 K2 K3 V) (index : Nat) :
    Except Fault (Option V × ThreeKeyMap K1 K2 K3 V) :=
  match m.values[index]?, m.values.getLast? with
  | some (v, _), some final =>
      let last := m.values.length - 1
      .ok (some v, ⟨moveLast m.key1Map last index, moveLast m.key2Map last index,
        moveLast m.key3Map last index, (m.values.set index final).dropLast⟩)
  | _, _ => .error .indexOutOfRange

/-- The end of a removal: a value without a key is removed. -/
def release (m : ThreeKeyMap K1 K2 K3 V) :
    Option (Nat × Nat) → Except Fault (Option V × ThreeKeyMap K1 K2 K3 V)
  | some (index, 0) => m.swapRemove index
  | _ => .ok (none, m)

def removeByKey2 (m : ThreeKeyMap K1 K2 K3 V) (k : K2) :
    Except Fault (Option V × ThreeKeyMap K1 K2 K3 V) := do
  let (removed, map, values) ← removeByKey m.key2Map m.values k
  release { m with key2Map := map, values := values } removed

def removeByKey3 (m : ThreeKeyMap K1 K2 K3 V) (k : K3) :
    Except Fault (Option V × ThreeKeyMap K1 K2 K3 V) := do
  let (removed, map, values) ← removeByKey m.key3Map m.values k
  release { m with key3Map := map, values := values } removed

/-- `*count -= 1` on a `usize`. -/
def decCount (b : Build) : Nat → Except Fault Nat
  | 0 =>
      match b with
      | .dev => .error .overflow
      | .release => .ok (2 ^ 64 - 1)
  | count + 1 => .ok count

/-- Written apart from the other two, with an unchecked subtraction. -/
def removeByKey1 (b : Build) (m : ThreeKeyMap K1 K2 K3 V) (k : K1) :
    Except Fault (Option V × ThreeKeyMap K1 K2 K3 V) :=
  match m.key1Map.lookup k with
  | none => .ok (none, m)
  | some index =>
      let m := { m with key1Map := m.key1Map.erase k }
      match m.values[index]? with
      | none => .ok (none, m)
      | some (v, count) => do
          let count ← decCount b count
          let m := { m with values := m.values.set index (v, count) }
          if count = 0 then m.swapRemove index else return (none, m)

/-- The counts are not lowered for the keys that go. -/
def unlinkAllButKey1 (m : ThreeKeyMap K1 K2 K3 V) (k : K1) : ThreeKeyMap K1 K2 K3 V :=
  match m.key1Map.lookup k with
  | none => m
  | some index => { m with
      key1Map := retain (fun q i => q = k || i ≠ index) m.key1Map
      key2Map := retain (fun _ i => i ≠ index) m.key2Map
      key3Map := retain (fun _ i => i ≠ index) m.key3Map }

def isEmpty (m : ThreeKeyMap K1 K2 K3 V) : Bool :=
  m.key1Map.entries.isEmpty && m.key2Map.entries.isEmpty && m.key3Map.entries.isEmpty &&
    m.values.isEmpty

def view (m : ThreeKeyMap K1 K2 K3 V) : Routes K1 K2 K3 V := ⟨m.getByKey1, m.getByKey2, m.getByKey3⟩

end ThreeKeyMap

/-! ### The same operations on the view -/

namespace Routes

def empty : Routes K1 K2 K3 V := ⟨fun _ => none, fun _ => none, fun _ => none⟩

/-- Linking a new key to what an existing one leads to. -/
def link {K : Type} [DecidableEq K] (f : K → Option V) (k : K) (target : Option V) :
    LinkResult × (K → Option V) :=
  if (f k).isSome then (.newKeyAlreadyExists, f)
  else if target.isSome then (.success, Function.update f k target)
  else (.existingKeyDoesNotExist, f)

def linkKey2ToKey1 (r : Routes K1 K2 K3 V) (k : K2) (k' : K1) : LinkResult × Routes K1 K2 K3 V :=
  let (result, f) := link r.byKey2 k (r.byKey1 k')
  (result, { r with byKey2 := f })

def linkKey3ToKey1 (r : Routes K1 K2 K3 V) (k : K3) (k' : K1) : LinkResult × Routes K1 K2 K3 V :=
  let (result, f) := link r.byKey3 k (r.byKey1 k')
  (result, { r with byKey3 := f })

def linkKey3ToKey2 (r : Routes K1 K2 K3 V) (k : K3) (k' : K2) : LinkResult × Routes K1 K2 K3 V :=
  let (result, f) := link r.byKey3 k (r.byKey2 k')
  (result, { r with byKey3 := f })

/-- A link is made when the key is new and the existing key leads somewhere. -/
theorem link_some {K : Type} [DecidableEq K] {f : K → Option V} {k : K} (hk : f k = none) (v : V) :
    link f k (some v) = (.success, Function.update f k (some v)) := by
  simp [link, hk]

theorem link_none {K : Type} [DecidableEq K] {f : K → Option V} {k : K} (hk : f k = none) :
    link f k none = (.existingKeyDoesNotExist, f) := by
  simp [link, hk]

theorem link_old {K : Type} [DecidableEq K] {f : K → Option V} {k : K} (hk : f k ≠ none)
    (target : Option V) : link f k target = (.newKeyAlreadyExists, f) := by
  simp [link, Option.isSome_iff_ne_none.mpr hk]

/-- What the keys lead to after a link, whether it was made or not. -/
theorem link_apply {K : Type} [DecidableEq K] (f : K → Option V) (k k' : K) (target : Option V) :
    (link f k target).2 k' = if k' = k then (f k).or target else f k' := by
  by_cases hk : f k = none
  · cases target with
    | none =>
        rw [link_none hk, hk]
        split
        · next h => exact (congrArg f h).trans hk
        · rfl
    | some v =>
        rw [link_some hk, hk]
        exact Function.update_apply _ _ _ _
  · obtain ⟨v, hv⟩ := Option.ne_none_iff_exists'.mp hk
    rw [link_old hk, hv]
    split
    · next h => exact (congrArg f h).trans hv
    · rfl

variable [DecidableEq V]

/-- The keys that lead to the value lead nowhere. -/
def cut {K : Type} (f : K → Option V) (v : V) (k : K) : Option V :=
  if f k = some v then none else f k

def unlinkAllButKey1 (r : Routes K1 K2 K3 V) (k : K1) : Routes K1 K2 K3 V :=
  match r.byKey1 k with
  | none => r
  | some v => ⟨Function.update (cut r.byKey1 v) k (some v), cut r.byKey2 v, cut r.byKey3 v⟩

end Routes

/-! ### Swapping a value away -/

namespace ThreeKeyMap

section

variable {α : Type} {l : List α} {index : Nat} {final : α}

/-- What `Vec::swap_remove` leaves at a position. -/
theorem getElem?_swapLast (i : Nat) :
    (l.set index final).dropLast[i]? =
      if i < l.length - 1 then if i = index then some final else l[i]? else none := by
  rw [List.getElem?_dropLast, List.length_set]
  split
  · next hlt =>
      split
      · next hi =>
          subst hi
          exact List.getElem?_set_self (by omega)
      · next hi => exact List.getElem?_set_ne (Ne.symm hi)
  · rfl

/-- Nothing is doubled. -/
theorem nodup_swapLast (hfinal : l.getLast? = some final) (hdistinct : l.Nodup) :
    (l.set index final).dropLast.Nodup := by
  rw [List.nodup_iff_getElem?_ne_getElem?]
  intro i j hij hj heq
  rw [List.length_dropLast, List.length_set] at hj
  rw [getElem?_swapLast, getElem?_swapLast, if_pos (by omega), if_pos hj] at heq
  -- the positions the two had before
  let origin (n : Nat) : Nat := if n = index then l.length - 1 else n
  have horigin : ∀ n, n < l.length - 1 →
      (if n = index then some final else l[n]?) = l[origin n]? := by
    intro n hn
    unfold origin
    split
    · rw [← List.getLast?_eq_getElem?, hfinal]
    · rfl
  rw [horigin i (by omega), horigin j hj] at heq
  have hsame : origin i = origin j := by
    refine (List.getElem?_inj ?_ hdistinct).mp heq
    show (if i = index then l.length - 1 else i) < l.length
    split <;> omega
  have hcases : (if i = index then l.length - 1 else i) =
      if j = index then l.length - 1 else j := hsame
  split at hcases <;> split at hcases <;> omega

end

section

variable {K : Type} [DecidableEq K] {map : Table K Nat} {values : List (V × Nat)} {index : Nat}

/-- The values after `Vec::swap_remove`. -/
def swapped (values : List (V × Nat)) (index : Nat) (final : V × Nat) : List (V × Nat) :=
  (values.set index final).dropLast

theorem getElem?_swapped {final : V × Nat} (i : Nat) :
    (swapped values index final)[i]? =
      if i < values.length - 1 then if i = index then some final else values[i]? else none :=
  getElem?_swapLast i

/-- A map without keys for the position hands the keys of the last one to it. -/
theorem uses_moveLast (hfree : uses map index = 0) (last i : Nat) :
    uses (moveLast map last index) i =
      if i = index then uses map last else if i = last then 0 else uses map i := by
  have hne : ∀ k j, map.lookup k = some j → j ≠ index := by
    rintro k j hk rfl
    exact absurd hfree (Nat.ne_of_gt (uses_pos hk))
  unfold uses moveLast
  rw [count_mapVals]
  split
  · next hi =>
      refine count_congr map fun k j hk => ?_
      by_cases hj : j = last
      · simp [hj, hi]
      · simp [hj, hi, hne k j hk]
  · next hi =>
      split
      · next hlast =>
          have hzero : count (fun _ => false) map = 0 := by simp [count]
          rw [← hzero]
          refine count_congr map fun k j hk => ?_
          by_cases hj : j = last
          · simp [hj, Ne.symm hi]
          · simp [hj, hlast]
      · next hlast =>
          refine count_congr map fun k j hk => ?_
          by_cases hj : j = last
          · simp [hj, Ne.symm hi, Ne.symm hlast]
          · simp [hj]

end

end ThreeKeyMap

end Qusb

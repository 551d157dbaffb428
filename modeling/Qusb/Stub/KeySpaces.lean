import Qusb.Base.Runs
import Qusb.Stub.ThreeKeyMap

/-! The operations of the map, for a key of any kind.

The source writes each operation out for every kind of key, or pair of kinds. Here a key carries its kind,
and the operations of one family are one function of it; `apply` names the source's operations. An
operation is described by what it does to the position of each key, to the number of keys at each position
and to the values. -/

open Tables

namespace Qusb

inductive KeySpace where
  | key1
  | key2
  | key3
  deriving DecidableEq, Repr

/-- The keys of a kind. -/
@[reducible] def KeySpace.Key (K1 K2 K3 : Type) : KeySpace → Type
  | .key1 => K1
  | .key2 => K2
  | .key3 => K3

instance {K1 K2 K3 : Type} [DecidableEq K1] [DecidableEq K2] [DecidableEq K3] :
    (space : KeySpace) → DecidableEq (space.Key K1 K2 K3)
  | .key1 => inferInstanceAs (DecidableEq K1)
  | .key2 => inferInstanceAs (DecidableEq K2)
  | .key3 => inferInstanceAs (DecidableEq K3)

/-- A key of any kind. -/
abbrev AnyKey (K1 K2 K3 : Type) := Σ space : KeySpace, space.Key K1 K2 K3

inductive MapOp (K1 K2 K3 V : Type) where
  | insert (k : AnyKey K1 K2 K3) (v : V)
  | link (newKey existingKey : AnyKey K1 K2 K3)
  | remove (k : AnyKey K1 K2 K3)
  | unlinkAllButKey1 (k : K1)

variable {K1 K2 K3 V : Type} [DecidableEq K1] [DecidableEq K2] [DecidableEq K3]

namespace ThreeKeyMap

def getBy (m : ThreeKeyMap K1 K2 K3 V) : AnyKey K1 K2 K3 → Option V
  | ⟨.key1, k⟩ => m.getByKey1 k
  | ⟨.key2, k⟩ => m.getByKey2 k
  | ⟨.key3, k⟩ => m.getByKey3 k

def insertBy (m : ThreeKeyMap K1 K2 K3 V) (k : AnyKey K1 K2 K3) (v : V) :
    Option V × ThreeKeyMap K1 K2 K3 V :=
  match k with
  | ⟨.key1, k⟩ => m.insertByKey1 k v
  | ⟨.key2, k⟩ => m.insertByKey2 k v
  | ⟨.key3, k⟩ => m.insertByKey3 k v

def linkTo (m : ThreeKeyMap K1 K2 K3 V) (newKey existingKey : AnyKey K1 K2 K3) :
    Except Fault (LinkResult × ThreeKeyMap K1 K2 K3 V) :=
  match newKey, existingKey with
  | ⟨.key1, k⟩, ⟨.key1, k'⟩ => m.linkKey1ToKey1 k k'
  | ⟨.key1, k⟩, ⟨.key2, k'⟩ => m.linkKey1ToKey2 k k'
  | ⟨.key1, k⟩, ⟨.key3, k'⟩ => m.linkKey1ToKey3 k k'
  | ⟨.key2, k⟩, ⟨.key1, k'⟩ => m.linkKey2ToKey1 k k'
  | ⟨.key2, k⟩, ⟨.key2, k'⟩ => m.linkKey2ToKey2 k k'
  | ⟨.key2, k⟩, ⟨.key3, k'⟩ => m.linkKey2ToKey3 k k'
  | ⟨.key3, k⟩, ⟨.key1, k'⟩ => m.linkKey3ToKey1 k k'
  | ⟨.key3, k⟩, ⟨.key2, k'⟩ => m.linkKey3ToKey2 k k'
  | ⟨.key3, k⟩, ⟨.key3, k'⟩ => m.linkKey3ToKey3 k k'

def removeBy (b : Build) (m : ThreeKeyMap K1 K2 K3 V) :
    AnyKey K1 K2 K3 → Except Fault (Option V × ThreeKeyMap K1 K2 K3 V)
  | ⟨.key1, k⟩ => m.removeByKey1 b k
  | ⟨.key2, k⟩ => m.removeByKey2 k
  | ⟨.key3, k⟩ => m.removeByKey3 k

/-- One operation; what it returns is dropped. -/
def apply (b : Build) (m : ThreeKeyMap K1 K2 K3 V) :
    MapOp K1 K2 K3 V → Except Fault (ThreeKeyMap K1 K2 K3 V)
  | .insert k v => .ok (m.insertBy k v).2
  | .link k k' => (m.linkTo k k').map Prod.snd
  | .remove k => (m.removeBy b k).map Prod.snd
  | .unlinkAllButKey1 k => .ok (m.unlinkAllButKey1 k)

/-! ### Positions -/

/-- The position of a key. -/
def index (m : ThreeKeyMap K1 K2 K3 V) : AnyKey K1 K2 K3 → Option Nat
  | ⟨.key1, k⟩ => m.key1Map.lookup k
  | ⟨.key2, k⟩ => m.key2Map.lookup k
  | ⟨.key3, k⟩ => m.key3Map.lookup k

/-- The number of keys at a position. -/
def keysAt (m : ThreeKeyMap K1 K2 K3 V) (i : Nat) : Nat :=
  uses m.key1Map i + (uses m.key2Map i + uses m.key3Map i)

/-- The value of a key is the one at its position. -/
theorem getBy_eq (m : ThreeKeyMap K1 K2 K3 V) (k : AnyKey K1 K2 K3) :
    m.getBy k = (m.index k).bind fun i => (m.values[i]?).map Prod.fst := by
  obtain ⟨space, k⟩ := k
  cases space <;> rfl

theorem keysAt_pos_iff (m : ThreeKeyMap K1 K2 K3 V) (i : Nat) :
    0 < m.keysAt i ↔ ∃ k, m.index k = some i := by
  have huses : ∀ {K : Type} [DecidableEq K] (map : Table K Nat),
      0 < uses map i ↔ ∃ k, map.lookup k = some i := by
    intro K _ map
    simp [uses, count_pos_iff]
  constructor
  · intro h
    have hcase : 0 < uses m.key1Map i ∨ 0 < uses m.key2Map i ∨ 0 < uses m.key3Map i := by
      unfold keysAt at h
      omega
    rcases hcase with h | h | h
    · obtain ⟨k, hk⟩ := (huses _).mp h
      exact ⟨⟨.key1, k⟩, hk⟩
    · obtain ⟨k, hk⟩ := (huses _).mp h
      exact ⟨⟨.key2, k⟩, hk⟩
    · obtain ⟨k, hk⟩ := (huses _).mp h
      exact ⟨⟨.key3, k⟩, hk⟩
  · rintro ⟨⟨space, k⟩, hk⟩
    unfold keysAt
    cases space with
    | key1 =>
        have := (huses m.key1Map).mpr ⟨k, hk⟩
        omega
    | key2 =>
        have := (huses m.key2Map).mpr ⟨k, hk⟩
        omega
    | key3 =>
        have := (huses m.key3Map).mpr ⟨k, hk⟩
        omega

/-! ### A change of one key -/

def setIndex (m : ThreeKeyMap K1 K2 K3 V) (k : AnyKey K1 K2 K3) (i : Nat) : ThreeKeyMap K1 K2 K3 V :=
  match k with
  | ⟨.key1, k⟩ => { m with key1Map := m.key1Map.insert k i }
  | ⟨.key2, k⟩ => { m with key2Map := m.key2Map.insert k i }
  | ⟨.key3, k⟩ => { m with key3Map := m.key3Map.insert k i }

def eraseIndex (m : ThreeKeyMap K1 K2 K3 V) (k : AnyKey K1 K2 K3) : ThreeKeyMap K1 K2 K3 V :=
  match k with
  | ⟨.key1, k⟩ => { m with key1Map := m.key1Map.erase k }
  | ⟨.key2, k⟩ => { m with key2Map := m.key2Map.erase k }
  | ⟨.key3, k⟩ => { m with key3Map := m.key3Map.erase k }

def setValues (m : ThreeKeyMap K1 K2 K3 V) (values : List (V × Nat)) : ThreeKeyMap K1 K2 K3 V :=
  { m with values := values }

section

variable {m : ThreeKeyMap K1 K2 K3 V} {k : AnyKey K1 K2 K3}

@[simp] theorem setIndex_values (i : Nat) : (m.setIndex k i).values = m.values := by
  obtain ⟨space, k⟩ := k
  cases space <;> rfl

@[simp] theorem eraseIndex_values : (m.eraseIndex k).values = m.values := by
  obtain ⟨space, k⟩ := k
  cases space <;> rfl

omit [DecidableEq K1] [DecidableEq K2] [DecidableEq K3] in
@[simp] theorem setValues_values (values : List (V × Nat)) : (m.setValues values).values = values := rfl

@[simp] theorem setValues_index (values : List (V × Nat)) : (m.setValues values).index = m.index := by
  funext ⟨space, k⟩
  cases space <;> rfl

omit [DecidableEq K1] [DecidableEq K2] [DecidableEq K3] in
@[simp] theorem setValues_keysAt (values : List (V × Nat)) (i : Nat) :
    (m.setValues values).keysAt i = m.keysAt i := rfl

@[simp] theorem setIndex_index (i : Nat) : (m.setIndex k i).index = Function.update m.index k (some i) := by
  funext ⟨space', k'⟩
  obtain ⟨space, k⟩ := k
  cases space <;> cases space' <;>
    simp [setIndex, index, lookup_insert_eq, Function.update_apply]

@[simp] theorem eraseIndex_index : (m.eraseIndex k).index = Function.update m.index k none := by
  funext ⟨space', k'⟩
  obtain ⟨space, k⟩ := k
  cases space <;> cases space' <;>
    simp [eraseIndex, index, lookup_erase_eq, Function.update_apply]

theorem setIndex_keysAt (hk : m.index k = none) (i j : Nat) :
    (m.setIndex k i).keysAt j = m.keysAt j + (if i = j then 1 else 0) := by
  obtain ⟨space, k⟩ := k
  unfold keysAt
  cases space with
  | key1 =>
      have h := uses_insert hk i j
      simp only [setIndex, h]
      omega
  | key2 =>
      have h := uses_insert hk i j
      simp only [setIndex, h]
      omega
  | key3 =>
      have h := uses_insert hk i j
      simp only [setIndex, h]
      omega

theorem eraseIndex_keysAt {i : Nat} (hk : m.index k = some i) (j : Nat) :
    (m.eraseIndex k).keysAt j + (if i = j then 1 else 0) = m.keysAt j := by
  obtain ⟨space, k⟩ := k
  unfold keysAt
  cases space with
  | key1 =>
      have h := uses_erase hk j
      simp only [eraseIndex]
      omega
  | key2 =>
      have h := uses_erase hk j
      simp only [eraseIndex]
      omega
  | key3 =>
      have h := uses_erase hk j
      simp only [eraseIndex]
      omega

/-- No other key has the position of an only key. -/
theorem index_ne_of_only {i : Nat} (hk : m.index k = some i) (honly : m.keysAt i ≤ 1)
    {k' : AnyKey K1 K2 K3} (hne : k' ≠ k) : m.index k' ≠ some i := by
  intro hk'
  have hrest := eraseIndex_keysAt hk i
  have hother : 0 < (m.eraseIndex k).keysAt i := by
    refine (keysAt_pos_iff _ i).mpr ⟨k', ?_⟩
    rw [eraseIndex_index, Function.update_of_ne hne]
    exact hk'
  rw [if_pos rfl] at hrest
  omega

end

/-! ### The operations on positions -/

section

variable (m : ThreeKeyMap K1 K2 K3 V) (k k' : AnyKey K1 K2 K3)

theorem insertBy_eq (v : V) :
    m.insertBy k v = match m.index k with
      | none => (none, (m.setIndex k m.values.length).setValues (m.values ++ [(v, 1)]))
      | some _ => (some v, m.setIndex k m.values.length) := by
  obtain ⟨space, k⟩ := k
  cases space with
  | key1 =>
      simp only [insertBy, insertByKey1, insertByKey, index]
      cases m.key1Map.lookup k <;> rfl
  | key2 =>
      simp only [insertBy, insertByKey2, insertByKey, index]
      cases m.key2Map.lookup k <;> rfl
  | key3 =>
      simp only [insertBy, insertByKey3, insertByKey, index]
      cases m.key3Map.lookup k <;> rfl

theorem linkTo_eq :
    m.linkTo k k' =
      if (m.index k).isSome then .ok (.newKeyAlreadyExists, m)
      else
        match m.index k' with
        | none => .ok (.existingKeyDoesNotExist, m)
        | some i =>
            (incCount m.values i).map fun values => (.success, (m.setIndex k i).setValues values) := by
  have hsingle : ∀ {K K' : Type} [DecidableEq K] [DecidableEq K'] (map1 : Table K Nat)
      (map2 : Table K' Nat) (q : K) (q' : K')
      (back : LinkResult × Table K Nat × List (V × Nat) → LinkResult × ThreeKeyMap K1 K2 K3 V)
      (hback : ∀ r, back (r, map1, m.values) = (r, m)),
      (linkKeyToKey map1 map2 m.values q q' >>= fun r => pure (back r)) =
        if (map1.lookup q).isSome then .ok (.newKeyAlreadyExists, m)
        else
          match map2.lookup q' with
          | none => .ok (.existingKeyDoesNotExist, m)
          | some i => (incCount m.values i).map fun values => back (.success, map1.insert q i, values) := by
    intro K K' _ _ map1 map2 q q' back hback
    unfold linkKeyToKey
    split
    · exact congrArg Except.ok (hback _)
    · cases map2.lookup q' with
      | none => exact congrArg Except.ok (hback _)
      | some i =>
          simp only
          cases incCount m.values i <;> rfl
  obtain ⟨space, k⟩ := k
  obtain ⟨space', k'⟩ := k'
  cases space <;> cases space' <;> exact hsingle _ _ k k' _ fun _ => rfl

/-- A key whose position counts at least one: the count falls, and the value goes with its last count. -/
theorem removeBy_eq (b : Build) {i n : Nat} {v : V} (hk : m.index k = some i)
    (hget : m.values[i]? = some (v, n + 1)) :
    m.removeBy b k =
      let m' := (m.eraseIndex k).setValues (m.values.set i (v, n))
      if n = 0 then m'.swapRemove i else .ok (none, m') := by
  have hrelease : ∀ m' : ThreeKeyMap K1 K2 K3 V,
      m'.release (some (i, n)) = if n = 0 then m'.swapRemove i else .ok (none, m') := by
    intro m'
    cases n <;> rfl
  obtain ⟨space, k⟩ := k
  cases space with
  | key1 =>
      have hlookup : m.key1Map.lookup k = some i := hk
      simp only [removeBy, removeByKey1, hlookup, hget, decCount, ok_bind]
      rfl
  | key2 =>
      have hlookup : m.key2Map.lookup k = some i := hk
      simp only [removeBy, removeByKey2, removeByKey, hlookup, hget, ok_bind]
      exact hrelease _
  | key3 =>
      have hlookup : m.key3Map.lookup k = some i := hk
      simp only [removeBy, removeByKey3, removeByKey, hlookup, hget, ok_bind]
      exact hrelease _

theorem removeBy_none (b : Build) (hk : m.index k = none) : m.removeBy b k = .ok (none, m) := by
  obtain ⟨space, k⟩ := k
  cases space with
  | key1 =>
      have hlookup : m.key1Map.lookup k = none := hk
      simp only [removeBy, removeByKey1, hlookup]
  | key2 =>
      have hlookup : m.key2Map.lookup k = none := hk
      simp only [removeBy, removeByKey2, removeByKey, hlookup, ok_bind]
      rfl
  | key3 =>
      have hlookup : m.key3Map.lookup k = none := hk
      simp only [removeBy, removeByKey3, removeByKey, hlookup, ok_bind]
      rfl

end

end ThreeKeyMap
end Qusb

import Qusb.Stub.Effects

/-! Insertion under a key that is already there.

The new value is pushed, the key is sent to its position, and the value is popped again and handed back: the
key is left with the position after the last one. It leads nowhere until the next value is pushed, which it
then shares with the key of that value; and since that value counts one key, removing either key takes it
from the other. -/

open Tables

namespace Qusb

variable {K1 K2 K3 V : Type} [DecidableEq K1] [DecidableEq K2] [DecidableEq K3]

/-- The operation is an insertion, a link or a removal of another key. -/
def MapOp.Spares (k : AnyKey K1 K2 K3) : MapOp K1 K2 K3 V → Prop
  | .insert k' _ => k' ≠ k
  | .link k' _ => k' ≠ k
  | .remove k' => k' ≠ k
  | .unlinkAllButKey1 _ => False

namespace ThreeKeyMap

/-- What a map does on insertion: the key leads to the new value, every other key to what it led to, also
after further operations on other keys, and a value that lost its only key is handed back. -/
structure InsertsLikeMap (b : Build) (m : ThreeKeyMap K1 K2 K3 V) (k : AnyKey K1 K2 K3) (v : V) :
    Prop where
  getBy_new : (m.insertBy k v).2.getBy k = some v
  getBy_other : ∀ k', k' ≠ k → ∀ ops : List (MapOp K1 K2 K3 V), (∀ op ∈ ops, op.Spares k') →
    Runs.Meets (apply b) InsertsAbsent (m.insertBy k v).2 ops →
    ∃ m', Runs.run (apply b) (m.insertBy k v).2 ops = .ok m' ∧ m'.getBy k' = m.getBy k'
  inRange : (m.insertBy k v).2.InRange
  displaced : ∀ i, m.index k = some i →
    (m.insertBy k v).1 = if m.keysAt i = 1 then m.getBy k else none

section

variable {m : ThreeKeyMap K1 K2 K3 V} {k : AnyKey K1 K2 K3}

/-- The key is sent past the last value, and the new value comes back. -/
theorem insertBy_present (hk : m.index k ≠ none) (v : V) :
    m.insertBy k v = (some v, m.setIndex k m.values.length) := by
  obtain ⟨i, hi⟩ := Option.ne_none_iff_exists'.mp hk
  rw [insertBy_eq, hi]

theorem getBy_setIndex (i : Nat) : (m.setIndex k i).getBy k = (m.values[i]?).map Prod.fst := by
  rw [getBy_eq, setIndex_index, Function.update_self, setIndex_values, Option.bind_some]

/-- The next value that is pushed is shared, and goes with the first of its keys that is removed. -/
theorem overwrite_shares (b : Build) {k' : AnyKey K1 K2 K3} (hne : k' ≠ k) (hk' : m.index k' = none) (w : V) :
    ∃ m₁ m₂, (m.setIndex k m.values.length).apply b (.insert k' w) = .ok m₁ ∧ m₁.getBy k = some w ∧
      m₁.removeBy b k = .ok (some w, m₂) ∧ m₂.getBy k' = none := by
  let m₀ := m.setIndex k m.values.length
  have hvalues : m₀.values = m.values := setIndex_values _
  have habsent : m₀.index k' = none := by
    show (m.setIndex k m.values.length).index k' = none
    rw [setIndex_index, Function.update_of_ne hne, hk']
  let m₁ := (m₀.setIndex k' m.values.length).setValues (m.values ++ [(w, 1)])
  have hinsert : m₀.insertBy k' w = (none, m₁) := by
    rw [insertBy_eq, habsent]
    simp only [hvalues, m₁]
  have hindex : m₁.index k = some m.values.length := by
    show ((m₀.setIndex k' _).setValues _).index k = _
    rw [setValues_index, setIndex_index, Function.update_of_ne (Ne.symm hne)]
    show (m.setIndex k m.values.length).index k = _
    rw [setIndex_index, Function.update_self]
  have hindex' : m₁.index k' = some m.values.length := by
    show ((m₀.setIndex k' _).setValues _).index k' = _
    rw [setValues_index, setIndex_index, Function.update_self]
  have hget : m₁.values[m.values.length]? = some (w, 0 + 1) := List.getElem?_concat_length
  -- what the removal swaps away is the last value
  let m₂ := (m₁.eraseIndex k).setValues (m₁.values.set m.values.length (w, 0))
  have hlen : m₂.values.length = m.values.length + 1 := by
    show (List.set (m.values ++ [(w, 1)]) _ _).length = _
    simp
  have hget₂ : m₂.values[m.values.length]? = some (w, 0) := by
    refine List.getElem?_set_self ?_
    show m.values.length < (m.values ++ [(w, 1)]).length
    simp
  obtain ⟨final, m₃, -, hswap, hvalues₃, hindex₃, -⟩ := m₂.swapRemove_ok hget₂
  have hlen₃ : m₃.values.length = m.values.length := by
    rw [hvalues₃, swapped, List.length_dropLast, List.length_set, hlen, Nat.add_sub_cancel]
  have hkept : m₃.index k' = some m.values.length := by
    have hother : m₂.index k' = some m.values.length := by
      show ((m₁.eraseIndex k).setValues _).index k' = _
      rw [setValues_index, eraseIndex_index, Function.update_of_ne hne, hindex']
    rw [hindex₃, hother, hlen, Option.map_some]
    split <;> rfl
  have hremove : m₁.removeBy b k = .ok (some w, m₃) := by
    rw [m₁.removeBy_eq k b hindex hget]
    exact hswap
  refine ⟨m₁, m₃, congrArg Except.ok (congrArg Prod.snd hinsert), ?_, hremove, ?_⟩
  · rw [getBy_eq, hindex, Option.bind_some, hget]
    rfl
  · rw [getBy_eq, hkept, Option.bind_some, List.getElem?_eq_none (by omega)]
    rfl

end

/-- **Overwriting never works.** Whatever the map, insertion under a key that is there is not what a map does:
the new value is handed back and the key leads nowhere, its position being out of range; and the next value
that is inserted under a new key is shared with it, so that the new key loses its value with the old one. -/
theorem insertBy_present_wrong (b : Build) (m : ThreeKeyMap K1 K2 K3 V) (k : AnyKey K1 K2 K3) (v : V)
    (hk : m.index k ≠ none) :
    ¬ InsertsLikeMap b m k v ∧ (m.insertBy k v).1 = some v ∧ (m.insertBy k v).2.getBy k = none ∧
      ¬ (m.insertBy k v).2.InRange ∧
      ∀ k' w, k' ≠ k → m.index k' = none →
        ∃ m₁ m₂, (m.insertBy k v).2.apply b (.insert k' w) = .ok m₁ ∧ m₁.getBy k = some w ∧
          m₁.removeBy b k = .ok (some w, m₂) ∧ m₂.getBy k' = none := by
  have hinsert := insertBy_present hk v
  have hget : (m.insertBy k v).2.getBy k = none := by
    rw [hinsert, getBy_setIndex, List.getElem?_eq_none (Nat.le_refl _)]
    rfl
  refine ⟨fun h => ?_, by rw [hinsert], hget, fun h => ?_, fun k' w hne hk' => ?_⟩
  · have hnew := h.getBy_new
    rw [hget] at hnew
    cases hnew
  · rw [hinsert] at h
    have hlt := h k m.values.length (by rw [setIndex_index, Function.update_self])
    rw [setIndex_values] at hlt
    exact Nat.lt_irrefl _ hlt
  · rw [hinsert]
    exact overwrite_shares b hne hk' w

/-- One value and one key, inserted again. -/
theorem sole_key_overwritten :
    ¬ InsertsLikeMap .release (⟨AList.singleton 1 0, ∅, ∅, [(10, 1)]⟩ : ThreeKeyMap Nat Nat Nat Nat)
      ⟨.key1, 1⟩ 20 :=
  (insertBy_present_wrong .release _ ⟨.key1, 1⟩ 20 (by decide)).1

/-- Key `1` is inserted twice and leads nowhere; then key `2` is inserted, and key `1` leads to its value. -/
theorem overwritten_key_steals :
    ∃ m m', Runs.run (apply .release) (empty : ThreeKeyMap Nat Nat Nat Nat) [.insert ⟨.key1, 1⟩ 10] = .ok m ∧
      ¬ InsertsLikeMap .release m ⟨.key1, 1⟩ 20 ∧ m.insertBy ⟨.key1, 1⟩ 20 = (some 20, m') ∧
      m'.getBy ⟨.key1, 1⟩ = none ∧
      ∃ m'', m'.apply .release (.insert ⟨.key1, 2⟩ 30) = .ok m'' ∧ m''.getBy ⟨.key1, 1⟩ = some 30 := by
  refine ⟨⟨AList.singleton 1 0, ∅, ∅, [(10, 1)]⟩, ⟨AList.singleton 1 1, ∅, ∅, [(10, 1)]⟩, rfl, fun h => ?_,
    rfl, rfl, _, rfl, rfl⟩
  exact absurd h.getBy_new (by decide)

end ThreeKeyMap
end Qusb

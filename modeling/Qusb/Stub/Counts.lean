import Qusb.Stub.Effects

/-! The counts of the map with three kinds of keys.

`unlinkAllButKey1` cuts keys off a value without lowering its count. From then on the value counts more keys
than it has, and nothing ever repairs that: the removal of its last key does not free it. A run keeps its
counts exact precisely when it never cuts off a key. -/

open Tables

namespace Qusb

variable {K1 K2 K3 V : Type} [DecidableEq K1] [DecidableEq K2] [DecidableEq K3]

namespace ThreeKeyMap

/-- The counts are the numbers of keys: a value is returned and dropped with its last key, and a map without
keys is empty. -/
structure Accounted (b : Build) (m : ThreeKeyMap K1 K2 K3 V) : Prop where
  exact : ∀ i v n, m.values[i]? = some (v, n) → n = m.keysAt i
  released : ∀ k i, m.index k = some i → ∃ old m', m.removeBy b k = .ok (old, m') ∧
    if m.keysAt i = 1 then old = m.getBy k ∧ old ≠ none ∧ m'.values.length + 1 = m.values.length
    else old = none ∧ m'.values.length = m.values.length
  emptied : (∀ k, m.index k = none) → m.isEmpty = true

/-- Every value has been counted. -/
def Held (m : ThreeKeyMap K1 K2 K3 V) : Prop := ∀ i, i < m.values.length → 0 < refs m.values i

section

variable {m m' : ThreeKeyMap K1 K2 K3 V} {op : MapOp K1 K2 K3 V}

omit [DecidableEq K1] [DecidableEq K2] [DecidableEq K3] in
theorem held_setValues {i n : Nat} {e : V × Nat} (hm : m.Held) (hget : m.values[i]? = some e) (v : V) :
    ∀ m₁ : ThreeKeyMap K1 K2 K3 V, (m₁.setValues (m.values.set i (v, n + 1))).Held := by
  intro m₁ j hj
  have hlt := (List.getElem?_eq_some_iff.mp hget).1
  rw [setValues_values, List.length_set] at hj
  rw [setValues_values, refs_set hlt]
  split
  · exact Nat.succ_pos n
  · exact hm j hj

/-- Every operation leaves every value counted. -/
theorem Effect.held (h : Effect m op m') (hm : m.Held) : m'.Held := by
  cases h with
  | inserted v hk =>
      intro j hj
      rw [setValues_values, List.length_append, List.length_singleton] at hj
      rw [setValues_values, refs_append]
      split
      · exact Nat.one_pos
      · exact hm j (by omega)
  | linked hk hk' hget => exact held_setValues hm hget _ _
  | notLinked hk => exact hm
  | notRemoved hk => exact hm
  | removed hk hget => exact held_setValues hm hget _ _
  | dropped hk hget hdropped =>
      intro j hj
      have hlt := (List.getElem?_eq_some_iff.mp hget).1
      rw [hdropped.length_eq hlt] at hj
      rw [hdropped.refs_eq hlt, if_neg (Nat.ne_of_lt hj)]
      split
      · exact hm _ (by omega)
      · exact hm j (by omega)
  | unlinked k =>
      intro j hj
      rw [unlinkAllButKey1_values] at hj ⊢
      exact hm j hj

theorem keysAt_eq_zero (h : ∀ k, m.index k = none) (i : Nat) : m.keysAt i = 0 := by
  refine Nat.eq_zero_of_not_pos fun hpos => ?_
  obtain ⟨k, hk⟩ := (m.keysAt_pos_iff i).mp hpos
  rw [h] at hk
  cases hk

/-- A map without a key whose values are all gone is empty. -/
theorem isEmpty_of_index (h : ∀ k, m.index k = none) (hvalues : m.values = []) : m.isEmpty = true := by
  have h1 := (isEmpty_iff m.key1Map).mpr fun k => h ⟨.key1, k⟩
  have h2 := (isEmpty_iff m.key2Map).mpr fun k => h ⟨.key2, k⟩
  have h3 := (isEmpty_iff m.key3Map).mpr fun k => h ⟨.key3, k⟩
  rw [isEmpty, h1, h2, h3, hvalues]
  rfl

theorem Exact.accounted (hexact : m.Exact) (hcovered : m.Covered) (hheld : m.Held) (b : Build) :
    m.Accounted b where
  exact := by
    intro i v n hget
    rw [← refs_eq hget]
    exact hexact i
  released := by
    intro k i hk
    obtain ⟨old, m', hremove, heffect, hold⟩ := hcovered.removeBy b k
    refine ⟨old, m', hremove, ?_⟩
    rw [hk, Option.bind_some, hexact i] at hold
    have hvalue := m.getBy_eq k
    rw [hk, Option.bind_some] at hvalue
    rw [hold]
    cases heffect with
    | notRemoved hnone => exact absurd (hk.symm.trans hnone) (by simp)
    | @removed _ i' n v hk' hget =>
        obtain rfl : i = i' := Option.some.inj (hk.symm.trans hk')
        have hcount := hexact i
        rw [refs_eq hget] at hcount
        have hmore : m.keysAt i ≠ 1 := by omega
        rw [if_neg hmore, if_neg hmore]
        exact ⟨rfl, by rw [setValues_values, List.length_set]⟩
    | @dropped _ i' v _ hk' hget hdropped =>
        obtain rfl : i = i' := Option.some.inj (hk.symm.trans hk')
        have hcount := hexact i
        rw [refs_eq hget] at hcount
        have hlt := (List.getElem?_eq_some_iff.mp hget).1
        rw [if_pos hcount.symm, if_pos hcount.symm, hvalue, hget, hdropped.length_eq hlt]
        exact ⟨rfl, by simp, by omega⟩
  emptied := by
    intro h
    refine isEmpty_of_index h (List.eq_nil_iff_length_eq_zero.mpr (Nat.eq_zero_of_not_pos fun hpos => ?_))
    have hcount := hheld 0 hpos
    rw [hexact, keysAt_eq_zero h] at hcount
    exact Nat.lt_irrefl 0 hcount

/-- An accounted map has exact counts, at the positions without a value too. -/
theorem Accounted.exact_counts {b : Build} (h : m.Accounted b) (hm : m.Covered) : m.Exact := by
  intro i
  cases hget : m.values[i]? with
  | some e => exact (refs_eq hget).trans (h.exact i e.1 e.2 hget)
  | none =>
      have hout : refs m.values i = 0 := by simp [refs, hget]
      have := hm i
      omega

/-- **Runs.** The counts are exact at the end of a run that starts with exact counts precisely when nothing
was cut off on the way. -/
theorem run_exact_iff (b : Build) {ops : List (MapOp K1 K2 K3 V)} (hm : m.Covered) (hheld : m.Held)
    (hops : Runs.Meets (apply b) InsertsAbsent m ops) :
    ∃ m', Runs.run (apply b) m ops = .ok m' ∧ m'.Covered ∧ m'.Held ∧
      (m'.Exact ↔ m.Exact ∧ Runs.Meets (apply b) CutsNothing m ops) := by
  induction ops generalizing m with
  | nil => exact ⟨m, rfl, hm, hheld, fun h => ⟨h, trivial⟩, fun h => h.1⟩
  | cons op ops ih =>
      obtain ⟨m₁, hstep, heffect⟩ := hm.apply b hops.1
      obtain ⟨hcovered, hexact⟩ := heffect.counts hm
      obtain ⟨m', hrun, hm', hheld', hiff⟩ := ih hcovered (heffect.held hheld) (hops.2 m₁ hstep)
      refine ⟨m', (Runs.run_cons_ok hstep).trans hrun, hm', hheld', ?_⟩
      rw [hiff, hexact, and_assoc]
      refine and_congr_right fun _ => and_congr_right fun _ => ?_
      constructor
      · intro h s' hs'
        rw [hstep] at hs'
        cases hs'
        exact h
      · exact fun h => h m₁ hstep

end

/-- **Exact counts.** After a run that inserts under absent keys only, the map is accounted precisely when no
`unlinkAllButKey1` of the run was called with a key whose value had another key. -/
theorem accounted_iff (b : Build) (ops : List (MapOp K1 K2 K3 V))
    (hops : Runs.Meets (apply b) InsertsAbsent empty ops) :
    ∃ m : ThreeKeyMap K1 K2 K3 V, Runs.run (apply b) empty ops = .ok m ∧
      (m.Accounted b ↔ Runs.Meets (apply b) CutsNothing empty ops) := by
  obtain ⟨m, hrun, hm, hheld, hiff⟩ := run_exact_iff b covered_empty
    (fun _ hlt => absurd hlt (Nat.not_lt_zero _)) hops
  refine ⟨m, hrun, ?_⟩
  have hstart : (empty : ThreeKeyMap K1 K2 K3 V).Exact := fun _ => rfl
  constructor
  · exact fun h => (hiff.mp (h.exact_counts hm)).2
  · exact fun h => (hiff.mpr ⟨hstart, h⟩).accounted hm hheld b

/-- A run that cuts nothing off. -/
theorem linked_keys_accounted :
    let ops : List (MapOp Nat Nat Nat Nat) := [.insert ⟨.key1, 1⟩ 10, .unlinkAllButKey1 1,
      .link ⟨.key2, 7⟩ ⟨.key1, 1⟩, .remove ⟨.key1, 1⟩]
    ∃ m, Runs.run (apply .release) empty ops = .ok m ∧ m.Accounted .release := by
  intro ops
  obtain ⟨m, hrun, hiff⟩ := accounted_iff .release ops (by decide)
  exact ⟨m, hrun, hiff.mpr (by decide)⟩

/-- A key is cut off; then the removal of the last key returns nothing, and a map without keys is not
empty. -/
theorem cut_key_counted :
    let ops : List (MapOp Nat Nat Nat Nat) :=
      [.insert ⟨.key1, 1⟩ 10, .link ⟨.key2, 7⟩ ⟨.key1, 1⟩, .unlinkAllButKey1 1]
    Runs.Meets (apply .release) InsertsAbsent empty ops ∧
      ∃ m, Runs.run (apply .release) empty ops = .ok m ∧ m.keysAt 0 = 1 ∧
        m.values[0]? = some (10, 2) ∧ ∃ m', m.removeBy .release ⟨.key1, 1⟩ = .ok (none, m') ∧
          (∀ k, m'.index k = none) ∧ m'.isEmpty = false := by
  refine ⟨by decide, ⟨AList.singleton 1 0, ∅, ∅, [(10, 2)]⟩, rfl, by decide, rfl, ⟨∅, ∅, ∅, [(10, 1)]⟩, rfl, ?_, rfl⟩
  rintro ⟨space, k⟩
  cases space <;> rfl

end ThreeKeyMap
end Qusb

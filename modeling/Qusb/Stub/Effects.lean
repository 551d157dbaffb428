import Qusb.Stub.KeySpaces

/-! What an operation of the map does, once its counts cover its keys.

Under absent keys every operation goes through and has one of the effects of `Effect`: a removal takes away
the value of its last key, and the last value of the vector takes its place. The counts may exceed the keys,
because unlinking does not lower them, but never fall short of them; so every stored index stays in range. -/

open Tables

namespace Qusb

variable {K1 K2 K3 V : Type} [DecidableEq K1] [DecidableEq K2] [DecidableEq K3]

namespace ThreeKeyMap

/-- The counts cover the keys. -/
def Covered (m : ThreeKeyMap K1 K2 K3 V) : Prop := ∀ i, m.keysAt i ≤ refs m.values i

/-- Every count is the number of keys. -/
def Exact (m : ThreeKeyMap K1 K2 K3 V) : Prop := ∀ i, refs m.values i = m.keysAt i

/-- Every stored index is in range. -/
def InRange (m : ThreeKeyMap K1 K2 K3 V) : Prop := ∀ k i, m.index k = some i → i < m.values.length

/-- A value is inserted under an absent key. -/
def InsertsAbsent (m : ThreeKeyMap K1 K2 K3 V) (op : MapOp K1 K2 K3 V) : Prop :=
  ∀ k v, op = .insert k v → m.index k = none

instance (m : ThreeKeyMap K1 K2 K3 V) (op : MapOp K1 K2 K3 V) : Decidable (InsertsAbsent m op) :=
  match op with
  | .insert k _ => decidable_of_iff (m.index k = none) (by simp [InsertsAbsent])
  | .link _ _ => isTrue fun _ _ h => by cases h
  | .remove _ => isTrue fun _ _ h => by cases h
  | .unlinkAllButKey1 _ => isTrue fun _ _ h => by cases h

/-- A value whose other keys are unlinked has no other key. -/
def CutsNothing (m : ThreeKeyMap K1 K2 K3 V) (op : MapOp K1 K2 K3 V) : Prop :=
  ∀ k, op = .unlinkAllButKey1 k → ∀ i, m.index ⟨.key1, k⟩ = some i → m.keysAt i = 1

instance (m : ThreeKeyMap K1 K2 K3 V) (op : MapOp K1 K2 K3 V) : Decidable (CutsNothing m op) :=
  match op with
  | .insert _ _ => isTrue fun _ h => by cases h
  | .link _ _ => isTrue fun _ h => by cases h
  | .remove _ => isTrue fun _ h => by cases h
  | .unlinkAllButKey1 k =>
      decidable_of_iff (((m.index ⟨.key1, k⟩).all fun i => m.keysAt i = 1) = true) (by
        simp [CutsNothing, Option.all_eq_true])

section

variable {m : ThreeKeyMap K1 K2 K3 V}

theorem Covered.inRange (hm : m.Covered) : m.InRange := by
  intro k i hk
  have hpos := (m.keysAt_pos_iff i).mpr ⟨k, hk⟩
  exact lt_of_refs_pos (Nat.lt_of_lt_of_le hpos (hm i))

omit [DecidableEq K1] [DecidableEq K2] [DecidableEq K3] in
theorem covered_empty : (empty : ThreeKeyMap K1 K2 K3 V).Covered := fun _ => Nat.zero_le _

/-! ### What an operation does -/

/-- The value at a position went, with its only key, and the last value took its place. -/
structure Dropped (m : ThreeKeyMap K1 K2 K3 V) (k : AnyKey K1 K2 K3) (i : Nat)
    (m' : ThreeKeyMap K1 K2 K3 V) : Prop where
  values_eq : ∀ j, m'.values[j]? =
    if j < m.values.length - 1 then if j = i then m.values[m.values.length - 1]? else m.values[j]?
    else none
  index_eq : ∀ k', m'.index k' =
    if k' = k then none else (m.index k').map fun j => if j = m.values.length - 1 then i else j
  keysAt_eq : ∀ j, m'.keysAt j =
    if j = m.values.length - 1 then 0 else if j = i then m.keysAt (m.values.length - 1) else m.keysAt j

/-- **Swapping away** a value moves the keys of the last position to its position. -/
theorem swapRemove_ok {i : Nat} {e : V × Nat} (hget : m.values[i]? = some e) :
    ∃ final m', m.values.getLast? = some final ∧ m.swapRemove i = .ok (some e.1, m') ∧
      m'.values = swapped m.values i final ∧
      (∀ k, m'.index k = (m.index k).map fun j => if j = m.values.length - 1 then i else j) ∧
      (m.keysAt i = 0 → ∀ j, m'.keysAt j =
        if j = i then m.keysAt (m.values.length - 1)
        else if j = m.values.length - 1 then 0 else m.keysAt j) := by
  have hlt : i < m.values.length := (List.getElem?_eq_some_iff.mp hget).1
  obtain ⟨final, hfinal⟩ : ∃ final, m.values.getLast? = some final :=
    ⟨_, List.getLast?_eq_some_getLast (List.ne_nil_of_length_pos (by omega))⟩
  refine ⟨final, ⟨moveLast m.key1Map (m.values.length - 1) i, moveLast m.key2Map (m.values.length - 1) i,
    moveLast m.key3Map (m.values.length - 1) i, swapped m.values i final⟩, hfinal, ?_, rfl, ?_, ?_⟩
  · simp only [swapRemove, hget, hfinal]
    rfl
  · rintro ⟨space, k⟩
    cases space <;> exact lookup_mapVals _ _ k
  · intro hfree j
    have h1 : uses m.key1Map i = 0 := by unfold keysAt at hfree; omega
    have h2 : uses m.key2Map i = 0 := by unfold keysAt at hfree; omega
    have h3 : uses m.key3Map i = 0 := by unfold keysAt at hfree; omega
    simp only [keysAt, uses_moveLast h1, uses_moveLast h2, uses_moveLast h3]
    split
    · rfl
    · split <;> rfl

/-- A value goes with its only key. -/
theorem swapRemove_only {k : AnyKey K1 K2 K3} {i : Nat} {v : V} {e : V × Nat} (hk : m.index k = some i)
    (hget : m.values[i]? = some (v, 1)) (hfree : m.keysAt i = 1) :
    ∃ m', ((m.eraseIndex k).setValues (m.values.set i e)).swapRemove i = .ok (some e.1, m') ∧
      Dropped m k i m' := by
  have hlt : i < m.values.length := (List.getElem?_eq_some_iff.mp hget).1
  let m₁ := (m.eraseIndex k).setValues (m.values.set i e)
  have hlen : m₁.values.length = m.values.length := List.length_set
  have hkeys : ∀ j, m₁.keysAt j = if j = i then 0 else m.keysAt j := by
    intro j
    have hj := eraseIndex_keysAt hk j
    show (m.eraseIndex k).keysAt j = _
    split
    · next hji =>
        subst hji
        rw [if_pos rfl] at hj
        omega
    · next hji => rwa [if_neg (Ne.symm hji)] at hj
  have hindex : ∀ k', m₁.index k' = if k' = k then none else m.index k' := by
    intro k'
    show ((m.eraseIndex k).setValues _).index k' = _
    rw [setValues_index, eraseIndex_index, Function.update_apply]
  obtain ⟨final, m', hfinal, hok, hvalues', hindex', hkeys'⟩ :=
    m₁.swapRemove_ok (e := e) (List.getElem?_set_self hlt)
  refine ⟨m', hok, ?_, ?_, ?_⟩
  · intro j
    rw [List.getLast?_eq_getElem?, hlen] at hfinal
    rw [hvalues', getElem?_swapped, hlen]
    split
    · next hj =>
        have hother : ∀ n, n ≠ i → m₁.values[n]? = m.values[n]? := fun n hn =>
          List.getElem?_set_ne (Ne.symm hn)
        split
        · next hji =>
            rw [← hfinal]
            exact hother _ (by omega)
        · next hji => exact hother j hji
    · rfl
  · intro k'
    rw [hindex', hindex, hlen]
    split <;> rfl
  · intro j
    rw [hkeys' (by rw [hkeys, if_pos rfl]), hkeys, hkeys j, hlen]
    by_cases hj : j = i
    · subst hj
      rw [if_pos rfl, if_pos rfl]
      by_cases hlast : j = m.values.length - 1
      · rw [if_pos hlast.symm, if_pos hlast]
      · rw [if_neg (Ne.symm hlast), if_neg hlast]
    · simp only [if_neg hj]

/-- **Unlinking** takes the position from every other key that has it. -/
theorem unlinkAllButKey1_index (k : K1) (k' : AnyKey K1 K2 K3) :
    (m.unlinkAllButKey1 k).index k' =
      if k' ≠ ⟨.key1, k⟩ ∧ m.index k' = m.index ⟨.key1, k⟩ then none else m.index k' := by
  have hkey : m.index ⟨.key1, k⟩ = m.key1Map.lookup k := rfl
  rw [hkey]
  unfold unlinkAllButKey1
  cases hk : m.key1Map.lookup k with
  | none =>
      show m.index k' = _
      split
      · next h => exact h.2
      · rfl
  | some i =>
      obtain ⟨space, q⟩ := k'
      have hfilter : ∀ (p : Nat → Bool) (j : Option Nat),
          j.filter p = if ∃ i, j = some i ∧ p i = false then none else j := by
        intro p j
        cases j with
        | none => simp
        | some i => cases hp : p i <;> simp [Option.filter, hp]
      cases space with
      | key1 =>
          show (retain _ _).lookup q = _
          rw [lookup_retain, hfilter]
          by_cases hq : q = k <;> simp [hq, index]
      | key2 =>
          show (retain _ _).lookup q = _
          rw [lookup_retain, hfilter]
          simp [index]
      | key3 =>
          show (retain _ _).lookup q = _
          rw [lookup_retain, hfilter]
          simp [index]

omit [DecidableEq K2] [DecidableEq K3] in
theorem unlinkAllButKey1_values (k : K1) : (m.unlinkAllButKey1 k).values = m.values := by
  unfold unlinkAllButKey1
  split <;> rfl

/-- One key is left at the position that is unlinked. -/
theorem unlinkAllButKey1_keysAt (k : K1) (j : Nat) :
    (m.unlinkAllButKey1 k).keysAt j = if m.index ⟨.key1, k⟩ = some j then 1 else m.keysAt j := by
  have hkey : m.index ⟨.key1, k⟩ = m.key1Map.lookup k := rfl
  rw [hkey]
  unfold unlinkAllButKey1
  cases hk : m.key1Map.lookup k with
  | none => simp
  | some i =>
      simp only [Option.some.injEq, keysAt, uses_retain_ne]
      split
      · next hij =>
          subst hij
          rw [uses_retain_one hk]
      · next hij => rw [uses_retain _ _ (Ne.symm hij)]

/-- What is left by an operation that goes through. -/
inductive Effect (m : ThreeKeyMap K1 K2 K3 V) : MapOp K1 K2 K3 V → ThreeKeyMap K1 K2 K3 V → Prop where
  | inserted {k : AnyKey K1 K2 K3} (v : V) (hk : m.index k = none) :
      Effect m (.insert k v) ((m.setIndex k m.values.length).setValues (m.values ++ [(v, 1)]))
  | linked {k k' : AnyKey K1 K2 K3} {i n : Nat} {v : V} (hk : m.index k = none) (hk' : m.index k' = some i)
      (hget : m.values[i]? = some (v, n)) :
      Effect m (.link k k') ((m.setIndex k i).setValues (m.values.set i (v, n + 1)))
  | notLinked {k k' : AnyKey K1 K2 K3} (hk : m.index k ≠ none ∨ m.index k' = none) :
      Effect m (.link k k') m
  | notRemoved {k : AnyKey K1 K2 K3} (hk : m.index k = none) : Effect m (.remove k) m
  | removed {k : AnyKey K1 K2 K3} {i n : Nat} {v : V} (hk : m.index k = some i)
      (hget : m.values[i]? = some (v, n + 2)) :
      Effect m (.remove k) ((m.eraseIndex k).setValues (m.values.set i (v, n + 1)))
  | dropped {k : AnyKey K1 K2 K3} {i : Nat} {v : V} {m' : ThreeKeyMap K1 K2 K3 V}
      (hk : m.index k = some i) (hget : m.values[i]? = some (v, 1)) (hm' : Dropped m k i m') :
      Effect m (.remove k) m'
  | unlinked (k : K1) : Effect m (.unlinkAllButKey1 k) (m.unlinkAllButKey1 k)

theorem Covered.get (hm : m.Covered) {k : AnyKey K1 K2 K3} {i : Nat} (hk : m.index k = some i) :
    ∃ v n, m.values[i]? = some (v, n + 1) ∧ m.keysAt i ≤ n + 1 ∧ 0 < m.keysAt i := by
  have hlt := hm.inRange k i hk
  have hpos := (m.keysAt_pos_iff i).mpr ⟨k, hk⟩
  have hcount := hm i
  obtain ⟨⟨v, n⟩, hget⟩ : ∃ e, m.values[i]? = some e := ⟨m.values[i], List.getElem?_eq_getElem hlt⟩
  rw [refs_eq hget] at hcount
  obtain ⟨n, rfl⟩ : ∃ n', n = n' + 1 := ⟨n - 1, by omega⟩
  exact ⟨v, n, hget, hcount, hpos⟩

/-- What a removal returns, and what it leaves. -/
theorem Covered.removeBy (hm : m.Covered) (b : Build) (k : AnyKey K1 K2 K3) :
    ∃ old m', m.removeBy b k = .ok (old, m') ∧ Effect m (.remove k) m' ∧
      old = (m.index k).bind fun i => if refs m.values i = 1 then (m.values[i]?).map Prod.fst else none := by
  cases hk : m.index k with
  | none => exact ⟨none, m, m.removeBy_none k b hk, .notRemoved hk, rfl⟩
  | some i =>
      obtain ⟨v, n, hget, hle, hpos⟩ := hm.get hk
      have hremove := m.removeBy_eq k b hk hget
      cases n with
      | zero =>
          obtain ⟨m', hok, hdropped⟩ := swapRemove_only (e := (v, 0)) hk hget (by omega)
          refine ⟨some v, m', hremove.trans hok, .dropped hk hget hdropped, ?_⟩
          simp [refs_eq hget, hget]
      | succ n =>
          refine ⟨none, _, hremove, .removed hk hget, ?_⟩
          simp [refs_eq hget]

/-- What a link returns, and what it leaves. -/
theorem Covered.linkTo (hm : m.Covered) (k k' : AnyKey K1 K2 K3) :
    ∃ m', m.linkTo k k' = .ok ((Routes.link m.index k (m.index k')).1, m') ∧ Effect m (.link k k') m' := by
  have hlink := m.linkTo_eq k k'
  by_cases hk : m.index k = none
  · rw [hk] at hlink
    cases hk' : m.index k' with
    | none =>
        rw [hk'] at hlink
        rw [Routes.link_none hk]
        exact ⟨m, hlink, .notLinked (.inr hk')⟩
    | some i =>
        obtain ⟨v, n, hget, -⟩ := hm.get hk'
        have hinc : incCount m.values i = .ok (m.values.set i (v, n + 1 + 1)) := by
          rw [incCount, hget]
        rw [hk'] at hlink
        simp only [hinc] at hlink
        rw [Routes.link_some hk]
        exact ⟨_, hlink, .linked hk hk' hget⟩
  · rw [if_pos (Option.isSome_iff_ne_none.mpr hk)] at hlink
    rw [Routes.link_old hk]
    exact ⟨m, hlink, .notLinked (.inl hk)⟩

/-- **Every operation goes through**, with one of the effects. -/
theorem Covered.apply (hm : m.Covered) (b : Build) {op : MapOp K1 K2 K3 V} (hop : InsertsAbsent m op) :
    ∃ m', m.apply b op = .ok m' ∧ Effect m op m' := by
  cases op with
  | insert k v =>
      have hk := hop k v rfl
      have hinsert := m.insertBy_eq k v
      rw [hk] at hinsert
      exact ⟨_, congrArg Except.ok (congrArg Prod.snd hinsert), .inserted v hk⟩
  | link k k' =>
      obtain ⟨m', hok, heffect⟩ := hm.linkTo k k'
      exact ⟨m', congrArg (Except.map Prod.snd) hok, heffect⟩
  | remove k =>
      obtain ⟨old, m', hok, heffect, -⟩ := hm.removeBy b k
      exact ⟨m', congrArg (Except.map Prod.snd) hok, heffect⟩
  | unlinkAllButKey1 k => exact ⟨_, rfl, .unlinked k⟩

/-! ### Counts and keys -/

variable {m' : ThreeKeyMap K1 K2 K3 V} {op : MapOp K1 K2 K3 V}

/-- Every count moved with the number of its keys. -/
def SameSlack (m m' : ThreeKeyMap K1 K2 K3 V) : Prop :=
  ∀ j, refs m'.values j + m.keysAt j = refs m.values j + m'.keysAt j

omit [DecidableEq K1] [DecidableEq K2] [DecidableEq K3] in
theorem SameSlack.covered (h : SameSlack m m') (hm : m.Covered) : m'.Covered := by
  intro j
  have hj := h j
  have hle := hm j
  omega

omit [DecidableEq K1] [DecidableEq K2] [DecidableEq K3] in
theorem SameSlack.exact_iff (h : SameSlack m m') : m'.Exact ↔ m.Exact := by
  refine forall_congr' fun j => ?_
  have hj := h j
  omega

theorem sameSlack_insert {k : AnyKey K1 K2 K3} (v : V) (hk : m.index k = none) :
    SameSlack m ((m.setIndex k m.values.length).setValues (m.values ++ [(v, 1)])) := by
  intro j
  rw [setValues_values, setValues_keysAt, setIndex_keysAt hk, refs_append]
  by_cases hj : j = m.values.length
  · have hout : refs m.values j = 0 := by simp [refs, hj]
    rw [if_pos hj, if_pos hj.symm]
    omega
  · rw [if_neg hj, if_neg (Ne.symm hj)]
    rfl

theorem sameSlack_link {k : AnyKey K1 K2 K3} {i n : Nat} {v : V} (hk : m.index k = none)
    (hget : m.values[i]? = some (v, n)) :
    SameSlack m ((m.setIndex k i).setValues (m.values.set i (v, n + 1))) := by
  intro j
  have hlt := (List.getElem?_eq_some_iff.mp hget).1
  rw [setValues_values, setValues_keysAt, setIndex_keysAt hk, refs_set hlt]
  by_cases hj : j = i
  · subst hj
    rw [if_pos rfl, if_pos rfl, refs_eq hget]
    omega
  · rw [if_neg hj, if_neg (Ne.symm hj)]
    rfl

theorem sameSlack_remove {k : AnyKey K1 K2 K3} {i n : Nat} {v : V} (hk : m.index k = some i)
    (hget : m.values[i]? = some (v, n + 1)) :
    SameSlack m ((m.eraseIndex k).setValues (m.values.set i (v, n))) := by
  intro j
  have hlt := (List.getElem?_eq_some_iff.mp hget).1
  have hkeys := eraseIndex_keysAt hk j
  rw [setValues_values, setValues_keysAt, refs_set hlt]
  by_cases hj : j = i
  · subst hj
    rw [if_pos rfl] at hkeys ⊢
    rw [refs_eq hget]
    omega
  · rw [if_neg (Ne.symm hj)] at hkeys
    rw [if_neg hj]
    omega

theorem Dropped.length_eq {k : AnyKey K1 K2 K3} {i : Nat} (h : Dropped m k i m')
    (hlt : i < m.values.length) : m'.values.length = m.values.length - 1 := by
  have hend : ∀ j, m'.values[j]? = none ↔ m.values.length - 1 ≤ j := by
    intro j
    rw [h.values_eq]
    split
    · split
      · rw [List.getElem?_eq_none_iff]
        omega
      · rw [List.getElem?_eq_none_iff]
        omega
    · exact ⟨fun _ => by omega, fun _ => rfl⟩
  have hge := (hend m'.values.length).mp (List.getElem?_eq_none (Nat.le_refl _))
  have hle := List.getElem?_eq_none_iff.mp ((hend (m.values.length - 1)).mpr (Nat.le_refl _))
  omega

theorem Dropped.refs_eq {k : AnyKey K1 K2 K3} {i : Nat} (h : Dropped m k i m')
    (hlt : i < m.values.length) (j : Nat) :
    refs m'.values j =
      if j = m.values.length - 1 then 0
      else if j = i then refs m.values (m.values.length - 1) else refs m.values j := by
  unfold refs
  rw [h.values_eq]
  rcases Nat.lt_trichotomy j (m.values.length - 1) with hj | hj | hj
  · rw [if_pos hj, if_neg (Nat.ne_of_lt hj)]
    split <;> rfl
  · rw [if_neg (by omega), if_pos hj]
    rfl
  · have hji : j ≠ i := by omega
    rw [if_neg (Nat.lt_asymm hj), if_neg (Nat.ne_of_gt hj), if_neg hji,
      List.getElem?_eq_none (by omega)]

/-- The position that went had one key, so the others keep their counts. -/
theorem Dropped.counts {k : AnyKey K1 K2 K3} {i : Nat} {v : V} (h : Dropped m k i m') (hm : m.Covered)
    (hk : m.index k = some i) (hget : m.values[i]? = some (v, 1)) :
    m'.Covered ∧ (m'.Exact ↔ m.Exact) := by
  have hrefs := h.refs_eq (List.getElem?_eq_some_iff.mp hget).1
  have hkeys := h.keysAt_eq
  refine ⟨fun j => ?_, fun hexact j => ?_, fun hexact j => ?_⟩
  · rw [hrefs, hkeys]
    split
    · exact Nat.le_refl 0
    · split
      · exact hm _
      · exact hm j
  · by_cases hji : j = i
    · -- one count, and at least one key
      have hcount : refs m.values i = 1 := by simp [refs, hget]
      have hpos := (m.keysAt_pos_iff i).mpr ⟨k, hk⟩
      have hle := hm i
      rw [hji]
      omega
    · by_cases hlast : j = m.values.length - 1
      · have hi : i ≠ m.values.length - 1 := fun hi => hji (hlast.trans hi.symm)
        have hat := hexact i
        rw [hrefs, hkeys, if_neg hi, if_neg hi, if_pos rfl, if_pos rfl] at hat
        rwa [hlast]
      · have hat := hexact j
        rwa [hrefs, hkeys, if_neg hlast, if_neg hlast, if_neg hji, if_neg hji] at hat
  · rw [hrefs, hkeys]
    split
    · rfl
    · split
      · exact hexact _
      · exact hexact j

/-- Unlinking keeps the counts, so they stay exact only where it cuts no key off. -/
theorem Covered.unlink_counts (hm : m.Covered) (k : K1) :
    (m.unlinkAllButKey1 k).Covered ∧
      ((m.unlinkAllButKey1 k).Exact ↔ m.Exact ∧ CutsNothing m (.unlinkAllButKey1 k)) := by
  have hkeys := fun j => m.unlinkAllButKey1_keysAt k j
  have hrefs : (m.unlinkAllButKey1 k).values = m.values := m.unlinkAllButKey1_values k
  have hcases : ∀ j, m.index ⟨.key1, k⟩ = some j → 0 < m.keysAt j := fun j hj =>
    (m.keysAt_pos_iff j).mpr ⟨_, hj⟩
  refine ⟨fun j => ?_, fun hexact => ⟨fun j => ?_, ?_⟩, fun hexact j => ?_⟩
  · have hle := hm j
    rw [hrefs, hkeys]
    split
    · next hj =>
        have hpos := hcases j hj
        omega
    · exact hle
  · have hj := hexact j
    have hle := hm j
    rw [hrefs, hkeys] at hj
    split at hj
    · next hindex =>
        have hpos := hcases j hindex
        omega
    · exact hj
  · intro k' hop i hi
    cases hop
    have hcount := hexact i
    have hle := hm i
    have hpos := hcases i hi
    rw [hrefs, hkeys, if_pos hi] at hcount
    omega
  · rw [hrefs, hkeys]
    split
    · next hindex =>
        rw [hexact.1 j]
        exact hexact.2 k rfl j hindex
    · exact hexact.1 j

/-- **Counts and keys.** The counts go on covering the keys, and they stay exact, or become so, only where no
key is cut off. -/
theorem Effect.counts (h : Effect m op m') (hm : m.Covered) :
    m'.Covered ∧ (m'.Exact ↔ m.Exact ∧ CutsNothing m op) := by
  have hsame : SameSlack m m' → CutsNothing m op →
      m'.Covered ∧ (m'.Exact ↔ m.Exact ∧ CutsNothing m op) := by
    intro hslack hcut
    refine ⟨hslack.covered hm, hslack.exact_iff.trans ?_⟩
    exact ⟨fun hexact => ⟨hexact, hcut⟩, fun hboth => hboth.1⟩
  cases h with
  | inserted v hk => exact hsame (sameSlack_insert v hk) fun k h => by cases h
  | linked hk hk' hget => exact hsame (sameSlack_link hk hget) fun k h => by cases h
  | notLinked hk => exact hsame (fun _ => rfl) fun k h => by cases h
  | notRemoved hk => exact hsame (fun _ => rfl) fun k h => by cases h
  | removed hk hget => exact hsame (sameSlack_remove hk hget) fun k h => by cases h
  | dropped hk hget hdropped =>
      obtain ⟨hcovered, hexact⟩ := hdropped.counts hm hk hget
      exact ⟨hcovered, hexact.trans ⟨fun h => ⟨h, fun k h => by cases h⟩, fun h => h.1⟩⟩
  | unlinked k => exact hm.unlink_counts k

/-- A count grows by at most one, so it cannot overflow in fewer than `2 ^ 64` operations. -/
theorem Effect.refs_le (h : Effect m op m') {n : Nat} (hle : ∀ j, refs m.values j ≤ n) (j : Nat) :
    refs m'.values j ≤ n + 1 := by
  have hj := hle j
  cases h with
  | inserted v hk =>
      rw [setValues_values, refs_append]
      split <;> omega
  | @linked _ _ i n' v hk hk' hget =>
      have hi := hle i
      rw [refs_eq hget] at hi
      rw [setValues_values, refs_set (List.getElem?_eq_some_iff.mp hget).1]
      split <;> omega
  | notLinked hk => omega
  | notRemoved hk => omega
  | @removed _ i n' v hk hget =>
      have hi := hle i
      rw [refs_eq hget] at hi
      rw [setValues_values, refs_set (List.getElem?_eq_some_iff.mp hget).1]
      split <;> omega
  | dropped hk hget hdropped =>
      have hlast := hle (m.values.length - 1)
      rw [hdropped.refs_eq (List.getElem?_eq_some_iff.mp hget).1]
      split
      · omega
      · split <;> omega
  | unlinked k =>
      rw [unlinkAllButKey1_values]
      omega

end

end ThreeKeyMap
end Qusb

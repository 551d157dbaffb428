import Qusb.Stub.Effects

/-! What the keys of the map denote.

`Naming` is the map without its vector: every value that was ever inserted has a number, and a key is a
name for one of these numbers. The map follows it in every run in which values are inserted under absent
keys only: a key leads to the value it names, whatever was swapped meanwhile. -/

open Tables

namespace Qusb

variable {K1 K2 K3 V : Type} [DecidableEq K1] [DecidableEq K2] [DecidableEq K3]

/-! ### Names -/

/-- The values inserted so far, and which of them each key names. -/
structure Naming (K1 K2 K3 V : Type) where
  inserted : List V
  name : AnyKey K1 K2 K3 → Option Nat

namespace Naming

def empty : Naming K1 K2 K3 V := ⟨[], fun _ => none⟩

/-- What a key denotes. -/
def denotes (s : Naming K1 K2 K3 V) (k : AnyKey K1 K2 K3) : Option V :=
  (s.name k).bind fun n => s.inserted[n]?

/-- An inserted value is named by its key; a link names what the existing key names; a key that is removed
names nothing; and unlinking takes their name from the other keys of a value. -/
def apply (s : Naming K1 K2 K3 V) : MapOp K1 K2 K3 V → Naming K1 K2 K3 V
  | .insert k v => ⟨s.inserted ++ [v], Function.update s.name k (some s.inserted.length)⟩
  | .link k k' => { s with name := (Routes.link s.name k (s.name k')).2 }
  | .remove k => { s with name := Function.update s.name k none }
  | .unlinkAllButKey1 k =>
      { s with name := fun k' =>
          if k' ≠ ⟨.key1, k⟩ ∧ s.name k' = s.name ⟨.key1, k⟩ then none else s.name k' }

end Naming

namespace ThreeKeyMap

section

variable {m m' : ThreeKeyMap K1 K2 K3 V} {op : MapOp K1 K2 K3 V}

/-! ### The map follows the names -/

variable {ids : List Nat} {s : Naming K1 K2 K3 V}

/-- The values at the positions are the inserted ones with the given numbers, each at most once, and a key
names the value at its position. -/
structure Numbered (ids : List Nat) (m : ThreeKeyMap K1 K2 K3 V) (s : Naming K1 K2 K3 V) : Prop where
  nodup : ids.Nodup
  length_eq : ids.length = m.values.length
  value_eq : ∀ i n : Nat, ids[i]? = some n → s.inserted[n]? = (m.values[i]?).map Prod.fst
  name_eq : ∀ k, s.name k = (m.index k).bind fun i => ids[i]?

theorem numbered_empty : Numbered [] (empty : ThreeKeyMap K1 K2 K3 V) Naming.empty where
  nodup := List.nodup_nil
  length_eq := rfl
  value_eq := by simp
  name_eq := by
    rintro ⟨space, k⟩
    cases space <;> rfl

/-- A key leads to the value it names. -/
theorem Numbered.getBy_eq (h : Numbered ids m s) (k : AnyKey K1 K2 K3) : m.getBy k = s.denotes k := by
  rw [m.getBy_eq, Naming.denotes, h.name_eq, Option.bind_assoc]
  congr 1
  funext i
  cases hi : ids[i]? with
  | none =>
      rw [List.getElem?_eq_none_iff, h.length_eq, ← List.getElem?_eq_none_iff] at hi
      rw [hi]
      rfl
  | some n => exact (h.value_eq i n hi).symm

theorem Numbered.name_of_index (h : Numbered ids m s) (hm : m.Covered) {k : AnyKey K1 K2 K3} {i : Nat}
    (hk : m.index k = some i) : ∃ n, s.name k = some n ∧ ids[i]? = some n := by
  have hlt : i < ids.length := by
    rw [h.length_eq]
    exact hm.inRange k i hk
  have hi : ids[i]? = some ids[i] := List.getElem?_eq_getElem hlt
  exact ⟨ids[i], by rw [h.name_eq, hk, Option.bind_some, hi], hi⟩

theorem Numbered.name_none_iff (h : Numbered ids m s) (hm : m.Covered) (k : AnyKey K1 K2 K3) :
    s.name k = none ↔ m.index k = none := by
  cases hk : m.index k with
  | none => simp [h.name_eq, hk]
  | some i =>
      obtain ⟨n, hn, -⟩ := h.name_of_index hm hk
      simp [hn]

/-- Keys name the same value exactly when they have the same position. -/
theorem Numbered.name_eq_iff (h : Numbered ids m s) (hm : m.Covered) (k k' : AnyKey K1 K2 K3) :
    s.name k = s.name k' ↔ m.index k = m.index k' := by
  cases hk : m.index k with
  | none =>
      rw [(h.name_none_iff hm k).mpr hk, eq_comm, h.name_none_iff hm, eq_comm]
  | some i =>
      obtain ⟨n, hn, hi⟩ := h.name_of_index hm hk
      cases hk' : m.index k' with
      | none => simp [hn, (h.name_none_iff hm k').mpr hk']
      | some j =>
          obtain ⟨n', hn', hj⟩ := h.name_of_index hm hk'
          rw [hn, hn', ← hi, ← hj, Option.some.injEq]
          exact List.getElem?_inj (List.getElem?_eq_some_iff.mp hi).1 h.nodup

theorem Numbered.insert (h : Numbered ids m s) (hm : m.Covered) (k : AnyKey K1 K2 K3) (v : V) :
    Numbered (ids ++ [s.inserted.length])
      ((m.setIndex k m.values.length).setValues (m.values ++ [(v, 1)])) (s.apply (.insert k v)) where
  nodup := by
    refine h.nodup.append (List.nodup_singleton _) (List.disjoint_singleton.mpr fun hmem => ?_)
    obtain ⟨i, hi⟩ := List.mem_iff_getElem?.mp hmem
    have hlt : i < m.values.length := by
      rw [← h.length_eq]
      exact (List.getElem?_eq_some_iff.mp hi).1
    have hvalue := h.value_eq i _ hi
    rw [List.getElem?_eq_none (Nat.le_refl _), List.getElem?_eq_getElem hlt] at hvalue
    cases hvalue
  length_eq := by simp [h.length_eq]
  value_eq := by
    intro i n hi
    simp only [Naming.apply, setValues_values]
    by_cases hlt : i < ids.length
    · rw [List.getElem?_append_left hlt] at hi
      have hvalue := h.value_eq i n hi
      rw [h.length_eq] at hlt
      rw [List.getElem?_append_left hlt, ← hvalue]
      rw [List.getElem?_eq_getElem hlt] at hvalue
      exact List.getElem?_append_left (List.getElem?_eq_some_iff.mp hvalue).1
    · have hend : i = ids.length := by
        have := (List.getElem?_eq_some_iff.mp hi).1
        simp only [List.length_append, List.length_singleton] at this
        omega
      subst hend
      rw [List.getElem?_concat_length] at hi
      cases hi
      rw [h.length_eq, List.getElem?_concat_length, List.getElem?_concat_length]
      rfl
  name_eq := by
    intro k'
    simp only [Naming.apply, setValues_index, setIndex_index, Function.update_apply]
    split
    · rw [Option.bind_some, ← h.length_eq, List.getElem?_concat_length]
    · rw [h.name_eq]
      cases hk' : m.index k' with
      | none => rfl
      | some i =>
          have hlt := hm.inRange k' i hk'
          rw [Option.bind_some, Option.bind_some, List.getElem?_append_left (by rwa [h.length_eq])]

/-- Counting does not touch the values. -/
theorem Numbered.setValues (h : Numbered ids m s) {i n : Nat} {v : V}
    (hget : m.values[i]? = some (v, n)) (n' : Nat) :
    Numbered ids (m.setValues (m.values.set i (v, n'))) s where
  nodup := h.nodup
  length_eq := h.length_eq.trans List.length_set.symm
  value_eq := by
    intro j q hj
    rw [h.value_eq j q hj, setValues_values]
    by_cases hij : j = i
    · subst hij
      rw [hget, List.getElem?_set_self (List.getElem?_eq_some_iff.mp hget).1]
      rfl
    · rw [List.getElem?_set_ne (Ne.symm hij)]
  name_eq := by
    intro k
    rw [setValues_index]
    exact h.name_eq k

/-- A change of positions is a change of names. -/
theorem Numbered.rename (h : Numbered ids m s) (hvalues : m'.values = m.values)
    {name : AnyKey K1 K2 K3 → Option Nat} (hname : ∀ k, name k = (m'.index k).bind fun i => ids[i]?) :
    Numbered ids m' { s with name := name } where
  nodup := h.nodup
  length_eq := by rw [hvalues, h.length_eq]
  value_eq := by
    intro i n hi
    rw [hvalues]
    exact h.value_eq i n hi
  name_eq := hname

/-- Dropping a value moves the last number to its position. -/
theorem Numbered.drop (h : Numbered ids m s) (hm : m.Covered) {k : AnyKey K1 K2 K3} {i : Nat} {v : V}
    (hk : m.index k = some i) (hget : m.values[i]? = some (v, 1)) (hdropped : Dropped m k i m') :
    ∃ ids', Numbered ids' m' (s.apply (.remove k)) := by
  have hlt : i < ids.length := by
    rw [h.length_eq]
    exact (List.getElem?_eq_some_iff.mp hget).1
  have hlen := h.length_eq
  have honly : m.keysAt i ≤ 1 := Nat.le_trans (hm i) (Nat.le_of_eq (refs_eq hget))
  obtain ⟨final, hfinal⟩ : ∃ final, ids.getLast? = some final :=
    ⟨_, List.getLast?_eq_some_getLast (List.ne_nil_of_length_pos (by omega))⟩
  have hlast : ids[m.values.length - 1]? = some final := by
    rw [← hlen, ← List.getLast?_eq_getElem?]
    exact hfinal
  have hids : ∀ j, (ids.set i final).dropLast[j]? =
      if j < m.values.length - 1 then if j = i then ids[m.values.length - 1]? else ids[j]? else none := by
    intro j
    rw [getElem?_swapLast, hlast, hlen]
  refine ⟨(ids.set i final).dropLast, nodup_swapLast hfinal h.nodup, ?_, fun j n hj => ?_, fun k' => ?_⟩
  · have hcount := (List.getElem?_eq_some_iff.mp hget).1
    rw [List.length_dropLast, List.length_set, hdropped.length_eq hcount, hlen]
  · rw [hids] at hj
    rw [hdropped.values_eq]
    split at hj
    · next hin =>
        rw [if_pos hin]
        split at hj
        · next hji =>
            rw [if_pos hji]
            exact h.value_eq _ n hj
        · next hji =>
            rw [if_neg hji]
            exact h.value_eq j n hj
    · cases hj
  · simp only [Naming.apply, Function.update_apply, hdropped.index_eq]
    split
    · rfl
    · next hne =>
        rw [h.name_eq]
        cases hk' : m.index k' with
        | none => rfl
        | some j =>
            have hj := hm.inRange k' j hk'
            have hji : j ≠ i := by
              rintro rfl
              exact index_ne_of_only hk honly hne hk'
            simp only [Option.bind_some, Option.map_some, hids]
            by_cases hend : j = m.values.length - 1
            · rw [if_pos hend, if_pos (by omega), if_pos rfl, hend]
            · rw [if_neg hend, if_pos (by omega), if_neg hji]

/-- **One operation** does to the map what it does to the names. -/
theorem Effect.numbered (he : Effect m op m') (hm : m.Covered) (h : Numbered ids m s) :
    ∃ ids', Numbered ids' m' (s.apply op) := by
  cases he with
  | inserted v hk => exact ⟨_, h.insert hm _ v⟩
  | @linked k k' i n v hk hk' hget =>
      have hnone := (h.name_none_iff hm k).mpr hk
      have hlink : (Routes.link s.name k (s.name k')).2 = Function.update s.name k (s.name k') := by
        obtain ⟨q, hq, -⟩ := h.name_of_index hm hk'
        rw [hq, Routes.link_some hnone]
      have hrenamed : Numbered ids (m.setIndex k i) (s.apply (.link k k')) := by
        refine h.rename (m.setIndex_values i) fun q => ?_
        rw [hlink, setIndex_index, Function.update_apply, Function.update_apply]
        split
        · rw [h.name_eq, hk']
        · exact h.name_eq q
      have hget' : (m.setIndex k i).values[i]? = some (v, n) := by rw [setIndex_values, hget]
      have hdone := hrenamed.setValues hget' (n + 1)
      rw [setIndex_values] at hdone
      exact ⟨ids, hdone⟩
  | @notLinked k k' hk =>
      refine ⟨ids, h.rename rfl fun q => ?_⟩
      have hsame : (Routes.link s.name k (s.name k')).2 = s.name := by
        by_cases hname : s.name k = none
        · have hindex := (h.name_none_iff hm k).mp hname
          have hnone := (h.name_none_iff hm k').mpr (hk.resolve_left (not_not.mpr hindex))
          rw [hnone, Routes.link_none hname]
        · rw [Routes.link_old hname]
      rw [hsame]
      exact h.name_eq q
  | @notRemoved k hk =>
      refine ⟨ids, h.rename rfl fun q => ?_⟩
      rw [Function.update_apply]
      split
      · next hq => rw [hq, hk]; rfl
      · exact h.name_eq q
  | @removed k i n v hk hget =>
      have hrenamed : Numbered ids (m.eraseIndex k) (s.apply (.remove k)) := by
        refine h.rename eraseIndex_values fun q => ?_
        rw [eraseIndex_index, Function.update_apply, Function.update_apply]
        split
        · rfl
        · exact h.name_eq q
      have hget' : (m.eraseIndex k).values[i]? = some (v, n + 2) := by rw [eraseIndex_values, hget]
      have hdone := hrenamed.setValues hget' (n + 1)
      rw [eraseIndex_values] at hdone
      exact ⟨ids, hdone⟩
  | dropped hk hget hdropped => exact h.drop hm hk hget hdropped
  | unlinked k =>
      refine ⟨ids, h.rename (m.unlinkAllButKey1_values k) fun q => ?_⟩
      rw [unlinkAllButKey1_index]
      simp only [h.name_eq_iff hm]
      split
      · rfl
      · exact h.name_eq q

/-- **Runs.** A run that inserts under absent keys goes through, and the map follows the names. -/
theorem run_numbered (b : Build) {ops : List (MapOp K1 K2 K3 V)} {n : Nat} (hm : m.Covered)
    (hle : ∀ j, refs m.values j ≤ n) (h : Numbered ids m s)
    (hops : Runs.Meets (apply b) InsertsAbsent m ops) :
    ∃ m' ids', Runs.run (apply b) m ops = .ok m' ∧ m'.Covered ∧
      (∀ j, refs m'.values j ≤ n + ops.length) ∧ Numbered ids' m' (ops.foldl Naming.apply s) := by
  induction ops generalizing m ids s n with
  | nil => exact ⟨m, ids, rfl, hm, hle, h⟩
  | cons op ops ih =>
      obtain ⟨m₁, hstep, heffect⟩ := hm.apply b hops.1
      obtain ⟨ids₁, hnumbered⟩ := heffect.numbered hm h
      obtain ⟨m', ids', hrun, hm', hle', h'⟩ :=
        ih (heffect.counts hm).1 (heffect.refs_le hle) hnumbered (hops.2 m₁ hstep)
      rw [Nat.add_assoc, Nat.add_comm 1] at hle'
      exact ⟨m', ids', (Runs.run_cons_ok hstep).trans hrun, hm', hle', h'⟩

end

/-- **Lookups never alias.** A run of the map that inserts under absent keys only goes through with every
stored index in range and no count above the number of operations. Afterwards every key leads to the value
it names; in particular the removal of any other key leaves it there. -/
theorem getBy_denotes (b : Build) (ops : List (MapOp K1 K2 K3 V))
    (hops : Runs.Meets (apply b) InsertsAbsent empty ops) :
    ∃ m : ThreeKeyMap K1 K2 K3 V, Runs.run (apply b) empty ops = .ok m ∧ m.InRange ∧
      (∀ i, refs m.values i ≤ ops.length) ∧
      (∀ k, m.getBy k = (ops.foldl Naming.apply .empty).denotes k) ∧
      ∀ k, ∃ old m', m.removeBy b k = .ok (old, m') ∧ ∀ k', k' ≠ k → m'.getBy k' = m.getBy k' := by
  obtain ⟨m, ids, hrun, hm, hle, h⟩ :=
    run_numbered b covered_empty (fun _ => Nat.le_refl 0) numbered_empty hops
  rw [Nat.zero_add] at hle
  refine ⟨m, hrun, hm.inRange, hle, h.getBy_eq, fun k => ?_⟩
  obtain ⟨old, m', hremove, heffect, -⟩ := hm.removeBy b k
  obtain ⟨ids', h'⟩ := heffect.numbered hm h
  refine ⟨old, m', hremove, fun k' hne => ?_⟩
  rw [h.getBy_eq, h'.getBy_eq, Naming.denotes, Naming.denotes]
  simp only [Naming.apply, Function.update_of_ne hne]

/-- A value goes, the last one takes its place, and its keys go on leading to it. -/
theorem moved_value_denoted :
    ∃ m : ThreeKeyMap Nat Nat Nat Nat, Runs.run (apply .release) empty
        [.insert ⟨.key1, 1⟩ 10, .insert ⟨.key1, 5⟩ 50, .link ⟨.key2, 7⟩ ⟨.key1, 5⟩,
          .remove ⟨.key1, 1⟩] = .ok m ∧
      m.getBy ⟨.key1, 1⟩ = none ∧ m.getBy ⟨.key1, 5⟩ = some 50 ∧ m.getBy ⟨.key2, 7⟩ = some 50 := by
  let ops : List (MapOp Nat Nat Nat Nat) :=
    [.insert ⟨.key1, 1⟩ 10, .insert ⟨.key1, 5⟩ 50, .link ⟨.key2, 7⟩ ⟨.key1, 5⟩, .remove ⟨.key1, 1⟩]
  obtain ⟨m, hrun, -, -, hdenotes, -⟩ := getBy_denotes .release ops (by decide)
  refine ⟨m, hrun, ?_, ?_, ?_⟩
  · rw [hdenotes]
    rfl
  · rw [hdenotes]
    rfl
  · rw [hdenotes]
    rfl

end ThreeKeyMap
end Qusb

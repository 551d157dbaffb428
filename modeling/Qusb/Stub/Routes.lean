import Qusb.Stub.Aliasing

/-! The map with three kinds of keys does on its view what `Routes` does.

`Sound` says that the counts cover the keys and that no value is there twice. Every operation keeps it;
in particular no removal finds a count of zero, no link an index out of range, and a value that is swapped
away leaves every other key where it led. The names of `Naming` say what each operation does to a map
whose positions are the numbers of its values. -/

open Tables

namespace Qusb

variable {K1 K2 K3 V : Type} [DecidableEq K1] [DecidableEq K2] [DecidableEq K3]

/-! ### Routes for a key of any kind -/

namespace Routes

omit [DecidableEq K1] [DecidableEq K2] [DecidableEq K3]

def get (r : Routes K1 K2 K3 V) : AnyKey K1 K2 K3 → Option V
  | ⟨.key1, k⟩ => r.byKey1 k
  | ⟨.key2, k⟩ => r.byKey2 k
  | ⟨.key3, k⟩ => r.byKey3 k

theorem ext_get {r r' : Routes K1 K2 K3 V} (h : ∀ k, r.get k = r'.get k) : r = r' := by
  obtain ⟨f1, f2, f3⟩ := r
  obtain ⟨g1, g2, g3⟩ := r'
  have h1 : f1 = g1 := funext fun k => h ⟨.key1, k⟩
  have h2 : f2 = g2 := funext fun k => h ⟨.key2, k⟩
  have h3 : f3 = g3 := funext fun k => h ⟨.key3, k⟩
  rw [h1, h2, h3]

/-- Whether a link is made depends on which of the two keys are there. -/
theorem link_fst_congr {K K' W : Type} [DecidableEq K] [DecidableEq K'] {f : K → Option V}
    {g : K' → Option W} {k : K} {k' : K'} {target : Option V} {target' : Option W}
    (hk : (f k).isSome = (g k').isSome) (htarget : target.isSome = target'.isSome) :
    (link f k target).1 = (link g k' target').1 := by
  unfold link
  rw [hk, htarget]
  split
  · rfl
  · split <;> rfl

/-- The keys that lead where the given one leads are cut off. -/
theorem unlinkAllButKey1_get [DecidableEq K1] [DecidableEq K2] [DecidableEq K3] [DecidableEq V]
    (r : Routes K1 K2 K3 V) (k : K1) (q : AnyKey K1 K2 K3) :
    (r.unlinkAllButKey1 k).get q =
      if q ≠ ⟨.key1, k⟩ ∧ r.get q = r.get ⟨.key1, k⟩ then none else r.get q := by
  have hkey : r.get ⟨.key1, k⟩ = r.byKey1 k := rfl
  rw [hkey]
  unfold unlinkAllButKey1
  cases hv : r.byKey1 k with
  | none =>
      show r.get q = _
      split
      · next hq => exact hq.2
      · rfl
  | some v =>
      obtain ⟨space, q⟩ := q
      cases space with
      | key1 =>
          show Function.update (cut r.byKey1 v) k (some v) q = _
          rw [Function.update_apply]
          by_cases hq : q = k
          · subst hq
            rw [if_pos rfl, if_neg fun h => h.1 rfl]
            exact hv.symm
          · rw [if_neg hq]
            exact if_congr (by simp [hq, get]) rfl rfl
      | key2 => exact if_congr (by simp [get]) rfl rfl
      | key3 => exact if_congr (by simp [get]) rfl rfl

end Routes

namespace ThreeKeyMap

/-- The values of the map. -/
def vals (m : ThreeKeyMap K1 K2 K3 V) : List V := m.values.map Prod.fst

structure Sound (m : ThreeKeyMap K1 K2 K3 V) : Prop where
  counted : ∀ i, uses m.key1Map i + (uses m.key2Map i + uses m.key3Map i) ≤ refs m.values i
  distinct : m.vals.Nodup

/-- An operation led to a sound map with the given view and no new value. -/
structure Follows (m m' : ThreeKeyMap K1 K2 K3 V) (r : Routes K1 K2 K3 V) : Prop where
  sound : m'.Sound
  view_eq : m'.view = r
  vals_subset : m'.vals ⊆ m.vals

omit [DecidableEq K1] [DecidableEq K2] [DecidableEq K3] in
theorem sound_empty : (empty : ThreeKeyMap K1 K2 K3 V).Sound := ⟨fun _ => Nat.zero_le _, List.nodup_nil⟩

section

variable {m m' : ThreeKeyMap K1 K2 K3 V} {op : MapOp K1 K2 K3 V}

theorem view_get (m : ThreeKeyMap K1 K2 K3 V) (k : AnyKey K1 K2 K3) : m.view.get k = m.getBy k := by
  obtain ⟨space, k⟩ := k
  cases space <;> rfl

omit [DecidableEq K1] [DecidableEq K2] [DecidableEq K3] in
theorem Sound.covered (hm : m.Sound) : m.Covered := hm.counted

theorem Covered.isSome_getBy (hm : m.Covered) (k : AnyKey K1 K2 K3) :
    (m.getBy k).isSome = (m.index k).isSome := by
  rw [m.getBy_eq]
  cases hk : m.index k with
  | none => rfl
  | some i => simp [hm.inRange k i hk]

theorem Covered.index_eq_none (hm : m.Covered) {k : AnyKey K1 K2 K3} (hk : m.getBy k = none) :
    m.index k = none := by
  have hsome := hm.isSome_getBy k
  rw [hk] at hsome
  exact Option.isNone_iff_eq_none.mp (by rw [← Option.not_isSome, ← hsome]; rfl)

omit [DecidableEq K2] [DecidableEq K3] in
theorem mem_vals_of_get1 {k : K1} {v : V} (h : m.getByKey1 k = some v) : v ∈ m.vals := by
  obtain ⟨i, n, -, hget⟩ := getByKey_eq_some_iff.mp h
  exact List.mem_map.mpr ⟨(v, n), List.mem_of_getElem? hget, rfl⟩

/-! ### A map names its values by their positions -/

def naming (m : ThreeKeyMap K1 K2 K3 V) : Naming K1 K2 K3 V := ⟨m.vals, m.index⟩

theorem Covered.numbered (hm : m.Covered) : Numbered (List.range m.values.length) m m.naming where
  nodup := List.nodup_range
  length_eq := List.length_range
  value_eq := by
    intro i n hi
    obtain ⟨hlt, rfl⟩ := List.getElem?_eq_some_iff.mp hi
    rw [List.getElem_range]
    exact List.getElem?_map
  name_eq := by
    intro k
    show m.index k = _
    cases hk : m.index k with
    | none => rfl
    | some i => rw [Option.bind_some, List.getElem?_range (hm.inRange k i hk)]

theorem Covered.denotes_naming (hm : m.Covered) (k : AnyKey K1 K2 K3) :
    m.naming.denotes k = m.getBy k := (hm.numbered.getBy_eq k).symm

/-- The values are the numbered ones. -/
theorem Numbered.vals_eq {ids : List Nat} {s : Naming K1 K2 K3 V} (h : Numbered ids m s) :
    m.vals = ids.filterMap (s.inserted[·]?) := by
  have hsome : ids.map (s.inserted[·]?) = m.vals.map some := by
    apply List.ext_getElem?
    intro i
    rw [List.getElem?_map, List.getElem?_map, vals, List.getElem?_map]
    cases hi : ids[i]? with
    | none =>
        rw [List.getElem?_eq_none_iff, h.length_eq, ← List.getElem?_eq_none_iff] at hi
        rw [hi]
        rfl
    | some n =>
        have hlt : i < m.values.length := by
          rw [← h.length_eq]
          exact (List.getElem?_eq_some_iff.mp hi).1
        rw [Option.map_some, h.value_eq i n hi, List.getElem?_eq_getElem hlt]
        rfl
  calc m.vals = (m.vals.map some).filterMap id := by rw [List.filterMap_map]; exact List.filterMap_some.symm
    _ = (ids.map (s.inserted[·]?)).filterMap id := by rw [hsome]
    _ = ids.filterMap (s.inserted[·]?) := List.filterMap_map

/-- **An effect on a sound map** is the one it has on the names of its values. -/
theorem Sound.effect (hm : m.Sound) (he : Effect m op m')
    (hdistinct : (m.naming.apply op).inserted.Nodup) :
    m'.Sound ∧ (∀ k, m'.getBy k = (m.naming.apply op).denotes k) ∧
      m'.vals ⊆ (m.naming.apply op).inserted := by
  obtain ⟨ids, h⟩ := he.numbered hm.covered hm.covered.numbered
  refine ⟨⟨(he.counts hm.covered).1, ?_⟩, h.getBy_eq, ?_⟩
  · rw [h.vals_eq]
    refine List.Nodup.filterMap (fun i j v hi hj => ?_) h.nodup
    have hlt : i < (m.naming.apply op).inserted.length := (List.getElem?_eq_some_iff.mp hi).1
    exact (List.getElem?_inj hlt hdistinct).mp (Eq.trans hi (Eq.symm hj))
  · rw [h.vals_eq]
    intro v hv
    obtain ⟨n, -, hn⟩ := List.mem_filterMap.mp hv
    exact List.mem_of_getElem? hn

/-- An operation that inserts nothing leads to the view that the names give. -/
theorem Sound.follows (hm : m.Sound) (he : Effect m op m') {r : Routes K1 K2 K3 V}
    (hinserted : (m.naming.apply op).inserted = m.vals)
    (hview : ∀ k, (m.naming.apply op).denotes k = r.get k) : Follows m m' r := by
  have hdistinct : (m.naming.apply op).inserted.Nodup := by
    rw [hinserted]
    exact hm.distinct
  obtain ⟨hsound, hget, hvals⟩ := hm.effect he hdistinct
  rw [hinserted] at hvals
  refine ⟨hsound, Routes.ext_get fun k => ?_, hvals⟩
  rw [view_get, hget, hview]

/-! What keys denote after an operation. -/

theorem Covered.denotes_insert (hm : m.Covered) (k q : AnyKey K1 K2 K3) (v : V) :
    (m.naming.apply (.insert k v)).denotes q = if q = k then some v else m.getBy q := by
  show ((Function.update m.index k (some m.vals.length) q).bind fun n => (m.vals ++ [v])[n]?) = _
  rw [Function.update_apply]
  split
  · exact List.getElem?_concat_length
  · rw [m.getBy_eq]
    cases hq : m.index q with
    | none => rfl
    | some i =>
        have hlt : i < m.vals.length := by
          rw [vals, List.length_map]
          exact hm.inRange q i hq
        rw [Option.bind_some, Option.bind_some, List.getElem?_append_left hlt]
        exact List.getElem?_map

theorem Covered.denotes_link (hm : m.Covered) (k k' q : AnyKey K1 K2 K3) :
    (m.naming.apply (.link k k')).denotes q =
      if q = k then (m.getBy k).or (m.getBy k') else m.getBy q := by
  show (((Routes.link m.index k (m.index k')).2 q).bind fun n => m.vals[n]?) = _
  rw [Routes.link_apply]
  split
  · have hsome := hm.isSome_getBy k
    cases hk : m.index k with
    | none =>
        have hnone : m.getBy k = none := by rw [m.getBy_eq, hk, Option.bind_none]
        rw [hnone, Option.none_or, Option.none_or]
        exact hm.denotes_naming k'
    | some i =>
        rw [hk] at hsome
        rw [Option.or_of_isSome hsome, Option.some_or, ← hk]
        exact hm.denotes_naming k
  · exact hm.denotes_naming q

theorem Covered.denotes_remove (hm : m.Covered) (k q : AnyKey K1 K2 K3) :
    (m.naming.apply (.remove k)).denotes q = if q = k then none else m.getBy q := by
  show ((Function.update m.index k none q).bind fun n => m.vals[n]?) = _
  rw [Function.update_apply]
  split
  · rfl
  · exact hm.denotes_naming q

/-- Keys lead to the same value exactly when they have the same position. -/
theorem Sound.getBy_eq_iff (hm : m.Sound) (k k' : AnyKey K1 K2 K3) :
    m.getBy k = m.getBy k' ↔ m.index k = m.index k' := by
  refine ⟨fun h => ?_, fun h => by rw [m.getBy_eq, m.getBy_eq, h]⟩
  have hsome : (m.index k).isSome = (m.index k').isSome := by
    rw [← hm.covered.isSome_getBy, h, hm.covered.isSome_getBy]
  cases hk : m.index k with
  | none =>
      rw [hk] at hsome
      exact (Option.isNone_iff_eq_none.mp (by rw [← Option.not_isSome, ← hsome]; rfl)).symm
  | some i =>
      obtain ⟨j, hk'⟩ := Option.isSome_iff_exists.mp (by rw [← hsome, hk]; rfl : (m.index k').isSome)
      have hlt : i < (m.values.map Prod.fst).length := by
        rw [List.length_map]
        exact hm.covered.inRange k i hk
      rw [m.getBy_eq, m.getBy_eq, hk, hk', Option.bind_some, Option.bind_some, ← List.getElem?_map,
        ← List.getElem?_map] at h
      rw [hk', (List.getElem?_inj hlt hm.distinct).mp h]

theorem Sound.denotes_unlink [DecidableEq V] (hm : m.Sound) (k : K1) (q : AnyKey K1 K2 K3) :
    (m.naming.apply (.unlinkAllButKey1 k)).denotes q =
      if q ≠ ⟨.key1, k⟩ ∧ m.getBy q = m.getBy ⟨.key1, k⟩ then none else m.getBy q := by
  simp only [hm.getBy_eq_iff]
  show ((if q ≠ ⟨.key1, k⟩ ∧ m.index q = m.index ⟨.key1, k⟩ then none else m.index q).bind
    fun n => m.vals[n]?) = _
  split
  · rfl
  · exact hm.covered.denotes_naming q

/-! ### Insertion and links -/

/-- **Insertion** of a new value under a new key. -/
theorem Sound.insertByKey1 (hm : m.Sound) {k : K1} {v : V} (hk : m.getByKey1 k = none)
    (hv : v ∉ m.vals) :
    ∃ m', m.insertByKey1 k v = (none, m') ∧ m'.Sound ∧ m'.vals = m.vals ++ [v] ∧
      m'.view = { m.view with byKey1 := Function.update m.getByKey1 k (some v) } := by
  have hnone : m.index ⟨.key1, k⟩ = none := hm.covered.index_eq_none hk
  have hinsert := m.insertBy_eq ⟨.key1, k⟩ v
  rw [hnone] at hinsert
  have hdistinct : (m.naming.apply (.insert ⟨.key1, k⟩ v)).inserted.Nodup :=
    List.Nodup.append hm.distinct (List.nodup_singleton v) (List.disjoint_singleton.mpr hv)
  obtain ⟨hsound, hget, -⟩ := hm.effect (.inserted v hnone) hdistinct
  refine ⟨_, hinsert, hsound, ?_, Routes.ext_get ?_⟩
  · rw [vals, setValues_values, List.map_append]
    rfl
  · rintro ⟨space, q⟩
    rw [view_get, hget, hm.covered.denotes_insert]
    cases space with
    | key1 =>
        show _ = Function.update m.getByKey1 k (some v) q
        rw [Function.update_apply]
        exact if_congr (by simp) rfl rfl
    | key2 => exact if_neg (by simp)
    | key3 => exact if_neg (by simp)

omit [DecidableEq K2] [DecidableEq K3] in
/-- The value of a key that is there is handed back. -/
theorem Sound.insertByKey1_old {k : K1} (v : V) (hk : m.getByKey1 k ≠ none) :
    (m.insertByKey1 k v).1 = some v := by
  obtain ⟨w, hw⟩ := Option.ne_none_iff_exists'.mp hk
  obtain ⟨i, n, hi, -⟩ := getByKey_eq_some_iff.mp hw
  simp only [ThreeKeyMap.insertByKey1, insertByKey, hi]

/-- **A link**, between keys of any kind. -/
theorem Sound.linkTo (hm : m.Sound) (k k' : AnyKey K1 K2 K3) {r : LinkResult × Routes K1 K2 K3 V}
    (hresult : (Routes.link m.getBy k (m.getBy k')).1 = r.1)
    (hview : ∀ q, r.2.get q = if q = k then (m.getBy k).or (m.getBy k') else m.getBy q) :
    ∃ m', m.linkTo k k' = .ok (r.1, m') ∧ Follows m m' r.2 := by
  obtain ⟨m', hok, heffect⟩ := hm.covered.linkTo k k'
  refine ⟨m', ?_, hm.follows heffect rfl fun q => ?_⟩
  · rw [hok, ← hresult]
    rw [Routes.link_fst_congr (hm.covered.isSome_getBy k).symm (hm.covered.isSome_getBy k').symm]
  · rw [hm.covered.denotes_link, hview]

theorem Sound.linkKey2ToKey1 (hm : m.Sound) (k : K2) (k' : K1) :
    ∃ m', m.linkKey2ToKey1 k k' = .ok ((m.view.linkKey2ToKey1 k k').1, m') ∧
      Follows m m' (m.view.linkKey2ToKey1 k k').2 := by
  refine hm.linkTo ⟨.key2, k⟩ ⟨.key1, k'⟩ (Routes.link_fst_congr rfl rfl) ?_
  rintro ⟨space, q⟩
  cases space with
  | key1 => exact (if_neg (by simp)).symm
  | key2 => exact (Routes.link_apply _ _ _ _).trans (if_congr (by simp) rfl rfl)
  | key3 => exact (if_neg (by simp)).symm

theorem Sound.linkKey3ToKey1 (hm : m.Sound) (k : K3) (k' : K1) :
    ∃ m', m.linkKey3ToKey1 k k' = .ok ((m.view.linkKey3ToKey1 k k').1, m') ∧
      Follows m m' (m.view.linkKey3ToKey1 k k').2 := by
  refine hm.linkTo ⟨.key3, k⟩ ⟨.key1, k'⟩ (Routes.link_fst_congr rfl rfl) ?_
  rintro ⟨space, q⟩
  cases space with
  | key1 => exact (if_neg (by simp)).symm
  | key2 => exact (if_neg (by simp)).symm
  | key3 => exact (Routes.link_apply _ _ _ _).trans (if_congr (by simp) rfl rfl)

theorem Sound.linkKey3ToKey2 (hm : m.Sound) (k : K3) (k' : K2) :
    ∃ m', m.linkKey3ToKey2 k k' = .ok ((m.view.linkKey3ToKey2 k k').1, m') ∧
      Follows m m' (m.view.linkKey3ToKey2 k k').2 := by
  refine hm.linkTo ⟨.key3, k⟩ ⟨.key2, k'⟩ (Routes.link_fst_congr rfl rfl) ?_
  rintro ⟨space, q⟩
  cases space with
  | key1 => exact (if_neg (by simp)).symm
  | key2 => exact (if_neg (by simp)).symm
  | key3 => exact (Routes.link_apply _ _ _ _).trans (if_congr (by simp) rfl rfl)

/-! ### Removal -/

/-- **Removal** of a key of any kind. -/
theorem Sound.removeBy (hm : m.Sound) (b : Build) (k : AnyKey K1 K2 K3) {r : Routes K1 K2 K3 V}
    (hview : ∀ q, r.get q = if q = k then none else m.getBy q) :
    ∃ v m', m.removeBy b k = .ok (v, m') ∧ Follows m m' r := by
  obtain ⟨v, m', hok, heffect, -⟩ := hm.covered.removeBy b k
  refine ⟨v, m', hok, hm.follows heffect rfl fun q => ?_⟩
  rw [hm.covered.denotes_remove, hview]

theorem Sound.removeByKey2 (hm : m.Sound) (k : K2) :
    ∃ v m', m.removeByKey2 k = .ok (v, m') ∧
      Follows m m' { m.view with byKey2 := Function.update m.view.byKey2 k none } := by
  refine hm.removeBy .dev ⟨.key2, k⟩ ?_
  rintro ⟨space, q⟩
  cases space with
  | key1 => exact (if_neg (by simp)).symm
  | key2 => exact (Function.update_apply _ _ _ _).trans (if_congr (by simp) rfl rfl)
  | key3 => exact (if_neg (by simp)).symm

theorem Sound.removeByKey3 (hm : m.Sound) (k : K3) :
    ∃ v m', m.removeByKey3 k = .ok (v, m') ∧
      Follows m m' { m.view with byKey3 := Function.update m.view.byKey3 k none } := by
  refine hm.removeBy .dev ⟨.key3, k⟩ ?_
  rintro ⟨space, q⟩
  cases space with
  | key1 => exact (if_neg (by simp)).symm
  | key2 => exact (if_neg (by simp)).symm
  | key3 => exact (Function.update_apply _ _ _ _).trans (if_congr (by simp) rfl rfl)

/-- **Unlinking** leaves only the given key of its value. -/
theorem Sound.unlinkAllButKey1 [DecidableEq V] (hm : m.Sound) (k : K1) :
    Follows m (m.unlinkAllButKey1 k) (m.view.unlinkAllButKey1 k) := by
  refine hm.follows (.unlinked k) rfl fun q => ?_
  rw [hm.denotes_unlink, Routes.unlinkAllButKey1_get]
  simp only [view_get]

end

end ThreeKeyMap
end Qusb

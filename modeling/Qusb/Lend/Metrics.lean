import Mathlib.Order.OrderDual
import Qusb.Base.Rankings
import Qusb.Proto.Machine
import Qusb.Proto.Msg

/-! Metrics.

The greatest, the least and the last few of the items that were pushed, and the mean of the last spans of time. -/

open Rankings

namespace Qusb

namespace Metrics

/-- A span of time, in nanoseconds. -/
abbrev Duration := Nat

/-- The greatest items, with the data of each. `BTreeMap<Reverse<T>, V>` lists the greatest item first. -/
structure Max (N : Nat) (T V : Type) [LinearOrder T] where
  inner : SortedMap Tᵒᵈ V

/-- The least items. -/
structure Min (N : Nat) (T : Type) [LinearOrder T] where
  inner : SortedMap T Unit

/-- The last items. -/
structure RollingAvg (N : Nat) (T : Type) where
  inner : List T

variable {N : Nat} {T V : Type}

def RollingAvg.new : RollingAvg N T := ⟨[]⟩

def RollingAvg.push (avg : RollingAvg N T) (item : T) : RollingAvg N T :=
  ⟨(if N ≤ avg.inner.length then avg.inner.tail else avg.inner) ++ [item]⟩

def RollingAvg.pushAll (items : List T) : RollingAvg N T := items.foldl RollingAvg.push .new

/-- The sum of spans of time; one that is not below 2^64 seconds panics. -/
def Duration.sum (spans : List Duration) : Except Fault Duration :=
  if spans.sum < 2 ^ 64 * 10 ^ 9 then .ok spans.sum else .error .expectNone

/-- The divisor becomes a `u32`, and the quotient is rounded down. -/
def Duration.div (span : Duration) (n : Nat) : Except Fault Duration :=
  if 0 < n ∧ n < 2 ^ 32 then .ok (span / n) else .error .unwrapNone

def RollingAvg.mean (avg : RollingAvg N Duration) : Except Fault (Option Duration) :=
  if avg.inner.isEmpty then .ok none
  else do
    let sum ← Duration.sum avg.inner
    let mean ← sum.div avg.inner.length
    return some mean

variable [LinearOrder T]

def Max.new : Max N T V := ⟨.empty⟩

def Max.push (m : Max N T V) (item : T) (data : V) : Max N T V :=
  let inner := m.inner.insert (OrderDual.toDual item) data
  ⟨if N < inner.length then inner.popLast else inner⟩

def Max.pushAll (ps : List (T × V)) : Max N T V := ps.foldl (fun m p => m.push p.1 p.2) .new

def Min.new : Min N T := ⟨.empty⟩

def Min.push (m : Min N T) (item : T) : Min N T :=
  let inner := m.inner.insert item ()
  ⟨if N < inner.length then inner.popLast else inner⟩

def Min.pushAll (items : List T) : Min N T := items.foldl Min.push .new

/-! ### What is kept -/

omit [LinearOrder T] in
theorem RollingAvg.pushAll_append (items : List T) (item : T) :
    (RollingAvg.pushAll (items ++ [item]) : RollingAvg N T) = (RollingAvg.pushAll items).push item :=
  List.foldl_append

theorem Max.pushAll_append (ps : List (T × V)) (p : T × V) :
    (Max.pushAll (ps ++ [p]) : Max N T V) = (Max.pushAll ps).push p.1 p.2 :=
  List.foldl_append

theorem Min.pushAll_append (items : List T) (item : T) :
    (Min.pushAll (items ++ [item]) : Min N T) = (Min.pushAll items).push item :=
  List.foldl_append

theorem Max.inner_pushAll (ps : List (T × V)) :
    (Max.pushAll ps : Max N T V).inner = SortedMap.pushAll N (ps.map fun p => (OrderDual.toDual p.1, p.2)) := by
  induction ps using List.reverseRecOn with
  | nil => rfl
  | append_singleton ps p ih =>
      rw [List.map_append, List.map_singleton, SortedMap.pushAll_append, ← ih, Max.pushAll_append]
      rfl

theorem Min.inner_pushAll (items : List T) :
    (Min.pushAll items : Min N T).inner = SortedMap.pushAll N (items.map fun item => (item, ())) := by
  induction items using List.reverseRecOn with
  | nil => rfl
  | append_singleton items item ih =>
      rw [List.map_append, List.map_singleton, SortedMap.pushAll_append, ← ih, Min.pushAll_append]
      rfl

omit [LinearOrder T] in
theorem RollingAvg.inner_pushAll (items : List T) :
    (RollingAvg.pushAll items : RollingAvg N T).inner = items.drop (items.length - max N 1) := by
  have hslide : (RollingAvg.pushAll items : RollingAvg N T).inner = items.foldl (slide N) [] := by
    induction items using List.reverseRecOn with
    | nil => rfl
    | append_singleton items item ih =>
        rw [List.foldl_append, List.foldl_cons, List.foldl_nil, ← ih, RollingAvg.pushAll_append]
        rfl
  rw [hslide, foldl_slide]

/-- **The greatest items**: an item is kept with its last data, if fewer than `N` others are greater. -/
theorem Max.mem_pushAll_iff {ps : List (T × V)} {item : T} {data : V} :
    (OrderDual.toDual item, data) ∈ (Max.pushAll ps : Max N T V).inner.entries ↔
      Latest ps item data ∧ ((ps.map Prod.fst).toFinset.filter (item < ·)).card < N := by
  have hkeys : (((ps.map fun p => (OrderDual.toDual p.1, p.2)).map Prod.fst).toFinset.filter
      (· < OrderDual.toDual item)).card = ((ps.map Prod.fst).toFinset.filter (item < ·)).card := by
    have himage : ((ps.map fun p => (OrderDual.toDual p.1, p.2)).map Prod.fst).toFinset.filter
        (· < OrderDual.toDual item) =
          ((ps.map Prod.fst).toFinset.filter (item < ·)).image OrderDual.toDual := by
      ext key
      simp only [Finset.mem_filter, List.mem_toFinset, List.mem_map, Finset.mem_image]
      constructor
      · rintro ⟨⟨q, ⟨p, hp, rfl⟩, rfl⟩, hless⟩
        exact ⟨p.1, ⟨⟨p, hp, rfl⟩, OrderDual.toDual_lt_toDual.mp hless⟩, rfl⟩
      · rintro ⟨key, ⟨⟨p, hp, rfl⟩, hless⟩, rfl⟩
        exact ⟨⟨_, ⟨p, hp, rfl⟩, rfl⟩, OrderDual.toDual_lt_toDual.mpr hless⟩
    rw [himage, Finset.card_image_of_injective _ OrderDual.toDual.injective]
  rw [Max.inner_pushAll, SortedMap.mem_pushAll_iff, latest_map OrderDual.toDual.injective, hkeys]

/-- **The least items**: an item is kept if fewer than `N` others are less. -/
theorem Min.mem_pushAll_iff {items : List T} {item : T} :
    (item, ()) ∈ (Min.pushAll items : Min N T).inner.entries ↔
      item ∈ items ∧ (items.toFinset.filter (· < item)).card < N := by
  have hkeys : (items.map fun item => (item, ())).map Prod.fst = items := by
    rw [List.map_map]
    exact List.map_id items
  rw [Min.inner_pushAll, SortedMap.mem_pushAll_iff, latest_unit, hkeys]

/-- The mean of spans of time whose sum is not too long; without any, it is zero to those who ask for a default. -/
theorem RollingAvg.mean_eq_ok {avg : RollingAvg N Duration} (hlen : avg.inner.length < 2 ^ 32)
    (hsum : avg.inner.sum < 2 ^ 64 * 10 ^ 9) :
    ∃ mean, avg.mean = .ok mean ∧ mean.getD 0 = avg.inner.sum / avg.inner.length := by
  cases hinner : avg.inner with
  | nil => exact ⟨none, by rw [mean, hinner]; rfl, rfl⟩
  | cons span spans =>
      rw [hinner] at hlen hsum
      have hpos : 0 < (span :: spans).length := List.length_pos_of_mem List.mem_cons_self
      refine ⟨some ((span :: spans).sum / (span :: spans).length), ?_, rfl⟩
      rw [mean, hinner, Duration.sum, if_pos hsum]
      simp only [Duration.div, ok_bind, if_pos (And.intro hpos hlen)]
      rfl

end Metrics
end Qusb

import Mathlib.Data.List.Basic

/-! What lies behind a consumer that gets stuck.

A consumer takes items in order, and an item that satisfies `p` needs a slot of a bounded buffer. When
`room` slots are free and nobody empties the buffer, `behind p room items` is the number of items behind
the first one that finds no slot. -/

namespace Backlog

variable {α : Type*} {p : α → Bool} {room m : Nat} {a : α} {items : List α}

def behind (p : α → Bool) : Nat → List α → Option Nat
  | _, [] => none
  | 0, a :: items => if p a then some items.length else behind p 0 items
  | room + 1, a :: items => if p a then behind p room items else behind p (room + 1) items

@[simp] theorem behind_nil : behind p room [] = none := by
  cases room <;> rfl

theorem behind_cons_of_not (h : p a = false) : behind p room (a :: items) = behind p room items := by
  cases room <;> simp [behind, h]

theorem behind_zero_cons (h : p a = true) : behind p 0 (a :: items) = some items.length := by
  simp [behind, h]

theorem behind_succ_cons (h : p a = true) : behind p (room + 1) (a :: items) = behind p room items := by
  simp [behind, h]

theorem behind_lt (h : behind p room items = some m) : m < items.length := by
  induction items generalizing room with
  | nil => simp at h
  | cons a items ih =>
      rw [List.length_cons]
      cases ha : p a with
      | false =>
          rw [behind_cons_of_not ha] at h
          exact Nat.lt_succ_of_lt (ih h)
      | true =>
          cases room with
          | zero =>
              rw [behind_zero_cons ha] at h
              cases h
              exact Nat.lt_succ_self _
          | succ room =>
              rw [behind_succ_cons ha] at h
              exact Nat.lt_succ_of_lt (ih h)

/-- The consumer gets through when there is a slot for every item that needs one. -/
theorem behind_eq_none_iff : behind p room items = none ↔ items.countP p ≤ room := by
  induction items generalizing room with
  | nil => simp
  | cons a items ih =>
      cases ha : p a with
      | false => rw [behind_cons_of_not ha, ih, List.countP_cons_of_neg (by simp [ha])]
      | true =>
          rw [List.countP_cons_of_pos ha]
          cases room with
          | zero =>
              rw [behind_zero_cons ha]
              exact ⟨fun h => (nomatch h), fun h => absurd h (Nat.not_succ_le_zero _)⟩
          | succ room => rw [behind_succ_cons ha, ih, Nat.add_le_add_iff_right]

/-- Where the consumer gets stuck, what is added lies behind. -/
theorem behind_append_of_some (more : List α) (h : behind p room items = some m) :
    behind p room (items ++ more) = some (m + more.length) := by
  induction items generalizing room with
  | nil => simp at h
  | cons a items ih =>
      rw [List.cons_append]
      cases ha : p a with
      | false =>
          rw [behind_cons_of_not ha] at h ⊢
          exact ih h
      | true =>
          cases room with
          | zero =>
              rw [behind_zero_cons ha] at h ⊢
              cases h
              rw [List.length_append]
          | succ room =>
              rw [behind_succ_cons ha] at h ⊢
              exact ih h

/-- Where the consumer does not get stuck, only an item that needs a slot can make it, and nothing lies
behind that item. -/
theorem behind_concat_of_none (h : behind p room items = none) :
    behind p room (items ++ [a]) = none ∨ (p a = true ∧ behind p room (items ++ [a]) = some 0) := by
  induction items generalizing room with
  | nil =>
      rw [List.nil_append]
      cases ha : p a with
      | false => exact Or.inl (by rw [behind_cons_of_not ha, behind_nil])
      | true =>
          cases room with
          | zero => exact Or.inr ⟨rfl, behind_zero_cons ha⟩
          | succ room => exact Or.inl (by rw [behind_succ_cons ha, behind_nil])
  | cons b items ih =>
      rw [List.cons_append]
      cases hb : p b with
      | false =>
          rw [behind_cons_of_not hb] at h ⊢
          exact ih h
      | true =>
          cases room with
          | zero =>
              rw [behind_zero_cons hb] at h
              cases h
          | succ room =>
              rw [behind_succ_cons hb] at h ⊢
              exact ih h

/-- With one more slot the consumer gets stuck later, if at all. -/
theorem behind_of_succ (h : behind p (room + 1) items = some m) :
    ∃ n, behind p room items = some n ∧ m < n := by
  induction items generalizing room with
  | nil => simp at h
  | cons a items ih =>
      cases ha : p a with
      | false =>
          rw [behind_cons_of_not ha] at h ⊢
          exact ih h
      | true =>
          rw [behind_succ_cons ha] at h
          cases room with
          | zero => exact ⟨_, behind_zero_cons ha, behind_lt h⟩
          | succ room =>
              rw [behind_succ_cons ha]
              exact ih h

end Backlog

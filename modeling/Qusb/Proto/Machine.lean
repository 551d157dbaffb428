import Mathlib.Algebra.Group.Nat.Defs

/-! What the Rust code can do besides returning: the faults, and the machine arithmetic that raises
them.

A panic and a broken obligation of an `unsafe` operation are `Fault`s. Overflow checks and
`debug_assert!` are on in the `dev` profile and off in the `release` profile, where arithmetic wraps.
`usize` has 64 bits. -/

namespace Qusb

/-- The cargo profile the code is built with. -/
inductive Build where
  | dev
  | release
  deriving DecidableEq, Repr

/-- Why the code stops without returning. -/
inductive Fault where
  | overflow
  | splitOutOfRange
  | indexOutOfRange
  | unwrapNone
  | expectNone
  | assertFailed
  | unimplemented
  | unreachable
  | todo
  | undefinedBehaviour
  deriving DecidableEq, Repr

/-- A sequence goes through exactly when both parts do. -/
theorem bind_eq_ok_iff {α β : Type} {x : Except Fault α} {f : α → Except Fault β} {r : β} :
    x >>= f = .ok r ↔ ∃ a, x = .ok a ∧ f a = .ok r := by
  cases x with
  | error e => simp [bind, Except.bind]
  | ok a => simp [bind, Except.bind]

/-- It faults where the first of its parts does that does not go through. -/
theorem bind_eq_error_iff {α β : Type} {x : Except Fault α} {f : α → Except Fault β} {e : Fault} :
    x >>= f = .error e ↔ x = .error e ∨ ∃ a, x = .ok a ∧ f a = .error e := by
  cases x with
  | error e' => simp [bind, Except.bind]
  | ok a => simp [bind, Except.bind]

@[simp] theorem ok_bind {α β : Type} (a : α) (f : α → Except Fault β) :
    (Except.ok a : Except Fault α) >>= f = f a := rfl

@[simp] theorem error_bind {α β : Type} (e : Fault) (f : α → Except Fault β) :
    (Except.error e : Except Fault α) >>= f = .error e := rfl

/-- `assert!`. -/
def assert (c : Prop) [Decidable c] : Except Fault Unit :=
  if c then .ok () else .error .assertFailed

/-- `Option::unwrap`. -/
def unwrap {α : Type*} : Option α → Except Fault α
  | some a => .ok a
  | none => .error .unwrapNone

theorem assert_eq_ok_iff {c : Prop} [Decidable c] {u : Unit} : assert c = .ok u ↔ c := by
  unfold assert
  split <;> simp [*]

namespace Build

/-- `debug_assert!`: checked in the `dev` profile only. -/
def debugAssert (b : Build) (c : Prop) [Decidable c] : Except Fault Unit :=
  match b with
  | .dev => assert c
  | .release => .ok ()

/-- `u16` multiplication. -/
def mulU16 (b : Build) (x y : UInt16) : Except Fault UInt16 :=
  match b with
  | .dev => if x.toNat * y.toNat < 2 ^ 16 then .ok (x * y) else .error .overflow
  | .release => .ok (x * y)

/-- `u32` addition. -/
def addU32 (b : Build) (x y : UInt32) : Except Fault UInt32 :=
  match b with
  | .dev => if x.toNat + y.toNat < 2 ^ 32 then .ok (x + y) else .error .overflow
  | .release => .ok (x + y)

/-- `u64` addition. -/
def addU64 (b : Build) (x y : UInt64) : Except Fault UInt64 :=
  match b with
  | .dev => if x.toNat + y.toNat < 2 ^ 64 then .ok (x + y) else .error .overflow
  | .release => .ok (x + y)

/-- `usize` addition. -/
def addUsize (b : Build) (x y : Nat) : Except Fault Nat :=
  match b with
  | .dev => if x + y < 2 ^ 64 then .ok (x + y) else .error .overflow
  | .release => .ok ((x + y) % 2 ^ 64)

/-- `usize` subtraction. -/
def subUsize (b : Build) (x y : Nat) : Except Fault Nat :=
  match b with
  | .dev => if y ≤ x then .ok (x - y) else .error .overflow
  | .release => .ok ((x + 2 ^ 64 - y) % 2 ^ 64)

/-- `usize` multiplication. -/
def mulUsize (b : Build) (x y : Nat) : Except Fault Nat :=
  match b with
  | .dev => if x * y < 2 ^ 64 then .ok (x * y) else .error .overflow
  | .release => .ok (x * y % 2 ^ 64)

/-- A subtraction in range is exact in both profiles. -/
theorem subUsize_of_le (b : Build) {x y : Nat} (h : y ≤ x) (hx : x < 2 ^ 64) :
    b.subUsize x y = .ok (x - y) := by
  cases b with
  | dev => simp [subUsize, h]
  | release =>
      have hmod : (x + 2 ^ 64 - y) % 2 ^ 64 = x - y := by omega
      simp only [subUsize, hmod]

theorem addUsize_of_lt (b : Build) {x y : Nat} (h : x + y < 2 ^ 64) :
    b.addUsize x y = .ok (x + y) := by
  cases b with
  | dev => simp only [addUsize, if_pos h]
  | release => simp only [addUsize, Nat.mod_eq_of_lt h]

theorem mulUsize_of_lt (b : Build) {x y : Nat} (h : x * y < 2 ^ 64) :
    b.mulUsize x y = .ok (x * y) := by
  cases b with
  | dev => simp only [mulUsize, if_pos h]
  | release => simp only [mulUsize, Nat.mod_eq_of_lt h]

/-- An assertion that fails panics. -/
theorem debugAssert_eq_error {b : Build} {c : Prop} [Decidable c] {f : Fault}
    (h : b.debugAssert c = .error f) : f = .assertFailed := by
  cases b with
  | dev =>
      simp only [debugAssert, assert] at h
      split at h
      · cases h
      · cases h
        rfl
  | release => cases h

theorem addU32_eq_error {b : Build} {x y : UInt32} {f : Fault} (h : b.addU32 x y = .error f) :
    f = .overflow := by
  cases b with
  | dev =>
      simp only [addU32] at h
      split at h
      · cases h
      · cases h
        rfl
  | release => cases h

theorem debugAssert_eq_ok_iff {b : Build} {c : Prop} [Decidable c] {u : Unit} :
    b.debugAssert c = .ok u ↔ (b = .dev → c) := by
  cases b with
  | dev => exact assert_eq_ok_iff.trans ⟨fun h _ => h, fun h => h rfl⟩
  | release => exact ⟨fun _ h => (by cases h), fun _ => rfl⟩

/-- The sum, which in the `dev` profile is in range. -/
theorem addU32_eq_ok_iff {b : Build} {x y z : UInt32} :
    b.addU32 x y = .ok z ↔ z = x + y ∧ (b = .dev → x.toNat + y.toNat < 2 ^ 32) := by
  cases b with
  | dev =>
      by_cases hlt : x.toNat + y.toNat < 2 ^ 32
      · rw [addU32, if_pos hlt, Except.ok.injEq]
        exact ⟨fun h => ⟨h.symm, fun _ => hlt⟩, fun h => h.1.symm⟩
      · rw [addU32, if_neg hlt]
        exact ⟨fun h => (by cases h), fun h => absurd (h.2 rfl) hlt⟩
  | release =>
      rw [addU32, Except.ok.injEq]
      exact ⟨fun h => ⟨h.symm, fun h => (by cases h)⟩, fun h => h.1.symm⟩

theorem addU64_eq_ok_iff {b : Build} {x y z : UInt64} :
    b.addU64 x y = .ok z ↔ z = x + y ∧ (b = .dev → x.toNat + y.toNat < 2 ^ 64) := by
  cases b with
  | dev =>
      by_cases hlt : x.toNat + y.toNat < 2 ^ 64
      · rw [addU64, if_pos hlt, Except.ok.injEq]
        exact ⟨fun h => ⟨h.symm, fun _ => hlt⟩, fun h => h.1.symm⟩
      · rw [addU64, if_neg hlt]
        exact ⟨fun h => (by cases h), fun h => absurd (h.2 rfl) hlt⟩
  | release =>
      rw [addU64, Except.ok.injEq]
      exact ⟨fun h => ⟨h.symm, fun h => (by cases h)⟩, fun h => h.1.symm⟩

/-- A sum in range is exact in both profiles. -/
theorem addU32_of_lt (b : Build) {x y : UInt32} (h : x.toNat + y.toNat < 2 ^ 32) :
    b.addU32 x y = .ok (x + y) :=
  addU32_eq_ok_iff.mpr ⟨rfl, fun _ => h⟩

end Build
end Qusb

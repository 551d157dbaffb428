import Mathlib.Algebra.Group.Nat.Defs
import Mathlib.Data.List.DropRight
import Mathlib.Data.List.Infix
import Mathlib.Tactic.Common

/-! Text.

A text is a list of characters. It is read by lines: a line ends at a line feed and loses a carriage return before
it. The other operations cut a line into parts and read a hexadecimal number, with a sign in front of it if there is
one. -/

namespace Text

abbrev Str := List Char

/-! ### Lines -/

/-- The pieces of a text, each with the line feed that ends it. -/
def splitInclusive : Str → List Str
  | [] => []
  | c :: cs =>
      if c = '\n' then [c] :: splitInclusive cs
      else
        match splitInclusive cs with
        | [] => [[c]]
        | l :: ls => (c :: l) :: ls

def stripSuffix (c : Char) (s : Str) : Option Str := if s.getLast? = some c then some s.dropLast else none

/-- A piece without the end of its line. -/
def withoutEnd (piece : Str) : Str :=
  match stripSuffix '\n' piece with
  | none => piece
  | some line => (stripSuffix '\r' line).getD line

def lines (s : Str) : List Str := (splitInclusive s).map withoutEnd

inductive LineEnd
  | lf
  | crlf
  deriving DecidableEq, Repr

def LineEnd.text : LineEnd → Str
  | .lf => ['\n']
  | .crlf => ['\r', '\n']

theorem not_mem_cons_iff {c d : Char} {s : Str} : c ∉ d :: s ↔ c ≠ d ∧ c ∉ s := by
  rw [List.mem_cons, not_or]

theorem splitInclusive_line {l : Str} (hl : '\n' ∉ l) (rest : Str) :
    splitInclusive (l ++ '\n' :: rest) = (l ++ ['\n']) :: splitInclusive rest := by
  induction l with
  | nil => rw [List.nil_append, splitInclusive, if_pos rfl, List.nil_append]
  | cons c l ih =>
      obtain ⟨hc, hl'⟩ := not_mem_cons_iff.mp hl
      rw [List.cons_append, splitInclusive, if_neg (Ne.symm hc), ih hl']
      rfl

theorem splitInclusive_last {l : Str} (hl : '\n' ∉ l) :
    splitInclusive l = if l = [] then [] else [l] := by
  induction l with
  | nil => rfl
  | cons c l ih =>
      obtain ⟨hc, hl'⟩ := not_mem_cons_iff.mp hl
      rw [splitInclusive, if_neg (Ne.symm hc), ih hl', if_neg (List.cons_ne_nil c l)]
      split
      · next h =>
          split at h
          · next hnil => rw [hnil]
          · cases h
      · next h =>
          split at h
          · cases h
          · cases h
            rfl

theorem stripSuffix_concat (c : Char) (s : Str) : stripSuffix c (s ++ [c]) = some s := by
  rw [stripSuffix, List.getLast?_concat, if_pos rfl, List.dropLast_concat]

theorem stripSuffix_of_getLast?_ne {c : Char} {s : Str} (h : s.getLast? ≠ some c) : stripSuffix c s = none :=
  if_neg h

theorem withoutEnd_line {l : Str} (hl : l.getLast? ≠ some '\r') (e : LineEnd) : withoutEnd (l ++ e.text) = l := by
  cases e with
  | lf =>
      rw [LineEnd.text, withoutEnd, stripSuffix_concat]
      simp only
      rw [stripSuffix_of_getLast?_ne hl]
      rfl
  | crlf =>
      have hsplit : l ++ LineEnd.text .crlf = (l ++ ['\r']) ++ ['\n'] := by
        rw [List.append_assoc]
        rfl
      rw [hsplit, withoutEnd, stripSuffix_concat]
      simp only
      rw [stripSuffix_concat]
      rfl

theorem withoutEnd_last {l : Str} (hl : '\n' ∉ l) : withoutEnd l = l := by
  have hnone : stripSuffix '\n' l = none :=
    stripSuffix_of_getLast?_ne fun h => hl (List.mem_of_getLast? h)
  rw [withoutEnd, hnone]

/-- **The lines of a text** that is written line by line are these lines. -/
theorem lines_written {ls : List (Str × LineEnd)} {last : Str}
    (hlines : ∀ l ∈ ls, '\n' ∉ l.1 ∧ l.1.getLast? ≠ some '\r') (hlast : '\n' ∉ last) :
    lines (ls.flatMap (fun l => l.1 ++ l.2.text) ++ last) =
      ls.map Prod.fst ++ if last = [] then [] else [last] := by
  induction ls with
  | nil =>
      rw [List.flatMap_nil, List.nil_append, List.map_nil, List.nil_append, lines, splitInclusive_last hlast]
      split
      · rfl
      · exact congrArg (· :: []) (withoutEnd_last hlast)
  | cons l ls ih =>
      obtain ⟨⟨hlf, hcr⟩, hls⟩ := List.forall_mem_cons.mp hlines
      obtain ⟨body, e⟩ := l
      have hpiece : splitInclusive ((body ++ e.text) ++ (ls.flatMap (fun l => l.1 ++ l.2.text) ++ last)) =
          (body ++ e.text) :: splitInclusive (ls.flatMap (fun l => l.1 ++ l.2.text) ++ last) := by
        cases e with
        | lf =>
            rw [LineEnd.text, List.append_assoc, List.singleton_append]
            exact splitInclusive_line hlf _
        | crlf =>
            have hlf' : '\n' ∉ body ++ ['\r'] := by
              simpa using hlf
            have := splitInclusive_line hlf' (ls.flatMap (fun l => l.1 ++ l.2.text) ++ last)
            simpa [LineEnd.text] using this
      rw [List.flatMap_cons, List.append_assoc, lines, hpiece, List.map_cons, withoutEnd_line hcr]
      exact congrArg (body :: ·) (ih hls)

/-! ### Parts of a line -/

def splitOnce (c : Char) : Str → Option (Str × Str)
  | [] => none
  | d :: ds => if d = c then some ([], ds) else (splitOnce c ds).map fun p => (d :: p.1, p.2)

def stripPrefix (p s : Str) : Option Str := if p <+: s then some (s.drop p.length) else none

/-- Whether `sub` occurs in the text. -/
def contains (s sub : Str) : Bool := decide (sub <:+: s)

/-- The characters with the property White_Space. -/
def isWhitespace (c : Char) : Bool :=
  let n := c.toNat
  (0x9 ≤ n && n ≤ 0xd) || n == 0x20 || n == 0x85 || n == 0xa0 || n == 0x1680 || (0x2000 ≤ n && n ≤ 0x200a) ||
    n == 0x2028 || n == 0x2029 || n == 0x202f || n == 0x205f || n == 0x3000

def trim (s : Str) : Str := (s.dropWhile isWhitespace).rdropWhile isWhitespace

theorem splitOnce_eq_some_iff {c : Char} {s key rest : Str} :
    splitOnce c s = some (key, rest) ↔ c ∉ key ∧ s = key ++ c :: rest := by
  induction s generalizing key with
  | nil => simp [splitOnce]
  | cons d ds ih =>
      rw [splitOnce]
      split
      · next h =>
          subst h
          constructor
          · rintro ⟨⟩
            exact ⟨List.not_mem_nil, rfl⟩
          · rintro ⟨hc, heq⟩
            cases key with
            | nil =>
                cases heq
                rfl
            | cons k ks =>
                cases heq
                exact absurd List.mem_cons_self hc
      · next h =>
          rw [Option.map_eq_some_iff]
          constructor
          · rintro ⟨⟨key', rest'⟩, hsplit, heq⟩
            cases heq
            obtain ⟨hc, rfl⟩ := ih.mp hsplit
            exact ⟨not_mem_cons_iff.mpr ⟨Ne.symm h, hc⟩, rfl⟩
          · rintro ⟨hc, heq⟩
            cases key with
            | nil =>
                cases heq
                exact absurd rfl h
            | cons k ks =>
                cases heq
                exact ⟨(ks, rest), ih.mpr ⟨(not_mem_cons_iff.mp hc).2, rfl⟩, rfl⟩

theorem stripPrefix_eq_some_iff {p s rest : Str} : stripPrefix p s = some rest ↔ s = p ++ rest := by
  unfold stripPrefix
  constructor
  · intro h
    split at h
    · next hp =>
        cases h
        exact List.prefix_iff_eq_append.mp hp |>.symm
    · cases h
  · rintro rfl
    rw [if_pos (List.prefix_append p rest), List.drop_left]

theorem stripPrefix_append (p rest : Str) : stripPrefix p (p ++ rest) = some rest :=
  stripPrefix_eq_some_iff.mpr rfl

theorem contains_iff {s sub : Str} : contains s sub = true ↔ sub <:+: s := decide_eq_true_iff

/-- What begins with a character that is not among the first ones occurs among the others. -/
theorem contains_append {c : Char} {p : Str} (hc : c ∉ p) (s sub : Str) :
    contains (p ++ s) (c :: sub) = contains s (c :: sub) := by
  rw [Bool.eq_iff_iff, contains_iff, contains_iff]
  induction p with
  | nil => rfl
  | cons d p ih =>
      obtain ⟨hd, hp⟩ := not_mem_cons_iff.mp hc
      rw [List.cons_append, List.infix_cons_iff, ih hp]
      constructor
      · rintro (h | h)
        · obtain ⟨heq, -⟩ := List.cons_prefix_cons.mp h
          exact absurd heq hd
        · exact h
      · exact Or.inr

theorem contains_of_prefix (sub s : Str) : contains (sub ++ s) sub = true :=
  contains_iff.mpr (List.prefix_append sub s).isInfix

theorem trim_cons {c : Char} (hc : isWhitespace c = true) (s : Str) : trim (c :: s) = trim s := by
  rw [trim, List.dropWhile_cons_of_pos hc]
  rfl

/-! ### Hexadecimal numbers -/

def hexDigit (c : Char) : Option Nat :=
  if '0' ≤ c ∧ c ≤ '9' then some (c.toNat - 48)
  else if 'a' ≤ c ∧ c ≤ 'f' then some (c.toNat - 87)
  else if 'A' ≤ c ∧ c ≤ 'F' then some (c.toNat - 55)
  else none

def hexDigits (acc : Nat) : Str → Option Nat
  | [] => some acc
  | c :: cs => (hexDigit c).bind fun d => hexDigits (acc * 16 + d) cs

/-- Without a plus sign in front. -/
def unsigned : Str → Str
  | '+' :: digits => digits
  | digits => digits

/-- A number below `bound` in base 16: at least one digit, and a plus sign in front of them or none. -/
def fromStrRadix16 (bound : Nat) (s : Str) : Option Nat :=
  if unsigned s = [] then none
  else (hexDigits 0 (unsigned s)).bind fun n => if n < bound then some n else none

theorem unsigned_of_not_mem {s : Str} (h : '+' ∉ s) : unsigned s = s := by
  unfold unsigned
  split
  · exact absurd List.mem_cons_self h
  · rfl

theorem unsigned_cons {c : Char} (h : c ≠ '+') (s : Str) : unsigned (c :: s) = c :: s := by
  unfold unsigned
  split
  · next heq =>
      cases heq
      exact absurd rfl h
  · rfl

/-- A number written with `n` digits. -/
structure Hex (n : Nat) where
  digits : Str
  len : digits.length = n
  hex : ∀ c ∈ digits, (hexDigit c).isSome = true

theorem hexDigit_lt {c : Char} {d : Nat} (h : hexDigit c = some d) : d < 16 := by
  have h9 : ('9' : Char).toNat = 57 := rfl
  have hf : ('f' : Char).toNat = 102 := rfl
  have hF : ('F' : Char).toNat = 70 := rfl
  unfold hexDigit at h
  split at h
  · next hc =>
      cases h
      have := Char.le_def.mp hc.2
      have : c.toNat ≤ ('9' : Char).toNat := this
      omega
  · split at h
    · next hc =>
        cases h
        have : c.toNat ≤ ('f' : Char).toNat := Char.le_def.mp hc.2
        omega
    · split at h
      · next hc =>
          cases h
          have : c.toNat ≤ ('F' : Char).toNat := Char.le_def.mp hc.2
          omega
      · cases h

theorem hexDigits_lt {acc n : Nat} {s : Str} (hs : hexDigits acc s = some n) :
    n < (acc + 1) * 16 ^ s.length := by
  induction s generalizing acc with
  | nil =>
      cases hs
      simp
  | cons c cs ih =>
      obtain ⟨d, hd, hrest⟩ := Option.bind_eq_some_iff.mp hs
      have hlt := hexDigit_lt hd
      have hle : (acc * 16 + d + 1) * 16 ^ cs.length ≤ ((acc + 1) * 16) * 16 ^ cs.length :=
        Nat.mul_le_mul_right _ (by omega)
      calc n
        _ < (acc * 16 + d + 1) * 16 ^ cs.length := ih hrest
        _ ≤ ((acc + 1) * 16) * 16 ^ cs.length := hle
        _ = (acc + 1) * 16 ^ (c :: cs).length := by rw [List.length_cons, Nat.pow_succ, Nat.mul_assoc, Nat.mul_comm 16]

theorem hexDigits_isSome {s : Str} (hs : ∀ c ∈ s, (hexDigit c).isSome = true) (acc : Nat) :
    ∃ n, hexDigits acc s = some n := by
  induction s generalizing acc with
  | nil => exact ⟨acc, rfl⟩
  | cons c cs ih =>
      obtain ⟨hc, hcs⟩ := List.forall_mem_cons.mp hs
      obtain ⟨d, hd⟩ := Option.isSome_iff_exists.mp hc
      obtain ⟨n, hn⟩ := ih hcs (acc * 16 + d)
      exact ⟨n, by rw [hexDigits, hd, Option.bind_some, hn]⟩

namespace Hex

variable {n : Nat}

def value (h : Hex n) : Nat := (hexDigits 0 h.digits).getD 0

theorem hexDigits_eq (h : Hex n) : hexDigits 0 h.digits = some h.value := by
  obtain ⟨v, hv⟩ := hexDigits_isSome h.hex 0
  rw [value, hv]
  rfl

theorem value_lt (h : Hex n) : h.value < 16 ^ n := by
  have hlt := hexDigits_lt h.hexDigits_eq
  rwa [h.len, Nat.zero_add, Nat.one_mul] at hlt

theorem not_mem (h : Hex n) {c : Char} (hc : hexDigit c = none) : c ∉ h.digits := by
  intro hmem
  have hsome := h.hex c hmem
  rw [hc] at hsome
  cases hsome

/-- The digits are read as the number that they write. -/
theorem fromStrRadix16_eq (h : Hex (n + 1)) : fromStrRadix16 (16 ^ (n + 1)) h.digits = some h.value := by
  have hne : h.digits ≠ [] := by
    intro hnil
    have hlen := h.len
    rw [hnil] at hlen
    cases hlen
  have hdigits : unsigned h.digits = h.digits := unsigned_of_not_mem (h.not_mem rfl)
  rw [fromStrRadix16, hdigits, if_neg hne, h.hexDigits_eq, Option.bind_some, if_pos h.value_lt]

end Hex

/-- What is read as a number begins with a digit or the sign. -/
theorem fromStrRadix16_cons {bound n : Nat} {c : Char} {cs : Str} (h : fromStrRadix16 bound (c :: cs) = some n) :
    c = '+' ∨ (hexDigit c).isSome = true := by
  by_cases hc : c = '+'
  · exact .inl hc
  · refine .inr ?_
    rw [fromStrRadix16, unsigned_cons hc, if_neg (List.cons_ne_nil c cs)] at h
    obtain ⟨v, hv, -⟩ := Option.bind_eq_some_iff.mp h
    obtain ⟨d, hd, -⟩ := Option.bind_eq_some_iff.mp hv
    rw [hd]
    rfl

end Text

import Qusb.Base.Text
import Qusb.Base.Tables

/-! The names of vendors, products and classes.

`parse` reads the file of USB ids line by line into five tables. Which table a line is for depends on what the line
looks like and on the last heading, which `LastState` carries from line to line. `advance` is what one line records
and the state after it; the tables are those of all entries that are recorded. -/

open Text Tables

namespace Qusb.UsbIds

structure ProductKey where
  vendor : UInt16
  product : UInt16
  deriving DecidableEq, Repr

structure SubclassKey where
  cls : UInt8
  subclass : UInt8
  deriving DecidableEq, Repr

structure ProtocolKey where
  cls : UInt8
  subclass : UInt8
  protocol : UInt8
  deriving DecidableEq, Repr

structure Inner where
  vendor : Table UInt16 Str
  product : Table ProductKey Str
  cls : Table UInt8 Str
  subclass : Table SubclassKey Str
  protocol : Table ProtocolKey Str

def Inner.new : Inner := ⟨∅, ∅, ∅, ∅, ∅⟩

inductive LastState
  | start
  | lang
  | cls (key : UInt8)
  | subclass (key : SubclassKey)
  | vendor (key : UInt16)
  | product (key : ProductKey)
  | hut
  deriving DecidableEq, Repr

/-! ### Lines -/

/-- The headings of sections that are not read, and the sign of a comment. -/
def skipPrefixes : List Str :=
  [['#'], ['P', 'H', 'Y', 'S', 'D', 'E', 'S', ' '], ['P', 'H', 'Y', ' '], ['B', 'I', 'A', 'S', ' '],
    ['A', 'T', ' '], ['H', 'C', 'C', ' '], ['H', 'I', 'D', ' '], ['R', ' '], ['V', 'T']]

def canSkip (line : Str) : Bool := line.isEmpty || skipPrefixes.any fun p => p.isPrefixOf line

def parseValue {T : Type} (possible : Str) (f : Str → Option T) : Option (T × Str) :=
  (splitOnce ' ' possible).bind fun p => (f p.1).map fun key => (key, trim p.2)

/-- `u16::from_str_radix(s, 16)`. -/
def u16FromStrRadix (s : Str) : Option UInt16 := (fromStrRadix16 65536 s).map UInt16.ofNat

/-- `u8::from_str_radix(s, 16)`. -/
def u8FromStrRadix (s : Str) : Option UInt8 := (fromStrRadix16 256 s).map UInt8.ofNat

def parseClass (line : Str) : Option (UInt8 × Str) :=
  (stripPrefix ['C', ' '] line).bind fun rest => parseValue rest u8FromStrRadix

def parseProduct (line : Str) (vendor : UInt16) : Option (ProductKey × Str) :=
  (stripPrefix ['\t'] line).bind fun rest => parseValue rest fun token => (u16FromStrRadix token).map (⟨vendor, ·⟩)

def parseSubclass (line : Str) (cls : UInt8) : Option (SubclassKey × Str) :=
  (stripPrefix ['\t'] line).bind fun rest => parseValue rest fun token => (u8FromStrRadix token).map (⟨cls, ·⟩)

def parseProtocol (line : Str) (cls subclass : UInt8) : Option (ProtocolKey × Str) :=
  (stripPrefix ['\t', '\t'] line).bind fun rest =>
    parseValue rest fun token => (u8FromStrRadix token).map (⟨cls, subclass, ·⟩)

def parseVendor (line : Str) : Option (UInt16 × Str) := parseValue line u16FromStrRadix

def markL : Str := ['L', ' ']

def markHut : Str := ['H', 'U', 'T', ' ']

/-! ### The loop -/

/-- A product under the vendor. -/
def stepProduct (names : Inner) (lastState : LastState) (line : Str) (vendor : UInt16) : Inner × LastState :=
  match parseProduct line vendor with
  | some (key, text) => ({ names with product := names.product.insert key text }, .product key)
  | none => (names, lastState)

/-- The body of the loop of `UsbIds::parse`. -/
def step : Inner × LastState → Str → Inner × LastState
  | (names, lastState), line =>
    if canSkip line then (names, lastState)
    else if contains line markL then (names, .lang)
    else match parseClass line with
      | some (key, text) => ({ names with cls := names.cls.insert key text }, .cls key)
      | none => match parseVendor line with
        | some (key, text) => ({ names with vendor := names.vendor.insert key text }, .vendor key)
        | none =>
          if contains line markHut then (names, .hut)
          else match lastState with
            | .start | .lang | .hut => (names, lastState)
            | .cls cls => match parseSubclass line cls with
              | some (key, text) => ({ names with subclass := names.subclass.insert key text }, .subclass key)
              | none => (names, lastState)
            | .subclass ⟨cls, subclass⟩ => match parseSubclass line cls with
              | some (key, text) => ({ names with subclass := names.subclass.insert key text }, .subclass key)
              | none => match parseProtocol line cls subclass with
                | some (key, text) => ({ names with protocol := names.protocol.insert key text }, lastState)
                | none => (names, lastState)
            | .vendor vendor => stepProduct names lastState line vendor
            | .product ⟨vendor, _⟩ => stepProduct names lastState line vendor

def parse (buf : Str) : Inner := ((lines buf).foldl step (.new, .start)).1

/-! ### What a line records -/

/-- What a name is looked up by. -/
inductive Key
  | vendor (key : UInt16)
  | product (key : ProductKey)
  | cls (key : UInt8)
  | subclass (key : SubclassKey)
  | protocol (key : ProtocolKey)
  deriving DecidableEq, Repr

abbrev Entry := Key × Str

namespace Inner

/-- The five lookups. -/
def get (names : Inner) : Key → Option Str
  | .vendor key => names.vendor.lookup key
  | .product key => names.product.lookup key
  | .cls key => names.cls.lookup key
  | .subclass key => names.subclass.lookup key
  | .protocol key => names.protocol.lookup key

/-- The five insertions. -/
def insert (names : Inner) : Entry → Inner
  | (.vendor key, text) => { names with vendor := names.vendor.insert key text }
  | (.product key, text) => { names with product := names.product.insert key text }
  | (.cls key, text) => { names with cls := names.cls.insert key text }
  | (.subclass key, text) => { names with subclass := names.subclass.insert key text }
  | (.protocol key, text) => { names with protocol := names.protocol.insert key text }

theorem get_new (key : Key) : new.get key = none := by
  cases key <;> rfl

theorem get_insert (names : Inner) (e : Entry) (key : Key) :
    (names.insert e).get key = if key = e.1 then some e.2 else names.get key := by
  obtain ⟨k, text⟩ := e
  cases k <;> cases key <;> simp [insert, get, lookup_insert_eq]

/-- The tables of some entries. -/
def ofEntries (es : List Entry) : Inner := es.foldl insert new

/-- Of entries with different keys, each is found. -/
theorem get_ofEntries_iff {es : List Entry} (hnodup : (es.map Prod.fst).Nodup) (key : Key) (text : Str) :
    (ofEntries es).get key = some text ↔ (key, text) ∈ es := by
  induction es using List.reverseRecOn with
  | nil => simp [ofEntries, get_new]
  | append_singleton es e ih =>
      rw [List.map_append, List.map_singleton, ← List.concat_eq_append, List.nodup_concat] at hnodup
      obtain ⟨hnew, hes⟩ := hnodup
      rw [ofEntries, List.foldl_append, List.foldl_cons, List.foldl_nil, get_insert, List.mem_append,
        List.mem_singleton]
      split
      · next hkey =>
          subst hkey
          have hold : (e.1, text) ∉ es := fun hmem => hnew (List.mem_map.mpr ⟨_, hmem, rfl⟩)
          rw [or_iff_right hold, Option.some.injEq, Prod.ext_iff]
          exact ⟨fun h => ⟨rfl, h.symm⟩, fun h => h.2.symm⟩
      · next hkey =>
          have hne : (key, text) ≠ e := fun h => hkey (congrArg Prod.fst h)
          rw [or_iff_left hne]
          exact ih hes

end Inner

/-- What a heading records, and the state after it. -/
def heading (line : Str) : Option (Option Entry × LastState) :=
  if canSkip line then none
  else if contains line markL then some (none, .lang)
  else match parseClass line with
    | some (key, text) => some (some (.cls key, text), .cls key)
    | none => match parseVendor line with
      | some (key, text) => some (some (.vendor key, text), .vendor key)
      | none => if contains line markHut then some (none, .hut) else none

/-- What a line records that is neither skipped nor a heading. -/
def child (line : Str) : LastState → Option (Key × Str × LastState)
  | .start | .lang | .hut => none
  | .cls cls => (parseSubclass line cls).map fun p => (.subclass p.1, p.2, .subclass p.1)
  | .subclass ⟨cls, subclass⟩ =>
      ((parseSubclass line cls).map fun p => (.subclass p.1, p.2, .subclass p.1)).orElse fun _ =>
        (parseProtocol line cls subclass).map fun p => (.protocol p.1, p.2, .subclass ⟨cls, subclass⟩)
  | .vendor vendor | .product ⟨vendor, _⟩ =>
      (parseProduct line vendor).map fun p => (.product p.1, p.2, .product p.1)

/-- What a line records, and the state after it. -/
def advance (lastState : LastState) (line : Str) : Option Entry × LastState :=
  if canSkip line then (none, lastState)
  else match heading line with
    | some h => h
    | none => match child line lastState with
      | some (key, text, next) => (some (key, text), next)
      | none => (none, lastState)

/-- The entries that lines record. -/
def recorded : LastState → List Str → List Entry
  | _, [] => []
  | lastState, line :: ls => (advance lastState line).1.toList ++ recorded (advance lastState line).2 ls

/-- The state after lines. -/
def after (lastState : LastState) (ls : List Str) : LastState := ls.foldl (fun s line => (advance s line).2) lastState

theorem step_eq (names : Inner) (lastState : LastState) (line : Str) :
    step (names, lastState) line =
      ((advance lastState line).1.toList.foldl Inner.insert names, (advance lastState line).2) := by
  simp only [step, advance, heading]
  by_cases hskip : canSkip line = true
  · simp [hskip]
  · simp only [hskip]
    by_cases hl : contains line markL = true
    · simp [hl]
    · simp only [hl]
      cases hclass : parseClass line with
      | some p => simp [Inner.insert]
      | none =>
          cases hvendor : parseVendor line with
          | some p => simp [Inner.insert]
          | none =>
              by_cases hhut : contains line markHut = true
              · simp [hhut]
              · simp only [hhut]
                cases lastState with
                | start => simp [child]
                | lang => simp [child]
                | hut => simp [child]
                | cls cls => cases hsub : parseSubclass line cls <;> simp [child, hsub, Inner.insert]
                | subclass key =>
                    cases hsub : parseSubclass line key.cls with
                    | some p => simp [child, hsub, Inner.insert]
                    | none =>
                        cases hprot : parseProtocol line key.cls key.subclass <;>
                          simp [child, hsub, hprot, Inner.insert]
                | vendor vendor =>
                    cases hprod : parseProduct line vendor <;> simp [child, stepProduct, hprod, Inner.insert]
                | product key =>
                    cases hprod : parseProduct line key.vendor <;> simp [child, stepProduct, hprod, Inner.insert]

theorem foldl_step_eq (names : Inner) (lastState : LastState) (ls : List Str) :
    ls.foldl step (names, lastState) =
      ((recorded lastState ls).foldl Inner.insert names, after lastState ls) := by
  induction ls generalizing names lastState with
  | nil => rfl
  | cons line ls ih =>
      rw [List.foldl_cons, step_eq, ih, recorded, List.foldl_append]
      rfl

/-- The tables are those of the entries that the lines record. -/
theorem parse_eq (buf : Str) : parse buf = .ofEntries (recorded .start (lines buf)) :=
  congrArg Prod.fst (foldl_step_eq .new .start (lines buf))

theorem recorded_append (lastState : LastState) (ls ls' : List Str) :
    recorded lastState (ls ++ ls') = recorded lastState ls ++ recorded (after lastState ls) ls' := by
  induction ls generalizing lastState with
  | nil => rfl
  | cons line ls ih =>
      rw [List.cons_append, recorded, recorded, ih, List.append_assoc]
      rfl

theorem after_append (lastState : LastState) (ls ls' : List Str) :
    after lastState (ls ++ ls') = after (after lastState ls) ls' := List.foldl_append

end Qusb.UsbIds

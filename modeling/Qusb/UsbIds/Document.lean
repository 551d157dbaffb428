import Mathlib.Data.List.Flatten
import Qusb.UsbIds.Parse

/-! Documents of USB ids.

A document is what the comments at the head of its sections say: vendors with their products and the interfaces of
these, classes with their subclasses and the protocols of these, and sections that are not read. Every name of it is
found under its ids exactly if no name looks like a heading where the parser looks for one: it takes a line for the
heading of a language if `L` and a space occur anywhere in it, and a line that is no vendor and no class for the
heading of a usage page if `HUT` and a space do. -/

open Text Tables

namespace Qusb.UsbIds

/-! ### What is written -/

/-- A name: text on one line that does not begin or end with white space. -/
structure Name where
  text : Str
  ne : text ≠ []
  trimmed : trim text = text
  oneLine : '\n' ∉ text

structure Interface where
  id : Hex 2
  name : Name

structure Product where
  id : Hex 4
  name : Name
  interfaces : List Interface

structure Vendor where
  id : Hex 4
  name : Name
  products : List Product

structure Protocol where
  id : Hex 2
  name : Name

structure Subclass where
  id : Hex 2
  name : Name
  protocols : List Protocol

structure Class where
  id : Hex 2
  name : Name
  subclasses : List Subclass

/-- The sections of single lines: audio terminals, HID descriptors and their items, biases and items of physical
descriptors, countries and video terminals. -/
inductive Tag
  | at
  | hid
  | r
  | bias
  | phy
  | hcc
  | vt
  deriving DecidableEq, Repr

def Tag.text : Tag → Str
  | .at => ['A', 'T', ' ']
  | .hid => ['H', 'I', 'D', ' ']
  | .r => ['R', ' ']
  | .bias => ['B', 'I', 'A', 'S', ' ']
  | .phy => ['P', 'H', 'Y', ' ']
  | .hcc => ['H', 'C', 'C', ' ']
  | .vt => ['V', 'T', ' ']

/-- A heading with the lines under it. Usage pages and languages have lines under them that are not read. -/
inductive Block
  | vendor (vendor : Vendor)
  | cls (cls : Class)
  | usages (heading : Str) (children : List Str)
  | language (heading : Str) (children : List Str)
  | other (tag : Tag) (text : Str)

/-! ### The lines -/

def entryLine (indent : Str) {n : Nat} (id : Hex n) (name : Name) : Str :=
  indent ++ (id.digits ++ ([' ', ' '] ++ name.text))

def Product.lines (p : Product) : List Str :=
  entryLine ['\t'] p.id p.name :: p.interfaces.map fun i => entryLine ['\t', '\t'] i.id i.name

def Vendor.lines (v : Vendor) : List Str := entryLine [] v.id v.name :: v.products.flatMap Product.lines

def Subclass.lines (s : Subclass) : List Str :=
  entryLine ['\t'] s.id s.name :: s.protocols.map fun p => entryLine ['\t', '\t'] p.id p.name

def Class.lines (c : Class) : List Str := entryLine ['C', ' '] c.id c.name :: c.subclasses.flatMap Subclass.lines

def Block.lines : Block → List Str
  | .vendor v => v.lines
  | .cls c => c.lines
  | .usages heading children => (markHut ++ heading) :: children.map ('\t' :: ·)
  | .language heading children => (markL ++ heading) :: children.map ('\t' :: ·)
  | .other tag text => [tag.text ++ text]

/-- A blank line or a comment. -/
def isFiller (line : Str) : Bool := line.all isWhitespace || ['#'].isPrefixOf line

/-! ### The entries -/

def key16 (id : Hex 4) : UInt16 := UInt16.ofNat id.value

def key8 (id : Hex 2) : UInt8 := UInt8.ofNat id.value

def Product.entry (vendor : UInt16) (p : Product) : Entry := (.product ⟨vendor, key16 p.id⟩, p.name.text)

def Vendor.entries (v : Vendor) : List Entry :=
  (.vendor (key16 v.id), v.name.text) :: v.products.map (Product.entry (key16 v.id))

def Protocol.entry (cls subclass : UInt8) (p : Protocol) : Entry :=
  (.protocol ⟨cls, subclass, key8 p.id⟩, p.name.text)

def Subclass.entries (cls : UInt8) (s : Subclass) : List Entry :=
  (.subclass ⟨cls, key8 s.id⟩, s.name.text) :: s.protocols.map (Protocol.entry cls (key8 s.id))

def Class.entries (c : Class) : List Entry :=
  (.cls (key8 c.id), c.name.text) :: c.subclasses.flatMap (Subclass.entries (key8 c.id))

def Block.entries : Block → List Entry
  | .vendor v => v.entries
  | .cls c => c.entries
  | .usages _ _ | .language _ _ | .other _ _ => []

/-- A well-formed document: its lines, but for blank lines and comments, are those of its blocks, and no id is
given twice. The last line need not be ended. -/
structure Document where
  blocks : List Block
  endedLines : List (Str × LineEnd)
  last : Str
  ended : ∀ l ∈ endedLines, '\n' ∉ l.1 ∧ l.1.getLast? ≠ some '\r'
  notEnded : '\n' ∉ last
  content : ((endedLines.map Prod.fst ++ if last = [] then [] else [last]).filter fun l => !isFiller l) =
    blocks.flatMap Block.lines
  distinct : ((blocks.flatMap Block.entries).map Prod.fst).Nodup

namespace Document

def text (doc : Document) : Str := doc.endedLines.flatMap (fun l => l.1 ++ l.2.text) ++ doc.last

def entries (doc : Document) : List Entry := doc.blocks.flatMap Block.entries

/-- Looking up an id gives the name that is written for it, and none if there is no such id. -/
def Faithful (doc : Document) : Prop :=
  ∀ key text, (parse doc.text).get key = some text ↔ (key, text) ∈ doc.entries

end Document

/-- A name that looks like a heading. -/
def Name.marked (name : Name) : Bool := contains name.text markL || contains name.text markHut

/-- The products that are followed by another are all but the last. -/
structure Vendor.Plain (v : Vendor) : Prop where
  name : contains v.name.text markL = false
  products : ∀ p ∈ v.products, p.name.marked = false
  interfaces : ∀ p ∈ v.products.dropLast, ∀ i ∈ p.interfaces, i.name.marked = false

structure Class.Plain (c : Class) : Prop where
  name : contains c.name.text markL = false
  subclasses : ∀ s ∈ c.subclasses, s.name.marked = false
  protocols : ∀ s ∈ c.subclasses, ∀ p ∈ s.protocols, p.name.marked = false

def Block.Plain : Block → Prop
  | .vendor v => v.Plain
  | .cls c => c.Plain
  | .usages _ _ | .language _ _ | .other _ _ => True

def Document.Plain (doc : Document) : Prop := ∀ block ∈ doc.blocks, block.Plain

/-! ### Reading a line -/

theorem u16FromStrRadix_digits (id : Hex 4) : u16FromStrRadix id.digits = some (key16 id) :=
  congrArg (Option.map UInt16.ofNat) id.fromStrRadix16_eq

theorem u8FromStrRadix_digits (id : Hex 2) : u8FromStrRadix id.digits = some (key8 id) :=
  congrArg (Option.map UInt8.ofNat) id.fromStrRadix16_eq

theorem parseValue_entry {T : Type} {f : Str → Option T} {n : Nat} {id : Hex n} {key : T}
    (hf : f id.digits = some key) (name : Name) :
    parseValue (id.digits ++ ([' ', ' '] ++ name.text)) f = some (key, name.text) := by
  have hsplit : splitOnce ' ' (id.digits ++ ([' ', ' '] ++ name.text)) = some (id.digits, ' ' :: name.text) :=
    splitOnce_eq_some_iff.mpr ⟨id.not_mem (by decide), rfl⟩
  have htrim : trim (' ' :: name.text) = name.text := (trim_cons (by decide) _).trans name.trimmed
  rw [parseValue, hsplit, Option.bind_some, hf, Option.map_some, htrim]

/-- What no number begins with. -/
def NoNumber (c : Char) : Prop := c ≠ '+' ∧ hexDigit c = none

theorem fromStrRadix16_noNumber (bound : Nat) {c : Char} (hc : NoNumber c) {token : Str}
    (htoken : ∀ d ∈ token.head?, d = c) : fromStrRadix16 bound token = none := by
  cases token with
  | nil => rfl
  | cons d ds =>
      obtain rfl : d = c := htoken d rfl
      rw [Option.eq_none_iff_forall_ne_some]
      intro n hn
      rcases fromStrRadix16_cons hn with h | h
      · exact hc.1 h
      · rw [hc.2] at h
        cases h

theorem parseValue_noNumber {T : Type} {f : Str → Option T} {c : Char}
    (hf : ∀ token : Str, (∀ d ∈ token.head?, d = c) → f token = none) (s : Str) :
    parseValue (c :: s) f = none := by
  unfold parseValue
  cases hsplit : splitOnce ' ' (c :: s) with
  | none => rfl
  | some p =>
      obtain ⟨-, heq⟩ := splitOnce_eq_some_iff.mp hsplit
      have htoken : ∀ d ∈ p.1.head?, d = c := by
        intro d hd
        cases hp : p.1 with
        | nil =>
            rw [hp] at hd
            cases hd
        | cons k ks =>
            rw [hp] at hd heq
            cases heq
            cases hd
            rfl
      rw [Option.bind_some, hf p.1 htoken]
      rfl

theorem u16FromStrRadix_noNumber {c : Char} (hc : NoNumber c) {token : Str} (htoken : ∀ d ∈ token.head?, d = c) :
    u16FromStrRadix token = none :=
  congrArg (Option.map UInt16.ofNat) (fromStrRadix16_noNumber 65536 hc htoken)

theorem u8FromStrRadix_noNumber {c : Char} (hc : NoNumber c) {token : Str} (htoken : ∀ d ∈ token.head?, d = c) :
    u8FromStrRadix token = none :=
  congrArg (Option.map UInt8.ofNat) (fromStrRadix16_noNumber 256 hc htoken)

theorem parseVendor_noNumber {c : Char} (hc : NoNumber c) (s : Str) : parseVendor (c :: s) = none :=
  parseValue_noNumber (fun _ htoken => u16FromStrRadix_noNumber hc htoken) s

theorem parseProduct_noNumber {c : Char} (hc : NoNumber c) (s : Str) (vendor : UInt16) :
    parseProduct ('\t' :: c :: s) vendor = none := by
  rw [parseProduct, show ('\t' :: c :: s) = ['\t'] ++ (c :: s) from rfl, stripPrefix_append, Option.bind_some]
  exact parseValue_noNumber (fun _ htoken => by rw [u16FromStrRadix_noNumber hc htoken]; rfl) s

theorem parseSubclass_noNumber {c : Char} (hc : NoNumber c) (s : Str) (cls : UInt8) :
    parseSubclass ('\t' :: c :: s) cls = none := by
  rw [parseSubclass, show ('\t' :: c :: s) = ['\t'] ++ (c :: s) from rfl, stripPrefix_append, Option.bind_some]
  exact parseValue_noNumber (fun _ htoken => by rw [u8FromStrRadix_noNumber hc htoken]; rfl) s

theorem noNumber_tab : NoNumber '\t' := ⟨by decide, by decide⟩

theorem parseClass_of_ne {c : Char} (hc : c ≠ 'C') (s : Str) : parseClass (c :: s) = none := by
  have hno : ¬ ['C', ' '] <+: c :: s := fun h => hc (List.cons_prefix_cons.mp h).1.symm
  rw [parseClass, stripPrefix, if_neg hno]
  rfl

theorem canSkip_cons {c : Char} (hc : c ∉ (['#', 'P', 'B', 'A', 'H', 'R', 'V'] : Str)) (s : Str) :
    canSkip (c :: s) = false := by
  simp only [List.mem_cons, List.not_mem_nil, or_false, not_or] at hc
  obtain ⟨h1, h2, h3, h4, h5, h6, h7⟩ := hc
  simp [canSkip, skipPrefixes, List.isPrefixOf, Ne.symm h1, Ne.symm h2, Ne.symm h3, Ne.symm h4, Ne.symm h5,
    Ne.symm h6, Ne.symm h7]

/-- Two digits begin no heading of a section that is not read. -/
theorem canSkip_digits {c d : Char} (hc : (hexDigit c).isSome = true) (hd : (hexDigit d).isSome = true) (s : Str) :
    canSkip (c :: d :: s) = false := by
  have hne : ∀ {a b : Char}, (hexDigit b).isSome = true → hexDigit a = none → a ≠ b := by
    rintro a b hb ha rfl
    rw [ha] at hb
    cases hb
  simp [canSkip, skipPrefixes, List.isPrefixOf, hne hc (show hexDigit '#' = none by decide),
    hne hc (show hexDigit 'P' = none by decide), hne hd (show hexDigit 'I' = none by decide),
    hne hd (show hexDigit 'T' = none by decide), hne hc (show hexDigit 'H' = none by decide),
    hne hc (show hexDigit 'R' = none by decide), hne hc (show hexDigit 'V' = none by decide)]

theorem canSkip_id (id : Hex 4) (s : Str) : canSkip (id.digits ++ s) = false := by
  obtain ⟨digits, hlen, hhex⟩ := id
  match digits, hlen with
  | c :: d :: _, _ =>
      exact canSkip_digits (hhex c List.mem_cons_self) (hhex d (List.mem_cons_of_mem _ List.mem_cons_self)) _

theorem contains_entryLine {indent mark : Str} {c : Char} {n : Nat} (hindent : c ∉ indent) (hc : hexDigit c = none)
    (hspace : c ≠ ' ') (id : Hex n) (name : Name) :
    contains (entryLine indent id name) (c :: mark) = contains name.text (c :: mark) := by
  have hsep : c ∉ ([' ', ' '] : Str) := by simp [hspace]
  rw [entryLine, contains_append hindent, contains_append (id.not_mem hc), contains_append hsep]

theorem parseClass_id (id : Hex 4) (s : Str) : parseClass (id.digits ++ s) = none := by
  obtain ⟨digits, hlen, hhex⟩ := id
  match digits, hlen with
  | c :: d :: ds, _ =>
      have hd := hhex d (List.mem_cons_of_mem _ List.mem_cons_self)
      have hno : ¬ ['C', ' '] <+: c :: d :: (ds ++ s) := by
        intro h
        obtain rfl := (List.cons_prefix_cons.mp (List.cons_prefix_cons.mp h).2).1
        revert hd
        decide
      show parseClass (c :: d :: (ds ++ s)) = none
      rw [parseClass, stripPrefix, if_neg hno]
      rfl

/-- The heading of a vendor sets the state, unless its name has an `L` before a space. -/
theorem advance_vendor (id : Hex 4) (name : Name) (st : LastState) :
    advance st (entryLine [] id name) =
      if contains name.text markL then (none, .lang)
      else (some (.vendor (key16 id), name.text), .vendor (key16 id)) := by
  have hskip : canSkip (entryLine [] id name) = false := canSkip_id id _
  have hclass : parseClass (entryLine [] id name) = none := parseClass_id id _
  have hvendor : parseVendor (entryLine [] id name) = some (key16 id, name.text) :=
    parseValue_entry (u16FromStrRadix_digits id) name
  have hmark : contains (entryLine [] id name) markL = contains name.text markL :=
    contains_entryLine List.not_mem_nil (by decide) (by decide) id name
  simp only [advance, heading, hskip, hclass, hvendor, hmark]
  cases contains name.text markL <;> rfl

theorem advance_class (id : Hex 2) (name : Name) (st : LastState) :
    advance st (entryLine ['C', ' '] id name) =
      if contains name.text markL then (none, .lang)
      else (some (.cls (key8 id), name.text), .cls (key8 id)) := by
  have hskip : canSkip (entryLine ['C', ' '] id name) = false := canSkip_cons (by decide) _
  have hclass : parseClass (entryLine ['C', ' '] id name) = some (key8 id, name.text) := by
    rw [parseClass, entryLine, stripPrefix_append, Option.bind_some]
    exact parseValue_entry (u8FromStrRadix_digits id) name
  have hmark : contains (entryLine ['C', ' '] id name) markL = contains name.text markL :=
    contains_entryLine (by decide) (by decide) (by decide) id name
  simp only [advance, heading, hskip, hclass, hmark]
  cases contains name.text markL <;> rfl

/-- The state in which nothing under a heading is read. -/
def Dead (st : LastState) : Prop := st = .lang ∨ st = .hut

theorem child_dead {st : LastState} (hst : Dead st) (line : Str) : child line st = none := by
  rcases hst with rfl | rfl <;> rfl

/-- A line that begins with a tab. -/
def Indented (line : Str) : Prop := ∃ rest, line = '\t' :: rest

/-- An indented line is no heading of its own, but may look like one. -/
theorem advance_indented (st : LastState) {line : Str} (hline : Indented line) :
    advance st line =
      if contains line markL then (none, .lang)
      else if contains line markHut then (none, .hut)
      else match child line st with
        | some (key, text, next) => (some (key, text), next)
        | none => (none, st) := by
  obtain ⟨rest, rfl⟩ := hline
  have hskip : canSkip ('\t' :: rest) = false := canSkip_cons (by decide) _
  have hclass : parseClass ('\t' :: rest) = none := parseClass_of_ne (by decide) _
  have hvendor : parseVendor ('\t' :: rest) = none := parseVendor_noNumber noNumber_tab _
  simp only [advance, heading, hskip, hclass, hvendor]
  cases contains ('\t' :: rest) markL <;> cases contains ('\t' :: rest) markHut <;> rfl

theorem advance_dead {st : LastState} (hst : Dead st) {line : Str} (hline : Indented line) :
    (advance st line).1 = none ∧ Dead (advance st line).2 := by
  rw [advance_indented st hline, child_dead hst]
  split
  · exact ⟨rfl, .inl rfl⟩
  · split
    · exact ⟨rfl, .inr rfl⟩
    · exact ⟨rfl, hst⟩

/-- The lines under a heading that is not read record nothing. -/
theorem recorded_dead {st : LastState} (hst : Dead st) {ls : List Str} (htabs : ∀ l ∈ ls, Indented l) :
    recorded st ls = [] ∧ Dead (after st ls) := by
  induction ls generalizing st with
  | nil => exact ⟨rfl, hst⟩
  | cons l ls ih =>
      obtain ⟨htab, htabs'⟩ := List.forall_mem_cons.mp htabs
      obtain ⟨hnone, hdead⟩ := advance_dead hst htab
      obtain ⟨hrec, hafter⟩ := ih hdead htabs'
      rw [recorded, hnone, hrec]
      exact ⟨rfl, hafter⟩

theorem advance_language (st : LastState) (text : Str) : advance st (markL ++ text) = (none, .lang) := by
  have hskip : canSkip (markL ++ text) = false := canSkip_cons (by decide) _
  simp only [advance, heading, hskip, contains_of_prefix]
  rfl

theorem advance_usages (st : LastState) (text : Str) :
    (advance st (markHut ++ text)).1 = none ∧ Dead (advance st (markHut ++ text)).2 := by
  have hskip : canSkip (markHut ++ text) = false := by
    simp [canSkip, skipPrefixes, markHut, List.isPrefixOf]
  have hclass : parseClass (markHut ++ text) = none := parseClass_of_ne (by decide) _
  have hvendor : parseVendor (markHut ++ text) = none := parseVendor_noNumber ⟨by decide, by decide⟩ _
  simp only [advance, heading, hskip, hclass, hvendor, contains_of_prefix]
  cases contains (markHut ++ text) markL
  · exact ⟨rfl, .inr rfl⟩
  · exact ⟨rfl, .inl rfl⟩

theorem advance_skip {line : Str} (hskip : canSkip line = true) (st : LastState) : advance st line = (none, st) :=
  if_pos hskip

theorem advance_other (st : LastState) (tag : Tag) (text : Str) : advance st (tag.text ++ text) = (none, st) := by
  refine advance_skip ?_ st
  cases tag <;> simp [canSkip, skipPrefixes, Tag.text, List.isPrefixOf]

/-! ### Lines that say nothing -/

theorem hexDigit_range {c : Char} (h : (hexDigit c).isSome = true) :
    (48 ≤ c.toNat ∧ c.toNat ≤ 57) ∨ (97 ≤ c.toNat ∧ c.toNat ≤ 102) ∨ (65 ≤ c.toNat ∧ c.toNat ≤ 70) := by
  unfold hexDigit at h
  split at h
  · next hc => exact .inl hc
  · split at h
    · next hc => exact .inr (.inl hc)
    · split at h
      · next hc => exact .inr (.inr hc)
      · cases h

theorem noNumber_of_isWhitespace {c : Char} (hc : isWhitespace c = true) : NoNumber c := by
  simp only [isWhitespace, Bool.or_eq_true, Bool.and_eq_true, decide_eq_true_eq, beq_iff_eq] at hc
  refine ⟨?_, ?_⟩
  · rintro rfl
    revert hc
    decide
  · by_contra hsome
    have hrange := hexDigit_range (Option.isSome_iff_ne_none.mpr hsome)
    omega

theorem parseValue_blank {T : Type} {f : Str → Option T}
    (hf : ∀ {c : Char}, NoNumber c → ∀ {token : Str}, (∀ d ∈ token.head?, d = c) → f token = none) {s : Str}
    (hs : ∀ c ∈ s, isWhitespace c = true) : parseValue s f = none := by
  cases s with
  | nil => rfl
  | cons c cs =>
      exact parseValue_noNumber (fun _ htoken => hf (noNumber_of_isWhitespace (hs c List.mem_cons_self)) htoken) cs

theorem bind_blank {T : Type} {f : Str → Option T}
    (hf : ∀ {c : Char}, NoNumber c → ∀ {token : Str}, (∀ d ∈ token.head?, d = c) → f token = none) {s : Str}
    (hs : ∀ c ∈ s, isWhitespace c = true) (p : Str) :
    ((stripPrefix p s).bind fun rest => parseValue rest f) = none := by
  cases hstrip : stripPrefix p s with
  | none => rfl
  | some rest =>
      obtain rfl := stripPrefix_eq_some_iff.mp hstrip
      exact parseValue_blank hf fun c hc => hs c (List.mem_append_right _ hc)

theorem child_blank {s : Str} (hs : ∀ c ∈ s, isWhitespace c = true) (st : LastState) : child s st = none := by
  have hproduct : ∀ vendor, parseProduct s vendor = none := fun vendor =>
    bind_blank (fun hc _ htoken => by rw [u16FromStrRadix_noNumber hc htoken]; rfl) hs _
  have hsubclass : ∀ cls, parseSubclass s cls = none := fun cls =>
    bind_blank (fun hc _ htoken => by rw [u8FromStrRadix_noNumber hc htoken]; rfl) hs _
  have hprotocol : ∀ cls subclass, parseProtocol s cls subclass = none := fun cls subclass =>
    bind_blank (fun hc _ htoken => by rw [u8FromStrRadix_noNumber hc htoken]; rfl) hs _
  cases st with
  | start => rfl
  | lang => rfl
  | hut => rfl
  | cls cls => exact congrArg (Option.map _) (hsubclass cls)
  | subclass key => simp only [child, hsubclass, hprotocol]; rfl
  | vendor vendor => exact congrArg (Option.map _) (hproduct vendor)
  | product key => exact congrArg (Option.map _) (hproduct key.vendor)

theorem contains_blank {s : Str} (hs : ∀ c ∈ s, isWhitespace c = true) {c : Char} (hc : isWhitespace c = false)
    (mark : Str) : contains s (c :: mark) = false := by
  rw [Bool.eq_false_iff]
  intro h
  have hmem : c ∈ s := (contains_iff.mp h).subset List.mem_cons_self
  rw [hs c hmem] at hc
  cases hc

theorem advance_filler {line : Str} (hfiller : isFiller line = true) (st : LastState) :
    advance st line = (none, st) := by
  rcases Bool.or_eq_true_iff.mp hfiller with hblank | hcomment
  · rw [List.all_eq_true] at hblank
    cases line with
    | nil => exact advance_skip rfl st
    | cons c cs =>
        have hc := hblank c List.mem_cons_self
        have hne : ∀ {d : Char}, isWhitespace d = false → c ≠ d := by
          rintro d hd rfl
          rw [hd] at hc
          cases hc
        have hskip : canSkip (c :: cs) = false := by
          refine canSkip_cons ?_ cs
          intro hmem
          have hmarks : (['#', 'P', 'B', 'A', 'H', 'R', 'V'] : Str).all (!isWhitespace ·) = true := rfl
          have hmark := List.all_eq_true.mp hmarks c hmem
          rw [hc] at hmark
          cases hmark
        have hclass : parseClass (c :: cs) = none := parseClass_of_ne (hne (by decide)) cs
        have hvendor : parseVendor (c :: cs) = none := parseVendor_noNumber (noNumber_of_isWhitespace hc) cs
        have hl : contains (c :: cs) markL = false := contains_blank hblank (by decide) _
        have hhut : contains (c :: cs) markHut = false := contains_blank hblank (by decide) _
        simp only [advance, heading, hskip, hclass, hvendor, hl, hhut, child_blank hblank]
        rfl
  · refine advance_skip ?_ st
    rw [canSkip, skipPrefixes, List.any_cons, hcomment, Bool.true_or, Bool.or_true]

/-- Blank lines and comments record nothing, wherever they are. -/
theorem recorded_filter (st : LastState) (ls : List Str) :
    recorded st (ls.filter fun l => !isFiller l) = recorded st ls := by
  induction ls generalizing st with
  | nil => rfl
  | cons l ls ih =>
      cases hl : isFiller l with
      | true =>
          rw [List.filter_cons_of_neg (by simp [hl]), ih, recorded, advance_filler hl]
          rfl
      | false => rw [List.filter_cons_of_pos (by simp [hl]), recorded, recorded, ih]

/-! ### Lines under a heading -/

/-- The state under the heading of a vendor. -/
def UnderVendor (vendor : UInt16) (st : LastState) : Prop :=
  st = .vendor vendor ∨ ∃ product, st = .product ⟨vendor, product⟩

/-- The state under the heading of a class. -/
def UnderClass (cls : UInt8) (st : LastState) : Prop := st = .cls cls ∨ ∃ subclass, st = .subclass ⟨cls, subclass⟩

theorem child_product {vendor : UInt16} {st : LastState} (hst : UnderVendor vendor st) (id : Hex 4) (name : Name) :
    child (entryLine ['\t'] id name) st =
      some (.product ⟨vendor, key16 id⟩, name.text, .product ⟨vendor, key16 id⟩) := by
  have hparse : parseProduct (entryLine ['\t'] id name) vendor = some (⟨vendor, key16 id⟩, name.text) := by
    rw [parseProduct, entryLine, stripPrefix_append, Option.bind_some]
    exact parseValue_entry (congrArg (Option.map _) (u16FromStrRadix_digits id)) name
  rcases hst with rfl | ⟨product, rfl⟩ <;> simp only [child, hparse] <;> rfl

theorem child_interface {vendor : UInt16} {st : LastState} (hst : UnderVendor vendor st) (id : Hex 2) (name : Name) :
    child (entryLine ['\t', '\t'] id name) st = none := by
  have hparse : parseProduct (entryLine ['\t', '\t'] id name) vendor = none :=
    parseProduct_noNumber noNumber_tab _ vendor
  rcases hst with rfl | ⟨product, rfl⟩ <;> simp only [child, hparse] <;> rfl

theorem child_subclass {cls : UInt8} {st : LastState} (hst : UnderClass cls st) (id : Hex 2) (name : Name) :
    child (entryLine ['\t'] id name) st =
      some (.subclass ⟨cls, key8 id⟩, name.text, .subclass ⟨cls, key8 id⟩) := by
  have hparse : parseSubclass (entryLine ['\t'] id name) cls = some (⟨cls, key8 id⟩, name.text) := by
    rw [parseSubclass, entryLine, stripPrefix_append, Option.bind_some]
    exact parseValue_entry (congrArg (Option.map _) (u8FromStrRadix_digits id)) name
  rcases hst with rfl | ⟨subclass, rfl⟩ <;> simp only [child, hparse] <;> rfl

theorem child_protocol (cls subclass : UInt8) (id : Hex 2) (name : Name) :
    child (entryLine ['\t', '\t'] id name) (.subclass ⟨cls, subclass⟩) =
      some (.protocol ⟨cls, subclass, key8 id⟩, name.text, .subclass ⟨cls, subclass⟩) := by
  have hsub : parseSubclass (entryLine ['\t', '\t'] id name) cls = none := parseSubclass_noNumber noNumber_tab _ cls
  have hparse : parseProtocol (entryLine ['\t', '\t'] id name) cls subclass =
      some (⟨cls, subclass, key8 id⟩, name.text) := by
    rw [parseProtocol, entryLine, stripPrefix_append, Option.bind_some]
    exact parseValue_entry (congrArg (Option.map _) (u8FromStrRadix_digits id)) name
  simp only [child, hsub, hparse]
  rfl

/-- How a line under a heading may be indented. -/
def Tabs (indent : Str) : Prop := indent = ['\t'] ∨ indent = ['\t', '\t']

theorem indented_entryLine {indent : Str} (hindent : Tabs indent) {n : Nat} (id : Hex n) (name : Name) :
    Indented (entryLine indent id name) := by
  rcases hindent with rfl | rfl <;> exact ⟨_, rfl⟩

theorem contains_markL {indent : Str} (hindent : Tabs indent) {n : Nat} (id : Hex n) (name : Name) :
    contains (entryLine indent id name) markL = contains name.text markL := by
  refine contains_entryLine ?_ (by decide) (by decide) id name
  rcases hindent with rfl | rfl <;> decide

theorem contains_markHut {indent : Str} (hindent : Tabs indent) {n : Nat} (id : Hex n) (name : Name) :
    contains (entryLine indent id name) markHut = contains name.text markHut := by
  refine contains_entryLine ?_ (by decide) (by decide) id name
  rcases hindent with rfl | rfl <;> decide

/-- A line under a heading whose name looks like a heading: nothing more is read. -/
theorem advance_marked {indent : Str} (hindent : Tabs indent) {n : Nat} (id : Hex n) {name : Name}
    (hmarked : name.marked = true) (st : LastState) :
    (advance st (entryLine indent id name)).1 = none ∧ Dead (advance st (entryLine indent id name)).2 := by
  rw [advance_indented st (indented_entryLine hindent id name), contains_markL hindent, contains_markHut hindent]
  split
  · exact ⟨rfl, .inl rfl⟩
  · next hl =>
      rw [Name.marked, Bool.eq_false_iff.mpr hl, Bool.false_or] at hmarked
      rw [if_pos hmarked]
      exact ⟨rfl, .inr rfl⟩

theorem advance_unmarked {indent : Str} (hindent : Tabs indent) {n : Nat} (id : Hex n) {name : Name}
    (hmarked : name.marked = false) (st : LastState) :
    advance st (entryLine indent id name) =
      match child (entryLine indent id name) st with
      | some (key, text, next) => (some (key, text), next)
      | none => (none, st) := by
  obtain ⟨hl, hhut⟩ := Bool.or_eq_false_iff.mp hmarked
  rw [advance_indented st (indented_entryLine hindent id name), contains_markL hindent, contains_markHut hindent,
    hl, hhut]
  rfl

/-- Lines behind two tabs that leave the state as it is record something each, up to the first whose name looks like
a heading. -/
theorem recorded_leaves {α : Type} {n : Nat} {id : α → Hex n} {name : α → Name} {st : LastState}
    {entry : α → Option Entry}
    (hunmarked : ∀ a, (name a).marked = false → advance st (entryLine ['\t', '\t'] (id a) (name a)) = (entry a, st))
    (as : List α) :
    recorded st (as.map fun a => entryLine ['\t', '\t'] (id a) (name a)) =
        (as.takeWhile fun a => !(name a).marked).filterMap entry ∧
      if as.any (fun a => (name a).marked) then
        Dead (after st (as.map fun a => entryLine ['\t', '\t'] (id a) (name a)))
      else after st (as.map fun a => entryLine ['\t', '\t'] (id a) (name a)) = st := by
  induction as with
  | nil => exact ⟨rfl, rfl⟩
  | cons a as ih =>
      cases ha : (name a).marked with
      | true =>
          obtain ⟨hnone, hdead⟩ := advance_marked (.inr rfl) (id a) ha st
          have htabs : ∀ l ∈ as.map fun a => entryLine ['\t', '\t'] (id a) (name a), Indented l :=
            List.forall_mem_map.mpr fun b _ => indented_entryLine (.inr rfl) (id b) (name b)
          obtain ⟨hrec, hafter⟩ := recorded_dead hdead htabs
          rw [List.map_cons, recorded, hnone, hrec, List.takeWhile_cons_of_neg (by simp [ha]), List.any_cons, ha]
          exact ⟨rfl, hafter⟩
      | false =>
          have hstep := hunmarked a ha
          rw [List.map_cons, recorded, hstep, List.takeWhile_cons_of_pos (by simp [ha]), List.any_cons, ha,
            Bool.false_or]
          have hafter : ∀ ls, after st (entryLine ['\t', '\t'] (id a) (name a) :: ls) = after st ls :=
            fun ls => congrArg (fun s => after s ls) (congrArg Prod.snd hstep)
          rw [hafter, ih.1]
          refine ⟨?_, ih.2⟩
          cases hentry : entry a with
          | none => rw [List.filterMap_cons_none hentry]; rfl
          | some e => rw [List.filterMap_cons_some hentry]; rfl

/-- A line behind a tab with the lines under it, and what comes after these. -/
theorem recorded_branch {n : Nat} (id : Hex n) (name : Name) {st next : LastState} {e : Entry}
    (hchild : child (entryLine ['\t'] id name) st = some (e.1, e.2, next)) {leaves rest : List Str}
    {kept kept' : List Entry} {marked : Bool}
    (hleaves : recorded next leaves = kept ∧
      if marked then Dead (after next leaves) else after next leaves = next)
    (hindented : ∀ l ∈ leaves ++ rest, Indented l) (hrest : recorded next rest = kept') :
    recorded st (entryLine ['\t'] id name :: (leaves ++ rest)) =
      if name.marked then [] else e :: (kept ++ if marked then [] else kept') := by
  rw [recorded]
  cases hname : name.marked with
  | true =>
      obtain ⟨hnone, hdead⟩ := advance_marked (.inl rfl) id hname st
      rw [hnone, (recorded_dead hdead hindented).1]
      rfl
  | false =>
      have hstep := advance_unmarked (.inl rfl) id hname st
      rw [hchild] at hstep
      obtain ⟨hrec, hafter⟩ := hleaves
      rw [hstep, recorded_append, hrec]
      cases marked with
      | true =>
          have htabs : ∀ l ∈ rest, Indented l := fun l hl => hindented l (List.mem_append_right _ hl)
          rw [(recorded_dead hafter htabs).1]
          rfl
      | false =>
          rw [show after next leaves = next from hafter, hrest]
          rfl

theorem recorded_interfaces {vendor : UInt16} {st : LastState} (hst : UnderVendor vendor st)
    (is : List Interface) :
    recorded st (is.map fun i => entryLine ['\t', '\t'] i.id i.name) = [] ∧
      if is.any (·.name.marked) then Dead (after st (is.map fun i => entryLine ['\t', '\t'] i.id i.name))
      else after st (is.map fun i => entryLine ['\t', '\t'] i.id i.name) = st := by
  have hunmarked : ∀ i : Interface, i.name.marked = false →
      advance st (entryLine ['\t', '\t'] i.id i.name) = (none, st) := by
    intro i hi
    rw [advance_unmarked (.inr rfl) i.id hi, child_interface hst]
  obtain ⟨hrec, hafter⟩ := recorded_leaves hunmarked is
  exact ⟨hrec.trans (List.filterMap_none _), hafter⟩

theorem recorded_protocols (cls subclass : UInt8) (ps : List Protocol) :
    recorded (.subclass ⟨cls, subclass⟩) (ps.map fun p => entryLine ['\t', '\t'] p.id p.name) =
        (ps.takeWhile fun p => !p.name.marked).map (Protocol.entry cls subclass) ∧
      if ps.any (·.name.marked) then
        Dead (after (.subclass ⟨cls, subclass⟩) (ps.map fun p => entryLine ['\t', '\t'] p.id p.name))
      else after (.subclass ⟨cls, subclass⟩) (ps.map fun p => entryLine ['\t', '\t'] p.id p.name) =
        .subclass ⟨cls, subclass⟩ := by
  have hunmarked : ∀ p : Protocol, p.name.marked = false →
      advance (.subclass ⟨cls, subclass⟩) (entryLine ['\t', '\t'] p.id p.name) =
        (some (p.entry cls subclass), .subclass ⟨cls, subclass⟩) := by
    intro p hp
    rw [advance_unmarked (.inr rfl) p.id hp, child_protocol]
    rfl
  obtain ⟨hrec, hafter⟩ := recorded_leaves hunmarked ps
  exact ⟨hrec.trans (congrFun List.filterMap_eq_map _), hafter⟩

/-! ### Blocks -/

/-- The entries of products that are read. -/
def keptProducts (vendor : UInt16) : List Product → List Entry
  | [] => []
  | p :: ps =>
      if p.name.marked then []
      else p.entry vendor :: if p.interfaces.any (·.name.marked) then [] else keptProducts vendor ps

def Vendor.kept (v : Vendor) : List Entry :=
  if contains v.name.text markL then []
  else (.vendor (key16 v.id), v.name.text) :: keptProducts (key16 v.id) v.products

/-- The entries of subclasses that are read. -/
def keptSubclasses (cls : UInt8) : List Subclass → List Entry
  | [] => []
  | s :: ss =>
      if s.name.marked then []
      else (.subclass ⟨cls, key8 s.id⟩, s.name.text) ::
        ((s.protocols.takeWhile fun p => !p.name.marked).map (Protocol.entry cls (key8 s.id)) ++
          if s.protocols.any (·.name.marked) then [] else keptSubclasses cls ss)

def Class.kept (c : Class) : List Entry :=
  if contains c.name.text markL then []
  else (.cls (key8 c.id), c.name.text) :: keptSubclasses (key8 c.id) c.subclasses

def Block.kept : Block → List Entry
  | .vendor v => v.kept
  | .cls c => c.kept
  | .usages _ _ | .language _ _ | .other _ _ => []

theorem indented_products (ps : List Product) : ∀ l ∈ ps.flatMap Product.lines, Indented l := by
  intro l hl
  obtain ⟨p, -, hp⟩ := List.mem_flatMap.mp hl
  rcases List.mem_cons.mp hp with rfl | hp
  · exact ⟨_, rfl⟩
  · obtain ⟨i, -, rfl⟩ := List.mem_map.mp hp
    exact ⟨_, rfl⟩

theorem indented_subclasses (ss : List Subclass) : ∀ l ∈ ss.flatMap Subclass.lines, Indented l := by
  intro l hl
  obtain ⟨s, -, hs⟩ := List.mem_flatMap.mp hl
  rcases List.mem_cons.mp hs with rfl | hs
  · exact ⟨_, rfl⟩
  · obtain ⟨p, -, rfl⟩ := List.mem_map.mp hs
    exact ⟨_, rfl⟩

theorem recorded_products {vendor : UInt16} {st : LastState} (hst : UnderVendor vendor st) (ps : List Product) :
    recorded st (ps.flatMap Product.lines) = keptProducts vendor ps := by
  induction ps generalizing st with
  | nil => rfl
  | cons p ps ih =>
      have hnext : UnderVendor vendor (.product ⟨vendor, key16 p.id⟩) := .inr ⟨_, rfl⟩
      have hindented : ∀ l ∈ (p.interfaces.map fun i => entryLine ['\t', '\t'] i.id i.name) ++
          ps.flatMap Product.lines, Indented l :=
        fun l hl => indented_products (p :: ps) l (List.mem_cons_of_mem _ hl)
      exact recorded_branch p.id p.name (child_product hst p.id p.name) (recorded_interfaces hnext p.interfaces)
        hindented (ih hnext)

theorem recorded_subclasses {cls : UInt8} {st : LastState} (hst : UnderClass cls st) (ss : List Subclass) :
    recorded st (ss.flatMap Subclass.lines) = keptSubclasses cls ss := by
  induction ss generalizing st with
  | nil => rfl
  | cons s ss ih =>
      have hnext : UnderClass cls (.subclass ⟨cls, key8 s.id⟩) := .inr ⟨_, rfl⟩
      have hindented : ∀ l ∈ (s.protocols.map fun p => entryLine ['\t', '\t'] p.id p.name) ++
          ss.flatMap Subclass.lines, Indented l :=
        fun l hl => indented_subclasses (s :: ss) l (List.mem_cons_of_mem _ hl)
      exact recorded_branch s.id s.name (child_subclass hst s.id s.name)
        (recorded_protocols cls (key8 s.id) s.protocols) hindented (ih hnext)

/-- What a block records does not depend on what stands before it. -/
theorem recorded_block (st : LastState) (block : Block) : recorded st block.lines = block.kept := by
  cases block with
  | vendor v =>
      show recorded st (entryLine [] v.id v.name :: v.products.flatMap Product.lines) = v.kept
      rw [recorded, advance_vendor, Vendor.kept]
      cases contains v.name.text markL with
      | true => exact (recorded_dead (.inl rfl) (indented_products v.products)).1
      | false => exact congrArg (_ :: ·) (recorded_products (.inl rfl) v.products)
  | cls c =>
      show recorded st (entryLine ['C', ' '] c.id c.name :: c.subclasses.flatMap Subclass.lines) = c.kept
      rw [recorded, advance_class, Class.kept]
      cases contains c.name.text markL with
      | true => exact (recorded_dead (.inl rfl) (indented_subclasses c.subclasses)).1
      | false => exact congrArg (_ :: ·) (recorded_subclasses (.inl rfl) c.subclasses)
  | usages text children =>
      obtain ⟨hnone, hdead⟩ := advance_usages st text
      have htabs : ∀ l ∈ children.map ('\t' :: ·), Indented l := List.forall_mem_map.mpr fun _ _ => ⟨_, rfl⟩
      show recorded st ((markHut ++ text) :: children.map ('\t' :: ·)) = []
      rw [recorded, hnone, (recorded_dead hdead htabs).1]
      rfl
  | language text children =>
      have htabs : ∀ l ∈ children.map ('\t' :: ·), Indented l := List.forall_mem_map.mpr fun _ _ => ⟨_, rfl⟩
      show recorded st ((markL ++ text) :: children.map ('\t' :: ·)) = []
      rw [recorded, advance_language, (recorded_dead (.inl rfl) htabs).1]
      rfl
  | other tag text =>
      show recorded st [tag.text ++ text] = []
      rw [recorded, advance_other]
      rfl

theorem recorded_blocks (st : LastState) (blocks : List Block) :
    recorded st (blocks.flatMap Block.lines) = blocks.flatMap Block.kept := by
  induction blocks generalizing st with
  | nil => rfl
  | cons block blocks ih => rw [List.flatMap_cons, List.flatMap_cons, recorded_append, recorded_block, ih]

/-- The tables of a document are those of the entries that its blocks keep. -/
theorem Document.parse_text (doc : Document) : parse doc.text = .ofEntries (doc.blocks.flatMap Block.kept) := by
  rw [parse_eq, Document.text, lines_written doc.ended doc.notEnded, ← recorded_filter, doc.content, recorded_blocks]

/-! ### What is kept -/

theorem sublist_append_eq_iff {α : Type*} {as as' bs bs' : List α} (ha : as.Sublist as') (hb : bs.Sublist bs') :
    as ++ bs = as' ++ bs' ↔ as = as' ∧ bs = bs' := by
  constructor
  · intro h
    have hlen := congrArg List.length h
    rw [List.length_append, List.length_append] at hlen
    have hla := ha.length_le
    have hlb := hb.length_le
    exact ⟨ha.eq_of_length (by omega), hb.eq_of_length (by omega)⟩
  · rintro ⟨rfl, rfl⟩
    rfl

theorem flatMap_eq_iff {α β : Type*} {f g : α → List β} (h : ∀ a, (f a).Sublist (g a)) (as : List α) :
    as.flatMap f = as.flatMap g ↔ ∀ a ∈ as, f a = g a := by
  induction as with
  | nil => simp
  | cons a as ih =>
      have hrest : (as.flatMap f).Sublist (as.flatMap g) := List.Sublist.flatMap_right as fun a _ => h a
      rw [List.flatMap_cons, List.flatMap_cons, sublist_append_eq_iff (h a) hrest, ih, List.forall_mem_cons]

theorem keptProducts_sublist (vendor : UInt16) (ps : List Product) :
    (keptProducts vendor ps).Sublist (ps.map (Product.entry vendor)) := by
  induction ps with
  | nil => exact .slnil
  | cons p ps ih =>
      rw [keptProducts, List.map_cons]
      split
      · exact List.nil_sublist _
      · refine List.Sublist.cons_cons _ ?_
        split
        · exact List.nil_sublist _
        · exact ih

theorem keptSubclasses_sublist (cls : UInt8) (ss : List Subclass) :
    (keptSubclasses cls ss).Sublist (ss.flatMap (Subclass.entries cls)) := by
  induction ss with
  | nil => exact .slnil
  | cons s ss ih =>
      rw [keptSubclasses, List.flatMap_cons, Subclass.entries]
      split
      · exact List.nil_sublist _
      · refine List.Sublist.cons_cons _ (List.Sublist.append ((List.takeWhile_sublist _).map _) ?_)
        split
        · exact List.nil_sublist _
        · exact ih

theorem kept_sublist (block : Block) : block.kept.Sublist block.entries := by
  cases block with
  | vendor v =>
      show v.kept.Sublist v.entries
      rw [Vendor.kept]
      split
      · exact List.nil_sublist _
      · exact List.Sublist.cons_cons _ (keptProducts_sublist _ _)
  | cls c =>
      show c.kept.Sublist c.entries
      rw [Class.kept]
      split
      · exact List.nil_sublist _
      · exact List.Sublist.cons_cons _ (keptSubclasses_sublist _ _)
  | usages _ _ => exact .slnil
  | language _ _ => exact .slnil
  | other _ _ => exact .slnil

theorem keptProducts_eq_iff (vendor : UInt16) (ps : List Product) :
    keptProducts vendor ps = ps.map (Product.entry vendor) ↔
      (∀ p ∈ ps, p.name.marked = false) ∧ ∀ p ∈ ps.dropLast, ∀ i ∈ p.interfaces, i.name.marked = false := by
  induction ps with
  | nil => simp [keptProducts]
  | cons p ps ih =>
      rw [keptProducts, List.map_cons, List.forall_mem_cons]
      cases hp : p.name.marked with
      | true => simp
      | false =>
          simp only [Bool.false_eq_true, if_false, List.cons.injEq, true_and]
          cases ps with
          | nil => cases p.interfaces.any (·.name.marked) <;> simp [keptProducts]
          | cons q qs =>
              have hdrop : (∀ r ∈ (p :: q :: qs).dropLast, ∀ i ∈ r.interfaces, i.name.marked = false) ↔
                  (∀ i ∈ p.interfaces, i.name.marked = false) ∧
                    ∀ r ∈ (q :: qs).dropLast, ∀ i ∈ r.interfaces, i.name.marked = false := by
                rw [List.dropLast_cons_cons, List.forall_mem_cons]
              rw [hdrop]
              cases hany : p.interfaces.any (·.name.marked) with
              | true =>
                  have hnot : ¬ ∀ i ∈ p.interfaces, i.name.marked = false := by
                    intro h
                    obtain ⟨i, hi, hmarked⟩ := List.any_eq_true.mp hany
                    rw [h i hi] at hmarked
                    cases hmarked
                  simp [hnot]
              | false =>
                  have hall : ∀ i ∈ p.interfaces, i.name.marked = false := by
                    simpa using hany
                  rw [if_neg Bool.false_ne_true, ih]
                  tauto

theorem keptSubclasses_eq_iff (cls : UInt8) (ss : List Subclass) :
    keptSubclasses cls ss = ss.flatMap (Subclass.entries cls) ↔
      (∀ s ∈ ss, s.name.marked = false) ∧ ∀ s ∈ ss, ∀ p ∈ s.protocols, p.name.marked = false := by
  induction ss with
  | nil => simp [keptSubclasses]
  | cons s ss ih =>
      rw [keptSubclasses, List.flatMap_cons, Subclass.entries, List.forall_mem_cons, List.forall_mem_cons]
      cases hs : s.name.marked with
      | true => simp
      | false =>
          simp only [Bool.false_eq_true, if_false, List.cons_append, List.cons.injEq, true_and]
          cases hany : s.protocols.any (·.name.marked) with
          | true =>
              obtain ⟨p, hp, hmarked⟩ := List.any_eq_true.mp hany
              have hshort : (s.protocols.takeWhile fun p => !p.name.marked).length < s.protocols.length := by
                refine lt_of_le_of_ne (List.takeWhile_sublist _).length_le fun hlen => ?_
                have hall := List.takeWhile_eq_self_iff.mp ((List.takeWhile_sublist _).eq_of_length hlen) p hp
                simp [hmarked] at hall
              refine iff_of_false (fun h => ?_) (fun h => ?_)
              · have hlen := congrArg List.length h
                rw [if_pos rfl, List.append_nil, List.length_append, List.length_map, List.length_map] at hlen
                omega
              · have hfalse := h.2.1 p hp
                rw [hfalse] at hmarked
                cases hmarked
          | false =>
              have hall : ∀ p ∈ s.protocols, p.name.marked = false := by
                simpa using hany
              have htake : (s.protocols.takeWhile fun p => !p.name.marked) = s.protocols :=
                List.takeWhile_eq_self_iff.mpr fun p hp => by rw [hall p hp]; rfl
              rw [htake, if_neg Bool.false_ne_true, List.append_cancel_left_eq, ih]
              tauto

/-- A block is kept whole exactly if it is plain. -/
theorem kept_eq_iff (block : Block) : block.kept = block.entries ↔ block.Plain := by
  cases block with
  | vendor v =>
      show v.kept = v.entries ↔ v.Plain
      rw [Vendor.kept, Vendor.entries]
      cases hname : contains v.name.text markL with
      | true => exact iff_of_false (by simp) fun h => by rw [h.name] at hname; cases hname
      | false =>
          rw [if_neg Bool.false_ne_true, List.cons.injEq, and_iff_right rfl, keptProducts_eq_iff]
          exact ⟨fun h => ⟨hname, h.1, h.2⟩, fun h => ⟨h.products, h.interfaces⟩⟩
  | cls c =>
      show c.kept = c.entries ↔ c.Plain
      rw [Class.kept, Class.entries]
      cases hname : contains c.name.text markL with
      | true => exact iff_of_false (by simp) fun h => by rw [h.name] at hname; cases hname
      | false =>
          rw [if_neg Bool.false_ne_true, List.cons.injEq, and_iff_right rfl, keptSubclasses_eq_iff]
          exact ⟨fun h => ⟨hname, h.1, h.2⟩, fun h => ⟨h.subclasses, h.protocols⟩⟩
  | usages _ _ => exact iff_of_true rfl trivial
  | language _ _ => exact iff_of_true rfl trivial
  | other _ _ => exact iff_of_true rfl trivial

/-- **Parsing is faithful** to a document exactly if it is plain: no name of a vendor or class has an `L` before a
space, no name of a product, subclass or protocol has that or a `HUT` before a space, and no name of an interface
does that is followed by another product of the vendor. -/
theorem faithful_iff (doc : Document) : doc.Faithful ↔ doc.Plain := by
  have hsub : (doc.blocks.flatMap Block.kept).Sublist doc.entries :=
    List.Sublist.flatMap_right doc.blocks fun block _ => kept_sublist block
  have hnodup : ((doc.blocks.flatMap Block.kept).map Prod.fst).Nodup := doc.distinct.sublist (hsub.map _)
  have hfaithful : doc.Faithful ↔ doc.blocks.flatMap Block.kept = doc.entries := by
    unfold Document.Faithful
    simp only [doc.parse_text, Inner.get_ofEntries_iff hnodup]
    constructor
    · intro h
      have hsubset : doc.entries ⊆ doc.blocks.flatMap Block.kept := fun e he => (h e.1 e.2).mpr he
      exact hsub.eq_of_length_le (List.Nodup.length_le_of_subset (List.Nodup.of_map _ doc.distinct) hsubset)
    · intro h key text
      rw [h]
  rw [hfaithful, Document.entries, flatMap_eq_iff kept_sublist]
  exact forall₂_congr fun block _ => kept_eq_iff block

/-! ### A television card -/

/-- `0413  Leadtek`, with the product `1312  WinFast TV - PAL BG`. -/
def leadtek : Vendor where
  id := ⟨['0', '4', '1', '3'], rfl, List.all_eq_true.mp rfl⟩
  name := ⟨['L', 'e', 'a', 'd', 't', 'e', 'k'], by decide, by decide, by decide⟩
  products :=
    [{ id := ⟨['1', '3', '1', '2'], rfl, List.all_eq_true.mp rfl⟩
       name := ⟨['W', 'i', 'n', 'F', 'a', 's', 't', ' ', 'T', 'V', ' ', '-', ' ', 'P', 'A', 'L', ' ', 'B', 'G'],
         by decide, by decide, by decide⟩
       interfaces := [] }]

def tvCards : Document where
  blocks := [.vendor leadtek]
  endedLines := leadtek.lines.map fun l => (l, .lf)
  last := []
  ended := by decide
  notEnded := by decide
  content := by decide
  distinct := by decide

/-- The product is taken for the heading of a language. -/
theorem tvCards_not_faithful :
    (.product ⟨0x0413, 0x1312⟩, ['W', 'i', 'n', 'F', 'a', 's', 't', ' ', 'T', 'V', ' ', '-', ' ', 'P', 'A', 'L', ' ',
      'B', 'G']) ∈ tvCards.entries ∧
    (parse tvCards.text).get (.product ⟨0x0413, 0x1312⟩) = none ∧ ¬ ∀ doc : Document, doc.Faithful := by
  have hmem : (.product ⟨0x0413, 0x1312⟩, ['W', 'i', 'n', 'F', 'a', 's', 't', ' ', 'T', 'V', ' ', '-', ' ', 'P', 'A',
      'L', ' ', 'B', 'G']) ∈ tvCards.entries := by decide
  have hnone : (parse tvCards.text).get (.product ⟨0x0413, 0x1312⟩) = none := by
    rw [Document.parse_text]
    decide
  refine ⟨hmem, hnone, fun h => ?_⟩
  rw [(h tvCards _ _).mpr hmem] at hnone
  cases hnone

end Qusb.UsbIds

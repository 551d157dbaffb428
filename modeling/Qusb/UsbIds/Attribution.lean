import Qusb.UsbIds.Document

/-! The parents of entries, in any text.

`parse` keeps the heading that it is under in `LastState`, and sets it at the headings that it reads. It passes over
the others: those of sections that are not read, and lines that it makes nothing of. What stands under such a heading
goes to the last one that was read. Entries have the parents that the text gives them exactly if nothing that reads as
an entry stands there. -/

open Text Tables

namespace Qusb.UsbIds

/-- The last of the lines that has the property. -/
def nearest (p : Str → Bool) (before : List Str) : Option Str := before.reverse.find? p

theorem nearest_eq_some_iff {p : Str → Bool} {before : List Str} {l : Str} :
    nearest p before = some l ↔
      ∃ pre mid, before = pre ++ l :: mid ∧ p l = true ∧ ∀ m ∈ mid, p m = false := by
  rw [nearest, List.find?_eq_some_iff_append]
  constructor
  · rintro ⟨hp, as, bs, heq, has⟩
    refine ⟨bs.reverse, as.reverse, ?_, hp, fun m hm => by simpa using has m (List.mem_reverse.mp hm)⟩
    have hrev := congrArg List.reverse heq
    rw [List.reverse_reverse] at hrev
    rw [hrev, List.reverse_append, List.reverse_cons, List.append_assoc, List.singleton_append]
  · rintro ⟨pre, mid, rfl, hp, hmid⟩
    refine ⟨hp, mid.reverse, pre.reverse, ?_, fun m hm => by simpa using hmid m (List.mem_reverse.mp hm)⟩
    rw [List.reverse_append, List.reverse_cons, List.append_assoc, List.singleton_append]

/-- Either no line has the property, or the last one that does splits them. -/
theorem nearest_cases (p : Str → Bool) (before : List Str) :
    (∀ m ∈ before, p m = false) ∨ ∃ pre l mid, before = pre ++ l :: mid ∧ p l = true ∧ ∀ m ∈ mid, p m = false := by
  cases h : nearest p before with
  | none =>
      refine .inl fun m hm => ?_
      have hnone := List.find?_eq_none.mp h m (List.mem_reverse.mpr hm)
      simpa using hnone
  | some l =>
      obtain ⟨pre, mid, heq, hl, hmid⟩ := nearest_eq_some_iff.mp h
      exact .inr ⟨pre, l, mid, heq, hl, hmid⟩

/-- No line after the last one with the property has it. -/
theorem nearest_append_cons {p : Str → Bool} {pre mid : List Str} {g h : Str}
    (hnearest : nearest p (pre ++ g :: mid) = some h) (hsome : ∃ m ∈ mid, p m = true) : h ∈ mid := by
  obtain ⟨m, hm, hpm⟩ := hsome
  rcases nearest_cases p mid with hnone | ⟨pre', l, mid', rfl, hl, hmid'⟩
  · rw [hnone m hm] at hpm
    cases hpm
  · have hlast : nearest p (pre ++ g :: (pre' ++ l :: mid')) = some l :=
      nearest_eq_some_iff.mpr ⟨pre ++ g :: pre', mid', by simp, hl, hmid'⟩
    cases hnearest.symm.trans hlast
    exact List.mem_append_right _ List.mem_cons_self

/-! ### What the text says -/

/-- A line in the first column that is neither blank nor a comment. -/
def isHeading (line : Str) : Bool := !isFiller line && line.head? != some '\t'

/-- A line behind a single tab that is not blank. -/
def isSingleTab (line : Str) : Bool :=
  !isFiller line && line.head? == some '\t' && line.tail.head? != some '\t'

/-- The line is the heading under the key. -/
def IsLineOf (key : Key) (line : Str) : Prop := ∃ text next, heading line = some (some (key, text), next)

/-- The lines before an entry give it the parents that its key says. -/
def Attributed (before : List Str) : Key → Prop
  | .vendor _ | .cls _ => True
  | .product key => ∃ h, nearest isHeading before = some h ∧ IsLineOf (.vendor key.vendor) h
  | .subclass key => ∃ h, nearest isHeading before = some h ∧ IsLineOf (.cls key.cls) h
  | .protocol key =>
      (∃ h, nearest isHeading before = some h ∧ IsLineOf (.cls key.cls) h) ∧
        ∃ l text, nearest isSingleTab before = some l ∧
          parseSubclass l key.cls = some (⟨key.cls, key.subclass⟩, text)

/-- Every entry that a line of the text records has the parents that the lines before it give it. -/
def RightParents (buf : Str) : Prop :=
  ∀ before line rest, lines buf = before ++ line :: rest → ∀ key text,
    (advance (after .start before) line).1 = some (key, text) → Attributed before key

/-- The line reads as no heading, and the last one before it that does is `g`, with `mid` between them. -/
structure Between (ls : List Str) (g : Str) (mid : List Str) (line : Str) : Prop where
  parts : ∃ pre rest, ls = (pre ++ g :: mid) ++ line :: rest
  mid : ∀ m ∈ mid, heading m = none
  line : heading line = none

/-- No heading that is passed over stands between what reads as an entry and the heading that it goes to, and no line
behind a single tab between what reads as a protocol and the subclass that it goes to. -/
structure Tidy (ls : List Str) : Prop where
  product : ∀ g mid line vendor, Between ls g mid line → IsLineOf (.vendor vendor) g →
    (parseProduct line vendor).isSome → ∀ m ∈ mid, isHeading m = false
  subclass : ∀ g mid line cls, Between ls g mid line → IsLineOf (.cls cls) g →
    (parseSubclass line cls).isSome → ∀ m ∈ mid, isHeading m = false
  protocol : ∀ g mid s mid' line cls subclass, Between ls g (mid ++ s :: mid') line → IsLineOf (.cls cls) g →
    (parseSubclass s cls).isSome → (∀ m ∈ mid', parseSubclass m cls = none) →
    (parseProtocol line cls subclass).isSome →
      (∀ m ∈ mid ++ s :: mid', isHeading m = false) ∧ ∀ m ∈ mid', isSingleTab m = false

/-! ### Lines that read as entries -/

/-- What a line that reads as an entry begins with, and where its key is from. -/
theorem parseUnder_some {T K : Type} {tabs line : Str} {f : Str → Option T} {g : T → K} {key : K} {text : Str}
    (h : ((stripPrefix tabs line).bind fun rest => parseValue rest fun token => (f token).map g) = some (key, text)) :
    (∃ n, g n = key) ∧ ∃ rest, line = tabs ++ rest := by
  obtain ⟨rest, hstrip, hvalue⟩ := Option.bind_eq_some_iff.mp h
  obtain ⟨p, -, hkey⟩ := Option.bind_eq_some_iff.mp hvalue
  obtain ⟨key', hkey', heq⟩ := Option.map_eq_some_iff.mp hkey
  obtain ⟨n, -, rfl⟩ := Option.map_eq_some_iff.mp hkey'
  cases heq
  exact ⟨⟨n, rfl⟩, rest, stripPrefix_eq_some_iff.mp hstrip⟩

theorem parseProduct_some {line : Str} {vendor : UInt16} {key : ProductKey} {text : Str}
    (h : parseProduct line vendor = some (key, text)) : key.vendor = vendor ∧ Indented line := by
  obtain ⟨⟨n, rfl⟩, hindented⟩ := parseUnder_some h
  exact ⟨rfl, hindented⟩

theorem parseSubclass_some {line : Str} {cls : UInt8} {key : SubclassKey} {text : Str}
    (h : parseSubclass line cls = some (key, text)) : key.cls = cls ∧ Indented line := by
  obtain ⟨⟨n, rfl⟩, hindented⟩ := parseUnder_some h
  exact ⟨rfl, hindented⟩

theorem parseProtocol_some {line : Str} {cls subclass : UInt8} {key : ProtocolKey} {text : Str}
    (h : parseProtocol line cls subclass = some (key, text)) :
    (key.cls = cls ∧ key.subclass = subclass) ∧ ∃ rest, line = '\t' :: '\t' :: rest := by
  obtain ⟨⟨n, rfl⟩, htabs⟩ := parseUnder_some h
  exact ⟨⟨rfl, rfl⟩, htabs⟩

/-- Whether a line reads as a protocol does not depend on what it is a protocol of. -/
theorem parseProtocol_isSome (line : Str) (cls subclass cls' subclass' : UInt8) :
    (parseProtocol line cls subclass).isSome = (parseProtocol line cls' subclass').isSome := by
  unfold parseProtocol parseValue
  cases stripPrefix ['\t', '\t'] line with
  | none => rfl
  | some rest =>
      cases hsplit : splitOnce ' ' rest with
      | none => simp [hsplit]
      | some p => cases hnum : u8FromStrRadix p.1 <;> simp [hsplit, hnum]

theorem parseSubclass_of_protocol {line : Str} {cls subclass : UInt8} {p : ProtocolKey × Str}
    (h : parseProtocol line cls subclass = some p) (cls' : UInt8) : parseSubclass line cls' = none := by
  obtain ⟨-, rest, rfl⟩ := parseProtocol_some h
  exact parseSubclass_noNumber noNumber_tab rest cls'

theorem isSingleTab_of_subclass {line : Str} {cls : UInt8} {p : SubclassKey × Str}
    (h : parseSubclass line cls = some p) : isSingleTab line = true := by
  obtain ⟨-, rest, rfl⟩ := parseSubclass_some h
  have hfiller : isFiller ('\t' :: rest) = false := by
    rw [Bool.eq_false_iff]
    intro hfiller
    rcases Bool.or_eq_true_iff.mp hfiller with hblank | hcomment
    · rw [List.all_eq_true] at hblank
      have hnone : parseSubclass ('\t' :: rest) cls = none :=
        bind_blank (fun hc _ htoken => by rw [u8FromStrRadix_noNumber hc htoken]; rfl) hblank _
      cases hnone.symm.trans h
    · simp [List.isPrefixOf] at hcomment
  have htab : rest.head? ≠ some '\t' := by
    intro htab
    cases rest with
    | nil => cases htab
    | cons c cs =>
        cases htab
        rw [parseSubclass_noNumber noNumber_tab] at h
        cases h
  simp [isSingleTab, hfiller, htab]

theorem canSkip_of_indented {line : Str} (h : Indented line) : canSkip line = false := by
  obtain ⟨rest, rfl⟩ := h
  exact canSkip_cons (by decide) rest

/-! ### Headings -/

theorem advance_of_heading {line : Str} {r : Option Entry × LastState} (h : heading line = some r) (st : LastState) :
    advance st line = r := by
  cases hskip : canSkip line with
  | true =>
      rw [heading, if_pos hskip] at h
      cases h
  | false =>
      rw [advance, if_neg (by simp [hskip]), h]

theorem isHeading_of_isLineOf {key : Key} {line : Str} (h : IsLineOf key line) : isHeading line = true := by
  obtain ⟨text, next, hheading⟩ := h
  have hadvance := advance_of_heading hheading .lang
  have hfiller : isFiller line = false := by
    rw [Bool.eq_false_iff]
    intro hfiller
    rw [advance_filler hfiller] at hadvance
    cases hadvance
  have htab : line.head? ≠ some '\t' := by
    intro htab
    have hindented : Indented line := by
      cases line with
      | nil => cases htab
      | cons c cs =>
          cases htab
          exact ⟨cs, rfl⟩
    have hnone := (advance_dead (.inl rfl) hindented).1
    rw [hadvance] at hnone
    cases hnone
  simp [isHeading, hfiller, htab]

/-- What a heading is. -/
theorem heading_eq_some {line : Str} {r : Option Entry × LastState} (h : heading line = some r) :
    (r.1 = none ∧ Dead r.2) ∨ (∃ v text, r = (some (.vendor v, text), .vendor v)) ∨
      ∃ c text, r = (some (.cls c, text), .cls c) := by
  unfold heading at h
  split at h
  · cases h
  · split at h
    · cases h
      exact .inl ⟨rfl, .inl rfl⟩
    · split at h
      · cases h
        exact .inr (.inr ⟨_, _, rfl⟩)
      · split at h
        · cases h
          exact .inr (.inl ⟨_, _, rfl⟩)
        · split at h
          · cases h
            exact .inl ⟨rfl, .inr rfl⟩
          · cases h

theorem heading_vendor {v : UInt16} {line : Str} (h : IsLineOf (.vendor v) line) (st : LastState) :
    (advance st line).2 = .vendor v := by
  obtain ⟨text, next, hheading⟩ := h
  rw [advance_of_heading hheading]
  rcases heading_eq_some hheading with ⟨hnone, -⟩ | ⟨v', text', heq⟩ | ⟨c, text', heq⟩
  · cases hnone
  · cases heq
    rfl
  · cases heq

theorem heading_class {c : UInt8} {line : Str} (h : IsLineOf (.cls c) line) (st : LastState) :
    (advance st line).2 = .cls c := by
  obtain ⟨text, next, hheading⟩ := h
  rw [advance_of_heading hheading]
  rcases heading_eq_some hheading with ⟨hnone, -⟩ | ⟨v, text', heq⟩ | ⟨c', text', heq⟩
  · cases hnone
  · cases heq
  · cases heq
    rfl

/-- What a heading sets the state to. -/
theorem heading_cases {line : Str} (h : heading line ≠ none) (st : LastState) :
    Dead (advance st line).2 ∨ (∃ v, IsLineOf (.vendor v) line) ∨ ∃ c, IsLineOf (.cls c) line := by
  obtain ⟨r, hr⟩ := Option.ne_none_iff_exists'.mp h
  rcases heading_eq_some hr with ⟨-, hdead⟩ | ⟨v, text, rfl⟩ | ⟨c, text, rfl⟩
  · rw [advance_of_heading hr]
    exact .inl hdead
  · exact .inr (.inl ⟨v, text, _, hr⟩)
  · exact .inr (.inr ⟨c, text, _, hr⟩)

/-! ### The state -/

/-- A line that is no heading, behind a tab or not, changes the state as an entry does. -/
theorem advance_of_no_heading {line : Str} (h : heading line = none) (st : LastState) :
    (advance st line).2 = st ∨ ∃ key text, child line st = some (key, text, (advance st line).2) := by
  unfold advance
  rw [h]
  split
  · exact .inl rfl
  · cases hchild : child line st with
    | none => exact .inl rfl
    | some p => exact .inr ⟨p.1, p.2.1, rfl⟩

theorem after_of_no_heading {P : LastState → Prop}
    (hchild : ∀ st line key text next, P st → child line st = some (key, text, next) → P next)
    {ms : List Str} (hms : ∀ m ∈ ms, heading m = none) {st : LastState} (hst : P st) : P (after st ms) := by
  induction ms generalizing st with
  | nil => exact hst
  | cons m ms ih =>
      obtain ⟨hm, hms'⟩ := List.forall_mem_cons.mp hms
      have hnext : P (advance st m).2 := by
        rcases advance_of_no_heading hm st with h | ⟨key, text, h⟩
        · rw [h]
          exact hst
        · exact hchild _ _ _ _ _ hst h
      exact ih hms' hnext

theorem child_start {line : Str} {st : LastState} (hst : st = .start ∨ Dead st) : child line st = none := by
  rcases hst with rfl | hdead
  · rfl
  · exact child_dead hdead line

theorem child_underVendor {st next : LastState} {line : Str} {v : UInt16} {key : Key} {text : Str}
    (hst : UnderVendor v st) (h : child line st = some (key, text, next)) :
    ∃ k, parseProduct line v = some (k, text) ∧ key = .product k ∧ next = .product k := by
  rcases hst with rfl | ⟨product, rfl⟩ <;>
  · obtain ⟨p, hp, heq⟩ := Option.map_eq_some_iff.mp h
    cases heq
    exact ⟨p.1, hp, rfl, rfl⟩

theorem child_underClass {st next : LastState} {line : Str} {c : UInt8} {key : Key} {text : Str}
    (hst : UnderClass c st) (h : child line st = some (key, text, next)) :
    (∃ k, parseSubclass line c = some (k, text) ∧ key = .subclass k ∧ next = .subclass k) ∨
      ∃ s k, st = .subclass ⟨c, s⟩ ∧ parseProtocol line c s = some (k, text) ∧ key = .protocol k ∧ next = st := by
  rcases hst with rfl | ⟨s, rfl⟩
  · obtain ⟨p, hp, heq⟩ := Option.map_eq_some_iff.mp h
    cases heq
    exact .inl ⟨p.1, hp, rfl, rfl⟩
  · simp only [child] at h
    cases hsub : parseSubclass line c with
    | some p =>
        rw [hsub] at h
        cases h
        exact .inl ⟨p.1, rfl, rfl, rfl⟩
    | none =>
        rw [hsub] at h
        obtain ⟨p, hp, heq⟩ := Option.map_eq_some_iff.mp h
        cases heq
        exact .inr ⟨s, p.1, rfl, hp, rfl, rfl⟩

theorem after_underVendor {v : UInt16} {g : Str} (hg : IsLineOf (.vendor v) g) {mid : List Str}
    (hmid : ∀ m ∈ mid, heading m = none) (pre : List Str) : UnderVendor v (after .start (pre ++ g :: mid)) := by
  rw [after_append]
  refine after_of_no_heading (P := UnderVendor v) ?_ hmid (.inl (heading_vendor hg _))
  intro st line key text next hst h
  obtain ⟨k, hparse, -, rfl⟩ := child_underVendor hst h
  obtain ⟨rfl, -⟩ := parseProduct_some hparse
  exact .inr ⟨k.product, rfl⟩

theorem underClass_next {c : UInt8} (st : LastState) (line : Str) (key : Key) (text : Str) (next : LastState)
    (hst : UnderClass c st) (h : child line st = some (key, text, next)) : UnderClass c next := by
  rcases child_underClass hst h with ⟨k, hparse, -, rfl⟩ | ⟨s, k, -, -, -, rfl⟩
  · obtain ⟨rfl, -⟩ := parseSubclass_some hparse
    exact .inr ⟨k.subclass, rfl⟩
  · exact hst

theorem after_underClass {c : UInt8} {g : Str} (hg : IsLineOf (.cls c) g) {mid : List Str}
    (hmid : ∀ m ∈ mid, heading m = none) (pre : List Str) : UnderClass c (after .start (pre ++ g :: mid)) := by
  rw [after_append]
  exact after_of_no_heading (P := UnderClass c) underClass_next hmid (.inl (heading_class hg _))

/-- Lines that do not read as subclasses leave the state of a class as it is. -/
theorem after_no_subclass {c : UInt8} {st : LastState} (hst : UnderClass c st) {ms : List Str}
    (hms : ∀ m ∈ ms, heading m = none) (hsub : ∀ m ∈ ms, parseSubclass m c = none) : after st ms = st := by
  induction ms with
  | nil => rfl
  | cons m ms ih =>
      obtain ⟨hm, hms'⟩ := List.forall_mem_cons.mp hms
      obtain ⟨hnone, hsub'⟩ := List.forall_mem_cons.mp hsub
      have hsame : (advance st m).2 = st := by
        rcases advance_of_no_heading hm st with h | ⟨key, text, h⟩
        · exact h
        · rcases child_underClass hst h with ⟨k, hparse, -, -⟩ | ⟨s, k, -, -, -, hnext⟩
          · rw [hnone] at hparse
            cases hparse
          · exact hnext
      show after (advance st m).2 ms = st
      rw [hsame]
      exact ih hms' hsub'

theorem advance_subclass {c : UInt8} {st : LastState} (hst : UnderClass c st) {line : Str} (hline : heading line = none)
    {k : SubclassKey} {text : Str} (hparse : parseSubclass line c = some (k, text)) :
    advance st line = (some (.subclass k, text), .subclass k) := by
  have hskip := canSkip_of_indented (parseSubclass_some hparse).2
  rw [advance, if_neg (by simp [hskip]), hline]
  rcases hst with rfl | ⟨s, rfl⟩ <;> simp only [child, hparse] <;> rfl

/-- The state under a subclass. -/
theorem after_subclass {c : UInt8} {g s : Str} {k : SubclassKey} {text : Str} (hg : IsLineOf (.cls c) g)
    {mid mid' : List Str} (hmid : ∀ m ∈ mid ++ s :: mid', heading m = none)
    (hs : parseSubclass s c = some (k, text)) (hmid' : ∀ m ∈ mid', parseSubclass m c = none) (pre : List Str) :
    after .start (pre ++ g :: (mid ++ s :: mid')) = .subclass k := by
  have hfree : ∀ m ∈ mid, heading m = none := fun m hm => hmid m (List.mem_append_left _ hm)
  have hfree' : ∀ m ∈ mid', heading m = none := fun m hm =>
    hmid m (List.mem_append_right _ (List.mem_cons_of_mem _ hm))
  have hline : heading s = none := hmid s (List.mem_append_right _ List.mem_cons_self)
  have hunder := after_underClass hg hfree pre
  have hsplit : pre ++ g :: (mid ++ s :: mid') = (pre ++ g :: mid) ++ s :: mid' := by simp
  rw [hsplit, after_append]
  show after (advance _ s).2 mid' = .subclass k
  rw [advance_subclass hunder hline hs]
  obtain ⟨rfl, -⟩ := parseSubclass_some hs
  exact after_no_subclass (.inr ⟨k.subclass, rfl⟩) hfree' hmid'

/-- If the state names a subclass, the last line since the heading that reads as one is its. -/
theorem subclass_of_state {c s : UInt8} {g : Str} (hg : IsLineOf (.cls c) g) {mid : List Str}
    (hmid : ∀ m ∈ mid, heading m = none) {pre : List Str}
    (hstate : after .start (pre ++ g :: mid) = .subclass ⟨c, s⟩) :
    ∃ m₁ l m₂ text, mid = m₁ ++ l :: m₂ ∧ parseSubclass l c = some (⟨c, s⟩, text) ∧
      ∀ m ∈ m₂, parseSubclass m c = none := by
  have hnone : ∀ {ms : List Str}, (∀ m ∈ ms, (parseSubclass m c).isSome = false) →
      ∀ m ∈ ms, parseSubclass m c = none :=
    fun h m hm => Option.isNone_iff_eq_none.mp (Option.isSome_eq_false_iff.mp (h m hm))
  rcases nearest_cases (fun l => (parseSubclass l c).isSome) mid with hall | ⟨m₁, l, m₂, rfl, hl, hm₂⟩
  · have hcls : after .start (pre ++ g :: mid) = .cls c := by
      have hsplit : after .start (pre ++ g :: mid) = after (advance (after .start pre) g).2 mid :=
        after_append _ _ _
      rw [hsplit, heading_class hg]
      exact after_no_subclass (.inl rfl) hmid (hnone hall)
    cases hcls.symm.trans hstate
  · obtain ⟨p, hp⟩ := Option.isSome_iff_exists.mp hl
    have hlast := after_subclass hg hmid hp (hnone hm₂) pre
    have hkey : p.1 = ⟨c, s⟩ := LastState.subclass.inj (hlast.symm.trans hstate)
    exact ⟨m₁, l, m₂, p.2, rfl, hp.trans (congrArg some (Prod.ext hkey rfl)), hnone hm₂⟩

/-- Where nothing was read, or the last heading is one under which nothing is, nothing is recorded; else the last
heading is that of a vendor or of a class. -/
theorem state_cases (before : List Str) :
    (after .start before = .start ∨ Dead (after .start before)) ∨
      ∃ pre g mid, before = pre ++ g :: mid ∧ (∀ m ∈ mid, heading m = none) ∧
        ((∃ v, IsLineOf (.vendor v) g) ∨ ∃ c, IsLineOf (.cls c) g) := by
  have hidle : ∀ {st : LastState} {ms : List Str}, (st = .start ∨ Dead st) → (∀ m ∈ ms, heading m = none) →
      after st ms = .start ∨ Dead (after st ms) := by
    intro st ms hst hms
    refine after_of_no_heading (P := fun st => st = .start ∨ Dead st) ?_ hms hst
    intro st line key text next hst h
    rw [child_start hst] at h
    cases h
  rcases nearest_cases (fun l => (heading l).isSome) before with hnone | ⟨pre, g, mid, rfl, hg, hmid⟩
  · exact .inl (hidle (.inl rfl) fun m hm => Option.isSome_eq_false_iff.mp (hnone m hm) |> Option.isNone_iff_eq_none.mp)
  · have hfree : ∀ m ∈ mid, heading m = none := fun m hm =>
      Option.isNone_iff_eq_none.mp (Option.isSome_eq_false_iff.mp (hmid m hm))
    have hsome : heading g ≠ none := Option.isSome_iff_ne_none.mp hg
    rcases heading_cases hsome (after .start pre) with hdead | hnamed
    · refine .inl ?_
      have hsplit : after .start (pre ++ g :: mid) = after (advance (after .start pre) g).2 mid :=
        after_append _ _ _
      rw [hsplit]
      exact hidle (.inr hdead) hfree
    · exact .inr ⟨pre, g, mid, rfl, hfree, hnamed⟩

/-! ### The parents -/

theorem nearest_heading {pre mid : List Str} {g : Str} {key : Key} (hg : IsLineOf key g)
    (hmid : ∀ m ∈ mid, isHeading m = false) : ∃ h, nearest isHeading (pre ++ g :: mid) = some h ∧ IsLineOf key h :=
  ⟨g, nearest_eq_some_iff.mpr ⟨pre, mid, rfl, isHeading_of_isLineOf hg, hmid⟩, hg⟩

/-- If a heading that is passed over is nearer, the nearest one is none that was read. -/
theorem no_heading_between {pre mid : List Str} {g : Str} {key : Key} (hfree : ∀ m ∈ mid, heading m = none)
    (hright : ∃ h, nearest isHeading (pre ++ g :: mid) = some h ∧ IsLineOf key h) :
    ∀ m ∈ mid, isHeading m = false := by
  obtain ⟨h, hnearest, text, next, hheading⟩ := hright
  by_contra hsome
  push Not at hsome
  obtain ⟨m, hm, hmark⟩ := hsome
  have hmem := nearest_append_cons hnearest ⟨m, hm, by simpa using hmark⟩
  rw [hfree h hmem] at hheading
  cases hheading

/-- What a line records that is no heading. -/
theorem recorded_of_no_heading {line : Str} {st : LastState} {key : Key} {text : Str} (hline : heading line = none)
    (h : (advance st line).1 = some (key, text)) : ∃ next, child line st = some (key, text, next) := by
  unfold advance at h
  rw [hline] at h
  split at h
  · cases h
  · cases hchild : child line st with
    | none =>
        rw [hchild] at h
        cases h
    | some p =>
        rw [hchild] at h
        cases h
        exact ⟨p.2.2, rfl⟩

theorem advance_child {line : Str} {st next : LastState} {key : Key} {text : Str} (hindented : Indented line)
    (hline : heading line = none) (h : child line st = some (key, text, next)) :
    (advance st line).1 = some (key, text) := by
  rw [advance, if_neg (by simp [canSkip_of_indented hindented]), hline, h]

theorem child_of_product {line : Str} {st : LastState} {v : UInt16} (hst : UnderVendor v st)
    {p : ProductKey × Str} (hparse : parseProduct line v = some p) :
    child line st = some (.product p.1, p.2, .product p.1) := by
  rcases hst with rfl | ⟨product, rfl⟩ <;> simp only [child, hparse] <;> rfl

theorem child_of_subclass {line : Str} {st : LastState} {c : UInt8} (hst : UnderClass c st)
    {p : SubclassKey × Str} (hparse : parseSubclass line c = some p) :
    child line st = some (.subclass p.1, p.2, .subclass p.1) := by
  rcases hst with rfl | ⟨s, rfl⟩ <;> simp only [child, hparse] <;> rfl

theorem child_of_protocol {line : Str} {c s : UInt8} {p : ProtocolKey × Str}
    (hparse : parseProtocol line c s = some p) :
    child line (.subclass ⟨c, s⟩) = some (.protocol p.1, p.2, .subclass ⟨c, s⟩) := by
  simp only [child, parseSubclass_of_protocol hparse, hparse]
  rfl

theorem tidy_of_rightParents {buf : Str} (h : RightParents buf) : Tidy (lines buf) where
  product g mid line v hbetween hg hparse := by
    obtain ⟨⟨pre, rest, hls⟩, hfree, hline⟩ := hbetween
    obtain ⟨p, hp⟩ := Option.isSome_iff_exists.mp hparse
    obtain ⟨rfl, hindented⟩ := parseProduct_some hp
    have hchild := child_of_product (after_underVendor hg hfree pre) hp
    exact no_heading_between hfree (h _ _ _ hls _ _ (advance_child hindented hline hchild))
  subclass g mid line c hbetween hg hparse := by
    obtain ⟨⟨pre, rest, hls⟩, hfree, hline⟩ := hbetween
    obtain ⟨p, hp⟩ := Option.isSome_iff_exists.mp hparse
    obtain ⟨rfl, hindented⟩ := parseSubclass_some hp
    have hchild := child_of_subclass (after_underClass hg hfree pre) hp
    exact no_heading_between hfree (h _ _ _ hls _ _ (advance_child hindented hline hchild))
  protocol g mid s mid' line c s' hbetween hg hsub hmid' hparse := by
    obtain ⟨⟨pre, rest, hls⟩, hfree, hline⟩ := hbetween
    obtain ⟨k, hk⟩ := Option.isSome_iff_exists.mp hsub
    have hstate := after_subclass hg hfree hk hmid' pre
    rw [parseProtocol_isSome line c s' c k.1.subclass] at hparse
    obtain ⟨p, hp⟩ := Option.isSome_iff_exists.mp hparse
    obtain ⟨⟨hcls, hsubclass⟩, rest', htabs⟩ := parseProtocol_some hp
    obtain ⟨hkcls, -⟩ := parseSubclass_some hk
    have hchild : child line (after .start (pre ++ g :: (mid ++ s :: mid'))) =
        some (.protocol p.1, p.2, .subclass ⟨c, k.1.subclass⟩) := by
      rw [hstate, show k.1 = ⟨c, k.1.subclass⟩ by rw [← hkcls]]
      exact child_of_protocol hp
    have hright := h _ _ _ hls _ _ (advance_child ⟨_, htabs⟩ hline hchild)
    obtain ⟨hheading, l, text, hnearest, hl⟩ := hright
    rw [hcls] at hheading hl
    refine ⟨no_heading_between hfree hheading, ?_⟩
    by_contra hsome
    push Not at hsome
    obtain ⟨m, hm, hmark⟩ := hsome
    have hsplit : pre ++ g :: (mid ++ s :: mid') = (pre ++ g :: mid) ++ s :: mid' := by simp
    rw [hsplit] at hnearest
    have hmem := nearest_append_cons hnearest ⟨m, hm, by simpa using hmark⟩
    rw [hmid' l hmem] at hl
    cases hl

theorem rightParents_of_tidy {buf : Str} (h : Tidy (lines buf)) : RightParents buf := by
  intro before line rest hls key text hrecord
  cases hline : heading line with
  | some r =>
      -- A heading records itself, if anything.
      rw [advance_of_heading hline] at hrecord
      rcases heading_eq_some hline with ⟨hnone, -⟩ | ⟨v, text', rfl⟩ | ⟨c, text', rfl⟩
      · rw [hnone] at hrecord
        cases hrecord
      · cases hrecord
        trivial
      · cases hrecord
        trivial
  | none =>
      obtain ⟨next, hchild⟩ := recorded_of_no_heading hline hrecord
      rcases state_cases before with hidle | ⟨pre, g, mid, rfl, hfree, hnamed⟩
      · rw [child_start hidle] at hchild
        cases hchild
      · have hbetween : Between (lines buf) g mid line := ⟨⟨pre, rest, hls⟩, hfree, hline⟩
        rcases hnamed with ⟨v, hg⟩ | ⟨c, hg⟩
        · obtain ⟨k, hparse, rfl, -⟩ := child_underVendor (after_underVendor hg hfree pre) hchild
          obtain ⟨rfl, -⟩ := parseProduct_some hparse
          have hclear := h.product g mid line k.vendor hbetween hg (Option.isSome_of_eq_some hparse)
          exact nearest_heading hg hclear
        · rcases child_underClass (after_underClass hg hfree pre) hchild with
            ⟨k, hparse, rfl, -⟩ | ⟨s, k, hstate, hparse, rfl, -⟩
          · obtain ⟨rfl, -⟩ := parseSubclass_some hparse
            have hclear := h.subclass g mid line k.cls hbetween hg (Option.isSome_of_eq_some hparse)
            exact nearest_heading hg hclear
          · obtain ⟨⟨rfl, rfl⟩, -⟩ := parseProtocol_some hparse
            obtain ⟨m₁, l, m₂, text', rfl, hl, hm₂⟩ := subclass_of_state hg hfree hstate
            obtain ⟨hclear, htabs⟩ := h.protocol g m₁ l m₂ line k.cls k.subclass hbetween hg
              (Option.isSome_of_eq_some hl) hm₂ (Option.isSome_of_eq_some hparse)
            refine ⟨nearest_heading hg hclear, l, text', ?_, hl⟩
            exact nearest_eq_some_iff.mpr ⟨pre ++ g :: m₁, m₂, by simp, isSingleTab_of_subclass hl, htabs⟩

/-- **Entries have the right parents**, in any text, exactly if the text is tidy: no heading that is passed over
stands between what reads as an entry and the heading that it goes to, and no line behind a single tab between what
reads as a protocol and the subclass that it goes to. -/
theorem rightParents_iff (buf : Str) : RightParents buf ↔ Tidy (lines buf) :=
  ⟨tidy_of_rightParents, rightParents_of_tidy⟩

/-- A vendor, an audio terminal, and a line under it. -/
def terminalChild : Str :=
  ['0', '0', '0', '1', ' ', ' ', 'F', 'o', 'o', '\n', 'A', 'T', ' ', '0', '1', '0', '0', ' ', ' ', 'x', '\n',
    '\t', '0', '0', '0', '2', ' ', ' ', 'b', 'a', 'r', '\n']

/-- The line becomes a product of the vendor. -/
theorem terminalChild_wrong_parent :
    (parse terminalChild).get (.product ⟨1, 2⟩) = some ['b', 'a', 'r'] ∧ ¬ ∀ buf, RightParents buf := by
  have hlines : lines terminalChild =
      [['0', '0', '0', '1', ' ', ' ', 'F', 'o', 'o'], ['A', 'T', ' ', '0', '1', '0', '0', ' ', ' ', 'x']] ++
        [['\t', '0', '0', '0', '2', ' ', ' ', 'b', 'a', 'r']] := by decide
  refine ⟨by rw [parse_eq, hlines]; decide, fun h => ?_⟩
  obtain ⟨g, hnearest, text, next, hheading⟩ := h terminalChild _ _ _ hlines (.product ⟨1, 2⟩) ['b', 'a', 'r'] (by decide)
  have hg : nearest isHeading
      [['0', '0', '0', '1', ' ', ' ', 'F', 'o', 'o'], ['A', 'T', ' ', '0', '1', '0', '0', ' ', ' ', 'x']] =
        some ['A', 'T', ' ', '0', '1', '0', '0', ' ', ' ', 'x'] := by decide
  cases hg.symm.trans hnearest
  have hnone : heading ['A', 'T', ' ', '0', '1', '0', '0', ' ', ' ', 'x'] = none := by decide
  rw [hnone] at hheading
  cases hheading

end Qusb.UsbIds

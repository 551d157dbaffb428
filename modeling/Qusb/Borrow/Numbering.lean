import Qusb.Borrow.Recv
import Qusb.Borrow.Resets

/-! The sequence numbers of a borrower over long runs.

A frame takes the next value of a counter of 32 bits, and its number is in use until its reply is taken.
Beside the run stands its history: how many numbers were taken, and which of these are still awaited.
A number is used twice when the counter has come round to a frame that still waits. -/

open ByteCodec Tables Runs

namespace Qusb.Borrow

open Msg Proto

/-- How many numbers were taken, and which frames, in the order of their numbers, still await a reply. -/
structure History where
  taken : Nat
  awaiting : List Nat

namespace Borrower

/-- The number of the `m`-th frame. -/
def number (m : Nat) : Seqnum := UInt32.ofNat m

/-- The event reaches the increment of the counter. -/
def takes (V : Vhci) (b : Build) (s : Borrower) : BorrowEvent → Bool
  | .work (.portStat next) _ => s.sending && BorrowSendHandler.reportsReset s.send.prev next
  | .work (.processUrb urb _) _ => s.sending && !BorrowSendHandler.isSetAddress V urb &&
      (b == .release || s.send.addr == urb.address.get)
  | _ => false

/-- The number a frame replies to. -/
def replied (s : Borrower) : BorrowEvent → Option Seqnum
  | .recv (.frame (.urb seq) _) => if s.recv.running then some seq.seqnum else none
  | .recv (.frame (.portReset seqnum) _) => if s.recv.running then some seqnum else none
  | _ => none

/-- The history takes down the number of a new frame and strikes out those that are replied to. -/
def note (V : Vhci) (b : Build) (s : Borrower) (e : BorrowEvent) (_ : Borrower)
    (g : History) : History :=
  if takes V b s e then ⟨g.taken + 1, g.awaiting ++ [g.taken]⟩
  else ⟨g.taken, g.awaiting.filter fun m => s.replied e ≠ some (number m)⟩

/-- The next number is no awaited frame's, no live entry of the table is displaced by it, and the counter
does not overflow. -/
structure Unique (b : Build) (s : Borrower) (g : History) : Prop where
  differs : ∀ m ∈ g.awaiting, number m ≠ s.send.curSeq
  vacant : s.recv.linker.handles.lookup s.send.curSeq = none
  counts : ∃ next, b.addU32 s.send.curSeq 1 = .ok next

/-- With checked arithmetic fewer than 2³² numbers can be taken at all; with wrapping arithmetic fewer
than 2³² may have been taken since that of any frame that is awaited. -/
def Spaced (b : Build) (g : History) : Prop :=
  match b with
  | .dev => g.taken + 1 < 2 ^ 32
  | .release => ∀ m ∈ g.awaiting, g.taken < m + 2 ^ 32

/-- What the state and the history have in common. -/
structure Counted (b : Build) (s : Borrower) (g : History) : Prop where
  curSeq : s.send.curSeq = number g.taken
  keys : ∀ q, s.recv.linker.handles.lookup q ≠ none ↔ ∃ m ∈ g.awaiting, number m = q
  window : ∀ m ∈ g.awaiting, m < g.taken ∧ g.taken ≤ m + 2 ^ 32
  range : b = .dev → g.taken < 2 ^ 32

theorem number_eq_iff {m n : Nat} : number m = number n ↔ m % 2 ^ 32 = n % 2 ^ 32 := by
  unfold number
  rw [← UInt32.toNat_inj, UInt32.toNat_ofNat', UInt32.toNat_ofNat']

theorem number_succ (n : Nat) : number n + 1 = number (n + 1) := by
  unfold number
  rw [← UInt32.toNat_inj, UInt32.toNat_add, UInt32.toNat_ofNat', UInt32.toNat_ofNat']
  have hone : (1 : UInt32).toNat = 1 := rfl
  omega

theorem addU32_number {b : Build} {n : Nat} {next : UInt32} (h : b.addU32 (number n) 1 = .ok next) :
    next = number (n + 1) := by
  rw [← number_succ]
  exact (Build.addU32_eq_ok_iff.mp h).1

theorem number_counts_iff {n : Nat} (h : n < 2 ^ 32) :
    (∃ next, Build.dev.addU32 (number n) 1 = .ok next) ↔ n + 1 < 2 ^ 32 := by
  have hn : (number n).toNat = n := by
    unfold number
    rw [UInt32.toNat_ofNat', Nat.mod_eq_of_lt h]
  constructor
  · rintro ⟨next, hnext⟩
    have hrange := (Build.addU32_eq_ok_iff.mp hnext).2 rfl
    rwa [hn] at hrange
  · intro hlt
    exact ⟨_, Build.addU32_of_lt .dev (hn.symm ▸ hlt)⟩

/-! ### One event -/

variable {V : Vhci} {b : Build} {s s' : Borrower} {g : History}

/-- A work item that is handled takes a number and files a handle under it, or leaves the counter and the
tables alone. -/
theorem handleWork_cases {work : Work} {env : BorrowSendHandler.WorkEnv}
    {result : BorrowSendHandler.WorkResult} {send : BorrowSendHandler} {linker : Linker} (hsending : s.sending = true)
    (hok : BorrowSendHandler.handleWork V b env s.send s.recv.linker work = .ok (result, send, linker)) :
    (takes V b s (.work work env) = true ∧ b.addU32 s.send.curSeq 1 = .ok send.curSeq ∧
        ∃ handle, linker = s.recv.linker.insert handle s.send.curSeq) ∨
      (takes V b s (.work work env) = false ∧ send.curSeq = s.send.curSeq ∧ linker = s.recv.linker) := by
  cases work with
  | portStat next =>
      obtain ⟨⟨send₁, linker₁⟩, hstat, hok⟩ := bind_eq_ok_iff.mp hok
      cases hok
      obtain ⟨hsends, -, -, curSeq, hcounter, rfl, rfl⟩ | ⟨hsilent, rfl, rfl⟩ :=
        BorrowSendHandler.portStat_cases hstat
      · exact Or.inl ⟨by simp [takes, hsending, hsends], hcounter, _, rfl⟩
      · exact Or.inr ⟨by simp [takes, hsilent], rfl, rfl⟩
  | processUrb urb handle =>
      unfold BorrowSendHandler.handleWork at hok
      simp only at hok
      split at hok
      · next hset =>
          cases hok
          exact Or.inr ⟨by simp [takes, hset], rfl, rfl⟩
      · next hset =>
          obtain ⟨⟨result₁, send₁, linker₁⟩, hurb, hok⟩ := bind_eq_ok_iff.mp hok
          cases hok
          obtain ⟨_, hassert, -⟩ := bind_eq_ok_iff.mp hurb
          have haddr := Build.debugAssert_eq_ok_iff.mp hassert
          obtain ⟨rfl, hnext, -⟩ := BorrowSendHandler.processUrb_ok hurb
          refine Or.inl ⟨?_, hnext, _, rfl⟩
          cases b with
          | dev => simp [takes, hsending, hset, haddr rfl]
          | release => simp [takes, hsending, hset]
  | cancelUrb handle =>
      cases hok
      refine Or.inr ⟨rfl, ?_, rfl⟩
      rw [BorrowSendHandler.cancelUrb_eq]
      rfl

theorem takes_idle {work : Work} {env : BorrowSendHandler.WorkEnv} (hsending : ¬ s.sending = true) :
    takes V b s (.work work env) = false := by
  cases work with
  | portStat next => simp [takes, hsending]
  | processUrb urb handle => simp [takes, hsending]
  | cancelUrb handle => rfl

theorem work_cases {work : Work} {env : BorrowSendHandler.WorkEnv}
    (hok : s.step V b (.work work env) = .ok s') :
    (takes V b s (.work work env) = true ∧ b.addU32 s.send.curSeq 1 = .ok s'.send.curSeq ∧
        ∃ handle, s'.recv.linker = s.recv.linker.insert handle s.send.curSeq) ∨
      (takes V b s (.work work env) = false ∧ s'.send.curSeq = s.send.curSeq ∧
        s'.recv.linker = s.recv.linker) := by
  unfold step at hok
  simp only at hok
  split at hok
  · next hsending =>
      obtain ⟨⟨result, send, linker⟩, hwork, hok⟩ := bind_eq_ok_iff.mp hok
      cases hok
      exact handleWork_cases hsending hwork
  · next hsending =>
      cases hok
      exact Or.inr ⟨takes_idle hsending, rfl, rfl⟩

theorem lookup_remove {linker linker' : Linker} {seqnum : Seqnum} {handle : UrbHandle}
    (hok : linker.remove seqnum = .ok (handle, linker')) (q : Seqnum) :
    linker'.handles.lookup q = if some seqnum = some q then none else linker.handles.lookup q := by
  obtain ⟨handle₁, -, hok⟩ := bind_eq_ok_iff.mp hok
  obtain ⟨seqnum₁, -, hok⟩ := bind_eq_ok_iff.mp hok
  cases hok
  simp only [lookup_erase_eq, Option.some.injEq, eq_comm]

theorem replied_idle {e : RecvEvent} (hrunning : ¬ s.recv.running = true) :
    s.replied (.recv e) = none := by
  unfold replied
  split
  · next heq =>
      cases heq
      exact if_neg hrunning
  · next heq =>
      cases heq
      exact if_neg hrunning
  · rfl

/-- A reply takes its number out of the table; nothing else that arrives changes the table. -/
theorem recv_handles {e : RecvEvent} (hok : s.step V b (.recv e) = .ok s') (q : Seqnum) :
    s'.send = s.send ∧ s'.recv.linker.handles.lookup q =
      if s.replied (.recv e) = some q then none else s.recv.linker.handles.lookup q := by
  obtain ⟨recv, hrecv, hok⟩ := bind_eq_ok_iff.mp hok
  cases hok
  refine ⟨rfl, ?_⟩
  unfold RecvLoop.step at hrecv
  split at hrecv
  · next hrunning =>
      cases e with
      | frame frame resetDone =>
          cases frame with
          | urb seq =>
              obtain ⟨⟨giveback, linker⟩, hreply, hrecv⟩ := bind_eq_ok_iff.mp hrecv
              cases hrecv
              have hreplied : s.replied (.recv (.frame (.urb seq) resetDone)) = some seq.seqnum := if_pos hrunning
              rw [hreplied]
              exact lookup_remove (urbReply_remove hreply) q
          | portReset seqnum =>
              obtain ⟨linker, hreset, hrecv⟩ := bind_eq_ok_iff.mp hrecv
              cases hrecv
              obtain ⟨handle, hremove⟩ := deviceReset_remove hreset
              have hreplied : s.replied (.recv (.frame (.portReset seqnum) resetDone)) = some seqnum :=
                if_pos hrunning
              rw [hreplied]
              exact lookup_remove hremove q
          | unlink seqnum => cases hrecv
      | frameError =>
          cases hrecv
          rfl
      | givebackComplete result =>
          cases result with
          | ok u =>
              cases hrecv
              rfl
          | error err =>
              cases hrecv
              rfl
      | closed =>
          cases hrecv
          rfl
  · next hrunning =>
      cases hrecv
      rw [replied_idle hrunning]
      exact (if_neg (by simp)).symm

/-! ### Runs -/

theorem counted_start : Counted b start ⟨0, []⟩ where
  curSeq := rfl
  keys q := by simp [start, Linker.empty, AList.lookup_empty]
  window := by simp
  range _ := by decide

theorem Spaced.lt (h : Spaced b g) {m : Nat} (hm : m ∈ g.awaiting) : g.taken < m + 2 ^ 32 := by
  cases b with
  | dev =>
      have hlt : g.taken + 1 < 2 ^ 32 := h
      omega
  | release => exact h m hm

/-- A number is free for the next frame exactly when the awaited ones are near enough. -/
theorem Counted.unique_iff (h : Counted b s g) : Unique b s g ↔ Spaced b g := by
  constructor
  · intro hunique
    cases b with
    | dev =>
        obtain ⟨next, hnext⟩ := hunique.counts
        rw [h.curSeq] at hnext
        exact (number_counts_iff (h.range rfl)).mp ⟨next, hnext⟩
    | release =>
        intro m hm
        have hdiffers := hunique.differs m hm
        rw [h.curSeq, Ne, number_eq_iff] at hdiffers
        have hwindow := h.window m hm
        -- at the edge of the window the counter has come round
        omega
  · intro hspaced
    have hdiffers : ∀ m ∈ g.awaiting, number m ≠ s.send.curSeq := by
      intro m hm
      rw [h.curSeq, Ne, number_eq_iff]
      have hwindow := h.window m hm
      have hlt := hspaced.lt hm
      omega
    refine ⟨hdiffers, ?_, ?_⟩
    · by_contra hused
      obtain ⟨m, hm, heq⟩ := (h.keys _).mp hused
      exact hdiffers m hm heq
    · rw [h.curSeq]
      cases b with
      | dev => exact (number_counts_iff (h.range rfl)).mpr hspaced
      | release => exact ⟨_, rfl⟩

theorem Counted.take (h : Counted b s g) (hspaced : Spaced b g) {handle : UrbHandle}
    (hnext : b.addU32 s.send.curSeq 1 = .ok s'.send.curSeq)
    (hlinker : s'.recv.linker = s.recv.linker.insert handle s.send.curSeq) :
    Counted b s' ⟨g.taken + 1, g.awaiting ++ [g.taken]⟩ where
  curSeq := by
    rw [h.curSeq] at hnext
    exact addU32_number hnext
  keys q := by
    rw [hlinker, h.curSeq]
    simp only [Linker.insert, lookup_insert_eq, List.mem_append, List.mem_singleton]
    by_cases hq : q = number g.taken
    · rw [if_pos hq]
      exact ⟨fun _ => ⟨g.taken, Or.inr rfl, hq.symm⟩, fun _ => Option.some_ne_none _⟩
    · rw [if_neg hq, h.keys]
      constructor
      · rintro ⟨m, hm, heq⟩
        exact ⟨m, Or.inl hm, heq⟩
      · rintro ⟨m, hm | rfl, heq⟩
        · exact ⟨m, hm, heq⟩
        · exact absurd heq.symm hq
  window m hm := by
    show m < g.taken + 1 ∧ g.taken + 1 ≤ m + 2 ^ 32
    rcases List.mem_append.mp hm with hm | hm
    · have hwindow := h.window m hm
      have hlt := hspaced.lt hm
      omega
    · cases List.mem_singleton.mp hm
      omega
  range hdev := by
    subst hdev
    have hlt : g.taken + 1 < 2 ^ 32 := hspaced
    exact hlt

theorem Counted.strike (h : Counted b s g) {r : Option Seqnum}
    (hcurSeq : s'.send.curSeq = s.send.curSeq)
    (hkeys : ∀ q, s'.recv.linker.handles.lookup q =
      if r = some q then none else s.recv.linker.handles.lookup q) :
    Counted b s' ⟨g.taken, g.awaiting.filter fun m => r ≠ some (number m)⟩ where
  curSeq := hcurSeq.trans h.curSeq
  keys q := by
    rw [hkeys]
    simp only [List.mem_filter, decide_eq_true_eq]
    by_cases hr : r = some q
    · rw [if_pos hr]
      refine ⟨fun hnone => absurd rfl hnone, ?_⟩
      rintro ⟨m, ⟨-, hm⟩, rfl⟩
      exact absurd hr hm
    · rw [if_neg hr, h.keys]
      constructor
      · rintro ⟨m, hm, rfl⟩
        exact ⟨m, ⟨hm, hr⟩, rfl⟩
      · rintro ⟨m, ⟨hm, -⟩, heq⟩
        exact ⟨m, hm, heq⟩
  window m hm := h.window m (List.mem_of_mem_filter hm)
  range := h.range

/-- Each event that takes a number only where it is free keeps the count. -/
theorem counted_step {e : BorrowEvent} (h : Counted b s g)
    (hspaced : takes V b s e = true → Spaced b g) (hok : s.step V b e = .ok s') :
    Counted b s' (note V b s e s' g) := by
  unfold note
  cases e with
  | work work env =>
      rcases work_cases hok with ⟨htakes, hnext, handle, hlinker⟩ | ⟨htakes, hcurSeq, hlinker⟩
      · rw [if_pos htakes]
        exact h.take (hspaced htakes) hnext hlinker
      · rw [if_neg (Bool.eq_false_iff.mp htakes)]
        refine h.strike hcurSeq fun q => ?_
        rw [hlinker]
        exact (if_neg (Option.some_ne_none q).symm).symm
  | recv e =>
      rw [if_neg (by simp [takes])]
      exact h.strike (congrArg BorrowSendHandler.curSeq (recv_handles hok 0).1) fun q => (recv_handles hok q).2

/-- **When sequence numbers are unique.** In every run of a borrower, with work and replies in any order, each
number that is taken is free exactly when each is taken within 2³² numbers of every frame that is still
awaited; where the arithmetic is checked, exactly when fewer than 2³² are taken in all. -/
theorem numbers_unique_iff (V : Vhci) (b : Build) (events : List BorrowEvent) :
    Meets (track (step V b) (note V b)) (fun s e => takes V b s.1 e = true → Unique b s.1 s.2)
        (start, ⟨0, []⟩) events ↔
      Meets (track (step V b) (note V b)) (fun s e => takes V b s.1 e = true → Spaced b s.2)
        (start, ⟨0, []⟩) events := by
  refine meets_iff_of_inv (I := fun s => Counted b s.1 s.2) counted_start meets_true ?_ ?_
  · intro s e hcounted _
    exact imp_congr_right fun _ => hcounted.unique_iff
  · rintro s e s' hcounted - hspaced hstep
    obtain ⟨hok, hnote⟩ := track_eq_ok.mp hstep
    rw [hnote]
    exact counted_step hcounted hspaced hok

/-! ### A frame that waits for ever -/

/-- An interrupt URB without data. -/
def idleUrb : IocUrb := ⟨.interrupt, ⟨0⟩, ⟨0x81⟩, .zero, 0, 0, 0, 0⟩

def submit (handle : UrbHandle) : BorrowEvent :=
  .work (.processUrb idleUrb handle) ⟨fun _ => 0, .ok ([], []), ⟨0⟩⟩

def idleData : Data UrbFrame :=
  ⟨(UrbHeader.mk 0 0 ⟨0x81⟩ .interrupt 0 .success (0, 0, 0) 0 0 .zero).asBytes, by decide⟩

def reply (q : Seqnum) : BorrowEvent := .recv (.frame (.urb ⟨q, idleData⟩) (.ok ()))

/-- `n` URBs that are answered at once, the first as the `k`-th frame, and one more. -/
def rounds : Nat → Nat → List BorrowEvent
  | 0, _ => [submit ⟨1⟩]
  | n + 1, k => submit ⟨1⟩ :: reply (number k) :: rounds n (k + 1)

/-- Before the `k`-th frame, the first is still awaited. -/
structure FirstWaits (k : Nat) (s : Borrower) : Prop where
  sending : s.sending = true
  running : s.recv.running = true
  addr : s.send.addr = 0
  curSeq : s.send.curSeq = number k
  waits : s.recv.linker.handles.lookup 0 ≠ none

theorem takes_submit (hsending : s.sending = true) (handle : UrbHandle) :
    takes .usb .release s (submit handle) = true := by
  have hset : BorrowSendHandler.isSetAddress .usb idleUrb = false := by decide
  simp [takes, submit, hsending, hset]

theorem submit_ok (hsending : s.sending = true) (haddr : s.send.addr = 0) (handle : UrbHandle) :
    ∃ s', s.step .usb .release (submit handle) = .ok s' ∧ s'.sending = true ∧ s'.send.addr = 0 ∧
      s'.send.curSeq = s.send.curSeq + 1 ∧ s'.recv.running = s.recv.running ∧
      s'.recv.linker = s.recv.linker.insert handle s.send.curSeq := by
  have hfit : BorrowSendHandler.FieldsFit idleUrb := ⟨by decide, by decide⟩
  have hdata := BorrowSendHandler.urbData_blank (fun _ => 0) hfit
  obtain ⟨send, hurb, haddr', hcurSeq⟩ : ∃ send, s.send.processUrb .release (fun _ => 0) s.recv.linker idleUrb
      handle (.ok ([], [])) = .ok (.ok (), send, s.recv.linker.insert handle s.send.curSeq) ∧
      send.addr = 0 ∧ send.curSeq = s.send.curSeq + 1 :=
    ⟨_, BorrowSendHandler.processUrb_of_data haddr rfl hdata, haddr, rfl⟩
  refine ⟨⟨send, true, { s.recv with linker := s.recv.linker.insert handle s.send.curSeq }⟩, ?_, rfl,
    haddr', hcurSeq, rfl, rfl⟩
  unfold step submit BorrowSendHandler.handleWork
  simp only [if_pos hsending]
  rw [if_neg (by decide), hurb]
  rfl

theorem reply_ok {q : Seqnum} (hrunning : s.recv.running = true) (hknows : s.recv.linker.Knows q) :
    ∃ s', s.step .usb .release (reply q) = .ok s' ∧ s'.sending = s.sending ∧ s'.recv.running = true := by
  have hcarries : CarriesTransfer idleData := Or.inr (by decide)
  obtain ⟨⟨giveback, linker⟩, hreply⟩ : ∃ r, BorrowRecvHandler.urbReply s.recv.linker ⟨q, idleData⟩ = .ok r :=
    urbReply_ok_iff.mpr ⟨hknows, hcarries⟩
  refine ⟨{ s with recv := { s.recv with linker := linker, givenBack := s.recv.givenBack ++ [giveback] } }, ?_,
    rfl, hrunning⟩
  unfold step reply RecvLoop.step
  simp only [if_pos hrunning]
  rw [hreply]
  rfl

theorem FirstWaits.round {k : Nat} (h : FirstWaits k s) (hpos : 0 < k) (hlt : k < 2 ^ 32) :
    ∃ s₁ s₂, s.step .usb .release (submit ⟨1⟩) = .ok s₁ ∧
      s₁.step .usb .release (reply (number k)) = .ok s₂ ∧ FirstWaits (k + 1) s₂ := by
  obtain ⟨s₁, hsubmit, hsending₁, haddr₁, hcurSeq₁, hrunning₁, hlinker₁⟩ := submit_ok h.sending h.addr ⟨1⟩
  rw [h.curSeq] at hcurSeq₁ hlinker₁
  have hknows : s₁.recv.linker.Knows (number k) := by
    rw [hlinker₁]
    refine ⟨⟨1⟩, AList.lookup_insert _, ?_⟩
    rw [show (s.recv.linker.insert ⟨1⟩ (number k)).seqnums.lookup ⟨1⟩ = some (number k) from
      AList.lookup_insert _]
    exact Option.some_ne_none _
  obtain ⟨s₂, hreply, hsending₂, hrunning₂⟩ := reply_ok (hrunning₁.trans h.running) hknows
  have hzero : number k ≠ 0 := by
    rw [show (0 : Seqnum) = number 0 from rfl, Ne, number_eq_iff]
    omega
  obtain ⟨hsend₂, hkeys₂⟩ := recv_handles hreply 0
  refine ⟨s₁, s₂, hsubmit, hreply, hsending₂.trans hsending₁, hrunning₂, ?_, ?_, ?_⟩
  · rw [hsend₂, haddr₁]
  · rw [hsend₂, hcurSeq₁, number_succ]
  · have hreplied : s₁.replied (reply (number k)) = some (number k) := if_pos (hrunning₁.trans h.running)
    rw [hkeys₂, show s₁.replied (.recv (.frame (.urb ⟨number k, idleData⟩) (.ok ()))) = _ from hreplied,
      if_neg (by simpa using hzero), hlinker₁]
    rw [show (s.recv.linker.insert ⟨1⟩ (number k)).handles.lookup 0 = s.recv.linker.handles.lookup 0 from
      AList.lookup_insert_ne hzero.symm]
    exact h.waits

/-- The counter comes round to the first frame. The induction is on the URBs that are still to be answered. -/
theorem rounds_clash {n k : Nat} (h : FirstWaits k s) (hpos : 0 < k) (hsum : k + n = 2 ^ 32) (g : History) :
    ¬ Meets (track (step .usb .release) (note .usb .release))
      (fun s e => takes .usb .release s.1 e = true → Unique .release s.1 s.2) (s, g) (rounds n k) := by
  induction n generalizing k s g with
  | zero =>
      rintro ⟨hunique, -⟩
      have hvacant := (hunique (takes_submit h.sending ⟨1⟩)).vacant
      have hzero : s.send.curSeq = 0 := by
        rw [h.curSeq, show (0 : Seqnum) = number 0 from rfl, number_eq_iff]
        omega
      rw [hzero] at hvacant
      exact h.waits hvacant
  | succ n ih =>
      rintro ⟨-, hrest⟩
      obtain ⟨s₁, s₂, hsubmit, hreply, hwaits⟩ := h.round hpos (by omega)
      have hrest₁ := hrest (s₁, _) (track_eq_ok.mpr ⟨hsubmit, rfl⟩)
      have hrest₂ := hrest₁.2 (s₂, _) (track_eq_ok.mpr ⟨hreply, rfl⟩)
      exact ih hwaits (by omega) (by omega) _ hrest₂

/-- The first URB stays unanswered, 2³² − 1 others are answered one after the other, and the next takes the
number of the first. -/
theorem number_taken_twice :
    ¬ ∀ events, Meets (track (step .usb .release) (note .usb .release))
      (fun s e => takes .usb .release s.1 e = true → Unique .release s.1 s.2) (start, ⟨0, []⟩) events := by
  intro hall
  obtain ⟨s₁, hsubmit, hsending, haddr, hcurSeq, hrunning, hlinker⟩ :=
    submit_ok (s := start) rfl rfl ⟨0⟩
  have hwaits : FirstWaits 1 s₁ := by
    refine ⟨hsending, hrunning, haddr, hcurSeq, ?_⟩
    rw [hlinker]
    exact Option.some_ne_none _
  have hmeets := (hall (submit ⟨0⟩ :: rounds (2 ^ 32 - 1) 1)).2 (s₁, _) (track_eq_ok.mpr ⟨hsubmit, rfl⟩)
  exact rounds_clash hwaits Nat.one_pos (by omega) _ hmeets

end Borrower
end Qusb.Borrow

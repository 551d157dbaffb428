import Qusb.Lend.Metrics
import Qusb.Session.Lending

/-! What a lender's figures say.

The handlers of both loops are wrapped. The wrappers mark a submission before and after it is set up, a completion, and
a flush; the number of active transfers is shared between them. The figures are printed when the session is over. -/

open Rankings Runs

namespace Qusb

open Msg Proto

/-! ### Counters -/

/-- A `u32` counts up to a number, modulo 2^32 unless the additions are checked. -/
structure Counts (b : Build) (counter : UInt32) (n : Nat) : Prop where
  eq : counter = .ofNat n
  checked : b = .dev → n < 2 ^ 32

/-- A `u32` is the greatest number that was counted up to, unless a number beyond 2^32 was. -/
structure Peak (b : Build) (greatest : UInt32) (n : Nat) : Prop where
  eq : n < 2 ^ 32 → greatest.toNat = n
  checked : b = .dev → n < 2 ^ 32

variable {b : Build}

theorem Counts.zero (b : Build) : Counts b 0 0 := ⟨rfl, fun _ => Nat.two_pow_pos 32⟩

theorem Counts.toNat {counter : UInt32} {n : Nat} (h : Counts b counter n) (hn : n < 2 ^ 32) :
    counter.toNat = n := by
  rw [h.eq]
  exact UInt32.toNat_ofNat_of_lt' hn

theorem Counts.succ {counter : UInt32} {n : Nat} (h : Counts b counter n)
    (hroom : b = .dev → counter.toNat + 1 < 2 ^ 32) : Counts b (counter + 1) (n + 1) := by
  refine ⟨?_, fun hb => ?_⟩
  · rw [h.eq, UInt32.ofNat_add]
    rfl
  · rw [← h.toNat (h.checked hb)]
    exact hroom hb

/-- A counter that is not full can be counted up. -/
theorem Counts.addU32 {counter : UInt32} {n : Nat} (h : Counts b counter n) (hroom : b = .dev → n + 1 < 2 ^ 32) :
    b.addU32 counter 1 = .ok (counter + 1) :=
  Build.addU32_eq_ok_iff.mpr ⟨rfl, fun hb => by
    rw [h.toNat (h.checked hb)]
    exact hroom hb⟩

theorem Counts.pred {counter : UInt32} {n : Nat} (h : Counts b counter (n + 1)) : Counts b (counter - 1) n := by
  refine ⟨?_, fun hb => (Nat.lt_succ_self n).trans (h.checked hb)⟩
  rw [h.eq, UInt32.ofNat_add]
  exact UInt32.add_sub_cancel _ _

theorem Peak.zero (b : Build) : Peak b 0 0 := ⟨fun _ => rfl, fun _ => Nat.two_pow_pos 32⟩

theorem Peak.max {greatest counter : UInt32} {n k : Nat} (h : Peak b greatest n) (hcounts : Counts b counter k) :
    Peak b (max greatest counter) (max n k) := by
  refine ⟨fun hlt => ?_, fun hb => max_lt (h.checked hb) (hcounts.checked hb)⟩
  have hn := h.eq ((le_max_left n k).trans_lt hlt)
  have hk := hcounts.toNat ((le_max_right n k).trans_lt hlt)
  rw [← hn, ← hk]
  show (if greatest ≤ counter then counter else greatest).toNat = _
  split
  · next hle => exact (max_eq_right (UInt32.le_iff_toNat_le.mp hle)).symm
  · next hgt => exact (max_eq_left (Nat.le_of_not_le fun hle => hgt (UInt32.le_iff_toNat_le.mpr hle))).symm

def Ticket.isUrb : Ticket → Bool
  | .urb _ => true
  | .reset _ => false

namespace Lend

/-! ### The wrappers -/

def threshold : Nat := 64

structure LendRecvStats where
  lastFewSetupTimes : Metrics.RollingAvg threshold Metrics.Duration
  maxSetupTimes : Metrics.Max threshold Metrics.Duration TransferKind
  minSetupTimes : Metrics.Min threshold Metrics.Duration
  maxActiveTransfers : UInt32

namespace LendRecvStats

def new : LendRecvStats := ⟨.new, .new, .new, 0⟩

/-- The counter itself wraps in both profiles; the number that is compared is checked. -/
def markStart (b : Build) (stats : LendRecvStats) (numActiveTransfers : UInt32) :
    Except Fault (LendRecvStats × UInt32) := do
  let numActive ← b.addU32 numActiveTransfers 1
  return ({ stats with maxActiveTransfers := max stats.maxActiveTransfers numActive }, numActiveTransfers + 1)

def markEnd (stats : LendRecvStats) (elapsed : Metrics.Duration) (header : TransferKind) : LendRecvStats :=
  { stats with
    lastFewSetupTimes := stats.lastFewSetupTimes.push elapsed
    maxSetupTimes := stats.maxSetupTimes.push elapsed header
    minSetupTimes := stats.minSetupTimes.push elapsed }

/-- The average that is printed. -/
def drop (stats : LendRecvStats) : Except Fault Metrics.Duration := do
  let mean ← stats.lastFewSetupTimes.mean
  return mean.getD 0

end LendRecvStats

structure LendSendStats where
  numTransfersCompleted : UInt32
  maxCompletedTransfersBeforeFlush : UInt32
  numIsoTransfers : UInt64

namespace LendSendStats

def new : LendSendStats := ⟨0, 0, 0⟩

def markFlush (stats : LendSendStats) : LendSendStats :=
  { stats with
    maxCompletedTransfersBeforeFlush := max stats.maxCompletedTransfersBeforeFlush stats.numTransfersCompleted
    numTransfersCompleted := 0 }

def markComplete (b : Build) (stats : LendSendStats) (numActiveTransfers : UInt32) :
    Except Fault (LendSendStats × UInt32) := do
  let numTransfersCompleted ← b.addU32 stats.numTransfersCompleted 1
  return ({ stats with numTransfersCompleted := numTransfersCompleted }, numActiveTransfers - 1)

def markIso (b : Build) (stats : LendSendStats) : Except Fault LendSendStats := do
  let numIsoTransfers ← b.addU64 stats.numIsoTransfers 1
  return { stats with numIsoTransfers := numIsoTransfers }

end LendSendStats

/-- A call that passes through a wrapper. -/
inductive Passed where
  | setUp (kind : TransferKind)
  | completed (completed : CompletedTransfer)
  | flushBuf

structure Stats where
  recv : LendRecvStats
  send : LendSendStats
  numActiveTransfers : UInt32

namespace Stats

def new : Stats := ⟨.new, .new, 0⟩

/-- The wrappers of the completions. -/
def markCompleted (b : Build) (stats : Stats) : CompletedTransfer → Except Fault Stats
  | .reset _ => .ok stats
  | .iso _ => do
      let (send, numActiveTransfers) ← stats.send.markComplete b stats.numActiveTransfers
      let send ← send.markIso b
      return { stats with send := send, numActiveTransfers := numActiveTransfers }
  | .int _ | .ctrl _ | .bulk _ => do
      let (send, numActiveTransfers) ← stats.send.markComplete b stats.numActiveTransfers
      return { stats with send := send, numActiveTransfers := numActiveTransfers }

/-- What is marked before a call, and for a submission after it, which took the time given. -/
def mark (b : Build) (stats : Stats) (elapsed : Metrics.Duration) : Option Passed → Except Fault Stats
  | none => .ok stats
  | some (.setUp kind) => do
      let (recv, numActiveTransfers) ← stats.recv.markStart b stats.numActiveTransfers
      return { stats with recv := recv.markEnd elapsed kind, numActiveTransfers := numActiveTransfers }
  | some (.completed completed) => stats.markCompleted b completed
  | some .flushBuf => .ok { stats with send := stats.send.markFlush }

end Stats

/-- The call that a turn makes, of those that a wrapper marks. -/
def LendLoops.passed (x : LendLoops) : LendEvent → Option Passed
  | .recv (.frame (.urb seq)) => if x.recv.running then some (.setUp seq.data.get.header.kind) else none
  | .lend index => if x.send.running then x.recv.sent[index]?.map .completed else none
  | .flushBuf => if x.send.running && x.send.timerReady then some .flushBuf else none
  | _ => none

structure StatLoops where
  loops : LendLoops
  stats : Stats

namespace StatLoops

def start (devId : UsbDeviceId) : StatLoops := ⟨.start devId, .new⟩

def step (V : Vhci) (b : Build) (x : StatLoops) (event : LendEvent × Metrics.Duration) : Except Fault StatLoops := do
  let stats ← x.stats.mark b event.2 (x.loops.passed event.1)
  let loops ← x.loops.step V b event.1
  return ⟨loops, stats⟩

end StatLoops

/-! ### What happened -/

/-- The URBs that were submitted and have not been replied to. -/
def RecvLoop.active (s : RecvLoop) : Nat := s.tickets.countP Ticket.isUrb

def CompletedTransfer.isIso : CompletedTransfer → Bool
  | .iso _ => true
  | _ => false

/-- The submissions so far, with the time each took; how many URBs were active at once; the URBs that were completed
since the last flush, and at most between two; and the isochronous ones. -/
structure Account where
  setUps : List (Metrics.Duration × TransferKind)
  active : Nat
  unflushed : Nat
  flushed : Nat
  isos : Nat

namespace Account

def zero : Account := ⟨[], 0, 0, 0, 0⟩

def times (f : Account) : List Metrics.Duration := f.setUps.map Prod.fst

/-- The last few of them. -/
def last (f : Account) : List Metrics.Duration := f.times.drop (f.times.length - threshold)

def next (f : Account) (elapsed : Metrics.Duration) (active : Nat) : Option Passed → Account
  | none => { f with active := max f.active active }
  | some (.setUp kind) => { f with setUps := f.setUps ++ [(elapsed, kind)], active := max f.active active }
  | some (.completed completed) => { f with
      active := max f.active active
      unflushed := f.unflushed + completed.ticket.isUrb.toNat
      isos := f.isos + completed.isIso.toNat }
  | some .flushBuf => { f with
      active := max f.active active, unflushed := 0, flushed := max f.flushed f.unflushed }

end Account

def StatLoops.account (x : StatLoops) (event : LendEvent × Metrics.Duration) (x' : StatLoops) (f : Account) :
    Account :=
  f.next event.2 x'.loops.recv.active (x.loops.passed event.1)

/-! ### The active URBs -/

def Passed.begun : Option Passed → Nat
  | some (.setUp _) => 1
  | _ => 0

def Passed.finished : Option Passed → Nat
  | some (.completed transfer) => transfer.ticket.isUrb.toNat
  | _ => 0

namespace RecvLoop

theorem active_push (s : RecvLoop) (r : InProgress × LendRecvHandler) :
    (s.push r).active = s.active + r.1.ticket.isUrb.toNat := by
  rw [active, (s.tickets_push r).countP_eq, List.countP_cons]
  cases r.1.ticket.isUrb <;> rfl

/-- A completion that is taken is not active any more. -/
theorem active_lent {s : RecvLoop} {index : Nat} {completed : CompletedTransfer} (handler : LendRecvHandler)
    (hitem : s.sent[index]? = some completed) :
    s.active = (RecvLoop.mk handler s.inProgress (s.sent.eraseIdx index) s.running).active +
      completed.ticket.isUrb.toNat := by
  rw [active, ← (Session.tickets_eraseIdx hitem handler).countP_eq, List.countP_cons]
  cases completed.ticket.isUrb <;> rfl

end RecvLoop

/-- **A turn** makes the URBs active that are set up, and ends those that are completed. -/
theorem LendLoops.active_turn {x x' : LendLoops} {event : LendEvent} (h : Turn b x event x') :
    x'.recv.active + Passed.finished (x.passed event) = x.recv.active + Passed.begun (x.passed event) := by
  cases h with
  | @taken seq r hrunning htaken =>
      have hpassed : x.passed (.recv (.frame (.urb seq))) = some (.setUp seq.data.get.header.kind) := if_pos hrunning
      have hactive := x.recv.active_push r
      rw [(setUp_of_taken htaken).1] at hactive
      rw [hpassed]
      exact hactive
  | reset => exact x.recv.active_push _
  | cancelled => rfl
  | completed hitem hcompleted =>
      exact (RecvLoop.tickets_complete _ hitem (complete_ticket hcompleted)).countP_eq _
  | ended hevent =>
      rcases hevent with rfl | rfl
      · rfl
      · rfl
  | @lent index completed result tokens hrunning hitem hevent =>
      have hpassed : x.passed (.lend index) = some (.completed completed) := by
        rw [passed, if_pos hrunning, hitem]
        rfl
      rw [hpassed]
      exact (RecvLoop.active_lent _ hitem).symm
  | flushed hrunning hready hflush =>
      have hpassed : x.passed .flushBuf = some .flushBuf := if_pos (Bool.and_eq_true_iff.mpr ⟨hrunning, hready⟩)
      rw [hpassed]
      rfl
  | wrote hrunning hready => rfl
  | exited => rfl
  | idle hseq hlend hflush =>
      have hpassed : x.passed event = none := by
        unfold passed
        split
        · next seq =>
            rw [hseq seq rfl]
            rfl
        · next index =>
            split
            · next hrunning =>
                rw [hlend index rfl hrunning]
                rfl
            · rfl
        · rw [hflush rfl]
          rfl
        · rfl
      rw [hpassed]
      rfl

/-! ### The figures agree -/

/-- The figures are those of what happened. -/
structure Agrees (b : Build) (stats : Stats) (active : Nat) (f : Account) : Prop where
  numActive : Counts b stats.numActiveTransfers active
  le_active : active ≤ f.active
  maxActive : Peak b stats.recv.maxActiveTransfers f.active
  lastFew : stats.recv.lastFewSetupTimes = .pushAll f.times
  maxSetUp : stats.recv.maxSetupTimes = .pushAll f.setUps
  minSetUp : stats.recv.minSetupTimes = .pushAll f.times
  numCompleted : Counts b stats.send.numTransfersCompleted f.unflushed
  maxCompleted : Peak b stats.send.maxCompletedTransfersBeforeFlush f.flushed
  numIso : stats.send.numIsoTransfers = .ofNat f.isos

namespace Agrees

variable {stats stats' : Stats} {active active' : Nat} {f : Account} {elapsed : Metrics.Duration}

theorem start (b : Build) : Agrees b .new 0 .zero where
  numActive := .zero b
  le_active := le_rfl
  maxActive := .zero b
  lastFew := rfl
  maxSetUp := rfl
  minSetUp := rfl
  numCompleted := .zero b
  maxCompleted := .zero b
  numIso := rfl

theorem setUp {kind : TransferKind} (h : Agrees b stats active f)
    (hok : stats.mark b elapsed (some (.setUp kind)) = .ok stats') :
    Agrees b stats' (active + 1) (f.next elapsed (active + 1) (some (.setUp kind))) := by
  obtain ⟨⟨recv, numActiveTransfers⟩, hstart, hok⟩ := bind_eq_ok_iff.mp hok
  obtain ⟨numActive, hadd, hstart⟩ := bind_eq_ok_iff.mp hstart
  cases hstart
  cases hok
  obtain ⟨rfl, hroom⟩ := Build.addU32_eq_ok_iff.mp hadd
  have hcounts := h.numActive.succ hroom
  have htimes : (f.setUps ++ [(elapsed, kind)]).map Prod.fst = f.times ++ [elapsed] := List.map_append
  exact {
    numActive := hcounts
    le_active := le_max_right _ _
    maxActive := h.maxActive.max hcounts
    lastFew := by
      show stats.recv.lastFewSetupTimes.push elapsed = .pushAll ((f.setUps ++ [(elapsed, kind)]).map Prod.fst)
      rw [htimes, h.lastFew, Metrics.RollingAvg.pushAll_append]
    maxSetUp := by
      show stats.recv.maxSetupTimes.push elapsed kind = .pushAll (f.setUps ++ [(elapsed, kind)])
      rw [h.maxSetUp, Metrics.Max.pushAll_append]
    minSetUp := by
      show stats.recv.minSetupTimes.push elapsed = .pushAll ((f.setUps ++ [(elapsed, kind)]).map Prod.fst)
      rw [htimes, h.minSetUp, Metrics.Min.pushAll_append]
    numCompleted := h.numCompleted
    maxCompleted := h.maxCompleted
    numIso := h.numIso }

/-- A URB that is completed leaves the active ones. -/
theorem urb {send : LendSendStats} {numActiveTransfers : UInt32} (h : Agrees b stats (active + 1) f)
    (hok : stats.send.markComplete b stats.numActiveTransfers = .ok (send, numActiveTransfers)) :
    Agrees b { stats with send := send, numActiveTransfers := numActiveTransfers } active
      { f with unflushed := f.unflushed + 1 } := by
  obtain ⟨numTransfersCompleted, hadd, hok⟩ := bind_eq_ok_iff.mp hok
  cases hok
  obtain ⟨rfl, hroom⟩ := Build.addU32_eq_ok_iff.mp hadd
  exact { h with
    numActive := h.numActive.pred
    le_active := (Nat.le_succ active).trans h.le_active
    numCompleted := h.numCompleted.succ hroom }

theorem iso {send : LendSendStats} (h : Agrees b stats active f) (hok : stats.send.markIso b = .ok send) :
    Agrees b { stats with send := send } active { f with isos := f.isos + 1 } := by
  obtain ⟨numIsoTransfers, hadd, hok⟩ := bind_eq_ok_iff.mp hok
  cases hok
  refine { h with numIso := ?_ }
  show numIsoTransfers = .ofNat (f.isos + 1)
  rw [(Build.addU64_eq_ok_iff.mp hadd).1, h.numIso, UInt64.ofNat_add]
  rfl

theorem completed {transfer : CompletedTransfer} (h : Agrees b stats (active + transfer.ticket.isUrb.toNat) f)
    (hok : stats.markCompleted b transfer = .ok stats') :
    Agrees b stats' active { f with
      unflushed := f.unflushed + transfer.ticket.isUrb.toNat, isos := f.isos + transfer.isIso.toNat } := by
  have hurb : ∀ {stats' : Stats}, Agrees b stats (active + 1) f → (do
      let (send, numActiveTransfers) ← stats.send.markComplete b stats.numActiveTransfers
      return { stats with send := send, numActiveTransfers := numActiveTransfers }) = Except.ok stats' →
      Agrees b stats' active { f with unflushed := f.unflushed + 1 } := by
    intro stats' h hok
    obtain ⟨⟨send, numActiveTransfers⟩, hcomplete, hok⟩ := bind_eq_ok_iff.mp hok
    cases hok
    exact h.urb hcomplete
  cases transfer with
  | reset seq =>
      cases hok
      exact h
  | ctrl seq => exact hurb h hok
  | int seq => exact hurb h hok
  | bulk seq => exact hurb h hok
  | iso seq =>
      obtain ⟨⟨send, numActiveTransfers⟩, hcomplete, hok⟩ := bind_eq_ok_iff.mp hok
      obtain ⟨send', hiso, hok⟩ := bind_eq_ok_iff.mp hok
      cases hok
      exact (h.urb hcomplete).iso hiso

theorem flush (h : Agrees b stats active f) :
    Agrees b { stats with send := stats.send.markFlush } active
      { f with unflushed := 0, flushed := max f.flushed f.unflushed } :=
  { h with
    numCompleted := .zero b
    maxCompleted := h.maxCompleted.max h.numCompleted }

/-- **What is marked** agrees with what happened. -/
theorem mark {passed : Option Passed} (h : Agrees b stats active f)
    (hactive : active' + Passed.finished passed = active + Passed.begun passed)
    (hok : stats.mark b elapsed passed = .ok stats') : Agrees b stats' active' (f.next elapsed active' passed) := by
  have hfewer : Passed.begun passed = 0 → max f.active active' = f.active := by
    intro hnone
    rw [hnone] at hactive
    exact max_eq_left ((Nat.le_of_add_right_le hactive.le).trans h.le_active)
  cases passed with
  | none =>
      cases hok
      rw [Account.next, hfewer rfl]
      obtain rfl : active' = active := hactive
      exact h
  | some passed =>
      cases passed with
      | setUp kind =>
          obtain rfl : active' = active + 1 := hactive
          exact h.setUp hok
      | completed transfer =>
          rw [Account.next, hfewer rfl]
          obtain rfl : active' + transfer.ticket.isUrb.toNat = active := hactive
          exact h.completed hok
      | flushBuf =>
          cases hok
          rw [Account.next, hfewer rfl]
          obtain rfl : active' = active := hactive
          exact h.flush

/-- A call is marked as long as no counter is full. -/
theorem mark_ok (h : Agrees b stats active f)
    (hroom : b = .dev → active + 1 < 2 ^ 32 ∧ f.unflushed + 1 < 2 ^ 32 ∧ f.isos + 1 < 2 ^ 64)
    (elapsed : Metrics.Duration) (passed : Option Passed) : ∃ stats', stats.mark b elapsed passed = .ok stats' := by
  have hcomplete : ∃ r, stats.send.markComplete b stats.numActiveTransfers = .ok r :=
    ⟨_, bind_eq_ok_iff.mpr ⟨_, h.numCompleted.addU32 fun hb => (hroom hb).2.1, rfl⟩⟩
  have hiso : ∀ send : LendSendStats, send.numIsoTransfers = stats.send.numIsoTransfers →
      ∃ send', send.markIso b = .ok send' := by
    intro send hsame
    have hadd : b.addU64 send.numIsoTransfers 1 = .ok (send.numIsoTransfers + 1) := by
      refine Build.addU64_eq_ok_iff.mpr ⟨rfl, fun hb => ?_⟩
      have hlt := (hroom hb).2.2
      rw [hsame, h.numIso, UInt64.toNat_ofNat_of_lt' ((Nat.lt_succ_self _).trans hlt)]
      exact hlt
    exact ⟨_, bind_eq_ok_iff.mpr ⟨_, hadd, rfl⟩⟩
  obtain ⟨⟨send, numActiveTransfers⟩, hsend⟩ := hcomplete
  cases passed with
  | none => exact ⟨stats, rfl⟩
  | some passed =>
      cases passed with
      | setUp kind =>
          have hadd := h.numActive.addU32 fun hb => (hroom hb).1
          exact ⟨_, bind_eq_ok_iff.mpr ⟨_, bind_eq_ok_iff.mpr ⟨_, hadd, rfl⟩, rfl⟩⟩
      | flushBuf => exact ⟨_, rfl⟩
      | completed transfer =>
          cases transfer with
          | reset seq => exact ⟨stats, rfl⟩
          | ctrl seq => exact ⟨_, bind_eq_ok_iff.mpr ⟨_, hsend, rfl⟩⟩
          | int seq => exact ⟨_, bind_eq_ok_iff.mpr ⟨_, hsend, rfl⟩⟩
          | bulk seq => exact ⟨_, bind_eq_ok_iff.mpr ⟨_, hsend, rfl⟩⟩
          | iso seq =>
              have hsame : send.numIsoTransfers = stats.send.numIsoTransfers := by
                obtain ⟨numCompleted, -, hsend⟩ := bind_eq_ok_iff.mp hsend
                cases hsend
                rfl
              obtain ⟨send', hiso⟩ := hiso send hsame
              exact ⟨_, bind_eq_ok_iff.mpr ⟨_, hsend, bind_eq_ok_iff.mpr ⟨send', hiso, rfl⟩⟩⟩

end Agrees

/-! ### Whole runs -/

namespace StatLoops

variable {V : Vhci}

theorem agrees_step {x x' : StatLoops} {event : LendEvent × Metrics.Duration} {f : Account}
    (h : Agrees b x.stats x.loops.recv.active f) (hok : x.step V b event = .ok x') :
    Agrees b x'.stats x'.loops.recv.active (x.account event x' f) := by
  obtain ⟨stats, hmark, hok⟩ := bind_eq_ok_iff.mp hok
  obtain ⟨loops, hstep, hok⟩ := bind_eq_ok_iff.mp hok
  cases hok
  exact h.mark (LendLoops.active_turn (LendLoops.turn_of_step hstep)) hmark

/-- The figures say what happened. Of the setup times, those that are kept are the last ones, the longest ones, each
with the kind of its last submission, and the shortest ones. -/
structure Exact (b : Build) (x : StatLoops) (f : Account) : Prop where
  numActive : x.stats.numActiveTransfers = .ofNat x.loops.recv.active
  maxActive : b = .dev ∨ f.active < 2 ^ 32 → x.stats.recv.maxActiveTransfers.toNat = f.active
  lastFew : x.stats.recv.lastFewSetupTimes.inner = f.last
  average : f.last.sum < 2 ^ 64 * 10 ^ 9 → x.stats.recv.drop = .ok (f.last.sum / f.last.length)
  longest : ∀ time kind, (OrderDual.toDual time, kind) ∈ x.stats.recv.maxSetupTimes.inner.entries ↔
    Latest f.setUps time kind ∧ (f.times.toFinset.filter (time < ·)).card < threshold
  shortest : ∀ time, (time, ()) ∈ x.stats.recv.minSetupTimes.inner.entries ↔
    time ∈ f.times ∧ (f.times.toFinset.filter (· < time)).card < threshold
  maxCompleted : b = .dev ∨ f.flushed < 2 ^ 32 →
    x.stats.send.maxCompletedTransfersBeforeFlush.toNat = f.flushed
  numIso : x.stats.send.numIsoTransfers = .ofNat f.isos

theorem agrees_of_reach {devId : UsbDeviceId} {x : StatLoops} {f : Account}
    (hreach : Reach (track (step V b) account) (fun _ _ => True) (start devId, .zero) (x, f)) :
    Agrees b x.stats x.loops.recv.active f := by
  refine hreach.inv (I := fun y => Agrees b y.1.stats y.1.loops.recv.active y.2) (.start b) ?_
  intro y event y' hy _ hok
  obtain ⟨hstep, haccount⟩ := track_eq_ok.mp hok
  rw [haccount]
  exact agrees_step hy hstep

/-- **The figures of a lender are right** in every run, and at any point of it, whatever the loops and the device do
and however long it takes to set up a submission. The two greatest numbers are exact as long as the counter is not
beyond 2^32, which in the `dev` profile it never is. -/
theorem statistics_exact (V : Vhci) (b : Build) (devId : UsbDeviceId) {x : StatLoops} {f : Account}
    (hreach : Reach (track (step V b) account) (fun _ _ => True) (start devId, .zero) (x, f)) : Exact b x f := by
  have hagrees := agrees_of_reach hreach
  have hlast : x.stats.recv.lastFewSetupTimes.inner = f.last := by
    rw [hagrees.lastFew]
    exact Metrics.RollingAvg.inner_pushAll f.times
  refine ⟨hagrees.numActive.eq, fun h => ?_, hlast, fun hsum => ?_, fun time kind => ?_, fun time => ?_, fun h => ?_,
    hagrees.numIso⟩
  · exact hagrees.maxActive.eq (h.elim hagrees.maxActive.checked id)
  · have hlen : f.last.length < 2 ^ 32 := by
      rw [Account.last, List.length_drop, threshold]
      omega
    obtain ⟨mean, hmean, hvalue⟩ := Metrics.RollingAvg.mean_eq_ok (hlast ▸ hlen) (hlast ▸ hsum)
    rw [LendRecvStats.drop, hmean, ← hlast, ← hvalue]
    rfl
  · rw [hagrees.maxSetUp]
    exact Metrics.Max.mem_pushAll_iff
  · rw [hagrees.minSetUp]
    exact Metrics.Min.mem_pushAll_iff
  · exact hagrees.maxCompleted.eq (h.elim hagrees.maxCompleted.checked id)

/-- An interrupt transfer from the device. -/
def pollIn (seqnum : Seqnum) : Seq (Data UrbFrame) where
  seqnum := seqnum
  data := ⟨(UrbHeader.mk 8 0 ⟨0x81⟩ .interrupt 10 .pending (0, 0, 0) 0 0 .zero).asBytes, by decide⟩

/-- Two transfers at once, one of which is replied to, a flush, and a third. -/
def polled : List (LendEvent × Metrics.Duration) :=
  [(.recv (.frame (.urb (pollIn 0))), 900), (.recv (.frame (.urb (pollIn 1))), 400),
    (.recv (.completed 0 ⟨.completed, [7], [], fun _ => 0, false, .ok ()⟩), 0), (.lend 0, 0), (.flushBuf, 0),
    (.recv (.frame (.urb (pollIn 2))), 900)]

theorem polled_exact :
    ∃ x f, run (track (step .usb .dev) account) (start ⟨1, 2⟩, .zero) polled = .ok (x, f) ∧
      f.active = 2 ∧ f.flushed = 1 ∧ f.setUps.length = 3 ∧ x.stats.numActiveTransfers = 2 ∧ Exact .dev x f :=
  ⟨_, _, rfl, rfl, rfl, rfl, rfl, statistics_exact .usb .dev ⟨1, 2⟩ (reach_of_run polled rfl)⟩

/-- The loops take no turn that they would not take without the wrappers. -/
theorem reach_loops {devId : UsbDeviceId} {x : StatLoops}
    (hreach : Reach (step V b) (fun _ _ => True) (start devId) x) :
    Reach (LendLoops.step V b) (fun _ _ => True) (.start devId) x.loops := by
  induction hreach with
  | start => exact .start
  | next event _ _ hok ih =>
      obtain ⟨stats, -, hok⟩ := bind_eq_ok_iff.mp hok
      obtain ⟨loops, hstep, hok⟩ := bind_eq_ok_iff.mp hok
      cases hok
      exact .next _ ih trivial hstep

/-- The wrappers do not interfere: the loops take any turn that they would take without them, as long as no counter is
full. -/
theorem step_ok {devId : UsbDeviceId} {x : StatLoops} {f : Account}
    (hreach : Reach (track (step V b) account) (fun _ _ => True) (start devId, .zero) (x, f))
    (hroom : b = .dev → x.loops.recv.active + 1 < 2 ^ 32 ∧ f.unflushed + 1 < 2 ^ 32 ∧ f.isos + 1 < 2 ^ 64)
    {event : LendEvent} {loops : LendLoops} (hok : x.loops.step V b event = .ok loops) (elapsed : Metrics.Duration) :
    ∃ stats, x.step V b (event, elapsed) = .ok ⟨loops, stats⟩ := by
  obtain ⟨stats, hmark⟩ := (agrees_of_reach hreach).mark_ok hroom elapsed (x.loops.passed event)
  exact ⟨stats, bind_eq_ok_iff.mpr ⟨stats, hmark, bind_eq_ok_iff.mpr ⟨loops, hok, rfl⟩⟩⟩

/-- Without overflow checks, a run of the loops is one of the loops with the wrappers, whatever the setup times. -/
theorem reach_wrapped {devId : UsbDeviceId} {loops : LendLoops} (times : LendLoops → LendEvent → Metrics.Duration)
    (hreach : Reach (LendLoops.step V .release) (fun _ _ => True) (.start devId) loops) :
    ∃ stats f, Reach (track (step V .release) account) (fun y event => event.2 = times y.1.loops event.1)
      (start devId, .zero) (⟨loops, stats⟩, f) := by
  induction hreach with
  | start => exact ⟨_, _, .start⟩
  | @next loops loops' event _ _ hok ih =>
      obtain ⟨stats, f, hwrapped⟩ := ih
      obtain ⟨stats', hstep⟩ := step_ok (hwrapped.mono fun _ _ _ => trivial) (fun h => by cases h) hok
        (times loops event)
      have htracked : track (step V .release) account (⟨loops, stats⟩, f) (event, times loops event) =
          .ok (⟨loops', stats'⟩, account ⟨loops, stats⟩ (event, times loops event) ⟨loops', stats'⟩ f) :=
        track_eq_ok.mpr ⟨hstep, rfl⟩
      exact ⟨stats', _, .next _ hwrapped rfl htracked⟩

end StatLoops

/-- The lender of a link runs with the wrappers, too. -/
theorem link_wrapped {V : Vhci} {a : Alloc} {C : Link → LinkEvent → Prop} {devId : UsbDeviceId} {cap : Nat}
    {x : Link} (times : LendLoops → LendEvent → Metrics.Duration)
    (hreach : Reach (Link.step V a .release) C (.start devId cap) x) :
    ∃ stats f, Reach (track (StatLoops.step V .release) StatLoops.account)
      (fun y event => event.2 = times y.1.loops event.1) (.start devId, .zero) (⟨x.lendLoops, stats⟩, f) := by
  obtain ⟨history, htracked⟩ := Link.reach_lendLoops hreach (fun _ _ _ (u : Unit) => u) ()
  exact StatLoops.reach_wrapped times (htracked.untrack (C := fun _ _ => True))

end Lend
end Qusb

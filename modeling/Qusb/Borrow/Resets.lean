import Qusb.Borrow.Send
import Qusb.Base.Runs

/-! Port resets reported by the borrower.

A rising edge of the reset bit is turned into a `CmdPort` frame. The handler tests for it behind other
conditions, and remembers the report whichever of them holds: an edge that one of them hides is lost. -/

open ByteCodec Tables Runs

namespace Qusb.Borrow

open Msg Proto

/-- The frame of a port reset. -/
def portFrame (seqnum : UInt32) : Bytes := (bareHeader .cmdPort .success seqnum).asBytes

namespace BorrowSendHandler

/-- What a port status does to the device's address. -/
def addrAfter (addr : UInt8) (next : IocPortStat) : UInt8 :=
  if next.change.connection then 0xff else if next.resetSuccessful then 0 else addr

/-- One of the conditions before the test for a reset edge holds. A reset that is over is not listed: it is
no edge. -/
def shadowed (prev next : IocPortStat) : Bool := next.change.connection || portPowerOff prev next

/-- The report makes the handler send a port reset. -/
def reportsReset (prev next : IocPortStat) : Bool := sendPortReset prev next && !shadowed prev next

theorem not_resetSuccessful_of_edge {prev next : IocPortStat} (h : sendPortReset prev next = true) :
    next.resetSuccessful = false := by
  unfold sendPortReset at h
  unfold IocPortStat.resetSuccessful
  simp_all

/-- `portStat` in two cases: a reset is filed and sent, or only the address and the report are noted. -/
theorem portStat_eq (b : Build) (h : BorrowSendHandler) (linker : Linker) (next : IocPortStat)
    (handle : UrbHandle) :
    portStat b h linker next handle =
      if reportsReset h.prev next then do
        let curSeq ← b.addU32 h.curSeq 1
        assert (linker.seqnums.lookup handle = none)
        assert (linker.handles.lookup h.curSeq = none)
        return ({ h with buf := h.buf ++ portFrame h.curSeq, curSeq := curSeq, prev := next },
          linker.insert handle h.curSeq)
      else .ok ({ h with addr := addrAfter h.addr next, prev := next }, linker) := by
  unfold portStat reportsReset shadowed addrAfter
  cases hconnection : next.change.connection with
  | true => simp
  | false =>
      cases hedge : sendPortReset h.prev next with
      | true =>
          rw [not_resetSuccessful_of_edge hedge]
          cases hpower : portPowerOff h.prev next with
          | true => simp
          | false =>
              simp only [increment, bind_assoc, pure_bind, Bool.false_eq_true, if_false, if_true,
                Bool.or_false, Bool.not_false, Bool.and_true]
              rfl
      | false =>
          cases hreset : next.resetSuccessful with
          | true => simp
          | false =>
              cases hpower : portPowerOff h.prev next with
              | true => simp
              | false => simp

/-- What a report that goes through did: it sent a reset and filed it, or it sent nothing. -/
theorem portStat_cases {b : Build} {h h' : BorrowSendHandler} {linker linker' : Linker} {next : IocPortStat}
    {handle : UrbHandle} (hok : portStat b h linker next handle = .ok (h', linker')) :
    (reportsReset h.prev next = true ∧ linker.seqnums.lookup handle = none ∧
        linker.handles.lookup h.curSeq = none ∧ ∃ curSeq, b.addU32 h.curSeq 1 = .ok curSeq ∧
          h' = { h with buf := h.buf ++ portFrame h.curSeq, curSeq := curSeq, prev := next } ∧
          linker' = linker.insert handle h.curSeq) ∨
      (reportsReset h.prev next = false ∧ h' = { h with addr := addrAfter h.addr next, prev := next } ∧
        linker' = linker) := by
  rw [portStat_eq] at hok
  split at hok
  · next hsends =>
      obtain ⟨curSeq, hcounter, hok⟩ := bind_eq_ok_iff.mp hok
      obtain ⟨_, hhandle, hok⟩ := bind_eq_ok_iff.mp hok
      obtain ⟨_, hnumber, hok⟩ := bind_eq_ok_iff.mp hok
      cases hok
      exact Or.inl ⟨hsends, assert_eq_ok_iff.mp hhandle, assert_eq_ok_iff.mp hnumber, curSeq, hcounter, rfl, rfl⟩
  · next hsilent =>
      cases hok
      exact Or.inr ⟨eq_false_of_ne_true hsilent, rfl, rfl⟩

theorem portStat_addr {b : Build} {h h' : BorrowSendHandler} {linker linker' : Linker} {next : IocPortStat}
    {handle : UrbHandle} (hok : portStat b h linker next handle = .ok (h', linker')) :
    h'.addr = addrAfter h.addr next := by
  obtain ⟨hsends, -, -, curSeq, -, rfl, -⟩ | ⟨-, rfl, -⟩ := portStat_cases hok
  · unfold reportsReset shadowed at hsends
    rw [Bool.and_eq_true, Bool.not_eq_true', Bool.or_eq_false_iff] at hsends
    unfold addrAfter
    rw [hsends.2.1, not_resetSuccessful_of_edge hsends.1]
    rfl
  · rfl

/-- The events are reports, each with the random handle that is drawn when it is sent on. -/
abbrev Report := IocPortStat × UrbHandle

def statStep (b : Build) (s : BorrowSendHandler × Linker) (e : Report) :
    Except Fault (BorrowSendHandler × Linker) :=
  s.1.portStat b s.2 e.1 e.2

/-- A report that is sent on finds its handle and the next number unused and the counter in range. -/
structure Fresh (b : Build) (s : BorrowSendHandler × Linker) (e : Report) : Prop where
  handle : s.2.seqnums.lookup e.2 = none
  number : s.2.handles.lookup s.1.curSeq = none
  counter : ∃ next, b.addU32 s.1.curSeq 1 = .ok next

/-- A reset was sent and filed in both tables. -/
structure Sent (s s' : BorrowSendHandler × Linker) (e : Report) : Prop where
  handle : s.2.seqnums.lookup e.2 = none
  number : s.2.handles.lookup s.1.curSeq = none
  linker : s'.2 = s.2.insert e.2 s.1.curSeq
  buf : s'.1.buf = s.1.buf ++ portFrame s.1.curSeq

variable {b : Build} {s s' : BorrowSendHandler × Linker} {e : Report}

theorem statStep_prev (h : statStep b s e = .ok s') : s'.1.prev = e.1 := by
  obtain ⟨-, -, -, curSeq, -, hsent, -⟩ | ⟨-, hsilent, -⟩ := portStat_cases h
  · rw [hsent]
  · rw [hsilent]

theorem statStep_sent (h : statStep b s e = .ok s') (hsends : reportsReset s.1.prev e.1 = true) :
    Sent s s' e := by
  obtain ⟨-, hhandle, hnumber, curSeq, -, hsent, hlinker⟩ | ⟨hsilent, -, -⟩ := portStat_cases h
  · exact ⟨hhandle, hnumber, hlinker, by rw [hsent]⟩
  · rw [hsends] at hsilent
    cases hsilent

theorem statStep_silent (h : statStep b s e = .ok s') (hsilent : reportsReset s.1.prev e.1 = false) :
    s'.1.buf = s.1.buf ∧ s'.2 = s.2 := by
  obtain ⟨hsends, -⟩ | ⟨-, hnoted, hlinker⟩ := portStat_cases h
  · rw [hsilent] at hsends
    cases hsends
  · exact ⟨by rw [hnoted], hlinker⟩

/-- A report goes through unless it is sent on and its handle, its number or the counter is used up. -/
theorem statStep_safe_iff :
    (∃ s', statStep b s e = .ok s') ↔ (reportsReset s.1.prev e.1 = true → Fresh b s e) := by
  unfold statStep
  rw [portStat_eq]
  split
  · next hsends =>
      rw [forall_prop_of_true hsends]
      constructor
      · rintro ⟨s', h⟩
        obtain ⟨curSeq, hcounter, h⟩ := bind_eq_ok_iff.mp h
        obtain ⟨_, hhandle, h⟩ := bind_eq_ok_iff.mp h
        obtain ⟨_, hnumber, -⟩ := bind_eq_ok_iff.mp h
        exact ⟨assert_eq_ok_iff.mp hhandle, assert_eq_ok_iff.mp hnumber, curSeq, hcounter⟩
      · rintro ⟨hhandle, hnumber, curSeq, hcounter⟩
        rw [hcounter, ok_bind, assert_eq_ok_iff (u := ()).mpr hhandle, ok_bind,
          assert_eq_ok_iff (u := ()).mpr hnumber, ok_bind]
        exact ⟨_, rfl⟩
  · next hsilent => exact ⟨fun _ hsends => absurd hsends hsilent, fun _ => ⟨_, rfl⟩⟩

/-- A filed reset stays filed: no later report touches the number or the handle. -/
def Filed (linker : Linker) (n : UInt32) : Prop :=
  ∃ handle, linker.handles.lookup n = some handle ∧ linker.seqnums.lookup handle = some n

theorem Sent.filed (h : Sent s s' e) : Filed s'.2 s.1.curSeq := by
  rw [h.linker]
  exact ⟨e.2, AList.lookup_insert _, AList.lookup_insert _⟩

theorem Sent.keeps (h : Sent s s' e) {n : UInt32} (hn : Filed s.2 n) : Filed s'.2 n := by
  obtain ⟨handle, hnumber, hhandle⟩ := hn
  have hn' : n ≠ s.1.curSeq := by
    rintro rfl
    rw [h.number] at hnumber
    cases hnumber
  have hhandle' : handle ≠ e.2 := by
    rintro rfl
    rw [h.handle] at hhandle
    cases hhandle
  rw [h.linker]
  exact ⟨handle, (AList.lookup_insert_ne hn').trans hnumber, (AList.lookup_insert_ne hhandle').trans hhandle⟩

theorem statStep_keeps (h : statStep b s e = .ok s') {n : UInt32} (hn : Filed s.2 n) : Filed s'.2 n := by
  cases hsends : reportsReset s.1.prev e.1 with
  | true => exact (statStep_sent h hsends).keeps hn
  | false =>
      rw [(statStep_silent h hsends).2]
      exact hn

/-- A number in use stays in use. -/
theorem statStep_used (h : statStep b s e = .ok s') {n : UInt32}
    (hn : s'.2.handles.lookup n = none) : s.2.handles.lookup n = none := by
  cases hsends : reportsReset s.1.prev e.1 with
  | true =>
      rw [(statStep_sent h hsends).linker] at hn
      have hn' : n ≠ s.1.curSeq := by
        rintro rfl
        rw [show (s.2.insert e.2 s.1.curSeq).handles.lookup s.1.curSeq = some e.2 from
          AList.lookup_insert _] at hn
        cases hn
      exact (AList.lookup_insert_ne hn').symm.trans hn
  | false =>
      rwa [(statStep_silent h hsends).2] at hn

/-- **One frame for each reset that is sent on.** The frames carry distinct numbers that were unused before
and are filed in both tables. -/
theorem run_sent {es : List Report} (hrun : run (statStep b) s es = .ok s') :
    ∃ numbers : List UInt32, s'.1.buf = s.1.buf ++ (numbers.map portFrame).flatten ∧ numbers.Nodup ∧
      (∀ n ∈ numbers, s.2.handles.lookup n = none ∧ Filed s'.2 n) ∧
      numbers.length = countPairs reportsReset s.1.prev (es.map Prod.fst) := by
  induction es generalizing s with
  | nil =>
      cases hrun
      exact ⟨[], by simp⟩
  | cons e es ih =>
      obtain ⟨s₁, hstep, hrest⟩ := run_cons_eq_ok_iff.mp hrun
      obtain ⟨numbers, hbuf, hnodup, hfresh, hlength⟩ := ih hrest
      rw [statStep_prev hstep] at hlength
      have hold : ∀ n ∈ numbers, s.2.handles.lookup n = none ∧ Filed s'.2 n := fun n hn =>
        ⟨statStep_used hstep (hfresh n hn).1, (hfresh n hn).2⟩
      cases hsends : reportsReset s.1.prev e.1 with
      | false =>
          refine ⟨numbers, ?_, hnodup, hold, ?_⟩
          · rw [hbuf, (statStep_silent hstep hsends).1]
          · simp [hsends, hlength]
      | true =>
          have hsent := statStep_sent hstep hsends
          have hnew : s.1.curSeq ∉ numbers := by
            intro hn
            obtain ⟨handle, hused, -⟩ := hsent.filed
            rw [(hfresh _ hn).1] at hused
            cases hused
          refine ⟨s.1.curSeq :: numbers, ?_, List.nodup_cons.mpr ⟨hnew, hnodup⟩, ?_, ?_⟩
          · simp [hbuf, hsent.buf]
          · intro n hn
            rcases List.mem_cons.mp hn with rfl | hn
            · exact ⟨hsent.number, run_inv (I := fun r => Filed r.2 s.1.curSeq) hrest hsent.filed
                fun s e s' hs hstep => statStep_keeps hstep hs⟩
            · exact hold n hn
          · simp [hsends, hlength]
            omega

/-- Which runs go through: every reset that is sent on draws an unused handle and an unused number. -/
theorem run_goes_through_iff (es : List Report) :
    Safe (statStep b) s es ↔
      Meets (statStep b) (fun s e => reportsReset s.1.prev e.1 = true → Fresh b s e) s es :=
  safe_iff_meets (I := fun _ => True) trivial meets_true (fun _ _ _ _ => statStep_safe_iff)
    fun _ _ _ _ _ _ => trivial

/-- **Every reset is reported exactly when none is shadowed.** A run of any reports goes through exactly if every
reset that is sent on draws an unused handle and an unused number. In one that does, as many frames are appended as
reports have a rising reset edge if and only if no report with such an edge also tells of a changed connection or
of a port that was powered off. Each frame's number is fresh and filed. -/
theorem resets_reported_iff (b : Build) (s : BorrowSendHandler × Linker) (es : List Report) :
    (Safe (statStep b) s es ↔
      Meets (statStep b) (fun s e => reportsReset s.1.prev e.1 = true → Fresh b s e) s es) ∧
    ∀ s', run (statStep b) s es = .ok s' →
      ∃ numbers : List UInt32, s'.1.buf = s.1.buf ++ (numbers.map portFrame).flatten ∧ numbers.Nodup ∧
        (∀ n ∈ numbers, s.2.handles.lookup n = none ∧ Filed s'.2 n) ∧
        (numbers.length = countPairs sendPortReset s.1.prev (es.map Prod.fst) ↔
          (s.1.prev :: es.map Prod.fst).IsChain fun prev next =>
            sendPortReset prev next = true → shadowed prev next = false) := by
  refine ⟨run_goes_through_iff es, fun s' hrun => ?_⟩
  obtain ⟨numbers, hbuf, hnodup, hfresh, hlength⟩ := run_sent hrun
  refine ⟨numbers, hbuf, hnodup, hfresh, ?_⟩
  rw [hlength]
  exact countPairs_and_not_eq_iff

/-- A powered port with a device: nothing changed, `reset` says whether it is being reset. -/
def powered (reset : Bool) : IocPortStat := ⟨⟨true, true, reset, true⟩, ⟨false, false⟩, ⟨1⟩, ⟨false⟩⟩

theorem powered_reset_reported :
    ∃ (h : BorrowSendHandler) (linker : Linker) (numbers : List UInt32),
      run (statStep .release) (.new, .empty) [(powered false, ⟨7⟩), (powered true, ⟨8⟩)] = .ok (h, linker) ∧
      h.buf = [] ++ (numbers.map portFrame).flatten ∧ numbers.length = 1 := by
  have hruns : ∃ s', run (statStep .release) (.new, .empty) [(powered false, ⟨7⟩), (powered true, ⟨8⟩)] = .ok s' :=
    ⟨_, rfl⟩
  obtain ⟨⟨h, linker⟩, hrun⟩ := hruns
  obtain ⟨numbers, hbuf, -, -, hiff⟩ := (resets_reported_iff .release _ _).2 _ hrun
  exact ⟨h, linker, numbers, hrun, hbuf, hiff.mpr (by decide)⟩

/-- A device that is plugged in while its port is being reset. -/
def pluggedInReset : IocPortStat := ⟨⟨true, true, true, true⟩, ⟨true, false⟩, ⟨1⟩, ⟨false⟩⟩

/-- The edge of the first report is lost, and the second report has none. -/
theorem plugged_in_reset_lost :
    ∃ s', run (statStep .release) (.new, .empty) [(pluggedInReset, ⟨7⟩), (powered true, ⟨8⟩)] = .ok s' ∧
      ¬ ∃ numbers : List UInt32, s'.1.buf = [] ++ (numbers.map portFrame).flatten ∧
        numbers.length = countPairs sendPortReset BorrowSendHandler.new.prev [pluggedInReset, powered true] := by
  refine ⟨_, rfl, ?_⟩
  rintro ⟨numbers, hbuf, hlength⟩
  have hone : numbers.length = 1 := hlength
  obtain ⟨n, rfl⟩ := List.length_eq_one_iff.mp hone
  have hframe := congrArg List.length hbuf
  simp [portFrame, BorrowSendHandler.new] at hframe

end BorrowSendHandler
end Qusb.Borrow

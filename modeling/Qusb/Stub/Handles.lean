import Qusb.Stub.Dispatch

/-! Where the cancels go.

A URB is live from its ProcessUrb until the driver receives its giveback. Giving a URB back also posts a
notification for its handle, which the demuxer handles later and independently: by then the kernel may have
reused the handle. The mailer links a live handle to the channel the URB was delivered to, as long as no
handle is reused while a notification for it is outstanding. -/

open Tables

namespace Qusb

open Proto Runs

/-- A URB that the driver has not got back: the channel it was delivered to, whether its session gave it
back, and whether its link was cut since, by a cancel, a notification or a reset of its port. -/
structure LiveUrb where
  chan : Option Chan
  called : Bool
  unlinked : Bool

/-- The live URBs, and how many notifications are outstanding for each handle. -/
structure UrbLog where
  live : UrbHandle → Option LiveUrb
  notes : UrbHandle → Nat

inductive HandleEvent where
  | demux (event : DemuxEvent)
  | giveback (handle : UrbHandle)
  | received (handle : UrbHandle)

namespace UrbLog

def start : UrbLog := ⟨fun _ => none, fun _ => 0⟩

/-- Record that the links of some URBs were cut. -/
def unlink (log : UrbLog) (p : UrbHandle → LiveUrb → Bool) : UrbLog :=
  { log with live := fun h => (log.live h).map fun l => { l with unlinked := l.unlinked || p h l } }

/-- A session gives a URB back, and a notification is posted. -/
def giveback (log : UrbLog) (handle : UrbHandle) : UrbLog where
  live := Function.update log.live handle ((log.live handle).map fun l => { l with called := true })
  notes := Function.update log.notes handle (log.notes handle + 1)

/-- The channel of the item that the demuxer has just sent. -/
def delivered (d d' : Demuxer) : Option Chan := (d'.sent.drop d.sent.length).head?.map Prod.fst

def after (d : Demuxer) (e : HandleEvent) (d' : Demuxer) (log : UrbLog) : UrbLog :=
  match e with
  | .demux (.work (.processUrb _ handle)) =>
      { log with live := Function.update log.live handle (some ⟨delivered d d', false, false⟩) }
  | .demux (.work (.cancelUrb handle)) => log.unlink fun h _ => h = handle
  | .demux (.work (.portStat stat)) =>
      log.unlink fun _ l => d.enqueues stat && l.chan = d.sessions.lookup stat.index
  | .demux (.givebackUrb handle) =>
      { log.unlink fun h _ => h = handle with
        notes := Function.update log.notes handle (log.notes handle - 1) }
  | .giveback handle => log.giveback handle
  | .received handle => { log with live := Function.update log.live handle none }
  | _ => log

end UrbLog

namespace Demuxer

/-- The demuxer and the live URBs. -/
abbrev handleStep (V : Vhci) : Demuxer × UrbLog → HandleEvent → Except Fault (Demuxer × UrbLog) :=
  track (fun d e => match e with
    | .demux event => d.step V event
    | .giveback _ | .received _ => .ok d) UrbLog.after

def handleStart : Demuxer × UrbLog := (start, .start)

/-- What the kernel, the driver and the sessions keep to: a new URB does not have the handle of a live one,
a session gives a live URB back once, the driver receives what was given back, and the demuxer receives the
notifications that were posted. -/
def Paired (s : Demuxer × UrbLog) (e : HandleEvent) : Prop :=
  match e with
  | .demux (.work (.processUrb _ handle)) => s.2.live handle = none
  | .demux (.givebackUrb handle) => 0 < s.2.notes handle
  | .giveback handle => ∃ l ∈ s.2.live handle, l.called = false
  | .received handle => ∃ l ∈ s.2.live handle, l.called = true
  | _ => True

/-- No notification is outstanding for the handle of a new URB, a control URB for the first port of the queue
finds it registered, and no URB is canceled whose link was cut. -/
def Noticed (V : Vhci) (s : Demuxer × UrbLog) (e : HandleEvent) : Prop :=
  match e with
  | .demux (.work (.processUrb urb handle)) => s.2.notes handle = 0 ∧
      (isDefaultUrb V urb = true → ∀ p ∈ s.1.registerQueue.head?, s.1.routes.byKey1 p ≠ none)
  | .demux (.work (.cancelUrb handle)) => ∀ l ∈ s.2.live handle, l.chan ≠ none → l.unlinked = false
  | _ => True

/-- The cancel of a live URB goes to the channel the URB was delivered to, and linking the handle of a
control URB for the first port of the queue does not fail. -/
def CancelsDelivered (V : Vhci) (s : Demuxer × UrbLog) (e : HandleEvent) : Prop :=
  match e with
  | .demux (.work (.cancelUrb handle)) => ∀ l ∈ s.2.live handle, ∀ c ∈ l.chan,
      ∃ d', s.1.step V (.work (.cancelUrb handle)) = .ok d' ∧
        d'.sent = s.1.sent ++ [(c, .cancelUrb handle)]
  | .demux (.work (.processUrb urb handle)) => s.1.registerQueue ≠ [] → isDefaultUrb V urb = true →
      ∀ f, s.1.step V (.work (.processUrb urb handle)) = .error f → f ≠ .assertFailed
  | _ => True

/-- A linked handle is live or has a notification coming, and a live URB is linked to its channel until its
link is cut. -/
structure Tracked (s : Demuxer × UrbLog) : Prop where
  sound : s.1.Sound
  accounted : ∀ h, s.1.routes.byKey3 h ≠ none → s.2.live h ≠ none ∨ 0 < s.2.notes h
  noticed : ∀ h l, s.2.live h = some l → l.called = true → s.1.routes.byKey3 h ≠ none → 0 < s.2.notes h
  linked : ∀ h l c, s.2.live h = some l → l.chan = some c → l.unlinked = false →
    s.1.routes.byKey3 h = some c

variable {V : Vhci} {s s' : Demuxer × UrbLog} {d d' : Demuxer}

theorem tracked_start : Tracked handleStart where
  sound := sound_start
  accounted := fun _ h => absurd rfl h
  noticed := fun _ _ h => nomatch h
  linked := fun _ _ _ h => nomatch h

/-! ### Changes of the log -/

theorem unlink_live {log : UrbLog} {p : UrbHandle → LiveUrb → Bool} {h : UrbHandle} {l' : LiveUrb}
    (hl : (log.unlink p).live h = some l') :
    ∃ l, log.live h = some l ∧ l' = { l with unlinked := l.unlinked || p h l } := by
  obtain ⟨l, hlive, heq⟩ := Option.map_eq_some_iff.mp hl
  exact ⟨l, hlive, heq.symm⟩

/-- The demuxer cuts links, and the log records every URB whose link was cut. -/
theorem Tracked.unlink (hs : Tracked s) (hd : d.Sound) {p : UrbHandle → LiveUrb → Bool}
    {notes : UrbHandle → Nat}
    (hcut : ∀ h, d.routes.byKey3 h ≠ none → d.routes.byKey3 h = s.1.routes.byKey3 h)
    (hnotes : ∀ h, d.routes.byKey3 h ≠ none → 0 < s.2.notes h → 0 < notes h)
    (hmarked : ∀ h l c, l.chan = some c → p h l = false → s.1.routes.byKey3 h = some c →
      d.routes.byKey3 h = some c) :
    Tracked (d, { s.2.unlink p with notes := notes }) := by
  refine ⟨hd, fun h hh => ?_, fun h l' hl hcalled hh => ?_, fun h l' c hl hchan hunlinked => ?_⟩
  · rcases hs.accounted h (hcut h hh ▸ hh) with hlive | hnote
    · refine Or.inl fun hnone => hlive ?_
      exact Option.map_eq_none_iff.mp hnone
    · exact Or.inr (hnotes h hh hnote)
  · obtain ⟨l, hlive, rfl⟩ := unlink_live hl
    exact hnotes h hh (hs.noticed h l hlive hcalled (hcut h hh ▸ hh))
  · obtain ⟨l, hlive, rfl⟩ := unlink_live hl
    obtain ⟨hold, hp⟩ := Bool.or_eq_false_iff.mp hunlinked
    exact hmarked h l c hchan hp (hs.linked h l c hlive hchan hold)

/-- The handles keep their links. -/
theorem Tracked.of_handles (hs : Tracked s) (hd : d.Sound)
    (hhandles : d.routes.byKey3 = s.1.routes.byKey3) : Tracked (d, s.2) := by
  refine ⟨hd, ?_, ?_, ?_⟩
  · rw [hhandles]
    exact hs.accounted
  · rw [hhandles]
    exact hs.noticed
  · rw [hhandles]
    exact hs.linked

theorem Tracked.send {log : UrbLog} (hs : Tracked (d, log)) (tx : Option Chan) (work : Work) :
    Tracked (d.send tx work, log) :=
  hs.of_handles (hs.sound.send tx work) (by rw [send_routes])

/-- The link of one handle is cut. -/
theorem Tracked.cut (hs : Tracked s) {handle : UrbHandle} {queue : List Port} {notes : UrbHandle → Nat}
    (hbecame : Became s.1 d queue (withHandle s.1.routes handle none))
    (hnotes : ∀ h, h ≠ handle → notes h = s.2.notes h) :
    Tracked (d, { s.2.unlink fun h _ => h = handle with notes := notes }) := by
  have hhandle : ∀ h, d.routes.byKey3 h = if h = handle then none else s.1.routes.byKey3 h := fun h => by
    rw [hbecame.routes_eq]
    exact Function.update_apply _ _ _ _
  refine hs.unlink hbecame.sound (fun h hh => ?_) (fun h hh hnote => ?_) (fun h l c hchan hp hc => ?_)
  · rw [hhandle] at hh ⊢
    split at hh
    · exact absurd rfl hh
    · next hne => rw [if_neg hne]
  · rw [hhandle] at hh
    split at hh
    · exact absurd rfl hh
    · next hne =>
        rw [hnotes h hne]
        exact hnote
  · rw [hhandle, if_neg (of_decide_eq_false hp)]
    exact hc

/-! ### One event -/

/-- The handle of a new URB is not linked. -/
theorem Tracked.handle_new (hs : Tracked s) {handle : UrbHandle} (hlive : s.2.live handle = none)
    (hnotes : s.2.notes handle = 0) : s.1.routes.byKey3 handle = none := by
  by_contra hh
  rcases hs.accounted handle hh with h | h
  · exact h hlive
  · rw [hnotes] at h
    exact absurd h (Nat.lt_irrefl 0)

theorem Tracked.delivered (hs : Tracked s) {e : HandleEvent} (hpaired : Paired s e)
    (hnoticed : Noticed V s e) : CancelsDelivered V s e := by
  cases e with
  | demux event =>
      cases event with
      | work work =>
          cases work with
          | portStat stat => trivial
          | cancelUrb handle =>
              intro l hl c hc
              have hlinked := hs.linked handle l c hl hc (hnoticed l hl (by rw [hc]; simp))
              obtain ⟨d₁, hok, hbecame⟩ := cancelUrb_spec hs.sound handle
              refine ⟨_, step_work_ok.mpr ⟨d₁, _, hok, rfl⟩, ?_⟩
              rw [hlinked, send_sent, hbecame.sent_eq]
              rfl
          | processUrb urb handle =>
              intro hqueue hdefault f hfault hassert
              obtain ⟨p, queue, hcons⟩ := List.exists_cons_of_ne_nil hqueue
              have hregistered := hnoticed.2 hdefault p (by rw [hcons]; rfl)
              have hnew := hs.handle_new hpaired hnoticed.1
              have herror : s.1.processUrb V urb handle = .error .assertFailed := by
                rw [hassert] at hfault
                exact step_work_error.mp hfault
              rcases processUrb_default hs.sound handle hdefault hcons with
                ⟨c, d₁, -, -, hok⟩ | ⟨hfail, -⟩ | ⟨-, -, hinvalid⟩ | ⟨-, hinvalid⟩
              · cases hok.symm.trans herror
              · exact hfail.elim hregistered (absurd hnew)
              · cases hinvalid.symm.trans herror
              · cases hinvalid.symm.trans herror
      | _ => trivial
  | giveback handle => trivial
  | received handle => trivial

/-- A new URB is live, and linked to the channel it went to. -/
theorem Tracked.processUrb (hs : Tracked s) {urb : IocUrb} {handle : UrbHandle} {tx : Option Chan}
    (hlive : s.2.live handle = none) (hnotes : s.2.notes handle = 0)
    (hurb : UrbStep V s.1 urb handle d tx) :
    Tracked (d, { s.2 with live := Function.update s.2.live handle (some ⟨tx, false, false⟩) }) := by
  obtain ⟨-, c, rfl, hlinks⟩ := hurb.linked (hs.handle_new hlive hnotes)
  refine ⟨hurb.sound, fun h hh => ?_, fun h l hl hcalled hh => ?_, fun h l c' hl hchan hunlinked => ?_⟩
  · by_cases hne : h = handle
    · subst hne
      exact Or.inl (by simp)
    · simp only [hlinks, Function.update_of_ne hne] at hh ⊢
      exact hs.accounted h hh
  · by_cases hne : h = handle
    · subst hne
      obtain rfl : _ = l := by simpa using hl
      cases hcalled
    · simp only [hlinks, Function.update_of_ne hne] at hl hh ⊢
      exact hs.noticed h l hl hcalled hh
  · by_cases hne : h = handle
    · subst hne
      obtain rfl : _ = l := by simpa using hl
      simp only [hlinks, Function.update_self]
      exact hchan
    · simp only [hlinks, Function.update_of_ne hne] at hl ⊢
      exact hs.linked h l c' hl hchan hunlinked

theorem delivered_send {tx : Option Chan} {work : Work} (hsent : d'.sent = d.sent) :
    UrbLog.delivered d (d'.send tx work) = tx := by
  rw [UrbLog.delivered, send_sent, hsent, List.drop_left]
  cases tx <;> rfl

theorem Tracked.portStat (hs : Tracked s) {stat : IocPortStat} {queue : List Port}
    (hbecame : Became s.1 d queue
      (if s.1.enqueues stat then without s.1.routes stat.index else s.1.routes)) :
    Tracked (d, s.2.unlink fun _ l => s.1.enqueues stat && l.chan = s.1.sessions.lookup stat.index) := by
  have hhandle : ∀ h, d.routes.byKey3 h =
      if s.1.enqueues stat = true ∧ s.1.routes.byKey3 h = s.1.routes.byKey1 stat.index then none
      else s.1.routes.byKey3 h := fun h => by
    rw [hbecame.routes_eq]
    cases s.1.enqueues stat with
    | true => simp only [if_true, true_and, without]
    | false => simp only [Bool.false_eq_true, if_false, false_and]
  refine hs.unlink hbecame.sound (fun h hh => ?_) (fun h _ hnote => hnote) (fun h l c hchan hp hc => ?_)
  · rw [hhandle] at hh ⊢
    split at hh
    · exact absurd rfl hh
    · next hne => rw [if_neg hne]
  · rw [hhandle, if_neg]
    · exact hc
    · rintro ⟨henqueues, hport⟩
      have hsame : l.chan = s.1.sessions.lookup stat.index := by
        rw [hchan, hs.sound.sessions, ← hport, hc]
      simp [henqueues, hsame] at hp

theorem giveback_live {log : UrbLog} {handle h : UrbHandle} {l' : LiveUrb}
    (hl : (log.giveback handle).live h = some l') :
    ∃ l, log.live h = some l ∧ l' = { l with called := l.called || h = handle } := by
  have hl : Function.update log.live handle ((log.live handle).map fun l => { l with called := true }) h =
    some l' := hl
  rw [Function.update_apply] at hl
  split at hl
  · next heq =>
      subst heq
      obtain ⟨l, hlive, rfl⟩ := Option.map_eq_some_iff.mp hl
      exact ⟨l, hlive, by simp⟩
  · next hne => exact ⟨l', hl, by simp [hne]⟩

theorem giveback_live_none {log : UrbLog} {handle h : UrbHandle}
    (hl : (log.giveback handle).live h = none) : log.live h = none := by
  have hl : Function.update log.live handle ((log.live handle).map fun l => { l with called := true }) h =
    none := hl
  rw [Function.update_apply] at hl
  split at hl
  · next heq => rw [heq, Option.map_eq_none_iff.mp hl]
  · exact hl

theorem giveback_notes (log : UrbLog) (handle h : UrbHandle) :
    (log.giveback handle).notes h = if h = handle then log.notes h + 1 else log.notes h := by
  have hnotes : (log.giveback handle).notes h =
    Function.update log.notes handle (log.notes handle + 1) h := rfl
  rw [hnotes, Function.update_apply]
  split
  · next heq => rw [heq]
  · rfl

/-- A session gives a URB back. -/
theorem Tracked.giveback (hs : Tracked s) (handle : UrbHandle) :
    Tracked (s.1, s.2.giveback handle) := by
  have hnotes : ∀ h, 0 < s.2.notes h → 0 < (s.2.giveback handle).notes h :=
    fun h hnote => by
      rw [giveback_notes]
      split
      · exact Nat.succ_pos _
      · exact hnote
  refine ⟨hs.sound, fun h hh => ?_, fun h l' hl hcalled hh => ?_, fun h l' c hl hchan hunlinked => ?_⟩
  · rcases hs.accounted h hh with hold | hnote
    · exact Or.inl fun hnone => hold (giveback_live_none hnone)
    · exact Or.inr (hnotes h hnote)
  · obtain ⟨l, hold, rfl⟩ := giveback_live hl
    rcases Bool.or_eq_true_iff.mp hcalled with hbefore | hnow
    · exact hnotes h (hs.noticed h l hold hbefore hh)
    · show 0 < (s.2.giveback handle).notes h
      rw [giveback_notes, if_pos (of_decide_eq_true hnow)]
      exact Nat.succ_pos _
  · obtain ⟨l, hold, rfl⟩ := giveback_live hl
    exact hs.linked h l c hold hchan hunlinked

/-- The driver receives a URB that was given back: a notification is coming if its handle is linked. -/
theorem Tracked.received (hs : Tracked s) {handle : UrbHandle}
    (hcalled : ∃ l ∈ s.2.live handle, l.called = true) :
    Tracked (s.1, { s.2 with live := Function.update s.2.live handle none }) := by
  obtain ⟨l, hl, hcalled⟩ := hcalled
  have hlive : ∀ h l', Function.update s.2.live handle none h = some l' → s.2.live h = some l' :=
    fun h l' hl' => by
      rw [Function.update_apply] at hl'
      split at hl'
      · cases hl'
      · exact hl'
  refine ⟨hs.sound, fun h hh => ?_, fun h l' hl' => hs.noticed h l' (hlive h l' hl'),
    fun h l' c hl' => hs.linked h l' c (hlive h l' hl')⟩
  by_cases hne : h = handle
  · subst hne
    exact Or.inr (hs.noticed h l hl hcalled hh)
  · rcases hs.accounted h hh with hold | hnote
    · exact Or.inl fun hnone => hold ((Function.update_of_ne hne _ _).symm.trans hnone)
    · exact Or.inr hnote

/-- **One event keeps the links of the live URBs.** -/
theorem Tracked.step (hs : Tracked s) {e : HandleEvent} (hpaired : Paired s e) (hnoticed : Noticed V s e)
    (hok : handleStep V s e = .ok s') : Tracked s' := by
  obtain ⟨hstep, hnext⟩ := track_eq_ok.mp hok
  obtain ⟨d', log'⟩ := s'
  obtain rfl : log' = s.2.after s.1 e d' := hnext
  cases e with
  | giveback handle =>
      cases hstep
      exact hs.giveback handle
  | received handle =>
      cases hstep
      exact hs.received hpaired
  | demux event =>
      cases stepped_of_step hs.sound hstep with
      | idle hidle hwork hgive =>
          cases event with
          | work work => exact absurd rfl (hwork work)
          | givebackUrb handle => exact absurd rfl (hgive handle)
          | _ => exact hs
      | giveback handle hbecame => exact hs.cut hbecame fun h hne => Function.update_of_ne hne _ _
      | registered q hregistered =>
          exact hs.of_handles hregistered.sound (by rw [hregistered.routes_eq])
      | portStat stat hbecame hsend =>
          subst hsend
          exact (hs.portStat hbecame).send _ _
      | @processUrb urb handle d₁ _ tx hurb hsend =>
          subst hsend
          have hsent := (hurb.linked (hs.handle_new hpaired hnoticed.1)).1
          have hdelivered : UrbLog.delivered s.1 (d₁.send tx (.processUrb urb handle)) = tx :=
            delivered_send hsent
          have htracked := (hs.processUrb hpaired hnoticed.1 hurb).send tx (.processUrb urb handle)
          simpa only [UrbLog.after, hdelivered] using htracked
      | cancelUrb handle hbecame hsend =>
          subst hsend
          exact (hs.cut hbecame fun h _ => rfl).send _ _

/-! ### Runs -/

/-- **Every cancel of a live URB goes where the URB went**, and linking the handle of a control URB never
fails, in every interleaving in which no handle is reused before the notification for it is handled. -/
theorem cancels_delivered {es : List HandleEvent}
    (h : Meets (handleStep V) (fun s e => Paired s e ∧ Noticed V s e) handleStart es) :
    Meets (handleStep V) (CancelsDelivered V) handleStart es :=
  Meets.imp tracked_start h (fun _ _ hs he => hs.delivered he.1 he.2)
    fun _ _ _ hs he hok => hs.step he.1 he.2 hok

instance (s : Demuxer × UrbLog) (e : HandleEvent) : Decidable (Paired s e) :=
  match e with
  | .demux (.work (.processUrb _ _)) => inferInstanceAs (Decidable (_ = none))
  | .demux (.givebackUrb _) => inferInstanceAs (Decidable (0 < _))
  | .giveback _ | .received _ => inferInstanceAs (Decidable (∃ _ ∈ s.2.live _, _))
  | .demux (.work (.portStat _)) | .demux (.work (.cancelUrb _)) | .demux (.register _)
  | .demux (.disconnect _) | .demux (.registered _ _) | .demux (.disconnected _ _ _) => isTrue trivial

instance (s : Demuxer × UrbLog) (e : HandleEvent) : Decidable (Noticed V s e) :=
  match e with
  | .demux (.work (.processUrb _ _)) => inferInstanceAs (Decidable (_ ∧ _))
  | .demux (.work (.cancelUrb handle)) => inferInstanceAs (Decidable (∀ _ ∈ s.2.live handle, _))
  | .giveback _ | .received _ | .demux (.givebackUrb _) | .demux (.work (.portStat _))
  | .demux (.register _) | .demux (.disconnect _) | .demux (.registered _ _)
  | .demux (.disconnected _ _ _) => isTrue trivial

instance (s : Demuxer × UrbLog) (e : HandleEvent) : Decidable (CancelsDelivered V s e) :=
  match e with
  | .demux (.work (.processUrb _ _)) => inferInstanceAs (Decidable (_ ≠ [] → _ = true → ∀ _, _ = _ → _))
  | .demux (.work (.cancelUrb handle)) => inferInstanceAs (Decidable (∀ _ ∈ s.2.live handle, _))
  | .giveback _ | .received _ | .demux (.givebackUrb _) | .demux (.work (.portStat _))
  | .demux (.register _) | .demux (.disconnect _) | .demux (.registered _ _)
  | .demux (.disconnected _ _ _) => isTrue trivial

/-- A port gets its address; a URB is given back and another one is canceled. -/
def cancelRun : List HandleEvent :=
  [.demux (.registered (.ok ⟨1⟩) true), .demux (resetDone ⟨1⟩),
    .demux (.work (.processUrb (setAddressUrb 5) ⟨1⟩)),
    .demux (.work (.processUrb (getDescriptorUrb ⟨5⟩) ⟨2⟩)), .giveback ⟨2⟩, .received ⟨2⟩,
    .demux (.givebackUrb ⟨2⟩), .demux (.work (.processUrb (getDescriptorUrb ⟨5⟩) ⟨2⟩)),
    .demux (.work (.cancelUrb ⟨2⟩))]

/-- The handle is reused before the notification for it is handled. -/
def lateNoticeRun : List HandleEvent :=
  [.demux (.registered (.ok ⟨1⟩) true), .demux (resetDone ⟨1⟩),
    .demux (.work (.processUrb (setAddressUrb 5) ⟨1⟩)),
    .demux (.work (.processUrb (getDescriptorUrb ⟨5⟩) ⟨2⟩)), .giveback ⟨2⟩, .received ⟨2⟩,
    .demux (.work (.processUrb (getDescriptorUrb ⟨5⟩) ⟨2⟩)), .demux (.givebackUrb ⟨2⟩),
    .demux (.work (.cancelUrb ⟨2⟩))]

theorem cancels_delivered_run :
    Meets (handleStep Vhci.usb) (CancelsDelivered Vhci.usb) handleStart cancelRun :=
  cancels_delivered (by decide)

/-- The late notification cuts the link of the new URB, and its cancel is lost. -/
theorem late_notice_loses_cancel :
    Meets (handleStep Vhci.usb) Paired handleStart lateNoticeRun ∧
      ¬ Meets (handleStep Vhci.usb) (CancelsDelivered Vhci.usb) handleStart lateNoticeRun := by
  decide

end Demuxer
end Qusb

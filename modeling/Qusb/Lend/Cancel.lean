import Qusb.Base.Runs
import Qusb.Lend.Send

/-! Cancellation of the transfers of a lender.

The receiving side takes a token for each transfer it submits, from the cache or a new one, and cancels it
on an unlink; the sending side puts it back into the cache when the completion is processed. Between the
two a token belongs to one transfer, also when the unlink comes after the transfer has finished. -/

open Tables Runs

namespace Qusb.Lend

open Msg Proto

/-- A transfer between its submission and the processing of its completion. A blocking request has no token;
one that has finished does not wait with it any more. -/
structure Submitted where
  token : Option CancelTransferToken
  finished : Bool

structure Transfers where
  tokens : Tokens
  inProgress : Table Seqnum Submitted

inductive TransferEvent where
  | submit (seqnum : Seqnum)
  | submitBlocking (seqnum : Seqnum)
  | unlink (seqnum : Seqnum)
  /-- The device has answered, or the wait was cancelled. -/
  | finish (seqnum : Seqnum)
  /-- The sending side takes the completion. -/
  | complete (seqnum : Seqnum)

namespace Transfers

def start : Transfers := ⟨.empty, ∅⟩

def submit (s : Transfers) (seqnum : Seqnum) : Transfers where
  tokens := (s.tokens.registerCancelToken seqnum).2
  inProgress := s.inProgress.insert seqnum ⟨some (s.tokens.registerCancelToken seqnum).1, false⟩

def finish (s : Transfers) (seqnum : Seqnum) : Transfers :=
  match s.inProgress.lookup seqnum with
  | some t => { s with inProgress := s.inProgress.insert seqnum { t with finished := true } }
  | none => s

def step (b : Build) (s : Transfers) : TransferEvent → Except Fault Transfers
  | .submit seqnum => .ok (s.submit seqnum)
  | .submitBlocking seqnum => .ok { s with inProgress := s.inProgress.insert seqnum ⟨none, false⟩ }
  | .unlink seqnum => .ok { s with tokens := s.tokens.cancelUrb seqnum }
  | .finish seqnum => .ok (s.finish seqnum)
  | .complete seqnum => do
      let tokens ← s.tokens.deregisterToken b seqnum
      return ⟨tokens, s.inProgress.erase seqnum⟩

/-- A number is submitted only while no transfer in progress has it. -/
def Distinct (s : Transfers) : TransferEvent → Prop
  | .submit seqnum | .submitBlocking seqnum => s.inProgress.lookup seqnum = none
  | _ => True

instance Distinct.decidable (s : Transfers) : ∀ e, Decidable (s.Distinct e)
  | .submit seqnum => inferInstanceAs (Decidable (s.inProgress.lookup seqnum = none))
  | .submitBlocking seqnum => inferInstanceAs (Decidable (s.inProgress.lookup seqnum = none))
  | .unlink _ => isTrue trivial
  | .finish _ => isTrue trivial
  | .complete _ => isTrue trivial

/-- The transfer under the number waits, or waited, with the token. -/
def Holds (s : Transfers) (seqnum : Seqnum) (token : CancelTransferToken) : Prop :=
  ∃ t, s.inProgress.lookup seqnum = some t ∧ t.token = some token

/-- No token is shared, and the cache has only tokens that are neither cancelled nor held. -/
structure Isolated (s : Transfers) : Prop where
  unshared : ∀ n m token, s.Holds n token → s.Holds m token → n = m
  cached_live : ∀ token ∈ s.tokens.cached, token ∉ s.tokens.cancelled
  cached_free : ∀ token ∈ s.tokens.cached, ∀ n, ¬ s.Holds n token

/-- What the event does: an unlink cancels the token of the transfer under its number and no other, a
submission gets a token that is not cancelled, and nothing else cancels a token. -/
def CancelsOwn (s : Transfers) (e : TransferEvent) (s' : Transfers) : Prop :=
  match e with
  | .unlink seqnum => ∀ token, token ∈ s'.tokens.cancelled ↔ token ∈ s.tokens.cancelled ∨ s.Holds seqnum token
  | .submit seqnum => s'.tokens.cancelled = s.tokens.cancelled ∧
      ∃ token, s'.Holds seqnum token ∧ token ∉ s'.tokens.cancelled
  | _ => s'.tokens.cancelled = s.tokens.cancelled

/-- The tokens of the transfers in progress: each is the active one of its number or was cancelled, and an
active token has its transfer. -/
structure Tracked (s : Transfers) : Prop where
  sound : s.tokens.Sound
  held : ∀ n token, s.Holds n token → s.tokens.active.lookup n = some token ∨ token ∈ s.tokens.cancelled
  owner : ∀ n token, s.tokens.active.lookup n = some token → s.Holds n token
  unshared : ∀ n m token, s.Holds n token → s.Holds m token → n = m

end Transfers

/-! ### Where a token is -/

namespace Tokens

variable {t : Tokens} {n : Seqnum} {token : CancelTransferToken}

theorem mem_all_of_active (h : t.active.lookup n = some token) : token ∈ t.all :=
  List.mem_append_left _ ((active_perm h).symm.subset List.mem_cons_self)

theorem Sound.active_not_stored (hs : t.Sound) (h : t.active.lookup n = some token) :
    token ∉ t.cached ∧ token ∉ t.cancelled := by
  have hdisj := (List.nodup_append.mp hs.nodup).2.2 token ((active_perm h).symm.subset List.mem_cons_self)
  exact ⟨fun hmem => hdisj token (List.mem_append_left _ hmem) rfl,
    fun hmem => hdisj token (List.mem_append_right _ hmem) rfl⟩

theorem Sound.cached_not_cancelled (hs : t.Sound) (h : token ∈ t.cached) : token ∉ t.cancelled := by
  intro hmem
  have hstored := (List.nodup_append.mp hs.nodup).2.1
  exact (List.nodup_append.mp hstored).2.2 token h token hmem rfl

/-- What a registration hands out: a cached token or a new one, which nothing else uses. -/
theorem register_cases (t : Tokens) (n : Seqnum) :
    (t.registerCancelToken n).2.active = t.active.insert n (t.registerCancelToken n).1 ∧
      (t.registerCancelToken n).2.cancelled = t.cancelled ∧
      ((t.registerCancelToken n).1 ∈ t.cached ∨ (t.registerCancelToken n).1 = t.fresh) := by
  unfold registerCancelToken
  cases hcached : t.cached with
  | nil => exact ⟨rfl, rfl, Or.inr rfl⟩
  | cons token cached => exact ⟨rfl, rfl, Or.inl List.mem_cons_self⟩

/-- The token that a registration hands out is with no transfer and was not cancelled. -/
theorem Sound.register_new (hs : t.Sound) (n : Seqnum) :
    (∀ m, t.active.lookup m ≠ some (t.registerCancelToken n).1) ∧
      (t.registerCancelToken n).1 ∉ t.cancelled := by
  obtain ⟨-, -, hcached | hfresh⟩ := t.register_cases n
  · exact ⟨fun m hm => (hs.active_not_stored hm).1 hcached, hs.cached_not_cancelled hcached⟩
  · rw [hfresh]
    constructor
    · intro m hm
      exact absurd (hs.lt_fresh _ (mem_all_of_active hm)) (Nat.lt_irrefl _)
    · intro hmem
      exact absurd (hs.lt_fresh _ (List.mem_append_right _ (List.mem_append_right _ hmem))) (Nat.lt_irrefl _)

end Tokens

namespace Transfers

variable {b : Build} {s s' : Transfers} {q n : Seqnum} {token : CancelTransferToken}

theorem tracked_start : Tracked start where
  sound := Tokens.sound_empty
  held := by
    rintro n token ⟨t, ht, -⟩
    cases ht
  owner n token h := by cases h
  unshared := by
    rintro n m token ⟨t, ht, -⟩
    cases ht

/-- No two transfers share a token, and none has one of the cache. -/
theorem Tracked.isolated (hs : Tracked s) : s.Isolated where
  unshared := hs.unshared
  cached_live token h := hs.sound.cached_not_cancelled h
  cached_free token h n hn := by
    rcases hs.held n token hn with hactive | hcancelled
    · exact (hs.sound.active_not_stored hactive).1 h
    · exact hs.sound.cached_not_cancelled h hcancelled

/-! ### One event -/

theorem holds_insert {t : Submitted} {tokens : Tokens} :
    Holds ⟨tokens, s.inProgress.insert q t⟩ n token ↔
      if n = q then t.token = some token else s.Holds n token := by
  unfold Holds
  simp only [lookup_insert_eq]
  split
  · simp
  · exact Iff.rfl

theorem holds_erase {tokens : Tokens} :
    Holds ⟨tokens, s.inProgress.erase q⟩ n token ↔ n ≠ q ∧ s.Holds n token := by
  unfold Holds
  simp only [lookup_erase_eq]
  by_cases hn : n = q
  · simp [hn]
  · simp [hn]

theorem holds_finish : (s.finish q).Holds n token ↔ s.Holds n token := by
  unfold finish
  cases ht : s.inProgress.lookup q with
  | none => exact Iff.rfl
  | some t =>
      refine holds_insert.trans ?_
      split
      · next hn =>
          subst hn
          simp [Holds, ht]
      · exact Iff.rfl

/-- A change that keeps the tokens and who holds them. -/
theorem Tracked.of_holds (hs : Tracked s) (htokens : s'.tokens = s.tokens)
    (hholds : ∀ n token, s'.Holds n token ↔ s.Holds n token) : Tracked s' where
  sound := htokens ▸ hs.sound
  held n token h := by
    rw [htokens]
    exact hs.held n token ((hholds n token).mp h)
  owner n token h := by
    rw [htokens] at h
    exact (hholds n token).mpr (hs.owner n token h)
  unshared n m token hn hm := hs.unshared n m token ((hholds n token).mp hn) ((hholds m token).mp hm)

theorem holds_submit : (s.submit q).Holds n token ↔
    if n = q then token = (s.tokens.registerCancelToken q).1 else s.Holds n token := by
  refine holds_insert.trans ?_
  split
  · rw [Option.some.injEq, eq_comm]
  · exact Iff.rfl

theorem Tracked.submit (hs : Tracked s) (q : Seqnum) : Tracked (s.submit q) := by
  obtain ⟨hactive, hcancelled, -⟩ := s.tokens.register_cases q
  obtain ⟨hunused, hlive⟩ := hs.sound.register_new q
  -- a token that a transfer holds is not handed out
  have hother : ∀ n token, s.Holds n token → token ≠ (s.tokens.registerCancelToken q).1 := by
    rintro n token hn rfl
    rcases hs.held n _ hn with h | h
    · exact hunused n h
    · exact hlive h
  refine ⟨hs.sound.register q, ?_, ?_, ?_⟩
  · intro n token h
    rw [holds_submit] at h
    show (s.tokens.registerCancelToken q).2.active.lookup n = some token ∨
      token ∈ (s.tokens.registerCancelToken q).2.cancelled
    rw [hactive, hcancelled, lookup_insert_eq]
    split at h
    · next hn => exact Or.inl (by rw [if_pos hn, h])
    · next hn =>
        rw [if_neg hn]
        exact hs.held n token h
  · intro n token h
    have h : (s.tokens.registerCancelToken q).2.active.lookup n = some token := h
    rw [hactive, lookup_insert_eq] at h
    rw [holds_submit]
    split at h
    · next hn =>
        rw [if_pos hn]
        exact (Option.some.inj h).symm
    · next hn =>
        rw [if_neg hn]
        exact hs.owner n token h
  · intro n m token hn hm
    rw [holds_submit] at hn hm
    split at hn
    · next hnq =>
        split at hm
        · next hmq => rw [hnq, hmq]
        · exact absurd hn (hother m token hm)
    · split at hm
      · exact absurd hm (hother n token hn)
      · exact hs.unshared n m token hn hm

/-- The tokens that are cancelled after an unlink. -/
theorem Tracked.mem_cancelled (hs : Tracked s) (q : Seqnum) (token : CancelTransferToken) :
    token ∈ (s.tokens.cancelUrb q).cancelled ↔ token ∈ s.tokens.cancelled ∨ s.Holds q token := by
  unfold Tokens.cancelUrb
  cases hq : s.tokens.active.lookup q with
  | none =>
      refine ⟨Or.inl, ?_⟩
      rintro (h | h)
      · exact h
      · rcases hs.held q token h with hactive | hcancelled
        · rw [hq] at hactive
          cases hactive
        · exact hcancelled
  | some token' =>
      rw [List.mem_cons]
      constructor
      · rintro (rfl | h)
        · exact Or.inr (hs.owner q _ hq)
        · exact Or.inl h
      · rintro (h | h)
        · exact Or.inr h
        · rcases hs.held q token h with hactive | hcancelled
          · exact Or.inl (Option.some.inj (hactive.symm.trans hq))
          · exact Or.inr hcancelled

theorem Tracked.unlink (hs : Tracked s) (q : Seqnum) :
    Tracked { s with tokens := s.tokens.cancelUrb q } := by
  have hactive : ∀ n, (s.tokens.cancelUrb q).active.lookup n =
      if n = q then none else s.tokens.active.lookup n := by
    intro n
    unfold Tokens.cancelUrb
    cases hq : s.tokens.active.lookup q with
    | none =>
        by_cases hn : n = q
        · rw [if_pos hn, hn]
          exact hq
        · rw [if_neg hn]
    | some token => exact lookup_erase_eq _ _ _
  refine ⟨hs.sound.cancel q, ?_, ?_, hs.unshared⟩
  · intro n token h
    have h : s.Holds n token := h
    show (s.tokens.cancelUrb q).active.lookup n = some token ∨ token ∈ (s.tokens.cancelUrb q).cancelled
    rw [hactive, hs.mem_cancelled]
    by_cases hn : n = q
    · exact Or.inr (Or.inr (hn ▸ h))
    · rw [if_neg hn]
      exact (hs.held n token h).imp_right Or.inl
  · intro n token h
    have h : (s.tokens.cancelUrb q).active.lookup n = some token := h
    rw [hactive] at h
    split at h
    · cases h
    · exact hs.owner n token h

/-- A completion that is processed leaves the cancelled tokens and takes its own out of the table. -/
theorem deregister_lookup {t t' : Tokens} (hok : t.deregisterToken b q = .ok t') :
    t'.cancelled = t.cancelled ∧ ∀ n, t'.active.lookup n = if n = q then none else t.active.lookup n := by
  unfold Tokens.deregisterToken at hok
  split at hok
  · obtain ⟨_, -, hok⟩ := bind_eq_ok_iff.mp hok
    cases hok
    exact ⟨rfl, fun n => lookup_erase_eq _ _ _⟩
  · next hq =>
      cases hok
      refine ⟨rfl, fun n => ?_⟩
      split
      · next hn => rw [hn, hq]
      · rfl

theorem Tracked.complete (hs : Tracked s) (q : Seqnum) :
    ∃ tokens, s.tokens.deregisterToken b q = .ok tokens ∧ tokens.cancelled = s.tokens.cancelled ∧
      Tracked ⟨tokens, s.inProgress.erase q⟩ := by
  obtain ⟨tokens, hok, hsound⟩ := hs.sound.deregister b q
  obtain ⟨hcancelled, hactive⟩ := deregister_lookup hok
  refine ⟨tokens, hok, hcancelled, hsound, ?_, ?_, ?_⟩
  · intro n token h
    obtain ⟨hn, h⟩ := holds_erase.mp h
    show tokens.active.lookup n = some token ∨ token ∈ tokens.cancelled
    rw [hactive, hcancelled, if_neg hn]
    exact hs.held n token h
  · intro n token h
    have h : tokens.active.lookup n = some token := h
    rw [hactive] at h
    split at h
    · cases h
    · next hn => exact holds_erase.mpr ⟨hn, hs.owner n token h⟩
  · intro n m token hn hm
    exact hs.unshared n m token (holds_erase.mp hn).2 (holds_erase.mp hm).2

/-- **One event** goes through, cancels what it should, and keeps track of the tokens. -/
theorem Tracked.step (hs : Tracked s) {e : TransferEvent} (hdistinct : s.Distinct e) :
    ∃ s', s.step b e = .ok s' ∧ s.CancelsOwn e s' ∧ Tracked s' := by
  cases e with
  | submit q =>
      obtain ⟨-, hcancelled, -⟩ := s.tokens.register_cases q
      refine ⟨_, rfl, ⟨hcancelled, _, ⟨_, AList.lookup_insert _, rfl⟩, ?_⟩, hs.submit q⟩
      show _ ∉ (s.tokens.registerCancelToken q).2.cancelled
      rw [hcancelled]
      exact (hs.sound.register_new q).2
  | submitBlocking q =>
      refine ⟨_, rfl, rfl, hs.of_holds rfl fun n token => holds_insert.trans ?_⟩
      split
      · next hn =>
          subst hn
          have hdistinct : s.inProgress.lookup n = none := hdistinct
          simp [Holds, hdistinct]
      · exact Iff.rfl
  | unlink q => exact ⟨_, rfl, hs.mem_cancelled q, hs.unlink q⟩
  | finish q =>
      have htokens : (s.finish q).tokens = s.tokens := by
        unfold finish
        split <;> rfl
      exact ⟨_, rfl, congrArg Tokens.cancelled htokens, hs.of_holds htokens fun n token => holds_finish⟩
  | complete q =>
      obtain ⟨tokens, hok, hcancelled, htracked⟩ := hs.complete (b := b) q
      refine ⟨⟨tokens, s.inProgress.erase q⟩, ?_, hcancelled, htracked⟩
      simp only [Transfers.step, hok, ok_bind]
      rfl

/-- **Cancellation is isolated.** In every run in which the numbers of the transfers in progress are
distinct, the states before and after each event are isolated, no event faults, and each cancels exactly
what it should. -/
theorem cancellation_isolated {es : List TransferEvent} (h : Meets (step b) Distinct start es) :
    Meets (step b) (fun s e => s.Isolated ∧ ∃ s', s.step b e = .ok s' ∧ s.CancelsOwn e s' ∧ s'.Isolated)
      start es := by
  refine Meets.imp tracked_start h ?_ ?_
  · intro s e hs hdistinct
    obtain ⟨s', hok, hcancels, hs'⟩ := hs.step hdistinct
    exact ⟨hs.isolated, s', hok, hcancels, hs'.isolated⟩
  · intro s e s' hs hdistinct hok
    obtain ⟨s₁, hok₁, -, hs₁⟩ := hs.step (b := b) hdistinct
    cases hok.symm.trans hok₁
    exact hs₁

/-- A transfer is unlinked after it has finished, the next one gets a new token, completes, and the one
after it gets that token from the cache. -/
def lateUnlinkRun : List TransferEvent :=
  [.submit 1, .finish 1, .unlink 1, .submit 2, .complete 1, .finish 2, .complete 2, .submit 3]

theorem late_unlink_isolated :
    Meets (step .dev) (fun s e => s.Isolated ∧ ∃ s', s.step .dev e = .ok s' ∧ s.CancelsOwn e s' ∧ s'.Isolated)
      start lateUnlinkRun :=
  cancellation_isolated (by decide)

end Transfers
end Qusb.Lend

import Mathlib
import JaspyNexus.Routes.Issues

/-! # Acknowledging what is there

An acknowledgement is for an issue that is there when it is made. The handler asks the
tracker, which remembers an issue for the grace period after it is gone:
`acknowledge_asMeant_iff` states when the two agree. -/

namespace JaspyNexus.Routes.Acknowledge
open JaspyNexus.Lib JaspyNexus.Utilities.Issues JaspyNexus.Routes.Issues
open JaspyNexus.Models (IssueAck IssueAcks)

/-- **An acknowledgement of what is there.** -/
structure AckAsMeant (req : IssueAckRequest) (derived : Derivation) (s s' : IssueStore)
    (answer : Except HttpError IssueAck) : Prop where
  /-- it succeeds exactly for an issue of the derivation -/
  succeeds : (∃ ack, answer = .ok ack) ↔ req.issueKey ∈ derived.issues.map DerivedIssue.issueKey
  /-- and is stored, bound to the current onset of the issue -/
  binds : ∀ ack, answer = .ok ack → ack.issueKey = req.issueKey ∧
    s'.acks.find req.issueKey = some ack ∧
    s'.tracker.firstSeenOf req.issueKey = some ack.firstSeen.toUInt64
  /-- any other is a conflict, and nothing is written -/
  refuses : req.issueKey ∉ derived.issues.map DerivedIssue.issueKey →
    answer = .error (.conflict ("issue not currently active: " ++ req.issueKey)) ∧
    s'.acks = s.acks ∧ s'.suppressed = s.suppressed ∧ s'.expectedRoots = s.expectedRoots

variable {req : IssueAckRequest} {derived : Derivation} {s s' : IssueStore}
  {answer : Except HttpError IssueAck} {now : UInt64} {writeError : Option String}

/-- The time is `now`, and writes fail with `writeError`, if there is one. -/
def AnswersAre (now : UInt64) (writeError : Option String) (e : Answer) : Prop :=
  e.msecs = now ∧ e.writeError = writeError

/-- The tracker has nothing to add to the derivation: the key is derived, and the write
succeeds, or the tracker forgets it with this scan. -/
def Settled (now : UInt64) (writeError : Option String) (derived : Derivation) (s : IssueStore)
    (key : String) : Prop :=
  if key ∈ derived.issues.map DerivedIssue.issueKey then writeError = none
  else ∀ occ, s.tracker.seen key = some occ → occ.lastSeen < saturatingSub now s.tracker.graceMs

/-- What the handler does after its derivation: by what the tracker holds after it. -/
theorem returns_acknowledge
    (h : (acknowledge req derived).Returns IssueCall.exec (AnswersAre now writeError) s answer s') :
    s'.tracker = (s.tracker.reconcile now derived.issues).1 ∧ s'.suppressed = s.suppressed ∧
      s'.expectedRoots = s.expectedRoots ∧
      ((s'.tracker.firstSeenOf req.issueKey = none ∧ s'.acks = s.acks ∧
          answer = .error (.conflict ("issue not currently active: " ++ req.issueKey))) ∨
        (∃ fs e, s'.tracker.firstSeenOf req.issueKey = some fs ∧ writeError = some e ∧
          s'.acks = s.acks ∧ answer = .error (.internalServerError
            (s!"failed to persist acknowledgement: {e} (are the migrations up to date?)"))) ∨
        ∃ fs ack, s'.tracker.firstSeenOf req.issueKey = some fs ∧ writeError = none ∧
          answer = .ok ack ∧ ack.issueKey = req.issueKey ∧ ack.firstSeen = fs.toInt64 ∧
          s'.acks = s.acks.upsert ack) := by
  obtain ⟨_, _, ⟨e, ⟨he, -⟩, rfl, rfl⟩, h⟩ := Prog.returns_bind.mp h
  obtain ⟨_, _, ⟨_, -, rfl, rfl⟩, h⟩ := Prog.returns_bind.mp h
  subst he
  simp only [IssueCall.exec, IssueStore.logged] at h
  cases hfs : (s.tracker.reconcile e.msecs derived.issues).1.firstSeenOf req.issueKey with
  | none =>
    rw [hfs] at h
    obtain ⟨rfl, rfl⟩ := h
    exact ⟨rfl, rfl, rfl, .inl ⟨hfs, rfl, rfl⟩⟩
  | some fs =>
    rw [hfs] at h
    obtain ⟨_, _, ⟨e', ⟨-, he'⟩, rfl, rfl⟩, h⟩ := Prog.returns_bind.mp h
    subst he'
    cases hwrite : e'.writeError with
    | some error =>
      simp only [IssueCall.exec, hwrite] at h
      obtain ⟨rfl, rfl⟩ := h
      exact ⟨rfl, rfl, rfl, .inr (.inl ⟨fs, error, hfs, rfl, rfl, rfl⟩)⟩
    | none =>
      simp only [IssueCall.exec, hwrite] at h
      obtain ⟨rfl, rfl⟩ := h
      exact ⟨rfl, rfl, rfl, .inr (.inr ⟨fs, _, hfs, rfl, rfl, rfl, rfl, rfl⟩)⟩

/-- The tracker holds the key after the scan: it is derived, or was seen since the
cutoff. -/
theorem firstSeenOf_reconcile_eq_none_iff (t : IssueTracker) (now : UInt64)
    (derived : List DerivedIssue) (key : String) : (t.reconcile now derived).1.firstSeenOf key = none ↔
      key ∉ derived.map DerivedIssue.issueKey ∧
        ∀ occ, t.seen key = some occ → occ.lastSeen < saturatingSub now t.graceMs := by
  rw [IssueTracker.firstSeenOf, Option.map_eq_none_iff, IssueTracker.reconcile_seen]
  split
  · next h => simp [h]
  · next h => simp [h, Option.filter_eq_none_iff, UInt64.not_le]

/-- **The handler acknowledges what is there** exactly when the tracker has nothing to
add to the derivation that it made. -/
theorem acknowledge_asMeant_iff {start : IssueStore}
    (hderived : collectIssues.Returns IssueCall.exec (AnswersAre now writeError) start derived s)
    (h : (acknowledge req derived).Returns IssueCall.exec (AnswersAre now writeError) s answer s') :
    (issueAck req).Returns IssueCall.exec (AnswersAre now writeError) start answer s' ∧
    (AckAsMeant req derived s s' answer ↔ Settled now writeError derived s req.issueKey) := by
  refine ⟨Prog.returns_bind.mpr ⟨derived, s, hderived, h⟩, ?_⟩
  unfold Settled
  obtain ⟨htracker, hsuppressed, hroots, hcases⟩ := returns_acknowledge h
  have hnone := firstSeenOf_reconcile_eq_none_iff s.tracker now derived.issues req.issueKey
  rw [← htracker] at hnone
  rcases hcases with ⟨hfs, hacks, rfl⟩ | ⟨fs, e, hfs, rfl, hacks, rfl⟩ | ⟨fs, ack, hfs, rfl, rfl, hack, hfirst, hacks⟩
  · -- forgotten, and not derived
    obtain ⟨hkey, hgone⟩ := hnone.mp hfs
    rw [if_neg hkey]
    refine iff_of_true ⟨?_, ?_, fun _ => ⟨rfl, hacks, hsuppressed, hroots⟩⟩ hgone
    · simp [hkey]
    · rintro ack ⟨⟩
  · -- held, but the write fails
    have hheld := mt hnone.mpr (by simp [hfs])
    by_cases hkey : req.issueKey ∈ derived.issues.map DerivedIssue.issueKey
    · rw [if_pos hkey]
      refine iff_of_false (fun hmeant => ?_) (by simp)
      obtain ⟨ack, hack⟩ := hmeant.succeeds.mpr hkey
      cases hack
    · rw [if_neg hkey]
      refine iff_of_false (fun hmeant => ?_) fun hgone => hheld ⟨hkey, hgone⟩
      have := (hmeant.refuses hkey).1
      simp at this
  · -- held, and acknowledged
    have hheld := mt hnone.mpr (by simp [hfs])
    by_cases hkey : req.issueKey ∈ derived.issues.map DerivedIssue.issueKey
    · rw [if_pos hkey]
      refine iff_of_true ⟨iff_of_true ⟨ack, rfl⟩ hkey, ?_, fun h => absurd hkey h⟩ rfl
      rintro _ ⟨⟩
      refine ⟨hack, ?_, ?_⟩
      · rw [hacks, IssueAcks.find_upsert, if_pos hack.symm]
      · rw [hfs, hfirst, UInt64.toUInt64_toInt64]
    · rw [if_neg hkey]
      exact iff_of_false (fun hmeant => hkey (hmeant.succeeds.mp ⟨ack, rfl⟩))
        fun hgone => hheld ⟨hkey, hgone⟩

/-- The store of a process that has just seen the switch down. -/
def seenDown : IssueStore where
  tracker := ((IssueTracker.new 60000).reconcile 1000 [downIssue]).1
  acks := .empty
  cached := none
  suppressed := []
  expectedRoots := PMap.empty
  log := []

/-- The switch is up again and its issue is gone, and it is acknowledged with success. -/
theorem gone_issue_acknowledged : ∃ derived s s' answer,
    collectIssues.Returns IssueCall.exec (AnswersAre 2000 none) seenDown derived s ∧
    (acknowledge ⟨downIssue.issueKey, none⟩ derived).Returns IssueCall.exec
      (AnswersAre 2000 none) s answer s' ∧
    ¬AckAsMeant ⟨downIssue.issueKey, none⟩ derived s s' answer := by
  have hquiet : AnswersAre 2000 none (Answer.quiet 2000 2) := ⟨rfl, rfl⟩
  refine ⟨_, _, _, _, Prog.returns_run _ _ _ hquiet _ _, Prog.returns_run _ _ _ hquiet _ _, fun hmeant => ?_⟩
  have hkey := hmeant.succeeds.mp ⟨⟨downIssue.issueKey, 1000, 2000, none, none⟩, rfl⟩
  cases hkey

/-- Once it is forgotten, it is a conflict. -/
theorem acknowledge_asMeant_iff_forgotten : ∃ derived s s' answer,
    (issueAck ⟨downIssue.issueKey, none⟩).Returns IssueCall.exec
      (AnswersAre 100000 none) seenDown answer s' ∧
    (AckAsMeant ⟨downIssue.issueKey, none⟩ derived s s' answer ↔
      Settled 100000 none derived s downIssue.issueKey) := by
  have hquiet : AnswersAre 100000 none (Answer.quiet 100000 100) := ⟨rfl, rfl⟩
  exact ⟨_, _, _, _, acknowledge_asMeant_iff (Prog.returns_run _ _ _ hquiet _ _) (Prog.returns_run _ _ _ hquiet _ _)⟩

end JaspyNexus.Routes.Acknowledge

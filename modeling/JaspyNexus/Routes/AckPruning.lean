import Mathlib
import JaspyNexus.Routes.IssueSteps

/-! # Pruning acknowledgements

`GET /issues` deletes the acknowledgements of issues that the tracker has forgotten. It
asks the tracker first and reads the table later, while others acknowledge.
`acks_kept_iff` states when the pruning takes none that is still owed. -/

namespace JaspyNexus.Routes.AckPruning
open JaspyNexus.Lib JaspyNexus.Utilities.Issues JaspyNexus.Routes.Issues
open JaspyNexus.Models (IssueAck IssueAcks)

/-! ## What is owed -/

/-- The tracker has forgotten the key after that time. -/
def Forgotten (log : List Event) (key : String) (time : Nat) : Prop :=
  ∃ later known, time < later ∧ log[later]? = some (.tracker known) ∧ known key = false

/-- **An acknowledgement is owed** from its answer on, until another one of the key is
stored, the key is un-acknowledged, or the tracker has forgotten the issue since the
acknowledgement was bound to it. -/
structure Owed (log : List Event) (i : Nat) (ack : IssueAck) (boundAt : Nat) : Prop where
  acked : log[i]? = some (.acked ack boundAt)
  newest : ∀ j newer at', i < j → log[j]? = some (.acked newer at') → newer.issueKey ≠ ack.issueKey
  wanted : ∀ j, i < j → log[j]? ≠ some (.unacked ack.issueKey)
  known : ¬Forgotten log ack.issueKey boundAt

/-- What is owed is in the table. -/
def Kept (s : IssueStore) : Prop :=
  ∀ i ack boundAt, Owed s.log i ack boundAt → s.acks.find ack.issueKey = some ack

/-- A deletion of an orphan meets no acknowledgement, still owed, that was bound after
the known keys were read. -/
def PrunesInOrder : {β : Type} → IssueCall β → Answer → IssueStore → Prop
  | _, .deleteAck key (.orphan knownAt), e, s => e.writeError = none →
    ∀ i ack boundAt, Owed s.log i ack boundAt → ack.issueKey = key → boundAt < knownAt
  | _, _, _, _ => True

/-! ## Single steps -/

variable {s s' : IssueStore} {log log' : List Event} {key : String} {event : Event}

theorem Forgotten.later {time : Nat} (hpre : log <+: log') (h : Forgotten log key time) :
    Forgotten log' key time := by
  obtain ⟨later, known, hlt, hget, hknown⟩ := h
  exact ⟨later, known, hlt, Log.get_later hpre hget, hknown⟩

/-- What is owed after a step was owed before it, or is what the step stored. -/
theorem Owed.of_concat {i : Nat} {ack : IssueAck} {boundAt : Nat}
    (h : Owed (log ++ [event]) i ack boundAt) : Owed log i ack boundAt ∨ event = .acked ack boundAt := by
  rcases Log.get_concat_iff.mp h.acked with hget | ⟨-, hget⟩
  · refine .inl ⟨hget, fun j newer at' hj hnewer => ?_, fun j hj hun => ?_, fun hforgotten => ?_⟩
    · exact h.newest j newer at' hj (Log.get_concat_iff.mpr (.inl hnewer))
    · exact h.wanted j hj (Log.get_concat_iff.mpr (.inl hun))
    · exact h.known (hforgotten.later (List.prefix_append _ _))
  · exact .inr hget

/-- The step that follows is none that ends it. -/
theorem Owed.last {i : Nat} {ack : IssueAck} {boundAt : Nat} (hi : i < log.length)
    (h : Owed (log ++ [event]) i ack boundAt) :
    (∀ newer at', event = .acked newer at' → newer.issueKey ≠ ack.issueKey) ∧
      event ≠ .unacked ack.issueKey := by
  refine ⟨fun newer at' hev => ?_, fun hev => ?_⟩
  · exact h.newest log.length newer at' hi (Log.get_concat_iff.mpr (.inr ⟨rfl, hev⟩))
  · exact h.wanted log.length hi (Log.get_concat_iff.mpr (.inr ⟨rfl, hev⟩))

/-- A step about something else ends nothing. -/
theorem Owed.concat_other {i : Nat} {ack : IssueAck} {boundAt : Nat} (h : Owed log i ack boundAt) :
    Owed (log ++ [.other]) i ack boundAt := by
  refine ⟨Log.get_concat_iff.mpr (.inl h.acked), fun j newer at' hj hnewer => ?_,
    fun j hj hun => ?_, ?_⟩
  · rcases Log.get_concat_iff.mp hnewer with hnewer | ⟨-, hnewer⟩
    · exact h.newest j newer at' hj hnewer
    · cases hnewer
  · rcases Log.get_concat_iff.mp hun with hun | ⟨-, hun⟩
    · exact h.wanted j hj hun
    · cases hun
  · rintro ⟨later, known, hlt, hget, hknown⟩
    rcases Log.get_concat_iff.mp hget with hget | ⟨-, hget⟩
    · exact h.known ⟨later, known, hlt, hget, hknown⟩
    · cases hget

/-- A step that stores no acknowledgement and leaves the table as it is. -/
theorem Kept.concat (h : Kept s) (hlog : s'.log = s.log ++ [event]) (hacks : s'.acks = s.acks)
    (hevent : ∀ ack boundAt, event ≠ .acked ack boundAt) : Kept s' := by
  intro i ack boundAt howed
  rw [hlog] at howed
  rcases howed.of_concat with howed | hev
  · rw [hacks, h i ack boundAt howed]
  · exact absurd hev (hevent ack boundAt)

theorem kept_upsert {ack : IssueAck} {boundAt : Nat} (h : Kept s) :
    Kept { s.logged (.acked ack boundAt) with acks := s.acks.upsert ack } := by
  intro i other at' howed
  show (s.acks.upsert ack).find other.issueKey = some other
  have hgen : Owed (s.log ++ [.acked ack boundAt]) i other at' := howed
  rw [IssueAcks.find_upsert]
  by_cases hi : i < s.log.length
  · rcases hgen.of_concat with hold | hev
    · rw [if_neg fun heq => (hgen.last hi).1 ack boundAt rfl heq.symm, h i other at' hold]
    · cases hev
      exact absurd rfl ((hgen.last hi).1 ack boundAt rfl)
  · rcases Log.get_concat_iff.mp hgen.acked with hget | ⟨-, hget⟩
    · exact absurd (Log.lt_length hget) hi
    · cases hget
      rw [if_pos rfl]

theorem kept_unack (h : Kept s) :
    Kept { s.logged (.unacked key) with acks := s.acks.delete key } := by
  intro i ack boundAt howed
  show (s.acks.delete key).find ack.issueKey = some ack
  have hgen : Owed (s.log ++ [.unacked key]) i ack boundAt := howed
  rcases hgen.of_concat with hold | hev
  · rw [IssueAcks.find_delete, if_neg fun heq => (hgen.last (Log.lt_length hold.acked)).2 (by rw [heq]),
      h i ack boundAt hold]
  · cases hev

/-- A deletion that is not asked for takes what is owed of the key. -/
theorem kept_prune_iff (h : Kept s) :
    Kept { s.logged .other with acks := s.acks.delete key } ↔
      ∀ i ack boundAt, Owed s.log i ack boundAt → ack.issueKey ≠ key := by
  constructor
  · rintro hkept i ack boundAt howed rfl
    have := hkept i ack boundAt howed.concat_other
    simp at this
  · intro hother i ack boundAt howed
    have hgen : Owed (s.log ++ [.other]) i ack boundAt := howed
    rcases hgen.of_concat with hold | hev
    · show (s.acks.delete key).find ack.issueKey = some ack
      rw [IssueAcks.find_delete, if_neg (hother i ack boundAt hold), h i ack boundAt hold]
    · cases hev

/-! ## Among others -/

/-- The tracker knew the key at that time. -/
def Bound (log : List Event) (key : String) (time : Nat) : Prop :=
  ∃ known, log[time]? = some (.tracker known) ∧ known key = true

/-- Known keys read at `knownAt` lack the key: whenever it was known before, it has been
forgotten since. -/
structure Lacks (log : List Event) (key : String) (knownAt : Nat) : Prop where
  le : knownAt ≤ log.length
  gone : ∀ time, time < knownAt → Bound log key time → Forgotten log key time

/-- The log tells what the tracker knows, and to what acknowledgements are bound. -/
structure LogOk (s : IssueStore) : Prop where
  tracker : ∀ key time, Bound s.log key time →
    s.tracker.knownKeys key = true ∨ Forgotten s.log key time
  acked : ∀ (i : Nat) (ack : IssueAck) (boundAt : Nat), s.log[i]? = some (.acked ack boundAt) →
    Bound s.log ack.issueKey boundAt

theorem Bound.later {time : Nat} (hpre : log <+: log') (h : Bound log key time) :
    Bound log' key time := by
  obtain ⟨known, hget, hknown⟩ := h
  exact ⟨known, Log.get_later hpre hget, hknown⟩

theorem Lacks.later {knownAt : Nat} (hpre : log <+: log') (h : Lacks log key knownAt) :
    Lacks log' key knownAt := by
  refine ⟨h.le.trans hpre.length_le, fun time htime ⟨known, hget, hknown⟩ => ?_⟩
  exact (h.gone time htime ⟨known, Log.get_earlier hpre (htime.trans_le h.le) hget, hknown⟩).later hpre

/-- What is read as unknown is lacking from then on. -/
theorem LogOk.lacks (h : LogOk s) (hkey : s.tracker.knownKeys key = false) :
    Lacks s.log key s.log.length := by
  refine ⟨le_rfl, fun time _ hbound => ?_⟩
  refine (h.tracker key time hbound).resolve_left fun hknown => ?_
  rw [hkey] at hknown
  cases hknown

/-- What a request has found out before it writes or deletes an acknowledgement. -/
def May : {β : Type} → IssueStore → IssueCall β → Prop
  | _, s, .upsertAck ack boundAt => Bound s.log ack.issueKey boundAt
  | _, s, .deleteAck key (.orphan knownAt) => Lacks s.log key knownAt
  | _, _, _ => True

theorem May.later {β : Type} {c : IssueCall β} (hpre : s.log <+: s'.log) (h : May s c) : May s' c := by
  cases c with
  | upsertAck ack boundAt => exact Bound.later hpre h
  | deleteAck key deleter =>
    cases deleter with
    | unack => trivial
    | orphan knownAt => exact Lacks.later hpre h
  | _ => trivial

/-- An acknowledgement is logged by the step that stores it. -/
theorem event_acked {β : Type} {c : IssueCall β} {e : Answer} {ack : IssueAck} {boundAt : Nat}
    (h : c.event e s = .acked ack boundAt) (hmay : May s c) : Bound s.log ack.issueKey boundAt := by
  cases c with
  | upsertAck other at' =>
    simp only [IssueCall.event] at h
    split at h
    · cases h
    · cases h; exact hmay
  | deleteAck key deleter =>
    simp only [IssueCall.event] at h
    split at h
    · cases h
    · cases deleter <;> cases h
  | freshIssues =>
    simp only [IssueCall.event] at h
    cases hfresh : s.freshIssues e.time <;> rw [hfresh] at h <;> cases h
  | _ => cases h

theorem LogOk.step {β : Type} (c : IssueCall β) (e : Answer) (h : LogOk s) (hmay : May s c) :
    LogOk (IssueCall.exec β c e s).1 := by
  have hpre := exec_later c e s
  refine ⟨fun key time ⟨known, hget, hknown⟩ => ?_, fun i ack boundAt hget => ?_⟩
  · rw [exec_log, Log.get_concat_iff] at hget
    rcases exec_tracker c e s with hev | ⟨htracker, hev⟩
    · rcases hget with hget | ⟨-, hget⟩
      · rcases h.tracker key time ⟨known, hget, hknown⟩ with - | hforgotten
        · by_cases hnow : (IssueCall.exec β c e s).1.tracker.knownKeys key = true
          · exact .inl hnow
          · -- this step forgets it
            refine .inr ⟨s.log.length, _, Log.lt_length hget, ?_, by simpa using hnow⟩
            rw [exec_log, hev]
            exact Log.get_concat_iff.mpr (.inr ⟨rfl, rfl⟩)
        · exact .inr (hforgotten.later hpre)
      · rw [hev] at hget
        cases hget
        exact .inl hknown
    · rw [htracker]
      rcases hget with hget | ⟨-, hget⟩
      · exact (h.tracker key time ⟨known, hget, hknown⟩).imp_right (Forgotten.later hpre)
      · exact absurd hget (hev known)
  · rw [exec_log, Log.get_concat_iff] at hget
    rcases hget with hget | ⟨-, hget⟩
    · exact (h.acked i ack boundAt hget).later hpre
    · exact (event_acked hget hmay).later hpre

/-- **What a request relies on**: the log only grows, and tells what the tracker knew. -/
def rely : Prog.Rely IssueCall.exec where
  wf := LogOk
  later s t := s.log <+: t.log
  may := May
  refl := later_refl
  trans := later_trans
  may_later hpre h := h.later hpre
  step_wf c e _ h hmay := h.step c e hmay
  step_later c e _ _ _ := exec_later c e _

/-! ## The requests -/

open Prog.Rely

theorem safe_collectIssues {post : IssueStore → Derivation → Prop} (h : ∀ t d, post t d)
    (s : IssueStore) : rely.Safe post s collectIssues := by
  refine Safe.lift_bind trivial fun _ _ _ _ => Safe.lift_bind trivial fun _ e _ _ => ?_
  have hrest : ∀ (t : IssueStore) (stp : List DerivedIssue × Option Nat) devices,
      rely.Safe post t ((Prog.lift IssueCall.fleetIssues).bind fun poeAndLag =>
        (Prog.lift .loadSuppressedTypes).bind fun suppressed => .done
          { issues := (devices ++ stp.1 ++ poeAndLag).filter fun i => i.kind ∉ suppressed.1
            source := ⟨stp.2, suppressed.2⟩ }) := fun _ _ _ =>
    Safe.lift_bind trivial fun _ _ _ _ => Safe.lift_bind trivial fun _ _ _ _ => h _ _
  refine Safe.bind ?_
  dsimp only [IssueCall.exec]
  cases e.trees with
  | none => exact hrest _ _ _
  | some trees => exact Safe.lift_bind trivial fun _ _ _ _ => hrest _ _ _

theorem safe_cachedTrackedIssues {post : IssueStore → List TrackedIssue → Prop}
    (h : ∀ t tracked, post t tracked) (ttlSecs : Nat) (s : IssueStore) :
    rely.Safe post s (cachedTrackedIssues ttlSecs) := by
  refine Safe.lift_bind trivial fun t e _ _ => ?_
  dsimp only [IssueCall.exec]
  cases t.freshIssues e.time with
  | some cached => exact h _ _
  | none =>
    refine Safe.bind (safe_collectIssues (fun _ _ => ?_) _)
    exact Safe.lift_bind trivial fun _ _ _ _ => Safe.lift_bind trivial fun _ _ _ _ =>
      Safe.lift_bind trivial fun _ _ _ _ => Safe.lift_bind trivial fun _ _ _ _ => h _ _

/-- The orphans that are deleted are lacking from the known keys. -/
theorem safe_deleteOrphansLoop {keys : (String → Bool) × Nat} (acks : List IssueAck) (removed : Nat)
    {s : IssueStore} (h : ∀ key, keys.1 key = false → Lacks s.log key keys.2) :
    rely.Safe (fun _ _ => True) s (deleteOrphansLoop keys removed acks) := by
  induction acks generalizing removed s with
  | nil => trivial
  | cons ack rest ih =>
    unfold deleteOrphansLoop
    split
    · exact ih removed h
    · next hkey =>
      refine Safe.lift_bind (h _ (by simpa using hkey)) fun t e _ hst => ?_
      have hlater := hst.trans (exec_later (.deleteAck ack.issueKey (.orphan keys.2)) e t)
      split
      · trivial
      · next n _ => exact ih (removed + n) fun key hkey => (h key hkey).later hlater

theorem safe_issues (ttlSecs : Nat) (s : IssueStore) :
    rely.Safe (fun _ _ => True) s (Issues.issues ttlSecs) := by
  refine Safe.bind (safe_cachedTrackedIssues (fun _ _ =>
    Safe.lift_bind trivial fun t e hwf _ => ?_) _ s)
  -- the keys that are read as unknown have been forgotten
  have hlacks : ∀ key, t.tracker.knownKeys key = false →
      Lacks (IssueCall.exec _ .knownKeys e t).1.log key t.log.length := fun key hkey =>
    (hwf.lacks hkey).later (exec_later _ e t)
  refine Safe.lift_bind trivial fun t' e' _ hst => Safe.bind (Safe.lift_bind trivial
    fun t'' e'' _ hst' => ?_)
  have hlater := (hst.trans (exec_later .allAcks e' t')).trans (hst'.trans (exec_later .allAcks e'' t''))
  exact (safe_deleteOrphansLoop _ 0 fun key hkey => (hlacks key hkey).later hlater).imp
    fun _ _ _ => trivial

theorem safe_deviceIssues (ttlSecs : Nat) (fqdn : String) (s : IssueStore) :
    rely.Safe (fun _ _ => True) s (deviceIssues ttlSecs fqdn) := by
  refine Safe.bind (safe_cachedTrackedIssues (fun _ _ => ?_) _ s)
  exact Safe.lift_bind trivial fun _ _ _ _ => trivial

theorem safe_issueScan (ttlSecs : Nat) (s : IssueStore) :
    rely.Safe (fun _ _ => True) s (issueScan ttlSecs) := by
  refine Safe.bind (safe_collectIssues (fun _ _ => Safe.lift_bind trivial fun _ _ _ _ => ?_) s)
  refine Safe.lift_bind trivial fun _ _ _ _ => ?_
  exact Safe.lift trivial fun _ _ _ _ => trivial

theorem safe_issueAck (req : IssueAckRequest) (s : IssueStore) :
    rely.Safe (fun _ _ => True) s (issueAck req) := by
  refine Safe.bind (safe_collectIssues (fun _ derived => Safe.lift_bind trivial fun _ e _ _ =>
    Safe.lift_bind trivial fun t _ _ _ => ?_) s)
  dsimp only [IssueCall.exec]
  cases hfs : (t.tracker.reconcile e.msecs derived.issues).1.firstSeenOf req.issueKey with
  | none => trivial
  | some fs =>
    -- the tracker knows the key in the state that the acknowledgement is bound to
    refine Safe.lift_bind ⟨_, Log.get_concat_iff.mpr (.inr ⟨rfl, rfl⟩), ?_⟩ fun t' e'' _ _ => ?_
    · rw [IssueTracker.firstSeenOf, Option.map_eq_some_iff] at hfs
      obtain ⟨occ, hocc, -⟩ := hfs
      simp [IssueTracker.knownKeys, hocc]
    · split <;> trivial

theorem safe_persistSuppressed (set : List String) (s : IssueStore) :
    rely.Safe (fun _ _ => True) s (persistSuppressed set) := by
  refine Safe.lift_bind trivial fun t e _ _ => ?_
  split
  · trivial
  · exact Safe.lift_bind trivial fun _ _ _ _ => Safe.bind (Safe.lift_bind trivial fun _ _ _ _ =>
      Safe.lift_bind trivial fun _ _ _ _ => trivial)

/-- **Every request** finds out what it has to before it writes. -/
theorem safe_prog (ttlSecs : Nat) (request : Request) (s : IssueStore) :
    rely.Safe (fun _ _ => True) s (request.prog ttlSecs) := by
  cases request with
  | issues => exact Safe.bind (safe_issues ttlSecs s)
  | deviceIssues fqdn => exact Safe.bind (safe_deviceIssues ttlSecs fqdn s)
  | scan => exact safe_issueScan ttlSecs s
  | ack req => exact Safe.bind (safe_issueAck req s)
  | unack req =>
    refine Safe.bind (Safe.lift_bind trivial fun t e _ _ => ?_)
    split <;> trivial
  | suppress kind =>
    refine Safe.bind ?_
    unfold issueSuppress
    split
    · trivial
    · exact Safe.lift_bind trivial fun _ _ _ _ => safe_persistSuppressed _ _
  | unsuppress kind =>
    exact Safe.bind (Safe.lift_bind trivial fun _ _ _ _ => safe_persistSuppressed _ _)
  | expectRoot req =>
    refine Safe.bind (Safe.lift_bind trivial fun t e _ _ => ?_)
    split
    · trivial
    · refine Safe.lift_bind trivial fun _ _ _ _ => Safe.lift_bind trivial fun _ _ _ _ => ?_
      split
      · trivial
      · exact Safe.lift_bind trivial fun _ _ _ _ => Safe.lift_bind trivial fun _ _ _ _ => trivial
  | removeExpectedRoot req =>
    refine Safe.bind (Safe.lift_bind trivial fun t e _ _ => ?_)
    split
    · trivial
    · exact Safe.lift_bind trivial fun _ _ _ _ => Safe.lift_bind trivial fun _ _ _ _ => trivial

/-! ## The interleaving -/

/-- Each step keeps what is owed exactly when it prunes in order. -/
theorem kept_step_iff {β : Type} (c : IssueCall β) (e : Answer) (s : IssueStore) (hwf : LogOk s)
    (hmay : May s c) (h : Kept s) :
    Kept (IssueCall.exec β c e s).1 ↔ PrunesInOrder c e s := by
  have hother : ∀ ack boundAt, Event.other ≠ .acked ack boundAt := by
    intro _ _ hevent
    cases hevent
  cases c with
  | upsertAck ack boundAt =>
    refine iff_of_true ?_ trivial
    simp only [IssueCall.exec]
    cases e.writeError with
    | some error => exact h.concat rfl rfl hother
    | none => exact kept_upsert h
  | deleteAck key deleter =>
    cases hwrite : e.writeError with
    | some error =>
      have hexec : (IssueCall.exec _ (.deleteAck key deleter) e s).1 = s.logged .other := by
        simp only [IssueCall.exec, hwrite]
      rw [hexec]
      refine iff_of_true (h.concat rfl rfl hother) ?_
      cases deleter with
      | unack => trivial
      | orphan knownAt => exact fun hnone => by rw [hwrite] at hnone; cases hnone
    | none =>
      have hexec : (IssueCall.exec _ (.deleteAck key deleter) e s).1 =
          { s.logged (deleter.event key) with acks := s.acks.delete key } := by
        simp only [IssueCall.exec, hwrite]
      rw [hexec]
      cases deleter with
      | unack => exact iff_of_true (kept_unack h) trivial
      | orphan knownAt =>
        refine (kept_prune_iff h).trans ⟨fun hnone _ i ack boundAt howed hkey => ?_,
          fun horder i ack boundAt howed hkey => ?_⟩
        · exact absurd hkey (hnone i ack boundAt howed)
        · -- bound before the keys were read, and lacking in them: forgotten since
          have hlt := horder hwrite i ack boundAt howed hkey
          have hbound := hwf.acked i ack boundAt howed.acked
          subst hkey
          exact howed.known (hmay.gone boundAt hlt hbound)
  | freshIssues =>
    refine iff_of_true (h.concat rfl rfl fun ack boundAt => ?_) trivial
    cases s.freshIssues e.time <;> simp
  | setSuppressed | upsertExpectedRoot | deleteExpectedRoot =>
    refine iff_of_true ?_ trivial
    simp only [IssueCall.exec]
    cases e.writeError <;> exact h.concat rfl rfl hother
  | _ =>
    refine iff_of_true (h.concat rfl rfl ?_) trivial
    intro _ _ hevent
    cases hevent

/-- **An acknowledgement that was answered stays** as long as it is owed, in every
interleaving of requests and scans, exactly when the pruning meets none that was bound
after it read the known keys. -/
theorem acks_kept_iff (ttlSecs : Nat) (s : IssueStore) (requests : Nat → Request)
    (turns : List (Turn Answer)) :
    Runs.Allowed (Pool.step IssueCall.exec) (Pool.Meets PrunesInOrder)
        (pool ttlSecs { s with log := [] } requests) turns ↔
      ∀ pre, pre <+: turns →
        Kept (pre.foldl (Pool.step IssueCall.exec) (pool ttlSecs { s with log := [] } requests)).store := by
  have hwf : LogOk { s with log := [] } :=
    ⟨fun key time ⟨known, hget, _⟩ => by simp at hget, fun i ack boundAt hget => by simp at hget⟩
  have hkept : Kept { s with log := [] } := fun i ack boundAt howed => by
    have := howed.acked
    simp at this
  have hsafe : Pool.AllSafe rely (pool ttlSecs { s with log := [] } requests) :=
    ⟨hwf, fun i => safe_prog ttlSecs (requests i) _⟩
  exact Pool.run_iff kept_step_iff hsafe hkept turns

/-- A process with a fresh snapshot of no issues. -/
def quietStore : IssueStore where
  tracker := IssueTracker.new 60000
  acks := .empty
  cached := some ⟨15, [], ⟨none, 0⟩⟩
  suppressed := []
  expectedRoots := PMap.empty
  log := []

/-- A read of the list, and the operator's acknowledgement of the switch. -/
def readAndAck (i : Nat) : Request :=
  if i = 0 then .issues else .ack ⟨downIssue.issueKey, none⟩

/-- The read asks for the known keys before the operator acknowledges, and prunes after. -/
def pruneLate : List (Turn Answer) :=
  let quiet := Answer.quiet 2000 2
  let down := { quiet with fleet := [downIssue] }
  [(0, quiet), (0, quiet), (1, down), (1, quiet), (1, quiet), (1, quiet), (1, quiet), (1, quiet),
    (1, quiet), (0, quiet), (0, quiet), (0, quiet)]

def finalStore : IssueStore :=
  (pruneLate.foldl (Pool.step IssueCall.exec) (pool 15 { quietStore with log := [] } readAndAck)).store

theorem ack_pruned_at_once : ¬∀ pre, pre <+: pruneLate →
    Kept (pre.foldl (Pool.step IssueCall.exec)
      (pool 15 { quietStore with log := [] } readAndAck)).store := by
  intro hkept
  have hfinal : Kept finalStore := hkept pruneLate List.prefix_rfl
  obtain ⟨known, hlog⟩ : ∃ known, finalStore.log = [.hit ⟨none, 0⟩, .other, .other, .other, .other,
      .other, .other, .tracker known, .acked ⟨downIssue.issueKey, 2000, 2000, none, none⟩ 7] ++
      List.replicate 3 .other := ⟨_, rfl⟩
  have hafter : ∀ j event, 8 < j → finalStore.log[j]? = some event → event = .other := by
    intro j event hj hget
    rw [hlog, List.getElem?_append_right (Nat.succ_le_of_lt hj), List.getElem?_replicate] at hget
    split at hget
    · exact (Option.some.inj hget).symm
    · cases hget
  have hacked : finalStore.log[8]? = some (.acked ⟨downIssue.issueKey, 2000, 2000, none, none⟩ 7) := by
    rw [hlog]
    rfl
  have howed : Owed finalStore.log 8 ⟨downIssue.issueKey, 2000, 2000, none, none⟩ 7 := by
    refine ⟨hacked, fun j newer at' hj hget => ?_, fun j hj hget => ?_, ?_⟩
    · cases hafter j _ hj hget
    · cases hafter j _ hj hget
    · rintro ⟨later, known, hlt, hget, -⟩
      rcases Nat.lt_or_ge 8 later with hlater | hlater
      · cases hafter later _ hlater hget
      · obtain rfl : later = 8 := by omega
        rw [hacked] at hget
        cases hget
  have hfind : finalStore.acks.find downIssue.issueKey = none := rfl
  have := hfinal 8 _ 7 howed
  rw [hfind] at this
  cases this

end JaspyNexus.Routes.AckPruning

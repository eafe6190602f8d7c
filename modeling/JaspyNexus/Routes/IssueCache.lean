import Mathlib
import JaspyNexus.Routes.IssueSteps

/-! # The cached issue list

A change of the configuration invalidates the cached issue list before it is answered.
A derivation that is under way reads the configuration, and stores its snapshot some
steps later. `reads_reflect_iff` states when no read is served a snapshot that is older
than an answered change. -/

namespace JaspyNexus.Routes.IssueCache
open JaspyNexus.Lib JaspyNexus.Utilities.Issues JaspyNexus.Routes.Issues
open JaspyNexus.Models (IssueAck IssueAcks)

/-! ## What a read reflects -/

/-- The configuration was read after the change of that time. -/
def Reflects (source : ConfigRead) : Config → Nat → Prop
  | .suppressed, changedAt => changedAt < source.suppressed
  | .expectedRoots, changedAt => ∀ readAt, source.expectedRoots = some readAt → changedAt < readAt

/-- The cache has been invalidated after the change. -/
def Invalidated (log : List Event) (config : Config) (changedAt : Nat) : Prop :=
  ∃ i : Nat, log[i]? = some (.invalidated config changedAt)

/-- **Reads reflect what was answered before they started**, whether they are served the
cached snapshot or their own derivation. -/
structure ReadsReflect (log : List Event) : Prop where
  hit : ∀ (i j : Nat) config changedAt source, log[i]? = some (.answered config changedAt) →
    log[j]? = some (.hit source) → i < j → Reflects source config changedAt
  derived : ∀ (i j : Nat) config changedAt source startedAt,
    log[i]? = some (.answered config changedAt) →
    log[j]? = some (.derived source startedAt) → i < startedAt → Reflects source config changedAt

/-- So far, reads reflect what was answered, and a snapshot that is still valid reflects
what may be answered next. -/
structure Current (s : IssueStore) : Prop where
  reads : ReadsReflect s.log
  cached : ∀ cached, s.cached = some cached → cached.validUntil ≠ 0 →
    ∀ config changedAt, Invalidated s.log config changedAt → Reflects cached.source config changedAt

/-- A valid snapshot is stored only when the cache has not been invalidated, since its
derivation read the configuration, after a change that it does not reflect. -/
def StoresCurrent : {β : Type} → IssueCall β → Answer → IssueStore → Prop
  | _, .storeIssues _ ttlSecs source, e, s => e.time + ttlSecs ≠ 0 →
    ∀ config changedAt, Invalidated s.log config changedAt → Reflects source config changedAt
  | _, _, _, _ => True

/-! ## Among others -/

variable {s s' : IssueStore} {log log' : List Event} {config : Config} {changedAt startedAt : Nat}

theorem Invalidated.later (hpre : log <+: log') (h : Invalidated log config changedAt) :
    Invalidated log' config changedAt := by
  obtain ⟨i, hget⟩ := h
  exact ⟨i, Log.get_later hpre hget⟩

theorem Invalidated.concat {event : Event} : Invalidated (log ++ [event]) config changedAt ↔
    Invalidated log config changedAt ∨ event = .invalidated config changedAt := by
  constructor
  · rintro ⟨i, hget⟩
    rcases Log.get_concat_iff.mp hget with hget | ⟨-, hget⟩
    · exact .inl ⟨i, hget⟩
    · exact .inr hget
  · rintro (⟨i, hget⟩ | hevent)
    · exact ⟨i, Log.get_concat_iff.mpr (.inl hget)⟩
    · exact ⟨log.length, Log.get_concat_iff.mpr (.inr ⟨rfl, hevent⟩)⟩

/-- The configuration was read from that time on. -/
structure ReadFrom (source : ConfigRead) (startedAt : Nat) : Prop where
  suppressed : startedAt ≤ source.suppressed
  expectedRoots : ∀ readAt, source.expectedRoots = some readAt → startedAt ≤ readAt

/-- What is read from some time on reflects the changes before it. -/
theorem ReadFrom.reflects {source : ConfigRead} (h : ReadFrom source startedAt)
    (hlt : changedAt < startedAt) (config : Config) : Reflects source config changedAt := by
  cases config with
  | suppressed => exact hlt.trans_le h.suppressed
  | expectedRoots => exact fun readAt hread => hlt.trans_le (h.expectedRoots readAt hread)

/-- The log tells the order of a change, its invalidation and its answer, and of the
start of a read and its readings. -/
structure LogOk (log : List Event) : Prop where
  invalidated : ∀ (i : Nat) (config : Config) (changedAt : Nat),
    log[i]? = some (.invalidated config changedAt) → changedAt < i
  answered : ∀ (i : Nat) (config : Config) (changedAt : Nat),
    log[i]? = some (.answered config changedAt) → ∃ k, k < i ∧ log[k]? = some (.invalidated config changedAt)
  derived : ∀ (i : Nat) (source : ConfigRead) (startedAt : Nat),
    log[i]? = some (.derived source startedAt) → ReadFrom source startedAt

/-- A read that derives its own answer reflects what was answered before. -/
theorem LogOk.reads_derived (h : LogOk log) {i j : Nat} {source : ConfigRead}
    (hanswered : log[i]? = some (.answered config changedAt))
    (hderived : log[j]? = some (.derived source startedAt)) (hi : i < startedAt) :
    Reflects source config changedAt := by
  obtain ⟨k, hk, hget⟩ := h.answered i config changedAt hanswered
  have hchanged := h.invalidated k config changedAt hget
  exact (h.derived j source startedAt hderived).reflects (by omega) config

/-- What a request has done before a step of the log's order. -/
def May : {β : Type} → IssueStore → IssueCall β → Prop
  | _, s, .invalidateIssuesCache _ changedAt => changedAt < s.log.length
  | _, s, .answerChange config changedAt => Invalidated s.log config changedAt
  | _, _, .answerRead source startedAt => ReadFrom source startedAt
  | _, _, _ => True

theorem May.later {β : Type} {c : IssueCall β} (hpre : s.log <+: s'.log) (h : May s c) : May s' c := by
  cases c with
  | invalidateIssuesCache config changedAt => exact h.trans_le hpre.length_le
  | answerChange config changedAt => exact Invalidated.later hpre h
  | answerRead source startedAt => exact h
  | _ => trivial

/-- What a step logs about a change or a read is what it may. -/
theorem May.event {β : Type} {c : IssueCall β} {e : Answer} (hmay : May s c) :
    (∀ config changedAt, c.event e s = .invalidated config changedAt → changedAt < s.log.length) ∧
    (∀ config changedAt, c.event e s = .answered config changedAt →
      Invalidated s.log config changedAt) ∧
    ∀ source startedAt, c.event e s = .derived source startedAt → ReadFrom source startedAt := by
  cases c with
  | invalidateIssuesCache config changedAt | answerChange config changedAt | answerRead source startedAt =>
    refine ⟨fun _ _ hevent => ?_, fun _ _ hevent => ?_, fun _ _ hevent => ?_⟩ <;> cases hevent
    exact hmay
  | freshIssues =>
    rcases event_freshIssues e s with hother | ⟨cached, -, hhit⟩
    · simp [hother]
    · simp [hhit]
  | upsertAck ack boundAt => rcases event_upsertAck e s ack boundAt with hevent | hevent <;> simp [hevent]
  | deleteAck key deleter =>
    rcases event_deleteAck e s key deleter with hevent | hevent
    · simp [hevent]
    · cases deleter <;> simp [hevent, Deleter.event]
  | _ => refine ⟨fun _ _ hevent => ?_, fun _ _ hevent => ?_, fun _ _ hevent => ?_⟩ <;> cases hevent

theorem LogOk.step {β : Type} (c : IssueCall β) (e : Answer) (h : LogOk s.log) (hmay : May s c) :
    LogOk (IssueCall.exec β c e s).1.log := by
  obtain ⟨hinvalidated, hanswered, hderived⟩ := hmay.event (e := e)
  rw [exec_log]
  refine ⟨fun i config changedAt hget => ?_, fun i config changedAt hget => ?_,
    fun i source startedAt hget => ?_⟩
  · rcases Log.get_concat_iff.mp hget with hget | ⟨rfl, hevent⟩
    · exact h.invalidated i config changedAt hget
    · exact hinvalidated config changedAt hevent
  · rcases Log.get_concat_iff.mp hget with hget | ⟨rfl, hevent⟩
    · obtain ⟨k, hk, hget⟩ := h.answered i config changedAt hget
      exact ⟨k, hk, Log.get_concat_iff.mpr (.inl hget)⟩
    · obtain ⟨k, hget⟩ := hanswered config changedAt hevent
      exact ⟨k, Log.lt_length hget, Log.get_concat_iff.mpr (.inl hget)⟩
  · rcases Log.get_concat_iff.mp hget with hget | ⟨-, hevent⟩
    · exact h.derived i source startedAt hget
    · exact hderived source startedAt hevent

/-- **What a request relies on**: the log only grows, and tells the order of the steps. -/
def rely : Prog.Rely IssueCall.exec where
  wf s := LogOk s.log
  later s t := s.log <+: t.log
  may := May
  refl := later_refl
  trans := later_trans
  may_later hpre h := h.later hpre
  step_wf c e _ h hmay := h.step c e hmay
  step_later c e _ _ _ := exec_later c e _

/-! ## The requests -/

open Prog.Rely

/-- A time that has passed has passed after a step. -/
theorem le_exec {β : Type} (c : IssueCall β) (e : Answer) {time : Nat} (h : time ≤ s.log.length)
    (hst : s.log <+: s'.log) : time ≤ (IssueCall.exec β c e s').1.log.length :=
  (h.trans hst.length_le).trans (exec_later c e s').length_le

/-- A derivation reads the configuration after it starts. -/
theorem safe_collectIssues {post : IssueStore → Derivation → Prop} (hstart : startedAt ≤ s.log.length)
    (h : ∀ t derived, ReadFrom derived.source startedAt → post t derived) :
    rely.Safe post s collectIssues := by
  have hrest : ∀ (t : IssueStore) (stp : List DerivedIssue × Option Nat) devices,
      startedAt ≤ t.log.length → (∀ readAt, stp.2 = some readAt → startedAt ≤ readAt) →
      rely.Safe post t ((Prog.lift IssueCall.fleetIssues).bind fun poeAndLag =>
        (Prog.lift .loadSuppressedTypes).bind fun suppressed => .done
          { issues := (devices ++ stp.1 ++ poeAndLag).filter fun i => i.kind ∉ suppressed.1
            source := ⟨stp.2, suppressed.2⟩ }) := fun t stp devices ht hstp =>
    Safe.lift_bind trivial fun t' e' _ hst' => Safe.lift_bind trivial fun t'' e'' _ hst'' =>
      h _ _ ⟨(le_exec _ e' ht hst').trans hst''.length_le, hstp⟩
  refine Safe.lift_bind trivial fun t e _ hst => Safe.lift_bind trivial fun t' e' _ hst' => ?_
  have ht' := le_exec .stpTrees e' (le_exec .fleetIssues e hstart hst) hst'
  refine Safe.bind ?_
  dsimp only [IssueCall.exec] at ht' ⊢
  cases e'.trees with
  | none => exact hrest _ _ _ ht' nofun
  | some trees =>
    refine Safe.lift_bind trivial fun t'' e'' _ hst'' => hrest _ _ _ (le_exec _ e'' ht' hst'') ?_
    rintro readAt ⟨⟩
    exact ht'.trans hst''.length_le

/-- On a miss, the derivation starts after the cache was asked. -/
theorem safe_cachedTrackedIssues {post : IssueStore → List TrackedIssue → Prop}
    (h : ∀ t tracked, post t tracked) (ttlSecs : Nat) (s : IssueStore) :
    rely.Safe post s (cachedTrackedIssues ttlSecs) := by
  refine Safe.lift_bind trivial fun t e _ _ => ?_
  have ht := (exec_later .freshIssues e t).length_le
  split
  · exact h _ _
  · refine Safe.bind (safe_collectIssues ht fun _ derived hread => ?_)
    exact Safe.lift_bind trivial fun _ _ _ _ => Safe.lift_bind trivial fun _ _ _ _ =>
      Safe.lift_bind trivial fun _ _ _ _ => Safe.lift_bind hread fun _ _ _ _ => h _ _

theorem safe_deleteOrphansLoop (keys : (String → Bool) × Nat) (acks : List IssueAck) (removed : Nat)
    (s : IssueStore) : rely.Safe (fun _ _ => True) s (deleteOrphansLoop keys removed acks) := by
  induction acks generalizing removed s with
  | nil => trivial
  | cons ack rest ih =>
    unfold deleteOrphansLoop
    split
    · exact ih removed s
    · refine Safe.lift_bind trivial fun _ _ _ _ => ?_
      split
      · trivial
      · next n _ => exact ih (removed + n) _

theorem safe_issues (ttlSecs : Nat) (s : IssueStore) :
    rely.Safe (fun _ _ => True) s (Issues.issues ttlSecs) := by
  refine Safe.bind (safe_cachedTrackedIssues (fun _ _ => ?_) _ s)
  refine Safe.lift_bind trivial fun _ _ _ _ => Safe.lift_bind trivial fun _ _ _ _ => ?_
  refine Safe.bind (Safe.lift_bind trivial fun _ _ _ _ => ?_)
  exact (safe_deleteOrphansLoop _ _ 0 _).imp fun _ _ _ => trivial

theorem safe_deviceIssues (ttlSecs : Nat) (fqdn : String) (s : IssueStore) :
    rely.Safe (fun _ _ => True) s (deviceIssues ttlSecs fqdn) := by
  refine Safe.bind (safe_cachedTrackedIssues (fun _ _ => ?_) _ s)
  exact Safe.lift_bind trivial fun _ _ _ _ => trivial

theorem safe_issueScan (ttlSecs : Nat) (s : IssueStore) :
    rely.Safe (fun _ _ => True) s (issueScan ttlSecs) := by
  refine Safe.bind (safe_collectIssues le_rfl fun _ _ _ => Safe.lift_bind trivial fun _ _ _ _ => ?_)
  refine Safe.lift_bind trivial fun _ _ _ _ => ?_
  exact Safe.lift trivial fun _ _ _ _ => trivial

theorem safe_issueAck (req : IssueAckRequest) (s : IssueStore) :
    rely.Safe (fun _ _ => True) s (issueAck req) := by
  refine Safe.bind (safe_collectIssues le_rfl fun _ _ _ => Safe.lift_bind trivial fun _ _ _ _ =>
    Safe.lift_bind trivial fun _ _ _ _ => ?_)
  split
  · trivial
  · refine Safe.lift_bind trivial fun _ _ _ _ => ?_
    split <;> trivial

/-- After a change: the cache is invalidated, and the answer waits for that. -/
theorem safe_change {α : Type} {p : Prog IssueCall α} {post : IssueStore → α → Prop}
    (hchanged : changedAt < s.log.length)
    (h : ∀ t, Invalidated t.log config changedAt → rely.Safe post t p) :
    rely.Safe post s ((Prog.lift (.invalidateIssuesCache config changedAt)).bind fun _ => p) :=
  Safe.lift_bind hchanged fun _ _ _ _ => h _ (Invalidated.concat.mpr (.inr rfl))

theorem safe_answerChange {α : Type} {a : α} (h : Invalidated s.log config changedAt) :
    rely.Safe (fun _ _ => True) s ((Prog.lift (.answerChange config changedAt)).bind fun _ => .done a) :=
  Safe.lift_bind h fun _ _ _ _ => trivial

theorem safe_persistSuppressed (set : List String) (s : IssueStore) :
    rely.Safe (fun _ _ => True) s (persistSuppressed set) := by
  refine Safe.lift_bind trivial fun t e _ _ => ?_
  cases hw : e.writeError with
  | some error => simp only [IssueCall.exec, hw]; trivial
  | none =>
    simp only [IssueCall.exec, hw]
    refine safe_change (by simp [IssueStore.logged]) fun t ht => Safe.bind ?_
    exact Safe.lift_bind trivial fun t' e' _ hst =>
      safe_answerChange (ht.later (hst.trans (exec_later .loadSuppressedTypes e' t')))

theorem safe_stpExpectedRootAdd (req : StpExpectedRootRequest) (s : IssueStore) :
    rely.Safe (fun _ _ => True) s (stpExpectedRootAdd req) := by
  refine Safe.lift_bind trivial fun _ _ _ _ => ?_
  split
  · trivial
  · refine Safe.lift_bind trivial fun _ _ _ _ => Safe.lift_bind trivial fun _ e' _ _ => ?_
    cases hw : e'.writeError with
    | some error => simp only [IssueCall.exec, hw]; trivial
    | none =>
      simp only [IssueCall.exec, hw]
      exact safe_change (by simp [IssueStore.logged]) fun _ ht => safe_answerChange ht

theorem safe_stpExpectedRootRemove (req : StpExpectedRootRequest) (s : IssueStore) :
    rely.Safe (fun _ _ => True) s (stpExpectedRootRemove req) := by
  refine Safe.lift_bind trivial fun _ e _ _ => ?_
  cases hw : e.writeError with
  | some error => simp only [IssueCall.exec, hw]; trivial
  | none =>
    simp only [IssueCall.exec, hw]
    exact safe_change (by simp [IssueStore.logged]) fun _ ht => safe_answerChange ht

/-- **Every request** invalidates before it answers, and derives after it starts. -/
theorem safe_prog (ttlSecs : Nat) (request : Request) (s : IssueStore) :
    rely.Safe (fun _ _ => True) s (request.prog ttlSecs) := by
  cases request with
  | issues => exact Safe.bind (safe_issues ttlSecs s)
  | deviceIssues fqdn => exact Safe.bind (safe_deviceIssues ttlSecs fqdn s)
  | scan => exact safe_issueScan ttlSecs s
  | ack req => exact Safe.bind (safe_issueAck req s)
  | unack req =>
    refine Safe.bind (Safe.lift_bind trivial fun _ _ _ _ => ?_)
    split <;> trivial
  | suppress kind =>
    refine Safe.bind ?_
    unfold issueSuppress
    split
    · trivial
    · exact Safe.lift_bind trivial fun _ _ _ _ => safe_persistSuppressed _ _
  | unsuppress kind =>
    exact Safe.bind (Safe.lift_bind trivial fun _ _ _ _ => safe_persistSuppressed _ _)
  | expectRoot req => exact Safe.bind (safe_stpExpectedRootAdd req s)
  | removeExpectedRoot req => exact Safe.bind (safe_stpExpectedRootRemove req s)

/-! ## The interleaving -/

/-- Reads reflect what they should after one more step, if it is no hit on a snapshot
that misses a change. -/
theorem ReadsReflect.concat {event : Event} (h : ReadsReflect log) (hlog : LogOk (log ++ [event]))
    (hhit : ∀ source, event = .hit source → ∀ config changedAt,
      Invalidated log config changedAt → Reflects source config changedAt) :
    ReadsReflect (log ++ [event]) := by
  refine ⟨fun i j config changedAt source hanswered hget hij => ?_,
    fun i j config changedAt source startedAt hanswered hget hi => hlog.reads_derived hanswered hget hi⟩
  have hpre : log <+: log ++ [event] := List.prefix_append _ _
  rcases Log.get_concat_iff.mp hget with hget | ⟨rfl, hevent⟩
  · have hi : i < log.length := hij.trans (Log.lt_length hget)
    exact h.hit i j config changedAt source (Log.get_earlier hpre hi hanswered) hget hij
  · obtain ⟨k, hk, hinvalidated⟩ := hlog.answered i config changedAt hanswered
    exact hhit source hevent config changedAt ⟨k, Log.get_earlier hpre (hk.trans hij) hinvalidated⟩

/-- A step that leaves the cache as it is, and is no invalidation. -/
theorem Current.concat {event : Event} (h : Current s) (hlog : s'.log = s.log ++ [event])
    (hok : LogOk s'.log) (hcached : s'.cached = s.cached)
    (hevent : ∀ config changedAt, event ≠ .invalidated config changedAt)
    (hhit : ∀ source, event = .hit source →
      ∃ cached, s.cached = some cached ∧ cached.validUntil ≠ 0 ∧ cached.source = source) :
    Current s' := by
  rw [hlog] at hok
  refine ⟨?_, fun cached hget hvalid config changedAt hinvalidated => ?_⟩
  · rw [hlog]
    refine h.reads.concat hok fun source hev config changedAt hinvalidated => ?_
    obtain ⟨cached, hget, hvalid, rfl⟩ := hhit source hev
    exact h.cached cached hget hvalid config changedAt hinvalidated
  · rw [hlog] at hinvalidated
    rw [hcached] at hget
    have hbefore := (Invalidated.concat.mp hinvalidated).resolve_right (hevent config changedAt)
    exact h.cached cached hget hvalid config changedAt hbefore

/-- What is fresh is valid. -/
theorem hit_cached {e : Answer} {source : ConfigRead}
    (h : IssueCall.freshIssues.event e s = .hit source) :
    ∃ cached, s.cached = some cached ∧ cached.validUntil ≠ 0 ∧ cached.source = source := by
  simp only [IssueCall.event] at h
  cases hfresh : s.freshIssues e.time with
  | none => rw [hfresh] at h; cases h
  | some cached =>
    rw [hfresh] at h
    cases h
    obtain ⟨hget, htime⟩ := Option.filter_eq_some_iff.mp hfresh
    have hlt : e.time < cached.validUntil := by simpa using htime
    exact ⟨cached, hget, by omega, rfl⟩

/-- Each step keeps reads current exactly when it stores a current snapshot. -/
theorem current_step_iff {β : Type} (c : IssueCall β) (e : Answer) (s : IssueStore)
    (hwf : LogOk s.log) (hmay : May s c) (h : Current s) :
    Current (IssueCall.exec β c e s).1 ↔ StoresCurrent c e s := by
  have hok := hwf.step c e hmay
  cases c with
  | storeIssues issues ttlSecs source =>
    refine ⟨fun hcurrent hvalid config changedAt hinvalidated => ?_, fun hstores => ?_⟩
    · exact hcurrent.cached _ rfl hvalid config changedAt (Invalidated.concat.mpr (.inl hinvalidated))
    · refine ⟨h.reads.concat hok (fun _ hevent => by cases hevent), fun cached hcached => ?_⟩
      cases hcached
      intro hvalid config changedAt hinvalidated
      have hbefore := (Invalidated.concat.mp hinvalidated).resolve_right fun hevent => by cases hevent
      exact hstores hvalid config changedAt hbefore
  | invalidateIssuesCache config changedAt =>
    refine iff_of_true ⟨h.reads.concat hok (fun _ hevent => by cases hevent), fun cached hcached hvalid => ?_⟩ trivial
    obtain ⟨before, -, rfl⟩ := Option.map_eq_some_iff.mp hcached
    exact absurd rfl hvalid
  | freshIssues =>
    refine iff_of_true (h.concat (exec_log _ e s) hok rfl (fun _ _ hevent => ?_) fun _ => hit_cached) trivial
    rcases event_freshIssues e s with hother | ⟨cached, -, hhit⟩
    · rw [hother] at hevent
      cases hevent
    · rw [hhit] at hevent
      cases hevent
  | upsertAck ack boundAt =>
    refine iff_of_true (h.concat (exec_log _ e s) hok ?_ (fun _ _ hevent => ?_) fun _ hevent => ?_) trivial
    · simp only [IssueCall.exec]
      cases e.writeError <;> rfl
    all_goals
      rcases event_upsertAck e s ack boundAt with hstep | hstep <;> rw [hstep] at hevent <;> cases hevent
  | deleteAck key deleter =>
    refine iff_of_true (h.concat (exec_log _ e s) hok ?_ (fun _ _ hevent => ?_) fun _ hevent => ?_) trivial
    · simp only [IssueCall.exec]
      cases e.writeError <;> rfl
    all_goals
      rcases event_deleteAck e s key deleter with hstep | hstep <;> rw [hstep] at hevent
      · cases hevent
      · cases deleter <;> cases hevent
  | setSuppressed | upsertExpectedRoot | deleteExpectedRoot =>
    refine iff_of_true (h.concat (exec_log _ e s) hok ?_ (fun _ _ hevent => ?_) fun _ hevent => ?_) trivial
    · simp only [IssueCall.exec]
      cases e.writeError <;> rfl
    all_goals cases hevent
  | _ =>
    refine iff_of_true (h.concat (exec_log _ e s) hok rfl (fun _ _ hevent => ?_) fun _ hevent => ?_) trivial
    all_goals cases hevent

/-- **A read reflects every change that was answered before it started**, in every
interleaving of requests and scans, and the cached snapshot those that may be answered
next, exactly when no derivation stores its snapshot after a change that it has missed
has invalidated the cache. -/
theorem reads_reflect_iff (ttlSecs : Nat) (s : IssueStore) (requests : Nat → Request)
    (turns : List (Turn Answer)) :
    Runs.Allowed (Pool.step IssueCall.exec) (Pool.Meets StoresCurrent)
        (pool ttlSecs { s with log := [] } requests) turns ↔
      ∀ pre, pre <+: turns →
        Current (pre.foldl (Pool.step IssueCall.exec) (pool ttlSecs { s with log := [] } requests)).store := by
  have hok : LogOk ([] : List Event) :=
    ⟨fun i config changedAt hget => by simp at hget, fun i config changedAt hget => by simp at hget,
      fun i source startedAt hget => by simp at hget⟩
  have hcurrent : Current { s with log := [] } := by
    refine ⟨⟨fun i j config changedAt source hget => by simp at hget,
      fun i j config changedAt source startedAt hget => by simp at hget⟩, ?_⟩
    rintro cached - - config changedAt ⟨i, hget⟩
    simp at hget
  have hsafe : Pool.AllSafe rely (pool ttlSecs { s with log := [] } requests) :=
    ⟨hok, fun i => safe_prog ttlSecs (requests i) _⟩
  exact Pool.run_iff current_step_iff hsafe hcurrent turns

/-- A process that has just started. -/
def startedStore : IssueStore where
  tracker := IssueTracker.new 60000
  acks := .empty
  cached := none
  suppressed := []
  expectedRoots := PMap.empty
  log := []

/-- A round of the scan, the operator's suppression of down devices, and a read. -/
def scanSuppressRead (i : Nat) : Request :=
  if i = 0 then .scan else if i = 1 then .suppress downIssue.kind else .issues

/-- The scan derives its issues before the suppression and publishes them after its answer;
then the list is read. -/
def publishLate : List (Turn Answer) :=
  let down := { Answer.quiet 2000 2 with fleet := [downIssue] }
  List.replicate 4 (0, down) ++ List.replicate 5 (1, down) ++ List.replicate 3 (0, down) ++ [(2, down)]

theorem suppression_not_shown : ¬∀ pre, pre <+: publishLate →
    ReadsReflect (pre.foldl (Pool.step IssueCall.exec)
      (pool 15 { startedStore with log := [] } scanSuppressRead)).store.log := by
  intro hreflect
  have hfinal := hreflect publishLate List.prefix_rfl
  -- the suppressed types were read at 3, changed at 5, answered at 8 and served at 12
  have hlt : 5 < 3 := hfinal.hit 8 12 .suppressed 5 ⟨none, 3⟩ rfl rfl (by omega)
  omega

end JaspyNexus.Routes.IssueCache

import Mathlib
import JaspyNexus.Collectors.PingerAgreement

/-! # The pinger and the polling switch

The workers of `pinger.rs` under the switch of `collectors/mod.rs`. A worker looks at the
switch at the start of a tick, and drops its accounting where it finds it off. What it
reconciles on the next tick starts from the state that is shown, which is the one from
before the pause: only a device without a state is reported afresh. -/

namespace JaspyNexus.Collectors.Pinger
open JaspyNexus.Lib JaspyNexus.Models JaspyNexus.Utilities

/-! ## The switch -/

structure Switched where
  sys : System
  /-- `PollingControl::enabled` -/
  enabled : Bool
  /-- the workers that have found the switch on and not loaded their devices yet -/
  looked : Nat → Bool
  /-- the workers that have completed no tick since the last resume -/
  due : Nat → Bool
  /-- the workers whose reports are those of their first tick since a resume -/
  telling : Nat → Bool

def Switched.start (db : Database) : Switched where
  sys := System.start db
  enabled := true
  looked := fun _ => false
  due := fun _ => false
  telling := fun _ => false

inductive SwitchTurn where
  /-- `PollingControl::set` -/
  | set (enabled : Bool)
  /-- a worker looks at the switch, at the start of a tick -/
  | look (k : Nat)
  /-- any other turn; a worker loads its devices only after it has looked -/
  | turn (turn : Turn)

/-- The replies of a tick that is completed: there are devices, and the round is sent. -/
def completed (round : Round) (shard : List String) : Option (PMap String Bool) :=
  if shard = [] then none else round.responded shard

/-- A round of a worker: a completed one is the first since a resume if one was due. -/
def Switched.noteRound (s : Switched) (k : Nat) (round : Round) : Switched :=
  match (s.sys.worker k).phase with
  | .seeding shard [] =>
    match completed round shard with
    | some _ => { s with
        due := Function.update s.due k false
        telling := Function.update s.telling k (s.due k) }
    | none => s
  | _ => s

def Switched.step (shardOf : String → Nat) (s : Switched) : SwitchTurn → Switched
  | .set enabled => { s with
      enabled := enabled
      due := if enabled && !s.enabled then fun _ => true else s.due }
  | .look k =>
    if (s.sys.worker k).phase = .idle ∧ s.looked k = false then
      if s.enabled then { s with looked := Function.update s.looked k true }
      else { s with sys := s.sys.step shardOf (.worker k .pause) }
    else s
  | .turn (.worker _ .pause) => s
  | .turn (.worker k (.load answers order)) =>
    if s.looked k then { s with
      sys := s.sys.step shardOf (.worker k (.load answers order))
      looked := Function.update s.looked k false }
    else s
  | .turn (.worker k (.ping round)) =>
    { s.noteRound k round with sys := s.sys.step shardOf (.worker k (.ping round)) }
  | .turn turn => { s with sys := s.sys.step shardOf turn }

/-! ## The first tick after a resume -/

/-- **What the first completed tick after a resume does**: it reports every device of the
shard as it is observed, and each report is shown. -/
def Switched.Afresh (shardOf : String → Nat) (s : Switched) : SwitchTurn → Prop
  | .turn (.worker k (.ping round)) => s.due k = true → ∀ shard responded,
      (s.sys.worker k).phase = .seeding shard [] → completed round shard = some responded →
      ((s.step shardOf (.turn (.worker k (.ping round)))).sys.worker k).pending =
        shard.map fun f => (f, (responded f).getD false)
  | .turn (.worker k (.report pool lock neighbors now)) => s.telling k = true → ∀ f b reports,
      (s.sys.worker k).phase = .reporting ((f, b) :: reports) →
      ((s.step shardOf (.turn (.worker k (.report pool lock neighbors now)))).sys.imds.devices f).bind
        DeviceMetrics.up = some b
  | _ => True

/-- No state is known of the device that a worker reconciles next: the entry it keeps has
none, and a new one finds none shown. -/
def Worker.NextUnknown (imds : Imds) (lock : Bool) (w : Worker) : Prop :=
  ∀ shard f todo, w.phase = .seeding shard (f :: todo) → match w.accounting f with
    | some info => info.responsive = none
    | none => lock = true → (imds.devices f).bind DeviceMetrics.up = none

/-- **When it does so**: no state is known of a device where a worker that is to complete its
first tick since a resume reconciles it, or has reconciled it before the resume in the tick
under way; and a report of such a tick goes through, or says what is shown. -/
def Switched.Unknown (s : Switched) : SwitchTurn → Prop
  | .set enabled => (enabled && !s.enabled) = true → ∀ k shard todo,
      (s.sys.worker k).phase = .seeding shard todo → ∀ f ∈ shard, f ∉ todo →
      ∀ info, (s.sys.worker k).accounting f = some info → info.responsive = none
  | .turn (.worker k (.seed lock)) => s.due k = true → (s.sys.worker k).NextUnknown s.sys.imds lock
  | .turn (.worker k (.report pool lock _ _)) => s.telling k = true → (pool && lock) = false →
      ∀ f b reports, (s.sys.worker k).phase = .reporting ((f, b) :: reports) →
      (s.sys.imds.devices f).bind DeviceMetrics.up = some b
  | _ => True

/-! ## What is reconciled -/

/-- What a worker has reconciled in the tick under way is in its accounting, and holds no
state while its first tick is due. -/
def Worker.Fresh (due : Bool) (w : Worker) : Prop :=
  ∀ shard todo, w.phase = .seeding shard todo → ∀ f ∈ shard, f ∉ todo →
    ∃ info, w.accounting f = some info ∧ (due = true → info.responsive = none)

section Worker
variable {shardOf : String → Nat} {k : Nat} {db : Database} {imds : Imds} {w : Worker} {due : Bool}

/-- A device that is reconciled is in the accounting afterwards. -/
theorem seedDevice_self (imds : Imds) (lock : Bool) (accounting : Accounting) (f : String) :
    ∃ info, seedDevice imds lock accounting f f = some info ∧
      ((match accounting f with
        | some info => info.responsive = none
        | none => lock = true → (imds.devices f).bind DeviceMetrics.up = none) →
      info.responsive = none) := by
  unfold seedDevice
  cases hseen : accounting f with
  | some info => exact ⟨info, hseen, id⟩
  | none =>
    refine ⟨_, PMap.insert_self .., fun hnone => ?_⟩
    cases lock with
    | false => rfl
    | true => exact hnone rfl

/-- The others stay as they are. -/
theorem seedDevice_of_ne (lock : Bool) (accounting : Accounting) {f fqdn : String} (hne : f ≠ fqdn) :
    seedDevice imds lock accounting fqdn f = accounting f := by
  unfold seedDevice
  cases accounting fqdn with
  | some info => rfl
  | none => exact PMap.insert_of_ne _ _ hne

/-- A turn that leaves no devices to reconcile leaves nothing to hold. -/
theorem fresh_of_phase (h : ∀ shard todo, w.phase ≠ .seeding shard todo) : w.Fresh due :=
  fun shard todo hphase => absurd hphase (h shard todo)

/-- **One step of a worker.** -/
theorem Worker.Fresh.step (hw : w.Fresh due) (turn : WorkerTurn)
    (hseed : ∀ lock, turn = .seed lock → due = true → w.NextUnknown imds lock) :
    (w.step shardOf k db imds turn).2.Fresh due := by
  unfold Worker.step
  split
  next hphase => exact fresh_of_phase (by simp [hphase])
  next answers order hphase =>
    intro shard todo hs f hf hnot
    cases hs
    exact absurd hf hnot
  next shard fqdn todo lock hphase =>
    intro shard' todo' hs f hf hnot
    cases hs
    dsimp only
    by_cases hne : f = fqdn
    · subst hne
      obtain ⟨info, hinfo, hnone⟩ := seedDevice_self imds lock w.accounting f
      exact ⟨info, hinfo, fun hdue => hnone (hseed lock rfl hdue _ _ _ hphase)⟩
    · rw [seedDevice_of_ne lock w.accounting hne]
      exact hw _ _ hphase f hf (by simp [hne, hnot])
  next shard round hphase =>
    split
    next responded hround => exact fresh_of_phase (by simp)
    next hround => exact fresh_of_phase (by simp)
  next fqdn up reports pool lock neighbors now hphase => exact fresh_of_phase (by simp)
  next hphase => exact fresh_of_phase (by simp)
  next => exact hw

/-- A device of which nothing is known is reported as it is observed. -/
theorem advanceDevice_unknown (responded : PMap String Bool) {st : Accounting × List (String × Bool)}
    {f : String} {info : PingAccountingInfo} (h : st.1 f = some info) (hnone : info.responsive = none) :
    (advanceDevice responded st f).2 = st.2 ++ [(f, (responded f).getD false)] ∧
      ∀ g, g ≠ f → (advanceDevice responded st f).1 g = st.1 g := by
  unfold advanceDevice advanceHysteresis
  rw [h]
  dsimp only
  rw [hnone]
  exact ⟨rfl, fun g hne => PMap.insert_of_ne _ _ hne⟩

/-- **A round over devices of which nothing is known reports them all.** -/
theorem advanceShard_unknown {accounting : Accounting} {shard : List String} (hnd : shard.Nodup)
    (responded : PMap String Bool)
    (h : ∀ f ∈ shard, ∃ info, accounting f = some info ∧ info.responsive = none) :
    (advanceShard accounting shard responded).2 = shard.map fun f => (f, (responded f).getD false) := by
  have hgeneral : ∀ (shard : List String) (st : Accounting × List (String × Bool)), shard.Nodup →
      (∀ f ∈ shard, ∃ info, st.1 f = some info ∧ info.responsive = none) →
      (shard.foldl (advanceDevice responded) st).2 =
        st.2 ++ shard.map fun f => (f, (responded f).getD false) := by
    intro shard
    induction shard with
    | nil => exact fun st _ _ => (List.append_nil _).symm
    | cons f rest ih =>
      intro st hnd hunknown
      obtain ⟨hnew, hnd⟩ := List.nodup_cons.mp hnd
      obtain ⟨info, hinfo, hnone⟩ := hunknown f List.mem_cons_self
      obtain ⟨hreport, hothers⟩ := advanceDevice_unknown responded hinfo hnone
      rw [List.foldl_cons, ih _ hnd ?_, hreport, List.append_assoc]
      · rfl
      · intro g hg
        rw [hothers g fun heq => hnew (heq ▸ hg)]
        exact hunknown g (List.mem_cons_of_mem _ hg)
  exact hgeneral shard (accounting, []) hnd h

end Worker

/-! ## Runs -/

section Switched
variable {shardOf : String → Nat} {s : Switched}

/-- What holds at every turn of a run. -/
structure Switched.Ok (shardOf : String → Nat) (s : Switched) : Prop where
  wf : s.sys.Wf shardOf
  fresh : ∀ k, (s.sys.worker k).Fresh (s.due k)

theorem start_ok (db : Database) : (Switched.start db).Ok shardOf :=
  ⟨start_wf shardOf db, fun _ => fresh_of_phase (by simp [Switched.start, System.start])⟩

/-- A turn of the system moves one worker at most. -/
theorem fresh_step {sys : System} {due : Nat → Bool} (h : ∀ k, (sys.worker k).Fresh (due k)) (turn : Turn)
    (hseed : ∀ k lock, turn = .worker k (.seed lock) → due k = true →
      (sys.worker k).NextUnknown sys.imds lock) (k : Nat) :
    ((sys.step shardOf turn).worker k).Fresh (due k) := by
  cases turn with
  | edit db => exact h k
  | readDevices answers =>
    dsimp only [System.step]
    split
    next => exact h k
    next => split <;> exact h k
  | applyRefresh rows lock now =>
    dsimp only [System.step]
    split <;> exact h k
  | interfaces cfg remote imr now => exact h k
  | worker j turn =>
    dsimp only [System.step]
    by_cases hk : k = j
    · subst hk
      rw [Function.update_self]
      exact (h k).step turn fun lock hturn hdue => hseed k lock (by rw [hturn]) hdue
    · rw [Function.update_of_ne hk]
      exact h k

/-- A worker that is not due any more has nothing to keep. -/
theorem Worker.Fresh.relax {due due' : Bool} {w : Worker} (h : w.Fresh due) (hdue : due' = true → due = true) :
    w.Fresh due' := by
  intro shard todo hphase f hf hnot
  obtain ⟨info, hinfo, hnone⟩ := h shard todo hphase f hf hnot
  exact ⟨info, hinfo, fun hnow => hnone (hdue hnow)⟩

theorem noteRound_due (s : Switched) (k : Nat) (round : Round) (j : Nat)
    (h : (s.noteRound k round).due j = true) : s.due j = true := by
  unfold Switched.noteRound at h
  split at h
  next =>
    split at h
    next =>
      dsimp only at h
      by_cases hj : j = k
      · rw [hj, Function.update_self] at h
        cases h
      · rwa [Function.update_of_ne hj] at h
    next => exact h
  next => exact h

/-- **One turn** keeps it, where nothing is known. -/
theorem Switched.Ok.step (hs : s.Ok shardOf) (turn : SwitchTurn) (h : s.Unknown turn) :
    (s.step shardOf turn).Ok shardOf := by
  have hsystem : ∀ turn, (∀ k lock, turn ≠ .worker k (.seed lock)) →
      (∀ k, ((s.sys.step shardOf turn).worker k).Fresh (s.due k)) := fun turn hturn =>
    fresh_step hs.fresh turn fun k lock he => absurd he (hturn k lock)
  unfold Switched.step
  split
  next enabled =>
    refine ⟨hs.wf, fun k => ?_⟩
    dsimp only
    split
    next hresume =>
      -- a tick under way becomes the first one
      intro shard todo hphase f hf hnot
      obtain ⟨info, hinfo, -⟩ := hs.fresh k shard todo hphase f hf hnot
      exact ⟨info, hinfo, fun _ => h hresume k shard todo hphase f hf hnot info hinfo⟩
    next => exact hs.fresh k
  next k =>
    split
    next =>
      split
      next => exact ⟨hs.wf, hs.fresh⟩
      next =>
        exact ⟨step_wf s.sys (.worker k .pause) hs.wf, hsystem (.worker k .pause) (by simp)⟩
    next => exact hs
  next => exact hs
  next k answers order =>
    split
    next =>
      exact ⟨step_wf s.sys (.worker k (.load answers order)) hs.wf,
        hsystem (.worker k (.load answers order)) (by simp)⟩
    next => exact hs
  next k round =>
    refine ⟨step_wf s.sys (.worker k (.ping round)) hs.wf, fun j => ?_⟩
    exact (hsystem (.worker k (.ping round)) (by simp) j).relax (noteRound_due s k round j)
  next turn _ _ _ =>
    refine ⟨step_wf _ _ hs.wf, fresh_step hs.fresh turn fun k lock hturn hdue => ?_⟩
    subst hturn
    exact h hdue

/-- **What the first tick does, where nothing is known.** -/
theorem Switched.Ok.afresh (hs : s.Ok shardOf) (turn : SwitchTurn) (h : s.Unknown turn) :
    s.Afresh shardOf turn := by
  unfold Switched.Afresh
  split
  next k round =>
    intro hdue shard responded hphase hcompleted
    have hround : round.responded shard = some responded := by
      unfold completed at hcompleted
      split at hcompleted
      next => cases hcompleted
      next => exact hcompleted
    have hunknown : ∀ f ∈ shard, ∃ info, (s.sys.worker k).accounting f = some info ∧
        info.responsive = none := by
      intro f hf
      obtain ⟨info, hinfo, hnone⟩ := hs.fresh k shard [] hphase f hf (by simp)
      exact ⟨info, hinfo, hnone hdue⟩
    have hnd := ((hs.wf k).shard shard [] hphase).1
    show ((Function.update s.sys.worker k _) k).pending = _
    rw [Function.update_self]
    unfold Worker.step
    rw [hphase]
    dsimp only
    rw [hround]
    exact advanceShard_unknown hnd responded hunknown
  next k pool lock neighbors now =>
    intro htelling f b reports hphase
    show (((s.sys.worker k).step shardOf k s.sys.db s.sys.imds (.report pool lock neighbors now)).1.devices
      f).bind DeviceMetrics.up = some b
    unfold Worker.step
    rw [hphase]
    dsimp only
    split
    next =>
      rw [show (s.sys.imds.reportDevice neighbors ⟨f, b⟩ now).1.devices f = some _ from PMap.insert_self ..]
      rfl
    next hfail => exact h htelling (by simpa using hfail) f b reports hphase
  next => trivial

/-- **The first tick after a resume reports every device afresh**, throughout a run whose turns
know nothing. -/
theorem run_afresh (db : Database) {turns : List SwitchTurn}
    (h : Runs.Allowed (Switched.step shardOf) Switched.Unknown (Switched.start db) turns) :
    Runs.Allowed (Switched.step shardOf) (Switched.Afresh shardOf) (Switched.start db) turns :=
  Runs.Allowed.imp (Switched.Ok shardOf) (fun _ turn hs hok => hs.step turn hok)
    (fun _ turn hs hok => hs.afresh turn hok) (start_ok db) h

/-- A pause that the worker sees, and the tick after the resume up to its round. -/
def pauseAndResume (answers : Answers) : List SwitchTurn :=
  [.set false, .look 0, .set true, .look 0, .turn (.worker 0 (.load answers fun _ => 0)),
    .turn (.worker 0 (.seed true))]

/-- The device has an entry and no state yet; it answers after the pause. -/
def firstSeen : List SwitchTurn :=
  let answers : Answers := ⟨true, true, fun _ => true⟩
  [.turn (.readDevices answers), .turn (.applyRefresh (fun _ => []) true 1000)] ++
  pauseAndResume answers ++
  [.turn (.worker 0 (.ping ⟨fun _ => some "10.0.0.1", some [⟨"10.0.0.1", true⟩]⟩)),
    .turn (.worker 0 (.report true true none 2000)), .turn (.worker 0 .finish)]

theorem firstSeen_afresh : Runs.Allowed (Switched.step fun _ => 0) (Switched.Afresh fun _ => 0)
    (Switched.start oneSwitch) firstSeen := by
  -- no tick is under way at the resume
  have hresume : ((firstSeen.take 4).foldl (Switched.step fun _ => 0)
      (Switched.start oneSwitch)).Unknown (.set true) := by
    intro _ k shard todo hphase
    have hidle : Phase.idle = .seeding shard todo := by
      cases k with
      | zero => exact Eq.trans (by decide +kernel) hphase
      | succ k => exact hphase
    cases hidle
  have hseed : ((firstSeen.take 7).foldl (Switched.step fun _ => 0)
      (Switched.start oneSwitch)).Unknown (.turn (.worker 0 (.seed true))) := by
    intro _ shard f todo hphase
    have hseeding : Phase.seeding ["sw1.lan"] ["sw1.lan"] = .seeding shard (f :: todo) :=
      Eq.trans (by decide +kernel) hphase
    cases hseeding
    exact fun _ => by decide +kernel
  exact run_afresh oneSwitch ⟨trivial, trivial, (fun h => by cases h), trivial, hresume, trivial, trivial,
    hseed, trivial, (fun _ hfail => by cases hfail), trivial, trivial⟩

/-- The device is shown up, and does not answer after the pause. -/
def downInPause : List SwitchTurn :=
  let answers : Answers := ⟨true, true, fun _ => true⟩
  [.turn (.readDevices answers), .turn (.applyRefresh (fun _ => []) true 1000), .look 0,
    .turn (.worker 0 (.load answers fun _ => 0)), .turn (.worker 0 (.seed true)),
    .turn (.worker 0 (.ping ⟨fun _ => some "10.0.0.1", some [⟨"10.0.0.1", true⟩]⟩)),
    .turn (.worker 0 (.report true true none 2000)), .turn (.worker 0 .finish)] ++
  pauseAndResume answers

/-- The first tick after the resume reports nothing, and the state from before is shown. -/
theorem downInPause_not_reported :
    let unanswered : Round := ⟨fun _ => some "10.0.0.1", some [⟨"10.0.0.1", false⟩]⟩
    let s := downInPause.foldl (Switched.step fun _ => 0) (Switched.start oneSwitch)
    let after := s.step (fun _ => 0) (.turn (.worker 0 (.ping unanswered)))
    s.due 0 = true ∧ (s.sys.worker 0).phase = .seeding ["sw1.lan"] [] ∧
    (after.sys.worker 0).phase = .reporting [] ∧
    (after.sys.imds.devices "sw1.lan").bind DeviceMetrics.up = some true ∧
    ¬ Runs.Allowed (Switched.step fun _ => 0) (Switched.Afresh fun _ => 0) (Switched.start oneSwitch)
      (downInPause ++ [.turn (.worker 0 (.ping unanswered))]) := by
  intro unanswered s after
  have hdue : s.due 0 = true := by decide +kernel
  have hphase : (s.sys.worker 0).phase = .seeding ["sw1.lan"] [] := by decide +kernel
  have hafter : (after.sys.worker 0).phase = .reporting [] := by decide +kernel
  refine ⟨hdue, hphase, hafter, by decide +kernel, fun hall => ?_⟩
  have hafresh := (Runs.Allowed.append.mp hall).2.1
  have hreports := hafresh hdue ["sw1.lan"] _ hphase rfl
  have hpending : (after.sys.worker 0).pending = [] := by
    unfold Worker.pending
    rw [hafter]
  rw [show (after.sys.worker 0).pending = _ from hreports] at hpending
  cases hpending

end Switched

end JaspyNexus.Collectors.Pinger

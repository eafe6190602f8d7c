import Mathlib
import JaspyNexus.Lib.Edges
import JaspyNexus.Utilities.ImdsReports

/-! # State changes of an interface

The events, the entry and the health history of an interface tell one story. The
up/down state and the speed are signals that accepted reports read: the entry
holds the last reading, the events are the edges of the readings, and the health
history has one entry for each edge, until its window has passed. -/

namespace JaspyNexus.Utilities.ImdsReports
open JaspyNexus.Lib JaspyNexus.Lib.Edges JaspyNexus.Models JaspyNexus.Utilities.Health

/-! ## Signals -/

/-- A state of an interface: where it is stored, reported, published and recorded. -/
structure Signal (α β : Type) where
  stored : InterfaceMetrics → Option α
  reported : InterfaceReport → Option α
  published : Event → Option (α × α)
  recorded : InterfaceHealth → List β
  entry : Nat → α × α → β
  time : β → Nat

def upSignal : Signal Bool FlapEvent where
  stored m := m.up
  reported r := r.up
  published
    | .interfaceUpDown _ _ _ _ old new => some (old, new)
    | _ => none
  recorded ih := ih.flaps
  entry now e := ⟨now, e.2⟩
  time f := f.ts

def speedSignal : Signal Int SpeedEvent where
  stored m := m.speed
  reported r := r.speed
  published
    | .interfaceSpeed _ _ _ old new => some (old, new)
    | _ => none
  recorded ih := ih.speedChanges
  entry now e := ⟨now, some e.1, e.2⟩
  time e := e.ts

section Signal
variable {α β : Type} [DecidableEq α] (sig : Signal α β)

/-- What a report's events say of the signal. -/
def Turn.changes (t : Turn) : List (α × α) := t.events.filterMap sig.published

/-- The signal as the accepted reports read it, newest first. -/
def readings (turns : List Turn) : List (Option α) :=
  (taken turns).map fun t => sig.reported t.report

/-- The changes published over the turns, newest first. -/
def changes (turns : List Turn) : List (α × α) := turns.flatMap (Turn.changes sig)

/-- The entries the health history is to have for them, oldest first. -/
def entries (turns : List Turn) : List β :=
  turns.reverse.flatMap fun t => (t.changes sig).map (sig.entry t.now)

/-- The signal is followed as the code means it: stored, published and recorded
alike. The law of `ingest` for the signal's list is `recorded`. -/
structure Signal.Lawful : Prop where
  reads : Reads sig.stored sig.reported
  events : ∀ fqdn ctx m r, (reportEvents fqdn ctx m r).filterMap sig.published =
    (edge (sig.stored m) (sig.reported r)).toList
  empty : sig.recorded InterfaceHealth.empty = []
  ingested : ∀ cfg ih m r now, sig.recorded (ingest cfg ih (sampleInput m r now) now) =
    (sig.recorded ih ++ (edge (sig.stored m) (sig.reported r)).toList.map (sig.entry now)).dropWhile
      fun b => sig.time b < now - cfg.flapWindowMs

end Signal

theorem upTransition_eq (m : InterfaceMetrics) (r : InterfaceReport) :
    upTransition m r = (edge m.up r.up).map Prod.snd := by
  unfold upTransition edge
  cases m.up with
  | none => rfl
  | some old =>
    cases r.up with
    | none => rfl
    | some new => dsimp only; split <;> rfl

theorem speedChange_eq (m : InterfaceMetrics) (r : InterfaceReport) :
    speedChange m r = (edge m.speed r.speed).map fun e => (some e.1, e.2) := by
  unfold speedChange edge
  cases m.speed with
  | none => rfl
  | some old =>
    cases r.speed with
    | none => rfl
    | some new => dsimp only; split <;> rfl

theorem upSignal_lawful : upSignal.Lawful where
  reads := {
    fresh := fun m h => by rw [← show m.resetCounters = m from h]; rfl
    relabelled := fun m m' h => by rw [show m' = _ from h]; rfl
    applied := fun _ _ _ => rfl
    refused := fun _ _ => rfl }
  events fqdn ctx m r := by
    rw [reportEvents_eq, List.filterMap_append]
    change _ = (edge m.up r.up).toList
    cases edge m.up r.up <;> cases edge m.speed r.speed <;> rfl
  empty := rfl
  ingested cfg ih m r now := by
    simp only [upSignal, ingest, prune, sampleInput, upTransition_eq]
    cases edge m.up r.up with
    | none => rw [Option.toList_none, List.map_nil, List.append_nil]; rfl
    | some e => rfl

theorem speedSignal_lawful : speedSignal.Lawful where
  reads := {
    fresh := fun m h => by rw [← show m.resetCounters = m from h]; rfl
    relabelled := fun m m' h => by rw [show m' = _ from h]; rfl
    applied := fun _ _ _ => rfl
    refused := fun _ _ => rfl }
  events fqdn ctx m r := by
    rw [reportEvents_eq, List.filterMap_append]
    change _ = (edge m.speed r.speed).toList
    cases edge m.up r.up <;> cases edge m.speed r.speed <;> rfl
  empty := rfl
  ingested cfg ih m r now := by
    simp only [speedSignal, ingest, prune, sampleInput, speedChange_eq]
    cases edge m.speed r.speed with
    | none => rw [Option.toList_none, List.map_nil, List.append_nil]; rfl
    | some e => rfl

/-! ## The signal over the turns -/

/-- The history that the health store had of the interface before its turns. -/
def healthBefore (fqdn : String) (ifIndex : Int) (turns : List Turn)
    (ih? : Option InterfaceHealth) : Option InterfaceHealth :=
  turns.getLast?.elim ih? fun t => t.healthFound.at? fqdn ifIndex

/-- Events, entry and health history tell the same story of a signal. The turns
are newest first, and so are their changes. -/
structure Agrees {α β : Type} [DecidableEq α] (sig : Signal α β) (cfg : HealthConfig)
    (loaded : HealthStore) (fqdn : String) (ifIndex : Int) (turns : List Turn) (m? : Option InterfaceMetrics)
    (ih? : Option InterfaceHealth) : Prop where
  oneEach : ∀ t ∈ turns, t.changes sig = if t.verdict = .accepted then
    (edge (sig.stored t.found) (sig.reported t.report)).toList else []
  edges : changes sig turns = edges (readings sig turns)
  chain : (changes sig turns).IsChain fun later earlier => later.1 = earlier.2
  proper : ∀ e ∈ changes sig turns, e.1 ≠ e.2
  fromFirst : ∀ e, (changes sig turns).getLast? = some e → firstKnown (readings sig turns) = some e.1
  found : ∀ newer t older, turns = newer ++ t :: older →
    sig.stored t.found = lastKnown (readings sig older)
  stored : ∀ m, m? = some m → sig.stored m = lastKnown (readings sig turns)
  before : healthBefore fqdn ifIndex turns ih? = none ∨
    healthBefore fqdn ifIndex turns ih? = loaded.at? fqdn ifIndex
  recorded : ∃ dropped, ((healthBefore fqdn ifIndex turns ih?).map sig.recorded).getD [] ++
      entries sig turns = dropped ++ (ih?.map sig.recorded).getD [] ∧
    ∀ b ∈ dropped, sig.time b < lastAccepted turns - cfg.flapWindowMs

section Lawful
variable {α β : Type} [DecidableEq α] {sig : Signal α β}
  (law : sig.Lawful) {cfg : HealthConfig} {loaded : HealthStore} {fqdn : String} {ifIndex : Int}
include law

theorem changes_of_ruled {t : Turn} (h : t.Ruled cfg fqdn ifIndex) :
    t.changes sig = if t.verdict = .accepted then
      (edge (sig.stored t.found) (sig.reported t.report)).toList else [] := by
  unfold Turn.changes
  split
  · next hv =>
    obtain ⟨ctx, hevents⟩ := h.events hv
    rw [hevents, law.events]
  · next hv => rw [h.silent hv, List.filterMap_nil]

theorem stored_eq_lastKnown {turns : List Turn} {m : InterfaceMetrics}
    (hruled : ∀ t ∈ turns, t.Ruled cfg fqdn ifIndex) (h : Follows turns m) :
    sig.stored m = lastKnown (readings sig turns) := law.reads.stored_eq hruled h

/-- **The events are the edges of the readings.** -/
theorem changes_eq_edges {turns : List Turn} {m : InterfaceMetrics}
    (hruled : ∀ t ∈ turns, t.Ruled cfg fqdn ifIndex) (h : Follows turns m) :
    changes sig turns = Edges.edges (readings sig turns) := by
  induction turns generalizing m with
  | nil => rfl
  | cons t older ih =>
    have holder := fun t' ht' => hruled t' (List.mem_cons_of_mem t ht')
    have hrest := ih holder h.2
    unfold changes at hrest ⊢
    rw [List.flatMap_cons, hrest, changes_of_ruled law (hruled t List.mem_cons_self)]
    unfold readings
    split
    · next hv =>
      rw [taken_cons_of_accepted hv, List.map_cons, Edges.edges, stored_eq_lastKnown law holder h.2]
      rfl
    · next hv =>
      rw [taken_cons_of_not hv, List.nil_append]

omit law in
theorem healthBefore_cons (t : Turn) (older : List Turn) (ih? : Option InterfaceHealth) :
    healthBefore fqdn ifIndex (t :: older) ih? =
      healthBefore fqdn ifIndex older (t.healthFound.at? fqdn ifIndex) := by
  unfold healthBefore
  rw [List.getLast?_cons]
  cases older.getLast? <;> rfl

omit law in
theorem before_of_follows {turns : List Turn} {ih? : Option InterfaceHealth}
    (h : HealthFollows loaded fqdn ifIndex turns ih?) :
    healthBefore fqdn ifIndex turns ih? = none ∨
      healthBefore fqdn ifIndex turns ih? = loaded.at? fqdn ifIndex := by
  induction turns generalizing ih? with
  | nil => exact h
  | cons t older ih =>
    rw [healthBefore_cons]
    exact ih h.2

/-- What a turn leaves of the recorded entries: its own are added, and those past
their window are dropped from the front. -/
theorem recorded_of_ruled {t : Turn} (h : t.Ruled cfg fqdn ifIndex) :
    ∃ gone, ((t.healthFound.at? fqdn ifIndex).map sig.recorded).getD [] ++
        (t.changes sig).map (sig.entry t.now) =
      gone ++ ((t.healthLeft.at? fqdn ifIndex).map sig.recorded).getD [] ∧
    ∀ b ∈ gone, t.verdict = .accepted ∧ sig.time b < t.now - cfg.flapWindowMs := by
  rw [changes_of_ruled law h, h.health]
  split
  · next hv =>
    rw [HealthStore.at?_ingest, if_pos ⟨rfl, rfl⟩, Option.map_some, Option.getD_some, law.ingested]
    have hfound : sig.recorded ((t.healthFound.at? fqdn ifIndex).getD InterfaceHealth.empty) =
        ((t.healthFound.at? fqdn ifIndex).map sig.recorded).getD [] := by
      cases t.healthFound.at? fqdn ifIndex with
      | none => exact law.empty
      | some ih => rfl
    rw [hfound]
    refine ⟨_, (List.takeWhile_append_dropWhile).symm, fun b hb => ⟨hv, ?_⟩⟩
    simpa using List.mem_takeWhile_imp hb
  · exact ⟨[], by simp, fun b hb => by cases hb⟩

/-- **The health history has an entry for each change**, but for those whose window
has passed. -/
theorem recorded_of_follows {turns : List Turn} {m : InterfaceMetrics}
    {ih? : Option InterfaceHealth} (hruled : ∀ t ∈ turns, t.Ruled cfg fqdn ifIndex)
    (h : Follows turns m) (hhealth : HealthFollows loaded fqdn ifIndex turns ih?) :
    ∃ dropped, ((healthBefore fqdn ifIndex turns ih?).map sig.recorded).getD [] ++
        entries sig turns = dropped ++ (ih?.map sig.recorded).getD [] ∧
      ∀ b ∈ dropped, sig.time b < lastAccepted turns - cfg.flapWindowMs := by
  induction turns generalizing m ih? with
  | nil => exact ⟨[], by simp [entries, healthBefore], fun b hb => by cases hb⟩
  | cons t older ih =>
    have holder := fun t' ht' => hruled t' (List.mem_cons_of_mem t ht')
    obtain ⟨dropped, heq, hdropped⟩ := ih holder h.2 hhealth.2
    obtain ⟨gone, hturn, hgone⟩ := recorded_of_ruled law (hruled t List.mem_cons_self)
    have hentries : entries sig (t :: older) =
        entries sig older ++ (t.changes sig).map (sig.entry t.now) := by
      simp [entries]
    have hlast := lastReport_eq holder h.2
    -- the time of the last accepted report only grows
    have hgrows : lastAccepted older ≤ lastAccepted (t :: older) := by
      by_cases hv : t.verdict = .accepted
      · have hlt := (verdict_accepted hv).1
        rw [lastAccepted_cons_of_accepted hv]
        omega
      · rw [lastAccepted_cons_of_not hv]
    refine ⟨dropped ++ gone, ?_, fun b hb => ?_⟩
    · rw [healthBefore_cons, hentries, ← List.append_assoc, heq, List.append_assoc, hturn,
        hhealth.1, List.append_assoc]
    · rcases List.mem_append.mp hb with hb | hb
      · have := hdropped b hb
        omega
      · obtain ⟨hv, htime⟩ := hgone b hb
        rw [lastAccepted_cons_of_accepted hv]
        exact htime

theorem agrees_of_followed {turns : List Turn} {m? : Option InterfaceMetrics}
    {ih? : Option InterfaceHealth} (h : Followed cfg loaded fqdn ifIndex turns m? ih?) :
    Agrees sig cfg loaded fqdn ifIndex turns m? ih? := by
  have hone : ∀ t ∈ turns, t.changes sig = if t.verdict = .accepted then
      (edge (sig.stored t.found) (sig.reported t.report)).toList else [] :=
    fun t ht => changes_of_ruled law (h.ruled t ht)
  cases m? with
  | none =>
    rw [h.absent rfl]
    have hbefore := h.health
    rw [h.absent rfl] at hbefore
    refine ⟨?_, rfl, List.isChain_nil, ?_, ?_, fun newer t older hturns => ?_, ?_, hbefore, ?_⟩
    · intro t ht; cases ht
    · intro e he; cases he
    · intro e he; cases he
    · simp at hturns
    · intro m hm; cases hm
    · exact ⟨[], by simp [entries, healthBefore], fun b hb => by cases hb⟩
  | some m =>
    have hfollows := h.entry m rfl
    have hedges := changes_eq_edges law h.ruled hfollows
    refine ⟨hone, hedges, ?_, fun e he => ?_, fun e he => ?_, fun newer t older hturns => ?_,
      fun m' hm' => ?_, before_of_follows h.health, recorded_of_follows law h.ruled hfollows h.health⟩
    · rw [hedges]
      exact edges_chain _
    · rw [hedges] at he
      exact edges_ne he
    · rw [hedges] at he
      exact first_of_edges he
    · have hruled := h.ruled
      rw [hturns] at hfollows hruled
      exact stored_eq_lastKnown law (fun t' ht' => hruled t' (by simp [ht'])) hfollows.drop
    · cases hm'
      exact stored_eq_lastKnown law h.ruled hfollows

end Lawful

/-- **One story of the up/down state and of the speed**: over every run of the store,
from any health history loaded at its start, an interface's events since its entry
was made or reset are the edges of its accepted reports, its entry holds the last
reading, and its health history has an entry for each event. -/
theorem transitions_agree (cfg : HealthConfig) (loaded : HealthStore) (ops : List Op)
    (fqdn : String) (ifIndex : Int) :
    Agrees upSignal cfg loaded fqdn ifIndex ((Watched.run cfg loaded ops).turns fqdn ifIndex)
      ((Watched.run cfg loaded ops).imds.interface? fqdn ifIndex)
      ((Watched.run cfg loaded ops).imds.health.at? fqdn ifIndex) ∧
    Agrees speedSignal cfg loaded fqdn ifIndex ((Watched.run cfg loaded ops).turns fqdn ifIndex)
      ((Watched.run cfg loaded ops).imds.interface? fqdn ifIndex)
      ((Watched.run cfg loaded ops).imds.health.at? fqdn ifIndex) :=
  ⟨agrees_of_followed upSignal_lawful (told_run cfg loaded ops fqdn ifIndex),
    agrees_of_followed speedSignal_lawful (told_run cfg loaded ops fqdn ifIndex)⟩

end JaspyNexus.Utilities.ImdsReports

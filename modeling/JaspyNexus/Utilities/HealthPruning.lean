import Mathlib
import JaspyNexus.Utilities.HealthSignals

/-! # Pruning

An ingest drops what no window reads any more. A second store, to which everything is
added and from which nothing is dropped, gives the same answers. -/

namespace JaspyNexus.Utilities.Health
open JaspyNexus.Lib JaspyNexus.Utilities.Issues

/-! ## The rollup of a device -/

/-- `Severity::combine`. -/
def Severity.combine (a b : Severity) : Severity := if a = .bad ∨ b = .bad then .bad else .warn

/-- Which of an interface's signals reach the list of devices, by the policy of its VLAN. -/
inductive EscalationLevel where
  | quiet
  | normal
  | sensitive
  deriving DecidableEq, Repr

/-- `EscalationLevel::default`. -/
def EscalationLevel.default : EscalationLevel := .normal

/-- `EscalationLevel::as_str`. -/
def EscalationLevel.asStr : EscalationLevel → String
  | .quiet => "quiet"
  | .normal => "normal"
  | .sensitive => "sensitive"

/-- `EscalationLevel::from_str`: anything else is normal. -/
def EscalationLevel.fromStr : String → EscalationLevel
  | "quiet" => .quiet
  | "sensitive" => .sensitive
  | _ => .normal

@[simp] theorem EscalationLevel.fromStr_asStr (level : EscalationLevel) : fromStr level.asStr = level := by
  cases level <;> rfl

def EscalationLevel.contribution (level : EscalationLevel) (severity : Option Severity) : Option Severity :=
  match level with
  | .quiet => none
  | .normal => severity
  | .sensitive => severity.map fun _ => .bad

/-- One interface of the rollup: its severity worsens the worst one so far. -/
def worsen (contribution : Int → Option Severity) (worst : Option Severity) (ifIndex : Int) : Option Severity :=
  match contribution ifIndex with
  | none => worst
  | some severity => some (worst.elim severity fun w => w.combine severity)

namespace HealthStore

/-- What one interface contributes to its device's rollup. -/
def contribution (cfg : HealthConfig) (store : HealthStore) (fqdn : String) (now : Nat) (lastReports : PMap Int Nat)
    (levels : PMap Int EscalationLevel) (ifIndex : Int) : Option Severity :=
  (store.summary cfg fqdn ifIndex now ((lastReports ifIndex).getD 0)).bind fun summary =>
    ((levels ifIndex).getD .default).contribution summary.severity

/-- `device_rollup`; `visited` is the order in which the device's interfaces are visited. -/
def deviceRollup (cfg : HealthConfig) (store : HealthStore) (visited : List Int) (fqdn : String) (now : Nat)
    (lastReports : PMap Int Nat) (levels : PMap Int EscalationLevel) : Option Severity :=
  match store fqdn with
  | none => none
  | some _ => visited.foldl (worsen (store.contribution cfg fqdn now lastReports levels)) none

/-- The order visits the device's interfaces. -/
def Visits (store : HealthStore) (fqdn : String) (visited : List Int) : Prop :=
  ∀ i, i ∈ visited ↔ (store.at? fqdn i).isSome

end HealthStore

/-! ## The order of visits -/

/-- The worst of what is contributed. -/
theorem foldl_worsen (contribution : Int → Option Severity) (visited : List Int) (worst : Option Severity) :
    visited.foldl (worsen contribution) worst =
      if worst = some .bad ∨ ∃ i ∈ visited, contribution i = some .bad then some .bad
      else if worst = some .warn ∨ ∃ i ∈ visited, contribution i = some .warn then some .warn
      else none := by
  induction visited generalizing worst with
  | nil =>
    rcases worst with _ | (_ | _) <;> simp
  | cons i rest ih =>
    rw [List.foldl_cons, ih]
    simp only [List.exists_mem_cons_iff]
    unfold worsen
    split
    next hnone => simp [hnone]
    next severity hsome => cases severity <;> rcases worst with _ | (_ | _) <;> simp [hsome, Severity.combine]

/-- No order of the visits makes a difference. -/
theorem foldl_worsen_congr {contribution : Int → Option Severity} {visited visited' : List Int}
    (h : ∀ i, i ∈ visited ↔ i ∈ visited') :
    visited.foldl (worsen contribution) none = visited'.foldl (worsen contribution) none := by
  simp only [foldl_worsen, h]

/-! ## The store that drops nothing -/

/-- What an ingest adds, before it prunes. -/
def add (ih : InterfaceHealth) (input : SampleInput) (now : Nat) : InterfaceHealth where
  samples := if 0 < input.intervalMs then ih.samples ++ [input.sample now] else ih.samples
  flaps := match input.upTransition with
    | some up => ih.flaps ++ [⟨now, up⟩]
    | none => ih.flaps
  speedChanges := match input.speedChange with
    | some (old, new) => ih.speedChanges ++ [⟨now, old, new⟩]
    | none => ih.speedChanges

/-- An ingest adds, and then prunes. -/
theorem ingest_eq (cfg : HealthConfig) (ih : InterfaceHealth) (input : SampleInput) (now : Nat) :
    ingest cfg ih input now = prune cfg now (add ih input now) := rfl

/-- An ingest without the pruning. -/
def HealthStore.ingestKeeping (store : HealthStore) (fqdn : String) (ifIndex : Int) (input : SampleInput)
    (now : Nat) : HealthStore :=
  let interfaces := PMap.getD store fqdn PMap.empty
  PMap.insert store fqdn (PMap.insert interfaces ifIndex
    (add (PMap.getD interfaces ifIndex InterfaceHealth.empty) input now))

def keepAll (history : List Ingest) : HealthStore :=
  history.foldl (fun store e => store.ingestKeeping e.fqdn e.ifIndex e.input e.time) PMap.empty

theorem at?_ingestKeeping (store : HealthStore) (fqdn f : String) (ifIndex i : Int) (input : SampleInput)
    (now : Nat) : (store.ingestKeeping fqdn ifIndex input now).at? f i =
      if f = fqdn ∧ i = ifIndex then some (add ((store.at? fqdn ifIndex).getD InterfaceHealth.empty) input now)
      else store.at? f i := by
  unfold HealthStore.ingestKeeping HealthStore.at?
  dsimp only
  rw [PMap.insert_insert_bind, PMap.getD_getD]

theorem recorded_concat (own : List Ingest) (e : Ingest) :
    recorded (own ++ [e]) = add (recorded own) e.input e.time := by
  simp only [recorded, List.flatMap_append, List.flatMap_singleton, add, InterfaceHealth.mk.injEq]
  refine ⟨?_, ?_, ?_⟩
  · split
    · rfl
    · rw [List.append_nil]
  · cases e.input.upTransition with
    | none => rw [Option.map_none, Option.toList_none, List.append_nil]
    | some up => rfl
  · cases e.input.speedChange with
    | none => rw [Option.map_none, Option.toList_none, List.append_nil]
    | some change => rfl

/-! ## Both stores -/

section
variable {cfg : HealthConfig} {history : List Ingest} {fqdn : String} {ifIndex : Int} {now : Nat}

/-- Both stores know the interfaces that were told of: what was told, and what is left. -/
theorem at?_both (cfg : HealthConfig) (history : List Ingest) (fqdn : String) (ifIndex : Int) :
    let own := ownOf fqdn ifIndex history
    (ingestAll cfg history).at? fqdn ifIndex = (if own = [] then none else some (held cfg own)) ∧
      (keepAll history).at? fqdn ifIndex = (if own = [] then none else some (recorded own)) := by
  induction history using List.reverseRecOn with
  | nil => exact ⟨rfl, rfl⟩
  | append_singleton history e ih =>
    dsimp only at ih ⊢
    rw [ingestAll, keepAll, List.foldl_append, List.foldl_append, List.foldl_cons, List.foldl_cons, List.foldl_nil,
      List.foldl_nil, HealthStore.at?_ingest, at?_ingestKeeping, ownOf_concat]
    split
    next h =>
      have hne : ownOf fqdn ifIndex history ++ [e] ≠ [] := by simp
      rw [if_neg hne, if_neg hne, ← h.1, ← h.2, ← ingestAll, ← keepAll, ih.1, ih.2, held_concat, recorded_concat]
      split
      next hnil => rw [hnil]; exact ⟨rfl, rfl⟩
      next => exact ⟨rfl, rfl⟩
    next =>
      rw [List.append_nil]
      exact ih

/-- A history is read through its windows only. -/
theorem summary_congr {ih ih' : InterfaceHealth}
    (hsamples : ∀ windowMs ≤ cfg.sampleRetainMs, ih.samples.filter (fun s => now - windowMs ≤ s.ts) =
      ih'.samples.filter fun s => now - windowMs ≤ s.ts)
    (hflaps : ih.flaps.filter (fun f => now - cfg.flapWindowMs ≤ f.ts) =
      ih'.flaps.filter fun f => now - cfg.flapWindowMs ≤ f.ts)
    (hspeeds : ih.speedChanges.filter (fun c => now - cfg.flapWindowMs ≤ c.ts) =
      ih'.speedChanges.filter fun c => now - cfg.flapWindowMs ≤ c.ts) (lastReport : Nat) :
    summary cfg ih now lastReport = summary cfg ih' now lastReport := by
  have hcounter := hsamples cfg.counterWindowMs (le_max_of_le_left (le_max_left _ _))
  have hutil := hsamples cfg.utilWindowMs (le_max_of_le_left (le_max_right _ _))
  have hthroughput := hsamples cfg.throughputWindowMs (le_max_right _ _)
  simp only [summary, peakUtilization, bpsAvg, measured, filter_and, hcounter, hutil, hthroughput, hflaps, hspeeds]

theorem summary_keepAll (hclock : ∀ e ∈ history, e.time ≤ now) (lastReport : Nat) :
    (ingestAll cfg history).summary cfg fqdn ifIndex now lastReport =
      (keepAll history).summary cfg fqdn ifIndex now lastReport := by
  obtain ⟨hpruned, hkept⟩ := at?_both cfg history fqdn ifIndex
  have hown : ∀ e ∈ ownOf fqdn ifIndex history, e.time ≤ now := fun e he => hclock e (List.mem_of_mem_filter he)
  rw [HealthStore.summary, HealthStore.summary, hpruned, hkept]
  split
  · rfl
  · rw [Option.map_some, Option.map_some]
    exact congrArg some (summary_congr (fun _ hwindow => held_samples hwindow hown) (held_flaps hown)
      (held_speedChanges hown) lastReport)

/-- The interfaces that were told of are those to visit, in both stores. -/
theorem visits_of_history (cfg : HealthConfig) {visited : List Int} (h : ∀ i, i ∈ visited ↔ ownOf fqdn i history ≠ []) :
    (ingestAll cfg history).Visits fqdn visited ∧ (keepAll history).Visits fqdn visited := by
  refine ⟨fun i => ?_, fun i => ?_⟩
  · rw [h, (at?_both cfg history fqdn i).1]
    split <;> simp_all
  · rw [h, (at?_both cfg history fqdn i).2]
    split <;> simp_all

theorem isSome_keepAll : ((ingestAll cfg history).at? fqdn ifIndex).isSome =
    ((keepAll history).at? fqdn ifIndex).isSome := by
  obtain ⟨hpruned, hkept⟩ := at?_both cfg history fqdn ifIndex
  rw [hpruned, hkept]
  split <;> rfl

/-- A device that the store does not know has no interface to visit. -/
theorem deviceRollup_eq {store : HealthStore} {visited : List Int} (h : store.Visits fqdn visited)
    (lastReports : PMap Int Nat) (levels : PMap Int EscalationLevel) :
    store.deviceRollup cfg visited fqdn now lastReports levels =
      visited.foldl (worsen (store.contribution cfg fqdn now lastReports levels)) none := by
  unfold HealthStore.deviceRollup
  split
  next hnone =>
    have hempty : visited = [] := by
      refine List.eq_nil_iff_forall_not_mem.mpr fun i hi => ?_
      have hsome := (h i).mp hi
      rw [HealthStore.at?, hnone] at hsome
      cases hsome
    rw [hempty, List.foldl_nil]
  next => rfl

end

/-- **Pruning is not observed**: at any time from the last ingest on, for any windows, the
store gives the summaries and rollups that it would give if it had dropped nothing. -/
theorem pruning_unobservable (cfg : HealthConfig) (history : List Ingest) (now : Nat)
    (hclock : ∀ e ∈ history, e.time ≤ now) :
    (∀ fqdn ifIndex lastReport, (ingestAll cfg history).summary cfg fqdn ifIndex now lastReport =
      (keepAll history).summary cfg fqdn ifIndex now lastReport) ∧
    (∀ fqdn visited visited' lastReports levels, (ingestAll cfg history).Visits fqdn visited →
      (keepAll history).Visits fqdn visited' →
      (ingestAll cfg history).deviceRollup cfg visited fqdn now lastReports levels =
        (keepAll history).deviceRollup cfg visited' fqdn now lastReports levels) := by
  refine ⟨fun fqdn ifIndex lastReport => summary_keepAll hclock lastReport, ?_⟩
  intro fqdn visited visited' lastReports levels hvisited hvisited'
  have hcontribution : (ingestAll cfg history).contribution cfg fqdn now lastReports levels =
      (keepAll history).contribution cfg fqdn now lastReports levels := by
    funext i
    rw [HealthStore.contribution, HealthStore.contribution, summary_keepAll hclock]
  have hsame : ∀ i, i ∈ visited ↔ i ∈ visited' := by
    intro i
    rw [hvisited i, hvisited' i, isSome_keepAll]
  rw [deviceRollup_eq hvisited, deviceRollup_eq hvisited', hcontribution, foldl_worsen_congr hsame]

/-- Errors, and ten minutes later none. -/
def twoIngests : List Ingest :=
  [⟨"sw1.example.com", 1, ⟨5, 0, 0, 0, 0, 30000, none, none, none⟩, 1000000⟩,
    ⟨"sw1.example.com", 1, ⟨0, 0, 0, 0, 0, 30000, none, none, none⟩, 1600000⟩]

/-- The errors were dropped, and no rollup tells. -/
theorem pruning_unobservable_errors :
    (ingestAll .default twoIngests).at? "sw1.example.com" 1 ≠ (keepAll twoIngests).at? "sw1.example.com" 1 ∧
    (ingestAll .default twoIngests).deviceRollup .default [1] "sw1.example.com" 1630000 PMap.empty PMap.empty =
      (keepAll twoIngests).deviceRollup .default [1] "sw1.example.com" 1630000 PMap.empty PMap.empty := by
  have hvisits : ∀ i, i ∈ [1] ↔ ownOf "sw1.example.com" i twoIngests ≠ [] := by
    intro i
    by_cases hi : i = 1
    · rw [hi]
      decide
    · have hne : (1 : Int) ≠ i := Ne.symm hi
      simp [ownOf, twoIngests, hi, hne]
  exact ⟨by decide +kernel, (pruning_unobservable .default twoIngests 1630000 (by decide)).2 _ _ _ _ _
    (visits_of_history .default hvisits).1 (visits_of_history .default hvisits).2⟩

end JaspyNexus.Utilities.Health

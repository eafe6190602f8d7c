import Mathlib
import JaspyNexus.Utilities.ImdsHistory

/-! # Whose reports an interface is made of

The database knows an interface by its name, the store by its `ifIndex`. A
refresh that finds the index under another name renames the entry in place: what
the old interface accumulated goes on as the new one's (`swap_mixes_interfaces`).
As long as a reported entry keeps its name, everything held for an interface and
every event about it comes from reports made under that name. -/

namespace JaspyNexus.Utilities.ImdsIdentity
open JaspyNexus.Lib JaspyNexus.Models JaspyNexus.Utilities JaspyNexus.Utilities.Health

/-- **The condition.** A refresh gives an entry reported since it was made or
reset the name it has. -/
def KeepsName (w : World) : Op → Prop
  | .refreshInterface fqdn ifIndex _ name _ _ =>
    ∀ m, w.imds.interface? fqdn ifIndex = some m → m.lastReport ≠ 0 → name = m.name
  | _ => True

/-- Every report of the history was made for an interface of that name. -/
def Under (name : String) (h : History) : Prop := ∀ a ∈ h, a.name = name

/-- What the store holds for an interface comes from its own reports, and so do
the events about it. -/
structure OwnReports (w : World) : Prop where
  counters : ∀ f i m c v, w.imds.interface? f i = some m → m.counters c = some v →
    ∃ a ∈ w.history f i, a.name = m.name ∧ a.report.counters c = some v
  up : ∀ f i m b, w.imds.interface? f i = some m → m.up = some b →
    ∃ a ∈ w.history f i, a.name = m.name ∧ a.report.up = some b
  speed : ∀ f i m v, w.imds.interface? f i = some m → m.speed = some v →
    ∃ a ∈ w.history f i, a.name = m.name ∧ a.report.speed = some v
  adminUp : ∀ f i m b, w.imds.interface? f i = some m → m.adminUp = some b →
    ∃ a ∈ w.history f i, a.name = m.name ∧ a.report.adminUp = some b
  errDisabled : ∀ f i m, w.imds.interface? f i = some m → m.errDisabled = true →
    ∃ a ∈ w.history f i, a.name = m.name ∧ a.report.errDisabled = some true ∧
      a.report.errDisableCause = m.errDisableCause ∧
      a.report.errDisableRecoverSecs = m.errDisableRecoverSecs
  /-- a sample's deltas and interval are taken between reports of one interface -/
  samples : ∀ f i m ih, w.imds.interface? f i = some m → w.imds.health.at? f i = some ih →
    ∀ s ∈ ih.samples, ∃ prior a, After (w.history f i) prior a ∧ Under m.name (a :: prior) ∧
      prior ≠ [] ∧ SampleOf prior a s
  flaps : ∀ f i m ih, w.imds.interface? f i = some m → w.imds.health.at? f i = some ih →
    ∀ e ∈ ih.flaps, ∃ prior a old, After (w.history f i) prior a ∧ Under m.name (a :: prior) ∧
      e.ts = a.now ∧ prior.up = some old ∧ a.report.up = some e.up ∧ old ≠ e.up
  speedChanges : ∀ f i m ih, w.imds.interface? f i = some m → w.imds.health.at? f i = some ih →
    ∀ e ∈ ih.speedChanges, ∃ prior a old, After (w.history f i) prior a ∧
      Under m.name (a :: prior) ∧ e.ts = a.now ∧ prior.speed = some old ∧
      e.fromSpeed = some old ∧ a.report.speed = some e.toSpeed ∧ old ≠ e.toSpeed
  /-- only an interface that is there has a health history -/
  orphan : ∀ f i, w.imds.interface? f i = none → w.imds.health.at? f i = none
  upDown : ∀ e ∈ w.emitted, ∀ fqdn name neighbor links old new,
    e.event = .interfaceUpDown fqdn name neighbor links old new →
    (∃ a ∈ e.prior, a.name = name ∧ a.report.up = some old) ∧
      e.accepted.name = name ∧ e.accepted.report.up = some new
  speedEvents : ∀ e ∈ w.emitted, ∀ fqdn name neighbor old new,
    e.event = .interfaceSpeed fqdn name neighbor old new →
    (∃ a ∈ e.prior, a.name = name ∧ a.report.speed = some old) ∧
      e.accepted.name = name ∧ e.accepted.report.speed = some new

/-! ## The invariant -/

/-- The reports on record for an entry were made under its name. -/
structure Named (w : World) : Prop where
  entries : ∀ f i m, w.imds.interface? f i = some m → Under m.name (w.history f i)
  positive : ∀ f i, ∀ a ∈ w.history f i, 0 < a.now
  events : ∀ e ∈ w.emitted, Under e.accepted.name e.prior

theorem named_start : Named World.start where
  entries _ _ _ h := by cases h
  positive _ _ _ h := by cases h
  events _ h := by cases h

/-- An entry with a history has been reported. -/
theorem Named.lastReport_ne_zero {w : World} (h : Named w) (hrec : Recorded w) {f : String} {i : Int}
    {m : InterfaceMetrics} (hm : w.imds.interface? f i = some m) (hne : w.history f i ≠ []) :
    m.lastReport ≠ 0 := by
  have hlast := (hrec.cell f i).lastReport m hm
  have hpos := h.positive f i
  cases hh : w.history f i with
  | nil => exact absurd hh hne
  | cons a older =>
    rw [hh] at hlast hpos
    rw [hlast, History.lastReport_cons]
    exact (hpos a List.mem_cons_self).ne'

/-- An operation that forgets some histories and otherwise keeps every entry's
name keeps the invariant. -/
theorem Named.forget {w : World} (h : Named w) (imds : Imds) (history : String → Int → History)
    (hhistory : ∀ f i, history f i = [] ∨ history f i = w.history f i)
    (hnames : ∀ f i m, imds.interface? f i = some m → history f i ≠ [] →
      ∃ old, w.imds.interface? f i = some old ∧ old.name = m.name) :
    Named { w with imds := imds, history := history } where
  entries f i m hm a ha := by
    dsimp only at hm ha
    obtain ⟨old, hold, hname⟩ := hnames f i m hm (List.ne_nil_of_mem ha)
    rcases hhistory f i with hh | hh
    · rw [hh] at ha; cases ha
    · rw [hh] at ha
      rw [← hname]
      exact h.entries f i old hold a ha
  positive f i a ha := by
    dsimp only at ha
    rcases hhistory f i with hh | hh
    · rw [hh] at ha; cases ha
    · rw [hh] at ha; exact h.positive f i a ha
  events := h.events

theorem Named.reportInterface {w : World} (h : Named w) (cfg : HealthConfig) (fqdn : String)
    (ctx : ReportContext) (now observed : Nat) (r : InterfaceReport) :
    Named (World.reportInterface cfg fqdn ctx now observed w r) := by
  unfold World.reportInterface
  rcases reportInterface_cases w.imds fqdn cfg ctx now r with
    ⟨m, ha, hm, hlt, hentry, -, -⟩ | ⟨ha, -, -, hentry⟩
  · rw [ha]
    have hunder := h.entries fqdn r.ifIndex m hm
    refine ⟨fun f i m' hm' => ?_, fun f i a hmem => ?_, fun e he => ?_⟩
    · dsimp only at hm' ⊢
      rw [hentry] at hm'
      by_cases hfi : f = fqdn ∧ i = r.ifIndex
      · rw [if_pos hfi] at hm' ⊢
        cases hm'
        intro a ha
        rcases List.mem_cons.mp ha with rfl | ha
        · rfl
        · exact hunder a ha
      · rw [if_neg hfi] at hm' ⊢
        exact h.entries f i m' hm'
    · dsimp only at hmem
      split at hmem
      · rcases List.mem_cons.mp hmem with rfl | hmem
        · exact Nat.zero_lt_of_lt hlt
        · exact h.positive _ _ a hmem
      · exact h.positive f i a hmem
    · rcases List.mem_append.mp he with he | he
      · exact h.events e he
      · obtain ⟨event, -, rfl⟩ := List.mem_map.mp he
        exact hunder
  · rw [ha]
    refine h.forget _ w.history (fun _ _ => .inr rfl) fun f i m' hm' _ => ?_
    rcases hentry with hentry | ⟨m, violations, hm, hentry⟩
    · exact ⟨m', by rw [← hentry]; exact hm', rfl⟩
    · rw [hentry] at hm'
      split at hm'
      · next hfi =>
        cases hm'
        exact ⟨m, by rw [hfi.1, hfi.2]; exact hm, rfl⟩
      · exact ⟨m', hm', rfl⟩

/-- **Every step that keeps the names keeps the invariant.** -/
theorem Named.step {w : World} (h : Named w) (hrec : Recorded w) (cfg : HealthConfig) (op : Op)
    (hok : KeepsName w op) : Named (w.step cfg op) := by
  cases op with
  | refreshDevice fqdn baseMac now =>
    refine h.forget _ _ (fun f i => ?_) fun f i m hm _ => ?_
    · split
      · exact .inl rfl
      · exact .inr rfl
    · rw [interface?_refreshDevice] at hm
      split at hm
      · obtain ⟨old, hold, rfl⟩ := Option.map_eq_some_iff.mp hm
        exact ⟨old, hold, rfl⟩
      · exact ⟨m, hm, rfl⟩
  | refreshInterface fqdn ifIndex interfaceType name neighbors speedOverride =>
    refine h.forget _ w.history (fun _ _ => .inr rfl) fun f i m hm hne => ?_
    rcases refreshInterface_cases w.imds fqdn ifIndex interfaceType name neighbors speedOverride with
      ⟨heq, -⟩ | ⟨-, m', hentry, hm'⟩
    · rw [heq] at hm
      exact ⟨m, hm, rfl⟩
    · rw [hentry] at hm
      split at hm
      · next hfi =>
        obtain ⟨rfl, rfl⟩ := hfi
        cases hm
        rcases hm' with ⟨hnone, -⟩ | ⟨old, hold, rfl⟩
        · exact absurd ((hrec.cell f i).absent hnone).1 hne
        · exact ⟨old, hold, (hok old hold (h.lastReport_ne_zero hrec hold hne)).symm⟩
      · exact ⟨m, hm, rfl⟩
  | retainDevices keep =>
    refine h.forget _ _ (fun f i => ?_) fun f i m hm _ => ?_
    · split
      · exact .inr rfl
      · exact .inl rfl
    · rw [interface?_retainDevices] at hm
      split at hm
      · exact ⟨m, hm, rfl⟩
      · cases hm
  | retainInterfaces fqdn keep =>
    refine h.forget _ _ (fun f i => ?_) fun f i m hm _ => ?_
    · split
      · exact .inl rfl
      · exact .inr rfl
    · rw [interface?_retainInterfaces] at hm
      split at hm
      · cases hm
      · exact ⟨m, hm, rfl⟩
  | reportDevice neighbors report now =>
    refine h.forget _ w.history (fun _ _ => .inr rfl) fun f i m hm _ => ?_
    rw [interface?_reportDevice] at hm
    exact ⟨m, hm, rfl⟩
  | reportInterfaces remote imr now observed =>
    simp only [World.step]
    cases hd : w.imds.devices imr.deviceFqdn with
    | none => exact h
    | some device =>
      refine Runs.foldl_inv _ (fun w' r hw' => hw'.reportInterface cfg imr.deviceFqdn
        (reportContext remote device imr) now observed r) imr.interfaces ?_
      refine h.forget _ w.history (fun _ _ => .inr rfl) fun f i m hm _ => ⟨m, ?_, rfl⟩
      rw [← hm, ← interface?_setLastPoll w.imds imr.deviceFqdn f i hd now]

/-! ## What follows from the names -/

theorem Under.suffix {name : String} {h h' : History} (hu : Under name h) (hs : h' <:+ h) :
    Under name h' := fun a ha => hu a (hs.subset ha)

/-- What a history holds was carried by one of its reports. -/
theorem Under.findSome {name : String} {h : History} (hu : Under name h) {β : Type}
    {f : Accepted → Option β} {v : β} (hv : h.findSome? f = some v) :
    ∃ a ∈ h, a.name = name ∧ f a = some v := by
  obtain ⟨a, ha, hf⟩ := List.exists_of_findSome?_eq_some hv
  exact ⟨a, ha, hu a ha, hf⟩

theorem errState_true {r : InterfaceReport} {cause : Option String} {secs : Option Int}
    (h : errState r = some (true, cause, secs)) :
    r.errDisabled = some true ∧ r.errDisableCause = cause ∧ r.errDisableRecoverSecs = secs := by
  unfold errState at h
  obtain ⟨disabled, hd, heq⟩ := Option.map_eq_some_iff.mp h
  cases disabled with
  | false => simp at heq
  | true => simpa [hd] using heq

theorem ownReports_of_named {w : World} (h : Named w) (hrec : Recorded w) : OwnReports w where
  counters f i m c v hm hv :=
    (h.entries f i m hm).findSome (by rw [← hv]; exact ((hrec.cell f i).counters m hm c).symm)
  up f i m b hm hv :=
    (h.entries f i m hm).findSome (by rw [← hv]; exact ((hrec.cell f i).up m hm).symm)
  speed f i m v hm hv :=
    (h.entries f i m hm).findSome (by rw [← hv]; exact ((hrec.cell f i).speed m hm).symm)
  adminUp f i m b hm hv :=
    (h.entries f i m hm).findSome (by rw [← hv]; exact ((hrec.cell f i).adminUp m hm).symm)
  errDisabled f i m hm herr := by
    have hstate := (hrec.cell f i).errDisable m hm
    rw [herr] at hstate
    cases hh : (w.history f i).errDisable with
    | none => rw [hh] at hstate; cases hstate
    | some state =>
      rw [hh, Option.getD_some] at hstate
      obtain ⟨a, ha, hname, hcarried⟩ := (h.entries f i m hm).findSome hh
      rw [← hstate] at hcarried
      exact ⟨a, ha, hname, errState_true hcarried⟩
  samples f i m ih hm hih s hs := by
    obtain ⟨prior, a, hafter, hrest⟩ := (hrec.cell f i).samples ih hih s hs
    exact ⟨prior, a, hafter, (h.entries f i m hm).suffix hafter, hrest⟩
  flaps f i m ih hm hih e he := by
    obtain ⟨prior, a, old, hafter, hrest⟩ := (hrec.cell f i).flaps ih hih e he
    exact ⟨prior, a, old, hafter, (h.entries f i m hm).suffix hafter, hrest⟩
  speedChanges f i m ih hm hih e he := by
    obtain ⟨prior, a, old, hafter, hrest⟩ := (hrec.cell f i).speedChanges ih hih e he
    exact ⟨prior, a, old, hafter, (h.entries f i m hm).suffix hafter, hrest⟩
  orphan f i hnone := ((hrec.cell f i).absent hnone).2
  upDown e he fqdn name neighbor links old new heq := by
    obtain ⟨hname, hold, hnew, -⟩ := hrec.upDown e he _ _ _ _ _ _ heq
    rw [← hname]
    exact ⟨(h.events e he).findSome hold, rfl, hnew⟩
  speedEvents e he fqdn name neighbor old new heq := by
    obtain ⟨hname, hold, hnew, -⟩ := hrec.speed e he _ _ _ _ _ heq
    rw [← hname]
    exact ⟨(h.events e he).findSome hold, rfl, hnew⟩

/-- **In a run whose refreshes keep the names of reported entries**, everything
held for an interface, and every event about it, comes from reports made under
its name, in every state. -/
theorem run_ownReports (cfg : HealthConfig) (ops pre : List Op)
    (hok : Runs.Allowed (World.step cfg) KeepsName World.start ops) (hpre : pre <+: ops) :
    OwnReports (World.run cfg pre) := by
  have hboth : Named (World.run cfg pre) ∧ Recorded (World.run cfg pre) :=
    Runs.run_inv_throughout (fun w => Named w ∧ Recorded w)
      (fun _ op h ha => ⟨h.1.step h.2 cfg op ha, h.2.step cfg op⟩) ⟨named_start, recorded_start⟩
      hok hpre
  exact ownReports_of_named hboth.1 hboth.2

/-! ## Two interfaces swap their indexes -/

/-- A poll of both interfaces: Gi0/1 is down with few octets, Gi0/2 up with many. -/
def swapPoll (downIndex upIndex : Int) (downOctets upOctets now : Nat) : Op :=
  let report (ifIndex : Int) (up : Bool) (inOctets : Nat) : InterfaceReport :=
    { ifIndex := ifIndex
      counters := fun c => if c = .inOctets then some inOctets else none
      up := some up
      speed := none
      adminUp := none
      errDisabled := none
      errDisableCause := none
      errDisableRecoverSecs := none }
  .reportInterfaces (fun _ => none)
    { deviceFqdn := "sw1"
      interfaces := [report upIndex true upOctets, report downIndex false downOctets] } now now

/-- A refresh that finds the two names under these indexes. -/
def swapRefresh (first second : String) (now : Nat) : List Op :=
  [.retainDevices fun fqdn => fqdn = "sw1", .refreshDevice "sw1" none now,
    .refreshInterface "sw1" 1 "ethernetCsmacd" first false none,
    .refreshInterface "sw1" 2 "ethernetCsmacd" second false none,
    .retainInterfaces "sw1" fun i => i = 1 || i = 2]

/-- **A swap mixes two interfaces**: after it neither link changed, but both are
reported as changed, and the growth from one interface's octets to the other's
is a sample of Gi0/2. -/
theorem swap_mixes_interfaces :
    let w := World.run .default (swapRefresh "Gi0/1" "Gi0/2" 500 ++
      [swapPoll 1 2 1000 3000000000 10000] ++ swapRefresh "Gi0/2" "Gi0/1" 40000 ++
      [swapPoll 2 1 1000 3000000100 70000])
    ¬OwnReports w ∧
      w.emitted.map Emission.event =
        [.interfaceUpDown "sw1" "Gi0/2" none [] false true,
          .interfaceUpDown "sw1" "Gi0/1" none [] true false] ∧
      ((w.imds.interface? "sw1" 1).map InterfaceMetrics.name,
        (w.imds.health.at? "sw1" 1).map fun ih => ih.samples.map Sample.inOctets) =
        (some "Gi0/2", some [2999999100]) := by
  refine ⟨fun hown => ?_, by decide +kernel, by decide +kernel⟩
  -- the first event was made from a report of Gi0/1
  obtain ⟨⟨a, ha, hname, -⟩, -⟩ :=
    hown.upDown _ (List.Mem.head _) "sw1" "Gi0/2" none [] false true rfl
  obtain rfl := List.mem_singleton.mp ha
  exact absurd hname (by decide)

/-- Discovery renames what was never reported, and keeps the names between the two polls. -/
def renamesEarly : List Op :=
  swapRefresh "Gi0/1" "Gi0/2" 500 ++ swapRefresh "Gi0/2" "Gi0/1" 600 ++ [swapPoll 2 1 1000 5000 10000] ++
    swapRefresh "Gi0/2" "Gi0/1" 40000 ++ [swapPoll 2 1 4000 9000 70000]

theorem run_ownReports_rename : OwnReports (World.run .default renamesEarly) ∧
    ((World.run .default renamesEarly).imds.health.at? "sw1" 1).map (fun ih => ih.samples.map Sample.inOctets) =
      some [4000] := by
  refine ⟨run_ownReports _ renamesEarly _ ⟨trivial, trivial, ?_, ?_, trivial, trivial, trivial, ?_, ?_, trivial,
    trivial, trivial, trivial, ?_, ?_, trivial, trivial, trivial⟩ (List.prefix_refl _), by decide +kernel⟩
  all_goals
    intro m hm hreported
    cases hm
  all_goals first | rfl | exact absurd rfl hreported

end JaspyNexus.Utilities.ImdsIdentity

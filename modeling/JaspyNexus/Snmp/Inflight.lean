import Mathlib
import JaspyNexus.Snmp.Source
import JaspyNexus.Utilities.PerfStats

/-! # The gauge of the requests in flight

`admit` and the drop of its guards, in `snmp/source.rs`, with the gauge beside the permits.
The guards are the fields of one tuple and drop in their order: the permit is free before
the gauge has gone down. -/

namespace JaspyNexus.Snmp
open JaspyNexus.Lib JaspyNexus.Utilities

/-- Where a thread is in `table` or `object`. -/
inductive Caller where
  | idle
  /-- in `admit`, for a permit -/
  | requesting
  /-- it has one, and is before the `fetch_add` of `inflight_enter` -/
  | admitted
  /-- it is before the `fetch_max` -/
  | counted (now : Nat)
  | inBackend
  /-- the permit is dropped, the `InflightGuard` not yet -/
  | answered
  deriving DecidableEq, Repr

/-- A source and the gauge of the process. -/
structure Gauged where
  limiter : Option Semaphore
  callers : List Caller
  perf : PerfStats
  deriving DecidableEq, Repr

namespace Caller

/-- What the permits see of it. -/
def collector : Caller → Collector
  | idle | answered => .idle
  | requesting => .requesting
  | admitted | counted _ | inBackend => .inBackend

/-- It is counted by the gauge. -/
def isCounted : Caller → Bool
  | counted _ | inBackend | answered => true
  | idle | requesting | admitted => false

/-- It is in the back end, or about to be with no more than `most` counted. -/
def isWithin (most : Nat) : Caller → Bool
  | counted now => now ≤ most
  | inBackend => true
  | idle | requesting | admitted | answered => false

end Caller

namespace Gauged
variable (s : Gauged)

def new (maxInflight threads : Nat) : Gauged where
  limiter := if maxInflight > 0 then some (.new maxInflight threads) else none
  callers := List.replicate threads .idle
  perf := .new

def set (i : Nat) (caller : Caller) : List Caller := s.callers.set i caller

/-- `admit`, to the permit. -/
def admitRequest (i : Nat) : Gauged :=
  match s.limiter with
  | none => { s with callers := s.set i .admitted }
  | some sem =>
    let out := sem.acquire i
    { s with limiter := some out.1, callers := if out.2 then s.set i .admitted else s.callers }

def step (s : Gauged) : SourceAction → Gauged
  | .request i =>
    match s.callers[i]? with
    | some .idle => { s with callers := s.set i .requesting }
    | _ => s
  | .turn i choice =>
    match s.callers[i]? with
    | some .requesting => s.admitRequest i
    | some .admitted =>
      let perf := s.perf.inflightEnter
      { s with perf := perf, callers := s.set i (.counted perf.snmpInflight) }
    | some (.counted now) => { s with perf := s.perf.inflightPeak now, callers := s.set i .inBackend }
    | some .inBackend =>
      { s with limiter := s.limiter.map fun sem => sem.release choice, callers := s.set i .answered }
    | some .answered => { s with perf := s.perf.inflightExit, callers := s.set i .idle }
    | _ => s
  | .wake i => { s with limiter := s.limiter.map fun sem => sem.wake i }

def run (s : Gauged) (actions : List SourceAction) : Gauged := actions.foldl step s

/-- The threads that the gauge counts. -/
def counted : Nat := s.callers.countP Caller.isCounted

/-- The threads in the back end. -/
def inBackend : Nat := s.callers.countP (· = .inBackend)

/-- Those in the back end, and those about to be with no more than `most` counted. -/
def within (most : Nat) : Nat := s.callers.countP (Caller.isWithin most)

/-- The source as its permits see it. -/
def source : SnmpSource := ⟨s.limiter, s.callers.map Caller.collector⟩

/-- No thread is between the two steps of `inflight_enter`. -/
def Settled : Prop := ∀ caller ∈ s.callers, ∀ now, caller ≠ .counted now

end Gauged

/-! ## What an action does -/

/-- The ways on. -/
inductive Moves (s : Gauged) : Gauged → Prop where
  | stays : Moves s s
  | requests {i : Nat} (hi : s.callers[i]? = some .idle) : Moves s { s with callers := s.set i .requesting }
  | enters {i : Nat} (hi : s.callers[i]? = some .requesting) (limiter : Option Semaphore) :
      Moves s { s with limiter := limiter, callers := s.set i .admitted }
  | permits (limiter : Option Semaphore) : Moves s { s with limiter := limiter }
  | counts {i : Nat} (hi : s.callers[i]? = some .admitted) :
      Moves s { s with
        perf := s.perf.inflightEnter, callers := s.set i (.counted s.perf.inflightEnter.snmpInflight) }
  | peaks {i now : Nat} (hi : s.callers[i]? = some (.counted now)) :
      Moves s { s with perf := s.perf.inflightPeak now, callers := s.set i .inBackend }
  | answered {i : Nat} (hi : s.callers[i]? = some .inBackend) (limiter : Option Semaphore) :
      Moves s { s with limiter := limiter, callers := s.set i .answered }
  | leaves {i : Nat} (hi : s.callers[i]? = some .answered) :
      Moves s { s with perf := s.perf.inflightExit, callers := s.set i .idle }

section
variable {s s' : Gauged} {i : Nat}

theorem moves_admitRequest (hi : s.callers[i]? = some .requesting) : Moves s (s.admitRequest i) := by
  unfold Gauged.admitRequest
  split
  · exact .enters hi s.limiter
  · next sem hsem =>
    cases hpermit : (sem.acquire i).2 with
    | true => simpa [hpermit] using Moves.enters hi (some (sem.acquire i).1)
    | false => simpa [hpermit] using Moves.permits (some (sem.acquire i).1)

theorem moves (s : Gauged) (a : SourceAction) : Moves s (s.step a) := by
  unfold Gauged.step
  split
  · split
    · next hi => exact .requests hi
    · exact .stays
  · split
    · next hi => exact moves_admitRequest hi
    · next hi => exact .counts hi
    · next hi => exact .peaks hi
    · next hi => exact .answered hi _
    · next hi => exact .leaves hi
    · exact .stays
  · exact .permits _

/-! ## The permits are as they were -/

theorem source_set (i : Nat) (caller : Caller) (limiter : Option Semaphore) (perf : PerfStats) :
    Gauged.source ⟨limiter, s.set i caller, perf⟩ = ⟨limiter, s.source.set i caller.collector⟩ := by
  rw [Gauged.source, Gauged.set, List.map_set]
  rfl

theorem collectors_source {caller : Caller} (hi : s.callers[i]? = some caller) :
    s.source.collectors[i]? = some caller.collector := by
  rw [Gauged.source, List.getElem?_map, hi, Option.map_some]

/-- A thread that the permits see where it was. -/
theorem source_set_same {caller next : Caller} (hi : s.callers[i]? = some caller)
    (hsame : next.collector = caller.collector) (perf : PerfStats) :
    Gauged.source ⟨s.limiter, s.set i next, perf⟩ = s.source := by
  rw [source_set, hsame]
  have hset : s.source.set i caller.collector = s.source.collectors := by
    obtain ⟨hlt, hget⟩ := List.getElem?_eq_some_iff.mp (collectors_source hi)
    rw [SnmpSource.set, ← hget, List.set_getElem_self]
  rw [hset]
  rfl

theorem source_admitRequest (i : Nat) : (s.admitRequest i).source = s.source.admitRequest i := by
  obtain ⟨limiter, callers, perf⟩ := s
  cases limiter with
  | none => exact source_set i .admitted none perf
  | some sem =>
    cases hpermit : (sem.acquire i).2 with
    | true =>
      simp only [Gauged.admitRequest, SnmpSource.admitRequest, Gauged.source, hpermit, if_true]
      exact source_set i .admitted _ perf
    | false =>
      simp only [Gauged.admitRequest, SnmpSource.admitRequest, Gauged.source, hpermit, Bool.false_eq_true, if_false]

/-- **The gauge changes nothing for the permits**: an action is one of the source, or none. -/
theorem source_step (s : Gauged) (a : SourceAction) :
    (s.step a).source = s.source ∨ (s.step a).source = s.source.step a := by
  cases a with
  | request i =>
    rcases hi : s.callers[i]? with _ | caller
    · exact .inl (by rw [Gauged.step, hi])
    · cases caller with
      | idle =>
        right
        simp only [Gauged.step, SnmpSource.step, hi, collectors_source hi, Caller.collector]
        exact source_set i .requesting _ _
      | _ => exact .inl (by simp only [Gauged.step, hi])
  | turn i choice =>
    rcases hi : s.callers[i]? with _ | caller
    · exact .inl (by rw [Gauged.step, hi])
    · cases caller with
      | idle => exact .inl (by simp only [Gauged.step, hi])
      | requesting =>
        right
        simp only [Gauged.step, SnmpSource.step, hi, collectors_source hi, Caller.collector]
        exact source_admitRequest i
      | inBackend =>
        right
        simp only [Gauged.step, SnmpSource.step, hi, collectors_source hi, Caller.collector]
        exact source_set i .answered _ _
      | _ => exact .inl (by simp only [Gauged.step, hi]; exact source_set_same hi (by rfl) _)
  | wake i => exact .inr rfl

theorem source_new (maxInflight threads : Nat) : (Gauged.new maxInflight threads).source = .new maxInflight threads := by
  simp [Gauged.source, Gauged.new, SnmpSource.new, Caller.collector]

theorem sourceInv_run (maxInflight threads : Nat) (actions : List SourceAction) :
    SourceInv maxInflight ((Gauged.new maxInflight threads).run actions).source := by
  refine Runs.foldl_inv (fun s : Gauged => SourceInv maxInflight s.source) (fun s a h => ?_) actions ?_
  · rcases source_step s a with hsame | hstep
    · rwa [hsame]
    · rw [hstep]
      exact h.step a
  · rw [source_new]
    exact sourceInv_new maxInflight threads

/-- Who is in the back end has a permit. -/
theorem inBackend_le_inflight (s : Gauged) : s.inBackend ≤ s.source.inflight := by
  rw [Gauged.inBackend, SnmpSource.inflight, Gauged.source, List.countP_map]
  refine List.countP_mono_left fun caller _ hcaller => ?_
  rw [of_decide_eq_true hcaller]
  rfl

theorem SourceInv.inflight_le {maxInflight : Nat} {s : SnmpSource} (h : SourceInv maxInflight s) (hcap : 0 < maxInflight) :
    s.inflight ≤ maxInflight := by
  rcases hsem : s.limiter with _ | sem
  · have hzero := h.limited.mp hsem
    omega
  · have hconserved := (h.capped sem hsem).shared.conserved
    dsimp only at hconserved
    omega

/-! ## The gauge counts the threads -/

def GaugeInv (s : Gauged) : Prop := s.perf.snmpInflight = s.counted

theorem counted_set {caller : Caller} (hi : s.callers[i]? = some caller) (next : Caller) (limiter : Option Semaphore)
    (perf : PerfStats) :
    Gauged.counted ⟨limiter, s.set i next, perf⟩ + caller.isCounted.toNat = s.counted + next.isCounted.toNat :=
  countP_set_add hi _ next

theorem gaugeInv_new (maxInflight threads : Nat) : GaugeInv (.new maxInflight threads) := by
  simp [GaugeInv, Gauged.new, Gauged.counted, PerfStats.new, List.countP_replicate, Caller.isCounted]

/-- A thread that goes on where the gauge does not look. -/
theorem GaugeInv.set {caller : Caller} (h : GaugeInv s) (hi : s.callers[i]? = some caller) (next : Caller)
    (hsame : next.isCounted = caller.isCounted) (limiter : Option Semaphore) {perf : PerfStats}
    (hperf : perf.snmpInflight = s.perf.snmpInflight) : GaugeInv ⟨limiter, s.set i next, perf⟩ := by
  have hcounted := counted_set hi next limiter perf
  rw [hsame] at hcounted
  exact hperf.trans (h.trans (Nat.add_right_cancel hcounted).symm)

theorem GaugeInv.moves (h : GaugeInv s) (hmoves : Moves s s') : GaugeInv s' := by
  cases hmoves with
  | stays => exact h
  | requests hi => exact h.set hi .requesting rfl _ rfl
  | enters hi limiter => exact h.set hi .admitted rfl limiter rfl
  | permits limiter => exact h
  | peaks hi => exact h.set hi .inBackend rfl _ rfl
  | answered hi limiter => exact h.set hi .answered rfl limiter rfl
  | counts hi =>
    have hcounted := counted_set hi (.counted s.perf.inflightEnter.snmpInflight) s.limiter s.perf.inflightEnter
    exact (congrArg (· + 1) h).trans hcounted.symm
  | leaves hi =>
    have hcounted := counted_set hi .idle s.limiter s.perf.inflightExit
    exact (congrArg (· - 1) (h.trans hcounted.symm)).trans (Nat.add_sub_cancel _ 1)

/-! ## The peak covers the back end

A thread takes the peak to what it counted before it is in the back end. Of the threads that
are there, the last to count counted them all. -/

theorem within_set {caller : Caller} (hi : s.callers[i]? = some caller) (next : Caller) (most : Nat)
    (limiter : Option Semaphore) (perf : PerfStats) :
    Gauged.within ⟨limiter, s.set i next, perf⟩ most + (caller.isWithin most).toNat =
      s.within most + (next.isWithin most).toNat :=
  countP_set_add hi _ next

theorem within_le_counted (s : Gauged) (most : Nat) : s.within most ≤ s.counted := by
  refine List.countP_mono_left fun caller _ hcaller => ?_
  cases caller with
  | counted now => rfl
  | inBackend => rfl
  | _ => cases hcaller

theorem within_mono (s : Gauged) {most most' : Nat} (hle : most ≤ most') : s.within most ≤ s.within most' := by
  refine List.countP_mono_left fun caller _ hcaller => ?_
  cases caller with
  | counted now => exact decide_eq_true ((of_decide_eq_true hcaller).trans hle)
  | inBackend => rfl
  | _ => cases hcaller

theorem inBackend_le_within (s : Gauged) : s.inBackend ≤ s.within 0 := by
  refine List.countP_mono_left fun caller _ hcaller => ?_
  rw [of_decide_eq_true hcaller]
  rfl

def PeakInv (s : Gauged) : Prop := ∀ most, s.within most ≤ max s.perf.snmpInflightMax most

theorem PeakInv.set {caller : Caller} (h : PeakInv s) (hi : s.callers[i]? = some caller) (next : Caller)
    (hle : ∀ most, (next.isWithin most).toNat ≤ (caller.isWithin most).toNat) (limiter : Option Semaphore)
    {perf : PerfStats} (hperf : perf.snmpInflightMax = s.perf.snmpInflightMax) :
    PeakInv ⟨limiter, s.set i next, perf⟩ := by
  intro most
  have hwithin := within_set hi next most limiter perf
  have hbound := h most
  have hnext := hle most
  rw [hperf]
  omega

/-- A thread has counted itself and all that were there. -/
theorem PeakInv.counts (h : PeakInv s) (hi : s.callers[i]? = some .admitted) {perf : PerfStats}
    (hgauge : perf.snmpInflight = s.counted + 1) (hperf : perf.snmpInflightMax = s.perf.snmpInflightMax) :
    PeakInv ⟨s.limiter, s.set i (.counted perf.snmpInflight), perf⟩ := by
  intro most
  have hwithin := within_set hi (.counted perf.snmpInflight) most s.limiter perf
  rw [show Caller.admitted.isWithin most = false from rfl, Bool.toNat_false, Nat.add_zero] at hwithin
  have hbound := h most
  have hcounted := within_le_counted s most
  rw [hperf, hwithin]
  by_cases hle : perf.snmpInflight ≤ most
  · have htoNat := Bool.toNat_le ((Caller.counted perf.snmpInflight).isWithin most)
    omega
  · rw [show (Caller.counted perf.snmpInflight).isWithin most = false from decide_eq_false hle, Bool.toNat_false]
    exact hbound

/-- The peak is then what the thread has counted, at least. -/
theorem PeakInv.peaks {now : Nat} (h : PeakInv s) (hi : s.callers[i]? = some (.counted now)) :
    PeakInv ⟨s.limiter, s.set i .inBackend, s.perf.inflightPeak now⟩ := by
  have hsame : ∀ most, now ≤ most →
      Gauged.within ⟨s.limiter, s.set i .inBackend, s.perf.inflightPeak now⟩ most = s.within most := by
    intro most hle
    have hwithin := within_set hi .inBackend most s.limiter (s.perf.inflightPeak now)
    rw [show (Caller.counted now).isWithin most = true from decide_eq_true hle,
      show Caller.inBackend.isWithin most = true from rfl] at hwithin
    exact Nat.add_right_cancel hwithin
  intro most
  rw [show (s.perf.inflightPeak now).snmpInflightMax = max s.perf.snmpInflightMax now from rfl]
  have hmono := within_mono ⟨s.limiter, s.set i .inBackend, s.perf.inflightPeak now⟩ (Nat.le_max_left most now)
  rw [hsame _ (Nat.le_max_right most now)] at hmono
  have hbound := h (max most now)
  omega

theorem PeakInv.moves (h : PeakInv s) (hgauge : GaugeInv s)
    (hmoves : Moves s s') : PeakInv s' := by
  cases hmoves with
  | stays => exact h
  | requests hi => exact h.set hi .requesting (fun _ => le_rfl) _ rfl
  | enters hi limiter => exact h.set hi .admitted (fun _ => le_rfl) limiter rfl
  | permits limiter => exact h
  | counts hi => exact h.counts hi (congrArg (· + 1) hgauge) rfl
  | peaks hi => exact h.peaks hi
  | answered hi limiter => exact h.set hi .answered (fun _ => Nat.zero_le _) limiter rfl
  | leaves hi => exact h.set hi .idle (fun _ => Nat.zero_le _) _ rfl

theorem peakInv_new (maxInflight threads : Nat) : PeakInv (.new maxInflight threads) := by
  intro most
  simp [Gauged.new, Gauged.within, List.countP_replicate, Caller.isWithin]

theorem inv_run (maxInflight threads : Nat) (actions : List SourceAction) :
    GaugeInv ((Gauged.new maxInflight threads).run actions) ∧
      PeakInv ((Gauged.new maxInflight threads).run actions) := by
  refine Runs.foldl_inv (fun s => GaugeInv s ∧ PeakInv s) (fun s a h => ?_) actions
    ⟨gaugeInv_new maxInflight threads, peakInv_new maxInflight threads⟩
  exact ⟨h.1.moves (moves s a), h.2.moves h.1 (moves s a)⟩

theorem peak_le_step (s : Gauged) (a : SourceAction) : s.perf.snmpInflightMax ≤ (s.step a).perf.snmpInflightMax := by
  have hmoves := moves s a
  generalize s.step a = s' at hmoves
  cases hmoves with
  | peaks hi => exact Nat.le_max_left _ _
  | _ => exact le_rfl

theorem peak_le_run (s : Gauged) (actions : List SourceAction) :
    s.perf.snmpInflightMax ≤ (s.run actions).perf.snmpInflightMax :=
  Runs.foldl_inv (fun s' => s.perf.snmpInflightMax ≤ s'.perf.snmpInflightMax)
    (fun s' a h => h.trans (peak_le_step s' a)) actions le_rfl

/-! ## The peak is one that was reached -/

/-- The gauge after a part of the run. -/
def Gauged.Reaches (start : Gauged) (actions : List SourceAction) (n : Nat) : Prop :=
  ∃ pre, pre <+: actions ∧ (start.run pre).perf.snmpInflight = n

/-- What every part of the run leaves in the gauge is in the peak, or is about to be, and what is
there was in the gauge. -/
structure Tracks (start : Gauged) (actions : List SourceAction) (s : Gauged) : Prop where
  covered : ∀ n, start.Reaches actions n →
    n ≤ s.perf.snmpInflightMax ∨ ∃ now, .counted now ∈ s.callers ∧ n ≤ now
  counted : ∀ now, .counted now ∈ s.callers → start.Reaches actions now
  peak : start.Reaches actions s.perf.snmpInflightMax

theorem run_append (start : Gauged) (pre post : List SourceAction) :
    start.run (pre ++ post) = (start.run pre).run post :=
  List.foldl_append

section
variable {start : Gauged} {actions : List SourceAction} {a : SourceAction} {n : Nat}

theorem Gauged.Reaches.concat (h : start.Reaches actions n) (a : SourceAction) : start.Reaches (actions ++ [a]) n := by
  obtain ⟨pre, hpre, hn⟩ := h
  exact ⟨pre, hpre.trans (List.prefix_append actions [a]), hn⟩

theorem reaches_concat_iff : start.Reaches (actions ++ [a]) n ↔
    start.Reaches actions n ∨ ((start.run actions).step a).perf.snmpInflight = n := by
  constructor
  · intro ⟨pre, hpre, hn⟩
    rcases List.prefix_concat_iff.mp hpre with rfl | hpre
    · right
      rwa [run_append] at hn
    · exact .inl ⟨pre, hpre, hn⟩
  · intro h
    rcases h with h | h
    · exact h.concat a
    · exact ⟨actions ++ [a], List.prefix_rfl, by rwa [run_append]⟩

/-- Who is elsewhere stays. -/
theorem mem_set_of_ne {caller other : Caller} (hi : s.callers[i]? = some caller) (hother : other ∈ s.callers)
    (hne : other ≠ caller) (next : Caller) : other ∈ s.set i next := by
  obtain ⟨j, hj⟩ := List.getElem?_of_mem hother
  have hij : i ≠ j := fun hij => hne (Option.some.inj (hj.symm.trans (hij ▸ hi)))
  exact List.mem_of_getElem? ((List.getElem?_set_ne hij).trans hj)

theorem mem_of_mem_set {other next : Caller} (h : other ∈ s.set i next) (hne : other ≠ next) : other ∈ s.callers :=
  (List.mem_or_eq_of_mem_set h).resolve_right hne

/-- The threads between the two steps are as they were, and the gauge is no higher. -/
theorem Tracks.stays (h : Tracks start actions s) (hhere : start.Reaches actions s.perf.snmpInflight)
    (hreaches : ∀ n, start.Reaches (actions ++ [a]) n ↔ start.Reaches actions n ∨ s'.perf.snmpInflight = n)
    (hcallers : ∀ now, Caller.counted now ∈ s'.callers ↔ .counted now ∈ s.callers)
    (hgauge : s'.perf.snmpInflight ≤ s.perf.snmpInflight)
    (hpeak : s'.perf.snmpInflightMax = s.perf.snmpInflightMax) : Tracks start (actions ++ [a]) s' where
  covered n hn := by
    simp only [hcallers, hpeak]
    rcases (hreaches n).mp hn with hn | rfl
    · exact h.covered n hn
    · rcases h.covered _ hhere with hle | ⟨now, hnow, hle⟩
      · exact .inl (hgauge.trans hle)
      · exact .inr ⟨now, hnow, hgauge.trans hle⟩
  counted now hnow := (h.counted now ((hcallers now).mp hnow)).concat a
  peak := by
    rw [hpeak]
    exact h.peak.concat a

theorem counted_mem_set_iff {caller next : Caller} (hi : s.callers[i]? = some caller)
    (hcaller : ∀ now, caller ≠ .counted now) (hnext : ∀ now, next ≠ .counted now) (now : Nat) :
    Caller.counted now ∈ s.set i next ↔ .counted now ∈ s.callers :=
  ⟨fun h => mem_of_mem_set h (hnext now).symm, fun h => mem_set_of_ne hi h (hcaller now).symm next⟩

theorem Tracks.moves (h : Tracks start actions s) (hhere : start.Reaches actions s.perf.snmpInflight)
    (hmoves : Moves s s')
    (hreaches : ∀ n, start.Reaches (actions ++ [a]) n ↔ start.Reaches actions n ∨ s'.perf.snmpInflight = n) :
    Tracks start (actions ++ [a]) s' := by
  cases hmoves with
  | stays => exact h.stays hhere hreaches (fun _ => Iff.rfl) le_rfl rfl
  | requests hi => exact h.stays hhere hreaches (counted_mem_set_iff hi nofun nofun) le_rfl rfl
  | enters hi limiter => exact h.stays hhere hreaches (counted_mem_set_iff hi nofun nofun) le_rfl rfl
  | permits limiter => exact h.stays hhere hreaches (fun _ => Iff.rfl) le_rfl rfl
  | answered hi limiter => exact h.stays hhere hreaches (counted_mem_set_iff hi nofun nofun) le_rfl rfl
  | leaves hi => exact h.stays hhere hreaches (counted_mem_set_iff hi nofun nofun) (Nat.sub_le _ 1) rfl
  | @counts i hi =>
    refine ⟨fun n hn => ?_, fun now hnow => ?_, h.peak.concat a⟩
    · rcases (hreaches n).mp hn with hn | rfl
      · rcases h.covered n hn with hle | ⟨now, hnow, hle⟩
        · exact .inl hle
        · exact .inr ⟨now, mem_set_of_ne hi hnow nofun _, hle⟩
      · exact .inr ⟨_, List.mem_set (List.getElem?_eq_some_iff.mp hi).1 _, le_rfl⟩
    · rcases List.mem_or_eq_of_mem_set hnow with hnow | hnow
      · exact (h.counted now hnow).concat a
      · exact (hreaches now).mpr (.inr (Caller.counted.inj hnow).symm)
  | @peaks i last hi =>
    refine ⟨fun n hn => ?_, fun now hnow => (h.counted now (mem_of_mem_set hnow nofun)).concat a, ?_⟩
    · have hn : start.Reaches actions n := by
        rcases (hreaches n).mp hn with hn | rfl
        · exact hn
        · exact hhere
      rcases h.covered n hn with hle | ⟨now, hnow, hle⟩
      · exact .inl (le_max_of_le_left hle)
      · by_cases hlast : now = last
        · exact .inl (le_max_of_le_right (hlast ▸ hle))
        · exact .inr ⟨now, mem_set_of_ne hi hnow (fun heq => hlast (Caller.counted.inj heq)) _, hle⟩
    · show start.Reaches (actions ++ [a]) (max s.perf.snmpInflightMax last)
      rcases max_cases s.perf.snmpInflightMax last with ⟨hmax, -⟩ | ⟨hmax, -⟩
      · rw [hmax]
        exact h.peak.concat a
      · rw [hmax]
        exact (h.counted last (List.mem_of_getElem? hi)).concat a

end

theorem tracks_run (maxInflight threads : Nat) (actions : List SourceAction) :
    Tracks (.new maxInflight threads) actions ((Gauged.new maxInflight threads).run actions) := by
  induction actions using List.reverseRecOn with
  | nil =>
    have hnone : ∀ now, Caller.counted now ∉ (Gauged.new maxInflight threads).callers :=
      fun now h => nomatch (List.mem_replicate.mp h).2
    refine ⟨fun n hn => ?_, fun now hnow => absurd hnow (hnone now), ⟨[], List.prefix_rfl, rfl⟩⟩
    obtain ⟨pre, hpre, rfl⟩ := hn
    obtain rfl := List.prefix_nil.mp hpre
    exact .inl le_rfl
  | append_singleton actions a ih =>
    rw [run_append]
    exact ih.moves ⟨actions, List.prefix_rfl, rfl⟩ (moves _ a) fun n => reaches_concat_iff

/-- What holds after a run of a source with a cap (or with none, at zero). -/
structure Accounted (maxInflight : Nat) (start : Gauged) (actions : List SourceAction) (s : Gauged) : Prop where
  /-- the gauge counts the threads between its two operations -/
  gauge : s.perf.snmpInflight = s.counted
  /-- the cap holds for the back end -/
  capped : 0 < maxInflight → s.inBackend ≤ maxInflight
  /-- the peak is never under what the back end had at once -/
  covers : ∀ pre, pre <+: actions → (start.run pre).inBackend ≤ s.perf.snmpInflightMax
  /-- it is a reading of the gauge -/
  reading : start.Reaches actions s.perf.snmpInflightMax
  /-- and the highest one, when no thread is between the two steps of `inflight_enter` -/
  highest : s.Settled → ∀ n, start.Reaches actions n → n ≤ s.perf.snmpInflightMax

/-- **The gauge and its peak are right in every interleaving.** -/
theorem inflight_run (maxInflight threads : Nat) (actions : List SourceAction) :
    Accounted maxInflight (.new maxInflight threads) actions ((Gauged.new maxInflight threads).run actions) where
  gauge := (inv_run maxInflight threads actions).1
  capped hcap := (inBackend_le_inflight _).trans ((sourceInv_run maxInflight threads actions).inflight_le hcap)
  covers pre hpre := by
    obtain ⟨post, rfl⟩ := hpre
    have hpeak := (inv_run maxInflight threads pre).2 0
    rw [Nat.max_zero] at hpeak
    refine ((inBackend_le_within _).trans hpeak).trans ?_
    rw [run_append]
    exact peak_le_run _ post
  reading := (tracks_run maxInflight threads actions).peak
  highest hsettled n hn := by
    rcases (tracks_run maxInflight threads actions).covered n hn with hle | ⟨now, hnow, -⟩
    · exact hle
    · exact absurd rfl (hsettled _ hnow now)

end

/-! ## The gauge is not capped

The permit is free before the gauge goes down, so the next thread is counted beside the one
that has left. -/

/-- One request of a thread, to where its permit is free. -/
def lagBehind (i : Nat) : List SourceAction := .request i :: List.replicate 4 (.turn i 0)

section
variable {maxInflight threads i : Nat}

theorem acquire_new (hcap : 0 < maxInflight) (hi : i < threads) :
    (Semaphore.new maxInflight threads).acquire i = (⟨maxInflight - 1, .new threads⟩, true) := by
  have hwaiter : (Condvar.new threads).waiters[i]? = some .away := List.getElem?_replicate_of_lt hi
  have hset : (Condvar.new threads).set i .away = .new threads := by
    rw [Condvar.set, Condvar.new, List.set_replicate_self]
  simp only [Semaphore.acquire, Semaphore.new, hwaiter, if_neg hcap.ne', hset]

theorem release_new (hcap : 0 < maxInflight) (choice : Nat) :
    Semaphore.release ⟨maxInflight - 1, .new threads⟩ choice = .new maxInflight threads := by
  have hsleepers : (Condvar.new threads).sleepers = [] := by
    rw [Condvar.sleepers, List.filter_eq_nil_iff]
    intro i hi
    rw [List.mem_range, Condvar.new, List.length_replicate] at hi
    simp [Condvar.new, List.getElem?_replicate_of_lt hi]
  rw [Semaphore.release, Condvar.notifyOne, hsleepers, Nat.sub_add_cancel hcap]
  rfl

/-- A thread that no other has waited beside. -/
theorem run_lagBehind (hcap : 0 < maxInflight) (before after : List Caller)
    (hthreads : before.length < threads) (n : Nat) :
    Gauged.run ⟨some (.new maxInflight threads), before ++ .idle :: after, ⟨n, n⟩⟩ (lagBehind before.length) =
      ⟨some (.new maxInflight threads), before ++ .answered :: after, ⟨n + 1, n + 1⟩⟩ := by
  have hset : ∀ (limiter : Option Semaphore) (caller next : Caller) (perf : PerfStats),
      Gauged.set ⟨limiter, before ++ caller :: after, perf⟩ before.length next = before ++ next :: after := by
    intro limiter caller next perf
    simp [Gauged.set]
  have hget : ∀ caller : Caller, (before ++ caller :: after)[before.length]? = some caller := by
    intro caller
    simp
  simp only [Gauged.run, lagBehind, List.replicate, List.foldl_cons, List.foldl_nil, Gauged.step, hget, hset,
    Gauged.admitRequest, acquire_new hcap hthreads, if_true, PerfStats.inflightEnter, PerfStats.inflightPeak,
    Option.map_some, release_new hcap, Nat.max_eq_right (Nat.le_succ n)]

/-- **The peak is not held to the cap**: with any cap, as many threads as there are can be counted at once. -/
theorem peak_reaches_threads (hcap : 0 < maxInflight) (threads : Nat) :
    ∃ actions, ((Gauged.new maxInflight threads).run actions).perf = ⟨threads, threads⟩ := by
  have hlag : ∀ n, n ≤ threads → ∃ actions, (Gauged.new maxInflight threads).run actions =
      ⟨some (.new maxInflight threads), List.replicate n .answered ++ List.replicate (threads - n) .idle, ⟨n, n⟩⟩ := by
    intro n hn
    induction n with
    | zero => exact ⟨[], by simp [Gauged.run, Gauged.new, if_pos hcap, PerfStats.new]⟩
    | succ n ih =>
      obtain ⟨actions, hactions⟩ := ih (by omega)
      refine ⟨actions ++ lagBehind n, ?_⟩
      have hlength : (List.replicate n Caller.answered).length = n := List.length_replicate
      have hrun := run_lagBehind hcap (List.replicate n .answered) (List.replicate (threads - (n + 1)) .idle)
        (hlength.trans_lt hn) n
      have hrest : threads - n = threads - (n + 1) + 1 := by omega
      rw [hlength] at hrun
      rw [run_append, hactions, hrest, List.replicate_succ (n := threads - (n + 1))]
      refine hrun.trans ?_
      rw [List.replicate_succ' (n := n), List.append_assoc]
      rfl
  obtain ⟨actions, hactions⟩ := hlag threads le_rfl
  exact ⟨actions, by rw [hactions]⟩

end

end JaspyNexus.Snmp

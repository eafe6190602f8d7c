import Mathlib
import JaspyNexus.Lib.Edges
import JaspyNexus.Utilities.ImdsReports

/-! # The sums of a health summary

A summary adds up what the samples of a window grew by, in a `u64`. The growth of a
counter over a window is the difference of its ends and what it fell by in between;
a counter that fell back far enough to be accepted can climb again, and then the sum
does not fit (`reset_overflows`). -/

namespace JaspyNexus.Utilities.ImdsReports
open JaspyNexus.Lib JaspyNexus.Lib.Edges JaspyNexus.Models JaspyNexus.Utilities.Health

/-! ## Readings in a window -/

/-- What the accepted reports of a window read, newest first, after the last value
read before it. -/
def windowReadings (read : Turn → Option Nat) (cut : Nat) (turns : List Turn) : List (Option Nat) :=
  ((taken turns).filter fun t => cut ≤ t.now).map read ++
    [lastKnown (((taken turns).filter fun t => t.now < cut).map read)]

/-- The counter as the reports carry it. -/
def carried (c : Counter) (t : Turn) : Option Nat := t.report.counters c

/-- The clock as the reports are taken. -/
def clock (t : Turn) : Option Nat := some t.now

/-- A rise that a `u64` can hold: the last value and what the counter fell by are less
than 2^64 above the first value. -/
def Fits (readings : List (Option Nat)) : Prop :=
  (lastKnown readings).getD 0 + fall readings < 2 ^ 64 + (firstKnown readings).getD 0

/-- The same for the rise of two counters together. -/
def FitTogether (readings readings' : List (Option Nat)) : Prop :=
  (lastKnown readings).getD 0 + fall readings + ((lastKnown readings').getD 0 + fall readings') <
    2 ^ 64 + (firstKnown readings).getD 0 + (firstKnown readings').getD 0

/-- Where a window begins for the samples that are kept. -/
def windowCut (cfg : HealthConfig) (windowMs now : Nat) (turns : List Turn) : Nat :=
  max (now - windowMs) (lastAccepted turns - cfg.sampleRetainMs)

/-- **The condition.** What the accepted reports of the windows carry rises by less than
2^64: of both errors together, of the discards, of the octets each way, and of the clock. -/
structure RisesFit (cfg : HealthConfig) (now : Nat) (turns : List Turn) : Prop where
  errors : FitTogether
    (windowReadings (carried .inErrors) (windowCut cfg cfg.counterWindowMs now turns) turns)
    (windowReadings (carried .outErrors) (windowCut cfg cfg.counterWindowMs now turns) turns)
  discards :
    Fits (windowReadings (carried .outDiscards) (windowCut cfg cfg.counterWindowMs now turns) turns)
  inOctets :
    Fits (windowReadings (carried .inOctets) (windowCut cfg cfg.throughputWindowMs now turns) turns)
  outOctets :
    Fits (windowReadings (carried .outOctets) (windowCut cfg cfg.throughputWindowMs now turns) turns)
  span : Fits (windowReadings clock (windowCut cfg cfg.throughputWindowMs now turns) turns)

/-! ## Exact sums -/

/-- A figure summed over the samples of a window. -/
def windowSum (windowMs now : Nat) (figure : Sample → Nat) (samples : List Sample) : Nat :=
  ((samples.filter fun s => now - windowMs ≤ s.ts).map figure).sum

/-- The sums of a summary are those of the integers. -/
structure SumsExact (cfg : HealthConfig) (now : Nat) (ih : InterfaceHealth) : Prop where
  inErrors : ∀ lastReport, (summary cfg ih now lastReport).inErrors =
    windowSum cfg.counterWindowMs now Sample.inErrors ih.samples
  outErrors : ∀ lastReport, (summary cfg ih now lastReport).outErrors =
    windowSum cfg.counterWindowMs now Sample.outErrors ih.samples
  errors : ∀ lastReport, u64 ((summary cfg ih now lastReport).inErrors +
      (summary cfg ih now lastReport).outErrors) =
    windowSum cfg.counterWindowMs now Sample.inErrors ih.samples +
      windowSum cfg.counterWindowMs now Sample.outErrors ih.samples
  discards : ∀ lastReport, (summary cfg ih now lastReport).discards =
    windowSum cfg.counterWindowMs now Sample.outDiscards ih.samples
  inOctets : u64 ((measured cfg.throughputWindowMs now ih.samples).map Sample.inOctets).sum =
    ((measured cfg.throughputWindowMs now ih.samples).map Sample.inOctets).sum
  outOctets : u64 ((measured cfg.throughputWindowMs now ih.samples).map Sample.outOctets).sum =
    ((measured cfg.throughputWindowMs now ih.samples).map Sample.outOctets).sum
  span : u64 ((measured cfg.throughputWindowMs now ih.samples).map Sample.intervalMs).sum =
    ((measured cfg.throughputWindowMs now ih.samples).map Sample.intervalMs).sum

theorem u64_eq_iff {n : Nat} : u64 n = n ↔ n < 2 ^ 64 := by
  unfold u64
  omega

/-- Sums are exact when they fit. -/
theorem sumsExact_iff_lt {cfg : HealthConfig} {now : Nat} {ih : InterfaceHealth}
    (hmeasured : ∀ s ∈ ih.samples, 0 < s.intervalMs) : SumsExact cfg now ih ↔
      windowSum cfg.counterWindowMs now Sample.inErrors ih.samples +
        windowSum cfg.counterWindowMs now Sample.outErrors ih.samples < 2 ^ 64 ∧
      windowSum cfg.counterWindowMs now Sample.outDiscards ih.samples < 2 ^ 64 ∧
      windowSum cfg.throughputWindowMs now Sample.inOctets ih.samples < 2 ^ 64 ∧
      windowSum cfg.throughputWindowMs now Sample.outOctets ih.samples < 2 ^ 64 ∧
      windowSum cfg.throughputWindowMs now Sample.intervalMs ih.samples < 2 ^ 64 := by
  have hwindow : measured cfg.throughputWindowMs now ih.samples =
      ih.samples.filter fun s => now - cfg.throughputWindowMs ≤ s.ts := by
    unfold measured
    refine List.filter_congr fun s hs => ?_
    simp [hmeasured s hs]
  have hin : ∀ lastReport, (summary cfg ih now lastReport).inErrors =
      u64 (windowSum cfg.counterWindowMs now Sample.inErrors ih.samples) := fun _ => rfl
  have hout : ∀ lastReport, (summary cfg ih now lastReport).outErrors =
      u64 (windowSum cfg.counterWindowMs now Sample.outErrors ih.samples) := fun _ => rfl
  have hdiscards : ∀ lastReport, (summary cfg ih now lastReport).discards =
      u64 (windowSum cfg.counterWindowMs now Sample.outDiscards ih.samples) := fun _ => rfl
  constructor
  · intro h
    have herrors := h.errors 0
    rw [h.inErrors, h.outErrors] at herrors
    have hd := h.discards 0
    rw [hdiscards] at hd
    have hio := h.inOctets
    have hoo := h.outOctets
    have hspan := h.span
    rw [hwindow] at hio hoo hspan
    exact ⟨u64_eq_iff.mp herrors, u64_eq_iff.mp hd, u64_eq_iff.mp hio, u64_eq_iff.mp hoo,
      u64_eq_iff.mp hspan⟩
  · intro h
    obtain ⟨herrors, hd, hio, hoo, hspan⟩ := h
    have hine : u64 (windowSum cfg.counterWindowMs now Sample.inErrors ih.samples) =
      windowSum cfg.counterWindowMs now Sample.inErrors ih.samples := u64_eq_iff.mpr (by omega)
    have houte : u64 (windowSum cfg.counterWindowMs now Sample.outErrors ih.samples) =
      windowSum cfg.counterWindowMs now Sample.outErrors ih.samples := u64_eq_iff.mpr (by omega)
    refine ⟨fun _ => ?_, fun _ => ?_, fun _ => ?_, fun _ => ?_, ?_, ?_, ?_⟩
    · rw [hin, hine]
    · rw [hout, houte]
    · rw [hin, hout, hine, houte]
      exact u64_eq_iff.mpr herrors
    · rw [hdiscards]
      exact u64_eq_iff.mpr hd
    · rw [hwindow]
      exact u64_eq_iff.mpr hio
    · rw [hwindow]
      exact u64_eq_iff.mpr hoo
    · rw [hwindow]
      exact u64_eq_iff.mpr hspan

/-! ## The samples of the turns -/

/-- The sample an accepted report makes, unless it is the first one. -/
def Turn.sample? (t : Turn) : Option Sample :=
  if 0 < t.found.lastReport then some ((sampleInput t.found t.report t.now).sample t.now) else none

section Samples
variable {cfg : HealthConfig} {fqdn : String} {ifIndex : Int} {turns : List Turn}
  {m : InterfaceMetrics}

/-- The front of a list in order, dropped up to a bound. -/
theorem dropWhile_eq_filter {l : List Sample} (h : l.Pairwise fun a b => a.ts ≤ b.ts) (cut : Nat) :
    (l.dropWhile fun s => s.ts < cut) = l.filter fun s => cut ≤ s.ts := by
  induction l with
  | nil => rfl
  | cons s rest ih =>
    obtain ⟨hs, hrest⟩ := List.pairwise_cons.mp h
    by_cases hlt : s.ts < cut
    · rw [List.dropWhile_cons_of_pos (by simpa using hlt), ih hrest,
        List.filter_cons_of_neg (by simpa using hlt)]
    · rw [List.dropWhile_cons_of_neg (by simpa using hlt), List.filter_eq_self.mpr]
      intro s' hs'
      rcases List.mem_cons.mp hs' with rfl | hs'
      · simpa using hlt
      · have := hs s' hs'
        simp only [decide_eq_true_eq]
        omega

theorem sample?_ts {t : Turn} {s : Sample} (h : t.sample? = some s) : s.ts = t.now := by
  unfold Turn.sample? at h
  split at h
  · cases h; rfl
  · cases h

/-- The samples made, oldest first, are in order. -/
theorem samples_pairwise (h : (taken turns).Pairwise fun later earlier => earlier.now < later.now) :
    ((taken turns).filterMap Turn.sample?).reverse.Pairwise fun a b => a.ts ≤ b.ts := by
  rw [List.pairwise_reverse, List.pairwise_filterMap]
  refine h.imp fun hlt s hs s' hs' => ?_
  rw [sample?_ts hs, sample?_ts hs']
  exact hlt.le

/-- Adding the newest sample to what an earlier bound left, and pruning to a later one. -/
theorem prune_append {t : Turn} {older : List Turn} {earlier later : Nat}
    (hordered : ((t :: older).filterMap Turn.sample?).reverse.Pairwise fun a b => a.ts ≤ b.ts)
    (hle : earlier ≤ later) :
    ((((older.filterMap Turn.sample?).filter fun s => earlier ≤ s.ts).reverse ++
      t.sample?.toList).dropWhile fun s => s.ts < later) =
    (((t :: older).filterMap Turn.sample?).filter fun s => later ≤ s.ts).reverse := by
  have hcons : (t :: older).filterMap Turn.sample? =
      t.sample?.toList ++ older.filterMap Turn.sample? := by
    rw [List.filterMap_cons]
    cases t.sample? <;> rfl
  have hnewest : t.sample?.toList.reverse = t.sample?.toList := by
    cases t.sample? <;> rfl
  rw [hcons] at hordered ⊢
  have hsub : (((older.filterMap Turn.sample?).filter fun s => earlier ≤ s.ts).reverse ++
      t.sample?.toList).Sublist (t.sample?.toList ++ older.filterMap Turn.sample?).reverse := by
    rw [List.reverse_append, hnewest]
    exact List.filter_sublist.reverse.append (List.Sublist.refl _)
  rw [dropWhile_eq_filter (hordered.sublist hsub), List.filter_append, List.filter_append,
    List.filter_reverse, List.filter_filter, List.reverse_append, ← List.filter_reverse (l := t.sample?.toList),
    hnewest]
  congr 2
  refine List.filter_congr fun s _ => ?_
  simp only [Bool.and_eq_left_iff_imp, decide_eq_true_eq]
  omega

/-- **The samples that are kept**: those the accepted reports made, as far back as the
longest window reaches. -/
theorem samples_of_follows {ih? : Option InterfaceHealth}
    (hruled : ∀ t ∈ turns, t.Ruled cfg fqdn ifIndex) (h : Follows turns m)
    (hhealth : HealthFollows PMap.empty fqdn ifIndex turns ih?) :
    (ih?.map InterfaceHealth.samples).getD [] = (((taken turns).filterMap Turn.sample?).filter
      fun s => lastAccepted turns - cfg.sampleRetainMs ≤ s.ts).reverse := by
  induction turns generalizing m ih? with
  | nil =>
    rcases hhealth with rfl | rfl <;> rfl
  | cons t older ih =>
    have holder := fun t' ht' => hruled t' (List.mem_cons_of_mem t ht')
    have hrest := ih holder h.2 hhealth.2
    rw [hhealth.1, (hruled t List.mem_cons_self).health]
    by_cases hv : t.verdict = .accepted
    · rw [if_pos hv, HealthStore.at?_ingest, if_pos ⟨rfl, rfl⟩, Option.map_some, Option.getD_some]
      have hsame : ((t.healthFound.at? fqdn ifIndex).getD InterfaceHealth.empty).samples =
          ((t.healthFound.at? fqdn ifIndex).map InterfaceHealth.samples).getD [] := by
        cases t.healthFound.at? fqdn ifIndex <;> rfl
      have hlt := (verdict_accepted hv).1
      have hgrown : (if 0 < (sampleInput t.found t.report t.now).intervalMs then
          ((t.healthFound.at? fqdn ifIndex).getD InterfaceHealth.empty).samples ++
            [(sampleInput t.found t.report t.now).sample t.now]
          else ((t.healthFound.at? fqdn ifIndex).getD InterfaceHealth.empty).samples) =
          ((t.healthFound.at? fqdn ifIndex).map InterfaceHealth.samples).getD [] ++
            t.sample?.toList := by
        rw [hsame]
        unfold Turn.sample?
        by_cases hpos : 0 < t.found.lastReport
        · rw [if_pos hpos, if_pos (by simp only [sampleInput, if_pos hpos]; omega)]
          rfl
        · rw [if_neg hpos, if_neg (by simp [sampleInput, hpos]), Option.toList_none, List.append_nil]
      have hlast := lastAccepted_cons_of_accepted hv older
      have hlastOlder := lastReport_eq holder h.2
      have hordered := samples_pairwise (taken_pairwise hruled h)
      rw [taken_cons_of_accepted hv] at hordered ⊢
      rw [hlast]
      simp only [ingest, prune]
      rw [hgrown, hrest]
      exact prune_append hordered (by omega)
    · rw [if_neg hv, taken_cons_of_not hv, lastAccepted_cons_of_not hv, hrest]

/-! ## Sums over a window -/

/-- A figure of a sample is what a reading rose by since the reading before it. -/
structure Measures (read : Turn → Option Nat) (figure : Sample → Nat) (older : List Turn)
    (t : Turn) : Prop where
  sampled : ∀ s, t.sample? = some s →
    figure s = ((edge (lastKnown (older.map read)) (read t)).map fun e => e.2 - e.1).getD 0
  unsampled : t.sample? = none → edge (lastKnown (older.map read)) (read t) = none

/-- Every accepted report is measured. -/
def AllMeasured (read : Turn → Option Nat) (figure : Sample → Nat) : List Turn → Prop
  | [] => True
  | t :: older => Measures read figure older t ∧ AllMeasured read figure older

/-- The last reading, whichever side of the cut it is on. -/
theorem lastKnown_split {read : Turn → Option Nat} (cut : Nat) {taken : List Turn}
    (h : taken.Pairwise fun later earlier => earlier.now < later.now) :
    lastKnown ((taken.filter fun t => cut ≤ t.now).map read ++
      [lastKnown ((taken.filter fun t => t.now < cut).map read)]) = lastKnown (taken.map read) := by
  induction taken with
  | nil => rfl
  | cons t older ih =>
    obtain ⟨hlater, hrest⟩ := List.pairwise_cons.mp h
    by_cases hcut : cut ≤ t.now
    · rw [List.filter_cons_of_pos (by simpa using hcut), List.filter_cons_of_neg (by simp; omega),
        List.map_cons, List.map_cons, List.cons_append, lastKnown_cons, lastKnown_cons, ih hrest]
    · have hnone : (t :: older).filter (fun t => cut ≤ t.now) = [] := by
        rw [List.filter_eq_nil_iff]
        intro t' ht'
        rcases List.mem_cons.mp ht' with rfl | ht'
        · simpa using hcut
        · have := hlater t' ht'
          simp only [decide_eq_true_eq]
          omega
      have hall : (t :: older).filter (fun t => t.now < cut) = t :: older := by
        rw [List.filter_eq_self]
        intro t' ht'
        rcases List.mem_cons.mp ht' with rfl | ht'
        · simp only [decide_eq_true_eq]
          omega
        · have := hlater t' ht'
          simp only [decide_eq_true_eq]
          omega
      rw [hnone, hall]
      simp

/-- **The sum over a window is what the readings rose by in it.** -/
theorem sum_eq_rise {read : Turn → Option Nat} {figure : Sample → Nat} (cut : Nat)
    {taken : List Turn} (h : taken.Pairwise fun later earlier => earlier.now < later.now)
    (hmeasured : AllMeasured read figure taken) :
    (((taken.filterMap Turn.sample?).filter fun s => cut ≤ s.ts).map figure).sum =
      rise ((taken.filter fun t => cut ≤ t.now).map read ++
        [lastKnown ((taken.filter fun t => t.now < cut).map read)]) := by
  induction taken with
  | nil => rfl
  | cons t older ih =>
    obtain ⟨hlater, hrest⟩ := List.pairwise_cons.mp h
    have hsum := ih hrest hmeasured.2
    by_cases hcut : cut ≤ t.now
    · rw [List.filter_cons_of_pos (by simpa using hcut), List.filter_cons_of_neg (by simp; omega),
        List.map_cons, List.cons_append, rise_cons, lastKnown_split cut hrest, ← hsum,
        List.filterMap_cons]
      cases hs : t.sample? with
      | none =>
        rw [hmeasured.1.unsampled hs]
        simp
      | some s =>
        dsimp only
        rw [List.filter_cons_of_pos (by rw [sample?_ts hs]; simpa using hcut), List.map_cons,
          List.sum_cons, hmeasured.1.sampled s hs]
    · -- nothing of the rest is in the window
      have hout : ∀ t' ∈ t :: older, t'.now < cut := by
        intro t' ht'
        rcases List.mem_cons.mp ht' with rfl | ht'
        · omega
        · have := hlater t' ht'
          omega
      have hnone : (t :: older).filter (fun t => cut ≤ t.now) = [] := by
        rw [List.filter_eq_nil_iff]
        intro t' ht'
        have := hout t' ht'
        simp only [decide_eq_true_eq]
        omega
      have hsamples : ((t :: older).filterMap Turn.sample?).filter (fun s => cut ≤ s.ts) = [] := by
        rw [List.filter_eq_nil_iff]
        intro s hs
        obtain ⟨t', ht', hs'⟩ := List.mem_filterMap.mp hs
        have := hout t' ht'
        rw [sample?_ts hs']
        simp only [decide_eq_true_eq]
        omega
      rw [hnone, hsamples]
      simp [rise, edges, edge]

/-- What a report finds was reported, or there was none before it. -/
theorem taken_eq_nil {older : List Turn} {t : Turn} (hruled : ∀ t' ∈ older, t'.Ruled cfg fqdn ifIndex)
    (h : Follows older t.found) (hnone : t.found.lastReport = 0) : taken older = [] := by
  rw [lastReport_eq hruled h, lastAccepted] at hnone
  cases htaken : taken older with
  | nil => rfl
  | cons newest rest =>
    have hmem : newest ∈ taken older := by rw [htaken]; exact List.mem_cons_self
    have hlt := (verdict_accepted (of_decide_eq_true (List.mem_filter.mp hmem).2)).1
    simp only [htaken, List.head?_cons, Option.map_some, Option.getD_some] at hnone
    omega

theorem allMeasured {read : Turn → Option Nat} {figure : Sample → Nat}
    (hruled : ∀ t ∈ turns, t.Ruled cfg fqdn ifIndex) (h : Follows turns m)
    (hone : ∀ t older, (∀ t' ∈ older, t'.Ruled cfg fqdn ifIndex) → Follows older t.found →
      t.verdict = .accepted → Measures read figure (taken older) t) :
    AllMeasured read figure (taken turns) := by
  induction turns generalizing m with
  | nil => trivial
  | cons t older ih =>
    have holder := fun t' ht' => hruled t' (List.mem_cons_of_mem t ht')
    by_cases hv : t.verdict = .accepted
    · rw [taken_cons_of_accepted hv]
      exact ⟨hone t older holder h.2 hv, ih holder h.2⟩
    · rw [taken_cons_of_not hv]
      exact ih holder h.2

theorem counterDelta_eq_edge (old new : Option Nat) :
    counterDelta old new = ((edge old new).map fun e => e.2 - e.1).getD 0 := by
  cases old with
  | none => rfl
  | some old =>
    cases new with
    | none => rfl
    | some new =>
      unfold counterDelta edge
      by_cases hne : old = new <;> simp [hne]

theorem reads_counter (c : Counter) :
    Reads (fun m => m.counters c) (fun r => r.counters c) where
  fresh m h := by rw [← show m.resetCounters = m from h]; rfl
  relabelled m m' h := by rw [h.counters]
  applied _ _ _ := rfl
  refused _ _ := rfl

/-- The figure that a sample takes of a counter. -/
def SampledAs (c : Counter) (figure : Sample → Nat) : Prop :=
  ∀ m r now, figure ((sampleInput m r now).sample now) = counterDelta (m.counters c) (r.counters c)

/-- A counter's figures are what its readings rose by. -/
theorem measures_counter {c : Counter} {figure : Sample → Nat} (hfigure : SampledAs c figure)
    (t : Turn) (older : List Turn) (hruled : ∀ t' ∈ older, t'.Ruled cfg fqdn ifIndex)
    (h : Follows older t.found) : Measures (carried c) figure (taken older) t := by
  have hfound : t.found.counters c = lastKnown ((taken older).map (carried c)) :=
    (reads_counter c).stored_eq hruled h
  refine ⟨fun s hs => ?_, fun hs => ?_⟩
  · unfold Turn.sample? at hs
    split at hs
    · cases hs
      rw [hfigure, counterDelta_eq_edge, hfound]
      rfl
    · cases hs
  · unfold Turn.sample? at hs
    split at hs
    · cases hs
    · next hzero =>
      rw [taken_eq_nil hruled h (by omega)]
      rfl

/-- The interval of a sample is what the clock rose by. -/
theorem measures_clock (t : Turn) (older : List Turn)
    (hruled : ∀ t' ∈ older, t'.Ruled cfg fqdn ifIndex) (h : Follows older t.found)
    (hv : t.verdict = .accepted) : Measures clock Sample.intervalMs (taken older) t := by
  have hlast := lastReport_eq hruled h
  have hlt := (verdict_accepted hv).1
  refine ⟨fun s hs => ?_, fun hs => ?_⟩
  · unfold Turn.sample? at hs
    split at hs
    · next hpos =>
      cases hs
      rw [lastAccepted] at hlast
      cases htaken : taken older with
      | nil =>
        rw [htaken] at hlast
        simp only [List.head?_nil, Option.map_none, Option.getD_none] at hlast
        omega
      | cons newest rest =>
        rw [htaken] at hlast
        simp only [List.head?_cons, Option.map_some, Option.getD_some] at hlast
        have hne : newest.now ≠ t.now := by omega
        rw [hlast] at hpos
        simp [SampleInput.sample, sampleInput, hpos, clock, edge, hne, hlast]
    · cases hs
  · unfold Turn.sample? at hs
    split at hs
    · cases hs
    · next hzero =>
      rw [taken_eq_nil hruled h (by omega)]
      rfl

end Samples

/-! ## The condition is exact -/

theorem fits_iff (readings : List (Option Nat)) : Fits readings ↔ rise readings < 2 ^ 64 :=
  (rise_lt_iff readings _).symm

theorem fitTogether_iff (readings readings' : List (Option Nat)) :
    FitTogether readings readings' ↔ rise readings + rise readings' < 2 ^ 64 := by
  have hrise := rise_add_first readings
  have hrise' := rise_add_first readings'
  unfold FitTogether
  omega

/-- A sum over the kept samples of a window is a rise. -/
theorem windowSum_eq_rise {cfg : HealthConfig} {fqdn : String} {ifIndex : Int} {turns : List Turn}
    {m : InterfaceMetrics} {ih : InterfaceHealth} (hruled : ∀ t ∈ turns, t.Ruled cfg fqdn ifIndex)
    (h : Follows turns m) (hhealth : HealthFollows PMap.empty fqdn ifIndex turns (some ih))
    {read : Turn → Option Nat} {figure : Sample → Nat} (windowMs now : Nat)
    (hmeasured : AllMeasured read figure (taken turns)) :
    windowSum windowMs now figure ih.samples =
      rise (windowReadings read (windowCut cfg windowMs now turns) turns) := by
  have hsamples := samples_of_follows hruled h hhealth
  rw [Option.map_some, Option.getD_some] at hsamples
  have hsum := sum_eq_rise (windowCut cfg windowMs now turns) (taken_pairwise hruled h) hmeasured
  unfold windowReadings
  rw [← hsum, windowSum, hsamples, List.filter_reverse, List.map_reverse, List.sum_reverse,
    List.filter_filter]
  congr 2
  refine List.filter_congr fun s _ => ?_
  unfold windowCut
  rw [← Bool.decide_and]
  congr 1
  exact propext max_le_iff.symm

theorem kept_measured {cfg : HealthConfig} {fqdn : String} {ifIndex : Int} {turns : List Turn}
    {m : InterfaceMetrics} {ih : InterfaceHealth} (hruled : ∀ t ∈ turns, t.Ruled cfg fqdn ifIndex)
    (h : Follows turns m) (hhealth : HealthFollows PMap.empty fqdn ifIndex turns (some ih)) :
    ∀ s ∈ ih.samples, 0 < s.intervalMs := by
  have hsamples := samples_of_follows hruled h hhealth
  rw [Option.map_some, Option.getD_some] at hsamples
  intro s hs
  rw [hsamples, List.mem_reverse] at hs
  obtain ⟨t, ht, hsample⟩ := List.mem_filterMap.mp (List.mem_filter.mp hs).1
  have hlt := (verdict_accepted (of_decide_eq_true (List.mem_filter.mp ht).2)).1
  unfold Turn.sample? at hsample
  split at hsample
  · next hpos =>
    cases hsample
    simp only [SampleInput.sample, sampleInput, if_pos hpos]
    omega
  · cases hsample

theorem sumsExact_iff_risesFit {cfg : HealthConfig} {fqdn : String} {ifIndex : Int}
    {turns : List Turn} {m : InterfaceMetrics} {ih : InterfaceHealth}
    (hruled : ∀ t ∈ turns, t.Ruled cfg fqdn ifIndex) (h : Follows turns m)
    (hhealth : HealthFollows PMap.empty fqdn ifIndex turns (some ih)) (now : Nat) :
    SumsExact cfg now ih ↔ RisesFit cfg now turns := by
  have hcounter : ∀ {c : Counter} {figure : Sample → Nat} (windowMs : Nat), SampledAs c figure →
      windowSum windowMs now figure ih.samples =
        rise (windowReadings (carried c) (windowCut cfg windowMs now turns) turns) :=
    fun windowMs hfigure => windowSum_eq_rise hruled h hhealth windowMs now
      (allMeasured hruled h fun t older holder hfound _ => measures_counter hfigure t older holder hfound)
  have hclock := windowSum_eq_rise hruled h hhealth cfg.throughputWindowMs now
    (allMeasured hruled h measures_clock)
  rw [sumsExact_iff_lt (kept_measured hruled h hhealth), hclock,
    hcounter (c := .inErrors) cfg.counterWindowMs fun _ _ _ => rfl,
    hcounter (c := .outErrors) cfg.counterWindowMs fun _ _ _ => rfl,
    hcounter (c := .outDiscards) cfg.counterWindowMs fun _ _ _ => rfl,
    hcounter (c := .inOctets) cfg.throughputWindowMs fun _ _ _ => rfl,
    hcounter (c := .outOctets) cfg.throughputWindowMs fun _ _ _ => rfl]
  constructor
  · intro hlt
    obtain ⟨herrors, hdiscards, hin, hout, hspan⟩ := hlt
    exact ⟨(fitTogether_iff _ _).mpr herrors, (fits_iff _).mpr hdiscards, (fits_iff _).mpr hin,
      (fits_iff _).mpr hout, (fits_iff _).mpr hspan⟩
  · intro hfit
    exact ⟨(fitTogether_iff _ _).mp hfit.errors, (fits_iff _).mp hfit.discards,
      (fits_iff _).mp hfit.inOctets, (fits_iff _).mp hfit.outOctets, (fits_iff _).mp hfit.span⟩

/-- Without a history no report was accepted. -/
theorem taken_of_no_health {cfg : HealthConfig} {fqdn : String} {ifIndex : Int} {turns : List Turn}
    (hruled : ∀ t ∈ turns, t.Ruled cfg fqdn ifIndex)
    (hhealth : HealthFollows PMap.empty fqdn ifIndex turns none) : taken turns = [] := by
  induction turns with
  | nil => rfl
  | cons t older ih =>
    have hleft := hhealth.1
    rw [(hruled t List.mem_cons_self).health] at hleft
    by_cases hv : t.verdict = .accepted
    · rw [if_pos hv, HealthStore.at?_ingest, if_pos ⟨rfl, rfl⟩] at hleft
      cases hleft
    · have hrest := hhealth.2
      rw [if_neg hv] at hleft
      rw [← hleft] at hrest
      rw [taken_cons_of_not hv]
      exact ih (fun t' ht' => hruled t' (List.mem_cons_of_mem t ht')) hrest

theorem risesFit_of_not_taken {cfg : HealthConfig} {now : Nat} {turns : List Turn}
    (h : taken turns = []) : RisesFit cfg now turns := by
  have hrise : ∀ (read : Turn → Option Nat) (cut : Nat), rise (windowReadings read cut turns) = 0 := by
    intro read cut
    unfold windowReadings
    rw [h]
    rfl
  refine ⟨(fitTogether_iff _ _).mpr ?_, (fits_iff _).mpr ?_, (fits_iff _).mpr ?_,
    (fits_iff _).mpr ?_, (fits_iff _).mpr ?_⟩
  all_goals simp only [hrise]
  all_goals norm_num

/-- **In every state of every run of the store, and for a summary at any time: the sums
of an interface's summary are exact if and only if what its accepted reports carry in
the windows rises by less than 2^64.** -/
theorem sums_exact_iff (cfg : HealthConfig) (ops : List Op) (fqdn : String) (ifIndex : Int)
    (now : Nat) :
    (∀ ih, (Watched.run cfg PMap.empty ops).imds.health.at? fqdn ifIndex = some ih →
      SumsExact cfg now ih) ↔
    RisesFit cfg now ((Watched.run cfg PMap.empty ops).turns fqdn ifIndex) := by
  have hfollowed := told_run cfg PMap.empty ops fqdn ifIndex
  have hhealth := hfollowed.health
  cases hih : (Watched.run cfg PMap.empty ops).imds.health.at? fqdn ifIndex with
  | none =>
    rw [hih] at hhealth
    refine iff_of_true (fun ih h => by cases h) ?_
    exact risesFit_of_not_taken (taken_of_no_health hfollowed.ruled hhealth)
  | some ih =>
    rw [hih] at hhealth
    cases hm : (Watched.run cfg PMap.empty ops).imds.interface? fqdn ifIndex with
    | none =>
      rw [hfollowed.absent hm] at hhealth
      rcases hhealth with h | h <;> cases h
    | some m =>
      rw [← sumsExact_iff_risesFit hfollowed.ruled (hfollowed.entry m hm) hhealth now]
      constructor
      · intro h
        exact h ih rfl
      · intro h ih' hih'
        cases hih'
        exact h

/-- A counter that never falls fits, as long as its values do. -/
theorem fits_of_no_fall {readings : List (Option Nat)} (hfall : fall readings = 0)
    (hlast : ∀ value, lastKnown readings = some value → value < 2 ^ 64) : Fits readings := by
  unfold Fits
  rw [hfall]
  cases hvalue : lastKnown readings with
  | none =>
    rw [Option.getD_none]
    omega
  | some value =>
    have := hlast value hvalue
    rw [Option.getD_some]
    omega

/-! ## A reset in the window -/

/-- A poll of one interface that reads its input errors. -/
def errorsPoll (inErrors now : Nat) : Op :=
  .reportInterfaces (fun _ => none)
    { deviceFqdn := "sw1"
      interfaces :=
        [{ ifIndex := 1
           counters := fun c => if c = .inErrors then some inErrors else none
           up := some true
           speed := none
           adminUp := none
           errDisabled := none
           errDisableCause := none
           errDisableRecoverSecs := none }] } now now

/-- **A counter that climbs, is reset and climbs again in one window overflows the
sum**: the two growths are lost but for their remainder. -/
theorem reset_overflows :
    let w := Watched.run .default PMap.empty
      [.refreshDevice "sw1" none 500, .refreshInterface "sw1" 1 "ethernetCsmacd" "Gi0/1" false none,
        errorsPoll 0 1000, errorsPoll (2 ^ 64 - 1) 2000, errorsPoll 0 3000,
        errorsPoll (2 ^ 64 - 1) 4000]
    ∃ ih, w.imds.health.at? "sw1" 1 = some ih ∧ ¬SumsExact .default 5000 ih ∧
      (summary .default ih 5000 4000).inErrors = 2 ^ 64 - 2 ∧
      windowSum HealthConfig.default.counterWindowMs 5000 Sample.inErrors ih.samples = 2 ^ 65 - 2 := by
  refine ⟨_, rfl, fun h => ?_, by decide +kernel, by decide +kernel⟩
  have hsum := h.inErrors 4000
  revert hsum
  decide +kernel

end JaspyNexus.Utilities.ImdsReports

import Mathlib
import JaspyNexus.Routes.Issues

/-! # Occurrences of an issue

An issue that is gone for longer than the grace period and comes back is another
occurrence, and re-alerts. The tracker tells occurrences apart by their onset, over a
run of scans that may begin with a restart: `onset_of_history` states what it reports
from the history alone, and to which scans an acknowledgement applies. -/

namespace JaspyNexus.Routes.Occurrences
open JaspyNexus.Lib JaspyNexus.Utilities.Issues JaspyNexus.Routes.Issues
open JaspyNexus.Models (IssueAck IssueAcks)

/-! ## Runs -/

structure Seed where
  key : String
  firstSeen : UInt64
  now : UInt64

structure Scan where
  now : UInt64
  derived : List DerivedIssue

def Scan.keys (scan : Scan) : List String := scan.derived.map DerivedIssue.issueKey

def seedAll (t : IssueTracker) (seeds : List Seed) : IssueTracker :=
  seeds.foldl (fun t seed => t.seed seed.key seed.firstSeen seed.now) t

def scanAll (t : IssueTracker) (scans : List Scan) : IssueTracker :=
  scans.foldl (fun t scan => (t.reconcile scan.now scan.derived).1) t

/-- The tracker after the seeds and the scans. -/
def after (grace : UInt64) (seeds : List Seed) (scans : List Scan) : IssueTracker :=
  scanAll (seedAll (IssueTracker.new grace) seeds) scans

/-- What a scan reports after the seeds and earlier scans. -/
def report (grace : UInt64) (seeds : List Seed) (before : List Scan) (scan : Scan) :
    List TrackedIssue := ((after grace seeds before).reconcile scan.now scan.derived).2

/-- `server_main` seeds a new tracker from the persisted acknowledgements. -/
def ackSeeds (acks : List IssueAck) (now : UInt64) : List Seed :=
  acks.map fun ack => ⟨ack.issueKey, ack.firstSeen.toUInt64, now⟩

/-! ## Presence -/

/-- The key is present at the end of a run, at a time and with an onset: the run is a
seed of the key, which only the first one is, or it ends in a scan that reports it. -/
inductive Present (grace : UInt64) (seeds : List Seed) :
    List Scan → String → UInt64 → UInt64 → Prop
  | seeded {pre post : List Seed} {seed : Seed} (h : seeds = pre ++ seed :: post)
      (first : ∀ s ∈ pre, s.key ≠ seed.key) : Present grace seeds [] seed.key seed.now seed.firstSeen
  | scanned {earlier : List Scan} {scan : Scan} {tracked : TrackedIssue}
      (h : tracked ∈ report grace seeds earlier scan) :
      Present grace seeds (earlier ++ [scan]) tracked.issue.issueKey scan.now tracked.firstSeen

/-- The key was neither seeded nor derived. -/
def Never (seeds : List Seed) (before : List Scan) (key : String) : Prop :=
  (∀ seed ∈ seeds, seed.key ≠ key) ∧ ∀ scan ∈ before, key ∉ scan.keys

/-- The key was last present at a time and with an onset, and the scans of `gap` lack
it. -/
def LastPresence (grace : UInt64) (seeds : List Seed) (before : List Scan) (key : String)
    (gap : List Scan) (time onset : UInt64) : Prop :=
  ∃ done, before = done ++ gap ∧ Present grace seeds done key time onset ∧
    ∀ scan ∈ gap, key ∉ scan.keys

/-- A scan of the gap sees it exceed the grace period. -/
def Lapsed (grace time : UInt64) (gap : List Scan) : Prop :=
  ∃ scan ∈ gap, time < saturatingSub scan.now grace

/-- No scan sees the key gone for longer than the grace period. -/
def Unbroken (grace : UInt64) (key : String) : UInt64 → List Scan → Prop
  | _, [] => True
  | time, scan :: rest =>
    if key ∈ scan.keys then Unbroken grace key scan.now rest
    else ¬time < saturatingSub scan.now grace ∧ Unbroken grace key time rest

/-- **The onset of a reported issue**, from the history before the scan. -/
structure OnsetAsMeant (grace : UInt64) (seeds : List Seed) (before : List Scan) (scan : Scan)
    (tracked : TrackedIssue) : Prop where
  /-- the occurrence starts with this scan: the key is new or lapsed, or its last
  presence has this very onset -/
  starts : tracked.firstSeen = scan.now ↔ Never seeds before tracked.issue.issueKey ∨
    ∃ gap time onset, LastPresence grace seeds before tracked.issue.issueKey gap time onset ∧
      (Lapsed grace time gap ∨ onset = scan.now)
  /-- a key that is not new was last present somewhere -/
  known : Never seeds before tracked.issue.issueKey ∨
    ∃ gap time onset, LastPresence grace seeds before tracked.issue.issueKey gap time onset
  /-- a key that is new, or has lapsed, starts now -/
  fresh : Never seeds before tracked.issue.issueKey → tracked.firstSeen = scan.now
  lapsed : ∀ gap time onset,
    LastPresence grace seeds before tracked.issue.issueKey gap time onset →
    Lapsed grace time gap → tracked.firstSeen = scan.now
  /-- otherwise it keeps the onset of its last presence -/
  kept : ∀ gap time onset,
    LastPresence grace seeds before tracked.issue.issueKey gap time onset →
    ¬Lapsed grace time gap → tracked.firstSeen = onset
  /-- an acknowledgement made on an earlier presence shows exactly on its onset -/
  acknowledged : ∀ done between time onset (acks : PMap String IssueAck) ack,
    before = done ++ between → Present grace seeds done tracked.issue.issueKey time onset →
    acks tracked.issue.issueKey = some ack → ack.firstSeen = onset.toInt64 →
    ((apiIssue acks tracked).acknowledged = true ↔ tracked.firstSeen = onset)
  /-- it shows as long as no scan has seen the issue gone for longer than the grace
  period -/
  carried : ∀ done between time onset (acks : PMap String IssueAck) ack,
    before = done ++ between → Present grace seeds done tracked.issue.issueKey time onset →
    acks tracked.issue.issueKey = some ack → ack.firstSeen = onset.toInt64 →
    Unbroken grace tracked.issue.issueKey time between →
    (apiIssue acks tracked).acknowledged = true
  /-- and never for an occurrence that starts later -/
  dropped : ∀ done between time onset (acks : PMap String IssueAck) ack,
    before = done ++ between → Present grace seeds done tracked.issue.issueKey time onset →
    acks tracked.issue.issueKey = some ack → ack.firstSeen = onset.toInt64 →
    ¬Unbroken grace tracked.issue.issueKey time between → onset ≤ time →
    (time :: (between.map Scan.now ++ [scan.now])).Pairwise (· ≤ ·) →
    (apiIssue acks tracked).acknowledged = false
  /-- after a restart that seeds it, too -/
  restarted : ∀ (acks : IssueAcks) ack time, seeds = ackSeeds acks.rows time →
    acks.find tracked.issue.issueKey = some ack →
    Unbroken grace tracked.issue.issueKey time before →
    (apiIssue acks.find tracked).acknowledged = true

/-! ## What the tracker holds -/

variable {grace : UInt64} {seeds : List Seed} {key : String} {t : IssueTracker}

@[simp] theorem seedAll_graceMs (t : IssueTracker) (seeds : List Seed) :
    (seedAll t seeds).graceMs = t.graceMs := by
  induction seeds generalizing t with
  | nil => rfl
  | cons seed seeds ih => exact (ih _).trans (IssueTracker.seed_graceMs ..)

@[simp] theorem scanAll_graceMs (t : IssueTracker) (scans : List Scan) :
    (scanAll t scans).graceMs = t.graceMs := by
  induction scans generalizing t with
  | nil => rfl
  | cons scan scans ih => exact (ih _).trans rfl

theorem seedAll_seen (t : IssueTracker) (seeds : List Seed) : (seedAll t seeds).seen key =
    (t.seen key).or ((seeds.find? fun seed => seed.key = key).map fun seed =>
      ⟨seed.firstSeen, seed.now⟩) := by
  induction seeds generalizing t with
  | nil => simp [seedAll]
  | cons seed seeds ih =>
    rw [seedAll, List.foldl_cons, ← seedAll, ih, IssueTracker.seed_seen, List.find?_cons]
    by_cases hkey : seed.key = key
    · subst hkey
      cases t.seen seed.key <;> simp
    · simp [hkey, Ne.symm hkey]

theorem mem_report {before : List Scan} {scan : Scan} {tracked : TrackedIssue}
    (h : tracked ∈ report grace seeds before scan) : tracked.issue.issueKey ∈ scan.keys ∧
      tracked.firstSeen = (after grace seeds before).onset scan.now tracked.issue.issueKey := by
  rw [report, IssueTracker.reconcile_tracked] at h
  obtain ⟨issue, hissue, rfl⟩ := List.mem_map.mp h
  exact ⟨List.mem_map_of_mem hissue, rfl⟩

theorem after_append (before scans : List Scan) :
    after grace seeds (before ++ scans) = scanAll (after grace seeds before) scans :=
  List.foldl_append ..

theorem after_concat (before : List Scan) (scan : Scan) : after grace seeds (before ++ [scan]) =
    ((after grace seeds before).reconcile scan.now scan.derived).1 := after_append before [scan]

@[simp] theorem after_graceMs (before : List Scan) : (after grace seeds before).graceMs = grace := by
  simp [after, IssueTracker.new]

theorem scan_present (t : IssueTracker) {scan : Scan} (h : key ∈ scan.keys) :
    (t.reconcile scan.now scan.derived).1.seen key = some ⟨t.onset scan.now key, scan.now⟩ :=
  (t.reconcile_seen scan.now scan.derived key).trans (if_pos h)

theorem scan_absent (t : IssueTracker) {scan : Scan} (h : key ∉ scan.keys) :
    (t.reconcile scan.now scan.derived).1.seen key = (t.seen key).filter fun occ =>
      saturatingSub scan.now t.graceMs ≤ occ.lastSeen :=
  (t.reconcile_seen scan.now scan.derived key).trans (if_neg h)

/-- A presence is what the tracker holds. -/
theorem Present.seen {done : List Scan} {time onset : UInt64}
    (h : Present grace seeds done key time onset) :
    (after grace seeds done).seen key = some ⟨onset, time⟩ := by
  cases h with
  | @seeded pre post seed h first =>
    have hfind : (seeds.find? fun s => s.key = seed.key) = some seed := by
      rw [h, List.find?_append, List.find?_eq_none.mpr (by simpa using first), Option.none_or]
      simp
    simp [after, scanAll, seedAll_seen, hfind, IssueTracker.new]
  | @scanned earlier scan tracked h =>
    obtain ⟨hkey, honset⟩ := mem_report h
    rw [after_concat, scan_present _ hkey, honset]

theorem after_never {before : List Scan} (h : Never seeds before key) :
    (after grace seeds before).seen key = none := by
  induction before using List.reverseRecOn with
  | nil =>
    have hfind : (seeds.find? fun s => s.key = key) = none :=
      List.find?_eq_none.mpr (by simpa using h.1)
    simp [after, scanAll, seedAll_seen, hfind, IssueTracker.new]
  | append_singleton before scan ih =>
    have hbefore := ih ⟨h.1, fun s hs => h.2 s (List.mem_append_left _ hs)⟩
    rw [after_concat, scan_absent _ (h.2 scan (by simp)), hbefore]
    rfl

/-- Through a gap, an occurrence is held unless a scan sees it lapse. -/
theorem scanAll_gap {occ : Occurrence} {gap : List Scan} (hgap : ∀ scan ∈ gap, key ∉ scan.keys)
    (h : t.seen key = some occ) : (scanAll t gap).seen key = none ∧ Lapsed t.graceMs occ.lastSeen gap ∨
      (scanAll t gap).seen key = some occ ∧ ¬Lapsed t.graceMs occ.lastSeen gap := by
  induction gap using List.reverseRecOn with
  | nil => exact .inr ⟨h, fun ⟨scan, hscan, _⟩ => by cases hscan⟩
  | append_singleton gap scan ih =>
    have hscans : scanAll t (gap ++ [scan]) =
        ((scanAll t gap).reconcile scan.now scan.derived).1 := List.foldl_append ..
    have hlapsed : Lapsed t.graceMs occ.lastSeen (gap ++ [scan]) ↔
        Lapsed t.graceMs occ.lastSeen gap ∨ occ.lastSeen < saturatingSub scan.now t.graceMs := by
      simp [Lapsed, or_and_right, exists_or]
    rw [hscans, scan_absent _ (hgap scan (by simp)), hlapsed, scanAll_graceMs]
    rcases ih fun s hs => hgap s (List.mem_append_left _ hs) with ⟨hseen, hl⟩ | ⟨hseen, hl⟩
    · exact .inl ⟨by rw [hseen]; rfl, .inl hl⟩
    · rw [hseen]
      by_cases hlt : occ.lastSeen < saturatingSub scan.now t.graceMs
      · exact .inl ⟨by simp [Option.filter, UInt64.not_le.mpr hlt], .inr hlt⟩
      · exact .inr ⟨by simp [Option.filter, UInt64.not_lt.mp hlt], fun h => h.elim hl hlt⟩

/-- A key that is not new was last present somewhere. -/
theorem never_or_present (grace : UInt64) (before : List Scan) : Never seeds before key ∨
    ∃ gap time onset, LastPresence grace seeds before key gap time onset := by
  induction before using List.reverseRecOn with
  | nil =>
    cases hfind : seeds.find? fun s => s.key = key with
    | none =>
      refine .inl ⟨fun s hs => ?_, fun _ h => by cases h⟩
      simpa using List.find?_eq_none.mp hfind s hs
    | some seed =>
      obtain ⟨hkey, pre, post, rfl, hpre⟩ := List.find?_eq_some_iff_append.mp hfind
      obtain rfl : seed.key = key := by simpa using hkey
      exact .inr ⟨[], seed.now, seed.firstSeen, [], rfl,
        .seeded rfl fun s hs => by simpa using hpre s hs, fun _ h => by cases h⟩
  | append_singleton before scan ih =>
    by_cases hkey : key ∈ scan.keys
    · obtain ⟨issue, hissue, rfl⟩ := List.mem_map.mp hkey
      refine .inr ⟨[], _, _, before ++ [scan], (List.append_nil _).symm,
        @Present.scanned grace seeds before scan
          ⟨issue, (after grace seeds before).onset scan.now issue.issueKey, scan.now⟩ ?_,
        fun _ h => by cases h⟩
      rw [report, IssueTracker.reconcile_tracked]
      exact List.mem_map_of_mem hissue
    · rcases ih with hnever | ⟨gap, time, onset, done, rfl, hpresent, hgap⟩
      · refine .inl ⟨hnever.1, fun s hs => ?_⟩
        rcases List.mem_append.mp hs with hs | hs
        · exact hnever.2 s hs
        · rwa [List.mem_singleton.mp hs]
      · refine .inr ⟨gap ++ [scan], time, onset, done, List.append_assoc .., hpresent, fun s hs => ?_⟩
        rcases List.mem_append.mp hs with hs | hs
        · exact hgap s hs
        · rwa [List.mem_singleton.mp hs]

/-! ## What an acknowledgement meets -/

/-- An occurrence that no scan has seen lapse is held with its onset. -/
theorem Unbroken.seen {onset time : UInt64} {between : List Scan}
    (h : Unbroken t.graceMs key time between) (hseen : t.seen key = some ⟨onset, time⟩) :
    ∃ time', (scanAll t between).seen key = some ⟨onset, time'⟩ := by
  induction between generalizing t time with
  | nil => exact ⟨time, hseen⟩
  | cons scan rest ih =>
    rw [scanAll, List.foldl_cons, ← scanAll]
    unfold Unbroken at h
    split at h
    · next hkey =>
      refine ih (by simpa using h) ?_
      rw [scan_present _ hkey]
      simp [IssueTracker.onset, IssueTracker.firstSeenOf, hseen]
    · next hkey =>
      refine ih (by simpa using h.2) ?_
      rw [scan_absent _ hkey, hseen]
      simp [Option.filter, UInt64.not_lt.mp h.1]

/-- What starts after `onset` has a later onset. -/
theorem onset_lt {onset : UInt64} {scans : List Scan} (hnow : ∀ scan ∈ scans, onset < scan.now)
    (h : ∀ occ, t.seen key = some occ → onset < occ.firstSeen) :
    ∀ occ, (scanAll t scans).seen key = some occ → onset < occ.firstSeen := by
  induction scans generalizing t with
  | nil => exact h
  | cons scan rest ih =>
    rw [scanAll, List.foldl_cons, ← scanAll]
    refine ih (fun s hs => hnow s (List.mem_cons_of_mem _ hs)) fun occ hocc => ?_
    by_cases hkey : key ∈ scan.keys
    · rw [scan_present _ hkey] at hocc
      cases hocc
      cases hseen : t.seen key with
      | none => simpa [IssueTracker.onset, IssueTracker.firstSeenOf, hseen] using hnow scan (by simp)
      | some occ => simpa [IssueTracker.onset, IssueTracker.firstSeenOf, hseen] using h occ hseen
    · rw [scan_absent _ hkey] at hocc
      exact h occ (Option.eq_some_of_filter_eq_some hocc)

/-- Once a scan has seen it lapse, what is held is a later occurrence. -/
theorem onset_lt_of_broken {onset time : UInt64} {between : List Scan} (hle : onset ≤ time)
    (hsorted : (time :: between.map Scan.now).Pairwise (· ≤ ·))
    (h : ¬Unbroken t.graceMs key time between) (hseen : t.seen key = some ⟨onset, time⟩) :
    ∀ occ, (scanAll t between).seen key = some occ → onset < occ.firstSeen := by
  induction between generalizing t time with
  | nil => exact absurd trivial h
  | cons scan rest ih =>
    rw [List.map_cons] at hsorted
    obtain ⟨hfirst, hrest⟩ := List.pairwise_cons.mp hsorted
    have htime : time ≤ scan.now := hfirst _ List.mem_cons_self
    rw [scanAll, List.foldl_cons, ← scanAll]
    unfold Unbroken at h
    split at h
    · next hkey =>
      refine ih (UInt64.le_trans hle htime) hrest (by simpa using h) ?_
      rw [scan_present _ hkey]
      simp [IssueTracker.onset, IssueTracker.firstSeenOf, hseen]
    · next hkey =>
      by_cases hlapse : time < saturatingSub scan.now t.graceMs
      · have hnow : onset < scan.now := UInt64.lt_of_le_of_lt hle
          (UInt64.lt_of_lt_of_le hlapse (saturatingSub_le _ _))
        refine onset_lt (fun s hs => UInt64.lt_of_lt_of_le hnow ?_) fun occ hocc => ?_
        · exact (List.pairwise_cons.mp hrest).1 _ (List.mem_map_of_mem hs)
        · rw [scan_absent _ hkey, hseen] at hocc
          simp [Option.filter, UInt64.not_le.mpr hlapse] at hocc
      · refine ih hle ?_ (fun hunbroken => h ⟨hlapse, hunbroken⟩) ?_
        · exact List.pairwise_cons.mpr ⟨fun x hx => hfirst x (List.mem_cons_of_mem _ hx),
            (List.pairwise_cons.mp hrest).2⟩
        · rw [scan_absent _ hkey, hseen]
          simp [Option.filter, UInt64.not_lt.mp hlapse]

theorem apiIssue_acknowledged {acks : PMap String IssueAck} {ack : IssueAck} {tracked : TrackedIssue}
    {onset : UInt64} (hack : acks tracked.issue.issueKey = some ack)
    (hfirst : ack.firstSeen = onset.toInt64) :
    (apiIssue acks tracked).acknowledged = true ↔ tracked.firstSeen = onset := by
  simp only [apiIssue, hack, Option.map_some, Option.getD_some, hfirst, UInt64.toUInt64_toInt64,
    beq_iff_eq]
  exact eq_comm

theorem Unbroken.of_concat {grace time : UInt64} {between : List Scan} {scan : Scan}
    (h : Unbroken grace key time (between ++ [scan])) : Unbroken grace key time between := by
  induction between generalizing time with
  | nil => trivial
  | cons s rest ih =>
    rw [List.cons_append] at h
    unfold Unbroken at h ⊢
    split at h
    · next hkey => rw [if_pos hkey]; exact ih h
    · next hkey => rw [if_neg hkey]; exact ⟨h.1, ih h.2⟩

/-- The row of a key seeds it, since there is only one. -/
theorem present_ackSeeds {acks : IssueAcks} {ack : IssueAck} {time : UInt64}
    (h : acks.find key = some ack) :
    Present grace (ackSeeds acks.rows time) [] key time ack.firstSeen.toUInt64 := by
  obtain ⟨hmem, rfl⟩ := IssueAcks.find_eq_some_iff.mp h
  obtain ⟨pre, post, hrows⟩ := List.append_of_mem hmem
  have hprimary := acks.primary
  rw [hrows, List.map_append, List.nodup_append] at hprimary
  refine @Present.seeded grace _ (ackSeeds pre time) (ackSeeds post time)
    ⟨ack.issueKey, ack.firstSeen.toUInt64, time⟩ (by simp [ackSeeds, hrows]) ?_
  intro seed hseed
  obtain ⟨row, hrow, rfl⟩ := List.mem_map.mp hseed
  exact hprimary.2.2 _ (List.mem_map_of_mem hrow) _ List.mem_cons_self

/-! ## The onset -/

theorem report_derived (before : List Scan) (scan : Scan) :
    (report grace seeds before scan).map TrackedIssue.issue = scan.derived := by
  rw [report, IssueTracker.reconcile_tracked, List.map_map]
  exact List.map_id _

theorem onsetAsMeant_of_mem {before : List Scan} {scan : Scan} {tracked : TrackedIssue}
    (h : tracked ∈ report grace seeds before scan) :
    OnsetAsMeant grace seeds before scan tracked := by
  obtain ⟨hkey, honset⟩ := mem_report h
  have hheld : ∀ occ, (after grace seeds before).seen tracked.issue.issueKey = some occ →
      tracked.firstSeen = occ.firstSeen := fun occ hocc => by
    simp [honset, IssueTracker.onset, IssueTracker.firstSeenOf, hocc]
  have hnone : (after grace seeds before).seen tracked.issue.issueKey = none →
      tracked.firstSeen = scan.now := fun hnone => by
    simp [honset, IssueTracker.onset, IssueTracker.firstSeenOf, hnone]
  have hnever : Never seeds before tracked.issue.issueKey → tracked.firstSeen = scan.now :=
    fun hnever => hnone (after_never hnever)
  have hlast : ∀ gap time onset,
      LastPresence grace seeds before tracked.issue.issueKey gap time onset →
      (Lapsed grace time gap → tracked.firstSeen = scan.now) ∧
      (¬Lapsed grace time gap → tracked.firstSeen = onset) := by
    rintro gap time onset ⟨done, rfl, hpresent, hgap⟩
    rw [after_append] at hnone hheld
    have hthrough := scanAll_gap hgap hpresent.seen
    rw [after_graceMs] at hthrough
    rcases hthrough with ⟨hseen, hl⟩ | ⟨hseen, hl⟩
    · exact ⟨fun _ => hnone hseen, fun hl' => absurd hl hl'⟩
    · exact ⟨fun hl' => absurd hl' hl, fun _ => hheld _ hseen⟩
  have hcarried : ∀ done between time onset, before = done ++ between →
      Present grace seeds done tracked.issue.issueKey time onset →
      Unbroken grace tracked.issue.issueKey time between → tracked.firstSeen = onset := by
    rintro done between time onset rfl hpresent hunbroken
    obtain ⟨time', hseen⟩ := Unbroken.seen (t := after grace seeds done) (by simpa using hunbroken)
      hpresent.seen
    exact hheld ⟨onset, time'⟩ (by rw [after_append, hseen])
  refine ⟨?_, never_or_present grace before, hnever, fun gap time onset hp => (hlast gap time onset hp).1,
    fun gap time onset hp => (hlast gap time onset hp).2, ?_, ?_, ?_, ?_⟩
  · constructor
    · intro hnow
      rcases never_or_present grace before with hn | ⟨gap, time, onset, hp⟩
      · exact .inl hn
      · refine .inr ⟨gap, time, onset, hp, ?_⟩
        by_cases hl : Lapsed grace time gap
        · exact .inl hl
        · exact .inr (((hlast gap time onset hp).2 hl).symm.trans hnow)
    · rintro (hn | ⟨gap, time, onset, hp, hl | rfl⟩)
      · exact hnever hn
      · exact (hlast gap time onset hp).1 hl
      · by_cases hl : Lapsed grace time gap
        · exact (hlast gap time _ hp).1 hl
        · exact (hlast gap time _ hp).2 hl
  · intro done between time onset acks ack _ _ hack hfirst
    exact apiIssue_acknowledged hack hfirst
  · intro done between time onset acks ack hsplit hpresent hack hfirst hunbroken
    exact (apiIssue_acknowledged hack hfirst).mpr
      (hcarried done between time onset hsplit hpresent hunbroken)
  · rintro done between time onset acks ack rfl hpresent hack hfirst hbroken hle hsorted
    rw [← Bool.not_eq_true, apiIssue_acknowledged hack hfirst]
    -- at the scan itself the tracker holds what it reports
    have hseen : (scanAll (after grace seeds done) (between ++ [scan])).seen
        tracked.issue.issueKey = some ⟨tracked.firstSeen, scan.now⟩ := by
      rw [← after_append, ← List.append_assoc, after_concat, scan_present _ hkey, honset]
    have hbroken' : ¬Unbroken (after grace seeds done).graceMs tracked.issue.issueKey time
        (between ++ [scan]) := by
      rw [after_graceMs]
      exact fun h => hbroken h.of_concat
    have hlater := onset_lt_of_broken hle (by simpa using hsorted) hbroken' hpresent.seen _ hseen
    exact (UInt64.ne_of_lt hlater).symm
  · rintro acks ack time rfl hack hunbroken
    rw [apiIssue_acknowledged hack (Int64.toInt64_toUInt64 _).symm]
    exact hcarried [] before time _ rfl (present_ackSeeds hack) hunbroken

/-- **What a scan reports follows from the history**, for any seeds and any scans before it: what
it derives, and of each issue the onset. -/
theorem onset_of_history (grace : UInt64) (seeds : List Seed) (before : List Scan) (scan : Scan) :
    (report grace seeds before scan).map TrackedIssue.issue = scan.derived ∧
      ∀ tracked ∈ report grace seeds before scan, OnsetAsMeant grace seeds before scan tracked :=
  ⟨report_derived before scan, fun _ => onsetAsMeant_of_mem⟩

/-- Seeded with an older onset, missed by one scan, and back within the grace period. -/
theorem onset_of_history_restart :
    OnsetAsMeant 60000 [⟨downIssue.issueKey, 1000, 9000⟩] [⟨30000, []⟩] ⟨40000, [downIssue]⟩
      ⟨downIssue, 1000, 40000⟩ :=
  (onset_of_history 60000 [⟨downIssue.issueKey, 1000, 9000⟩] [⟨30000, []⟩] ⟨40000, [downIssue]⟩).2 _ (by decide +kernel)

/-- Two scans in one millisecond: the second one reports the onset of the first, which is
its own time, although the key was there before and has not lapsed. -/
theorem rescan_reports_own_time : ¬∀ (grace : UInt64) (seeds : List Seed) (before : List Scan)
    (scan : Scan) (tracked : TrackedIssue),
    (seeds.map Seed.now ++ before.map Scan.now ++ [scan.now]).Pairwise (· ≤ ·) →
    (∀ s ∈ before ++ [scan], s.keys.Nodup) → tracked ∈ report grace seeds before scan →
    (tracked.firstSeen = scan.now ↔ Never seeds before tracked.issue.issueKey ∨
      ∃ gap time onset, LastPresence grace seeds before tracked.issue.issueKey gap time onset ∧
        Lapsed grace time gap) := by
  intro hclaim
  have hkey : downIssue.issueKey ∈ (⟨5, [downIssue]⟩ : Scan).keys := List.mem_singleton.mpr rfl
  have h := (hclaim 60000 [] [⟨5, [downIssue]⟩] ⟨5, [downIssue]⟩ ⟨downIssue, 5, 5⟩ (by decide)
    (by decide) (by decide +kernel)).mp rfl
  rcases h with hnever | ⟨gap, time, onset, ⟨done, hsplit, -, hgap⟩, scan, hscan, -⟩
  · exact hnever.2 _ List.mem_cons_self hkey
  · have hmem : scan ∈ [(⟨5, [downIssue]⟩ : Scan)] := hsplit ▸ List.mem_append_right _ hscan
    rw [List.mem_singleton.mp hmem] at hscan
    exact hgap _ hscan hkey

end JaspyNexus.Routes.Occurrences

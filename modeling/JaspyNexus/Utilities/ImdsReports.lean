import Mathlib
import JaspyNexus.Lib.Edges
import JaspyNexus.Lib.Runs
import JaspyNexus.Utilities.ImdsHistory

/-! # Every report of an interface

The store is watched over a run: of every interface the reports that met its
entry since it was made or reset, each with the entry and the health history it
found and left and the events it published. A report is stale, rejected or
accepted; what it leaves is a function of what it found, and what it found is
what the report before it left, up to the names the refresh gives. -/

namespace JaspyNexus.Utilities.ImdsReports
open JaspyNexus.Lib JaspyNexus.Lib.Edges JaspyNexus.Models JaspyNexus.Utilities.Health

/-! ## One report -/

/-- What becomes of a report: it is not newer than the last one, its counters are
refused, or it is applied. -/
inductive Verdict where
  | stale
  | rejected
  | accepted
  deriving DecidableEq, Repr

def verdict (m : InterfaceMetrics) (r : InterfaceReport) (now : Nat) : Verdict :=
  if now ≤ m.lastReport then .stale
  else if (validateCounters m r).1 then .accepted
  else .rejected

/-- **What `validate_counters` answers**: a forced pass, a pass, or a refusal. -/
theorem validateCounters_cases (m : InterfaceMetrics) (r : InterfaceReport) :
    (10 ≤ m.counterViolations ∧ validateCounters m r = (true, 0)) ∨
    ((∀ c, forwardProgress (m.counters c) (r.counters c) = true) ∧
      validateCounters m r = (true, 0)) ∨
    (m.counterViolations < 10 ∧ validateCounters m r = (false, m.counterViolations + 1)) := by
  unfold validateCounters
  by_cases hforced : 10 ≤ m.counterViolations
  · exact .inl ⟨hforced, if_pos hforced⟩
  · rw [if_neg hforced]
    by_cases hall : (Counter.all.all fun c => forwardProgress (m.counters c) (r.counters c)) = true
    · exact .inr (.inl ⟨fun c => List.all_eq_true.mp hall c c.mem_all, if_pos hall⟩)
    · exact .inr (.inr ⟨not_le.mp hforced, if_neg hall⟩)

theorem verdict_rejected {m : InterfaceMetrics} {r : InterfaceReport} {now : Nat}
    (h : verdict m r now = .rejected) :
    m.counterViolations < 10 ∧ (validateCounters m r).2 = m.counterViolations + 1 := by
  unfold verdict at h
  split at h
  · cases h
  · rcases validateCounters_cases m r with ⟨-, hv⟩ | ⟨-, hv⟩ | ⟨hlt, hv⟩
    · rw [hv] at h; cases h
    · rw [hv] at h; cases h
    · exact ⟨hlt, by rw [hv]⟩

/-- An accepted report was forced, or its counters make progress. -/
theorem verdict_accepted {m : InterfaceMetrics} {r : InterfaceReport} {now : Nat}
    (h : verdict m r now = .accepted) :
    m.lastReport < now ∧ (10 ≤ m.counterViolations ∨
      ∀ c, forwardProgress (m.counters c) (r.counters c) = true) := by
  unfold verdict at h
  split at h
  · cases h
  · next hlast =>
    refine ⟨not_le.mp hlast, ?_⟩
    rcases validateCounters_cases m r with ⟨hforced, -⟩ | ⟨hprogress, -⟩ | ⟨-, hv⟩
    · exact .inl hforced
    · exact .inr hprogress
    · rw [hv] at h; cases h

/-- The up/down part and the speed part of a report's events. -/
theorem reportEvents_eq (fqdn : String) (ctx : ReportContext) (m : InterfaceMetrics)
    (r : InterfaceReport) : reportEvents fqdn ctx m r =
      (edge m.up r.up).toList.map (fun e => .interfaceUpDown fqdn m.name
        ((ctx.remote r.ifIndex).map RemoteInfo.neighbor)
        (lagLinkStatuses ctx (ctx.remote r.ifIndex)) e.1 e.2) ++
      (edge m.speed r.speed).toList.map (fun e => .interfaceSpeed fqdn m.name
        ((ctx.remote r.ifIndex).map RemoteInfo.neighbor) e.1 e.2) := by
  unfold reportEvents edge
  dsimp only
  congr 1
  · cases m.up with
    | none => rfl
    | some old =>
      cases r.up with
      | none => rfl
      | some new => dsimp only; split <;> rfl
  · cases m.speed with
    | none => rfl
    | some old =>
      cases r.speed with
      | none => rfl
      | some new => dsimp only; split <;> rfl

/-- What a report leaves of the entry it finds. -/
def leaves (m : InterfaceMetrics) (r : InterfaceReport) (now : Nat) : InterfaceMetrics :=
  match verdict m r now with
  | .stale => m
  | .rejected => { m with counterViolations := (validateCounters m r).2 }
  | .accepted => applyReport m r now

/-- A report that met an entry: what it found and left, and what it published. -/
structure Turn where
  found : InterfaceMetrics
  report : InterfaceReport
  now : Nat
  left : InterfaceMetrics
  healthFound : HealthStore
  healthLeft : HealthStore
  events : List Event

def Turn.verdict (t : Turn) : Verdict := ImdsReports.verdict t.found t.report t.now

/-- The turn is the code's. -/
structure Turn.Ruled (cfg : HealthConfig) (fqdn : String) (ifIndex : Int) (t : Turn) : Prop where
  left : t.left = leaves t.found t.report t.now
  health : t.healthLeft = if t.verdict = .accepted then
      t.healthFound.ingest cfg fqdn ifIndex (sampleInput t.found t.report t.now) t.now
    else t.healthFound
  silent : t.verdict ≠ .accepted → t.events = []
  events : t.verdict = .accepted → ∃ ctx, t.events = reportEvents fqdn ctx t.found t.report

theorem reportInterface_absent {imds : Imds} {fqdn : String} {r : InterfaceReport}
    (h : imds.interface? fqdn r.ifIndex = none) (cfg : HealthConfig) (ctx : ReportContext)
    (now : Nat) : imds.reportInterface cfg fqdn ctx now r = (imds, []) := by
  unfold Imds.reportInterface
  unfold Imds.interface? at h
  cases hd : imds.devices fqdn with
  | none => rfl
  | some device =>
    rw [hd, Option.bind_some] at h
    simp only [h]

/-- **What one interface's report does to the store**, by its verdict. -/
theorem reportInterface_present {imds : Imds} {fqdn : String} {r : InterfaceReport}
    {m : InterfaceMetrics} (h : imds.interface? fqdn r.ifIndex = some m) (cfg : HealthConfig)
    (ctx : ReportContext) (now : Nat) :
    (∀ f i, (imds.reportInterface cfg fqdn ctx now r).1.interface? f i =
      if f = fqdn ∧ i = r.ifIndex then some (leaves m r now) else imds.interface? f i) ∧
    (imds.reportInterface cfg fqdn ctx now r).1.health = (if verdict m r now = .accepted then
      imds.health.ingest cfg fqdn r.ifIndex (sampleInput m r now) now else imds.health) ∧
    (imds.reportInterface cfg fqdn ctx now r).2 =
      if verdict m r now = .accepted then reportEvents fqdn ctx m r else [] := by
  unfold Imds.interface? at h
  obtain ⟨device, hd, hm⟩ := Option.bind_eq_some_iff.mp h
  have hsame : ∀ f i, imds.interface? f i =
      if f = fqdn ∧ i = r.ifIndex then some m else imds.interface? f i := by
    intro f i
    split
    · next hfi => rw [hfi.1, hfi.2]; exact h
    · rfl
  unfold Imds.reportInterface leaves verdict
  simp only [hd, hm]
  by_cases hlast : now ≤ m.lastReport
  · simp only [if_pos hlast]
    exact ⟨hsame, rfl, rfl⟩
  · simp only [if_neg hlast]
    cases hv : validateCounters m r with
    | mk ok violations =>
      cases ok with
      | false =>
        refine ⟨fun f i => ?_, rfl, rfl⟩
        exact interface?_setInterface imds fqdn f i hd r.ifIndex _
      | true =>
        refine ⟨fun f i => ?_, rfl, rfl⟩
        exact interface?_setInterface imds fqdn f i hd r.ifIndex _

/-! ## The watched store -/

/-- The store with the turns of every interface, newest first. -/
structure Watched where
  imds : Imds
  turns : String → Int → List Turn

/-- The store as a process starts it, with the health it loads. -/
def Watched.start (loaded : HealthStore) : Watched := ⟨⟨PMap.empty, loaded⟩, fun _ _ => []⟩

def Watched.reportInterface (cfg : HealthConfig) (fqdn : String) (ctx : ReportContext) (now : Nat)
    (w : Watched) (r : InterfaceReport) : Watched :=
  let out := w.imds.reportInterface cfg fqdn ctx now r
  match w.imds.interface? fqdn r.ifIndex, out.1.interface? fqdn r.ifIndex with
  | some found, some left =>
    let turn : Turn := ⟨found, r, now, left, w.imds.health, out.1.health, out.2⟩
    { imds := out.1
      turns := fun f i =>
        if f = fqdn ∧ i = r.ifIndex then turn :: w.turns f i else w.turns f i }
  | _, _ => { w with imds := out.1 }

/-- The turns of an interface are forgotten when its entry is dropped or reset. -/
def Watched.step (cfg : HealthConfig) (w : Watched) : Op → Watched
  | .refreshDevice fqdn baseMac now =>
    { imds := w.imds.refreshDevice fqdn baseMac now
      turns := fun f i =>
        if f = fqdn ∧ (w.imds.devices f).any (Imds.swapped · baseMac) then [] else w.turns f i }
  | .refreshInterface fqdn ifIndex interfaceType name neighbors speedOverride =>
    { w with
      imds := w.imds.refreshInterface fqdn ifIndex interfaceType name neighbors speedOverride }
  | .retainDevices keep =>
    { imds := w.imds.retainDevices keep
      turns := fun f i => if keep f then w.turns f i else [] }
  | .retainInterfaces fqdn keep =>
    { imds := w.imds.retainInterfaces fqdn keep
      turns := fun f i => if f = fqdn ∧ keep i = false then [] else w.turns f i }
  | .reportDevice neighbors report now =>
    { w with imds := (w.imds.reportDevice neighbors report now).1 }
  | .reportInterfaces remote imr now _ =>
    match w.imds.devices imr.deviceFqdn with
    | none => w
    | some device =>
      imr.interfaces.foldl (Watched.reportInterface cfg imr.deviceFqdn
        (reportContext remote device imr) now)
        { w with imds := w.imds.setLastPoll imr.deviceFqdn device now }

def Watched.run (cfg : HealthConfig) (loaded : HealthStore) (ops : List Op) : Watched :=
  ops.foldl (Watched.step cfg) (Watched.start loaded)

theorem Watched.reportInterface_imds (cfg : HealthConfig) (fqdn : String) (ctx : ReportContext)
    (now : Nat) (w : Watched) (r : InterfaceReport) :
    (Watched.reportInterface cfg fqdn ctx now w r).imds =
      (w.imds.reportInterface cfg fqdn ctx now r).1 := by
  unfold Watched.reportInterface
  dsimp only
  split <;> rfl

/-- **Watching does not disturb the store.** -/
theorem Watched.step_imds (cfg : HealthConfig) (w : Watched) (op : Op) :
    (w.step cfg op).imds = (w.imds.step cfg op).1 := by
  cases op with
  | reportInterfaces remote imr now observed =>
    simp only [Watched.step, Imds.step, Imds.reportInterfaces]
    cases hd : w.imds.devices imr.deviceFqdn with
    | none => rfl
    | some device =>
      dsimp only
      -- the two folds go side by side
      have hfold : ∀ (rs : List InterfaceReport) (w' : Watched) (events : List Event),
          (rs.foldl (Watched.reportInterface cfg imr.deviceFqdn (reportContext remote device imr)
            now) w').imds =
          (rs.foldl (fun (st : Imds × List Event) r =>
            let out := st.1.reportInterface cfg imr.deviceFqdn
              (reportContext remote device imr) now r
            (out.1, st.2 ++ out.2)) (w'.imds, events)).1 := by
        intro rs
        induction rs with
        | nil => intro w' events; rfl
        | cons r rs ih =>
          intro w' events
          rw [List.foldl_cons, ih _ (events ++ (w'.imds.reportInterface cfg imr.deviceFqdn
            (reportContext remote device imr) now r).2), Watched.reportInterface_imds]
          rfl
      exact hfold imr.interfaces _ []
  | _ => rfl

/-- The watched store is the one the operations make. -/
theorem Watched.run_imds (cfg : HealthConfig) (loaded : HealthStore) (ops : List Op) :
    (Watched.run cfg loaded ops).imds =
      ops.foldl (fun imds op => (imds.step cfg op).1) ⟨PMap.empty, loaded⟩ := by
  have hfold : ∀ (rest : List Op) (w : Watched), (rest.foldl (Watched.step cfg) w).imds =
      rest.foldl (fun imds op => (imds.step cfg op).1) w.imds := by
    intro rest
    induction rest with
    | nil => intro w; rfl
    | cons op rest ih =>
      intro w
      rw [List.foldl_cons, ih, Watched.step_imds]
      rfl
  exact hfold ops (Watched.start loaded)

/-! ## What a report finds -/

/-- Never polled. -/
def Fresh (m : InterfaceMetrics) : Prop := m.resetCounters = m

/-- The same entry, under what the refresh takes from the database. -/
def Relabelled (m m' : InterfaceMetrics) : Prop :=
  m' = { m with name := m'.name, neighbors := m'.neighbors, speedOverride := m'.speedOverride }

/-- What the turns leave of an entry that was fresh before them. -/
def Follows : List Turn → InterfaceMetrics → Prop
  | [], m => Fresh m
  | t :: older, m => Relabelled t.left m ∧ Follows older t.found

/-- What the turns leave of an interface's health history. Before them there is
none, or what was loaded when the process started. -/
def HealthFollows (loaded : HealthStore) (fqdn : String) (ifIndex : Int) :
    List Turn → Option InterfaceHealth → Prop
  | [], ih? => ih? = none ∨ ih? = loaded.at? fqdn ifIndex
  | t :: older, ih? => ih? = t.healthLeft.at? fqdn ifIndex ∧
    HealthFollows loaded fqdn ifIndex older (t.healthFound.at? fqdn ifIndex)

theorem fresh_new (interfaceType name : String) (neighbors : Bool) (speedOverride : Option Int) :
    Fresh (newInterface interfaceType name neighbors speedOverride) := rfl

theorem fresh_reset (m : InterfaceMetrics) : Fresh m.resetCounters := rfl

theorem Fresh.counterViolations {m : InterfaceMetrics} (h : Fresh m) : m.counterViolations = 0 := by
  rw [← show m.resetCounters = m from h]
  rfl

theorem Fresh.lastReport {m : InterfaceMetrics} (h : Fresh m) : m.lastReport = 0 := by
  rw [← show m.resetCounters = m from h]
  rfl

theorem Relabelled.counterViolations {m m' : InterfaceMetrics} (h : Relabelled m m') :
    m'.counterViolations = m.counterViolations := by
  rw [show m' = _ from h]

theorem Relabelled.lastReport {m m' : InterfaceMetrics} (h : Relabelled m m') :
    m'.lastReport = m.lastReport := by
  rw [show m' = _ from h]

theorem Relabelled.counters {m m' : InterfaceMetrics} (h : Relabelled m m') :
    m'.counters = m.counters := by
  rw [show m' = _ from h]

theorem Relabelled.refl (m : InterfaceMetrics) : Relabelled m m := rfl

theorem Relabelled.relabel {m m' : InterfaceMetrics} (h : Relabelled m m') (name : String)
    (neighbors : Bool) (speedOverride : Option Int) :
    Relabelled m { m' with name := name, neighbors := neighbors, speedOverride := speedOverride } := by
  unfold Relabelled at h ⊢
  rw [h]

theorem Follows.relabel {turns : List Turn} {m : InterfaceMetrics} (h : Follows turns m)
    (name : String) (neighbors : Bool) (speedOverride : Option Int) :
    Follows turns { m with name := name, neighbors := neighbors, speedOverride := speedOverride } := by
  cases turns with
  | nil =>
    unfold Follows Fresh at h ⊢
    rw [← h]
    rfl
  | cons t older => exact ⟨h.1.relabel name neighbors speedOverride, h.2⟩

/-- What an earlier turn found. -/
theorem Follows.drop {newer older : List Turn} {t : Turn} {m : InterfaceMetrics}
    (h : Follows (newer ++ t :: older) m) :
    Follows older t.found := by
  induction newer generalizing m with
  | nil => exact h.2
  | cons t' newer ih => exact ih h.2

/-- The first report found a fresh entry. -/
theorem Follows.oldest {turns : List Turn} {m : InterfaceMetrics} (h : Follows turns m) {t : Turn}
    (ht : turns.getLast? = some t) : Fresh t.found := by
  induction turns generalizing m with
  | nil => cases ht
  | cons newest older ih =>
    cases hold : older.getLast? with
    | none =>
      rw [List.getLast?_cons, hold] at ht
      obtain rfl : newest = t := by simpa using ht
      have hnil := List.getLast?_eq_none_iff.mp hold
      rw [hnil] at h
      exact h.2
    | some t' =>
      rw [List.getLast?_cons, hold] at ht
      obtain rfl : t' = t := by simpa using ht
      exact ih h.2 hold

/-! ## The accepted reports -/

/-- The turns whose report was accepted. -/
def taken (turns : List Turn) : List Turn := turns.filter fun t => t.verdict = .accepted

theorem taken_cons_of_accepted {t : Turn} (h : t.verdict = .accepted) (older : List Turn) :
    taken (t :: older) = t :: taken older := List.filter_cons_of_pos (by simpa using h)

theorem taken_cons_of_not {t : Turn} (h : t.verdict ≠ .accepted) (older : List Turn) :
    taken (t :: older) = taken older := List.filter_cons_of_neg (by simpa using h)

/-- The time of the last accepted report, 0 if there is none. -/
def lastAccepted (turns : List Turn) : Nat := ((taken turns).head?.map Turn.now).getD 0

theorem lastAccepted_cons_of_accepted {t : Turn} (h : t.verdict = .accepted) (older : List Turn) :
    lastAccepted (t :: older) = t.now := by
  rw [lastAccepted, taken_cons_of_accepted h]
  rfl

theorem lastAccepted_cons_of_not {t : Turn} (h : t.verdict ≠ .accepted) (older : List Turn) :
    lastAccepted (t :: older) = lastAccepted older := by
  rw [lastAccepted, taken_cons_of_not h, lastAccepted]

/-- A field of the entry that accepted reports overwrite when they carry it, and that
nothing else touches. -/
structure Reads {α : Type} (stored : InterfaceMetrics → Option α)
    (reported : InterfaceReport → Option α) : Prop where
  fresh : ∀ m, Fresh m → stored m = none
  relabelled : ∀ m m', Relabelled m m' → stored m' = stored m
  applied : ∀ m r now, stored (applyReport m r now) = (reported r).or (stored m)
  refused : ∀ m violations, stored { m with counterViolations := violations } = stored m

/-- An interface's turns are the code's, and its entry and health history are what
they left. -/
structure Followed (cfg : HealthConfig) (loaded : HealthStore) (fqdn : String) (ifIndex : Int)
    (turns : List Turn) (m? : Option InterfaceMetrics) (ih? : Option InterfaceHealth) : Prop where
  ruled : ∀ t ∈ turns, t.Ruled cfg fqdn ifIndex
  absent : m? = none → turns = []
  entry : ∀ m, m? = some m → Follows turns m
  health : HealthFollows loaded fqdn ifIndex turns ih?

theorem followed_none (cfg : HealthConfig) {loaded : HealthStore} {fqdn : String} {ifIndex : Int}
    {ih? : Option InterfaceHealth} (hhealth : ih? = none ∨ ih? = loaded.at? fqdn ifIndex) :
    Followed cfg loaded fqdn ifIndex [] none ih? where
  ruled _ h := by cases h
  absent _ := rfl
  entry _ h := by cases h
  health := hhealth

theorem followed_fresh (cfg : HealthConfig) {loaded : HealthStore} {fqdn : String} {ifIndex : Int}
    {m : InterfaceMetrics} (h : Fresh m) {ih? : Option InterfaceHealth}
    (hhealth : ih? = none ∨ ih? = loaded.at? fqdn ifIndex) :
    Followed cfg loaded fqdn ifIndex [] (some m) ih? where
  ruled _ h := by cases h
  absent _ := rfl
  entry _ hm := by cases hm; exact h
  health := hhealth

section Turns
variable {cfg : HealthConfig} {fqdn : String} {ifIndex : Int} {turns : List Turn}
  {m : InterfaceMetrics}

/-- **The entry holds the last reading.** -/
theorem Reads.stored_eq {α : Type} {stored : InterfaceMetrics → Option α}
    {reported : InterfaceReport → Option α} (hreads : Reads stored reported)
    (hruled : ∀ t ∈ turns, t.Ruled cfg fqdn ifIndex) (h : Follows turns m) :
    stored m = lastKnown ((taken turns).map fun t => reported t.report) := by
  induction turns generalizing m with
  | nil => exact hreads.fresh m h
  | cons t older ih =>
    have hfound := ih (fun t' ht' => hruled t' (List.mem_cons_of_mem _ ht')) h.2
    rw [hreads.relabelled _ _ h.1, (hruled t List.mem_cons_self).left]
    unfold leaves
    cases hv : verdict t.found t.report t.now with
    | stale =>
      rw [taken_cons_of_not (by simp [Turn.verdict, hv])]
      exact hfound
    | rejected =>
      rw [taken_cons_of_not (by simp [Turn.verdict, hv])]
      exact (hreads.refused _ _).trans hfound
    | accepted =>
      rw [taken_cons_of_accepted hv, List.map_cons, lastKnown_cons, ← hfound]
      exact hreads.applied _ _ _

/-- The entry has the time of the last accepted report. -/
theorem lastReport_eq (hruled : ∀ t ∈ turns, t.Ruled cfg fqdn ifIndex) (h : Follows turns m) :
    m.lastReport = lastAccepted turns := by
  induction turns generalizing m with
  | nil => exact h.lastReport
  | cons t older ih =>
    have hfound := ih (fun t' ht' => hruled t' (List.mem_cons_of_mem _ ht')) h.2
    rw [h.1.lastReport, (hruled t List.mem_cons_self).left]
    unfold leaves
    cases hv : verdict t.found t.report t.now with
    | stale =>
      rw [lastAccepted_cons_of_not (by simp [Turn.verdict, hv])]
      exact hfound
    | rejected =>
      rw [lastAccepted_cons_of_not (by simp [Turn.verdict, hv])]
      exact hfound
    | accepted =>
      rw [lastAccepted_cons_of_accepted hv]
      rfl

/-- Reports are accepted at later and later times. -/
theorem taken_pairwise (hruled : ∀ t ∈ turns, t.Ruled cfg fqdn ifIndex) (h : Follows turns m) :
    (taken turns).Pairwise fun later earlier => earlier.now < later.now := by
  induction turns generalizing m with
  | nil => exact List.Pairwise.nil
  | cons t older ih =>
    have holder := fun t' ht' => hruled t' (List.mem_cons_of_mem t ht')
    have hrest := ih holder h.2
    by_cases hv : t.verdict = .accepted
    · rw [taken_cons_of_accepted hv]
      refine List.pairwise_cons.mpr ⟨fun earlier hearlier => ?_, hrest⟩
      have hlast := lastReport_eq holder h.2
      have hlt := (verdict_accepted hv).1
      rw [lastAccepted] at hlast
      cases htaken : taken older with
      | nil => rw [htaken] at hearlier; cases hearlier
      | cons newest rest =>
        rw [htaken] at hearlier hrest hlast
        simp only [List.head?_cons, Option.map_some, Option.getD_some] at hlast
        rcases List.mem_cons.mp hearlier with rfl | hearlier
        · omega
        · have := (List.pairwise_cons.mp hrest).1 earlier hearlier
          omega
    · rw [taken_cons_of_not hv]
      exact hrest

end Turns

/-- Every interface's turns tell its entry. -/
def Watched.Told (cfg : HealthConfig) (loaded : HealthStore) (w : Watched) : Prop :=
  ∀ f i, Followed cfg loaded f i (w.turns f i) (w.imds.interface? f i) (w.imds.health.at? f i)

theorem told_start (cfg : HealthConfig) (loaded : HealthStore) :
    (Watched.start loaded).Told cfg loaded := fun _ _ => followed_none cfg (.inr rfl)

theorem Watched.Told.reportInterface {cfg : HealthConfig} {loaded : HealthStore} {w : Watched}
    (h : w.Told cfg loaded) (fqdn : String) (ctx : ReportContext) (now : Nat) (r : InterfaceReport) :
    (Watched.reportInterface cfg fqdn ctx now w r).Told cfg loaded := by
  intro f i
  unfold Watched.reportInterface
  cases hm : w.imds.interface? fqdn r.ifIndex with
  | none =>
    rw [reportInterface_absent hm]
    exact h f i
  | some m =>
    obtain ⟨hentry, hhealth, hevents⟩ := reportInterface_present hm cfg ctx now
    have hself := hentry fqdn r.ifIndex
    rw [if_pos ⟨rfl, rfl⟩] at hself
    simp only [hself]
    rw [hentry f i]
    by_cases hfi : f = fqdn ∧ i = r.ifIndex
    · obtain ⟨rfl, rfl⟩ := hfi
      have hold := h f r.ifIndex
      rw [hm] at hold
      simp only [and_self, if_true]
      refine ⟨fun t ht => ?_, (fun hn => by cases hn), fun m' hm' => ?_, ⟨rfl, hold.health⟩⟩
      · rcases List.mem_cons.mp ht with rfl | ht
        · refine ⟨rfl, hhealth, fun hv => ?_, fun hv => ⟨ctx, ?_⟩⟩
          · exact hevents.trans (if_neg hv)
          · exact hevents.trans (if_pos hv)
        · exact hold.ruled t ht
      · cases hm'
        exact ⟨Relabelled.refl _, hold.entry m rfl⟩
    · simp only [if_neg hfi]
      rw [hhealth]
      split
      · rw [HealthStore.at?_ingest, if_neg hfi]
        exact h f i
      · exact h f i

/-- **Every operation keeps the turns.** -/
theorem Watched.Told.step {cfg : HealthConfig} {loaded : HealthStore} {w : Watched}
    (h : w.Told cfg loaded) (op : Op) : (w.step cfg op).Told cfg loaded := by
  cases op with
  | refreshDevice fqdn baseMac now =>
    intro f i
    simp only [Watched.step]
    rw [interface?_refreshDevice, health_refreshDevice]
    by_cases hreset : f = fqdn ∧ (w.imds.devices f).any (Imds.swapped · baseMac) = true
    · rw [if_pos hreset, if_pos hreset, if_pos hreset]
      cases w.imds.interface? f i with
      | none => exact followed_none cfg (.inl rfl)
      | some m => exact followed_fresh cfg (fresh_reset m) (.inl rfl)
    · rw [if_neg hreset, if_neg hreset, if_neg hreset]
      exact h f i
  | refreshInterface fqdn ifIndex interfaceType name neighbors speedOverride =>
    intro f i
    simp only [Watched.step]
    rcases refreshInterface_cases w.imds fqdn ifIndex interfaceType name neighbors speedOverride with
      ⟨heq, -⟩ | ⟨hhealth, m', hentry, hm'⟩
    · rw [heq]; exact h f i
    · rw [hentry, hhealth]
      by_cases hfi : f = fqdn ∧ i = ifIndex
      · rw [if_pos hfi, hfi.1, hfi.2]
        have hold := h fqdn ifIndex
        rcases hm' with ⟨hnone, rfl⟩ | ⟨m, hm, rfl⟩
        · have hhealth := hold.health
          rw [hold.absent hnone] at hhealth ⊢
          exact followed_fresh cfg (fresh_new _ _ _ _) hhealth
        · refine ⟨hold.ruled, (fun hn => by cases hn), fun m'' hm'' => ?_, hold.health⟩
          cases hm''
          exact (hold.entry m hm).relabel name neighbors speedOverride
      · rw [if_neg hfi]; exact h f i
  | retainDevices keep =>
    intro f i
    simp only [Watched.step]
    rw [interface?_retainDevices]
    simp only [Imds.retainDevices, HealthStore.at?_retainDevices]
    split
    · exact h f i
    · exact followed_none cfg (.inl rfl)
  | retainInterfaces fqdn keep =>
    intro f i
    simp only [Watched.step]
    rw [interface?_retainInterfaces]
    simp only [Imds.retainInterfaces, HealthStore.at?_retainInterfaces]
    split
    · exact followed_none cfg (.inl rfl)
    · exact h f i
  | reportDevice neighbors report now =>
    intro f i
    simp only [Watched.step]
    rw [interface?_reportDevice]
    exact h f i
  | reportInterfaces remote imr now observed =>
    simp only [Watched.step]
    cases hd : w.imds.devices imr.deviceFqdn with
    | none => exact h
    | some device =>
      refine Runs.foldl_inv (fun w' : Watched => w'.Told cfg loaded)
        (fun w' r hw' => hw'.reportInterface imr.deviceFqdn _ now r) imr.interfaces ?_
      intro f i
      dsimp only
      rw [interface?_setLastPoll w.imds imr.deviceFqdn f i hd]
      exact h f i

/-- **In every state of the store, the turns tell every interface's entry.** -/
theorem told_run (cfg : HealthConfig) (loaded : HealthStore) (ops : List Op) :
    (Watched.run cfg loaded ops).Told cfg loaded :=
  Runs.foldl_inv (fun w : Watched => w.Told cfg loaded) (fun _ op h => h.step op) ops
    (told_start cfg loaded)

end JaspyNexus.Utilities.ImdsReports

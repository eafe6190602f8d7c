import Mathlib
import JaspyNexus.Lib.Runs
import JaspyNexus.Collectors.CrawlClosed

/-! # Names in a crawl

A crawl knows a device by its name, spelled as `try_resolve` leaves it: the remap table
and the search domains are applied, and no letter is changed. DNS does not tell the
spellings of a name apart that differ in the case of its letters; a crawl does, on every
path that a name takes, so each spelling that is reached is a device of its own. -/

namespace JaspyNexus.Collectors.Discovery
open JaspyNexus.Lib

/-! ## The law -/

/-- DNS takes the names for one: they differ in the case of ASCII letters at most. -/
def SameHost (f g : String) : Prop := f.toList.map Char.toLower = g.toList.map Char.toLower

instance (f g : String) : Decidable (SameHost f g) := inferInstanceAs (Decidable (_ = _))

def SpelledOnce (detected : PMap String DetectedDevice) : Prop :=
  ∀ f g, (detected f).isSome = true → (detected g).isSome = true → SameHost f g → f = g

/-- The device is collected, and no critical table failed. -/
def Answers (network : Network) (fqdn : String) (sds : DetectedDevice) : Prop :=
  network.collect fqdn = .ok sds ∧ sds.pollingValid = true

section Law
variable (params : RunParams) (network : Network) (rootDevice : String)

/-- The names that a crawl comes to from the root device. -/
inductive Reached : String → Prop where
  | root : Reached rootDevice
  | neighbor {fqdn name : String} {sds : DetectedDevice} (h : Reached fqdn) (hanswers : Answers network fqdn sds)
      (hname : name ∈ discoveredNeighbors params network sds) : Reached name

def Discoverable (fqdn : String) : Prop :=
  Reached params network rootDevice fqdn ∧ ∃ sds, Answers network fqdn sds

/-- No device is to be discovered under two spellings of its name. -/
def OneSpelling : Prop :=
  ∀ f g, Discoverable params network rootDevice f → Discoverable params network rootDevice g →
    SameHost f g → f = g

/-- A spelling is a device: it has one worker at most, and in the end it is detected
exactly when it is reached and answers. -/
structure SpellingsApart (crawl : Crawl) : Prop where
  once : (crawl.workers.map Worker.fqdn).Nodup
  discoverable : ∀ fqdn, (crawl.detected fqdn).isSome = true → Discoverable params network rootDevice fqdn
  complete : crawl.joiner = .exited → ∀ fqdn, Discoverable params network rootDevice fqdn →
    (crawl.detected fqdn).isSome = true

end Law

/-! ## Where the names come from -/

/-- What a worker was told of its device. -/
def Phase.Told (network : Network) (fqdn : String) : Phase → Prop
  | .fail _ => ∀ sds, ¬Answers network fqdn sds
  | .record sds => Answers network fqdn sds
  | _ => True

/-- **Every name was reached**, and what is on record is what the network answers. -/
structure Traced (params : RunParams) (network : Network) (rootDevice : String) (crawl : Crawl) : Prop where
  marked : ∀ fqdn ∈ crawl.inFlight, Reached params network rootDevice fqdn
  rest : ∀ (i : Nat) worker, crawl.workers[i]? = some worker →
    ∀ fqdn ∈ worker.phase.rest, Reached params network rootDevice fqdn
  told : ∀ (i : Nat) worker, crawl.workers[i]? = some worker → worker.phase.Told network worker.fqdn
  detected : ∀ fqdn sds, crawl.detected fqdn = some sds → Answers network fqdn sds
  failures : ∀ fqdn, crawl.failures fqdn ≠ none → ∀ sds, ¬Answers network fqdn sds
  /-- the root device is marked, or is the first to be -/
  root : crawl.joiner = .start (.check rootDevice) ∨
    (∀ fqdn, crawl.joiner ≠ .start (.check fqdn)) ∧ rootDevice ∈ crawl.inFlight

section Traced
variable {params : RunParams} {network : Network} {rootDevice : String} {crawl : Crawl}
  {i : Nat} {worker : Worker}

theorem Traced.start : Traced params network rootDevice (Crawl.start rootDevice) where
  marked _ h := absurd h (Finset.notMem_empty _)
  rest _ _ h := by cases h
  told _ _ h := by cases h
  detected _ _ h := by cases h
  failures _ h := absurd rfl h
  root := .inl rfl

/-- A worker goes on. -/
theorem Traced.goOn (h : Traced params network rootDevice crawl) (hw : crawl.workers[i]? = some worker)
    {phase : Phase} (hrest : ∀ fqdn ∈ phase.rest, Reached params network rootDevice fqdn)
    (htold : phase.Told network worker.fqdn) :
    Traced params network rootDevice (crawl.setPhase i phase) where
  marked := h.marked
  rest j worker' hj := by
    rw [Crawl.getElem?_setPhase hw] at hj
    split at hj
    · rw [← Option.some.inj hj]
      exact hrest
    · exact h.rest j worker' hj
  told j worker' hj := by
    rw [Crawl.getElem?_setPhase hw] at hj
    split at hj
    · rw [← Option.some.inj hj]
      exact htold
    · exact h.told j worker' hj
  detected := h.detected
  failures := h.failures
  root := h.root

/-- A step of starting a device that was reached. -/
theorem Traced.startStep (h : Traced params network rootDevice crawl) {st : Start}
    (hst : ∀ fqdn, st = .check fqdn → Reached params network rootDevice fqdn) :
    Traced params network rootDevice (crawl.startStep st).1 := by
  cases st with
  | check fqdn =>
    dsimp only [Crawl.startStep]
    split
    · exact h
    · refine ⟨fun f hf => ?_, h.rest, h.told, h.detected, h.failures, ?_⟩
      · rcases Finset.mem_insert.mp hf with rfl | hf
        · exact hst f rfl
        · exact h.marked f hf
      · exact h.root.imp_right (And.imp_right Finset.mem_insert_of_mem)
  | spawn fqdn =>
    refine ⟨h.marked, fun j worker' hj => ?_, fun j worker' hj => ?_, h.detected, h.failures, h.root⟩
    · rcases getElem?_append_worker hj with hj | rfl
      · exact h.rest j worker' hj
      · exact fun _ hf => absurd hf List.not_mem_nil
    · rcases getElem?_append_worker hj with hj | rfl
      · exact h.told j worker' hj
      · trivial
  | push handle => exact ⟨h.marked, h.rest, h.told, h.detected, h.failures, h.root⟩

theorem rest_resume (st : Start) (rest : List String) (crawl : Crawl) :
    (Phase.resume rest (crawl.startStep st).2).rest = rest := by
  cases st with
  | check fqdn =>
    dsimp only [Crawl.startStep]
    split
    · exact Phase.rest_next rest
    · rfl
  | spawn fqdn => rfl
  | push handle => exact Phase.rest_next rest

theorem told_resume (rest : List String) (o : Option Start) (fqdn : String) :
    (Phase.resume rest o).Told network fqdn := by
  cases o <;> [cases rest; skip] <;> trivial

theorem told_collected (fqdn : String) : (Crawl.collected network fqdn).Told network fqdn := by
  unfold Crawl.collected
  split
  · next e he =>
    intro sds hanswers
    obtain ⟨hok, -⟩ := hanswers
    rw [he] at hok
    cases hok
  · next sds hsds =>
    split
    · next hvalid => exact ⟨hsds, hvalid⟩
    · next hvalid =>
      intro sds' hanswers
      obtain ⟨hok, hvalid'⟩ := hanswers
      rw [hsds] at hok
      cases hok
      exact hvalid hvalid'

/-- A device that has a worker was marked. -/
theorem marked_of_worker (hinv : ForkJoin.Inv crawl.threads) (hw : crawl.workers[i]? = some worker) :
    worker.fqdn ∈ crawl.inFlight :=
  hinv.thread_marked _ (List.mem_map_of_mem (List.mem_of_getElem? hw))

theorem Traced.workerStep (hinv : ForkJoin.Inv crawl.threads) (h : Traced params network rootDevice crawl)
    (i : Nat) : Traced params network rootDevice (crawl.workerStep params network i) := by
  unfold Crawl.workerStep
  split
  · exact h
  · next worker hw =>
    have hreached := h.marked _ (marked_of_worker hinv hw)
    have htold := h.told i worker hw
    have hrest := h.rest i worker hw
    obtain ⟨fqdn, phase⟩ := worker
    cases phase with
    | collect =>
      refine h.goOn hw (fun f hf => ?_) (told_collected fqdn)
      have hnone : (Crawl.collected network fqdn).rest = [] := by
        unfold Crawl.collected
        split
        · rfl
        · split <;> rfl
      rw [hnone] at hf
      cases hf
    | fail reason =>
      have hfail : Traced params network rootDevice
          { crawl with failures := crawl.failures.insert fqdn reason } := by
        refine ⟨h.marked, h.rest, h.told, h.detected, fun f hf => ?_, h.root⟩
        by_cases hfqdn : f = fqdn
        · exact hfqdn ▸ htold
        · exact h.failures f (by simpa [hfqdn] using hf)
      exact hfail.goOn hw (fun _ hf => absurd hf List.not_mem_nil) trivial
    | record sds =>
      have hrecord : Traced params network rootDevice
          { crawl with detected := crawl.detected.insert fqdn sds } := by
        refine ⟨h.marked, h.rest, h.told, fun f sds' hf => ?_, h.failures, h.root⟩
        by_cases hfqdn : f = fqdn
        · subst hfqdn
          obtain rfl : sds = sds' := by simpa using hf
          exact htold
        · exact h.detected f sds' (by simpa [hfqdn] using hf)
      refine hrecord.goOn hw (fun f hf => ?_) ?_
      · rw [Phase.rest_next] at hf
        exact .neighbor hreached htold hf
      · cases discoveredNeighbors params network sds <;> trivial
    | start st rest =>
      have hst : ∀ f, st = .check f → Reached params network rootDevice f := by
        intro f hf
        subst hf
        exact hrest f List.mem_cons_self
      refine (h.startStep hst).goOn (Crawl.workers_startStep st hw) (fun f hf => ?_) (told_resume rest _ fqdn)
      rw [rest_resume] at hf
      refine hrest f ?_
      cases st with
      | check next => exact List.mem_cons_of_mem _ hf
      | spawn next => exact hf
      | push handle => exact hf
    | ingest => exact h.goOn hw (fun _ hf => absurd hf List.not_mem_nil) trivial
    | done => exact h

theorem Traced.step (hinv : ForkJoin.Inv crawl.threads) (hrecords : Records params network crawl)
    (h : Traced params network rootDevice crawl) (turn : Option Nat) :
    Traced params network rootDevice (crawl.step params network turn) := by
  cases turn with
  | some i => exact h.workerStep hinv i
  | none =>
    -- off the root device's first step, only what the main thread joins changes
    have hidle : ∀ (joiner : Joiner) (handles : List Nat), (∀ fqdn, crawl.joiner ≠ .start (.check fqdn)) →
        (∀ fqdn, joiner ≠ .start (.check fqdn)) →
        Traced params network rootDevice { crawl with handles := handles, joiner := joiner } := by
      intro joiner handles hold hnew
      refine ⟨h.marked, h.rest, h.told, h.detected, h.failures, .inr ⟨hnew, ?_⟩⟩
      exact (h.root.resolve_left (hold rootDevice)).2
    dsimp only [Crawl.step, Crawl.joinerStep]
    cases hjoiner : crawl.joiner with
    | start st =>
      dsimp only
      have hst : ∀ fqdn, st = .check fqdn → fqdn = rootDevice := by
        intro fqdn hfqdn
        subst hfqdn
        rcases h.root with hroot | ⟨hroot, -⟩
        · rw [hjoiner] at hroot
          cases hroot
          rfl
        · exact absurd hjoiner (hroot fqdn)
      have hstep := h.startStep fun fqdn hfqdn => hst fqdn hfqdn ▸ .root
      refine ⟨hstep.marked, hstep.rest, hstep.told, hstep.detected, hstep.failures, .inr ⟨?_, ?_⟩⟩
      · intro fqdn
        cases st with
        | check next =>
          dsimp only [Crawl.startStep]
          split <;> exact nofun
        | spawn next => exact nofun
        | push handle => exact nofun
      · cases st with
        | check next =>
          obtain rfl := hst next rfl
          dsimp only [Crawl.startStep]
          split
          · next hknown =>
            simp only [Bool.or_eq_true, decide_eq_true_eq] at hknown
            refine hknown.elim id fun hd => hinv.thread_marked next (hrecords.started next (.inl ?_))
            exact Option.isSome_iff_ne_none.mp hd
          · exact Finset.mem_insert_self ..
        | spawn next => exact (h.root.resolve_left (by rw [hjoiner]; exact nofun)).2
        | push handle => exact (h.root.resolve_left (by rw [hjoiner]; exact nofun)).2
    | drain =>
      refine hidle _ [] (by rw [hjoiner]; exact nofun) fun fqdn => ?_
      split <;> exact nofun
    | join handles =>
      have hold : ∀ fqdn, crawl.joiner ≠ .start (.check fqdn) := by
        rw [hjoiner]
        exact nofun
      cases handles with
      | nil => exact hidle .drain crawl.handles hold nofun
      | cons handle rest =>
        dsimp only
        split
        · exact hidle (.join rest) crawl.handles hold nofun
        · exact h
    | exited => exact h

/-- What holds in every state of a run. -/
structure Sound (params : RunParams) (network : Network) (rootDevice : String) (crawl : Crawl) : Prop where
  threads : ForkJoin.Inv crawl.threads
  records : Records params network crawl
  traced : Traced params network rootDevice crawl

theorem Sound.start : Sound params network rootDevice (Crawl.start rootDevice) :=
  ⟨threads_start rootDevice ▸ .start, .start rootDevice, .start⟩

theorem Sound.step (h : Sound params network rootDevice crawl) (turn : Option Nat) :
    Sound params network rootDevice (crawl.step params network turn) :=
  ⟨inv_step h.threads turn, h.records.step h.threads turn, h.traced.step h.threads h.records turn⟩

theorem Sound.run (h : Sound params network rootDevice crawl) (turns : List (Option Nat)) :
    Sound params network rootDevice (crawl.run params network turns) :=
  Runs.foldl_inv (Sound params network rootDevice) (fun _ turn h => h.step turn) turns h

/-- What is detected was reached and answers. -/
theorem Sound.discoverable (h : Sound params network rootDevice crawl) {fqdn : String}
    (hd : (crawl.detected fqdn).isSome = true) : Discoverable params network rootDevice fqdn := by
  obtain ⟨sds, hsds⟩ := Option.isSome_iff_exists.mp hd
  have hstarted := h.records.started fqdn (.inl (by simp [hsds]))
  exact ⟨h.traced.marked fqdn (h.threads.thread_marked fqdn hstarted), sds, h.traced.detected fqdn sds hsds⟩

/-- When the join loop has ended, what is reached and answers is detected. -/
theorem Sound.complete (h : Sound params network rootDevice crawl) (hexited : crawl.joiner = .exited)
    {fqdn : String} (hf : Discoverable params network rootDevice fqdn) :
    (crawl.detected fqdn).isSome = true := by
  have hclosed := h.records.closed h.threads
  -- a device that was started and answers did not fail
  have hdetected : ∀ f sds, f ∈ crawl.inFlight → Answers network f sds → crawl.detected f = some sds := by
    intro f sds hmarked hanswers
    rcases (hclosed.recorded hexited f hmarked).2 with ⟨hd, -⟩ | ⟨-, hfail⟩
    · obtain ⟨sds', hsds'⟩ := Option.isSome_iff_exists.mp hd
      have hanswers' := h.traced.detected f sds' hsds'
      rw [hsds', ← Except.ok.inj (hanswers.1.symm.trans hanswers'.1)]
    · exact absurd hanswers (h.traced.failures f (Option.isSome_iff_ne_none.mp hfail) sds)
  have hmarked : ∀ f, Reached params network rootDevice f → f ∈ crawl.inFlight := by
    intro f hreached
    induction hreached with
    | root => exact (h.traced.root.resolve_left (by rw [hexited]; exact nofun)).2
    | @neighbor f name sds _ hanswers hname ih =>
      have hd := hdetected f sds ih hanswers
      obtain ⟨worker, hw, rfl⟩ := List.mem_map.mp (h.records.started f (.inl (by simp [hd])))
      obtain ⟨i, hi⟩ := List.getElem?_of_mem hw
      refine (h.records.neighbors i worker sds hi hd name hname).resolve_right ?_
      rw [(hclosed.quiet hexited).1 worker hw]
      exact List.not_mem_nil
  obtain ⟨hreached, sds, hanswers⟩ := hf
  rw [hdetected fqdn sds (hmarked fqdn hreached) hanswers]
  rfl

/-! ## Any crawl can go on to what it reaches -/

/-- The steps before a worker, or the main thread, is through with what it starts. -/
def Start.left : Start → Nat
  | .check _ => 3
  | .spawn _ => 2
  | .push _ => 1

def Phase.left : Phase → Nat
  | .start st rest => st.left + 3 * rest.length
  | _ => 0

theorem left_resume (st : Start) (rest : List String) (crawl : Crawl) :
    (Phase.resume rest (crawl.startStep st).2).left < (Phase.start st rest).left := by
  have hnext : (Phase.next rest).left ≤ 3 * rest.length := by
    cases rest with
    | nil => exact Nat.zero_le _
    | cons fqdn rest =>
      simp only [Phase.next, Phase.left, Start.left, List.length_cons]
      omega
  cases st with
  | check fqdn =>
    dsimp only [Crawl.startStep]
    split
    · simp only [Phase.resume, Phase.left, Start.left] at hnext ⊢
      omega
    · simp only [Phase.resume, Phase.left, Start.left]
      omega
  | spawn fqdn =>
    simp only [Crawl.startStep, Phase.resume, Phase.left, Start.left]
    omega
  | push handle =>
    simp only [Crawl.startStep, Phase.resume, Phase.left, Start.left] at hnext ⊢
    omega

/-- Some further turns bring the crawl where `p` holds. -/
def GoesTo (params : RunParams) (network : Network) (crawl : Crawl) (p : Crawl → Prop) : Prop :=
  ∃ turns, p (crawl.run params network turns)

theorem GoesTo.now {p : Crawl → Prop} (h : p crawl) : GoesTo params network crawl p := ⟨[], h⟩

theorem GoesTo.step {p : Crawl → Prop} (turn : Option Nat)
    (h : GoesTo params network (crawl.step params network turn) p) : GoesTo params network crawl p := by
  obtain ⟨turns, h⟩ := h
  exact ⟨turn :: turns, h⟩

/-- What holds there is sound still, and goes on from there. -/
theorem Sound.goesTo (h : Sound params network rootDevice crawl) {p q : Crawl → Prop}
    (hp : GoesTo params network crawl p)
    (hq : ∀ crawl', Sound params network rootDevice crawl' → p crawl' → GoesTo params network crawl' q) :
    GoesTo params network crawl q := by
  obtain ⟨turns, hp⟩ := hp
  obtain ⟨turns', hq⟩ := hq _ (h.run turns) hp
  refine ⟨turns ++ turns', ?_⟩
  rw [Crawl.run, List.foldl_append]
  exact hq

theorem workerStep_start (hw : crawl.workers[i]? = some worker) {st : Start} {rest : List String}
    (hphase : worker.phase = .start st rest) : crawl.step params network (some i) =
      (crawl.startStep st).1.setPhase i (.resume rest (crawl.startStep st).2) := by
  show crawl.workerStep params network i = _
  unfold Crawl.workerStep
  rw [hw]
  dsimp only
  rw [hphase]

/-- A neighbour that a worker has still to start comes to be marked. -/
theorem Sound.marks_rest {name : String} (h : Sound params network rootDevice crawl)
    (hw : crawl.workers[i]? = some worker) (hname : name ∈ worker.phase.rest) :
    GoesTo params network crawl fun crawl => name ∈ crawl.inFlight := by
  induction hn : worker.phase.left using Nat.strong_induction_on generalizing crawl worker with
  | _ n ih =>
    cases hphase : worker.phase with
    | start st rest =>
      rw [hphase] at hname
      have hstep := @workerStep_start params network _ _ _ hw _ _ hphase
      have hw' := Crawl.workers_startStep st hw
      rcases startStep_rest h.threads h.records hname with hmarked | hrest
      · refine GoesTo.step (some i) (.now ?_)
        rw [hstep]
        exact hmarked
      · have hnext : (crawl.step params network (some i)).workers[i]? =
            some { worker with phase := .resume rest (crawl.startStep st).2 } := by
          rw [hstep, Crawl.getElem?_setPhase hw', if_pos rfl]
        have hless := left_resume st rest crawl
        rw [← hphase, hn] at hless
        exact GoesTo.step (some i) (ih _ hless (h.step (some i)) hnext hrest rfl)
    | collect => rw [hphase] at hname; cases hname
    | fail reason => rw [hphase] at hname; cases hname
    | record sds => rw [hphase] at hname; cases hname
    | ingest => rw [hphase] at hname; cases hname
    | done => rw [hphase] at hname; cases hname

theorem Sound.marks_root (h : Sound params network rootDevice crawl) :
    GoesTo params network crawl fun crawl => rootDevice ∈ crawl.inFlight := by
  rcases h.traced.root with hroot | ⟨-, hroot⟩
  · refine GoesTo.step none (.now ?_)
    refine ((h.step none).traced.root.resolve_left fun hagain => ?_).2
    -- the step is not the check again
    simp only [Crawl.step, Crawl.joinerStep, hroot, Crawl.startStep] at hagain
    split at hagain <;> cases hagain
  · exact .now hroot

/-- A device that is marked comes to have a worker. -/
theorem Sound.starts {fqdn : String} (h : Sound params network rootDevice crawl)
    (hmarked : fqdn ∈ crawl.inFlight) :
    GoesTo params network crawl fun crawl => fqdn ∈ crawl.workers.map Worker.fqdn := by
  rcases h.threads.marked_started fqdn hmarked with hstarted | ⟨t, ht⟩
  · exact .now hstarted
  · refine GoesTo.step t (.now ?_)
    obtain ⟨st, hst, hspawn⟩ := Option.bind_eq_some_iff.mp ht
    obtain rfl : st = .spawn fqdn := by
      cases st <;> cases hspawn
      rfl
    cases t with
    | none =>
      have hjoiner : crawl.joiner = .start (.spawn fqdn) := by
        unfold Crawl.starting at hst
        cases hj : crawl.joiner <;> rw [hj] at hst <;> cases hst
        rfl
      simp [Crawl.step, Crawl.joinerStep, hjoiner, Crawl.startStep]
    | some i =>
      obtain ⟨worker, hw, hstarting⟩ := Option.bind_eq_some_iff.mp hst
      obtain ⟨rest, hphase⟩ : ∃ rest, worker.phase = .start (.spawn fqdn) rest := by
        cases hp : worker.phase <;> rw [hp] at hstarting <;> cases hstarting
        exact ⟨_, rfl⟩
      rw [workerStep_start hw hphase, Crawl.map_fqdn_setPhase (Crawl.workers_startStep _ hw)]
      simp [Crawl.startStep]

/-- A device that has a worker and answers comes to be detected. -/
theorem Sound.detects {fqdn : String} {sds : DetectedDevice} (h : Sound params network rootDevice crawl)
    (hstarted : fqdn ∈ crawl.workers.map Worker.fqdn) (hanswers : Answers network fqdn sds) :
    GoesTo params network crawl fun crawl => crawl.detected fqdn ≠ none := by
  obtain ⟨worker, hw, rfl⟩ := List.mem_map.mp hstarted
  obtain ⟨i, hi⟩ := List.getElem?_of_mem hw
  have hdevice := h.records.device i worker hi
  have htold := h.traced.told i worker hi
  -- one step from there it is on record
  have hrecord : ∀ (crawl' : Crawl) worker' sds', crawl'.workers[i]? = some worker' →
      worker'.phase = .record sds' → (crawl'.step params network (some i)).detected worker'.fqdn ≠ none := by
    intro crawl' worker' sds' hi' hphase
    simp [Crawl.step, Crawl.workerStep, hi', hphase, Crawl.setPhase]
  cases hphase : worker.phase with
  | collect =>
    have hcollect : (crawl.step params network (some i)).workers[i]? =
        some { worker with phase := .record sds } := by
      have hstep : crawl.step params network (some i) = crawl.setPhase i (.record sds) := by
        simp [Crawl.step, Crawl.workerStep, hi, hphase, Crawl.collected, hanswers.1, hanswers.2]
      rw [hstep, Crawl.getElem?_setPhase hi, if_pos rfl]
    exact GoesTo.step (some i) (GoesTo.step (some i) (.now (hrecord _ ⟨worker.fqdn, .record sds⟩ sds hcollect rfl)))
  | fail reason =>
    rw [hphase] at htold
    exact absurd hanswers (htold sds)
  | record sds' => exact GoesTo.step (some i) (.now (hrecord crawl worker sds' hi hphase))
  | start st rest =>
    rw [hphase] at hdevice
    exact .now hdevice.1
  | ingest =>
    rw [hphase] at hdevice
    exact .now hdevice.1
  | done =>
    rw [hphase] at hdevice
    rcases hdevice with ⟨hd, -⟩ | ⟨-, hfail⟩
    · exact .now hd
    · exact absurd hanswers (h.traced.failures worker.fqdn hfail sds)

/-- **What is reached comes to be marked**, from any state of a crawl. -/
theorem Sound.marks {fqdn : String} (hreached : Reached params network rootDevice fqdn)
    (h : Sound params network rootDevice crawl) :
    GoesTo params network crawl fun crawl => fqdn ∈ crawl.inFlight := by
  induction hreached generalizing crawl with
  | root => exact h.marks_root
  | @neighbor fqdn name sds _ hanswers hname ih =>
    refine h.goesTo (ih h) fun crawl₁ h₁ hmarked => ?_
    refine h₁.goesTo (h₁.starts hmarked) fun crawl₂ h₂ hstarted => ?_
    refine h₂.goesTo (h₂.detects hstarted hanswers) fun crawl₃ h₃ hdetected => ?_
    obtain ⟨sds', hsds'⟩ := Option.ne_none_iff_exists'.mp hdetected
    have hanswers' := h₃.traced.detected fqdn sds' hsds'
    obtain rfl : sds = sds' := Except.ok.inj (hanswers.1.symm.trans hanswers'.1)
    obtain ⟨worker, hw, rfl⟩ := List.mem_map.mp (h₃.records.started fqdn (.inl hdetected))
    obtain ⟨i, hi⟩ := List.getElem?_of_mem hw
    rcases h₃.records.neighbors i worker sds hi hsds' name hname with hmarked | hrest
    · exact .now hmarked
    · exact h₃.marks_rest hi hrest

theorem Sound.discovers {fqdn : String} (h : Sound params network rootDevice crawl)
    (hf : Discoverable params network rootDevice fqdn) :
    GoesTo params network crawl fun crawl => crawl.detected fqdn ≠ none := by
  obtain ⟨hreached, sds, hanswers⟩ := hf
  refine h.goesTo (h.marks hreached) fun crawl₁ h₁ hmarked => ?_
  exact h₁.goesTo (h₁.starts hmarked) fun crawl₂ h₂ hstarted => h₂.detects hstarted hanswers

/-- What is detected stays so. -/
theorem detected_step {fqdn : String} (hd : crawl.detected fqdn ≠ none) (turn : Option Nat) :
    (crawl.step params network turn).detected fqdn ≠ none := by
  have hstart : ∀ st, (crawl.startStep st).1.detected = crawl.detected := by
    intro st
    cases st with
    | check next =>
      dsimp only [Crawl.startStep]
      split <;> rfl
    | spawn next => rfl
    | push handle => rfl
  cases turn with
  | none =>
    dsimp only [Crawl.step, Crawl.joinerStep]
    split
    · next st _ =>
      dsimp only
      rw [hstart]
      exact hd
    · exact hd
    · exact hd
    · split <;> exact hd
    · exact hd
  | some i =>
    dsimp only [Crawl.step, Crawl.workerStep]
    split
    · exact hd
    · next worker hw =>
      split
      · exact hd
      · exact hd
      · next sds _ =>
        dsimp only [Crawl.setPhase]
        by_cases hf : fqdn = worker.fqdn
        · simp [hf]
        · simpa [hf] using hd
      · next st rest _ =>
        dsimp only [Crawl.setPhase]
        rw [hstart]
        exact hd
      · exact hd
      · exact hd

theorem detected_run {fqdn : String} (hd : crawl.detected fqdn ≠ none) (turns : List (Option Nat)) :
    (crawl.run params network turns).detected fqdn ≠ none :=
  Runs.foldl_inv (fun crawl : Crawl => crawl.detected fqdn ≠ none) (fun _ turn h => detected_step h turn)
    turns hd

/-- Two devices can be detected in one run. -/
theorem Sound.discovers_both {f g : String} (h : Sound params network rootDevice crawl)
    (hf : Discoverable params network rootDevice f) (hg : Discoverable params network rootDevice g) :
    GoesTo params network crawl fun crawl => crawl.detected f ≠ none ∧ crawl.detected g ≠ none := by
  refine h.goesTo (h.discovers hf) fun crawl' h' hd => ?_
  obtain ⟨turns, hg⟩ := h'.discovers hg
  exact ⟨turns, detected_run hd turns, hg⟩

end Traced

/-- **Spellings are told apart.** In every crawl a spelling is handed to one worker, and a
device is detected under each spelling that is reached; so no two spellings of one host are
ever detected exactly when no two are there to be discovered. -/
theorem crawl_spellings (params : RunParams) (network : Network) (rootDevice : String) :
    (∀ turns, SpellingsApart params network rootDevice
      ((Crawl.start rootDevice).run params network turns)) ∧
    ((∀ turns, SpelledOnce ((Crawl.start rootDevice).run params network turns).detected) ↔
      OneSpelling params network rootDevice) := by
  have hsound : ∀ turns, Sound params network rootDevice
      ((Crawl.start rootDevice).run params network turns) := fun turns => Sound.start.run turns
  refine ⟨fun turns => ⟨(hsound turns).threads.once, fun _ => (hsound turns).discoverable,
    fun hexited _ => (hsound turns).complete hexited⟩, fun honce f g hf hg hsame => ?_,
    fun hone turns f g hf hg hsame => ?_⟩
  · obtain ⟨turns, hdf, hdg⟩ := (@Sound.start params network rootDevice).discovers_both hf hg
    exact honce turns f g (Option.isSome_iff_ne_none.mpr hdf) (Option.isSome_iff_ne_none.mpr hdg) hsame
  · exact hone f g ((hsound turns).discoverable hf) ((hsound turns).discoverable hg) hsame

/-- A switch that one neighbour names "SW1" and another "sw1". -/
def twoSpellings : Network where
  collect fqdn :=
    let naming (names : List String) : Except String DetectedDevice :=
      .ok ⟨fqdn, names.map fun name => ⟨[⟨name⟩], none⟩, true⟩
    if fqdn = "core.lan" then naming ["SW1", "edge"]
    else if fqdn = "edge.lan" then naming ["sw1"]
    else naming []
  resolves _ := true

/-- A whole crawl there, through to the end of the join loop. -/
def twoSpellingsRun : Crawl :=
  (Crawl.start "core.lan").run ⟨"core.lan", ["lan"], [], fun _ => none, false, false⟩ twoSpellings
    (List.replicate 3 none ++ List.replicate 9 (some 0) ++ List.replicate 3 (some 1) ++
      List.replicate 6 (some 2) ++ List.replicate 3 (some 3) ++ List.replicate 12 none)

/-- **A crawl does not treat names as DNS does**: the switch is detected twice. -/
theorem two_spellings_detected : twoSpellingsRun.joiner.isExited = true ∧
    ¬SpelledOnce twoSpellingsRun.detected := by
  refine ⟨by decide +kernel, fun honce => ?_⟩
  have hsame := honce "SW1.lan" "sw1.lan" (by decide +kernel) (by decide +kernel) (by decide +kernel)
  exact absurd hsame (by decide)

end JaspyNexus.Collectors.Discovery

import Mathlib
import JaspyNexus.Lib.Fair
import JaspyNexus.Utilities.Semaphore

/-! # The cap on requests in flight

`SnmpSource` of `snmp/source.rs`: every request of every collector is admitted first, by a
permit of the semaphore when a cap is set, and gives the permit back when the back end has
answered it. A collector makes one request at a time. -/

namespace JaspyNexus.Snmp
open JaspyNexus.Lib JaspyNexus.Utilities

/-- Where a collector is in `table` or `object`. -/
inductive Collector where
  | idle
  /-- it is in `admit` -/
  | requesting
  | inBackend
  deriving DecidableEq, Repr

structure SnmpSource where
  limiter : Option Semaphore
  collectors : List Collector
  deriving DecidableEq, Repr

inductive SourceAction where
  /-- a collector makes a request -/
  | request (i : Nat)
  /-- its turn: in `admit`, or done with the back end -/
  | turn (i choice : Nat)
  /-- a spurious wake-up in `admit` -/
  | wake (i : Nat)
  deriving DecidableEq, Repr

namespace SnmpSource
variable (s : SnmpSource)

/-- A cap of zero is none. -/
def new (maxInflight collectors : Nat) : SnmpSource where
  limiter := if maxInflight > 0 then some (.new maxInflight collectors) else none
  collectors := List.replicate collectors .idle

def set (i : Nat) (collector : Collector) : List Collector := s.collectors.set i collector

/-- `admit`: without a cap at once, else when the semaphore has a permit. -/
def admitRequest (i : Nat) : SnmpSource :=
  match s.limiter with
  | none => { s with collectors := s.set i .inBackend }
  | some sem =>
    let out := sem.acquire i
    { limiter := some out.1, collectors := if out.2 then s.set i .inBackend else s.collectors }

def step (s : SnmpSource) : SourceAction → SnmpSource
  | .request i =>
    match s.collectors[i]? with
    | some .idle => { s with collectors := s.set i .requesting }
    | _ => s
  | .turn i choice =>
    match s.collectors[i]? with
    | some .requesting => s.admitRequest i
    | some .inBackend =>
      { limiter := s.limiter.map fun sem => sem.release choice, collectors := s.set i .idle }
    | _ => s
  | .wake i => { s with limiter := s.limiter.map fun sem => sem.wake i }

/-- The requests in the back end. -/
def inflight : Nat := s.collectors.countP (· = .inBackend)

/-- A request is admitted from one state to the next. -/
def Admits (s' : SnmpSource) : Prop :=
  ∃ i : Nat, s.collectors[i]? = some .requesting ∧ s'.collectors[i]? = some .inBackend

end SnmpSource

/-! ## What an action does -/

/-- The ways on. -/
inductive Goes (s : SnmpSource) : SnmpSource → Prop where
  | stays : Goes s s
  | requests {i : Nat} (hi : s.collectors[i]? = some .idle) :
      Goes s { s with collectors := s.set i .requesting }
  | enters {i : Nat} (hi : s.collectors[i]? = some .requesting) (hfree : s.limiter = none) :
      Goes s { s with collectors := s.set i .inBackend }
  | admitted {i : Nat} {sem : Semaphore} (hi : s.collectors[i]? = some .requesting)
      (hsem : s.limiter = some sem) (hpermit : (sem.acquire i).2 = true) :
      Goes s { limiter := some (sem.acquire i).1, collectors := s.set i .inBackend }
  | waits {i : Nat} {sem : Semaphore} (hi : s.collectors[i]? = some .requesting)
      (hsem : s.limiter = some sem) (hpermit : (sem.acquire i).2 = false) :
      Goes s { s with limiter := some (sem.acquire i).1 }
  | answered {i choice : Nat} (hi : s.collectors[i]? = some .inBackend) :
      Goes s { limiter := s.limiter.map fun sem => sem.release choice, collectors := s.set i .idle }
  | wakes {i : Nat} : Goes s { s with limiter := s.limiter.map fun sem => sem.wake i }

section
variable {s : SnmpSource} {i choice : Nat}

theorem goes_admitRequest (hi : s.collectors[i]? = some .requesting) : Goes s (s.admitRequest i) := by
  unfold SnmpSource.admitRequest
  split
  next hsem => exact .enters hi hsem
  next sem hsem =>
    cases hpermit : (sem.acquire i).2 with
    | true => simpa [hpermit] using Goes.admitted hi hsem hpermit
    | false => simpa [hpermit] using Goes.waits hi hsem hpermit

theorem goes (s : SnmpSource) (a : SourceAction) : Goes s (s.step a) := by
  unfold SnmpSource.step
  split
  · split
    · next hi => exact .requests hi
    · exact .stays
  · split
    · next hi => exact goes_admitRequest hi
    · next hi => exact .answered hi
    · exact .stays
  · exact .wakes

theorem getElem?_set {collector : Collector} (hi : s.collectors[i]? = some collector) (next : Collector)
    (j : Nat) : (s.set i next)[j]? = if i = j then some next else s.collectors[j]? := by
  obtain ⟨hlt, -⟩ := List.getElem?_eq_some_iff.mp hi
  rw [SnmpSource.set, List.getElem?_set, if_pos hlt]

/-- Another collector is where it was. -/
theorem getElem?_set_of_ne {j : Nat} {collector here next : Collector} (hi : s.collectors[i]? = some here)
    (hj : s.collectors[j]? = some collector) (hne : here ≠ collector) :
    (s.set i next)[j]? = some collector := by
  have hij : i ≠ j := fun hij => hne (Option.some.inj (hi.symm.trans (hij ▸ hj)))
  rw [getElem?_set hi, if_neg hij, hj]

/-! ## The semaphore of a source -/

/-- The permits are with the requests in the back end, and who waits is making one. -/
structure Capped (maxInflight : Nat) (s : SnmpSource) (sem : Semaphore) : Prop where
  shared : Shared.Inv maxInflight ⟨sem, s.inflight⟩
  manned : sem.cvar.waiters.length = s.collectors.length
  waiting : ∀ i : Nat, sem.cvar.Waits i → s.collectors[i]? = some .requesting

structure SourceInv (maxInflight : Nat) (s : SnmpSource) : Prop where
  capped : ∀ sem, s.limiter = some sem → Capped maxInflight s sem
  limited : s.limiter = none ↔ maxInflight = 0

theorem sourceInv_new (maxInflight collectors : Nat) : SourceInv maxInflight (.new maxInflight collectors) where
  capped sem hsem := by
    unfold SnmpSource.new at hsem
    split at hsem
    · obtain rfl := Option.some.inj hsem
      refine ⟨?_, by simp [Semaphore.new, Condvar.new, SnmpSource.new], fun i ⟨w, hi, hw⟩ => ?_⟩
      · have hnone : (SnmpSource.new maxInflight collectors).inflight = 0 := by
          simp [SnmpSource.inflight, SnmpSource.new, List.countP_replicate]
        rw [hnone]
        exact Shared.inv_start maxInflight collectors
      · exact absurd (List.mem_replicate.mp (List.mem_of_getElem? hi)).2 hw
    · cases hsem
  limited := by
    unfold SnmpSource.new
    split
    · next hpos => exact iff_of_false nofun (by omega)
    · next hzero => exact iff_of_true rfl (by omega)

theorem inflight_set {collector : Collector} (hi : s.collectors[i]? = some collector) (next : Collector)
    (limiter : Option Semaphore) :
    SnmpSource.inflight ⟨limiter, s.set i next⟩ + (decide (collector = .inBackend)).toNat =
      s.inflight + (decide (next = .inBackend)).toNat :=
  countP_set_add hi _ next

variable {maxInflight : Nat} {sem : Semaphore}

/-- A use of the lock leaves the others as they are, and whoever has a guard does not wait. -/
theorem waits_acquire {j : Nat} (h : (sem.acquire i).1.cvar.Waits j) :
    (j ≠ i ∧ sem.cvar.Waits j) ∨ (j = i ∧ (sem.acquire i).2 = false) := by
  rcases acquire_cases sem i with ⟨w, hi, -, -, hacquire⟩ | ⟨w, hi, -, -, hacquire⟩ | ⟨-, hacquire⟩
  all_goals rw [hacquire] at h ⊢
  · rw [Condvar.waits_set hi] at h
    split at h
    · exact absurd rfl h
    · next hij => exact .inl ⟨Ne.symm hij, h⟩
  · rw [Condvar.waits_set hi] at h
    split at h
    · next hij => exact .inr ⟨hij.symm, rfl⟩
    · next hij => exact .inl ⟨Ne.symm hij, h⟩
  · by_cases hij : j = i
    · exact .inr ⟨hij, rfl⟩
    · exact .inl ⟨hij, h⟩

theorem length_acquire (sem : Semaphore) (i : Nat) :
    (sem.acquire i).1.cvar.waiters.length = sem.cvar.waiters.length := by
  rcases acquire_cases sem i with ⟨-, -, -, -, hacquire⟩ | ⟨-, -, -, -, hacquire⟩ | ⟨-, hacquire⟩
  · rw [hacquire]
    exact List.length_set
  · rw [hacquire]
    exact List.length_set
  · rw [hacquire]

theorem Capped.admitted (h : Capped maxInflight s sem) (hi : s.collectors[i]? = some .requesting)
    (hpermit : (sem.acquire i).2 = true) :
    Capped maxInflight ⟨some (sem.acquire i).1, s.set i .inBackend⟩ (sem.acquire i).1 where
  shared := by
    have hcount := inflight_set hi .inBackend (some (sem.acquire i).1)
    have hstep := h.shared.step (.acquire i)
    simp only [reduceCtorEq, decide_false, decide_true, Bool.toNat_false, Bool.toNat_true] at hcount
    simp only [Shared.step, hpermit, if_true] at hstep
    rwa [← Nat.add_zero (SnmpSource.inflight _), hcount]
  manned := by
    rw [length_acquire, h.manned]
    exact List.length_set.symm
  waiting j hj := by
    rcases waits_acquire hj with ⟨hji, hj⟩ | ⟨-, hnot⟩
    · rw [getElem?_set hi, if_neg (Ne.symm hji)]
      exact h.waiting j hj
    · rw [hpermit] at hnot
      cases hnot

theorem Capped.waits (h : Capped maxInflight s sem) (hi : s.collectors[i]? = some .requesting)
    (hpermit : (sem.acquire i).2 = false) :
    Capped maxInflight { s with limiter := some (sem.acquire i).1 } (sem.acquire i).1 where
  shared := by
    have hstep := h.shared.step (.acquire i)
    rwa [Shared.step, hpermit] at hstep
  manned := by
    rw [length_acquire]
    exact h.manned
  waiting j hj := by
    rcases waits_acquire hj with ⟨-, hj⟩ | ⟨hji, -⟩
    · exact h.waiting j hj
    · exact hji ▸ hi

theorem Capped.answered (h : Capped maxInflight s sem) (hi : s.collectors[i]? = some .inBackend) (choice : Nat) :
    Capped maxInflight ⟨some (sem.release choice), s.set i .idle⟩ (sem.release choice) where
  shared := by
    have hcount := inflight_set hi .idle (some (sem.release choice))
    have hstep := h.shared.step (.drop choice)
    simp only [reduceCtorEq, decide_false, decide_true, Bool.toNat_false, Bool.toNat_true] at hcount
    rwa [Shared.step, ← Nat.add_zero s.inflight, ← hcount] at hstep
  manned := by
    rw [Semaphore.release, Condvar.length_notifyOne, h.manned]
    exact List.length_set.symm
  waiting j hj := getElem?_set_of_ne hi (h.waiting j ((Condvar.waits_notifyOne _ choice j).mp hj)) nofun

theorem Capped.wakes (h : Capped maxInflight s sem) (i : Nat) :
    Capped maxInflight { s with limiter := some (sem.wake i) } (sem.wake i) where
  shared := h.shared.step (.wake i)
  manned := (Condvar.length_wake _ i).trans h.manned
  waiting j hj := h.waiting j ((Condvar.waits_wake _ i j).mp hj)

theorem Capped.requests (h : Capped maxInflight s sem) (hi : s.collectors[i]? = some .idle) :
    Capped maxInflight { s with collectors := s.set i .requesting } sem where
  shared := by
    have hcount := inflight_set hi .requesting s.limiter
    simp only [reduceCtorEq, decide_false, Bool.toNat_false, Nat.add_zero] at hcount
    rw [hcount]
    exact h.shared
  manned := h.manned.trans List.length_set.symm
  waiting j hj := getElem?_set_of_ne hi (h.waiting j hj) nofun

theorem SourceInv.step (h : SourceInv maxInflight s) (a : SourceAction) : SourceInv maxInflight (s.step a) := by
  have hgoes := goes s a
  generalize s.step a = s' at hgoes
  cases hgoes with
  | stays => exact h
  | requests hi => exact ⟨fun sem hsem => (h.capped sem hsem).requests hi, h.limited⟩
  | enters hi hfree => exact ⟨fun sem hsem => absurd (hfree.symm.trans hsem) nofun, h.limited⟩
  | admitted hi hsem hpermit =>
    have hpos : maxInflight ≠ 0 := fun hzero => absurd (hsem.symm.trans (h.limited.mpr hzero)) nofun
    refine ⟨fun sem' hsem' => ?_, iff_of_false nofun hpos⟩
    obtain rfl := Option.some.inj hsem'
    exact (h.capped _ hsem).admitted hi hpermit
  | waits hi hsem hpermit =>
    have hpos : maxInflight ≠ 0 := fun hzero => absurd (hsem.symm.trans (h.limited.mpr hzero)) nofun
    refine ⟨fun sem' hsem' => ?_, iff_of_false nofun hpos⟩
    obtain rfl := Option.some.inj hsem'
    exact (h.capped _ hsem).waits hi hpermit
  | @answered i choice hi =>
    refine ⟨fun sem' hsem' => ?_, by rw [← h.limited]; exact Option.map_eq_none_iff⟩
    obtain ⟨sem, hsem, rfl⟩ := Option.map_eq_some_iff.mp hsem'
    rw [hsem, Option.map_some]
    exact (h.capped sem hsem).answered hi choice
  | @wakes i =>
    refine ⟨fun sem' hsem' => ?_, by rw [← h.limited]; exact Option.map_eq_none_iff⟩
    obtain ⟨sem, hsem, rfl⟩ := Option.map_eq_some_iff.mp hsem'
    rw [hsem, Option.map_some]
    exact (h.capped sem hsem).wakes i

/-! ## Requests go on being admitted -/

variable {s' : SnmpSource}

theorem admits_set (limiter : Option Semaphore) (hi : s.collectors[i]? = some .requesting) :
    s.Admits ⟨limiter, s.set i .inBackend⟩ :=
  ⟨i, hi, by rw [getElem?_set hi, if_pos rfl]⟩

/-- A request waits until one is admitted. -/
theorem Goes.requesting (h : Goes s s') (hi : s.collectors[i]? = some .requesting) :
    s'.collectors[i]? = some .requesting ∨ s.Admits s' := by
  cases h with
  | stays => exact .inl hi
  | requests hk => exact .inl (getElem?_set_of_ne hk hi nofun)
  | enters hk hfree => exact .inr (admits_set _ hk)
  | admitted hk hsem hpermit => exact .inr (admits_set _ hk)
  | waits hk hsem hpermit => exact .inl hi
  | answered hk => exact .inl (getElem?_set_of_ne hk hi nofun)
  | wakes => exact .inl hi

/-- Without a cap there is none later. -/
theorem Goes.uncapped (h : Goes s s') (hnone : s.limiter = none) : s'.limiter = none := by
  cases h with
  | stays => exact hnone
  | requests hk => exact hnone
  | enters hk hfree => exact hnone
  | admitted hk hsem hpermit => exact absurd (hnone.symm.trans hsem) nofun
  | waits hk hsem hpermit => exact absurd (hnone.symm.trans hsem) nofun
  | answered hk => rw [hnone, Option.map_none]
  | wakes => rw [hnone, Option.map_none]

/-- A permit is free. -/
def Free (s : SnmpSource) : Prop := ∃ sem, s.limiter = some sem ∧ 0 < sem.permits

/-- The back end has a request until it answers it, and then a permit is free. -/
theorem Goes.inBackend (h : Goes s s') (hsem : s.limiter = some sem) (hi : s.collectors[i]? = some .inBackend) :
    (∃ sem', s'.limiter = some sem') ∧ (s'.collectors[i]? = some .inBackend ∨ Free s') := by
  cases h with
  | stays => exact ⟨⟨sem, hsem⟩, .inl hi⟩
  | requests hk => exact ⟨⟨sem, hsem⟩, .inl (getElem?_set_of_ne hk hi nofun)⟩
  | enters hk hfree => exact absurd (hfree.symm.trans hsem) nofun
  | admitted hk hsem' hpermit => exact ⟨⟨_, rfl⟩, .inl (getElem?_set_of_ne hk hi nofun)⟩
  | waits hk hsem' hpermit => exact ⟨⟨_, rfl⟩, .inl hi⟩
  | @answered k choice hk =>
    rw [hsem, Option.map_some]
    exact ⟨⟨_, rfl⟩, .inr ⟨_, rfl, Nat.succ_pos _⟩⟩
  | @wakes k =>
    rw [hsem, Option.map_some]
    exact ⟨⟨_, rfl⟩, .inl hi⟩

/-- A collector is awake in `admit`, with a permit free. -/
structure Ready (s : SnmpSource) (i : Nat) (sem : Semaphore) (w : Waiter) : Prop where
  hsem : s.limiter = some sem
  free : 0 < sem.permits
  hw : sem.cvar.waiters[i]? = some w
  awake : w ≠ .asleep
  requesting : s.collectors[i]? = some .requesting

theorem Goes.ready {w : Waiter} (h : Goes s s') (hready : Ready s i sem w) :
    (∃ sem', Ready s' i sem' w) ∨ s.Admits s' := by
  have hi := hready.requesting
  cases h with
  | stays => exact .inl ⟨sem, hready⟩
  | requests hk => exact .inl ⟨sem, { hready with requesting := getElem?_set_of_ne hk hi nofun }⟩
  | enters hk hfree => exact .inr (admits_set _ hk)
  | admitted hk hsem hpermit => exact .inr (admits_set _ hk)
  | @waits k sem' hk hsem hpermit =>
    obtain rfl : sem = sem' := Option.some.inj (hready.hsem.symm.trans hsem)
    -- with a permit free, only who sleeps gets none
    rcases acquire_cases sem k with ⟨-, -, -, -, hacquire⟩ | ⟨-, -, -, hnone, -⟩ | ⟨-, hacquire⟩
    · rw [hacquire] at hpermit
      cases hpermit
    · exact absurd hready.free (by omega)
    · rw [hacquire]
      exact .inl ⟨sem, { hready with hsem := rfl }⟩
  | @answered k choice hk =>
    rw [hready.hsem, Option.map_some]
    exact .inl ⟨_, rfl, Nat.succ_pos _, Condvar.awake_notifyOne hready.hw hready.awake choice, hready.awake,
      getElem?_set_of_ne hk hi nofun⟩
  | @wakes k =>
    rw [hready.hsem, Option.map_some]
    exact .inl ⟨_, rfl, hready.free, Condvar.awake_wake hready.hw hready.awake k, hready.awake, hi⟩

theorem Ready.turn {w : Waiter} (h : Ready s i sem w) (choice : Nat) : s.Admits (s.step (.turn i choice)) := by
  have hentered : s.step (.turn i choice) = ⟨some (sem.acquire i).1, s.set i .inBackend⟩ := by
    simp only [SnmpSource.step, h.requesting, SnmpSource.admitRequest, h.hsem,
      acquire_of_free h.hw h.awake h.free, if_true]
  rw [hentered]
  exact admits_set _ h.requesting

/-- With a permit free, someone who makes a request is awake. -/
theorem Capped.exists_ready (h : Capped maxInflight s sem) (hsem : s.limiter = some sem) (hfree : 0 < sem.permits)
    (hi : s.collectors[i]? = some .requesting) : ∃ j w, Ready s j sem w := by
  have hlt : i < sem.cvar.waiters.length := by
    rw [h.manned]
    exact (List.getElem?_eq_some_iff.mp hi).1
  have hw : sem.cvar.waiters[i]? = some sem.cvar.waiters[i] := List.getElem?_eq_getElem hlt
  by_cases hasleep : sem.cvar.waiters[i] = .asleep
  · obtain ⟨j, hj⟩ := h.shared.noneLost.notified hfree ⟨i, hasleep ▸ hw⟩
    exact ⟨j, .notified, hsem, hfree, hj, nofun, h.waiting j ⟨.notified, hj, nofun⟩⟩
  · exact ⟨i, _, hsem, hfree, hw, hasleep, hi⟩

/-- Every collector has its turn again and again. -/
def GivesTurns (schedule : ℕ → SourceAction) : Prop :=
  ∀ i, Fair.Again schedule fun a => ∃ choice, a = .turn i choice

/-- The source after the first `n` actions. -/
abbrev SnmpSource.after (start : SnmpSource) (schedule : ℕ → SourceAction) (n : ℕ) : SnmpSource :=
  Fair.after SnmpSource.step start schedule n

/-- A request is admitted at some time from `n` on. -/
def AdmitsFrom (start : SnmpSource) (schedule : ℕ → SourceAction) (n : ℕ) : Prop :=
  ∃ m ≥ n, (start.after schedule m).Admits (start.after schedule (m + 1))

section Schedule
variable {start : SnmpSource} {schedule : ℕ → SourceAction} {n k : ℕ}

/-- What lasts until a request is admitted has one admitted when a collector's turn does. -/
theorem admitsFrom_of_held (held : SnmpSource → Prop) (i : Nat)
    (hkeep : ∀ s a, held s → held (s.step a) ∨ s.Admits (s.step a))
    (hturn : ∀ s choice, held s → s.Admits (s.step (.turn i choice))) (hfair : GivesTurns schedule)
    (h : held (start.after schedule n)) : AdmitsFrom start schedule n := by
  obtain ⟨m, hm, hadmits⟩ := Fair.leads held (fun s a => s.Admits (s.step a)) _ hkeep
    (fun s a hs ⟨choice, ha⟩ => ha ▸ hturn s choice hs) (hfair i) h
  exact ⟨m, hm, by rwa [SnmpSource.after, SnmpSource.after, Fair.after_succ]⟩

theorem admitsFrom_uncapped (hfair : GivesTurns schedule) (hnone : (start.after schedule n).limiter = none)
    (hi : (start.after schedule n).collectors[i]? = some .requesting) : AdmitsFrom start schedule n := by
  refine admitsFrom_of_held (fun s => s.limiter = none ∧ s.collectors[i]? = some .requesting) i
    (fun s a ⟨hnone, hi⟩ => ?_) (fun s choice ⟨hnone, hi⟩ => ?_) hfair ⟨hnone, hi⟩
  · exact ((goes s a).requesting hi).imp_left fun hi => ⟨(goes s a).uncapped hnone, hi⟩
  · have hentered : s.step (.turn i choice) = { s with collectors := s.set i .inBackend } := by
      simp only [SnmpSource.step, hi, SnmpSource.admitRequest, hnone]
    rw [hentered]
    exact admits_set _ hi

theorem Ready.admitsFrom {w : Waiter} (h : Ready (start.after schedule n) i sem w) (hfair : GivesTurns schedule) :
    AdmitsFrom start schedule n :=
  admitsFrom_of_held (fun s => ∃ sem, Ready s i sem w) i (fun s a ⟨_, hready⟩ => (goes s a).ready hready)
    (fun _ choice ⟨_, hready⟩ => hready.turn choice) hfair ⟨sem, h⟩

/-- A permit is free, and a collector asks for one. -/
def Asked (s : SnmpSource) (i : Nat) : Prop := Free s ∧ s.collectors[i]? = some .requesting

/-- With all permits taken, a request in the back end is answered, or one is admitted. -/
theorem asked_or_admitted (hfair : GivesTurns schedule) (hsem : (start.after schedule n).limiter = some sem)
    (hi : (start.after schedule n).collectors[i]? = some .requesting)
    (hk : (start.after schedule n).collectors[k]? = some .inBackend) :
    AdmitsFrom start schedule n ∨ ∃ m ≥ n, Asked (start.after schedule m) i := by
  let held (s : SnmpSource) : Prop := (∃ sem, s.limiter = some sem) ∧ s.collectors[i]? = some .requesting ∧
    s.collectors[k]? = some .inBackend
  have hkeep : ∀ s a, held s → held (s.step a) ∨ (s.Admits (s.step a) ∨ Asked (s.step a) i) := by
    intro s a ⟨⟨sem, hsem⟩, hi, hk⟩
    rcases (goes s a).requesting hi with hi' | hadmits
    · obtain ⟨hsem', hk' | hfree⟩ := (goes s a).inBackend hsem hk
      · exact .inl ⟨hsem', hi', hk'⟩
      · exact .inr (.inr ⟨hfree, hi'⟩)
    · exact .inr (.inl hadmits)
  have hturn : ∀ s a, held s → (∃ choice, a = .turn k choice) → s.Admits (s.step a) ∨ Asked (s.step a) i := by
    intro s a ⟨⟨sem, hsem⟩, hi, hk⟩ ⟨choice, ha⟩
    have hanswer : s.step (.turn k choice) = ⟨some (sem.release choice), s.set k .idle⟩ := by
      simp only [SnmpSource.step, hk, hsem, Option.map_some]
    rw [ha, hanswer]
    exact .inr ⟨⟨_, rfl, Nat.succ_pos _⟩, getElem?_set_of_ne hk hi nofun⟩
  obtain ⟨m, hm, hthen⟩ := Fair.leads held _ _ hkeep hturn (hfair k) ⟨⟨sem, hsem⟩, hi, hk⟩
  rw [← Fair.after_succ SnmpSource.step] at hthen
  exact hthen.imp (fun hadmits => ⟨m, hm, hadmits⟩) fun hasked => ⟨m + 1, hm.trans (Nat.le_succ m), hasked⟩

theorem SourceInv.admitsFrom_asked (h : SourceInv maxInflight (start.after schedule n)) (hfair : GivesTurns schedule)
    (hasked : Asked (start.after schedule n) i) : AdmitsFrom start schedule n := by
  obtain ⟨⟨sem, hsem, hpermit⟩, hi⟩ := hasked
  obtain ⟨j, w, hready⟩ := (h.capped sem hsem).exists_ready hsem hpermit hi
  exact hready.admitsFrom hfair

/-- **The cap never wedges the collectors**: while a request waits to be admitted, one is. -/
theorem admitsFrom_requesting (hstart : SourceInv maxInflight start) (hfair : GivesTurns schedule)
    (hi : (start.after schedule n).collectors[i]? = some .requesting) : AdmitsFrom start schedule n := by
  have hinv : ∀ m, SourceInv maxInflight (start.after schedule m) := fun m =>
    Runs.foldl_inv (SourceInv maxInflight) (fun _ a h => h.step a) _ hstart
  cases hsem : (start.after schedule n).limiter with
  | none => exact admitsFrom_uncapped hfair hsem hi
  | some sem =>
    by_cases hfree : 0 < sem.permits
    · exact (hinv n).admitsFrom_asked hfair ⟨⟨sem, hsem, hfree⟩, hi⟩
    · -- every permit is with a request in the back end
      have hconserved := ((hinv n).capped sem hsem).shared.conserved
      have hpos : maxInflight ≠ 0 := fun hzero => absurd (hsem.symm.trans ((hinv n).limited.mpr hzero)) nofun
      have hinflight : 0 < (start.after schedule n).inflight := by
        dsimp only at hconserved
        omega
      obtain ⟨collector, hmem, hcollector⟩ := List.countP_pos_iff.mp hinflight
      obtain ⟨k, hk⟩ := List.getElem?_of_mem hmem
      obtain rfl : collector = .inBackend := of_decide_eq_true hcollector
      rcases asked_or_admitted hfair hsem hi hk with hadmits | ⟨m, hm, hasked⟩
      · exact hadmits
      · obtain ⟨m', hm', hadmits⟩ := (hinv m).admitsFrom_asked hfair hasked
        exact ⟨m', hm.trans hm', hadmits⟩

end Schedule

end

/-- **No wake-up of the semaphore is lost**, whatever its threads do, and the collectors
that it caps go on being admitted when each of them is given its turns. -/
theorem no_wakeup_lost :
    (∀ (permits threads : Nat) (actions : List SemAction),
      NoneLost permits ((Shared.start permits threads).run actions)) ∧
    ∀ (maxInflight collectors : Nat) (schedule : ℕ → SourceAction), GivesTurns schedule → ∀ (n i : Nat),
      ((SnmpSource.new maxInflight collectors).after schedule n).collectors[i]? = some .requesting →
      AdmitsFrom (.new maxInflight collectors) schedule n :=
  ⟨Shared.noneLost_run, fun maxInflight collectors _ hfair _ _ hi =>
    admitsFrom_requesting (sourceInv_new maxInflight collectors) hfair hi⟩

end JaspyNexus.Snmp

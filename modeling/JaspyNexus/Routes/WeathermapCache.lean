import Mathlib
import JaspyNexus.Lib.Log
import JaspyNexus.Lib.Runs
import JaspyNexus.Routes.Weathermap

/-! # Reads of the cached topology

An operation that invalidates the cache after its last write cannot be followed by an
older topology: a rebuild that is under way holds the lock that the invalidation has to
take. `reads_fresh_iff` states what is left: an operation that returns without having
invalidated, and a rebuild that panics. -/

namespace JaspyNexus.Routes.Weathermap
open JaspyNexus.Lib JaspyNexus.Models

/-! ## What a read is computed from -/

/-- **A read that starts after an operation has returned** is computed from a read of the
database that starts after the operation's last write. -/
def ReadsFresh (log : List Event) : Prop :=
  ∀ (i j : Nat) op w readAt startedAt, log[i]? = some (.returned op (some w)) →
    log[j]? = some (.served readAt startedAt) → i < startedAt → ∃ r, readAt = some r ∧ w < r

/-- Whatever may be served from now on was read after that time. -/
structure FreshFor (sys : System) (w : Nat) : Prop where
  cached : ∀ cached, sys.cached = some cached → cached.validUntil ≠ 0 → w < cached.readAt
  building : ∀ i startedAt readAt rest,
    sys.threads i = .read (.build startedAt (some readAt) rest) → w < readAt

/-- So far, reads are fresh, and the cache is for the operations that have returned. -/
structure Current (sys : System) : Prop where
  reads : ReadsFresh sys.log
  sound : sys.poisoned = false
  fresh : ∀ (i : Nat) op w, sys.log[i]? = some (.returned op (some w)) → FreshFor sys w

/-- An operation that has not invalidated the cache since its last write returns only when
nothing that was read before is cached and valid or being read; no rebuild panics. -/
def Meets (sys : System) (turn : Turn) : Prop :=
  match sys.threads turn.thread with
  | .write _ (.run (some w) false (.done _)) => FreshFor sys w
  | .read (.build _ _ (.done none)) => False
  | _ => True

/-- Whatever its statements return, the program ends with the cache invalidated since its
last write. -/
def Covers : Bool → Prog Call Unit → Prop
  | clean, .done _ => clean = true
  | _, .call .invalidateWeathermap next => Covers true (next ())
  | clean, .call call next => ∀ out, Covers (clean && !wrote call out) (next out)

/-! ## What a step does -/

/-- What a step that is not made to wait changes, where its thread goes on, and what it
logs. -/
inductive Effect (sys : System) (turn : Turn) : System → Thread → Event → Prop
  | starts : sys.threads turn.thread = .read .start →
    Effect sys turn sys (.read (.lock sys.log.length)) .other
  | finds_poison {st} : sys.threads turn.thread = .read (.lock st) → sys.poisoned = true →
    Effect sys turn sys (.read .done) (.served none st)
  | hits {st cached} : sys.threads turn.thread = .read (.lock st) → sys.poisoned = false →
    sys.cached = some cached → turn.time < cached.validUntil →
    Effect sys turn sys (.read .done) (.served (some cached.readAt) st)
  | misses {st} : sys.threads turn.thread = .read (.lock st) → sys.poisoned = false → sys.cacheLock = none →
    Effect sys turn { sys with cacheLock := some turn.thread } (.read (.build st none getTopologyData)) .other
  | asks {st readAt rest rest'} : sys.threads turn.thread = .read (.build st readAt rest) →
    Effect sys turn sys (.read (.build st (readAt.or (some sys.log.length)) rest')) .other
  | stores {st readAt topology} : sys.threads turn.thread = .read (.build st readAt (.done (some topology))) →
    Effect sys turn
      { sys with
        cached := some ⟨turn.time + 30, topology, readAt.getD sys.log.length⟩
        cacheLock := none } (.read .done) (.served readAt st)
  | panics {st readAt} : sys.threads turn.thread = .read (.build st readAt (.done none)) →
    Effect sys turn { sys with cacheLock := none, poisoned := true } (.read .done) .other
  | executes {op written covered rest store rest'} :
    sys.threads turn.thread = .write op (.run written covered rest) →
    (∀ clean, Covers clean rest → Covers clean rest') →
    Effect sys turn { sys with store := store } (.write op (.run written covered rest')) .other
  | writes {op written covered rest store rest'} :
    sys.threads turn.thread = .write op (.run written covered rest) →
    (∀ clean, Covers clean rest → Covers false rest') →
    Effect sys turn { sys with store := store } (.write op (.run (some sys.log.length) false rest')) .other
  | takes {op written covered rest rest'} :
    sys.threads turn.thread = .write op (.run written covered rest) →
    (∀ clean, Covers clean rest → Covers true rest') →
    Effect sys turn { sys with controllerLock := some turn.thread } (.write op (.invalidate written rest')) .other
  | invalidates {op written rest} : sys.threads turn.thread = .write op (.invalidate written rest) →
    sys.cacheLock = none →
    Effect sys turn
      { sys with
        cached := if sys.poisoned then sys.cached
          else sys.cached.map fun (cached : Cached) => { cached with validUntil := 0 }
        controllerLock := none } (.write op (.run written true rest)) .other
  | returns {op written covered a} : sys.threads turn.thread = .write op (.run written covered (.done a)) →
    Effect sys turn sys (.write op .done) (.returned op written)

theorem readStep_effect {sys : System} {turn : Turn} {reading : Reading}
    (h : sys.threads turn.thread = .read reading) :
    sys.readStep turn.thread turn reading = sys ∨ ∃ base thread event,
      sys.readStep turn.thread turn reading = base.goOn turn.thread thread event ∧
      Effect sys turn base thread event := by
  cases reading with
  | start =>
    rw [System.readStep]
    split
    · exact .inl rfl
    · exact .inr ⟨_, _, _, rfl, .starts h⟩
  | lock startedAt =>
    rw [System.readStep]
    split
    · exact .inl rfl
    next hfree =>
    replace hfree : sys.cacheLock = none := by simpa using hfree
    split
    next hpoison => exact .inr ⟨_, _, _, rfl, .finds_poison h hpoison⟩
    next hsound =>
    replace hsound : sys.poisoned = false := by simpa using hsound
    split
    next cached hcached =>
      obtain ⟨hcached, htime⟩ := Option.filter_eq_some_iff.mp hcached
      exact .inr ⟨_, _, _, rfl, .hits h hsound hcached (of_decide_eq_true htime)⟩
    next => exact .inr ⟨_, _, _, rfl, .misses h hsound hfree⟩
  | build startedAt readAt rest =>
    match rest with
    | .call query next => exact .inr ⟨_, _, _, rfl, .asks h⟩
    | .done (some topology) => exact .inr ⟨_, _, _, rfl, .stores h⟩
    | .done none => exact .inr ⟨_, _, _, rfl, .panics h⟩
  | done => exact .inl rfl

theorem callStep_effect {sys : System} {turn : Turn} {op : Operation} {written : Option Nat} {covered : Bool}
    {β : Type} {call : Call β} {next : β → Prog Call Unit}
    (h : sys.threads turn.thread = .write op (.run written covered (.call call next))) :
    sys.callStep turn.thread turn op written covered call next = sys ∨ ∃ base thread event,
      sys.callStep turn.thread turn op written covered call next = base.goOn turn.thread thread event ∧
      Effect sys turn base thread event := by
  unfold System.callStep
  split
  next =>
    split
    · exact .inl rfl
    · exact .inr ⟨_, _, _, rfl, .takes h fun clean hcovers => hcovers⟩
  next hother =>
    have hnext : ∀ clean out, Covers clean (.call call next) → Covers (clean && !wrote call out) (next out) := by
      intro clean out hcovers
      cases call
      case invalidateWeathermap => exact (hother _ rfl .rfl .rfl).elim
      all_goals exact hcovers out
    refine .inr ⟨_, _, _, rfl, ?_⟩
    split
    next hwrote =>
      refine .writes h fun clean hcovers => ?_
      simpa [hwrote] using hnext clean (Call.exec _ call turn.answer sys.store).2 hcovers
    next hwrote =>
      refine .executes h fun clean hcovers => ?_
      simpa [hwrote] using hnext clean (Call.exec _ call turn.answer sys.store).2 hcovers

/-- **Every step** waits, or has one of these effects. -/
theorem step_effect (sys : System) (turn : Turn) : sys.step turn = sys ∨ ∃ base thread event,
    sys.step turn = base.goOn turn.thread thread event ∧ Effect sys turn base thread event := by
  unfold System.step
  split
  next reading h => exact readStep_effect h
  next op writing h =>
  match writing with
  | .run written covered (.call call next) => exact callStep_effect h
  | .run written covered (.done a) => exact .inr ⟨_, _, _, rfl, .returns h⟩
  | .invalidate written rest =>
    rw [System.writeStep]
    split
    · exact .inl rfl
    next hfree => exact .inr ⟨_, _, _, rfl, .invalidates h (by simpa using hfree)⟩
  | .done => exact .inl rfl

/-! ## Where threads are -/

section
variable {sys : System} {turn : Turn} {base : System} {i : Nat} {thread : Thread} {event : Event}

theorem goOn_at {j : Nat} {other : Thread} (h : (base.goOn i thread event).threads j = other) :
    j = i ∧ thread = other ∨ j ≠ i ∧ base.threads j = other := by
  by_cases hj : j = i
  · subst hj
    exact .inl ⟨rfl, by simpa [System.goOn] using h⟩
  · exact .inr ⟨hj, by simpa [System.goOn, hj] using h⟩

/-- What a step does not say about the threads and the log is left to `goOn`. -/
theorem Effect.keeps (h : Effect sys turn base thread event) :
    base.threads = sys.threads ∧ base.log = sys.log := by
  cases h <;> exact ⟨rfl, rfl⟩

theorem getTopologyData_asks {topology : Option WeathermapBase} : getTopologyData ≠ .done topology := nofun

end

/-! ## What always holds -/

/-- **What every step keeps**, whether or not reads are fresh. -/
structure Wf (sys : System) : Prop where
  locking : ∀ i startedAt, sys.threads i = .read (.lock startedAt) → startedAt ≤ sys.log.length
  building : ∀ i startedAt readAt rest, sys.threads i = .read (.build startedAt readAt rest) →
    startedAt ≤ sys.log.length ∧ sys.cacheLock = some i ∧ (readAt = none → rest = getTopologyData)
  served : ∀ (j : Nat) readAt startedAt, sys.log[j]? = some (.served readAt startedAt) → startedAt ≤ j
  running : ∀ i op w covered rest, sys.threads i = .write op (.run (some w) covered rest) →
    w < sys.log.length ∧ (covered = true → sys.poisoned = false → FreshFor sys w)
  invalidating : ∀ i op w rest, sys.threads i = .write op (.invalidate (some w) rest) → w < sys.log.length
  returned : ∀ (i : Nat) op w, sys.log[i]? = some (.returned op (some w)) → w < sys.log.length

theorem started_wf (store : Store) (tasks : Nat → Task) : Wf (System.started store tasks) := by
  have hstart : ∀ i, (System.started store tasks).threads i = .read .start ∨
      ∃ op, (System.started store tasks).threads i = .write op (.run none false op.prog) := by
    intro i
    simp only [System.started]
    split
    · exact .inl rfl
    · exact .inr ⟨_, rfl⟩
  refine ⟨fun i _ h => ?_, fun i _ _ _ h => ?_, fun _ _ _ h => absurd h (by simp [System.started]),
    fun i _ _ _ _ h => ?_, fun i _ _ _ h => ?_, fun _ _ _ h => absurd h (by simp [System.started])⟩
  all_goals
    rcases hstart i with hthread | ⟨op, hthread⟩ <;> rw [hthread] at h <;> cases h

/-! ## What stays fresh -/

section
variable {sys : System} {turn : Turn} {base : System} {thread : Thread} {event : Event} {w : Nat}

/-- **What is fresh stays fresh**: a rebuild reads the database after what is in the past. -/
theorem FreshFor.step (hfresh : FreshFor sys w) (hw : w < sys.log.length)
    (h : Effect sys turn base thread event) : FreshFor (base.goOn turn.thread thread event) w := by
  constructor
  · intro cached hcached hvalid
    replace hcached : base.cached = some cached := hcached
    cases h
    case stores st readAt topology hthread =>
      obtain rfl : _ = cached := Option.some.inj hcached
      cases readAt with
      | none => exact hw
      | some r => exact hfresh.building _ _ _ _ hthread
    case invalidates op written rest hthread hfree =>
      dsimp only at hcached
      split at hcached
      · exact hfresh.cached cached hcached hvalid
      · obtain ⟨old, hold, rfl⟩ := Option.map_eq_some_iff.mp hcached
        exact absurd rfl hvalid
    all_goals exact hfresh.cached cached hcached hvalid
  · intro j startedAt readAt rest hj
    rcases goOn_at hj with ⟨-, hthread⟩ | ⟨-, hj⟩
    · cases h
      case asks st old rest rest' hold =>
        injection hthread with hthread
        injection hthread with _ hread _
        cases old with
        | none => exact Option.some.inj hread ▸ hw
        | some r => exact Option.some.inj hread ▸ hfresh.building _ _ _ _ hold
      all_goals simp at hthread
    · rw [h.keeps.1] at hj
      exact hfresh.building j startedAt readAt rest hj

/-- An invalidation leaves nothing that was read before. -/
theorem invalidated_fresh {op : Operation} {written : Option Nat} {rest : Prog Call Unit} (hwf : Wf sys)
    (hsound : sys.poisoned = false) (hfree : sys.cacheLock = none) (cached : Option Cached)
    (hcached : cached = if sys.poisoned then sys.cached
      else sys.cached.map fun (cached : Cached) => { cached with validUntil := 0 }) :
    FreshFor (({ sys with cached := cached, controllerLock := none }).goOn turn.thread
      (.write op (.run written true rest)) .other) w := by
  constructor
  · intro found hfound hvalid
    replace hfound : cached = some found := hfound
    rw [hcached, hsound, if_neg Bool.false_ne_true] at hfound
    obtain ⟨old, hold, rfl⟩ := Option.map_eq_some_iff.mp hfound
    exact absurd rfl hvalid
  · intro j startedAt readAt asked hj
    rcases goOn_at hj with ⟨-, hthread⟩ | ⟨-, hj⟩
    · cases hthread
    · have hheld := (hwf.building j startedAt (some readAt) asked hj).2.1
      rw [hfree] at hheld
      cases hheld

/-! ## What every step keeps -/

theorem Wf.locking_step (hwf : Wf sys) (h : Effect sys turn base thread event) {j startedAt : Nat}
    (hj : (base.goOn turn.thread thread event).threads j = .read (.lock startedAt)) :
    startedAt ≤ sys.log.length := by
  rcases goOn_at hj with ⟨-, hthread⟩ | ⟨-, hj⟩
  · cases h
    case starts =>
      injection hthread with hthread
      injection hthread with hstarted
      exact hstarted.ge
    all_goals cases hthread
  · rw [h.keeps.1] at hj
    exact hwf.locking j startedAt hj

theorem Wf.building_step (hwf : Wf sys) (h : Effect sys turn base thread event) {j startedAt : Nat}
    {readAt : Option Nat} {rest : Prog Query (Option WeathermapBase)}
    (hj : (base.goOn turn.thread thread event).threads j = .read (.build startedAt readAt rest)) :
    startedAt ≤ sys.log.length ∧ base.cacheLock = some j ∧ (readAt = none → rest = getTopologyData) := by
  rcases goOn_at hj with ⟨rfl, hthread⟩ | ⟨hne, hj⟩
  · cases h
    case misses st hlock hsound hfree =>
      cases hthread
      exact ⟨hwf.locking _ _ hlock, rfl, fun _ => rfl⟩
    case asks st old rest rest' hold =>
      cases hthread
      obtain ⟨hstarted, hheld, -⟩ := hwf.building _ _ _ _ hold
      refine ⟨hstarted, hheld, fun hnone => ?_⟩
      cases old <;> cases hnone
    all_goals cases hthread
  · rw [h.keeps.1] at hj
    obtain ⟨hstarted, hheld, hasks⟩ := hwf.building _ _ _ _ hj
    refine ⟨hstarted, ?_, hasks⟩
    -- another thread's rebuild holds the lock, so this one neither takes nor releases it
    cases h
    case misses st hlock hsound hfree => rw [hfree] at hheld; cases hheld
    case stores st old topology hold =>
      exact absurd (Option.some.inj ((hwf.building _ _ _ _ hold).2.1.symm.trans hheld)).symm hne
    case panics st old hold =>
      exact absurd (Option.some.inj ((hwf.building _ _ _ _ hold).2.1.symm.trans hheld)).symm hne
    all_goals exact hheld

theorem Wf.served_step (hwf : Wf sys) (h : Effect sys turn base thread event) {j startedAt : Nat}
    {readAt : Option Nat}
    (hj : (base.goOn turn.thread thread event).log[j]? = some (.served readAt startedAt)) :
    startedAt ≤ j := by
  rcases Log.get_concat_iff.mp hj with hj | ⟨rfl, hevent⟩
  · rw [h.keeps.2] at hj
    exact hwf.served j readAt startedAt hj
  · rw [h.keeps.2]
    cases h
    case finds_poison st hlock hpoison => cases hevent; exact hwf.locking _ _ hlock
    case hits st cached hlock hsound hcached htime => cases hevent; exact hwf.locking _ _ hlock
    case stores st topology hold => cases hevent; exact (hwf.building _ _ _ _ hold).1
    all_goals cases hevent

/-- A step poisons the lock, or does not cure it. -/
theorem Effect.sound_before (h : Effect sys turn base thread event) (hsound : base.poisoned = false) :
    sys.poisoned = false := by
  cases h
  case panics => cases hsound
  all_goals exact hsound

theorem Wf.running_step (hwf : Wf sys) (h : Effect sys turn base thread event) {j : Nat} {op : Operation}
    {covered : Bool} {rest : Prog Call Unit}
    (hj : (base.goOn turn.thread thread event).threads j = .write op (.run (some w) covered rest)) :
    w ≤ sys.log.length ∧
    (covered = true → base.poisoned = false → FreshFor (base.goOn turn.thread thread event) w) := by
  rcases goOn_at hj with ⟨rfl, hthread⟩ | ⟨-, hj⟩
  · cases h
    case executes op written old rest store rest' hold hrest =>
      cases hthread
      obtain ⟨hw, hcovers⟩ := hwf.running _ _ _ _ _ hold
      exact ⟨hw.le, fun hcovered hsound => (hcovers hcovered hsound).step hw (.executes hold hrest)⟩
    case writes op written old rest store rest' hold hrest =>
      cases hthread
      exact ⟨le_rfl, fun hcovered => absurd hcovered Bool.false_ne_true⟩
    case invalidates op written rest hold hfree =>
      cases hthread
      exact ⟨(hwf.invalidating _ _ _ _ hold).le, fun _ hsound => invalidated_fresh hwf hsound hfree _ rfl⟩
    all_goals cases hthread
  · rw [h.keeps.1] at hj
    obtain ⟨hw, hcovers⟩ := hwf.running _ _ _ _ _ hj
    exact ⟨hw.le, fun hcovered hsound => (hcovers hcovered (h.sound_before hsound)).step hw h⟩

theorem Wf.invalidating_step (hwf : Wf sys) (h : Effect sys turn base thread event) {j : Nat} {op : Operation}
    {rest : Prog Call Unit}
    (hj : (base.goOn turn.thread thread event).threads j = .write op (.invalidate (some w) rest)) :
    w < sys.log.length := by
  rcases goOn_at hj with ⟨rfl, hthread⟩ | ⟨-, hj⟩
  · cases h
    case takes op written covered rest rest' hold hrest =>
      cases hthread
      exact (hwf.running _ _ _ _ _ hold).1
    all_goals cases hthread
  · rw [h.keeps.1] at hj
    exact hwf.invalidating _ _ _ _ hj

theorem Wf.returned_step (hwf : Wf sys) (h : Effect sys turn base thread event) {j : Nat} {op : Operation}
    (hj : (base.goOn turn.thread thread event).log[j]? = some (.returned op (some w))) :
    w < sys.log.length := by
  rcases Log.get_concat_iff.mp hj with hj | ⟨-, hevent⟩
  · rw [h.keeps.2] at hj
    exact hwf.returned j op w hj
  · cases h
    case returns op written covered a hold =>
      cases hevent
      exact (hwf.running _ _ _ _ _ hold).1
    all_goals cases hevent

theorem Wf.effect (hwf : Wf sys) (h : Effect sys turn base thread event) :
    Wf (base.goOn turn.thread thread event) := by
  have hlength : (base.goOn turn.thread thread event).log.length = sys.log.length + 1 := by
    simp [System.goOn, h.keeps.2]
  refine ⟨?_, ?_, ?_, ?_, ?_, ?_⟩
  · intro j startedAt hj
    rw [hlength]
    exact (hwf.locking_step h hj).trans (Nat.le_succ _)
  · intro j startedAt readAt rest hj
    obtain ⟨hstarted, hheld, hasks⟩ := hwf.building_step h hj
    exact ⟨hlength ▸ hstarted.trans (Nat.le_succ _), hheld, hasks⟩
  · intro j readAt startedAt hj
    exact hwf.served_step h hj
  · intro j op w covered rest hj
    obtain ⟨hw, hcovers⟩ := hwf.running_step h hj
    exact ⟨hlength ▸ Nat.lt_succ_of_le hw, hcovers⟩
  · intro j op w rest hj
    exact hlength ▸ (hwf.invalidating_step h hj).trans (Nat.lt_succ_self _)
  · intro j op w hj
    exact hlength ▸ (hwf.returned_step h hj).trans (Nat.lt_succ_self _)

theorem Wf.step (hwf : Wf sys) : Wf (sys.step turn) := by
  rcases step_effect sys turn with hwait | ⟨base, thread, event, hstep, h⟩
  · rwa [hwait]
  · rw [hstep]
    exact hwf.effect h

/-! ## Reads -/

theorem meets_iff : Meets sys turn ↔
    (∀ op w a, sys.threads turn.thread = .write op (.run (some w) false (.done a)) → FreshFor sys w) ∧
    ∀ startedAt readAt, sys.threads turn.thread ≠ .read (.build startedAt readAt (.done none)) := by
  unfold Meets
  split
  next op w a hthread => simp [hthread]
  next startedAt readAt hthread => simp [hthread]
  next hreturns hpanics =>
    refine iff_of_true trivial ⟨fun op w a hthread => ?_, fun startedAt readAt hthread => ?_⟩
    · exact (hreturns op w a hthread).elim
    · exact (hpanics startedAt readAt hthread).elim

/-- A topology that is served was read after whatever has been written by what returned. -/
theorem Current.served (hwf : Wf sys) (hcurrent : Current sys) (h : Effect sys turn base thread event)
    {readAt : Option Nat} {startedAt : Nat} (hevent : event = .served readAt startedAt) {i : Nat} {op : Operation}
    (hi : sys.log[i]? = some (.returned op (some w))) : ∃ r, readAt = some r ∧ w < r := by
  have hfresh := hcurrent.fresh i op w hi
  cases h
  case finds_poison st hlock hpoison => exact absurd (hcurrent.sound.symm.trans hpoison) Bool.false_ne_true
  case hits st cached hlock hsound hcached htime =>
    cases hevent
    exact ⟨cached.readAt, rfl, hfresh.cached cached hcached (Nat.ne_of_gt (Nat.zero_lt_of_lt htime))⟩
  case stores st topology hold =>
    cases hevent
    cases readAt with
    | none => exact (getTopologyData_asks ((hwf.building _ _ _ _ hold).2.2 rfl).symm).elim
    | some r => exact ⟨r, rfl, hfresh.building _ _ _ _ hold⟩
  all_goals cases hevent

theorem Current.effect (hwf : Wf sys) (hcurrent : Current sys) (hmeets : Meets sys turn)
    (h : Effect sys turn base thread event) : Current (base.goOn turn.thread thread event) := by
  obtain ⟨hreturns, hpanics⟩ := meets_iff.mp hmeets
  refine ⟨?_, ?_, ?_⟩
  · intro i j op w readAt startedAt hi hj hafter
    have hbefore := hwf.served_step h hj
    rcases Log.get_concat_iff.mp hi with hi | ⟨rfl, hreturned⟩
    · rw [h.keeps.2] at hi
      rcases Log.get_concat_iff.mp hj with hj | ⟨-, hserved⟩
      · rw [h.keeps.2] at hj
        exact hcurrent.reads i j op w readAt startedAt hi hj hafter
      · exact hcurrent.served hwf h hserved hi
    · -- what is served was logged before the operation returned, or is this very event
      rcases Log.get_concat_iff.mp hj with hj | ⟨-, hserved⟩
      · have := Log.lt_length hj
        omega
      · rw [hreturned] at hserved
        cases hserved
  · cases h
    case panics st readAt hold => exact absurd hold (hpanics _ _)
    all_goals exact hcurrent.sound
  · intro i op w hi
    rcases Log.get_concat_iff.mp hi with hi | ⟨rfl, hreturned⟩
    · rw [h.keeps.2] at hi
      exact (hcurrent.fresh i op w hi).step (hwf.returned i op w hi) h
    · have hfresh : ∀ covered a, sys.threads turn.thread = .write op (.run (some w) covered (.done a)) →
          FreshFor sys w ∧ w < sys.log.length := by
        intro covered a hthread
        obtain ⟨hw, hcovers⟩ := hwf.running _ _ _ _ _ hthread
        cases covered with
        | false => exact ⟨hreturns op w a hthread, hw⟩
        | true => exact ⟨hcovers rfl hcurrent.sound, hw⟩
      cases h
      case returns op written covered a hold =>
        cases hreturned
        obtain ⟨hfresh, hw⟩ := hfresh covered a hold
        exact hfresh.step hw (.returns hold)
      all_goals cases hreturned

/-- An operation that returns was the last thing that could have made the cache stale. -/
theorem Current.meets (hcurrent : Current (sys.step turn)) : Meets sys turn := by
  refine meets_iff.mpr ⟨fun op w a hthread => ?_, fun startedAt readAt hthread => ?_⟩
  · have hstep : sys.step turn = sys.goOn turn.thread (.write op .done) (.returned op (some w)) := by
      simp only [System.step, hthread, System.writeStep]
    rw [hstep] at hcurrent
    have hfresh := hcurrent.fresh sys.log.length op w (Log.get_concat_iff.mpr (.inr ⟨rfl, rfl⟩))
    refine ⟨hfresh.cached, fun j startedAt readAt rest hj => hfresh.building j startedAt readAt rest ?_⟩
    have hne : j ≠ turn.thread := by
      rintro rfl
      rw [hthread] at hj
      cases hj
    simpa [System.goOn, hne] using hj
  · have hstep : (sys.step turn).poisoned = true := by
      simp only [System.step, hthread, System.readStep, System.goOn]
    exact Bool.false_ne_true (hcurrent.sound.symm.trans hstep)

/-- **A step keeps reads fresh exactly when it meets the condition.** -/
theorem current_step_iff (hwf : Wf sys) (hcurrent : Current sys) : Current (sys.step turn) ↔ Meets sys turn := by
  refine ⟨Current.meets, fun hmeets => ?_⟩
  rcases step_effect sys turn with hwait | ⟨base, thread, event, hstep, h⟩
  · rwa [hwait]
  · rw [hstep]
    exact hcurrent.effect hwf hmeets h

theorem started_current (store : Store) (tasks : Nat → Task) : Current (System.started store tasks) where
  reads i _ _ _ _ _ h := absurd h (by simp [System.started])
  sound := rfl
  fresh i _ _ h := absurd h (by simp [System.started])

end

/-- **Reads are fresh** throughout a run, no rebuild panics and the cache is for what has
returned, exactly when every operation that has not invalidated the cache since its last
write returns while nothing older is cached or being read, and no rebuild panics. -/
theorem reads_fresh_iff (store : Store) (tasks : Nat → Task) (turns : List Turn) :
    Runs.Allowed System.step Meets (System.started store tasks) turns ↔
      ∀ pre, pre <+: turns → Current (pre.foldl System.step (System.started store tasks)) :=
  Runs.allowed_iff Current Wf (fun _ _ hwf => hwf.step) (fun _ _ hwf hcurrent => current_step_iff hwf hcurrent)
    (started_wf store tasks) (started_current store tasks)

/-! ## Operations that invalidate the cache -/

/-- A program that leaves `post` of what it returns, and of whether the cache has been
invalidated since its last write. -/
def Leaves {α : Type} (post : Bool → α → Prop) : Bool → Prog Call α → Prop
  | clean, .done a => post clean a
  | _, .call .invalidateWeathermap next => Leaves post true (next ())
  | clean, .call call next => ∀ out, Leaves post (clean && !wrote call out) (next out)

section
variable {α β : Type} {post : Bool → α → Prop} {clean : Bool}

theorem Leaves.bind {post' : Bool → β → Prop} {p : Prog Call α} {f : α → Prog Call β} (hp : Leaves post clean p)
    (hf : ∀ clean a, post clean a → Leaves post' clean (f a)) : Leaves post' clean (p.bind f) := by
  induction p generalizing clean with
  | done a => exact hf clean a hp
  | call call next ih =>
    cases call
    case invalidateWeathermap => exact ih () hp
    all_goals exact fun out => ih out (hp out)

theorem leaves_true (p : Prog Call α) : Leaves (fun _ _ => True) clean p := by
  induction p generalizing clean with
  | done a => trivial
  | call call next ih =>
    cases call
    case invalidateWeathermap => exact ih ()
    all_goals exact fun out => ih out

/-- Whatever the program does, the cache is invalidated after it. -/
theorem leaves_invalidate (p : Prog Call Unit) :
    Leaves (fun clean _ => clean = true) clean (p.bind fun _ => .lift .invalidateWeathermap) :=
  (leaves_true p).bind fun _ _ _ => rfl

theorem leaves_ignored {p : Prog Call α} (h : Leaves (fun clean _ => clean = true) clean p) :
    Leaves (fun clean _ => clean = true) clean (p.bind fun _ => .done ()) :=
  h.bind fun _ _ hclean => hclean

theorem covers_of_leaves {p : Prog Call Unit} (h : Leaves (fun clean _ => clean = true) clean p) :
    Covers clean p := by
  induction p generalizing clean with
  | done a => exact h
  | call call next ih =>
    cases call
    case invalidateWeathermap => exact ih () h
    all_goals exact fun out => ih out (h out)

end

theorem publish_leaves {c : Prop} [Decidable c] {event : DeviceEvent} :
    Leaves (fun clean _ => clean = true) true (if c then .done () else .lift (.publish event)) := by
  split
  · rfl
  · exact fun _ => rfl

/-- A device row that is not left behind was not written. -/
theorem ingestDeviceRow_leaves (discovered : Utilities.Discovery.DiscoveredDevice) :
    Leaves (fun clean device => device = none → clean = true) true
      (Utilities.Discovery.ingestDeviceRow discovered) := by
  intro found
  cases found with
  | none => exact fun _ created hnone => by simp [hnone, wrote]
  | some existing =>
    show Leaves _ true (Prog.bind (ite _ _ _) _)
    refine publish_leaves.bind fun clean _ hclean => ?_
    subst hclean
    refine publish_leaves.bind fun clean _ hclean => ?_
    subst hclean
    intro ok hnone
    cases ok with
    | true => cases hnone
    | false => rfl

theorem ingestDevice_leaves (discovered : Utilities.Discovery.DiscoveredDevice) :
    Leaves (fun clean _ => clean = true) true (Utilities.Discovery.ingestDevice discovered) := by
  refine (ingestDeviceRow_leaves discovered).bind fun clean device hclean => ?_
  cases device with
  | none => exact hclean rfl
  | some device =>
    intro current
    show Leaves _ _ (Prog.bind (Prog.each _ _) _)
    exact (leaves_true _).bind fun _ _ _ => leaves_invalidate _

theorem ingestLinks_leaves (links : Utilities.Discovery.LinkInfo) :
    Leaves (fun clean _ => clean = true) true (Utilities.Discovery.ingestLinks links) := by
  unfold Utilities.Discovery.ingestLinks
  split
  · rfl
  · intro found
    cases found with
    | none => rfl
    | some device => exact fun rows => leaves_invalidate _

theorem create_leaves (new : NewDevice) : Leaves (fun clean _ => clean = true) true (Routes.create new) := by
  intro created
  cases created with
  | none => rfl
  | some device => exact fun _ => rfl

theorem deviceCreate_leaves (submitted : NewDevice) :
    Leaves (fun clean _ => clean = true) true (Routes.deviceCreate submitted) := by
  unfold Routes.deviceCreate
  split
  · rfl
  · intro found
    cases found with
    | some device => rfl
    | none =>
      intro created
      cases created with
      | none => rfl
      | some device => exact fun _ => rfl

/-- All but the operation that clears connections and the one that deletes a device. -/
def Operation.invalidates : Operation → Bool
  | .clearDeviceConnection _ | .deviceDelete _ => false
  | _ => true

theorem Operation.covers {op : Operation} (h : op.invalidates = true) : Covers true op.prog := by
  apply covers_of_leaves
  cases op with
  | ingestDevice discovered => exact ingestDevice_leaves discovered
  | ingestLinks links => exact ingestLinks_leaves links
  | clearDeviceConnection fqdn => cases h
  | create new => exact leaves_ignored (create_leaves new)
  | deviceCreate submitted =>
    have hleaves := deviceCreate_leaves submitted
    rw [Operation.prog]
    -- the handler itself no longer matters
    generalize Routes.deviceCreate submitted = handler at hleaves ⊢
    exact leaves_ignored hleaves
  | deviceDelete fqdn => cases h

/-- What is left of every operation invalidates the cache after its last write. -/
structure Covering (sys : System) : Prop where
  running : ∀ i op written covered rest, sys.threads i = .write op (.run written covered rest) →
    Covers (written.isNone || covered) rest
  invalidating : ∀ i op written rest, sys.threads i = .write op (.invalidate written rest) → Covers true rest

section
variable {sys : System} {turn : Turn} {base : System} {thread : Thread} {event : Event}

theorem Covering.running_step (hcovering : Covering sys) (h : Effect sys turn base thread event) {j : Nat}
    {op : Operation} {written : Option Nat} {covered : Bool} {rest : Prog Call Unit}
    (hj : (base.goOn turn.thread thread event).threads j = .write op (.run written covered rest)) :
    Covers (written.isNone || covered) rest := by
  rcases goOn_at hj with ⟨rfl, hthread⟩ | ⟨-, hj⟩
  · cases h
    case executes op written old rest store rest' hold hrest =>
      cases hthread
      exact hrest _ (hcovering.running _ _ _ _ _ hold)
    case writes op written old rest store rest' hold hrest =>
      cases hthread
      exact hrest _ (hcovering.running _ _ _ _ _ hold)
    case invalidates op written rest hold hfree =>
      cases hthread
      rw [Bool.or_true]
      exact hcovering.invalidating _ _ _ _ hold
    all_goals cases hthread
  · rw [h.keeps.1] at hj
    exact hcovering.running _ _ _ _ _ hj

theorem Covering.step (hcovering : Covering sys) : Covering (sys.step turn) := by
  rcases step_effect sys turn with hwait | ⟨base, thread, event, hstep, h⟩
  · rwa [hwait]
  rw [hstep]
  refine ⟨fun j op written covered rest hj => hcovering.running_step h hj, fun j op written rest hj => ?_⟩
  rcases goOn_at hj with ⟨rfl, hthread⟩ | ⟨-, hj⟩
  · cases h
    case takes op written covered rest rest' hold hrest =>
      cases hthread
      exact hrest _ (hcovering.running _ _ _ _ _ hold)
    all_goals cases hthread
  · rw [h.keeps.1] at hj
    exact hcovering.invalidating _ _ _ _ hj

/-- The condition comes down to its rebuilds. -/
theorem Covering.meets (hcovering : Covering sys)
    (hpanics : ∀ startedAt readAt, sys.threads turn.thread ≠ .read (.build startedAt readAt (.done none))) :
    Meets sys turn := by
  refine meets_iff.mpr ⟨fun op w a hthread => ?_, hpanics⟩
  exact absurd (hcovering.running _ _ _ _ _ hthread) Bool.false_ne_true

end

/-- **Ingests and creations** leave reads fresh in any order of steps, unless a rebuild
panics. -/
theorem reads_fresh_of_invalidates (store : Store) (tasks : Nat → Task)
    (htasks : ∀ i op, tasks i = .operate op → op.invalidates = true) (turns : List Turn)
    (hpanics : Runs.Allowed System.step (fun sys turn => ∀ startedAt readAt,
      sys.threads turn.thread ≠ .read (.build startedAt readAt (.done none))) (System.started store tasks) turns) :
    ReadsFresh (turns.foldl System.step (System.started store tasks)).log := by
  have hcovering : Covering (System.started store tasks) := by
    refine ⟨fun i op written covered rest hi => ?_, fun i op written rest hi => ?_⟩
    · simp only [System.started] at hi
      split at hi
      · cases hi
      next op' htask => cases hi; exact Operation.covers (htasks i _ htask)
    · simp only [System.started] at hi
      split at hi <;> cases hi
  have hrun := Runs.run_inv (fun sys => Covering sys ∧ Wf sys ∧ Current sys)
    (fun sys turn ⟨hcovering, hwf, hcurrent⟩ hpanics =>
      ⟨hcovering.step, hwf.step, (current_step_iff hwf hcurrent).mpr (hcovering.meets hpanics)⟩)
    ⟨hcovering, started_wf store tasks, started_current store tasks⟩ hpanics
  exact hrun.2.2.reads

/-! ## A topology that stays -/

/-- The last write of an operation that returns. -/
def Event.lastWrite : Event → Option Nat
  | .returned _ written => written
  | _ => none

/-- What a read is computed from, and when it started. -/
def Event.reading : Event → Option (Option Nat × Nat)
  | .served readAt startedAt => some (readAt, startedAt)
  | _ => none

theorem ReadsFresh.reading {log : List Event} (h : ReadsFresh log) {w r : Nat} (i j startedAt : Nat)
    (hi : (log[i]?).bind Event.lastWrite = some w)
    (hj : (log[j]?).bind Event.reading = some (some r, startedAt)) (hafter : i < startedAt) : w < r := by
  obtain ⟨returned, hi, hw⟩ := Option.bind_eq_some_iff.mp hi
  obtain ⟨served, hj, hr⟩ := Option.bind_eq_some_iff.mp hj
  cases returned <;> cases hw
  cases served <;> cases hr
  obtain ⟨r', hr', hlate⟩ := h i j _ w (some r) startedAt hi hj hafter
  exact Option.some.inj hr' ▸ hlate

/-- **An older topology is served**: the first read fills the cache, the link between the
two devices is cleared without the cache being invalidated, and the read that starts after
that finds the topology with the link. -/
theorem cleared_link_served :
    let tasks : Nat → Task := fun i => if i = 1 then .operate (.clearDeviceConnection "a.lan") else .read
    let turn : Nat → Turn := fun i => ⟨i, ⟨true, fun _ => 0⟩, 100⟩
    let turns := List.replicate 9 (turn 0) ++ List.replicate 6 (turn 1) ++ List.replicate 2 (turn 2)
    ¬ ReadsFresh (turns.foldl System.step
      (System.started (Utilities.Discovery.threeSwitches (some 2) none none) tasks)).log := by
  intro tasks turn turns hfresh
  have hlate : 13 < 2 :=
    hfresh.reading 14 16 15 (by decide +kernel) (by decide +kernel) (by decide)
  exact absurd hlate (by decide)

end JaspyNexus.Routes.Weathermap

import Mathlib
import JaspyNexus.Lib.Runs
import JaspyNexus.Snmp.Adapt

/-! # Cached sessions

`with_session` and `run_on_cached_session` of `snmp/embedded.rs`, for one destination and
the one thread whose cache is looked at. Other threads share the device's state, so a
sample may be recorded between any two steps. A session that was opened to a dead device
makes no retries, and outlives the answer that brings the device back
(`fast_fail_session_stays`); requests are served as configured in a run where no such
session is at hand when an answer does (`requests_served`). -/

namespace JaspyNexus.Snmp.Embedded
open JaspyNexus.Lib

/-- `SnmpSession`: what a socket was opened with. -/
structure SnmpSession where
  openedTimeoutMs : Nat
  retries : Nat
  deriving DecidableEq, Repr

/-- A session, and the state that the call which opened it had read. -/
structure Opened where
  session : SnmpSession
  found : DeviceState
  deriving DecidableEq, Repr

/-- `SnmpSession::open` with the parameters that a call has read. -/
def openSession (configured : Nat) (found : DeviceState) : Opened where
  session := ⟨(found.openParams configured).1, (found.openParams configured).2⟩
  found := found

/-- Where a call is: before it has a session, or using the cached one, or using the clean
one that it opened after the cached one was found desynchronized. -/
inductive Phase where
  | opening
  | cached
  | fresh (opened : Opened)
  deriving DecidableEq, Repr

/-- A call: the state whose parameters it has read, and where it is. -/
structure Session.Call where
  found : DeviceState
  phase : Phase
  deriving DecidableEq, Repr

/-- A request, when it is issued. -/
structure Request where
  dead : Bool
  found : DeviceState
  opened : Opened
  deriving DecidableEq, Repr

structure Client where
  latency : DeviceState
  cache : Option Opened
  call : Option Session.Call
  issued : List Request
  deriving DecidableEq, Repr

/-- How the use of a session ends. -/
inductive Ending where
  | done
  | failed
  /-- a request id did not match; `opens` is whether a clean session can be opened -/
  | desynced (opens : Bool)
  deriving DecidableEq, Repr

inductive Event where
  /-- any thread records the outcome of a request -/
  | record (sample : Sample)
  /-- a call starts, and reads the parameters -/
  | start
  /-- the call looks for a cached session, and opens one if it needs to -/
  | ensure (opens : Bool)
  /-- the call issues a request -/
  | issue
  | finish (ending : Ending)
  deriving DecidableEq, Repr

namespace Client
variable (cfg : AdaptCfg) (configured : Nat) (s : Client)

/-- The session that the call uses. -/
def inUse (call : Session.Call) : Option Opened :=
  match call.phase with
  | .opening => none
  | .cached => s.cache
  | .fresh opened => some opened

/-- The cached session, unless the effective timeout has grown past its own. -/
def kept (found : DeviceState) : Option Opened :=
  s.cache.filter fun opened => ¬opened.session.openedTimeoutMs < found.effectiveMs

def ensureSession (found : DeviceState) (opens : Bool) : Client :=
  match s.kept found with
  | some opened => { s with cache := some opened, call := some ⟨found, .cached⟩ }
  | none =>
    if opens then { s with cache := some (openSession configured found), call := some ⟨found, .cached⟩ }
    else { s with cache := none, call := none }

/-- The end of the first use of a session: it stays only when all went well. -/
def finishCached (found : DeviceState) : Ending → Client
  | .done => { s with call := none }
  | .failed => { s with cache := none, call := none }
  | .desynced opens =>
    if opens then { s with cache := none, call := some ⟨found, .fresh (openSession configured found)⟩ }
    else { s with cache := none, call := none }

/-- The end of the second use. -/
def finishFresh (opened : Opened) : Ending → Client
  | .done => { s with cache := some opened, call := none }
  | _ => { s with call := none }

def step : Event → Client
  | .record sample => { s with latency := adapt cfg s.latency sample }
  | .start =>
    match s.call with
    | none => { s with call := some ⟨s.latency, .opening⟩ }
    | some _ => s
  | .ensure opens =>
    match s.call with
    | some ⟨found, .opening⟩ => s.ensureSession configured found opens
    | _ => s
  | .issue =>
    match s.call with
    | some call =>
      match s.inUse call with
      | some opened => { s with issued := ⟨s.latency.dead, call.found, opened⟩ :: s.issued }
      | none => s
    | none => s
  | .finish ending =>
    match s.call with
    | some ⟨found, .cached⟩ => s.finishCached configured found ending
    | some ⟨_, .fresh opened⟩ => s.finishFresh opened ending
    | _ => s

end Client

/-! ## The law -/

/-- A request to a device that is not marked dead has at least the timeout that its call
has read, and the retries that are configured. -/
def Request.Served (configured : Nat) (r : Request) : Prop :=
  r.dead = false → r.found.effectiveMs ≤ r.opened.session.openedTimeoutMs ∧ r.opened.session.retries = configured

instance (configured : Nat) (r : Request) : Decidable (r.Served configured) :=
  inferInstanceAs (Decidable (r.dead = false → _))

/-- The device was alive for all that is at hand: the cached session, and the call's
parameters and session. -/
structure Client.HoldsAlive (s : Client) : Prop where
  cached : ∀ opened, s.cache = some opened → opened.found.dead = false
  call : ∀ call, s.call = some call → call.found.dead = false
  using_ : ∀ call, s.call = some call → ∀ opened, s.inUse call = some opened → opened.found.dead = false

/-- **The condition**: when an answer brings the device back, nothing is at hand that was read
or opened while it was dead. Without retries there is nothing to lose. -/
def RevivedClean (cfg : AdaptCfg) (configured : Nat) (s : Client) (event : Event) : Prop :=
  match event with
  | .record sample => s.latency.dead = true → (adapt cfg s.latency sample).dead = false →
    configured = 0 ∨ s.HoldsAlive
  | _ => True

/-- Every session has the parameters that its own call has read, and a timeout that is
enough for the call that uses it. -/
structure Wf (configured : Nat) (s : Client) : Prop where
  cached : ∀ opened, s.cache = some opened → opened = openSession configured opened.found
  using_ : ∀ call, s.call = some call → ∀ opened, s.inUse call = some opened →
    opened = openSession configured opened.found ∧ call.found.effectiveMs ≤ opened.session.openedTimeoutMs
  issued : ∀ r ∈ s.issued, r.opened = openSession configured r.opened.found ∧
    r.found.effectiveMs ≤ r.opened.session.openedTimeoutMs

section
variable {cfg : AdaptCfg} {configured : Nat} {s : Client}

theorem wf_start (latency : DeviceState) : Wf configured ⟨latency, none, none, []⟩ where
  cached := fun _ h => nomatch h
  using_ := fun _ h => nomatch h
  issued := fun _ h => nomatch h

/-- A call that is over leaves a session that was there, or the one it used, or none. -/
theorem Wf.idle (h : Wf configured s) {cache : Option Opened}
    (hcache : ∀ opened, cache = some opened → opened = openSession configured opened.found) :
    Wf configured { s with cache := cache, call := none } where
  cached := hcache
  using_ := fun _ hcall => nomatch hcall
  issued := h.issued

theorem Wf.ensureSession (h : Wf configured s) (found : DeviceState) (opens : Bool) :
    Wf configured (s.ensureSession configured found opens) := by
  unfold Client.ensureSession
  split
  next opened hkept =>
    obtain ⟨hcache, hgrown⟩ := Option.filter_eq_some_iff.mp hkept
    refine ⟨fun other hother => ?_, fun call hcall other hother => ?_, h.issued⟩
    · cases hother
      exact h.cached opened hcache
    · cases hcall
      cases hother
      exact ⟨h.cached opened hcache, by simpa using hgrown⟩
  next =>
    split
    · refine ⟨fun other hother => ?_, fun call hcall other hother => ?_, h.issued⟩
      · cases hother
        rfl
      · cases hcall
        cases hother
        exact ⟨rfl, le_rfl⟩
    · exact h.idle fun _ hnone => nomatch hnone

theorem Wf.finishCached (h : Wf configured s) (found : DeviceState) (ending : Ending) :
    Wf configured (s.finishCached configured found ending) := by
  unfold Client.finishCached
  split
  · exact h.idle h.cached
  · exact h.idle fun _ hnone => nomatch hnone
  · split
    · refine ⟨fun _ hnone => (nomatch hnone), fun call hcall other hother => ?_, h.issued⟩
      cases hcall
      cases hother
      exact ⟨rfl, le_rfl⟩
    · exact h.idle fun _ hnone => nomatch hnone

theorem Wf.finishFresh (h : Wf configured s) {opened : Opened} (hopened : opened = openSession configured opened.found)
    (ending : Ending) : Wf configured (s.finishFresh opened ending) := by
  unfold Client.finishFresh
  split
  · refine h.idle fun other hother => ?_
    cases hother
    exact hopened
  · exact h.idle h.cached

theorem Wf.step (h : Wf configured s) (event : Event) : Wf configured (s.step cfg configured event) := by
  unfold Client.step
  split
  · exact ⟨h.cached, h.using_, h.issued⟩
  · split
    · refine ⟨h.cached, fun call hcall other hother => ?_, h.issued⟩
      cases hcall
      cases hother
    · exact h
  · split
    · exact h.ensureSession _ _
    · exact h
  · split
    next call hcall =>
      split
      next opened hopened =>
        refine ⟨h.cached, h.using_, fun r hr => ?_⟩
        rcases List.mem_cons.mp hr with rfl | hr
        · exact h.using_ call hcall opened hopened
        · exact h.issued r hr
      · exact h
    · exact h
  · split
    · exact h.finishCached _ _
    next found opened hcall => exact h.finishFresh (h.using_ _ hcall opened rfl).1 _
    · exact h

/-! ## Recovery -/

/-- While the device is alive, so it was for all that is at hand. -/
def Recovered (configured : Nat) (s : Client) : Prop :=
  s.latency.dead = true ∨ configured = 0 ∨ s.HoldsAlive

theorem holdsAlive_start (latency : DeviceState) : Client.HoldsAlive ⟨latency, none, none, []⟩ where
  cached := fun _ h => nomatch h
  call := fun _ h => nomatch h
  using_ := fun _ h => nomatch h

/-- Between calls only the cached session is at hand. -/
theorem holdsAlive_idle {cache : Option Opened} (h : ∀ opened, cache = some opened → opened.found.dead = false) :
    Client.HoldsAlive { s with cache := cache, call := none } where
  cached := h
  call := fun _ hcall => nomatch hcall
  using_ := fun _ hcall => nomatch hcall

theorem Client.HoldsAlive.ensureSession (h : s.HoldsAlive) {found : DeviceState} (hfound : found.dead = false)
    (opens : Bool) : (s.ensureSession configured found opens).HoldsAlive := by
  unfold Client.ensureSession
  split
  next opened hkept =>
    have halive := h.cached opened (Option.filter_eq_some_iff.mp hkept).1
    refine ⟨fun other hother => ?_, fun call hcall => ?_, fun call hcall other hother => ?_⟩
    · cases hother
      exact halive
    · cases hcall
      exact hfound
    · cases hcall
      cases hother
      exact halive
  next =>
    split
    · refine ⟨fun other hother => ?_, fun call hcall => ?_, fun call hcall other hother => ?_⟩
      · cases hother
        exact hfound
      · cases hcall
        exact hfound
      · cases hcall
        cases hother
        exact hfound
    · exact holdsAlive_idle fun _ hnone => nomatch hnone

theorem Client.HoldsAlive.finishCached (h : s.HoldsAlive) {found : DeviceState} (hfound : found.dead = false)
    (ending : Ending) : (s.finishCached configured found ending).HoldsAlive := by
  unfold Client.finishCached
  split
  · exact holdsAlive_idle h.cached
  · exact holdsAlive_idle fun _ hnone => nomatch hnone
  · split
    · refine ⟨fun _ hnone => (nomatch hnone), fun call hcall => ?_, fun call hcall other hother => ?_⟩
      · cases hcall
        exact hfound
      · cases hcall
        cases hother
        exact hfound
    · exact holdsAlive_idle fun _ hnone => nomatch hnone

theorem Client.HoldsAlive.finishFresh (h : s.HoldsAlive) {opened : Opened} (hopened : opened.found.dead = false)
    (ending : Ending) : (s.finishFresh opened ending).HoldsAlive := by
  unfold Client.finishFresh
  split
  · refine holdsAlive_idle fun other hother => ?_
    cases hother
    exact hopened
  · exact holdsAlive_idle h.cached

/-- A step other than a sample leaves the device's state, and hands on what is at hand. -/
theorem Client.HoldsAlive.step (h : s.HoldsAlive) (halive : s.latency.dead = false) (event : Event) :
    (s.step cfg configured event).HoldsAlive := by
  unfold Client.step
  split
  · exact ⟨h.cached, h.call, h.using_⟩
  · split
    · refine ⟨h.cached, fun call hcall => ?_, fun call hcall other hother => ?_⟩
      · cases hcall
        exact halive
      · cases hcall
        cases hother
    · exact h
  · split
    next found hcall => exact h.ensureSession (h.call _ hcall) _
    · exact h
  · split
    · split
      · exact ⟨h.cached, h.call, h.using_⟩
      · exact h
    · exact h
  · split
    next found hcall => exact h.finishCached (h.call _ hcall) _
    next found opened hcall => exact h.finishFresh (h.using_ _ hcall opened rfl) _
    · exact h

/-- Only a sample changes whether the device is dead. -/
theorem latency_step {event : Event} :
    (s.step cfg configured event).latency = (match event with
      | .record sample => adapt cfg s.latency sample
      | _ => s.latency) := by
  cases event with
  | record sample => rfl
  | start =>
    dsimp only [Client.step]
    split <;> rfl
  | ensure opens =>
    dsimp only [Client.step, Client.ensureSession]
    split
    · split
      · rfl
      · split <;> rfl
    · rfl
  | issue =>
    dsimp only [Client.step]
    split
    · split <;> rfl
    · rfl
  | finish ending =>
    dsimp only [Client.step, Client.finishCached, Client.finishFresh]
    split
    · split
      · rfl
      · rfl
      · split <;> rfl
    · split <;> rfl
    · rfl

theorem Recovered.step (h : Recovered configured s) {event : Event} (hok : RevivedClean cfg configured s event) :
    Recovered configured (s.step cfg configured event) := by
  cases hdead : s.latency.dead with
  | false =>
    rcases h with h | h | h
    · rw [hdead] at h
      cases h
    · exact .inr (.inl h)
    · exact .inr (.inr (h.step hdead event))
  | true =>
    cases event with
    | record sample =>
      cases hnow : (adapt cfg s.latency sample).dead with
      | true => exact .inl hnow
      | false =>
        rcases hok hdead hnow with h | h
        · exact .inr (.inl h)
        · exact .inr (.inr ⟨h.cached, h.call, h.using_⟩)
    | _ => exact .inl (by rw [latency_step]; exact hdead)

theorem openSession_retries (found : DeviceState) :
    (openSession configured found).session.retries = if found.dead then 0 else configured := rfl

/-- A request is one of those before, or the one that is issued now. -/
theorem mem_issued_step {event : Event} {r : Request} (h : r ∈ (s.step cfg configured event).issued) :
    r ∈ s.issued ∨ ∃ call opened, s.call = some call ∧ s.inUse call = some opened ∧
      r = ⟨s.latency.dead, call.found, opened⟩ := by
  cases event with
  | record sample => exact .inl h
  | start =>
    dsimp only [Client.step] at h
    split at h <;> exact .inl h
  | ensure opens =>
    dsimp only [Client.step, Client.ensureSession] at h
    split at h
    · split at h
      · exact .inl h
      · split at h <;> exact .inl h
    · exact .inl h
  | issue =>
    dsimp only [Client.step] at h
    split at h
    next call hcall =>
      split at h
      next opened hopened =>
        rcases List.mem_cons.mp h with rfl | h
        · exact .inr ⟨call, opened, hcall, hopened, rfl⟩
        · exact .inl h
      next => exact .inl h
    next => exact .inl h
  | finish ending =>
    dsimp only [Client.step, Client.finishCached, Client.finishFresh] at h
    split at h
    · split at h
      · exact .inl h
      · exact .inl h
      · split at h <;> exact .inl h
    · split at h <;> exact .inl h
    · exact .inl h

/-- A request on what is at hand is served, when the device was alive for that. -/
theorem served_of_recovered (hwf : Wf configured s) (h : Recovered configured s) {call : Session.Call}
    {opened : Opened} (hcall : s.call = some call) (huse : s.inUse call = some opened) :
    Request.Served configured ⟨s.latency.dead, call.found, opened⟩ := by
  intro (halive : s.latency.dead = false)
  obtain ⟨hopened, htimeout⟩ := hwf.using_ call hcall opened huse
  refine ⟨htimeout, ?_⟩
  rw [hopened, openSession_retries]
  rcases h with h | h | h
  · rw [halive] at h
    cases h
  · simp [h]
  · simp [h.using_ call hcall opened huse]

/-- What the condition is for: on a session left over from before the recovery, the next
request is not served. -/
theorem not_served_of_leftover (hwf : Wf configured s) (hconfigured : configured ≠ 0) {call : Session.Call}
    {opened : Opened} (hcall : s.call = some call) (huse : s.inUse call = some opened)
    (halive : s.latency.dead = false) (hleft : opened.found.dead = true) :
    ∃ r ∈ (s.step cfg configured .issue).issued, ¬r.Served configured := by
  have hissue : s.step cfg configured .issue =
      { s with issued := ⟨s.latency.dead, call.found, opened⟩ :: s.issued } := by
    simp [Client.step, hcall, huse]
  refine ⟨⟨s.latency.dead, call.found, opened⟩, by rw [hissue]; exact List.mem_cons_self, fun hserved => ?_⟩
  have hretries := (hserved halive).2
  dsimp only at hretries
  rw [(hwf.using_ call hcall opened huse).1, openSession_retries, hleft, if_pos rfl] at hretries
  exact hconfigured hretries.symm

end

def Client.run (cfg : AdaptCfg) (configured : Nat) (latency : DeviceState) (events : List Event) : Client :=
  events.foldl (Client.step cfg configured) ⟨latency, none, none, []⟩

/-- **The requests of a run** are served as configured when no answer brings the device back
while something is at hand that was read or opened when it was dead. -/
theorem requests_served (cfg : AdaptCfg) (configured : Nat) (latency : DeviceState) (events : List Event)
    (hok : Runs.Allowed (Client.step cfg configured) (RevivedClean cfg configured) ⟨latency, none, none, []⟩ events) :
    ∀ r ∈ (Client.run cfg configured latency events).issued, r.Served configured := by
  refine (Runs.run_inv (fun s => Wf configured s ∧ Recovered configured s ∧ ∀ r ∈ s.issued, r.Served configured)
    (fun s event h hevent => ?_) ⟨wf_start latency, .inr (.inr (holdsAlive_start latency)), fun _ h => by cases h⟩ hok).2.2
  obtain ⟨hwf, hrecovered, hserved⟩ := h
  refine ⟨hwf.step event, hrecovered.step hevent, fun r hr => ?_⟩
  rcases mem_issued_step hr with hr | ⟨call, opened, hcall, huse, rfl⟩
  · exact hserved r hr
  · exact served_of_recovered hwf hrecovered hcall huse

/-- The session to the dead device times out and is dropped before another thread's answer
brings the device back. -/
def dropped : List Event :=
  [.start, .ensure true, .issue, .record .timeout, .finish .failed, .record (.ok 10), .start, .ensure true, .issue]

theorem requests_served_dropped :
    ∃ r ∈ (Client.run .default 2 { DeviceState.new 2000 with dead := true, timeoutsAtMax := 3 } dropped).issued,
      r.dead = false ∧ r.Served 2 := by
  have halive : ∃ r ∈ (Client.run .default 2 { DeviceState.new 2000 with dead := true, timeoutsAtMax := 3 } dropped).issued,
      r.dead = false := by decide +kernel
  obtain ⟨r, hr, hdead⟩ := halive
  refine ⟨r, hr, hdead, requests_served _ _ _ dropped ⟨trivial, trivial, trivial, fun _ hnow => ?_, trivial,
    fun _ _ => .inr ?_, trivial, trivial, trivial, trivial⟩ r hr⟩
  · exact absurd hnow (by decide +kernel)
  · exact holdsAlive_idle (s := (Client.run .default 2 { DeviceState.new 2000 with dead := true, timeoutsAtMax := 3 }
      [.start, .ensure true, .issue, .record .timeout])) fun _ h => by cases h

/-- A session is opened to a dead device, which answers, fast, and then answers again. -/
def comeback : List Event :=
  [.start, .ensure true, .issue, .record (.ok 10), .finish .done, .start, .ensure true, .issue]

/-- **A recovered device without retries**: the second call finds the device alive and uses
the session of the first. -/
theorem fast_fail_session_stays :
    let client := Client.run .default 2 { DeviceState.new 2000 with dead := true, timeoutsAtMax := 3 } comeback
    client.latency.dead = false ∧ ∃ r ∈ client.issued, r.dead = false ∧ r.found.dead = false ∧
      r.opened.session.retries = 0 ∧ ¬ r.Served 2 := by
  decide +kernel

end JaspyNexus.Snmp.Embedded

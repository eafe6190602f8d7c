import Mathlib
import JaspyNexus.Lib.Paths
import JaspyNexus.Lib.Runs
import JaspyNexus.Collectors.DiscoveryControl

/-! # The lanes of discovery

Handlers and supervisor take their steps in any order, and what is seen of them is logged.
The log of the full crawl follows a protocol (`Lane`): nothing runs, or a request waits, or
a crawl runs. -/

namespace JaspyNexus.Collectors.Discovery
open JaspyNexus.Lib

/-- What is seen of a step. -/
inductive Entry where
  /-- a full run is answered 202, under this configuration -/
  | accepted (overrides : Option DiscoveryRunRequest) (config : DiscoveryConfig)
  /-- `next_run_params` starts a run -/
  | started (trigger : Trigger) (overrides : Option DiscoveryRunRequest) (run : FullRun)
  /-- `next_run_params` finds the configuration incomplete, and records the error -/
  | refused (trigger : Trigger) (overrides : Option DiscoveryRunRequest) (config : DiscoveryConfig)
      (lastError : Option String)
  /-- the end of a run is published -/
  | ended
  /-- a single-device run is answered 202 -/
  | queued (single : DiscoveryRunRequest)
  /-- its worker is spawned -/
  | dispatched (single : DiscoveryRunRequest)

/-! ## The protocol -/

/-- The run is the one that the request asks for. -/
structure FullRun.Honours (run : FullRun) (overrides : Option DiscoveryRunRequest) : Prop where
  root : ∀ root, overrides.bind DiscoveryRunRequest.rootDevice = some root → run.params.rootDevice = root
  community : ∀ community, overrides.bind DiscoveryRunRequest.community = some community → run.community = community
  domains : ∀ domains, overrides.bind DiscoveryRunRequest.dnsDomains = some domains → run.params.dnsDomains = domains
  stable : ∀ stable, overrides.bind DiscoveryRunRequest.topologyStable = some stable → run.topologyStable = stable

inductive Lane where
  | idle
  | waiting (overrides : Option DiscoveryRunRequest)
  | crawling
  deriving DecidableEq, Repr

/-- **The full crawl**: a request is accepted when nothing runs or waits; it is started as
it was asked for, or refused for want of a configuration; and a crawl ends before anything
else is accepted or started. -/
inductive Lane.Step : Lane → Entry → Lane → Prop
  | accept {overrides config} : complete overrides config = true →
    Step .idle (.accepted overrides config) (.waiting overrides)
  | manual {overrides run} : run.Honours overrides →
    Step (.waiting overrides) (.started .manual overrides run) .crawling
  | manualRefused {overrides config} : complete overrides config = false →
    Step (.waiting overrides) (.refused .manual overrides config (some notConfigured)) .idle
  | periodic {run} : Step .idle (.started .periodic none run) .crawling
  | periodicRefused {config} : Step .idle (.refused .periodic none config (some notConfigured)) .idle
  | finish : Step .crawling .ended .idle
  | queued {lane single} : Step lane (.queued single) lane
  | dispatched {lane single} : Step lane (.dispatched single) lane

section
variable {lane lane' : Lane} {log : List Entry}

/-- A lane that crawls ends the crawl before it does anything else. -/
theorem Lane.ended_of_path (h : Path Lane.Step .crawling log lane) (hlane : lane ≠ .crawling) : .ended ∈ log := by
  obtain ⟨xs, entry, ys, m, m', rfl, rfl, hm', hstep, -⟩ := h.exit (· = .crawling) rfl hlane
  cases hstep with
  | finish => simp
  | queued => exact absurd rfl hm'
  | dispatched => exact absurd rfl hm'

/-- Between two starts a crawl ends. -/
theorem Lane.ended_between {mid post : List Entry} {t t' : Trigger} {o o' : Option DiscoveryRunRequest} {run run' : FullRun}
    (h : Path Lane.Step lane (.started t o run :: (mid ++ .started t' o' run' :: post)) lane') : .ended ∈ mid := by
  obtain ⟨next, hstart, hrest⟩ := h.of_cons
  obtain ⟨before, hmid, hagain⟩ := hrest.of_append
  obtain ⟨after, hstart', -⟩ := hagain.of_cons
  have hnext : next = .crawling := by cases hstart <;> rfl
  subst hnext
  refine Lane.ended_of_path hmid ?_
  rintro rfl
  cases hstart'

/-- Between two requests that are accepted, the first is started and its crawl ends, or it
is refused. -/
theorem Lane.over_between {mid post : List Entry} {o o' : Option DiscoveryRunRequest} {config config' : DiscoveryConfig}
    (h : Path Lane.Step lane (.accepted o config :: (mid ++ .accepted o' config' :: post)) lane') :
    (∃ xs run ys, mid = xs ++ .started .manual o run :: ys ∧ .ended ∈ ys) ∨
      ∃ config error, .refused .manual o config error ∈ mid := by
  obtain ⟨next, haccept, hrest⟩ := h.of_cons
  obtain ⟨before, hmid, hagain⟩ := hrest.of_append
  obtain ⟨after, haccept', -⟩ := hagain.of_cons
  cases haccept
  cases haccept'
  obtain ⟨xs, entry, ys, m, m', rfl, rfl, hm', hstep, hys⟩ := hmid.exit (· = .waiting o) rfl nofun
  cases hstep with
  | manual => exact .inl ⟨xs, _, ys, rfl, Lane.ended_of_path hys nofun⟩
  | manualRefused => exact .inr ⟨_, _, List.mem_append_right _ List.mem_cons_self⟩
  | queued => exact absurd rfl hm'
  | dispatched => exact absurd rfl hm'

/-- What the protocol says of a label that it reads. -/
theorem Lane.step_of_mem (h : Path Lane.Step lane log lane') {entry : Entry} (hentry : entry ∈ log) :
    ∃ m m', Lane.Step m entry m' := by
  obtain ⟨xs, ys, rfl⟩ := List.append_of_mem hentry
  obtain ⟨m, -, hys⟩ := h.of_append
  obtain ⟨m', hstep, -⟩ := hys.of_cons
  exact ⟨m, m', hstep⟩

end

/-- The full runs that are accepted, and those that a call of `next_run_params` consumes. -/
def Entry.acceptance : Entry → Option (Option DiscoveryRunRequest)
  | .accepted overrides _ => some overrides
  | _ => none

def Entry.consumption : Entry → Option (Option DiscoveryRunRequest)
  | .started .manual overrides _ => some overrides
  | .refused .manual overrides _ _ => some overrides
  | _ => none

def Lane.pending : Lane → List (Option DiscoveryRunRequest)
  | .waiting overrides => [overrides]
  | _ => []

/-- What is accepted is consumed once, in order, or is still waiting. -/
theorem Lane.consumed_of_path {lane lane' : Lane} {log : List Entry} (h : Path Lane.Step lane log lane') :
    lane.pending ++ log.filterMap Entry.acceptance = log.filterMap Entry.consumption ++ lane'.pending := by
  induction h with
  | nil => simp
  | cons hstep _ ih =>
    cases hstep <;> simpa [List.filterMap_cons, Entry.acceptance, Entry.consumption, Lane.pending] using ih

def Entry.queuing : Entry → Option DiscoveryRunRequest
  | .queued single => some single
  | _ => none

def Entry.dispatch : Entry → Option DiscoveryRunRequest
  | .dispatched single => some single
  | _ => none

/-! ## The handlers and the supervisor -/

/-- Where the supervisor is in its loop. -/
inductive Turn where
  | asleep
  /-- the jobs that are drained and have no worker yet -/
  | dispatching (jobs : List (DiscoveryRunRequest × SingleDeviceConfig))
  | crawling (run : FullRun)
  /-- the crawl has returned, and its end is not published yet -/
  | finished (result : RunResult)

structure System where
  control : DiscoveryControl
  turn : Turn
  log : List Entry

inductive Action where
  /-- `POST /discovery/run` -/
  | post (request : Option DiscoveryRunRequest)
  /-- `PUT /discovery/config` -/
  | put (config : DiscoveryConfig) (persisted : Bool)
  | drain
  | dispatch
  | next (now : Rat)
  | crawled (result : RunResult)
  | publish (now : Rat)

/-- What is seen of a request that is answered 202. -/
def postEntry (config : DiscoveryConfig) (request : Option DiscoveryRunRequest) : Entry :=
  match isSingle request, request with
  | true, some single => .queued single
  | _, overrides => .accepted overrides config

/-- What is seen of a call of `next_run_params` that acts on a trigger. -/
def nextEntry (trigger : Trigger × Option DiscoveryRunRequest) (config : DiscoveryConfig)
    (out : DiscoveryControl × Option FullRun) : Entry :=
  match out.2 with
  | some run => .started trigger.1 trigger.2 run
  | none => .refused trigger.1 trigger.2 config out.1.status.lastError

namespace System
variable (skipDns : Bool) (s : System)

def post (request : Option DiscoveryRunRequest) : System :=
  let out := s.control.discoveryRun request
  { s with
    control := out.1
    log := if out.2.isAccepted then s.log ++ [postEntry s.control.config request] else s.log }

def put (config : DiscoveryConfig) (persisted : Bool) : System :=
  { s with control := s.control.putConfig config persisted }

def drain : System :=
  match s.turn with
  | .asleep => { s with control := s.control.drain.1, turn := .dispatching s.control.drain.2 }
  | _ => s

def dispatch : System :=
  match s.turn with
  | .dispatching (job :: jobs) => { s with turn := .dispatching jobs, log := s.log ++ [.dispatched job.1] }
  | _ => s

def next (now : Rat) : System :=
  match s.turn with
  | .dispatching [] =>
    let out := s.control.nextRunParams skipDns now
    { control := out.1
      turn := out.2.elim .asleep .crawling
      log := s.log ++ ((s.control.trigger now).map fun trigger => nextEntry trigger s.control.config out).toList }
  | _ => s

def crawled (result : RunResult) : System :=
  match s.turn with
  | .crawling _ => { s with turn := .finished result }
  | _ => s

def publish (now : Rat) : System :=
  match s.turn with
  | .finished result => { control := s.control.publish now result, turn := .asleep, log := s.log ++ [.ended] }
  | _ => s

/-- A step of a handler or of the supervisor, which is in its loop where the step is. -/
def step : Action → System
  | .post request => s.post request
  | .put config persisted => s.put config persisted
  | .drain => s.drain
  | .dispatch => s.dispatch
  | .next now => s.next skipDns now
  | .crawled result => s.crawled result
  | .publish now => s.publish now

def start (config : DiscoveryConfig) : System := ⟨.new config, .asleep, []⟩

def run (config : DiscoveryConfig) (actions : List Action) : System := actions.foldl (step skipDns) (start config)

/-- The lane as the flags have it. -/
def lane : Lane :=
  if s.control.status.running then .crawling
  else if s.control.triggerRequested then .waiting s.control.triggerOverrides
  else .idle

/-- The jobs in hand. -/
def jobs : List (DiscoveryRunRequest × SingleDeviceConfig) :=
  match s.turn with
  | .dispatching jobs => jobs
  | _ => []

/-- A crawl runs, or its end is not published yet. -/
def busy : Bool :=
  match s.turn with
  | .crawling _ | .finished _ => true
  | _ => false

end System

/-! ## What a step does -/

namespace DiscoveryControl
variable {control : DiscoveryControl} {request : Option DiscoveryRunRequest}

/-- **What a request does**: it is queued, or it sets the trigger that nothing has set, or
it is turned down. -/
theorem discoveryRun_cases (control : DiscoveryControl) (request : Option DiscoveryRunRequest) :
    (∃ single, postEntry control.config request = .queued single ∧
      control.discoveryRun request =
        ({ control with singleDeviceQueue := control.singleDeviceQueue ++ [single] }, .accepted control.status)) ∨
    (postEntry control.config request = .accepted request control.config ∧ isSingle request = false ∧
      control.status.running = false ∧ control.triggerRequested = false ∧ complete request control.config = true ∧
      control.discoveryRun request =
        ({ control with triggerRequested := true, triggerOverrides := request }, .accepted control.status)) ∨
    ((control.discoveryRun request).1 = control ∧ (control.discoveryRun request).2.isAccepted = false) := by
  cases hsingle : isSingle request with
  | true =>
    cases request with
    | none => cases hsingle
    | some single =>
      unfold discoveryRun postEntry
      simp only [hsingle]
      split
      · exact .inl ⟨single, rfl, rfl⟩
      · exact .inr (.inr ⟨rfl, rfl⟩)
  | false =>
    have hpost : postEntry control.config request = .accepted request control.config := by
      unfold postEntry
      rw [hsingle]
    unfold discoveryRun
    simp only [hsingle]
    split
    · exact .inr (.inr ⟨rfl, rfl⟩)
    next hfree =>
      obtain ⟨hrunning, htrigger⟩ : control.status.running = false ∧ control.triggerRequested = false := by
        simpa using hfree
      split
      next hcomplete => exact .inr (.inl ⟨hpost, trivial, hrunning, htrigger, hcomplete, rfl⟩)
      next => exact .inr (.inr ⟨rfl, rfl⟩)

/-- **How a run begins**: as it was asked for, or not at all. -/
theorem begin_cases (control : DiscoveryControl) (skipDns : Bool) (now : Rat) (trigger : Trigger)
    (overrides : Option DiscoveryRunRequest) :
    (∃ run status, run.Honours overrides ∧ status.running = true ∧
      control.begin skipDns now trigger overrides = ({ control with status := status }, some run)) ∨
    (complete overrides control.config = false ∧ control.begin skipDns now trigger overrides =
      ({ control with status := { control.status with lastError := some notConfigured } }, none)) := by
  unfold begin
  split
  next root community hroot hcommunity =>
    refine .inl ⟨_, _, ⟨fun r hr => ?_, fun c hc => ?_, fun d hd => ?_, fun t ht => ?_⟩, rfl, rfl⟩
    · rw [rootDevice, hr, Option.some_or] at hroot
      exact (Option.some.inj hroot).symm
    · rw [Discovery.community, hc, Option.some_or] at hcommunity
      exact (Option.some.inj hcommunity).symm
    · simp [hd]
    · simp [ht]
  next hnone =>
    refine .inr ⟨?_, rfl⟩
    cases hroot : rootDevice overrides control.config with
    | none => simp [complete, hroot]
    | some root =>
      cases hcommunity : Discovery.community overrides control.config with
      | none => simp [complete, hcommunity]
      | some community => exact absurd hcommunity (hnone root community hroot)

section
variable (control : DiscoveryControl)

@[simp] theorem triggerRequested_takeTrigger : control.takeTrigger.triggerRequested = false := by
  unfold takeTrigger
  split
  · rfl
  next h => exact Bool.eq_false_of_not_eq_true h

@[simp] theorem config_takeTrigger : control.takeTrigger.config = control.config := by
  unfold takeTrigger
  split <;> rfl

@[simp] theorem status_takeTrigger : control.takeTrigger.status = control.status := by
  unfold takeTrigger
  split <;> rfl

@[simp] theorem singleDeviceQueue_takeTrigger : control.takeTrigger.singleDeviceQueue = control.singleDeviceQueue := by
  unfold takeTrigger
  split <;> rfl

/-- A trigger is the one that a request has set, or else the periodic one. -/
theorem trigger_cases {now : Rat} {trigger : Trigger} {overrides : Option DiscoveryRunRequest}
    (h : control.trigger now = some (trigger, overrides)) :
    (trigger = .manual ∧ control.triggerRequested = true ∧ overrides = control.triggerOverrides) ∨
      (trigger = .periodic ∧ control.triggerRequested = false ∧ overrides = none) := by
  unfold DiscoveryControl.trigger at h
  split at h
  next hrequested =>
    cases h
    exact .inl ⟨rfl, hrequested, rfl⟩
  next hrequested =>
    split at h
    · cases h
      exact .inr ⟨rfl, Bool.eq_false_of_not_eq_true hrequested, rfl⟩
    · cases h

end

end DiscoveryControl

/-! ## The invariant -/

/-- The flags say where the log is in the protocol, and where the supervisor is in its
loop; no request waits while a crawl runs; and every single-device request is dispatched,
in hand or queued. -/
structure System.Inv (s : System) : Prop where
  path : Path Lane.Step .idle s.log s.lane
  busy : s.control.status.running = s.busy
  free : s.control.status.running = true → s.control.triggerRequested = false
  singles : s.log.filterMap Entry.queuing =
    s.log.filterMap Entry.dispatch ++ s.jobs.map Prod.fst ++ s.control.singleDeviceQueue

namespace System
variable {skipDns : Bool} {s : System}

theorem inv_start (config : DiscoveryConfig) : (start config).Inv where
  path := .nil _
  busy := rfl
  free := nofun
  singles := rfl

/-- An entry of the full crawl leaves the single-device runs accounted for. -/
theorem Inv.quiet (h : s.Inv) (entry : Entry) (hqueuing : entry.queuing = none) (hdispatch : entry.dispatch = none) :
    (s.log ++ [entry]).filterMap Entry.queuing =
      (s.log ++ [entry]).filterMap Entry.dispatch ++ s.jobs.map Prod.fst ++ s.control.singleDeviceQueue := by
  rw [List.filterMap_append, List.filterMap_append, List.filterMap_cons_none hqueuing,
    List.filterMap_cons_none hdispatch, List.filterMap_nil, List.filterMap_nil, List.append_nil, List.append_nil]
  exact h.singles

theorem Inv.post (h : s.Inv) (request : Option DiscoveryRunRequest) : (s.post request).Inv := by
  unfold System.post
  rcases s.control.discoveryRun_cases request with
    ⟨single, hentry, hout⟩ | ⟨hentry, -, hrunning, htrigger, hcomplete, hout⟩ | ⟨hsame, hdenied⟩
  · simp only [hout, hentry, Response.isAccepted, if_true]
    refine ⟨h.path.append (.single .queued), h.busy, h.free, ?_⟩
    have hsingles := h.singles
    simp only [System.jobs] at hsingles ⊢
    simp [List.filterMap_cons, Entry.queuing, Entry.dispatch, hsingles]
  · simp only [hout, hentry, Response.isAccepted, if_true]
    have hlane : s.lane = .idle := by simp [lane, hrunning, htrigger]
    refine ⟨?_, h.busy, fun hnow => ?_, ?_⟩
    · have hpath := h.path
      rw [hlane] at hpath
      have hnext : lane ⟨{ s.control with triggerRequested := true, triggerOverrides := request }, s.turn,
          s.log ++ [.accepted request s.control.config]⟩ = .waiting request := by
        simp [lane, hrunning]
      rw [hnext]
      exact hpath.append (.single (.accept hcomplete))
    · rw [hrunning] at hnow
      cases hnow
    · exact h.quiet _ rfl rfl
  · simp only [hsame, hdenied]
    exact h

theorem Inv.put (h : s.Inv) (config : DiscoveryConfig) (persisted : Bool) :
    (s.put config persisted).Inv := by
  unfold System.put DiscoveryControl.putConfig
  split
  · exact ⟨h.path, h.busy, h.free, h.singles⟩
  · exact h

theorem Inv.drain (h : s.Inv) : s.drain.Inv := by
  unfold System.drain
  split
  next hturn =>
    refine ⟨h.path, ?_, h.free, ?_⟩
    · have hbusy := h.busy
      simpa [System.busy, hturn, DiscoveryControl.drain] using hbusy
    · have hsingles := h.singles
      simp only [System.jobs, hturn] at hsingles
      simpa [System.jobs, DiscoveryControl.drain, Function.comp_def] using hsingles
  · exact h

theorem Inv.dispatch (h : s.Inv) : s.dispatch.Inv := by
  unfold System.dispatch
  split
  next job jobs hturn =>
    refine ⟨h.path.append (.single .dispatched), ?_, h.free, ?_⟩
    · have hbusy := h.busy
      simpa [System.busy, hturn] using hbusy
    · have hsingles := h.singles
      simp only [System.jobs, hturn] at hsingles
      simp [System.jobs, List.filterMap_cons, Entry.queuing, Entry.dispatch, hsingles]
  · exact h

theorem Inv.crawled (h : s.Inv) (result : RunResult) : (s.crawled result).Inv := by
  unfold System.crawled
  split
  next run hturn =>
    refine ⟨h.path, ?_, h.free, ?_⟩
    · have hbusy := h.busy
      simpa [System.busy, hturn] using hbusy
    · have hsingles := h.singles
      simpa [System.jobs, hturn] using hsingles
  · exact h

theorem Inv.publish (h : s.Inv) (now : Rat) : (s.publish now).Inv := by
  unfold System.publish
  split
  next result hturn =>
    have hrunning : s.control.status.running = true := by
      rw [h.busy]
      simp [System.busy, hturn]
    have hfree := h.free hrunning
    have hlane : s.lane = .crawling := by simp [lane, hrunning]
    refine ⟨?_, rfl, nofun, ?_⟩
    · have hpath := h.path
      rw [hlane] at hpath
      have hnext : lane ⟨s.control.publish now result, .asleep, s.log ++ [.ended]⟩ = .idle := by
        simp [lane, DiscoveryControl.publish, hfree]
      rw [hnext]
      exact hpath.append (.single .finish)
    · have hquiet := h.quiet .ended rfl rfl
      rwa [System.jobs, hturn] at hquiet
  · exact h

/-- What `next_run_params` does with a trigger is the protocol's next step. -/
theorem step_started {now : Rat} {trigger : Trigger} {overrides : Option DiscoveryRunRequest} {run : FullRun}
    (hidle : s.control.status.running = false) (h : s.control.trigger now = some (trigger, overrides))
    (hrun : run.Honours overrides) : Lane.Step s.lane (.started trigger overrides run) .crawling := by
  rcases s.control.trigger_cases h with ⟨rfl, hrequested, rfl⟩ | ⟨rfl, hrequested, rfl⟩
  · have hlane : s.lane = .waiting s.control.triggerOverrides := by simp [lane, hidle, hrequested]
    rw [hlane]
    exact .manual hrun
  · have hlane : s.lane = .idle := by simp [lane, hidle, hrequested]
    rw [hlane]
    exact .periodic

theorem step_refused {now : Rat} {trigger : Trigger} {overrides : Option DiscoveryRunRequest} {config : DiscoveryConfig}
    (hidle : s.control.status.running = false) (h : s.control.trigger now = some (trigger, overrides))
    (hincomplete : complete overrides config = false) :
    Lane.Step s.lane (.refused trigger overrides config (some notConfigured)) .idle := by
  rcases s.control.trigger_cases h with ⟨rfl, hrequested, rfl⟩ | ⟨rfl, hrequested, rfl⟩
  · have hlane : s.lane = .waiting s.control.triggerOverrides := by simp [lane, hidle, hrequested]
    rw [hlane]
    exact .manualRefused hincomplete
  · have hlane : s.lane = .idle := by simp [lane, hidle, hrequested]
    rw [hlane]
    exact .periodicRefused

theorem Inv.next (h : s.Inv) (now : Rat) : (s.next skipDns now).Inv := by
  unfold System.next
  split
  next hturn =>
    have hrunning : s.control.status.running = false := by
      rw [h.busy]
      simp [System.busy, hturn]
    have hjobs : s.jobs = [] := by rw [System.jobs, hturn]
    unfold DiscoveryControl.nextRunParams
    cases htrigger : s.control.trigger now with
    | none =>
      refine ⟨?_, hrunning, h.free, ?_⟩
      · simpa [lane] using h.path
      · have hsingles := h.singles
        rw [hjobs] at hsingles
        simpa [System.jobs] using hsingles
    | some trigger =>
      obtain ⟨trigger, overrides⟩ := trigger
      rcases s.control.takeTrigger.begin_cases skipDns now trigger overrides with
        ⟨run, status, hrun, hstatus, hout⟩ | ⟨hincomplete, hout⟩
      · simp only [hout, nextEntry, Option.map_some, Option.toList_some, Option.elim_some]
        refine ⟨?_, hstatus, fun _ => s.control.triggerRequested_takeTrigger, ?_⟩
        · have hlane : lane ⟨{ s.control.takeTrigger with status := status }, .crawling run,
              s.log ++ [.started trigger overrides run]⟩ = .crawling := by
            simp [lane, hstatus]
          rw [hlane]
          exact h.path.append (.single (step_started hrunning htrigger hrun))
        · have hquiet := h.quiet (.started trigger overrides run) rfl rfl
          rwa [hjobs, ← s.control.singleDeviceQueue_takeTrigger] at hquiet
      · simp only [hout, nextEntry, Option.map_some, Option.toList_some, Option.elim_none]
        have hidle : s.control.takeTrigger.status.running = false := by simpa using hrunning
        refine ⟨?_, hidle, fun hnow => ?_, ?_⟩
        · have hlane : lane ⟨{ s.control.takeTrigger with
              status := { s.control.takeTrigger.status with lastError := some notConfigured } }, .asleep,
              s.log ++ [.refused trigger overrides s.control.config (some notConfigured)]⟩ = .idle := by
            simp [lane, hrunning]
          rw [hlane]
          rw [DiscoveryControl.config_takeTrigger] at hincomplete
          exact h.path.append (.single (step_refused hrunning htrigger hincomplete))
        · rw [hidle] at hnow
          cases hnow
        · have hquiet := h.quiet (.refused trigger overrides s.control.config (some notConfigured))
            rfl rfl
          rwa [hjobs, ← s.control.singleDeviceQueue_takeTrigger] at hquiet
  · exact h

theorem Inv.step (h : s.Inv) (action : Action) : (s.step skipDns action).Inv := by
  cases action with
  | post request => exact h.post request
  | put config persisted => exact h.put config persisted
  | drain => exact h.drain
  | dispatch => exact h.dispatch
  | next now => exact h.next now
  | crawled result => exact h.crawled result
  | publish now => exact h.publish now

theorem inv_run (skipDns : Bool) (config : DiscoveryConfig) (actions : List Action) :
    (run skipDns config actions).Inv :=
  Runs.foldl_inv Inv (fun _ action h => h.step action) actions (inv_start config)

end System

/-! ## The law -/

/-- **The two lanes** of a run, as its log shows them. -/
structure System.Lanes (s : System) : Prop where
  /-- two full crawls never overlap: a crawl ends before another one starts -/
  crawls : ∀ (pre mid post : List Entry) t o run t' o' run',
    s.log = pre ++ .started t o run :: (mid ++ .started t' o' run' :: post) → .ended ∈ mid
  /-- the status shows a crawl while the supervisor is in one -/
  running : s.control.status.running = s.busy
  /-- every full run that is accepted is consumed by one call of `next_run_params`, or the
  trigger is set for it -/
  consumed : s.log.filterMap Entry.acceptance = s.log.filterMap Entry.consumption ++
    if s.control.triggerRequested then [s.control.triggerOverrides] else []
  /-- the call starts a run with the overrides of the request -/
  honoured : ∀ overrides run, .started .manual overrides run ∈ s.log → run.Honours overrides
  /-- or records the error, where the configuration, complete at acceptance, no longer is -/
  refused : ∀ overrides config error, .refused .manual overrides config error ∈ s.log →
    complete overrides config = false ∧ error = some notConfigured
  accepted : ∀ overrides config, .accepted overrides config ∈ s.log → complete overrides config = true
  /-- no full run is accepted between another one's acceptance and the end of its run -/
  exclusive : ∀ (pre mid post : List Entry) o config o' config',
    s.log = pre ++ .accepted o config :: (mid ++ .accepted o' config' :: post) →
      (∃ xs run ys, mid = xs ++ .started .manual o run :: ys ∧ .ended ∈ ys) ∨
        ∃ config error, .refused .manual o config error ∈ mid
  /-- every single-device run that is accepted is dispatched once, or is in hand or queued -/
  singles : s.log.filterMap Entry.queuing =
    s.log.filterMap Entry.dispatch ++ s.jobs.map Prod.fst ++ s.control.singleDeviceQueue

/-- The action belongs to the single-device lane. -/
def Action.single : Action → Bool
  | .post request => isSingle request
  | .drain | .dispatch => true
  | _ => false

/-- The action is a step of the supervisor. -/
def Action.ofSupervisor : Action → Bool
  | .post _ | .put _ _ => false
  | _ => true

/-- The flags of the full crawl. -/
def DiscoveryControl.flags (control : DiscoveryControl) : Bool × Bool × Option DiscoveryRunRequest :=
  (control.status.running, control.triggerRequested, control.triggerOverrides)

namespace System
variable {s : System}

theorem Inv.lanes (h : s.Inv) : s.Lanes where
  crawls pre mid post t o run t' o' run' hlog := by
    have hpath := h.path
    rw [hlog] at hpath
    obtain ⟨lane, -, hrest⟩ := hpath.of_append
    exact Lane.ended_between hrest
  running := h.busy
  consumed := by
    have hconsumed := Lane.consumed_of_path h.path
    have hpending : s.lane.pending = if s.control.triggerRequested then [s.control.triggerOverrides] else [] := by
      unfold lane
      split
      next hrunning =>
        rw [h.free hrunning]
        rfl
      · split <;> rfl
    rw [← hpending]
    exact hconsumed
  honoured overrides run hmem := by
    obtain ⟨m, m', hstep⟩ := Lane.step_of_mem h.path hmem
    cases hstep
    assumption
  refused overrides config error hmem := by
    obtain ⟨m, m', hstep⟩ := Lane.step_of_mem h.path hmem
    cases hstep
    exact ⟨by assumption, rfl⟩
  accepted overrides config hmem := by
    obtain ⟨m, m', hstep⟩ := Lane.step_of_mem h.path hmem
    cases hstep
    assumption
  exclusive pre mid post o config o' config' hlog := by
    have hpath := h.path
    rw [hlog] at hpath
    obtain ⟨lane, -, hrest⟩ := hpath.of_append
    exact Lane.over_between hrest
  singles := h.singles

/-- The single-device lane leaves the flags of the full crawl. -/
theorem flags_step {action : Action} (hsingle : action.single = true) (skipDns : Bool) (s : System) :
    (s.step skipDns action).control.flags = s.control.flags := by
  cases action with
  | post request =>
    show (s.control.discoveryRun request).1.flags = _
    rcases s.control.discoveryRun_cases request with ⟨single, -, hout⟩ | ⟨-, hfull, -⟩ | ⟨hsame, -⟩
    · rw [hout]
      rfl
    · rw [Action.single, hfull] at hsingle
      cases hsingle
    · rw [hsame]
  | drain =>
    show s.drain.control.flags = _
    unfold System.drain
    split <;> rfl
  | dispatch =>
    show s.dispatch.control.flags = _
    unfold System.dispatch
    split <;> rfl
  | _ => cases hsingle

/-- A call of `next_run_params` consumes the request that is waiting. -/
theorem consumes_next (skipDns : Bool) (now : Rat) (hturn : s.turn = .dispatching [])
    (hrequested : s.control.triggerRequested = true) :
    ∃ entry, (s.next skipDns now).log = s.log ++ [entry] ∧ entry.consumption = some s.control.triggerOverrides ∧
      (s.next skipDns now).control.triggerRequested = false := by
  have htrigger : s.control.trigger now = some (.manual, s.control.triggerOverrides) := by
    unfold DiscoveryControl.trigger
    rw [if_pos hrequested]
  unfold System.next
  simp only [hturn, DiscoveryControl.nextRunParams, htrigger, Option.map_some, Option.toList_some]
  rcases s.control.takeTrigger.begin_cases skipDns now .manual s.control.triggerOverrides with
    ⟨run, status, -, -, hout⟩ | ⟨-, hout⟩
  · rw [hout]
    exact ⟨_, rfl, rfl, s.control.triggerRequested_takeTrigger⟩
  · rw [hout]
    exact ⟨_, rfl, rfl, s.control.triggerRequested_takeTrigger⟩

/-- The supervisor drains the whole queue, and has it in hand. -/
theorem drain_asleep (hturn : s.turn = .asleep) : s.drain.control.singleDeviceQueue = [] ∧
    s.drain.jobs.map Prod.fst = s.control.singleDeviceQueue := by
  unfold System.drain
  rw [hturn]
  simp [DiscoveryControl.drain, jobs, Function.comp_def]

/-- A dispatch spawns the worker of the first job in hand. -/
theorem dispatch_of_dispatching {job : DiscoveryRunRequest × SingleDeviceConfig}
    {jobs : List (DiscoveryRunRequest × SingleDeviceConfig)} (hturn : s.turn = .dispatching (job :: jobs)) :
    s.dispatch = { s with turn := .dispatching jobs, log := s.log ++ [.dispatched job.1] } := by
  unfold System.dispatch
  rw [hturn]

/-! ## The end of a turn -/

/-- The supervisor's own steps lead from the one to the other, and nothing is drained. -/
structure Onward (skipDns : Bool) (s s' : System) : Prop where
  reached : ∃ actions : List Action, (∀ action ∈ actions, action.ofSupervisor = true) ∧
    actions.foldl (step skipDns) s = s'
  queue : s'.control.singleDeviceQueue = s.control.singleDeviceQueue
  queued : s'.log.filterMap Entry.queuing = s.log.filterMap Entry.queuing

theorem Onward.refl (s : System) : Onward skipDns s s := ⟨⟨[], by simp, rfl⟩, rfl, rfl⟩

theorem Onward.trans {t u : System} (h : Onward skipDns s t) (h' : Onward skipDns t u) : Onward skipDns s u := by
  obtain ⟨actions, hall, rfl⟩ := h.reached
  obtain ⟨others, hothers, rfl⟩ := h'.reached
  refine ⟨⟨actions ++ others, fun action hmem => ?_, List.foldl_append⟩, h'.queue.trans h.queue,
    h'.queued.trans h.queued⟩
  exact (List.mem_append.mp hmem).elim (hall action) (hothers action)

theorem Onward.single {action : Action} (haction : action.ofSupervisor = true)
    (hqueue : (s.step skipDns action).control.singleDeviceQueue = s.control.singleDeviceQueue)
    (hqueued : (s.step skipDns action).log.filterMap Entry.queuing = s.log.filterMap Entry.queuing) :
    Onward skipDns s (s.step skipDns action) :=
  ⟨⟨[action], by simpa using haction, rfl⟩, hqueue, hqueued⟩

/-- The jobs in hand are dispatched, one after the other. -/
theorem onward_dispatching {jobs : List (DiscoveryRunRequest × SingleDeviceConfig)} (hturn : s.turn = .dispatching jobs) :
    ∃ s', Onward skipDns s s' ∧ s'.turn = .dispatching [] := by
  induction jobs generalizing s with
  | nil => exact ⟨s, .refl s, hturn⟩
  | cons job jobs ih =>
    have hstep : s.step skipDns .dispatch = _ := dispatch_of_dispatching hturn
    have honward : Onward skipDns s (s.step skipDns .dispatch) := by
      refine .single rfl ?_ ?_ <;> rw [hstep]
      simp [List.filterMap_cons, Entry.queuing]
    obtain ⟨s', hrest, hdone⟩ := ih (s := s.step skipDns .dispatch) (by rw [hstep])
    exact ⟨s', honward.trans hrest, hdone⟩

theorem queuing_nextEntry (trigger : Trigger × Option DiscoveryRunRequest) (config : DiscoveryConfig)
    (out : DiscoveryControl × Option FullRun) : (nextEntry trigger config out).queuing = none := by
  unfold nextEntry
  split <;> rfl

theorem queue_nextRunParams (control : DiscoveryControl) (now : Rat) :
    (control.nextRunParams skipDns now).1.singleDeviceQueue = control.singleDeviceQueue := by
  unfold DiscoveryControl.nextRunParams
  split
  next trigger overrides _ =>
    rcases control.takeTrigger.begin_cases skipDns now trigger overrides with ⟨run, status, -, -, hout⟩ | ⟨-, hout⟩
    · rw [hout]
      exact control.singleDeviceQueue_takeTrigger
    · rw [hout]
      exact control.singleDeviceQueue_takeTrigger
  · rfl

/-- After the dispatches comes `next_run_params`, and a crawl at most. -/
theorem onward_next (now : Rat) (hturn : s.turn = .dispatching []) :
    Onward skipDns s (s.step skipDns (.next now)) ∧ ((s.step skipDns (.next now)).turn = .asleep ∨
      ∃ run, (s.step skipDns (.next now)).turn = .crawling run) := by
  have hstep : s.step skipDns (.next now) =
      { control := (s.control.nextRunParams skipDns now).1
        turn := (s.control.nextRunParams skipDns now).2.elim .asleep .crawling
        log := s.log ++ ((s.control.trigger now).map fun trigger =>
          nextEntry trigger s.control.config (s.control.nextRunParams skipDns now)).toList } := by
    show s.next skipDns now = _
    unfold System.next
    rw [hturn]
  refine ⟨.single rfl ?_ ?_, ?_⟩ <;> rw [hstep]
  · exact queue_nextRunParams s.control now
  · cases s.control.trigger now with
    | none => simp
    | some trigger => simp [queuing_nextEntry]
  · cases (s.control.nextRunParams skipDns now).2 with
    | none => exact .inl rfl
    | some run => exact .inr ⟨run, rfl⟩

theorem onward_finished {result : RunResult} (hturn : s.turn = .finished result) :
    ∃ s', Onward skipDns s s' ∧ s'.turn = .asleep := by
  have hstep : s.step skipDns (.publish 0) =
      { control := s.control.publish 0 result, turn := .asleep, log := s.log ++ [.ended] } := by
    show s.publish 0 = _
    unfold System.publish
    rw [hturn]
  refine ⟨s.step skipDns (.publish 0), .single rfl ?_ ?_, ?_⟩ <;> rw [hstep]
  · rfl
  · simp [List.filterMap_cons, Entry.queuing]

theorem onward_crawling {run : FullRun} (hturn : s.turn = .crawling run) :
    ∃ s', Onward skipDns s s' ∧ s'.turn = .asleep := by
  have hstep : s.step skipDns (.crawled ⟨0, 0, 0, none⟩) = { s with turn := .finished ⟨0, 0, 0, none⟩ } := by
    show s.crawled _ = _
    unfold System.crawled
    rw [hturn]
  have honward : Onward skipDns s (s.step skipDns (.crawled ⟨0, 0, 0, none⟩)) := by
    refine .single rfl ?_ ?_ <;> rw [hstep]
  have hfinished : (s.step skipDns (.crawled ⟨0, 0, 0, none⟩)).turn = .finished ⟨0, 0, 0, none⟩ := by rw [hstep]
  obtain ⟨s', hrest, hasleep⟩ := onward_finished hfinished
  exact ⟨s', honward.trans hrest, hasleep⟩

/-- **A turn can end**: wherever the supervisor is in its loop, its own steps lead to the
sleep between two turns. -/
theorem onward_asleep (skipDns : Bool) (s : System) : ∃ s', Onward skipDns s s' ∧ s'.turn = .asleep := by
  cases hturn : s.turn with
  | asleep => exact ⟨s, .refl s, hturn⟩
  | dispatching jobs =>
    obtain ⟨t, hdispatched, ht⟩ : ∃ t, Onward skipDns s t ∧ t.turn = .dispatching [] := onward_dispatching hturn
    obtain ⟨hnext, hasleep | ⟨run, hrun⟩⟩ := onward_next 0 ht
    · exact ⟨_, hdispatched.trans hnext, hasleep⟩
    · obtain ⟨s', hrest, hasleep⟩ := onward_crawling hrun
      exact ⟨s', (hdispatched.trans hnext).trans hrest, hasleep⟩
  | crawling run => exact onward_crawling hturn
  | finished result => exact onward_finished hturn

/-- From the end of one turn to the end of the next, every queued request is dispatched. -/
theorem Inv.dispatches (h : s.Inv) (skipDns : Bool) : ∃ actions : List Action,
    (∀ action ∈ actions, action.ofSupervisor = true) ∧ (actions.foldl (System.step skipDns) s).turn = .asleep ∧
      (actions.foldl (System.step skipDns) s).log.filterMap Entry.dispatch = s.log.filterMap Entry.queuing := by
  obtain ⟨t, hturn, hasleep⟩ := onward_asleep skipDns s
  obtain ⟨u, hnext, hend⟩ := onward_asleep skipDns t.drain
  obtain ⟨before, hbefore, rfl⟩ := hturn.reached
  obtain ⟨after, hafter, hlast⟩ := hnext.reached
  have hrun : (before ++ .drain :: after).foldl (System.step skipDns) s = u := by
    rw [List.foldl_append, List.foldl_cons]
    exact hlast
  refine ⟨before ++ .drain :: after, fun action hmem => ?_, hrun ▸ hend, ?_⟩
  · rcases List.mem_append.mp hmem with hmem | hmem
    · exact hbefore action hmem
    · rcases List.mem_cons.mp hmem with rfl | hmem
      · rfl
      · exact hafter action hmem
  · have hinv : u.Inv := by
      rw [← hrun]
      exact Runs.foldl_inv Inv (fun _ action h => h.step action) _ h
    have hsingles := hinv.singles
    have hjobs : u.jobs = [] := by rw [System.jobs, hend]
    rw [hnext.queue, (drain_asleep hasleep).1, hjobs, hnext.queued] at hsingles
    have hdrain : (before.foldl (System.step skipDns) s).drain.log = (before.foldl (System.step skipDns) s).log := by
      unfold System.drain
      split <;> rfl
    rw [hdrain, hturn.queued] at hsingles
    rw [hrun]
    simpa using hsingles.symm

end System

/-- **Discovery's two lanes**: whatever requests, changes of the configuration and steps of
the supervisor come in whatever order, the log shows two lanes that keep apart; a request
that waits is consumed by the next call of `next_run_params`; the supervisor takes the whole
queue in hand, dispatches a job with every step, and from anywhere its own steps dispatch
every request that was accepted; and the single-device lane leaves the flags of the full
crawl alone. -/
theorem discovery_lanes (skipDns : Bool) (config : DiscoveryConfig) (actions : List Action) :
    let s := System.run skipDns config actions
    s.Lanes ∧
      (∀ now, s.turn = .dispatching [] → s.control.triggerRequested = true →
        ∃ entry, (s.step skipDns (.next now)).log = s.log ++ [entry] ∧
          entry.consumption = some s.control.triggerOverrides ∧
          (s.step skipDns (.next now)).control.triggerRequested = false) ∧
      (s.turn = .asleep → (s.step skipDns .drain).control.singleDeviceQueue = [] ∧
        (s.step skipDns .drain).jobs.map Prod.fst = s.control.singleDeviceQueue) ∧
      (∀ job jobs, s.turn = .dispatching (job :: jobs) → (s.step skipDns .dispatch).turn = .dispatching jobs ∧
        (s.step skipDns .dispatch).log = s.log ++ [.dispatched job.1]) ∧
      (∃ onward : List Action, (∀ action ∈ onward, action.ofSupervisor = true) ∧
        (onward.foldl (System.step skipDns) s).turn = .asleep ∧
        (onward.foldl (System.step skipDns) s).log.filterMap Entry.dispatch = s.log.filterMap Entry.queuing) ∧
      ∀ action, action.single = true → (s.step skipDns action).control.flags = s.control.flags := by
  intro s
  have hinv := System.inv_run skipDns config actions
  refine ⟨hinv.lanes, fun now hturn hrequested => ?_, fun hturn => ?_, fun job jobs hturn => ?_, ?_, ?_⟩
  · exact System.consumes_next skipDns now hturn hrequested
  · exact System.drain_asleep hturn
  · have hstep : s.step skipDns .dispatch = _ := System.dispatch_of_dispatching hturn
    rw [hstep]
    exact ⟨rfl, rfl⟩
  · exact hinv.dispatches skipDns
  · exact fun action hsingle => System.flags_step hsingle skipDns s

end JaspyNexus.Collectors.Discovery

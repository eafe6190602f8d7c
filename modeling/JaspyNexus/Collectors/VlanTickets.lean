import Mathlib
import JaspyNexus.Collectors.VlanQueue

/-! # Requests and their polls

Every run of the loop and of its requests follows the protocol of each name: a request that
is accepted is polled before it is released, in the next turn of the loop at the latest. -/

namespace JaspyNexus.Collectors.Vlanpoller
open JaspyNexus.Lib JaspyNexus.Models

namespace Stage

/-- The names whose requests the turn serves. -/
def triggered : Stage → List String
  | .triggering triggered | .polling triggered _ | .releasing triggered => triggered
  | _ => []

/-- The turn has not copied the waiting names yet. -/
def early : Stage → Bool
  | .listing | .cycling _ | .snapshotting => true
  | _ => false

def pool? : Stage → Option (WorkerPool VlanDevice)
  | .cycling pool | .polling _ pool => some pool
  | _ => none

end Stage

/-- The batch still has a poll of the name to do, or to finish, or need not do one. -/
inductive Covered (pool : WorkerPool VlanDevice) (f : String) (k : Ticket) : Prop
  | done : k.progress.isOver = true → Covered pool f k
  | queued (d : VlanDevice) : d ∈ pool.queue → d.fqdn = f → Covered pool f k
  | working (i : Nat) (d : VlanDevice) (workers : List Nat) : pool.workers[i]? = some (.working d) → d.fqdn = f →
    k.progress = .polling workers → i ∈ workers → Covered pool f k

/-- A name and its ticket. -/
structure Coupled (s : VlanPoller) (f : String) (t : Option Ticket) : Prop where
  waiting : t.isSome = true ↔ f ∈ s.pending
  held : f ∈ s.stage.triggered → f ∈ s.pending
  /-- a turn that began since has the name to serve, or has yet to copy it -/
  turned : ∀ k, t = some k → k.turned = true → s.stage.early = true ∨ f ∈ s.stage.triggered
  covered : ∀ k triggered pool, t = some k → s.stage = .polling triggered pool → f ∈ triggered → Covered pool f k
  served : ∀ k triggered, t = some k → s.stage = .releasing triggered → f ∈ triggered → k.progress.isOver = true

structure Inv (s : VlanPoller) : Prop where
  nodup : s.pending.Nodup
  pool : ∀ pool, s.stage.pool? = some pool → pool.Wf
  tickets : ∀ f, ∃ t, Path (Ticket.Step f) none s.log t ∧ Coupled s f t

/-! ## Steps -/

theorem deviceVlanPoll_cases (pending : List String) (fqdn : String) (device : Option Device) (enabled : Bool) :
    (fqdn ∉ pending ∧ deviceVlanPoll pending fqdn device enabled = (pending ++ [fqdn], .accepted)) ∨
    (fqdn ∈ pending ∧ deviceVlanPoll pending fqdn device enabled = (pending, .conflict inProgress)) ∨
    ((∃ error, deviceVlanPoll pending fqdn device enabled = (pending, .notFound error)) ∨
      ∃ error, error ≠ inProgress ∧ deviceVlanPoll pending fqdn device enabled = (pending, .conflict error)) := by
  unfold deviceVlanPoll
  split
  · exact .inr (.inr (.inl ⟨_, rfl⟩))
  · split
    · exact .inr (.inr (.inl ⟨_, rfl⟩))
    · split
      · exact .inr (.inr (.inr ⟨_, by decide, rfl⟩))
      · split
        next hmem => exact .inr (.inl ⟨hmem, rfl⟩)
        next hmem => exact .inl ⟨hmem, rfl⟩

section
variable {s : VlanPoller} {f : String} {t : Option Ticket}

theorem Coupled.eq_none (h : Coupled s f t) (hf : f ∉ s.pending) : t = none := by
  cases t with
  | none => rfl
  | some k => exact absurd (h.waiting.mp rfl) hf

theorem Coupled.exists_ticket (h : Coupled s f t) (hf : f ∈ s.pending) : ∃ k, t = some k :=
  Option.isSome_iff_exists.mp (h.waiting.mpr hf)

theorem Inv.post (h : Inv s) (fqdn : String) (device : Option Device) (enabled : Bool) :
    Inv (s.post fqdn device enabled) := by
  unfold VlanPoller.post
  rcases deviceVlanPoll_cases s.pending fqdn device enabled with
    ⟨hfree, hout⟩ | ⟨hbusy, hout⟩ | ⟨error, hout⟩ | ⟨error, herror, hout⟩
  · simp only [hout]
    refine ⟨List.nodup_append.mpr ⟨h.nodup, List.nodup_singleton _, ?_⟩, h.pool, fun f => ?_⟩
    · intro a ha b hb
      rw [List.mem_singleton] at hb
      rintro rfl
      exact hfree (hb ▸ ha)
    · obtain ⟨t, hpath, hc⟩ := h.tickets f
      by_cases hf : f = fqdn
      · subst hf
        obtain rfl := hc.eq_none hfree
        refine ⟨some ⟨.waiting, false⟩, hpath.append (.single (by simp [Ticket.Step, Ticket.next])), ?_⟩
        refine ⟨by simp, fun hheld => absurd (hc.held hheld) hfree, fun k hk hturned => ?_,
          fun k triggered pool hk hstage hmem => ?_, fun k triggered hk hstage hmem => ?_⟩
        · cases hk
          cases hturned
        · refine absurd (hc.held ?_) hfree
          rw [show s.stage = _ from hstage]
          exact hmem
        · refine absurd (hc.held ?_) hfree
          rw [show s.stage = _ from hstage]
          exact hmem
      · refine ⟨t, hpath.append (.single ?_), ⟨?_, fun hheld => ?_, hc.turned, hc.covered, hc.served⟩⟩
        · cases t <;> simp [Ticket.Step, Ticket.next, Ne.symm hf]
        · rw [hc.waiting]
          simp [hf]
        · exact List.mem_append_left _ (hc.held hheld)
  · simp only [hout, if_true]
    refine ⟨h.nodup, h.pool, fun f => ?_⟩
    obtain ⟨t, hpath, hc⟩ := h.tickets f
    refine ⟨t, hpath.append (.single ?_), ⟨hc.waiting, hc.held, hc.turned, hc.covered, hc.served⟩⟩
    cases t with
    | none =>
      have hne : fqdn ≠ f := by
        rintro rfl
        exact absurd (hc.waiting.mpr hbusy) (by simp)
      simp [Ticket.Step, Ticket.next, hne]
    | some k => rfl
  · simp only [hout]
    exact h
  · simp only [hout, if_neg herror]
    exact h

theorem Inv.wake (h : Inv s) (enabled : Bool) (now : Nat) : Inv (s.wake enabled now) := by
  unfold VlanPoller.wake
  split
  next hstage =>
    split
    · refine ⟨h.nodup, fun pool hpool => ?_, fun f => ?_⟩
      · dsimp only at hpool
        split at hpool <;> cases hpool
      · obtain ⟨t, hpath, hc⟩ := h.tickets f
        refine ⟨t.map fun k => { k with turned := true }, hpath.append (.single (by cases t <;> rfl)), ?_⟩
        refine ⟨by simpa using hc.waiting, fun hheld => ?_, fun k hk _ => .inl ?_, fun k triggered pool _ hnext => ?_,
          fun k triggered _ hnext => ?_⟩
        · dsimp only at hheld
          split at hheld <;> cases hheld
        · dsimp only
          split <;> rfl
        · dsimp only at hnext
          split at hnext <;> cases hnext
        · dsimp only at hnext
          split at hnext <;> cases hnext
    · exact h
  next => exact h

/-- A listing excuses whom it does not have. -/
def Ticket.list (f : String) (fqdns : List String) (k : Ticket) : Ticket :=
  { k with progress := if f ∈ fqdns then k.progress else .excused }

theorem Inv.load (h : Inv s) (db : Database) (pool queried : Bool) : Inv (s.load db pool queried) := by
  have hlist : ∀ f t, Path (Ticket.Step f) none s.log t → Path (Ticket.Step f) none
      (s.log ++ [.listed ((loadDevices db pool queried).map VlanDevice.fqdn)])
      (t.map (Ticket.list f ((loadDevices db pool queried).map VlanDevice.fqdn))) :=
    fun f t hpath => hpath.append (.single (by cases t <;> rfl))
  unfold VlanPoller.load
  dsimp only
  split
  next hstage =>
    refine ⟨h.nodup, fun p hp => ?_, fun f => ?_⟩
    · cases hp
      exact WorkerPool.wf_spawn _ _
    · obtain ⟨t, hpath, hc⟩ := h.tickets f
      refine ⟨_, hlist f t hpath, by simpa using hc.waiting, fun hheld => (nomatch hheld), fun k _ _ => .inl rfl, ?_, ?_⟩
      · intro k triggered p _ hnext
        cases hnext
      · intro k triggered _ hnext
        cases hnext
  next triggered hstage =>
    refine ⟨h.nodup, fun p hp => ?_, fun f => ?_⟩
    · cases hp
      exact WorkerPool.wf_spawn _ _
    · obtain ⟨t, hpath, hc⟩ := h.tickets f
      have hheld : f ∈ triggered → f ∈ s.pending := fun hmem => hc.held (by rw [hstage]; exact hmem)
      refine ⟨_, hlist f t hpath, by simpa using hc.waiting, hheld, fun k hk hturned => ?_, ?_, ?_⟩
      · obtain ⟨k', rfl, rfl⟩ := Option.map_eq_some_iff.mp hk
        have hserve := hc.turned k' rfl hturned
        rw [hstage] at hserve
        exact hserve
      · intro k triggered' p hk hnext hmem
        cases hnext
        obtain ⟨k', rfl, rfl⟩ := Option.map_eq_some_iff.mp hk
        by_cases hlisted : f ∈ (loadDevices db pool queried).map VlanDevice.fqdn
        · obtain ⟨d, hd, rfl⟩ := List.mem_map.mp hlisted
          exact .queued d (List.mem_filter.mpr ⟨hd, by simpa using hmem⟩) rfl
        · refine .done ?_
          rw [Ticket.list, if_neg hlisted]
          rfl
      · intro k triggered' _ hnext
        cases hnext
  next => exact h

theorem Inv.join (h : Inv s) (intervalMsecs now : Nat) : Inv (s.join intervalMsecs now) := by
  unfold VlanPoller.join
  split
  next pool hstage =>
    split
    · refine ⟨h.nodup, fun p hp => (nomatch hp), fun f => ?_⟩
      obtain ⟨t, hpath, hc⟩ := h.tickets f
      exact ⟨t, hpath, hc.waiting, fun hheld => (nomatch hheld), fun k _ _ => .inl rfl,
        fun _ _ _ _ hnext => (nomatch hnext), fun _ _ _ hnext => (nomatch hnext)⟩
    · exact h
  next triggered pool hstage =>
    split
    next hreturned =>
      refine ⟨h.nodup, fun p hp => (nomatch hp), fun f => ?_⟩
      obtain ⟨t, hpath, hc⟩ := h.tickets f
      have hheld : f ∈ triggered → f ∈ s.pending := fun hmem => hc.held (by rw [hstage]; exact hmem)
      refine ⟨t, hpath, hc.waiting, hheld, fun k hk hturned => ?_, fun _ _ _ _ hnext => (nomatch hnext), ?_⟩
      · have hserve := hc.turned k hk hturned
        rw [hstage] at hserve
        exact hserve
      · intro k triggered' hk hnext hmem
        cases hnext
        -- the batch has returned: nothing is left to do
        have hempty := (h.pool pool (by rw [hstage]; rfl)).queue_eq_nil hreturned
        rcases hc.covered k triggered pool hk hstage hmem with hdone | ⟨d, hd, -⟩ | ⟨i, d, workers, hworking, -⟩
        · exact hdone
        · rw [hempty] at hd
          cases hd
        · exact absurd hworking (WorkerPool.not_working hreturned)
    · exact h
  next => exact h

theorem Inv.snapshot (h : Inv s) : Inv s.snapshot := by
  unfold VlanPoller.snapshot
  split
  next hstage =>
    split
    next hnone =>
      refine ⟨h.nodup, fun p hp => (nomatch hp), fun f => ?_⟩
      obtain ⟨t, hpath, hc⟩ := h.tickets f
      obtain rfl := hc.eq_none (by rw [hnone]; exact List.not_mem_nil)
      exact ⟨none, hpath.append (.single rfl), hc.waiting, fun hheld => (nomatch hheld), nofun, nofun, nofun⟩
    next =>
      refine ⟨h.nodup, fun p hp => (nomatch hp), fun f => ?_⟩
      obtain ⟨t, hpath, hc⟩ := h.tickets f
      refine ⟨t, hpath, hc.waiting, id, fun k hk _ => .inr ?_, fun _ _ _ _ hnext => (nomatch hnext),
        fun _ _ _ hnext => (nomatch hnext)⟩
      exact hc.waiting.mp (by rw [hk]; rfl)
  next => exact h

/-- What a step of a worker does to the ticket of a name. -/
def Progress.see (f : String) (progress : Progress) : Option (WorkerPool.Event VlanDevice) → Progress
  | some (.started i d) => if d.fqdn = f then progress.start i else progress
  | some (.finished i d) => if d.fqdn = f then progress.complete i else progress
  | none => progress

theorem Progress.see_started (f : String) (progress : Progress) (i : Nat) (d : VlanDevice) :
    progress.see f (some (.started i d)) = if d.fqdn = f then progress.start i else progress := rfl

theorem Progress.see_finished (f : String) (progress : Progress) (i : Nat) (d : VlanDevice) :
    progress.see f (some (.finished i d)) = if d.fqdn = f then progress.complete i else progress := rfl

theorem path_see (hpath : Path (Ticket.Step f) none s.log t) (event : Option (WorkerPool.Event VlanDevice)) :
    Path (Ticket.Step f) none (s.log ++ (event.map workEntry).toList)
      (t.map fun k => { k with progress := k.progress.see f event }) := by
  cases event with
  | none => simpa [Progress.see] using hpath
  | some event =>
    refine hpath.append (.single ?_)
    cases event <;> cases t <;> rfl

theorem isOver_see {progress : Progress} (h : progress.isOver = true) (f : String)
    (event : Option (WorkerPool.Event VlanDevice)) : (progress.see f event).isOver = true := by
  have hstart : ∀ i, (progress.start i).isOver = true := fun i => by
    cases progress <;> first | rfl | cases h
  have hcomplete : ∀ i, (progress.complete i).isOver = true := fun i => by
    cases progress <;> first | rfl | cases h
  rcases event with _ | ⟨i, d⟩ | ⟨i, d⟩
  · exact h
  · rw [Progress.see_started]
    split
    · exact hstart i
    · exact h
  · rw [Progress.see_finished]
    split
    · exact hcomplete i
    · exact h

/-- A poll that a worker has started goes on, or the request is over. -/
theorem polling_see (workers : List Nat) {j : Nat} (hj : j ∈ workers) (f : String)
    (event : Option (WorkerPool.Event VlanDevice)) :
    ((Progress.polling workers).see f event).isOver = true ∨
      ∃ workers', (Progress.polling workers).see f event = .polling workers' ∧ j ∈ workers' := by
  rcases event with _ | ⟨i, d⟩ | ⟨i, d⟩
  · exact .inr ⟨workers, rfl, hj⟩
  · rw [Progress.see_started]
    split
    · exact .inr ⟨i :: workers, rfl, List.mem_cons_of_mem _ hj⟩
    · exact .inr ⟨workers, rfl, hj⟩
  · rw [Progress.see_finished]
    split
    · by_cases hi : i ∈ workers
      · exact .inl (by simp [Progress.complete, hi, Progress.isOver])
      · exact .inr ⟨workers, by simp [Progress.complete, hi], hj⟩
    · exact .inr ⟨workers, rfl, hj⟩

/-- **A worker's step keeps the batch's promise.** -/
theorem Covered.move {pool : WorkerPool VlanDevice} {k : Ticket} (h : Covered pool f k) (i : Nat) :
    Covered (pool.move i).1 f { k with progress := k.progress.see f (pool.move i).2 } := by
  rcases h with hdone | ⟨d, hd, hf⟩ | ⟨j, d, workers, hworking, hf, hprogress, hj⟩
  · exact .done (isOver_see hdone f _)
  · rcases WorkerPool.queued_move hd i with hd | ⟨hevent, hworking⟩
    · exact .queued d hd hf
    · have hsee : k.progress.see f (pool.move i).2 = k.progress.start i := by
        rw [hevent]
        exact if_pos hf
      cases hk : k.progress with
      | waiting =>
        rw [hk] at hsee
        exact .working i d [i] hworking hf hsee List.mem_cons_self
      | polling workers =>
        rw [hk] at hsee
        exact .working i d (i :: workers) hworking hf hsee List.mem_cons_self
      | _ =>
        rw [hk] at hsee
        exact .done (congrArg Progress.isOver hsee)
  · rcases WorkerPool.working_move hworking i with hworking | ⟨rfl, hevent⟩
    · rcases polling_see workers hj f (pool.move i).2 with hdone | ⟨workers', hsee, hj⟩
      · exact .done (by rw [hprogress]; exact hdone)
      · exact .working j d workers' hworking hf (by rw [hprogress, hsee]) hj
    · refine .done ?_
      show (k.progress.see f (pool.move j).2).isOver = true
      rw [hevent, hprogress]
      show (if d.fqdn = f then (Progress.polling workers).complete j else _).isOver = true
      rw [if_pos hf, Progress.complete, if_pos hj]
      rfl

theorem Inv.work (h : Inv s) (i : Nat) : Inv (s.work i) := by
  unfold VlanPoller.work
  split
  next pool hstage =>
    refine ⟨h.nodup, fun p hp => ?_, fun f => ?_⟩
    · cases hp
      exact (h.pool pool (by rw [hstage]; rfl)).move i
    · obtain ⟨t, hpath, hc⟩ := h.tickets f
      exact ⟨_, path_see hpath _, by simpa using hc.waiting, fun hheld => (nomatch hheld), fun k _ _ => .inl rfl,
        fun _ _ _ _ hnext => (nomatch hnext), fun _ _ _ hnext => (nomatch hnext)⟩
  next triggered pool hstage =>
    refine ⟨h.nodup, fun p hp => ?_, fun f => ?_⟩
    · cases hp
      exact (h.pool pool (by rw [hstage]; rfl)).move i
    · obtain ⟨t, hpath, hc⟩ := h.tickets f
      have hheld : f ∈ triggered → f ∈ s.pending := fun hmem => hc.held (by rw [hstage]; exact hmem)
      refine ⟨_, path_see hpath _, by simpa using hc.waiting, hheld, fun k hk hturned => ?_, ?_,
        fun _ _ _ hnext => (nomatch hnext)⟩
      · obtain ⟨k', rfl, rfl⟩ := Option.map_eq_some_iff.mp hk
        have hserve := hc.turned k' rfl hturned
        rw [hstage] at hserve
        exact hserve
      · intro k triggered' p hk hnext hmem
        cases hnext
        obtain ⟨k', rfl, rfl⟩ := Option.map_eq_some_iff.mp hk
        exact (hc.covered k' triggered pool rfl hstage hmem).move i
  next => exact h

/-- The names that are released one after the other. -/
theorem path_released {names : List String} (hnodup : names.Nodup) (t : Option Ticket)
    (hover : f ∈ names → ∃ k, t = some k ∧ k.progress.isOver = true) :
    Path (Ticket.Step f) t (names.map .released) (if f ∈ names then none else t) := by
  induction names generalizing t with
  | nil => exact .nil t
  | cons g names ih =>
    obtain ⟨hg, hnames⟩ := List.nodup_cons.mp hnodup
    by_cases hf : g = f
    · subst hf
      obtain ⟨k, rfl, hk⟩ := hover List.mem_cons_self
      rw [if_pos List.mem_cons_self]
      have hrest := ih hnames none fun hmem => absurd hmem hg
      rw [if_neg hg] at hrest
      exact .cons (by simp [Ticket.Step, Ticket.next, hk]) hrest
    · have hrest := ih hnames t fun hmem => hover (List.mem_cons_of_mem _ hmem)
      have hmem : f ∈ g :: names ↔ f ∈ names := by simp [Ne.symm hf]
      simp only [hmem]
      exact .cons (by cases t <;> simp [Ticket.Step, Ticket.next, hf]) hrest

theorem Inv.release (h : Inv s) : Inv s.release := by
  unfold VlanPoller.release
  split
  next triggered hstage =>
    refine ⟨h.nodup.filter _, fun p hp => (nomatch hp), fun f => ?_⟩
    obtain ⟨t, hpath, hc⟩ := h.tickets f
    have hreleased := @path_released f (s.pending.filter fun g => g ∈ triggered) (h.nodup.filter _) t fun hmem => by
      obtain ⟨hpending, htriggered⟩ := List.mem_filter.mp hmem
      obtain ⟨k, rfl⟩ := hc.exists_ticket hpending
      exact ⟨k, rfl, hc.served k triggered rfl hstage (of_decide_eq_true htriggered)⟩
    by_cases hmem : f ∈ s.pending.filter fun g => g ∈ triggered
    · rw [if_pos hmem] at hreleased
      refine ⟨none, (hpath.append hreleased).append (.single rfl), ?_, fun hheld => (nomatch hheld), nofun, nofun, nofun⟩
      simp only [List.mem_filter, decide_eq_true_eq] at hmem ⊢
      simp [hmem.2]
    · rw [if_neg hmem] at hreleased
      have hother : f ∉ triggered := fun htriggered => hmem
        (List.mem_filter.mpr ⟨hc.held (by rw [hstage]; exact htriggered), decide_eq_true htriggered⟩)
      have hturned : ∀ k, t = some k → k.turned = false := fun k hk => by
        by_contra hnow
        have hserve := hc.turned k hk (Bool.eq_true_of_not_eq_false hnow)
        rw [hstage] at hserve
        exact hserve.elim nofun hother
      refine ⟨t, (hpath.append hreleased).append (.single ?_), ?_, fun hheld => (nomatch hheld), fun k hk hnow => ?_,
        fun _ _ _ _ hnext => (nomatch hnext), fun _ _ _ hnext => (nomatch hnext)⟩
      · cases t with
        | none => rfl
        | some k => simp [Ticket.Step, Ticket.next, hturned k rfl]
      · rw [hc.waiting]
        simp [hother]
      · rw [hturned k hk] at hnow
        cases hnow
  next => exact h

theorem Inv.step (h : Inv s) (intervalMsecs : Nat) (action : Action) : Inv (s.step intervalMsecs action) := by
  cases action with
  | post fqdn device enabled => exact h.post fqdn device enabled
  | wake enabled now => exact h.wake enabled now
  | load db pool queried => exact h.load db pool queried
  | work i => exact h.work i
  | join now => exact h.join intervalMsecs now
  | snapshot => exact h.snapshot
  | release => exact h.release

end

theorem inv_run (intervalMsecs : Nat) (actions : List Action) : Inv (VlanPoller.run intervalMsecs actions) :=
  Runs.foldl_inv Inv (fun _ action h => h.step intervalMsecs action) actions
    ⟨List.nodup_nil, nofun, fun f => ⟨none, .nil none, by simp [VlanPoller.start], nofun, nofun, nofun, nofun⟩⟩

/-! ## What the protocol says of a request -/

/-- A poll of the device that starts and is completed, in this order. -/
def PolledIn (f : String) (log : List Entry) : Prop :=
  ∃ (i : Nat) (xs ys zs : List Entry), log = xs ++ .started i f :: (ys ++ .completed i f :: zs)

/-- What was seen since a request was accepted accounts for its progress. -/
def Accounts (f : String) (log : List Entry) : Progress → Prop
  | .waiting => True
  | .polling workers => ∀ i ∈ workers, .started i f ∈ log
  | .polled => PolledIn f log
  | .excused => ∃ fqdns, .listed fqdns ∈ log ∧ f ∉ fqdns

section
variable {f : String} {log : List Entry} {progress : Progress}

theorem Accounts.append (h : Accounts f log progress) (more : List Entry) : Accounts f (log ++ more) progress := by
  cases progress with
  | waiting => trivial
  | polling workers => exact fun i hi => List.mem_append_left _ (h i hi)
  | polled =>
    obtain ⟨i, xs, ys, zs, rfl⟩ := h
    exact ⟨i, xs, ys, zs ++ more, by simp⟩
  | excused =>
    obtain ⟨fqdns, hlisted, hf⟩ := h
    exact ⟨fqdns, List.mem_append_left _ hlisted, hf⟩

theorem Accounts.start (h : Accounts f log progress) (i : Nat) :
    Accounts f (log ++ [.started i f]) (progress.start i) := by
  cases progress with
  | waiting => exact fun j hj => by simp [List.mem_singleton.mp hj]
  | polling workers =>
    intro j hj
    rcases List.mem_cons.mp hj with rfl | hj
    · simp
    · exact List.mem_append_left _ (h j hj)
  | polled => exact Accounts.append h _
  | excused => exact Accounts.append h _

theorem Accounts.complete (h : Accounts f log progress) (i : Nat) :
    Accounts f (log ++ [.completed i f]) (progress.complete i) := by
  cases progress with
  | polling workers =>
    unfold Progress.complete
    by_cases hi : i ∈ workers
    · obtain ⟨xs, ys, rfl⟩ := List.append_of_mem (h i hi)
      simp only [if_pos hi]
      exact ⟨i, xs, ys, [], by simp⟩
    · simp only [if_neg hi]
      exact Accounts.append h _
  | waiting => trivial
  | polled => exact Accounts.append h _
  | excused => exact Accounts.append h _

/-- Until it is released, a request has the progress that was seen, and a turn of the loop
that has begun since. -/
theorem since_accepted {t : Option Ticket} (h : Path (Ticket.Step f) (some ⟨.waiting, false⟩) log t)
    (hheld : .released f ∉ log) :
    ∃ k, t = some k ∧ Accounts f log k.progress ∧ (.awake ∈ log → k.turned = true) := by
  induction log using List.reverseRecOn generalizing t with
  | nil =>
    cases h
    exact ⟨_, rfl, trivial, fun hawake => nomatch hawake⟩
  | append_singleton log entry ih =>
    obtain ⟨before, hbefore, hlast⟩ := h.of_append
    obtain ⟨after, hstep, hnil⟩ := hlast.of_cons
    cases hnil
    obtain ⟨k, rfl, haccounts, hturned⟩ := ih hbefore fun hmem => hheld (List.mem_append_left _ hmem)
    cases entry with
    | awake =>
      cases hstep
      exact ⟨_, rfl, haccounts.append _, fun _ => rfl⟩
    | asleep =>
      change (if k.turned then none else some (some k)) = some _ at hstep
      split at hstep
      · cases hstep
      · cases hstep
        exact ⟨k, rfl, haccounts.append _, fun hawake => hturned (by simpa using hawake)⟩
    | accepted g =>
      change (if g = f then none else some (some k)) = some _ at hstep
      split at hstep
      · cases hstep
      · cases hstep
        exact ⟨k, rfl, haccounts.append _, fun hawake => hturned (by simpa using hawake)⟩
    | conflict g =>
      cases hstep
      exact ⟨k, rfl, haccounts.append _, fun hawake => hturned (by simpa using hawake)⟩
    | listed fqdns =>
      cases hstep
      refine ⟨_, rfl, ?_, fun hawake => hturned (by simpa using hawake)⟩
      dsimp only
      split
      · exact haccounts.append _
      next hmissing => exact ⟨fqdns, by simp, hmissing⟩
    | started i g =>
      cases hstep
      refine ⟨_, rfl, ?_, fun hawake => hturned (by simpa using hawake)⟩
      dsimp only
      split
      next hg =>
        subst hg
        exact haccounts.start i
      next => exact haccounts.append _
    | completed i g =>
      cases hstep
      refine ⟨_, rfl, ?_, fun hawake => hturned (by simpa using hawake)⟩
      dsimp only
      split
      next hg =>
        subst hg
        exact haccounts.complete i
      next => exact haccounts.append _
    | released g =>
      have hg : ¬g = f := fun hg => hheld (by simp [hg])
      change (if g = f then _ else some (some k)) = some _ at hstep
      rw [if_neg hg] at hstep
      cases hstep
      exact ⟨k, rfl, haccounts.append _, fun hawake => hturned (by simpa using hawake)⟩

end

/-! ## The turn of the loop can end -/

/-- The step is the loop's own, or one of its workers'; the devices are listed out of this
database. -/
def Action.Loops (db : Database) : Action → Prop
  | .post .. => False
  | .load db' pool queried => db' = db ∧ pool = true ∧ queried = true
  | _ => True

/-- The loop and its workers can end the turn. -/
def CanEnd (intervalMsecs : Nat) (db : Database) (s : VlanPoller) : Prop :=
  ∃ actions : List Action, (∀ action ∈ actions, action.Loops db) ∧
    (actions.foldl (VlanPoller.step intervalMsecs) s).stage = .asleep

section
variable {intervalMsecs : Nat} {db : Database} {s : VlanPoller}

theorem CanEnd.step (action : Action) (hloop : action.Loops db)
    (h : CanEnd intervalMsecs db (s.step intervalMsecs action)) : CanEnd intervalMsecs db s := by
  obtain ⟨actions, hall, hasleep⟩ := h
  refine ⟨action :: actions, fun a ha => ?_, hasleep⟩
  rcases List.mem_cons.mp ha with rfl | ha
  · exact hloop
  · exact hall a ha

theorem CanEnd.works (moves : List Nat)
    (h : CanEnd intervalMsecs db ((moves.map Action.work).foldl (VlanPoller.step intervalMsecs) s)) :
    CanEnd intervalMsecs db s := by
  induction moves generalizing s with
  | nil => exact h
  | cons i moves ih => exact CanEnd.step (.work i) trivial (ih h)

/-- The workers of a batch work on its pool. -/
theorem stage_works (intervalMsecs : Nat) (moves : List Nat) (wrap : WorkerPool VlanDevice → Stage)
    (hwork : ∀ (s : VlanPoller) pool i, s.stage = wrap pool → (s.work i).stage = wrap (pool.move i).1)
    {pool : WorkerPool VlanDevice} (h : s.stage = wrap pool) :
    ((moves.map Action.work).foldl (VlanPoller.step intervalMsecs) s).stage =
      wrap (moves.foldl (fun p i => (p.move i).1) pool) := by
  induction moves generalizing s pool with
  | nil => exact h
  | cons i moves ih => exact ih (hwork s pool i h)

theorem canEnd_asleep (h : s.stage = .asleep) : CanEnd intervalMsecs db s :=
  ⟨[], fun _ hmem => absurd hmem List.not_mem_nil, h⟩

theorem canEnd_releasing (triggered : List String) (h : s.stage = .releasing triggered) : CanEnd intervalMsecs db s := by
  refine .step .release trivial (canEnd_asleep ?_)
  show s.release.stage = _
  unfold VlanPoller.release
  rw [h]

theorem canEnd_polling (triggered : List String) (pool : WorkerPool VlanDevice)
    (h : s.stage = .polling triggered pool) : CanEnd intervalMsecs db s := by
  obtain ⟨moves, hreturned⟩ := pool.exists_returned
  refine .works moves (.step (.join 0) trivial (canEnd_releasing triggered ?_))
  have hstage := stage_works intervalMsecs moves (.polling triggered)
    (fun s pool i hs => by unfold VlanPoller.work; rw [hs]) h
  show (VlanPoller.join _ _ _).stage = _
  unfold VlanPoller.join
  rw [hstage]
  simp only [hreturned, if_true]

theorem canEnd_triggering {triggered : List String} (h : s.stage = .triggering triggered) :
    CanEnd intervalMsecs db s := by
  refine .step (.load db true true) ⟨rfl, rfl, rfl⟩ (canEnd_polling triggered
    (pollBatch ((loadDevices db true true).filter fun d => d.fqdn ∈ triggered)) ?_)
  show (VlanPoller.load _ _ _ _).stage = _
  unfold VlanPoller.load
  simp only [h]

theorem canEnd_snapshotting (h : s.stage = .snapshotting) : CanEnd intervalMsecs db s := by
  refine .step .snapshot trivial ?_
  show CanEnd intervalMsecs db s.snapshot
  unfold VlanPoller.snapshot
  rw [h]
  dsimp only
  split
  · exact canEnd_asleep rfl
  · exact canEnd_triggering rfl

theorem canEnd_cycling {pool : WorkerPool VlanDevice} (h : s.stage = .cycling pool) : CanEnd intervalMsecs db s := by
  obtain ⟨moves, hreturned⟩ := pool.exists_returned
  refine .works moves (.step (.join 0) trivial (canEnd_snapshotting ?_))
  have hstage := stage_works intervalMsecs moves .cycling
    (fun s pool i hs => by unfold VlanPoller.work; rw [hs]) h
  show (VlanPoller.join _ _ _).stage = _
  unfold VlanPoller.join
  rw [hstage]
  simp only [hreturned, if_true]

/-- **No turn of the loop is stuck.** -/
theorem canEnd (intervalMsecs : Nat) (db : Database) (s : VlanPoller) : CanEnd intervalMsecs db s := by
  cases h : s.stage with
  | asleep => exact canEnd_asleep h
  | listing =>
    refine .step (.load db true true) ⟨rfl, rfl, rfl⟩ ?_
    show CanEnd intervalMsecs db (s.load _ _ _)
    unfold VlanPoller.load
    simp only [h]
    exact canEnd_cycling rfl
  | cycling pool => exact canEnd_cycling h
  | snapshotting => exact canEnd_snapshotting h
  | triggering triggered => exact canEnd_triggering h
  | polling triggered pool => exact canEnd_polling triggered pool h
  | releasing triggered => exact canEnd_releasing triggered h

end

/-! ## The law -/

/-- **Requests and polls** of a run, as its log shows them. -/
structure Served (s : VlanPoller) : Prop where
  /-- a device that every listing has is polled between the request and its release -/
  polled : ∀ (f : String) (pre mid post : List Entry), s.log = pre ++ .accepted f :: (mid ++ .released f :: post) → .released f ∉ mid →
    (∀ fqdns, .listed fqdns ∈ mid → f ∈ fqdns) → PolledIn f mid
  /-- a turn of the loop that begins after the request does not end before it is released -/
  turn : ∀ (f : String) (pre mid post : List Entry), s.log = pre ++ .accepted f :: (mid ++ .asleep :: post) → .awake ∈ mid → .released f ∈ mid
  /-- until it is released the name is pending, and no request for it is accepted -/
  pending : ∀ (f : String) (pre mid : List Entry), s.log = pre ++ .accepted f :: mid → .released f ∉ mid → f ∈ s.pending ∧ .accepted f ∉ mid
  /-- a name is pending only after a request that was accepted -/
  accepted : ∀ f ∈ s.pending, .accepted f ∈ s.log

theorem accepted_of_path {f : String} {log : List Entry} {t : Option Ticket}
    (h : Path (Ticket.Step f) none log t) (ht : t.isSome = true) : .accepted f ∈ log := by
  obtain ⟨xs, entry, ys, m, m', rfl, rfl, hm', hstep, -⟩ := h.exit (· = none) rfl (by rintro rfl; cases ht)
  cases entry with
  | accepted g =>
    change some (if g = f then _ else none) = some m' at hstep
    split at hstep
    next hg => simp [hg]
    next => exact absurd (Option.some.inj hstep).symm hm'
  | conflict g =>
    change (if g = f then none else some none) = some m' at hstep
    split at hstep
    · cases hstep
    · exact absurd (Option.some.inj hstep).symm hm'
  | released g =>
    change (if g = f then none else some none) = some m' at hstep
    split at hstep
    · cases hstep
    · exact absurd (Option.some.inj hstep).symm hm'
  | _ => exact absurd (Option.some.inj hstep).symm hm'

/-- What follows a request that is accepted, up to where it is released. -/
theorem Inv.since {s : VlanPoller} (h : Inv s) {f : String} {pre mid : List Entry} (rest : List Entry)
    (hlog : s.log = pre ++ .accepted f :: (mid ++ rest)) (hheld : .released f ∉ mid) :
    ∃ k t, Accounts f mid k.progress ∧ (.awake ∈ mid → k.turned = true) ∧
      Path (Ticket.Step f) (some ⟨.waiting, false⟩) mid (some k) ∧ Path (Ticket.Step f) (some k) rest t ∧
      Coupled s f t := by
  obtain ⟨t, hpath, hc⟩ := h.tickets f
  rw [hlog] at hpath
  obtain ⟨before, -, hrest⟩ := hpath.of_append
  obtain ⟨after, haccept, hrest⟩ := hrest.of_cons
  obtain ⟨now, hmid, hrest⟩ := hrest.of_append
  have hafter : after = some ⟨.waiting, false⟩ := by
    unfold Ticket.Step Ticket.next at haccept
    cases before with
    | none => simpa using haccept.symm
    | some k => simp at haccept
  subst hafter
  obtain ⟨k, rfl, haccounts, hturned⟩ := since_accepted hmid hheld
  exact ⟨k, t, haccounts, hturned, hmid, hrest, hc⟩

theorem Inv.served {s : VlanPoller} (h : Inv s) : Served s where
  polled f pre mid post hlog hheld hlisted := by
    obtain ⟨k, t, haccounts, -, -, hrest, -⟩ := h.since _ hlog hheld
    obtain ⟨after, hstep, -⟩ := hrest.of_cons
    change (if f = f then if k.progress.isOver then some none else none else _) = some after at hstep
    rw [if_pos rfl] at hstep
    cases hprogress : k.progress with
    | polled =>
      rw [hprogress] at haccounts
      exact haccounts
    | excused =>
      rw [hprogress] at haccounts
      obtain ⟨fqdns, hmem, hmissing⟩ := haccounts
      exact absurd (hlisted fqdns hmem) hmissing
    | waiting => simp [hprogress, Progress.isOver] at hstep
    | polling workers => simp [hprogress, Progress.isOver] at hstep
  turn f pre mid post hlog hawake := by
    by_contra hheld
    obtain ⟨k, t, -, hturned, -, hrest, -⟩ := h.since _ hlog hheld
    obtain ⟨after, hstep, -⟩ := hrest.of_cons
    change (if k.turned then none else some (some k)) = some after at hstep
    rw [if_pos (hturned hawake)] at hstep
    cases hstep
  pending f pre mid hlog hheld := by
    obtain ⟨k, t, -, -, hmid, hrest, hc⟩ := h.since [] (by rw [List.append_nil]; exact hlog) hheld
    cases hrest
    refine ⟨hc.waiting.mp rfl, fun hagain => ?_⟩
    obtain ⟨xs, ys, rfl⟩ := List.append_of_mem hagain
    obtain ⟨before, hxs, hys⟩ := hmid.of_append
    obtain ⟨k', rfl, -⟩ := since_accepted hxs fun hmem => hheld (List.mem_append_left _ hmem)
    obtain ⟨after, hstep, -⟩ := hys.of_cons
    change (if f = f then none else some (some k')) = some after at hstep
    rw [if_pos rfl] at hstep
    cases hstep
  accepted f hf := by
    obtain ⟨t, hpath, hc⟩ := h.tickets f
    exact accepted_of_path hpath (hc.waiting.mpr hf)

/-- A loop that sleeps begins a turn when it wakes up, unless polling is paused. -/
theorem wake_of_asleep {s : VlanPoller} (h : s.stage = .asleep) (now : Nat) :
    (s.wake true now).log = s.log ++ [.awake] ∧ (s.wake true now).stage.early = true := by
  unfold VlanPoller.wake
  rw [h]
  dsimp only
  refine ⟨rfl, ?_⟩
  simp only [if_true]
  split <;> rfl

/-- **Every request is served**: in any order of the requests, the turns of the loop and
the steps of its workers, a request that is accepted is followed by a poll that starts
after it and is completed before its release; the next turn of the loop, which begins when it
wakes up and can always end, releases it; and until then every further request is answered 409. -/
theorem vlan_poll_served (intervalMsecs : Nat) (actions : List Action) :
    let s := VlanPoller.run intervalMsecs actions
    Served s ∧ (∀ db, CanEnd intervalMsecs db s) ∧
      (s.stage = .asleep → ∀ now, (s.wake true now).log = s.log ++ [.awake] ∧ (s.wake true now).stage.early = true) ∧
      ∀ fqdn ∈ s.pending, ∀ (device : Device) (community : String), device.snmpCommunity = some community →
        deviceVlanPoll s.pending fqdn (some device) true = (s.pending, .conflict inProgress) := by
  refine ⟨(inv_run intervalMsecs actions).served, fun db => canEnd _ db _, fun h now => wake_of_asleep h now,
    fun fqdn hpending device community hcommunity => ?_⟩
  simp [deviceVlanPoll, hcommunity, hpending]

def switch : Device := ⟨1, "sw1", "lan", some "public", none, some true, none, none, none⟩

/-- The request comes while the interval cycle polls the device. -/
def pollNow : List Action :=
  [.wake true 0, .load ⟨[switch], []⟩ true true, .work 0, .post "sw1.lan" (some switch) true, .work 0, .work 0, .join 100,
    .snapshot, .load ⟨[switch], []⟩ true true, .work 0, .work 0, .work 0, .join 200, .release]

theorem vlan_poll_served_pollNow : PolledIn "sw1.lan" [.completed 0 "sw1.lan", .listed ["sw1.lan"],
    .started 0 "sw1.lan", .completed 0 "sw1.lan"] := by
  have hlog : (VlanPoller.run 60000 pollNow).log = [.awake, .listed ["sw1.lan"], .started 0 "sw1.lan"] ++
      .accepted "sw1.lan" :: ([.completed 0 "sw1.lan", .listed ["sw1.lan"], .started 0 "sw1.lan",
        .completed 0 "sw1.lan"] ++ .released "sw1.lan" :: [.asleep]) := by
    decide +kernel
  exact (vlan_poll_served 60000 pollNow).1.polled "sw1.lan" _ _ _ hlog (by simp) (by simp)

end JaspyNexus.Collectors.Vlanpoller

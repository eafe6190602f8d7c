import Mathlib
import JaspyNexus.Lib.PMap

/-! # The session policy

`run_on_cached_session` of `snmp/embedded.rs`, over any kind of session and any behaviour of
`open` and `f`. Sessions are numbered as they are opened, so that one can be told from
another; the code has no such number, since a session is owned by who holds it. -/

namespace JaspyNexus.Snmp.CachedSession
open JaspyNexus.Lib

variable {σ ρ : Type}

/-! ## Sessions -/

/-- A session and its number. -/
structure Session (σ : Type) where
  id : Nat
  state : σ

/-- The sessions that are held, and the number that the next one gets. -/
structure Cache (σ : Type) where
  held : PMap String (Session σ)
  next : Nat

/-- A session is held under one key, and was opened before. -/
structure Owned (c : Cache σ) : Prop where
  below : ∀ key s, c.held key = some s → s.id < c.next
  distinct : ∀ key key' s s', c.held key = some s → c.held key' = some s' → s.id = s'.id → key = key'

def Cache.insert (c : Cache σ) (key : String) (s : Session σ) : Cache σ :=
  { c with held := PMap.insert c.held key s }

def Cache.remove (c : Cache σ) (key : String) : Cache σ := { c with held := Function.update c.held key none }

/-- A number is given. -/
def Cache.number (c : Cache σ) : Cache σ := { c with next := c.next + 1 }

@[simp] theorem Cache.held_number (c : Cache σ) : c.number.held = c.held := rfl
@[simp] theorem Cache.next_number (c : Cache σ) : c.number.next = c.next + 1 := rfl
@[simp] theorem Cache.next_insert (c : Cache σ) (key : String) (s : Session σ) : (c.insert key s).next = c.next := rfl
@[simp] theorem Cache.next_remove (c : Cache σ) (key : String) : (c.remove key).next = c.next := rfl
@[simp] theorem Cache.held_insert_self (c : Cache σ) (key : String) (s : Session σ) :
    (c.insert key s).held key = some s := PMap.insert_self ..
@[simp] theorem Cache.held_remove_self (c : Cache σ) (key : String) : (c.remove key).held key = none :=
  Function.update_self ..

theorem Cache.held_insert_of_ne (c : Cache σ) {key key' : String} (h : key' ≠ key) (s : Session σ) :
    (c.insert key s).held key' = c.held key' := PMap.insert_of_ne _ _ h

theorem Cache.held_remove_of_ne (c : Cache σ) {key key' : String} (h : key' ≠ key) :
    (c.remove key).held key' = c.held key' := Function.update_of_ne h ..

/-! ## The code -/

/-- What `open` and `f` do when they are called for the `n`-th time. -/
structure Behaviour (σ ρ : Type) where
  opens : Nat → Except String σ
  f : Nat → σ → σ × Except String ρ

/-- What has been done. -/
inductive Event where
  | opened (id : Nat)
  | openFailed
  /-- `f` was called on the session, and failed with this text or not at all -/
  | used (id : Nat) (failure : Option String)
  deriving DecidableEq, Repr

/-- A call under way: how often it has called `open` and `f`, and what it has done. -/
structure Call (σ : Type) where
  cache : Cache σ
  opens : Nat
  uses : Nat
  log : List Event

/-- `session_desynced`. -/
def sessionDesynced (err : String) : Bool := "RequestIdMismatch".toList <:+: err.toList

def failure : Except String ρ → Option String
  | .ok _ => none
  | .error e => some e

section
variable (b : Behaviour σ ρ) (key : String)

/-- `open()`. -/
def Call.openSession (c : Call σ) : Call σ × Except String (Session σ) :=
  match b.opens c.opens with
  | .error e => ({ c with opens := c.opens + 1, log := c.log ++ [.openFailed] }, .error e)
  | .ok state =>
    ({ c with cache := c.cache.number, opens := c.opens + 1, log := c.log ++ [.opened c.cache.next] },
      .ok ⟨c.cache.next, state⟩)

/-- `f(session)`: the session as the call leaves it, and the result. -/
def Call.use (c : Call σ) (s : Session σ) : Call σ × Session σ × Except String ρ :=
  ({ c with uses := c.uses + 1, log := c.log ++ [.used s.id (failure (b.f c.uses s.state).2)] },
    ⟨s.id, (b.f c.uses s.state).1⟩, (b.f c.uses s.state).2)

/-- The session of the key, opened when there is none. -/
def Call.ensure (c : Call σ) : Call σ × Except String (Session σ) :=
  match c.cache.held key with
  | some s => (c, .ok s)
  | none =>
    match c.openSession b with
    | (c, .error e) => (c, .error e)
    | (c, .ok s) => ({ c with cache := c.cache.insert key s }, .ok s)

/-- The second attempt, on a clean session. -/
def Call.retry (c : Call σ) : Call σ × Except String ρ :=
  match c.openSession b with
  | (c, .error e) => (c, .error e)
  | (c, .ok fresh) =>
    match c.use b fresh with
    | (c, fresh, .ok v) => ({ c with cache := c.cache.insert key fresh }, .ok v)
    | (c, _, .error e) => (c, .error e)

structure Outcome (σ ρ : Type) where
  cache : Cache σ
  result : Except String ρ
  log : List Event

def Call.outcome (out : Call σ × Except String ρ) : Outcome σ ρ := ⟨out.1.cache, out.2, out.1.log⟩

/-- `run_on_cached_session`. -/
def runOnCachedSession (cache : Cache σ) : Outcome σ ρ :=
  Call.outcome <| match (⟨cache, 0, 0, []⟩ : Call σ).ensure b key with
    | (c, .error e) => (c, .error e)
    | (c, .ok session) =>
      match c.use b session with
      | (c, session, .ok v) => ({ c with cache := c.cache.insert key session }, .ok v)
      | (c, _, .error err) =>
        let c := { c with cache := c.cache.remove key }
        if sessionDesynced err then c.retry b key else (c, .error err)

end

/-- One call after another. -/
def runAll (c : Cache σ) : List (String × Behaviour σ ρ) → List Event
  | [] => []
  | (key, b) :: rest => (runOnCachedSession b key c).log ++ runAll (runOnCachedSession b key c).cache rest

/-! ## How a call goes -/

/-- The session of the key as it is found, or opened; with the cache then, what was done for
it, and how often `open` has been called. -/
inductive Acquires (c : Cache σ) (key : String) (b : Behaviour σ ρ) : Cache σ → Session σ → List Event → Nat → Prop
  | cached {s : Session σ} : c.held key = some s → Acquires c key b c s [] 0
  | opened {state : σ} : c.held key = none → b.opens 0 = .ok state →
    Acquires c key b (c.number.insert key ⟨c.next, state⟩) ⟨c.next, state⟩ [.opened c.next] 1

/-- Every way a call can go. -/
inductive Goes (c : Cache σ) (key : String) (b : Behaviour σ ρ) : Outcome σ ρ → Prop
  | unopened {e : String} : c.held key = none → b.opens 0 = .error e → Goes c key b ⟨c, .error e, [.openFailed]⟩
  | done {c' : Cache σ} {s : Session σ} {log : List Event} {n : Nat} {state : σ} {v : ρ} :
    Acquires c key b c' s log n → b.f 0 s.state = (state, .ok v) →
    Goes c key b ⟨c'.insert key ⟨s.id, state⟩, .ok v, log ++ [.used s.id none]⟩
  | failed {c' : Cache σ} {s : Session σ} {log : List Event} {n : Nat} {state : σ} {err : String} :
    Acquires c key b c' s log n → b.f 0 s.state = (state, .error err) → sessionDesynced err = false →
    Goes c key b ⟨c'.remove key, .error err, log ++ [.used s.id (some err)]⟩
  | unreopened {c' : Cache σ} {s : Session σ} {log : List Event} {n : Nat} {state : σ} {err e : String} :
    Acquires c key b c' s log n → b.f 0 s.state = (state, .error err) → sessionDesynced err = true →
    b.opens n = .error e → Goes c key b ⟨c'.remove key, .error e, log ++ [.used s.id (some err), .openFailed]⟩
  | redone {c' : Cache σ} {s : Session σ} {log : List Event} {n : Nat} {state fresh state' : σ} {err : String} {v : ρ} :
    Acquires c key b c' s log n → b.f 0 s.state = (state, .error err) → sessionDesynced err = true →
    b.opens n = .ok fresh → b.f 1 fresh = (state', .ok v) →
    Goes c key b ⟨(c'.remove key).number.insert key ⟨c'.next, state'⟩, .ok v,
      log ++ [.used s.id (some err), .opened c'.next, .used c'.next none]⟩
  | refailed {c' : Cache σ} {s : Session σ} {log : List Event} {n : Nat} {state fresh state' : σ} {err e : String} :
    Acquires c key b c' s log n → b.f 0 s.state = (state, .error err) → sessionDesynced err = true →
    b.opens n = .ok fresh → b.f 1 fresh = (state', .error e) →
    Goes c key b ⟨(c'.remove key).number, .error e,
      log ++ [.used s.id (some err), .opened c'.next, .used c'.next (some e)]⟩

/-- With the session at hand. -/
theorem goes_of_acquires {c c' : Cache σ} {key : String} {b : Behaviour σ ρ} {s : Session σ} {log : List Event}
    {n : Nat} (h : Acquires c key b c' s log n) : Goes c key b (Call.outcome
      (match (⟨c', n, 0, log⟩ : Call σ).use b s with
      | (c, session, .ok v) => ({ c with cache := c.cache.insert key session }, .ok v)
      | (c, _, .error err) =>
        let c := { c with cache := c.cache.remove key }
        if sessionDesynced err then c.retry b key else (c, .error err))) := by
  rcases hf : b.f 0 s.state with ⟨state, result⟩
  cases result with
  | ok v =>
    simp only [Call.use, hf, Call.outcome, failure]
    exact .done h hf
  | error err =>
    simp only [Call.use, hf, failure]
    cases hd : sessionDesynced err with
    | false =>
      simp only [Bool.false_eq_true, if_false, Call.outcome]
      exact .failed h hf hd
    | true =>
      simp only [if_true, Call.retry, Call.openSession]
      cases ho : b.opens n with
      | error e =>
        simp only [Call.outcome, List.append_assoc, List.singleton_append]
        exact .unreopened h hf hd ho
      | ok fresh =>
        rcases hf' : b.f 1 fresh with ⟨state', result⟩
        cases result with
        | ok v =>
          simp only [Call.use, hf', Call.outcome, failure, List.append_assoc,
            List.cons_append, Nat.zero_add]
          exact .redone h hf hd ho hf'
        | error e =>
          simp only [Call.use, hf', Call.outcome, failure, List.append_assoc,
            List.cons_append, Nat.zero_add]
          exact .refailed h hf hd ho hf'

theorem run_goes (c : Cache σ) (key : String) (b : Behaviour σ ρ) : Goes c key b (runOnCachedSession b key c) := by
  unfold runOnCachedSession Call.ensure
  cases hheld : c.held key with
  | some s => exact goes_of_acquires (.cached hheld)
  | none =>
    dsimp only [Call.openSession]
    cases ho : b.opens 0 with
    | error e => exact .unopened hheld ho
    | ok state => exact goes_of_acquires (.opened hheld ho)

/-! ## Ownership -/

theorem held_of_inserted {c : Cache σ} {key key' : String} {s s' : Session σ}
    (h : (c.insert key s).held key' = some s') : key' = key ∧ s' = s ∨ key' ≠ key ∧ c.held key' = some s' := by
  by_cases hkey : key' = key
  · subst hkey
    rw [Cache.held_insert_self] at h
    exact .inl ⟨rfl, (Option.some.inj h).symm⟩
  · rw [Cache.held_insert_of_ne c hkey] at h
    exact .inr ⟨hkey, h⟩

theorem Owned.insert {c : Cache σ} (h : Owned c) {key : String} {s : Session σ} (hid : s.id < c.next)
    (hother : ∀ key' s', key' ≠ key → c.held key' = some s' → s'.id ≠ s.id) : Owned (c.insert key s) := by
  refine ⟨fun key' s' hs' => ?_, fun key₁ key₂ s₁ s₂ h₁ h₂ heq => ?_⟩
  · rcases held_of_inserted hs' with ⟨-, rfl⟩ | ⟨-, hs'⟩
    · exact hid
    · exact h.below key' s' hs'
  · rcases held_of_inserted h₁ with ⟨hkey₁, hs₁⟩ | ⟨hne₁, hold₁⟩
    · rcases held_of_inserted h₂ with ⟨hkey₂, -⟩ | ⟨hne₂, hold₂⟩
      · exact hkey₁.trans hkey₂.symm
      · exact absurd (heq.symm.trans (congrArg Session.id hs₁)) (hother key₂ s₂ hne₂ hold₂)
    · rcases held_of_inserted h₂ with ⟨-, hs₂⟩ | ⟨-, hold₂⟩
      · exact absurd (heq.trans (congrArg Session.id hs₂)) (hother key₁ s₁ hne₁ hold₁)
      · exact h.distinct key₁ key₂ s₁ s₂ hold₁ hold₂ heq

theorem held_of_removed {c : Cache σ} {key key' : String} {s : Session σ} (h : (c.remove key).held key' = some s) :
    key' ≠ key ∧ c.held key' = some s := by
  by_cases hkey : key' = key
  · subst hkey
    rw [Cache.held_remove_self] at h
    cases h
  · rw [Cache.held_remove_of_ne c hkey] at h
    exact ⟨hkey, h⟩

theorem Owned.remove {c : Cache σ} (h : Owned c) (key : String) : Owned (c.remove key) :=
  ⟨fun key' s hs => h.below key' s (held_of_removed hs).2,
    fun key₁ key₂ s₁ s₂ h₁ h₂ => h.distinct key₁ key₂ s₁ s₂ (held_of_removed h₁).2 (held_of_removed h₂).2⟩

theorem Owned.number {c : Cache σ} (h : Owned c) : Owned c.number :=
  ⟨fun key s hs => (h.below key s hs).trans (Nat.lt_succ_self _), h.distinct⟩

/-- A number just given is that of a session nobody holds. -/
theorem Owned.insert_new {c : Cache σ} (h : Owned c) (key : String) (state : σ) :
    Owned (c.number.insert key ⟨c.next, state⟩) :=
  h.number.insert (Nat.lt_succ_self _) fun key' s' _ hs' => (h.below key' s' hs').ne

/-- What a call has when it has a session. -/
structure Acquired (c : Cache σ) (key : String) (c' : Cache σ) (s : Session σ) : Prop where
  owned : Owned c'
  held : c'.held key = some s
  others : ∀ key', key' ≠ key → c'.held key' = c.held key'
  next_le : c.next ≤ c'.next

theorem Acquires.acquired {c c' : Cache σ} {key : String} {b : Behaviour σ ρ} {s : Session σ} {log : List Event} {n : Nat}
    (h : Acquires c key b c' s log n) (ho : Owned c) : Acquired c key c' s := by
  cases h with
  | cached hheld => exact ⟨ho, hheld, fun _ _ => rfl, le_rfl⟩
  | opened => exact ⟨ho.insert_new key _, Cache.held_insert_self .., fun _ hne => Cache.held_insert_of_ne _ hne _,
      Nat.le_succ _⟩

/-- The session's state may change while it is used. -/
theorem Acquired.owned_insert {c c' : Cache σ} {key : String} {s : Session σ} (h : Acquired c key c' s) (state : σ) :
    Owned (c'.insert key ⟨s.id, state⟩) :=
  h.owned.insert (h.owned.below key s h.held) fun key' s' hne hs' heq => hne (h.owned.distinct key' key s' s hs' h.held heq)

/-- **No session is ever held twice.** -/
theorem Goes.owned {c : Cache σ} {key : String} {b : Behaviour σ ρ} {out : Outcome σ ρ} (h : Goes c key b out)
    (ho : Owned c) : Owned out.cache := by
  cases h with
  | unopened => exact ho
  | done h => exact (h.acquired ho).owned_insert _
  | failed h | unreopened h => exact (h.acquired ho).owned.remove key
  | redone h => exact ((h.acquired ho).owned.remove key).insert_new key _
  | refailed h => exact ((h.acquired ho).owned.remove key).number

/-! ## Sessions that are gone -/

/-- The session was opened, and nobody holds it. -/
structure Gone (id : Nat) (c : Cache σ) : Prop where
  opened : id < c.next
  not_held : ∀ key s, c.held key = some s → s.id ≠ id

theorem Gone.insert {id : Nat} {c : Cache σ} (h : Gone id c) {key : String} {s : Session σ} (hid : s.id ≠ id) :
    Gone id (c.insert key s) := by
  refine ⟨h.opened, fun key' s' hs' => ?_⟩
  rcases held_of_inserted hs' with ⟨-, rfl⟩ | ⟨-, hs'⟩
  · exact hid
  · exact h.not_held key' s' hs'

theorem Gone.remove {id : Nat} {c : Cache σ} (h : Gone id c) (key : String) : Gone id (c.remove key) :=
  ⟨h.opened, fun key' s hs => h.not_held key' s (held_of_removed hs).2⟩

theorem Gone.number {id : Nat} {c : Cache σ} (h : Gone id c) : Gone id c.number :=
  ⟨h.opened.trans (Nat.lt_succ_self _), h.not_held⟩

/-- The session of a key is gone when the key is removed. -/
theorem Acquired.gone {c c' : Cache σ} {key : String} {s : Session σ} (h : Acquired c key c' s) :
    Gone s.id (c'.remove key) := by
  refine ⟨h.owned.below key s h.held, fun key' s' hs' heq => ?_⟩
  obtain ⟨hne, hs'⟩ := held_of_removed hs'
  exact hne (h.owned.distinct key' key s' s hs' h.held heq)

theorem Acquires.gone {id : Nat} {c c' : Cache σ} {key : String} {b : Behaviour σ ρ} {s : Session σ} {log : List Event}
    {n : Nat} (h : Acquires c key b c' s log n) (hg : Gone id c) :
    Gone id c' ∧ s.id ≠ id ∧ ∀ outcome, .used id outcome ∉ log := by
  cases h with
  | cached hheld => exact ⟨hg, hg.not_held key s hheld, fun _ => List.not_mem_nil⟩
  | opened => exact ⟨hg.number.insert hg.opened.ne', hg.opened.ne', by simp⟩

/-- **A session that is gone stays so**, and is not used. -/
theorem Goes.gone {id : Nat} {c : Cache σ} {key : String} {b : Behaviour σ ρ} {out : Outcome σ ρ} (h : Goes c key b out)
    (hg : Gone id c) : Gone id out.cache ∧ ∀ outcome, .used id outcome ∉ out.log := by
  cases h with
  | unopened => exact ⟨hg, by simp⟩
  | done h =>
    obtain ⟨hg, hne, hlog⟩ := h.gone hg
    exact ⟨hg.insert hne, by simp [hlog, hne.symm]⟩
  | failed h | unreopened h =>
    obtain ⟨hg, hne, hlog⟩ := h.gone hg
    exact ⟨hg.remove key, by simp [hlog, hne.symm]⟩
  | redone h =>
    obtain ⟨hg, hne, hlog⟩ := h.gone hg
    exact ⟨(hg.remove key).number.insert hg.opened.ne', by simp [hlog, hne.symm, hg.opened.ne]⟩
  | refailed h =>
    obtain ⟨hg, hne, hlog⟩ := h.gone hg
    exact ⟨(hg.remove key).number, by simp [hlog, hne.symm, hg.opened.ne]⟩

theorem gone_runAll {id : Nat} {c : Cache σ} (hg : Gone id c) (calls : List (String × Behaviour σ ρ)) (outcome : Option String) :
    .used id outcome ∉ runAll c calls := by
  induction calls generalizing c with
  | nil => exact List.not_mem_nil
  | cons call rest ih =>
    obtain ⟨hg, hlog⟩ := (run_goes c call.1 call.2).gone hg
    rw [runAll, List.mem_append, not_or]
    exact ⟨hlog outcome, ih hg⟩

/-! ## The policy -/

def Event.isOpen : Event → Bool
  | .opened _ | .openFailed => true
  | .used _ _ => false

/-- The sessions that were used, and what came of it. -/
def usesOf (log : List Event) : List (Nat × Option String) :=
  log.filterMap fun
    | .used id failure => some (id, failure)
    | _ => none

structure Policy (c : Cache σ) (key : String) (b : Behaviour σ ρ) (out : Outcome σ ρ) : Prop where
  opens : out.log.countP Event.isOpen ≤ 2
  uses : (usesOf out.log).length ≤ 2
  /-- the session held is the one used last, as that use has left it -/
  ok : ∀ v, out.result = .ok v → ∃ s, out.cache.held key = some s ∧ out.log.getLast? = some (.used s.id none) ∧
    ∃ n before, b.f n before = (s.state, .ok v)
  error : ∀ e, out.result = .error e → out.cache.held key = none
  /-- neither held under any key nor used again, by this call or a later one -/
  failed : ∀ id err, .used id (some err) ∈ out.log → (∀ key' s, out.cache.held key' = some s → s.id ≠ id) ∧
    ∀ (calls : List (String × Behaviour σ ρ)) outcome, .used id outcome ∉ runAll out.cache calls
  once : (usesOf out.log).Pairwise fun u u' => u.2 ≠ none → u'.1 ≠ u.1
  retry : ∀ u u', usesOf out.log = [u, u'] → ∃ before err, u.2 = some err ∧ sessionDesynced err = true ∧
    out.log = before ++ [.used u.1 u.2, .opened u'.1, .used u'.1 u'.2]
  others : ∀ key', key' ≠ key → out.cache.held key' = c.held key'

/-- What has been done before the first use: one `open` at most. -/
theorem Acquires.log {c c' : Cache σ} {key : String} {b : Behaviour σ ρ} {s : Session σ} {log : List Event} {n : Nat}
    (h : Acquires c key b c' s log n) : log = [] ∨ log = [.opened s.id] := by
  cases h with
  | cached => exact .inl rfl
  | opened => exact .inr rfl

/-- The session that a call opened last, and no longer holds. -/
theorem Acquired.gone_fresh {c c' : Cache σ} {key : String} {s : Session σ} (h : Acquired c key c' s) :
    Gone c'.next (c'.remove key).number :=
  ⟨Nat.lt_succ_self _, fun key' s' hs' => (h.owned.below key' s' (held_of_removed hs').2).ne⟩

/-- A session on which `f` failed is gone when the call returns. -/
theorem Goes.failed_gone {c : Cache σ} {key : String} {b : Behaviour σ ρ} {out : Outcome σ ρ} (h : Goes c key b out)
    (ho : Owned c) {id : Nat} {err : String} (hused : .used id (some err) ∈ out.log) : Gone id out.cache := by
  have huses : (id, some err) ∈ usesOf out.log := List.mem_filterMap.mpr ⟨_, hused, rfl⟩
  cases h with
  | unopened => cases huses
  | done h => rcases h.log with rfl | rfl <;> simp [usesOf] at huses
  | failed h | unreopened h =>
    obtain ⟨rfl, -⟩ : id = _ ∧ err = _ := by rcases h.log with rfl | rfl <;> simpa [usesOf] using huses
    exact (h.acquired ho).gone
  | redone h =>
    obtain ⟨rfl, -⟩ : id = _ ∧ err = _ := by rcases h.log with rfl | rfl <;> simpa [usesOf] using huses
    exact (h.acquired ho).gone.number.insert (h.acquired ho).gone.opened.ne'
  | @refailed c' s _ _ _ _ _ err' e h =>
    have hid : (id = s.id ∧ err = err') ∨ (id = c'.next ∧ err = e) := by
      rcases h.log with rfl | rfl <;> simpa [usesOf] using huses
    rcases hid with ⟨rfl, -⟩ | ⟨rfl, -⟩
    · exact (h.acquired ho).gone.number
    · exact (h.acquired ho).gone_fresh

theorem Goes.others {c : Cache σ} {key : String} {b : Behaviour σ ρ} {out : Outcome σ ρ} (h : Goes c key b out)
    (ho : Owned c) {key' : String} (hne : key' ≠ key) : out.cache.held key' = c.held key' := by
  cases h with
  | unopened => rfl
  | done h => rw [Cache.held_insert_of_ne _ hne, (h.acquired ho).others key' hne]
  | failed h | unreopened h => rw [Cache.held_remove_of_ne _ hne, (h.acquired ho).others key' hne]
  | redone h =>
    rw [Cache.held_insert_of_ne _ hne, Cache.held_number, Cache.held_remove_of_ne _ hne,
      (h.acquired ho).others key' hne]
  | refailed h => rw [Cache.held_number, Cache.held_remove_of_ne _ hne, (h.acquired ho).others key' hne]

theorem Goes.opens_le {c : Cache σ} {key : String} {b : Behaviour σ ρ} {out : Outcome σ ρ} (h : Goes c key b out) :
    out.log.countP Event.isOpen ≤ 2 := by
  cases h with
  | unopened => simp [Event.isOpen, List.countP_cons]
  | done h | failed h | unreopened h | redone h | refailed h =>
    rcases h.log with rfl | rfl <;> simp [Event.isOpen, List.countP_cons]

theorem Goes.uses_le {c : Cache σ} {key : String} {b : Behaviour σ ρ} {out : Outcome σ ρ} (h : Goes c key b out) :
    (usesOf out.log).length ≤ 2 := by
  cases h with
  | unopened => exact Nat.zero_le 2
  | done h | failed h | unreopened h | redone h | refailed h => rcases h.log with rfl | rfl <;> simp [usesOf]

/-- The second use is of a session just opened, and the first found the other desynchronized. -/
theorem Goes.retried {c : Cache σ} {key : String} {b : Behaviour σ ρ} {out : Outcome σ ρ} (h : Goes c key b out)
    {u u' : Nat × Option String} (hu : usesOf out.log = [u, u']) : ∃ before err, u.2 = some err ∧
      sessionDesynced err = true ∧ out.log = before ++ [.used u.1 u.2, .opened u'.1, .used u'.1 u'.2] := by
  cases h with
  | unopened => cases hu
  | done h | failed h | unreopened h => rcases h.log with rfl | rfl <;> simp [usesOf] at hu
  | @redone c' s log _ _ _ _ err _ h _ hd =>
    obtain ⟨rfl, rfl⟩ : u = (s.id, some err) ∧ u' = (c'.next, none) := by
      rcases h.log with rfl | rfl <;> simpa [usesOf, eq_comm] using hu
    exact ⟨log, err, rfl, hd, rfl⟩
  | @refailed c' s log _ _ _ _ err e h _ hd =>
    obtain ⟨rfl, rfl⟩ : u = (s.id, some err) ∧ u' = (c'.next, some e) := by
      rcases h.log with rfl | rfl <;> simpa [usesOf, eq_comm] using hu
    exact ⟨log, err, rfl, hd, rfl⟩

/-- A session that failed is not the one used next. -/
theorem Goes.once {c : Cache σ} {key : String} {b : Behaviour σ ρ} {out : Outcome σ ρ} (h : Goes c key b out)
    (ho : Owned c) : (usesOf out.log).Pairwise fun u u' => u.2 ≠ none → u'.1 ≠ u.1 := by
  cases h with
  | unopened => exact List.Pairwise.nil
  | done h | failed h | unreopened h => rcases h.log with rfl | rfl <;> exact List.pairwise_singleton _ _
  | redone h | refailed h =>
    have hne := (h.acquired ho).gone.opened.ne'
    rcases h.log with rfl | rfl <;> exact List.pairwise_pair.mpr fun _ => hne

theorem Goes.error_not_held {c : Cache σ} {key : String} {b : Behaviour σ ρ} {out : Outcome σ ρ} (h : Goes c key b out)
    {e : String} (he : out.result = .error e) : out.cache.held key = none := by
  cases h with
  | unopened hnone => exact hnone
  | done | redone => cases he
  | failed | unreopened => exact Cache.held_remove_self ..
  | refailed => rw [Cache.held_number, Cache.held_remove_self]

theorem Goes.ok_held {c : Cache σ} {key : String} {b : Behaviour σ ρ} {out : Outcome σ ρ} (h : Goes c key b out)
    {v : ρ} (hv : out.result = .ok v) : ∃ s, out.cache.held key = some s ∧
      out.log.getLast? = some (.used s.id none) ∧ ∃ n before, b.f n before = (s.state, .ok v) := by
  cases h with
  | unopened | failed | unreopened | refailed => cases hv
  | done h hf =>
    cases hv
    exact ⟨_, Cache.held_insert_self .., List.getLast?_concat, 0, _, hf⟩
  | redone h _ _ _ hf =>
    cases hv
    exact ⟨_, Cache.held_insert_self .., by simp, 1, _, hf⟩

/-- **Every path keeps the policy**, whatever `open` and `f` do. -/
theorem runOnCachedSession_policy (c : { c : Cache σ // Owned c }) (key : String) (b : Behaviour σ ρ) :
    Policy c.val key b (runOnCachedSession b key c.val) := by
  have hgoes := run_goes c.val key b
  refine ⟨hgoes.opens_le, hgoes.uses_le, fun v hv => hgoes.ok_held hv, fun e he => hgoes.error_not_held he,
    fun id err hused => ?_, hgoes.once c.property, fun u u' hu => hgoes.retried hu,
    fun key' hne => hgoes.others c.property hne⟩
  have hgone := hgoes.failed_gone c.property hused
  exact ⟨hgone.not_held, fun calls outcome => gone_runAll hgone calls outcome⟩

/-- Nothing was opened yet. -/
def Cache.empty : Cache σ := ⟨PMap.empty, 0⟩

theorem owned_empty : Owned (Cache.empty : Cache σ) where
  below _ _ h := by cases h
  distinct _ _ _ _ h := by cases h

/-- Every attempt is answered, but for the first when it is not. -/
def answering (first : Option String) : Behaviour Nat Nat where
  opens n := .ok n
  f n state := (state + 1, if n = 0 then first.elim (.ok state) .error else .ok state)

/-- The session of the first poll. -/
def polledOnce : { c : Cache Nat // Owned c } :=
  ⟨(runOnCachedSession (answering none) "sw1" Cache.empty).cache, (run_goes _ "sw1" (answering none)).owned owned_empty⟩

theorem runOnCachedSession_policy_polledOnce :
    usesOf (runOnCachedSession (answering (some "RequestIdMismatch")) "sw1" polledOnce.val).log =
        [(0, some "RequestIdMismatch"), (1, none)] ∧
      Policy polledOnce.val "sw1" (answering (some "RequestIdMismatch"))
        (runOnCachedSession (answering (some "RequestIdMismatch")) "sw1" polledOnce.val) :=
  ⟨by decide +kernel, runOnCachedSession_policy polledOnce "sw1" (answering (some "RequestIdMismatch"))⟩

end JaspyNexus.Snmp.CachedSession

import Mathlib
import JaspyNexus.Lib.HashMap
import JaspyNexus.Lib.Runs
import JaspyNexus.Lib.SetAt
import JaspyNexus.Lib.Text

/-! # The counters of the polls

`utilities/pollstats.rs`: counters for each device and query, behind a lock that is held to
find them only. A call that has found its counters adds to them when it gets to it, whatever
the registry has become. The atomics wrap at 2^64. -/

namespace JaspyNexus.Utilities.QueryStats
open JaspyNexus.Lib

inductive SnmpOutcome where
  | ok
  | error
  | timeout
  deriving DecidableEq, Repr

structure QueryCounters where
  requests : Nat
  values : Nat
  errors : Nat
  timeouts : Nat
  nanos : Nat
  deriving DecidableEq, Repr

inductive Counter where
  | requests
  | values
  | errors
  | timeouts
  | nanos
  deriving DecidableEq, Repr

namespace QueryCounters
variable (counters : QueryCounters)

def default : QueryCounters := ⟨0, 0, 0, 0, 0⟩

def get : Counter → Nat
  | .requests => counters.requests
  | .values => counters.values
  | .errors => counters.errors
  | .timeouts => counters.timeouts
  | .nanos => counters.nanos

/-- `fetch_add` on one of them, which wraps. -/
def fetchAdd (n : Nat) : Counter → QueryCounters
  | .requests => { counters with requests := (counters.requests + n) % 2 ^ 64 }
  | .values => { counters with values := (counters.values + n) % 2 ^ 64 }
  | .errors => { counters with errors := (counters.errors + n) % 2 ^ 64 }
  | .timeouts => { counters with timeouts := (counters.timeouts + n) % 2 ^ 64 }
  | .nanos => { counters with nanos := (counters.nanos + n) % 2 ^ 64 }

/-- `snapshot`. -/
def snapshot : List Nat :=
  [counters.requests, counters.values, counters.errors, counters.timeouts, counters.nanos]

end QueryCounters

/-- What `record` is called with. -/
structure Request where
  fqdn : String
  query : String
  outcome : SnmpOutcome
  values : Nat
  nanos : Nat
  deriving DecidableEq, Repr

def separator : Char := '\u001f'

def makeKey (fqdn query : String) : String := fqdn ++ String.singleton separator ++ query

def Request.key (r : Request) : String := makeKey r.fqdn r.query

/-- What `record_in` adds, in its order. -/
def Request.adds (r : Request) : List (Counter × Nat) :=
  match r.outcome with
  | .ok => [(.requests, 1), (.values, r.values), (.nanos, r.nanos)]
  | .error => [(.requests, 1), (.errors, 1), (.nanos, r.nanos)]
  | .timeout => [(.requests, 1), (.timeouts, 1)]

/-- The device of a key: what stands before the first separator. -/
def keyFqdn (key : String) : String := ((Text.split key separator).head?).getD ""

theorem keyFqdn_makeKey {fqdn : String} (h : separator ∉ fqdn.toList) (query : String) :
    keyFqdn (makeKey fqdn query) = fqdn := by
  rw [keyFqdn, makeKey, Text.split_append, Text.split_eq_singleton h]
  rfl

/-- A call of `record`. -/
inductive Call where
  /-- it has not found its counters under the read lock -/
  | missed (r : Request)
  /-- it has them, and what is left to add -/
  | holding (id : Nat) (adds : List (Counter × Nat))
  deriving DecidableEq, Repr

/-- The registry says which of the counters are in use; the others live on in the calls that hold them. -/
structure Pollstats where
  registry : HashMap String Nat
  counters : List QueryCounters
  calls : List Call

inductive StatsAction where
  /-- a call, to the end of its read lock -/
  | record (r : Request)
  /-- the next step of a call: the write lock, or one `fetch_add` -/
  | turn (i : Nat)
  | retain (monitored : List String)
  deriving DecidableEq, Repr

namespace Pollstats
variable (s : Pollstats)

def new : Pollstats := ⟨∅, [], []⟩

/-- The read lock of `get_or_create`. -/
def find (r : Request) : Call :=
  match s.registry.lookup r.key with
  | some id => .holding id r.adds
  | none => .missed r

/-- Its write lock: the counters of the key, which may have come since, or new ones. -/
def create (i : Nat) (r : Request) : Pollstats :=
  match s.registry.lookup r.key with
  | some id => { s with calls := s.calls.set i (.holding id r.adds) }
  | none =>
    { registry := s.registry.insert r.key s.counters.length
      counters := s.counters ++ [.default]
      calls := s.calls.set i (.holding s.counters.length r.adds) }

/-- `retain_in`. -/
def retain (monitored : List String) : Pollstats :=
  { s with registry := s.registry.retain fun key _ => monitored.contains (keyFqdn key) }

def step (s : Pollstats) : StatsAction → Pollstats
  | .record r => { s with calls := s.calls ++ [s.find r] }
  | .turn i =>
    match s.calls[i]? with
    | some (.missed r) => s.create i r
    | some (.holding id ((counter, n) :: adds)) =>
      { s with
        counters := s.counters.modify id fun counters => counters.fetchAdd n counter
        calls := s.calls.set i (.holding id adds) }
    | _ => s
  | .retain monitored => s.retain monitored

def run (s : Pollstats) (actions : List StatsAction) : Pollstats := actions.foldl step s

end Pollstats

/-! ## What is booked under a key -/

/-- What some additions make of a counter. -/
def sumOf (adds : List (Counter × Nat)) (c : Counter) : Nat :=
  (adds.map fun add => if add.1 = c then add.2 else 0).sum

/-- What a call has left to add under a key whose counters are `here`. -/
def Call.left (key : String) (here : Option Nat) (c : Counter) : Call → Nat
  | .missed r => if r.key = key then sumOf r.adds c else 0
  | .holding id adds => if here = some id then sumOf adds c else 0

namespace Pollstats
variable (s : Pollstats)

/-- What a scrape finds under a key. -/
def value (key : String) (c : Counter) : Nat :=
  ((s.registry.lookup key).bind fun id => s.counters[id]?).elim 0 (·.get c)

/-- The value, with what is on its way to it. -/
def booked (key : String) (c : Counter) : Nat :=
  s.value key c + (s.calls.map (Call.left key (s.registry.lookup key) c)).sum

/-- Every call is through. -/
def Settled : Prop := ∀ call ∈ s.calls, ∃ id, call = .holding id []

end Pollstats

namespace StatsAction

/-- What an action is to add under a key. -/
def books (key : String) (c : Counter) : StatsAction → Nat
  | .record r => if r.key = key then sumOf r.adds c else 0
  | .turn _ | .retain _ => 0

/-- It does not drop the device of the key. -/
def Keeps (key : String) : StatsAction → Prop
  | .retain monitored => keyFqdn key ∈ monitored
  | .record _ | .turn _ => True

end StatsAction

/-- What a run is to add. -/
def recorded (actions : List StatsAction) (key : String) (c : Counter) : Nat :=
  (actions.map (StatsAction.books key c)).sum

/-! ## What an action does -/

/-- The ways on. -/
inductive Does (s : Pollstats) : StatsAction → Pollstats → Prop where
  | records (r : Request) : Does s (.record r) { s with calls := s.calls ++ [s.find r] }
  | finds {i id : Nat} {r : Request} (hi : s.calls[i]? = some (.missed r)) (hkey : s.registry.lookup r.key = some id) :
      Does s (.turn i) { s with calls := s.calls.set i (.holding id r.adds) }
  | creates {i : Nat} {r : Request} (hi : s.calls[i]? = some (.missed r)) (hkey : s.registry.lookup r.key = none) :
      Does s (.turn i) ⟨s.registry.insert r.key s.counters.length, s.counters ++ [.default],
        s.calls.set i (.holding s.counters.length r.adds)⟩
  | adds {i id n : Nat} {c : Counter} {rest : List (Counter × Nat)}
      (hi : s.calls[i]? = some (.holding id ((c, n) :: rest))) :
      Does s (.turn i) ⟨s.registry, s.counters.modify id fun counters => counters.fetchAdd n c,
        s.calls.set i (.holding id rest)⟩
  | idles (i : Nat) : Does s (.turn i) s
  | retains (monitored : List String) : Does s (.retain monitored) (s.retain monitored)

theorem does_step (s : Pollstats) (a : StatsAction) : Does s a (s.step a) := by
  unfold Pollstats.step
  split
  · exact .records _
  · split
    · next i r hi =>
      unfold Pollstats.create
      split
      · next id hkey => exact .finds hi hkey
      · next hkey => exact .creates hi hkey
    · next hi => exact .adds hi
    · exact .idles _
  · exact .retains _

/-- The counters that are held exist, no two keys share theirs, and each has 64 bits. -/
structure Pollstats.Inv (s : Pollstats) : Prop where
  live : ∀ key id, s.registry.lookup key = some id → id < s.counters.length
  held : ∀ id adds, Call.holding id adds ∈ s.calls → id < s.counters.length
  distinct : ∀ key key' id, s.registry.lookup key = some id → s.registry.lookup key' = some id → key = key'
  bounded : ∀ counters ∈ s.counters, ∀ c, counters.get c < 2 ^ 64

section
variable {s s' : Pollstats} {a : StatsAction} {key : String} {c : Counter}

theorem Pollstats.inv_new : Pollstats.new.Inv where
  live _ _ := nofun
  held _ _ := nofun
  distinct _ _ _ := nofun
  bounded _ := nofun

theorem QueryCounters.get_fetchAdd_lt {counters : QueryCounters} (h : ∀ c, counters.get c < 2 ^ 64) (n : Nat)
    (c' c : Counter) : (counters.fetchAdd n c').get c < 2 ^ 64 := by
  have hc := h c
  have hwraps : ∀ m, m % 2 ^ 64 < 2 ^ 64 := fun m => Nat.mod_lt m (by positivity)
  cases c' <;> cases c <;> first | exact hc | exact hwraps _

theorem Pollstats.Inv.does (h : s.Inv) (hdoes : Does s a s') : s'.Inv := by
  cases hdoes with
  | idles i => exact h
  | records r =>
    refine ⟨h.live, fun id adds hmem => ?_, h.distinct, h.bounded⟩
    rcases List.mem_append.mp hmem with hmem | hmem
    · exact h.held id adds hmem
    · rw [List.mem_singleton] at hmem
      rcases hkey : s.registry.lookup r.key with _ | id'
      · rw [Pollstats.find, hkey] at hmem
        cases hmem
      · rw [Pollstats.find, hkey] at hmem
        cases hmem
        exact h.live _ _ hkey
  | @finds i id r hi hkey =>
    refine ⟨h.live, fun id' adds hmem => ?_, h.distinct, h.bounded⟩
    rcases List.mem_or_eq_of_mem_set hmem with hmem | hmem
    · exact h.held id' adds hmem
    · cases hmem
      exact h.live _ _ hkey
  | @creates i r hi hkey =>
    have hlength : (s.counters ++ [QueryCounters.default]).length = s.counters.length + 1 := List.length_append
    refine ⟨fun key id hid => ?_, fun id adds hmem => ?_, fun key key' id hid hid' => ?_, fun counters hmem c => ?_⟩
    · rw [hlength]
      by_cases hsame : key = r.key
      · rw [hsame, AList.lookup_insert] at hid
        cases hid
        exact Nat.lt_succ_self _
      · rw [AList.lookup_insert_ne hsame] at hid
        exact Nat.lt_succ_of_lt (h.live key id hid)
    · rw [hlength]
      rcases List.mem_or_eq_of_mem_set hmem with hmem | hmem
      · exact Nat.lt_succ_of_lt (h.held id adds hmem)
      · cases hmem
        exact Nat.lt_succ_self _
    · have hnew : ∀ other, other ≠ r.key → (s.registry.insert r.key s.counters.length).lookup other ≠
          some s.counters.length := by
        intro other hother hlookup
        rw [AList.lookup_insert_ne hother] at hlookup
        exact absurd (h.live other _ hlookup) (Nat.lt_irrefl _)
      by_cases hsame : key = r.key <;> by_cases hsame' : key' = r.key
      · rw [hsame, hsame']
      · rw [hsame, AList.lookup_insert] at hid
        cases hid
        exact absurd hid' (hnew key' hsame')
      · rw [hsame', AList.lookup_insert] at hid'
        cases hid'
        exact absurd hid (hnew key hsame)
      · rw [AList.lookup_insert_ne hsame] at hid
        rw [AList.lookup_insert_ne hsame'] at hid'
        exact h.distinct key key' id hid hid'
    · rcases List.mem_append.mp hmem with hmem | hmem
      · exact h.bounded counters hmem c
      · rw [List.mem_singleton.mp hmem]
        cases c <;> exact Nat.two_pow_pos 64
  | @adds i id n c rest hi =>
    refine ⟨fun key id' hid => ?_, fun id' adds hmem => ?_, h.distinct, fun counters hmem c' => ?_⟩
    · exact (h.live key id' hid).trans_eq (List.length_modify _ _ _).symm
    · refine lt_of_lt_of_eq ?_ (List.length_modify _ _ _).symm
      rcases List.mem_or_eq_of_mem_set hmem with hmem | hmem
      · exact h.held id' adds hmem
      · cases hmem
        exact h.held id _ (List.mem_of_getElem? hi)
    · obtain ⟨k, hk⟩ := List.mem_iff_getElem?.mp hmem
      rw [List.getElem?_modify] at hk
      obtain ⟨old, hold, heq⟩ := Option.map_eq_some_iff.mp hk
      have hbounded := h.bounded old (List.mem_of_getElem? hold)
      split at heq
      · rw [← heq]
        exact QueryCounters.get_fetchAdd_lt hbounded n c c'
      · rw [← heq]
        exact hbounded c'
  | retains monitored =>
    have hkept : ∀ key id, (s.retain monitored).registry.lookup key = some id → s.registry.lookup key = some id := by
      intro key id hid
      rw [Pollstats.retain, HashMap.lookup_retain, Option.filter_eq_some_iff] at hid
      exact hid.1
    exact ⟨fun key id hid => h.live key id (hkept key id hid), h.held,
      fun key key' id hid hid' => h.distinct key key' id (hkept key id hid) (hkept key' id hid'), h.bounded⟩

theorem Pollstats.inv_run (actions : List StatsAction) : (Pollstats.new.run actions).Inv :=
  Runs.foldl_inv Pollstats.Inv (fun s a h => h.does (does_step s a)) actions Pollstats.inv_new

/-- The keys are those of requests. -/
theorem Pollstats.keyed_run (actions : List StatsAction) :
    ∀ key id, (Pollstats.new.run actions).registry.lookup key = some id → ∃ r : Request, r.key = key := by
  refine Runs.foldl_inv (fun s : Pollstats => ∀ key id, s.registry.lookup key = some id → ∃ r : Request, r.key = key)
    (fun s a h => ?_) actions (fun _ _ => nofun)
  have hdoes := does_step s a
  generalize s.step a = s' at hdoes
  cases hdoes with
  | @creates i r hi hkey =>
    intro key id hid
    by_cases hsame : key = r.key
    · exact ⟨r, hsame.symm⟩
    · rw [AList.lookup_insert_ne hsame] at hid
      exact h key id hid
  | retains monitored =>
    intro key id hid
    rw [Pollstats.retain, HashMap.lookup_retain, Option.filter_eq_some_iff] at hid
    exact h key id hid.1
  | _ => exact h

/-! ## Nothing is lost or counted twice -/

theorem QueryCounters.get_fetchAdd (counters : QueryCounters) (n : Nat) (c' c : Counter) :
    (counters.fetchAdd n c').get c = if c' = c then (counters.get c + n) % 2 ^ 64 else counters.get c := by
  cases c' <;> cases c <;> rfl

theorem sumOf_cons (c' : Counter) (n : Nat) (rest : List (Counter × Nat)) (c : Counter) :
    sumOf ((c', n) :: rest) c = (if c' = c then n else 0) + sumOf rest c := by
  rw [sumOf, List.map_cons, List.sum_cons]
  rfl

/-- What a call has found is for its key. -/
theorem Pollstats.Inv.left_find (h : s.Inv) (r : Request) (key : String) (c : Counter) :
    (s.find r).left key (s.registry.lookup key) c = if r.key = key then sumOf r.adds c else 0 := by
  rcases hkey : s.registry.lookup r.key with _ | id
  · rw [Pollstats.find, hkey]
    rfl
  · rw [Pollstats.find, hkey]
    show (if s.registry.lookup key = some id then sumOf r.adds c else 0) = _
    refine if_congr ⟨fun hid => (h.distinct _ _ id hkey hid), fun heq => heq ▸ hkey⟩ rfl rfl

theorem Pollstats.value_congr {key key' : String} {c : Counter}
    (hlookup : s'.registry.lookup key' = s.registry.lookup key)
    (hcounters : ∀ id, s.registry.lookup key = some id → s'.counters[id]? = s.counters[id]?) :
    s'.value key' c = s.value key c := by
  rw [Pollstats.value, Pollstats.value, hlookup]
  rcases hid : s.registry.lookup key with _ | id
  · rfl
  · rw [Option.bind_some, Option.bind_some, hcounters id hid]

theorem Pollstats.Inv.value_add (h : s.Inv) (id n : Nat) (c' c : Counter) (key : String) (calls : List Call) :
    Pollstats.value ⟨s.registry, s.counters.modify id fun counters => counters.fetchAdd n c', calls⟩ key c =
      if s.registry.lookup key = some id ∧ c' = c then (s.value key c + n) % 2 ^ 64 else s.value key c := by
  simp only [Pollstats.value]
  rcases hkey : s.registry.lookup key with _ | id'
  · rfl
  · rw [Option.bind_some, Option.bind_some, List.getElem?_modify, List.getElem?_eq_getElem (h.live key id' hkey)]
    by_cases hsame : id = id'
    · subst hsame
      simp only [Option.map_eq_map, Option.map_some, Option.elim_some, if_true, true_and, QueryCounters.get_fetchAdd]
    · have hother : ¬(some id' = some id ∧ c' = c) := fun heq => hsame (Option.some.inj heq.1).symm
      rw [if_neg hother, Option.map_eq_map, Option.map_some, if_neg hsame]

/-- A call goes on, and the key is where it was. -/
theorem Pollstats.booked_set {i carry : Nat} {call next : Call} (hi : s.calls[i]? = some call)
    {counters : List QueryCounters}
    (hmoves : Pollstats.value ⟨s.registry, counters, s.calls.set i next⟩ key c +
      next.left key (s.registry.lookup key) c + 2 ^ 64 * carry =
        s.value key c + call.left key (s.registry.lookup key) c) :
    Pollstats.booked ⟨s.registry, counters, s.calls.set i next⟩ key c + 2 ^ 64 * carry = s.booked key c := by
  have hsum := sum_map_set hi (Call.left key (s.registry.lookup key) c) next
  simp only [Pollstats.booked]
  omega

theorem Pollstats.lookup_retain {monitored : List String} (hkeeps : (StatsAction.retain monitored).Keeps key) :
    (s.retain monitored).registry.lookup key = s.registry.lookup key := by
  rw [Pollstats.retain, HashMap.lookup_retain, List.contains_iff_mem.mpr hkeeps]
  cases s.registry.lookup key <;> rfl

/-- The counters of a key that has none yet start at zero. -/
theorem Pollstats.Inv.value_create (h : s.Inv) {r : Request} (hkey : s.registry.lookup r.key = none) (key : String)
    (c : Counter) (calls : List Call) :
    Pollstats.value ⟨s.registry.insert r.key s.counters.length, s.counters ++ [.default], calls⟩ key c =
      s.value key c := by
  by_cases hsame : key = r.key
  · subst hsame
    simp only [Pollstats.value, AList.lookup_insert, hkey, Option.bind_some, Option.bind_none,
      List.getElem?_concat_length, Option.elim_some, Option.elim_none]
    cases c <;> rfl
  · exact Pollstats.value_congr (AList.lookup_insert_ne hsame) fun id hid =>
      List.getElem?_append_left (h.live key id hid)

/-- And nobody has found them. -/
theorem Pollstats.Inv.left_create (h : s.Inv) {r : Request} (hkey : s.registry.lookup r.key = none) {call : Call}
    (hcall : call ∈ s.calls) (key : String) (c : Counter) :
    call.left key ((s.registry.insert r.key s.counters.length).lookup key) c =
      call.left key (s.registry.lookup key) c := by
  by_cases hsame : key = r.key
  · subst hsame
    rw [AList.lookup_insert, hkey]
    cases call with
    | missed r' => rfl
    | holding id adds =>
      have hfresh : s.counters.length ≠ id := (h.held id adds hcall).ne'
      simp only [Call.left, if_neg fun heq => hfresh (Option.some.inj heq), reduceCtorEq, if_false]
  · rw [AList.lookup_insert_ne hsame]

theorem Pollstats.Inv.booked_create (h : s.Inv) {i : Nat} {r : Request} (hi : s.calls[i]? = some (.missed r))
    (hkey : s.registry.lookup r.key = none) (key : String) (c : Counter) :
    Pollstats.booked ⟨s.registry.insert r.key s.counters.length, s.counters ++ [.default],
      s.calls.set i (.holding s.counters.length r.adds)⟩ key c = s.booked key c := by
  have hcalls : s.calls.map (Call.left key ((s.registry.insert r.key s.counters.length).lookup key) c) =
      s.calls.map (Call.left key (s.registry.lookup key) c) :=
    List.map_congr_left fun call hcall => h.left_create hkey hcall key c
  have hmoved : (Call.holding s.counters.length r.adds).left key
      ((s.registry.insert r.key s.counters.length).lookup key) c =
        (Call.missed r).left key ((s.registry.insert r.key s.counters.length).lookup key) c := by
    refine if_congr ⟨fun hid => ?_, fun hsame => ?_⟩ rfl rfl
    · by_contra hsame
      rw [AList.lookup_insert_ne (Ne.symm hsame)] at hid
      exact absurd (h.live key _ hid) (Nat.lt_irrefl _)
    · rw [← hsame, AList.lookup_insert]
  have hsum := sum_map_set hi (Call.left key ((s.registry.insert r.key s.counters.length).lookup key) c)
    (.holding s.counters.length r.adds)
  rw [hmoved, hcalls] at hsum
  rw [Pollstats.booked, Pollstats.booked, h.value_create hkey]
  exact congrArg (s.value key c + ·) (Nat.add_right_cancel hsum)

/-- **What one step books**, but for a carry when a counter wraps. -/
theorem Pollstats.Inv.booked_does (h : s.Inv) (hdoes : Does s a s') (hkeeps : a.Keeps key) (c : Counter) :
    ∃ carry, s'.booked key c + 2 ^ 64 * carry = s.booked key c + a.books key c := by
  cases hdoes with
  | idles i => exact ⟨0, rfl⟩
  | records r =>
    have hvalue : Pollstats.value { s with calls := s.calls ++ [s.find r] } key c = s.value key c := rfl
    refine ⟨0, ?_⟩
    simp only [Pollstats.booked, hvalue, List.map_append, List.sum_append, List.map_cons, List.map_nil, List.sum_cons,
      List.sum_nil, h.left_find, StatsAction.books]
    omega
  | retains monitored =>
    have hlookup := Pollstats.lookup_retain (s := s) hkeeps
    refine ⟨0, ?_⟩
    rw [Pollstats.booked, Pollstats.value_congr (s := s) hlookup fun _ _ => rfl, hlookup]
    rfl
  | @finds i id r hi hkey =>
    refine ⟨0, Pollstats.booked_set hi ?_⟩
    have hvalue : Pollstats.value { s with calls := s.calls.set i (.holding id r.adds) } key c = s.value key c := rfl
    have hfind := h.left_find r key c
    rw [Pollstats.find, hkey] at hfind
    rw [hvalue, hfind]
    rfl
  | creates hi hkey => exact ⟨0, h.booked_create hi hkey key c⟩
  | @adds i id n c' rest hi =>
    by_cases hhere : s.registry.lookup key = some id ∧ c' = c
    · refine ⟨(s.value key c + n) / 2 ^ 64, Pollstats.booked_set hi ?_⟩
      have hdivides := Nat.mod_add_div (s.value key c + n) (2 ^ 64)
      rw [h.value_add, if_pos hhere]
      simp only [Call.left, sumOf_cons, if_pos hhere.1, if_pos hhere.2]
      omega
    · refine ⟨0, Pollstats.booked_set hi ?_⟩
      rw [h.value_add, if_neg hhere]
      simp only [Call.left, sumOf_cons]
      by_cases hlookup : s.registry.lookup key = some id
      · rw [if_pos hlookup, if_pos hlookup, if_neg fun hc => hhere ⟨hlookup, hc⟩, Nat.zero_add]
        rfl
      · rw [if_neg hlookup, if_neg hlookup]
        rfl

/-- **Nothing is lost or counted twice**, under a key whose device stays monitored. -/
theorem Pollstats.Inv.booked_run (h : s.Inv) {actions : List StatsAction} (hkeeps : ∀ a ∈ actions, a.Keeps key)
    (c : Counter) : ∃ carry, (s.run actions).booked key c + 2 ^ 64 * carry = s.booked key c + recorded actions key c := by
  induction actions generalizing s with
  | nil => exact ⟨0, rfl⟩
  | cons a rest ih =>
    obtain ⟨hkeep, hrest⟩ := List.forall_mem_cons.mp hkeeps
    obtain ⟨carry, hstep⟩ := h.booked_does (does_step s a) hkeep c
    obtain ⟨carry', hnext⟩ := ih (h.does (does_step s a)) hrest
    refine ⟨carry + carry', ?_⟩
    rw [Pollstats.run, List.foldl_cons, ← Pollstats.run, recorded, List.map_cons, List.sum_cons, ← recorded]
    omega

/-- What a call is about to add is booked. -/
theorem Pollstats.add_le_booked {i id n : Nat} {rest : List (Counter × Nat)}
    (hi : s.calls[i]? = some (.holding id ((c, n) :: rest))) (hkey : s.registry.lookup key = some id) :
    s.value key c + n ≤ s.booked key c := by
  have hleft : n ≤ (Call.holding id ((c, n) :: rest)).left key (s.registry.lookup key) c := by
    simp only [Call.left, hkey, if_true, sumOf_cons]
    exact Nat.le_add_right _ _
  have hcall := List.single_le_sum (fun _ _ => Nat.zero_le _) _
    (List.mem_map_of_mem (f := Call.left key (s.registry.lookup key) c) (List.mem_of_getElem? hi))
  exact Nat.add_le_add_left (hleft.trans hcall) _

/-- What a scrape finds does not go down, unless a counter wraps. -/
theorem Pollstats.Inv.value_does (h : s.Inv) (hdoes : Does s a s') (hkeeps : a.Keeps key) (c : Counter)
    (hbooked : s.booked key c < 2 ^ 64) : s.value key c ≤ s'.value key c := by
  cases hdoes with
  | idles i => exact le_rfl
  | records r => exact le_rfl
  | finds hi hkey => exact le_rfl
  | retains monitored => exact (Pollstats.value_congr (Pollstats.lookup_retain hkeeps) fun _ _ => rfl).ge
  | creates hi hkey => exact (h.value_create hkey key c _).ge
  | adds hi =>
    rw [h.value_add]
    split
    · next hhere =>
      obtain ⟨hkey, rfl⟩ := hhere
      rw [Nat.mod_eq_of_lt ((Pollstats.add_le_booked hi hkey).trans_lt hbooked)]
      exact Nat.le_add_right _ _
    · exact le_rfl

theorem Pollstats.Inv.value_run (h : s.Inv) {actions : List StatsAction} (hkeeps : ∀ a ∈ actions, a.Keeps key)
    (c : Counter) (hbooked : s.booked key c + recorded actions key c < 2 ^ 64) :
    s.value key c ≤ (s.run actions).value key c := by
  induction actions generalizing s with
  | nil => exact le_rfl
  | cons a rest ih =>
    obtain ⟨hkeep, hrest⟩ := List.forall_mem_cons.mp hkeeps
    obtain ⟨carry, hstep⟩ := h.booked_does (does_step s a) hkeep c
    rw [recorded, List.map_cons, List.sum_cons, ← recorded] at hbooked
    exact (h.value_does (does_step s a) hkeep c (by omega)).trans (ih (h.does (does_step s a)) hrest (by omega))

theorem Pollstats.Inv.value_lt (h : s.Inv) (key : String) (c : Counter) : s.value key c < 2 ^ 64 := by
  rw [Pollstats.value]
  cases hcounters : (s.registry.lookup key).bind fun id => s.counters[id]? with
  | none => exact Nat.two_pow_pos 64
  | some counters =>
    obtain ⟨id, -, hid⟩ := Option.bind_eq_some_iff.mp hcounters
    exact h.bounded counters (List.mem_of_getElem? hid) c

theorem Pollstats.Settled.booked (h : s.Settled) (key : String) (c : Counter) : s.booked key c = s.value key c := by
  have hleft : (s.calls.map (Call.left key (s.registry.lookup key) c)).sum = 0 := by
    refine List.sum_eq_zero fun n hn => ?_
    obtain ⟨call, hcall, rfl⟩ := List.mem_map.mp hn
    obtain ⟨id, rfl⟩ := h call hcall
    exact ite_self 0
  rw [Pollstats.booked, hleft, Nat.add_zero]

end

/-- What part of a run does to the counters under a key. -/
structure CountsExactly (s s' : Pollstats) (actions : List StatsAction) (key : String) (c : Counter) : Prop where
  /-- all that was recorded is in the counter, or on its way to it -/
  booked : s'.booked key c ≡ s.booked key c + recorded actions key c [MOD 2 ^ 64]
  /-- it is in the counter when no call is in progress -/
  counted : s.Settled → s'.Settled → s'.value key c = (s.value key c + recorded actions key c) % 2 ^ 64
  /-- below 2^64 that is the number itself, and a scrape never sees the counter go down -/
  unwrapped : s.booked key c + recorded actions key c < 2 ^ 64 →
    s'.booked key c = s.booked key c + recorded actions key c ∧ s.value key c ≤ s'.value key c

/-- **The counters are exact in every interleaving**, from any state on, while the device is monitored. -/
theorem countsExactly_run (before after : List StatsAction) {key : String} (hkeeps : ∀ a ∈ after, a.Keeps key)
    (c : Counter) : CountsExactly (Pollstats.new.run before) ((Pollstats.new.run before).run after) after key c := by
  have hinv := Pollstats.inv_run before
  obtain ⟨carry, hbooked⟩ := hinv.booked_run hkeeps c
  refine ⟨?_, fun hsettled hsettled' => ?_, fun hlt => ⟨by omega, hinv.value_run hkeeps c hlt⟩⟩
  · rw [← hbooked]
    exact (Nat.add_mul_mod_self_left _ _ _).symm
  · have hlt : ((Pollstats.new.run before).run after).value key c < 2 ^ 64 := by
      have hrun := Pollstats.inv_run (before ++ after)
      rw [Pollstats.run, List.foldl_append] at hrun
      exact hrun.value_lt key c
    rw [hsettled.booked, hsettled'.booked] at hbooked
    rw [← hbooked, Nat.add_mul_mod_self_left, Nat.mod_eq_of_lt hlt]

/-- A poll while the device list is read again. -/
def ifTablePoll : Request := ⟨"sw1", "ifTable", .ok, 10, 500⟩

theorem countsExactly_run_ifTable :
    CountsExactly (Pollstats.new.run [.record ifTablePoll, .turn 0])
      ((Pollstats.new.run [.record ifTablePoll, .turn 0]).run [.turn 0, .retain ["sw1"], .turn 0, .turn 0])
      [.turn 0, .retain ["sw1"], .turn 0, .turn 0] ifTablePoll.key .values := by
  refine countsExactly_run [.record ifTablePoll, .turn 0] [.turn 0, .retain ["sw1"], .turn 0, .turn 0] ?_ .values
  have hfqdn : keyFqdn ifTablePoll.key = "sw1" := keyFqdn_makeKey (by decide) _
  simp [StatsAction.Keeps, hfqdn]

end JaspyNexus.Utilities.QueryStats

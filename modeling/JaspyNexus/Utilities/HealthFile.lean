import Mathlib
import JaspyNexus.Lib.Runs
import JaspyNexus.Utilities.HealthJson

/-! # The health store on disk

`dump_health` and `health_persist_worker` of `main.rs`, with the load at the start and the
last dump at a shutdown. A write goes to a file of its own and may stop anywhere, when it
fails or when the process dies; a rename is one step. There is one dump at a time, since the
worker is joined before the last one. `serde_json` is a parameter (`Serde`), of which it is
relied on that it parses back what it wrote (`ReadsBack`). -/

namespace JaspyNexus.Utilities.Health
open JaspyNexus.Lib

/-- `serde_json`, for the store: `to_string`, which visits it in some order, and `from_str`. -/
structure Serde where
  toString : Entries → String
  fromStr : String → Option HealthStore

/-- What was written is parsed back. -/
def Serde.ReadsBack (serde : Serde) : Prop :=
  ∀ entries store, Visits entries store → serde.fromStr (serde.toString entries) = some store

structure Disk where
  state : Option String
  tmp : Option String
  deriving DecidableEq, Repr

/-- Where `dump_health` is. -/
inductive Dump where
  | idle
  /-- a store was serialized, and this many characters are written -/
  | writing (dumped : HealthStore) (json : List Char) (written : Nat)

structure Process where
  store : HealthStore
  dump : Dump

/-- The disk, the process when there is one, and the store of the last dump that went through. -/
structure Nexus where
  disk : Disk
  process : Option Process
  saved : Option HealthStore

/-- What the collectors and the refresh do to the store. -/
inductive StoreOp where
  | ingest (fqdn : String) (ifIndex : Int) (input : SampleInput) (now : Nat)
  | retainDevices (keep : String → Bool)
  | retainInterfaces (fqdn : String) (keep : Int → Bool)
  | forgetDeviceInterfaces (fqdn : String)

def StoreOp.apply (cfg : HealthConfig) (store : HealthStore) : StoreOp → HealthStore
  | .ingest fqdn ifIndex input now => store.ingest cfg fqdn ifIndex input now
  | .retainDevices keep => store.retainDevices keep
  | .retainInterfaces fqdn keep => store.retainInterfaces fqdn keep
  | .forgetDeviceInterfaces fqdn => store.forgetDeviceInterfaces fqdn

inductive FileAction where
  | op (o : StoreOp)
  /-- the store is serialized, visited in this order, and the file beside is made anew -/
  | serialize (entries : Entries)
  | write (n : Nat)
  /-- `fs::write` gives an error -/
  | writeFails
  | rename (ok : Bool)
  /-- the process ends, at any moment -/
  | crash
  /-- a process starts; reading the file may give an error -/
  | boot (readable : Bool)

namespace Nexus
variable (cfg : HealthConfig) (serde : Serde)

/-- The first run, beside whatever is left of another. -/
def start (tmp : Option String) : Nexus := ⟨⟨none, tmp⟩, none, none⟩

/-- What is loaded from a file, when there is one that can be read and parsed. -/
def load (file : Option String) : HealthStore := (file.bind serde.fromStr).getD PMap.empty

def step (s : Nexus) : FileAction → Nexus
  | .op o => { s with process := s.process.map fun p => { p with store := o.apply cfg p.store } }
  | .serialize entries =>
    match s.process with
    | some ⟨store, .idle⟩ =>
      { s with
        disk := { s.disk with tmp := some "" }
        process := some ⟨store, .writing store (serde.toString entries).toList 0⟩ }
    | _ => s
  | .write n =>
    match s.process with
    | some ⟨store, .writing dumped json written⟩ =>
      { s with
        disk := { s.disk with tmp := some (String.ofList (json.take (written + n))) }
        process := some ⟨store, .writing dumped json (written + n)⟩ }
    | _ => s
  | .writeFails =>
    match s.process with
    | some ⟨store, .writing _ _ _⟩ => { s with process := some ⟨store, .idle⟩ }
    | _ => s
  | .rename ok =>
    match s.process with
    | some ⟨store, .writing dumped json written⟩ =>
      -- only after a write of all of it
      if json.length ≤ written then
        if ok then ⟨⟨s.disk.tmp, none⟩, some ⟨store, .idle⟩, some dumped⟩
        else { s with process := some ⟨store, .idle⟩ }
      else s
    | _ => s
  | .crash => { s with process := none }
  | .boot readable =>
    match s.process with
    | none => { s with process := some ⟨load serde (if readable then s.disk.state else none), .idle⟩ }
    | some _ => s

def run (s : Nexus) (actions : List FileAction) : Nexus := actions.foldl (step cfg serde) s

/-- What is serialized is the store. -/
def VisitsStore (s : Nexus) : FileAction → Prop
  | .serialize entries => ∀ p, s.process = some p → Visits entries p.store
  | _ => True

end Nexus

/-! ## The file is whole -/

/-- The file says this store. -/
def Says (serde : Serde) (file : Option String) (store : HealthStore) : Prop :=
  ∃ entries, Visits entries store ∧ file = some (serde.toString entries)

/-- The file beside has what is written of a store. -/
inductive Dumping (serde : Serde) (tmp : Option String) : Dump → Prop where
  | idle : Dumping serde tmp .idle
  | writing {dumped : HealthStore} {entries : Entries} {written : Nat} (hvisits : Visits entries dumped)
      (htmp : tmp = some (String.ofList ((serde.toString entries).toList.take written))) :
      Dumping serde tmp (.writing dumped (serde.toString entries).toList written)

structure Nexus.Inv (serde : Serde) (s : Nexus) : Prop where
  absent : s.saved = none → s.disk.state = none
  whole : ∀ store, s.saved = some store → Says serde s.disk.state store
  dumping : ∀ p, s.process = some p → Dumping serde s.disk.tmp p.dump

section
variable {cfg : HealthConfig} {serde : Serde} {s : Nexus}

theorem Nexus.inv_start (tmp : Option String) : (Nexus.start tmp).Inv serde where
  absent _ := rfl
  whole _ := nofun
  dumping _ := nofun

/-- The process goes on, or ends, without a change of the files. -/
theorem Nexus.Inv.process (h : s.Inv serde) {process : Option Process}
    (hdumping : ∀ p, process = some p → Dumping serde s.disk.tmp p.dump) : Nexus.Inv serde { s with process := process } :=
  ⟨h.absent, h.whole, hdumping⟩

theorem Nexus.Inv.serialize (h : s.Inv serde) {entries : Entries} (hvisits : s.VisitsStore (.serialize entries)) :
    (s.step cfg serde (.serialize entries)).Inv serde := by
  unfold Nexus.step
  dsimp only
  split
  · next store hprocess =>
    refine ⟨h.absent, h.whole, fun p hp => ?_⟩
    obtain rfl := Option.some.inj hp
    exact .writing (hvisits _ hprocess) rfl
  · exact h

theorem Nexus.Inv.step (h : s.Inv serde) (a : FileAction) (hvisits : s.VisitsStore a) :
    (s.step cfg serde a).Inv serde := by
  cases a with
  | op o =>
    refine h.process fun p hp => ?_
    obtain ⟨p', hp', rfl⟩ := Option.map_eq_some_iff.mp hp
    exact h.dumping p' hp'
  | serialize entries => exact h.serialize hvisits
  | write n =>
    unfold Nexus.step
    dsimp only
    split
    · next store dumped json written hprocess =>
      have hdumping := h.dumping _ hprocess
      cases hdumping with
      | writing hentries htmp =>
        refine ⟨h.absent, h.whole, fun p hp => ?_⟩
        obtain rfl := Option.some.inj hp
        exact .writing hentries rfl
    · exact h
  | writeFails =>
    unfold Nexus.step
    dsimp only
    split
    · refine h.process fun p hp => ?_
      obtain rfl := Option.some.inj hp
      exact .idle
    · exact h
  | rename ok =>
    unfold Nexus.step
    dsimp only
    split
    · next store dumped json written hprocess =>
      split
      · next hall =>
        cases ok with
        | false =>
          refine h.process fun p hp => ?_
          obtain rfl := Option.some.inj hp
          exact .idle
        | true =>
          have hdumping := h.dumping _ hprocess
          cases hdumping with
          | @writing _ entries _ hentries htmp =>
            refine ⟨nofun, fun store hstore => ?_, fun p hp => ?_⟩
            · obtain rfl := Option.some.inj hstore
              refine ⟨entries, hentries, ?_⟩
              rw [htmp, List.take_of_length_le hall, String.ofList_toList]
              rfl
            · obtain rfl := Option.some.inj hp
              exact .idle
      · exact h
    · exact h
  | crash => exact h.process nofun
  | boot readable =>
    unfold Nexus.step
    dsimp only
    split
    · refine h.process fun p hp => ?_
      obtain rfl := Option.some.inj hp
      exact .idle
    · exact h

theorem Nexus.inv_run {tmp : Option String} {actions : List FileAction}
    (hvisits : Runs.Allowed (Nexus.step cfg serde) Nexus.VisitsStore (.start tmp) actions) :
    ((Nexus.start tmp).run cfg serde actions).Inv serde :=
  Runs.run_inv (Nexus.Inv serde) (fun _ a h hok => h.step a hok) (Nexus.inv_start tmp) hvisits

/-! ## What a start finds -/

theorem Nexus.Inv.load (h : s.Inv serde) (hreads : serde.ReadsBack) :
    Nexus.load serde s.disk.state = s.saved.getD PMap.empty := by
  rcases hsaved : s.saved with _ | store
  · rw [h.absent hsaved]
    rfl
  · obtain ⟨entries, hvisits, hfile⟩ := h.whole store hsaved
    rw [hfile, Nexus.load, Option.bind_some, hreads entries store hvisits]

/-- A dump that nothing disturbs, the end of the process and the next start. -/
def shutdown (serde : Serde) (entries : Entries) : List FileAction :=
  [.serialize entries, .write (serde.toString entries).toList.length, .rename true, .crash, .boot true]

theorem Nexus.run_shutdown {store : HealthStore} {entries : Entries} (hprocess : s.process = some ⟨store, .idle⟩)
    (hvisits : Visits entries store) (hreads : serde.ReadsBack) :
    (s.run cfg serde (shutdown serde entries)).process = some ⟨store, .idle⟩ := by
  have hload : Nexus.load serde (some (serde.toString entries)) = store := by
    rw [Nexus.load, Option.bind_some, hreads entries store hvisits, Option.getD_some]
  simp only [Nexus.run, shutdown, List.foldl_cons, List.foldl_nil, Nexus.step, hprocess, Nat.zero_add, le_refl, if_true,
    List.take_of_length_le, String.ofList_toList, hload]

end

/-- What holds of the state file after a run. -/
structure CrashSafe (cfg : HealthConfig) (serde : Serde) (s : Nexus) : Prop where
  /-- there is no file before the first dump that goes through -/
  absent : s.saved = none → s.disk.state = none
  /-- and then it is all of the last one -/
  whole : ∀ store, s.saved = some store → Says serde s.disk.state store
  /-- after a crash the store of that dump is loaded -/
  recovers : (s.run cfg serde [.crash, .boot true]).process = some ⟨s.saved.getD PMap.empty, .idle⟩
  /-- and after a shutdown the store as it was -/
  restarts : ∀ store entries, s.process = some ⟨store, .idle⟩ → Visits entries store →
    (s.run cfg serde (shutdown serde entries)).process = some ⟨store, .idle⟩

/-- **The state file is never torn**: whatever the process does, and wherever it dies. -/
theorem crashSafe_run {cfg : HealthConfig} {serde : Serde} (hreads : serde.ReadsBack)
    (tmp : Option String) {actions : List FileAction}
    (hvisits : Runs.Allowed (Nexus.step cfg serde) Nexus.VisitsStore (.start tmp) actions) :
    CrashSafe cfg serde ((Nexus.start tmp).run cfg serde actions) where
  absent := (Nexus.inv_run hvisits).absent
  whole := (Nexus.inv_run hvisits).whole
  recovers := by
    have hload := (Nexus.inv_run hvisits).load hreads
    simp only [Nexus.run, List.foldl_cons, List.foldl_nil, Nexus.step, if_true] at hload ⊢
    rw [hload]
  restarts _ _ hprocess hentries := Nexus.run_shutdown hprocess hentries hreads

/-- A flap is recorded and dumped, and the process dies in the middle of the next dump. -/
def diesDumping : List FileAction :=
  [.boot true, .op (.ingest "sw1" 1 ⟨0, 0, 0, 0, 0, 0, some true, none, none⟩ 1000), .serialize flapEntries, .write 200,
    .rename true, .serialize flapEntries, .write 7, .crash]

theorem crashSafe_run_diesDumping :
    CrashSafe HealthConfig.default ⟨toJson, readJson⟩
      ((Nexus.start none).run HealthConfig.default ⟨toJson, readJson⟩ diesDumping) := by
  have hflap : Visits flapEntries
      (HealthStore.ingest HealthConfig.default PMap.empty "sw1" 1 ⟨0, 0, 0, 0, 0, 0, some true, none, none⟩ 1000) :=
    visits_storeOf (by decide) (by decide)
  refine crashSafe_run (fun _ _ h => readJson_toJson h) none ⟨trivial, trivial, fun p hp => ?_, trivial, trivial,
    fun p hp => ?_, trivial, trivial, trivial⟩
  · obtain rfl := Option.some.inj hp
    exact hflap
  · obtain rfl := Option.some.inj hp
    exact hflap

end JaspyNexus.Utilities.Health

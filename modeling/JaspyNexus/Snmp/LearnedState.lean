import Mathlib
import JaspyNexus.Lib.Runs
import JaspyNexus.Snmp.SessionKeys
import JaspyNexus.Snmp.Types

/-! # Learned timeouts across restarts

`flush_snmp_state` and the seeding in `main.rs`, over `export_state` and `seed_state` of
`snmp/embedded.rs` and the table of `DeviceSnmpState`. A flush writes the rows whose timeout or
verdict changed since it last wrote them; a start reads the rows back. The process may stop
between any two steps, with what it has not flushed. -/

namespace JaspyNexus.Snmp.Embedded
open JaspyNexus.Lib

/-- A configuration that `clamp` accepts, with a ceiling that fits its type. -/
structure OrderedCfg extends AdaptCfg where
  ordered : baseMs ≤ maxMs
  fits : maxMs < 2 ^ 64

/-- `v as u64` of a signed value. -/
def asU64 (v : Int) : Nat := (v % 2 ^ 64).toNat

/-- `v as i32` of an unsigned value. -/
def asI32 (v : Nat) : Int := if v % 2 ^ 32 < 2 ^ 31 then (v % 2 ^ 32 : Nat) else (v % 2 ^ 32 : Nat) - 2 ^ 32

/-- `v as u32` of a signed value. -/
def asU32 (v : Int) : Nat := (v % 2 ^ 32).toNat

/-- A device of `Device::monitored`. -/
structure PolledDevice where
  fqdn : String
  community : Option String
  deriving DecidableEq, Repr

/-- `DeviceSnmpState`, under its name. -/
structure SnmpStateRow where
  ewmaMs : Option Rat
  effectiveMs : Int
  consecTimeouts : Int
  dead : Bool
  updatedAt : Nat
  deriving DecidableEq, Repr

/-- The row that is written of an exported state. -/
def SnmpStateRow.of (s : DeviceState) (now : Nat) : SnmpStateRow :=
  ⟨s.ewmaMs, asI64 s.effectiveMs, asI32 s.consecTimeouts, s.dead, now⟩

/-- What `seed_state` is given of a row. -/
def SnmpStateRow.persisted (row : SnmpStateRow) : Persisted :=
  ⟨row.ewmaMs, asU64 row.effectiveMs, asU32 row.consecTimeouts, row.dead⟩

/-- `dirty_key`. -/
def dirtyKey (s : DeviceState) : Int × Bool := (asI64 s.effectiveMs, s.dead)

/-- The process and the table. `flushed` is the state that each name had when a flush last found
its row up to date or wrote it, and `written` the one that was written, which the code does not
see. -/
structure Learner where
  cfg : OrderedCfg
  registry : PMap String DeviceState
  rows : PMap String SnmpStateRow
  last : PMap String (Int × Bool)
  flushed : PMap String DeviceState
  written : PMap String DeviceState

namespace Learner

def start (cfg : OrderedCfg) : Learner :=
  ⟨cfg, PMap.empty, PMap.empty, PMap.empty, PMap.empty, PMap.empty⟩

/-- `device_latency`. -/
def latency (l : Learner) (key : String) : DeviceState := PMap.getD l.registry key (.new l.cfg.baseMs)

/-- A request of a session is recorded. -/
def record (l : Learner) (key : String) (sample : Sample) : Learner :=
  { l with registry := l.registry.insert key (adapt l.cfg.toAdaptCfg (l.latency key) sample) }

/-- The turn of `flush_snmp_state` for one device; `stores` is whether the write goes through. -/
def flushDevice (port now : Nat) (l : Learner) (device : PolledDevice) (stores : Bool) : Learner :=
  match device.community with
  | none => l
  | some community =>
    match l.registry (primarySessionKey device.fqdn community port) with
    | none => l
    | some s =>
      if l.last device.fqdn = some (dirtyKey s) then
        { l with flushed := l.flushed.insert device.fqdn s }
      else if stores then
        { l with
          rows := l.rows.insert device.fqdn (.of s now)
          last := l.last.insert device.fqdn (dirtyKey s)
          flushed := l.flushed.insert device.fqdn s
          written := l.written.insert device.fqdn s }
      else l

/-- `flush_snmp_state`, with what becomes of each write. -/
def flush (port now : Nat) (l : Learner) (monitored : List (PolledDevice × Bool)) : Learner :=
  monitored.foldl (fun l d => l.flushDevice port now d.1 d.2) l

/-- `seed_state` of one device. -/
def seedDevice (port : Nat) (l : Learner) (device : PolledDevice) : Learner :=
  match device.community, l.rows device.fqdn with
  | some community, some row =>
    let key := primarySessionKey device.fqdn community port
    { l with registry := l.registry.insert key (l.cfg.seed row.persisted) }
  | _, _ => l

/-- The process comes up again, on the table as it is. -/
def restart (port : Nat) (l : Learner) (cfg : OrderedCfg) (monitored : List PolledDevice) : Learner :=
  monitored.foldl (seedDevice port) { l with cfg := cfg, registry := PMap.empty, last := PMap.empty }

inductive Turn where
  | record (key : String) (sample : Sample)
  | flush (now : Nat) (monitored : List (PolledDevice × Bool))
  | restart (cfg : OrderedCfg) (monitored : List PolledDevice)

def step (port : Nat) (l : Learner) : Turn → Learner
  | .record key sample => l.record key sample
  | .flush now monitored => l.flush port now monitored
  | .restart cfg monitored => l.restart port cfg monitored

def run (port : Nat) (cfg : OrderedCfg) (turns : List Turn) : Learner := turns.foldl (step port) (start cfg)

end Learner

/-! ## What a row keeps -/

/-- The figures of a state fit their types. -/
structure DeviceState.Fits (s : DeviceState) : Prop where
  effective : s.effectiveMs < 2 ^ 64
  consec : s.consecTimeouts < 2 ^ 32

/-- The timeout is between the floor and the ceiling. -/
structure DeviceState.Within (s : DeviceState) (c : OrderedCfg) : Prop where
  lower : c.baseMs ≤ s.effectiveMs
  upper : s.effectiveMs ≤ c.maxMs
  consec : s.consecTimeouts < 2 ^ 32

theorem asU64_asI64 {n : Nat} (h : n < 2 ^ 64) : asU64 (asI64 n) = n := by
  unfold asU64 asI64
  rw [Nat.mod_eq_of_lt h]
  split <;> omega

theorem asU32_asI32 {n : Nat} (h : n < 2 ^ 32) : asU32 (asI32 n) = n := by
  unfold asU32 asI32
  rw [Nat.mod_eq_of_lt h]
  split <;> omega

theorem asU32_lt (v : Int) : asU32 v < 2 ^ 32 := by
  unfold asU32
  omega

section
variable {s w : DeviceState} {c : OrderedCfg}

theorem DeviceState.Within.fits (h : s.Within c) : s.Fits := ⟨h.upper.trans_lt c.fits, h.consec⟩

/-- **A row gives back what was exported.** -/
theorem SnmpStateRow.persisted_of (h : s.Fits) (now : Nat) :
    (SnmpStateRow.of s now).persisted = ⟨s.ewmaMs, s.effectiveMs, s.consecTimeouts, s.dead⟩ := by
  unfold SnmpStateRow.persisted SnmpStateRow.of
  simp only [asU64_asI64 h.effective, asU32_asI32 h.consec]

theorem dirtyKey_eq (hs : s.Fits) (hw : w.Fits) (h : dirtyKey w = dirtyKey s) :
    w.effectiveMs = s.effectiveMs ∧ w.dead = s.dead := by
  have heffective := congrArg (fun k : Int × Bool => asU64 k.1) h
  simp only [dirtyKey, asU64_asI64 hs.effective, asU64_asI64 hw.effective] at heffective
  exact ⟨heffective, congrArg (fun k : Int × Bool => k.2) h⟩

theorem within_new (c : OrderedCfg) : (DeviceState.new c.baseMs).Within c :=
  ⟨le_rfl, c.ordered, by simp [DeviceState.new]⟩

theorem within_clamp (c : OrderedCfg) (ms : Nat) : c.baseMs ≤ c.clamp ms ∧ c.clamp ms ≤ c.maxMs :=
  ⟨clamp_lower _ ms, clamp_upper c.ordered ms⟩

theorem DeviceState.Within.adapt (h : s.Within c) (sample : Sample) : (adapt c.toAdaptCfg s sample).Within c := by
  have hsucc : ∀ n, succU32 n < 2 ^ 32 := fun n => by
    unfold succU32
    omega
  unfold Embedded.adapt
  split
  · exact within_new c
  split
  · exact h
  · exact h
  · exact ⟨(within_clamp c _).1, (within_clamp c _).2, by simp⟩
  · dsimp only
    split
    · exact ⟨le_rfl, c.ordered, hsucc _⟩
    split
    · split
      · exact ⟨le_rfl, c.ordered, hsucc _⟩
      · exact ⟨h.lower, h.upper, hsucc _⟩
    · exact ⟨(within_clamp c _).1, (within_clamp c _).2, hsucc _⟩

theorem within_seed (c : OrderedCfg) (row : SnmpStateRow) : (c.seed row.persisted).Within c :=
  ⟨(within_clamp c _).1, (within_clamp c _).2, asU32_lt _⟩

end

/-! ## What every turn keeps -/

namespace Learner

/-- The process holds states within its configuration, and remembers of a row what is in it;
a row holds what was written, and agrees with what was flushed in the timeout and in the
verdict. -/
structure Kept (l : Learner) : Prop where
  registry : ∀ key s, l.registry key = some s → s.Within l.cfg
  rows : ∀ fqdn w, l.written fqdn = some w → w.Fits ∧ ∃ now, l.rows fqdn = some (.of w now)
  last : ∀ fqdn k, l.last fqdn = some k → ∃ w, l.written fqdn = some w ∧ k = dirtyKey w
  flushed : ∀ fqdn s, l.flushed fqdn = some s →
    s.Fits ∧ ∃ w, l.written fqdn = some w ∧ dirtyKey w = dirtyKey s

variable {l : Learner} {port : Nat}

theorem kept_start (cfg : OrderedCfg) : (start cfg).Kept := by
  constructor <;> intro _ _ h <;> cases h

theorem Kept.record (h : l.Kept) (key : String) (sample : Sample) : (l.record key sample).Kept := by
  refine { h with registry := fun k s hs => ?_ }
  simp only [Learner.record, PMap.insert_apply] at hs
  split at hs
  · cases hs
    refine DeviceState.Within.adapt ?_ sample
    unfold latency PMap.getD
    cases hold : l.registry key with
    | none => exact within_new l.cfg
    | some s => exact h.registry key s hold
  · exact h.registry k s hs

theorem Kept.flushDevice (h : l.Kept) (now : Nat) (device : PolledDevice) (stores : Bool) :
    (l.flushDevice port now device stores).Kept := by
  unfold Learner.flushDevice
  split
  · exact h
  split
  · exact h
  next s hs =>
  have hfits := (h.registry _ s hs).fits
  split
  · next hlast =>
    -- the row is up to date
    obtain ⟨w, hw, hkey⟩ := h.last device.fqdn _ hlast
    refine { h with flushed := fun f t ht => ?_ }
    dsimp only at ht
    rw [PMap.insert_apply] at ht
    split at ht
    · next hf =>
      cases ht
      exact ⟨hfits, w, hf ▸ hw, hkey.symm⟩
    · exact h.flushed f t ht
  split
  · refine { h with rows := fun f w hw => ?_, last := fun f k hk => ?_, flushed := fun f t ht => ?_ } <;>
      dsimp only at * <;> by_cases hf : f = device.fqdn
    · subst hf
      rw [PMap.insert_self] at hw
      cases hw
      exact ⟨hfits, now, PMap.insert_self ..⟩
    · rw [PMap.insert_of_ne _ _ hf] at hw ⊢
      exact h.rows f w hw
    · subst hf
      rw [PMap.insert_self] at hk ⊢
      cases hk
      exact ⟨s, rfl, rfl⟩
    · rw [PMap.insert_of_ne _ _ hf] at hk ⊢
      exact h.last f k hk
    · subst hf
      rw [PMap.insert_self] at ht ⊢
      cases ht
      exact ⟨hfits, _, rfl, rfl⟩
    · rw [PMap.insert_of_ne _ _ hf] at ht ⊢
      exact h.flushed f t ht
  · exact h

theorem Kept.seedDevice (h : l.Kept) (device : PolledDevice) : (l.seedDevice port device).Kept := by
  unfold Learner.seedDevice
  split
  · next community row hc hrow =>
    refine { h with registry := fun k s hs => ?_ }
    dsimp only at hs
    rw [PMap.insert_apply] at hs
    split at hs
    · cases hs
      exact within_seed l.cfg row
    · exact h.registry k s hs
  · exact h

theorem Kept.step (h : l.Kept) (turn : Turn) : (l.step port turn).Kept := by
  cases turn with
  | record key sample => exact h.record key sample
  | flush now monitored => exact Runs.foldl_inv Kept (fun _ d h => h.flushDevice now d.1 d.2) monitored h
  | restart cfg monitored =>
    refine Runs.foldl_inv Kept (fun _ d h => h.seedDevice d) monitored ?_
    exact { h with registry := (fun _ _ hs => by cases hs), last := fun _ _ hk => by cases hk }

theorem kept_run (cfg : OrderedCfg) (turns : List Turn) : (run port cfg turns).Kept :=
  Runs.foldl_inv Kept (fun _ turn h => h.step turn) turns (kept_start cfg)

/-! ## What a start gives back -/

theorem fqdn_of_key {fqdn fqdn' community community' : String} (hf : separator ∉ fqdn.toList)
    (hf' : separator ∉ fqdn'.toList)
    (h : primarySessionKey fqdn community port = primarySessionKey fqdn' community' port) : fqdn = fqdn' := by
  have hlist := congrArg String.toList h
  simp only [primarySessionKey, sessionKey, HostSpec.withCommunity, String.toList_append, String.toList_singleton,
    List.append_assoc, List.singleton_append] at hlist
  exact String.toList_inj.mp (Text.append_separator_inj hf hf' hlist).1

theorem seedDevice_keeps (port : Nat) (l : Learner) (device : PolledDevice) :
    (l.seedDevice port device).cfg = l.cfg ∧ (l.seedDevice port device).rows = l.rows := by
  unfold seedDevice
  split <;> exact ⟨rfl, rfl⟩

/-- A start seeds every session of a row with the row. -/
theorem registry_restart {cfg : OrderedCfg} {monitored : List PolledDevice} {device : PolledDevice}
    {community : String} {row : SnmpStateRow} (hplain : ∀ d ∈ monitored, separator ∉ d.fqdn.toList)
    (hd : device ∈ monitored) (hc : device.community = some community) (hrow : l.rows device.fqdn = some row) :
    (l.restart port cfg monitored).registry (primarySessionKey device.fqdn community port) =
      some (cfg.seed row.persisted) := by
  have hseeds : ∀ (l : Learner) (d : PolledDevice), l.cfg = cfg → l.rows device.fqdn = some row →
      separator ∉ d.fqdn.toList → d = device ∨
        l.registry (primarySessionKey device.fqdn community port) = some (cfg.seed row.persisted) →
      (l.seedDevice port d).registry (primarySessionKey device.fqdn community port) =
        some (cfg.seed row.persisted) := by
    intro l d hcfg hrow hd' hor
    unfold seedDevice
    split
    · next community' row' hc' hrow' =>
      dsimp only
      rw [PMap.insert_apply]
      split
      · next hkey =>
        have hfqdn := fqdn_of_key (hplain device hd) hd' hkey
        rw [← hfqdn, hrow] at hrow'
        cases hrow'
        rw [hcfg]
      · next hkey =>
        refine hor.resolve_left fun heq => hkey ?_
        subst heq
        rw [hc] at hc'
        cases hc'
        rfl
    · next hnone =>
      refine hor.resolve_left fun heq => ?_
      subst heq
      exact hnone community row hc hrow
  -- once seeded, the session stays so
  have hstays : ∀ (rest : List PolledDevice) (l : Learner), (∀ d ∈ rest, separator ∉ d.fqdn.toList) →
      l.cfg = cfg → l.rows device.fqdn = some row → device ∈ rest ∨
        l.registry (primarySessionKey device.fqdn community port) = some (cfg.seed row.persisted) →
      (rest.foldl (seedDevice port) l).registry (primarySessionKey device.fqdn community port) =
        some (cfg.seed row.persisted) := by
    intro rest
    induction rest with
    | nil => exact fun l _ _ _ hor => hor.resolve_left (List.not_mem_nil)
    | cons d rest ih =>
      intro l hrest hcfg hrow hor
      have hkeeps := seedDevice_keeps port l d
      have hd' := hrest d List.mem_cons_self
      refine ih _ (fun d hd => hrest d (List.mem_cons_of_mem _ hd)) (hkeeps.1.trans hcfg)
        (by rw [hkeeps.2]; exact hrow) ?_
      rcases hor with hmem | hseeded
      · rcases List.mem_cons.mp hmem with heq | hmem
        · exact .inr (hseeds l d hcfg hrow hd' (.inl heq.symm))
        · exact .inl hmem
      · exact .inr (hseeds l d hcfg hrow hd' (.inr hseeded))
  exact hstays monitored _ hplain rfl hrow (.inl hd)

/-- A session that was flushed opens with the same timeout, brought between the bounds, and the
same retries. -/
theorem Kept.reopens (h : l.Kept) {cfg : OrderedCfg} {monitored : List PolledDevice} {device : PolledDevice}
    {community : String} {s : DeviceState} (hplain : ∀ d ∈ monitored, separator ∉ d.fqdn.toList)
    (hd : device ∈ monitored) (hc : device.community = some community)
    (hs : l.flushed device.fqdn = some s) (configured : Nat) :
    ((l.restart port cfg monitored).latency (primarySessionKey device.fqdn community port)).openParams configured =
      (cfg.clamp s.effectiveMs, s.effectiveRetries configured) := by
  obtain ⟨hfits, w, hw, hkey⟩ := h.flushed _ s hs
  obtain ⟨hwfits, now, hrow⟩ := h.rows _ w hw
  obtain ⟨heffective, hdead⟩ := dirtyKey_eq hfits hwfits hkey
  unfold latency PMap.getD
  rw [registry_restart hplain hd hc hrow, SnmpStateRow.persisted_of hwfits]
  simp only [Option.getD_some, DeviceState.openParams, DeviceState.effectiveRetries, AdaptCfg.seed, heffective, hdead]

/-- A flush leaves the sessions as they are, and takes in each device whose write goes
through. -/
theorem flushed_flush {now : Nat} {monitored : List (PolledDevice × Bool)} {device : PolledDevice}
    {community : String} {s : DeviceState} (hnames : (monitored.map fun d => d.1.fqdn).Nodup)
    (hd : (device, true) ∈ monitored) (hc : device.community = some community)
    (hs : l.registry (primarySessionKey device.fqdn community port) = some s) :
    (l.flush port now monitored).flushed device.fqdn = some s := by
  have hkeeps : ∀ (l : Learner) (d : PolledDevice) (stores : Bool),
      (l.flushDevice port now d stores).registry = l.registry ∧
      (d.fqdn ≠ device.fqdn → (l.flushDevice port now d stores).flushed device.fqdn = l.flushed device.fqdn) := by
    intro l d stores
    unfold flushDevice
    split
    · exact ⟨rfl, fun _ => rfl⟩
    split
    · exact ⟨rfl, fun _ => rfl⟩
    split
    · exact ⟨rfl, fun hne => PMap.insert_of_ne _ _ (Ne.symm hne)⟩
    split
    · exact ⟨rfl, fun hne => PMap.insert_of_ne _ _ (Ne.symm hne)⟩
    · exact ⟨rfl, fun _ => rfl⟩
  have htakes : ∀ l : Learner, l.registry (primarySessionKey device.fqdn community port) = some s →
      (l.flushDevice port now device true).flushed device.fqdn = some s := by
    intro l hs
    simp only [flushDevice, hc, hs, if_true]
    split <;> exact PMap.insert_self ..
  unfold flush
  induction monitored generalizing l with
  | nil => cases hd
  | cons d rest ih =>
    rw [List.map_cons, List.nodup_cons] at hnames
    rw [List.foldl_cons]
    rcases List.mem_cons.mp hd with heq | hmem
    · -- no later device has its name
      subst heq
      have hrest : ∀ e ∈ rest, e.1.fqdn ≠ device.fqdn := fun e he heq =>
        hnames.1 (List.mem_map.mpr ⟨e, he, heq⟩)
      have hfirst := htakes l hs
      generalize l.flushDevice port now device true = m at hfirst ⊢
      clear ih hd hnames hs
      induction rest generalizing m with
      | nil => exact hfirst
      | cons e rest ih =>
        rw [List.foldl_cons]
        refine ih (fun e he => hrest e (List.mem_cons_of_mem _ he)) _ ?_
        rw [(hkeeps m e.1 e.2).2 (hrest e List.mem_cons_self), hfirst]
    · exact ih hnames.2 hmem (by rw [(hkeeps l d.1 d.2).1]; exact hs)

theorem flushed_records (l : Learner) (later : List (String × Sample)) :
    ((later.map fun r => Turn.record r.1 r.2).foldl (step port) l).flushed = l.flushed := by
  induction later generalizing l with
  | nil => rfl
  | cons r later ih => exact ih _

/-- **A learned timeout survives a restart.** Whatever happened before, and whatever is recorded
after a flush that went through for a device, the process comes up again with the timeout and
the retries the device had at that flush; under another configuration, with that timeout brought
between its bounds. -/
theorem reopens_after_flush (port : Nat) (cfg : OrderedCfg) (turns : List Turn) (now : Nat)
    (later : List (String × Sample)) (cfg' : OrderedCfg) (configured : Nat)
    {flushed : List (PolledDevice × Bool)} {monitored : List PolledDevice} {device : PolledDevice}
    {community : String} {s : DeviceState} (hc : device.community = some community)
    (hs : (run port cfg turns).registry (primarySessionKey device.fqdn community port) = some s)
    (hnames : (flushed.map fun d => d.1.fqdn).Nodup) (hflushed : (device, true) ∈ flushed)
    (hplain : ∀ d ∈ monitored, separator ∉ d.fqdn.toList) (hmonitored : device ∈ monitored) :
    let reopened := (run port cfg (turns ++ .flush now flushed :: later.map (fun r => .record r.1 r.2) ++
      [.restart cfg' monitored])).latency (primarySessionKey device.fqdn community port)
    reopened.openParams configured = (cfg'.clamp s.effectiveMs, s.effectiveRetries configured) ∧
      (cfg' = (run port cfg turns).cfg → reopened.openParams configured = s.openParams configured) := by
  have hkept : (run port cfg (turns ++ .flush now flushed :: later.map (fun r => .record r.1 r.2))).Kept :=
    kept_run cfg _
  have htaken : (run port cfg (turns ++ .flush now flushed :: later.map (fun r => .record r.1 r.2))).flushed
      device.fqdn = some s := by
    unfold run
    rw [List.foldl_append, List.foldl_cons, flushed_records]
    exact flushed_flush hnames hflushed hc hs
  have hopen := @Kept.reopens _ port hkept cfg' monitored device community s hplain hmonitored hc htaken configured
  have hlast : run port cfg (turns ++ .flush now flushed :: later.map (fun r => .record r.1 r.2) ++
      [.restart cfg' monitored]) =
      (run port cfg (turns ++ .flush now flushed :: later.map (fun r => .record r.1 r.2))).restart port cfg'
        monitored := by
    unfold run
    rw [List.foldl_append]
    rfl
  dsimp only
  rw [hlast, hopen]
  refine ⟨rfl, fun hcfg => ?_⟩
  have hbefore : (run port cfg turns).Kept := kept_run cfg turns
  have hwithin := hbefore.registry _ s hs
  rw [← hcfg] at hwithin
  have hclamp : cfg'.clamp s.effectiveMs = s.effectiveMs := by
    unfold AdaptCfg.clamp
    rw [min_eq_left hwithin.upper, max_eq_right hwithin.lower]
  rw [hclamp]
  rfl

/-- The configuration of an installation that has changed nothing. -/
def defaultCfg : OrderedCfg :=
  { AdaptCfg.default with ordered := AdaptCfg.default_ordered, fits := by decide }

def slowDevice : PolledDevice := ⟨"sw.lan", some "public"⟩

/-- A device times out twice before the flush, and answers again after it. -/
theorem reopens_after_flush_slow :
    ((run 161 defaultCfg [.record (primarySessionKey "sw.lan" "public" 161) .timeout,
      .record (primarySessionKey "sw.lan" "public" 161) .timeout, .flush 0 [(slowDevice, true)],
      .record (primarySessionKey "sw.lan" "public" 161) (.ok 10), .restart defaultCfg [slowDevice]]).latency
        (primarySessionKey "sw.lan" "public" 161)).openParams 2 = (5750, 2) := by
  have hs : (run 161 defaultCfg [.record (primarySessionKey "sw.lan" "public" 161) .timeout,
      .record (primarySessionKey "sw.lan" "public" 161) .timeout]).registry
        (primarySessionKey "sw.lan" "public" 161) = some ⟨none, 2, 0, 5750, false⟩ := by
    decide +kernel
  have hc : slowDevice.community = some "public" := rfl
  exact (reopens_after_flush 161 defaultCfg _ 0 [(primarySessionKey "sw.lan" "public" 161, .ok 10)] defaultCfg 2 hc hs (by decide) List.mem_cons_self
    (fun d hd => by rw [List.mem_singleton.mp hd]; decide) List.mem_cons_self).2 rfl

/-- A row is written when the timeout or the verdict changes, and the average in it is the one
of then: the device answered once more before the last flush. -/
example : ((run 161 defaultCfg [.record (primarySessionKey "sw.lan" "public" 161) (.ok 10),
      .flush 0 [(slowDevice, true)], .record (primarySessionKey "sw.lan" "public" 161) (.ok 20),
      .flush 0 [(slowDevice, true)], .restart defaultCfg [slowDevice]]).latency
        (primarySessionKey "sw.lan" "public" 161)).ewmaMs = some 10 := by decide +kernel

end Learner

end JaspyNexus.Snmp.Embedded

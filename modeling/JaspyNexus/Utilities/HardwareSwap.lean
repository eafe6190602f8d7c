import Mathlib
import JaspyNexus.Utilities.ImdsReports

/-! # Hardware swaps

A refresh that brings another base MAC means another chassis behind the name: the
interfaces start over and their history goes. A MAC is its hex digits, however it
is written, and the one known of a device is the last that a refresh brought. The
store is followed together with the MACs it was given. -/

namespace JaspyNexus.Utilities
open JaspyNexus.Lib JaspyNexus.Models JaspyNexus.Utilities.Health JaspyNexus.Utilities.ImdsReports

/-! ## What a MAC says -/

/-- The digits of a MAC: its separators and the case of its letters do not count. -/
def macDigits (mac : String) : List Char := (mac.toList.filter Stp.isAsciiHexdigit).map Char.toLower

/-- The MAC that a row brings, if it has a digit. -/
def brought (baseMac : Option String) : Option (List Char) :=
  (baseMac.map macDigits).filter fun digits => digits ≠ []

/-- The last MAC brought, of the rows so far, newest first. -/
def learned (macs : List (Option String)) : Option (List Char) := macs.findSome? brought

/-- Digits as the store writes them. -/
def colonForm (digits : List Char) : String := ":".intercalate (Stp.chunks2 digits)

theorem isAsciiHexdigit_toLower {c : Char} (h : Stp.isAsciiHexdigit c = true) :
    Stp.isAsciiHexdigit c.toLower = true := by
  unfold Stp.isAsciiHexdigit at h ⊢
  unfold Char.toLower
  split
  · next hu =>
    have h0 : '0'.val.toNat = 48 := rfl
    have h9 : '9'.val.toNat = 57 := rfl
    have hA : 'A'.val.toNat = 65 := rfl
    have hF : 'F'.val.toNat = 70 := rfl
    have hZ : 'Z'.val.toNat = 90 := rfl
    have ha : 'a'.val.toNat = 97 := rfl
    have hf : 'f'.val.toNat = 102 := rfl
    have hupper := UInt32.le_iff_toNat_le.mp hu.2
    have hadd : (c.val + ('a'.val - 'A'.val)).toNat = c.val.toNat + 32 := by
      rw [UInt32.toNat_add, show ('a'.val - 'A'.val).toNat = 32 from rfl]
      omega
    simp only [Char.isDigit, Bool.or_eq_true, Bool.and_eq_true, decide_eq_true_eq, Char.le_def,
      UInt32.le_iff_toNat_le, ge_iff_le, hadd, h0, h9, hA, hF, hZ, ha, hf] at h hu ⊢
    omega
  · exact h

theorem isAsciiHexdigit_macDigits {mac : String} {c : Char} (h : c ∈ macDigits mac) :
    Stp.isAsciiHexdigit c = true := by
  obtain ⟨d, hd, rfl⟩ := List.mem_map.mp h
  exact isAsciiHexdigit_toLower (List.mem_filter.mp hd).2

theorem chunks2_eq_nil {digits : List Char} : Stp.chunks2 digits = [] ↔ digits = [] := by
  match digits with
  | [] => simp [Stp.chunks2]
  | [a] => simp [Stp.chunks2]
  | a :: b :: rest => simp [Stp.chunks2]

/-- The digits can be read back. -/
theorem filter_colonForm {digits : List Char} (h : ∀ c ∈ digits, Stp.isAsciiHexdigit c = true) :
    (colonForm digits).toList.filter Stp.isAsciiHexdigit = digits := by
  unfold colonForm
  fun_induction Stp.chunks2 digits with
  | case1 => rfl
  | case2 a =>
    rw [String.intercalate_singleton, String.toList_ofList, List.filter_eq_self]
    exact h
  | case3 a b rest ih =>
    have hrest := ih fun c hc => h c (List.mem_cons_of_mem _ (List.mem_cons_of_mem _ hc))
    have ha := h a List.mem_cons_self
    have hb := h b (List.mem_cons_of_mem _ List.mem_cons_self)
    by_cases hnil : rest = []
    · subst hnil
      rw [show Stp.chunks2 [] = [] from rfl, String.intercalate_singleton, String.toList_ofList]
      simp [ha, hb]
    · rw [String.intercalate_cons_of_ne_nil (fun hc => hnil (chunks2_eq_nil.mp hc))]
      rw [String.toList_append, String.toList_append, String.toList_ofList, List.filter_append,
        List.filter_append, hrest]
      have hcolon : ":".toList.filter Stp.isAsciiHexdigit = [] := by decide
      rw [hcolon]
      simp [ha, hb]

theorem normalizeMac_eq (mac : String) : Stp.normalizeMac mac = colonForm (macDigits mac) := rfl

/-- **Normalizing keeps the digits and nothing else.** -/
theorem normalizeMac_eq_iff {a b : String} :
    Stp.normalizeMac a = Stp.normalizeMac b ↔ macDigits a = macDigits b := by
  constructor
  · intro h
    have ha : ∀ c ∈ macDigits a, Stp.isAsciiHexdigit c = true := fun c => isAsciiHexdigit_macDigits
    rw [← filter_colonForm ha, ← normalizeMac_eq, h, normalizeMac_eq,
      filter_colonForm fun c => isAsciiHexdigit_macDigits]
  · intro h
    rw [normalizeMac_eq, normalizeMac_eq, h]

theorem normalizeMac_eq_empty {mac : String} : Stp.normalizeMac mac = "" ↔ macDigits mac = [] := by
  rw [show "" = Stp.normalizeMac "" from rfl, normalizeMac_eq_iff]
  rfl

/-- What the store knows of a row is the MAC it brings. -/
theorem knownMac_eq (baseMac : Option String) : knownMac baseMac = (brought baseMac).map colonForm := by
  cases baseMac with
  | none => rfl
  | some mac =>
    unfold knownMac brought
    rw [Option.map_some, Option.map_some]
    by_cases h : macDigits mac = []
    · simp [Option.filter, h, normalizeMac_eq_empty.mpr h]
    · have hknown : Stp.normalizeMac mac ≠ "" := fun hc => h (normalizeMac_eq_empty.mp hc)
      rw [normalizeMac_eq] at hknown
      simp [Option.filter, h, hknown, normalizeMac_eq]

theorem brought_hex {baseMac : Option String} {digits : List Char}
    (h : brought baseMac = some digits) : ∀ c ∈ digits, Stp.isAsciiHexdigit c = true := by
  unfold brought at h
  obtain ⟨hmap, -⟩ := Option.filter_eq_some_iff.mp h
  obtain ⟨mac, -, rfl⟩ := Option.map_eq_some_iff.mp hmap
  exact fun c hc => isAsciiHexdigit_macDigits hc

theorem learned_cons (baseMac : Option String) (macs : List (Option String)) :
    learned (baseMac :: macs) = (brought baseMac).or (learned macs) := by
  unfold learned
  rw [List.findSome?_cons]
  cases brought baseMac <;> rfl

theorem learned_hex {macs : List (Option String)} {digits : List Char}
    (h : learned macs = some digits) : ∀ c ∈ digits, Stp.isAsciiHexdigit c = true := by
  obtain ⟨baseMac, -, hbrought⟩ := List.exists_of_findSome?_eq_some h
  exact brought_hex hbrought

/-! ## The MAC of a device -/

/-- The base MAC that the store knows of a device. -/
def Imds.mac? (imds : Imds) (fqdn : String) : Option String :=
  (imds.devices fqdn).bind DeviceMetrics.baseMac

section Frame
variable (imds : Imds) (fqdn f : String)

/-- Replacing a device under the same MAC. -/
theorem mac?_insert {device device' : DeviceMetrics} {health : HealthStore}
    (hd : imds.devices fqdn = some device) (hmac : device'.baseMac = device.baseMac) :
    Imds.mac? ⟨PMap.insert imds.devices fqdn device', health⟩ f = imds.mac? f := by
  unfold Imds.mac?
  by_cases hf : f = fqdn
  · subst hf; simp [hd, hmac]
  · simp [hf]

theorem mac?_refreshDevice (baseMac : Option String) (now : Nat) :
    (imds.refreshDevice fqdn baseMac now).mac? f =
      if f = fqdn then (knownMac baseMac).or (imds.mac? fqdn) else imds.mac? f := by
  unfold Imds.refreshDevice Imds.mac?
  cases hd : imds.devices fqdn with
  | none =>
    by_cases hf : f = fqdn
    · subst hf; simp [newDevice]
    · simp [hf]
  | some device =>
    dsimp only
    by_cases hf : f = fqdn
    · subst hf
      split <;> simp
    · split <;> simp [hf]

theorem mac?_refreshInterface (ifIndex : Int) (interfaceType name : String) (neighbors : Bool)
    (speedOverride : Option Int) :
    (imds.refreshInterface fqdn ifIndex interfaceType name neighbors speedOverride).mac? f =
      imds.mac? f := by
  unfold Imds.refreshInterface
  cases hd : imds.devices fqdn with
  | none => rfl
  | some device =>
    dsimp only
    split <;> exact mac?_insert imds fqdn f hd rfl

theorem mac?_retainDevices (keep : String → Bool) :
    (imds.retainDevices keep).mac? f = if keep f then imds.mac? f else none := by
  unfold Imds.retainDevices Imds.mac?
  simp only [PMap.retain_apply]
  split <;> rfl

theorem mac?_retainInterfaces (keep : Int → Bool) :
    (imds.retainInterfaces fqdn keep).mac? f = imds.mac? f := by
  unfold Imds.retainInterfaces
  cases hd : imds.devices fqdn with
  | none => rfl
  | some device => exact mac?_insert imds fqdn f hd rfl

theorem mac?_reportDevice (neighbors : Option (List String)) (report : DeviceMonitorReport)
    (now : Nat) : (imds.reportDevice neighbors report now).1.mac? f = imds.mac? f := by
  unfold Imds.reportDevice
  cases hd : imds.devices report.fqdn with
  | none =>
    unfold Imds.mac?
    by_cases hf : f = report.fqdn
    · subst hf; simp [PMap.getD, hd, newDevice]
    · simp [hf]
  | some device => exact mac?_insert imds report.fqdn f hd (by simp [PMap.getD, hd])

theorem mac?_reportInterface (cfg : HealthConfig) (ctx : ReportContext) (now : Nat)
    (r : InterfaceReport) :
    (imds.reportInterface cfg fqdn ctx now r).1.mac? f = imds.mac? f := by
  unfold Imds.reportInterface
  cases hd : imds.devices fqdn with
  | none => rfl
  | some device =>
    dsimp only
    split
    · rfl
    · split
      · rfl
      · split <;> exact mac?_insert imds fqdn f hd rfl

end Frame

/-! ## The store with the MACs it was given -/

/-- The watched store and, of every device, the base MACs refreshed since it was
taken in, newest first. -/
structure Chassis where
  watched : Watched
  macs : String → List (Option String)

def Chassis.start (loaded : HealthStore) : Chassis := ⟨Watched.start loaded, fun _ => []⟩

/-- The MACs go with the device. -/
def Chassis.step (cfg : HealthConfig) (c : Chassis) (op : Op) : Chassis where
  watched := c.watched.step cfg op
  macs := match op with
    | .refreshDevice fqdn baseMac _ =>
      Function.update c.macs fqdn (baseMac :: c.macs fqdn)
    | .retainDevices keep => fun f => if keep f then c.macs f else []
    | _ => c.macs

def Chassis.run (cfg : HealthConfig) (loaded : HealthStore) (ops : List Op) : Chassis :=
  ops.foldl (Chassis.step cfg) (Chassis.start loaded)

theorem Chassis.run_watched (cfg : HealthConfig) (loaded : HealthStore) (ops : List Op) :
    (Chassis.run cfg loaded ops).watched = Watched.run cfg loaded ops := by
  have hfold : ∀ (rest : List Op) (c : Chassis), (rest.foldl (Chassis.step cfg) c).watched =
      rest.foldl (Watched.step cfg) c.watched := by
    intro rest
    induction rest with
    | nil => intro c; rfl
    | cons op rest ih => intro c; rw [List.foldl_cons, ih]; rfl
  exact hfold ops (Chassis.start loaded)

/-- The store knows the last MAC brought. -/
def Chassis.Knows (c : Chassis) : Prop :=
  ∀ f, c.watched.imds.mac? f = (learned (c.macs f)).map colonForm

theorem Chassis.Knows.step {c : Chassis} (h : c.Knows) (cfg : HealthConfig) (op : Op) :
    (c.step cfg op).Knows := by
  intro f
  simp only [Chassis.step]
  cases op with
  | refreshDevice fqdn baseMac now =>
    simp only [Watched.step, mac?_refreshDevice, Function.update_apply]
    by_cases hf : f = fqdn
    · rw [if_pos hf, if_pos hf, learned_cons, knownMac_eq, h fqdn]
      cases brought baseMac <;> rfl
    · rw [if_neg hf, if_neg hf]
      exact h f
  | refreshInterface fqdn ifIndex interfaceType name neighbors speedOverride =>
    simp only [Watched.step, mac?_refreshInterface]
    exact h f
  | retainDevices keep =>
    simp only [Watched.step, mac?_retainDevices]
    split
    · exact h f
    · rfl
  | retainInterfaces fqdn keep =>
    simp only [Watched.step, mac?_retainInterfaces]
    exact h f
  | reportDevice neighbors report now =>
    simp only [Watched.step, mac?_reportDevice]
    exact h f
  | reportInterfaces remote imr now observed =>
    simp only [Watched.step]
    cases hd : c.watched.imds.devices imr.deviceFqdn with
    | none => exact h f
    | some device =>
      refine Runs.foldl_inv
        (fun w : Watched => w.imds.mac? f = (learned (c.macs f)).map colonForm)
        (fun w r hw => ?_) imr.interfaces ?_
      · rw [Watched.reportInterface_imds, mac?_reportInterface]
        exact hw
      · rw [← h f]
        exact mac?_insert c.watched.imds imr.deviceFqdn f hd rfl

theorem knows_run (cfg : HealthConfig) (loaded : HealthStore) (ops : List Op) :
    (Chassis.run cfg loaded ops).Knows :=
  Runs.foldl_inv Chassis.Knows (fun _ op h => h.step cfg op) ops fun _ => rfl

/-! ## When a refresh resets -/

/-- A MAC is brought, another one was learned. -/
def Swaps (macs : List (Option String)) (baseMac : Option String) : Prop :=
  ∃ new old, brought baseMac = some new ∧ learned macs = some old ∧ new ≠ old

theorem swapped_iff {c : Chassis} (h : c.Knows) (f : String) (baseMac : Option String) :
    (c.watched.imds.devices f).any (Imds.swapped · baseMac) = true ↔ Swaps (c.macs f) baseMac := by
  have hmac := h f
  unfold Imds.mac? at hmac
  have hswapped : (c.watched.imds.devices f).any (Imds.swapped · baseMac) = true ↔
      ∃ new old, knownMac baseMac = some new ∧
        (c.watched.imds.devices f).bind DeviceMetrics.baseMac = some old ∧ old ≠ new := by
    cases c.watched.imds.devices f with
    | none => simp
    | some device =>
      simp only [Option.any_some, Option.bind_some, Imds.swapped]
      cases knownMac baseMac <;> cases device.baseMac <;> simp
  rw [hswapped, hmac, knownMac_eq]
  constructor
  · intro hex
    obtain ⟨new, old, hnew, hold, hne⟩ := hex
    obtain ⟨newDigits, hbrought, rfl⟩ := Option.map_eq_some_iff.mp hnew
    obtain ⟨oldDigits, hlearned, rfl⟩ := Option.map_eq_some_iff.mp hold
    exact ⟨newDigits, oldDigits, hbrought, hlearned, fun heq => hne (by rw [heq])⟩
  · intro hex
    obtain ⟨new, old, hbrought, hlearned, hne⟩ := hex
    refine ⟨colonForm new, colonForm old, by rw [hbrought]; rfl, by rw [hlearned]; rfl, ?_⟩
    intro heq
    have hread := congrArg (fun s : String => s.toList.filter Stp.isAsciiHexdigit) heq
    simp only [filter_colonForm (brought_hex hbrought), filter_colonForm (learned_hex hlearned)]
      at hread
    exact hne hread.symm

/-- The interfaces of a device started over, without a history, and no others. -/
def Reset (fqdn : String) (before after : Imds) : Prop :=
  (∀ i, after.interface? fqdn i = (before.interface? fqdn i).map InterfaceMetrics.resetCounters ∧
    after.health.at? fqdn i = none) ∧
  ∀ f i, f ≠ fqdn → after.interface? f i = before.interface? f i ∧
    after.health.at? f i = before.health.at? f i

/-- Every interface and every history stays. -/
def Kept (before after : Imds) : Prop :=
  (∀ f i, after.interface? f i = before.interface? f i) ∧ after.health = before.health

/-- The samples of an interface. -/
def samplesOf (health : HealthStore) (fqdn : String) (ifIndex : Int) : List Sample :=
  ((health.at? fqdn ifIndex).map InterfaceHealth.samples).getD []

/-- What a refresh does in a state of the store, and what follows a reset. -/
structure SwapRuled (cfg : HealthConfig) (c : Chassis) : Prop where
  known : ∀ f, c.watched.imds.mac? f = (learned (c.macs f)).map colonForm
  resets : ∀ f baseMac now, Swaps (c.macs f) baseMac →
    Reset f c.watched.imds (c.watched.imds.refreshDevice f baseMac now) ∧
    ∀ i, (c.watched.step cfg (.refreshDevice f baseMac now)).turns f i = []
  keeps : ∀ f baseMac now, ¬Swaps (c.macs f) baseMac →
    Kept c.watched.imds (c.watched.imds.refreshDevice f baseMac now)
  quiet : ∀ f baseMac now,
    brought baseMac = none ∨ learned (c.macs f) = none ∨ brought baseMac = learned (c.macs f) →
    Kept c.watched.imds (c.watched.imds.refreshDevice f baseMac now) ∧
    (c.watched.imds.refreshDevice f baseMac now).mac? f =
      ((learned (c.macs f)).or (brought baseMac)).map colonForm
  first : ∀ f i t, (c.watched.turns f i).getLast? = some t → 0 < t.now →
    t.verdict = .accepted ∧ t.events = [] ∧
    samplesOf t.healthLeft f i <:+ samplesOf t.healthFound f i

/-- **A fresh entry takes any report**, without an event or a sample. -/
theorem first_turn {cfg : HealthConfig} {fqdn : String} {ifIndex : Int} {t : Turn}
    (hruled : t.Ruled cfg fqdn ifIndex) (hfresh : Fresh t.found) (hclock : 0 < t.now) :
    t.verdict = .accepted ∧ t.events = [] ∧
    samplesOf t.healthLeft fqdn ifIndex <:+ samplesOf t.healthFound fqdn ifIndex := by
  have hlast := hfresh.lastReport
  have hup : t.found.up = none := by rw [← show t.found.resetCounters = t.found from hfresh]; rfl
  have hspeed : t.found.speed = none := by
    rw [← show t.found.resetCounters = t.found from hfresh]; rfl
  have hverdict : t.verdict = .accepted := by
    unfold Turn.verdict verdict
    rw [if_neg (by omega)]
    rcases validateCounters_cases t.found t.report with ⟨-, hv⟩ | ⟨-, hv⟩ | ⟨-, hv⟩
    · rw [hv]; rfl
    · rw [hv]; rfl
    · -- a refusal needs a counter to go back from
      exfalso
      have hcounters : ∀ c, t.found.counters c = none := by
        intro c
        rw [← show t.found.resetCounters = t.found from hfresh]; rfl
      have hall : (Counter.all.all fun c =>
          forwardProgress (t.found.counters c) (t.report.counters c)) = true := by
        refine List.all_eq_true.mpr fun c _ => ?_
        rw [hcounters c]
        rfl
      unfold validateCounters at hv
      rw [hfresh.counterViolations, if_neg (by omega), if_pos hall] at hv
      cases hv
  refine ⟨hverdict, ?_, ?_⟩
  · obtain ⟨ctx, hevents⟩ := hruled.events hverdict
    rw [hevents]
    unfold reportEvents
    rw [hup, hspeed]
    rfl
  · unfold samplesOf
    rw [hruled.health, if_pos hverdict, HealthStore.at?_ingest, if_pos ⟨rfl, rfl⟩]
    have hinterval : (sampleInput t.found t.report t.now).intervalMs = 0 := by
      simp [sampleInput, hlast]
    simp only [Option.map_some, Option.getD_some, ingest, prune, hinterval, Nat.lt_irrefl, if_false]
    have hsame : ((t.healthFound.at? fqdn ifIndex).getD InterfaceHealth.empty).samples =
        ((t.healthFound.at? fqdn ifIndex).map InterfaceHealth.samples).getD [] := by
      cases t.healthFound.at? fqdn ifIndex <;> rfl
    rw [← hsame]
    exact List.dropWhile_suffix _

theorem kept_of_not_swaps {c : Chassis} (h : c.Knows) {f : String} {baseMac : Option String}
    (hno : ¬Swaps (c.macs f) baseMac) (now : Nat) :
    Kept c.watched.imds (c.watched.imds.refreshDevice f baseMac now) := by
  rcases refreshDevice_cases c.watched.imds f baseMac now with
    ⟨hentry, hhealth, -⟩ | ⟨device, hd, hs, -⟩
  · exact ⟨hentry, hhealth⟩
  · refine absurd ((swapped_iff h f baseMac).mp ?_) hno
    rw [hd]
    exact hs

theorem reset_of_swaps {c : Chassis} (h : c.Knows) {f : String} {baseMac : Option String}
    (hswaps : Swaps (c.macs f) baseMac) (now : Nat) :
    Reset f c.watched.imds (c.watched.imds.refreshDevice f baseMac now) := by
  have hany := (swapped_iff h f baseMac).mpr hswaps
  refine ⟨fun i => ⟨?_, ?_⟩, fun g i hg => ⟨?_, ?_⟩⟩
  · rw [interface?_refreshDevice, if_pos ⟨rfl, hany⟩]
  · rw [health_refreshDevice, if_pos ⟨rfl, hany⟩]
  · rw [interface?_refreshDevice, if_neg fun hc => hg hc.1]
  · rw [health_refreshDevice, if_neg fun hc => hg hc.1]

theorem not_swaps {macs : List (Option String)} {baseMac : Option String}
    (h : brought baseMac = none ∨ learned macs = none ∨ brought baseMac = learned macs) :
    ¬Swaps macs baseMac := by
  intro hswaps
  obtain ⟨new, old, hnew, hold, hne⟩ := hswaps
  rw [hnew, hold] at h
  rcases h with h | h | h
  · cases h
  · cases h
  · exact hne (Option.some.inj h)

/-- **The chassis over every run of the store**: a refresh resets a device exactly
when it brings another MAC than the one learned; what brings none, the first one or
the same one again keeps everything, and the first report after a reset is taken in
silence. -/
theorem swaps_ruled (cfg : HealthConfig) (loaded : HealthStore) (ops : List Op) :
    SwapRuled cfg (Chassis.run cfg loaded ops) := by
  have hknows := knows_run cfg loaded ops
  have htold : (Chassis.run cfg loaded ops).watched.Told cfg loaded := by
    rw [Chassis.run_watched]
    exact told_run cfg loaded ops
  refine ⟨hknows, fun f baseMac now hswaps => ⟨reset_of_swaps hknows hswaps now, fun i => ?_⟩,
    fun f baseMac now hno => kept_of_not_swaps hknows hno now,
    fun f baseMac now hquiet => ⟨kept_of_not_swaps hknows (not_swaps hquiet) now, ?_⟩,
    fun f i t ht hclock => ?_⟩
  · exact if_pos ⟨rfl, (swapped_iff hknows f baseMac).mpr hswaps⟩
  · rw [mac?_refreshDevice, if_pos rfl, hknows f, knownMac_eq]
    rcases hquiet with hnone | hnone | hsame
    · rw [hnone]
      cases learned ((Chassis.run cfg loaded ops).macs f) <;> rfl
    · rw [hnone]
      cases brought baseMac <;> rfl
    · rw [hsame]
      cases learned ((Chassis.run cfg loaded ops).macs f) <;> rfl
  · have hfollowed := htold f i
    have hmem : t ∈ (Chassis.run cfg loaded ops).watched.turns f i :=
      List.mem_of_getLast? ht
    cases hm : (Chassis.run cfg loaded ops).watched.imds.interface? f i with
    | none =>
      rw [hfollowed.absent hm] at ht
      cases ht
    | some m =>
      exact first_turn (hfollowed.ruled t hmem) ((hfollowed.entry m hm).oldest ht) hclock

end JaspyNexus.Utilities

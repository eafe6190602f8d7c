import Mathlib
import JaspyNexus.Models.Dbo
import JaspyNexus.Utilities.Imds

/-! # The refresh from the database

`refresh_imds_items` of `main.rs`: it reads the monitored devices and their
interfaces, and then, under the lock, drops what was not read and refreshes the
rest. A query that fails reads as nothing, so what it should have read is
dropped. -/

namespace JaspyNexus.Utilities
open JaspyNexus.Lib JaspyNexus.Models JaspyNexus.Utilities.Health

/-- One interface row of a refresh. -/
def Imds.refreshRow (fqdn : String) (imds : Imds) (row : Interface) : Imds :=
  imds.refreshInterface fqdn row.index row.interfaceType row.shownName
    (row.connectedInterface.isSome || row.virtualConnection.isSome) row.speedOverride

/-- One device of a refresh, with what was read of its interfaces. -/
def Imds.refreshItems (read : PMap String (List Interface)) (now : Nat) (imds : Imds)
    (device : Device) : Imds :=
  let known := imds.refreshDevice device.fqdn device.baseMac now
  match read device.fqdn with
  | some rows =>
    (rows.foldl (Imds.refreshRow device.fqdn) known).retainInterfaces device.fqdn fun i =>
      rows.any fun row => row.index = i
  | none => known

/-- The interfaces read, by fqdn: a later device of the same name replaces the
rows of an earlier one. -/
def readInterfaces (rows : Device → List Interface) (devices : List Device) :
    PMap String (List Interface) :=
  devices.foldl (fun read device => PMap.insert read device.fqdn (rows device)) PMap.empty

/-- What a refresh does under the lock with what it has read. -/
def Imds.applyRefresh (devices : List Device) (rows : Device → List Interface) (now : Nat)
    (imds : Imds) : Imds :=
  let read := readInterfaces rows devices
  devices.foldl (Imds.refreshItems read now) (imds.retainDevices fun fqdn => (read fqdn).isSome)

/-- The queries of a refresh for the devices' interfaces. -/
def rowsOf (db : Database) (answers : Answers) (device : Device) : List Interface :=
  device.interfaces db (answers.interfaces device.id)

/-- `refresh_imds_items`; `lock` is whether the store's lock was taken. -/
def refreshImdsItems (db : Database) (answers : Answers) (lock : Bool) (now : Nat) (imds : Imds) :
    Imds :=
  if lock then imds.applyRefresh (Device.monitored db answers.monitored) (rowsOf db answers) now
  else imds

/-- The refresh of `imds_worker`: nothing happens without a connection. -/
def imdsRefresh (db : Database) (answers : Answers) (lock : Bool) (now : Nat) (imds : Imds) : Imds :=
  if answers.pool then refreshImdsItems db answers lock now imds else imds

/-! ## What one device's refresh does -/

/-- The device and its health history are untouched. -/
structure SameAt (f : String) (imds out : Imds) : Prop where
  devices : out.devices f = imds.devices f
  health : out.health f = imds.health f

theorem SameAt.interface? {f : String} {imds out : Imds} (h : SameAt f imds out) (i : Int) :
    out.interface? f i = imds.interface? f i := by
  unfold Imds.interface?; rw [h.devices]

theorem SameAt.at? {f : String} {imds out : Imds} (h : SameAt f imds out) (i : Int) :
    out.health.at? f i = imds.health.at? f i := by
  unfold HealthStore.at?; rw [h.health]

theorem SameAt.trans {f : String} {imds out out' : Imds} (h : SameAt f imds out)
    (h' : SameAt f out out') : SameAt f imds out' :=
  ⟨h'.devices.trans h.devices, h'.health.trans h.health⟩

section Other
variable {f fqdn : String} (hne : f ≠ fqdn) (imds : Imds)
include hne

theorem refreshDevice_other (baseMac : Option String) (now : Nat) :
    SameAt f imds (imds.refreshDevice fqdn baseMac now) := by
  unfold Imds.refreshDevice
  split
  · exact ⟨PMap.insert_of_ne _ _ hne, rfl⟩
  · dsimp only
    split
    · exact ⟨PMap.insert_of_ne _ _ hne, Function.update_of_ne hne ..⟩
    · exact ⟨PMap.insert_of_ne _ _ hne, rfl⟩

theorem refreshRow_other (row : Interface) : SameAt f imds (Imds.refreshRow fqdn imds row) := by
  unfold Imds.refreshRow Imds.refreshInterface
  split
  · exact ⟨rfl, rfl⟩
  · split
    · exact ⟨PMap.insert_of_ne _ _ hne, rfl⟩
    · exact ⟨PMap.insert_of_ne _ _ hne, rfl⟩

theorem retainInterfaces_other (keep : Int → Bool) :
    SameAt f imds (imds.retainInterfaces fqdn keep) := by
  unfold Imds.retainInterfaces HealthStore.retainInterfaces
  refine ⟨?_, ?_⟩
  · cases imds.devices fqdn with
    | none => rfl
    | some device => exact PMap.insert_of_ne _ _ hne
  · cases imds.health fqdn with
    | none => rfl
    | some interfaces => exact PMap.insert_of_ne _ _ hne

theorem refreshRows_other (rows : List Interface) :
    SameAt f imds (rows.foldl (Imds.refreshRow fqdn) imds) := by
  induction rows generalizing imds with
  | nil => exact ⟨rfl, rfl⟩
  | cons row rows ih => exact (refreshRow_other hne imds row).trans (ih _)

end Other

theorem refreshItems_other {f : String} (read : PMap String (List Interface)) (now : Nat) (imds : Imds)
    {device : Device} (hne : f ≠ device.fqdn) :
    SameAt f imds (Imds.refreshItems read now imds device) := by
  unfold Imds.refreshItems
  dsimp only
  split
  · exact ((refreshDevice_other hne imds _ now).trans (refreshRows_other hne _ _)).trans
      (retainInterfaces_other hne _ _)
  · exact refreshDevice_other hne imds _ now

/-- The base MAC on record is `mac`, if one is. -/
def OneMac (mac : String) (baseMac : Option String) : Prop := ∀ m, baseMac = some m → m = mac

/-- The device is there, and the refresh of its interfaces started from it. -/
theorem refreshDevice_self (imds : Imds) (fqdn : String) (baseMac : Option String) (now : Nat) :
    ∃ device, (imds.refreshDevice fqdn baseMac now).devices fqdn = some device ∧
      device.up = (imds.devices fqdn).bind DeviceMetrics.up ∧
      ∀ mac, OneMac mac (knownMac baseMac) →
        (∀ old, imds.devices fqdn = some old → OneMac mac old.baseMac) →
        OneMac mac device.baseMac ∧ (imds.refreshDevice fqdn baseMac now).health = imds.health := by
  unfold Imds.refreshDevice
  cases hd : imds.devices fqdn with
  | none => exact ⟨_, PMap.insert_self .., rfl, fun mac hmac _ => ⟨hmac, rfl⟩⟩
  | some old =>
    dsimp only
    have hor : ∀ mac, OneMac mac (knownMac baseMac) → OneMac mac old.baseMac →
        OneMac mac ((knownMac baseMac).or old.baseMac) := by
      intro mac hnew hold m hm
      cases hk : knownMac baseMac with
      | none => rw [hk] at hm; exact hold m hm
      | some k => rw [hk] at hm; exact hnew m (by rw [hk]; exact hm)
    split
    · next hswap =>
      refine ⟨_, PMap.insert_self .., rfl, fun mac hnew hold => ?_⟩
      -- the two MACs differ
      exfalso
      unfold Imds.swapped at hswap
      split at hswap
      · next new m hk hm =>
        have h1 := hnew new hk
        have h2 := hold old rfl m hm
        simp [h1, h2] at hswap
      · cases hswap
    · exact ⟨_, PMap.insert_self .., rfl, fun mac hnew hold => ⟨hor mac hnew (hold old rfl), rfl⟩⟩

/-- A row's refresh makes its entry, and keeps the device and the other entries. -/
theorem refreshRow_self (imds : Imds) (fqdn : String) (row : Interface) {device : DeviceMetrics}
    (hd : imds.devices fqdn = some device) :
    (∃ device', (Imds.refreshRow fqdn imds row).devices fqdn = some device' ∧
      device'.up = device.up ∧ device'.baseMac = device.baseMac ∧
      (device'.interfaces row.index).isSome = true ∧
      ∀ i, (device.interfaces i).isSome = true → (device'.interfaces i).isSome = true) ∧
    (Imds.refreshRow fqdn imds row).health = imds.health := by
  unfold Imds.refreshRow Imds.refreshInterface
  simp only [hd]
  have hkeep : ∀ (m : InterfaceMetrics) (i : Int), (device.interfaces i).isSome = true →
      (PMap.insert device.interfaces row.index m i).isSome = true := by
    intro m i hi
    rw [PMap.insert_apply]
    split
    · rfl
    · exact hi
  split
  · exact ⟨⟨_, PMap.insert_self .., rfl, rfl, by simp, hkeep _⟩, rfl⟩
  · exact ⟨⟨_, PMap.insert_self .., rfl, rfl, by simp, hkeep _⟩, rfl⟩

theorem refreshRows_self (rows : List Interface) (imds : Imds) (fqdn : String)
    {device : DeviceMetrics} (hd : imds.devices fqdn = some device) :
    (∃ device', (rows.foldl (Imds.refreshRow fqdn) imds).devices fqdn = some device' ∧
      device'.up = device.up ∧ device'.baseMac = device.baseMac ∧
      (∀ row ∈ rows, (device'.interfaces row.index).isSome = true) ∧
      ∀ i, (device.interfaces i).isSome = true → (device'.interfaces i).isSome = true) ∧
    (rows.foldl (Imds.refreshRow fqdn) imds).health = imds.health := by
  induction rows generalizing imds device with
  | nil => exact ⟨⟨device, hd, rfl, rfl, by simp, fun _ h => h⟩, rfl⟩
  | cons row rows ih =>
    obtain ⟨⟨device₁, hd₁, hup₁, hmac₁, hrow, hkeep₁⟩, hhealth₁⟩ := refreshRow_self imds fqdn row hd
    obtain ⟨⟨device₂, hd₂, hup₂, hmac₂, hrows, hkeep₂⟩, hhealth₂⟩ := ih _ hd₁
    refine ⟨⟨device₂, hd₂, hup₂.trans hup₁, hmac₂.trans hmac₁, fun r hr => ?_,
      fun i hi => hkeep₂ i (hkeep₁ i hi)⟩, hhealth₂.trans hhealth₁⟩
    rcases List.mem_cons.mp hr with rfl | hr
    · exact hkeep₂ _ hrow
    · exact hrows r hr

theorem retainInterfaces_self {imds : Imds} {fqdn : String} {device : DeviceMetrics}
    (hd : imds.devices fqdn = some device) (keep : Int → Bool) :
    (imds.retainInterfaces fqdn keep).devices fqdn =
      some { device with interfaces := PMap.retain device.interfaces keep } := by
  simp [Imds.retainInterfaces, hd]

/-- **What the refresh of a device leaves of it**: exactly the interfaces read, and
their health histories when the chassis is the same. -/
theorem refreshItems_self {read : PMap String (List Interface)} (now : Nat) (imds : Imds)
    {device : Device} {rows : List Interface} (hread : read device.fqdn = some rows) :
    let out := Imds.refreshItems read now imds device
    (∃ new, out.devices device.fqdn = some new ∧
      new.up = (imds.devices device.fqdn).bind DeviceMetrics.up) ∧
    (∀ i, HasIndex rows i → (out.interface? device.fqdn i).isSome = true) ∧
    (∀ i, ¬HasIndex rows i →
      out.interface? device.fqdn i = none ∧ out.health.at? device.fqdn i = none) ∧
    ∀ mac, OneMac mac (knownMac device.baseMac) →
      (∀ old, imds.devices device.fqdn = some old → OneMac mac old.baseMac) →
      (∀ new, out.devices device.fqdn = some new → OneMac mac new.baseMac) ∧
      ∀ i, HasIndex rows i → out.health.at? device.fqdn i = imds.health.at? device.fqdn i := by
  have hkeepIff : ∀ i, (rows.any fun row => row.index = i) = true ↔ HasIndex rows i := by
    simp [HasIndex]
  obtain ⟨known, hknown, hup, hchassis⟩ := refreshDevice_self imds device.fqdn device.baseMac now
  obtain ⟨⟨full, hfull, hup', hmac, hrows, -⟩, hhealth⟩ := refreshRows_self rows _ _ hknown
  have hdrop : ∀ i, ¬HasIndex rows i → (rows.any fun row => row.index = i) = false :=
    fun i hi => by simpa [HasIndex] using hi
  unfold Imds.refreshItems
  simp only [hread]
  refine ⟨?_, fun i hi => ?_, fun i hi => ⟨?_, ?_⟩, fun mac hnew hold => ⟨fun new hn => ?_, fun i hi => ?_⟩⟩
  · exact ⟨_, retainInterfaces_self hfull _, hup'.trans hup⟩
  · rw [interface?_retainInterfaces, if_neg (by simp [(hkeepIff i).mpr hi])]
    obtain ⟨row, hrow, rfl⟩ := hi
    simpa [Imds.interface?, hfull] using hrows row hrow
  · rw [interface?_retainInterfaces, if_pos ⟨rfl, hdrop i hi⟩]
  · exact (HealthStore.at?_retainInterfaces _ _ _ _ _).trans (if_pos ⟨rfl, hdrop i hi⟩)
  · rw [retainInterfaces_self hfull] at hn
    cases hn
    rw [hmac]
    exact (hchassis mac hnew hold).1
  · refine (HealthStore.at?_retainInterfaces _ _ _ _ _).trans ?_
    rw [if_neg (by simp [(hkeepIff i).mpr hi]), hhealth, (hchassis mac hnew hold).2]

/-! ## The whole refresh -/

section All
variable {read : PMap String (List Interface)} (now : Nat) {f : String} {rows : List Interface}

/-- After the refresh a device that was read has the interfaces read. -/
theorem refreshAll_self (hread : read f = some rows) (devices : List Device) (imds : Imds)
    (hmem : ∃ device ∈ devices, device.fqdn = f) :
    let out := devices.foldl (Imds.refreshItems read now) imds
    (out.devices f).isSome = true ∧
    (∀ i, HasIndex rows i → (out.interface? f i).isSome = true) ∧
    ∀ i, ¬HasIndex rows i → out.interface? f i = none ∧ out.health.at? f i = none := by
  induction devices using List.reverseRecOn with
  | nil => obtain ⟨_, h, _⟩ := hmem; cases h
  | append_singleton devices last ih =>
    rw [List.foldl_append, List.foldl_cons, List.foldl_nil]
    -- the last device of the name decides
    by_cases hf : last.fqdn = f
    · subst hf
      obtain ⟨⟨new, hnew, -⟩, hhas, hnot, -⟩ := refreshItems_self now
        (devices.foldl (Imds.refreshItems read now) imds) hread
      exact ⟨Option.isSome_iff_exists.mpr ⟨new, hnew⟩, hhas, hnot⟩
    · have hsame := refreshItems_other read now
        (devices.foldl (Imds.refreshItems read now) imds) (Ne.symm hf)
      obtain ⟨device, hdevice, hfqdn⟩ := hmem
      have hbefore : ∃ device ∈ devices, device.fqdn = f := by
        rcases List.mem_append.mp hdevice with h | h
        · exact ⟨device, h, hfqdn⟩
        · rw [List.mem_singleton.mp h] at hfqdn
          exact absurd hfqdn hf
      obtain ⟨hdev, hhas, hnot⟩ := ih hbefore
      dsimp only
      rw [hsame.devices]
      simp only [hsame.interface?, hsame.at?]
      exact ⟨hdev, hhas, hnot⟩

/-- While the chassis stays, so do the health histories of the interfaces read. -/
theorem refreshAll_health (hread : read f = some rows) {mac : String} (devices : List Device)
    (imds : Imds) (hmacs : ∀ device ∈ devices, device.fqdn = f → OneMac mac (knownMac device.baseMac))
    (hold : ∀ old, imds.devices f = some old → OneMac mac old.baseMac) :
    let out := devices.foldl (Imds.refreshItems read now) imds
    (∀ new, out.devices f = some new → OneMac mac new.baseMac) ∧
    ∀ i, HasIndex rows i → out.health.at? f i = imds.health.at? f i := by
  induction devices generalizing imds with
  | nil => exact ⟨hold, fun _ _ => rfl⟩
  | cons device devices ih =>
    have hrest : ∀ d ∈ devices, d.fqdn = f → OneMac mac (knownMac d.baseMac) :=
      fun d hd => hmacs d (List.mem_cons_of_mem _ hd)
    rw [List.foldl_cons]
    by_cases hf : device.fqdn = f
    · subst hf
      obtain ⟨-, -, -, hkeep⟩ := refreshItems_self now imds hread
      obtain ⟨hnew, hhealth⟩ := hkeep mac (hmacs device List.mem_cons_self rfl) hold
      obtain ⟨hout, hall⟩ := ih _ hrest hnew
      exact ⟨hout, fun i hi => (hall i hi).trans (hhealth i hi)⟩
    · have hsame := refreshItems_other read now imds (Ne.symm hf)
      obtain ⟨hout, hall⟩ := ih (Imds.refreshItems read now imds device) hrest
        (by rw [hsame.devices]; exact hold)
      exact ⟨hout, fun i hi => (hall i hi).trans (hsame.at? i)⟩

/-- A device's reachability survives the refresh; a device that was not there has
none. -/
theorem refreshAll_up (hread : read f = some rows) (devices : List Device) (imds : Imds)
    {new : DeviceMetrics} (hnew : (devices.foldl (Imds.refreshItems read now) imds).devices f = some new) :
    new.up = (imds.devices f).bind DeviceMetrics.up := by
  induction devices generalizing imds with
  | nil => rw [show imds.devices f = some new from hnew]; rfl
  | cons device devices ih =>
    rw [ih _ hnew]
    by_cases hf : device.fqdn = f
    · subst hf
      obtain ⟨⟨first, hfirst, hup⟩, -⟩ := refreshItems_self now imds hread
      rw [hfirst, Option.bind_some, hup]
    · rw [(refreshItems_other read now imds (Ne.symm hf)).devices]

/-- A device that was not read is not there. -/
theorem refreshAll_unread (hread : read f = none) (devices : List Device) (imds : Imds)
    (hnot : ∀ device ∈ devices, device.fqdn ≠ f) :
    (devices.foldl (Imds.refreshItems read now)
      (imds.retainDevices fun fqdn => (read fqdn).isSome)).devices f = none := by
  refine List.foldlRecOn (motive := fun imds : Imds => imds.devices f = none) _ _ ?_
    fun imds h device hd => ?_
  · simp [Imds.retainDevices, hread]
  · rw [(refreshItems_other read now imds (hnot device hd).symm).devices]
    exact h

end All

/-- The rows of the last device of a name are the ones read for it. -/
theorem readInterfaces_eq (rows : Device → List Interface) (devices : List Device) (f : String) :
    readInterfaces rows devices f =
      (devices.filter fun device => device.fqdn = f).getLast?.map rows := by
  unfold readInterfaces
  induction devices using List.reverseRecOn with
  | nil => rfl
  | append_singleton devices last ih =>
    rw [List.foldl_append, List.foldl_cons, List.foldl_nil, PMap.insert_apply, ih,
      List.filter_append]
    by_cases hf : f = last.fqdn
    · simp [hf]
    · simp [hf, Ne.symm hf]

theorem readInterfaces_isSome (rows : Device → List Interface) {devices : List Device} {f : String} :
    (readInterfaces rows devices f).isSome = true ↔ ∃ device ∈ devices, device.fqdn = f := by
  rw [readInterfaces_eq, Option.isSome_map, List.getLast?_isSome, ← List.length_pos_iff,
    List.length_filter_pos_iff]
  simp

/-- **What a refresh does to reachability**: after it only devices that were read
are there, each with the state it had, if it was there, and with none if not. -/
theorem applyRefresh_up {devices : List Device} {rows : Device → List Interface} {now : Nat}
    {imds : Imds} {f : String} {new : DeviceMetrics}
    (hnew : (imds.applyRefresh devices rows now).devices f = some new) :
    (∃ device ∈ devices, device.fqdn = f) ∧ new.up = (imds.devices f).bind DeviceMetrics.up := by
  unfold Imds.applyRefresh at hnew
  cases hread : readInterfaces rows devices f with
  | none =>
    have hnot : ∀ device ∈ devices, device.fqdn ≠ f := fun device hd hf => by
      have hsome := (readInterfaces_isSome rows).mpr ⟨device, hd, hf⟩
      rw [hread] at hsome
      cases hsome
    have hnone := refreshAll_unread now hread devices imds hnot
    exact absurd (hnew.symm.trans hnone) (by simp)
  | some found =>
    refine ⟨(readInterfaces_isSome rows).mp (by rw [hread]; rfl), ?_⟩
    rw [refreshAll_up now hread devices _ hnew]
    simp [Imds.retainDevices, hread]

/-- A device that was read is there after the refresh. -/
theorem applyRefresh_isSome {devices : List Device} (rows : Device → List Interface) (now : Nat)
    (imds : Imds) {f : String} (hmem : ∃ device ∈ devices, device.fqdn = f) :
    ((imds.applyRefresh devices rows now).devices f).isSome = true := by
  obtain ⟨read, hread⟩ := Option.isSome_iff_exists.mp
    ((readInterfaces_isSome rows).mpr hmem)
  exact (refreshAll_self now hread devices _ hmem).1

/-! ## What a refresh must not lose -/

/-- Every query about the device succeeded. -/
structure Answered (db : Database) (answers : Answers) (f : String) : Prop where
  pool : answers.pool = true
  monitored : answers.monitored = true
  interfaces : ∀ device ∈ db.monitoredDevices, device.fqdn = f → answers.interfaces device.id = true

/-- The device's rows and the store agree on its base MAC, where they know one. -/
def SameChassis (db : Database) (imds : Imds) (f : String) : Prop :=
  ∃ mac, (∀ device ∈ db.monitoredDevices, device.fqdn = f → OneMac mac (knownMac device.baseMac)) ∧
    ∀ device, imds.devices f = some device → OneMac mac device.baseMac

/-- **Nothing is lost**: the refresh drops only what the database, asked and
answering, does not monitor or contain, and what it could not ask about stays. -/
structure RefreshKeeps (db : Database) (answers : Answers) (before after : Imds) : Prop where
  devices : ∀ f, (before.devices f).isSome = true → after.devices f = none →
    answers.pool = true ∧ answers.monitored = true ∧ ¬db.Monitors f
  interfaces : ∀ f i, (before.interface? f i).isSome = true → after.interface? f i = none →
    Answered db answers f ∧ ¬db.Has f i
  /-- a history is also forgotten when the chassis was replaced -/
  health : ∀ f i, (before.health.at? f i).isSome = true → SameChassis db before f →
    after.health.at? f i = none → Answered db answers f ∧ ¬db.Has f i
  unasked : answers.pool = false ∨ answers.monitored = false → after = before
  unanswered : ∀ f, db.Monitors f →
    (∀ device ∈ db.monitoredDevices, device.fqdn = f → answers.interfaces device.id = false) →
    SameChassis db before f → ∀ i, after.interface? f i = before.interface? f i ∧
      after.health.at? f i = before.health.at? f i

/-- An interface is stored, or its health history is and will not be forgotten. -/
def Stored (db : Database) (imds : Imds) (f : String) (i : Int) : Prop :=
  (imds.interface? f i).isSome = true ∨
    ((imds.health.at? f i).isSome = true ∧ SameChassis db imds f)

/-- **When a refresh loses nothing**: it does not run; or the listing succeeds, or
there is nothing to lose, and of every stored interface that is in the database,
or whose device some query failed for, the last row of the device's name answers
and has it. -/
def RefreshSafe (db : Database) (answers : Answers) (lock : Bool) (imds : Imds) : Prop :=
  answers.pool = true → lock = true →
    (answers.monitored = false → imds = Imds.empty) ∧
    (answers.monitored = true → ∀ f i, Stored db imds f i →
      ((∃ device ∈ db.monitoredDevices, device.fqdn = f ∧ answers.interfaces device.id = false) ∨
        db.Has f i) →
      ∃ device, (db.monitoredDevices.filter fun d => d.fqdn = f).getLast? = some device ∧
        answers.interfaces device.id = true ∧ HasIndex (db.interfacesOf device) i)

section Iff
variable (db : Database) (answers : Answers) (now : Nat) (imds : Imds)

/-- The refresh when its listing succeeds. -/
def listed : Imds :=
  imds.applyRefresh db.monitoredDevices (rowsOf db answers) now

/-- The last row of a monitored name, and what was read of its interfaces. -/
theorem exists_last {f : String} (h : db.Monitors f) :
    ∃ device, (db.monitoredDevices.filter fun d => d.fqdn = f).getLast? = some device ∧
      device ∈ db.monitoredDevices ∧ device.fqdn = f ∧
      readInterfaces (rowsOf db answers) db.monitoredDevices f =
        some (rowsOf db answers device) := by
  obtain ⟨device, hdevice, hfqdn⟩ := h
  have hne : (db.monitoredDevices.filter fun d => d.fqdn = f) ≠ [] :=
    List.ne_nil_of_mem (List.mem_filter.mpr ⟨hdevice, by simpa using hfqdn⟩)
  obtain ⟨last, hlast⟩ := Option.isSome_iff_exists.mp (List.getLast?_isSome.mpr hne)
  obtain ⟨hmem, hname⟩ := List.mem_filter.mp (List.mem_of_getLast? hlast)
  exact ⟨last, hlast, hmem, by simpa using hname, by rw [readInterfaces_eq, hlast]; rfl⟩

/-- A row is read when its query succeeded. -/
theorem hasIndex_interfaces {device : Device} {ok : Bool} {i : Int} :
    HasIndex (device.interfaces db ok) i ↔ ok = true ∧ HasIndex (db.interfacesOf device) i := by
  cases ok <;> simp [Device.interfaces, HasIndex]

/-- What the refresh leaves of a monitored device. -/
theorem listed_spec {f : String} (h : db.Monitors f) :
    ∃ device, (db.monitoredDevices.filter fun d => d.fqdn = f).getLast? = some device ∧
      device ∈ db.monitoredDevices ∧ device.fqdn = f ∧
      ((listed db answers now imds).devices f).isSome = true ∧
      (∀ i, answers.interfaces device.id = true ∧ HasIndex (db.interfacesOf device) i →
        ((listed db answers now imds).interface? f i).isSome = true ∧
        (SameChassis db imds f →
          (listed db answers now imds).health.at? f i = imds.health.at? f i)) ∧
      ∀ i, ¬(answers.interfaces device.id = true ∧ HasIndex (db.interfacesOf device) i) →
        (listed db answers now imds).interface? f i = none ∧
        (listed db answers now imds).health.at? f i = none := by
  obtain ⟨device, hlast, hmem, hfqdn, hread⟩ := exists_last db answers h
  obtain ⟨hdev, hhas, hnot⟩ := refreshAll_self now hread db.monitoredDevices
    (imds.retainDevices fun f => (readInterfaces (rowsOf db answers) db.monitoredDevices f).isSome) h
  refine ⟨device, hlast, hmem, hfqdn, hdev, fun i hi => ?_, fun i hi => ?_⟩
  · refine ⟨hhas i ((hasIndex_interfaces db).mpr hi), fun ⟨mac, hmacs, hold⟩ => ?_⟩
    have hkept : (imds.retainDevices fun f =>
        (readInterfaces (rowsOf db answers) db.monitoredDevices f).isSome).devices f = imds.devices f := by
      simp [Imds.retainDevices, hread]
    refine ((refreshAll_health now hread db.monitoredDevices _ hmacs (by rw [hkept]; exact hold)).2 i
      ((hasIndex_interfaces db).mpr hi)).trans ?_
    exact (HealthStore.at?_retainDevices _ _ _ _).trans (by simp [hread])
  · exact hnot i fun hi' => hi ((hasIndex_interfaces db).mp hi')

/-- Of a device that is not monitored nothing is asked, nothing can be lost. -/
theorem answered_of_not_monitors {f : String} (hpool : answers.pool = true)
    (hmon : answers.monitored = true) (h : ¬db.Monitors f) :
    Answered db answers f ∧ ∀ i, ¬db.Has f i :=
  ⟨⟨hpool, hmon, fun device hd hf => absurd ⟨device, hd, hf⟩ h⟩,
    fun _ ⟨device, hd, hf, _⟩ => h ⟨device, hd, hf⟩⟩

/-- A failed listing leaves an empty store. -/
theorem refresh_unlisted (h : answers.monitored = false) :
    refreshImdsItems db answers true now imds = Imds.empty := by
  unfold refreshImdsItems Device.monitored
  rw [h]
  rfl

theorem refresh_listed (h : answers.monitored = true) :
    refreshImdsItems db answers true now imds = listed db answers now imds := by
  unfold refreshImdsItems Device.monitored
  rw [h]
  rfl

theorem refreshKeeps_refl : RefreshKeeps db answers imds imds where
  devices f hb ha := by rw [ha] at hb; cases hb
  interfaces f i hb ha := by rw [ha] at hb; cases hb
  health f i hb _ ha := by rw [ha] at hb; cases hb
  unasked _ := rfl
  unanswered _ _ _ _ _ := ⟨rfl, rfl⟩

/-- Of every stored interface that is in the database, or whose device some query failed
for, the last row of the device's name answers and has it. -/
def LastRowHas : Prop :=
  ∀ f i, Stored db imds f i →
    ((∃ device ∈ db.monitoredDevices, device.fqdn = f ∧ answers.interfaces device.id = false) ∨
      db.Has f i) →
    ∃ device, (db.monitoredDevices.filter fun d => d.fqdn = f).getLast? = some device ∧
      answers.interfaces device.id = true ∧ HasIndex (db.interfacesOf device) i

/-- What a listed refresh loses is what the last row does not have. -/
theorem lastRowHas_of_keeps (h : RefreshKeeps db answers imds (listed db answers now imds)) :
    LastRowHas db answers imds := by
  intro f i hstored hneeded
  have hmonitors : db.Monitors f := by
    rcases hneeded with ⟨device, hd, hf, -⟩ | ⟨device, hd, hf, -⟩
    · exact ⟨device, hd, hf⟩
    · exact ⟨device, hd, hf⟩
  obtain ⟨device, hlast, -, -, -, -, hnot⟩ := listed_spec db answers now imds hmonitors
  by_cases hread : answers.interfaces device.id = true ∧ HasIndex (db.interfacesOf device) i
  · exact ⟨device, hlast, hread⟩
  -- dropped although needed
  exfalso
  obtain ⟨hentry, hhealth⟩ := hnot i hread
  have hlost : Answered db answers f ∧ ¬db.Has f i := by
    rcases hstored with hs | ⟨hs, hsame⟩
    · exact h.interfaces f i hs hentry
    · exact h.health f i hs hsame hhealth
  rcases hneeded with ⟨device', hd, hf, hfail⟩ | hhas
  · rw [hlost.1.interfaces device' hd hf] at hfail
    cases hfail
  · exact hlost.2 hhas

section Safe
variable {db answers now imds} (hpool : answers.pool = true) (hmon : answers.monitored = true)
  (hsafe : LastRowHas db answers imds)
include hsafe

include hpool hmon in
/-- What is stored and dropped was not needed. -/
theorem answered_of_dropped {f : String} {i : Int} (hstored : Stored db imds f i)
    (hnot : db.Monitors f → ∀ device,
      (db.monitoredDevices.filter fun d => d.fqdn = f).getLast? = some device →
      ¬(answers.interfaces device.id = true ∧ HasIndex (db.interfacesOf device) i)) :
    Answered db answers f ∧ ¬db.Has f i := by
  by_cases hmonitors : db.Monitors f
  · have hno : ¬((∃ device ∈ db.monitoredDevices, device.fqdn = f ∧
        answers.interfaces device.id = false) ∨ db.Has f i) := by
      intro hneeded
      obtain ⟨device, hlast, hread⟩ := hsafe f i hstored hneeded
      exact hnot hmonitors device hlast hread
    refine ⟨⟨hpool, hmon, fun device hd hf => ?_⟩, fun hhas => hno (.inr hhas)⟩
    by_contra hfail
    exact hno (.inl ⟨device, hd, hf, by simpa using hfail⟩)
  · obtain ⟨hans, hno⟩ := answered_of_not_monitors db answers hpool hmon hmonitors
    exact ⟨hans, hno i⟩

/-- Of a device that none of its rows answers for nothing was stored. -/
theorem not_stored_of_unanswered {f : String} (hmonitors : db.Monitors f)
    (hfail : ∀ device ∈ db.monitoredDevices, device.fqdn = f → answers.interfaces device.id = false)
    (i : Int) : ¬Stored db imds f i := by
  intro hstored
  obtain ⟨device, hlast, hmem, hfqdn, -⟩ := exists_last db answers hmonitors
  obtain ⟨device', hlast', hans, -⟩ := hsafe f i hstored (.inl ⟨device, hmem, hfqdn, hfail device hmem hfqdn⟩)
  obtain rfl := Option.some.inj (hlast.symm.trans hlast')
  rw [hfail device hmem hfqdn] at hans
  cases hans

include hpool hmon in
/-- A listed refresh of what the last rows have keeps it. -/
theorem keeps_of_lastRowHas : RefreshKeeps db answers imds (listed db answers now imds) where
  devices f hb ha := by
    refine ⟨hpool, hmon, fun hmonitors => ?_⟩
    obtain ⟨_, _, _, _, hdev, _⟩ := listed_spec db answers now imds hmonitors
    rw [ha] at hdev
    cases hdev
  interfaces f i hb ha := by
    refine answered_of_dropped hpool hmon hsafe (.inl hb) fun hmonitors device hlast hread => ?_
    obtain ⟨device', hlast', -, -, -, hkeep, -⟩ := listed_spec db answers now imds hmonitors
    obtain rfl := Option.some.inj (hlast.symm.trans hlast')
    have hsome := (hkeep i hread).1
    rw [ha] at hsome
    cases hsome
  health f i hb hsame ha := by
    refine answered_of_dropped hpool hmon hsafe (.inr ⟨hb, hsame⟩) fun hmonitors device hlast hread => ?_
    obtain ⟨device', hlast', -, -, -, hkeep, -⟩ := listed_spec db answers now imds hmonitors
    obtain rfl := Option.some.inj (hlast.symm.trans hlast')
    rw [← (hkeep i hread).2 hsame, ha] at hb
    cases hb
  unasked hn := by
    rw [hpool, hmon] at hn
    simp at hn
  unanswered f hmonitors hfail hsame i := by
    obtain ⟨device, -, hmem, hfqdn, -, -, hnot⟩ := listed_spec db answers now imds hmonitors
    have hno := hfail device hmem hfqdn
    obtain ⟨hentry, hhealth⟩ := hnot i fun hread => by rw [hno] at hread; cases hread.1
    -- nothing was stored, so nothing is gone
    have hempty := not_stored_of_unanswered hsafe hmonitors hfail i
    unfold Stored at hempty
    push Not at hempty
    refine ⟨hentry.trans ?_, hhealth.trans ?_⟩
    · cases hm : imds.interface? f i with
      | none => rfl
      | some m => exact absurd (by rw [hm]; rfl) hempty.1
    · cases hm : imds.health.at? f i with
      | none => rfl
      | some ih => exact absurd hsame (hempty.2 (by rw [hm]; rfl))

end Safe

/-- **A refresh loses nothing exactly when it is safe.** -/
theorem refreshKeeps_iff (lock : Bool) :
    RefreshKeeps db answers imds (imdsRefresh db answers lock now imds) ↔
      RefreshSafe db answers lock imds := by
  unfold imdsRefresh RefreshSafe
  cases hpool : answers.pool with
  | false => simpa using refreshKeeps_refl db answers imds
  | true =>
    cases lock with
    | false => simpa [refreshImdsItems] using refreshKeeps_refl db answers imds
    | true =>
      simp only [if_true, forall_const]
      cases hmon : answers.monitored with
      | false =>
        rw [refresh_unlisted db answers now imds hmon]
        constructor
        · intro h
          exact ⟨fun _ => (h.unasked (.inr hmon)).symm, fun hn => by cases hn⟩
        · intro h
          rw [h.1 rfl]
          exact refreshKeeps_refl ..
      | true =>
        rw [refresh_listed db answers now imds hmon]
        constructor
        · intro h
          exact ⟨(fun hn => by cases hn), fun _ => lastRowHas_of_keeps db answers now imds h⟩
        · intro h
          exact keeps_of_lastRowHas hpool hmon (h.2 rfl)

end Iff

end JaspyNexus.Utilities

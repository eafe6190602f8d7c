import Mathlib
import JaspyNexus.Collectors.Tables
import JaspyNexus.Lib.HashMap
import JaspyNexus.Lib.LastWrite
import JaspyNexus.Lib.Rows
import JaspyNexus.Lib.Runs
import JaspyNexus.Lib.Text
import JaspyNexus.Models.Dbo

/-! # Client locations

`PUT /dev/clientlocation/` records on which port of which switch a DHCP client was seen,
from the option 82 of its lease. The table has one row per address (a unique index), which
is to say what the last accepted request said. The handler writes a row only when its port
or its device changes, and drops what the database refuses (`run_upToDate_iff`). -/

namespace JaspyNexus.Routes.ClientLocations
open JaspyNexus.Lib JaspyNexus.Lib.Text JaspyNexus.Models
open JaspyNexus.Collectors (hexDigit)

/-! ## The table -/

/-- Where a client is, and who it is. -/
structure Place where
  deviceId : Int
  portInfo : String
  hwAddress : String
  deriving DecidableEq, Repr

/-- `ClientLocation`. -/
structure ClientLocation where
  id : Int
  deviceId : Int
  ipAddress : String
  portInfo : String
  hwAddress : String
  deriving DecidableEq, Repr

/-- `NewClientLocation`. -/
structure NewClientLocation where
  deviceId : Int
  ipAddress : String
  hwAddress : String
  portInfo : String
  deriving DecidableEq, Repr

def NewClientLocation.row (new : NewClientLocation) (id : Int) : ClientLocation where
  id := id
  deviceId := new.deviceId
  ipAddress := new.ipAddress
  portInfo := new.portInfo
  hwAddress := new.hwAddress

def ClientLocation.place (row : ClientLocation) : Place := ⟨row.deviceId, row.portInfo, row.hwAddress⟩

/-- `client_locations`: ids from a sequence, and the unique index on the address. -/
structure Locations where
  rows : List ClientLocation
  seq : Int
  ids : (rows.map ClientLocation.id).Nodup
  fresh : ∀ row ∈ rows, row.id < seq
  addresses : (rows.map ClientLocation.ipAddress).Nodup

namespace Locations

def empty : Locations := ⟨[], 1, .nil, by simp, .nil⟩

variable (t : Locations)

/-- `ClientLocation::create`; the index refuses an address that is taken. -/
def create (new : NewClientLocation) (ok : Bool) : Option Locations :=
  let row := new.row t.seq
  if h : ok = true ∧ ((t.rows ++ [row]).map ClientLocation.ipAddress).Nodup then
    some
      { rows := t.rows ++ [row]
        seq := t.seq + 1
        ids := (Rows.nodup_insert_iff t.ids row).mpr fun other hother => (t.fresh other hother).ne
        fresh := by
          intro other hother
          rcases List.mem_append.mp hother with hother | hother
          · exact (t.fresh other hother).trans (Int.lt_succ _)
          · rw [List.mem_singleton.mp hother]
            exact Int.lt_succ _
        addresses := h.2 }
  else none

/-- The rows with every column of one written. -/
def written (row : ClientLocation) : List ClientLocation :=
  t.rows.map fun other => if other.id = row.id then row else other

theorem map_id_written (row : ClientLocation) :
    (t.written row).map ClientLocation.id = t.rows.map ClientLocation.id := by
  rw [written, List.map_map]
  refine List.map_congr_left fun other _ => ?_
  dsimp only [Function.comp_apply]
  split
  · next h => exact h.symm
  · rfl

/-- `ClientLocation::update`. -/
def update (row : ClientLocation) (ok : Bool) : Option Locations :=
  if h : ok = true ∧ ((t.written row).map ClientLocation.ipAddress).Nodup then
    some
      { rows := t.written row
        seq := t.seq
        ids := t.map_id_written row ▸ t.ids
        fresh := by
          intro other hother
          have hid := List.mem_map_of_mem (f := ClientLocation.id) hother
          rw [t.map_id_written row] at hid
          obtain ⟨old, hold, hid⟩ := List.mem_map.mp hid
          exact hid ▸ t.fresh old hold
        addresses := h.2 }
  else none

/-- `ClientLocation::by_ip`; a query that fails answers like one that finds nothing. -/
def byIp (ipAddress : String) (ok : Bool) : Option ClientLocation :=
  if ok then t.rows.find? fun row => row.ipAddress = ipAddress else none

/-- What the row of an address says. -/
def place (ipAddress : String) : Option Place := (t.byIp ipAddress true).map ClientLocation.place

end Locations

/-! ## The request -/

/-- `ClientLocationInfo`: the address of the lease, that of the client, and its option 82. -/
structure ClientLocationInfo where
  yiaddr : String
  chaddr : String
  option82 : HashMap String String

/-- Which statements of a request succeed. -/
structure Answers where
  /-- `Device::by_base_mac` -/
  device : Bool
  /-- `ClientLocation::by_ip` -/
  location : Bool
  /-- the insert, or the update -/
  write : Bool
  deriving DecidableEq

/-- `i32::from_str_radix(s, 16)`: digits after an optional sign. -/
def parseHexI32 (s : String) : Option Int :=
  let digits (l : List Char) : Option Int :=
    if l = [] then none
    else (l.mapM hexDigit).map fun ds => (ds.foldl (fun acc d => acc * 16 + d) 0 : Nat)
  let v := match s.toList with
    | '-' :: rest => (digits rest).map fun v => -v
    | '+' :: rest => digits rest
    | l => digits l
  v.filter fun v => -2 ^ 31 ≤ v ∧ v < 2 ^ 31

/-- `port_info`: the module and the port are the last two of six octets. -/
def portInfo (option82 : String) : Option String :=
  match split option82 ':' with
  | [_, _, _, _, moduleHex, portHex] => do
    let moduleNo ← parseHexI32 moduleHex
    let portNo ← parseHexI32 portHex
    some s!"{moduleNo}/{portNo}"
  | _ => none

/-- `switch_base_mac`: the last six of eight octets. -/
def switchBaseMac (option82 : String) : Option String :=
  match split option82 ':' with
  | [_, _, a, b, c, d, e, f] => some s!"{a}:{b}:{c}:{d}:{e}:{f}"
  | _ => none

/-- `Device::by_base_mac`. -/
def byBaseMac (devices : List Device) (baseMac : String) (ok : Bool) : Option Device :=
  if ok then devices.find? fun device => device.baseMac = some baseMac else none

/-- `put_clientlocation`. -/
def putClientlocation (devices : List Device) (info : ClientLocationInfo) (answers : Answers)
    (t : Locations) : Locations :=
  match info.option82.lookup "001", info.option82.lookup "002" with
  | some option82001, some option82002 =>
    match portInfo option82001, switchBaseMac option82002 with
    | some port, some mac =>
      match byBaseMac devices mac answers.device with
      | none => t
      | some device =>
        match t.byIp info.yiaddr answers.location with
        | some existing =>
          if existing.portInfo ≠ port || existing.deviceId ≠ device.id then
            -- what the database refuses is dropped
            (t.update { existing with portInfo := port, hwAddress := info.chaddr, deviceId := device.id }
              answers.write).getD t
          else t
        | none => (t.create ⟨device.id, info.yiaddr, info.chaddr, port⟩ answers.write).getD t
    | _, _ => t
  | _, _ => t

/-- A request, and what its statements meet. -/
structure Request where
  info : ClientLocationInfo
  answers : Answers

def receive (devices : List Device) (t : Locations) (request : Request) : Locations :=
  putClientlocation devices request.info request.answers t

/-- The table after the requests. -/
def run (devices : List Device) (t : Locations) (requests : List Request) : Locations :=
  requests.foldl (receive devices) t

/-! ## What is to be stored -/

/-- What an accepted request says: both fields are there and of the expected shape, and the
switch is on record. -/
def reported (devices : List Device) (info : ClientLocationInfo) : Option Place := do
  let port ← (info.option82.lookup "001").bind portInfo
  let mac ← (info.option82.lookup "002").bind switchBaseMac
  let device ← devices.find? fun device => device.baseMac = some mac
  some ⟨device.id, port, info.chaddr⟩

/-- What the last accepted request for the address said. -/
def lastReported (devices : List Device) (address : String) (requests : List Request) : Option Place :=
  (requests.filterMap fun request =>
    if request.info.yiaddr = address then reported devices request.info else none).getLast?

/-- That, or without one what the table said at the start. -/
def current (devices : List Device) (start : Locations) (requests : List Request) (address : String) :
    Option Place :=
  (lastReported devices address requests).or (start.place address)

/-- The table is as the requests say. -/
structure UpToDate (devices : List Device) (start : Locations) (requests : List Request) : Prop where
  stored : ∀ address, (run devices start requests).place address = current devices start requests address
  single : ∀ address,
    ((run devices start requests).rows.filter fun row => row.ipAddress = address).length ≤ 1
  rejected : ∀ before request, before ++ [request] <+: requests → reported devices request.info = none →
    run devices start (before ++ [request]) = run devices start before

/-- The row is written: it is a new one, or it is found and its port or its device changes. -/
def Written (answers : Answers) (before : Option Place) (place : Place) : Prop :=
  answers.write = true ∧ ∀ old, before = some old →
    answers.location = true ∧ (old.portInfo ≠ place.portInfo ∨ old.deviceId ≠ place.deviceId)

/-- What a request meets that is not lost: the place known before is already the one it reports,
or its device is found and the row is written. -/
def Carried (answers : Answers) (before : Option Place) (place : Place) : Prop :=
  before = some place ∨ answers.device = true ∧ Written answers before place

/-! ## The statements -/

section Table
variable {t : Locations} {address : String}

theorem byIp_eq_some_iff {row : ClientLocation} :
    t.byIp address true = some row ↔ row ∈ t.rows ∧ row.ipAddress = address :=
  Rows.find?_eq_some_iff t.addresses

theorem byIp_eq_none_iff : t.byIp address true = none ↔ ∀ row ∈ t.rows, row.ipAddress ≠ address := by
  simp [Locations.byIp]

theorem place_eq_none_iff : t.place address = none ↔ ∀ row ∈ t.rows, row.ipAddress ≠ address := by
  rw [Locations.place, Option.map_eq_none_iff, byIp_eq_none_iff]

/-- A new address gets its row. -/
theorem place_create (new : NewClientLocation) (hnew : t.place new.ipAddress = none) :
    ((t.create new true).getD t).place address =
      if new.ipAddress = address then some ⟨new.deviceId, new.portInfo, new.hwAddress⟩ else t.place address := by
  have hnd : ((t.rows ++ [new.row t.seq]).map ClientLocation.ipAddress).Nodup :=
    (Rows.nodup_insert_iff t.addresses _).mpr (place_eq_none_iff.mp hnew)
  have hfind : ((t.rows ++ [new.row t.seq]).find? fun row => row.ipAddress = address) =
      (t.byIp address true).or (if new.ipAddress = address then some (new.row t.seq) else none) :=
    Rows.find?_insert _ _
  rw [Locations.create, dif_pos ⟨rfl, hnd⟩, Option.getD_some]
  rw [Locations.place, Locations.byIp, if_pos rfl, hfind]
  split
  · next h =>
    subst h
    rw [Locations.place, Option.map_eq_none_iff] at hnew
    rw [hnew, Option.none_or]
    rfl
  · rw [Option.or_none]
    rfl

/-- A taken one is refused. -/
theorem create_taken (new : NewClientLocation) (ok : Bool) (htaken : t.place new.ipAddress ≠ none) :
    t.create new ok = none := by
  refine dif_neg fun h => htaken ?_
  exact place_eq_none_iff.mpr ((Rows.nodup_insert_iff t.addresses _).mp h.2)

/-- A row written under its own address says the new, and the others say what they said. -/
theorem place_update {existing : ClientLocation} (written : ClientLocation) (hmem : existing ∈ t.rows)
    (hid : existing.id = written.id) (haddress : existing.ipAddress = written.ipAddress) :
    ((t.update written true).getD t).place address =
      if written.ipAddress = address then some written.place else t.place address := by
  have hnd : ((t.written written).map ClientLocation.ipAddress).Nodup := by
    rw [Locations.written, Rows.map_key_replace t.ids hmem hid haddress]
    exact t.addresses
  have hfind : ((t.written written).find? fun row => row.ipAddress = address) =
      if written.ipAddress = address then some written else t.byIp address true :=
    Rows.find?_write t.ids t.addresses hmem hid haddress
  rw [Locations.update, dif_pos ⟨rfl, hnd⟩, Option.getD_some]
  rw [Locations.place, Locations.byIp, if_pos rfl, hfind]
  split <;> rfl

/-! ## One request -/

/-- What an accepted request does to the table, once the device is found. -/
def record (t : Locations) (address : String) (place : Place) (answers : Answers) : Locations :=
  match t.byIp address answers.location with
  | some existing =>
    if existing.portInfo ≠ place.portInfo || existing.deviceId ≠ place.deviceId then
      (t.update { existing with
        portInfo := place.portInfo, hwAddress := place.hwAddress, deviceId := place.deviceId } answers.write).getD t
    else t
  | none => (t.create ⟨place.deviceId, address, place.hwAddress, place.portInfo⟩ answers.write).getD t

/-- **The handler**: a rejected request does nothing, and so does one whose device is not found. -/
theorem putClientlocation_eq (devices : List Device) (info : ClientLocationInfo) (answers : Answers) (t : Locations) :
    putClientlocation devices info answers t = match reported devices info with
      | some place => if answers.device then record t info.yiaddr place answers else t
      | none => t := by
  unfold putClientlocation reported
  cases info.option82.lookup "001" with
  | none => rfl
  | some option82001 =>
    cases info.option82.lookup "002" with
    | none =>
      cases portInfo option82001 <;> simp [*]
    | some option82002 =>
      cases hport : portInfo option82001 with
      | none => simp [hport]
      | some port =>
        cases hmac : switchBaseMac option82002 with
        | none => simp [hport, hmac]
        | some mac =>
          unfold byBaseMac
          cases hdevice : devices.find? fun device => device.baseMac = some mac with
          | none => cases answers.device <;> simp [hport, hmac, hdevice]
          | some device => cases answers.device <;> simp [hport, hmac, hdevice, record]

/-- Where the row is written it says what was reported, and the others say what they said. -/
theorem place_record {place : Place} {answers : Answers} (h : Written answers (t.place address) place)
    (other : String) : (record t address place answers).place other =
      if address = other then some place else t.place other := by
  obtain ⟨hwrite, hold⟩ := h
  unfold record
  rw [hwrite]
  cases hplace : t.place address with
  | none =>
    have hnone : t.byIp address answers.location = none := by
      unfold Locations.byIp
      split
      · exact Option.map_eq_none_iff.mp hplace
      · rfl
    rw [hnone]
    exact place_create ⟨place.deviceId, address, place.hwAddress, place.portInfo⟩ hplace
  | some old =>
    obtain ⟨hfound, hchange⟩ := hold old hplace
    obtain ⟨existing, hexisting, rfl⟩ := Option.map_eq_some_iff.mp hplace
    obtain ⟨hmem, rfl⟩ := byIp_eq_some_iff.mp hexisting
    have htest : (existing.portInfo ≠ place.portInfo || existing.deviceId ≠ place.deviceId) = true := by
      simpa [ClientLocation.place] using hchange
    rw [hfound, hexisting]
    dsimp only
    rw [if_pos htest]
    exact place_update { existing with
      portInfo := place.portInfo, hwAddress := place.hwAddress, deviceId := place.deviceId } hmem rfl rfl

/-- Else nothing happens. -/
theorem record_of_not_written {place : Place} {answers : Answers}
    (h : ¬Written answers (t.place address) place) : record t address place answers = t := by
  unfold record
  cases hwrite : answers.write with
  | false =>
    have hcreate : ∀ new, t.create new false = none := by simp [Locations.create]
    have hupdate : ∀ row, t.update row false = none := by simp [Locations.update]
    cases t.byIp address answers.location with
    | none => dsimp only; rw [hcreate, Option.getD_none]
    | some existing => dsimp only; rw [hupdate, Option.getD_none, ite_self]
  | true =>
    cases hfound : t.byIp address answers.location with
    | none =>
      -- a failed read of a row that is there
      have htaken : t.place address ≠ none := fun hnone => h ⟨hwrite, fun old hold => by rw [hnone] at hold; cases hold⟩
      dsimp only
      rw [create_taken _ true htaken, Option.getD_none]
    | some existing =>
      have hok : answers.location = true := by
        by_contra hfailed
        simp [Locations.byIp, hfailed] at hfound
      dsimp only
      rw [if_neg]
      intro htest
      refine h ⟨hwrite, fun old hold => ⟨hok, ?_⟩⟩
      rw [hok] at hfound
      rw [Locations.place, hfound] at hold
      obtain rfl := Option.some.inj hold
      simpa [ClientLocation.place] using htest

end Table

/-! ## Runs -/

section Runs
variable {devices : List Device} {start : Locations} {requests : List Request}

theorem run_concat (requests : List Request) (request : Request) :
    run devices start (requests ++ [request]) = receive devices (run devices start requests) request := by
  rw [run, List.foldl_append, List.foldl_cons, List.foldl_nil]
  rfl

theorem receive_rejected {request : Request} (h : reported devices request.info = none) (t : Locations) :
    receive devices t request = t := by
  rw [receive, putClientlocation_eq, h]

/-- The last accepted request counts. -/
theorem current_concat (requests : List Request) (request : Request) (address : String) :
    current devices start (requests ++ [request]) address =
      if request.info.yiaddr = address then
        (reported devices request.info).or (current devices start requests address)
      else current devices start requests address := by
  unfold current lastReported
  rw [List.filterMap_append, List.getLast?_append]
  by_cases haddress : request.info.yiaddr = address
  · cases hreported : reported devices request.info <;> simp [haddress, hreported]
  · simp [haddress]

/-- A request keeps the table up to date exactly when it is carried. -/
theorem receive_current_iff {t : Locations} {before : String → Option Place} (h : ∀ address, t.place address = before address)
    {request : Request} {place : Place} (hreported : reported devices request.info = some place) :
    (∀ address, (receive devices t request).place address =
      if request.info.yiaddr = address then some place else before address) ↔
    Carried request.answers (before request.info.yiaddr) place := by
  have hunchanged : receive devices t request = t → ((∀ address, (receive devices t request).place address =
      if request.info.yiaddr = address then some place else before address) ↔
        before request.info.yiaddr = some place) := by
    intro hsame
    rw [hsame]
    constructor
    · intro hall
      rw [← h, hall, if_pos rfl]
    · intro hplace address
      split
      · next haddress => rw [← haddress, h, hplace]
      · exact h address
  rw [receive, putClientlocation_eq, hreported] at hunchanged ⊢
  dsimp only at hunchanged ⊢
  by_cases hdevice : request.answers.device = true
  · by_cases hwritten : Written request.answers (t.place request.info.yiaddr) place
    · rw [if_pos hdevice]
      refine iff_of_true (fun address => ?_) (.inr ⟨hdevice, h _ ▸ hwritten⟩)
      rw [place_record hwritten, h]
    · rw [hunchanged (by rw [if_pos hdevice, record_of_not_written hwritten])]
      rw [h] at hwritten
      simp [Carried, hwritten]
  · rw [hunchanged (if_neg hdevice)]
    simp [Carried, hdevice]

theorem stored_concat_iff {done : List Request}
    (h : ∀ address, (run devices start done).place address = current devices start done address) (request : Request) :
    (∀ address, (run devices start (done ++ [request])).place address =
      current devices start (done ++ [request]) address) ↔
    ∀ place, reported devices request.info = some place →
      Carried request.answers (current devices start done request.info.yiaddr) place := by
  simp only [run_concat, current_concat]
  cases hreported : reported devices request.info with
  | none =>
    rw [receive_rejected hreported]
    simp [h]
  | some place =>
    simp only [Option.some_or, Option.some.injEq, forall_eq']
    exact receive_current_iff h hreported

/-- **Client locations**: the table is as the requests say after each of them, exactly when each
accepted one is carried. -/
theorem run_upToDate_iff (devices : List Device) (start : Locations) (requests : List Request) :
    (∀ done, done <+: requests → UpToDate devices start done) ↔
      ∀ done request place, done ++ [request] <+: requests → reported devices request.info = some place →
        Carried request.answers (current devices start done request.info.yiaddr) place := by
  constructor
  · intro h done request place hdone
    have hbefore := (h done ((List.prefix_append done [request]).trans hdone)).stored
    exact (stored_concat_iff hbefore request).mp (h _ hdone).stored place
  · intro h done hdone
    -- by induction on the requests received so far
    have hstored : ∀ address, (run devices start done).place address = current devices start done address := by
      induction done using List.reverseRecOn with
      | nil => exact fun _ => rfl
      | append_singleton done request ih =>
        have hbefore := ih ((List.prefix_append done [request]).trans hdone)
        exact (stored_concat_iff hbefore request).mpr fun place => h done request place hdone
    refine ⟨hstored, fun address => Rows.length_filter_key_le_one (run devices start done).addresses address,
      fun before request _ hrejected => ?_⟩
    rw [run_concat, receive_rejected hrejected]

/-- A lease on port 5 of module 10, of a client with the address. -/
def lease (chaddr : String) : Request where
  info := ⟨"10.1.2.3", chaddr, [⟨"001", "00:00:00:00:0a:05"⟩, ⟨"002", "00:00:aa:bb:cc:dd:ee:ff"⟩].toAList⟩
  answers := ⟨true, true, true⟩

/-- **Another client behind the same port**: the row goes on naming the one before. -/
theorem replacedClient_not_upToDate :
    ¬UpToDate [⟨1, "sw1", "lan", none, some "aa:bb:cc:dd:ee:ff", none, none, none, none⟩] .empty
      [lease "02:00:00:00:00:01", lease "02:00:00:00:00:02"] := by
  intro h
  have hstored := h.stored "10.1.2.3"
  revert hstored
  decide +kernel

example : (run [⟨1, "sw1", "lan", none, some "aa:bb:cc:dd:ee:ff", none, none, none, none⟩] .empty
    [lease "02:00:00:00:00:01", lease "02:00:00:00:00:02"]).place "10.1.2.3" =
      some ⟨1, "10/5", "02:00:00:00:00:01"⟩ := by decide +kernel

end Runs

end JaspyNexus.Routes.ClientLocations

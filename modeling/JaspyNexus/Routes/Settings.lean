import Mathlib
import JaspyNexus.Lib.HashMap
import JaspyNexus.Lib.Json
import JaspyNexus.Lib.LastWrite
import JaspyNexus.Lib.Overwrites
import JaspyNexus.Lib.Runs
import JaspyNexus.Lib.Text
import JaspyNexus.Routes.Issues
import JaspyNexus.Utilities.HealthPruning

/-! # Settings that are edited

The suppressed issue types and the policy of the VLANs are each one text in the table of
settings. A request reads the text, edits what it says and writes all of it, with no lock
or transaction around the two: `settings_serialized_iff` states when no edit is lost. -/

namespace JaspyNexus.Routes.Settings
open JaspyNexus.Lib JaspyNexus.Lib.Overwrites JaspyNexus.Lib.Text
open JaspyNexus.Routes.Issues (HttpError)
open JaspyNexus.Utilities.Health (EscalationLevel)
open JaspyNexus.Utilities.Issues (isKnownKind)

/-! ## The texts -/

/-- `serde_json`, at the two types that are stored. -/
structure SerdeJson where
  stringsToString : List String → String
  stringsFromStr : String → Option (List String)
  mapToString : HashMap String String → String
  mapFromStr : String → Option (HashMap String String)

/-- What is printed is read back; a map is not read back in any order. -/
structure SerdeJson.RoundTrips (json : SerdeJson) : Prop where
  strings : ∀ v, json.stringsFromStr (json.stringsToString v) = some v
  maps : ∀ m, ∃ m', json.mapFromStr (json.mapToString m) = some m' ∧ HashMap.Reorders m m'

def suppressedSetting : String := "suppressed_issue_types"

def vlanPolicySetting : String := "vlan_health_policy"

section
variable (json : SerdeJson)

/-- `parse_suppressed`. -/
def parseSuppressed (text : String) : Finset String := ((json.stringsFromStr text).getD []).toFinset

/-- `serialize_suppressed`. -/
def serializeSuppressed (set : Finset String) : String := json.stringsToString set.sort

/-- `load_suppressed_types`, of the text that is found. -/
def loadSuppressedTypes (found : Option String) : Finset String :=
  match found with
  | some text => parseSuppressed json text
  | none => ∅

/-- What an entry of the stored map says of a VLAN. -/
def policyOfEntry (e : Sigma fun _ : String => String) : Option (Int64 × EscalationLevel) :=
  (parseI64 e.1).bind fun id =>
    if EscalationLevel.fromStr e.2 ≠ .normal then some (.ofInt id, .fromStr e.2) else none

/-- The entry that is stored of a VLAN. -/
def entryOfPolicy (e : Sigma fun _ : Int64 => EscalationLevel) : Option (String × String) :=
  if e.2 ≠ .normal then some (toString e.1.toInt, e.2.asStr) else none

/-- `parse_vlan_policy`. -/
def parseVlanPolicy (text : String) : HashMap Int64 EscalationLevel :=
  match json.mapFromStr text with
  | some map => writeAll policyOfEntry map.entries
  | none => ∅

/-- `serialize_vlan_policy`. -/
def serializeVlanPolicy (policy : HashMap Int64 EscalationLevel) : String :=
  json.mapToString (writeAll entryOfPolicy policy.entries)

/-- `load_vlan_policy`, of the text that is found. -/
def loadVlanPolicy (found : Option String) : HashMap Int64 EscalationLevel :=
  match found with
  | some text => parseVlanPolicy json text
  | none => ∅

end

/-! ## The handlers -/

inductive Request where
  | suppress (kind : String)
  | unsuppress (kind : String)
  | setPolicy (vlanId : Int64) (level : String)
  deriving DecidableEq

/-- What a handler checks, the setting it edits and how it does, and its answer when the
write fails. -/
structure Handler where
  refusal : Option HttpError
  setting : String
  edited : Option String → String
  failed : String → HttpError

section
variable (json : SerdeJson)

/-- `persist_suppressed`, of an edit of the set. -/
def editSuppressed (refusal : Option HttpError) (edit : Finset String → Finset String) : Handler where
  refusal := refusal
  setting := suppressedSetting
  edited found := serializeSuppressed json (edit (loadSuppressedTypes json found))
  failed e := .internalServerError
    (s!"failed to persist suppressed issue types: {e} (are the migrations up to date?)")

/-- `issue_suppress`. -/
def issueSuppress (kind : String) : Handler :=
  editSuppressed json
    (if !isKnownKind kind then some (.badRequest s!"unknown issue type: {kind}") else none)
    (insert kind)

/-- `issue_unsuppress`. -/
def issueUnsuppress (kind : String) : Handler := editSuppressed json none (Finset.erase · kind)

/-- `vlan_policy_set`. -/
def vlanPolicySet (vlanId : Int64) (level : String) : Handler where
  refusal :=
    if level ∈ ["quiet", "normal", "sensitive"] then none
    else some (.badRequest s!"unknown escalation level: {level} (expected quiet|normal|sensitive)")
  setting := vlanPolicySetting
  edited found :=
    let policy := loadVlanPolicy json found
    serializeVlanPolicy json <| match EscalationLevel.fromStr level with
      | .normal => policy.erase vlanId
      | level => policy.insert vlanId level
  failed e := .internalServerError s!"failed to persist VLAN policy: {e} (are the migrations up to date?)"

def Request.handler : Request → Handler
  | .suppress kind => issueSuppress json kind
  | .unsuppress kind => issueUnsuppress json kind
  | .setPolicy vlanId level => vlanPolicySet json vlanId level

end

/-! ## The server -/

/-- How far a request has come. -/
inductive Stage where
  | arrived
  /-- the setting has been read -/
  | loaded (found : Option String)
  | answered (answer : Except HttpError Unit)

def Stage.succeeded : Stage → Bool
  | .answered (.ok _) => true
  | _ => false

/-- The table of settings, and the requests under way. -/
structure Server where
  settings : PMap String String
  stage : Nat → Stage

/-- What a statement meets. A read that fails finds nothing. -/
structure DbAnswer where
  readOk : Bool
  writeError : Option String

/-- Whose turn it is, and what its statement meets. -/
abbrev Turn := Nat × DbAnswer

namespace Server

/-- The requests have arrived. -/
def fresh (settings : PMap String String) : Server := ⟨settings, fun _ => .arrived⟩

/-- The next statement of a request, with what goes before and after it. -/
def step (json : SerdeJson) (requests : List Request) (s : Server) (turn : Turn) : Server :=
  match requests[turn.1]? with
  | none => s
  | some req =>
    let handler := req.handler json
    let goTo (stage : Stage) : Nat → Stage := Function.update s.stage turn.1 stage
    match s.stage turn.1 with
    | .arrived =>
      match handler.refusal with
      | some error => { s with stage := goTo (.answered (.error error)) }
      | none => { s with stage := goTo (.loaded (if turn.2.readOk then s.settings handler.setting else none)) }
    | .loaded found =>
      match turn.2.writeError with
      | some error => { s with stage := goTo (.answered (.error (handler.failed error))) }
      | none =>
        ⟨PMap.insert s.settings handler.setting (handler.edited found), goTo (.answered (.ok ()))⟩
    | .answered _ => s

/-- The requests that have been answered with success. -/
def succeeded (requests : List Request) (s : Server) : List Request :=
  (List.range requests.length).filterMap fun i => if (s.stage i).succeeded then requests[i]? else none

def suppressedTypes (json : SerdeJson) (s : Server) : Finset String :=
  loadSuppressedTypes json (s.settings suppressedSetting)

def vlanPolicy (json : SerdeJson) (s : Server) : PMap Int64 EscalationLevel :=
  fun vlanId => (loadVlanPolicy json (s.settings vlanPolicySetting)).lookup vlanId

end Server

/-! ## One request after the other -/

def Request.applyToTypes (set : Finset String) : Request → Finset String
  | .suppress kind => insert kind set
  | .unsuppress kind => set.erase kind
  | .setPolicy _ _ => set

def Request.applyToPolicy (policy : PMap Int64 EscalationLevel) : Request → PMap Int64 EscalationLevel
  | .setPolicy vlanId level =>
    match EscalationLevel.fromStr level with
    | .normal => Function.update policy vlanId none
    | level => policy.insert vlanId level
  | _ => policy

/-- **No edit is lost**: what is stored is the result of the requests that ran, one after
the other in some order. -/
structure Serialized (json : SerdeJson) (ran : List Request) (start s : Server) : Prop where
  types : ∃ order : List Request, order.Perm ran ∧
    s.suppressedTypes json = order.foldl Request.applyToTypes (start.suppressedTypes json)
  policy : ∃ order : List Request, order.Perm ran ∧
    s.vlanPolicy json = order.foldl Request.applyToPolicy (start.vlanPolicy json)

/-! ## A setting as a map -/

/-- What a setting says under each key, and what a request changes of it. -/
structure View (κ υ : Type) where
  setting : String
  decode : SerdeJson → Option String → κ → υ
  change : Request → Option (κ × υ)

/-- The kinds, and whether they are suppressed. -/
def typesView : View String Bool where
  setting := suppressedSetting
  decode json found kind := decide (kind ∈ loadSuppressedTypes json found)
  change
    | .suppress kind => some (kind, true)
    | .unsuppress kind => some (kind, false)
    | .setPolicy _ _ => none

def policyView : View Int64 (Option EscalationLevel) where
  setting := vlanPolicySetting
  decode json found vlanId := (loadVlanPolicy json found).lookup vlanId
  change
    | .setPolicy vlanId level => some (vlanId, some (.fromStr level) |>.filter (· ≠ .normal))
    | _ => none

/-! ## The texts are read back -/

section
variable {json : SerdeJson} (hjson : json.RoundTrips)

include hjson in
theorem load_serializeSuppressed (set : Finset String) :
    loadSuppressedTypes json (some (serializeSuppressed json set)) = set := by
  simp [loadSuppressedTypes, parseSuppressed, serializeSuppressed, hjson.strings]

theorem parseI64_vlanId (vlanId : Int64) : parseI64 (toString vlanId.toInt) = some vlanId.toInt :=
  parseI64_toString ⟨vlanId.le_toInt, vlanId.toInt_lt⟩

theorem policyOfEntry_eq_some {key level : String} {vlanId : Int64} {l : EscalationLevel}
    (h : policyOfEntry ⟨key, level⟩ = some (vlanId, l)) : l ≠ .normal := by
  unfold policyOfEntry at h
  obtain ⟨id, -, h⟩ := Option.bind_eq_some_iff.mp h
  split at h
  next hlevel =>
    cases h
    exact hlevel
  next => cases h

/-- An entry that is stored is read back. -/
theorem policyOfEntry_entryOfPolicy {vlanId : Int64} {level : EscalationLevel} (h : level ≠ .normal) :
    policyOfEntry ⟨toString vlanId.toInt, level.asStr⟩ = some (vlanId, level) := by
  rw [policyOfEntry, parseI64_vlanId]
  simp [h]

theorem entryOfPolicy_eq_some_iff {e : Sigma fun _ : Int64 => EscalationLevel} {key value : String} :
    entryOfPolicy e = some (key, value) ↔ e.2 ≠ .normal ∧ toString e.1.toInt = key ∧ e.2.asStr = value := by
  unfold entryOfPolicy
  split
  next h => simp [h]
  next h => simp [h]

theorem vlanId_inj {a b : Int64} (h : toString a.toInt = toString b.toInt) : a = b := by
  have hparse := parseI64_vlanId a
  rw [h, parseI64_vlanId b] at hparse
  exact Int64.toInt_inj.mp (Option.some.inj hparse).symm

/-- The map that is stored of a policy. -/
theorem lookup_stored {policy : HashMap Int64 EscalationLevel} {key value : String} :
    (writeAll entryOfPolicy policy.entries).lookup key = some value ↔
      ∃ vlanId level, policy.lookup vlanId = some level ∧ level ≠ .normal ∧
        toString vlanId.toInt = key ∧ level.asStr = value := by
  rw [lookup_writeAll_eq_some_iff]
  · simp only [entryOfPolicy_eq_some_iff, Sigma.exists, HashMap.mem_entries]
  · intro e he e' he' v v' hv hv'
    obtain ⟨-, hkey, rfl⟩ := entryOfPolicy_eq_some_iff.mp hv
    obtain ⟨-, hkey', rfl⟩ := entryOfPolicy_eq_some_iff.mp hv'
    have hid : e.1 = e'.1 := vlanId_inj (hkey.trans hkey'.symm)
    have hlevel := HashMap.mem_entries.mp he
    rw [hid, HashMap.mem_entries.mp he'] at hlevel
    rw [Option.some.inj hlevel]

include hjson in
/-- The levels other than normal are read back. -/
theorem lookup_load_serializeVlanPolicy (policy : HashMap Int64 EscalationLevel) (vlanId : Int64) :
    (loadVlanPolicy json (some (serializeVlanPolicy json policy))).lookup vlanId =
      (policy.lookup vlanId).filter (· ≠ .normal) := by
  obtain ⟨m, hm, hreorders⟩ := hjson.maps (writeAll entryOfPolicy policy.entries)
  have hentry : ∀ e, e ∈ m.entries → ∃ vlanId level, policy.lookup vlanId = some level ∧
      policyOfEntry e = some (vlanId, level) := by
    intro ⟨key, value⟩ he
    rw [HashMap.mem_entries, ← hreorders.lookup key, lookup_stored] at he
    obtain ⟨vlanId, level, hlookup, hlevel, rfl, rfl⟩ := he
    exact ⟨vlanId, level, hlookup, policyOfEntry_entryOfPolicy hlevel⟩
  have hload : loadVlanPolicy json (some (serializeVlanPolicy json policy)) = writeAll policyOfEntry m.entries := by
    simp [loadVlanPolicy, parseVlanPolicy, serializeVlanPolicy, hm]
  rw [hload]
  refine Option.ext fun level => ?_
  rw [lookup_writeAll_eq_some_iff]
  · constructor
    · rintro ⟨⟨key, value⟩, he, hsay⟩
      obtain ⟨vlanId', level', hlookup, hsay'⟩ := hentry ⟨key, value⟩ he
      rw [hsay] at hsay'
      cases hsay'
      simp [hlookup, policyOfEntry_eq_some hsay]
    · intro h
      obtain ⟨hlookup, hlevel⟩ := Option.filter_eq_some_iff.mp h
      have hlevel : level ≠ .normal := by simpa using hlevel
      refine ⟨⟨toString vlanId.toInt, level.asStr⟩, ?_, policyOfEntry_entryOfPolicy hlevel⟩
      rw [HashMap.mem_entries, ← hreorders.lookup, lookup_stored]
      exact ⟨vlanId, level, hlookup, hlevel, rfl, rfl⟩
  · intro e he e' he' v v' hv hv'
    obtain ⟨id, level, hlookup, hsay⟩ := hentry e he
    obtain ⟨id', level', hlookup', hsay'⟩ := hentry e' he'
    rw [hv] at hsay
    rw [hv'] at hsay'
    cases hsay
    cases hsay'
    rw [hlookup] at hlookup'
    exact Option.some.inj hlookup'

/-- No level that is loaded is normal. -/
theorem loadVlanPolicy_ne_normal {found : Option String} {vlanId : Int64} {level : EscalationLevel}
    (h : (loadVlanPolicy json found).lookup vlanId = some level) : level ≠ .normal := by
  unfold loadVlanPolicy at h
  split at h
  next text =>
    unfold parseVlanPolicy at h
    split at h
    next map hmap =>
      obtain ⟨⟨key, value⟩, -, hsay⟩ := exists_of_lookup_writeAll h
      exact policyOfEntry_eq_some hsay
    next => simp at h
  next => simp at h

/-! ## What a request changes -/

/-- The handlers of a setting edit the key that they are about, and no other handler
edits the setting. -/
structure View.Reflects {κ υ : Type} [DecidableEq κ] (V : View κ υ) (json : SerdeJson) : Prop where
  setting : ∀ req : Request, (req.handler json).setting = V.setting ↔ (V.change req).isSome
  edits : ∀ (req : Request) (k : κ) (v : υ), V.change req = some (k, v) → ∀ found : Option String,
    V.decode json (some ((req.handler json).edited found)) = Function.update (V.decode json found) k v

theorem settings_ne : suppressedSetting ≠ vlanPolicySetting := by decide

include hjson in
theorem typesView_reflects : typesView.Reflects json where
  setting req := by
    cases req with
    | setPolicy vlanId level => exact iff_of_false settings_ne.symm (by simp [typesView])
    | _ => exact iff_of_true rfl rfl
  edits req k v h found := by
    funext kind
    cases req with
    | suppress _ =>
      cases h
      show decide (kind ∈ loadSuppressedTypes json (some (serializeSuppressed json
        (insert k (loadSuppressedTypes json found))))) = _
      rw [load_serializeSuppressed hjson]
      by_cases hk : kind = k
      · simp [hk]
      · simp [hk, typesView]
    | unsuppress _ =>
      cases h
      show decide (kind ∈ loadSuppressedTypes json (some (serializeSuppressed json
        ((loadSuppressedTypes json found).erase k)))) = _
      rw [load_serializeSuppressed hjson]
      by_cases hk : kind = k
      · simp [hk]
      · simp [hk, typesView]
    | setPolicy _ _ => cases h

/-- Storing what was loaded drops nothing. -/
theorem filter_loadVlanPolicy (found : Option String) (vlanId : Int64) :
    ((loadVlanPolicy json found).lookup vlanId).filter (· ≠ .normal) = (loadVlanPolicy json found).lookup vlanId := by
  cases hlookup : (loadVlanPolicy json found).lookup vlanId with
  | none => rfl
  | some level => simp [loadVlanPolicy_ne_normal hlookup]

include hjson in
theorem policyView_reflects : policyView.Reflects json where
  setting req := by
    cases req with
    | setPolicy vlanId level => exact iff_of_true rfl rfl
    | _ => exact iff_of_false settings_ne (by simp [policyView])
  edits req k v h found := by
    funext vlanId
    cases req with
    | setPolicy _ level =>
      cases h
      show (loadVlanPolicy json (some (serializeVlanPolicy json _))).lookup vlanId = _
      rw [lookup_load_serializeVlanPolicy hjson]
      have hloaded : ((loadVlanPolicy json found).lookup vlanId).filter (· ≠ .normal) = _ :=
        filter_loadVlanPolicy found vlanId
      by_cases hid : vlanId = k
      · subst hid
        rw [Function.update_self]
        cases EscalationLevel.fromStr level <;> simp [Option.filter]
      · rw [Function.update_of_ne hid]
        cases EscalationLevel.fromStr level <;> simpa [policyView, hid] using hloaded
    | _ => cases h

end

/-! ## Step by step -/

section
variable {json : SerdeJson} {requests : List Request} {start s : Server} {turn : Turn}

theorem mem_succeeded {req : Request} : req ∈ s.succeeded requests ↔
    ∃ i : Nat, requests[i]? = some req ∧ (s.stage i).succeeded = true := by
  simp only [Server.succeeded, List.mem_filterMap, List.mem_range]
  constructor
  · rintro ⟨i, -, hi⟩
    split at hi
    next hdone => exact ⟨i, hi, hdone⟩
    next => cases hi
  · rintro ⟨i, hi, hdone⟩
    exact ⟨i, (List.getElem?_eq_some_iff.mp hi).1, by rw [if_pos hdone, hi]⟩

/-- **A step writes a setting, or changes nothing that is stored.** -/
theorem step_cases (json : SerdeJson) (requests : List Request) (s : Server) (turn : Turn) :
    ((s.step json requests turn).settings = s.settings ∧
      (∀ req, req ∈ (s.step json requests turn).succeeded requests ↔ req ∈ s.succeeded requests) ∧
      ∀ req found, requests[turn.1]? = some req → s.stage turn.1 = .loaded found → turn.2.writeError ≠ none) ∨
    ∃ req found, requests[turn.1]? = some req ∧ s.stage turn.1 = .loaded found ∧ turn.2.writeError = none ∧
      (s.step json requests turn).settings =
        s.settings.insert (req.handler json).setting ((req.handler json).edited found) ∧
      ∀ req', req' ∈ (s.step json requests turn).succeeded requests ↔ req' = req ∨ req' ∈ s.succeeded requests := by
  have hsame : ∀ stage : Stage, stage.succeeded = (s.stage turn.1).succeeded → ∀ settings req,
      req ∈ (⟨settings, Function.update s.stage turn.1 stage⟩ : Server).succeeded requests ↔
        req ∈ s.succeeded requests := by
    intro stage hstage settings req
    rw [mem_succeeded, mem_succeeded]
    refine exists_congr fun i => and_congr_right fun _ => ?_
    by_cases hi : i = turn.1
    · subst hi
      simp [hstage]
    · simp [hi]
  unfold Server.step
  split
  next hnone => exact .inl ⟨rfl, fun _ => Iff.rfl, fun req found hreq => by rw [hnone] at hreq; cases hreq⟩
  next req hreq =>
    dsimp only
    split
    next harrived =>
      refine .inl ⟨?_, fun req => ?_, fun req found _ hloaded => by rw [harrived] at hloaded; cases hloaded⟩
      · split <;> rfl
      · split
        · exact hsame _ (by rw [harrived]; rfl) _ _
        · exact hsame _ (by rw [harrived]; rfl) _ _
    next found hloaded =>
      split
      next error herror =>
        exact .inl ⟨rfl, hsame _ (by rw [hloaded]; rfl) _, fun _ _ _ _ hnone => by rw [herror] at hnone; cases hnone⟩
      next hok =>
        refine .inr ⟨req, found, hreq, hloaded, hok, rfl, fun req' => ?_⟩
        rw [mem_succeeded, mem_succeeded]
        constructor
        · rintro ⟨i, hi, hdone⟩
          by_cases hturn : i = turn.1
          · subst hturn
            rw [hreq] at hi
            exact .inl (Option.some.inj hi).symm
          · exact .inr ⟨i, hi, by simpa [hturn] using hdone⟩
        · rintro (rfl | ⟨i, hi, hdone⟩)
          · exact ⟨turn.1, hreq, by simp [Stage.succeeded]⟩
          · refine ⟨i, hi, ?_⟩
            by_cases hturn : i = turn.1
            · simp [hturn, Stage.succeeded]
            · simpa [hturn] using hdone
    next answer hanswered =>
      exact .inl ⟨rfl, fun _ => Iff.rfl, fun req found _ hloaded => by rw [hanswered] at hloaded; cases hloaded⟩

section
variable {κ υ : Type} [DecidableEq κ] (V : View κ υ)

/-- Every key of the setting is as a request that succeeded set it, or as it was at the
start where none did. -/
def View.Held (json : SerdeJson) (requests : List Request) (start s : Server) : Prop :=
  ∀ k, Explained V.change (s.succeeded requests) (V.decode json (start.settings V.setting)) k
    (V.decode json (s.settings V.setting) k)

/-- **Who writes has read what holds**: of every key but its own, the request that writes
has read what a request that succeeded set, or what was there at the start where none
did. -/
def View.UpToDate (json : SerdeJson) (requests : List Request) (start s : Server) (turn : Turn) : Prop :=
  ∀ req found k v, requests[turn.1]? = some req → s.stage turn.1 = .loaded found → turn.2.writeError = none →
    V.change req = some (k, v) → ∀ k', k' ≠ k →
      Explained V.change (s.succeeded requests) (V.decode json (start.settings V.setting)) k'
        (V.decode json found k')

variable {V}

/-- **One step**: no edit is lost exactly when who writes has read what holds. -/
theorem View.Reflects.held_step (hV : V.Reflects json) (h : V.Held json requests start s) :
    V.Held json requests start (s.step json requests turn) ↔ V.UpToDate json requests start s turn := by
  rcases step_cases json requests s turn with ⟨hsettings, hmem, hnot⟩ | ⟨req, found, hreq, hloaded, hok, hsettings, hmem⟩
  · refine iff_of_true (fun k => ?_) fun req found _ _ hreq hloaded hok => absurd hok (hnot req found hreq hloaded)
    rw [hsettings]
    exact (explained_congr hmem).mpr (h k)
  · cases hchange : V.change req with
    | none =>
      have hother : V.setting ≠ (req.handler json).setting := fun heq => by
        have hsome := (hV.setting req).mp heq.symm
        simp [hchange] at hsome
      refine iff_of_true (fun k => ?_) fun req' _ _ _ hreq' _ _ hchange' => ?_
      · rw [hsettings, PMap.insert_of_ne _ _ hother]
        exact (explained_insert_of_ne hmem (by simp [hchange])).mpr (h k)
      · rw [hreq] at hreq'
        cases hreq'
        rw [hchange] at hchange'
        cases hchange'
    | some change =>
      obtain ⟨k, v⟩ := change
      have hsetting := (hV.setting req).mpr (by rw [hchange]; rfl)
      have hdecode : V.decode json ((s.step json requests turn).settings V.setting) =
          Function.update (V.decode json found) k v := by
        rw [hsettings, hsetting, PMap.insert_self]
        exact hV.edits req k v hchange found
      have hrest : ∀ k', k' ≠ k → ∀ v', V.change req ≠ some (k', v') := fun k' hk' v' heq => by
        rw [hchange] at heq
        cases heq
        exact hk' rfl
      unfold View.Held View.UpToDate
      rw [hdecode]
      constructor
      · intro hheld req' found' k₁ v₁ hreq' hloaded' _ hchange' k' hk'
        rw [hreq] at hreq'
        cases hreq'
        rw [hloaded] at hloaded'
        cases hloaded'
        rw [hchange] at hchange'
        cases hchange'
        have hk := hheld k'
        rw [Function.update_of_ne hk'] at hk
        exact (explained_insert_of_ne hmem (hrest k' hk')).mp hk
      · intro hcurrent k'
        by_cases hk' : k' = k
        · subst hk'
          rw [Function.update_self]
          exact .inl ⟨req, (hmem req).mpr (.inl rfl), hchange⟩
        · rw [Function.update_of_ne hk']
          exact (explained_insert_of_ne hmem (hrest k' hk')).mpr
            (hcurrent req found k v hreq hloaded hok hchange k' hk')

end

/-! ## The two settings -/

theorem decide_mem_foldl (order : List Request) (set : Finset String) :
    (fun kind => decide (kind ∈ order.foldl Request.applyToTypes set)) =
      overwriteAll typesView.change order fun kind => decide (kind ∈ set) := by
  induction order generalizing set with
  | nil => rfl
  | cons req order ih =>
    have hstep : (fun kind => decide (kind ∈ req.applyToTypes set)) =
        overwrite typesView.change (fun kind => decide (kind ∈ set)) req := by
      funext kind
      cases req with
      | suppress k =>
        show decide (kind ∈ insert k set) = Function.update (fun kind => decide (kind ∈ set)) k true kind
        by_cases hk : kind = k
        · simp [hk]
        · simp [hk]
      | unsuppress k =>
        show decide (kind ∈ set.erase k) = Function.update (fun kind => decide (kind ∈ set)) k false kind
        by_cases hk : kind = k
        · simp [hk]
        · simp [hk]
      | setPolicy _ _ => rfl
    rw [List.foldl_cons, ih, hstep]
    rfl

theorem foldl_applyToPolicy (order : List Request) (policy : PMap Int64 EscalationLevel) :
    order.foldl Request.applyToPolicy policy = overwriteAll policyView.change order policy := by
  induction order generalizing policy with
  | nil => rfl
  | cons req order ih =>
    have hstep : req.applyToPolicy policy = overwrite policyView.change policy req := by
      cases req with
      | setPolicy vlanId level =>
        simp only [Request.applyToPolicy, overwrite, policyView]
        cases EscalationLevel.fromStr level <;> rfl
      | _ => rfl
    rw [List.foldl_cons, ih, hstep]
    rfl

/-- **No edit is lost**, key by key. -/
theorem serialized_iff_held : Serialized json (s.succeeded requests) start s ↔
    typesView.Held json requests start s ∧ policyView.Held json requests start s := by
  have htypes : ∀ order : List Request,
      s.suppressedTypes json = order.foldl Request.applyToTypes (start.suppressedTypes json) ↔
        typesView.decode json (s.settings typesView.setting) =
          overwriteAll typesView.change order (typesView.decode json (start.settings typesView.setting)) := by
    intro order
    rw [Finset.ext_iff]
    have hdecide := decide_mem_foldl order (start.suppressedTypes json)
    constructor
    · intro h
      refine Eq.trans (funext fun kind => ?_) hdecide
      exact decide_eq_decide.mpr (h kind)
    · intro h kind
      exact decide_eq_decide.mp (congrFun (h.trans hdecide.symm) kind)
  have hpolicy : ∀ order : List Request,
      s.vlanPolicy json = order.foldl Request.applyToPolicy (start.vlanPolicy json) ↔
        policyView.decode json (s.settings policyView.setting) =
          overwriteAll policyView.change order (policyView.decode json (start.settings policyView.setting)) := by
    intro order
    rw [foldl_applyToPolicy]
    rfl
  refine Iff.trans ⟨fun h => ⟨h.types, h.policy⟩, fun h => ⟨h.1, h.2⟩⟩ (and_congr ?_ ?_)
  · simp only [htypes]
    exact exists_order_iff
  · simp only [hpolicy]
    exact exists_order_iff

/-- Who writes has read what holds of the setting, for both settings. -/
structure UpToDate (json : SerdeJson) (requests : List Request) (start s : Server) (turn : Turn) : Prop where
  types : typesView.UpToDate json requests start s turn
  policy : policyView.UpToDate json requests start s turn

/-! ## Requests that are not disturbed -/

/-- The turn writes the setting. -/
def Writes (json : SerdeJson) (requests : List Request) (s : Server) (turn : Turn) (setting : String) : Prop :=
  ∃ req found, requests[turn.1]? = some req ∧ s.stage turn.1 = .loaded found ∧ turn.2.writeError = none ∧
    (req.handler json).setting = setting

/-- Nothing is written to a setting between the read of a request that writes it and its write,
and the read does not fail. -/
def Undisturbed (json : SerdeJson) (requests : List Request) (start : Server) (turns : List Turn) : Prop :=
  ∀ (pre mid post : List Turn) (i : Nat) (read write : DbAnswer) (setting : String),
    turns = pre ++ (i, read) :: (mid ++ (i, write) :: post) →
    (pre.foldl (Server.step json requests) start).stage i = .arrived →
    Writes json requests ((pre ++ (i, read) :: mid).foldl (Server.step json requests) start) (i, write) setting →
    read.readOk = true ∧ ∀ before turn, before ++ [turn] <+: mid →
      ¬Writes json requests ((pre ++ (i, read) :: before).foldl (Server.step json requests) start) turn setting

/-- What is not written stays. -/
theorem settings_of_not_writes {setting : String} (h : ¬Writes json requests s turn setting) :
    (s.step json requests turn).settings setting = s.settings setting := by
  rcases step_cases json requests s turn with ⟨hsettings, -⟩ | ⟨req, found, hreq, hloaded, hok, hsettings, -⟩
  · rw [hsettings]
  · rw [hsettings, PMap.insert_of_ne _ _ fun heq => h ⟨req, found, hreq, hloaded, hok, heq.symm⟩]

theorem settings_of_none_writes {setting : String} {mid : List Turn}
    (h : ∀ before turn, before ++ [turn] <+: mid →
      ¬Writes json requests (before.foldl (Server.step json requests) s) turn setting) :
    (mid.foldl (Server.step json requests) s).settings setting = s.settings setting := by
  induction mid using List.reverseRecOn with
  | nil => rfl
  | append_singleton mid turn ih =>
    rw [List.foldl_concat, settings_of_not_writes (h mid turn List.prefix_rfl)]
    exact ih fun before turn' hpre => h before turn' (hpre.trans (List.prefix_append _ _))

/-- The stage of a request changes in its own turns. -/
theorem stage_step_of_ne {i : Nat} (h : i ≠ turn.1) : (s.step json requests turn).stage i = s.stage i := by
  unfold Server.step
  split
  · rfl
  · dsimp only
    split
    · split <;> exact Function.update_of_ne h ..
    · split <;> exact Function.update_of_ne h ..
    · rfl

/-- A request has read in the turn that it has just had, or had before. -/
theorem loaded_step {i : Nat} {found : Option String} (h : (s.step json requests turn).stage i = .loaded found) :
    s.stage i = .loaded found ∨ i = turn.1 ∧ s.stage i = .arrived ∧ ∃ req, requests[i]? = some req ∧
      found = if turn.2.readOk then s.settings (req.handler json).setting else none := by
  by_cases hi : i = turn.1
  · subst hi
    unfold Server.step at h
    split at h
    · exact .inl h
    next req hreq =>
      dsimp only at h
      split at h
      next harrived =>
        split at h
        · simp only [Function.update_self] at h
          cases h
        · simp only [Function.update_self] at h
          cases h
          exact .inr ⟨rfl, harrived, req, hreq, rfl⟩
      · split at h
        · simp only [Function.update_self] at h
          cases h
        · simp only [Function.update_self] at h
          cases h
      · exact .inl h
  · rw [stage_step_of_ne hi] at h
    exact .inl h

/-- **When a request has read.** -/
theorem exists_read {i : Nat} {found : Option String} {turns : List Turn} (hstart : start.stage i = .arrived)
    (h : (turns.foldl (Server.step json requests) start).stage i = .loaded found) :
    ∃ pre mid read req, turns = pre ++ (i, read) :: mid ∧
      (pre.foldl (Server.step json requests) start).stage i = .arrived ∧ requests[i]? = some req ∧
      found = if read.readOk then (pre.foldl (Server.step json requests) start).settings (req.handler json).setting
        else none := by
  induction turns using List.reverseRecOn with
  | nil =>
    rw [List.foldl_nil, hstart] at h
    cases h
  | append_singleton turns turn ih =>
    rw [List.foldl_concat] at h
    rcases loaded_step h with hbefore | ⟨rfl, harrived, req, hreq, hfound⟩
    · obtain ⟨pre, mid, read, req, rfl, hrest⟩ := ih hbefore
      exact ⟨pre, mid ++ [turn], read, req, by simp, hrest⟩
    · exact ⟨turns, [], turn.2, req, rfl, harrived, hreq, hfound⟩

/-- Who was not disturbed has read what is stored. -/
theorem Undisturbed.found_eq {settings : PMap String String} {turns before post : List Turn} {turn : Turn}
    (h : Undisturbed json requests (.fresh settings) turns) (hturns : turns = before ++ turn :: post)
    {req : Request} {found : Option String} (hreq : requests[turn.1]? = some req)
    (hloaded : (before.foldl (Server.step json requests) (.fresh settings)).stage turn.1 = .loaded found)
    (hok : turn.2.writeError = none) :
    found = (before.foldl (Server.step json requests) (.fresh settings)).settings (req.handler json).setting := by
  obtain ⟨pre, mid, read, req', rfl, harrived, hreq', hfound⟩ := exists_read rfl hloaded
  obtain rfl : req' = req := Option.some.inj (hreq'.symm.trans hreq)
  obtain ⟨hread, hnone⟩ := h pre mid post turn.1 read turn.2 (req'.handler json).setting (by rw [hturns]; simp) harrived
    ⟨req', found, hreq, hloaded, hok, rfl⟩
  have hmid : ∀ before turn', before ++ [turn'] <+: mid → ¬Writes json requests (before.foldl (Server.step json requests)
      ((pre.foldl (Server.step json requests) (.fresh settings)).step json requests (turn.1, read))) turn'
      (req'.handler json).setting := by
    intro before turn' hpre
    have hnot := hnone before turn' hpre
    rwa [List.foldl_append, List.foldl_cons] at hnot
  have hreads : ¬Writes json requests (pre.foldl (Server.step json requests) (.fresh settings)) (turn.1, read)
      (req'.handler json).setting := by
    rintro ⟨req'', found', -, hloaded', -⟩
    rw [harrived] at hloaded'
    cases hloaded'
  rw [hfound, if_pos hread, List.foldl_append, List.foldl_cons, settings_of_none_writes hmid,
    settings_of_not_writes hreads]

theorem View.Reflects.upToDate_of_found_eq {κ υ : Type} [DecidableEq κ] {V : View κ υ} (hV : V.Reflects json)
    (hheld : V.Held json requests start s)
    (hfound : ∀ req found, requests[turn.1]? = some req → s.stage turn.1 = .loaded found → turn.2.writeError = none →
      found = s.settings (req.handler json).setting) : V.UpToDate json requests start s turn := by
  intro req found k v hreq hloaded hok hchange k' _
  rw [hfound req found hreq hloaded hok, (hV.setting req).mpr (by rw [hchange]; rfl)]
  exact hheld k'

/-- When every request has been answered with success, they are the ones that ran. -/
theorem succeeded_eq_self (h : ∀ i, i < requests.length → (s.stage i).succeeded = true) :
    s.succeeded requests = requests := by
  have hall : (List.range requests.length).filterMap (fun i => if (s.stage i).succeeded then requests[i]? else none) =
      (List.range requests.length).filterMap fun i => requests[i]? := by
    refine List.filterMap_congr fun i hi => ?_
    rw [if_pos (h i (List.mem_range.mp hi))]
  rw [Server.succeeded, hall]
  clear h hall
  induction requests using List.reverseRecOn with
  | nil => rfl
  | append_singleton requests req ih =>
    rw [List.length_append, List.length_singleton, List.range_succ, List.filterMap_append]
    refine congrArg₂ (· ++ ·) (Eq.trans (List.filterMap_congr fun i hi => ?_) ih) (by simp)
    exact List.getElem?_append_left (List.mem_range.mp hi)

/-- **No edit is lost** in any state of a run exactly when whoever writes has read what
holds; and then, once all requests have been answered with success, what is stored is
their result, one after the other in some order. So it is where no request is disturbed. -/
theorem settings_serialized_iff (hjson : json.RoundTrips) (requests : List Request) (settings : PMap String String)
    (turns : List Turn) :
    (Runs.Allowed (Server.step json requests) (UpToDate json requests (.fresh settings)) (.fresh settings) turns ↔
      ∀ pre, pre <+: turns → Serialized json ((pre.foldl (Server.step json requests) (.fresh settings)).succeeded requests)
        (.fresh settings) (pre.foldl (Server.step json requests) (.fresh settings))) ∧
    (Runs.Allowed (Server.step json requests) (UpToDate json requests (.fresh settings)) (.fresh settings) turns →
      (∀ i, i < requests.length → ((turns.foldl (Server.step json requests) (.fresh settings)).stage i).succeeded) →
      Serialized json requests (.fresh settings) (turns.foldl (Server.step json requests) (.fresh settings))) ∧
    (Undisturbed json requests (.fresh settings) turns →
      Runs.Allowed (Server.step json requests) (UpToDate json requests (.fresh settings)) (.fresh settings) turns) := by
  have hstep : ∀ s turn, Serialized json (s.succeeded requests) (.fresh settings) s →
      (Serialized json ((s.step json requests turn).succeeded requests) (.fresh settings) (s.step json requests turn) ↔
        UpToDate json requests (.fresh settings) s turn) := by
    intro s turn hs
    obtain ⟨htypes, hpolicy⟩ := serialized_iff_held.mp hs
    rw [serialized_iff_held, (typesView_reflects hjson).held_step htypes, (policyView_reflects hjson).held_step hpolicy]
    exact ⟨fun h => ⟨h.1, h.2⟩, fun h => ⟨h.types, h.policy⟩⟩
  have hfresh : Serialized json ((Server.fresh settings).succeeded requests) (.fresh settings) (.fresh settings) := by
    have hnone : ∀ req, req ∉ (Server.fresh settings).succeeded requests := fun req hreq => by
      obtain ⟨i, -, hdone⟩ := mem_succeeded.mp hreq
      cases hdone
    refine serialized_iff_held.mpr ⟨fun k => ?_, fun k => ?_⟩
    · exact .inr ⟨fun req hreq => absurd hreq (hnone req), rfl⟩
    · exact .inr ⟨fun req hreq => absurd hreq (hnone req), rfl⟩
  have hruns : Runs.Allowed (Server.step json requests) (UpToDate json requests (.fresh settings)) (.fresh settings) turns ↔
      ∀ pre, pre <+: turns → Serialized json ((pre.foldl (Server.step json requests) (.fresh settings)).succeeded requests)
        (.fresh settings) (pre.foldl (Server.step json requests) (.fresh settings)) := by
    exact Runs.allowed_iff (fun s => Serialized json (s.succeeded requests) (.fresh settings) s) (fun _ => True)
      (fun _ _ _ => trivial) (fun s turn _ hs => hstep s turn hs) trivial hfresh
  refine ⟨hruns, fun hallowed hall => ?_, fun hundisturbed => hruns.mpr fun pre hpre => ?_⟩
  · have hfinal := hruns.mp hallowed turns (List.prefix_refl turns)
    rwa [succeeded_eq_self hall] at hfinal
  · induction pre using List.reverseRecOn with
    | nil => exact hfresh
    | append_singleton before turn ih =>
      have hs := ih ((List.prefix_append _ _).trans hpre)
      obtain ⟨htypes, hpolicy⟩ := serialized_iff_held.mp hs
      obtain ⟨post, hturns⟩ := hpre
      rw [List.append_assoc, List.singleton_append] at hturns
      have hfound : ∀ req found, requests[turn.1]? = some req →
          (before.foldl (Server.step json requests) (.fresh settings)).stage turn.1 = .loaded found →
          turn.2.writeError = none → found = (before.foldl (Server.step json requests) (.fresh settings)).settings
            (req.handler json).setting :=
        fun req found hreq hloaded hok => hundisturbed.found_eq hturns.symm hreq hloaded hok
      rw [List.foldl_concat]
      exact (hstep _ _ hs).mpr ⟨(typesView_reflects hjson).upToDate_of_found_eq htypes hfound,
        (policyView_reflects hjson).upToDate_of_found_eq hpolicy hfound⟩

/-! ## Two requests at once -/

/-- The texts as they are stored. -/
def jsonTexts : SerdeJson where
  stringsToString := Json.array
  stringsFromStr := Json.readArray
  mapToString := Json.object
  mapFromStr := Json.readObject

theorem jsonTexts_roundTrips : jsonTexts.RoundTrips := ⟨Json.readArray_array, Json.readObject_object⟩

/-- Every statement succeeds. -/
def fine : DbAnswer := ⟨true, none⟩

def twoSuppressions : List Request := [.suppress "iface-errors", .suppress "lag:not-lacp"]

/-- Both are answered with success, and the first is lost. -/
theorem suppression_lost :
    (∀ i, i < twoSuppressions.length → (([(0, fine), (1, fine), (0, fine), (1, fine)].foldl
      (Server.step jsonTexts twoSuppressions) (.fresh PMap.empty)).stage i).succeeded) ∧
    ¬Serialized jsonTexts twoSuppressions (.fresh PMap.empty) ([(0, fine), (1, fine), (0, fine), (1, fine)].foldl
      (Server.step jsonTexts twoSuppressions) (.fresh PMap.empty)) := by
  refine ⟨by decide +kernel, fun h => ?_⟩
  obtain ⟨order, hperm, horder⟩ := h.types
  have hlost : "iface-errors" ∉ ([(0, fine), (1, fine), (0, fine), (1, fine)].foldl
    (Server.step jsonTexts twoSuppressions) (.fresh PMap.empty)).suppressedTypes jsonTexts := by decide +kernel
  have hkept : decide ("iface-errors" ∈ order.foldl Request.applyToTypes (Server.suppressedTypes jsonTexts (.fresh PMap.empty))) =
      true := by
    refine (congrFun (decide_mem_foldl order _) "iface-errors").trans (overwriteAll_of_agree ?_ ?_ _)
    · intro req hreq v hv
      rcases List.mem_cons.mp (hperm.mem_iff.mp hreq) with rfl | hreq
      · cases hv
        rfl
      · obtain rfl := List.mem_singleton.mp hreq
        simp [typesView] at hv
    · exact ⟨.suppress "iface-errors", hperm.mem_iff.mpr List.mem_cons_self, rfl⟩
  rw [horder] at hlost
  exact hlost (of_decide_eq_true hkept)

/-- One after the other, both are kept. -/
theorem settings_serialized_iff_two :
    (Runs.Allowed (Server.step jsonTexts twoSuppressions) (UpToDate jsonTexts twoSuppressions (.fresh PMap.empty))
        (.fresh PMap.empty) [(0, fine), (0, fine), (1, fine), (1, fine)] ↔
      ∀ pre, pre <+: [(0, fine), (0, fine), (1, fine), (1, fine)] →
        Serialized jsonTexts ((pre.foldl (Server.step jsonTexts twoSuppressions) (.fresh PMap.empty)).succeeded twoSuppressions)
          (.fresh PMap.empty) (pre.foldl (Server.step jsonTexts twoSuppressions) (.fresh PMap.empty))) :=
  (settings_serialized_iff jsonTexts_roundTrips twoSuppressions PMap.empty _).1

end

end JaspyNexus.Routes.Settings

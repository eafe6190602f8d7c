import Mathlib
import JaspyNexus.Lib.Prog
import JaspyNexus.Models.IssueAck
import JaspyNexus.Utilities.IssueTracker

/-! # The issue endpoints

The issue list of `routes/api/v1.rs`, its acknowledgements and its configuration, and
the background scan of `main.rs`. Each use of a lock and each SQL statement is one
step. What the stores of the collectors hold when an issue list is derived is an
answer of the surroundings, except for the operator's configuration.

The store keeps a `log` of the steps. The place of a step in the log is its time, and
what a handler reads is kept with the time of the reading, for the sake of statements
about the order of steps; nothing that a handler does depends on it. -/

namespace JaspyNexus.Routes.Issues
open JaspyNexus.Lib JaspyNexus.Models JaspyNexus.Utilities.Issues
open JaspyNexus.Utilities.Stp (StpTree)

/-! ## The issue list -/

/-- `ApiIssue`. -/
structure ApiIssue where
  issueKey : String
  fqdn : String
  hostname : String
  kind : String
  severity : String
  title : String
  description : String
  subjectLabel : Option String
  detail : List IssueDetail
  groupKey : Option String
  firstSeen : UInt64
  lastSeen : UInt64
  acknowledged : Bool
  ackedAt : Option Int64
  ackedBy : Option String
  note : Option String
  deriving DecidableEq

/-- One entry of `tracked_to_api_issues`: an acknowledgement applies to the occurrence
with its `first_seen`. -/
def apiIssue (acks : PMap String IssueAck) (t : TrackedIssue) : ApiIssue :=
  let ack := acks t.issue.issueKey
  let acknowledged := (ack.map fun a => a.firstSeen.toUInt64 == t.firstSeen).getD false
  { issueKey := t.issue.issueKey
    fqdn := t.issue.fqdn
    hostname := t.issue.hostname
    kind := t.issue.kind
    severity := t.issue.severity
    title := t.issue.title
    description := t.issue.description
    subjectLabel := t.issue.subjectLabel
    detail := t.issue.detail
    groupKey := t.issue.groupKey
    firstSeen := t.firstSeen
    lastSeen := t.lastSeen
    acknowledged := acknowledged
    ackedAt := if acknowledged then ack.map IssueAck.ackedAt else none
    ackedBy := if acknowledged then ack.bind IssueAck.ackedBy else none
    note := if acknowledged then ack.bind IssueAck.note else none }

/-- `tracked_to_api_issues`. -/
def trackedToApiIssues (tracked : List TrackedIssue) (acks : PMap String IssueAck) : List ApiIssue :=
  tracked.map (apiIssue acks)

/-- Rows collected into a map by their key; the last one of a key stays. -/
def acksByKey (rows : List IssueAck) : PMap String IssueAck :=
  rows.foldl (fun acks ack => acks.insert ack.issueKey ack) PMap.empty

/-! ## The store -/

/-- When a derivation read the operator's configuration. The expected roots are not
read when no device has spanning tree. -/
structure ConfigRead where
  expectedRoots : Option Nat
  suppressed : Nat
  deriving DecidableEq

/-- The configuration that a change is to. -/
inductive Config where
  | expectedRoots
  | suppressed
  deriving DecidableEq

/-- `CachedIssues`. -/
structure CachedIssues where
  validUntil : Nat
  issues : List TrackedIssue
  source : ConfigRead

/-- `StpExpectedRoot`. -/
structure StpExpectedRoot where
  vlan : Int
  rootFqdn : String
  rootMac : Option String
  ackedAt : Int64
  ackedBy : Option String
  note : Option String
  deriving DecidableEq

/-- What a step was, for the statements about the order of steps. -/
inductive Event where
  /-- the tracker changed, and knows these keys -/
  | tracker (known : String → Bool)
  /-- an acknowledgement is stored that was bound to its occurrence at that time -/
  | acked (ack : IssueAck) (boundAt : Nat)
  | unacked (key : String)
  /-- a change of the configuration is followed by the invalidation of the cache -/
  | invalidated (config : Config) (changedAt : Nat)
  /-- the change is answered with success -/
  | answered (config : Config) (changedAt : Nat)
  /-- a read of the issue list is served the snapshot -/
  | hit (source : ConfigRead)
  /-- a read that started at that time is served its own derivation -/
  | derived (source : ConfigRead) (startedAt : Nat)
  | other

structure IssueStore where
  tracker : IssueTracker
  acks : IssueAcks
  cached : Option CachedIssues
  /-- the setting `suppressed_issue_types`, decoded -/
  suppressed : List String
  /-- the table `stp_expected_roots`, by its primary key -/
  expectedRoots : PMap (Int × String) StpExpectedRoot
  log : List Event

/-- What a step meets. -/
structure Answer where
  /-- `get_time_msecs` -/
  msecs : UInt64
  /-- `get_time` -/
  time : Nat
  /-- the error of a write of the database that fails -/
  writeError : Option String
  /-- a query succeeds -/
  readOk : Bool
  /-- the issues that other stores give rise to -/
  fleet : List DerivedIssue
  /-- the spanning trees of the VLANs with their names, if there are any ports -/
  trees : Option (List (List String × StpTree))
  /-- the tree of one VLAN -/
  vlanTree : Int → StpTree

/-- Nothing to report, and every statement succeeds. -/
def Answer.quiet (msecs : UInt64) (time : Nat) : Answer where
  msecs := msecs
  time := time
  writeError := none
  readOk := true
  fleet := []
  trees := none
  vlanTree vlan := ⟨vlan, [], [], [], [], none⟩

/-! ## The steps -/

/-- Who deletes an acknowledgement. -/
inductive Deleter where
  | unack
  /-- the pruning that read the known keys at that time -/
  | orphan (knownAt : Nat)

def Deleter.event (key : String) : Deleter → Event
  | .unack => .unacked key
  | .orphan _ => .other

inductive IssueCall : Type → Type where
  | getTimeMsecs : IssueCall UInt64
  | fleetIssues : IssueCall (List DerivedIssue)
  | stpTrees : IssueCall (Option (List (List String × StpTree)))
  | vlanTree (vlan : Int) : IssueCall StpTree
  /-- `expected_roots_by_vlan` -/
  | expectedRootsByVlan : IssueCall ((Int → PMap String (Option String)) × Nat)
  /-- `load_suppressed_types` -/
  | loadSuppressedTypes : IssueCall (List String × Nat)
  /-- `reconcile` under the tracker's lock -/
  | reconcile (now : UInt64) (derived : List DerivedIssue) : IssueCall (List TrackedIssue)
  /-- `reconcile` and `first_seen_of` under one lock -/
  | reconcileFirstSeenOf (now : UInt64) (derived : List DerivedIssue) (key : String) :
      IssueCall (Option UInt64 × Nat)
  | knownKeys : IssueCall ((String → Bool) × Nat)
  | freshIssues : IssueCall (Option CachedIssues × Nat)
  | storeIssues (issues : List TrackedIssue) (ttlSecs : Nat) (source : ConfigRead) : IssueCall Unit
  /-- `invalidate_issues_cache` after a change -/
  | invalidateIssuesCache (config : Config) (changedAt : Nat) : IssueCall Unit
  /-- `IssueAck::all` -/
  | allAcks : IssueCall (List IssueAck)
  | upsertAck (ack : IssueAck) (boundAt : Nat) : IssueCall (Except String Nat)
  | deleteAck (key : String) (deleter : Deleter) : IssueCall (Except String Nat)
  /-- `Setting::set` of the suppressed types; a write that succeeds tells its time -/
  | setSuppressed (kinds : List String) : IssueCall (Except String Nat)
  | upsertExpectedRoot (row : StpExpectedRoot) : IssueCall (Except String Nat)
  | deleteExpectedRoot (vlan : Int) (rootFqdn : String) : IssueCall (Except String Nat)
  /-- the answer to a change goes out -/
  | answerChange (config : Config) (changedAt : Nat) : IssueCall Unit
  /-- the derivation of a read goes out -/
  | answerRead (source : ConfigRead) (startedAt : Nat) : IssueCall Unit

namespace IssueStore
variable (s : IssueStore)

/-- The store after a step. -/
def logged (event : Event) : IssueStore := { s with log := s.log ++ [event] }

/-- The store after a step on the tracker. -/
def track (tracker : IssueTracker) : IssueStore :=
  { s.logged (.tracker tracker.knownKeys) with tracker := tracker }

/-- `fresh_issues`. -/
def freshIssues (time : Nat) : Option CachedIssues :=
  s.cached.filter fun cached => time < cached.validUntil

def expectedRootsByVlan (vlan : Int) : PMap String (Option String) :=
  fun fqdn => (s.expectedRoots (vlan, fqdn)).map StpExpectedRoot.note

end IssueStore

/-- One step. -/
def IssueCall.exec : (β : Type) → IssueCall β → Answer → IssueStore → IssueStore × β
  | _, .getTimeMsecs, e, s => (s.logged .other, e.msecs)
  | _, .fleetIssues, e, s => (s.logged .other, e.fleet)
  | _, .stpTrees, e, s => (s.logged .other, e.trees)
  | _, .vlanTree vlan, e, s => (s.logged .other, e.vlanTree vlan)
  | _, .expectedRootsByVlan, e, s =>
    (s.logged .other, (if e.readOk then s.expectedRootsByVlan else fun _ => PMap.empty), s.log.length)
  | _, .loadSuppressedTypes, e, s =>
    (s.logged .other, (if e.readOk then s.suppressed else []), s.log.length)
  | _, .reconcile now derived, _, s =>
    (s.track (s.tracker.reconcile now derived).1, (s.tracker.reconcile now derived).2)
  | _, .reconcileFirstSeenOf now derived key, _, s =>
    (s.track (s.tracker.reconcile now derived).1,
      (s.tracker.reconcile now derived).1.firstSeenOf key, s.log.length)
  | _, .knownKeys, _, s => (s.logged .other, s.tracker.knownKeys, s.log.length)
  | _, .freshIssues, e, s =>
    (s.logged ((s.freshIssues e.time).elim .other fun cached => .hit cached.source),
      s.freshIssues e.time, s.log.length)
  | _, .storeIssues issues ttlSecs source, e, s =>
    ({ s.logged .other with cached := some ⟨e.time + ttlSecs, issues, source⟩ }, ())
  | _, .invalidateIssuesCache config changedAt, _, s =>
    ({ s.logged (.invalidated config changedAt) with
        cached := s.cached.map fun cached => { cached with validUntil := 0 } }, ())
  | _, .allAcks, e, s => (s.logged .other, if e.readOk then s.acks.rows else [])
  | _, .upsertAck ack boundAt, e, s =>
    match e.writeError with
    | some error => (s.logged .other, .error error)
    | none => ({ s.logged (.acked ack boundAt) with acks := s.acks.upsert ack }, .ok 1)
  | _, .deleteAck key deleter, e, s =>
    match e.writeError with
    | some error => (s.logged .other, .error error)
    | none =>
      ({ s.logged (deleter.event key) with acks := s.acks.delete key },
        .ok (if (s.acks.find key).isSome then 1 else 0))
  | _, .setSuppressed kinds, e, s =>
    match e.writeError with
    | some error => (s.logged .other, .error error)
    | none => ({ s.logged .other with suppressed := kinds }, .ok s.log.length)
  | _, .upsertExpectedRoot row, e, s =>
    match e.writeError with
    | some error => (s.logged .other, .error error)
    | none =>
      ({ s.logged .other with
          expectedRoots := s.expectedRoots.insert (row.vlan, row.rootFqdn) row }, .ok s.log.length)
  | _, .deleteExpectedRoot vlan rootFqdn, e, s =>
    match e.writeError with
    | some error => (s.logged .other, .error error)
    | none =>
      ({ s.logged .other with
          expectedRoots := Function.update s.expectedRoots (vlan, rootFqdn) none }, .ok s.log.length)
  | _, .answerChange config changedAt, _, s => (s.logged (.answered config changedAt), ())
  | _, .answerRead source startedAt, _, s => (s.logged (.derived source startedAt), ())

/-! ## Reading -/

/-- What `collect_issues` derives, with the reading of the configuration. -/
structure Derivation where
  issues : List DerivedIssue
  source : ConfigRead

/-- The issues of the spanning trees, with when the expected roots were read. -/
def stpIssues : Option (List (List String × StpTree)) →
    Prog IssueCall (List DerivedIssue × Option Nat)
  | none => .done ([], none)
  | some trees =>
    (Prog.lift .expectedRootsByVlan).bind fun expected =>
    .done (trees.flatMap fun t => stpTreeIssues t.1 t.2 (expected.1 t.2.vlan), some expected.2)

/-- `collect_issues`. -/
def collectIssues : Prog IssueCall Derivation :=
  (Prog.lift .fleetIssues).bind fun devices =>
  (Prog.lift .stpTrees).bind fun trees =>
  (stpIssues trees).bind fun stp =>
  (Prog.lift .fleetIssues).bind fun poeAndLag =>
  (Prog.lift .loadSuppressedTypes).bind fun suppressed =>
  .done
    { issues := (devices ++ stp.1 ++ poeAndLag).filter fun i => i.kind ∉ suppressed.1
      source := ⟨stp.2, suppressed.2⟩ }

/-- `cached_tracked_issues`. -/
def cachedTrackedIssues (ttlSecs : Nat) : Prog IssueCall (List TrackedIssue) :=
  (Prog.lift .freshIssues).bind fun fresh =>
    match fresh.1 with
    | some cached => .done cached.issues
    | none =>
      collectIssues.bind fun derived =>
      (Prog.lift .getTimeMsecs).bind fun now =>
      (Prog.lift (.reconcile now derived.issues)).bind fun tracked =>
      (Prog.lift (.storeIssues tracked ttlSecs derived.source)).bind fun _ =>
      (Prog.lift (.answerRead derived.source fresh.2)).bind fun _ => .done tracked

/-- The loop of `delete_orphans`, which an error ends. -/
def deleteOrphansLoop (activeKeys : (String → Bool) × Nat) :
    Nat → List IssueAck → Prog IssueCall (Except String Nat)
  | removed, [] => .done (.ok removed)
  | removed, ack :: rest =>
    if activeKeys.1 ack.issueKey then deleteOrphansLoop activeKeys removed rest
    else (Prog.lift (.deleteAck ack.issueKey (.orphan activeKeys.2))).bind fun
      | .error e => .done (.error e)
      | .ok n => deleteOrphansLoop activeKeys (removed + n) rest

/-- `delete_orphans`. -/
def deleteOrphans (activeKeys : (String → Bool) × Nat) : Prog IssueCall (Except String Nat) :=
  (Prog.lift .allAcks).bind (deleteOrphansLoop activeKeys 0)

/-- `GET /issues`. -/
def issues (ttlSecs : Nat) : Prog IssueCall (List ApiIssue) :=
  (cachedTrackedIssues ttlSecs).bind fun tracked =>
  (Prog.lift .knownKeys).bind fun knownKeys =>
  (Prog.lift .allAcks).bind fun acks =>
  (deleteOrphans knownKeys).bind fun _ =>
  .done ((trackedToApiIssues tracked (acksByKey acks)).mergeSort fun a b =>
    decide (b.firstSeen ≤ a.firstSeen))

/-- The issues of `GET /devices/<fqdn>`. -/
def deviceIssues (ttlSecs : Nat) (fqdn : String) : Prog IssueCall (List ApiIssue) :=
  (cachedTrackedIssues ttlSecs).bind fun tracked =>
  (Prog.lift .allAcks).bind fun acks =>
  .done ((trackedToApiIssues (tracked.filter fun t => t.issue.fqdn = fqdn) (acksByKey acks)).mergeSort
    fun a b => decide (b.firstSeen ≤ a.firstSeen))

/-- One round of `issue_scan_worker`. -/
def issueScan (intervalSecs : Nat) : Prog IssueCall Unit :=
  collectIssues.bind fun derived =>
  (Prog.lift .getTimeMsecs).bind fun now =>
  (Prog.lift (.reconcile now derived.issues)).bind fun tracked =>
  Prog.lift (.storeIssues tracked intervalSecs derived.source)

/-! ## Acknowledging -/

/-- An answer other than success. -/
inductive HttpError where
  | badRequest (error : String)
  | conflict (error : String)
  | internalServerError (error : String)
  deriving DecidableEq

/-- `ApiIssueAckRequest`. -/
structure IssueAckRequest where
  issueKey : String
  note : Option String

/-- `issue_ack`, from its derivation on. -/
def acknowledge (req : IssueAckRequest) (derived : Derivation) :
    Prog IssueCall (Except HttpError IssueAck) :=
  (Prog.lift .getTimeMsecs).bind fun now =>
  (Prog.lift (.reconcileFirstSeenOf now derived.issues req.issueKey)).bind fun firstSeen =>
    match firstSeen.1 with
    | none => .done (.error (.conflict ("issue not currently active: " ++ req.issueKey)))
    | some fs =>
      let ack : IssueAck :=
        { issueKey := req.issueKey
          firstSeen := fs.toInt64
          ackedAt := now.toInt64
          ackedBy := none
          note := req.note }
      (Prog.lift (.upsertAck ack firstSeen.2)).bind fun
        | .error e => .done (.error (.internalServerError
            (s!"failed to persist acknowledgement: {e} (are the migrations up to date?)")))
        | .ok _ => .done (.ok ack)

/-- `POST /issues/ack`. -/
def issueAck (req : IssueAckRequest) : Prog IssueCall (Except HttpError IssueAck) :=
  collectIssues.bind (acknowledge req)

/-- `POST /issues/unack`. -/
def issueUnack (req : IssueAckRequest) : Prog IssueCall (Except HttpError Unit) :=
  (Prog.lift (.deleteAck req.issueKey .unack)).bind fun
    | .error e => .done (.error (.internalServerError s!"failed to remove acknowledgement: {e}"))
    | .ok _ => .done (.ok ())

/-! ## Configuring -/

/-- `ApiIssueType`. -/
structure ApiIssueType where
  info : IssueTypeInfo
  suppressed : Bool

/-- `issue_types_response`. -/
def issueTypesResponse : Prog IssueCall (List ApiIssueType) :=
  (Prog.lift .loadSuppressedTypes).bind fun suppressed =>
  .done (issueTypeCatalog.map fun t => ⟨t, suppressed.1.contains t.kind⟩)

/-- `persist_suppressed`, and what the two handlers answer after it. -/
def persistSuppressed (set : List String) : Prog IssueCall (Except HttpError (List ApiIssueType)) :=
  (Prog.lift (.setSuppressed set)).bind fun
    | .error e => .done (.error (.internalServerError
        (s!"failed to persist suppressed issue types: {e} (are the migrations up to date?)")))
    | .ok changedAt =>
      (Prog.lift (.invalidateIssuesCache .suppressed changedAt)).bind fun _ =>
      issueTypesResponse.bind fun types =>
      (Prog.lift (.answerChange .suppressed changedAt)).bind fun _ => .done (.ok types)

/-- `POST /issues/suppress`. -/
def issueSuppress (kind : String) : Prog IssueCall (Except HttpError (List ApiIssueType)) :=
  if !isKnownKind kind then .done (.error (.badRequest s!"unknown issue type: {kind}"))
  else (Prog.lift .loadSuppressedTypes).bind fun set => persistSuppressed (set.1.insert kind)

/-- `POST /issues/unsuppress`. -/
def issueUnsuppress (kind : String) : Prog IssueCall (Except HttpError (List ApiIssueType)) :=
  (Prog.lift .loadSuppressedTypes).bind fun set => persistSuppressed (set.1.filter (· ≠ kind))

/-- `ApiStpExpectedRootRequest`. -/
structure StpExpectedRootRequest where
  vlan : Int
  rootFqdn : String
  note : Option String

/-- `POST /stp/expected-roots`. -/
def stpExpectedRootAdd (req : StpExpectedRootRequest) :
    Prog IssueCall (Except HttpError StpExpectedRoot) :=
  (Prog.lift (.vlanTree req.vlan)).bind fun tree =>
  if req.rootFqdn ∉ tree.roots then
    .done (.error (.conflict s!"{req.rootFqdn} is not currently a root of VLAN {req.vlan}"))
  else
    let rootMac := tree.multipleRootsDetail.bind fun d =>
      (d.roots.find? fun c => c.fqdn = req.rootFqdn).bind fun c => c.mac
    (Prog.lift .getTimeMsecs).bind fun now =>
    let expected : StpExpectedRoot :=
      { vlan := req.vlan
        rootFqdn := req.rootFqdn
        rootMac := rootMac
        ackedAt := now.toInt64
        ackedBy := none
        note := req.note }
    (Prog.lift (.upsertExpectedRoot expected)).bind fun
      | .error e => .done (.error (.internalServerError
          (s!"failed to persist expected root: {e} (are the migrations up to date?)")))
      | .ok changedAt =>
        (Prog.lift (.invalidateIssuesCache .expectedRoots changedAt)).bind fun _ =>
        (Prog.lift (.answerChange .expectedRoots changedAt)).bind fun _ => .done (.ok expected)

/-- `POST /stp/expected-roots/remove`. -/
def stpExpectedRootRemove (req : StpExpectedRootRequest) : Prog IssueCall (Except HttpError Unit) :=
  (Prog.lift (.deleteExpectedRoot req.vlan req.rootFqdn)).bind fun
    | .error e => .done (.error (.internalServerError s!"failed to remove expected root: {e}"))
    | .ok changedAt =>
      (Prog.lift (.invalidateIssuesCache .expectedRoots changedAt)).bind fun _ =>
      (Prog.lift (.answerChange .expectedRoots changedAt)).bind fun _ => .done (.ok ())

/-! ## Together -/

/-- A request, or a round of the scan. -/
inductive Request where
  | issues
  | deviceIssues (fqdn : String)
  | scan
  | ack (req : IssueAckRequest)
  | unack (req : IssueAckRequest)
  | suppress (kind : String)
  | unsuppress (kind : String)
  | expectRoot (req : StpExpectedRootRequest)
  | removeExpectedRoot (req : StpExpectedRootRequest)

/-- What the request does. -/
def Request.prog (ttlSecs : Nat) : Request → Prog IssueCall Unit
  | .issues => (Issues.issues ttlSecs).bind fun _ => .done ()
  | .deviceIssues fqdn => (Issues.deviceIssues ttlSecs fqdn).bind fun _ => .done ()
  | .scan => issueScan ttlSecs
  | .ack req => (issueAck req).bind fun _ => .done ()
  | .unack req => (issueUnack req).bind fun _ => .done ()
  | .suppress kind => (issueSuppress kind).bind fun _ => .done ()
  | .unsuppress kind => (issueUnsuppress kind).bind fun _ => .done ()
  | .expectRoot req => (stpExpectedRootAdd req).bind fun _ => .done ()
  | .removeExpectedRoot req => (stpExpectedRootRemove req).bind fun _ => .done ()

/-- Requests that are handled at the same time. -/
def pool (ttlSecs : Nat) (s : IssueStore) (requests : Nat → Request) : Pool IssueCall IssueStore :=
  ⟨s, fun i => (requests i).prog ttlSecs⟩

end JaspyNexus.Routes.Issues

import Mathlib
import JaspyNexus.Lib.HashMap
import JaspyNexus.Collectors.Lagpoller

/-! # Warnings about aggregates

`port_channel_warnings` of `collectors/lagpoller.rs`: what is wrong with one aggregate,
as codes with the member or the protocol they are about. The far end is looked up among
the aggregates of the one device that the members are wired to. -/

namespace JaspyNexus.Collectors.Lagpoller
open JaspyNexus.Lib

structure MemberMeta where
  name : String
  /-- the peer of the discovered link -/
  connectedToFqdn : Option String
  deriving DecidableEq, Repr

/-- `lacp_bundled`. -/
def lacpBundled (state : List String) : Bool :=
  ["synchronization", "collecting", "distributing"].all fun bit => state.any fun s => s = bit

/-- The name of a member, or its ifIndex when it has none. -/
def memberLabel (info : PMap Int MemberMeta) (ifIndex : Int) : String :=
  ((info ifIndex).map MemberMeta.name).getD (toString ifIndex)

/-- What is wrong with one member. -/
def memberCode (protocol : String) (member : LagMember) : Option String :=
  if member.actorState.any fun s => s = "defaulted" || s = "expired" then some "member-no-lacp-partner"
  else if protocol = "lacp" && !lacpBundled member.actorState then some "member-not-bundled"
  else none

def LagGroup.memberWarnings (group : LagGroup) (info : PMap Int MemberMeta) : List String :=
  (HashMap.byKey group.members).filterMap fun e =>
    (memberCode group.protocol e.2).map fun code => code ++ ":" ++ memberLabel info e.1

/-- `partner_ids`: who the members say the partner is. -/
def LagGroup.partnerIds (group : LagGroup) : List String :=
  ((HashMap.byKey group.members).filterMap fun e => e.2.partnerSystemId).dedup

/-- `peer_fqdns`: where the members' links lead to. -/
def LagGroup.peerFqdns (group : LagGroup) (info : PMap Int MemberMeta) : List String :=
  ((HashMap.byKey group.members).filterMap fun e => (info e.1).bind MemberMeta.connectedToFqdn).dedup

/-- The first aggregate, by its ifIndex, whose partner has this system id. -/
def DeviceLags.facing (lags : DeviceLags) (systemId : String) : Option LagGroup :=
  ((HashMap.byKey lags.groups).find? fun e => e.2.partnerSystemId = some systemId).map Prod.snd

/-- The check against the far end. -/
def LagGroup.farEndWarnings (group : LagGroup) (info : PMap Int MemberMeta) (peerLags : PMap String DeviceLags) :
    List String :=
  match group.peerFqdns info with
  | [peerFqdn] =>
    match peerLags peerFqdn, group.actorSystemId with
    | some peer, some actorId =>
      match peer.facing actorId with
      | none => ["far-end-lag-not-found"]
      | some peerGroup =>
        if peerGroup.members.entries.length ≠ group.members.entries.length then
          ["far-end-member-count-mismatch"]
        else []
    | _, _ => []
  | _ => []

/-- `port_channel_warnings`. -/
def portChannelWarnings (group : LagGroup) (info : PMap Int MemberMeta) (peerLags : PMap String DeviceLags) :
    List String :=
  (if group.protocol ≠ "lacp" then ["not-lacp:" ++ group.protocol] else []) ++
    (if group.members.entries.length < 2 then ["single-member"] else []) ++
    group.memberWarnings info ++
    (if 1 < group.partnerIds.length then ["members-report-different-partners"] else []) ++
    (if 1 < (group.peerFqdns info).length then ["members-wired-to-different-devices"] else []) ++
    group.farEndWarnings info peerLags

end JaspyNexus.Collectors.Lagpoller

import Mathlib
import JaspyNexus.Lib.Broadcast
import JaspyNexus.Lib.PMap
import JaspyNexus.Lib.Runs

/-! # The live log

`utilities/livelog.rs`: named topics that fan frames out to the subscribers of the web
UI. A log topic keeps its last frames for who connects later; events go out live only.
Publishing writes twice, to the backlog and to the channel, and subscribing reads
twice; both hold the registry's lock for the two halves, which are steps of their own
here. The channels are `tokio`'s, a parameter. A frame is published by the call that
takes the lock for it (`publications`). -/

namespace JaspyNexus.Utilities.Livelog
open JaspyNexus.Lib JaspyNexus.Lib.Broadcast

variable {φ : Type}

/-- `BACKLOG_LINES`. -/
def backlogLines : Nat := 500

/-- `CHANNEL_CAPACITY`. -/
def channelCapacity : Nat := 1024

structure Topic (b : Broadcast φ) where
  backlog : List φ
  sender : b.Channel

/-- `Topic::new`. -/
def Topic.new (b : Broadcast φ) : Topic b := ⟨[], b.channel channelCapacity⟩

/-- The topics that events are published to: the one of a device and the one of all. -/
inductive EventTopic where
  | allDevices
  | device (fqdn : String)
  deriving DecidableEq, Repr

def EventTopic.name : EventTopic → String
  | .allDevices => "devices"
  | .device fqdn => "device:" ++ fqdn

/-- A topic that lines are logged to: events never go there. -/
def LogTopic (topic : String) : Prop := ∀ t : EventTopic, t.name ≠ topic

/-- Who holds the lock, with what is left to do: the frame to send, or the backlog to
hand out with a receiver, and how many frames the topic had when it was copied. -/
inductive Holder (φ : Type) where
  | publishing (topic : String) (frame : φ)
  | subscribing (topic : String) (backlog : List φ) (since : Nat)

/-- A subscriber: the backlog it was given, its receiver and what that was told. `since` is how
many frames the topic had when it subscribed, which the code does not see. -/
structure Subscriber (b : Broadcast φ) where
  topic : String
  backlog : List φ
  receiver : b.Receiver
  delivered : List φ
  lagged : Bool
  since : Nat

structure Registry (b : Broadcast φ) where
  topics : PMap String (Topic b)
  holder : Option (Holder φ)
  subscribers : List (Subscriber b)
  published : String → List φ

inductive Action (φ : Type) where
  | publish (topic : String) (frame : φ)
  | publishEvent (topic : EventTopic) (frame : φ)
  | send
  | subscribe (topic : String)
  | attach
  | receive (k : Nat)
  | close (k : Nat)

/-- The frame that a call publishes to the topic. -/
def Action.frameFor (topic : String) : Action φ → Option φ
  | .publish name frame => if name = topic then some frame else none
  | .publishEvent name frame => if name.name = topic then some frame else none
  | _ => none

namespace Registry
variable {b : Broadcast φ}

def start : Registry b := ⟨PMap.empty, none, [], fun _ => []⟩

/-- `entry(topic_name).or_insert_with(Topic::new)`. -/
def topic (s : Registry b) (name : String) : Topic b := PMap.getD s.topics name (Topic.new b)

/-- The first half of `publish_frame`: the backlog. -/
def retainFrame (s : Registry b) (name : String) (frame : φ) (retain : Bool) : Registry b :=
  let topic := s.topic name
  { s with
    topics := PMap.insert s.topics name
      (if retain then { topic with backlog := keepLast backlogLines (topic.backlog ++ [frame]) }
       else topic)
    holder := some (.publishing name frame)
    published := Function.update s.published name (s.published name ++ [frame]) }

/-- The second half of `publish_frame`: the channel. -/
def sendFrame (s : Registry b) (name : String) (frame : φ) : Registry b :=
  let topic := s.topic name
  { s with
    topics := PMap.insert s.topics name { topic with sender := b.send topic.sender frame }
    holder := none }

/-- The first half of `subscribe`: the backlog. -/
def copyBacklog (s : Registry b) (name : String) : Registry b :=
  { s with
    topics := PMap.insert s.topics name (s.topic name)
    holder := some (.subscribing name (s.topic name).backlog (s.published name).length) }

/-- The second half of `subscribe`: the receiver. -/
def newSubscriber (s : Registry b) (name : String) (backlog : List φ) (since : Nat) : Subscriber b where
  topic := name
  backlog := backlog
  receiver := b.subscribe (s.topic name).sender
  delivered := []
  lagged := false
  since := since

/-- `recv` of a subscriber, which takes no lock. -/
def recv (s : Registry b) (sub : Subscriber b) : Subscriber b :=
  match b.recv (s.topic sub.topic).sender sub.receiver with
  | (receiver, .value frame) => { sub with receiver := receiver, delivered := sub.delivered ++ [frame] }
  | (receiver, .lagged) => { sub with receiver := receiver, lagged := true }
  | (receiver, .empty) => { sub with receiver := receiver }

/-- A step of some thread; who finds the lock taken waits. -/
def step (s : Registry b) : Action φ → Registry b
  | .publish topic frame => if s.holder.isNone then s.retainFrame topic frame true else s
  | .publishEvent topic frame => if s.holder.isNone then s.retainFrame topic.name frame false else s
  | .send => match s.holder with
    | some (.publishing topic frame) => s.sendFrame topic frame
    | _ => s
  | .subscribe topic => if s.holder.isNone then s.copyBacklog topic else s
  | .attach => match s.holder with
    | some (.subscribing topic backlog since) =>
      { s with holder := none, subscribers := s.subscribers ++ [s.newSubscriber topic backlog since] }
    | _ => s
  | .receive k => { s with subscribers := s.subscribers.modify k s.recv }
  | .close k => { s with subscribers := s.subscribers.eraseIdx k }

def run (b : Broadcast φ) (actions : List (Action φ)) : Registry b := actions.foldl step start

/-- The frame that is published to the topic in a step, by the call that takes the lock in it. -/
def publishes (s : Registry b) (action : Action φ) (topic : String) : List φ :=
  if s.holder.isNone then (action.frameFor topic).toList else []

/-- **The frames published to a topic in a run**: those of the publish calls, in the order in
which these take the lock. -/
def publications (topic : String) : Registry b → List (Action φ) → List φ
  | _, [] => []
  | s, action :: rest => s.publishes action topic ++ publications topic (s.step action) rest

/-- The frame of a publication that has written the backlog and not yet sent. -/
def unsent (s : Registry b) (name : String) : List φ :=
  match s.holder with
  | some (.publishing topic frame) => if topic = name then [frame] else []
  | _ => []

end Registry

/-! ## What is published -/

section
variable {b : Broadcast φ}

theorem published_step (s : Registry b) (action : Action φ) (topic : String) :
    (s.step action).published topic = s.published topic ++ s.publishes action topic := by
  have hretain : ∀ name frame retain, (s.retainFrame name frame retain).published topic =
      s.published topic ++ (if name = topic then some frame else none).toList := by
    intro name frame retain
    simp only [Registry.retainFrame, Function.update_apply]
    by_cases heq : topic = name
    · subst heq
      simp
    · simp [heq, Ne.symm heq]
  unfold Registry.publishes
  cases action with
  | publish name frame | publishEvent name frame =>
    simp only [Registry.step, Action.frameFor]
    split
    · exact hretain _ frame _
    · rw [List.append_nil]
  | subscribe name =>
    simp only [Registry.step, Action.frameFor]
    split <;> simp [Registry.copyBacklog]
  | send =>
    simp only [Registry.step, Action.frameFor]
    split <;> simp [Registry.sendFrame]
  | attach =>
    simp only [Registry.step, Action.frameFor]
    split <;> simp
  | receive k | close k => simp [Registry.step, Action.frameFor]

/-- **What is published is what the calls publish.** -/
theorem published_foldl (topic : String) (actions : List (Action φ)) (s : Registry b) :
    (actions.foldl Registry.step s).published topic = s.published topic ++ s.publications topic actions := by
  induction actions generalizing s with
  | nil => exact (List.append_nil _).symm
  | cons action rest ih =>
    rw [List.foldl_cons, ih, published_step, Registry.publications, List.append_assoc]

theorem published_run (topic : String) (actions : List (Action φ)) :
    (Registry.run b actions).published topic = Registry.start.publications (b := b) topic actions :=
  published_foldl topic actions .start

/-! ## What every step keeps -/

/-- The subscriber was given the end of what was published before it subscribed, and its receiver
is told what is published since, once it is sent. -/
structure Subscriber.Served (sub : Subscriber b) (channel : b.Channel) (published unsent : List φ) : Prop where
  since : sub.since ≤ published.length
  backlog : LogTopic sub.topic → sub.backlog = keepLast backlogLines (published.take sub.since)
  receiver : sub.lagged = false → ∃ sent, b.Follows channelCapacity channel sub.receiver sent sub.delivered ∧
    sent ++ unsent = published.drop sub.since

def Registry.Serves (s : Registry b) (sub : Subscriber b) : Prop :=
  sub.Served (s.topic sub.topic).sender (s.published sub.topic) (s.unsent sub.topic)

/-- **The invariant**: a log topic's backlog is the end of what was published, and a copy of it
is of the lock's time. -/
structure Consistent (s : Registry b) : Prop where
  made : ∀ name, b.Made channelCapacity (s.topic name).sender
  backlog : ∀ name, LogTopic name → (s.topic name).backlog = keepLast backlogLines (s.published name)
  copied : ∀ name backlog since, s.holder = some (.subscribing name backlog since) →
    since = (s.published name).length ∧ (LogTopic name → backlog = keepLast backlogLines (s.published name))
  served : ∀ sub ∈ s.subscribers, s.Serves sub

theorem consistent_start : Consistent (Registry.start : Registry b) where
  made _ := .channel
  backlog _ _ := (keepLast_nil _).symm
  copied _ _ _ h := by cases h
  served _ h := by cases h

variable {s : Registry b}

theorem topic_insert (s s' : Registry b) {name : String} {topic : Topic b}
    (h : s'.topics = PMap.insert s.topics name topic) (name' : String) : s'.topic name' = if name' = name then topic else s.topic name' := by
  unfold Registry.topic PMap.getD
  rw [h, PMap.insert_apply]
  split <;> rfl

theorem unsent_of_free (h : s.holder = none) (name : String) : s.unsent name = [] := by
  rw [Registry.unsent, h]

theorem unsent_of_publishing {name : String} {frame : φ} (h : s.holder = some (.publishing name frame)) (name' : String) :
    s.unsent name' = if name = name' then [frame] else [] := by
  rw [Registry.unsent, h]

/-- A frame is published, and has not been sent yet. -/
theorem Subscriber.Served.publish {sub : Subscriber b} {channel : b.Channel} {published : List φ}
    (h : sub.Served channel published []) (frame : φ) : sub.Served channel (published ++ [frame]) [frame] where
  since := by
    have := h.since
    rw [List.length_append]
    omega
  backlog hlog := by rw [h.backlog hlog, List.take_append_of_le_length h.since]
  receiver hlag := by
    obtain ⟨sent, hfollows, hsent⟩ := h.receiver hlag
    refine ⟨sent, hfollows, ?_⟩
    rw [List.drop_append_of_le_length h.since, ← hsent, List.append_nil]

/-- It is sent. -/
theorem Subscriber.Served.send {sub : Subscriber b} {channel : b.Channel} {published : List φ} {frame : φ}
    (h : sub.Served channel published [frame]) : sub.Served (b.send channel frame) published [] where
  since := h.since
  backlog := h.backlog
  receiver hlag := by
    obtain ⟨sent, hfollows, hsent⟩ := h.receiver hlag
    exact ⟨sent ++ [frame], hfollows.send frame, by rw [List.append_nil, hsent]⟩

theorem recv_topic (s : Registry b) (sub : Subscriber b) :
    (s.recv sub).topic = sub.topic ∧ (s.recv sub).since = sub.since := by
  unfold Registry.recv
  split <;> exact ⟨rfl, rfl⟩

theorem Registry.Serves.recv {sub : Subscriber b} (h : s.Serves sub) : s.Serves (s.recv sub) := by
  have hreceiver := h.receiver
  unfold Registry.Serves
  rw [(recv_topic s sub).1]
  unfold Registry.recv
  split
  · next receiver frame hrecv =>
    refine ⟨h.since, h.backlog, fun hlag => ?_⟩
    obtain ⟨sent, hfollows, hsent⟩ := hreceiver hlag
    exact ⟨sent, hfollows.value hrecv, hsent⟩
  · exact ⟨h.since, h.backlog, fun hlag => by cases hlag⟩
  · next receiver hrecv =>
    refine ⟨h.since, h.backlog, fun hlag => ?_⟩
    obtain ⟨sent, hfollows, hsent⟩ := hreceiver hlag
    exact ⟨sent, hfollows.empty hrecv, hsent⟩

/-- Who holds the lock to subscribe gets a receiver that is served. -/
theorem Consistent.newSubscriber (h : Consistent s) {name : String} {backlog : List φ} {since : Nat}
    (hholder : s.holder = some (.subscribing name backlog since)) :
    (s.newSubscriber name backlog since).Served (s.topic name).sender (s.published name) [] := by
  obtain ⟨rfl, hbacklog⟩ := h.copied name backlog since hholder
  refine ⟨le_rfl, fun hlog => ?_, fun _ => ⟨[], .subscribe (h.made name), (List.drop_length).symm⟩⟩
  show backlog = keepLast backlogLines ((s.published name).take (s.published name).length)
  rw [List.take_length]
  exact hbacklog hlog

theorem published_retainFrame (s : Registry b) (name : String) (frame : φ) (retain : Bool) (name' : String) :
    (s.retainFrame name frame retain).published name' =
      if name' = name then s.published name ++ [frame] else s.published name' := by
  simp only [Registry.retainFrame, Function.update_apply]

theorem sender_retainFrame (s : Registry b) (name : String) (frame : φ) (retain : Bool) (name' : String) :
    ((s.retainFrame name frame retain).topic name').sender = (s.topic name').sender := by
  rw [topic_insert s (s.retainFrame name frame retain) rfl]
  split
  · next heq =>
    subst heq
    split <;> rfl
  · rfl

theorem topic_copyBacklog (s : Registry b) (name name' : String) : (s.copyBacklog name).topic name' = s.topic name' := by
  rw [topic_insert s (s.copyBacklog name) rfl]
  split
  · next heq => rw [heq]
  · rfl

/-- **The two halves of a publication, for one subscriber.** -/
theorem Registry.Serves.retainFrame {sub : Subscriber b} (h : s.Serves sub) (hfree : s.holder = none)
    (name : String) (frame : φ) (retain : Bool) : (s.retainFrame name frame retain).Serves sub := by
  unfold Registry.Serves at h ⊢
  rw [unsent_of_free hfree] at h
  rw [sender_retainFrame, published_retainFrame, unsent_of_publishing rfl]
  by_cases heq : sub.topic = name
  · rw [if_pos heq, if_pos heq.symm, ← heq]
    exact h.publish frame
  · rw [if_neg heq, if_neg (Ne.symm heq)]
    exact h

theorem Registry.Serves.sendFrame {sub : Subscriber b} (h : s.Serves sub) {name : String} {frame : φ}
    (hholder : s.holder = some (.publishing name frame)) : (s.sendFrame name frame).Serves sub := by
  unfold Registry.Serves at h ⊢
  rw [unsent_of_publishing hholder] at h
  rw [topic_insert s (s.sendFrame name frame) rfl, unsent_of_free rfl]
  by_cases heq : sub.topic = name
  · rw [if_pos heq.symm] at h
    rw [if_pos heq, ← heq]
    exact h.send
  · rw [if_neg (Ne.symm heq)] at h
    rw [if_neg heq]
    exact h

theorem Registry.Serves.copyBacklog {sub : Subscriber b} (h : s.Serves sub) (hfree : s.holder = none) (name : String) :
    (s.copyBacklog name).Serves sub := by
  unfold Registry.Serves at h ⊢
  rw [unsent_of_free hfree] at h
  rw [topic_copyBacklog]
  exact h

/-- The lock is released by who holds it to subscribe. -/
theorem Registry.Serves.release {sub : Subscriber b} (h : s.Serves sub) {name : String} {backlog : List φ} {since : Nat}
    (hholder : s.holder = some (.subscribing name backlog since)) (subscribers : List (Subscriber b)) :
    Registry.Serves { s with holder := none, subscribers := subscribers } sub := by
  have hnone : s.unsent sub.topic = [] := by rw [Registry.unsent, hholder]
  unfold Registry.Serves at h
  rw [hnone] at h
  exact h

/-- **A step serves who is served**, whether or not the registry lists it. -/
theorem Registry.Serves.step {sub : Subscriber b} (h : s.Serves sub) (action : Action φ) : (s.step action).Serves sub := by
  cases action with
  | publish topic frame | publishEvent topic frame =>
    simp only [Registry.step]
    split
    · next hfree => exact h.retainFrame (Option.isNone_iff_eq_none.mp hfree) _ frame _
    · exact h
  | send =>
    simp only [Registry.step]
    split
    · next topic frame hholder => exact h.sendFrame hholder
    · exact h
  | subscribe topic =>
    simp only [Registry.step]
    split
    · next hfree => exact h.copyBacklog (Option.isNone_iff_eq_none.mp hfree) topic
    · exact h
  | attach =>
    simp only [Registry.step]
    split
    · next topic backlog since hholder => exact h.release hholder _
    · exact h
  | receive k | close k => exact h

theorem Consistent.retainFrame (h : Consistent s) (hfree : s.holder = none) (name : String) (frame : φ)
    (retain : Bool) (hretain : LogTopic name → retain = true) : Consistent (s.retainFrame name frame retain) := by
  have htopic := topic_insert s (s.retainFrame name frame retain) rfl
  refine ⟨fun name' => ?_, fun name' hlog => ?_, (fun _ _ _ hcopy => by cases hcopy), fun sub hsub =>
    (h.served sub hsub).retainFrame hfree name frame retain⟩
  · rw [sender_retainFrame]
    exact h.made name'
  · rw [htopic, published_retainFrame]
    by_cases heq : name' = name
    · subst heq
      rw [if_pos rfl, if_pos rfl, hretain hlog, if_pos rfl]
      dsimp only
      rw [h.backlog name' hlog]
      exact keepLast_concat _ _ _
    · rw [if_neg heq, if_neg heq]
      exact h.backlog name' hlog

theorem Consistent.sendFrame (h : Consistent s) {name : String} {frame : φ}
    (hholder : s.holder = some (.publishing name frame)) : Consistent (s.sendFrame name frame) := by
  have htopic := topic_insert s (s.sendFrame name frame) rfl
  refine ⟨fun name' => ?_, fun name' hlog => ?_, (fun _ _ _ hcopy => by cases hcopy), fun sub hsub =>
    (h.served sub hsub).sendFrame hholder⟩
  · rw [htopic]
    split
    · exact (h.made name).send frame
    · exact h.made name'
  · rw [htopic]
    split
    · next heq =>
      subst heq
      exact h.backlog name' hlog
    · exact h.backlog name' hlog

theorem Consistent.copyBacklog (h : Consistent s) (hfree : s.holder = none) (name : String) :
    Consistent (s.copyBacklog name) := by
  refine ⟨fun name' => ?_, fun name' hlog => ?_, fun name' backlog since hcopy => ?_, fun sub hsub =>
    (h.served sub hsub).copyBacklog hfree name⟩
  · rw [topic_copyBacklog]
    exact h.made name'
  · rw [topic_copyBacklog]
    exact h.backlog name' hlog
  · cases hcopy
    exact ⟨rfl, h.backlog name⟩

theorem Consistent.release (h : Consistent s) {name : String} {backlog : List φ} {since : Nat}
    (hholder : s.holder = some (.subscribing name backlog since)) : Consistent { s with holder := none } :=
  ⟨h.made, h.backlog, (fun _ _ _ hcopy => by cases hcopy), fun sub hsub => (h.served sub hsub).release hholder _⟩

theorem Consistent.attach (h : Consistent s) {name : String} {backlog : List φ} {since : Nat}
    (hholder : s.holder = some (.subscribing name backlog since)) :
    Consistent { s with holder := none, subscribers := s.subscribers ++ [s.newSubscriber name backlog since] } := by
  have hfree := h.release hholder
  refine ⟨hfree.made, hfree.backlog, hfree.copied, fun sub hsub => ?_⟩
  rcases List.mem_append.mp hsub with hsub | hsub
  · exact hfree.served sub hsub
  · rw [List.mem_singleton.mp hsub]
    exact h.newSubscriber hholder

theorem Consistent.receive (h : Consistent s) (k : Nat) :
    Consistent { s with subscribers := s.subscribers.modify k s.recv } := by
  refine ⟨h.made, h.backlog, h.copied, fun sub hsub => ?_⟩
  obtain ⟨i, hi⟩ := List.mem_iff_getElem?.mp hsub
  rw [List.getElem?_modify] at hi
  obtain ⟨sub', hsub', heq⟩ := Option.map_eq_some_iff.mp hi
  have hserved := h.served sub' (List.mem_of_getElem? hsub')
  split at heq
  · rw [← heq]
    exact hserved.recv
  · rw [← heq]
    exact hserved

theorem Consistent.step (h : Consistent s) (action : Action φ) : Consistent (s.step action) := by
  cases action with
  | publish topic frame =>
    simp only [Registry.step]
    split
    · next hfree => exact h.retainFrame (Option.isNone_iff_eq_none.mp hfree) topic frame true fun _ => rfl
    · exact h
  | publishEvent topic frame =>
    simp only [Registry.step]
    split
    · next hfree =>
      exact h.retainFrame (Option.isNone_iff_eq_none.mp hfree) topic.name frame false
        fun hlog => absurd rfl (hlog topic)
    · exact h
  | send =>
    simp only [Registry.step]
    split
    · next topic frame hholder => exact h.sendFrame hholder
    · exact h
  | subscribe topic =>
    simp only [Registry.step]
    split
    · next hfree => exact h.copyBacklog (Option.isNone_iff_eq_none.mp hfree) topic
    · exact h
  | attach =>
    simp only [Registry.step]
    split
    · next topic backlog since hholder => exact h.attach hholder
    · exact h
  | receive k => exact h.receive k
  | close k =>
    exact ⟨h.made, h.backlog, h.copied, fun sub hsub => h.served sub (List.mem_of_mem_eraseIdx hsub)⟩

theorem consistent_run (actions : List (Action φ)) : Consistent (Registry.run b actions) :=
  Runs.foldl_inv Consistent (fun _ action h => h.step action) actions consistent_start

/-! ## No seam -/

/-- What a subscriber of a log topic was given and told is the beginning of the frames published
from the point on, which is at most the backlog's length before it subscribed. Once it is told
nothing more, only a frame that is not sent yet is missing. -/
structure Subscriber.Seamless (s : Registry b) (sub : Subscriber b) (published : List φ) (point : Nat) : Prop where
  reach : point ≤ sub.since ∧ sub.since ≤ point + backlogLines
  subscribed : sub.since ≤ published.length
  backlog : sub.backlog = (published.take sub.since).drop point
  received : sub.backlog ++ sub.delivered <+: published.drop point
  complete : (b.recv (s.topic sub.topic).sender sub.receiver).2 = .empty →
    sub.backlog ++ sub.delivered ++ s.unsent sub.topic = published.drop point

theorem Subscriber.Served.seamless {sub : Subscriber b} {published : List φ}
    (hb : b.Delivers channelCapacity) (h : sub.Served (s.topic sub.topic).sender published (s.unsent sub.topic))
    (hlog : LogTopic sub.topic) (hlag : sub.lagged = false) :
    sub.Seamless s published (sub.since - backlogLines) := by
  obtain ⟨sent, hfollows, hsent⟩ := h.receiver hlag
  have hlength : (published.take sub.since).length = sub.since := List.length_take_of_le h.since
  have hbacklog := h.backlog hlog
  rw [keepLast, hlength] at hbacklog
  -- the backlog and what was published since are all from the point on
  have hall : sub.backlog ++ published.drop sub.since = published.drop (sub.since - backlogLines) := by
    rw [hbacklog, ← List.drop_append_of_le_length (by rw [hlength]; omega), List.take_append_drop]
  have hreach : sub.since ≤ sub.since - backlogLines + backlogLines := Nat.sub_le_iff_le_add.mp le_rfl
  refine ⟨⟨Nat.sub_le _ _, hreach⟩, h.since, hbacklog, ?_, fun hempty => ?_⟩
  · rw [← hall, ← hsent]
    exact (List.prefix_append_right_inj _).mpr ((hfollows.got_prefix hb).trans (List.prefix_append _ _))
  · have hdone : sub.delivered = sent := (hfollows.got_prefix hb).eq_of_length (hb.empty hfollows (Prod.ext rfl hempty))
    rw [← hall, ← hsent, hdone, List.append_assoc]

/-- The subscription took the lock when that many frames had been published to its topic. -/
def Began (b : Broadcast φ) (actions : List (Action φ)) (topic : String) (since : Nat) : Prop :=
  ∃ before, before ++ [.subscribe topic] <+: actions ∧ (Registry.run b before).holder = none ∧
    since = (Registry.start.publications (b := b) topic before).length

theorem Began.later {actions : List (Action φ)} {topic : String} {since : Nat} (h : Began b actions topic since)
    (action : Action φ) : Began b (actions ++ [action]) topic since := by
  obtain ⟨before, hpre, hrest⟩ := h
  exact ⟨before, hpre.trans (List.prefix_append _ _), hrest⟩

/-- Who holds the lock to subscribe held it before, or has just taken it. -/
theorem holder_step {action : Action φ} {topic : String} {backlog : List φ} {since : Nat}
    (h : (s.step action).holder = some (.subscribing topic backlog since)) :
    s.holder = some (.subscribing topic backlog since) ∨
      action = .subscribe topic ∧ s.holder = none ∧ since = (s.published topic).length := by
  cases action with
  | publish name frame | publishEvent name frame =>
    simp only [Registry.step] at h
    split at h
    · cases h
    · exact .inl h
  | subscribe name =>
    simp only [Registry.step] at h
    split at h
    · next hfree =>
      cases h
      exact .inr ⟨rfl, Option.isNone_iff_eq_none.mp hfree, rfl⟩
    · exact .inl h
  | send | attach =>
    simp only [Registry.step] at h
    split at h
    · cases h
    · exact .inl h
  | receive k | close k => exact .inl h

/-- A subscriber was there before, or is that of who held the lock. -/
theorem subscribers_step {action : Action φ} {sub : Subscriber b} (h : sub ∈ (s.step action).subscribers) :
    (∃ old ∈ s.subscribers, sub.topic = old.topic ∧ sub.since = old.since) ∨
      ∃ backlog, s.holder = some (.subscribing sub.topic backlog sub.since) := by
  cases action with
  | publish name frame | publishEvent name frame | subscribe name | send =>
    simp only [Registry.step] at h
    split at h <;> exact .inl ⟨sub, h, rfl, rfl⟩
  | attach =>
    simp only [Registry.step] at h
    split at h
    · next name backlog since hholder =>
      rcases List.mem_append.mp h with h | h
      · exact .inl ⟨sub, h, rfl, rfl⟩
      · rw [List.mem_singleton.mp h]
        exact .inr ⟨backlog, hholder⟩
    · exact .inl ⟨sub, h, rfl, rfl⟩
  | receive k =>
    obtain ⟨i, hi⟩ := List.mem_iff_getElem?.mp h
    simp only [Registry.step, List.getElem?_modify] at hi
    obtain ⟨old, hold, heq⟩ := Option.map_eq_some_iff.mp hi
    refine .inl ⟨old, List.mem_of_getElem? hold, ?_⟩
    split at heq
    · rw [← heq]
      exact recv_topic s old
    · rw [← heq]
      exact ⟨rfl, rfl⟩
  | close k => exact .inl ⟨sub, List.mem_of_mem_eraseIdx h, rfl, rfl⟩

/-- **What is told of a subscription's time is of its call.** -/
theorem began_run (actions : List (Action φ)) :
    (∀ topic backlog since, (Registry.run b actions).holder = some (.subscribing topic backlog since) →
      Began b actions topic since) ∧
    ∀ sub ∈ (Registry.run b actions).subscribers, Began b actions sub.topic sub.since := by
  induction actions using List.reverseRecOn with
  | nil => exact ⟨(fun _ _ _ h => by cases h), (fun _ h => by cases h)⟩
  | append_singleton actions action ih =>
    obtain ⟨hholder, hsubscribers⟩ := ih
    have hstep : Registry.run b (actions ++ [action]) = (Registry.run b actions).step action := by
      rw [Registry.run, List.foldl_concat, ← Registry.run]
    rw [hstep]
    refine ⟨fun topic backlog since h => ?_, fun sub h => ?_⟩
    · rcases holder_step h with h | ⟨rfl, hfree, rfl⟩
      · exact (hholder topic backlog since h).later action
      · exact ⟨actions, List.prefix_rfl, hfree, by rw [published_run]⟩
    · rcases subscribers_step h with ⟨old, hold, htopic, hsince⟩ | ⟨backlog, h⟩
      · rw [htopic, hsince]
        exact (hsubscribers old hold).later action
      · exact (hholder _ _ _ h).later action

/-- **For every interleaving of the halves of publications and subscriptions, with receptions in
between, no frame is missing or repeated at the seam.** -/
theorem seamless_run (hb : b.Delivers channelCapacity) (actions : List (Action φ)) :
    ∀ sub ∈ (Registry.run b actions).subscribers, LogTopic sub.topic → sub.lagged = false →
      Began b actions sub.topic sub.since ∧ ∃ point, sub.Seamless (Registry.run b actions)
        (Registry.start.publications (b := b) sub.topic actions) point := by
  intro sub hsub hlog hlag
  have hserved : Subscriber.Served sub _ _ _ := (consistent_run actions).served sub hsub
  rw [published_run] at hserved
  exact ⟨(began_run actions).2 sub hsub, _, hserved.seamless hb hlog hlag⟩

end

/-- The log of a discovery run is a log topic. -/
theorem logTopic_discovery : LogTopic "discovery" := by
  intro t
  cases t with
  | allDevices => decide
  | device fqdn =>
    intro ht
    have hhead := congrArg (fun name => name.toList[1]?) ht
    simp only [EventTopic.name, String.toList_append] at hhead
    cases hhead

/-- A browser comes between the second and the third line. -/
def comesLate : List (Action Nat) :=
  [.publish "discovery" 1, .send, .publish "discovery" 2, .send, .subscribe "discovery", .attach,
    .publish "discovery" 3, .send, .receive 0]

theorem seamless_run_comesLate :
    ∃ sub ∈ (Registry.run (ring Nat) comesLate).subscribers, sub.backlog ++ sub.delivered = [1, 2, 3] ∧
      Began (ring Nat) comesLate sub.topic sub.since ∧
      ∃ point, sub.Seamless (Registry.run (ring Nat) comesLate)
        (Registry.start.publications (b := ring Nat) sub.topic comesLate) point := by
  have hsubs : (Registry.run (ring Nat) comesLate).subscribers = [⟨"discovery", [1, 2], (3 : Nat), [3], false, 2⟩] := rfl
  have hmem := List.mem_singleton_self (⟨"discovery", [1, 2], (3 : Nat), [3], false, 2⟩ : Subscriber (ring Nat))
  rw [← hsubs] at hmem
  exact ⟨_, hmem, rfl, seamless_run (ring_delivers channelCapacity) comesLate _ hmem logTopic_discovery rfl⟩

end JaspyNexus.Utilities.Livelog

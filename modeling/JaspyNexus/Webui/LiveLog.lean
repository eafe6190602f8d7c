import Mathlib
import JaspyNexus.Utilities.Livelog
import JaspyNexus.Webui.LiveSocket

/-! # A live log page and its server

`webui/src/components/LiveLog.tsx` over the handler `ws_logs` of `routes/api/v1.rs` and the
registry of `utilities/livelog.rs`. The server subscribes for every socket it accepts and
sends it the backlog and what comes after; what was sent waits on the wire until the browser
takes it. A page starts clean whenever a socket opens, and shows the last lines. -/

namespace JaspyNexus.Webui
open JaspyNexus.Lib JaspyNexus.Lib.Broadcast JaspyNexus.Utilities
open JaspyNexus.Utilities.Livelog (LogTopic)

/-- `MAX_LINES`. -/
def maxLines : Nat := 1000

variable {φ ℓ : Type} {b : Broadcast φ}

/-- What the server sends on a socket: a frame of the topic, or its answer to a ping. -/
inductive Frame (φ : Type) where
  | text (frame : φ)
  | pong

def Frame.text? : Frame φ → Option φ
  | .text frame => some frame
  | .pong => none

/-- `ws_logs` for one socket: how much of the backlog and of what was received it has
forwarded, and what the browser has not taken yet, oldest first. -/
structure Connection (b : Broadcast φ) where
  subscriber : Livelog.Subscriber b
  forwarded : Nat
  wire : List (Frame φ)

namespace Connection

/-- What is there to forward. -/
def stream (c : Connection b) : List φ := c.subscriber.backlog ++ c.subscriber.delivered

def texts (c : Connection b) : List φ := c.wire.filterMap Frame.text?

/-- A turn of the two loops: the next frame goes out, or one is received. -/
def serve (c : Connection b) (registry : Livelog.Registry b) : Connection b :=
  match c.stream[c.forwarded]? with
  | some frame => { c with forwarded := c.forwarded + 1, wire := c.wire ++ [.text frame] }
  | none => { c with subscriber := registry.recv c.subscriber }

/-- `pong_reply`, which the second loop sends. -/
def answer (c : Connection b) : Connection b :=
  if c.subscriber.backlog.length ≤ c.forwarded then { c with wire := c.wire ++ [.pong] } else c

end Connection

/-- The handlers the page gives the hook; a message is a line when it has the text of one. -/
def heard (lines : List ℓ) : Option (Callback (Option ℓ)) → List ℓ
  | some .onOpen => []
  | some (.onMessage (some line)) => keepLast maxLines (lines ++ [line])
  | some (.onMessage none) => lines
  | none => lines

/-- A page, the server, and what is between them. -/
structure LiveLog (b : Broadcast φ) (ℓ : Type) where
  registry : Livelog.Registry b
  /-- the socket that holds the registry's lock, between the two halves of its subscription -/
  waiting : Option Nat
  connections : PMap Nat (Connection b)
  hook : Hook
  lines : List ℓ

inductive LiveLog.Action (φ ℓ : Type) where
  /-- a thread of the server that does not serve the page -/
  | registry (action : Livelog.Action φ)
  /-- `ws_logs` is called for a socket, and takes the lock -/
  | accept (s : Nat)
  | attach
  | serve (s : Nat)
  | answer (s : Nat)
  /-- the browser takes the next frame off the wire -/
  | deliver (s : Nat)
  | browser (event : Event (Option ℓ))

namespace LiveLog
variable (parse : φ → Incoming (Option ℓ)) (topic : String)

def start : LiveLog b ℓ := ⟨.start, none, PMap.empty, .mount, []⟩

def incoming : Frame φ → Incoming (Option ℓ)
  | .text frame => parse frame
  | .pong => .pong

/-- The line of a frame, when it has one. -/
def line (frame : φ) : Option ℓ :=
  match parse frame with
  | .data line => line
  | .malformed => none
  | .pong => none

/-- The page hears of an event, and the hook handles it. -/
def browse (l : LiveLog b ℓ) (e : Event (Option ℓ)) : LiveLog b ℓ :=
  { l with hook := l.hook.step e, lines := heard l.lines (l.hook.callback e) }

/-- Only `attach` ends the subscription of the page, and only `deliver` brings it a message.
Before a socket is open its frames wait; one that closes drops them. -/
def step (l : LiveLog b ℓ) : Action φ ℓ → LiveLog b ℓ
  | .registry .attach =>
    if l.waiting.isNone then { l with registry := l.registry.step .attach } else l
  | .registry action => { l with registry := l.registry.step action }
  | .accept s =>
    if l.registry.holder.isNone ∧ s < l.hook.made ∧ (l.connections s).isNone then
      { l with registry := l.registry.copyBacklog topic, waiting := some s }
    else l
  | .attach => match l.waiting, l.registry.holder with
    | some s, some (.subscribing topic backlog since) =>
      { l with
        registry := { l.registry with holder := none }
        waiting := none
        connections := l.connections.insert s
          { subscriber := l.registry.newSubscriber topic backlog since
            forwarded := 0
            wire := [] } }
    | _, _ => l
  | .serve s => match l.connections s with
    | some c => { l with connections := l.connections.insert s (c.serve l.registry) }
    | none => l
  | .answer s => match l.connections s with
    | some c => { l with connections := l.connections.insert s c.answer }
    | none => l
  | .deliver s => match l.connections s with
    | some c => match c.wire with
      | frame :: rest =>
        if l.hook.readyState s = .connecting then l
        else browse { l with connections := l.connections.insert s { c with wire := rest } }
          (.received s (incoming parse frame))
      | [] => l
    | none => l
  | .browser (.received _ _) => l
  | .browser event => l.browse event

def run (b : Broadcast φ) (actions : List (Action φ ℓ)) : LiveLog b ℓ := actions.foldl (step parse topic) start

/-- The frame that is published to the topic in a step. -/
def publishes (l : LiveLog b ℓ) : Action φ ℓ → List φ
  | .registry action => l.registry.publishes action topic
  | _ => []

/-- **The frames published to the topic in a run**, by the publish calls of the server's threads. -/
def publications : LiveLog b ℓ → List (Action φ ℓ) → List φ
  | _, [] => []
  | l, action :: rest => l.publishes topic action ++ publications (l.step parse topic action) rest

end LiveLog

/-! ## How the sockets change -/

/-- Between the two states of the hook no socket opened, and those that connect now and did
not before were made. -/
structure Hook.Unopened (h h' : Hook) : Prop where
  made : h.made ≤ h'.made
  opened : ∀ s, h'.readyState s = .open → h.readyState s = .open
  connecting : ∀ s, h'.readyState s = .connecting → h.readyState s = .connecting ∨ h.made ≤ s

namespace Hook
variable {h h' : Hook} {δ : Type}

theorem Unopened.same (hmade : h'.made = h.made) (hready : h'.readyState = h.readyState) :
    h.Unopened h' :=
  ⟨hmade.ge, fun s hs => by rwa [← hready], fun s hs => .inl (by rwa [← hready])⟩

theorem Unopened.shut (hmade : h'.made = h.made) (socket : Option Nat)
    (hready : h'.readyState = Webui.shut h.readyState socket) : h.Unopened h' := by
  have hkeep : ∀ s r, r ≠ .closing → h'.readyState s = r → h.readyState s = r := by
    intro s r hr hs
    rw [hready, Webui.shut] at hs
    split at hs
    · exact absurd hs.symm hr
    · exact hs
  exact ⟨hmade.ge, fun s hs => hkeep s _ (by simp) hs, fun s hs => .inl (hkeep s _ (by simp) hs)⟩

theorem Unopened.closed (hmade : h'.made = h.made) (t : Nat)
    (hready : h'.readyState = Function.update h.readyState t .closed) : h.Unopened h' := by
  have hkeep : ∀ s r, r ≠ .closed → h'.readyState s = r → h.readyState s = r := by
    intro s r hr hs
    rw [hready] at hs
    by_cases hst : s = t
    · rw [hst, Function.update_self] at hs
      exact absurd hs.symm hr
    · rwa [Function.update_of_ne hst] at hs
  exact ⟨hmade.ge, fun s hs => hkeep s _ (by simp) hs, fun s hs => .inl (hkeep s _ (by simp) hs)⟩

theorem Unopened.connect (hmade : h'.made = h.made) (hready : h'.readyState = h.readyState) :
    h.Unopened h'.connect := by
  unfold Hook.connect
  split
  · exact .same hmade hready
  split
  · exact .same hmade hready
  dsimp only [clearProbe]
  refine ⟨hmade.ge.trans (Nat.le_succ _), fun s hs => ?_, fun s hs => ?_⟩ <;> dsimp only at hs <;>
    by_cases hsm : s = h'.made
  · rw [hsm, Function.update_self] at hs
    cases hs
  · rwa [Function.update_of_ne hsm, hready] at hs
  · exact .inr (by omega)
  · exact .inl (by rwa [Function.update_of_ne hsm, hready] at hs)

theorem Unopened.checkConnection (hmade : h'.made = h.made) (hready : h'.readyState = h.readyState)
    (sends : Bool) : h.Unopened (h'.checkConnection sends) := by
  rcases Sane.checkConnection_cases h' sends with
    ⟨he, _⟩ | ⟨_, he⟩ | ⟨s, _, _, he⟩ | ⟨s, _, _, _, he⟩ <;> rw [he]
  · exact .same hmade hready
  · exact .connect hmade hready
  · exact .shut hmade (some s) (by rw [← hready]; rfl)
  · exact .same hmade hready

/-- **Only a handshake that ends opens a socket.** -/
theorem unopened_step (h : Hook) {e : Event δ} (he : ∀ s, e = .opened s → h.readyState s ≠ .connecting) :
    h.Unopened (h.step e) := by
  cases e with
  | opened s =>
    simp only [step, if_neg (he s rfl)]
    exact .same rfl rfl
  | received s frame =>
    cases frame with
    | pong =>
      simp only [step]
      split <;> exact .same rfl rfl
    | malformed => exact .same rfl rfl
    | data value => exact .same rfl rfl
  | closing s =>
    simp only [step]
    split
    · exact .shut rfl (some s) rfl
    · exact .same rfl rfl
  | closed s onLine =>
    simp only [step]
    split
    · exact .same rfl rfl
    · refine .closed ?_ s ?_ <;> unfold onclose <;> dsimp only [clearProbe] <;> split <;> rfl
  | retryDue id =>
    simp only [step]
    split
    · exact .connect rfl rfl
    · exact .same rfl rfl
  | connectDue id =>
    simp only [step]
    split
    · split
      · exact .shut rfl (some _) rfl
      · exact .same rfl rfl
    · exact .same rfl rfl
  | probeDue id =>
    simp only [step]
    split
    · exact .shut rfl h.socketRef rfl
    · exact .same rfl rfl
  | wake hidden sends =>
    simp only [step]
    split
    · exact .same rfl rfl
    · exact .checkConnection rfl rfl sends
  | offline =>
    simp only [step]
    split
    · exact .same rfl rfl
    · exact .shut rfl h.socketRef rfl
  | nudge sends =>
    simp only [step]
    split
    · exact .same rfl rfl
    · exact @Unopened.checkConnection h { h with backoffMs := backoffMinMs } rfl rfl sends
  | unmount =>
    simp only [step]
    split
    · exact .same rfl rfl
    · exact .shut rfl h.socketRef rfl

theorem callback_of_ne {e : Event δ} (h : Hook) (hopened : ∀ s, e = .opened s → h.readyState s ≠ .connecting)
    (hreceived : ∀ s frame, e ≠ .received s frame) : h.callback e = none := by
  cases e with
  | opened s => exact if_neg (hopened s rfl)
  | received s frame => exact absurd rfl (hreceived s frame)
  | _ => rfl

end Hook

/-! ## What every step keeps -/

namespace Connection
variable {c : Connection b}

theorem stream_recv (c : Connection b) (registry : Livelog.Registry b) :
    c.stream <+: { c with subscriber := registry.recv c.subscriber }.stream := by
  unfold stream Livelog.Registry.recv
  dsimp only
  split
  · exact (List.prefix_append_right_inj _).mpr (List.prefix_append _ _)
  · exact List.prefix_rfl
  · exact List.prefix_rfl

@[simp] theorem texts_text (wire : List (Frame φ)) (frame : φ) :
    (wire ++ [Frame.text frame]).filterMap Frame.text? = wire.filterMap Frame.text? ++ [frame] := by
  simp [Frame.text?]

@[simp] theorem texts_pong (wire : List (Frame φ)) :
    (wire ++ [Frame.pong]).filterMap Frame.text? = wire.filterMap Frame.text? := by
  simp [Frame.text?]

end Connection

/-- What a subscription of the page keeps: it is one to the topic, and no more was forwarded
than there was. -/
structure Connection.Sound (c : Connection b) (topic : String) (registry : Livelog.Registry b) : Prop where
  topic : c.subscriber.topic = topic
  served : registry.Serves c.subscriber
  forwarded : c.forwarded ≤ c.stream.length

/-- `shown` reached the page from the connection. -/
def Connection.Showed (c : Connection b) (shown : List φ) : Prop :=
  shown ++ c.texts = c.stream.take c.forwarded

namespace Connection
variable {c : Connection b} {topic : String} {registry : Livelog.Registry b}

/-- **A turn of the server's loops** adds to the wire what it forwards. -/
theorem serve_keeps (hc : c.Sound topic registry) :
    (c.serve registry).Sound topic registry ∧
      ∀ shown, c.Showed shown → (c.serve registry).Showed shown := by
  unfold serve
  split
  · next frame hframe =>
    have hlt := (List.getElem?_eq_some_iff.mp hframe).1
    refine ⟨⟨hc.topic, hc.served, hlt⟩, fun shown hs => ?_⟩
    unfold Showed texts at hs ⊢
    rw [texts_text, ← List.append_assoc, hs]
    show _ = List.take (c.forwarded + 1) c.stream
    rw [List.take_add_one, hframe]
    rfl
  · have hbegins := stream_recv c registry
    have htopic := (Livelog.recv_topic registry c.subscriber).1.trans hc.topic
    refine ⟨⟨htopic, hc.served.recv, hc.forwarded.trans hbegins.length_le⟩, fun shown hs => ?_⟩
    obtain ⟨rest, hrest⟩ := hbegins
    unfold Showed at hs ⊢
    rw [← hrest, List.take_append_of_le_length hc.forwarded]
    exact hs

theorem answer_keeps (hc : c.Sound topic registry) :
    c.answer.Sound topic registry ∧ ∀ shown, c.Showed shown → c.answer.Showed shown := by
  unfold answer
  split
  · refine ⟨⟨hc.topic, hc.served, hc.forwarded⟩, fun shown hs => ?_⟩
    unfold Showed texts at hs ⊢
    rwa [texts_pong]
  · exact ⟨hc, fun _ hs => hs⟩

end Connection

/-- Who subscribes keeps the lock until it has its receiver. -/
theorem holder_kept {registry : Livelog.Registry b} {topic : String} {backlog : List φ} {since : Nat}
    {action : Livelog.Action φ} (hholder : registry.holder = some (.subscribing topic backlog since))
    (hattach : action ≠ .attach) : (registry.step action).holder = some (.subscribing topic backlog since) := by
  cases action with
  | publish name frame | publishEvent name frame | subscribe name | send =>
    simp [Livelog.Registry.step, hholder]
  | attach => exact absurd rfl hattach
  | receive k | close k => exact hholder

theorem Connection.Sound.step {c : Connection b} {topic : String} {registry : Livelog.Registry b}
    (hc : c.Sound topic registry) (action : Livelog.Action φ) : c.Sound topic (registry.step action) :=
  ⟨hc.topic, hc.served.step action, hc.forwarded⟩

namespace LiveLog
variable {parse : φ → Incoming (Option ℓ)} {topic : String} {l : LiveLog b ℓ}

/-- What the page shows on an open socket: the last lines of what reached it since it opened. -/
def Shows (parse : φ → Incoming (Option ℓ)) (lines : List ℓ) (connection : Option (Connection b)) : Prop :=
  match connection with
  | none => lines = []
  | some c => ∃ shown, c.Showed shown ∧ lines = keepLast maxLines (shown.filterMap (line parse))

/-- What holds after every step: each socket has a sound subscription at most, nothing has
reached the page on one that is still connecting, and on an open one it shows what has. -/
structure Inv (parse : φ → Incoming (Option ℓ)) (topic : String) (l : LiveLog b ℓ) : Prop where
  registry : Livelog.Consistent l.registry
  hook : l.hook.Sane
  waiting : ∀ s, l.waiting = some s →
    (∃ backlog since, l.registry.holder = some (.subscribing topic backlog since)) ∧ s < l.hook.made ∧
      l.connections s = none
  made : ∀ s c, l.connections s = some c → s < l.hook.made
  sound : ∀ s c, l.connections s = some c → c.Sound topic l.registry
  silent : ∀ s c, l.connections s = some c → l.hook.readyState s = .connecting → c.Showed []
  shows : ∀ s, l.hook.readyState s = .open → Shows parse l.lines (l.connections s)

theorem inv_start : Inv parse topic (start : LiveLog b ℓ) where
  registry := Livelog.consistent_start
  hook := Hook.Sane.mount.1
  waiting s hs := by cases hs
  made s c hc := by cases hc
  sound s c hc := by cases hc
  silent s c hc := by cases hc
  shows s _ := rfl

/-- What changes one connection in place. -/
theorem Inv.insert (h : Inv parse topic l) {s : Nat} {c c' : Connection b} (hc : l.connections s = some c)
    (hkeeps : c'.Sound topic l.registry ∧ ∀ shown, c.Showed shown → c'.Showed shown) :
    Inv parse topic { l with connections := l.connections.insert s c' } := by
  have hat : ∀ t d, l.connections.insert s c' t = some d →
      t = s ∧ d = c' ∨ l.connections t = some d := by
    intro t d hd
    rw [PMap.insert_apply] at hd
    split at hd
    · next hts => exact .inl ⟨hts, (Option.some.inj hd).symm⟩
    · exact .inr hd
  refine { h with waiting := fun t ht => ?_, made := fun t d hd => ?_, sound := fun t d hd => ?_,
                  silent := fun t d hd hready => ?_, shows := fun t ht => ?_ }
  · obtain ⟨hholder, hmade, hnone⟩ := h.waiting t ht
    refine ⟨hholder, hmade, ?_⟩
    have hts : t ≠ s := fun hts => by
      rw [hts, hc] at hnone
      cases hnone
    exact (PMap.insert_of_ne _ _ hts).trans hnone
  · rcases hat t d hd with ⟨rfl, -⟩ | hd
    · exact h.made t c hc
    · exact h.made t d hd
  · rcases hat t d hd with ⟨-, rfl⟩ | hd
    · exact hkeeps.1
    · exact h.sound t d hd
  · rcases hat t d hd with ⟨rfl, rfl⟩ | hd
    · exact hkeeps.2 _ (h.silent t c hc hready)
    · exact h.silent t d hd hready
  · have hold := h.shows t ht
    dsimp only
    rw [PMap.insert_apply]
    split
    · next hts =>
      rw [hts, hc] at hold
      obtain ⟨shown, hshowed, hlines⟩ := hold
      exact ⟨shown, hkeeps.2 _ hshowed, hlines⟩
    · exact hold

theorem Inv.publish (h : Inv parse topic l) {action : Livelog.Action φ}
    (hattach : action = .attach → l.waiting = none) :
    Inv parse topic { l with registry := l.registry.step action } := by
  refine { h with registry := h.registry.step action, waiting := fun s hs => ?_,
                  sound := fun s c hc => (h.sound s c hc).step action }
  obtain ⟨⟨backlog, since, hholder⟩, hrest⟩ := h.waiting s hs
  refine ⟨⟨backlog, since, holder_kept hholder fun he => ?_⟩, hrest⟩
  rw [hattach he] at hs
  cases hs

theorem Inv.accept (h : Inv parse topic l) {s : Nat} (hfree : l.registry.holder = none)
    (hs : s < l.hook.made) (hnone : l.connections s = none) :
    Inv parse topic { l with registry := l.registry.copyBacklog topic, waiting := some s } :=
  { h with
    registry := h.registry.copyBacklog hfree topic
    sound := fun t c hc => ⟨(h.sound t c hc).topic, (h.sound t c hc).served.copyBacklog hfree topic, (h.sound t c hc).forwarded⟩
    waiting := fun t ht => by
      cases ht
      exact ⟨⟨_, _, rfl⟩, hs, hnone⟩ }

/-- **The subscription of a socket goes through.** -/
theorem Inv.attach (h : Inv parse topic l) {s : Nat} (hs : l.waiting = some s) :
    Inv parse topic (step parse topic l .attach) := by
  obtain ⟨⟨backlog, since, hholder⟩, hmade, hnone⟩ := h.waiting s hs
  simp only [step, hs, hholder]
  have hserved := h.registry.newSubscriber hholder
  have hsame : ∀ t, t ≠ s → ∀ c : Connection b, l.connections.insert s c t = l.connections t :=
    fun t hts c => PMap.insert_of_ne _ _ hts
  refine { h with registry := h.registry.release hholder, waiting := (fun t ht => by cases ht),
                  made := fun t c hc => ?_, sound := fun t c hc => ?_, silent := fun t c hc hready => ?_,
                  shows := fun t ht => ?_ } <;> by_cases hts : t = s
  · rw [hts]; exact hmade
  · exact h.made t c ((hsame t hts _).symm.trans hc)
  · subst hts
    obtain rfl := Option.some.inj ((PMap.insert_self _ _ _).symm.trans hc)
    exact ⟨rfl, hserved, Nat.zero_le _⟩
  · have hold := h.sound t c ((hsame t hts _).symm.trans hc)
    exact ⟨hold.topic, hold.served.release hholder _, hold.forwarded⟩
  · subst hts
    obtain rfl := Option.some.inj ((PMap.insert_self _ _ _).symm.trans hc)
    rfl
  · exact h.silent t c ((hsame t hts _).symm.trans hc) hready
  · -- nothing was forwarded yet, and the page is clean since it opened
    subst hts
    have hold := h.shows t ht
    rw [hnone] at hold
    dsimp only
    rw [PMap.insert_self]
    exact ⟨[], rfl, hold.trans (keepLast_nil _).symm⟩
  · have hold := h.shows t ht
    dsimp only
    rwa [hsame t hts]

theorem inv_of_unopened (h : Inv parse topic l) {hook : Hook} (hsane : hook.Sane)
    (hu : l.hook.Unopened hook) : Inv parse topic { l with hook := hook } := by
  refine { h with hook := hsane, waiting := fun s hs => ?_, made := fun s c hc => ?_,
                  silent := fun s c hc hready => ?_, shows := fun s hs => h.shows s (hu.opened s hs) }
  · obtain ⟨hholder, hmade, hnone⟩ := h.waiting s hs
    exact ⟨hholder, hmade.trans_le hu.made, hnone⟩
  · exact (h.made s c hc).trans_le hu.made
  · rcases hu.connecting s hready with hready | hle
    · exact h.silent s c hc hready
    · exact absurd (h.made s c hc) (Nat.not_lt.mpr hle)

/-- A handler that is not given a message. -/
theorem Inv.browse (h : Inv parse topic l) {e : Event (Option ℓ)} (he : ∀ s frame, e ≠ .received s frame) :
    Inv parse topic (l.browse e) := by
  by_cases hopened : ∃ s, e = .opened s ∧ l.hook.readyState s = .connecting
  · obtain ⟨s, rfl, hready⟩ := hopened
    have hlines : heard l.lines (l.hook.callback (.opened s)) = [] := by
      simp only [Hook.callback, hready, if_true, heard]
    have hstep : l.hook.step (.opened s : Event (Option ℓ)) = l.hook.onopen s := if_pos hready
    have hcur := h.hook.single s (.inl hready)
    unfold LiveLog.browse
    rw [hlines, hstep]
    refine { h with hook := h.hook.onopen hready, waiting := h.waiting, made := h.made,
                    silent := fun t c hc ht => ?_, shows := fun t ht => ?_ } <;>
      by_cases hts : t = s
    · subst hts
      simp only [Hook.onopen, Function.update_self] at ht
      cases ht
    · simp only [Hook.onopen, Function.update_of_ne hts] at ht
      exact h.silent t c hc ht
    · -- what is on the wire of the new socket has not been taken
      subst hts
      cases hc : l.connections t with
      | none => rfl
      | some c => exact ⟨[], h.silent t c hc hready, (keepLast_nil _).symm⟩
    · simp only [Hook.onopen, Function.update_of_ne hts] at ht
      exact absurd (Option.some.inj ((h.hook.single t (.inr ht)).symm.trans hcur)) hts
  · have hno : ∀ s, e = .opened s → l.hook.readyState s ≠ .connecting :=
      fun s hs hready => hopened ⟨s, hs, hready⟩
    unfold LiveLog.browse
    rw [Hook.callback_of_ne l.hook hno he]
    show Inv parse topic { l with hook := l.hook.step e }
    have hsane := h.hook.step e
    have hu := Hook.unopened_step l.hook hno
    exact inv_of_unopened h hsane hu

theorem heard_incoming (h : Hook) {s : Nat} (hready : h.readyState s = .open) (shown : List φ)
    (frame : Frame φ) :
    heard (keepLast maxLines (shown.filterMap (line parse))) (h.callback (.received s (incoming parse frame))) =
      keepLast maxLines ((shown ++ frame.text?.toList).filterMap (line parse)) := by
  cases frame with
  | pong => simp [incoming, Hook.callback, heard, Frame.text?]
  | text frame =>
    simp only [incoming, Frame.text?, Option.toList_some, List.filterMap_append]
    cases hparse : parse frame with
    | malformed => simp [Hook.callback, heard, line, hparse]
    | pong => simp [Hook.callback, heard, line, hparse]
    | data value =>
      cases value with
      | none => simp [Hook.callback, heard, line, hparse, hready]
      | some text =>
        simp only [Hook.callback, hready, if_true, heard]
        rw [keepLast_concat]
        simp [line, hparse]

theorem heard_of_not_open (h : Hook) (lines : List ℓ) {s : Nat} (hready : h.readyState s ≠ .open)
    (frame : Incoming (Option ℓ)) : heard lines (h.callback (.received s frame)) = lines := by
  cases frame with
  | data value => simp only [Hook.callback, if_neg hready, heard]
  | malformed => rfl
  | pong => rfl

/-- **The browser takes a frame off the wire.** -/
theorem Inv.deliver (h : Inv parse topic l) {s : Nat} {c : Connection b} {frame : Frame φ}
    {rest : List (Frame φ)} (hc : l.connections s = some c) (hwire : c.wire = frame :: rest)
    (hready : l.hook.readyState s ≠ .connecting) :
    Inv parse topic (LiveLog.browse
      { l with connections := l.connections.insert s { c with wire := rest } }
      (.received s (incoming parse frame))) := by
  have htexts : c.texts = frame.text?.toList ++ rest.filterMap Frame.text? := by
    unfold Connection.texts
    rw [hwire, List.filterMap_cons]
    cases frame.text? <;> rfl
  have hat : ∀ t d, l.connections.insert s { c with wire := rest } t = some d →
      t = s ∧ d = { c with wire := rest } ∨ l.connections t = some d := by
    intro t d hd
    rw [PMap.insert_apply] at hd
    split at hd
    · next hts => exact .inl ⟨hts, (Option.some.inj hd).symm⟩
    · exact .inr hd
  have hopened : ∀ t, (.received s (incoming parse frame) : Event (Option ℓ)) = .opened t →
      l.hook.readyState t ≠ .connecting := fun t ht => by cases ht
  have hu := Hook.unopened_step l.hook hopened
  unfold LiveLog.browse
  refine ⟨h.registry, h.hook.step _, fun t ht => ?_, fun t d hd => ?_, fun t d hd => ?_,
    fun t d hd ht => ?_, fun t ht => ?_⟩
  · obtain ⟨hholder, hmade, hnone⟩ := h.waiting t ht
    have hts : t ≠ s := fun hts => by
      rw [hts, hc] at hnone
      cases hnone
    exact ⟨hholder, hmade.trans_le hu.made, (PMap.insert_of_ne _ _ hts).trans hnone⟩
  · rcases hat t d hd with ⟨rfl, -⟩ | hd
    · exact (h.made t c hc).trans_le hu.made
    · exact (h.made t d hd).trans_le hu.made
  · rcases hat t d hd with ⟨rfl, rfl⟩ | hd
    · exact ⟨(h.sound t c hc).topic, (h.sound t c hc).served, (h.sound t c hc).forwarded⟩
    · exact h.sound t d hd
  · rcases hu.connecting t ht with hconn | hle
    · rcases hat t d hd with ⟨rfl, -⟩ | hd
      · exact absurd hconn hready
      · exact h.silent t d hd hconn
    · rcases hat t d hd with ⟨rfl, -⟩ | hd
      · exact absurd (h.made t c hc) (Nat.not_lt.mpr hle)
      · exact absurd (h.made t d hd) (Nat.not_lt.mpr hle)
  · have hopen := hu.opened t ht
    have hold := h.shows t hopen
    dsimp only
    rw [PMap.insert_apply]
    by_cases hts : t = s
    · subst hts
      rw [hc] at hold
      obtain ⟨shown, hshowed, hlines⟩ := hold
      rw [if_pos rfl, hlines]
      refine ⟨shown ++ frame.text?.toList, ?_, heard_incoming l.hook hopen shown frame⟩
      unfold Connection.Showed at hshowed
      rw [htexts, ← List.append_assoc] at hshowed
      exact hshowed
    · -- another socket is the open one
      have hnot : l.hook.readyState s ≠ .open := fun hs =>
        hts (Option.some.inj ((h.hook.single t (.inr hopen)).symm.trans (h.hook.single s (.inr hs))))
      rw [if_neg hts, heard_of_not_open l.hook l.lines hnot]
      exact hold

theorem Inv.step (h : Inv parse topic l) (action : Action φ ℓ) : Inv parse topic (step parse topic l action) := by
  cases action with
  | registry action =>
    cases action with
    | attach =>
      simp only [LiveLog.step]
      split
      · next hnone => exact h.publish fun _ => Option.isNone_iff_eq_none.mp hnone
      · exact h
    | publish | publishEvent | send | subscribe | receive | close => exact h.publish (by simp)
  | accept s =>
    simp only [LiveLog.step]
    split
    · next hs => exact h.accept (Option.isNone_iff_eq_none.mp hs.1) hs.2.1 (Option.isNone_iff_eq_none.mp hs.2.2)
    · exact h
  | attach =>
    cases hs : l.waiting with
    | none =>
      simp only [LiveLog.step, hs]
      exact h
    | some s => exact h.attach hs
  | serve s =>
    simp only [LiveLog.step]
    split
    · next c hc => exact h.insert hc (Connection.serve_keeps (h.sound s c hc))
    · exact h
  | answer s =>
    simp only [LiveLog.step]
    split
    · next c hc => exact h.insert hc (Connection.answer_keeps (h.sound s c hc))
    · exact h
  | deliver s =>
    simp only [LiveLog.step]
    split
    · next c hc =>
      split
      · next frame rest hwire =>
        split
        · exact h
        · next hready => exact h.deliver hc hwire hready
      · exact h
    · exact h
  | browser event =>
    cases event with
    | received s frame => exact h
    | opened | closing | closed | retryDue | connectDue | probeDue | wake | offline | nudge | unmount =>
      exact h.browse (by simp)

theorem inv_run (actions : List (Action φ ℓ)) : Inv parse topic (run parse topic b actions) :=
  Runs.foldl_inv (Inv parse topic) (fun _ action h => h.step action) actions inv_start

/-! ## What the page shows -/

/-- What the page and the loops that serve its sockets do is nothing to the registry's lock. -/
theorem step_serving (l : LiveLog b ℓ) {action : Action φ ℓ} (hregistry : ∀ a, action ≠ .registry a)
    (haccept : ∀ s, action ≠ .accept s) (hattach : action ≠ .attach) :
    (l.step parse topic action).registry = l.registry ∧ (l.step parse topic action).waiting = l.waiting := by
  cases action with
  | registry a => exact absurd rfl (hregistry a)
  | accept s => exact absurd rfl (haccept s)
  | attach => exact absurd rfl hattach
  | serve s | answer s =>
    simp only [LiveLog.step]
    split <;> exact ⟨rfl, rfl⟩
  | deliver s =>
    simp only [LiveLog.step]
    split
    · split
      · split <;> exact ⟨rfl, rfl⟩
      · exact ⟨rfl, rfl⟩
    · exact ⟨rfl, rfl⟩
  | browser event => cases event <;> exact ⟨rfl, rfl⟩

theorem published_step (l : LiveLog b ℓ) (action : Action φ ℓ) :
    (l.step parse topic action).registry.published topic =
      l.registry.published topic ++ l.publishes topic action := by
  cases action with
  | registry action =>
    have hstep := Livelog.published_step l.registry action topic
    cases action with
    | attach =>
      simp only [LiveLog.step]
      split
      · exact hstep
      · simp [publishes, Livelog.Registry.publishes, Livelog.Action.frameFor]
    | publish | publishEvent | send | subscribe | receive | close => exact hstep
  | accept s =>
    simp only [LiveLog.step]
    split <;> exact (List.append_nil _).symm
  | attach =>
    simp only [LiveLog.step]
    split <;> exact (List.append_nil _).symm
  | serve | answer | deliver | browser =>
    rw [(step_serving l (by simp) (by simp) (by simp)).1]
    exact (List.append_nil _).symm

theorem published_foldl (parse : φ → Incoming (Option ℓ)) (topic : String) (actions : List (Action φ ℓ)) (l : LiveLog b ℓ) :
    (actions.foldl (step parse topic) l).registry.published topic =
      l.registry.published topic ++ l.publications parse topic actions := by
  induction actions generalizing l with
  | nil => exact (List.append_nil _).symm
  | cons action rest ih => rw [List.foldl_cons, ih, published_step, publications, List.append_assoc]

theorem published_run (actions : List (Action φ ℓ)) :
    (run parse topic b actions).registry.published topic = (start : LiveLog b ℓ).publications parse topic actions :=
  published_foldl parse topic actions start

/-- The call of `ws_logs` for the socket took the lock when that many frames had been published. -/
def Accepted (parse : φ → Incoming (Option ℓ)) (topic : String) (b : Broadcast φ) (actions : List (Action φ ℓ))
    (s since : Nat) : Prop :=
  ∃ before, before ++ [.accept s] <+: actions ∧ (run parse topic b before).registry.holder = none ∧
    since = ((start : LiveLog b ℓ).publications parse topic before).length

theorem Accepted.later {actions : List (Action φ ℓ)} {s since : Nat} (h : Accepted parse topic b actions s since)
    (action : Action φ ℓ) : Accepted parse topic b (actions ++ [action]) s since := by
  obtain ⟨before, hpre, hrest⟩ := h
  exact ⟨before, hpre.trans (List.prefix_append _ _), hrest⟩

/-- The socket that subscribes did before, or has just taken the lock. -/
theorem Inv.waiting_step (h : Inv parse topic l) {action : Action φ ℓ} {s : Nat} {backlog : List φ} {since : Nat}
    (hs : (l.step parse topic action).waiting = some s)
    (hholder : (l.step parse topic action).registry.holder = some (.subscribing topic backlog since)) :
    l.waiting = some s ∧ l.registry.holder = some (.subscribing topic backlog since) ∨
      action = .accept s ∧ l.registry.holder = none ∧ since = (l.registry.published topic).length := by
  have hregistry : ∀ action, l.waiting = some s →
      (l.registry.step action).holder = some (.subscribing topic backlog since) →
      l.registry.holder = some (.subscribing topic backlog since) := by
    intro action hs hholder
    rcases Livelog.holder_step hholder with hold | ⟨-, hfree, -⟩
    · exact hold
    · obtain ⟨⟨backlog', since', hheld⟩, -⟩ := h.waiting s hs
      rw [hfree] at hheld
      cases hheld
  cases action with
  | registry action =>
    cases action with
    | attach =>
      simp only [LiveLog.step] at hs hholder
      split at hs
      · next hfree =>
        rw [if_pos hfree] at hholder
        exact .inl ⟨hs, hregistry .attach hs hholder⟩
      · next hfree =>
        rw [if_neg hfree] at hholder
        exact .inl ⟨hs, hholder⟩
    | publish | publishEvent | send | subscribe | receive | close => exact .inl ⟨hs, hregistry _ hs hholder⟩
  | accept t =>
    simp only [LiveLog.step] at hs hholder
    split at hs
    · next hfree =>
      rw [if_pos hfree] at hholder
      cases hs
      cases hholder
      exact .inr ⟨rfl, Option.isNone_iff_eq_none.mp hfree.1, rfl⟩
    · next hfree =>
      rw [if_neg hfree] at hholder
      exact .inl ⟨hs, hholder⟩
  | attach =>
    cases hwaiting : l.waiting with
    | none =>
      simp only [LiveLog.step, hwaiting] at hs
      cases hs
    | some t =>
      obtain ⟨⟨backlog', since', hheld⟩, -⟩ := h.waiting t hwaiting
      simp only [LiveLog.step, hwaiting, hheld] at hs
      cases hs
  | serve | answer | deliver | browser =>
    rw [(step_serving l (by simp) (by simp) (by simp)).2] at hs
    rw [(step_serving l (by simp) (by simp) (by simp)).1] at hholder
    exact .inl ⟨hs, hholder⟩

/-- A connection was there before, or is that of the socket that subscribed. -/
theorem Inv.connections_step (h : Inv parse topic l) {action : Action φ ℓ} {s : Nat} {c : Connection b}
    (hc : (l.step parse topic action).connections s = some c) :
    (∃ old, l.connections s = some old ∧ c.subscriber.since = old.subscriber.since) ∨
      l.waiting = some s ∧ ∃ backlog, l.registry.holder = some (.subscribing topic backlog c.subscriber.since) := by
  have hinsert : ∀ t old new, l.connections t = some old → new.subscriber.since = old.subscriber.since →
      l.connections.insert t new s = some c →
      ∃ old, l.connections s = some old ∧ c.subscriber.since = old.subscriber.since := by
    intro t old new hold hsince hc
    rw [PMap.insert_apply] at hc
    split at hc
    · next hst =>
      cases hc
      exact ⟨old, by rw [hst, hold], hsince⟩
    · exact ⟨c, hc, rfl⟩
  cases action with
  | registry action =>
    refine .inl ⟨c, ?_, rfl⟩
    cases action with
    | attach =>
      simp only [LiveLog.step] at hc
      split at hc <;> exact hc
    | publish | publishEvent | send | subscribe | receive | close => exact hc
  | accept t =>
    simp only [LiveLog.step] at hc
    split at hc <;> exact .inl ⟨c, hc, rfl⟩
  | attach =>
    cases hwaiting : l.waiting with
    | none =>
      simp only [LiveLog.step, hwaiting] at hc
      exact .inl ⟨c, hc, rfl⟩
    | some t =>
      obtain ⟨⟨backlog, since, hheld⟩, -⟩ := h.waiting t hwaiting
      simp only [LiveLog.step, hwaiting, hheld] at hc
      rw [PMap.insert_apply] at hc
      split at hc
      · next hst =>
        cases hc
        exact .inr ⟨by rw [hst], backlog, hheld⟩
      · exact .inl ⟨c, hc, rfl⟩
  | serve t =>
    simp only [LiveLog.step] at hc
    split at hc
    · next old hold =>
      refine .inl (hinsert t old _ hold ?_ hc)
      unfold Connection.serve
      split
      · rfl
      · exact (Livelog.recv_topic l.registry old.subscriber).2
    · exact .inl ⟨c, hc, rfl⟩
  | answer t =>
    simp only [LiveLog.step] at hc
    split at hc
    · next old hold =>
      refine .inl (hinsert t old _ hold ?_ hc)
      unfold Connection.answer
      split <;> rfl
    · exact .inl ⟨c, hc, rfl⟩
  | deliver t =>
    simp only [LiveLog.step] at hc
    split at hc
    · next old hold =>
      split at hc
      · next frame rest hwire =>
        split at hc
        · exact .inl ⟨c, hc, rfl⟩
        · exact .inl (hinsert t old { old with wire := rest } hold rfl hc)
      · exact .inl ⟨c, hc, rfl⟩
    · exact .inl ⟨c, hc, rfl⟩
  | browser event =>
    refine .inl ⟨c, ?_, rfl⟩
    cases event <;> exact hc

/-- **What is told of a subscription's time is of the call for its socket.** -/
theorem accepted_run (parse : φ → Incoming (Option ℓ)) (topic : String) (b : Broadcast φ) (actions : List (Action φ ℓ)) :
    (∀ s backlog since, (run parse topic b actions).waiting = some s →
      (run parse topic b actions).registry.holder = some (.subscribing topic backlog since) →
      Accepted parse topic b actions s since) ∧
    ∀ s c, (run parse topic b actions).connections s = some c →
      Accepted parse topic b actions s c.subscriber.since := by
  induction actions using List.reverseRecOn with
  | nil => exact ⟨(fun _ _ _ h => by cases h), (fun _ _ h => by cases h)⟩
  | append_singleton actions action ih =>
    obtain ⟨hwaiting, hconnections⟩ := ih
    have hinv : Inv parse topic (run parse topic b actions) := inv_run actions
    have hstep : run parse topic b (actions ++ [action]) = (run parse topic b actions).step parse topic action := by
      rw [run, List.foldl_concat, ← run]
    rw [hstep]
    refine ⟨fun s backlog since hs hholder => ?_, fun s c hc => ?_⟩
    · rcases hinv.waiting_step hs hholder with ⟨hs, hholder⟩ | ⟨rfl, hfree, rfl⟩
      · exact (hwaiting s backlog since hs hholder).later action
      · exact ⟨actions, List.prefix_rfl, hfree, by rw [published_run]⟩
    · rcases hinv.connections_step hc with ⟨old, hold, hsince⟩ | ⟨hs, backlog, hholder⟩
      · rw [hsince]
        exact (hconnections s old hold).later action
      · exact (hwaiting s backlog _ hs hholder).later action

/-- The page shows the last lines of the frames it was given, and these, what is on the wire and
what the server has yet to forward are what its subscription was given and told. -/
structure Tails (parse : φ → Incoming (Option ℓ)) (l : LiveLog b ℓ) (c : Connection b) (published : List φ)
    (shown : List φ) (point : Nat) : Prop where
  subscription : c.subscriber.Seamless l.registry published point
  lines : l.lines = keepLast maxLines (shown.filterMap (line parse))
  between : shown ++ c.texts ++ c.stream.drop c.forwarded = c.stream

/-- **For every interleaving of the threads of the server, of the handshakes, drops, retries and
probes of the page's sockets and of the frames between them**, a page with an open socket shows
nothing before the server has subscribed for it. From then on, unless the receiver lagged, it shows
the lines of its topic in order, none missing and none repeated. -/
theorem tails_run (parse : φ → Incoming (Option ℓ)) (topic : String) (hb : b.Delivers Livelog.channelCapacity)
    (actions : List (Action φ ℓ)) :
    ∀ s, (run parse topic b actions).hook.readyState s = .open →
      ((run parse topic b actions).connections s = none → (run parse topic b actions).lines = []) ∧
      ∀ c, (run parse topic b actions).connections s = some c → LogTopic topic → c.subscriber.lagged = false →
        c.subscriber.topic = topic ∧ Accepted parse topic b actions s c.subscriber.since ∧
        ∃ shown point, Tails parse (run parse topic b actions) c
          ((start : LiveLog b ℓ).publications parse topic actions) shown point := by
  intro s hs
  have hinv : Inv parse topic (run parse topic b actions) := inv_run actions
  have hshows := hinv.shows s hs
  refine ⟨fun hc => ?_, fun c hc hlog hlag => ?_⟩ <;> rw [hc] at hshows
  · exact hshows
  obtain ⟨shown, hshowed, hlines⟩ := hshows
  obtain ⟨htopic, hserved, -⟩ := hinv.sound s c hc
  unfold Livelog.Registry.Serves at hserved
  have hseamless := hserved.seamless hb (htopic ▸ hlog) hlag
  rw [htopic, published_run] at hseamless
  refine ⟨htopic, (accepted_run parse topic b actions).2 s c hc, shown, _, hseamless, hlines, ?_⟩
  rw [hshowed, List.take_append_drop]

/-- A line is logged before the page's socket is accepted and one after. -/
def opensLate : List (Action Nat Nat) :=
  [.registry (.publish "discovery" 1), .registry .send, .accept 0, .attach, .browser (.opened 0),
    .registry (.publish "discovery" 2), .registry .send, .serve 0, .serve 0, .serve 0, .deliver 0, .deliver 0]

theorem tails_run_opensLate :
    ∃ c, (run (fun n => .data (some n)) "discovery" (ring Nat) opensLate).connections 0 = some c ∧
      (run (fun n => .data (some n)) "discovery" (ring Nat) opensLate).lines = [1, 2] ∧
      Accepted (fun n => .data (some n)) "discovery" (ring Nat) opensLate 0 c.subscriber.since ∧
      ∃ shown point, Tails (fun n => .data (some n))
        (run (fun n => .data (some n)) "discovery" (ring Nat) opensLate) c
        ((start : LiveLog (ring Nat) Nat).publications (fun n => .data (some n)) "discovery" opensLate) shown point := by
  have htails := tails_run (fun n => .data (some n)) "discovery" (ring_delivers Livelog.channelCapacity) opensLate 0 rfl
  obtain ⟨-, haccepted, hshown⟩ := htails.2 _ rfl Livelog.logTopic_discovery rfl
  exact ⟨_, rfl, rfl, haccepted, hshown⟩

end LiveLog

end JaspyNexus.Webui

import Mathlib
import JaspyNexus.Lib.Runs
import JaspyNexus.Lib.Timers

/-! # The live socket of the web UI

`webui/src/hooks/useLiveSocket.ts`: the subscription of a page to a topic of the live log,
with its reconnects. The browser calls the handlers one after another: a socket opens,
receives and closes, a timer comes due, the tab wakes up, the network goes away. The sockets
that were made stay around until each has told that it is closed, so the handlers of an
older one still run beside those of the current one. The topic of a mounted page does not
change. -/

namespace JaspyNexus.Webui
open JaspyNexus.Lib

/-- `BACKOFF_MIN_MS`. -/
def backoffMinMs : Nat := 500

/-- `BACKOFF_MAX_MS`. -/
def backoffMaxMs : Nat := 5000

/-- `WebSocket.readyState`. -/
inductive ReadyState where
  | connecting
  | open
  | closing
  | closed
  deriving DecidableEq, Repr

inductive LiveStatus where
  | live
  | connecting
  | down
  deriving DecidableEq, Repr

/-- What is received, as `JSON.parse` and the test for our own reply tell it. -/
inductive Incoming (δ : Type) where
  | malformed
  | pong
  | data (value : δ)

/-- What the hook calls of the page. -/
inductive Callback (δ : Type) where
  | onOpen
  | onMessage (value : δ)
  deriving DecidableEq, Repr

/-- The references of the hook, beside the sockets and the timers of the browser. -/
structure Hook where
  /-- by the number of the socket; one that was not made yet is closed -/
  readyState : Nat → ReadyState
  made : Nat
  socketRef : Option Nat
  /-- with the delay each was set for -/
  retryTimers : Timers Nat
  retryTimer : Option Nat
  /-- with the socket each is to close -/
  connectTimers : Timers Nat
  connectTimer : Option Nat
  /-- with the socket that was pinged, which the callback does not see -/
  probeTimers : Timers Nat
  probeTimer : Option Nat
  backoffMs : Nat
  disposed : Bool
  status : LiveStatus

inductive Event (δ : Type) where
  | opened (s : Nat)
  | received (s : Nat) (frame : Incoming δ)
  /-- the other end begins to close -/
  | closing (s : Nat)
  /-- the socket is closed; `onLine` is `navigator.onLine` then -/
  | closed (s : Nat) (onLine : Bool)
  | retryDue (id : Nat)
  | connectDue (id : Nat)
  | probeDue (id : Nat)
  /-- `onWake`, or a tick of the watchdog after a gap; `sends` is whether `send` goes through -/
  | wake (hidden sends : Bool)
  | offline
  /-- `reconnectSignal` was bumped -/
  | nudge (sends : Bool)
  | unmount

/-- A socket that is connecting or open begins to close. -/
def shut (readyState : Nat → ReadyState) (socket : Option Nat) (s : Nat) : ReadyState :=
  if some s = socket ∧ (readyState s = .connecting ∨ readyState s = .open) then .closing
  else readyState s

namespace Hook
variable (h : Hook) {δ : Type}

/-- `socketRef.current?.readyState`. -/
def current : Option ReadyState := h.socketRef.map h.readyState

/-- `socket.close()`. -/
def close (s : Nat) : Hook := { h with readyState := shut h.readyState (some s) }

/-- `socketRef.current?.close()`. -/
def closeCurrent : Hook := { h with readyState := shut h.readyState h.socketRef }

def clearProbe : Hook :=
  { h with probeTimers := h.probeTimers.clear h.probeTimer, probeTimer := none }

/-- `connect`. The status it tests is the one the page was mounted with, never `live`. -/
def connect : Hook :=
  if h.disposed then h
  else if h.current = some .open ∨ h.current = some .connecting then h
  else
    let h := { h with retryTimers := h.retryTimers.clear h.retryTimer }
    let h := h.clearProbe
    { h with
      status := .connecting
      readyState := Function.update h.readyState h.made .connecting
      made := h.made + 1
      socketRef := some h.made
      connectTimers := h.connectTimers.set h.made
      connectTimer := some h.connectTimers.next }

def onopen (s : Nat) : Hook :=
  { h with
    readyState := Function.update h.readyState s .open
    connectTimers := h.connectTimers.clear h.connectTimer
    backoffMs := backoffMinMs
    status := .live }

def onclose (s : Nat) (onLine : Bool) : Hook :=
  let h := { h with
    readyState := Function.update h.readyState s .closed
    connectTimers := h.connectTimers.clear h.connectTimer }
  let h := h.clearProbe
  let h := { h with status := if onLine then .connecting else .down }
  if h.disposed then h
  else { h with
    retryTimers := h.retryTimers.set h.backoffMs
    retryTimer := some h.retryTimers.next
    backoffMs := min (h.backoffMs * 2) backoffMaxMs }

def checkConnection (sends : Bool) : Hook :=
  if h.disposed then h
  else match h.socketRef with
    | none => { h with backoffMs := backoffMinMs }.connect
    | some s => match h.readyState s with
      | .open =>
        if h.probeTimer.isSome then h
        else if sends then
          { h with probeTimers := h.probeTimers.set s, probeTimer := some h.probeTimers.next }
        else { h with backoffMs := backoffMinMs }.close s
      | .connecting => h
      | .closing => { h with backoffMs := backoffMinMs }.connect
      | .closed => { h with backoffMs := backoffMinMs }.connect

/-- What the effect leaves behind when the page goes away. -/
def unmount : Hook :=
  let h := { h with
    disposed := true
    retryTimers := h.retryTimers.clear h.retryTimer
    connectTimers := h.connectTimers.clear h.connectTimer }
  { h.clearProbe.closeCurrent with socketRef := none }

/-- A page that was just mounted. -/
def mount : Hook :=
  connect {
    readyState := fun _ => .closed, made := 0, socketRef := none
    retryTimers := .none, retryTimer := none, connectTimers := .none, connectTimer := none
    probeTimers := .none, probeTimer := none
    backoffMs := backoffMinMs, disposed := false, status := .connecting }

/-- One handler runs. An event that cannot come does nothing; the listeners on the window are
gone once the page is. -/
def step (h : Hook) : Event δ → Hook
  | .opened s => if h.readyState s = .connecting then h.onopen s else h
  | .received s .pong => if h.readyState s = .open then h.clearProbe else h
  | .received _ _ => h
  | .closing s => if h.readyState s = .open then h.close s else h
  | .closed s onLine => if h.readyState s = .closed then h else h.onclose s onLine
  | .retryDue id => match h.retryTimers.pending id with
    | some _ => { h with retryTimers := h.retryTimers.clear (some id) }.connect
    | none => h
  | .connectDue id => match h.connectTimers.pending id with
    | some s =>
      let h := { h with connectTimers := h.connectTimers.clear (some id) }
      if h.readyState s = .connecting then h.close s else h
    | none => h
  | .probeDue id => match h.probeTimers.pending id with
    | some _ =>
      { h with probeTimers := h.probeTimers.clear (some id), probeTimer := none }.closeCurrent
    | none => h
  | .wake hidden sends => if h.disposed || hidden then h else h.checkConnection sends
  | .offline => if h.disposed then h else { h with status := .down }.closeCurrent
  | .nudge sends =>
    if h.disposed then h else { h with backoffMs := backoffMinMs }.checkConnection sends
  | .unmount => if h.disposed then h else h.unmount

/-- What the page hears of an event. -/
def callback : Event δ → Option (Callback δ)
  | .opened s => if h.readyState s = .connecting then some .onOpen else none
  | .received s (.data value) => if h.readyState s = .open then some (.onMessage value) else none
  | _ => none

def run (events : List (Event δ)) : Hook := events.foldl step mount

end Hook

/-! ## What every handler keeps -/

/-- The socket is connecting or open. -/
def Hook.Live (h : Hook) (s : Nat) : Prop :=
  h.readyState s = .connecting ∨ h.readyState s = .open

/-- What holds between any two statements of the handlers: only the current socket is
connecting or open, every delay is within its bounds, a probe that is out was sent on the
current socket, and the status is `live` on a socket that has opened and not yet told that it
is closed. -/
structure Hook.Sane (h : Hook) : Prop where
  unmade : ∀ s, h.made ≤ s → h.readyState s = .closed
  current : ∀ s, h.socketRef = some s → s < h.made
  single : ∀ s, h.Live s → h.socketRef = some s
  backoff : backoffMinMs ≤ h.backoffMs ∧ h.backoffMs ≤ backoffMaxMs
  delays : ∀ id delay, h.retryTimers.pending id = some delay →
    backoffMinMs ≤ delay ∧ delay ≤ backoffMaxMs
  probes : ∀ id s, h.probeTimers.pending id = some s → h.probeTimer = some id ∧ h.socketRef = some s
  probing : ∀ id, h.probeTimer = some id → (h.probeTimers.pending id).isSome
  live : h.status = .live → h.disposed = false →
    ∃ s, h.socketRef = some s ∧ (h.readyState s = .open ∨ h.readyState s = .closing)
  ended : h.disposed = true → h.socketRef = none

/-- The current socket is not closed for good: it still has to tell that it closes, or a retry
is pending. -/
def Hook.Recovers (h : Hook) : Prop :=
  ∃ s, h.socketRef = some s ∧
    (h.readyState s ≠ .closed ∨ ∃ id delay, h.retryTimers.pending id = some delay)

/-- The current socket is connecting or open. -/
def Hook.Connected (h : Hook) : Prop := ∃ s, h.socketRef = some s ∧ h.Live s

namespace Hook
variable {h : Hook}

theorem current_eq (r : ReadyState) : h.current = some r ↔ ∃ s, h.socketRef = some s ∧ h.readyState s = r := by
  simp [current, Option.map_eq_some_iff]

theorem connected_iff : h.Connected ↔ h.current = some .open ∨ h.current = some .connecting := by
  simp only [Connected, Live, current_eq]
  constructor
  · rintro ⟨s, hs, hc | ho⟩
    · exact .inr ⟨s, hs, hc⟩
    · exact .inl ⟨s, hs, ho⟩
  · rintro (⟨s, hs, ho⟩ | ⟨s, hs, hc⟩)
    · exact ⟨s, hs, .inr ho⟩
    · exact ⟨s, hs, .inl hc⟩

theorem Connected.recovers (hc : h.Connected) : h.Recovers := by
  obtain ⟨s, hs, hlive⟩ := hc
  refine ⟨s, hs, .inl fun hclosed => ?_⟩
  rcases hlive with hl | hl <;> rw [hclosed] at hl <;> cases hl

theorem shut_live {readyState : Nat → ReadyState} {socket : Option Nat} {s : Nat} :
    (shut readyState socket s = .connecting ∨ shut readyState socket s = .open) ↔
      (readyState s = .connecting ∨ readyState s = .open) ∧ some s ≠ socket := by
  unfold shut
  split
  · next hc => simp [hc.1]
  · next hc =>
    constructor
    · intro hlive
      exact ⟨hlive, fun hs => hc ⟨hs, hlive⟩⟩
    · exact fun hlive => hlive.1

theorem shut_closed {readyState : Nat → ReadyState} (socket : Option Nat) {s : Nat}
    (hs : readyState s = .closed) : shut readyState socket s = .closed := by
  unfold shut
  rw [hs]
  simp

theorem shut_opened {readyState : Nat → ReadyState} (socket : Option Nat) {s : Nat}
    (hs : readyState s = .open ∨ readyState s = .closing) :
    shut readyState socket s = .open ∨ shut readyState socket s = .closing := by
  unfold shut
  split
  · exact .inr rfl
  · exact hs

namespace Sane

theorem closing (hs : h.Sane) (socket : Option Nat) :
    { h with readyState := shut h.readyState socket }.Sane :=
  { hs with
    unmade := fun t ht => shut_closed socket (hs.unmade t ht)
    single := fun t ht => hs.single t (shut_live.mp ht).1
    live := fun hl hd =>
      have ⟨t, ht, hopened⟩ := hs.live hl hd
      ⟨t, ht, shut_opened socket hopened⟩ }

theorem clearProbe (hs : h.Sane) : h.clearProbe.Sane where
  unmade := hs.unmade
  current := hs.current
  single := hs.single
  backoff := hs.backoff
  delays := hs.delays
  probes id s hp := by
    obtain ⟨hne, hp⟩ := Timers.pending_of_clear hp
    exact absurd (hs.probes id s hp).1.symm hne
  probing id hp := by cases hp
  live := hs.live
  ended := hs.ended

theorem clearRetry (hs : h.Sane) (id : Option Nat) :
    { h with retryTimers := h.retryTimers.clear id }.Sane :=
  { hs with delays := fun i delay hp => hs.delays i delay (Timers.pending_of_clear hp).2 }

/-- `connect` leaves a socket that is connecting or open, unless the page is gone. -/
theorem connect (hs : h.Sane) : h.connect.Sane ∧ (h.disposed = false → h.connect.Connected) := by
  unfold Hook.connect
  split
  · next hd => exact ⟨hs, fun hnd => by rw [hd] at hnd; cases hnd⟩
  split
  · next hconn => exact ⟨hs, fun _ => connected_iff.mpr hconn⟩
  next hnd hconn =>
  -- the sockets that were made before are closing or closed
  have hquiet : ∀ t, ¬h.Live t := fun t ht => hconn (connected_iff.mp ⟨t, hs.single t ht, ht⟩)
  dsimp only [Hook.clearProbe]
  refine ⟨?_, fun _ => ⟨h.made, rfl, .inl (Function.update_self ..)⟩⟩
  refine ⟨fun t ht => ?_, fun t ht => ?_, fun t ht => ?_, hs.backoff, fun id delay hp => ?_,
    fun id t hp => ?_, (fun id hp => by cases hp), (fun hl => by cases hl), fun hd => absurd hd hnd⟩
  · dsimp only at ht ⊢
    rw [Function.update_of_ne (by omega)]
    exact hs.unmade t (by omega)
  · cases ht
    exact Nat.lt_succ_self _
  · by_cases htm : t = h.made
    · rw [htm]
    · simp only [Live, Function.update_of_ne htm] at ht
      exact absurd ht (hquiet t)
  · exact hs.delays id delay (Timers.pending_of_clear hp).2
  · obtain ⟨hne, hp⟩ := Timers.pending_of_clear hp
    exact absurd (hs.probes id t hp).1.symm hne

theorem onopen (hs : h.Sane) {s : Nat} (hready : h.readyState s = .connecting) : (h.onopen s).Sane := by
  have hcur : h.socketRef = some s := hs.single s (.inl hready)
  refine ⟨fun t ht => ?_, hs.current, fun t ht => ?_, ⟨Nat.le_refl _, (by decide : backoffMinMs ≤ backoffMaxMs)⟩,
    hs.delays, hs.probes,
    hs.probing, fun _ _ => ⟨s, hcur, .inl (Function.update_self ..)⟩, hs.ended⟩
  · have hts : t ≠ s := fun hts => absurd (hs.current s hcur) (by rw [← hts]; exact Nat.not_lt.mpr ht)
    exact (Function.update_of_ne hts _ _).trans (hs.unmade t ht)
  · by_cases hts : t = s
    · rw [hts]; exact hcur
    · simp only [Live, Hook.onopen, Function.update_of_ne hts] at ht
      exact hs.single t ht

theorem onclose (hs : h.Sane) (s : Nat) (onLine : Bool) : (h.onclose s onLine).Sane := by
  have hclosed : ∀ t r, r ≠ ReadyState.closed → Function.update h.readyState s .closed t = r →
      h.readyState t = r := by
    intro t r hr ht
    by_cases hts : t = s
    · rw [hts, Function.update_self] at ht
      exact absurd ht.symm hr
    · rwa [Function.update_of_ne hts] at ht
  have hsingle : ∀ t, Function.update h.readyState s .closed t = .connecting ∨
      Function.update h.readyState s .closed t = .open → h.socketRef = some t := by
    rintro t (ht | ht)
    · exact hs.single t (.inl (hclosed t _ (by decide) ht))
    · exact hs.single t (.inr (hclosed t _ (by decide) ht))
  have hunmade : ∀ t, h.made ≤ t → Function.update h.readyState s .closed t = .closed := by
    intro t ht
    by_cases hts : t = s
    · rw [hts, Function.update_self]
    · rw [Function.update_of_ne hts]
      exact hs.unmade t ht
  have hprobe := hs.clearProbe
  have hstatus : (if onLine then LiveStatus.connecting else .down) ≠ .live := by
    cases onLine <;> decide
  unfold Hook.onclose
  dsimp only [Hook.clearProbe]
  split
  · exact ⟨hunmade, hs.current, hsingle, hs.backoff, hs.delays, hprobe.probes, hprobe.probing,
      fun hl => absurd hl hstatus, hs.ended⟩
  · next hnd =>
    refine ⟨hunmade, hs.current, hsingle, ?_, fun id delay hp => ?_, hprobe.probes, hprobe.probing,
      fun hl => absurd hl hstatus, hs.ended⟩
    · have hb := hs.backoff
      simp only [backoffMinMs, backoffMaxMs] at hb ⊢
      omega
    · dsimp only at hp
      rw [Timers.pending_set] at hp
      split at hp
      · cases hp
        exact hs.backoff
      · exact hs.delays id delay hp

theorem reset (hs : h.Sane) : { h with backoffMs := backoffMinMs }.Sane :=
  { hs with backoff := ⟨Nat.le_refl _, (by decide : backoffMinMs ≤ backoffMaxMs)⟩ }

/-- **The inversion of a check.** It connects, gives up on an open socket, or sends a ping, and
else it leaves all as it is. -/
theorem checkConnection_cases (h : Hook) (sends : Bool) :
    h.checkConnection sends = h ∧ (h.disposed = false → h.Connected) ∨
    h.disposed = false ∧ h.checkConnection sends = { h with backoffMs := backoffMinMs }.connect ∨
    (∃ s, h.socketRef = some s ∧ h.readyState s = .open ∧
      h.checkConnection sends = { h with backoffMs := backoffMinMs }.close s) ∨
    (∃ s, h.socketRef = some s ∧ h.readyState s = .open ∧ h.probeTimer = none ∧
      h.checkConnection sends =
        { h with probeTimers := h.probeTimers.set s, probeTimer := some h.probeTimers.next }) := by
  unfold Hook.checkConnection
  by_cases hd : h.disposed = true
  · rw [if_pos hd]
    exact .inl ⟨rfl, fun hnd => by rw [hd] at hnd; cases hnd⟩
  have hnd : h.disposed = false := by simpa using hd
  rw [if_neg hd]
  cases hcur : h.socketRef with
  | none => exact .inr (.inl ⟨hnd, rfl⟩)
  | some s =>
    cases hready : h.readyState s with
    | connecting => exact .inl ⟨by simp only [hready], fun _ => ⟨s, hcur, .inl hready⟩⟩
    | closing => exact .inr (.inl ⟨hnd, by simp only [hready]⟩)
    | closed => exact .inr (.inl ⟨hnd, by simp only [hready]⟩)
    | «open» =>
      simp only [hready]
      cases hprobe : h.probeTimer with
      | some id => exact .inl ⟨by simp, fun _ => ⟨s, hcur, .inr hready⟩⟩
      | none =>
        cases sends with
        | true => exact .inr (.inr (.inr ⟨s, rfl, hready, rfl, by simp⟩))
        | false => exact .inr (.inr (.inl ⟨s, rfl, hready, by simp⟩))

theorem checkConnection (hs : h.Sane) (sends : Bool) : (h.checkConnection sends).Sane := by
  rcases checkConnection_cases h sends with ⟨he, _⟩ | ⟨_, he⟩ | ⟨s, _, _, he⟩ | ⟨s, hcur, _, hprobe, he⟩ <;>
    rw [he]
  · exact hs
  · exact hs.reset.connect.1
  · exact hs.reset.closing (some s)
  · -- no probe was out
    have hnone : ∀ id t, h.probeTimers.pending id ≠ some t := fun id t hp => by
      have href := (hs.probes id t hp).1
      rw [hprobe] at href
      cases href
    refine { hs with probes := fun id t hp => ?_, probing := fun id hp => ?_ }
    · dsimp only at hp
      rw [Timers.pending_set] at hp
      split at hp
      · next hid =>
        cases hp
        exact ⟨by rw [hid], hcur⟩
      · exact absurd hp (hnone id t)
    · cases hp
      simp

/-- After the page is gone every socket is closing or closed. -/
theorem unmount (hs : h.Sane) : h.unmount.Sane where
  unmade t ht := shut_closed _ (hs.unmade t ht)
  current t ht := by cases ht
  single t ht := by
    have hlive := shut_live.mp ht
    exact absurd (hs.single t hlive.1).symm hlive.2
  backoff := hs.backoff
  delays id delay hp := hs.delays id delay (Timers.pending_of_clear hp).2
  probes id s hp := by cases (hs.clearProbe.probes id s hp).1
  probing id hp := by cases hp
  live _ hd := by cases hd
  ended _ := rfl

theorem mount : (Hook.mount).Sane ∧ Hook.mount.Connected := by
  refine ⟨(connect ?_).1, (connect ?_).2 rfl⟩ <;>
  exact ⟨fun _ _ => rfl, (fun _ hc => by cases hc), (fun _ hc => by rcases hc with hc | hc <;> cases hc),
    ⟨Nat.le_refl _, (by decide : backoffMinMs ≤ backoffMaxMs)⟩, (fun _ _ hc => by cases hc),
    (fun _ _ hc => by cases hc), (fun _ hc => by cases hc), (fun hc => by cases hc), fun _ => rfl⟩

theorem step (hs : h.Sane) (e : Event δ) : (h.step e).Sane := by
  cases e with
  | opened s =>
    simp only [Hook.step]
    split
    · next hready => exact hs.onopen hready
    · exact hs
  | received s frame =>
    cases frame with
    | pong =>
      simp only [Hook.step]
      split
      · exact hs.clearProbe
      · exact hs
    | malformed => exact hs
    | data value => exact hs
  | closing s =>
    simp only [Hook.step]
    split
    · exact hs.closing (some s)
    · exact hs
  | closed s onLine =>
    simp only [Hook.step]
    split
    · exact hs
    · exact hs.onclose s onLine
  | retryDue id =>
    simp only [Hook.step]
    split
    · exact (hs.clearRetry (some id)).connect.1
    · exact hs
  | connectDue id =>
    simp only [Hook.step]
    split
    · have hs' : ({ h with connectTimers := h.connectTimers.clear (some id) } : Hook).Sane := { hs with }
      split
      · exact hs'.closing (some _)
      · exact hs'
    · exact hs
  | probeDue id =>
    simp only [Hook.step]
    split
    · next s hp =>
      -- there is one probe at most, and this was it
      have href := (hs.probes id s hp).1
      have hs' := hs.clearProbe
      simp only [Hook.clearProbe, href] at hs'
      exact hs'.closing h.socketRef
    · exact hs
  | wake hidden sends =>
    simp only [Hook.step]
    split
    · exact hs
    · exact hs.checkConnection sends
  | offline =>
    simp only [Hook.step]
    split
    · exact hs
    · have hs' : ({ h with status := .down } : Hook).Sane := { hs with live := fun hl => by cases hl }
      exact hs'.closing h.socketRef
  | nudge sends =>
    simp only [Hook.step]
    split
    · exact hs
    · exact hs.reset.checkConnection sends
  | unmount =>
    simp only [Hook.step]
    split
    · exact hs
    · exact hs.unmount

end Sane

/-! ## The subscription is never lost -/

theorem Recovers.congr {h' : Hook} (hr : h.Recovers) (hcur : h'.socketRef = h.socketRef)
    (hready : ∀ s, h.readyState s ≠ .closed → h'.readyState s ≠ .closed)
    (htimers : h'.retryTimers = h.retryTimers) : h'.Recovers := by
  obtain ⟨s, hs, hr⟩ := hr
  refine ⟨s, hcur.trans hs, ?_⟩
  rw [htimers]
  exact hr.imp (hready s) id

theorem shut_ne_closed {readyState : Nat → ReadyState} (socket : Option Nat) {s : Nat}
    (hs : readyState s ≠ .closed) : shut readyState socket s ≠ .closed := by
  unfold shut
  split
  · decide
  · exact hs

theorem Recovers.check (hs : h.Sane) (hr : h.Recovers) (sends : Bool) :
    (h.checkConnection sends).Recovers := by
  rcases Sane.checkConnection_cases h sends with
    ⟨he, _⟩ | ⟨hd, he⟩ | ⟨s, _, _, he⟩ | ⟨s, _, _, _, he⟩ <;> rw [he]
  · exact hr
  · exact (hs.reset.connect.2 hd).recovers
  · exact hr.congr rfl (fun _ => shut_ne_closed _) rfl
  · exact hr.congr rfl (fun _ ht => ht) rfl

theorem disposed_connect (h : Hook) : h.connect.disposed = h.disposed := by
  unfold connect
  split
  · rfl
  split <;> rfl

theorem disposed_checkConnection (h : Hook) (sends : Bool) :
    (h.checkConnection sends).disposed = h.disposed := by
  rcases Sane.checkConnection_cases h sends with
    ⟨he, _⟩ | ⟨_, he⟩ | ⟨s, _, _, he⟩ | ⟨s, _, _, _, he⟩ <;> rw [he]
  · exact disposed_connect _
  · rfl

/-- Once the page is gone no socket is made. -/
theorem step_of_disposed (hd : h.disposed = true) (e : Event δ) :
    (h.step e).disposed = true ∧ (h.step e).made = h.made := by
  have hself : ∀ h' : Hook, h'.disposed = true →
      h'.connect.disposed = true ∧ h'.connect.made = h'.made := fun h' hd' => by
    unfold connect
    rw [if_pos hd']
    exact ⟨hd', rfl⟩
  cases e with
  | received s frame =>
    cases frame with
    | pong =>
      simp only [Hook.step]
      split <;> exact ⟨hd, rfl⟩
    | malformed => exact ⟨hd, rfl⟩
    | data value => exact ⟨hd, rfl⟩
  | closed s onLine =>
    simp only [Hook.step]
    split
    · exact ⟨hd, rfl⟩
    · unfold onclose
      simp only [clearProbe, hd, if_true, and_self]
  | retryDue id =>
    simp only [Hook.step]
    split
    · exact hself _ hd
    · exact ⟨hd, rfl⟩
  | connectDue id =>
    simp only [Hook.step]
    split
    · split <;> exact ⟨hd, rfl⟩
    · exact ⟨hd, rfl⟩
  | opened s | closing s | probeDue id =>
    simp only [Hook.step]
    split <;> exact ⟨hd, rfl⟩
  | wake hidden sends | offline | nudge sends | unmount =>
    simp only [Hook.step, hd, Bool.true_or, if_true, and_self]

/-- **A handler leaves the page with a socket that is not closed for good.** -/
theorem Recovers.step (hs : h.Sane) (hd : h.disposed = false) (hr : h.Recovers) (e : Event δ) :
    (h.step e).disposed = true ∨ (h.step e).Recovers := by
  cases e with
  | opened s =>
    refine .inr ?_
    simp only [Hook.step]
    split
    · refine hr.congr rfl (fun t ht => ?_) rfl
      by_cases hts : t = s
      · subst hts
        simp [onopen]
      · simpa only [onopen, Function.update_of_ne hts] using ht
    · exact hr
  | received s frame =>
    refine .inr ?_
    cases frame with
    | pong =>
      simp only [Hook.step]
      split
      · exact hr.congr rfl (fun _ ht => ht) rfl
      · exact hr
    | malformed => exact hr
    | data value => exact hr
  | closing s =>
    refine .inr ?_
    simp only [Hook.step]
    split
    · exact hr.congr rfl (fun _ => shut_ne_closed _) rfl
    · exact hr
  | closed s onLine =>
    refine .inr ?_
    simp only [Hook.step]
    split
    · exact hr
    · -- the handler sets a timer
      obtain ⟨t, ht, _⟩ := hr
      unfold onclose
      simp only [clearProbe, hd, Bool.false_eq_true, if_false]
      exact ⟨t, ht, .inr ⟨_, _, Timers.pending_set_next ..⟩⟩
  | retryDue id =>
    refine .inr ?_
    simp only [Hook.step]
    split
    · exact ((hs.clearRetry (some id)).connect.2 hd).recovers
    · exact hr
  | connectDue id =>
    refine .inr ?_
    simp only [Hook.step]
    split
    · split
      · exact hr.congr rfl (fun _ => shut_ne_closed _) rfl
      · exact hr.congr rfl (fun _ ht => ht) rfl
    · exact hr
  | probeDue id =>
    refine .inr ?_
    simp only [Hook.step]
    split
    · exact hr.congr rfl (fun _ => shut_ne_closed _) rfl
    · exact hr
  | wake hidden sends =>
    refine .inr ?_
    simp only [Hook.step]
    split
    · exact hr
    · exact hr.check hs sends
  | offline =>
    refine .inr ?_
    simp only [Hook.step]
    split
    · exact hr
    · exact hr.congr rfl (fun _ => shut_ne_closed _) rfl
  | nudge sends =>
    refine .inr ?_
    simp only [Hook.step]
    split
    · exact hr
    · exact Recovers.check hs.reset (hr.congr rfl (fun _ ht => ht) rfl) sends
  | unmount =>
    refine .inl ?_
    simp only [Hook.step, hd, Bool.false_eq_true, if_false]
    rfl

theorem sane_run (events : List (Event δ)) : (run events).Sane :=
  Runs.foldl_inv Sane (fun _ e hs => hs.step e) events Sane.mount.1

theorem recovers_run (events : List (Event δ)) :
    (run events).disposed = true ∨ (run events).Recovers := by
  refine (Runs.foldl_inv (fun h : Hook => h.Sane ∧ (h.disposed = true ∨ h.Recovers)) (fun h e hinv => ?_)
    events ⟨Sane.mount.1, .inr Sane.mount.2.recovers⟩).2
  refine ⟨hinv.1.step e, ?_⟩
  rcases hinv.2 with hd | hr
  · exact .inl (step_of_disposed hd e).1
  · by_cases hd : h.disposed = true
    · exact .inl (step_of_disposed hd e).1
    · exact hr.step hinv.1 (by simpa using hd) e

/-- **In every run of the handlers, in any order**, one socket at most is connecting or open,
and it is the current one; as long as the page is there, the current socket is not closed
without a retry that is pending; every retry waits at least `BACKOFF_MIN_MS` and at most
`BACKOFF_MAX_MS`; a probe that gets no answer closes the socket it was sent on; `live` is told
of a socket that has opened and not closed only; and once the page is gone no socket connects
or is open, and none is made again. -/
theorem subscription_kept (events : List (Event δ)) :
    (∀ s, (run events).Live s → (run events).socketRef = some s) ∧
    ((run events).disposed = true ∨ (run events).Recovers) ∧
    (∀ id delay, (run events).retryTimers.pending id = some delay →
      backoffMinMs ≤ delay ∧ delay ≤ backoffMaxMs) ∧
    (∀ id s, (run events).probeTimers.pending id = some s → (run events).socketRef = some s) ∧
    ((run events).status = .live → (run events).disposed = false →
      ∃ s, (run events).socketRef = some s ∧
        ((run events).readyState s = .open ∨ (run events).readyState s = .closing)) ∧
    ((run events).disposed = true → ∀ later : List (Event δ),
      (run (events ++ later)).made = (run events).made ∧ ∀ s, ¬(run (events ++ later)).Live s) := by
  have hs := sane_run events
  refine ⟨hs.single, recovers_run events, hs.delays, fun id s hp => (hs.probes id s hp).2, hs.live,
    fun hd later => ?_⟩
  have hgone : (run (events ++ later)).disposed = true ∧ (run (events ++ later)).made = (run events).made := by
    unfold run
    rw [List.foldl_append]
    refine Runs.foldl_inv (fun h : Hook => h.disposed = true ∧ h.made = (events.foldl Hook.step mount).made)
      (fun h e hinv => ?_) later ⟨hd, rfl⟩
    have hstep := step_of_disposed hinv.1 e
    exact ⟨hstep.1, hstep.2.trans hinv.2⟩
  refine ⟨hgone.2, fun s hlive => ?_⟩
  have hsane := sane_run (events ++ later)
  have hcur := hsane.single s hlive
  rw [hsane.ended hgone.1] at hcur
  cases hcur

end Hook

end JaspyNexus.Webui

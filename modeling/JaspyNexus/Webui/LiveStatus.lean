import Mathlib
import JaspyNexus.Lib.Fair
import JaspyNexus.Webui.LiveSocket

/-! # What the live socket tells of itself

A socket that is replaced while it closes tells that it is closed later on, and its handler
then writes the status of its successor and clears the timer of its handshake. The status and
the timer are right as long as no successor that is connecting or open hears of it. Whatever
comes in which order, a browser that lets no timer and no closing socket wait for ever brings
the page back to a handshake. -/

namespace JaspyNexus.Webui
open JaspyNexus.Lib

namespace Hook
variable {h : Hook} {δ : Type}

/-- A socket that was replaced tells that it is closed while its successor is connecting or
open. -/
def Stale (h : Hook) : Event δ → Prop
  | .closed s _ => h.readyState s ≠ .closed ∧ h.socketRef ≠ some s ∧ h.Connected
  | _ => False

/-- An open socket is told to be live, and a handshake has its timer. -/
def Faithful (h : Hook) : Prop :=
  ∀ s, h.socketRef = some s →
    (h.readyState s = .open → h.status = .live) ∧
    (h.readyState s = .connecting →
      ∃ id, h.connectTimer = some id ∧ h.connectTimers.pending id = some s)

theorem faithful_of_not_connected (hn : ¬h.Connected) : h.Faithful := fun s hs =>
  ⟨fun ho => absurd ⟨s, hs, .inr ho⟩ hn, fun hc => absurd ⟨s, hs, .inl hc⟩ hn⟩

/-- Closing the current socket leaves nothing to tell. -/
theorem not_connected_shut : ¬({ h with readyState := shut h.readyState h.socketRef } : Hook).Connected := by
  rintro ⟨s, hs, hlive⟩
  exact (shut_live.mp hlive).2 hs.symm

theorem Faithful.congr {h' : Hook} (hf : h.Faithful) (hcur : h'.socketRef = h.socketRef)
    (hready : h'.readyState = h.readyState) (hstatus : h'.status = h.status)
    (htimer : h'.connectTimer = h.connectTimer) (htimers : h'.connectTimers = h.connectTimers) :
    h'.Faithful := by
  intro s hs
  rw [hready, hstatus, htimer, htimers]
  exact hf s (hcur ▸ hs)

theorem Faithful.connect (hf : h.Faithful) : h.connect.Faithful := by
  unfold Hook.connect
  split
  · exact hf
  split
  · exact hf
  intro s hs
  obtain rfl : h.made = s := Option.some.inj hs
  refine ⟨fun ho => ?_, fun _ => ⟨_, rfl, Timers.pending_set_next ..⟩⟩
  dsimp only [clearProbe] at ho
  rw [Function.update_self] at ho
  cases ho

theorem Faithful.checkConnection (hf : h.Faithful) (sends : Bool) :
    (h.checkConnection sends).Faithful := by
  rcases Sane.checkConnection_cases h sends with
    ⟨he, _⟩ | ⟨_, he⟩ | ⟨s, hcur, _, he⟩ | ⟨s, _, _, _, he⟩ <;> rw [he]
  · exact hf
  · exact Faithful.connect (hf.congr rfl rfl rfl rfl rfl)
  · refine faithful_of_not_connected ?_
    have hclosing : (({ h with backoffMs := backoffMinMs } : Hook).close s) =
        ({ h with backoffMs := backoffMinMs } : Hook).closeCurrent := by
      simp only [close, closeCurrent, hcur]
    rw [hclosing]
    exact not_connected_shut
  · exact hf.congr rfl rfl rfl rfl rfl

theorem onclose_eq (h : Hook) (s : Nat) (onLine : Bool) :
    (h.onclose s onLine).socketRef = h.socketRef ∧
    (h.onclose s onLine).readyState = Function.update h.readyState s .closed ∧
    (h.onclose s onLine).status ≠ .live ∧
    (h.onclose s onLine).connectTimer = h.connectTimer ∧
    (h.onclose s onLine).connectTimers = h.connectTimers.clear h.connectTimer := by
  have hstatus : (if onLine then LiveStatus.connecting else .down) ≠ .live := by
    cases onLine <;> decide
  unfold onclose
  dsimp only [clearProbe]
  split <;> exact ⟨rfl, rfl, hstatus, rfl, rfl⟩

/-- The handler of a close leaves the page faithful exactly when it is not stale. -/
theorem faithful_onclose_iff (h : Hook) (s : Nat) (onLine : Bool) :
    (h.onclose s onLine).Faithful ↔ ¬(h.socketRef ≠ some s ∧ h.Connected) := by
  obtain ⟨hcur, hready, hstatus, htimer, htimers⟩ := onclose_eq h s onLine
  constructor
  · rintro hf ⟨hne, t, ht, hlive⟩
    have hts : t ≠ s := fun hts => hne (hts ▸ ht)
    obtain ⟨hopen, hconnecting⟩ := hf t (hcur.trans ht)
    rw [hready, Function.update_of_ne hts] at hopen hconnecting
    rcases hlive with hl | hl
    · -- the timer of its handshake is gone
      obtain ⟨id, href, hpending⟩ := hconnecting hl
      rw [htimers, ← htimer, href, Timers.pending_clear, if_pos rfl] at hpending
      cases hpending
    · exact hstatus (hopen hl)
  · intro hno
    refine faithful_of_not_connected fun ⟨t, ht, hlive⟩ => ?_
    rw [hcur] at ht
    by_cases hts : t = s
    · subst hts
      rw [Live, hready, Function.update_self] at hlive
      rcases hlive with hl | hl <;> cases hl
    · rw [Live, hready, Function.update_of_ne hts] at hlive
      exact hno ⟨fun hs => hts (Option.some.inj (ht.symm.trans hs)), t, ht, hlive⟩

theorem faithful_step_iff (hs : h.Sane) (hf : h.Faithful) (e : Event δ) :
    (h.step e).Faithful ↔ ¬h.Stale e := by
  have hkeep : ∀ {h' : Hook}, h'.Faithful → (h'.Faithful ↔ ¬False) := fun hf' => by simpa using hf'
  cases e with
  | opened s =>
    refine hkeep ?_
    simp only [step]
    split
    · next hready =>
      have hcur := hs.single s (.inl hready)
      intro t ht
      obtain rfl : s = t := Option.some.inj (hcur.symm.trans ht)
      refine ⟨fun _ => rfl, fun hc => ?_⟩
      simp only [onopen, Function.update_self] at hc
      cases hc
    · exact hf
  | received s frame =>
    refine hkeep ?_
    cases frame with
    | pong =>
      simp only [step]
      split
      · exact hf.congr rfl rfl rfl rfl rfl
      · exact hf
    | malformed => exact hf
    | data value => exact hf
  | closing s =>
    refine hkeep ?_
    simp only [step]
    split
    · next hready =>
      have hclosing : h.close s = h.closeCurrent := by
        simp only [close, closeCurrent, hs.single s (.inr hready)]
      rw [hclosing]
      exact faithful_of_not_connected not_connected_shut
    · exact hf
  | closed s onLine =>
    simp only [step, Stale]
    split
    · next hclosed => simp [hclosed, hf]
    · next hready => simp [hready, faithful_onclose_iff]
  | retryDue id =>
    refine hkeep ?_
    simp only [step]
    split
    · exact Faithful.connect (hf.congr rfl rfl rfl rfl rfl)
    · exact hf
  | connectDue id =>
    refine hkeep ?_
    simp only [step]
    split
    · next s hp =>
      split
      · next hready =>
        have hcur := hs.single s (.inl hready)
        refine faithful_of_not_connected fun hconnected => ?_
        obtain ⟨t, ht, hlive⟩ := hconnected
        exact (shut_live.mp hlive).2 (ht.symm.trans hcur)
      · next hready =>
        -- the timer of another handshake stays
        intro t ht
        refine ⟨(hf t ht).1, fun hc => ?_⟩
        obtain ⟨i, href, hi⟩ := (hf t ht).2 hc
        refine ⟨i, href, ?_⟩
        have hne : some i ≠ some id := fun hii => by
          cases hii
          rw [hp] at hi
          cases hi
          exact hready hc
        rw [Timers.pending_clear, if_neg hne, hi]
    · exact hf
  | probeDue id =>
    refine hkeep ?_
    simp only [step]
    split
    · exact faithful_of_not_connected not_connected_shut
    · exact hf
  | wake hidden sends =>
    refine hkeep ?_
    simp only [step]
    split
    · exact hf
    · exact hf.checkConnection sends
  | offline =>
    refine hkeep ?_
    simp only [step]
    split
    · exact hf
    · exact faithful_of_not_connected not_connected_shut
  | nudge sends =>
    refine hkeep ?_
    simp only [step]
    split
    · exact hf
    · have hf' : ({ h with backoffMs := backoffMinMs } : Hook).Faithful := hf.congr rfl rfl rfl rfl rfl
      exact hf'.checkConnection sends
  | unmount =>
    refine hkeep ?_
    simp only [step]
    split
    · exact hf
    · exact fun s hc => by cases hc

/-- **The status of an open socket is `live`, and every handshake has its timer, throughout a
run exactly when no socket that was replaced tells that it is closed while its successor is
connecting or open.** -/
theorem faithful_run_iff (events : List (Event δ)) :
    (∀ pre, pre <+: events → (run pre).Faithful) ↔
      Runs.Allowed step (fun h e => ¬h.Stale e) mount events := by
  have hmount : mount.Faithful := Faithful.connect fun s hs => by cases hs
  exact (Runs.allowed_iff Faithful Sane (fun _ e hs => hs.step e)
    (fun _ e hs hf => faithful_step_iff hs hf e) Sane.mount.1 hmount).symm

/-- The network goes away and comes back before the old socket is closed: the page is told to
be connecting while it streams. -/
example : (run (δ := Unit)
      [.opened 0, .offline, .wake false true, .opened 1, .closed 0 true]).status = .connecting ∧
    (run (δ := Unit) [.opened 0, .offline, .wake false true, .opened 1, .closed 0 true]).current =
      some .open := by decide

/-! ## Back to a handshake -/

theorem connect_keeps (h : Hook) : h.connect.Connected ∨
    h.connect.socketRef = h.socketRef ∧ h.connect.retryTimers = h.retryTimers := by
  by_cases hd : h.disposed = true
  · unfold connect
    rw [if_pos hd]
    exact .inr ⟨rfl, rfl⟩
  · by_cases hconn : h.Connected
    · unfold connect
      rw [if_neg hd, if_pos (connected_iff.mp hconn)]
      exact .inl hconn
    · unfold connect
      rw [if_neg hd, if_neg fun hc => hconn (connected_iff.mpr hc)]
      exact .inl ⟨h.made, rfl, .inl (Function.update_self ..)⟩

theorem checkConnection_keeps (h : Hook) (sends : Bool) : (h.checkConnection sends).Connected ∨
    (h.checkConnection sends).socketRef = h.socketRef ∧
      (h.checkConnection sends).retryTimers = h.retryTimers := by
  rcases Sane.checkConnection_cases h sends with
    ⟨he, _⟩ | ⟨_, he⟩ | ⟨s, _, _, he⟩ | ⟨s, _, _, _, he⟩ <;> rw [he]
  · exact .inr ⟨rfl, rfl⟩
  · exact connect_keeps { h with backoffMs := backoffMinMs }
  · exact .inr ⟨rfl, rfl⟩
  · exact .inr ⟨rfl, rfl⟩

/-- A handler that does not connect keeps the current socket, and every retry that is
pending. -/
theorem step_keeps (hs : h.Sane) (hd : h.disposed = false) {e : Event δ} (he : e ≠ .unmount) :
    (h.step e).disposed = false ∧ ((h.step e).Connected ∨
      (h.step e).socketRef = h.socketRef ∧
        ∀ id, (h.retryTimers.pending id).isSome → ((h.step e).retryTimers.pending id).isSome) := by
  cases e with
  | retryDue id =>
    simp only [step]
    split
    · exact ⟨(disposed_connect _).trans hd, .inl ((hs.clearRetry (some id)).connect.2 hd)⟩
    · exact ⟨hd, .inr ⟨rfl, fun _ hp => hp⟩⟩
  | closed s onLine =>
    simp only [step]
    split
    · exact ⟨hd, .inr ⟨rfl, fun _ hp => hp⟩⟩
    · unfold onclose
      simp only [clearProbe, hd, Bool.false_eq_true, if_false]
      refine ⟨trivial, .inr ⟨trivial, fun id hp => ?_⟩⟩
      rw [Timers.pending_set]
      split
      · rfl
      · exact hp
  | wake hidden sends =>
    simp only [step]
    split
    · exact ⟨hd, .inr ⟨rfl, fun _ hp => hp⟩⟩
    · refine ⟨(disposed_checkConnection h sends).trans hd, (checkConnection_keeps h sends).imp_right ?_⟩
      rintro ⟨hcur, htimers⟩
      exact ⟨hcur, fun id hp => by rwa [htimers]⟩
  | nudge sends =>
    simp only [step]
    split
    · exact ⟨hd, .inr ⟨rfl, fun _ hp => hp⟩⟩
    · refine ⟨(disposed_checkConnection _ sends).trans hd,
        (checkConnection_keeps { h with backoffMs := backoffMinMs } sends).imp_right ?_⟩
      rintro ⟨hcur, htimers⟩
      exact ⟨hcur, fun id hp => by rwa [htimers]⟩
  | received s frame =>
    cases frame with
    | pong =>
      simp only [step]
      split <;> exact ⟨hd, .inr ⟨rfl, fun _ hp => hp⟩⟩
    | malformed => exact ⟨hd, .inr ⟨rfl, fun _ hp => hp⟩⟩
    | data value => exact ⟨hd, .inr ⟨rfl, fun _ hp => hp⟩⟩
  | connectDue id =>
    simp only [step]
    split
    · split <;> exact ⟨hd, .inr ⟨rfl, fun _ hp => hp⟩⟩
    · exact ⟨hd, .inr ⟨rfl, fun _ hp => hp⟩⟩
  | opened s | closing s | probeDue id | offline =>
    simp only [step]
    split <;> exact ⟨hd, .inr ⟨rfl, fun _ hp => hp⟩⟩
  | unmount => exact absurd rfl he

/-- A browser that keeps the page: a socket that is closing tells so in the end, and a retry
that is pending comes due, unless it is cleared. -/
structure FairBrowser (schedule : ℕ → Event δ) : Prop where
  mounted : ∀ n, schedule n ≠ .unmount
  closes : ∀ n s, (Fair.after step mount schedule n).readyState s = .closing →
    ∃ m ≥ n, (Fair.after step mount schedule m).readyState s = .closed
  retries : ∀ n id, ((Fair.after step mount schedule n).retryTimers.pending id).isSome →
    ∃ m ≥ n, (Fair.after step mount schedule m).retryTimers.pending id = none

/-- **In a fair browser the page comes back to a socket that is connecting or open, again and
again.** -/
theorem reconnects {schedule : ℕ → Event δ} (hfair : FairBrowser schedule) :
    ∀ n, ∃ m ≥ n, (Fair.after step mount schedule m).Connected := by
  intro n
  by_contra hnever
  push Not at hnever
  have hsane : ∀ m, (Fair.after step mount schedule m).Sane := fun m => sane_run _
  have hmounted : ∀ m, (Fair.after step mount schedule m).disposed = false := by
    intro m
    induction m with
    | zero => rfl
    | succ m ih =>
      rw [Fair.after_succ]
      exact (step_keeps (hsane m) ih (hfair.mounted m)).1
  have hrecovers : ∀ m, (Fair.after step mount schedule m).Recovers := fun m =>
    (recovers_run ((List.range m).map schedule)).resolve_left fun hd => by
      have hnd := hmounted m
      rw [Fair.after, ← run, hd] at hnd
      cases hnd
  -- without a connect the current socket and the retries stay
  have hstep : ∀ m ≥ n, _ := fun m hm =>
    (step_keeps (hsane m) (hmounted m) (hfair.mounted m)).2.resolve_left fun hconn =>
      hnever (m + 1) (by omega) (by rwa [Fair.after_succ])
  obtain ⟨s, hs, -⟩ := hrecovers n
  have hcur : ∀ m ≥ n, (Fair.after step mount schedule m).socketRef = some s := by
    intro m hm
    induction m, hm using Nat.le_induction with
    | base => exact hs
    | succ m hm ih =>
      rw [Fair.after_succ]
      exact (hstep m hm).1.trans ih
  obtain ⟨m, hm, hclosed⟩ : ∃ m ≥ n, (Fair.after step mount schedule m).readyState s = .closed := by
    cases hready : (Fair.after step mount schedule n).readyState s with
    | connecting => exact absurd ⟨s, hs, .inl hready⟩ (hnever n le_rfl)
    | «open» => exact absurd ⟨s, hs, .inr hready⟩ (hnever n le_rfl)
    | closing => exact hfair.closes n s hready
    | closed => exact ⟨n, le_rfl, hready⟩
  obtain ⟨t, ht, hr⟩ := hrecovers m
  obtain rfl : s = t := Option.some.inj ((hcur m hm).symm.trans ht)
  obtain ⟨id, delay, hp⟩ := hr.resolve_left fun hne => hne hclosed
  obtain ⟨k, hk, hgone⟩ := hfair.retries m id (by rw [hp]; rfl)
  have hstays : ∀ k ≥ m, ((Fair.after step mount schedule k).retryTimers.pending id).isSome := by
    intro k hk
    induction k, hk using Nat.le_induction with
    | base => rw [hp]; rfl
    | succ k hk ih =>
      rw [Fair.after_succ]
      exact (hstep k (hm.trans hk)).2 id ih
  have hsome := hstays k hk
  rw [hgone] at hsome
  cases hsome

/-- The first socket is dropped, the retry comes due, and nothing happens after. -/
def dropOnce : ℕ → Event Unit
  | 0 => .closed 0 true
  | 1 => .retryDue 0
  | _ + 2 => .received 0 .malformed

theorem dropOnce_fair : FairBrowser dropOnce := by
  have hrest : ∀ n, Fair.after step mount dropOnce (n + 2) = Fair.after step mount dropOnce 2 := by
    intro n
    induction n with
    | zero => rfl
    | succ n ih =>
      rw [Fair.after_succ, ih]
      rfl
  have hclosing : ∀ n s, (Fair.after step mount dropOnce n).readyState s ≠ .closing := by
    intro n s
    rcases n with _ | _ | n
    · cases s <;> exact ReadyState.noConfusion
    · cases s <;> exact ReadyState.noConfusion
    · rw [hrest]
      rcases s with _ | _ | s <;> exact ReadyState.noConfusion
  refine ⟨fun n => ?_, fun n s hs => absurd hs (hclosing n s), fun n id hp => ?_⟩
  · rcases n with _ | _ | n <;> simp [dropOnce]
  · rcases n with _ | _ | n
    · cases hp
    · cases id with
      | zero => exact ⟨2, by omega, rfl⟩
      | succ id => cases hp
    · refine ⟨n + 2, le_rfl, ?_⟩
      rw [hrest]
      cases id <;> rfl

theorem reconnects_dropOnce : ∃ m ≥ 1, (Fair.after step mount dropOnce m).Connected :=
  reconnects dropOnce_fair 1

end Hook

end JaspyNexus.Webui

import Mathlib

/-! # Broadcast channels

A channel hands every value it is sent to each of its receivers, who read at their own pace.
What one does inside is a parameter (`Broadcast`); what is relied on is what its receivers are
told (`Delivers`): the values sent since they subscribed, in order, unless one is told that it
lags. A ring of the last values is one (`ring_delivers`). -/

namespace JaspyNexus.Lib

/-- What a receiver is told when it asks for the next value. -/
inductive Received (α : Type) where
  | value (a : α)
  | lagged
  | empty
  deriving DecidableEq, Repr

/-- A kind of channel. Only `send` changes what the receivers of a channel can be told. -/
structure Broadcast (α : Type) where
  Channel : Type
  Receiver : Type
  channel : Nat → Channel
  send : Channel → α → Channel
  subscribe : Channel → Receiver
  recv : Channel → Receiver → Receiver × Received α

namespace Broadcast
variable {α : Type}

section
variable (b : Broadcast α) (capacity : Nat)

/-- A channel of that capacity, after some sends. -/
inductive Made : b.Channel → Prop where
  | channel : Made (b.channel capacity)
  | send {c : b.Channel} (h : Made c) (a : α) : Made (b.send c a)

/-- A receiver that was never told that it lags, with what its channel was sent since it
subscribed and what it has been told of that. -/
inductive Follows : b.Channel → b.Receiver → List α → List α → Prop where
  | subscribe {c : b.Channel} (h : b.Made capacity c) : Follows c (b.subscribe c) [] []
  | send {c : b.Channel} {r : b.Receiver} {sent got : List α} (h : Follows c r sent got) (a : α) :
      Follows (b.send c a) r (sent ++ [a]) got
  | value {c : b.Channel} {r r' : b.Receiver} {sent got : List α} {a : α} (h : Follows c r sent got)
      (hrecv : b.recv c r = (r', .value a)) : Follows c r' sent (got ++ [a])
  | empty {c : b.Channel} {r r' : b.Receiver} {sent got : List α} (h : Follows c r sent got)
      (hrecv : b.recv c r = (r', .empty)) : Follows c r' sent got

/-- **Delivery**: a receiver that does not lag is told the next of what was sent since it
subscribed, and nothing only when it was told all. -/
structure Delivers : Prop where
  value : ∀ {c : b.Channel} {r r' : b.Receiver} {sent got : List α} {a : α}, b.Follows capacity c r sent got →
    b.recv c r = (r', .value a) → sent[got.length]? = some a
  empty : ∀ {c : b.Channel} {r r' : b.Receiver} {sent got : List α}, b.Follows capacity c r sent got →
    b.recv c r = (r', .empty) → got.length = sent.length

end

section
variable {b : Broadcast α} {capacity : Nat} {c : b.Channel} {r : b.Receiver} {sent got : List α}

/-- **What a receiver was told is the beginning of what was sent.** -/
theorem Follows.got_prefix (hb : b.Delivers capacity) (h : b.Follows capacity c r sent got) : got <+: sent := by
  induction h with
  | subscribe => exact List.prefix_rfl
  | send h a ih => exact ih.trans (List.prefix_append _ _)
  | @value c r r' sent got a h hrecv ih =>
    obtain ⟨rest, rfl⟩ := ih
    have hnext := hb.value h hrecv
    rw [List.getElem?_append_right le_rfl, Nat.sub_self] at hnext
    cases rest with
    | nil => cases hnext
    | cons a' rest =>
      obtain rfl : a' = a := Option.some.inj hnext
      exact ⟨rest, by simp⟩
  | empty h hrecv ih => exact ih

end

/-! ## A ring -/

/-- The last `n` of a list. -/
def keepLast (n : Nat) (l : List α) : List α := l.drop (l.length - n)

@[simp] theorem keepLast_nil (n : Nat) : keepLast n ([] : List α) = [] := by
  simp [keepLast]

/-- Dropping early what would be dropped later makes no difference. -/
theorem keepLast_concat (n : Nat) (l : List α) (a : α) :
    keepLast n (keepLast n l ++ [a]) = keepLast n (l ++ [a]) := by
  have hdrop : (l ++ [a]).drop (l.length - n) = l.drop (l.length - n) ++ [a] :=
    List.drop_append_of_le_length (Nat.sub_le l.length n)
  unfold keepLast
  rw [← hdrop, List.drop_drop, List.length_drop, List.length_append, List.length_singleton]
  congr 1
  omega

theorem length_keepLast (n : Nat) (l : List α) : (keepLast n l).length = min n l.length := by
  rw [keepLast, List.length_drop]
  omega

/-- The values still there, oldest first, and how many were ever sent. -/
structure Ring (α : Type) where
  capacity : Nat
  buffer : List α
  sent : Nat

/-- The number of the oldest value still there. -/
def Ring.oldest (c : Ring α) : Nat := c.sent - c.buffer.length

/-- A receiver is the number of the value that it reads next; one that falls behind what is kept
skips to the oldest value there is. -/
def ring (α : Type) : Broadcast α where
  Channel := Ring α
  Receiver := Nat
  channel capacity := ⟨capacity, [], 0⟩
  send c a := { c with buffer := keepLast c.capacity (c.buffer ++ [a]), sent := c.sent + 1 }
  subscribe c := c.sent
  recv c next :=
    if next < c.oldest then (c.oldest, .lagged)
    else match c.buffer[next - c.oldest]? with
      | some a => (next + 1, .value a)
      | none => (next, .empty)

section
variable {capacity : Nat}

/-- The ring was sent the values of the log. -/
structure Ring.Holds (capacity : Nat) (c : Ring α) (log : List α) : Prop where
  room : c.capacity = capacity
  buffer : c.buffer = keepLast capacity log
  sent : c.sent = log.length

/-- The receiver has read the log from its subscription on. -/
structure Ring.Reads (capacity : Nat) (c : Ring α) (next : Nat) (sent got log : List α) (since : Nat) : Prop where
  holds : c.Holds capacity log
  started : since ≤ log.length
  sent : sent = log.drop since
  place : next = since + got.length
  bound : next ≤ log.length

theorem Ring.Holds.oldest {c : Ring α} {log : List α} (h : c.Holds capacity log) :
    c.oldest = log.length - capacity := by
  rw [Ring.oldest, h.sent, h.buffer, length_keepLast]
  omega

theorem Ring.Holds.send {c : Ring α} {log : List α} (h : c.Holds capacity log) (a : α) :
    Ring.Holds capacity ((ring α).send c a) (log ++ [a]) where
  room := h.room
  buffer := by
    dsimp only [ring]
    rw [h.room, h.buffer]
    exact keepLast_concat capacity log a
  sent := by
    dsimp only [ring]
    rw [h.sent, List.length_append, List.length_singleton]

theorem ring_made {c : (ring α).Channel} (h : (ring α).Made capacity c) : ∃ log, Ring.Holds capacity c log := by
  induction h with
  | channel => exact ⟨[], rfl, (keepLast_nil _).symm, rfl⟩
  | send h a ih =>
    obtain ⟨log, hlog⟩ := ih
    exact ⟨log ++ [a], hlog.send a⟩

/-- What is read is at the receiver's place in the log. -/
theorem Ring.Holds.recv {c : Ring α} {log : List α} (h : c.Holds capacity log) {next next' : Nat}
    {received : Received α} (hnext : next ≤ log.length) (hrecv : (ring α).recv c next = (next', received)) :
    (∀ a, received = .value a → log[next]? = some a ∧ next' = next + 1) ∧
      (received = .empty → next = log.length ∧ next' = next) := by
  have holdest := h.oldest
  dsimp only [ring] at hrecv
  split at hrecv
  · obtain ⟨-, rfl⟩ := Prod.mk.inj hrecv
    exact ⟨(fun a ha => by cases ha), (fun he => by cases he)⟩
  · have hplace : c.buffer[next - c.oldest]? = log[next]? := by
      rw [h.buffer, keepLast, List.getElem?_drop, holdest]
      congr 1
      omega
    rw [hplace] at hrecv
    split at hrecv
    · next a ha =>
      obtain ⟨rfl, rfl⟩ := Prod.mk.inj hrecv
      refine ⟨fun a' ha' => ?_, fun he => by cases he⟩
      cases ha'
      exact ⟨ha, rfl⟩
    · next hnone =>
      obtain ⟨rfl, rfl⟩ := Prod.mk.inj hrecv
      exact ⟨(fun a ha => by cases ha), fun _ => ⟨le_antisymm hnext (List.getElem?_eq_none_iff.mp hnone), rfl⟩⟩

theorem ring_follows {c : (ring α).Channel} {next : (ring α).Receiver} {sent got : List α}
    (h : (ring α).Follows capacity c next sent got) : ∃ log since, Ring.Reads capacity c next sent got log since := by
  induction h with
  | subscribe h =>
    obtain ⟨log, hlog⟩ := ring_made h
    exact ⟨log, log.length, hlog, le_rfl, by simp, hlog.sent, hlog.sent.le⟩
  | send h a ih =>
    obtain ⟨log, since, hreads⟩ := ih
    have hbound := hreads.bound
    have hstarted := hreads.started
    have hsent := hreads.sent
    refine ⟨log ++ [a], since, hreads.holds.send a, ?_, ?_, hreads.place, ?_⟩
    · rw [List.length_append]
      omega
    · rw [hsent, List.drop_append_of_le_length hstarted]
    · rw [List.length_append]
      omega
  | @value c r r' sent got a h hrecv ih =>
    obtain ⟨log, since, hreads⟩ := ih
    obtain ⟨hplace, hnext⟩ := (hreads.holds.recv hreads.bound hrecv).1 a rfl
    have hlt := (List.getElem?_eq_some_iff.mp hplace).1
    refine ⟨log, since, hreads.holds, hreads.started, hreads.sent, ?_, ?_⟩
    · rw [hnext, hreads.place, List.length_append, List.length_singleton, Nat.add_assoc]
    · rw [hnext]
      exact hlt
  | @empty c r r' sent got h hrecv ih =>
    obtain ⟨log, since, hreads⟩ := ih
    obtain ⟨-, hnext⟩ := (hreads.holds.recv hreads.bound hrecv).2 rfl
    refine ⟨log, since, hreads.holds, hreads.started, hreads.sent, ?_, ?_⟩
    · rw [hnext, hreads.place]
    · rw [hnext]
      exact hreads.bound

theorem ring_delivers (capacity : Nat) : (ring α).Delivers capacity where
  value h hrecv := by
    obtain ⟨log, since, hreads⟩ := ring_follows h
    have hplace := ((hreads.holds.recv hreads.bound hrecv).1 _ rfl).1
    rw [hreads.sent, List.getElem?_drop, ← hreads.place]
    exact hplace
  empty h hrecv := by
    obtain ⟨log, since, hreads⟩ := ring_follows h
    have hall := ((hreads.holds.recv hreads.bound hrecv).2 rfl).1
    have hplace := hreads.place
    rw [hreads.sent, List.length_drop]
    omega

end

end Broadcast
end JaspyNexus.Lib

import Mathlib
import JaspyNexus.Lib.PMap

/-! # Maps that keep the first

A loop that reads rows and inserts what some of them say, unless the key is there already,
leaves under each key what the first row about it said. -/

namespace JaspyNexus.Lib

universe u v w
variable {ρ : Type u} {κ : Type v} {υ : Type w} [DecidableEq κ]

/-- `if !contains_key(k) { insert(k, v) }` -/
def PMap.insertNew (m : PMap κ υ) (k : κ) (v : υ) : PMap κ υ :=
  if (m k).isSome then m else m.insert k v

theorem PMap.insertNew_apply (m : PMap κ υ) (k k' : κ) (v : υ) :
    m.insertNew k v k' = (m k').or (if k = k' then some v else none) := by
  unfold PMap.insertNew
  by_cases hk : k = k'
  · subst hk
    cases hm : m k <;> simp [hm]
  · cases hm : (m k).isSome <;> simp [hk, PMap.insert_of_ne _ _ (Ne.symm hk)]

/-- Insert what the rows say of keys that are new, in order. -/
def writeNew (say : ρ → Option (κ × υ)) (rows : List ρ) (m : PMap κ υ) : PMap κ υ :=
  rows.foldl (fun m row => match say row with
    | some e => m.insertNew e.1 e.2
    | none => m) m

/-- What a row says about a key. -/
def told (say : ρ → Option (κ × υ)) (k : κ) (row : ρ) : Option υ :=
  (say row).bind fun e => if e.1 = k then some e.2 else none

variable {say : ρ → Option (κ × υ)} {k : κ} {row : ρ} {v : υ}

theorem told_of_say (h : say row = some (k, v)) : told say k row = some v := by
  simp [told, h]

theorem told_eq_none_iff : told say k row = none ↔ ∀ e, say row = some e → e.1 ≠ k := by
  unfold told
  cases say row with
  | none => simp
  | some e => simp

/-- **The first word counts.** -/
theorem writeNew_apply (say : ρ → Option (κ × υ)) (rows : List ρ) (m : PMap κ υ) (k : κ) :
    writeNew say rows m k = (m k).or (rows.findSome? (told say k)) := by
  induction rows generalizing m with
  | nil => simp [writeNew]
  | cons row rest ih =>
    unfold writeNew at ih ⊢
    rw [List.foldl_cons, ih, List.findSome?_cons]
    cases hs : say row with
    | none => simp [told, hs]
    | some e =>
      dsimp only
      rw [PMap.insertNew_apply]
      by_cases hk : e.1 = k
      · simp [told, hs, hk]
      · simp [told, hs, hk]

end JaspyNexus.Lib

import Mathlib

/-! # Digits, most significant first

The number that digits write is `Nat.ofDigits` of the digits read backwards. Of two
numbers with as many digits, the smaller is the one whose digits come first in
lexicographic order, whatever characters stand for the digits. -/

namespace JaspyNexus.Lib.Radix

def value (base : Nat) (digits : List Nat) : Nat := Nat.ofDigits base digits.reverse

def Below (base : Nat) (digits : List Nat) : Prop := ∀ d ∈ digits, d < base

variable {base : Nat}

@[simp] theorem value_nil : value base [] = 0 := rfl

theorem value_cons (d : Nat) (rest : List Nat) :
    value base (d :: rest) = d * base ^ rest.length + value base rest := by
  unfold value
  rw [List.reverse_cons, Nat.ofDigits_append, Nat.ofDigits_singleton, List.length_reverse]
  ring

theorem value_lt_pow (hbase : 1 < base) {digits : List Nat} (h : Below base digits) :
    value base digits < base ^ digits.length := by
  have hlt := Nat.ofDigits_lt_base_pow_length hbase (l := digits.reverse)
    fun d hd => h d (List.mem_reverse.mp hd)
  rwa [List.length_reverse] at hlt

theorem Below.tail {d : Nat} {rest : List Nat} (h : Below base (d :: rest)) : Below base rest :=
  fun e he => h e (List.mem_cons_of_mem d he)

/-- The leading digit decides, and on a tie what follows it. -/
theorem lead_lt_iff {p x y u v : Nat} (hu : u < p) (hv : v < p) :
    x * p + u < y * p + v ↔ x < y ∨ x = y ∧ u < v := by
  rcases Nat.lt_trichotomy x y with hlt | rfl | hgt
  · have hmul := Nat.mul_le_mul_right p (Nat.succ_le_of_lt hlt)
    rw [Nat.succ_mul] at hmul
    exact iff_of_true (by omega) (.inl hlt)
  · simp
  · have hmul := Nat.mul_le_mul_right p (Nat.succ_le_of_lt hgt)
    rw [Nat.succ_mul] at hmul
    exact iff_of_false (by omega) (by omega)

/-- **Numeric order is lexicographic order**, of as many digits. -/
theorem value_lt_iff (hbase : 1 < base) {xs ys : List Nat} (hlen : xs.length = ys.length)
    (hxs : Below base xs) (hys : Below base ys) : value base xs < value base ys ↔ xs < ys := by
  induction xs generalizing ys with
  | nil =>
    cases ys with
    | nil => simp
    | cons y ys => cases hlen
  | cons x xs ih =>
    cases ys with
    | nil => cases hlen
    | cons y ys =>
      have hlen' : xs.length = ys.length := Nat.succ.inj hlen
      have hu := value_lt_pow hbase hxs.tail
      have hv := value_lt_pow hbase hys.tail
      rw [← hlen'] at hv
      rw [value_cons, value_cons, ← hlen', lead_lt_iff hu hv, ih hlen' hxs.tail hys.tail,
        List.cons_lt_cons_iff]

theorem value_inj (hbase : 1 < base) {xs ys : List Nat} (hlen : xs.length = ys.length)
    (hxs : Below base xs) (hys : Below base ys) (h : value base xs = value base ys) : xs = ys := by
  have hrev : xs.reverse = ys.reverse :=
    Nat.ofDigits_inj_of_len_eq hbase (by simpa using hlen)
      (fun d hd => hxs d (List.mem_reverse.mp hd)) (fun d hd => hys d (List.mem_reverse.mp hd)) h
  exact List.reverse_injective hrev

/-! ## Two digits for one -/

/-- Each digit of the square base as two of the base. -/
def split (base : Nat) (digits : List Nat) : List Nat :=
  digits.flatMap fun d => [d / base, d % base]

@[simp] theorem split_cons (d : Nat) (rest : List Nat) :
    split base (d :: rest) = d / base :: d % base :: split base rest := rfl

@[simp] theorem length_split (digits : List Nat) : (split base digits).length = 2 * digits.length := by
  induction digits with
  | nil => rfl
  | cons d rest ih => rw [split_cons, List.length_cons, List.length_cons, List.length_cons, ih]; omega

theorem value_split (digits : List Nat) : value base (split base digits) = value (base * base) digits := by
  induction digits with
  | nil => rfl
  | cons d rest ih =>
    rw [split_cons, value_cons, value_cons, value_cons, ih, List.length_cons, length_split,
      ← Nat.add_assoc]
    congr 1
    calc d / base * base ^ (2 * rest.length + 1) + d % base * base ^ (2 * rest.length)
        = (base * (d / base) + d % base) * (base * base) ^ rest.length := by
          rw [pow_succ, pow_mul, sq]; ring
      _ = d * (base * base) ^ rest.length := by rw [Nat.div_add_mod]

theorem below_split {digits : List Nat} (h : Below (base * base) digits) : Below base (split base digits) := by
  intro e he
  obtain ⟨d, hd, he⟩ := List.mem_flatMap.mp he
  have hlt := h d hd
  have hpos : 0 < base := Nat.pos_of_mul_pos_right (Nat.zero_lt_of_lt hlt)
  rcases List.mem_pair.mp he with rfl | rfl
  · exact Nat.div_lt_of_lt_mul hlt
  · exact Nat.mod_lt d hpos

/-! ## Characters for digits -/

/-- A writing of digits that keeps their order keeps the lexicographic order. -/
theorem map_lt_map_iff {α : Type} [LinearOrder α] {f : Nat → α} {xs ys : List Nat}
    (hf : ∀ d < base, ∀ e < base, d < e → f d < f e) (hxs : Below base xs) (hys : Below base ys) :
    xs.map f < ys.map f ↔ xs < ys := by
  induction xs generalizing ys with
  | nil => cases ys <;> simp
  | cons x xs ih =>
    cases ys with
    | nil => simp
    | cons y ys =>
      have hx := hxs x List.mem_cons_self
      have hy := hys y List.mem_cons_self
      rw [List.map_cons, List.map_cons, List.cons_lt_cons_iff, List.cons_lt_cons_iff,
        ih hxs.tail hys.tail]
      rcases Nat.lt_trichotomy x y with hlt | rfl | hgt
      · exact iff_of_true (.inl (hf x hx y hy hlt)) (.inl hlt)
      · simp
      · have hfgt := hf y hy x hx hgt
        refine iff_of_false (fun h => ?_) (by omega)
        rcases h with h | ⟨h, -⟩
        · exact lt_asymm h hfgt
        · exact hfgt.ne' h

end JaspyNexus.Lib.Radix

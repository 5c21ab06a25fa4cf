import Mathlib.Algebra.Order.Ring.Rat
import Mathlib.Order.Interval.Set.UnorderedInterval
import Mathlib.Tactic.Linarith
import Mathlib.Tactic.Ring
import SyncCore.Thread.Priority

/-!
# Levels in the range of a backend

The two ends of a backend's range may be any words, and either end may be the
greater one. No step of the 64-bit arithmetic that spreads the levels over
the range leaves its word, so the levels lie where they would lie in whole
numbers: between the two ends and in their order.
-/

set_option autoImplicit false

namespace SyncCore

/-! ## Checked arithmetic -/

namespace Checked

/-- The result of an operation on words, if it is the exact one. -/
def word? (r : Int64) (n : Int) : Option Int64 := if r.toInt = n then some r else none

def add? (a b : Int64) : Option Int64 := word? (a + b) (a.toInt + b.toInt)
def sub? (a b : Int64) : Option Int64 := word? (a - b) (a.toInt - b.toInt)
def mul? (a b : Int64) : Option Int64 := word? (a * b) (a.toInt * b.toInt)
def div? (a b : Int64) : Option Int64 := word? (a / b) (a.toInt.tdiv b.toInt)

variable {a b : Int64}

theorem word_eq {r : Int64} {n : Int} (h : r.toInt = n) : word? r n = some r := if_pos h

/-- A number that fits a word is its own remainder. -/
theorem bmod_word {n : Int} (hl : -2 ^ 63 ≤ n) (hu : n < 2 ^ 63) : n.bmod (2 ^ 64) = n := by
  apply Int.bmod_eq_of_le <;> omega

theorem toInt_add (hl : -2 ^ 63 ≤ a.toInt + b.toInt) (hu : a.toInt + b.toInt < 2 ^ 63) :
    (a + b).toInt = a.toInt + b.toInt := by
  rw [Int64.toInt_add, bmod_word hl hu]

theorem toInt_sub (hl : -2 ^ 63 ≤ a.toInt - b.toInt) (hu : a.toInt - b.toInt < 2 ^ 63) :
    (a - b).toInt = a.toInt - b.toInt := by
  rw [Int64.toInt_sub, bmod_word hl hu]

theorem toInt_double (hl : -2 ^ 62 ≤ a.toInt) (hu : a.toInt < 2 ^ 62) :
    (a * 2).toInt = a.toInt * 2 := by
  rw [Int64.toInt_mul]
  change (a.toInt * 2).bmod (2 ^ 64) = a.toInt * 2
  apply bmod_word <;> omega

/-- Only the quotient of the least word by minus one does not fit. -/
theorem toInt_third (a : Int64) : (a / 3).toInt = a.toInt.tdiv 3 :=
  Int64.toInt_div_of_ne_right a 3 (by decide)

theorem div_third (a : Int64) : div? a 3 = some (a / 3) := word_eq (toInt_third a)

end Checked

namespace Priority

open Checked

/-- The native priority in 64 bits, if no operation on the way to it overflows. -/
def wide? (p : Priority) (l : ThreadLimits) : Option Int64 := do
  let low := l.minPriority.toInt64
  let span ← sub? l.maxPriority.toInt64 low
  match p with
  | .low => some low
  | .normal => add? low (← div? span 3)
  | .high => add? low (← div? (← mul? span 2) 3)
  | .realtime => add? low span

/-! ## Where the levels lie -/

def place (p : Priority) (low high : Int) : Int :=
  match p with
  | .low => low
  | .normal => low + (high - low).tdiv 3
  | .high => low + ((high - low) * 2).tdiv 3
  | .realtime => high

section Places

variable {low high : Int} {p q : Priority}

theorem third_cases (n : Int) :
    (0 ≤ n ∧ 3 * n.tdiv 3 ≤ n ∧ n < 3 * n.tdiv 3 + 3) ∨
      (n ≤ 0 ∧ n ≤ 3 * n.tdiv 3 ∧ 3 * n.tdiv 3 < n + 3) := by
  obtain hn | hn := Int.le_total 0 n
  · rw [Int.tdiv_eq_ediv_of_nonneg hn]
    omega
  · have h : n.tdiv 3 = -(-n / 3) := by
      rw [← Int.tdiv_eq_ediv_of_nonneg (Int.neg_nonneg_of_nonpos hn), Int.neg_tdiv, Int.neg_neg]
    omega

theorem place_rising (h : low ≤ high) (hpq : p.word ≤ q.word) :
    p.place low high ≤ q.place low high := by
  have h₁ := third_cases (high - low)
  have h₂ := third_cases ((high - low) * 2)
  cases p <;> cases q <;> first | exact absurd hpq (by decide) | simp only [place]; omega

theorem place_neg (p : Priority) (low high : Int) : p.place (-low) (-high) = -p.place low high := by
  have hspan : -high - -low = -(high - low) := by omega
  cases p with
  | low => rfl
  | normal => rw [place, place, hspan, Int.neg_tdiv, Int.neg_add]
  | high => rw [place, place, hspan, Int.neg_mul, Int.neg_tdiv, Int.neg_add]
  | realtime => rfl

theorem place_falling (h : high ≤ low) (hpq : p.word ≤ q.word) :
    q.place low high ≤ p.place low high := by
  have hr := place_rising (Int.neg_le_neg h) hpq
  rw [place_neg, place_neg] at hr
  exact Int.neg_le_neg_iff.mp hr

theorem low_first (p : Priority) : Priority.low.word ≤ p.word := by cases p <;> decide

theorem realtime_last (p : Priority) : p.word ≤ Priority.realtime.word := by cases p <;> decide

theorem place_between (p : Priority) (low high : Int) : p.place low high ∈ Set.uIcc low high := by
  rw [Set.mem_uIcc]
  obtain h | h := Int.le_total low high
  · exact .inl ⟨place_rising h (low_first p), place_rising h (realtime_last p)⟩
  · exact .inr ⟨place_falling h (realtime_last p), place_falling h (low_first p)⟩

theorem near_third {n : Int} {x : ℚ} (hx : 3 * x = n) : |(n.tdiv 3 : ℚ) - x| < 1 := by
  have hc := third_cases n
  have hl : n - 3 < 3 * n.tdiv 3 := by omega
  have hu : 3 * n.tdiv 3 < n + 3 := by omega
  have hl : (n : ℚ) - 3 < 3 * (n.tdiv 3 : ℚ) := by exact_mod_cast hl
  have hu : 3 * (n.tdiv 3 : ℚ) < n + 3 := by exact_mod_cast hu
  rw [abs_lt]
  constructor <;> linarith

end Places

/-! ## Words and whole numbers -/

section Native

variable (p : Priority) (l : ThreadLimits)

theorem ends_fit : (-2 ^ 31 ≤ l.minPriority.toInt ∧ l.minPriority.toInt < 2 ^ 31) ∧
    -2 ^ 31 ≤ l.maxPriority.toInt ∧ l.maxPriority.toInt < 2 ^ 31 :=
  ⟨⟨l.minPriority.le_toInt, l.minPriority.toInt_lt⟩, l.maxPriority.le_toInt, l.maxPriority.toInt_lt⟩

theorem toInt_span : (l.maxPriority.toInt64 - l.minPriority.toInt64).toInt =
    l.maxPriority.toInt - l.minPriority.toInt := by
  have h := ends_fit l
  rw [toInt_sub] <;> simp only [Int32.toInt_toInt64] <;> omega

theorem sub_span : sub? l.maxPriority.toInt64 l.minPriority.toInt64 =
    some (l.maxPriority.toInt64 - l.minPriority.toInt64) := by
  apply word_eq
  rw [toInt_span, Int32.toInt_toInt64, Int32.toInt_toInt64]

theorem toInt_twice : ((l.maxPriority.toInt64 - l.minPriority.toInt64) * 2).toInt =
    (l.maxPriority.toInt - l.minPriority.toInt) * 2 := by
  have h := ends_fit l
  rw [toInt_double] <;> rw [toInt_span] <;> omega

theorem mul_twice : mul? (l.maxPriority.toInt64 - l.minPriority.toInt64) 2 =
    some ((l.maxPriority.toInt64 - l.minPriority.toInt64) * 2) := by
  apply word_eq
  rw [toInt_twice, toInt_span]
  rfl

theorem place_fits : -2 ^ 31 ≤ p.place l.minPriority.toInt l.maxPriority.toInt ∧
    p.place l.minPriority.toInt l.maxPriority.toInt < 2 ^ 31 := by
  have h := ends_fit l
  obtain hp | hp := Set.mem_uIcc.mp (place_between p l.minPriority.toInt l.maxPriority.toInt) <;>
    omega

/-- The last addition of a level does not overflow, as its sum is the level's place. -/
theorem sum_exact {part : Int64}
    (h : l.minPriority.toInt + part.toInt = p.place l.minPriority.toInt l.maxPriority.toInt) :
    add? l.minPriority.toInt64 part = some (l.minPriority.toInt64 + part) ∧
      (l.minPriority.toInt64 + part).toInt = p.place l.minPriority.toInt l.maxPriority.toInt := by
  have hp := place_fits p l
  have hlow := Int32.toInt_toInt64 l.minPriority
  have hsum : (l.minPriority.toInt64 + part).toInt = l.minPriority.toInt64.toInt + part.toInt := by
    apply toInt_add <;> omega
  exact ⟨word_eq hsum, by rw [hsum, hlow, h]⟩

theorem wide_exact : p.wide? l = some (p.wide l) ∧
    (p.wide l).toInt = p.place l.minPriority.toInt l.maxPriority.toInt := by
  cases p with
  | low =>
    simp only [wide?, wide, sub_span, Option.bind_eq_bind, Option.bind_some]
    exact ⟨trivial, Int32.toInt_toInt64 _⟩
  | normal =>
    simp only [wide?, wide, sub_span, div_third, Option.bind_eq_bind, Option.bind_some]
    apply sum_exact
    rw [toInt_third, toInt_span]
    rfl
  | high =>
    simp only [wide?, wide, sub_span, mul_twice, div_third, Option.bind_eq_bind, Option.bind_some]
    apply sum_exact
    rw [toInt_third, toInt_twice]
    rfl
  | realtime =>
    simp only [wide?, wide, sub_span, Option.bind_eq_bind, Option.bind_some]
    apply sum_exact
    rw [toInt_span, place]
    omega

theorem toInt_toNative :
    (p.toNative l).toInt = p.place l.minPriority.toInt l.maxPriority.toInt := by
  have hp := place_fits p l
  rw [toNative, Int64.toInt_toInt32, (wide_exact p l).2]
  apply Int.bmod_eq_of_le <;> omega

theorem toNative_low : Priority.low.toNative l = l.minPriority := by
  rw [← Int32.toInt_inj, toInt_toNative]
  rfl

theorem toNative_realtime : Priority.realtime.toNative l = l.maxPriority := by
  rw [← Int32.toInt_inj, toInt_toNative]
  rfl

end Native

section Order

variable {l : ThreadLimits} {p q : Priority}

theorem toNative_rising (h : l.minPriority ≤ l.maxPriority) (hpq : p.word ≤ q.word) :
    p.toNative l ≤ q.toNative l := by
  rw [Int32.le_iff_toInt_le] at h ⊢
  rw [toInt_toNative, toInt_toNative]
  exact place_rising h hpq

theorem toNative_falling (h : l.maxPriority ≤ l.minPriority) (hpq : p.word ≤ q.word) :
    q.toNative l ≤ p.toNative l := by
  rw [Int32.le_iff_toInt_le] at h ⊢
  rw [toInt_toNative, toInt_toNative]
  exact place_falling h hpq

end Order

/-- The levels are spread over the range, whatever words its ends are and
whichever of them is the greater. The arithmetic neither overflows nor loses
anything when it is cut down to 32 bits. The lowest and the highest level are
the ends of the range, and the two others lie less than 1 from a third and two
thirds of the way. From the minimum towards the maximum the levels keep their
order, so all of them lie between the two. -/
theorem levels_spread (l : ThreadLimits) :
    (∀ p : Priority, p.wide? l = some (p.wide l) ∧ (p.toNative l).toInt = (p.wide l).toInt) ∧
    Priority.low.toNative l = l.minPriority ∧
    Priority.realtime.toNative l = l.maxPriority ∧
    |((Priority.normal.toNative l).toInt : ℚ) - (l.minPriority.toInt +
      (l.maxPriority.toInt - l.minPriority.toInt : ℚ) * (1 / 3))| < 1 ∧
    |((Priority.high.toNative l).toInt : ℚ) - (l.minPriority.toInt +
      (l.maxPriority.toInt - l.minPriority.toInt : ℚ) * (2 / 3))| < 1 ∧
    (∀ p q : Priority, p.word ≤ q.word →
      (l.minPriority ≤ l.maxPriority → p.toNative l ≤ q.toNative l) ∧
      (l.maxPriority ≤ l.minPriority → q.toNative l ≤ p.toNative l)) ∧
    ∀ p : Priority,
      (p.toNative l).toInt ∈ Set.uIcc l.minPriority.toInt l.maxPriority.toInt := by
  refine ⟨fun p => ⟨(wide_exact p l).1, ?_⟩, toNative_low l, toNative_realtime l, ?_, ?_,
    fun p q hpq => ⟨fun h => toNative_rising h hpq, fun h => toNative_falling h hpq⟩, fun p => ?_⟩
  · rw [toInt_toNative, (wide_exact p l).2]
  · have h := near_third (n := l.maxPriority.toInt - l.minPriority.toInt)
      (x := (l.maxPriority.toInt - l.minPriority.toInt : ℚ) * (1 / 3)) (by push_cast; ring)
    rw [toInt_toNative, place]
    push_cast
    rwa [add_sub_add_left_eq_sub]
  · have h := near_third (n := (l.maxPriority.toInt - l.minPriority.toInt) * 2)
      (x := (l.maxPriority.toInt - l.minPriority.toInt : ℚ) * (2 / 3)) (by push_cast; ring)
    rw [toInt_toNative, place]
    push_cast
    rwa [add_sub_add_left_eq_sub]
  · rw [toInt_toNative]
    exact place_between p _ _

def downward : ThreadLimits := ⟨0, 0, 0, Int32.maxValue, Int32.minValue⟩

theorem downward_levels_spread :
    Priority.all.map (fun p => (p.toNative downward).toInt) =
        [2147483647, 715827882, -715827883, -2147483648] ∧
      Priority.high.toNative downward ≤ Priority.normal.toNative downward :=
  ⟨by decide, ((levels_spread downward).2.2.2.2.2.1 .normal .high (by decide)).2 (by decide)⟩

end Priority

end SyncCore

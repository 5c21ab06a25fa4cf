import SyncCore.Backend.Hosted
import SyncCore.Backend.Mock.Operation
import SyncCore.Proofs.Identity.Coherence

/-!
# How backends number their threads

The hosted backend knows a thread by the number that the operating system has
given it, which no other thread of the process ever has. Each platform of the
mock backend numbers its own tasks from 1, and every other thread has the
number 0.
-/

set_option autoImplicit false

namespace SyncCore.Manager

variable {V : Type}

namespace Numbering

def hosted : Numbering where
  State := Nat
  initial := 1
  draw _ n := (n, n + 1)
  text _ := Hosted.handleText

def mock : Numbering where
  State := Nat → Mock.State
  initial _ := .initial
  draw
    | some p, σ =>
      match Mock.effect 0 .drawId (σ p) with
      | some (n, u) => (UInt32.toNat n, Function.update σ p u)
      | none => (0, σ)
    | none, σ => (0, σ)
  text n := Mock.taskText (.ofNat n)

end Numbering

namespace Site

def Distinct {N : Numbering} (s : Site N V) : Prop :=
  ∀ p h x y, s.identities x = some ⟨some p, h⟩ → s.identities y = some ⟨some p, h⟩ → x = y

def draws {N : Numbering} (p : Nat) (s : Site N V) (e : Event V) : Bool :=
  s.drawn? e = some (some p)

section Hosted

variable {s t : Site .hosted V}

def nextNumber (s : Site .hosted V) : Nat := s.numbering

structure Counted (s : Site .hosted V) : Prop where
  coherent : s.Coherent
  below : ∀ x p (h : Nat), s.identities x = some ⟨p, h⟩ → h < s.nextNumber
  unique : ∀ x y p q (h : Nat), s.identities x = some ⟨p, h⟩ → s.identities y = some ⟨q, h⟩ → x = y

theorem counted_initial : (initial : Site .hosted V).Counted where
  coherent := coherent_initial
  below := nofun
  unique := nofun

theorem Counted.next_step {e : Event V} (hs : s.Counted) (h : step? e s = some t) :
    t.nextNumber = if (s.drawn? e).isSome then s.nextNumber + 1 else s.nextNumber := by
  rw [nextNumber, hs.coherent.step_numbering h]
  cases s.drawn? e <;> rfl

theorem counted_step {e : Event V} (hs : s.Counted) (h : step? e s = some t) : t.Counted := by
  obtain ⟨z, hz⟩ := hs.coherent.bearers h
  have hnext := hs.next_step h
  have hbears : ∀ x p (k : Nat), t.identities x = some ⟨p, k⟩ →
      (s.identities x = some ⟨p, k⟩ ∧ k < s.nextNumber) ∨
        (x = z ∧ k = s.nextNumber ∧ t.nextNumber = s.nextNumber + 1) := fun x p k hx => by
    obtain hx | ⟨hx, hd, hk⟩ := hz x p k hx
    · exact .inl ⟨hx, hs.below x p k hx⟩
    · exact .inr ⟨hx, hk, by rw [hnext, hd]; rfl⟩
  refine ⟨coherent_step hs.coherent h, fun x p k hx => ?_, fun x y p q k hx hy => ?_⟩
  · have hle : s.nextNumber ≤ t.nextNumber := by
      rw [hnext]
      split <;> omega
    obtain ⟨-, hk⟩ | ⟨-, hk, ht⟩ := hbears x p k hx <;> omega
  · obtain ⟨hx, hk⟩ | ⟨hx, hk, -⟩ := hbears x p k hx <;>
      obtain ⟨hy, hk'⟩ | ⟨hy, hk', -⟩ := hbears y q k hy
    · exact hs.unique x y p q k hx hy
    · omega
    · omega
    · rw [hx, hy]

theorem hosted_counted {es : List (Event V)} (h : run? step? es initial = some s) : s.Counted :=
  run_keeps (fun _ _ _ hs hst => counted_step hs hst) h counted_initial

end Hosted

section Mock

variable {s t : Site .mock V} {p : Nat}

def nextTask (s : Site .mock V) (p : Nat) : Mock.TaskId := Mock.State.nextId (s.numbering p)

/-- The numbers that a platform has given out after `n` draws. A number comes
again only after all others. -/
structure Tasked (p : Nat) (s : Site .mock V) (n : Nat) : Prop where
  coherent : s.Coherent
  next : s.nextTask p = UInt32.ofNat (n + 1)
  bounds : n < UInt32.size → ∀ x (h : Nat), s.identities x = some ⟨some p, h⟩ →
    0 < h ∧ h ≤ n
  unique : n < UInt32.size → ∀ x y (h : Nat), s.identities x = some ⟨some p, h⟩ →
    s.identities y = some ⟨some p, h⟩ → x = y

theorem tasked_initial (p : Nat) : Tasked p (initial : Site .mock V) 0 where
  coherent := coherent_initial
  next := rfl
  bounds := nofun
  unique := nofun

theorem Tasked.toNat_next {n : Nat} (hs : Tasked p s n) (hn : n + 1 < UInt32.size) :
    (s.nextTask p).toNat = n + 1 := by
  rw [hs.next]
  exact UInt32.toNat_ofNat_of_lt' hn

theorem Coherent.next_task {e : Event V} (hs : s.Coherent) (h : step? e s = some t) (p : Nat) :
    t.nextTask p = s.nextTask p + UInt32.ofNat (s.draws p e).toNat := by
  rw [nextTask, hs.step_numbering h, draws]
  cases s.drawn? e with
  | none => simp [nextTask]
  | some q =>
    cases q with
    | none => simp [nextTask, Numbering.mock]
    | some q =>
      by_cases hq : q = p
      · subst hq
        simp [nextTask, Numbering.mock, Mock.effect]
      · simp [nextTask, Numbering.mock, Mock.effect, hq, Function.update_of_ne (Ne.symm hq)]

theorem tasked_step {e : Event V} {n : Nat} (hs : Tasked p s n) (h : step? e s = some t) :
    Tasked p t (n + (s.draws p e).toNat) := by
  obtain ⟨z, hz⟩ := hs.coherent.bearers h
  have hbears : n + (s.draws p e).toNat < UInt32.size → ∀ x (k : Nat),
      t.identities x = some ⟨some p, k⟩ →
      (s.identities x = some ⟨some p, k⟩ ∧ 0 < k ∧ k ≤ n) ∨
        (x = z ∧ k = n + 1 ∧ (s.draws p e).toNat = 1) := fun hlt x k hx => by
    obtain hx | ⟨hx, hd, hk⟩ := hz x (some p) k hx
    · exact .inl ⟨hx, hs.bounds (by omega) x k hx⟩
    · have h1 : (s.draws p e).toNat = 1 := by simp [draws, hd]
      exact .inr ⟨hx, hk.trans (hs.toNat_next (by omega)), h1⟩
  refine ⟨coherent_step hs.coherent h, ?_, fun hlt x k hx => ?_, fun hlt x y k hx hy => ?_⟩
  · rw [hs.coherent.next_task h, hs.next, ← UInt32.ofNat_add, Nat.add_right_comm]
  · obtain ⟨-, hk⟩ | ⟨-, hk, h1⟩ := hbears hlt x k hx <;> omega
  · obtain ⟨hx, hk⟩ | ⟨hx, hk, -⟩ := hbears hlt x k hx <;>
      obtain ⟨hy, hk'⟩ | ⟨hy, hk', -⟩ := hbears hlt y k hy
    · exact hs.unique (by omega) x y k hx hy
    · omega
    · omega
    · rw [hx, hy]

theorem mock_tasked {es : List (Event V)}
    (h : run? step? es (initial : Site .mock V) = some s) (p : Nat) :
    Tasked p s (tally step? (draws p) es (initial : Site .mock V)) := by
  have hs := run_keeps_tally (fun _ _ _ _ hs hst => tasked_step hs hst) h (tasked_initial p)
  rwa [Nat.zero_add] at hs

/-- A thread that no platform has started has the number 0. -/
theorem mock_outsider {es : List (Event V)} (h : run? step? es (initial : Site .mock V) = some s)
    {x : Caller} {k : Handle} (hx : s.identities x = some ⟨none, k⟩) : k = (0 : Nat) :=
  (run_keeps (I := fun s : Site .mock V =>
      s.Coherent ∧ ∀ x k, s.identities x = some ⟨none, k⟩ → k = (0 : Nat))
    (fun _ _ _ hs hst => ⟨coherent_step hs.1 hst, fun x k hx => by
      obtain ⟨z, hz⟩ := hs.1.bearers hst
      obtain hx | ⟨-, -, hk⟩ := hz x none k hx
      · exact hs.2 x k hx
      · exact hk⟩)
    h ⟨coherent_initial, fun _ _ hx => nomatch hx⟩).2 x k hx

theorem mock_distinct {es : List (Event V)} (h : run? step? es (initial : Site .mock V) = some s)
    (hd : ∀ p, tally step? (draws p) es (initial : Site .mock V) < UInt32.size) : s.Distinct :=
  fun p k x y => (mock_tasked h p).unique (hd p) x y k

end Mock

end Site

end SyncCore.Manager

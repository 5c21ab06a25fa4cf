import Mathlib.Algebra.BigOperators.ModEq
import Mathlib.Tactic.Linarith
import SyncCore.Atomic.Workload
import SyncCore.Proofs.Run

/-!
# Threads that share a cell lose no update

Any number of threads work off their tasks on one cell, one access at a time.
An access leaves the word and the work that is owed as they are, or it is an
update and pays for exactly one task: it reports the word it found, and leaves
that word changed by what the task adds. Over a run the updates form a chain,
and each thread has paid for its tasks in their order, however often its
exchanges were refused.
-/

set_option autoImplicit false

namespace SyncCore.Atomic

variable {n : Nat}

def Task.delta : Task → Int32
  | .add _ d => d
  | .sub _ d => -d
  | .exchangeAdd _ _ d => d

/-- What a task adds, as a number that does not wrap. -/
def Task.gain : Task → Int
  | .add _ d => d.toInt
  | .sub _ d => -d.toInt
  | .exchangeAdd _ _ d => d.toInt

def Worker.owed : Worker → List Int32
  | .todo ts => ts.map Task.delta
  | .trying _ d _ ts => d :: ts.map Task.delta

/-- The word an action reports to have found and the word it has left, if its
answer says that it has changed the word. -/
def Action.change? : (a : Action) → a.Answer → Option (Int32 × Int32)
  | .add _ d, (v : Int32) => some (v, v + d)
  | .sub _ d, (v : Int32) => some (v, v - d)
  | .exchange _ e d, (r : Exchanged) => if r.success then some (e, d) else none
  | _, _ => none

structure Update (n : Nat) where
  thread : Fin n
  found : Int32
  left : Int32
  deriving DecidableEq, Repr

def Update.change (u : Update n) : Int32 := u.left - u.found

def Chained : Int32 → List (Update n) → Int32 → Prop
  | v, [], w => w = v
  | v, u :: us, w => u.found = v ∧ Chained u.left us w

structure Shared (n : Nat) where
  word : Int32
  workers : Fin n → Worker

namespace Shared

def start (v : Int32) (tasks : Fin n → List Task) : Shared n := ⟨v, fun i => .todo (tasks i)⟩

def step? (i : Fin n) (s : Shared n) : Option (Shared n) :=
  (Worker.next.step? effect (s.workers i) s.word).map fun r =>
    ⟨r.2, Function.update s.workers i r.1⟩

def report (s : Shared n) (i : Fin n) : List (Update n) :=
  match Worker.next (s.workers i) with
  | .done _ => []
  | .act a _ => ((a.change? (perform a s.word).1).map fun p => ⟨i, p.1, p.2⟩).toList

def updates (schedule : List (Fin n)) (s : Shared n) : List (Update n) :=
  transcript step? report schedule s

def Finished (s : Shared n) : Prop := ∀ i, s.workers i = .todo []

instance (s : Shared n) : Decidable s.Finished :=
  inferInstanceAs (Decidable (∀ i, s.workers i = .todo []))

def Refused (s : Shared n) (i : Fin n) (t : Shared n) : Prop :=
  match s.workers i with
  | .todo _ => True
  | .trying o d e ts =>
    let r : Exchanged := (perform (.exchange o e (e + d)) s.word).1
    r.success = false → s.word ≠ e ∧ t.word = s.word ∧ r.expected = s.word ∧
      t.workers i = .trying o d s.word ts

end Shared

/-! ## One access -/

/-- An access changes neither the word nor what is owed, or it is an update
that pays for the first of the things owed. -/
theorem Worker.next_cases {w : Worker} {a : Action} {resume : a.Answer → Worker}
    (h : Worker.next w = .act a resume) (v : Int32) :
    (a.change? (perform a v).1 = none ∧ (perform a v).2 = v ∧
      (resume (perform a v).1).owed = w.owed) ∨
    ∃ d, a.change? (perform a v).1 = some (v, v + d) ∧ (perform a v).2 = v + d ∧
      w.owed = d :: (resume (perform a v).1).owed := by
  cases w with
  | todo ts =>
    cases ts with
    | nil => cases h
    | cons task ts =>
      cases task with
      | add o d =>
        cases h
        exact .inr ⟨d, rfl, rfl, rfl⟩
      | sub o d =>
        cases h
        exact .inr ⟨-d, by rw [← Int32.sub_eq_add_neg]; rfl, Int32.sub_eq_add_neg v d, rfl⟩
      | exchangeAdd l o d =>
        cases h
        exact .inl ⟨rfl, rfl, rfl⟩
  | trying o d e ts =>
    cases h
    by_cases hv : v = e
    · subst hv
      exact .inr ⟨d, by simp [perform, Action.change?], by simp [perform],
        by simp [perform, Worker.owed]⟩
    · exact .inl ⟨by simp [perform, hv, Action.change?], by simp [perform, hv],
        by simp [perform, hv, Worker.owed]⟩

namespace Shared

variable {i : Fin n} {s t u : Shared n} {schedule : List (Fin n)}

theorem step_act (h : step? i s = some t) :
    ∃ a resume, Worker.next (s.workers i) = .act a resume ∧
      t = ⟨(perform a s.word).2, Function.update s.workers i (resume (perform a s.word).1)⟩ := by
  obtain ⟨⟨w, v⟩, hr, rfl⟩ := Option.map_eq_some_iff.mp h
  obtain ⟨a, resume, x, hn, he, rfl⟩ := Machine.step_cases hr
  have hp : perform a s.word = (x, v) := Option.some.inj he
  exact ⟨a, resume, hn, by rw [hp]⟩

theorem step_cases (h : step? i s = some t) :
    ∃ w, t.workers = Function.update s.workers i w ∧
      ((s.report i = [] ∧ t.word = s.word ∧ w.owed = (s.workers i).owed) ∨
        ∃ d, s.report i = [⟨i, s.word, s.word + d⟩] ∧ t.word = s.word + d ∧
          (s.workers i).owed = d :: w.owed) := by
  obtain ⟨a, resume, hn, rfl⟩ := step_act h
  refine ⟨_, rfl, ?_⟩
  simp only [report, hn]
  rcases Worker.next_cases hn s.word with ⟨hc, hw, ho⟩ | ⟨d, hc, hw, ho⟩
  · exact .inl ⟨by rw [hc]; rfl, hw, ho⟩
  · exact .inr ⟨d, by rw [hc]; rfl, hw, ho⟩

theorem step_refused (h : step? i s = some t) : Refused s i t := by
  obtain ⟨a, resume, hn, rfl⟩ := step_act h
  unfold Refused
  cases hw : s.workers i with
  | todo ts => trivial
  | trying o d e ts =>
    rw [hw] at hn
    cases hn
    by_cases hv : s.word = e
    · simp [perform, hv]
    · simp [perform, hv]

/-! ## Runs -/

theorem updates_chained (h : run? step? schedule s = some u) :
    Chained s.word (updates schedule s) u.word := by
  induction schedule generalizing s with
  | nil =>
    cases h
    exact rfl
  | cons i is ih =>
    obtain ⟨t, hst, htu⟩ := run_cons h
    have ht : Chained t.word (updates is t) u.word := ih htu
    rw [updates, transcript_cons hst]
    obtain ⟨w, -, ⟨hr, hv, -⟩ | ⟨d, hr, hv, -⟩⟩ := step_cases hst
    · rw [hr, List.nil_append, ← hv]
      exact ht
    · rw [hr, List.singleton_append, Chained, ← hv]
      exact ⟨rfl, ht⟩

/-- What a thread owes at the start it has added by its updates, or still owes. -/
theorem updates_paid (h : run? step? schedule s = some u) (i : Fin n) :
    ((updates schedule s).filter (·.thread = i)).map Update.change ++ (u.workers i).owed =
      (s.workers i).owed := by
  induction schedule generalizing s with
  | nil =>
    cases h
    rfl
  | cons j js ih =>
    obtain ⟨t, hst, htu⟩ := run_cons h
    have ht := ih htu
    rw [updates, transcript_cons hst, List.filter_append, List.map_append, List.append_assoc]
    rw [updates] at ht
    rw [ht]
    obtain ⟨w, hw, hc⟩ := step_cases hst
    rw [hw]
    by_cases hij : j = i
    · subst hij
      rw [Function.update_self]
      obtain ⟨hr, -, ho⟩ | ⟨d, hr, -, ho⟩ := hc
      · rw [hr, ho]
        rfl
      · rw [hr, ho]
        simp [Update.change, Int32.add_comm s.word d]
    · rw [Function.update_of_ne (Ne.symm hij)]
      obtain ⟨hr, -⟩ | ⟨d, hr, -⟩ := hc <;> simp [hr, hij]

end Shared

/-! ## Sums -/

theorem toInt_add_modEq (v d : Int32) : (v + d).toInt ≡ v.toInt + d.toInt [ZMOD 2 ^ 32] := by
  rw [Int32.toInt_add]
  exact Int.bmod_emod

theorem delta_modEq (t : Task) : t.delta.toInt ≡ t.gain [ZMOD 2 ^ 32] := by
  cases t with
  | sub o d =>
    rw [Task.delta, Int32.toInt_neg]
    exact Int.bmod_emod
  | _ => exact Int.ModEq.rfl

theorem deltas_modEq (ts : List Task) :
    ((ts.map Task.delta).map Int32.toInt).sum ≡ (ts.map Task.gain).sum [ZMOD 2 ^ 32] := by
  induction ts with
  | nil => exact Int.ModEq.rfl
  | cons t ts ih =>
    simp only [List.map_cons, List.sum_cons]
    exact (delta_modEq t).add ih

namespace Shared

variable {i : Fin n} {s t : Shared n}

def balance (s : Shared n) : Int := s.word.toInt + ∑ i, ((s.workers i).owed.map Int32.toInt).sum

theorem start_balance (v : Int32) (tasks : Fin n → List Task) :
    (start v tasks).balance ≡ v.toInt + ∑ i, ((tasks i).map Task.gain).sum [ZMOD 2 ^ 32] :=
  (Int.ModEq.refl _).add (Int.ModEq.sum fun i _ => deltas_modEq (tasks i))

theorem step_balance (h : step? i s = some t) : t.balance ≡ s.balance [ZMOD 2 ^ 32] := by
  obtain ⟨w, hw, hc⟩ := step_cases h
  have hs := sum_update (fun w : Worker => (w.owed.map Int32.toInt).sum) s.workers i w
  rw [← hw] at hs
  obtain ⟨-, hv, ho⟩ | ⟨d, -, hv, ho⟩ := hc
  · rw [ho] at hs
    rw [balance, hv, add_right_cancel hs]
    exact Int.ModEq.rfl
  · rw [ho, List.map_cons, List.sum_cons, add_comm d.toInt, ← add_assoc] at hs
    have hp := toInt_add_modEq s.word d
    rw [balance, balance, hv]
    calc (s.word + d).toInt + ∑ j, ((t.workers j).owed.map Int32.toInt).sum
        ≡ s.word.toInt + d.toInt + ∑ j, ((t.workers j).owed.map Int32.toInt).sum [ZMOD 2 ^ 32] :=
          hp.add_right _
      _ = s.word.toInt + ∑ j, ((s.workers j).owed.map Int32.toInt).sum := by linarith

theorem finished_word {v : Int32} {tasks : Fin n → List Task} (hf : s.Finished)
    (h : s.balance ≡ v.toInt + ∑ i, ((tasks i).map Task.gain).sum [ZMOD 2 ^ 32]) :
    s.word.toInt = (v.toInt + ∑ i, ((tasks i).map Task.gain).sum).bmod (2 ^ 32) := by
  have hb : s.balance = s.word.toInt := by
    rw [balance, Finset.sum_eq_zero fun i _ => by rw [hf i]; rfl, add_zero]
  rw [hb] at h
  calc s.word.toInt = s.word.toInt.bmod (2 ^ 32) := s.word.toInt_bmod.symm
    _ = (s.word.toInt % (2 ^ 32 : Nat)).bmod (2 ^ 32) := (Int.emod_bmod _ _).symm
    _ = ((v.toInt + ∑ i, ((tasks i).map Task.gain).sum) % (2 ^ 32 : Nat)).bmod (2 ^ 32) :=
      congrArg (Int.bmod · (2 ^ 32)) h
    _ = _ := Int.emod_bmod _ _

end Shared

/-! ## Whole runs -/

/-- Any number of threads, with any tasks in any orders, under any schedule:
the updates form a chain from the first word to the last, and a refused
exchange changes nothing. When all tasks are done each thread has made one
update for each of its tasks, in their order, and the word is the sum of what
it was and what all tasks add, wrapped to 32 bits. -/
theorem no_update_is_lost {v : Int32} {tasks : Fin n → List Task} {schedule : List (Fin n)}
    {u : Shared n} (h : run? Shared.step? schedule (.start v tasks) = some u) :
    Chained v (Shared.updates schedule (.start v tasks)) u.word ∧
    Throughout Shared.step? Shared.Refused schedule (.start v tasks) ∧
    (u.Finished →
      (∀ i, ((Shared.updates schedule (.start v tasks)).filter (·.thread = i)).map Update.change =
        (tasks i).map Task.delta) ∧
      u.word.toInt = (v.toInt + ∑ i, ((tasks i).map Task.gain).sum).bmod (2 ^ 32)) := by
  refine ⟨Shared.updates_chained h, ?_, fun hf => ⟨fun i => ?_, ?_⟩⟩
  · refine throughout_of_keeps (I := fun _ => True) ?_ (throughout_trivial _ _) trivial
    intro s i t _ hst _
    exact ⟨trivial, Shared.step_refused hst⟩
  · have hp := Shared.updates_paid h i
    rw [hf i] at hp
    simpa [Worker.owed, Shared.start] using hp
  · exact Shared.finished_word hf (run_keeps
      (fun _ _ _ hs hst => (Shared.step_balance hst).trans hs) h (Shared.start_balance v tasks))

/-- One thread adds by exchange while the other changes the word. -/
def crossing : Fin 2 → List Task
  | 0 => [.exchangeAdd .relaxed .acqRel 5, .sub .acqRel 1]
  | 1 => [.add .seqCst 2, .sub .relaxed 1]

/-- The exchange is refused twice, and the word passes the greatest number. -/
theorem crossing_loses_nothing :
    ∃ u : Shared 2,
      run? Shared.step? [0, 1, 0, 1, 0, 0, 0] (.start 2147483647 crossing) = some u ∧ u.Finished ∧
        u.word.toInt = -2147483644 ∧
        u.word.toInt = (2147483647 + ∑ i, ((crossing i).map Task.gain).sum : Int).bmod (2 ^ 32) ∧
        Chained 2147483647 (Shared.updates [0, 1, 0, 1, 0, 0, 0] (.start 2147483647 crossing))
          u.word := by
  have h := @no_update_is_lost 2 2147483647 crossing [0, 1, 0, 1, 0, 0, 0] _ rfl
  exact ⟨_, rfl, by decide, by decide, (h.2.2 (by decide)).2, h.1⟩

end SyncCore.Atomic

import SyncCore.Proofs.Manager.Dealings

/-!
# Every thread is released at most once

Over whole runs of a manager no backend thread is released twice. One whose
handle is gone has been released, unless its handle was joined and the join
got no success from the backend: then nothing has released it.
-/

set_option autoImplicit false

namespace SyncCore.Manager

variable {V : Type}

structure ReleasedOnce (log : List Dealing) : Prop where
  spawns : log.countP Dealing.isSpawn ≤ 1
  releases : log.countP Dealing.isRelease ≤ 1
  own : ∀ d ∈ log, d.isRelease = true → ∃ b, d.on = some b ∧ .spawn b ∈ log
  apart : (∃ b r, .join b r ∈ log) → ∀ b r, .detach b r ∉ log

/-- The backend has waited for the thread, or was asked to let it go. -/
def Released (log : List Dealing) : Prop :=
  (∃ b, .join b (.ok ()) ∈ log) ∨ ∃ b r, .detach b r ∈ log

/-- A join got no success from the backend: it polled, or the backend refused to wait. -/
def JoinedWithout (log : List Dealing) : Prop :=
  .poll ∈ log ∨ ∃ b e, .join b (.error e) ∈ log

/-- The handle of a thread has been destroyed or dropped, or the creation has
returned an error. -/
def Thread.Relinquished (th : Thread V) : Prop :=
  match th.creation, th.owner with
  | .done (.error _), _ => True
  | .done (.ok _), .destroying _ (.done (.ok _)) => True
  | .done (.ok _), .destroyed => True
  | .done (.ok _), .dropping _ .done => True
  | .done (.ok _), .dropped => True
  | _, _ => False

theorem Dealt.relinquished {th : Thread V} {log : List Dealing} (hd : Dealt th log)
    (hr : th.Relinquished) : log = [] ∨ th.Bound log (.given th.shared.joined) := by
  have hw := hd.wrote
  cases hc : th.creation with
  | done r =>
    rw [hc] at hw
    simp only [Thread.Relinquished, hc] at hr
    rcases r with k | u
    · obtain ⟨-, hl⟩ | ⟨b, hb, hf⟩ := hw
      · exact .inl hl
      · exact .inr ⟨b, hb, Standing.fits_given hf⟩
    · right
      have hg : th.owner.standing th.shared.joined = .given th.shared.joined := by
        cases ho : th.owner with
        | destroying j pc =>
          rw [ho] at hr
          cases pc with
          | done r =>
            rcases r with k | u
            · cases hr
            · rfl
          | _ => cases hr
        | dropping j pc =>
          rw [ho] at hr
          cases pc <;> first | rfl | cases hr
        | destroyed => rfl
        | dropped => rfl
        | _ =>
          rw [ho] at hr
          cases hr
      rwa [Create.Pc.Wrote, hg] at hw
  | _ =>
    simp only [Thread.Relinquished, hc] at hr

namespace World

variable {w u : World V} {id : ObjectId} {capacity : Nat}

theorem noteDealings_of_ne {c : Move V} (hc : c.target ≠ id) (log : List Dealing) :
    noteDealings id w c log = log := by
  cases c with
  | act q p e => exact if_neg hc
  | _ => rfl

theorem noteDealings_act {p : Party} {e : Setting V} {th : Thread V} (ht : w.threads id = some th)
    (log : List Dealing) :
    noteDealings id w (.act id p e) log = log ++ (th.deal? e.toOracle id p).toList := by
  simp only [noteDealings, if_true, ht]

structure Documented (id : ObjectId) (s : World V × List Dealing) : Prop where
  present : ∀ th, s.1.threads id = some th → Dealt th s.2
  absent : s.1.threads id = none → s.2 = []

theorem documented_initial (id : ObjectId) (capacity : Nat) :
    Documented id ((initial capacity : World V), []) :=
  ⟨(fun _ h => nomatch h), fun _ => rfl⟩

theorem documented_step {c : Move V} {s s' : World V × List Dealing} (hs : Documented id s)
    (h : noted move? (noteDealings id) c s = some s') : Documented id s' := by
  obtain ⟨w, log⟩ := s
  obtain ⟨w', log'⟩ := s'
  obtain ⟨hm, rfl⟩ := noted_step h
  obtain ⟨th', t, hv, rfl⟩ := move_cases hm
  by_cases hc : c.target = id
  · have hd : Dealt th' (noteDealings id w c log) := by
      rw [hc] at hv
      generalize ho : w.threads id = o at hv
      cases hv with
      | create =>
        cases hs.absent ho
        exact .new _
      | begin hb => exact (hs.present _ ho).begin hb
      | act ha =>
        rw [Move.target] at hc
        subst hc
        rw [noteDealings_act ho]
        exact (hs.present _ ho).act ha
      | finish hf => exact (hs.present _ ho).finish hf
    rw [hc]
    exact ⟨fun th ht => by rw [threads_put] at ht; cases ht; exact hd,
      fun hn => by rw [threads_put] at hn; cases hn⟩
  · rw [noteDealings_of_ne hc]
    have ht : (w.put c.target th' t).threads id = w.threads id :=
      threads_put_of_ne w (Ne.symm hc) th' t
    exact ⟨fun th h => hs.present th (ht ▸ h), fun h => hs.absent (ht ▸ h)⟩

theorem run_documented {cs : List (Move V)} {log : List Dealing}
    (h : run? (noted move? (noteDealings id)) cs (initial capacity, []) = some (w, log)) :
    Documented id (w, log) :=
  run_keeps (fun _ _ _ hs hst => documented_step hs hst) h (documented_initial id capacity)

/-- Whatever fails, and in whatever order joins, destroys and drops are tried
and refused, no more than one call of the backend releases a thread. -/
theorem threads_released_once {cs : List (Move V)} {log : List Dealing}
    (h : run? (noted move? (noteDealings id)) cs (initial capacity, []) = some (w, log)) :
    ReleasedOnce log := by
  have hr := run_documented h
  have hl : log = [] ∨ ∃ b, log = [.spawn b] ∨ log = [.spawn b, .poll] ∨
      ∃ r, log = [.spawn b, .join (some b) r] ∨ log = [.spawn b, .detach (some b) r] := by
    cases ht : w.threads id with
    | none => exact .inl (hr.absent ht)
    | some th => exact (hr.present th ht).once
  obtain rfl | ⟨b, rfl | rfl | ⟨r, rfl | rfl⟩⟩ := hl
  · exact ⟨Nat.zero_le 1, Nat.zero_le 1, by simp, by simp⟩
  · exact ⟨Nat.le_refl 1, Nat.zero_le 1, by simp [Dealing.isRelease], by simp⟩
  · exact ⟨Nat.le_refl 1, Nat.zero_le 1, by simp [Dealing.isRelease], by simp⟩
  · exact ⟨Nat.le_refl 1, Nat.le_refl 1, by simp [Dealing.isRelease, Dealing.on], by simp⟩
  · exact ⟨Nat.le_refl 1, Nat.le_refl 1, by simp [Dealing.isRelease, Dealing.on], by simp⟩

def agreeing : Setting Unit := Oracle.agreeable.steady

def unhelpful : Setting Unit :=
  { agreeing with
    backend := fun
      | .join => .error .threadJoinFailed
      | .detach => .error .busy
      | c => Oracle.agreeable.backend c }

/-- Surroundings in which the mutex reports a failure after it has been given back. -/
def leaking : Setting Unit := { agreeing with latch := ⟨.ok (), .error .timeout⟩ }

def acts (n : Nat) (p : Party) (e : Setting Unit) : List (Move Unit) :=
  List.replicate n (.act 1 p e)

def spawned : List (Move Unit) := .create ⟨1, .default, 0⟩ :: acts 5 .creator agreeing

def spawnedAndEnded : List (Move Unit) := spawned ++ acts 6 .routine agreeing

/-- A join that the backend refuses, a destroy that the mutex makes fail, and a drop. -/
def refusedThenDropped : List (Move Unit) :=
  spawnedAndEnded ++ .begin 1 (.join true true) :: acts 4 .owner unhelpful ++ .finish 1 .owner ::
    .begin 1 (.destroy true) :: acts 2 .owner leaking ++ .finish 1 .owner ::
    .begin 1 .drop :: acts 4 .owner agreeing ++ [.finish 1 .owner]

theorem refused_then_dropped_once :
    ∃ w log, run? (noted move? (noteDealings 1)) refusedThenDropped ((initial 1 : World Unit), []) =
        some (w, log) ∧
      log = [.spawn ⟨1, 1⟩, .join (some ⟨1, 1⟩) (.error .threadJoinFailed)] ∧
      ReleasedOnce log := by
  obtain ⟨w, log, h⟩ : ∃ w log, run? (noted move? (noteDealings 1)) refusedThenDropped
      ((initial 1 : World Unit), []) = some (w, log) := ⟨_, _, rfl⟩
  have hl := threads_released_once h
  refine ⟨w, log, h, ?_, hl⟩
  cases h
  rfl

/-- Once its handle is gone a thread has been released, unless the handle was
joined and the join got no success from the backend. -/
theorem threads_released_unless {cs : List (Move V)} {log : List Dealing} {th : Thread V}
    (h : run? (noted move? (noteDealings id)) cs (initial capacity, []) = some (w, log))
    (ht : w.threads id = some th) (hr : th.Relinquished) (hs : ∃ b, .spawn b ∈ log) :
    Released log ↔ ¬JoinedWithout log := by
  obtain rfl | ⟨b, -, hf⟩ := ((run_documented h).present th ht).relinquished hr
  · obtain ⟨b, hb⟩ := hs
    cases hb
  · cases hj : th.shared.joined with
    | true =>
      rw [hj] at hf
      obtain ⟨-, rfl | ⟨r, rfl⟩⟩ := hf
      · simp [Released, JoinedWithout]
      · cases r <;> simp [Released, JoinedWithout]
    | false =>
      rw [hj] at hf
      obtain ⟨-, r, rfl⟩ := hf
      simp [Released, JoinedWithout]

/-- A foreign manager refuses to destroy a running thread, and its handle is
dropped, but the backend does not let the thread go. -/
def droppedWhileRunning : List (Move Unit) :=
  spawned ++ .begin 1 (.destroy false) :: .finish 1 .owner ::
    .begin 1 .drop :: acts 6 .owner unhelpful ++ [.finish 1 .owner]

theorem dropped_while_running_released :
    ∃ w log th, run? (noted move? (noteDealings 1)) droppedWhileRunning
        ((initial 1 : World Unit), []) = some (w, log) ∧
      w.threads 1 = some th ∧ th.Relinquished ∧ .spawn ⟨1, 1⟩ ∈ log ∧
      .detach (some ⟨1, 1⟩) (.error .busy) ∈ log ∧ (Released log ↔ ¬JoinedWithout log) := by
  obtain ⟨w, log, th, h, ht, hr, hs, hd⟩ : ∃ w log th,
      run? (noted move? (noteDealings 1)) droppedWhileRunning ((initial 1 : World Unit), []) =
        some (w, log) ∧ w.threads 1 = some th ∧ th.Relinquished ∧ .spawn ⟨1, 1⟩ ∈ log ∧
      .detach (some ⟨1, 1⟩) (.error .busy) ∈ log :=
    ⟨_, _, _, rfl, rfl, trivial, .head _, .tail _ (.head _)⟩
  exact ⟨w, log, th, h, ht, hr, hs, hd, threads_released_unless h ht hr ⟨_, hs⟩⟩

def polled : List (Move Unit) :=
  spawnedAndEnded ++ .begin 1 (.join true false) :: acts 5 .owner agreeing ++ [.finish 1 .owner]

def polledThenDestroyed : List (Move Unit) :=
  polled ++ .begin 1 (.destroy true) :: acts 3 .owner agreeing ++ [.finish 1 .owner]

def polledThenDropped : List (Move Unit) :=
  polled ++ .begin 1 .drop :: acts 4 .owner agreeing ++ [.finish 1 .owner]

/-- A thread that was joined by reading its state is destroyed, or its handle is
dropped. The backend has neither waited for it nor been asked to let it go. -/
theorem polled_thread_never_released :
    (∃ w log th, run? (noted move? (noteDealings 1)) polledThenDestroyed
        ((initial 1 : World Unit), []) = some (w, log) ∧
      w.threads 1 = some th ∧ th.owner = .destroyed ∧ .spawn ⟨1, 1⟩ ∈ log ∧ ¬Released log) ∧
    ∃ w log th, run? (noted move? (noteDealings 1)) polledThenDropped
        ((initial 1 : World Unit), []) = some (w, log) ∧
      w.threads 1 = some th ∧ th.owner = .dropped ∧ .spawn ⟨1, 1⟩ ∈ log ∧ ¬Released log := by
  have unreleased : ¬Released [.spawn ⟨1, 1⟩, .poll] := by simp [Released]
  exact ⟨⟨_, _, _, rfl, rfl, rfl, .head _, unreleased⟩,
    ⟨_, _, _, rfl, rfl, rfl, .head _, unreleased⟩⟩

end World

end SyncCore.Manager

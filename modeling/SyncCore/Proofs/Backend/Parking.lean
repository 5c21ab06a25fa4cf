import Mathlib.Logic.Function.Basic
import SyncCore.Proofs.Backend.Solo
import SyncCore.Proofs.Run

/-!
# Parking of suspended tasks

Any number of threads make calls on clones of one platform, one action at a
time. All tasks that are held wait on one condition, which is notified only
after the flag of one of them has been cleared and the guard has been left, and
a waiter may wake for no reason. Still a task is held as long as its flag is
set, and none is left waiting once its flag has been cleared.
-/

set_option autoImplicit false

namespace SyncCore.Mock

structure Errand where
  info : PlatformInfo
  request : Request
  pc : Pc
  deriving DecidableEq

structure Scene where
  shared : State
  errands : Nat → Option Errand

inductive Choice where
  | begin (i : Nat) (info : PlatformInfo) (q : Request)
  | act (i : Nat) (h : Host)
  | stir (i : Nat)
  | finish (i : Nat)
  deriving DecidableEq

/-! ## Program points -/

namespace Pc

def guarded : Pc → Bool
  | .change _ => true
  | .leave _ _ => true
  | .checkLook _ => true
  | .checkWait _ => true
  | .checkLeave _ => true
  | _ => false

/-- Points of a checkpoint that a suspended task does not get beyond. -/
def parks : Pc → Bool
  | .checkEnter _ => true
  | .checkLook _ => true
  | .checkWait _ => true
  | .checkWake _ => true
  | _ => false

def waits : Pc → Bool
  | .checkWait _ => true
  | .checkWake _ => true
  | _ => false

def clear (pc : Pc) : Bool := !pc.guarded && !pc.waits

def aside : Pc → Bool
  | .enter _ => false
  | .checkEnter _ => false
  | .notify => false
  | pc => pc.clear

def holds? : Pc → Option (TaskId × Bool)
  | .record (.suspend t) => some (t, true)
  | .record (.resume t) => some (t, false)
  | .enter (.suspended t b) => some (t, b)
  | .change (.suspended t b) => some (t, b)
  | .leave (.suspended t b) _ => some (t, b)
  | _ => none

end Pc

namespace Update

def renews (u : Update) (tasks : List (TaskId × Task)) : Bool :=
  match u with
  | .insert t _ _ _ => (tasks.lookup t).isSome
  | _ => false

end Update

namespace Scene

def opened (tasks : List (TaskId × Task)) : Scene :=
  ⟨{ State.initial with tasks }, fun _ => none⟩

def put (s : Scene) (i : Nat) (e : Option Errand) (u : State) : Scene :=
  ⟨u, Function.update s.errands i e⟩

/-- The point is to enter a task under a number that the table has already.
Numbers come again only after 2³² spawns, and runs are not followed that far. -/
def renewed (s : Scene) : Pc → Bool
  | .change u => u.renews s.shared.tasks
  | _ => false

/-- Thread `i` runs the task `task i`, or none if that is 0. -/
def step? (task : Nat → TaskId) : Choice → Scene → Option Scene
  | .begin i info q, s =>
    match s.errands i with
    | none => some (s.put i (some ⟨info, q, start info (task i) q⟩) s.shared)
    | some _ => none
  | .act i h, s =>
    (s.errands i).bind fun e =>
      if s.renewed e.pc then none
      else ((next e.info (task i)).step? (served i h) e.pc s.shared).map fun r =>
        s.put i (some { e with pc := r.1 }) r.2
  | .stir i, s =>
    if i ∈ s.shared.sleepers then
      some { s with shared := { s.shared with sleepers := s.shared.sleepers.erase i } }
    else none
  | .finish i, s =>
    match s.errands i with
    | some ⟨_, _, .done _⟩ => some (s.put i none s.shared)
    | _ => none

def turns (s : Scene) (t : TaskId) (b : Bool) : Choice → Bool
  | .act j _ =>
    (s.errands j).any fun e => e.pc = .change (.suspended t b) && e.request = holdRequest t b
  | _ => false

def Parked (s : Scene) (i : Nat) (info : PlatformInfo) (q : Request) : Prop :=
  ∃ pc, s.errands i = some ⟨info, q, pc⟩ ∧ pc.parks = true

def Waits (s : Scene) (i : Nat) : Prop :=
  i ∈ s.shared.sleepers ∨ ∃ e, s.errands i = some e ∧ e.pc.waits = true

def Resuming (s : Scene) (j : Nat) (t : TaskId) : Prop :=
  ∃ e, s.errands j = some e ∧ e.request = .resume t ∧
    (e.pc = .leave (.suspended t false) true ∨ e.pc = .notify)

end Scene

/-! ## What a change does to the flags -/

section Flags

variable {u : Update} {t : TaskId}

theorem flag_apply (s : State) (hr : u.renews s.tasks = false) (hu : ∀ b, u ≠ .suspended t b) :
    State.isSuspended { s with tasks := (u.apply s.tasks).2 } t = s.isSuspended t := by
  have kept : (∀ k, (u.change k).suspended = k.suspended) ∨ u.task ≠ t →
      ((s.tasks.map fun k => if k.1 = u.task then (k.1, u.change k.2) else k).lookup t).any
        (·.suspended) = (s.tasks.lookup t).any (·.suspended) := by
    intro h
    by_cases ht : u.task = t
    · rw [lookup_change ht]
      cases s.tasks.lookup t <;> simp [h.resolve_right (not_not.mpr ht)]
    · rw [lookup_unchanged ht]
  cases u with
  | insert q name stackSize n =>
    have hq : q ∉ s.tasks.map Prod.fst := fun hm => by
      simp [Update.renews, lookup_isSome_iff.mpr hm] at hr
    simp only [State.isSuspended, State.task?, Update.apply, filter_unknown hq, List.lookup_append]
    by_cases ht : t = q
    · cases s.tasks.lookup t <;> simp [ht]
    · cases s.tasks.lookup t <;> simp [List.lookup_cons, beq_false_of_ne ht]
  | suspended q b => exact kept (.inr fun he => hu b (he ▸ rfl))
  | _ => exact kept (.inl fun _ => rfl)

theorem flag_suspended (s : State) (t : TaskId) (b : Bool) :
    State.isSuspended { s with tasks := (Update.apply (.suspended t b) s.tasks).2 } t =
      (b && (s.task? t).isSome) := by
  have h : (Update.apply (.suspended t b) s.tasks).2.lookup t =
      (s.tasks.lookup t).map (Update.change (.suspended t b)) := lookup_change rfl
  simp only [State.isSuspended, State.task?, h]
  cases s.tasks.lookup t <;> simp [Update.change]

end Flags

/-! ## What a thread does -/

inductive Turn (own : TaskId) (i : Nat) : State → Pc → State → Pc → Prop where
  | aside {s s' : State} {pc pc' : Pc} : pc.aside = true → pc'.clear = true →
    s'.tasks = s.tasks → s'.inside = s.inside → s'.sleepers = s.sleepers → Turn own i s pc s' pc'
  | enter {s : State} {u : Update} : s.inside = none →
    Turn own i s (.enter u) { s with inside := some i } (.change u)
  | change {s : State} {u : Update} : Turn own i s (.change u)
    { s with tasks := (u.apply s.tasks).2 } (.leave u (u.apply s.tasks).1)
  | leave {s : State} {u : Update} {known : Bool} :
    Turn own i s (.leave u known) { s with inside := none } (afterUpdate u known)
  | checkEnter {s : State} {k : Onward} : s.inside = none →
    Turn own i s (.checkEnter k) { s with inside := some i } (.checkLook k)
  | held {s : State} {k : Onward} : s.isSuspended own = true →
    Turn own i s (.checkLook k) s (.checkWait k)
  | free {s : State} {k : Onward} : s.isSuspended own = false →
    Turn own i s (.checkLook k) s (.checkLeave k)
  | wait {s : State} {k : Onward} : Turn own i s (.checkWait k)
    { s with inside := none, sleepers := s.sleepers ++ [i] } (.checkWake k)
  | wake {s : State} {k : Onward} : i ∉ s.sleepers →
    Turn own i s (.checkWake k) s (.checkEnter k)
  | pass {s : State} {k : Onward} {pc : Pc} : pc.clear = true →
    Turn own i s (.checkLeave k) { s with inside := none } pc
  | notify {s : State} : Turn own i s .notify { s with sleepers := [] } ok

section Turns

variable {info : PlatformInfo} {own : TaskId} {i : Nat} {h : Host} {s s' : State} {pc pc' : Pc}

theorem Pc.clear_iff : pc.clear = true ↔ pc.guarded = false ∧ pc.waits = false := by
  simp [Pc.clear]

theorem Pc.parks_of_aside (ha : pc.aside = true) : pc.parks = false := by
  cases pc <;> first | rfl | cases ha

theorem clear_checkpoint (own : TaskId) (k : Onward) : (checkpoint own k).clear = true := by
  unfold checkpoint
  split
  · cases k <;> rfl
  · rfl

theorem clear_afterRecord (c : Call) : (afterRecord c).clear = true := by
  cases c <;> rfl

theorem clear_afterUpdate (u : Update) (known : Bool) : (afterUpdate u known).clear = true := by
  cases u with
  | suspended t b => cases b <;> cases known <;> rfl
  | _ => cases known <;> rfl

theorem clear_start (info : PlatformInfo) (own : TaskId) (q : Request) :
    (start info own q).clear = true := by
  cases q with
  | spawn => rfl
  | detach => rfl
  | sleep ms => exact clear_checkpoint ..
  | yield => exact clear_checkpoint ..
  | _ =>
    simp only [start]
    split <;> rfl

theorem turn_of_step (hst : (next info own).step? (served i h) pc s = some (pc', s')) :
    Turn own i s pc s' pc' := by
  obtain ⟨a, resume, x, hn, he, rfl⟩ := Machine.step_cases hst
  cases pc with
  | spawnLoad name stackSize n =>
    cases hn
    cases he
    refine .aside rfl ?_ rfl rfl rfl
    simp only
    split
    · rfl
    · split <;> rfl
  | spawnRefuse | spawnDraw | detachTake =>
    cases hn
    cases he
    exact .aside rfl rfl rfl rfl rfl
  | spawnStart | joinTake | await =>
    cases hn
    cases he
    refine .aside rfl ?_ rfl rfl rfl
    simp only
    split <;> rfl
  | record c => cases hn; cases he; exact .aside rfl (clear_afterRecord c) rfl rfl rfl
  | enter u =>
    cases hn
    obtain ⟨hs, he⟩ := Option.ite_none_right_eq_some.mp he
    cases he
    exact .enter hs
  | change u => cases hn; cases he; exact .change
  | leave u known => cases hn; cases he; exact .leave
  | checkEnter k =>
    cases hn
    obtain ⟨hs, he⟩ := Option.ite_none_right_eq_some.mp he
    cases he
    exact .checkEnter hs
  | checkLook k =>
    cases hn
    cases he
    cases hf : s.isSuspended own with
    | true => exact .held hf
    | false => exact .free hf
  | checkWait k => cases hn; cases he; exact .wait
  | checkWake k =>
    cases hn
    obtain ⟨hs, he⟩ := Option.ite_none_left_eq_some.mp he
    cases he
    exact .wake hs
  | checkLeave k =>
    cases k <;>
    · cases hn
      cases he
      exact .pass rfl
  | pause ms => cases hn; cases he; exact .aside rfl (clear_checkpoint ..) rfl rfl rfl
  | notify => cases hn; cases he; exact .notify
  | done r => cases hn

theorem holds_checkpoint (own : TaskId) (k : Onward) : (checkpoint own k).holds? = none := by
  unfold checkpoint
  split
  · cases k <;> rfl
  · rfl

theorem holds_of_start {q : Request} {t : TaskId} {b : Bool}
    (hp : (start info own q).holds? = some (t, b)) : q = holdRequest t b := by
  cases q with
  | spawn => cases hp
  | detach => cases hp
  | sleep ms => cases (holds_checkpoint own _).symm.trans hp
  | yield => cases (holds_checkpoint own _).symm.trans hp
  | _ =>
    simp only [start] at hp
    split at hp <;> cases hp <;> rfl

theorem holds_of_step {t : TaskId} {b : Bool}
    (hst : (next info own).step? (served i h) pc s = some (pc', s'))
    (hp : pc'.holds? = some (t, b)) : pc.holds? = some (t, b) := by
  obtain ⟨a, resume, x, hn, -, rfl⟩ := Machine.step_cases hst
  cases pc with
  | record c =>
    cases hn
    cases c <;> exact hp
  | enter u =>
    cases hn
    cases u <;> exact hp
  | change u =>
    cases hn
    cases u <;> exact hp
  | leave u known =>
    cases hn
    cases u with
    | suspended q b => cases b <;> cases known <;> cases hp
    | _ => cases known <;> cases hp
  | checkLeave k => cases k <;> cases hn <;> cases hp
  | pause ms =>
    cases hn
    cases (holds_checkpoint own _).symm.trans hp
  | spawnLoad name stackSize n =>
    cases hn
    simp only at hp
    split at hp
    · cases hp
    · split at hp <;> cases hp
  | done r => cases hn
  | _ =>
    cases hn
    first
      | cases hp
      | (simp only at hp; split at hp <;> cases hp)

theorem flag_of_tasks (hs : s'.tasks = s.tasks) (t : TaskId) :
    s'.isSuspended t = s.isSuspended t := by
  simp only [State.isSuspended, State.task?, hs]

namespace Turn

theorem flag (hst : Turn own i s pc s' pc') (hr : ∀ u, pc = .change u → u.renews s.tasks = false)
    (t : TaskId) : s'.isSuspended t = s.isSuspended t ∨
      ∃ b, pc = .change (.suspended t b) ∧ s'.isSuspended t = (b && (s.task? t).isSome) := by
  cases hst with
  | aside _ _ hs => exact .inl (flag_of_tasks hs t)
  | @change u =>
    by_cases hu : ∃ b, u = .suspended t b
    · obtain ⟨b, rfl⟩ := hu
      exact .inr ⟨b, rfl, flag_suspended s t b⟩
    · exact .inl (flag_apply s (hr u rfl) fun b hb => hu ⟨b, hb⟩)
  | _ => exact .inl rfl

theorem sleepers (hst : Turn own i s pc s' pc') (hi : i ∈ s.sleepers → ∃ k, pc = .checkWake k)
    {j : Nat} (hj : j ∈ s'.sleepers) :
    (j ∈ s.sleepers ∧ j ≠ i) ∨ j = i ∧ ∃ k, pc = .checkWait k ∧ pc' = .checkWake k := by
  have awake : (∀ k, pc ≠ .checkWake k) → j ∈ s.sleepers → j ∈ s.sleepers ∧ j ≠ i :=
    fun hp hj => ⟨hj, fun he => (hi (he ▸ hj)).elim hp⟩
  cases hst with
  | aside hp _ _ _ hs =>
    refine .inl (awake (fun k hk => ?_) (hs ▸ hj))
    rw [hk] at hp
    cases hp
  | wait =>
    obtain hj | hj := List.mem_append.mp hj
    · exact .inl (awake nofun hj)
    · exact .inr ⟨List.mem_singleton.mp hj, _, rfl, rfl⟩
  | wake hm => exact .inl ⟨hj, fun he => hm (he ▸ hj)⟩
  | notify => cases hj
  | _ => exact .inl (awake nofun hj)

/-- A suspended task does not get beyond a checkpoint. -/
theorem parks (hst : Turn own i s pc s' pc') (hf : s.isSuspended own = true)
    (hp : pc.parks = true) : pc'.parks = true := by
  cases hst with
  | aside ha => cases (Pc.parks_of_aside ha).symm.trans hp
  | checkEnter => rfl
  | held => rfl
  | free hn => cases hn.symm.trans hf
  | wait => rfl
  | wake => rfl
  | _ => cases hp

/-- A task that is not suspended is not found so. -/
theorem idle (hst : Turn own i s pc s' pc') (hf : s.isSuspended own = false)
    (hp : pc.waits = false) : pc'.waits = false := by
  cases hst with
  | aside _ hc => exact (Pc.clear_iff.mp hc).2
  | leave => exact (Pc.clear_iff.mp (clear_afterUpdate ..)).2
  | held hn => cases hn.symm.trans hf
  | wait => cases hp
  | pass hc => exact (Pc.clear_iff.mp hc).2
  | _ => rfl

end Turn

end Turns

structure Errand.Fits (s : State) (own : TaskId) (i : Nat) (e : Errand) : Prop where
  guarded : e.pc.guarded = true → s.inside = some i
  held : ∀ k, e.pc = .checkWait k → s.isSuspended own = true
  holds : ∀ t b, e.pc.holds? = some (t, b) → e.request = holdRequest t b

section Fits

variable {own : TaskId} {i j : Nat} {h : Host} {s s' : State} {pc : Pc} {e : Errand}

/-- What is known of a call depends on the state only while it is inside the guard. -/
theorem Errand.Fits.mono (he : e.Fits s own i)
    (hs : s.inside = some i → s'.inside = some i ∧ s'.tasks = s.tasks) : e.Fits s' own i where
  guarded := fun hg => (hs (he.guarded hg)).1
  held := fun k hk => by
    have hg : e.pc.guarded = true := by rw [hk]; rfl
    rw [flag_of_tasks (hs (he.guarded hg)).2]
    exact he.held k hk
  holds := he.holds

theorem Errand.Fits.of_clear (hp : e.pc.clear = true)
    (hh : ∀ t b, e.pc.holds? = some (t, b) → e.request = holdRequest t b) : e.Fits s own i where
  guarded := fun hg => by
    cases (Pc.clear_iff.mp hp).1.symm.trans hg
  held := fun k hk => by
    rw [hk] at hp
    cases hp
  holds := hh

theorem Errand.Fits.turn (he : e.Fits s own i) (hst : Turn own i s e.pc s' pc)
    (hh : ∀ t b, pc.holds? = some (t, b) → e.pc.holds? = some (t, b)) :
    Errand.Fits s' own i { e with pc } := by
  have holds : ∀ t b, pc.holds? = some (t, b) → e.request = holdRequest t b :=
    fun t b hp => he.holds t b (hh t b hp)
  obtain ⟨info, q, pc⟩ := e
  cases hst with
  | aside _ hc => exact .of_clear hc holds
  | enter => exact ⟨fun _ => rfl, nofun, holds⟩
  | change => exact ⟨fun _ => he.guarded rfl, nofun, holds⟩
  | leave => exact .of_clear (clear_afterUpdate ..) holds
  | checkEnter => exact ⟨fun _ => rfl, nofun, holds⟩
  | held hf => exact ⟨fun _ => he.guarded rfl, fun _ _ => hf, holds⟩
  | free => exact ⟨fun _ => he.guarded rfl, nofun, holds⟩
  | wait => exact ⟨nofun, nofun, holds⟩
  | wake => exact ⟨nofun, nofun, holds⟩
  | pass hc => exact .of_clear hc holds
  | notify => exact ⟨nofun, nofun, holds⟩

/-- Only one thread is inside the guard, and only it changes the table. -/
theorem Turn.apart (hst : Turn own j s e.pc s' pc) (hj : e.Fits s own j) (hij : i ≠ j)
    (hi : s.inside = some i) : s'.inside = some i ∧ s'.tasks = s.tasks := by
  have out : e.pc.guarded = true → False := fun hg =>
    hij (Option.some.inj (hi.symm.trans (hj.guarded hg)))
  obtain ⟨info, q, pc⟩ := e
  cases hst with
  | aside _ _ ht hs => exact ⟨hs.trans hi, ht⟩
  | enter hn => cases hn.symm.trans hi
  | checkEnter hn => cases hn.symm.trans hi
  | wake => exact ⟨hi, rfl⟩
  | notify => exact ⟨hi, rfl⟩
  | _ => exact (out rfl).elim

end Fits

/-! ## The invariant -/

structure Orderly (task : Nat → TaskId) (s : Scene) : Prop where
  fits : ∀ i e, s.errands i = some e → e.Fits s.shared (task i) i
  asleep : ∀ i ∈ s.shared.sleepers, ∃ e, s.errands i = some e ∧ ∃ k, e.pc = .checkWake k
  attended : ∀ i ∈ s.shared.sleepers,
    s.shared.isSuspended (task i) = true ∨ ∃ j, s.Resuming j (task i)

section Scenes

variable {task : Nat → TaskId} {s t : Scene} {i j : Nat} {e : Errand} {d : Option Errand}
  {u : State} {pc : Pc} {h : Host} {c : Choice}

namespace Scene

theorem put_self (s : Scene) (i : Nat) (d : Option Errand) (u : State) :
    (s.put i d u).errands i = d :=
  Function.update_self ..

theorem put_of_ne (hj : j ≠ i) : (s.put i d u).errands j = s.errands j :=
  Function.update_of_ne hj ..

theorem Resuming.put {q : TaskId} (hr : s.Resuming j q) (hj : j ≠ i) :
    (s.put i d u).Resuming j q := by
  rwa [Resuming, put_of_ne hj]

theorem act_cases (hst : step? task (.act i h) s = some t) :
    ∃ e pc, s.errands i = some e ∧ s.renewed e.pc = false ∧
      (next e.info (task i)).step? (served i h) e.pc s.shared = some (pc, t.shared) ∧
      t = s.put i (some { e with pc }) t.shared := by
  obtain ⟨e, he, hst⟩ := Option.bind_eq_some_iff.mp hst
  obtain ⟨hr, hst⟩ := Option.ite_none_left_eq_some.mp hst
  obtain ⟨⟨pc, u⟩, hp, rfl⟩ := Option.map_eq_some_iff.mp hst
  exact ⟨e, pc, he, Bool.eq_false_of_not_eq_true hr, hp, rfl⟩

theorem renews_of_renewed (hr : s.renewed pc = false) (u : Update) (hp : pc = .change u) :
    u.renews s.shared.tasks = false := by
  rw [hp] at hr
  exact hr

end Scene

namespace Orderly

theorem opened (tasks : List (TaskId × Task)) : Orderly task (Scene.opened tasks) where
  fits := fun _ _ he => nomatch (show none = some _ from he)
  asleep := fun _ hi => nomatch (show _ ∈ [] from hi)
  attended := fun _ hi => nomatch (show _ ∈ [] from hi)

section Acting

variable (hs : Orderly task s) (he : s.errands i = some e) (hr : s.renewed e.pc = false)
  (hst : (next e.info (task i)).step? (served i h) e.pc s.shared = some (pc, u))

include hs he hst

theorem sleepers_turn (hj : j ∈ u.sleepers) : (j ∈ s.shared.sleepers ∧ j ≠ i) ∨
    j = i ∧ ∃ k, e.pc = .checkWait k ∧ pc = .checkWake k := by
  apply (turn_of_step hst).sleepers _ hj
  intro hi
  obtain ⟨d, hd, hk⟩ := hs.asleep i hi
  cases he.symm.trans hd
  exact hk

include hr

theorem turned {q : TaskId} (hu : u.isSuspended q ≠ s.shared.isSuspended q) :
    e.pc = .change (.suspended q (u.isSuspended q)) ∧
      e.request = holdRequest q (u.isSuspended q) := by
  obtain hf | ⟨b, hp, hf⟩ := (turn_of_step hst).flag (Scene.renews_of_renewed hr) q
  · exact absurd hf hu
  · have hb : u.isSuspended q = b := by
      cases hk : s.shared.task? q with
      | some k => simpa [hk] using hf
      | none =>
        have hn : s.shared.isSuspended q = false := by rw [State.isSuspended, hk]; rfl
        rw [hk, Option.isSome_none, Bool.and_false] at hf
        exact absurd (hf.trans hn.symm) hu
    rw [hb]
    exact ⟨hp, (hs.fits i e he).holds q b (by rw [hp]; rfl)⟩

/-- A turn that clears the flag of a task is of a resume that notifies next. -/
theorem cleared {q : TaskId} (hq : s.shared.isSuspended q = true) (hu : u.isSuspended q = false) :
    (s.put i (some { e with pc }) u).Resuming i q := by
  obtain ⟨hp, hreq⟩ := hs.turned he hr hst (q := q) (by simp [hq, hu])
  rw [hu] at hp hreq
  have hk : (s.shared.tasks.lookup q).isSome = true := by
    cases hk : s.shared.tasks.lookup q with
    | some k => rfl
    | none => simp [State.isSuspended, State.task?, hk] at hq
  have ht := turn_of_step hst
  rw [hp] at ht
  refine ⟨_, Scene.put_self .., hreq, .inl ?_⟩
  cases ht with
  | aside ha => cases ha
  | change => exact congrArg _ hk

/-- Whoever sees to a sleeper still does, unless it wakes the sleeper. -/
theorem attended_turn (hj : j ∈ u.sleepers) : u.isSuspended (task j) = true ∨
    ∃ k, (s.put i (some { e with pc }) u).Resuming k (task j) := by
  have ht := turn_of_step hst
  cases hb : u.isSuspended (task j) with
  | true => exact .inl rfl
  | false =>
    refine .inr ?_
    obtain ⟨hm, hn⟩ | ⟨rfl, k, hk, -⟩ := hs.sleepers_turn he hst hj
    · obtain hf | ⟨m, hr'⟩ := hs.attended j hm
      · exact ⟨i, hs.cleared he hr hst hf hb⟩
      · by_cases hi : m = i
        -- The resume itself acts: it leaves the guard, or its notice wakes `j` with all others.
        · subst hi
          obtain ⟨d, hd, hq, hp⟩ := hr'
          cases he.symm.trans hd
          refine ⟨m, _, Scene.put_self .., hq, ?_⟩
          obtain hp | hp := hp <;> rw [hp] at ht
          · cases ht with
            | aside ha => cases ha
            | leave => exact .inr rfl
          · cases ht with
            | aside ha => cases ha
            | notify => cases hj
        · exact ⟨m, hr'.put hi⟩
    -- `j` itself falls asleep. It has been inside the guard since it looked at its flag.
    · have hf := (hs.fits j e he).held k hk
      obtain ⟨hp, -⟩ := hs.turned he hr hst (q := task j) (by simp [hf, hb])
      cases hk.symm.trans hp

theorem turn : Orderly task (s.put i (some { e with pc }) u) where
  fits := fun j d hd => by
    by_cases hj : j = i
    · subst hj
      rw [Scene.put_self] at hd
      cases hd
      exact (hs.fits j e he).turn (turn_of_step hst) fun _ _ => holds_of_step hst
    · rw [Scene.put_of_ne hj] at hd
      exact (hs.fits j d hd).mono ((turn_of_step hst).apart (hs.fits i e he) hj)
  asleep := fun j hj => by
    obtain ⟨hj, hn⟩ | ⟨rfl, k, -, hk⟩ := hs.sleepers_turn he hst hj
    · rw [Scene.put_of_ne hn]
      exact hs.asleep j hj
    · exact ⟨_, Scene.put_self .., k, hk⟩
  attended := fun j hj => hs.attended_turn he hr hst hj

end Acting

theorem replace (hs : Orderly task s) (hm : i ∉ s.shared.sleepers)
    (hr : ∀ q, ¬s.Resuming i q) (hd : ∀ e, d = some e → e.Fits s.shared (task i) i) :
    Orderly task (s.put i d s.shared) where
  fits := fun j e he => by
    by_cases hj : j = i
    · subst hj
      rw [Scene.put_self] at he
      exact hd e he
    · rw [Scene.put_of_ne hj] at he
      exact hs.fits j e he
  asleep := fun j hj => by
    have hne : j ≠ i := fun he => hm (he ▸ (show j ∈ s.shared.sleepers from hj))
    rw [Scene.put_of_ne hne]
    exact hs.asleep j hj
  attended := fun j hj => (hs.attended j hj).imp id fun ⟨k, hk⟩ =>
    ⟨k, hk.put fun he => hr _ (he ▸ hk)⟩

theorem stir (hs : Orderly task s) (i : Nat) :
    Orderly task { s with shared := { s.shared with sleepers := s.shared.sleepers.erase i } } where
  fits := fun j e he => (hs.fits j e he).mono fun hi => ⟨hi, rfl⟩
  asleep := fun j hj => hs.asleep j (List.mem_of_mem_erase hj)
  attended := fun j hj => hs.attended j (List.mem_of_mem_erase hj)

theorem step (hs : Orderly task s) (h : Scene.step? task c s = some t) : Orderly task t := by
  cases c with
  | begin i info q =>
    simp only [Scene.step?] at h
    cases hc : s.errands i with
    | some e =>
      rw [hc] at h
      cases h
    | none =>
      rw [hc] at h
      cases h
      refine hs.replace (fun hm => ?_) (fun q ⟨e, he, _⟩ => nomatch hc.symm.trans he) ?_
      · obtain ⟨e, he, -⟩ := hs.asleep i hm
        cases hc.symm.trans he
      · rintro e he
        cases he
        exact .of_clear (clear_start ..) fun _ _ => holds_of_start
  | act i h' =>
    obtain ⟨e, pc, he, hr, hst, ht⟩ := Scene.act_cases h
    rw [ht]
    exact hs.turn he hr hst
  | stir i =>
    obtain ⟨-, h⟩ := Option.ite_none_right_eq_some.mp h
    cases h
    exact hs.stir i
  | finish i =>
    simp only [Scene.step?] at h
    split at h
    next r hc =>
      cases h
      refine hs.replace (fun hm => ?_) (fun q ⟨e, he, _, hp⟩ => ?_) (fun _ he => nomatch he)
      · obtain ⟨e, he, k, hp⟩ := hs.asleep i hm
        cases hc.symm.trans he
        cases hp
      · cases hc.symm.trans he
        obtain hp | hp := hp <;> cases hp
    next => cases h

theorem run {cs : List Choice} {tasks : List (TaskId × Task)}
    (h : run? (Scene.step? task) cs (Scene.opened tasks) = some s) : Orderly task s :=
  run_keeps (I := Orderly task) (fun _ _ _ hs hst => step hs hst) h (opened tasks)

theorem flag_step (hs : Orderly task s) (h : Scene.step? task c s = some t) (q : TaskId) :
    t.shared.isSuspended q = s.shared.isSuspended q ∨
      s.turns q (t.shared.isSuspended q) c = true := by
  cases c with
  | begin i info r =>
    simp only [Scene.step?] at h
    split at h <;> cases h
    exact .inl rfl
  | act i h' =>
    obtain ⟨e, pc, he, hr, hst, -⟩ := Scene.act_cases h
    by_cases hq : t.shared.isSuspended q = s.shared.isSuspended q
    · exact .inl hq
    · obtain ⟨hp, hreq⟩ := hs.turned he hr hst hq
      exact .inr (by simp [Scene.turns, he, hp, hreq])
  | stir i =>
    obtain ⟨-, h⟩ := Option.ite_none_right_eq_some.mp h
    cases h
    exact .inl rfl
  | finish i =>
    simp only [Scene.step?] at h
    split at h <;> cases h
    exact .inl rfl

theorem flag_kept (hs : Orderly task s) (h : Scene.step? task c s = some t) {q : TaskId} {b : Bool}
    (hq : s.shared.isSuspended q = b) (hn : s.turns q (!b) c = false) :
    t.shared.isSuspended q = b := by
  obtain hf | hf := hs.flag_step h q
  · exact hf.trans hq
  · cases hb : t.shared.isSuspended q <;> cases b <;> simp_all

end Orderly

namespace Scene

theorem errand_step (h : step? task c s = some t) (i : Nat) :
    t.errands i = s.errands i ∨
      (∃ info q, s.errands i = none ∧ t.errands i = some ⟨info, q, start info (task i) q⟩) ∨
      (∃ e pc, s.errands i = some e ∧ t.errands i = some { e with pc } ∧
        Turn (task i) i s.shared e.pc t.shared pc) ∨
      ∃ e r, s.errands i = some e ∧ e.pc = .done r ∧ t.errands i = none := by
  cases c with
  | begin j info q =>
    simp only [step?] at h
    split at h
    next hc =>
      cases h
      by_cases hi : i = j
      · subst hi
        exact .inr (.inl ⟨info, q, hc, put_self ..⟩)
      · exact .inl (put_of_ne hi)
    next => cases h
  | act j h' =>
    obtain ⟨e, pc, he, -, hst, ht⟩ := act_cases h
    rw [ht]
    by_cases hi : i = j
    · subst hi
      exact .inr (.inr (.inl ⟨e, pc, he, put_self .., turn_of_step hst⟩))
    · exact .inl (put_of_ne hi)
  | stir j =>
    obtain ⟨-, h⟩ := Option.ite_none_right_eq_some.mp h
    cases h
    exact .inl rfl
  | finish j =>
    simp only [step?] at h
    split at h
    next info q r hc =>
      cases h
      by_cases hi : i = j
      · subst hi
        exact .inr (.inr (.inr ⟨_, r, hc, rfl, put_self ..⟩))
      · exact .inl (put_of_ne hi)
    next => cases h

theorem parked_step {info : PlatformInfo} {q : Request} (h : step? task c s = some t)
    (hf : s.shared.isSuspended (task i) = true) (hp : s.Parked i info q) :
    t.Parked i info q := by
  obtain ⟨pc, he, hp⟩ := hp
  obtain ht | ⟨_, _, hn, -⟩ | ⟨d, pc, hd, ht, hst⟩ | ⟨d, r, hd, hdone, -⟩ := errand_step h i
  · exact ⟨pc, ht.trans he, hp⟩
  · cases hn.symm.trans he
  · cases hd.symm.trans he
    exact ⟨pc, ht, hst.parks hf hp⟩
  · cases hd.symm.trans he
    rw [show pc = .done r from hdone] at hp
    cases hp

theorem idle_step (h : step? task c s = some t) (hf : s.shared.isSuspended (task i) = false)
    (hi : ∀ e, s.errands i = some e → e.pc.waits = false) :
    ∀ e, t.errands i = some e → e.pc.waits = false := by
  intro e he
  obtain ht | ⟨info, q, -, ht⟩ | ⟨d, pc, hd, ht, hst⟩ | ⟨d, r, -, -, ht⟩ := errand_step h i
  · exact hi e (ht.symm.trans he)
  · cases ht.symm.trans he
    exact (Pc.clear_iff.mp (clear_start ..)).2
  · cases ht.symm.trans he
    exact hst.idle hf (hi d hd)
  · cases ht.symm.trans he

theorem start_parks {info : PlatformInfo} {q : Request} {own : TaskId} (hq : q.checks = true)
    (ho : own ≠ 0) : (start info own q).parks = true := by
  cases q with
  | sleep ms =>
    simp only [start, checkpoint, if_neg ho]
    rfl
  | yield =>
    simp only [start, checkpoint, if_neg ho]
    rfl
  | _ => cases hq

/-- A task is held exactly while it is suspended. A sleep or a yield that is
begun while the flag of its task is set is at its first checkpoint as long as
no resume of that task has cleared the flag, whatever else is done. A task whose
flag is never set never waits. Whoever is asleep and has not been notified has
its flag set, or a resume of its task has cleared the flag and notifies next. -/
theorem tasks_park_exactly {tasks : List (TaskId × Task)} {cs : List Choice}
    (h : run? (step? task) cs (opened tasks) = some s) (i : Nat) :
    (∀ info q during u, q.checks = true → task i ≠ 0 → s.shared.isSuspended (task i) = true →
      run? (step? task) (.begin i info q :: during) s = some u →
      Throughout (step? task) (fun s c _ => s.turns (task i) false c = false)
        (.begin i info q :: during) s →
      u.shared.isSuspended (task i) = true ∧ u.Parked i info q) ∧
    ((opened tasks).shared.isSuspended (task i) = false →
      Throughout (step? task) (fun s c _ => s.turns (task i) true c = false) cs (opened tasks) →
      ¬s.Waits i) ∧
    (i ∈ s.shared.sleepers →
      s.shared.isSuspended (task i) = true ∨ ∃ j, s.Resuming j (task i)) := by
  have hs := Orderly.run h
  refine ⟨fun info q during u hq ho hf hu hn => ?_, fun hf hn => ?_, fun hi => hs.attended i hi⟩
  · obtain ⟨r, hr, hu⟩ := run_cons hu
    obtain ⟨hn, hns⟩ := (throughout_cons hr).mp hn
    have hp : r.Parked i info q := by
      simp only [step?] at hr
      split at hr <;> cases hr
      exact ⟨_, put_self .., start_parks hq ho⟩
    exact (run_keeps_throughout
      (I := fun s => Orderly task s ∧ s.shared.isSuspended (task i) = true ∧ s.Parked i info q)
      (fun s c t hs hst hn => ⟨hs.1.step hst, hs.1.flag_kept hst hs.2.1 hn,
        parked_step hst hs.2.1 hs.2.2⟩) hu hns
      ⟨hs.step hr, hs.flag_kept hr hf hn, hp⟩).2
  · have hk := (run_keeps_throughout
      (I := fun s => Orderly task s ∧ s.shared.isSuspended (task i) = false ∧
        ∀ e, s.errands i = some e → e.pc.waits = false)
      (fun s c t hs hst hn => ⟨hs.1.step hst, hs.1.flag_kept hst hs.2.1 hn,
        idle_step hst hs.2.1 hs.2.2⟩) h hn
      ⟨Orderly.opened tasks, hf, fun _ he => nomatch (show none = some _ from he)⟩).2.2
    rintro (hi | ⟨e, he, hw⟩)
    · obtain ⟨e, he, k, hp⟩ := hs.asleep i hi
      have hw := hk e he
      rw [hp] at hw
      cases hw
    · cases (hk e he).symm.trans hw

def called (q : Request) (n : Nat) : List Choice :=
  .begin 0 defaultInfo q :: List.replicate n (.act 0 ⟨true, true, true⟩)

def oneSuspended : List Choice := called (.suspend 1) 4 ++ [.finish 0]

/-- Task 1 yields and is parked, task 2 is suspended and parked, 1 wakes for no
reason and is parked again, and 3 sleeps undisturbed. Then 2 is resumed up to the
point where it is to be notified. -/
def resumedTwo : List Choice :=
  List.replicate 3 (.act 1 ⟨true, true, true⟩) ++ called (.suspend 2) 4 ++
  .finish 0 :: .begin 2 defaultInfo (.sleep 5) :: List.replicate 3 (.act 2 ⟨true, true, true⟩) ++
  .stir 1 :: List.replicate 4 (.act 1 ⟨true, true, true⟩) ++
  .begin 3 defaultInfo (.sleep 7) :: List.replicate 8 (.act 3 ⟨true, true, true⟩) ++
  called (.resume 2) 4

def threeTasks : List (TaskId × Task) :=
  [(1, ⟨0, false, false⟩), (2, ⟨0, false, false⟩), (3, ⟨0, false, false⟩)]

theorem resumed_two_parks : ∃ s u,
    run? (step? UInt32.ofNat) oneSuspended (opened threeTasks) = some s ∧
    run? (step? UInt32.ofNat) (.begin 1 defaultInfo .yield :: resumedTwo) s = some u ∧
    u.shared.sleepers = [2, 1] ∧ u.shared.isSuspended 2 = false ∧
    u.Parked 1 defaultInfo .yield ∧ ¬u.Waits 3 ∧ ∃ j, u.Resuming j 2 := by
  have ⟨s, u, hs, hu, ht, hl, hf, hq, h1, h3⟩ : ∃ s u,
      run? (step? UInt32.ofNat) oneSuspended (opened threeTasks) = some s ∧
      run? (step? UInt32.ofNat) (.begin 1 defaultInfo .yield :: resumedTwo) s = some u ∧
      run? (step? UInt32.ofNat) (oneSuspended ++ .begin 1 defaultInfo .yield :: resumedTwo)
        (opened threeTasks) = some u ∧
      u.shared.sleepers = [2, 1] ∧ u.shared.isSuspended 2 = false ∧
      s.shared.isSuspended 1 = true ∧
      Throughout (step? UInt32.ofNat) (fun s c _ => s.turns 1 false c = false)
        (.begin 1 defaultInfo .yield :: resumedTwo) s ∧
      Throughout (step? UInt32.ofNat) (fun s c _ => s.turns 3 true c = false)
        (oneSuspended ++ .begin 1 defaultInfo .yield :: resumedTwo) (opened threeTasks) :=
    ⟨_, _, rfl, rfl, rfl, rfl, rfl, rfl, by decide, by decide⟩
  refine ⟨s, u, hs, hu, hl, hf, ?_, ?_, ?_⟩
  · exact ((tasks_park_exactly hs 1).1 defaultInfo .yield resumedTwo u rfl (by decide) hq hu h1).2
  · exact (tasks_park_exactly ht 3).2.1 rfl h3
  · exact ((tasks_park_exactly ht 2).2.2 (by simp [hl])).resolve_left (by simp [hf])

end Scene

end Scenes

end SyncCore.Mock

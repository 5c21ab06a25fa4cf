import Mathlib.Logic.Function.Basic
import SyncCore.Manager.Control
import SyncCore.Manager.Create
import SyncCore.Manager.Destroy
import SyncCore.Manager.Join
import SyncCore.Proofs.Registry.Walk
import SyncCore.Proofs.Run

/-!
# A manager and its threads

Any number of threads are created, joined, controlled, destroyed and dropped,
and each runs its start routine once. On one thread the creator, the routine,
the owner and any number of controlling calls act in any order, one action at
a time. A handle can be joined, destroyed or dropped only by itself; setting
the priority, suspending and resuming share it. The table's mutex does not
fail, so an operation on the table is one action. What the backend answers
and what the thread's function does is left to an oracle. A routine that has
not been spawned may look at its gate, which stays closed.
-/

set_option autoImplicit false

namespace SyncCore.Manager

structure Shared (V : Type) where
  object : ThreadObject V
  joined : Bool
  /-- Whether the backend holds the thread's task suspended. -/
  held : Bool

structure Oracle (V : Type) where
  backend : (c : BackendCall) → c.Answer
  body : Option V

def Oracle.agreeable : Oracle Unit where
  backend
    | .spawn _ => .ok ⟨1, 1⟩
    | .join => .ok ()
    | .detach => .ok ()
    | .setPriority _ => .ok ()
    | .suspend => .ok ()
    | .resume => .ok ()
    | .sleep _ => .ok ()
    | .yield => ()
    | .current => (1 : Handle)
  body := some ()

/-- A suspension or a resumption that succeeds takes effect, one that fails does not. -/
def BackendCall.holds : (c : BackendCall) → c.Answer → Bool → Bool
  | .suspend, .ok _, _ => true
  | .resume, .ok _, _ => false
  | _, _, held => held

section Effects

variable {V : Type}

/-- The effect of an action that concerns the given object. None of the
operations here searches the table. -/
def effect (o : Oracle V) (id : ObjectId) : Effect (interface V) (Table × Shared V)
  | .cell a, (t, s) =>
    some ((a.perform s.object).1, t, { s with object := (a.perform s.object).2 })
  | .backend c, (t, s) => some (o.backend c, t, { s with held := c.holds (o.backend c) s.held })
  | .table .register, (t, s) => (Registry.alone? (.register id) t).map fun r => (r.1, r.2, s)
  | .table .unregister, (t, s) => (Registry.alone? (.unregister id) t).map fun r => (r.1, r.2, s)
  | .table (.find _), _ => none
  | .markJoined, (t, s) => some ((), t, { s with joined := true })
  | .runBody, (t, s) => some (o.body, t, s)
  | .log _, (t, s) => some ((), t, s)

end Effects

inductive Owner (V : Type) where
  | rest
  | joining (native : Bool) (pc : Join.Pc V)
  | destroying (joined : Bool) (pc : Destroy.Pc)
  | dropping (joined : Bool) (pc : Drop.Pc)
  | destroyed
  | dropped

inductive Control where
  | hold (h : Hold) (pc : Hold.Pc)
  | priority (p : Priority) (native : Int32) (pc : SetPriority.Pc)

structure Thread (V : Type) where
  request : Create.Request
  shared : Shared V
  creation : Create.Pc
  routine : Routine.Pc V
  owner : Owner V
  controls : List Control

inductive Party where
  | creator
  | routine
  | owner
  | control (k : Nat)
  deriving DecidableEq

/-- A call on a thread through its handle. Whether the handle is of this
manager and what the backend supports is checked at the start. -/
inductive HandleCall where
  | join (own native : Bool)
  | destroy (own : Bool)
  | drop
  | hold (h : Hold) (own supported : Bool)
  | priority (p : Priority) (native : Int32) (own : Bool)

section Threads

variable {V : Type}

namespace Owner

def atRest : Owner V → Bool
  | .rest => true
  | _ => false

theorem eq_rest {w : Owner V} (h : w.atRest = true) : w = .rest := by
  cases w with
  | rest => rfl
  | _ => cases h

def begin? (joined : Bool) : HandleCall → Option (Owner V)
  | .join own native => some (.joining native (Join.start own joined))
  | .destroy own => some (.destroying joined (Destroy.start own))
  | .drop => some (.dropping joined Drop.start)
  | .hold _ _ _ => none
  | .priority _ _ _ => none

def act? (o : Oracle V) (id : ObjectId) :
    Owner V → Table × Shared V → Option (Owner V × Table × Shared V)
  | .joining native pc, s =>
    ((Join.next id native).step? (effect o id) pc s).map fun r => (.joining native r.1, r.2)
  | .destroying joined pc, s =>
    ((Destroy.next id joined).step? (effect o id) pc s).map fun r => (.destroying joined r.1, r.2)
  | .dropping joined pc, s =>
    ((Drop.next id joined).step? (effect o id) pc s).map fun r => (.dropping joined r.1, r.2)
  | _, _ => none

/-- The owner once its call has ended. A destroy that was refused hands the
handle back. -/
def finish? : Owner V → Option (Owner V)
  | .joining _ (.done _) => some .rest
  | .destroying _ (.done (.ok _)) => some .destroyed
  | .destroying _ (.done (.error _)) => some .rest
  | .dropping _ .done => some .dropped
  | _ => none

end Owner

namespace Control

def begin? : HandleCall → Option Control
  | .hold h own supported => some (.hold h (Hold.start own supported))
  | .priority p native own => some (.priority p native (SetPriority.start own))
  | _ => none

def act? (o : Oracle V) (id : ObjectId) :
    Control → Table × Shared V → Option (Control × Table × Shared V)
  | .hold h pc, s =>
    ((Hold.next id h).step? (effect o id) pc s).map fun r => (.hold h r.1, r.2)
  | .priority p native pc, s =>
    ((SetPriority.next id p native).step? (effect o id) pc s).map fun r =>
      (.priority p native r.1, r.2)

def ended : Control → Bool
  | .hold _ (.done _) => true
  | .priority _ _ (.done _) => true
  | _ => false

end Control

namespace Thread

def new (r : Create.Request) : Thread V :=
  ⟨r, ⟨.ofAttributes r.attributes, false, false⟩, Create.start, Routine.start, .rest, []⟩

def available (th : Thread V) : Bool := th.creation = .done (.ok ()) && th.owner.atRest

theorem of_available {th : Thread V} (h : th.available = true) :
    th.creation = .done (.ok ()) ∧ th.owner = .rest :=
  (Bool.and_eq_true_iff.mp h).imp of_decide_eq_true Owner.eq_rest

def begin? (c : HandleCall) (th : Thread V) : Option (Thread V) :=
  if th.available then
    match Control.begin? c with
    | some k => some { th with controls := k :: th.controls }
    | none =>
      if th.controls.isEmpty then
        (Owner.begin? th.shared.joined c).map fun w => { th with owner := w }
      else none
  else none

def act? (o : Oracle V) (id : ObjectId) (t : Table) (th : Thread V) :
    Party → Option (Table × Thread V)
  | .creator =>
    ((Create.next th.request).step? (effect o id) th.creation (t, th.shared)).map fun r =>
      (r.2.1, { th with creation := r.1, shared := r.2.2 })
  | .routine =>
    ((Routine.next id).step? (effect o id) th.routine (t, th.shared)).map fun r =>
      (r.2.1, { th with routine := r.1, shared := r.2.2 })
  | .owner =>
    (th.owner.act? o id (t, th.shared)).map fun r =>
      (r.2.1, { th with owner := r.1, shared := r.2.2 })
  | .control k =>
    match th.controls[k]? with
    | none => none
    | some c =>
      (c.act? o id (t, th.shared)).map fun r =>
        (r.2.1, { th with controls := th.controls.set k r.1, shared := r.2.2 })

def finish? (th : Thread V) : Party → Option (Thread V)
  | .owner => th.owner.finish?.map fun w => { th with owner := w }
  | .control k =>
    match th.controls[k]? with
    | none => none
    | some c => if c.ended then some { th with controls := th.controls.eraseIdx k } else none
  | _ => none

end Thread

end Threads

/-! ## What a step of one party is -/

section Parties

variable {V : Type} {o : Oracle V} {id : ObjectId} {t t' : Table}

theorem Owner.act_cases {w w' : Owner V} {s s' : Shared V}
    (h : w.act? o id (t, s) = some (w', t', s')) :
    (∃ native pc a resume x, w = .joining native pc ∧ Join.next id native pc = .act a resume ∧
      effect o id a (t, s) = some (x, t', s') ∧ w' = .joining native (resume x)) ∨
    (∃ joined pc a resume x, w = .destroying joined pc ∧
      Destroy.next id joined pc = .act a resume ∧
      effect o id a (t, s) = some (x, t', s') ∧ w' = .destroying joined (resume x)) ∨
    (∃ joined pc a resume x, w = .dropping joined pc ∧ Drop.next id joined pc = .act a resume ∧
      effect o id a (t, s) = some (x, t', s') ∧ w' = .dropping joined (resume x)) := by
  cases w with
  | joining native pc =>
    obtain ⟨⟨pc', r⟩, hs, hp⟩ := Option.map_eq_some_iff.mp h
    cases hp
    obtain ⟨a, resume, x, hn, he, rfl⟩ := Machine.step_cases hs
    exact .inl ⟨native, pc, a, resume, x, rfl, hn, he, rfl⟩
  | destroying joined pc =>
    obtain ⟨⟨pc', r⟩, hs, hp⟩ := Option.map_eq_some_iff.mp h
    cases hp
    obtain ⟨a, resume, x, hn, he, rfl⟩ := Machine.step_cases hs
    exact .inr (.inl ⟨joined, pc, a, resume, x, rfl, hn, he, rfl⟩)
  | dropping joined pc =>
    obtain ⟨⟨pc', r⟩, hs, hp⟩ := Option.map_eq_some_iff.mp h
    cases hp
    obtain ⟨a, resume, x, hn, he, rfl⟩ := Machine.step_cases hs
    exact .inr (.inr ⟨joined, pc, a, resume, x, rfl, hn, he, rfl⟩)
  | rest => cases h
  | destroyed => cases h
  | dropped => cases h

theorem Control.act_cases {c c' : Control} {s s' : Shared V}
    (h : c.act? o id (t, s) = some (c', t', s')) :
    (∃ d pc a resume x, c = .hold d pc ∧ Hold.next id d pc = .act a resume ∧
      effect o id a (t, s) = some (x, t', s') ∧ c' = .hold d (resume x)) ∨
    (∃ q native pc a resume x, c = .priority q native pc ∧
      SetPriority.next id q native pc = .act a resume ∧
      effect o id a (t, s) = some (x, t', s') ∧ c' = .priority q native (resume x)) := by
  cases c with
  | hold d pc =>
    obtain ⟨⟨pc', r⟩, hs, hp⟩ := Option.map_eq_some_iff.mp h
    cases hp
    obtain ⟨a, resume, x, hn, he, rfl⟩ := Machine.step_cases hs
    exact .inl ⟨d, pc, a, resume, x, rfl, hn, he, rfl⟩
  | priority q native pc =>
    obtain ⟨⟨pc', r⟩, hs, hp⟩ := Option.map_eq_some_iff.mp h
    cases hp
    obtain ⟨a, resume, x, hn, he, rfl⟩ := Machine.step_cases hs
    exact .inr ⟨q, native, pc, a, resume, x, rfl, hn, he, rfl⟩

theorem Owner.finish_cases {w w' : Owner V} (h : w.finish? = some w') :
    (∃ native r, w = .joining native (.done r) ∧ w' = .rest) ∨
    (∃ joined u, w = .destroying joined (.done (.ok u)) ∧ w' = .destroyed) ∨
    (∃ joined e, w = .destroying joined (.done (.error e)) ∧ w' = .rest) ∨
    (∃ joined, w = .dropping joined .done ∧ w' = .dropped) := by
  unfold finish? at h
  split at h
  · exact .inl ⟨_, _, rfl, (Option.some.inj h).symm⟩
  · exact .inr (.inl ⟨_, _, rfl, (Option.some.inj h).symm⟩)
  · exact .inr (.inr (.inl ⟨_, _, rfl, (Option.some.inj h).symm⟩))
  · exact .inr (.inr (.inr ⟨_, rfl, (Option.some.inj h).symm⟩))
  · cases h

namespace Thread

variable {th th' : Thread V} {p : Party}

theorem act_cases (h : th.act? o id t p = some (t', th')) :
    (∃ a resume x s', p = .creator ∧ Create.next th.request th.creation = .act a resume ∧
      effect o id a (t, th.shared) = some (x, t', s') ∧
      th' = { th with creation := resume x, shared := s' }) ∨
    (∃ a resume x s', p = .routine ∧ Routine.next id th.routine = .act a resume ∧
      effect o id a (t, th.shared) = some (x, t', s') ∧
      th' = { th with routine := resume x, shared := s' }) ∨
    (∃ w s', p = .owner ∧ th.owner.act? o id (t, th.shared) = some (w, t', s') ∧
      th' = { th with owner := w, shared := s' }) ∨
    (∃ k c c' s', p = .control k ∧ th.controls[k]? = some c ∧
      c.act? o id (t, th.shared) = some (c', t', s') ∧
      th' = { th with controls := th.controls.set k c', shared := s' }) := by
  cases p with
  | creator =>
    obtain ⟨⟨pc, t₁, s'⟩, hs, hp⟩ := Option.map_eq_some_iff.mp h
    cases hp
    obtain ⟨a, resume, x, hn, he, rfl⟩ := Machine.step_cases hs
    exact .inl ⟨a, resume, x, s', rfl, hn, he, rfl⟩
  | routine =>
    obtain ⟨⟨pc, t₁, s'⟩, hs, hp⟩ := Option.map_eq_some_iff.mp h
    cases hp
    obtain ⟨a, resume, x, hn, he, rfl⟩ := Machine.step_cases hs
    exact .inr (.inl ⟨a, resume, x, s', rfl, hn, he, rfl⟩)
  | owner =>
    obtain ⟨⟨w, t₁, s'⟩, hs, hp⟩ := Option.map_eq_some_iff.mp h
    cases hp
    exact .inr (.inr (.inl ⟨w, s', rfl, hs, rfl⟩))
  | control k =>
    cases hc : th.controls[k]? with
    | none => simp [act?, hc] at h
    | some c =>
      simp only [act?, hc] at h
      obtain ⟨⟨c', t₁, s'⟩, hs, hp⟩ := Option.map_eq_some_iff.mp h
      cases hp
      exact .inr (.inr (.inr ⟨k, c, c', s', rfl, hc, hs, rfl⟩))

theorem begin_cases {c : HandleCall} (h : th.begin? c = some th') :
    th.creation = .done (.ok ()) ∧ th.owner.atRest = true ∧
    ((∃ k, Control.begin? c = some k ∧ th' = { th with controls := k :: th.controls }) ∨
      (th.controls = [] ∧ ∃ w, Owner.begin? th.shared.joined c = some w ∧
        th' = { th with owner := w })) := by
  unfold begin? at h
  by_cases hv : th.available = true
  · rw [if_pos hv] at h
    simp only [available, Bool.and_eq_true, decide_eq_true_eq] at hv
    refine ⟨hv.1, hv.2, ?_⟩
    cases hk : Control.begin? c with
    | some k =>
      rw [hk] at h
      exact .inl ⟨k, rfl, (Option.some.inj h).symm⟩
    | none =>
      simp only [hk, Option.ite_none_right_eq_some] at h
      obtain ⟨w, hw, rfl⟩ := Option.map_eq_some_iff.mp h.2
      exact .inr ⟨List.isEmpty_iff.mp h.1, w, hw, rfl⟩
  · rw [if_neg hv] at h
    cases h

theorem finish_cases (h : th.finish? p = some th') :
    (∃ w, th.owner.finish? = some w ∧ th' = { th with owner := w }) ∨
    (∃ k c, th.controls[k]? = some c ∧ c.ended = true ∧
      th' = { th with controls := th.controls.eraseIdx k }) := by
  cases p with
  | creator => cases h
  | routine => cases h
  | owner =>
    obtain ⟨w, hw, rfl⟩ := Option.map_eq_some_iff.mp h
    exact .inl ⟨w, hw, rfl⟩
  | control k =>
    cases hc : th.controls[k]? with
    | none => simp [finish?, hc] at h
    | some c =>
      simp only [finish?, hc, Option.ite_none_right_eq_some] at h
      exact .inr ⟨k, c, hc, h.1, (Option.some.inj h.2).symm⟩

theorem finish_control {i : Nat} (h : th.finish? (.control i) = some th') :
    th' = { th with controls := th'.controls } := by
  cases hi : th.controls[i]? with
  | none => simp [finish?, hi] at h
  | some c =>
    simp only [finish?, hi, Option.ite_none_right_eq_some] at h
    cases h.2
    rfl

end Thread

end Parties

structure World (V : Type) where
  table : Table
  threads : ObjectId → Option (Thread V)

inductive Choice (V : Type) where
  | create (r : Create.Request)
  | begin (id : ObjectId) (c : HandleCall)
  | act (id : ObjectId) (p : Party) (o : Oracle V)
  | finish (id : ObjectId) (p : Party)

def Choice.target {V : Type} : Choice V → ObjectId
  | .create r => r.id
  | .begin id _ => id
  | .act id _ _ => id
  | .finish id _ => id

namespace World

variable {V : Type} {w u : World V}

def initial (capacity : Nat) : World V := ⟨Table.free capacity, fun _ => none⟩

def put (w : World V) (id : ObjectId) (th : Thread V) (t : Table) : World V :=
  ⟨t, Function.update w.threads id (some th)⟩

/-- Objects are created with numbers that are not in use. -/
def step? : Choice V → World V → Option (World V)
  | .create r, w =>
    match w.threads r.id with
    | none => some (w.put r.id (.new r) w.table)
    | some _ => none
  | .begin id c, w => (w.threads id).bind fun th => (th.begin? c).map fun th => w.put id th w.table
  | .act id p o, w =>
    (w.threads id).bind fun th => (th.act? o id w.table p).map fun r => w.put id r.2 r.1
  | .finish id p, w =>
    (w.threads id).bind fun th => (th.finish? p).map fun th => w.put id th w.table

theorem step_create {r : Create.Request} (h : step? (.create r) w = some u) :
    w.threads r.id = none ∧ u = w.put r.id (.new r) w.table := by
  cases ht : w.threads r.id with
  | none =>
    simp only [step?, ht, Option.some.injEq] at h
    exact ⟨rfl, h.symm⟩
  | some th => simp [step?, ht] at h

theorem step_begin {id : ObjectId} {c : HandleCall} (h : step? (.begin id c) w = some u) :
    ∃ th th', w.threads id = some th ∧ th.begin? c = some th' ∧ u = w.put id th' w.table := by
  obtain ⟨th, ht, h⟩ := Option.bind_eq_some_iff.mp h
  obtain ⟨th', hb, rfl⟩ := Option.map_eq_some_iff.mp h
  exact ⟨th, th', ht, hb, rfl⟩

theorem step_act {id : ObjectId} {p : Party} {o : Oracle V}
    (h : step? (.act id p o) w = some u) :
    ∃ th t th', w.threads id = some th ∧ th.act? o id w.table p = some (t, th') ∧
      u = w.put id th' t := by
  obtain ⟨th, ht, h⟩ := Option.bind_eq_some_iff.mp h
  obtain ⟨⟨t, th'⟩, ha, rfl⟩ := Option.map_eq_some_iff.mp h
  exact ⟨th, t, th', ht, ha, rfl⟩

theorem step_finish {id : ObjectId} {p : Party} (h : step? (.finish id p) w = some u) :
    ∃ th th', w.threads id = some th ∧ th.finish? p = some th' ∧ u = w.put id th' w.table := by
  obtain ⟨th, ht, h⟩ := Option.bind_eq_some_iff.mp h
  obtain ⟨th', hf, rfl⟩ := Option.map_eq_some_iff.mp h
  exact ⟨th, th', ht, hf, rfl⟩

theorem step_target {c : Choice V} (h : step? c w = some u) (id : ObjectId) :
    (u.threads id = w.threads id ∧ c.target ≠ id) ∨
    (∃ r, w.threads id = none ∧ u.threads id = some (.new r) ∧ c = .create r ∧ r.id = id) ∨
    (∃ th th' k, w.threads id = some th ∧ u.threads id = some th' ∧ c = .begin id k ∧
      th.begin? k = some th') ∨
    (∃ th th' p o t, w.threads id = some th ∧ u.threads id = some th' ∧ c = .act id p o ∧
      th.act? o id w.table p = some (t, th')) ∨
    (∃ th th' p, w.threads id = some th ∧ u.threads id = some th' ∧ c = .finish id p ∧
      th.finish? p = some th') := by
  cases c with
  | create r =>
    obtain ⟨hn, rfl⟩ := step_create h
    by_cases he : r.id = id
    · subst he
      exact .inr (.inl ⟨r, hn, by simp [put], rfl, rfl⟩)
    · exact .inl ⟨by simp [put, Function.update_of_ne (Ne.symm he)], he⟩
  | begin q k =>
    obtain ⟨th, th', hq, hb, rfl⟩ := step_begin h
    by_cases he : q = id
    · subst he
      exact .inr (.inr (.inl ⟨th, th', k, hq, by simp [put], rfl, hb⟩))
    · exact .inl ⟨by simp [put, Function.update_of_ne (Ne.symm he)], he⟩
  | act q p o =>
    obtain ⟨th, t, th', hq, ha, rfl⟩ := step_act h
    by_cases he : q = id
    · subst he
      exact .inr (.inr (.inr (.inl ⟨th, th', p, o, t, hq, by simp [put], rfl, ha⟩)))
    · exact .inl ⟨by simp [put, Function.update_of_ne (Ne.symm he)], he⟩
  | finish q p =>
    obtain ⟨th, th', hq, hf, rfl⟩ := step_finish h
    by_cases he : q = id
    · subst he
      exact .inr (.inr (.inr (.inr ⟨th, th', p, hq, by simp [put], rfl, hf⟩)))
    · exact .inl ⟨by simp [put, Function.update_of_ne (Ne.symm he)], he⟩

theorem step_thread {c : Choice V} (h : step? c w = some u) (id : ObjectId) :
    (u.threads id = w.threads id ∧ ∀ p o, c ≠ .act id p o) ∨
    (∃ r, w.threads id = none ∧ u.threads id = some (.new r) ∧ c = .create r) ∨
    (∃ th th' k, w.threads id = some th ∧ u.threads id = some th' ∧ c = .begin id k ∧
      th.begin? k = some th') ∨
    (∃ th th' p o t, w.threads id = some th ∧ u.threads id = some th' ∧ c = .act id p o ∧
      th.act? o id w.table p = some (t, th')) ∨
    (∃ th th' p, w.threads id = some th ∧ u.threads id = some th' ∧ c = .finish id p ∧
      th.finish? p = some th') :=
  (step_target h id).imp (fun ⟨he, hc⟩ => ⟨he, fun _ _ h => hc (congrArg Choice.target h)⟩)
    (.imp_left fun ⟨r, hn, hu, hc, _⟩ => ⟨r, hn, hu, hc⟩)

theorem threads_keep {I : Thread V → Prop} {c : Choice V}
    (hw : ∀ id th, w.threads id = some th → I th) (h : step? c w = some u) (new : ∀ r, I (.new r))
    (begin : ∀ {th th' c}, I th → th.begin? c = some th' → I th')
    (act : ∀ {id th th' p o t}, w.threads id = some th → I th →
      th.act? o id w.table p = some (t, th') → I th')
    (finish : ∀ {th th' p}, I th → th.finish? p = some th' → I th') :
    ∀ id th, u.threads id = some th → I th := by
  intro id th hu
  obtain ⟨he, -⟩ | ⟨r, -, ht, -⟩ | ⟨tq, th', k, hq, ht, -, hb⟩ |
    ⟨tq, th', p, o, t, hq, ht, -, ha⟩ | ⟨tq, th', p, hq, ht, -, hf⟩ := step_target h id
  · exact hw id th (he ▸ hu)
  · cases ht.symm.trans hu
    exact new r
  · cases ht.symm.trans hu
    exact begin (hw id tq hq) hb
  · cases ht.symm.trans hu
    exact act hq (hw id tq hq) ha
  · cases ht.symm.trans hu
    exact finish (hw id tq hq) hf

end World

end SyncCore.Manager

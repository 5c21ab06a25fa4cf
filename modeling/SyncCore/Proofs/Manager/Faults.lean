import SyncCore.Proofs.Manager.Actions
import SyncCore.Proofs.Registry.Calls

/-!
# Managers under a failing mutex

The mutex that guards a manager's table may fail like anything else of the
backend: it cannot be taken, or it reports a failure after it has been given
back. Every step of a manager's threads is an action of one party, and what it
comes to is told by the surroundings of that step.
-/

set_option autoImplicit false

namespace SyncCore

namespace Next

variable {I : Interface} {Pc Pc' Res : Type}

def onto (f : Pc → Pc') : Next I Pc Res → Next I Pc' Unit
  | .done _ => .done ()
  | .act a resume => .act a fun x => f (resume x)

theorem onto_act {f : Pc → Pc'} {n : Next I Pc Res} {a : I.Action} {resume : I.Answer a → Pc'}
    (h : n.onto f = .act a resume) : ∃ r, n = .act a r ∧ resume = fun x => f (r x) := by
  cases n with
  | done r => cases h
  | act b r =>
    cases h
    exact ⟨r, rfl, rfl⟩

@[simp]
theorem action_onto (f : Pc → Pc') (n : Next I Pc Res) : (n.onto f).action? = n.action? := by
  cases n <;> rfl

end Next

namespace Manager

variable {V : Type}

/-! ## Turns of a party -/

def Owner.next (id : ObjectId) : Owner V → Next (interface V) (Owner V) Unit
  | .joining native pc => (Join.next id native pc).onto (.joining native)
  | .destroying joined pc => (Destroy.next id joined pc).onto (.destroying joined)
  | .dropping joined pc => (Drop.next id joined pc).onto (.dropping joined)
  | _ => .done ()

def Control.next (id : ObjectId) : Control → Next (interface V) Control Unit
  | .hold h pc => (Hold.next id h pc).onto (.hold h)
  | .priority p native pc => (SetPriority.next id p native pc).onto (.priority p native)

namespace Thread

def next (id : ObjectId) (th : Thread V) : Party → Next (interface V) (Thread V) Unit
  | .creator => (Create.next th.request th.creation).onto fun pc => { th with creation := pc }
  | .routine => (Routine.next id th.routine).onto fun pc => { th with routine := pc }
  | .owner => (th.owner.next id).onto fun w => { th with owner := w }
  | .control k =>
    match th.controls[k]? with
    | none => .done ()
    | some c => (c.next id).onto fun c => { th with controls := th.controls.set k c }

def perform? (effect : Effect (interface V) (Table × Shared V)) (id : ObjectId) (t : Table)
    (th : Thread V) (p : Party) : Option (Table × Thread V) :=
  match th.next id p with
  | .done _ => none
  | .act a resume =>
    (effect a (t, th.shared)).map fun r => (r.2.1, { resume r.1 with shared := r.2.2 })

variable {effect : Effect (interface V) (Table × Shared V)} {id : ObjectId} {t t' : Table}
  {th th' : Thread V} {p : Party}

theorem action_next (id : ObjectId) (th : Thread V) (p : Party) :
    (th.next id p).action? = th.action? id p := by
  cases p with
  | creator => rw [next, Next.action_onto, action?]
  | routine => rw [next, Next.action_onto, action?]
  | owner =>
    rw [next, Next.action_onto, action?]
    cases th.owner <;> first | rfl | exact Next.action_onto ..
  | control k =>
    simp only [next, action?]
    cases th.controls[k]? with
    | none => rfl
    | some c =>
      rw [Next.action_onto, Option.bind_some]
      cases c <;> exact Next.action_onto ..

theorem perform_cases (h : th.perform? effect id t p = some (t', th')) :
    ∃ (a : Action V) (x : a.Answer) (s' : Shared V), th.action? id p = some a ∧
      effect a (t, th.shared) = some (x, t', s') ∧
      ((∃ r : a.Answer → Create.Pc, p = .creator ∧ Create.next th.request th.creation = .act a r ∧
          th' = { th with creation := r x, shared := s' }) ∨
        (∃ r : a.Answer → Routine.Pc V, p = .routine ∧ Routine.next id th.routine = .act a r ∧
          th' = { th with routine := r x, shared := s' }) ∨
        (∃ r : a.Answer → Owner V, p = .owner ∧ th.owner.next id = .act a r ∧
          th' = { th with owner := r x, shared := s' }) ∨
        (∃ k c, p = .control k ∧
          th' = { th with controls := th.controls.set k c, shared := s' })) := by
  unfold perform? at h
  cases hn : th.next id p with
  | done r =>
    rw [hn] at h
    cases h
  | act a resume =>
    rw [hn] at h
    obtain ⟨⟨x, u, s'⟩, he, hp⟩ := Option.map_eq_some_iff.mp h
    cases hp
    refine ⟨a, x, s', by rw [← action_next, hn]; rfl, he, ?_⟩
    cases p with
    | creator =>
      rw [next] at hn
      obtain ⟨r, hr, rfl⟩ := Next.onto_act hn
      exact .inl ⟨r, rfl, hr, rfl⟩
    | routine =>
      rw [next] at hn
      obtain ⟨r, hr, rfl⟩ := Next.onto_act hn
      exact .inr (.inl ⟨r, rfl, hr, rfl⟩)
    | owner =>
      rw [next] at hn
      obtain ⟨r, hr, rfl⟩ := Next.onto_act hn
      exact .inr (.inr (.inl ⟨r, rfl, hr, rfl⟩))
    | control k =>
      simp only [next] at hn
      cases hc : th.controls[k]? with
      | none =>
        rw [hc] at hn
        cases hn
      | some c =>
        rw [hc] at hn
        obtain ⟨r, -, rfl⟩ := Next.onto_act hn
        exact .inr (.inr (.inr ⟨k, r x, rfl, rfl⟩))

theorem perform_control {k : Nat} (h : th.perform? effect id t (.control k) = some (t', th')) :
    ∃ (c : Control) (a : Action V) (r : a.Answer → Control) (x : a.Answer) (s' : Shared V),
      th.controls[k]? = some c ∧ c.next id = .act a r ∧ th.action? id (.control k) = some a ∧
      effect a (t, th.shared) = some (x, t', s') ∧
      th' = { th with controls := th.controls.set k (r x), shared := s' } := by
  rw [← action_next]
  unfold perform? at h
  simp only [next] at h
  cases hc : th.controls[k]? with
  | none =>
    rw [hc] at h
    cases h
  | some c =>
    rw [hc] at h
    simp only at h
    simp only [next, hc]
    cases hn : c.next (V := V) id with
    | done r =>
      rw [hn] at h
      cases h
    | act a r =>
      rw [hn] at h
      obtain ⟨⟨x, u, s'⟩, he, hp⟩ := Option.map_eq_some_iff.mp h
      cases hp
      exact ⟨c, a, r, x, s', rfl, hn, rfl, he, rfl⟩

/-- Without failures of the mutex a step is what it is in a manager's world. -/
theorem act_eq (o : Oracle V) (id : ObjectId) (t : Table) (th : Thread V) (p : Party) :
    th.act? o id t p = th.perform? (Manager.effect o id) id t p := by
  cases p with
  | creator =>
    simp only [act?, perform?, next, Machine.step?]
    cases Create.next th.request th.creation <;> simp [Next.onto, Function.comp_def]
  | routine =>
    simp only [act?, perform?, next, Machine.step?]
    cases Routine.next id th.routine <;> simp [Next.onto, Function.comp_def]
  | owner =>
    simp only [act?, perform?, next]
    cases th.owner with
    | joining native pc =>
      simp only [Owner.act?, Owner.next, Machine.step?]
      cases Join.next id native pc <;> simp [Next.onto, Function.comp_def]
    | destroying joined pc =>
      simp only [Owner.act?, Owner.next, Machine.step?]
      cases Destroy.next (V := V) id joined pc <;> simp [Next.onto, Function.comp_def]
    | dropping joined pc =>
      simp only [Owner.act?, Owner.next, Machine.step?]
      cases Drop.next (V := V) id joined pc <;> simp [Next.onto, Function.comp_def]
    | _ => rfl
  | control k =>
    simp only [act?, perform?, next]
    cases th.controls[k]? with
    | none => rfl
    | some c =>
      cases c with
      | hold h pc =>
        simp only [Control.act?, Control.next, Machine.step?]
        cases Hold.next (V := V) id h pc <;> simp [Next.onto, Function.comp_def]
      | priority q native pc =>
        simp only [Control.act?, Control.next, Machine.step?]
        cases SetPriority.next (V := V) id q native pc <;> simp [Next.onto, Function.comp_def]

end Thread

/-! ## The surroundings of a step -/

structure Setting (V : Type) extends Oracle V where
  latch : Registry.Latch

def Oracle.steady (o : Oracle V) : Setting V := ⟨o, .working⟩

def attempt? (l : Registry.Latch) (op : Registry.Op) (t : Table) :
    Option (Outcome Unit × Table) :=
  match Registry.call? l (fun _ => true) (fun _ => none) op t with
  | some (.outcome r, u) => some (r, u)
  | _ => none

def settled (l : Registry.Latch) (t : Table) (r : Outcome Table) : Outcome Unit × Table :=
  match l.lock, l.unlock with
  | .error e, _ => (.error e, t)
  | .ok _, .error e => (.error e, (Registry.settle t r).2)
  | .ok _, .ok _ => Registry.settle t r

theorem attempt_register (l : Registry.Latch) (id : ObjectId) (t : Table) :
    attempt? l (.register id) t = some (settled l t (t.register id)) := by
  rw [attempt?, Registry.call_eq, settled, Registry.Latch.settle]
  cases l.lock with
  | error e => rfl
  | ok u =>
    simp only [Registry.Latch.answer]
    cases l.unlock <;> rfl

theorem attempt_unregister (l : Registry.Latch) (id : ObjectId) (t : Table) :
    attempt? l (.unregister id) t = some (settled l t (t.unregister id)) := by
  rw [attempt?, Registry.call_eq, settled, Registry.Latch.settle]
  cases l.lock with
  | error e => rfl
  | ok u =>
    simp only [Registry.Latch.answer]
    cases l.unlock <;> rfl

/-- The table is left as it was and the call fails, or the mutex was taken and
the work is done, whatever is said of it in the end. -/
theorem settled_cases {l : Registry.Latch} {t t' : Table} {r : Outcome Table} {x : Outcome Unit}
    (h : settled l t r = (x, t')) :
    (t' = t ∧ ∃ e, x = .error e) ∨ (l.lock = .ok () ∧ r = .ok t' ∧ x = l.unlock) := by
  unfold settled at h
  cases hl : l.lock with
  | error e =>
    rw [hl] at h
    cases h
    exact .inl ⟨rfl, e, rfl⟩
  | ok u =>
    rw [hl] at h
    cases r with
    | error k =>
      left
      cases hu : l.unlock <;> rw [hu] at h <;> cases h
      · exact ⟨rfl, _, rfl⟩
      · exact ⟨rfl, _, rfl⟩
    | ok v =>
      right
      cases hu : l.unlock <;> rw [hu] at h <;> cases h
      · exact ⟨rfl, rfl, rfl⟩
      · exact ⟨rfl, rfl, rfl⟩

def Setting.effect (e : Setting V) (id : ObjectId) : Effect (interface V) (Table × Shared V)
  | .table .register, (t, s) => (attempt? e.latch (.register id) t).map fun r => (r.1, r.2, s)
  | .table .unregister, (t, s) => (attempt? e.latch (.unregister id) t).map fun r => (r.1, r.2, s)
  | a, s => Manager.effect e.toOracle id a s

theorem effect_steady_setting (o : Oracle V) (id : ObjectId) :
    o.steady.effect id = Manager.effect o id := by
  funext a ⟨t, s⟩
  cases a with
  | table c =>
    cases c with
    | register =>
      simp only [Setting.effect, Manager.effect, attempt_register, Registry.alone_register]
      rfl
    | unregister =>
      simp only [Setting.effect, Manager.effect, attempt_unregister, Registry.alone_unregister]
      rfl
    | find h => rfl
  | _ => rfl

section Effects

variable {e : Setting V} {id : ObjectId} {t t' : Table} {s s' : Shared V}

theorem Setting.effect_register {x : Outcome Unit}
    (h : e.effect id (.table .register) (t, s) = some (x, t', s')) :
    s' = s ∧ settled e.latch t (t.register id) = (x, t') := by
  simp only [Setting.effect, attempt_register, Option.map_some] at h
  cases h
  exact ⟨rfl, rfl⟩

theorem Setting.effect_unregister {x : Outcome Unit}
    (h : e.effect id (.table .unregister) (t, s) = some (x, t', s')) :
    s' = s ∧ settled e.latch t (t.unregister id) = (x, t') := by
  simp only [Setting.effect, attempt_unregister, Option.map_some] at h
  cases h
  exact ⟨rfl, rfl⟩

theorem Setting.effect_framed {a : Action V} {x : a.Answer} (hs : t.Single)
    (h : e.effect id a (t, s) = some (x, t', s')) : Framed id t t' := by
  have hr : Framed id t t := ⟨rfl, hs, fun _ _ => Iff.rfl⟩
  cases a with
  | table c =>
    cases c with
    | register =>
      obtain ⟨rfl, -⟩ | ⟨-, hr, -⟩ := settled_cases (effect_register h).2
      · exact hr
      · exact ⟨Table.register_length hr, Table.single_register hs hr, fun p hp => by
          rw [Table.mem_register hr, or_iff_left hp]⟩
    | unregister =>
      obtain ⟨rfl, -⟩ | ⟨-, hr, -⟩ := settled_cases (effect_unregister h).2
      · exact hr
      · exact ⟨Table.unregister_length hr, Table.single_unregister hs hr, fun p hp => by
          rw [Table.mem_unregister hs hr, and_iff_left hp]⟩
    | find => cases h
  | _ =>
    cases h
    exact hr

end Effects

/-! ## Steps of a manager -/

inductive Move (V : Type) where
  | create (r : Create.Request)
  | begin (id : ObjectId) (c : HandleCall)
  | act (id : ObjectId) (p : Party) (e : Setting V)
  | finish (id : ObjectId) (p : Party)

def Move.target : Move V → ObjectId
  | .create r => r.id
  | .begin id _ => id
  | .act id _ _ => id
  | .finish id _ => id

def Choice.move : Choice V → Move V
  | .create r => .create r
  | .begin id c => .begin id c
  | .act id p o => .act id p o.steady
  | .finish id p => .finish id p

namespace World

variable {w u : World V}

def move? : Move V → World V → Option (World V)
  | .create r, w =>
    match w.threads r.id with
    | none => some (w.put r.id (.new r) w.table)
    | some _ => none
  | .begin id c, w => (w.threads id).bind fun th => (th.begin? c).map fun th => w.put id th w.table
  | .act id p e, w =>
    (w.threads id).bind fun th =>
      (th.perform? (e.effect id) id w.table p).map fun r => w.put id r.2 r.1
  | .finish id p, w =>
    (w.threads id).bind fun th => (th.finish? p).map fun th => w.put id th w.table

theorem move_choice (c : Choice V) (w : World V) : move? c.move w = step? c w := by
  cases c with
  | act id p o => simp only [Choice.move, move?, step?, effect_steady_setting, Thread.act_eq]
  | _ => rfl

theorem run_move (cs : List (Choice V)) (w : World V) :
    run? move? (cs.map Choice.move) w = run? step? cs w := by
  induction cs generalizing w with
  | nil => rfl
  | cons c cs ih =>
    simp only [List.map_cons, run?, move_choice]
    cases step? c w with
    | none => rfl
    | some u => exact ih u

@[simp]
theorem threads_put (w : World V) (id : ObjectId) (th : Thread V) (t : Table) :
    (w.put id th t).threads id = some th :=
  Function.update_self ..

theorem threads_put_of_ne (w : World V) {id q : ObjectId} (hq : q ≠ id) (th : Thread V) (t : Table) :
    (w.put id th t).threads q = w.threads q :=
  Function.update_of_ne hq ..

theorem put_put (w : World V) (id : ObjectId) (a b : Thread V) (t u : Table) :
    (w.put id a t).put id b u = w.put id b u := by
  simp only [put, Function.update_idem]

theorem put_back {id : ObjectId} {th : Thread V} (ht : w.threads id = some th) (t : Table) :
    (w.put id th t).threads = w.threads := by
  rw [put, ← ht, Function.update_eq_self]

inductive Moved (w : World V) : Move V → Option (Thread V) → Thread V → Table → Prop where
  | create {r : Create.Request} : Moved w (.create r) none (.new r) w.table
  | begin {id : ObjectId} {c : HandleCall} {th th' : Thread V} :
    th.begin? c = some th' → Moved w (.begin id c) (some th) th' w.table
  | act {id : ObjectId} {p : Party} {e : Setting V} {th th' : Thread V} {t : Table} :
    th.perform? (e.effect id) id w.table p = some (t, th') →
    Moved w (.act id p e) (some th) th' t
  | finish {id : ObjectId} {p : Party} {th th' : Thread V} :
    th.finish? p = some th' → Moved w (.finish id p) (some th) th' w.table

theorem move_cases {c : Move V} (h : move? c w = some u) :
    ∃ th t, Moved w c (w.threads c.target) th t ∧ u = w.put c.target th t := by
  cases c with
  | create r =>
    simp only [move?] at h
    simp only [Move.target]
    cases ht : w.threads r.id with
    | none =>
      rw [ht] at h
      cases h
      exact ⟨_, _, .create, rfl⟩
    | some th =>
      rw [ht] at h
      cases h
  | begin id k =>
    obtain ⟨th, ht, h⟩ := Option.bind_eq_some_iff.mp h
    obtain ⟨th', hb, rfl⟩ := Option.map_eq_some_iff.mp h
    exact ⟨th', w.table, by rw [Move.target, ht]; exact .begin hb, rfl⟩
  | act id p e =>
    obtain ⟨th, ht, h⟩ := Option.bind_eq_some_iff.mp h
    obtain ⟨⟨t, th'⟩, ha, rfl⟩ := Option.map_eq_some_iff.mp h
    exact ⟨th', t, by rw [Move.target, ht]; exact .act ha, rfl⟩
  | finish id p =>
    obtain ⟨th, ht, h⟩ := Option.bind_eq_some_iff.mp h
    obtain ⟨th', hf, rfl⟩ := Option.map_eq_some_iff.mp h
    exact ⟨th', w.table, by rw [Move.target, ht]; exact .finish hf, rfl⟩

theorem move_target {c : Move V} (h : move? c w = some u) (id : ObjectId) :
    (u.threads id = w.threads id ∧ c.target ≠ id) ∨
      (c.target = id ∧ ∃ th t, Moved w c (w.threads id) th t ∧ u = w.put id th t) := by
  obtain ⟨th, t, hm, rfl⟩ := move_cases h
  by_cases he : c.target = id
  · subst he
    exact .inr ⟨rfl, th, t, hm, rfl⟩
  · exact .inl ⟨threads_put_of_ne w (fun hq => he hq.symm) th t, he⟩

theorem Moved.framed {c : Move V} {o : Option (Thread V)} {th : Thread V} {t : Table}
    (hs : w.table.Single) (h : Moved w c o th t) : Framed c.target w.table t := by
  cases h with
  | act ha =>
    obtain ⟨a, x, s', -, he, -⟩ := Thread.perform_cases ha
    exact Setting.effect_framed hs he
  | _ => exact ⟨rfl, hs, fun _ _ => Iff.rfl⟩

end World

end Manager

end SyncCore

import SyncCore.Proofs.Mutex.Custody
import SyncCore.Proofs.Registry.Calls

/-!
# Clients of one table

Any number of clients share a table and its mutex over any raw lock. A client
is in one operation at most, and makes one raw call, one access to the status
or one access to a slot at a time. Which objects are alive and what their
handles are is not up to the table and may be different at every action.

The raw lock is acquired in a certain order. Each acquisition opens a tenure,
and what the surroundings were at each action of its operation is written
down, so that the operation can be carried out again by itself.
-/

set_option autoImplicit false

namespace SyncCore.Registry

structure Surroundings where
  alive : ObjectId → Bool
  handleOf : ObjectId → Option Handle

/-! ## One operation by itself -/

section Alone

variable (capacity : Nat)

/-- One action of an operation that has the table to itself. At its end it stays. -/
def advance (p : Pc × Table) (w : Surroundings) : Pc × Table :=
  ((next capacity).step? (callEffect .working w.alive w.handleOf) p.1 p.2).getD p

def alone (op : Op) (seen : List Surroundings) (t : Table) : Pc × Table :=
  seen.foldl (advance capacity) (start op, t)

end Alone

/-! ## The clients -/

structure Visit where
  op : Op
  pc : Pc
  seen : List Surroundings
  /-- Its place in the order of the acquisitions, once it has the lock. -/
  place : Option Nat

structure Tenure (n : Nat) where
  client : Fin n
  op : Op
  seen : List Surroundings

structure Answer (n : Nat) where
  client : Fin n
  op : Op
  place : Option Nat
  reply : Reply
  deriving DecidableEq

structure Hall (R : Type) (n : Nat) where
  mutex : Mutex.State R
  table : Table
  visits : Fin n → Option Visit
  tenures : List (Tenure n)
  answers : List (Answer n)

inductive Choice (Hint : Type) (n : Nat) where
  | begin (i : Fin n) (op : Op)
  | act (i : Fin n) (hint : Hint) (w : Surroundings)
  | finish (i : Fin n)

variable {Hint R : Type} {n : Nat}

def sharedEffect (call : RawCalls Hint R) (hint : Hint) (w : Surroundings) :
    Effect interface (Mutex.State R × Table)
  | .mutex a, (m, t) => (Mutex.effect call hint a m).map fun r => (r.1, r.2, t)
  | .readSlot i, (m, t) => some (t[i]?.join, m, t)
  | .writeSlot i v, (m, t) => some ((), m, t.set i v)
  | .isAlive o, s => some (w.alive o, s)
  | .handleOf o, s => some (w.handleOf o, s)
  | .hold o, s => some (w.alive o, s)
  | .log _, s => some ((), s)

def acquired : Pc → Pc → Bool
  | .enter _ (.acquireRaw _), .enter _ .acquireConfirm => true
  | _, _ => false

namespace Hall

def initial (m : Mutex.State R) (t : Table) : Hall R n := ⟨m, t, fun _ => none, [], []⟩

def put (s : Hall R n) (i : Fin n) (v : Visit) (w : Surroundings) (pc : Pc)
    (m : Mutex.State R) (t : Table) : Hall R n :=
  let seen := v.seen ++ [w]
  let place := if acquired v.pc pc then some s.tenures.length else v.place
  { s with
    mutex := m
    table := t
    visits := Function.update s.visits i (some ⟨v.op, pc, seen, place⟩)
    tenures :=
      if acquired v.pc pc then s.tenures ++ [⟨i, v.op, seen⟩]
      else match v.place with
        | none => s.tenures
        | some k => s.tenures.set k ⟨i, v.op, seen⟩ }

def step? (capacity : Nat) (call : RawCalls Hint R) : Choice Hint n → Hall R n → Option (Hall R n)
  | .begin i op, s =>
    match s.visits i with
    | some _ => none
    | none => some { s with visits := Function.update s.visits i (some ⟨op, start op, [], none⟩) }
  | .act i hint w, s =>
    match s.visits i with
    | none => none
    | some v =>
      ((next capacity).step? (sharedEffect call hint w) v.pc (s.mutex, s.table)).map fun r =>
        s.put i v w r.1 r.2.1 r.2.2
  | .finish i, s =>
    match s.visits i with
    | some ⟨op, .done r, _, place⟩ =>
      some { s with
        visits := Function.update s.visits i none
        answers := s.answers ++ [⟨i, op, place, r⟩] }
    | _ => none

section Steps

variable {capacity : Nat} {call : RawCalls Hint R} {s t : Hall R n} {i : Fin n}

theorem step_begin {op : Op} (h : step? capacity call (.begin i op) s = some t) :
    s.visits i = none ∧
      t = { s with visits := Function.update s.visits i (some ⟨op, start op, [], none⟩) } := by
  cases hv : s.visits i with
  | some v => simp [step?, hv] at h
  | none =>
    simp only [step?, hv] at h
    exact ⟨rfl, (Option.some.inj h).symm⟩

theorem step_act {hint : Hint} {w : Surroundings}
    (h : step? capacity call (.act i hint w) s = some t) :
    ∃ v a resume x m u, s.visits i = some v ∧ next capacity v.pc = .act a resume ∧
      sharedEffect call hint w a (s.mutex, s.table) = some (x, m, u) ∧
        t = s.put i v w (resume x) m u := by
  cases hv : s.visits i with
  | none => simp [step?, hv] at h
  | some v =>
    simp only [step?, hv] at h
    obtain ⟨⟨pc, m, u⟩, hs, rfl⟩ := Option.map_eq_some_iff.mp h
    obtain ⟨a, resume, x, hn, he, rfl⟩ := Machine.step_cases hs
    exact ⟨v, a, resume, x, m, u, rfl, hn, he, rfl⟩

theorem step_finish (h : step? capacity call (.finish i) s = some t) :
    ∃ op r seen place, s.visits i = some ⟨op, .done r, seen, place⟩ ∧
      t = { s with
        visits := Function.update s.visits i none
        answers := s.answers ++ [⟨i, op, place, r⟩] } := by
  cases hv : s.visits i with
  | none => simp [step?, hv] at h
  | some v =>
    obtain ⟨op, pc, seen, place⟩ := v
    cases pc with
    | done r =>
      simp only [step?, hv] at h
      exact ⟨op, r, seen, place, rfl, (Option.some.inj h).symm⟩
    | enter op m => simp [step?, hv] at h
    | inside op b => simp [step?, hv] at h
    | leave op r m => simp [step?, hv] at h

end Steps

/-! An action opens a tenure, or goes on with one, or belongs to none. -/

section Put

variable {s : Hall R n} {i : Fin n} {v : Visit} {w : Surroundings} {pc : Pc} {m : Mutex.State R}
  {t : Table}

theorem put_outside (ha : acquired v.pc pc = false) (hp : v.place = none) :
    s.put i v w pc m t = { s with
      mutex := m
      table := t
      visits := Function.update s.visits i (some ⟨v.op, pc, v.seen ++ [w], none⟩) } := by
  simp [put, ha, hp]

theorem put_acquired (ha : acquired v.pc pc = true) :
    s.put i v w pc m t = { s with
      mutex := m
      table := t
      visits := Function.update s.visits i
        (some ⟨v.op, pc, v.seen ++ [w], some s.tenures.length⟩)
      tenures := s.tenures ++ [⟨i, v.op, v.seen ++ [w]⟩] } := by
  simp [put, ha]

theorem put_holding {before : List (Tenure n)} {x : Tenure n} (ha : acquired v.pc pc = false)
    (hp : v.place = some before.length) (ht : s.tenures = before ++ [x]) :
    s.put i v w pc m t = { s with
      mutex := m
      table := t
      visits := Function.update s.visits i (some ⟨v.op, pc, v.seen ++ [w], some before.length⟩)
      tenures := before ++ [⟨i, v.op, v.seen ++ [w]⟩] } := by
  simp [put, ha, hp, ht]

end Put

end Hall

/-! ## What the program points of an operation do -/

def Pc.within : Pc → Bool
  | .enter _ .acquireConfirm => true
  | .inside _ _ => true
  | .leave _ _ .unlockRaw => true
  | _ => false

section Points

variable {call : RawCalls Hint R} {held : R → Bool} {capacity : Nat} {hint : Hint}
  {w : Surroundings} {pc : Pc} {a : Action} {resume : a.Answer → Pc} {x : a.Answer}
  {m m' : Mutex.State R} {t t' : Table} {op : Op}

theorem advance_act (hn : next capacity pc = .act a resume)
    (he : callEffect .working w.alive w.handleOf a t = some (x, t')) :
    advance capacity (pc, t) w = (resume x, t') := by
  rw [advance, Machine.step?, hn]
  simp only [he]
  rfl

theorem alone_snoc (op : Op) (seen : List Surroundings) (w : Surroundings) (t : Table) :
    alone capacity op (seen ++ [w]) t = advance capacity (alone capacity op seen t) w := by
  simp [alone]

theorem body_within {b : Body} (hn : bodyNext capacity op b = .act a resume) (x : a.Answer) :
    (resume x).within = true := by
  cases b <;> cases hn <;>
    simp only [freeFrom, seekFrom, searchFrom, visitFrom, lookFrom, sweepFrom, countFrom] <;>
    repeat' split
  all_goals rfl

theorem enterBody_within (capacity : Nat) (op : Op) : (enterBody capacity op).within = true := by
  cases op <;>
    simp only [enterBody, freeFrom, seekFrom, searchFrom, visitFrom, lookFrom, sweepFrom,
      countFrom] <;>
    repeat' split
  all_goals rfl

/-- What an operation does to the slots is the same in company as alone. -/
theorem body_alone {b : Body} (hn : bodyNext capacity op b = .act a resume)
    (he : sharedEffect call hint w a (m, t) = some (x, m', t')) :
    callEffect .working w.alive w.handleOf a t = some (x, t') ∧ m' = m := by
  cases b <;> cases hn <;> cases he <;> exact ⟨rfl, rfl⟩

theorem shared_load {x : Mutex.Status}
    (h : sharedEffect call hint w (.mutex .load) (m, t) = some (x, m', t')) :
    x = m.status ∧ m' = m ∧ t' = t := by
  cases h
  exact ⟨rfl, rfl, rfl⟩

theorem shared_raw {op : LockOp} {x : op.Answer}
    (h : sharedEffect call hint w (.mutex (.raw op)) (m, t) = some (x, m', t')) :
    ∃ r, call hint op m.raw = some (x, r) ∧ m' = { m with raw := r } ∧ t' = t := by
  obtain ⟨⟨y, k⟩, hr, hm⟩ := Option.map_eq_some_iff.mp h
  obtain ⟨r, hc, hk⟩ := Mutex.effect_raw hr
  cases hm
  exact ⟨r, hc, hk, rfl⟩

theorem within_act (hx : Exclusive call held) (hw : pc.within = true)
    (hn : next capacity pc = .act a resume)
    (he : sharedEffect call hint w a (m, t) = some (x, m', t'))
    (hm : m.status = .ready) (hh : held m.raw = true) :
    advance capacity (pc, t) w = (resume x, t') ∧ m'.status = .ready ∧
      ((∃ r, resume x = .done r) ∨ (resume x).within = true ∧ held m'.raw = true) := by
  cases pc with
  | done r => cases hn
  | inside op b =>
    obtain ⟨ha, rfl⟩ := body_alone hn he
    exact ⟨advance_act hn ha, hm, .inr ⟨body_within hn x, hh⟩⟩
  | enter op q =>
    cases q with
    | acquireConfirm =>
      cases hn
      obtain ⟨rfl, rfl, rfl⟩ := shared_load he
      refine ⟨?_, hm, .inr ⟨?_, hh⟩⟩
      · rw [hm]
        rfl
      · rw [hm]
        exact enterBody_within capacity op
    | _ => cases hw
  | leave op r q =>
    cases q with
    | unlockRaw =>
      cases hn
      obtain ⟨k, hc, rfl, rfl⟩ := shared_raw he
      have ha := hx _ _ _ _ _ hc
      cases x with
      | error e => exact absurd (ha.1.symm.trans hh) (by decide)
      | ok u => exact ⟨rfl, hm, .inl ⟨r, rfl⟩⟩
    | _ => cases hw

theorem check_act (hn : next capacity (.enter op (.acquireCheck true)) = .act a resume)
    (he : sharedEffect call hint w a (m, t) = some (x, m', t')) (hm : m.status = .ready) :
    resume x = .enter op (.acquireRaw true) ∧ m' = m ∧ t' = t := by
  cases hn
  obtain ⟨rfl, rfl, rfl⟩ := shared_load he
  refine ⟨?_, rfl, rfl⟩
  rw [hm]
  rfl

theorem acquire_act (hx : Exclusive call held)
    (hn : next capacity (.enter op (.acquireRaw true)) = .act a resume)
    (he : sharedEffect call hint w a (m, t) = some (x, m', t')) :
    t' = t ∧ m'.status = m.status ∧
      (resume x = .enter op .acquireConfirm ∧ held m.raw = false ∧ held m'.raw = true ∨
        (∃ e, resume x = .done (op.failed e)) ∧ held m'.raw = held m.raw) := by
  cases hn
  obtain ⟨k, hc, rfl, rfl⟩ := shared_raw he
  have ha := hx _ _ _ _ _ hc
  cases x with
  | ok u => exact ⟨rfl, rfl, .inl ⟨rfl, ha.1, ha.2⟩⟩
  | error e => exact ⟨rfl, rfl, .inr ⟨⟨e, rfl⟩, ha⟩⟩

end Points

end SyncCore.Registry

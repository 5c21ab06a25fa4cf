import Mathlib.Algebra.Order.BigOperators.Group.Finset
import Mathlib.Algebra.Order.BigOperators.Group.List
import SyncCore.Mutex.State
import SyncCore.Proofs.Run

/-!
# Clients of one mutex

Any number of clients share a mutex over any raw lock. A client is in any
number of calls, innermost first: a raw call may come back to the mutex, and
the call around it goes on once the inner one has ended. A step begins a
call, makes one access to the status or one raw call, or takes the answer of
a call that has ended. Obtaining a guard is locking, and a guard is given up
by `release`. Running a function under the lock is a lock, the calls of the
function, and a release.
-/

set_option autoImplicit false

namespace SyncCore.Mutex

inductive Role where
  | acquiring
  | releasing
  | other
  deriving DecidableEq, Repr

def Op.role : Op → Role
  | .lock => .acquiring
  | .tryLock => .acquiring
  | .unlock => .releasing
  | .release => .releasing
  | _ => .other

/-- How often the raw lock is in the hands of a call after an action, if it
was there the given number of times before. -/
def Action.custody : (a : Action) → a.Answer → Nat → Nat
  | .raw .lock, .ok _, n => n + 1
  | .raw .tryLock, .ok _, n => n + 1
  | .raw .unlock, .ok _, n => n - 1
  | _, _, n => n

structure Call where
  op : Op
  pc : Pc
  custody : Nat
  deriving DecidableEq

/-- What a client hands over to an operation: the hold that is to be released. -/
def Op.entrusted (op : Op) : Nat :=
  match op.role with
  | .releasing => 1
  | _ => 0

namespace Call

def begin (op : Op) : Call := ⟨op, start op, op.entrusted⟩

def succeeded (c : Call) : Bool := c.pc = Mutex.succeeded

def ended (c : Call) : Bool :=
  match c.pc with
  | .done _ => true
  | _ => false

def gain (c : Call) : Nat :=
  match c.op.role with
  | .acquiring => c.succeeded.toNat
  | _ => 0

end Call

structure Client where
  /-- Successful acquisitions whose release has not begun. -/
  holds : Nat
  calls : List Call
  deriving DecidableEq

structure Scene (R : Type) (n : Nat) where
  mutex : State R
  clients : Fin n → Client

inductive Choice (Hint : Type) (n : Nat) where
  | begin (i : Fin n) (op : Op)
  | act (i : Fin n) (hint : Hint)
  | finish (i : Fin n)
  deriving DecidableEq

section Steps

variable {Hint R : Type} {n : Nat} (call : RawCalls Hint R)

def custodyEffect (hint : Hint) : Effect interface (State R × Nat) := fun a s =>
  (effect call hint a s.1).map fun r => (r.1, r.2, a.custody r.1 s.2)

def Call.act? (hint : Hint) (c : Call) (m : State R) : Option (Call × State R) :=
  (next.step? (custodyEffect call hint) c.pc (m, c.custody)).map fun r =>
    ({ c with pc := r.1, custody := r.2.2 }, r.2.1)

namespace Scene

def initial (m : State R) : Scene R n := ⟨m, fun _ => ⟨0, []⟩⟩

def put (s : Scene R n) (i : Fin n) (c : Client) (m : State R) : Scene R n :=
  ⟨m, Function.update s.clients i c⟩

def step? : Choice Hint n → Scene R n → Option (Scene R n)
  | .begin i op, s =>
    let c := s.clients i
    some (s.put i ⟨c.holds - op.entrusted, .begin op :: c.calls⟩ s.mutex)
  | .act i hint, s =>
    match (s.clients i).calls with
    | [] => none
    | c :: cs =>
      (c.act? call hint s.mutex).map fun r => s.put i ⟨(s.clients i).holds, r.1 :: cs⟩ r.2
  | .finish i, s =>
    match (s.clients i).calls with
    | [] => none
    | c :: cs =>
      if c.ended then some (s.put i ⟨(s.clients i).holds + c.gain, cs⟩ s.mutex) else none

end Scene

end Steps

theorem Call.act_cases {Hint R : Type} {call : RawCalls Hint R} {hint : Hint} {c c' : Call}
    {m m' : State R} (h : c.act? call hint m = some (c', m')) :
    ∃ a resume x, next c.pc = .act a resume ∧ effect call hint a m = some (x, m') ∧
      c' = ⟨c.op, resume x, a.custody x c.custody⟩ := by
  obtain ⟨⟨pc, m₁, k⟩, hs, hc⟩ := Option.map_eq_some_iff.mp h
  cases hc
  obtain ⟨a, resume, x, hn, he, rfl⟩ := Machine.step_cases hs
  obtain ⟨⟨y, m₂⟩, he', hp⟩ := Option.map_eq_some_iff.mp he
  cases hp
  exact ⟨a, resume, y, hn, he', rfl⟩

theorem Call.act_of {Hint R : Type} {call : RawCalls Hint R} {hint : Hint} {c : Call}
    {m m' : State R} {a : Action} {resume : a.Answer → Pc} {x : a.Answer}
    (hn : next c.pc = .act a resume) (he : effect call hint a m = some (x, m')) :
    c.act? call hint m = some (⟨c.op, resume x, a.custody x c.custody⟩, m') := by
  simp only [Call.act?, Machine.step?, hn, custodyEffect, he]
  rfl

namespace Scene

variable {Hint R : Type} {n : Nat} {call : RawCalls Hint R} {s t : Scene R n}

theorem step_begin {i : Fin n} {op : Op} (h : step? call (.begin i op) s = some t) :
    t = s.put i ⟨(s.clients i).holds - op.entrusted, .begin op :: (s.clients i).calls⟩ s.mutex :=
  (Option.some.inj h).symm

theorem step_act {i : Fin n} {hint : Hint} (h : step? call (.act i hint) s = some t) :
    ∃ c cs c' m, (s.clients i).calls = c :: cs ∧ c.act? call hint s.mutex = some (c', m) ∧
      t = s.put i ⟨(s.clients i).holds, c' :: cs⟩ m := by
  cases hc : (s.clients i).calls with
  | nil => simp [step?, hc] at h
  | cons c cs =>
    simp only [step?, hc] at h
    obtain ⟨⟨c', m⟩, ha, rfl⟩ := Option.map_eq_some_iff.mp h
    exact ⟨c, cs, c', m, rfl, ha, rfl⟩

theorem act_of {i : Fin n} {hint : Hint} {c c' : Call} {cs : List Call} {m : State R}
    (hc : (s.clients i).calls = c :: cs) (ha : c.act? call hint s.mutex = some (c', m)) :
    step? call (.act i hint) s = some (s.put i ⟨(s.clients i).holds, c' :: cs⟩ m) := by
  simp [step?, hc, ha]

theorem step_finish {i : Fin n} (h : step? call (.finish i) s = some t) :
    ∃ c cs, (s.clients i).calls = c :: cs ∧ c.ended = true ∧
      t = s.put i ⟨(s.clients i).holds + c.gain, cs⟩ s.mutex := by
  cases hc : (s.clients i).calls with
  | nil => simp [step?, hc] at h
  | cons c cs =>
    simp only [step?, hc, Option.ite_none_right_eq_some] at h
    exact ⟨c, cs, rfl, h.1, (Option.some.inj h.2).symm⟩

/-! ## Sums over clients and their calls -/

def holds (s : Scene R n) : Nat := ∑ i, (s.clients i).holds

def sum (f : Call → Nat) (s : Scene R n) : Nat := ∑ i, ((s.clients i).calls.map f).sum

theorem holds_put (s : Scene R n) (i : Fin n) (x : Client) (m : State R) :
    (s.put i x m).holds + (s.clients i).holds = s.holds + x.holds :=
  sum_update Client.holds s.clients i x

theorem sum_put (f : Call → Nat) (s : Scene R n) (i : Fin n) (x : Client) (m : State R) :
    (s.put i x m).sum f + ((s.clients i).calls.map f).sum = s.sum f + (x.calls.map f).sum :=
  sum_update (fun c => (c.calls.map f).sum) s.clients i x

theorem sum_push (f : Call → Nat) (i : Fin n) (k : Nat) (c : Call) (m : State R) :
    (s.put i ⟨k, c :: (s.clients i).calls⟩ m).sum f = s.sum f + f c := by
  have hs := sum_put f s i ⟨k, c :: (s.clients i).calls⟩ m
  simp only [List.map_cons, List.sum_cons] at hs
  omega

theorem sum_replace (f : Call → Nat) {i : Fin n} {c : Call} {cs : List Call}
    (hc : (s.clients i).calls = c :: cs) (k : Nat) (c' : Call) (m : State R) :
    (s.put i ⟨k, c' :: cs⟩ m).sum f + f c = s.sum f + f c' := by
  have hs := sum_put f s i ⟨k, c' :: cs⟩ m
  simp only [hc, List.map_cons, List.sum_cons] at hs
  omega

theorem sum_pop (f : Call → Nat) {i : Fin n} {c : Call} {cs : List Call}
    (hc : (s.clients i).calls = c :: cs) (k : Nat) (m : State R) :
    (s.put i ⟨k, cs⟩ m).sum f + f c = s.sum f := by
  have hs := sum_put f s i ⟨k, cs⟩ m
  simp only [hc, List.map_cons, List.sum_cons] at hs
  omega

theorem sum_add (f g : Call → Nat) : s.sum (fun c => f c + g c) = s.sum f + s.sum g := by
  simp only [sum, List.sum_map_add, Finset.sum_add_distrib]

theorem le_sum (f : Call → Nat) {i : Fin n} {c : Call} (hc : c ∈ (s.clients i).calls) :
    f c ≤ s.sum f := by
  have hl : f c ≤ ((s.clients i).calls.map f).sum :=
    List.single_le_sum (fun _ _ => Nat.zero_le _) _ (List.mem_map_of_mem hc)
  exact hl.trans (Finset.single_le_sum (f := fun j => ((s.clients j).calls.map f).sum)
    (fun _ _ => Nat.zero_le _) (Finset.mem_univ i))

theorem sum_le {f g : Call → Nat} (h : ∀ c, f c ≤ g c) : s.sum f ≤ s.sum g :=
  Finset.sum_le_sum fun _ _ => List.sum_le_sum fun c _ => h c

theorem exists_of_sum_pos {f : Call → Nat} (h : 0 < s.sum f) :
    ∃ i, ∃ c ∈ (s.clients i).calls, 0 < f c := by
  obtain ⟨i, -, hi⟩ := Finset.exists_ne_zero_of_sum_ne_zero (Nat.ne_of_gt h)
  by_contra hn
  push Not at hn
  refine hi (List.sum_eq_zero fun k hk => ?_)
  obtain ⟨c, hc, rfl⟩ := List.mem_map.mp hk
  exact Nat.le_zero.mp (hn i c hc)

/-! ## Facts about every call -/

def Each (P : Call → Prop) (s : Scene R n) : Prop := ∀ i, ∀ c ∈ (s.clients i).calls, P c

theorem sum_congr {f g : Call → Nat} (h : s.Each fun c => f c = g c) : s.sum f = s.sum g :=
  Finset.sum_congr rfl fun i _ => congrArg List.sum (List.map_congr_left (h i))

theorem each_put {P : Call → Prop} {i : Fin n} {x : Client} {m : State R} (h : s.Each P)
    (hx : ∀ c ∈ x.calls, P c) : (s.put i x m).Each P := by
  intro j c hc
  by_cases hj : j = i
  · subst hj
    simp only [put, Function.update_self] at hc
    exact hx c hc
  · simp only [put, Function.update_of_ne hj] at hc
    exact h j c hc

theorem each_push {P : Call → Prop} {i : Fin n} {c : Call} {k : Nat} {m : State R} (h : s.Each P)
    (hc : P c) : (s.put i ⟨k, c :: (s.clients i).calls⟩ m).Each P :=
  each_put h (List.forall_mem_cons.mpr ⟨hc, h i⟩)

theorem each_pop {P : Call → Prop} {i : Fin n} {c : Call} {cs : List Call} {k : Nat} {m : State R}
    (hc : (s.clients i).calls = c :: cs) (h : s.Each P) : (s.put i ⟨k, cs⟩ m).Each P :=
  each_put h fun d hd => h i d (hc ▸ List.mem_cons_of_mem c hd)

theorem each_replace {P : Call → Prop} {i : Fin n} {c c' : Call} {cs : List Call} {k : Nat}
    {m : State R} (hc : (s.clients i).calls = c :: cs) (h : s.Each P) (hc' : P c') :
    (s.put i ⟨k, c' :: cs⟩ m).Each P :=
  each_put h (List.forall_mem_cons.mpr ⟨hc', fun d hd => h i d (hc ▸ List.mem_cons_of_mem c hd)⟩)

end Scene

end SyncCore.Mutex

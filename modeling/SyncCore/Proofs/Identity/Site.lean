import SyncCore.Manager.Current
import SyncCore.Proofs.Manager.Spawning
import SyncCore.Proofs.Registry.Search

/-!
# Managers of one process

A process has any number of managers, each on a platform that it may share
with others, and threads that no manager has created. A thread gets a number
when it is started and keeps it wherever it asks which object it is. It asks
one manager at a time, but what it logs meanwhile may make it ask again. A
search of the table is one action, and an object that neither its routine nor
its handle keeps alive may have been kept alive by others or not.
-/

set_option autoImplicit false

namespace SyncCore.Manager

inductive Caller where
  | managed (m : Nat) (id : ObjectId)
  | other (k : Nat)
  deriving DecidableEq

structure Numbering where
  State : Type
  initial : State
  /-- The number of a new thread, which the given platform starts or none does. -/
  draw : Option Nat → State → Handle × State
  text : Handle → String

structure Identity where
  platform : Option Nat
  handle : Handle
  deriving DecidableEq

structure Inquiry where
  manager : Nat
  pc : Current.Pc

def Current.Pc.result? : Current.Pc → Option (Option ObjectId)
  | .announce _ r => some r
  | .done r => some r
  | _ => none

variable {V : Type}

/-! ## What a search finds in a world -/

def Routine.Pc.over : Routine.Pc V → Bool
  | .done => true
  | _ => false

def Owner.holds : Owner V → Bool
  | .destroyed => false
  | .dropped => false
  | _ => true

/-- The start routine or the handle keeps the object alive. -/
def Thread.held (th : Thread V) : Bool := !th.routine.over || th.owner.holds

namespace World

def alive (w : World V) (living : ObjectId → Bool) (id : ObjectId) : Bool :=
  (w.threads id).any Thread.held || living id

def handleOf (w : World V) (id : ObjectId) : Option Handle :=
  (w.threads id).bind fun th => th.shared.object.handle

def find? (w : World V) (living : ObjectId → Bool) (h : Handle) : Option ObjectId :=
  w.table.find? (w.alive living) w.handleOf h

def inquire (w : World V) (living : ObjectId → Bool) (n : Handle) : Effect (interface V) Unit
  | .backend .current, u => some (n, u)
  | .table (.find h), u =>
    (Registry.search? (w.alive living) w.handleOf h w.table).map fun r => (r, u)
  | .log _, u => some ((), u)
  | _, _ => none

end World

/-! ## Steps of a process -/

structure Site (N : Numbering) (V : Type) where
  numbering : N.State
  managers : Nat → Option (Nat × World V)
  identities : Caller → Option Identity
  /-- What each thread is asking, the innermost inquiry first. -/
  inquiries : Caller → List Inquiry

inductive Event (V : Type) where
  | opening (m p capacity : Nat)
  /-- A thread starts that no manager creates, on the given platform or on none. -/
  | start (k : Nat) (p : Option Nat)
  /-- A platform draws a number for a thread that then cannot be started. -/
  | spend (p : Nat)
  | act (m : Nat) (c : Choice V)
  | ask (x : Caller) (m : Nat)
  | look (x : Caller) (living : ObjectId → Bool)
  | answer (x : Caller)

def Event.inquiry (x : Caller) (m : Nat) : List (Event V) :=
  .ask x m :: List.replicate 3 (.look x fun _ => false)

namespace Site

variable {N : Numbering}

def initial : Site N V := ⟨N.initial, fun _ => none, fun _ => none, fun _ => []⟩

def enroll (s : Site N V) (x : Caller) (p : Option Nat) : Site N V :=
  { s with
    numbering := (N.draw p s.numbering).2
    identities := Function.update s.identities x (some ⟨p, (N.draw p s.numbering).1⟩) }

/-- A thread that is asking does not go on with its routine. -/
def busy (s : Site N V) (m : Nat) : Choice V → Bool
  | .act id .routine _ => !(s.inquiries (.managed m id)).isEmpty
  | _ => false

def setInquiries (s : Site N V) (x : Caller) (qs : List Inquiry) : Site N V :=
  { s with inquiries := Function.update s.inquiries x qs }

def setWorld (s : Site N V) (m p : Nat) (w : World V) : Site N V :=
  { s with managers := Function.update s.managers m (some (p, w)) }

/-- The number of a spawned thread is the one that its platform has drawn. -/
def step? : Event V → Site N V → Option (Site N V)
  | .opening m p capacity, s =>
    match s.managers m with
    | none => some (s.setWorld m p (.initial capacity))
    | some _ => none
  | .start k p, s =>
    match s.identities (.other k) with
    | none => some (s.enroll (.other k) p)
    | some _ => none
  | .spend p, s => some { s with numbering := (N.draw (some p) s.numbering).2 }
  | .act m c, s =>
    (s.managers m).bind fun (p, w) =>
      if s.busy m c then none
      else (World.step? c w).bind fun u =>
        match w.spawned? c with
        | none => some (s.setWorld m p u)
        | some (id, b) =>
          if b.handle = (N.draw (some p) s.numbering).1 then
            some ((s.enroll (.managed m id) (some p)).setWorld m p u)
          else none
  | .ask x m, s =>
    if (s.identities x).isSome && (s.managers m).isSome then
      some (s.setInquiries x (⟨m, Current.start⟩ :: s.inquiries x))
    else none
  | .look x living, s =>
    match s.inquiries x with
    | [] => none
    | q :: qs =>
      (s.managers q.manager).bind fun (_, w) => (s.identities x).bind fun i =>
        ((Current.next N.text).step? (w.inquire living i.handle) q.pc ()).map fun r =>
          s.setInquiries x (⟨q.manager, r.1⟩ :: qs)
  | .answer x, s =>
    match s.inquiries x with
    | ⟨_, .done _⟩ :: qs => some (s.setInquiries x qs)
    | _ => none

def drawn? (s : Site N V) : Event V → Option (Option Nat)
  | .start _ p => some p
  | .spend p => some (some p)
  | .act m c => (s.managers m).bind fun (p, w) => (w.spawned? c).map fun _ => some p
  | _ => none

end Site

/-! ## What a step is -/

inductive World.Looks (w : World V) (living : ObjectId → Bool) (n : Handle) :
    Current.Pc → Current.Pc → Prop where
  | ask : Looks w living n .ask (.find n)
  | find (h : Handle) : Looks w living n (.find h) (.announce h (w.find? living h))
  | announce (h : Handle) (r : Option ObjectId) : Looks w living n (.announce h r) (.done r)

def Current.Pc.left : Current.Pc → Nat
  | .ask => 3
  | .find _ => 2
  | .announce _ _ => 1
  | .done _ => 0

theorem World.looks_nearer (w : World V) (living : ObjectId → Bool) (n : Handle) {pc : Current.Pc}
    (h : ∀ r, pc ≠ .done r) : ∃ pc', w.Looks living n pc pc' ∧ pc'.left < pc.left := by
  cases pc with
  | ask => exact ⟨_, .ask, by simp [Current.Pc.left]⟩
  | find k => exact ⟨_, .find k, by simp [Current.Pc.left]⟩
  | announce k r => exact ⟨_, .announce k r, by simp [Current.Pc.left]⟩
  | done r => exact absurd rfl (h r)

theorem World.inquire_step {w : World V} {living : ObjectId → Bool} {n : Handle}
    {text : Handle → String} {pc pc' : Current.Pc} :
    (Current.next text).step? (w.inquire living n) pc () = some (pc', ()) ↔
      w.Looks living n pc pc' := by
  constructor
  · intro h
    obtain ⟨a, resume, x, hn, he, rfl⟩ := Machine.step_cases h
    cases pc with
    | ask => cases hn; cases he; exact .ask
    | find k =>
      cases hn
      simp only [inquire, Registry.search_eq] at he
      cases he
      exact .find k
    | announce k r => cases hn; exact .announce k r
    | done r => cases hn
  · intro h
    cases h with
    | ask => rfl
    | find k =>
      simp only [Machine.step?, Current.next, inquire, Registry.search_eq]
      rfl
    | announce k r => rfl

namespace Site

variable {N : Numbering} {s t : Site N V}

theorem step_cases {e : Event V} (h : step? e s = some t) :
    (∃ m p n, e = .opening m p n ∧ s.managers m = none ∧ t = s.setWorld m p (.initial n)) ∨
    (∃ k p, e = .start k p ∧ s.identities (.other k) = none ∧ t = s.enroll (.other k) p) ∨
    (∃ p, e = .spend p ∧ t = { s with numbering := (N.draw (some p) s.numbering).2 }) ∨
    (∃ m c p w u, e = .act m c ∧ s.managers m = some (p, w) ∧ s.busy m c = false ∧
      World.step? c w = some u ∧
      ((w.spawned? c = none ∧ t = s.setWorld m p u) ∨
        ∃ id b, w.spawned? c = some (id, b) ∧ b.handle = (N.draw (some p) s.numbering).1 ∧
          t = (s.enroll (.managed m id) (some p)).setWorld m p u)) ∨
    (∃ x m, e = .ask x m ∧ (s.identities x).isSome = true ∧ (s.managers m).isSome = true ∧
      t = s.setInquiries x (⟨m, Current.start⟩ :: s.inquiries x)) ∨
    (∃ x living q qs p w i pc, e = .look x living ∧ s.inquiries x = q :: qs ∧
      s.managers q.manager = some (p, w) ∧ s.identities x = some i ∧
      w.Looks living i.handle q.pc pc ∧ t = s.setInquiries x (⟨q.manager, pc⟩ :: qs)) ∨
    (∃ x m r qs, e = .answer x ∧ s.inquiries x = ⟨m, .done r⟩ :: qs ∧ t = s.setInquiries x qs) := by
  cases e with
  | opening m p n =>
    cases hm : s.managers m with
    | some v => simp [step?, hm] at h
    | none =>
      simp only [step?, hm, Option.some.injEq] at h
      exact .inl ⟨m, p, n, rfl, hm, h.symm⟩
  | start k p =>
    cases hk : s.identities (.other k) with
    | some i => simp [step?, hk] at h
    | none =>
      simp only [step?, hk, Option.some.injEq] at h
      exact .inr (.inl ⟨k, p, rfl, hk, h.symm⟩)
  | spend p => exact .inr (.inr (.inl ⟨p, rfl, (Option.some.inj h).symm⟩))
  | act m c =>
    obtain ⟨⟨p, w⟩, hm, h⟩ := Option.bind_eq_some_iff.mp h
    obtain ⟨hb, h⟩ := Option.ite_none_left_eq_some.mp h
    obtain ⟨u, hu, h⟩ := Option.bind_eq_some_iff.mp h
    refine .inr (.inr (.inr (.inl ⟨m, c, p, w, u, rfl, hm, by simpa using hb, hu, ?_⟩)))
    cases hs : w.spawned? c with
    | none =>
      simp only [hs, Option.some.injEq] at h
      exact .inl ⟨rfl, h.symm⟩
    | some v =>
      obtain ⟨id, b⟩ := v
      simp only [hs, Option.ite_none_right_eq_some, Option.some.injEq] at h
      exact .inr ⟨id, b, rfl, h.1, h.2.symm⟩
  | ask x m =>
    simp only [step?, Option.ite_none_right_eq_some, Bool.and_eq_true, Option.some.injEq] at h
    exact .inr (.inr (.inr (.inr (.inl ⟨x, m, rfl, h.1.1, h.1.2, h.2.symm⟩))))
  | look x living =>
    cases hx : s.inquiries x with
    | nil => simp [step?, hx] at h
    | cons q qs =>
      simp only [step?, hx] at h
      obtain ⟨⟨p, w⟩, hm, h⟩ := Option.bind_eq_some_iff.mp h
      obtain ⟨i, hi, h⟩ := Option.bind_eq_some_iff.mp h
      obtain ⟨⟨pc, ⟨⟩⟩, hpc, rfl⟩ := Option.map_eq_some_iff.mp h
      exact .inr (.inr (.inr (.inr (.inr (.inl
        ⟨x, living, q, qs, p, w, i, pc, rfl, hx, hm, hi, World.inquire_step.mp hpc, rfl⟩)))))
  | answer x =>
    simp only [step?] at h
    split at h
    next m r qs hx =>
      exact .inr (.inr (.inr (.inr (.inr (.inr
        ⟨x, m, r, qs, rfl, hx, (Option.some.inj h).symm⟩)))))
    next => cases h

theorem step_inquiries {e : Event V} (h : step? e s = some t) {x : Caller} {a : Inquiry}
    (ha : a ∈ t.inquiries x) :
    a ∈ s.inquiries x ∨ a.pc = Current.start ∨
      ∃ living q p w i, q ∈ s.inquiries x ∧ q.manager = a.manager ∧
        s.managers a.manager = some (p, w) ∧ s.identities x = some i ∧
        w.Looks living i.handle q.pc a.pc := by
  have put : ∀ {y : Caller} {qs : List Inquiry}, a ∈ (s.setInquiries y qs).inquiries x →
      a ∈ s.inquiries x ∨ (x = y ∧ a ∈ qs) := fun {y qs} h => by
    by_cases hx : x = y
    · subst hx
      exact .inr ⟨rfl, by simpa [Site.setInquiries] using h⟩
    · exact .inl (by simpa [Site.setInquiries, hx] using h)
  obtain ⟨m, p, n, rfl, -, rfl⟩ | ⟨k, p, rfl, -, rfl⟩ | ⟨p, rfl, rfl⟩ |
    ⟨m, c, p, w, u, rfl, -, -, -, hc⟩ | ⟨y, m, rfl, -, -, rfl⟩ |
    ⟨y, l, q, qs, p, w, i, pc, rfl, hq, hm, hi, hl, rfl⟩ | ⟨y, m, r, qs, rfl, hq, rfl⟩ :=
    step_cases h
  · exact .inl ha
  · exact .inl ha
  · exact .inl ha
  · obtain ⟨-, rfl⟩ | ⟨id, b, -, -, rfl⟩ := hc <;> exact .inl ha
  · obtain hold | ⟨rfl, hnew⟩ := put ha
    · exact .inl hold
    · obtain rfl | hold := List.mem_cons.mp hnew
      · exact .inr (.inl rfl)
      · exact .inl hold
  · obtain hold | ⟨rfl, hnew⟩ := put ha
    · exact .inl hold
    · obtain rfl | hold := List.mem_cons.mp hnew
      · exact .inr (.inr ⟨l, q, p, w, i, hq ▸ List.mem_cons_self, rfl, hm, hi, hl⟩)
      · exact .inl (hq ▸ List.mem_cons_of_mem q hold)
  · obtain hold | ⟨rfl, hnew⟩ := put ha
    · exact .inl hold
    · exact .inl (hq ▸ List.mem_cons_of_mem _ hnew)

theorem step_managers {e : Event V} (h : step? e s = some t) {m p : Nat} {w : World V}
    (hm : t.managers m = some (p, w)) :
    s.managers m = some (p, w) ∨ (s.managers m = none ∧ ∃ capacity, w = .initial capacity) ∨
      ∃ c v, e = .act m c ∧ s.managers m = some (p, v) ∧ s.busy m c = false ∧
        World.step? c v = some w := by
  have put : ∀ {n q : Nat} {u : World V}, (s.setWorld n q u).managers m = some (p, w) →
      s.managers m = some (p, w) ∨ (m = n ∧ p = q ∧ w = u) := fun {n q u} h => by
    by_cases hn : m = n
    · subst hn
      simp only [Site.setWorld, Function.update_self, Option.some.injEq, Prod.mk.injEq] at h
      exact .inr ⟨rfl, h.1.symm, h.2.symm⟩
    · exact .inl (by simpa [Site.setWorld, hn] using h)
  obtain ⟨n, q, k, rfl, hn, rfl⟩ | ⟨k, q, rfl, -, rfl⟩ | ⟨q, rfl, rfl⟩ |
    ⟨n, c, q, v, u, rfl, hv, hb, hu, hc⟩ | ⟨y, n, rfl, -, -, rfl⟩ |
    ⟨y, l, q, qs, p', w', i, pc, rfl, -, -, -, -, rfl⟩ | ⟨y, n, r, qs, rfl, -, rfl⟩ :=
    step_cases h
  · obtain hm | ⟨rfl, rfl, rfl⟩ := put hm
    · exact .inl hm
    · exact .inr (.inl ⟨hn, k, rfl⟩)
  · exact .inl hm
  · exact .inl hm
  · have hm : (s.setWorld n q u).managers m = some (p, w) := by
      obtain ⟨-, rfl⟩ | ⟨id, b, -, -, rfl⟩ := hc <;> exact hm
    obtain hm | ⟨rfl, rfl, rfl⟩ := put hm
    · exact .inl hm
    · exact .inr (.inr ⟨c, v, rfl, hv, hb, hu⟩)
  · exact .inl hm
  · exact .inl hm
  · exact .inl hm

end Site

end SyncCore.Manager

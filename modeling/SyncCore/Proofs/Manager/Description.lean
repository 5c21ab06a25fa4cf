import SyncCore.Manager.Opening
import SyncCore.Proofs.Identity.Site
import SyncCore.Proofs.Manager.Validation

/-!
# What a manager knows of its backend

A manager is opened, cloned, and used through itself and its clones by any number of
threads at once, one action at a time. In every step the backend is ready to report
something else of itself. What the manager consults is the report that its opening
has read, so two runs that differ in the others only take the same course.
-/

set_option autoImplicit false

namespace SyncCore.Manager

/-! ## The opening -/

namespace Opening

theorem chosen_ne_read (info : PlatformInfo) (r : Outcome RawLock) : chosen info r ≠ .read := by
  unfold chosen
  split <;> exact nofun

theorem next_ne_read {capacity : Nat} {pc : Pc} {a : Action} {resume : a.Answer → Pc}
    (h : next capacity pc = .act a resume) (x : a.Answer) : resume x ≠ .read := by
  cases pc with
  | read =>
    cases h
    dsimp only
    split
    · split
      · exact nofun
      · exact chosen_ne_read x _
    · exact nofun
  | request info =>
    cases h
    exact chosen_ne_read info x
  | done r => cases h
  | _ =>
    cases h
    exact nofun

end Opening

/-! ## What is asked of a manager -/

/-- A call on a thread, without what the backend is able to do. -/
inductive Demand where
  | join (own : Bool)
  | destroy (own : Bool)
  | drop
  | hold (h : Hold) (own : Bool)
  | priority (p : Priority) (own : Bool)
  deriving DecidableEq

def Demand.call (info : PlatformInfo) : Demand → HandleCall
  | .join own => .join own (info.supports .nativeJoin)
  | .destroy own => .destroy own
  | .drop => .drop
  | .hold h own => .hold h own (info.supports .suspend)
  | .priority p own => .priority p (p.toNative info.thread) own

inductive Use where
  | clone
  /-- The attributes are built from the manager's own defaults or from the general ones. -/
  | create (own : Bool) (build : Attributes → Attributes)
  | call (id : ObjectId) (d : Demand)
  | ask (x : Nat)
  | sleep (ms : UInt32)
  | yield

def Use.passed? : Use → Option BackendCall
  | .sleep ms => some (.sleep ms)
  | .yield => some .yield
  | _ => none

inductive Instruction where
  | opening
  | through (m : Nat) (u : Use)
  /-- Another manager makes an object. -/
  | elsewhere
  | act (id : ObjectId) (p : Party)
  | finish (id : ObjectId) (p : Party)
  | look (x : Nat)
  | answer (x : Nat)

/-- What answers a step, but for what the backend reports of itself. -/
structure Surroundings (V : Type) extends Setting V where
  newLock : Outcome RawLock
  /-- What is alive that neither a routine nor a handle keeps so. -/
  living : ObjectId → Bool

structure Office (V : Type) where
  capacity : Nat
  opening : Opening.Pc
  clones : Nat
  desk : Desk V
  inquiries : Nat → List Current.Pc

namespace Office

variable {V : Type}

/-- A step: what is done, what the backend would report of itself, and what answers. -/
structure Turn (V : Type) where
  instruction : Instruction
  report : PlatformInfo
  around : Surroundings V

def Turn.unreported (t : Turn V) : Instruction × Surroundings V := (t.instruction, t.around)

def vacant (capacity : Nat) : Office V :=
  ⟨capacity, Opening.start, 0, .opened capacity, fun _ => []⟩

def kept? (s : Office V) (m : Nat) : Option PlatformInfo :=
  match s.opening with
  | .done (.ok o) => if m ≤ s.clones then some o.info else none
  | _ => none

def withWorld (s : Office V) (w : World V) : Office V :=
  { s with desk := { s.desk with world := w } }

def setInquiries (s : Office V) (x : Nat) (qs : List Current.Pc) : Office V :=
  { s with inquiries := Function.update s.inquiries x qs }

def opened (report : PlatformInfo) (newLock : Outcome RawLock) : Effect Opening.interface Unit
  | .readInfo, u => some (report, u)
  | .newLock, u => some (newLock, u)
  | .log _, u => some ((), u)

def inquire (w : World V) (e : Surroundings V) : Effect (interface V) Unit
  | .backend .current, u => some (e.backend .current, u)
  | .table (.find h), u =>
    match Registry.call? e.latch (w.alive e.living) w.handleOf (.find h) w.table with
    | some (.found o, _) => some (o, u)
    | _ => none
  | .log _, u => some ((), u)
  | _, _ => none

def use? (info : PlatformInfo) : Use → Office V → Option (Office V)
  | .clone, s => some { s with clones := s.clones + 1 }
  | .create own build, s =>
    (Desk.step? info.thread (.create (build (if own then .ofLimits info.thread else .default)))
      s.desk).map fun d => { s with desk := d }
  | .call id d, s => (World.move? (.begin id (d.call info)) s.desk.world).map s.withWorld
  | .ask x, s => some (s.setInquiries x (Current.start :: s.inquiries x))
  | .sleep _, s => some s
  | .yield, s => some s

def step? (text : Handle → String) : Turn V → Office V → Option (Office V)
  | ⟨.opening, report, e⟩, s =>
    ((Opening.next s.capacity).step? (opened report e.newLock) s.opening ()).map fun r =>
      { s with opening := r.1 }
  | ⟨.through m u, _, _⟩, s => (s.kept? m).bind fun info => s.use? info u
  | ⟨.elsewhere, _, _⟩, s => some { s with desk := { s.desk with made := s.desk.made + 1 } }
  | ⟨.act id p, _, e⟩, s => (World.move? (.act id p e.toSetting) s.desk.world).map s.withWorld
  | ⟨.finish id p, _, _⟩, s => (World.move? (.finish id p) s.desk.world).map s.withWorld
  | ⟨.look x, _, e⟩, s =>
    match s.inquiries x with
    | [] => none
    | pc :: pcs =>
      ((Current.next text).step? (inquire s.desk.world e) pc ()).map fun r =>
        s.setInquiries x (r.1 :: pcs)
  | ⟨.answer x, _, _⟩, s =>
    match s.inquiries x with
    | .done _ :: pcs => some (s.setInquiries x pcs)
    | _ => none

/-! ## What can be told of a step -/

inductive Doing (V : Type) where
  | opening (a : Opening.Action)
  | thread (id : ObjectId) (p : Party) (a : Action V)
  | inquiry (x : Nat) (a : Action V)
  | passed (c : BackendCall) (x : c.Answer)

def doing? (text : Handle → String) (s : Office V) (t : Turn V) : Option (Doing V) :=
  match t.instruction with
  | .opening => (Opening.next s.capacity s.opening).action?.map .opening
  | .through _ u => u.passed?.map fun c => .passed c (t.around.backend c)
  | .act id p =>
    (s.desk.world.threads id).bind fun th => (th.action? id p).map (.thread id p)
  | .look x =>
    (s.inquiries x).head?.bind fun pc => (Current.next text pc).action?.map (.inquiry x)
  | _ => none

def watch (text : Handle → String) (s : Office V) (t : Turn V) :
    List (Office V × Option (Doing V)) :=
  [(s, s.doing? text t)]

def reads (s : Office V) (t : Turn V) : Bool :=
  match t.instruction, s.opening with
  | .opening, .read => true
  | _, _ => false

def readings (s : Office V) (t : Turn V) : List PlatformInfo :=
  if s.reads t then [t.report] else []

section Courses

variable {text : Handle → String} {s u : Office V} {t t' : Turn V} {ts ts' : List (Turn V)}

theorem reads_unreported (h : t.unreported = t'.unreported) : s.reads t = s.reads t' := by
  obtain ⟨i, report, e⟩ := t
  obtain ⟨i', report', e'⟩ := t'
  cases h
  rfl

theorem watch_unreported (h : t.unreported = t'.unreported) :
    watch text s t = watch text s t' := by
  obtain ⟨i, report, e⟩ := t
  obtain ⟨i', report', e'⟩ := t'
  cases h
  rfl

theorem step_unread (h : t.unreported = t'.unreported) (hr : s.reads t = false) :
    step? text t s = step? text t' s := by
  obtain ⟨i, report, e⟩ := t
  obtain ⟨i', report', e'⟩ := t'
  cases h
  cases i with
  | opening =>
    cases ho : s.opening with
    | read =>
      simp only [reads, ho] at hr
      cases hr
    | _ => simp only [step?, ho, Machine.step?, Opening.next, opened]
  | _ => rfl

theorem reads_cases (hr : s.reads t = true) : t.instruction = .opening ∧ s.opening = .read := by
  obtain ⟨i, report, e⟩ := t
  cases i with
  | opening =>
    cases ho : s.opening with
    | read => exact ⟨rfl, rfl⟩
    | _ =>
      simp only [reads, ho] at hr
      cases hr
  | _ => cases hr

theorem step_reads (hr : s.reads t = true) : (step? text t s).isSome = true := by
  obtain ⟨hi, ho⟩ := reads_cases hr
  obtain ⟨i, report, e⟩ := t
  cases hi
  simp only [step?, ho, Machine.step?, Opening.next, opened, Option.map_some, Option.isSome_some]

/-- Only the opening goes on with the opening, and it leaves the description behind. -/
theorem step_opening (h : step? text t s = some u) :
    (s.reads t = false ∧ u.opening = s.opening) ∨ u.opening ≠ .read := by
  obtain ⟨i, report, e⟩ := t
  cases i with
  | opening =>
    obtain ⟨⟨pc, v⟩, hst, rfl⟩ := Option.map_eq_some_iff.mp h
    obtain ⟨a, resume, x, hn, -, rfl⟩ := Machine.step_cases hst
    exact .inr (Opening.next_ne_read hn x)
  | through m c =>
    obtain ⟨info, -, h⟩ := Option.bind_eq_some_iff.mp h
    refine .inl ⟨rfl, ?_⟩
    cases c with
    | create own build => obtain ⟨d, -, rfl⟩ := Option.map_eq_some_iff.mp h; rfl
    | call id d => obtain ⟨w, -, rfl⟩ := Option.map_eq_some_iff.mp h; rfl
    | _ => cases h; rfl
  | elsewhere => cases h; exact .inl ⟨rfl, rfl⟩
  | act id p => obtain ⟨w, -, rfl⟩ := Option.map_eq_some_iff.mp h; exact .inl ⟨rfl, rfl⟩
  | finish id p => obtain ⟨w, -, rfl⟩ := Option.map_eq_some_iff.mp h; exact .inl ⟨rfl, rfl⟩
  | look x =>
    simp only [step?] at h
    split at h
    · cases h
    · obtain ⟨r, -, rfl⟩ := Option.map_eq_some_iff.mp h
      exact .inl ⟨rfl, rfl⟩
  | answer x =>
    simp only [step?] at h
    split at h
    · cases h
      exact .inl ⟨rfl, rfl⟩
    · cases h

theorem readings_of_opening (hs : s.opening ≠ .read) : s.readings t = [] :=
  if_neg fun hr => hs (reads_cases hr).2

theorem no_more_readings (hs : s.opening ≠ .read) :
    transcript (step? text) readings ts s = [] := by
  induction ts generalizing s with
  | nil => rfl
  | cons t ts ih =>
    cases hst : step? text t s with
    | none => simp only [transcript, hst]
    | some u =>
      rw [transcript_cons hst, readings_of_opening hs, List.nil_append]
      refine ih ?_
      obtain ⟨-, hu⟩ | hu := step_opening hst
      · rwa [hu]
      · exact hu

theorem readings_le_one (ts : List (Turn V)) (s : Office V) :
    (transcript (step? text) readings ts s).length ≤ 1 := by
  induction ts generalizing s with
  | nil => exact Nat.zero_le 1
  | cons t ts ih =>
    cases hst : step? text t s with
    | none => simp only [transcript, hst, List.length_nil, Nat.zero_le]
    | some u =>
      rw [transcript_cons hst]
      obtain ⟨hr, -⟩ | hu := step_opening hst
      · rw [readings, hr]
        exact ih u
      · rw [no_more_readings hu, List.append_nil, readings]
        split
        · exact Nat.le_refl 1
        · exact Nat.zero_le 1

theorem step_unreported (h : t.unreported = t'.unreported)
    (hr : s.reads t = true → t.report = t'.report) : step? text t s = step? text t' s := by
  cases ht : s.reads t with
  | false => exact step_unread h ht
  | true =>
    obtain ⟨i, report, e⟩ := t
    obtain ⟨i', report', e'⟩ := t'
    cases h
    cases hr ht
    rfl

/-- Two runs that differ only in descriptions that are not read take the same course. -/
theorem courses_agree (h : ts.map Turn.unreported = ts'.map Turn.unreported)
    (hr : transcript (step? text) readings ts s = transcript (step? text) readings ts' s) :
    run? (step? text) ts s = run? (step? text) ts' s ∧
      transcript (step? text) (watch text) ts s = transcript (step? text) (watch text) ts' s := by
  induction ts generalizing s ts' with
  | nil =>
    obtain rfl : ts' = [] := List.map_eq_nil_iff.mp h.symm
    exact ⟨rfl, rfl⟩
  | cons t ts ih =>
    obtain ⟨t', ts', rfl⟩ : ∃ t' r, ts' = t' :: r := by
      cases ts' with
      | nil => cases h
      | cons t' r => exact ⟨t', r, rfl⟩
    obtain ⟨ht, hts⟩ := List.cons.inj h
    have hreads : s.reads t = s.reads t' := reads_unreported ht
    -- If the description is read here, it heads what is read in both runs.
    have hst : step? text t s = step? text t' s := step_unreported ht fun hr₁ => by
      obtain ⟨u, hu⟩ := Option.isSome_iff_exists.mp (step_reads hr₁)
      obtain ⟨u', hu'⟩ := Option.isSome_iff_exists.mp (step_reads (hreads ▸ hr₁))
      rw [transcript_cons hu, transcript_cons hu', readings, readings, ← hreads, if_pos hr₁,
        if_pos hr₁] at hr
      exact (List.cons.inj hr).1
    cases hu : step? text t s with
    | none => simp only [run?, transcript, ← hst, hu, Option.bind_none, and_self]
    | some u =>
      have hu' := hst.symm.trans hu
      rw [transcript_cons hu, transcript_cons hu'] at hr
      have hlen : (s.readings t).length = (s.readings t').length := by
        simp only [readings, hreads]
        split <;> rfl
      obtain ⟨hrun, hwatch⟩ := ih hts (List.append_inj_right hr hlen)
      simp only [run?, hu, hu', Option.bind_some, transcript_cons hu, transcript_cons hu',
        watch_unreported ht, hrun, hwatch, and_self]

end Courses

end Office

end SyncCore.Manager

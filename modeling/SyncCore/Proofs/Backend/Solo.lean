import SyncCore.Backend.Mock.Operation

/-!
# One call of the mock backend at a time

What a call does to the task table while no other thread acts on it.
-/

set_option autoImplicit false

namespace SyncCore.Mock

/-- A thread that acts on the shared state alone. What needs a host thread is blocked. -/
def lone (me : Nat) : Effect interface State
  | .shared a, s => effect me a s
  | .host _, _ => none

/-- What the host answers to a thread: whether a new thread starts, whether a
join handle is still there, and whether the thread it stands for ended by returning. -/
structure Host where
  starts : Bool
  attached : Bool
  returned : Bool
  deriving DecidableEq

def Host.answer (h : Host) : (a : HostAction) → a.Answer
  | .start _ => h.starts
  | .takeHandle => h.attached
  | .await => h.returned
  | .pause _ => ()

def served (me : Nat) (h : Host) : Effect interface State
  | .shared a, s => effect me a s
  | .host a, s => some (h.answer a, s)

/-- Whether the calling task is held while it is suspended. -/
def Request.checks : Request → Bool
  | .sleep _ => true
  | .yield => true
  | _ => false

/-! ## Changes of the task table -/

section Tasks

variable {tasks : List (TaskId × Task)} {u : Update} {t : TaskId}

theorem lookup_change (hu : u.task = t) :
    (tasks.map fun k => if k.1 = u.task then (k.1, u.change k.2) else k).lookup t =
      (tasks.lookup t).map u.change := by
  induction tasks with
  | nil => rfl
  | cons k ks ih =>
    obtain ⟨q, v⟩ := k
    by_cases hq : q = t
    · simp [hu, hq]
    · have hn : ¬t = q := fun h => hq h.symm
      simp only [hu] at ih
      simp [List.lookup_cons, hu, hq, beq_false_of_ne hn, ih]

theorem lookup_unchanged (hu : u.task ≠ t) :
    (tasks.map fun k => if k.1 = u.task then (k.1, u.change k.2) else k).lookup t =
      tasks.lookup t := by
  induction tasks with
  | nil => rfl
  | cons k ks ih =>
    obtain ⟨q, v⟩ := k
    by_cases hq : q = u.task
    · have hn : (t == q) = false := beq_false_of_ne fun h => hu (hq.symm.trans h.symm)
      rw [List.map_cons, if_pos hq, List.lookup_cons, List.lookup_cons, hn, ih]
    · simp only [List.map_cons, if_neg hq, List.lookup_cons, ih]

theorem filter_unknown (ht : t ∉ tasks.map Prod.fst) : tasks.filter (·.1 != t) = tasks :=
  List.filter_eq_self.mpr fun k hk => by
    have hne : k.1 ≠ t := fun he => ht (he ▸ List.mem_map_of_mem hk)
    simpa using hne

theorem lookup_isSome_iff : (tasks.lookup t).isSome = true ↔ t ∈ tasks.map Prod.fst := by
  rw [List.lookup_isSome_iff, List.mem_map]
  exact exists_congr fun k => and_congr_right fun _ => beq_iff_eq.trans eq_comm

end Tasks

def Request.change? : Request → Option Update
  | .setPriority t n => some (.priority t n)
  | .suspend t => some (.suspended t true)
  | .resume t => some (.suspended t false)
  | _ => none

section Changes

variable {info : PlatformInfo} {own : TaskId} {me : Nat} {s : State} {q : Request} {u : Update}

theorem change_cases (h : q.change? = some u) :
    (∃ t n, u = .priority t n) ∨ ∃ t b, u = .suspended t b := by
  cases q <;> cases h
  · exact .inl ⟨_, _, rfl⟩
  · exact .inr ⟨_, _, rfl⟩
  · exact .inr ⟨_, _, rfl⟩

/-- A request that changes one record is refused at once, or logged before the change
is made. -/
theorem start_change (info : PlatformInfo) (own : TaskId) (h : q.change? = some u) :
    (∃ e, start info own q = failed e) ∨
      ∃ c, start info own q = .record c ∧ afterRecord c = .enter u := by
  cases q <;> cases h
  all_goals
    simp only [start]
    split
    · exact .inr ⟨_, rfl, rfl⟩
    · exact .inl ⟨_, rfl⟩

theorem apply_change (h : q.change? = some u) (tasks : List (TaskId × Task)) :
    u.apply tasks = ((tasks.lookup u.task).isSome,
      tasks.map fun k => if k.1 = u.task then (k.1, u.change k.2) else k) := by
  obtain ⟨t, n, rfl⟩ | ⟨t, b, rfl⟩ := change_cases h <;> rfl

theorem solo_change (info : PlatformInfo) (own : TaskId) (me : Nat) {c : Call}
    (h : q.change? = some u) (hc : afterRecord c = .enter u) (hs : s.inside = none) :
    ∃ v, (next info own).solo (lone me) 6 (.record c) s =
        .finished (.outcome (if (s.task? u.task).isSome then .ok () else .error .notFound)) v ∧
      v.inside = none ∧ v.tasks = (u.apply s.tasks).2 := by
  have ha := apply_change h s.tasks
  obtain ⟨t, n, rfl⟩ | ⟨t, b, rfl⟩ := change_cases h
  · cases hk : (s.tasks.lookup t).isSome <;>
      simp [Machine.solo, next, lone, effect, hc, hs, hk, ha, State.task?, Update.task,
        afterUpdate, ok, failed]
  · cases b <;> cases hk : (s.tasks.lookup t).isSome <;>
      simp [Machine.solo, next, lone, effect, hc, hs, hk, ha, State.task?, Update.task,
        afterUpdate, ok, failed]

/-- A request that succeeds has changed the record of its task, one that fails
has left it, and no other task is concerned. -/
theorem change_told (info : PlatformInfo) (own : TaskId) (me : Nat) (h : q.change? = some u)
    (hs : s.inside = none) :
    ∃ r v, (next info own).solo (lone me) 6 (start info own q) s = .finished (.outcome r) v ∧
      v.inside = none ∧
      v.task? u.task = (if r.isOk then (s.task? u.task).map u.change else s.task? u.task) ∧
      (r.isOk = true → (s.task? u.task).isSome = true) ∧
      ∀ t, t ≠ u.task → v.task? t = s.task? t := by
  obtain ⟨e, he⟩ | ⟨c, hp, hc⟩ := start_change info own h
  · exact ⟨.error e, s, by rw [he]; rfl, hs, rfl, nofun, fun _ _ => rfl⟩
  · obtain ⟨v, hr, hv, ht⟩ := solo_change info own me h hc hs
    rw [apply_change h] at ht
    have hl : v.task? u.task = (s.task? u.task).map u.change := by
      rw [State.task?, ht]
      exact lookup_change rfl
    have ho : ∀ t, t ≠ u.task → v.task? t = s.task? t := fun t hn => by
      rw [State.task?, ht]
      exact lookup_unchanged fun he => hn he.symm
    cases hk : s.task? u.task with
    | some k =>
      rw [hk] at hr hl
      exact ⟨.ok (), v, hp ▸ hr, hv, hl, fun _ => rfl, ho⟩
    | none =>
      rw [hk] at hr hl
      exact ⟨.error .notFound, v, hp ▸ hr, hv, hl, (by intro h; cases h), ho⟩

def holdRequest (t : TaskId) : Bool → Request
  | true => .suspend t
  | false => .resume t

theorem hold_marks {t : TaskId} {b : Bool} (hs : s.inside = none) :
    ∃ r u, (next info own).solo (lone me) 6 (start info own (holdRequest t b)) s =
        .finished (.outcome r) u ∧ u.inside = none ∧
      u.isSuspended t = (if r.isOk then b else s.isSuspended t) ∧
      ∀ q, q ≠ t → u.isSuspended q = s.isSuspended q := by
  have h : (holdRequest t b).change? = some (.suspended t b) := by cases b <;> rfl
  obtain ⟨r, u, hr, hu, ht, hk, ho⟩ := change_told info own me h hs
  refine ⟨r, u, hr, hu, ?_, fun q hq => ?_⟩
  · simp only [State.isSuspended, show u.task? t = _ from ht]
    split
    next hok =>
      obtain ⟨k, hk⟩ := Option.isSome_iff_exists.mp (hk hok)
      simp [show s.task? t = some k from hk, Update.task, Update.change]
    next => rfl
  · rw [State.isSuspended, ho q hq, State.isSuspended]

end Changes

end SyncCore.Mock

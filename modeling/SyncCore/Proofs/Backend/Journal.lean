import SyncCore.Proofs.Backend.Solo
import SyncCore.Proofs.Run

/-!
# The log and the task table of the mock backend

The log and the table are kept apart, and each call writes to them by itself
after checks of its own. While calls are made one at a time the table can still
be read off the log: replaying the entries in order makes the same table, and
every field of a task is given by the last entry that concerns it.
-/

set_option autoImplicit false

namespace SyncCore.Mock

namespace Call

def task? : Call → Option TaskId
  | .spawn t _ _ _ => some t
  | .join t => some t
  | .detach t => some t
  | .setPriority t _ => some t
  | .suspend t => some t
  | .resume t => some t
  | .sleep _ => none

def spawned? : Call → Option TaskId
  | .spawn t _ _ _ => some t
  | _ => none

def priority? (t : TaskId) : Call → Option Int32
  | .spawn q _ _ n => if q = t then some n else none
  | .setPriority q n => if q = t then some n else none
  | _ => none

def hold? (t : TaskId) : Call → Option Bool
  | .suspend q => if q = t then some true else none
  | .resume q => if q = t then some false else none
  | _ => none

def update? : Call → Option Update
  | .spawn t name stackSize n => some (.insert t name stackSize n)
  | .detach t => some (.detached t)
  | .setPriority t n => some (.priority t n)
  | .suspend t => some (.suspended t true)
  | .resume t => some (.suspended t false)
  | _ => none

def replay (tasks : List (TaskId × Task)) (c : Call) : List (TaskId × Task) :=
  match c.update? with
  | some u => (u.apply tasks).2
  | none => tasks

end Call

def replay (calls : List Call) : List (TaskId × Task) := calls.foldl Call.replay []

/-! ## What a log tells of a task -/

structure Explains (calls : List Call) (tasks : List (TaskId × Task)) : Prop where
  spawned : tasks.map Prod.fst = calls.filterMap Call.spawned?
  rising : (tasks.map Prod.fst).Pairwise (· < ·)
  concerns : ∀ c ∈ calls, ∀ t ∈ c.task?, t ∈ tasks.map Prod.fst
  priority : ∀ k ∈ tasks, (calls.filterMap (Call.priority? k.1)).getLast? = some k.2.priority
  suspended : ∀ k ∈ tasks,
    k.2.suspended = true ↔ (calls.filterMap (Call.hold? k.1)).getLast? = some true
  detached : ∀ k ∈ tasks, k.2.detached = true ↔ .detach k.1 ∈ calls

section Explaining

variable {calls : List Call} {tasks : List (TaskId × Task)} {c : Call} {t : TaskId}

theorem last_snoc {A : Type} (f : Call → Option A) :
    ((calls ++ [c]).filterMap f).getLast? = (f c).or (calls.filterMap f).getLast? := by
  cases h : f c <;> simp [List.filterMap_append, h]

def Call.turn (c : Call) (t : TaskId) (k : Task) : Task :=
  ⟨(c.priority? t).getD k.priority, (c.hold? t).getD k.suspended, k.detached || c = .detach t⟩

theorem replay_turns (h : c.spawned? = none) :
    c.replay tasks = tasks.map fun k => (k.1, c.turn k.1 k.2) := by
  have hid : ∀ f : TaskId × Task → TaskId × Task, (∀ k, f k = k) → tasks = tasks.map f :=
    fun f hf => by rw [show f = id from funext hf, List.map_id]
  cases c with
  | spawn => cases h
  | join q => exact hid _ fun k => by simp [Call.turn, Call.priority?, Call.hold?]
  | sleep ms => exact hid _ fun k => by simp [Call.turn, Call.priority?, Call.hold?]
  | _ q =>
    refine List.map_congr_left fun ⟨t, k⟩ _ => ?_
    by_cases hq : q = t
    · subst hq
      simp [Update.task, Update.change, Call.turn, Call.priority?, Call.hold?]
    · have hn : t ≠ q := fun he => hq he.symm
      simp [Update.task, Call.turn, Call.priority?, Call.hold?, hq, hn]

theorem replay_ids (h : c.spawned? = none) :
    (c.replay tasks).map Prod.fst = tasks.map Prod.fst := by
  rw [replay_turns h, List.map_map]
  rfl

theorem replay_spawn {name : String} {stackSize : UInt64} {n : Int32}
    (ht : t ∉ tasks.map Prod.fst) :
    Call.replay tasks (.spawn t name stackSize n) = tasks ++ [(t, ⟨n, false, false⟩)] := by
  simp [Call.replay, Call.update?, Update.apply, filter_unknown ht]

namespace Explains

theorem nil : Explains [] [] where
  spawned := rfl
  rising := List.Pairwise.nil
  concerns := nofun
  priority := nofun
  suspended := nofun
  detached := nofun

theorem turned (h : Explains calls tasks) (hc : c.spawned? = none)
    (hk : ∀ t ∈ c.task?, t ∈ tasks.map Prod.fst) : Explains (calls ++ [c]) (c.replay tasks) := by
  have hids : (c.replay tasks).map Prod.fst = tasks.map Prod.fst := replay_ids hc
  have hmem : ∀ k ∈ c.replay tasks, ∃ v, (k.1, v) ∈ tasks ∧ k.2 = c.turn k.1 v := fun k hk => by
    rw [replay_turns hc] at hk
    obtain ⟨⟨t, v⟩, hm, rfl⟩ := List.mem_map.mp hk
    exact ⟨v, hm, rfl⟩
  refine ⟨?_, hids ▸ h.rising, fun d hd t ht => ?_, fun k hm => ?_, fun k hm => ?_, fun k hm => ?_⟩
  · rw [hids, h.spawned, List.filterMap_append]
    simp [hc]
  · rw [hids]
    obtain hd | hd := List.mem_append.mp hd
    · exact h.concerns d hd t ht
    · cases List.mem_singleton.mp hd
      exact hk t ht
  · obtain ⟨v, hv, he⟩ := hmem k hm
    rw [last_snoc, h.priority _ hv, he, Call.turn]
    cases c.priority? k.1 <;> rfl
  · obtain ⟨v, hv, he⟩ := hmem k hm
    rw [last_snoc, he, Call.turn]
    cases c.hold? k.1 with
    | none => simpa using h.suspended _ hv
    | some b => simp
  · obtain ⟨v, hv, he⟩ := hmem k hm
    rw [he, Call.turn, Bool.or_eq_true, h.detached _ hv, List.mem_append, List.mem_singleton,
      decide_eq_true_eq, eq_comm (a := c)]

theorem untold (h : Explains calls tasks) (ht : t ∉ tasks.map Prod.fst) :
    calls.filterMap (Call.hold? t) = [] ∧ .detach t ∉ calls := by
  have hc : ∀ c ∈ calls, t ∉ c.task? := fun c hc hm => ht (h.concerns c hc t hm)
  refine ⟨List.filterMap_eq_nil_iff.mpr fun c hm => ?_, fun hm => hc _ hm rfl⟩
  have hn := hc c hm
  cases c <;> simp_all [Call.hold?, Call.task?]

theorem started (h : Explains calls tasks) {name : String} {stackSize : UInt64} {n : Int32}
    (ht : ∀ q ∈ tasks.map Prod.fst, q < t) :
    Explains (calls ++ [.spawn t name stackSize n])
      (Call.replay tasks (.spawn t name stackSize n)) := by
  have hnew : t ∉ tasks.map Prod.fst := fun hm => absurd (ht t hm) (UInt32.lt_irrefl t)
  have hold : ∀ k ∈ tasks, t ≠ k.1 := fun k hk he => hnew (he ▸ List.mem_map_of_mem hk)
  rw [replay_spawn hnew]
  refine ⟨?_, ?_, fun d hd q hq => ?_, fun k hm => ?_, fun k hm => ?_, fun k hm => ?_⟩
  · simp [h.spawned, Call.spawned?]
  -- The new number is greater than all others, so the order is kept.
  · rw [List.map_append, List.pairwise_append]
    exact ⟨h.rising, List.pairwise_singleton .., fun q hq r hr => by
      cases List.mem_singleton.mp hr
      exact ht q hq⟩
  · rw [List.map_append, List.mem_append]
    obtain hd | hd := List.mem_append.mp hd
    · exact .inl (h.concerns d hd q hq)
    · cases List.mem_singleton.mp hd
      cases hq
      exact .inr (List.mem_singleton_self t)
  · rw [last_snoc]
    obtain hm | hm := List.mem_append.mp hm
    · rw [Call.priority?, if_neg (hold k hm), h.priority k hm]
      rfl
    · cases List.mem_singleton.mp hm
      simp [Call.priority?]
  -- A number that is new has no entries before its spawn: the flags of the task are clear.
  · rw [last_snoc]
    obtain hm | hm := List.mem_append.mp hm
    · exact h.suspended k hm
    · cases List.mem_singleton.mp hm
      simp [(h.untold hnew).1, Call.hold?]
  · rw [List.mem_append, List.mem_singleton]
    obtain hm | hm := List.mem_append.mp hm
    · simpa using h.detached k hm
    · cases List.mem_singleton.mp hm
      simpa using (h.untold hnew).2

end Explains

end Explaining

/-! ## One call -/

namespace Request

def task? : Request → Option TaskId
  | .join t => some t
  | .detach t => some t
  | .setPriority t _ => some t
  | .suspend t => some t
  | .resume t => some t
  | _ => none

def starts : Request → Bool
  | .spawn _ _ _ => true
  | _ => false

/-- The error of a request that is refused for an injected failure, for the
priority range or for the capabilities of the clone. -/
def refusal? (info : PlatformInfo) (s : State) : Request → Option ErrorKind
  | .spawn _ _ n =>
    if 0 < s.failing then some .unknown
    else if inRange info n then none else some .invalidParameter
  | .setPriority _ n => if inRange info n then none else some .invalidParameter
  | .join _ => if info.supports .nativeJoin then none else some .notImplemented
  | .suspend _ => if info.supports .suspend then none else some .notImplemented
  | .resume _ => if info.supports .suspend then none else some .notImplemented
  | _ => none

def entry? (s : State) : Request → Option Call
  | .spawn name stackSize n => some (.spawn s.nextId name stackSize n)
  | .join t => some (.join t)
  | .detach t => some (.detach t)
  | .setPriority t n => some (.setPriority t n)
  | .suspend t => some (.suspend t)
  | .resume t => some (.resume t)
  | .sleep ms => some (.sleep ms)
  | .yield => none

def answer (h : Host) (s : State) : Request → Reply
  | .spawn _ _ _ => .spawned s.nextId
  | .join _ => .outcome (if h.attached && h.returned then .ok () else .error .threadJoinFailed)
  | _ => .outcome (.ok ())

end Request

def Reply.thread? : Reply → Option TaskId
  | .spawned t => some t
  | .outcome _ => none

structure Carried (info : PlatformInfo) (h : Host) (s : State) (q : Request) (r : Reply)
    (u : State) : Prop where
  inside : u.inside = none
  refused : ∀ e ∈ q.refusal? info s, r = .outcome (.error e) ∧
    u.calls = s.calls ∧ u.tasks = s.tasks ∧ u.nextId = s.nextId
  served : q.refusal? info s = none → r = q.answer h s ∧
    u.calls = s.calls ++ (q.entry? s).toList ∧
    u.tasks = (q.entry? s).toList.foldl Call.replay s.tasks ∧
    u.nextId = s.nextId + UInt32.ofNat q.starts.toNat

section Calls

variable {info : PlatformInfo} {own : TaskId} {me : Nat} {h : Host} {s u : State} {q : Request}
  {r : Reply} {c : Call} {e : ErrorKind}

namespace Carried

theorem of_refusal (hr : q.refusal? info s = some e) (hi : u.inside = none)
    (hu : u.calls = s.calls ∧ u.tasks = s.tasks ∧ u.nextId = s.nextId) :
    Carried info h s q (.outcome (.error e)) u where
  inside := hi
  refused := fun f hf => by
    cases hr.symm.trans hf
    exact ⟨rfl, hu⟩
  served := fun hn => nomatch hr.symm.trans hn

theorem of_entry (hn : q.refusal? info s = none) (hi : u.inside = none) (hr : r = q.answer h s)
    (hc : u.calls = s.calls ++ (q.entry? s).toList)
    (ht : u.tasks = (q.entry? s).toList.foldl Call.replay s.tasks)
    (hd : u.nextId = s.nextId + UInt32.ofNat q.starts.toNat) : Carried info h s q r u where
  inside := hi
  refused := fun _ he => nomatch hn.symm.trans he
  served := fun _ => ⟨hr, hc, ht, hd⟩

end Carried

theorem start_refused (hq : q.starts = false) (he : q.refusal? info s = some e) :
    start info own q = failed e := by
  cases q with
  | spawn => cases hq
  | detach => cases he
  | sleep => cases he
  | yield => cases he
  | _ =>
    simp only [Request.refusal?, Option.ite_none_left_eq_some] at he
    obtain ⟨hn, he⟩ := he
    cases he
    exact if_neg hn

/-- A call on a task that is not refused is logged before it takes effect. -/
theorem start_logged (hq : q.task?.isSome = true) (hn : q.refusal? info s = none)
    (hc : q.entry? s = some c) : start info own q = .record c := by
  cases q with
  | spawn => cases hq
  | sleep => cases hq
  | yield => cases hq
  | detach => cases hc; rfl
  | _ =>
    cases hc
    simp only [Request.refusal?, ite_eq_left_iff, reduceCtorEq, imp_false, not_not] at hn
    exact if_pos hn

def State.after (s : State) (c : Call) (sleepers : List Nat) : State :=
  { s with calls := s.calls ++ [c], tasks := c.replay s.tasks, inside := none, sleepers }

variable (info own me h)

theorem solo_record (hs : s.inside = none) (hc : c.spawned? = none) (hu : c.update?.isSome = true)
    (hk : ∀ t ∈ c.task?, (s.task? t).isSome = true) :
    ∃ z, (next info own).solo (served me h) 8 (.record c) s =
      .finished (.outcome (.ok ())) (s.after c z) := by
  cases c with
  | spawn => cases hc
  | join => cases hu
  | sleep => cases hu
  | resume t =>
    have ht : (s.tasks.lookup t).isSome = true := hk t rfl
    refine ⟨[], ?_⟩
    simp [Machine.solo, next, served, effect, hs, ht, ok, afterRecord, afterUpdate, Update.apply,
      Update.task, State.after, Call.replay, Call.update?]
  | _ t =>
    have ht : (s.tasks.lookup t).isSome = true := hk t rfl
    refine ⟨s.sleepers, ?_⟩
    simp [Machine.solo, next, served, effect, hs, ht, ok, afterRecord, afterUpdate, Update.apply,
      Update.task, State.after, Call.replay, Call.update?]

theorem record_carried (hs : s.inside = none) (hr : q.refusal? info s = none)
    (hc : q.entry? s = some c) (ha : q.answer h s = .outcome (.ok ())) (hq : q.starts = false)
    (hd : c.spawned? = none) (hu : c.update?.isSome = true)
    (hk : ∀ t ∈ c.task?, (s.task? t).isSome = true) :
    ∃ r u, (next info own).solo (served me h) 8 (.record c) s = .finished r u ∧
      Carried info h s q r u := by
  obtain ⟨z, hz⟩ := solo_record info own me h hs hd hu hk
  refine ⟨_, _, hz, .of_entry hr rfl ha.symm ?_ ?_ ?_⟩
  · rw [hc]
    rfl
  · rw [hc]
    rfl
  · rw [hq]
    exact (UInt32.add_zero _).symm

theorem solo_join (s : State) (t : TaskId) :
    (next info own).solo (served me h) 8 (.record (.join t)) s =
      .finished ((Request.join t).answer h s) { s with calls := s.calls ++ [.join t] } := by
  cases ha : h.attached <;> cases hr : h.returned <;>
    simp [Machine.solo, next, served, effect, ok, failed, afterRecord, Host.answer, Request.answer,
      ha, hr]

/-- A spawn that is not refused enters its task before the thread starts, and is
logged after. -/
theorem solo_spawn {name : String} {stackSize : UInt64} {n : Int32} (hs : s.inside = none)
    (hh : h.starts = true) :
    ∃ r u, (next info own).solo (served me h) 8 (start info own (.spawn name stackSize n)) s =
        .finished r u ∧ Carried info h s (.spawn name stackSize n) r u := by
  by_cases hf : 0 < s.failing
  · refine ⟨.outcome (.error .unknown), { s with failing := s.failing - 1 }, ?_, ?_⟩
    · simp [Machine.solo, start, next, served, effect, hf, failed]
    · exact .of_refusal (if_pos hf) hs ⟨rfl, rfl, rfl⟩
  · cases hn : inRange info n with
    | false =>
      refine ⟨.outcome (.error .invalidParameter), s, ?_, ?_⟩
      · simp [Machine.solo, start, next, served, effect, hf, hn, failed]
      · exact .of_refusal (by simp [Request.refusal?, hf, hn]) hs ⟨rfl, rfl, rfl⟩
    | true =>
      refine ⟨.spawned s.nextId, { s.after (.spawn s.nextId name stackSize n) s.sleepers with
        nextId := s.nextId + 1 }, ?_, ?_⟩
      · simp [Machine.solo, start, next, served, effect, hf, hn, hs, hh, Host.answer, afterUpdate,
          afterRecord, State.after, Call.replay, Call.update?]
      · exact .of_entry (by simp [Request.refusal?, hf, hn]) rfl rfl rfl rfl rfl

theorem solo_checked (hs : s.inside = none) (hq : q.checks = true)
    (hc : own ≠ 0 → s.isSuspended own = false) :
    (next info own).solo (served me h) 8 (start info own q) s =
      .finished (.outcome (.ok ())) { s with calls := s.calls ++ (q.entry? s).toList } := by
  obtain ⟨nextId, failing, calls, tasks, inside, sleepers⟩ := s
  cases hs
  rw [State.isSuspended, State.task?] at hc
  cases q with
  | sleep ms =>
    by_cases ho : own = 0 <;>
      simp [Machine.solo, start, next, served, effect, checkpoint, ho, ok, afterRecord,
        Host.answer, Request.entry?, State.isSuspended, State.task?, hc]
  | yield =>
    by_cases ho : own = 0 <;>
      simp [Machine.solo, start, next, served, effect, checkpoint, ho, ok, Request.entry?,
        State.isSuspended, State.task?, hc]
  | _ => cases hq

theorem solo_held (hs : s.inside = none) (hq : q.checks = true) (ho : own ≠ 0)
    (hk : s.isSuspended own = true) :
    ∃ k, (next info own).solo (served me h) 8 (start info own q) s =
      .blocked (.checkWake k) { s with sleepers := s.sleepers ++ [me] } := by
  obtain ⟨nextId, failing, calls, tasks, inside, sleepers⟩ := s
  cases hs
  rw [State.isSuspended, State.task?] at hk
  have hw : ∀ k, (next info own).solo (served me h) 8 (checkpoint own k)
      ⟨nextId, failing, calls, tasks, none, sleepers⟩ =
      .blocked (.checkWake k) ⟨nextId, failing, calls, tasks, none, sleepers ++ [me]⟩ := by
    intro k
    simp [Machine.solo, next, served, effect, checkpoint, ho, State.isSuspended, State.task?, hk]
  cases q with
  | sleep ms => exact ⟨_, hw (.fallAsleep ms)⟩
  | yield => exact ⟨_, hw .finish⟩
  | _ => cases hq

/-- A call on a known task answers within 8 actions, unless a suspended task
sleeps or yields. -/
theorem call_carried (hs : s.inside = none) (hh : h.starts = true)
    (hq : ∀ t ∈ q.task?, (s.task? t).isSome = true)
    (hc : q.checks = true → own ≠ 0 → s.isSuspended own = false) :
    ∃ r u, (next info own).solo (served me h) 8 (start info own q) s = .finished r u ∧
      Carried info h s q r u := by
  cases hr : q.refusal? info s with
  | some e =>
    cases hp : q.starts with
    | true =>
      cases q with
      | spawn name stackSize n => exact solo_spawn info own me h hs hh
      | _ => cases hp
    | false =>
      refine ⟨_, s, ?_, .of_refusal hr hs ⟨rfl, rfl, rfl⟩⟩
      rw [start_refused hp hr]
      rfl
  | none =>
    -- Only a spawn draws a number.
    have hz : s.nextId = s.nextId + UInt32.ofNat false.toNat := (UInt32.add_zero _).symm
    cases q with
    | spawn name stackSize n => exact solo_spawn info own me h hs hh
    | sleep ms =>
      exact ⟨_, _, solo_checked info own me h hs rfl (hc rfl), .of_entry hr hs rfl rfl rfl hz⟩
    | yield =>
      exact ⟨_, _, solo_checked info own me h hs rfl (hc rfl), .of_entry hr hs rfl rfl rfl hz⟩
    | join t =>
      refine ⟨_, { s with calls := s.calls ++ [.join t] }, ?_, .of_entry hr hs rfl rfl rfl hz⟩
      rw [start_logged rfl hr rfl]
      exact solo_join info own me h s t
    | _ t =>
      rw [start_logged rfl hr rfl]
      exact record_carried info own me h hs hr rfl rfl rfl rfl rfl hq

end Calls

/-! ## Calls one at a time -/

structure Visit where
  info : PlatformInfo
  own : TaskId
  me : Nat
  request : Request
  attached : Bool
  returned : Bool

namespace Visit

def host (v : Visit) : Host := ⟨true, v.attached, v.returned⟩

def reply? (v : Visit) (s : State) : Option (Reply × State) :=
  match (next v.info v.own).solo (served v.me v.host) 8 (start v.info v.own v.request) s with
  | .finished r u => some (r, u)
  | _ => none

def Held (v : Visit) (s : State) : Prop :=
  v.request.checks = true ∧ v.own ≠ 0 ∧ s.isSuspended v.own = true

variable {s u : State} {r : Reply}

theorem answers (v : Visit) (hs : s.inside = none)
    (hq : ∀ t ∈ v.request.task?, (s.task? t).isSome = true) (hh : ¬v.Held s) :
    ∃ r u, (next v.info v.own).solo (served v.me v.host) 8 (start v.info v.own v.request) s =
      .finished r u ∧ Carried v.info v.host s v.request r u := by
  apply call_carried v.info v.own v.me v.host hs rfl hq
  intro hc ho
  rw [← Bool.not_eq_true]
  exact fun hk => hh ⟨hc, ho, hk⟩

variable {v : Visit}

theorem reply_none_iff (hs : s.inside = none)
    (hq : ∀ t ∈ v.request.task?, (s.task? t).isSome = true) : v.reply? s = none ↔ v.Held s := by
  constructor
  · intro hn
    by_contra hh
    obtain ⟨r, u, hu, -⟩ := v.answers hs hq hh
    simp [reply?, hu] at hn
  · rintro ⟨hc, ho, hk⟩
    obtain ⟨k, hu⟩ := solo_held v.info v.own v.me v.host hs hc ho hk
    simp [reply?, hu]

theorem reply_carried (hs : s.inside = none)
    (hq : ∀ t ∈ v.request.task?, (s.task? t).isSome = true) (h : v.reply? s = some (r, u)) :
    Carried v.info v.host s v.request r u := by
  have hn : ¬v.Held s := fun hh => by
    rw [(reply_none_iff hs hq).mpr hh] at h
    cases h
  obtain ⟨r', u', hu, hc⟩ := v.answers hs hq hn
  simp only [reply?, hu, Option.some.injEq, Prod.mk.injEq] at h
  obtain ⟨rfl, rfl⟩ := h
  exact hc

end Visit

/-- The state that all clones share, and the tasks of the threads that have been
handed out, on which calls can be made. -/
structure Session where
  shared : State
  threads : List TaskId

inductive Event where
  | call (v : Visit)
  | failNext (n : UInt32)

def Event.starts : Event → Bool
  | .call v => v.request.starts
  | .failNext _ => false

namespace Session

def opened : Session := ⟨.initial, []⟩

/-- A call is made on a thread that has been handed out, if on any, and is over
before the next one. -/
def step? : Event → Session → Option Session
  | .call v, s =>
    if v.request.task?.all (· ∈ s.threads) then
      (v.reply? s.shared).map fun r => ⟨r.2, s.threads ++ r.1.thread?.toList⟩
    else none
  | .failNext n, s => some { s with shared := { s.shared with failing := n } }

variable {s t : Session} {n : Nat}

/-- The log explains the table, whose tasks have at most the first `n` numbers. -/
structure Kept (s : Session) (n : Nat) : Prop where
  inside : s.shared.inside = none
  replayed : replay s.shared.calls = s.shared.tasks
  explains : Explains s.shared.calls s.shared.tasks
  known : ∀ t ∈ s.threads, t ∈ s.shared.tasks.map Prod.fst
  next : ∃ d ≤ n, s.shared.nextId = UInt32.ofNat (d + 1) ∧
    ∀ t ∈ s.shared.tasks.map Prod.fst, t.toNat ≤ d

theorem kept_opened : Kept opened 0 where
  inside := rfl
  replayed := rfl
  explains := .nil
  known := nofun
  next := ⟨0, Nat.le_refl 0, rfl, nofun⟩

theorem Kept.task (hs : s.Kept n) {q : Request} (hq : ∀ t ∈ q.task?, t ∈ s.threads) :
    ∀ t ∈ q.task?, (s.shared.task? t).isSome = true := by
  intro t ht
  rw [State.task?, lookup_isSome_iff]
  exact hs.known t (hq t ht)

theorem Kept.unchanged {u : State} (hs : s.Kept n) (hi : u.inside = none)
    (hc : u.calls = s.shared.calls) (ht : u.tasks = s.shared.tasks)
    (hn : u.nextId = s.shared.nextId) : Kept ⟨u, s.threads⟩ n where
  inside := hi
  replayed := by
    rw [hc, ht]
    exact hs.replayed
  explains := by
    rw [hc, ht]
    exact hs.explains
  known := by
    rw [ht]
    exact hs.known
  next := by
    rw [ht, hn]
    exact hs.next

theorem Kept.turned {u : State} {c : Call} (hs : s.Kept n) (hi : u.inside = none)
    (hc : u.calls = s.shared.calls ++ [c]) (ht : u.tasks = c.replay s.shared.tasks)
    (hn : u.nextId = s.shared.nextId) (hd : c.spawned? = none)
    (hk : ∀ t ∈ c.task?, t ∈ s.threads) : Kept ⟨u, s.threads⟩ n where
  inside := hi
  replayed := by
    rw [hc, ht, replay, List.foldl_append, ← replay, hs.replayed]
    rfl
  explains := by
    rw [hc, ht]
    exact hs.explains.turned hd fun t h => hs.known t (hk t h)
  known := by
    rw [ht, replay_ids hd]
    exact hs.known
  next := by
    rw [ht, replay_ids hd, hn]
    exact hs.next

theorem Kept.started {u : State} {name : String} {stackSize : UInt64} {k : Int32} (hs : s.Kept n)
    (hlt : n + 1 < UInt32.size) (hi : u.inside = none)
    (hc : u.calls = s.shared.calls ++ [.spawn s.shared.nextId name stackSize k])
    (ht : u.tasks = Call.replay s.shared.tasks (.spawn s.shared.nextId name stackSize k))
    (hn : u.nextId = s.shared.nextId + 1) :
    Kept ⟨u, s.threads ++ [s.shared.nextId]⟩ (n + 1) := by
  obtain ⟨d, hd, hnext, hids⟩ := hs.next
  have hnum : s.shared.nextId.toNat = d + 1 := by
    rw [hnext]
    exact UInt32.toNat_ofNat_of_lt' (by omega)
  have habove : ∀ q ∈ s.shared.tasks.map Prod.fst, q < s.shared.nextId := fun q hq => by
    rw [UInt32.lt_iff_toNat_lt, hnum]
    exact Nat.lt_succ_of_le (hids q hq)
  have hnew : s.shared.nextId ∉ s.shared.tasks.map Prod.fst := fun hm =>
    UInt32.lt_irrefl _ (habove _ hm)
  have htasks : u.tasks.map Prod.fst = s.shared.tasks.map Prod.fst ++ [s.shared.nextId] := by
    rw [ht, replay_spawn hnew, List.map_append]
    rfl
  refine ⟨hi, ?_, ?_, fun t hm => ?_, d + 1, by omega, ?_, fun t hm => ?_⟩
  · rw [hc, ht, replay, List.foldl_append, ← replay, hs.replayed]
    rfl
  · rw [hc, ht]
    exact hs.explains.started habove
  · rw [htasks]
    obtain hm | hm := List.mem_append.mp hm
    · exact List.mem_append_left _ (hs.known t hm)
    · exact List.mem_append_right _ hm
  · rw [hn, hnext, UInt32.ofNat_add (d + 1) 1]
    rfl
  · rw [htasks] at hm
    obtain hm | hm := List.mem_append.mp hm
    · exact Nat.le_succ_of_le (hids t hm)
    · rw [List.mem_singleton.mp hm, hnum]

theorem Kept.mono {m : Nat} (hs : s.Kept n) (hm : n ≤ m) : s.Kept m where
  inside := hs.inside
  replayed := hs.replayed
  explains := hs.explains
  known := hs.known
  next := by
    obtain ⟨d, hd, hn, hk⟩ := hs.next
    exact ⟨d, Nat.le_trans hd hm, hn, hk⟩

theorem Kept.call {info : PlatformInfo} {h : Host} {q : Request} {r : Reply} {u : State}
    (hs : s.Kept n) (hn : n + q.starts.toNat < UInt32.size) (hq : ∀ t ∈ q.task?, t ∈ s.threads)
    (hc : Carried info h s.shared q r u) :
    Kept ⟨u, s.threads ++ r.thread?.toList⟩ (n + q.starts.toNat) := by
  have unhanded {m : Nat} (hk : Kept ⟨u, s.threads⟩ m) : Kept ⟨u, s.threads ++ []⟩ m := by
    rwa [List.append_nil]
  cases hr : q.refusal? info s.shared with
  | some e =>
    obtain ⟨rfl, hcalls, htasks, hnext⟩ := hc.refused e hr
    exact unhanded ((hs.unchanged hc.inside hcalls htasks hnext).mono (Nat.le_add_right ..))
  | none =>
    obtain ⟨rfl, hcalls, htasks, hnext⟩ := hc.served hr
    cases q with
    | spawn name stackSize k => exact hs.started hn hc.inside hcalls htasks hnext
    | yield =>
      exact unhanded (hs.unchanged hc.inside (hcalls.trans (List.append_nil _)) htasks
        (hnext.trans (UInt32.add_zero _)))
    | _ =>
      exact unhanded (hs.turned hc.inside hcalls htasks (hnext.trans (UInt32.add_zero _)) rfl hq)

theorem kept_step {e : Event} (hs : s.Kept n) (hn : n + e.starts.toNat < UInt32.size)
    (h : step? e s = some t) : t.Kept (n + e.starts.toNat) := by
  cases e with
  | call v =>
    simp only [step?, Option.ite_none_right_eq_some] at h
    obtain ⟨hq, h⟩ := h
    have hq : ∀ t ∈ v.request.task?, t ∈ s.threads := fun t ht =>
      of_decide_eq_true ((Option.all_eq_true ..).mp hq t ht)
    obtain ⟨⟨r, u⟩, hr, rfl⟩ := Option.map_eq_some_iff.mp h
    exact hs.call hn hq (Visit.reply_carried hs.inside (hs.task hq) hr)
  | failNext k =>
    cases h
    exact ⟨hs.inside, hs.replayed, hs.explains, hs.known, hs.next⟩

/-- After fewer than 2³² spawns the log explains the table. -/
theorem kept_run {es : List Event} (h : run? step? es opened = some s)
    (hn : es.countP Event.starts < UInt32.size) : s.Kept (es.countP Event.starts) := by
  have hle : tally step? (fun _ e => e.starts) es opened ≤ es.countP Event.starts :=
    tally_le_countP Event.starts es opened
  have hk : 0 + tally step? (fun _ e => e.starts) es opened < UInt32.size → s.Kept _ :=
    run_keeps_tally (I := fun s n => n < UInt32.size → s.Kept n)
      (fun _ _ _ _ hs hst hn => kept_step (hs (Nat.lt_of_le_of_lt (Nat.le_add_right ..) hn)) hn hst)
      h fun _ => kept_opened
  rw [Nat.zero_add] at hk
  exact (hk (Nat.lt_of_le_of_lt hle hn)).mono hle

/-- While calls are made one at a time, the log explains the task table. Replayed
in order, it makes the same table: its tasks are those of the spawns, with
rising numbers, and the fields of each are as the last entries about it say. A
call answers, unless a suspended task sleeps or yields. One that is refused
answers with the error and leaves log and table as they are. -/
theorem log_explains_table {es : List Event} (h : run? step? es opened = some s)
    (hn : es.countP Event.starts < UInt32.size) :
    replay s.shared.calls = s.shared.tasks ∧ Explains s.shared.calls s.shared.tasks ∧
    ∀ v : Visit, (∀ t ∈ v.request.task?, t ∈ s.threads) →
      (v.reply? s.shared = none ↔ v.Held s.shared) ∧
      ∀ r u, v.reply? s.shared = some (r, u) →
        match v.request.refusal? v.info s.shared with
        | some e => r = .outcome (.error e) ∧ u.calls = s.shared.calls ∧ u.tasks = s.shared.tasks
        | none => r = v.request.answer v.host s.shared ∧
          u.calls = s.shared.calls ++ (v.request.entry? s.shared).toList := by
  have hs := kept_run h hn
  refine ⟨hs.replayed, hs.explains, fun v hv => ⟨?_, fun r u hr => ?_⟩⟩
  · exact Visit.reply_none_iff hs.inside (hs.task hv)
  · have hc := Visit.reply_carried hs.inside (hs.task hv) hr
    cases hf : v.request.refusal? v.info s.shared with
    | some e =>
      obtain ⟨hr, hcalls, htasks, -⟩ := hc.refused e hf
      exact ⟨hr, hcalls, htasks⟩
    | none =>
      obtain ⟨hr, hcalls, -⟩ := hc.served hf
      exact ⟨hr, hcalls⟩

/-- A clone with another range of priorities and a blocking join, but no suspension. -/
def joiningInfo : PlatformInfo :=
  { defaultInfo with
    capabilities := .threads ||| .nativeJoin
    thread := { defaultInfo.thread with minPriority := 5, maxPriority := 9 } }

def outside (info : PlatformInfo) (q : Request) : Event := .call ⟨info, 0, 0, q, true, true⟩

/-- Two clones are used in turn. The first spawn fails as it is made to, and one
call each is refused for its priority, for the suspension and for the join. -/
def usedInTurn : List Event :=
  [.failNext 1, outside defaultInfo (.spawn "a" 512 2), outside defaultInfo (.spawn "a" 512 2),
    outside joiningInfo (.spawn "b" 0 7), outside defaultInfo (.setPriority 1 9),
    outside joiningInfo (.setPriority 1 9), outside defaultInfo (.suspend 1),
    outside joiningInfo (.resume 1), outside defaultInfo (.resume 1),
    outside defaultInfo (.suspend 2), outside defaultInfo (.detach 2),
    outside defaultInfo (.join 1), outside joiningInfo (.join 1), outside defaultInfo (.sleep 5)]

theorem used_in_turn_explained : ∃ s, run? step? usedInTurn opened = some s ∧
    usedInTurn.countP Event.starts < UInt32.size ∧
    s.shared.calls = [.spawn 1 "a" 512 2, .spawn 2 "b" 0 7, .setPriority 1 9, .suspend 1,
      .resume 1, .suspend 2, .detach 2, .join 1, .sleep 5] ∧
    s.shared.tasks = [(1, ⟨9, false, false⟩), (2, ⟨7, true, true⟩)] ∧
    Explains s.shared.calls s.shared.tasks := by
  have ⟨s, h, hc, ht⟩ : ∃ s, run? step? usedInTurn opened = some s ∧
      s.shared.calls = [.spawn 1 "a" 512 2, .spawn 2 "b" 0 7, .setPriority 1 9, .suspend 1,
        .resume 1, .suspend 2, .detach 2, .join 1, .sleep 5] ∧
      s.shared.tasks = [(1, ⟨9, false, false⟩), (2, ⟨7, true, true⟩)] :=
    ⟨_, rfl, rfl, rfl⟩
  have hn : usedInTurn.countP Event.starts < UInt32.size := by decide
  exact ⟨s, h, hn, hc, ht, (log_explains_table h hn).2.1⟩

end Session

end SyncCore.Mock

import SyncCore.Proofs.Manager.Tasks

/-!
# The reported priority and the applied one

Setting a priority asks the backend first and stores the level afterwards.
Calls that overlap can store their levels in another order than they applied
them. The level that a handle reports at rest is the one the backend applied
last, unless the last call to store its level stored it too late.
-/

set_option autoImplicit false

namespace SyncCore.Manager

variable {V : Type}

/-! ## What calls come from -/

/-- Native priorities are those of the levels that a step is about. -/
def Move.Maps (limits : ThreadLimits) : Move V → Prop
  | .create r => r.native = r.attributes.priority.toNative limits
  | .begin _ (.priority p native _) => native = p.toNative limits
  | _ => True

instance (limits : ThreadLimits) : (c : Move V) → Decidable (c.Maps limits)
  | .create _ => inferInstanceAs (Decidable (_ = _))
  | .begin _ (.priority _ _ _) => inferInstanceAs (Decidable (_ = _))
  | .begin _ (.join _ _) => .isTrue trivial
  | .begin _ (.destroy _) => .isTrue trivial
  | .begin _ .drop => .isTrue trivial
  | .begin _ (.hold _ _ _) => .isTrue trivial
  | .act _ _ _ => .isTrue trivial
  | .finish _ _ => .isTrue trivial

theorem request_maps {limits : ThreadLimits} {a : Attributes} {id : ObjectId} {r : Create.Request}
    (h : Create.request limits a id = .ok r) : (Move.create r : Move V).Maps limits := by
  unfold Create.request at h
  cases ha : a.resolve limits with
  | error e =>
    rw [ha] at h
    cases h
  | ok b =>
    rw [ha] at h
    cases h
    rfl

def Control.storing : Control → Bool
  | .priority _ _ .note => true
  | _ => false

def Create.Pc.spawned : Create.Pc → Bool
  | .spawn => false
  | .spawnWarn _ => false
  | .done (.error _) => false
  | _ => true

/-! ## Effects on the two priorities -/

def Action.level? : Action V → Option Priority
  | .cell (.storePriority p) => some p
  | _ => none

def Action.native? : Action V → Option Int32
  | .backend (.spawn c) => some c.priority
  | .backend (.setPriority n) => some n
  | _ => none

section Effects

variable {e : Setting V} {id : ObjectId} {t t' : Table} {s s' : Shared V}

theorem effect_level {a : Action V} {x : a.Answer}
    (h : e.effect id a (t, s) = some (x, t', s')) :
    s'.object.priority = a.level?.getD s.object.priority := by
  cases a with
  | cell c =>
    cases h
    cases c with
    | storePriority p => exact Priority.ofWord_word p
    | exchangeState d f =>
      simp only [CellAction.perform, ThreadObject.exchangeState]
      split <;> rfl
    | _ => rfl
  | table c => cases Setting.effect_apart h; rfl
  | _ => cases h; rfl

theorem keeps_native {a : Action V} (h : a.native? = none) (k : Option Mock.Task) :
    (a.keeps e k).map Mock.Task.priority = k.map Mock.Task.priority := by
  cases a with
  | backend c =>
    cases c with
    | spawn n => cases h
    | setPriority n => cases h
    | _ =>
      simp only [Action.keeps, BackendCall.keeps]
      split <;> cases k <;> rfl
  | _ => rfl

end Effects

/-! ## The record of the last level stored -/

/-- Whether a step stores a level other than the one the backend applied last.
A step that stores none leaves the answer. -/
def Thread.late (limits : ThreadLimits) (id : ObjectId) (th : Thread V) (p : Party)
    (k : Option Mock.Task) (b : Bool) : Bool :=
  match (th.action? id p).bind Action.level? with
  | some q => decide (k.map Mock.Task.priority ≠ some (q.toNative limits))
  | none => b

def World.late (limits : ThreadLimits) (id : ObjectId) (s : World V × Ledger) (c : Move V)
    (b : Bool) : Bool :=
  match c with
  | .act q p _ => if q = id then (s.1.threads id).elim b fun th => th.late limits id p (s.2 id) b else b
  | _ => b

section Record

variable {e : Setting V} {limits : ThreadLimits} {id : ObjectId} {th : Thread V} {p : Party}
  {a : Action V} {k : Option Mock.Task} {b : Bool}

theorem Thread.late_eq (h : th.action? id p = some a) (ha : a.level? = none) :
    th.late limits id p k b = b := by
  simp only [late, h, Option.bind_some, ha]

theorem Thread.late_store {q : Priority} (h : th.action? id p = some a) (ha : a.level? = some q) :
    th.late limits id p k b = decide (k.map Mock.Task.priority ≠ some (q.toNative limits)) := by
  simp only [late, h, Option.bind_some, ha]

end Record

theorem Thread.action_level {id : ObjectId} {th : Thread V} {p : Party} {a : Action V}
    (h : th.action? id p = some a) (hp : p = .creator ∨ p = .routine ∨ p = .owner) :
    a.level? = none ∧ (p ≠ .creator → a.native? = none) := by
  obtain rfl | rfl | rfl := hp
  · simp only [action?] at h
    cases hc : th.creation <;> rw [hc] at h <;> cases h <;>
      exact ⟨rfl, fun hn => absurd rfl hn⟩
  · simp only [action?] at h
    cases hr : th.routine <;> rw [hr] at h <;> cases h <;> exact ⟨rfl, fun _ => rfl⟩
  · simp only [action?] at h
    cases hw : th.owner with
    | joining native pc => rw [hw] at h; cases pc <;> cases h <;> exact ⟨rfl, fun _ => rfl⟩
    | destroying joined pc => rw [hw] at h; cases pc <;> cases h <;> exact ⟨rfl, fun _ => rfl⟩
    | dropping joined pc => rw [hw] at h; cases pc <;> cases h <;> exact ⟨rfl, fun _ => rfl⟩
    | _ =>
      rw [hw] at h
      cases h

/-! ## The invariant of one thread -/

structure Thread.Levelled (limits : ThreadLimits) (th : Thread V) (k : Option Mock.Task)
    (late : Bool) : Prop where
  request : th.request.native = th.request.attributes.priority.toNative limits
  calls : ∀ p native pc, .priority p native pc ∈ th.controls → native = p.toNative limits
  controlled : th.controls ≠ [] → th.creation = .done (.ok ())
  early : th.creation ≠ .done (.ok ()) →
    th.shared.object.priority = th.request.attributes.priority ∧ late = false
  spawned : th.creation.spawned = true → k.isSome = true
  agree : (∀ c ∈ th.controls, c.storing = false) → ∀ n, k.map Mock.Task.priority = some n →
    (n = th.shared.object.priority.toNative limits ↔ late = false)

namespace Thread.Levelled

variable {e : Setting V} {limits : ThreadLimits} {id : ObjectId} {t t' : Table} {s' : Shared V}
  {th th' : Thread V} {p : Party} {k k' : Option Mock.Task} {b : Bool}

theorem new {r : Create.Request} (h : r.native = r.attributes.priority.toNative limits) :
    (Thread.new r : Thread V).Levelled limits none false where
  request := h
  calls := nofun
  controlled := fun h => absurd rfl h
  early := fun _ => ⟨Priority.ofWord_word _, rfl⟩
  spawned := nofun
  agree := nofun

theorem of_same (hl : th.Levelled limits k b) (hr : th'.request = th.request)
    (hd : th'.creation = th.creation) (hc : th'.controls = th.controls)
    (hp : th'.shared.object.priority = th.shared.object.priority)
    (hk : k'.map Mock.Task.priority = k.map Mock.Task.priority) : th'.Levelled limits k' b where
  request := hr ▸ hl.request
  calls := hc ▸ hl.calls
  controlled := hc ▸ hd ▸ hl.controlled
  early := fun h => by
    rw [hp, hr]
    exact hl.early (hd ▸ h)
  spawned := fun h => by
    have hs := congrArg Option.isSome hk
    rw [Option.isSome_map, Option.isSome_map] at hs
    exact hs.trans (hl.spawned (hd ▸ h))
  agree := fun h n hn => by
    rw [hp]
    exact hl.agree (hc ▸ h) n (hk ▸ hn)

theorem unshared {a : Action V} {r : a.Answer → Create.Pc} (hl : th.Levelled limits k b)
    (hn : Create.next th.request th.creation = .act a r) :
    th.creation ≠ .done (.ok ()) ∧ th.controls = [] := by
  have hu : th.creation ≠ .done (.ok ()) := fun hd => by
    rw [hd] at hn
    cases hn
  refine ⟨hu, ?_⟩
  by_contra h
  exact hu (hl.controlled h)

theorem creator {a : Action V} {r : a.Answer → Create.Pc} {x : a.Answer}
    (hl : th.Levelled limits k b) (hn : Create.next th.request th.creation = .act a r)
    (he : e.effect id a (t, th.shared) = some (x, t', s')) (ha : a.level? = none) :
    Thread.Levelled limits { th with creation := r x, shared := s' } (a.keeps e k) b := by
  obtain ⟨hu, hc⟩ := hl.unshared hn
  have hp : s'.object.priority = th.shared.object.priority := by
    rw [effect_level he, ha]
    rfl
  have of_kept : (a.keeps e k).map Mock.Task.priority = k.map Mock.Task.priority →
      ((r x).spawned = true → th.creation.spawned = true) →
      Thread.Levelled limits { th with creation := r x, shared := s' } (a.keeps e k) b :=
    fun hk hs => by
      have h : Thread.Levelled limits { th with shared := s' } (a.keeps e k) b :=
        hl.of_same rfl rfl rfl hp hk
      exact ⟨h.request, h.calls, fun hn => absurd hc hn, fun _ => h.early hu,
        fun hr => h.spawned (hs hr), h.agree⟩
  cases hd : th.creation with
  | spawn =>
    rw [hd] at hn
    cases hn
    have hx : e.backend (.spawn th.request.config) = x :=
      congrArg Prod.fst (Option.some.inj he)
    have hk : Action.keeps e (.backend (.spawn th.request.config)) k =
        BackendCall.keeps (.spawn th.request.config) x k := by rw [Action.keeps, hx]
    rcases x with f | v
    · exact of_kept (by rw [hk]; rfl) nofun
    · obtain ⟨hq, rfl⟩ := hl.early hu
      refine ⟨hl.request, hl.calls, fun hn => absurd hc hn, fun _ => ⟨hp.trans hq, rfl⟩,
        fun _ => by rw [hk]; rfl, fun _ n hn => ?_⟩
      rw [hk] at hn
      cases hn
      rw [hp, hq]
      exact iff_of_true hl.request rfl
  | done q =>
    rw [hd] at hn
    cases hn
  | spawnWarn f =>
    rw [hd] at hn
    cases hn
    exact of_kept rfl nofun
  | _ =>
    rw [hd] at hn
    cases hn
    exact of_kept (keeps_native rfl k) fun _ => by rw [hd]; rfl

theorem calls_set {i : Nat} {c' : Control} (hl : th.Levelled limits k b)
    (hm : ∀ p native pc, c' = .priority p native pc → native = p.toNative limits) :
    ∀ p native pc, .priority p native pc ∈ th.controls.set i c' → native = p.toNative limits :=
  fun p native pc h => (List.mem_or_eq_of_mem_set h).elim (hl.calls p native pc)
    fun h => hm p native pc h.symm

theorem of_control {i : Nat} {c c' : Control} (hl : th.Levelled limits k b)
    (hi : th.controls[i]? = some c) (hc : c.storing = false)
    (hm : ∀ p native pc, c' = .priority p native pc → native = p.toNative limits)
    (hp : s'.object.priority = th.shared.object.priority)
    (hk : k'.map Mock.Task.priority = k.map Mock.Task.priority) :
    Thread.Levelled limits { th with controls := th.controls.set i c', shared := s' } k' b where
  request := hl.request
  calls := hl.calls_set hm
  controlled := fun _ => hl.controlled (List.ne_nil_of_mem (List.mem_of_getElem? hi))
  early := fun h => by
    rw [hp]
    exact hl.early h
  spawned := fun h => by
    have hs := congrArg Option.isSome hk
    rw [Option.isSome_map, Option.isSome_map] at hs
    exact hs.trans (hl.spawned h)
  agree := fun h n hn => by
    rw [hp]
    refine hl.agree (fun d hd => ?_) n (hk ▸ hn)
    obtain ⟨j, hj⟩ := List.mem_iff_getElem?.mp hd
    by_cases hij : i = j
    · subst hij
      cases hi.symm.trans hj
      exact hc
    · exact h d (List.mem_of_getElem? ((List.getElem?_set_ne hij).trans hj))

theorem hold {i : Nat} {d : Hold} {pc : Hold.Pc} {a : Action V} {r : a.Answer → Hold.Pc}
    {x : a.Answer} (hl : th.Levelled limits k b) (hi : th.controls[i]? = some (.hold d pc))
    (hn : Hold.next id d pc = .act a r) (ha : th.action? id (.control i) = some a)
    (he : e.effect id a (t, th.shared) = some (x, t', s')) :
    Thread.Levelled limits { th with controls := th.controls.set i (.hold d (r x)), shared := s' }
      (a.keeps e k) (th.late limits id (.control i) k b) := by
  have hv : a.level? = none ∧ a.native? = none := by
    cases pc <;> cases d <;> cases hn <;> exact ⟨rfl, rfl⟩
  rw [late_eq ha hv.1]
  refine hl.of_control hi rfl nofun ?_ (keeps_native hv.2 k)
  rw [effect_level he, hv.1]
  rfl

theorem priority {i : Nat} {q : Priority} {native : Int32} {pc : SetPriority.Pc} {a : Action V}
    {r : a.Answer → SetPriority.Pc} {x : a.Answer} (hl : th.Levelled limits k b)
    (hi : th.controls[i]? = some (.priority q native pc))
    (hn : SetPriority.next id q native pc = .act a r) (ha : th.action? id (.control i) = some a)
    (he : e.effect id a (t, th.shared) = some (x, t', s')) :
    Thread.Levelled limits
      { th with controls := th.controls.set i (.priority q native (r x)), shared := s' }
      (a.keeps e k) (th.late limits id (.control i) k b) := by
  have hm : ∀ y p m pc', .priority q native (r y) = Control.priority p m pc' →
      m = p.toNative limits := by
    rintro y _ _ _ ⟨⟩
    exact hl.calls q native pc (List.mem_of_getElem? hi)
  have hc := hl.controlled (List.ne_nil_of_mem (List.mem_of_getElem? hi))
  have of_kept : pc ≠ .note → a.level? = none →
      (a.keeps e k).map Mock.Task.priority = k.map Mock.Task.priority →
      Thread.Levelled limits
        { th with controls := th.controls.set i (.priority q native (r x)), shared := s' }
        (a.keeps e k) (th.late limits id (.control i) k b) := fun hp hv hk => by
    rw [late_eq ha hv]
    refine hl.of_control hi ?_ (hm x) ?_ hk
    · cases pc <;> first | rfl | exact absurd rfl hp
    · rw [effect_level he, hv]
      rfl
  cases pc with
  | call =>
    cases hn
    have hx : e.backend (.setPriority native) = x := congrArg Prod.fst (Option.some.inj he)
    have hk : Action.keeps e (.backend (.setPriority native)) k =
        BackendCall.keeps (.setPriority native) x k := by rw [Action.keeps, hx]
    rcases x with f | u
    · exact of_kept nofun rfl (by rw [hk]; rfl)
    · refine ⟨hl.request, hl.calls_set (hm (.ok u)), fun _ => hc, fun h => absurd hc h, fun h => ?_,
        fun h => ?_⟩
      · rw [hk]
        exact Option.isSome_map.trans (hl.spawned h)
      · have hlt := (List.getElem?_eq_some_iff.mp hi).1
        cases h _ (List.mem_of_getElem? (List.getElem?_set_self hlt))
  | note =>
    have hp := effect_level he
    cases hn
    rw [late_store ha rfl]
    refine ⟨hl.request, hl.calls_set (hm x), fun _ => hc, fun h => absurd hc h, hl.spawned,
      fun _ n hn => ?_⟩
    rw [hp]
    have hn : k.map Mock.Task.priority = some n := hn
    simp [hn, Action.level?]
  | done q => cases hn
  | _ =>
    cases hn
    exact of_kept nofun rfl rfl

theorem perform (hl : th.Levelled limits k b)
    (h : th.perform? (e.effect id) id t p = some (t', th')) :
    th'.Levelled limits (th.keeps e id p k) (th.late limits id p k b) := by
  obtain ⟨a, x, s', ha, he, hp⟩ := perform_cases h
  obtain ⟨r, rfl, hn, rfl⟩ | ⟨r, rfl, hn, rfl⟩ | ⟨r, rfl, hn, rfl⟩ | ⟨i, d, rfl, -⟩ := hp
  · have hv := (action_level ha (.inl rfl)).1
    rw [keeps_eq ha, late_eq ha hv]
    exact hl.creator hn he hv
  · obtain ⟨hv, hq⟩ := action_level ha (.inr (.inl rfl))
    rw [keeps_eq ha, late_eq ha hv]
    refine hl.of_same rfl rfl rfl ?_ (keeps_native (hq nofun) k)
    rw [effect_level he, hv]
    rfl
  · obtain ⟨hv, hq⟩ := action_level ha (.inr (.inr rfl))
    rw [keeps_eq ha, late_eq ha hv]
    refine hl.of_same rfl rfl rfl ?_ (keeps_native (hq nofun) k)
    rw [effect_level he, hv]
    rfl
  · obtain ⟨c, a, r, x, s', hi, hn, ha, he, rfl⟩ := perform_control h
    rw [keeps_eq ha]
    cases c with
    | hold d pc =>
      obtain ⟨f, hf, rfl⟩ := Next.onto_act hn
      exact hl.hold hi hf ha he
    | priority q native pc =>
      obtain ⟨f, hf, rfl⟩ := Next.onto_act hn
      exact hl.priority hi hf ha he

theorem begin {c : HandleCall} (hl : th.Levelled limits k b) (h : th.begin? c = some th')
    (hm : (Move.begin id c : Move V).Maps limits) : th'.Levelled limits k b := by
  obtain ⟨hd, -, ⟨d, hk, rfl⟩ | ⟨-, w, -, rfl⟩⟩ := begin_cases h
  · refine ⟨hl.request, fun p native pc hp => ?_, fun _ => hd, hl.early, hl.spawned,
      fun hs => hl.agree fun f hf => hs f (List.mem_cons_of_mem d hf)⟩
    obtain hp | hp := List.mem_cons.mp hp
    · subst hp
      cases c <;> cases hk
      exact hm
    · exact hl.calls p native pc hp
  · exact ⟨hl.request, hl.calls, hl.controlled, hl.early, hl.spawned, hl.agree⟩

theorem finish (hl : th.Levelled limits k b) (h : th.finish? p = some th') :
    th'.Levelled limits k b := by
  obtain ⟨w, -, rfl⟩ | ⟨i, c, hi, hc, rfl⟩ := finish_cases h
  · exact ⟨hl.request, hl.calls, hl.controlled, hl.early, hl.spawned, hl.agree⟩
  · have hd := hl.controlled (List.ne_nil_of_mem (List.mem_of_getElem? hi))
    refine ⟨hl.request, fun p native pc hp => hl.calls p native pc (List.mem_of_mem_eraseIdx hp),
      fun _ => hd, hl.early, hl.spawned, fun hs => hl.agree fun f hf => ?_⟩
    obtain ⟨j, hj⟩ := List.mem_iff_getElem?.mp hf
    by_cases hij : j = i
    · subst hij
      cases hi.symm.trans hj
      cases c with
      | hold d pc => rfl
      | priority q native pc => cases pc <;> first | rfl | cases hc
    · exact hs f (List.mem_eraseIdx_iff_getElem?.mpr ⟨j, hij, hj⟩)

end Thread.Levelled

/-! ## Calls that keep apart -/

/-- A step that applies a level while another call has still to store its own. -/
def Thread.overtakes (e : Setting V) (id : ObjectId) (th : Thread V) (p : Party) : Bool :=
  th.controls.any Control.storing &&
    match th.action? id p with
    | some (.backend (.setPriority n)) => (BackendCall.setPriority n).agreed (e.backend (.setPriority n))
    | _ => false

/-- Every call that has still to store its level is the one that applied the last,
and the last level that was stored was stored in time. -/
structure Thread.Prompt (th : Thread V) (k : Option Mock.Task) (late : Bool) : Prop where
  applied : ∀ p native, .priority p native .note ∈ th.controls →
    k.map Mock.Task.priority = some native
  intime : late = false

namespace Thread.Prompt

variable {e : Setting V} {limits : ThreadLimits} {id : ObjectId} {t t' : Table} {s' : Shared V}
  {th th' : Thread V} {p : Party} {k k' : Option Mock.Task} {b : Bool}

theorem of_set {i : Nat} {c' : Control} (hp : th.Prompt k b)
    (hc : ∀ p native, c' = .priority p native .note → k'.map Mock.Task.priority = some native)
    (hk : (∃ c ∈ th.controls, c.storing = true) →
      k'.map Mock.Task.priority = k.map Mock.Task.priority) :
    Thread.Prompt { th with controls := th.controls.set i c', shared := s' } k' b where
  applied := fun p native h => by
    obtain h | h := List.mem_or_eq_of_mem_set h
    · rw [hk ⟨_, h, rfl⟩]
      exact hp.applied p native h
    · exact hc p native h.symm
  intime := hp.intime

theorem priority {i : Nat} {q : Priority} {native : Int32} {pc : SetPriority.Pc} {a : Action V}
    {r : a.Answer → SetPriority.Pc} {x : a.Answer} (hp : th.Prompt k b)
    (hl : th.Levelled limits k b) (hi : th.controls[i]? = some (.priority q native pc))
    (hn : SetPriority.next id q native pc = .act a r) (ha : th.action? id (.control i) = some a)
    (he : e.effect id a (t, th.shared) = some (x, t', s'))
    (ho : th.overtakes e id (.control i) = false) :
    Thread.Prompt { th with controls := th.controls.set i (.priority q native (r x)), shared := s' }
      (a.keeps e k) (th.late limits id (.control i) k b) := by
  have hm := List.mem_of_getElem? hi
  cases pc with
  | call =>
    cases hn
    have hx : e.backend (.setPriority native) = x := congrArg Prod.fst (Option.some.inj he)
    have hk : Action.keeps e (.backend (.setPriority native)) k =
        BackendCall.keeps (.setPriority native) x k := by rw [Action.keeps, hx]
    rw [late_eq ha rfl, hk]
    rcases x with f | u
    · exact hp.of_set nofun fun _ => rfl
    · refine hp.of_set ?_ ?_
      · rintro _ _ ⟨⟩
        have hs := hl.spawned (by rw [hl.controlled (List.ne_nil_of_mem hm)]; rfl)
        obtain ⟨j, rfl⟩ := Option.isSome_iff_exists.mp hs
        rfl
      · rintro ⟨c, hc, hs⟩
        simp only [overtakes, ha, hx, BackendCall.agreed, Bool.and_true] at ho
        exact absurd hs (List.any_eq_false.mp ho c hc)
  | note =>
    cases hn
    have hk := hp.applied q native hm
    have h : Thread.Prompt
        { th with controls := th.controls.set i (.priority q native (.done (.ok ()))), shared := s' }
        k b := hp.of_set nofun fun _ => rfl
    refine ⟨h.applied, ?_⟩
    rw [late_store ha rfl, hk, hl.calls q native .note hm]
    simp
  | done q => cases hn
  | check =>
    cases hn
    rw [late_eq ha rfl]
    refine hp.of_set ?_ fun _ => rfl
    intro p n h
    dsimp only at h
    split at h <;> cases h
  | look =>
    cases hn
    rw [late_eq ha rfl]
    refine hp.of_set ?_ fun _ => rfl
    intro p n h
    dsimp only at h
    split at h <;> cases h
  | warn f =>
    cases hn
    rw [late_eq ha rfl]
    exact hp.of_set nofun fun _ => rfl

theorem perform (hp : th.Prompt k b) (hl : th.Levelled limits k b)
    (h : th.perform? (e.effect id) id t p = some (t', th'))
    (ho : th.overtakes e id p = false) :
    th'.Prompt (th.keeps e id p k) (th.late limits id p k b) := by
  obtain ⟨a, x, s', ha, he, hc⟩ := perform_cases h
  obtain ⟨r, rfl, hn, rfl⟩ | ⟨r, rfl, hn, rfl⟩ | ⟨r, rfl, hn, rfl⟩ | ⟨i, d, rfl, -⟩ := hc
  · have hv := (action_level ha (.inl rfl)).1
    rw [late_eq ha hv]
    exact ⟨fun p n h => by simp [(hl.unshared hn).2] at h, hp.intime⟩
  · obtain ⟨hv, hq⟩ := action_level ha (.inr (.inl rfl))
    rw [keeps_eq ha, late_eq ha hv]
    exact ⟨fun p n h => (keeps_native (hq nofun) k).trans (hp.applied p n h), hp.intime⟩
  · obtain ⟨hv, hq⟩ := action_level ha (.inr (.inr rfl))
    rw [keeps_eq ha, late_eq ha hv]
    exact ⟨fun p n h => (keeps_native (hq nofun) k).trans (hp.applied p n h), hp.intime⟩
  · obtain ⟨c, a, r, x, s', hi, hn, ha, he, rfl⟩ := perform_control h
    rw [keeps_eq ha]
    cases c with
    | hold d pc =>
      obtain ⟨f, hf, rfl⟩ := Next.onto_act hn
      have hv : a.level? = none ∧ a.native? = none := by
        cases pc <;> cases d <;> cases hf <;> exact ⟨rfl, rfl⟩
      rw [late_eq ha hv.1]
      exact hp.of_set nofun fun _ => keeps_native hv.2 k
    | priority q native pc =>
      obtain ⟨f, hf, rfl⟩ := Next.onto_act hn
      exact hp.priority hl hi hf ha he ho

theorem begin {c : HandleCall} (hp : th.Prompt k b) (h : th.begin? c = some th') :
    th'.Prompt k b := by
  obtain ⟨-, -, ⟨d, hk, rfl⟩ | ⟨-, w, -, rfl⟩⟩ := begin_cases h
  · refine ⟨fun p native hm => ?_, hp.intime⟩
    obtain hm | hm := List.mem_cons.mp hm
    · subst hm
      cases c with
      | priority q n own => cases own <;> cases hk
      | hold d own supported => cases hk
      | _ => cases hk
    · exact hp.applied p native hm
  · exact ⟨hp.applied, hp.intime⟩

theorem finish (hp : th.Prompt k b) (h : th.finish? p = some th') : th'.Prompt k b := by
  obtain ⟨w, -, rfl⟩ | ⟨i, c, -, -, rfl⟩ := finish_cases h
  · exact ⟨hp.applied, hp.intime⟩
  · exact ⟨fun p native h => hp.applied p native (List.mem_of_mem_eraseIdx h), hp.intime⟩

end Thread.Prompt

/-! ## Runs -/

namespace World

variable {limits : ThreadLimits} {id : ObjectId} {w u : World V} {l : Ledger} {b : Bool}

def rated? (limits : ThreadLimits) (id : ObjectId) :
    Move V → (World V × Ledger) × Bool → Option ((World V × Ledger) × Bool) :=
  noted kept? (late limits id)

def unrated (capacity : Nat) : (World V × Ledger) × Bool := (unkept capacity, false)

theorem rated_step {c : Move V} {s t : (World V × Ledger) × Bool}
    (h : rated? limits id c s = some t) :
    move? c s.1.1 = some t.1.1 ∧ t.1.2 = s.1.1.enter c s.1.2 ∧ t.2 = late limits id s.1 c s.2 := by
  obtain ⟨h, hb⟩ := noted_step h
  obtain ⟨h, hl⟩ := noted_step h
  exact ⟨h, hl, hb⟩

theorem late_of_ne {c : Move V} (hc : c.target ≠ id) (s : World V × Ledger) :
    late limits id s c b = b := by
  cases c with
  | act q p e => exact if_neg hc
  | _ => rfl

theorem late_act {th : Thread V} (h : w.threads id = some th) (p : Party) (e : Setting V) :
    late limits id (w, l) (.act id p e) b = th.late limits id p (l id) b := by
  simp only [late, if_true, h, Option.elim]

def overtakes (id : ObjectId) (w : World V) : Move V → Bool
  | .act q p e => q = id && (w.threads id).any fun th => th.overtakes e id p
  | _ => false

structure Tells (id : ObjectId) (I : Thread V → Option Mock.Task → Bool → Prop)
    (s : (World V × Ledger) × Bool) : Prop where
  absent : s.1.1.threads id = none → s.1.2 id = none ∧ s.2 = false
  present : ∀ th, s.1.1.threads id = some th → I th (s.1.2 id) s.2

theorem tells_unrated {I : Thread V → Option Mock.Task → Bool → Prop} (capacity : Nat) :
    Tells id I (unrated capacity) where
  absent := fun _ => ⟨rfl, rfl⟩
  present := fun _ h => nomatch h

theorem tells_step {I : Thread V → Option Mock.Task → Bool → Prop} {c : Move V}
    {s t : (World V × Ledger) × Bool} (hs : Tells id I s) (h : rated? limits id c s = some t)
    (create : ∀ r, c = .create r → I (.new r) none false)
    (begin : ∀ k th th', c = .begin id k → I th (s.1.2 id) s.2 → th.begin? k = some th' →
      I th' (s.1.2 id) s.2)
    (act : ∀ p e th th' t, c = .act id p e → s.1.1.threads id = some th → I th (s.1.2 id) s.2 →
      th.perform? (e.effect id) id s.1.1.table p = some (t, th') →
      I th' (th.keeps e id p (s.1.2 id)) (th.late limits id p (s.1.2 id) s.2))
    (finish : ∀ p th th', I th (s.1.2 id) s.2 → th.finish? p = some th' →
      I th' (s.1.2 id) s.2) : Tells id I t := by
  obtain ⟨⟨w, l⟩, b⟩ := s
  obtain ⟨⟨u, l'⟩, b'⟩ := t
  obtain ⟨hm, hl, hb⟩ := rated_step h
  dsimp only at hm hl hb hs begin act finish ⊢
  subst hl hb
  obtain ⟨he, hc⟩ | ⟨hc, th, t, hd, rfl⟩ := move_target hm id
  · exact ⟨fun hn => by simpa only [enter_of_ne hc, late_of_ne hc] using hs.absent (he ▸ hn),
      fun th ht => by simpa only [enter_of_ne hc, late_of_ne hc] using hs.present th (he ▸ ht)⟩
  · refine ⟨fun hn => by simp at hn, fun th₁ ht => ?_⟩
    rw [threads_put] at ht
    cases ht
    show I th (w.enter c l id) (late limits id (w, l) c b)
    generalize ho : w.threads id = o at hd
    cases hd with
    | @create r =>
      obtain ⟨hk, rfl⟩ := hs.absent ho
      rw [show w.enter (.create r) l id = none from hk]
      exact create r rfl
    | begin hb =>
      dsimp only [Move.target] at hc
      subst hc
      exact begin _ _ _ rfl (hs.present _ ho) hb
    | act ha =>
      dsimp only [Move.target] at hc
      subst hc
      rw [enter_act ho, late_act ho]
      exact act _ _ _ _ _ rfl ho (hs.present _ ho) ha
    | finish hf => exact finish _ _ _ (hs.present _ ho) hf

theorem levelled_step {c : Move V} {s t : (World V × Ledger) × Bool}
    (hs : Tells id (Thread.Levelled limits) s) (h : rated? limits id c s = some t)
    (hc : c.Maps limits) : Tells id (Thread.Levelled limits) t :=
  tells_step hs h (fun r hr => .new (by subst hr; exact hc))
    (fun k th th' hk hl hb => hl.begin hb (hk ▸ hc))
    (fun p e th th' t hp ht hl ha => hl.perform ha) fun p th th' hl hf => hl.finish hf

theorem prompt_step {c : Move V} {s t : (World V × Ledger) × Bool}
    (hs : Tells id (fun th k b => th.Levelled limits k b ∧ th.Prompt k b) s)
    (h : rated? limits id c s = some t) (hc : c.Maps limits) (ho : overtakes id s.1.1 c = false) :
    Tells id (fun th k b => th.Levelled limits k b ∧ th.Prompt k b) t :=
  tells_step hs h (fun r hr => ⟨.new (by subst hr; exact hc), nofun, rfl⟩)
    (fun k th th' hk hl hb => ⟨hl.1.begin hb (hk ▸ hc), hl.2.begin hb⟩)
    (fun p e th th' t hp ht hl ha => by
      refine ⟨hl.1.perform ha, hl.2.perform hl.1 ha ?_⟩
      subst hp
      simpa [overtakes, ht] using ho)
    fun p th th' hl hf => ⟨hl.1.finish hf, hl.2.finish hf⟩

theorem throughout_rated {capacity : Nat} {cs : List (Move V)}
    {P : World V → Move V → World V → Prop} (h : Throughout move? P cs (initial capacity)) :
    Throughout (rated? limits id) (fun s c t => P s.1.1 c t.1.1) cs (unrated capacity) := by
  have hl : Throughout kept? (fun s c t => P s.1 c t.1) cs (unkept capacity) :=
    throughout_noted h _
  exact throughout_noted hl false

/-- Once no call is left that has applied a level and not stored it, the backend
holds the native priority of the level that the handle reports, exactly if the
last level that was stored was still the one applied last. It was in every run
in which no call applies a level while another has still to store its own. -/
theorem priority_agrees_iff {capacity : Nat} {cs : List (Move V)} {th : Thread V}
    (hm : Throughout move? (fun _ c _ => c.Maps limits) cs (initial capacity))
    (h : run? (rated? limits id) cs (unrated capacity) = some ((w, l), b))
    (ht : w.threads id = some th) (hd : th.creation = .done (.ok ()))
    (hr : th.controls.all (fun c => !c.storing) = true) :
    ∃ k, l id = some k ∧
      (k.priority = th.shared.object.priority.toNative limits ↔ b = false) ∧
      (Throughout move? (fun w c _ => overtakes id w c = false) cs (initial capacity) →
        k.priority = th.shared.object.priority.toNative limits) := by
  have hc : ∀ c ∈ th.controls, c.storing = false := fun c hc => by
    simpa using List.all_eq_true.mp hr c hc
  have hw : Tells id (Thread.Levelled limits) ((w, l), b) :=
    run_keeps_throughout (fun _ _ _ hs hst hc => levelled_step hs hst hc) h (throughout_rated hm)
      (tells_unrated capacity)
  have hl : th.Levelled limits (l id) b := hw.present th ht
  obtain ⟨k, hk⟩ := Option.isSome_iff_exists.mp (hl.spawned (by rw [hd]; rfl))
  have ha := hl.agree hc k.priority (by rw [hk]; rfl)
  refine ⟨k, hk, ha, fun ho => ha.mpr ?_⟩
  have hp : Tells id (fun th k b => th.Levelled limits k b ∧ th.Prompt k b) ((w, l), b) :=
    run_keeps_throughout (fun _ _ _ hs hst hc => prompt_step hs hst hc.1 hc.2) h
      (throughout_and (throughout_rated hm) (throughout_rated ho)) (tells_unrated capacity)
  exact (hp.present th ht).2.intime

def created : List (Move Unit) :=
  .create ⟨1, .default, 1⟩ :: List.replicate 5 (.act 1 .creator Oracle.agreeable.steady)

def unyielding : Setting Unit :=
  { Oracle.agreeable.steady with
    backend := fun
      | .setPriority _ => .error .invalidParameter
      | c => Oracle.agreeable.backend c }

/-- Three calls overlap. Low is applied and stored while the call for High is on
its way, and the backend refuses Realtime after it has applied High and before
that level is stored. -/
def levelsOverlapping : List (Move Unit) :=
  created ++ .begin 1 (.priority .low 0 true) ::
    List.replicate 2 (.act 1 (.control 0) Oracle.agreeable.steady) ++
    .begin 1 (.priority .high 2 true) ::
    List.replicate 2 (.act 1 (.control 0) Oracle.agreeable.steady) ++
    List.replicate 2 (.act 1 (.control 1) Oracle.agreeable.steady) ++
    .act 1 (.control 0) Oracle.agreeable.steady :: .begin 1 (.priority .realtime 4 true) ::
    List.replicate 4 (.act 1 (.control 0) unyielding) ++
    .act 1 (.control 1) Oracle.agreeable.steady :: List.replicate 3 (.finish 1 (.control 0))

/-- No call has applied its level while another had still to store its own. -/
theorem overlapping_levels_agree :
    ∃ (w : World Unit) (l : Ledger) (th : Thread Unit) (k : Mock.Task),
      run? (rated? Mock.defaultInfo.thread 1) levelsOverlapping (unrated 1) =
        some ((w, l), false) ∧
      Throughout move? (fun w c _ => overtakes 1 w c = false) levelsOverlapping (initial 1) ∧
      w.threads 1 = some th ∧ l 1 = some k ∧ th.shared.object.priority = .high ∧
      k.priority = th.shared.object.priority.toNative Mock.defaultInfo.thread := by
  obtain ⟨w, l, h⟩ : ∃ (w : World Unit) (l : Ledger),
      run? (rated? Mock.defaultInfo.thread 1) levelsOverlapping (unrated 1) =
        some ((w, l), false) :=
    ⟨_, _, rfl⟩
  obtain ⟨th, ht, hd, hc, hp⟩ : ∃ th, w.threads 1 = some th ∧ th.creation = .done (.ok ()) ∧
      th.controls = [] ∧ th.shared.object.priority = .high := by
    cases h
    exact ⟨_, rfl, rfl, rfl, rfl⟩
  have ho : Throughout move? (fun w c _ => overtakes 1 w c = false) levelsOverlapping
      (initial 1) := by decide
  obtain ⟨k, hk, -, ha⟩ := priority_agrees_iff (by decide) h ht hd (by rw [hc]; rfl)
  exact ⟨w, l, th, k, h, ho, ht, hk, hp, ha ho⟩

/-- A call that sets the level High while one that sets it Low has applied its
level and has not stored it yet. -/
def levelsCrossed : List (Move Unit) :=
  created ++ .begin 1 (.priority .low 0 true) ::
    List.replicate 3 (.act 1 (.control 0) Oracle.agreeable.steady) ++
    .begin 1 (.priority .high 2 true) ::
    List.replicate 4 (.act 1 (.control 0) Oracle.agreeable.steady) ++
    [.act 1 (.control 1) Oracle.agreeable.steady, .finish 1 (.control 0), .finish 1 (.control 0)]

/-- Both calls have succeeded. The handle reports Low, and the backend holds High. -/
theorem crossed_levels_disagree :
    ∃ (w : World Unit) (l : Ledger) (th : Thread Unit) (k : Mock.Task),
      run? (rated? Mock.defaultInfo.thread 1) levelsCrossed (unrated 1) = some ((w, l), true) ∧
      Throughout move? (fun _ c _ => c.Maps Mock.defaultInfo.thread) levelsCrossed (initial 1) ∧
      w.threads 1 = some th ∧ th.controls = [] ∧ l 1 = some k ∧
      th.shared.object.priority = .low ∧
      k.priority = Priority.high.toNative Mock.defaultInfo.thread ∧
      k.priority ≠ th.shared.object.priority.toNative Mock.defaultInfo.thread :=
  ⟨_, _, _, _, rfl, by decide, rfl, rfl, rfl, rfl, rfl, by decide⟩

end World

end SyncCore.Manager

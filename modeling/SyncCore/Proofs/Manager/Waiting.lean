import SyncCore.Proofs.Manager.Failures
import SyncCore.Proofs.Manager.Publication

/-!
# Waiting for a thread

The first join of a handle, native or polled, takes what the thread's function
has left. Until then the thread is as without the join but for the mark, so the
end of the join is told by the run in which it is not made. If the backend's
own join waits for the end and reports a function that has unwound, this does
not depend on how the join waits.
-/

set_option autoImplicit false

namespace SyncCore.Manager

variable {V : Type}

/-! ## What a function leaves -/

/-- What the return slot holds that nobody has taken from, when the function
ends in the given way. -/
def Routine.Pc.slot (b : Option V) : Routine.Pc V → Option V
  | .terminate => b
  | .look => b
  | .unregister => b
  | .unregisterWarn _ => b
  | .done => b
  | _ => none

theorem Routine.Pc.slot_of_ended {pc : Routine.Pc V} (h : pc.ended = true) (b : Option V) :
    pc.slot b = b := by
  cases pc <;> first | rfl | cases h

def Owner.marked : Owner V → Bool
  | .joining _ .mark => false
  | .joining _ (.done _) => false
  | .joining _ _ => true
  | _ => false

/-- The surroundings of a thread whose function ends in the given way. A native
join waits for the end, and reports a function that has unwound as an error. -/
structure Serves (native : Bool) (b : Option V) (e : Setting V) (p : Party) (th : Thread V) :
    Prop where
  body : p = .routine → th.routine = .body → e.body = b
  join : native = true → p = .owner → th.owner.waiting = true →
    th.routine.ended = true ∧ Except.isOk (e.backend .join) = b.isSome

instance [DecidableEq V] (native : Bool) (b : Option V) (e : Setting V) (p : Party)
    (th : Thread V) : Decidable (Serves native b e p th) :=
  decidable_of_iff
    ((p = .routine → th.routine = .body → e.body = b) ∧
      (native = true → p = .owner → th.owner.waiting = true →
        th.routine.ended = true ∧ Except.isOk (e.backend .join) = b.isSome))
    ⟨fun h => ⟨h.1, h.2⟩, fun h => ⟨h.body, h.join⟩⟩

structure Thread.Leaves (b : Option V) (th : Thread V) : Prop where
  put : ∀ v, th.routine = .put v → b = some v
  slot : th.shared.joined = false → th.shared.object.returned = th.routine.slot b
  marked : th.owner.marked = true → th.shared.joined = true

theorem Setting.effect_unmoved {e : Setting V} {id : ObjectId} {t t' : Table} {s s' : Shared V}
    {a : Action V} {x : a.Answer} (h : e.effect id a (t, s) = some (x, t', s'))
    (hp : a.plain = true) : s'.joined = s.joined ∧ s'.object.returned = s.object.returned := by
  by_cases hc : ∃ c, a = .table c
  · obtain ⟨c, rfl⟩ := hc
    cases effect_apart h
    exact ⟨rfl, rfl⟩
  · rw [effect_plain fun c hac => hc ⟨c, hac⟩] at h
    exact Manager.effect_plain h hp

theorem Join.next_apart {id : ObjectId} {native : Bool} {pc : Join.Pc V} {a : Action V}
    {r : a.Answer → Join.Pc V} (h : Join.next id native pc = .act a r) (c : TableCall) :
    a ≠ .table c := by
  rintro rfl
  cases pc <;> cases h

namespace Thread

variable {e : Setting V} {id : ObjectId} {t t' : Table} {th th' : Thread V} {p : Party}
  {native : Bool} {b : Option V}

theorem perform_joining {pc : Join.Pc V} (ho : th.owner = .joining native pc)
    (h : th.perform? (e.effect id) id t .owner = some (t', th')) :
    ∃ (a : Action V) (r : a.Answer → Join.Pc V) (x : a.Answer) (s' : Shared V),
      Join.next id native pc = .act a r ∧ th.action? id .owner = some a ∧
      effect e.toOracle id a (t, th.shared) = some (x, t', s') ∧
      th' = { th with owner := .joining native (r x), shared := s' } := by
  obtain ⟨a, x, s', ha, he, hp⟩ := perform_cases h
  obtain ⟨r, hc, -⟩ | ⟨r, hc, -⟩ | ⟨r, -, hn, rfl⟩ | ⟨k, c, hc, -⟩ := hp
  · cases hc
  · cases hc
  · rw [ho] at hn
    obtain ⟨f, hf, rfl⟩ := Next.onto_act hn
    refine ⟨a, f, x, s', hf, ha, ?_, rfl⟩
    rw [← Setting.effect_plain (Join.next_apart hf)]
    exact he
  · cases hc

theorem joining_acts {pc : Join.Pc V} (ho : th.owner = .joining native pc) (hp : ∀ r, pc ≠ .done r)
    (e : Setting V) (id : ObjectId) (t : Table) :
    ∃ t' th', th.perform? (e.effect id) id t .owner = some (t', th') := by
  have h : (th.act? e.toOracle id t .owner).isSome = true := Join.ready ho hp e.toOracle t
  rw [act_eq, perform_congr (g := e.effect id) fun a ha => ?_] at h
  · obtain ⟨⟨t', th'⟩, hx⟩ := Option.isSome_iff_exists.mp h
    exact ⟨t', th', hx⟩
  · rw [action?, ho] at ha
    refine (Setting.effect_plain fun c hc => ?_).symm
    cases pc <;> cases ha <;> cases hc

namespace Leaves

theorem new (r : Create.Request) : (Thread.new r : Thread V).Leaves b :=
  ⟨nofun, fun _ => rfl, nofun⟩

theorem onward {a : Action V} {r : a.Answer → Routine.Pc V} {x : a.Answer} (hl : th.Leaves b)
    (hn : Routine.next id th.routine = .act a r)
    (hb : th.routine = .body → r x = Routine.afterBody b) : (th.onward a (r x)).Leaves b := by
  have of_still : (r x).slot b = th.routine.slot b → (∀ v, r x ≠ .put v) →
      (a.after th.shared.object).returned = th.shared.object.returned →
      (th.onward a (r x)).Leaves b := fun hs hr ha =>
    ⟨fun v hv => absurd hv (hr v), fun hj => ha.trans ((hl.slot hj).trans hs.symm), hl.marked⟩
  cases hp : th.routine with
  | body =>
    have hr := hb hp
    rw [hp] at hn
    cases hn
    have hs : th.shared.joined = false → th.shared.object.returned = none := fun hj => by
      rw [hl.slot hj, hp]
      rfl
    rw [hr]
    cases b with
    | none => exact ⟨nofun, hs, hl.marked⟩
    | some v => exact ⟨fun u hu => by cases hu; rfl, hs, hl.marked⟩
  | put v =>
    rw [hp] at hn
    cases hn
    exact ⟨nofun, fun _ => (hl.put v hp).symm, hl.marked⟩
  | gate =>
    rw [hp] at hn of_still
    cases hn
    cases x <;> exact of_still rfl nofun rfl
  | look =>
    rw [hp] at hn of_still
    cases hn
    cases x <;> exact of_still rfl nofun rfl
  | unregister =>
    rw [hp] at hn of_still
    cases hn
    rcases x with k | u
    · by_cases hk : k = .notFound <;> simp only [hk, if_true, if_false] at of_still ⊢ <;>
        exact of_still rfl nofun rfl
    · exact of_still rfl nofun rfl
  | done =>
    rw [hp] at hn
    cases hn
  | _ =>
    rw [hp] at hn of_still
    cases hn
    exact of_still rfl nofun rfl

theorem joining {pc : Join.Pc V} (hl : th.Leaves b) (ho : th.owner = .joining native pc)
    (h : th.perform? (e.effect id) id t .owner = some (t', th')) : th'.Leaves b := by
  obtain ⟨a, r, x, s', hn, -, he, rfl⟩ := perform_joining ho h
  have of_joined : s'.joined = true →
      ({ th with owner := .joining native (r x), shared := s' } : Thread V).Leaves b := fun hj =>
    ⟨hl.put, fun h => (nomatch hj.symm.trans h), fun _ => hj⟩
  cases pc with
  | mark =>
    cases hn
    cases he
    exact of_joined rfl
  | done q => cases hn
  | _ =>
    have hm := hl.marked (by rw [ho]; rfl)
    cases hn
    cases he
    exact of_joined hm

theorem perform (hl : th.Leaves b) (hs : Serves native b e p th)
    (h : th.perform? (e.effect id) id t p = some (t', th')) : th'.Leaves b := by
  by_cases hr : p = .routine
  · subst hr
    obtain ⟨a, r, x, hn, rfl, hb, -⟩ := perform_routine h
    exact hl.onward hn fun hp => (hb hp).trans (by rw [hs.body rfl hp])
  by_cases hj : p = .owner ∧ ∃ native pc, th.owner = .joining native pc
  · obtain ⟨rfl, native, pc, ho⟩ := hj
    exact hl.joining ho h
  -- What is left are parties that concern neither the slot nor the mark.
  obtain ⟨a, x, s', ha, he, hp⟩ := perform_cases h
  obtain ⟨hj', hv⟩ := Setting.effect_unmoved he
    (action_plain ha hr fun hp native pc ho => hj ⟨hp, native, pc, ho⟩)
  have hput : s'.joined = false → s'.object.returned = th.routine.slot b := fun h =>
    hv.trans (hl.slot (hj'.symm.trans h))
  obtain ⟨r, rfl, -, rfl⟩ | ⟨r, rfl, -⟩ | ⟨r, rfl, hn, rfl⟩ | ⟨k, c, rfl, rfl⟩ := hp
  · exact ⟨hl.put, hput, fun hm => hj'.trans (hl.marked hm)⟩
  · exact absurd rfl hr
  · refine ⟨hl.put, hput, fun hm => ?_⟩
    cases ho : th.owner with
    | joining native pc => exact absurd ⟨rfl, native, pc, ho⟩ hj
    | destroying j pc =>
      rw [ho] at hn
      obtain ⟨f, -, rfl⟩ := Next.onto_act hn
      cases hm
    | dropping j pc =>
      rw [ho] at hn
      obtain ⟨f, -, rfl⟩ := Next.onto_act hn
      cases hm
    | _ =>
      rw [ho] at hn
      cases hn
  · exact ⟨hl.put, hput, fun hm => hj'.trans (hl.marked hm)⟩

theorem begin {c : HandleCall} (hl : th.Leaves b) (h : th.begin? c = some th') :
    th'.Leaves b := by
  obtain ⟨-, -, ⟨k, -, rfl⟩ | ⟨-, w, hw, rfl⟩⟩ := begin_cases h
  · exact ⟨hl.put, hl.slot, hl.marked⟩
  · refine ⟨hl.put, hl.slot, fun hm => ?_⟩
    cases c with
    | join own native =>
      cases hw
      cases own with
      | false => cases hm
      | true =>
        cases hj : th.shared.joined with
        | true => rfl
        | false =>
          rw [hj] at hm
          cases hm
    | destroy own => cases hw; cases hm
    | drop => cases hw; cases hm
    | _ => cases hw

theorem finish (hl : th.Leaves b) (h : th.finish? p = some th') : th'.Leaves b := by
  obtain ⟨w, hw, rfl⟩ | ⟨k, c, -, -, rfl⟩ := finish_cases h
  · refine ⟨hl.put, hl.slot, fun hm => ?_⟩
    obtain ⟨_, _, -, rfl⟩ | ⟨_, _, -, rfl⟩ | ⟨_, _, -, rfl⟩ | ⟨_, -, rfl⟩ :=
      Owner.finish_cases hw <;> cases hm
  · exact ⟨hl.put, hl.slot, hl.marked⟩

end Leaves

end Thread

structure Thread.Regular (b : Option V) (th : Thread V) : Prop where
  gated : th.Gated
  timely : th.Timely
  leaves : th.Leaves b

theorem World.regular {id : ObjectId} {b : Option V} {capacity : Nat} {cs : List (Move V)}
    {s : World V × Ledger} {th : Thread V} (h : run? kept? cs (unkept capacity) = some s)
    (hp : Throughout kept? (Acts id (Serves false b)) cs (unkept capacity))
    (ht : s.1.threads id = some th) : th.Regular b where
  gated := moves_keep .new .begin .perform .finish h ht
  timely := moves_keep .new .begin .perform .finish h ht
  leaves := moves_keep_throughout .new .begin (fun hs hl => hl.perform hs) .finish h hp ht

/-! ## A join and its absence -/

def Join.Pc.shared (s : Shared V) : Join.Pc V → Shared V
  | .mark => s
  | .announce _ => { s with joined := true, object := { s.object with returned := none } }
  | .done _ => { s with joined := true, object := { s.object with returned := none } }
  | _ => { s with joined := true }

def Join.Pc.Finds (native : Bool) (b : Option V) (ended : Bool) : Join.Pc V → Prop
  | .wait => native = true
  | .look => native = true
  | .waitWarn _ => ended = true ∧ b = none
  | .confirm => ended = true
  | .take => ended = true
  | .announce v => ended = true ∧ v = b
  | .done r => ended = true ∧ r = verdict b
  | _ => True

theorem Join.Pc.Finds.mono {pc : Join.Pc V} {native ended ended' : Bool} {b : Option V}
    (h : pc.Finds native b ended) (he : ended = true → ended' = true) :
    pc.Finds native b ended' := by
  cases pc with
  | waitWarn f => exact ⟨he h.1, h.2⟩
  | confirm => exact he h
  | take => exact he h
  | announce v => exact ⟨he h.1, h.2⟩
  | done r => exact ⟨he h.1, h.2⟩
  | _ => exact h

section Steps

variable {o : Oracle V} {id : ObjectId} {t t' : Table} {s s' : Shared V} {native ended : Bool}
  {b : Option V}

theorem Join.Pc.shared_done (h : s.object.returned = none) (r : Outcome V) :
    (Join.Pc.done r).shared s = { s with joined := true } := by
  simp only [shared]
  rw [← h]

theorem Join.Pc.Finds.next {pc : Join.Pc V} {a : Action V} {r : a.Answer → Join.Pc V}
    {x : a.Answer} (h : pc.Finds native b ended) (hb : s.object.binding.isSome = true)
    (hs : s.object.state = .terminated ↔ ended = true)
    (hv : ended = true → s.object.returned = b)
    (hw : native = true → pc = .wait →
      ended = true ∧ Except.isOk (o.backend .join) = b.isSome)
    (hn : Join.next id native pc = .act a r)
    (he : effect o id a (t, pc.shared s) = some (x, t', s')) :
    t' = t ∧ (r x).Finds native b ended ∧ s' = (r x).shared s := by
  have goes : ∀ pc', r x = pc' → t' = t → pc'.Finds native b ended → s' = pc'.shared s →
      t' = t ∧ (r x).Finds native b ended ∧ s' = (r x).shared s := fun pc' hr ht hp hs =>
    ⟨ht, hr ▸ hp, hr ▸ hs⟩
  cases pc with
  | mark =>
    cases hn
    cases he
    cases native with
    | true => exact goes .look rfl rfl rfl rfl
    | false => exact goes .poll rfl rfl trivial rfl
  | look =>
    cases hn
    cases he
    exact goes .wait (if_pos hb) rfl h rfl
  | wait =>
    cases hn
    obtain ⟨hx, ht, hs'⟩ : x = o.backend .join ∧ t' = t ∧ s' = { s with joined := true } := by
      cases he
      exact ⟨rfl, rfl, rfl⟩
    -- The backend has waited for the end, so the state is Terminated when it is read again.
    obtain ⟨hr, hok⟩ := hw h rfl
    rw [← hx] at hok
    rcases x with f | u
    · have hnone : b = none := by
        cases b with
        | none => rfl
        | some v => cases hok
      exact goes (.waitWarn f) rfl ht ⟨hr, hnone⟩ hs'
    · exact goes .confirm rfl ht hr hs'
  | waitWarn f =>
    cases hn
    cases he
    obtain ⟨hr, rfl⟩ := h
    exact goes (.done (.error .threadJoinFailed)) rfl rfl ⟨hr, rfl⟩ (shared_done (hv hr) _).symm
  | poll =>
    cases hn
    cases he
    by_cases hx : s.object.state = .terminated
    · exact goes .confirm (if_pos hx) rfl (hs.mp hx) rfl
    · exact goes .sleep (if_neg hx) rfl trivial rfl
  | sleep =>
    cases hn
    obtain ⟨ht, hs'⟩ : t' = t ∧ s' = { s with joined := true } := by
      cases he
      exact ⟨rfl, rfl⟩
    rcases x with f | u
    · exact goes .yield rfl ht trivial hs'
    · exact goes .poll rfl ht trivial hs'
  | yield =>
    cases hn
    cases he
    exact goes .poll rfl rfl trivial rfl
  | confirm =>
    cases hn
    cases he
    exact goes .take (if_pos (hs.mpr h)) rfl h rfl
  | take =>
    cases hn
    cases he
    exact goes (.announce s.object.returned) rfl rfl ⟨h, hv h⟩ rfl
  | announce v =>
    cases hn
    cases he
    obtain ⟨hr, rfl⟩ := h
    cases v with
    | none => exact goes (.done (.error .threadJoinFailed)) rfl rfl ⟨hr, rfl⟩ rfl
    | some v => exact goes (.done (.ok v)) rfl rfl ⟨hr, rfl⟩ rfl
  | done q => cases hn

end Steps

/-- The routine goes on in the same way, as a join takes from the slot only once
the routine has written it. -/
theorem Join.Pc.shared_after {pc : Join.Pc V} {native : Bool} {b : Option V} {id : ObjectId}
    {rc : Routine.Pc V} {a : Action V} {r : a.Answer → Routine.Pc V}
    (h : pc.Finds native b rc.ended) (hn : Routine.next id rc = .act a r) (s : Shared V) :
    { pc.shared s with object := a.after (pc.shared s).object } =
      pc.shared { s with object := a.after s.object } := by
  have of_ended : rc.ended = true → ∀ o, a.after o = o := fun he o => by
    cases rc <;> cases he <;> cases hn <;> rfl
  cases pc with
  | announce v => simp only [of_ended h.1]
  | done r => simp only [of_ended h.1]
  | _ => rfl

namespace Thread

theorem keeps_joining {native : Bool} {pc : Join.Pc V} {th : Thread V} {e : Setting V}
    {id : ObjectId} (ho : th.owner = .joining native pc) (k : Option Mock.Task) :
    th.keeps e id .owner k = k := by
  cases ha : th.action? id .owner with
  | none => simp only [keeps, ha]
  | some a =>
    rw [keeps_eq ha]
    rw [action?, ho] at ha
    cases pc <;> cases ha <;> rfl

def joining (th : Thread V) (native : Bool) (pc : Join.Pc V) : Thread V :=
  { th with owner := .joining native pc, shared := pc.shared th.shared }

def taken (th : Thread V) : Thread V :=
  { th with
    owner := .rest
    shared :=
      { th.shared with joined := true, object := { th.shared.object with returned := none } } }

end Thread

structure Joins (native : Bool) (b : Option V) (th : Thread V) (k : Option Mock.Task)
    (th' : Thread V) (k' : Option Mock.Task) : Prop where
  creation : th'.creation = .done (.ok ())
  controls : th'.controls = []
  bound : th'.shared.object.binding.isSome = true
  timely : th'.Timely
  leaves : th'.Leaves b
  unjoined : th'.shared.joined = false
  record : k' = k
  joins : ∃ pc : Join.Pc V, pc.Finds native b th'.routine.ended ∧ th = th'.joining native pc

namespace Joins

variable {e : Setting V} {id : ObjectId} {t t' : Table} {th th₁ th' : Thread V}
  {k k' : Option Mock.Task} {native : Bool} {b : Option V}

theorem own (hj : Joins native b th k th' k') (hs : Serves native b e .owner th)
    (h : th.perform? (e.effect id) id t .owner = some (t', th₁)) :
    t' = t ∧ Joins native b th₁ (th.keeps e id .owner k) th' k' := by
  obtain ⟨pc, hf, rfl⟩ := hj.joins
  obtain ⟨a, r, x, s', hn, -, he, rfl⟩ := Thread.perform_joining rfl h
  have hslot : th'.routine.ended = true → th'.shared.object.returned = b := fun hr =>
    (hj.leaves.slot hj.unjoined).trans (Routine.Pc.slot_of_ended hr b)
  have hwait : native = true → pc = .wait →
      th'.routine.ended = true ∧ Except.isOk (e.backend .join) = b.isSome := fun hna hp => by
    subst hp
    exact hs.join hna rfl rfl
  obtain ⟨rfl, hf, rfl⟩ := hf.next hj.bound hj.timely.ended hslot hwait hn he
  refine ⟨rfl, hj.creation, hj.controls, hj.bound, hj.timely, hj.leaves, hj.unjoined, ?_, r x, hf,
    rfl⟩
  rw [Thread.keeps_joining rfl]
  exact hj.record

theorem routine {a : Action V} {r : a.Answer → Routine.Pc V} {x : a.Answer}
    (hj : Joins native b th k th' k') (hs : Serves native b e .routine th)
    (hn : Routine.next id th.routine = .act a r)
    (hb : th.routine = .body → r x = Routine.afterBody e.body) :
    Joins native b (th.onward a (r x)) k (th'.onward a (r x)) k' := by
  obtain ⟨pc, hf, rfl⟩ := hj.joins
  refine ⟨hj.creation, hj.controls, ?_, hj.timely.onward hn, hj.leaves.onward hn ?_, hj.unjoined,
    hj.record, pc, hf.mono fun he => Routine.ended_on hn he x, ?_⟩
  · exact (congrArg Option.isSome (Routine.after_binding hn _)).trans hj.bound
  · exact fun hp => (hb hp).trans (by rw [hs.body rfl hp])
  · simp only [Thread.onward, Thread.joining, Join.Pc.shared_after hf hn]

theorem separable : Separable id .owner (Serves native b) (Joins native b) where
  alone := fun h => by
    obtain ⟨pc, -, rfl⟩ := h.joins
    exact ⟨h.creation, .inl ⟨rfl, h.controls⟩⟩
  alike := fun h => by
    obtain ⟨pc, -, rfl⟩ := h.joins
    cases pc <;> exact ⟨rfl, rfl, rfl⟩
  own := fun h hs ha => h.own hs ha
  routine := fun h hs hn hb => h.routine hs hn hb

theorem begin {th₀ : Thread V} (hr : th₀.Regular b) (hu : th₀.shared.joined = false)
    (h : th₀.begin? (.join true native) = some th) (k : Option Mock.Task) :
    Joins native b th k th₀ k := by
  obtain ⟨hc, -, ⟨f, hf, -⟩ | ⟨hn, w, hw, rfl⟩⟩ := Thread.begin_cases h
  · cases hf
  · refine ⟨hc, hn, ?_, hr.timely, hr.leaves, hu, rfl, .mark, trivial, ?_⟩
    · have hk := hr.gated.creation
      rwa [hc] at hk
    · rw [hu] at hw
      cases hw
      rfl

theorem finish {n : Bool} {r : Outcome V} (hj : Joins native b th k th' k')
    (ho : th.owner = .joining n (.done r)) :
    th.finish? .owner = some th'.taken ∧ k' = k ∧ r = verdict b ∧
      th'.shared.object.state = .terminated := by
  obtain ⟨pc, hf, rfl⟩ := hj.joins
  cases ho
  exact ⟨rfl, hj.record, hf.2, hj.timely.ended.mpr hf.1⟩

end Joins

/-! ## Runs in which a join is under way -/

/-- What the joins of a handle answer, by whose it is, by whether it was joined
before and by how the function ends. -/
def Join.answer (own joined : Bool) (b : Option V) : Outcome V :=
  if own then if joined then .error .threadJoinFailed else verdict b
  else .error .invalidParameter

def Join.made (own joined : Bool) : Bool := own && !joined

theorem Join.start_refused {own joined : Bool} (h : Join.made own joined = false) (b : Option V) :
    Join.start own joined = .done (Join.answer own joined b) := by
  cases own <;> cases joined <;> first | rfl | cases h

namespace World

variable {id : ObjectId} {b : Option V} {own native : Bool} {capacity : Nat}
  {before cs : List (Move V)} {s t : World V × Ledger}

def Answers (id : ObjectId) (s : World V × Ledger) (r : Outcome V) : Prop :=
  ∃ th native, s.1.threads id = some th ∧ th.owner = .joining native (.done r)

/-- A join begins, and it has not returned after the given steps of everybody. -/
structure Waits (id : ObjectId) (b : Option V) (own native : Bool) (cs : List (Move V))
    (s t : World V × Ledger) : Prop where
  run : run? kept? (.begin id (.join own native) :: cs) s = some t
  within : ∀ c ∈ cs, c.within id = true
  serves : Throughout kept? (Acts id (Serves native b)) (.begin id (.join own native) :: cs) s

structure Concludes (id : ObjectId) (b : Option V) (own : Bool) (th₀ : Thread V)
    (t : World V × Ledger) (r : Outcome V) (u : World V × Ledger) : Prop where
  answer : r = Join.answer own th₀.shared.joined b
  returns : kept? (.finish id .owner) t = some u
  thread : ∃ th, u.1.threads id = some th ∧ th.shared.joined = (th₀.shared.joined || own) ∧
    (Join.made own th₀.shared.joined = true → th.shared.object.state = .terminated)

def afterJoin (id : ObjectId) (made : Bool) (u : World V × Ledger) : World V × Ledger :=
  match u.1.threads id with
  | some th => (u.1.put id (if made then th.taken else th) u.1.table, u.2)
  | none => u

theorem Waits.refused {th₀ : Thread V} (hw : Waits id b own native cs s t)
    (hq : s.1.threads id = some th₀) (ht : th₀.Timely)
    (hm : Join.made own th₀.shared.joined = false) :
    ∃ u, run? kept? (cs.filter fun c => !c.isBy id .owner) s = some u ∧
      Without id (Refused (.joining native (.done (Join.answer own th₀.shared.joined b))) th₀
        (s.2 id)) t u := by
  obtain ⟨th₁, th, hq', hb, -, hrun⟩ := run_begins hw.run
  cases hq.symm.trans hq'
  have hs := Join.start_refused hm b
  exact run_begun (Refused.separable rfl) hrun hw.within (acts_trivial ..) hq
    (.begin ht (by simp only [Owner.begin?, hs]) hb _)

theorem Waits.joins {th₀ : Thread V} (hw : Waits id b own native cs s t)
    (hq : s.1.threads id = some th₀) (hr : th₀.Regular b)
    (hm : Join.made own th₀.shared.joined = true) :
    ∃ u, run? kept? (cs.filter fun c => !c.isBy id .owner) s = some u ∧
      Without id (Joins native b) t u := by
  obtain ⟨th₁, th, hq', hb, hk, hrun⟩ := run_begins hw.run
  cases hq.symm.trans hq'
  obtain ⟨rfl, hj⟩ : own = true ∧ th₀.shared.joined = false := by simpa [Join.made] using hm
  exact run_begun Joins.separable hrun hw.within ((throughout_cons hk).mp hw.serves).2 hq
    (.begin hr hj hb _)

theorem Waits.concludes {th₀ : Thread V} {r : Outcome V} (hw : Waits id b own native cs s t)
    (hq : s.1.threads id = some th₀) (hr : th₀.Regular b) (ha : Answers id t r) :
    ∃ u, run? kept? (cs.filter fun c => !c.isBy id .owner) s = some u ∧
      Concludes id b own th₀ t r (afterJoin id (Join.made own th₀.shared.joined) u) := by
  obtain ⟨thr, n, htr, ho⟩ := ha
  cases hm : Join.made own th₀.shared.joined with
  | false =>
    obtain ⟨u, hu, hwo⟩ := hw.refused hq hr.timely hm
    obtain ⟨th', ht', hR, hret⟩ := hwo.returned (g := fun th => th) htr fun th' k' h =>
      ⟨(h.finish rfl).1, (h.finish rfl).2.1⟩
    refine ⟨u, hu, ?_, by simpa [afterJoin, ht'] using hret, th', by simp [afterJoin, ht'], ?_, ?_⟩
    · cases ho.symm.trans hR.owner
      rfl
    · rw [hR.since.joined]
      revert hm
      cases own <;> cases th₀.shared.joined <;> simp [Join.made]
    · simp [hm]
  | true =>
    obtain ⟨u, hu, hwo⟩ := hw.joins hq hr hm
    obtain ⟨th', ht', hR, hret⟩ := hwo.returned (g := Thread.taken) htr fun th' k' h =>
      ⟨(h.finish ho).1, (h.finish ho).2.1⟩
    obtain ⟨-, -, rfl, hs⟩ := hR.finish ho
    obtain ⟨rfl, hj⟩ : own = true ∧ th₀.shared.joined = false := by simpa [Join.made] using hm
    refine ⟨u, hu, ?_, by simpa [afterJoin, ht'] using hret, th'.taken,
      by simp [afterJoin, ht'], ?_, fun _ => hs⟩
    · rw [hj]
      rfl
    · simp [Thread.taken]

theorem Waits.owner {th₀ : Thread V} (hw : Waits id b own native cs s t)
    (hq : s.1.threads id = some th₀) (hr : th₀.Regular b) :
    ∃ th pc, t.1.threads id = some th ∧ th.owner = .joining native pc := by
  cases hm : Join.made own th₀.shared.joined with
  | false =>
    obtain ⟨u, -, hwo⟩ := hw.refused hq hr.timely hm
    obtain ⟨th, th', hth, -, hR⟩ := hwo.thread
    exact ⟨th, _, hth, hR.owner⟩
  | true =>
    obtain ⟨u, -, hwo⟩ := hw.joins hq hr hm
    obtain ⟨th, th', hth, -, hR⟩ := hwo.thread
    obtain ⟨pc, -, rfl⟩ := hR.joins
    exact ⟨_, pc, hth, rfl⟩

/-! ## Joins come to an answer -/

def ownerActs (id : ObjectId) (es : List (Setting V)) : List (Move V) :=
  es.map fun e => .act id .owner e

theorem answers_of_left {th : Thread V} {pc : Join.Pc V} (ht : s.1.threads id = some th)
    (ho : th.owner = .joining native pc) (h : pc.left = 0) : ∃ r, Answers id s r := by
  cases pc <;> first | exact ⟨_, th, native, ht, ho⟩ | cases h

/-- Once the thread has ended a join comes to an answer by what its owner does,
whatever the surroundings answer. -/
theorem join_answers {th : Thread V} {pc : Join.Pc V} (ht : s.1.threads id = some th)
    (ho : th.owner = .joining native pc) (hs : th.shared.object.state = .terminated)
    (es : List (Setting V)) (hl : pc.left ≤ es.length) :
    ∃ m u r, m ≤ pc.left ∧ run? kept? (ownerActs id (es.take m)) s = some u ∧ Answers id u r := by
  induction es generalizing s th pc with
  | nil =>
    obtain ⟨r, hr⟩ := answers_of_left ht ho (Nat.le_zero.mp hl)
    exact ⟨0, s, r, Nat.zero_le _, rfl, hr⟩
  | cons e es ih =>
    by_cases hp : pc.left = 0
    · obtain ⟨r, hr⟩ := answers_of_left ht ho hp
      exact ⟨0, s, r, Nat.zero_le _, rfl, hr⟩
    obtain ⟨tb, th', hx⟩ := Thread.joining_acts ho (fun r hr => hp (by rw [hr]; rfl)) e id s.1.table
    obtain ⟨a, f, x, s', hn, ha, he, hth⟩ := Thread.perform_joining ho hx
    have hlt := Join.left_lt hs hn he
    have hs' : th'.shared.object.state = .terminated := by
      rw [hth]
      exact (Manager.effect_still he (Thread.action_still ha (.inr rfl))).state.trans hs
    have hle : (f x).left ≤ es.length := by
      rw [List.length_cons] at hl
      omega
    have hc : kept? (.act id .owner e) s =
        some (s.1.put id th' tb, s.1.enter (.act id .owner e) s.2) := by
      simp [kept?, noted, move?, ht, hx]
    obtain ⟨m, u, r, hm, hu, hr⟩ := ih (s := (s.1.put id th' tb, _)) (threads_put ..)
      (by rw [hth]) hs' hle
    refine ⟨m + 1, u, r, by omega, ?_, hr⟩
    simpa [ownerActs, run?, hc] using hu

/-- The join comes to an answer once the thread has ended, by six actions of its
owner at most and whatever they are answered. -/
def Finishes (id : ObjectId) (s : World V × Ledger) : Prop :=
  ∀ th, s.1.threads id = some th → th.shared.object.state = .terminated →
    ∀ es : List (Setting V), 6 ≤ es.length →
      ∃ m u r, m ≤ 6 ∧ run? kept? (ownerActs id (es.take m)) s = some u ∧ Answers id u r

theorem finishes {th : Thread V} {pc : Join.Pc V} (ht : s.1.threads id = some th)
    (ho : th.owner = .joining native pc) : Finishes id s := by
  intro th' ht' hs es he
  cases ht.symm.trans ht'
  obtain ⟨m, u, r, hm, hu⟩ := join_answers ht ho hs es (pc.left_le.trans he)
  exact ⟨m, u, r, hm.trans pc.left_le, hu⟩

end World

end SyncCore.Manager

import SyncCore.Proofs.Manager.Dealings

/-!
# Slots lost to a refused destroy

A destroy frees the slot of its thread and then gives the table's mutex back.
If the mutex reports a failure at that moment the destroy is refused although
the slot is gone. A handle that is there has its slot unless this has happened
to it.
-/

set_option autoImplicit false

namespace SyncCore

namespace Registry.Latch

def Works (l : Latch) : Prop := l.lock = .ok () ∧ l.unlock = .ok ()

/-- The mutex can be taken, and reports a failure when it has been given back. -/
def Leaks (l : Latch) : Prop := l.lock = .ok () ∧ l.unlock ≠ .ok ()

instance (l : Latch) : Decidable l.Works := inferInstanceAs (Decidable (_ ∧ _))

instance (l : Latch) : Decidable l.Leaks := inferInstanceAs (Decidable (_ ∧ _))

end Registry.Latch

namespace Manager

variable {V : Type}

def Owner.unregistering : Owner V → Bool
  | .destroying _ .unregister => true
  | _ => false

/-- A step in which a destroy frees the slot and is told that the mutex failed. -/
def Thread.loses (e : Setting V) (id : ObjectId) (t : Table) (th : Thread V) : Party → Bool
  | .owner => th.owner.unregistering && decide (e.latch.Leaks ∧ some id ∈ t)
  | _ => false

def loses (id : ObjectId) (w : World V) : Move V → Bool
  | .act q p e => decide (q = id) && (w.threads id).any fun th => th.loses e id w.table p
  | _ => false

theorem unregister_told {l : Registry.Latch} {id : ObjectId} {t t' : Table} {x : Outcome Unit}
    (hs : t.Single) (h : settled l t (t.unregister id) = (x, t')) :
    (x = .ok () ∧ l.Works ∧ some id ∈ t ∧ some id ∉ t') ∨
    (∃ k, x = .error k ∧ t' = t ∧ ¬(l.lock = .ok () ∧ some id ∈ t)) ∨
    (∃ k, x = .error k ∧ l.Leaks ∧ some id ∈ t ∧ some id ∉ t') := by
  unfold settled at h
  cases hl : l.lock with
  | error k =>
    rw [hl] at h
    cases h
    exact .inr (.inl ⟨k, rfl, rfl, fun hk => nomatch hk.1⟩)
  | ok u =>
    rw [hl] at h
    cases hr : t.unregister id with
    | error k =>
      rw [hr] at h
      have hn : ¬((.ok u : Outcome Unit) = .ok () ∧ some id ∈ t) :=
        fun hk => (Table.unregister_error hr).2 hk.2
      cases hu : l.unlock <;> rw [hu] at h <;> cases h <;> exact .inr (.inl ⟨_, rfl, rfl, hn⟩)
    | ok v =>
      rw [hr] at h
      obtain ⟨i, hi, -⟩ := Table.unregister_ok hr
      have hm : some id ∈ t := List.mem_of_getElem? hi
      have hn : some id ∉ v := fun hm => ((Table.mem_unregister hs hr).mp hm).2 rfl
      cases hu : l.unlock <;> rw [hu] at h <;> cases h
      · exact .inr (.inr ⟨_, rfl, ⟨hl, by rw [hu]; exact nofun⟩, hm, hn⟩)
      · exact .inl ⟨rfl, ⟨hl, hu⟩, hm, hn⟩

/-! ## The invariant of one thread -/

/-- The object of a handle that is there has a slot unless a destroy has lost
it, where it is counted how often that has happened. -/
structure Tracked (slot : Prop) (lost : Nat) (th : Thread V) : Prop where
  seen : th.routine.freeing = true → th.shared.object.detached = true
  resting : th.creation.stage ≠ .accepted → th.owner = .rest ∧ lost = 0
  early : th.creation.stage = .early → th.shared.object.detached = false
  kept : th.creation.stage = .accepted → th.owner.tenure = .kept →
    th.shared.object.detached = false ∧ (slot ↔ lost = 0)

def Action.calm : Action V → Bool
  | .cell .markDetached => false
  | .table _ => false
  | _ => true

theorem Setting.effect_calm {e : Setting V} {id : ObjectId} {t t' : Table} {s s' : Shared V}
    {a : Action V} {x : a.Answer} (h : e.effect id a (t, s) = some (x, t', s'))
    (ha : a.calm = true) : t' = t ∧ s'.object.detached = s.object.detached := by
  cases a with
  | cell c =>
    cases h
    cases c with
    | markDetached => cases ha
    | exchangeState d f => exact ⟨rfl, exchange_detached s.object d f⟩
    | _ => exact ⟨rfl, rfl⟩
  | table c => cases ha
  | _ =>
    cases h
    exact ⟨rfl, rfl⟩

theorem Control.action_calm {id : ObjectId} {c : Control} {a : Action V}
    (h : c.action? id = some a) : a.calm = true := by
  cases c with
  | hold d pc => cases d <;> cases pc <;> cases h <;> rfl
  | priority q native pc => cases pc <;> cases h <;> rfl

namespace Tracked

variable {e : Setting V} {id : ObjectId} {t t' : Table} {s' : Shared V} {th th' : Thread V}
  {slot slot' : Prop} {lost : Nat} {p : Party}

theorem new (r : Create.Request) : Tracked False 0 (.new r : Thread V) where
  seen := nofun
  resting := fun _ => ⟨rfl, rfl⟩
  early := fun _ => rfl
  kept := nofun

theorem accepted (hw : Tracked slot lost th) (ho : th.owner ≠ .rest) :
    th.creation.stage = .accepted := by
  by_contra hc
  exact ho (hw.resting hc).1

theorem calm (hw : Tracked slot lost th)
    (hd : th'.shared.object.detached = th.shared.object.detached)
    (hf : th'.routine.freeing = true → th.shared.object.detached = true)
    (hc : th'.creation.stage = th.creation.stage)
    (hr : th.owner = .rest → th'.owner = .rest)
    (ho : th'.owner.tenure = .kept → th.owner.tenure = .kept) : Tracked slot lost th' where
  seen := fun h => hd.trans (hf h)
  resting := fun h => (hw.resting (hc ▸ h)).imp_left hr
  early := fun h => hd.trans (hw.early (hc ▸ h))
  kept := fun h hk => by
    rw [hd]
    exact hw.kept (hc ▸ h) (ho hk)

theorem given_up (hw : Tracked slot lost th) (hc : th'.creation = th.creation)
    (ha : th.creation.stage = .accepted) (hr : th'.routine = th.routine)
    (hd : th.shared.object.detached = true → th'.shared.object.detached = true)
    (ho : th'.owner.tenure ≠ .kept) : Tracked slot' lost th' where
  seen := fun h => hd (hw.seen (hr ▸ h))
  resting := fun h => absurd (hc ▸ ha) h
  early := fun h => by
    rw [hc, ha] at h
    cases h
  kept := fun _ hk => absurd hk ho

theorem creator {a : Action V} {resume : a.Answer → Create.Pc} {x : a.Answer}
    (hw : Tracked (some id ∈ t) lost th)
    (hn : Create.next th.request th.creation = .act a resume)
    (he : e.effect id a (t, th.shared) = some (x, t', s')) :
    Tracked (some id ∈ t') lost { th with creation := resume x, shared := s' } := by
  have on_calm : a.calm = true → (resume x).stage = th.creation.stage →
      Tracked (some id ∈ t') lost { th with creation := resume x, shared := s' } := fun ha hc => by
    obtain ⟨rfl, hd⟩ := Setting.effect_calm he ha
    exact hw.calm hd hw.seen hc (fun h => h) fun h => h
  cases hp : th.creation with
  | register =>
    have hr := hw.resting (by rw [hp]; exact nofun)
    have hd := hw.early (by rw [hp]; rfl)
    rw [hp] at hn
    cases hn
    obtain ⟨rfl, hs⟩ := Setting.effect_register he
    rcases x with k | u
    · exact ⟨hw.seen, fun _ => hr, nofun, nofun⟩
    · obtain ⟨-, k, hk⟩ | ⟨-, ht, -⟩ := settled_cases hs
      · cases hk
      · have hm : some id ∈ t' := (Table.mem_register ht).mpr (.inr rfl)
        exact ⟨hw.seen, fun h => absurd rfl h, nofun, fun _ _ => ⟨hd, iff_of_true hm hr.2⟩⟩
  | disown k =>
    have hr := hw.resting (by rw [hp]; exact nofun)
    rw [hp] at hn
    cases hn
    cases he
    exact ⟨fun _ => rfl, fun _ => hr, nofun, nofun⟩
  | spawnWarn k =>
    have hr := hw.resting (by rw [hp]; exact nofun)
    rw [hp] at hn
    cases hn
    cases he
    exact ⟨hw.seen, fun _ => hr, nofun, nofun⟩
  | spawn =>
    rw [hp] at hn on_calm
    cases hn
    refine on_calm rfl ?_
    rcases x with k | b <;> rfl
  | detachLook k =>
    rw [hp] at hn on_calm
    cases hn
    refine on_calm rfl ?_
    cases x <;> rfl
  | detachCall k =>
    rw [hp] at hn on_calm
    cases hn
    refine on_calm rfl ?_
    rcases x with c | u <;> rfl
  | done r =>
    rw [hp] at hn
    cases hn
  | _ =>
    rw [hp] at hn on_calm
    cases hn
    exact on_calm rfl rfl

theorem routine {a : Action V} {resume : a.Answer → Routine.Pc V} {x : a.Answer}
    (hw : Tracked (some id ∈ t) lost th) (hn : Routine.next id th.routine = .act a resume)
    (he : e.effect id a (t, th.shared) = some (x, t', s')) :
    Tracked (some id ∈ t') lost { th with routine := resume x, shared := s' } := by
  have on_calm : a.calm = true →
      ((resume x).freeing = true → th.shared.object.detached = true) →
      Tracked (some id ∈ t') lost { th with routine := resume x, shared := s' } := fun ha hf => by
    obtain ⟨rfl, hd⟩ := Setting.effect_calm he ha
    exact hw.calm hd hf rfl (fun h => h) fun h => h
  cases hp : th.routine with
  | look =>
    rw [hp] at hn
    cases hn
    refine on_calm rfl ?_
    cases he
    change (if th.shared.object.detached then Routine.Pc.unregister else .done).freeing = true → _
    cases th.shared.object.detached with
    | true => exact fun _ => rfl
    | false => exact fun h => h
  | unregister =>
    have hd := hw.seen (by rw [hp]; rfl)
    rw [hp] at hn
    cases hn
    obtain ⟨rfl, -⟩ := Setting.effect_unregister he
    refine ⟨fun _ => hd, hw.resting, hw.early, fun hc hk => ?_⟩
    cases hd.symm.trans (hw.kept hc hk).1
  | unregisterWarn k =>
    rw [hp] at hn
    cases hn
    exact on_calm rfl nofun
  | gate =>
    rw [hp] at hn
    cases hn
    refine on_calm rfl ?_
    cases x <;> exact nofun
  | body =>
    rw [hp] at hn
    cases hn
    refine on_calm rfl ?_
    cases x <;> exact nofun
  | done =>
    rw [hp] at hn
    cases hn
  | _ =>
    rw [hp] at hn
    cases hn
    exact on_calm rfl nofun

theorem unregistering {joined : Bool} {x : Outcome Unit} (hs : t.Single)
    (hw : Tracked (some id ∈ t) lost th) (ho : th.owner = .destroying joined .unregister)
    (hd : s' = th.shared) (h : settled e.latch t (t.unregister id) = (x, t')) {pc : Destroy.Pc}
    (hok : x = .ok () → (Owner.destroying joined pc : Owner V).tenure ≠ .kept) :
    Tracked (some id ∈ t') (lost + (decide (e.latch.Leaks ∧ some id ∈ t)).toNat)
      { th with owner := .destroying joined pc, shared := s' } := by
  have hc := hw.accepted (by rw [ho]; exact nofun)
  have hk := hw.kept hc (by rw [ho]; rfl)
  subst hd
  obtain ⟨hx, hl, -⟩ | ⟨k, -, rfl, hn⟩ | ⟨k, -, hl, hm, hn⟩ := unregister_told hs h
  · have hl : ¬(e.latch.Leaks ∧ some id ∈ t) := fun h => h.1.2 hl.2
    rw [decide_eq_false hl]
    exact hw.given_up rfl hc rfl (fun h => h) (hok hx)
  · have hl : ¬(e.latch.Leaks ∧ some id ∈ t') := fun hl => hn ⟨hl.1.1, hl.2⟩
    rw [decide_eq_false hl]
    exact ⟨hw.seen, fun h => absurd hc h, hw.early, fun _ _ => hk⟩
  · rw [decide_eq_true ⟨hl, hm⟩]
    exact ⟨hw.seen, fun h => absurd hc h, hw.early, fun _ _ =>
      ⟨hk.1, iff_of_false hn (Nat.succ_ne_zero lost)⟩⟩

theorem owner_calm {a : Action V} {x : a.Answer} {w : Owner V}
    (hw : Tracked (some id ∈ t) lost th) (he : e.effect id a (t, th.shared) = some (x, t', s'))
    (ha : a.calm = true) (hr : th.owner ≠ .rest)
    (hk : w.tenure = .kept → th.owner.tenure = .kept) :
    Tracked (some id ∈ t') lost { th with owner := w, shared := s' } := by
  obtain ⟨rfl, hd⟩ := Setting.effect_calm he ha
  exact hw.calm hd hw.seen rfl (fun h => absurd h hr) hk

theorem joining {native : Bool} {pc : Join.Pc V} {a : Action V} {resume : a.Answer → Join.Pc V}
    {x : a.Answer} (hw : Tracked (some id ∈ t) lost th) (ho : th.owner = .joining native pc)
    (hn : Join.next id native pc = .act a resume)
    (he : e.effect id a (t, th.shared) = some (x, t', s')) :
    Tracked (some id ∈ t') lost
      { th with owner := .joining native (resume x), shared := s' } := by
  refine hw.owner_calm he ?_ (by rw [ho]; exact nofun) fun _ => by rw [ho]; rfl
  cases pc <;> cases hn <;> rfl

theorem destroying {joined : Bool} {pc : Destroy.Pc} {a : Action V}
    {resume : a.Answer → Destroy.Pc} {x : a.Answer} (hs : t.Single)
    (hw : Tracked (some id ∈ t) lost th) (ho : th.owner = .destroying joined pc)
    (hn : Destroy.next id joined pc = .act a resume)
    (he : e.effect id a (t, th.shared) = some (x, t', s')) :
    Tracked (some id ∈ t') (lost + (th.loses e id t .owner).toNat)
      { th with owner := .destroying joined (resume x), shared := s' } := by
  have hr : th.owner ≠ .rest := by rw [ho]; exact nofun
  have on_calm : a.calm = true → th.owner.unregistering = false →
      ((Owner.destroying joined (resume x) : Owner V).tenure = .kept →
        th.owner.tenure = .kept) →
      Tracked (some id ∈ t') (lost + (th.loses e id t .owner).toNat)
        { th with owner := .destroying joined (resume x), shared := s' } := fun ha hu hk => by
    rw [Thread.loses, hu]
    exact hw.owner_calm he ha hr hk
  rw [ho] at on_calm
  cases pc with
  | check =>
    cases hn
    exact on_calm rfl rfl fun _ => rfl
  | unregister =>
    rw [Thread.loses, ho]
    cases hn
    obtain ⟨hd, h⟩ := Setting.effect_unregister he
    refine hw.unregistering hs ho hd h ?_
    rintro rfl
    cases joined <;> exact nofun
  | look =>
    cases hn
    refine on_calm rfl rfl ?_
    cases x <;> exact nofun
  | detach =>
    cases hn
    refine on_calm rfl rfl ?_
    rcases x with k | u <;> exact nofun
  | done r => cases hn
  | _ =>
    cases hn
    exact on_calm rfl rfl nofun

theorem dropping {joined : Bool} {pc : Drop.Pc} {a : Action V} {resume : a.Answer → Drop.Pc}
    {x : a.Answer} (hw : Tracked (some id ∈ t) lost th) (ho : th.owner = .dropping joined pc)
    (hn : Drop.next id joined pc = .act a resume)
    (he : e.effect id a (t, th.shared) = some (x, t', s')) :
    Tracked (some id ∈ t') lost
      { th with owner := .dropping joined (resume x), shared := s' } := by
  have hr : th.owner ≠ .rest := by rw [ho]; exact nofun
  have hc := hw.accepted hr
  have on_calm := hw.owner_calm (w := .dropping joined (resume x)) he
  rw [ho] at on_calm
  cases pc with
  | warn =>
    cases hn
    exact on_calm rfl nofun fun _ => rfl
  | mark =>
    cases hn
    cases he
    refine hw.given_up rfl hc rfl (fun _ => rfl) ?_
    cases joined <;> exact nofun
  | look =>
    cases hn
    refine on_calm rfl nofun ?_
    cases x <;> exact nofun
  | detach =>
    cases hn
    refine on_calm rfl nofun ?_
    rcases x with k | u <;> exact nofun
  | check =>
    cases hn
    cases he
    refine hw.given_up rfl hc rfl (fun h => h) ?_
    dsimp only
    split <;> exact nofun
  | unregister =>
    cases hn
    obtain ⟨rfl, -⟩ := Setting.effect_unregister he
    refine hw.given_up rfl hc rfl (fun h => h) ?_
    rcases x with k | u
    · by_cases hk : k = .notFound <;> simp only [hk, if_true, if_false] <;> exact nofun
    · exact nofun
  | done => cases hn
  | _ =>
    cases hn
    exact on_calm rfl nofun nofun

theorem owner {a : Action V} {resume : a.Answer → Owner V} {x : a.Answer} (hs : t.Single)
    (hw : Tracked (some id ∈ t) lost th) (hn : th.owner.next id = .act a resume)
    (he : e.effect id a (t, th.shared) = some (x, t', s')) :
    Tracked (some id ∈ t') (lost + (th.loses e id t .owner).toNat)
      { th with owner := resume x, shared := s' } := by
  cases ho : th.owner with
  | joining native pc =>
    rw [ho] at hn
    obtain ⟨r, hp, rfl⟩ := Next.onto_act hn
    rw [Thread.loses, ho]
    exact hw.joining ho hp he
  | destroying joined pc =>
    rw [ho] at hn
    obtain ⟨r, hp, rfl⟩ := Next.onto_act hn
    exact hw.destroying hs ho hp he
  | dropping joined pc =>
    rw [ho] at hn
    obtain ⟨r, hp, rfl⟩ := Next.onto_act hn
    rw [Thread.loses, ho]
    exact hw.dropping ho hp he
  | _ =>
    rw [ho] at hn
    cases hn

theorem act (hs : t.Single) (hw : Tracked (some id ∈ t) lost th)
    (h : th.perform? (e.effect id) id t p = some (t', th')) :
    Tracked (some id ∈ t') (lost + (th.loses e id t p).toNat) th' := by
  obtain ⟨a, x, s', ha, he, hp⟩ := Thread.perform_cases h
  obtain ⟨r, rfl, hn, rfl⟩ | ⟨r, rfl, hn, rfl⟩ | ⟨r, rfl, hn, rfl⟩ | ⟨k, c, rfl, rfl⟩ := hp
  · exact hw.creator hn he
  · exact hw.routine hn he
  · exact hw.owner hs hn he
  · obtain ⟨d, -, hd⟩ := Option.bind_eq_some_iff.mp ha
    obtain ⟨rfl, hd⟩ := Setting.effect_calm he (Control.action_calm hd)
    exact hw.calm hd hw.seen rfl (fun h => h) fun h => h

theorem begin {c : HandleCall} (hw : Tracked slot lost th) (h : th.begin? c = some th') :
    Tracked slot lost th' := by
  obtain ⟨hc, hr, ⟨k, -, rfl⟩ | ⟨-, w, -, rfl⟩⟩ := Thread.begin_cases h
  · exact hw.calm rfl hw.seen rfl (fun h => h) fun h => h
  · have ha : th.creation.stage = .accepted := by rw [hc]; rfl
    have ho : th.owner.tenure = .kept := by rw [Owner.eq_rest hr]; rfl
    exact ⟨hw.seen, fun h => absurd ha h, hw.early, fun _ _ => hw.kept ha ho⟩

theorem finish (hw : Tracked slot lost th) (h : th.finish? p = some th') :
    Tracked slot lost th' := by
  obtain ⟨w, hf, rfl⟩ | ⟨k, c, -, -, rfl⟩ := Thread.finish_cases h
  · obtain ⟨n, r, ho, rfl⟩ | ⟨j, u, ho, rfl⟩ | ⟨j, k, ho, rfl⟩ | ⟨j, ho, rfl⟩ :=
      Owner.finish_cases hf
    all_goals
      exact hw.calm rfl hw.seen rfl (fun h => nomatch ho.symm.trans h)
        (congrArg Owner.tenure ho).trans
  · exact hw.calm rfl hw.seen rfl (fun h => h) fun h => h

end Tracked

/-! ## Over whole runs -/

namespace World

variable {w u : World V} {id : ObjectId} {capacity lost : Nat}

structure Traced (id : ObjectId) (w : World V) (lost : Nat) : Prop where
  single : w.table.Single
  present : ∀ th, w.threads id = some th → Tracked (some id ∈ w.table) lost th
  absent : w.threads id = none → some id ∉ w.table ∧ lost = 0

theorem traced_initial (id : ObjectId) (capacity : Nat) :
    Traced id (initial capacity : World V) 0 where
  single := Table.single_free capacity
  present := fun _ h => nomatch h
  absent := fun _ => ⟨Table.not_mem_free capacity id, rfl⟩

theorem loses_of_ne {c : Move V} (hc : c.target ≠ id) : loses id w c = false := by
  cases c with
  | act q p e => rw [loses, decide_eq_false (show q ≠ id from hc), Bool.false_and]
  | _ => rfl

theorem traced_step {c : Move V} (hw : Traced id w lost) (h : move? c w = some u) :
    Traced id u (lost + (loses id w c).toNat) := by
  obtain ⟨th', t, hv, rfl⟩ := move_cases h
  have hf := hv.framed hw.single
  by_cases hc : c.target = id
  · have hd : Tracked (some id ∈ t) (lost + (loses id w c).toNat) th' := by
      rw [hc] at hv
      generalize ho : w.threads id = o at hv
      cases hv with
      | create =>
        obtain ⟨hn, rfl⟩ := hw.absent ho
        rw [eq_false hn]
        exact .new _
      | begin hb => exact (hw.present _ ho).begin hb
      | act ha =>
        rw [Move.target] at hc
        subst hc
        simp only [loses, ho, decide_true, Bool.true_and, Option.any_some]
        exact (hw.present _ ho).act hw.single ha
      | finish hb => exact (hw.present _ ho).finish hb
    rw [hc] at hf ⊢
    exact ⟨hf.single, fun th ht => by rw [threads_put] at ht; cases ht; exact hd,
      fun hn => by rw [threads_put] at hn; cases hn⟩
  · have ht : (w.put c.target th' t).threads id = w.threads id :=
      threads_put_of_ne w (Ne.symm hc) th' t
    have hm : some id ∈ (w.put c.target th' t).table ↔ some id ∈ w.table :=
      hf.others id (Ne.symm hc)
    rw [loses_of_ne hc]
    exact ⟨hf.single, fun th h => by rw [hm]; exact hw.present th (ht ▸ h),
      fun h => by rw [hm]; exact hw.absent (ht ▸ h)⟩

end World

end Manager

end SyncCore

import SyncCore.Proofs.Manager.Accounting

/-!
# Slots over whole runs

A manager's table never has more threads than slots nor one thread twice. A
thread keeps its slot until its owner drops the handle or destroys the thread
with success, and when nothing is under way the threads that have a slot are
those whose creation succeeded and whose handle has not been destroyed, unless
the handle was dropped and the routine has ended.
-/

set_option autoImplicit false

namespace SyncCore.Manager

variable {V : Type}

namespace Thread

variable {o : Oracle V} {id : ObjectId} {t t' : Table} {th th' : Thread V} {p : Party}

theorem act_framed (hs : t.Single) (h : th.act? o id t p = some (t', th')) : Framed id t t' := by
  obtain ⟨a, resume, x, s', -, -, he, -⟩ | ⟨a, resume, x, s', -, -, he, -⟩ |
    ⟨w, s', -, hw, -⟩ | ⟨k, c, c', s', -, -, hc, -⟩ := act_cases h
  · exact effect_framed hs he
  · exact effect_framed hs he
  · obtain ⟨n, pc, a, r, x, -, -, he, -⟩ | ⟨j, pc, a, r, x, -, -, he, -⟩ |
      ⟨j, pc, a, r, x, -, -, he, -⟩ := Owner.act_cases hw
    · exact effect_framed hs he
    · exact effect_framed hs he
    · exact effect_framed hs he
  · rw [(control_quiet hc).table]
    exact ⟨rfl, hs, fun _ _ => Iff.rfl⟩

theorem act_accounted (hs : t.Single) (ha : Accounted (some id ∈ t) th)
    (h : th.act? o id t p = some (t', th')) : Accounted (some id ∈ t') th' := by
  obtain ⟨a, resume, x, s', -, hn, he, rfl⟩ | ⟨a, resume, x, s', -, hn, he, rfl⟩ |
    ⟨w, s', -, hw, rfl⟩ | ⟨k, c, c', s', -, -, hc, rfl⟩ := act_cases h
  · exact ha.creator hn he
  · exact ha.routine hs hn he
  · obtain ⟨n, pc, a, r, x, ho, hn, he, rfl⟩ | ⟨j, pc, a, r, x, ho, hn, he, rfl⟩ |
      ⟨j, pc, a, r, x, ho, hn, he, rfl⟩ := Owner.act_cases hw
    · exact ha.joining (ha.accepted_of_owner (by rw [ho]; rfl)) ho hn he
    · exact ha.destroying hs (ha.accepted_of_owner (by rw [ho]; rfl)) ho hn he
    · exact ha.dropping hs (ha.accepted_of_owner (by rw [ho]; rfl)) ho hn he
  · exact ha.control hc

theorem begin_accounted {slot : Prop} {c : HandleCall} (ha : Accounted slot th)
    (h : th.begin? c = some th') : Accounted slot th' := by
  obtain ⟨hc, hr, ⟨k, -, rfl⟩ | ⟨-, w, hw, rfl⟩⟩ := begin_cases h
  · exact ⟨ha.ended, ha.seen, ha.unaccepted, ha.early, ha.accepted⟩
  · refine ha.change_owner (by rw [hc]; rfl) ?_
    have ht : th.owner.tenure = .kept := by
      cases ho : th.owner with
      | rest => rfl
      | _ =>
        rw [ho] at hr
        cases hr
    rw [ht]
    cases c with
    | join own native =>
      cases hw
      rfl
    | destroy own => cases hw; cases own <;> rfl
    | drop =>
      cases hw
      rfl
    | hold d own supported => cases hw
    | priority q native own => cases hw

theorem finish_accounted {slot : Prop} (ha : Accounted slot th) (h : th.finish? p = some th') :
    Accounted slot th' := by
  obtain ⟨w, hw, rfl⟩ | ⟨k, c, -, -, rfl⟩ := finish_cases h
  · obtain ⟨n, r, ho, rfl⟩ | ⟨j, u, ho, rfl⟩ | ⟨j, e, ho, rfl⟩ | ⟨j, ho, rfl⟩ :=
      Owner.finish_cases hw
    all_goals exact ha.change_owner (ha.accepted_of_owner (by rw [ho]; rfl)) (by rw [ho]; rfl)
  · exact ⟨ha.ended, ha.seen, ha.unaccepted, ha.early, ha.accepted⟩

theorem act_stage (h : th.act? o id t p = some (t', th')) (ha : th.creation.stage = .accepted) :
    th'.creation.stage = .accepted := by
  obtain ⟨a, resume, x, s', -, hn, -, rfl⟩ | ⟨a, resume, x, s', -, -, -, rfl⟩ |
    ⟨w, s', -, -, rfl⟩ | ⟨k, c, c', s', -, -, -, rfl⟩ := act_cases h
  · cases hc : th.creation with
    | openGate =>
      rw [hc] at hn
      cases hn
      rfl
    | announce =>
      rw [hc] at hn
      cases hn
      rfl
    | done r =>
      rw [hc] at hn
      cases hn
    | _ =>
      rw [hc] at ha
      cases ha
  · exact ha
  · exact ha
  · exact ha

theorem begin_stage {c : HandleCall} (h : th.begin? c = some th') :
    th'.creation.stage = th.creation.stage := by
  obtain ⟨-, -, ⟨k, -, rfl⟩ | ⟨-, w, -, rfl⟩⟩ := begin_cases h <;> rfl

theorem finish_stage (h : th.finish? p = some th') :
    th'.creation.stage = th.creation.stage := by
  obtain ⟨w, -, rfl⟩ | ⟨k, c, -, -, rfl⟩ := finish_cases h <;> rfl

end Thread

namespace World

variable {w u : World V} {capacity : Nat}

structure Occupied (capacity : Nat) (w : World V) : Prop where
  length : w.table.length = capacity
  single : w.table.Single
  unused : ∀ id, w.threads id = none → some id ∉ w.table
  used : ∀ id th, w.threads id = some th → Accounted (some id ∈ w.table) th

theorem occupied_initial (capacity : Nat) : Occupied capacity (initial capacity : World V) where
  length := List.length_replicate
  single := Table.single_free capacity
  unused := fun id _ => Table.not_mem_free capacity id
  used := by
    intro id th h
    cases h

theorem occupied_put {id : ObjectId} {th : Thread V} {t : Table} (hw : Occupied capacity w)
    (hf : Framed id w.table t) (ha : Accounted (some id ∈ t) th) :
    Occupied capacity (w.put id th t) where
  length := hf.length.trans hw.length
  single := hf.single
  unused := fun p hp hm => by
    have hne : p ≠ id := by
      rintro rfl
      simp [put] at hp
    simp only [put, Function.update_of_ne hne] at hp
    exact hw.unused p hp ((hf.others p hne).mp hm)
  used := fun p tp hp => by
    by_cases hne : p = id
    · subst hne
      simp only [put, Function.update_self, Option.some.injEq] at hp
      exact hp ▸ ha
    · simp only [put, Function.update_of_ne hne] at hp
      rw [show (some p ∈ (w.put id th t).table) = (some p ∈ w.table) from
        propext (hf.others p hne)]
      exact hw.used p tp hp

theorem framed_refl (hw : Occupied capacity w) (id : ObjectId) : Framed id w.table w.table :=
  ⟨rfl, hw.single, fun _ _ => Iff.rfl⟩

theorem occupied_step {c : Choice V} (hw : Occupied capacity w) (h : step? c w = some u) :
    Occupied capacity u := by
  cases c with
  | create r =>
    obtain ⟨hn, rfl⟩ := step_create h
    refine occupied_put hw (framed_refl hw r.id) ?_
    rw [eq_false (hw.unused r.id hn)]
    exact .new r
  | begin id c =>
    obtain ⟨th, th', ht, hb, rfl⟩ := step_begin h
    exact occupied_put hw (framed_refl hw id) (Thread.begin_accounted (hw.used id th ht) hb)
  | act id p o =>
    obtain ⟨th, t, th', ht, ha, rfl⟩ := step_act h
    exact occupied_put hw (Thread.act_framed hw.single ha)
      (Thread.act_accounted hw.single (hw.used id th ht) ha)
  | finish id p =>
    obtain ⟨th, th', ht, hf, rfl⟩ := step_finish h
    exact occupied_put hw (framed_refl hw id) (Thread.finish_accounted (hw.used id th ht) hf)

end World

/-! ## What the invariant says -/

/-- The owner has dropped the handle, or passed it to a destroy that cannot
but succeed any more. -/
def Owner.GivesUp (id : ObjectId) : Owner V → Prop
  | .rest => False
  | .joining _ _ => False
  | .destroying joined pc =>
    ∀ r, (Destroy.next (V := V) id joined).Leads pc (.done r) → r = .ok ()
  | .dropping _ _ => True
  | .destroyed => True
  | .dropped => True

/-- No create, destroy, drop or end of the routine is under way. -/
structure Thread.Settled (th : Thread V) : Prop where
  created : ∃ r, th.creation = .done r
  owned : ∀ joined, (∀ pc, th.owner ≠ .destroying joined pc) ∧ ∀ pc, th.owner ≠ .dropping joined pc
  ended : th.routine.ended = true → th.routine = .done

/-- The creation returned a handle, the handle has not been destroyed, and it
is not the case that it was dropped and the routine has ended. -/
structure Thread.Entitled (th : Thread V) : Prop where
  created : th.creation = .done (.ok ())
  undestroyed : th.owner ≠ .destroyed
  running : ¬(th.owner = .dropped ∧ th.routine = .done)

theorem destroy_commits {id : ObjectId} {joined : Bool} {pc : Destroy.Pc}
    (h : (Owner.destroying joined pc : Owner V).tenure = .released) :
    (Owner.destroying joined pc : Owner V).GivesUp id := by
  intro r hl
  have hk := hl.keeps (P := fun pc => (Owner.destroying joined pc : Owner V).tenure = .released)
    (fun pc a resume x hn hp => by
      cases pc with
      | check => cases hp
      | unregister => cases hp
      | look => cases hn; cases x <;> rfl
      | detach => cases hn; rcases x with e | u <;> rfl
      | warn e =>
        cases hn
        rfl
      | announce =>
        cases hn
        rfl
      | done r => cases hn) h
  rcases r with e | u
  · cases hk
  · rfl

theorem Owner.gives_up {id : ObjectId} {w : Owner V} (h : w.tenure ≠ .kept) : w.GivesUp id := by
  cases w with
  | rest => exact h rfl
  | joining native pc => exact h rfl
  | destroying joined pc =>
    refine destroy_commits ?_
    cases pc with
    | check => exact absurd rfl h
    | unregister => exact absurd rfl h
    | done r =>
      rcases r with e | u
      · exact absurd rfl h
      · rfl
    | _ => rfl
  | _ => trivial

theorem Accounted.entitled {slot : Prop} {th : Thread V} (ha : Accounted slot th)
    (hs : th.Settled) : slot ↔ th.Entitled := by
  obtain ⟨r, hc⟩ := hs.created
  rcases r with e | u
  · have hn := ha.unaccepted (by rw [hc]; exact nofun)
    exact iff_of_false hn.1 fun he => nomatch hc.symm.trans he.created
  · have hw := ha.accepted (by rw [hc]; rfl)
    cases ho : th.owner with
    | rest =>
      rw [ho] at hw
      exact iff_of_true hw.1 ⟨hc, by rw [ho]; exact nofun, by rw [ho]; exact nofun⟩
    | joining native pc =>
      rw [ho] at hw
      exact iff_of_true hw.1 ⟨hc, by rw [ho]; exact nofun, by rw [ho]; exact nofun⟩
    | destroying joined pc => exact absurd ho ((hs.owned joined).1 pc)
    | dropping joined pc => exact absurd ho ((hs.owned joined).2 pc)
    | destroyed =>
      rw [ho] at hw
      exact iff_of_false hw.1 fun he => he.undestroyed ho
    | dropped =>
      rw [ho] at hw
      cases hr : th.routine.ended with
      | true =>
        have hd := hs.ended hr
        rw [hd] at hw
        exact iff_of_false (hw.2.2 rfl) fun he => he.running ⟨ho, hd⟩
      | false =>
        refine iff_of_true (hw.2.1 hr) ⟨hc, by rw [ho]; exact nofun, fun hd => ?_⟩
        rw [hd.2] at hr
        cases hr

namespace World

variable {w u : World V} {capacity : Nat}

/-- A step takes an object out of the table only if its owner has given it up. -/
def Keeps (w : World V) (_ : Choice V) (u : World V) : Prop :=
  ∀ id, some id ∈ w.table → some id ∉ u.table →
    ∃ th, u.threads id = some th ∧ th.owner.GivesUp id

/-- The table is within its bounds and, of the objects about which nothing is
under way, has exactly those that are entitled to a slot. -/
structure Balanced (capacity : Nat) (w : World V) : Prop where
  bounded : w.table.size ≤ capacity
  once : ∀ id, w.table.count (some id) ≤ 1
  exact : ∀ id, (∀ th, w.threads id = some th → th.Settled) →
    (some id ∈ w.table ↔ ∃ th, w.threads id = some th ∧ th.Entitled)

theorem Occupied.balanced (hw : Occupied capacity w) : Balanced capacity w where
  bounded := hw.length ▸ Table.size_le_length w.table
  once := hw.single
  exact := fun id hs => by
    cases ht : w.threads id with
    | none => exact iff_of_false (hw.unused id ht) fun ⟨_, h, _⟩ => nomatch h
    | some th =>
      rw [(hw.used id th ht).entitled (hs th ht)]
      exact ⟨fun he => ⟨th, rfl, he⟩, fun ⟨_, h, he⟩ => Option.some.inj h ▸ he⟩

theorem stays_accepted {c : Choice V} (h : step? c w = some u) {id : ObjectId} {th : Thread V}
    (ht : w.threads id = some th) (ha : th.creation.stage = .accepted) :
    ∃ th', u.threads id = some th' ∧ th'.creation.stage = .accepted := by
  obtain ⟨he, -⟩ | ⟨r, hn, -⟩ | ⟨tq, th', k, hq, hu, -, hb⟩ | ⟨tq, th', p, o, t, hq, hu, -, hp⟩ |
    ⟨tq, th', p, hq, hu, -, hf⟩ := step_thread h id
  · exact ⟨th, he.trans ht, ha⟩
  · cases hn.symm.trans ht
  · cases hq.symm.trans ht
    exact ⟨th', hu, Thread.begin_stage hb ▸ ha⟩
  · cases hq.symm.trans ht
    exact ⟨th', hu, Thread.act_stage hp ha⟩
  · cases hq.symm.trans ht
    exact ⟨th', hu, Thread.finish_stage hf ▸ ha⟩

theorem Occupied.keeps {c : Choice V} (hw : Occupied capacity w) (hu : Occupied capacity u)
    (h : step? c w = some u) : Keeps w c u := by
  intro id hm hn
  cases ht : w.threads id with
  | none => exact absurd hm (hw.unused id ht)
  | some th =>
    have ha : th.creation.stage = .accepted := by
      by_contra hne
      exact ((hw.used id th ht).unaccepted hne).1 hm
    obtain ⟨th', ht', ha'⟩ := stays_accepted h ht ha
    refine ⟨th', ht', Owner.gives_up fun hk => hn ?_⟩
    have hslot := (hu.used id th' ht').accepted ha'
    rw [hk] at hslot
    exact hslot.1

/-- In every run of a manager, with any number of threads in any order of
their actions, the table is balanced at the end and no object has lost its
slot before its owner gave it up. -/
theorem slots_balance {capacity : Nat} {cs : List (Choice V)} {w : World V}
    (h : run? step? cs (initial capacity) = some w) :
    Balanced capacity w ∧ Throughout step? Keeps cs (initial capacity) := by
  constructor
  · exact (run_keeps (fun _ _ _ hw hst => occupied_step hw hst) h
      (occupied_initial capacity)).balanced
  · refine throughout_of_keeps (I := Occupied capacity) (P := fun _ _ _ => True) ?_ ?_
      (occupied_initial capacity)
    · exact fun _ _ _ hw hst _ => ⟨occupied_step hw hst, hw.keeps (occupied_step hw hst) hst⟩
    · exact throughout_trivial cs _

/-- A thread ends while its handle is dropped: both sides try to free the slot. -/
def droppedAtEnd : List (Choice Unit) :=
  [.create ⟨1, .default, 0⟩,
    .act 1 .creator .agreeable, .act 1 .creator .agreeable, .act 1 .creator .agreeable,
    .act 1 .creator .agreeable, .act 1 .creator .agreeable,
    .act 1 .routine .agreeable, .act 1 .routine .agreeable, .act 1 .routine .agreeable,
    .act 1 .routine .agreeable, .act 1 .routine .agreeable,
    .begin 1 .drop, .act 1 .owner .agreeable, .act 1 .owner .agreeable, .act 1 .owner .agreeable,
    .act 1 .owner .agreeable, .act 1 .routine .agreeable, .act 1 .owner .agreeable,
    .act 1 .routine .agreeable, .act 1 .owner .agreeable, .finish 1 .owner]

theorem dropped_at_end_balanced :
    ∃ w : World Unit, run? step? droppedAtEnd (initial 1) = some w ∧ w.table = [none] ∧
      Balanced 1 w ∧ Throughout step? Keeps droppedAtEnd (initial 1) := by
  obtain ⟨w, h⟩ : ∃ w : World Unit, run? step? droppedAtEnd (initial 1) = some w := ⟨_, rfl⟩
  obtain ⟨hb, hk⟩ := slots_balance h
  refine ⟨w, h, ?_, hb, hk⟩
  cases h
  rfl

end World

end SyncCore.Manager

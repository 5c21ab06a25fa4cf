import SyncCore.Proofs.Manager.World
import SyncCore.Proofs.Registry.Slots

/-!
# Accounting for slots

The owner of a thread and its start routine each write one flag and read the
other's, and whoever comes last frees the slot. Whether an object has a slot
follows from the stage of its creation, what its owner has done with the
handle, and how far the routine has come.
-/

set_option autoImplicit false

namespace SyncCore.Manager

variable {V : Type}

/-! ## Stages of the parties -/

namespace Create

inductive Stage where
  | early
  | accepted
  | rejected
  deriving DecidableEq

def Pc.stage : Pc → Stage
  | .spawn => .early
  | .spawnWarn _ => .early
  | .bind _ => .early
  | .register => .early
  | .openGate => .accepted
  | .announce => .accepted
  | .done (.ok _) => .accepted
  | _ => .rejected

end Create

namespace Routine.Pc

def ended : Routine.Pc V → Bool
  | .look => true
  | .unregister => true
  | .unregisterWarn _ => true
  | .done => true
  | _ => false

def freeing : Routine.Pc V → Bool
  | .unregister => true
  | .unregisterWarn _ => true
  | _ => false

def finished : Routine.Pc V → Bool
  | .unregisterWarn _ => true
  | .done => true
  | _ => false

end Routine.Pc

/-- What the owner has done with the handle, as far as the slot goes. -/
inductive Tenure where
  | kept
  | released
  /-- The thread is marked as detached, and the owner has not read its state since. -/
  | leaving
  /-- The owner has read that the thread is Terminated and frees the slot. -/
  | clearing
  | left
  deriving DecidableEq

def Owner.tenure : Owner V → Tenure
  | .rest => .kept
  | .joining _ _ => .kept
  | .destroying _ .check => .kept
  | .destroying _ .unregister => .kept
  | .destroying _ (.done (.error _)) => .kept
  | .destroying _ _ => .released
  | .destroyed => .released
  | .dropping _ .warn => .kept
  | .dropping _ .mark => .kept
  | .dropping _ .unregister => .clearing
  | .dropping _ (.unregisterWarn _) => .left
  | .dropping _ .done => .left
  | .dropping _ _ => .leaving
  | .dropped => .left

/-- Whether the object has a slot and is marked as detached, by what the owner
has done and where the routine is. -/
def Tenure.Slot (slot : Prop) (detached : Bool) (r : Routine.Pc V) : Tenure → Prop
  | .kept => slot ∧ detached = false
  | .released => ¬slot ∧ detached = false
  | .leaving => detached = true ∧ (slot ∨ r.finished = true)
  | .clearing => detached = true ∧ r.ended = true ∧ (slot ∨ r.finished = true)
  | .left => detached = true ∧ (r.ended = false → slot) ∧ (r.finished = true → ¬slot)

structure Accounted (slot : Prop) (th : Thread V) : Prop where
  ended : th.shared.object.state = .terminated ↔ th.routine.ended = true
  seen : th.routine.freeing = true → th.shared.object.detached = true
  unaccepted : th.creation.stage ≠ .accepted → ¬slot ∧ th.owner.atRest = true
  early : th.creation.stage = .early → th.shared.object.detached = false
  accepted : th.creation.stage = .accepted →
    th.owner.tenure.Slot slot th.shared.object.detached th.routine

/-! ## Effects on what the accounting speaks of -/

structure Quiet (t : Table) (s : Shared V) (t' : Table) (s' : Shared V) : Prop where
  table : t' = t
  ended : s'.object.state = .terminated ↔ s.object.state = .terminated
  detached : s'.object.detached = s.object.detached

def CellAction.quiet : CellAction V → Bool
  | .storeState _ => false
  | .markDetached => false
  | .exchangeState e d => e ≠ .terminated && d ≠ .terminated
  | _ => true

def Action.quiet : Action V → Bool
  | .cell a => a.quiet
  | .table _ => false
  | _ => true

section Effects

variable {o : Oracle V} {id : ObjectId} {t t' : Table} {s s' : Shared V}

theorem exchange_terminated (b : ThreadObject V) {e d : ThreadState} (he : e ≠ .terminated)
    (hd : d ≠ .terminated) :
    (b.exchangeState e d).2.state = .terminated ↔ b.state = .terminated := by
  unfold ThreadObject.exchangeState
  by_cases hw : b.stateWord = e.word
  · rw [if_pos hw]
    simp only [ThreadObject.state, hw, ThreadState.ofWord_word]
    exact iff_of_false hd he
  · rw [if_neg hw]

theorem exchange_detached (b : ThreadObject V) (e d : ThreadState) :
    (b.exchangeState e d).2.detached = b.detached := by
  unfold ThreadObject.exchangeState
  split <;> rfl

theorem effect_quiet {a : Action V} {x : a.Answer} (h : effect o id a (t, s) = some (x, t', s'))
    (hq : a.quiet = true) : Quiet t s t' s' := by
  cases a with
  | cell c =>
    cases h
    cases c with
    | storeState d => cases hq
    | markDetached => cases hq
    | exchangeState e d =>
      simp only [Action.quiet, CellAction.quiet, Bool.and_eq_true, decide_eq_true_eq] at hq
      exact ⟨rfl, exchange_terminated s.object hq.1 hq.2, exchange_detached s.object e d⟩
    | _ => exact ⟨rfl, Iff.rfl, rfl⟩
  | table c => cases hq
  | _ =>
    cases h
    exact ⟨rfl, Iff.rfl, rfl⟩

theorem effect_register {x : Outcome Unit}
    (h : effect o id (.table .register) (t, s) = some (x, t', s')) :
    s' = s ∧ ((∃ e, x = .error e ∧ t' = t) ∨ (x = .ok () ∧ t.register id = .ok t')) := by
  simp only [effect, Registry.alone_register, Option.map_some] at h
  cases h
  cases hr : t.register id with
  | ok u => exact ⟨rfl, .inr ⟨rfl, rfl⟩⟩
  | error e => exact ⟨rfl, .inl ⟨e, rfl, rfl⟩⟩

theorem effect_unregister {x : Outcome Unit}
    (h : effect o id (.table .unregister) (t, s) = some (x, t', s')) :
    s' = s ∧ ((x = .error .notFound ∧ t' = t ∧ some id ∉ t) ∨
      (x = .ok () ∧ t.unregister id = .ok t')) := by
  simp only [effect, Registry.alone_unregister, Option.map_some] at h
  cases h
  cases hr : t.unregister id with
  | ok u => exact ⟨rfl, .inr ⟨rfl, rfl⟩⟩
  | error e =>
    obtain ⟨rfl, hn⟩ := Table.unregister_error hr
    exact ⟨rfl, .inl ⟨rfl, rfl, hn⟩⟩

theorem control_quiet {c c' : Control} (h : c.act? o id (t, s) = some (c', t', s')) :
    Quiet t s t' s' := by
  obtain ⟨d, pc, a, resume, x, -, hn, he, -⟩ | ⟨q, native, pc, a, resume, x, -, hn, he, -⟩ :=
    Control.act_cases h
  · exact effect_quiet he (by cases d <;> cases pc <;> cases hn <;> rfl)
  · exact effect_quiet he (by cases pc <;> cases hn <;> rfl)

/-- After an unregistration the object has no slot, and it succeeds if there was one. -/
theorem unregister_clears {x : Outcome Unit} (hs : t.Single)
    (h : effect o id (.table .unregister) (t, s) = some (x, t', s')) :
    s' = s ∧ some id ∉ t' ∧ (some id ∈ t → x = .ok ()) := by
  obtain ⟨rfl, ⟨rfl, rfl, hn⟩ | ⟨rfl, hu⟩⟩ := effect_unregister h
  · exact ⟨rfl, hn, fun hm => absurd hm hn⟩
  · refine ⟨rfl, fun hm => ?_, fun _ => rfl⟩
    exact ((Table.mem_unregister hs hu).mp hm).2 rfl

/-- No action on one object costs another its slot or gives it one. -/
structure Framed (id : ObjectId) (t t' : Table) : Prop where
  length : t'.length = t.length
  single : t'.Single
  others : ∀ p, p ≠ id → (some p ∈ t' ↔ some p ∈ t)

theorem effect_framed {a : Action V} {x : a.Answer} (hs : t.Single)
    (h : effect o id a (t, s) = some (x, t', s')) : Framed id t t' := by
  cases a with
  | table c =>
    cases c with
    | register =>
      obtain ⟨-, ⟨e, -, rfl⟩ | ⟨-, hr⟩⟩ := effect_register h
      · exact ⟨rfl, hs, fun _ _ => Iff.rfl⟩
      · exact ⟨Table.register_length hr, Table.single_register hs hr, fun p hp => by
          rw [Table.mem_register hr, or_iff_left hp]⟩
    | unregister =>
      obtain ⟨-, ⟨-, rfl, -⟩ | ⟨-, hr⟩⟩ := effect_unregister h
      · exact ⟨rfl, hs, fun _ _ => Iff.rfl⟩
      · exact ⟨Table.unregister_length hr, Table.single_unregister hs hr, fun p hp => by
          rw [Table.mem_unregister hs hr, and_iff_left hp]⟩
    | find => cases h
  | _ =>
    cases h
    exact ⟨rfl, hs, fun _ _ => Iff.rfl⟩

end Effects

/-! ## What a step of each party preserves -/

theorem Tenure.slot_congr {w : Tenure} {slot : Prop} {d : Bool} {r r' : Routine.Pc V}
    (he : r'.ended = r.ended) (hf : r'.finished = r.finished) (h : w.Slot slot d r) :
    w.Slot slot d r' := by
  cases w <;> simpa [Tenure.Slot, he, hf] using h

theorem Tenure.slot_terminate {w : Tenure} {slot : Prop} {d : Bool}
    (h : w.Slot slot d (.terminate : Routine.Pc V)) : w.Slot slot d (.look : Routine.Pc V) := by
  cases w <;> simp_all [Tenure.Slot, Routine.Pc.ended, Routine.Pc.finished]

theorem Tenure.slot_detached {w : Tenure} {slot : Prop}
    (h : w.Slot slot true (.look : Routine.Pc V)) :
    w.Slot slot true (.unregister : Routine.Pc V) := by
  cases w <;> simp_all [Tenure.Slot, Routine.Pc.ended, Routine.Pc.finished]

theorem Tenure.slot_attached {w : Tenure} {slot : Prop}
    (h : w.Slot slot false (.look : Routine.Pc V)) : w.Slot slot false (.done : Routine.Pc V) := by
  cases w <;> simp_all [Tenure.Slot]

theorem Tenure.slot_freed {w : Tenure} {slot slot' : Prop} {r r' : Routine.Pc V}
    (h : w.Slot slot true r) (hs : ¬slot') (hf : r'.finished = true) (he : r'.ended = true) :
    w.Slot slot' true r' := by
  cases w <;> simp_all [Tenure.Slot]

theorem finished_ended {r : Routine.Pc V} (h : r.finished = true) : r.ended = true := by
  cases r <;> first | rfl | cases h

namespace Accounted

variable {o : Oracle V} {id : ObjectId} {t t' : Table} {s' : Shared V} {th : Thread V}

theorem of_accepted {slot : Prop} (hc : th.creation.stage = .accepted)
    (he : th.shared.object.state = .terminated ↔ th.routine.ended = true)
    (hf : th.routine.freeing = true → th.shared.object.detached = true)
    (hw : th.owner.tenure.Slot slot th.shared.object.detached th.routine) : Accounted slot th where
  ended := he
  seen := hf
  unaccepted := fun hn => absurd hc hn
  early := fun hn => nomatch hc.symm.trans hn
  accepted := fun _ => hw

theorem new (r : Create.Request) : Accounted False (.new r : Thread V) where
  ended := by
    have hs : (Thread.new r : Thread V).shared.object.state = .created := rfl
    rw [hs]
    exact iff_of_false nofun nofun
  seen := nofun
  unaccepted := fun _ => ⟨id, rfl⟩
  early := fun _ => rfl
  accepted := nofun

theorem routine_quiet {slot : Prop} {r : Routine.Pc V} (ha : Accounted slot th)
    (hq : Quiet t th.shared t' s') (he : r.ended = th.routine.ended)
    (hf : r.finished = th.routine.finished)
    (hg : r.freeing = true → th.shared.object.detached = true) :
    Accounted slot { th with routine := r, shared := s' } where
  ended := hq.ended.trans (by rw [ha.ended, he])
  seen := fun h => hq.detached.trans (hg h)
  unaccepted := ha.unaccepted
  early := fun h => hq.detached.trans (ha.early h)
  accepted := fun h => by
    have hw := Tenure.slot_congr he hf (ha.accepted h)
    simpa only [hq.detached] using hw

theorem routine {a : Action V} {resume : a.Answer → Routine.Pc V} {x : a.Answer}
    (hs : t.Single) (ha : Accounted (some id ∈ t) th)
    (hn : Routine.next id th.routine = .act a resume)
    (he : effect o id a (t, th.shared) = some (x, t', s')) :
    Accounted (some id ∈ t') { th with routine := resume x, shared := s' } := by
  have hend := ha.ended
  have hseen := ha.seen
  cases hr : th.routine with
  | gate =>
    rw [hr] at hn
    cases hn
    have hq := effect_quiet he rfl
    rw [hq.table]
    cases x <;> exact ha.routine_quiet hq (by rw [hr]; rfl) (by rw [hr]; rfl) nofun
  | wait =>
    rw [hr] at hn
    cases hn
    have hq := effect_quiet he rfl
    rw [hq.table]
    exact ha.routine_quiet hq (by rw [hr]; rfl) (by rw [hr]; rfl) nofun
  | begin =>
    rw [hr] at hn hend
    cases hn
    cases he
    have hl : th.shared.object.state ≠ .terminated := fun h => nomatch hend.mp h
    have hq : Quiet t th.shared t { th.shared with
        object := { th.shared.object with stateWord := ThreadState.running.word } } :=
      ⟨rfl, iff_of_false nofun hl, rfl⟩
    exact ha.routine_quiet hq (by rw [hr]; rfl) (by rw [hr]; rfl) nofun
  | body =>
    rw [hr] at hn
    cases hn
    have hq := effect_quiet he rfl
    rw [hq.table]
    cases x <;> exact ha.routine_quiet hq (by rw [hr]; rfl) (by rw [hr]; rfl) nofun
  | put v =>
    rw [hr] at hn
    cases hn
    have hq := effect_quiet he rfl
    rw [hq.table]
    exact ha.routine_quiet hq (by rw [hr]; rfl) (by rw [hr]; rfl) nofun
  | terminate =>
    rw [hr] at hn
    cases hn
    cases he
    refine ⟨iff_of_true rfl rfl, nofun, ha.unaccepted, ha.early, fun hc => ?_⟩
    have hw := ha.accepted hc
    rw [hr] at hw
    exact Tenure.slot_terminate hw
  | look =>
    rw [hr] at hn hend
    cases hn
    cases he
    have hd : ∀ r : Routine.Pc V, r.ended = true →
        (r.freeing = true → th.shared.object.detached = true) →
        (∀ w : Tenure, w.Slot (some id ∈ t) th.shared.object.detached (.look : Routine.Pc V) →
          w.Slot (some id ∈ t) th.shared.object.detached r) →
        Accounted (some id ∈ t) { th with routine := r } := fun r he hf hw =>
      ⟨iff_of_true (hend.mpr rfl) he, hf, ha.unaccepted, ha.early, fun hc =>
        hw _ (by have h := ha.accepted hc; rwa [hr] at h)⟩
    cases hk : th.shared.object.detached with
    | true =>
      have h := hd .unregister rfl (fun _ => hk) fun w hw => by
        rw [hk] at hw ⊢
        exact Tenure.slot_detached hw
      simpa [CellAction.perform, hk] using h
    | false =>
      have h := hd .done rfl nofun fun w hw => by
        rw [hk] at hw ⊢
        exact Tenure.slot_attached hw
      simpa [CellAction.perform, hk] using h
  | unregister =>
    rw [hr] at hn hend hseen
    cases hn
    obtain ⟨rfl, hno, -⟩ := unregister_clears hs he
    have hf : ∀ r : Routine.Pc V, r.finished = true → r.ended = true →
        Accounted (some id ∈ t') { th with routine := r } := fun r hf hr' =>
      ⟨iff_of_true (hend.mpr rfl) hr', fun _ => hseen rfl, fun hc => ⟨hno, (ha.unaccepted hc).2⟩,
        ha.early, fun hc => by
          have hw := ha.accepted hc
          rw [hseen rfl] at hw ⊢
          exact Tenure.slot_freed hw hno hf hr'⟩
    rcases x with e | u
    · by_cases hb : e = .notFound
      · simpa [hb] using hf .done rfl rfl
      · simpa [hb] using hf (.unregisterWarn e) rfl rfl
    · exact hf .done rfl rfl
  | unregisterWarn e =>
    rw [hr] at hn
    cases hn
    have hq := effect_quiet he rfl
    rw [hq.table]
    exact ha.routine_quiet hq (by rw [hr]; rfl) (by rw [hr]; rfl) nofun
  | done =>
    rw [hr] at hn
    cases hn

theorem owner_quiet {w : Owner V} (ha : Accounted (some id ∈ t) th)
    (hc : th.creation.stage = .accepted) (hq : Quiet t th.shared t' s')
    (hw : w.tenure = th.owner.tenure) :
    Accounted (some id ∈ t') { th with owner := w, shared := s' } := by
  rw [hq.table]
  refine of_accepted hc (hq.ended.trans ha.ended) (fun h => hq.detached.trans (ha.seen h)) ?_
  have h := ha.accepted hc
  rw [← hw] at h
  simpa only [hq.detached] using h

theorem joining {native : Bool} {pc : Join.Pc V} {a : Action V} {resume : a.Answer → Join.Pc V}
    {x : a.Answer} (ha : Accounted (some id ∈ t) th) (hc : th.creation.stage = .accepted)
    (ho : th.owner = .joining native pc) (hn : Join.next id native pc = .act a resume)
    (he : effect o id a (t, th.shared) = some (x, t', s')) :
    Accounted (some id ∈ t') { th with owner := .joining native (resume x), shared := s' } := by
  have hq : a.quiet = true := by cases pc <;> cases hn <;> rfl
  exact ha.owner_quiet hc (effect_quiet he hq) (by rw [ho]; rfl)

theorem destroying {joined : Bool} {pc : Destroy.Pc} {a : Action V}
    {resume : a.Answer → Destroy.Pc} {x : a.Answer} (hs : t.Single)
    (ha : Accounted (some id ∈ t) th) (hc : th.creation.stage = .accepted)
    (ho : th.owner = .destroying joined pc) (hn : Destroy.next id joined pc = .act a resume)
    (he : effect o id a (t, th.shared) = some (x, t', s')) :
    Accounted (some id ∈ t') { th with owner := .destroying joined (resume x), shared := s' } := by
  have hslot := ha.accepted hc
  rw [ho] at hslot
  cases pc with
  | check =>
    cases hn
    refine ha.owner_quiet hc (effect_quiet he rfl) ?_
    rw [ho]
    cases x <;> rfl
  | unregister =>
    cases hn
    obtain ⟨rfl, hno, hok⟩ := unregister_clears hs he
    cases hok hslot.1
    refine of_accepted hc ha.ended ha.seen ?_
    cases joined <;> exact ⟨hno, hslot.2⟩
  | look =>
    cases hn
    refine ha.owner_quiet hc (effect_quiet he rfl) ?_
    rw [ho]
    cases x <;> rfl
  | detach =>
    cases hn
    refine ha.owner_quiet hc (effect_quiet he rfl) ?_
    rw [ho]
    rcases x with e | u <;> rfl
  | warn e => cases hn; exact ha.owner_quiet hc (effect_quiet he rfl) (by rw [ho]; rfl)
  | announce => cases hn; exact ha.owner_quiet hc (effect_quiet he rfl) (by rw [ho]; rfl)
  | done r => cases hn

theorem dropping {joined : Bool} {pc : Drop.Pc} {a : Action V}
    {resume : a.Answer → Drop.Pc} {x : a.Answer} (hs : t.Single)
    (ha : Accounted (some id ∈ t) th) (hc : th.creation.stage = .accepted)
    (ho : th.owner = .dropping joined pc) (hn : Drop.next id joined pc = .act a resume)
    (he : effect o id a (t, th.shared) = some (x, t', s')) :
    Accounted (some id ∈ t') { th with owner := .dropping joined (resume x), shared := s' } := by
  have hslot := ha.accepted hc
  rw [ho] at hslot
  cases pc with
  | warn => cases hn; exact ha.owner_quiet hc (effect_quiet he rfl) (by rw [ho]; rfl)
  | mark =>
    cases hn
    cases he
    refine of_accepted hc ha.ended (fun _ => rfl) ?_
    cases joined <;> exact ⟨rfl, .inl hslot.1⟩
  | look =>
    cases hn
    refine ha.owner_quiet hc (effect_quiet he rfl) ?_
    rw [ho]
    cases x <;> rfl
  | detach =>
    cases hn
    refine ha.owner_quiet hc (effect_quiet he rfl) ?_
    rw [ho]
    rcases x with e | u <;> rfl
  | detachWarn e => cases hn; exact ha.owner_quiet hc (effect_quiet he rfl) (by rw [ho]; rfl)
  | check =>
    cases hn
    cases he
    have hd : ∀ pc : Drop.Pc, (Owner.dropping joined pc : Owner V).tenure.Slot (some id ∈ t)
        th.shared.object.detached th.routine →
        Accounted (some id ∈ t) { th with owner := .dropping joined pc } :=
      fun pc hw => of_accepted hc ha.ended ha.seen hw
    by_cases hx : th.shared.object.state = .terminated
    · have h := hd .unregister ⟨hslot.1, ha.ended.mp hx, hslot.2⟩
      simpa [CellAction.perform, hx] using h
    · have hn : th.routine.ended = false := Bool.eq_false_iff.mpr fun h => hx (ha.ended.mpr h)
      have hf : th.routine.finished ≠ true := fun h => nomatch hn.symm.trans (finished_ended h)
      have h := hd .done ⟨hslot.1, fun _ => hslot.2.resolve_right hf, fun h => absurd h hf⟩
      simpa [CellAction.perform, hx] using h
  | unregister =>
    cases hn
    obtain ⟨rfl, hno, -⟩ := unregister_clears hs he
    have hd : ∀ pc : Drop.Pc, (Owner.dropping joined pc : Owner V).tenure = .left →
        Accounted (some id ∈ t') { th with owner := .dropping joined pc } := fun pc hp =>
      of_accepted hc ha.ended ha.seen (by
        rw [hp]
        exact ⟨hslot.1, fun h => (nomatch hslot.2.1.symm.trans h), fun _ => hno⟩)
    rcases x with e | u
    · by_cases hb : e = .notFound
      · simpa [hb] using hd .done rfl
      · simpa [hb] using hd (.unregisterWarn e) rfl
    · exact hd .done rfl
  | unregisterWarn e => cases hn; exact ha.owner_quiet hc (effect_quiet he rfl) (by rw [ho]; rfl)
  | done => cases hn

theorem creator_quiet {pc : Create.Pc} (ha : Accounted (some id ∈ t) th)
    (hq : Quiet t th.shared t' s') (hp : pc.stage = th.creation.stage) :
    Accounted (some id ∈ t') { th with creation := pc, shared := s' } := by
  rw [hq.table]
  refine ⟨hq.ended.trans ha.ended, fun h => hq.detached.trans (ha.seen h),
    fun h => ha.unaccepted (hp ▸ h), fun h => hq.detached.trans (ha.early (hp ▸ h)), fun h => ?_⟩
  have hw := ha.accepted (hp ▸ h)
  simpa only [hq.detached] using hw

theorem creator {r : Create.Request} {a : Action V} {resume : a.Answer → Create.Pc} {x : a.Answer}
    (ha : Accounted (some id ∈ t) th) (hn : Create.next r th.creation = .act a resume)
    (he : effect o id a (t, th.shared) = some (x, t', s')) :
    Accounted (some id ∈ t') { th with creation := resume x, shared := s' } := by
  cases hp : th.creation with
  | register =>
    rw [hp] at hn
    cases hn
    have hno := ha.unaccepted (by rw [hp]; exact nofun)
    have hd := ha.early (by rw [hp]; rfl)
    obtain ⟨rfl, ⟨e, rfl, rfl⟩ | ⟨rfl, hr⟩⟩ := effect_register he
    · exact ⟨ha.ended, ha.seen, fun _ => hno, nofun, nofun⟩
    · have hm : some id ∈ t' := (Table.mem_register hr).mpr (.inr rfl)
      refine of_accepted rfl ha.ended ha.seen ?_
      cases ho : th.owner with
      | rest => exact ⟨hm, hd⟩
      | _ =>
        rw [ho] at hno
        cases hno.2
  | disown e =>
    rw [hp] at hn
    cases hn
    cases he
    have hno := ha.unaccepted (by rw [hp]; exact nofun)
    exact ⟨ha.ended, fun _ => rfl, fun _ => hno, nofun, nofun⟩
  | spawn =>
    rw [hp] at hn
    cases hn
    refine ha.creator_quiet (effect_quiet he rfl) ?_
    rw [hp]
    rcases x with e | b <;> rfl
  | detachLook e =>
    rw [hp] at hn
    cases hn
    refine ha.creator_quiet (effect_quiet he rfl) ?_
    rw [hp]
    cases x <;> rfl
  | detachCall e =>
    rw [hp] at hn
    cases hn
    refine ha.creator_quiet (effect_quiet he rfl) ?_
    rw [hp]
    rcases x with e | u <;> rfl
  | done a =>
    rw [hp] at hn
    cases hn
  | spawnWarn e =>
    rw [hp] at hn
    cases hn
    have hq := effect_quiet he rfl
    have hno := ha.unaccepted (by rw [hp]; exact nofun)
    rw [hq.table]
    exact ⟨hq.ended.trans ha.ended, fun h => hq.detached.trans (ha.seen h), fun _ => hno, nofun,
      nofun⟩
  | _ =>
    rw [hp] at hn
    cases hn
    exact ha.creator_quiet (effect_quiet he rfl) (by rw [hp]; rfl)

theorem control {c c' : Control} {cs : List Control} (ha : Accounted (some id ∈ t) th)
    (h : c.act? o id (t, th.shared) = some (c', t', s')) :
    Accounted (some id ∈ t') { th with controls := cs, shared := s' } := by
  have hq := control_quiet h
  rw [hq.table]
  refine ⟨hq.ended.trans ha.ended, fun h => hq.detached.trans (ha.seen h), ha.unaccepted,
    fun h => hq.detached.trans (ha.early h), fun h => ?_⟩
  have hw := ha.accepted h
  simpa only [hq.detached] using hw

theorem accepted_of_owner {slot : Prop} (ha : Accounted slot th) (hr : th.owner.atRest = false) :
    th.creation.stage = .accepted := by
  by_contra hn
  exact absurd ((ha.unaccepted hn).2.symm.trans hr) (by decide)

theorem change_owner {slot : Prop} {w : Owner V} (ha : Accounted slot th)
    (hc : th.creation.stage = .accepted) (hw : w.tenure = th.owner.tenure) :
    Accounted slot { th with owner := w } :=
  of_accepted hc ha.ended ha.seen (by
    have h := ha.accepted hc
    rwa [← hw] at h)

end Accounted

end SyncCore.Manager

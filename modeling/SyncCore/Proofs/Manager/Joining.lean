import SyncCore.Proofs.Manager.History

/-!
# Joins and the return slot

The slot is written by the routine before the thread becomes Terminated, and
taken by a join that has read Terminated. Where the routine is and where the
join is tell what the history of the thread holds so far.
-/

set_option autoImplicit false

namespace SyncCore.Manager

variable {V : Type} {reliable : Prop}

def Routine.Pc.Ran (k : History V) : Routine.Pc V → Prop
  | .gate => k.endings = [] ∧ k.writes = []
  | .wait => k.endings = [] ∧ k.writes = []
  | .begin => k.endings = [] ∧ k.writes = []
  | .body => k.endings = [] ∧ k.writes = []
  | .put v => k.endings = [some v] ∧ k.writes = []
  | _ => ∃ e, k.endings = [e] ∧ k.writes = e.toList

theorem Routine.Pc.Ran.of_ended {pc : Routine.Pc V} {k : History V} (h : pc.Ran k)
    (he : pc.ended = true) : ∃ e, k.endings = [e] ∧ k.writes = e.toList := by
  cases pc <;> first | exact h | cases he

def Untaken (k : History V) (s : Shared V) : Prop := s.object.returned = k.writes.head?

structure First (k : History V) (s : Shared V) : Prop where
  asking : k.asking = true
  joined : s.joined = true
  unanswered : k.own = []

/-- What is known when a join is at a program point, and what more on a
reliable backend. -/
def Join.Pc.Knows (reliable : Prop) (k : History V) (s : Shared V) (ended : Bool) :
    Join.Pc V → Prop
  | .mark => k.asking = true ∧ s.joined = false ∧ k.own = []
  | .waitWarn _ => First k s ∧ (reliable → k.endings = [none])
  | .confirm => First k s ∧ Untaken k s ∧ (reliable → ended = true)
  | .take => First k s ∧ Untaken k s ∧ ended = true
  | .announce v => First k s ∧ k.endings = [v]
  | .done r =>
    (k.asking = false ∧ r = .error .invalidParameter ∧ (s.joined = true ↔ k.own ≠ [])) ∨
    (k.asking = true ∧ s.joined = true ∧ k.own ≠ [] ∧ r = .error .threadJoinFailed) ∨
    (First k s ∧ k.Fits reliable r)
  | _ => First k s ∧ Untaken k s

def Owner.Knows (reliable : Prop) (k : History V) (s : Shared V) (ended : Bool) :
    Owner V → Prop
  | .joining _ pc => pc.Knows reliable k s ended
  | _ => s.joined = true ↔ k.own ≠ []

structure Told (reliable : Prop) (th : Thread V) (k : History V) : Prop where
  ran : th.routine.Ran k
  untaken : th.shared.joined = false → Untaken k th.shared
  owner : th.owner.Knows reliable k th.shared th.routine.ended
  honest : k.Honest reliable

/-! ## Actions that the history does not note -/

def Action.plain : Action V → Bool
  | .cell (.putValue _) => false
  | .cell .takeValue => false
  | .markJoined => false
  | .runBody => false
  | _ => true

theorem Thread.action_plain {id : ObjectId} {th : Thread V} {p : Party} {a : Action V}
    (h : th.action? id p = some a) (hp : p ≠ .routine)
    (ho : p = .owner → ∀ native pc, th.owner ≠ .joining native pc) : a.plain = true := by
  cases p with
  | creator =>
    simp only [action?] at h
    cases hc : th.creation <;> rw [hc] at h <;> cases h <;> rfl
  | routine => exact absurd rfl hp
  | owner =>
    simp only [action?] at h
    cases hw : th.owner with
    | joining native pc => exact absurd hw (ho rfl native pc)
    | destroying joined pc => rw [hw] at h; cases pc <;> cases h <;> rfl
    | dropping joined pc => rw [hw] at h; cases pc <;> cases h <;> rfl
    | _ =>
      rw [hw] at h
      cases h
  | control i =>
    obtain ⟨c, -, hc⟩ := Option.bind_eq_some_iff.mp h
    cases c with
    | hold d pc => cases d <;> cases pc <;> cases hc <;> rfl
    | priority q native pc => cases pc <;> cases hc <;> rfl

section Effects

variable {o : Oracle V} {id : ObjectId} {t t' : Table} {s s' : Shared V} {k : History V}

theorem History.action_plain {a : Action V} (h : a.plain = true) : k.action o a = k := by
  cases a with
  | cell c => cases c <;> first | rfl | cases h
  | runBody => cases h
  | _ => rfl

theorem effect_plain {a : Action V} {x : a.Answer} (h : effect o id a (t, s) = some (x, t', s'))
    (hp : a.plain = true) :
    s'.joined = s.joined ∧ s'.object.returned = s.object.returned := by
  cases a with
  | cell c =>
    cases h
    cases c with
    | exchangeState e d =>
      by_cases hw : s.object.stateWord = e.word <;>
        simp [CellAction.perform, ThreadObject.exchangeState, hw]
    | putValue v => cases hp
    | takeValue => cases hp
    | _ => exact ⟨rfl, rfl⟩
  | table c =>
    cases c with
    | register => rw [(effect_register h).1]; exact ⟨rfl, rfl⟩
    | unregister => rw [(effect_unregister h).1]; exact ⟨rfl, rfl⟩
    | find => cases h
  | markJoined => cases hp
  | runBody => cases hp
  | _ =>
    cases h
    exact ⟨rfl, rfl⟩

end Effects

/-! ## What a step of each party preserves -/

theorem Owner.Knows.routine {w : Owner V} {k k' : History V} {s s' : Shared V} {b b' : Bool}
    (h : w.Knows reliable k s b) (hu : Untaken k s → Untaken k' s') (hj : s'.joined = s.joined)
    (hb : b = true → b' = true) (he : ∀ e, k.endings = [e] → k'.endings = [e])
    (ha : k'.asking = k.asking) (ho : k'.own = k.own) : w.Knows reliable k' s' b' := by
  have hf : First k s → First k' s' := fun h =>
    ⟨ha.trans h.asking, hj.trans h.joined, ho.trans h.unanswered⟩
  cases w with
  | joining native pc =>
    cases pc with
    | mark => exact ⟨ha.trans h.1, hj.trans h.2.1, ho.trans h.2.2⟩
    | take => exact ⟨hf h.1, hu h.2.1, hb h.2.2⟩
    | announce v => exact ⟨hf h.1, he v h.2⟩
    | waitWarn e => exact ⟨hf h.1, fun hr => he none (h.2 hr)⟩
    | confirm => exact ⟨hf h.1, hu h.2.1, fun hr => hb (h.2.2 hr)⟩
    | done r =>
      simp only [Knows, Join.Pc.Knows, ha, ho, hj] at h ⊢
      exact h.imp_right (Or.imp_right fun h => ⟨hf h.1, h.2.mono he⟩)
    | _ => exact ⟨hf h.1, hu h.2⟩
  | _ =>
    simp only [Knows, ho, hj] at h ⊢
    exact h

theorem Owner.knows_apart {w : Owner V} {k : History V} {s : Shared V} {b : Bool}
    (h : ∀ native pc, w ≠ .joining native pc) :
    w.Knows reliable k s b ↔ (s.joined = true ↔ k.own ≠ []) := by
  cases w with
  | joining native pc => exact absurd rfl (h native pc)
  | _ => rfl

def Owner.waiting : Owner V → Bool
  | .joining _ .wait => true
  | _ => false

/-- The backend's own join answers after the routine has ended, and with an
error only if the function unwound. -/
def Oracle.Reliable (o : Oracle V) (th : Thread V) (k : History V) : Prop :=
  th.owner.waiting = true →
    th.routine.ended = true ∧ (Except.isOk (o.backend .join) = true ∨ k.endings = [none])

instance [DecidableEq V] (o : Oracle V) (th : Thread V) (k : History V) :
    Decidable (o.Reliable th k) :=
  inferInstanceAs (Decidable (_ → _ ∧ (_ ∨ _)))

namespace Told

variable {o : Oracle V} {id : ObjectId} {t t' : Table} {s' : Shared V} {th th' : Thread V}
  {k : History V}

theorem new (r : Create.Request) : Told reliable (.new r : Thread V) .empty where
  ran := ⟨rfl, rfl⟩
  untaken := fun _ => rfl
  owner := ⟨nofun, fun h => absurd rfl h⟩
  honest := .empty

theorem of_plain (hk : Told reliable th k) (hr : th'.routine = th.routine)
    (ho : th'.owner = th.owner)
    (hs : th'.shared.joined = th.shared.joined ∧
      th'.shared.object.returned = th.shared.object.returned) : Told reliable th' k where
  ran := hr ▸ hk.ran
  untaken := fun hj => hs.2.trans (hk.untaken (hs.1.symm.trans hj))
  owner := by
    rw [hr, ho]
    exact hk.owner.routine (fun hu => hs.2.trans hu) hs.1 id (fun _ h => h) rfl rfl
  honest := hk.honest

theorem of_routine {k' : History V} {r : Routine.Pc V} (hk : Told reliable th k) (hr : r.Ran k')
    (hu : Untaken k th.shared → Untaken k' s') (hj : s'.joined = th.shared.joined)
    (hb : th.routine.ended = true → r.ended = true)
    (he : ∀ e, k.endings = [e] → k'.endings = [e]) (ha : k'.asking = k.asking)
    (hans : k'.answers = k.answers) : Told reliable { th with routine := r, shared := s' } k' := by
  have ho : k'.own = k.own := by rw [History.own, hans, History.own]
  exact {
    ran := hr
    untaken := fun h => hu (hk.untaken (hj.symm.trans h))
    owner := hk.owner.routine hu hj hb he ha ho
    honest := hk.honest.mono he hans }

theorem routine_plain {a : Action V} {x : a.Answer} {r : Routine.Pc V}
    (hk : Told reliable th k) (he : effect o id a (t, th.shared) = some (x, t', s'))
    (hp : a.plain = true) (hr : r.Ran k) (hb : th.routine.ended = true → r.ended = true) :
    Told reliable { th with routine := r, shared := s' } (k.action o a) := by
  obtain ⟨hj, hs⟩ := effect_plain he hp
  rw [History.action_plain hp]
  exact hk.of_routine hr (fun hu => hs.trans hu) hj hb (fun _ h => h) rfl rfl

theorem routine {a : Action V} {resume : a.Answer → Routine.Pc V} {x : a.Answer}
    (hk : Told reliable th k) (hn : Routine.next id th.routine = .act a resume)
    (he : effect o id a (t, th.shared) = some (x, t', s')) :
    Told reliable { th with routine := resume x, shared := s' } (k.action o a) := by
  have hran := hk.ran
  cases hr : th.routine with
  | gate =>
    rw [hr] at hn hran
    cases hn
    cases x <;> exact hk.routine_plain he rfl hran (by rw [hr]; exact nofun)
  | body =>
    rw [hr] at hn hran
    cases hn
    cases he
    obtain ⟨he, hw⟩ := hran
    have hend : (k.action o .runBody).endings = [o.body] := by simp [History.action, he]
    refine hk.of_routine ?_ (fun hu => hu) rfl (by rw [hr]; exact nofun) (by simp [he]) rfl rfl
    cases hb : o.body with
    | none => exact ⟨none, hb ▸ hend, hw⟩
    | some v => exact ⟨hb ▸ hend, hw⟩
  | put v =>
    rw [hr] at hn hran
    cases hn
    cases he
    obtain ⟨he, hw⟩ := hran
    have hput : (k.action o (.cell (.putValue v))).writes = [v] := by simp [History.action, hw]
    refine hk.of_routine ⟨some v, he, hput⟩ (fun _ => ?_) rfl (by rw [hr]; exact nofun)
      (fun _ h => h) rfl rfl
    rw [Untaken, hput]
    rfl
  | terminate =>
    rw [hr] at hn hran
    cases hn
    exact hk.routine_plain he rfl hran fun _ => rfl
  | look =>
    rw [hr] at hn hran
    cases hn
    cases x <;> exact hk.routine_plain he rfl hran fun _ => rfl
  | unregister =>
    rw [hr] at hn hran
    cases hn
    rcases x with e | u
    · by_cases hb : e = .notFound
      · simpa [hb] using hk.routine_plain (r := .done) he rfl hran fun _ => rfl
      · simpa [hb] using hk.routine_plain (r := .unregisterWarn e) he rfl hran fun _ => rfl
    · exact hk.routine_plain he rfl hran fun _ => rfl
  | unregisterWarn e =>
    rw [hr] at hn hran
    cases hn
    exact hk.routine_plain he rfl hran fun _ => rfl
  | done =>
    rw [hr] at hn
    cases hn
  | _ =>
    rw [hr] at hn hran
    cases hn
    exact hk.routine_plain he rfl hran (by rw [hr]; exact nofun)

theorem of_join {native : Bool} {pc : Join.Pc V} (hk : Told reliable th k)
    (hu : s'.joined = false → Untaken k s') (hp : pc.Knows reliable k s' th.routine.ended) :
    Told reliable { th with owner := .joining native pc, shared := s' } k where
  ran := hk.ran
  untaken := hu
  owner := hp
  honest := hk.honest

theorem join_plain {native : Bool} {pc : Join.Pc V} {a : Action V} {x : a.Answer}
    (hk : Told reliable th k) (he : effect o id a (t, th.shared) = some (x, t', s'))
    (hp : a.plain = true)
    (hpc : (First k th.shared → First k s') → (Untaken k th.shared → Untaken k s') →
      pc.Knows reliable k s' th.routine.ended) :
    Told reliable { th with owner := .joining native pc, shared := s' } (k.action o a) := by
  obtain ⟨hj, hs⟩ := effect_plain he hp
  rw [History.action_plain hp]
  exact hk.of_join (fun h => hs.trans (hk.untaken (hj.symm.trans h)))
    (hpc (fun h => ⟨h.asking, hj.trans h.joined, h.unanswered⟩) fun hu => hs.trans hu)

/-- Once the routine has ended, what is in the slot is what the function returned. -/
theorem slot_eq (hk : Told reliable th k) (hu : Untaken k th.shared)
    (he : th.routine.ended = true) :
    k.endings = [th.shared.object.returned] := by
  obtain ⟨e, hend, hw⟩ := hk.ran.of_ended he
  rw [hend, hu, hw]
  cases e <;> rfl

theorem joining {native : Bool} {pc : Join.Pc V} {a : Action V} {resume : a.Answer → Join.Pc V}
    {x : a.Answer} (hk : Told reliable th k) (ho : th.owner = .joining native pc)
    (hs : th.shared.object.state = .terminated ↔ th.routine.ended = true)
    (hb : th.shared.object.binding.isSome = true)
    (hr : reliable → o.Reliable th k)
    (hn : Join.next id native pc = .act a resume)
    (he : effect o id a (t, th.shared) = some (x, t', s')) :
    Told reliable { th with owner := .joining native (resume x), shared := s' } (k.action o a) := by
  have hown := hk.owner
  rw [ho] at hown
  cases pc with
  | mark =>
    cases hn
    cases he
    obtain ⟨ha, hj, hown⟩ := hown
    have hf : First k { th.shared with joined := true } := ⟨ha, rfl, hown⟩
    refine hk.of_join nofun ?_
    cases native <;> exact ⟨hf, hk.untaken hj⟩
  | look =>
    cases hn
    have hx : x = true := by
      cases he
      exact hb
    subst hx
    exact hk.join_plain he rfl fun hf hu => ⟨hf hown.1, hu hown.2⟩
  | wait =>
    cases hn
    have hx : x = o.backend .join := by
      cases he
      rfl
    have hw : reliable → th.routine.ended = true ∧ (Except.isOk x = true ∨ k.endings = [none]) :=
      fun h => hx ▸ hr h (by rw [ho]; rfl)
    refine hk.join_plain he rfl fun hf hu => ?_
    rcases x with e | u
    · exact ⟨hf hown.1, fun h => (hw h).2.resolve_left nofun⟩
    · exact ⟨hf hown.1, hu hown.2, fun h => (hw h).1⟩
  | waitWarn e =>
    cases hn
    exact hk.join_plain he rfl fun hf _ => .inr (.inr ⟨hf hown.1, History.fits_refusal hown.2⟩)
  | poll =>
    cases hn
    have hx : x = th.shared.object.state := by
      cases he
      rfl
    refine hk.join_plain he rfl fun hf hu => ?_
    dsimp only
    split
    next ht => exact ⟨hf hown.1, hu hown.2, fun _ => hs.mp (hx.symm.trans ht)⟩
    next => exact ⟨hf hown.1, hu hown.2⟩
  | sleep =>
    cases hn
    refine hk.join_plain he rfl fun hf hu => ?_
    rcases x with e | u <;> exact ⟨hf hown.1, hu hown.2⟩
  | yield =>
    cases hn
    exact hk.join_plain he rfl fun hf hu => ⟨hf hown.1, hu hown.2⟩
  | confirm =>
    cases hn
    have hx : x = th.shared.object.state := by
      cases he
      rfl
    refine hk.join_plain he rfl fun hf hu => ?_
    dsimp only
    split
    next ht => exact ⟨hf hown.1, hu hown.2.1, hs.mp (hx.symm.trans ht)⟩
    next ht =>
      refine .inr (.inr ⟨hf hown.1, History.fits_refusal fun h => ?_⟩)
      exact absurd (hx.trans (hs.mpr (hown.2.2 h))) ht
  | take =>
    cases hn
    cases he
    have hf : First k { th.shared with object := { th.shared.object with returned := none } } :=
      ⟨hown.1.asking, hown.1.joined, hown.1.unanswered⟩
    exact hk.of_join (fun h => nomatch h.symm.trans hown.1.joined)
      ⟨hf, hk.slot_eq hown.2.1 hown.2.2⟩
  | announce v =>
    cases hn
    have hv : k.Fits reliable (verdict v) := History.fits_verdict hown.2
    refine hk.join_plain he rfl fun hf _ => ?_
    cases v <;> exact .inr (.inr ⟨hf hown.1, hv⟩)
  | done r => cases hn

theorem leaving {w : Owner V} {a : Action V} {x : a.Answer} (hk : Told reliable th k)
    (he : effect o id a (t, th.shared) = some (x, t', s')) (hp : a.plain = true)
    (ho : ∀ native pc, th.owner ≠ .joining native pc) (hw : ∀ native pc, w ≠ .joining native pc) :
    Told reliable { th with owner := w, shared := s' } (k.action o a) := by
  obtain ⟨hj, hs⟩ := effect_plain he hp
  have hown := (Owner.knows_apart ho).mp hk.owner
  rw [History.action_plain hp]
  exact {
    ran := hk.ran
    untaken := fun h => hs.trans (hk.untaken (hj.symm.trans h))
    owner := (Owner.knows_apart hw).mpr (by rwa [hj])
    honest := hk.honest }

theorem act {p : Party} (hk : Told reliable th k)
    (hs : th.shared.object.state = .terminated ↔ th.routine.ended = true)
    (hb : th.owner.atRest = false → th.shared.object.binding.isSome = true)
    (hr : reliable → p = .owner → o.Reliable th k)
    (h : th.act? o id t p = some (t', th')) :
    Told reliable th' ((th.action? id p).elim k (k.action o)) := by
  obtain ⟨a, x, ha, he⟩ := Thread.act_action h
  rw [ha, Option.elim_some]
  obtain ⟨_, _, _, s', rfl, -, -, rfl⟩ | ⟨b, r, y, s', rfl, hn, hx, rfl⟩ |
    ⟨w, s', rfl, hw, rfl⟩ | ⟨i, c, c', s', rfl, -, -, rfl⟩ := Thread.act_cases h
  · have hp := Thread.action_plain ha (by simp) (by simp)
    rw [History.action_plain hp]
    exact hk.of_plain rfl rfl (effect_plain he hp)
  · cases (congrArg Next.action? hn).symm.trans ha
    exact hk.routine hn hx
  · obtain ⟨native, pc, b, r, y, ho, hn, hx, rfl⟩ | ⟨j, pc, b, r, y, ho, -, -, rfl⟩ |
      ⟨j, pc, b, r, y, ho, -, -, rfl⟩ := Owner.act_cases hw
    · rw [Thread.action?, ho] at ha
      cases (congrArg Next.action? hn).symm.trans ha
      exact hk.joining ho hs (hb (by rw [ho]; rfl)) (fun h => hr h rfl) hn hx
    · have hne : ∀ native pc, th.owner ≠ .joining native pc := by simp [ho]
      exact hk.leaving he (Thread.action_plain ha (by simp) fun _ => hne) hne (by simp)
    · have hne : ∀ native pc, th.owner ≠ .joining native pc := by simp [ho]
      exact hk.leaving he (Thread.action_plain ha (by simp) fun _ => hne) hne (by simp)
  · have hp := Thread.action_plain ha (by simp) (by simp)
    rw [History.action_plain hp]
    exact hk.of_plain rfl rfl (effect_plain he hp)

theorem begin {c : HandleCall} (hk : Told reliable th k) (h : th.begin? c = some th') :
    Told reliable th' (k.begin c) := by
  obtain ⟨-, hr, ⟨d, hd, rfl⟩ | ⟨-, w, hw, rfl⟩⟩ := Thread.begin_cases h
  · cases c with
    | hold f own supported => exact hk.of_plain rfl rfl ⟨rfl, rfl⟩
    | priority q native own => exact hk.of_plain rfl rfl ⟨rfl, rfl⟩
    | _ => cases hd
  · have hown : th.shared.joined = true ↔ k.own ≠ [] := by
      cases ho : th.owner with
      | rest =>
        have := hk.owner
        rwa [ho] at this
      | _ =>
        rw [ho] at hr
        cases hr
    have hb : ∀ (w : Owner V) (b : Bool),
        w.Knows reliable { k with asking := b } th.shared th.routine.ended →
        Told reliable { th with owner := w } { k with asking := b } := fun w b hw =>
      ⟨hk.ran, hk.untaken, hw, hk.honest.mono (fun _ h => h) rfl⟩
    cases c with
    | join own native =>
      cases hw
      refine hb _ own ?_
      cases own with
      | false => exact .inl ⟨rfl, rfl, hown⟩
      | true =>
        cases hj : th.shared.joined with
        | true => exact .inr (.inl ⟨rfl, hj, hown.mp hj, rfl⟩)
        | false => exact ⟨rfl, hj, by_contra fun hn => nomatch hj.symm.trans (hown.mpr hn)⟩
    | destroy own => cases hw; exact hb _ k.asking hown
    | drop => cases hw; exact hb _ k.asking hown
    | hold f own supported => cases hw
    | priority q native own => cases hw

theorem answer {native : Bool} {r : Outcome V} (hk : Told reliable th k)
    (ho : th.owner = .joining native (.done r)) :
    Told reliable { th with owner := .rest } (k.answer r) := by
  have hown := hk.owner
  rw [ho] at hown
  have hn := k.own_answer r
  obtain ⟨ha, rfl, hj⟩ | ⟨ha, hj, hne, rfl⟩ | ⟨hf, hv⟩ := hown
  · rw [ha, if_neg nofun] at hn
    refine ⟨hk.ran, hk.untaken, ?_, hk.honest.answer_foreign ha⟩
    exact (Owner.knows_apart (w := .rest) nofun).mpr (by rwa [hn])
  · rw [ha, if_pos rfl] at hn
    refine ⟨hk.ran, hk.untaken, ?_, hk.honest.answer_later ha hne⟩
    exact (Owner.knows_apart (w := .rest) nofun).mpr (iff_of_true hj (by simp [hn]))
  · rw [hf.asking, if_pos rfl] at hn
    refine ⟨hk.ran, hk.untaken, ?_, hk.honest.answer_first hf.asking hf.unanswered hv⟩
    exact (Owner.knows_apart (w := .rest) nofun).mpr (iff_of_true hf.joined (by simp [hn]))

theorem finish {p : Party} (hk : Told reliable th k) (h : th.finish? p = some th') :
    Told reliable th' (k.thread id th (.finish id p)) := by
  cases p with
  | creator => cases h
  | routine => cases h
  | owner =>
    obtain ⟨w, hw, rfl⟩ := Option.map_eq_some_iff.mp h
    obtain ⟨n, r, ho, rfl⟩ | ⟨j, u, ho, rfl⟩ | ⟨j, e, ho, rfl⟩ | ⟨j, ho, rfl⟩ :=
      Owner.finish_cases hw
    · rw [History.thread, ho]
      exact hk.answer ho
    all_goals
      have hown := hk.owner
      rw [ho] at hown
      rw [History.thread, ho]
      exact ⟨hk.ran, hk.untaken, hown, hk.honest⟩
  | control i =>
    rw [Thread.finish_control h]
    exact hk.of_plain rfl rfl ⟨rfl, rfl⟩

end Told

end SyncCore.Manager

import SyncCore.Proofs.Manager.Holding
import SyncCore.Proofs.Manager.Tasks

/-!
# Runs without a call

A call on a thread is compared with its absence: the run in which it is made
is followed by the run in which it is not, and everybody else does the same in
both. While a call is under way only the start routine acts on the same thread
besides. Of what a call changes the routine reads only its gate and the mark of
a detached thread.
-/

set_option autoImplicit false

namespace SyncCore.Manager

variable {V : Type}

/-! ## Steps of the routine -/

def Action.after : Action V → ThreadObject V → ThreadObject V
  | .cell c, b => (c.perform b).2
  | _, b => b

def Routine.afterBody : Option V → Routine.Pc V
  | some v => .put v
  | none => .terminate

/-- What an action of a routine does, and that it does the same where gate and
mark are the same. -/
theorem Setting.effect_routine {e : Setting V} {id : ObjectId} {t t' : Table} {s s' : Shared V}
    {pc : Routine.Pc V} {a : Action V} {r : a.Answer → Routine.Pc V} {x : a.Answer}
    (hn : Routine.next id pc = .act a r) (he : e.effect id a (t, s) = some (x, t', s')) :
    s' = { s with object := a.after s.object } ∧
      ∀ u : Shared V, u.object.gateOpen = s.object.gateOpen →
        u.object.detached = s.object.detached →
        e.effect id a (t, u) = some (x, t', { u with object := a.after u.object }) := by
  cases pc with
  | gate =>
    cases hn
    cases he
    exact ⟨rfl, fun u hg _ => congrArg (fun b => some (b, t, u)) hg⟩
  | look =>
    cases hn
    cases he
    exact ⟨rfl, fun u _ hd => congrArg (fun b => some (b, t, u)) hd⟩
  | unregister =>
    cases hn
    obtain ⟨q, hq, hp⟩ := Option.map_eq_some_iff.mp he
    cases hp
    exact ⟨rfl, fun u _ _ => Option.map_eq_some_iff.mpr ⟨q, hq, rfl⟩⟩
  | done => cases hn
  | _ =>
    cases hn
    cases he
    exact ⟨rfl, fun _ _ _ => rfl⟩

theorem Routine.after_binding {id : ObjectId} {pc : Routine.Pc V} {a : Action V}
    {r : a.Answer → Routine.Pc V} (hn : Routine.next id pc = .act a r) (b : ThreadObject V) :
    (a.after b).binding = b.binding := by
  cases pc <;> cases hn <;> rfl

namespace Thread

def onward (th : Thread V) (a : Action V) (pc : Routine.Pc V) : Thread V :=
  { th with routine := pc, shared := { th.shared with object := a.after th.shared.object } }

structure Alike (th th' : Thread V) : Prop where
  routine : th'.routine = th.routine
  gate : th'.shared.object.gateOpen = th.shared.object.gateOpen
  detached : th'.shared.object.detached = th.shared.object.detached

variable {e : Setting V} {id : ObjectId} {t t' : Table} {th th' th₁ : Thread V}

theorem perform_routine (h : th.perform? (e.effect id) id t .routine = some (t', th₁)) :
    ∃ (a : Action V) (r : a.Answer → Routine.Pc V) (x : a.Answer),
      Routine.next id th.routine = .act a r ∧ th₁ = th.onward a (r x) ∧
      (th.routine = .body → r x = Routine.afterBody e.body) ∧
      ∀ th', th.Alike th' →
        th'.perform? (e.effect id) id t .routine = some (t', th'.onward a (r x)) := by
  obtain ⟨a, x, s', -, he, hp⟩ := perform_cases h
  obtain ⟨r, hc, -⟩ | ⟨r, -, hn, rfl⟩ | ⟨r, hc, -⟩ | ⟨k, c, hc, -⟩ := hp
  · cases hc
  · obtain ⟨rfl, hu⟩ := Setting.effect_routine hn he
    refine ⟨a, r, x, hn, rfl, fun hb => ?_, fun th' ha => ?_⟩
    · rw [hb] at hn
      cases hn
      cases he
      cases e.body <;> rfl
    · have hx := hu th'.shared ha.gate ha.detached
      simp only [perform?, next, ha.routine, hn, Next.onto, hx]
      rfl
  · cases hc
  · cases hc

theorem keeps_routine (e : Setting V) (id : ObjectId) (th : Thread V) (k : Option Mock.Task) :
    th.keeps e id .routine k = k := by
  cases ha : th.action? id .routine with
  | none => simp only [keeps, ha]
  | some a =>
    rw [keeps_eq ha]
    simp only [action?] at ha
    cases hr : th.routine <;> rw [hr] at ha <;> cases ha <;> rfl

theorem Alike.onward {a : Action V} {r : a.Answer → Routine.Pc V} (h : th.Alike th')
    (hn : Routine.next id th.routine = .act a r) (pc : Routine.Pc V) :
    (th.onward a pc).Alike (th'.onward a pc) := by
  cases hp : th.routine <;> rw [hp] at hn <;> cases hn <;> exact ⟨rfl, h.gate, h.detached⟩

end Thread

/-! ## How far a thread has come -/

structure Thread.Timely (th : Thread V) : Prop where
  fresh : th.routine.starting = true → th.shared.object.state = .created
  ended : th.shared.object.state = .terminated ↔ th.routine.ended = true

section Effects

variable {e : Setting V} {id : ObjectId} {t t' : Table} {s s' : Shared V}

theorem Setting.effect_still {a : Action V} {x : a.Answer}
    (h : e.effect id a (t, s) = some (x, t', s')) (ha : a.still = true) :
    s'.object.state = s.object.state := by
  by_cases hc : ∃ c, a = .table c
  · obtain ⟨c, rfl⟩ := hc
    cases effect_apart h
    rfl
  · rw [effect_plain fun c hac => hc ⟨c, hac⟩] at h
    exact (Manager.effect_still h ha).state

end Effects

theorem Thread.action_still {id : ObjectId} {th : Thread V} {p : Party} {a : Action V}
    (h : th.action? id p = some a) (hp : p = .creator ∨ p = .owner) : a.still = true := by
  obtain rfl | rfl := hp
  · simp only [action?] at h
    cases hc : th.creation <;> rw [hc] at h <;> cases h <;> rfl
  · simp only [action?] at h
    cases hw : th.owner with
    | joining native pc => rw [hw] at h; cases pc <;> cases h <;> rfl
    | destroying joined pc => rw [hw] at h; cases pc <;> cases h <;> rfl
    | dropping joined pc => rw [hw] at h; cases pc <;> cases h <;> rfl
    | _ =>
      rw [hw] at h
      cases h

namespace Thread.Timely

variable {e : Setting V} {id : ObjectId} {t t' : Table} {s' : Shared V} {th th' : Thread V}
  {p : Party}

theorem new (r : Create.Request) : (Thread.new r : Thread V).Timely where
  fresh := fun _ => rfl
  ended := ⟨nofun, nofun⟩

theorem of_same (ht : th.Timely) (hr : th'.routine = th.routine)
    (hs : th'.shared.object.state = th.shared.object.state) : th'.Timely where
  fresh := fun h => hs.trans (ht.fresh (hr ▸ h))
  ended := by rw [hs, hr]; exact ht.ended

theorem onward {a : Action V} {r : a.Answer → Routine.Pc V} {x : a.Answer} (ht : th.Timely)
    (hn : Routine.next id th.routine = .act a r) : (th.onward a (r x)).Timely := by
  have of_still : (a.after th.shared.object).state = th.shared.object.state →
      ((r x).starting = true → th.routine.starting = true) → (r x).ended = th.routine.ended →
      (th.onward a (r x)).Timely := fun hs hf hd => by
    refine ⟨fun h => hs.trans (ht.fresh (hf h)), ?_⟩
    simp only [Thread.onward, hs, hd]
    exact ht.ended
  cases hp : th.routine with
  | begin =>
    rw [hp] at hn
    cases hn
    exact ⟨nofun, nofun, nofun⟩
  | terminate =>
    rw [hp] at hn
    cases hn
    exact ⟨nofun, fun _ => rfl, fun _ => ThreadState.ofWord_word .terminated⟩
  | done =>
    rw [hp] at hn
    cases hn
  | gate =>
    rw [hp] at hn of_still
    cases hn
    exact of_still rfl (fun _ => rfl) (by cases x <;> rfl)
  | body =>
    rw [hp] at hn of_still
    cases hn
    refine of_still rfl ?_ (by cases x <;> rfl)
    cases x <;> exact nofun
  | look =>
    rw [hp] at hn of_still
    cases hn
    refine of_still rfl ?_ (by cases x <;> rfl)
    cases x <;> exact nofun
  | unregister =>
    rw [hp] at hn of_still
    cases hn
    rcases x with k | u
    · by_cases hk : k = .notFound <;> simp only [hk, if_true, if_false] at of_still ⊢ <;>
        exact of_still rfl nofun rfl
    · exact of_still rfl nofun rfl
  | _ =>
    rw [hp] at hn of_still
    cases hn
    first | exact of_still rfl (fun _ => rfl) rfl | exact of_still rfl nofun rfl

theorem exchanged {f g : ThreadState} (ht : th.Timely) (hr : th'.routine = th.routine)
    (hf : f = .running ∨ f = .suspended) (hd : g = .running ∨ g = .suspended)
    (hs : th'.shared.object = (th.shared.object.exchangeState f g).2) : th'.Timely := by
  by_cases hb : th.shared.object.state = f
  · have hl : f ≠ .terminated := by rintro rfl; rcases hf with h | h <;> cases h
    rw [exchange_found hb hl] at hs
    have hs : th'.shared.object.state = g := by rw [hs]; exact ThreadState.ofWord_word g
    refine ⟨fun h => ?_, fun h => ?_, fun h => ?_⟩
    · have hc := hb.symm.trans (ht.fresh (hr ▸ h))
      rcases hf with hf | hf <;> cases hf.symm.trans hc
    · have hc := hs.symm.trans h
      rcases hd with hd | hd <;> cases hd.symm.trans hc
    · exact absurd (hb.symm.trans (ht.ended.mpr (hr ▸ h))) hl
  · rw [exchange_missed hb] at hs
    exact ht.of_same hr (congrArg ThreadObject.state hs)

theorem perform (ht : th.Timely) (h : th.perform? (e.effect id) id t p = some (t', th')) :
    th'.Timely := by
  obtain ⟨a, x, s', ha, he, hp⟩ := perform_cases h
  obtain ⟨r, rfl, -, rfl⟩ | ⟨r, rfl, hn, rfl⟩ | ⟨r, rfl, -, rfl⟩ | ⟨i, d, rfl, -⟩ := hp
  · exact ht.of_same rfl (Setting.effect_still he (action_still ha (.inl rfl)))
  · obtain ⟨rfl, -⟩ := Setting.effect_routine hn he
    exact ht.onward hn
  · exact ht.of_same rfl (Setting.effect_still he (action_still ha (.inr rfl)))
  · obtain ⟨c, a, r, x, s', hi, hn, ha, he, rfl⟩ := perform_control h
    cases c with
    | priority q native pc =>
      refine ht.of_same rfl (Setting.effect_still he ?_)
      obtain ⟨f, hf, rfl⟩ := Next.onto_act hn
      cases pc <;> cases hf <;> rfl
    | hold d pc =>
      obtain ⟨f, hf, rfl⟩ := Next.onto_act hn
      have ho : d.origin = .running ∨ d.origin = .suspended := by cases d <;> simp [Hold.origin]
      have hd : d.target = .running ∨ d.target = .suspended := by cases d <;> simp [Hold.target]
      cases pc with
      | exchange =>
        cases hf
        cases he
        exact ht.exchanged rfl ho hd rfl
      | undo k =>
        cases hf
        cases he
        exact ht.exchanged rfl hd ho rfl
      | call => cases d <;> cases hf <;> cases he <;> exact ht.of_same rfl rfl
      | look => cases hf; cases he; exact ht.of_same rfl rfl
      | warn k => cases hf; cases he; exact ht.of_same rfl rfl
      | done q => cases hf

theorem begin {c : HandleCall} (ht : th.Timely) (h : th.begin? c = some th') : th'.Timely := by
  obtain ⟨-, -, ⟨k, -, rfl⟩ | ⟨-, w, -, rfl⟩⟩ := begin_cases h <;> exact ht.of_same rfl rfl

theorem finish (ht : th.Timely) (h : th.finish? p = some th') : th'.Timely := by
  obtain ⟨w, -, rfl⟩ | ⟨k, c, -, -, rfl⟩ := finish_cases h <;> exact ht.of_same rfl rfl

end Thread.Timely

/-! ## A call and its absence -/

def Move.isBy (id : ObjectId) (p : Party) : Move V → Bool
  | .act q r _ => q = id && r = p
  | _ => false

def Move.within (id : ObjectId) : Move V → Bool
  | .begin q _ => q ≠ id
  | .finish q _ => q ≠ id
  | _ => true

structure Thread.Alone (p : Party) (th : Thread V) : Prop where
  creation : th.creation = .done (.ok ())
  call : (p = .owner ∧ th.controls = []) ∨
    (p = .control 0 ∧ th.owner = .rest ∧ ∃ c, th.controls = [c])

theorem Thread.Alone.party {e : Setting V} {id : ObjectId} {t t' : Table} {th th' : Thread V}
    {p q : Party} (ha : th.Alone p) (h : th.perform? (e.effect id) id t q = some (t', th')) :
    q = p ∨ q = .routine := by
  obtain ⟨a, x, s', hx, -, -⟩ := perform_cases h
  cases q with
  | routine => exact .inr rfl
  | creator =>
    simp only [action?, ha.creation] at hx
    cases hx
  | owner =>
    obtain ⟨rfl, -⟩ | ⟨-, ho, -⟩ := ha.call
    · exact .inl rfl
    · simp only [action?, ho] at hx
      cases hx
  | control i =>
    obtain ⟨c, hc, -⟩ := Option.bind_eq_some_iff.mp hx
    obtain ⟨-, hn⟩ | ⟨rfl, -, d, hd⟩ := ha.call
    · rw [hn] at hc
      cases hc
    · rw [hd] at hc
      cases i with
      | zero => exact .inl rfl
      | succ i => cases hc

section Runs

variable {id : ObjectId} {p : Party} {P : Setting V → Party → Thread V → Prop}
  {R : Thread V → Option Mock.Task → Thread V → Option Mock.Task → Prop}

/-- How a thread on which a party has a call under way, and its record, are
related to the thread without this call. The actions of the party, as far as
they are of the given kind, keep the relation, and so does the routine. -/
structure Separable (id : ObjectId) (p : Party) (P : Setting V → Party → Thread V → Prop)
    (R : Thread V → Option Mock.Task → Thread V → Option Mock.Task → Prop) : Prop where
  alone : ∀ {th k th' k'}, R th k th' k' → th.Alone p
  alike : ∀ {th k th' k'}, R th k th' k' → th.Alike th'
  own : ∀ {th k th' k' e t t' th₁}, R th k th' k' → P e p th →
    th.perform? (e.effect id) id t p = some (t', th₁) →
    t' = t ∧ R th₁ (th.keeps e id p k) th' k'
  routine : ∀ {th k th' k'} {e : Setting V} {a : Action V} {r : a.Answer → Routine.Pc V}
    {x : a.Answer}, R th k th' k' → P e .routine th → Routine.next id th.routine = .act a r →
    (th.routine = .body → r x = Routine.afterBody e.body) →
    R (th.onward a (r x)) k (th'.onward a (r x)) k'

namespace World

structure Without (id : ObjectId)
    (R : Thread V → Option Mock.Task → Thread V → Option Mock.Task → Prop)
    (s r : World V × Ledger) : Prop where
  table : r.1.table = s.1.table
  apart : ∀ q, q ≠ id → r.1.threads q = s.1.threads q ∧ r.2 q = s.2 q
  thread : ∃ th th', s.1.threads id = some th ∧ r.1.threads id = some th' ∧
    R th (s.2 id) th' (r.2 id)

def Acts (id : ObjectId) (P : Setting V → Party → Thread V → Prop) (s : World V × Ledger) :
    Move V → World V × Ledger → Prop
  | .act q p e, _ => q = id → ∀ th ∈ s.1.threads id, P e p th
  | _, _ => True

instance [∀ e p th, Decidable (P e p th)] (s : World V × Ledger) (c : Move V)
    (t : World V × Ledger) : Decidable (Acts id P s c t) := by
  unfold Acts
  split <;> infer_instance

theorem acts_trivial (cs : List (Move V)) (s : World V × Ledger) :
    Throughout kept? (Acts id fun _ _ _ => True) cs s :=
  throughout_of_mem (fun c _ _ _ => by cases c <;> simp [Acts]) s

theorem move_congr {w v u : World V} {c : Move V} (h : move? c w = some u)
    (ht : v.table = w.table) (hc : v.threads c.target = w.threads c.target) :
    ∃ th t, u = w.put c.target th t ∧ move? c v = some (v.put c.target th t) := by
  cases c with
  | create r =>
    dsimp only [Move.target] at hc
    simp only [move?, hc] at h ⊢
    cases hr : w.threads r.id with
    | some th =>
      rw [hr] at h
      cases h
    | none =>
      rw [hr] at h
      cases h
      exact ⟨_, _, rfl, by rw [ht]; rfl⟩
  | begin q k =>
    dsimp only [Move.target] at hc
    simp only [move?, hc] at h ⊢
    obtain ⟨th, hq, h⟩ := Option.bind_eq_some_iff.mp h
    obtain ⟨th', hb, rfl⟩ := Option.map_eq_some_iff.mp h
    exact ⟨th', w.table, rfl, by simp [hq, hb, ht, Move.target]⟩
  | act q p e =>
    dsimp only [Move.target] at hc
    simp only [move?, hc, ht] at h ⊢
    obtain ⟨th, hq, h⟩ := Option.bind_eq_some_iff.mp h
    obtain ⟨⟨t, th'⟩, ha, rfl⟩ := Option.map_eq_some_iff.mp h
    exact ⟨th', t, rfl, by simp [hq, ha, Move.target]⟩
  | finish q p =>
    dsimp only [Move.target] at hc
    simp only [move?, hc] at h ⊢
    obtain ⟨th, hq, h⟩ := Option.bind_eq_some_iff.mp h
    obtain ⟨th', hf, rfl⟩ := Option.map_eq_some_iff.mp h
    exact ⟨th', w.table, rfl, by simp [hq, hf, ht, Move.target]⟩

theorem Without.other {s t r : World V × Ledger} {c : Move V} (hw : Without id R s r)
    (h : kept? c s = some t) (hc : c.target ≠ id) :
    ∃ u, kept? c r = some u ∧ Without id R t u := by
  obtain ⟨hm, hl⟩ := noted_step h
  obtain ⟨th, tb, hu, hr⟩ := move_congr hm hw.table (hw.apart _ hc).1
  refine ⟨(r.1.put c.target th tb, r.1.enter c r.2), by simp [kept?, noted, hr], ?_⟩
  obtain ⟨th₀, th', hs, ht, hR⟩ := hw.thread
  refine ⟨by rw [hu]; rfl, fun q hq => ⟨?_, ?_⟩, th₀, th', ?_, ?_, ?_⟩
  · rw [hu]
    by_cases he : q = c.target
    · subst he
      rw [threads_put, threads_put]
    · rw [threads_put_of_ne _ he, threads_put_of_ne _ he]
      exact (hw.apart q hq).1
  · rw [hl]
    exact enter_congr (hw.apart _ hc).1 (hw.apart q hq).2
  · rw [hu, threads_put_of_ne _ (Ne.symm hc)]
    exact hs
  · rw [threads_put_of_ne _ (Ne.symm hc)]
    exact ht
  · show R th₀ (t.2 id) th' (r.1.enter c r.2 id)
    rw [hl, enter_of_ne hc, enter_of_ne hc]
    exact hR

theorem Without.skip (hR : Separable id p P R) {s t r : World V × Ledger} {c : Move V}
    (hw : Without id R s r) (h : kept? c s = some t) (hp : Acts id P s c t)
    (hc : c.isBy id p = true) : Without id R t r := by
  cases c with
  | act q p' e =>
    simp only [Move.isBy, Bool.and_eq_true, decide_eq_true_eq] at hc
    obtain ⟨rfl, rfl⟩ := hc
    obtain ⟨hm, hl⟩ := noted_step h
    obtain ⟨th₀, th', hs, ht, hr⟩ := hw.thread
    obtain ⟨th, hq, hm⟩ := Option.bind_eq_some_iff.mp hm
    obtain ⟨⟨tb, th₁⟩, ha, hu⟩ := Option.map_eq_some_iff.mp hm
    cases hs.symm.trans hq
    obtain ⟨rfl, hr⟩ := hR.own hr (hp rfl _ hs) ha
    rw [← enter_act hs, ← hl] at hr
    refine ⟨by rw [← hu]; exact hw.table, fun i hi => ?_, th₁, th', by rw [← hu, threads_put], ht,
      hr⟩
    rw [← hu, hl, threads_put_of_ne _ hi, enter_of_ne (Ne.symm hi)]
    exact hw.apart i hi
  | _ => cases hc

theorem Without.routine (hR : Separable id p P R) {s t r : World V × Ledger} {e : Setting V}
    (hw : Without id R s r) (h : kept? (.act id .routine e) s = some t)
    (hp : Acts id P s (.act id .routine e) t) :
    ∃ u, kept? (.act id .routine e) r = some u ∧ Without id R t u := by
  obtain ⟨hm, hl⟩ := noted_step h
  obtain ⟨th, th', hs, ht, hr⟩ := hw.thread
  obtain ⟨th₀, hq, hm⟩ := Option.bind_eq_some_iff.mp hm
  obtain ⟨⟨tb, th₁⟩, ha, hu⟩ := Option.map_eq_some_iff.mp hm
  cases hs.symm.trans hq
  obtain ⟨a, f, x, hn, rfl, hb, hx⟩ := Thread.perform_routine ha
  have hv := hx th' (hR.alike hr)
  rw [← hw.table] at hv
  refine ⟨(r.1.put id (th'.onward a (f x)) tb, r.1.enter (.act id .routine e) r.2), ?_, ?_⟩
  · simp [kept?, noted, move?, ht, hv]
  refine ⟨by rw [← hu]; rfl, fun i hi => ⟨?_, ?_⟩, _, _, by rw [← hu, threads_put],
    threads_put .., ?_⟩
  · rw [← hu, threads_put_of_ne _ hi, threads_put_of_ne _ hi]
    exact (hw.apart i hi).1
  · show r.1.enter (.act id .routine e) r.2 i = t.2 i
    rw [hl, enter_of_ne (Ne.symm hi), enter_of_ne (Ne.symm hi)]
    exact (hw.apart i hi).2
  · show R _ (t.2 id) _ (r.1.enter (.act id .routine e) r.2 id)
    rw [hl, enter_act hs, enter_act ht, Thread.keeps_routine, Thread.keeps_routine]
    exact hR.routine hr (hp rfl _ hs) hn hb

theorem alone_step {s t : World V × Ledger} {c : Move V} {th : Thread V} (ha : th.Alone p)
    (hs : s.1.threads id = some th) (hc : c.within id = true) (h : kept? c s = some t) :
    (c.target ≠ id ∧ t.1.threads id = some th) ∨
      ∃ q e tb th', c = .act id q e ∧ (q = p ∨ q = .routine) ∧
        th.perform? (e.effect id) id s.1.table q = some (tb, th') ∧
        t.1.threads id = some th' := by
  obtain ⟨he, hne⟩ | ⟨rfl, th', tb, hm, hu⟩ := move_target (noted_step h).1 id
  · exact .inl ⟨hne, he.trans hs⟩
  · rw [hs] at hm
    cases hm with
    | begin => exact absurd rfl (of_decide_eq_true hc)
    | finish => exact absurd rfl (of_decide_eq_true hc)
    | act hx => exact .inr ⟨_, _, tb, th', rfl, ha.party hx, hx, by rw [hu]; exact threads_put ..⟩

/-- A run in which a call is under way is followed by the run in which everybody
else does the same and the call is not made. -/
theorem run_without (hR : Separable id p P R) {cs : List (Move V)} {s t r : World V × Ledger}
    (h : run? kept? cs s = some t) (hd : ∀ c ∈ cs, c.within id = true)
    (hp : Throughout kept? (Acts id P) cs s) (hw : Without id R s r) :
    ∃ u, run? kept? (cs.filter fun c => !c.isBy id p) r = some u ∧ Without id R t u := by
  have hp := throughout_and (throughout_of_mem (P := fun _ c _ => c.within id = true)
    (fun c hc _ _ => hd c hc) s) hp
  refine run_filter (fun s c t r hw h hp hc => hw.skip hR h hp.2 (by simpa using hc))
    (fun s c t r hw h hp hc => ?_) h hp hw
  obtain ⟨th, th', hs, -, hr⟩ := hw.thread
  obtain ⟨hne, -⟩ | ⟨q, e, tb, th₁, rfl, rfl | rfl, -, -⟩ := alone_step (hR.alone hr) hs hp.1 h
  · exact hw.other h hne
  · simp [Move.isBy] at hc
  · exact hw.routine hR h hp.2

theorem run_begins {call : HandleCall} {cs : List (Move V)} {s t : World V × Ledger}
    (h : run? kept? (.begin id call :: cs) s = some t) :
    ∃ th₀ th, s.1.threads id = some th₀ ∧ th₀.begin? call = some th ∧
      kept? (.begin id call) s = some (s.1.put id th s.1.table, s.2) ∧
      run? kept? cs (s.1.put id th s.1.table, s.2) = some t := by
  obtain ⟨s₁, hs, h⟩ := run_cons h
  obtain ⟨hm, hl⟩ := noted_step hs
  obtain ⟨th₀, ht, hm⟩ := Option.bind_eq_some_iff.mp hm
  obtain ⟨th, hb, hu⟩ := Option.map_eq_some_iff.mp hm
  have hs₁ : s₁ = (s.1.put id th s.1.table, s.2) := Prod.ext hu.symm hl
  exact ⟨th₀, th, ht, hb, hs₁ ▸ hs, hs₁ ▸ h⟩

theorem run_begun (hR : Separable id p P R) {cs : List (Move V)} {s t : World V × Ledger}
    {th₀ th : Thread V} (h : run? kept? cs (s.1.put id th s.1.table, s.2) = some t)
    (hd : ∀ c ∈ cs, c.within id = true)
    (hp : Throughout kept? (Acts id P) cs (s.1.put id th s.1.table, s.2))
    (ht : s.1.threads id = some th₀) (hr : R th (s.2 id) th₀ (s.2 id)) :
    ∃ u, run? kept? (cs.filter fun c => !c.isBy id p) s = some u ∧ Without id R t u :=
  run_without hR h hd hp
    ⟨rfl, fun _ hq => ⟨(threads_put_of_ne _ hq ..).symm, rfl⟩, th, th₀, threads_put .., ht, hr⟩

/-- The return of the call, where both threads then are what the same change
makes of the thread without the call. -/
theorem Without.returned {s r : World V × Ledger} {th : Thread V} {g : Thread V → Thread V}
    (hw : Without id R s r) (hs : s.1.threads id = some th)
    (hf : ∀ th' k', R th (s.2 id) th' k' → th.finish? p = some (g th') ∧ k' = s.2 id) :
    ∃ th', r.1.threads id = some th' ∧ R th (s.2 id) th' (r.2 id) ∧
      kept? (.finish id p) s = some (r.1.put id (g th') r.1.table, r.2) := by
  obtain ⟨th₀, th', ht, hr, hR⟩ := hw.thread
  cases hs.symm.trans ht
  obtain ⟨hg, hk⟩ := hf th' _ hR
  have hl : s.2 = r.2 := by
    funext q
    by_cases hq : q = id
    · subst hq
      exact hk.symm
    · exact (hw.apart q hq).2.symm
  have hu : s.1.put id (g th') s.1.table = r.1.put id (g th') r.1.table := by
    rw [hw.table, put, put]
    congr 1
    funext q
    by_cases hq : q = id
    · subst hq
      rw [Function.update_self, Function.update_self]
    · rw [Function.update_of_ne hq, Function.update_of_ne hq, (hw.apart q hq).1]
  exact ⟨th', hr, hR, by simp [kept?, noted, move?, hs, hg, enter, hu, hl]⟩

theorem moves_keep_throughout {I : Thread V → Prop} (new : ∀ r, I (.new r))
    (begin : ∀ {th th' c}, I th → th.begin? c = some th' → I th')
    (perform : ∀ {e : Setting V} {t t' th th' p}, P e p th → I th →
      th.perform? (e.effect id) id t p = some (t', th') → I th')
    (finish : ∀ {th th' p}, I th → th.finish? p = some th' → I th')
    {capacity : Nat} {cs : List (Move V)} {s : World V × Ledger} {th : Thread V}
    (h : run? kept? cs (unkept capacity) = some s)
    (hp : Throughout kept? (Acts id P) cs (unkept capacity)) (ht : s.1.threads id = some th) :
    I th := by
  refine run_keeps_throughout (I := fun s => ∀ th, s.1.threads id = some th → I th)
    (fun s c t hs hst hp th hq => ?_) h hp (fun _ h => nomatch h) th ht
  obtain ⟨he, -⟩ | ⟨rfl, th₁, tb, hm, hu⟩ := move_target (noted_step hst).1 id
  · exact hs th (he ▸ hq)
  · rw [hu, threads_put] at hq
    cases hq
    generalize ho : s.1.threads c.target = o at hm
    cases hm with
    | create => exact new _
    | begin hb => exact begin (hs _ ho) hb
    | act ha => exact perform (hp rfl _ ho) (hs _ ho) ha
    | finish hf => exact finish (hs _ ho) hf

theorem moves_keep {I : Thread V → Prop} (new : ∀ r, I (.new r))
    (begin : ∀ {th th' c}, I th → th.begin? c = some th' → I th')
    (perform : ∀ {e : Setting V} {id t t' th th' p}, I th →
      th.perform? (e.effect id) id t p = some (t', th') → I th')
    (finish : ∀ {th th' p}, I th → th.finish? p = some th' → I th')
    {capacity : Nat} {cs : List (Move V)} {s : World V × Ledger} {th : Thread V}
    (h : run? kept? cs (unkept capacity) = some s) (ht : s.1.threads id = some th) : I th :=
  moves_keep_throughout (P := fun _ _ _ => True) new begin (fun _ => perform) finish h
    (acts_trivial ..) ht

end World

end Runs

end SyncCore.Manager

import SyncCore.Proofs.Mutex.Teardown

/-!
# The raw lock after its destruction

Once a destroy has been told that the raw lock is destroyed, the status turns
every new call away until an init succeeds. A lock call checks the status
before it calls the raw lock, and a teardown that comes between the two goes
unnoticed: such a call is late, and it still takes the destroyed raw lock and
gives it back. Nobody else touches it, a late call ends refused, and it makes
two raw calls at most.
-/

set_option autoImplicit false

namespace SyncCore.Mutex

variable {Hint R : Type} {n : Nat} {call : RawCalls Hint R} {held : R → Bool}

def Action.grips : Action → Bool
  | .raw .lock => true
  | .raw .tryLock => true
  | .raw .unlock => true
  | _ => false

def Pc.grips (pc : Pc) : Bool :=
  match next pc with
  | .act a _ => a.grips
  | .done _ => false

/-- How often a call that has passed its entry check goes on to take the raw
lock or give it back, if it is to be refused. -/
def Pc.debt : Pc → Nat
  | .acquireRaw _ => 2
  | .acquireConfirm => 1
  | .acquireGiveBack => 1
  | _ => 0

/-- Whether the call is between its entry check and its answer. -/
def Call.late (c : Call) : Nat := (decide (c.pc.debt ≠ 0)).toNat

def Call.debt (c : Call) : Nat := c.pc.debt

theorem debt_le_late (c : Call) : c.debt ≤ 2 * c.late := by
  obtain ⟨op, pc, k⟩ := c
  cases pc <;> simp [Call.debt, Call.late, Pc.debt]

/-! ## Notes on the raw lock -/

structure Afterlife where
  /-- The late calls when it was destroyed. -/
  late : Nat
  /-- How often it has been taken or given back since. -/
  used : Nat
  deriving DecidableEq

/-- The clients, and notes on the raw lock from its destruction until an init succeeds. -/
structure Site (R : Type) (n : Nat) where
  scene : Scene R n
  afterlife : Option Afterlife

namespace Site

def initial (m : State R) : Site R n := ⟨.initial m, none⟩

def Razes (c c' : Call) : Prop := c.pc = .destroyRaw ∧ c'.pc = succeeded

def Renews (c c' : Call) : Prop := c.op = .init ∧ c'.pc = succeeded

instance (c c' : Call) : Decidable (Razes c c') := inferInstanceAs (Decidable (_ ∧ _))

instance (c c' : Call) : Decidable (Renews c c') := inferInstanceAs (Decidable (_ ∧ _))

def after (life : Option Afterlife) (t : Scene R n) (c c' : Call) : Option Afterlife :=
  if Razes c c' then some ⟨t.sum Call.late, 0⟩
  else if Renews c c' then none
  else life.map fun a => { a with used := a.used + c.pc.grips.toNat }

def step? (call : RawCalls Hint R) (ch : Choice Hint n) (s : Site R n) : Option (Site R n) :=
  (Scene.step? call ch s.scene).map fun t =>
    ⟨t, match moved s.scene ch t with
      | none => s.afterlife
      | some (c, c') => after s.afterlife t c c'⟩

def On (P : Scene R n → Choice Hint n → Scene R n → Prop) (s : Site R n) (ch : Choice Hint n)
    (t : Site R n) : Prop :=
  P s.scene ch t.scene

def Untouched (s : Site R n) (ch : Choice Hint n) (t : Site R n) : Prop :=
  match moved s.scene ch t.scene with
  | none => True
  | some (c, _) => s.afterlife.isSome → c.pc.grips = false

def Punctual (s : Site R n) (ch : Choice Hint n) (t : Site R n) : Prop :=
  match moved s.scene ch t.scene with
  | none => True
  | some (c, c') => Razes c c' → t.scene.sum Call.late = 0

/-- While the raw lock is destroyed only late calls take it or give it back,
no call comes to be late, and no call obtains the mutex. -/
def Receding (s : Site R n) (ch : Choice Hint n) (t : Site R n) : Prop :=
  match moved s.scene ch t.scene with
  | none => True
  | some (c, c') => s.afterlife.isSome →
      (c.pc.grips = true → c.pc.debt ≠ 0) ∧ c'.pc.debt ≤ c.pc.debt ∧
        (c.op.role = .acquiring → c'.pc ≠ succeeded)

instance (P : Scene R n → Choice Hint n → Scene R n → Prop) [∀ s ch t, Decidable (P s ch t)]
    (s : Site R n) (ch : Choice Hint n) (t : Site R n) : Decidable (On P s ch t) :=
  inferInstanceAs (Decidable (P _ _ _))

instance (s : Site R n) (ch : Choice Hint n) (t : Site R n) : Decidable (Untouched s ch t) := by
  unfold Untouched
  cases moved s.scene ch t.scene <;> infer_instance

instance (s : Site R n) (ch : Choice Hint n) (t : Site R n) : Decidable (Punctual s ch t) := by
  unfold Punctual
  cases moved s.scene ch t.scene <;> infer_instance

variable {s t : Site R n}

theorem step_scene {ch : Choice Hint n} (h : step? call ch s = some t) :
    Scene.step? call ch s.scene = some t.scene := by
  obtain ⟨u, hu, rfl⟩ := Option.map_eq_some_iff.mp h
  exact hu

theorem step_quiet {ch : Choice Hint n} (h : step? call ch s = some t)
    (hm : moved s.scene ch t.scene = none) : t.afterlife = s.afterlife := by
  obtain ⟨u, hu, rfl⟩ := Option.map_eq_some_iff.mp h
  simp only at hm
  simp only [hm]

theorem step_moved {ch : Choice Hint n} {c c' : Call} (h : step? call ch s = some t)
    (hm : moved s.scene ch t.scene = some (c, c')) :
    t.afterlife = after s.afterlife t.scene c c' := by
  obtain ⟨u, hu, rfl⟩ := Option.map_eq_some_iff.mp h
  simp only at hm
  simp only [hm]

end Site

/-! ## What a late call still does -/

section Points

variable {hint : Hint} {pc : Pc} {a : Action} {resume : a.Answer → Pc} {x : a.Answer}
  {m m' : State R}

/-- In a destroyed mutex a call pays off its debt, one raw call at a time, and
a call that has none touches the raw lock only in a teardown or to release it. -/
theorem debt_act (hn : next pc = .act a resume) (he : effect call hint a m = some (x, m'))
    (hd : m.status = .destroyed) (ho : pc.phase = .outside) (hu : pc ≠ .unlockRaw) :
    (resume x).debt + pc.grips.toNat ≤ pc.debt := by
  obtain ⟨σ, raw⟩ := m
  cases hd
  cases pc with
  | initFrom e => cases hn; cases he; cases e <;> exact Nat.le_refl _
  | destroyClaim | initReport | acquireCheck waits | acquireConfirm | unlockCheck | lookCheck
  | initializedCheck =>
    cases hn
    cases he
    exact Nat.le_refl _
  | acquireRaw waits =>
    cases waits <;> cases hn <;> rcases x with e | u <;>
      first | exact Nat.le_succ 1 | exact Nat.le_refl 2
  | acquireGiveBack => cases hn; rcases x with e | u <;> exact Nat.le_refl _
  | lookRaw => cases hn; exact Nat.le_refl _
  | unlockRaw => exact absurd rfl hu
  | done r => cases hn
  | _ => cases ho

theorem stays_destroyed (hn : next pc = .act a resume) (he : effect call hint a m = some (x, m'))
    (hd : m.status = .destroyed) (ho : pc.phase = .outside) :
    (resume x).phase = .outside ∧
      (m'.status = .destroyed ∨ pc = .initFrom .destroyed ∧ resume x = succeeded) := by
  have ht := turn_act hn he
  rw [hd] at ht
  generalize m'.status = σ at ht ⊢
  generalize resume x = pc' at ht ⊢
  cases ht with
  | stay hp => exact ⟨hp.trans ho, .inl rfl⟩
  | init => exact ⟨rfl, .inr ⟨rfl, rfl⟩⟩
  | mark => cases ho
  | leave hp => exact ⟨rfl, .inl rfl⟩
  | abandon => cases ho
  | revive => cases ho

end Points

/-! ## The invariant -/

theorem sum_debt_le (s : Scene R n) : s.sum Call.debt ≤ 2 * s.sum Call.late := by
  rw [Nat.two_mul, ← Scene.sum_add]
  exact Scene.sum_le fun c => Nat.two_mul c.late ▸ debt_le_late c

structure Bygone (held : R → Bool) (s : Site R n) : Prop where
  sound : Sound held s.scene
  orderly : Orderly s.scene
  gone : ∀ a, s.afterlife = some a →
    s.scene.mutex.status = .destroyed ∧ s.scene.sum (Call.isAt .marked) = 0
  paid : ∀ a, s.afterlife = some a → a.used + s.scene.sum Call.debt ≤ 2 * a.late

namespace Bygone

variable {s t : Site R n}

theorem initial {m : State R} (hf : held m.raw = false)
    (hm : m.status = .ready ∨ m.status = .uninitialized) :
    Bygone held (Site.initial m : Site R n) where
  sound := .initial hf
  orderly := .initial hm
  gone := nofun
  paid := nofun

theorem outside (hs : Bygone held s) {a : Afterlife} (ha : s.afterlife = some a) {i : Fin n}
    {c : Call} (hc : c ∈ (s.scene.clients i).calls) : c.pc.phase = .outside := by
  obtain ⟨hd, hz⟩ := hs.gone a ha
  have hb := Scene.le_sum (Call.isAt .claimed) hc
  have hk := Scene.le_sum (Call.isAt .marked) hc
  have hsettled := hs.orderly.settled
  rw [hd] at hsettled
  cases hp : c.pc.phase with
  | outside => rfl
  | claimed =>
    simp only [Call.isAt, hp, decide_true, Bool.toNat_true] at hb
    exact absurd hsettled.1 (by omega)
  | marked =>
    simp only [Call.isAt, hp, decide_true, Bool.toNat_true] at hk
    omega

theorem not_releasing (hs : Bygone held s) {a : Afterlife} (ha : s.afterlife = some a) {i : Fin n}
    {c : Call} (hc : c ∈ (s.scene.clients i).calls) : c.pc ≠ .unlockRaw :=
  hs.sound.not_releasing (by rw [(hs.gone a ha).1]; rfl) hc

theorem quiet (hs : Bygone held s) (ht : Sound held t.scene) (hr : Orderly t.scene)
    (hl : t.afterlife = s.afterlife) (hm : t.scene.mutex = s.scene.mutex)
    (hsum : ∀ f, (∀ op, f (.begin op) = 0) → t.scene.sum f ≤ s.scene.sum f) : Bygone held t where
  sound := ht
  orderly := hr
  gone := by
    intro a ha
    obtain ⟨hd, hz⟩ := hs.gone a (hl ▸ ha)
    have hk := hsum (Call.isAt .marked) fun op => by cases op <;> rfl
    exact ⟨hm ▸ hd, Nat.le_zero.mp (hz ▸ hk)⟩
  paid := by
    intro a ha
    have hp := hs.paid a (hl ▸ ha)
    have hd := hsum Call.debt fun op => by cases op <;> rfl
    omega

theorem begin {i : Fin n} {op : Op} (hs : Bygone held s)
    (h : Site.step? call (.begin i op) s = some t)
    (ho : Owned s.scene (.begin i op : Choice Hint n) t.scene) : Bygone held t := by
  have hst := Site.step_scene h
  have hm := Scene.step_begin hst
  refine hs.quiet (hs.sound.begin ho hst) (hs.orderly.begin hst) (Site.step_quiet h rfl)
    (by rw [hm]; rfl) fun f hf => ?_
  rw [hm, Scene.sum_push, hf]
  exact Nat.le_refl _

theorem finish {i : Fin n} (hs : Bygone held s) (h : Site.step? call (.finish i) s = some t) :
    Bygone held t := by
  have hst := Site.step_scene h
  obtain ⟨c, cs, hc, he, hm⟩ := Scene.step_finish hst
  refine hs.quiet (hs.sound.finish hst) (hs.orderly.finish hst) (Site.step_quiet h rfl)
    (by rw [hm]; rfl) fun f _ => ?_
  have := Scene.sum_pop f hc ((s.scene.clients i).holds + c.gain) s.scene.mutex
  rw [hm]
  omega

theorem later (hs : Bygone held s) {l : Afterlife} (hl : s.afterlife = some l) {i : Fin n}
    {hint : Hint} {c c' : Call} {cs : List Call} {m : State R}
    (hc : (s.scene.clients i).calls = c :: cs) (ha : c.act? call hint s.scene.mutex = some (c', m))
    (hnew : ¬Site.Renews c c') {t : Scene R n}
    (ht : t = s.scene.put i ⟨(s.scene.clients i).holds, c' :: cs⟩ m) :
    (t.mutex.status = .destroyed ∧ t.sum (Call.isAt .marked) = 0) ∧
      l.used + c.pc.grips.toNat + t.sum Call.debt ≤ 2 * l.late ∧
      c'.debt + c.pc.grips.toNat ≤ c.debt := by
  have hm : c ∈ (s.scene.clients i).calls := hc ▸ List.mem_cons_self
  have ho := hs.outside hl hm
  have hu := hs.not_releasing hl hm
  obtain ⟨hd, hz⟩ := hs.gone l hl
  have hp := hs.paid l hl
  have hv : c.op.visits c.pc = true := hs.orderly.placed i c hm
  have hsum := fun f => Scene.sum_replace (s := s.scene) f hc (s.scene.clients i).holds c' m
  obtain ⟨a, resume, x, hn, he, rfl⟩ := Call.act_cases ha
  have hdebt : (resume x).debt + c.pc.grips.toNat ≤ c.pc.debt := debt_act hn he hd ho hu
  obtain ⟨ho', hst⟩ := stays_destroyed hn he hd ho
  subst ht
  refine ⟨⟨?_, ?_⟩, ?_, hdebt⟩
  · rcases hst with hst | ⟨hpc, hsuc⟩
    · exact hst
    · rw [hpc] at hv
      exact absurd ⟨(visits_initFrom hv).1, hsuc⟩ hnew
  · have hk := hsum (Call.isAt .marked)
    simp only [Call.isAt, ho, ho'] at hk hz
    simpa [Call.isAt, hz] using hk
  · have hk := hsum Call.debt
    simp only [Call.debt] at hk hp ⊢
    omega

theorem razed (hs : Bygone held s) {i : Fin n} {hint : Hint} {c c' : Call} {cs : List Call}
    {m : State R} (hc : (s.scene.clients i).calls = c :: cs)
    (ha : c.act? call hint s.scene.mutex = some (c', m)) (hr : Site.Razes c c') :
    m.status = .destroyed ∧
      (s.scene.put i ⟨(s.scene.clients i).holds, c' :: cs⟩ m).sum (Call.isAt .marked) = 0 := by
  have hm : c ∈ (s.scene.clients i).calls := hc ▸ List.mem_cons_self
  have hp : c.pc.phase = .marked := by rw [hr.1]; rfl
  have hd := hs.orderly.destroyed_of_marked hm hp
  have hsettled := hs.orderly.settled
  have hk := Scene.sum_replace (s := s.scene) (Call.isAt .marked) hc (s.scene.clients i).holds c' m
  have h1 : Call.isAt .marked c = 1 := by simp [Call.isAt, hp]
  have h0 : Call.isAt .marked c' = 0 := by simp [Call.isAt, hr.2, succeeded, Pc.phase]
  rw [hd] at hsettled
  have hle := hsettled.2
  refine ⟨?_, by omega⟩
  obtain ⟨a, resume, x, hn, he, rfl⟩ := Call.act_cases ha
  rw [hr.1] at hn
  cases hn
  obtain ⟨r, -, rfl⟩ := effect_raw he
  exact hd

theorem act {i : Fin n} {hint : Hint} (hx : Exclusive call held) (hs : Bygone held s)
    (h : Site.step? call (.act i hint) s = some t)
    (hu : Undisturbed s.scene (.act i hint) t.scene) :
    Bygone held t ∧ Site.Receding s (.act i hint) t := by
  have hst := Site.step_scene h
  have hsound := hs.sound.act hx hst
  have horderly := (hs.orderly.act hst hu).1
  obtain ⟨c, cs, c', m, hc, ha, ht⟩ := Scene.step_act hst
  have hm : c ∈ (s.scene.clients i).calls := hc ▸ List.mem_cons_self
  have hmoved : moved s.scene (.act i hint) t.scene = some (c, c') := ht ▸ moved_act hc _
  have hlife := Site.step_moved h hmoved
  rw [Site.Receding, hmoved]
  constructor
  · by_cases hr : Site.Razes c c'
    · rw [Site.after, if_pos hr] at hlife
      have hz := hs.razed hc ha hr
      rw [show s.scene.put i _ m = t.scene from ht.symm,
        show m = t.scene.mutex by rw [ht]; rfl] at hz
      refine ⟨hsound, horderly, fun a hl => hz, fun a hl => ?_⟩
      cases hlife.symm.trans hl
      exact (Nat.zero_add _).trans_le (sum_debt_le _)
    by_cases hw : Site.Renews c c'
    · rw [Site.after, if_neg hr, if_pos hw] at hlife
      refine ⟨hsound, horderly, fun a hl => ?_, fun a hl => ?_⟩ <;> cases hlife.symm.trans hl
    · rw [Site.after, if_neg hr, if_neg hw] at hlife
      refine ⟨hsound, horderly, fun a hl => ?_, fun a hl => ?_⟩
      · obtain ⟨l, hs', -⟩ := Option.map_eq_some_iff.mp (hlife.symm.trans hl)
        exact (hs.later hs' hc ha hw ht).1
      · obtain ⟨l, hs', rfl⟩ := Option.map_eq_some_iff.mp (hlife.symm.trans hl)
        exact (hs.later hs' hc ha hw ht).2.1
  · intro hsome
    obtain ⟨l, hl⟩ := Option.isSome_iff_exists.mp hsome
    obtain ⟨a, resume, x, hn, he, rfl⟩ := Call.act_cases ha
    have hd := (hs.gone l hl).1
    have hdebt := debt_act hn he hd (hs.outside hl hm) (hs.not_releasing hl hm)
    refine ⟨fun hg => ?_, ?_, fun hr hsuc => ?_⟩
    · rw [hg, Bool.toNat_true] at hdebt
      omega
    · show (resume x).debt ≤ c.pc.debt
      omega
    · have hf := hs.sound.fits i c hm
      rw [Call.Fits, hr] at hf
      have hu := (acquiring_act hx hn he hf (hs.sound.held_of_custody hm)).2.2 hsuc
      rw [hd] at hu
      cases hu

theorem step (hx : Exclusive call held) (hs : Bygone held s) {ch : Choice Hint n}
    (h : Site.step? call ch s = some t) (ho : Owned s.scene ch t.scene)
    (hu : Undisturbed s.scene ch t.scene) : Bygone held t ∧ Site.Receding s ch t := by
  cases ch with
  | begin i op => exact ⟨hs.begin h ho, trivial⟩
  | act i hint => exact hs.act hx h hu
  | finish i => exact ⟨hs.finish h, trivial⟩

theorem untouched (hs : Bygone held s) (hz : ∀ l, s.afterlife = some l → l.late = 0)
    {ch : Choice Hint n} (h : Site.step? call ch s = some t) (hr : Site.Receding s ch t) :
    Site.Untouched s ch t := by
  have hst := Site.step_scene h
  cases ch with
  | begin i op => trivial
  | finish i => trivial
  | act i hint =>
    obtain ⟨c, cs, c', m, hc, -, ht⟩ := Scene.step_act hst
    have hm : c ∈ (s.scene.clients i).calls := hc ▸ List.mem_cons_self
    have hmoved : moved s.scene (.act i hint) t.scene = some (c, c') := ht ▸ moved_act hc _
    rw [Site.Receding, hmoved] at hr
    rw [Site.Untouched, hmoved]
    intro hsome
    obtain ⟨l, hl⟩ := Option.isSome_iff_exists.mp hsome
    have hp := hs.paid l hl
    have hd := Scene.le_sum Call.debt hm
    rw [hz l hl] at hp
    have h0 : c.pc.debt = 0 := by
      simp only [Call.debt] at hd hp
      omega
    exact Bool.eq_false_iff.mpr fun hg => (hr hsome).1 hg h0

end Bygone

theorem punctual_step {s t : Site R n} (hz : ∀ l, s.afterlife = some l → l.late = 0)
    {ch : Choice Hint n} (h : Site.step? call ch s = some t) (hp : Site.Punctual s ch t) :
    ∀ l, t.afterlife = some l → l.late = 0 := by
  rw [Site.Punctual] at hp
  cases hm : moved s.scene ch t.scene with
  | none => rwa [Site.step_quiet h hm]
  | some p =>
    obtain ⟨c, c'⟩ := p
    rw [hm] at hp
    rw [Site.step_moved h hm, Site.after]
    intro l hl
    by_cases hr : Site.Razes c c'
    · rw [if_pos hr] at hl
      cases hl
      exact hp hr
    by_cases hw : Site.Renews c c'
    · rw [if_neg hr, if_pos hw] at hl
      cases hl
    · rw [if_neg hr, if_neg hw] at hl
      obtain ⟨k, hk, rfl⟩ := Option.map_eq_some_iff.mp hl
      exact hz k hk

/-! ## Whole runs -/

/-- In every run of any number of clients that release only what they hold,
over any exclusive raw lock, and with no init between the mark of a destroy
and its return: if no call is late when the raw lock is destroyed, it is not
touched again before an init succeeds. In any case only late calls touch it,
nobody comes to be late or obtains the mutex, and each of the late calls makes
two raw calls at most. -/
theorem late_calls_alone_touch_destroyed_lock (hx : Exclusive call held) {m : State R}
    (hf : held m.raw = false) (hm : m.status = .ready ∨ m.status = .uninitialized)
    {cs : List (Choice Hint n)}
    (ho : Throughout (Site.step? call) (Site.On Owned) cs (Site.initial m))
    (hu : Throughout (Site.step? call) (Site.On Undisturbed) cs (Site.initial m)) :
    (Throughout (Site.step? call) Site.Punctual cs (Site.initial m) →
      Throughout (Site.step? call) Site.Untouched cs (Site.initial m)) ∧
    Throughout (Site.step? call) Site.Receding cs (Site.initial m) ∧
    ∀ s, run? (Site.step? call) cs (Site.initial m) = some s →
      ∀ l, s.afterlife = some l → l.used ≤ 2 * l.late := by
  have hboth := throughout_and ho hu
  refine ⟨fun hp => ?_, ?_, fun s h l hl => ?_⟩
  · refine throughout_of_keeps
      (I := fun s => Bygone held s ∧ ∀ l, s.afterlife = some l → l.late = 0) ?_
      (throughout_and hboth hp) ⟨.initial hf hm, nofun⟩
    intro s ch t ⟨hs, hz⟩ hst ⟨⟨ho, hu⟩, hp⟩
    obtain ⟨ht, hr⟩ := hs.step hx hst ho hu
    exact ⟨⟨ht, punctual_step hz hst hp⟩, hs.untouched hz hst hr⟩
  · exact throughout_of_keeps (fun _ _ _ hs hst ⟨ho, hu⟩ => hs.step hx hst ho hu) hboth
      (Bygone.initial hf hm)
  · have hs : Bygone held s := run_keeps_throughout
      (fun _ _ _ hs hst ⟨ho, hu⟩ => (hs.step hx hst ho hu).1) h hboth (Bygone.initial hf hm)
    have := hs.paid l hl
    omega

def lateLock : List (Choice Nat 2) :=
  [.begin first .lock, .act first 0, .begin second .destroy, .act second 1, .act second 1,
    .act second 1, .act second 1, .act second 1, .finish second, .act first 0, .act first 0,
    .act first 0]

def lockAfterDestroy : List (Choice Nat 2) :=
  [.begin second .destroy, .act second 1, .act second 1, .act second 1, .act second 1,
    .act second 1, .begin first .lock, .act first 0]

theorem late_lock_recedes :
    (Throughout (Site.step? RawLock.call) Site.Receding lateLock (.initial (.ofRaw .newSpin)) ∧
      ∃ s : Site RawLock 2,
        run? (Site.step? RawLock.call) lateLock (.initial (.ofRaw .newSpin)) = some s ∧
          s.afterlife.isSome ∧ ∀ l, s.afterlife = some l → l.used ≤ 2 * l.late) ∧
    Throughout (Site.step? RawLock.call) Site.Untouched lockAfterDestroy
      (.initial (.ofRaw .newSpin)) ∧
      ∃ s : Site RawLock 2,
        run? (Site.step? RawLock.call) lockAfterDestroy (.initial (.ofRaw .newSpin)) = some s ∧
          s.afterlife.isSome := by
  have ho : Throughout (Site.step? RawLock.call) (Site.On Owned) lateLock
      (.initial (.ofRaw .newSpin)) := by decide
  have hu : Throughout (Site.step? RawLock.call) (Site.On Undisturbed) lateLock
      (.initial (.ofRaw .newSpin)) := by decide
  have hlate := late_calls_alone_touch_destroyed_lock RawLock.exclusive
    (m := .ofRaw .newSpin) rfl (.inl rfl) ho hu
  have ho' : Throughout (Site.step? RawLock.call) (Site.On Owned) lockAfterDestroy
      (.initial (.ofRaw .newSpin)) := by decide
  have hu' : Throughout (Site.step? RawLock.call) (Site.On Undisturbed) lockAfterDestroy
      (.initial (.ofRaw .newSpin)) := by decide
  have hafter := late_calls_alone_touch_destroyed_lock RawLock.exclusive
    (m := .ofRaw .newSpin) rfl (.inl rfl) ho' hu'
  exact ⟨⟨hlate.2.1, _, rfl, rfl, hlate.2.2 _ rfl⟩, hafter.1 (by decide), _, rfl, rfl⟩

/-- The late call takes the destroyed raw lock and gives it back. -/
theorem late_lock_touches_destroyed_lock :
    Throughout (Site.step? RawLock.call) (Site.On Owned) lateLock (.initial (.ofRaw .newSpin)) ∧
      ¬Throughout (Site.step? RawLock.call) Site.Untouched lateLock
        (.initial (.ofRaw .newSpin)) ∧
      ∃ s : Site RawLock 2,
        run? (Site.step? RawLock.call) lateLock (.initial (.ofRaw .newSpin)) = some s ∧
          s.afterlife = some ⟨1, 2⟩ ∧
          (s.scene.clients first).calls = [⟨.lock, failed .notInitialized, 0⟩] ∧
            s.scene.mutex.status = .destroyed := by
  refine ⟨by decide, by decide, _, rfl, rfl, rfl, rfl⟩

end SyncCore.Mutex

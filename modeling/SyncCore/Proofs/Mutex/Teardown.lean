import SyncCore.Proofs.Mutex.Exclusion

/-!
# Initialization during a teardown

A destroy is under way from its claim to its return. Until it marks the mutex
as destroyed the status keeps every init out. From then on the status is one
that an init looks for, and an init that comes before the destroy returns
succeeds: the raw lock may then be destroyed while the mutex is ready, and
even while a client holds it. Nothing else can go wrong.
-/

set_option autoImplicit false

namespace SyncCore.Mutex

variable {Hint R : Type} {n : Nat} {call : RawCalls Hint R} {held : R → Bool}

inductive Phase where
  | outside
  | claimed
  | marked
  deriving DecidableEq

def Pc.phase : Pc → Phase
  | .destroyAcquire => .claimed
  | .destroyAbandon _ => .claimed
  | .destroyMark => .claimed
  | .destroyGiveBack => .marked
  | .destroyRaw => .marked
  | .destroyRevive _ => .marked
  | _ => .outside

def Scene.Closing (s : Scene R n) : Prop :=
  ∃ i, ∃ c ∈ (s.clients i).calls, c.pc.phase ≠ .outside

/-- A destroy has marked the mutex and not returned. -/
def Scene.Marked (s : Scene R n) : Prop :=
  ∃ i, ∃ c ∈ (s.clients i).calls, c.pc.phase = .marked

def moved (s : Scene R n) (ch : Choice Hint n) (t : Scene R n) : Option (Call × Call) :=
  match ch with
  | .act i _ =>
    match (s.clients i).calls, (t.clients i).calls with
    | c :: _, c' :: _ => some (c, c')
    | _, _ => none
  | _ => none

/-- A step does no harm to a teardown: an init that is answered during one is
told that the mutex is initialized, and a destroy that succeeds does not find
the mutex ready and leaves it destroyed. -/
def Shielded (s : Scene R n) (ch : Choice Hint n) (t : Scene R n) : Prop :=
  match moved s ch t with
  | none => True
  | some (c, c') =>
    (c.op = .init → s.Closing → c'.ended = true → c'.pc = failed .alreadyInitialized) ∧
      (c.op = .destroy → c'.pc = succeeded →
        s.mutex.status ≠ .ready ∧ t.mutex.status = .destroyed)

def Unheld (s : Scene R n) (ch : Choice Hint n) (t : Scene R n) : Prop :=
  match moved s ch t with
  | none => True
  | some (c, c') => c.op = .destroy → c'.pc = succeeded → ∀ i, ¬(s.clients i).Holding

/-- No init succeeds between the mark of a destroy and its return. -/
def Undisturbed (s : Scene R n) (ch : Choice Hint n) (t : Scene R n) : Prop :=
  match moved s ch t with
  | none => True
  | some (c, c') => c.op = .init → s.Marked → c'.pc ≠ succeeded

section Decidable

variable (s : Scene R n) (ch : Choice Hint n) (t : Scene R n)

instance : Decidable s.Closing :=
  inferInstanceAs (Decidable (∃ i, ∃ c ∈ (s.clients i).calls, c.pc.phase ≠ .outside))

instance : Decidable s.Marked :=
  inferInstanceAs (Decidable (∃ i, ∃ c ∈ (s.clients i).calls, c.pc.phase = .marked))

instance : Decidable (Shielded s ch t) := by
  unfold Shielded
  cases moved s ch t <;> infer_instance

instance : Decidable (Undisturbed s ch t) := by
  unfold Undisturbed
  cases moved s ch t <;> infer_instance

end Decidable

/-! ## Program points of init and destroy -/

def Op.visits : Op → Pc → Bool
  | .init, .initFrom .uninitialized => true
  | .init, .initFrom .destroyed => true
  | .init, .done _ => true
  | .init, _ => false
  | .destroy, .destroyClaim => true
  | .destroy, .destroyAcquire => true
  | .destroy, .destroyAbandon _ => true
  | .destroy, .destroyMark => true
  | .destroy, .destroyGiveBack => true
  | .destroy, .destroyRaw => true
  | .destroy, .destroyRevive _ => true
  | .destroy, .done _ => true
  | .destroy, _ => false
  | _, .initFrom _ => false
  | _, .initReport => false
  | _, pc => pc.phase = .outside && pc ≠ .destroyClaim

theorem begin_visits (op : Op) : op.visits (start op) = true := by
  cases op <;> rfl

inductive Turn : Status → Pc → Status → Pc → Prop where
  | stay {σ : Status} {pc pc' : Pc} : pc'.phase = pc.phase → Turn σ pc σ pc'
  | init {σ : Status} : Turn σ (.initFrom σ) .ready succeeded
  | claim : Turn .ready .destroyClaim .destroying .destroyAcquire
  | abandon {σ : Status} {e : ErrorKind} : Turn σ (.destroyAbandon e) .ready (failed e)
  | mark {σ : Status} : Turn σ .destroyMark .destroyed .destroyGiveBack
  | revive {σ : Status} {e : ErrorKind} : Turn σ (.destroyRevive e) .ready (failed e)
  | leave {σ : Status} {pc : Pc} {r : LockReply} : pc.phase = .marked → Turn σ pc σ (.done r)

section Points

variable {hint : Hint} {pc : Pc} {a : Action} {resume : a.Answer → Pc} {x : a.Answer}
  {m m' : State R}

theorem turn_act (hn : next pc = .act a resume) (he : effect call hint a m = some (x, m')) :
    Turn m.status pc m'.status (resume x) := by
  obtain ⟨σ, raw⟩ := m
  cases pc with
  | initFrom e =>
    cases hn
    cases he
    by_cases h : σ = e
    · subst h
      simpa using Turn.init
    · cases σ <;> cases e <;> first | exact absurd rfl h | exact .stay rfl
  | initReport => cases hn; cases he; cases σ <;> exact .stay rfl
  | destroyClaim => cases hn; cases he; cases σ <;> first | exact .claim | exact .stay rfl
  | destroyAcquire =>
    cases hn
    obtain ⟨r, -, rfl⟩ := effect_raw he
    rcases x with e | u <;> exact .stay rfl
  | destroyAbandon e =>
    cases hn
    cases he
    exact .abandon
  | destroyMark =>
    cases hn
    cases he
    exact .mark
  | destroyGiveBack =>
    cases hn
    obtain ⟨r, -, rfl⟩ := effect_raw he
    rcases x with e | u
    · exact .leave rfl
    · exact .stay rfl
  | destroyRaw =>
    cases hn
    obtain ⟨r, -, rfl⟩ := effect_raw he
    rcases x with e | u
    · by_cases hb : e = .busy
      · subst hb
        exact .stay rfl
      · simp only [hb, if_false]
        exact .stay rfl
    · exact .leave rfl
  | destroyRevive e =>
    cases hn
    cases he
    exact .revive
  | acquireCheck waits => cases hn; cases he; cases σ <;> exact .stay rfl
  | acquireRaw waits =>
    cases waits <;> cases hn <;> obtain ⟨r, -, rfl⟩ := effect_raw he <;>
      rcases x with e | u <;> exact .stay rfl
  | acquireConfirm => cases hn; cases he; cases σ <;> exact .stay rfl
  | acquireGiveBack | unlockRaw =>
    cases hn
    obtain ⟨r, -, rfl⟩ := effect_raw he
    rcases x with e | u <;> exact .stay rfl
  | unlockCheck => cases hn; cases he; cases σ <;> exact .stay rfl
  | lookCheck => cases hn; cases he; cases σ <;> exact .stay rfl
  | lookRaw =>
    cases hn
    obtain ⟨r, -, rfl⟩ := effect_raw he
    exact .stay rfl
  | initializedCheck =>
    cases hn
    cases he
    exact .stay rfl
  | done r => cases hn

theorem visits_act (hn : next pc = .act a resume) (he : effect call hint a m = some (x, m'))
    {op : Op} (hv : op.visits pc = true)
    (hf : pc = .initFrom .destroyed → m.status ≠ .uninitialized) :
    op.visits (resume x) = true := by
  obtain ⟨σ, raw⟩ := m
  cases pc with
  | initFrom e =>
    cases hn
    cases he
    cases op <;> cases e <;> cases σ <;> first | rfl | exact absurd rfl (hf rfl) | cases hv
  | initReport => cases op <;> cases hv
  | destroyClaim => cases hn; cases he; cases op <;> cases σ <;> first | rfl | cases hv
  | destroyAcquire | destroyGiveBack =>
    cases hn
    rcases x with e | u <;> cases op <;> first | rfl | cases hv
  | destroyAbandon e | destroyRevive e => cases hn; cases op <;> rfl
  | destroyMark => cases hn; cases op <;> first | rfl | cases hv
  | destroyRaw =>
    cases hn
    rcases x with e | u
    · by_cases hb : e = .busy
      · simpa [hb] using hv
      · simp only [hb, if_false]
        cases op <;> first | rfl | cases hv
    · cases op <;> rfl
  | acquireCheck waits | acquireConfirm | unlockCheck | lookCheck =>
    cases hn
    cases he
    cases op <;> cases σ <;> first | rfl | cases hv
  | acquireRaw waits =>
    cases waits <;> cases hn <;> rcases x with e | u <;> cases op <;> first | rfl | cases hv
  | acquireGiveBack | unlockRaw =>
    cases hn
    rcases x with e | u <;> cases op <;> rfl
  | lookRaw | initializedCheck => cases hn; cases op <;> rfl
  | done r => cases hn

theorem init_answer (hn : next pc = .act a resume) (he : effect call hint a m = some (x, m'))
    (hv : Op.init.visits pc = true) {r : LockReply} (hr : resume x = .done r) :
    pc = .initFrom m.status ∨ resume x = failed .alreadyInitialized := by
  obtain ⟨σ, raw⟩ := m
  cases pc with
  | initFrom e =>
    cases hn
    cases he
    by_cases h : σ = e
    · exact .inl (h ▸ rfl)
    · cases e <;> cases σ <;> first | exact .inr rfl | exact absurd rfl h | cases hr
  | done r => cases hn
  | _ => cases hv

theorem init_succeeds (hn : next (.initFrom m.status) = .act a resume)
    (he : effect call hint a m = some (x, m')) : resume x = succeeded := by
  cases hn
  cases he
  exact if_pos rfl

theorem init_retries (hn : next pc = .act a resume) (he : effect call hint a m = some (x, m'))
    (hv : Op.init.visits pc = true) (hr : resume x = .initFrom .destroyed) :
    m'.status ≠ .uninitialized := by
  obtain ⟨σ, raw⟩ := m
  cases pc with
  | initFrom e =>
    cases hn
    cases he
    cases e <;> cases σ <;> first | simp; done | cases hr
  | done r => cases hn
  | _ => cases hv

theorem destroy_success (hn : next pc = .act a resume) (he : effect call hint a m = some (x, m'))
    (hv : Op.destroy.visits pc = true) (hr : resume x = succeeded) :
    pc.phase = .marked ∧ m'.status = m.status := by
  obtain ⟨σ, raw⟩ := m
  cases pc with
  | destroyRaw =>
    cases hn
    obtain ⟨r, -, rfl⟩ := effect_raw he
    exact ⟨rfl, rfl⟩
  | destroyClaim => cases hn; cases he; cases σ <;> cases hr
  | destroyAcquire | destroyGiveBack => cases hn; rcases x with e | u <;> cases hr
  | destroyAbandon e | destroyRevive e =>
    cases hn
    cases hr
  | destroyMark =>
    cases hn
    cases hr
  | done r => cases hn
  | _ => cases hv

end Points

/-! ## The invariant -/

def Status.Settles : Status → Nat → Nat → Prop
  | .destroying, claimed, marked => claimed = 1 ∧ marked = 0
  | .destroyed, claimed, marked => claimed = 0 ∧ marked ≤ 1
  | _, claimed, marked => claimed = 0 ∧ marked = 0

def Call.isAt (p : Phase) (c : Call) : Nat := (decide (c.pc.phase = p)).toNat

/-- One destroy at most is under way, the status tells how far it has come,
and an init looks for the second status only when the first has passed. -/
structure Orderly (s : Scene R n) : Prop where
  settled : s.mutex.status.Settles (s.sum (Call.isAt .claimed)) (s.sum (Call.isAt .marked))
  placed : s.Each fun c => c.op.visits c.pc = true
  passed : s.Each fun c => c.pc = .initFrom .destroyed → s.mutex.status ≠ .uninitialized

theorem visits_initFrom {op : Op} {e : Status} (h : op.visits (.initFrom e) = true) :
    op = .init ∧ (e = .uninitialized ∨ e = .destroyed) := by
  cases op <;> cases e <;> first | exact ⟨rfl, .inl rfl⟩ | exact ⟨rfl, .inr rfl⟩ | cases h

theorem turn_uninitialized {σ σ' : Status} {pc pc' : Pc} (h : Turn σ pc σ' pc')
    (hs : σ' = .uninitialized) : σ = .uninitialized := by
  cases h <;> first | exact hs | cases hs

theorem done_of_ended {c : Call} (h : c.ended = true) : ∃ r, c.pc = .done r := by
  obtain ⟨op, pc, k⟩ := c
  cases pc with
  | done r => exact ⟨r, rfl⟩
  | _ => cases h

structure Attempting (s : Scene R n) : Prop where
  placed : s.Each fun c => c.op.visits c.pc = true
  passed : s.Each fun c => c.pc = .initFrom .destroyed → s.mutex.status ≠ .uninitialized

namespace Attempting

variable {s t : Scene R n}

theorem initial (m : State R) : Attempting (Scene.initial m : Scene R n) where
  placed := fun _ _ hc => nomatch hc
  passed := fun _ _ hc => nomatch hc

theorem begin {i : Fin n} {op : Op} (hs : Attempting s)
    (h : Scene.step? call (.begin i op) s = some t) : Attempting t := by
  cases Scene.step_begin h
  exact ⟨Scene.each_push hs.placed (begin_visits op),
    Scene.each_push hs.passed (by cases op <;> exact nofun)⟩

theorem act {i : Fin n} {hint : Hint} (hs : Attempting s)
    (h : Scene.step? call (.act i hint) s = some t) : Attempting t := by
  obtain ⟨c, cs, c', m, hc, ha, rfl⟩ := Scene.step_act h
  obtain ⟨a, resume, x, hn, he, rfl⟩ := Call.act_cases ha
  have hm : c ∈ (s.clients i).calls := hc ▸ List.mem_cons_self
  have hv : c.op.visits c.pc = true := hs.placed i c hm
  have hv' := visits_act hn he hv (hs.passed i c hm)
  have hkept : s.Each fun d => d.pc = .initFrom .destroyed → m.status ≠ .uninitialized :=
    fun j d hd hp hz => hs.passed j d hd hp (turn_uninitialized (turn_act hn he) hz)
  refine ⟨Scene.each_replace hc hs.placed hv', Scene.each_replace hc hkept fun hp => ?_⟩
  simp only at hp
  rw [hp] at hv'
  obtain ⟨ho, -⟩ := visits_initFrom hv'
  exact init_retries hn he (ho ▸ hv) hp

theorem finish {i : Fin n} (hs : Attempting s) (h : Scene.step? call (.finish i) s = some t) :
    Attempting t := by
  obtain ⟨c, cs, hc, -, rfl⟩ := Scene.step_finish h
  exact ⟨Scene.each_pop hc hs.placed, Scene.each_pop hc hs.passed⟩

theorem step {ch : Choice Hint n} (hs : Attempting s) (h : Scene.step? call ch s = some t) :
    Attempting t := by
  cases ch with
  | begin i op => exact hs.begin h
  | act i hint => exact hs.act h
  | finish i => exact hs.finish h

end Attempting

theorem settles_turn {σ σ' : Status} {pc pc' : Pc} (h : Turn σ pc σ' pc') {b a b' a' : Nat}
    (hs : σ.Settles b a) (hb : b' + (decide (pc.phase = .claimed)).toNat =
      b + (decide (pc'.phase = .claimed)).toNat)
    (ha : a' + (decide (pc.phase = .marked)).toNat = a + (decide (pc'.phase = .marked)).toNat)
    (hi : pc = .initFrom σ → σ = .uninitialized ∨ σ = .destroyed ∧ a = 0) :
    σ'.Settles b' a' := by
  cases h with
  | stay hp =>
    rw [hp] at hb ha
    obtain rfl : b' = b := by omega
    obtain rfl : a' = a := by omega
    exact hs
  | init =>
    rcases hi rfl with rfl | ⟨rfl, h0⟩ <;>
      simp_all [Status.Settles, Pc.phase, succeeded]
  | claim => simp_all [Status.Settles, Pc.phase]
  | abandon => cases σ <;> simp_all [Status.Settles, Pc.phase, failed]
  | mark => cases σ <;> simp_all [Status.Settles, Pc.phase]
  | revive => cases σ <;> simp_all [Status.Settles, Pc.phase, failed]; omega
  | leave hp => cases σ <;> simp_all [Status.Settles, Pc.phase]; omega

theorem moved_act {s : Scene R n} {i : Fin n} {hint : Hint} {c c' : Call} {cs : List Call}
    {m : State R} (hc : (s.clients i).calls = c :: cs) (k : Nat) :
    moved s (.act i hint) (s.put i ⟨k, c' :: cs⟩ m) = some (c, c') := by
  simp [moved, hc, Scene.put]

theorem marked_of_sum {s : Scene R n} (h : 0 < s.sum (Call.isAt .marked)) : s.Marked := by
  obtain ⟨i, c, hc, hp⟩ := Scene.exists_of_sum_pos h
  refine ⟨i, c, hc, ?_⟩
  by_contra hn
  simp [Call.isAt, hn] at hp

theorem sum_of_closing {s : Scene R n} (h : s.Closing) :
    0 < s.sum (Call.isAt .claimed) + s.sum (Call.isAt .marked) := by
  obtain ⟨i, c, hc, hp⟩ := h
  have hb := Scene.le_sum (Call.isAt .claimed) hc
  have ha := Scene.le_sum (Call.isAt .marked) hc
  cases hq : c.pc.phase with
  | outside => exact absurd hq hp
  | claimed =>
    simp [Call.isAt, hq] at hb
    omega
  | marked =>
    simp [Call.isAt, hq] at ha
    omega

namespace Orderly

variable {s t : Scene R n}

theorem attempting (hs : Orderly s) : Attempting s := ⟨hs.placed, hs.passed⟩

theorem initial {m : State R} (h : m.status = .ready ∨ m.status = .uninitialized) :
    Orderly (Scene.initial m : Scene R n) where
  settled := by
    rcases h with h | h <;> simp [Scene.initial, Scene.sum, h, Status.Settles]
  placed := (Attempting.initial m).placed
  passed := (Attempting.initial m).passed

theorem begin {i : Fin n} {op : Op} (hs : Orderly s)
    (h : Scene.step? call (.begin i op) s = some t) : Orderly t := by
  obtain ⟨hplaced, hpassed⟩ := hs.attempting.begin h
  cases Scene.step_begin h
  have hp : ∀ p, Call.isAt p (.begin op) = 0 ∨ p = .outside := by
    intro p
    cases p <;> cases op <;> first | exact .inl rfl | exact .inr rfl
  refine ⟨?_, hplaced, hpassed⟩
  rw [Scene.sum_push, Scene.sum_push, (hp .claimed).resolve_right nofun,
    (hp .marked).resolve_right nofun]
  exact hs.settled

theorem finish {i : Fin n} (hs : Orderly s) (h : Scene.step? call (.finish i) s = some t) :
    Orderly t := by
  obtain ⟨hplaced, hpassed⟩ := hs.attempting.finish h
  obtain ⟨c, cs, hc, he, rfl⟩ := Scene.step_finish h
  obtain ⟨r, hp⟩ := done_of_ended he
  have hsum := fun f => Scene.sum_pop f hc ((s.clients i).holds + c.gain) s.mutex
  refine ⟨?_, hplaced, hpassed⟩
  have h0 : ∀ p, p ≠ .outside → Call.isAt p c = 0 := fun p hq => by
    simp [Call.isAt, hp, Pc.phase, hq.symm]
  have hb := hsum (Call.isAt .claimed)
  have ha := hsum (Call.isAt .marked)
  rw [h0 .claimed nofun, Nat.add_zero] at hb
  rw [h0 .marked nofun, Nat.add_zero] at ha
  rw [hb, ha]
  exact hs.settled

theorem init_found (hs : Orderly s) {i : Fin n} {c : Call} (hc : c ∈ (s.clients i).calls)
    (hp : c.pc = .initFrom s.mutex.status) (hu : c.op = .init → ¬s.Marked) :
    s.mutex.status = .uninitialized ∨
      s.mutex.status = .destroyed ∧ s.sum (Call.isAt .marked) = 0 := by
  have hv : c.op.visits c.pc = true := hs.placed i c hc
  rw [hp] at hv
  obtain ⟨ho, hσ⟩ := visits_initFrom hv
  rcases hσ with hσ | hσ
  · exact .inl hσ
  · refine .inr ⟨hσ, ?_⟩
    by_contra hn
    exact hu ho (marked_of_sum (Nat.pos_of_ne_zero hn))

theorem destroyed_of_marked (hs : Orderly s) {i : Fin n} {c : Call}
    (hc : c ∈ (s.clients i).calls) (hp : c.pc.phase = .marked) : s.mutex.status = .destroyed := by
  have hl := Scene.le_sum (Call.isAt .marked) hc
  have hb := hs.settled
  simp only [Call.isAt, hp, decide_true, Bool.toNat_true] at hl
  cases hσ : s.mutex.status with
  | destroyed => rfl
  | _ =>
    rw [hσ] at hb
    exact absurd hb.2 (Nat.ne_of_gt hl)

theorem not_closing (hs : Orderly s) (h : s.mutex.status = .uninitialized ∨
    s.mutex.status = .destroyed ∧ s.sum (Call.isAt .marked) = 0) : ¬s.Closing := by
  intro hc
  have hp := sum_of_closing hc
  have hb := hs.settled
  rcases h with h | ⟨h, h0⟩ <;> rw [h] at hb <;> simp only [Status.Settles] at hb <;> omega

theorem act {i : Fin n} {hint : Hint} (hs : Orderly s)
    (h : Scene.step? call (.act i hint) s = some t) (hu : Undisturbed s (.act i hint) t) :
    Orderly t ∧ Shielded s (.act i hint) t := by
  obtain ⟨hplaced, hpassed⟩ := hs.attempting.act h
  obtain ⟨c, cs, c', m, hc, ha, rfl⟩ := Scene.step_act h
  obtain ⟨a, resume, x, hn, he, rfl⟩ := Call.act_cases ha
  have hm : c ∈ (s.clients i).calls := hc ▸ List.mem_cons_self
  have ht := turn_act hn he
  have hv : c.op.visits c.pc = true := hs.placed i c hm
  rw [Undisturbed, moved_act hc] at hu
  have hfound : c.pc = .initFrom s.mutex.status → s.mutex.status = .uninitialized ∨
      s.mutex.status = .destroyed ∧ s.sum (Call.isAt .marked) = 0 := fun hp =>
    hs.init_found hm hp fun ho hk => hu ho hk (init_succeeds (hp ▸ hn) he)
  constructor
  · exact ⟨settles_turn ht hs.settled (Scene.sum_replace _ hc _ _ m)
      (Scene.sum_replace _ hc _ _ m) hfound, hplaced, hpassed⟩
  · rw [Shielded, moved_act hc]
    refine ⟨fun ho hcl hend => ?_, fun ho hsuc => ?_⟩
    · obtain ⟨r, hr⟩ := done_of_ended hend
      rcases init_answer hn he (ho ▸ hv) hr with hp | hf
      · exact absurd hcl (hs.not_closing (hfound hp))
      · exact hf
    · obtain ⟨hp, hst⟩ := destroy_success hn he (ho ▸ hv) hsuc
      have hd := hs.destroyed_of_marked hm hp
      refine ⟨?_, hst.trans hd⟩
      rw [hd]
      exact nofun

theorem step {ch : Choice Hint n} (hs : Orderly s) (h : Scene.step? call ch s = some t)
    (hu : Undisturbed s ch t) : Orderly t ∧ Shielded s ch t := by
  cases ch with
  | begin i op => exact ⟨hs.begin h, trivial⟩
  | act i hint => exact hs.act h hu
  | finish i => exact ⟨hs.finish h, trivial⟩

theorem unheld {ch : Choice Hint n} (hs : Orderly s) (hx : Sound held s)
    (h : Scene.step? call ch s = some t) : Unheld s ch t := by
  cases ch with
  | begin i op => trivial
  | finish i => trivial
  | act i hint =>
    obtain ⟨c, cs, c', m, hc, ha, rfl⟩ := Scene.step_act h
    obtain ⟨a, resume, x, hn, he, rfl⟩ := Call.act_cases ha
    have hm : c ∈ (s.clients i).calls := hc ▸ List.mem_cons_self
    have hv : c.op.visits c.pc = true := hs.placed i c hm
    rw [Unheld, moved_act hc]
    intro ho hsuc j hj
    obtain ⟨hp, -⟩ := destroy_success hn he (ho ▸ hv) hsuc
    have hu := (hx.locked hj).2
    rw [hs.destroyed_of_marked hm hp] at hu
    cases hu

end Orderly

/-! ## Whole runs -/

theorem undisturbed_of_shielded {s t : Scene R n} {ch : Choice Hint n} (h : Shielded s ch t) :
    Undisturbed s ch t := by
  unfold Shielded at h
  unfold Undisturbed
  cases hm : moved s ch t with
  | none => trivial
  | some p =>
    obtain ⟨c, c'⟩ := p
    rw [hm] at h
    rintro ho ⟨i, d, hd, hp⟩ hsuc
    have hc : s.Closing := ⟨i, d, hd, by rw [hp]; exact nofun⟩
    have hend : c'.ended = true := by rw [Call.ended, hsuc]; rfl
    exact absurd (hsuc.symm.trans (h.1 ho hc hend)) (failed_ne_succeeded _).symm

/-- In every run of any number of clients, over any raw lock, teardowns are
shielded exactly if no init succeeds between the mark of a destroy and its
return. Over an exclusive lock no destroy then succeeds under a holder. -/
theorem shielded_iff_undisturbed {m : State R}
    (hm : m.status = .ready ∨ m.status = .uninitialized) (cs : List (Choice Hint n)) :
    (Throughout (Scene.step? call) Shielded cs (Scene.initial m) ↔
      Throughout (Scene.step? call) Undisturbed cs (Scene.initial m)) ∧
    (∀ held, Exclusive call held → held m.raw = false →
      Throughout (Scene.step? call) Owned cs (Scene.initial m) →
      Throughout (Scene.step? call) Undisturbed cs (Scene.initial m) →
      Throughout (Scene.step? call) Unheld cs (Scene.initial m)) := by
  refine ⟨⟨fun h => ?_, fun h => ?_⟩, fun held hx hf ho hu => ?_⟩
  · exact throughout_of_keeps (I := fun _ => True)
      (fun _ _ _ _ _ hs => ⟨trivial, undisturbed_of_shielded hs⟩) h trivial
  · exact throughout_of_keeps (fun _ _ _ hs hst hu => hs.step hst hu) h (Orderly.initial hm)
  · refine throughout_of_keeps (I := fun s => Sound held s ∧ Orderly s) ?_
      (throughout_and ho hu) ⟨.initial hf, .initial hm⟩
    intro s ch t ⟨hs, hr⟩ hst ⟨ho, hu⟩
    exact ⟨⟨hs.step hx hst ho, (hr.step hst hu).1⟩, hr.unheld hs hst⟩

def orderlyReuse : List (Choice Nat 2) :=
  [.begin first .destroy, .act first 0, .act first 0, .act first 0, .act first 0, .act first 0,
    .finish first, .begin second .init, .act second 1, .act second 1]

theorem orderly_reuse_shielded :
    Throughout (Scene.step? RawLock.call) Shielded orderlyReuse (.initial (.ofRaw .newSpin)) ∧
      Throughout (Scene.step? RawLock.call) Unheld orderlyReuse (.initial (.ofRaw .newSpin)) := by
  have hu : Throughout (Scene.step? RawLock.call) Undisturbed orderlyReuse
      (.initial (.ofRaw .newSpin)) := by decide
  have ho : Throughout (Scene.step? RawLock.call) Owned orderlyReuse
      (.initial (.ofRaw .newSpin)) := by decide
  obtain ⟨hs, hh⟩ := @shielded_iff_undisturbed Nat RawLock 2 RawLock.call (.ofRaw .newSpin)
    (.inl rfl) orderlyReuse
  exact ⟨hs.mpr hu, hh RawLock.held RawLock.exclusive rfl ho hu⟩

/-- Another client initializes and locks the mutex before the destroy returns. -/
def disturbedDestroy : List (Choice Nat 2) :=
  [.begin first .destroy, .act first 0, .act first 0, .act first 0, .act first 0,
    .begin second .init, .act second 1, .act second 1, .finish second,
    .begin second .lock, .act second 1, .act second 1, .act second 1, .finish second, .act first 0]

/-- The destroy has succeeded, and the mutex is ready and held. -/
theorem destroy_succeeds_under_holder :
    Throughout (Scene.step? RawLock.call) Owned disturbedDestroy (.initial (.ofRaw .newSpin)) ∧
      ¬Throughout (Scene.step? RawLock.call) Shielded disturbedDestroy
        (.initial (.ofRaw .newSpin)) ∧
      ∃ s : Scene RawLock 2,
        run? (Scene.step? RawLock.call) disturbedDestroy (.initial (.ofRaw .newSpin)) = some s ∧
          (s.clients first).calls = [⟨.destroy, succeeded, 0⟩] ∧ s.mutex.status = .ready ∧
            (s.clients second).Holding := by
  refine ⟨by decide, by decide, _, rfl, rfl, rfl, .inl Nat.one_pos⟩

end SyncCore.Mutex

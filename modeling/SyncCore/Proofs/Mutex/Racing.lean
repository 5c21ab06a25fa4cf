import SyncCore.Proofs.Mutex.Teardown

/-!
# Racing inits

An init looks for the first status it can start from, and then for the second.
Nothing leads back to the first, so one of its two exchanges decides it,
whatever destroys do meanwhile, and the report behind its loop is never made.
When no destroy is in progress, the first init to be answered in a mutex that
is not usable succeeds, and all others come too late.
-/

set_option autoImplicit false

namespace SyncCore.Mutex

variable {Hint R : Type} {n : Nat} {call : RawCalls Hint R}

def tooLate : LockReply := .outcome (.error .alreadyInitialized)

structure Decision (found : Status) (pc : Pc) (left : Status) (pc' : Pc) : Prop where
  won : pc' = succeeded ↔ found.usable = false ∧ left = .ready
  lost : pc' = .done tooLate ↔ found.usable = true
  harmless : pc' ≠ succeeded → left = found
  /-- Only the first of the two exchanges may leave the init undecided. -/
  undecided : pc' ≠ succeeded → pc' ≠ .done tooLate →
    pc = .initFrom .uninitialized ∧ pc' = .initFrom .destroyed

def Decided (s : Scene R n) (ch : Choice Hint n) (t : Scene R n) : Prop :=
  match moved s ch t with
  | none => True
  | some (c, c') => c.op = .init → Decision s.mutex.status c.pc t.mutex.status c'.pc

def Scene.Destroying (s : Scene R n) : Prop :=
  ∃ i, ∃ c ∈ (s.clients i).calls, c.op = .destroy ∧ c.ended = false

instance (s : Scene R n) : Decidable s.Destroying :=
  inferInstanceAs (Decidable (∃ i, ∃ c ∈ (s.clients i).calls, c.op = .destroy ∧ c.ended = false))

def initAnswer (call : RawCalls Hint R) (s : Scene R n) (ch : Choice Hint n) : List LockReply :=
  match (Scene.step? call ch s).bind (moved s ch) with
  | some (⟨.init, _, _⟩, ⟨_, .done r, _⟩) => [r]
  | _ => []

def initAnswers (call : RawCalls Hint R) (cs : List (Choice Hint n)) (s : Scene R n) :
    List LockReply :=
  transcript (Scene.step? call) (initAnswer call) cs s

/-! ## One exchange of an init -/

inductive Attempt : Status → Pc → Status → Pc → Prop where
  | won {σ : Status} {pc : Pc} : σ.usable = false → Attempt σ pc .ready succeeded
  | lost {σ : Status} {pc : Pc} : σ.usable = true → Attempt σ pc σ (.done tooLate)
  | retry : Attempt .destroyed (.initFrom .uninitialized) .destroyed (.initFrom .destroyed)

theorem Attempt.decision {σ σ' : Status} {pc pc' : Pc} (h : Attempt σ pc σ' pc') :
    Decision σ pc σ' pc' := by
  cases h with
  | won hu => exact ⟨by simp [hu], by simp [hu, succeeded, tooLate, LockReply.ok], by simp, by simp⟩
  | lost hu =>
    exact ⟨by simp [hu, succeeded, tooLate, LockReply.ok], by simp [hu], fun _ => rfl, by simp⟩
  | retry =>
    exact ⟨by simp [succeeded], by simp [Status.usable], fun _ => rfl, fun _ _ => ⟨rfl, rfl⟩⟩

section Points

variable {hint : Hint} {pc : Pc} {a : Action} {resume : a.Answer → Pc} {x : a.Answer}
  {m m' : State R}

theorem init_attempt (hn : next pc = .act a resume) (he : effect call hint a m = some (x, m'))
    (hv : Op.init.visits pc = true) (hf : pc = .initFrom .destroyed → m.status ≠ .uninitialized) :
    Attempt m.status pc m'.status (resume x) := by
  obtain ⟨σ, raw⟩ := m
  cases pc with
  | initFrom e =>
    cases hn
    cases he
    cases e with
    | uninitialized =>
      cases σ with
      | uninitialized => exact .won rfl
      | destroyed => exact .retry
      | ready | destroying => exact .lost rfl
    | destroyed =>
      cases σ with
      | uninitialized => exact absurd rfl (hf rfl)
      | destroyed => exact .won rfl
      | ready | destroying => exact .lost rfl
    | ready | destroying => cases hv
  | done r => cases hn
  | _ => cases hv

theorem status_stays (hn : next pc = .act a resume) (he : effect call hint a m = some (x, m'))
    {op : Op} (hv : op.visits pc = true) (hi : op ≠ .init) (hd : op ≠ .destroy) :
    m'.status = m.status := by
  have ht := turn_act hn he
  generalize m.status = σ at ht ⊢
  generalize m'.status = σ' at ht ⊢
  generalize resume x = pc' at ht
  cases ht with
  | stay _ => rfl
  | leave _ => rfl
  | init => exact absurd (visits_initFrom hv).1 hi
  | _ => cases op <;> first | exact absurd rfl hd | cases hv

end Points

namespace Attempting

variable {s t : Scene R n} {i : Fin n} {hint : Hint} {c c' : Call} {cs : List Call} {m : State R}

theorem attempt (hs : Attempting s) (hc : (s.clients i).calls = c :: cs)
    (ha : c.act? call hint s.mutex = some (c', m)) (ho : c.op = .init) :
    Attempt s.mutex.status c.pc m.status c'.pc := by
  obtain ⟨a, resume, x, hn, he, rfl⟩ := Call.act_cases ha
  have hm : c ∈ (s.clients i).calls := hc ▸ List.mem_cons_self
  have hv : c.op.visits c.pc = true := hs.placed i c hm
  exact init_attempt hn he (ho ▸ hv) (hs.passed i c hm)

theorem decided {ch : Choice Hint n} (hs : Attempting s) (h : Scene.step? call ch s = some t) :
    Decided s ch t := by
  cases ch with
  | begin i op => trivial
  | finish i => trivial
  | act i hint =>
    obtain ⟨c, cs, c', m, hc, ha, rfl⟩ := Scene.step_act h
    rw [Decided, moved_act hc]
    exact fun ho => (hs.attempt hc ha ho).decision

end Attempting

/-! ## The answers to inits -/

def Call.Answered (c : Call) : Prop :=
  c.op = .init → c.ended = true → c.pc = Mutex.succeeded ∨ c.pc = .done tooLate

theorem Attempt.answered {σ σ' : Status} {pc : Pc} {c : Call} (h : Attempt σ pc σ' c.pc) :
    c.Answered := by
  intro _ hend
  generalize hp : c.pc = pc' at h
  cases h with
  | won _ => exact .inl rfl
  | lost _ => exact .inr rfl
  | retry => simp [Call.ended, hp] at hend

theorem begin_answered (op : Op) : (Call.begin op).Answered := by
  intro _ hend
  cases op <;> cases hend

structure Contested (s : Scene R n) : Prop where
  attempting : Attempting s
  answered : s.Each Call.Answered

namespace Contested

variable {s t : Scene R n}

theorem initial (m : State R) : Contested (Scene.initial m : Scene R n) where
  attempting := .initial m
  answered := fun _ _ hc => nomatch hc

theorem step {ch : Choice Hint n} (hs : Contested s) (h : Scene.step? call ch s = some t) :
    Contested t := by
  refine ⟨hs.attempting.step h, ?_⟩
  cases ch with
  | begin i op =>
    cases Scene.step_begin h
    exact Scene.each_push hs.answered (begin_answered op)
  | act i hint =>
    obtain ⟨c, cs, c', m, hc, ha, rfl⟩ := Scene.step_act h
    refine Scene.each_replace hc hs.answered fun ho => ?_
    obtain ⟨a, resume, x, -, -, rfl⟩ := Call.act_cases ha
    exact (hs.attempting.attempt hc ha ho).answered ho
  | finish i =>
    obtain ⟨c, cs, hc, -, rfl⟩ := Scene.step_finish h
    exact Scene.each_pop hc hs.answered

theorem init_acts (call : RawCalls Hint R) (hs : Contested s) {i : Fin n} {c : Call}
    {cs : List Call} (hc : (s.clients i).calls = c :: cs) (ho : c.op = .init)
    (hend : c.ended = false) (hint : Hint) :
    ∃ c' t, Scene.step? call (.act i hint) s = some t ∧ c'.op = .init ∧
      (t.clients i).calls = c' :: cs ∧ Attempt s.mutex.status c.pc t.mutex.status c'.pc := by
  have hm : c ∈ (s.clients i).calls := hc ▸ List.mem_cons_self
  have hv : c.op.visits c.pc = true := hs.attempting.placed i c hm
  rw [ho] at hv
  obtain ⟨e, hp⟩ : ∃ e, c.pc = .initFrom e := by
    obtain ⟨op, pc, k⟩ := c
    cases pc with
    | initFrom e => exact ⟨e, rfl⟩
    | done r => cases hend
    | _ => cases hv
  obtain ⟨c', m, ho', hact⟩ : ∃ c' m, c'.op = c.op ∧ c.act? call hint s.mutex = some (c', m) :=
    ⟨_, _, rfl, Call.act_of (congrArg next hp) rfl⟩
  exact ⟨c', _, Scene.act_of hc hact, ho'.trans ho, by simp [Scene.put],
    hs.attempting.attempt hc hact ho⟩

theorem init_returns (hs : Contested s) {i : Fin n} {c : Call} {cs : List Call}
    (hc : (s.clients i).calls = c :: cs) (ho : c.op = .init) (hint : Hint) :
    ∃ k t c', k ≤ 2 ∧ run? (Scene.step? call) (List.replicate k (.act i hint)) s = some t ∧
      (t.clients i).calls = c' :: cs ∧ c'.op = .init ∧
        (c'.pc = succeeded ∨ c'.pc = .done tooLate) := by
  cases hend : c.ended with
  | true =>
    have hm : c ∈ (s.clients i).calls := hc ▸ List.mem_cons_self
    exact ⟨0, s, c, by decide, rfl, hc, ho, hs.answered i c hm ho hend⟩
  | false =>
    obtain ⟨c', t, ht, ho', hc', ha⟩ := hs.init_acts call hc ho hend hint
    by_cases hd' : c'.pc = succeeded ∨ c'.pc = .done tooLate
    · exact ⟨1, t, c', by decide, by simp [run?, ht], hc', ho', hd'⟩
    push Not at hd'
    -- undecided, it looks for the second status, and cannot be undecided again
    have hp' := (ha.decision.undecided hd'.1 hd'.2).2
    obtain ⟨d, u, hu, hod, hd, hb⟩ :=
      (hs.step ht).init_acts call hc' ho' (by rw [Call.ended, hp']) hint
    refine ⟨2, u, d, le_refl 2, by simp [List.replicate, run?, ht, hu], hd, hod, ?_⟩
    by_contra hn
    push Not at hn
    have hp := (hb.decision.undecided hn.1 hn.2).1
    cases hp.symm.trans hp'

end Contested

/-! ## The race -/

theorem initAnswer_of {s t : Scene R n} {ch : Choice Hint n} (h : Scene.step? call ch s = some t)
    (hm : moved s ch t = none) : initAnswer call s ch = [] := by
  simp [initAnswer, h, hm]

/-- The answer that a step gives to an init while no destroy is in progress,
with the status before and after it. -/
inductive Lap : Status → List LockReply → Status → Prop where
  | quiet {σ : Status} : Lap σ [] σ
  | won {σ : Status} : σ.usable = false → Lap σ [.ok] .ready
  | lost {σ : Status} : σ.usable = true → Lap σ [tooLate] σ

def Call.Idle (c : Call) : Prop := c.op = .destroy → c.ended = true

theorem not_ended_of_next {c : Call} {a : Action} {resume : a.Answer → Pc}
    (hn : next c.pc = .act a resume) : c.ended = false := by
  obtain ⟨op, pc, k⟩ := c
  cases pc with
  | done r => cases hn
  | _ => rfl

structure Calm (s : Scene R n) : Prop where
  attempting : Attempting s
  idle : s.Each Call.Idle

namespace Calm

variable {s t : Scene R n}

theorem act {i : Fin n} {hint : Hint} (hs : Calm s)
    (h : Scene.step? call (.act i hint) s = some t) :
    t.Each Call.Idle ∧ Lap s.mutex.status (initAnswer call s (.act i hint)) t.mutex.status := by
  obtain ⟨c, cs, c', m, hc, ha, rfl⟩ := Scene.step_act h
  have hm : c ∈ (s.clients i).calls := hc ▸ List.mem_cons_self
  have hv : c.op.visits c.pc = true := hs.attempting.placed i c hm
  have hmoved : moved s (.act i hint) (s.put i ⟨(s.clients i).holds, c' :: cs⟩ m) = some (c, c') :=
    moved_act hc _
  have hatt := hs.attempting.attempt hc ha
  obtain ⟨a, resume, x, hn, he, rfl⟩ := Call.act_cases ha
  have hd : c.op ≠ .destroy := fun ho => by
    have := (hs.idle i c hm ho).symm.trans (not_ended_of_next hn)
    cases this
  refine ⟨Scene.each_replace hc hs.idle fun ho => absurd ho hd, ?_⟩
  rw [initAnswer, h, Option.bind_some, hmoved]
  obtain ⟨op, pc, k⟩ := c
  by_cases ho : op = .init
  · subst ho
    have hatt := hatt rfl
    simp only [Scene.put]
    generalize s.mutex.status = σ at hatt ⊢
    generalize m.status = σ' at hatt ⊢
    generalize resume x = pc' at hatt ⊢
    cases hatt with
    | won hu => exact .won hu
    | lost hu => exact .lost hu
    | retry => exact .quiet
  · have hst : m.status = s.mutex.status := status_stays hn he hv ho hd
    simp only [Scene.put, hst]
    cases op with
    | init => exact absurd rfl ho
    | _ => exact .quiet

theorem step {ch : Choice Hint n} (hs : Calm s) (h : Scene.step? call ch s = some t)
    (hn : ∀ i, ch ≠ .begin i .destroy) :
    Calm t ∧ Lap s.mutex.status (initAnswer call s ch) t.mutex.status := by
  cases ch with
  | begin i op =>
    have ha := hs.attempting.step h
    rw [initAnswer_of h rfl]
    cases Scene.step_begin h
    refine ⟨⟨ha, Scene.each_push hs.idle fun ho => absurd (congrArg _ ho) (hn i)⟩, .quiet⟩
  | act i hint =>
    obtain ⟨hidle, hlap⟩ := hs.act h
    exact ⟨⟨hs.attempting.step h, hidle⟩, hlap⟩
  | finish i =>
    have ha := hs.attempting.step h
    rw [initAnswer_of h rfl]
    obtain ⟨c, cs, hc, -, rfl⟩ := Scene.step_finish h
    exact ⟨⟨ha, Scene.each_pop hc hs.idle⟩, .quiet⟩

theorem all_late {race : List (Choice Hint n)} (hs : Calm s) (hu : s.mutex.status.usable = true)
    (hn : ∀ i, .begin i .destroy ∉ race) :
    ∃ k, initAnswers call race s = List.replicate k tooLate := by
  induction race generalizing s with
  | nil => exact ⟨0, rfl⟩
  | cons ch race ih =>
    cases hst : Scene.step? call ch s with
    | none => exact ⟨0, by simp [initAnswers, transcript, hst]⟩
    | some t =>
      obtain ⟨ht, hlap⟩ := hs.step hst fun i hi => hn i (hi ▸ List.mem_cons_self)
      have hrest := fun hu => ih ht hu fun i hi => hn i (List.mem_cons_of_mem _ hi)
      rw [initAnswers, transcript_cons hst]
      generalize initAnswer call s ch = answers at hlap ⊢
      generalize s.mutex.status = σ at hlap hu
      generalize t.mutex.status = σ' at hlap hrest
      cases hlap with
      | quiet => exact hrest hu
      | won hf => exact absurd (hf.symm.trans hu) (by decide)
      | lost =>
        obtain ⟨k, hk⟩ := hrest hu
        exact ⟨k + 1, congrArg (List.cons _) hk⟩

theorem first_wins {race : List (Choice Hint n)} (hs : Calm s)
    (hu : s.mutex.status.usable = false) (hn : ∀ i, .begin i .destroy ∉ race) :
    initAnswers call race s = [] ∨
      ∃ k, initAnswers call race s = .ok :: List.replicate k tooLate := by
  induction race generalizing s with
  | nil => exact .inl rfl
  | cons ch race ih =>
    cases hst : Scene.step? call ch s with
    | none => exact .inl (by simp [initAnswers, transcript, hst])
    | some t =>
      obtain ⟨ht, hlap⟩ := hs.step hst fun i hi => hn i (hi ▸ List.mem_cons_self)
      have hn : ∀ i, .begin i .destroy ∉ race := fun i hi => hn i (List.mem_cons_of_mem _ hi)
      have hrest := fun hu => ih ht hu hn
      have hlate : t.mutex.status.usable = true →
          ∃ k, initAnswers call race t = List.replicate k tooLate := fun hu => all_late ht hu hn
      rw [initAnswers, transcript_cons hst]
      generalize initAnswer call s ch = answers at hlap ⊢
      generalize s.mutex.status = σ at hlap hu
      generalize t.mutex.status = σ' at hlap hrest hlate
      cases hlap with
      | quiet => exact hrest hu
      | won =>
        obtain ⟨k, hk⟩ := hlate rfl
        exact .inr ⟨k, congrArg (List.cons _) hk⟩
      | lost hf => exact absurd (hf.symm.trans hu) (by decide)

end Calm

/-! ## Whole runs -/

structure Contest (call : RawCalls Hint R) (s : Scene R n) : Prop where
  answered : ∀ i, ∀ c ∈ (s.clients i).calls, c.op = .init → c.ended = true →
    c.pc = succeeded ∨ c.pc = .done tooLate
  returns : ∀ hint i c cs, (s.clients i).calls = c :: cs → c.op = .init →
    ∃ k t c', k ≤ 2 ∧ run? (Scene.step? call) (List.replicate k (.act i hint)) s = some t ∧
      (t.clients i).calls = c' :: cs ∧ c'.op = .init ∧
        (c'.pc = succeeded ∨ c'.pc = .done tooLate)
  /-- Of the inits that are answered from here on, before another destroy
  begins, the first succeeds and all others come too late. -/
  race : s.mutex.status.usable = false → ¬s.Destroying → ∀ race : List (Choice Hint n),
    (∀ i, .begin i .destroy ∉ race) →
      initAnswers call race s = [] ∨
        ∃ k, initAnswers call race s = .ok :: List.replicate k tooLate

/-- In every run of any number of clients, over any raw lock and from any
status, each init is answered by the status that its deciding exchange finds,
and never that the mutex is busy. Of inits that race on a mutex that is not
usable, while no destroy is in progress, exactly one succeeds. -/
theorem racing_inits_are_decided (m : State R) (cs : List (Choice Hint n)) :
    Throughout (Scene.step? call) Decided cs (Scene.initial m) ∧
    ∀ s, run? (Scene.step? call) cs (Scene.initial m) = some s → Contest call s := by
  constructor
  · exact throughout_of_keeps (fun _ _ _ hs hst _ => ⟨hs.step hst, hs.decided hst⟩)
      (throughout_trivial cs _) (Attempting.initial m)
  · intro s h
    have hs : Contested s := run_keeps (fun _ _ _ hs hst => hs.step hst) h (.initial m)
    exact {
      answered := hs.answered
      returns := fun hint _ _ _ hc ho => hs.init_returns hc ho hint
      race := fun hu hd _ hn => Calm.first_wins
        ⟨hs.attempting, fun i c hc ho => by_contra fun he => hd ⟨i, c, hc, ho, by simpa using he⟩⟩
        hu hn }

/-- A mutex is destroyed, and two inits find that it is not uninitialized. -/
def contestedReuse : List (Choice Nat 2) :=
  [.begin first .destroy, .act first 0, .begin second .init, .act first 0, .act first 0,
    .act first 0, .act first 0, .finish first, .act second 1, .begin first .init, .act first 0]

theorem contested_reuse_decided :
    ∃ s : Scene RawLock 2,
      run? (Scene.step? RawLock.call) contestedReuse (.initial (.ofRaw .newFlag)) = some s ∧
        s.mutex.status = .destroyed ∧ ¬s.Destroying ∧
        initAnswers RawLock.call [.act first 0, .act second 1] s = [.ok, tooLate] ∧
          Contest RawLock.call s :=
  ⟨_, rfl, rfl, by decide, by decide,
    (@racing_inits_are_decided Nat RawLock 2 RawLock.call (.ofRaw .newFlag) contestedReuse).2 _ rfl⟩

end SyncCore.Mutex

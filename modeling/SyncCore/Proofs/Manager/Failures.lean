import SyncCore.Proofs.Manager.Without

/-!
# Calls that fail

A call that sets the priority, suspends or resumes and ends with an error has
changed nothing: as soon as it has returned everything is as in the run in
which the call is not made. Between its exchange and the one that undoes it a
suspension is ahead, by the state of its own thread alone, and the routine that
may end meanwhile does not look at the state. A join or a destroy through
another manager's handle ends where it begins.
-/

set_option autoImplicit false

namespace SyncCore.Manager

variable {V : Type}

theorem BackendCall.holds_refused {c : BackendCall} {x : c.Answer} (h : c.agreed x = false)
    (held : Bool) : c.holds x held = held := by
  cases c with
  | suspend => rcases x with f | u <;> first | rfl | cases h
  | resume => rcases x with f | u <;> first | rfl | cases h
  | _ => rfl

/-! ## Calls ahead of their failure -/

namespace Control

/-- The call has succeeded, or cannot fail any more. -/
def succeeded : Control → Bool
  | .hold _ (.done (.ok _)) => true
  | .priority _ _ .note => true
  | .priority _ _ (.done (.ok _)) => true
  | _ => false

def verdict? : Control → Option (Outcome Unit)
  | .hold _ (.done r) => some r
  | .priority _ _ (.done r) => some r
  | _ => none

theorem failed {c : Control} {k : ErrorKind} (h : c.verdict? = some (.error k)) :
    c.succeeded = false ∧ c.pending = 0 ∧ c.ended = true := by
  cases c with
  | hold d pc =>
    cases pc <;> cases h
    exact ⟨rfl, rfl, rfl⟩
  | priority p native pc =>
    cases pc <;> cases h
    exact ⟨rfl, rfl, rfl⟩

/-- The second object is the first without a call that has not succeeded: a
suspension that is ahead has changed the state, unless the thread has ended. -/
inductive Lags (c : Control) (b : ThreadObject V) : ThreadObject V → Prop where
  | level : c.pending = 0 → Lags c b b
  | ended : b.state = .terminated → Lags c b b
  | ahead {d : Hold} {pc : Hold.Pc} : c = .hold d pc → c.pending = 1 → b.state = d.target →
    Lags c b { b with stateWord := d.origin.word }

variable {e : Setting V} {id : ObjectId} {t t' : Table} {s s' : Shared V} {c : Control}
  {b b' : ThreadObject V} {k : Option Mock.Task}

theorem Lags.of_level (h : c.Lags b b') (hc : c.pending = 0) : b' = b := by
  cases h with
  | level => rfl
  | ended => rfl
  | ahead _ hp _ => cases hc.symm.trans hp

theorem Lags.goes {d : Hold} {pc pc' : Hold.Pc} (h : (hold d pc).Lags b b')
    (hp : (hold d pc').pending = (hold d pc).pending) : (hold d pc').Lags b b' := by
  cases h with
  | level hc => exact .level (hp.trans hc)
  | ended hb => exact .ended hb
  | ahead he hc hb =>
    cases he
    exact .ahead rfl (hp.trans hc) hb

structure Goes (e : Setting V) (a : Action V) (c c' : Control) (s s' : Shared V) : Prop where
  gate : s'.object.gateOpen = s.object.gateOpen
  detached : s'.object.detached = s.object.detached
  binding : s'.object.binding = s.object.binding
  joined : s'.joined = s.joined
  failing : c'.succeeded = false → c.succeeded = false ∧ (∀ k, a.keeps e k = k) ∧
    s'.held = s.held ∧ ∀ b, c.Lags s.object b → c'.Lags s'.object b

theorem Goes.still {a : Action V} {c' : Control} (hc : c.succeeded = false)
    (hk : ∀ k, a.keeps e k = k) (hl : ∀ b, c.Lags s.object b → c'.Lags s.object b) :
    Goes e a c c' s s :=
  ⟨rfl, rfl, rfl, rfl, fun _ => ⟨hc, hk, rfl, hl⟩⟩

theorem Goes.asked {call : BackendCall} {c' : Control} (hc : c.succeeded = false)
    (hf : c'.succeeded = false → call.agreed (e.backend call) = false)
    (hl : c'.succeeded = false → ∀ b, c.Lags s.object b → c'.Lags s.object b) :
    Goes e (.backend call) c c' s { s with held := call.holds (e.backend call) s.held } where
  gate := rfl
  detached := rfl
  binding := rfl
  joined := rfl
  failing := fun h => ⟨hc, fun k => by simp [Action.keeps, BackendCall.keeps, hf h],
    BackendCall.holds_refused (hf h) s.held, hl h⟩

theorem goes_exchange {d : Hold} {a : Action V} {r : a.Answer → Hold.Pc} {x : a.Answer}
    (hn : Hold.next id d .exchange = .act a r)
    (he : e.effect id a (t, s) = some (x, t', s')) :
    t' = t ∧ Goes e a (hold d .exchange) (hold d (r x)) s s' := by
  cases hn
  cases he
  refine ⟨rfl, ?_⟩
  by_cases hs : s.object.state = d.origin
  · simp only [CellAction.perform, exchange_found hs d.origin_live]
    refine ⟨rfl, rfl, rfl, rfl, fun _ => ⟨rfl, fun _ => rfl, rfl, fun b hb => ?_⟩⟩
    have hb : b = { s.object with stateWord := d.origin.word } := by
      rw [hb.of_level rfl, ← ThreadState.word_of_ofWord hs d.origin_live]
    rw [hb]
    exact .ahead rfl rfl (ThreadState.ofWord_word d.target)
  · simp only [CellAction.perform, exchange_missed hs]
    exact .still rfl (fun _ => rfl) fun b hb => by rw [hb.of_level rfl]; exact .level rfl

theorem goes_undo {d : Hold} {f : ErrorKind} {a : Action V} {r : a.Answer → Hold.Pc} {x : a.Answer}
    (hn : Hold.next id d (.undo f) = .act a r)
    (he : e.effect id a (t, s) = some (x, t', s')) :
    t' = t ∧ Goes e a (hold d (.undo f)) (hold d (r x)) s s' := by
  cases hn
  cases he
  refine ⟨rfl, ?_⟩
  by_cases hs : s.object.state = d.target
  · simp only [CellAction.perform, exchange_found hs d.target_live]
    refine ⟨rfl, rfl, rfl, rfl, fun _ => ⟨rfl, fun _ => rfl, rfl, fun b hb => ?_⟩⟩
    cases hb with
    | level hc => cases hc
    | ended hb => exact absurd (hs.symm.trans hb) d.target_live
    | ahead hd _ _ =>
      cases hd
      exact .level rfl
  · simp only [CellAction.perform, exchange_missed hs]
    -- Nothing is undone, as the thread has ended meanwhile.
    refine .still rfl (fun _ => rfl) fun b hb => ?_
    cases hb with
    | level hc => cases hc
    | ended hb => exact .level rfl
    | ahead hd _ hb =>
      cases hd
      exact absurd hb hs

theorem goes_hold {d : Hold} {pc : Hold.Pc} {a : Action V} {r : a.Answer → Hold.Pc} {x : a.Answer}
    (hn : Hold.next id d pc = .act a r) (he : e.effect id a (t, s) = some (x, t', s'))
    (hb : s.object.binding.isSome = true) :
    t' = t ∧ Goes e a (hold d pc) (hold d (r x)) s s' := by
  cases pc with
  | exchange => exact goes_exchange hn he
  | undo f => exact goes_undo hn he
  | look =>
    cases hn
    cases he
    refine ⟨rfl, .still rfl (fun _ => rfl) fun b h => h.goes ?_⟩
    simp [CellAction.perform, hb, pending]
  | call =>
    have refused : ∀ q : Outcome Unit, (hold d (Hold.afterCall q)).succeeded = false →
        ∃ f, q = .error f := by
      rintro (f | u) h
      · exact ⟨f, rfl⟩
      · cases h
    cases d with
    | suspend =>
      cases hn
      cases he
      refine ⟨rfl, .asked rfl (fun h => ?_) fun h b hb => ?_⟩
      · obtain ⟨f, hf⟩ := refused _ h
        rw [hf]
        rfl
      · obtain ⟨f, hf⟩ := refused _ h
        rw [hf]
        exact hb.goes rfl
    | resume =>
      cases hn
      cases he
      refine ⟨rfl, .asked rfl (fun h => ?_) fun h b hb => ?_⟩
      · obtain ⟨f, hf⟩ := refused _ h
        rw [hf]
        rfl
      · obtain ⟨f, hf⟩ := refused _ h
        rw [hf]
        exact hb.goes rfl
  | warn f =>
    cases hn
    cases he
    exact ⟨rfl, .still rfl (fun _ => rfl) fun b h => by rw [h.of_level rfl]; exact .level rfl⟩
  | done q => cases hn

theorem goes_priority {q : Priority} {native : Int32} {pc : SetPriority.Pc} {a : Action V}
    {r : a.Answer → SetPriority.Pc} {x : a.Answer} (hn : SetPriority.next id q native pc = .act a r)
    (he : e.effect id a (t, s) = some (x, t', s')) :
    t' = t ∧ Goes e a (priority q native pc) (priority q native (r x)) s s' := by
  have hl : ∀ pc pc' : SetPriority.Pc, ∀ b, (priority q native pc).Lags s.object b →
      (priority q native pc').Lags s.object b := fun pc pc' b h => by
    rw [h.of_level rfl]
    exact .level rfl
  cases pc with
  | call =>
    cases hn
    cases he
    refine ⟨rfl, .asked rfl (fun h => ?_) fun _ => hl _ _⟩
    revert h
    cases e.backend (.setPriority native) with
    | ok u => exact nofun
    | error f => exact fun _ => rfl
  | note =>
    cases hn
    cases he
    exact ⟨rfl, rfl, rfl, rfl, rfl, nofun⟩
  | done q => cases hn
  | _ =>
    cases hn
    cases he
    exact ⟨rfl, .still rfl (fun _ => rfl) (hl _ _)⟩

/-- The routine does not see whether a call is ahead. -/
theorem Lags.routine {pc : Routine.Pc V} {a : Action V} {r : a.Answer → Routine.Pc V}
    (h : c.Lags b b') (hn : Routine.next id pc = .act a r)
    (hf : pc.starting = true → b.state = .created) : c.Lags (a.after b) (a.after b') := by
  cases h with
  | level hc => exact .level hc
  | ended hb =>
    refine .ended ?_
    cases pc with
    | begin => cases (hf rfl).symm.trans hb
    | terminate =>
      cases hn
      exact ThreadState.ofWord_word .terminated
    | done => cases hn
    | _ =>
      cases hn
      exact hb
  | @ahead d pc' he hc hb =>
    cases pc with
    | begin => cases d <;> cases (hf rfl).symm.trans hb
    | terminate =>
      cases hn
      exact .ended (ThreadState.ofWord_word .terminated)
    | done => cases hn
    | _ =>
      cases hn
      exact .ahead he hc hb

end Control

/-! ## What a thread does of its own -/

structure Thread.Since (th₀ th : Thread V) : Prop where
  owner : th.owner = th₀.owner
  joined : th.shared.joined = th₀.shared.joined
  detached : th.shared.object.detached = th₀.shared.object.detached
  priority : th.shared.object.priority = th₀.shared.object.priority
  state : th.shared.object.state = th₀.shared.object.state ∨
    (th.shared.object.state = .terminated ∧ th.routine.ended = true) ∨
    (th₀.shared.object.state = .created ∧ th.shared.object.state = .running)

namespace Thread

variable {id : ObjectId} {th₀ th th' : Thread V}

theorem Since.refl (th : Thread V) : th.Since th := ⟨rfl, rfl, rfl, rfl, .inl rfl⟩

theorem Since.onward {a : Action V} {r : a.Answer → Routine.Pc V} {x : a.Answer}
    (h : th₀.Since th) (hn : Routine.next id th.routine = .act a r)
    (hf : th.routine = .begin → th.shared.object.state = .created) :
    th₀.Since (th.onward a (r x)) := by
  have of_same : (a.after th.shared.object).detached = th.shared.object.detached →
      (a.after th.shared.object).priority = th.shared.object.priority →
      (a.after th.shared.object).state = th.shared.object.state →
      th₀.Since (th.onward a (r x)) :=
    fun hd hp hs => ⟨h.owner, h.joined, hd.trans h.detached, hp.trans h.priority, by
      simp only [Thread.onward, hs]
      exact h.state.imp_right (.imp_left fun hs => ⟨hs.1, Routine.ended_on hn hs.2 x⟩)⟩
  cases hp : th.routine with
  | begin =>
    rw [hp] at hn
    cases hn
    refine ⟨h.owner, h.joined, h.detached, h.priority, .inr (.inr ⟨?_, rfl⟩)⟩
    have hc := hf hp
    obtain hs | ⟨hs, -⟩ | ⟨-, hs⟩ := h.state
    · exact hs.symm.trans hc
    · cases hs.symm.trans hc
    · cases hs.symm.trans hc
  | terminate =>
    rw [hp] at hn
    cases hn
    exact ⟨h.owner, h.joined, h.detached, h.priority,
      .inr (.inl ⟨ThreadState.ofWord_word .terminated, rfl⟩)⟩
  | done =>
    rw [hp] at hn
    cases hn
  | _ =>
    rw [hp] at hn
    cases hn
    exact of_same rfl rfl rfl

end Thread

/-! ## Failures of controlling calls -/

def Thread.without (th : Thread V) (b : ThreadObject V) : Thread V :=
  { th with controls := [], shared := { th.shared with object := b } }

/-- A thread on which a call is under way, with its record, and the thread
without this call, as long as the call has not succeeded. -/
structure Missing (th₀ : Thread V) (k₀ : Option Mock.Task) (th : Thread V) (k : Option Mock.Task)
    (th' : Thread V) (k' : Option Mock.Task) : Prop where
  alone : th.Alone (.control 0)
  bound : th.shared.object.binding.isSome = true
  timely : th.Timely
  alike : th.Alike th'
  failing : ∀ c ∈ th.controls, c.succeeded = false →
    k = k₀ ∧ k' = k₀ ∧ th₀.Since th' ∧ ∃ b, c.Lags th.shared.object b ∧ th' = th.without b

namespace Missing

variable {e : Setting V} {id : ObjectId} {t t' : Table} {th₀ th th₁ th' : Thread V}
  {k₀ k k' : Option Mock.Task}

theorem own (hm : Missing th₀ k₀ th k th' k')
    (h : th.perform? (e.effect id) id t (.control 0) = some (t', th₁)) :
    t' = t ∧ Missing th₀ k₀ th₁ (th.keeps e id (.control 0) k) th' k' := by
  have ht := hm.timely.perform h
  obtain ⟨c, a, r, x, s', hi, hn, ha, he, rfl⟩ := Thread.perform_control h
  obtain ⟨hp, -⟩ | ⟨-, ho, d, hd⟩ := hm.alone.call
  · cases hp
  obtain rfl : d = c := by simpa [hd] using hi
  have hg : t' = t ∧ Control.Goes e a d (r x) th.shared s' := by
    cases d with
    | hold d pc =>
      obtain ⟨f, hf, rfl⟩ := Next.onto_act hn
      exact Control.goes_hold hf he hm.bound
    | priority q native pc =>
      obtain ⟨f, hf, rfl⟩ := Next.onto_act hn
      exact Control.goes_priority hf he
  obtain ⟨rfl, hg⟩ := hg
  refine ⟨rfl, ⟨hm.alone.creation, .inr ⟨rfl, ho, r x, by rw [hd]; rfl⟩⟩, ?_, ht, ?_, ?_⟩
  · rw [hg.binding]
    exact hm.bound
  · exact ⟨hm.alike.routine, hm.alike.gate.trans hg.gate.symm,
      hm.alike.detached.trans hg.detached.symm⟩
  · intro c hc hs
    rw [hd] at hc
    cases List.mem_singleton.mp hc
    obtain ⟨hs, hk, hh, hl⟩ := hg.failing hs
    have hmem : d ∈ th.controls := by
      rw [hd]
      exact List.mem_singleton_self d
    obtain ⟨rfl, rfl, hi, b, hb, rfl⟩ := hm.failing d hmem hs
    refine ⟨(Thread.keeps_eq ha _).trans (hk _), rfl, hi, b, hl b hb, ?_⟩
    simp only [Thread.without, hg.joined, hh]

theorem routine {a : Action V} {r : a.Answer → Routine.Pc V} {x : a.Answer}
    (hm : Missing th₀ k₀ th k th' k') (hn : Routine.next id th.routine = .act a r) :
    Missing th₀ k₀ (th.onward a (r x)) k (th'.onward a (r x)) k' := by
  have hf : th.routine.starting = true → th.shared.object.state = .created := hm.timely.fresh
  refine ⟨⟨hm.alone.creation, hm.alone.call⟩, ?_, ?_, hm.alike.onward hn (r x), fun c hc hs => ?_⟩
  · exact (congrArg Option.isSome (Routine.after_binding hn _)).trans hm.bound
  · exact hm.timely.onward hn
  · obtain ⟨rfl, rfl, hi, b, hb, rfl⟩ := hm.failing c hc hs
    refine ⟨rfl, rfl, hi.onward hn fun hr => ?_, _, hb.routine hn hf, rfl⟩
    have hc := hf (by rw [show th.routine = .begin from hr]; rfl)
    cases hb with
    | level => exact hc
    | ended => exact hc
    | @ahead d _ _ _ hb => cases d <;> cases hc.symm.trans hb

theorem separable : Separable id (.control 0) (fun _ _ _ => True) (Missing th₀ k₀) where
  alone := fun h => h.alone
  alike := fun h => h.alike
  own := fun h _ ha => h.own ha
  routine := fun h _ hn _ => h.routine hn

theorem begin {c : HandleCall} {d : Control} (hg : th₀.Gated) (ht : th₀.Timely)
    (hn : th₀.controls = []) (hd : Control.begin? c = some d) (h : th₀.begin? c = some th)
    (k : Option Mock.Task) : Missing th₀ k th k th₀ k := by
  obtain ⟨hc, ho, ⟨f, hf, rfl⟩ | ⟨-, w, hw, -⟩⟩ := Thread.begin_cases h
  · cases hd.symm.trans hf
    refine ⟨⟨hc, .inr ⟨rfl, Owner.eq_rest ho, d, by rw [hn]⟩⟩, ?_, ht.begin h, ⟨rfl, rfl, rfl⟩,
      fun c hm _ => ⟨rfl, rfl, .refl th₀, th₀.shared.object, ?_, ?_⟩⟩
    · have hk := hg.creation
      rwa [hc] at hk
    · rw [hn] at hm
      cases List.mem_singleton.mp hm
      exact .level (Control.begin_pending hd)
    · simp only [Thread.without, ← hn]
  · cases c with
    | hold d own supported => cases hw
    | priority p native own => cases hw
    | _ => cases hd

theorem finish {c : Control} {f : ErrorKind} (hm : Missing th₀ k₀ th k th' k')
    (hc : c ∈ th.controls) (hf : c.verdict? = some (.error f)) :
    th.finish? (.control 0) = some th' ∧ k' = k ∧ k = k₀ ∧ th₀.Since th' := by
  obtain ⟨hs, hp, he⟩ := Control.failed hf
  obtain ⟨rfl, rfl, hi, b, hb, rfl⟩ := hm.failing c hc hs
  refine ⟨?_, rfl, rfl, hi⟩
  obtain ⟨h, -⟩ | ⟨-, -, d, hd⟩ := hm.alone.call
  · cases h
  rw [hd] at hc
  cases List.mem_singleton.mp hc
  simp [Thread.finish?, hd, he, Thread.without, hb.of_level hp]

end Missing

/-! ## Joins and destroys of foreign handles -/

def Owner.answer? : Owner V → Option (Outcome Unit)
  | .joining _ (.done r) => some (r.map fun _ => ())
  | .destroying _ (.done r) => some r
  | .dropping _ .done => some (.ok ())
  | _ => none

/-- A join or destroy through a manager that the handle does not belong to. -/
def HandleCall.foreign : HandleCall → Bool
  | .join own _ => !own
  | .destroy own => !own
  | _ => false

theorem Owner.begin_foreign {joined : Bool} {c : HandleCall} (hc : c.foreign = true) :
    ∃ w : Owner V, Owner.begin? joined c = some w ∧
      w.answer? = some (.error .invalidParameter) ∧ w.finish? = some .rest ∧
      ∀ id, w.next id = .done () := by
  cases c with
  | join own native =>
    cases own with
    | true => cases hc
    | false => exact ⟨_, rfl, rfl, rfl, fun _ => rfl⟩
  | destroy own =>
    cases own with
    | true => cases hc
    | false => exact ⟨_, rfl, rfl, rfl, fun _ => rfl⟩
  | _ => cases hc

structure Refused (w : Owner V) (th₀ : Thread V) (k₀ : Option Mock.Task) (th : Thread V)
    (k : Option Mock.Task) (th' : Thread V) (k' : Option Mock.Task) : Prop where
  creation : th.creation = .done (.ok ())
  controls : th.controls = []
  owner : th.owner = w
  timely : th.Timely
  without : th' = { th with owner := .rest }
  record : k = k₀ ∧ k' = k₀
  since : th₀.Since th'

theorem Refused.begin {w : Owner V} {c : HandleCall} {th₀ th : Thread V} (ht : th₀.Timely)
    (hw : Owner.begin? th₀.shared.joined c = some w) (h : th₀.begin? c = some th)
    (k : Option Mock.Task) : Refused w th₀ k th k th₀ k := by
  obtain ⟨hc, ho, ⟨d, hd, -⟩ | ⟨hn, v, hv, rfl⟩⟩ := Thread.begin_cases h
  · cases c with
    | hold d own supported => cases hw
    | priority p native own => cases hw
    | _ => cases hd
  · cases hw.symm.trans hv
    refine ⟨hc, hn, rfl, ht.begin h, ?_, ⟨rfl, rfl⟩, .refl th₀⟩
    rw [← Owner.eq_rest ho]

theorem Refused.finish {w : Owner V} {th₀ th th' : Thread V} {k₀ k k' : Option Mock.Task}
    (hr : Refused w th₀ k₀ th k th' k') (hw : w.finish? = some .rest) :
    th.finish? .owner = some th' ∧ k' = k ∧ k = k₀ ∧ th₀.Since th' := by
  refine ⟨?_, hr.record.2.trans hr.record.1.symm, hr.record.1, hr.since⟩
  rw [hr.without, Thread.finish?, hr.owner, hw]
  rfl

theorem Refused.separable {id : ObjectId} {w : Owner V} {th₀ : Thread V} {k₀ : Option Mock.Task}
    (hw : w.next id = .done ()) :
    Separable id .owner (fun _ _ _ => True) (Refused w th₀ k₀) where
  alone := fun h => ⟨h.creation, .inl ⟨rfl, h.controls⟩⟩
  alike := fun h => by rw [h.without]; exact ⟨rfl, rfl, rfl⟩
  own := fun h _ ha => by
    unfold Thread.perform? at ha
    rw [Thread.next, h.owner, hw] at ha
    cases ha
  routine := fun h _ hn _ => by
    have hs := h.since
    refine ⟨h.creation, h.controls, h.owner, h.timely.onward hn, by rw [h.without]; rfl, h.record,
      ?_⟩
    rw [h.without] at hs ⊢
    exact hs.onward hn fun hr => h.timely.fresh (by rw [show _ = Routine.Pc.begin from hr]; rfl)

/-! ## Runs of several managers -/

namespace World

variable {id : ObjectId} {call : HandleCall} {p : Party} {capacity : Nat → Nat}
  {before during : List (Nat × Move V)} {m : Nat} {F G H : Nat → World V × Ledger}

/-- The call has returned, and all managers are as in the run in which everybody
else does the same and the call is not made. On the thread itself only its own
routine has acted, and the backend's record of it is the same. -/
structure Undone (m : Nat) (id : ObjectId) (p : Party) (during : List (Nat × Move V))
    (F G H : Nat → World V × Ledger) : Prop where
  returns : beside? kept? (m, .finish id p) G = some H
  without : run? (beside? kept?) (during.filter fun c => !(c.1 = m && c.2.isBy id p)) F = some H
  record : (H m).2 id = (F m).2 id
  since : ∃ th₀ th, (F m).1.threads id = some th₀ ∧ (H m).1.threads id = some th ∧ th₀.Since th

theorem stepsOf_without (m q : Nat) (cs : List (Nat × Move V)) :
    stepsOf q (cs.filter fun c => !(c.1 = m && c.2.isBy id p)) =
      if q = m then (stepsOf m cs).filter fun c => !c.isBy id p else stepsOf q cs := by
  by_cases hq : q = m
  · subst hq
    rw [if_pos rfl, stepsOf, stepsOf, List.filter_map, List.filter_filter, List.filter_filter]
    congr 2
    funext c
    by_cases hc : c.1 = q <;> simp [hc]
  · rw [if_neg hq, stepsOf, stepsOf, List.filter_filter]
    congr 2
    funext c
    by_cases hc : c.1 = q <;> simp [hc, hq]

theorem undone_beside {u : World V × Ledger}
    (hG : run? (beside? kept?) ((m, .begin id call) :: during) F = some G)
    (hr : kept? (.finish id p) (G m) = some u)
    (hw : run? kept? ((stepsOf m during).filter fun c => !c.isBy id p) (F m) = some u)
    (hk : u.2 id = (F m).2 id)
    (hs : ∃ th₀ th, (F m).1.threads id = some th₀ ∧ u.1.threads id = some th ∧ th₀.Since th) :
    Undone m id p during F G (Function.update G m u) where
  returns := by simp [beside?, hr]
  without := by
    refine run_beside.mpr fun q => ?_
    rw [stepsOf_without]
    by_cases hq : q = m
    · subst hq
      rwa [if_pos rfl, Function.update_self]
    · have h := run_beside.mp hG q
      rw [stepsOf_cons, if_neg (Ne.symm hq)] at h
      rwa [if_neg hq, Function.update_of_ne hq]
  record := by rwa [Function.update_self]
  since := by rwa [Function.update_self]

theorem within_stepsOf (hd : ∀ c ∈ during, c.1 = m → c.2.within id = true) :
    ∀ c ∈ stepsOf m during, c.within id = true := by
  intro c hc
  obtain ⟨⟨q, c⟩, hq, rfl⟩ := List.mem_map.mp hc
  obtain ⟨hq, he⟩ := List.mem_filter.mp hq
  exact hd _ hq (of_decide_eq_true he)

theorem undone_of {R : Thread V → Option Mock.Task → Thread V → Option Mock.Task → Prop}
    {th₀ th₁ th : Thread V} (hR : Separable id p (fun _ _ _ => True) R)
    (hG : run? (beside? kept?) ((m, .begin id call) :: during) F = some G)
    (hm : run? kept? (stepsOf m during) ((F m).1.put id th₁ (F m).1.table, (F m).2) = some (G m))
    (hd : ∀ c ∈ during, c.1 = m → c.2.within id = true)
    (ht : (F m).1.threads id = some th₀) (hr : R th₁ ((F m).2 id) th₀ ((F m).2 id))
    (hu : (G m).1.threads id = some th)
    (hf : ∀ th' k', R th ((G m).2 id) th' k' → th.finish? p = some th' ∧ k' = (G m).2 id ∧
      (G m).2 id = (F m).2 id ∧ th₀.Since th') : ∃ H, Undone m id p during F G H := by
  obtain ⟨u, hrun, hw⟩ := run_begun hR hm (within_stepsOf hd) (acts_trivial ..) ht hr
  obtain ⟨th', ht', hR', hret⟩ := hw.returned (g := fun th => th) hu fun th' k' h =>
    ⟨(hf th' k' h).1, (hf th' k' h).2.1⟩
  obtain ⟨-, hk, hk₀, hs⟩ := hf th' _ hR'
  have hu : u.1.put id th' u.1.table = u.1 := by
    rw [put, ← ht', Function.update_eq_self]
  rw [hu] at hret
  exact ⟨_, undone_beside hG hret hrun (hk.trans hk₀) ⟨th₀, th', ht, ht', hs⟩⟩

/-- A call that ends with an error has no effect, whatever the backend answers
and whatever else goes on, the end of the thread included. If no other call that
sets the priority, suspends or resumes is made on the handle meanwhile, such a
call that fails leaves all managers as they are in the run without it. So does a
join or a destroy through a manager that the handle does not belong to, which
always ends as an invalid parameter. -/
theorem failed_calls_change_nothing
    (hF : run? (beside? kept?) before (fun q => unkept (capacity q)) = some F)
    (hG : run? (beside? kept?) ((m, .begin id call) :: during) F = some G)
    (hd : ∀ c ∈ during, c.1 = m → c.2.within id = true) :
    (∀ d c f th₀ th, Control.begin? call = some d → (F m).1.threads id = some th₀ →
      th₀.controls = [] → (G m).1.threads id = some th → c ∈ th.controls →
      c.verdict? = some (.error f) → ∃ H, Undone m id (.control 0) during F G H) ∧
    (call.foreign = true → ∃ th H, (G m).1.threads id = some th ∧
      th.owner.answer? = some (.error .invalidParameter) ∧ Undone m id .owner during F G H) := by
  have hp := run_beside.mp hF m
  have hm := run_beside.mp hG m
  rw [stepsOf_cons, if_pos rfl] at hm
  obtain ⟨th₀, th₁, ht, hb, -, hm⟩ := run_begins hm
  have htime : th₀.Timely := moves_keep .new .begin .perform .finish hp ht
  constructor
  · intro d c f th th₂ hc hq hn hu hmem hf
    cases ht.symm.trans hq
    have hg : th₀.Gated := moves_keep .new .begin .perform .finish hp ht
    exact undone_of Missing.separable hG hm hd ht (.begin hg htime hn hc hb _) hu
      fun th' k' hR => hR.finish hmem hf
  · intro hc
    obtain ⟨w, hw, ha, hfin, hdone⟩ : ∃ w : Owner V,
        Owner.begin? th₀.shared.joined call = some w ∧ _ := Owner.begin_foreign hc
    have hr : Refused w th₀ ((F m).2 id) th₁ ((F m).2 id) th₀ ((F m).2 id) := .begin htime hw hb _
    obtain ⟨u, -, hwo⟩ :=
      run_begun (Refused.separable (hdone id)) hm (within_stepsOf hd) (acts_trivial ..) ht hr
    obtain ⟨th, th', hu, -, hR⟩ := hwo.thread
    obtain ⟨H, hH⟩ := undone_of (Refused.separable (hdone id)) hG hm hd ht hr hu
      fun th' k' hR => hR.finish hfin
    exact ⟨th, H, hu, hR.owner ▸ ha, hH⟩

def unsuspending : Setting Unit where
  backend
    | .suspend => .error .unknown
    | c => Oracle.agreeable.backend c
  body := some ()
  latch := .working

def threadStarted : List (Nat × Move Unit) :=
  (0, .create ⟨1, .default, 1⟩) :: List.replicate 5 (0, .act 1 .creator unsuspending) ++
    List.replicate 2 (0, .act 1 .routine unsuspending)

/-- The thread ends after a suspension has changed its state and before the
backend refuses it. The other manager creates a thread. -/
def endsMeanwhile : List (Nat × Move Unit) :=
  List.replicate 2 (0, .act 1 (.control 0) unsuspending) ++
    List.replicate 3 (0, .act 1 .routine unsuspending) ++ (1, .create ⟨1, .default, 1⟩) ::
    List.replicate 3 (0, .act 1 (.control 0) unsuspending)

/-- The suspension is refused and the thread is Terminated, and a join through
the other manager is refused and the thread is not joined. -/
theorem refused_without_effect : ∃ F G J H K : Nat → World Unit × Ledger,
    run? (beside? kept?) threadStarted (fun _ => unkept 1) = some F ∧
    run? (beside? kept?) ((0, .begin 1 (.hold .suspend true true)) :: endsMeanwhile) F = some G ∧
    Undone 0 1 (.control 0) endsMeanwhile F G H ∧
    (∃ th, (H 0).1.threads 1 = some th ∧ th.shared.object.state = .terminated) ∧
    run? (beside? kept?)
      ((0, .begin 1 (.join false true)) :: List.replicate 3 (0, .act 1 .routine unsuspending)) F =
        some J ∧
    Undone 0 1 .owner (List.replicate 3 (0, .act 1 .routine unsuspending)) F J K := by
  obtain ⟨F, hF⟩ : ∃ F, run? (beside? kept?) threadStarted (fun _ => unkept 1) = some F :=
    ⟨_, rfl⟩
  obtain ⟨G, hG, th₀, th, ht, hn, hu, hc⟩ : ∃ G,
      run? (beside? kept?) ((0, .begin 1 (.hold .suspend true true)) :: endsMeanwhile) F =
        some G ∧
      ∃ th₀ th, (F 0).1.threads 1 = some th₀ ∧ th₀.controls = [] ∧
        (G 0).1.threads 1 = some th ∧ th.controls = [.hold .suspend (.done (.error .unknown))] := by
    cases hF
    exact ⟨_, rfl, _, _, rfl, rfl, rfl, rfl⟩
  obtain ⟨J, hJ⟩ : ∃ J, run? (beside? kept?)
      ((0, .begin 1 (.join false true)) :: List.replicate 3 (0, .act 1 .routine unsuspending)) F =
        some J := by
    cases hF
    exact ⟨_, rfl⟩
  obtain ⟨H, hH⟩ := (failed_calls_change_nothing hF hG (by decide)).1 _ _ .unknown th₀ th rfl ht
    hn hu (by rw [hc]; exact List.mem_singleton_self _) rfl
  obtain ⟨-, K, -, -, hK⟩ := (failed_calls_change_nothing hF hJ (by decide)).2 rfl
  refine ⟨F, G, J, H, K, hF, hG, hH, ?_, hJ, hK⟩
  have hr := hH.returns
  cases hF
  cases hG
  cases hr
  exact ⟨_, rfl, rfl⟩

end World

end SyncCore.Manager

import Mathlib.Algebra.Group.Nat.Even
import SyncCore.Proofs.Manager.Accounting

/-!
# Suspension by state and by backend

Suspending and resuming change the state first and call the backend second,
and a refused call is undone by a second exchange. Calls that overlap can
cross: the backend is asked for what it already does, or the undoing exchange
finds a state that another call has written. Each crossing turns agreement
between the state and the backend into disagreement or back.
-/

set_option autoImplicit false

namespace SyncCore.Manager

variable {V : Type}

/-- A call whose change of the state the backend has not followed yet. -/
def Control.pending : Control → Nat
  | .hold _ .look => 1
  | .hold _ .call => 1
  | .hold _ (.undo _) => 1
  | _ => 0

def Control.isHold : Control → Bool
  | .hold _ _ => true
  | .priority _ _ _ => false

theorem Hold.origin_live (h : Hold) : h.origin ≠ .terminated := by
  cases h <;> decide

theorem Hold.target_live (h : Hold) : h.target ≠ .terminated := by
  cases h <;> decide

def Hold.wanted : Hold → Bool
  | .suspend => true
  | .resume => false

def Hold.answer (o : Oracle V) : Hold → Outcome Unit
  | .suspend => o.backend .suspend
  | .resume => o.backend .resume

/-- An action of a suspension or resumption that another call has come before:
the backend does already what it is asked for, or the state to be taken back
has changed. -/
def Hold.crosses (o : Oracle V) (s : Shared V) (h : Hold) : Hold.Pc → Bool
  | .call => (h.answer o).isOk && s.held = h.wanted
  | .undo _ => s.object.state ≠ h.target
  | _ => false

def Control.crosses (o : Oracle V) (s : Shared V) : Control → Bool
  | .hold h pc => h.crosses o s pc
  | .priority _ _ _ => false

def Thread.crosses (o : Oracle V) (th : Thread V) : Party → Bool
  | .control k => th.controls[k]?.any fun c => c.crosses o th.shared
  | _ => false

def crosses (id : ObjectId) (w : World V) : Choice V → Bool
  | .act p q o => p = id && (w.threads id).any fun th => th.crosses o q
  | _ => false

def Create.Pc.bound : Create.Pc → Bool
  | .spawn => false
  | .spawnWarn _ => false
  | .bind _ => false
  | .done (.error _) => false
  | _ => true

def Routine.Pc.starting : Routine.Pc V → Bool
  | .gate => true
  | .wait => true
  | .begin => true
  | _ => false

def Thread.discord (th : Thread V) : Nat :=
  (decide (th.shared.object.state = .suspended)).toNat + th.shared.held.toNat

def Thread.pending (th : Thread V) : Nat := (th.controls.map Control.pending).sum

structure Matched (crossed : Nat) (th : Thread V) : Prop where
  bound : th.creation.bound = true → th.shared.object.binding.isSome = true
  controlled : th.controls ≠ [] → th.creation = .done (.ok ())
  fresh : th.routine.starting = true → th.shared.object.state = .created
  even : th.shared.object.state ≠ .terminated →
    (th.discord + th.pending + crossed) % 2 = 0

/-! ## Effects on the state and the backend -/

structure Still (s s' : Shared V) : Prop where
  state : s'.object.state = s.object.state
  held : s'.held = s.held
  binding : s.object.binding.isSome = true → s'.object.binding.isSome = true

def Action.still : Action V → Bool
  | .cell (.storeState _) => false
  | .cell (.exchangeState _ _) => false
  | .backend .suspend => false
  | .backend .resume => false
  | _ => true

/-- The routine stores Running once and Terminated once, and touches neither
the state nor the backend otherwise. -/
theorem Routine.next_cases {id : ObjectId} {pc : Routine.Pc V} {a : Action V}
    {resume : a.Answer → Routine.Pc V} (h : Routine.next id pc = .act a resume) :
    pc = .begin ∨ pc = .terminate ∨
      (a.still = true ∧ ∀ x, (resume x).starting = true → pc.starting = true) := by
  cases pc with
  | gate => exact .inr (.inr (by cases h; exact ⟨rfl, fun _ _ => rfl⟩))
  | wait => exact .inr (.inr (by cases h; exact ⟨rfl, fun _ _ => rfl⟩))
  | begin => exact .inl rfl
  | body => exact .inr (.inr (by cases h; exact ⟨rfl, by rintro (_ | v) <;> exact nofun⟩))
  | put v => exact .inr (.inr (by cases h; exact ⟨rfl, nofun⟩))
  | terminate => exact .inr (.inl rfl)
  | look => exact .inr (.inr (by cases h; exact ⟨rfl, by rintro (_ | _) <;> exact nofun⟩))
  | unregister =>
    cases h
    refine .inr (.inr ⟨rfl, ?_⟩)
    rintro (e | u)
    · by_cases hb : e = .notFound <;> simp [hb, Routine.Pc.starting]
    · exact nofun
  | unregisterWarn e => exact .inr (.inr (by cases h; exact ⟨rfl, nofun⟩))
  | done => cases h

section Effects

variable {o : Oracle V} {id : ObjectId} {t t' : Table} {s s' : Shared V}

theorem effect_still {a : Action V} {x : a.Answer} (h : effect o id a (t, s) = some (x, t', s'))
    (hq : a.still = true) : Still s s' := by
  cases a with
  | cell c =>
    cases h
    cases c with
    | storeState d => cases hq
    | exchangeState e d => cases hq
    | bind b => exact ⟨rfl, rfl, fun hb => by simp [CellAction.perform]⟩
    | _ => exact ⟨rfl, rfl, fun hb => hb⟩
  | backend c =>
    cases h
    cases c with
    | suspend => cases hq
    | resume => cases hq
    | _ => exact ⟨rfl, rfl, fun hb => hb⟩
  | table c =>
    cases c with
    | register =>
      obtain ⟨r, -, hr⟩ := Option.map_eq_some_iff.mp h
      cases hr
      exact ⟨rfl, rfl, fun hb => hb⟩
    | unregister =>
      obtain ⟨r, -, hr⟩ := Option.map_eq_some_iff.mp h
      cases hr
      exact ⟨rfl, rfl, fun hb => hb⟩
    | find => cases h
  | _ =>
    cases h
    exact ⟨rfl, rfl, fun hb => hb⟩

theorem exchange_found {b : ThreadObject V} {e d : ThreadState} (h : b.state = e)
    (he : e ≠ .terminated) :
    b.exchangeState e d = (true, { b with stateWord := d.word }) :=
  if_pos (ThreadState.word_of_ofWord h he)

theorem exchange_missed {b : ThreadObject V} {e d : ThreadState} (h : b.state ≠ e) :
    b.exchangeState e d = (false, b) := by
  unfold ThreadObject.exchangeState
  rw [if_neg]
  intro hw
  exact h (by rw [ThreadObject.state, hw, ThreadState.ofWord_word])

theorem effect_exchange {e d : ThreadState} {x : Bool} (he : e ≠ .terminated)
    (h : effect o id (.cell (.exchangeState e d)) (t, s) = some (x, t', s')) :
    (s.object.state = e ∧ x = true ∧ s'.object.state = d ∧ s'.held = s.held ∧
      s'.object.binding = s.object.binding) ∨ (s.object.state ≠ e ∧ x = false ∧ s' = s) := by
  by_cases hs : s.object.state = e
  · simp only [effect, CellAction.perform, exchange_found hs he] at h
    cases h
    exact .inl ⟨hs, rfl, ThreadState.ofWord_word d, rfl, rfl⟩
  · simp only [effect, CellAction.perform, exchange_missed hs] at h
    cases h
    exact .inr ⟨hs, rfl, rfl⟩

theorem Create.still {r : Create.Request} {pc : Create.Pc} {a : Action V}
    {resume : a.Answer → Create.Pc} {x : a.Answer} (hn : Create.next r pc = .act a resume)
    (he : effect o id a (t, s) = some (x, t', s')) : Still s s' :=
  effect_still he (by cases pc <;> cases hn <;> rfl)

theorem Owner.still {w w' : Owner V} (h : w.act? o id (t, s) = some (w', t', s')) :
    Still s s' := by
  obtain ⟨k, pc, a, r, x, -, hn, he, -⟩ | ⟨j, pc, a, r, x, -, hn, he, -⟩ |
    ⟨j, pc, a, r, x, -, hn, he, -⟩ := Owner.act_cases h
  all_goals exact effect_still he (by cases pc <;> cases hn <;> rfl)

/-- What a step of a suspension or resumption of a bound thread is: the change
of the state, a call that the backend agrees to, the change taken back, an
attempt to take it back that comes too late, or nothing that matters. -/
theorem Hold.step_cases {h : Hold} {pc : Hold.Pc} {a : Action V} {resume : a.Answer → Hold.Pc}
    {x : a.Answer} (hb : s.object.binding.isSome = true) (hn : Hold.next id h pc = .act a resume)
    (he : effect o id a (t, s) = some (x, t', s')) :
    (pc = .exchange ∧ resume x = .look ∧ s.object.state = h.origin ∧
      s'.object.state = h.target ∧ s'.held = s.held ∧ s'.object.binding = s.object.binding) ∨
    (pc = .call ∧ resume x = .done (.ok ()) ∧ (h.answer o).isOk = true ∧
      s'.object = s.object ∧ s'.held = h.wanted) ∨
    (∃ e, pc = .undo e ∧ resume x = .warn e ∧ s.object.state = h.target ∧
      s'.object.state = h.origin ∧ s'.held = s.held ∧ s'.object.binding = s.object.binding) ∨
    (∃ e, pc = .undo e ∧ resume x = .warn e ∧ s.object.state ≠ h.target ∧ s' = s) ∨
    (s' = s ∧ (Control.hold h (resume x)).pending = (Control.hold h pc).pending ∧
      h.crosses o s pc = false) := by
  cases pc with
  | exchange =>
    cases hn
    obtain ⟨hs, rfl, ht, hh, hb⟩ | ⟨-, rfl, rfl⟩ := effect_exchange h.origin_live he
    · exact .inl ⟨rfl, rfl, hs, ht, hh, hb⟩
    · exact .inr (.inr (.inr (.inr ⟨rfl, rfl, rfl⟩)))
  | look =>
    cases hn
    cases he
    refine .inr (.inr (.inr (.inr ⟨rfl, ?_, rfl⟩)))
    simp [CellAction.perform, hb, Control.pending]
  | call =>
    cases h with
    | suspend =>
      cases hn
      cases he
      cases ha : o.backend .suspend with
      | ok u =>
        refine .inr (.inl ⟨rfl, rfl, ?_, rfl, rfl⟩)
        simp [answer, ha, Except.isOk, Except.toBool]
      | error e =>
        refine .inr (.inr (.inr (.inr ⟨rfl, rfl, ?_⟩)))
        simp [crosses, answer, ha, Except.isOk, Except.toBool]
    | resume =>
      cases hn
      cases he
      cases ha : o.backend .resume with
      | ok u =>
        refine .inr (.inl ⟨rfl, rfl, ?_, rfl, rfl⟩)
        simp [answer, ha, Except.isOk, Except.toBool]
      | error e =>
        refine .inr (.inr (.inr (.inr ⟨rfl, rfl, ?_⟩)))
        simp [crosses, answer, ha, Except.isOk, Except.toBool]
  | undo e =>
    cases hn
    obtain ⟨hs, rfl, ht, hh, hb⟩ | ⟨hs, rfl, rfl⟩ :=
      effect_exchange h.target_live he
    · exact .inr (.inr (.inl ⟨e, rfl, rfl, hs, ht, hh, hb⟩))
    · exact .inr (.inr (.inr (.inl ⟨e, rfl, rfl, hs, rfl⟩)))
  | warn e =>
    cases hn
    cases he
    exact .inr (.inr (.inr (.inr ⟨rfl, rfl, rfl⟩)))
  | done r => cases hn

end Effects

/-! ## Counting what is pending -/

theorem pending_set {cs : List Control} {k : Nat} {c : Control} (h : cs[k]? = some c)
    (c' : Control) : ((cs.set k c').map Control.pending).sum + c.pending =
      (cs.map Control.pending).sum + c'.pending := by
  induction cs generalizing k with
  | nil => cases h
  | cons d cs ih =>
    cases k with
    | zero =>
      cases h
      simp only [List.set_cons_zero, List.map_cons, List.sum_cons]
      omega
    | succ k =>
      have := ih (List.getElem?_cons_succ ▸ h)
      simp only [List.set_cons_succ, List.map_cons, List.sum_cons]
      omega

theorem pending_erase {cs : List Control} {k : Nat} {c : Control} (h : cs[k]? = some c) :
    ((cs.eraseIdx k).map Control.pending).sum + c.pending = (cs.map Control.pending).sum := by
  induction cs generalizing k with
  | nil => cases h
  | cons d cs ih =>
    cases k with
    | zero =>
      cases h
      simp only [List.eraseIdx_cons_zero, List.map_cons, List.sum_cons]
      omega
    | succ k =>
      have := ih (List.getElem?_cons_succ ▸ h)
      simp only [List.eraseIdx_cons_succ, List.map_cons, List.sum_cons]
      omega

theorem Control.begin_pending {h : HandleCall} {c : Control} (hc : Control.begin? h = some c) :
    c.pending = 0 := by
  cases h with
  | hold d own supported => cases hc; cases own <;> cases supported <;> rfl
  | priority p native own =>
    cases hc
    rfl
  | _ => cases hc

theorem Control.ended_pending {c : Control} (h : c.ended = true) : c.pending = 0 := by
  cases c with
  | hold d pc => cases pc <;> first | rfl | cases h
  | priority p native pc => rfl

/-! ## What a step of each party preserves -/

namespace Matched

variable {o : Oracle V} {id : ObjectId} {t t' : Table} {s' : Shared V} {th th' : Thread V}
  {n : Nat}

theorem new (r : Create.Request) : Matched 0 (.new r : Thread V) where
  bound := nofun
  controlled := fun h => absurd rfl h
  fresh := fun _ => rfl
  even := fun _ => rfl

theorem of_still (hm : Matched n th) (hs : Still th.shared th'.shared)
    (hc : th'.controls = th.controls)
    (hb : th'.creation.bound = true → th'.shared.object.binding.isSome = true)
    (hd : th.creation = .done (.ok ()) → th'.creation = .done (.ok ()))
    (hr : th'.routine.starting = true → th.routine.starting = true) : Matched n th' where
  bound := hb
  controlled := fun h => hd (hm.controlled (hc ▸ h))
  fresh := fun h => hs.state.trans (hm.fresh (hr h))
  even := fun h => by
    have he := hm.even (hs.state ▸ h)
    simpa only [Thread.discord, Thread.pending, hs.state, hs.held, hc] using he

theorem creator {r : Create.Request} {a : Action V} {resume : a.Answer → Create.Pc} {x : a.Answer}
    (hm : Matched n th) (hn : Create.next r th.creation = .act a resume)
    (he : effect o id a (t, th.shared) = some (x, t', s')) :
    Matched n { th with creation := resume x, shared := s' } := by
  have hs := Create.still hn he
  refine hm.of_still hs rfl ?_ ?_ fun h => h
  · cases hp : th.creation with
    | bind b =>
      rw [hp] at hn
      cases hn
      cases he
      intro _
      simp [CellAction.perform]
    | spawn =>
      rw [hp] at hn
      cases hn
      intro hb
      rcases x with e | b <;> cases hb
    | done a =>
      rw [hp] at hn
      cases hn
    | spawnWarn e =>
      rw [hp] at hn
      cases hn
      intro hb
      cases hb
    | _ => exact fun _ => hs.binding (hm.bound (by rw [hp]; rfl))
  · intro hp
    rw [hp] at hn
    cases hn

theorem routine {a : Action V} {resume : a.Answer → Routine.Pc V} {x : a.Answer}
    (hm : Matched n th) (hn : Routine.next id th.routine = .act a resume)
    (he : effect o id a (t, th.shared) = some (x, t', s')) :
    Matched n { th with routine := resume x, shared := s' } := by
  obtain hp | hp | ⟨hq, hr⟩ := Routine.next_cases hn
  · rw [hp] at hn
    cases hn
    cases he
    have hf := hm.fresh (by rw [hp]; rfl)
    refine ⟨hm.bound, hm.controlled, nofun, fun _ => ?_⟩
    have hz := hm.even (by rw [hf]; exact nofun)
    simp only [Thread.discord, hf] at hz
    exact hz
  · rw [hp] at hn
    cases hn
    cases he
    exact ⟨hm.bound, hm.controlled, nofun, fun h => absurd rfl h⟩
  · have hs := effect_still he hq
    exact hm.of_still hs rfl (fun h => hs.binding (hm.bound h)) (fun h => h) (hr x)

theorem owner {w : Owner V} (hm : Matched n th)
    (h : th.owner.act? o id (t, th.shared) = some (w, t', s')) :
    Matched n { th with owner := w, shared := s' } := by
  have hs := Owner.still h
  exact hm.of_still hs rfl (fun h => hs.binding (hm.bound h)) (fun h => h) fun h => h

/-- A step of a control that changes state and backend by as much as it makes
pending, up to a crossing. -/
theorem of_control {k crossed : Nat} {c c' : Control} (hm : Matched n th)
    (hk : th.controls[k]? = some c)
    (hb : th.shared.object.binding.isSome = true → s'.object.binding.isSome = true)
    (hf : th.shared.object.state = .created → s'.object.state = .created)
    (he : s'.object.state ≠ .terminated → th.shared.object.state ≠ .terminated ∧
      ((decide (s'.object.state = .suspended)).toNat + s'.held.toNat + c'.pending + crossed +
        (decide (th.shared.object.state = .suspended)).toNat + th.shared.held.toNat +
        c.pending) % 2 = 0) :
    Matched (n + crossed) { th with controls := th.controls.set k c', shared := s' } where
  bound := fun h => hb (hm.bound h)
  controlled := fun _ => hm.controlled fun hc => by rw [hc] at hk; cases hk
  fresh := fun h => hf (hm.fresh h)
  even := fun h => by
    obtain ⟨hs, hpar⟩ := he h
    have hz := hm.even hs
    have hp := pending_set hk c'
    simp only [Thread.discord, Thread.pending] at hz ⊢
    omega

theorem of_still_control {k : Nat} {c c' : Control} (hm : Matched n th)
    (hk : th.controls[k]? = some c) (hs : Still th.shared s') (hp : c'.pending = c.pending) :
    Matched n { th with controls := th.controls.set k c', shared := s' } := by
  change Matched (n + 0) _
  refine hm.of_control hk hs.binding (fun h => hs.state.trans h) fun h => ?_
  refine ⟨fun hz => h (hs.state.trans hz), ?_⟩
  rw [hs.state, hs.held, hp]
  omega

theorem control_bound {k : Nat} {c : Control} (hm : Matched n th)
    (hk : th.controls[k]? = some c) : th.shared.object.binding.isSome = true :=
  hm.bound (by
    rw [hm.controlled fun hc => by rw [hc] at hk; cases hk]
    rfl)

theorem hold {h : Hold} {pc : Hold.Pc} {a : Action V} {resume : a.Answer → Hold.Pc} {x : a.Answer}
    {k : Nat} (hm : Matched n th) (hk : th.controls[k]? = some (.hold h pc))
    (hn : Hold.next id h pc = .act a resume)
    (he : effect o id a (t, th.shared) = some (x, t', s')) :
    Matched (n + (h.crosses o th.shared pc).toNat)
      { th with controls := th.controls.set k (.hold h (resume x)), shared := s' } := by
  obtain ⟨rfl, hr, hs, hs', hh, hb⟩ | ⟨rfl, hr, ha, ho, hh⟩ | ⟨e, rfl, hr, hs, hs', hh, hb⟩ |
    ⟨e, rfl, hr, hs, rfl⟩ | ⟨rfl, hp, hc⟩ := Hold.step_cases (hm.control_bound hk) hn he
  · rw [hr]
    refine hm.of_control hk (fun hi => hb ▸ hi) (fun hf => ?_) fun _ => ⟨?_, ?_⟩
    · cases h <;> cases hs.symm.trans hf
    · exact hs ▸ h.origin_live
    · rw [hs, hs', hh]
      cases h <;> simp [Hold.origin, Hold.target, Control.pending, Hold.crosses] <;> omega
  · rw [hr]
    refine hm.of_control hk (fun hi => ho ▸ hi) (fun hf => ho ▸ hf) fun hz => ⟨ho ▸ hz, ?_⟩
    rw [ho, hh]
    cases h <;> cases hd : th.shared.held <;>
      simp [Control.pending, Hold.crosses, Hold.wanted, ha, hd] <;> omega
  · rw [hr]
    refine hm.of_control hk (fun hi => hb ▸ hi) (fun hf => ?_) fun _ => ⟨?_, ?_⟩
    · cases h <;> cases hs.symm.trans hf
    · exact hs ▸ h.target_live
    · rw [hs', hh, hs]
      cases h <;> simp [Hold.origin, Hold.target, Control.pending, Hold.crosses, hs] <;> omega
  · rw [hr]
    refine hm.of_control hk (fun hi => hi) (fun hf => hf) fun hz => ⟨hz, ?_⟩
    simp [Control.pending, Hold.crosses, hs]
    omega
  · rw [hc]
    exact hm.of_still_control hk ⟨rfl, rfl, fun hb => hb⟩ hp

theorem control {c c' : Control} {k : Nat} (hm : Matched n th) (hk : th.controls[k]? = some c)
    (h : c.act? o id (t, th.shared) = some (c', t', s')) :
    Matched (n + (c.crosses o th.shared).toNat)
      { th with controls := th.controls.set k c', shared := s' } := by
  obtain ⟨d, pc, a, r, x, rfl, hn, he, rfl⟩ | ⟨q, native, pc, a, r, x, rfl, hn, he, rfl⟩ :=
    Control.act_cases h
  · exact hm.hold hk hn he
  · refine hm.of_still_control hk (effect_still he ?_) rfl
    cases pc <;> cases hn <;> rfl

/-- A crossing that leaves the thread terminated need not be counted. -/
theorem uncross {b : Bool} (hm : Matched (n + b.toNat) th)
    (hb : b = true → th.shared.object.state = .terminated) : Matched n th where
  bound := hm.bound
  controlled := hm.controlled
  fresh := hm.fresh
  even := fun hs => by
    cases b with
    | false => exact hm.even hs
    | true => exact absurd (hb rfl) hs

theorem act {p : Party} (hm : Matched n th) (h : th.act? o id t p = some (t', th')) :
    Matched (n + (th.crosses o p).toNat) th' := by
  obtain ⟨a, r, x, s', rfl, hn, he, rfl⟩ | ⟨a, r, x, s', rfl, hn, he, rfl⟩ |
    ⟨w, s', rfl, ha, rfl⟩ | ⟨k, c, c', s', rfl, hk, ha, rfl⟩ := Thread.act_cases h
  · exact hm.creator hn he
  · exact hm.routine hn he
  · exact hm.owner ha
  · have hc := hm.control hk ha
    simpa only [Thread.crosses, hk, Option.any_some] using hc

theorem begin {c : HandleCall} (hm : Matched n th) (h : th.begin? c = some th') :
    Matched n th' := by
  obtain ⟨hd, -, ⟨k, hk, rfl⟩ | ⟨-, w, hw, rfl⟩⟩ := Thread.begin_cases h
  · refine ⟨hm.bound, fun _ => hd, hm.fresh, fun hs => ?_⟩
    have hz := hm.even hs
    simpa [Thread.discord, Thread.pending, Control.begin_pending hk] using hz
  · exact hm.of_still ⟨rfl, rfl, fun hb => hb⟩ rfl hm.bound (fun h => h) fun h => h

theorem finish {p : Party} (hm : Matched n th) (h : th.finish? p = some th') :
    Matched n th' := by
  obtain ⟨w, hw, rfl⟩ | ⟨k, c, hk, hc, rfl⟩ := Thread.finish_cases h
  · exact hm.of_still ⟨rfl, rfl, fun hb => hb⟩ rfl hm.bound (fun h => h) fun h => h
  · refine ⟨hm.bound, fun hne => hm.controlled ?_, hm.fresh, fun hs => ?_⟩
    · intro he
      simp [he] at hne
    · have hz := hm.even hs
      have hp := pending_erase hk
      rw [Control.ended_pending hc] at hp
      simp only [Thread.discord, Thread.pending] at hz ⊢
      omega

theorem agrees_iff (hm : Matched n th) (hp : th.pending = 0)
    (hs : th.shared.object.state ≠ .terminated) :
    (th.shared.object.state = .suspended ↔ th.shared.held = true) ↔ Even n := by
  have hz := hm.even hs
  rw [hp, Thread.discord] at hz
  rw [Nat.even_iff]
  by_cases hd : th.shared.object.state = .suspended <;> cases hh : th.shared.held <;>
    simp [hd, hh] at hz ⊢ <;> omega

end Matched

end SyncCore.Manager

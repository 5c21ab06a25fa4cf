import Mathlib.Algebra.Order.BigOperators.Group.List
import Mathlib.Algebra.Order.Group.Nat
import SyncCore.Proofs.Manager.Holding

/-!
# Agreement of the state with the backend

Over whole runs the parity of the crossings decides whether the state tells
what the backend does. Calls that change the state one at a time never cross.
-/

set_option autoImplicit false

namespace SyncCore.Manager

variable {V : Type}

/-! ## Changes that do not overlap -/

/-- At most one call is ahead of the backend, and the state is where this call
has put it. -/
structure Thread.Orderly (th : Thread V) : Prop where
  single : th.pending ≤ 1
  ahead : ∀ h pc, .hold h pc ∈ th.controls → (Control.hold h pc).pending = 1 →
    th.shared.object.state = h.target ∨ th.shared.object.state = .terminated

theorem pending_le {cs : List Control} {c : Control} (h : c ∈ cs) :
    c.pending ≤ (cs.map Control.pending).sum :=
  List.le_sum_of_mem (List.mem_map_of_mem h)

theorem Thread.settled {th : Thread V} (h : th.controls.all (fun c => !c.isHold) = true) :
    th.pending = 0 := by
  refine List.sum_eq_zero fun n hn => ?_
  obtain ⟨c, hc, rfl⟩ := List.mem_map.mp hn
  have hh := List.all_eq_true.mp h c hc
  cases c with
  | hold d pc => cases hh
  | priority p native pc => rfl

namespace Thread.Orderly

variable {o : Oracle V} {id : ObjectId} {t t' : Table} {s' : Shared V} {th th' : Thread V}

theorem new (r : Create.Request) : (Thread.new r : Thread V).Orderly where
  single := Nat.zero_le 1
  ahead := nofun

theorem of_settled (h : th.pending = 0) : th.Orderly where
  single := by omega
  ahead := fun d pc hc hp => by
    have := pending_le hc
    simp only [Thread.pending] at h
    omega

theorem of_state (ho : th.Orderly) (hc : th'.controls = th.controls)
    (hs : th'.shared.object.state = th.shared.object.state ∨
      th'.shared.object.state = .terminated ∨ th.shared.object.state = .created) :
    th'.Orderly where
  single := by
    have := ho.single
    simpa only [Thread.pending, hc] using this
  ahead := fun d pc hd hp => by
    have ha := ho.ahead d pc (hc ▸ hd) hp
    obtain hs | hs | hs := hs
    · rwa [hs]
    · exact .inr hs
    · rw [hs] at ha
      cases d <;> rcases ha with ha | ha <;> cases ha

theorem of_control {k : Nat} {d : Hold} {pc pc' : Hold.Pc} (ho : th.Orderly)
    (hk : th.controls[k]? = some (.hold d pc))
    (hs : s'.object.state = th.shared.object.state)
    (hp : (Control.hold d pc').pending ≤ (Control.hold d pc).pending) :
    Orderly { th with controls := th.controls.set k (.hold d pc'), shared := s' } where
  single := by
    have h := pending_set hk (.hold d pc')
    have h1 := ho.single
    simp only [Thread.pending] at h1 ⊢
    omega
  ahead := fun f q hf hq => by
    rw [hs]
    obtain hf | hf := List.mem_or_eq_of_mem_set hf
    · exact ho.ahead f q hf hq
    · cases hf
      have hm := List.mem_of_getElem? hk
      have hle := pending_le hm
      have h1 := ho.single
      simp only [Thread.pending] at h1
      exact ho.ahead d pc hm (by omega)

theorem hold {h : Hold} {pc : Hold.Pc} {a : Action V} {resume : a.Answer → Hold.Pc} {x : a.Answer}
    {k n : Nat} (ho : th.Orderly) (hm : Matched n th) (hk : th.controls[k]? = some (.hold h pc))
    (hn : Hold.next id h pc = .act a resume)
    (he : effect o id a (t, th.shared) = some (x, t', s'))
    (hl : Thread.pending { th with controls := th.controls.set k (.hold h (resume x)) } ≤ 1) :
    Orderly { th with controls := th.controls.set k (.hold h (resume x)), shared := s' } := by
  obtain ⟨rfl, hr, -, hs', -⟩ | ⟨rfl, hr, -, hs, -⟩ | ⟨e, rfl, hr, -⟩ | ⟨e, rfl, hr, -, rfl⟩ |
    ⟨rfl, hp, -⟩ := Hold.step_cases (hm.control_bound hk) hn he
  · rw [hr] at hl ⊢
    refine ⟨hl, fun f q hf hq => ?_⟩
    have hp := pending_set hk (.hold h .look)
    simp only [Thread.pending, Control.pending] at hl hp
    obtain hf | hf := List.mem_or_eq_of_mem_set hf
    · have := pending_le hf
      omega
    · cases hf
      exact .inl hs'
  · rw [hr]
    exact ho.of_control hk (congrArg ThreadObject.state hs) (Nat.zero_le 1)
  · rw [hr]
    refine of_settled ?_
    have hp := pending_set hk (.hold h (.warn e))
    have h1 := ho.single
    simp only [Thread.pending, Control.pending] at h1 hp ⊢
    omega
  · rw [hr]
    exact ho.of_control hk rfl (Nat.zero_le 1)
  · exact ho.of_control hk rfl hp.le

theorem control {c c' : Control} {k n : Nat} (ho : th.Orderly) (hm : Matched n th)
    (hk : th.controls[k]? = some c)
    (h : c.act? o id (t, th.shared) = some (c', t', s'))
    (hl : Thread.pending { th with controls := th.controls.set k c' } ≤ 1) :
    Orderly { th with controls := th.controls.set k c', shared := s' } := by
  obtain ⟨d, pc, a, r, x, rfl, hn, he, rfl⟩ | ⟨q, native, pc, a, r, x, rfl, hn, he, rfl⟩ :=
    Control.act_cases h
  · exact ho.hold hm hk hn he hl
  · have hs := effect_still he (by cases pc <;> cases hn <;> rfl)
    refine ⟨hl, fun f q hf hq => ?_⟩
    rw [hs.state]
    obtain hf | hf := List.mem_or_eq_of_mem_set hf
    · exact ho.ahead f q hf hq
    · cases hf

theorem uncrossed {c : Control} {k : Nat} (ho : th.Orderly) (hm : Matched 0 th)
    (hk : th.controls[k]? = some c) (hc : c.crosses o th.shared = true) :
    th.shared.object.state = .terminated := by
  have hmem := List.mem_of_getElem? hk
  have hle := pending_le hmem
  have h1 := ho.single
  simp only [Thread.pending] at h1
  cases c with
  | priority p native pc => cases hc
  | hold h pc =>
    cases pc with
    | call =>
      have hw : th.shared.held = h.wanted := by simp_all [Control.crosses, Hold.crosses]
      obtain hs | hs := ho.ahead h .call hmem rfl
      · have hz := hm.even (hs ▸ h.target_live)
        have h2 : th.pending = 1 := by
          simp only [Thread.pending, Control.pending] at hle ⊢
          omega
        rw [Thread.discord, h2, hs, hw] at hz
        cases h <;> cases hz
      · exact hs
    | undo e =>
      have hs : th.shared.object.state ≠ h.target := by
        simpa [Control.crosses, Hold.crosses] using hc
      exact (ho.ahead h (.undo e) hmem rfl).resolve_left hs
    | _ => cases hc

theorem act {p : Party} (ho : th.Orderly) (hm : Matched 0 th)
    (h : th.act? o id t p = some (t', th')) (hl : th'.pending ≤ 1) :
    th'.Orderly ∧ Matched 0 th' := by
  have hm' := hm.act h
  obtain ⟨a, r, x, s', rfl, hn, he, rfl⟩ | ⟨a, r, x, s', rfl, hn, he, rfl⟩ |
    ⟨w, s', rfl, ha, rfl⟩ | ⟨k, c, c', s', rfl, hk, ha, rfl⟩ := Thread.act_cases h
  · exact ⟨ho.of_state rfl (.inl (Create.still hn he).state), hm'⟩
  · refine ⟨ho.of_state rfl ?_, hm'⟩
    obtain hp | hp | ⟨hq, -⟩ := Routine.next_cases hn
    · exact .inr (.inr (hm.fresh (by rw [hp]; rfl)))
    · rw [hp] at hn
      cases hn
      cases he
      exact .inr (.inl rfl)
    · exact .inl (effect_still he hq).state
  · exact ⟨ho.of_state rfl (.inl (Owner.still ha).state), hm'⟩
  · refine ⟨ho.control hm hk ha hl, hm'.uncross fun hc => ?_⟩
    simp only [Thread.crosses, hk, Option.any_some] at hc
    exact (control_quiet ha).ended.mpr (ho.uncrossed hm hk hc)

theorem begin {c : HandleCall} (ho : th.Orderly) (h : th.begin? c = some th') : th'.Orderly := by
  obtain ⟨hd, -, ⟨k, hk, rfl⟩ | ⟨-, w, hw, rfl⟩⟩ := Thread.begin_cases h
  · have hp := Control.begin_pending hk
    refine ⟨?_, fun f q hf hq => ?_⟩
    · have h1 := ho.single
      simpa [Thread.pending, hp] using h1
    · obtain rfl | hf := List.mem_cons.mp hf
      · rw [hp] at hq
        cases hq
      · exact ho.ahead f q hf hq
  · exact ⟨ho.single, ho.ahead⟩

theorem finish {p : Party} (ho : th.Orderly) (h : th.finish? p = some th') : th'.Orderly := by
  obtain ⟨w, hw, rfl⟩ | ⟨k, c, hk, hc, rfl⟩ := Thread.finish_cases h
  · exact ⟨ho.single, ho.ahead⟩
  · refine ⟨?_, fun f q hf hq => ho.ahead f q (List.mem_of_mem_eraseIdx hf) hq⟩
    have h1 := ho.single
    have hp := pending_erase hk
    simp only [Thread.pending] at h1 ⊢
    omega

end Thread.Orderly

/-! ## Runs -/

namespace World

variable {V : Type} {w u : World V} {id : ObjectId} {n : Nat}

structure Watched (id : ObjectId) (w : World V) (n : Nat) : Prop where
  absent : w.threads id = none → n = 0
  present : ∀ th, w.threads id = some th → Matched n th

def Ordered (id : ObjectId) (w : World V) : Prop :=
  ∀ th, w.threads id = some th → th.Orderly ∧ Matched 0 th

def Apart (id : ObjectId) (_ : World V) (_ : Choice V) (u : World V) : Prop :=
  (u.threads id).all (fun th => th.pending ≤ 1) = true

instance (id : ObjectId) (w : World V) (c : Choice V) (u : World V) :
    Decidable (Apart id w c u) :=
  inferInstanceAs (Decidable (_ = true))

theorem crosses_other {c : Choice V} (h : ∀ p o, c ≠ .act id p o) : crosses id w c = false := by
  cases c with
  | act q p o =>
    have hq : q ≠ id := fun he => h p o (by rw [he])
    simp [crosses, hq]
  | _ => rfl

theorem Watched.of_present {th : Thread V} (hu : u.threads id = some th) (hm : Matched n th) :
    Watched id u n where
  absent := fun h => nomatch hu.symm.trans h
  present := fun _ h => Option.some.inj (hu.symm.trans h) ▸ hm

theorem watched_initial (capacity : Nat) :
    Watched id (initial capacity : World V) 0 where
  absent := fun _ => rfl
  present := fun _ h => by simp [initial] at h

theorem watched_step {c : Choice V} (hw : Watched id w n) (h : step? c w = some u) :
    Watched id u (n + (crosses id w c).toNat) := by
  obtain ⟨he, hc⟩ | ⟨r, hn, hu, rfl⟩ | ⟨th, th', k, ht, hu, rfl, hb⟩ |
    ⟨th, th', p, o, t, ht, hu, rfl, ha⟩ | ⟨th, th', p, ht, hu, rfl, hf⟩ := step_thread h id
  · rw [crosses_other hc]
    exact ⟨fun hn => hw.absent (he ▸ hn), fun th ht => hw.present th (he ▸ ht)⟩
  · rw [hw.absent hn]
    exact .of_present hu (.new r)
  · exact .of_present hu ((hw.present th ht).begin hb)
  · refine .of_present hu ?_
    simpa [crosses, ht] using (hw.present th ht).act ha
  · exact .of_present hu ((hw.present th ht).finish hf)

theorem ordered_step {c : Choice V} (hw : Ordered id w) (h : step? c w = some u)
    (hp : Apart id w c u) : Ordered id u := by
  intro th₁ ht₁
  obtain ⟨he, -⟩ | ⟨r, -, hu, -⟩ | ⟨th, th', k, ht, hu, -, hb⟩ |
    ⟨th, th', p, o, t, ht, hu, -, ha⟩ | ⟨th, th', p, ht, hu, -, hf⟩ := step_thread h id
  · exact hw th₁ (he ▸ ht₁)
  · cases hu.symm.trans ht₁
    exact ⟨.new r, .new r⟩
  · cases hu.symm.trans ht₁
    exact ⟨(hw th ht).1.begin hb, (hw th ht).2.begin hb⟩
  · cases hu.symm.trans ht₁
    refine (hw th ht).1.act (hw th ht).2 ha ?_
    simpa [Apart, hu] using hp
  · cases hu.symm.trans ht₁
    exact ⟨(hw th ht).1.finish hf, (hw th ht).2.finish hf⟩

/-- At rest, with no suspension or resumption going on, the state tells whether
the backend holds the thread suspended exactly if calls on the thread have
crossed an even number of times. It does in every run in which at most one call
at a time is ahead of the backend. -/
theorem suspension_agrees_iff {capacity : Nat} {cs : List (Choice V)} {th : Thread V}
    (h : run? step? cs (initial capacity) = some w) (ht : w.threads id = some th)
    (hc : th.controls.all (fun c => !c.isHold) = true)
    (hs : th.shared.object.state ≠ .terminated) :
    ((th.shared.object.state = .suspended ↔ th.shared.held = true) ↔
      Even (tally step? (crosses id) cs (initial capacity))) ∧
    (Throughout step? (Apart id) cs (initial capacity) →
      (th.shared.object.state = .suspended ↔ th.shared.held = true)) := by
  have hp := Thread.settled hc
  constructor
  · have hw : Watched id w (0 + tally step? (crosses id) cs (initial capacity)) :=
      run_keeps_tally (fun _ _ _ _ hw hst => watched_step hw hst) h (watched_initial capacity)
    rw [Nat.zero_add] at hw
    exact (hw.present th ht).agrees_iff hp hs
  · intro ha
    have hw : Ordered id w :=
      run_keeps_throughout (fun _ _ _ hw hst hp => ordered_step hw hst hp) h ha
        (fun _ h => by simp [initial] at h)
    exact ((hw th ht).2.agrees_iff hp hs).mpr Even.zero

def started : List (Choice Unit) :=
  [.create ⟨1, .default, 0⟩,
    .act 1 .creator .agreeable, .act 1 .creator .agreeable, .act 1 .creator .agreeable,
    .act 1 .creator .agreeable, .act 1 .creator .agreeable,
    .act 1 .routine .agreeable, .act 1 .routine .agreeable]

def suspendedOnce : List (Choice Unit) :=
  started ++
    [.begin 1 (.hold .suspend true true), .act 1 (.control 0) .agreeable,
      .act 1 (.control 0) .agreeable, .act 1 (.control 0) .agreeable, .finish 1 (.control 0)]

theorem suspended_once_agrees :
    ∃ (w : World Unit) (th : Thread Unit), run? step? suspendedOnce (initial 1) = some w ∧
      w.threads 1 = some th ∧ th.shared.object.state = .suspended ∧ th.shared.held = true ∧
      Even (tally step? (crosses 1) suspendedOnce (initial 1)) := by
  obtain ⟨w, h⟩ : ∃ w : World Unit, run? step? suspendedOnce (initial 1) = some w := ⟨_, rfl⟩
  obtain ⟨th, ht, hc, hs⟩ : ∃ th, w.threads 1 = some th ∧ th.controls = [] ∧
      th.shared.object.state = .suspended := by
    cases h
    exact ⟨_, rfl, rfl, rfl⟩
  obtain ⟨hi, ha⟩ := suspension_agrees_iff h ht (by rw [hc]; rfl) (by rw [hs]; exact nofun)
  have hb := ha (by decide)
  exact ⟨w, th, h, ht, hs, hb.mp hs, hi.mp hb⟩

/-- A resumption that comes while the suspension has not called the backend yet. -/
def resumedWithin : List (Choice Unit) :=
  started ++
    [.begin 1 (.hold .suspend true true), .act 1 (.control 0) .agreeable,
      .act 1 (.control 0) .agreeable,
      .begin 1 (.hold .resume true true), .act 1 (.control 0) .agreeable,
      .act 1 (.control 0) .agreeable, .act 1 (.control 0) .agreeable, .finish 1 (.control 0),
      .act 1 (.control 0) .agreeable, .finish 1 (.control 0)]

theorem resumed_within_disagrees :
    ∃ (w : World Unit) (th : Thread Unit), run? step? resumedWithin (initial 1) = some w ∧
      w.threads 1 = some th ∧ th.controls = [] ∧ th.shared.object.state = .running ∧
      th.shared.held = true := by
  refine ⟨_, _, rfl, rfl, rfl, rfl, rfl⟩

end World

end SyncCore.Manager

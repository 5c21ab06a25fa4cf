import SyncCore.Proofs.Manager.Gate
import SyncCore.Proofs.Manager.LifeCycle

/-!
# Backend threads of a manager

A creation spawns one backend thread and binds the object to it, and nothing
changes that later. What is known of the worlds that runs of a manager lead to
is collected here.
-/

set_option autoImplicit false

namespace SyncCore.Manager

variable {V : Type}

def Thread.spawned (th : Thread V) : Option Binding :=
  match th.creation with
  | .bind b => some b
  | _ => th.shared.object.binding

def Thread.spawns? (o : Oracle V) (th : Thread V) : Party → Option Binding
  | .creator =>
    match th.creation, (o.backend (.spawn th.request.config) : Outcome Binding) with
    | .spawn, .ok b => some b
    | _, _ => none
  | _ => none

section Spawned

variable {o : Oracle V} {id : ObjectId} {t t' : Table} {s' : Shared V} {th th' : Thread V}
  {p : Party}

theorem Thread.spawned_eq (h : ∀ b, th.creation ≠ .bind b) :
    th.spawned = th.shared.object.binding := by
  unfold spawned
  split
  next b hb => exact absurd hb (h b)
  next => rfl

theorem Thread.spawned_steady (hs : Steady th.shared.object th'.shared.object)
    (hc : th'.creation = th.creation) : th'.spawned = th.spawned := by
  rw [spawned, spawned, hc, hs.binding]

theorem Thread.spawns_creator (h : th.creation ≠ .spawn) : th.spawns? o .creator = none := by
  simp only [spawns?]
  split
  next h' _ => exact absurd h' h
  next => rfl

theorem Thread.Gated.unspawned (hg : th.Gated) {b : Binding} (h : th.spawns? o p = some b) :
    th.spawned = none := by
  cases p with
  | creator =>
    have hc : th.creation = .spawn := by_contra fun hc => nomatch (spawns_creator hc).symm.trans h
    have hk := hg.creation
    rw [hc] at hk
    rw [spawned_eq (by rw [hc]; exact nofun)]
    exact hk.2
  | _ => cases h

theorem Thread.Gated.spawned_of_bound (hg : th.Gated) {b : Binding}
    (hb : th.shared.object.binding = some b) : th.spawned = some b := by
  have hk := hg.creation
  rw [spawned_eq, hb]
  intro c hc
  rw [hc] at hk
  cases hk.2.symm.trans hb

/-- Only a spawn leads to the point where the object is bound, and only there
the binding changes. -/
theorem Create.next_unbound {r : Create.Request} {pc : Create.Pc} {a : Action V}
    {resume : a.Answer → Create.Pc} (hn : Create.next r pc = .act a resume) (hs : pc ≠ .spawn)
    (hb : ∀ b, pc ≠ .bind b) (x : a.Answer) :
    (∀ b, resume x ≠ .bind b) ∧ (∀ b, a ≠ .cell (.bind b)) := by
  cases pc with
  | spawn => exact absurd rfl hs
  | bind b => exact absurd rfl (hb b)
  | register => cases hn; rcases x with e | u <;> exact ⟨nofun, nofun⟩
  | detachLook e => cases hn; cases x <;> exact ⟨nofun, nofun⟩
  | detachCall e => cases hn; rcases x with e | u <;> exact ⟨nofun, nofun⟩
  | done r => cases hn
  | _ =>
    cases hn
    exact ⟨nofun, nofun⟩

theorem effect_binding {a : Action V} {s : Shared V} {x : a.Answer}
    (h : effect o id a (t, s) = some (x, t', s')) (ha : ∀ b, a ≠ .cell (.bind b)) :
    s'.object.binding = s.object.binding := by
  by_cases hs : a.steady = true
  · exact (effect_steady h hs).binding
  · cases a with
    | cell c =>
      cases c with
      | bind b => exact absurd rfl (ha b)
      | openGate =>
        cases h
        rfl
      | _ => exact absurd rfl hs
    | _ => exact absurd rfl hs

theorem Thread.Gated.creator_spawned {a : Action V} {resume : a.Answer → Create.Pc} {x : a.Answer}
    (hg : th.Gated) (hn : Create.next th.request th.creation = .act a resume)
    (he : effect o id a (t, th.shared) = some (x, t', s')) :
    Thread.spawned { th with creation := resume x, shared := s' } =
      (th.spawns? o .creator).or th.spawned := by
  by_cases hs : th.creation = .spawn
  · have hv : th.spawned = th.shared.object.binding := spawned_eq (by rw [hs]; exact nofun)
    rw [hs] at hn
    cases hn
    have hx : (o.backend (.spawn th.request.config) : Outcome Binding) = x := by
      cases he
      rfl
    have hb := (effect_steady he rfl).binding
    rcases x with e | b
    · simp [Thread.spawned, Thread.spawns?, hs, hx, hb]
    · simp [Thread.spawned, Thread.spawns?, hs, hx]
  · rw [spawns_creator hs, Option.none_or]
    by_cases hb : ∃ b, th.creation = .bind b
    · obtain ⟨b, hb⟩ := hb
      have hk := hg.creation
      rw [hb] at hn hk
      cases hn
      cases he
      simp [Thread.spawned, hb, CellAction.perform, hk.2]
    · have hb : ∀ b, th.creation ≠ .bind b := fun b h => hb ⟨b, h⟩
      obtain ⟨hr, ha⟩ := Create.next_unbound hn hs hb x
      rw [spawned_eq hr, spawned_eq hb]
      exact effect_binding he ha

theorem Thread.Gated.act_spawned (hg : th.Gated) (h : th.act? o id t p = some (t', th')) :
    th'.spawned = (th.spawns? o p).or th.spawned := by
  obtain ⟨a, x, ha, he⟩ := Thread.act_action h
  obtain ⟨b, r, y, s', rfl, hn, hx, rfl⟩ | ⟨b, r, y, s', rfl, -, -, rfl⟩ |
    ⟨w, s', rfl, -, rfl⟩ | ⟨i, c, c', s', rfl, -, -, rfl⟩ := Thread.act_cases h
  · exact hg.creator_spawned hn hx
  · exact Thread.spawned_steady (effect_steady he (Thread.action_steady ha nofun)) rfl
  · exact Thread.spawned_steady (effect_steady he (Thread.action_steady ha nofun)) rfl
  · exact Thread.spawned_steady (effect_steady he (Thread.action_steady ha nofun)) rfl

end Spawned

namespace World

variable {w u : World V}

def spawned? (w : World V) : Choice V → Option (ObjectId × Binding)
  | .act id p o => (w.threads id).bind fun th => (th.spawns? o p).map (id, ·)
  | _ => none

def backendThread? (w : World V) (id : ObjectId) : Option Binding :=
  (w.threads id).bind Thread.spawned

theorem backendThread_put (w : World V) (id : ObjectId) (th : Thread V) (t : Table) :
    (w.put id th t).backendThread? = Function.update w.backendThread? id th.spawned := by
  funext q
  by_cases hq : q = id
  · subst hq
    simp [backendThread?, put]
  · simp [backendThread?, put, Function.update_of_ne hq]

theorem backendThread_keep {id : ObjectId} {th th' : Thread V} {t : Table}
    (ht : w.threads id = some th) (h : th'.spawned = th.spawned) :
    (w.put id th' t).backendThread? = w.backendThread? := by
  have hb : th.spawned = w.backendThread? id := by rw [backendThread?, ht, Option.bind_some]
  rw [backendThread_put, h, hb, Function.update_eq_self]

/-- A step spawns at most one thread, of an object that has had none. -/
theorem step_spawned {c : Choice V} (hw : w.Gated) (h : step? c w = some u) :
    (w.spawned? c = none ∧ u.backendThread? = w.backendThread?) ∨
    (∃ id b, w.spawned? c = some (id, b) ∧ w.backendThread? id = none ∧
      u.backendThread? = Function.update w.backendThread? id (some b)) := by
  cases c with
  | create r =>
    obtain ⟨hn, rfl⟩ := step_create h
    have hb : (Thread.new r : Thread V).spawned = w.backendThread? r.id := by
      rw [backendThread?, hn]
      rfl
    exact .inl ⟨rfl, by rw [backendThread_put, hb, Function.update_eq_self]⟩
  | begin id k =>
    obtain ⟨th, th', ht, hb, rfl⟩ := step_begin h
    refine .inl ⟨rfl, backendThread_keep ht ?_⟩
    obtain ⟨-, -, ⟨k, -, rfl⟩ | ⟨-, v, -, rfl⟩⟩ := Thread.begin_cases hb <;> rfl
  | act id p o =>
    obtain ⟨th, t, th', ht, ha, rfl⟩ := step_act h
    have hg := hw id th ht
    have hs := hg.act_spawned ha
    cases hp : th.spawns? o p with
    | none =>
      refine .inl ⟨by simp [spawned?, ht, hp], backendThread_keep ht ?_⟩
      rwa [hp, Option.none_or] at hs
    | some b =>
      rw [hp, Option.some_or] at hs
      refine .inr ⟨id, b, by simp [spawned?, ht, hp], ?_, by rw [backendThread_put, hs]⟩
      rw [backendThread?, ht, Option.bind_some, hg.unspawned hp]
  | finish id p =>
    obtain ⟨th, th', ht, hf, rfl⟩ := step_finish h
    refine .inl ⟨rfl, backendThread_keep ht ?_⟩
    obtain ⟨v, -, rfl⟩ | ⟨k, c, -, -, rfl⟩ := Thread.finish_cases hf <;> rfl

def Reached (w : World V) : Prop := ∃ capacity cs, run? step? cs (initial capacity) = some w

namespace Reached

theorem initial (capacity : Nat) : (World.initial capacity : World V).Reached :=
  ⟨capacity, [], rfl⟩

theorem step {c : Choice V} (hw : w.Reached) (h : step? c w = some u) : u.Reached := by
  obtain ⟨capacity, cs, hr⟩ := hw
  exact ⟨capacity, cs ++ [c], run_snoc hr h⟩

theorem gated (hw : w.Reached) : w.Gated := by
  obtain ⟨capacity, cs, hr⟩ := hw
  exact run_keeps (fun _ _ _ hs hst => gated_step hs hst) hr (gated_initial capacity)

theorem occupied (hw : w.Reached) : ∃ capacity, Occupied capacity w ∧ w.Lasting := by
  obtain ⟨capacity, cs, hr⟩ := hw
  refine ⟨capacity, run_keeps (I := fun w => Occupied capacity w ∧ w.Lasting)
    (fun _ _ _ hs hst => ⟨occupied_step hs.1 hst, lasting_step hs.1 hs.2 hst⟩) hr
    ⟨occupied_initial capacity, lasting_initial capacity⟩⟩

theorem live {id : ObjectId} {th : Thread V} (hw : w.Reached) (ht : w.threads id = some th)
    (hr : th.routine.published = [.running]) :
    th.shared.object.state = .running ∨ th.shared.object.state = .suspended := by
  obtain ⟨capacity, cs, h⟩ := hw
  obtain ⟨xs, hx⟩ : ∃ xs, run? (noted step? (noteStores id)) cs (.initial capacity, []) =
    some (w, xs) := run_noted h []
  have hk : Charted id (w, xs) :=
    run_keeps (fun _ _ _ hs hst => charted_step hs hst) hx (charted_initial capacity)
  have hc := hk.present th ht
  have hf := hc.live hr
  rw [hc.state_eq]
  cases hl : xs.last <;> rw [hl] at hf <;> first | exact .inl rfl | exact .inr rfl | cases hf

end Reached

end World

end SyncCore.Manager

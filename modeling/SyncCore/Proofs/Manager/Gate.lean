import SyncCore.Proofs.Manager.Actions
import SyncCore.Proofs.Manager.Release

/-!
# The gate before a thread's function

A creation opens the gate last, after it has bound the object and registered
it, or marked it as detached where it could not be registered. The routine
runs the function only once it has found the gate open.
-/

set_option autoImplicit false

namespace SyncCore.Manager

variable {V : Type}

def Create.Pc.Keeps (b : ThreadObject V) : Create.Pc → Prop
  | .spawn => b.gateOpen = false ∧ b.binding = none
  | .spawnWarn _ => b.gateOpen = false ∧ b.binding = none
  | .bind _ => b.gateOpen = false ∧ b.binding = none
  | .detachLook _ => b.gateOpen = false ∧ b.binding.isSome = true ∧ b.detached = true
  | .detachCall _ => b.gateOpen = false ∧ b.binding.isSome = true ∧ b.detached = true
  | .detachWarn _ _ => b.gateOpen = false ∧ b.binding.isSome = true ∧ b.detached = true
  | .releaseGate _ => b.gateOpen = false ∧ b.binding.isSome = true ∧ b.detached = true
  | .announce => b.binding.isSome = true
  | .done (.ok _) => b.binding.isSome = true
  | .done (.error _) => b.gateOpen = true → b.binding.isSome = true ∧ b.detached = true
  | _ => b.gateOpen = false ∧ b.binding.isSome = true

def Routine.Pc.entered : Routine.Pc V → Bool
  | .gate => false
  | .wait => false
  | _ => true

structure Thread.Gated (th : Thread V) : Prop where
  creation : th.creation.Keeps th.shared.object
  entered : th.routine.entered = true → th.shared.object.gateOpen = true

/-! ## Effects on the gate -/

/-- Gate and binding stay as they are, and a mark is not taken back. -/
structure Steady (b b' : ThreadObject V) : Prop where
  gate : b'.gateOpen = b.gateOpen
  binding : b'.binding = b.binding
  detached : b.detached = true → b'.detached = true

def Action.steady : Action V → Bool
  | .cell .openGate => false
  | .cell (.bind _) => false
  | _ => true

theorem Create.Pc.Keeps.mono {pc : Create.Pc} {b b' : ThreadObject V} (h : pc.Keeps b)
    (hs : Steady b b') : pc.Keeps b' := by
  cases pc with
  | done r =>
    rcases r with e | u
    · exact fun hg => (h (hs.gate ▸ hg)).imp (fun hb => hs.binding ▸ hb) hs.detached
    · exact (congrArg Option.isSome hs.binding).trans h
  | announce => exact (congrArg Option.isSome hs.binding).trans h
  | detachLook e => exact ⟨hs.gate.trans h.1, hs.binding ▸ h.2.1, hs.detached h.2.2⟩
  | detachCall e => exact ⟨hs.gate.trans h.1, hs.binding ▸ h.2.1, hs.detached h.2.2⟩
  | detachWarn e c => exact ⟨hs.gate.trans h.1, hs.binding ▸ h.2.1, hs.detached h.2.2⟩
  | releaseGate e => exact ⟨hs.gate.trans h.1, hs.binding ▸ h.2.1, hs.detached h.2.2⟩
  | _ => exact ⟨hs.gate.trans h.1, hs.binding ▸ h.2⟩

section Effects

variable {o : Oracle V} {id : ObjectId} {t t' : Table} {s s' : Shared V}

theorem effect_steady {a : Action V} {x : a.Answer} (h : effect o id a (t, s) = some (x, t', s'))
    (ha : a.steady = true) : Steady s.object s'.object := by
  cases a with
  | cell c =>
    cases h
    cases c with
    | openGate => cases ha
    | bind b => cases ha
    | markDetached => exact ⟨rfl, rfl, fun _ => rfl⟩
    | exchangeState e d =>
      by_cases hw : s.object.stateWord = e.word
      · simp only [CellAction.perform, ThreadObject.exchangeState, if_pos hw]
        exact ⟨rfl, rfl, fun h => h⟩
      · simp only [CellAction.perform, ThreadObject.exchangeState, if_neg hw]
        exact ⟨rfl, rfl, fun h => h⟩
    | _ => exact ⟨rfl, rfl, fun h => h⟩
  | table c =>
    cases c with
    | register => rw [(effect_register h).1]; exact ⟨rfl, rfl, fun h => h⟩
    | unregister => rw [(effect_unregister h).1]; exact ⟨rfl, rfl, fun h => h⟩
    | find => cases h
  | _ =>
    cases h
    exact ⟨rfl, rfl, fun h => h⟩

end Effects

theorem Thread.action_steady {id : ObjectId} {th : Thread V} {p : Party} {a : Action V}
    (h : th.action? id p = some a) (hp : p ≠ .creator) : a.steady = true := by
  cases p with
  | creator => exact absurd rfl hp
  | routine =>
    simp only [action?] at h
    cases hr : th.routine <;> rw [hr] at h <;> cases h <;> rfl
  | owner =>
    simp only [action?] at h
    cases hw : th.owner with
    | joining native pc => rw [hw] at h; cases pc <;> cases h <;> rfl
    | destroying joined pc => rw [hw] at h; cases pc <;> cases h <;> rfl
    | dropping joined pc => rw [hw] at h; cases pc <;> cases h <;> rfl
    | _ =>
      rw [hw] at h
      cases h
  | control i =>
    obtain ⟨c, -, hc⟩ := Option.bind_eq_some_iff.mp h
    cases c with
    | hold d pc => cases d <;> cases pc <;> cases hc <;> rfl
    | priority q native pc => cases pc <;> cases hc <;> rfl

/-! ## What a step of each party preserves -/

namespace Thread.Gated

variable {o : Oracle V} {id : ObjectId} {t t' : Table} {s' : Shared V} {th th' : Thread V}
  {p : Party}

theorem new (r : Create.Request) : (Thread.new r : Thread V).Gated where
  creation := ⟨rfl, rfl⟩
  entered := nofun

theorem of_steady (hg : th.Gated) (hs : Steady th.shared.object th'.shared.object)
    (hc : th'.creation = th.creation) (hr : th'.routine = th.routine) : th'.Gated where
  creation := hc ▸ hg.creation.mono hs
  entered := fun h => hs.gate.trans (hg.entered (hr ▸ h))

theorem creator {r : Create.Request} {a : Action V} {resume : a.Answer → Create.Pc} {x : a.Answer}
    (hg : th.Gated) (hn : Create.next r th.creation = .act a resume)
    (he : effect o id a (t, th.shared) = some (x, t', s')) :
    Thread.Gated { th with creation := resume x, shared := s' } := by
  have hk := hg.creation
  have of_steady : Steady th.shared.object s'.object →
      ((resume x).Keeps th.shared.object) →
      Thread.Gated { th with creation := resume x, shared := s' } := fun hs hp =>
    ⟨hp.mono hs, fun h => hs.gate.trans (hg.entered h)⟩
  cases hc : th.creation with
  | bind b =>
    rw [hc] at hn hk
    cases hn
    cases he
    exact ⟨⟨hk.1, by simp [CellAction.perform]⟩, fun h => hg.entered h⟩
  | disown e =>
    rw [hc] at hn hk
    cases hn
    cases he
    exact ⟨⟨hk.1, hk.2, rfl⟩, fun h => hg.entered h⟩
  | releaseGate e =>
    rw [hc] at hn hk
    cases hn
    cases he
    exact ⟨fun _ => hk.2, fun _ => rfl⟩
  | openGate =>
    rw [hc] at hn hk
    cases hn
    cases he
    exact ⟨hk.2, fun _ => rfl⟩
  | spawn =>
    rw [hc] at hn hk
    cases hn
    refine of_steady (effect_steady he rfl) ?_
    rcases x with e | b <;> exact hk
  | spawnWarn e =>
    rw [hc] at hn hk
    cases hn
    exact of_steady (effect_steady he rfl) fun h => absurd hk.1 (by simp [h])
  | register =>
    rw [hc] at hn hk
    cases hn
    refine of_steady (effect_steady he rfl) ?_
    rcases x with e | u <;> exact hk
  | detachLook e =>
    rw [hc] at hn hk
    cases hn
    refine of_steady (effect_steady he rfl) ?_
    cases x <;> exact hk
  | detachCall e =>
    rw [hc] at hn hk
    cases hn
    refine of_steady (effect_steady he rfl) ?_
    rcases x with e | u <;> exact hk
  | done r =>
    rw [hc] at hn
    cases hn
  | _ =>
    rw [hc] at hn hk
    cases hn
    exact of_steady (effect_steady he rfl) hk

theorem routine {a : Action V} {resume : a.Answer → Routine.Pc V} {x : a.Answer}
    (hg : th.Gated) (hn : Routine.next id th.routine = .act a resume)
    (he : effect o id a (t, th.shared) = some (x, t', s')) (ha : a.steady = true) :
    Thread.Gated { th with routine := resume x, shared := s' } where
  creation := hg.creation.mono (effect_steady he ha)
  entered := fun h => by
    rw [(effect_steady he ha).gate]
    cases hr : th.routine with
    | gate =>
      rw [hr] at hn
      cases hn
      cases he
      by_contra hc
      simp [CellAction.perform, hc, Routine.Pc.entered] at h
    | wait =>
      rw [hr] at hn
      cases hn
      cases h
    | _ => exact hg.entered (by rw [hr]; rfl)

theorem act (hg : th.Gated) (h : th.act? o id t p = some (t', th')) : th'.Gated := by
  obtain ⟨a, x, ha, he⟩ := Thread.act_action h
  obtain ⟨b, r, y, s', rfl, hn, hx, rfl⟩ | ⟨b, r, y, s', rfl, hn, hx, rfl⟩ |
    ⟨w, s', rfl, -, rfl⟩ | ⟨i, c, c', s', rfl, -, -, rfl⟩ := Thread.act_cases h
  · exact hg.creator hn hx
  · cases (congrArg Next.action? hn).symm.trans ha
    exact hg.routine hn hx (Thread.action_steady ha (by simp))
  · exact hg.of_steady (effect_steady he (Thread.action_steady ha (by simp))) rfl rfl
  · exact hg.of_steady (effect_steady he (Thread.action_steady ha (by simp))) rfl rfl

theorem begin {c : HandleCall} (hg : th.Gated) (h : th.begin? c = some th') : th'.Gated := by
  obtain ⟨-, -, ⟨k, -, rfl⟩ | ⟨-, w, -, rfl⟩⟩ := begin_cases h <;> exact ⟨hg.creation, hg.entered⟩

theorem finish (hg : th.Gated) (h : th.finish? p = some th') : th'.Gated := by
  obtain ⟨w, -, rfl⟩ | ⟨k, c, -, -, rfl⟩ := finish_cases h <;> exact ⟨hg.creation, hg.entered⟩

/-- Behind the open gate the object is bound, and its creation has registered
it or ends with an error after it has marked the object as detached. -/
theorem behind (hg : th.Gated) (hr : th.routine.entered = true) :
    th.shared.object.binding.isSome = true ∧
    (th.creation.stage = .accepted ∨
      (∃ e, th.creation = .done (.error e)) ∧ th.shared.object.detached = true) := by
  have hk := hg.creation
  have ho := hg.entered hr
  cases hc : th.creation with
  | announce => rw [hc] at hk; exact ⟨hk, .inl rfl⟩
  | done r =>
    rw [hc] at hk
    rcases r with e | u
    · exact ⟨(hk ho).1, .inr ⟨⟨e, rfl⟩, (hk ho).2⟩⟩
    · exact ⟨hk, .inl rfl⟩
  | _ =>
    rw [hc] at hk
    cases hk.1.symm.trans ho

end Thread.Gated

namespace World

variable {w u : World V}

def Gated (w : World V) : Prop := ∀ id th, w.threads id = some th → th.Gated

theorem gated_initial (capacity : Nat) : (initial capacity : World V).Gated :=
  fun _ _ h => nomatch h

theorem gated_step {c : Choice V} (hw : w.Gated) (h : step? c w = some u) : u.Gated :=
  threads_keep hw h .new .begin (fun _ => .act) .finish

end World

end SyncCore.Manager

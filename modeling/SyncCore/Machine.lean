/-!
# Machines over atomic actions

An operation that other threads may interrupt is given by its program points.
Each point is either the end or one atomic action together with the point
where each answer leads. The same points serve a client that runs alone and
any number of clients under any schedule: only the effect of the actions on
the shared state differs. Loops are cycles of program points.
-/

set_option autoImplicit false

namespace SyncCore

structure Interface where
  Action : Type
  Answer : Action → Type

inductive Next (I : Interface) (Pc Res : Type) where
  | done (result : Res)
  | act (action : I.Action) (resume : I.Answer action → Pc)

abbrev Machine (I : Interface) (Pc Res : Type) := Pc → Next I Pc Res

/-- The effect of each action on a shared state. An action without an effect
is blocked in that state. -/
abbrev Effect (I : Interface) (σ : Type) := (a : I.Action) → σ → Option (I.Answer a × σ)

inductive Stop (Pc Res σ : Type) where
  | finished (result : Res) (shared : σ)
  | blocked (pc : Pc) (shared : σ)
  | running (pc : Pc) (shared : σ)

namespace Machine

variable {I : Interface} {Pc Res σ : Type}

def step? (m : Machine I Pc Res) (effect : Effect I σ) (pc : Pc) (s : σ) : Option (Pc × σ) :=
  match m pc with
  | .done _ => none
  | .act a resume => (effect a s).map fun r => (resume r.1, r.2)

theorem step_cases {m : Machine I Pc Res} {effect : Effect I σ} {pc pc' : Pc} {s s' : σ}
    (h : m.step? effect pc s = some (pc', s')) :
    ∃ a resume x, m pc = .act a resume ∧ effect a s = some (x, s') ∧ pc' = resume x := by
  cases hm : m pc with
  | done r => simp [step?, hm] at h
  | act a resume =>
    simp only [step?, hm] at h
    obtain ⟨⟨x, u⟩, he, hp⟩ := Option.map_eq_some_iff.mp h
    cases hp
    exact ⟨a, resume, x, rfl, he, rfl⟩

inductive Leads (m : Machine I Pc Res) : Pc → Pc → Prop where
  | here (pc : Pc) : Leads m pc pc
  | on {pc pc' : Pc} {a : I.Action} {resume : I.Answer a → Pc} (x : I.Answer a) :
    m pc = .act a resume → Leads m (resume x) pc' → Leads m pc pc'

theorem Leads.keeps {m : Machine I Pc Res} {P : Pc → Prop}
    (keep : ∀ pc a resume x, m pc = .act a resume → P pc → P (resume x)) {pc pc' : Pc}
    (h : m.Leads pc pc') (hp : P pc) : P pc' := by
  induction h with
  | here pc => exact hp
  | on x hm _ ih => exact ih (keep _ _ _ x hm hp)

def solo (m : Machine I Pc Res) (effect : Effect I σ) : Nat → Pc → σ → Stop Pc Res σ
  | 0, pc, s =>
    match m pc with
    | .done r => .finished r s
    | .act _ _ => .running pc s
  | n + 1, pc, s =>
    match m pc with
    | .done r => .finished r s
    | .act a resume =>
      match effect a s with
      | none => .blocked pc s
      | some (x, s) => solo m effect n (resume x) s

theorem solo_done {m : Machine I Pc Res} {effect : Effect I σ} {pc : Pc} {r : Res}
    (h : m pc = .done r) (n : Nat) (s : σ) : m.solo effect n pc s = .finished r s := by
  cases n <;> simp only [solo, h]

theorem solo_act {m : Machine I Pc Res} {effect : Effect I σ} {pc pc' : Pc} {a : I.Action}
    {resume : I.Answer a → Pc} {x : I.Answer a} {s u : σ} (h : m pc = .act a resume)
    (he : effect a s = some (x, u)) (hp : resume x = pc') (n : Nat) :
    m.solo effect (n + 1) pc s = m.solo effect n pc' u := by
  simp only [solo, h, he, hp]

/-- A client whose actions are carried out by a surrounding program. It fails
if it needs more than the given number of actions. -/
def drive {W : Type} (m : Machine I Pc Res)
    (perform : (a : I.Action) → StateT W Option (I.Answer a)) : Nat → Pc → StateT W Option Res
  | 0, _ => failure
  | n + 1, pc =>
    match m pc with
    | .done r => pure r
    | .act a resume => do
      let x ← perform a
      drive m perform n (resume x)

end Machine

end SyncCore

import SyncCore.Proofs.Manager.Accounting

/-!
# What a party is about to do

Every step of a party of a thread is one action of its own machine. What an
action stores in the thread's state is read off the action and the state it
finds: an exchange that finds another state than it expects stores nothing.
-/

set_option autoImplicit false

namespace SyncCore

def Next.action? {I : Interface} {Pc Res : Type} : Next I Pc Res → Option I.Action
  | .done _ => none
  | .act a _ => some a

namespace Manager

variable {V : Type}

def Owner.action? (id : ObjectId) : Owner V → Option (Action V)
  | .joining native pc => (Join.next id native pc).action?
  | .destroying joined pc => (Destroy.next id joined pc).action?
  | .dropping joined pc => (Drop.next id joined pc).action?
  | _ => none

def Control.action? (id : ObjectId) : Control → Option (Action V)
  | .hold h pc => (Hold.next id h pc).action?
  | .priority p native pc => (SetPriority.next id p native pc).action?

def Thread.action? (id : ObjectId) (th : Thread V) : Party → Option (Action V)
  | .creator => (Create.next th.request th.creation).action?
  | .routine => (Routine.next id th.routine).action?
  | .owner => th.owner.action? id
  | .control k => th.controls[k]?.bind (Control.action? id)

def Action.stores (b : ThreadObject V) : Action V → Option ThreadState
  | .cell (.storeState s) => some s
  | .cell (.exchangeState e d) => if b.stateWord = e.word then some d else none
  | _ => none

section Effects

variable {o : Oracle V} {id : ObjectId} {t t' : Table} {s s' : Shared V}

theorem Owner.act_action {w w' : Owner V} (h : w.act? o id (t, s) = some (w', t', s')) :
    ∃ a x, w.action? id = some a ∧ effect o id a (t, s) = some (x, t', s') := by
  obtain ⟨n, pc, a, r, x, rfl, hn, he, -⟩ | ⟨j, pc, a, r, x, rfl, hn, he, -⟩ |
    ⟨j, pc, a, r, x, rfl, hn, he, -⟩ := Owner.act_cases h
  all_goals exact ⟨a, x, congrArg Next.action? hn, he⟩

theorem Control.act_action {c c' : Control} (h : c.act? o id (t, s) = some (c', t', s')) :
    ∃ a x, c.action? id = some a ∧ effect o id a (t, s) = some (x, t', s') := by
  obtain ⟨d, pc, a, r, x, rfl, hn, he, -⟩ | ⟨q, n, pc, a, r, x, rfl, hn, he, -⟩ :=
    Control.act_cases h
  all_goals exact ⟨a, x, congrArg Next.action? hn, he⟩

theorem Thread.act_action {th th' : Thread V} {p : Party}
    (h : th.act? o id t p = some (t', th')) :
    ∃ a x, th.action? id p = some a ∧ effect o id a (t, th.shared) = some (x, t', th'.shared) := by
  obtain ⟨a, r, x, s', rfl, hn, he, rfl⟩ | ⟨a, r, x, s', rfl, hn, he, rfl⟩ |
    ⟨w, s', rfl, hw, rfl⟩ | ⟨k, c, c', s', rfl, hk, hc, rfl⟩ := Thread.act_cases h
  · exact ⟨a, x, congrArg Next.action? hn, he⟩
  · exact ⟨a, x, congrArg Next.action? hn, he⟩
  · exact Owner.act_action hw
  · obtain ⟨a, x, ha, he⟩ := Control.act_action hc
    exact ⟨a, x, by simp only [Thread.action?, hk, Option.bind_some, ha], he⟩

theorem effect_stores {a : Action V} {x : a.Answer}
    (h : effect o id a (t, s) = some (x, t', s')) :
    s'.object.stateWord = ((a.stores s.object).map ThreadState.word).getD s.object.stateWord := by
  cases a with
  | cell c =>
    cases h
    cases c with
    | exchangeState e d =>
      by_cases hw : s.object.stateWord = e.word
      · simp [Action.stores, CellAction.perform, ThreadObject.exchangeState, hw]
      · simp [Action.stores, CellAction.perform, ThreadObject.exchangeState, hw]
    | _ => rfl
  | table c =>
    cases c with
    | register => rw [(effect_register h).1]; rfl
    | unregister => rw [(effect_unregister h).1]; rfl
    | find => cases h
  | _ =>
    cases h
    rfl

end Effects

end Manager

end SyncCore

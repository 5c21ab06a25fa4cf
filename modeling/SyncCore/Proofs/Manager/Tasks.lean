import SyncCore.Proofs.Backend.Solo
import SyncCore.Proofs.Manager.Chronicle

/-!
# What the backend keeps of a thread

Of each thread it is written down what the backend keeps of its task, as the
answers to its calls tell. A spawn that succeeds makes a record, and a call that
succeeds changes it as the mock backend does; a call that fails leaves it.
-/

set_option autoImplicit false

namespace SyncCore.Manager

variable {V : Type}

/-! ## One call -/

namespace BackendCall

def change : BackendCall → Option Mock.Task → Option Mock.Task
  | .spawn c, _ => some ⟨c.priority, false, false⟩
  | .detach, k => k.map fun k => { k with detached := true }
  | .setPriority n, k => k.map fun k => { k with priority := n }
  | .suspend, k => k.map fun k => { k with suspended := true }
  | .resume, k => k.map fun k => { k with suspended := false }
  | _, k => k

def agreed : (c : BackendCall) → c.Answer → Bool
  | .spawn _, .ok _ => true
  | .detach, .ok _ => true
  | .setPriority _, .ok _ => true
  | .suspend, .ok _ => true
  | .resume, .ok _ => true
  | _, _ => false

def keeps (c : BackendCall) (x : c.Answer) (k : Option Mock.Task) : Option Mock.Task :=
  if c.agreed x then c.change k else k

def request? (t : Mock.TaskId) : BackendCall → Option Mock.Request
  | .setPriority n => some (.setPriority t n)
  | .suspend => some (.suspend t)
  | .resume => some (.resume t)
  | _ => none

theorem request_change {t : Mock.TaskId} {c : BackendCall} {q : Mock.Request}
    (h : c.request? t = some q) :
    ∃ u : Mock.Update, q.change? = some u ∧ u.task = t ∧ ∀ k, c.change k = k.map u.change := by
  cases c with
  | setPriority n => cases h; exact ⟨_, rfl, rfl, fun _ => rfl⟩
  | suspend => cases h; exact ⟨_, rfl, rfl, fun _ => rfl⟩
  | resume => cases h; exact ⟨_, rfl, rfl, fun _ => rfl⟩
  | _ => cases h

/-- The mock backend keeps its records in this way. -/
theorem mock_keeps {info : PlatformInfo} {own t : Mock.TaskId} {me : Nat} {s : Mock.State}
    {c : BackendCall} {q : Mock.Request} (h : c.request? t = some q) (hs : s.inside = none) :
    ∃ r v, (Mock.next info own).solo (Mock.lone me) 6 (Mock.start info own q) s =
        .finished (.outcome r) v ∧ v.inside = none ∧
      v.task? t = (if r.isOk then c.change (s.task? t) else s.task? t) ∧
      ∀ p, p ≠ t → v.task? p = s.task? p := by
  obtain ⟨u, hu, rfl, hc⟩ := request_change h
  obtain ⟨r, v, hr, hv, ht, -, ho⟩ := Mock.change_told info own me hu hs
  exact ⟨r, v, hr, hv, by rw [hc]; exact ht, ho⟩

end BackendCall

/-! ## Records of all threads -/

abbrev Ledger := ObjectId → Option Mock.Task

def Action.keeps (e : Setting V) : Action V → Option Mock.Task → Option Mock.Task
  | .backend c, k => c.keeps (e.backend c) k
  | _, k => k

def Thread.keeps (e : Setting V) (id : ObjectId) (th : Thread V) (p : Party)
    (k : Option Mock.Task) : Option Mock.Task :=
  match th.action? id p with
  | none => k
  | some a => a.keeps e k

theorem Thread.keeps_eq {e : Setting V} {id : ObjectId} {th : Thread V} {p : Party} {a : Action V}
    (h : th.action? id p = some a) (k : Option Mock.Task) : th.keeps e id p k = a.keeps e k := by
  simp only [keeps, h]

namespace World

def enter (w : World V) (c : Move V) (l : Ledger) : Ledger :=
  match c with
  | .act id p e =>
    match w.threads id with
    | some th => Function.update l id (th.keeps e id p (l id))
    | none => l
  | _ => l

theorem enter_of_ne {w : World V} {c : Move V} {id : ObjectId} (h : c.target ≠ id) (l : Ledger) :
    w.enter c l id = l id := by
  cases c with
  | act q p e =>
    simp only [enter]
    cases w.threads q with
    | none => rfl
    | some th => exact Function.update_of_ne (fun he => h he.symm) ..
  | _ => rfl

theorem enter_act {w : World V} {id : ObjectId} {th : Thread V} (h : w.threads id = some th)
    (p : Party) (e : Setting V) (l : Ledger) :
    w.enter (.act id p e) l id = th.keeps e id p (l id) := by
  simp only [enter, h, Function.update_self]

theorem enter_congr {w v : World V} {c : Move V} {l m : Ledger} {id : ObjectId}
    (h : v.threads c.target = w.threads c.target) (hl : m id = l id) :
    v.enter c m id = w.enter c l id := by
  by_cases hc : c.target = id
  · cases c with
    | act q p e =>
      dsimp only [Move.target] at h hc
      subst hc
      simp only [enter, h]
      cases w.threads q with
      | none => exact hl
      | some th => simp only [Function.update_self, hl]
    | _ => exact hl
  · rw [enter_of_ne hc, enter_of_ne hc, hl]

def kept? : Move V → World V × Ledger → Option (World V × Ledger) := noted move? enter

def unkept (capacity : Nat) : World V × Ledger := (initial capacity, fun _ => none)

end World

end SyncCore.Manager

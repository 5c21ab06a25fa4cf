import SyncCore.Lock.Raw

/-!
# Exclusive locks

A lock is exclusive if locking and trying to lock succeed only while it is
free, and unlocking succeeds exactly while it is held. Beyond that a call may
fail as it likes, and destroying the lock may be refused or not. All raw
locks of the library are exclusive.
-/

set_option autoImplicit false

namespace SyncCore

def LockOp.Allows : (op : LockOp) → Bool → op.Answer → Bool → Prop
  | .lock, before, .ok _, after => before = false ∧ after = true
  | .lock, before, .error _, after => after = before
  | .tryLock, before, .ok _, after => before = false ∧ after = true
  | .tryLock, before, .error _, after => after = before
  | .unlock, before, .ok _, after => before = true ∧ after = false
  | .unlock, before, .error _, after => before = false ∧ after = false
  | .isLocked, before, answer, after => answer = before ∧ after = before
  | .destroy, before, _, after => after = before

def Exclusive {Hint R : Type} (call : RawCalls Hint R) (held : R → Bool) : Prop :=
  ∀ hint op r x r', call hint op r = some (x, r') → op.Allows (held r) x (held r')

namespace RawLock

theorem answer_eq {Pc σ : Type} {op : LockOp} {wrap : σ → RawLock} {stop : Stop Pc LockReply σ}
    {x : op.Answer} {l : RawLock} (h : answer? op wrap stop = some (x, l)) :
    ∃ r s, stop = .finished r s ∧ r.as? op = some x ∧ l = wrap s := by
  cases stop with
  | finished r s =>
    obtain ⟨y, hy, hxl⟩ := Option.map_eq_some_iff.mp h
    cases hxl
    exact ⟨r, s, rfl, hy, rfl⟩
  | blocked pc s => cases h
  | running pc s => cases h

/-- A word that is neither of the two is not held, and no call changes it. -/
theorem spin_other_allows {w : Int32} (hf : w ≠ Spin.free) (ht : w ≠ Spin.taken) {op : LockOp}
    {x : op.Answer} {r : LockReply} {v : Int32}
    (hs : Spin.next.solo Atomic.effect callLength (Spin.start op) w = .finished r v)
    (hr : r.as? op = some x) : op.Allows (Spin.isLocked w) x (Spin.isLocked v) := by
  have hw : Spin.isLocked w = false := decide_eq_false ht
  cases op <;> simp [Machine.solo, callLength, Spin.next, Spin.start, Atomic.effect,
    Atomic.perform, hf, ht] at hs
  all_goals
    obtain ⟨rfl, rfl⟩ := hs
    cases hr
    rw [hw]
    first | exact ⟨rfl, rfl⟩ | exact rfl

theorem spin_allows {me : Nat} {op : LockOp} {w : Int32} {x : op.Answer} {l : RawLock}
    (h : call me op (.spin w) = some (x, l)) : op.Allows (held (.spin w)) x l.held := by
  obtain ⟨r, v, hs, hr, rfl⟩ := answer_eq h
  by_cases hf : w = Spin.free
  · subst hf
    cases op <;> cases hs <;> cases hr <;> first | exact ⟨rfl, rfl⟩ | exact rfl
  by_cases ht : w = Spin.taken
  · subst ht
    cases op <;> cases hs <;> cases hr <;> first | exact ⟨rfl, rfl⟩ | exact rfl
  exact spin_other_allows hf ht hs hr

theorem flag_allows {me : Nat} {op : LockOp} {b : Bool} {x : op.Answer} {l : RawLock}
    (h : call me op (.flag b) = some (x, l)) : op.Allows (held (.flag b)) x l.held := by
  obtain ⟨r, v, hs, hr, rfl⟩ := answer_eq h
  cases b <;> cases op <;> cases hs <;> cases hr <;> first | exact ⟨rfl, rfl⟩ | exact rfl

theorem monitor_sleeps (me : Nat) (sleepers : List Monitor.ThreadId) :
    Monitor.next.solo (Monitor.effect me) callLength (Monitor.start .lock) ⟨true, none, sleepers⟩
      = .blocked .asleep ⟨true, none, sleepers ++ [me]⟩ := by
  simp [Machine.solo, callLength, Monitor.next, Monitor.start, Monitor.effect, Monitor.afterTest]

theorem monitor_allows {me : Nat} {op : LockOp} {s : Monitor.State} {x : op.Answer} {l : RawLock}
    (h : call me op (.monitor s) = some (x, l)) : op.Allows (held (.monitor s)) x l.held := by
  obtain ⟨r, v, hs, hr, rfl⟩ := answer_eq h
  obtain ⟨flag, inside, sleepers⟩ := s
  cases inside with
  | some i => cases op <;> cases hs
  | none =>
    cases flag with
    | false => cases op <;> cases hs <;> cases hr <;> first | exact ⟨rfl, rfl⟩ | exact rfl
    | true =>
      cases op with
      | lock =>
        rw [monitor_sleeps] at hs
        cases hs
      | tryLock =>
        cases hs
        cases hr
        exact rfl
      | unlock =>
        cases hs
        cases hr
        exact ⟨rfl, rfl⟩
      | isLocked =>
        cases hs
        cases hr
        exact ⟨rfl, rfl⟩
      | destroy =>
        cases hs
        cases hr
        exact rfl

theorem exclusive : Exclusive call held := by
  intro me op l x l' h
  cases l with
  | spin w => exact spin_allows h
  | flag b => exact flag_allows h
  | monitor s => exact monitor_allows h

/-- The destruction of a raw lock is refused only while the lock is held. -/
theorem destroy_answers {me : Nat} {l l' : RawLock} {x : Outcome Unit}
    (h : call me .destroy l = some (x, l')) : x = .ok () ∨ x = .error .busy ∧ l.held = true := by
  cases l with
  | spin w =>
    cases h
    exact .inl rfl
  | flag b =>
    cases b with
    | false =>
      cases h
      exact .inl rfl
    | true =>
      cases h
      exact .inr ⟨rfl, rfl⟩
  | monitor s =>
    obtain ⟨flag, inside, sleepers⟩ := s
    cases inside with
    | some i => cases h
    | none =>
      cases flag with
      | false =>
        cases h
        exact .inl rfl
      | true =>
        cases h
        exact .inr ⟨rfl, rfl⟩

end RawLock

end SyncCore

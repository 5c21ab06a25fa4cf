import SyncCore.Proofs.Lock.Exclusive
import SyncCore.Proofs.Mutex.Clients

/-!
# Custody of the raw lock

At each program point it is known how often the raw lock is in the hands of
the call. An action moves the lock into custody or out of it, a release
always succeeds, and a status that is not usable is written only by a destroy
that has the raw lock.
-/

set_option autoImplicit false

namespace SyncCore.Mutex

variable {Hint R : Type} {n : Nat} {call : RawCalls Hint R} {held : R → Bool}

def Call.holding (c : Call) : Bool :=
  match c.op.role with
  | .acquiring => c.succeeded
  | .releasing => !c.succeeded
  | .other => false

/-! ## Custody at the program points -/

/-- How often the raw lock is in the hands of a call at a program point, if a
call of that role gets there. A release always succeeds. -/
def Role.owes : Role → Pc → Option Nat
  | .acquiring, .acquireCheck _ => some 0
  | .acquiring, .acquireRaw _ => some 0
  | .acquiring, .acquireConfirm => some 1
  | .acquiring, .acquireGiveBack => some 1
  | .acquiring, .done (.outcome (.ok _)) => some 1
  | .acquiring, .done (.outcome (.error _)) => some 0
  | .releasing, .unlockCheck => some 1
  | .releasing, .unlockRaw => some 1
  | .releasing, .done (.outcome (.ok _)) => some 0
  | .other, .initFrom _ => some 0
  | .other, .initReport => some 0
  | .other, .destroyClaim => some 0
  | .other, .destroyAcquire => some 0
  | .other, .destroyAbandon _ => some 0
  | .other, .destroyMark => some 1
  | .other, .destroyGiveBack => some 1
  | .other, .destroyRaw => some 0
  | .other, .destroyRevive _ => some 0
  | .other, .lookCheck => some 0
  | .other, .lookRaw => some 0
  | .other, .initializedCheck => some 0
  | .other, .done _ => some 0
  | _, _ => none

def Call.Fits (c : Call) : Prop := c.op.role.owes c.pc = some c.custody

/-- Before the answer the program point tells the custody, whatever the role. -/
theorem owes_agree {role role' : Role} {pc : Pc} {k k' : Nat} (h : role.owes pc = some k)
    (h' : role'.owes pc = some k') (hd : ∀ r, pc ≠ .done r) : k = k' := by
  cases pc with
  | done r => exact absurd rfl (hd r)
  | _ =>
    cases role <;> cases h
    cases role' <;> cases h'
    rfl

theorem begin_fits (op : Op) : (Call.begin op).Fits := by
  cases op <;> rfl

theorem begin_holding (op : Op) : (Call.begin op).holding.toNat = op.entrusted := by
  cases op <;> rfl

theorem holding_le_custody {c : Call} (h : c.Fits) : c.holding.toNat ≤ c.custody := by
  obtain ⟨op, pc, k⟩ := c
  simp only [Call.Fits, Call.holding, Call.succeeded] at h ⊢
  cases hr : op.role with
  | acquiring =>
    by_cases hp : pc = succeeded
    · rw [hr, hp] at h
      simp [hp, Option.some.inj h.symm]
    · simp [hp]
  | releasing =>
    rw [hr] at h
    unfold Role.owes at h
    split at h <;> simp_all [succeeded, LockReply.ok]
  | other => simp

/-! ## What an action does to the custody of its call -/

theorem effect_raw {hint : Hint} {op : LockOp} {m m' : State R} {x : op.Answer}
    (h : effect call hint (.raw op) m = some (x, m')) :
    ∃ r, call hint op m.raw = some (x, r) ∧ m' = { m with raw := r } := by
  obtain ⟨⟨y, r⟩, hr, hm⟩ := Option.map_eq_some_iff.mp h
  cases hm
  exact ⟨r, hr, rfl⟩

theorem unlock_succeeds (hx : Exclusive call held) {hint : Hint} {m m' : State R}
    {x : Outcome Unit} (h : effect call hint (.raw .unlock) m = some (x, m'))
    (hm : held m.raw = true) : x = .ok () := by
  obtain ⟨r, hr, rfl⟩ := effect_raw h
  have ha := hx _ _ _ _ _ hr
  cases x with
  | ok u => rfl
  | error e => exact absurd (ha.1.symm.trans hm) (by decide)

theorem custody_balance (hx : Exclusive call held) {hint : Hint} {a : Action} {m m' : State R}
    {x : a.Answer} {k : Nat} (h : effect call hint a m = some (x, m'))
    (hk : a = .raw .unlock → 0 < k) :
    a.custody x k + (held m.raw).toNat = k + (held m'.raw).toNat := by
  cases a with
  | load =>
    cases h
    rfl
  | store t =>
    cases h
    rfl
  | exchange e d =>
    cases h
    split <;> rfl
  | raw op =>
    obtain ⟨r, hr, rfl⟩ := effect_raw h
    have ha := hx _ _ _ _ _ hr
    cases op with
    | lock =>
      rcases x with e | u
      · simp [Action.custody, show held r = held m.raw from ha]
      · simp [Action.custody, ha.1, ha.2]
    | tryLock =>
      rcases x with e | u
      · simp [Action.custody, show held r = held m.raw from ha]
      · simp [Action.custody, ha.1, ha.2]
    | unlock =>
      have := hk rfl
      rcases x with e | u
      · simp [Action.custody, ha.1, ha.2]
      · simp [Action.custody, ha.1, ha.2]
        omega
    | isLocked => simp [Action.custody, show held r = held m.raw from ha.2]
    | destroy => simp [Action.custody, show held r = held m.raw from ha]

/-! ## What a step does at a program point -/

theorem unlock_owed {role : Role} {pc : Pc} {k : Nat} {resume : Outcome Unit → Pc}
    (hn : next pc = .act (.raw .unlock) resume) (h : role.owes pc = some k) : 0 < k := by
  cases pc with
  | acquireRaw waits => cases waits <;> cases hn
  | destroyGiveBack => cases role <;> cases h; exact Nat.one_pos
  | acquireGiveBack => cases role <;> cases h; exact Nat.one_pos
  | unlockRaw => cases role <;> cases h; exact Nat.one_pos
  | _ => cases hn

@[simp]
theorem failed_ne_succeeded (e : ErrorKind) : failed e ≠ succeeded := nofun

@[simp]
theorem owes_failed {role : Role} (h : role ≠ .releasing) (e : ErrorKind) :
    role.owes (failed e) = some 0 := by
  cases role with
  | releasing => exact absurd rfl h
  | acquiring => rfl
  | other => rfl

section Points

variable {hint : Hint} {pc : Pc} {a : Action} {resume : a.Answer → Pc} {x : a.Answer} {k : Nat}
  {m m' : State R}

/-- A call that acquires the lock never touches the status, and succeeds only
in a usable one. -/
theorem acquiring_act (hx : Exclusive call held) (hn : next pc = .act a resume)
    (he : effect call hint a m = some (x, m')) (hk : Role.acquiring.owes pc = some k)
    (hh : 0 < k → held m.raw = true) :
    Role.acquiring.owes (resume x) = some (a.custody x k) ∧ m'.status = m.status ∧
      (resume x = succeeded → m.status.usable = true) := by
  cases pc with
  | acquireCheck waits =>
    cases hn
    cases he
    cases hk
    obtain ⟨status, raw⟩ := m
    cases status <;> exact ⟨rfl, rfl, nofun⟩
  | acquireRaw waits =>
    cases hk
    cases waits <;> cases hn <;> obtain ⟨r, hr, rfl⟩ := effect_raw he <;>
      rcases x with e | u <;> exact ⟨rfl, rfl, nofun⟩
  | acquireConfirm =>
    cases hn
    cases he
    cases hk
    cases hu : m.status.usable <;>
      simp [hu, Role.owes, succeeded, LockReply.ok, Action.custody]
  | acquireGiveBack =>
    cases hn
    cases hk
    have hr := unlock_succeeds hx he (hh Nat.one_pos)
    obtain ⟨r, -, rfl⟩ := effect_raw he
    cases hr
    simp [orFail, Role.owes, failed, succeeded, LockReply.ok, Action.custody]
  | done r => cases hn
  | _ => cases hk

theorem releasing_act (hx : Exclusive call held) (hn : next pc = .act a resume)
    (he : effect call hint a m = some (x, m')) (hk : Role.releasing.owes pc = some k)
    (hh : 0 < k → held m.raw = true) (hu : m.status.usable = true) :
    Role.releasing.owes (resume x) = some (a.custody x k) ∧ m'.status = m.status := by
  cases pc with
  | unlockCheck =>
    cases hn
    cases he
    cases hk
    simp [hu, Role.owes, Action.custody]
  | unlockRaw =>
    cases hn
    cases hk
    have hr := unlock_succeeds hx he (hh Nat.one_pos)
    obtain ⟨r, -, rfl⟩ := effect_raw he
    cases hr
    simp [orFail, Role.owes, succeeded, LockReply.ok, Action.custody]
  | done r => cases hn
  | _ => cases hk

/-- Of the other calls a destroy takes the lock for a while. A status that is
not usable is written only while it has it. -/
theorem other_act (hx : Exclusive call held) (hn : next pc = .act a resume)
    (he : effect call hint a m = some (x, m')) (hk : Role.other.owes pc = some k)
    (hh : 0 < k → held m.raw = true) :
    Role.other.owes (resume x) = some (a.custody x k) ∧
      (m'.status = m.status ∨ m'.status.usable = true ∨ a.custody x k = 1) := by
  cases pc with
  | initFrom e =>
    cases hn
    cases he
    cases hk
    obtain ⟨status, raw⟩ := m
    cases status <;> cases e <;> first | exact ⟨rfl, .inl rfl⟩ | exact ⟨rfl, .inr (.inl rfl)⟩
  | initReport =>
    cases hn
    cases he
    cases hk
    cases hu : m.status.usable <;> simp [hu, Action.custody]
  | destroyClaim =>
    cases hn
    cases he
    cases hk
    obtain ⟨status, raw⟩ := m
    cases status <;> first | exact ⟨rfl, .inl rfl⟩ | exact ⟨rfl, .inr (.inl rfl)⟩
  | destroyAcquire =>
    cases hn
    cases hk
    obtain ⟨r, -, rfl⟩ := effect_raw he
    rcases x with e | u <;> exact ⟨rfl, .inl rfl⟩
  | destroyAbandon e =>
    cases hn
    cases he
    cases hk
    exact ⟨rfl, .inr (.inl rfl)⟩
  | destroyMark =>
    cases hn
    cases he
    cases hk
    exact ⟨rfl, .inr (.inr rfl)⟩
  | destroyGiveBack =>
    cases hn
    cases hk
    have hr := unlock_succeeds hx he (hh Nat.one_pos)
    obtain ⟨r, -, rfl⟩ := effect_raw he
    cases hr
    exact ⟨rfl, .inl rfl⟩
  | destroyRaw =>
    cases hn
    cases hk
    obtain ⟨r, -, rfl⟩ := effect_raw he
    rcases x with e | u
    · by_cases hb : e = .busy <;> simp [hb, Role.owes, Action.custody]
    · exact ⟨rfl, .inl rfl⟩
  | destroyRevive e =>
    cases hn
    cases he
    cases hk
    exact ⟨rfl, .inr (.inl rfl)⟩
  | lookCheck =>
    cases hn
    cases he
    cases hk
    cases hu : m.status.usable <;> simp [hu, Role.owes, Action.custody]
  | lookRaw =>
    cases hn
    cases hk
    obtain ⟨r, -, rfl⟩ := effect_raw he
    exact ⟨rfl, .inl rfl⟩
  | initializedCheck =>
    cases hn
    cases he
    cases hk
    exact ⟨rfl, .inl rfl⟩
  | done r => cases hn
  | _ => cases hk

end Points

theorem call_act (hx : Exclusive call held) {hint : Hint} {c c' : Call} {m m' : State R}
    (h : c.act? call hint m = some (c', m')) (hc : c.Fits)
    (hh : 0 < c.custody → held m.raw = true) (hu : c.holding = true → m.status.usable = true) :
    c'.Fits ∧ (c'.holding = true → m'.status.usable = true) ∧
      (m'.status = m.status ∨ m'.status.usable = true ∨ c'.custody = 1 ∧ c'.holding = false) := by
  obtain ⟨a, resume, x, hn, he, rfl⟩ := Call.act_cases h
  obtain ⟨op, pc, k⟩ := c
  simp only [Call.Fits, Call.holding, Call.succeeded] at hc hu hn ⊢
  cases hr : op.role with
  | acquiring =>
    rw [hr] at hc
    obtain ⟨ho, hs, hd⟩ := acquiring_act hx hn he hc hh
    exact ⟨ho, fun hp => hs ▸ hd (of_decide_eq_true hp), .inl hs⟩
  | releasing =>
    rw [hr] at hc hu
    have hp : pc ≠ succeeded := by
      rintro rfl
      cases hn
    obtain ⟨ho, hs⟩ := releasing_act hx hn he hc hh (hu (by simp [hp]))
    exact ⟨ho, fun _ => hs ▸ hu (by simp [hp]), .inl hs⟩
  | other =>
    rw [hr] at hc
    obtain ⟨ho, hs⟩ := other_act hx hn he hc hh
    refine ⟨ho, nofun, ?_⟩
    rcases hs with hs | hs | hs
    · exact .inl hs
    · exact .inr (.inl hs)
    · exact .inr (.inr ⟨hs, rfl⟩)

theorem call_balance (hx : Exclusive call held) {hint : Hint} {c c' : Call} {m m' : State R}
    (h : c.act? call hint m = some (c', m')) (hc : c.Fits) :
    c'.custody + (held m.raw).toNat = c.custody + (held m'.raw).toNat := by
  obtain ⟨a, resume, x, hn, he, rfl⟩ := Call.act_cases h
  refine custody_balance hx he ?_
  rintro rfl
  exact unlock_owed hn hc

theorem ended_gain {c : Call} (h : c.Fits) (he : c.ended = true) :
    c.gain = c.custody ∧ c.holding.toNat = c.custody := by
  obtain ⟨op, pc, k⟩ := c
  cases pc with
  | done r =>
    simp only [Call.Fits, Call.gain, Call.holding, Call.succeeded] at h ⊢
    cases hr : op.role with
    | acquiring =>
      rw [hr] at h
      rcases r with (e | u) | b <;> cases h <;> simp [succeeded, LockReply.ok]
    | releasing =>
      rw [hr] at h
      rcases r with (e | u) | b <;> cases h; simp [succeeded, LockReply.ok]
    | other =>
      rw [hr] at h
      cases h
      exact ⟨rfl, rfl⟩
  | _ => cases he

end SyncCore.Mutex

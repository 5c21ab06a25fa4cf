import SyncCore.Mutex.State
import SyncCore.Proofs.Lock.Exclusive

/-!
# The backing of a mutex

A client that is alone with a mutex runs a finite program of operations and
raw calls, some of them inside others. Each raw lock is one bit to such a
client, so the mutex is the product of its life cycle and that bit, and what
the client sees does not tell one raw lock from another. Only destroying a
raw lock that is held tells them apart, and no program gets there: a teardown
takes the lock and gives it back before it destroys it.
-/

set_option autoImplicit false

namespace SyncCore

def LockReply.ofAnswer : (op : LockOp) → op.Answer → LockReply
  | .lock, r => .outcome r
  | .tryLock, r => .outcome r
  | .unlock, r => .outcome r
  | .isLocked, b => .flag b
  | .destroy, r => .outcome r

/-- The raw calls of a client. Destroying the raw lock is left to the mutex. -/
abbrev LockOp.Open := { op : LockOp // op ≠ .destroy }

def BackedLock.call (me : Nat) (op : LockOp) (l : BackedLock) : Option (op.Answer × BackedLock) :=
  (l.raw.call me op).map fun r => (r.1, { l with raw := r.2 })

/-! ## Locks of one bit -/

/-- The answers of a lock that is one bit. Locking waits while the bit is set. -/
def bitCall : (op : LockOp) → Bool → Option (op.Answer × Bool)
  | .lock, false => some (.ok (), true)
  | .lock, true => none
  | .tryLock, false => some (.ok (), true)
  | .tryLock, true => some (.error .busy, true)
  | .unlock, true => some (.ok (), false)
  | .unlock, false => some (.error .invalidParameter, false)
  | .isLocked, b => some (b, b)
  | .destroy, b => some (.ok (), b)

namespace RawLock

inductive Kind where
  | spin
  | flag
  | monitor
  deriving DecidableEq, Repr

def Kind.new : Kind → RawLock
  | .spin => newSpin
  | .flag => newFlag
  | .monitor => newMonitor

/-- The state of a lock that nobody waits for, by whether it is held. -/
def Kind.real : Kind → Bool → RawLock
  | .spin, b => .spin (if b then Spin.taken else Spin.free)
  | .flag, b => .flag b
  | .monitor, b => .monitor ⟨b, none, []⟩

end RawLock

theorem BackedLock.exclusive : Exclusive BackedLock.call fun l => l.raw.held := by
  intro me op l x l' h
  obtain ⟨⟨y, r⟩, hr, hl⟩ := Option.map_eq_some_iff.mp h
  cases hl
  exact RawLock.exclusive me op l.raw y r hr

namespace Mutex

/-! ## What a lone client sees -/

inductive Report where
  | reply (r : LockReply)
  | warning (text : Option String)
  deriving DecidableEq

def Report.dropped : LockReply → Report
  | .outcome (.error e) => .warning (some (dropWarning e))
  | _ => .warning none

structure Entry where
  report : Report
  locked : Bool
  initialized : Bool
  deriving DecidableEq

/-- A finite program of one client. A guard is obtained by locking, and is
given up by a release or dropped. A function that runs under the lock is a
program of its own. -/
inductive Program where
  | done
  | call (op : Op) (rest : Program)
  | raw (op : LockOp.Open) (rest : Program)
  | drop (rest : Program)
  | under (body rest : Program)

/-- A mutex as its only client knows it. A step that would wait for ever has
no answer. -/
structure Face (σ : Type) where
  operate : Op → σ → Option (LockReply × σ)
  raw : LockOp.Open → σ → Option (LockReply × σ)
  locked : σ → Bool
  initialized : σ → Bool

namespace Face

variable {σ τ : Type}

def entry (f : Face σ) (r : Report) (s : σ) : Entry := ⟨r, f.locked s, f.initialized s⟩

def enter (f : Face σ) (report : LockReply → Report) (rest : σ → List Entry × Option σ) :
    Option (LockReply × σ) → List Entry × Option σ
  | none => ([], none)
  | some (r, s) => (f.entry (report r) s :: (rest s).1, (rest s).2)

def andThen (rest : σ → List Entry × Option σ) : List Entry × Option σ → List Entry × Option σ
  | (es, none) => (es, none)
  | (es, some s) => (es ++ (rest s).1, (rest s).2)

def run (f : Face σ) : Program → σ → List Entry × Option σ
  | .done, s => ([], some s)
  | .call op rest, s => f.enter .reply (f.run rest) (f.operate op s)
  | .raw op rest, s => f.enter .reply (f.run rest) (f.raw op s)
  | .drop rest, s => f.enter .dropped (f.run rest) (f.operate .release s)
  | .under body rest, s =>
    match f.operate .lock s with
    | some (.outcome (.ok _), s) =>
      andThen (fun s => f.enter .reply (f.run rest) (f.operate .release s)) (f.run body s)
    | r => f.enter .reply (f.run rest) r

def observe (f : Face σ) (p : Program) (s : σ) : List Entry × Bool :=
  ((f.run p s).1, (f.run p s).2.isSome)

structure Shows (f : Face σ) (g : Face τ) (real : τ → σ) : Prop where
  operate : ∀ op t, f.operate op (real t) = (g.operate op t).map fun r => (r.1, real r.2)
  raw : ∀ op t, f.raw op (real t) = (g.raw op t).map fun r => (r.1, real r.2)
  locked : ∀ t, f.locked (real t) = g.locked t
  initialized : ∀ t, f.initialized (real t) = g.initialized t

namespace Shows

variable {f : Face σ} {g : Face τ} {real : τ → σ}

theorem entry (h : Shows f g real) (r : Report) (t : τ) : f.entry r (real t) = g.entry r t := by
  rw [Face.entry, Face.entry, h.locked, h.initialized]

theorem enter (h : Shows f g real) {rest : σ → List Entry × Option σ}
    {rest' : τ → List Entry × Option τ} (hr : ∀ t, rest (real t) = (rest' t).map id (·.map real))
    (report : LockReply → Report) (x : Option (LockReply × τ)) :
    f.enter report rest (x.map fun r => (r.1, real r.2)) =
      (g.enter report rest' x).map id (·.map real) := by
  cases x with
  | none => rfl
  | some r =>
    show (f.entry (report r.1) (real r.2) :: (rest (real r.2)).1, (rest (real r.2)).2) = _
    rw [h.entry, hr]
    rfl

theorem andThen {rest : σ → List Entry × Option σ} {rest' : τ → List Entry × Option τ}
    (hr : ∀ t, rest (real t) = (rest' t).map id (·.map real)) (x : List Entry × Option τ) :
    Face.andThen rest (x.map id (·.map real)) = (Face.andThen rest' x).map id (·.map real) := by
  obtain ⟨es, s⟩ := x
  cases s with
  | none => rfl
  | some s =>
    show (es ++ (rest (real s)).1, (rest (real s)).2) = _
    rw [hr]
    rfl

theorem run (h : Shows f g real) (p : Program) (t : τ) :
    f.run p (real t) = (g.run p t).map id (·.map real) := by
  induction p generalizing t with
  | done => rfl
  | call op rest ih =>
    rw [Face.run, Face.run, h.operate]
    exact h.enter ih .reply _
  | raw op rest ih =>
    rw [Face.run, Face.run, h.raw]
    exact h.enter ih .reply _
  | drop rest ih =>
    rw [Face.run, Face.run, h.operate]
    exact h.enter ih .dropped _
  | under body rest ihb ihr =>
    have hleave : ∀ t, f.enter .reply (f.run rest) (f.operate .release (real t)) =
        (g.enter .reply (g.run rest) (g.operate .release t)).map id (·.map real) := by
      intro t
      rw [h.operate]
      exact h.enter ihr .reply _
    rw [Face.run, Face.run, h.operate]
    cases hl : g.operate .lock t with
    | none => rfl
    | some x =>
      obtain ⟨r, u⟩ := x
      rcases r with (e | v) | b
      · exact h.enter ihr .reply (some (.outcome (.error e), u))
      · show Face.andThen _ (f.run body (real u)) = _
        rw [ihb]
        exact andThen hleave (g.run body u)
      · exact h.enter ihr .reply (some (.flag b, u))

theorem observe (h : Shows f g real) (p : Program) (t : τ) :
    f.observe p (real t) = g.observe p t := by
  simp [Face.observe, h.run]

end Shows

end Face

/-! ## The ideal mutex -/

inductive Stage where
  | uninitialized
  | ready
  | destroyed
  deriving DecidableEq, Repr

structure Ideal where
  stage : Stage
  locked : Bool
  deriving DecidableEq, Repr

namespace Ideal

def raw (op : LockOp) (s : Ideal) : Option (LockReply × Ideal) :=
  (bitCall op s.locked).map fun r => (.ofAnswer op r.1, { s with locked := r.2 })

def whenReady (op : LockOp) (s : Ideal) : Option (LockReply × Ideal) :=
  match s.stage with
  | .ready => s.raw op
  | _ => some (.outcome (.error .notInitialized), s)

def operate : Op → Ideal → Option (LockReply × Ideal)
  | .init, s =>
    match s.stage with
    | .ready => some (.outcome (.error .alreadyInitialized), s)
    | _ => some (.ok, { s with stage := .ready })
  | .destroy, s =>
    match s.stage, s.locked with
    | .ready, false => some (.ok, { s with stage := .destroyed })
    | .ready, true => some (.busy, s)
    | _, _ => some (.outcome (.error .notInitialized), s)
  | .lock, s => s.whenReady .lock
  | .unlock, s => s.whenReady .unlock
  | .tryLock, s => s.whenReady .tryLock
  | .isLocked, s => some (.flag (s.stage = .ready && s.locked), s)
  | .isInitialized, s => some (.flag (s.stage = .ready), s)
  | .release, s => s.raw .unlock

def face : Face Ideal where
  operate := operate
  raw op s := s.raw op
  locked s := s.stage = .ready && s.locked
  initialized s := s.stage = .ready

end Ideal

/-! ## Every backing shows the ideal mutex -/

section Backed

variable {Hint R : Type}

def alone? (call : RawCalls Hint R) (hint : Hint) (op : Op) (s : State R) :
    Option (LockReply × State R) :=
  match next.solo (effect call hint) 16 (start op) s with
  | .finished r s => some (r, s)
  | _ => none

/-- Over the raw locks of the library this is the run of the operation. -/
theorem alone_eq_run (me : Nat) (op : Op) (s : State RawLock) :
    alone? RawLock.call me op s = run me op s := by
  rw [alone?, run]
  cases next.solo (effect RawLock.call me) 16 (start op) s <;> rfl

def face (call : RawCalls Hint R) (held : R → Bool) (hint : Hint) : Face (State R) where
  operate := alone? call hint
  raw op s := (call hint op s.raw).map fun r => (.ofAnswer op r.1, { s with raw := r.2 })
  locked s := s.isInitialized && held s.raw
  initialized s := s.isInitialized

section Guards

variable {call : RawCalls Hint R} {held : R → Bool} {hint : Hint} {s : State R}

/-- Giving up a guard unlocks the raw lock, whatever has become of the mutex. -/
theorem alone_release (s : State R) : alone? call hint .release s =
    (call hint .unlock s.raw).map fun r => (.outcome r.1, { s with raw := r.2 }) := by
  simp only [alone?, Machine.solo, start, next, effect]
  rcases call hint .unlock s.raw with _ | ⟨e | u, l⟩ <;> rfl

theorem alone_lock (h : s.isInitialized = true) : alone? call hint .lock s =
    (call hint .lock s.raw).map fun r => (.outcome r.1, { s with raw := r.2 }) := by
  have hs : s.status.usable = true := h
  simp only [alone?, Machine.solo, start, next, effect, hs, if_true]
  rcases call hint .lock s.raw with _ | ⟨e | u, l⟩
  · rfl
  · rfl
  · simp [orFail, hs, succeeded, LockReply.ok]

theorem alone_lock_refused (h : s.isInitialized = false) :
    alone? call hint .lock s = some (.outcome (.error .notInitialized), s) := by
  have hs : s.status.usable = false := h
  simp [alone?, Machine.solo, start, next, effect, hs, failed]

/-- A dropped guard unlocks the raw lock, and what the raw lock says to it is at most
warned of. -/
theorem dropped_guard_unlocks {x : Outcome Unit} {l : R} (h : call hint .unlock s.raw = some (x, l))
    (rest : Program) : (face call held hint).run (.drop rest) s =
      (face call held hint).enter .dropped ((face call held hint).run rest)
        (some (.outcome x, { s with raw := l })) := by
  show Face.enter _ _ _ (alone? call hint .release s) = _
  rw [alone_release, h]
  rfl

theorem under_locks_and_unlocks {l : R} (hs : s.isInitialized = true)
    (hl : call hint .lock s.raw = some (.ok (), l)) (body rest : Program) :
    (face call held hint).run (.under body rest) s =
      Face.andThen (fun u => (face call held hint).enter .reply ((face call held hint).run rest)
          ((call hint .unlock u.raw).map fun r => (.outcome r.1, { u with raw := r.2 })))
        ((face call held hint).run body { s with raw := l }) := by
  rw [Face.run, show (face call held hint).operate .lock s = _ from alone_lock hs, hl]
  simp only [Option.map_some]
  congr 1
  funext u
  exact congrArg _ (alone_release u)

theorem under_refused (h : s.isInitialized = false) (body rest : Program) :
    (face call held hint).run (.under body rest) s =
      (face call held hint).enter .reply ((face call held hint).run rest)
        (some (.outcome (.error .notInitialized), s)) := by
  rw [Face.run, show (face call held hint).operate .lock s = _ from alone_lock_refused h]

end Guards

def Stage.status : Stage → Status
  | .uninitialized => .uninitialized
  | .ready => .ready
  | .destroyed => .destroyed

def Ideal.state (real : Bool → R) (s : Ideal) : State R := ⟨s.stage.status, real s.locked⟩

variable {call : RawCalls Hint R} {held : R → Bool} {hint : Hint} {real : Bool → R}

end Backed

inductive Backing where
  | bare (k : RawLock.Kind)
  | native (k : RawLock.Kind)
  | fallback

def State.made {R : Type} (ready : Bool) (raw : R) : State R :=
  if ready then .ofRaw raw else .uninit raw

def Ideal.made (ready : Bool) : Ideal := ⟨if ready then .ready else .uninitialized, false⟩

def Backing.observe (b : Backing) (me : Nat) (ready : Bool) (p : Program) : List Entry × Bool :=
  match b with
  | .bare k => (face RawLock.call RawLock.held me).observe p (.made ready k.new)
  | .native k =>
    (face BackedLock.call (fun l => l.raw.held) me).observe p (.made ready ⟨true, k.new⟩)
  | .fallback =>
    (face BackedLock.call (fun l => l.raw.held) me).observe p (.made ready .spinning)

/-- An unlock inside a function that runs under the lock takes the lock away
from it, and the release at its end is refused. -/
example : Ideal.face.observe (.under (.call .unlock .done) (.call .destroy .done)) (.made true) =
    ([⟨.reply .ok, false, true⟩, ⟨.reply .notHeld, false, true⟩, ⟨.reply .ok, false, false⟩],
      true) := by
  decide

end Mutex

end SyncCore

import SyncCore.Proofs.Lock.Waking
import SyncCore.Proofs.Mutex.Backing

/-!
# The instants at which raw locks take effect

Any number of threads lock, try, unlock and look at one raw lock, one action at a
time. A locker claims, reads and sleeps as often as it has to, and what it has
read may be out of date when it acts on it. Still every operation takes effect in
one action of its own, and in the order of these actions the lock is one bit.
-/

set_option autoImplicit false

namespace SyncCore

def LockOp.Takes (op : LockOp) (before : Bool) (r : LockReply) (after : Bool) : Prop :=
  ∃ a, bitCall op before = some (a, after) ∧ r = .ofAnswer op a

theorem LockOp.Takes.locked {r : LockReply} {b : Bool} (h : LockOp.lock.Takes false r b) :
    r = .ok ∧ b = true := by
  obtain ⟨a, ha, rfl⟩ := h
  cases ha
  exact ⟨rfl, rfl⟩

/-- An action of an operation, told by the reply it is bound to give and by the bit
of the lock: the operation takes effect, or neither of the two changes. -/
def LockOp.Acts (op : LockOp) (settled : Option LockReply) (before : Bool)
    (settled' : Option LockReply) (after : Bool) : Prop :=
  (settled' = settled ∧ after = before) ∨
    (settled = none ∧ ∃ r, settled' = some r ∧ op.Takes before r after)

theorem LockOp.Acts.trans {op : LockOp} {x y z : Option LockReply} {a b c : Bool}
    (h : op.Acts x a y b) (h' : op.Acts y b z c) : op.Acts x a z c := by
  obtain ⟨rfl, rfl⟩ | ⟨rfl, r, rfl, ht⟩ := h
  · exact h'
  · obtain ⟨rfl, rfl⟩ | ⟨hn, -⟩ := h'
    · exact .inr ⟨rfl, r, rfl, ht⟩
    · cases hn

/-! ## The spinlock -/

namespace Spin

def Pc.settled? : Pc → Option LockReply
  | .done r => some r
  | _ => none

def Pc.Serves (op : LockOp) : Pc → Prop
  | .claim => op = .lock
  | .wait => op = .lock
  | .tryClaim => op = .tryLock
  | .release => op = .unlock
  | .look => op = .isLocked
  | .done _ => True

variable {op : LockOp} {pc pc' : Pc} {w w' : Int32}

theorem serves_start (h : op ≠ .destroy) : (start op).Serves op ∧ (start op).settled? = none := by
  cases op with
  | destroy => exact absurd rfl h
  | _ => exact ⟨rfl, rfl⟩

theorem acts_of_step (hw : w = free ∨ w = taken) (hp : pc.Serves op)
    (h : next.step? Atomic.effect pc w = some (pc', w')) :
    (w' = free ∨ w' = taken) ∧ pc'.Serves op ∧
      op.Acts pc.settled? (isLocked w) pc'.settled? (isLocked w') := by
  obtain ⟨a, resume, x, hn, he, rfl⟩ := Machine.step_cases h
  cases pc with
  | claim =>
    cases hp
    cases hn
    obtain rfl | rfl := hw <;> cases he
    · exact ⟨.inr rfl, trivial, .inr ⟨rfl, _, rfl, (.ok () : Outcome Unit), rfl, rfl⟩⟩
    · exact ⟨.inr rfl, rfl, .inl ⟨rfl, rfl⟩⟩
  | wait =>
    cases hp
    cases hn
    obtain rfl | rfl := hw <;> cases he
    · exact ⟨.inl rfl, rfl, .inl ⟨rfl, rfl⟩⟩
    · exact ⟨.inr rfl, rfl, .inl ⟨rfl, rfl⟩⟩
  | tryClaim =>
    cases hp
    cases hn
    obtain rfl | rfl := hw <;> cases he
    · exact ⟨.inr rfl, trivial, .inr ⟨rfl, _, rfl, (.ok () : Outcome Unit), rfl, rfl⟩⟩
    · exact ⟨.inr rfl, trivial, .inr ⟨rfl, _, rfl, (.error .busy : Outcome Unit), rfl, rfl⟩⟩
  | release =>
    cases hp
    cases hn
    obtain rfl | rfl := hw <;> cases he
    · exact ⟨.inl rfl, trivial,
        .inr ⟨rfl, _, rfl, (.error .invalidParameter : Outcome Unit), rfl, rfl⟩⟩
    · exact ⟨.inl rfl, trivial, .inr ⟨rfl, _, rfl, (.ok () : Outcome Unit), rfl, rfl⟩⟩
  | look =>
    cases hp
    cases hn
    obtain rfl | rfl := hw <;> cases he
    · exact ⟨.inl rfl, trivial, .inr ⟨rfl, _, rfl, false, rfl, rfl⟩⟩
    · exact ⟨.inr rfl, trivial, .inr ⟨rfl, _, rfl, true, rfl, rfl⟩⟩
  | done r => cases hn

end Spin

/-! ## The yielding lock -/

namespace Flag

def Pc.settled? : Pc → Option LockReply
  | .done r => some r
  | _ => none

def Pc.Serves (op : LockOp) : Pc → Prop
  | .claim => op = .lock
  | .pause => op = .lock
  | .tryClaim => op = .tryLock
  | .release => op = .unlock
  | .look => op = .isLocked
  | .check => False
  | .done _ => True

variable {op : LockOp} {pc pc' : Pc} {b b' : Bool}

theorem serves_start (h : op ≠ .destroy) : (start op).Serves op ∧ (start op).settled? = none := by
  cases op with
  | destroy => exact absurd rfl h
  | _ => exact ⟨rfl, rfl⟩

theorem acts_of_step (hp : pc.Serves op) (h : next.step? effect pc b = some (pc', b')) :
    pc'.Serves op ∧ op.Acts pc.settled? b pc'.settled? b' := by
  obtain ⟨a, resume, x, hn, he, rfl⟩ := Machine.step_cases h
  cases pc with
  | claim =>
    cases hp
    cases hn
    cases b <;> cases he
    · exact ⟨trivial, .inr ⟨rfl, _, rfl, (.ok () : Outcome Unit), rfl, rfl⟩⟩
    · exact ⟨rfl, .inl ⟨rfl, rfl⟩⟩
  | pause =>
    cases hp
    cases hn
    cases he
    exact ⟨rfl, .inl ⟨rfl, rfl⟩⟩
  | tryClaim =>
    cases hp
    cases hn
    cases b <;> cases he
    · exact ⟨trivial, .inr ⟨rfl, _, rfl, (.ok () : Outcome Unit), rfl, rfl⟩⟩
    · exact ⟨trivial, .inr ⟨rfl, _, rfl, (.error .busy : Outcome Unit), rfl, rfl⟩⟩
  | release =>
    cases hp
    cases hn
    cases b <;> cases he
    · exact ⟨trivial, .inr ⟨rfl, _, rfl, (.error .invalidParameter : Outcome Unit), rfl, rfl⟩⟩
    · exact ⟨trivial, .inr ⟨rfl, _, rfl, (.ok () : Outcome Unit), rfl, rfl⟩⟩
  | look =>
    cases hp
    cases hn
    cases he
    exact ⟨trivial, .inr ⟨rfl, _, rfl, b, rfl, rfl⟩⟩
  | check => cases hp
  | done r => cases hn

end Flag

/-! ## The blocking lock -/

namespace Monitor

/-- The reply that a call is bound to give, once it has taken effect. A lock and an
unlock take effect when they write the flag, everything else when it reads it. -/
def Pc.settled? : Pc → Option LockReply
  | .leave r => some r
  | .leaveFreed => some .ok
  | .notify => some .ok
  | .done r => some r
  | _ => none

def Pc.Serves (op : LockOp) : Pc → Prop
  | .enter o => o = op ∧ op ≠ .destroy
  | .test o => o = op ∧ op ≠ .destroy
  | .write true _ => op = .lock ∨ op = .tryLock
  | .write false _ => op = .unlock
  | .sleep => op = .lock
  | .asleep => op = .lock
  | _ => True

variable {op : LockOp} {i : ThreadId} {pc pc' : Pc} {s s' : State}

theorem Turn.acts (h : Turn i s pc s' pc') (hf : Call.Fits s i ⟨pc, true⟩) (hp : pc.Serves op) :
    pc'.Serves op ∧ op.Acts pc.settled? s.flag pc'.settled? s'.flag := by
  cases h with
  | enter => exact ⟨hp, .inl ⟨rfl, rfl⟩⟩
  | @test o =>
    obtain ⟨rfl, hd⟩ := hp
    cases hs : s.flag <;> cases o
    · exact ⟨.inl rfl, .inl ⟨rfl, rfl⟩⟩
    · exact ⟨.inr rfl, .inl ⟨rfl, rfl⟩⟩
    · exact ⟨trivial, .inr ⟨rfl, _, rfl, (.error .invalidParameter : Outcome Unit), rfl, rfl⟩⟩
    · exact ⟨trivial, .inr ⟨rfl, _, rfl, false, rfl, rfl⟩⟩
    · exact absurd rfl hd
    · exact ⟨rfl, .inl ⟨rfl, rfl⟩⟩
    · exact ⟨trivial, .inr ⟨rfl, _, rfl, (.error .busy : Outcome Unit), rfl, rfl⟩⟩
    · exact ⟨rfl, .inl ⟨rfl, rfl⟩⟩
    · exact ⟨trivial, .inr ⟨rfl, _, rfl, true, rfl, rfl⟩⟩
    · exact absurd rfl hd
  | @write b wakes =>
    -- Under the guard the flag is still what it was found to be.
    obtain ⟨-, hs, rfl⟩ := hf
    rw [hs]
    cases b with
    | true =>
      obtain rfl | rfl := hp <;>
        exact ⟨trivial, .inr ⟨rfl, _, rfl, (.ok () : Outcome Unit), rfl, rfl⟩⟩
    | false =>
      cases hp
      exact ⟨trivial, .inr ⟨rfl, _, rfl, (.ok () : Outcome Unit), rfl, rfl⟩⟩
  | sleep => exact ⟨hp, .inl ⟨rfl, rfl⟩⟩
  | wake =>
    cases hp
    exact ⟨⟨rfl, nofun⟩, .inl ⟨rfl, rfl⟩⟩
  | _ => exact ⟨trivial, .inl ⟨rfl, rfl⟩⟩

end Monitor

/-! ## Raw locks as they are run -/

namespace RawLock

structure Mechanism where
  interface : Interface
  Pc : Type
  State : Type
  fresh : State
  start : LockOp → Pc
  next : Machine interface Pc LockReply
  /-- The effect of an action of the given thread. If it wakes another one, then the
  given one, if any. -/
  effect : Nat → Option Nat → Effect interface State
  stir? : Nat → State → Option State
  held : State → Bool
  /-- The reply that a call is bound to give, once it has taken effect. -/
  settled? : Pc → Option LockReply

def Kind.mechanism : Kind → Mechanism
  | .spin =>
    { interface := Atomic.interface
      Pc := Spin.Pc
      State := Int32
      fresh := Spin.free
      start := Spin.start
      next := Spin.next
      effect := fun _ _ => Atomic.effect
      stir? := fun _ _ => none
      held := Spin.isLocked
      settled? := Spin.Pc.settled? }
  | .flag =>
    { interface := Flag.interface
      Pc := Flag.Pc
      State := Bool
      fresh := false
      start := Flag.start
      next := Flag.next
      effect := fun _ _ => Flag.effect
      stir? := fun _ _ => none
      held := id
      settled? := Flag.Pc.settled? }
  | .monitor =>
    { interface := Monitor.interface
      Pc := Monitor.Pc
      State := Monitor.State
      fresh := .initial
      start := Monitor.start
      next := Monitor.next
      effect := Monitor.effectOn
      stir? := fun i s =>
        if i ∈ s.sleepers then some { s with sleepers := s.sleepers.erase i } else none
      held := Monitor.State.flag
      settled? := Monitor.Pc.settled? }

structure Mechanism.Sound (M : Mechanism) where
  Good : M.State → Prop
  Fits : M.State → Nat → LockOp → M.Pc → Prop
  fresh : Good M.fresh
  free : M.held M.fresh = false
  start : ∀ s i op, op ≠ .destroy →
    Fits s i op (M.start op) ∧ M.settled? (M.start op) = none
  act : ∀ {i woken op s s' pc pc'}, Good s → Fits s i op pc →
    M.next.step? (M.effect i woken) pc s = some (pc', s') →
    Good s' ∧ Fits s' i op pc' ∧
      op.Acts (M.settled? pc) (M.held s) (M.settled? pc') (M.held s')
  apart : ∀ {i j woken op o s s' pc pc' q}, Fits s i op pc →
    M.next.step? (M.effect i woken) pc s = some (pc', s') → j ≠ i → Fits s j o q → Fits s' j o q
  stir : ∀ {i s s'}, M.stir? i s = some s' → Good s →
    Good s' ∧ M.held s' = M.held s ∧ ∀ j o q, Fits s j o q → Fits s' j o q
  done : ∀ {pc r}, M.next pc = .done r → M.settled? pc = some r

def Kind.sound : (k : Kind) → k.mechanism.Sound
  | .spin =>
    { Good := fun w => w = Spin.free ∨ w = Spin.taken
      Fits := fun _ _ op pc => Spin.Pc.Serves op pc
      fresh := .inl rfl
      free := rfl
      start := fun _ _ _ h => Spin.serves_start h
      act := fun hg hf h => Spin.acts_of_step hg hf h
      apart := fun _ _ _ hj => hj
      stir := nofun
      done := fun {pc} _ h => by cases pc <;> cases h; rfl }
  | .flag =>
    { Good := fun _ => True
      Fits := fun _ _ op pc => Flag.Pc.Serves op pc
      fresh := trivial
      free := rfl
      start := fun _ _ _ h => Flag.serves_start h
      act := fun _ hf h => ⟨trivial, Flag.acts_of_step hf h⟩
      apart := fun _ _ _ hj => hj
      stir := nofun
      done := fun {pc} _ h => by cases pc <;> cases h; rfl }
  | .monitor =>
    { Good := fun _ => True
      Fits := fun s i op pc => Monitor.Call.Fits s i ⟨pc, true⟩ ∧ Monitor.Pc.Serves op pc
      fresh := trivial
      free := rfl
      start := fun _ _ _ h => ⟨⟨trivial, rfl, h⟩, rfl⟩
      act := fun _ hf h =>
        have ht := Monitor.turn_of_step h
        have ha := ht.acts hf.1 hf.2
        ⟨trivial, ⟨ht.fits hf.1, ha.1⟩, ha.2⟩
      apart := fun hf h hij hj =>
        ⟨hj.1.mono ((Monitor.turn_of_step h).apart hf.1 hij), hj.2⟩
      stir := fun {i s s'} h _ => by
        obtain ⟨-, h⟩ := Option.ite_none_right_eq_some.mp h
        cases h
        exact ⟨trivial, rfl, fun j o q hq => ⟨hq.1.mono fun hi => ⟨hi, rfl⟩, hq.2⟩⟩
      done := fun {pc} _ h => by cases pc <;> cases h; rfl }

/-! ## Threads that share a raw lock -/

structure Deed where
  thread : Nat
  op : LockOp
  reply : LockReply
  deriving DecidableEq

namespace Deed

def acquires (d : Deed) : Bool := (d.op = .lock || d.op = .tryLock) && d.reply = .ok

def releases (d : Deed) : Bool := d.op = .unlock && d.reply = .ok

end Deed

structure Call (M : Mechanism) where
  op : LockOp
  pc : M.Pc

structure Contest (M : Mechanism) where
  lock : M.State
  calls : Nat → Option (Call M)
  /-- What has taken effect, in the order in which it did. -/
  deeds : List Deed
  returns : List Deed

inductive Choice where
  | begin (i : Nat) (op : LockOp)
  | act (i : Nat) (woken : Option Nat)
  | stir (i : Nat)
  | finish (i : Nat)
  deriving DecidableEq

section Contests

variable {M : Mechanism}

def Mechanism.decides? (M : Mechanism) (pc pc' : M.Pc) : Option LockReply :=
  match M.settled? pc with
  | some _ => none
  | none => M.settled? pc'

theorem Mechanism.decides_none {pc pc' : M.Pc} (h : M.settled? pc' = M.settled? pc) :
    M.decides? pc pc' = none := by
  rw [decides?, h]
  cases M.settled? pc <;> rfl

theorem Mechanism.decides_of_none {pc pc' : M.Pc} (h : M.settled? pc = none) :
    M.decides? pc pc' = M.settled? pc' := by
  rw [decides?, h]

namespace Contest

def fresh (M : Mechanism) : Contest M := ⟨M.fresh, fun _ => none, [], []⟩

def put (s : Contest M) (i : Nat) (c : Option (Call M)) (l : M.State) (deeds returns : List Deed) :
    Contest M :=
  ⟨l, Function.update s.calls i c, s.deeds ++ deeds, s.returns ++ returns⟩

/-- A call may be any operation but the destruction of the lock. -/
def step? : Choice → Contest M → Option (Contest M)
  | .begin i op, s =>
    match s.calls i with
    | none => if op = .destroy then none else some (s.put i (some ⟨op, M.start op⟩) s.lock [] [])
    | some _ => none
  | .act i woken, s =>
    (s.calls i).bind fun c =>
      (M.next.step? (M.effect i woken) c.pc s.lock).map fun r =>
        s.put i (some ⟨c.op, r.1⟩) r.2 ((M.decides? c.pc r.1).map (Deed.mk i c.op)).toList []
  | .stir i, s => (M.stir? i s.lock).map fun l => { s with lock := l }
  | .finish i, s =>
    (s.calls i).bind fun c =>
      match M.next c.pc with
      | .done r => some (s.put i none s.lock [] [⟨i, c.op, r⟩])
      | .act _ _ => none

def pending (s : Contest M) (i : Nat) : Option Deed :=
  (s.calls i).bind fun c => (M.settled? c.pc).map (Deed.mk i c.op)

/-- A step is the one in which a call takes effect on the lock, or it leaves the bit
of the lock as it is. -/
def Instant (s : Contest M) (c : Choice) (t : Contest M) : Prop :=
  (t.deeds = s.deeds ∧ M.held t.lock = M.held s.lock) ∨
  ∃ i woken k r, c = .act i woken ∧ s.calls i = some k ∧ s.pending i = none ∧
    t.deeds = s.deeds ++ [⟨i, k.op, r⟩] ∧ k.op.Takes (M.held s.lock) r (M.held t.lock)

end Contest

/-! ## The invariant -/

structure Linear (S : M.Sound) (s : Contest M) : Prop where
  good : S.Good s.lock
  fits : ∀ i c, s.calls i = some c → S.Fits s.lock i c.op c.pc
  told : ∀ i, s.deeds.filter (·.thread = i) =
    s.returns.filter (·.thread = i) ++ (s.pending i).toList
  balance : s.deeds.countP Deed.acquires = s.deeds.countP Deed.releases + (M.held s.lock).toNat

theorem Deed.balance {i : Nat} {op : LockOp} {r : LockReply} {b b' : Bool} (h : op.Takes b r b') :
    [Deed.mk i op r].countP acquires + b.toNat = [Deed.mk i op r].countP releases + b'.toNat := by
  obtain ⟨a, ha, rfl⟩ := h
  cases op <;> cases b <;> cases ha <;> rfl

namespace Linear

variable {s t : Contest M} {i : Nat} {S : M.Sound}

theorem fresh (S : M.Sound) : Linear S (.fresh M) where
  good := S.fresh
  fits := fun _ _ h => nomatch h
  told := fun _ => rfl
  balance := by simp [Contest.fresh, S.free]

theorem put (hs : Linear S s) {c : Option (Call M)} {l : M.State} {ds rs : List Deed}
    (good : S.Good l) (own : ∀ k, c = some k → S.Fits l i k.op k.pc)
    (apart : ∀ j o q, j ≠ i → S.Fits s.lock j o q → S.Fits l j o q)
    (mine : ∀ d ∈ ds ++ rs, d.thread = i)
    (told : (s.pending i).toList ++ ds = rs ++ ((s.put i c l ds rs).pending i).toList)
    (balance : ds.countP Deed.acquires + (M.held s.lock).toNat =
      ds.countP Deed.releases + (M.held l).toNat) : Linear S (s.put i c l ds rs) where
  good := good
  fits := fun j k hk => by
    by_cases hj : j = i
    · subst hj
      exact own k (by simpa [Contest.put] using hk)
    · exact apart j k.op k.pc hj (hs.fits j k (by simpa [Contest.put, hj] using hk))
  told := fun j => by
    show (s.deeds ++ ds).filter (·.thread = j) = (s.returns ++ rs).filter (·.thread = j) ++ _
    rw [List.filter_append, List.filter_append, hs.told j, List.append_assoc, List.append_assoc]
    congr 1
    by_cases hj : j = i
    · subst hj
      rw [List.filter_eq_self.mpr fun d hd => by simp [mine d (List.mem_append_left rs hd)],
        List.filter_eq_self.mpr fun d hd => by simp [mine d (List.mem_append_right ds hd)]]
      exact told
    · have hp : (s.put i c l ds rs).pending j = s.pending j := by
        simp [Contest.pending, Contest.put, hj]
      rw [List.filter_eq_nil_iff.mpr fun d hd => by
          simp [mine d (List.mem_append_left rs hd), Ne.symm hj],
        List.filter_eq_nil_iff.mpr fun d hd => by
          simp [mine d (List.mem_append_right ds hd), Ne.symm hj], hp, List.append_nil,
        List.nil_append]
  balance := by
    have hb := hs.balance
    simp only [Contest.put, List.countP_append]
    omega

theorem begin {op : LockOp} (hs : Linear S s) (hd : op ≠ .destroy) (hc : s.calls i = none) :
    Linear S (s.put i (some ⟨op, M.start op⟩) s.lock [] []) := by
  have hst := S.start s.lock i op hd
  refine hs.put hs.good ?_ (fun _ _ _ _ => id) nofun ?_ rfl
  · rintro k ⟨⟩
    exact hst.1
  · simp [Contest.pending, Contest.put, hc, hst.2]

theorem act {k : Call M} {woken : Option Nat} {pc : M.Pc} {l : M.State} (hs : Linear S s)
    (hk : s.calls i = some k)
    (h : M.next.step? (M.effect i woken) k.pc s.lock = some (pc, l)) :
    Linear S (s.put i (some ⟨k.op, pc⟩) l ((M.decides? k.pc pc).map (Deed.mk i k.op)).toList []) ∧
      Contest.Instant s (.act i woken)
        (s.put i (some ⟨k.op, pc⟩) l ((M.decides? k.pc pc).map (Deed.mk i k.op)).toList []) := by
  have hf := hs.fits i k hk
  obtain ⟨hg, hf', hact⟩ := S.act hs.good hf h
  have own : ∀ c, some (⟨k.op, pc⟩ : Call M) = some c → S.Fits l i c.op c.pc := by
    rintro c ⟨⟩
    exact hf'
  have apart : ∀ j o q, j ≠ i → S.Fits s.lock j o q → S.Fits l j o q :=
    fun j o q hj => S.apart hf h hj
  obtain ⟨hset, hheld⟩ | ⟨hset, r, hr, ht⟩ := hact
  · rw [Mechanism.decides_none hset]
    refine ⟨hs.put hg own apart nofun ?_ (by rw [hheld]; rfl), .inl ⟨List.append_nil _, hheld⟩⟩
    simp [Contest.pending, Contest.put, hk, hset]
  · have hn : M.decides? k.pc pc = some r := (Mechanism.decides_of_none hset).trans hr
    have hp : s.pending i = none := by simp [Contest.pending, hk, hset]
    rw [hn]
    refine ⟨hs.put hg own apart ?_ ?_ (Deed.balance ht),
      .inr ⟨i, woken, k, r, rfl, hk, hp, rfl, ht⟩⟩
    · simp
    · rw [hp]
      simp [Contest.pending, Contest.put, hr]

theorem finish {k : Call M} {r : LockReply} (hs : Linear S s) (hk : s.calls i = some k)
    (hn : M.next k.pc = .done r) : Linear S (s.put i none s.lock [] [⟨i, k.op, r⟩]) := by
  refine hs.put hs.good nofun (fun _ _ _ _ => id) ?_ ?_ rfl
  · simp
  · simp [Contest.pending, Contest.put, hk, S.done hn]

theorem step {c : Choice} (hs : Linear S s) (h : Contest.step? c s = some t) :
    Linear S t ∧ Contest.Instant s c t := by
  cases c with
  | begin i op =>
    cases hc : s.calls i with
    | some k => simp [Contest.step?, hc] at h
    | none =>
      simp only [Contest.step?, hc, Option.ite_none_left_eq_some, Option.some.injEq] at h
      obtain ⟨hd, rfl⟩ := h
      exact ⟨hs.begin hd hc, .inl ⟨List.append_nil _, rfl⟩⟩
  | act i woken =>
    obtain ⟨k, hk, h⟩ := Option.bind_eq_some_iff.mp h
    obtain ⟨⟨pc, l⟩, hst, rfl⟩ := Option.map_eq_some_iff.mp h
    exact hs.act hk hst
  | stir i =>
    obtain ⟨l, hl, rfl⟩ := Option.map_eq_some_iff.mp h
    obtain ⟨hg, hheld, hf⟩ := S.stir hl hs.good
    refine ⟨⟨hg, fun j k hk => hf _ _ _ (hs.fits j k hk), hs.told, ?_⟩, .inl ⟨rfl, hheld⟩⟩
    show s.deeds.countP _ = _
    rw [hheld]
    exact hs.balance
  | finish i =>
    obtain ⟨k, hk, h⟩ := Option.bind_eq_some_iff.mp h
    cases hn : M.next k.pc with
    | act a resume => simp [hn] at h
    | done r =>
      simp only [hn, Option.some.injEq] at h
      subst h
      exact ⟨hs.finish hk hn, .inl ⟨List.append_nil _, rfl⟩⟩

end Linear

/-! ## Threads that are left alone -/

inductive Mechanism.Ends (M : Mechanism) (i : Nat) :
    M.Pc → M.State → LockReply → M.State → Prop where
  | done {pc : M.Pc} {l : M.State} {r : LockReply} : M.next pc = .done r → M.Ends i pc l r l
  | act (woken : Option Nat) {pc pc' : M.Pc} {l l' l'' : M.State} {r : LockReply} :
    M.next.step? (M.effect i woken) pc l = some (pc', l') → M.Ends i pc' l' r l'' →
    M.Ends i pc l r l''

/-- No other thread keeps the given one waiting: the guard of the blocking lock is free
when it is to be entered, and a sleeper has been woken. -/
def Kind.Admits : (k : Kind) → k.mechanism.State → Nat → k.mechanism.Pc → Prop
  | .monitor, l, _, .enter _ => l.inside = none
  | .monitor, l, i, .asleep => l.inside = none ∧ i ∉ l.sleepers
  | _, _, _, _ => True

section Alone

variable {i : Nat} {op : LockOp}

theorem spin_ends {pc : Spin.Pc} {w : Int32} (hw : w = Spin.free ∨ w = Spin.taken)
    (hp : pc.Serves op) (hl : op = .lock → pc.settled? = none → Spin.isLocked w = false) :
    ∃ r u, Kind.spin.mechanism.Ends i pc w r u := by
  have claimed : Kind.spin.mechanism.Ends i Spin.Pc.claim Spin.free .ok Spin.taken :=
    .act none rfl (.done rfl)
  have freed (ho : op = .lock) (hs : pc.settled? = none) : w = Spin.free :=
    hw.resolve_right fun ht => of_decide_eq_false (hl ho hs) ht
  cases pc with
  | claim =>
    obtain rfl := freed hp rfl
    exact ⟨_, _, claimed⟩
  | wait =>
    obtain rfl := freed hp rfl
    exact ⟨_, _, .act none rfl claimed⟩
  | done r => exact ⟨_, _, .done rfl⟩
  | _ => obtain rfl | rfl := hw <;> exact ⟨_, _, .act none rfl (.done rfl)⟩

theorem flag_ends {pc : Flag.Pc} {b : Bool} (hp : pc.Serves op)
    (hl : op = .lock → pc.settled? = none → b = false) :
    ∃ r u, Kind.flag.mechanism.Ends i pc b r u := by
  have claimed : Kind.flag.mechanism.Ends i Flag.Pc.claim false .ok true :=
    .act none rfl (.done rfl)
  cases pc with
  | claim =>
    obtain rfl := hl hp rfl
    exact ⟨_, _, claimed⟩
  | pause =>
    obtain rfl := hl hp rfl
    exact ⟨_, _, .act none rfl claimed⟩
  | done r => exact ⟨_, _, .done rfl⟩
  | _ => cases b <;> exact ⟨_, _, .act none rfl (.done rfl)⟩

theorem monitor_notifies (l : Monitor.State) :
    ∃ u, Kind.monitor.mechanism.Ends i Monitor.Pc.notify l .ok u := by
  obtain ⟨flag, inside, sleepers⟩ := l
  cases sleepers with
  | nil => exact ⟨⟨flag, inside, []⟩, .act none rfl (.done rfl)⟩
  | cons k ks =>
    have ended : Kind.monitor.mechanism.Ends i (Monitor.Pc.done .ok) ⟨flag, inside, ks⟩ .ok _ :=
      .done rfl
    refine ⟨_, .act (some k) ?_ ended⟩
    simp [Kind.mechanism, Machine.step?, Monitor.next, Monitor.effectOn]

theorem monitor_leaves {l : Monitor.State} {pc : Monitor.Pc} (h : pc.settled?.isSome = true) :
    ∃ r u, Kind.monitor.mechanism.Ends i pc l r u := by
  cases pc with
  | leave r => exact ⟨_, _, .act none rfl (.done rfl)⟩
  | leaveFreed =>
    obtain ⟨u, hu⟩ := monitor_notifies { l with inside := none }
    exact ⟨_, _, .act none rfl hu⟩
  | notify => exact ⟨_, monitor_notifies l⟩
  | done r => exact ⟨_, _, .done rfl⟩
  | _ => cases h

theorem monitor_acts {pc : Monitor.Pc} {l : Monitor.State} (pc' : Monitor.Pc) (l' : Monitor.State)
    (h : Monitor.next.step? (Monitor.effectOn i none) pc l = some (pc', l'))
    (he : ∃ r u, Kind.monitor.mechanism.Ends i pc' l' r u) :
    ∃ r u, Kind.monitor.mechanism.Ends i pc l r u := by
  obtain ⟨r, u, he⟩ := he
  exact ⟨r, u, .act none h he⟩

theorem monitor_writes (l : Monitor.State) (b : Bool) :
    ∃ r u, Kind.monitor.mechanism.Ends i (.write b !b) l r u := by
  refine monitor_acts _ _ rfl (monitor_leaves ?_)
  cases b <;> rfl

theorem monitor_tests {l : Monitor.State} (hd : op ≠ .destroy) (hl : op = .lock → l.flag = false) :
    ∃ r u, Kind.monitor.mechanism.Ends i (.test op) l r u := by
  refine monitor_acts _ _ rfl ?_
  cases hflag : l.flag with
  | false =>
    cases op with
    | destroy => exact absurd rfl hd
    | lock => exact monitor_writes l true
    | tryLock => exact monitor_writes l true
    | _ => exact monitor_leaves rfl
  | true =>
    cases op with
    | destroy => exact absurd rfl hd
    | lock => cases hflag.symm.trans (hl rfl)
    | unlock => exact monitor_writes l false
    | _ => exact monitor_leaves rfl

theorem monitor_enters {l : Monitor.State} (hi : l.inside = none) (hd : op ≠ .destroy)
    (hl : op = .lock → l.flag = false) :
    ∃ r u, Kind.monitor.mechanism.Ends i (.enter op) l r u := by
  refine monitor_acts (.test op) { l with inside := some i } ?_ (monitor_tests hd hl)
  simp [Machine.step?, Monitor.next, Monitor.effectOn, Monitor.effect, hi]

theorem monitor_ends {pc : Monitor.Pc} {l : Monitor.State} (hf : Monitor.Call.Fits l i ⟨pc, true⟩)
    (hp : pc.Serves op) (ha : Kind.monitor.Admits l i pc)
    (hl : op = .lock → pc.settled? = none → l.flag = false) :
    ∃ r u, Kind.monitor.mechanism.Ends i pc l r u := by
  cases pc with
  | enter o =>
    obtain ⟨rfl, hd⟩ := hp
    exact monitor_enters ha hd fun ho => hl ho rfl
  | test o =>
    obtain ⟨rfl, hd⟩ := hp
    exact monitor_tests hd fun ho => hl ho rfl
  | write b wakes =>
    obtain ⟨-, -, rfl⟩ := hf
    exact monitor_writes l b
  -- Who is about to fall asleep has found the flag set.
  | sleep => cases hf.2.symm.trans (hl hp rfl)
  | asleep =>
    cases hp
    refine monitor_acts (.enter .lock) l ?_ (monitor_enters ha.1 nofun fun ho => hl ho rfl)
    simp [Machine.step?, Monitor.next, Monitor.effectOn, Monitor.effect, ha.2]
  | _ => exact monitor_leaves rfl

theorem Kind.ends (k : Kind) {pc : k.mechanism.Pc} {l : k.mechanism.State}
    (hg : k.sound.Good l) (hf : k.sound.Fits l i op pc) (ha : k.Admits l i pc)
    (hl : op = .lock → k.mechanism.settled? pc = none → k.mechanism.held l = false) :
    ∃ r u, k.mechanism.Ends i pc l r u := by
  cases k with
  | spin => exact spin_ends hg hf hl
  | flag => exact flag_ends hf hl
  | monitor => exact monitor_ends hf.1 hf.2 ha hl

theorem Mechanism.Ends.run {S : M.Sound} {pc : M.Pc} {l l' : M.State} {r : LockReply}
    (h : M.Ends i pc l r l') {s : Contest M} (hs : Linear S s) (hk : s.calls i = some ⟨op, pc⟩)
    (hl : s.lock = l) :
    ∃ (ws : List (Option Nat)) (t : Contest M),
      run? Contest.step? (ws.map (Choice.act i) ++ [.finish i]) s = some t ∧
      t.calls i = none ∧ t.returns = s.returns ++ [⟨i, op, r⟩] ∧
      t.deeds ++ (s.pending i).toList = s.deeds ++ [⟨i, op, r⟩] ∧
      op.Acts (M.settled? pc) (M.held s.lock) (some r) (M.held t.lock) := by
  induction h generalizing s with
  | @done pc l r hn =>
    refine ⟨[], s.put i none s.lock [] [⟨i, op, r⟩], ?_, ?_, rfl, ?_, .inl ⟨(S.done hn).symm, rfl⟩⟩
    · simp [run?, Contest.step?, hk, hn]
    · simp [Contest.put]
    · simp [Contest.put, Contest.pending, hk, S.done hn]
  | @act woken pc pc' l l' l'' r hst _ ih =>
    subst hl
    have hfirst : Contest.step? (.act i woken) s =
        some (s.put i (some ⟨op, pc'⟩) l' ((M.decides? pc pc').map (Deed.mk i op)).toList []) := by
      simp [Contest.step?, hk, hst]
    have hacts := (S.act hs.good (hs.fits i _ hk) hst).2.2
    obtain ⟨ws, t, ht, hc, hr, hd, ha⟩ := ih (hs.act hk hst).1 (by simp [Contest.put]) rfl
    refine ⟨woken :: ws, t, ?_, hc, ?_, ?_, hacts.trans ha⟩
    · rw [List.map_cons, List.cons_append, run?, hfirst]
      exact ht
    · rw [hr]
      exact congrArg (· ++ _) (List.append_nil _)
    · obtain ⟨he, -⟩ | ⟨hn, q, hq, -⟩ := hacts
      · simpa [Contest.put, Contest.pending, Mechanism.decides_none he, hk, he] using hd
      -- What takes effect here is what the thread is answered in the end.
      · have hd : t.deeds ++ [⟨i, op, q⟩] = s.deeds ++ [⟨i, op, q⟩] ++ [⟨i, op, r⟩] := by
          simpa [Contest.put, Contest.pending, Mechanism.decides_of_none hn, hq] using hd
        obtain ⟨hts, hqr⟩ := List.append_inj' hd rfl
        simp [Contest.pending, hk, hn, hts, hqr]

end Alone

namespace Contest

/-- Any number of threads use one raw lock, be it the spinlock, the yielding or the
blocking one, under any schedule. Every operation takes effect in one action of its
own: there, and nowhere else, the bit of the lock changes as the operation says, and
the operation answers just that. So the acquisitions exceed the releases by one while
the lock is held, and equal them while it is free. -/
theorem operations_take_effect_at_once (k : Kind) {cs : List Choice} {s : Contest k.mechanism}
    (h : run? step? cs (fresh k.mechanism) = some s) :
    Throughout step? Instant cs (fresh k.mechanism) ∧
    (∀ i, s.deeds.filter (·.thread = i) =
      s.returns.filter (·.thread = i) ++ (s.pending i).toList) ∧
    s.deeds.countP Deed.acquires =
      s.deeds.countP Deed.releases + (k.mechanism.held s.lock).toNat := by
  have hs : Linear k.sound s := run_keeps (fun _ _ _ hs hst => (hs.step hst).1) h (.fresh k.sound)
  refine ⟨?_, hs.told, hs.balance⟩
  refine throughout_of_keeps (I := Linear k.sound) ?_ (throughout_trivial _ _) (.fresh k.sound)
  intro s c t hs hst _
  exact hs.step hst

/-- An operation that no other thread comes between takes effect and is answered,
whatever has happened before. A locker may have waited for as long as it likes, if only
the lock is free by now. -/
theorem left_alone_returns (k : Kind) {cs : List Choice} {s : Contest k.mechanism}
    (h : run? step? cs (fresh k.mechanism) = some s) {i : Nat} {c : Call k.mechanism}
    (hc : s.calls i = some c) (ha : k.Admits s.lock i c.pc)
    (hl : c.op = .lock → s.pending i = none → k.mechanism.held s.lock = false) :
    ∃ (ws : List (Option Nat)) (t : Contest k.mechanism) (r : LockReply),
      run? step? (ws.map (Choice.act i) ++ [.finish i]) s = some t ∧ t.calls i = none ∧
      t.returns = s.returns ++ [⟨i, c.op, r⟩] ∧
      t.deeds ++ (s.pending i).toList = s.deeds ++ [⟨i, c.op, r⟩] ∧
      (s.pending i = none →
        c.op.Takes (k.mechanism.held s.lock) r (k.mechanism.held t.lock)) := by
  have hs : Linear k.sound s := run_keeps (fun _ _ _ hs hst => (hs.step hst).1) h (.fresh k.sound)
  have hp : s.pending i = none ↔ k.mechanism.settled? c.pc = none := by simp [pending, hc]
  obtain ⟨r, u, he⟩ := k.ends hs.good (hs.fits i c hc) ha fun ho hn => hl ho (hp.mpr hn)
  obtain ⟨ws, t, ht, hn, hr, hd, ht'⟩ := he.run hs hc rfl
  refine ⟨ws, t, r, ht, hn, hr, hd, fun hu => ?_⟩
  obtain ⟨hset, -⟩ | ⟨-, q, hq, htakes⟩ := ht'
  · cases hset.trans (hp.mp hu)
  · cases hq
    exact htakes

theorem free_lock_is_taken (k : Kind) {cs : List Choice} {s : Contest k.mechanism}
    (h : run? step? cs (fresh k.mechanism) = some s) {i : Nat} {c : Call k.mechanism}
    (hc : s.calls i = some c) (ho : c.op = .lock) (hp : s.pending i = none)
    (ha : k.Admits s.lock i c.pc) (hl : k.mechanism.held s.lock = false) :
    ∃ (ws : List (Option Nat)) (t : Contest k.mechanism),
      run? step? (ws.map (Choice.act i) ++ [.finish i]) s = some t ∧
      t.returns = s.returns ++ [⟨i, .lock, .ok⟩] ∧ k.mechanism.held t.lock = true := by
  obtain ⟨ws, t, r, ht, -, hr, -, htakes⟩ := left_alone_returns k h hc ha fun _ _ => hl
  have hgot := htakes hp
  rw [ho, hl] at hgot
  obtain ⟨rfl, hheld⟩ := hgot.locked
  exact ⟨ws, t, ht, ho ▸ hr, hheld⟩

/-- Thread 0 has the lock and 1 has to wait. While 0 gives the lock back, 2 and 4 find it
held; then 3 takes it before 1 comes to, and 1 has to wait again. -/
def stolen : Kind → List Choice
  | .monitor =>
    .begin 0 .lock :: List.replicate 4 (.act 0 none) ++
    .finish 0 :: .begin 1 .lock :: List.replicate 3 (.act 1 none) ++
    .begin 0 .unlock :: .begin 2 .tryLock :: List.replicate 3 (.act 2 none) ++
    .begin 4 .isLocked :: List.replicate 3 (.act 4 none) ++
    .finish 4 :: List.replicate 4 (.act 0 none) ++
    .begin 3 .tryLock :: List.replicate 4 (.act 3 none) ++
    .act 0 (some 1) :: .finish 0 :: .finish 3 :: List.replicate 4 (.act 1 none)
  | _ =>
    [.begin 0 .lock, .act 0 none, .finish 0, .begin 1 .lock, .act 1 none, .begin 0 .unlock,
      .begin 2 .tryLock, .act 2 none, .begin 4 .isLocked, .act 4 none, .finish 4, .act 0 none,
      .begin 3 .tryLock, .act 3 none, .finish 0, .finish 3, .act 1 none, .act 1 none]

structure Stolen (s : Contest M) : Prop where
  deeds : s.deeds = [⟨0, .lock, .ok⟩, ⟨2, .tryLock, .busy⟩, ⟨4, .isLocked, .flag true⟩,
    ⟨0, .unlock, .ok⟩, ⟨3, .tryLock, .ok⟩]
  returns : s.returns =
    [⟨0, .lock, .ok⟩, ⟨4, .isLocked, .flag true⟩, ⟨0, .unlock, .ok⟩, ⟨3, .tryLock, .ok⟩]
  held : M.held s.lock = true

theorem stolen_takes_effect :
    (∃ s, run? step? (stolen .spin) (fresh Kind.spin.mechanism) = some s ∧ Stolen s ∧
      s.pending 1 = none ∧ s.pending 2 = some ⟨2, .tryLock, .busy⟩ ∧
      s.deeds.countP Deed.acquires = s.deeds.countP Deed.releases + 1) ∧
    (∃ s, run? step? (stolen .flag) (fresh Kind.flag.mechanism) = some s ∧ Stolen s ∧
      s.pending 1 = none ∧ s.pending 2 = some ⟨2, .tryLock, .busy⟩ ∧
      s.deeds.countP Deed.acquires = s.deeds.countP Deed.releases + 1) ∧
    ∃ s, run? step? (stolen .monitor) (fresh Kind.monitor.mechanism) = some s ∧ Stolen s ∧
      s.pending 1 = none ∧ s.pending 2 = some ⟨2, .tryLock, .busy⟩ ∧
      s.deeds.countP Deed.acquires = s.deeds.countP Deed.releases + 1 := by
  have effects (k : Kind) {s : Contest k.mechanism}
      (h : run? step? (stolen k) (fresh k.mechanism) = some s) (hs : Stolen s) :
      s.pending 1 = none ∧ s.pending 2 = some ⟨2, .tryLock, .busy⟩ ∧
        s.deeds.countP Deed.acquires = s.deeds.countP Deed.releases + 1 := by
    obtain ⟨-, told, balance⟩ := operations_take_effect_at_once k h
    have h1 := told 1
    have h2 := told 2
    rw [hs.deeds, hs.returns] at h1 h2
    rw [hs.held] at balance
    refine ⟨?_, ?_, balance⟩
    · cases hp : s.pending 1 with
      | none => rfl
      | some d => rw [hp] at h1; simp at h1
    · cases hp : s.pending 2 with
      | none => rw [hp] at h2; simp at h2
      | some d => rw [hp] at h2; simpa using h2.symm
  have ⟨s, h, hs⟩ :
      ∃ s, run? step? (stolen .spin) (fresh Kind.spin.mechanism) = some s ∧ Stolen s :=
    ⟨_, rfl, rfl, rfl, rfl⟩
  have ⟨t, ht, hst⟩ :
      ∃ s, run? step? (stolen .flag) (fresh Kind.flag.mechanism) = some s ∧ Stolen s :=
    ⟨_, rfl, rfl, rfl, rfl⟩
  have ⟨u, hu, hsu⟩ :
      ∃ s, run? step? (stolen .monitor) (fresh Kind.monitor.mechanism) = some s ∧ Stolen s :=
    ⟨_, rfl, rfl, rfl, rfl⟩
  exact ⟨⟨s, h, hs, effects .spin h hs⟩, ⟨t, ht, hst, effects .flag ht hst⟩,
    ⟨u, hu, hsu, effects .monitor hu hsu⟩⟩

end Contest

end Contests

end RawLock

end SyncCore

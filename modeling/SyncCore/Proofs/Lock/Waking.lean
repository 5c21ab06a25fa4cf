import Mathlib.Logic.Function.Basic
import SyncCore.Lock.Monitor
import SyncCore.Proofs.Run

/-!
# Wakeups of the blocking lock

Any number of threads lock, try, unlock and look at one blocking lock, one
action at a time. A notification wakes a sleeper, whichever it may be, and a
sleeper may wake for no reason. An unlock clears the flag first and notifies
later, so others may take the lock in between: a thread that comes anew, or
one that has been woken. Still no sleeper is forgotten while the flag is clear.
-/

set_option autoImplicit false

namespace SyncCore.Monitor

structure Call where
  pc : Pc
  slept : Bool
  deriving DecidableEq

structure Room where
  lock : State
  calls : ThreadId → Option Call

inductive Choice where
  | begin (i : ThreadId) (op : LockOp)
  /-- The next action of a thread. If it is a notification, it is for the given sleeper. -/
  | act (i : ThreadId) (woken : Option ThreadId)
  | stir (i : ThreadId)
  | finish (i : ThreadId)
  deriving DecidableEq

/-- The effect of the actions of one thread, where a notification wakes the
given sleeper. It wakes none only if there is none. -/
def effectOn (me : ThreadId) (woken : Option ThreadId) : Effect interface State
  | .notify, s =>
    match woken with
    | some k => if k ∈ s.sleepers then some ((), { s with sleepers := s.sleepers.erase k }) else none
    | none => if s.sleepers = [] then some ((), s) else none
  | a, s => effect me a s

/-- Waking the one that has slept longest is one of the choices. -/
theorem effectOn_head (me : ThreadId) (a : Action) (s : State) :
    effectOn me s.sleepers.head? a s = effect me a s := by
  cases a with
  | notify =>
    obtain ⟨flag, inside, sleepers⟩ := s
    cases sleepers <;> simp [effectOn, effect]
  | _ => rfl

/-! ## Program points -/

namespace Pc

def owing : Pc → Bool
  | .leaveFreed => true
  | .notify => true
  | _ => false

def looking : Pc → Bool
  | .asleep => true
  | .enter .lock => true
  | .test .lock => true
  | _ => false

end Pc

namespace Room

def initial : Room := ⟨.initial, fun _ => none⟩

def put (s : Room) (i : ThreadId) (c : Option Call) (l : State) : Room :=
  ⟨l, Function.update s.calls i c⟩

def step? : Choice → Room → Option Room
  | .begin i op, s =>
    match s.calls i with
    | none => some (s.put i (some ⟨start op, false⟩) s.lock)
    | some _ => none
  | .act i woken, s =>
    (s.calls i).bind fun c =>
      (next.step? (effectOn i woken) c.pc s.lock).map fun r =>
        s.put i (some ⟨r.1, c.slept || c.pc = .sleep⟩) r.2
  | .stir i, s =>
    if i ∈ s.lock.sleepers then
      some { s with lock := { s.lock with sleepers := s.lock.sleepers.erase i } }
    else none
  | .finish i, s =>
    match s.calls i with
    | some ⟨.done _, _⟩ => some (s.put i none s.lock)
    | _ => none

def Owes (s : Room) (i : ThreadId) : Prop := ∃ c, s.calls i = some c ∧ c.pc.owing = true

def Woken (s : Room) (i : ThreadId) : Prop :=
  i ∉ s.lock.sleepers ∧ ∃ c, s.calls i = some c ∧ c.slept = true ∧ c.pc.looking = true

def Attended (s : Room) : Prop := (∃ i, s.Owes i) ∨ ∃ i, s.Woken i

/-- The thread has been woken, is looking at the flag under the guard, has found
it clear and sets it next. -/
def Taking (s : Room) (i : ThreadId) : Prop :=
  s.lock.inside = some i ∧ ∃ c, s.calls i = some c ∧ c.slept = true ∧ c.pc = .write true false

end Room

/-! ## What a thread does -/

inductive Turn (i : ThreadId) : State → Pc → State → Pc → Prop where
  | enter {s : State} {op : LockOp} : s.inside = none →
    Turn i s (.enter op) { s with inside := some i } (.test op)
  | test {s : State} {op : LockOp} : Turn i s (.test op) s (afterTest op s.flag)
  | write {s : State} {b wakes : Bool} :
    Turn i s (.write b wakes) { s with flag := b } (if wakes then .leaveFreed else .leave .ok)
  | sleep {s : State} :
    Turn i s .sleep { s with inside := none, sleepers := s.sleepers ++ [i] } .asleep
  | wake {s : State} : i ∉ s.sleepers → Turn i s .asleep s (.enter .lock)
  | leave {s : State} {r : LockReply} : Turn i s (.leave r) { s with inside := none } (.done r)
  | leaveFreed {s : State} : Turn i s .leaveFreed { s with inside := none } .notify
  | notify {s : State} {k : ThreadId} : k ∈ s.sleepers →
    Turn i s .notify { s with sleepers := s.sleepers.erase k } (.done .ok)
  | notifyNone {s : State} : s.sleepers = [] → Turn i s .notify s (.done .ok)

theorem turn_of_step {i : ThreadId} {woken : Option ThreadId} {s s' : State} {pc pc' : Pc}
    (h : next.step? (effectOn i woken) pc s = some (pc', s')) : Turn i s pc s' pc' := by
  obtain ⟨a, resume, x, hn, he, rfl⟩ := Machine.step_cases h
  cases pc with
  | enter op =>
    cases hn
    simp only [effectOn, effect, Option.ite_none_right_eq_some, Option.some.injEq] at he
    obtain ⟨hs, -, rfl⟩ := he
    exact .enter hs
  | asleep =>
    cases hn
    simp only [effectOn, effect, Option.ite_none_left_eq_some, Option.some.injEq] at he
    obtain ⟨hs, -, rfl⟩ := he
    exact .wake hs
  | notify =>
    cases hn
    cases woken with
    | some k =>
      simp only [effectOn, Option.ite_none_right_eq_some, Option.some.injEq] at he
      obtain ⟨hk, -, rfl⟩ := he
      exact .notify hk
    | none =>
      simp only [effectOn, Option.ite_none_right_eq_some, Option.some.injEq] at he
      obtain ⟨hs, -, rfl⟩ := he
      exact .notifyNone hs
  | test op => cases hn; cases he; exact .test
  | write b wakes => cases hn; cases he; exact .write
  | sleep => cases hn; cases he; exact .sleep
  | leave r => cases hn; cases he; exact .leave
  | leaveFreed => cases hn; cases he; exact .leaveFreed
  | done r => cases hn

def Call.Fits (s : State) (i : ThreadId) (c : Call) : Prop :=
  match c.pc with
  | .test _ => s.inside = some i
  | .write b wakes => s.inside = some i ∧ s.flag = !b ∧ wakes = !b
  | .sleep => s.inside = some i ∧ s.flag = true
  | .asleep => c.slept = true
  | .leave _ => s.inside = some i
  | .leaveFreed => s.inside = some i
  | _ => True

/-- What is known of a call depends on guard and flag only while it is inside the guard. -/
theorem Call.Fits.mono {i : ThreadId} {s s' : State} {c : Call} (h : c.Fits s i)
    (hs : s.inside = some i → s'.inside = some i ∧ s'.flag = s.flag) : c.Fits s' i := by
  obtain ⟨pc, slept⟩ := c
  cases pc with
  | test op => exact (hs h).1
  | write b wakes => exact ⟨(hs h.1).1, (hs h.1).2.trans h.2.1, h.2.2⟩
  | sleep => exact ⟨(hs h.1).1, (hs h.1).2.trans h.2⟩
  | leave r => exact (hs h).1
  | leaveFreed => exact (hs h).1
  | asleep => exact h
  | _ => trivial

theorem Turn.fits {i : ThreadId} {s s' : State} {pc pc' : Pc} {b : Bool} (h : Turn i s pc s' pc')
    (hf : Call.Fits s i ⟨pc, b⟩) : Call.Fits s' i ⟨pc', b || pc = .sleep⟩ := by
  cases h with
  | enter => rfl
  | @test op =>
    cases hs : s.flag <;> cases op <;>
      first | exact hf | exact ⟨hf, hs, rfl⟩ | exact ⟨hf, hs⟩
  | @write b wakes => cases wakes <;> exact hf.1
  | sleep => exact Bool.or_true b
  | _ => trivial

/-- Only one thread is inside the guard, and only it changes guard and flag. -/
theorem Turn.apart {i j : ThreadId} {s s' : State} {pc pc' : Pc} {b : Bool}
    (h : Turn j s pc s' pc') (hj : Call.Fits s j ⟨pc, b⟩) (hij : i ≠ j)
    (hi : s.inside = some i) : s'.inside = some i ∧ s'.flag = s.flag := by
  have out : s.inside ≠ some j := fun hj => hij (Option.some.inj (hi.symm.trans hj))
  cases h with
  | enter hn => cases hn.symm.trans hi
  | write => exact absurd hj.1 out
  | sleep => exact absurd hj.1 out
  | leave => exact absurd hj out
  | leaveFreed => exact absurd hj out
  | _ => exact ⟨hi, rfl⟩

/-! ## The invariant -/

structure Orderly (s : Room) : Prop where
  fits : ∀ i c, s.calls i = some c → c.Fits s.lock i
  asleep : ∀ i ∈ s.lock.sleepers, ∃ c, s.calls i = some c ∧ c.pc = .asleep
  single : s.lock.sleepers.Nodup
  attended : s.lock.flag = false → s.lock.sleepers ≠ [] → s.Attended ∨ ∃ i, s.Taking i

namespace Room

variable {s t : Room} {i j : ThreadId} {c : Option Call} {l : State}

theorem put_self (s : Room) (i : ThreadId) (c : Option Call) (l : State) :
    (s.put i c l).calls i = c :=
  Function.update_self ..

theorem put_of_ne (hj : j ≠ i) : (s.put i c l).calls j = s.calls j :=
  Function.update_of_ne hj ..

theorem Owes.put (h : s.Owes j) (hj : j ≠ i) : (s.put i c l).Owes j := by
  rwa [Owes, put_of_ne hj]

theorem Woken.put (h : s.Woken j) (hj : j ≠ i) (hl : j ∈ l.sleepers → j ∈ s.lock.sleepers) :
    (s.put i c l).Woken j := by
  refine ⟨fun hm => h.1 (hl hm), ?_⟩
  rw [put_of_ne hj]
  exact h.2

theorem Taking.put (h : s.Taking j) (hj : j ≠ i) (hl : l.inside = s.lock.inside) :
    (s.put i c l).Taking j := by
  refine ⟨hl.trans h.1, ?_⟩
  rw [put_of_ne hj]
  exact h.2

structure Aloof (s : Room) (i : ThreadId) : Prop where
  owes : ¬s.Owes i
  woken : ¬s.Woken i
  taking : ¬s.Taking i

theorem Aloof.attended (ha : s.Aloof i) (h : s.Attended ∨ ∃ j, s.Taking j)
    (hl : l.sleepers = s.lock.sleepers)
    (hg : ∀ j, j ≠ i → s.lock.inside = some j → l.inside = s.lock.inside) :
    (s.put i c l).Attended ∨ ∃ j, (s.put i c l).Taking j := by
  obtain (⟨j, hj⟩ | ⟨j, hj⟩) | ⟨j, hj⟩ := h
  · exact .inl (.inl ⟨j, hj.put fun he => ha.owes (he ▸ hj)⟩)
  · exact .inl (.inr ⟨j, hj.put (fun he => ha.woken (he ▸ hj)) (hl ▸ id)⟩)
  · have hne : j ≠ i := fun he => ha.taking (he ▸ hj)
    exact .inr ⟨j, hj.put hne (hg j hne hj.1)⟩

theorem aloof_of_pc {d : Call} (hd : s.calls i = some d) (ho : d.pc.owing = false)
    (hk : ¬s.Woken i) (ht : d.pc ≠ .write true false) : s.Aloof i where
  owes := fun ⟨e, he, h⟩ => by
    cases hd.symm.trans he
    cases ho.symm.trans h
  woken := hk
  taking := fun ⟨_, e, he, _, h⟩ => by
    cases hd.symm.trans he
    exact ht h

theorem not_woken {d : Call} (hd : s.calls i = some d) (hk : d.pc.looking = false) :
    ¬s.Woken i := fun ⟨_, e, he, _, h⟩ => by
  cases hd.symm.trans he
  cases hk.symm.trans h

end Room

namespace Orderly

variable {s t : Room} {i : ThreadId} {c : Call} {pc : Pc} {l : State}

theorem initial : Orderly Room.initial where
  fits := fun _ _ h => nomatch h
  asleep := fun _ h => nomatch h
  single := List.nodup_nil
  attended := fun _ h => absurd rfl h

/-- A turn of a thread sees to the sleepers, hands them on or leaves them to others. -/
theorem attended_turn (hs : Orderly s) (hc : s.calls i = some c) (h : Turn i s.lock c.pc l pc)
    (hf : l.flag = false) (hl : l.sleepers ≠ []) :
    (s.put i (some ⟨pc, c.slept || c.pc = .sleep⟩) l).Attended ∨
      ∃ j, (s.put i (some ⟨pc, c.slept || c.pc = .sleep⟩) l).Taking j := by
  obtain ⟨q, slept⟩ := c
  have hfit := hs.fits i _ hc
  cases h with
  | @enter op hn =>
    by_cases hw : s.Woken i
    · obtain ⟨hm, d, hd, hb, hk⟩ := hw
      cases hc.symm.trans hd
      refine .inl (.inr ⟨i, hm, _, Room.put_self .., congrArg (· || _) hb, ?_⟩)
      cases op <;> first | rfl | cases hk
    · exact (Room.aloof_of_pc hc rfl hw nofun).attended (hs.attended hf hl) rfl
        fun j _ hi => nomatch hn.symm.trans hi
  | @test op =>
    by_cases hw : s.Woken i
    · obtain ⟨-, d, hd, hb, hk⟩ := hw
      cases hc.symm.trans hd
      refine .inr ⟨i, hfit, _, Room.put_self .., congrArg (· || _) hb, ?_⟩
      rw [hf]
      cases op <;> first | rfl | cases hk
    · exact (Room.aloof_of_pc hc rfl hw nofun).attended (hs.attended hf hl) rfl fun _ _ _ => rfl
  | @write b wakes =>
    -- The flag is clear after it, so this is an unlock, which notifies later.
    cases (show b = false from hf)
    cases hfit.2.2
    exact .inl (.inl ⟨i, _, Room.put_self .., rfl⟩)
  | sleep => cases hfit.2.symm.trans hf
  | wake hm =>
    refine .inl (.inr ⟨i, hm, _, Room.put_self .., ?_, rfl⟩)
    rw [show slept = true from hfit]
    rfl
  | leave =>
    have ha := Room.aloof_of_pc hc rfl (Room.not_woken hc rfl) nofun
    exact ha.attended (hs.attended hf hl) rfl fun j hj hi =>
      absurd (Option.some.inj (hi.symm.trans hfit)) hj
  | leaveFreed => exact .inl (.inl ⟨i, _, Room.put_self .., rfl⟩)
  | @notify k hk =>
    -- The unlock hands on to the sleeper that it wakes.
    obtain ⟨d, hd, hp⟩ := hs.asleep k hk
    have hne : k ≠ i := by
      rintro rfl
      cases hc.symm.trans hd
      cases hp
    have hw := hs.fits k d hd
    rw [Call.Fits, hp] at hw
    refine .inl (.inr ⟨k, ?_, d, ?_, hw, by rw [hp]; rfl⟩)
    · exact fun hm => (hs.single.mem_erase_iff.mp hm).1 rfl
    · rw [Room.put_of_ne hne]
      exact hd
  | notifyNone hn => exact absurd hn hl

/-- Only sleepers are at the point of a sleeper, and each of them once. -/
theorem sleepers_turn (hs : Orderly s) (hc : s.calls i = some c) (h : Turn i s.lock c.pc l pc) :
    l.sleepers.Nodup ∧ ∀ j ∈ l.sleepers, (j = i ∧ pc = .asleep) ∨
      (j ≠ i ∧ ∃ d, s.calls j = some d ∧ d.pc = .asleep) := by
  obtain ⟨q, slept⟩ := c
  have others : ∀ j ∈ s.lock.sleepers, q ≠ .asleep →
      j ≠ i ∧ ∃ d, s.calls j = some d ∧ d.pc = .asleep := fun j hj hq => by
    obtain ⟨d, hd, hp⟩ := hs.asleep j hj
    refine ⟨?_, d, hd, hp⟩
    rintro rfl
    cases hc.symm.trans hd
    exact hq hp
  cases h with
  | sleep =>
    have hm : i ∉ s.lock.sleepers := fun hi => (others i hi nofun).1 rfl
    refine ⟨List.nodup_append.mpr ⟨hs.single, List.nodup_singleton i, ?_⟩, fun j hj => ?_⟩
    · intro j hj k hk he
      cases List.mem_singleton.mp hk
      exact hm (he ▸ hj)
    · obtain hj | hj := List.mem_append.mp hj
      · exact .inr (others j hj nofun)
      · exact .inl ⟨List.mem_singleton.mp hj, rfl⟩
  | notify hk =>
    exact ⟨hs.single.erase _, fun j hj => .inr (others j (List.mem_of_mem_erase hj) nofun)⟩
  | wake hm =>
    refine ⟨hs.single, fun j hj => .inr ⟨fun he => hm (he ▸ hj), hs.asleep j hj⟩⟩
  | _ => exact ⟨hs.single, fun j hj => .inr (others j hj nofun)⟩

theorem turn (hs : Orderly s) (hc : s.calls i = some c) (h : Turn i s.lock c.pc l pc) :
    Orderly (s.put i (some ⟨pc, c.slept || c.pc = .sleep⟩) l) where
  fits := fun j d hd => by
    by_cases hj : j = i
    · subst hj
      rw [Room.put_self] at hd
      cases hd
      exact h.fits (hs.fits j c hc)
    · rw [Room.put_of_ne hj] at hd
      exact (hs.fits j d hd).mono (h.apart (hs.fits i c hc) hj)
  asleep := fun j hj => by
    obtain ⟨rfl, rfl⟩ | ⟨hne, hd⟩ := (hs.sleepers_turn hc h).2 j hj
    · exact ⟨_, Room.put_self .., rfl⟩
    · rwa [Room.put_of_ne hne]
  single := (hs.sleepers_turn hc h).1
  attended := hs.attended_turn hc h

theorem replace {d : Option Call} (hs : Orderly s) (ha : s.Aloof i) (hm : i ∉ s.lock.sleepers)
    (hd : ∀ e, d = some e → e.Fits s.lock i) : Orderly (s.put i d s.lock) where
  fits := fun j e he => by
    by_cases hj : j = i
    · subst hj
      rw [Room.put_self] at he
      exact hd e he
    · rw [Room.put_of_ne hj] at he
      exact hs.fits j e he
  asleep := fun j hj => by
    have hne : j ≠ i := fun he => hm (he ▸ (show j ∈ s.lock.sleepers from hj))
    rw [Room.put_of_ne hne]
    exact hs.asleep j hj
  single := hs.single
  attended := fun hf hl => ha.attended (hs.attended hf hl) rfl fun _ _ _ => rfl

theorem stir (hs : Orderly s) (hi : i ∈ s.lock.sleepers) :
    Orderly { s with lock := { s.lock with sleepers := s.lock.sleepers.erase i } } where
  fits := fun j d hd => (hs.fits j d hd).mono fun hin => ⟨hin, rfl⟩
  asleep := fun j hj => hs.asleep j (List.mem_of_mem_erase hj)
  single := hs.single.erase i
  attended := fun _ _ => by
    obtain ⟨d, hd, hp⟩ := hs.asleep i hi
    have hw := hs.fits i d hd
    rw [Call.Fits, hp] at hw
    exact .inl (.inr ⟨i, fun hm => (hs.single.mem_erase_iff.mp hm).1 rfl, d, hd, hw,
      by rw [hp]; rfl⟩)

end Orderly

namespace Room

variable {s t : Room}

theorem orderly_step {c : Choice} (hs : Orderly s) (h : step? c s = some t) : Orderly t := by
  cases c with
  | begin i op =>
    simp only [step?] at h
    cases hc : s.calls i with
    | some d =>
      rw [hc] at h
      cases h
    | none =>
      rw [hc] at h
      cases h
      have absent : ∀ {P : Call → Prop}, ¬∃ d, s.calls i = some d ∧ P d := fun ⟨d, hd, _⟩ =>
        nomatch hc.symm.trans hd
      refine hs.replace ⟨absent, fun h => absent h.2, fun h => absent h.2⟩ (fun hm => ?_) ?_
      · exact absent (hs.asleep i hm)
      · rintro e he
        cases he
        trivial
  | act i woken =>
    obtain ⟨d, hd, h⟩ := Option.bind_eq_some_iff.mp h
    obtain ⟨⟨pc, l⟩, hp, rfl⟩ := Option.map_eq_some_iff.mp h
    exact hs.turn hd (turn_of_step hp)
  | stir i =>
    simp only [step?, Option.ite_none_right_eq_some, Option.some.injEq] at h
    obtain ⟨hi, rfl⟩ := h
    exact hs.stir hi
  | finish i =>
    simp only [step?] at h
    split at h
    next r b hc =>
      cases h
      refine hs.replace (aloof_of_pc hc rfl (not_woken hc rfl) nofun) (fun hm => ?_) nofun
      obtain ⟨d, hd, hp⟩ := hs.asleep i hm
      cases hc.symm.trans hd
      cases hp
    next => cases h

/-- While the flag is clear and somebody sleeps, an unlock still has to notify
or a woken waiter still has to look at the flag. While the guard is taken, the
woken waiter may be the one inside, which has found the flag clear and sets it next. -/
theorem no_wakeup_is_lost {cs : List Choice} {i : ThreadId} (h : run? step? cs initial = some s)
    (hf : s.lock.flag = false) (hi : i ∈ s.lock.sleepers) :
    (s.lock.inside = none → s.Attended) ∧ (s.Attended ∨ ∃ j, s.Taking j) := by
  have hs : Orderly s := run_keeps (fun _ _ _ hs hst => orderly_step hs hst) h .initial
  have ha := hs.attended hf (List.ne_nil_of_mem hi)
  refine ⟨fun hn => ha.resolve_right ?_, ha⟩
  rintro ⟨j, hj, -⟩
  cases hn.symm.trans hj

/-- Thread 0 takes the lock and 1 and 2 fall asleep. It unlocks, 3 takes the lock
before the notification, which is for 2, and is about to notify in its turn. -/
def overtaken : List Choice :=
  .begin 0 .lock :: List.replicate 4 (.act 0 none) ++
  .finish 0 :: .begin 1 .lock :: List.replicate 3 (.act 1 none) ++
  .begin 2 .lock :: List.replicate 3 (.act 2 none) ++
  .begin 0 .unlock :: List.replicate 4 (.act 0 none) ++
  .begin 3 .tryLock :: List.replicate 4 (.act 3 none) ++
  .finish 3 :: .act 0 (some 2) :: .begin 3 .unlock :: List.replicate 4 (.act 3 none)

theorem overtaken_attended : ∃ s, run? step? overtaken initial = some s ∧
    s.lock = ⟨false, none, [1]⟩ ∧ s.Attended := by
  have ⟨s, h, hl⟩ : ∃ s, run? step? overtaken initial = some s ∧ s.lock = ⟨false, none, [1]⟩ :=
    ⟨_, rfl, rfl⟩
  have hi : 1 ∈ s.lock.sleepers := hl ▸ List.mem_singleton_self 1
  exact ⟨s, h, hl, (no_wakeup_is_lost h (congrArg State.flag hl) hi).1 (congrArg State.inside hl)⟩

end Room

end SyncCore.Monitor

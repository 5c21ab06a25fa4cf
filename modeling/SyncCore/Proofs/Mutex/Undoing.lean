import SyncCore.Proofs.Mutex.Backing
import SyncCore.Proofs.Mutex.Custody

/-!
# A teardown that fails

A destroy that nobody interrupts takes the raw lock, gives it back and
destroys it, the last as often as it is told that the lock is busy. The raw
lock may fail each of these calls, and a call that fails changes nothing. A
failure to take the lock and a failure to destroy it are undone. A failure to
give it back is not: the mutex is left destroyed, and the raw lock taken.
-/

set_option autoImplicit false

namespace SyncCore

variable {Hint R : Type}

/-- What a lock may answer if it may fail any call, but then stays as it was. -/
def LockOp.Bears (held : R → Bool) : (op : LockOp) → R → op.Answer → R → Prop
  | .lock, r, .ok _, r' => held r = false ∧ held r' = true
  | .lock, r, .error _, r' => r' = r
  | .tryLock, r, .ok _, r' => held r = false ∧ held r' = true
  | .tryLock, r, .error _, r' => r' = r
  | .unlock, r, .ok _, r' => held r = true ∧ held r' = false
  | .unlock, r, .error _, r' => r' = r
  | .isLocked, r, answer, r' => answer = held r ∧ r' = r
  | .destroy, r, .ok _, r' => held r' = held r
  | .destroy, r, .error _, r' => r' = r

/-- A lock whose calls may fail with any error, without effect. -/
def Frail (call : RawCalls Hint R) (held : R → Bool) : Prop :=
  ∀ hint op r x r', call hint op r = some (x, r') → op.Bears held r x r'

def LockOp.failure : (op : LockOp) → ErrorKind → Option op.Answer
  | .lock, e => some (.error e)
  | .tryLock, e => some (.error e)
  | .unlock, e => some (.error e)
  | .isLocked, _ => none
  | .destroy, e => some (.error e)

def failing (call : RawCalls Hint R) : RawCalls (Hint × Option ErrorKind) R := fun hint op r =>
  match hint.2.bind op.failure with
  | some x => some (x, r)
  | none => call hint.1 op r

theorem frail_failing {call : RawCalls Hint R} {held : R → Bool} (h : Frail call held) :
    Frail (failing call) held := by
  rintro ⟨hint, fault⟩ op r x r' hc
  cases fault with
  | none => exact h hint op r x r' hc
  | some e =>
    cases op with
    | isLocked => exact h hint .isLocked r x r' hc
    | _ =>
      cases hc
      exact rfl

theorem frail_bit : Frail (fun (_ : Unit) => bitCall) id := by
  intro _ op b x b' h
  cases op <;> cases b <;> cases h <;> first | exact ⟨rfl, rfl⟩ | exact rfl

namespace Mutex

/-! ## A client that nobody interrupts -/

/-- One action. The raw lock may answer every call differently. -/
def lone? (call : RawCalls Hint R) (hint : Hint) (s : Pc × State R) : Option (Pc × State R) :=
  next.step? (effect call hint) s.1 s.2

def told (call : RawCalls Hint R) (s : Pc × State R) (hint : Hint) : List (LockOp × LockReply) :=
  match next s.1 with
  | .act (.raw op) _ => ((call hint op s.2.raw).map fun r => (op, .ofAnswer op r.1)).toList
  | _ => []

def rawCalls (call : RawCalls Hint R) (hints : List Hint) (s : Pc × State R) :
    List (LockOp × LockReply) :=
  transcript (lone? call) (told call) hints s

/-- The attempts to destroy the raw lock: all but the last find it busy. -/
def attempts (k : Nat) (last : LockReply) : List (LockOp × LockReply) :=
  List.replicate k (.destroy, .busy) ++ [(.destroy, last)]

/-- A destroy that fails has changed nothing, and one that succeeds has torn
the mutex down: it destroys the raw lock once, after any number of attempts
that find it busy. -/
def AllOrNothing (held : R → Bool) (m : State R) (calls : List (LockOp × LockReply))
    (r : LockReply) (m' : State R) : Prop :=
  (∃ e, r = .outcome (.error e) ∧ m'.status = .ready ∧ held m'.raw = held m.raw) ∨
  (r = .ok ∧ m'.isInitialized = false ∧ held m'.raw = false ∧
    ∃ k, calls = (.tryLock, .ok) :: (.unlock, .ok) :: attempts k .ok)

inductive Course (held : R → Bool) (m m' : State R) : List (LockOp × LockReply) → LockReply → Prop
  | refused (e : ErrorKind) : m'.status = .ready → m'.raw = m.raw →
    Course held m m' [(.tryLock, .outcome (.error e))] (.outcome (.error e))
  | stranded (e : ErrorKind) : m'.status = .destroyed → held m.raw = false → held m'.raw = true →
    Course held m m' [(.tryLock, .ok), (.unlock, .outcome (.error e))] (.outcome (.error e))
  | undone (e : ErrorKind) (k : Nat) : m'.status = .ready → held m.raw = false →
    held m'.raw = false → Course held m m'
      ((.tryLock, .ok) :: (.unlock, .ok) :: attempts k (.outcome (.error e))) (.outcome (.error e))
  | torn (k : Nat) : m'.status = .destroyed → held m'.raw = false →
    Course held m m' ((.tryLock, .ok) :: (.unlock, .ok) :: attempts k .ok) .ok

section Lone

variable {call : RawCalls Hint R} {held : R → Bool} {m m' : State R} {q r : LockReply}
  {hints : List Hint} {pc : Pc}

theorem run_done (h : run? (lone? call) hints (.done q, m) = some (.done r, m')) :
    q = r ∧ m = m' ∧ rawCalls call hints (.done q, m) = [] := by
  cases hints with
  | nil =>
    cases h
    exact ⟨rfl, rfl, rfl⟩
  | cons hint hints => cases h

theorem run_act {a : Action} {resume : a.Answer → Pc} (hn : next pc = .act a resume)
    (h : run? (lone? call) hints (pc, m) = some (.done r, m')) :
    ∃ hint rest x m₁, hints = hint :: rest ∧ effect call hint a m = some (x, m₁) ∧
      run? (lone? call) rest (resume x, m₁) = some (.done r, m') ∧
      rawCalls call hints (pc, m) =
        told call (pc, m) hint ++ rawCalls call rest (resume x, m₁) := by
  cases hints with
  | nil =>
    cases h
    cases hn
  | cons hint rest =>
    obtain ⟨s, hst, hrun⟩ := run_cons h
    obtain ⟨b, resume', x, hn', he, hp⟩ :=
      Machine.step_cases (show next.step? _ pc m = some (s.1, s.2) from hst)
    cases hn.symm.trans hn'
    obtain ⟨pc₁, m₁⟩ := s
    cases hp
    exact ⟨hint, rest, x, m₁, rfl, he, hrun, transcript_cons hst⟩

theorem run_raw {op : LockOp} {resume : op.Answer → Pc} (hn : next pc = .act (.raw op) resume)
    (h : run? (lone? call) hints (pc, m) = some (.done r, m')) :
    ∃ hint rest x raw, hints = hint :: rest ∧ call hint op m.raw = some (x, raw) ∧
      run? (lone? call) rest (resume x, ⟨m.status, raw⟩) = some (.done r, m') ∧
      rawCalls call hints (pc, m) =
        (op, .ofAnswer op x) :: rawCalls call rest (resume x, ⟨m.status, raw⟩) := by
  obtain ⟨hint, rest, x, m₁, hh, he, hrun, hcalls⟩ := run_act hn h
  obtain ⟨raw, hr, rfl⟩ := effect_raw he
  have ht : told call (pc, m) hint = [(op, .ofAnswer op x)] := by simp [told, hn, hr]
  exact ⟨hint, rest, x, raw, hh, hr, hrun, by rw [hcalls, ht]; rfl⟩

theorem run_store {σ : Status} {resume : Unit → Pc} (hn : next pc = .act (.store σ) resume)
    (h : run? (lone? call) hints (pc, m) = some (.done r, m')) :
    ∃ rest, run? (lone? call) rest (resume (), ⟨σ, m.raw⟩) = some (.done r, m') ∧
      rawCalls call hints (pc, m) = rawCalls call rest (resume (), ⟨σ, m.raw⟩) := by
  obtain ⟨hint, rest, x, m₁, -, he, hrun, hcalls⟩ := run_act hn h
  cases he
  have ht : told call (pc, m) hint = [] := by simp [told, hn]
  exact ⟨rest, hrun, by rw [hcalls, ht]; rfl⟩

theorem run_undo {e : ErrorKind} (hn : next pc = .act (.store .ready) fun (_ : Unit) => failed e)
    (h : run? (lone? call) hints (pc, m) = some (.done r, m')) :
    r = .outcome (.error e) ∧ m' = ⟨.ready, m.raw⟩ ∧ rawCalls call hints (pc, m) = [] := by
  obtain ⟨rest, hrun, hcalls⟩ := run_store hn h
  obtain ⟨rfl, rfl, hend⟩ := run_done hrun
  exact ⟨rfl, rfl, hcalls.trans hend⟩

/-- The raw lock is destroyed, or the refusal is undone, after any number of
attempts that find the lock busy. -/
theorem run_raze (hf : Frail call held)
    (h : run? (lone? call) hints (.destroyRaw, m) = some (.done r, m')) :
    ∃ k x, r = .outcome x ∧
      rawCalls call hints (.destroyRaw, m) = attempts k (.outcome x) ∧
      match x with
      | .ok _ => m'.status = m.status ∧ held m'.raw = held m.raw
      | .error _ => m'.status = .ready ∧ m'.raw = m.raw := by
  induction hints generalizing m with
  | nil => cases h
  | cons hint rest ih =>
    obtain ⟨_, _, x, raw, hh, hr, hrun, hcalls⟩ := run_raw rfl h
    cases hh
    have hb := hf _ _ _ _ _ hr
    rcases x with e | u
    · obtain rfl : raw = m.raw := hb
      by_cases he : e = .busy
      · subst he
        obtain ⟨k, x, hx, hrest, hend⟩ := ih hrun
        exact ⟨k + 1, x, hx, hcalls.trans (congrArg (List.cons _) hrest), hend⟩
      · simp only [he, if_false] at hrun hcalls
        obtain ⟨rfl, rfl, hnone⟩ := run_undo rfl hrun
        exact ⟨0, .error e, rfl, hcalls.trans (congrArg (List.cons _) hnone), rfl, rfl⟩
    · obtain ⟨rfl, rfl, hnone⟩ := run_done hrun
      exact ⟨0, .ok u, rfl, hcalls.trans (congrArg (List.cons _) hnone), rfl, hb⟩

theorem run_giveBack (hf : Frail call held)
    (h : run? (lone? call) hints (.destroyGiveBack, m) = some (.done r, m')) :
    (∃ e, r = .outcome (.error e) ∧ m' = m ∧
      rawCalls call hints (.destroyGiveBack, m) = [(.unlock, .outcome (.error e))]) ∨
    ∃ k x, r = .outcome x ∧
      rawCalls call hints (.destroyGiveBack, m) = (.unlock, .ok) :: attempts k (.outcome x) ∧
      held m'.raw = false ∧
      match x with
      | .ok _ => m'.status = m.status
      | .error _ => m'.status = .ready := by
  obtain ⟨_, rest, x, raw, -, hr, hrun, hcalls⟩ := run_raw rfl h
  have hgiven := hf _ _ _ _ _ hr
  rcases x with e | u
  · obtain rfl : raw = m.raw := hgiven
    obtain ⟨rfl, rfl, hnone⟩ := run_done hrun
    exact .inl ⟨e, rfl, rfl, hcalls.trans (congrArg (List.cons _) hnone)⟩
  · obtain ⟨k, x, hx, hrest, hend⟩ := run_raze hf hrun
    refine .inr ⟨k, x, hx, hcalls.trans (congrArg (List.cons _) hrest), ?_⟩
    rcases x with e | u'
    · exact ⟨hend.2 ▸ hgiven.2, hend.1⟩
    · exact ⟨hend.2.trans hgiven.2, hend.1⟩

theorem destroy_course (hf : Frail call held) (hm : m.status = .ready)
    (h : run? (lone? call) hints (start .destroy, m) = some (.done r, m')) :
    Course held m m' (rawCalls call hints (start .destroy, m)) r := by
  obtain ⟨hint, rest, x, m₁, -, he, hrun, hcalls⟩ := run_act rfl h
  cases he
  rw [if_pos hm, if_pos hm] at hrun hcalls
  obtain ⟨_, rest, x, raw, -, hr, hrun, htake⟩ := run_raw rfl hrun
  have hcalls := hcalls.trans htake
  have htaken := hf _ _ _ _ _ hr
  rcases x with e | u
  · obtain rfl : raw = m.raw := htaken
    obtain ⟨rfl, rfl, hnone⟩ := run_undo rfl hrun
    rw [hcalls.trans (congrArg (List.cons _) hnone)]
    exact .refused e rfl rfl
  obtain ⟨rest, hrun, hmark⟩ := run_store rfl hrun
  have hcalls := hcalls.trans (congrArg (List.cons _) hmark)
  rcases run_giveBack hf hrun with ⟨e, rfl, rfl, hrest⟩ | ⟨k, x, rfl, hrest, hfree, hend⟩
  · rw [hcalls.trans (congrArg (List.cons _) hrest)]
    exact .stranded e rfl htaken.1 htaken.2
  · rw [hcalls.trans (congrArg (List.cons _) hrest)]
    rcases x with e | u'
    · exact .undone e k hend htaken.1 hfree
    · exact .torn k hend hfree

end Lone

/-! ## All or nothing -/

theorem unlock_given (k : Nat) (last : LockReply) (e : ErrorKind) :
    (LockOp.unlock, LockReply.outcome (.error e)) ∉
      (LockOp.tryLock, LockReply.ok) :: (.unlock, .ok) :: attempts k last := by
  simp [attempts, LockReply.ok, List.mem_replicate]

/-- Over every lock that may fail any call without effect, a destroy of a mutex
that is ready has changed nothing or has torn the mutex down, exactly if
the raw lock does not fail to be given back. If it does, the destroy reports
that error, the mutex is left destroyed, and the raw lock, which was free, is
left taken. -/
theorem destroy_all_or_nothing_iff {call : RawCalls Hint R} {held : R → Bool}
    (hf : Frail call held) {m m' : State R} (hm : m.status = .ready) {hints : List Hint}
    {r : LockReply} (h : run? (lone? call) hints (start .destroy, m) = some (.done r, m')) :
    (AllOrNothing held m (rawCalls call hints (start .destroy, m)) r m' ↔
      ∀ e, (.unlock, .outcome (.error e)) ∉ rawCalls call hints (start .destroy, m)) ∧
    ∀ e, (.unlock, .outcome (.error e)) ∈ rawCalls call hints (start .destroy, m) →
      r = .outcome (.error e) ∧ m'.status = .destroyed ∧ held m.raw = false ∧
        held m'.raw = true := by
  have hc := destroy_course hf hm h
  generalize rawCalls call hints (start .destroy, m) = calls at hc ⊢
  cases hc with
  | refused e hst hraw =>
    refine ⟨⟨fun _ => by simp, fun _ => .inl ⟨e, rfl, hst, by rw [hraw]⟩⟩, by simp⟩
  | stranded e hst hfree hheld =>
    refine ⟨⟨?_, fun hn => absurd (by simp) (hn e)⟩, ?_⟩
    · rintro (⟨_, -, hready, -⟩ | ⟨hok, -⟩)
      · exact absurd (hready.symm.trans hst) (by decide)
      · cases hok
    · intro e' he
      obtain rfl : e' = e := by simpa [LockReply.ok] using he
      exact ⟨rfl, hst, hfree, hheld⟩
  | undone e k hst hfree hgiven =>
    have hn := unlock_given k (.outcome (.error e))
    exact ⟨⟨fun _ => hn, fun _ => .inl ⟨e, rfl, hst, hgiven.trans hfree.symm⟩⟩,
      fun e' he => absurd he (hn e')⟩
  | torn k hst hfree =>
    have hn := unlock_given k .ok
    exact ⟨⟨fun _ => hn, fun _ => .inr ⟨rfl, by rw [State.isInitialized, hst]; rfl, hfree, k, rfl⟩⟩,
      fun e' he => absurd he (hn e')⟩

def faultyBit : RawCalls (Unit × Option ErrorKind) Bool := failing fun _ => bitCall

/-- The raw lock is busy once and then refuses to be destroyed. -/
def refusedDestroy : List (Unit × Option ErrorKind) :=
  [((), none), ((), none), ((), none), ((), none), ((), some .busy), ((), some .timeout),
    ((), none)]

theorem refused_destroy_undone :
    ∃ m' : State Bool,
      run? (lone? faultyBit) refusedDestroy (start .destroy, ⟨.ready, false⟩) =
        some (.done (.outcome (.error .timeout)), m') ∧
      AllOrNothing id ⟨.ready, false⟩
        (rawCalls faultyBit refusedDestroy (start .destroy, ⟨.ready, false⟩))
        (.outcome (.error .timeout)) m' ∧
      m' = ⟨.ready, false⟩ := by
  have h := @destroy_all_or_nothing_iff _ _ faultyBit id (frail_failing frail_bit) ⟨.ready, false⟩ _
    rfl refusedDestroy _ rfl
  refine ⟨_, rfl, h.1.mpr fun e => ?_, rfl⟩
  cases e <;> decide

def strandedDestroy : List (Unit × Option ErrorKind) :=
  [((), none), ((), none), ((), none), ((), some .timeout)]

/-- The destroy is refused, and yet the mutex is destroyed and the raw lock taken. -/
theorem failed_destroy_strands_lock :
    Frail faultyBit id ∧
    ∃ m' : State Bool,
      run? (lone? faultyBit) strandedDestroy (start .destroy, ⟨.ready, false⟩) =
        some (.done (.outcome (.error .timeout)), m') ∧
      m'.isInitialized = false ∧ m'.raw = true ∧
      ¬AllOrNothing id ⟨.ready, false⟩
        (rawCalls faultyBit strandedDestroy (start .destroy, ⟨.ready, false⟩))
        (.outcome (.error .timeout)) m' := by
  refine ⟨frail_failing frail_bit, _, rfl, rfl, rfl, ?_⟩
  rintro (⟨_, -, hst, -⟩ | ⟨hok, -⟩)
  · cases hst
  · cases hok

end Mutex

end SyncCore

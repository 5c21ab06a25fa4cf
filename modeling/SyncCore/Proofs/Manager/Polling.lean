import SyncCore.Proofs.Manager.Waiting

/-!
# Polled joins

Where the backend has no join of its own, a join reads the state until it finds
Terminated, with a sleep after each other state and a yield after each sleep
that fails. It comes to the same as a join that waits in the backend: as far as
everybody else does the same, the managers end in the same state.
-/

set_option autoImplicit false

namespace SyncCore.Manager

variable {V : Type}

/-! ## What the owner of a thread does -/

inductive Owner.Event where
  | saw (s : ThreadState)
  | called (c : BackendCall) (x : c.Answer)

def Action.events (e : Setting V) (s : Shared V) : Action V → List Owner.Event
  | .cell .loadState => [.saw s.object.state]
  | .backend c => [.called c (e.backend c)]
  | _ => []

def Thread.events (e : Setting V) (id : ObjectId) (th : Thread V) : List Owner.Event :=
  (th.action? id .owner).elim [] (Action.events e th.shared)

def World.events (id : ObjectId) (s : World V × Ledger) : Move V → List Owner.Event
  | .act q .owner e => if q = id then (s.1.threads id).elim [] (Thread.events e id) else []
  | _ => []

structure Round where
  seen : ThreadState
  slept : Outcome Unit

/-- One sleep for the state that has been read, and one yield if the sleep fails. -/
def Round.events (r : Round) : List Owner.Event :=
  .saw r.seen :: .called (.sleep Defaults.pollInterval) r.slept ::
    match r.slept with
    | .ok _ => []
    | .error _ => [.called .yield ()]

def Join.Pc.Polled (rs : List Round) (l : List Owner.Event) : Join.Pc V → Prop
  | .mark => rs = [] ∧ l = []
  | .poll => l = rs.flatMap Round.events
  | .sleep => ∃ s, s ≠ .terminated ∧ l = rs.flatMap Round.events ++ [.saw s]
  | .yield => ∃ s k, s ≠ .terminated ∧ l = rs.flatMap Round.events ++
      [.saw s, .called (.sleep Defaults.pollInterval) (.error k)]
  | .confirm => l = rs.flatMap Round.events ++ [.saw .terminated]
  | .take => l = rs.flatMap Round.events ++ [.saw .terminated, .saw .terminated]
  | .announce _ => l = rs.flatMap Round.events ++ [.saw .terminated, .saw .terminated]
  | .done _ => l = rs.flatMap Round.events ++ [.saw .terminated, .saw .terminated]
  | _ => False

/-- How a polled join has come to a program point on a thread that has ended or
has not, and that had ended before or had not. -/
structure Join.Pc.Rounds (late ended : Bool) (rs : List Round) (l : List Owner.Event)
    (pc : Join.Pc V) : Prop where
  polled : pc.Polled rs l
  seen : ∀ r ∈ rs, r.seen ≠ .terminated
  confirms : pc = .confirm → ended = true
  still : late = true → rs = [] ∧ pc ≠ .sleep ∧ pc ≠ .yield

namespace Join.Pc.Rounds

variable {e : Setting V} {id : ObjectId} {t t' : Table} {s s' : Shared V} {late ended : Bool}
  {rs : List Round} {l : List Owner.Event} {pc : Join.Pc V}

theorem start : (mark : Join.Pc V).Rounds late ended [] [] where
  polled := ⟨rfl, rfl⟩
  seen := by simp
  confirms := by simp
  still := by simp

theorem round (hs : ∀ r ∈ rs, r.seen ≠ .terminated) {r : Round} (hr : r.seen ≠ .terminated)
    (hl : l = rs.flatMap Round.events ++ r.events) (hn : late = false) :
    (poll : Join.Pc V).Rounds late ended (rs ++ [r]) l where
  polled := by simp [Polled, hl]
  seen := by simpa [or_imp, forall_and] using ⟨hs, hr⟩
  confirms := by simp
  still := by simp [hn]

theorem onward {pc' : Join.Pc V} (h : pc.Rounds late ended rs l) {m : List Owner.Event}
    (hm : pc'.Polled rs m) (hp : pc' ≠ .sleep ∧ pc' ≠ .yield ∧ pc' ≠ .confirm) :
    pc'.Rounds late ended rs m where
  polled := hm
  seen := h.seen
  confirms := fun hc => absurd hc hp.2.2
  still := fun hl => ⟨(h.still hl).1, hp.1, hp.2.1⟩

theorem next {a : Action V} {r : a.Answer → Join.Pc V} {x : a.Answer}
    (h : pc.Rounds late ended rs l) (hs : s.object.state = .terminated ↔ ended = true)
    (hle : late = true → ended = true) (hn : Join.next id false pc = .act a r)
    (he : effect e.toOracle id a (t, s) = some (x, t', s')) :
    ∃ rs', (r x).Rounds late ended rs' (l ++ a.events e s) := by
  have hl := h.polled
  cases pc with
  | mark =>
    obtain ⟨rfl, rfl⟩ := hl
    cases hn
    exact ⟨[], h.onward rfl (by simp)⟩
  | poll =>
    cases hn
    obtain rfl : x = s.object.state := by cases he; rfl
    obtain rfl : l = rs.flatMap Round.events := hl
    by_cases hx : s.object.state = .terminated
    · refine ⟨rs, ?_⟩
      simp only [if_pos hx]
      refine ⟨?_, h.seen, fun _ => hs.mp hx, fun h' => ⟨(h.still h').1, by simp⟩⟩
      simp only [Polled, Action.events, hx]
    · refine ⟨rs, ?_⟩
      simp only [if_neg hx]
      exact ⟨⟨_, hx, rfl⟩, h.seen, by simp, fun h' => absurd (hs.mpr (hle h')) hx⟩
  | sleep =>
    -- A sleep that fails leaves the round open for the yield.
    cases hn
    obtain ⟨s, hne, rfl⟩ := hl
    have hx : e.backend (.sleep Defaults.pollInterval) = x := by cases he; rfl
    have hno : late = false := Bool.eq_false_iff.mpr fun h' => (h.still h').2.1 rfl
    rcases x with k | u
    · refine ⟨rs, ⟨s, k, hne, ?_⟩, h.seen, by simp, by simp [hno]⟩
      simp only [Action.events, hx, List.append_assoc]
      rfl
    · refine ⟨rs ++ [⟨s, .ok u⟩], .round h.seen hne ?_ hno⟩
      simp only [Action.events, hx, List.append_assoc]
      rfl
  | yield =>
    cases hn
    obtain ⟨s, k, hne, rfl⟩ := hl
    have hno : late = false := Bool.eq_false_iff.mpr fun h' => (h.still h').2.2 rfl
    refine ⟨rs ++ [⟨s, .error k⟩], .round h.seen hne ?_ hno⟩
    simp only [Action.events, List.append_assoc]
    rfl
  | confirm =>
    cases hn
    obtain rfl : x = s.object.state := by cases he; rfl
    have hx := hs.mpr (h.confirms rfl)
    refine ⟨rs, ?_⟩
    simp only [if_pos hx]
    refine h.onward ?_ (by simp)
    obtain rfl : l = rs.flatMap Round.events ++ [Owner.Event.saw .terminated] := hl
    simp only [Polled, Action.events, hx, List.append_assoc]
    rfl
  | take =>
    cases hn
    exact ⟨rs, h.onward ((List.append_nil l).trans hl) (by simp)⟩
  | announce v =>
    cases v with
    | none =>
      cases hn
      exact ⟨rs, h.onward ((List.append_nil l).trans hl) (by simp)⟩
    | some v =>
      cases hn
      exact ⟨rs, h.onward ((List.append_nil l).trans hl) (by simp)⟩
  | done q => cases hn
  | _ => cases hl

theorem uncalled (h : pc.Rounds true ended rs l) (c : BackendCall) (x : c.Answer) :
    .called c x ∉ l := by
  have hl := h.polled
  obtain ⟨rfl, hs, hy⟩ := h.still rfl
  cases pc with
  | sleep => exact absurd rfl hs
  | yield => exact absurd rfl hy
  | mark => simp [hl.2]
  | look => cases hl
  | wait => cases hl
  | waitWarn k => cases hl
  | _ => simp [show l = _ from hl]

end Join.Pc.Rounds

structure Polls (late : Bool) (th : Thread V) (l : List Owner.Event) : Prop where
  alone : th.Alone .owner
  timely : th.Timely
  still : late = true → th.routine.ended = true
  polls : ∃ pc rs, th.owner = .joining false pc ∧ pc.Rounds late th.routine.ended rs l

namespace Polls

variable {e : Setting V} {id : ObjectId} {t t' : Table} {th th' : Thread V} {late : Bool}
  {l : List Owner.Event}

theorem routine (hp : Polls late th l)
    (h : th.perform? (e.effect id) id t .routine = some (t', th')) : Polls late th' l := by
  obtain ⟨pc, rs, ho, hr⟩ := hp.polls
  obtain ⟨a, r, x, hn, rfl, -, -⟩ := Thread.perform_routine h
  have he : th.routine.ended = true → (r x).ended = true := fun he => Routine.ended_on hn he x
  exact ⟨⟨hp.alone.creation, hp.alone.call⟩, hp.timely.onward hn, fun h => he (hp.still h), pc, rs,
    ho, hr.polled, hr.seen, fun h => he (hr.confirms h), hr.still⟩

theorem owner (hp : Polls late th l)
    (h : th.perform? (e.effect id) id t .owner = some (t', th')) :
    Polls late th' (l ++ th.events e id) := by
  have ht := hp.timely.perform h
  obtain ⟨pc, rs, ho, hr⟩ := hp.polls
  obtain ⟨a, r, x, s', hn, ha, he, rfl⟩ := Thread.perform_joining ho h
  obtain ⟨rs', hr⟩ := hr.next hp.timely.ended hp.still hn he
  have hcall : th.controls = [] := by
    obtain ⟨-, hc⟩ | ⟨hc, -⟩ := hp.alone.call
    · exact hc
    · cases hc
  refine ⟨⟨hp.alone.creation, .inl ⟨rfl, hcall⟩⟩, ht, hp.still, r x, rs', rfl, ?_⟩
  rw [Thread.events, ha]
  exact hr

end Polls

namespace World

variable {id : ObjectId} {b : Option V} {own : Bool} {capacity : Nat}
  {before polled waited cs : List (Move V)} {s t p n : World V × Ledger} {th₀ : Thread V}

theorem events_of_ne {c : Move V} (h : c.target ≠ id) (s : World V × Ledger) :
    events id s c = [] := by
  cases c with
  | act q p e =>
    cases p with
    | owner => exact if_neg h
    | _ => rfl
  | _ => rfl

/-- What is kept of a thread by the routine, and with what is written down by
the owner, holds while the owner's call is under way. -/
theorem run_events {I : Thread V → List Owner.Event → Prop}
    (alone : ∀ {th l}, I th l → th.Alone .owner)
    (routine : ∀ {e : Setting V} {t t' th th' l}, I th l →
      th.perform? (e.effect id) id t .routine = some (t', th') → I th' l)
    (owner : ∀ {e : Setting V} {t t' th th' l}, I th l →
      th.perform? (e.effect id) id t .owner = some (t', th') → I th' (l ++ th.events e id))
    {th : Thread V} (h : run? kept? cs s = some t) (hd : ∀ c ∈ cs, c.within id = true)
    (hs : s.1.threads id = some th) (hi : I th []) :
    ∃ th', t.1.threads id = some th' ∧ I th' (transcript kept? (events id) cs s) := by
  refine run_keeps_transcript (I := fun s l => ∃ th, s.1.threads id = some th ∧ I th l)
    (P := fun c => c.within id = true) (fun s c t l hs hst hc => ?_) h hd ⟨th, hs, hi⟩
  obtain ⟨th, hs, hi⟩ := hs
  obtain ⟨hne, ht⟩ | ⟨q, e, tb, th', rfl, rfl | rfl, hp, ht⟩ := alone_step (alone hi) hs hc hst
  · exact ⟨th, ht, by rwa [events_of_ne hne, List.append_nil]⟩
  · refine ⟨th', ht, ?_⟩
    simp only [events, if_true, hs, Option.elim_some]
    exact owner hi hp
  · refine ⟨th', ht, ?_⟩
    simp only [events, List.append_nil]
    exact routine hi hp

structure Polling (id : ObjectId) (made : Bool) (th₀ : Thread V) (l : List Owner.Event)
    (t : World V × Ledger) : Prop where
  /-- Each state but Terminated is followed by a sleep, and each sleep that fails
  by a yield, before the state is read again. -/
  rounds : made = true → ∃ th pc rs, t.1.threads id = some th ∧ th.owner = .joining false pc ∧
    pc.Polled rs l ∧ ∀ r ∈ rs, r.seen ≠ .terminated
  refused : made = false → l = []
  ended : th₀.shared.object.state = .terminated → ∀ c x, Owner.Event.called c x ∉ l

theorem Waits.idle (hw : Waits id b own false cs s t) (hq : s.1.threads id = some th₀)
    (hm : Join.made own th₀.shared.joined = false) :
    transcript kept? (events id) (.begin id (.join own false) :: cs) s = [] := by
  obtain ⟨th₁, th, hq', hb, hk, hrun⟩ := run_begins hw.run
  cases hq.symm.trans hq'
  obtain ⟨hc, -, ⟨f, hf, -⟩ | ⟨hn, w, hw', rfl⟩⟩ := Thread.begin_cases hb
  · cases hf
  rw [Owner.begin?, Join.start_refused hm b] at hw'
  cases hw'
  have hev : ∃ th', t.1.threads id = some th' ∧ th'.Alone .owner ∧
      (∃ r, th'.owner = .joining false (.done r)) ∧ transcript kept? (events id) cs _ = [] :=
    run_events
      (I := fun th l => th.Alone .owner ∧ (∃ r, th.owner = .joining false (.done r)) ∧ l = [])
      (fun h => h.1) (fun h hp => by
        obtain ⟨a, r, x, -, rfl, -, -⟩ := Thread.perform_routine hp
        exact ⟨⟨h.1.creation, h.1.call⟩, h.2⟩)
      (fun h hp => by
        obtain ⟨q, ho⟩ := h.2.1
        obtain ⟨a, r, x, s', hx, -⟩ := Thread.perform_joining ho hp
        cases hx)
      hrun hw.within (threads_put ..) ⟨⟨hc, .inl ⟨rfl, hn⟩⟩, ⟨_, rfl⟩, rfl⟩
  obtain ⟨th, -, -, -, hl⟩ := hev
  rw [transcript_cons hk, hl]
  rfl

theorem Waits.polls (hw : Waits id b own false cs s t) (hq : s.1.threads id = some th₀)
    (ht : th₀.Timely) (hm : Join.made own th₀.shared.joined = true) :
    ∃ th, t.1.threads id = some th ∧ Polls (decide (th₀.shared.object.state = .terminated)) th
      (transcript kept? (events id) (.begin id (.join own false) :: cs) s) := by
  obtain ⟨th₁, th, hq', hb, hk, hrun⟩ := run_begins hw.run
  cases hq.symm.trans hq'
  obtain ⟨hc, -, ⟨f, hf, -⟩ | ⟨hn, w, hw', rfl⟩⟩ := Thread.begin_cases hb
  · cases hf
  obtain ⟨rfl, hj⟩ : own = true ∧ th₀.shared.joined = false := by simpa [Join.made] using hm
  rw [hj] at hw'
  cases hw'
  rw [transcript_cons hk]
  exact run_events Polls.alone Polls.routine Polls.owner hrun hw.within (threads_put ..)
    ⟨⟨hc, .inl ⟨rfl, hn⟩⟩, ht.begin hb, fun h => ht.ended.mp (of_decide_eq_true h), .mark, [], rfl,
      .start⟩

theorem Waits.polling (hw : Waits id b own false cs s t) (hq : s.1.threads id = some th₀)
    (ht : th₀.Timely) :
    Polling id (Join.made own th₀.shared.joined) th₀
      (transcript kept? (events id) (.begin id (.join own false) :: cs) s) t := by
  cases hm : Join.made own th₀.shared.joined with
  | false =>
    rw [hw.idle hq hm]
    exact ⟨nofun, fun _ => rfl, fun _ _ _ => List.not_mem_nil⟩
  | true =>
    obtain ⟨th, htr, hp⟩ := hw.polls hq ht hm
    obtain ⟨pc, rs, ho, hr⟩ := hp.polls
    refine ⟨fun _ => ⟨th, pc, rs, htr, ho, hr.polled, hr.seen⟩, nofun, fun hs => ?_⟩
    rw [decide_eq_true hs] at hr
    exact hr.uncalled

/-- A polled join and a join that waits in the backend agree. Whatever the
function does and whenever it ends, both answer the same and leave the thread
joined and Terminated, and they leave the same manager if everybody else does
the same meanwhile. Both answer once the thread has ended. The polled join
answers only after it has read Terminated, has slept once for each other state
it has read and has yielded after each sleep that failed, and if the thread had
ended before it has called nothing. -/
theorem polled_join_agrees (hs : run? kept? before (unkept capacity) = some s)
    (hb : Throughout kept? (Acts id (Serves false b)) before (unkept capacity))
    (hp : Waits id b own false polled s p) (hn : Waits id b own true waited s n) :
    ∃ th₀, s.1.threads id = some th₀ ∧
      (∀ q r, Answers id p q → Answers id n r →
        ∃ u v, Concludes id b own th₀ p q u ∧ Concludes id b own th₀ n r v ∧
          ((polled.filter fun c => !c.isBy id .owner) = waited.filter (fun c => !c.isBy id .owner) →
            u = v)) ∧
      Finishes id p ∧ Finishes id n ∧
      Polling id (Join.made own th₀.shared.joined) th₀
        (transcript kept? (events id) (.begin id (.join own false) :: polled) s) p := by
  obtain ⟨th₀, -, ht, -⟩ := run_begins hp.run
  have hreg := regular hs hb ht
  refine ⟨th₀, ht, fun q r hq hr => ?_, ?_, ?_, hp.polling ht hreg.timely⟩
  · obtain ⟨u, hu, hcu⟩ := hp.concludes ht hreg hq
    obtain ⟨v, hv, hcv⟩ := hn.concludes ht hreg hr
    refine ⟨_, _, hcu, hcv, fun he => ?_⟩
    rw [he, hv] at hu
    cases hu
    rfl
  · obtain ⟨th, pc, hth, ho⟩ := hp.owner ht hreg
    exact finishes hth ho
  · obtain ⟨th, pc, hth, ho⟩ := hn.owner ht hreg
    exact finishes hth ho

def restless : Setting Nat where
  backend
    | .sleep _ => .error .timeout
    | c => Oracle.agreeable.backend c
  body := some 7
  latch := .working

def madeRestless : List (Move Nat) :=
  .create ⟨1, .default, 0⟩ :: List.replicate 5 (.act 1 .creator restless)

def readTwice : List (Move Nat) :=
  List.replicate 4 (.act 1 .owner restless) ++ List.replicate 5 (.act 1 .routine restless) ++
    List.replicate 4 (.act 1 .owner restless)

def waitedFor : List (Move Nat) :=
  List.replicate 2 (.act 1 .owner restless) ++ List.replicate 5 (.act 1 .routine restless) ++
    List.replicate 4 (.act 1 .owner restless)

theorem seven_is_joined : ∃ (s p n u : World Nat × Ledger) (th : Thread Nat),
    run? kept? madeRestless (unkept 1) = some s ∧
      Waits 1 (some 7) true false readTwice s p ∧ Waits 1 (some 7) true true waitedFor s n ∧
      Concludes 1 (some 7) true th p (.ok 7) u ∧ Concludes 1 (some 7) true th n (.ok 7) u := by
  obtain ⟨s, hs⟩ : ∃ s, run? kept? madeRestless (unkept 1) = some s := ⟨_, rfl⟩
  obtain ⟨p, hp, ha⟩ : ∃ p, Waits 1 (some 7) true false readTwice s p ∧ Answers 1 p (.ok 7) := by
    cases hs
    exact ⟨_, ⟨rfl, by decide, by decide⟩, _, _, rfl, rfl⟩
  obtain ⟨n, hn, hr⟩ : ∃ n, Waits 1 (some 7) true true waitedFor s n ∧ Answers 1 n (.ok 7) := by
    cases hs
    exact ⟨_, ⟨rfl, by decide, by decide⟩, _, _, rfl, rfl⟩
  obtain ⟨th, -, hc, -⟩ := polled_join_agrees hs (by decide) hp hn
  obtain ⟨u, v, hu, hv, he⟩ := hc _ _ ha hr
  cases he rfl
  exact ⟨s, p, n, u, th, hs, hp, hn, hu, hv⟩

end World

end SyncCore.Manager

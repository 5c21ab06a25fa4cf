import SyncCore.Proofs.Manager.Joining
import SyncCore.Proofs.Manager.Release
import SyncCore.Proofs.Manager.Suspension

/-!
# Publication of results

Terminated publishes what the function of a thread has left. Whoever reads it
finds the function ended and the slot written, and a join that takes the slot
answers what the function returned.
-/

set_option autoImplicit false

namespace SyncCore.Manager

variable {V : Type} {reliable : Prop}

structure Published (th : Thread V) (k : History V) : Prop where
  /-- When the thread is Terminated its function has ended, once, and the slot
  has been written if it returned and not if it unwound. -/
  terminated : th.shared.object.state = .terminated →
    ∃ e, k.endings = [e] ∧ k.writes = e.toList
  /-- Nobody is about to take from the slot while it is about to be written. -/
  apart : ∀ native v, ¬(th.owner = .joining native .take ∧ th.routine = .put v)
  value : ∀ own v, (own, .ok v) ∈ k.answers → k.endings = [some v]
  once : k.answers.countP (fun a => a.2.isOk) ≤ 1
  later : ∀ r ∈ k.own.tail, r = .error .threadJoinFailed
  destroyed : (∃ joined, th.owner = .destroying joined (.done (.ok ()))) ∨ th.owner = .destroyed →
    ∃ e, k.endings = [e]

theorem Told.published {th : Thread V} {k : History V} (hk : Told reliable th k) (hl : th.Lasting)
    (hs : th.shared.object.state = .terminated ↔ th.routine.ended = true) : Published th k where
  terminated := fun h => hk.ran.of_ended (hs.mp h)
  apart := fun native v h => by
    have hown := hk.owner
    rw [h.1] at hown
    have he := hown.2.2
    rw [h.2] at he
    cases he
  value := fun _ _ h => hk.honest.returned h
  once := hk.honest.once
  later := hk.honest.later
  destroyed := fun h => by
    have he : th.routine.ended = true := by
      obtain ⟨j, ho⟩ | ho := h <;> exact hl (by rw [ho]; rfl)
    exact (hk.ran.of_ended he).imp fun _ h => h.1

/-! ## Joins of a thread that has ended -/

/-- The most actions a join still makes once the routine has ended. -/
def Join.Pc.left : Join.Pc V → Nat
  | .mark => 6
  | .look => 5
  | .wait => 4
  | .waitWarn _ => 1
  | .poll => 4
  | .sleep => 6
  | .yield => 5
  | .confirm => 3
  | .take => 2
  | .announce _ => 1
  | .done _ => 0

theorem Join.Pc.left_le (pc : Join.Pc V) : pc.left ≤ 6 := by
  cases pc <;> simp [left]

section Progress

variable {o : Oracle V} {id : ObjectId} {t t' : Table} {s s' : Shared V} {native : Bool}

theorem Join.left_lt {pc : Join.Pc V} {a : Action V} {resume : a.Answer → Join.Pc V} {x : a.Answer}
    (hs : s.object.state = .terminated) (hn : Join.next id native pc = .act a resume)
    (he : effect o id a (t, s) = some (x, t', s')) : (resume x).left < pc.left := by
  cases pc with
  | mark => cases hn; cases native <;> simp [Pc.left]
  | look => cases hn; cases x <;> simp [Pc.left]
  | wait => cases hn; rcases x with e | u <;> simp [Pc.left]
  | poll =>
    cases hn
    have hx : x = ThreadState.terminated := by
      cases he
      exact hs
    subst hx
    simp [Pc.left]
  | sleep => cases hn; rcases x with e | u <;> simp [Pc.left]
  | confirm =>
    cases hn
    dsimp only
    split <;> simp [Pc.left]
  | announce v => cases hn; cases v <;> simp [Pc.left]
  | done r => cases hn
  | _ =>
    cases hn
    simp [Pc.left]

theorem Join.ready {th : Thread V} {pc : Join.Pc V} (ho : th.owner = .joining native pc)
    (hp : ∀ r, pc ≠ .done r) (o : Oracle V) (t : Table) :
    (th.act? o id t .owner).isSome = true := by
  simp only [Thread.act?, ho, Owner.act?, Option.isSome_map]
  cases pc with
  | done r => exact absurd rfl (hp r)
  | _ => rfl

end Progress

/-! ## Runs -/

def Choice.byOwner (id : ObjectId) : Choice V → Bool
  | .act q .owner _ => q = id
  | _ => false

namespace World

variable {w u : World V} {id : ObjectId} {capacity : Nat} {k m : History V}

def Reliable (id : ObjectId) (s : World V × History V) : Choice V → World V × History V → Prop
  | .act q .owner o, _ => q = id → ∀ th ∈ s.1.threads id, o.Reliable th s.2
  | _, _ => True

instance [DecidableEq V] (id : ObjectId) (s : World V × History V) (c : Choice V)
    (t : World V × History V) : Decidable (Reliable id s c t) := by
  unfold Reliable
  split <;> infer_instance

structure Recorded (reliable : Prop) (capacity : Nat) (id : ObjectId) (s : World V × History V) :
    Prop where
  occupied : Occupied capacity s.1
  lasting : s.1.Lasting
  watched : ∃ n, Watched id s.1 n
  absent : s.1.threads id = none → s.2 = .empty
  present : ∀ th, s.1.threads id = some th → Told reliable th s.2

theorem recorded_initial (capacity : Nat) :
    Recorded reliable capacity id ((initial capacity : World V), .empty) where
  occupied := occupied_initial capacity
  lasting := lasting_initial capacity
  watched := ⟨0, watched_initial capacity⟩
  absent := fun _ => rfl
  present := fun _ h => nomatch h

theorem Recorded.bound {s : World V × History V} {th : Thread V}
    (hs : Recorded reliable capacity id s) (ht : s.1.threads id = some th)
    (ho : th.owner.atRest = false) : th.shared.object.binding.isSome = true := by
  obtain ⟨n, hw⟩ := hs.watched
  refine (hw.present th ht).bound ?_
  have hc := (hs.occupied.used id th ht).accepted_of_owner ho
  cases hp : th.creation with
  | done r => rcases r with e | u <;> first | rfl | (rw [hp] at hc; cases hc)
  | _ => first | rfl | (rw [hp] at hc; cases hc)

theorem recorded_step {c : Choice V} {s t : World V × History V}
    (hs : Recorded reliable capacity id s) (h : noted step? (noteHistory id) c s = some t)
    (hr : reliable → Reliable id s c t) : Recorded reliable capacity id t := by
  obtain ⟨hst, hn⟩ := noted_step h
  obtain ⟨n, hw⟩ := hs.watched
  have ho := occupied_step hs.occupied hst
  have hl := lasting_step hs.occupied hs.lasting hst
  have hww : ∃ n, Watched id t.1 n := ⟨_, watched_step hw hst⟩
  have of_present : ∀ th, t.1.threads id = some th → Told reliable th t.2 →
      Recorded reliable capacity id t := fun th ht hk =>
    ⟨ho, hl, hww, fun hz => (nomatch ht.symm.trans hz),
      fun _ hz => Option.some.inj (ht.symm.trans hz) ▸ hk⟩
  obtain ⟨he, hc⟩ | ⟨r, hz, hu, rfl, rfl⟩ | ⟨th, th', c, ht, hu, rfl, hb⟩ |
    ⟨th, th', p, o, tb, ht, hu, rfl, ha⟩ | ⟨th, th', p, ht, hu, rfl, hf⟩ := step_target hst id
  · have hk : t.2 = s.2 := hn.trans (if_neg hc)
    exact ⟨ho, hl, hww, fun hz => hk ▸ hs.absent (he ▸ hz),
      fun th ht => hk ▸ hs.present th (he ▸ ht)⟩
  · have hk : t.2 = .empty := by rw [hn, hs.absent hz]; simp [noteHistory, hz]
    exact of_present _ hu (hk ▸ .new r)
  · have hk : t.2 = s.2.begin c := by simp [hn, noteHistory, Choice.target, ht, History.thread]
    exact of_present _ hu (hk ▸ (hs.present th ht).begin hb)
  · have hk : t.2 = (th.action? id p).elim s.2 (s.2.action o) := by
      simp [hn, noteHistory, Choice.target, ht, History.thread]
    refine of_present _ hu (hk ▸ (hs.present th ht).act (hs.occupied.used id th ht).ended
      (hs.bound ht) (fun hrel hp => ?_) ha)
    subst hp
    exact hr hrel rfl th ht
  · have hk : t.2 = s.2.thread id th (.finish id p) := by
      simp [hn, noteHistory, Choice.target, ht]
    exact of_present _ hu (hk ▸ (hs.present th ht).finish hf)

/-! ## Joins return -/

/-- A join is not kept from its next action, and it has answered by the time
the owner has made seven more. -/
def JoinsReturn (id : ObjectId) (w : World V) (k : History V) (th : Thread V) : Prop :=
  ∀ native pc, th.owner = .joining native pc →
    ((∃ r, pc = .done r) ∨ ∀ o, (th.act? o id w.table .owner).isSome = true) ∧
    ∀ ds u m, run? (noted step? (noteHistory id)) ds (w, k) = some (u, m) →
      6 < tally (noted step? (noteHistory id)) (fun _ c => c.byOwner id) ds (w, k) →
      k.answers.length < m.answers.length

/-- A join of a thread that has ended is under way and has made a number of
actions, of the given number at most, or it has answered. -/
def Answering (id : ObjectId) (before limit : Nat) (s : World V × History V) (n : Nat) : Prop :=
  before < s.2.answers.length ∨
  (before ≤ s.2.answers.length ∧ ∃ th native pc, s.1.threads id = some th ∧
    th.owner = .joining native pc ∧ th.routine.ended = true ∧ pc.left + n ≤ limit)

theorem answers_le (id : ObjectId) (w : World V) (c : Choice V) (k : History V) :
    k.answers.length ≤ (noteHistory id w c k).answers.length := by
  by_cases hc : c.target = id
  · cases ht : w.threads id with
    | none => simp [noteHistory, ht]
    | some th => simpa [noteHistory, hc, ht] using k.answers_le id th c
  · rw [noteHistory, if_neg hc]

theorem answering_act {th th' : Thread V} {p : Party} {o : Oracle V} {t t' : Table} {native : Bool}
    {pc : Join.Pc V} (hs : th.shared.object.state = .terminated)
    (ho : th.owner = .joining native pc)
    (h : th.act? o id t p = some (t', th')) :
    ∃ pc', th'.owner = .joining native pc' ∧
      pc'.left + ((Choice.act id p o).byOwner id).toNat ≤ pc.left := by
  obtain ⟨_, _, _, s', rfl, -, -, rfl⟩ | ⟨a, r, x, s', rfl, -, -, rfl⟩ |
    ⟨w, s', rfl, hw, rfl⟩ | ⟨i, c, c', s', rfl, -, -, rfl⟩ := Thread.act_cases h
  · exact ⟨pc, ho, le_rfl⟩
  · exact ⟨pc, ho, le_rfl⟩
  · obtain ⟨m, q, b, r, y, hj, hn, he, rfl⟩ | ⟨j, q, b, r, y, hj, -⟩ | ⟨j, q, b, r, y, hj, -⟩ :=
      Owner.act_cases hw
    · cases ho.symm.trans hj
      refine ⟨r y, rfl, ?_⟩
      have hb : (Choice.act id .owner o : Choice V).byOwner id = true := by simp [Choice.byOwner]
      rw [hb]
      exact Join.left_lt hs hn he
    · cases ho.symm.trans hj
    · cases ho.symm.trans hj
  · exact ⟨pc, ho, le_rfl⟩

theorem answering_step {c : Choice V} {s t : World V × History V} {before limit n : Nat}
    (hs : Occupied capacity s.1) (ha : Answering id before limit s n)
    (h : noted step? (noteHistory id) c s = some t) :
    Answering id before limit t (n + (c.byOwner id).toNat) := by
  obtain ⟨hst, hn⟩ := noted_step h
  have hle : s.2.answers.length ≤ t.2.answers.length := hn ▸ answers_le id s.1 c s.2
  obtain hlt | ⟨hb, th, native, pc, ht, ho, he, hpc⟩ := ha
  · exact .inl (hlt.trans_le hle)
  obtain ⟨hu, hc⟩ | ⟨r, hz, -⟩ | ⟨tq, th', c, hq, hu, rfl, hbegin⟩ |
    ⟨tq, th', p, o, tb, hq, hu, rfl, hact⟩ | ⟨tq, th', p, hq, hu, rfl, hf⟩ := step_target hst id
  · have hc : c.byOwner id = false := by
      cases c with
      | act q p o => cases p <;> simp [Choice.byOwner]; exact hc
      | _ => rfl
    exact .inr ⟨hb.trans hle, th, native, pc, hu.trans ht, ho, he, by simpa [hc] using hpc⟩
  · cases hz.symm.trans ht
  · cases hq.symm.trans ht
    have hr := (Thread.begin_cases hbegin).2.1
    rw [ho] at hr
    cases hr
  · cases hq.symm.trans ht
    obtain ⟨pc', ho', hl⟩ := answering_act ((hs.used id th ht).ended.mpr he) ho hact
    exact .inr ⟨hb.trans hle, th', native, pc', hu, ho', Thread.act_ended hact he, by omega⟩
  · cases hq.symm.trans ht
    cases p with
    | creator => cases hf
    | routine => cases hf
    | owner =>
      refine .inl (hb.trans_lt ?_)
      obtain ⟨v, hv, -⟩ := Option.map_eq_some_iff.mp hf
      obtain ⟨m, r, hj, -⟩ | ⟨j, x, hj, -⟩ | ⟨j, e, hj, -⟩ | ⟨j, hj, -⟩ := Owner.finish_cases hv
      · rw [hn]
        simp [noteHistory, Choice.target, ht, History.thread, hj, History.finish, History.answer]
      all_goals cases ho.symm.trans hj
    | control i =>
      rw [Thread.finish_control hf] at hu
      exact .inr ⟨hb.trans hle, _, native, pc, hu, ho, he, hpc⟩

theorem joins_return {th : Thread V} (hs : Occupied capacity w) (ht : w.threads id = some th)
    (he : th.routine.ended = true) : JoinsReturn id w k th := by
  intro native pc ho
  constructor
  · by_cases hd : ∃ r, pc = .done r
    · exact .inl hd
    · exact .inr fun o => Join.ready ho (fun r hr => hd ⟨r, hr⟩) o w.table
  · intro ds u m h hlt
    have hk : Answering id k.answers.length pc.left (u, m)
        (0 + tally (noted step? (noteHistory id)) (fun _ c => c.byOwner id) ds (w, k)) :=
      (run_keeps_tally
        (I := fun s n => Occupied capacity s.1 ∧ Answering id k.answers.length pc.left s n)
        (fun s c t n hi hst =>
          ⟨occupied_step hi.1 (noted_step hst).1, answering_step hi.1 hi.2 hst⟩)
        h ⟨hs, .inr ⟨le_rfl, th, native, pc, ht, ho, he, le_rfl⟩⟩).2
    obtain ha | ⟨-, th', native', pc', -, -, -, hpc⟩ := hk
    · exact ha
    · have := pc.left_le
      omega

/-- In every run of a manager, whatever its threads' functions do and whoever
looks on, the results of a thread are published: Terminated is read only after
the function has ended and the slot has been written if it returned, a join
answers only with what the function returned and only once, and a destroy
succeeds only after the end. Where the backend's own join is reliable, the first
join through the handle's manager answers just what the function has left. -/
theorem results_are_published {cs : List (Choice V)} {th : Thread V}
    (h : run? (noted step? (noteHistory id)) cs (initial capacity, .empty) = some (w, k))
    (ht : w.threads id = some th) :
    Published th k ∧
    (Throughout (noted step? (noteHistory id)) (Reliable id) cs (initial capacity, .empty) →
      ∀ r, k.own.head? = some r → ∃ e, k.endings = [e] ∧ r = verdict e) ∧
    (th.routine.ended = true → JoinsReturn id w k th) := by
  have hk : Recorded False capacity id (w, k) :=
    run_keeps (fun _ _ _ hs hst => recorded_step hs hst False.elim) h (recorded_initial capacity)
  refine ⟨(hk.present th ht).published (hk.lasting id th ht) (hk.occupied.used id th ht).ended,
    fun hr r hf => ?_, joins_return hk.occupied ht⟩
  have hk : Recorded True capacity id (w, k) :=
    run_keeps_throughout (fun _ _ _ hs hst hc => recorded_step hs hst fun _ => hc) h hr
      (recorded_initial capacity)
  exact ((hk.present th ht).honest.first r hf).exact trivial

def returning (v : V) : Oracle V where
  backend := Oracle.agreeable.backend
  body := some v

/-- A thread returns a value while its owner waits for it. It is joined, joined
once more in vain, and destroyed. -/
def joinedTwice : List (Choice Nat) :=
  [.create ⟨1, .default, 0⟩,
    .act 1 .creator (returning 7), .act 1 .creator (returning 7), .act 1 .creator (returning 7),
    .act 1 .creator (returning 7), .act 1 .creator (returning 7),
    .begin 1 (.join true true), .act 1 .owner (returning 7), .act 1 .owner (returning 7),
    .act 1 .routine (returning 7), .act 1 .routine (returning 7), .act 1 .routine (returning 7),
    .act 1 .routine (returning 7), .act 1 .routine (returning 7),
    .act 1 .owner (returning 7), .act 1 .owner (returning 7), .act 1 .owner (returning 7),
    .act 1 .owner (returning 7), .finish 1 .owner,
    .begin 1 (.join true true), .finish 1 .owner,
    .begin 1 (.destroy true), .act 1 .owner (returning 7), .act 1 .owner (returning 7),
    .act 1 .owner (returning 7), .finish 1 .owner]

theorem joined_twice_published :
    ∃ (w : World Nat) (th : Thread Nat) (k : History Nat),
      run? (noted step? (noteHistory 1)) joinedTwice (initial 1, .empty) = some (w, k) ∧
      w.threads 1 = some th ∧ th.owner = .destroyed ∧
      k = ⟨[some 7], [7], true, [(true, .ok 7), (true, .error .threadJoinFailed)]⟩ ∧
      Published th k ∧ (∃ e, k.endings = [e] ∧ .ok 7 = verdict e) ∧ JoinsReturn 1 w k th := by
  obtain ⟨w, k, h⟩ : ∃ w k, run? (noted step? (noteHistory 1)) joinedTwice
    ((initial 1 : World Nat), .empty) = some (w, k) := ⟨_, _, rfl⟩
  obtain ⟨th, ht, ho, he, hk⟩ : ∃ th, w.threads 1 = some th ∧ th.owner = .destroyed ∧
      th.routine.ended = true ∧
      k = ⟨[some 7], [7], true, [(true, .ok 7), (true, .error .threadJoinFailed)]⟩ := by
    cases h
    exact ⟨_, rfl, rfl, rfl, rfl⟩
  obtain ⟨hp, hf, hj⟩ := results_are_published h ht
  exact ⟨w, th, k, h, ht, ho, hk, hp, hf (by decide) (.ok 7) (by rw [hk]; rfl), hj he⟩

end World

end SyncCore.Manager

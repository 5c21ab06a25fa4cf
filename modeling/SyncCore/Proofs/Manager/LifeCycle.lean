import Mathlib.Data.List.Chain
import SyncCore.Proofs.Manager.Actions

/-!
# The life cycle of a thread

The routine stores Running and Terminated without looking, suspensions and
resumptions exchange Running and Suspended and take their exchanges back.
Whatever the order, the values stored in a thread's state go from Created to
Running, from there to Suspended and back any number of times, and end with
Terminated.
-/

set_option autoImplicit false

namespace SyncCore

namespace ThreadState

inductive Follows : ThreadState → ThreadState → Prop where
  | start : Follows .created .running
  | suspend : Follows .running .suspended
  | resume : Follows .suspended .running
  | finish : Follows .running .terminated
  | abandon : Follows .suspended .terminated

theorem word_injective : Function.Injective word := by
  intro s d h
  rw [← ofWord_word s, ← ofWord_word d, h]

theorem Follows.not_created {s d : ThreadState} (h : Follows s d) : d ≠ .created := by
  cases h <;> decide

theorem Follows.not_terminated {s d : ThreadState} (h : Follows s d) : s ≠ .terminated := by
  cases h <;> decide

end ThreadState

namespace Manager

open ThreadState (Follows)

variable {V : Type}

theorem Hold.follows (h : Hold) : Follows h.origin h.target ∧ Follows h.target h.origin := by
  cases h with
  | suspend => exact ⟨.suspend, .resume⟩
  | resume => exact ⟨.resume, .suspend⟩

def Routine.Pc.published : Routine.Pc V → List ThreadState
  | .gate => []
  | .wait => []
  | .begin => []
  | .body => [.running]
  | .put _ => [.running]
  | .terminate => [.running]
  | _ => [.running, .terminated]

def Thread.stores (id : ObjectId) (th : Thread V) (p : Party) : Option ThreadState :=
  (th.action? id p).bind (Action.stores th.shared.object)

abbrev Stores := List (Party × ThreadState)

def noteStores (id : ObjectId) (w : World V) : Choice V → Stores → Stores
  | .act q p _, xs =>
    if q = id then xs ++ (((w.threads id).bind (Thread.stores id · p)).map (p, ·)).toList else xs
  | _, xs => xs

def Stores.last (xs : Stores) : ThreadState := (xs.map Prod.snd).getLast?.getD .created

structure Course (th : Thread V) (xs : Stores) : Prop where
  path : (ThreadState.created :: xs.map Prod.snd).IsChain Follows
  word : th.shared.object.stateWord = xs.last.word
  routine : (xs.filter (·.1 = .routine)).map Prod.snd = th.routine.published
  first : xs.head? = th.routine.published.head?.map (Party.routine, ·)
  final : ∀ x ∈ xs, x.2 = .terminated → x.1 = .routine

theorem follows_of_mem {s d : ThreadState} {ds : List ThreadState}
    (h : (s :: ds).IsChain Follows) (hd : d ∈ ds) : ∃ c, Follows c d := by
  induction ds generalizing s with
  | nil => cases hd
  | cons e ds ih =>
    obtain ⟨hse, hes⟩ := List.isChain_cons_cons.mp h
    rcases List.mem_cons.mp hd with rfl | hd
    · exact ⟨s, hse⟩
    · exact ih hes hd

theorem Stores.last_push (xs : Stores) (x : Party × ThreadState) : last (xs ++ [x]) = x.2 := by
  simp [last]

theorem Stores.path_push {xs : Stores} {x : Party × ThreadState}
    (h : (ThreadState.created :: xs.map Prod.snd).IsChain Follows) (hx : Follows xs.last x.2) :
    (ThreadState.created :: (xs ++ [x]).map Prod.snd).IsChain Follows := by
  have hl : (ThreadState.created :: xs.map Prod.snd).getLast? = some xs.last := List.getLast?_cons
  rw [List.map_append, ← List.cons_append, List.isChain_append]
  refine ⟨h, List.isChain_singleton _, ?_⟩
  rintro a ha b hb
  rw [hl] at ha
  cases ha
  cases hb
  exact hx

/-! ## What each party stores -/

section Parties

variable {id : ObjectId} {th : Thread V}

theorem Thread.creator_stores : th.stores id .creator = none := by
  simp only [stores, action?]
  cases th.creation <;> rfl

theorem Thread.owner_stores : th.stores id .owner = none := by
  simp only [stores, action?]
  cases th.owner with
  | joining native pc => cases pc <;> rfl
  | destroying joined pc => cases pc <;> rfl
  | dropping joined pc => cases pc <;> rfl
  | _ => rfl

/-- A control stores what follows on the state it finds. -/
theorem Thread.control_stores {k : Nat} {d : ThreadState} (h : th.stores id (.control k) = some d) :
    ∃ s, th.shared.object.stateWord = s.word ∧ s ≠ .created ∧ d ≠ .terminated ∧ Follows s d := by
  cases hk : th.controls[k]? with
  | none =>
    simp only [stores, action?, hk] at h
    cases h
  | some c =>
    simp only [stores, action?, hk] at h
    cases c with
    | priority q native pc => cases pc <;> cases h
    | hold f pc =>
      have hf := f.follows
      cases pc with
      | exchange =>
        obtain ⟨hw, hd⟩ := Option.ite_none_right_eq_some.mp h
        cases hd
        exact ⟨f.origin, hw, by cases f <;> decide, by cases f <;> decide, hf.1⟩
      | undo e =>
        obtain ⟨hw, hd⟩ := Option.ite_none_right_eq_some.mp h
        cases hd
        exact ⟨f.target, hw, by cases f <;> decide, by cases f <;> decide, hf.2⟩
      | call => cases f <;> cases h
      | _ => cases h

theorem Routine.stores_published {pc : Routine.Pc V} {a : Action V}
    {resume : a.Answer → Routine.Pc V} (h : Routine.next id pc = .act a resume) (x : a.Answer)
    (b : ThreadObject V) : (resume x).published = pc.published ++ (a.stores b).toList := by
  cases pc with
  | gate => cases h; cases x <;> rfl
  | body => cases h; cases x <;> rfl
  | look => cases h; cases x <;> rfl
  | unregister =>
    cases h
    rcases x with e | u
    · by_cases he : e = .notFound <;> simp [he, Action.stores, Pc.published]
    · rfl
  | done => cases h
  | _ =>
    cases h
    rfl

end Parties

namespace Course

variable {o : Oracle V} {id : ObjectId} {t t' : Table} {s' : Shared V} {th th' : Thread V}
  {xs : Stores}

theorem new (r : Create.Request) : Course (.new r : Thread V) [] where
  path := List.isChain_singleton _
  word := rfl
  routine := rfl
  first := rfl
  final := nofun

theorem fresh (hc : Course th xs) (hr : th.routine.published = []) : xs = [] := by
  have hf := hc.first
  rw [hr] at hf
  exact List.head?_eq_none_iff.mp hf

theorem state_eq (hc : Course th xs) : th.shared.object.state = xs.last := by
  rw [ThreadObject.state, hc.word, ThreadState.ofWord_word]

theorem quiet (hc : Course th xs)
    (hw : th'.shared.object.stateWord = th.shared.object.stateWord)
    (hr : th'.routine.published = th.routine.published) : Course th' xs where
  path := hc.path
  word := hw.trans hc.word
  routine := hc.routine.trans hr.symm
  first := by rw [hr, hc.first]
  final := hc.final

/-- Another party than the routine stores what follows, over another state than Created. -/
theorem exchange {p : Party} {d : ThreadState} (hc : Course th xs) (hp : p ≠ .routine)
    (hd : d ≠ .terminated) (hl : xs.last ≠ .created) (hf : Follows xs.last d)
    (hw : th'.shared.object.stateWord = d.word)
    (hr : th'.routine.published = th.routine.published) : Course th' (xs ++ [(p, d)]) where
  path := Stores.path_push hc.path hf
  word := by rw [hw, Stores.last_push]
  routine := by simpa [List.filter_append, hp, hr] using hc.routine
  first := by
    have hne : xs ≠ [] := fun h => hl (by rw [h]; rfl)
    rw [List.head?_append_of_ne_nil _ hne, hr, hc.first]
  final := fun x hx ht => by
    rcases List.mem_append.mp hx with hx | hx
    · exact hc.final x hx ht
    · cases List.mem_singleton.mp hx
      exact absurd ht hd

theorem publish {d : ThreadState} (hc : Course th xs) (hf : Follows xs.last d)
    (hw : th'.shared.object.stateWord = d.word)
    (hr : th'.routine.published = th.routine.published ++ [d]) :
    Course th' (xs ++ [(.routine, d)]) where
  path := Stores.path_push hc.path hf
  word := by rw [hw, Stores.last_push]
  routine := by simp [List.filter_append, hr, hc.routine]
  first := by
    rw [hr, List.head?_append, List.head?_append, hc.first]
    cases th.routine.published.head? <;> rfl
  final := fun x hx ht => by
    rcases List.mem_append.mp hx with hx | hx
    · exact hc.final x hx ht
    · cases List.mem_singleton.mp hx
      rfl

/-- Between Running and Terminated the thread is running or suspended. -/
theorem live (hc : Course th xs) (hr : th.routine.published = [.running]) :
    Follows xs.last .terminated := by
  have hne : xs ≠ [] := fun h => by
    have hp := hc.routine
    simp [h, hr] at hp
  obtain ⟨ys, y, rfl⟩ := List.eq_nil_or_concat xs |>.resolve_left hne
  rw [List.concat_eq_append] at hc ⊢
  have hy : y ∈ ys ++ [y] := List.mem_append_right ys (List.mem_singleton_self y)
  obtain ⟨c, hf⟩ := follows_of_mem hc.path (List.mem_map_of_mem hy)
  have ht : y.2 ≠ .terminated := fun h => by
    have hm : y.2 ∈ th.routine.published := by
      rw [← hc.routine]
      exact List.mem_map_of_mem (List.mem_filter.mpr ⟨hy, by simp [hc.final y hy h]⟩)
    rw [h, hr] at hm
    cases List.mem_singleton.mp hm
  have hn := hf.not_created
  rw [Stores.last_push]
  cases hs : y.2 with
  | created => exact absurd hs hn
  | running => exact .finish
  | suspended => exact .abandon
  | terminated => exact absurd hs ht

theorem routine_act {a : Action V} {resume : a.Answer → Routine.Pc V} {x : a.Answer}
    (hc : Course th xs) (hn : Routine.next id th.routine = .act a resume)
    (he : effect o id a (t, th.shared) = some (x, t', s')) :
    Course { th with routine := resume x, shared := s' }
      (xs ++ ((a.stores th.shared.object).map (Party.routine, ·)).toList) := by
  have hw := effect_stores he
  have hp := Routine.stores_published hn x th.shared.object
  cases hs : a.stores th.shared.object with
  | none =>
    rw [hs] at hw hp
    have hq : Course { th with routine := resume x, shared := s' } xs :=
      hc.quiet hw (by simpa using hp)
    simpa [hs] using hq
  | some d =>
    rw [hs] at hw hp
    refine hc.publish ?_ hw hp
    cases hr : th.routine with
    | begin =>
      rw [hr] at hn
      cases hn
      cases hs
      rw [hc.fresh (by rw [hr]; rfl)]
      exact .start
    | terminate =>
      rw [hr] at hn
      cases hn
      cases hs
      exact hc.live (by rw [hr]; rfl)
    | _ =>
      rw [hr] at hn
      cases hn
      try cases hs

theorem act {p : Party} (hc : Course th xs) (h : th.act? o id t p = some (t', th')) :
    Course th' (xs ++ ((th.stores id p).map (p, ·)).toList) := by
  obtain ⟨a, x, ha, hx⟩ := Thread.act_action h
  have hw := effect_stores hx
  have hs : th.stores id p = a.stores th.shared.object := by
    simp only [Thread.stores, ha]
    rfl
  rw [← hs] at hw
  obtain ⟨a, r, x, s', rfl, -, -, rfl⟩ | ⟨a, r, x, s', rfl, hn, he, rfl⟩ |
    ⟨w, s', rfl, -, rfl⟩ | ⟨k, c, c', s', rfl, -, -, rfl⟩ := Thread.act_cases h
  · rw [Thread.creator_stores] at hw ⊢
    simpa using hc.quiet hw rfl
  · have hr : th.stores id .routine = a.stores th.shared.object := by
      simp only [Thread.stores, Thread.action?, hn]
      rfl
    rw [hr]
    exact hc.routine_act hn he
  · rw [Thread.owner_stores] at hw ⊢
    simpa using hc.quiet hw rfl
  · cases hd : th.stores id (.control k) with
    | none =>
      rw [hd] at hw
      simpa using hc.quiet hw rfl
    | some d =>
      obtain ⟨s, hs, hn, ht, hf⟩ := Thread.control_stores hd
      have hl : s = xs.last := ThreadState.word_injective (hs.symm.trans hc.word)
      rw [hd] at hw
      subst hl
      exact hc.exchange (by simp) ht hn hf hw rfl

theorem begin {c : HandleCall} (hc : Course th xs) (h : th.begin? c = some th') :
    Course th' xs := by
  obtain ⟨-, -, ⟨k, -, rfl⟩ | ⟨-, w, -, rfl⟩⟩ := Thread.begin_cases h
  · exact hc.quiet rfl rfl
  · exact hc.quiet rfl rfl

theorem finish {p : Party} (hc : Course th xs) (h : th.finish? p = some th') :
    Course th' xs := by
  obtain ⟨w, -, rfl⟩ | ⟨k, c, -, -, rfl⟩ := Thread.finish_cases h
  · exact hc.quiet rfl rfl
  · exact hc.quiet rfl rfl

theorem terminated_once (hc : Course th xs) :
    xs.filter (·.2 = .terminated) = if th.routine.ended then [(.routine, .terminated)] else [] := by
  have hx : xs.filter (·.2 = .terminated) =
      (xs.filter (·.1 = .routine)).filter (·.2 = .terminated) := by
    rw [List.filter_filter]
    refine List.filter_congr fun x hx => ?_
    by_cases ht : x.2 = .terminated
    · simp [ht, hc.final x hx ht]
    · simp [ht]
  have hr : xs.filter (·.1 = .routine) = th.routine.published.map (Party.routine, ·) := by
    rw [← hc.routine, List.map_map]
    refine ((List.map_congr_left fun x hx => ?_).trans (List.map_id _)).symm
    have hp := of_decide_eq_true (List.mem_filter.mp hx).2
    exact Prod.ext hp.symm rfl
  rw [hx, hr]
  cases th.routine <;> rfl

theorem ends {x : Party × ThreadState} (hc : Course th' (xs ++ [x])) : xs.last ≠ .terminated := by
  have hl : (ThreadState.created :: xs.map Prod.snd).getLast? = some xs.last := List.getLast?_cons
  have hp := hc.path
  rw [List.map_append, ← List.cons_append, List.isChain_append] at hp
  exact (hp.2.2 _ hl _ rfl).not_terminated

end Course

namespace World

variable {w u : World V} {id : ObjectId} {xs : Stores}

structure Charted (id : ObjectId) (s : World V × Stores) : Prop where
  absent : s.1.threads id = none → s.2 = []
  present : ∀ th, s.1.threads id = some th → Course th s.2

theorem Charted.of_present {th : Thread V} (hu : u.threads id = some th) (hc : Course th xs) :
    Charted id (u, xs) where
  absent := fun h => nomatch hu.symm.trans h
  present := fun _ h => Option.some.inj (hu.symm.trans h) ▸ hc

theorem noteStores_other {c : Choice V} (h : ∀ p o, c ≠ .act id p o) :
    noteStores id w c xs = xs := by
  cases c with
  | act q p o =>
    have hq : q ≠ id := fun he => h p o (by rw [he])
    simp [noteStores, hq]
  | _ => rfl

theorem noteStores_act {th : Thread V} {p : Party} {o : Oracle V} (h : w.threads id = some th) :
    noteStores id w (.act id p o) xs = xs ++ ((th.stores id p).map (p, ·)).toList := by
  simp [noteStores, h]

theorem charted_initial (capacity : Nat) : Charted id ((initial capacity : World V), []) where
  absent := fun _ => rfl
  present := fun _ h => by cases h

theorem charted_step {c : Choice V} {s t : World V × Stores} (hs : Charted id s)
    (h : noted step? (noteStores id) c s = some t) : Charted id t := by
  obtain ⟨w, xs⟩ := s
  obtain ⟨u, ys⟩ := t
  obtain ⟨hst, hn : ys = noteStores id w c xs⟩ := noted_step h
  subst hn
  obtain ⟨he, hc⟩ | ⟨r, ht, hu, rfl⟩ | ⟨th, th', k, ht, hu, rfl, hb⟩ |
    ⟨th, th', p, o, t, ht, hu, rfl, ha⟩ | ⟨th, th', p, ht, hu, rfl, hf⟩ := step_thread hst id
  · rw [noteStores_other hc]
    exact ⟨fun hz => hs.absent (he ▸ hz), fun th ht => hs.present th (he ▸ ht)⟩
  · have hx : xs = [] := hs.absent ht
    subst hx
    exact .of_present hu (.new r)
  · exact .of_present hu ((hs.present th ht).begin hb)
  · rw [noteStores_act ht]
    exact .of_present hu ((hs.present th ht).act ha)
  · exact .of_present hu ((hs.present th ht).finish hf)

def Final (id : ObjectId) (s : World V × Stores) (_ : Choice V) (t : World V × Stores) : Prop :=
  ∀ th, s.1.threads id = some th → th.shared.object.state = .terminated →
    ∃ th', t.1.threads id = some th' ∧ th'.shared.object.stateWord = th.shared.object.stateWord

theorem final_step {c : Choice V} {s t : World V × Stores} (hs : Charted id s)
    (h : noted step? (noteStores id) c s = some t) : Final id s c t := by
  have hk := charted_step hs h
  obtain ⟨w, xs⟩ := s
  obtain ⟨u, ys⟩ := t
  obtain ⟨hst, hn : ys = noteStores id w c xs⟩ := noted_step h
  intro th ht he
  obtain ⟨hq, -⟩ | ⟨r, hz, -⟩ | ⟨tq, th', k, hz, hu, -, hb⟩ |
    ⟨tq, th', p, o, t, hz, hu, rfl, ha⟩ | ⟨tq, th', p, hz, hu, -, hf⟩ := step_thread hst id
  · exact ⟨th, hq.trans ht, rfl⟩
  · cases hz.symm.trans ht
  · cases hz.symm.trans ht
    obtain ⟨-, -, ⟨k, -, rfl⟩ | ⟨-, v, -, rfl⟩⟩ := Thread.begin_cases hb
    · exact ⟨_, hu, rfl⟩
    · exact ⟨_, hu, rfl⟩
  · cases hz.symm.trans ht
    have hc := hs.present _ hz
    have hc' := hk.present _ hu
    rw [hn, noteStores_act hz] at hc'
    cases hd : th.stores id p with
    | none =>
      rw [hd, Option.map_none, Option.toList_none, List.append_nil] at hc'
      exact ⟨th', hu, hc'.word.trans hc.word.symm⟩
    | some d =>
      rw [hd, Option.map_some, Option.toList_some] at hc'
      exact absurd (hc.state_eq ▸ he) hc'.ends
  · cases hz.symm.trans ht
    obtain ⟨v, -, rfl⟩ | ⟨k, c, -, -, rfl⟩ := Thread.finish_cases hf
    · exact ⟨_, hu, rfl⟩
    · exact ⟨_, hu, rfl⟩

/-- In every run the values stored in a thread's state, by whichever parties in
whatever order, are a path of the life cycle from Created on, and the word of
the state is that of the last one. The routine stores Running, which is the
first store of all, and later Terminated; Terminated is stored once if the
routine has ended and not at all before, and no step changes the state after it. -/
theorem states_follow_life_cycle {capacity : Nat} {cs : List (Choice V)} {th : Thread V}
    (h : run? (noted step? (noteStores id)) cs (initial capacity, []) = some (w, xs))
    (ht : w.threads id = some th) :
    (ThreadState.created :: xs.map Prod.snd).IsChain Follows ∧
    th.shared.object.stateWord = xs.last.word ∧
    (xs.filter (·.1 = .routine)).map Prod.snd = th.routine.published ∧
    xs.head? = th.routine.published.head?.map (Party.routine, ·) ∧
    xs.filter (·.2 = .terminated) =
      (if th.routine.ended then [(.routine, .terminated)] else []) ∧
    Throughout (noted step? (noteStores id)) (Final id) cs (initial capacity, []) := by
  have hk : Charted id (w, xs) :=
    run_keeps (fun _ _ _ hs hst => charted_step hs hst) h (charted_initial capacity)
  have hc := hk.present th ht
  refine ⟨hc.path, hc.word, hc.routine, hc.first, hc.terminated_once, ?_⟩
  exact throughout_of_keeps (I := Charted id) (P := fun _ _ _ => True)
    (fun _ _ _ hs hst _ => ⟨charted_step hs hst, final_step hs hst⟩) (throughout_trivial cs _)
    (charted_initial capacity)

def unwilling : Oracle Unit where
  backend
    | .resume => .error .unknown
    | c => Oracle.agreeable.backend c
  body := some ()

/-- A resumption that the backend refuses is taken back after the thread's
function has returned, and the thread ends while it is suspended. -/
def endedSuspended : List (Choice Unit) :=
  [.create ⟨1, .default, 0⟩,
    .act 1 .creator .agreeable, .act 1 .creator .agreeable, .act 1 .creator .agreeable,
    .act 1 .creator .agreeable, .act 1 .creator .agreeable,
    .act 1 .routine .agreeable, .act 1 .routine .agreeable,
    .begin 1 (.hold .suspend true true), .act 1 (.control 0) .agreeable,
    .act 1 (.control 0) .agreeable, .act 1 (.control 0) .agreeable, .finish 1 (.control 0),
    .begin 1 (.hold .resume true true), .act 1 (.control 0) .agreeable,
    .act 1 (.control 0) .agreeable, .act 1 (.control 0) unwilling,
    .act 1 .routine .agreeable, .act 1 .routine .agreeable, .act 1 (.control 0) .agreeable,
    .act 1 .routine .agreeable]

theorem ended_suspended_follows :
    ∃ (w : World Unit) (th : Thread Unit) (xs : Stores),
      run? (noted step? (noteStores 1)) endedSuspended (initial 1, []) = some (w, xs) ∧
      w.threads 1 = some th ∧
      xs.map Prod.snd = [.running, .suspended, .running, .suspended, .terminated] ∧
      (ThreadState.created :: xs.map Prod.snd).IsChain Follows := by
  obtain ⟨w, xs, h⟩ : ∃ w xs, run? (noted step? (noteStores 1)) endedSuspended
    ((initial 1 : World Unit), []) = some (w, xs) := ⟨_, _, rfl⟩
  obtain ⟨th, ht, hx⟩ : ∃ th, w.threads 1 = some th ∧
      xs.map Prod.snd = [.running, .suspended, .running, .suspended, .terminated] := by
    cases h
    exact ⟨_, rfl, rfl⟩
  exact ⟨w, th, xs, h, ht, hx, (states_follow_life_cycle h ht).1⟩

end World

end Manager

end SyncCore

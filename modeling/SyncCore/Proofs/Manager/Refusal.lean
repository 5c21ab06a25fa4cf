import SyncCore.Proofs.Manager.Disposal
import SyncCore.Proofs.Manager.Losses
import SyncCore.Proofs.Manager.Occupancy

/-!
# Refused destroys

A destroy is refused by its check of the owner, by its check of the state, by
the table's mutex or by the table. In each case it has changed nothing, with
one exception: where the mutex reports a failure when it is given back, the
slot of the thread is gone. A handle to which this has not happened can be
destroyed as soon as its thread is Terminated and the mutex works, and one to
which it has happened never.
-/

set_option autoImplicit false

namespace SyncCore.Manager

variable {V : Type}

def Owner.isDestroying : Owner V → Bool
  | .destroying _ _ => true
  | _ => false

def Owner.verdict? : Owner V → Option (Outcome Unit)
  | .destroying _ (.done r) => some r
  | _ => none

namespace World

/-! ## Steps of a destroy -/

def destroys (id : ObjectId) (w : World V) : Move V → Bool
  | .begin q (.destroy _) => q = id
  | .act q .owner _ => q = id && (w.threads id).any fun th => th.owner.isDestroying
  | .finish q .owner => q = id && (w.threads id).any fun th => th.owner.isDestroying
  | _ => false

/-- A step of a destroy that has been refused, or can still be, changes nothing
that others see unless it loses the slot. -/
def Harmless (id : ObjectId) (s : World V × List Dealing) (c : Move V)
    (u : World V × List Dealing) : Prop :=
  ∀ th th', destroys id s.1 c = true → s.1.threads id = some th → u.1.threads id = some th' →
    ¬th'.owner.GivesUp id →
    th'.shared = th.shared ∧ u.2 = s.2 ∧ (u.1.table = s.1.table ↔ loses id s.1 c = false)

theorem harmless_act {e : Setting V} {id : ObjectId} {t t' : Table} {th th' : Thread V}
    (hs : t.Single) (hd : th.owner.isDestroying = true)
    (h : th.perform? (e.effect id) id t .owner = some (t', th')) (hg : ¬th'.owner.GivesUp id) :
    th'.shared = th.shared ∧ th.deal? e.toOracle id .owner = none ∧
      (t' = t ↔ th.loses e id t .owner = false) := by
  obtain ⟨a, x, s', -, he, hp⟩ := Thread.perform_cases h
  obtain ⟨r, hc, -⟩ | ⟨r, hc, -⟩ | ⟨r, -, hn, rfl⟩ | ⟨k, c, hc, -⟩ := hp
  · cases hc
  · cases hc
  · cases ho : th.owner with
    | destroying joined pc =>
      rw [ho] at hn
      obtain ⟨r, hp, rfl⟩ := Next.onto_act hn
      -- Only the check and the attempt on the table can be followed by a refusal.
      have hk : (Owner.destroying joined (r x) : Owner V).tenure = .kept := by
        by_contra hk
        exact hg (Owner.gives_up hk)
      simp only [Thread.deal?, Thread.loses, ho]
      cases pc with
      | check =>
        cases hp
        cases he
        exact ⟨rfl, rfl, iff_of_true rfl rfl⟩
      | unregister =>
        cases hp
        obtain ⟨rfl, ht⟩ := Setting.effect_unregister he
        refine ⟨rfl, rfl, ?_⟩
        obtain ⟨rfl, -⟩ | ⟨k, -, rfl, hn⟩ | ⟨k, -, hl, hm, hn⟩ := unregister_told hs ht
        · cases joined <;> cases hk
        · exact iff_of_true rfl (decide_eq_false fun hl => hn ⟨hl.1.1, hl.2⟩)
        · rw [Owner.unregistering, decide_eq_true ⟨hl, hm⟩]
          exact iff_of_false (fun ht => hn (ht ▸ hm)) (by decide)
      | look =>
        cases hp
        cases x <;> cases hk
      | detach =>
        cases hp
        rcases x with k | u <;> cases hk
      | done v => cases hp
      | _ =>
        cases hp
        cases hk
    | _ =>
      rw [ho] at hd
      cases hd
  · cases hc

theorem target_of_destroys {id : ObjectId} {w : World V} {c : Move V}
    (h : destroys id w c = true) : c.target = id := by
  cases c with
  | create r => cases h
  | begin q k =>
    cases k with
    | destroy own => exact of_decide_eq_true h
    | _ => cases h
  | act q p e =>
    cases p with
    | owner => exact of_decide_eq_true (Bool.and_eq_true_iff.mp h).1
    | _ => cases h
  | finish q p =>
    cases p with
    | owner => exact of_decide_eq_true (Bool.and_eq_true_iff.mp h).1
    | _ => cases h

theorem harmless_step {id : ObjectId} {c : Move V} {s u : World V × List Dealing}
    (hs : s.1.table.Single) (h : noted move? (noteDealings id) c s = some u) :
    Harmless id s c u := by
  obtain ⟨w, log⟩ := s
  obtain ⟨u, log'⟩ := u
  obtain ⟨hm, rfl⟩ := noted_step h
  obtain ⟨th', t, hv, rfl⟩ := move_cases hm
  intro th v hd ht hu hg
  obtain rfl := target_of_destroys hd
  rw [threads_put] at hu
  cases hu
  rw [show w.threads c.target = some th from ht] at hv
  cases hv with
  | begin hb =>
    refine ⟨?_, rfl, iff_of_true rfl rfl⟩
    obtain ⟨-, -, ⟨k, -, rfl⟩ | ⟨-, w, -, rfl⟩⟩ := Thread.begin_cases hb <;> rfl
  | finish hf =>
    refine ⟨?_, rfl, iff_of_true rfl rfl⟩
    obtain ⟨w, -, rfl⟩ | ⟨k, c, -, -, rfl⟩ := Thread.finish_cases hf <;> rfl
  | @act id p e _ _ _ ha =>
    have hq : w.threads id = some th := ht
    cases p with
    | owner =>
      simp only [destroys, Move.target, hq, decide_true, Bool.true_and, Option.any_some] at hd
      obtain ⟨hx, hl, hi⟩ := harmless_act hs hd ha hg
      refine ⟨hx, ?_, ?_⟩
      · simp only [Move.target, noteDealings_act hq, hl, Option.toList_none, List.append_nil]
      · simp only [loses, Move.target, hq, decide_true, Bool.true_and, Option.any_some]
        exact hi
    | _ => cases hd

/-! ## Destroys that are not interrupted -/

def finishDestroy? (id : ObjectId) (e : Setting V) :
    Nat → World V × List Dealing → Option (Outcome Unit × World V × List Dealing)
  | 0, _ => none
  | n + 1, s =>
    match (s.1.threads id).bind fun th => th.owner.verdict? with
    | some r => (noted move? (noteDealings id) (.finish id .owner) s).map fun u => (r, u)
    | none => (noted move? (noteDealings id) (.act id .owner e) s).bind (finishDestroy? id e n)

/-- A whole destroy that nothing interrupts, and its answer. It makes at most six actions. -/
def destroyAlone? (id : ObjectId) (own : Bool) (e : Setting V) (s : World V × List Dealing) :
    Option (Outcome Unit × World V × List Dealing) :=
  (noted move? (noteDealings id) (.begin id (.destroy own)) s).bind (finishDestroy? id e 7)

def paused (w : World V) (id : ObjectId) (th : Thread V) (pc : Destroy.Pc) (t : Table)
    (log : List Dealing) : World V × List Dealing :=
  (w.put id { th with owner := .destroying th.shared.joined pc } t, log)

section Alone

variable {w : World V} {id : ObjectId} {th : Thread V} {e : Setting V} {t t' : Table}
  {log : List Dealing} {pc q : Destroy.Pc}

theorem begin_paused (ht : w.threads id = some th) (ha : th.available = true)
    (hc : th.controls = []) (own : Bool) (log : List Dealing) :
    noted move? (noteDealings id) (.begin id (.destroy own)) (w, log) =
      some (paused w id th (Destroy.start own) w.table log) := by
  have hb : th.begin? (.destroy own) =
      some { th with owner := .destroying th.shared.joined (Destroy.start own) } := by
    have hc : th.controls.isEmpty = true := by rw [hc]; rfl
    rw [Thread.begin?, if_pos ha]
    exact if_pos hc
  simp only [noted, move?, ht, Option.bind_some, hb, Option.map_some]
  rfl

theorem finish_act {a : Action V} {resume : a.Answer → Destroy.Pc} {x : a.Answer}
    (hn : Destroy.next id th.shared.joined pc = .act a resume)
    (he : e.effect id a (t, th.shared) = some (x, t', th.shared)) (hr : resume x = q) (n : Nat) :
    finishDestroy? id e (n + 1) (paused w id th pc t log) =
      finishDestroy? id e n (paused w id th q t' (log ++
        ((Owner.destroying th.shared.joined pc).deal? e.toOracle id th.shared).toList)) := by
  subst hr
  have hp : Thread.perform? (e.effect id) id t
      { th with owner := .destroying th.shared.joined pc } .owner =
      some (t', { th with owner := .destroying th.shared.joined (resume x) }) := by
    simp only [Thread.perform?, Thread.next, Owner.next, hn, Next.onto, he]
    rfl
  have hv : (Owner.destroying th.shared.joined pc : Owner V).verdict? = none := by
    cases pc with
    | done r => cases hn
    | _ => rfl
  have hm : noted move? (noteDealings id) (.act id .owner e) (paused w id th pc t log) =
      some (paused w id th (resume x) t' (log ++
        ((Owner.destroying th.shared.joined pc).deal? e.toOracle id th.shared).toList)) := by
    simp only [noted, move?, paused, threads_put, Option.bind_some]
    rw [show (w.put id { th with owner := .destroying th.shared.joined pc } t).table = t from rfl,
      hp, Option.map_some, Option.map_some, put_put, noteDealings_act (threads_put ..)]
    rfl
  rw [finishDestroy?, hm]
  simp only [paused, threads_put, Option.bind_some, hv]

theorem finish_ok (n : Nat) :
    finishDestroy? id e (n + 1) (paused w id th (.done (.ok ())) t log) =
      some (.ok (), w.put id { th with owner := .destroyed } t, log) := by
  simp only [finishDestroy?, noted, move?, paused, threads_put, Option.bind_some, Owner.verdict?,
    Thread.finish?, Owner.finish?, Option.map_some, put_put]
  rfl

theorem finish_error (ho : th.owner = .rest) (k : ErrorKind) (n : Nat) :
    finishDestroy? id e (n + 1) (paused w id th (.done (.error k)) t log) =
      some (.error k, w.put id th t, log) := by
  have hr : ({ th with owner := .rest } : Thread V) = th := by rw [← ho]
  simp only [finishDestroy?, noted, move?, paused, threads_put, Option.bind_some, Owner.verdict?,
    Thread.finish?, Owner.finish?, Option.map_some, put_put, hr]
  rfl

/-- The given number of turns is enough for a destroy that has freed the slot to
succeed, from the given point on. -/
def Succeeds (id : ObjectId) (e : Setting V) (w : World V) (th : Thread V) (t : Table) (n : Nat)
    (pc : Destroy.Pc) : Prop :=
  ∀ log, ∃ log', finishDestroy? id e n (paused w id th pc t log) =
    some (.ok (), w.put id { th with owner := .destroyed } t, log')

theorem succeeds_announce (n : Nat) : Succeeds id e w th t (n + 2) .announce := fun log => by
  rw [finish_act rfl rfl rfl, finish_ok]
  exact ⟨_, rfl⟩

theorem succeeds_warn (k : ErrorKind) (n : Nat) : Succeeds id e w th t (n + 3) (.warn k) :=
  fun log => by
    rw [finish_act rfl rfl rfl]
    exact succeeds_announce n _

theorem succeeds_detach (n : Nat) : Succeeds id e w th t (n + 4) .detach := fun log => by
  cases hd : (e.backend .detach : Outcome Unit) with
  | ok u =>
    rw [finish_act (q := .announce) rfl rfl (by rw [hd])]
    exact succeeds_announce (n + 1) _
  | error k =>
    rw [finish_act (q := .warn k) rfl rfl (by rw [hd])]
    exact succeeds_warn k n _

theorem succeeds_look (n : Nat) : Succeeds id e w th t (n + 5) .look := fun log => by
  cases hb : th.shared.object.binding.isSome with
  | true =>
    rw [finish_act (q := .detach) rfl rfl (if_pos hb)]
    exact succeeds_detach n _
  | false =>
    rw [finish_act (q := .announce) rfl rfl (if_neg (Bool.eq_false_iff.mp hb))]
    exact succeeds_announce (n + 2) _

theorem succeeds_released (joined : Bool) (n : Nat) :
    Succeeds id e w th t (n + 5) (if joined then .announce else .look) := by
  cases joined with
  | true => exact succeeds_announce (n + 3)
  | false => exact succeeds_look n

/-- What a destroy that nothing interrupts comes to: it succeeds, it is refused
and changes nothing, or it is refused and the slot is lost. -/
inductive Verdict (w : World V) (id : ObjectId) (th : Thread V) (own : Bool) (e : Setting V)
    (log : List Dealing) : Outcome Unit × World V × List Dealing → Prop where
  | granted {t : Table} {log' : List Dealing} :
    own = true → th.shared.object.state = .terminated → e.latch.Works → some id ∈ w.table →
    Verdict w id th own e log (.ok (), w.put id { th with owner := .destroyed } t, log')
  | refused (k : ErrorKind) :
    ¬(own = true ∧ th.shared.object.state = .terminated ∧ e.latch.lock = .ok () ∧
      some id ∈ w.table) →
    Verdict w id th own e log (.error k, w.put id th w.table, log)
  | lost (k : ErrorKind) {t : Table} :
    own = true → th.shared.object.state = .terminated → e.latch.Leaks → some id ∈ w.table →
    some id ∉ t → t.Single →
    Verdict w id th own e log (.error k, w.put id th t, log)

theorem unregister_verdict (hs : w.table.Single) (ho : th.owner = .rest)
    (hx : th.shared.object.state = .terminated) (n : Nat) (e : Setting V) (log : List Dealing) :
    ∃ r, finishDestroy? id e (n + 6) (paused w id th .unregister w.table log) = some r ∧
      Verdict w id th true e log r := by
  obtain ⟨x, t, hu⟩ : ∃ x t, settled e.latch w.table (w.table.unregister id) = (x, t) :=
    ⟨_, _, rfl⟩
  have he : e.effect id (.table .unregister) (w.table, th.shared) = some (x, t, th.shared) := by
    simp only [Setting.effect, attempt_unregister, hu, Option.map_some]
    rfl
  have hq : ((Owner.destroying th.shared.joined .unregister).deal? e.toOracle id
      th.shared).toList = [] := rfl
  obtain ⟨rfl, hl, hm, -⟩ | ⟨k, rfl, rfl, hn⟩ | ⟨k, rfl, hl, hm, hn⟩ := unregister_told hs hu
  · rw [finish_act rfl he rfl]
    obtain ⟨log', h⟩ := succeeds_released th.shared.joined n _
    exact ⟨_, h, .granted rfl hx hl hm⟩
  · rw [finish_act rfl he rfl, hq, List.append_nil]
    exact ⟨_, finish_error ho k _, .refused k fun h => hn h.2.2⟩
  · rw [finish_act rfl he rfl, hq, List.append_nil]
    refine ⟨_, finish_error ho k _, .lost k rfl hx hl hm hn ?_⟩
    exact (Setting.effect_framed hs he).single

theorem destroy_verdict (hs : w.table.Single) (ht : w.threads id = some th)
    (ha : th.available = true) (hc : th.controls = []) (own : Bool) (e : Setting V)
    (log : List Dealing) :
    ∃ r, destroyAlone? id own e (w, log) = some r ∧ Verdict w id th own e log r := by
  have ho := (Thread.of_available ha).2
  have hq : ((Owner.destroying th.shared.joined .check).deal? e.toOracle id
      th.shared).toList = [] := rfl
  rw [destroyAlone?, begin_paused ht ha hc, Option.bind_some]
  cases own with
  | false => exact ⟨_, finish_error ho .invalidParameter 6, .refused _ fun h => nomatch h.1⟩
  | true =>
    rw [Destroy.start, if_pos rfl]
    by_cases hx : th.shared.object.state = .terminated
    · rw [finish_act rfl rfl (if_pos hx), hq, List.append_nil]
      exact unregister_verdict hs ho hx 0 e log
    · rw [finish_act rfl rfl (if_neg hx), hq, List.append_nil]
      exact ⟨_, finish_error ho .threadStillActive 5, .refused _ fun h => hx h.2.1⟩

end Alone

/-! ## Over whole runs -/

/-- What holds of the destroys of a thread whose handle no call has, when its
slot has been lost a number of times: they return, a refusal leaves all as it
was, and a success can be had at once as well as after a refusal. -/
structure Retriable (id : ObjectId) (th : Thread V) (lost : Nat) (s : World V × List Dealing) :
    Prop where
  returns : ∀ own e, (destroyAlone? id own e s).isSome = true
  unchanged : ∀ own e k u, destroyAlone? id own e s = some (.error k, u) →
    u.1.threads = s.1.threads ∧ u.2 = s.2 ∧
      (u.1.table = s.1.table ↔ ¬(own = true ∧ th.shared.object.state = .terminated ∧
        e.latch.Leaks ∧ lost = 0))
  granted : ∀ e, th.shared.object.state = .terminated → e.latch.Works →
    ((∃ u, destroyAlone? id true e s = some (.ok (), u)) ↔ lost = 0)
  again : ∀ own e k u, destroyAlone? id own e s = some (.error k, u) →
    ∀ e', th.shared.object.state = .terminated → e'.latch.Works →
      ((∃ v, destroyAlone? id true e' u = some (.ok (), v)) ↔ lost = 0 ∧ u.1.table = s.1.table)

section Runs

variable {w : World V} {id : ObjectId} {th : Thread V} {lost capacity : Nat} {log : List Dealing}

theorem granted_iff (hs : w.table.Single) (ht : w.threads id = some th) (ha : th.available = true)
    (hc : th.controls = []) (hx : th.shared.object.state = .terminated) {e : Setting V}
    (he : e.latch.Works) :
    (∃ u, destroyAlone? id true e (w, log) = some (.ok (), u)) ↔ some id ∈ w.table := by
  obtain ⟨r, hr, hv⟩ := destroy_verdict hs ht ha hc true e log
  rw [hr]
  cases hv with
  | granted _ _ _ hm => exact iff_of_true ⟨_, rfl⟩ hm
  | refused k hn => exact iff_of_false nofun fun hm => hn ⟨rfl, hx, he.1, hm⟩
  | lost k _ _ hl => exact absurd he.2 hl.2

/-- A handle that no call has goes with a slot unless the slot has been lost. -/
theorem Traced.mem_iff (hw : Traced id w lost) (ht : w.threads id = some th)
    (ha : th.available = true) : some id ∈ w.table ↔ lost = 0 := by
  obtain ⟨hc, ho⟩ := Thread.of_available ha
  exact ((hw.present th ht).kept (by rw [hc]; rfl) (by rw [ho]; rfl)).2

theorem Traced.retriable (hw : Traced id w lost) (ht : w.threads id = some th)
    (ha : th.available = true) (hc : th.controls = []) : Retriable id th lost (w, log) where
  returns := fun own e => by
    obtain ⟨r, hr, -⟩ := destroy_verdict hw.single ht ha hc own e log
    rw [hr]
    rfl
  unchanged := fun own e k u h => by
    have hm := hw.mem_iff ht ha
    obtain ⟨r, hr, hv⟩ := destroy_verdict hw.single ht ha hc own e log
    cases hr.symm.trans h
    cases hv with
    | refused k hn =>
      refine ⟨put_back ht w.table, rfl, iff_of_true rfl fun hl => ?_⟩
      exact hn ⟨hl.1, hl.2.1, hl.2.2.1.1, hm.mpr hl.2.2.2⟩
    | @lost k t ho hx hl hi hn hs =>
      refine ⟨put_back ht t, rfl, iff_of_false (fun hk : t = w.table => ?_) fun hk => ?_⟩
      · exact hn (hk ▸ hi)
      · exact hk ⟨ho, hx, hl, hm.mp hi⟩
  granted := fun e hx he => by
    rw [granted_iff hw.single ht ha hc hx he, hw.mem_iff ht ha]
  again := fun own e k u h f hx he => by
    have hm := hw.mem_iff ht ha
    obtain ⟨r, hr, hv⟩ := destroy_verdict hw.single ht ha hc own e log
    cases hr.symm.trans h
    cases hv with
    | refused k hn =>
      rw [granted_iff (w := w.put id th w.table) hw.single (threads_put ..) ha hc hx he]
      exact ⟨fun hi => ⟨hm.mp hi, rfl⟩, fun hi => hm.mpr hi.1⟩
    | @lost k t _ _ _ hi hn hs =>
      rw [granted_iff (w := w.put id th t) hs (threads_put ..) ha hc hx he]
      exact iff_of_false hn fun ⟨_, (hk : t = w.table)⟩ => hn (hk ▸ hi)

theorem single_step {c : Move V} {s u : World V × List Dealing} (hs : s.1.table.Single)
    (h : noted move? (noteDealings id) c s = some u) : u.1.table.Single := by
  obtain ⟨th', t, hv, hu⟩ := move_cases (noted_step h).1
  rw [hu]
  exact (hv.framed hs).single

/-- A destroy that is refused changes nothing, and can be repeated with success
once the thread is Terminated and the mutex works, exactly as long as no
destroy of the object has lost its slot. -/
theorem refused_destroys_change_nothing {cs : List (Move V)}
    (h : run? (noted move? (noteDealings id)) cs (initial capacity, []) = some (w, log)) :
    Throughout (noted move? (noteDealings id)) (Harmless id) cs (initial capacity, []) ∧
    ∀ th, w.threads id = some th → th.available = true → th.controls = [] →
      Retriable id th (tally (noted move? (noteDealings id)) (fun s => loses id s.1) cs
        (initial capacity, [])) (w, log) := by
  constructor
  · exact throughout_of_keeps (I := fun s => s.1.table.Single)
      (fun s c u hs hst _ => ⟨single_step hs hst, harmless_step hs hst⟩)
      (throughout_trivial cs _) (Table.single_free capacity)
  · intro th ht ha hc
    have hw := run_keeps_tally (I := fun s => Traced id s.1)
      (fun s c t n hs hst => traced_step hs (noted_step hst).1) h (traced_initial id capacity)
    rw [Nat.zero_add] at hw
    exact hw.retriable ht ha hc

end Runs

def jammed : Setting Unit := { agreeing with latch := ⟨.error .timeout, .ok ()⟩ }

/-- Destroys that are refused for the owner, for the state and by the mutex. -/
def refusedThrice : List (Move Unit) :=
  spawned ++ .begin 1 (.destroy false) :: .finish 1 .owner ::
    .begin 1 (.destroy true) :: acts 1 .owner agreeing ++ .finish 1 .owner ::
    acts 6 .routine agreeing ++ .begin 1 (.destroy true) :: acts 2 .owner jammed ++
    [.finish 1 .owner]

theorem refused_thrice_retriable :
    ∃ w log th, run? (noted move? (noteDealings 1)) refusedThrice ((initial 1 : World Unit), []) =
        some (w, log) ∧
      w.threads 1 = some th ∧ th.available = true ∧ th.controls = [] ∧
      Throughout (noted move? (noteDealings 1)) (Harmless 1) refusedThrice
        ((initial 1 : World Unit), []) ∧
      Retriable 1 th 0 (w, log) := by
  obtain ⟨w, log, th, h, ht, ha, hc⟩ : ∃ w log th, run? (noted move? (noteDealings 1))
      refusedThrice ((initial 1 : World Unit), []) = some (w, log) ∧ w.threads 1 = some th ∧
      th.available = true ∧ th.controls = [] := ⟨_, _, _, rfl, rfl, rfl, rfl⟩
  obtain ⟨hh, hr⟩ := refused_destroys_change_nothing h
  exact ⟨w, log, th, h, ht, ha, hc, hh, hr th ht ha hc⟩

/-- The mutex reports a failure after the slot has been freed: the destroy is
refused, the slot is gone, and destroying the thread again is refused as well. -/
theorem refused_destroy_loses_slot :
    ∃ s u v, run? (noted move? (noteDealings 1)) spawnedAndEnded ((initial 1 : World Unit), []) =
        some s ∧
      destroyAlone? 1 true leaking s = some (.error .timeout, u) ∧
      s.1.table = [some 1] ∧ u.1.table = [none] ∧
      destroyAlone? 1 true agreeing u = some (.error .notFound, v) :=
  ⟨_, _, _, rfl, rfl, rfl, rfl, rfl⟩

end World

end SyncCore.Manager

import SyncCore.Proofs.Manager.Chronicle
import SyncCore.Proofs.Manager.Disposal

/-!
# Creations that fail

Whatever fails in a creation, the thread's function is run once if the backend
has accepted the thread, and never otherwise. A creation that fails leaves no
slot behind: where the mutex has reported a failure although the object had
been registered, the routine frees the slot at its end.
-/

set_option autoImplicit false

namespace SyncCore.Manager

variable {V : Type}

/-! ## What the invariant says of failures -/

theorem Create.Pc.Tells.unaccepted {pc : Create.Pc} {b : ThreadObject V} {n : Chronicle}
    (h : pc.Tells b.gateOpen n) (hk : pc.Keeps b) (hn : n.spawns ≠ [.ok ()]) :
    b.gateOpen = false ∧ pc.stage ≠ .accepted ∧ n.registrations = [] ∧ n.detaches = 0 := by
  cases pc with
  | spawn => exact ⟨hk.1, nofun, h.2⟩
  | spawnWarn k => exact ⟨hk.1, nofun, h.2⟩
  | done r =>
    rcases r with k | u
    · obtain ⟨c, -, hr, hg⟩ | ⟨hr, -⟩ := h
      · exact ⟨hg, nofun, hr.2⟩
      · exact absurd hr.1 hn
    · exact absurd h.1 hn
  | _ => exact absurd h.1 hn

theorem Create.Pc.Tells.refused {pc : Create.Pc} {gate : Bool} {n : Chronicle} {k : ErrorKind}
    (h : pc.Tells gate n) (hn : .error k ∈ n.spawns) :
    n.spawns = [.error k] ∧ ∀ r, pc = .done r → r = .error (spawnError k) := by
  cases pc with
  | spawn =>
    rw [h.1] at hn
    cases hn
  | spawnWarn c =>
    rw [h.1] at hn
    cases List.mem_singleton.mp hn
    exact ⟨h.1, nofun⟩
  | done r =>
    rcases r with d | u
    · obtain ⟨c, rfl, hr, -⟩ | ⟨hr, -⟩ := h
      · rw [hr.1] at hn
        cases List.mem_singleton.mp hn
        refine ⟨hr.1, fun r h => ?_⟩
        cases h
        rfl
      · rw [hr.1] at hn
        cases List.mem_singleton.mp hn
    · rw [h.1] at hn
      cases List.mem_singleton.mp hn
  | _ =>
    rw [h.1] at hn
    cases List.mem_singleton.mp hn

theorem Create.Pc.Tells.turned {pc : Create.Pc} {gate : Bool} {n : Chronicle} {k : ErrorKind}
    (h : pc.Tells gate n) (hn : .error k ∈ n.registrations) :
    n.registrations = [.error k] ∧ pc.stage ≠ .accepted ∧ n.detaches ≤ 1 ∧
      ∀ r, pc = .done r → r = .error k ∧ n.detaches = 1 := by
  have of_reads : ∀ {s : List (Outcome Unit)} {c : ErrorKind} {d : Nat}, n.Reads s [.error c] d →
      n.registrations = [.error k] ∧ c = k := by
    intro s c d hr
    rw [hr.2.1] at hn ⊢
    cases List.mem_singleton.mp hn
    exact ⟨rfl, rfl⟩
  have of_none : n.registrations ≠ [] := fun h => by
    rw [h] at hn
    cases hn
  have of_ok : n.registrations ≠ [.ok ()] := fun h => by
    rw [h] at hn
    cases List.mem_singleton.mp hn
  cases pc with
  | spawn => exact absurd h.2.1 of_none
  | spawnWarn c => exact absurd h.2.1 of_none
  | bind b => exact absurd h.2.1 of_none
  | register => exact absurd h.2.1 of_none
  | openGate => exact absurd h.2 of_ok
  | announce => exact absurd h.2.1 of_ok
  | done r =>
    rcases r with d | u
    · obtain ⟨c, -, hr, -⟩ | ⟨hr, -⟩ := h
      · exact absurd hr.2.1 of_none
      · obtain ⟨hs, rfl⟩ := of_reads hr
        refine ⟨hs, nofun, Nat.le_of_eq hr.2.2, fun r h => ?_⟩
        cases h
        exact ⟨rfl, hr.2.2⟩
    · exact absurd h.2.1 of_ok
  | detachWarn c d => exact ⟨(of_reads h).1, nofun, Nat.le_of_eq h.2.2, nofun⟩
  | releaseGate c => exact ⟨(of_reads h).1, nofun, Nat.le_of_eq h.2.2, nofun⟩
  | _ => exact ⟨(of_reads h).1, nofun, Nat.le_trans (Nat.le_of_eq h.2.2) (Nat.zero_le 1), nofun⟩

theorem Chronicled.unaccepted {slot : Prop} {n : Chronicle} {th : Thread V} (hg : th.Gated)
    (hw : Chronicled slot n th) (hn : n.spawns ≠ [.ok ()]) :
    n.registrations = [] ∧ n.detaches = 0 ∧ n.runs = 0 ∧ n.removals = [] ∧ ¬slot := by
  obtain ⟨hc, hs, hr, hd⟩ := hw.creation.unaccepted hg.creation hn
  obtain ⟨hb, hf⟩ := hg.waiting hc
  have hv := hw.swept hs
  have hu := hw.runs
  rw [hf] at hv
  rw [hb] at hu
  exact ⟨hr, hd, hu, hv, hw.outside hr⟩

/-! ## What comes of failures -/

structure Upheld (slot : Prop) (n : Chronicle) (th : Thread V) : Prop where
  once : n.runs ≤ 1
  accepted : n.runs = 1 → n.spawns = [.ok ()]
  ran : th.routine = .done → n.runs = 1
  refused : ∀ k, .error k ∈ n.spawns →
    n.spawns = [.error k] ∧ n.registrations = [] ∧ n.removals = [] ∧ n.detaches = 0 ∧ n.runs = 0 ∧
      ¬slot ∧ ∀ r, th.creation = .done r →
        r = .error (if k = .outOfMemory then .outOfMemory else .threadCreateFailed)
  turned : ∀ k, .error k ∈ n.registrations →
    n.spawns = [.ok ()] ∧ n.registrations = [.error k] ∧ n.detaches ≤ 1 ∧
      ∀ r, th.creation = .done r → r = .error k ∧ n.detaches = 1
  cleared : ∀ k, .error k ∈ n.registrations → th.routine = .done →
    ∃ l, n.removals = [l] ∧ (l.lock = .ok () → ¬slot)

theorem Chronicled.upheld {slot : Prop} {n : Chronicle} {th : Thread V} (hg : th.Gated)
    (hw : Chronicled slot n th) : Upheld slot n th where
  once := by
    rw [hw.runs]
    exact Bool.toNat_le _
  accepted := fun h => by
    by_contra hn
    cases h.symm.trans (hw.unaccepted hg hn).2.2.1
  ran := fun h => by
    rw [hw.runs, h]
    rfl
  refused := fun k hk => by
    obtain ⟨hs, hr⟩ := hw.creation.refused hk
    obtain ⟨h, hd, hb, hv, hn⟩ := hw.unaccepted hg (by rw [hs]; exact nofun)
    exact ⟨hs, h, hv, hd, hb, hn, hr⟩
  turned := fun k hk => by
    obtain ⟨hr, -, hd, h⟩ := hw.creation.turned hk
    have hs : n.spawns = [.ok ()] := by
      by_contra hn
      rw [(hw.unaccepted hg hn).1] at hk
      cases hk
    exact ⟨hs, hr, hd, h⟩
  cleared := fun k hk hr => by
    have hv := hw.swept (hw.creation.turned hk).2.1
    rwa [hr] at hv

/-! ## The end of a creation and of a routine -/

def Create.Pc.left : Create.Pc → Nat
  | .spawn => 9
  | .bind _ => 8
  | .register => 7
  | .registerWarn _ => 6
  | .disown _ => 5
  | .detachLook _ => 4
  | .detachCall _ => 3
  | .detachWarn _ _ => 2
  | .openGate => 2
  | .spawnWarn _ => 1
  | .releaseGate _ => 1
  | .announce => 1
  | .done _ => 0

def Routine.Pc.left : Routine.Pc V → Nat
  | .wait => 9
  | .gate => 8
  | .begin => 7
  | .body => 6
  | .put _ => 5
  | .terminate => 4
  | .look => 3
  | .unregister => 2
  | .unregisterWarn _ => 1
  | .done => 0

/-- The party that makes a thread, or the one that the thread is. -/
def Party.works : Party → Bool
  | .creator => true
  | .routine => true
  | _ => false

namespace Thread

def Through (th : Thread V) : Party → Prop
  | .creator => ∃ r, th.creation = .done r
  | .routine => th.routine = .done
  | _ => True

def left (th : Thread V) : Party → Nat
  | .creator => th.creation.left
  | .routine => th.routine.left
  | _ => 0

def Free (th : Thread V) (p : Party) : Prop := p = .routine → th.shared.object.gateOpen = true

section Steps

variable {e : Setting V} {id : ObjectId} {t t' : Table} {s s' : Shared V} {th th' : Thread V}
  {p q : Party}

theorem creation_left {r : Create.Request} {pc : Create.Pc} {a : Action V}
    {resume : a.Answer → Create.Pc} (hn : Create.next r pc = .act a resume) (x : a.Answer) :
    (resume x).left < pc.left := by
  cases pc with
  | spawn => cases hn; rcases x with k | b <;> simp [Create.Pc.left]
  | register => cases hn; rcases x with k | u <;> simp [Create.Pc.left]
  | detachLook k => cases hn; cases x <;> simp [Create.Pc.left]
  | detachCall k => cases hn; rcases x with c | u <;> simp [Create.Pc.left]
  | done r => cases hn
  | _ =>
    cases hn
    simp [Create.Pc.left]

theorem routine_left {pc : Routine.Pc V} {a : Action V} {resume : a.Answer → Routine.Pc V}
    {x : a.Answer} (hn : Routine.next id pc = .act a resume) (hg : s.object.gateOpen = true)
    (he : e.effect id a (t, s) = some (x, t', s')) : (resume x).left < pc.left := by
  cases pc with
  | gate => cases hn; cases he; simp [CellAction.perform, hg, Routine.Pc.left]
  | body => cases hn; cases x <;> simp [Routine.Pc.left]
  | look => cases hn; cases x <;> simp [Routine.Pc.left]
  | unregister =>
    cases hn
    rcases x with k | u
    · by_cases hk : k = .notFound <;> simp [hk, Routine.Pc.left]
    · simp [Routine.Pc.left]
  | done => cases hn
  | _ =>
    cases hn
    simp [Routine.Pc.left]

/-- The other parties' steps change neither a creation nor a routine, and a
step of its own brings either nearer to its end. -/
theorem perform_left (hp : p.works = true) (hf : th.Free p)
    (h : th.perform? (e.effect id) id t q = some (t', th')) :
    th'.Free p ∧ th'.left p + (decide (q = p)).toNat ≤ th.left p := by
  obtain ⟨a, x, s', -, he, hq⟩ := perform_cases h
  have ho : p = .routine → s'.object.gateOpen = true := fun hr => Setting.effect_gate he (hf hr)
  obtain ⟨r, rfl, hn, rfl⟩ | ⟨r, rfl, hn, rfl⟩ | ⟨r, rfl, -, rfl⟩ | ⟨k, c, rfl, rfl⟩ := hq
  · refine ⟨ho, ?_⟩
    cases p with
    | creator => exact creation_left hn x
    | routine => exact Nat.le_refl _
    | _ => cases hp
  · refine ⟨ho, ?_⟩
    cases p with
    | creator => exact Nat.le_refl _
    | routine => exact routine_left hn (hf rfl) he
    | _ => cases hp
  · refine ⟨ho, ?_⟩
    cases p <;> first | exact Nat.le_refl _ | cases hp
  · refine ⟨ho, ?_⟩
    cases p <;> first | exact Nat.le_refl _ | cases hp

theorem action_told {a : Action V} (hp : p.works = true) (ha : th.action? id p = some a)
    (h : Handle) : a ≠ .table (.find h) := by
  rintro rfl
  cases p with
  | creator =>
    simp only [action?] at ha
    cases hc : th.creation <;> rw [hc] at ha <;> cases ha
  | routine =>
    simp only [action?] at ha
    cases hr : th.routine <;> rw [hr] at ha <;> cases ha
  | _ => cases hp

theorem perform_some (hp : p.works = true) (ht : ¬th.Through p) (e : Setting V) (id : ObjectId)
    (t : Table) : ∃ r, th.perform? (e.effect id) id t p = some r := by
  have hn : ∃ a resume, th.next id p = .act a resume := by
    cases hn : th.next id p with
    | act a resume => exact ⟨a, resume, rfl⟩
    | done r =>
      exfalso
      apply ht
      cases p with
      | creator =>
        simp only [next] at hn
        cases hc : th.creation with
        | done r => exact ⟨r, hc⟩
        | _ =>
          rw [hc] at hn
          cases hn
      | routine =>
        simp only [next] at hn
        cases hr : th.routine with
        | done => exact hr
        | _ =>
          rw [hr] at hn
          cases hn
      | _ => cases hp
  obtain ⟨a, resume, hn⟩ := hn
  have ha : th.action? id p = some a := by
    rw [← action_next, hn]
    rfl
  obtain ⟨r, hr⟩ := Setting.effect_some e id t th.shared (action_told hp ha)
  simp only [perform?, hn, hr, Option.map_some]
  exact ⟨_, rfl⟩

theorem left_pos (hp : p.works = true) (ht : ¬th.Through p) : 0 < th.left p := by
  cases p with
  | creator =>
    simp only [left]
    cases hc : th.creation with
    | done r => exact absurd ⟨r, hc⟩ ht
    | _ => simp [Create.Pc.left]
  | routine =>
    simp only [left]
    cases hr : th.routine with
    | done => exact absurd hr ht
    | _ => simp [Routine.Pc.left]
  | _ => cases hp

end Steps

end Thread

/-! ## Over whole runs -/

namespace World

variable {w u : World V} {id : ObjectId} {p : Party} {n : Chronicle} {capacity : Nat}

def turn (id : ObjectId) (p : Party) (_ : World V) (d : Deed V) : Bool :=
  match d.outcome with
  | .ok (.act q r _) => decide (q = id ∧ r = p)
  | _ => false

/-- However the manager goes on, and whatever fails, the party can act until it
has ended, which it has after nine actions. -/
def Ends (id : ObjectId) (p : Party) (w : World V) : Prop :=
  ∀ ds u, run? deed? ds w = some u → ∃ th, u.threads id = some th ∧
    (th.Through p ∨ tally deed? (turn id p) ds w < 9 ∧
      ∀ e, ∃ v, deed? (.move (.act id p e)) u = some v)

/-- The party of a thread that does not wait has no more than nine actions
left, those that it has made among them. -/
def Nearing (id : ObjectId) (p : Party) (w : World V) (k : Nat) : Prop :=
  ∃ th, w.threads id = some th ∧ th.Free p ∧ th.left p + k ≤ 9

theorem nearing_step {d : Deed V} {k : Nat} (hp : p.works = true) (hw : Nearing id p w k)
    (h : deed? d w = some u) : Nearing id p u (k + (turn id p w d).toNat) := by
  obtain ⟨th, ht, hf, hl⟩ := hw
  obtain ⟨c, hd, rfl⟩ | ⟨m, hd, hm⟩ := deed_cases h
  · simp only [turn, hd]
    exact ⟨th, ht, hf, hl⟩
  · obtain ⟨th', t, hv, rfl⟩ := move_cases hm
    by_cases hc : m.target = id
    · rw [hc] at hv ⊢
      rw [ht] at hv
      refine ⟨th', threads_put .., ?_⟩
      cases hv with
      | begin hb =>
        simp only [turn, hd]
        obtain ⟨-, -, ⟨c, -, rfl⟩ | ⟨-, v, -, rfl⟩⟩ := Thread.begin_cases hb
        · exact ⟨hf, by cases p <;> exact hl⟩
        · exact ⟨hf, by cases p <;> exact hl⟩
      | @act q r e _ _ _ ha =>
        rw [Move.target] at hc
        subst hc
        obtain ⟨hf', hl'⟩ := Thread.perform_left hp hf ha
        simp only [turn, hd, true_and]
        exact ⟨hf', by omega⟩
      | finish hb =>
        simp only [turn, hd]
        obtain ⟨v, -, rfl⟩ | ⟨i, c, -, -, rfl⟩ := Thread.finish_cases hb
        · exact ⟨hf, by cases p <;> exact hl⟩
        · exact ⟨hf, by cases p <;> exact hl⟩
    · have hn : turn id p w d = false := by
        simp only [turn, hd]
        cases m with
        | act q r e => exact decide_eq_false fun hq => hc hq.1
        | _ => rfl
      rw [hn]
      exact ⟨th, (threads_put_of_ne w (Ne.symm hc) th' t).trans ht, hf, hl⟩

theorem ends_of_free {th : Thread V} (hp : p.works = true) (ht : w.threads id = some th)
    (hf : th.Free p) : Ends id p w := by
  intro ds u h
  have hl : th.left p + 0 ≤ 9 := by
    cases p with
    | creator => cases hc : th.creation <;> simp [Thread.left, hc, Create.Pc.left]
    | routine => cases hr : th.routine <;> simp [Thread.left, hr, Routine.Pc.left]
    | _ => cases hp
  have hn : Nearing id p u (0 + tally deed? (turn id p) ds w) :=
    run_keeps_tally (fun _ _ _ _ hs hst => nearing_step hp hs hst) h ⟨th, ht, hf, hl⟩
  obtain ⟨th', ht', -, hl'⟩ := hn
  refine ⟨th', ht', ?_⟩
  by_cases hx : th'.Through p
  · exact .inl hx
  · refine .inr ⟨?_, fun e => ?_⟩
    · have := Thread.left_pos hp hx
      omega
    · obtain ⟨r, hr⟩ := Thread.perform_some hp hx e id u.table
      simp only [deed?, Deed.outcome, move?, ht', hr, Option.bind_some, Option.map_some]
      exact ⟨_, rfl⟩

structure Storied (id : ObjectId) (s : World V × Chronicle) : Prop where
  single : s.1.table.Single
  present : ∀ th, s.1.threads id = some th → th.Gated ∧ Chronicled (some id ∈ s.1.table) s.2 th
  absent : s.1.threads id = none → s.2.Untold ∧ some id ∉ s.1.table
  refusals : ∀ k ∈ s.2.refusals, k = .invalidParameter

theorem storied_initial (id : ObjectId) (capacity : Nat) :
    Storied id ((initial capacity : World V), .blank) where
  single := Table.single_free capacity
  present := fun _ h => nomatch h
  absent := fun _ => ⟨⟨rfl, rfl, rfl, rfl, rfl⟩, Table.not_mem_free capacity id⟩
  refusals := fun _ h => nomatch h

theorem chronicle_of_ne {d : Deed V} (hd : d.target ≠ id) (n : Chronicle) :
    chronicle id w d n = n :=
  if_neg hd

theorem chronicle_refused {d : Deed V} {k : ErrorKind} (hd : d.outcome = .error k)
    (hi : d.target = id) (n : Chronicle) :
    chronicle id w d n = { n with refusals := n.refusals ++ [k] } := by
  rw [chronicle, if_pos hi, hd]

theorem chronicle_move {d : Deed V} {m : Move V} (hd : d.outcome = .ok m)
    (hm : ∀ q p e, m ≠ .act q p e) (n : Chronicle) : chronicle id w d n = n := by
  unfold chronicle
  by_cases hi : d.target = id
  · rw [if_pos hi, hd]
    cases m with
    | act q p e => exact absurd rfl (hm q p e)
    | _ => rfl
  · exact if_neg hi

theorem chronicle_act {d : Deed V} {e : Setting V} {th : Thread V}
    (hd : d.outcome = .ok (.act id p e)) (ht : w.threads id = some th) (n : Chronicle) :
    chronicle id w d n = n.follow e id w.table th p := by
  have hi : d.target = id := (Deed.outcome_target hd).symm
  rw [chronicle, if_pos hi, hd, ht]

theorem refusals_follow (e : Setting V) (id : ObjectId) (t : Table) (th : Thread V) (p : Party)
    (n : Chronicle) : (n.follow e id t th p).refusals = n.refusals := by
  unfold Chronicle.follow Chronicle.record
  repeat' split
  all_goals rfl

theorem storied_put {th : Thread V} {t : Table} (hs : t.Single) (hg : th.Gated)
    (hw : Chronicled (some id ∈ t) n th) (hr : ∀ k ∈ n.refusals, k = .invalidParameter) :
    Storied id (w.put id th t, n) where
  single := hs
  present := fun _ ht => by
    rw [threads_put] at ht
    cases ht
    exact ⟨hg, hw⟩
  absent := fun hn => by
    rw [threads_put] at hn
    cases hn
  refusals := hr

namespace Storied

theorem refused {d : Deed V} {k : ErrorKind} (hs : Storied id (w, n)) (hd : d.outcome = .error k) :
    Storied id (w, chronicle id w d n) := by
  by_cases hi : d.target = id
  · rw [chronicle_refused hd hi]
    refine ⟨hs.single, fun th ht => ?_, fun hn => ?_, fun c hc => ?_⟩
    · exact (hs.present th ht).imp_right fun hw => hw.refused k
    · obtain ⟨hu, hf⟩ := hs.absent hn
      exact ⟨⟨hu.spawns, hu.registrations, hu.detaches, hu.runs, hu.removals⟩, hf⟩
    · rcases List.mem_append.mp hc with hc | hc
      · exact hs.refusals c hc
      · cases List.mem_singleton.mp hc
        exact Deed.outcome_refused hd
  · rw [chronicle_of_ne hi]
    exact hs

theorem elsewhere {q : ObjectId} {th : Thread V} {t : Table} (hs : Storied id (w, n))
    (hq : id ≠ q) (hf : Framed q w.table t) : Storied id (w.put q th t, n) := by
  have ht : (w.put q th t).threads id = w.threads id := threads_put_of_ne w hq th t
  have hm : some id ∈ (w.put q th t).table ↔ some id ∈ w.table := hf.others id hq
  exact ⟨hf.single, fun v h => (hs.present v (ht ▸ h)).imp_right fun hw => hw.slot_congr hm,
    fun h => (hs.absent (ht ▸ h)).imp_right fun hn => hn ∘ hm.mp, hs.refusals⟩

theorem concerned {d : Deed V} {m : Move V} {th : Thread V} {t : Table}
    (hs : Storied m.target (w, n)) (hd : d.outcome = .ok m)
    (hv : Moved w m (w.threads m.target) th t) :
    Storied m.target (w.put m.target th t, chronicle m.target w d n) := by
  have hf := hv.framed hs.single
  generalize ho : w.threads m.target = o at hv
  cases hv with
  | create =>
    obtain ⟨hn, hm⟩ := hs.absent ho
    rw [chronicle_move hd (by rintro _ _ _ ⟨⟩)]
    exact storied_put hf.single (.new _) (.new hn hm _) hs.refusals
  | begin hb =>
    obtain ⟨hg, hw⟩ := hs.present _ ho
    rw [chronicle_move hd (by rintro _ _ _ ⟨⟩)]
    exact storied_put hf.single (hg.begin hb) (hw.begin hb) hs.refusals
  | act ha =>
    obtain ⟨hg, hw⟩ := hs.present _ ho
    rw [Move.target] at ho ⊢
    rw [chronicle_act hd ho]
    refine storied_put hf.single (hg.perform ha) (hw.act hs.single hg ha) ?_
    rw [refusals_follow]
    exact hs.refusals
  | finish hb =>
    obtain ⟨hg, hw⟩ := hs.present _ ho
    rw [chronicle_move hd (by rintro _ _ _ ⟨⟩)]
    exact storied_put hf.single (hg.finish hb) (hw.finish hb) hs.refusals

theorem step {d : Deed V} {s s' : World V × Chronicle} (hs : Storied id s)
    (h : noted deed? (chronicle id) d s = some s') : Storied id s' := by
  obtain ⟨w, n⟩ := s
  obtain ⟨w', n'⟩ := s'
  obtain ⟨hu, rfl⟩ := noted_step h
  have hu : deed? d w = some w' := hu
  obtain ⟨k, hd, rfl⟩ | ⟨m, hd, hm⟩ := deed_cases hu
  · exact hs.refused hd
  · obtain ⟨th, t, hv, rfl⟩ := move_cases hm
    by_cases hi : m.target = id
    · subst hi
      exact hs.concerned hd hv
    · rw [chronicle_of_ne (Deed.outcome_target hd ▸ hi)]
      exact hs.elsewhere (Ne.symm hi) (hv.framed hs.single)

end Storied

/-- Refused attributes change nothing, and as long as the backend has not
accepted a thread no deed that concerns its object changes the table. -/
structure Discreet (id : ObjectId) (s : World V × Chronicle) (d : Deed V)
    (s' : World V × Chronicle) : Prop where
  refused : ∀ k, d.outcome = .error k → k = .invalidParameter ∧ s'.1 = s.1
  untouched : d.target = id → s'.2.spawns ≠ [.ok ()] → s'.1.table = s.1.table

theorem Moved.untouched {m : Move V} {d : Deed V} {o : Option (Thread V)} {th : Thread V}
    {t : Table} (hv : Moved w m o th t) (ho : w.threads m.target = o) (hd : d.outcome = .ok m)
    (hr : (chronicle m.target w d n).registrations = [])
    (hl : (chronicle m.target w d n).removals = []) : t = w.table := by
  cases hv with
  | act ha =>
    rw [Move.target] at ho hr hl
    rw [chronicle_act hd ho] at hr hl
    obtain ⟨a, x, s', ha, he, -⟩ := Thread.perform_cases ha
    rw [Chronicle.follow_eq ha] at hr hl
    cases a with
    | table c =>
      cases c with
      | register => cases (List.append_eq_nil_iff.mp hr).2
      | unregister => cases (List.append_eq_nil_iff.mp hl).2
      | find => cases he
    | _ =>
      cases he
      rfl
  | _ => rfl

theorem discreet_step {d : Deed V} {s s' : World V × Chronicle} (hs : Storied id s')
    (h : noted deed? (chronicle id) d s = some s') : Discreet id s d s' := by
  obtain ⟨w, n⟩ := s
  obtain ⟨w', n'⟩ := s'
  obtain ⟨hu, rfl⟩ := noted_step h
  have hu : deed? d w = some w' := hu
  obtain ⟨k, hd, rfl⟩ | ⟨m, hd, hm⟩ := deed_cases hu
  · exact ⟨fun c hc => ⟨Deed.outcome_refused hc, rfl⟩, fun _ _ => rfl⟩
  · refine ⟨fun c hc => (nomatch hc.symm.trans hd), fun hi hn => ?_⟩
    obtain ⟨th', t, hv, rfl⟩ := move_cases hm
    rw [← Deed.outcome_target hd] at hi
    subst hi
    obtain ⟨hg, hw⟩ := hs.present th' (threads_put ..)
    obtain ⟨hr, -, -, hl, -⟩ := hw.unaccepted hg hn
    exact hv.untouched rfl hd hr hl

/-- Whatever fails, the function of a thread is run once if the backend has
accepted the thread and never otherwise, and a creation that fails leaves no
trace once the routine that it has started is at its end. -/
theorem functions_run_once_or_never {ds : List (Deed V)}
    (h : run? (noted deed? (chronicle id)) ds (initial capacity, .blank) = some (w, n)) :
    Throughout (noted deed? (chronicle id)) (Discreet id) ds (initial capacity, .blank) ∧
    (w.threads id = none → n.Untold ∧ some id ∉ w.table) ∧
    ∀ th, w.threads id = some th → Upheld (some id ∈ w.table) n th ∧ Ends id .creator w ∧
      ((∃ r, th.creation = .done r) → n.spawns = [.ok ()] → Ends id .routine w) := by
  have hw : Storied id (w, n) :=
    run_keeps (fun _ _ _ hs hst => hs.step hst) h (storied_initial id capacity)
  refine ⟨?_, hw.absent, fun th ht => ?_⟩
  · refine throughout_of_keeps (I := Storied id) ?_ (throughout_trivial ds _)
      (storied_initial id capacity)
    intro s d s' hs hst _
    have hs' := hs.step hst
    exact ⟨hs', discreet_step hs' hst⟩
  · obtain ⟨hg, hc⟩ := hw.present th ht
    refine ⟨hc.upheld hg, ends_of_free rfl ht nofun, fun ⟨r, hr⟩ hs => ?_⟩
    refine ends_of_free rfl ht fun _ => ?_
    have hk := hc.creation
    rw [hr] at hk
    rcases r with k | u
    · obtain ⟨c, -, hn, -⟩ | ⟨-, ho⟩ := hk
      · cases hs.symm.trans hn.1
      · exact ho
    · exact hk.2.2

/-- The object is registered and the mutex reports a failure, and the backend
does not let the thread go. -/
def leakedCreation : List (Deed Unit) :=
  .ask .zero .default 1 ::
    (acts 2 .creator agreeing ++ acts 1 .creator leaking ++ acts 6 .creator unhelpful).map .move

def leakedAndEnded : List (Deed Unit) := leakedCreation ++ (acts 7 .routine agreeing).map .move

theorem leaked_slot_is_cleared :
    (∃ w n, run? (noted deed? (chronicle 1)) leakedCreation ((initial 1 : World Unit), .blank) =
        some (w, n) ∧ w.table = [some 1]) ∧
    ∃ w n th, run? (noted deed? (chronicle 1)) leakedAndEnded ((initial 1 : World Unit), .blank) =
        some (w, n) ∧
      w.threads 1 = some th ∧ th.creation = .done (.error .timeout) ∧ th.routine = .done ∧
      n = ⟨[], [.ok ()], [.error .timeout], 1, 1, [.working]⟩ ∧ w.table = [none] ∧
      Upheld (some 1 ∈ w.table) n th := by
  refine ⟨⟨_, _, rfl, rfl⟩, ?_⟩
  obtain ⟨w, n, th, h, ht, hc, hr, hn, hm⟩ : ∃ w n th, run? (noted deed? (chronicle 1))
      leakedAndEnded ((initial 1 : World Unit), .blank) = some (w, n) ∧ w.threads 1 = some th ∧
      th.creation = .done (.error .timeout) ∧ th.routine = .done ∧
      n = ⟨[], [.ok ()], [.error .timeout], 1, 1, [.working]⟩ ∧ w.table = [none] :=
    ⟨_, _, _, rfl, rfl, rfl, rfl, rfl, rfl⟩
  exact ⟨w, n, th, h, ht, hc, hr, hn, hm, ((functions_run_once_or_never h).2.2 th ht).1⟩

end World

end SyncCore.Manager

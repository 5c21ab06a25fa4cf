import SyncCore.Proofs.Manager.Gate
import SyncCore.Proofs.Manager.Losses

/-!
# What comes of a creation

A creation is asked for with attributes, which are refused or resolved before
anything is made. Of one that goes on it is written down what the backend
answers to the spawn, what comes of each attempt to register the object and to
free its slot, and how often the backend is asked to let the thread go and the
thread's function is run. The points where creation and routine are tell what
is written there, whatever fails.
-/

set_option autoImplicit false

namespace SyncCore.Manager

variable {V : Type}

/-! ## Deeds -/

/-- A step of a manager, or a creation as it is asked for. -/
inductive Deed (V : Type) where
  | ask (limits : ThreadLimits) (a : Attributes) (id : ObjectId)
  | move (m : Move V)

namespace Deed

def target : Deed V → ObjectId
  | .ask _ _ id => id
  | .move m => m.target

def outcome : Deed V → Outcome (Move V)
  | .ask limits a id => (Create.request limits a id).map .create
  | .move m => .ok m

theorem outcome_target {d : Deed V} {m : Move V} (h : d.outcome = .ok m) : m.target = d.target := by
  cases d with
  | move m' =>
    cases h
    rfl
  | ask limits a id =>
    simp only [outcome, Create.request] at h
    cases hr : a.resolve limits with
    | error k =>
      rw [hr] at h
      cases h
    | ok b =>
      rw [hr] at h
      cases h
      rfl

theorem outcome_refused {d : Deed V} {k : ErrorKind} (h : d.outcome = .error k) :
    k = .invalidParameter := by
  cases d with
  | move m => cases h
  | ask limits a id =>
    simp only [outcome, Create.request, Attributes.resolve] at h
    split at h
    · cases h
      rfl
    · split at h <;> cases h
      rfl

end Deed

structure Chronicle where
  refusals : List ErrorKind
  spawns : List (Outcome Unit)
  registrations : List (Outcome Unit)
  detaches : Nat
  runs : Nat
  /-- How the mutex behaved in each attempt to free the slot. -/
  removals : List Registry.Latch

namespace Chronicle

def blank : Chronicle := ⟨[], [], [], 0, 0, []⟩

structure Untold (n : Chronicle) : Prop where
  spawns : n.spawns = []
  registrations : n.registrations = []
  detaches : n.detaches = 0
  runs : n.runs = 0
  removals : n.removals = []

def record (e : Setting V) (id : ObjectId) (t : Table) (n : Chronicle) : Action V → Chronicle
  | .backend (.spawn c) =>
    { n with spawns := n.spawns ++ [(e.backend (.spawn c) : Outcome Binding).map fun _ => ()] }
  | .backend .detach => { n with detaches := n.detaches + 1 }
  | .table .register =>
    { n with registrations := n.registrations ++ [(settled e.latch t (t.register id)).1] }
  | .table .unregister => { n with removals := n.removals ++ [e.latch] }
  | .runBody => { n with runs := n.runs + 1 }
  | _ => n

def follow (e : Setting V) (id : ObjectId) (t : Table) (th : Thread V) (p : Party)
    (n : Chronicle) : Chronicle :=
  match th.action? id p with
  | none => n
  | some a => n.record e id t a

theorem follow_eq {e : Setting V} {id : ObjectId} {t : Table} {th : Thread V} {p : Party}
    {a : Action V} (h : th.action? id p = some a) (n : Chronicle) :
    n.follow e id t th p = n.record e id t a := by
  simp only [follow, h]

end Chronicle

namespace World

def deed? (d : Deed V) (w : World V) : Option (World V) :=
  match d.outcome with
  | .ok m => move? m w
  | .error _ => some w

def chronicle (id : ObjectId) (w : World V) (d : Deed V) (n : Chronicle) : Chronicle :=
  if d.target = id then
    match d.outcome, w.threads id with
    | .error k, _ => { n with refusals := n.refusals ++ [k] }
    | .ok (.act _ p e), some th => n.follow e id w.table th p
    | _, _ => n
  else n

variable {w u : World V}

theorem deed_cases {d : Deed V} (h : deed? d w = some u) :
    (∃ k, d.outcome = .error k ∧ u = w) ∨ ∃ m, d.outcome = .ok m ∧ move? m w = some u := by
  unfold deed? at h
  cases hd : d.outcome with
  | error k =>
    rw [hd] at h
    cases h
    exact .inl ⟨k, rfl, rfl⟩
  | ok m =>
    rw [hd] at h
    exact .inr ⟨m, rfl, h⟩

end World

/-! ## Gates under a mutex that fails -/

section Effects

variable {e : Setting V} {id : ObjectId} {t t' : Table} {s s' : Shared V}

theorem Setting.effect_plain {a : Action V} (ha : ∀ c, a ≠ .table c) :
    e.effect id a = Manager.effect e.toOracle id a := by
  cases a with
  | table c => exact absurd rfl (ha c)
  | _ => rfl

theorem Setting.effect_apart {c : TableCall} {x : c.Answer}
    (h : e.effect id (.table c) (t, s) = some (x, t', s')) : s' = s := by
  cases c with
  | register => exact (effect_register h).1
  | unregister => exact (effect_unregister h).1
  | find => cases h

theorem Setting.effect_steady {a : Action V} {x : a.Answer}
    (h : e.effect id a (t, s) = some (x, t', s')) (ha : a.steady = true) :
    Steady s.object s'.object := by
  by_cases hc : ∃ c, a = .table c
  · obtain ⟨c, rfl⟩ := hc
    cases effect_apart h
    exact ⟨rfl, rfl, fun h => h⟩
  · rw [effect_plain fun c hac => hc ⟨c, hac⟩] at h
    exact Manager.effect_steady h ha

theorem Setting.effect_gate {a : Action V} {x : a.Answer}
    (h : e.effect id a (t, s) = some (x, t', s')) (hg : s.object.gateOpen = true) :
    s'.object.gateOpen = true := by
  by_cases ha : a.steady = true
  · rw [(effect_steady h ha).gate]
    exact hg
  · cases a with
    | cell c =>
      cases h
      cases c with
      | openGate => rfl
      | bind b => exact hg
      | _ => exact absurd rfl ha
    | _ => exact absurd rfl ha

/-- Every action but a search of the table has an effect, whatever fails. -/
theorem Setting.effect_some (e : Setting V) (id : ObjectId) (t : Table) (s : Shared V)
    {a : Action V} (ha : ∀ h, a ≠ .table (.find h)) : ∃ r, e.effect id a (t, s) = some r := by
  cases a with
  | table c =>
    cases c with
    | register => exact ⟨_, by rw [effect, attempt_register, Option.map_some]⟩
    | unregister => exact ⟨_, by rw [effect, attempt_unregister, Option.map_some]⟩
    | find h => exact absurd rfl (ha h)
  | _ => exact ⟨_, rfl⟩

end Effects

namespace Thread

variable {e : Setting V} {id : ObjectId} {t t' : Table} {th th' : Thread V} {p : Party}

theorem perform_congr {f g : Effect (interface V) (Table × Shared V)}
    (h : ∀ a, th.action? id p = some a → f a = g a) :
    th.perform? f id t p = th.perform? g id t p := by
  rw [← action_next] at h
  unfold perform?
  cases hn : th.next id p with
  | done r => rfl
  | act a resume => simp only [h a (by rw [hn]; rfl)]

theorem Gated.perform (hg : th.Gated) (h : th.perform? (e.effect id) id t p = some (t', th')) :
    th'.Gated := by
  by_cases ht : ∃ c, th.action? id p = some (.table c)
  · obtain ⟨c, hc⟩ := ht
    obtain ⟨a, x, s', ha, he, hp⟩ := perform_cases h
    cases ha.symm.trans hc
    cases Setting.effect_apart he
    obtain ⟨r, rfl, hn, rfl⟩ | ⟨r, rfl, hn, rfl⟩ | ⟨r, -, -, rfl⟩ | ⟨k, d, -, rfl⟩ := hp
    · have hk := hg.creation
      refine ⟨?_, hg.entered⟩
      cases hc : th.creation with
      | register =>
        rw [hc] at hn hk
        cases hn
        rcases x with k | u <;> exact hk
      | _ =>
        rw [hc] at hn
        cases hn
    · refine ⟨hg.creation, fun _ => hg.entered ?_⟩
      cases hr : th.routine <;> rw [hr] at hn <;> cases hn
      rfl
    · exact ⟨hg.creation, hg.entered⟩
    · exact ⟨hg.creation, hg.entered⟩
  · have ha : th.act? e.toOracle id t p = some (t', th') := by
      rw [act_eq, ← h]
      refine perform_congr fun a ha => (Setting.effect_plain fun c hc => ?_).symm
      exact ht ⟨c, hc ▸ ha⟩
    exact hg.act ha

end Thread

/-! ## The invariant of one thread -/

def Chronicle.Reads (n : Chronicle) (spawns registrations : List (Outcome Unit))
    (detaches : Nat) : Prop :=
  n.spawns = spawns ∧ n.registrations = registrations ∧ n.detaches = detaches

def Create.Pc.Tells (gate : Bool) (n : Chronicle) : Create.Pc → Prop
  | .spawn => n.Reads [] [] 0
  | .spawnWarn k => n.Reads [.error k] [] 0
  | .bind _ => n.Reads [.ok ()] [] 0
  | .register => n.Reads [.ok ()] [] 0
  | .registerWarn k => n.Reads [.ok ()] [.error k] 0
  | .disown k => n.Reads [.ok ()] [.error k] 0
  | .detachLook k => n.Reads [.ok ()] [.error k] 0
  | .detachCall k => n.Reads [.ok ()] [.error k] 0
  | .detachWarn k _ => n.Reads [.ok ()] [.error k] 1
  | .releaseGate k => n.Reads [.ok ()] [.error k] 1
  | .openGate => n.spawns = [.ok ()] ∧ n.registrations = [.ok ()]
  | .announce => n.spawns = [.ok ()] ∧ n.registrations = [.ok ()] ∧ gate = true
  | .done (.ok _) => n.spawns = [.ok ()] ∧ n.registrations = [.ok ()] ∧ gate = true
  | .done (.error k) =>
    (∃ c, k = spawnError c ∧ n.Reads [.error c] [] 0 ∧ gate = false) ∨
      n.Reads [.ok ()] [.error k] 1 ∧ gate = true

def Routine.Pc.ran : Routine.Pc V → Bool
  | .gate => false
  | .wait => false
  | .begin => false
  | .body => false
  | _ => true

/-- Behind a closed gate the function has not been run, and no slot has been freed. -/
theorem Thread.Gated.waiting {th : Thread V} (hg : th.Gated)
    (hc : th.shared.object.gateOpen = false) :
    th.routine.ran = false ∧ th.routine.finished = false := by
  have he : th.routine.entered ≠ true := fun h => by cases hc.symm.trans (hg.entered h)
  cases hr : th.routine with
  | gate => exact ⟨rfl, rfl⟩
  | wait => exact ⟨rfl, rfl⟩
  | _ =>
    rw [hr] at he
    exact absurd rfl he

def Swept (slot : Prop) (removals : List Registry.Latch) : (finished : Bool) → Prop
  | false => removals = []
  | true => ∃ l, removals = [l] ∧ (l.lock = .ok () → ¬slot)

structure Chronicled (slot : Prop) (n : Chronicle) (th : Thread V) : Prop where
  creation : th.creation.Tells th.shared.object.gateOpen n
  runs : n.runs = th.routine.ran.toNat
  resting : th.creation ≠ .done (.ok ()) → th.owner = .rest
  outside : n.registrations = [] → ¬slot
  swept : th.creation.stage ≠ .accepted → Swept slot n.removals th.routine.finished

theorem Create.stays_accepted {r : Request} {pc : Pc} {a : Action V} {resume : a.Answer → Pc}
    (hn : next r pc = .act a resume) (x : a.Answer) (h : pc.stage = .accepted) :
    (resume x).stage = .accepted := by
  cases pc with
  | openGate => cases hn; rfl
  | announce => cases hn; rfl
  | done r => cases hn
  | _ => cases h

theorem Create.Pc.Tells.congr {pc : Create.Pc} {gate : Bool} {n n' : Chronicle}
    (h : pc.Tells gate n) (hs : n'.spawns = n.spawns) (hr : n'.registrations = n.registrations)
    (hd : pc.stage ≠ .accepted → n'.detaches = n.detaches) : pc.Tells gate n' := by
  cases pc with
  | openGate => rwa [Tells, hs, hr]
  | announce => rwa [Tells, hs, hr]
  | done r =>
    rcases r with k | u
    · simpa only [Tells, Chronicle.Reads, hs, hr, hd nofun] using h
    · rwa [Tells, hs, hr]
  | _ =>
    simpa only [Tells, Chronicle.Reads, hs, hr, hd nofun] using h

namespace Chronicle

variable {e : Setting V} {id : ObjectId} {t : Table} {n : Chronicle} {a : Action V}

theorem record_owner {w : Owner V} (h : w.action? id = some a) :
    (n.record e id t a).spawns = n.spawns ∧
      (n.record e id t a).registrations = n.registrations ∧ (n.record e id t a).runs = n.runs := by
  cases w with
  | joining native pc => cases pc <;> cases h <;> exact ⟨rfl, rfl, rfl⟩
  | destroying joined pc => cases pc <;> cases h <;> exact ⟨rfl, rfl, rfl⟩
  | dropping joined pc => cases pc <;> cases h <;> exact ⟨rfl, rfl, rfl⟩
  | _ => cases h

theorem record_control {c : Control} (h : c.action? id = some a) : n.record e id t a = n := by
  cases c with
  | hold d pc => cases d <;> cases pc <;> cases h <;> rfl
  | priority q native pc => cases pc <;> cases h <;> rfl

end Chronicle

namespace Chronicled

variable {e : Setting V} {id : ObjectId} {t t' : Table} {s' : Shared V} {th th' : Thread V}
  {n n' : Chronicle} {slot slot' : Prop} {p : Party}

theorem new (hn : n.Untold) (hs : ¬slot) (r : Create.Request) :
    Chronicled slot n (.new r : Thread V) where
  creation := ⟨hn.spawns, hn.registrations, hn.detaches⟩
  runs := hn.runs
  resting := fun _ => rfl
  outside := fun _ => hs
  swept := fun _ => hn.removals

theorem slot_congr (hw : Chronicled slot n th) (h : slot' ↔ slot) : Chronicled slot' n th := by
  rwa [propext h]

theorem creator_apart {pc : Create.Pc} (hw : Chronicled slot n th)
    (hc : ∀ r, th.creation ≠ .done r) (hp : pc.stage ≠ .accepted → th.creation.stage ≠ .accepted)
    (hr : n'.registrations = n.registrations) (hv : n'.removals = n.removals)
    (hb : n'.runs = n.runs) (ht : pc.Tells s'.object.gateOpen n') :
    Chronicled slot n' { th with creation := pc, shared := s' } where
  creation := ht
  runs := hb.trans hw.runs
  resting := fun _ => hw.resting (hc _)
  outside := fun h => hw.outside (hr ▸ h)
  swept := fun h => by
    rw [hv]
    exact hw.swept (hp h)

/-- A registration. It may fail although the object has taken a slot, and that
is not seen by a routine before the gate opens. -/
theorem registering {pc : Create.Pc} (hg : th.Gated) (hw : Chronicled slot n th)
    (hp : th.creation = .register) (x : Outcome Unit)
    (ht : n.Reads [.ok ()] [] 0 →
      pc.Tells th.shared.object.gateOpen { n with registrations := n.registrations ++ [x] }) :
    Chronicled slot' { n with registrations := n.registrations ++ [x] }
      { th with creation := pc } where
  creation := ht (by simpa only [hp, Create.Pc.Tells] using hw.creation)
  runs := hw.runs
  resting := fun _ => hw.resting (by rw [hp]; exact nofun)
  outside := fun h => by cases (List.append_eq_nil_iff.mp h).2
  swept := fun _ => by
    have hk := hg.creation
    rw [hp] at hk
    have hf : th.routine.finished = false := (hg.waiting hk.1).2
    have hv := hw.swept (by rw [hp]; exact nofun)
    rw [hf] at hv ⊢
    exact hv

theorem creator {a : Action V} {resume : a.Answer → Create.Pc} {x : a.Answer} (hg : th.Gated)
    (hw : Chronicled (some id ∈ t) n th) (hn : Create.next th.request th.creation = .act a resume)
    (he : e.effect id a (t, th.shared) = some (x, t', s')) :
    Chronicled (some id ∈ t') (n.record e id t a)
      { th with creation := resume x, shared := s' } := by
  have hc : ∀ r, th.creation ≠ .done r := by
    intro r hc
    rw [hc] at hn
    cases hn
  have hs := mt (Create.stays_accepted hn x)
  have hk := hg.creation
  have ht := hw.creation
  cases hp : th.creation with
  | spawn =>
    rw [hp] at hn ht
    cases hn
    cases he
    refine hw.creator_apart hc hs rfl rfl rfl ?_
    obtain ⟨hn, hr, hd⟩ := ht
    cases hb : (e.backend (.spawn th.request.config) : Outcome Binding) <;>
      exact ⟨by simp only [Chronicle.record, hn, hb]; rfl, hr, hd⟩
  | spawnWarn k =>
    rw [hp] at hn ht hk
    cases hn
    cases he
    exact hw.creator_apart hc hs rfl rfl rfl
      (.inl ⟨k, rfl, ht, hk.1⟩)
  | register =>
    rw [hp] at hn
    cases hn
    obtain ⟨rfl, hx⟩ := Setting.effect_register he
    simp only [Chronicle.record, hx]
    rcases x with k | u
    · exact hw.registering hg hp (.error k) fun ⟨hs, hr, hd⟩ => ⟨hs, by rw [hr]; rfl, hd⟩
    · exact hw.registering hg hp (.ok u) fun ⟨hs, hr, _⟩ => ⟨hs, by rw [hr]; rfl⟩
  | releaseGate k =>
    rw [hp] at hn ht
    cases hn
    cases he
    exact hw.creator_apart hc hs rfl rfl rfl (.inr ⟨ht, rfl⟩)
  | openGate =>
    rw [hp] at hn ht
    cases hn
    cases he
    exact hw.creator_apart hc hs rfl rfl rfl ⟨ht.1, ht.2, rfl⟩
  | announce =>
    rw [hp] at hn ht
    cases hn
    cases he
    exact hw.creator_apart hc hs rfl rfl rfl ht
  | detachLook k =>
    rw [hp] at hn ht hk
    cases hn
    cases he
    refine hw.creator_apart hc hs rfl rfl rfl ?_
    simp only [CellAction.perform, hk.2.1, if_true]
    exact ht
  | detachCall k =>
    rw [hp] at hn ht
    cases hn
    cases he
    refine hw.creator_apart hc hs rfl rfl rfl ?_
    obtain ⟨hn, hr, hd⟩ := ht
    cases (e.backend .detach : Outcome Unit) <;>
      exact ⟨hn, hr, congrArg (· + 1) hd⟩
  | done r => exact absurd hp (hc r)
  | _ =>
    rw [hp] at hn ht
    cases hn
    cases he
    exact hw.creator_apart hc hs rfl rfl rfl ht

theorem routine_apart {r : Routine.Pc V} (hw : Chronicled slot n th)
    (hg : s'.object.gateOpen = th.shared.object.gateOpen) (hr : r.ran = th.routine.ran)
    (hf : th.creation.stage ≠ .accepted → r.finished = th.routine.finished) :
    Chronicled slot n { th with routine := r, shared := s' } where
  creation := by
    rw [hg]
    exact hw.creation
  runs := by
    rw [hr]
    exact hw.runs
  resting := hw.resting
  outside := hw.outside
  swept := fun h => by
    rw [hf h]
    exact hw.swept h

theorem unregistering {r : Routine.Pc V} {x : Outcome Unit} (hs : t.Single)
    (hw : Chronicled (some id ∈ t) n th) (hp : th.routine = .unregister)
    (hu : settled e.latch t (t.unregister id) = (x, t')) (hr : r.finished = true) :
    Chronicled (some id ∈ t') { n with removals := n.removals ++ [e.latch] }
      { th with routine := r } where
  creation := hw.creation.congr rfl rfl fun _ => rfl
  runs := by
    rw [show r.ran = th.routine.ran by rw [hp]; cases r <;> first | rfl | cases hr]
    exact hw.runs
  resting := hw.resting
  outside := fun h => by
    obtain ⟨-, -, -, hm⟩ | ⟨k, -, rfl, -⟩ | ⟨k, -, -, -, hm⟩ := unregister_told hs hu
    · exact hm
    · exact hw.outside h
    · exact hm
  swept := fun hc => by
    have hv := hw.swept hc
    rw [hp] at hv
    rw [hr, show n.removals = [] from hv]
    refine ⟨e.latch, rfl, fun hl => ?_⟩
    obtain ⟨-, -, -, hm⟩ | ⟨k, -, rfl, hm⟩ | ⟨k, -, -, -, hm⟩ := unregister_told hs hu
    · exact hm
    · exact fun hi => hm ⟨hl, hi⟩
    · exact hm

theorem routine {a : Action V} {resume : a.Answer → Routine.Pc V} {x : a.Answer} (hs : t.Single)
    (hg : th.Gated) (hw : Chronicled (some id ∈ t) n th)
    (hn : Routine.next id th.routine = .act a resume)
    (he : e.effect id a (t, th.shared) = some (x, t', s')) :
    Chronicled (some id ∈ t') (n.record e id t a)
      { th with routine := resume x, shared := s' } := by
  have hb := hw.runs
  cases hp : th.routine with
  | gate =>
    rw [hp] at hn
    cases hn
    cases he
    cases ho : th.shared.object.gateOpen <;> simp only [CellAction.perform, ho] <;>
      exact hw.routine_apart rfl (by rw [hp]; rfl) fun _ => by rw [hp]; rfl
  | body =>
    rw [hp] at hn hb
    cases hn
    cases he
    have hr : n.runs + 1 = 1 := congrArg (· + 1) hb
    have hv := hw.swept
    rw [hp] at hv
    cases e.body <;> exact ⟨hw.creation, hr, hw.resting, hw.outside, hv⟩
  | look =>
    rw [hp] at hn
    cases hn
    cases he
    have hd := (hg.behind (by rw [hp]; rfl)).2
    cases hx : th.shared.object.detached with
    | true =>
      simp only [CellAction.perform, hx, if_true]
      exact hw.routine_apart rfl (by rw [hp]; rfl) fun _ => by rw [hp]; rfl
    | false =>
      simp only [CellAction.perform, hx]
      refine hw.routine_apart rfl (by rw [hp]; rfl) fun hc => ?_
      cases hx.symm.trans (hd.resolve_left hc).2
  | unregister =>
    rw [hp] at hn
    cases hn
    obtain ⟨rfl, hu⟩ := Setting.effect_unregister he
    rcases x with k | u
    · by_cases hk : k = .notFound <;> simp only [hk, if_true, if_false] <;>
        exact hw.unregistering hs hp hu rfl
    · exact hw.unregistering hs hp hu rfl
  | done =>
    rw [hp] at hn
    cases hn
  | _ =>
    rw [hp] at hn
    cases hn
    cases he
    exact hw.routine_apart rfl (by rw [hp]; rfl) fun _ => by rw [hp]; rfl

theorem owner {a : Action V} {resume : a.Answer → Owner V} {x : a.Answer}
    (hw : Chronicled (some id ∈ t) n th) (hn : th.owner.next id = .act a resume)
    (ha : th.action? id .owner = some a)
    (he : e.effect id a (t, th.shared) = some (x, t', s')) :
    Chronicled (some id ∈ t') (n.record e id t a)
      { th with owner := resume x, shared := s' } := by
  have hc : th.creation = .done (.ok ()) := by
    by_contra hc
    rw [hw.resting hc] at hn
    cases hn
  have hd : th.creation.stage = .accepted := by
    rw [hc]
    rfl
  obtain ⟨hsp, hr, hb⟩ := Chronicle.record_owner (e := e) (t := t) (n := n) ha
  have hst := Setting.effect_steady he (Thread.action_steady ha nofun)
  refine ⟨?_, hb.trans hw.runs, fun h => absurd hc h, fun h => ?_, fun h => absurd hd h⟩
  · have ht := hw.creation.congr hsp hr fun h => absurd hd h
    rw [← hst.gate] at ht
    exact ht
  · have ht := hw.creation
    rw [hc] at ht
    cases ht.2.1.symm.trans (hr.symm.trans h)

theorem act (hs : t.Single) (hg : th.Gated) (hw : Chronicled (some id ∈ t) n th)
    (h : th.perform? (e.effect id) id t p = some (t', th')) :
    Chronicled (some id ∈ t') (n.follow e id t th p) th' := by
  obtain ⟨a, x, s', ha, he, hp⟩ := Thread.perform_cases h
  rw [Chronicle.follow_eq ha]
  obtain ⟨r, rfl, hn, rfl⟩ | ⟨r, rfl, hn, rfl⟩ | ⟨r, rfl, hn, rfl⟩ | ⟨k, c, rfl, rfl⟩ := hp
  · exact hw.creator hg hn he
  · exact hw.routine hs hg hn he
  · exact hw.owner hn ha he
  · have hst := Setting.effect_steady he (Thread.action_steady ha nofun)
    obtain ⟨d, -, hd⟩ := Option.bind_eq_some_iff.mp ha
    obtain ⟨rfl, -⟩ := Setting.effect_calm he (Control.action_calm hd)
    rw [Chronicle.record_control hd]
    exact ⟨by rw [hst.gate]; exact hw.creation, hw.runs, hw.resting, hw.outside, hw.swept⟩

theorem begin {c : HandleCall} (hw : Chronicled slot n th) (h : th.begin? c = some th') :
    Chronicled slot n th' := by
  obtain ⟨hc, -, ⟨k, -, rfl⟩ | ⟨-, w, -, rfl⟩⟩ := Thread.begin_cases h
  · exact ⟨hw.creation, hw.runs, hw.resting, hw.outside, hw.swept⟩
  · exact ⟨hw.creation, hw.runs, fun h => absurd hc h, hw.outside, hw.swept⟩

theorem finish (hw : Chronicled slot n th) (h : th.finish? p = some th') :
    Chronicled slot n th' := by
  obtain ⟨w, hf, rfl⟩ | ⟨k, c, -, -, rfl⟩ := Thread.finish_cases h
  · refine ⟨hw.creation, hw.runs, fun hc => ?_, hw.outside, hw.swept⟩
    have hr := hw.resting hc
    rw [hr] at hf
    cases hf
  · exact ⟨hw.creation, hw.runs, hw.resting, hw.outside, hw.swept⟩

theorem refused (hw : Chronicled slot n th) (k : ErrorKind) :
    Chronicled slot { n with refusals := n.refusals ++ [k] } th where
  creation := hw.creation.congr rfl rfl fun _ => rfl
  runs := hw.runs
  resting := hw.resting
  outside := hw.outside
  swept := hw.swept

end Chronicled

end SyncCore.Manager

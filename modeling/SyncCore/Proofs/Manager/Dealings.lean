import SyncCore.Proofs.Manager.Faults

/-!
# Dealings with a backend thread

What a manager has the backend do with the thread of one object is written
down: the spawn, and then the join or the detach that releases the thread. The
owner's note that the thread has been joined, the object's binding and what
the owner is at tell what is written there, whatever the backend answers and
whatever fails. So no thread is released twice, and one whose handle is gone
has been released unless a join was made that released nothing.
-/

set_option autoImplicit false

namespace SyncCore.Manager

variable {V : Type}

/-- What happens to the backend thread of an object. A join or a detach
concerns the thread that the object is bound to. -/
inductive Dealing where
  | spawn (b : Binding)
  | join (b : Option Binding) (r : Outcome Unit)
  | detach (b : Option Binding) (r : Outcome Unit)
  /-- A join has read that the thread is Terminated, without a call of the backend. -/
  | poll

namespace Dealing

def isSpawn : Dealing → Bool
  | .spawn _ => true
  | _ => false

def isRelease : Dealing → Bool
  | .join _ _ => true
  | .detach _ _ => true
  | _ => false

def on : Dealing → Option Binding
  | .join b _ => b
  | .detach b _ => b
  | _ => none

end Dealing

def Action.deal? (o : Oracle V) (b : Option Binding) : Action V → Option Dealing
  | .backend (.spawn c) =>
    match (o.backend (.spawn c) : Outcome Binding) with
    | .ok b => some (.spawn b)
    | .error _ => none
  | .backend .join => some (.join b (o.backend .join))
  | .backend .detach => some (.detach b (o.backend .detach))
  | _ => none

def Owner.deal? (o : Oracle V) (id : ObjectId) (s : Shared V) : Owner V → Option Dealing
  | .joining _ .poll => if s.object.state = .terminated then some .poll else none
  | w => (w.action? id).bind (Action.deal? o s.object.binding)

def Thread.deal? (o : Oracle V) (id : ObjectId) (th : Thread V) : Party → Option Dealing
  | .owner => th.owner.deal? o id th.shared
  | p => (th.action? id p).bind (Action.deal? o th.shared.object.binding)

def noteDealings (id : ObjectId) (w : World V) (c : Move V) (log : List Dealing) : List Dealing :=
  match c with
  | .act q p e =>
    if q = id then
      match w.threads id with
      | none => log
      | some th => log ++ (th.deal? e.toOracle id p).toList
    else log
  | _ => log

/-! ## Standings of a backend thread -/

inductive Standing where
  | untouched
  /-- The owner has noted a join that has not come to anything yet. -/
  | claimed
  | awaited
  | detached

def Standing.Fits (b : Binding) (joined : Bool) (log : List Dealing) : Standing → Prop
  | .untouched => joined = false ∧ log = [.spawn b]
  | .claimed => joined = true ∧ log = [.spawn b]
  | .awaited => joined = true ∧
    (log = [.spawn b, .poll] ∨ ∃ r, log = [.spawn b, .join (some b) r])
  | .detached => joined = false ∧ ∃ r, log = [.spawn b, .detach (some b) r]

def Standing.kept (joined : Bool) : Standing := if joined then .awaited else .untouched

def Standing.given (joined : Bool) : Standing := if joined then .awaited else .detached

def Owner.standing (joined : Bool) : Owner V → Standing
  | .rest => .kept joined
  | .joining _ .mark => .untouched
  | .joining _ .look => .claimed
  | .joining _ .wait => .claimed
  | .joining _ .poll => .claimed
  | .joining _ .sleep => .claimed
  | .joining _ .yield => .claimed
  | .joining _ (.done _) => .kept joined
  | .joining _ _ => .awaited
  | .destroying _ .check => .kept joined
  | .destroying _ .unregister => .kept joined
  | .destroying _ (.done (.error _)) => .kept joined
  | .destroying _ .look => .untouched
  | .destroying _ .detach => .untouched
  | .destroying _ (.warn _) => .detached
  | .destroying _ _ => .given joined
  | .destroyed => .given joined
  | .dropping _ .warn => .kept joined
  | .dropping _ .mark => .kept joined
  | .dropping _ .look => .untouched
  | .dropping _ .detach => .untouched
  | .dropping _ (.detachWarn _) => .detached
  | .dropping _ _ => .given joined
  | .dropped => .given joined

/-- A destroy and a drop go by the note as it was when they began. -/
def Owner.Recalls (joined : Bool) : Owner V → Prop
  | .destroying j _ => j = joined
  | .dropping j _ => j = joined
  | _ => True

def Create.Pc.standing : Create.Pc → Standing
  | .detachWarn _ _ => .detached
  | .releaseGate _ => .detached
  | .done (.error _) => .detached
  | _ => .untouched

def Thread.Bound (th : Thread V) (log : List Dealing) (g : Standing) : Prop :=
  ∃ b, th.shared.object.binding = some b ∧ g.Fits b th.shared.joined log

def Create.Pc.Wrote (th : Thread V) (log : List Dealing) : Create.Pc → Prop
  | .spawn => th.shared.object.binding = none ∧ log = []
  | .spawnWarn _ => th.shared.object.binding = none ∧ log = []
  | .bind b => th.shared.object.binding = none ∧ log = [.spawn b]
  | .done (.ok _) => th.Bound log (th.owner.standing th.shared.joined)
  | .done (.error e) =>
    th.shared.object.binding = none ∧ log = [] ∨ th.Bound log (standing (.done (.error e)))
  | pc => th.Bound log pc.standing

structure Dealt (th : Thread V) (log : List Dealing) : Prop where
  wrote : th.creation.Wrote th log
  resting : th.creation ≠ .done (.ok ()) → th.owner = .rest ∧ th.shared.joined = false
  recalls : th.owner.Recalls th.shared.joined

/-! ## Effects on what the invariant speaks of -/

def Action.binds (b : Option Binding) : Action V → Option Binding
  | .cell (.bind c) => b.or (some c)
  | _ => b

def Action.joins (joined : Bool) : Action V → Bool
  | .markJoined => true
  | _ => joined

theorem Action.binds_some (a : Action V) (b : Binding) : a.binds (some b) = some b := by
  cases a with
  | cell c => cases c <;> rfl
  | _ => rfl

theorem Thread.deal_eq {o : Oracle V} {id : ObjectId} {th : Thread V} {p : Party} {a : Action V}
    (h : th.action? id p = some a) (hw : p ≠ .owner) :
    th.deal? o id p = a.deal? o th.shared.object.binding := by
  cases p with
  | owner => exact absurd rfl hw
  | _ => rw [deal?, h, Option.bind_some]; exact nofun

section Effects

variable {e : Setting V} {id : ObjectId} {t t' : Table} {s s' : Shared V}

theorem Setting.effect_notes {a : Action V} {x : a.Answer}
    (h : e.effect id a (t, s) = some (x, t', s')) :
    s'.object.binding = a.binds s.object.binding ∧ s'.joined = a.joins s.joined := by
  cases a with
  | cell c =>
    cases h
    cases c with
    | exchangeState d f =>
      simp only [CellAction.perform, ThreadObject.exchangeState]
      split <;> exact ⟨rfl, rfl⟩
    | _ => exact ⟨rfl, rfl⟩
  | table c =>
    cases c with
    | register => rw [(effect_register h).1]; exact ⟨rfl, rfl⟩
    | unregister => rw [(effect_unregister h).1]; exact ⟨rfl, rfl⟩
    | find => cases h
  | _ =>
    cases h
    exact ⟨rfl, rfl⟩

/-- Neither the routine nor a controlling call has dealings with the thread. -/
theorem Thread.action_idle {th : Thread V} {p : Party} {a : Action V}
    (h : th.action? id p = some a) (hc : p ≠ .creator) (hw : p ≠ .owner) (b : Option Binding)
    (j : Bool) : a.deal? e.toOracle b = none ∧ a.binds b = b ∧ a.joins j = j := by
  cases p with
  | creator => exact absurd rfl hc
  | owner => exact absurd rfl hw
  | routine =>
    simp only [action?] at h
    cases hr : th.routine <;> rw [hr] at h <;> cases h <;> exact ⟨rfl, rfl, rfl⟩
  | control i =>
    obtain ⟨c, -, hc⟩ := Option.bind_eq_some_iff.mp h
    cases c with
    | hold d pc => cases d <;> cases pc <;> cases hc <;> exact ⟨rfl, rfl, rfl⟩
    | priority q native pc => cases pc <;> cases hc <;> exact ⟨rfl, rfl, rfl⟩

end Effects

/-! ## What a step of each party preserves -/

section Steps

variable {e : Setting V} {id : ObjectId} {t t' : Table} {s s' : Shared V} {log : List Dealing}
  {b : Binding}

theorem Standing.fits_on {g : Standing} {joined : Bool} (h : g.Fits b joined log) :
    g.Fits b joined (log ++ (none : Option Dealing).toList) := by
  rwa [Option.toList_none, List.append_nil]

theorem Standing.fits_kept {joined : Bool} (h : Standing.awaited.Fits b joined log) :
    (kept joined).Fits b joined log := by
  obtain ⟨rfl, hl⟩ := h
  exact ⟨rfl, hl⟩

theorem Standing.fits_given {joined : Bool} (h : Standing.detached.Fits b joined log) :
    (given joined).Fits b joined log := by
  obtain ⟨rfl, hl⟩ := h
  exact ⟨rfl, hl⟩

theorem Standing.fits_parting {joined : Bool} (h : (kept joined).Fits b joined log) :
    (if joined then given joined else untouched).Fits b joined log := by
  cases joined <;> exact h

theorem joining_fits {native : Bool} {pc : Join.Pc V} {a : Action V}
    {resume : a.Answer → Join.Pc V} {x : a.Answer} (hb : s.object.binding = some b)
    (hf : ((Owner.joining native pc).standing s.joined).Fits b s.joined log)
    (hn : Join.next id native pc = .act a resume)
    (he : e.effect id a (t, s) = some (x, t', s')) :
    ((Owner.joining native (resume x)).standing s'.joined).Fits b s'.joined
      (log ++ ((Owner.joining native pc).deal? e.toOracle id s).toList) := by
  cases pc with
  | mark =>
    cases hn
    cases he
    obtain ⟨-, rfl⟩ := hf
    cases native <;> exact ⟨rfl, rfl⟩
  | look =>
    cases hn
    cases he
    simp only [CellAction.perform, hb, Option.isSome_some, if_true]
    exact Standing.fits_on hf
  | wait =>
    cases hn
    cases he
    have hd : (Owner.joining native (.wait : Join.Pc V)).deal? e.toOracle id s =
        some (.join (some b) (e.backend .join)) := by
      rw [← hb]
      rfl
    rw [hd, hf.2]
    cases (e.backend .join : Outcome Unit) <;> exact ⟨hf.1, .inr ⟨_, rfl⟩⟩
  | poll =>
    cases hn
    cases he
    by_cases ht : s.object.state = .terminated
    · simp only [CellAction.perform, Owner.deal?, ht, if_true, hf.2]
      exact ⟨hf.1, .inl rfl⟩
    · simp only [CellAction.perform, Owner.deal?, ht, if_false]
      exact Standing.fits_on hf
  | sleep =>
    cases hn
    cases he
    cases (e.backend (.sleep Defaults.pollInterval) : Outcome Unit) <;>
      exact Standing.fits_on hf
  | yield =>
    cases hn
    cases he
    exact Standing.fits_on hf
  | waitWarn k =>
    cases hn
    cases he
    exact Standing.fits_on (Standing.fits_kept hf)
  | confirm =>
    cases hn
    cases he
    by_cases ht : s.object.state = .terminated
    · simp only [CellAction.perform, ht, if_true]
      exact Standing.fits_on hf
    · simp only [CellAction.perform, ht, if_false]
      exact Standing.fits_on (Standing.fits_kept hf)
  | take =>
    cases hn
    cases he
    exact Standing.fits_on hf
  | announce v =>
    cases hn
    cases he
    cases v <;> exact Standing.fits_on (Standing.fits_kept hf)
  | done r => cases hn

theorem detach_fits {joined : Bool} (hf : Standing.untouched.Fits b joined log)
    (hb : s.object.binding = some b) (o : Oracle V) :
    Standing.detached.Fits b joined
      (log ++ ((Action.backend .detach : Action V).deal? o s.object.binding).toList) := by
  obtain ⟨rfl, rfl⟩ := hf
  rw [hb]
  exact ⟨rfl, _, rfl⟩

theorem destroying_fits {pc : Destroy.Pc} {a : Action V} {resume : a.Answer → Destroy.Pc}
    {x : a.Answer} (hb : s.object.binding = some b)
    (hf : ((Owner.destroying s.joined pc : Owner V).standing s.joined).Fits b s.joined log)
    (hn : Destroy.next id s.joined pc = .act a resume)
    (he : e.effect id a (t, s) = some (x, t', s')) :
    s'.joined = s.joined ∧
    ((Owner.destroying s.joined (resume x) : Owner V).standing s.joined).Fits b s.joined
      (log ++ ((Owner.destroying s.joined pc).deal? e.toOracle id s).toList) := by
  cases pc with
  | check =>
    cases hn
    cases he
    refine ⟨rfl, Standing.fits_on ?_⟩
    by_cases ht : s.object.state = .terminated
    · simp only [CellAction.perform, ht, if_true]
      exact hf
    · simp only [CellAction.perform, ht, if_false]
      exact hf
  | unregister =>
    cases hn
    obtain ⟨rfl, -⟩ := Setting.effect_unregister he
    refine ⟨rfl, Standing.fits_on ?_⟩
    rcases x with k | u
    · exact hf
    · have hp := Standing.fits_parting hf
      cases hj : s'.joined <;> rw [hj] at hp <;> exact hp
  | look =>
    cases hn
    cases he
    refine ⟨rfl, Standing.fits_on ?_⟩
    simp only [CellAction.perform, hb, Option.isSome_some, if_true]
    exact hf
  | detach =>
    cases hn
    cases he
    refine ⟨rfl, ?_⟩
    have hf := detach_fits hf hb e.toOracle
    cases (e.backend .detach : Outcome Unit) with
    | ok u => exact Standing.fits_given hf
    | error k => exact hf
  | warn k =>
    cases hn
    cases he
    exact ⟨rfl, Standing.fits_on (Standing.fits_given hf)⟩
  | announce =>
    cases hn
    cases he
    exact ⟨rfl, Standing.fits_on hf⟩
  | done r => cases hn

theorem dropping_fits {pc : Drop.Pc} {a : Action V} {resume : a.Answer → Drop.Pc}
    {x : a.Answer} (hb : s.object.binding = some b)
    (hf : ((Owner.dropping s.joined pc : Owner V).standing s.joined).Fits b s.joined log)
    (hn : Drop.next id s.joined pc = .act a resume)
    (he : e.effect id a (t, s) = some (x, t', s')) :
    s'.joined = s.joined ∧
    ((Owner.dropping s.joined (resume x) : Owner V).standing s.joined).Fits b s.joined
      (log ++ ((Owner.dropping s.joined pc).deal? e.toOracle id s).toList) := by
  cases pc with
  | warn =>
    cases hn
    cases he
    exact ⟨rfl, Standing.fits_on hf⟩
  | mark =>
    cases hn
    cases he
    refine ⟨rfl, Standing.fits_on ?_⟩
    have hp := Standing.fits_parting hf
    cases hj : s.joined <;> rw [hj] at hp <;> exact hp
  | look =>
    cases hn
    cases he
    refine ⟨rfl, Standing.fits_on ?_⟩
    simp only [CellAction.perform, hb, Option.isSome_some, if_true]
    exact hf
  | detach =>
    cases hn
    cases he
    refine ⟨rfl, ?_⟩
    have hf := detach_fits hf hb e.toOracle
    cases (e.backend .detach : Outcome Unit) with
    | ok u => exact Standing.fits_given hf
    | error k => exact hf
  | detachWarn k =>
    cases hn
    cases he
    exact ⟨rfl, Standing.fits_on (Standing.fits_given hf)⟩
  | check =>
    cases hn
    cases he
    refine ⟨rfl, Standing.fits_on ?_⟩
    by_cases ht : s.object.state = .terminated
    · simp only [CellAction.perform, ht, if_true]
      exact hf
    · simp only [CellAction.perform, ht, if_false]
      exact hf
  | unregister =>
    cases hn
    obtain ⟨rfl, -⟩ := Setting.effect_unregister he
    refine ⟨rfl, Standing.fits_on ?_⟩
    rcases x with k | u
    · by_cases hk : k = .notFound <;> simp only [hk, if_true, if_false] <;> exact hf
    · exact hf
  | unregisterWarn k =>
    cases hn
    cases he
    exact ⟨rfl, Standing.fits_on hf⟩
  | done => cases hn

end Steps

namespace Dealt

variable {e : Setting V} {id : ObjectId} {t t' : Table} {s' : Shared V} {th th' : Thread V}
  {log : List Dealing} {p : Party}

theorem new (r : Create.Request) : Dealt (.new r : Thread V) [] where
  wrote := ⟨rfl, rfl⟩
  resting := fun _ => ⟨rfl, rfl⟩
  recalls := trivial

/-- Of a creation that has handed out a handle the owner's standing tells. -/
theorem of_done {g : Standing} (hc : th.creation = .done (.ok ())) (hb : th.Bound log g)
    (hg : th.owner.standing th.shared.joined = g) (hk : th.owner.Recalls th.shared.joined) :
    Dealt th log where
  wrote := by
    rw [hc, Create.Pc.Wrote, hg]
    exact hb
  resting := fun h => absurd hc h
  recalls := hk

theorem bound (hd : Dealt th log) (hc : th.creation = .done (.ok ())) :
    th.Bound log (th.owner.standing th.shared.joined) := by
  have hw := hd.wrote
  rwa [hc] at hw

theorem created (hd : Dealt th log) (ho : th.owner ≠ .rest) : th.creation = .done (.ok ()) := by
  by_contra hc
  exact ho (hd.resting hc).1

theorem idle (hd : Dealt th log) (hc : th'.creation = th.creation) (ho : th'.owner = th.owner)
    (hb : th'.shared.object.binding = th.shared.object.binding)
    (hj : th'.shared.joined = th.shared.joined) : Dealt th' log where
  wrote := by
    have hw := hd.wrote
    rw [hc]
    cases hp : th.creation with
    | done r =>
      rw [hp] at hw
      cases r <;> simpa only [Create.Pc.Wrote, Thread.Bound, ho, hb, hj] using hw
    | _ =>
      rw [hp] at hw
      simpa only [Create.Pc.Wrote, Thread.Bound, hb, hj] using hw
  resting := fun h => by
    rw [ho, hj]
    exact hd.resting (hc ▸ h)
  recalls := by
    rw [ho, hj]
    exact hd.recalls

theorem creator {a : Action V} {resume : a.Answer → Create.Pc} {x : a.Answer} (hd : Dealt th log)
    (hn : Create.next th.request th.creation = .act a resume)
    (he : e.effect id a (t, th.shared) = some (x, t', s')) :
    Dealt { th with creation := resume x, shared := s' }
      (log ++ (a.deal? e.toOracle th.shared.object.binding).toList) := by
  have hw := hd.wrote
  have hr := hd.resting fun hc => by
    rw [hc] at hn
    cases hn
  obtain ⟨hb, hj⟩ := Setting.effect_notes he
  have of_wrote : (resume x).Wrote { th with creation := resume x, shared := s' }
      (log ++ (a.deal? e.toOracle th.shared.object.binding).toList) → s'.joined = th.shared.joined →
      Dealt { th with creation := resume x, shared := s' }
        (log ++ (a.deal? e.toOracle th.shared.object.binding).toList) := fun hw hj =>
    ⟨hw, fun _ => ⟨hr.1, hj.trans hr.2⟩, by rw [hr.1]; trivial⟩
  have bound_on : ∀ {g : Standing} {d : Option Dealing}, th.Bound log g →
      s'.object.binding = th.shared.object.binding → s'.joined = th.shared.joined → d = none →
      Thread.Bound { th with creation := resume x, shared := s' } (log ++ d.toList) g := by
    rintro g d ⟨b, hb', hf⟩ hb hj rfl
    exact ⟨b, hb.trans hb', by rw [hj]; exact Standing.fits_on hf⟩
  cases hp : th.creation with
  | spawn =>
    rw [hp] at hn hw
    cases hn
    obtain ⟨hw, rfl⟩ := hw
    refine of_wrote ?_ hj
    cases he
    simp only [Action.deal?]
    cases (e.backend (.spawn th.request.config) : Outcome Binding) with
    | ok b => exact ⟨hw, rfl⟩
    | error k => exact ⟨hw, rfl⟩
  | spawnWarn k =>
    rw [hp] at hn hw
    cases hn
    obtain ⟨hw, rfl⟩ := hw
    exact of_wrote (.inl ⟨hb.trans hw, rfl⟩) hj
  | bind b =>
    rw [hp] at hn hw
    cases hn
    obtain ⟨hw, rfl⟩ := hw
    rw [hw] at hb
    exact of_wrote ⟨b, hb, hj.trans hr.2, rfl⟩ hj
  | register =>
    rw [hp] at hn hw
    cases hn
    refine of_wrote ?_ hj
    rcases x with k | u <;> exact bound_on hw hb hj rfl
  | detachLook k =>
    rw [hp] at hn hw
    cases hn
    refine of_wrote ?_ hj
    have hx : x = true := by
      obtain ⟨b, hb', -⟩ := hw
      cases he
      exact congrArg Option.isSome hb'
    cases hx
    exact bound_on hw hb hj rfl
  | detachCall k =>
    rw [hp] at hn hw
    cases hn
    refine of_wrote ?_ hj
    obtain ⟨b, hb', hf⟩ := hw
    cases he
    have hf := detach_fits hf hb' e.toOracle
    cases (e.backend .detach : Outcome Unit) <;> exact ⟨b, hb', hf⟩
  | releaseGate k =>
    rw [hp] at hn hw
    cases hn
    exact of_wrote (.inr (bound_on hw hb hj rfl)) hj
  | announce =>
    rw [hp] at hn hw
    cases hn
    refine of_wrote ?_ hj
    rw [Create.Pc.Wrote, hr.1, show s'.joined = false from hj.trans hr.2]
    exact bound_on hw hb hj rfl
  | done r =>
    rw [hp] at hn
    cases hn
  | _ =>
    rw [hp] at hn hw
    cases hn
    exact of_wrote (bound_on hw hb hj rfl) hj

theorem owner {a : Action V} {resume : a.Answer → Owner V} {x : a.Answer} (hd : Dealt th log)
    (hn : th.owner.next id = .act a resume)
    (he : e.effect id a (t, th.shared) = some (x, t', s')) :
    Dealt { th with owner := resume x, shared := s' }
      (log ++ (th.owner.deal? e.toOracle id th.shared).toList) := by
  have hk := hd.recalls
  have hc : th.creation = .done (.ok ()) := hd.created fun ho => by
    rw [ho] at hn
    cases hn
  obtain ⟨b, hb, hf⟩ := hd.bound hc
  have hb' : s'.object.binding = some b := by
    rw [(Setting.effect_notes he).1, hb, Action.binds_some]
  cases ho : th.owner with
  | joining native pc =>
    rw [ho] at hn hf
    obtain ⟨r, hp, rfl⟩ := Next.onto_act hn
    exact of_done hc ⟨b, hb', joining_fits hb hf hp he⟩ rfl trivial
  | destroying joined pc =>
    rw [ho] at hn hf hk
    obtain rfl : joined = th.shared.joined := hk
    obtain ⟨r, hp, rfl⟩ := Next.onto_act hn
    obtain ⟨hj, hf⟩ := destroying_fits hb hf hp he
    exact of_done hc ⟨b, hb', by rw [hj]; exact hf⟩ (by rw [hj]) hj.symm
  | dropping joined pc =>
    rw [ho] at hn hf hk
    obtain rfl : joined = th.shared.joined := hk
    obtain ⟨r, hp, rfl⟩ := Next.onto_act hn
    obtain ⟨hj, hf⟩ := dropping_fits hb hf hp he
    exact of_done hc ⟨b, hb', by rw [hj]; exact hf⟩ (by rw [hj]) hj.symm
  | _ =>
    rw [ho] at hn
    cases hn

theorem act (hd : Dealt th log) (h : th.perform? (e.effect id) id t p = some (t', th')) :
    Dealt th' (log ++ (th.deal? e.toOracle id p).toList) := by
  obtain ⟨a, x, s', ha, he, hp⟩ := Thread.perform_cases h
  have idle : p ≠ .creator → p ≠ .owner → th'.creation = th.creation → th'.owner = th.owner →
      th'.shared = s' → Dealt th' (log ++ (th.deal? e.toOracle id p).toList) := by
    rintro hc hw hc' hw' rfl
    obtain ⟨hb, hj⟩ := Setting.effect_notes he
    obtain ⟨hn, hi, hk⟩ := Thread.action_idle (e := e) ha hc hw th.shared.object.binding
      th.shared.joined
    rw [Thread.deal_eq ha hw, hn, Option.toList_none, List.append_nil]
    exact hd.idle hc' hw' (hb.trans hi) (hj.trans hk)
  obtain ⟨r, rfl, hn, rfl⟩ | ⟨r, rfl, -, rfl⟩ | ⟨r, rfl, hn, rfl⟩ | ⟨k, c, rfl, rfl⟩ := hp
  · rw [Thread.deal_eq ha nofun]
    exact hd.creator hn he
  · exact idle nofun nofun rfl rfl rfl
  · exact hd.owner hn he
  · exact idle nofun nofun rfl rfl rfl

theorem begin {c : HandleCall} (hd : Dealt th log) (h : th.begin? c = some th') :
    Dealt th' log := by
  obtain ⟨hc, hr, ⟨k, -, rfl⟩ | ⟨-, w, hw, rfl⟩⟩ := Thread.begin_cases h
  · exact hd.idle rfl rfl rfl rfl
  · have hb := hd.bound hc
    rw [Owner.eq_rest hr] at hb
    cases c with
    | join own native =>
      cases hw
      refine of_done hc hb ?_ trivial
      cases own
      · rfl
      · cases hj : th.shared.joined <;> rfl
    | destroy own =>
      cases hw
      exact of_done hc hb (by cases own <;> rfl) rfl
    | drop =>
      cases hw
      exact of_done hc hb rfl rfl
    | hold d own supported => cases hw
    | priority q native own => cases hw

theorem finish (hd : Dealt th log) (h : th.finish? p = some th') : Dealt th' log := by
  obtain ⟨w, hw, rfl⟩ | ⟨k, c, -, -, rfl⟩ := Thread.finish_cases h
  · obtain ⟨n, r, ho, rfl⟩ | ⟨j, u, ho, rfl⟩ | ⟨j, k, ho, rfl⟩ | ⟨j, ho, rfl⟩ :=
      Owner.finish_cases hw
    all_goals
      have hc := hd.created (by rw [ho]; exact nofun)
      have hb := hd.bound hc
      rw [ho] at hb
      exact of_done hc hb rfl trivial
  · exact hd.idle rfl rfl rfl rfl

/-- There is nothing but the spawn, and what has become of the thread since. -/
theorem once (hd : Dealt th log) :
    log = [] ∨ ∃ b, log = [.spawn b] ∨ log = [.spawn b, .poll] ∨
      ∃ r, log = [.spawn b, .join (some b) r] ∨ log = [.spawn b, .detach (some b) r] := by
  have of_bound : ∀ {g : Standing}, th.Bound log g → ∃ b, log = [.spawn b] ∨
      log = [.spawn b, .poll] ∨
      ∃ r, log = [.spawn b, .join (some b) r] ∨ log = [.spawn b, .detach (some b) r] := by
    rintro g ⟨b, -, hf⟩
    cases g with
    | untouched => exact ⟨b, .inl hf.2⟩
    | claimed => exact ⟨b, .inl hf.2⟩
    | awaited => exact ⟨b, .inr (hf.2.imp_right fun ⟨r, hr⟩ => ⟨r, .inl hr⟩)⟩
    | detached => exact ⟨b, .inr (.inr (hf.2.imp fun _ hr => .inr hr))⟩
  have hw := hd.wrote
  cases hp : th.creation with
  | spawn =>
    rw [hp] at hw
    exact .inl hw.2
  | spawnWarn k =>
    rw [hp] at hw
    exact .inl hw.2
  | bind b =>
    rw [hp] at hw
    exact .inr ⟨b, .inl hw.2⟩
  | done r =>
    rw [hp] at hw
    rcases r with k | u
    · exact hw.imp And.right of_bound
    · exact .inr (of_bound hw)
  | _ =>
    rw [hp] at hw
    exact .inr (of_bound hw)

end Dealt

end SyncCore.Manager

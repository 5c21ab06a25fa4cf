import SyncCore.Proofs.Manager.Chronicle
import SyncCore.Proofs.Thread.NativeRange

/-!
# Which attributes are let through

A creation is refused for its attributes before an object is made and before the
backend is called. One that is not refused calls the backend once, with the name
and the stack size that its object keeps. All objects of the process are numbered
by one counter, which other managers draw from as well.
-/

set_option autoImplicit false

namespace SyncCore

/-! ## Attributes -/

namespace Attributes

/-- What a backend can be asked for. A stack of size 0 is of unknown size. -/
def Admissible (a : Attributes) (l : ThreadLimits) : Prop :=
  '\x00' ∉ a.effectiveName.toList ∧
    (a.effectiveStack l = 0 ∨
      l.minStack ≤ a.effectiveStack l ∧ (l.maxStack ≠ 0 → a.effectiveStack l ≤ l.maxStack))

def filled (a : Attributes) (l : ThreadLimits) : Attributes :=
  ⟨a.priority, a.effectiveStack l, a.effectiveName⟩

variable {a b : Attributes} {l : ThreadLimits}

theorem stackFits_iff {n : UInt64} : stackFits n l = true ↔
    n = 0 ∨ l.minStack ≤ n ∧ (l.maxStack ≠ 0 → n ≤ l.maxStack) := by
  simp only [stackFits, Bool.or_eq_true, Bool.and_eq_true, decide_eq_true_eq]
  rw [or_iff_not_imp_left (a := l.maxStack = 0)]

theorem resolve_admissible (h : a.Admissible l) : a.resolve l = .ok (a.filled l) := by
  rw [resolve, if_neg, if_pos (stackFits_iff.mpr h.2), filled]
  simpa using h.1

theorem resolve_inadmissible (h : ¬a.Admissible l) : a.resolve l = .error .invalidParameter := by
  rw [resolve]
  split
  · rfl
  next hn =>
    refine if_neg fun hs => h ⟨?_, stackFits_iff.mp hs⟩
    simpa using hn

theorem effectiveName_ne_empty (a : Attributes) : a.effectiveName ≠ "" := by
  unfold effectiveName
  split
  · decide
  next hn => exact fun he => hn (by rw [he]; rfl)

theorem effectiveName_filled (a : Attributes) (l : ThreadLimits) :
    (a.filled l).effectiveName = a.effectiveName :=
  if_neg fun he => a.effectiveName_ne_empty (String.isEmpty_iff.mp he)

theorem effectiveStack_filled (a : Attributes) (l : ThreadLimits) :
    (a.filled l).effectiveStack l = a.effectiveStack l := by
  by_cases h : a.stackSize = 0 <;> simp [effectiveStack, filled, h]

theorem resolve_again (h : a.resolve l = .ok b) : b.resolve l = .ok b := by
  by_cases ha : a.Admissible l
  · rw [resolve_admissible ha] at h
    cases h
    have hf : (a.filled l).Admissible l := by
      rw [Admissible, effectiveName_filled, effectiveStack_filled]
      exact ha
    rw [resolve_admissible hf, filled, effectiveName_filled, effectiveStack_filled]
    rfl
  · rw [resolve_inadmissible ha] at h
    cases h

end Attributes

namespace Manager

variable {V : Type}

/-! ## What a spawn is called with -/

def SpawnConfig.ofAttributes (a : Attributes) (l : ThreadLimits) : SpawnConfig :=
  ⟨a.effectiveName, a.effectiveStack l, a.priority.toNative l⟩

def Thread.spawn? (id : ObjectId) (th : Thread V) (p : Party) : Option SpawnConfig :=
  match th.action? id p with
  | some (.backend (.spawn c)) => some c
  | _ => none

section Spawns

variable {e : Setting V} {id : ObjectId} {t t' : Table} {s s' : Shared V} {th th' : Thread V}
  {p : Party} {a : Action V}

theorem Setting.effect_label {x : a.Answer} (h : e.effect id a (t, s) = some (x, t', s')) :
    s'.object.name = s.object.name ∧ s'.object.stackSize = s.object.stackSize := by
  cases a with
  | cell c =>
    cases h
    cases c with
    | exchangeState d f =>
      simp only [CellAction.perform, ThreadObject.exchangeState]
      split <;> exact ⟨rfl, rfl⟩
    | _ => exact ⟨rfl, rfl⟩
  | table c => cases Setting.effect_apart h; exact ⟨rfl, rfl⟩
  | _ => cases h; exact ⟨rfl, rfl⟩

theorem Thread.action_spawn {c : SpawnConfig} (h : th.action? id p = some (.backend (.spawn c))) :
    p = .creator ∧ th.creation = .spawn := by
  cases p with
  | creator =>
    simp only [action?] at h
    cases hc : th.creation <;> rw [hc] at h <;> cases h
    exact ⟨rfl, rfl⟩
  | routine =>
    simp only [action?] at h
    cases hr : th.routine <;> rw [hr] at h <;> cases h
  | owner =>
    simp only [action?] at h
    cases hw : th.owner with
    | joining native pc => rw [hw] at h; cases pc <;> cases h
    | destroying joined pc => rw [hw] at h; cases pc <;> cases h
    | dropping joined pc => rw [hw] at h; cases pc <;> cases h
    | _ => rw [hw] at h; cases h
  | control k =>
    obtain ⟨c, -, h⟩ := Option.bind_eq_some_iff.mp h
    cases c with
    | hold d pc => cases d <;> cases pc <;> cases h
    | priority q native pc => cases pc <;> cases h

theorem Thread.spawn_none (h : ¬(p = .creator ∧ th.creation = .spawn)) :
    th.spawn? id p = none := by
  unfold spawn?
  split
  next hn => exact absurd (action_spawn hn) h
  next => rfl

theorem Create.next_ne_spawn {r : Create.Request} {pc : Create.Pc} {resume : a.Answer → Create.Pc}
    (h : Create.next r pc = .act a resume) (x : a.Answer) : resume x ≠ .spawn := by
  cases pc with
  | spawn => cases h; rcases x with e | b <;> exact nofun
  | register => cases h; rcases x with e | u <;> exact nofun
  | detachLook e => cases h; cases x <;> exact nofun
  | detachCall e => cases h; rcases x with e | u <;> exact nofun
  | done r => cases h
  | _ => cases h; exact nofun

structure Thread.Called (c : SpawnConfig) (th : Thread V) (l : List SpawnConfig) : Prop where
  name : th.shared.object.name = c.name
  stackSize : th.shared.object.stackSize = c.stackSize
  config : th.request.config = c
  calls : l = if th.creation = .spawn then [] else [c]

namespace Thread.Called

variable {c : SpawnConfig} {l : List SpawnConfig}

theorem new {limits : ThreadLimits} (a : Attributes) (id : ObjectId) :
    (Thread.new ⟨id, a.filled limits, a.priority.toNative limits⟩ : Thread V).Called
      (.ofAttributes a limits) [] where
  name := rfl
  stackSize := rfl
  config := rfl
  calls := rfl

theorem of_creation (h : th.Called c l) (hr : th'.request = th.request)
    (hn : th'.shared.object.name = th.shared.object.name)
    (hs : th'.shared.object.stackSize = th.shared.object.stackSize)
    (hc : th'.creation = .spawn ↔ th.creation = .spawn) : th'.Called c l where
  name := hn.trans h.name
  stackSize := hs.trans h.stackSize
  config := by
    rw [hr]
    exact h.config
  calls := by
    rw [h.calls]
    simp only [hc]

theorem spawn? (h : th.Called c l) (hc : th.creation = .spawn) :
    th.spawn? id .creator = some c := by
  simp only [Thread.spawn?, Thread.action?, hc, Create.next, Next.action?, h.config]

theorem perform (h : th.Called c l) (hp : th.perform? (e.effect id) id t p = some (t', th')) :
    th'.Called c (l ++ (th.spawn? id p).toList) := by
  obtain ⟨a, x, s', -, he, hc⟩ := Thread.perform_cases hp
  obtain ⟨hname, hstack⟩ := Setting.effect_label he
  by_cases hs : p = .creator ∧ th.creation = .spawn
  · obtain ⟨rfl, hcr⟩ := hs
    obtain ⟨r, -, hn, rfl⟩ | ⟨_, ⟨⟩, -⟩ | ⟨_, ⟨⟩, -⟩ | ⟨_, _, ⟨⟩, -⟩ := hc
    refine ⟨hname.trans h.name, hstack.trans h.stackSize, h.config, ?_⟩
    rw [if_neg (Create.next_ne_spawn hn x), h.spawn? hcr, h.calls, if_pos hcr]
    rfl
  · rw [Thread.spawn_none hs, Option.toList_none, List.append_nil]
    obtain ⟨r, rfl, hn, rfl⟩ | ⟨r, -, -, rfl⟩ | ⟨r, -, -, rfl⟩ | ⟨k, d, -, rfl⟩ := hc
    · exact h.of_creation rfl hname hstack
        (iff_of_false (Create.next_ne_spawn hn x) fun hc => hs ⟨rfl, hc⟩)
    all_goals exact h.of_creation rfl hname hstack Iff.rfl

end Thread.Called

end Spawns

/-! ## Creations of a manager -/

/-- A manager, and how many objects the process has made. -/
structure Desk (V : Type) where
  world : World V
  made : Nat
  refusals : List ErrorKind

inductive Order (V : Type) where
  | create (a : Attributes)
  /-- Another manager makes an object. -/
  | elsewhere
  | move (m : Move V)

namespace Desk

def opened (capacity : Nat) : Desk V := ⟨.initial capacity, 0, []⟩

def step? (limits : ThreadLimits) : Order V → Desk V → Option (Desk V)
  | .create a, d =>
    match Create.request limits a (d.made + 1) with
    | .error e => some { d with refusals := d.refusals ++ [e] }
    | .ok r => (World.move? (.create r) d.world).map fun w => ⟨w, d.made + 1, d.refusals⟩
  | .elsewhere, d => some { d with made := d.made + 1 }
  | .move (.create _), _ => none
  | .move m, d => (World.move? m d.world).map fun w => { d with world := w }

def spawns (id : ObjectId) (d : Desk V) : Order V → List SpawnConfig
  | .move (.act q p _) =>
    if q = id then ((d.world.threads id).bind fun th => th.spawn? id p).toList else []
  | _ => []

variable {limits : ThreadLimits} {d d' : Desk V} {o : Order V} {id : ObjectId} {a : Attributes}

theorem create_cases (h : step? limits (.create a) d = some d') :
    d' = { d with refusals := d.refusals ++ [.invalidParameter] } ∨
    ∃ r, r.id = d.made + 1 ∧ World.move? (.create r) d.world = some d'.world ∧
      d'.made = d.made + 1 := by
  by_cases ha : a.Admissible limits
  · have hr := Attributes.resolve_admissible ha
    simp only [step?, Create.request, hr, Except.map] at h
    obtain ⟨w, hw, rfl⟩ := Option.map_eq_some_iff.mp h
    exact .inr ⟨_, rfl, hw, rfl⟩
  · have hr := Attributes.resolve_inadmissible ha
    simp only [step?, Create.request, hr, Except.map, Option.some.injEq] at h
    exact .inl h.symm

theorem move_cases {m : Move V} (h : step? limits (.move m) d = some d') :
    World.move? m d.world = some d'.world ∧ d'.made = d.made ∧ ∀ r, m ≠ .create r := by
  cases m with
  | create r => cases h
  | _ =>
    obtain ⟨w, hw, rfl⟩ := Option.map_eq_some_iff.mp h
    exact ⟨hw, rfl, nofun⟩

def Counted (d : Desk V) : Prop := ∀ id, (d.world.threads id).isSome = true → id ≤ d.made

theorem counted_opened (capacity : Nat) : (opened capacity : Desk V).Counted :=
  fun _ h => nomatch (show false = true from h)

theorem counted_step (hd : d.Counted) (h : step? limits o d = some d') : d'.Counted := by
  intro id hid
  cases o with
  | create a =>
    obtain rfl | ⟨r, hr, hw, hm⟩ := create_cases h
    · exact hd id hid
    · rw [hm]
      obtain ⟨hu, -⟩ | ⟨ht, -⟩ := World.move_target hw id
      · exact Nat.le_succ_of_le (hd id (hu ▸ hid))
      · exact Nat.le_of_eq (ht.symm.trans hr)
  | elsewhere =>
    cases h
    exact Nat.le_succ_of_le (hd id hid)
  | move m =>
    obtain ⟨hw, hm, hc⟩ := move_cases h
    rw [hm]
    refine hd id ?_
    obtain ⟨hu, -⟩ | ⟨-, th, t, hmoved, -⟩ := World.move_target hw id
    · exact hu ▸ hid
    · cases hw : d.world.threads id with
      | some _ => rfl
      | none =>
        rw [hw] at hmoved
        cases hmoved
        exact absurd rfl (hc _)

def Served (id : ObjectId) (c : SpawnConfig) (d : Desk V) (l : List SpawnConfig) : Prop :=
  id ≤ d.made ∧ ∃ th, d.world.threads id = some th ∧ th.Called c l

theorem served_step {c : SpawnConfig} {l : List SpawnConfig} (hd : Served id c d l)
    (h : step? limits o d = some d') : Served id c d' (l ++ spawns id d o) := by
  obtain ⟨hle, th, ht, hc⟩ := hd
  have same : d'.world.threads id = d.world.threads id → d.made ≤ d'.made →
      Served id c d' (l ++ []) := fun hs hm => by
    rw [List.append_nil]
    exact ⟨Nat.le_trans hle hm, th, hs.trans ht, hc⟩
  have uncalled {th' : Thread V} (hc : th'.Called c l) : th'.Called c (l ++ []) := by
    rwa [List.append_nil]
  cases o with
  | create a =>
    obtain rfl | ⟨r, hr, hw, hm⟩ := create_cases h
    · exact same rfl (Nat.le_refl _)
    -- A new object has a number above all that have been given out, so it is another one.
    · obtain ⟨hu, -⟩ | ⟨hi, -⟩ := World.move_target hw id
      · exact same hu (hm ▸ Nat.le_succ _)
      · rw [← hi, Move.target, hr] at hle
        exact absurd hle (Nat.not_succ_le_self _)
  | elsewhere =>
    cases h
    exact same rfl (Nat.le_succ _)
  | move m =>
    obtain ⟨hw, hm, hcr⟩ := move_cases h
    obtain ⟨hu, hi⟩ | ⟨hi, th', t, hmoved, hu⟩ := World.move_target hw id
    · have hn : spawns id d (.move m) = [] := by
        cases m with
        | act q p e => exact if_neg hi
        | _ => rfl
      rw [hn]
      exact same hu (Nat.le_of_eq hm.symm)
    · rw [ht] at hmoved
      have ht' : d'.world.threads id = some th' := by
        rw [hu]
        exact World.threads_put ..
      refine ⟨hm ▸ hle, th', ht', ?_⟩
      cases hmoved with
      | begin hb =>
        obtain ⟨-, -, ⟨k, -, rfl⟩ | ⟨-, w, -, rfl⟩⟩ := Thread.begin_cases hb
        · exact uncalled (hc.of_creation rfl rfl rfl Iff.rfl)
        · exact uncalled (hc.of_creation rfl rfl rfl Iff.rfl)
      | act hp =>
        rw [Move.target] at hi
        subst hi
        rw [spawns, if_pos rfl, ht, Option.bind_some]
        exact hc.perform hp
      | finish hf =>
        obtain ⟨w, -, rfl⟩ | ⟨k, d, -, -, rfl⟩ := Thread.finish_cases hf
        · exact uncalled (hc.of_creation rfl rfl rfl Iff.rfl)
        · exact uncalled (hc.of_creation rfl rfl rfl Iff.rfl)

theorem served_run {os : List (Order V)} {c : SpawnConfig} (hd : Served id c d [])
    (h : run? (step? limits) os d = some d') :
    Served id c d' (transcript (step? limits) (spawns id) os d) :=
  run_keeps_transcript (P := fun _ => True) (fun _ _ _ _ hs hst _ => served_step hs hst) h
    (fun _ _ => trivial) hd

/-- A creation that has not called its spawn can, whatever is answered. -/
theorem can_spawn {th : Thread V} (ht : d.world.threads id = some th) (hc : th.creation = .spawn)
    (limits : ThreadLimits) (e : Setting V) :
    (step? limits (.move (.act id .creator e)) d).isSome = true := by
  simp [step?, World.move?, ht, Thread.perform?, Thread.next, hc, Create.next, Next.onto,
    Setting.effect, effect]

theorem create_refused (ha : ¬a.Admissible limits) (d : Desk V) :
    step? limits (.create a) d = some { d with refusals := d.refusals ++ [.invalidParameter] } := by
  simp only [step?, Create.request, Attributes.resolve_inadmissible ha, Except.map]

theorem create_accepted (ha : a.Admissible limits) (hd : d.Counted) :
    ∃ d', step? limits (.create a) d = some d' ∧ d'.made = d.made + 1 ∧
      d'.refusals = d.refusals ∧ d'.world.table = d.world.table ∧
      Served (d.made + 1) (.ofAttributes a limits) d' [] := by
  have hnew : d.world.threads (d.made + 1) = none := by
    cases hw : d.world.threads (d.made + 1) with
    | none => rfl
    | some th => exact absurd (hd _ (by rw [hw]; rfl)) (Nat.not_succ_le_self _)
  refine ⟨⟨d.world.put (d.made + 1) _ d.world.table, d.made + 1, d.refusals⟩, ?_, rfl, rfl, rfl,
    Nat.le_refl _, _, World.threads_put .., .new a (d.made + 1)⟩
  simp only [step?, Create.request, Attributes.resolve_admissible ha, Except.map, World.move?, hnew,
    Option.map_some]
  rfl

/-- Attributes are let through exactly if the name that they come to has no null
character and the stack that they come to is of unknown size or within the limits.
Otherwise the creation answers that they are invalid, and nothing else has
changed. One that is let through makes the next object, and calls the backend's
spawn for it once, with that name, that stack size and the native priority of the
level. The object, which handles report from, keeps name and stack size. The name is
never empty, the priority is in the backend's range if that is one, and attributes
that have been resolved are not changed again. -/
theorem creations_are_validated {capacity : Nat} {os : List (Order V)}
    (h : run? (step? limits) os (opened capacity) = some d) (a : Attributes) :
    (¬a.Admissible limits → step? limits (.create a) d =
      some { d with refusals := d.refusals ++ [.invalidParameter] }) ∧
    (a.Admissible limits → ∃ d', step? limits (.create a) d = some d' ∧ d'.made = d.made + 1 ∧
      d'.refusals = d.refusals ∧ d'.world.table = d.world.table ∧
      ∀ ps u, run? (step? limits) ps d' = some u → ∃ th, u.world.threads d'.made = some th ∧
        th.shared.object.name = a.effectiveName ∧
        th.shared.object.stackSize = a.effectiveStack limits ∧
        (if th.creation = .spawn then transcript (step? limits) (spawns d'.made) ps d' = [] ∧
          th.spawn? d'.made .creator = some (.ofAttributes a limits) ∧
          ∀ e, (step? limits (.move (.act d'.made .creator e)) u).isSome = true
        else transcript (step? limits) (spawns d'.made) ps d' = [.ofAttributes a limits])) ∧
    a.effectiveName ≠ "" ∧
    (limits.minPriority ≤ limits.maxPriority →
      limits.minPriority ≤ a.priority.toNative limits ∧
        a.priority.toNative limits ≤ limits.maxPriority) ∧
    ∀ b, a.resolve limits = .ok b → b.resolve limits = .ok b := by
  have hd : d.Counted := run_keeps (fun _ _ _ hd hst => counted_step hd hst) h (counted_opened _)
  refine ⟨fun ha => create_refused ha d, fun ha => ?_, a.effectiveName_ne_empty, fun hl => ⟨?_, ?_⟩,
    fun b => Attributes.resolve_again⟩
  · obtain ⟨d', hst, hm, hr, ht, hs⟩ := create_accepted ha hd
    refine ⟨d', hst, hm, hr, ht, fun ps u hu => ?_⟩
    rw [← hm] at hs
    obtain ⟨-, th, hth, hc⟩ := served_run hs hu
    refine ⟨th, hth, hc.name, hc.stackSize, ?_⟩
    have hcalls := hc.calls
    split
    next hp =>
      rw [if_pos hp] at hcalls
      exact ⟨hcalls, hc.spawn? hp, can_spawn hth hp limits⟩
    next hp => rwa [if_neg hp] at hcalls
  · rw [← Priority.toNative_low limits]
    exact Priority.toNative_rising hl (Priority.low_first _)
  · rw [← Priority.toNative_realtime limits]
    exact Priority.toNative_rising hl (Priority.realtime_last _)

def smallLimits : ThreadLimits := ⟨128, 49152, 512, 0, 4⟩

def cramped : Attributes := ⟨.high, 64, "worker"⟩

def unnamed : Attributes := ⟨.realtime, 0, ""⟩

theorem unnamed_is_validated : ∃ d d' u : Desk Unit,
    run? (step? smallLimits) [.create cramped, .elsewhere] (opened 2) = some d ∧
    step? smallLimits (.create cramped) d =
      some { d with refusals := d.refusals ++ [.invalidParameter] } ∧
    step? smallLimits (.create unnamed) d = some d' ∧ d'.made = 2 ∧
    run? (step? smallLimits) [.move (.act 2 .creator Oracle.agreeable.steady)] d' = some u ∧
    transcript (step? smallLimits) (spawns 2)
      [.move (.act 2 .creator Oracle.agreeable.steady)] d' = [⟨"tt_thread", 512, 4⟩] := by
  have ⟨d, d', u, h, hst, hm, hu, hc⟩ : ∃ d d' u : Desk Unit,
      run? (step? smallLimits) [.create cramped, .elsewhere] (opened 2) = some d ∧
      step? smallLimits (.create unnamed) d = some d' ∧ d'.made = 2 ∧
      run? (step? smallLimits) [.move (.act 2 .creator Oracle.agreeable.steady)] d' = some u ∧
      (u.world.threads 2).map Thread.creation = some (.bind ⟨1, 1⟩) :=
    ⟨_, _, _, rfl, rfl, rfl, rfl, rfl⟩
  have hbad : ¬cramped.Admissible smallLimits := fun h => absurd h.2 (by decide)
  have hgood : unnamed.Admissible smallLimits := ⟨by decide, .inr ⟨by decide, fun _ => by decide⟩⟩
  refine ⟨d, d', u, h, (creations_are_validated h cramped).1 hbad, hst, hm, hu, ?_⟩
  obtain ⟨d₂, hst₂, -, -, -, hall⟩ := (creations_are_validated h unnamed).2.1 hgood
  cases hst.symm.trans hst₂
  obtain ⟨th, ht, -, -, hcalls⟩ := hall _ u hu
  rw [hm] at ht hcalls
  rw [ht] at hc
  rw [if_neg (fun hs => by rw [Option.map_some, hs] at hc; cases hc)] at hcalls
  exact hcalls

end Desk

end Manager

end SyncCore

import Mathlib.Data.Finset.Card
import Mathlib.Data.Fintype.Basic
import Mathlib.Order.Interval.Finset.Nat
import SyncCore.Proofs.Backend.Parking

/-!
# Spawns that are made to fail

A backend is told to refuse the next spawns, and any number of calls are made on
clones of it at once. A spawn looks at the count that is left and lowers it in two
actions, so two spawns may look before either has lowered it. Never fewer spawns
are refused than asked for, and more exactly if two of them have found the same
count. All other calls go on as if no spawn were to be refused.
-/

set_option autoImplicit false

namespace SyncCore.Mock

namespace Pc

def unlooked : Pc → Bool
  | .spawnLoad _ _ _ => true
  | _ => false

def lowering : Pc → Bool
  | .spawnRefuse _ => true
  | _ => false

def refused : Pc → Bool
  | .spawnRefuse _ => true
  | .done (.outcome (.error .unknown)) => true
  | _ => false

theorem refused_of_lowering {pc : Pc} (h : pc.lowering = true) : pc.refused = true := by
  cases pc <;> first | rfl | cases h

theorem refused_of_unlooked {pc : Pc} (h : pc.unlooked = true) : pc.refused = false := by
  cases pc <;> first | rfl | cases h

end Pc

def State.spared (s : State) : State := { s with failing := 0 }

/-! ## What an action has to do with the count -/

/-- One action of a call, told by the count. -/
inductive Counting (s : State) : Pc → State → Pc → Prop where
  | refuse {pc : Pc} : pc.unlooked = true → s.failing ≠ 0 →
    Counting s pc s (.spawnRefuse (s.failing - 1))
  | pass {pc pc' : Pc} : pc.unlooked = true → s.failing = 0 → pc'.unlooked = false →
    pc'.refused = false → Counting s pc s pc'
  | lower {left : UInt32} :
    Counting s (.spawnRefuse left) { s with failing := left } (failed .unknown)
  | aside {s' : State} {pc pc' : Pc} : pc.unlooked = false → pc.refused = false →
    pc'.unlooked = false → pc'.refused = false → s'.failing = s.failing → Counting s pc s' pc'

section Actions

variable {info : PlatformInfo} {own : TaskId} {me : Nat} {h : Host} {s s' : State} {pc pc' : Pc}

theorem checkpoint_aside (own : TaskId) (k : Onward) :
    (checkpoint own k).unlooked = false ∧ (checkpoint own k).refused = false := by
  unfold checkpoint
  split
  · cases k <;> exact ⟨rfl, rfl⟩
  · exact ⟨rfl, rfl⟩

theorem start_unrefused (info : PlatformInfo) (own : TaskId) (q : Request) :
    (start info own q).refused = false := by
  cases q with
  | spawn => rfl
  | detach => rfl
  | sleep ms => exact (checkpoint_aside own _).2
  | yield => exact (checkpoint_aside own _).2
  | _ =>
    simp only [start]
    split <;> rfl

theorem counting_of_step (hst : (next info own).step? (served me h) pc s = some (pc', s')) :
    Counting s pc s' pc' := by
  obtain ⟨a, resume, x, hn, he, rfl⟩ := Machine.step_cases hst
  cases pc with
  | spawnLoad name stackSize n =>
    cases hn
    cases he
    by_cases hz : s.failing = 0
    · have hn : ¬s.failing > 0 := by simp [hz]
      simp only [if_neg hn]
      refine .pass rfl hz ?_ ?_ <;> split <;> rfl
    · have hp : s.failing > 0 := UInt32.pos_iff_ne_zero.mpr hz
      simp only [if_pos hp]
      exact .refuse rfl hz
  | spawnRefuse left => cases hn; cases he; exact .lower
  | enter u =>
    cases hn
    obtain ⟨-, he⟩ := Option.ite_none_right_eq_some.mp he
    cases he
    exact .aside rfl rfl rfl rfl rfl
  | checkEnter k =>
    cases hn
    obtain ⟨-, he⟩ := Option.ite_none_right_eq_some.mp he
    cases he
    exact .aside rfl rfl rfl rfl rfl
  | checkWake k =>
    cases hn
    obtain ⟨-, he⟩ := Option.ite_none_left_eq_some.mp he
    cases he
    exact .aside rfl rfl rfl rfl rfl
  | pause ms =>
    cases hn
    cases he
    exact .aside rfl rfl (checkpoint_aside own _).1 (checkpoint_aside own _).2 rfl
  | record c => cases hn; cases he; cases c <;> exact .aside rfl rfl rfl rfl rfl
  | leave u known =>
    cases hn
    cases he
    cases u with
    | suspended t b => cases b <;> cases known <;> exact .aside rfl rfl rfl rfl rfl
    | _ => cases known <;> exact .aside rfl rfl rfl rfl rfl
  | checkLeave k => cases k <;> cases hn <;> cases he <;> exact .aside rfl rfl rfl rfl rfl
  | spawnStart | joinTake | await | checkLook =>
    cases hn
    cases he
    refine .aside rfl rfl ?_ ?_ rfl <;> simp only <;> split <;> rfl
  | done r => cases hn
  | _ => cases hn; cases he; exact .aside rfl rfl rfl rfl rfl

theorem effect_spared {a : SharedAction} {x : a.Answer}
    (hl : a = .loadFailing → s.failing = 0) (hs : ∀ n, a ≠ .storeFailing n)
    (he : effect me a s = some (x, s')) : effect me a s.spared = some (x, s'.spared) := by
  cases a with
  | loadFailing =>
    cases he
    rw [effect, State.spared, hl rfl]
  | storeFailing n => exact absurd rfl (hs n)
  | enter =>
    obtain ⟨hi, he⟩ := Option.ite_none_right_eq_some.mp he
    cases he
    exact if_pos hi
  | wake =>
    obtain ⟨hi, he⟩ := Option.ite_none_left_eq_some.mp he
    cases he
    exact if_neg hi
  | _ =>
    cases he
    rfl

/-- A call that is not refused does not depend on the count. -/
theorem step_spared (hp : pc.lowering = false) (hz : pc.unlooked = true → s.failing = 0)
    (hst : (next info own).step? (served me h) pc s = some (pc', s')) :
    (next info own).step? (served me h) pc s.spared = some (pc', s'.spared) := by
  obtain ⟨a, resume, x, hn, he, rfl⟩ := Machine.step_cases hst
  have hsp : served me h a s.spared = some (x, s'.spared) := by
    cases a with
    | host a =>
      cases he
      rfl
    | shared a =>
      refine effect_spared (fun ha => hz ?_) (fun n ha => ?_) he
      · subst ha
        cases pc with
        | spawnLoad => rfl
        | checkLeave k => cases k <;> cases hn
        | _ => cases hn
      · subst ha
        cases pc with
        | spawnRefuse => cases hp
        | checkLeave k => cases k <;> cases hn
        | _ => cases hn
  simp only [Machine.step?, hn, hsp, Option.map_some]

end Actions

/-! ## Calls that are made at once -/

/-- Calls on clones of one platform, each made once, and the counts that those of
them that are spawns have found. -/
structure Rush (n : Nat) where
  shared : State
  calls : Fin n → Errand
  found : Fin n → Option Nat

namespace Rush

variable {n : Nat}

inductive Move (n : Nat) where
  | act (i : Fin n) (h : Host)
  | stir (i : Fin n)
  deriving DecidableEq

/-- The given number of spawns are to be refused, and the given calls are made, each
on a clone with its own description. Call `i` is made by a thread of the task `task i`. -/
def opened (task : Fin n → TaskId) (s : State) (count : UInt32)
    (made : Fin n → PlatformInfo × Request) : Rush n :=
  ⟨{ s with failing := count },
    fun i => ⟨(made i).1, (made i).2, start (made i).1 (task i) (made i).2⟩, fun _ => none⟩

def step? (task : Fin n → TaskId) : Move n → Rush n → Option (Rush n)
  | .act i h, s =>
    ((next (s.calls i).info (task i)).step? (served i h) (s.calls i).pc s.shared).map fun r =>
      { shared := r.2
        calls := Function.update s.calls i { s.calls i with pc := r.1 }
        found :=
          if (s.calls i).pc.unlooked then
            Function.update s.found i (some s.shared.failing.toNat)
          else s.found }
  | .stir i, s =>
    if i.val ∈ s.shared.sleepers then
      some { s with shared := { s.shared with sleepers := s.shared.sleepers.erase i } }
    else none

def refused (s : Rush n) : Finset (Fin n) := Finset.univ.filter fun i => (s.calls i).pc.refused

def started (s : Rush n) : Finset (Fin n) := Finset.univ.filter fun i => (s.found i).isSome

def FoundOnce (s : Rush n) : Prop :=
  ∀ i j v, 0 < v → s.found i = some v → s.found j = some v → i = j

/-- No spawn looks at the count while another one is about to lower it. -/
def Apart (s : Rush n) : Move n → Rush n → Prop
  | .act i _, _ => (s.calls i).pc.unlooked = true → ∀ j, (s.calls j).pc.lowering = false
  | .stir _, _ => True

instance (s : Rush n) : (c : Move n) → (t : Rush n) → Decidable (s.Apart c t)
  | .act i _, _ => inferInstanceAs
      (Decidable ((s.calls i).pc.unlooked = true → ∀ j, (s.calls j).pc.lowering = false))
  | .stir _, _ => .isTrue trivial

variable {task : Fin n → TaskId} {s t u : Rush n} {count : Nat}

theorem mem_refused {i : Fin n} : i ∈ s.refused ↔ (s.calls i).pc.refused = true := by
  simp [refused]

theorem mem_started {i : Fin n} : i ∈ s.started ↔ ∃ v, s.found i = some v := by
  simp [started, Option.isSome_iff_exists]

theorem act_cases {i : Fin n} {h : Host} (hst : step? task (.act i h) s = some t) :
    ∃ pc l, (next (s.calls i).info (task i)).step? (served i h) (s.calls i).pc s.shared =
        some (pc, l) ∧
      t = ⟨l, Function.update s.calls i { s.calls i with pc },
        if (s.calls i).pc.unlooked then Function.update s.found i (some s.shared.failing.toNat)
        else s.found⟩ := by
  obtain ⟨⟨pc, l⟩, hn, rfl⟩ := Option.map_eq_some_iff.mp hst
  exact ⟨pc, l, hn, rfl⟩

theorem stir_cases {i : Fin n} (hst : step? task (.stir i) s = some t) :
    i.val ∈ s.shared.sleepers ∧
      t = { s with shared := { s.shared with sleepers := s.shared.sleepers.erase i } } := by
  obtain ⟨hi, h⟩ := Option.ite_none_right_eq_some.mp hst
  exact ⟨hi, (Option.some.inj h).symm⟩

theorem lowered_toNat {c : UInt32} (h : c ≠ 0) : (c - 1).toNat + 1 = c.toNat := by
  have hc : c.toNat ≠ 0 := fun hz => h (UInt32.toNat_inj.mp hz)
  have hle : (1 : UInt32) ≤ c := UInt32.le_iff_toNat_le.mpr (Nat.one_le_iff_ne_zero.mpr hc)
  rw [UInt32.toNat_sub_of_le _ _ hle]
  exact Nat.sub_add_cancel (Nat.one_le_iff_ne_zero.mpr hc)

/-- The counts that have been found. Between the least of them that the count has
come down to and the first none is missing. -/
structure Numbered (count : Nat) (s : Rush n) : Prop where
  unlooked : ∀ i, (s.calls i).pc.unlooked = true → s.found i = none
  refused : ∀ i, (s.calls i).pc.refused = true ↔ ∃ v, s.found i = some v ∧ 0 < v
  lowering : ∀ i left, (s.calls i).pc = .spawnRefuse left → s.found i = some (left.toNat + 1)
  left : s.shared.failing.toNat ≤ count
  found : ∀ i v, s.found i = some v → v ≤ count
  reached : ∃ m ≤ s.shared.failing.toNat, (∀ i v, s.found i = some v → m ≤ v) ∧
    ∀ v, m < v → v ≤ count → ∃ i, s.found i = some v

namespace Numbered

theorem opened {c : UInt32} {state : State} {made : Fin n → PlatformInfo × Request} :
    Numbered c.toNat (opened task state c made) where
  unlooked := fun _ _ => rfl
  refused := fun i => by simp [Rush.opened, start_unrefused]
  lowering := fun i left h => by
    have hr := start_unrefused (made i).1 (task i) (made i).2
    rw [show start (made i).1 (task i) (made i).2 = .spawnRefuse left from h] at hr
    cases hr
  left := Nat.le_refl _
  found := fun _ _ h => nomatch h
  reached := ⟨c.toNat, Nat.le_refl _, fun _ _ h => (nomatch h),
    fun _ h hc => absurd hc (Nat.not_le.mpr h)⟩

theorem put (hs : Numbered count s) {i : Fin n} {e : Errand} {l : State} {o : Option Nat}
    (unlooked : e.pc.unlooked = true → o = none)
    (refused : e.pc.refused = true ↔ ∃ v, o = some v ∧ 0 < v)
    (lowering : ∀ left, e.pc = .spawnRefuse left → o = some (left.toNat + 1))
    (left : l.failing.toNat ≤ count) (found : ∀ v, o = some v → v ≤ count)
    (kept : ∀ v, s.found i = some v → o = some v)
    (reached : ∃ m ≤ l.failing.toNat, (∀ v, o = some v → m ≤ v) ∧
      (∀ j v, s.found j = some v → m ≤ v) ∧
      ∀ v, m < v → v ≤ count → o = some v ∨ ∃ j, s.found j = some v) :
    Numbered count ⟨l, Function.update s.calls i e, Function.update s.found i o⟩ where
  unlooked := fun j => by
    by_cases hj : j = i
    · subst hj
      simpa using unlooked
    · simpa [hj] using hs.unlooked j
  refused := fun j => by
    by_cases hj : j = i
    · subst hj
      simpa using refused
    · simpa [hj] using hs.refused j
  lowering := fun j => by
    by_cases hj : j = i
    · subst hj
      simpa using lowering
    · simpa [hj] using hs.lowering j
  left := left
  found := fun j => by
    by_cases hj : j = i
    · subst hj
      simpa using found
    · simpa [hj] using hs.found j
  reached := by
    obtain ⟨m, hm, ho, hf, hv⟩ := reached
    refine ⟨m, hm, fun j v h => ?_, fun v hlt hle => ?_⟩
    · by_cases hj : j = i
      · subst hj
        exact ho v (by simpa using h)
      · exact hf j v (by simpa [hj] using h)
    · obtain h | ⟨j, h⟩ := hv v hlt hle
      · exact ⟨i, by simpa using h⟩
      · by_cases hj : j = i
        · subst hj
          exact ⟨j, by simpa using kept v h⟩
        · exact ⟨j, by simpa [hj] using h⟩

theorem turn (hs : Numbered count s) {i : Fin n} {pc : Pc} {l : State}
    (hc : Counting s.shared (s.calls i).pc l pc) :
    Numbered count ⟨l, Function.update s.calls i { s.calls i with pc },
      if (s.calls i).pc.unlooked then Function.update s.found i (some s.shared.failing.toNat)
      else s.found⟩ := by
  obtain ⟨m, hm, hf, hv⟩ := hs.reached
  generalize hp : (s.calls i).pc = pc₀ at hc
  have keep : ∀ (b : Bool), b = false →
      (if b then Function.update s.found i (some s.shared.failing.toNat) else s.found) =
        Function.update s.found i (s.found i) := fun b hb => by simp [hb]
  have fresh : pc₀.unlooked = true → ∀ v, s.found i = some v →
      some s.shared.failing.toNat = some v := fun hu v h => by
    cases (hs.unlooked i (hp ▸ hu)).symm.trans h
  have looked : ∃ m ≤ s.shared.failing.toNat,
      (∀ v, some s.shared.failing.toNat = some v → m ≤ v) ∧
      (∀ j v, s.found j = some v → m ≤ v) ∧
      ∀ v, m < v → v ≤ count → some s.shared.failing.toNat = some v ∨ ∃ j, s.found j = some v :=
    ⟨m, hm, fun v h => Option.some.inj h ▸ hm, hf, fun v h hle => .inr (hv v h hle)⟩
  have bounded : ∀ v, some s.shared.failing.toNat = some v → v ≤ count :=
    fun v h => Option.some.inj h ▸ hs.left
  cases hc with
  | refuse hu hz =>
    have hpos : 0 < s.shared.failing.toNat := UInt32.pos_iff_ne_zero.mpr hz
    rw [if_pos hu]
    refine hs.put nofun ?_ ?_ hs.left bounded (fresh hu) looked
    · exact ⟨fun _ => ⟨_, rfl, hpos⟩, fun _ => rfl⟩
    · rintro left ⟨⟩
      rw [lowered_toNat hz]
  | pass hu hz hu' hr' =>
    rw [if_pos hu]
    refine hs.put (by simp [hu']) ?_ ?_ hs.left bounded (fresh hu) looked
    · simp [hr', hz]
    · intro left hl
      rw [show pc = .spawnRefuse left from hl] at hr'
      cases hr'
  | @lower left =>
    have hi := hs.lowering i left hp
    rw [keep (Pc.unlooked (.spawnRefuse left)) rfl]
    have hle := hs.found i _ hi
    refine hs.put nofun ?_ nofun (Nat.le_of_succ_le hle) (hs.found i) (fun _ h => h) ?_
    · exact ⟨fun _ => ⟨_, hi, Nat.succ_pos _⟩, fun _ => rfl⟩
    · -- Either the count has come down further before, or it comes down by one more.
      have hmi := hf i _ hi
      by_cases hml : m ≤ left.toNat
      · exact ⟨m, hml, hf i, hf, fun v h hle => .inr (hv v h hle)⟩
      · have he : m = left.toNat + 1 := by omega
        refine ⟨left.toNat, Nat.le_refl _, fun v h => ?_, fun j v h => ?_, fun v h hc => ?_⟩
        · have := hf i v h
          omega
        · have := hf j v h
          omega
        · obtain rfl | hlt := Nat.eq_or_lt_of_le h
          · exact .inl hi
          · exact .inr (hv v (by omega) hc)
  | aside hu hr hu' hr' hl =>
    rw [keep _ hu]
    refine hs.put (by simp [hu']) ?_ ?_ (hl ▸ hs.left) (hs.found i) (fun _ h => h) ?_
    · have h := hs.refused i
      rw [hp, hr] at h
      simpa [hr'] using h
    · intro left h
      rw [show pc = .spawnRefuse left from h] at hr'
      cases hr'
    · exact ⟨m, hl ▸ hm, hf i, hf, fun v h hle => .inr (hv v h hle)⟩

theorem step {c : Move n} (hs : Numbered count s) (h : step? task c s = some t) :
    Numbered count t := by
  cases c with
  | act i h' =>
    obtain ⟨pc, l, hst, rfl⟩ := act_cases h
    exact hs.turn (counting_of_step hst)
  | stir i =>
    obtain ⟨-, rfl⟩ := stir_cases h
    exact ⟨hs.unlooked, hs.refused, hs.lowering, hs.left, hs.found, hs.reached⟩

/-- A spawn that has found none to be refused comes after spawns that have found
all the counts before. -/
theorem all_found (hs : Numbered count s) {i : Fin n} (hi : s.found i = some 0) :
    Finset.Icc 1 count ⊆ s.refused.image fun j => (s.found j).getD 0 := by
  intro v hv
  obtain ⟨hpos, hle⟩ := Finset.mem_Icc.mp hv
  obtain ⟨m, -, hf, hr⟩ := hs.reached
  have hm := hf i 0 hi
  obtain ⟨j, hj⟩ := hr v (Nat.lt_of_le_of_lt hm hpos) hle
  exact Finset.mem_image.mpr ⟨j, mem_refused.mpr ((hs.refused j).mpr ⟨v, hj, hpos⟩), by simp [hj]⟩

theorem refused_subset (hs : Numbered count s) : s.refused ⊆ s.started := fun i hi => by
  obtain ⟨v, hv, -⟩ := (hs.refused i).mp (mem_refused.mp hi)
  exact mem_started.mpr ⟨v, hv⟩

theorem refused_or_none (hs : Numbered count s) :
    s.refused = s.started ∨ ∃ i, s.found i = some 0 := by
  by_cases h : ∃ i, s.found i = some 0
  · exact .inr h
  · refine .inl (Finset.Subset.antisymm hs.refused_subset fun i hi => ?_)
    obtain ⟨v, hv⟩ := mem_started.mp hi
    have hpos : 0 < v := Nat.pos_of_ne_zero fun hz => h ⟨i, hz ▸ hv⟩
    exact mem_refused.mpr ((hs.refused i).mpr ⟨v, hv, hpos⟩)

theorem count_le (hs : Numbered count s) {i : Fin n} (hi : s.found i = some 0) :
    count ≤ s.refused.card := by
  have h := (Finset.card_le_card (hs.all_found hi)).trans Finset.card_image_le
  rwa [Nat.card_Icc, Nat.add_sub_cancel] at h

theorem enough (hs : Numbered count s) : min count s.started.card ≤ s.refused.card := by
  obtain h | ⟨i, hi⟩ := hs.refused_or_none
  · exact h ▸ Nat.min_le_right _ _
  · exact (Nat.min_le_left _ _).trans (hs.count_le hi)

theorem image_subset (hs : Numbered count s) :
    (s.refused.image fun j => (s.found j).getD 0) ⊆ Finset.Icc 1 count := by
  intro v hv
  obtain ⟨i, hi, rfl⟩ := Finset.mem_image.mp hv
  obtain ⟨v, hv, hpos⟩ := (hs.refused i).mp (mem_refused.mp hi)
  rw [hv, Option.getD_some]
  exact Finset.mem_Icc.mpr ⟨hpos, hs.found i v hv⟩

theorem foundOnce_iff (hs : Numbered count s) :
    s.FoundOnce ↔ Set.InjOn (fun j => (s.found j).getD 0) s.refused := by
  constructor
  · intro h i hi j hj he
    obtain ⟨v, hv, hpos⟩ := (hs.refused i).mp (mem_refused.mp hi)
    obtain ⟨w, hw, -⟩ := (hs.refused j).mp (mem_refused.mp hj)
    have he : v = w := by simpa [hv, hw] using he
    exact h i j v hpos hv (he ▸ hw)
  · intro h i j v hpos hi hj
    have mem : ∀ k, s.found k = some v → k ∈ s.refused := fun k hk =>
      mem_refused.mpr ((hs.refused k).mpr ⟨v, hk, hpos⟩)
    exact h (mem i hi) (mem j hj) (by simp [hi, hj])

/-- The number of refused spawns is exact unless a count has been found twice
and there have been more spawns than were to be refused. -/
theorem exact_iff (hs : Numbered count s) :
    s.refused.card = min count s.started.card ↔ s.started.card ≤ count ∨ s.FoundOnce := by
  have hle := Finset.card_le_card hs.refused_subset
  have himage := Finset.card_le_card hs.image_subset
  rw [Nat.card_Icc, Nat.add_sub_cancel] at himage
  have henough := hs.enough
  obtain h | ⟨i, hi⟩ := hs.refused_or_none
  · -- All of them are refused, so a count found twice shows in their number only.
    rw [h, hs.foundOnce_iff, eq_comm, min_eq_right_iff]
    refine ⟨.inl, fun ho => ho.elim id fun hinj => ?_⟩
    rw [← h, ← Finset.card_image_of_injOn hinj]
    exact himage
  · have hall := Finset.card_le_card (hs.all_found hi)
    rw [Nat.card_Icc, Nat.add_sub_cancel] at hall
    have hcard := Nat.le_antisymm himage hall
    have hlt : count < s.started.card := by
      have hni : i ∉ s.refused := fun hr => by
        obtain ⟨v, hv, hpos⟩ := (hs.refused i).mp (mem_refused.mp hr)
        cases hi.symm.trans hv
        exact absurd hpos (Nat.lt_irrefl 0)
      have hss : s.refused ⊂ s.started :=
        Finset.ssubset_iff_of_subset hs.refused_subset |>.mpr ⟨i, mem_started.mpr ⟨0, hi⟩, hni⟩
      exact Nat.lt_of_le_of_lt (hs.count_le hi) (Finset.card_lt_card hss)
    rw [Nat.min_eq_left hlt.le, hs.foundOnce_iff, ← Finset.card_image_iff, hcard, eq_comm]
    exact ⟨.inr, fun ho => ho.elim (fun hle => absurd hlt (Nat.not_lt.mpr hle)) id⟩

end Numbered

/-! ## Spawns that keep apart -/

/-- No count has been found twice, and a spawn that is about to lower the count has
found the one that is left. -/
structure Ordered (s : Rush n) : Prop where
  once : s.FoundOnce
  least : ∀ i v, 0 < v → s.found i = some v → s.shared.failing.toNat ≤ v
  last : ∀ i, s.shared.failing ≠ 0 → s.found i = some s.shared.failing.toNat →
    (s.calls i).pc.lowering = true
  next : ∀ i, (s.calls i).pc.lowering = true → s.found i = some s.shared.failing.toNat

namespace Ordered

theorem opened {c : UInt32} {state : State} {made : Fin n → PlatformInfo × Request} :
    Ordered (opened task state c made) where
  once := fun _ _ _ _ h => nomatch h
  least := fun _ _ _ h => nomatch h
  last := fun _ _ h => nomatch h
  next := fun i h => by
    have hr := start_unrefused (made i).1 (task i) (made i).2
    cases hr.symm.trans (Pc.refused_of_lowering h)

theorem put (hs : Ordered s) {i : Fin n} {e : Errand} {l : State} {o : Option Nat}
    (hl : l.failing = s.shared.failing)
    (found : ∀ v, 0 < v → o = some v → s.shared.failing.toNat ≤ v ∧
      ∀ j, j ≠ i → s.found j ≠ some v)
    (last : s.shared.failing ≠ 0 → o = some s.shared.failing.toNat → e.pc.lowering = true)
    (next : e.pc.lowering = true → o = some s.shared.failing.toNat) :
    Ordered ⟨l, Function.update s.calls i e, Function.update s.found i o⟩ where
  once := fun j k v hpos hj hk => by
    by_cases hji : j = i
    · subst hji
      by_cases hkj : k = j
      · exact hkj.symm
      · simp only [Function.update_self] at hj
        simp only [Function.update_of_ne hkj] at hk
        exact absurd hk ((found v hpos hj).2 k hkj)
    · simp only [Function.update_of_ne hji] at hj
      by_cases hki : k = i
      · subst hki
        simp only [Function.update_self] at hk
        exact absurd hj ((found v hpos hk).2 j hji)
      · simp only [Function.update_of_ne hki] at hk
        exact hs.once j k v hpos hj hk
  least := fun j v hpos hj => by
    rw [hl]
    by_cases hji : j = i
    · subst hji
      simp only [Function.update_self] at hj
      exact (found v hpos hj).1
    · simp only [Function.update_of_ne hji] at hj
      exact hs.least j v hpos hj
  last := fun j => by
    rw [hl]
    by_cases hji : j = i
    · subst hji
      simpa using last
    · simpa [hji] using hs.last j
  next := fun j => by
    rw [hl]
    by_cases hji : j = i
    · subst hji
      simpa using next
    · simpa [hji] using hs.next j

theorem turn (hn : Numbered count s) (hs : Ordered s) {i : Fin n} {pc : Pc} {l : State}
    (hc : Counting s.shared (s.calls i).pc l pc)
    (apart : (s.calls i).pc.unlooked = true → ∀ j, (s.calls j).pc.lowering = false) :
    Ordered ⟨l, Function.update s.calls i { s.calls i with pc },
      if (s.calls i).pc.unlooked then Function.update s.found i (some s.shared.failing.toNat)
      else s.found⟩ := by
  generalize hp : (s.calls i).pc = pc₀ at hc
  rw [hp] at apart
  cases hc with
  | refuse hu hz =>
    rw [if_pos hu]
    refine hs.put rfl ?_ (fun _ _ => rfl) (fun _ => rfl)
    rintro v - ⟨⟩
    refine ⟨Nat.le_refl _, fun j _ hj => ?_⟩
    -- Whoever has found the count that is left is about to lower it.
    exact absurd ((hs.last j hz hj).symm.trans (apart hu j)) (by simp)
  | pass hu hz hu' hr' =>
    rw [if_pos hu]
    refine hs.put rfl ?_ (fun h => absurd hz h) (fun h => absurd hr' ?_)
    · rintro v hpos ⟨⟩
      simp [hz] at hpos
    · simp [Pc.refused_of_lowering h]
  | @lower left =>
    have hi := hn.lowering i left hp
    have hnext := hs.next i (by rw [hp]; rfl)
    have he : s.shared.failing.toNat = left.toNat + 1 := Option.some.inj (hnext.symm.trans hi)
    rw [if_neg (by simp [Pc.unlooked])]
    constructor
    · exact hs.once
    · intro j v hpos hj
      exact Nat.le_of_succ_le (he.symm.le.trans (hs.least j v hpos hj))
    · intro j hz hj
      have := hs.least j left.toNat (UInt32.pos_iff_ne_zero.mpr hz) hj
      omega
    · intro j hj
      by_cases hji : j = i
      · subst hji
        simp [Pc.lowering, failed] at hj
      · have hj := hs.next j (by simpa [hji] using hj)
        exact absurd (hs.once j i _ (by omega) hj hnext) hji
  | aside hu hr hu' hr' hl =>
    rw [hu, if_neg (by simp), ← Function.update_eq_self i s.found]
    refine hs.put hl ?_ ?_ ?_
    · intro v hpos hv
      exact ⟨hs.least i v hpos hv, fun j hj hjv => hj (hs.once j i v hpos hjv hv)⟩
    · intro hz hf
      have hlow := hs.last i hz hf
      rw [hp] at hlow
      simp [Pc.refused_of_lowering hlow] at hr
    · intro h
      simp [Pc.refused_of_lowering h] at hr'

theorem step {c : Move n} (hn : Numbered count s) (hs : Ordered s) (h : step? task c s = some t)
    (hc : Apart s c t) : Ordered t := by
  cases c with
  | act i h' =>
    obtain ⟨pc, l, hst, rfl⟩ := act_cases h
    exact hs.turn hn (counting_of_step hst) hc
  | stir i =>
    obtain ⟨-, rfl⟩ := stir_cases h
    exact ⟨hs.once, hs.least, hs.last, hs.next⟩

end Ordered

/-! ## The other calls -/

/-- The run has not yet decided otherwise about the calls that are refused in the end. -/
structure Before (u s : Rush n) : Prop where
  refused : ∀ i ∈ u.refused, (s.calls i).pc.unlooked = true ∨ (s.calls i).pc.refused = true
  others : ∀ i ∉ u.refused, (s.calls i).pc.refused = false

/-- The run without the calls that are refused in the end and without spawns that are to
be refused. -/
structure Unrefused (u s r : Rush n) : Prop where
  shared : r.shared = s.shared.spared
  calls : ∀ i ∉ u.refused, r.calls i = s.calls i

def goesOn (u : Rush n) : Move n → Bool
  | .act i _ => i ∉ u.refused
  | .stir _ => true

theorem Before.refl (s : Rush n) : Before s s where
  refused := fun _ hi => .inr (mem_refused.mp hi)
  others := fun _ hi => Bool.eq_false_iff.mpr fun h => hi (mem_refused.mpr h)

theorem Before.back {c : Move n} (h : step? task c s = some t) (ht : Before u t) : Before u s := by
  cases c with
  | stir i =>
    obtain ⟨-, rfl⟩ := stir_cases h
    exact ⟨ht.refused, ht.others⟩
  | act i h' =>
    obtain ⟨pc, l, hst, rfl⟩ := act_cases h
    have hc := counting_of_step hst
    refine ⟨fun j hj => ?_, fun j hj => ?_⟩
    · have htj := ht.refused j hj
      by_cases hji : j = i
      · subst hji
        simp only [Function.update_self] at htj
        generalize (s.calls j).pc = pc₀ at hc
        cases hc with
        | refuse hu => exact .inl hu
        | pass _ _ hu' hr' => simp [hu', hr'] at htj
        | lower => exact .inr rfl
        | aside _ _ hu' hr' => simp [hu', hr'] at htj
      · simpa only [Function.update_of_ne hji] using htj
    · have htj := ht.others j hj
      by_cases hji : j = i
      · subst hji
        simp only [Function.update_self] at htj
        generalize (s.calls j).pc = pc₀ at hc
        cases hc with
        | refuse hu => exact Pc.refused_of_unlooked hu
        | pass hu => exact Pc.refused_of_unlooked hu
        | lower => cases htj
        | aside _ hr => exact hr
      · simpa only [Function.update_of_ne hji] using htj

namespace Unrefused

variable {r : Rush n} {c : Move n}

theorem skip (hr : Unrefused u s r) (h : step? task c s = some t) (hb : Before u s ∧ Before u t)
    (hc : u.goesOn c = false) : Unrefused u t r := by
  cases c with
  | stir => cases hc
  | act i h' =>
    have hi : i ∈ u.refused := by simpa [goesOn] using hc
    obtain ⟨pc, l, hst, rfl⟩ := act_cases h
    have hti := hb.2.refused i hi
    simp only [Function.update_self] at hti
    refine ⟨hr.shared.trans ?_, fun j hj => ?_⟩
    · have hc := counting_of_step hst
      have hsi := hb.1.refused i hi
      generalize (s.calls i).pc = pc₀ at hc hsi
      cases hc with
      | refuse => rfl
      | pass _ _ hu' hr' => simp [hu', hr'] at hti
      | lower => rfl
      | aside hu hr => simp [hu, hr] at hsi
    · have hji : j ≠ i := fun he => hj (he ▸ hi)
      simpa only [Function.update_of_ne hji] using hr.calls j hj

theorem take (hr : Unrefused u s r) (h : step? task c s = some t) (hb : Before u s ∧ Before u t)
    (hc : u.goesOn c = true) : ∃ v, step? task c r = some v ∧ Unrefused u t v := by
  cases c with
  | stir i =>
    obtain ⟨hi, rfl⟩ := stir_cases h
    refine ⟨{ r with shared := { r.shared with sleepers := r.shared.sleepers.erase i } },
      if_pos (by rw [hr.shared]; exact hi), ?_, hr.calls⟩
    simp only [hr.shared]
    rfl
  | act i h' =>
    have hi : i ∉ u.refused := by simpa [goesOn] using hc
    obtain ⟨pc, l, hst, rfl⟩ := act_cases h
    have hlow : (s.calls i).pc.lowering = false :=
      Bool.eq_false_iff.mpr fun hl => by
        cases (hb.1.others i hi).symm.trans (Pc.refused_of_lowering hl)
    -- If it had found some to be refused, it would be refused now.
    have hz : (s.calls i).pc.unlooked = true → s.shared.failing = 0 := fun hu => by
      have hti := hb.2.others i hi
      simp only [Function.update_self] at hti
      have hc := counting_of_step hst
      generalize (s.calls i).pc = pc₀ at hc hu
      cases hc with
      | refuse => cases hti
      | pass _ hz => exact hz
      | lower => cases hu
      | aside hu' => cases hu.symm.trans hu'
    have hst := step_spared hlow hz hst
    refine ⟨⟨l.spared, Function.update r.calls i { r.calls i with pc },
      if (r.calls i).pc.unlooked then Function.update r.found i (some r.shared.failing.toNat)
      else r.found⟩, ?_, rfl, fun j hj => ?_⟩
    · simp only [step?, hr.calls i hi, hr.shared, hst, Option.map_some]
    · by_cases hji : j = i
      · subst hji
        simp only [Function.update_self, hr.calls j hj]
      · simpa only [Function.update_of_ne hji] using hr.calls j hj

end Unrefused

/-- Of the spawns that are made once `count` of them are to be refused, no fewer are
refused, and no more unless two of them have found the same count, which does not
happen to spawns that keep apart. All other calls take the same course, with the same
answers, as if no spawn were to be refused and those that are had not been made. -/
theorem refusals_exact_iff {count : UInt32} {state : State}
    {made : Fin n → PlatformInfo × Request} {cs : List (Move n)}
    (h : run? (step? task) cs (opened task state count made) = some u) :
    min count.toNat u.started.card ≤ u.refused.card ∧
    (u.refused.card = min count.toNat u.started.card ↔
      u.started.card ≤ count.toNat ∨ u.FoundOnce) ∧
    (Throughout (step? task) Apart cs (opened task state count made) → u.FoundOnce) ∧
    ∃ v, run? (step? task) (cs.filter u.goesOn) (opened task state 0 made) = some v ∧
      v.shared = u.shared.spared ∧ ∀ i ∉ u.refused, v.calls i = u.calls i := by
  have hn : Numbered count.toNat u :=
    run_keeps (fun _ _ _ hs hst => hs.step hst) h Numbered.opened
  refine ⟨hn.enough, hn.exact_iff, fun ha => ?_, ?_⟩
  · have ho := run_keeps_throughout (I := fun s => Numbered count.toNat s ∧ Ordered s)
      (fun s c t hs hst hc => ⟨hs.1.step hst, hs.2.step hs.1 hst hc⟩) h ha
      ⟨Numbered.opened, Ordered.opened⟩
    exact ho.2.once
  · have hb := (throughout_of_back (fun _ _ _ => Before.back) h (Before.refl u)).2
    have hrun : ∃ v, run? (step? task) (cs.filter u.goesOn) (opened task state 0 made) = some v ∧
        Unrefused u u v :=
      run_filter (fun _ _ _ _ hr hst hb hc => hr.skip hst hb hc)
        (fun _ _ _ _ hr hst hb hc => hr.take hst hb hc) h hb ⟨rfl, fun _ _ => rfl⟩
    obtain ⟨v, hv, hr⟩ := hrun
    exact ⟨v, hv, hr.shared, hr.calls⟩

def granted : Host := ⟨true, true, true⟩

def oneRefused (made : Fin n → PlatformInfo × Request) : Rush n :=
  opened (fun _ => 0) .initial 1 made

/-- Two spawns, and a task that the second of them starts is suspended. -/
def twoAndSuspend : Fin 3 → PlatformInfo × Request
  | 0 => (defaultInfo, .spawn "first" 512 2)
  | 1 => (defaultInfo, .spawn "second" 512 2)
  | 2 => (defaultInfo, .suspend 1)

def inTurn : List (Move 3) :=
  List.replicate 2 (.act 0 granted) ++ List.replicate 7 (.act 1 granted) ++
    List.replicate 4 (.act 2 granted)

theorem second_spawn_unaffected : ∃ u,
    run? (step? fun _ => 0) inTurn (oneRefused twoAndSuspend) = some u ∧
    u.refused.card = min 1 u.started.card ∧ u.started.card = 2 ∧
    ∃ v, run? (step? fun _ => 0) (inTurn.filter u.goesOn)
        (opened (fun _ => 0) .initial 0 twoAndSuspend) = some v ∧
      v.shared = u.shared.spared ∧ (v.calls 1).pc = .done (.spawned 1) ∧ (v.calls 2).pc = ok := by
  have ⟨u, hu, ha, hs, hf, h1, h2⟩ : ∃ u,
      run? (step? fun _ => 0) inTurn (oneRefused twoAndSuspend) = some u ∧
      Throughout (step? fun _ => 0) Apart inTurn (oneRefused twoAndSuspend) ∧
      u.started = {0, 1} ∧ u.refused = {0} ∧
      (u.calls 1).pc = .done (.spawned 1) ∧ (u.calls 2).pc = ok :=
    ⟨_, rfl, by decide, by decide, by decide, rfl, rfl⟩
  obtain ⟨-, hexact, happart, v, hv, hshared, hcalls⟩ := refusals_exact_iff hu
  refine ⟨u, hu, hexact.mpr (.inr (happart ha)), by simp [hs], v, hv, hshared, ?_, ?_⟩
  · rw [hcalls 1 (by simp [hf]), h1]
  · rw [hcalls 2 (by simp [hf]), h2]

/-- Two spawns look before either has lowered the count. Both are refused, where one
is to be. -/
theorem both_spawns_refused : ∃ u,
    run? (step? fun _ => 0) [.act 0 granted, .act 1 granted, .act 0 granted, .act 1 granted]
      (oneRefused fun _ : Fin 2 => (defaultInfo, .spawn "task" 512 2)) = some u ∧
    (∀ i, (u.calls i).pc = failed .unknown) ∧ u.started.card = 2 ∧
    u.refused.card ≠ min 1 u.started.card :=
  ⟨_, rfl, by decide, by decide, by decide⟩

end Rush

end SyncCore.Mock

import Mathlib.Algebra.BigOperators.Fin
import SyncCore.Machine

/-!
# Runs of a system

A system goes on by one step for each choice that is made for it. A choice
that cannot be carried out ends the run. What every step preserves holds at
the end of a run, and what a preserved property says of each step holds
throughout it.
-/

set_option autoImplicit false

namespace SyncCore

section Runs

variable {S C : Type} (step? : C → S → Option S)

def run? : List C → S → Option S
  | [], s => some s
  | c :: cs, s => (step? c s).bind (run? cs)

/-- Every step of the run, as far as it goes, stands in the given relation. -/
def Throughout (P : S → C → S → Prop) : List C → S → Prop
  | [], _ => True
  | c :: cs, s =>
    match step? c s with
    | none => True
    | some t => P s c t ∧ Throughout P cs t

def tally (p : S → C → Bool) : List C → S → Nat
  | [], _ => 0
  | c :: cs, s =>
    match step? c s with
    | none => 0
    | some t => (p s c).toNat + tally p cs t

def transcript {A : Type} (write : S → C → List A) : List C → S → List A
  | [], _ => []
  | c :: cs, s =>
    match step? c s with
    | none => []
    | some t => write s c ++ transcript write cs t

instance Throughout.decidable (P : S → C → S → Prop) [∀ s c t, Decidable (P s c t)] :
    (cs : List C) → (s : S) → Decidable (Throughout step? P cs s)
  | [], _ => .isTrue trivial
  | c :: cs, s => by
    unfold Throughout
    cases step? c s with
    | none => exact .isTrue trivial
    | some t =>
      have := Throughout.decidable P cs t
      exact inferInstanceAs (Decidable (P s c t ∧ Throughout step? P cs t))

variable {step?}

theorem run_cons {c : C} {cs : List C} {s u : S} (h : run? step? (c :: cs) s = some u) :
    ∃ t, step? c s = some t ∧ run? step? cs t = some u :=
  Option.bind_eq_some_iff.mp h

theorem run_snoc {c : C} {cs : List C} {s t u : S} (h : run? step? cs s = some t)
    (hc : step? c t = some u) : run? step? (cs ++ [c]) s = some u := by
  induction cs generalizing s with
  | nil =>
    cases h
    simp [run?, hc]
  | cons d cs ih =>
    obtain ⟨r, hr, ht⟩ := run_cons h
    simpa [run?, hr] using ih ht

theorem throughout_cons {P : S → C → S → Prop} {c : C} {cs : List C} {s t : S}
    (h : step? c s = some t) :
    Throughout step? P (c :: cs) s ↔ P s c t ∧ Throughout step? P cs t := by
  simp [Throughout, h]

theorem tally_cons {p : S → C → Bool} {c : C} {cs : List C} {s t : S} (h : step? c s = some t) :
    tally step? p (c :: cs) s = (p s c).toNat + tally step? p cs t := by
  simp [tally, h]

theorem transcript_cons {A : Type} {write : S → C → List A} {c : C} {cs : List C} {s t : S}
    (h : step? c s = some t) :
    transcript step? write (c :: cs) s = write s c ++ transcript step? write cs t := by
  simp [transcript, h]

theorem tally_le (p : S → C → Bool) (cs : List C) (s : S) :
    tally step? p cs s ≤ cs.length := by
  induction cs generalizing s with
  | nil => exact Nat.le_refl _
  | cons c cs ih =>
    cases hst : step? c s with
    | none => simp [tally, hst]
    | some t =>
      rw [tally_cons hst, List.length_cons, Nat.add_comm]
      exact Nat.add_le_add (ih t) (Bool.toNat_le _)

theorem tally_le_countP (p : C → Bool) (cs : List C) (s : S) :
    tally step? (fun _ c => p c) cs s ≤ cs.countP p := by
  induction cs generalizing s with
  | nil => exact Nat.le_refl _
  | cons c cs ih =>
    cases hst : step? c s with
    | none => simp [tally, hst]
    | some t =>
      rw [tally_cons hst, List.countP_cons, Nat.add_comm]
      refine Nat.add_le_add (ih t) ?_
      cases p c <;> simp

theorem run_keeps {I : S → Prop} (keep : ∀ s c t, I s → step? c s = some t → I t)
    {cs : List C} {s u : S} (h : run? step? cs s = some u) (hs : I s) : I u := by
  induction cs generalizing s with
  | nil => exact Option.some.inj h ▸ hs
  | cons c cs ih =>
    obtain ⟨t, hst, htu⟩ := run_cons h
    exact ih htu (keep s c t hs hst)

/-- A property that steps preserve from states of a kind holds at the end of a run that
ends in one, if a run cannot come back to that kind once it has left it. -/
theorem run_keeps_within {I D A : S → Prop} (keep : ∀ s c t, I s → step? c s = some t → I t)
    (back : ∀ s c t, I s → step? c s = some t → D t → D s)
    (hold : ∀ s c t, I s → D s → step? c s = some t → A s → A t)
    {cs : List C} {s u : S} (h : run? step? cs s = some u) (hs : I s) (ha : A s) (hd : D u) : A u :=
  (run_keeps (I := fun s => I s ∧ (D s → A s))
    (fun s c t hi hst => ⟨keep s c t hi.1 hst, fun hd =>
      have hd := back s c t hi.1 hst hd
      hold s c t hi.1 hd hst (hi.2 hd)⟩) h ⟨hs, fun _ => ha⟩).2 hd

theorem run_keeps_throughout {I : S → Prop} {P : S → C → S → Prop}
    (keep : ∀ s c t, I s → step? c s = some t → P s c t → I t)
    {cs : List C} {s u : S} (h : run? step? cs s = some u) (hp : Throughout step? P cs s)
    (hs : I s) : I u := by
  induction cs generalizing s with
  | nil => exact Option.some.inj h ▸ hs
  | cons c cs ih =>
    obtain ⟨t, hst, htu⟩ := run_cons h
    obtain ⟨hc, hcs⟩ := (throughout_cons hst).mp hp
    exact ih htu hcs (keep s c t hs hst hc)

/-- A property that every step preserves tells something of every step. -/
theorem throughout_of_keeps {I : S → Prop} {P Q : S → C → S → Prop}
    (keep : ∀ s c t, I s → step? c s = some t → P s c t → I t ∧ Q s c t)
    {cs : List C} {s : S} (hp : Throughout step? P cs s) (hs : I s) :
    Throughout step? Q cs s := by
  induction cs generalizing s with
  | nil => trivial
  | cons c cs ih =>
    cases hst : step? c s with
    | none => simp [Throughout, hst]
    | some t =>
      obtain ⟨hc, hcs⟩ := (throughout_cons hst).mp hp
      obtain ⟨ht, hq⟩ := keep s c t hs hst hc
      exact (throughout_cons hst).mpr ⟨hq, ih hcs ht⟩

theorem throughout_and {P Q : S → C → S → Prop} {cs : List C} {s : S}
    (hp : Throughout step? P cs s) (hq : Throughout step? Q cs s) :
    Throughout step? (fun s c t => P s c t ∧ Q s c t) cs s := by
  induction cs generalizing s with
  | nil => trivial
  | cons c cs ih =>
    cases hst : step? c s with
    | none => simp [Throughout, hst]
    | some t =>
      obtain ⟨hc, hcs⟩ := (throughout_cons hst).mp hp
      obtain ⟨hd, hds⟩ := (throughout_cons hst).mp hq
      exact (throughout_cons hst).mpr ⟨⟨hc, hd⟩, ih hcs hds⟩

theorem throughout_of_mem {P : S → C → S → Prop} {cs : List C} (h : ∀ c ∈ cs, ∀ s t, P s c t)
    (s : S) : Throughout step? P cs s := by
  induction cs generalizing s with
  | nil => trivial
  | cons c cs ih =>
    cases hst : step? c s with
    | none => simp [Throughout, hst]
    | some t =>
      exact (throughout_cons hst).mpr
        ⟨h c List.mem_cons_self s t, ih (fun d hd => h d (List.mem_cons_of_mem c hd)) t⟩

/-- Where no step leads to a kind of state from another kind, a run that ends in one
has kept to them. -/
theorem throughout_of_back {D : S → Prop} (back : ∀ s c t, step? c s = some t → D t → D s)
    {cs : List C} {s u : S} (h : run? step? cs s = some u) (hu : D u) :
    D s ∧ Throughout step? (fun s _ t => D s ∧ D t) cs s := by
  induction cs generalizing s with
  | nil => exact ⟨Option.some.inj h ▸ hu, trivial⟩
  | cons c cs ih =>
    obtain ⟨t, hst, htu⟩ := run_cons h
    obtain ⟨ht, hcs⟩ := ih htu
    have hs := back s c t hst ht
    exact ⟨hs, (throughout_cons hst).mpr ⟨⟨hs, ht⟩, hcs⟩⟩

theorem throughout_trivial (cs : List C) (s : S) :
    Throughout step? (fun _ _ _ => True) cs s :=
  throughout_of_mem (fun _ _ _ _ => trivial) s

/-- A property of a state and a count that every step preserves, when the
count goes up by the steps a test picks out, holds with the final count. -/
theorem run_keeps_tally {p : S → C → Bool} {I : S → Nat → Prop}
    (keep : ∀ s c t n, I s n → step? c s = some t → I t (n + (p s c).toNat))
    {cs : List C} {s u : S} {n : Nat} (h : run? step? cs s = some u) (hs : I s n) :
    I u (n + tally step? p cs s) := by
  induction cs generalizing s n with
  | nil => exact Option.some.inj h ▸ hs
  | cons c cs ih =>
    obtain ⟨t, hst, htu⟩ := run_cons h
    have ht := ih htu (keep s c t n hs hst)
    rwa [tally_cons hst, ← Nat.add_assoc]

/-- A property of a state and of what has been written down that every step of a
kind preserves holds with all that is written down of such a run. -/
theorem run_keeps_transcript {A : Type} {write : S → C → List A} {I : S → List A → Prop}
    {P : C → Prop} (keep : ∀ s c t l, I s l → step? c s = some t → P c → I t (l ++ write s c))
    {cs : List C} {s u : S} {l : List A} (h : run? step? cs s = some u) (hc : ∀ c ∈ cs, P c)
    (hs : I s l) : I u (l ++ transcript step? write cs s) := by
  induction cs generalizing s l with
  | nil =>
    cases h
    rwa [transcript, List.append_nil]
  | cons c cs ih =>
    obtain ⟨t, hst, htu⟩ := run_cons h
    have ht := ih htu (fun d hd => hc d (List.mem_cons_of_mem c hd))
      (keep s c t l hs hst (hc c List.mem_cons_self))
    rwa [transcript_cons hst, ← List.append_assoc]

/-- A run is followed by the run without some of its steps, if a step that is
left out keeps two states related and every other one leads to related states. -/
theorem run_filter {R : S → S → Prop} {P : S → C → S → Prop} {p : C → Bool}
    (skip : ∀ s c t r, R s r → step? c s = some t → P s c t → p c = false → R t r)
    (take : ∀ s c t r, R s r → step? c s = some t → P s c t → p c = true →
      ∃ u, step? c r = some u ∧ R t u)
    {cs : List C} {s t r : S} (h : run? step? cs s = some t) (hp : Throughout step? P cs s)
    (hr : R s r) : ∃ u, run? step? (cs.filter p) r = some u ∧ R t u := by
  induction cs generalizing s r with
  | nil => exact ⟨r, rfl, Option.some.inj h ▸ hr⟩
  | cons c cs ih =>
    obtain ⟨s₁, hst, h⟩ := run_cons h
    obtain ⟨hc, hp⟩ := (throughout_cons hst).mp hp
    cases hb : p c with
    | false =>
      rw [List.filter_cons_of_neg (by simp [hb])]
      exact ih h hp (skip s c s₁ r hr hst hc hb)
    | true =>
      obtain ⟨r₁, hr₁, hr⟩ := take s c s₁ r hr hst hc hb
      obtain ⟨u, hu, hr⟩ := ih h hp hr
      rw [List.filter_cons_of_pos hb]
      exact ⟨u, by simpa [run?, hr₁] using hu, hr⟩

end Runs

/-! ## Systems side by side -/

section Beside

variable {S C I : Type} [DecidableEq I]

def beside? (step? : C → S → Option S) (c : I × C) (s : I → S) : Option (I → S) :=
  (step? c.2 (s c.1)).map (Function.update s c.1)

def stepsOf (i : I) (cs : List (I × C)) : List C := (cs.filter (·.1 = i)).map Prod.snd

variable {step? : C → S → Option S} {cs : List (I × C)} {s t : I → S}

theorem stepsOf_cons (c : I × C) (i : I) :
    stepsOf i (c :: cs) = if c.1 = i then c.2 :: stepsOf i cs else stepsOf i cs := by
  by_cases h : c.1 = i <;> simp [stepsOf, h]

/-- Systems side by side run as each of them does by itself. -/
theorem run_beside : run? (beside? step?) cs s = some t ↔
    ∀ i, run? step? (stepsOf i cs) (s i) = some (t i) := by
  induction cs generalizing s with
  | nil => simp [run?, stepsOf, funext_iff]
  | cons c cs ih =>
    obtain ⟨j, c⟩ := c
    constructor
    · intro h i
      obtain ⟨u, hu, h⟩ := run_cons h
      obtain ⟨x, hx, rfl⟩ := Option.map_eq_some_iff.mp hu
      have hi := ih.mp h i
      rw [stepsOf_cons]
      by_cases hj : j = i
      · subst hj
        rw [Function.update_self] at hi
        simpa [run?, hx] using hi
      · rwa [if_neg hj, ← Function.update_of_ne (Ne.symm hj) x s]
    · intro h
      have hj := h j
      rw [stepsOf_cons, if_pos rfl] at hj
      obtain ⟨x, hx, hj⟩ := run_cons hj
      have hu : beside? step? (j, c) s = some (Function.update s j x) := by simp [beside?, hx]
      simp only [run?, hu, Option.bind_some]
      refine ih.mpr fun i => ?_
      by_cases hi : i = j
      · subst hi
        rwa [Function.update_self]
      · have h := h i
        rw [stepsOf_cons, if_neg (Ne.symm hi)] at h
        rwa [Function.update_of_ne hi]

end Beside

/-! ## Sums over the parties of a system -/

theorem sum_update {A M : Type} [AddCommMonoid M] {n : Nat} (g : A → M) (v : Fin n → A) (i : Fin n)
    (x : A) : ∑ j, g (Function.update v i x j) + g (v i) = ∑ j, g (v j) + g x := by
  have hi : i ∈ Finset.univ := Finset.mem_univ i
  have hu := Finset.add_sum_erase Finset.univ (fun j => g (Function.update v i x j)) hi
  have hv := Finset.add_sum_erase Finset.univ (fun j => g (v j)) hi
  have he : ∑ j ∈ Finset.univ.erase i, g (Function.update v i x j) =
      ∑ j ∈ Finset.univ.erase i, g (v j) :=
    Finset.sum_congr rfl fun j hj => by rw [Function.update_of_ne (Finset.ne_of_mem_erase hj)]
  simp only [Function.update_self] at hu
  rw [← hu, ← hv, he, add_assoc, add_comm (g x), add_comm (g (v i))]

/-! ## Notes -/

section Notes

variable {S C N : Type} {step? : C → S → Option S} {note : S → C → N → N}

/-- The system with notes that are taken of its steps. They do not steer it. -/
def noted (step? : C → S → Option S) (note : S → C → N → N) (c : C) (s : S × N) :
    Option (S × N) :=
  (step? c s.1).map fun t => (t, note s.1 c s.2)

theorem noted_step {c : C} {s t : S × N} (h : noted step? note c s = some t) :
    step? c s.1 = some t.1 ∧ t.2 = note s.1 c s.2 := by
  obtain ⟨u, hu, rfl⟩ := Option.map_eq_some_iff.mp h
  exact ⟨hu, rfl⟩

theorem run_noted {cs : List C} {s u : S} (h : run? step? cs s = some u) (n : N) :
    ∃ m, run? (noted step? note) cs (s, n) = some (u, m) := by
  induction cs generalizing s n with
  | nil => exact ⟨n, congrArg (fun s => some (s, n)) (Option.some.inj h)⟩
  | cons c cs ih =>
    obtain ⟨t, hst, htu⟩ := run_cons h
    obtain ⟨m, hm⟩ := ih htu (note s c n)
    exact ⟨m, by simpa [run?, noted, hst] using hm⟩

theorem throughout_noted {P : S → C → S → Prop} {cs : List C} {s : S}
    (h : Throughout step? P cs s) (n : N) :
    Throughout (noted step? note) (fun s c t => P s.1 c t.1) cs (s, n) := by
  induction cs generalizing s n with
  | nil => trivial
  | cons c cs ih =>
    cases hst : step? c s with
    | none => simp [Throughout, noted, hst]
    | some t =>
      obtain ⟨hc, hcs⟩ := (throughout_cons hst).mp h
      have hn : noted step? note c (s, n) = some (t, note s c n) := by simp [noted, hst]
      exact (throughout_cons hn).mpr ⟨hc, ih hcs _⟩

end Notes

end SyncCore

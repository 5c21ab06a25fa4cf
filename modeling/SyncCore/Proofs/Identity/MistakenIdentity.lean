import SyncCore.Proofs.Identity.Numberings

/-!
# Mistaken identity

A manager finds a thread by its number alone. On the hosted backend, where no
number is given twice, whoever asks is told of the own object or of none.
Platforms of the mock backend number their tasks independently, so a manager
takes a task of another platform for the task of its own that has the same
number. Tasks of its own platform and threads that no platform has started are
never mistaken.
-/

set_option autoImplicit false

namespace SyncCore.Manager.Site

variable {N : Numbering} {V : Type} {s t : Site N V}

def Own (x : Caller) (m : Nat) (r : Option ObjectId) : Prop :=
  ∀ o, r = some o → x = .managed m o

/-- Two threads with one number are one thread, unless their platforms are
such that they may be confused. -/
def ToldApart (F : Option Nat → Nat → Prop) (s : Site N V) : Prop :=
  ∀ x y p q h, s.identities x = some ⟨q, h⟩ → s.identities y = some ⟨some p, h⟩ → x = y ∨ F q p

/-- Answers name nothing but the thread's own object, unless the platforms of
the thread and the manager are such that it may be confused. -/
def Trusted (F : Option Nat → Nat → Prop) (s : Site N V) : Prop :=
  ∀ x, ∀ a ∈ s.inquiries x, ∀ p w i, s.managers a.manager = some (p, w) →
    s.identities x = some i → ∀ r, a.pc.result? = some r → Own x a.manager r ∨ F i.platform p

def Foreign (q : Option Nat) (p : Nat) : Prop := ∃ r, q = some r ∧ r ≠ p

def Confused (s : Site N V) (x : Caller) (m : Nat) (living : ObjectId → Bool) : Prop :=
  ∃ p w i, s.managers m = some (p, w) ∧ s.identities x = some i ∧ Foreign i.platform p ∧
    ∃ o, some o ∈ w.table ∧ w.alive living o = true ∧ w.handleOf o = some i.handle

section Answers

variable {F : Option Nat → Nat → Prop} {m p : Nat} {w : World V} {x : Caller} {i : Identity}

theorem Coherent.told_before {e : Event V} (hs : s.Coherent) (h : step? e s = some t)
    (hf : t.ToldApart F) : s.ToldApart F := fun x y p q n hx hy =>
  hf x y p q n (hs.identity_kept h hx) (hs.identity_kept h hy)

theorem Coherent.find_own (hs : s.Coherent) (hf : s.ToldApart F) (hm : s.managers m = some (p, w))
    (hx : s.identities x = some i) (living : ObjectId → Bool) :
    Own x m (w.find? living i.handle) ∨ F i.platform p := by
  by_cases hF : F i.platform p
  · exact .inr hF
  · exact .inl fun o ho =>
      (hf x _ p i.platform i.handle hx (hs.bearer hm ho)).resolve_right hF

theorem Coherent.asked_before {e : Event V} {a : Inquiry} (hs : s.Coherent)
    (h : step? e s = some t) (ha : a ∈ s.inquiries x) (hm : t.managers a.manager = some (p, w))
    (hx : t.identities x = some i) :
    (∃ v, s.managers a.manager = some (p, v)) ∧ s.identities x = some i ∧
      ∀ k, a.pc = .find k → k = i.handle := by
  obtain ⟨hopen, j, hj, hk⟩ := hs.asking ha
  cases (hs.identity_kept h hj).symm.trans hx
  refine ⟨?_, hj, hk⟩
  obtain hm | ⟨hnone, -⟩ | ⟨c, v, -, hm, -⟩ := step_managers h hm
  · exact ⟨w, hm⟩
  · rw [hnone] at hopen
    cases hopen
  · exact ⟨v, hm⟩

theorem trusted_step {e : Event V} (hs : s.Coherent) (hf : s.ToldApart F) (ht : s.Trusted F)
    (h : step? e s = some t) : t.Trusted F := by
  intro x a hmem p w i hm hx r hr
  obtain hold | hstart | ⟨living, q, p', v, j, hq, hqm, hv, hj, hl⟩ := step_inquiries h hmem
  · obtain ⟨⟨v, hv⟩, hx, -⟩ := hs.asked_before h hold hm hx
    exact ht x a hold p v i hv hx r hr
  · rw [hstart] at hr
    cases hr
  · rw [← hqm] at hv hm
    obtain ⟨⟨v', hv'⟩, hx, hk⟩ := hs.asked_before h hq hm hx
    cases hv.symm.trans hv'
    cases hj.symm.trans hx
    rw [← hqm]
    generalize a.pc = pc at hl hr
    generalize hpc : q.pc = pc₀ at hl
    cases hl with
    | ask => cases hr
    | find k =>
      cases hr
      rw [hk k hpc]
      exact hs.find_own hf hv hx living
    | announce k r₀ => exact ht x q hq p v i hv hx r (by rw [hpc]; exact hr)

theorem trusted_run {es : List (Event V)} (h : run? step? es initial = some s)
    (hf : s.ToldApart F) : s.Trusted F :=
  run_keeps_within (fun _ _ _ hs hst => coherent_step hs hst)
    (fun _ _ _ hs hst => hs.told_before hst)
    (fun _ _ _ hs hf hst ht => trusted_step hs hf ht hst)
    h coherent_initial (fun _ _ ha => nomatch ha) hf

/-- A thread that another platform has started is told of another's object just
where there is one to be found, and every other thread of none but its own. -/
theorem Coherent.find_own_iff (hs : s.Coherent) (hf : s.ToldApart Foreign)
    (hm : s.managers m = some (p, w)) (hx : s.identities x = some i) (living : ObjectId → Bool) :
    Own x m (w.find? living i.handle) ↔ ¬s.Confused x m living := by
  constructor
  · rintro hown ⟨p', w', i', hm', hx', ⟨q, hq, hne⟩, o, ho, ha, hh⟩
    cases hm.symm.trans hm'
    cases hx.symm.trans hx'
    cases hr : w.find? living i.handle with
    | none => exact Table.find?_none hr ho ha hh
    | some o' =>
      have hb := hs.bearer hm hr
      rw [← hown o' hr, hx] at hb
      rw [Option.some.inj hb] at hq
      exact hne (Option.some.inj hq).symm
  · intro hc
    obtain hown | hF := hs.find_own hf hm hx living
    · exact hown
    · intro o ho
      obtain ⟨hin, ha, hh⟩ := Table.find?_some ho
      exact absurd ⟨p, w, i, hm, hx, hF, o, hin, ha, hh⟩ hc

end Answers

theorem Counted.told {s : Site .hosted V} (hs : s.Counted) : s.ToldApart fun _ _ => False :=
  fun x y p q h hx hy => .inl (hs.unique x y q (some p) h hx hy)

theorem mock_told {es : List (Event V)} {s : Site .mock V} (h : run? step? es initial = some s)
    (hd : ∀ p, tally step? (draws p) es (initial : Site .mock V) < UInt32.size) :
    s.ToldApart Foreign := fun x y p q k hx hy => by
  cases q with
  | none =>
    cases mock_outsider h hx
    exact absurd ((mock_tasked h p).bounds (hd p) y 0 hy).1 (Nat.lt_irrefl 0)
  | some r =>
    by_cases hr : r = p
    · subst hr
      exact .inl ((mock_tasked h r).unique (hd r) x y k hx hy)
    · exact .inr ⟨r, rfl, hr⟩

/-- On the hosted backend every answer is of the thread's own object or of none,
in every run of a process. On the mock backend, where no platform has used up
its numbers, the same holds of all threads but those of other platforms than
the manager's, and what a search answers them is wrong exactly if the manager
has a living object whose thread bears their number. -/
theorem identity_mistaken_iff :
    (∀ (es : List (Event V)) (s : Site .hosted V), run? step? es initial = some s → ∀ x,
      s.Proceeds x ∧ ∀ a ∈ s.inquiries x, ∀ r, a.pc.result? = some r → Own x a.manager r) ∧
    (∀ (es : List (Event V)) (s : Site .mock V), run? step? es initial = some s →
      (∀ p, tally step? (draws p) es (initial : Site .mock V) < UInt32.size) →
      s.Trusted Foreign ∧ ∀ x, s.Proceeds x ∧
        ∀ m k qs living, s.inquiries x = ⟨m, .find k⟩ :: qs →
          ∃ t r, step? (.look x living) s = some t ∧
            t.inquiries x = ⟨m, .announce k r⟩ :: qs ∧ (Own x m r ↔ ¬s.Confused x m living)) := by
  constructor
  · intro es s h x
    have hs := coherent_run h
    refine ⟨hs.proceeds x, fun a ha r hr => ?_⟩
    obtain ⟨hm, i, hi, -⟩ := hs.asking ha
    obtain ⟨⟨p, w⟩, hm⟩ := Option.isSome_iff_exists.mp hm
    exact (trusted_run h (hosted_counted h).told x a ha p w i hm hi r hr).resolve_right id
  · intro es s h hd
    have hs := coherent_run h
    have hf := mock_told h hd
    refine ⟨trusted_run h hf, fun x => ⟨hs.proceeds x, fun m k qs living hx => ?_⟩⟩
    obtain ⟨p, w, i, t, hm, hi, ht, hq⟩ := hs.search hx living
    exact ⟨t, _, ht, hq, hs.find_own_iff hf hm hi living⟩

def hosting (m h : Nat) : List (Event Unit) :=
  let spawned : Oracle Unit := ⟨fun
    | .spawn _ => .ok ⟨h, h⟩
    | c => Oracle.agreeable.backend c, some ()⟩
  [.opening m m 1, .act m (.create ⟨1, .default, 0⟩)] ++
    List.replicate 5 (.act m (.act 1 .creator spawned)) ++
    List.replicate 2 (.act m (.act 1 .routine spawned))

def twoManagers (h : Nat) : List (Event Unit) := hosting 0 1 ++ hosting 1 h

/-- A thread asks its own manager on the hosted backend, and on the mock backend
it is about to be sought in the table of another. -/
theorem two_managers_told :
    (∃ s : Site .hosted Unit,
      run? step? (twoManagers 2 ++ Event.inquiry (.managed 1 1) 1) initial = some s ∧
      s.inquiries (.managed 1 1) = [⟨1, .done (some 1)⟩] ∧ Own (.managed 1 1) 1 (some 1)) ∧
    ∃ s t : Site .mock Unit, ∃ r,
      run? step? (twoManagers 1 ++ (Event.inquiry (.managed 1 1) 0).take 2) initial = some s ∧
      step? (.look (.managed 1 1) fun _ => false) s = some t ∧
      t.inquiries (.managed 1 1) = [⟨0, .announce 1 r⟩] ∧
      (Own (.managed 1 1) 0 r ↔ ¬s.Confused (.managed 1 1) 0 fun _ => false) := by
  constructor
  · obtain ⟨s, h⟩ : ∃ s : Site .hosted Unit,
        run? step? (twoManagers 2 ++ Event.inquiry (.managed 1 1) 1) initial = some s := ⟨_, rfl⟩
    have hq : s.inquiries (.managed 1 1) = [⟨1, .done (some 1)⟩] := by
      cases h
      rfl
    refine ⟨s, h, hq, ?_⟩
    exact (identity_mistaken_iff.1 _ s h (.managed 1 1)).2 ⟨1, .done (some 1)⟩ (by simp [hq]) _ rfl
  · obtain ⟨s, h⟩ : ∃ s : Site .mock Unit,
        run? step? (twoManagers 1 ++ (Event.inquiry (.managed 1 1) 0).take 2) initial = some s :=
      ⟨_, rfl⟩
    have hq : s.inquiries (.managed 1 1) = [⟨0, .find 1⟩] := by
      cases h
      rfl
    have hd : ∀ p, tally step? (draws p) (twoManagers 1 ++ (Event.inquiry (.managed 1 1) 0).take 2)
        (initial : Site .mock Unit) < UInt32.size := fun p =>
      Nat.lt_of_le_of_lt (tally_le _ _ _) (by decide)
    obtain ⟨t, r, ht⟩ :=
      ((identity_mistaken_iff.2 _ s h hd).2 (.managed 1 1)).2 0 1 [] (fun _ => false) hq
    exact ⟨s, t, r, h, ht⟩

/-- The thread of another platform is told of an object that is not its own. -/
theorem two_managers_mistaken :
    ∃ s : Site .mock Unit,
      run? step? (twoManagers 1 ++ Event.inquiry (.managed 1 1) 0) initial = some s ∧
      s.inquiries (.managed 1 1) = [⟨0, .done (some 1)⟩] ∧ ¬Own (.managed 1 1) 0 (some 1) :=
  ⟨_, rfl, rfl, fun h => nomatch h 1 rfl⟩

end SyncCore.Manager.Site

import SyncCore.Proofs.Identity.Site

/-!
# Threads and managers of a process fit together

The worlds of the managers are where runs of a manager have led, and what is
known of the numbers of threads agrees with what the managers have spawned.
Every step keeps this, and no thread ever gets another number. So what a
manager finds for a number is an object whose thread bears it.
-/

set_option autoImplicit false

namespace SyncCore.Manager

variable {V : Type}

theorem World.Gated.handle {w : World V} {id : ObjectId} (hw : w.Gated) {h : Handle}
    (hh : w.handleOf id = some h) : ∃ b, w.backendThread? id = some b ∧ b.handle = h := by
  obtain ⟨th, ht, hb⟩ := Option.bind_eq_some_iff.mp hh
  obtain ⟨b, hbind, rfl⟩ := Option.map_eq_some_iff.mp hb
  refine ⟨b, ?_, rfl⟩
  rw [World.backendThread?, ht, Option.bind_some, (hw id th ht).spawned_of_bound hbind]

namespace Site

variable {N : Numbering} {s t : Site N V}

structure Coherent (s : Site N V) : Prop where
  reached : ∀ {m p w}, s.managers m = some (p, w) → w.Reached
  numbered : ∀ {m p w}, s.managers m = some (p, w) → ∀ id,
    s.identities (.managed m id) = (w.backendThread? id).map fun b => ⟨some p, b.handle⟩
  unopened : ∀ {m}, s.managers m = none → ∀ id, s.identities (.managed m id) = none
  asking : ∀ {x q}, q ∈ s.inquiries x → (s.managers q.manager).isSome = true ∧
    ∃ i, s.identities x = some i ∧ ∀ h, q.pc = .find h → h = i.handle

theorem coherent_initial : (initial : Site N V).Coherent where
  reached := nofun
  numbered := nofun
  unopened := fun _ _ => rfl
  asking := nofun

theorem identities_enroll {x y : Caller} {p : Option Nat} {i : Identity} :
    (s.enroll x p).identities y = some i ↔
      (y = x ∧ i = ⟨p, (N.draw p s.numbering).1⟩) ∨ (y ≠ x ∧ s.identities y = some i) := by
  by_cases hy : y = x
  · subst hy
    simp [enroll, eq_comm]
  · simp [enroll, hy]

theorem enroll_keeps {x y : Caller} {p : Option Nat} {i : Identity}
    (hx : s.identities x = none) (hy : s.identities y = some i) :
    (s.enroll x p).identities y = some i := by
  refine identities_enroll.mpr (.inr ⟨?_, hy⟩)
  rintro rfl
  cases hx.symm.trans hy

/-- A step draws at most one number, for a thread that has not been started
before or in vain. -/
theorem Coherent.step_identities {e : Event V} (hs : s.Coherent) (h : step? e s = some t) :
    (s.drawn? e = none ∧ t.identities = s.identities ∧ t.numbering = s.numbering) ∨
    (∃ p, s.drawn? e = some (some p) ∧ t.identities = s.identities ∧
      t.numbering = (N.draw (some p) s.numbering).2) ∨
    (∃ x p, s.drawn? e = some p ∧ s.identities x = none ∧
      t.identities = (s.enroll x p).identities ∧ t.numbering = (s.enroll x p).numbering) := by
  obtain ⟨m, p, n, rfl, -, rfl⟩ | ⟨k, p, rfl, hk, rfl⟩ | ⟨p, rfl, rfl⟩ |
    ⟨m, c, p, w, u, rfl, hm, -, hu, hc⟩ | ⟨x, m, rfl, -, -, rfl⟩ |
    ⟨x, l, q, qs, p, w, i, pc, rfl, -, -, -, -, rfl⟩ | ⟨x, m, r, qs, rfl, -, rfl⟩ := step_cases h
  · exact .inl ⟨rfl, rfl, rfl⟩
  · exact .inr (.inr ⟨.other k, p, rfl, hk, rfl, rfl⟩)
  · exact .inr (.inl ⟨p, rfl, rfl, rfl⟩)
  · obtain ⟨hn, rfl⟩ | ⟨id, b, hn, -, rfl⟩ := hc
    · exact .inl ⟨by simp [drawn?, hm, hn], rfl, rfl⟩
    · refine .inr (.inr ⟨.managed m id, some p, by simp [drawn?, hm, hn], ?_, rfl, rfl⟩)
      obtain ⟨hz, -⟩ | ⟨id', b', hz, hb, -⟩ := World.step_spawned (hs.reached hm).gated hu
      · cases hz.symm.trans hn
      · cases hz.symm.trans hn
        rw [hs.numbered hm, hb, Option.map_none]
  · exact .inl ⟨rfl, rfl, rfl⟩
  · exact .inl ⟨rfl, rfl, rfl⟩
  · exact .inl ⟨rfl, rfl, rfl⟩

theorem Coherent.identity_kept {e : Event V} {x : Caller} {i : Identity} (hs : s.Coherent)
    (h : step? e s = some t) (hx : s.identities x = some i) : t.identities x = some i := by
  obtain ⟨-, ht, -⟩ | ⟨p, -, ht, -⟩ | ⟨y, p, -, hy, ht, -⟩ := hs.step_identities h
  · rw [ht, hx]
  · rw [ht, hx]
  · rw [ht, enroll_keeps hy hx]

/-- Whoever bears a number after a step bore it before, but for one thread that
bears the number drawn. -/
theorem Coherent.bearers {e : Event V} (hs : s.Coherent) (h : step? e s = some t) :
    ∃ z, ∀ x p k, t.identities x = some ⟨p, k⟩ → s.identities x = some ⟨p, k⟩ ∨
      (x = z ∧ s.drawn? e = some p ∧ k = (N.draw p s.numbering).1) := by
  obtain ⟨-, ht, -⟩ | ⟨p, -, ht, -⟩ | ⟨z, p, hd, -, ht, -⟩ := hs.step_identities h
  · exact ⟨.other 0, fun x q k hx => .inl (ht ▸ hx)⟩
  · exact ⟨.other 0, fun x q k hx => .inl (ht ▸ hx)⟩
  · refine ⟨z, fun x q k hx => ?_⟩
    rw [ht] at hx
    obtain ⟨hz, hi⟩ | ⟨-, hx⟩ := identities_enroll.mp hx
    · cases hi
      exact .inr ⟨hz, hd, rfl⟩
    · exact .inl hx

theorem Coherent.step_numbering {e : Event V} (hs : s.Coherent) (h : step? e s = some t) :
    t.numbering = match s.drawn? e with
      | none => s.numbering
      | some p => (N.draw p s.numbering).2 := by
  obtain ⟨hd, -, ht⟩ | ⟨p, hd, -, ht⟩ | ⟨z, p, hd, -, -, ht⟩ := hs.step_identities h <;>
    rw [hd, ht]
  rfl

theorem Coherent.setWorld {m p : Nat} {u : World V} {is : Caller → Option Identity} {σ : N.State}
    (hs : s.Coherent) (hu : u.Reached) (hk : ∀ {x i}, s.identities x = some i → is x = some i)
    (ho : ∀ m' id, m' ≠ m → is (.managed m' id) = s.identities (.managed m' id))
    (hn : ∀ id, is (.managed m id) = (u.backendThread? id).map fun b => ⟨some p, b.handle⟩) :
    Coherent { s.setWorld m p u with identities := is, numbering := σ } where
  reached := fun {m' p' w'} h => by
    by_cases he : m' = m
    · subst he
      simp only [Site.setWorld, Function.update_self, Option.some.injEq, Prod.mk.injEq] at h
      obtain ⟨rfl, rfl⟩ := h
      exact hu
    · simp only [Site.setWorld, Function.update_of_ne he] at h
      exact hs.reached h
  numbered := fun {m' p' w'} h id => by
    by_cases he : m' = m
    · subst he
      simp only [Site.setWorld, Function.update_self, Option.some.injEq, Prod.mk.injEq] at h
      obtain ⟨rfl, rfl⟩ := h
      exact hn id
    · simp only [Site.setWorld, Function.update_of_ne he] at h
      exact (ho m' id he).trans (hs.numbered h id)
  unopened := fun {m'} h id => by
    have he : m' ≠ m := by
      rintro rfl
      simp [Site.setWorld] at h
    simp only [Site.setWorld, Function.update_of_ne he] at h
    exact (ho m' id he).trans (hs.unopened h id)
  asking := fun {x q} hq => by
    obtain ⟨hv, i, hi, hf⟩ := hs.asking hq
    refine ⟨?_, i, hk hi, hf⟩
    by_cases he : q.manager = m
    · simp [Site.setWorld, he]
    · simpa [Site.setWorld, Function.update_of_ne he] using hv

theorem Coherent.setInquiries {x : Caller} {qs : List Inquiry} (hs : s.Coherent)
    (hq : ∀ q ∈ qs, (s.managers q.manager).isSome = true ∧
      ∃ i, s.identities x = some i ∧ ∀ h, q.pc = .find h → h = i.handle) :
    (s.setInquiries x qs).Coherent where
  reached := hs.reached
  numbered := hs.numbered
  unopened := hs.unopened
  asking := fun {y q} h => by
    by_cases he : y = x
    · subst he
      simp only [Site.setInquiries, Function.update_self] at h
      exact hq q h
    · simp only [Site.setInquiries, Function.update_of_ne he] at h
      exact hs.asking h

theorem Coherent.start {k : Nat} (hs : s.Coherent) (hk : s.identities (.other k) = none)
    (p : Option Nat) : (s.enroll (.other k) p).Coherent where
  reached := hs.reached
  numbered := hs.numbered
  unopened := hs.unopened
  asking := fun hq =>
    (hs.asking hq).imp_right fun ⟨i, hi, hf⟩ => ⟨i, enroll_keeps hk hi, hf⟩

theorem Looks.number {w : World V} {living : ObjectId → Bool} {n : Handle} {pc pc' : Current.Pc}
    (h : w.Looks living n pc pc') (k : Handle) (hk : pc' = .find k) : k = n := by
  cases h with
  | ask =>
    cases hk
    rfl
  | _ => cases hk

theorem coherent_step {e : Event V} (hs : s.Coherent) (h : step? e s = some t) : t.Coherent := by
  obtain ⟨m, p, n, rfl, hm, rfl⟩ | ⟨k, p, rfl, hk, rfl⟩ | ⟨p, rfl, rfl⟩ |
    ⟨m, c, p, w, u, rfl, hm, -, hu, hc⟩ |
    ⟨x, m, rfl, hx, hm, rfl⟩ | ⟨x, l, q, qs, p, w, i, pc, rfl, hq, hm, hi, hl, rfl⟩ |
    ⟨x, m, r, qs, rfl, hq, rfl⟩ := step_cases h
  · exact hs.setWorld (.initial n) (fun h => h) (fun _ _ _ => rfl) (hs.unopened hm)
  · exact hs.start hk p
  · exact ⟨hs.reached, hs.numbered, hs.unopened, hs.asking⟩
  · obtain ⟨hn, rfl⟩ | ⟨id, b, hn, hb, rfl⟩ := hc <;>
      obtain ⟨hz, ht⟩ | ⟨id', b', hz, hnone, ht⟩ := World.step_spawned (hs.reached hm).gated hu <;>
      cases hz.symm.trans hn
    · refine hs.setWorld ((hs.reached hm).step hu) (fun h => h) (fun _ _ _ => rfl) fun id => ?_
      rw [hs.numbered hm, ht]
    · have hfree : s.identities (.managed m id) = none := by
        rw [hs.numbered hm, hnone, Option.map_none]
      refine hs.setWorld ((hs.reached hm).step hu) (fun h => enroll_keeps hfree h)
        (fun m' id' he => ?_) fun q => ?_
      · exact Function.update_of_ne (fun h => he (by cases h; rfl)) _ _
      · by_cases hq : q = id
        · subst hq
          simp [enroll, ht, hb]
        · have hne : Caller.managed m q ≠ .managed m id := fun h => hq (by cases h; rfl)
          simp [enroll, ht, Function.update_of_ne hne, Function.update_of_ne hq, hs.numbered hm]
  · refine hs.setInquiries fun q hq => ?_
    rcases List.mem_cons.mp hq with rfl | hq
    · exact ⟨hm, (Option.isSome_iff_exists.mp hx).imp fun i hi => ⟨hi, nofun⟩⟩
    · exact hs.asking hq
  · refine hs.setInquiries fun r hr => ?_
    rcases List.mem_cons.mp hr with rfl | hr
    · exact ⟨by simp [hm], i, hi, Looks.number hl⟩
    · exact hs.asking (hq ▸ List.mem_cons_of_mem q hr)
  · exact hs.setInquiries fun q hr => hs.asking (hq ▸ List.mem_cons_of_mem _ hr)

theorem coherent_run {es : List (Event V)} (h : run? step? es initial = some s) : s.Coherent :=
  run_keeps (fun _ _ _ hs hst => coherent_step hs hst) h coherent_initial

theorem Coherent.bearer {m p : Nat} {w : World V} (hs : s.Coherent)
    (hm : s.managers m = some (p, w)) {living : ObjectId → Bool} {h : Handle} {o : ObjectId}
    (hf : w.find? living h = some o) :
    s.identities (.managed m o) = some ⟨some p, h⟩ := by
  obtain ⟨b, hb, rfl⟩ := (hs.reached hm).gated.handle (Table.find?_some hf).2.2
  rw [hs.numbered hm, hb, Option.map_some]

/-- What the thread has asked last is answered, or its next action is free and
brings it nearer to the answer. -/
def Proceeds (s : Site N V) (x : Caller) : Prop :=
  ∀ q qs, s.inquiries x = q :: qs → (∃ r, q.pc = .done r) ∨
    ∀ living, ∃ t pc, step? (.look x living) s = some t ∧
      t.inquiries x = ⟨q.manager, pc⟩ :: qs ∧ pc.left < q.pc.left

theorem Coherent.look {x : Caller} {q : Inquiry} {qs : List Inquiry} (hs : s.Coherent)
    (hx : s.inquiries x = q :: qs) (living : ObjectId → Bool) :
    ∃ p w i, s.managers q.manager = some (p, w) ∧ s.identities x = some i ∧
      (∀ h, q.pc = .find h → h = i.handle) ∧
      ∀ pc, w.Looks living i.handle q.pc pc →
        step? (.look x living) s = some (s.setInquiries x (⟨q.manager, pc⟩ :: qs)) := by
  obtain ⟨hm, i, hi, hk⟩ := hs.asking (q := q) (hx ▸ List.mem_cons_self)
  obtain ⟨⟨p, w⟩, hm⟩ := Option.isSome_iff_exists.mp hm
  refine ⟨p, w, i, hm, hi, hk, fun pc hl => ?_⟩
  simp only [step?, hx, hm, hi, Option.bind_some, World.inquire_step.mpr hl, Option.map_some]

theorem Coherent.proceeds (hs : s.Coherent) (x : Caller) : s.Proceeds x := fun q qs hx => by
  by_cases hd : ∃ r, q.pc = .done r
  · exact .inl hd
  · refine .inr fun living => ?_
    obtain ⟨p, w, i, -, -, -, hstep⟩ := hs.look hx living
    obtain ⟨pc, hl, hlt⟩ := w.looks_nearer living i.handle fun r hr => hd ⟨r, hr⟩
    exact ⟨_, pc, hstep pc hl, by simp [Site.setInquiries], hlt⟩

theorem Coherent.search {x : Caller} {m : Nat} {k : Handle} {qs : List Inquiry} (hs : s.Coherent)
    (hx : s.inquiries x = ⟨m, .find k⟩ :: qs) (living : ObjectId → Bool) :
    ∃ p w i t, s.managers m = some (p, w) ∧ s.identities x = some i ∧
      step? (.look x living) s = some t ∧
      t.inquiries x = ⟨m, .announce k (w.find? living i.handle)⟩ :: qs := by
  obtain ⟨p, w, i, hm, hi, hk, hstep⟩ := hs.look hx living
  cases hk k rfl
  exact ⟨p, w, i, _, hm, hi, hstep _ (.find _), by simp [Site.setInquiries]⟩

end Site

end SyncCore.Manager

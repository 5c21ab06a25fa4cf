import SyncCore.Proofs.Identity.Numberings

/-!
# A thread finds itself

A thread's function is invoked when its object is bound and registered, and
nobody frees the slot before the function has ended. As long as no two threads
of a platform have one number, the thread finds its own object and no other.
-/

set_option autoImplicit false

namespace SyncCore.Manager

variable {V : Type}

/-! ## Threads inside their functions -/

theorem Owner.passed_of_released {w : Owner V} (h : w.tenure = .released) : w.passed = true := by
  cases w with
  | destroying joined pc =>
    cases pc with
    | check => cases h
    | done r => rcases r with e | u <;> first | rfl | cases h
    | unregister => rfl
    | _ => rfl
  | destroyed => rfl
  | dropping joined pc => cases pc <;> cases h
  | _ => cases h

namespace World

variable {w u : World V} {id : ObjectId} {th th' : Thread V}

theorem Reached.registered (hw : w.Reached) (ht : w.threads id = some th)
    (hc : th.creation.stage = .accepted) (he : th.routine.ended = false) :
    some id ∈ w.table := by
  obtain ⟨capacity, ho, hl⟩ := hw.occupied
  have hslot := (ho.used id th ht).accepted hc
  have hf : th.routine.finished ≠ true := fun h => nomatch he.symm.trans (finished_ended h)
  cases hk : th.owner.tenure <;> rw [hk] at hslot
  case kept => exact hslot.1
  case released => cases he.symm.trans (hl id th ht (Owner.passed_of_released hk))
  case leaving => exact hslot.2.resolve_right hf
  case clearing => cases he.symm.trans hslot.2.1
  case left => exact hslot.2.1 he

/-- Behind the open gate an object is bound to its backend thread. -/
theorem Gated.bound (hw : w.Gated) (ht : w.threads id = some th)
    (hr : th.routine.entered = true) :
    ∃ b, th.shared.object.binding = some b ∧ w.backendThread? id = some b ∧
      w.handleOf id = some b.handle := by
  obtain ⟨b, hb⟩ := Option.isSome_iff_exists.mp ((hw id th ht).behind hr).1
  refine ⟨b, hb, ?_, by simp [handleOf, ht, ThreadObject.handle, hb]⟩
  rw [backendThread?, ht, Option.bind_some, (hw id th ht).spawned_of_bound hb]

/-- A thread that is inside its function and was accepted has been so before
any step but its own routine's. -/
theorem Gated.inside_before {c : Choice V} (hw : w.Gated) (h : step? c w = some u)
    (hc : ∀ o, c ≠ .act id .routine o) (hu : u.threads id = some th') (hb : th'.routine = .body)
    (ha : th'.creation.stage = .accepted) :
    ∃ th, w.threads id = some th ∧ th.routine = .body ∧ th.creation.stage = .accepted := by
  obtain ⟨he, -⟩ | ⟨r, -, hq, -⟩ | ⟨th, tq, k, ht, hq, rfl, hbegin⟩ |
    ⟨th, tq, p, o, t, ht, hq, rfl, hact⟩ | ⟨th, tq, p, ht, hq, rfl, hf⟩ := step_target h id
  · exact ⟨th', he ▸ hu, hb, ha⟩
  · cases hq.symm.trans hu
    cases hb
  · cases hq.symm.trans hu
    obtain ⟨-, -, ⟨k, -, rfl⟩ | ⟨-, v, -, rfl⟩⟩ := Thread.begin_cases hbegin <;>
      exact ⟨th, ht, hb, ha⟩
  · cases hq.symm.trans hu
    obtain ⟨a, r, x, s', rfl, hn, -, rfl⟩ | ⟨a, r, x, s', rfl, -, -, rfl⟩ |
      ⟨v, s', rfl, -, rfl⟩ | ⟨i, d, d', s', rfl, -, -, rfl⟩ := Thread.act_cases hact
    · refine ⟨th, ht, hb, ?_⟩
      obtain hk | ⟨⟨e, he⟩, -⟩ := ((hw id th ht).behind (by rw [hb]; rfl)).2
      · exact hk
      · rw [he] at hn
        cases hn
    · exact absurd rfl (hc o)
    · exact ⟨th, ht, hb, ha⟩
    · exact ⟨th, ht, hb, ha⟩
  · cases hq.symm.trans hu
    obtain ⟨v, -, rfl⟩ | ⟨k, d, -, -, rfl⟩ := Thread.finish_cases hf <;> exact ⟨th, ht, hb, ha⟩

end World

/-! ## What a search finds -/

namespace Site

variable {N : Numbering} {s t : Site N V} {m p : Nat} {w : World V} {id : ObjectId}

theorem Coherent.distinct_before {e : Event V} (hs : s.Coherent) (h : step? e s = some t)
    (hd : t.Distinct) : s.Distinct := fun p n x y hx hy =>
  hd p n x y (hs.identity_kept h hx) (hs.identity_kept h hy)

theorem Coherent.found_itself (hs : s.Coherent) (hd : s.Distinct)
    (hm : s.managers m = some (p, w)) {th : Thread V} (ht : w.threads id = some th)
    (hb : th.routine = .body) (hc : th.creation.stage = .accepted) {i : Identity}
    (hi : s.identities (.managed m id) = some i) (living : ObjectId → Bool) :
    w.find? living i.handle = some id := by
  have hw := hs.reached hm
  obtain ⟨b, -, hbt, hh⟩ := hw.gated.bound ht (by rw [hb]; rfl)
  have hi' : i = ⟨some p, b.handle⟩ := by
    rw [hs.numbered hm, hbt, Option.map_some] at hi
    exact (Option.some.inj hi).symm
  subst hi'
  cases hf : w.find? living b.handle with
  | none =>
    refine absurd hh (Table.find?_none hf (hw.registered ht hc (by rw [hb]; rfl)) ?_)
    simp [World.alive, ht, Thread.held, hb, Routine.Pc.over]
  | some o =>
    cases hd p b.handle _ _ hi (hs.bearer hm hf)
    rfl

def Inside (s : Site N V) (m : Nat) (id : ObjectId) : Prop :=
  ∃ p w th, s.managers m = some (p, w) ∧ w.threads id = some th ∧ th.routine = .body ∧
    th.creation.stage = .accepted

/-- A thread that has asked and is inside its function was inside before, since
it does not go on with its routine while it asks. -/
theorem Coherent.inside_before {e : Event V} (hs : s.Coherent) (h : step? e s = some t)
    (hq : s.inquiries (.managed m id) ≠ []) (ht : t.Inside m id) : s.Inside m id := by
  obtain ⟨p, w', th', hm, hth, hb, hc⟩ := ht
  obtain hm | ⟨-, k, rfl⟩ | ⟨c, w, rfl, hm, hbusy, hw⟩ := step_managers h hm
  · exact ⟨p, w', th', hm, hth, hb, hc⟩
  · cases hth
  · refine ⟨p, w, ((hs.reached hm).gated.inside_before hw ?_ hth hb hc).imp fun th h => ⟨hm, h⟩⟩
    rintro o rfl
    simp [busy, hq] at hbusy

def Answered (m : Nat) (id : ObjectId) (s : Site N V) : Prop :=
  s.Inside m id → ∀ q ∈ s.inquiries (.managed m id), q.manager = m →
    ∀ r, q.pc.result? = some r → r = some id

theorem answered_step {e : Event V} (hs : s.Coherent) (hd : s.Distinct) (ha : Answered m id s)
    (h : step? e s = some t) : Answered m id t := by
  intro hin a hmem hman r hr
  obtain hold | hstart | ⟨living, q, p, w, i, hq, hqm, hm, hi, hl⟩ := step_inquiries h hmem
  · exact ha (hs.inside_before h (List.ne_nil_of_mem hold) hin) a hold hman r hr
  · rw [hstart] at hr
    cases hr
  · have hin := hs.inside_before h (List.ne_nil_of_mem hq) hin
    rw [hman] at hqm hm
    generalize a.pc = pc at hl hr
    generalize hpc : q.pc = pc₀ at hl
    cases hl with
    | ask => cases hr
    | find k =>
      cases hr
      obtain ⟨-, j, hj, hk⟩ := hs.asking hq
      cases hi.symm.trans hj
      obtain ⟨p', w', th, hm', ht, hb, hc⟩ := hin
      cases hm.symm.trans hm'
      rw [hk k hpc]
      exact hs.found_itself hd hm ht hb hc hi living
    | announce k r₀ => exact ha hin q hq hqm r (by rw [hpc]; exact hr)

theorem answered_run {es : List (Event V)} (h : run? step? es initial = some s) (hd : s.Distinct)
    (m : Nat) (id : ObjectId) : Answered m id s :=
  run_keeps_within (fun _ _ _ hs hst => coherent_step hs hst)
    (fun _ _ _ hs hst => hs.distinct_before hst)
    (fun _ _ _ hs hd hst ha => answered_step hs hd ha hst)
    h coherent_initial (fun _ _ hq => nomatch hq) hd

/-- What a thread inside its function can rely on. -/
structure Established (s : Site N V) (m p : Nat) (w : World V) (id : ObjectId) (th : Thread V) :
    Prop where
  bound : ∃ b, th.shared.object.binding = some b ∧
    s.identities (.managed m id) = some ⟨some p, b.handle⟩
  registered : some id ∈ w.table ∨
    (∃ e, th.creation = .done (.error e)) ∧ th.shared.object.detached = true

structure SelfAware (s : Site N V) (m : Nat) (id : ObjectId) (th : Thread V) : Prop where
  live : th.shared.object.state = .running ∨ th.shared.object.state = .suspended
  answer : ∀ q ∈ s.inquiries (.managed m id), q.manager = m → ∀ r, q.pc = .done r → r = some id
  proceeds : s.Proceeds (.managed m id)

/-- In every run of a process, a thread whose function is running is bound and
is registered or, where that failed, marked as detached. Unless its creation
has failed, it finds itself whenever it asks its manager, if no two threads of
a platform have one number. -/
theorem thread_finds_itself {es : List (Event V)} {th : Thread V}
    (h : run? step? es initial = some s) (hm : s.managers m = some (p, w))
    (ht : w.threads id = some th) (hb : th.routine = .body) :
    s.Established m p w id th ∧
      (s.Distinct → (∀ e, th.creation ≠ .done (.error e)) → s.SelfAware m id th) := by
  have hs := coherent_run h
  have hw := hs.reached hm
  have hentered : th.routine.entered = true := by rw [hb]; rfl
  obtain ⟨b, hbound, hspawned, -⟩ := hw.gated.bound ht hentered
  have hcreation := ((hw.gated id th ht).behind hentered).2
  refine ⟨⟨⟨b, hbound, by rw [hs.numbered hm, hspawned, Option.map_some]⟩, ?_⟩, fun hd hc => ?_⟩
  · exact hcreation.imp_left fun ha => hw.registered ht ha (by rw [hb]; rfl)
  · have ha : th.creation.stage = .accepted :=
      hcreation.resolve_right fun hf => hf.1.elim hc
    exact ⟨hw.live ht (by rw [hb]; rfl), fun q hq hqm r hr =>
      answered_run h hd m id ⟨p, w, th, hm, ht, hb, ha⟩ q hq hqm r (by rw [hr]; rfl),
      hs.proceeds _⟩

/-- A thread asks for itself twice, once before and once after its owner has
dropped the handle. -/
def askedTwice : List (Event Unit) :=
  let creator := List.replicate 5 (.act 0 (.act 1 .creator .agreeable))
  let routine := List.replicate 2 (.act 0 (.act 1 .routine .agreeable))
  let dropping := .act 0 (.begin 1 .drop) ::
    List.replicate 5 (.act 0 (.act 1 .owner .agreeable)) ++ [.act 0 (.finish 1 .owner)]
  [.opening 0 0 1, .act 0 (.create ⟨1, .default, 0⟩)] ++ creator ++ routine ++
    Event.inquiry (.managed 0 1) 0 ++ [.answer (.managed 0 1)] ++ dropping ++
    Event.inquiry (.managed 0 1) 0

theorem asked_twice_finds_itself :
    ∃ (s : Site .mock Unit) (w : World Unit) (th : Thread Unit),
      run? step? askedTwice initial = some s ∧ s.managers 0 = some (0, w) ∧
      w.threads 1 = some th ∧ th.routine = .body ∧ th.owner = .dropped ∧
      s.inquiries (.managed 0 1) = [⟨0, .done (some 1)⟩] ∧
      s.Established 0 0 w 1 th ∧ s.SelfAware 0 1 th := by
  obtain ⟨s, h⟩ : ∃ s, run? step? askedTwice (initial : Site .mock Unit) = some s := ⟨_, rfl⟩
  obtain ⟨w, th, hm, ht, hb, hc, ho, hq⟩ : ∃ w th, s.managers 0 = some (0, w) ∧
      w.threads 1 = some th ∧ th.routine = .body ∧ th.creation = .done (.ok ()) ∧
      th.owner = .dropped ∧ s.inquiries (.managed 0 1) = [⟨0, .done (some 1)⟩] := by
    cases h
    exact ⟨_, _, rfl, rfl, rfl, rfl, rfl, rfl⟩
  have hd : s.Distinct := mock_distinct h fun p => Nat.lt_of_le_of_lt (tally_le _ _ _) (by decide)
  obtain ⟨he, ha⟩ := thread_finds_itself h hm ht hb
  exact ⟨s, w, th, h, hm, ht, hb, ho, hq, he, ha hd fun e => by rw [hc]; exact nofun⟩

end Site

end SyncCore.Manager

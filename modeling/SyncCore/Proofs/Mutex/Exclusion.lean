import SyncCore.Proofs.Mutex.Custody

/-!
# Exclusion and safe teardown

Each client releases only what it has acquired. Then the holds of the clients
and what their calls have in custody add up to the raw lock, so there is at
most one holder. A destroy writes that the mutex is destroyed only while it
has the raw lock itself, so the status stays usable as long as there is a
holder, and a holder is never refused the release.
-/

set_option autoImplicit false

namespace SyncCore.Mutex

variable {Hint R : Type} {n : Nat} {call : RawCalls Hint R} {held : R → Bool}

def Client.Holding (c : Client) : Prop := 0 < c.holds ∨ ∃ d ∈ c.calls, d.holding = true

def Client.claims (c : Client) : Nat := c.holds + (c.calls.map fun d => d.holding.toNat).sum

theorem Client.claims_pos {c : Client} (h : c.Holding) : 0 < c.claims := by
  unfold Client.claims
  rcases h with h | ⟨d, hd, hh⟩
  · omega
  · have hl : d.holding.toNat ≤ (c.calls.map fun d => d.holding.toNat).sum :=
      List.single_le_sum (fun _ _ => Nat.zero_le _) _ (List.mem_map_of_mem hd)
    rw [hh, Bool.toNat_true] at hl
    omega

def Owned (s : Scene R n) : Choice Hint n → Scene R n → Prop
  | .begin i op, _ => op.entrusted ≤ (s.clients i).holds
  | _, _ => True

/-! ## The invariant -/

def Scene.claims (s : Scene R n) : Nat := ∑ i, (s.clients i).claims

def Call.spare (c : Call) : Nat := c.custody - c.holding.toNat

/-- Every call has in custody what its program point says, all holds and
custody make up the raw lock, and nobody has a claim in an unusable status. -/
structure Sound (held : R → Bool) (s : Scene R n) : Prop where
  fits : s.Each Call.Fits
  balance : s.holds + s.sum Call.custody = (held s.mutex.raw).toNat
  lawful : s.mutex.status.usable = false → s.claims = 0

namespace Scene

variable {s t : Scene R n}

theorem claims_eq (s : Scene R n) : s.claims = s.holds + s.sum fun c => c.holding.toNat := by
  simp only [claims, Client.claims, Finset.sum_add_distrib]
  rfl

theorem client_claims_le (s : Scene R n) (i : Fin n) : (s.clients i).claims ≤ s.claims :=
  Finset.single_le_sum (f := fun j => (s.clients j).claims) (fun _ _ => Nat.zero_le _)
    (Finset.mem_univ i)

/-- Custody is a claim, or it is spare: the call has the lock for itself. -/
theorem sum_custody (h : s.Each Call.Fits) :
    s.sum Call.custody = (s.sum fun c => c.holding.toNat) + s.sum Call.spare := by
  rw [← sum_add]
  refine sum_congr fun i c hc => ?_
  have := holding_le_custody (h i c hc)
  simp only [Call.spare]
  omega

end Scene

namespace Sound

variable {s t : Scene R n}

theorem initial {m : State R} (h : held m.raw = false) :
    Sound held (Scene.initial m : Scene R n) where
  fits := fun _ _ hc => nomatch hc
  balance := by simp [Scene.initial, Scene.holds, Scene.sum, h]
  lawful := fun _ => by simp [Scene.initial, Scene.claims_eq, Scene.holds, Scene.sum]

theorem held_of_custody (hs : Sound held s) {i : Fin n} {c : Call} (hc : c ∈ (s.clients i).calls)
    (hk : 0 < c.custody) : held s.mutex.raw = true := by
  have hl := Scene.le_sum Call.custody hc
  have hb := hs.balance
  cases hh : held s.mutex.raw with
  | true => rfl
  | false =>
    rw [hh, Bool.toNat_false] at hb
    omega

theorem usable_of_holding (hs : Sound held s) {i : Fin n} {c : Call}
    (hc : c ∈ (s.clients i).calls) (hk : c.holding = true) : s.mutex.status.usable = true := by
  have hl := Scene.le_sum (fun d => d.holding.toNat) hc
  cases hu : s.mutex.status.usable with
  | true => rfl
  | false =>
    have hz := hs.lawful hu
    simp only [Scene.claims_eq, hk, Bool.toNat_true] at hz hl
    omega

theorem not_releasing (hs : Sound held s) (hu : s.mutex.status.usable = false) {i : Fin n}
    {c : Call} (hc : c ∈ (s.clients i).calls) : c.pc ≠ .unlockRaw := by
  intro hp
  have hf := hs.fits i c hc
  have hr : c.op.role = .releasing := by
    rw [Call.Fits, hp] at hf
    cases hr : c.op.role with
    | releasing => rfl
    | acquiring => rw [hr] at hf; cases hf
    | other => rw [hr] at hf; cases hf
  have hh : c.holding = true := by simp [Call.holding, hr, Call.succeeded, hp, succeeded]
  exact absurd (hu.symm.trans (hs.usable_of_holding hc hh)) (by decide)

theorem begin {i : Fin n} {op : Op} (hs : Sound held s) (ho : op.entrusted ≤ (s.clients i).holds)
    (h : Scene.step? call (.begin i op) s = some t) : Sound held t := by
  cases Scene.step_begin h
  have hh := Scene.holds_put s i
    ⟨(s.clients i).holds - op.entrusted, .begin op :: (s.clients i).calls⟩ s.mutex
  have hp := fun f =>
    Scene.sum_push (s := s) f i ((s.clients i).holds - op.entrusted) (.begin op) s.mutex
  simp only at hh
  refine ⟨Scene.each_push hs.fits (begin_fits op), ?_, ?_⟩
  · have hb := hs.balance
    rw [hp]
    simp only [Call.begin, Scene.put] at hb ⊢ hh
    omega
  · intro hu
    have hz := hs.lawful hu
    rw [Scene.claims_eq, hp, begin_holding]
    rw [Scene.claims_eq] at hz
    omega

theorem act {i : Fin n} {hint : Hint} (hx : Exclusive call held) (hs : Sound held s)
    (h : Scene.step? call (.act i hint) s = some t) : Sound held t := by
  obtain ⟨c, cs, c', m, hc, ha, rfl⟩ := Scene.step_act h
  have hm : c ∈ (s.clients i).calls := hc ▸ List.mem_cons_self
  have hf := hs.fits i c hm
  obtain ⟨hf', hu', hst⟩ := call_act hx ha hf (hs.held_of_custody hm) (hs.usable_of_holding hm)
  have hfits : (s.put i ⟨(s.clients i).holds, c' :: cs⟩ m).Each Call.Fits :=
    Scene.each_replace hc hs.fits hf'
  have hh := Scene.holds_put s i ⟨(s.clients i).holds, c' :: cs⟩ m
  have hp := fun f => Scene.sum_replace f hc (s.clients i).holds c' m
  have hb : (s.put i ⟨(s.clients i).holds, c' :: cs⟩ m).holds +
      (s.put i ⟨(s.clients i).holds, c' :: cs⟩ m).sum Call.custody = (held m.raw).toNat := by
    have hb := hs.balance
    have hk := hp Call.custody
    have hc := call_balance hx ha hf
    simp only at hh
    omega
  refine ⟨hfits, hb, fun hu => ?_⟩
  have hn : c'.holding = false := by
    cases hd : c'.holding with
    | false => rfl
    | true => exact absurd ((hu' hd).symm.trans hu) (by decide)
  rcases hst with hst | hst | ⟨hk, -⟩
  · have hz := hs.lawful (hst ▸ hu)
    have hd := hp fun d => d.holding.toNat
    simp only [hn, Scene.claims_eq, Bool.toNat_false] at hz hd hh ⊢
    omega
  · exact absurd (hst.symm.trans hu) (by decide)
  · have hd := Scene.le_sum (s := s.put i ⟨(s.clients i).holds, c' :: cs⟩ m) Call.spare
      (i := i) (c := c') (by simp [Scene.put])
    rw [Scene.sum_custody hfits] at hb
    have := Bool.toNat_le (held m.raw)
    simp only [Call.spare, hn, hk, Bool.toNat_false] at hd
    simp only [Scene.claims_eq]
    omega

theorem finish {i : Fin n} (hs : Sound held s) (h : Scene.step? call (.finish i) s = some t) :
    Sound held t := by
  obtain ⟨c, cs, hc, he, rfl⟩ := Scene.step_finish h
  have hm : c ∈ (s.clients i).calls := hc ▸ List.mem_cons_self
  obtain ⟨hk, hd⟩ := ended_gain (hs.fits i c hm) he
  have hh := Scene.holds_put s i ⟨(s.clients i).holds + c.gain, cs⟩ s.mutex
  have hp := fun f => Scene.sum_pop f hc ((s.clients i).holds + c.gain) s.mutex
  simp only at hh
  refine ⟨Scene.each_pop hc hs.fits, ?_, ?_⟩
  · have hb := hs.balance
    have hc := hp Call.custody
    simp only [Scene.put] at hb hh hc ⊢
    omega
  · intro hu
    have hz := hs.lawful hu
    have hc := hp fun d => d.holding.toNat
    simp only [Scene.claims_eq] at hz hc ⊢
    omega

theorem step (hx : Exclusive call held) (hs : Sound held s) {c : Choice Hint n}
    (h : Scene.step? call c s = some t) (ho : Owned s c t) : Sound held t := by
  cases c with
  | begin i op => exact hs.begin ho h
  | act i hint => exact hs.act hx h
  | finish i => exact hs.finish h

/-! ## What the invariant says -/

theorem run (hx : Exclusive call held) {cs : List (Choice Hint n)} {m : State R}
    (hm : held m.raw = false) (ho : Throughout (Scene.step? call) Owned cs (Scene.initial m))
    (h : run? (Scene.step? call) cs (Scene.initial m) = some s) : Sound held s :=
  run_keeps_throughout (fun _ _ _ hs h ho => hs.step hx h ho) h ho (.initial hm)

theorem claims_le (hs : Sound held s) : s.claims ≤ (held s.mutex.raw).toNat := by
  have hb := hs.balance
  rw [Scene.sum_custody hs.fits] at hb
  rw [Scene.claims_eq]
  omega

theorem unique (hs : Sound held s) {i j : Fin n} (hi : (s.clients i).Holding)
    (hj : (s.clients j).Holding) : i = j := by
  by_contra hne
  have hl := Finset.add_le_sum (f := fun k => (s.clients k).claims) (fun _ _ => Nat.zero_le _)
    (Finset.mem_univ i) (Finset.mem_univ j) hne
  have hi := Client.claims_pos hi
  have hj := Client.claims_pos hj
  have hc : ∑ k, (s.clients k).claims ≤ (held s.mutex.raw).toNat := hs.claims_le
  have hb := Bool.toNat_le (held s.mutex.raw)
  omega

theorem claims_le_one (hs : Sound held s) (i : Fin n) : (s.clients i).claims ≤ 1 :=
  (s.client_claims_le i).trans (hs.claims_le.trans (Bool.toNat_le _))

theorem locked (hs : Sound held s) {i : Fin n} (hi : (s.clients i).Holding) :
    held s.mutex.raw = true ∧ s.mutex.status.usable = true := by
  have hp : 0 < s.claims := (Client.claims_pos hi).trans_le (s.client_claims_le i)
  have hc := hs.claims_le
  constructor
  · cases hh : held s.mutex.raw with
    | true => rfl
    | false =>
      rw [hh, Bool.toNat_false] at hc
      omega
  · cases hu : s.mutex.status.usable with
    | true => rfl
    | false =>
      have := hs.lawful hu
      omega

theorem released (hs : Sound held s) {i : Fin n} {c : Call} (hc : c ∈ (s.clients i).calls)
    (hr : c.op.role = .releasing) (he : c.ended = true) : c.pc = succeeded := by
  have hf := hs.fits i c hc
  obtain ⟨op, pc, k⟩ := c
  simp only [Call.Fits] at hf hr
  rw [hr] at hf
  cases pc with
  | done r => rcases r with (e | u) | b <;> first | rfl | cases hf
  | _ => cases he

theorem refused (hs : Sound held s) {i : Fin n} {c : Call} (hc : c ∈ (s.clients i).calls)
    (hr : c.op.role = .acquiring) (he : c.ended = true) (hp : c.pc ≠ succeeded) :
    c.custody = 0 := by
  have hf := hs.fits i c hc
  obtain ⟨op, pc, k⟩ := c
  simp only [Call.Fits] at hf hr
  rw [hr] at hf
  cases pc with
  | done r =>
    rcases r with (e | u) | b
    · exact (Option.some.inj hf).symm
    · exact absurd rfl hp
    · cases hf
  | _ => cases he

theorem unlock_returns (hx : Exclusive call held) (hs : Sound held s) {i : Fin n} {op : Op}
    {pc after : Pc} {cs : List Call} (hc : (s.clients i).calls = ⟨op, pc, 1⟩ :: cs)
    (hn : next pc = .act (.raw .unlock) (orFail after)) {hint : Hint}
    (ha : ∀ r, held r = true → (call hint .unlock r).isSome) :
    ∃ t, Scene.step? call (.act i hint) s = some t ∧
      (t.clients i).calls = ⟨op, after, 0⟩ :: cs := by
  have hm : ⟨op, pc, 1⟩ ∈ (s.clients i).calls := hc ▸ List.mem_cons_self
  have hh := hs.held_of_custody hm Nat.one_pos
  obtain ⟨⟨x, r⟩, hu⟩ := Option.isSome_iff_exists.mp (ha _ hh)
  have he : effect call hint (.raw .unlock) s.mutex = some (x, { s.mutex with raw := r }) := by
    rw [effect, hu]
    rfl
  cases unlock_succeeds hx he hh
  have hact := Call.act_of (c := ⟨op, pc, 1⟩) hn he
  exact ⟨_, Scene.act_of hc hact, by simp [Scene.put, orFail, Action.custody]⟩

theorem raw_release_returns (hx : Exclusive call held) (hs : Sound held s) {i : Fin n} {op : Op}
    {k : Nat} {cs : List Call} (hc : (s.clients i).calls = ⟨op, .unlockRaw, k⟩ :: cs)
    (hr : op.role = .releasing) {hint : Hint}
    (ha : ∀ r, held r = true → (call hint .unlock r).isSome) :
    ∃ t, Scene.step? call (.act i hint) s = some t ∧
      (t.clients i).calls = ⟨op, succeeded, 0⟩ :: cs := by
  have hf := hs.fits i _ (hc ▸ List.mem_cons_self)
  rw [Call.Fits, hr] at hf
  cases hf
  exact hs.unlock_returns hx hc rfl ha

/-- A release that has been begun is done with its answer in two actions of
its client, unless the raw lock keeps it waiting. -/
theorem release_returns (hx : Exclusive call held) (hs : Sound held s) {i : Fin n} {c : Call}
    {cs : List Call} (hc : (s.clients i).calls = c :: cs) (hr : c.op.role = .releasing)
    {hint : Hint} (ha : ∀ r, held r = true → (call hint .unlock r).isSome) :
    ∃ k t, k ≤ 2 ∧ run? (Scene.step? call) (List.replicate k (.act i hint)) s = some t ∧
      (t.clients i).calls = ⟨c.op, succeeded, 0⟩ :: cs := by
  have hm : c ∈ (s.clients i).calls := hc ▸ List.mem_cons_self
  have hf := hs.fits i c hm
  obtain ⟨op, pc, k⟩ := c
  simp only [Call.Fits] at hf hr
  rw [hr] at hf
  cases pc with
  | unlockCheck =>
    have hu := hs.usable_of_holding hm (by simp [Call.holding, hr, Call.succeeded, succeeded])
    have he : effect call hint .load s.mutex = some (s.mutex.status, s.mutex) := rfl
    have hact := Call.act_of (c := ⟨op, .unlockCheck, k⟩) rfl he
    obtain ⟨t, ht, htc⟩ : ∃ t, Scene.step? call (.act i hint) s = some t ∧
        (t.clients i).calls = ⟨op, .unlockRaw, k⟩ :: cs :=
      ⟨_, Scene.act_of hc hact, by simp [Scene.put, hu, Action.custody]⟩
    obtain ⟨u, hu, huc⟩ := (hs.act hx ht).raw_release_returns hx htc hr ha
    exact ⟨2, u, le_refl 2, by simp [List.replicate, run?, ht, hu], huc⟩
  | unlockRaw =>
    obtain ⟨u, hu, huc⟩ := hs.raw_release_returns hx hc hr ha
    exact ⟨1, u, by decide, by simp [run?, hu], huc⟩
  | done r =>
    rcases r with (e | u) | b <;> cases hf
    exact ⟨0, s, by decide, rfl, hc⟩
  | _ => cases hf

end Sound

/-! ## Whole runs -/

instance (s : Scene R n) (c : Choice Hint n) (t : Scene R n) : Decidable (Owned s c t) :=
  match c with
  | .begin i op => inferInstanceAs (Decidable (op.entrusted ≤ (s.clients i).holds))
  | .act _ _ => .isTrue trivial
  | .finish _ => .isTrue trivial

structure Guarded (call : RawCalls Hint R) (held : R → Bool) (s : Scene R n) : Prop where
  unique : ∀ i j, (s.clients i).Holding → (s.clients j).Holding → i = j
  once : ∀ i, (s.clients i).claims ≤ 1
  locked : ∀ i, (s.clients i).Holding → held s.mutex.raw = true ∧ s.mutex.status.usable = true
  released : ∀ i, ∀ c ∈ (s.clients i).calls, c.op.role = .releasing → c.ended = true →
    c.pc = succeeded
  /-- A release is answered with success in two actions of its client, unless
  the raw lock keeps it waiting. -/
  returns : ∀ hint, (∀ r, held r = true → (call hint .unlock r).isSome) →
    ∀ i c cs, (s.clients i).calls = c :: cs → c.op.role = .releasing →
      ∃ k t, k ≤ 2 ∧ run? (Scene.step? call) (List.replicate k (.act i hint)) s = some t ∧
        (t.clients i).calls = ⟨c.op, succeeded, 0⟩ :: cs
  refused : ∀ i, ∀ c ∈ (s.clients i).calls, c.op.role = .acquiring → c.ended = true →
    c.pc ≠ succeeded → c.custody = 0

/-- Over an exclusive raw lock that starts free, clients that release only
what they hold exclude one another in every run, whatever the status at the
start and however often the mutex is destroyed and initialized again. -/
theorem clients_exclude_one_another (hx : Exclusive call held) {m : State R}
    (hm : held m.raw = false) {cs : List (Choice Hint n)} {s : Scene R n}
    (ho : Throughout (Scene.step? call) Owned cs (Scene.initial m))
    (h : run? (Scene.step? call) cs (Scene.initial m) = some s) : Guarded call held s := by
  have hs : Sound held s := .run hx hm ho h
  exact {
    unique := fun _ _ hi hj => hs.unique hi hj
    once := hs.claims_le_one
    locked := fun _ hi => hs.locked hi
    released := fun _ _ hc hr he => hs.released hc hr he
    returns := fun _ ha _ _ _ hc hr => hs.release_returns hx hc hr ha
    refused := fun _ _ hc hr he hp => hs.refused hc hr he hp }

def first : Fin 2 := 0

def second : Fin 2 := 1

def contendedDestroy : List (Choice Nat 2) :=
  [.begin first .lock, .act first 0, .act first 0, .act first 0, .finish first,
    .begin second .destroy, .act second 1, .act second 1]

theorem holder_survives_destroy :
    ∃ s : Scene RawLock 2,
      run? (Scene.step? RawLock.call) contendedDestroy (.initial (.ofRaw .newFlag)) = some s ∧
        (s.clients first).Holding ∧ s.mutex.status = .destroying ∧
          Guarded RawLock.call RawLock.held s := by
  have ho : Throughout (Scene.step? RawLock.call) Owned contendedDestroy
      (.initial (.ofRaw .newFlag)) := by decide
  exact ⟨_, rfl, .inl Nat.one_pos, rfl,
    clients_exclude_one_another RawLock.exclusive (m := .ofRaw .newFlag) rfl ho rfl⟩

end SyncCore.Mutex

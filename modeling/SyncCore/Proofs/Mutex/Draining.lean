import SyncCore.Proofs.Mutex.Afterlife

/-!
# The retries of a destroy

A destroy that has marked the mutex gives the raw lock back and then asks for
its destruction until it is no longer told that the lock is busy. Only calls
that had passed their entry check by then can take the raw lock, each of them
once. Such a call finds the mark, gives the lock back and is refused. So the
loop is held up by finitely many holdings.
-/

set_option autoImplicit false

namespace SyncCore.Mutex

variable {Hint R : Type} {n : Nat} {call : RawCalls Hint R} {held : R → Bool}

def Scene.own (f : Call → Nat) (s : Scene R n) (i : Fin n) : Nat := ((s.clients i).calls.map f).sum

/-- What one client does with the raw lock once a destroy has given it back. -/
structure Account where
  /-- Its calls that were between their entry check and their answer then. -/
  late : Nat
  takes : Nat
  /-- How often it has given the raw lock back and was told that the mutex is
  not initialized. -/
  returns : Nat
  deriving DecidableEq

def Call.taken (c c' : Call) : Nat := c'.custody - c.custody

def Call.returned (c c' : Call) : Nat :=
  if c'.pc = failed .notInitialized then c.custody - c'.custody else 0

def Account.after (a : Account) (c c' : Call) : Account :=
  { a with takes := a.takes + c.taken c', returns := a.returns + c.returned c' }

/-- A destroy that has marked the mutex gives the raw lock back. -/
def Loosens (c c' : Call) : Prop := c.pc = .destroyGiveBack ∧ c'.pc = .destroyRaw

instance (c c' : Call) : Decidable (Loosens c c') := inferInstanceAs (Decidable (_ ∧ _))

abbrev Ledger (n : Nat) : Type := Fin n → Account

def record (call : RawCalls Hint R) (s : Scene R n) (ch : Choice Hint n) (l : Option (Ledger n)) :
    Option (Ledger n) :=
  match ch, (Scene.step? call ch s).bind (moved s ch) with
  | .act i _, some (c, c') =>
    if Loosens c c' then some fun j => ⟨s.own Call.late j, 0, 0⟩
    else l.map fun l => Function.update l i ((l i).after c c')
  | _, _ => l

def Initless (_ : Scene R n) : Choice Hint n → Scene R n → Prop
  | .begin _ op, _ => op ≠ .init
  | _, _ => True

def OneAtATime (s : Scene R n) : Choice Hint n → Scene R n → Prop
  | .begin i _, _ => (s.clients i).calls = []
  | _, _ => True

instance (s : Scene R n) (ch : Choice Hint n) (t : Scene R n) : Decidable (Initless s ch t) :=
  match ch with
  | .begin _ op => inferInstanceAs (Decidable (op ≠ .init))
  | .act _ _ => .isTrue trivial
  | .finish _ => .isTrue trivial

instance (s : Scene R n) (ch : Choice Hint n) (t : Scene R n) : Decidable (OneAtATime s ch t) :=
  match ch with
  | .begin i _ => inferInstanceAs (Decidable ((s.clients i).calls = []))
  | .act _ _ => .isTrue trivial
  | .finish _ => .isTrue trivial

def Patient (call : RawCalls Hint R) : Prop :=
  ∀ hint r x r', call hint .destroy r = some (x, r') → x = .ok () ∨ x = .error .busy

/-! ## What a call does once the raw lock has been given back -/

def Call.queued (c : Call) : Nat := (decide (c.pc.debt = 2)).toNat

def Call.engaged (c : Call) : Nat :=
  (decide (c.pc.phase ≠ .outside ∧ c.pc ≠ .destroyRaw)).toNat

theorem queued_le_late (c : Call) : c.queued ≤ c.late := by
  obtain ⟨op, pc, k⟩ := c
  cases pc <;> simp [Call.queued, Call.late, Pc.debt]

theorem engaged_le (c : Call) : c.engaged ≤ c.isAt .claimed + c.isAt .marked := by
  obtain ⟨op, pc, k⟩ := c
  cases pc <;> simp [Call.engaged, Call.isAt, Pc.phase]

inductive Drain : Pc → Nat → Pc → Nat → Prop where
  | take {waits : Bool} : Drain (.acquireRaw waits) 0 .acquireConfirm 1
  | caught : Drain .acquireConfirm 1 .acquireGiveBack 1
  | giveBack : Drain .acquireGiveBack 1 (failed .notInitialized) 0
  | again {k : Nat} : Drain .destroyRaw k .destroyRaw k
  | answered {pc : Pc} {k : Nat} {r : LockReply} : Drain pc k (.done r) k

section Points

variable {hint : Hint} {pc : Pc} {a : Action} {resume : a.Answer → Pc} {x : a.Answer}
  {m m' : State R}

theorem drain_act (hx : Exclusive call held) (hp : Patient call) (hn : next pc = .act a resume)
    (he : effect call hint a m = some (x, m')) (hd : m.status = .destroyed) {op : Op} {k : Nat}
    (hk : op.role.owes pc = some k) (hh : 0 < k → held m.raw = true)
    (hi : ∀ e, pc ≠ .initFrom e) (ho : pc.phase = .outside ∨ pc = .destroyRaw)
    (hu : pc ≠ .unlockRaw) :
    Drain pc k (resume x) (a.custody x k) ∧ m'.status = .destroyed := by
  obtain ⟨σ, raw⟩ := m
  cases hd
  cases pc with
  | initFrom e => exact absurd rfl (hi e)
  | initReport | destroyClaim | acquireCheck waits | unlockCheck | lookCheck
  | initializedCheck =>
    cases hn
    cases he
    exact ⟨.answered, rfl⟩
  | acquireRaw waits =>
    obtain rfl : k = 0 :=
      owes_agree hk (rfl : Role.acquiring.owes (.acquireRaw waits) = some 0) (by simp)
    cases waits <;> cases hn <;> obtain ⟨r, -, rfl⟩ := effect_raw he
    all_goals
      rcases x with e | u
      · exact ⟨.answered, rfl⟩
      · exact ⟨.take, rfl⟩
  | acquireConfirm =>
    obtain rfl : k = 1 :=
      owes_agree hk (rfl : Role.acquiring.owes .acquireConfirm = some 1) (by simp)
    cases hn
    cases he
    exact ⟨.caught, rfl⟩
  | acquireGiveBack =>
    obtain rfl : k = 1 :=
      owes_agree hk (rfl : Role.acquiring.owes .acquireGiveBack = some 1) (by simp)
    cases hn
    cases unlock_succeeds hx he (hh Nat.one_pos)
    obtain ⟨r, -, rfl⟩ := effect_raw he
    exact ⟨.giveBack, rfl⟩
  | destroyRaw =>
    cases hn
    obtain ⟨r, hr, rfl⟩ := effect_raw he
    rcases hp _ _ _ _ hr with rfl | rfl
    · exact ⟨.answered, rfl⟩
    · exact ⟨.again, rfl⟩
  | lookRaw =>
    cases hn
    obtain ⟨r, -, rfl⟩ := effect_raw he
    exact ⟨.answered, rfl⟩
  | unlockRaw => exact absurd rfl hu
  | done r => cases hn
  | _ => rcases ho with ho | ho <;> cases ho

end Points

theorem drain_counts {c c' : Call} (h : Drain c.pc c.custody c'.pc c'.custody) :
    c.taken c' + c'.queued ≤ c.queued ∧ c.custody + c.taken c' = c'.custody + c.returned c' ∧
      c'.engaged = 0 := by
  obtain ⟨op, pc, k⟩ := c
  obtain ⟨op', pc', k'⟩ := c'
  simp only [Call.taken, Call.queued, Call.returned, Call.engaged] at h ⊢
  cases h with
  | take => exact ⟨Nat.le_refl 1, rfl, rfl⟩
  | caught => exact ⟨Nat.le_refl 0, rfl, rfl⟩
  | giveBack => exact ⟨Nat.le_refl 0, rfl, rfl⟩
  | again => simp [failed]
  | answered => simp [Pc.phase, Pc.debt]

theorem loosens_of_next {c c' : Call} {hint : Hint} {m m' : State R}
    (ha : c.act? call hint m = some (c', m')) (hp : c'.pc = .destroyRaw) (hc : c.pc ≠ .destroyRaw) :
    Loosens c c' := by
  obtain ⟨a, resume, x, hn, he, rfl⟩ := Call.act_cases ha
  refine ⟨?_, hp⟩
  have ht := turn_act hn he
  obtain ⟨op, pc, k⟩ := c
  simp only at hn hc hp ht ⊢
  cases pc with
  | destroyGiveBack => rfl
  | destroyRaw => exact absurd rfl hc
  | destroyRevive e =>
    cases hn
    cases hp
  | done r => cases hn
  | _ =>
    -- no other point is in the phase of the loop, or leads into it
    rw [hp] at ht
    generalize m.status = σ at ht
    generalize m'.status = σ' at ht
    cases ht with
    | stay h => cases h

theorem custody_of_loosens {c c' : Call} (h : c.Fits) (h' : c'.Fits) (hl : Loosens c c') :
    c.custody = 1 ∧ c'.custody = 0 := by
  rw [Call.Fits, hl.1] at h
  rw [Call.Fits, hl.2] at h'
  exact ⟨owes_agree h (rfl : Role.other.owes .destroyGiveBack = some 1) (by simp),
    owes_agree h' (rfl : Role.other.owes .destroyRaw = some 0) (by simp)⟩

/-! ## The sums over the calls of one client -/

namespace Scene

variable {s : Scene R n}

theorem own_put (f : Call → Nat) (s : Scene R n) (i : Fin n) (x : Client) (m : State R) :
    (s.put i x m).own f = Function.update (s.own f) i (x.calls.map f).sum := by
  funext j
  by_cases hj : j = i
  · subst hj
    simp [own, put]
  · simp [own, put, hj]

theorem own_of_ne (f : Call → Nat) {i j : Fin n} (hj : j ≠ i) (x : Client) (m : State R) :
    (s.put i x m).own f j = s.own f j := by
  rw [own_put, Function.update_of_ne hj]

theorem own_replace (f : Call → Nat) {i : Fin n} {c : Call} {cs : List Call}
    (hc : (s.clients i).calls = c :: cs) (k : Nat) (c' : Call) (m : State R) :
    (s.put i ⟨k, c' :: cs⟩ m).own f i + f c = s.own f i + f c' := by
  rw [own_put, Function.update_self, own, hc]
  simp only [List.map_cons, List.sum_cons]
  omega

theorem own_le {f g : Call → Nat} (h : ∀ c, f c ≤ g c) (i : Fin n) : s.own f i ≤ s.own g i :=
  List.sum_le_sum fun c _ => h c

theorem own_le_sum (f : Call → Nat) (s : Scene R n) (i : Fin n) : s.own f i ≤ s.sum f :=
  Finset.single_le_sum (f := fun j => ((s.clients j).calls.map f).sum) (fun _ _ => Nat.zero_le _)
    (Finset.mem_univ i)

theorem own_push (f : Call → Nat) {i : Fin n} {c : Call} {k : Nat} {m : State R} (hf : f c = 0) :
    (s.put i ⟨k, c :: (s.clients i).calls⟩ m).own f = s.own f := by
  rw [own_put]
  simp [own, hf]

theorem own_pop (f : Call → Nat) {i : Fin n} {c : Call} {cs : List Call} {k : Nat} {m : State R}
    (hc : (s.clients i).calls = c :: cs) (hf : f c = 0) :
    (s.put i ⟨k, cs⟩ m).own f = s.own f := by
  rw [own_put]
  simp [own, hc, hf]

end Scene

theorem record_quiet {s t : Scene R n} {ch : Choice Hint n} (h : Scene.step? call ch s = some t)
    (hm : moved s ch t = none) (l : Option (Ledger n)) : record call s ch l = l := by
  cases ch <;> simp [record, h, hm]

theorem record_act {s t : Scene R n} {i : Fin n} {hint : Hint} {c c' : Call}
    (h : Scene.step? call (.act i hint) s = some t) (hm : moved s (.act i hint) t = some (c, c'))
    (l : Option (Ledger n)) : record call s (.act i hint) l =
      if Loosens c c' then some fun j => ⟨s.own Call.late j, 0, 0⟩
      else l.map fun l => Function.update l i ((l i).after c c') := by
  simp [record, h, hm]

/-! ## The invariant -/

/-- What a client has taken it has given back or has in hand, and it can take
no more than its late calls are for. -/
structure Account.Balanced (a : Account) (queued inHand : Nat) : Prop where
  paid : a.takes + queued ≤ a.late
  kept : a.takes = a.returns + inHand

theorem Account.Balanced.after {a : Account} {q k q' k' : Nat} {c c' : Call} (h : a.Balanced q k)
    (hd : Drain c.pc c.custody c'.pc c'.custody) (hq : q' + c.queued = q + c'.queued)
    (hk : k' + c.custody = k + c'.custody) : (a.after c c').Balanced q' k' := by
  obtain ⟨hpaid, hkept⟩ := h
  obtain ⟨htake, hgive, -⟩ := drain_counts hd
  constructor
  · show a.takes + c.taken c' + q' ≤ a.late
    omega
  · show a.takes + c.taken c' = a.returns + c.returned c' + k'
    omega

/-- Once the raw lock has been given back, the mutex stays marked, no other
teardown is under way, and what each client may still take and has to give
back is in its account. -/
structure Draining (held : R → Bool) (s : Scene R n) (o : Option (Ledger n)) : Prop where
  sound : Sound held s
  orderly : Orderly s
  initless : s.Each fun c => c.op ≠ .init
  opened : s.Each fun c => c.pc = .destroyRaw → o.isSome
  marked : ∀ l, o = some l → s.mutex.status = .destroyed ∧ s.sum Call.engaged = 0
  accounts : ∀ l, o = some l → ∀ i, (l i).Balanced (s.own Call.queued i) (s.own Call.custody i)

namespace Draining

variable {s t : Scene R n} {l : Ledger n} {o : Option (Ledger n)}

theorem initial {m : State R} (hf : held m.raw = false)
    (hm : m.status = .ready ∨ m.status = .uninitialized) :
    Draining held (Scene.initial m : Scene R n) none where
  sound := .initial hf
  orderly := .initial hm
  initless := fun _ _ hc => nomatch hc
  opened := fun _ _ hc => nomatch hc
  marked := nofun
  accounts := nofun

theorem unusable (hs : Draining held s (some l)) : s.mutex.status.usable = false := by
  rw [(hs.marked l rfl).1]
  rfl

theorem no_holds (hs : Draining held s (some l)) (i : Fin n) : (s.clients i).holds = 0 := by
  have hz : s.claims = 0 := hs.sound.lawful hs.unusable
  have hl := s.client_claims_le i
  unfold Client.claims at hl
  omega

theorem outside (hs : Draining held s (some l)) {i : Fin n} {c : Call}
    (hc : c ∈ (s.clients i).calls) : c.pc.phase = .outside ∨ c.pc = .destroyRaw := by
  have hle := Scene.le_sum Call.engaged hc
  by_contra hn
  push Not at hn
  rw [(hs.marked l rfl).2, Call.engaged, decide_eq_true hn] at hle
  cases hle

theorem not_holding (hs : Draining held s (some l)) {i : Fin n} {c : Call}
    (hc : c ∈ (s.clients i).calls) : c.holding = false := by
  cases hh : c.holding with
  | false => rfl
  | true => exact absurd (hs.unusable.symm.trans (hs.sound.usable_of_holding hc hh)) (by decide)

theorem begin {i : Fin n} {op : Op} (hs : Draining held s o)
    (h : Scene.step? call (.begin i op) s = some t)
    (ho : op.entrusted ≤ (s.clients i).holds) (hi : op ≠ .init) : Draining held t o := by
  have hsound := hs.sound.begin ho h
  have horderly := hs.orderly.begin h
  cases Scene.step_begin h
  have hq : Call.queued (.begin op) = 0 := by cases op <;> rfl
  have he : Call.engaged (.begin op) = 0 := by cases op <;> rfl
  refine ⟨hsound, horderly, Scene.each_push hs.initless hi, Scene.each_push hs.opened ?_,
    fun l hl => ⟨(hs.marked l hl).1, ?_⟩, fun l hl => ?_⟩
  · cases op <;> exact nofun
  · rw [Scene.sum_push, he]
    exact (hs.marked l hl).2
  · cases hl
    have hk : Call.custody (.begin op) = 0 := by
      have := hs.no_holds i
      simp only [Call.begin]
      omega
    rw [Scene.own_push _ hq, Scene.own_push _ hk]
    exact hs.accounts l rfl

theorem finish {i : Fin n} (hs : Draining held s o)
    (h : Scene.step? call (.finish i) s = some t) : Draining held t o := by
  have hsound := hs.sound.finish h
  have horderly := hs.orderly.finish h
  obtain ⟨c, cs, hc, he, rfl⟩ := Scene.step_finish h
  have hm : c ∈ (s.clients i).calls := hc ▸ List.mem_cons_self
  obtain ⟨r, hr⟩ := done_of_ended he
  refine ⟨hsound, horderly, Scene.each_pop hc hs.initless, Scene.each_pop hc hs.opened,
    fun l hl => ⟨(hs.marked l hl).1, ?_⟩, fun l hl => ?_⟩
  · have hsum := Scene.sum_pop Call.engaged hc ((s.clients i).holds + c.gain) s.mutex
    have hz : s.sum Call.engaged = 0 := (hs.marked l hl).2
    show (s.put i _ _).sum Call.engaged = 0
    omega
  · cases hl
    have hq : c.queued = 0 := by simp [Call.queued, hr, Pc.debt]
    have hk : c.custody = 0 := by
      rw [← (ended_gain (hs.sound.fits i c hm) he).2, hs.not_holding hm]
      rfl
    rw [Scene.own_pop _ hc hq, Scene.own_pop _ hc hk]
    exact hs.accounts l rfl

theorem loosen {i : Fin n} {c c' : Call} {cs : List Call} {m : State R}
    (hs : Draining held s o) (hc : (s.clients i).calls = c :: cs) (hl : Loosens c c')
    (ht : s.put i ⟨(s.clients i).holds, c' :: cs⟩ m = t) (hsound : Sound held t)
    (horderly : Orderly t) (hi : t.Each fun c => c.op ≠ .init) :
    Draining held t (some fun j => ⟨s.own Call.late j, 0, 0⟩) := by
  have hm : c ∈ (s.clients i).calls := hc ▸ List.mem_cons_self
  have hm' : c' ∈ (t.clients i).calls := by
    rw [← ht]
    simp [Scene.put]
  have hphase : c.pc.phase = .marked := by rw [hl.1]; rfl
  refine ⟨hsound, horderly, hi, fun _ _ _ _ => rfl, ?_, ?_⟩ <;> rintro _ ⟨⟩
  · refine ⟨horderly.destroyed_of_marked hm' (by rw [hl.2]; rfl), ?_⟩
    -- the destroy that acts is the only teardown under way
    have hsum := Scene.sum_replace Call.engaged hc (s.clients i).holds c' m
    have hle : s.sum Call.engaged ≤ s.sum (Call.isAt .claimed) + s.sum (Call.isAt .marked) :=
      Scene.sum_add (Call.isAt .claimed) (Call.isAt .marked) ▸ Scene.sum_le engaged_le
    have hsettled : s.mutex.status.Settles _ _ := hs.orderly.settled
    rw [hs.orderly.destroyed_of_marked hm hphase] at hsettled
    obtain ⟨h0, h1⟩ := hsettled
    have he : c.engaged = 1 := by simp [Call.engaged, hl.1, Pc.phase]
    have he' : c'.engaged = 0 := by simp [Call.engaged, hl.2]
    rw [ht] at hsum
    show t.sum Call.engaged = 0
    omega
  · intro j
    -- it has the raw lock, so nobody else has anything in custody
    have hsum := Scene.sum_replace Call.custody hc (s.clients i).holds c' m
    have hb : s.holds + s.sum Call.custody = (held s.mutex.raw).toNat := hs.sound.balance
    have hbit := Bool.toNat_le (held s.mutex.raw)
    obtain ⟨hk, hk'⟩ := custody_of_loosens (hs.sound.fits i c hm) (hsound.fits i c' hm') hl
    have hnone := Scene.own_le_sum Call.custody t j
    have hlate : t.own Call.queued j ≤ s.own Call.late j := by
      refine le_trans ?_ (Scene.own_le queued_le_late j)
      by_cases hj : j = i
      · subst hj
        have hown := Scene.own_replace Call.queued hc (s.clients j).holds c' m
        have hq : c'.queued = 0 := by simp [Call.queued, hl.2, Pc.debt]
        rw [ht] at hown
        omega
      · rw [← ht, Scene.own_of_ne _ hj]
    rw [ht] at hsum
    exact ⟨by simpa using hlate, by simp only; omega⟩

theorem drain {i : Fin n} {hint : Hint} {c c' : Call} {cs : List Call} {m : State R}
    (hx : Exclusive call held) (hp : Patient call) (hs : Draining held s (some l))
    (hc : (s.clients i).calls = c :: cs) (ha : c.act? call hint s.mutex = some (c', m)) :
    Drain c.pc c.custody c'.pc c'.custody ∧ m.status = .destroyed := by
  have hm : c ∈ (s.clients i).calls := hc ▸ List.mem_cons_self
  obtain ⟨a, resume, x, hn, he, rfl⟩ := Call.act_cases ha
  refine drain_act hx hp hn he (hs.marked l rfl).1 (hs.sound.fits i c hm)
    (hs.sound.held_of_custody hm) (fun e he => ?_) (hs.outside hm)
    (hs.sound.not_releasing hs.unusable hm)
  have hv : c.op.visits c.pc = true := hs.orderly.placed i c hm
  rw [he] at hv
  exact hs.initless i c hm (visits_initFrom hv).1

theorem act {i : Fin n} {hint : Hint} (hx : Exclusive call held) (hp : Patient call)
    (hs : Draining held s o) (h : Scene.step? call (.act i hint) s = some t) :
    Draining held t (record call s (.act i hint) o) := by
  obtain ⟨c, cs, c', m, hc, ha, ht⟩ := Scene.step_act h
  have hm : c ∈ (s.clients i).calls := hc ▸ List.mem_cons_self
  have hmoved : moved s (.act i hint) t = some (c, c') := ht ▸ moved_act hc _
  have hsound := hs.sound.act hx h
  have horderly : Orderly t := by
    refine (hs.orderly.act h ?_).1
    rw [Undisturbed, hmoved]
    exact fun ho => absurd ho (hs.initless i c hm)
  have hi : t.Each fun c => c.op ≠ .init := by
    obtain ⟨a, resume, x, -, -, rfl⟩ := Call.act_cases ha
    exact ht ▸ Scene.each_replace hc hs.initless (hs.initless i c hm)
  rw [record_act h hmoved]
  by_cases hl : Loosens c c'
  · rw [if_pos hl]
    exact hs.loosen hc hl ht.symm hsound horderly hi
  rw [if_neg hl]
  have hopened : t.Each fun c => c.pc = .destroyRaw → o.isSome :=
    ht ▸ Scene.each_replace hc hs.opened fun hp' => by
      by_contra hn
      exact hl (loosens_of_next ha hp' fun hp => hn (hs.opened i c hm hp))
  cases o with
  | none => refine ⟨hsound, horderly, hi, hopened, ?_, ?_⟩ <;> rintro _ ⟨⟩
  | some l =>
    obtain ⟨hdrain, hst⟩ := hs.drain hx hp hc ha
    show Draining held t (some (Function.update l i ((l i).after c c')))
    refine ⟨hsound, horderly, hi, hopened, ?_, ?_⟩ <;> rintro _ ⟨⟩
    · refine ⟨by rw [ht]; exact hst, ?_⟩
      have hsum := Scene.sum_replace Call.engaged hc (s.clients i).holds c' m
      have hz := (hs.marked l rfl).2
      have he := (drain_counts hdrain).2.2
      rw [ht]
      omega
    · intro j
      have hj := hs.accounts l rfl j
      by_cases hji : j = i
      · subst hji
        rw [ht, Function.update_self]
        exact hj.after hdrain (Scene.own_replace _ hc _ c' m) (Scene.own_replace _ hc _ c' m)
      · rwa [ht, Function.update_of_ne hji, Scene.own_of_ne _ hji, Scene.own_of_ne _ hji]

theorem step {ch : Choice Hint n} (hx : Exclusive call held) (hp : Patient call)
    (hs : Draining held s o) (h : Scene.step? call ch s = some t) (ho : Owned s ch t)
    (hi : Initless s ch t) : Draining held t (record call s ch o) := by
  cases ch with
  | begin i op => exact record_quiet h rfl o ▸ hs.begin h ho hi
  | act i hint => exact hs.act hx hp h
  | finish i => exact record_quiet h rfl o ▸ hs.finish h

/-! ## What the invariant says -/

theorem caught (hs : Draining held s (some l)) {i : Fin n} {c : Call}
    (hc : c ∈ (s.clients i).calls) (hk : 0 < c.custody) :
    c.custody = 1 ∧ (c.pc = .acquireConfirm ∨ c.pc = .acquireGiveBack) := by
  have hf := hs.sound.fits i c hc
  have hh := hs.not_holding hc
  have ho := hs.outside hc
  obtain ⟨op, pc, k⟩ := c
  simp only [Call.Fits] at hf hk
  cases hr : op.role with
  | acquiring =>
    rw [hr] at hf
    cases pc with
    | acquireConfirm =>
      cases hf
      exact ⟨rfl, .inl rfl⟩
    | acquireGiveBack =>
      cases hf
      exact ⟨rfl, .inr rfl⟩
    | done r =>
      rcases r with (e | u) | b <;> cases hf
      · cases hk
      · simp [Call.holding, hr, Call.succeeded, succeeded, LockReply.ok] at hh
    | _ => cases hf <;> cases hk
  | releasing =>
    rw [hr] at hf
    cases pc with
    | unlockCheck | unlockRaw => simp [Call.holding, hr, Call.succeeded, succeeded] at hh
    | done r =>
      rcases r with (e | u) | b <;> cases hf
      cases hk
    | _ => cases hf
  | other =>
    rw [hr] at hf
    cases pc with
    | destroyMark | destroyGiveBack => rcases ho with ho | ho <;> cases ho
    | _ => cases hf <;> cases hk

theorem reported (hx : Exclusive call held) (hs : Draining held s (some l)) {i : Fin n} {c : Call}
    {cs : List Call} (hc : (s.clients i).calls = c :: cs) (hk : 0 < c.custody) {hint : Hint}
    (ha : ∀ r, held r = true → (call hint .unlock r).isSome) :
    ∃ k t, k ≤ 2 ∧ run? (Scene.step? call) (List.replicate k (.act i hint)) s = some t ∧
      (t.clients i).calls = ⟨c.op, failed .notInitialized, 0⟩ :: cs := by
  obtain ⟨h1, hp⟩ := hs.caught (hc ▸ List.mem_cons_self) hk
  obtain ⟨op, pc, k⟩ := c
  simp only at h1 hp
  subst h1
  rcases hp with rfl | rfl
  · have he : effect call hint .load s.mutex = some (s.mutex.status, s.mutex) := rfl
    have hact := Call.act_of (c := ⟨op, .acquireConfirm, 1⟩) rfl he
    have hu := hs.unusable
    obtain ⟨t, ht, htc⟩ : ∃ t, Scene.step? call (.act i hint) s = some t ∧
        (t.clients i).calls = ⟨op, .acquireGiveBack, 1⟩ :: cs :=
      ⟨_, Scene.act_of hc hact, by simp [Scene.put, hu, Action.custody]⟩
    obtain ⟨u, hu, huc⟩ := (hs.sound.act hx ht).unlock_returns hx htc rfl ha
    exact ⟨2, u, le_refl 2, by simp [List.replicate, run?, ht, hu], huc⟩
  · obtain ⟨u, hu, huc⟩ := hs.sound.unlock_returns hx hc rfl ha
    exact ⟨1, u, by decide, by simp [run?, hu], huc⟩

/-- A destroy that is told that the raw lock is busy is held up by a late call. -/
theorem retried (hp : Patient call) (hs : Draining held s (some l))
    (hb : ∀ hint r r', call hint .destroy r = some (.error .busy, r') → held r = true) {i : Fin n}
    {hint : Hint} {c : Call} {cs : List Call} (hc : (s.clients i).calls = c :: cs)
    (hpc : c.pc = .destroyRaw) (h : Scene.step? call (.act i hint) s = some t) :
    (t.clients i).calls = ⟨c.op, succeeded, c.custody⟩ :: cs ∨
      (t.clients i).calls = c :: cs ∧ ∃ j, (l j).returns < (l j).takes := by
  obtain ⟨_, _, c', m, hc', ha, rfl⟩ := Scene.step_act h
  cases hc.symm.trans hc'
  obtain ⟨a, resume, x, hn, he, rfl⟩ := Call.act_cases ha
  obtain ⟨op, pc, k⟩ := c
  simp only at hpc
  subst hpc
  cases hn
  obtain ⟨r, hr, rfl⟩ := effect_raw he
  rcases hp _ _ _ _ hr with rfl | rfl
  · exact .inl (by simp [Scene.put, Action.custody])
  · -- the raw lock is held, and nobody but a late call can have it
    refine .inr ⟨by simp [Scene.put, Action.custody], ?_⟩
    have hbal := hs.sound.balance
    have hzero : s.holds = 0 := Finset.sum_eq_zero fun i _ => hs.no_holds i
    rw [hb _ _ _ hr, hzero, Bool.toNat_true, Nat.zero_add] at hbal
    by_contra hn
    push Not at hn
    have hnone : s.sum Call.custody = 0 := Finset.sum_eq_zero fun j _ => by
      have hj := (hs.accounts l rfl j).kept
      have := hn j
      show s.own Call.custody j = 0
      omega
    omega

end Draining

/-! ## Clients in one call at a time -/

structure Single (s : Scene R n) (o : Option (Ledger n)) : Prop where
  now : ∀ i, (s.clients i).calls.length ≤ 1
  opened : ∀ l, o = some l → ∀ i, (l i).late ≤ 1

namespace Single

variable {s t : Scene R n} {o : Option (Ledger n)}

theorem own_late_le (hs : Single s o) (i : Fin n) : s.own Call.late i ≤ 1 := by
  have hle := Scene.own_le (s := s) (f := Call.late) (g := fun _ => 1)
    (fun c => Bool.toNat_le _) i
  have hlen := hs.now i
  simp only [Scene.own, List.map_const', List.sum_replicate, smul_eq_mul, mul_one] at hle ⊢
  omega

theorem put (hs : Single s o) (i : Fin n) {x : Client} (hx : x.calls.length ≤ 1) (m : State R)
    (j : Fin n) : ((s.put i x m).clients j).calls.length ≤ 1 := by
  by_cases hj : j = i
  · subst hj
    simpa [Scene.put] using hx
  · simpa [Scene.put, hj] using hs.now j

theorem act {i : Fin n} {hint : Hint} (hs : Single s o)
    (h : Scene.step? call (.act i hint) s = some t) :
    Single t (record call s (.act i hint) o) := by
  obtain ⟨c, cs, c', m, hc, ha, ht⟩ := Scene.step_act h
  have hmoved : moved s (.act i hint) t = some (c, c') := ht ▸ moved_act hc _
  have hlen : (c' :: cs).length ≤ 1 := by simpa [hc] using hs.now i
  refine ⟨fun j => by rw [ht]; exact hs.put i hlen m j, ?_⟩
  rw [record_act h hmoved]
  by_cases hl : Loosens c c'
  · rw [if_pos hl]
    rintro _ ⟨⟩ j
    exact hs.own_late_le j
  · rw [if_neg hl]
    intro l hl j
    obtain ⟨l, rfl, rfl⟩ := Option.map_eq_some_iff.mp hl
    have hlate := hs.opened l rfl
    by_cases hj : j = i
    · subst hj
      rw [Function.update_self]
      exact hlate j
    · rw [Function.update_of_ne hj]
      exact hlate j

theorem step {ch : Choice Hint n} (hs : Single s o) (h : Scene.step? call ch s = some t)
    (ho : OneAtATime s ch t) : Single t (record call s ch o) := by
  cases ch with
  | begin i op =>
    rw [record_quiet h rfl]
    cases Scene.step_begin h
    have hnone : (s.clients i).calls = [] := ho
    exact ⟨hs.put i (by simp [hnone]) _, hs.opened⟩
  | act i hint => exact hs.act h
  | finish i =>
    rw [record_quiet h rfl]
    obtain ⟨c, cs, hc, -, rfl⟩ := Scene.step_finish h
    have hlen := hs.now i
    rw [hc, List.length_cons] at hlen
    exact ⟨hs.put i (by simp only; omega) _, hs.opened⟩

end Single

/-! ## Whole runs -/

structure HeldUp (call : RawCalls Hint R) (held : R → Bool) (s : Scene R n) (l : Ledger n) :
    Prop where
  lasting : s.mutex.status = .destroyed ∧ s.Each fun c => c.pc ≠ .destroyGiveBack
  takes : ∀ i, (l i).takes ≤ (l i).late
  returns : ∀ i, (l i).takes = (l i).returns + s.own Call.custody i
  /-- A call that has the raw lock in hand gives it back and is refused in two
  actions of its client, unless the raw lock keeps it waiting. -/
  reported : ∀ hint, (∀ r, held r = true → (call hint .unlock r).isSome) →
    ∀ i c cs, (s.clients i).calls = c :: cs → 0 < c.custody →
      ∃ k t, k ≤ 2 ∧ run? (Scene.step? call) (List.replicate k (.act i hint)) s = some t ∧
        (t.clients i).calls = ⟨c.op, failed .notInitialized, 0⟩ :: cs
  /-- If the raw lock is called busy only while it is held, a destroy asks for
  its destruction in vain only while a client has to return what it has taken. -/
  retries : (∀ hint r r', call hint .destroy r = some (.error .busy, r') → held r = true) →
    ∀ hint i c cs t, (s.clients i).calls = c :: cs → c.pc = .destroyRaw →
      Scene.step? call (.act i hint) s = some t →
        (t.clients i).calls = ⟨c.op, succeeded, c.custody⟩ :: cs ∨
          (t.clients i).calls = c :: cs ∧ ∃ j, (l j).returns < (l j).takes

/-- Over every exclusive raw lock whose destruction is refused at most because
the lock is busy, and in every run of any number of clients that release only
what they hold and begin no init: when a destroy that has marked the mutex has
given the raw lock back, only calls that had passed their entry check take it,
each of them once and to be refused. A client that is in one call at a time
has one such call at most. Nothing else can make the destroy ask again. -/
theorem late_holdings_alone_hold_up_destroy (hx : Exclusive call held) (hp : Patient call)
    {m : State R} (hf : held m.raw = false) (hm : m.status = .ready ∨ m.status = .uninitialized)
    {cs : List (Choice Hint n)} (ho : Throughout (Scene.step? call) Owned cs (Scene.initial m))
    (hi : Throughout (Scene.step? call) Initless cs (Scene.initial m)) {s : Scene R n}
    {o : Option (Ledger n)}
    (h : run? (noted (Scene.step? call) (record call)) cs (Scene.initial m, none) = some (s, o)) :
    (s.Each fun c => c.pc = .destroyRaw → o.isSome) ∧
    (∀ l, o = some l → HeldUp call held s l) ∧
    (Throughout (Scene.step? call) OneAtATime cs (Scene.initial m) →
      ∀ l, o = some l → ∀ i, (l i).late ≤ 1) := by
  have hs : Draining held s o := by
    refine run_keeps_throughout (I := fun w => Draining held w.1 w.2) ?_ h
      (throughout_and (throughout_noted ho none) (throughout_noted hi none)) (.initial hf hm)
    intro w ch w' hs hst ⟨ho, hi⟩
    obtain ⟨hstep, hn⟩ := noted_step hst
    exact hn ▸ hs.step hx hp hstep ho hi
  refine ⟨hs.opened, fun l hl => ?_, fun hone => ?_⟩
  · subst hl
    exact {
      lasting := ⟨(hs.marked l rfl).1, fun _ _ hc hpc => by
        rcases hpc ▸ hs.outside hc with ho | ho <;> cases ho⟩
      takes := fun i => le_of_add_le_left (hs.accounts l rfl i).paid
      returns := fun i => (hs.accounts l rfl i).kept
      reported := fun _ ha _ _ _ hc hk => hs.reported hx hc hk ha
      retries := fun hb _ _ _ _ _ hc hpc hst => hs.retried hp hb hc hpc hst }
  · have hsingle : Single s o := by
      refine run_keeps_throughout (I := fun w => Single w.1 w.2) ?_ h
        (throughout_noted hone none) ⟨fun _ => Nat.zero_le _, nofun⟩
      intro w ch w' hs hst ho
      obtain ⟨hstep, hn⟩ := noted_step hst
      exact hn ▸ hs.step hstep ho
    exact hsingle.opened

/-- One client has passed its entry check when another destroys the mutex, and
has the raw lock when the other asks for its destruction. -/
def lateHolding : List (Choice Nat 2) :=
  [.begin first .lock, .act first 0, .begin second .destroy, .act second 1, .act second 1,
    .act second 1, .act second 1, .act first 0, .act second 1]

theorem late_holding_holds_up_destroy :
    ∃ (s : Scene RawLock 2) (l : Ledger 2),
      run? (noted (Scene.step? RawLock.call) (record RawLock.call)) lateHolding
          (.initial (.ofRaw .newFlag), none) = some (s, some l) ∧
        (s.clients second).calls = [⟨.destroy, .destroyRaw, 0⟩] ∧
        l first = ⟨1, 1, 0⟩ ∧ l second = ⟨0, 0, 0⟩ ∧
        HeldUp RawLock.call RawLock.held s l ∧ ∀ i, (l i).late ≤ 1 := by
  have hp : Patient RawLock.call := fun _ _ _ _ h =>
    (RawLock.destroy_answers h).imp_right And.left
  have ho : Throughout (Scene.step? RawLock.call) Owned lateHolding
      (.initial (.ofRaw .newFlag)) := by decide
  have hi : Throughout (Scene.step? RawLock.call) Initless lateHolding
      (.initial (.ofRaw .newFlag)) := by decide
  have hone : Throughout (Scene.step? RawLock.call) OneAtATime lateHolding
      (.initial (.ofRaw .newFlag)) := by decide
  have hd := late_holdings_alone_hold_up_destroy RawLock.exclusive hp (m := .ofRaw .newFlag) rfl
    (.inl rfl) ho hi rfl
  exact ⟨_, _, rfl, rfl, rfl, rfl, hd.2.1 _ rfl, hd.2.2 hone _ rfl⟩

end SyncCore.Mutex

import SyncCore.Proofs.Mutex.Backing
import SyncCore.Proofs.Mutex.Exclusion
import SyncCore.Proofs.Registry.Tenure
import SyncCore.Proofs.Run

/-!
# Operations on a shared table, one at a time

Over an exclusive raw lock the tenures do not overlap: an operation acts on
the slots only while it has the lock, and whoever has the lock is the client
of the last tenure. So carrying out the tenures one at a time, in the order of
the acquisitions, gives every client its answer and leaves the table as it is.
-/

set_option autoImplicit false

namespace SyncCore

namespace Registry

variable {Hint R : Type} {n : Nat} {capacity : Nat}

/-! ## Tenures one at a time -/

def serial (capacity : Nat) (ts : List (Tenure n)) (t : Table) : Table :=
  ts.foldl (fun t x => (alone capacity x.op x.seen t).2) t

/-- Where a tenure comes when the tenures are carried out one at a time. -/
def reached (capacity : Nat) (ts : List (Tenure n)) (t : Table) (k : Nat) :
    Option (Pc × Table) :=
  ts[k]?.map fun x => alone capacity x.op x.seen (serial capacity (ts.take k) t)

theorem serial_snoc (ts : List (Tenure n)) (x : Tenure n) (t : Table) :
    serial capacity (ts ++ [x]) t = (alone capacity x.op x.seen (serial capacity ts t)).2 := by
  simp [serial]

theorem reached_snoc (ts : List (Tenure n)) (x : Tenure n) (t : Table) :
    reached capacity (ts ++ [x]) t ts.length =
      some (alone capacity x.op x.seen (serial capacity ts t)) := by
  simp [reached]

theorem getElem_congr {ts ts' : List (Tenure n)} {k : Nat}
    (h : ts'.take (k + 1) = ts.take (k + 1)) :
    ts'[k]? = ts[k]? := by
  rw [← List.getElem?_take_of_lt (Nat.lt_succ_self k), h,
    List.getElem?_take_of_lt (Nat.lt_succ_self k)]

theorem reached_congr {ts ts' : List (Tenure n)} {k : Nat} (h : ts'.take (k + 1) = ts.take (k + 1))
    (t : Table) : reached capacity ts' t k = reached capacity ts t k := by
  have ht : ts'.take k = ts.take k := by
    simpa [List.take_take] using congrArg (List.take k) h
  rw [reached, reached, getElem_congr h, ht]

/-! ## In surroundings that stay the same -/

section Invariant

variable (capacity : Nat) (held : R → Bool) (t₀ : Table) (s : Hall R n) (i : Fin n)

/-- An operation waits for the lock, or has been refused it, or has it and is
the last tenure, or has come to its end. With the lock it is where it would be
if the tenures were carried out one at a time. -/
inductive Standing : Visit → Prop where
  | waiting {op : Op} {pc : Pc} {seen : List Surroundings} :
    pc = .enter op (.acquireCheck true) ∨ pc = .enter op (.acquireRaw true) →
    (∀ t, alone capacity op seen t = (pc, t)) → Standing ⟨op, pc, seen, none⟩
  | refused {op : Op} {e : ErrorKind} {seen : List Surroundings} :
    Standing ⟨op, .done (op.failed e), seen, none⟩
  | holding {op : Op} {pc : Pc} {seen : List Surroundings} {before : List (Tenure n)} :
    pc.within = true → held s.mutex.raw = true → s.tenures = before ++ [⟨i, op, seen⟩] →
    (alone capacity op seen (serial capacity before t₀)).1 = pc →
    Standing ⟨op, pc, seen, some before.length⟩
  | through {op : Op} {r : Reply} {seen : List Surroundings} {k : Nat} {u : Table} :
    s.tenures[k]? = some ⟨i, op, seen⟩ → reached capacity s.tenures t₀ k = some (.done r, u) →
    Standing ⟨op, .done r, seen, some k⟩

def Answered (a : Answer n) : Prop :=
  match a.place with
  | none => ∃ e, a.reply = a.op.failed e
  | some k => (∃ seen, s.tenures[k]? = some ⟨a.client, a.op, seen⟩) ∧
      ∃ u, reached capacity s.tenures t₀ k = some (.done a.reply, u)

end Invariant

def Hall.answeredPlaces (s : Hall R n) : List Nat := s.answers.filterMap (·.place)

/-- The table is what the tenures make of it one at a time, and all tenures
have come to their ends but the one that has the lock. -/
structure Ordered (capacity : Nat) (held : R → Bool) (t₀ : Table) (s : Hall R n) : Prop where
  ready : s.mutex.status = .ready
  table : s.table = serial capacity s.tenures t₀
  standing : ∀ i v, s.visits i = some v → Standing capacity held t₀ s i v
  ended : ∀ k < s.tenures.length, (∃ r u, reached capacity s.tenures t₀ k = some (.done r, u)) ∨
    ∃ i v, s.visits i = some v ∧ v.place = some k ∧ v.pc.within = true
  answered : ∀ a ∈ s.answers, Answered capacity t₀ s a
  once : s.answeredPlaces.Nodup
  fresh : ∀ i v k, s.visits i = some v → v.place = some k → k ∉ s.answeredPlaces

section Standing

variable {held : R → Bool} {t₀ : Table} {s t : Hall R n} {i j : Fin n} {v : Visit}

theorem Standing.tenure (h : Standing capacity held t₀ s i v) {k : Nat} (hk : v.place = some k) :
    ∃ seen, s.tenures[k]? = some ⟨i, v.op, seen⟩ := by
  cases h with
  | waiting hp ha => cases hk
  | refused => cases hk
  | @holding op pc seen before hw hh ht ha =>
    cases hk
    exact ⟨seen, by simp [ht]⟩
  | through hs hr =>
    cases hk
    exact ⟨_, hs⟩

theorem Standing.last (h : Standing capacity held t₀ s i v) (hw : v.pc.within = true) :
    held s.mutex.raw = true ∧ ∃ before x, s.tenures = before ++ [x] ∧ x.client = i ∧
      v.place = some before.length := by
  cases h with
  | waiting hp ha => rcases hp with rfl | rfl <;> cases hw
  | refused => cases hw
  | holding _ hh ht ha => exact ⟨hh, _, _, ht, rfl, rfl⟩
  | through hs hr => cases hw

theorem Standing.keep (h : Standing capacity held t₀ s i v) (ht : t.tenures = s.tenures)
    (hh : held t.mutex.raw = held s.mutex.raw) : Standing capacity held t₀ t i v := by
  cases h with
  | waiting hp ha => exact .waiting hp ha
  | refused => exact .refused
  | holding hw hr hs ha => exact .holding hw (hh.trans hr) (ht.trans hs) ha
  | through hs hr => exact .through (ht ▸ hs) (ht ▸ hr)

theorem Standing.frame (h : Standing capacity held t₀ s i v) (hw : v.pc.within = false)
    (ht : ∀ k, v.place = some k → t.tenures.take (k + 1) = s.tenures.take (k + 1)) :
    Standing capacity held t₀ t i v := by
  cases h with
  | waiting hp ha => exact .waiting hp ha
  | refused => exact .refused
  | holding hw' hr hs ha => exact absurd (hw.symm.trans hw') (by decide)
  | through hs hr =>
    have hk := ht _ rfl
    exact .through ((getElem_congr hk).trans hs) ((reached_congr hk t₀).trans hr)

theorem Answered.frame {a : Answer n} (h : Answered capacity t₀ s a)
    (ht : ∀ k, a.place = some k → t.tenures.take (k + 1) = s.tenures.take (k + 1)) :
    Answered capacity t₀ t a := by
  obtain ⟨client, op, place, reply⟩ := a
  cases place with
  | none => exact h
  | some k =>
    obtain ⟨⟨seen, hs⟩, u, hr⟩ := h
    have hk := ht k rfl
    exact ⟨⟨seen, (getElem_congr hk).trans hs⟩, u, (reached_congr hk t₀).trans hr⟩

end Standing

namespace Ordered

variable {held : R → Bool} {t₀ : Table} {s t : Hall R n} {i j : Fin n}

theorem initial {m : Mutex.State R} (hm : m.status = .ready) (t₀ : Table) :
    Ordered capacity held t₀ (Hall.initial m t₀ : Hall R n) where
  ready := hm
  table := rfl
  standing := by
    intro i v hv
    cases hv
  ended := by
    intro k hk
    exact absurd hk (Nat.not_lt_zero k)
  answered := by
    intro a ha
    cases ha
  once := List.nodup_nil
  fresh := by
    intro i v k hv
    cases hv

theorem sole (hs : Ordered capacity held t₀ s) {v w : Visit} (hv : s.visits i = some v)
    (hw : s.visits j = some w) (hvw : v.pc.within = true) (hww : w.pc.within = true) : i = j := by
  obtain ⟨-, b, x, hb, rfl, -⟩ := (hs.standing i v hv).last hvw
  obtain ⟨-, b', x', hb', rfl, -⟩ := (hs.standing j w hw).last hww
  obtain ⟨-, hx⟩ := List.append_inj' (hb.symm.trans hb') rfl
  cases hx
  rfl

/-! Every step changes one visit. -/

theorem update_cases {f : Fin n → Option Visit} {x : Option Visit} {v : Visit}
    (h : Function.update f i x j = some v) : j = i ∧ x = some v ∨ j ≠ i ∧ f j = some v := by
  by_cases hij : j = i
  · subst hij
    rw [Function.update_self] at h
    exact .inl ⟨rfl, h⟩
  · rw [Function.update_of_ne hij] at h
    exact .inr ⟨hij, h⟩

theorem place_lt (hs : Ordered capacity held t₀ s) {v : Visit} {k : Nat}
    (hv : s.visits i = some v) (hk : v.place = some k) : k < s.tenures.length := by
  obtain ⟨seen, ht⟩ := (hs.standing i v hv).tenure hk
  exact (List.getElem?_eq_some_iff.mp ht).1

theorem answer_lt (hs : Ordered capacity held t₀ s) {k : Nat} (hk : k ∈ s.answeredPlaces) :
    k < s.tenures.length := by
  obtain ⟨a, ha, hp⟩ := List.mem_filterMap.mp hk
  have h := hs.answered a ha
  rw [Answered, hp] at h
  obtain ⟨⟨seen, ht⟩, -⟩ := h
  exact (List.getElem?_eq_some_iff.mp ht).1

theorem place_unique (hs : Ordered capacity held t₀ s) {v w : Visit} {k : Nat}
    (hv : s.visits i = some v) (hw : s.visits j = some w) (hvk : v.place = some k)
    (hwk : w.place = some k) : i = j := by
  obtain ⟨x, hx⟩ := (hs.standing i v hv).tenure hvk
  obtain ⟨y, hy⟩ := (hs.standing j w hw).tenure hwk
  exact congrArg Tenure.client (Option.some.inj (hx.symm.trans hy))

theorem outside (hs : Ordered capacity held t₀ s) {v : Option Visit} {v' : Visit}
    {m : Mutex.State R} (hv : s.visits i = v) (hw : ∀ w, v = some w → w.pc.within = false)
    (hp : v'.place = none) (hm : m.status = .ready) (hh : held m.raw = held s.mutex.raw)
    (hv' : ∀ t : Hall R n, Standing capacity held t₀ t i v') :
    Ordered capacity held t₀
      { s with mutex := m, visits := Function.update s.visits i (some v') } where
  ready := hm
  table := hs.table
  standing := by
    intro j w hj
    rcases update_cases hj with ⟨rfl, h⟩ | ⟨-, h⟩
    · cases h
      exact hv' _
    · exact (hs.standing j w h).keep rfl hh
  ended := by
    intro k hk
    rcases hs.ended k hk with h | ⟨j, w, hj, hpl, hwi⟩
    · exact .inl h
    · have hji : j ≠ i := by
        rintro rfl
        exact absurd ((hw w (hv.symm.trans hj)).symm.trans hwi) (by decide)
      exact .inr ⟨j, w, (Function.update_of_ne hji _ _).trans hj, hpl, hwi⟩
  answered := hs.answered
  once := hs.once
  fresh := by
    intro j w k hj hk
    rcases update_cases hj with ⟨rfl, h⟩ | ⟨-, h⟩
    · cases h
      rw [hp] at hk
      cases hk
    · exact hs.fresh j w k h hk

/-- A step of the last tenure, be it the first. All before it have come to their ends. -/
theorem tenure (hs : Ordered capacity held t₀ s) {before : List (Tenure n)} {v' : Visit}
    {m : Mutex.State R} {u : Table} (hb : s.tenures.take before.length = before)
    (hothers : ∀ j w, j ≠ i → s.visits j = some w →
      w.pc.within = false ∧ ∀ k, w.place = some k → k < before.length)
    (hans : ∀ k ∈ s.answeredPlaces, k < before.length)
    (hended : ∀ k < before.length, ∃ r u, reached capacity s.tenures t₀ k = some (.done r, u))
    (hp : v'.place = some before.length) (hm : m.status = .ready)
    (ha : alone capacity v'.op v'.seen (serial capacity before t₀) = (v'.pc, u))
    (hend : (∃ r, v'.pc = .done r) ∨ v'.pc.within = true ∧ held m.raw = true) :
    Ordered capacity held t₀
      { s with
        mutex := m
        table := u
        visits := Function.update s.visits i (some v')
        tenures := before ++ [⟨i, v'.op, v'.seen⟩] } := by
  have htake : ∀ k < before.length,
      (before ++ [(⟨i, v'.op, v'.seen⟩ : Tenure n)]).take (k + 1) = s.tenures.take (k + 1) := by
    intro k hk
    rw [List.take_append_of_le_length hk]
    conv_lhs => rw [← hb]
    rw [List.take_take, Nat.min_eq_left hk]
  obtain ⟨op, pc, seen, place⟩ := v'
  obtain rfl : place = some before.length := hp
  refine ⟨hm, ?_, ?_, ?_, ?_, hs.once, ?_⟩
  · rw [serial_snoc, ha]
  · intro j w hj
    rcases update_cases hj with ⟨rfl, h⟩ | ⟨hji, h⟩
    · cases h
      rcases hend with ⟨r, hr⟩ | ⟨hw, hh⟩
      · obtain rfl : pc = .done r := hr
        refine .through (by simp) (u := u) ?_
        rw [reached_snoc, ha]
      · exact .holding hw hh rfl (congrArg Prod.fst ha)
    · obtain ⟨hw, hk⟩ := hothers j w hji h
      exact (hs.standing j w h).frame hw fun k hp => htake k (hk k hp)
  · intro k hk
    rw [List.length_append, List.length_singleton, Nat.lt_succ_iff_lt_or_eq] at hk
    rcases hk with hk | rfl
    · obtain ⟨r, u, hr⟩ := hended k hk
      exact .inl ⟨r, u, (reached_congr (htake k hk) t₀).trans hr⟩
    · rcases hend with ⟨r, hr⟩ | ⟨hw, hh⟩
      · obtain rfl : pc = .done r := hr
        refine .inl ⟨r, u, ?_⟩
        rw [reached_snoc, ha]
      · exact .inr ⟨i, _, Function.update_self _ _ _, rfl, hw⟩
  · intro a hmem
    refine (hs.answered a hmem).frame fun k hk => htake k (hans k ?_)
    exact List.mem_filterMap.mpr ⟨a, hmem, hk⟩
  · intro j w k hj hk
    rcases update_cases hj with ⟨rfl, h⟩ | ⟨-, h⟩
    · cases h
      cases hk
      exact fun hmem => Nat.lt_irrefl _ (hans _ hmem)
    · exact hs.fresh j w k h hk

/-! ## Every step preserves it -/

section Steps

variable {call : RawCalls Hint R}

theorem begin {op : Op} (hs : Ordered capacity held t₀ s)
    (h : Hall.step? capacity call (.begin i op) s = some t) : Ordered capacity held t₀ t := by
  obtain ⟨hv, rfl⟩ := Hall.step_begin h
  refine hs.outside (m := s.mutex) hv ?_ rfl hs.ready rfl ?_
  · intro w hw
    cases hw
  · intro t
    exact .waiting (.inl rfl) fun _ => rfl

theorem finish (hs : Ordered capacity held t₀ s)
    (hstep : Hall.step? capacity call (.finish i) s = some t) : Ordered capacity held t₀ t := by
  obtain ⟨op, r, seen, place, hv, rfl⟩ := Hall.step_finish hstep
  have hst := hs.standing i _ hv
  refine ⟨hs.ready, hs.table, ?_, ?_, ?_, ?_, ?_⟩
  · intro j w hj
    rcases update_cases hj with ⟨rfl, h⟩ | ⟨-, h⟩
    · cases h
    · exact (hs.standing j w h).keep rfl rfl
  · intro k hk
    rcases hs.ended k hk with h | ⟨j, w, hj, hp, hw⟩
    · exact .inl h
    · have hji : j ≠ i := by
        rintro rfl
        cases hv.symm.trans hj
        cases hw
      exact .inr ⟨j, w, (Function.update_of_ne hji _ _).trans hj, hp, hw⟩
  · intro a ha
    rcases List.mem_append.mp ha with ha | ha
    · exact hs.answered a ha
    · obtain rfl := List.mem_singleton.mp ha
      cases hst with
      | waiting hp _ => rcases hp with hp | hp <;> cases hp
      | refused => exact ⟨_, rfl⟩
      | holding hw => cases hw
      | through ht hr => exact ⟨⟨_, ht⟩, _, hr⟩
  · rw [Hall.answeredPlaces, List.filterMap_append, List.nodup_append']
    refine ⟨hs.once, ?_, ?_⟩
    · cases place <;> simp
    · intro k hk hk'
      cases place with
      | none => simp at hk'
      | some p =>
        obtain rfl : k = p := by simpa using hk'
        exact hs.fresh i _ k hv rfl hk
  · intro j w k hj hk
    rcases update_cases hj with ⟨rfl, h⟩ | ⟨hji, h⟩
    · cases h
    · intro hmem
      rw [Hall.answeredPlaces, List.filterMap_append, List.mem_append] at hmem
      rcases hmem with hmem | hmem
      · exact hs.fresh j w k h hk hmem
      · cases place with
        | none => simp at hmem
        | some p =>
          obtain rfl : k = p := by simpa using hmem
          exact hji (hs.place_unique h hv hk rfl)

theorem acquire (hs : Ordered capacity held t₀ s) {op : Op} {seen : List Surroundings}
    {w : Surroundings} {m : Mutex.State R}
    (hfree : held s.mutex.raw = false) (hheld : held m.raw = true) (hm : m.status = .ready)
    (ha : alone capacity op seen s.table = (.enter op (.acquireRaw true), s.table)) :
    Ordered capacity held t₀
      (s.put i ⟨op, .enter op (.acquireRaw true), seen, none⟩ w (.enter op .acquireConfirm) m
        s.table) := by
  have hout : ∀ j v, s.visits j = some v → v.pc.within = false := by
    intro j v hj
    by_contra hw
    have hh := ((hs.standing j v hj).last (Bool.eq_true_of_not_eq_false hw)).1
    exact absurd (hfree.symm.trans hh) (by decide)
  rw [Hall.put_acquired rfl]
  refine hs.tenure (List.take_length) ?_ ?_ ?_ rfl hm ?_ (.inr ⟨rfl, hheld⟩)
  · intro j v _ hj
    exact ⟨hout j v hj, fun k hk => hs.place_lt hj hk⟩
  · exact fun k hk => hs.answer_lt hk
  · intro k hk
    rcases hs.ended k hk with h | ⟨j, v, hj, -, hw⟩
    · exact h
    · exact absurd ((hout j v hj).symm.trans hw) (by decide)
  · rw [← hs.table, alone_snoc, ha]
    rfl

theorem proceed (hx : Exclusive call held) (hs : Ordered capacity held t₀ s) {op : Op} {pc : Pc}
    {seen : List Surroundings} {before : List (Tenure n)} {hint : Hint} {w : Surroundings}
    {a : Action} {resume : a.Answer → Pc} {x : a.Answer} {m : Mutex.State R} {u : Table}
    (hv : s.visits i = some ⟨op, pc, seen, some before.length⟩) (hw : pc.within = true)
    (hh : held s.mutex.raw = true) (ht : s.tenures = before ++ [⟨i, op, seen⟩])
    (ha : (alone capacity op seen (serial capacity before t₀)).1 = pc)
    (hn : next capacity pc = .act a resume)
    (he : sharedEffect call hint w a (s.mutex, s.table) = some (x, m, u)) :
    Ordered capacity held t₀ (s.put i ⟨op, pc, seen, some before.length⟩ w (resume x) m u) := by
  obtain ⟨hadv, hm, hend⟩ := within_act hx hw hn he hs.ready hh
  have hacq : acquired pc (resume x) = false := by
    cases pc with
    | enter op q => cases q <;> first | rfl | cases hw
    | _ => rfl
  have htable : s.table = (alone capacity op seen (serial capacity before t₀)).2 := by
    rw [hs.table, ht, serial_snoc]
  have hnot : ∀ k, k < s.tenures.length → k ≠ before.length → k < before.length := by
    intro k hk hne
    rw [ht, List.length_append, List.length_singleton] at hk
    omega
  rw [Hall.put_holding hacq rfl ht]
  refine hs.tenure (by rw [ht, List.take_left']; rfl) ?_ ?_ ?_ rfl hm ?_ hend
  · intro j v hji hj
    refine ⟨?_, fun k hk => hnot k (hs.place_lt hj hk) ?_⟩
    · by_contra hwv
      exact hji (hs.sole hj hv (Bool.eq_true_of_not_eq_false hwv) hw)
    · rintro rfl
      exact hji (hs.place_unique hj hv hk rfl)
  · intro k hk
    refine hnot k (hs.answer_lt hk) ?_
    rintro rfl
    exact hs.fresh i _ _ hv rfl hk
  · intro k hk
    have hlt : k < s.tenures.length := by
      rw [ht, List.length_append]
      omega
    rcases hs.ended k hlt with h | ⟨j, v, hj, hp, hwv⟩
    · exact h
    · obtain rfl := hs.sole hj hv hwv hw
      cases hj.symm.trans hv
      cases hp
      exact absurd hk (Nat.lt_irrefl _)
  · rw [alone_snoc, show alone capacity op seen (serial capacity before t₀) = (pc, s.table) from
      Prod.ext ha htable.symm]
    exact hadv

theorem act (hx : Exclusive call held) (hs : Ordered capacity held t₀ s) {hint : Hint}
    {w : Surroundings} (h : Hall.step? capacity call (.act i hint w) s = some t) :
    Ordered capacity held t₀ t := by
  obtain ⟨v, a, resume, x, m, u, hv, hn, he, rfl⟩ := Hall.step_act h
  have hst := hs.standing i v hv
  cases hst with
  | @waiting op pc seen hp ha =>
    have hout : ∀ q, some (⟨op, pc, seen, none⟩ : Visit) = some q → q.pc.within = false := by
      intro q hq
      cases hq
      rcases hp with rfl | rfl <;> rfl
    rcases hp with rfl | rfl
    · obtain ⟨hr, rfl, rfl⟩ := check_act hn he hs.ready
      rw [hr, Hall.put_outside rfl rfl]
      refine hs.outside hv hout rfl hs.ready rfl fun _ => .waiting (.inr rfl) fun t => ?_
      rw [alone_snoc, ha]
      rfl
    · obtain ⟨rfl, hm, hr⟩ := acquire_act hx hn he
      rcases hr with ⟨hr, hf, hh⟩ | ⟨⟨e, hr⟩, hh⟩
      · rw [hr]
        exact hs.acquire hf hh (hm.trans hs.ready) (ha s.table)
      · rw [hr, Hall.put_outside rfl rfl]
        exact hs.outside hv hout rfl (hm.trans hs.ready) hh fun _ => .refused
  | refused => cases hn
  | holding hw hh ht ha => exact hs.proceed hx hv hw hh ht ha hn he
  | through ht hr => cases hn

theorem step (hx : Exclusive call held) (hs : Ordered capacity held t₀ s) {c : Choice Hint n}
    (h : Hall.step? capacity call c s = some t) : Ordered capacity held t₀ t := by
  cases c with
  | begin i op => exact hs.begin h
  | act i hint w => exact hs.act hx h
  | finish i => exact hs.finish h

end Steps

end Ordered

/-! ## Whole runs -/

end Registry

end SyncCore

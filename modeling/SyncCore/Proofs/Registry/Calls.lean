import SyncCore.Proofs.Registry.Search

/-!
# Whole calls on a table

A call that has the table to itself answers what the table functions say and
leaves the table as they do. If the mutex cannot be taken the table is not
touched; if the mutex reports a failure when it is given back, the call fails
although its work is done.
-/

set_option autoImplicit false

namespace SyncCore.Registry

section Walks

variable {l : Latch} {effect : Effect interface Table} {alive : ObjectId → Bool}
  {handleOf : ObjectId → Option Handle}

theorem solo_look (hs : l.Serves effect) (o : ObjectId) (k : Nat) (t : Table) (d i : Nat)
    (h : i + d = t.length) :
    (next t.length).solo effect (d + (k + 1)) (lookFrom t.length (.contains o) o i) t =
      .finished (l.answer (.contains o) (.flag (Table.contains o (t.drop i)))) t := by
  induction d generalizing i with
  | zero =>
    have hi : ¬i < t.length := by omega
    rw [lookFrom, if_neg hi, List.drop_eq_nil_of_le (by omega), Nat.zero_add]
    exact solo_finish hs t.length _ _ k t
  | succ d ih =>
    have hi : i < t.length := by omega
    have hstep : (next t.length).solo effect (d + (k + 1) + 1)
        (.inside (.contains o) (.lookFor o i)) t =
        (next t.length).solo effect (d + (k + 1))
          (if t[i]?.join = some o then finish (.contains o) (.flag true)
            else lookFrom t.length (.contains o) o (i + 1)) t :=
      Machine.solo_act (by rfl) (hs.read i t) (by rfl) _
    rw [lookFrom, if_pos hi, List.drop_eq_getElem_cons hi, Nat.add_right_comm, hstep, slot_join hi]
    by_cases ho : t[i] = some o
    · rw [if_pos ho, Table.contains, ho, List.elem_cons_self]
      exact solo_finish hs t.length _ _ (d + k) t
    · have hm : (some o == t[i]) = false := beq_eq_false_iff_ne.mpr (Ne.symm ho)
      rw [if_neg ho, ih (i + 1) (by omega), Table.contains, Table.contains, List.elem_cons, hm]

theorem solo_count (hs : l.Serves effect) (k : Nat) (t : Table) (d i n : Nat)
    (h : i + d = t.length) :
    (next t.length).solo effect (d + (k + 1)) (countFrom t.length .size i n) t =
      .finished (l.answer .size (.count (n + Table.size (t.drop i)))) t := by
  induction d generalizing i n with
  | zero =>
    have hi : ¬i < t.length := by omega
    rw [countFrom, if_neg hi, List.drop_eq_nil_of_le (by omega), Nat.zero_add]
    exact solo_finish hs t.length _ _ k t
  | succ d ih =>
    have hi : i < t.length := by omega
    have hstep : (next t.length).solo effect (d + (k + 1) + 1) (.inside .size (.count i n)) t =
        (next t.length).solo effect (d + (k + 1))
          (countFrom t.length .size (i + 1) (if t[i]?.join.isSome then n + 1 else n)) t :=
      Machine.solo_act (by rfl) (hs.read i t) (by rfl) _
    rw [countFrom, if_pos hi, List.drop_eq_getElem_cons hi, Nat.add_right_comm, hstep,
      slot_join hi, ih (i + 1) _ (by omega), Table.size, Table.size, List.countP_cons]
    cases t[i] with
    | none => rfl
    | some o => simp only [Option.isSome_some, if_true, Nat.add_assoc, Nat.add_comm 1]

/-! A cleanup leaves the slots it has passed as it found them, or empty. -/

/-- The table that is left when the slots from the given one on are cleaned up. -/
def swept (alive : ObjectId → Bool) (i : Nat) (t : Table) : Table :=
  t.take i ++ Table.cleanup alive (t.drop i)

theorem swept_succ {i : Nat} {t : Table} (h : i < t.length) {v : Option ObjectId}
    (hv : t[i].filter alive = v) : swept alive (i + 1) (t.set i v) = swept alive i t := by
  have hl : i < (t.set i v).length := by rwa [List.length_set]
  have ht : (t.set i v).take (i + 1) = t.take i ++ [v] := by
    rw [List.take_succ_eq_append_getElem hl, List.take_set_of_le (Nat.le_refl i),
      List.getElem_set_self]
  rw [swept, swept, ht, List.drop_set_of_lt (Nat.lt_succ_self i), List.drop_eq_getElem_cons h,
    Table.cleanup, Table.cleanup, List.map_cons, hv, List.append_assoc, List.singleton_append]

theorem swept_keep {i : Nat} {t : Table} (h : i < t.length) (hv : t[i].filter alive = t[i]) :
    swept alive (i + 1) t = swept alive i t := by
  have hs := swept_succ h hv
  rwa [List.set_getElem_self] at hs

/-- The walk of a cleanup. Its table changes, its capacity does not. -/
theorem solo_sweep (hs : l.Serves effect) (hk : Knows alive handleOf effect) (capacity : Nat)
    (k d i n : Nat) (t : Table) (hc : t.length = capacity) (h : i + d = capacity) :
    (next capacity).solo effect (3 * d + (k + 2)) (sweepFrom capacity .cleanup i n) t =
      .finished (l.answer .cleanup (.count (n + Table.stale alive (t.drop i))))
        (swept alive i t) := by
  induction d generalizing i n k t with
  | zero =>
    have hi : ¬i < capacity := by omega
    have hd : t.drop i = [] := List.drop_eq_nil_of_le (by omega)
    have hw : swept alive i t = t := by
      rw [swept, hd, List.take_of_length_le (by omega), Table.cleanup, List.map_nil,
        List.append_nil]
    rw [sweepFrom, if_neg hi, hd, hw, Table.stale, List.countP_nil, Nat.add_zero, Nat.mul_zero,
      Nat.zero_add]
    by_cases hn : n = 0
    · subst hn
      exact solo_finish hs capacity _ _ (k + 1) t
    · rw [if_neg hn]
      calc (next capacity).solo effect (k + 2) (.inside .cleanup (.say _ (.count n))) t
          = (next capacity).solo effect (k + 1) (finish .cleanup (.count n)) t :=
            Machine.solo_act (by rfl) (hs.log _ t) (by rfl) (k + 1)
        _ = .finished (l.answer .cleanup (.count n)) t := solo_finish hs capacity _ _ k t
  | succ d ih =>
    have hi : i < t.length := by omega
    have hread : ∀ k, (next capacity).solo effect (k + 1) (.inside .cleanup (.sweep i n)) t =
        (next capacity).solo effect k
          (t[i]?.join.elim (sweepFrom capacity .cleanup (i + 1) n)
            fun o => .inside .cleanup (.probe i n o)) t := by
      intro k
      refine Machine.solo_act (by rfl) (hs.read i t) ?_ k
      cases t[i]?.join <;> rfl
    rw [sweepFrom, if_pos (hc ▸ hi), List.drop_eq_getElem_cons hi,
      show 3 * (d + 1) + (k + 2) = 3 * d + (k + 4) + 1 by omega, hread, slot_join hi, Table.stale,
      List.countP_cons]
    cases ht : t[i] with
    | none =>
      rw [← swept_keep hi (by rw [ht]; rfl), ← Table.stale]
      exact ih (k + 2) (i + 1) n t hc (by omega)
    | some o =>
      have hprobe : ∀ k, (next capacity).solo effect (k + 1) (.inside .cleanup (.probe i n o)) t =
          (next capacity).solo effect k
            (if alive o then sweepFrom capacity .cleanup (i + 1) n
              else .inside .cleanup (.clear i n)) t :=
        fun k => Machine.solo_act (by rfl) (hk.owned o t) (by rfl) k
      rw [show 3 * d + (k + 4) = 3 * d + (k + 3) + 1 by omega]
      simp only [Option.elim_some, hprobe]
      cases ha : alive o with
      | true =>
        rw [if_pos rfl, ← swept_keep hi (by rw [ht]; simp [ha]), ← Table.stale]
        simpa [ha] using ih (k + 1) (i + 1) n t hc (by omega)
      | false =>
        have hclear : (next capacity).solo effect (3 * d + (k + 2) + 1)
            (.inside .cleanup (.clear i n)) t =
            (next capacity).solo effect (3 * d + (k + 2))
              (sweepFrom capacity .cleanup (i + 1) (n + 1)) (t.set i none) :=
          Machine.solo_act (by rfl) (hs.write i none t) (by rfl) _
        have hw := ih k (i + 1) (n + 1) (t.set i none) (by rw [List.length_set, hc]) (by omega)
        rw [if_neg Bool.false_ne_true,
          show 3 * d + (k + 3) = 3 * d + (k + 2) + 1 by omega, hclear, hw,
          swept_succ hi (by rw [ht]; simp [ha]), List.drop_set_of_lt (Nat.lt_succ_self i),
          Table.stale]
        simp [ha, Nat.add_assoc, Nat.add_comm 1]

end Walks

def Op.apply (alive : ObjectId → Bool) (handleOf : ObjectId → Option Handle) (t : Table) :
    Op → Reply × Table
  | .register o => (settle t (t.register o)).map .outcome id
  | .unregister o => (settle t (t.unregister o)).map .outcome id
  | .find h => (.found (t.find? alive handleOf h), t)
  | .contains o => (.flag (t.contains o), t)
  | .cleanup => (.count (t.stale alive), t.cleanup alive)
  | .size => (.count t.size, t)

theorem solo_body {l : Latch} {effect : Effect interface Table} {alive : ObjectId → Bool}
    {handleOf : ObjectId → Option Handle} (hs : l.Serves effect)
    (hk : Knows alive handleOf effect) (op : Op) (t : Table) :
    (next t.length).solo effect (3 * t.length + 13) (enterBody t.length op) t =
      .finished (l.answer op (op.apply alive handleOf t).1) (op.apply alive handleOf t).2 := by
  cases op with
  | register o => exact solo_register hs o t
  | unregister o => exact solo_unregister hs o t
  | find h => exact solo_find hs hk h t
  | contains o =>
    have hw := solo_look hs o (2 * t.length + 12) t t.length 0 (Nat.zero_add _)
    rwa [show t.length + (2 * t.length + 12 + 1) = 3 * t.length + 13 by omega] at hw
  | cleanup =>
    have hw := solo_sweep hs hk t.length 11 t.length 0 0 t rfl (Nat.zero_add _)
    rwa [Nat.zero_add, List.drop_zero] at hw
  | size =>
    have hw := solo_count hs (2 * t.length + 12) t t.length 0 0 (Nat.zero_add _)
    rwa [show t.length + (2 * t.length + 12 + 1) = 3 * t.length + 13 by omega, Nat.zero_add,
      List.drop_zero] at hw

/-! ## Calls -/

def callEffect (l : Latch) (alive : ObjectId → Bool) (handleOf : ObjectId → Option Handle) :
    Effect interface Table
  | .mutex (.raw .lock), t => some (l.lock, t)
  | .mutex (.raw .unlock), t => some (l.unlock, t)
  | a, t => seekingEffect alive handleOf a t

def call? (l : Latch) (alive : ObjectId → Bool) (handleOf : ObjectId → Option Handle) (op : Op)
    (t : Table) : Option (Reply × Table) :=
  match (next t.length).solo (callEffect l alive handleOf) (length t.length) (start op) t with
  | .finished r u => some (r, u)
  | _ => none

def Latch.settle (l : Latch) (op : Op) (t : Table) (r : Reply × Table) : Reply × Table :=
  match l.lock with
  | .ok _ => (l.answer op r.1, r.2)
  | .error e => (op.failed e, t)

section Calls

variable (l : Latch) (alive : ObjectId → Bool) (handleOf : ObjectId → Option Handle)

theorem serves_call : l.Serves (callEffect l alive handleOf) :=
  ⟨fun _ => rfl, fun _ => rfl, fun _ => rfl, fun _ _ => rfl, fun _ _ _ => rfl, fun _ _ => rfl⟩

theorem knows_call : Knows alive handleOf (callEffect l alive handleOf) :=
  ⟨fun _ _ => rfl, fun _ _ => rfl, fun _ _ => rfl⟩

theorem call_eq (op : Op) (t : Table) :
    call? l alive handleOf op t = some (l.settle op t (op.apply alive handleOf t)) := by
  have hs := serves_call l alive handleOf
  unfold call? Latch.settle
  cases hl : l.lock with
  | ok u =>
    rw [show length t.length = 3 * t.length + 13 + 3 from rfl, solo_enter hs hl,
      solo_body hs (knows_call l alive handleOf)]
  | error e =>
    rw [show length t.length = 3 * t.length + 14 + 2 from rfl, solo_kept_out hs hl]

end Calls

theorem call_working (alive : ObjectId → Bool) (handleOf : ObjectId → Option Handle) (op : Op)
    (t : Table) :
    call? .working alive handleOf op t = some (op.apply alive handleOf t) :=
  call_eq .working alive handleOf op t

end SyncCore.Registry

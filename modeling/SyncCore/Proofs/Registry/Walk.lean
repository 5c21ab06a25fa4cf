import SyncCore.Registry.Operation

/-!
# Undisturbed walks over a table

An operation that holds the table's mutex is not disturbed. Run that way,
registering and unregistering an object walk over the slots one by one and
leave the table as the table functions say. A mutex may fail to be taken, or
report a failure when it is given back: what an operation answers then is told
by the same walk.
-/

set_option autoImplicit false

namespace SyncCore.Registry

structure Latch where
  lock : Outcome Unit
  unlock : Outcome Unit

namespace Latch

def working : Latch := ⟨.ok (), .ok ()⟩

def answer (l : Latch) (op : Op) (r : Reply) : Reply :=
  match l.unlock with
  | .ok _ => r
  | .error e => op.failed e

structure Serves (l : Latch) (effect : Effect interface Table) : Prop where
  ready : ∀ t, effect (.mutex .load) t = some (Mutex.Status.ready, t)
  lock : ∀ t, effect (.mutex (.raw .lock)) t = some (l.lock, t)
  unlock : ∀ t, effect (.mutex (.raw .unlock)) t = some (l.unlock, t)
  read : ∀ i t, effect (.readSlot i) t = some (t[i]?.join, t)
  write : ∀ i v t, effect (.writeSlot i v) t = some ((), t.set i v)
  log : ∀ r t, effect (.log r) t = some ((), t)

end Latch

/-! ## Steps of a walk -/

section Walk

variable {l : Latch} {effect : Effect interface Table}

theorem solo_enter (hs : l.Serves effect) {u : Unit} (hl : l.lock = .ok u) (op : Op) (k : Nat)
    (t : Table) :
    (next t.length).solo effect (k + 3) (start op) t =
      (next t.length).solo effect k (enterBody t.length op) t := by
  have hr := hs.lock t
  rw [hl] at hr
  calc (next t.length).solo effect (k + 3) (start op) t
      = (next t.length).solo effect (k + 2) (.enter op (.acquireRaw true)) t :=
        Machine.solo_act (by rfl) (hs.ready t) (by rfl) (k + 2)
    _ = (next t.length).solo effect (k + 1) (.enter op .acquireConfirm) t :=
        Machine.solo_act (by rfl) hr (by rfl) (k + 1)
    _ = (next t.length).solo effect k (enterBody t.length op) t :=
        Machine.solo_act (by rfl) (hs.ready t) (by rfl) k

theorem solo_kept_out (hs : l.Serves effect) {e : ErrorKind} (hl : l.lock = .error e) (op : Op)
    (k : Nat) (t : Table) :
    (next t.length).solo effect (k + 2) (start op) t = .finished (op.failed e) t := by
  have hr := hs.lock t
  rw [hl] at hr
  calc (next t.length).solo effect (k + 2) (start op) t
      = (next t.length).solo effect (k + 1) (.enter op (.acquireRaw true)) t :=
        Machine.solo_act (by rfl) (hs.ready t) (by rfl) (k + 1)
    _ = (next t.length).solo effect k (.done (op.failed e)) t := Machine.solo_act (by rfl) hr (by rfl) k
    _ = .finished (op.failed e) t := Machine.solo_done (by rfl) k t

theorem solo_finish (hs : l.Serves effect) (capacity : Nat) (op : Op) (r : Reply) (k : Nat)
    (t : Table) :
    (next capacity).solo effect (k + 1) (finish op r) t = .finished (l.answer op r) t := by
  have hu := hs.unlock t
  unfold Latch.answer
  cases hl : l.unlock with
  | ok u =>
    rw [hl] at hu
    calc (next capacity).solo effect (k + 1) (finish op r) t
        = (next capacity).solo effect k (.done r) t := Machine.solo_act (by rfl) hu (by rfl) k
      _ = .finished r t := Machine.solo_done (by rfl) k t
  | error e =>
    rw [hl] at hu
    calc (next capacity).solo effect (k + 1) (finish op r) t
        = (next capacity).solo effect k (.done (op.failed e)) t := Machine.solo_act (by rfl) hu (by rfl) k
      _ = .finished (op.failed e) t := Machine.solo_done (by rfl) k t

theorem solo_write (hs : l.Serves effect) {capacity : Nat} {op : Op} {b : Body} {i : Nat}
    {v : Option ObjectId} {message : String} {r : Reply}
    (hb : next capacity (.inside op b) =
      .act (.writeSlot i v) fun (_ : Unit) => .inside op (.say message r)) (k : Nat) (t : Table) :
    (next capacity).solo effect (k + 3) (.inside op b) t =
      .finished (l.answer op r) (t.set i v) :=
  calc (next capacity).solo effect (k + 3) (.inside op b) t
      = (next capacity).solo effect (k + 2) (.inside op (.say message r)) (t.set i v) :=
        Machine.solo_act hb (hs.write i v t) (by rfl) (k + 2)
    _ = (next capacity).solo effect (k + 1) (finish op r) (t.set i v) :=
        Machine.solo_act (by rfl) (hs.log _ (t.set i v)) (by rfl) (k + 1)
    _ = .finished (l.answer op r) (t.set i v) := solo_finish hs capacity op r k (t.set i v)

theorem slot_join {t : Table} {i : Nat} (h : i < t.length) : t[i]?.join = t[i] := by
  rw [List.getElem?_eq_getElem h, Option.join_some]

theorem solo_seek (hs : l.Serves effect) (o : ObjectId) (k : Nat) (t : Table) (d i : Nat)
    (h : i + d = t.length) :
    (next t.length).solo effect (d + (k + 1)) (seekFrom t.length (.register o) o i) t =
      if some o ∈ t.drop i then
        .finished (l.answer (.register o) (refused .alreadyInitialized)) t
      else (next t.length).solo effect (k + 1) (freeFrom t.length (.register o) o 0) t := by
  induction d generalizing i with
  | zero =>
    have hi : ¬i < t.length := by omega
    rw [seekFrom, if_neg hi, List.drop_eq_nil_of_le (by omega), Nat.zero_add]
    simp
  | succ d ih =>
    have hi : i < t.length := by omega
    have hstep : (next t.length).solo effect (d + (k + 1) + 1)
        (.inside (.register o) (.seek o i)) t =
        (next t.length).solo effect (d + (k + 1))
          (if t[i]?.join = some o then finish (.register o) (refused .alreadyInitialized)
            else seekFrom t.length (.register o) o (i + 1)) t :=
      Machine.solo_act (by rfl) (hs.read i t) (by rfl) _
    rw [seekFrom, if_pos hi, List.drop_eq_getElem_cons hi, Nat.add_right_comm, hstep, slot_join hi]
    by_cases ho : t[i] = some o
    · rw [if_pos ho, if_pos (by simp [ho])]
      exact solo_finish hs t.length _ _ (d + k) t
    · have hm : some o ∈ t[i] :: t.drop (i + 1) ↔ some o ∈ t.drop (i + 1) := by
        rw [List.mem_cons, or_iff_right (Ne.symm ho)]
      rw [if_neg ho, ih (i + 1) (by omega)]
      simp only [hm]

theorem solo_free (hs : l.Serves effect) (o : ObjectId) (k : Nat) (t : Table) (d i : Nat)
    (h : i + d = t.length) :
    (next t.length).solo effect (d + (k + 3)) (freeFrom t.length (.register o) o i) t =
      match (t.drop i).findIdx? Option.isNone with
      | some j => .finished (l.answer (.register o) ok) (t.set (i + j) (some o))
      | none => .finished (l.answer (.register o) (refused .notFound)) t := by
  induction d generalizing i with
  | zero =>
    have hi : ¬i < t.length := by omega
    rw [freeFrom, if_neg hi, List.drop_eq_nil_of_le (by omega), Nat.zero_add]
    exact solo_finish hs t.length _ _ (k + 2) t
  | succ d ih =>
    have hi : i < t.length := by omega
    have hstep : (next t.length).solo effect (d + (k + 3) + 1)
        (.inside (.register o) (.seekFree o i)) t =
        (next t.length).solo effect (d + (k + 3))
          (if t[i]?.join = none then .inside (.register o) (.fill o i)
            else freeFrom t.length (.register o) o (i + 1)) t :=
      Machine.solo_act (by rfl) (hs.read i t) (by rfl) _
    rw [freeFrom, if_pos hi, List.drop_eq_getElem_cons hi, Nat.add_right_comm, hstep,
      slot_join hi, List.findIdx?_cons]
    cases ho : t[i] with
    | none => exact solo_write hs rfl (d + k) t
    | some p =>
      rw [if_neg nofun, ih (i + 1) (by omega)]
      cases (t.drop (i + 1)).findIdx? Option.isNone with
      | none => rfl
      | some j => simp [Nat.add_assoc, Nat.add_comm 1 j]

theorem solo_search (hs : l.Serves effect) (o : ObjectId) (k : Nat) (t : Table) (d i : Nat)
    (h : i + d = t.length) :
    (next t.length).solo effect (d + (k + 3)) (searchFrom t.length (.unregister o) o i) t =
      match (t.drop i).findIdx? (· == some o) with
      | some j => .finished (l.answer (.unregister o) ok) (t.set (i + j) none)
      | none => .finished (l.answer (.unregister o) (refused .notFound)) t := by
  induction d generalizing i with
  | zero =>
    have hi : ¬i < t.length := by omega
    rw [searchFrom, if_neg hi, List.drop_eq_nil_of_le (by omega), Nat.zero_add]
    exact solo_finish hs t.length _ _ (k + 2) t
  | succ d ih =>
    have hi : i < t.length := by omega
    have hstep : (next t.length).solo effect (d + (k + 3) + 1)
        (.inside (.unregister o) (.search o i)) t =
        (next t.length).solo effect (d + (k + 3))
          (if t[i]?.join = some o then .inside (.unregister o) (.empty o i)
            else searchFrom t.length (.unregister o) o (i + 1)) t :=
      Machine.solo_act (by rfl) (hs.read i t) (by rfl) _
    rw [searchFrom, if_pos hi, List.drop_eq_getElem_cons hi, Nat.add_right_comm, hstep,
      slot_join hi, List.findIdx?_cons]
    by_cases ho : t[i] = some o
    · rw [if_pos ho, if_pos (by simp [ho])]
      exact solo_write hs rfl (d + k) t
    · rw [if_neg ho, ih (i + 1) (by omega), if_neg (by simpa using ho)]
      cases (t.drop (i + 1)).findIdx? (· == some o) with
      | none => rfl
      | some j => simp [Nat.add_assoc, Nat.add_comm 1 j]

end Walk

def settle (t : Table) : Outcome Table → Outcome Unit × Table
  | .ok u => (.ok (), u)
  | .error e => (.error e, t)

section Bodies

variable {l : Latch} {effect : Effect interface Table}

theorem solo_register (hs : l.Serves effect) (o : ObjectId) (t : Table) :
    (next t.length).solo effect (3 * t.length + 13) (enterBody t.length (.register o)) t =
      .finished (l.answer (.register o) (.outcome (settle t (t.register o)).1))
        (settle t (t.register o)).2 := by
  have hk := solo_seek hs o (2 * t.length + 12) t t.length 0 (Nat.zero_add _)
  have hf := solo_free hs o (t.length + 10) t t.length 0 (Nat.zero_add _)
  rw [enterBody, show 3 * t.length + 13 = t.length + (2 * t.length + 12 + 1) by omega, hk,
    Table.register, Table.contains]
  by_cases hc : some o ∈ t
  · simp [hc, settle, refused]
  · rw [show 2 * t.length + 12 + 1 = t.length + (t.length + 10 + 3) by omega, hf]
    cases hi : t.findIdx? Option.isNone with
    | none => simp [hc, hi, settle, refused]
    | some i => simp [hc, hi, settle, ok]

theorem solo_unregister (hs : l.Serves effect) (o : ObjectId) (t : Table) :
    (next t.length).solo effect (3 * t.length + 13) (enterBody t.length (.unregister o)) t =
      .finished (l.answer (.unregister o) (.outcome (settle t (t.unregister o)).1))
        (settle t (t.unregister o)).2 := by
  have hk := solo_search hs o (2 * t.length + 10) t t.length 0 (Nat.zero_add _)
  rw [enterBody, show 3 * t.length + 13 = t.length + (2 * t.length + 10 + 3) by omega, hk,
    Table.unregister]
  cases hi : t.findIdx? (· == some o) with
  | none => simp [hi, settle, refused]
  | some i => simp [hi, settle, ok]

end Bodies

/-! ## Under a mutex that does not fail -/

/-- The effect of the actions of one operation that has the table to itself,
under a mutex that is ready and does not fail. No object has an owner to
speak of: neither registering nor unregistering asks for one. -/
def quietEffect : Effect interface Table
  | .mutex .load, t => some (.ready, t)
  | .mutex (.store _), t => some ((), t)
  | .mutex (.exchange _ _), t => some (.ready, t)
  | .mutex (.raw .lock), t => some (.ok (), t)
  | .mutex (.raw .tryLock), t => some (.ok (), t)
  | .mutex (.raw .unlock), t => some (.ok (), t)
  | .mutex (.raw .isLocked), t => some (true, t)
  | .mutex (.raw .destroy), t => some (.ok (), t)
  | .readSlot i, t => some (t[i]?.join, t)
  | .writeSlot i v, t => some ((), t.set i v)
  | .isAlive _, _ => none
  | .handleOf _, _ => none
  | .hold _, _ => none
  | .log _, t => some ((), t)

theorem serves_quiet : Latch.working.Serves quietEffect :=
  ⟨fun _ => rfl, fun _ => rfl, fun _ => rfl, fun _ _ => rfl, fun _ _ _ => rfl, fun _ _ => rfl⟩

def undisturbed (fuel : Nat) (pc : Pc) (t : Table) : Stop Pc Reply Table :=
  (next t.length).solo quietEffect fuel pc t

def alone? (op : Op) (t : Table) : Option (Outcome Unit × Table) :=
  match undisturbed (length t.length) (start op) t with
  | .finished (.outcome r) u => some (r, u)
  | _ => none

theorem undisturbed_start (op : Op) (t : Table) :
    undisturbed (length t.length) (start op) t =
      (next t.length).solo quietEffect (3 * t.length + 13) (enterBody t.length op) t :=
  solo_enter serves_quiet rfl op (3 * t.length + 13) t

theorem alone_register (o : ObjectId) (t : Table) :
    alone? (.register o) t = some (settle t (t.register o)) := by
  rw [alone?, undisturbed_start, solo_register serves_quiet]
  rfl

theorem alone_unregister (o : ObjectId) (t : Table) :
    alone? (.unregister o) t = some (settle t (t.unregister o)) := by
  rw [alone?, undisturbed_start, solo_unregister serves_quiet]
  rfl

end SyncCore.Registry

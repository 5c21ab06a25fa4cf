import SyncCore.Proofs.Registry.Walk

/-!
# Undisturbed searches of a table

A search holds the table's mutex while it compares the handles of the objects
in the slots, one by one, and tries to keep the first that matches. An object
whose last owner is gone cannot be kept. Left alone, the search answers what
the table function says.
-/

set_option autoImplicit false

namespace SyncCore.Table

variable {alive : ObjectId → Bool} {handleOf : ObjectId → Option Handle} {h : Handle}

theorem find?_cons (slot : Option ObjectId) (t : Table) :
    find? alive handleOf h (slot :: t) =
      (slot.bind fun o => if alive o && handleOf o == some h then some o else none).or
        (find? alive handleOf h t) := by
  rw [find?, List.findSome?_cons]
  cases slot.bind fun o => if alive o && handleOf o == some h then some o else none <;> rfl

theorem find?_some {t : Table} {o : ObjectId} (hf : find? alive handleOf h t = some o) :
    some o ∈ t ∧ alive o = true ∧ handleOf o = some h := by
  obtain ⟨slot, hm, hs⟩ := List.exists_of_findSome?_eq_some hf
  obtain ⟨p, rfl, hp⟩ := Option.bind_eq_some_iff.mp hs
  simp only [Option.ite_none_right_eq_some, Bool.and_eq_true, beq_iff_eq] at hp
  obtain ⟨⟨ha, hh⟩, he⟩ := hp
  cases he
  exact ⟨hm, ha, hh⟩

theorem find?_none {t : Table} {o : ObjectId} (hf : find? alive handleOf h t = none)
    (hm : some o ∈ t) (ha : alive o = true) : handleOf o ≠ some h := by
  intro hh
  have hn := List.findSome?_eq_none_iff.mp hf (some o) hm
  simp [ha, hh] at hn

end SyncCore.Table

namespace SyncCore.Registry

structure Knows (alive : ObjectId → Bool) (handleOf : ObjectId → Option Handle)
    (effect : Effect interface Table) : Prop where
  owned : ∀ o t, effect (.isAlive o) t = some (alive o, t)
  handle : ∀ o t, effect (.handleOf o) t = some (handleOf o, t)
  hold : ∀ o t, effect (.hold o) t = some (alive o, t)

section Walk

variable {l : Latch} {effect : Effect interface Table} {alive : ObjectId → Bool}
  {handleOf : ObjectId → Option Handle}

theorem solo_read (hs : l.Serves effect) (h : Handle) (i k : Nat) (t : Table) :
    (next t.length).solo effect (k + 1) (.inside (.find h) (.visit h i)) t =
      (next t.length).solo effect k
        (match t[i]?.join with
          | some o => .inside (.find h) (.compare h i o)
          | none => visitFrom t.length (.find h) h (i + 1)) t :=
  Machine.solo_act (by rfl) (hs.read i t) (by rfl) k

theorem solo_compare (hk : Knows alive handleOf effect) (h : Handle) (i k : Nat) (o : ObjectId)
    (t : Table) :
    (next t.length).solo effect (k + 1) (.inside (.find h) (.compare h i o)) t =
      (next t.length).solo effect k
        (if handleOf o = some h then .inside (.find h) (.hold h i o)
          else visitFrom t.length (.find h) h (i + 1)) t :=
  Machine.solo_act (by rfl) (hk.handle o t) (by rfl) k

theorem solo_keep (hk : Knows alive handleOf effect) (h : Handle) (i k : Nat) (o : ObjectId)
    (t : Table) :
    (next t.length).solo effect (k + 1) (.inside (.find h) (.hold h i o)) t =
      (next t.length).solo effect k
        (if alive o then finish (.find h) (.found (some o))
          else visitFrom t.length (.find h) h (i + 1)) t :=
  Machine.solo_act (by rfl) (hk.hold o t) (by rfl) k

/-- The walk of a search ends with the first living object that has the handle. -/
theorem solo_visit (hs : l.Serves effect) (hk : Knows alive handleOf effect) (h : Handle)
    (t : Table) (d i k : Nat) (hd : i + d = t.length) :
    (next t.length).solo effect (3 * d + k + 1) (visitFrom t.length (.find h) h i) t =
      .finished (l.answer (.find h) (.found (Table.find? alive handleOf h (t.drop i)))) t := by
  induction d generalizing i k with
  | zero =>
    have hi : ¬i < t.length := by omega
    rw [visitFrom, if_neg hi, List.drop_eq_nil_of_le (by omega)]
    exact solo_finish hs t.length (.find h) (.found none) _ t
  | succ d ih =>
    have hi : i < t.length := by omega
    rw [visitFrom, if_pos hi, List.drop_eq_getElem_cons hi,
      show 3 * (d + 1) + k + 1 = 3 * d + k + 3 + 1 by omega, solo_read hs, slot_join hi,
      Table.find?_cons]
    cases t[i] with
    | none => exact ih (i + 1) (k + 2) (by omega)
    | some o =>
      rw [solo_compare hk]
      by_cases hh : handleOf o = some h
      · rw [if_pos hh, solo_keep hk]
        cases ha : alive o with
        | true =>
          rw [if_pos rfl, solo_finish hs]
          simp [hh, ha]
        | false =>
          rw [if_neg Bool.false_ne_true, ih (i + 1) k (by omega)]
          simp [ha]
      · rw [if_neg hh, show 3 * d + k + 2 = 3 * d + (k + 1) + 1 by omega,
          ih (i + 1) (k + 1) (by omega)]
        simp [hh]

theorem solo_find (hs : l.Serves effect) (hk : Knows alive handleOf effect) (h : Handle)
    (t : Table) :
    (next t.length).solo effect (3 * t.length + 13) (enterBody t.length (.find h)) t =
      .finished (l.answer (.find h) (.found (t.find? alive handleOf h))) t := by
  rw [enterBody, solo_visit hs hk h t t.length 0 12 (by omega), List.drop_zero]

end Walk

/-! ## Under a mutex that does not fail -/

def seekingEffect (alive : ObjectId → Bool) (handleOf : ObjectId → Option Handle) :
    Effect interface Table
  | .isAlive o, t => some (alive o, t)
  | .handleOf o, t => some (handleOf o, t)
  | .hold o, t => some (alive o, t)
  | .mutex a, t => quietEffect (.mutex a) t
  | .readSlot i, t => quietEffect (.readSlot i) t
  | .writeSlot i v, t => quietEffect (.writeSlot i v) t
  | .log r, t => quietEffect (.log r) t

section Search

variable (alive : ObjectId → Bool) (handleOf : ObjectId → Option Handle)

theorem serves_seeking : Latch.working.Serves (seekingEffect alive handleOf) :=
  ⟨fun _ => rfl, fun _ => rfl, fun _ => rfl, fun _ _ => rfl, fun _ _ _ => rfl, fun _ _ => rfl⟩

theorem knows_seeking : Knows alive handleOf (seekingEffect alive handleOf) :=
  ⟨fun _ _ => rfl, fun _ _ => rfl, fun _ _ => rfl⟩

def search? (h : Handle) (t : Table) : Option (Option ObjectId) :=
  match (next t.length).solo (seekingEffect alive handleOf) (length t.length)
    (start (.find h)) t with
  | .finished (.found o) _ => some o
  | _ => none

theorem search_eq (h : Handle) (t : Table) :
    search? alive handleOf h t = some (t.find? alive handleOf h) := by
  have hs := serves_seeking alive handleOf
  have hl : length t.length = 3 * t.length + 13 + 3 := rfl
  rw [search?, hl, solo_enter hs rfl, solo_find hs (knows_seeking alive handleOf)]
  rfl

end Search

end SyncCore.Registry

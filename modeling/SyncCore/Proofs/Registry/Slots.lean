import SyncCore.Registry.Table

/-!
# Slots of a table

Registering puts an object into a free slot and unregistering empties its
slot. Neither changes the number of slots or what the other slots hold, and
no object ever has two.
-/

set_option autoImplicit false

namespace SyncCore.Table

variable {t u : Table} {o p : ObjectId}

def Single (t : Table) : Prop := ∀ o, t.count (some o) ≤ 1

theorem not_mem_free (capacity : Nat) (o : ObjectId) : some o ∉ free capacity := by
  intro h
  cases List.eq_of_mem_replicate h

theorem single_free (capacity : Nat) : Single (free capacity) := by
  intro o
  rw [List.count_eq_zero_of_not_mem (not_mem_free capacity o)]
  exact Nat.zero_le 1

theorem size_le_length (t : Table) : t.size ≤ t.length := List.countP_le_length

/-- One slot is written: the old content counts one less, the new one more. -/
theorem count_set {i : Nat} {v : Option ObjectId} (h : t[i]? = some v) (x y : Option ObjectId) :
    (t.set i x).count y + (if v = y then 1 else 0) = t.count y + (if x = y then 1 else 0) := by
  induction t generalizing i with
  | nil => cases h
  | cons w t ih =>
    cases i with
    | zero =>
      cases h
      simp only [List.set_cons_zero, List.count_cons, beq_iff_eq]
      omega
    | succ i =>
      have := ih (List.getElem?_cons_succ ▸ h)
      simp only [List.set_cons_succ, List.count_cons]
      omega

theorem register_ok (h : t.register o = .ok u) :
    some o ∉ t ∧ ∃ i, t[i]? = some none ∧ u = t.set i (some o) := by
  unfold register at h
  by_cases hc : t.contains o = true
  · rw [if_pos hc] at h
    cases h
  · rw [if_neg hc] at h
    refine ⟨fun hm => hc (List.elem_eq_true_of_mem hm), ?_⟩
    cases hi : t.findIdx? Option.isNone with
    | none =>
      rw [hi] at h
      cases h
    | some i =>
      rw [hi] at h
      cases h
      obtain ⟨hl, hn, -⟩ := List.findIdx?_eq_some_iff_getElem.mp hi
      exact ⟨i, by rw [List.getElem?_eq_getElem hl, Option.isNone_iff_eq_none.mp hn], rfl⟩

theorem unregister_ok (h : t.unregister o = .ok u) :
    ∃ i, t[i]? = some (some o) ∧ u = t.set i none := by
  unfold unregister at h
  cases hi : t.findIdx? (· == some o) with
  | none =>
    rw [hi] at h
    cases h
  | some i =>
    rw [hi] at h
    cases h
    obtain ⟨hl, hn, -⟩ := List.findIdx?_eq_some_iff_getElem.mp hi
    exact ⟨i, by rw [List.getElem?_eq_getElem hl, eq_of_beq hn], rfl⟩

theorem unregister_error {e : ErrorKind} (h : t.unregister o = .error e) :
    e = .notFound ∧ some o ∉ t := by
  unfold unregister at h
  cases hi : t.findIdx? (· == some o) with
  | none =>
    rw [hi] at h
    cases h
    refine ⟨rfl, fun hm => ?_⟩
    simpa using List.findIdx?_eq_none_iff.mp hi (some o) hm
  | some i =>
    rw [hi] at h
    cases h

theorem register_length (h : t.register o = .ok u) : u.length = t.length := by
  obtain ⟨-, i, -, rfl⟩ := register_ok h
  exact List.length_set

theorem unregister_length (h : t.unregister o = .ok u) : u.length = t.length := by
  obtain ⟨i, -, rfl⟩ := unregister_ok h
  exact List.length_set

theorem register_count (h : t.register o = .ok u) (p : ObjectId) :
    u.count (some p) = t.count (some p) + if p = o then 1 else 0 := by
  obtain ⟨-, i, hi, rfl⟩ := register_ok h
  simpa [eq_comm] using count_set hi (some o) (some p)

theorem unregister_count (h : t.unregister o = .ok u) (p : ObjectId) :
    u.count (some p) + (if p = o then 1 else 0) = t.count (some p) := by
  obtain ⟨i, hi, rfl⟩ := unregister_ok h
  simpa [eq_comm] using count_set hi none (some p)

theorem mem_register (h : t.register o = .ok u) : some p ∈ u ↔ some p ∈ t ∨ p = o := by
  have hc := register_count h p
  rw [← List.count_pos_iff, ← List.count_pos_iff, hc]
  by_cases hp : p = o <;> simp [hp]

theorem mem_unregister (hs : t.Single) (h : t.unregister o = .ok u) :
    some p ∈ u ↔ some p ∈ t ∧ p ≠ o := by
  have hc := unregister_count h p
  have hp := hs p
  rw [← List.count_pos_iff, ← List.count_pos_iff]
  by_cases ho : p = o
  · subst ho
    rw [if_pos rfl] at hc
    simp only [ne_eq, not_true_eq_false, and_false, iff_false]
    omega
  · rw [if_neg ho] at hc
    simp only [ne_eq, ho, not_false_eq_true, and_true]
    omega

theorem single_register (hs : t.Single) (h : t.register o = .ok u) : u.Single := by
  intro p
  have hc := register_count h p
  by_cases hp : p = o
  · have hn := List.count_eq_zero_of_not_mem (register_ok h).1
    subst hp
    simp only [hn, if_true] at hc
    omega
  · rw [if_neg hp] at hc
    have := hs p
    omega

theorem single_unregister (hs : t.Single) (h : t.unregister o = .ok u) : u.Single := by
  intro p
  have hc := unregister_count h p
  have := hs p
  omega

end SyncCore.Table

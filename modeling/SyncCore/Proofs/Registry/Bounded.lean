import Mathlib.Data.Finset.Card
import Mathlib.Data.Nat.Find
import Mathlib.Logic.Function.Basic
import SyncCore.Proofs.Registry.Calls
import SyncCore.Proofs.Registry.Slots
import SyncCore.Proofs.Run

/-!
# Tables as bounded sets

Between the calls on a table its objects are bound to backend threads and lose
their last owners at any time. Whatever has happened, the objects that have a
slot are a set of at most as many as there are slots, and each call is one
operation on that set. Which slot it takes, frees or finds is told as well.
-/

set_option autoImplicit false

namespace SyncCore

namespace Table

variable {t u : Table} {o p : ObjectId} {i j : Nat}

/-- The objects that have a slot, alive or not. -/
def objects (t : Table) : Finset ObjectId := (t.filterMap id).toFinset

@[simp]
theorem mem_objects : o ∈ t.objects ↔ some o ∈ t := by
  simp [objects]

theorem single_tail {v : Option ObjectId} (hs : Single (v :: t)) : t.Single := fun o =>
  (List.count_le_count_cons (b := v)).trans (hs o)

theorem Single.slot_unique (hs : t.Single) (hi : t[i]? = some (some o))
    (hj : t[j]? = some (some o)) : i = j := by
  by_contra hne
  have hc := count_set hi none (some o)
  have hm : some o ∈ t.set i none :=
    List.mem_iff_getElem?.mpr ⟨j, by rw [List.getElem?_set_ne hne, hj]⟩
  have hp := List.count_pos_iff.mpr hm
  have := hs o
  rw [if_pos rfl, if_neg nofun] at hc
  omega

theorem card_filter_objects (hs : t.Single) (q : ObjectId → Bool) :
    (t.objects.filter (q · = true)).card = t.countP fun slot => slot.any q := by
  induction t with
  | nil => rfl
  | cons v t ih =>
    rw [List.countP_cons, ← ih (single_tail hs)]
    cases v with
    | none => rfl
    | some o =>
      have hn : o ∉ objects t := fun hm => by
        have hc := hs o
        have hp := List.count_pos_iff.mpr (mem_objects.mp hm)
        rw [List.count_cons_self] at hc
        omega
      have ho : objects (some o :: t) = insert o (objects t) := by
        ext p
        simp
      rw [ho, Finset.filter_insert]
      cases hq : q o with
      | true => rw [if_pos rfl, Finset.card_insert_of_notMem (by simp [hn])]; simp [hq]
      | false => simp [hq]

theorem card_objects (hs : t.Single) : t.objects.card = t.size := by
  have hc := card_filter_objects hs fun _ => true
  rw [Finset.filter_true_of_mem fun _ _ => rfl] at hc
  rw [hc, size]
  congr

theorem objects_fill (h : t[i]? = some none) : objects (t.set i (some o)) = insert o t.objects := by
  ext p
  have hc := count_set h (some o) (some p)
  rw [if_neg nofun, Nat.add_zero] at hc
  rw [Finset.mem_insert, mem_objects, mem_objects, ← List.count_pos_iff, ← List.count_pos_iff, hc]
  by_cases hp : p = o
  · simp [hp]
  · simp [hp, Ne.symm hp]

theorem objects_empty (hs : t.Single) (h : t[i]? = some (some o)) :
    objects (t.set i none) = t.objects.erase o := by
  ext p
  have hc := count_set h none (some p)
  have hp := hs p
  rw [if_neg (c := none = some p) nofun, Nat.add_zero] at hc
  rw [Finset.mem_erase, mem_objects, mem_objects, ← List.count_pos_iff, ← List.count_pos_iff]
  by_cases ho : p = o
  · subst ho
    rw [if_pos rfl] at hc
    simp only [ne_eq, not_true_eq_false, false_and, iff_false]
    omega
  · rw [if_neg (fun he => ho (Option.some.inj he).symm)] at hc
    simp only [ne_eq, ho, not_false_eq_true, true_and]
    omega

theorem objects_cleanup (alive : ObjectId → Bool) (t : Table) :
    (t.cleanup alive).objects = t.objects.filter (alive · = true) := by
  ext o
  rw [mem_objects, Finset.mem_filter, mem_objects, cleanup, List.mem_map]
  constructor
  · rintro ⟨slot, hm, hf⟩
    obtain ⟨rfl, ha⟩ := Option.filter_eq_some_iff.mp hf
    exact ⟨hm, ha⟩
  · rintro ⟨hm, ha⟩
    exact ⟨some o, hm, Option.filter_eq_some_iff.mpr ⟨rfl, ha⟩⟩

theorem single_cleanup (hs : t.Single) (alive : ObjectId → Bool) : (t.cleanup alive).Single := by
  intro o
  rw [cleanup, List.count, List.countP_map]
  refine (List.countP_mono_left fun slot _ hf => ?_).trans (hs o)
  exact beq_iff_eq.mpr (Option.filter_eq_some_iff.mp (beq_iff_eq.mp hf)).1

theorem stale_cleanup (alive : ObjectId → Bool) (t : Table) : (t.cleanup alive).stale alive = 0 := by
  rw [stale, List.countP_eq_zero]
  intro slot hm hd
  obtain ⟨o, rfl, ho⟩ := (Option.any_eq_true _ _).mp hd
  obtain ⟨v, -, hf⟩ := List.mem_map.mp hm
  simp [(Option.filter_eq_some_iff.mp hf).2] at ho

theorem cleanup_cleanup (alive : ObjectId → Bool) (t : Table) :
    (t.cleanup alive).cleanup alive = t.cleanup alive := by
  simp [cleanup, Function.comp_def, Option.filter_filter]

/-! The table functions, where the slots that they look for are known. -/

theorem register_present (ho : some o ∈ t) : t.register o = .error .alreadyInitialized :=
  if_pos (List.elem_eq_true_of_mem ho)

theorem register_full (ho : some o ∉ t) (hf : none ∉ t) : t.register o = .error .notFound := by
  have hc : t.contains o ≠ true := fun h => ho (List.mem_of_elem_eq_true h)
  have hi : t.findIdx? Option.isNone = none := List.findIdx?_eq_none_iff.mpr fun slot hm => by
    cases slot with
    | none => exact absurd hm hf
    | some p => rfl
  rw [register, if_neg hc, hi]

theorem register_fill (ho : some o ∉ t) (hi : t[i]? = some none)
    (hl : ∀ j < i, t[j]? ≠ some none) : t.register o = .ok (t.set i (some o)) := by
  have hc : t.contains o ≠ true := fun h => ho (List.mem_of_elem_eq_true h)
  obtain ⟨hlt, he⟩ := List.getElem?_eq_some_iff.mp hi
  have hf : t.findIdx? Option.isNone = some i :=
    List.findIdx?_eq_some_iff_getElem.mpr ⟨hlt, by rw [he]; rfl, fun j hj hn =>
      hl j hj (by rw [List.getElem?_eq_getElem (hj.trans hlt), Option.isNone_iff_eq_none.mp hn])⟩
  rw [register, if_neg hc, hf]

theorem unregister_absent (ho : some o ∉ t) : t.unregister o = .error .notFound := by
  have hi : t.findIdx? (· == some o) = none := List.findIdx?_eq_none_iff.mpr fun slot hm =>
    beq_eq_false_iff_ne.mpr fun he => ho (he ▸ hm)
  rw [unregister, hi]

theorem unregister_empty (hs : t.Single) (hi : t[i]? = some (some o)) :
    t.unregister o = .ok (t.set i none) := by
  obtain ⟨hlt, he⟩ := List.getElem?_eq_some_iff.mp hi
  have hf : t.findIdx? (· == some o) = some i :=
    List.findIdx?_eq_some_iff_getElem.mpr ⟨hlt, beq_iff_eq.mpr he, fun j hj hn =>
      hj.ne (hs.slot_unique (by rw [List.getElem?_eq_getElem (hj.trans hlt), eq_of_beq hn]) hi)⟩
  rw [unregister, hf]

end Table

namespace Registry

structure Scene where
  table : Table
  alive : ObjectId → Bool
  handleOf : ObjectId → Option Handle

inductive Turn where
  | call (op : Op)
  /-- An object is bound to a backend thread, once. -/
  | bind (o : ObjectId) (h : Handle)
  | forget (o : ObjectId)

namespace Scene

variable {s s' : Scene} {capacity : Nat} {op : Op} {r : Reply} {t u : Table}

def initial (capacity : Nat) : Scene := ⟨Table.free capacity, fun _ => true, fun _ => none⟩

def call? (s : Scene) (op : Op) : Option (Reply × Table) :=
  Registry.call? .working s.alive s.handleOf op s.table

def isEmpty? (s : Scene) : Option Bool := (s.call? .size).map fun a => a.1 = .count 0

def step? : Turn → Scene → Option Scene
  | .call op, s => (s.call? op).map fun a => { s with table := a.2 }
  | .bind o h, s =>
    some { s with handleOf := Function.update s.handleOf o ((s.handleOf o).or (some h)) }
  | .forget o, s => some { s with alive := Function.update s.alive o false }

/-! ## What a call does to the slots -/

def Matches (s : Scene) (h : Handle) (o : ObjectId) : Prop :=
  s.alive o = true ∧ s.handleOf o = some h

inductive Answers (s : Scene) : Op → Reply → Table → Prop where
  | present {o : ObjectId} : some o ∈ s.table →
    Answers s (.register o) (refused .alreadyInitialized) s.table
  | full {o : ObjectId} : some o ∉ s.table → none ∉ s.table →
    Answers s (.register o) (refused .notFound) s.table
  | fill {o : ObjectId} {i : Nat} : some o ∉ s.table → s.table[i]? = some none →
    (∀ j < i, s.table[j]? ≠ some none) → Answers s (.register o) ok (s.table.set i (some o))
  | absent {o : ObjectId} : some o ∉ s.table →
    Answers s (.unregister o) (refused .notFound) s.table
  | empty {o : ObjectId} {i : Nat} : s.table[i]? = some (some o) →
    Answers s (.unregister o) ok (s.table.set i none)
  | found {h : Handle} {o : ObjectId} {i : Nat} : s.table[i]? = some (some o) → s.Matches h o →
    (∀ j < i, ∀ p, s.table[j]? = some (some p) → ¬s.Matches h p) →
    Answers s (.find h) (.found (some o)) s.table
  | missing {h : Handle} : (∀ o, some o ∈ s.table → ¬s.Matches h o) →
    Answers s (.find h) (.found none) s.table
  | contains {o : ObjectId} : Answers s (.contains o) (.flag (some o ∈ s.table)) s.table
  | size : Answers s .size (.count (s.table.countP Option.isSome)) s.table
  | cleanup {u : Table} : (∀ i : Nat, u[i]? = s.table[i]?.map (Option.filter s.alive)) →
    Answers s .cleanup (.count (s.table.countP fun slot => slot.any fun o => !s.alive o)) u

theorem find_found {h : Handle} {o : ObjectId} {i : Nat} (hi : s.table[i]? = some (some o))
    (hm : s.Matches h o) (hl : ∀ j < i, ∀ p, s.table[j]? = some (some p) → ¬s.Matches h p) :
    s.table.find? s.alive s.handleOf h = some o := by
  obtain ⟨hlt, he⟩ := List.getElem?_eq_some_iff.mp hi
  refine List.findSome?_eq_some_iff.mpr
    ⟨s.table.take i, some o, s.table.drop (i + 1), ?_, by simp [hm.1, hm.2], fun slot hs => ?_⟩
  · rw [← he, ← List.drop_eq_getElem_cons hlt, List.take_append_drop]
  · obtain ⟨j, hj, rfl⟩ := List.mem_take_iff_getElem.mp hs
    cases hv : s.table[j] with
    | none => rfl
    | some p =>
      have hn := hl j (by omega) p (by rw [List.getElem?_eq_getElem (by omega), hv])
      simpa [Matches] using hn

theorem find_missing {h : Handle} (hn : ∀ o, some o ∈ s.table → ¬s.Matches h o) :
    s.table.find? s.alive s.handleOf h = none := by
  refine List.findSome?_eq_none_iff.mpr fun slot hs => ?_
  cases slot with
  | none => rfl
  | some p => simpa [Matches] using hn p hs

theorem Answers.apply (hs : s.table.Single) (h : s.Answers op r u) :
    op.apply s.alive s.handleOf s.table = (r, u) := by
  cases h with
  | present ho => rw [Op.apply, Table.register_present ho]; rfl
  | full ho hf => rw [Op.apply, Table.register_full ho hf]; rfl
  | fill ho hi hl => rw [Op.apply, Table.register_fill ho hi hl]; rfl
  | absent ho => rw [Op.apply, Table.unregister_absent ho]; rfl
  | empty hi => rw [Op.apply, Table.unregister_empty hs hi]; rfl
  | found hi hm hl => rw [Op.apply, find_found hi hm hl]
  | missing hn => rw [Op.apply, find_missing hn]
  | contains => simp [Op.apply, Table.contains]
  | size => rfl
  | cleanup hu =>
    have he : s.table.cleanup s.alive = u := List.ext_getElem? fun i => by
      rw [Table.cleanup, List.getElem?_map, hu i]
    rw [Op.apply, he, Table.stale]

theorem answered (s : Scene) (op : Op) : ∃ r u, s.Answers op r u := by
  cases op with
  | register o =>
    by_cases ho : some o ∈ s.table
    · exact ⟨_, _, .present ho⟩
    · by_cases hf : none ∈ s.table
      · have hi := List.mem_iff_getElem?.mp hf
        exact ⟨_, _, .fill ho (Nat.find_spec hi) fun j hj => Nat.find_min hi hj⟩
      · exact ⟨_, _, .full ho hf⟩
  | unregister o =>
    by_cases ho : some o ∈ s.table
    · obtain ⟨i, hi⟩ := List.mem_iff_getElem?.mp ho
      exact ⟨_, _, .empty hi⟩
    · exact ⟨_, _, .absent ho⟩
  | find h =>
    by_cases hn : ∃ (i : Nat) (o : ObjectId), s.table[i]? = some (some o) ∧ s.Matches h o
    · classical
      obtain ⟨o, hi, hm⟩ := Nat.find_spec hn
      exact ⟨_, _, .found hi hm fun j hj p hp hq => Nat.find_min hn hj ⟨p, hp, hq⟩⟩
    · refine ⟨_, _, .missing fun o ho hm => hn ?_⟩
      obtain ⟨i, hi⟩ := List.mem_iff_getElem?.mp ho
      exact ⟨i, o, hi, hm⟩
  | contains o => exact ⟨_, _, .contains⟩
  | cleanup => exact ⟨_, s.table.cleanup s.alive, .cleanup fun i => List.getElem?_map⟩
  | size => exact ⟨_, _, .size⟩

theorem call_iff (hs : s.table.Single) : s.call? op = some (r, u) ↔ s.Answers op r u := by
  obtain ⟨r', u', ha⟩ := s.answered op
  have hc : s.call? op = some (r', u') := by
    rw [call?, call_working, ha.apply hs]
  constructor
  · intro h
    cases hc.symm.trans h
    exact ha
  · intro h
    rw [call?, call_working, h.apply hs]

/-! ## What a call does to the set of objects -/

def Acts (capacity : Nat) (s : Scene) (S : Finset ObjectId) :
    Op → Reply → Finset ObjectId → Prop
  | .register o, r, S' =>
    if o ∈ S then r = refused .alreadyInitialized ∧ S' = S
    else if S.card = capacity then r = refused .notFound ∧ S' = S
    else r = ok ∧ S' = insert o S
  | .unregister o, r, S' =>
    if o ∈ S then r = ok ∧ S' = S.erase o else r = refused .notFound ∧ S' = S
  | .find h, r, S' =>
    S' = S ∧ ((∃ o ∈ S, s.Matches h o ∧ r = .found (some o)) ∨
      (∀ o ∈ S, ¬s.Matches h o) ∧ r = .found none)
  | .contains o, r, S' => r = .flag (o ∈ S) ∧ S' = S
  | .cleanup, r, S' =>
    r = .count (S.filter (s.alive · = false)).card ∧ S' = S.filter (s.alive · = true)
  | .size, r, S' => r = .count S.card ∧ S' = S

theorem Answers.acts (hs : s.table.Single) (h : s.Answers op r u) :
    Acts s.table.length s s.table.objects op r u.objects := by
  cases h with
  | present ho => exact (if_pos (Table.mem_objects.mpr ho)).mpr ⟨rfl, rfl⟩
  | full ho hf =>
    have hc : s.table.objects.card = s.table.length := by
      rw [Table.card_objects hs, Table.size, List.countP_eq_length]
      exact fun slot hm => Option.isSome_iff_ne_none.mpr fun he => hf (he ▸ hm)
    rw [Acts, if_neg (mt Table.mem_objects.mp ho), if_pos hc]
    exact ⟨rfl, rfl⟩
  | fill ho hi hl =>
    have hc : s.table.objects.card ≠ s.table.length := by
      rw [Table.card_objects hs, Table.size]
      exact (List.countP_lt_length_iff.mpr ⟨none, List.mem_of_getElem? hi, rfl⟩).ne
    rw [Acts, if_neg (mt Table.mem_objects.mp ho), if_neg hc]
    exact ⟨rfl, Table.objects_fill hi⟩
  | absent ho =>
    rw [Acts, if_neg (mt Table.mem_objects.mp ho)]
    exact ⟨rfl, rfl⟩
  | empty hi =>
    rw [Acts, if_pos (Table.mem_objects.mpr (List.mem_of_getElem? hi))]
    exact ⟨rfl, Table.objects_empty hs hi⟩
  | found hi hm hl =>
    exact ⟨rfl, .inl ⟨_, Table.mem_objects.mpr (List.mem_of_getElem? hi), hm, rfl⟩⟩
  | missing hn => exact ⟨rfl, .inr ⟨fun o ho => hn o (Table.mem_objects.mp ho), rfl⟩⟩
  | contains => exact ⟨by simp only [Table.mem_objects], rfl⟩
  | size => exact ⟨by rw [Table.card_objects hs, Table.size], rfl⟩
  | cleanup hu =>
    have he : s.table.cleanup s.alive = u := List.ext_getElem? fun i => by
      rw [Table.cleanup, List.getElem?_map, hu i]
    refine ⟨?_, by rw [← he, Table.objects_cleanup]⟩
    rw [← Table.card_filter_objects hs]
    simp only [Bool.not_eq_true']

/-! ## Over whole runs -/

structure Bounded (capacity : Nat) (s : Scene) : Prop where
  length : s.table.length = capacity
  single : s.table.Single

theorem bounded_initial (capacity : Nat) : Bounded capacity (initial capacity) :=
  ⟨List.length_replicate, Table.single_free capacity⟩

theorem apply_bounded (hs : Bounded capacity s) (op : Op) :
    Bounded capacity { s with table := (op.apply s.alive s.handleOf s.table).2 } := by
  cases op with
  | register o =>
    cases hr : s.table.register o with
    | ok u =>
      simp only [Op.apply, hr]
      exact ⟨(Table.register_length hr).trans hs.length, Table.single_register hs.single hr⟩
    | error e =>
      simp only [Op.apply, hr]
      exact hs
  | unregister o =>
    cases hr : s.table.unregister o with
    | ok u =>
      simp only [Op.apply, hr]
      exact ⟨(Table.unregister_length hr).trans hs.length, Table.single_unregister hs.single hr⟩
    | error e =>
      simp only [Op.apply, hr]
      exact hs
  | cleanup =>
    exact ⟨List.length_map .. |>.trans hs.length, Table.single_cleanup hs.single s.alive⟩
  | _ => exact hs

theorem step_bounded (hs : Bounded capacity s) (c : Turn) :
    ∃ s', step? c s = some s' ∧ Bounded capacity s' := by
  cases c with
  | call op =>
    refine ⟨_, ?_, apply_bounded hs op⟩
    rw [step?, call?, call_working, Option.map_some]
  | bind o h => exact ⟨_, rfl, ⟨hs.length, hs.single⟩⟩
  | forget o => exact ⟨_, rfl, ⟨hs.length, hs.single⟩⟩

theorem run_bounded (hs : Bounded capacity s) (turns : List Turn) :
    ∃ s', run? step? turns s = some s' ∧ Bounded capacity s' := by
  induction turns generalizing s with
  | nil => exact ⟨s, rfl, hs⟩
  | cons c turns ih =>
    obtain ⟨s₁, h₁, hb⟩ := step_bounded hs c
    obtain ⟨s₂, h₂, hb⟩ := ih hb
    exact ⟨s₂, by rw [run?, h₁, Option.bind_some, h₂], hb⟩

/-- What a turn makes of a scene. A call changes the table as it says, and the first
handle that an object is bound to stays. -/
def Turned (s : Scene) : Turn → Scene → Prop
  | .call op, s' =>
    (∃ r, s.Answers op r s'.table) ∧ s'.alive = s.alive ∧ s'.handleOf = s.handleOf
  | .bind o h, s' =>
    s'.handleOf o = some ((s.handleOf o).getD h) ∧ (∀ p ≠ o, s'.handleOf p = s.handleOf p) ∧
      s'.table = s.table ∧ s'.alive = s.alive
  | .forget o, s' =>
    s'.alive o = false ∧ (∀ p ≠ o, s'.alive p = s.alive p) ∧ s'.table = s.table ∧
      s'.handleOf = s.handleOf

theorem step_turned (hs : s.table.Single) {c : Turn} (h : step? c s = some s') : s.Turned c s' := by
  cases c with
  | call op =>
    obtain ⟨⟨r, u⟩, ha, rfl⟩ := Option.map_eq_some_iff.mp h
    exact ⟨⟨r, (call_iff hs).mp ha⟩, rfl, rfl⟩
  | bind o h =>
    cases h
    refine ⟨(Function.update_self ..).trans ?_, fun p hp => Function.update_of_ne hp .., rfl, rfl⟩
    cases s.handleOf o <;> rfl
  | forget o =>
    cases h
    exact ⟨Function.update_self .., fun p hp => Function.update_of_ne hp .., rfl, rfl⟩

structure Refines (capacity : Nat) (s : Scene) : Prop where
  slots : s.table.length = capacity
  once : ∀ (i j : Nat) (o : ObjectId),
    s.table[i]? = some (some o) → s.table[j]? = some (some o) → i = j
  within : s.table.objects.card ≤ capacity
  returns : ∀ op, ∃ r u, s.call? op = some (r, u)
  answers : ∀ op r u, s.call? op = some (r, u) ↔ s.Answers op r u
  acts : ∀ op r u, s.call? op = some (r, u) → Acts capacity s s.table.objects op r u.objects
  unchanged : ∀ op e u, s.call? op = some (refused e, u) → u = s.table
  again : ∀ r u, s.call? .cleanup = some (r, u) →
    Scene.call? { s with table := u } .cleanup = some (.count 0, u)
  empty : s.isEmpty? = some (decide (s.table.objects = ∅))

theorem Bounded.refines (hs : Bounded capacity s) : Refines capacity s where
  slots := hs.length
  once := fun _ _ _ => hs.single.slot_unique
  within := hs.length ▸ Table.card_objects hs.single ▸ Table.size_le_length s.table
  returns := fun op => by
    obtain ⟨r, u, ha⟩ := s.answered op
    exact ⟨r, u, (call_iff hs.single).mpr ha⟩
  answers := fun _ _ _ => call_iff hs.single
  acts := fun op r u h => hs.length ▸ ((call_iff hs.single).mp h).acts hs.single
  unchanged := fun op e u h => by
    cases (call_iff hs.single).mp h <;> rfl
  again := fun r u h => by
    rw [call?, call_working] at h
    cases h
    rw [call?, call_working, Op.apply, Table.stale_cleanup, Table.cleanup_cleanup]
  empty := by
    rw [isEmpty?, call?, call_working, Option.map_some, Op.apply, ← Table.card_objects hs.single]
    simp

/-- Whatever calls are made on a table of any capacity, and whatever becomes of
its objects in between, the table is a bounded set of objects. -/
theorem table_refines_bounded_set (capacity : Nat) (turns : List Turn) :
    Throughout step? Turned turns (initial capacity) ∧
    ∃ s, run? step? turns (initial capacity) = some s ∧ Refines capacity s := by
  constructor
  · refine throughout_of_keeps (I := Bounded capacity) ?_ (throughout_trivial _ _)
      (bounded_initial capacity)
    intro s c s' hs hst _
    obtain ⟨u, hu, hb⟩ := step_bounded hs c
    cases hst.symm.trans hu
    exact ⟨hb, step_turned hs.single hst⟩
  · obtain ⟨s, h, hb⟩ := run_bounded (bounded_initial capacity) turns
    exact ⟨s, h, hb.refines⟩

end Scene

end Registry

end SyncCore

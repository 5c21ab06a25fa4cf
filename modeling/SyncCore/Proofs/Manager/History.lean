import Mathlib.Data.List.Basic
import SyncCore.Proofs.Manager.Actions

/-!
# The history of one thread

What becomes of a thread's value is told against what has happened on the
thread: how its function ended, what its routine wrote, and what the joins of
its handle answered. The history is noted beside a run and steers nothing.
-/

set_option autoImplicit false

namespace SyncCore.Manager

variable {V : Type}

structure History (V : Type) where
  /-- How the calls of the thread's function ended: with a value or by unwinding. -/
  endings : List (Option V)
  writes : List V
  /-- The join begun last came through the handle's own manager. -/
  asking : Bool
  /-- What the joins answered, each with whether it came through the handle's own manager. -/
  answers : List (Bool × Outcome V)
  deriving DecidableEq

namespace History

def empty : History V := ⟨[], [], false, []⟩

def own (k : History V) : List (Outcome V) := (k.answers.filter Prod.fst).map Prod.snd

def action (o : Oracle V) (k : History V) : Action V → History V
  | .runBody => { k with endings := k.endings ++ [o.body] }
  | .cell (.putValue v) => { k with writes := k.writes ++ [v] }
  | _ => k

def begin (k : History V) : HandleCall → History V
  | .join own _ => { k with asking := own }
  | _ => k

def answer (k : History V) (r : Outcome V) : History V :=
  { k with answers := k.answers ++ [(k.asking, r)] }

def finish (k : History V) : Owner V → History V
  | .joining _ (.done r) => k.answer r
  | _ => k

def thread (id : ObjectId) (th : Thread V) : Choice V → History V → History V
  | .begin _ c, k => k.begin c
  | .act _ p o, k => (th.action? id p).elim k (k.action o)
  | .finish _ .owner, k => k.finish th.owner
  | _, k => k

theorem answers_le (id : ObjectId) (th : Thread V) (c : Choice V) (k : History V) :
    k.answers.length ≤ (k.thread id th c).answers.length := by
  cases c with
  | create r => exact Nat.le_refl _
  | begin q c => cases c <;> exact Nat.le_refl _
  | act q p o =>
    simp only [thread]
    cases th.action? id p with
    | none => exact Nat.le_refl _
    | some a =>
      cases a with
      | cell c => cases c <;> exact Nat.le_refl _
      | _ => exact Nat.le_refl _
  | finish q p =>
    cases p with
    | owner =>
      simp only [thread]
      cases th.owner with
      | joining native pc => cases pc <;> simp [finish, answer]
      | _ => exact Nat.le_refl _
    | _ => exact Nat.le_refl _

theorem own_answer (k : History V) (r : Outcome V) :
    (k.answer r).own = if k.asking then k.own ++ [r] else k.own := by
  cases ha : k.asking <;> simp [own, answer, ha]

theorem mem_answer {k : History V} {r : Outcome V} {b : Bool} {q : Outcome V} :
    (b, q) ∈ (k.answer r).answers ↔ (b, q) ∈ k.answers ∨ (b = k.asking ∧ q = r) := by
  simp [answer]

end History

/-! ## Answers -/

/-- What a function that has ended leaves the first join to answer. -/
def verdict : Option V → Outcome V
  | some v => .ok v
  | none => .error .threadJoinFailed

/-- An answer that fits the function's end: a value only if the function
returned it, and on a reliable backend just what the function left. -/
structure History.Fits (reliable : Prop) (k : History V) (r : Outcome V) : Prop where
  value : ∀ v, r = .ok v → k.endings = [some v]
  exact : reliable → ∃ e, k.endings = [e] ∧ r = verdict e

/-- The first answer through the handle's own manager fits the function's end,
and all others are refusals. -/
structure History.Honest (reliable : Prop) (k : History V) : Prop where
  first : ∀ r, k.own.head? = some r → k.Fits reliable r
  later : ∀ r ∈ k.own.tail, r = .error .threadJoinFailed
  foreign : ∀ r, (false, r) ∈ k.answers → r = .error .invalidParameter

namespace History

variable {reliable : Prop} {k k' : History V} {r : Outcome V}

theorem Fits.mono (h : k.Fits reliable r) (he : ∀ e, k.endings = [e] → k'.endings = [e]) :
    k'.Fits reliable r where
  value := fun v hv => he _ (h.value v hv)
  exact := fun hr => (h.exact hr).imp fun e hf => ⟨he e hf.1, hf.2⟩

theorem fits_verdict {e : Option V} (h : k.endings = [e]) : k.Fits reliable (verdict e) where
  value := fun v hv => by
    cases e with
    | none => cases hv
    | some u =>
      cases hv
      exact h
  exact := fun _ => ⟨e, h, rfl⟩

/-- A refusal fits if a reliable backend leads to it only when the function unwound. -/
theorem fits_refusal (h : reliable → k.endings = [none]) :
    k.Fits reliable (.error .threadJoinFailed) where
  value := nofun
  exact := fun hr => ⟨none, h hr, rfl⟩

namespace Honest

theorem empty : (History.empty : History V).Honest reliable := ⟨nofun, nofun, nofun⟩

theorem mono (h : k.Honest reliable) (he : ∀ e, k.endings = [e] → k'.endings = [e])
    (ha : k'.answers = k.answers) : k'.Honest reliable := by
  have ho : k'.own = k.own := by rw [own, ha, own]
  exact ⟨fun r hr => (h.first r (ho ▸ hr)).mono he, ho ▸ h.later, ha ▸ h.foreign⟩

theorem answer_foreign (h : k.Honest reliable) (ha : k.asking = false) :
    (k.answer (.error .invalidParameter)).Honest reliable := by
  have ho := own_answer k (.error .invalidParameter)
  rw [ha, if_neg nofun] at ho
  exact ⟨fun q hq => (h.first q (ho ▸ hq)).mono fun _ h => h, ho ▸ h.later,
    fun q hq => (mem_answer.mp hq).elim (h.foreign q) And.right⟩

theorem foreign_answer (h : k.Honest reliable) (ha : k.asking = true) (q : Outcome V)
    (hq : (false, q) ∈ (k.answer r).answers) : q = .error .invalidParameter :=
  (mem_answer.mp hq).elim (h.foreign q) fun hn => nomatch hn.1.trans ha

theorem answer_later (h : k.Honest reliable) (ha : k.asking = true) (hne : k.own ≠ []) :
    (k.answer (.error .threadJoinFailed)).Honest reliable := by
  have ho := own_answer k (.error .threadJoinFailed)
  rw [ha, if_pos rfl] at ho
  refine ⟨fun q hq => ?_, fun q hq => ?_, h.foreign_answer ha⟩
  · rw [ho, List.head?_append_of_ne_nil _ hne] at hq
    exact (h.first q hq).mono fun _ h => h
  · rw [ho, List.tail_append_of_ne_nil hne] at hq
    exact (List.mem_append.mp hq).elim (h.later q) List.mem_singleton.mp

theorem answer_first (h : k.Honest reliable) (ha : k.asking = true) (hn : k.own = [])
    (hf : k.Fits reliable r) : (k.answer r).Honest reliable := by
  have ho := own_answer k r
  rw [ha, if_pos rfl, hn, List.nil_append] at ho
  refine ⟨fun q hq => ?_, ?_, h.foreign_answer ha⟩
  · rw [ho] at hq
    exact Option.some.inj hq ▸ ⟨hf.value, hf.exact⟩
  · rw [ho]
    exact nofun

theorem asked (h : k.Honest reliable) {b : Bool} {v : V} (hm : (b, .ok v) ∈ k.answers) :
    b = true := by
  cases b with
  | false => nomatch h.foreign _ hm
  | true => rfl

theorem returned (h : k.Honest reliable) {b : Bool} {v : V} (hm : (b, .ok v) ∈ k.answers) :
    k.endings = [some v] := by
  have hown : .ok v ∈ k.own :=
    List.mem_map.mpr ⟨(b, .ok v), List.mem_filter.mpr ⟨hm, h.asked hm⟩, rfl⟩
  cases ho : k.own with
  | nil => simp [ho] at hown
  | cons q qs =>
    rw [ho] at hown
    rcases List.mem_cons.mp hown with rfl | hq
    · exact (h.first _ (by rw [ho]; rfl)).value v rfl
    · cases h.later _ (by rwa [ho])

theorem once (h : k.Honest reliable) : k.answers.countP (fun a => a.2.isOk) ≤ 1 := by
  have hc : k.answers.countP (fun a => a.2.isOk) = k.own.countP Except.isOk := by
    rw [own, List.countP_map, List.countP_filter]
    refine List.countP_congr fun a ha => ?_
    obtain ⟨b, r⟩ := a
    cases r with
    | error e => simp [Except.isOk, Except.toBool]
    | ok v => simp [Except.isOk, Except.toBool, h.asked ha]
  have ht : k.own.tail.countP Except.isOk = 0 := List.countP_eq_zero.mpr fun r hr => by
    rw [h.later r hr]
    exact nofun
  rw [hc]
  cases ho : k.own with
  | nil => exact Nat.zero_le 1
  | cons q qs =>
    rw [ho, List.tail_cons] at ht
    rw [List.countP_cons, ht]
    split <;> omega

end Honest

end History

def noteHistory (id : ObjectId) (w : World V) (c : Choice V) (k : History V) : History V :=
  if c.target = id then (w.threads id).elim k fun th => k.thread id th c else k

end SyncCore.Manager

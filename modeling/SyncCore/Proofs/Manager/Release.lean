import SyncCore.Proofs.Manager.Occupancy

/-!
# Destroying comes after the end

A destroy goes past its check only once it has read Terminated, and a thread
that has ended stays so.
-/

set_option autoImplicit false

namespace SyncCore.Manager

variable {V : Type}

theorem Routine.ended_on {id : ObjectId} {pc : Routine.Pc V} {a : Action V}
    {resume : a.Answer → Routine.Pc V} (h : Routine.next id pc = .act a resume)
    (he : pc.ended = true) (x : a.Answer) : (resume x).ended = true := by
  cases pc with
  | look => cases h; cases x <;> rfl
  | unregister =>
    cases h
    rcases x with e | u
    · by_cases hb : e = .notFound <;> simp [hb, Pc.ended]
    · rfl
  | unregisterWarn e => cases h; rfl
  | done => cases h
  | _ => cases he

def Owner.passed : Owner V → Bool
  | .destroying _ .check => false
  | .destroying _ (.done (.error _)) => false
  | .destroying _ _ => true
  | .destroyed => true
  | _ => false

def Thread.Lasting (th : Thread V) : Prop := th.owner.passed = true → th.routine.ended = true

namespace Thread

variable {o : Oracle V} {id : ObjectId} {t t' : Table} {s' : Shared V} {th th' : Thread V}
  {p : Party}

theorem act_ended (h : th.act? o id t p = some (t', th')) (he : th.routine.ended = true) :
    th'.routine.ended = true := by
  obtain ⟨_, _, _, s', rfl, -, -, rfl⟩ | ⟨a, r, x, s', rfl, hn, -, rfl⟩ |
    ⟨w, s', rfl, -, rfl⟩ | ⟨i, c, c', s', rfl, -, -, rfl⟩ := act_cases h
  · exact he
  · exact Routine.ended_on hn he x
  · exact he
  · exact he

namespace Lasting

theorem new (r : Create.Request) : (Thread.new r : Thread V).Lasting := nofun

theorem destroying {joined : Bool} {pc : Destroy.Pc} {a : Action V}
    {resume : a.Answer → Destroy.Pc} {x : a.Answer} (hl : th.Lasting)
    (hs : th.shared.object.state = .terminated ↔ th.routine.ended = true)
    (ho : th.owner = .destroying joined pc) (hn : Destroy.next id joined pc = .act a resume)
    (he : effect o id a (t, th.shared) = some (x, t', s')) :
    Lasting { th with owner := .destroying joined (resume x), shared := s' } := by
  intro hp
  cases pc with
  | check =>
    cases hn
    have hx : x = th.shared.object.state := by
      cases he
      rfl
    dsimp only at hp
    split at hp
    next ht => exact hs.mp (hx.symm.trans ht)
    next => cases hp
  | done r => cases hn
  | _ => exact hl (by rw [ho]; rfl)

theorem act (hl : th.Lasting) (hs : th.shared.object.state = .terminated ↔ th.routine.ended = true)
    (h : th.act? o id t p = some (t', th')) : th'.Lasting := by
  have he := act_ended h
  obtain ⟨_, _, _, s', rfl, -, -, rfl⟩ | ⟨a, r, x, s', rfl, hn, -, rfl⟩ |
    ⟨w, s', rfl, hw, rfl⟩ | ⟨i, c, c', s', rfl, -, -, rfl⟩ := act_cases h
  · exact hl
  · exact fun hp => he (hl hp)
  · obtain ⟨native, pc, b, r, y, ho, -, -, rfl⟩ | ⟨j, pc, b, r, y, ho, hn, hx, rfl⟩ |
      ⟨j, pc, b, r, y, ho, -, -, rfl⟩ := Owner.act_cases hw
    · exact nofun
    · exact hl.destroying hs ho hn hx
    · exact nofun
  · exact hl

theorem begin {c : HandleCall} (hl : th.Lasting) (h : th.begin? c = some th') : th'.Lasting := by
  obtain ⟨-, -, ⟨k, -, rfl⟩ | ⟨-, w, hw, rfl⟩⟩ := begin_cases h
  · exact hl
  · cases c with
    | destroy own => cases hw; cases own <;> exact nofun
    | join own native => cases hw; exact nofun
    | drop => cases hw; exact nofun
    | hold d own supported => cases hw
    | priority q native own => cases hw

theorem finish (hl : th.Lasting) (h : th.finish? p = some th') : th'.Lasting := by
  obtain ⟨w, hw, rfl⟩ | ⟨k, c, -, -, rfl⟩ := finish_cases h
  · obtain ⟨n, r, ho, rfl⟩ | ⟨j, u, ho, rfl⟩ | ⟨j, e, ho, rfl⟩ | ⟨j, ho, rfl⟩ :=
      Owner.finish_cases hw
    · exact nofun
    · exact fun _ => hl (by rw [ho]; rfl)
    · exact nofun
    · exact nofun
  · exact hl

end Lasting

end Thread

namespace World

variable {w u : World V} {capacity : Nat}

def Lasting (w : World V) : Prop := ∀ id th, w.threads id = some th → th.Lasting

theorem lasting_initial (capacity : Nat) : (initial capacity : World V).Lasting :=
  fun _ _ h => nomatch h

theorem lasting_step {c : Choice V} (hw : Occupied capacity w) (hl : w.Lasting)
    (h : step? c w = some u) : u.Lasting :=
  threads_keep hl h .new .begin (fun hq hl => hl.act (hw.used _ _ hq).ended) .finish

end World

end SyncCore.Manager

import SyncCore.Script.Threads.Exec

/-!
# Scripts under a veil

What the platforms of a script's world report of themselves is hidden, and so is what
the steps that are still to be carried out would have them report. A computation is
blind if it does the same in the world and under the veil. Blind computations in
sequence are blind, and all that backends, tables and workers do is.
-/

set_option autoImplicit false

namespace SyncCore.Script.Threads

variable {V α β : Type}

/-! ## What is hidden -/

mutual

/-- The step without what it would have a platform report. -/
def Step.veiled : Step V → Step V
  | .platform p setup => .platform p { setup with replaced := .none }
  | .setInfo p _ => .setInfo p .none
  | .arm call times body verdict => .arm call times (Step.veiledAll body) verdict
  | s => s

def Step.veiledAll : List (Step V) → List (Step V)
  | [] => []
  | s :: ss => s.veiled :: Step.veiledAll ss

end

mutual

/-- The step has a platform describe itself: to be told, or to open a manager or a table. -/
def Step.asks : Step V → Bool
  | .manager _ _ => true
  | .managerPlatformInfo _ => true
  | .platformInfo _ => true
  | .registry _ (some _) => true
  | .arm _ _ body _ => Step.anyAsks body
  | _ => false

def Step.anyAsks : List (Step V) → Bool
  | [] => false
  | s :: ss => s.asks || Step.anyAsks ss

end

mutual

theorem Step.asks_veiled (s : Step V) : s.veiled.asks = s.asks := by
  cases s with
  | arm call times body verdict => exact Step.anyAsks_veiled body
  | registry reg p => cases p <;> rfl
  | _ => rfl

theorem Step.anyAsks_veiled (ss : List (Step V)) :
    Step.anyAsks (Step.veiledAll ss) = Step.anyAsks ss := by
  cases ss with
  | nil => rfl
  | cons s ss =>
    rw [Step.veiledAll, Step.anyAsks, Step.anyAsks, Step.asks_veiled s, Step.anyAsks_veiled ss]

end

def Platform.veiled (p : Platform) : Platform := { p with replaced := .none }

def veiledArm (a : Arm (Step V)) : Arm (Step V) := { a with body := Step.veiledAll a.body }

namespace World

def veiled (w : World V) : World V :=
  { w with
    platforms := w.platforms.map Platform.veiled
    armory := { w.armory with arms := w.armory.arms.map veiledArm } }

def Unasking (w : World V) : Prop := ∀ a ∈ w.armory.arms, Step.anyAsks a.body = false

theorem unasking_veiled {w : World V} : w.veiled.Unasking ↔ w.Unasking := by
  have hb : ∀ a : Arm (Step V), Step.anyAsks (veiledArm a).body = Step.anyAsks a.body :=
    fun a => Step.anyAsks_veiled a.body
  simp [Unasking, veiled, hb]

end World

/-- The second computation does under the veil what the first one does in the world. -/
structure Follows (r r' : Run V α) : Prop where
  same : ∀ w, w.Unasking → r' w.veiled = (r w).map fun p => (p.1, p.2.veiled)
  unasking : ∀ w p, w.Unasking → r w = some p → p.2.Unasking

def Blind (r : Run V α) : Prop := Follows r r

/-! ## Computations in sequence -/

section Sequence

variable {r r' : Run V α}

theorem Follows.pure (x : α) : Follows (Pure.pure x : Run V α) (Pure.pure x) where
  same := fun _ _ => rfl
  unasking := fun _ _ hw hp => Option.some.inj hp ▸ hw

theorem bind_apply (r : Run V α) (f : α → Run V β) (w : World V) :
    (r >>= f) w = (r w).bind fun p => f p.1 p.2 := rfl

theorem Follows.bind {f f' : α → Run V β} (hr : Follows r r') (hf : ∀ x, Follows (f x) (f' x)) :
    Follows (r >>= f) (r' >>= f') where
  same := fun w hw => by
    rw [bind_apply, bind_apply, hr.same w hw]
    cases hq : r w with
    | none => rfl
    | some p => exact (hf p.1).same p.2 (hr.unasking w p hw hq)
  unasking := fun w p hw hp => by
    obtain ⟨q, hq, hp⟩ := Option.bind_eq_some_iff.mp hp
    exact (hf q.1).unasking q.2 p (hr.unasking w q hw hq) hp

theorem Follows.ite {c : Prop} [Decidable c] {q q' : Run V α} (hr : Follows r r')
    (hq : Follows q q') : Follows (if c then r else q) (if c then r' else q') := by
  split
  · exact hr
  · exact hq

theorem Follows.look {f f' : World V → Run V α}
    (h : ∀ w, w.Unasking → Follows (f w) (f' w.veiled)) : Follows (get >>= f) (get >>= f') where
  same := fun w hw => (h w hw).same w hw
  unasking := fun w p hw hp => (h w hw).unasking w p hw hp

theorem Follows.put {u : World V} (hu : u.Unasking) :
    Follows (set u : Run V PUnit) (set u.veiled) where
  same := fun _ _ => rfl
  unasking := fun _ _ _ hp => Option.some.inj hp ▸ hu

theorem Follows.change {f f' : World V → World V} (hv : ∀ w, f' w.veiled = (f w).veiled)
    (hu : ∀ w, w.Unasking → (f w).Unasking) : Follows (modify f) (modify f') where
  same := fun w _ => congrArg (fun u => some ((), u)) (hv w)
  unasking := fun w _ hw hp => Option.some.inj hp ▸ hu w hw

theorem Blind.pure (x : α) : Blind (Pure.pure x : Run V α) := Follows.pure x

theorem Blind.bind {f : α → Run V β} (hr : Blind r) (hf : ∀ x, Blind (f x)) : Blind (r >>= f) :=
  Follows.bind hr hf

theorem Blind.failure : Blind (failure : Run V α) where
  same := fun _ _ => rfl
  unasking := nofun

theorem Blind.ite {c : Prop} [Decidable c] {q : Run V α} (hr : Blind r) (hq : Blind q) :
    Blind (if c then r else q) := Follows.ite hr hq

theorem Blind.look {f : World V → Run V α} (hv : ∀ w, f w.veiled = f w) (h : ∀ w, Blind (f w)) :
    Blind (get >>= f) := Follows.look fun w _ => by
  rw [hv]
  exact h w

theorem Blind.change {f : World V → World V}
    (h : ∀ w, f w.veiled = (f w).veiled ∧ (f w).armory.arms = w.armory.arms) :
    Blind (modify f : Run V Unit) :=
  Follows.change (fun w => (h w).1) fun w hw => by
    unfold World.Unasking
    rwa [(h w).2]

theorem Blind.found (a : Option α) : Blind (found a : Run V α) := by
  cases a with
  | none => exact Blind.failure
  | some x => exact .pure x

theorem Blind.platform {p : Nat} {f : Platform → Run V α} (hv : ∀ q, f q.veiled = f q)
    (h : ∀ q, Blind (f q)) : Blind (platformAt p >>= f) := by
  have read : Blind (get >>= fun w => Threads.found w.platforms[p]? >>= f) := by
    refine Follows.look fun w _ => ?_
    have hp : w.veiled.platforms[p]? = w.platforms[p]?.map Platform.veiled := List.getElem?_map
    rw [hp]
    cases w.platforms[p]? with
    | none => exact Blind.failure
    | some q =>
      show Follows (f q) (f q.veiled)
      rw [hv]
      exact h q
  exact read

theorem Blind.mapM {f : α → Run V β} (h : ∀ x, Blind (f x)) (l : List α) : Blind (l.mapM f) := by
  induction l with
  | nil => exact .pure []
  | cons x l ih =>
    rw [List.mapM_cons]
    exact .bind (h x) fun _ => .bind ih fun _ => .pure _

theorem Blind.forM {f : α → Run V PUnit} (h : ∀ x, Blind (f x)) (l : List α) :
    Blind (l.forM f) := by
  induction l with
  | nil => exact .pure PUnit.unit
  | cons x l ih => exact .bind (h x) fun _ => ih

theorem Blind.drive {I : Interface} {Pc Res : Type} (m : Machine I Pc Res)
    {perform : (a : I.Action) → Run V (I.Answer a)} (h : ∀ a, Blind (perform a)) (n : Nat)
    (pc : Pc) : Blind (m.drive perform n pc) := by
  induction n generalizing pc with
  | zero => exact .failure
  | succ n ih =>
    unfold Machine.drive
    cases m pc with
    | done r => exact .pure r
    | act a resume => exact .bind (h a) fun x => ih (resume x)

end Sequence

/-! ## Parts of the world -/

theorem Blind.lockAt (l : Nat) : Blind (lockAt l : Run V BackedLock) :=
  .look (fun _ => rfl) fun _ => .found _

theorem Blind.tableAt (r : Nat) : Blind (tableAt r : Run V SharedTable) :=
  .look (fun _ => rfl) fun _ => .found _

theorem Blind.coreAt (c : Nat) : Blind (coreAt c : Run V Core) :=
  .look (fun _ => rfl) fun _ => .found _

theorem Blind.objectAt (id : ObjectId) : Blind (objectAt id : Run V (ThreadObject V)) :=
  .look (fun _ => rfl) fun _ => .found _

theorem Blind.threadAt (t : ThreadNo) : Blind (threadAt t : Run V HostThread) :=
  .look (fun _ => rfl) fun _ => .found _

theorem Blind.workerAt (k : Nat) : Blind (workerAt k : Run V Worker) :=
  .look (fun _ => rfl) fun _ => .found _

theorem Blind.identity (caller : Caller) : Blind (identity caller : Run V (Mock.TaskId × Nat)) := by
  cases caller with
  | main => exact .pure _
  | worker k => exact .bind (.workerAt k) fun _ => .pure _

theorem Blind.whilePinning {run : Run V α} (h : Blind run) : Blind (whilePinning run) :=
  .look (fun _ => rfl) fun _ => .bind h fun _ =>
    .bind (.change fun _ => ⟨rfl, rfl⟩) fun _ => .pure _

theorem Blind.whilePinned {run : Run V α} (id : ObjectId) (h : Blind run) :
    Blind (whilePinned id run) :=
  .whilePinning (.bind (.change fun _ => ⟨rfl, rfl⟩) fun _ => h)

/-! ## Arms -/

def Nested.Follows (nested : Nested V) : Prop :=
  ∀ body, Step.anyAsks body = false → Threads.Follows (nested body) (nested (Step.veiledAll body))

theorem takeArm_veiled (call : String) (as : List (Arm (Step V))) :
    takeArm? call (as.map veiledArm) =
      (takeArm? call as).map fun r => (veiledArm r.1, r.2.map veiledArm) := by
  induction as with
  | nil => rfl
  | cons a as ih =>
    simp only [List.map_cons, takeArm?, ih]
    by_cases h : a.call = call
    · rw [if_pos h, if_pos (show (veiledArm a).call = call from h), Option.map_some]
    · rw [if_neg h, if_neg (show (veiledArm a).call ≠ call from h), Option.map_map, Option.map_map]
      rfl

theorem takeArm_subset {call : String} {as rest : List (Arm (Step V))} {a : Arm (Step V)}
    (h : takeArm? call as = some (a, rest)) : a ∈ as ∧ rest ⊆ as := by
  induction as generalizing rest with
  | nil => cases h
  | cons b as ih =>
    simp only [takeArm?] at h
    split at h
    · cases h
      exact ⟨List.mem_cons_self, List.subset_cons_self ..⟩
    · obtain ⟨⟨c, l⟩, hl, he⟩ := Option.map_eq_some_iff.mp h
      cases he
      obtain ⟨ha, hs⟩ := ih hl
      exact ⟨List.mem_cons_of_mem b ha, List.cons_subset_cons b hs⟩

section Arms

variable {nested : Nested V}

theorem Follows.addArms (times : Nat) {a : Arm (Step V)} (ha : Step.anyAsks a.body = false) :
    Follows (addArms times a : Run V Unit) (addArms times (veiledArm a)) := by
  refine .change (fun w => ?_) fun w hw b hb => ?_
  · simp only [World.veiled, Armed.withArmory, Armed.armory, List.map_append, List.map_replicate]
  · obtain hb | hb := List.mem_append.mp hb
    · exact hw b hb
    · exact List.eq_of_mem_replicate hb ▸ ha

theorem Blind.fire (hn : nested.Follows) (call : String) :
    Blind (fire nested call : Run V Verdict) := by
  refine Follows.look fun w hw => ?_
  have he : takeArm? call (Armed.armory w.veiled).arms =
      (takeArm? call (Armed.armory w).arms).map fun r => (veiledArm r.1, r.2.map veiledArm) :=
    takeArm_veiled ..
  rw [he]
  cases ht : takeArm? call (Armed.armory w).arms with
  | none => exact .pure _
  | some r =>
    obtain ⟨ha, hs⟩ := takeArm_subset ht
    refine .bind (.change (fun _ => rfl) fun u _ b hb => hw b (hs hb)) fun _ => ?_
    exact .bind (hn _ (hw _ ha)) fun _ => .bind (Blind.change fun _ => ⟨rfl, rfl⟩) fun _ => .pure _

theorem Blind.verdictFor (hn : nested.Follows) (caller : Caller) (call : String) :
    Blind (verdictFor nested caller call) := by
  cases caller with
  | main => exact .fire hn call
  | worker k => exact .pure _

variable {verdict : Run V Verdict}

theorem Blind.callAfter {call : Run V (Outcome Unit)} (hv : Blind verdict) (hc : Blind call) :
    Blind (callAfter verdict call) := by
  refine .bind hv fun v => ?_
  cases v with
  | proceed => exact hc
  | skip => exact .pure _
  | fail e => exact .pure _

theorem Blind.callBefore {call : Run V (Outcome Unit)} (hv : Blind verdict) (hc : Blind call) :
    Blind (callBefore verdict call) := by
  refine .bind hc fun r => ?_
  cases r with
  | error e => exact .pure _
  | ok u =>
    refine .bind hv fun v => ?_
    cases v <;> exact .pure _

theorem Blind.callUnlessFailed {call : Run V (Outcome α)} (hv : Blind verdict) (hc : Blind call) :
    Blind (callUnlessFailed verdict call) := by
  refine .bind hv fun v => ?_
  cases v with
  | fail e => exact .pure _
  | _ => exact hc

theorem Blind.armedLockCall {verdict : String → Run V Verdict}
    {call : (op : LockOp) → Run V op.Answer} (hv : ∀ s, Blind (verdict s))
    (hc : ∀ op, Blind (call op)) (op : LockOp) : Blind (armedLockCall verdict call op) := by
  cases op with
  | lock => exact .callAfter (hv _) (hc .lock)
  | tryLock => exact .callAfter (hv _) (hc .tryLock)
  | unlock => exact .callBefore (hv _) (hc .unlock)
  | destroy => exact .callAfter (hv _) (hc .destroy)
  | isLocked => exact hc .isLocked

theorem Blind.lockReply {call : (op : LockOp) → Run V op.Answer} (hc : ∀ op, Blind (call op))
    (op : LockOp) : Blind (lockReply call op) := by
  cases op <;> exact .bind (hc _) fun _ => .pure _

end Arms

/-! ## Backend calls -/

section Backend

theorem Blind.addWorker (routine : Routine) (task : Mock.TaskId) :
    Blind (addWorker routine task : Run V Nat) :=
  .look (fun _ => rfl) fun _ => .bind (.change fun _ => ⟨rfl, rfl⟩) fun _ => .pure _

theorem Blind.addThread (task : Mock.TaskId) (handle : Handle) (k : Nat) :
    Blind (addThread task handle k : Run V Binding) :=
  .look (fun _ => rfl) fun _ => .bind (.change fun _ => ⟨rfl, rfl⟩) fun _ => .pure _

theorem Blind.takeHandle (c : HostContext) : Blind (takeHandle c : Run V Bool) :=
  .bind (.found _) fun _ => .bind (.threadAt _) fun _ =>
    .bind (.change fun _ => ⟨rfl, rfl⟩) fun _ => .pure _

theorem Blind.endOf (t : ThreadNo) : Blind (endOf t : Run V Bool) := by
  refine .bind (.threadAt t) fun x => .bind (.workerAt _) fun k => ?_
  cases k.stage with
  | ended r => exact .pure r
  | _ => exact .failure

theorem Blind.performHost (c : HostContext) (a : Mock.HostAction) :
    Blind (performHost c a : Run V a.Answer) := by
  cases a with
  | start t => exact .bind (.addWorker _ _) fun _ => .pure _
  | takeHandle => exact .takeHandle c
  | await => exact .bind (.found _) fun t => .endOf t
  | pause ms => exact .pure _

theorem Follows.modifyPlatform {f f' : Platform → Platform} (p : Nat)
    (hf : ∀ q, f' q.veiled = (f q).veiled) :
    Follows (modify (World.modifyPlatform p f) : Run V Unit)
      (modify (World.modifyPlatform p f')) := by
  refine .change (fun w => ?_) fun _ hw => hw
  have hp : (w.platforms.map Platform.veiled).modify p f' =
      (w.platforms.modify p f).map Platform.veiled := by
    refine List.ext_getElem? fun i => ?_
    simp only [List.getElem?_modify, List.getElem?_map]
    cases w.platforms[i]? with
    | none => rfl
    | some q => by_cases hi : p = i <;> simp [hi, hf]
  rw [World.modifyPlatform, World.veiled, hp]
  rfl

theorem Blind.performShared (p me : Nat) (a : Mock.SharedAction) :
    Blind (performShared p me a : Run V (Option a.Answer)) := by
  refine .platform (fun _ => rfl) fun q => ?_
  cases Mock.effect me a q.mock with
  | none => exact .pure _
  | some x =>
    refine .bind (Follows.modifyPlatform p fun _ => rfl) fun _ => ?_
    cases a with
    | record c => exact .bind (.change fun _ => ⟨rfl, rfl⟩) fun _ => .pure _
    | _ => exact .pure _

theorem Blind.mockDrive (p : Nat) (info : PlatformInfo) (task : Mock.TaskId) (me : Nat)
    (c : HostContext) (n : Nat) (pc : Mock.Pc) :
    Blind (mockDrive p info task me c n pc : Run V (Mock.Pc ⊕ Mock.Reply)) := by
  induction n generalizing pc with
  | zero => exact .failure
  | succ n ih =>
    unfold Threads.mockDrive
    cases Mock.next info task pc with
    | done r => exact .pure _
    | act a resume =>
      cases a with
      | host a => exact .bind (.performHost c a) fun x => ih (resume x)
      | shared a =>
        refine .bind (.performShared p me a) fun x => ?_
        cases x with
        | none => exact .pure _
        | some x => exact ih (resume x)

theorem Blind.mockGo (caller : Caller) (p : Nat) (c : HostContext) (pc : Mock.Pc) :
    Blind (mockGo caller p c pc : Run V (Mock.Pc ⊕ Mock.Reply)) :=
  .bind (.identity caller) fun _ => .platform (fun _ => rfl) fun _ =>
    .look (fun _ => rfl) fun _ => .mockDrive ..

theorem Blind.mockCall (caller : Caller) (p : Nat) (c : HostContext) (r : Mock.Request) :
    Blind (mockCall caller p c r : Run V (Mock.Pc ⊕ Mock.Reply)) :=
  .bind (.identity caller) fun _ => .platform (fun _ => rfl) fun _ => .mockGo ..

theorem Blind.mockOutcome (caller : Caller) (p : Nat) (c : HostContext) (r : Mock.Request) :
    Blind (mockOutcome caller p c r : Run V (Outcome Unit)) := by
  refine .bind (.mockCall caller p c r) fun x => ?_
  rcases x with pc | ⟨t⟩ | ⟨a⟩
  · exact .failure
  · exact .failure
  · exact .pure a

theorem Blind.plainSpawn (p : Nat) (routine : Routine) (name : String) (stackSize : UInt64)
    (priority : Int32) :
    Blind (plainSpawn p routine name stackSize priority : Run V (Outcome Binding)) := by
  refine .look (fun _ => rfl) fun w => ?_
  cases w.backend with
  | hosted =>
    cases Hosted.spawn stackSize with
    | error e => exact .pure _
    | ok u =>
      refine .bind (.addWorker ..) fun k => .bind (.addThread ..) fun b => ?_
      cases Hosted.priorityNote name priority with
      | none => exact .pure _
      | some r => exact .bind (.change fun _ => ⟨rfl, rfl⟩) fun _ => .pure _
  | _ =>
    refine .look (fun _ => rfl) fun _ => .bind (.mockCall ..) fun x => ?_
    rcases x with pc | ⟨t⟩ | ⟨e | a⟩
    · exact .failure
    · exact .bind (.addThread ..) fun _ => .pure _
    · exact .pure _
    · exact .failure

theorem Blind.optionalCall (p : Nat) (t : ThreadNo) (mock : Mock.TaskId → Mock.Request)
    {hosted : Run V (Outcome Unit)} (h : Blind hosted) :
    Blind (optionalCall p t mock hosted) := by
  refine .look (fun _ => rfl) fun w => ?_
  cases w.backend with
  | mock => exact .bind (.threadAt t) fun _ => .mockOutcome ..
  | bare => exact .pure _
  | hosted => exact h

theorem Blind.plainJoin (p : Nat) (t : ThreadNo) :
    Blind (plainJoin p t : Run V (Outcome Unit)) := by
  refine .optionalCall p t _ (.bind (.takeHandle _) fun there => ?_)
  cases there with
  | true => exact .bind (.endOf t) fun _ => .pure _
  | false => exact .pure _

theorem Blind.plainDetach (p : Nat) (t : ThreadNo) :
    Blind (plainDetach p t : Run V (Outcome Unit)) := by
  refine .look (fun _ => rfl) fun w => ?_
  cases w.backend with
  | hosted => exact .bind (.takeHandle _) fun _ => .pure _
  | _ => exact .bind (.threadAt t) fun _ => .mockOutcome ..

theorem Blind.plainSetPriority (p : Nat) (t : ThreadNo) (n : Int32) :
    Blind (plainSetPriority p t n : Run V (Outcome Unit)) :=
  .optionalCall p t _ <| .bind (.threadAt t) fun _ => .look (fun _ => rfl) fun _ => .pure _

theorem Blind.plainHold (p : Nat) (t : ThreadNo) (d : Manager.Hold) :
    Blind (plainHold p t d : Run V (Outcome Unit)) := by
  cases d <;> exact .optionalCall p t _ (.pure _)

theorem Blind.plainPause (caller : Caller) (p : Nat) (r : Mock.Request) :
    Blind (plainPause caller p r : Run V (Mock.Pc ⊕ Mock.Reply)) := by
  refine .look (fun _ => rfl) fun w => ?_
  cases w.backend with
  | hosted => exact .pure _
  | _ => exact .mockCall ..

theorem Blind.plainCurrent (caller : Caller) : Blind (plainCurrent caller : Run V Handle) := by
  refine .bind (.identity caller) fun _ => .look (fun _ => rfl) fun w => ?_
  cases w.backend <;> exact .pure _

end Backend

/-! ## Tables -/

section Tables

variable {nested : Nested V}

theorem Blind.plainLockCall (caller : Caller) (l : Nat) (op : LockOp) :
    Blind (plainLockCall caller l op : Run V op.Answer) :=
  .bind (.identity caller) fun _ => .bind (.lockAt l) fun _ => .bind (.found _) fun _ =>
    .bind (.change fun _ => ⟨rfl, rfl⟩) fun _ => .pure _

theorem Blind.lockCall (hn : nested.Follows) (caller : Caller) (l : Nat) (op : LockOp) :
    Blind (lockCall nested caller l op) :=
  .bind (.lockAt l) fun _ =>
    .ite (.armedLockCall (.verdictFor hn caller) (.plainLockCall caller l) op)
      (.plainLockCall caller l op)

theorem Blind.performMutex (hn : nested.Follows) (caller : Caller) (r : Nat) (a : Mutex.Action) :
    Blind (performMutex nested caller r a) := by
  cases a with
  | raw op => exact .bind (.tableAt r) fun _ => .lockCall hn ..
  | load => exact .bind (.tableAt r) fun _ => .pure _
  | store s => exact .change fun _ => ⟨rfl, rfl⟩
  | exchange e d =>
    refine .bind (.tableAt r) fun t => ?_
    exact .ite (.bind (.change fun _ => ⟨rfl, rfl⟩) fun _ => .pure _) (.pure _)

theorem Blind.performTable (hn : nested.Follows) (caller : Caller) (r : Nat)
    (a : Registry.Action) : Blind (performTable nested caller r a) := by
  cases a with
  | mutex a => exact .performMutex hn caller r a
  | readSlot i => exact .bind (.tableAt r) fun _ => .pure _
  | writeSlot i v => exact .change fun _ => ⟨rfl, rfl⟩
  | isAlive o => exact .look (fun _ => rfl) fun _ => .pure _
  | handleOf o => exact .look (fun _ => rfl) fun _ => .pure _
  | hold o =>
    refine .look (fun _ => rfl) fun w => ?_
    cases w.isAlive o with
    | true => exact .bind (.change fun _ => ⟨rfl, rfl⟩) fun _ => .pure _
    | false => exact .pure _
  | log record => exact .change fun _ => ⟨rfl, rfl⟩

theorem Blind.tableRun (hn : nested.Follows) (caller : Caller) (r : Nat) (op : Registry.Op) :
    Blind (tableRun nested caller r op) :=
  .look (fun _ => rfl) fun _ => .whilePinning (.drive _ (.performTable hn caller r) _ _)

theorem Blind.tableOutcome (hn : nested.Follows) (caller : Caller) (r : Nat) (op : Registry.Op) :
    Blind (tableOutcome nested caller r op) := by
  refine .bind (.tableRun hn caller r op) fun x => ?_
  cases x with
  | outcome a => exact .pure a
  | _ => exact .failure

theorem Blind.tableFind (hn : nested.Follows) (caller : Caller) (r : Nat) (h : Handle) :
    Blind (tableFind nested caller r h) := by
  refine .bind (.tableRun hn caller r _) fun x => ?_
  cases x with
  | found o => exact .pure o
  | _ => exact .failure

theorem Blind.tableCount (hn : nested.Follows) (caller : Caller) (r : Nat) (op : Registry.Op) :
    Blind (tableCount nested caller r op) := by
  refine .bind (.tableRun hn caller r op) fun x => ?_
  cases x with
  | count n => exact .pure n
  | _ => exact .failure

end Tables

end SyncCore.Script.Threads

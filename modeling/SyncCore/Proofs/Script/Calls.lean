import SyncCore.Proofs.Script.Veil

/-!
# Calls under a veil

What the threads of workers and the main thread do with a manager that is open is the
same under the veil: what they consult of the backend's description is what the
manager has kept.
-/

set_option autoImplicit false

namespace SyncCore.Script.Threads

variable {V α : Type} {nested : Nested V}

/-! ## Workers -/

theorem Blind.performCell (id : ObjectId) (a : Manager.CellAction V) :
    Blind (performCell id a : Run V a.Answer) :=
  .bind (.objectAt id) fun _ => .bind (.change fun _ => ⟨rfl, rfl⟩) fun _ => .pure _

theorem Blind.performTableCall (hn : nested.Follows) (caller : Caller) (c : Context)
    (t : Manager.TableCall) : Blind (performTableCall nested caller c t) := by
  cases t with
  | register => exact .bind (.coreAt _) fun _ => .tableOutcome hn ..
  | unregister => exact .bind (.coreAt _) fun _ => .tableOutcome hn ..
  | find h => exact .bind (.coreAt _) fun _ => .tableFind hn ..

theorem noNested_follows : (noNested : Nested V).Follows := fun _ _ => Blind.failure

theorem Blind.performWorker (k : Nat) (c : Context) (ending : Option (Ending V))
    (a : Manager.Action V) : Blind (performWorker k c ending a : Run V a.Answer) := by
  cases a with
  | cell a => exact .performCell _ a
  | table t => exact .performTableCall noNested_follows _ c t
  | log r => exact .change fun _ => ⟨rfl, rfl⟩
  | markJoined => exact .failure
  | runBody =>
    rcases ending with _ | v | _
    · exact .failure
    · exact .pure _
    · exact .pure _
  | backend b =>
    cases b with
    | current => exact .plainCurrent _
    | yield =>
      refine .bind (.coreAt _) fun _ => .bind (.plainPause ..) fun x => ?_
      cases x with
      | inl pc => exact .failure
      | inr r => exact .pure _
    | _ => exact .failure

theorem Blind.routineToBody (k : Nat) (c : Context) (n : Nat) (pc : Manager.Routine.Pc V) :
    Blind (routineToBody k c n pc : Run V Unit) := by
  induction n generalizing pc with
  | zero => exact .failure
  | succ n ih =>
    unfold Threads.routineToBody
    split
    · exact .pure _
    · exact .pure _
    · exact .bind (.performWorker ..) fun x => ih _

theorem Blind.beginWorker (k : Nat) : Blind (beginWorker k : Run V Unit) := by
  refine .bind (.workerAt k) fun x => ?_
  cases x.stage with
  | held =>
    cases x.routine with
    | managed o c =>
      exact .look (fun _ => rfl) fun _ => .bind (.routineToBody ..) fun _ =>
        .change fun _ => ⟨rfl, rfl⟩
    | bare => exact .change fun _ => ⟨rfl, rfl⟩
  | _ => exact .pure _

theorem Blind.finishWorker (k : Nat) (e : Ending V) : Blind (finishWorker k e : Run V Unit) := by
  refine .bind (.beginWorker k) fun _ => .bind (.workerAt k) fun x => ?_
  cases x.routine with
  | managed o c =>
    exact .look (fun _ => rfl) fun _ => .bind (.drive _ (.performWorker k _ _) _ _) fun _ =>
      .change fun _ => ⟨rfl, rfl⟩
  | bare => exact .change fun _ => ⟨rfl, rfl⟩

theorem Blind.isRunning (k : Nat) : Blind (isRunning k : Run V Bool) := by
  refine .bind (.workerAt k) fun x => ?_
  cases x.stage <;> exact .pure _

theorem Blind.isParked (k : Nat) : Blind (isParked k : Run V Bool) := by
  refine .bind (.workerAt k) fun x => ?_
  cases x.stage <;> exact .pure _

theorem Blind.isManaged (k : Nat) : Blind (isManaged k : Run V Bool) := by
  refine .bind (.workerAt k) fun x => ?_
  cases x.routine <;> exact .pure _

theorem Blind.resumeParked (k : Nat) : Blind (resumeParked k : Run V Unit) := by
  refine .bind (.workerAt k) fun x => ?_
  cases x.stage with
  | parked call =>
    refine .bind (.mockGo ..) fun r => ?_
    cases r <;> exact .change fun _ => ⟨rfl, rfl⟩
  | _ => exact .pure _

theorem Blind.resumeAllParked : Blind (resumeAllParked : Run V Unit) :=
  .look (fun _ => rfl) fun _ => .forM .resumeParked _

theorem Blind.wakeWorker (k : Nat) : Blind (wakeWorker k : Run V (Option (Reply V))) := by
  refine .bind (.workerAt k) fun x => ?_
  cases x.stage with
  | parked call =>
    refine .bind (.mockGo ..) fun r => ?_
    rcases r with pc | ⟨t⟩ | ⟨a⟩
    · exact .bind (.change fun _ => ⟨rfl, rfl⟩) fun _ => .pure _
    · exact .failure
    · exact .bind (.change fun _ => ⟨rfl, rfl⟩) fun _ => .pure _
  | _ => exact .pure _

theorem Blind.workerPause (k p : Nat) (yields : Bool) (r : Mock.Request) :
    Blind (workerPause k p yields r : Run V (Reply V)) := by
  refine .bind (.plainPause ..) fun x => ?_
  rcases x with pc | ⟨t⟩ | ⟨a⟩
  · exact .bind (.change fun _ => ⟨rfl, rfl⟩) fun _ => .pure _
  · exact .failure
  · exact .pure _

/-! ## The main thread -/

theorem Blind.endForJoin (j : JoinPlan V) : Blind (endForJoin j : Run V Unit) :=
  .look (fun _ => rfl) fun _ => .ite (.pure _) (.finishWorker ..)

theorem Blind.countPoll : Blind (countPoll : Run V Unit) := by
  refine .look (fun _ => rfl) fun w => ?_
  cases w.joins with
  | nil => exact .pure _
  | cons j js => exact .bind (.change fun _ => ⟨rfl, rfl⟩) fun _ => .ite (.endForJoin j) (.pure _)

theorem Blind.mainSpawn (hn : nested.Follows) (p : Nat) (routine : Routine) (name : String)
    (stackSize : UInt64) (priority : Int32) :
    Blind (mainSpawn nested p routine name stackSize priority) :=
  .callUnlessFailed (.fire hn _) (.plainSpawn ..)

theorem Blind.mainOptional (hn : nested.Follows) (name : String) {call : Run V (Outcome Unit)}
    (hc : Blind call) : Blind (mainOptional nested name call) := by
  refine .look (fun _ => rfl) fun w => ?_
  cases w.backend with
  | bare => exact hc
  | _ => exact .callAfter (.fire hn _) hc

/-- A join goes by what the backend is, not by what it reports. -/
theorem Blind.mainJoin (hn : nested.Follows) (p : Nat) (t : ThreadNo) :
    Blind (mainJoin nested p t) := by
  refine .mainOptional hn _ (.look (fun _ => rfl) fun w => .platform (fun _ => rfl) fun q => ?_)
  refine .ite ?_ (.plainJoin p t)
  cases w.joins with
  | nil => exact .plainJoin p t
  | cons j js => exact .bind (.endForJoin j) fun _ => .plainJoin p t

theorem Blind.mainDetach (hn : nested.Follows) (p : Nat) (t : ThreadNo) :
    Blind (mainDetach nested p t) := .callAfter (.fire hn _) (.plainDetach p t)

theorem Blind.mainSetPriority (hn : nested.Follows) (p : Nat) (t : ThreadNo) (n : Int32) :
    Blind (mainSetPriority nested p t n) := .mainOptional hn _ (.plainSetPriority p t n)

theorem Blind.mainHold (hn : nested.Follows) (p : Nat) (t : ThreadNo) (d : Manager.Hold) :
    Blind (mainHold nested p t d) :=
  .mainOptional hn _ <| .bind (.plainHold p t d) fun _ =>
    .ite (.bind .resumeAllParked fun _ => .pure _) (.pure _)

theorem Blind.mainPause (p : Nat) (r : Mock.Request) :
    Blind (mainPause p r : Run V (Outcome Unit)) := by
  refine .bind (.plainPause ..) fun x => ?_
  rcases x with pc | ⟨t⟩ | ⟨a⟩
  · exact .failure
  · exact .failure
  · exact .pure a

theorem Blind.mainSleep (hn : nested.Follows) (p : Nat) (ms : UInt32) :
    Blind (mainSleep nested p ms) :=
  .bind (.callAfter (.fire hn _) (.mainPause ..)) fun _ => .bind .countPoll fun _ => .pure _

theorem Blind.mainYield (hn : nested.Follows) (p : Nat) : Blind (mainYield nested p) :=
  .bind (.callAfter (.fire hn _) (.mainPause ..)) fun _ => .pure _

theorem Blind.mainNewLock (hn : nested.Follows) : Blind (mainNewLock nested) := by
  refine .look (fun _ => rfl) fun w => ?_
  cases w.backend with
  | bare => exact .pure _
  | _ => exact .callUnlessFailed (.fire hn _) (.pure _)

theorem Blind.boundThread (c : Context) : Blind (boundThread c : Run V (Nat × ThreadNo)) :=
  .bind (.objectAt _) fun _ => .bind (.found _) fun _ => .bind (.coreAt _) fun _ => .pure _

theorem Blind.performBackend (hn : nested.Follows) (c : Context) (b : Manager.BackendCall) :
    Blind (performBackend nested c b) := by
  cases b with
  | spawn s => exact .bind (.coreAt _) fun _ => .mainSpawn hn ..
  | join => exact .bind (.boundThread c) fun _ => .mainJoin hn ..
  | detach => exact .bind (.boundThread c) fun _ => .mainDetach hn ..
  | setPriority n => exact .bind (.boundThread c) fun _ => .mainSetPriority hn ..
  | suspend => exact .bind (.boundThread c) fun _ => .mainHold hn ..
  | resume => exact .bind (.boundThread c) fun _ => .mainHold hn ..
  | sleep ms => exact .bind (.coreAt _) fun _ => .mainSleep hn ..
  | yield => exact .bind (.coreAt _) fun _ => .mainYield hn _
  | current => exact .plainCurrent .main

theorem Blind.performMain (hn : nested.Follows) (c : Context) (a : Manager.Action V) :
    Blind (performMain nested c a) := by
  cases a with
  | cell a => exact .performCell _ a
  | table t => exact .performTableCall hn .main c t
  | log r => exact .change fun _ => ⟨rfl, rfl⟩
  | backend b => exact .performBackend hn c b
  | markJoined => exact .change fun _ => ⟨rfl, rfl⟩
  | runBody => exact .failure

theorem Blind.mainRun {Pc Res : Type} (hn : nested.Follows) (c : Context)
    (m : Machine (Manager.interface V) Pc Res) (pc : Pc) : Blind (mainRun nested c m pc) :=
  .look (fun _ => rfl) fun _ => .drive m (.performMain hn c) _ pc

theorem Blind.addLock (lock : BackedLock) : Blind (addLock lock : Run V Nat) :=
  .look (fun _ => rfl) fun _ => .bind (.change fun _ => ⟨rfl, rfl⟩) fun _ => .pure _

theorem Blind.addTable (lock : BackedLock) : Blind (addTable lock : Run V Nat) :=
  .bind (.addLock lock) fun _ => .look (fun _ => rfl) fun _ =>
    .bind (.change fun _ => ⟨rfl, rfl⟩) fun _ => .pure _

/-! ## The parts that a step names -/

theorem Blind.nameHandle (caller : Caller) (h : Handle) :
    Blind (nameHandle caller h : Run V HandleName) := by
  refine Follows.look fun w hw => ?_
  have hb : w.veiled.backend = w.backend := rfl
  rw [hb]
  cases w.backend with
  | hosted =>
    refine .bind (Blind.identity caller) fun x => .ite (.pure _) ?_
    have hs : w.veiled.shown = w.shown := rfl
    rw [hs]
    cases w.shown.findIdx? (· == h) with
    | some i => exact .pure _
    | none =>
      have hu : { w with backend := .hosted, shown := w.shown ++ [h] : World V }.Unasking := hw
      exact .bind (.put hu) fun _ => .pure _
  | _ => exact .pure _

theorem Blind.viewOf (id : ObjectId) : Blind (viewOf id : Run V View) := by
  refine .bind (.objectAt id) fun o => ?_
  cases o.handle with
  | none => exact .pure _
  | some h => exact .bind (.nameHandle ..) fun _ => .pure _

theorem Blind.selfView (id : ObjectId) : Blind (selfView id : Run V View) :=
  .bind (.objectAt id) fun _ => .pure _

section Parts

variable {run run' : α → Run V (Reply V)}

theorem Follows.withPart (as : Aliases α) (k : String) (h : ∀ x, Follows (run x) (run' x)) :
    Follows (withPart as k run) (withPart as k run') := by
  unfold Threads.withPart
  cases as.lookup k with
  | none => exact .pure _
  | some x => exact h x

theorem Blind.withPart (as : Aliases α) (k : String) (h : ∀ x, Blind (run x)) :
    Blind (withPart as k run) := Follows.withPart as k h

end Parts

theorem Blind.withManager (m : String) {run : Nat → Run V (Reply V)} (h : ∀ c, Blind (run c)) :
    Blind (withManager m run) := .look (fun _ => rfl) fun _ => .withPart _ m h

theorem Follows.withPlatform (p : String) {run run' : Nat → Run V (Reply V)}
    (h : ∀ q, Follows (run q) (run' q)) : Follows (withPlatform p run) (withPlatform p run') :=
  .look fun w _ => .withPart w.platformNames p h

theorem Blind.withPlatform (p : String) {run : Nat → Run V (Reply V)} (h : ∀ q, Blind (run q)) :
    Blind (withPlatform p run) := Follows.withPlatform p h

theorem Blind.withOwner (k : String) {run : Owner → Run V (Reply V)} (h : ∀ o, Blind (run o)) :
    Blind (withOwner k run) :=
  .look (fun _ => rfl) fun _ => .withPart _ k fun o => .ite (.pure _) (h o)

theorem Blind.withFreeOwner (k : String) {run : Owner → Run V (Reply V)}
    (h : ∀ o, Blind (run o)) : Blind (withFreeOwner k run) :=
  .withOwner k fun o => .ite (.pure _) (h o)

theorem Blind.whileReading (k : String) {run : Run V α} (h : Blind run) :
    Blind (whileReading k run) :=
  .bind (.change fun _ => ⟨rfl, rfl⟩) fun _ => .bind h fun _ =>
    .bind (.change fun _ => ⟨rfl, rfl⟩) fun _ => .pure _

theorem Blind.whileTaken (k : String) {run : Run V α} (h : Blind run) :
    Blind (whileTaken k run) :=
  .bind (.change fun _ => ⟨rfl, rfl⟩) fun _ => .bind h fun _ =>
    .bind (.change fun _ => ⟨rfl, rfl⟩) fun _ => .pure _

theorem Blind.whileJoining (j : JoinPlan V) {run : Run V α} (h : Blind run) :
    Blind (whileJoining j run) :=
  .bind (.change fun _ => ⟨rfl, rfl⟩) fun _ => .bind h fun _ =>
    .bind (.change fun _ => ⟨rfl, rfl⟩) fun _ => .pure _

theorem Blind.withTable (t : Target) {run : Nat → Run V (Reply V)} (h : ∀ r, Blind (run r)) :
    Blind (withTable t run) := by
  cases t with
  | registry reg => exact .look (fun _ => rfl) fun _ => .withPart _ reg h
  | manager m => exact .withManager m fun c => .bind (.coreAt c) fun _ => h _

end SyncCore.Script.Threads

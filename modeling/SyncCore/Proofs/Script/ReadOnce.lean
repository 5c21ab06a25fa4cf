import SyncCore.Proofs.Manager.Description
import SyncCore.Proofs.Script.Calls

/-!
# The description of a backend is read once

A manager goes by the description that its backend gave when it was opened.
-/

set_option autoImplicit false

namespace SyncCore.Script.Threads

variable {V α : Type} {nested : Nested V}

/-! ## Managers and handles -/

theorem Follows.addPlatform (name : String) (setup : Setup) :
    Follows (addPlatform name setup : Run V Unit)
      (addPlatform name { setup with replaced := .none }) := by
  refine .look fun w hw => ?_
  have put : ∀ u u' : World V, u' = u.veiled → u.Unasking →
      Follows (set u : Run V PUnit) (set u') := by
    rintro u _ rfl hu
    exact .put hu
  refine put _ _ ?_ hw
  simp only [World.veiled, List.map_append, List.map_cons, List.map_nil, List.length_map]
  cases w.backend <;> rfl

theorem Blind.nameWorker (h : String) (b : Binding) (begins : Bool) :
    Blind (nameWorker h b begins : Run V Unit) :=
  .bind (.threadAt _) fun _ => .bind (.change fun _ => ⟨rfl, rfl⟩) fun _ =>
    .ite (.beginWorker _) (.pure _)

theorem Blind.create (hn : nested.Follows) (c : Nat) (h : String) (creation : Creation) :
    Blind (create nested c h creation) := by
  refine .bind (.coreAt c) fun core => .look (fun _ => rfl) fun w => ?_
  dsimp only
  cases Manager.Create.request core.info.thread (creation.attributes core) w.nextObject with
  | error e => exact .pure _
  | ok request =>
    refine .bind (.change fun _ => ⟨rfl, rfl⟩) fun _ =>
      .whilePinned _ <| .bind (.mainRun hn ..) fun r =>
      .bind (.objectAt _) fun o => ?_
    have owned : Blind (do
        modify fun u => { u with owners := u.owners.put h ⟨w.nextObject, c, false, 0, false⟩ }
        return .created (← Threads.viewOf w.nextObject) : Run V (Reply V)) :=
      .bind (.change fun _ => ⟨rfl, rfl⟩) fun _ => .bind (.viewOf _) fun _ => .pure _
    cases r with
    | error e =>
      cases o.binding with
      | none => exact .pure _
      | some b => exact .bind (.nameWorker ..) fun _ => .pure _
    | ok u =>
      cases o.binding with
      | none => exact owned
      | some b => exact .bind (.nameWorker ..) fun _ => owned

theorem Blind.inside (k : Nat) (c : Command) : Blind (inside k c : Run V (Reply V)) := by
  cases c with
  | current m =>
    refine .withManager m fun c => .look (fun _ => rfl) fun w => .look (fun _ => rfl) fun _ =>
      .bind (.drive _ (.performWorker k _ _) _ _) fun o => ?_
    cases o with
    | some id => exact .bind (.selfView id) fun _ => .pure _
    | none => exact .pure _
  | size m =>
    exact .withManager m fun c => .bind (.coreAt c) fun _ =>
      .bind (.tableCount noNested_follows ..) fun _ => .pure _
  | sleep m ms => exact .withManager m fun c => .bind (.coreAt c) fun _ => .workerPause ..
  | yield m => exact .withManager m fun c => .bind (.coreAt c) fun _ => .workerPause ..
  | hostCurrent p =>
    exact .withPlatform p fun _ => .bind (.plainCurrent _) fun _ =>
      .bind (.nameHandle ..) fun _ => .pure _
  | hostSleep p ms => exact .withPlatform p fun _ => .workerPause ..
  | hostYield p => exact .withPlatform p fun _ => .workerPause ..

theorem Blind.join (hn : nested.Follows) (c : Nat) (h : String) (polls : Nat) (e : Ending V) :
    Blind (join nested c h polls e) :=
  .look (fun _ => rfl) fun _ => .withPart _ h fun k =>
    .bind (.isManaged k) fun _ => .bind (.isParked k) fun _ => .ite (.pure _) <|
      .withFreeOwner h fun _ => .bind (.coreAt c) fun _ =>
        .bind (.whileTaken h (.whileJoining _ (.mainRun hn ..))) fun _ => .pure _

theorem Blind.dropOwner (hn : nested.Follows) (h : String) (o : Owner) :
    Blind (dropOwner nested h o) := .mainRun hn ..

theorem Blind.destroy (hn : nested.Follows) (c : Nat) (h : String) (o : Owner)
    (intoError : Bool) : Blind (destroy nested c h o intoError) := by
  refine .bind (.change fun _ => ⟨rfl, rfl⟩) fun _ =>
    .whilePinned _ <| .bind (.mainRun hn ..) fun r => ?_
  cases r with
  | ok u => exact .pure _
  | error e =>
    exact .ite (.bind (.dropOwner hn h o) fun _ => .pure _)
      (.bind (.change fun _ => ⟨rfl, rfl⟩) fun _ => .pure _)

theorem Blind.afterHold (k : Option Nat) (d : Manager.Hold) (r : Outcome Unit) :
    Blind (afterHold k d r : Run V (Reply V)) := by
  cases d with
  | suspend => exact .pure _
  | resume =>
    rcases r with e | u
    · exact .pure _
    · cases k with
      | none => exact .pure _
      | some k =>
        refine .bind (.wakeWorker k) fun x => ?_
        cases x <;> exact .pure _

theorem Blind.hold (hn : nested.Follows) (c : Nat) (h : String) (o : Owner) (d : Manager.Hold) :
    Blind (hold nested c h o d) :=
  .bind (.coreAt c) fun _ => .bind (.whileReading h (.mainRun hn ..)) fun _ =>
    .look (fun _ => rfl) fun _ => .afterHold ..

theorem Blind.setPriority (hn : nested.Follows) (c : Nat) (h : String) (o : Owner) (p : Priority) :
    Blind (setPriority nested c h o p) :=
  .bind (.coreAt c) fun _ => .bind (.whileReading h (.mainRun hn ..)) fun _ => .pure _

theorem Blind.current (hn : nested.Follows) (c : Nat) : Blind (current nested c) := by
  refine .look (fun _ => rfl) fun w => .bind (.mainRun hn ..) fun o => ?_
  cases o with
  | some id => exact .bind (.viewOf id) fun _ => .pure _
  | none => exact .pure _

/-! ## The backend by itself -/

theorem Blind.queryMock (p : String) (ask : Mock.State → Reply V) :
    Blind (queryMock p ask : Run V (Reply V)) := by
  refine .withPlatform p fun q => .look (fun _ => rfl) fun w => ?_
  cases w.backend with
  | hosted => exact .pure _
  | _ => exact .platform (fun _ => rfl) fun _ => .pure _

theorem Blind.hostSpawn (hn : nested.Follows) (p : Nat) (t name : String) (stackSize : UInt64)
    (priority : Int32) : Blind (hostSpawn nested p t name stackSize priority) := by
  refine .look (fun _ => rfl) fun _ => .ite (.pure _) <| .bind (.mainSpawn hn ..) fun r => ?_
  cases r with
  | error e => exact .pure _
  | ok b =>
    exact .bind (.change fun _ => ⟨rfl, rfl⟩) fun _ => .bind (.nameWorker ..) fun _ =>
      .bind (.nameHandle ..) fun _ => .pure _

theorem Blind.withThread (p t : String) {run : Nat → ThreadNo → Run V (Reply V)}
    (h : ∀ p t, Blind (run p t)) : Blind (withThread p t run) :=
  .withPlatform p fun p => .look (fun _ => rfl) fun _ => .withPart _ t (h p)

theorem Blind.hostJoin (hn : nested.Follows) (p : Nat) (t : ThreadNo) (e : Ending V) :
    Blind (hostJoin nested p t e) :=
  .bind (.threadAt t) fun _ => .bind (.isParked _) fun _ => .ite (.pure _) <|
    .bind (.whileJoining _ (.mainJoin hn p t)) fun _ => .pure _

theorem Blind.hostLockOp (hn : nested.Follows) (l : Nat) (op : Option LockOp) :
    Blind (hostLockOp nested l op) := by
  cases op with
  | none => exact .pure _
  | some op =>
    exact .bind (.lockAt l) fun _ => .ite (.pure _) <|
      .bind (.lockReply (.lockCall hn .main l) op) fun _ => .pure _

theorem Blind.hostLock (hn : nested.Follows) (ops : List (Option LockOp)) :
    Blind (hostLock nested ops) := by
  refine .bind (.mainNewLock hn) fun r => ?_
  cases r with
  | error e => exact .pure _
  | ok raw =>
    exact .bind (.addLock _) fun l => .bind (.mapM (.hostLockOp hn l) ops) fun _ => .pure _

/-! ## Tables and texts -/

theorem Blind.registry (reg : String) : Blind (registry nested reg none) := by
  refine .bind (.pure (Except.ok BackedLock.spinning)) fun r => ?_
  cases r with
  | error e => exact .pure _
  | ok lock =>
    exact .bind (.change fun _ => ⟨rfl, rfl⟩) fun _ => .bind (.addTable _) fun _ =>
      .bind (.change fun _ => ⟨rfl, rfl⟩) fun _ => .pure _

theorem Blind.withLookup (l : Lookup) {run : Handle → Run V (Reply V)} (h : ∀ x, Blind (run x)) :
    Blind (withLookup l run) := by
  cases l with
  | handle k =>
    refine .withOwner k fun o => .look (fun _ => rfl) fun w => ?_
    cases w.handleOf o.object with
    | some x => exact h x
    | none => exact .pure _
  | object o =>
    refine .look (fun _ => rfl) fun _ => .withPart _ o fun id => .look (fun _ => rfl) fun w => ?_
    cases w.handleOf id with
    | some x => exact h x
    | none => exact .pure _
  | caller p => exact .withPlatform p fun _ => .bind (.plainCurrent .main) h

theorem Blind.find (hn : nested.Follows) (t : Nat) (keep : Option String) (h : Handle) :
    Blind (find nested t keep h) := by
  refine .bind (.tableFind hn .main t h) fun o => ?_
  cases o with
  | none => exact .pure _
  | some id =>
    cases keep with
    | some o =>
      exact .bind (.change fun _ => ⟨rfl, rfl⟩) fun _ => .bind (.viewOf id) fun _ => .pure _
    | none => exact .bind (.viewOf id) fun _ => .pure _

theorem Blind.withKept (t : Target) (o : String) {run : Nat → ObjectId → Run V (Reply V)}
    (h : ∀ r id, Blind (run r id)) : Blind (withKept t o run) :=
  .withTable t fun r => .look (fun _ => rfl) fun _ => .withPart _ o fun id =>
    .whilePinned id (h r id)

theorem Blind.tableText (hn : nested.Follows) (t : Nat) : Blind (tableText nested t) :=
  .bind (.tableCount hn .main t _) fun _ => .look (fun _ => rfl) fun _ => .pure _

theorem Blind.objectText (id : ObjectId) : Blind (objectText id : Run V String) :=
  .look (fun _ => rfl) fun _ => .bind (.objectAt id) fun _ => .pure _

theorem Blind.debugText (hn : nested.Follows) (s : Subject) : Blind (debugText nested s) := by
  cases s with
  | handle h => exact .withOwner h fun o => .bind (.objectText _) fun _ => .pure _
  | ref r =>
    exact .look (fun _ => rfl) fun _ => .withPart _ r fun id =>
      .bind (.objectText id) fun _ => .pure _
  | object o =>
    exact .look (fun _ => rfl) fun _ => .withPart _ o fun id =>
      .bind (.objectText id) fun _ => .pure _
  | thread t =>
    refine .look (fun _ => rfl) fun _ => .withPart _ t fun t => .look (fun _ => rfl) fun w => ?_
    cases w.backend with
    | hosted => exact .bind (.threadAt t) fun _ => .pure _
    | _ => exact .pure _
  | table t => exact .withTable t fun t => .bind (.tableText hn t) fun _ => .pure _
  | manager m =>
    exact .withManager m fun c => .bind (.coreAt c) fun _ =>
      .bind (.tableText hn _) fun _ => .pure _

/-! ## Steps -/

theorem follows_step (hn : nested.Follows) (s : Step V) (hs : s.asks = false) :
    Follows (stepWith nested s) (stepWith nested s.veiled) := by
  cases s with
  | platform p setup => exact .bind (.addPlatform p setup) fun _ => .pure _
  | setInfo p replaced =>
    exact .withPlatform p fun q => .bind (.modifyPlatform q fun _ => rfl) fun _ => .pure _
  | arm call times body verdict => exact .bind (.addArms times hs) fun _ => .pure _
  | manager m p => cases hs
  | cloneManager m source =>
    exact Blind.withManager source fun c => .bind (.change fun _ => ⟨rfl, rfl⟩) fun _ => .pure _
  | dropManager m => exact Blind.bind (.change fun _ => ⟨rfl, rfl⟩) fun _ => .pure _
  | managerInfo m => exact Blind.withManager m fun c => .bind (.coreAt c) fun _ => .pure _
  | managerPlatformInfo m => cases hs
  | platformInfo p => cases hs
  | defaultAttributes m => exact Blind.withManager m fun c => .bind (.coreAt c) fun _ => .pure _
  | create m h creation =>
    exact Blind.withManager m fun c => .look (fun _ => rfl) fun _ => .ite (.pure _) (.create hn ..)
  | start h =>
    exact Blind.look (fun _ => rfl) fun _ => .withPart _ h fun k =>
      .bind (.beginWorker k) fun _ => .pure _
  | finish h e =>
    exact Blind.look (fun _ => rfl) fun _ => .withPart _ h fun k => .look (fun _ => rfl) fun _ =>
      .bind (.isParked k) fun _ => .ite (.pure _) (.bind (.finishWorker k e) fun _ => .pure _)
  | inside h command =>
    exact Blind.look (fun _ => rfl) fun _ => .withPart _ h fun k =>
      .bind (.isRunning k) fun _ => .ite (.inside k command) (.pure _)
  | join m h polls e => exact Blind.withManager m fun c => .join hn c h polls e
  | destroy m h intoError =>
    exact Blind.withManager m fun c => .withFreeOwner h fun o => .destroy hn c h o intoError
  | drop h =>
    exact Blind.withFreeOwner h fun o => .bind (.change fun _ => ⟨rfl, rfl⟩) fun _ =>
      .bind (.whilePinned _ (.dropOwner hn h o)) fun _ => .pure _
  | view h => exact Blind.withOwner h fun o => .bind (.viewOf _) fun _ => .pure _
  | getState m h =>
    exact Blind.withManager m fun _ => .withOwner h fun o => .bind (.objectAt _) fun _ => .pure _
  | setPriority m h p =>
    exact Blind.withManager m fun c => .withOwner h fun o => .setPriority hn c h o p
  | hold m h d => exact Blind.withManager m fun c => .withOwner h fun o => .hold hn c h o d
  | sleep m ms =>
    exact Blind.withManager m fun c => .bind (.coreAt c) fun _ =>
      .bind (.mainSleep hn ..) fun _ => .pure _
  | yield m =>
    exact Blind.withManager m fun c => .bind (.coreAt c) fun _ =>
      .bind (.mainYield hn _) fun _ => .pure _
  | current m => exact Blind.withManager m fun c => .current hn c
  | ref r h =>
    exact Blind.withOwner h fun o => .bind (.change fun _ => ⟨rfl, rfl⟩) fun _ =>
      .bind (.viewOf _) fun _ => .pure _
  | cloneRef r source =>
    exact Blind.look (fun _ => rfl) fun _ => .withPart _ source fun id =>
      .bind (.change fun _ => ⟨rfl, rfl⟩) fun _ =>
      .bind (.viewOf id) fun _ => .pure _
  | refView r =>
    exact Blind.look (fun _ => rfl) fun _ => .withPart _ r fun id =>
      .bind (.viewOf id) fun _ => .pure _
  | refEq r q =>
    exact Blind.look (fun _ => rfl) fun _ => .withPart _ r fun _ => .look (fun _ => rfl) fun _ =>
      .withPart _ q fun _ => .pure _
  | dropRef r =>
    exact Blind.look (fun _ => rfl) fun _ => .bind (.change fun _ => ⟨rfl, rfl⟩) fun _ => .pure _
  | registry reg p =>
    cases p with
    | none => exact Blind.registry reg
    | some p => cases hs
  | tableState t =>
    exact Blind.withTable t fun t => .bind (.tableCount hn .main t _) fun _ =>
      .bind (.tableCount hn .main t _) fun _ => .look (fun _ => rfl) fun _ => .pure _
  | cleanup t => exact Blind.withTable t fun t => .bind (.tableCount hn .main t _) fun _ => .pure _
  | find t l keep => exact Blind.withLookup l fun h => .withTable t fun t => .find hn t keep h
  | register t o =>
    exact Blind.withKept t o fun t id => .bind (.tableOutcome hn .main t _) fun _ => .pure _
  | unregister t o =>
    exact Blind.withKept t o fun t id => .bind (.tableOutcome hn .main t _) fun _ => .pure _
  | contains t o =>
    refine Blind.withKept t o fun t id => .bind (.tableRun hn .main t _) fun x => ?_
    cases x with
    | flag b => exact .pure _
    | _ => exact .failure
  | objectView o =>
    exact Blind.look (fun _ => rfl) fun _ => .withPart _ o fun id =>
      .bind (.viewOf id) fun _ => .pure _
  | dropObject o =>
    exact Blind.look (fun _ => rfl) fun _ => .bind (.change fun _ => ⟨rfl, rfl⟩) fun _ => .pure _
  | calls p => exact Blind.queryMock p fun s => .calls s.calls
  | spawnCount p => exact Blind.queryMock p fun s => .count s.spawnCount
  | task p t =>
    exact Blind.queryMock p fun s =>
      .task ((s.task? t).map (·.priority)) (s.isSuspended t) (s.isDetached t)
  | hostSpawn p t name stackSize priority =>
    exact Blind.withPlatform p fun p => .hostSpawn hn p t name stackSize priority
  | hostHandle p t =>
    exact Blind.withThread p t fun _ t => .bind (.threadAt t) fun _ =>
      .bind (.nameHandle ..) fun _ => .pure _
  | hostCurrent p =>
    exact Blind.withPlatform p fun _ => .bind (.plainCurrent .main) fun _ =>
      .bind (.nameHandle ..) fun _ => .pure _
  | hostJoin p t e => exact Blind.withThread p t fun p t => .hostJoin hn p t e
  | hostDetach p t =>
    exact Blind.withThread p t fun p t => .bind (.mainDetach hn p t) fun _ => .pure _
  | hostSetPriority p t n =>
    exact Blind.withThread p t fun p t => .bind (.mainSetPriority hn p t n) fun _ => .pure _
  | hostHold p t d =>
    exact Blind.withThread p t fun p t => .bind (.mainHold hn p t d) fun _ =>
      .bind (.threadAt t) fun _ => .afterHold ..
  | hostSleep p ms =>
    exact Blind.withPlatform p fun p => .bind (.mainSleep hn p ms) fun _ => .pure _
  | hostYield p => exact Blind.withPlatform p fun p => .bind (.mainYield hn p) fun _ => .pure _
  | hostLock p ops => exact Blind.withPlatform p fun _ => .hostLock hn ops
  | debug d => exact Blind.debugText hn d
  | malformed => exact .pure _

theorem Follows.steps {f : Step V → Run V α}
    (h : ∀ s : Step V, s.asks = false → Follows (f s) (f s.veiled)) (ss : List (Step V))
    (hs : Step.anyAsks ss = false) : Follows (ss.mapM f) ((Step.veiledAll ss).mapM f) := by
  induction ss with
  | nil => exact .pure []
  | cons s ss ih =>
    obtain ⟨hs, hss⟩ := Bool.or_eq_false_iff.mp hs
    rw [Step.veiledAll, List.mapM_cons, List.mapM_cons]
    exact .bind (h s hs) fun _ => .bind (ih hss) fun _ => .pure _

theorem follows_exec (depth : Nat) (s : Step V) (hs : s.asks = false) :
    Follows (exec depth s) (exec depth s.veiled) := by
  induction depth generalizing s with
  | zero => exact Blind.failure
  | succ n ih => exact follows_step (fun body hb => .steps ih body hb) s hs

/-! ## Two runs -/

def seen (r : Run V α) (w : World V) : Option (α × World V) :=
  (r w).map fun p => (p.1, p.2.veiled)

/-- Two computations come to the same from two worlds, and leave no arm that asks. -/
structure Alike (r r' : Run V α) (w w' : World V) : Prop where
  same : seen r w = seen r' w'
  unasking : ∀ p, r w = some p → p.2.Unasking
  unasking' : ∀ p, r' w' = some p → p.2.Unasking

section Alike

variable {r r' q : Run V α} {w w' : World V}

theorem Alike.of_follows (h : Follows r q) (h' : Follows r' q) (hu : w.Unasking)
    (hu' : w'.Unasking) (hv : w.veiled = w'.veiled) : Alike r r' w w' where
  same := by rw [seen, seen, ← h.same w hu, ← h'.same w' hu', hv]
  unasking := fun p => h.unasking w p hu
  unasking' := fun p => h'.unasking w' p hu'

theorem Alike.failure : Alike (failure : Run V α) failure w w' := ⟨rfl, nofun, nofun⟩

theorem Alike.bind {β : Type} {f f' g : α → Run V β} (h : Alike r r' w w')
    (hf : ∀ x, Follows (f x) (g x)) (hf' : ∀ x, Follows (f' x) (g x)) :
    Alike (r >>= f) (r' >>= f') w w' := by
  have hs := h.same
  have hu := h.unasking
  have hu' := h.unasking'
  simp only [seen] at hs
  cases hr : r w with
  | none =>
    have hr' : r' w' = none := by simpa [hr] using hs.symm
    exact ⟨by simp [seen, bind_apply, hr, hr'], by simp [bind_apply, hr], by simp [bind_apply, hr']⟩
  | some p =>
    cases hr' : r' w' with
    | none => simp [hr, hr'] at hs
    | some p' =>
      obtain ⟨x, u⟩ := p
      obtain ⟨x', u'⟩ := p'
      obtain ⟨rfl, hv⟩ : x = x' ∧ u.veiled = u'.veiled := by simpa [hr, hr'] using hs
      have := Alike.of_follows (hf x) (hf' x) (hu _ hr) (hu' _ hr') hv
      exact ⟨by simpa [seen, bind_apply, hr, hr'] using this.same,
        by simpa [bind_apply, hr] using this.unasking,
        by simpa [bind_apply, hr'] using this.unasking'⟩

theorem Alike.onward {β : Type} {f : α → Run V β} (h : Alike r r' w w') (hf : ∀ x, Blind (f x)) :
    Alike (r >>= f) (r' >>= f) w w' := h.bind hf hf

end Alike

/-! ## Openings -/

theorem Blind.opening (hn : nested.Follows) (capacity p n : Nat) {pc : Manager.Opening.Pc}
    (h : pc ≠ .read) :
    Blind ((Manager.Opening.next capacity).drive (performOpening nested p) n pc) := by
  induction n generalizing pc with
  | zero => exact .failure
  | succ n ih =>
    cases pc with
    | read => exact absurd rfl h
    | request info =>
      exact .bind (.mainNewLock hn) fun r => ih (Manager.Opening.chosen_ne_read info r)
    | announceTable o => exact .bind (.change fun _ => ⟨rfl, rfl⟩) fun _ => ih nofun
    | announce o => exact .bind (.change fun _ => ⟨rfl, rfl⟩) fun _ => ih nofun
    | done r => exact .pure r

def World.reportOf (w : World V) (p : String) : Option PlatformInfo :=
  (w.platformNames.lookup p).bind fun q => w.platforms[q]?.map Platform.report

section Openings

variable {w w' : World V}

theorem Alike.readInfo {p : Nat} (hu : w.Unasking) (hu' : w'.Unasking) (hv : w.veiled = w'.veiled)
    (hr : w.platforms[p]?.map Platform.report = w'.platforms[p]?.map Platform.report) :
    Alike (do return (← platformAt p).report : Run V PlatformInfo)
      (do return (← platformAt p).report) w w' := by
  have he : ∀ u : World V, (do return (← platformAt p).report : Run V PlatformInfo) u =
      (u.platforms[p]?.map Platform.report).map fun i => (i, u) := fun u => by
    show ((u.platforms[p]?).map fun q => (q, u)).bind (fun x => some (x.1.report, x.2)) = _
    cases u.platforms[p]? <;> rfl
  refine ⟨?_, fun x hx => ?_, fun x hx => ?_⟩
  · rw [seen, seen, he, he, hr]
    cases w'.platforms[p]? <;> simp [hv]
  · obtain ⟨i, -, rfl⟩ := Option.map_eq_some_iff.mp ((he w).symm.trans hx)
    exact hu
  · obtain ⟨i, -, rfl⟩ := Option.map_eq_some_iff.mp ((he w').symm.trans hx)
    exact hu'

def openWithin (nested : Nested V) (p capacity rounds : Nat) : Run V (Outcome Nat) := do
  match ← (Manager.Opening.next capacity).drive (performOpening nested p) rounds
      Manager.Opening.start with
  | .error e => return .error e
  | .ok o =>
    let table ← addTable o.lock
    let c := (← get).cores.length
    modify fun w => { w with cores := w.cores ++ [⟨p, o.info, table⟩] }
    return .ok c

theorem Alike.openWithin (hn : nested.Follows) (p capacity rounds : Nat) (hu : w.Unasking)
    (hu' : w'.Unasking) (hv : w.veiled = w'.veiled)
    (hr : w.platforms[p]?.map Platform.report = w'.platforms[p]?.map Platform.report) :
    Alike (openWithin nested p capacity rounds) (openWithin nested p capacity rounds) w w' := by
  have driven : Alike
      ((Manager.Opening.next capacity).drive (performOpening nested p) rounds Manager.Opening.start)
      ((Manager.Opening.next capacity).drive (performOpening nested p) rounds Manager.Opening.start)
      w w' := by
    cases rounds with
    | zero => exact .failure
    | succ n =>
      have read : Manager.Opening.next capacity .read = .act .readInfo _ := rfl
      exact .onward (.readInfo hu hu' hv hr) fun i =>
        .opening hn capacity p n (Manager.Opening.next_ne_read read i)
  refine driven.onward fun r => ?_
  cases r with
  | error e => exact .pure _
  | ok o =>
    exact .bind (.addTable _) fun _ => .look (fun _ => rfl) fun _ =>
      .bind (.change fun _ => ⟨rfl, rfl⟩) fun _ => .pure _

theorem Alike.openManager (hn : nested.Follows) (p : Nat) (hu : w.Unasking) (hu' : w'.Unasking)
    (hv : w.veiled = w'.veiled)
    (hr : w.platforms[p]?.map Platform.report = w'.platforms[p]?.map Platform.report) :
    Alike (openManager nested p) (openManager nested p) w w' := by
  have hc : w.capacity = w'.capacity := (congrArg World.capacity hv :)
  have hb : w.rounds = w'.rounds := (congrArg World.rounds hv :)
  have h : Alike (Threads.openWithin nested p w.capacity w.rounds)
      (Threads.openWithin nested p w'.capacity w'.rounds) w w' := by
    rw [hc, hb]
    exact .openWithin hn p _ _ hu hu' hv hr
  exact ⟨h.same, h.unasking, h.unasking'⟩

theorem Alike.withPlatform {p : String} {run : Nat → Run V (Reply V)}
    (hv : w.veiled = w'.veiled)
    (h : ∀ q, w.platformNames.lookup p = some q → Alike (run q) (run q) w w')
    (hn : Alike (Pure.pure (.refused .noSuch)) (Pure.pure (.refused .noSuch) : Run V (Reply V))
      w w') :
    Alike (withPlatform p run) (withPlatform p run) w w' := by
  have hnames : w.platformNames = w'.platformNames := (congrArg World.platformNames hv :)
  have h : Alike (Threads.withPart w.platformNames p run)
      (Threads.withPart w'.platformNames p run) w w' := by
    rw [← hnames]
    unfold Threads.withPart
    cases hl : w.platformNames.lookup p with
    | none => exact hn
    | some q => exact h q hl
  exact ⟨h.same, h.unasking, h.unasking'⟩

theorem Alike.manager (hn : nested.Follows) (m p : String) (hu : w.Unasking) (hu' : w'.Unasking)
    (hv : w.veiled = w'.veiled) (hr : w.reportOf p = w'.reportOf p) :
    Alike (stepWith nested (.manager m p)) (stepWith nested (.manager m p)) w w' := by
  have hnames : w.platformNames = w'.platformNames := (congrArg World.platformNames hv :)
  refine .withPlatform hv (fun q hq => ?_) (.of_follows (.pure _) (.pure _) hu hu' hv)
  rw [World.reportOf, World.reportOf, ← hnames, hq] at hr
  refine .onward (.openManager hn q hu hu' hv hr) fun r => ?_
  cases r with
  | error e => exact .pure _
  | ok c => exact .bind (.change fun _ => ⟨rfl, rfl⟩) fun _ => .pure _

end Openings

/-! ## Whole scripts -/

theorem blind_report (r : Reply V) : Blind (do
    let w ← get
    return ⟨r, w.managers.map fun m => (m.1, w.sizeOf m.2),
      w.owners.map fun o => (o.1, w.stateOf o.2.object), w.armory.hooks, w.log⟩ :
      Run V (Entry V)) := .look (fun _ => rfl) fun _ => .pure _

theorem follows_entry (depth : Nat) (s : Step V) (hs : s.asks = false) :
    Follows (entry depth s) (entry depth s.veiled) :=
  .bind (Blind.change fun _ => ⟨rfl, rfl⟩) fun _ => .bind (follows_exec depth s hs) blind_report

theorem Alike.entry {w w' : World V} (depth : Nat) (m p : String) (hu : w.Unasking)
    (hu' : w'.Unasking) (hv : w.veiled = w'.veiled) (hr : w.reportOf p = w'.reportOf p) :
    Alike (entry depth (.manager m p)) (entry depth (.manager m p)) w w' := by
  have hv' : { w with armory.hooks := [], log := [] : World V }.veiled =
      { w' with armory.hooks := [], log := [] : World V }.veiled :=
    (congrArg (fun u : World V => { u with armory.hooks := [], log := [] }) hv :)
  have hm : Alike (exec depth (.manager m p : Step V)) (exec depth (.manager m p))
      { w with armory.hooks := [], log := [] } { w' with armory.hooks := [], log := [] } := by
    cases depth with
    | zero => exact .failure
    | succ n => exact .manager (fun body hb => .steps (follows_exec n) body hb) m p hu hu' hv' hr
  have h := hm.onward blind_report
  exact ⟨h.same, h.unasking, h.unasking'⟩

theorem scripts_agree {w w' : World V} {m p : String} {ss ss' : List (Step V)}
    (hu : w.Unasking) (hw : w.veiled = w'.veiled) (hp : w.reportOf p = w'.reportOf p)
    (hs : Step.anyAsks ss = false) (hss : Step.veiledAll ss = Step.veiledAll ss') (depth : Nat) :
    seen ((.manager m p :: ss).mapM (entry depth)) w =
      seen ((.manager m p :: ss').mapM (entry depth)) w' := by
  have hu' : w'.Unasking := by rwa [← World.unasking_veiled, ← hw, World.unasking_veiled]
  have hs' : Step.anyAsks ss' = false := by
    rwa [← Step.anyAsks_veiled, ← hss, Step.anyAsks_veiled]
  have h := Follows.steps (follows_entry depth) ss hs
  have h' := Follows.steps (follows_entry depth) ss' hs'
  rw [← hss] at h'
  simp only [List.mapM_cons]
  exact ((Alike.entry depth m p hu hu' hw hp).bind (fun _ => h.bind fun _ => .pure _)
    fun _ => h'.bind fun _ => .pure _).same

section Runs

open Manager

/-- The description of a backend is read once, when a manager is opened. What else the
backend reports of itself, before, after or in the middle of a call, has no part in what
the manager and its clones do.

First, threads use them at once, whatever the backend answers: two runs in which the
same has been read and the same is done go through the same states and make the same
calls with the same arguments, and what is read is one description at most. Second,
scripts that do not ask for descriptions themselves use them on the backends that there
are, with any calls made to fail and any steps taken in the middle of others: the entries
are the same, and so are the worlds, but for what the platforms have been made to report. -/
theorem description_is_read_once (V : Type) :
    (∀ (text : Handle → String) (capacity : Nat) (ts ts' : List (Office.Turn V)),
      ts.map Office.Turn.unreported = ts'.map Office.Turn.unreported →
      transcript (Office.step? text) Office.readings ts (.vacant capacity) =
        transcript (Office.step? text) Office.readings ts' (.vacant capacity) →
      run? (Office.step? text) ts (.vacant capacity) =
        run? (Office.step? text) ts' (.vacant capacity) ∧
      transcript (Office.step? text) (Office.watch text) ts (.vacant capacity) =
        transcript (Office.step? text) (Office.watch text) ts' (.vacant capacity) ∧
      (transcript (Office.step? text) Office.readings ts (.vacant capacity)).length ≤ 1) ∧
    ∀ (w w' : World V) (m p : String) (ss ss' : List (Step V)) (depth : Nat),
      w.Unasking → w.veiled = w'.veiled → w.reportOf p = w'.reportOf p →
      Step.anyAsks ss = false → Step.veiledAll ss = Step.veiledAll ss' →
      seen ((.manager m p :: ss).mapM (entry depth)) w =
        seen ((.manager m p :: ss').mapM (entry depth)) w' := by
  constructor
  · intro text capacity ts ts' h hr
    obtain ⟨hrun, hwatch⟩ := Office.courses_agree h hr
    exact ⟨hrun, hwatch, Office.readings_le_one ts _⟩
  · intro w w' m p ss ss' depth hu hw hp hs hss
    exact scripts_agree hu hw hp hs hss depth

def agreeable : Surroundings Unit :=
  ⟨Oracle.agreeable.steady, .ok .newSpin, fun _ => false⟩

/-- An opening that has read the description goes on. Through a clone a thread is created,
which comes to run, and is suspended. -/
def suspension : List Instruction :=
  List.replicate 3 .opening ++
    [.through 0 .clone, .through 1 (.create true (·.withPriority .high))] ++
    List.replicate 5 (.act 1 .creator) ++ List.replicate 2 (.act 1 .routine) ++
    [.through 1 (.call 1 (.hold .suspend true))] ++ List.replicate 3 (.act 1 (.control 0))

def suspending (later : PlatformInfo) : List (Office.Turn Unit) :=
  ⟨.opening, Mock.defaultInfo, agreeable⟩ :: suspension.map (⟨·, later, agreeable⟩)

def called? : Office V × Option (Office.Doing V) → Option BackendCall
  | (_, some (.thread _ _ (.backend c))) => some c
  | _ => none

def otherwise : Replacement :=
  ⟨some .threads, some 4096, some 8192, some 4096, some 10, some 20⟩

def onePlatform : World Unit :=
  { World.initial .mock 2 64 with
    platforms := [⟨Mock.defaultInfo, .none, .initial⟩]
    platformNames := [("p", 0)] }

/-- A thread is created and suspended by a clone of a manager, while the platform
describes itself anew. -/
def laterCalls (r : Replacement) : List (Step Unit) :=
  [.setInfo "p" r, .cloneManager "n" "m", .create "n" "h" ⟨some .high, none, none, false, false⟩,
    .arm "suspend" 1 [.setInfo "p" r] .proceed, .hold "n" "h" .suspend, .calls "p"]

def Reply.recorded? : Reply V → Option (List Mock.Call)
  | .calls cs => some cs
  | _ => none

def lastLog (r : Option (List (Entry V) × World V)) : Option (List Mock.Call) :=
  r.bind fun p => p.1.getLast?.bind fun e => e.reply.recorded?

theorem suspended_as_described :
    (transcript (Office.step? (World.handleText .mock)) (Office.watch (World.handleText .mock))
        (suspending (otherwise.apply Mock.defaultInfo)) (.vacant 2)).filterMap called? =
      [.spawn ⟨"tt_thread", 512, 2⟩, .suspend] ∧
    lastLog (seen ((.manager "m" "p" :: laterCalls otherwise).mapM (entry 2)) onePlatform) =
      some [.spawn 1 "tt_thread" 512 2, .suspend 1] := by
  constructor
  · have h := (description_is_read_once Unit).1 (World.handleText .mock) 2
      (suspending (otherwise.apply Mock.defaultInfo)) (suspending Mock.defaultInfo) rfl rfl
    rw [h.2.1]
    rfl
  · have hu : onePlatform.Unasking := fun _ ha => absurd ha List.not_mem_nil
    have hs : Step.anyAsks (laterCalls otherwise) = false := rfl
    have hv : Step.veiledAll (laterCalls otherwise) = Step.veiledAll (laterCalls .none) := rfl
    rw [(description_is_read_once Unit).2 _ _ _ _ _ _ 2 hu rfl rfl hs hv]
    decide +kernel

end Runs

end SyncCore.Script.Threads

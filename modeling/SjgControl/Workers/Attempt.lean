import SjgControl.Capacity
import SjgControl.Hoare
import SjgControl.Workers

/-! What becomes of the attempt that a worker run reserves. The row is opened by the
reservation; the run closes it when its guarded body returns or raises an `Exception`, and at
no other place. -/
namespace SjgControl
open Relational Hoare

namespace Runtime

def attemptClosed (db : Runtime) (a : String) : Prop :=
  ∃ w ∈ db.attempts.get a, w.state = .succeeded ∨ w.state = .failed

def attemptLive (db : Runtime) (a : String) : Prop := ∃ w ∈ db.attempts.get a, w.state.live

instance (db : Runtime) (a : String) : Decidable (db.attemptClosed a) :=
  inferInstanceAs (Decidable (∃ w ∈ db.attempts.get a, w.state = .succeeded ∨ w.state = .failed))

variable {db : Runtime} {a : String}

theorem not_closed_of_live (live : db.attemptLive a) : ¬ db.attemptClosed a := by
  obtain ⟨w,found,state⟩ := live
  rintro ⟨v,present,closed⟩
  rw [Option.mem_def] at found present
  rw [found] at present
  cases Option.some.inj present
  rcases closed with ended | ended <;> simp [ended,AttemptState.live] at state

theorem setAttempt_state (live : db.attemptLive a) (state : AttemptState) (finishedAt artifact : Option String) :
    ∃ w ∈ (db.setAttempt a state finishedAt artifact).attempts.get a, w.state = state := by
  obtain ⟨w,found,_⟩ := live
  have lookup := db.get_setAttempt a state finishedAt artifact a
  rw [Option.mem_def.mp found,Option.map_some,if_pos rfl] at lookup
  obtain ⟨v,present,equal⟩ := Option.map_eq_some_iff.mp lookup
  exact ⟨v,present,equal⟩

theorem reserveWorker_live {next : Runtime} {sessionId workerType value : String} {cumulativeCap concurrentCap globalCap : Int}
    {now : Instant} (ok : db.reserveWorker a sessionId workerType cumulativeCap concurrentCap globalCap now = .ok (value,next)) :
    value = a ∧ next.attemptLive a := by
  obtain ⟨_,_,_,_,_,_,attempts,inserted,drawn,rfl⟩ := reserveWorker_effect ok
  exact ⟨drawn,_,(Table.get_insert inserted a).trans (if_pos rfl),.inl rfl⟩

end Runtime

namespace WorkerSupervisor
open Workers

variable {F : Type} {w : WorkerSupervisor} {lib : Library} {host : WorkerHost F} {order : WorkOrder}
  {input : WorkerInput} {attempt : String}

/-- The store has the property, whatever the files. -/
def InStore (P : Store → Prop) (s : WorkerState F) : Prop := P s.store

/-! The store changes at the marks alone. `P` holds until the attempt runs, `Q` from then on, and
`R` wherever a call raises. -/

section Store
variable {P Q R T : Store → Prop}

theorem inFiles_store {α : Type} (raises : ∀ db, P db → R db) (call : EStateM WorkerException F α) :
    Triple (InStore P) (inFiles call) (fun _ => InStore P) (fun _ => InStore R) := by
  intro s holds
  unfold inFiles
  cases call s.files with
  | ok value files => exact holds
  | error e files => exact raises s.store holds

theorem mark_store {state : AttemptState} {finishedAt artifact : Option String}
    (marked : ∀ db, P db → Q {db with runtime := db.runtime.setAttempt attempt state finishedAt artifact}) :
    Triple (InStore (F := F) P) (mark attempt state finishedAt artifact) (fun _ => InStore Q) (fun _ => InStore R) :=
  fun s holds => marked s.store holds

theorem demand_store (raises : ∀ db, P db → R db) {p : Prop} [Decidable p] {e : WorkerException} :
    Triple (InStore (F := F) P) (demand p e) (fun _ => InStore P) (fun _ => InStore R) :=
  Triple.ite (fun _ => Triple.pure (fun _ holds => holds)) (fun _ => Triple.throw (fun s holds => raises s.store holds))

theorem handOver_store (raises : ∀ db, P db → R db) :
    Triple (InStore P) (w.handOver host) (fun _ => InStore P) (fun _ => InStore R) := by
  unfold handOver
  split
  next => exact inFiles_store raises _
  next => exact Triple.pure (fun _ holds => holds)

theorem launch_store (early : ∀ db, P db → R db) (late : ∀ db, Q db → R db)
    (started : ∀ db, P db → Q {db with runtime := db.runtime.setAttempt attempt .running none none}) :
    Triple (InStore P) (w.launch host order attempt) (fun _ => InStore Q) (fun _ => InStore R) := by
  refine (Triple.forM_const (fun text _ => inFiles_store early _)).bind (fun _ => (handOver_store early).bind (fun _ => ?_))
  refine (inFiles_store early _).bind (fun _ => (mark_store started).bind (fun _ => ?_))
  exact (inFiles_store late _).bind (fun _ => Triple.pure (fun _ holds => holds))

theorem checkOutput_store (raises : ∀ db, Q db → R db) {output : Option String} :
    Triple (InStore (F := F) Q) (w.checkOutput output) (fun _ => InStore Q) (fun _ => InStore R) := by
  unfold checkOutput
  split
  next => exact (demand_store raises).bind (fun _ => Triple.pure (fun _ holds => holds))
  next => exact Triple.throw (fun s holds => raises s.store holds)

theorem checkChanges_store (raises : ∀ db, Q db → R db) {before after : Inventory} :
    Triple (InStore (F := F) Q) (w.checkChanges order before after) (fun _ => InStore Q) (fun _ => InStore R) :=
  (demand_store raises).bind (fun _ => (demand_store raises).bind (fun _ => Triple.pure (fun _ holds => holds)))

theorem checkConflict_store (raises : ∀ db, Q db → R db) {before : Inventory} {p : Relative} :
    Triple (InStore Q) (checkConflict host before p) (fun _ => InStore Q) (fun _ => InStore R) :=
  (inFiles_store raises _).bind (fun _ => demand_store raises)

theorem review_store (raises : ∀ db, Q db → R db) {before : Inventory} {output : Option String} :
    Triple (InStore Q) (w.review host order before output) (fun _ => InStore Q) (fun _ => InStore R) := by
  refine (checkOutput_store raises).bind (fun _ => (inFiles_store raises _).bind (fun _ => ?_))
  refine (checkChanges_store raises).bind (fun _ => ?_)
  exact (Triple.forM_const (fun p _ => checkConflict_store raises)).bind (fun _ => Triple.pure (fun _ holds => holds))

theorem importPath_store (raises : ∀ db, Q db → R db) {after : Inventory} {p : Relative} :
    Triple (InStore Q) (importPath host after p) (fun _ => InStore Q) (fun _ => InStore R) :=
  Triple.ite (fun _ => inFiles_store raises _) (fun _ => inFiles_store raises _)

/-- The guarded body: what its two marks make of the store. -/
theorem work_store (early : ∀ db, P db → R db) (late : ∀ db, Q db → R db)
    (started : ∀ db, P db → Q {db with runtime := db.runtime.setAttempt attempt .running none none})
    (succeeded : ∀ db artifact, Q db →
      T {db with runtime := db.runtime.setAttempt attempt .succeeded (some input.finishedAt) (some artifact)}) :
    Triple (InStore P) (w.work lib host order input attempt) (fun _ => InStore T) (fun _ => InStore R) := by
  refine (launch_store early late started).bind (fun _ => (review_store late).bind (fun _ => ?_))
  refine (Triple.forM_const (fun p _ => importPath_store late)).bind (fun _ => ?_)
  exact (mark_store (fun db => succeeded db _)).bind (fun _ => Triple.pure (fun _ holds => holds))

end Store

/-- The guarded body returns with its attempt closed and raises with it open. -/
theorem work_live : Triple (InStore (fun db => db.runtime.attemptLive attempt)) (w.work lib host order input attempt)
    (fun _ => InStore (fun db => db.runtime.attemptClosed attempt))
    (fun _ => InStore (fun db => db.runtime.attemptLive attempt)) := by
  refine work_store (fun _ live => live) (fun _ live => live) (fun db live => ?_) (fun db artifact live => ?_)
  · obtain ⟨v,found,state⟩ := Runtime.setAttempt_state live .running none none
    exact ⟨v,found,.inr state⟩
  · obtain ⟨v,found,state⟩ := Runtime.setAttempt_state live .succeeded (some input.finishedAt) (some artifact)
    exact ⟨v,found,.inl state⟩

/-- The calls in front of the guarded body, on the files alone. -/
def prepare (host : WorkerHost F) : EStateM WorkerException F Unit := do
  host.resolveParent
  host.makeScratchRoot
  host.makeScratch

theorem inFiles_bind {α β : Type} (call : EStateM WorkerException F α)
    (f : α → EStateM WorkerException (WorkerState F) β) (s : WorkerState F) :
    (inFiles call >>= f) s = match call s.files with
      | .ok value files => f value {s with files}
      | .error e files => .error e {s with files} := by
  rw [bind_apply]
  unfold inFiles
  cases call s.files <;> rfl

theorem conclude_eq (s : WorkerState F) : w.conclude lib host order input attempt s =
    match prepare host s.files with
    | .ok _ files => w.guarded lib host order input attempt {s with files}
    | .error e files => .error e {s with files} := by
  unfold conclude prepare
  rw [inFiles_bind,bind_apply]
  cases host.resolveParent s.files with
  | error e f => rfl
  | ok _ f =>
    dsimp only
    rw [inFiles_bind,bind_apply]
    cases host.makeScratchRoot f with
    | error e f => rfl
    | ok _ f =>
      dsimp only
      rw [inFiles_bind]
      cases host.makeScratch f <;> rfl

theorem reserve_live {db store : Store} (reserved : w.reserve order input db = .ok (attempt,store)) :
    store.runtime.attemptLive attempt := by
  obtain ⟨booked,ok,equal⟩ := bind_ok.mp reserved
  cases pure_ok.mp equal
  cases outcome : db.runtime.reserveWorker input.attemptId order.session.sessionId order.workerType
      order.role.maxWorkersPerWake order.role.maxWorkersConcurrent w.policy.globalMaxAgents input.reservedAt with
  | error e =>
    rw [outcome] at ok
    cases ok
  | ok pair =>
    rw [outcome] at ok
    cases ok
    obtain ⟨same,live⟩ := Runtime.reserveWorker_live outcome
    exact same ▸ live

theorem closed_iff_work (w : WorkerSupervisor) (lib : Library) (host : WorkerHost F) (session : Session)
    (arguments : Fields) (input : WorkerInput) (s : WorkerState F) {order : WorkOrder} {attempt : String} {store : Store}
    (accepted : w.accept lib s.store session arguments input = .ok order)
    (reserved : w.reserve order input s.store = .ok (attempt,store)) :
    (endState (w.run lib host session arguments input s)).store.runtime.attemptClosed attempt ↔
      ∃ files, prepare host s.files = .ok () files ∧
        ∀ e next, w.work lib host order input attempt ⟨store,files⟩ = .error e next → e.caught := by
  have opened := reserve_live reserved
  have ran : w.run lib host session arguments input s = w.conclude lib host order input attempt {s with store} := by
    simp only [run,accepted,reserved]
  rw [ran,conclude_eq]
  cases prepared : prepare host s.files with
  | error e files => exact iff_of_false (Runtime.not_closed_of_live opened) (by simp)
  | ok _ files =>
    have body := @work_live F w lib host order input attempt ⟨store,files⟩ opened
    have only : (∃ files', (EStateM.Result.ok () files : EStateM.Result WorkerException F Unit) = .ok () files' ∧
        ∀ e next, w.work lib host order input attempt ⟨store,files'⟩ = .error e next → e.caught) ↔
        ∀ e next, w.work lib host order input attempt ⟨store,files⟩ = .error e next → e.caught := by
      constructor
      · rintro ⟨_,same,handled⟩
        cases same
        exact handled
      · intro handled
        exact ⟨files,rfl,handled⟩
    rw [only]
    dsimp only
    unfold guarded
    dsimp only
    generalize w.work lib host order input attempt ⟨store,files⟩ = result at body ⊢
    cases result with
    | ok value next => exact iff_of_true body (by simp)
    | error e next =>
      by_cases caught : e.caught
      · obtain ⟨v,found,state⟩ := Runtime.setAttempt_state body .failed (some input.finishedAt) none
        refine iff_of_true ?_ ?_
        · simp only [endState,if_pos caught]
          exact ⟨v,found,.inr state⟩
        · intro e' next' same
          cases same
          exact caught
      · refine iff_of_false ?_ ?_
        · simp only [endState,if_neg caught]
          exact Runtime.not_closed_of_live body
        · intro handled
          exact caught (handled e next rfl)

/-! What the calls of the host raise. -/

/-- A call that also notes what it raises. -/
def noted {α : Type} (call : EStateM WorkerException F α) : EStateM WorkerException (F × List WorkerException) α := fun s =>
  match call s.1 with
  | .ok value files => .ok value (files,s.2)
  | .error e files => .error e (files,s.2 ++ [e])

def noting (host : WorkerHost F) : WorkerHost (F × List WorkerException) where
  resolveParent := noted host.resolveParent
  makeScratchRoot := noted host.makeScratchRoot
  makeScratch := noted host.makeScratch
  copyScopedInput p := noted (host.copyScopedInput p)
  handOver uid gid := noted (host.handOver uid gid)
  snapshotTree := noted host.snapshotTree
  runWorker workerType model prompt attempt timeoutSeconds :=
    noted (host.runWorker workerType model prompt attempt timeoutSeconds)
  regularFileState p := noted (host.regularFileState p)
  unlinkScoped p := noted (host.unlinkScoped p)
  replaceRegularFile p := noted (host.replaceRegularFile p)
  removeScratch s := (host.removeScratch s.1,s.2)

/-- What the calls of the guarded body raise, from the files that it finds. -/
def raised (w : WorkerSupervisor) (lib : Library) (host : WorkerHost F) (order : WorkOrder) (input : WorkerInput)
    (attempt : String) (store : Store) (files : F) : List WorkerException :=
  (endState (w.work lib (noting host) order input attempt ⟨store,(files,[])⟩)).files.2

section Noting
variable {α β : Type}

/-- The second program does what the first does and notes what its calls raise. What it raises of its
own is an `Exception`. -/
def Notes (x : EStateM WorkerException (WorkerState F) α)
    (y : EStateM WorkerException (WorkerState (F × List WorkerException)) α) : Prop :=
  ∀ store files log, match x ⟨store,files⟩ with
    | .ok a s => y ⟨store,(files,log)⟩ = .ok a ⟨s.store,(s.files,log)⟩
    | .error e s => ∃ told, y ⟨store,(files,log)⟩ = .error e ⟨s.store,(s.files,told)⟩ ∧ (told = log ++ [e] ∨ told = log ∧ e.caught)

theorem Notes.pure (a : α) : Notes (F := F) (Pure.pure a) (Pure.pure a) := fun _ _ _ => rfl

theorem Notes.throw {e : WorkerException} (caught : e.caught) :
    Notes (throw e : EStateM WorkerException (WorkerState F) α) (throw e) :=
  fun _ _ log => ⟨log,rfl,.inr ⟨rfl,caught⟩⟩

theorem Notes.bind {x : EStateM WorkerException (WorkerState F) α} {y : EStateM WorkerException (WorkerState (F × List WorkerException)) α}
    {f : α → EStateM WorkerException (WorkerState F) β} {g : α → EStateM WorkerException (WorkerState (F × List WorkerException)) β}
    (first : Notes x y) (later : ∀ a, Notes (f a) (g a)) : Notes (x >>= f) (y >>= g) := by
  intro store files log
  have one := first store files log
  rw [bind_apply,bind_apply]
  cases ran : x ⟨store,files⟩ with
  | ok a s =>
    rw [ran] at one
    rw [one]
    exact later a s.store s.files log
  | error e s =>
    rw [ran] at one
    obtain ⟨told,same,left⟩ := one
    rw [same]
    exact ⟨told,rfl,left⟩

theorem Notes.call (call : EStateM WorkerException F α) : Notes (inFiles call) (inFiles (noted call)) := by
  intro store files log
  unfold inFiles noted
  cases call files with
  | ok a after => rfl
  | error e after => exact ⟨_,rfl,.inl rfl⟩

theorem Notes.mark {state : AttemptState} {finishedAt artifact : Option String} :
    Notes (F := F) (mark attempt state finishedAt artifact) (WorkerSupervisor.mark attempt state finishedAt artifact) :=
  fun _ _ _ => rfl

theorem Notes.demand {p : Prop} [Decidable p] {message : String} :
    Notes (F := F) (demand p (.worker message)) (WorkerSupervisor.demand p (.worker message)) := by
  unfold WorkerSupervisor.demand
  split
  next => exact Notes.pure ()
  next => exact Notes.throw trivial

theorem Notes.forM {f : α → EStateM WorkerException (WorkerState F) PUnit}
    {g : α → EStateM WorkerException (WorkerState (F × List WorkerException)) PUnit} (each : ∀ a, Notes (f a) (g a))
    (items : List α) : Notes (items.forM f) (items.forM g) := by
  induction items with
  | nil => exact Notes.pure _
  | cons a rest ih => exact (each a).bind (fun _ => ih)

theorem launch_notes : Notes (w.launch host order attempt) (w.launch (noting host) order attempt) := by
  have hand : Notes (w.handOver host) (w.handOver (noting host)) := by
    unfold handOver
    split
    next => exact Notes.call _
    next => exact Notes.pure ()
  refine (Notes.forM (fun _ => Notes.call _) _).bind (fun _ => hand.bind (fun _ => (Notes.call _).bind (fun before => ?_)))
  exact Notes.mark.bind (fun _ => (Notes.call _).bind (fun output => Notes.pure (before,output)))

theorem review_notes {before : Inventory} {output : Option String} :
    Notes (w.review host order before output) (w.review (noting host) order before output) := by
  have read : Notes (F := F) (w.checkOutput output) (w.checkOutput output) := by
    unfold checkOutput
    split
    next => exact Notes.demand.bind (fun _ => Notes.pure _)
    next => exact Notes.throw trivial
  have changes {after : Inventory} : Notes (F := F) (w.checkChanges order before after) (w.checkChanges order before after) :=
    Notes.demand.bind (fun _ => Notes.demand.bind (fun _ => Notes.pure _))
  refine read.bind (fun _ => (Notes.call _).bind (fun _ => changes.bind (fun _ => ?_)))
  refine (Notes.forM (fun _ => (Notes.call _).bind (fun _ => Notes.demand)) _).bind (fun _ => ?_)
  exact Notes.pure _

theorem work_notes : Notes (w.work lib host order input attempt) (w.work lib (noting host) order input attempt) := by
  have import_ (after : Inventory) (p : Relative) : Notes (importPath host after p) (importPath (noting host) after p) := by
    unfold importPath
    split
    next => exact Notes.call _
    next => exact Notes.call _
  refine launch_notes.bind (fun _ => review_notes.bind (fun _ => ?_))
  exact (Notes.forM (import_ _) _).bind (fun _ => Notes.mark.bind (fun _ => Notes.pure _))

end Noting

/-- Once its attempt is reserved, a run closes it exactly if the workspace resolves, the scratch
directory can be made and what the calls of the guarded body raise, if anything, is an `Exception`. -/
theorem attempt_closed_iff (w : WorkerSupervisor) (lib : Library) (host : WorkerHost F) (session : Session)
    (arguments : Fields) (input : WorkerInput) (s : WorkerState F) {order : WorkOrder} {attempt : String} {store : Store}
    (accepted : w.accept lib s.store session arguments input = .ok order)
    (reserved : w.reserve order input s.store = .ok (attempt,store)) :
    (endState (w.run lib host session arguments input s)).store.runtime.attemptClosed attempt ↔
      ∃ files, prepare host s.files = .ok () files ∧ ∀ e ∈ w.raised lib host order input attempt store files, e.caught := by
  have told (files : F) : (∀ e ∈ w.raised lib host order input attempt store files, e.caught) ↔
      ∀ e next, w.work lib host order input attempt ⟨store,files⟩ = .error e next → e.caught := by
    have both := @work_notes F w lib host order input attempt store files []
    unfold raised
    cases ran : w.work lib host order input attempt ⟨store,files⟩ with
    | ok result next =>
      rw [ran] at both
      rw [both]
      exact iff_of_true (List.forall_mem_nil _) (by simp)
    | error e next =>
      rw [ran] at both
      obtain ⟨log,same,left⟩ := both
      rw [same]
      rcases left with rfl | ⟨rfl,caught⟩
      · simp [endState]
      · exact iff_of_true (List.forall_mem_nil _) (by simpa using caught)
  rw [closed_iff_work w lib host session arguments input s accepted reserved]
  exact exists_congr (fun files => and_congr_right' (told files).symm)

/-! A run of a researcher without files to read. -/

def clerk : WorkerSupervisor where
  policy := ⟨"org","",[],[("po",⟨⟨[]⟩,["researcher"],4,2,0⟩)],"","","",0,5,"digest"⟩
  lunaModels := [("researcher","luna")]
  timeoutSeconds := 900
  maxPatchBytes := 100
  maxOutputBytes := 100
  worker := none

def plainText : Library where
  render _ := ""
  repr name := name
  closingKeyword _ := false
  b64decode _ := none
  sha256 _ := ""

def inspect : Fields := [("type",.str "researcher"),("task",.str "inspect")]

def clock : WorkerInput := ⟨⟨0,Instant.zero_bounded⟩,"worker-1",⟨0,Instant.zero_bounded⟩,""⟩

def awake : Store :=
  Store.empty.step (.runtime (.createSession "session-1" "wake-1" "org" "po" "digest" [] ⟨0,Instant.zero_bounded⟩ 600 5))

def wake : Session := ⟨"session-1","wake-1","org","po","digest",[],(⟨600000000,by decide⟩ : Instant).isoText⟩

/-- A host without files whose parent workspace is given by what its resolution answers. -/
def barren (resolveParent : EStateM WorkerException Unit Unit) : WorkerHost Unit where
  resolveParent
  makeScratchRoot := pure ()
  makeScratch := pure ()
  copyScopedInput _ := pure ()
  handOver _ _ := pure ()
  snapshotTree := pure []
  runWorker _ _ _ _ _ := pure (some "done")
  regularFileState _ := pure absentState
  unlinkScoped _ := pure ()
  replaceRegularFile _ := pure ()
  removeScratch := id

theorem attempt_closed_iff_inspect :
    (endState (clerk.run plainText (barren (pure ())) wake inspect clock ⟨awake,()⟩)).store.runtime.attemptClosed
      "worker-1" := by
  have accepted : clerk.accept plainText awake wake inspect clock =
    .ok ⟨wake,⟨⟨[]⟩,["researcher"],4,2,0⟩,"researcher","inspect","luna",[],[]⟩ := rfl
  refine (attempt_closed_iff clerk plainText (barren (pure ())) wake inspect clock ⟨awake,()⟩ accepted rfl).mpr ⟨(),rfl,?_⟩
  decide

/-- The parent workspace is gone when the worker is to be started: the run raises, and its
attempt stays accepted. -/
theorem missing_workspace_unclosed : ∃ order attempt store,
    clerk.accept plainText awake wake inspect clock = .ok order ∧ clerk.reserve order clock awake = .ok (attempt,store) ∧
      ¬ (endState (clerk.run plainText (barren (throw (.exception "FileNotFoundError"))) wake inspect clock
        ⟨awake,()⟩)).store.runtime.attemptClosed attempt :=
  ⟨_,_,_,rfl,rfl,by decide⟩

end WorkerSupervisor
end SjgControl

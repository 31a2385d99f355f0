import SjgControl.Machine

/-! `_terminate_group`, one call of the operating system after another, among processes that run,
fork, leave the group, exit and are reaped between any two of its calls. -/
namespace SjgControl
namespace ProcessGroup

/-- A process group: its number, and which of the uses of that number it is. -/
structure Group where
  pgid : Int
  use : Nat
  deriving DecidableEq

/-- A process of the table. One that has exited stays until it is reaped. -/
structure Process where
  pid : Int
  group : Group
  birthToken : String
  running : Bool
  killed : Bool
  deriving DecidableEq

inductive Signal where
  | sigterm
  | sigkill
  deriving DecidableEq

structure Recorded where
  pid : Int
  group : Group
  birthToken : String

/-- Where `_terminate_group` stands: before the call it makes next. -/
inductive Point where
  | identify
  | terminate
  | poll
  | identifyAgain
  | kill
  | returned (dead : Bool)
  | raised
  deriving DecidableEq

inductive Event where
  | mismatch
  | signal (signal : Signal)
  deriving DecidableEq

structure State where
  target : Recorded
  point : Point
  table : List Process
  log : List Event

/-- `call` is the next call of `_terminate_group`, which may fail for a reason of its own, and
`late` its clock past the deadline; all others are steps of the processes. -/
inductive Action where
  | call (fault : Bool)
  | late
  | exit (pid : Int)
  | reap (pid : Int)
  | fork (parent pid : Int) (birthToken : String)
  | leave (pid : Int) (use : Nat)
  | start (process : Process)

def lookup (pid : Int) (table : List Process) : Option Process := table.find? (fun p => p.pid = pid)

/-- `process_birth_token`; none is `HostProcessError`. -/
def processBirthToken (fault : Bool) (pid : Int) (table : List Process) : Option String :=
  if pid ≤ 0 ∨ fault = true then none else (lookup pid table).map Process.birthToken

/-- `os.killpg`; none is `ProcessLookupError`. -/
def killpg (signal : Signal) (pgid : Int) (table : List Process) : Option (List Process) :=
  if table.any (fun p => p.group.pgid = pgid) then
    some (table.map (fun p =>
      if p.group.pgid = pgid ∧ signal = .sigkill then {p with killed := true} else p))
  else none

def free (pid : Int) (table : List Process) : Bool :=
  table.all (fun p => p.pid ≠ pid ∧ p.group.pgid ≠ pid)

def call (s : State) (fault : Bool) : State :=
  match s.point with
  | .identify =>
    match processBirthToken fault s.target.pid s.table with
    | none => {s with point := .returned true}
    | some birth =>
      if birth ≠ s.target.birthToken then {s with point := .returned false, log := s.log ++ [.mismatch]}
      else {s with point := .terminate}
  | .terminate =>
    if fault then {s with point := .raised}
    else match killpg .sigterm s.target.group.pgid s.table with
      | none => {s with point := .returned true}
      | some table => {s with point := .poll, table := table, log := s.log ++ [.signal .sigterm]}
  | .poll =>
    if fault then {s with point := .raised}
    else match lookup s.target.pid s.table with
      | none => {s with point := .returned true}
      | some _ => s
  | .identifyAgain =>
    match processBirthToken fault s.target.pid s.table with
    | none => {s with point := .returned true}
    | some birth =>
      if birth ≠ s.target.birthToken then {s with point := .returned false, log := s.log ++ [.mismatch]}
      else {s with point := .kill}
  | .kill =>
    if fault then {s with point := .raised}
    else match killpg .sigkill s.target.group.pgid s.table with
      | none => {s with point := .returned true}
      | some table => {s with point := .returned true, table := table, log := s.log ++ [.signal .sigkill]}
  | .returned _ => s
  | .raised => s

/-- What the processes do by themselves. A process that has been sent `SIGKILL` forks no more,
and no process of another origin is born into the recorded group. -/
def evolve (recorded : Group) (table : List Process) : Action → List Process
  | .exit pid => table.map (fun p => if p.pid = pid then {p with running := false} else p)
  | .reap pid => table.filter (fun p => ¬ (p.pid = pid ∧ p.running = false))
  | .fork parent pid birthToken =>
    match lookup parent table with
    | some p => if p.running ∧ ¬ p.killed ∧ free pid table then table ++ [⟨pid,p.group,birthToken,true,false⟩] else table
    | none => table
  | .leave pid use =>
    if recorded ≠ ⟨pid,use⟩ then table.map (fun p => if p.pid = pid then {p with group := ⟨pid,use⟩} else p)
    else table
  | .start process =>
    if process.group ≠ recorded ∧ free process.pid table then table ++ [process] else table
  | .call _ => table
  | .late => table

def step (s : State) (a : Action) : State :=
  match a with
  | .call fault => call s fault
  | .late => if s.point = .poll then {s with point := .identifyAgain} else s
  | other => {s with table := evolve s.target.group s.table other}

def start (target : Recorded) (table : List Process) : State := ⟨target,.identify,table,[]⟩

/-- Each process of the recorded group has exited or has been sent `SIGKILL`. -/
def Over (recorded : Group) (table : List Process) : Prop :=
  ∀ p ∈ table, p.group = recorded → p.running = true → p.killed = true

def Proved (s : State) : Prop := s.point = .returned true → Over s.target.group s.table

/-- The call fails to find the leader: its identity cannot be read, or its id is not there. -/
def Lost (s : State) (fault : Bool) : Prop :=
  match s.point with
  | .identify => processBirthToken fault s.target.pid s.table = none
  | .identifyAgain => processBirthToken fault s.target.pid s.table = none
  | .poll => fault = false ∧ lookup s.target.pid s.table = none
  | _ => False

/-- Where the leader is not found, the others of its group are no more. -/
def Gone (s : State) (a : Action) : Prop :=
  ∀ fault, a = .call fault → Lost s fault → Over s.target.group s.table

/-- No signal is sent after a birth token that does not match. -/
def Silent (log : List Event) : Prop :=
  ∀ before after, log = before ++ .mismatch::after → ∀ signal, .signal signal ∉ after

theorem over_killpg {signal : Signal} {recorded : Group} {table after : List Process}
    (sent : killpg signal recorded.pgid table = some after) (kill : signal = .sigkill) : Over recorded after := by
  subst kill
  unfold killpg at sent
  split at sent
  next =>
    rw [← Option.some.inj sent]
    intro p member same running
    obtain ⟨q,_,rfl⟩ := List.mem_map.mp member
    by_cases inside : q.group.pgid = recorded.pgid
    · rw [if_pos ⟨inside,rfl⟩]
    · rw [if_neg (fun both => inside both.1)] at same
      exact absurd (congrArg Group.pgid same) inside
  next => cases sent

theorem over_of_killpg_none {signal : Signal} {recorded : Group} {table : List Process}
    (absent : killpg signal recorded.pgid table = none) : Over recorded table := by
  unfold killpg at absent
  split at absent
  next => cases absent
  next none_ =>
    intro p member same _
    refine absurd ?_ none_
    exact List.any_eq_true.mpr ⟨p,member,by simp [same]⟩

theorem over_evolve {recorded : Group} {table : List Process} (dead : Over recorded table) (a : Action) :
    Over recorded (evolve recorded table a) := by
  intro p member same running
  cases a with
  | exit pid =>
    obtain ⟨q,inside,rfl⟩ := List.mem_map.mp member
    split at running
    next => cases running
    next other =>
      rw [if_neg other] at same ⊢
      exact dead q inside same running
  | reap pid => exact dead p (List.mem_filter.mp member |>.1) same running
  | fork parent pid birthToken =>
    simp only [evolve] at member
    split at member
    next q found =>
      split at member
      next may =>
        rcases List.mem_append.mp member with old | new
        · exact dead p old same running
        · rw [List.mem_singleton.mp new] at same
          have alive := dead q (List.mem_of_find?_eq_some found) same may.1
          exact absurd alive may.2.1
      next => exact dead p member same running
    next => exact dead p member same running
  | leave pid use =>
    simp only [evolve] at member
    split at member
    next other =>
      obtain ⟨q,inside,rfl⟩ := List.mem_map.mp member
      split at same
      next => exact absurd same.symm other
      next stays =>
        rw [if_neg stays] at running ⊢
        exact dead q inside same running
    next => exact dead p member same running
  | start process =>
    simp only [evolve] at member
    split at member
    next other =>
      rcases List.mem_append.mp member with old | new
      · exact dead p old same running
      · rw [List.mem_singleton.mp new] at same
        exact absurd same other.1
    next => exact dead p member same running
  | call fault => exact dead p member same running
  | late => exact dead p member same running

/-- The answer of one call: it is true wrongly only where the leader is not found. -/
theorem proved_call {s : State} (fault : Bool) (before : Proved s) :
    Proved (call s fault) ↔ (Lost s fault → Over s.target.group s.table) := by
  unfold Proved Lost call
  cases at_ : s.point with
  | identify =>
    cases found : processBirthToken fault s.target.pid s.table with
    | none => simp
    | some birth =>
      by_cases same : birth = s.target.birthToken <;> simp [same]
  | terminate =>
    cases fault with
    | true => simp
    | false =>
      cases sent : killpg .sigterm s.target.group.pgid s.table with
      | none => simpa using over_of_killpg_none sent
      | some table => simp
  | poll =>
    cases fault with
    | true => simp
    | false =>
      cases found : lookup s.target.pid s.table with
      | none => simp
      | some p => simp [at_]
  | identifyAgain =>
    cases found : processBirthToken fault s.target.pid s.table with
    | none => simp
    | some birth =>
      by_cases same : birth = s.target.birthToken <;> simp [same]
  | kill =>
    cases fault with
    | true => simp
    | false =>
      cases sent : killpg .sigkill s.target.group.pgid s.table with
      | none => simpa using over_of_killpg_none sent
      | some table => simpa using over_killpg sent rfl
  | returned dead =>
    simp only [at_,false_implies,iff_true]
    intro returned
    exact before (at_.trans returned)
  | raised => simp [at_]

theorem proved_evolve {s : State} (before : Proved s) (a : Action) :
    Proved {s with table := evolve s.target.group s.table a} := fun returned => over_evolve (before returned) a

theorem proved_step {s : State} (before : Proved s) (a : Action) : Proved (step s a) ↔ Gone s a := by
  cases a with
  | call fault =>
    refine (proved_call fault before).trans ⟨?_,fun gone lost => gone fault rfl lost⟩
    rintro kept _ same lost
    cases same
    exact kept lost
  | late =>
    refine ⟨fun _ fault other => (by cases other),fun _ returned => ?_⟩
    simp only [step] at returned ⊢
    split at returned
    next => cases returned
    next other =>
      rw [if_neg other]
      exact before returned
  | exit pid => exact ⟨fun _ fault other => (by cases other),fun _ => proved_evolve before (.exit pid)⟩
  | reap pid => exact ⟨fun _ fault other => (by cases other),fun _ => proved_evolve before (.reap pid)⟩
  | fork parent pid birthToken =>
    exact ⟨fun _ fault other => (by cases other),fun _ => proved_evolve before (.fork parent pid birthToken)⟩
  | leave pid use => exact ⟨fun _ fault other => (by cases other),fun _ => proved_evolve before (.leave pid use)⟩
  | start process => exact ⟨fun _ fault other => (by cases other),fun _ => proved_evolve before (.start process)⟩

theorem silent_append {log : List Event} (none_ : .mismatch ∉ log) (event : Event) :
    Silent (log ++ [event]) := by
  intro before after same signal member
  rcases List.eq_nil_or_concat after with rfl | ⟨front,last,rfl⟩
  · cases member
  · rw [List.concat_eq_append,← List.cons_append,← List.append_assoc] at same
    have parts := List.append_inj' same rfl
    exact none_ (parts.1 ▸ List.mem_append_right before List.mem_cons_self)

/-- Nothing follows a mismatch: the call has returned with it. -/
def Settled (s : State) : Prop := Silent s.log ∧ (.mismatch ∈ s.log → s.point = .returned false)

theorem call_log (s : State) (fault : Bool) :
    (call s fault).log = s.log ∨ (∃ signal, (call s fault).log = s.log ++ [.signal signal]) ∨
      ((call s fault).log = s.log ++ [.mismatch] ∧ (call s fault).point = .returned false) := by
  unfold call
  cases s.point with
  | identify | identifyAgain =>
    dsimp only
    split
    next => exact .inl rfl
    next =>
      split
      next => exact .inr (.inr ⟨rfl,rfl⟩)
      next => exact .inl rfl
  | terminate | kill =>
    dsimp only
    split
    next => exact .inl rfl
    next =>
      split
      next => exact .inl rfl
      next => exact .inr (.inl ⟨_,rfl⟩)
  | poll =>
    dsimp only
    split
    next => exact .inl rfl
    next => split <;> exact .inl rfl
  | returned dead => exact .inl rfl
  | raised => exact .inl rfl

theorem settled_call {s : State} (settled : Settled s) (fault : Bool) : Settled (call s fault) := by
  by_cases over_ : s.point = .returned false
  · have still : call s fault = s := by simp [call,over_]
    rw [still]
    exact settled
  have none_ : .mismatch ∉ s.log := fun inside => over_ (settled.2 inside)
  unfold Settled
  rcases call_log s fault with same | ⟨signal,same⟩ | ⟨same,returned⟩
  · rw [same]
    exact ⟨settled.1,fun inside => absurd inside none_⟩
  · rw [same]
    exact ⟨silent_append none_ (.signal signal),fun inside => absurd inside (by simpa using none_)⟩
  · rw [same]
    exact ⟨silent_append none_ .mismatch,fun _ => returned⟩

theorem settled_step (s : State) (a : Action) (settled : Settled s) : Settled (step s a) := by
  cases a with
  | call fault => exact settled_call settled fault
  | late =>
    simp only [step]
    split
    next at_ => exact ⟨settled.1,fun inside => by cases at_.symm.trans (settled.2 inside)⟩
    next => exact settled
  | _ => exact settled

/-- What `_terminate_group` has proved dead is dead, in every state of a run, exactly if the rest
of the group is gone wherever the leader is not found; and a mismatch is always the end of it. -/
theorem proved_dead_iff (target : Recorded) (table : List Process) (actions : List Action) :
    ((∀ t ∈ Machine.trace step (start target table) actions, Proved t.after) ∧
        Silent (Machine.run step (start target table) actions).log) ↔
      Machine.Along step Gone (start target table) actions := by
  have kept := @Machine.promise_iff_along _ _ step Proved (fun _ => True) (fun t => Proved t.after) Gone
    (fun s a before _ => ⟨proved_step before a,(proved_step before a).mpr⟩) (start target table)
    (fun other => by cases other) actions (fun _ _ => trivial)
  have silent : Settled (Machine.run step (start target table) actions) := by
    refine Machine.invariant_run step settled_step ?_ actions
    refine ⟨?_,fun inside => (by cases inside)⟩
    intro before after same
    simp [start] at same
  exact ⟨fun both => kept.mp both.1,fun gone => ⟨kept.mpr gone,silent.1⟩⟩

theorem returned_run {s : State} {dead : Bool} (returned : s.point = .returned dead) (actions : List Action) :
    (Machine.run step s actions).point = .returned dead := by
  refine @Machine.invariant_run _ _ step (fun s => s.point = .returned dead) ?_ s returned actions
  intro s a at_
  cases a <;> simp [step,call,at_]

/-- At a process of another birth the call returns with its first reading. -/
theorem mismatch_run {target : Recorded} {table : List Process} {p : Process} (positive : 0 < target.pid)
    (found : lookup target.pid table = some p) (other : p.birthToken ≠ target.birthToken) (rest : List Action) :
    (Machine.run step (start target table) (.call false::rest)).point = .returned false := by
  have read : processBirthToken false target.pid table = some p.birthToken := by
    simp [processBirthToken,found,Int.not_le.mpr positive]
  rw [Machine.run_cons]
  exact returned_run (by simp [step,start,call,read,other]) rest

def family : List Process := [⟨42,⟨42,0⟩,"birth",true,false⟩,⟨43,⟨42,0⟩,"later",true,false⟩]

def leader : Recorded := ⟨42,⟨42,0⟩,"birth"⟩

def outlived : List Action := [.call false,.call false,.exit 42,.reap 42]

theorem member_outlives : ¬ ∀ (target : Recorded) (table : List Process) (actions : List Action),
    (∀ t ∈ Machine.trace step (start target table) actions, Proved t.after) ∧
      Silent (Machine.run step (start target table) actions).log := by
  intro every
  have traced := Machine.trace_concat step (start leader family) outlived (.call false)
  have kept := (every leader family (outlived ++ [.call false])).1
  rw [traced] at kept
  have proved := kept _ (List.mem_append_right _ List.mem_cons_self)
  have returned : (step (Machine.run step (start leader family) outlived) (.call false)).point = .returned true := by
    decide
  have alive := proved returned ⟨43,⟨42,0⟩,"later",true,false⟩ (by decide) (by decide) rfl
  cases alive

end ProcessGroup
end SjgControl

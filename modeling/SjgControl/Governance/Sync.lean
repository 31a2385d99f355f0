import SjgControl.Governance
import SjgControl.Machine

/-! Any number of syncs and verifier runs over one journal, each at its own point: what a
row of the journal goes through, and how often the writes behind it are started. -/
namespace SjgControl
open Relational Machine PythonText

/-- A sync by what it goes by once its snapshot is taken. -/
structure Sync where
  monitor : GovernanceMonitor
  seen : Snapshot

/-- What two syncs have in common that see the same snapshot under one policy. -/
structure View where
  policyDigest : String
  principalGithub : String
  seen : Snapshot
  deriving DecidableEq

def Sync.view (r : Sync) : View := ⟨r.monitor.backend.policy.policyDigest,r.monitor.principalGithub,r.seen⟩

/-- Where a sync is in its loop over the actions, between two transactions or API calls. -/
inductive SyncPoint where
  | pending (todo : List QueueAction)
  | reserved (action : QueueAction) (operationId : String) (todo : List QueueAction)
  | writing (action : QueueAction) (operationId : String) (point : ApplyPoint) (todo : List QueueAction)
  | settling (operationId : String) (state : ReconcileState) (result : Json) (todo : List QueueAction)
  | stopped

/-- A fresh operation id, the clock, and what GitHub does with the next call. -/
structure SyncInput where
  operationId : String
  now : Instant
  reply : Reply

/-- What one step of a sync does: `claimed` is the key whose writes it starts, `posts` the
action it posts an issue for. -/
structure Effect where
  journal : Journal
  remote : GitHub
  point : SyncPoint
  claimed : Option String
  posts : Option QueueAction

namespace Sync
variable (lib : MonitorLibrary) (r : Sync)

def keyOf (a : QueueAction) : String := r.monitor.actionKey lib r.seen.queueIssue a

def orgSlug : String := (r.monitor.orgSlug.toOption).getD ""

def still (journal : Journal) (remote : GitHub) (point : SyncPoint) : Effect := ⟨journal,remote,point,none,none⟩

/-- `_apply` up to its claim: a row that is not planned any more is left as it is. -/
def reserve (journal : Journal) (remote : GitHub) (input : SyncInput) (a : QueueAction) (todo : List QueueAction) :
    Effect :=
  let out := atomically journal (journal.reserveReconcile input.operationId (r.keyOf lib a) a.sourceKey a.operation
    (r.monitor.preconditionJson r.seen.queueIssue a) input.now)
  match out.result with
  | .error _ => still out.state remote .stopped
  | .ok row =>
    if row.state = .planned then still out.state remote (.reserved a row.operationId todo)
    else still out.state remote (.pending todo)

def claim (journal : Journal) (remote : GitHub) (input : SyncInput) (a : QueueAction) (operationId : String)
    (todo : List QueueAction) : Effect :=
  let out := atomically journal (journal.markReconcileApplying operationId input.now)
  match out.result with
  | .error _ => still out.state remote .stopped
  | .ok () => ⟨out.state,remote,.writing a operationId a.start todo,some (r.keyOf lib a),none⟩

def posts (a : QueueAction) : ApplyPoint → Option QueueAction
  | .open_ => some a
  | _ => none

def write (journal : Journal) (remote : GitHub) (input : SyncInput) (a : QueueAction) (operationId : String)
    (point : ApplyPoint) (todo : List QueueAction) : Effect :=
  match r.monitor.advance lib remote r.orgSlug r.seen.queueIssue a input.reply point with
  | .next remote later => ⟨journal,remote,.writing a operationId later todo,none,posts a point⟩
  | .ended remote state result => ⟨journal,remote,.settling operationId state result todo,none,posts a point⟩

def settle (journal : Journal) (remote : GitHub) (input : SyncInput) (operationId : String) (state : ReconcileState)
    (result : Json) (todo : List QueueAction) : Effect :=
  let out := atomically journal (journal.finishReconcile operationId state (some result) input.now)
  match out.result with
  | .error _ => still out.state remote .stopped
  | .ok () => still out.state remote (.pending todo)

def step (journal : Journal) (remote : GitHub) (input : SyncInput) : SyncPoint → Effect
  | .pending [] => still journal remote .stopped
  | .pending (a::todo) => r.reserve lib journal remote input a todo
  | .reserved a operationId todo => r.claim lib journal remote input a operationId todo
  | .writing a operationId point todo => r.write lib journal remote input a operationId point todo
  | .settling operationId state result todo => settle journal remote input operationId state result todo
  | .stopped => still journal remote .stopped

end Sync

/-- `pending_reconciliations`: `ORDER BY created_at,operation_id`. -/
def Journal.pendingReconciliations (db : Journal) : List ReconcileOperation :=
  (db.reconciliations.select (fun r => r.state = .verifyPending)).insertionSort (fun a b =>
    a.createdAt < b.createdAt ∨ a.createdAt = b.createdAt ∧ a.operationId ≤ b.operationId)

/-- The state and the result that `resolve_pending` writes, if the answer decides. -/
def Verification.settlement (v : Verification) : Option (ReconcileState × Json) :=
  match v.proof with
  | .present => some (.succeeded,.obj ((v.result.filter (fun fields => !fields.isEmpty)).getD [("verified",.bool true)]))
  | .absent | .conflict => some (.deadLetter,
      .obj [("proof",.str v.proof.value),("detail",(v.detail.map Json.str).getD .null)])
  | .unknown => none

/-- `started` are the keys claimed so far, `opened` the issues that syncs have posted; a sync
or a verifier run that ends early takes no further step. -/
structure MonitorRun where
  journal : Journal
  remote : GitHub
  syncs : List (Sync × SyncPoint)
  resolvers : Nat → Option (List ReconcileOperation)
  started : List String
  opened : List (Sync × QueueAction)

inductive MonitorAction where
  -- a sync whose reads showed it `seen`
  | sync (monitor : GovernanceMonitor) (seen : GitHub)
  | advance (i : Nat) (input : SyncInput)
  | resolve (j : Nat)
  | visit (j : Nat) (answer : Verification) (now : Instant)
  -- what others do to the repositories
  | remote (next : GitHub)

namespace MonitorRun
variable (lib : MonitorLibrary)

def starting (db : Journal) (remote : GitHub) : MonitorRun :=
  ⟨{db with reconciliations := .empty},remote,[],fun _ => none,[],[]⟩

def setRows (s : MonitorRun) (j : Nat) (rows : List ReconcileOperation) : Nat → Option (List ReconcileOperation) :=
  fun k => if k = j then some rows else s.resolvers k

def take (s : MonitorRun) (i : Nat) (r : Sync) (e : Effect) : MonitorRun :=
  {s with
    journal := e.journal
    remote := e.remote
    syncs := s.syncs.set i (r,e.point)
    started := s.started ++ e.claimed.toList
    opened := s.opened ++ e.posts.toList.map (fun a => (r,a))}

def step (s : MonitorRun) : MonitorAction → MonitorRun
  | .sync monitor seen =>
    match monitor.snapshot lib seen with
    | .error _ => s
    | .ok snapshot =>
      if snapshot.conflicts = [] then {s with syncs := s.syncs ++ [(⟨monitor,snapshot⟩,.pending snapshot.actions)]}
      else s
  | .advance i input =>
    match s.syncs[i]? with
    | some (r,point) => s.take i r (r.step lib s.journal s.remote input point)
    | none => s
  | .resolve j => {s with resolvers := s.setRows j s.journal.pendingReconciliations}
  | .visit j answer now =>
    match s.resolvers j with
    | some (row::rest) =>
      match answer.settlement with
      | none => {s with resolvers := s.setRows j rest}
      | some (state,result) =>
        match s.journal.finishReconcile row.operationId state (some result) now with
        | .ok ((),journal) => {s with journal,resolvers := s.setRows j rest}
        | .error _ => {s with resolvers := s.setRows j []}
    | _ => s
  | .remote next => {s with remote := next}

end MonitorRun

/-! What the three journal operations do to the rows. -/

def ReconcileState.successors : ReconcileState → List ReconcileState
  | .planned => [.applying]
  | .applying => [.verifyPending,.succeeded,.deadLetter]
  | .verifyPending => [.succeeded,.deadLetter]
  | .succeeded => []
  | .deadLetter => []

namespace ReconcileOperation

/-- What may become of a row in one step. -/
structure Follows (before after : ReconcileOperation) : Prop where
  id : after.operationId = before.operationId
  key : after.idempotencyKey = before.idempotencyKey
  write : (after.sourceKey,after.operation,after.preconditionJson) =
    (before.sourceKey,before.operation,before.preconditionJson)
  state : after = before ∨ after.state ∈ before.state.successors

theorem Follows.refl (r : ReconcileOperation) : Follows r r := ⟨rfl,rfl,rfl,.inl rfl⟩

theorem Follows.unplanned {before after : ReconcileOperation} (follows : Follows before after)
    (claimed : before.state ≠ .planned) : after.state ≠ .planned := by
  rcases follows.state with same | moved
  · exact same ▸ claimed
  · intro planned
    rw [planned] at moved
    cases at_ : before.state with
    | planned => exact claimed at_
    | applying => simp [at_,ReconcileState.successors] at moved
    | verifyPending => simp [at_,ReconcileState.successors] at moved
    | succeeded => simp [at_,ReconcileState.successors] at moved
    | deadLetter => simp [at_,ReconcileState.successors] at moved

end ReconcileOperation

inductive JournalStep (t u : Table ReconcileOperation) : Prop where
  | same (equal : u = t)
  | planned (row : ReconcileOperation) (state : row.state = .planned)
      (fresh : ∀ r ∈ t.rows, r.idempotencyKey ≠ row.idempotencyKey) (inserted : t.insert row = some u)
  | moved (move : ReconcileOperation → ReconcileOperation) (follows : ∀ r ∈ t.rows, r.Follows (move r))
      (rows : u.rows = t.rows.map move)

def KeysUnique (t : Table ReconcileOperation) : Prop :=
  ∀ r ∈ t.rows, ∀ other ∈ t.rows, r.idempotencyKey = other.idempotencyKey → r = other

def claims (t : Table ReconcileOperation) (key : String) : Nat :=
  if ∃ r ∈ t.rows, r.idempotencyKey = key ∧ r.state ≠ .planned then 1 else 0

namespace JournalStep
variable {t u : Table ReconcileOperation} (change : JournalStep t u)
include change

theorem kept : ∀ r ∈ t.rows, ∃ next ∈ u.rows, r.Follows next := by
  intro r member
  cases change with
  | same equal => exact ⟨r,equal ▸ member,.refl r⟩
  | planned row state fresh inserted => exact ⟨r,(Table.mem_insert inserted).mpr (.inl member),.refl r⟩
  | moved move follows rows => exact ⟨move r,rows ▸ List.mem_map_of_mem member,follows r member⟩

theorem drawn : ∀ next ∈ u.rows, (∃ r ∈ t.rows, r.Follows next) ∨
    next.state = .planned ∧ ∀ r ∈ t.rows, r.idempotencyKey ≠ next.idempotencyKey := by
  intro next member
  cases change with
  | same equal => exact .inl ⟨next,equal ▸ member,.refl next⟩
  | planned row state fresh inserted =>
    rcases (Table.mem_insert inserted).mp member with old | rfl
    · exact .inl ⟨next,old,.refl next⟩
    · exact .inr ⟨state,fresh⟩
  | moved move follows rows =>
    rw [rows] at member
    obtain ⟨r,old,rfl⟩ := List.mem_map.mp member
    exact .inl ⟨r,old,follows r old⟩

theorem unique (before : KeysUnique t) : KeysUnique u := by
  intro r member other present same
  cases change with
  | same equal => exact before r (equal ▸ member) other (equal ▸ present) same
  | planned row state fresh inserted =>
    rcases (Table.mem_insert inserted).mp member with old | new
    · rcases (Table.mem_insert inserted).mp present with older | newer
      · exact before r old other older same
      · exact absurd (newer ▸ same) (fresh r old)
    · rcases (Table.mem_insert inserted).mp present with older | newer
      · exact absurd (new ▸ same.symm) (fresh other older)
      · rw [new,newer]
  | moved move follows rows =>
    rw [rows] at member present
    obtain ⟨x,old,rfl⟩ := List.mem_map.mp member
    obtain ⟨y,older,rfl⟩ := List.mem_map.mp present
    rw [(follows x old).key,(follows y older).key] at same
    rw [before x old y older same]

theorem claims_le (key : String) : claims t key ≤ claims u key := by
  unfold claims
  split
  next claimed =>
    obtain ⟨r,member,own,left⟩ := claimed
    obtain ⟨next,present,follows⟩ := change.kept r member
    rw [if_pos ⟨next,present,follows.key.trans own,follows.unplanned left⟩]
  next => exact Nat.zero_le _

end JournalStep

namespace Journal
variable {db next : Journal}

theorem reserveReconcile_ok {id key source operation precondition : String} {now : Instant} {row : ReconcileOperation}
    (ok : db.reserveReconcile id key source operation precondition now = .ok (row,next)) :
    JournalStep db.reconciliations next.reconciliations ∧ row ∈ next.reconciliations.rows ∧ row.idempotencyKey = key := by
  obtain ⟨_,⟨found,_,rfl⟩ | ⟨absent,rfl,table,inserted,rfl⟩⟩ := reserveReconcile_effect ok
  · obtain ⟨member,own⟩ := Table.first_some found
    exact ⟨.same rfl,member,own⟩
  · refine ⟨.planned _ rfl ?_ inserted,(Table.mem_insert inserted).mpr (.inr rfl),rfl⟩
    intro r member same
    exact Table.first_none.mp absent r member same

theorem step_update {id : String} (f : ReconcileOperation → ReconcileOperation)
    (keeps : ∀ r, Keyed.key (f r) = Keyed.key r) {t : Table ReconcileOperation} {row : ReconcileOperation}
    (found : t.get id = some row) (follows : row.Follows (f row)) :
    JournalStep t (t.update (fun r => r.operationId = id) f keeps) := by
  refine .moved (fun r => if r.operationId = id then f r else r) ?_ rfl
  intro r member
  by_cases own : r.operationId = id
  · obtain ⟨present,same⟩ := Table.get_eq_some.mp found
    have equal : r = row := Table.mem_unique member present (own.trans same.symm)
    simp only [own,if_true]
    exact equal ▸ follows
  · simp only [own,if_false]
    exact .refl r

theorem finishReconcile_ok {id : String} {state : ReconcileState} {result : Option Json} {now : Instant}
    (ok : db.finishReconcile id state result now = .ok ((),next)) :
    JournalStep db.reconciliations next.reconciliations := by
  obtain ⟨_,⟨row,found,allowed⟩,rfl⟩ := finishReconcile_effect ok
  refine step_update (fun r => {r with state,externalResult := result,updatedAt := now.isoText}) (fun _ => rfl) found
    ⟨rfl,rfl,rfl,.inr ?_⟩
  cases at_ : row.state <;> simp_all [reconcileAllowed,ReconcileState.successors]

theorem markReconcileApplying_ok {id : String} {now : Instant} (ok : db.markReconcileApplying id now = .ok ((),next)) :
    JournalStep db.reconciliations next.reconciliations ∧
      ∃ row ∈ db.reconciliations.rows, row.operationId = id ∧ row.state = .planned ∧
        ∃ after ∈ next.reconciliations.rows, after.idempotencyKey = row.idempotencyKey ∧ after.state ≠ .planned := by
  obtain ⟨planned,rfl⟩ := markReconcileApplying_effect ok
  obtain ⟨row,found,at_⟩ := Option.map_eq_some_iff.mp planned
  obtain ⟨member,own⟩ := Table.get_eq_some.mp found
  refine ⟨step_update (fun r => {r with state := .applying,updatedAt := now.isoText}) (fun _ => rfl) found
    ⟨rfl,rfl,rfl,.inr ?_⟩,row,member,own,at_,{row with state := .applying,updatedAt := now.isoText},?_,rfl,by simp⟩
  · simp [at_,ReconcileState.successors]
  · rw [Table.mem_update]
    exact ⟨row,member,if_pos own⟩

end Journal
namespace Sync
variable {lib : MonitorLibrary} {r : Sync} {journal : Journal} {remote : GitHub} {input : SyncInput}

/-- The key of the issue that the sync is about to post. -/
def posting (lib : MonitorLibrary) (r : Sync) : SyncPoint → Option String
  | .writing a _ .open_ _ => some (r.keyOf lib a)
  | _ => none

/-- What a sync at a point relies on. -/
def Holds (lib : MonitorLibrary) (r : Sync) (t : Table ReconcileOperation) : SyncPoint → Prop
  | .pending todo => todo ⊆ r.seen.actions
  | .reserved a id todo => todo ⊆ r.seen.actions ∧ a ∈ r.seen.actions ∧
    ∃ row ∈ t.rows, row.operationId = id ∧ row.idempotencyKey = r.keyOf lib a
  | .writing a _ point todo => todo ⊆ r.seen.actions ∧ a ∈ r.seen.actions ∧ (point = .open_ → a.operation = "create")
  | .settling _ _ _ todo => todo ⊆ r.seen.actions
  | .stopped => True

/-- What a step of a sync may do: a claimed key was not claimed before, and a post was due,
or became due with the claim. -/
structure Sound (lib : MonitorLibrary) (r : Sync) (journal : Journal) (point : SyncPoint) (e : Effect) : Prop where
  change : JournalStep journal.reconciliations e.journal.reconciliations
  holds : Holds lib r e.journal.reconciliations e.point
  claimed : KeysUnique journal.reconciliations → ∀ key ∈ e.claimed,
    claims journal.reconciliations key = 0 ∧ claims e.journal.reconciliations key = 1
  due : ∀ key, (posting lib r e.point).toList.count key + (e.posts.map (r.keyOf lib)).toList.count key ≤
    (posting lib r point).toList.count key + e.claimed.toList.count key
  posted : ∀ a ∈ e.posts, a ∈ r.seen.actions ∧ a.operation = "create"

theorem Holds.later {t u : Table ReconcileOperation} {point : SyncPoint} (holds : Holds lib r t point)
    (change : JournalStep t u) : Holds lib r u point := by
  cases point with
  | reserved a id todo =>
    obtain ⟨rest,listed,row,member,own,key⟩ := holds
    obtain ⟨next,present,follows⟩ := change.kept row member
    exact ⟨rest,listed,next,present,follows.id.trans own,follows.key.trans key⟩
  | pending todo => exact holds
  | writing a id p todo => exact holds
  | settling id state result todo => exact holds
  | stopped => exact holds

theorem sound_still {point next : SyncPoint} {after : Journal}
    (change : JournalStep journal.reconciliations after.reconciliations) (holds : Holds lib r after.reconciliations next)
    (calm : posting lib r next = none) : Sound lib r journal point (still after remote next) where
  change := change
  holds := holds
  claimed := fun _ key claimed => by cases claimed
  due := fun key => by simp [still,calm]
  posted := fun a posted => by cases posted

theorem reserve_sound {a : QueueAction} {todo : List QueueAction}
    (holds : Holds lib r journal.reconciliations (.pending (a::todo))) :
    Sound lib r journal (.pending (a::todo)) (r.reserve lib journal remote input a todo) := by
  have rest : todo ⊆ r.seen.actions := fun b member => holds (List.mem_cons_of_mem a member)
  unfold reserve
  dsimp only
  split
  next e failed =>
    rcases atomically_cases journal (journal.reserveReconcile input.operationId (r.keyOf lib a) a.sourceKey a.operation
      (r.monitor.preconditionJson r.seen.queueIssue a) input.now) with same | ⟨row,ok⟩
    · rw [same]
      exact sound_still (.same rfl) trivial rfl
    · exact sound_still (Journal.reserveReconcile_ok ok).1 trivial rfl
  next row reserved =>
    obtain ⟨change,member,key⟩ := Journal.reserveReconcile_ok (atomically_ok reserved)
    split
    next => exact sound_still change ⟨rest,holds List.mem_cons_self,row,member,rfl,key⟩ rfl
    next => exact sound_still change rest rfl

theorem start_posts {a : QueueAction} (opens : a.start = .open_) : a.operation = "create" := by
  cases a with
  | create source title body existing version => rfl
  | close source issue version => cases opens

theorem claims_planned {t : Table ReconcileOperation} (unique : KeysUnique t) {row : ReconcileOperation}
    (member : row ∈ t.rows) (planned : row.state = .planned) : claims t row.idempotencyKey = 0 := by
  refine if_neg ?_
  rintro ⟨other,present,same,left⟩
  exact left (unique other present row member same ▸ planned)

theorem claim_sound {a : QueueAction} {id : String} {todo : List QueueAction}
    (holds : Holds lib r journal.reconciliations (.reserved a id todo)) :
    Sound lib r journal (.reserved a id todo) (r.claim lib journal remote input a id todo) := by
  obtain ⟨rest,listed,row,member,own,key⟩ := holds
  unfold claim
  dsimp only
  split
  next e failed =>
    rcases atomically_cases journal (journal.markReconcileApplying id input.now) with same | ⟨⟨⟩,ok⟩
    · rw [same]
      exact sound_still (.same rfl) trivial rfl
    · exact sound_still (Journal.markReconcileApplying_ok ok).1 trivial rfl
  next marked =>
    obtain ⟨change,planned,present,same,at_,after,later,kept,left⟩ :=
      Journal.markReconcileApplying_ok (atomically_ok marked)
    have equal : planned = row := Table.mem_unique present member (same.trans own.symm)
    subst equal
    refine ⟨change,⟨rest,listed,start_posts⟩,?_,?_,fun b posted => by cases posted⟩
    · intro unique k claimed
      cases claimed
      refine ⟨key ▸ claims_planned unique present at_,if_pos ⟨after,later,kept.trans key,left⟩⟩
    · intro k
      have bound : (posting lib r (.writing a id a.start todo)).toList.count k ≤ [r.keyOf lib a].count k := by
        cases a.start <;> simp [posting]
      simpa using Nat.le_trans bound (Nat.le_add_left _ _)

def callsLeft : ApplyPoint → Nat
  | .open_ => 4
  | .fetch _ => 4
  | .reopen _ => 3
  | .link _ _ => 2
  | .close _ => 2

theorem advance_left {a : QueueAction} {slug : String} {queue : Int} {reply : Reply} {point later : ApplyPoint}
    {next : GitHub} (stepped : r.monitor.advance lib remote slug queue a reply point = .next next later) :
    callsLeft later < callsLeft point := by
  have linked {at_ : GitHub} {issue : Fields}
      (received : GovernanceMonitor.received at_ issue = .next next later) : callsLeft later = 2 := by
    unfold GovernanceMonitor.received at received
    split at received
    next => cases received; rfl
    next => cases received
  cases point with
  | open_ =>
    simp only [GovernanceMonitor.advance] at stepped
    split at stepped
    next => rw [linked stepped]; simp [callsLeft]
    next => cases stepped
  | fetch number =>
    simp only [GovernanceMonitor.advance] at stepped
    split at stepped
    next => cases stepped
    next issue found =>
      split at stepped
      next =>
        split at stepped
        next => cases stepped
        next =>
          split at stepped
          next => rw [linked stepped]; simp [callsLeft]
          next => cases stepped; simp [callsLeft]
      next => cases stepped
  | reopen number =>
    simp only [GovernanceMonitor.advance] at stepped
    split at stepped
    next => cases stepped
    next =>
      split at stepped
      next => rw [linked stepped]; simp [callsLeft]
      next => cases stepped
  | link id number =>
    simp only [GovernanceMonitor.advance] at stepped
    split at stepped
    next => cases stepped
    next => cases stepped
  | close number =>
    simp only [GovernanceMonitor.advance] at stepped
    split at stepped
    next => cases stepped
    next =>
      split at stepped
      next => cases stepped
      next => cases stepped

theorem advance_calm {a : QueueAction} {slug : String} {queue : Int} {reply : Reply} {point later : ApplyPoint}
    {next : GitHub} (stepped : r.monitor.advance lib remote slug queue a reply point = .next next later) :
    later ≠ .open_ := by
  intro opens
  have fewer := advance_left stepped
  rw [opens] at fewer
  cases point <;> simp [callsLeft] at fewer

theorem posting_calm {a : QueueAction} {id : String} {todo : List QueueAction} {later : ApplyPoint}
    (calm : later ≠ .open_) : posting lib r (.writing a id later todo) = none := by
  cases later with
  | open_ => exact absurd rfl calm
  | fetch number => rfl
  | reopen number => rfl
  | link id number => rfl
  | close number => rfl

theorem posts_due (a : QueueAction) (id : String) (point : ApplyPoint) (todo : List QueueAction) :
    (posts a point).map (r.keyOf lib) = posting lib r (.writing a id point todo) := by
  cases point <;> rfl

theorem write_sound {a : QueueAction} {id : String} {point : ApplyPoint} {todo : List QueueAction}
    (holds : Holds lib r journal.reconciliations (.writing a id point todo)) :
    Sound lib r journal (.writing a id point todo) (r.write lib journal remote input a id point todo) := by
  obtain ⟨rest,listed,creates⟩ := holds
  have posted : ∀ b ∈ posts a point, b ∈ r.seen.actions ∧ b.operation = "create" := by
    intro b posts
    cases point with
    | open_ =>
      cases posts
      exact ⟨listed,creates rfl⟩
    | fetch number => cases posts
    | reopen number => cases posts
    | link id number => cases posts
    | close number => cases posts
  unfold write
  split
  next stepped =>
    have calm := advance_calm stepped
    refine ⟨.same rfl,⟨rest,listed,fun opens => absurd opens calm⟩,(fun _ key claimed => by cases claimed),?_,posted⟩
    intro key
    rw [posting_calm calm,posts_due a id point todo]
    simp
  next stepped =>
    refine ⟨.same rfl,rest,(fun _ key claimed => by cases claimed),?_,posted⟩
    intro key
    rw [posts_due a id point todo]
    simp [posting]

theorem settle_sound {id : String} {state : ReconcileState} {result : Json} {todo : List QueueAction}
    (holds : Holds lib r journal.reconciliations (.settling id state result todo)) :
    Sound lib r journal (.settling id state result todo) (settle journal remote input id state result todo) := by
  unfold settle
  dsimp only
  split
  next e failed =>
    rcases atomically_cases journal (journal.finishReconcile id state (some result) input.now) with same | ⟨⟨⟩,ok⟩
    · rw [same]
      exact sound_still (.same rfl) trivial rfl
    · exact sound_still (Journal.finishReconcile_ok ok) trivial rfl
  next finished => exact sound_still (Journal.finishReconcile_ok (atomically_ok finished)) holds rfl

theorem step_sound {point : SyncPoint} (holds : Holds lib r journal.reconciliations point) :
    Sound lib r journal point (r.step lib journal remote input point) := by
  cases point with
  | pending todo =>
    cases todo with
    | nil => exact sound_still (.same rfl) trivial rfl
    | cons a todo => exact reserve_sound holds
  | reserved a id todo => exact claim_sound holds
  | writing a id point todo => exact write_sound holds
  | settling id state result todo => exact settle_sound holds
  | stopped => exact sound_still (.same rfl) trivial rfl

end Sync

/-! One issue for a source: a snapshot asks for no source twice. -/

namespace GovernanceMonitor
variable {lib : MonitorLibrary} {g : GovernanceMonitor}

theorem gathered_cons_ok {α β : Type} {f : α → Except MonitorError (List β)} {item : α} {rest : List α} {out : List β} :
    gathered f (item::rest) = .ok out ↔
      ∃ first others, f item = .ok first ∧ gathered f rest = .ok others ∧ out = first ++ others := by
  simp only [gathered,bind_ok,pure_ok]
  constructor
  · rintro ⟨first,one,others,later,rfl⟩
    exact ⟨first,others,one,later,rfl⟩
  · rintro ⟨first,others,one,later,rfl⟩
    exact ⟨first,one,others,later,rfl⟩

theorem mem_gathered {α β : Type} {f : α → Except MonitorError (List β)} {items : List α} {out : List β}
    (ok : gathered f items = .ok out) {b : β} : b ∈ out ↔ ∃ item ∈ items, ∃ made, f item = .ok made ∧ b ∈ made := by
  induction items generalizing out with
  | nil =>
    cases ok
    simp
  | cons item rest ih =>
    obtain ⟨first,others,one,later,rfl⟩ := gathered_cons_ok.mp ok
    simp only [List.mem_append,List.mem_cons,exists_eq_or_imp,ih later,one,Except.ok.injEq,exists_eq_left']

/-- What the items of a loop without repeats yield has no repeats, when each yields at most
one thing and that under its own name. -/
theorem gathered_sublist {α β γ : Type} {f : α → Except MonitorError (List β)} {named : α → γ} {name : β → γ}
    (single : ∀ item made, f item = .ok made → (made.map name).Sublist [named item])
    {items : List α} {out : List β} (ok : gathered f items = .ok out) : (out.map name).Sublist (items.map named) := by
  induction items generalizing out with
  | nil =>
    cases ok
    exact List.Sublist.refl _
  | cons item rest ih =>
    obtain ⟨first,others,one,later,rfl⟩ := gathered_cons_ok.mp ok
    rw [List.map_append,List.map_cons,← List.singleton_append]
    exact List.Sublist.append (single item first one) (ih later)

theorem createAction_ok {pairs : List (String × Fields)} {childNumbers : List Int} {item : DesiredQueueItem}
    {made : List QueueAction} (ok : createAction lib pairs childNumbers item = .ok made) :
    made = [] ∨ ∃ existing version, made = [.create item.sourceKey item.title item.body existing version] := by
  unfold createAction at ok
  split at ok
  next =>
    split at ok
    next => cases ok; exact .inl rfl
    next => cases ok; exact .inr ⟨_,_,rfl⟩
  next issue =>
    obtain ⟨present,_,ok⟩ := bind_ok.mp ok
    split at ok
    next => cases ok; exact .inl rfl
    next =>
      obtain ⟨number,_,ok⟩ := bind_ok.mp ok
      cases ok
      exact .inr ⟨_,_,rfl⟩
  next => cases ok; exact .inl rfl

theorem closeAction_ok {desired : List String} {pairs : List (String × Fields)} {childNumbers : List Int}
    {source : String} {made : List QueueAction} (ok : closeAction lib desired pairs childNumbers source = .ok made) :
    made = [] ∨ ∃ number version, made = [.close source number version] := by
  unfold closeAction at ok
  split at ok
  next => cases ok; exact .inl rfl
  next =>
    split at ok
    next issue =>
      obtain ⟨present,_,ok⟩ := bind_ok.mp ok
      split at ok
      next =>
        split at ok
        next => cases ok; exact .inl rfl
        next =>
          obtain ⟨number,_,ok⟩ := bind_ok.mp ok
          cases ok
          exact .inr ⟨_,_,rfl⟩
      next => cases ok; exact .inl rfl
    next => cases ok; exact .inl rfl

theorem snapshot_actions {remote : GitHub} {seen : Snapshot} (ok : g.snapshot lib remote = .ok seen) :
    ∃ (slug : String) (desired : List DesiredQueueItem) (pairs : List (String × Fields)) (childNumbers : List Int)
        (creates closes : List QueueAction), g.orgSlug = .ok slug ∧
      managed lib (remote.listedIssues slug) = .ok pairs ∧ (desired.map DesiredQueueItem.sourceKey).Nodup ∧
      gathered (createAction lib pairs childNumbers) (desired.insertionSort (fun a b => a.sourceKey ≤ b.sourceKey)) =
        .ok creates ∧
      gathered (closeAction lib (desired.map DesiredQueueItem.sourceKey) pairs childNumbers)
        (sortedKeys (pairs.map Prod.fst)) = .ok closes ∧ seen.actions = creates ++ closes := by
  simp only [snapshot,bind_ok,pure_ok] at ok
  obtain ⟨queue,_,slug,org,queueIssue,_,blocked,_,wanted,_,⟨⟩,distinct,childNumbers,_,pairs,read,creates,made,closes,
    ended,number,_,unmanaged,_,rfl⟩ := ok
  exact ⟨slug,blocked ++ wanted,pairs,childNumbers,creates,closes,org,read,require_ok.mp distinct,made,ended,rfl⟩

theorem creates_unique {remote : GitHub} {seen : Snapshot} (ok : g.snapshot lib remote = .ok seen) {a b : QueueAction}
    (one : a ∈ seen.actions) (opens : a.operation = "create") (other : b ∈ seen.actions) (opened : b.operation = "create")
    (same : a.sourceKey = b.sourceKey) : a = b := by
  obtain ⟨_,desired,pairs,childNumbers,creates,closes,_,_,distinct,made,ended,equal⟩ := snapshot_actions ok
  have created {c : QueueAction} (member : c ∈ seen.actions) (create : c.operation = "create") : c ∈ creates := by
    rw [equal] at member
    rcases List.mem_append.mp member with inside | outside
    · exact inside
    · obtain ⟨source,_,made,yields,at_⟩ := (mem_gathered ended).mp outside
      rcases closeAction_ok yields with rfl | ⟨number,version,rfl⟩
      · cases at_
      · cases List.mem_singleton.mp at_
        exact absurd create (by simp [QueueAction.operation])
  have named : (creates.map QueueAction.sourceKey).Sublist
      ((desired.insertionSort (fun a b => a.sourceKey ≤ b.sourceKey)).map DesiredQueueItem.sourceKey) := by
    refine gathered_sublist ?_ made
    intro item yield ok
    rcases createAction_ok ok with rfl | ⟨existing,version,rfl⟩
    · exact List.nil_sublist _
    · exact List.Sublist.refl _
  have sorted : ((desired.insertionSort (fun a b => a.sourceKey ≤ b.sourceKey)).map DesiredQueueItem.sourceKey).Nodup :=
    ((List.perm_insertionSort _ desired).map _).nodup_iff.mpr distinct
  exact List.inj_on_of_nodup_map (sorted.sublist named) (created one opens) (created other opened) same

end GovernanceMonitor

namespace MonitorRun
variable (lib : MonitorLibrary)

def atPost (key : String) (x : Sync × SyncPoint) : Bool := x.1.posting lib x.2 = some key

def postedFor (key : String) (x : Sync × QueueAction) : Bool := x.1.keyOf lib x.2 = key

/-- Every started key has its claimed row; what is posted or about to be was started. -/
structure Ordered (s : MonitorRun) : Prop where
  unique : KeysUnique s.journal.reconciliations
  started : ∀ key, s.started.count key ≤ claims s.journal.reconciliations key
  holds : ∀ x ∈ s.syncs, x.1.Holds lib s.journal.reconciliations x.2
  due : ∀ key, s.opened.countP (postedFor lib key) + s.syncs.countP (atPost lib key) ≤ s.started.count key
  taken : ∀ x ∈ s.syncs, ∃ seen, x.1.monitor.snapshot lib seen = .ok x.1.seen
  opened : ∀ x ∈ s.opened, (∃ seen, x.1.monitor.snapshot lib seen = .ok x.1.seen) ∧
    x.2 ∈ x.1.seen.actions ∧ x.2.operation = "create"

variable {lib} {s : MonitorRun}

theorem starting_ordered (db : Journal) (remote : GitHub) : (starting db remote).Ordered lib where
  unique := fun r member => by cases member
  started := fun key => by simp [starting]
  holds := fun x member => by cases member
  due := fun key => by simp [starting]
  taken := fun x member => by cases member
  opened := fun x member => by cases member

theorem claims_le_one (t : Table ReconcileOperation) (key : String) : claims t key ≤ 1 := by
  unfold claims
  split
  next => exact Nat.le_refl 1
  next => exact Nat.zero_le 1

theorem count_option (o : Option String) (key : String) : o.toList.count key = if o = some key then 1 else 0 := by
  cases o with
  | none => rfl
  | some x =>
    rw [Option.toList_some,List.count_singleton]
    simp

theorem Ordered.take (ordered : s.Ordered lib) {i : Nat} {r : Sync} {point : SyncPoint} {e : Effect}
    (found : s.syncs[i]? = some (r,point)) (sound : r.Sound lib s.journal point e) : (s.take i r e).Ordered lib := by
  obtain ⟨bound,there⟩ := List.getElem?_eq_some_iff.mp found
  have own : (r,point) ∈ s.syncs := List.mem_of_getElem? found
  have stays {x : Sync × SyncPoint} (member : x ∈ s.syncs.set i (r,e.point)) : x ∈ s.syncs ∨ x = (r,e.point) :=
    List.mem_or_eq_of_mem_set member
  constructor
  · exact sound.change.unique ordered.unique
  · intro key
    change (s.started ++ e.claimed.toList).count key ≤ claims e.journal.reconciliations key
    rw [List.count_append,count_option]
    split
    next claimed =>
      obtain ⟨before,after⟩ := sound.claimed ordered.unique key claimed
      have none := ordered.started key
      omega
    next => exact Nat.le_trans (ordered.started key) (sound.change.claims_le key)
  · intro x member
    rcases stays member with old | rfl
    · exact (ordered.holds x old).later sound.change
    · exact sound.holds
  · intro key
    have due := ordered.due key
    have step := sound.due key
    have moved : (s.syncs.set i (r,e.point)).countP (atPost lib key) + (r.posting lib point).toList.count key =
        s.syncs.countP (atPost lib key) + (r.posting lib e.point).toList.count key := by
      have counted := List.countP_set (p := atPost lib key) (a := (r,e.point)) bound
      have positive : atPost lib key (r,point) = true → 0 < s.syncs.countP (atPost lib key) := fun at_ =>
        List.countP_pos_iff.mpr ⟨_,own,at_⟩
      rw [there] at counted
      simp only [count_option]
      simp only [atPost,decide_eq_true_eq] at counted positive ⊢
      split at counted <;> split at counted <;> simp_all
    have posts : (e.posts.toList.map (fun a => (r,a))).countP (postedFor lib key) =
        (e.posts.map (r.keyOf lib)).toList.count key := by
      cases e.posts with
      | none => rfl
      | some a =>
        rw [count_option]
        simp [postedFor]
    change (s.opened ++ e.posts.toList.map (fun a => (r,a))).countP (postedFor lib key) +
      (s.syncs.set i (r,e.point)).countP (atPost lib key) ≤ (s.started ++ e.claimed.toList).count key
    rw [List.countP_append,List.count_append,posts]
    omega
  · intro x member
    rcases stays member with old | rfl
    · exact ordered.taken x old
    · exact ordered.taken (r,point) own
  · intro x member
    rcases List.mem_append.mp member with old | new
    · exact ordered.opened x old
    · obtain ⟨a,posts,rfl⟩ := List.mem_map.mp new
      exact ⟨ordered.taken (r,point) own,sound.posted a (Option.mem_toList.mp posts)⟩

theorem Ordered.journal (ordered : s.Ordered lib) {after : MonitorRun}
    (change : JournalStep s.journal.reconciliations after.journal.reconciliations) (syncs : after.syncs = s.syncs)
    (started : after.started = s.started) (opened : after.opened = s.opened) : after.Ordered lib where
  unique := change.unique ordered.unique
  started := fun key => by
    rw [started]
    exact Nat.le_trans (ordered.started key) (change.claims_le key)
  holds := fun x member => (ordered.holds x (syncs ▸ member)).later change
  due := fun key => by
    rw [started,opened,syncs]
    exact ordered.due key
  taken := fun x member => ordered.taken x (syncs ▸ member)
  opened := fun x member => ordered.opened x (opened ▸ member)

theorem Ordered.sync (ordered : s.Ordered lib) {monitor : GovernanceMonitor} {remote : GitHub} {seen : Snapshot}
    (ok : monitor.snapshot lib remote = .ok seen) :
    Ordered lib {s with syncs := s.syncs ++ [(⟨monitor,seen⟩,.pending seen.actions)]} := by
  have split {x : Sync × SyncPoint} (member : x ∈ s.syncs ++ [(⟨monitor,seen⟩,.pending seen.actions)]) :
      x ∈ s.syncs ∨ x = (⟨monitor,seen⟩,.pending seen.actions) := by simpa using member
  refine ⟨ordered.unique,ordered.started,?_,?_,?_,ordered.opened⟩
  · intro x member
    rcases split member with old | rfl
    · exact ordered.holds x old
    · exact fun a member => member
  · intro key
    have due := ordered.due key
    simpa [List.countP_append,atPost,Sync.posting] using due
  · intro x member
    rcases split member with old | rfl
    · exact ordered.taken x old
    · exact ⟨remote,ok⟩

theorem step_journal (ordered : s.Ordered lib) (action : MonitorAction) :
    JournalStep s.journal.reconciliations (step lib s action).journal.reconciliations := by
  cases action with
  | sync monitor seen =>
    simp only [step]
    split
    next => exact .same rfl
    next =>
      split
      next => exact .same rfl
      next => exact .same rfl
  | advance i input =>
    simp only [step]
    split
    next r point found =>
      exact (Sync.step_sound (ordered.holds _ (List.mem_of_getElem? found))).change
    next => exact .same rfl
  | resolve j => exact .same rfl
  | visit j answer now =>
    simp only [step]
    split
    next =>
      split
      next => exact .same rfl
      next =>
        split
        next ok => exact Journal.finishReconcile_ok ok
        next => exact .same rfl
    next => exact .same rfl
  | remote next => exact .same rfl

theorem step_ordered (action : MonitorAction) (ordered : s.Ordered lib) : (step lib s action).Ordered lib := by
  have change := step_journal ordered action
  cases action with
  | sync monitor seen =>
    simp only [step] at change ⊢
    split
    next => exact ordered
    next ok =>
      split
      next => exact ordered.sync ok
      next => exact ordered
  | advance i input =>
    simp only [step]
    split
    next r point found => exact ordered.take found (Sync.step_sound (ordered.holds _ (List.mem_of_getElem? found)))
    next => exact ordered
  | resolve j => exact ordered.journal (.same rfl) rfl rfl rfl
  | visit j answer now =>
    refine ordered.journal change ?_ ?_ ?_ <;> simp only [step] <;> split <;> try rfl
    all_goals split <;> try rfl
    all_goals split <;> rfl
  | remote next => exact ordered.journal (.same rfl) rfl rfl rfl

theorem run_ordered (db : Journal) (remote : GitHub) (actions : List MonitorAction) :
    (run (step lib) (starting db remote) actions).Ordered lib :=
  invariant_run (step lib) (fun _ a ordered => step_ordered a ordered) (starting_ordered db remote) actions

theorem keyOf_view {r other : Sync} (same : r.view = other.view) (a : QueueAction) : r.keyOf lib a = other.keyOf lib a := by
  simp only [Sync.view,View.mk.injEq] at same
  obtain ⟨digest,principal,seen⟩ := same
  simp only [Sync.keyOf,GovernanceMonitor.actionKey,digest,principal,seen]

/-- The syncs of one view post at most once for a source. -/
theorem Ordered.once (ordered : s.Ordered lib) (view : View) (source : String) :
    s.opened.countP (fun x => x.1.view = view ∧ x.2.sourceKey = source) ≤ 1 := by
  by_cases found : ∃ x ∈ s.opened, x.1.view = view ∧ x.2.sourceKey = source
  · obtain ⟨⟨r,a⟩,member,own,at_⟩ := found
    obtain ⟨⟨seen,taken⟩,listed,creates⟩ := ordered.opened _ member
    have sameKey : s.opened.countP (fun x => x.1.view = view ∧ x.2.sourceKey = source) ≤
        s.opened.countP (postedFor lib (r.keyOf lib a)) := by
      refine List.countP_mono_left ?_
      rintro ⟨other,b⟩ present matches_
      obtain ⟨viewed,named⟩ := of_decide_eq_true matches_
      obtain ⟨_,inside,opens⟩ := ordered.opened _ present
      have views : other.view = r.view := viewed.trans own.symm
      have same : other.seen = r.seen := congrArg View.seen views
      rw [same] at inside
      have equal : b = a := GovernanceMonitor.creates_unique taken inside opens listed creates (named.trans at_.symm)
      exact decide_eq_true (equal ▸ keyOf_view views b)
    have due := ordered.due (r.keyOf lib a)
    have started := ordered.started (r.keyOf lib a)
    have one := claims_le_one s.journal.reconciliations (r.keyOf lib a)
    omega
  · rw [List.countP_eq_zero.mpr]
    · exact Nat.zero_le 1
    · intro x member matches_
      exact found ⟨x,member,of_decide_eq_true matches_⟩

/-- The writes behind a key are started at most once, a row only moves on and stays as it
is once it is settled, and the syncs that see one snapshot post one issue for a source. -/
theorem writes_once (db : Journal) (remote : GitHub) (actions : List MonitorAction) :
    let final := run (step lib) (starting db remote) actions
    (∀ key, final.started.count key ≤ 1) ∧
      (∀ t ∈ trace (step lib) (starting db remote) actions,
        (∀ row ∈ t.before.journal.reconciliations.rows, ∃ next ∈ t.after.journal.reconciliations.rows,
          row.Follows next ∧ (row.state = .succeeded ∨ row.state = .deadLetter → next = row)) ∧
        ∀ next ∈ t.after.journal.reconciliations.rows,
          next.state = .planned ∨ ∃ row ∈ t.before.journal.reconciliations.rows, row.Follows next) ∧
      ∀ view source, final.opened.countP (fun x => x.1.view = view ∧ x.2.sourceKey = source) ≤ 1 := by
  refine ⟨?_,?_,(run_ordered db remote actions).once⟩
  · intro key
    exact Nat.le_trans ((run_ordered db remote actions).started key) (claims_le_one _ key)
  · intro t member
    have ordered : t.before.Ordered lib :=
      invariant_before (step lib) (fun _ a ordered => step_ordered a ordered) (starting_ordered db remote) member
    have change := step_journal ordered t.action
    rw [← trace_step (step lib) member] at change
    constructor
    · intro row present
      obtain ⟨next,there,follows⟩ := change.kept row present
      refine ⟨next,there,follows,?_⟩
      intro settled
      rcases follows.state with same | moved
      · exact same
      · rcases settled with at_ | at_ <;> simp [at_,ReconcileState.successors] at moved
    · intro next present
      rcases change.drawn next present with old | ⟨planned,_⟩
      · exact .inr old
      · exact .inl planned

end MonitorRun
end SjgControl

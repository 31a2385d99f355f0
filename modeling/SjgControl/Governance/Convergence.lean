import SjgControl.Governance.Effect

/-! A sync whose calls are all carried out, behind any history of the journal: what it leaves
of the differences that its snapshot showed. -/
namespace SjgControl
open Relational Machine PythonText Backend Board

/-- A sync that takes its steps with nothing in between. -/
structure Solo where
  journal : Journal
  remote : GitHub
  point : SyncPoint

namespace Sync
variable (lib : MonitorLibrary) (r : Sync) (slug : String)

def solo (x : Solo) (input : SyncInput) : Solo :=
  let e := r.step lib x.journal x.remote input x.point
  ⟨e.journal,e.remote,e.point⟩

/-- The next call is carried out and answered, and what is new gets an identity of its own. -/
structure Obliging (journal : Journal) (remote : GitHub) (input : SyncInput) : Prop where
  operationId : ∀ row ∈ journal.reconciliations.rows, row.operationId ≠ input.operationId
  carriedOut : input.reply.carriedOut = true
  answered : input.reply.answered = true
  positive : 0 < input.reply.assigned.number
  number : ∀ item ∈ remote.listedIssues slug, numberOf item ≠ some input.reply.assigned.number
  id : ∀ item ∈ remote.listedIssues slug, idOf item ≠ some input.reply.assigned.id

def Obliged (x : Solo) (inputs : List SyncInput) : Prop :=
  Along (r.solo lib) (fun x => Obliging slug x.journal x.remote) x inputs

/-- However it is obliged, a sync that ends comes by a state of the kind. -/
def Leads (x : Solo) (kind : Solo → Prop) : Prop :=
  ∀ inputs, r.Obliged lib slug x inputs → (run (r.solo lib) x inputs).point = .stopped →
    ∃ y rest, kind y ∧ r.Obliged lib slug y rest ∧ run (r.solo lib) x inputs = run (r.solo lib) y rest

variable {lib r slug} {x : Solo} {kind next : Solo → Prop}

theorem Leads.here (now : kind x) : r.Leads lib slug x kind :=
  fun inputs along _ => ⟨x,inputs,now,along,rfl⟩

theorem Leads.step (going : x.point ≠ .stopped)
    (each : ∀ input, Obliging slug x.journal x.remote input → r.Leads lib slug (r.solo lib x input) kind) : r.Leads lib slug x kind := by
  intro inputs along ended
  cases inputs with
  | nil => exact absurd ended going
  | cons input rest =>
    obtain ⟨obliging,later⟩ := (along_cons (r.solo lib)).mp along
    exact each input obliging rest later ended

theorem Leads.trans (first : r.Leads lib slug x kind) (each : ∀ y, kind y → r.Leads lib slug y next) :
    r.Leads lib slug x next := by
  intro inputs along ended
  obtain ⟨y,rest,here,later,same⟩ := first inputs along ended
  obtain ⟨z,others,there,behind,equal⟩ := each y here rest later (same ▸ ended)
  exact ⟨z,others,there,behind,same.trans equal⟩

theorem run_stopped (stopped : x.point = .stopped) (inputs : List SyncInput) : run (r.solo lib) x inputs = x := by
  induction inputs with
  | nil => rfl
  | cons input rest ih =>
    have still : r.solo lib x input = x := by
      cases x
      cases stopped
      rfl
    rw [run_cons,still]
    exact ih

def stepsLeft : SyncPoint → Nat
  | .pending todo => 6 * todo.length + 1
  | .reserved _ _ todo => 6 * todo.length + 6
  | .writing _ _ point todo => 6 * todo.length + 1 + callsLeft point
  | .settling _ _ _ todo => 6 * todo.length + 2
  | .stopped => 0

theorem step_left (journal : Journal) (remote : GitHub) (input : SyncInput) {point : SyncPoint} (going : point ≠ .stopped) :
    stepsLeft (r.step lib journal remote input point).point < stepsLeft point := by
  have most (point : ApplyPoint) : 2 ≤ callsLeft point ∧ callsLeft point ≤ 4 := by
    cases point <;> simp [callsLeft]
  cases point with
  | pending todo =>
    cases todo with
    | nil => simp [step,still,stepsLeft]
    | cons a todo =>
      simp only [step,reserve]
      split
      next => simp [still,stepsLeft]
      next =>
        split
        next => simp only [still,stepsLeft,List.length_cons]; omega
        next => simp only [still,stepsLeft,List.length_cons]; omega
  | reserved a id todo =>
    simp only [step,claim]
    split
    next => simp [still,stepsLeft]
    next =>
      have calls := (most a.start).2
      simp only [stepsLeft]
      omega
  | writing a id point todo =>
    have calls := (most point).1
    simp only [step,write]
    split
    next stepped =>
      have fewer := advance_left stepped
      simp only [stepsLeft]
      omega
    next =>
      simp only [stepsLeft]
      omega
  | settling id state result todo =>
    simp only [step,settle]
    split
    next => simp [still,stepsLeft]
    next => simp [still,stepsLeft]
  | stopped => exact absurd rfl going

/-- A sync with enough steps ends. -/
theorem run_ends (inputs : List SyncInput) (enough : stepsLeft x.point ≤ inputs.length) :
    (run (r.solo lib) x inputs).point = .stopped := by
  induction inputs generalizing x with
  | nil =>
    cases x with
    | mk journal remote point =>
      cases point with
      | stopped => rfl
      | pending => simp [stepsLeft] at enough
      | reserved => simp [stepsLeft] at enough
      | writing => simp [stepsLeft] at enough
      | settling => simp [stepsLeft] at enough
  | cons input rest ih =>
    by_cases going : x.point = .stopped
    · rw [run_stopped going]
      exact going
    · have fewer := @step_left lib r x.journal x.remote input _ going
      rw [List.length_cons] at enough
      rw [run_cons]
      refine ih ?_
      change stepsLeft (r.step lib x.journal x.remote input x.point).point ≤ rest.length
      omega

end Sync

/-! The row of an action. -/

namespace Journal
variable {db : Journal}

def Beside (key : String) (t u : Table ReconcileOperation) : Prop :=
  Table.Apart ReconcileOperation.idempotencyKey key t u

theorem reserve_spent {operationId key source operation precondition : String} {now : Instant}
    (known : operation ∈ ["create","move","close"]) (unique : KeysUnique db.reconciliations)
    (matching : ∀ row ∈ db.reconciliations.rows, row.idempotencyKey = key →
      (row.sourceKey,row.operation,row.preconditionJson) = (source,operation,precondition))
    (spent : ∃ row ∈ db.reconciliations.rows, row.idempotencyKey = key ∧ row.state ≠ .planned) :
    ∃ row, db.reserveReconcile operationId key source operation precondition now = .ok (row,db) ∧ row.state ≠ .planned := by
  obtain ⟨row,member,own,left⟩ := spent
  unfold reserveReconcile
  rw [require,if_pos known]
  cases found : db.reconciliations.first (fun r => r.idempotencyKey = key) with
  | none => exact absurd own (Table.first_none.mp found row member)
  | some other =>
    obtain ⟨present,same⟩ := Table.first_some found
    refine ⟨other,?_,?_⟩
    · simp only [ok_bind,require]
      rw [if_pos (matching other present same)]
      rfl
    · rw [unique other present row member (same.trans own.symm)]
      exact left

theorem reserve_planned {operationId key source operation precondition : String} {now : Instant}
    (known : operation ∈ ["create","move","close"])
    (matching : ∀ row ∈ db.reconciliations.rows, row.idempotencyKey = key →
      (row.sourceKey,row.operation,row.preconditionJson) = (source,operation,precondition))
    (unspent : ¬ ∃ row ∈ db.reconciliations.rows, row.idempotencyKey = key ∧ row.state ≠ .planned)
    (fresh : ∀ row ∈ db.reconciliations.rows, row.operationId ≠ operationId) :
    ∃ row after, db.reserveReconcile operationId key source operation precondition now = .ok (row,after) ∧
      row.state = .planned ∧ row.idempotencyKey = key ∧ after.reconciliations.get row.operationId = some row ∧
      Beside key db.reconciliations after.reconciliations := by
  unfold reserveReconcile
  rw [require,if_pos known]
  cases found : db.reconciliations.first (fun r => r.idempotencyKey = key) with
  | some other =>
    obtain ⟨present,same⟩ := Table.first_some found
    refine ⟨other,db,?_,?_,same,Table.get_key present,Table.Apart.refl _⟩
    · simp only [ok_bind,require]
      rw [if_pos (matching other present same)]
      rfl
    · by_contra left
      exact unspent ⟨other,present,same,left⟩
  | none =>
    obtain ⟨table,inserted⟩ := Table.insert_of_fresh (r := (⟨operationId,key,source,operation,precondition,.planned,none,
      now.isoText,now.isoText⟩ : ReconcileOperation)) (Table.get_eq_none.mpr fresh)
    refine ⟨⟨operationId,key,source,operation,precondition,.planned,none,now.isoText,now.isoText⟩,
      {db with reconciliations := table},?_,rfl,rfl,?_,Table.apart_insert inserted rfl⟩
    · simp only [ok_bind]
      rw [inserted]
      rfl
    · rw [Table.get_insert inserted]
      exact if_pos rfl

theorem beside_update {id : String} {row : ReconcileOperation} {t : Table ReconcileOperation}
    (found : t.get id = some row) {f : ReconcileOperation → ReconcileOperation}
    (keeps : ∀ r, Keyed.key (f r) = Keyed.key r) (keys : ∀ r, (f r).idempotencyKey = r.idempotencyKey) :
    (t.update (fun r => r.operationId = id) f keeps).get id = some (f row) ∧
      Beside row.idempotencyKey t (t.update (fun r => r.operationId = id) f keeps) := by
  obtain ⟨member,own⟩ := Table.get_eq_some.mp found
  have named : row.operationId = id := own
  constructor
  · rw [Table.get_update,found,Option.map_some,if_pos named]
  · refine Table.apart_update ?_ keys
    intro r present same
    rw [Table.mem_unique present member (same.trans named.symm)]

theorem mark_planned {id : String} {row : ReconcileOperation} {now : Instant}
    (found : db.reconciliations.get id = some row) (planned : row.state = .planned) :
    ∃ after claimed, db.markReconcileApplying id now = .ok ((),after) ∧ after.reconciliations.get id = some claimed ∧
      claimed.state = .applying ∧ claimed.idempotencyKey = row.idempotencyKey ∧
      Beside row.idempotencyKey db.reconciliations after.reconciliations := by
  have due : (db.reconciliations.get id).map ReconcileOperation.state = some .planned := by
    rw [found,Option.map_some,planned]
  obtain ⟨there,beside⟩ := beside_update found (f := fun r => {r with state := .applying,updatedAt := now.isoText})
    (fun _ => rfl) (fun _ => rfl)
  refine ⟨{db with reconciliations := _},_,?_,there,rfl,rfl,beside⟩
  unfold markReconcileApplying
  rw [require,if_pos due]
  rfl

theorem finish_applying {id : String} {row : ReconcileOperation} {state : ReconcileState} {result : Option Json}
    {now : Instant} (found : db.reconciliations.get id = some row) (applying : row.state = .applying)
    (ends : state ∈ [ReconcileState.verifyPending,.succeeded,.deadLetter]) :
    ∃ after, db.finishReconcile id state result now = .ok ((),after) ∧
      Beside row.idempotencyKey db.reconciliations after.reconciliations := by
  have allowed : ∃ row ∈ db.reconciliations.get id, state ∈ reconcileAllowed row.state := by
    refine ⟨row,found,?_⟩
    rw [applying]
    exact ends
  obtain ⟨_,beside⟩ := beside_update found (f := fun r => {r with state,externalResult := result,updatedAt := now.isoText})
    (fun _ => rfl) (fun _ => rfl)
  refine ⟨{db with reconciliations := _},?_,beside⟩
  unfold finishReconcile
  rw [require,if_pos ends,require,if_pos allowed]
  rfl

end Journal

namespace Sync
variable (lib : MonitorLibrary) (r : Sync)

def Spent (journal : Journal) (a : QueueAction) : Prop :=
  ∃ row ∈ journal.reconciliations.rows, row.idempotencyKey = r.keyOf lib a ∧ row.state ≠ .planned

instance (journal : Journal) (a : QueueAction) : Decidable (r.Spent lib journal a) :=
  inferInstanceAs (Decidable (∃ row ∈ journal.reconciliations.rows, row.idempotencyKey = r.keyOf lib a ∧ row.state ≠ .planned))

/-- The digest in the key of an action is that of no other write. -/
def Matching (journal : Journal) (a : QueueAction) : Prop :=
  ∀ row ∈ journal.reconciliations.rows, row.idempotencyKey = r.keyOf lib a →
    (row.sourceKey,row.operation,row.preconditionJson) =
      (a.sourceKey,a.operation,r.monitor.preconditionJson r.seen.queueIssue a)

variable {lib r} {slug : String} {journal : Journal} {remote : GitHub} {input : SyncInput} {a : QueueAction}
  {todo : List QueueAction} {id : String}

theorem known_operation (a : QueueAction) : a.operation ∈ ["create","move","close"] := by
  cases a with
  | create => simp [QueueAction.operation]
  | close => simp [QueueAction.operation]

theorem solo_spent (unique : KeysUnique journal.reconciliations) (matching : r.Matching lib journal a)
    (spent : r.Spent lib journal a) : r.solo lib ⟨journal,remote,.pending (a::todo)⟩ input = ⟨journal,remote,.pending todo⟩ := by
  obtain ⟨row,reserved,left⟩ :=
    @Journal.reserve_spent journal input.operationId _ _ _ _ input.now (known_operation a) unique matching spent
  simp only [solo,step,reserve,reserved,atomically,if_neg left,still]

theorem solo_reserved (matching : r.Matching lib journal a) (unspent : ¬ r.Spent lib journal a)
    (fresh : ∀ row ∈ journal.reconciliations.rows, row.operationId ≠ input.operationId) :
    ∃ row after, r.solo lib ⟨journal,remote,.pending (a::todo)⟩ input = ⟨after,remote,.reserved a row.operationId todo⟩ ∧
      row.state = .planned ∧ row.idempotencyKey = r.keyOf lib a ∧
      after.reconciliations.get row.operationId = some row ∧
      Journal.Beside (r.keyOf lib a) journal.reconciliations after.reconciliations ∧
      JournalStep journal.reconciliations after.reconciliations := by
  obtain ⟨row,after,reserved,planned,own,there,beside⟩ :=
    @Journal.reserve_planned journal _ _ _ _ _ input.now (known_operation a) matching unspent fresh
  refine ⟨row,after,?_,planned,own,there,beside,(Journal.reserveReconcile_ok reserved).1⟩
  simp only [solo,step,reserve,reserved,atomically,if_pos planned,still]

theorem solo_claimed {row : ReconcileOperation} (found : journal.reconciliations.get id = some row)
    (planned : row.state = .planned) :
    ∃ after claimed, r.solo lib ⟨journal,remote,.reserved a id todo⟩ input = ⟨after,remote,.writing a id a.start todo⟩ ∧
      after.reconciliations.get id = some claimed ∧ claimed.state = .applying ∧
      claimed.idempotencyKey = row.idempotencyKey ∧
      Journal.Beside row.idempotencyKey journal.reconciliations after.reconciliations ∧
      JournalStep journal.reconciliations after.reconciliations := by
  obtain ⟨after,claimed,marked,there,applying,own,beside⟩ := @Journal.mark_planned journal id row input.now found planned
  refine ⟨after,claimed,?_,there,applying,own,beside,(Journal.markReconcileApplying_ok marked).1⟩
  simp only [solo,step,claim,marked,atomically]

theorem solo_next {point later : ApplyPoint} {next : GitHub}
    (stepped : r.monitor.advance lib remote r.orgSlug r.seen.queueIssue a input.reply point = .next next later) :
    r.solo lib ⟨journal,remote,.writing a id point todo⟩ input = ⟨journal,next,.writing a id later todo⟩ := by
  simp only [solo,step,write,stepped]

theorem solo_ended {point : ApplyPoint} {next : GitHub} {state : ReconcileState} {result : Json}
    (stepped : r.monitor.advance lib remote r.orgSlug r.seen.queueIssue a input.reply point = .ended next state result) :
    r.solo lib ⟨journal,remote,.writing a id point todo⟩ input = ⟨journal,next,.settling id state result todo⟩ := by
  simp only [solo,step,write,stepped]

theorem solo_settled {row : ReconcileOperation} {result : Json} (found : journal.reconciliations.get id = some row)
    (applying : row.state = .applying) :
    ∃ after, r.solo lib ⟨journal,remote,.settling id .succeeded result todo⟩ input = ⟨after,remote,.pending todo⟩ ∧
      Journal.Beside row.idempotencyKey journal.reconciliations after.reconciliations ∧
      JournalStep journal.reconciliations after.reconciliations := by
  obtain ⟨after,finished,beside⟩ :=
    @Journal.finish_applying journal id row .succeeded (some result) input.now found applying (by decide)
  refine ⟨after,?_,beside,Journal.finishReconcile_ok finished⟩
  simp only [solo,step,settle,finished,atomically,still]

end Sync

/-! The calls of an action when they are carried out. -/

namespace GovernanceMonitor
variable {g : GovernanceMonitor} {lib : MonitorLibrary} {remote : GitHub} {slug : String} {queue : Int}
  {a : QueueAction} {reply : Reply}

/-- The changes of a reopening and of a closing. -/
def reopening (reply : Reply) : Fields := [("state",.str "open"),("updated_at",.str reply.updatedAt)]

def closing (reply : Reply) : Fields :=
  [("state",.str "closed"),("state_reason",.str "completed"),("updated_at",.str reply.updatedAt)]

theorem reopening_restates (reply : Reply) : Restating (reopening reply) true where
  given := by simp [reopening,Json.has]
  state := by simp [reopening,Json.get]
  others := by simp [reopening,Json.has]

theorem closing_restates (reply : Reply) : Restating (closing reply) false where
  given := by simp [closing,Json.has]
  state := by simp [closing,Json.get]
  others := by simp [closing,Json.has]

section Calls
variable (carriedOut : reply.carriedOut = true) (answered : reply.answered = true)

include carriedOut answered in
theorem advance_open : g.advance lib remote slug queue a reply .open_ =
    .next (remote.addIssue slug (g.queueItem a reply)) (.link reply.assigned.id (.int reply.assigned.number)) := by
  simp only [advance,carriedOut,answered,Bool.and_self,if_true]
  rfl

include carriedOut answered in
theorem advance_link (id : Int) (number : Json) : ∃ result, g.advance lib remote slug queue a reply (.link id number) =
    .ended (linked remote slug queue id) .succeeded result := by
  simp only [advance,carriedOut,answered,Bool.and_self,if_true]
  exact ⟨_,rfl⟩

variable {issue : Fields} {n : Int} (found : GitHub.numbered (remote.listedIssues slug) n = some issue)
include found answered

theorem advance_fetch_open (marked : sourceIn (bodyOf lib.toTextLibrary issue).toList ≠ none) (opened : isOpen issue = true)
    {id : Int} (own : idOf issue = some id) :
    ∃ number, g.advance lib remote slug queue a reply (.fetch n) = .next remote (.link id number) := by
  simp only [advance,found,answered,if_true,if_neg marked,opened,received,idOf_some.mp own]
  exact ⟨_,rfl⟩

theorem advance_fetch_closed (marked : sourceIn (bodyOf lib.toTextLibrary issue).toList ≠ none)
    (closed : isOpen issue = false) : g.advance lib remote slug queue a reply (.fetch n) = .next remote (.reopen n) := by
  simp only [advance,found,answered,if_true,if_neg marked,closed]
  rfl

include carriedOut

theorem advance_reopen {id : Int} (own : idOf issue = some id) :
    ∃ number, g.advance lib remote slug queue a reply (.reopen n) =
      .next (patched remote slug n (reopening reply)) (.link id number) := by
  simp only [advance,found,carriedOut,answered,Bool.and_self,if_true,received,idOf_some.mp own]
  exact ⟨_,rfl⟩

theorem advance_close : ∃ result, g.advance lib remote slug queue a reply (.close n) =
    .ended (patched remote slug n (closing reply)) .succeeded result := by
  simp only [advance,found,carriedOut,answered,Bool.and_self,if_true]
  exact ⟨_,rfl⟩

end Calls

/-- What is known of a sync when it starts: the board that its snapshot showed, and its actions. -/
structure Setting (g : GovernanceMonitor) (lib : MonitorLibrary) (slug : String) (queue : Int)
    (blocked : List DesiredQueueItem) (v : Board) (seen : Snapshot) : Prop where
  com : g.Commissioned lib slug queue blocked
  queue : seen.queueIssue = queue
  planned : v.Planned seen.actions
  distinct : v.Distinct
  single : v.Single
  labelled : ∀ a ∈ seen.actions, a.operation = "create" → Labelled ⟨a.sourceKey,a.title,a.body⟩

/-- What holds of the repositories behind some of the actions. -/
structure Working (g : GovernanceMonitor) (lib : MonitorLibrary) (slug : String) (queue : Int)
    (blocked : List DesiredQueueItem) (v : Board) (done : List QueueAction) (remote : GitHub) : Prop where
  sound : g.Sound remote
  progress : Board.Progress (g.homeOf slug) v done (g.boardOf lib remote slug queue blocked)
  single : (g.boardOf lib remote slug queue blocked).Single

section Work
variable {blocked : List DesiredQueueItem} {v : Board} {seen : Snapshot} {done : List QueueAction}
  (setting : Setting g lib slug queue blocked v seen) (working : Working g lib slug queue blocked v done remote)

theorem identified_at (com : g.Commissioned lib slug queue blocked) (sound : g.Sound remote) : Identified remote slug := by
  obtain ⟨repo,known,same⟩ := org_known com
  exact same ▸ sound.identified "org" repo known

include setting in
theorem slug_eq : (⟨g,seen⟩ : Sync).orgSlug = slug := by
  unfold Sync.orgSlug
  rw [setting.com.org]
  rfl

include setting working in
theorem item_of {c : Card} (member : c ∈ v.cards) :
    ∃ issue ∈ remote.listedIssues slug, numberOf issue = some c.number ∧ idOf issue = some c.id ∧
      sourceOf lib issue = c.source ∧ isOpen issue = (turnedCard done c).opened := by
  have ids := identified_at setting.com working.sound
  obtain ⟨issue,listed,shows⟩ := List.mem_map.mp (working.progress.old c member)
  obtain ⟨n,_,own⟩ := ids.numbered issue listed
  obtain ⟨id,ident⟩ := ids.identified issue listed
  have number : (cardOf lib issue).number = c.number := by
    rw [shows]
    rfl
  have name : (cardOf lib issue).id = c.id := by
    rw [shows]
    rfl
  have source : sourceOf lib issue = c.source := by
    change (cardOf lib issue).source = c.source
    rw [shows]
    rfl
  rw [cardOf_number own] at number
  unfold cardOf at name
  rw [ident] at name
  exact ⟨issue,listed,number ▸ own,name ▸ ident,source,congrArg Card.opened shows⟩

theorem queueItem_card (labelled : Labelled ⟨a.sourceKey,a.title,a.body⟩) (reply : Reply) :
    cardOf lib (g.queueItem a reply) =
      ⟨reply.assigned.number,reply.assigned.id,false,some a.sourceKey,false,true⟩ := by
  have source : sourceOf lib (g.queueItem a reply) = some a.sourceKey := by
    have body : bodyOf lib.toTextLibrary (g.queueItem a reply) = a.body := Json.textOr_str _ _
    unfold sourceOf
    rw [body]
    exact labelled.source
  have proposal : isProposal lib (g.queueItem a reply) = false := by
    have title : textArgument lib.toTextLibrary (g.queueItem a reply) "title" = a.title := Json.textOr_str _ _
    unfold isProposal
    rw [title]
    have other : ¬ startsWith a.title "[PROPOSAL]" := by
      intro start
      have both := List.prefix_of_prefix_length_le labelled.title start (by decide)
      exact absurd both (by decide)
    simp [other]
  unfold cardOf
  rw [source,proposal]
  rfl

/-- The calls of an action lead to its end, with the board one action further. -/
def Written (g : GovernanceMonitor) (lib : MonitorLibrary) (slug : String) (queue : Int) (blocked : List DesiredQueueItem)
    (v : Board) (done : List QueueAction) (journal : Journal) (id : String) (todo : List QueueAction) (y : Solo) : Prop :=
  y.journal = journal ∧ (∃ result, y.point = .settling id .succeeded result todo) ∧
    Working g lib slug queue blocked v done y.remote

variable (subset : done ⊆ seen.actions) (member : a ∈ seen.actions) (others : ∀ d ∈ done, d.sourceKey ≠ a.sourceKey)
  {journal : Journal} {id : String} {todo : List QueueAction}
include setting working subset member others

omit subset in
theorem leads_posted (create : a.operation = "create") (posts : a.target = none)
    (none_ : ∀ c ∈ v.cards, c.source ≠ some a.sourceKey) :
    (⟨g,seen⟩ : Sync).Leads lib slug ⟨journal,remote,.writing a id .open_ todo⟩
      (Written g lib slug queue blocked v (done ++ [a]) journal id todo) := by
  have slug_ := slug_eq setting
  have queue_ := setting.queue
  subst slug_ queue_
  have ids := identified_at setting.com working.sound
  have labelled := setting.labelled a member create
  have card := fun reply => @queueItem_card g lib a labelled reply
  refine Sync.Leads.step (by simp) (fun first obliging => ?_)
  rw [Sync.solo_next (advance_open obliging.carriedOut obliging.answered)]
  refine Sync.Leads.step (by simp) (fun second carries => ?_)
  obtain ⟨result,linking⟩ := @advance_link g lib _ _ _ a second.reply carries.carriedOut carries.answered
    first.reply.assigned.id (.int first.reply.assigned.number)
  rw [Sync.solo_ended linking]
  have number : numberOf (g.queueItem a first.reply) = some first.reply.assigned.number := rfl
  have ident : idOf (g.queueItem a first.reply) = some first.reply.assigned.id := rfl
  have posted := @board_posted g lib remote (⟨g,seen⟩ : Sync).orgSlug seen.queueIssue blocked (g.queueItem a first.reply) _ ident
  rw [card] at posted
  refine .here ⟨rfl,⟨result,rfl⟩,?_,?_,?_⟩
  · exact (working.sound.posted number obliging.positive ident obliging.number obliging.id).linked _ _ _
  · refine working.progress.posted create posts rfl rfl rfl ?_ ?_ posted
    · intro c known same
      obtain ⟨issue,listed,own,_⟩ := item_of setting working known
      exact obliging.number issue listed (own.trans (congrArg some same))
    · intro c known same
      obtain ⟨issue,listed,_,own,_⟩ := item_of setting working known
      exact obliging.id issue listed (own.trans (congrArg some same))
  · refine posted.single working.single ?_
    intro c known s source
    cases source
    exact working.progress.absent none_ others c known

omit subset others in
theorem leads_linked {number : Json} {c : Card} (known : c ∈ v.cards) (create : a.operation = "create")
    (target : a.target = some c.number) (quiet : ∀ d ∈ done, d.turns c.number = none) {at_ : GitHub}
    (sound : g.Sound at_)
    (moved : Moved (g.homeOf slug) c.number true [] (g.boardOf lib remote slug queue blocked) (g.boardOf lib at_ slug queue blocked)) :
    (⟨g,seen⟩ : Sync).Leads lib slug ⟨journal,at_,.writing a id (.link c.id number) todo⟩
      (Written g lib slug queue blocked v (done ++ [a]) journal id todo) := by
  have slug_ := slug_eq setting
  have queue_ := setting.queue
  subst slug_ queue_
  refine Sync.Leads.step (by simp) (fun input carries => ?_)
  obtain ⟨result,linking⟩ := @advance_link g lib at_ _ _ a input.reply carries.carriedOut carries.answered c.id number
  rw [Sync.solo_ended linking]
  have attached := board_linked c.id moved
  have turns : ∀ m, a.turns m = if m = c.number then some true else none := by
    intro m
    cases a with
    | create s title body existing version =>
      cases target
      simp only [QueueAction.turns,eq_comm]
    | close s m version => exact absurd create (by simp [QueueAction.operation])
  refine .here ⟨rfl,⟨result,rfl⟩,sound.linked _ _ _,?_,attached.single working.single⟩
  refine working.progress.moved turns quiet target ⟨c,known,rfl⟩ ?_ attached
  intro d listed
  rw [List.nil_append,List.mem_singleton]
  constructor
  · intro same
    exact ⟨create,by rw [List.inj_on_of_nodup_map setting.distinct.ids listed known same]⟩
  · rintro ⟨_,same⟩
    rw [setting.distinct.card known listed same]

theorem leads_raised {c : Card} (known : c ∈ v.cards) (source : c.source = some a.sourceKey) (create : a.operation = "create")
    (target : a.target = some c.number) :
    (⟨g,seen⟩ : Sync).Leads lib slug ⟨journal,remote,.writing a id (.fetch c.number) todo⟩
      (Written g lib slug queue blocked v (done ++ [a]) journal id todo) := by
  have slug_ := slug_eq setting
  have queue_ := setting.queue
  subst slug_ queue_
  have ids := identified_at setting.com working.sound
  have quiet := setting.planned.quiet setting.distinct subset others known source
  obtain ⟨issue,listed,own,ident,named,opened⟩ := item_of setting working known
  have found : GitHub.numbered (remote.listedIssues (⟨g,seen⟩ : Sync).orgSlug) c.number = some issue :=
    (numbered_iff ids).mpr ⟨listed,own⟩
  have marked : sourceIn (bodyOf lib.toTextLibrary issue).toList ≠ none := by
    change sourceOf lib issue ≠ none
    rw [named,source]
    simp
  refine Sync.Leads.step (by simp) (fun first obliging => ?_)
  cases state : isOpen issue with
  | true =>
    obtain ⟨number,fetched⟩ := @advance_fetch_open g lib remote _ seen.queueIssue a first.reply obliging.answered _ _ found
      marked state _ ident
    rw [Sync.solo_next fetched]
    exact leads_linked setting working member known create target quiet working.sound (board_open ids listed own state)
  | false =>
    rw [Sync.solo_next (advance_fetch_closed obliging.answered found marked state)]
    refine Sync.Leads.step (by simp) (fun second carries => ?_)
    obtain ⟨number,reopened⟩ := @advance_reopen g lib remote _ seen.queueIssue a second.reply carries.carriedOut
      carries.answered _ _ found _ ident
    rw [Sync.solo_next reopened]
    exact leads_linked setting working member known create target quiet
      (working.sound.patched (reopening_restates second.reply) _)
      (board_patched ids (reopening_restates second.reply) c.number)

theorem leads_closed {c : Card} (known : c ∈ v.cards) (source : c.source = some a.sourceKey) (close : a.operation = "close")
    (target : a.target = some c.number) :
    (⟨g,seen⟩ : Sync).Leads lib slug ⟨journal,remote,.writing a id (.close c.number) todo⟩
      (Written g lib slug queue blocked v (done ++ [a]) journal id todo) := by
  have slug_ := slug_eq setting
  have queue_ := setting.queue
  subst slug_ queue_
  have ids := identified_at setting.com working.sound
  have quiet := setting.planned.quiet setting.distinct subset others known source
  obtain ⟨issue,listed,own,_⟩ := item_of setting working known
  have found : GitHub.numbered (remote.listedIssues (⟨g,seen⟩ : Sync).orgSlug) c.number = some issue :=
    (numbered_iff ids).mpr ⟨listed,own⟩
  refine Sync.Leads.step (by simp) (fun input carries => ?_)
  obtain ⟨result,closed⟩ := @advance_close g lib remote _ seen.queueIssue a input.reply carries.carriedOut carries.answered
    _ _ found
  rw [Sync.solo_ended closed]
  have moved := @board_patched g lib remote _ seen.queueIssue blocked ids _ _ (closing_restates input.reply) c.number
  have turns : ∀ m, a.turns m = if m = c.number then some false else none := by
    intro m
    cases a with
    | create s title body existing version => exact absurd close (by simp [QueueAction.operation])
    | close s k version =>
      cases target
      simp only [QueueAction.turns,eq_comm]
  refine .here ⟨rfl,⟨result,rfl⟩,working.sound.patched (closing_restates input.reply) _,?_,moved.single working.single⟩
  refine working.progress.moved turns quiet target ⟨c,known,rfl⟩ ?_ moved
  intro d _
  simp [close]

theorem leads_written : (⟨g,seen⟩ : Sync).Leads lib slug ⟨journal,remote,.writing a id a.start todo⟩
    (Written g lib slug queue blocked v (done ++ [a]) journal id todo) := by
  have due := setting.planned.due a member
  cases due with
  | post wanted none_ => exact leads_posted setting working member others rfl rfl none_
  | raise c wanted known source down =>
    have positive := setting.distinct.positive.1 c known
    have start (s title body version : String) : (QueueAction.create s title body (some c.number) version).start = .fetch c.number :=
      if_neg (by omega)
    rw [start]
    exact leads_raised setting working subset member others known source rfl rfl
  | close c unwanted known source opened attached => exact leads_closed setting working subset member others known source rfl rfl

end Work

section Loop
variable {blocked : List DesiredQueueItem} {v : Board} {seen : Snapshot}
  (setting : Setting g lib slug queue blocked v seen)
include setting

/-- One round of the sync: an action whose row is spent is passed by, any other is done. -/
theorem leads_round {done : List QueueAction} (working : Working g lib slug queue blocked v done remote)
    (subset : done ⊆ seen.actions) (member : a ∈ seen.actions) (others : ∀ d ∈ done, d.sourceKey ≠ a.sourceKey)
    {journal : Journal} (unique : KeysUnique journal.reconciliations) (matching : (⟨g,seen⟩ : Sync).Matching lib journal a)
    (todo : List QueueAction) :
    (⟨g,seen⟩ : Sync).Leads lib slug ⟨journal,remote,.pending (a::todo)⟩ (fun y =>
      y.point = .pending todo ∧ KeysUnique y.journal.reconciliations ∧
        Journal.Beside ((⟨g,seen⟩ : Sync).keyOf lib a) journal.reconciliations y.journal.reconciliations ∧
        Working g lib slug queue blocked v
          (done ++ [a].filter (fun b => !decide ((⟨g,seen⟩ : Sync).Spent lib journal b))) y.remote) := by
  refine Sync.Leads.step (by simp) (fun input obliging => ?_)
  have fresh : ∀ row ∈ journal.reconciliations.rows, row.operationId ≠ input.operationId := obliging.operationId
  by_cases spent : (⟨g,seen⟩ : Sync).Spent lib journal a
  · rw [Sync.solo_spent unique matching spent]
    refine .here ⟨rfl,unique,Table.Apart.refl _,?_⟩
    rw [List.filter_cons_of_neg (by simp [spent]),List.filter_nil,List.append_nil]
    exact working
  · obtain ⟨row,reserved,step,planned,own,there,beside,change⟩ :=
      @Sync.solo_reserved lib _ journal remote input a todo matching spent fresh
    rw [step]
    refine Sync.Leads.step (by simp) (fun input _ => ?_)
    obtain ⟨claiming,claimed,step,found,applying,same,apart,claim⟩ :=
      @Sync.solo_claimed lib ⟨g,seen⟩ reserved remote input a todo _ row there planned
    rw [step]
    refine (leads_written setting working subset member others).trans ?_
    rintro y ⟨kept,⟨result,ends⟩,further⟩
    cases y with
    | mk journal' remote' point =>
      cases kept
      cases ends
      refine Sync.Leads.step (by simp) (fun input _ => ?_)
      obtain ⟨after,step,last,finish⟩ := @Sync.solo_settled lib ⟨g,seen⟩ journal' remote' input todo _ claimed result found applying
      rw [step]
      refine .here ⟨rfl,finish.unique (claim.unique (change.unique unique)),?_,?_⟩
      · rw [own] at apart same
        rw [same] at last
        exact (beside.trans apart).trans last
      · rw [List.filter_cons_of_pos (by simp [spent]),List.filter_nil]
        exact further

/-- A whole sync leaves out the actions whose rows were spent before it. -/
theorem leads_all {origin : Journal} (matching : ∀ a ∈ seen.actions, (⟨g,seen⟩ : Sync).Matching lib origin a)
    (keys : (seen.actions.map ((⟨g,seen⟩ : Sync).keyOf lib)).Nodup) (todo : List QueueAction) :
    ∀ before, seen.actions = before ++ todo → ∀ journal : Journal, KeysUnique journal.reconciliations →
      (∀ a ∈ todo, ∀ row : ReconcileOperation, row.idempotencyKey = (⟨g,seen⟩ : Sync).keyOf lib a →
        (row ∈ journal.reconciliations.rows ↔ row ∈ origin.reconciliations.rows)) → ∀ remote : GitHub,
      Working g lib slug queue blocked v
        (before.filter (fun a => !decide ((⟨g,seen⟩ : Sync).Spent lib origin a))) remote →
      (⟨g,seen⟩ : Sync).Leads lib slug ⟨journal,remote,.pending todo⟩ (fun y => y.point = .stopped ∧
        Working g lib slug queue blocked v
          (seen.actions.filter (fun a => !decide ((⟨g,seen⟩ : Sync).Spent lib origin a))) y.remote) := by
  induction todo with
  | nil =>
    intro before whole journal _ _ remote working
    refine Sync.Leads.step (by simp) (fun input _ => .here ⟨rfl,?_⟩)
    rw [whole,List.append_nil]
    exact working
  | cons a todo ih =>
    intro before whole journal unique untouched remote working
    have member : a ∈ seen.actions := by simp [whole]
    have same := untouched a List.mem_cons_self
    have own : (⟨g,seen⟩ : Sync).Matching lib journal a :=
      fun row present key => matching a member row ((same row key).mp present) key
    have spent : (⟨g,seen⟩ : Sync).Spent lib journal a ↔ (⟨g,seen⟩ : Sync).Spent lib origin a := by
      refine exists_congr (fun row => ?_)
      constructor
      · exact fun ⟨present,key,left⟩ => ⟨(same row key).mp present,key,left⟩
      · exact fun ⟨present,key,left⟩ => ⟨(same row key).mpr present,key,left⟩
    have apart := setting.planned.apart
    rw [whole,List.map_append,List.map_cons] at apart keys
    obtain ⟨_,rest,between⟩ := List.nodup_append.mp apart
    have others : ∀ d ∈ before.filter (fun a => !decide ((⟨g,seen⟩ : Sync).Spent lib origin a)), d.sourceKey ≠ a.sourceKey :=
      fun d inside => between _ (List.mem_map_of_mem (List.mem_of_mem_filter inside)) _ List.mem_cons_self
    have subset : before.filter (fun a => !decide ((⟨g,seen⟩ : Sync).Spent lib origin a)) ⊆ seen.actions := by
      intro d inside
      rw [whole]
      exact List.mem_append_left _ (List.mem_of_mem_filter inside)
    refine (leads_round setting working subset member others unique own todo).trans ?_
    rintro ⟨journal',remote',point⟩ ⟨pending,unique',beside,further⟩
    cases pending
    refine ih (before ++ [a]) (by rw [whole,List.append_assoc]; rfl) journal' unique' ?_ remote' ?_
    · intro b later row key
      have differ : row.idempotencyKey ≠ (⟨g,seen⟩ : Sync).keyOf lib a := by
        intro equal
        have behind := (List.nodup_cons.mp (List.nodup_append.mp keys).2.1).1
        exact behind (equal ▸ key ▸ List.mem_map_of_mem later)
      rw [beside row differ]
      exact untouched b (List.mem_cons_of_mem _ later) row key
    · have equal : [a].filter (fun b => !decide ((⟨g,seen⟩ : Sync).Spent lib journal b)) =
          [a].filter (fun b => !decide ((⟨g,seen⟩ : Sync).Spent lib origin b)) := by
        refine List.filter_congr (fun b inside => ?_)
        rw [List.mem_singleton.mp inside,decide_eq_decide.mpr spent]
      rw [List.filter_append,← equal]
      exact further

end Loop

end GovernanceMonitor
end SjgControl

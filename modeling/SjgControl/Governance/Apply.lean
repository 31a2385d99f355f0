import SjgControl.Governance.Sync
import SjgControl.Hoare

/-! A sync whose API calls may do anything: each of them may have been carried out or not, and
may return any value or raise any `Exception`. What becomes of the operations it claims is
compared with what the calls answered. -/
namespace SjgControl
open Relational Hoare

/-- An `Exception`, by the clauses of `_apply` that tell it from others. -/
inductive MonitorException where
  | gitHub (message : String)
  | os (message : String)
  | governance (message : String)
  | key (message : String)
  | type (message : String)
  | value (message : String)
  | store (error : StoreError)
  | other (name : String)
  deriving DecidableEq

namespace MonitorException

/-- `except (GitHubError, OSError)`. -/
def unsettled : MonitorException → Prop
  | .gitHub _ | .os _ => True
  | _ => False

/-- `except (GovernanceError, KeyError, TypeError, ValueError)`. -/
def refused : MonitorException → Prop
  | .governance _ | .key _ | .type _ | .value _ => True
  | _ => False

instance : DecidablePred unsettled := fun e => by cases e <;> unfold unsettled <;> infer_instance

instance : DecidablePred refused := fun e => by cases e <;> unfold refused <;> infer_instance

def text : MonitorException → String
  | .gitHub message | .os message | .governance message | .key message | .type message | .value message => message
  | .store _ => ""
  | .other name => name

end MonitorException

inductive MonitorCall where
  | get (slug : String) (number : Int)
  | reopen (slug : String) (number : Int)
  | create (slug title body assignee : String)
  | link (slug : String) (queue : Int) (id : Json)
  | close (slug : String) (number : Int)

def MonitorCall.writes : MonitorCall → Prop
  | .get _ _ => False
  | _ => True

instance : DecidablePred MonitorCall.writes := fun call => by cases call <;> unfold MonitorCall.writes <;> infer_instance

structure MonitorAnswer where
  carriedOut : Bool
  outcome : Except MonitorException Json

abbrev Transcript := List (MonitorCall × MonitorAnswer)

def Transcript.wrote (t : Transcript) : Prop := ∃ entry ∈ t, entry.1.writes ∧ entry.2.carriedOut = true

instance (t : Transcript) : Decidable t.wrote :=
  inferInstanceAs (Decidable (∃ entry ∈ t, entry.1.writes ∧ entry.2.carriedOut = true))

structure SyncInputs where
  answer : Nat → MonitorAnswer
  operationId : Nat → String
  now : Nat → Instant

structure Talk where
  calls : Nat
  transcript : Transcript

structure ApplyState where
  journal : Journal
  calls : Nat
  actions : Nat
  -- the operations that were claimed, each with its calls
  claimed : List (String × Transcript)

namespace GovernanceMonitor
variable (g : GovernanceMonitor) (lib : MonitorLibrary) (io : SyncInputs)

def api (call : MonitorCall) : EStateM MonitorException Talk Json := fun s =>
  let answer := io.answer s.calls
  let s : Talk := ⟨s.calls + 1,s.transcript ++ [(call,answer)]⟩
  match answer.outcome with
  | .ok value => .ok value s
  | .error e => .error e s

/-- `isinstance(value, int)`. -/
def isInt : Json → Bool
  | .int _ => true
  | .bool _ => true
  | _ => false

def queueIssue (slug : String) (title body : String) (existing : Option Int) : EStateM MonitorException Talk Json :=
  match existing.filter (fun number => number ≠ 0) with
  | none => api io (.create slug title body g.principalGithub)
  | some number => do
    match ← api io (.get slug number) with
    | .obj issue =>
      if sourceIn (bodyOf lib.toTextLibrary issue).toList = none then
        throw (.governance "existing managed queue issue changed before apply")
      else if isOpen issue then return .obj issue
      else api io (.reopen slug number)
    | _ => throw (.governance "existing managed queue issue changed before apply")

/-- The body of the `try` statement. -/
def perform (slug : String) (queue : Int) : QueueAction → EStateM MonitorException Talk Json
  | .create _ title body existing _ => do
    match ← g.queueIssue lib io slug title body existing with
    | .obj issue =>
      if isInt (Json.get issue "id") then
        let _ ← api io (.link slug queue (Json.get issue "id"))
        return .obj [("number",Json.get issue "number"),("queue_issue",.int queue)]
      else throw (.gitHub "GitHub issue creation/reopen response is incomplete")
    | _ => throw (.gitHub "GitHub issue creation/reopen response is incomplete")
  | .close _ issue _ => do
    let _ ← api io (.close slug issue)
    return .obj [("number",.int issue),("state",.str "closed")]

def finish (operationId : String) (state : ReconcileState) (result : Json) :
    EStateM MonitorException ApplyState ReconcileState := fun s =>
  match s.journal.finishReconcile operationId state (some result) (io.now s.actions) with
  | .error e => .error (.store e) s
  | .ok ((),journal) => .ok state {s with journal}

def carryOut (slug : String) (queue : Int) (a : QueueAction) (operationId : String) :
    EStateM MonitorException ApplyState ReconcileState := fun s =>
  match g.perform lib io slug queue a ⟨s.calls,[]⟩ with
  | .ok result talk =>
    finish io operationId .succeeded result
      {s with calls := talk.calls, claimed := s.claimed ++ [(operationId,talk.transcript)]}
  | .error e talk =>
    let s := {s with calls := talk.calls, claimed := s.claimed ++ [(operationId,talk.transcript)]}
    if e.unsettled then finish io operationId .verifyPending (failure e.text) s
    else if e.refused then finish io operationId .deadLetter (failure e.text) s
    else .error e s

def apply (slug : String) (queue : Int) (a : QueueAction) : EStateM MonitorException ApplyState ReconcileState := fun s =>
  let s := {s with actions := s.actions + 1}
  match s.journal.reserveReconcile (io.operationId s.actions) (g.actionKey lib queue a) a.sourceKey a.operation
      (g.preconditionJson queue a) (io.now s.actions) with
  | .error e => .error (.store e) s
  | .ok (row,journal) =>
    if row.state ≠ .planned then .ok row.state {s with journal}
    else
      match journal.markReconcileApplying row.operationId (io.now s.actions) with
      | .error e => .error (.store e) {s with journal}
      | .ok ((),journal) => g.carryOut lib io slug queue a row.operationId {s with journal}

/-- `sync`, from the organization repository and the snapshot that its first half gives. -/
def sync (seen : Except MonitorException (String × Snapshot)) : EStateM MonitorException ApplyState Unit :=
  match seen with
  | .error e => throw e
  | .ok (slug,snapshot) =>
    if snapshot.conflicts ≠ [] then pure ()
    else snapshot.actions.forM (fun a => do
      let _ ← g.apply lib io slug snapshot.queueIssue a
      return ())

end GovernanceMonitor

/-! What the calls of one operation come to. -/

namespace Transcript

def Calm (t : Transcript) : Prop := ∀ entry ∈ t, ∀ e, entry.2.outcome ≠ .error e

/-- The exception has a clause, and that of the refusals only if nothing was written. -/
def Fits (e : MonitorException) (t : Transcript) : Prop := e.unsettled ∨ e.refused ∧ ¬ t.wrote

/-- So does each exception that one of the calls raised. -/
def Bearable (t : Transcript) : Prop := ∀ entry ∈ t, ∀ e, entry.2.outcome = .error e → Fits e t

variable {t : Transcript}

theorem Calm.bearable (calm : Calm t) : t.Bearable := fun entry inside e raised => absurd raised (calm entry inside e)

end Transcript

namespace GovernanceMonitor
open Transcript

variable {g : GovernanceMonitor} {lib : MonitorLibrary} {io : SyncInputs}

def Raised (e : MonitorException) (s : Talk) : Prop := s.transcript.Bearable ↔ Fits e s.transcript

theorem api_talk {call : MonitorCall} {keep : Transcript → Prop}
    (kept : ∀ t answer, keep t → keep (t ++ [(call,answer)])) :
    Triple (fun s => Calm s.transcript ∧ keep s.transcript) (api io call) (fun _ s => Calm s.transcript ∧ keep s.transcript)
      Raised := by
  rintro s ⟨calm,held⟩
  unfold api
  cases outcome : (io.answer s.calls).outcome with
  | ok value =>
    simp only [outcome]
    refine ⟨?_,kept _ _ held⟩
    intro entry inside e raised
    rcases List.mem_append.mp inside with old | new
    · exact calm entry old e raised
    · rw [List.mem_singleton.mp new,outcome] at raised
      cases raised
  | error e =>
    simp only [outcome]
    constructor
    · intro bearable
      exact bearable _ (List.mem_append_right _ (List.mem_singleton.mpr rfl)) e outcome
    · intro fits entry inside e' raised
      rcases List.mem_append.mp inside with old | new
      · exact absurd raised (calm entry old e')
      · rw [List.mem_singleton.mp new,outcome] at raised
        cases raised
        exact fits

theorem api_calm {call : MonitorCall} :
    Triple (fun s => Calm s.transcript) (api io call) (fun _ s => Calm s.transcript) Raised :=
  (@api_talk io call (fun _ => True) (fun _ _ _ => trivial)).weaken (fun _ calm => ⟨calm,trivial⟩)
    (fun _ _ calm => calm.1) (fun _ _ raised => raised)

theorem get_unwritten {slug : String} {number : Int} :
    Triple (fun s => Calm s.transcript ∧ ¬ s.transcript.wrote) (api io (.get slug number))
      (fun _ s => Calm s.transcript ∧ ¬ s.transcript.wrote) Raised := by
  apply @api_talk io _ (fun t => ¬ t.wrote)
  rintro t answer unwritten ⟨entry,inside,writes,carried⟩
  rcases List.mem_append.mp inside with old | new
  · exact unwritten ⟨entry,old,writes,carried⟩
  · rw [List.mem_singleton.mp new] at writes
    exact writes

theorem throw_raised {α : Type} (e : MonitorException) {pre : Talk → Prop} (calm : ∀ s, pre s → Calm s.transcript)
    (fits : ∀ s, pre s → Fits e s.transcript) {post : α → Talk → Prop} :
    Triple pre (throw e : EStateM MonitorException Talk α) post Raised :=
  Triple.throw (fun s holds => iff_of_true (calm s holds).bearable (fits s holds))

theorem queueIssue_talk {slug title body : String} {existing : Option Int} :
    Triple (fun s => s.transcript = []) (g.queueIssue lib io slug title body existing) (fun _ s => Calm s.transcript)
      Raised := by
  have start (s : Talk) (empty : s.transcript = []) : Calm s.transcript ∧ ¬ s.transcript.wrote := by
    rw [empty]
    exact ⟨fun _ inside => absurd inside List.not_mem_nil,fun ⟨_,inside,_⟩ => absurd inside List.not_mem_nil⟩
  have changed {post : Json → Talk → Prop} : Triple (fun s => Calm s.transcript ∧ ¬ s.transcript.wrote)
      (throw (.governance "existing managed queue issue changed before apply") : EStateM MonitorException Talk Json)
      post Raised :=
    throw_raised (.governance _) (fun _ holds => holds.1) (fun _ holds => .inr ⟨trivial,holds.2⟩)
  unfold queueIssue
  split
  next => exact api_calm.weaken (fun s empty => (start s empty).1) (fun _ _ calm => calm) (fun _ _ raised => raised)
  next number _ =>
    refine (get_unwritten.weaken start (fun _ _ holds => holds) (fun _ _ raised => raised)).bind (fun value => ?_)
    split
    next issue =>
      refine Triple.ite (fun _ => changed) (fun _ => Triple.ite (fun _ => Triple.pure (fun _ holds => holds.1)) (fun _ => ?_))
      exact api_calm.weaken (fun _ holds => holds.1) (fun _ _ calm => calm) (fun _ _ raised => raised)
    next => exact changed

/-- If a call sequence raises, its calls are bearable exactly if the exception fits them. -/
theorem perform_talk {slug : String} {queue : Int} {a : QueueAction} :
    Triple (fun s => s.transcript = []) (g.perform lib io slug queue a) (fun _ s => Calm s.transcript) Raised := by
  have incomplete {post : Json → Talk → Prop} : Triple (fun s => Calm s.transcript)
      (throw (.gitHub "GitHub issue creation/reopen response is incomplete") : EStateM MonitorException Talk Json)
      post Raised :=
    throw_raised (.gitHub _) (fun _ calm => calm) (fun _ _ => .inl trivial)
  unfold perform
  split
  next source title body existing version =>
    refine queueIssue_talk.bind (fun value => ?_)
    split
    next issue =>
      refine Triple.ite (fun _ => ?_) (fun _ => incomplete)
      exact api_calm.bind (fun _ => Triple.pure (fun _ calm => calm))
    next => exact incomplete
  next source issue version =>
    refine Triple.bind (api_calm.weaken ?_ (fun _ _ calm => calm) (fun _ _ raised => raised)) (fun _ => Triple.pure (fun _ calm => calm))
    intro s empty
    rw [empty]
    exact fun _ inside => absurd inside List.not_mem_nil

/-! What becomes of the operation. -/

/-- The operation is decided, and given up only if nothing was written for it. -/
def Decided (db : Journal) (entry : String × Transcript) : Prop :=
  ∃ row ∈ db.reconciliations.get entry.1, row.state = .succeeded ∨ row.state = .verifyPending ∨
    row.state = .deadLetter ∧ ¬ entry.2.wrote

instance (db : Journal) (entry : String × Transcript) : Decidable (Decided db entry) :=
  inferInstanceAs (Decidable (∃ row ∈ db.reconciliations.get entry.1, row.state = .succeeded ∨ row.state = .verifyPending ∨
    row.state = .deadLetter ∧ ¬ entry.2.wrote))

/-- Every claimed operation so far is decided exactly if its calls were bearable. -/
def Judged (s : ApplyState) : Prop :=
  ∀ entry ∈ s.claimed, (Decided s.journal entry ↔ entry.2.Bearable) ∧
    ∃ row ∈ s.journal.reconciliations.get entry.1, row.state ≠ .planned

theorem Judged.kept {s next : ApplyState} (judged : Judged s) (claimed : next.claimed = s.claimed)
    (rows : ∀ id row, s.journal.reconciliations.get id = some row → row.state ≠ .planned →
      next.journal.reconciliations.get id = some row) : Judged next := by
  intro entry inside
  rw [claimed] at inside
  obtain ⟨decided,row,found,state⟩ := judged entry inside
  have same := rows entry.1 row found state
  refine ⟨?_,row,same,state⟩
  rw [← decided]
  unfold Decided
  rw [same,found]

theorem get_moved (t : Table ReconcileOperation) (id : String) (f : ReconcileOperation → ReconcileOperation)
    (keeps : ∀ r, Keyed.key (f r) = Keyed.key r) (k : String) :
    (t.update (fun r => r.operationId = id) f keeps).get k = if k = id then (t.get id).map f else t.get k := by
  rw [Table.get_update]
  by_cases here : k = id
  · subst here
    rw [if_pos rfl]
    refine Option.map_congr ?_
    intro row found
    exact if_pos (Table.get_eq_some.mp found).2
  · rw [if_neg here]
    refine (Option.map_congr ?_).trans Option.map_id'
    intro row found
    exact if_neg (fun own => here ((Table.get_eq_some.mp found).2.symm.trans own))

theorem reserve_rows {db next : Journal} {id key source operation precondition : String} {now : Instant}
    {row : ReconcileOperation} (ok : db.reserveReconcile id key source operation precondition now = .ok (row,next)) :
    ∀ k r, db.reconciliations.get k = some r → next.reconciliations.get k = some r := by
  intro k r found
  obtain ⟨_,⟨_,_,rfl⟩ | ⟨_,rfl,table,inserted,rfl⟩⟩ := Journal.reserveReconcile_effect ok
  · exact found
  · rw [Table.get_insert inserted,if_neg]
    · exact found
    · intro same
      have fresh := Table.insert_fresh inserted
      rw [same,found] at fresh
      cases fresh

theorem finish_applying {s : ApplyState} {id : String} {row : ReconcileOperation} {state : ReconcileState} {result : Json}
    (found : s.journal.reconciliations.get id = some row) (applying : row.state = .applying)
    (allowed : state ∈ [ReconcileState.verifyPending,.succeeded,.deadLetter]) :
    ∃ next, finish io id state result s = .ok state next ∧ next.claimed = s.claimed ∧
      (∃ after, next.journal.reconciliations.get id = some after ∧ after.state = state) ∧
      ∀ k, k ≠ id → next.journal.reconciliations.get k = s.journal.reconciliations.get k := by
  have ok : ∃ journal, s.journal.finishReconcile id state (some result) (io.now s.actions) = .ok ((),journal) ∧
      journal.reconciliations = s.journal.reconciliations.update (fun r => r.operationId = id)
        (fun r => {r with state,externalResult := some result,updatedAt := (io.now s.actions).isoText}) (fun _ => rfl) := by
    refine ⟨{s.journal with
      reconciliations := s.journal.reconciliations.update (fun r => r.operationId = id)
        (fun r => {r with state,externalResult := some result,updatedAt := (io.now s.actions).isoText}) (fun _ => rfl)},?_,rfl⟩
    simp only [Journal.finishReconcile,require_bind_ok,pure_ok]
    refine ⟨allowed,⟨row,found,?_⟩,trivial⟩
    rw [applying]
    exact allowed
  obtain ⟨journal,done,rows⟩ := ok
  refine ⟨{s with journal},?_,rfl,?_,?_⟩
  · unfold finish
    rw [done]
  · dsimp only
    rw [rows,get_moved,if_pos rfl,found]
    exact ⟨_,rfl,rfl⟩
  · intro k other
    dsimp only
    rw [rows,get_moved,if_neg other]

theorem carryOut_judged {slug : String} {queue : Int} {a : QueueAction} {id : String} :
    Triple (fun s => Judged s ∧ (∃ row, s.journal.reconciliations.get id = some row ∧ row.state = .applying) ∧
        ∀ entry ∈ s.claimed, entry.1 ≠ id)
      (g.carryOut lib io slug queue a id) (fun _ => Judged) (fun _ => Judged) := by
  rintro s ⟨judged,⟨row,found,applying⟩,others⟩
  -- the new entry is judged by itself, the others are as they were
  have add {t : Transcript} {next : ApplyState} (claimed : next.claimed = s.claimed ++ [(id,t)])
      (rows : ∀ k, k ≠ id → next.journal.reconciliations.get k = s.journal.reconciliations.get k)
      (there : ∃ after, next.journal.reconciliations.get id = some after ∧ after.state ≠ .planned)
      (here : Decided next.journal (id,t) ↔ t.Bearable) : Judged next := by
    intro entry inside
    rw [claimed] at inside
    rcases List.mem_append.mp inside with old | new
    · have same := rows entry.1 (others entry old)
      obtain ⟨decided,kept⟩ := judged entry old
      unfold Decided at decided ⊢
      rw [same]
      exact ⟨decided,kept⟩
    · rw [List.mem_singleton.mp new]
      exact ⟨here,there⟩
  have talked := @perform_talk g lib io slug queue a ⟨s.calls,[]⟩ rfl
  unfold carryOut
  cases performed : g.perform lib io slug queue a ⟨s.calls,[]⟩ with
  | ok result talk =>
    rw [performed] at talked
    obtain ⟨next,done,claimed,⟨after,there,state⟩,rows⟩ := @finish_applying io
      {s with calls := talk.calls, claimed := s.claimed ++ [(id,talk.transcript)]} id row .succeeded result found applying
      (by simp)
    dsimp only
    rw [done]
    exact add claimed rows ⟨after,there,by simp [state]⟩ (iff_of_true ⟨after,there,.inl state⟩ (Calm.bearable talked))
  | error e talk =>
    rw [performed] at talked
    dsimp only
    by_cases unsettled : e.unsettled
    · rw [if_pos unsettled]
      obtain ⟨next,done,claimed,⟨after,there,state⟩,rows⟩ := @finish_applying io
        {s with calls := talk.calls, claimed := s.claimed ++ [(id,talk.transcript)]} id row .verifyPending (failure e.text)
        found applying (by simp)
      rw [done]
      exact add claimed rows ⟨after,there,by simp [state]⟩
        (iff_of_true ⟨after,there,.inr (.inl state)⟩ (talked.mpr (.inl unsettled)))
    · rw [if_neg unsettled]
      by_cases refused : e.refused
      · rw [if_pos refused]
        obtain ⟨next,done,claimed,⟨after,there,state⟩,rows⟩ := @finish_applying io
          {s with calls := talk.calls, claimed := s.claimed ++ [(id,talk.transcript)]} id row .deadLetter (failure e.text)
          found applying (by simp)
        rw [done]
        refine add claimed rows ⟨after,there,by simp [state]⟩ ?_
        have gone : Decided next.journal (id,talk.transcript) ↔ ¬ talk.transcript.wrote := by
          unfold Decided
          rw [there]
          simp [state]
        have fits : Fits e talk.transcript ↔ ¬ talk.transcript.wrote := by
          unfold Fits
          simp [unsettled,refused]
        rw [gone,← fits]
        exact talked.symm
      · rw [if_neg refused]
        refine add rfl (fun _ _ => rfl) ⟨row,found,by simp [applying]⟩ ?_
        have stuck : ¬ Decided s.journal (id,talk.transcript) := by
          unfold Decided
          rw [found]
          simp [applying]
        refine iff_of_false stuck ?_
        intro bearable
        rcases talked.mp bearable with left | ⟨right,_⟩
        · exact unsettled left
        · exact refused right

theorem apply_judged {slug : String} {queue : Int} {a : QueueAction} :
    Triple Judged (g.apply lib io slug queue a) (fun _ => Judged) (fun _ => Judged) := by
  intro s judged
  unfold apply
  dsimp only
  cases reserved : s.journal.reserveReconcile (io.operationId (s.actions + 1)) (g.actionKey lib queue a) a.sourceKey a.operation
      (g.preconditionJson queue a) (io.now (s.actions + 1)) with
  | error e => exact judged.kept rfl (fun _ _ found _ => found)
  | ok pair =>
    obtain ⟨row,journal⟩ := pair
    have noted : Judged {s with actions := s.actions + 1, journal} :=
      judged.kept rfl (fun id r found _ => reserve_rows reserved id r found)
    dsimp only
    by_cases later : row.state ≠ .planned
    · rw [if_pos later]
      exact noted
    · rw [if_neg later]
      cases marked : journal.markReconcileApplying row.operationId (io.now (s.actions + 1)) with
      | error e => exact noted
      | ok pair =>
        obtain ⟨_,claimed⟩ := pair
        obtain ⟨planned,rfl⟩ := Journal.markReconcileApplying_effect marked
        obtain ⟨old,found,state⟩ := Option.map_eq_some_iff.mp planned
        -- the row was planned, so no operation before was this one
        have others {id : String} {r : ReconcileOperation} (there : journal.reconciliations.get id = some r)
            (moved : r.state ≠ .planned) : id ≠ row.operationId := by
          rintro rfl
          rw [found] at there
          cases there
          exact moved state
        apply carryOut_judged
        refine ⟨noted.kept rfl ?_,?_,?_⟩
        · intro id r there moved
          dsimp only
          rw [get_moved,if_neg (others there moved)]
          exact there
        · dsimp only
          rw [get_moved,if_pos rfl,found]
          exact ⟨_,rfl,rfl⟩
        · intro entry inside
          obtain ⟨_,r,there,moved⟩ := noted entry inside
          exact others there moved

theorem sync_judged {seen : Except MonitorException (String × Snapshot)} :
    Triple Judged (g.sync lib io seen) (fun _ => Judged) (fun _ => Judged) := by
  unfold sync
  split
  next => exact Triple.throw (fun _ judged => judged)
  next slug snapshot =>
    refine Triple.ite (fun _ => Triple.pure (fun _ judged => judged)) (fun _ => Triple.forM_const (fun a _ => ?_))
    exact apply_judged.bind (fun _ => Triple.pure (fun _ judged => judged))

/-- When a sync has returned or raised, each operation it claimed is succeeded, to be verified
or given up without a write, exactly if every exception that a call raised has a clause in
`_apply`, and has that of the refusals only where nothing was written. -/
theorem decided_iff (g : GovernanceMonitor) (lib : MonitorLibrary) (io : SyncInputs)
    (seen : Except MonitorException (String × Snapshot)) (db : Journal) :
    (∀ entry ∈ (endState (g.sync lib io seen ⟨db,0,0,[]⟩)).claimed,
        Decided (endState (g.sync lib io seen ⟨db,0,0,[]⟩)).journal entry) ↔
      ∀ entry ∈ (endState (g.sync lib io seen ⟨db,0,0,[]⟩)).claimed, entry.2.Bearable := by
  have judged : Judged (endState (g.sync lib io seen ⟨db,0,0,[]⟩)) :=
    sync_judged.ended (fun _ none_ => absurd none_ List.not_mem_nil)
  exact forall₂_congr (fun entry inside => (judged entry inside).1)

/-! A sync with one item to close, whose call is carried out but times out. -/

def chair : GovernanceMonitor where
  backend := ⟨⟨"example",[],"digest"⟩,[],none,fun _ none_ => absurd none_ List.not_mem_nil⟩
  principalGithub := "human"
  projectNumber := none
  workspace := ⟨.error "",.error ""⟩

def plainTexts : MonitorLibrary where
  render _ := ""
  repr text := text
  closingKeyword _ := false
  b64decode _ := none
  sha256 _ := ""
  lower text := text
  int _ := .error ""
  objectiveTitle _ := false
  acceptanceText _ := false
  humanBanner _ := false
  loads _ := none
  printed _ := none
  dumpsUnicode _ := none

def timingOut : SyncInputs where
  answer _ := ⟨true,.error (.other "TimeoutExpired")⟩
  operationId _ := "operation-1"
  now _ := ⟨0,Instant.zero_bounded⟩

def oneClosing : Snapshot := ⟨1,0,1,[],[],[.close "blocker:invoice" 7 "2026-01-01T00:00:00Z"]⟩

/-- A timeout has no clause: the operation stays in `applying`. -/
theorem timeout_undecided :
    ¬ ∀ entry ∈ (endState (chair.sync plainTexts timingOut (.ok ("example/org",oneClosing)) ⟨Journal.empty,0,0,[]⟩)).claimed,
      Decided (endState (chair.sync plainTexts timingOut (.ok ("example/org",oneClosing)) ⟨Journal.empty,0,0,[]⟩)).journal
        entry := by
  decide +kernel

end GovernanceMonitor
end SjgControl

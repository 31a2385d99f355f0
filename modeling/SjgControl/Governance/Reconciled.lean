import SjgControl.Encoding
import SjgControl.Governance.Convergence
import SjgControl.Policy

/-! Where a sync converges: which rows of the journal an earlier sync has left behind, and
when a snapshot behind a sync whose calls are all carried out plans nothing. -/
namespace SjgControl
open Relational Machine PythonText Backend Board

/-! The key of an action, of whose text it is a digest. -/

/-- The text whose digest is in the key. -/
def GovernanceMonitor.keyText (g : GovernanceMonitor) (queue : Int) (a : QueueAction) : List Char :=
  JsonText.compact (.arr [.str g.backend.policy.policyDigest,.str a.sourceKey,.str a.operation,.str a.version,
    a.precondition g.principalGithub queue])

namespace Sync

def keyText (r : Sync) (a : QueueAction) : List Char := r.monitor.keyText r.seen.queueIssue a

theorem keyText_inj {r other : Sync} {a b : QueueAction} (same : r.keyText a = other.keyText b) :
    (a.sourceKey,a.operation,r.monitor.preconditionJson r.seen.queueIssue a) =
      (b.sourceKey,b.operation,other.monitor.preconditionJson other.seen.queueIssue b) := by
  have behind := (JsonText.text_delimited.before [',']).pair
    ((JsonText.text_delimited.before [',']).pair ((JsonText.text_delimited.before [',']).pair (JsonText.text_delimited.before [','])))
  have shape (s : Sync) (c : QueueAction) : s.keyText c =
      ['['] ++ (JsonText.text s.monitor.backend.policy.policyDigest ++ [','] ++ (JsonText.text c.sourceKey ++ [','] ++
        (JsonText.text c.operation ++ [','] ++ (JsonText.text c.version ++ [','])))) ++
        (JsonText.compact (c.precondition s.monitor.principalGithub s.seen.queueIssue) ++ [']']) := by
    simp [keyText,GovernanceMonitor.keyText,JsonText.compact,JsonText.dumpsWith,JsonText.dumpsItems,List.intercalate,
      List.intersperse]
  rw [shape,shape] at same
  obtain ⟨fields,rest⟩ := behind.after ['['] (_,_,_,_) (_,_,_,_) _ _ same
  simp only [Prod.mk.injEq] at fields
  obtain ⟨_,source,operation,_⟩ := fields
  have precondition := congrArg String.ofList (List.append_cancel_right rest)
  exact Prod.ext source (Prod.ext operation precondition)

end Sync

/-- No two of the keys that some syncs compute are equal by accident. -/
def Uncollided (lib : MonitorLibrary) (rs : List Sync) : Prop :=
  ∀ r ∈ rs, ∀ other ∈ rs, ∀ a ∈ r.seen.actions, ∀ b ∈ other.seen.actions,
    r.keyOf lib a = other.keyOf lib b → r.keyText a = other.keyText b

/-! Whose rows the journal has. -/

/-- The rows are for one write. -/
def ReconcileOperation.Alike (row x : ReconcileOperation) : Prop :=
  x.idempotencyKey = row.idempotencyKey ∧
    (x.sourceKey,x.operation,x.preconditionJson) = (row.sourceKey,row.operation,row.preconditionJson)

namespace Journal
variable {db next : Journal} {id key source operation precondition : String} {now : Instant} {row : ReconcileOperation}

theorem reserveReconcile_drawn (ok : db.reserveReconcile id key source operation precondition now = .ok (row,next)) :
    ∀ x ∈ next.reconciliations.rows, (∃ old ∈ db.reconciliations.rows, old.Alike x) ∨
      x.idempotencyKey = key ∧ (x.sourceKey,x.operation,x.preconditionJson) = (source,operation,precondition) := by
  obtain ⟨_,⟨_,_,rfl⟩ | ⟨_,rfl,table,inserted,rfl⟩⟩ := reserveReconcile_effect ok
  · exact fun x member => .inl ⟨x,member,rfl,rfl⟩
  · intro x member
    rcases (Table.mem_insert inserted).mp member with old | rfl
    · exact .inl ⟨x,old,rfl,rfl⟩
    · exact .inr ⟨rfl,rfl⟩

theorem markReconcileApplying_drawn (ok : db.markReconcileApplying id now = .ok ((),next)) :
    ∀ x ∈ next.reconciliations.rows, ∃ old ∈ db.reconciliations.rows, old.Alike x := by
  obtain ⟨_,rfl⟩ := markReconcileApplying_effect ok
  intro x member
  obtain ⟨old,present,⟨_,rfl⟩ | ⟨_,rfl⟩⟩ := Table.mem_update_cases member
  · exact ⟨old,present,rfl,rfl⟩
  · exact ⟨x,present,rfl,rfl⟩

theorem finishReconcile_drawn {state : ReconcileState} {result : Option Json}
    (ok : db.finishReconcile id state result now = .ok ((),next)) :
    ∀ x ∈ next.reconciliations.rows, ∃ old ∈ db.reconciliations.rows, old.Alike x := by
  obtain ⟨_,_,rfl⟩ := finishReconcile_effect ok
  intro x member
  obtain ⟨old,present,⟨_,rfl⟩ | ⟨_,rfl⟩⟩ := Table.mem_update_cases member
  · exact ⟨old,present,rfl,rfl⟩
  · exact ⟨x,present,rfl,rfl⟩

end Journal

namespace Sync
variable {lib : MonitorLibrary} {r : Sync} {journal : Journal} {remote : GitHub} {input : SyncInput} {point : SyncPoint}

def Owns (lib : MonitorLibrary) (r : Sync) (a : QueueAction) (row : ReconcileOperation) : Prop :=
  row.idempotencyKey = r.keyOf lib a ∧ (row.sourceKey,row.operation,row.preconditionJson) =
    (a.sourceKey,a.operation,r.monitor.preconditionJson r.seen.queueIssue a)

theorem Owns.alike {a : QueueAction} {row x : ReconcileOperation} (owns : r.Owns lib a row) (alike : row.Alike x) :
    r.Owns lib a x := ⟨alike.1.trans owns.1,alike.2.trans owns.2⟩

theorem step_drawn (holds : Holds lib r journal.reconciliations point) :
    ∀ x ∈ (r.step lib journal remote input point).journal.reconciliations.rows,
      (∃ old ∈ journal.reconciliations.rows, old.Alike x) ∨ ∃ a ∈ r.seen.actions, r.Owns lib a x := by
  have kept {t : Table ReconcileOperation} (equal : t = journal.reconciliations) :
      ∀ x ∈ t.rows, ∃ old ∈ journal.reconciliations.rows, old.Alike x :=
    fun x member => ⟨x,equal ▸ member,rfl,rfl⟩
  cases point with
  | pending todo =>
    cases todo with
    | nil => exact fun x member => .inl (kept rfl x member)
    | cons a todo =>
      have whole : (r.step lib journal remote input (.pending (a::todo))).journal =
          (atomically journal (journal.reserveReconcile input.operationId (r.keyOf lib a) a.sourceKey a.operation
            (r.monitor.preconditionJson r.seen.queueIssue a) input.now)).state := by
        simp only [step,reserve]
        split
        next => rfl
        next =>
          split
          next => rfl
          next => rfl
      rw [whole]
      intro x member
      rcases atomically_cases journal _ with same | ⟨row,ok⟩
      · exact .inl (kept (congrArg Journal.reconciliations same) x member)
      · rcases Journal.reserveReconcile_drawn ok x member with old | own
        · exact .inl old
        · exact .inr ⟨a,holds List.mem_cons_self,own⟩
  | reserved a id todo =>
    have whole : (r.step lib journal remote input (.reserved a id todo)).journal =
        (atomically journal (journal.markReconcileApplying id input.now)).state := by
      simp only [step,claim]
      split
      next => rfl
      next => rfl
    rw [whole]
    intro x member
    rcases atomically_cases journal _ with same | ⟨_,ok⟩
    · exact .inl (kept (congrArg Journal.reconciliations same) x member)
    · exact .inl (Journal.markReconcileApplying_drawn ok x member)
  | writing a id point todo =>
    have whole : (r.step lib journal remote input (.writing a id point todo)).journal = journal := by
      simp only [step,write]
      split
      next => rfl
      next => rfl
    rw [whole]
    exact fun x member => .inl (kept rfl x member)
  | settling id state result todo =>
    have whole : (r.step lib journal remote input (.settling id state result todo)).journal =
        (atomically journal (journal.finishReconcile id state (some result) input.now)).state := by
      simp only [step,settle]
      split
      next => rfl
      next => rfl
    rw [whole]
    intro x member
    rcases atomically_cases journal _ with same | ⟨_,ok⟩
    · exact .inl (kept (congrArg Journal.reconciliations same) x member)
    · exact .inl (Journal.finishReconcile_drawn ok x member)
  | stopped => exact fun x member => .inl (kept rfl x member)

end Sync

namespace MonitorRun
variable {lib : MonitorLibrary} {s : MonitorRun}

def begun (s : MonitorRun) : List Sync := s.syncs.map Prod.fst

theorem take_begun {i : Nat} {r : Sync} {point : SyncPoint} {e : Effect} (there : s.syncs[i]? = some (r,point)) :
    (s.take i r e).begun = s.begun := by
  obtain ⟨inside,own⟩ := List.getElem?_eq_some_iff.mp there
  have bound : i < (s.syncs.map Prod.fst).length := by rwa [List.length_map]
  have same : (s.syncs.map Prod.fst)[i] = r := by rw [List.getElem_map,own]
  unfold begun take
  rw [List.map_set]
  change (s.syncs.map Prod.fst).set i r = s.syncs.map Prod.fst
  rw [← same]
  exact List.set_getElem_self bound

theorem step_begun (action : MonitorAction) : (step lib s action).begun = s.begun ∨
    ∃ monitor remote seen, action = .sync monitor remote ∧ (step lib s action).begun = s.begun ++ [⟨monitor,seen⟩] := by
  cases action with
  | sync monitor remote =>
    simp only [step]
    split
    next => exact .inl rfl
    next seen _ =>
      split
      next => exact .inr ⟨monitor,remote,seen,rfl,List.map_append⟩
      next => exact .inl rfl
  | advance i input =>
    simp only [step]
    split
    next there => exact .inl (take_begun there)
    next => exact .inl rfl
  | resolve j => exact .inl rfl
  | visit j answer now =>
    refine .inl ?_
    simp only [step]
    split
    next =>
      split
      next => rfl
      next =>
        split
        next => rfl
        next => rfl
    next => rfl
  | remote next => exact .inl rfl

theorem run_begun (actions : List MonitorAction) (others : ∀ monitor remote, .sync monitor remote ∉ actions) :
    (run (step lib) s actions).begun = s.begun := by
  induction actions generalizing s with
  | nil => rfl
  | cons action rest ih =>
    rw [run_cons,ih (fun monitor remote later => others monitor remote (List.mem_cons_of_mem _ later))]
    rcases @step_begun lib s action with same | ⟨monitor,remote,_,new,_⟩
    · exact same
    · exact absurd (new ▸ List.mem_cons_self) (others monitor remote)

def Journalled (lib : MonitorLibrary) (s : MonitorRun) : Prop :=
  ∀ row ∈ s.journal.reconciliations.rows, ∃ r ∈ s.begun, ∃ a ∈ r.seen.actions, r.Owns lib a row

theorem step_journalled (ordered : s.Ordered lib) (journalled : s.Journalled lib) (action : MonitorAction) :
    (step lib s action).Journalled lib := by
  have kept : s.begun ⊆ (step lib s action).begun := by
    rcases @step_begun lib s action with same | ⟨_,_,_,_,more⟩
    · rw [same]
      exact List.Subset.refl _
    · rw [more]
      exact List.subset_append_left _ _
  have alike {row : ReconcileOperation} (drawn : ∃ old ∈ s.journal.reconciliations.rows, old.Alike row) :
      ∃ r ∈ (step lib s action).begun, ∃ a ∈ r.seen.actions, r.Owns lib a row := by
    obtain ⟨old,present,same⟩ := drawn
    obtain ⟨r,member,a,listed,owns⟩ := journalled old present
    exact ⟨r,kept member,a,listed,owns.alike same⟩
  intro row member
  cases action with
  | sync monitor remote =>
    refine alike ⟨row,?_,rfl,rfl⟩
    simp only [step] at member
    split at member
    next => exact member
    next =>
      split at member
      next => exact member
      next => exact member
  | advance i input =>
    cases there : s.syncs[i]? with
    | none =>
      simp only [step,there] at member
      exact alike ⟨row,member,rfl,rfl⟩
    | some entry =>
      obtain ⟨r,point⟩ := entry
      simp only [step,there] at member
      have inside : (r,point) ∈ s.syncs := List.mem_of_getElem? there
      rcases Sync.step_drawn (ordered.holds _ inside) row member with old | ⟨a,listed,owns⟩
      · exact alike old
      · exact ⟨r,kept (List.mem_map_of_mem inside),a,listed,owns⟩
  | resolve j => exact alike ⟨row,member,rfl,rfl⟩
  | visit j answer now =>
    simp only [step] at member
    split at member
    next =>
      split at member
      next => exact alike ⟨row,member,rfl,rfl⟩
      next =>
        split at member
        next ok => exact alike (Journal.finishReconcile_drawn ok row member)
        next => exact alike ⟨row,member,rfl,rfl⟩
    next => exact alike ⟨row,member,rfl,rfl⟩
  | remote next => exact alike ⟨row,member,rfl,rfl⟩

theorem run_journalled (db : Journal) (remote : GitHub) (actions : List MonitorAction) :
    (run (step lib) (starting db remote) actions).Ordered lib ∧ (run (step lib) (starting db remote) actions).Journalled lib :=
  @invariant_run _ _ (step lib) (fun s => s.Ordered lib ∧ s.Journalled lib)
    (fun _ a both => ⟨step_ordered a both.1,step_journalled both.1 both.2 a⟩)
    _ ⟨starting_ordered db remote,fun row member => by cases member⟩ actions

/-- Only the sync at a place goes on, and is obliged. -/
def Alone (slug : String) (i : Nat) (s : MonitorRun) : MonitorAction → Prop
  | .advance j input => j = i ∧ Sync.Obliging slug s.journal s.remote input
  | _ => False

theorem run_alone {slug : String} {i : Nat} {r : Sync} {point : SyncPoint} (there : s.syncs[i]? = some (r,point))
    (actions : List MonitorAction) (alone : Along (step lib) (Alone slug i) s actions) :
    ∃ inputs, inputs.length = actions.length ∧ r.Obliged lib slug ⟨s.journal,s.remote,point⟩ inputs ∧
      (run (step lib) s actions).remote = (run (r.solo lib) ⟨s.journal,s.remote,point⟩ inputs).remote := by
  induction actions generalizing s point with
  | nil =>
    refine ⟨[],rfl,?_,rfl⟩
    intro t member
    cases member
  | cons action rest ih =>
    obtain ⟨first,later⟩ := (along_cons (step lib)).mp alone
    cases action with
    | advance j input =>
      obtain ⟨rfl,obliging⟩ := first
      have stepped : step lib s (.advance j input) = s.take j r (r.step lib s.journal s.remote input point) := by
        simp only [step,there]
      rw [stepped] at later
      have at_ : (s.take j r (r.step lib s.journal s.remote input point)).syncs[j]? =
          some (r,(r.step lib s.journal s.remote input point).point) := by
        obtain ⟨inside,_⟩ := List.getElem?_eq_some_iff.mp there
        exact List.getElem?_set_self inside
      obtain ⟨inputs,length,obliged,same⟩ := ih at_ later
      refine ⟨input::inputs,congrArg Nat.succ length,(along_cons (r.solo lib)).mpr ⟨obliging,obliged⟩,?_⟩
      rw [run_cons,run_cons,stepped]
      exact same
    | sync => cases first
    | resolve => cases first
    | visit => cases first
    | remote => cases first

end MonitorRun

/-! What a sync leaves, and when it is nothing. -/

namespace GovernanceMonitor
variable {g : GovernanceMonitor} {lib : MonitorLibrary} {remote after : GitHub} {slug : String} {queue : Int}
  {blocked : List DesiredQueueItem} {v : Board} {seen : Snapshot} {done : List QueueAction}

theorem left_readable {home : String → Bool} {w : Board} (progress : Board.Progress home v done w) :
    w.Readable ↔ ∀ p ∈ v.pulls, (turnedPull home done p).opened = true → p.readable = true := by
  have kept (p : PullCard) : (turnedPull home done p).readable = p.readable := by
    unfold turnedPull
    split
    next => rfl
    next => rfl
  unfold Readable
  rw [progress.pulls,List.forall_mem_map]
  simp only [kept]

theorem left_marked {home : String → Bool} {w : Board} (progress : Board.Progress home v done w) (marked : v.Marked)
    (labelled : ∀ a ∈ done, a.operation = "create" → Labelled ⟨a.sourceKey,a.title,a.body⟩) : w.Marked := by
  intro x listed s source
  rcases progress.cards x listed with ⟨c,member,rfl⟩ | ⟨_,_,a,inside,create,_,own⟩
  · exact marked c member s source
  · rw [own] at source
    cases source
    exact (labelled a inside create).valid

theorem left_queued {home : String → Bool} {w : Board} (progress : Board.Progress home v done w) (queued : v.Queued queue) :
    w.Queued queue := by
  obtain ⟨c,member,number,plain⟩ := queued
  exact ⟨turnedCard done c,progress.old c member,number,plain⟩

end GovernanceMonitor

namespace Sync
variable {lib : MonitorLibrary} {r : Sync} {journal : Journal} {remote : GitHub} {slug : String}

/-- The actions that the journal does not keep the sync from. -/
def unspent (lib : MonitorLibrary) (r : Sync) (journal : Journal) : List QueueAction :=
  r.seen.actions.filter (fun a => !decide (r.Spent lib journal a))

/-- What the journal and the repositories of a sync must be for its work to be all that was due:
no pull request is left open that cannot be read, and the sources whose actions are spent are
those whose items the other actions turn. -/
structure Converging (lib : MonitorLibrary) (r : Sync) (slug : String) (queue : Int) (blocked : List DesiredQueueItem)
    (journal : Journal) (remote : GitHub) : Prop where
  readable : ∀ p ∈ (r.monitor.boardOf lib remote slug queue blocked).pulls,
    (turnedPull (r.monitor.homeOf slug) (r.unspent lib journal) p).opened = true → p.readable = true
  turned : ∀ s, (r.monitor.boardOf lib remote slug queue blocked).Turned (r.monitor.homeOf slug) (r.unspent lib journal) s ↔
    ∃ a ∈ r.seen.actions, a.sourceKey = s ∧ r.Spent lib journal a

theorem matching_of_journalled {s : MonitorRun} (journalled : s.Journalled lib)
    (uncollided : Uncollided lib (r::s.begun)) {a : QueueAction} (listed : a ∈ r.seen.actions) :
    r.Matching lib s.journal a := by
  intro row member own
  obtain ⟨other,present,b,inside,owns⟩ := journalled row member
  have texts := uncollided r List.mem_cons_self other (List.mem_cons_of_mem _ present) a listed b inside
    (own.symm.trans owns.1)
  exact owns.2.trans (keyText_inj texts).symm

theorem keys_apart {rest : List Sync} (uncollided : Uncollided lib (r::rest))
    (apart : (r.seen.actions.map QueueAction.sourceKey).Nodup) : (r.seen.actions.map (r.keyOf lib)).Nodup := by
  refine List.Nodup.map_on ?_ (List.Nodup.of_map _ apart)
  intro a listed b present same
  have texts := uncollided r List.mem_cons_self r List.mem_cons_self a listed b present same
  exact List.inj_on_of_nodup_map apart listed present (congrArg Prod.fst (keyText_inj texts))

end Sync

namespace GovernanceMonitor
variable {g : GovernanceMonitor} {lib : MonitorLibrary} {remote : GitHub} {slug : String} {queue : Int}
  {blocked : List DesiredQueueItem} {seen : Snapshot}

theorem setting_of_snapshot (com : g.Commissioned lib slug queue blocked) (sound : g.Sound remote)
    (single : Single lib remote slug) (ok : g.snapshot lib remote = .ok seen) :
    Setting g lib slug queue blocked (g.boardOf lib remote slug queue blocked) seen := by
  have ids := identified_at com sound
  obtain ⟨⟨issue,found,own⟩,_⟩ := snapshot_reads com ok
  obtain ⟨_,number,_⟩ := (issueAt_iff ids).mp found
  obtain ⟨apart,labelled⟩ := blockers_items com.blockers
  refine ⟨com,?_,snapshot_planned com sound ids single ok,board_distinct sound ids apart (fun item member => (labelled item member).2),
    (single_board ids).mpr single,fun a member create => actions_labelled com ids single ok member create⟩
  rw [own] at number
  exact Option.some.inj number

theorem snapshot_behind (com : g.Commissioned lib slug queue blocked) (sound : g.Sound remote)
    (single : Single lib remote slug) (ok : g.snapshot lib remote = .ok seen) {journal : Journal} {left : GitHub}
    (working : Working g lib slug queue blocked (g.boardOf lib remote slug queue blocked)
      ((⟨g,seen⟩ : Sync).unspent lib journal) left) :
    (∃ after, g.snapshot lib left = .ok after ∧ after.actions = []) ↔
      (⟨g,seen⟩ : Sync).Converging lib slug queue blocked journal remote := by
  have setting := setting_of_snapshot com sound single ok
  have ids := identified_at com sound
  have ids' := identified_at com working.sound
  have single' := (single_board ids').mp working.single
  obtain ⟨apart,labelled⟩ := blockers_items com.blockers
  have distinct := @board_distinct g lib left slug queue blocked working.sound ids' apart (fun item member => (labelled item member).2)
  obtain ⟨_,marked,queued⟩ := (snapshot_ok_iff com sound ids single setting.distinct.sources).mp ⟨seen,ok⟩
  have taken := snapshot_ok_iff com working.sound ids' single' distinct.sources
  have settled := settled_iff setting.planned setting.distinct setting.single
    (fun a => decide ((⟨g,seen⟩ : Sync).Spent lib journal a)) working.progress
  simp only [decide_eq_true_eq] at settled
  constructor
  · rintro ⟨after,read,nothing⟩
    refine ⟨(left_readable working.progress).mp (taken.mp ⟨after,read⟩).1,settled.mp ?_⟩
    exact (actions_nil_iff com working.sound ids' single' read).mp nothing
  · intro converging
    obtain ⟨after,read⟩ := taken.mpr ⟨(left_readable working.progress).mpr converging.readable,
      left_marked working.progress marked (fun a inside => setting.labelled a (List.mem_of_mem_filter inside)),
      left_queued working.progress queued⟩
    exact ⟨after,read,(actions_nil_iff com working.sound ids' single' read).mpr (settled.mpr converging.turned)⟩

end GovernanceMonitor

namespace MonitorRun
open GovernanceMonitor
variable {lib : MonitorLibrary}

/-- A sync that nothing disturbs, in a state that it may start from: its calls are all carried
out, and it has the steps it needs. -/
structure Resync (lib : MonitorLibrary) (g : GovernanceMonitor) (slug : String) (queue : Int)
    (blocked : List DesiredQueueItem) (s : MonitorRun) (seen : Snapshot) (actions : List MonitorAction) : Prop where
  com : g.Commissioned lib slug queue blocked
  sound : g.Sound s.remote
  single : GovernanceMonitor.Single lib s.remote slug
  ok : g.snapshot lib s.remote = .ok seen
  uncollided : Uncollided lib (⟨g,seen⟩::s.begun)
  alone : Along (step lib) (Alone slug s.syncs.length) (step lib s (.sync g s.remote)) actions
  enough : 6 * seen.actions.length < actions.length

/-- Behind any history, a snapshot after a sync whose calls are all carried out plans nothing
exactly where the rows that were spent before are those of the sources that the sync turns. -/
theorem sync_converges_iff (g : GovernanceMonitor) (db : Journal) (origin : GitHub) (history actions : List MonitorAction)
    {slug : String} {queue : Int} {blocked : List DesiredQueueItem} {seen : Snapshot}
    (resync : Resync lib g slug queue blocked (run (step lib) (starting db origin) history) seen actions) :
    let s := run (step lib) (starting db origin) history
    (∃ after, g.snapshot lib (run (step lib) s (.sync g s.remote::actions)).remote = .ok after ∧ after.actions = []) ↔
      (⟨g,seen⟩ : Sync).Converging lib slug queue blocked s.journal s.remote := by
  obtain ⟨ordered,journalled⟩ := @run_journalled lib db origin history
  intro s
  have setting := setting_of_snapshot resync.com resync.sound resync.single resync.ok
  have ids := identified_at resync.com resync.sound
  have started : step lib s (.sync g s.remote) = {s with syncs := s.syncs ++ [(⟨g,seen⟩,.pending seen.actions)]} := by
    have nothing : seen.conflicts = [] := by
      obtain ⟨_,_,_,_,_,_,_,reads⟩ := snapshot_reads resync.com resync.ok
      exact reads.conflicts_nil ids resync.single
    have taken : g.snapshot lib s.remote = .ok seen := resync.ok
    simp only [step,taken]
    rw [if_pos nothing]
  have alone : Along (step lib) (Alone slug s.syncs.length) (step lib s (.sync g s.remote)) actions := resync.alone
  rw [started] at alone
  have there : (s.syncs ++ [((⟨g,seen⟩ : Sync),SyncPoint.pending seen.actions)])[s.syncs.length]? =
      some (⟨g,seen⟩,.pending seen.actions) := by simp
  obtain ⟨inputs,length,obliged,same⟩ := run_alone there actions alone
  rw [run_cons,started,same]
  have leads := leads_all setting
    (fun a listed => Sync.matching_of_journalled journalled resync.uncollided listed)
    (Sync.keys_apart resync.uncollided setting.planned.apart)
    seen.actions [] rfl s.journal ordered.unique (fun _ _ _ _ => Iff.rfl) s.remote
    ⟨resync.sound,.refl _ _,setting.single⟩
  have ended : (run (Sync.solo lib ⟨g,seen⟩) ⟨s.journal,s.remote,.pending seen.actions⟩ inputs).point = .stopped := by
    have enough := resync.enough
    refine Sync.run_ends inputs ?_
    change 6 * seen.actions.length + 1 ≤ inputs.length
    omega
  obtain ⟨y,rest,⟨stopped,working⟩,_,equal⟩ := leads inputs obliged ended
  rw [equal,Sync.run_stopped stopped]
  exact snapshot_behind resync.com resync.sound resync.single resync.ok working

/-! A proposal whose item is lost on the way, and proved absent. -/

instance (remote : GitHub) (slug : String) : Decidable (Identified remote slug) :=
  decidable_of_iff ((∀ item ∈ remote.listedIssues slug, (numberOf item).any (fun n => 0 < n) = true) ∧
      (∀ item ∈ remote.listedIssues slug, (idOf item).isSome = true) ∧
      ((remote.listedIssues slug).map numberOf).Nodup ∧ ((remote.listedIssues slug).map idOf).Nodup) (by
    simp only [Option.any_eq_true,Option.isSome_iff_exists,decide_eq_true_eq]
    constructor
    · rintro ⟨numbered,identified,numbers,ids⟩
      refine ⟨fun item member => ?_,identified,numbers,ids⟩
      obtain ⟨n,own,positive⟩ := numbered item member
      exact ⟨n,positive,own⟩
    · intro ids
      refine ⟨fun item member => ?_,ids.identified,ids.numbers,ids.ids⟩
      obtain ⟨n,positive,own⟩ := ids.numbered item member
      exact ⟨n,own,positive⟩)

instance (slug : String) (journal : Journal) (remote : GitHub) (input : SyncInput) :
    Decidable (Sync.Obliging slug journal remote input) :=
  decidable_of_iff ((∀ row ∈ journal.reconciliations.rows, row.operationId ≠ input.operationId) ∧
      input.reply.carriedOut = true ∧ input.reply.answered = true ∧ 0 < input.reply.assigned.number ∧
      (∀ item ∈ remote.listedIssues slug, numberOf item ≠ some input.reply.assigned.number) ∧
      ∀ item ∈ remote.listedIssues slug, idOf item ≠ some input.reply.assigned.id) (by
    constructor
    · rintro ⟨operationId,carriedOut,answered,positive,number,id⟩
      exact ⟨operationId,carriedOut,answered,positive,number,id⟩
    · intro obliging
      exact ⟨obliging.operationId,obliging.carriedOut,obliging.answered,obliging.positive,obliging.number,obliging.id⟩)

instance (slug : String) (i : Nat) (s : MonitorRun) : DecidablePred (Alone slug i s)
  | .advance j input => inferInstanceAs (Decidable (j = i ∧ Sync.Obliging slug s.journal s.remote input))
  | .sync _ _ => .isFalse id
  | .resolve _ => .isFalse id
  | .visit _ _ _ => .isFalse id
  | .remote _ => .isFalse id

def clerkLibrary : MonitorLibrary :=
  {QueueRun.quietMonitorLibrary with
    sha256 := fun _ => "6700202e34c1744aef1717e300d63807f32482ee4bbe9e39a55df05377049da6"}

def clerk : GovernanceMonitor where
  backend := Served.plannerBackend
  principalGithub := "human"
  projectNumber := none
  workspace := ⟨.ok (.obj [("human_principal",.obj [("github",.str "human")]),
    ("global",.obj [("principal_queue_issue",.int 1)])]),.ok (.mapping [(.str "blockers",.seq [])])⟩

def proposed : GitHub :=
  (GitHub.empty.addIssue "example/org" (issueItem ⟨1001,1,"issue-1"⟩ "Human queue" "" [])).addIssue "example/org"
    (issueItem ⟨1002,2,"issue-2"⟩ "[PROPOSAL] Rename" "" [])

def decision : QueueAction :=
  .create "proposal:org#2" "[HUMAN] Decide proposal #2: Rename" ("<!-- governance-monitor-source:proposal:org#2 -->\n\n" ++
    "Review the open proposal and record the Human Principal decision.\n\nSource: issue-2\n") none "absent"

def oneDecision : Snapshot := ⟨1,1,0,[],[],[decision]⟩

def newYear : Instant := ⟨0,Instant.zero_bounded⟩

/-- The call that posts the item is not carried out, and the verifier finds no such item. -/
def lostOnce : List MonitorAction :=
  .sync clerk proposed::List.replicate 5 (.advance 0 ⟨"operation-1",newYear,⟨false,false,⟨0,0,""⟩,""⟩⟩) ++
    [.resolve 0,.visit 0 ⟨.absent,none,none⟩ newYear]

def retried : List MonitorAction :=
  List.replicate 7 (.advance 1 ⟨"operation-2",newYear,⟨true,true,⟨1003,3,"issue-3"⟩,"2026-01-02T00:00:00Z"⟩⟩)

def lost : MonitorRun := run (step clerkLibrary) (starting Journal.empty proposed) lostOnce

theorem clerk_snapshot : clerk.snapshot clerkLibrary proposed = .ok oneDecision := by decide +kernel

theorem lost_sound : clerk.Sound lost.remote := by
  have each : ∀ entry ∈ clerk.backend.repositories, Identified lost.remote entry.2.slug := by decide +kernel
  exact ⟨by decide +kernel,fun alias_ repo known => each _ (mem_of_lookup known)⟩

theorem lost_single : GovernanceMonitor.Single clerkLibrary lost.remote "example/org" := by
  have none_ : ∀ issue ∈ lost.remote.listedIssues "example/org", sourceOf clerkLibrary issue = none := by decide +kernel
  intro issue listed other _ s source
  rw [none_ issue listed] at source
  cases source

theorem lost_snapshot : clerk.snapshot clerkLibrary lost.remote = .ok oneDecision := by decide +kernel

theorem lost_begun : lost.begun = [⟨clerk,oneDecision⟩] := by
  unfold lost lostOnce
  rw [List.cons_append,run_cons,run_begun _ (by simp)]
  simp only [step,clerk_snapshot]
  rfl

theorem lost_uncollided : Uncollided clerkLibrary (⟨clerk,oneDecision⟩::lost.begun) := by
  rw [lost_begun]
  intro r member other present a listed b inside _
  have only : ∀ r ∈ [(⟨clerk,oneDecision⟩ : Sync),⟨clerk,oneDecision⟩], r = ⟨clerk,oneDecision⟩ := by simp
  rw [only r member] at listed ⊢
  rw [only other present] at inside ⊢
  rw [List.mem_singleton.mp listed,List.mem_singleton.mp inside]

theorem retried_alone : Along (step clerkLibrary) (Alone "example/org" lost.syncs.length)
    (step clerkLibrary lost (.sync clerk lost.remote)) retried := by decide +kernel

theorem clerk_commissioned : clerk.Commissioned clerkLibrary "example/org" 1 [] :=
  ⟨by decide +kernel,by decide +kernel,rfl⟩

theorem lost_resync : Resync clerkLibrary clerk "example/org" 1 [] lost oneDecision retried :=
  ⟨clerk_commissioned,lost_sound,lost_single,lost_snapshot,lost_uncollided,retried_alone,by decide⟩

/-- Once its row is settled as a dead letter, the item is asked for again and again and not made. -/
theorem lost_item_stays_due : Resync clerkLibrary clerk "example/org" 1 [] lost oneDecision retried ∧
    ¬ ∃ after, clerk.snapshot clerkLibrary (run (step clerkLibrary) lost (.sync clerk lost.remote::retried)).remote =
      .ok after ∧ after.actions = [] := by
  refine ⟨lost_resync,?_⟩
  rintro ⟨after,read,nothing⟩
  have again : clerk.snapshot clerkLibrary (run (step clerkLibrary) lost (.sync clerk lost.remote::retried)).remote =
      .ok oneDecision := by decide +kernel
  rw [again] at read
  cases read
  cases nothing

theorem sync_converges_iff_lost :
    (∃ after, clerk.snapshot clerkLibrary (run (step clerkLibrary) lost (.sync clerk lost.remote::retried)).remote =
      .ok after ∧ after.actions = []) ↔
      (⟨clerk,oneDecision⟩ : Sync).Converging clerkLibrary "example/org" 1 [] lost.journal lost.remote :=
  sync_converges_iff clerk Journal.empty proposed lostOnce retried lost_resync

end MonitorRun
end SjgControl

import SjgControl.Store.Operation

/-! Conservation of budget tokens. Each operation that touches the ledger reserves for
one session, holds what a session reserved, or discharges one reservation from its
two buckets; every total follows from these three. -/
namespace SjgControl
open Relational Machine

namespace Runtime

abbrev BucketKey := String × String × String

def reservedAt (buckets : Table BudgetBucket) (key : BucketKey) : Int :=
  ((buckets.get key).map BudgetBucket.reservedTokens).getD 0

def consumedAt (buckets : Table BudgetBucket) (key : BucketKey) : Int :=
  ((buckets.get key).map BudgetBucket.consumedTokens).getD 0

/-- The reservation's session maps to the bucket, and its epoch is the bucket's. -/
def maps (db : Runtime) (r : BudgetReservation) (key : BucketKey) : Prop :=
  ∃ row ∈ db.sessions.get r.sessionId, key ∈ bucketKeys row r.epoch

instance (db : Runtime) (r : BudgetReservation) (key : BucketKey) : Decidable (db.maps r key) :=
  inferInstanceAs (Decidable (∃ row ∈ db.sessions.get r.sessionId, key ∈ bucketKeys row r.epoch))

theorem bucketKeys_nodup (row : WakeSession) (epoch : String) : (bucketKeys row epoch).Nodup := by
  simp [bucketKeys]

theorem get_charge (buckets : Table BudgetBucket) (key k : BucketKey) (reserved consumed : Int) :
    (charge buckets key reserved consumed).get k = (buckets.get k).map (fun b =>
      if k = key then {b with
        reservedTokens := b.reservedTokens + reserved
        consumedTokens := b.consumedTokens + consumed} else b) := by
  simp only [charge,Table.get_update]
  cases found : buckets.get k with
  | none => rfl
  | some b =>
    have own : (b.scope,b.subject,b.epoch) = k := (Table.get_eq_some.mp found).2
    simp only [Option.map_some,own]

theorem get_charges {keys : List BucketKey} (nodup : keys.Nodup) (buckets : Table BudgetBucket)
    (k : BucketKey) (reserved consumed : Int) :
    (keys.foldl (fun table key => charge table key reserved consumed) buckets).get k =
      (buckets.get k).map (fun b => if k ∈ keys then {b with
        reservedTokens := b.reservedTokens + reserved
        consumedTokens := b.consumedTokens + consumed} else b) := by
  induction keys generalizing buckets with
  | nil => simp
  | cons key rest ih =>
    obtain ⟨fresh,distinct⟩ := List.nodup_cons.mp nodup
    rw [List.foldl_cons,ih distinct,get_charge,Option.map_map]
    congr 1
    funext b
    by_cases here : k = key
    · subst here
      simp [fresh]
    · simp [here]

theorem discharge_ok {message : String} {reserved : Int} {keys : List BucketKey} (nodup : keys.Nodup)
    {buckets next : Table BudgetBucket}
    (ok : keys.foldlM (discharge message reserved) buckets = .ok next) :
    next = keys.foldl (fun table key => charge table key (-reserved) 0) buckets ∧
      ∀ key ∈ keys, buckets.get key ≠ none := by
  induction keys generalizing buckets with
  | nil =>
    cases pure_ok.mp ok
    simp
  | cons key rest ih =>
    obtain ⟨fresh,distinct⟩ := List.nodup_cons.mp nodup
    obtain ⟨middle,first,later⟩ := bind_ok.mp ok
    simp only [discharge,require_bind_ok,pure_ok] at first
    obtain ⟨⟨b,found,_⟩,rfl⟩ := first
    obtain ⟨equal,present⟩ := ih distinct later
    refine ⟨equal,?_⟩
    intro k member
    rcases List.mem_cons.mp member with rfl | inside
    · simp [Option.mem_def.mp found]
    · have there := present k inside
      rw [get_charge] at there
      simpa using there

/-- Opening a bucket changes no figure; the bucket is then there and has room. -/
theorem openBucket_ok {epoch : String} {requested : Int} {buckets next : Table BudgetBucket}
    {bucket : String × String × Int} (ok : openBucket epoch requested buckets bucket = .ok next) :
    (∀ k, reservedAt next k = reservedAt buckets k ∧ consumedAt next k = consumedAt buckets k) ∧
      (∀ k b, buckets.get k = some b → next.get k = some b) ∧
      (∀ k, k ≠ (bucket.1,bucket.2.1,epoch) → next.get k = buckets.get k) ∧
      ∃ b, next.get (bucket.1,bucket.2.1,epoch) = some b ∧
        b.consumedTokens + b.reservedTokens + requested ≤ b.tokenLimit := by
  simp only [openBucket,require_bind_ok,fetch_bind_ok,pure_ok] at ok
  obtain ⟨_,b,found,_,room,rfl⟩ := ok
  have lookup := Table.get_insertOrIgnore buckets ⟨bucket.1,bucket.2.1,epoch,bucket.2.2,0,0⟩
  refine ⟨?_,?_,?_,b,found,not_lt.mp room⟩
  · intro k
    unfold reservedAt consumedAt
    rw [lookup]
    split
    next => cases buckets.get k <;> simp
    next => exact ⟨rfl,rfl⟩
  · intro k old there
    rw [lookup,there]
    split <;> rfl
  · intro k other
    rw [lookup,if_neg]
    exact fun same => other same.symm

theorem openBuckets_ok {epoch : String} {requested : Int} {opened : List (String × String × Int)}
    {buckets next : Table BudgetBucket}
    (ok : opened.foldlM (openBucket epoch requested) buckets = .ok next) :
    (∀ k, reservedAt next k = reservedAt buckets k ∧ consumedAt next k = consumedAt buckets k) ∧
      (∀ k b, buckets.get k = some b → next.get k = some b) ∧
      (∀ k, k ∉ opened.map (fun bucket => (bucket.1,bucket.2.1,epoch)) → next.get k = buckets.get k) ∧
      ∀ k ∈ opened.map (fun bucket => (bucket.1,bucket.2.1,epoch)), ∃ b, next.get k = some b ∧
        b.consumedTokens + b.reservedTokens + requested ≤ b.tokenLimit := by
  induction opened generalizing buckets with
  | nil =>
    cases pure_ok.mp ok
    simp
  | cons bucket rest ih =>
    obtain ⟨middle,first,later⟩ := bind_ok.mp ok
    obtain ⟨figures,keeps,others,b,here,room⟩ := openBucket_ok first
    obtain ⟨figures',keeps',others',rooms⟩ := ih later
    refine ⟨?_,?_,?_,?_⟩
    · intro k
      exact ⟨(figures' k).1.trans (figures k).1,(figures' k).2.trans (figures k).2⟩
    · intro k b there
      exact keeps' k b (keeps k b there)
    · intro k outside
      rw [List.map_cons,List.mem_cons,not_or] at outside
      rw [others' k outside.2,others k outside.1]
    · intro k inside
      rcases List.mem_cons.mp inside with rfl | member
      · exact ⟨b,keeps' _ b here,room⟩
      · exact rooms k member

theorem reserveBudget_ok {db next : Runtime} {reservationId sessionId epoch value : String}
    {requested : Int} {buckets : List (String × String × Int)} {now : Instant}
    (ok : db.reserveBudget reservationId sessionId epoch requested buckets now = .ok (value,next)) :
    0 < requested ∧ next.sessions = db.sessions ∧
      db.reservations.insert ⟨reservationId,sessionId,epoch,requested,.active⟩ =
        some next.reservations ∧
      ∃ row, db.sessions.get sessionId = some row ∧
        (∀ k, k ∉ bucketKeys row epoch → next.buckets.get k = db.buckets.get k) ∧
        ∀ k ∈ bucketKeys row epoch, ∃ b, next.buckets.get k = some b ∧
          b.reservedTokens = reservedAt db.buckets k + requested ∧
          b.consumedTokens = consumedAt db.buckets k ∧
          b.consumedTokens + b.reservedTokens ≤ b.tokenLimit := by
  obtain ⟨positive,row,⟨found,-⟩,⟨_,distinct⟩,⟨given,wanted⟩,opened,opening,-,reservations,inserted,-,rfl⟩ :=
    reserveBudget_effect ok
  -- the buckets asked for are, in some order, those of the session
  have same (k : BucketKey) : k ∈ bucketKeys row epoch ↔
      k ∈ buckets.map (fun bucket => (bucket.1,bucket.2.1,epoch)) := by
    have names (scope subject : String) :
        (scope,subject) ∈ buckets.map (fun bucket => (bucket.1,bucket.2.1)) ↔
          (scope,subject) ∈ [("org",row.orgId),("role",row.role)] :=
      ⟨given (scope,subject),wanted (scope,subject)⟩
    obtain ⟨scope,subject,date⟩ := k
    have listed : (scope,subject,date) ∈ buckets.map (fun bucket => (bucket.1,bucket.2.1,epoch)) ↔
        (scope,subject) ∈ buckets.map (fun bucket => (bucket.1,bucket.2.1)) ∧ date = epoch := by
      simp only [List.mem_map,Prod.mk.injEq]
      constructor
      · rintro ⟨bucket,member,left,right,rfl⟩
        exact ⟨⟨bucket,member,left,right⟩,rfl⟩
      · rintro ⟨⟨bucket,member,left,right⟩,rfl⟩
        exact ⟨bucket,member,left,right,rfl⟩
    rw [listed,names]
    simp only [bucketKeys,List.mem_cons,List.not_mem_nil,or_false,Prod.mk.injEq]
    tauto
  have nodup : (buckets.map (fun bucket => (bucket.1,bucket.2.1,epoch))).Nodup := by
    apply List.Nodup.of_map (fun k : BucketKey => (k.1,k.2.1))
    rw [List.map_map]
    exact distinct
  obtain ⟨figures,_,others,rooms⟩ := openBuckets_ok opening
  have charged (k : BucketKey) := get_charges nodup opened k requested 0
  rw [List.foldl_map] at charged
  refine ⟨positive,rfl,inserted,row,found,?_,?_⟩
  · intro k outside
    rw [same] at outside
    rw [charged,others k outside]
    simp [outside]
  · intro k inside
    rw [same] at inside
    obtain ⟨b,there,room⟩ := rooms k inside
    have reserved := (figures k).1
    have consumed := (figures k).2
    simp only [reservedAt,consumedAt,there,Option.map_some,Option.getD_some] at reserved consumed
    rw [charged,there,Option.map_some,if_pos inside]
    refine ⟨_,rfl,?_,?_,?_⟩
    · exact congrArg (· + requested) reserved
    · simp [consumed,consumedAt]
    · dsimp only
      omega

/-- One operation on the ledger: nothing is paid and active reservations may become
uncertain, or a session reserves, or one active reservation is taken out of both its
buckets. The index is the settlement the operation commits, if it is one. -/
inductive LedgerEffect (db next : Runtime) : Option (String × Int) → Prop
  | retained (move : BudgetReservation → BudgetReservation)
      (moves : ∀ r, move r = r ∨ r.state = .active ∧ move r = {r with state := .uncertain})
      (buckets : next.buckets = db.buckets)
      (rows : next.reservations.rows = db.reservations.rows.map move) : LedgerEffect db next none
  | reserved (r : BudgetReservation) (row : WakeSession) (active : r.state = .active)
      (positive : 0 < r.reservedTokens) (session : db.sessions.get r.sessionId = some row)
      (inserted : db.reservations.insert r = some next.reservations)
      (others : ∀ k, k ∉ bucketKeys row r.epoch → next.buckets.get k = db.buckets.get k)
      (charged : ∀ k ∈ bucketKeys row r.epoch, ∃ b, next.buckets.get k = some b ∧
        b.reservedTokens = reservedAt db.buckets k + r.reservedTokens ∧
        b.consumedTokens = consumedAt db.buckets k ∧
        b.consumedTokens + b.reservedTokens ≤ b.tokenLimit) : LedgerEffect db next none
  | discharged {settlement : Option (String × Int)} (r : BudgetReservation) (row : WakeSession)
      (consumed : Int) (state : ReservationState) (member : r ∈ db.reservations.rows)
      (active : r.state = .active) (session : db.sessions.get r.sessionId = some row)
      (ended : settlement = none ∧ consumed = 0 ∧ state = .released ∨
        settlement = some (r.reservationId,consumed) ∧ (state = .settled ∨ state = .uncertain))
      (present : ∀ k ∈ bucketKeys row r.epoch, db.buckets.get k ≠ none)
      (buckets : ∀ k, next.buckets.get k = (db.buckets.get k).map (fun b =>
        if k ∈ bucketKeys row r.epoch then {b with
          reservedTokens := b.reservedTokens + -r.reservedTokens
          consumedTokens := b.consumedTokens + consumed} else b))
      (rows : next.reservations.rows = db.reservations.rows.map (fun x =>
        if x.reservationId = r.reservationId then {x with state} else x)) :
      LedgerEffect db next settlement

theorem LedgerEffect.still {db next : Runtime} (buckets : next.buckets = db.buckets)
    (reservations : next.reservations = db.reservations) : LedgerEffect db next none :=
  .retained id (fun _ => .inl rfl) buckets (by rw [reservations,List.map_id])

theorem LedgerEffect.through {db middle next : Runtime} {settlement : Option (String × Int)}
    (ledger : LedgerEffect db middle settlement) (buckets : next.buckets = middle.buckets)
    (reservations : next.reservations = middle.reservations) : LedgerEffect db next settlement := by
  cases ledger with
  | retained move moves same rows =>
    exact .retained move moves (buckets.trans same) (reservations ▸ rows)
  | reserved r row active positive session inserted others charged =>
    refine .reserved r row active positive session (reservations ▸ inserted) ?_ ?_
    · rwa [buckets]
    · rwa [buckets]
  | discharged r row consumed state member active session ended present charged rows =>
    refine .discharged r row consumed state member active session ended present ?_ (reservations ▸ rows)
    rwa [buckets]

theorem holdReservations_ledger {db next : Runtime} {sessionId : String}
    (buckets : next.buckets = db.buckets) (reservations : next.reservations = db.holdReservations sessionId) :
    LedgerEffect db next none := by
  refine .retained (fun r => if r.sessionId = sessionId ∧ r.state = .active
    then {r with state := .uncertain} else r) ?_ buckets (congrArg Table.rows reservations)
  intro r
  split
  next active => exact .inr ⟨active.2,rfl⟩
  next => exact .inl rfl

theorem release_ledger {db next : Runtime} {message : String} {r : BudgetReservation} {row : WakeSession}
    (member : r ∈ db.reservations.rows) (active : r.state = .active)
    (session : db.sessions.get r.sessionId = some row)
    (ok : db.release message r row = .ok next) : LedgerEffect db next none ∧ next.sessions = db.sessions := by
  obtain ⟨buckets,discharged,rfl⟩ := release_effect ok
  obtain ⟨rfl,present⟩ := discharge_ok (bucketKeys_nodup row r.epoch) discharged
  refine ⟨?_,rfl⟩
  exact .discharged r row 0 .released member active session (.inl ⟨rfl,rfl,rfl⟩) present
    (fun k => get_charges (bucketKeys_nodup row r.epoch) _ k _ _) rfl

theorem releaseReservationFor_ledger {db next : Runtime} {sessionId : String}
    (ok : db.releaseReservationFor sessionId = .ok next) :
    LedgerEffect db next none ∧ next.sessions = db.sessions := by
  rcases releaseReservationFor_effect ok with ⟨_,rfl⟩ | ⟨r,found,active,row,session,released⟩
  · exact ⟨.still rfl rfl,rfl⟩
  · obtain ⟨member,rfl⟩ := Table.first_some found
    exact release_ledger member active session released

theorem settleBody_ledger {db next : Runtime} {reservationId : String} {consumed : Int} {uncertain : Bool}
    (ok : db.settleBody reservationId consumed = .ok (uncertain,next)) :
    LedgerEffect db next (some (reservationId,consumed)) ∧ next.sessions = db.sessions := by
  obtain ⟨_,r,⟨found,active⟩,row,session,covered,_,rfl⟩ := settleBody_effect ok
  obtain ⟨member,own⟩ := Table.get_eq_some.mp found
  change r.reservationId = reservationId at own
  subst own
  refine ⟨?_,rfl⟩
  refine .discharged r row consumed _ member active session (.inr ⟨rfl,?_⟩) ?_
    (fun k => get_charges (bucketKeys_nodup row r.epoch) _ k _ _) rfl
  · split
    · exact .inr rfl
    · exact .inl rfl
  · intro k inside
    obtain ⟨b,there,_⟩ := covered k inside
    simp [Option.mem_def.mp there]

/-- Sessions stay, and keep the organization and role they were created with. -/
def Owners (db next : Runtime) : Prop :=
  ∀ s row, db.sessions.get s = some row →
    ∃ row', next.sessions.get s = some row' ∧ row'.orgId = row.orgId ∧ row'.role = row.role

theorem Owners.same {db next : Runtime} (sessions : next.sessions = db.sessions) : Owners db next := by
  intro s row found
  exact ⟨row,sessions ▸ found,rfl,rfl⟩

theorem Owners.ended {db next : Runtime} {sessionId : String} {state : SessionState}
    (sessions : next.sessions = db.endSession sessionId state) : Owners db next := by
  intro s row found
  rw [sessions]
  simp only [endSession,Table.get_update,found,Option.map_some]
  split
  · exact ⟨_,rfl,rfl,rfl⟩
  · exact ⟨_,rfl,rfl,rfl⟩

def settlement (db : Runtime) : RuntimeOp → Option (String × Int)
  | .settleBudget reservationId consumed =>
    match db.settleBody reservationId consumed with
    | .ok _ => some (reservationId,consumed)
    | .error _ => none
  | _ => none

theorem settlement_error {db : Runtime} {op : RuntimeOp} (failed : ∀ u next, db.body op ≠ .ok (u,next)) :
    db.settlement op = none := by
  cases op with
  | settleBudget reservationId consumed =>
    cases result : db.settleBody reservationId consumed with
    | error e => simp [settlement,result]
    | ok value => exact absurd (discard_ok.mpr ⟨value.1,result⟩) (failed () value.2)
  | _ => rfl

theorem body_ledger {db next : Runtime} {op : RuntimeOp} (ok : db.body op = .ok ((),next)) :
    LedgerEffect db next (db.settlement op) ∧ Owners db next := by
  cases op with
  | createSession =>
    obtain ⟨_,ok⟩ := discard_ok.mp ok
    obtain ⟨_,_,_,_,_,_,sessions,inserted,rfl,rfl⟩ := createSession_effect ok
    refine ⟨.still rfl rfl,?_⟩
    intro s row found
    refine ⟨row,?_,rfl,rfl⟩
    have fresh := Table.insert_fresh inserted
    rw [Table.get_insert inserted,if_neg]
    · exact found
    · intro same
      rw [same,found] at fresh
      cases fresh
  | revokeSession =>
    obtain ⟨_,_,rfl⟩ := revokeSession_effect ok
    exact ⟨.still rfl rfl,.ended rfl⟩
  | finishSession =>
    obtain ⟨_,_,rfl⟩ := finishSession_effect ok
    exact ⟨.still rfl rfl,.ended rfl⟩
  | forceTerminateSession =>
    obtain ⟨_,rfl⟩ := forceTerminateSession_effect ok
    exact ⟨holdReservations_ledger rfl rfl,.ended rfl⟩
  | reapExpiredSession =>
    obtain ⟨_,_,rfl⟩ := reapExpiredSession_effect ok
    exact ⟨holdReservations_ledger rfl rfl,.ended rfl⟩
  | reserveWorker =>
    obtain ⟨_,ok⟩ := discard_ok.mp ok
    obtain ⟨_,_,_,_,_,_,_,_,rfl,rfl⟩ := reserveWorker_effect ok
    exact ⟨.still rfl rfl,.same rfl⟩
  | reserveBudget =>
    obtain ⟨_,ok⟩ := discard_ok.mp ok
    obtain ⟨positive,sessions,inserted,row,session,others,charged⟩ := reserveBudget_ok ok
    exact ⟨.reserved _ row rfl positive session inserted others charged,.same sessions⟩
  | settleBudget =>
    obtain ⟨_,ok⟩ := discard_ok.mp ok
    obtain ⟨ledger,sessions⟩ := settleBody_ledger ok
    simp only [settlement,ok]
    exact ⟨ledger,.same sessions⟩
  | markBudgetUncertain reservationId =>
    obtain ⟨_,rfl⟩ := markBudgetUncertain_effect ok
    refine ⟨.retained (fun r => if r.reservationId = reservationId ∧ r.state = .active
      then {r with state := .uncertain} else r) ?_ rfl rfl,.same rfl⟩
    intro r
    split
    next active => exact .inr ⟨active.2,rfl⟩
    next => exact .inl rfl
  | releaseBudget reservationId =>
    obtain ⟨r,⟨found,active⟩,row,session,ok⟩ := releaseBudget_effect ok
    obtain ⟨ledger,sessions⟩ := release_ledger (Table.get_eq_some.mp found).1 active session ok
    exact ⟨ledger,.same sessions⟩
  | markWakeRunning =>
    obtain ⟨_,rfl⟩ := markWakeRunning_effect ok
    exact ⟨.still rfl rfl,.same rfl⟩
  | finishWake =>
    obtain ⟨_,_,rfl⟩ := finishWake_effect ok
    exact ⟨.still rfl rfl,.same rfl⟩
  | recordProcess =>
    obtain ⟨_,_,_,_,rfl⟩ := recordProcess_effect ok
    exact ⟨.still rfl rfl,.same rfl⟩
  | finishProcess =>
    obtain ⟨_,_,rfl⟩ := finishProcess_effect ok
    exact ⟨.still rfl rfl,.same rfl⟩

end Runtime

namespace Store

def settlement (db : Store) : Op → Option (String × Int)
  | .runtime op => db.runtime.settlement op
  | _ => none

theorem step_ledger (db : Store) (op : Op) :
    Runtime.LedgerEffect db.runtime (db.step op).runtime (db.settlement op) ∧
      Runtime.Owners db.runtime (db.step op).runtime := by
  have effect := db.step_runtime op
  generalize (db.step op).runtime = after at effect ⊢
  cases effect with
  | unchanged idle =>
    have none_ : db.settlement op = none := by
      cases op with
      | runtime r => exact Runtime.settlement_error (fun u next => idle r u next rfl)
      | _ => rfl
    rw [none_]
    exact ⟨.still rfl rfl,.same rfl⟩
  | committed r next ok => exact Runtime.body_ledger ok
  | prepared next ok =>
    obtain ⟨_,_,_,rfl⟩ := Runtime.insertWake_effect ok
    exact ⟨.still rfl rfl,.same rfl⟩
  | orphaned sessionId guard middle ok =>
    obtain ⟨ledger,sessions⟩ := Runtime.releaseReservationFor_ledger ok
    refine ⟨ledger.through rfl rfl,@Runtime.Owners.ended _ _ sessionId .revoked ?_⟩
    simp only [Runtime.endSession,sessions]
  | recovered wakeId error now wake found prepared guard middle ok =>
    obtain ⟨ledger,sessions⟩ := Runtime.releaseReservationFor_ledger ok
    refine ⟨ledger.through rfl rfl,@Runtime.Owners.ended _ _ wake.sessionId .revoked ?_⟩
    simp only [Runtime.endSession,sessions]

/-! The ledger over a run. -/

abbrev Step := Transition Store Op

def settles (t : Step) : Option (String × Int) := t.before.settlement t.action

/-- A committed `settle_budget` of the history charged this reservation. -/
def settledIn (history : List Step) (reservationId : String) : Prop :=
  ∃ t ∈ history, (settles t).map Prod.fst = some reservationId

instance (history : List Step) (reservationId : String) : Decidable (settledIn history reservationId) :=
  inferInstanceAs (Decidable (∃ t ∈ history, _))

/-- Active, or made uncertain without being settled. -/
def outstanding (history : List Step) (r : BudgetReservation) : Prop :=
  r.state = .active ∨ r.state = .uncertain ∧ ¬ settledIn history r.reservationId

instance (history : List Step) (r : BudgetReservation) : Decidable (outstanding history r) :=
  inferInstanceAs (Decidable (_ ∨ _))

def share (history : List Step) (db : Runtime) (key : Runtime.BucketKey) (r : BudgetReservation) : Int :=
  if db.maps r key ∧ outstanding history r then r.reservedTokens else 0

def charged (key : Runtime.BucketKey) (t : Step) : Int :=
  match settles t with
  | some (reservationId,consumed) =>
    if ∃ r ∈ t.before.runtime.reservations.get reservationId, t.before.runtime.maps r key
    then consumed else 0
  | none => 0

/-- The transition ends the reservation's hold on its buckets. -/
def discharges (reservationId : String) (t : Step) : Bool :=
  (t.before.runtime.reservations.get reservationId).map BudgetReservation.state = some .active ∧
    ((t.after.runtime.reservations.get reservationId).map BudgetReservation.state = some .settled ∨
      (t.after.runtime.reservations.get reservationId).map BudgetReservation.state = some .released ∨
      (settles t).map Prod.fst = some reservationId)

def withinReservation (t : Step) : Prop :=
  ∀ reservationId consumed, settles t = some (reservationId,consumed) →
    ∀ r ∈ t.before.runtime.reservations.get reservationId, consumed ≤ r.reservedTokens

structure Ledger (history : List Step) (db : Runtime) : Prop where
  owned : ∀ r ∈ db.reservations.rows, db.sessions.get r.sessionId ≠ none
  positive : ∀ r ∈ db.reservations.rows, 0 < r.reservedTokens
  past : ∀ id, settledIn history id → ∃ r ∈ db.reservations.get id, r.state ≠ .active
  reserved : ∀ k, Runtime.reservedAt db.buckets k = db.reservations.sum (share history db k)
  consumed : ∀ k, Runtime.consumedAt db.buckets k = (history.map (charged k)).sum
  bounded : (∀ t ∈ history, withinReservation t) → ∀ k b, db.buckets.get k = some b →
    b.consumedTokens + b.reservedTokens ≤ b.tokenLimit
  once : ∀ id, history.countP (discharges id) ≤ 1
  ended : ∀ id, 0 < history.countP (discharges id) → ∃ r ∈ db.reservations.get id, r.state ≠ .active

theorem maps_next {db next : Runtime} (owners : Runtime.Owners db next) {r : BudgetReservation}
    (owned : db.sessions.get r.sessionId ≠ none) (key : Runtime.BucketKey) :
    next.maps r key ↔ db.maps r key := by
  obtain ⟨row,found⟩ := Option.ne_none_iff_exists'.mp owned
  obtain ⟨row',after,org,role⟩ := owners _ _ found
  simp [Runtime.maps,found,after,Runtime.bucketKeys,org,role]

theorem settledIn_concat (history : List Step) (t : Step) (id : String) :
    settledIn (history ++ [t]) id ↔ settledIn history id ∨ (settles t).map Prod.fst = some id := by
  simp only [settledIn,List.mem_append,List.mem_singleton]
  constructor
  · rintro ⟨u,inside | rfl,equal⟩
    · exact .inl ⟨u,inside,equal⟩
    · exact .inr equal
  · rintro (⟨u,inside,equal⟩ | equal)
    · exact ⟨u,.inl inside,equal⟩
    · exact ⟨t,.inr rfl,equal⟩

section Step
variable {history : List Step} {t : Step}

theorem outstanding_concat {r : BudgetReservation}
    (other : (settles t).map Prod.fst ≠ some r.reservationId) :
    outstanding (history ++ [t]) r ↔ outstanding history r := by
  simp [outstanding,settledIn_concat,other]

/-! Only a discharge is one: neither holding nor reserving takes anything out of a bucket. -/

theorem retained_silent (unpaid : settles t = none) {move : BudgetReservation → BudgetReservation}
    (moves : ∀ r, move r = r ∨ r.state = .active ∧ move r = {r with state := .uncertain})
    (rows : t.after.runtime.reservations.rows = t.before.runtime.reservations.rows.map move)
    (id : String) : discharges id t = false := by
  have keeps (r : BudgetReservation) : (move r).reservationId = r.reservationId := by
    rcases moves r with same | ⟨_,equal⟩
    · rw [same]
    · rw [equal]
  simp only [discharges,unpaid,Table.get_map keeps rows,decide_eq_false_iff_not]
  rintro ⟨active,after⟩
  obtain ⟨r,found,state⟩ := Option.map_eq_some_iff.mp active
  rcases moves r with same | ⟨_,equal⟩
  · simp [found,same,state] at after
  · simp [found,equal] at after

theorem inserted_stays {r old : BudgetReservation} {id : String}
    (inserted : t.before.runtime.reservations.insert r = some t.after.runtime.reservations)
    (found : t.before.runtime.reservations.get id = some old) :
    t.after.runtime.reservations.get id = some old := by
  have fresh := Table.insert_fresh inserted
  rw [Table.get_insert inserted,if_neg]
  · exact found
  · intro same
    rw [same,found] at fresh
    cases fresh

theorem reserving_silent (unpaid : settles t = none) {r : BudgetReservation}
    (inserted : t.before.runtime.reservations.insert r = some t.after.runtime.reservations)
    (id : String) : discharges id t = false := by
  simp only [discharges,unpaid,decide_eq_false_iff_not]
  rintro ⟨before,after⟩
  obtain ⟨old,found,state⟩ := Option.map_eq_some_iff.mp before
  simp [inserted_stays inserted found,state] at after

theorem discharging_get {r : BudgetReservation} {state : ReservationState}
    (rows : t.after.runtime.reservations.rows = t.before.runtime.reservations.rows.map (fun x =>
      if x.reservationId = r.reservationId then {x with state} else x)) (id : String) :
    t.after.runtime.reservations.get id = (t.before.runtime.reservations.get id).map (fun x =>
      if x.reservationId = r.reservationId then {x with state} else x) := by
  refine Table.get_map ?_ rows id
  intro x
  split <;> rfl

theorem discharging_stays {r old : BudgetReservation} {state : ReservationState} {id : String}
    (rows : t.after.runtime.reservations.rows = t.before.runtime.reservations.rows.map (fun x =>
      if x.reservationId = r.reservationId then {x with state} else x))
    (other : id ≠ r.reservationId) (found : t.before.runtime.reservations.get id = some old) :
    t.after.runtime.reservations.get id = some old := by
  have own : old.reservationId = id := (Table.get_eq_some.mp found).2
  rw [discharging_get rows,found,Option.map_some,if_neg (own ▸ other)]

theorem discharging_silent {r : BudgetReservation} {state : ReservationState} {consumed : Int}
    {id : String}
    (ended : settles t = none ∧ consumed = 0 ∧ state = .released ∨
      settles t = some (r.reservationId,consumed) ∧ (state = .settled ∨ state = .uncertain))
    (rows : t.after.runtime.reservations.rows = t.before.runtime.reservations.rows.map (fun x =>
      if x.reservationId = r.reservationId then {x with state} else x))
    (other : id ≠ r.reservationId) :
    (settles t).map Prod.fst ≠ some id ∧ discharges id t = false := by
  have unpaid : (settles t).map Prod.fst ≠ some id := by
    rcases ended with ⟨none_,_⟩ | ⟨paid,_⟩
    · simp [none_]
    · simp [paid,Ne.symm other]
  refine ⟨unpaid,?_⟩
  simp only [discharges,decide_eq_false_iff_not]
  rintro ⟨before,after⟩
  obtain ⟨old,found,was⟩ := Option.map_eq_some_iff.mp before
  simp [discharging_stays rows other found,was,unpaid] at after

theorem Ledger.retained (ledger : Ledger history t.before.runtime)
    (owners : Runtime.Owners t.before.runtime t.after.runtime) (unpaid : settles t = none)
    {move : BudgetReservation → BudgetReservation}
    (moves : ∀ r, move r = r ∨ r.state = .active ∧ move r = {r with state := .uncertain})
    (buckets : t.after.runtime.buckets = t.before.runtime.buckets)
    (rows : t.after.runtime.reservations.rows = t.before.runtime.reservations.rows.map move) :
    Ledger (history ++ [t]) t.after.runtime := by
  have keeps (r : BudgetReservation) : (move r).reservationId = r.reservationId := by
    rcases moves r with same | ⟨_,equal⟩
    · rw [same]
    · rw [equal]
  have lookup := Table.get_map keeps rows
  have inactive {r : BudgetReservation} (state : r.state ≠ .active) : move r = r :=
    (moves r).resolve_right (fun both => state both.1)
  have silent := retained_silent unpaid moves rows
  refine ⟨?_,?_,?_,?_,?_,?_,?_,?_⟩
  · intro r member
    rw [rows] at member
    obtain ⟨old,present,rfl⟩ := List.mem_map.mp member
    have session : (move old).sessionId = old.sessionId := by
      rcases moves old with same | ⟨_,equal⟩
      · rw [same]
      · rw [equal]
    obtain ⟨row,found⟩ := Option.ne_none_iff_exists'.mp (ledger.owned old present)
    obtain ⟨row',after,_⟩ := owners _ _ found
    simp [session,after]
  · intro r member
    rw [rows] at member
    obtain ⟨old,inside,rfl⟩ := List.mem_map.mp member
    rcases moves old with same | ⟨_,equal⟩
    · rw [same]
      exact ledger.positive old inside
    · rw [equal]
      exact ledger.positive old inside
  · intro id settled
    rw [settledIn_concat,unpaid] at settled
    obtain ⟨r,found,state⟩ := ledger.past id (settled.resolve_right (by simp))
    refine ⟨r,?_,state⟩
    rw [lookup,Option.mem_def.mp found,Option.map_some,inactive state]
    rfl
  · intro k
    rw [buckets,ledger.reserved k]
    simp only [Table.sum,rows,List.map_map]
    congr 1
    apply List.map_congr_left
    intro r member
    have owned := ledger.owned r member
    rcases moves r with same | ⟨active,equal⟩
    · simp only [Function.comp,same,share,maps_next owners owned,
        @outstanding_concat history t r (by simp [unpaid])]
    · have unsettled : ¬ settledIn history r.reservationId := by
        intro settled
        obtain ⟨other,found,state⟩ := ledger.past _ settled
        have here : t.before.runtime.reservations.get r.reservationId = some r := Table.get_key member
        rw [here] at found
        cases Option.some.inj (Option.mem_def.mp found)
        exact state active
      have mapped : t.after.runtime.maps {r with state := .uncertain} k ↔ t.before.runtime.maps r k :=
        maps_next owners owned k
      simp [share,equal,mapped,outstanding,settledIn_concat,unsettled,active,unpaid]
  · intro k
    rw [buckets,ledger.consumed k]
    simp [charged,unpaid]
  · intro within k b found
    rw [buckets] at found
    exact ledger.bounded (fun u member => within u (List.mem_append_left _ member)) k b found
  · intro id
    rw [List.countP_append,List.countP_singleton,silent]
    exact ledger.once id
  · intro id positive
    rw [List.countP_append,List.countP_singleton,silent] at positive
    obtain ⟨r,found,state⟩ := ledger.ended id positive
    refine ⟨r,?_,state⟩
    rw [lookup,Option.mem_def.mp found,Option.map_some,inactive state]
    rfl

theorem Ledger.reserving (ledger : Ledger history t.before.runtime)
    (owners : Runtime.Owners t.before.runtime t.after.runtime) (unpaid : settles t = none)
    {r : BudgetReservation} {row : WakeSession} (active : r.state = .active)
    (positive : 0 < r.reservedTokens) (session : t.before.runtime.sessions.get r.sessionId = some row)
    (inserted : t.before.runtime.reservations.insert r = some t.after.runtime.reservations)
    (others : ∀ k, k ∉ Runtime.bucketKeys row r.epoch →
      t.after.runtime.buckets.get k = t.before.runtime.buckets.get k)
    (paid : ∀ k ∈ Runtime.bucketKeys row r.epoch, ∃ b, t.after.runtime.buckets.get k = some b ∧
      b.reservedTokens = Runtime.reservedAt t.before.runtime.buckets k + r.reservedTokens ∧
      b.consumedTokens = Runtime.consumedAt t.before.runtime.buckets k ∧
      b.consumedTokens + b.reservedTokens ≤ b.tokenLimit) :
    Ledger (history ++ [t]) t.after.runtime := by
  have silent := reserving_silent unpaid inserted
  have mapped (k : Runtime.BucketKey) : t.after.runtime.maps r k ↔ k ∈ Runtime.bucketKeys row r.epoch := by
    rw [maps_next owners (by simp [session])]
    simp [Runtime.maps,session]
  refine ⟨?_,?_,?_,?_,?_,?_,?_,?_⟩
  · intro x member
    have owned : t.before.runtime.sessions.get x.sessionId ≠ none := by
      rcases (Table.mem_insert inserted).mp member with old | rfl
      · exact ledger.owned x old
      · simp [session]
    obtain ⟨found,before⟩ := Option.ne_none_iff_exists'.mp owned
    obtain ⟨_,after,_⟩ := owners _ _ before
    simp [after]
  · intro x member
    rcases (Table.mem_insert inserted).mp member with old | rfl
    · exact ledger.positive x old
    · exact positive
  · intro id settled
    rw [settledIn_concat,unpaid] at settled
    obtain ⟨old,found,state⟩ := ledger.past id (settled.resolve_right (by simp))
    exact ⟨old,inserted_stays inserted found,state⟩
  · intro k
    rw [Table.sum_insert inserted]
    have rest : t.before.runtime.reservations.sum (share (history ++ [t]) t.after.runtime k) =
        t.before.runtime.reservations.sum (share history t.before.runtime k) := by
      apply Table.sum_congr
      intro x member
      simp only [share,maps_next owners (ledger.owned x member),
        @outstanding_concat history t x (by simp [unpaid])]
    have own : share (history ++ [t]) t.after.runtime k r =
        if k ∈ Runtime.bucketKeys row r.epoch then r.reservedTokens else 0 := by
      simp [share,mapped,outstanding,active]
    rw [rest,own,← ledger.reserved k]
    by_cases inside : k ∈ Runtime.bucketKeys row r.epoch
    · obtain ⟨b,after,total,_⟩ := paid k inside
      rw [if_pos inside,← total]
      simp [Runtime.reservedAt,after]
    · simp [inside,Runtime.reservedAt,others k inside]
  · intro k
    have same : Runtime.consumedAt t.after.runtime.buckets k =
        Runtime.consumedAt t.before.runtime.buckets k := by
      by_cases inside : k ∈ Runtime.bucketKeys row r.epoch
      · obtain ⟨b,after,_,total,_⟩ := paid k inside
        rw [← total]
        simp [Runtime.consumedAt,after]
      · simp [Runtime.consumedAt,others k inside]
    rw [same,ledger.consumed k]
    simp [charged,unpaid]
  · intro within k b found
    by_cases inside : k ∈ Runtime.bucketKeys row r.epoch
    · obtain ⟨b',after,_,_,room⟩ := paid k inside
      rw [found] at after
      cases Option.some.inj after
      exact room
    · rw [others k inside] at found
      exact ledger.bounded (fun u member => within u (List.mem_append_left _ member)) k b found
  · intro id
    rw [List.countP_append,List.countP_singleton,silent]
    exact ledger.once id
  · intro id positive
    rw [List.countP_append,List.countP_singleton,silent] at positive
    obtain ⟨old,found,state⟩ := ledger.ended id positive
    exact ⟨old,inserted_stays inserted found,state⟩

theorem Ledger.discharging (ledger : Ledger history t.before.runtime)
    (owners : Runtime.Owners t.before.runtime t.after.runtime)
    {r : BudgetReservation} {row : WakeSession} {consumed : Int} {state : ReservationState}
    (member : r ∈ t.before.runtime.reservations.rows) (active : r.state = .active)
    (session : t.before.runtime.sessions.get r.sessionId = some row)
    (ended : settles t = none ∧ consumed = 0 ∧ state = .released ∨
      settles t = some (r.reservationId,consumed) ∧ (state = .settled ∨ state = .uncertain))
    (buckets : ∀ k, t.after.runtime.buckets.get k = (t.before.runtime.buckets.get k).map (fun b =>
      if k ∈ Runtime.bucketKeys row r.epoch then {b with
        reservedTokens := b.reservedTokens + -r.reservedTokens
        consumedTokens := b.consumedTokens + consumed} else b))
    (present : ∀ k ∈ Runtime.bucketKeys row r.epoch, t.before.runtime.buckets.get k ≠ none)
    (rows : t.after.runtime.reservations.rows = t.before.runtime.reservations.rows.map (fun x =>
      if x.reservationId = r.reservationId then {x with state} else x)) :
    Ledger (history ++ [t]) t.after.runtime := by
  have closed : state ≠ .active := by
    rcases ended with ⟨_,_,rfl⟩ | ⟨_,rfl | rfl⟩ <;> simp
  have here : t.before.runtime.reservations.get r.reservationId = some r := Table.get_key member
  have gone : ∃ x ∈ t.after.runtime.reservations.get r.reservationId, x.state ≠ .active := by
    refine ⟨{r with state},?_,closed⟩
    rw [discharging_get rows,here,Option.map_some,if_pos rfl]
    rfl
  have others {id : String} (other : id ≠ r.reservationId) := (discharging_silent ended rows other).1
  have silent {id : String} (other : id ≠ r.reservationId) := (discharging_silent ended rows other).2
  have unspent : history.countP (discharges r.reservationId) = 0 := by
    by_contra some_
    obtain ⟨old,found,was⟩ := ledger.ended _ (Nat.pos_of_ne_zero some_)
    rw [here] at found
    cases Option.some.inj (Option.mem_def.mp found)
    exact was active
  have mapped (k : Runtime.BucketKey) :
      t.before.runtime.maps r k ↔ k ∈ Runtime.bucketKeys row r.epoch := by
    simp [Runtime.maps,session]
  refine ⟨?_,?_,?_,?_,?_,?_,?_,?_⟩
  · intro x inside
    rw [rows] at inside
    obtain ⟨old,before,rfl⟩ := List.mem_map.mp inside
    have same : (if old.reservationId = r.reservationId then {old with state} else old).sessionId =
        old.sessionId := by
      split <;> rfl
    obtain ⟨_,found⟩ := Option.ne_none_iff_exists'.mp (ledger.owned old before)
    obtain ⟨_,after,_⟩ := owners _ _ found
    simp [same,after]
  · intro x inside
    rw [rows] at inside
    obtain ⟨old,before,rfl⟩ := List.mem_map.mp inside
    have amount := ledger.positive old before
    split <;> exact amount
  · intro id settled
    by_cases own : id = r.reservationId
    · subst own
      exact gone
    · rw [settledIn_concat] at settled
      obtain ⟨old,found,was⟩ := ledger.past id (settled.resolve_right (others own))
      exact ⟨old,discharging_stays rows own found,was⟩
  · intro k
    have total := @Table.sum_at _ _ _ _ _ _ rows (share history t.before.runtime k)
      (share (history ++ [t]) t.after.runtime k) r member (by
        intro x before other
        have away : ¬ x.reservationId = r.reservationId := other
        rw [if_neg away]
        simp only [share,maps_next owners (ledger.owned x before),
          @outstanding_concat history t x (others away)])
    have was : share history t.before.runtime k r =
        if k ∈ Runtime.bucketKeys row r.epoch then r.reservedTokens else 0 := by
      simp [share,mapped,outstanding,active]
    have now : share (history ++ [t]) t.after.runtime k {r with state} = 0 := by
      have spent : ¬ outstanding (history ++ [t]) {r with state} := by
        rcases ended with ⟨_,_,rfl⟩ | ⟨paid,rfl | rfl⟩
        · simp [outstanding]
        · simp [outstanding]
        · simp [outstanding,settledIn_concat,paid]
      simp [share,spent]
    rw [total,was,if_pos rfl,now,← ledger.reserved k]
    unfold Runtime.reservedAt
    rw [buckets]
    by_cases inside : k ∈ Runtime.bucketKeys row r.epoch
    · obtain ⟨b,found⟩ := Option.ne_none_iff_exists'.mp (present k inside)
      simp only [found,inside,if_true,Option.map_some,Option.getD_some]
      omega
    · simp [inside]
  · intro k
    have paid : charged k t = if k ∈ Runtime.bucketKeys row r.epoch then consumed else 0 := by
      rcases ended with ⟨none_,rfl,_⟩ | ⟨paid,_⟩
      · simp [charged,none_]
      · simp [charged,paid,here,mapped]
    rw [List.map_append,List.sum_append,← ledger.consumed k]
    unfold Runtime.consumedAt
    rw [buckets]
    by_cases inside : k ∈ Runtime.bucketKeys row r.epoch
    · obtain ⟨b,found⟩ := Option.ne_none_iff_exists'.mp (present k inside)
      simp [found,inside,paid]
    · simp [inside,paid]
  · intro within k b found
    rw [buckets] at found
    obtain ⟨old,before,rfl⟩ := Option.map_eq_some_iff.mp found
    have room := ledger.bounded (fun u inside => within u (List.mem_append_left _ inside)) k old before
    split
    next =>
      have limit : consumed ≤ r.reservedTokens := by
        rcases ended with ⟨_,rfl,_⟩ | ⟨paid,_⟩
        · exact (ledger.positive r member).le
        · exact within t (List.mem_append_right _ List.mem_cons_self) _ _ paid r here
      dsimp only
      omega
    next => exact room
  · intro id
    rw [List.countP_append,List.countP_singleton]
    by_cases own : id = r.reservationId
    · rw [own,unspent]
      split <;> omega
    · rw [silent own]
      exact ledger.once id
  · intro id positive
    by_cases own : id = r.reservationId
    · rw [own]
      exact gone
    · rw [List.countP_append,List.countP_singleton,silent own] at positive
      obtain ⟨old,found,was⟩ := ledger.ended id positive
      exact ⟨old,discharging_stays rows own found,was⟩

theorem Ledger.next (ledger : Ledger history t.before.runtime)
    (owners : Runtime.Owners t.before.runtime t.after.runtime)
    (effect : Runtime.LedgerEffect t.before.runtime t.after.runtime (settles t)) :
    Ledger (history ++ [t]) t.after.runtime := by
  generalize paid : settles t = settlement at effect
  cases effect with
  | retained move moves buckets rows => exact ledger.retained owners paid moves buckets rows
  | reserved r row active positive session inserted others charged =>
    exact ledger.reserving owners paid active positive session inserted others charged
  | discharged r row consumed state member active session ended present buckets rows =>
    subst paid
    exact ledger.discharging owners member active session ended buckets present rows

/-- What a transition does to the figures reserved in the buckets: a discharge lowers both
buckets of its reservation and no others, and nothing else lowers a bucket. -/
def dischargesTogether (t : Step) : Prop :=
  (∀ id, discharges id t → ∃ r row, t.before.runtime.reservations.get id = some r ∧
    t.before.runtime.sessions.get r.sessionId = some row ∧
    (∀ k ∈ Runtime.bucketKeys row r.epoch, ∃ b b', t.before.runtime.buckets.get k = some b ∧
      t.after.runtime.buckets.get k = some b' ∧ b'.reservedTokens = b.reservedTokens - r.reservedTokens) ∧
    ∀ k, k ∉ Runtime.bucketKeys row r.epoch →
      t.after.runtime.buckets.get k = t.before.runtime.buckets.get k) ∧
  ((∀ id, ¬ discharges id t) → ∀ k,
    Runtime.reservedAt t.before.runtime.buckets k ≤ Runtime.reservedAt t.after.runtime.buckets k)

theorem dischargesTogether_of_effect
    (effect : Runtime.LedgerEffect t.before.runtime t.after.runtime (settles t)) :
    dischargesTogether t := by
  generalize paid : settles t = settlement at effect
  cases effect with
  | retained move moves buckets rows =>
    refine ⟨?_,?_⟩
    · intro id found
      rw [retained_silent paid moves rows] at found
      cases found
    · intro _ k
      rw [buckets]
  | reserved r row active positive session inserted others charged =>
    refine ⟨?_,?_⟩
    · intro id found
      rw [reserving_silent paid inserted] at found
      cases found
    · intro _ k
      by_cases inside : k ∈ Runtime.bucketKeys row r.epoch
      · obtain ⟨b,after,total,_⟩ := charged k inside
        have now : Runtime.reservedAt t.after.runtime.buckets k = b.reservedTokens := by
          simp [Runtime.reservedAt,after]
        omega
      · simp [Runtime.reservedAt,others k inside]
  | discharged r row consumed state member active session ended present buckets rows =>
    subst paid
    have here : t.before.runtime.reservations.get r.reservationId = some r := Table.get_key member
    refine ⟨?_,?_⟩
    · intro id found
      have own : id = r.reservationId := by
        by_contra other
        rw [(discharging_silent ended rows other).2] at found
        cases found
      subst own
      refine ⟨r,row,here,session,?_,?_⟩
      · intro k inside
        obtain ⟨b,before⟩ := Option.ne_none_iff_exists'.mp (present k inside)
        refine ⟨b,_,before,(buckets k).trans (congrArg _ before),?_⟩
        simp only [inside,if_true]
        omega
      · intro k outside
        rw [buckets]
        simp [outside]
    · intro quiet
      exfalso
      apply quiet r.reservationId
      have after : t.after.runtime.reservations.get r.reservationId = some {r with state} := by
        rw [discharging_get rows,here,Option.map_some,if_pos rfl]
      rcases ended with ⟨_,_,rfl⟩ | ⟨settled,_⟩
      · simp [discharges,here,active,after]
      · simp [discharges,here,active,settled]

end Step

theorem ledger_run (ops : List Op) : Ledger (trace step empty ops) (run step empty ops).runtime := by
  refine @invariant_history _ _ step (fun history db => Ledger history db.runtime) empty ?_ ?_ ops
  · refine ⟨?_,?_,?_,?_,?_,?_,?_,?_⟩
    · intro r member
      cases member
    · intro r member
      cases member
    · rintro id ⟨t,member,_⟩
      cases member
    · intro k
      rfl
    · intro k
      rfl
    · intro _ k b found
      cases found
    · intro id
      exact Nat.zero_le _
    · intro id positive
      cases positive
  · intro history db op ledger
    obtain ⟨effect,owners⟩ := db.step_ledger op
    exact @Ledger.next history ⟨db,op,db.step op⟩ ledger owners effect

end Store
end SjgControl

import Mathlib.Logic.Function.Iterate
import SjgControl.Delivery

/-! Repeated calls of `lease_delivery` at one instant. Each call that leases another delivery
uses up one of its attempts, and no call touches a delivery that waits, so a delivery that is
leasable and eligible has its turn. -/
namespace SjgControl
open Relational

structure LeaseCall where
  owner : String
  now : Instant
  leaseSeconds : Int
  maxAttempts : Int

namespace LeaseCall

/-- The limits `lease_delivery` asks for. -/
def valid (c : LeaseCall) : Prop := c.owner ≠ "" ∧ 0 < c.leaseSeconds ∧ 0 < c.maxAttempts

end LeaseCall

/-- Work put aside until `eligible_at`, with attempts left. That this time has come is told by the order
of the texts. -/
structure Delivery.Waiting (c : LeaseCall) (r : Delivery) : Prop where
  parked : r.state.leasable ∨ r.state = .budgetHold
  eligible : r.eligibleAt ≤ c.now.isoText
  below : r.attempt < c.maxAttempts

namespace Queue

def lease (c : LeaseCall) (db : Queue) : Outcome Queue StoreError (Option Delivery) :=
  atomically db (db.leaseDelivery c.owner c.now c.leaseSeconds c.maxAttempts)

def afterLeases (c : LeaseCall) (n : Nat) (db : Queue) : Queue := (fun db => (db.lease c).state)^[n] db

def leasedLater (c : LeaseCall) (db : Queue) (d : String) : Prop :=
  ∃ n row, ((db.afterLeases c n).lease c).result = .ok (some row) ∧ row.deliveryId = d

variable {c : LeaseCall} {db : Queue} {d : String} {row : Delivery}

theorem sweepRow_waiting (waiting : row.Waiting c) :
    sweepRow c.now.isoText c.maxAttempts row = row := by
  obtain ⟨parked,_,below⟩ := waiting
  have unspent : ¬ c.maxAttempts ≤ row.attempt := by omega
  rcases parked with (queued | retry) | held
  · simp [sweepRow,quarantineRow,reclaimRow,buryRow,queued,unspent]
  · simp [sweepRow,quarantineRow,reclaimRow,buryRow,retry,unspent]
  · simp [sweepRow,quarantineRow,reclaimRow,buryRow,held,DeliveryState.leasable]

theorem earliest_of_mem {rows : List Delivery} (member : row ∈ rows) : ∃ least, earliest rows = some least := by
  cases rows with
  | nil => cases member
  | cons head rest =>
    unfold earliest
    split
    next => exact ⟨_,rfl⟩
    next => split <;> exact ⟨_,rfl⟩

theorem nextEligible_some {timestamp : String} (found : db.nextEligible timestamp = some row) :
    row ∈ db.deliveries.rows ∧ row.state.leasable ∧ row.eligibleAt ≤ timestamp :=
  Table.mem_select.mp (earliest_mem found)

/-- A call within the limits returns, unless the end of the lease is past the calendar. -/
theorem lease_cases (valid : c.valid) :
    (c.now.later c.leaseSeconds = none ∧ db.lease c = ⟨.error .overflowError,db⟩) ∨
      (∃ expiry, c.now.later c.leaseSeconds = some expiry ∧
        ((db.swept c.now.isoText c.maxAttempts).nextEligible c.now.isoText = none ∧
            db.lease c = ⟨.ok none,db.swept c.now.isoText c.maxAttempts⟩ ∨
          ∃ row, (db.swept c.now.isoText c.maxAttempts).nextEligible c.now.isoText = some row ∧
            db.lease c = ⟨.ok (((db.swept c.now.isoText c.maxAttempts).leaseTo row c.owner
                expiry.isoText).deliveries.get row.deliveryId),
              (db.swept c.now.isoText c.maxAttempts).leaseTo row c.owner expiry.isoText⟩)) := by
  have limits : ¬ (c.owner = "" ∨ c.leaseSeconds ≤ 0 ∨ c.maxAttempts ≤ 0) := by
    obtain ⟨owner,seconds,attempts⟩ := valid
    simp only [not_or,not_le]
    exact ⟨owner,seconds,attempts⟩
  cases later : c.now.later c.leaseSeconds with
  | none =>
    refine .inl ⟨rfl,?_⟩
    simp [lease,leaseDelivery,require,limits,later,fetch,bind,Except.bind,atomically]
  | some expiry =>
    refine .inr ⟨expiry,rfl,?_⟩
    cases chosen : (db.swept c.now.isoText c.maxAttempts).nextEligible c.now.isoText with
    | none =>
      refine .inl ⟨rfl,?_⟩
      unfold swept at chosen
      simp [lease,leaseDelivery,require,limits,later,fetch,bind,Except.bind,atomically,chosen,pure,Except.pure,
        swept]
    | some row =>
      refine .inr ⟨row,rfl,?_⟩
      unfold swept at chosen
      simp [lease,leaseDelivery,require,limits,later,fetch,bind,Except.bind,atomically,chosen,pure,Except.pure,
        swept]

/-! The attempts that the calls can still use up. -/

def attemptsLeft (c : LeaseCall) (db : Queue) : Int :=
  db.deliveries.sum (fun r => max 0 (c.maxAttempts - r.attempt))

theorem attemptsLeft_nonneg : 0 ≤ db.attemptsLeft c :=
  Table.sum_nonneg (fun _ _ => le_max_left _ _)

def leaseRow (owner leaseUntil : String) (r : Delivery) : Delivery :=
  {r with
    state := .leased
    attempt := r.attempt + 1
    leaseOwner := some owner
    leaseUntil := some leaseUntil}

theorem swept_rows (timestamp : String) (maxAttempts : Int) :
    (db.swept timestamp maxAttempts).deliveries.rows =
      db.deliveries.rows.map (sweepRow timestamp maxAttempts) := by
  apply Table.rows_of_get
  · simp only [swept,quarantineExpired,reclaimExpired,buryExhausted,setDeliveries,Table.update_keys]
  · intro k
    exact get_swept db timestamp maxAttempts k

theorem leaseTo_rows (owner leaseUntil : String) :
    (db.leaseTo row owner leaseUntil).deliveries.rows =
      db.deliveries.rows.map (fun r => if r.deliveryId = row.deliveryId then leaseRow owner leaseUntil r else r) := by
  simp only [leaseTo,setDeliveries,Table.update,List.mem_singleton]
  rfl

theorem get_leaseTo (owner leaseUntil : String) (k : String) :
    (db.leaseTo row owner leaseUntil).deliveries.get k =
      (db.deliveries.get k).map (fun r => if r.deliveryId = row.deliveryId then leaseRow owner leaseUntil r else r) := by
  apply Table.get_map ?_ (leaseTo_rows owner leaseUntil)
  intro r
  split <;> rfl

theorem attemptsLeft_leaseTo (owner leaseUntil : String)
    (chosen : (db.swept c.now.isoText c.maxAttempts).nextEligible c.now.isoText = some row) :
    ((db.swept c.now.isoText c.maxAttempts).leaseTo row owner leaseUntil).attemptsLeft c + 1 =
      db.attemptsLeft c := by
  obtain ⟨present,leasable,_⟩ := nextEligible_some chosen
  rw [swept_rows] at present
  obtain ⟨old,member,rfl⟩ := List.mem_map.mp present
  have below : old.attempt < c.maxAttempts := ((sweepRow_leasable _ _ old).mp leasable).2
  have moved : ((db.swept c.now.isoText c.maxAttempts).leaseTo (sweepRow c.now.isoText c.maxAttempts old) owner
      leaseUntil).deliveries.rows = db.deliveries.rows.map (fun r =>
        if r.deliveryId = old.deliveryId then leaseRow owner leaseUntil (sweepRow c.now.isoText c.maxAttempts r)
        else sweepRow c.now.isoText c.maxAttempts r) := by
    simp only [leaseTo_rows,swept_rows,List.map_map,Function.comp_def,sweepRow_id]
  let left (r : Delivery) : Int := max 0 (c.maxAttempts - r.attempt)
  have total := @Table.sum_at _ _ _ _ _ _ moved left left old member (by
    intro r _ other
    change r.deliveryId ≠ old.deliveryId at other
    simp only [left,if_neg other,sweepRow_attempt])
  simp only [left,if_true,leaseRow,sweepRow_attempt] at total
  unfold attemptsLeft
  omega

theorem get_leaseTo_waiting (owner leaseUntil : String) {other : Delivery} (found : db.deliveries.get d = some row)
    (waiting : row.Waiting c) (apart : other.deliveryId ≠ d) :
    ((db.swept c.now.isoText c.maxAttempts).leaseTo other owner leaseUntil).deliveries.get d = some row := by
  have own : row.deliveryId = d := (Table.get_eq_some.mp found).2
  rw [get_leaseTo,get_swept,found,Option.map_some,sweepRow_waiting waiting,Option.map_some,if_neg]
  rw [own]
  exact apart.symm

theorem lease_chosen (chosen : (db.swept c.now.isoText c.maxAttempts).nextEligible c.now.isoText = some row)
    (owner leaseUntil : String) :
    ∃ leased, ((db.swept c.now.isoText c.maxAttempts).leaseTo row owner leaseUntil).deliveries.get
      row.deliveryId = some leased ∧ leased.deliveryId = row.deliveryId := by
  obtain ⟨present,_⟩ := nextEligible_some chosen
  have found : (db.swept c.now.isoText c.maxAttempts).deliveries.get row.deliveryId = some row :=
    Table.get_key present
  refine ⟨leaseRow owner leaseUntil row,?_,rfl⟩
  rw [get_leaseTo,found,Option.map_some,if_pos rfl]

/-- By induction on the attempts left: every call before the delivery's turn leases another. -/
theorem leasedLater_of_leasable (valid : c.valid) {expiry : Instant}
    (later : c.now.later c.leaseSeconds = some expiry) (found : db.deliveries.get d = some row)
    (waiting : row.Waiting c) (leasable : row.state.leasable) : db.leasedLater c d := by
  induction left : (db.attemptsLeft c).toNat using Nat.strong_induction_on generalizing db with
  | _ left ih =>
    subst left
    rcases @lease_cases c db valid with ⟨overflow,_⟩ | ⟨expiry,_,⟨nothing,_⟩ | ⟨chosen,first,call⟩⟩
    · rw [overflow] at later
      contradiction
    · -- the delivery itself is eligible
      have swept : (db.swept c.now.isoText c.maxAttempts).deliveries.get d = some row := by
        rw [get_swept,found,Option.map_some,sweepRow_waiting waiting]
      have member := (Table.get_eq_some.mp swept).1
      have listed : row ∈ (db.swept c.now.isoText c.maxAttempts).deliveries.select
          (fun r => r.state.leasable ∧ r.eligibleAt ≤ c.now.isoText) :=
        Table.mem_select.mpr ⟨member,leasable,waiting.eligible⟩
      obtain ⟨least,exists_⟩ := earliest_of_mem listed
      rw [nextEligible,exists_] at nothing
      contradiction
    · by_cases own : chosen.deliveryId = d
      · obtain ⟨leased,result,same⟩ := lease_chosen first c.owner expiry.isoText
        refine ⟨0,leased,?_,same.trans own⟩
        change (db.lease c).result = _
        rw [call,result]
      · have remaining := get_leaseTo_waiting c.owner expiry.isoText found waiting own
        have fewer := attemptsLeft_leaseTo c.owner expiry.isoText first
        have nonneg : 0 ≤ ((db.swept c.now.isoText c.maxAttempts).leaseTo chosen c.owner
          expiry.isoText).attemptsLeft c := attemptsLeft_nonneg
        obtain ⟨n,leased,result,same⟩ := ih _ (by omega) remaining rfl
        refine ⟨n + 1,leased,?_,same⟩
        rw [afterLeases,Function.iterate_succ_apply,call]
        exact result

theorem lease_held (found : db.deliveries.get d = some row) (waiting : row.Waiting c)
    (held : row.state = .budgetHold) (valid : c.valid) :
    (db.lease c).state.deliveries.get d = some row ∧
      ∀ leased, (db.lease c).result = .ok (some leased) → leased.deliveryId ≠ d := by
  have swept : (db.swept c.now.isoText c.maxAttempts).deliveries.get d = some row := by
    rw [get_swept,found,Option.map_some,sweepRow_waiting waiting]
  rcases @lease_cases c db valid with ⟨_,call⟩ | ⟨expiry,_,⟨_,call⟩ | ⟨chosen,first,call⟩⟩
  · rw [call]
    exact ⟨found,by simp⟩
  · rw [call]
    exact ⟨swept,by simp⟩
  · have apart : chosen.deliveryId ≠ d := by
      intro own
      obtain ⟨present,leasable,_⟩ := nextEligible_some first
      have same := Table.get_key present
      rw [show Keyed.key chosen = d from own,swept] at same
      rw [← Option.some.inj same,held] at leasable
      simp [DeliveryState.leasable] at leasable
    obtain ⟨leased,result,same⟩ := lease_chosen first c.owner expiry.isoText
    rw [call]
    refine ⟨get_leaseTo_waiting _ _ found waiting apart,?_⟩
    intro other equal
    rw [result] at equal
    cases equal
    rwa [same]

theorem not_leasedLater_of_held (found : db.deliveries.get d = some row) (waiting : row.Waiting c)
    (held : row.state = .budgetHold) (valid : c.valid) : ¬ db.leasedLater c d := by
  have stays (n : Nat) : (db.afterLeases c n).deliveries.get d = some row := by
    induction n with
    | zero => exact found
    | succ n ih =>
      rw [afterLeases,Function.iterate_succ_apply']
      exact (lease_held ih waiting held valid).1
  rintro ⟨n,leased,result,same⟩
  exact (lease_held (stays n) waiting held valid).2 leased result same

theorem leasedLater_iff (valid : c.valid) (found : db.deliveries.get d = some row) (waiting : row.Waiting c) :
    db.leasedLater c d ↔ row.state ≠ .budgetHold ∧ (c.now.later c.leaseSeconds).isSome := by
  constructor
  · intro returned
    refine ⟨fun held => not_leasedLater_of_held found waiting held valid returned,?_⟩
    obtain ⟨n,leased,result,_⟩ := returned
    rcases @lease_cases c (db.afterLeases c n) valid with ⟨_,call⟩ | ⟨expiry,later,_⟩
    · rw [call] at result
      contradiction
    · rw [later]
      rfl
  · rintro ⟨free,representable⟩
    obtain ⟨expiry,later⟩ := Option.isSome_iff_exists.mp representable
    exact leasedLater_of_leasable valid later found waiting (waiting.parked.resolve_right free)

end Queue
end SjgControl

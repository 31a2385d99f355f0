import SjgControl.Budget
import SjgControl.Host.Standing

/-! No bucket is ever short of reserved tokens, so what a session has just reserved can be
released again. -/
namespace SjgControl
open Relational Machine

namespace Runtime
open Table

/-- Each of the buckets is there and holds that many reserved tokens. -/
def Covers (buckets : Table BudgetBucket) (keys : List BucketKey) (reserved : Int) : Prop :=
  ∀ key ∈ keys, ∃ b ∈ buckets.get key, reserved ≤ b.reservedTokens

def Solvent (db : Runtime) : Prop := ∀ key, ∀ b ∈ db.buckets.get key, 0 ≤ b.reservedTokens

section Tables
variable {buckets next : Table BudgetBucket} {keys : List BucketKey} {reserved : Int} {message : String}

theorem covers_cons {key : BucketKey} (fresh : key ∉ keys) :
    Covers buckets (key::keys) reserved ↔
      (∃ b ∈ buckets.get key, reserved ≤ b.reservedTokens) ∧ Covers (charge buckets key (-reserved) 0) keys reserved := by
  have apart {k : BucketKey} (member : k ∈ keys) : (charge buckets key (-reserved) 0).get k = buckets.get k := by
    have other : k ≠ key := fun same => fresh (same ▸ member)
    rw [get_charge]
    simp [other]
  unfold Covers
  rw [List.forall_mem_cons]
  refine and_congr_right (fun _ => ⟨?_,?_⟩)
  · intro covered k member
    rw [apart member]
    exact covered k member
  · intro covered k member
    rw [← apart member]
    exact covered k member

/-- The guards of a release pass exactly where the buckets hold the amount. -/
theorem discharges_iff (nodup : keys.Nodup) :
    (∃ next, keys.foldlM (discharge message reserved) buckets = .ok next) ↔ Covers buckets keys reserved := by
  induction keys generalizing buckets with
  | nil => exact iff_of_true ⟨buckets,rfl⟩ (by simp [Covers])
  | cons key rest ih =>
    obtain ⟨fresh,distinct⟩ := List.nodup_cons.mp nodup
    rw [covers_cons fresh,← ih distinct]
    constructor
    · rintro ⟨next,ok⟩
      obtain ⟨middle,first,later⟩ := bind_ok.mp ok
      simp only [discharge,require_bind_ok,pure_ok] at first
      obtain ⟨held,rfl⟩ := first
      exact ⟨held,next,later⟩
    · rintro ⟨held,next,later⟩
      have first : discharge message reserved buckets key = .ok (charge buckets key (-reserved) 0) := by
        exact require_bind_ok.mpr ⟨held,rfl⟩
      exact ⟨next,bind_ok.mpr ⟨_,first,later⟩⟩

end Tables

variable {db next : Runtime}

theorem releasable {x : String} (covered : ∀ r ∈ db.reservations.rows, r.sessionId = x → r.state = .active ∧
    ∃ row, db.sessions.get x = some row ∧ Covers db.buckets (bucketKeys row r.epoch) r.reservedTokens) :
    ∃ middle, db.releaseReservationFor x = .ok middle := by
  unfold releaseReservationFor
  split
  next => exact ⟨db,rfl⟩
  next r found =>
    obtain ⟨member,own⟩ := first_some found
    obtain ⟨active,row,session,covers⟩ := covered r member own
    obtain ⟨buckets,discharged⟩ := (discharges_iff (bucketKeys_nodup row r.epoch)).mpr covers
    exact ⟨_,require_bind_ok.mpr ⟨active,fetch_bind_ok.mpr ⟨row,session,bind_ok.mpr ⟨buckets,discharged,rfl⟩⟩⟩⟩

theorem Solvent.same (solvent : db.Solvent) (buckets : next.buckets = db.buckets) : next.Solvent := by
  unfold Solvent
  rw [buckets]
  exact solvent

theorem Solvent.reservedAt (solvent : db.Solvent) (key : BucketKey) : 0 ≤ reservedAt db.buckets key := by
  unfold Runtime.reservedAt
  cases there : db.buckets.get key with
  | none => exact le_rfl
  | some old => exact solvent key old there

end Runtime

namespace Store
open Table
variable {history : List Step} {db : Runtime} {r : BudgetReservation}

theorem Ledger.share_nonneg (ledger : Ledger history db) (key : Runtime.BucketKey) :
    ∀ r ∈ db.reservations.rows, 0 ≤ share history db key r := by
  intro r member
  unfold share
  split
  · exact (ledger.positive r member).le
  · exact le_rfl

theorem Ledger.covers (ledger : Ledger history db) (member : r ∈ db.reservations.rows) (active : r.state = .active)
    {row : WakeSession} (found : db.sessions.get r.sessionId = some row) :
    Runtime.Covers db.buckets (Runtime.bucketKeys row r.epoch) r.reservedTokens := by
  intro key inside
  have mine : share history db key r = r.reservedTokens := if_pos ⟨⟨row,found,inside⟩,.inl active⟩
  have total := le_sum member (ledger.share_nonneg key)
  rw [mine,← ledger.reserved key] at total
  have positive := ledger.positive r member
  unfold Runtime.reservedAt at total
  cases there : db.buckets.get key with
  | none =>
    rw [there,Option.map_none,Option.getD_none] at total
    omega
  | some b =>
    rw [there] at total
    exact ⟨b,rfl,total⟩

theorem Ledger.solvent (ledger : Ledger history db) : db.Solvent := by
  intro key b found
  have total := sum_nonneg (ledger.share_nonneg key)
  rw [← ledger.reserved key] at total
  unfold Runtime.reservedAt at total
  rwa [found] at total

/-- Some history of operations accounts for the ledger. -/
def Audited (db : Runtime) : Prop := ∃ history, Ledger history db

theorem step_audited {db : Store} (audited : Audited db.runtime) (op : Op) : Audited (db.step op).runtime := by
  obtain ⟨history,ledger⟩ := audited
  obtain ⟨effect,owners⟩ := db.step_ledger op
  exact ⟨history ++ [⟨db,op,db.step op⟩],@Ledger.next history ⟨db,op,db.step op⟩ ledger owners effect⟩

theorem Audited.same {next : Runtime} (audited : Audited db) (sessions : next.sessions = db.sessions)
    (buckets : next.buckets = db.buckets) (reservations : next.reservations = db.reservations) : Audited next := by
  obtain ⟨history,owned,positive,past,reserved,consumed,bounded,once,ended⟩ := audited
  have shares : share history next = share history db := by
    funext key r
    unfold share
    refine if_congr ?_ rfl rfl
    rw [Runtime.maps,Runtime.maps,sessions]
  refine ⟨history,?_,?_,?_,?_,?_,?_,once,?_⟩
  · rwa [reservations,sessions]
  · rwa [reservations]
  · rwa [reservations]
  · rwa [buckets,reservations,shares]
  · rwa [buckets]
  · rwa [buckets]
  · rwa [reservations]

end Store

theorem World.perform_audited {P : Type} {w : World} (audited : Store.Audited w.store.runtime) (a : Access P) :
    Store.Audited (w.perform a).1.store.runtime := by
  cases a with
  | create =>
    rw [perform_create]
    exact Store.step_audited audited _
  | call op => exact Store.step_audited audited op
  | setAttempt | quarantine => exact audited.same rfl rfl rfl
  | spawn =>
    simp only [perform]
    split <;> exact audited
  | report =>
    simp only [perform]
    split <;> exact audited
  | _ => exact audited

theorem Host.step_audited {cfg : Settings} {s : Host} (audited : Store.Audited s.world.store.runtime) (action : HostAction) :
    Store.Audited (s.step cfg action).world.store.runtime := by
  have effect := step_effect cfg s action
  generalize (s.step cfg action).world = after at effect ⊢
  cases effect with
  | accessed makes => exact World.perform_audited audited _
  | same => exact audited
  | exited => exact audited
  | crashed => exact audited

theorem Host.audited_initial : Store.Audited initial.world.store.runtime := ⟨[],Store.ledger_run []⟩

theorem Host.audited_run (cfg : Settings) (actions : List HostAction) :
    Store.Audited (run (Host.step cfg) Host.initial actions).world.store.runtime :=
  @invariant_run Host HostAction (Host.step cfg) (fun s => Store.Audited s.world.store.runtime)
    (fun _ action audited => step_audited audited action) Host.initial audited_initial actions

end SjgControl

import SjgControl.Host.Standing

/-! The tokens of a session's workers, from the launcher's record to the wake that takes them.
A ledger beside the host notes what has gone out of the record; with it, every charged process
is accounted for once, in its own session. -/
namespace SjgControl
open Relational Machine

/-- The tokens of the processes that the launcher has added to a session's record. -/
def chargedTo (providers : List Provider) (x : String) : Nat :=
  (providers.map (fun p => if p.charged ∧ p.sessionId = x then p.tokens else 0)).sum

def Singular (providers : List Provider) : Prop := providers.Pairwise (fun p q => ¬ q.is p.pid p.birthToken)

def Access.takes {P : Type} : Access P → Option String
  | .take x _ => some x
  | _ => none

def Access.reports {P : Type} : Access P → Option (Int × String × String × Nat)
  | .report pid birthToken x (some n) _ => some (pid,birthToken,x,n)
  | _ => none

/-- What tells a process, whatever its status. -/
def Provider.Like (p q : Provider) : Prop :=
  q.sessionId = p.sessionId ∧ q.pid = p.pid ∧ q.birthToken = p.birthToken ∧ q.tokens = p.tokens ∧ q.charged = p.charged

theorem Provider.Like.refl (p : Provider) : p.Like p := ⟨rfl,rfl,rfl,rfl,rfl⟩

section Providers
variable {providers : List Provider} {pid : Int} {birthToken : String}

theorem singular_unique (singular : Singular providers) {p q : Provider} (first : p ∈ providers) (second : q ∈ providers)
    (own : p.is pid birthToken) (also : q.is pid birthToken) : p = q := by
  induction providers with
  | nil => cases first
  | cons head rest ih =>
    obtain ⟨apart,later⟩ := List.pairwise_cons.mp singular
    rcases List.mem_cons.mp first with rfl | inside
    · rcases List.mem_cons.mp second with rfl | among
      · rfl
      · exact absurd ⟨also.1.trans own.1.symm,also.2.trans own.2.symm⟩ (apart q among)
    · rcases List.mem_cons.mp second with rfl | among
      · exact absurd ⟨own.1.trans also.1.symm,own.2.trans also.2.symm⟩ (apart p inside)
      · exact ih later inside among

theorem singular_map {f : Provider → Provider} (same : ∀ p, (f p).pid = p.pid ∧ (f p).birthToken = p.birthToken)
    (singular : Singular providers) : Singular (providers.map f) := by
  refine List.pairwise_map.mpr (singular.imp ?_)
  intro p q apart own
  refine apart ⟨?_,?_⟩
  · rw [← (same q).1,own.1,(same p).1]
  · rw [← (same q).2,own.2,(same p).2]

theorem chargedTo_charge (singular : Singular providers) {p : Provider} (member : p ∈ providers) (own : p.is pid birthToken)
    (owing : p.charged = false) (y : String) :
    chargedTo (providers.map (fun q => if q.is pid birthToken then {q with charged := true} else q)) y =
      chargedTo providers y + if p.sessionId = y then p.tokens else 0 := by
  induction providers with
  | nil => cases member
  | cons first rest ih =>
    obtain ⟨apart,later⟩ := List.pairwise_cons.mp singular
    rcases List.mem_cons.mp member with rfl | inside
    · have others : rest.map (fun q => if q.is pid birthToken then {q with charged := true} else q) = rest := by
        refine (List.map_congr_left (fun q among => if_neg ?_)).trans (List.map_id' rest)
        exact fun same => apart q among ⟨same.1.trans own.1.symm,same.2.trans own.2.symm⟩
      unfold chargedTo
      rw [List.map_cons,others,if_pos own,List.map_cons,List.map_cons,List.sum_cons,List.sum_cons]
      simp [owing,Nat.add_comm]
    · have other : ¬ first.is pid birthToken :=
        fun same => apart p inside ⟨own.1.trans same.1.symm,own.2.trans same.2.symm⟩
      have tail := ih later inside
      unfold chargedTo at tail ⊢
      rw [List.map_cons,if_neg other,List.map_cons,List.sum_cons,tail,List.map_cons,List.sum_cons,Nat.add_assoc]

theorem chargedTo_map {f : Provider → Provider} (like : ∀ p : Provider, p.Like (f p)) (y : String) :
    chargedTo (providers.map f) y = chargedTo providers y := by
  unfold chargedTo
  rw [List.map_map]
  refine congrArg List.sum (List.map_congr_left (fun p _ => ?_))
  obtain ⟨session,_,_,tokens,charged⟩ := like p
  simp only [Function.comp_apply,session,tokens,charged]

end Providers

namespace World
variable {P : Type} {w : World} {a : Access P}

theorem like_setStatus (pid : Int) (birthToken : String) (status : ProviderStatus) (p : Provider) :
    p.Like (if p.is pid birthToken ∧ p.status ≠ .gone then {p with status} else p) := by
  split
  next => exact ⟨rfl,rfl,rfl,rfl,rfl⟩
  next => exact .refl p

theorem perform_singular (singular : Singular w.providers) : Singular (w.perform a).1.providers := by
  cases a with
  | spawn p stay next =>
    simp only [perform]
    split
    next fresh =>
      refine List.pairwise_append.mpr ⟨singular,List.pairwise_singleton _ _,?_⟩
      intro q member other new same
      rw [List.mem_singleton.mp new] at same
      exact (fresh q member).1 ⟨same.1.symm,same.2.symm⟩
    next => exact singular
  | signal pid birthToken =>
    exact singular_map (fun p => ⟨(like_setStatus pid birthToken _ p).2.1,(like_setStatus pid birthToken _ p).2.2.1⟩) singular
  | report pid birthToken x tokens =>
    cases tokens with
    | none => exact singular
    | some n =>
      refine singular_map (fun p => ?_) singular
      split
      next => exact ⟨rfl,rfl⟩
      next => exact ⟨rfl,rfl⟩
  | _ => exact singular

/-- An access that charges nothing leaves every process as it is told, and adds none that is charged. -/
theorem perform_charged (silent : a.reports = none) (blank : ∀ p ∈ a.spawned, p.charged = false) (y : String) :
    chargedTo (w.perform a).1.providers y = chargedTo w.providers y := by
  cases a with
  | spawn p stay next =>
    simp only [perform]
    split
    next =>
      have owing : p.charged = false := blank p rfl
      simp [chargedTo,owing]
    next => rfl
  | signal pid birthToken => exact chargedTo_map (like_setStatus pid birthToken _) y
  | report pid birthToken x tokens =>
    cases tokens with
    | none => rfl
    | some n => cases silent
  | _ => rfl

theorem perform_usage (silent : a.reports = none) (y : String) :
    (w.perform a).1.usage y = if a.takes = some y then 0 else w.usage y := by
  cases a with
  | take x next =>
    simp only [perform,Access.takes,Option.some.injEq]
    split
    next same => rw [if_pos same.symm]
    next other => rw [if_neg (Ne.symm other)]
  | spawn p stay next =>
    simp only [perform]
    split <;> rfl
  | report pid birthToken x tokens =>
    cases tokens with
    | none => rfl
    | some n => cases silent
  | _ => rfl

theorem perform_like {p : Provider} (member : p ∈ w.providers)
    (spared : ∀ e ∈ a.reports, ¬ p.is e.1 e.2.1) : ∃ q ∈ (w.perform a).1.providers, p.Like q := by
  cases a with
  | spawn new stay next =>
    simp only [perform]
    split
    next => exact ⟨p,List.mem_append_left _ member,.refl p⟩
    next => exact ⟨p,member,.refl p⟩
  | signal pid birthToken => exact ⟨_,List.mem_map_of_mem member,like_setStatus pid birthToken _ p⟩
  | report pid birthToken x tokens =>
    cases tokens with
    | none => exact ⟨p,member,.refl p⟩
    | some n =>
      refine ⟨_,List.mem_map_of_mem member,?_⟩
      rw [if_neg (spared _ rfl)]
      exact .refl p
  | _ => exact ⟨p,member,.refl p⟩

end World

/-! What a thread does at the points where it charges or takes. -/

namespace WorkerPoint

/-- The process that a worker is still to report. -/
def unreported : WorkerPoint → Option Handle
  | .spawned _ h | .running _ h | .exited _ h _ | .reported _ h _ => some h
  | _ => none

def counted : WorkerPoint → Option Nat
  | .exited _ _ result | .reported _ _ result => result.tokens
  | _ => none

end WorkerPoint

namespace WorkerThread
variable {w : World} {cfg : Settings} {t : WorkerThread} {input : Input}

theorem reports_cases {e : Int × String × String × Nat} (reports : (t.access cfg input).reports = some e) :
    ∃ h n, t.point.unreported = some h ∧ t.point.counted = some n ∧ e = (h.pid,h.birthToken,t.session.sessionId,n) ∧
      (w.perform (t.access cfg input)).2.point.unreported = none := by
  obtain ⟨session,workerType,point⟩ := t
  cases point with
  | reported attempt h result =>
    simp only [access] at reports ⊢
    cases tokens : result.tokens with
    | none =>
      rw [tokens] at reports
      cases reports
    | some n =>
      rw [tokens] at reports
      refine ⟨h,n,rfl,tokens,(Option.some.inj reports).symm,?_⟩
      simp only [World.perform]
      split <;> rfl
  | doubting attempt => cases reports
  | _ =>
    simp only [access] at reports
    repeat' (first | cases reports | split at reports)

theorem takes : (t.access cfg input).takes = none := by
  obtain ⟨session,workerType,point⟩ := t
  cases point with
  | _ =>
    simp only [access]
    repeat' (first | rfl | split)

theorem next_known : (w.perform (t.access cfg input)).2.session = t.session := by
  obtain ⟨session,workerType,point⟩ := t
  cases point with
  | lapsed attempt h terminated =>
    simp only [access,World.perform]
    generalize finishProcess h _ _ input = op
    split <;> rfl
  | _ =>
    simp only [access]
    repeat' (first | rfl | split | simp only [World.perform,leave])

theorem next_unreported {h : Handle} (own : (w.perform (t.access cfg input)).2.point.unreported = some h) :
    t.point.unreported = some h ∨ ∃ p : Provider, (t.access cfg input).spawned = some p ∧ w.fresh p ∧
      p.is h.pid h.birthToken ∧ p.sessionId = t.session.sessionId ∧ p.charged = false := by
  obtain ⟨session,workerType,point⟩ := t
  cases point with
  | begun attempt =>
    simp only [access] at own ⊢
    split at own
    next fault _ => cases fault <;> cases own
    next none_ =>
      simp only [World.perform] at own
      split at own
      next fresh =>
        cases own
        exact .inr ⟨_,rfl,fresh,⟨rfl,rfl⟩,rfl,rfl⟩
      next => cases own
  | running attempt h' =>
    simp only [access] at own
    split at own
    next => cases own
    next fault _ _ => cases fault <;> cases own
    next =>
      simp only [World.perform] at own
      split at own
      next => exact .inl own
      next => exact .inl own
  | spawned attempt h' =>
    simp only [access] at own
    split at own
    next => cases own
    next =>
      simp only [World.perform] at own
      split at own
      next => exact .inl own
      next => cases own
  | exited attempt h' result =>
    simp only [access,World.perform] at own
    generalize finishProcess h' _ _ input = op at own
    split at own
    next => exact .inl own
    next => cases own
  | reported attempt h' result =>
    simp only [access] at own
    cases tokens : result.tokens <;> (simp only [tokens,World.perform] at own; split at own <;> cases own)
  | lapsed attempt h' terminated =>
    simp only [access,World.perform] at own
    generalize finishProcess h' _ _ input = op at own
    split at own <;> cases own
  | reaped attempt h' fault => cases fault <;> cases own
  | _ =>
    simp only [access] at own
    repeat' (first | cases own | split at own | simp only [World.perform] at own)

theorem next_counted {n : Nat} (own : (w.perform (t.access cfg input)).2.point.counted = some n) :
    t.point.counted = some n ∨ ∃ h, t.point.unreported = some h ∧ ∃ p ∈ w.providers, p.is h.pid h.birthToken ∧ p.tokens = n := by
  obtain ⟨session,workerType,point⟩ := t
  cases point with
  | running attempt h =>
    simp only [access] at own
    split at own
    next => cases own
    next fault _ _ => cases fault <;> cases own
    next =>
      simp only [World.perform] at own
      split at own
      next result collected =>
        obtain ⟨p,found,rfl⟩ := Option.map_eq_some_iff.mp collected
        have is := List.find?_some found
        rw [decide_eq_true_eq] at is
        refine .inr ⟨h,rfl,p,List.mem_of_find?_eq_some found,is.1,?_⟩
        have own : (if input.legible then some p.tokens else none) = some n := own
        split at own
        next => exact Option.some.inj own
        next => cases own
      next => cases own
  | exited attempt h result =>
    simp only [access,World.perform] at own
    generalize finishProcess h _ _ input = op at own
    split at own
    next => exact .inl own
    next => cases own
  | reported attempt h result =>
    simp only [access] at own
    cases tokens : result.tokens <;> (simp only [tokens,World.perform] at own; split at own <;> cases own)
  | lapsed attempt h terminated =>
    simp only [access,World.perform] at own
    generalize finishProcess h _ _ input = op at own
    split at own <;> cases own
  | begun attempt =>
    simp only [access] at own
    split at own
    next fault _ => cases fault <;> cases own
    next =>
      simp only [World.perform] at own
      split at own <;> cases own
  | reaped attempt h fault => cases fault <;> cases own
  | _ =>
    simp only [access] at own
    repeat' (first | cases own | split at own | simp only [World.perform] at own)

end WorkerThread

/-! A wake before and behind the point where it takes the usage of its workers. -/

namespace WakePoint

/-- The session of a wake that may still take it. -/
def untaken : WakePoint → Option Session
  | .sessioned session => some session
  | .budgeted g | .prepared g | .spawned g _ | .recorded g _ | .marked g _ | .running g _ | .exited g _ _
  | .collected g _ => some g.session
  | _ => none

def total : WakePoint → Option (Session × ProcessResult × Nat)
  | .totalled g result tokens | .settled g result tokens | .closed g result tokens | .delivered g result tokens =>
    some (g.session,result,tokens)
  | _ => none

theorem untaken_session {point : WakePoint} {x : Session} (own : point.untaken = some x) : point.session = some x := by
  cases point <;> first | exact own | cases own

theorem total_session {point : WakePoint} {e : Session × ProcessResult × Nat} (own : point.total = some e) :
    point.session = some e.1 := by
  cases point <;> first | (cases own; rfl) | cases own

end WakePoint

namespace WakeThread
variable {w : World} {cfg : Settings} {t : WakeThread} {input : Input}

theorem reports : (t.access cfg input).reports = none := by
  obtain ⟨role,delivery,reason,point⟩ := t
  cases point with
  | terminating g stage error =>
    cases stage with
    | killing rows complete => cases rows <;> rfl
    | _ => rfl
  | _ =>
    simp only [access]
    repeat' (first | rfl | split)

/-- A wake takes the usage of its own session, once, and goes on with the sum or gives up. -/
theorem takes_cases {x : String} (takes : (t.access cfg input).takes = some x) :
    ∃ session, t.point.untaken = some session ∧ session.sessionId = x ∧
      (w.perform (t.access cfg input)).2.point.untaken = none ∧
      ∀ e, (w.perform (t.access cfg input)).2.point.total = some e →
        e.1 = session ∧ ∃ own, e.2.1.tokens = some own ∧ e.2.2 = own + w.usage x := by
  obtain ⟨role,delivery,reason,point⟩ := t
  cases point with
  | collected g result =>
    simp only [access] at takes ⊢
    split at takes
    next => cases takes
    next =>
      cases Option.some.inj takes
      refine ⟨g.session,rfl,rfl,?_,?_⟩
      · simp only [World.perform]
        split <;> rfl
      · intro e total
        simp only [World.perform] at total
        split at total
        next own others result_ taken =>
          cases Option.some.inj total
          refine ⟨rfl,own,result_,?_⟩
          split at taken
          next => cases taken
          next => exact congrArg (own + ·) (Option.some.inj taken).symm
        next => cases total
  | terminating g stage error =>
    cases stage with
    | killing rows complete => cases rows <;> cases takes
    | _ => cases takes
  | _ =>
    simp only [access] at takes
    repeat' (first | cases takes | split at takes)

theorem next_untaken {x : Session} (created : t.point ≠ .unpaused)
    (own : (w.perform (t.access cfg input)).2.point.untaken = some x) : t.point.untaken = some x := by
  obtain ⟨role,delivery,reason,point⟩ := t
  cases point with
  | unpaused => exact absurd rfl created
  | terminating g stage error =>
    simp only [access] at own
    rcases Terminate.goes with ⟨stage',same⟩ | ⟨complete,same⟩ <;> (rw [same] at own; cases own)
  | lapsed g h terminated =>
    simp only [access,World.perform] at own
    generalize finishProcess h _ _ input = op at own
    split at own <;> cases own
  | exited g h result =>
    simp only [access,World.perform,proceed] at own
    generalize finishProcess h _ _ input = op at own
    split at own
    next => exact own
    next => cases own
  | settled g result tokens =>
    simp only [access,World.perform,proceed] at own
    generalize ite (result.returncode ≠ 0) _ _ = op at own
    split at own <;> cases own
  | closed g result tokens =>
    cases delivery with
    | none => cases own
    | some delivery =>
      simp only [access,World.perform,proceed] at own
      generalize ite (result.returncode ≠ 0) _ _ = op at own
      split at own <;> cases own
  | _ =>
    simp only [access] at own
    repeat' (first | exact own | cases own | split at own | simp only [World.perform,proceed] at own)

theorem next_total {e : Session × ProcessResult × Nat} (other : (t.access cfg input).takes = none)
    (own : (w.perform (t.access cfg input)).2.point.total = some e) : t.point.total = some e := by
  obtain ⟨role,delivery,reason,point⟩ := t
  cases point with
  | terminating g stage error =>
    simp only [access] at own
    rcases Terminate.goes with ⟨stage',same⟩ | ⟨complete,same⟩ <;> (rw [same] at own; cases own)
  | lapsed g h terminated =>
    simp only [access,World.perform] at own
    generalize finishProcess h _ _ input = op at own
    split at own <;> cases own
  | settled g result tokens =>
    simp only [access,World.perform,proceed] at own
    generalize ite (result.returncode ≠ 0) _ _ = op at own
    split at own
    next => exact own
    next => cases own
  | closed g result tokens =>
    cases delivery with
    | none => exact own
    | some delivery =>
      simp only [access,World.perform,proceed] at own
      generalize ite (result.returncode ≠ 0) _ _ = op at own
      split at own
      next => exact own
      next => cases own
  | collected g result =>
    simp only [access] at own other
    split at own
    next => cases own
    next none_ =>
      rw [none_] at other
      cases other
  | _ =>
    simp only [access] at own
    repeat' (first | exact own | cases own | split at own | simp only [World.perform,proceed] at own)

end WakeThread

section Silence
variable {P : Type} {input : Input}

theorem Sweep.silent {sweep : Sweep} {x reason : String} {more : Sweep → P} {done : Except StoreError Bool → P} :
    (sweep.access x reason input more done).takes = none ∧ (sweep.access x reason input more done).reports = none := by
  cases sweep with
  | terminating stage =>
    cases stage with
    | killing rows complete => cases rows <;> exact ⟨rfl,rfl⟩
    | _ => exact ⟨rfl,rfl⟩
  | forcing wake =>
    simp only [access]
    split <;> exact ⟨rfl,rfl⟩
  | _ => exact ⟨rfl,rfl⟩

theorem PausePoint.silent {point : PausePoint} :
    (point.access input).takes = none ∧ (point.access input).reports = none := by
  cases point with
  | sweeping session sweep rest terminated uncertain =>
    simp only [access]
    exact Sweep.silent
  | _ => exact ⟨rfl,rfl⟩

theorem RecoverPoint.silent {point : RecoverPoint} :
    (point.access input).takes = none ∧ (point.access input).reports = none := by
  cases point with
  | orphans sessions listed recovered => cases sessions <;> exact ⟨rfl,rfl⟩
  | wakes listed recovered uncertain => cases listed <;> exact ⟨rfl,rfl⟩
  | sweeping wake sweep rest recovered uncertain =>
    simp only [access]
    exact Sweep.silent
  | _ => exact ⟨rfl,rfl⟩

end Silence

namespace World
variable {P : Type} {w : World} {a : Access P}

/-- An access charges a process as it adds its tokens, and empties what it takes. -/
theorem perform_balance (singular : Singular w.providers)
    (owed : ∀ e ∈ a.reports, ∃ p ∈ w.providers, p.is e.1 e.2.1 ∧ p.sessionId = e.2.2.1 ∧ p.charged = false ∧ p.tokens = e.2.2.2)
    (blank : ∀ p ∈ a.spawned, p.charged = false) (y : String) :
    chargedTo (w.perform a).1.providers y + w.usage y =
      chargedTo w.providers y + (w.perform a).1.usage y + if a.takes = some y then w.usage y else 0 := by
  by_cases silent : a.reports = none
  · rw [perform_charged silent blank,perform_usage silent]
    split <;> omega
  · cases a with
    | report pid birthToken x tokens next =>
      cases tokens with
      | none => exact absurd rfl silent
      | some n =>
        obtain ⟨p,member,own,session,owing,tokens⟩ := owed _ rfl
        change p.tokens = n at tokens
        simp only [perform,Access.takes,reduceCtorEq,if_false]
        rw [chargedTo_charge singular member own owing,session,tokens]
        by_cases here : x = y
        · rw [if_pos here,if_pos here.symm]
          omega
        · rw [if_neg here,if_neg (Ne.symm here)]
          omega
    | _ => exact absurd rfl silent

theorem perform_used {y : String} (used : (w.perform a).1.usage y ≠ 0) :
    w.usage y ≠ 0 ∨ ∃ e ∈ a.reports, e.2.2.1 = y := by
  by_cases silent : a.reports = none
  · rw [perform_usage silent] at used
    split at used
    next => exact absurd rfl used
    next => exact .inl used
  · cases a with
    | report pid birthToken x tokens next =>
      cases tokens with
      | none => exact absurd rfl silent
      | some n =>
        simp only [perform] at used
        split at used
        next here => exact .inr ⟨_,rfl,here.symm⟩
        next => exact .inl used
    | _ => exact absurd rfl silent

theorem perform_spawned {p : Provider} (spawns : a.spawned = some p) (fresh : w.fresh p) :
    p ∈ (w.perform a).1.providers := by
  cases a with
  | spawn new stay next =>
    cases spawns
    simp only [perform,if_pos fresh]
    exact List.mem_append_right _ (List.mem_singleton_self p)
  | _ => cases spawns

end World

/-! The host with what has gone out of the record: into a wake, or away with a crash. -/

structure Outgoings where
  taken : String → Nat
  lost : String → Nat

def Outgoings.none_ : Outgoings := ⟨fun _ => 0,fun _ => 0⟩

namespace Host

def takes (cfg : Settings) (s : Host) : HostAction → Option String
  | .wakeStep i input => s.wakes[i]?.bind (fun t => (t.access cfg input).takes)
  | _ => none

def reports (cfg : Settings) (s : Host) : HostAction → Option (Int × String × String × Nat)
  | .workerStep i input => s.workers[i]?.bind (fun t => (t.access cfg input).reports)
  | _ => none

def loses (s : Host) : HostAction → String → Nat
  | .crash => s.world.usage
  | _ => fun _ => 0

def note (cfg : Settings) (s : Host) (o : Outgoings) (action : HostAction) : Outgoings where
  taken x := o.taken x + if s.takes cfg action = some x then s.world.usage x else 0
  lost x := o.lost x + s.loses action x

def noted (cfg : Settings) (now : Host × Outgoings) (action : HostAction) : Host × Outgoings :=
  (now.1.step cfg action,now.1.note cfg now.2 action)

section Step
variable {cfg : Settings} {s : Host} {action : HostAction}

theorem Makes.told {P : Type} {a : Access P} (makes : Makes cfg s action a) :
    a.takes = s.takes cfg action ∧ a.reports = s.reports cfg action ∧ s.loses action = fun _ => 0 := by
  cases makes with
  | wake input found =>
    refine ⟨?_,WakeThread.reports,rfl⟩
    simp only [takes,found,Option.bind_some]
  | worker input found =>
    refine ⟨WorkerThread.takes,?_,rfl⟩
    simp only [reports,found,Option.bind_some]
  | pause input => exact ⟨PausePoint.silent.1,PausePoint.silent.2,rfl⟩
  | recovery input => exact ⟨RecoverPoint.silent.1,RecoverPoint.silent.2,rfl⟩
  | _ => exact ⟨rfl,rfl,rfl⟩

theorem spawned_owing {p : Provider} (spawns : s.spawned cfg action = some p) : p.charged = false := by
  rcases spawned_cases spawns with ⟨_,_,_,_,_,_,_,_,rfl⟩ | ⟨_,_,_,_,_,_,_,_,rfl⟩ <;> rfl

theorem Makes.spawns {P : Type} {a : Access P} (makes : Makes cfg s action a) : a.spawned = s.spawned cfg action := by
  cases makes with
  | wake input found => simp only [spawned,found,Option.bind_some]
  | worker input found => simp only [spawned,found,Option.bind_some]
  | pause input =>
    generalize s.pause = point
    cases point with
    | sweeping =>
      simp only [PausePoint.access]
      exact Sweep.spawned
    | _ => rfl
  | recovery input =>
    generalize s.recovery = point
    cases point with
    | orphans sessions => cases sessions <;> rfl
    | wakes listed => cases listed <;> rfl
    | sweeping =>
      simp only [RecoverPoint.access]
      exact Sweep.spawned
    | _ => rfl
  | _ => rfl

/-- What a worker reports is the count of a process that is still to be charged. -/
def Owed (providers : List Provider) (e : Int × String × String × Nat) : Prop :=
  ∃ p ∈ providers, p.is e.1 e.2.1 ∧ p.sessionId = e.2.2.1 ∧ p.charged = false ∧ p.tokens = e.2.2.2

theorem step_told :
    (∃ (P : Type) (a : Access P), Makes cfg s action a ∧ (s.step cfg action).world = (s.world.perform a).1) ∨
      action = .crash ∨
      s.takes cfg action = none ∧ s.reports cfg action = none ∧ s.loses action = (fun _ => 0) ∧
        (s.step cfg action).world.usage = s.world.usage ∧
        ∃ f : Provider → Provider, (∀ p : Provider, p.Like (f p)) ∧ (s.step cfg action).world.providers = s.world.providers.map f := by
  have still (world : World) (same : world = s.world) : ∃ f : Provider → Provider, (∀ p : Provider, p.Like (f p)) ∧
      world.providers = s.world.providers.map f := ⟨id,.refl,by rw [same,List.map_id]⟩
  cases action with
  | store op =>
    simp only [step]
    split
    next outside => exact .inl ⟨_,_,.store outside,rfl⟩
    next => exact .inr (.inr ⟨rfl,rfl,rfl,rfl,still _ rfl⟩)
  | exit pid birthToken => exact .inr (.inr ⟨rfl,rfl,rfl,rfl,_,World.like_setStatus pid birthToken .gone,rfl⟩)
  | wakeStep i input =>
    simp only [step,takes,reports]
    split
    next t found => exact .inl ⟨_,_,.wake input found,rfl⟩
    next none_ => exact .inr (.inr ⟨by rw [none_]; rfl,trivial,rfl,rfl,still _ rfl⟩)
  | workerStep i input =>
    simp only [step,takes,reports]
    split
    next t found => exact .inl ⟨_,_,.worker input found,rfl⟩
    next none_ => exact .inr (.inr ⟨trivial,by rw [none_]; rfl,rfl,rfl,still _ rfl⟩)
  | pauseStep input => exact .inl ⟨_,_,.pause input,rfl⟩
  | recoverStep input => exact .inl ⟨_,_,.recovery input,rfl⟩
  | resume now =>
    simp only [step]
    split
    next => exact .inl ⟨_,_,.resume now,rfl⟩
    next => exact .inr (.inr ⟨rfl,rfl,rfl,rfl,still _ rfl⟩)
  | crash => exact .inr (.inl rfl)
  | _ =>
    simp only [step]
    split <;> exact .inr (.inr ⟨rfl,rfl,rfl,rfl,still _ rfl⟩)

theorem step_singular (singular : Singular s.world.providers) : Singular (s.step cfg action).world.providers := by
  rcases @step_told cfg s action with ⟨P,a,makes,world⟩ | rfl | ⟨_,_,_,_,f,like,providers⟩
  · exact world ▸ World.perform_singular singular
  · exact singular
  · exact providers ▸ singular_map (fun p => ⟨(like p).2.1,(like p).2.2.1⟩) singular

theorem step_balance (singular : Singular s.world.providers) (owed : ∀ e ∈ s.reports cfg action, Owed s.world.providers e)
    (y : String) :
    chargedTo (s.step cfg action).world.providers y + s.world.usage y =
      chargedTo s.world.providers y + (s.step cfg action).world.usage y +
        ((if s.takes cfg action = some y then s.world.usage y else 0) + s.loses action y) := by
  rcases @step_told cfg s action with ⟨P,a,makes,world⟩ | rfl | ⟨takes,_,loses,usage,f,like,providers⟩
  · obtain ⟨takes,reports,loses⟩ := makes.told
    have balance := World.perform_balance singular (reports ▸ owed) (makes.spawns ▸ fun p own => spawned_owing own) y
    rw [takes] at balance
    rw [world,loses]
    exact balance
  · simp only [step,takes,loses,reduceCtorEq,if_false]
    omega
  · rw [takes,loses,usage,providers,chargedTo_map like]
    simp

theorem step_used {y : String} (used : (s.step cfg action).world.usage y ≠ 0) :
    s.world.usage y ≠ 0 ∨ ∃ e ∈ s.reports cfg action, e.2.2.1 = y := by
  rcases @step_told cfg s action with ⟨P,a,makes,world⟩ | rfl | ⟨_,_,_,usage,_⟩
  · rw [world] at used
    rw [← makes.told.2.1]
    exact World.perform_used used
  · exact absurd rfl used
  · exact .inl (usage ▸ used)

theorem step_like {p : Provider} (member : p ∈ s.world.providers)
    (spared : ∀ e ∈ s.reports cfg action, ¬ p.is e.1 e.2.1) : ∃ q ∈ (s.step cfg action).world.providers, p.Like q := by
  rcases @step_told cfg s action with ⟨P,a,makes,world⟩ | rfl | ⟨_,_,_,_,f,like,providers⟩
  · rw [world]
    exact World.perform_like member (makes.told.2.1 ▸ spared)
  · exact ⟨p,member,.refl p⟩
  · rw [providers]
    exact ⟨f p,List.mem_map_of_mem member,like p⟩

/-! The threads after a step. -/

theorem step_worker {j : Nat} {t : WorkerThread} (found : (s.step cfg action).workers[j]? = some t) :
    (s.workers[j]? = some t ∧ ∀ input, action ≠ .workerStep j input) ∨
      (∃ u input, action = .workerStep j input ∧ s.workers[j]? = some u ∧ t = (s.world.perform (u.access cfg input)).2) ∨
      t.point = .requested := by
  cases step_threads cfg s action with
  | same _ workers _ noWorker =>
    rw [workers] at found
    refine .inl ⟨found,fun input is => ?_⟩
    rw [noWorker j input is] at found
    cases found
  | worker is there _ workers =>
    rw [workers] at found
    rcases set_cases found with ⟨rfl,equal⟩ | ⟨apart,found⟩
    · exact .inr (.inl ⟨_,_,is,there,equal⟩)
    · exact .inl ⟨found,fun _ same => apart (HostAction.workerStep.inj (is.symm.trans same)).1⟩
  | requested is _ requested _ workers =>
    rw [workers] at found
    rcases concat_cases found with found | rfl
    · exact .inl ⟨found,fun _ same => by cases is.symm.trans same⟩
    · exact .inr (.inr requested)
  | wake is _ _ workers => exact .inl ⟨workers ▸ found,fun _ same => by cases is.symm.trans same⟩
  | woken is _ _ _ workers => exact .inl ⟨workers ▸ found,fun _ same => by cases is.symm.trans same⟩
  | crashed _ _ workers =>
    rw [workers] at found
    cases found

theorem step_wake {j : Nat} {t : WakeThread} (found : (s.step cfg action).wakes[j]? = some t) :
    (s.wakes[j]? = some t ∧ ∀ input, action ≠ .wakeStep j input) ∨
      (∃ u input, action = .wakeStep j input ∧ s.wakes[j]? = some u ∧ t = (s.world.perform (u.access cfg input)).2) ∨
      t.point = .entered := by
  cases step_threads cfg s action with
  | same wakes _ noWake =>
    rw [wakes] at found
    refine .inl ⟨found,fun input is => ?_⟩
    rw [noWake j input is] at found
    cases found
  | wake is there wakes =>
    rw [wakes] at found
    rcases set_cases found with ⟨rfl,equal⟩ | ⟨apart,found⟩
    · exact .inr (.inl ⟨_,_,is,there,equal⟩)
    · exact .inl ⟨found,fun _ same => apart (HostAction.wakeStep.inj (is.symm.trans same)).1⟩
  | woken is _ entered wakes =>
    rw [wakes] at found
    rcases concat_cases found with found | rfl
    · exact .inl ⟨found,fun _ same => by cases is.symm.trans same⟩
    · exact .inr (.inr entered)
  | worker is _ wakes => exact .inl ⟨wakes ▸ found,fun _ same => by cases is.symm.trans same⟩
  | requested is _ _ wakes => exact .inl ⟨wakes ▸ found,fun _ same => by cases is.symm.trans same⟩
  | crashed _ wakes =>
    rw [wakes] at found
    cases found

end Step

/-- Every process that a worker is to report is there, not charged, and is no other worker's. -/
structure Owing (s : Host) : Prop where
  owed : ∀ t ∈ s.workers, ∀ h ∈ t.point.unreported, ∃ p ∈ s.world.providers, p.is h.pid h.birthToken ∧
    p.sessionId = t.session.sessionId ∧ p.charged = false ∧ ∀ n ∈ t.point.counted, p.tokens = n
  apart : ∀ (i j : Nat) (t u : WorkerThread), s.workers[i]? = some t → s.workers[j]? = some u → i ≠ j →
    ∀ h ∈ t.point.unreported, ∀ k ∈ u.point.unreported, ¬ (h.pid = k.pid ∧ h.birthToken = k.birthToken)

section Owing
variable {cfg : Settings} {s : Host} {action : HostAction}

theorem Owing.reported (owing : s.Owing) : ∀ e ∈ s.reports cfg action, Owed s.world.providers e := by
  intro e own
  cases action with
  | workerStep i input =>
    obtain ⟨t,found,own⟩ := Option.bind_eq_some_iff.mp own
    obtain ⟨h,n,unreported,counted,rfl,_⟩ := WorkerThread.reports_cases (w := s.world) own
    obtain ⟨p,member,is,session,charged,tokens⟩ := owing.owed t (List.mem_of_getElem? found) h unreported
    exact ⟨p,member,is,session,charged,tokens n counted⟩
  | _ => cases own

/-- A process that a worker is to report is not charged by any other step. -/
theorem Owing.spared (owing : s.Owing) {j : Nat} {t : WorkerThread} (found : s.workers[j]? = some t)
    (other : ∀ input, action ≠ .workerStep j input) {h : Handle} (own : t.point.unreported = some h) {p : Provider}
    (is : p.is h.pid h.birthToken) : ∀ e ∈ s.reports cfg action, ¬ p.is e.1 e.2.1 := by
  intro e reports same
  cases action with
  | workerStep i input =>
    obtain ⟨u,there,reports⟩ := Option.bind_eq_some_iff.mp reports
    obtain ⟨k,n,unreported,_,rfl,_⟩ := WorkerThread.reports_cases (w := s.world) reports
    have apart : j ≠ i := fun equal => other input (equal ▸ rfl)
    exact owing.apart j i t u found there apart h own k unreported ⟨is.1.symm.trans same.1,is.2.symm.trans same.2⟩
  | _ => cases reports

theorem step_unreported (owing : s.Owing) {j : Nat} {t : WorkerThread} (found : (s.step cfg action).workers[j]? = some t)
    {h : Handle} (own : t.point.unreported = some h) :
    (∃ u, s.workers[j]? = some u ∧ u.point.unreported = some h ∧ t.session = u.session ∧
        (∀ p : Provider, p.is h.pid h.birthToken → ∀ e ∈ s.reports cfg action, ¬ p.is e.1 e.2.1) ∧
        ∀ n ∈ t.point.counted, n ∈ u.point.counted ∨ ∃ p ∈ s.world.providers, p.is h.pid h.birthToken ∧ p.tokens = n) ∨
      ∃ input p, action = .workerStep j input ∧ s.world.fresh p ∧ p.is h.pid h.birthToken ∧
        p ∈ (s.step cfg action).world.providers ∧ p.sessionId = t.session.sessionId ∧ p.charged = false ∧
        t.point.counted = none := by
  rcases step_worker found with ⟨there,other⟩ | ⟨u,input,rfl,there,rfl⟩ | new
  · exact .inl ⟨t,there,own,rfl,fun p is => owing.spared there other own is,fun n counted => .inl counted⟩
  · have session := @WorkerThread.next_known s.world cfg u input
    have world : (s.step cfg (.workerStep j input)).world = (s.world.perform (u.access cfg input)).1 := by
      simp only [step,there]
    rcases WorkerThread.next_unreported own with before | ⟨p,spawns,fresh,is,sessionId,charged⟩
    · refine .inl ⟨u,there,before,session,?_,?_⟩
      · intro p is e reports
        simp only [Host.reports,there,Option.bind_some] at reports
        obtain ⟨_,_,_,_,_,past⟩ := WorkerThread.reports_cases (w := s.world) reports
        rw [past] at own
        cases own
      · intro n counted
        rcases WorkerThread.next_counted counted with before' | ⟨k,held,p,member,is,tokens⟩
        · exact .inl before'
        · cases held.symm.trans before
          exact .inr ⟨p,member,is,tokens⟩
    · refine .inr ⟨input,p,rfl,fresh,is,?_,sessionId.trans (congrArg _ session.symm),charged,?_⟩
      · rw [world]
        exact World.perform_spawned spawns fresh
      · obtain ⟨attempt,point,_⟩ := WorkerThread.spawned_cases spawns
        refine Option.eq_none_iff_forall_ne_some.mpr (fun n counted => ?_)
        rcases WorkerThread.next_counted counted with before | ⟨k,held,_⟩
        · rw [point] at before
          cases before
        · rw [point] at held
          cases held
  · rw [new] at own
    cases own

theorem Owing.step (singular : Singular s.world.providers) (owing : s.Owing) : (s.step cfg action).Owing where
  owed t member h own := by
    obtain ⟨j,bound,rfl⟩ := List.mem_iff_getElem.mp member
    rcases step_unreported owing (List.getElem?_eq_some_iff.mpr ⟨bound,rfl⟩) own with
      ⟨u,there,before,session,spared,counts⟩ | ⟨input,p,rfl,_,is,member,session,charged,counted⟩
    · obtain ⟨p,present,is,sessionId,charged,tokens⟩ := owing.owed u (List.mem_of_getElem? there) h before
      obtain ⟨q,after,like⟩ := step_like present (spared p is)
      refine ⟨q,after,⟨like.2.1.trans is.1,like.2.2.1.trans is.2⟩,like.1.trans (sessionId.trans (congrArg _ session.symm)),
        like.2.2.2.2.trans charged,?_⟩
      intro n counted
      rw [like.2.2.2.1]
      rcases counts n counted with before' | ⟨p',present',is',tokens'⟩
      · exact tokens n before'
      · rw [singular_unique singular present present' is is']
        exact tokens'
    · refine ⟨p,member,is,session,charged,fun n own' => ?_⟩
      rw [counted] at own'
      cases own'
  apart i j t u first second other h own k also := by
    rintro ⟨pid,birthToken⟩
    rcases step_unreported owing first own with ⟨t',there,before,_⟩ | ⟨input,p,rfl,fresh,is,_⟩
    · rcases step_unreported owing second also with ⟨u',there',before',_⟩ | ⟨input,p,rfl,fresh,is,_⟩
      · exact owing.apart i j t' u' there there' other h before k before' ⟨pid,birthToken⟩
      · obtain ⟨q,present,held,_⟩ := owing.owed t' (List.mem_of_getElem? there) h before
        exact (fresh q present).1 ⟨held.1.trans (pid.trans is.1.symm),held.2.trans (birthToken.trans is.2.symm)⟩
    · rcases step_unreported owing second also with ⟨u',there',before',_⟩ | ⟨input',p',same,_⟩
      · obtain ⟨q,present,held,_⟩ := owing.owed u' (List.mem_of_getElem? there') k before'
        exact (fresh q present).1 ⟨held.1.trans (pid.symm.trans is.1.symm),held.2.trans (birthToken.symm.trans is.2.symm)⟩
      · exact other (HostAction.workerStep.inj same).1

end Owing

def entered (s : Host) (x : String) : Prop := ∃ r ∈ s.world.store.runtime.sessions.rows, r.sessionId = x

/-- The record and the outgoings together hold every charged token, under sessions that exist;
a wake that is to take has taken nothing, and what it settles is its own and all that was taken. -/
structure Audited (s : Host) (o : Outgoings) : Prop where
  singular : Singular s.world.providers
  owing : s.Owing
  balance : ∀ x, chargedTo s.world.providers x = s.world.usage x + o.taken x + o.lost x
  known : ∀ x, s.world.usage x + o.taken x + o.lost x ≠ 0 → s.entered x
  untaken : ∀ t ∈ s.wakes, ∀ a ∈ t.point.untaken, o.taken a.sessionId = 0 ∧ o.lost a.sessionId = 0
  total : ∀ t ∈ s.wakes, ∀ e ∈ t.point.total, o.lost e.1.sessionId = 0 ∧
    ∃ own, e.2.1.tokens = some own ∧ e.2.2 = own + o.taken e.1.sessionId

section Audit
variable {cfg : Settings} {s : Host} {o : Outgoings} {action : HostAction}
open SjgControl.Runtime Table

theorem entered_step (regular : s.Regular) {x : String} (entered : s.entered x) : (s.step cfg action).entered x := by
  obtain ⟨r,member,name⟩ := entered
  obtain ⟨y,shift⟩ := regular.step_shift cfg action
  obtain ⟨after,present,moves⟩ := shift.keptSessions r member
  exact ⟨after,present,moves.1.trans name⟩

theorem reports_entered (regular : s.Regular) {e : Int × String × String × Nat} (own : s.reports cfg action = some e) :
    s.entered e.2.2.1 := by
  cases action with
  | workerStep i input =>
    obtain ⟨t,found,own⟩ := Option.bind_eq_some_iff.mp own
    obtain ⟨_,_,_,_,rfl,_⟩ := WorkerThread.reports_cases (w := s.world) own
    obtain ⟨wake,member,session⟩ := (regular.employed t (List.mem_of_getElem? found)).wake
    obtain ⟨r,present,name,_⟩ := (regular.orderly _).named wake member session
    exact ⟨r,present,name⟩
  | _ => cases own

theorem takes_owner {x : String} (own : s.takes cfg action = some x) :
    ∃ i t input, action = .wakeStep i input ∧ s.wakes[i]? = some t ∧ (t.access cfg input).takes = some x ∧
      ∃ a, t.point.untaken = some a ∧ a.sessionId = x := by
  cases action with
  | wakeStep i input =>
    obtain ⟨t,found,own⟩ := Option.bind_eq_some_iff.mp own
    obtain ⟨a,untaken,same,_⟩ := WakeThread.takes_cases (w := s.world) own
    exact ⟨i,t,input,rfl,found,own,a,untaken,same⟩
  | _ => cases own

theorem note_other (regular : s.Regular) {j : Nat} {t : WakeThread} (found : s.wakes[j]? = some t)
    (still : ∀ input, action ≠ .wakeStep j input) {a : Session} (own : t.point.session = some a) :
    (s.note cfg o action).taken a.sessionId = o.taken a.sessionId ∧
      (action ≠ .crash → (s.note cfg o action).lost a.sessionId = o.lost a.sessionId) := by
  constructor
  · have other : s.takes cfg action ≠ some a.sessionId := by
      intro takes
      obtain ⟨i,u,input,rfl,there,_,b,untaken,same⟩ := takes_owner takes
      have apart : i ≠ j := fun equal => still input (equal ▸ rfl)
      exact regular.distinct i j u t there found apart b (WakePoint.untaken_session untaken) a own same
    simp only [note,if_neg other,Nat.add_zero]
  · intro alive
    cases action with
    | crash => exact absurd rfl alive
    | _ => rfl

theorem step_alive {j : Nat} {t : WakeThread} (found : (s.step cfg action).wakes[j]? = some t) : action ≠ .crash := by
  rintro rfl
  cases found

theorem Audited.created (audited : s.Audited o) {t : WakeThread} {input : Input}
    (point : t.point = .unpaused) {a : Session} (own : (s.world.perform (t.access cfg input)).2.point.untaken = some a) :
    o.taken a.sessionId = 0 ∧ o.lost a.sessionId = 0 := by
  rcases @WakeThread.create_cases s.world cfg t input point with ⟨error,next,_⟩ |
    ⟨row,next,_,_,_,_,_,_,sessions,inserted,_⟩
  · rw [next] at own
    cases own
  · rw [next] at own
    cases own
    have absent : ¬ s.entered row.sessionId := by
      rintro ⟨r,member,name⟩
      exact get_eq_none.mp (insert_fresh inserted) r member name
    have nothing : s.world.usage row.sessionId + o.taken row.sessionId + o.lost row.sessionId = 0 :=
      Classical.byContradiction (fun some_ => absent (audited.known _ some_))
    change o.taken row.sessionId = 0 ∧ o.lost row.sessionId = 0
    omega

theorem Audited.step (regular : s.Regular) (audited : s.Audited o) :
    (s.step cfg action).Audited (s.note cfg o action) := by
  have balance (x : String) := @step_balance cfg s action audited.singular audited.owing.reported x
  refine ⟨step_singular audited.singular,audited.owing.step audited.singular,?_,?_,?_,?_⟩
  · intro x
    have moved := balance x
    have before := audited.balance x
    simp only [note]
    omega
  · intro x some_
    have before := audited.known x
    by_cases none_ : s.world.usage x + o.taken x + o.lost x = 0
    · have used : (s.step cfg action).world.usage x ≠ 0 := by
        intro still
        have loses : s.loses action x ≤ s.world.usage x := by
          cases action <;> first | exact Nat.zero_le _ | exact Nat.le_refl _
        have takes : (if s.takes cfg action = some x then s.world.usage x else 0) ≤ s.world.usage x := by
          split <;> omega
        simp only [note] at some_
        omega
      rcases step_used used with past | ⟨e,own,rfl⟩
      · omega
      · exact entered_step regular (reports_entered regular own)
    · exact entered_step regular (before none_)
  · intro t member a own
    obtain ⟨j,bound,rfl⟩ := List.mem_iff_getElem.mp member
    have found := List.getElem?_eq_some_iff.mpr ⟨bound,rfl⟩
    have alive := step_alive found
    rcases step_wake found with ⟨there,still⟩ | ⟨u,input,rfl,there,same⟩ | new
    · obtain ⟨taken,lost⟩ := note_other (o := o) regular there still (WakePoint.untaken_session own)
      rw [taken,lost alive]
      exact audited.untaken _ (List.mem_of_getElem? there) a own
    · rw [same] at own
      by_cases created : u.point = .unpaused
      · obtain ⟨taken,lost⟩ := audited.created created own
        have none_ : (u.access cfg input).takes = none := by
          unfold WakeThread.access
          rw [created]
          rfl
        simp only [note,Host.takes,there,Option.bind_some,none_,reduceCtorEq,if_false,loses,Nat.add_zero]
        exact ⟨taken,lost⟩
      · have before := WakeThread.next_untaken created own
        have none_ : s.takes cfg (.wakeStep j input) ≠ some a.sessionId := by
          intro takes
          simp only [Host.takes,there,Option.bind_some] at takes
          obtain ⟨_,_,_,gone,_⟩ := WakeThread.takes_cases (w := s.world) takes
          rw [gone] at own
          cases own
        simp only [note,if_neg none_,loses,Nat.add_zero]
        exact audited.untaken u (List.mem_of_getElem? there) a before
    · rw [new] at own
      cases own
  · intro t member e own
    obtain ⟨j,bound,rfl⟩ := List.mem_iff_getElem.mp member
    have found := List.getElem?_eq_some_iff.mpr ⟨bound,rfl⟩
    have alive := step_alive found
    rcases step_wake found with ⟨there,still⟩ | ⟨u,input,rfl,there,same⟩ | new
    · obtain ⟨taken,lost⟩ := note_other (o := o) regular there still (WakePoint.total_session own)
      rw [taken,lost alive]
      exact audited.total _ (List.mem_of_getElem? there) e own
    · rw [same] at own
      have present := List.mem_of_getElem? there
      cases takes : (u.access cfg input).takes with
      | none =>
        have before := WakeThread.next_total takes own
        simp only [note,Host.takes,there,Option.bind_some,takes,reduceCtorEq,if_false,loses,Nat.add_zero]
        exact audited.total u present e before
      | some x =>
        obtain ⟨a,untaken,rfl,_,sums⟩ := WakeThread.takes_cases (w := s.world) takes
        obtain ⟨session,mine,tokens,sum⟩ := sums e own
        obtain ⟨taken,lost⟩ := audited.untaken u present a untaken
        simp only [note,Host.takes,there,Option.bind_some,takes,loses,Nat.add_zero,session,if_true]
        exact ⟨lost,mine,tokens,by rw [sum,taken,Nat.zero_add]⟩
    · rw [new] at own
      cases own

end Audit

theorem audited_empty : initial.Audited .none_ := by
  refine ⟨.nil,⟨?_,?_⟩,fun _ => rfl,fun _ some_ => absurd rfl some_,?_,?_⟩
  · intro t member
    cases member
  · intro i j t u found
    cases found
  · intro t member
    cases member
  · intro t member
    cases member

theorem noted_host (cfg : Settings) (now : Host × Outgoings) (actions : List HostAction) :
    (run (noted cfg) now actions).1 = run (step cfg) now.1 actions := by
  induction actions generalizing now with
  | nil => rfl
  | cons action rest ih => exact ih (noted cfg now action)

/-- In every run, the tokens of a session's charged workers are on the launcher's record, taken by
the session's own wake, or lost to a crash; what a wake settles is its provider's own count and
every worker charged to its session, less those that were charged after it had taken the sum. -/
theorem usage_conserved (cfg : Settings) (actions : List HostAction) (x : String) :
    (run (noted cfg) (initial,.none_) actions).1 = run (step cfg) initial actions ∧
      chargedTo (run (step cfg) initial actions).world.providers x =
        (run (step cfg) initial actions).world.usage x + (run (noted cfg) (initial,.none_) actions).2.taken x +
          (run (noted cfg) (initial,.none_) actions).2.lost x ∧
      ∀ t ∈ (run (step cfg) initial actions).wakes, ∀ e ∈ t.point.total, e.1.sessionId = x →
        ∃ own, e.2.1.tokens = some own ∧
          e.2.2 + (run (step cfg) initial actions).world.usage x =
            own + chargedTo (run (step cfg) initial actions).world.providers x := by
  have host : (run (noted cfg) (initial,.none_) actions).1 = run (step cfg) initial actions :=
    noted_host cfg (initial,.none_) actions
  have holds : (run (noted cfg) (initial,.none_) actions).1.Regular ∧
      (run (noted cfg) (initial,.none_) actions).1.Audited (run (noted cfg) (initial,.none_) actions).2 := by
    refine @invariant_run _ _ (noted cfg) (fun now => now.1.Regular ∧ now.1.Audited now.2) ?_ _ ?_ actions
    · intro now action ⟨regular,audited⟩
      exact ⟨regular.step action,audited.step regular⟩
    · exact ⟨regular_initial,audited_empty⟩
  rw [host] at holds
  obtain ⟨_,audited⟩ := holds
  refine ⟨host,audited.balance x,?_⟩
  rintro t member e own rfl
  obtain ⟨lost,mine,tokens,sum⟩ := audited.total t member e own
  have balance := audited.balance e.1.sessionId
  exact ⟨mine,tokens,by omega⟩

end Host
end SjgControl

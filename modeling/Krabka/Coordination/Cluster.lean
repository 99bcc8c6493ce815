import Krabka.Coordination.Succession
import Krabka.Transition

namespace Krabka
namespace Coordination

open Collections Function

/-!
# A cluster of candidates

The candidates of one role, the coordinator that mints their tokens, and the
broker that fences a lease write under an older token, as in
`succession/model.rs` without its bounds: any number of candidates, any number
of steps, and tokens instead of small epochs.  The log is the coordination
partition.  Every candidate reads all of it and does what `evaluate` says.

The broker accepts a lease record only under the newest token, so a lease never
falls behind (`Invariant.leaseMinted`), and the coordinator gives each token to
one candidate (`Invariant.once`).
-/

/-- One candidate of the role. -/
structure Candidate where
  up : Bool
  /-- The token the coordinator last minted for it. -/
  epoch : Option FencingToken
  /-- It minted a token and did not write the lease yet. -/
  pendingLeaseWrite : Bool
deriving DecidableEq, Repr

def Candidate.start : Candidate := ⟨true, none, false⟩

def Candidate.down : Candidate := ⟨false, none, false⟩

structure Setting where
  role : Role
  config : LeaseConfig

structure Cluster where
  now : Int64
  log : List LogRecord
  /-- The newest token the coordinator minted. -/
  minted : Option FencingToken
  candidates : MemberId -> Candidate

inductive Act where
  /-- The clocks move to a later instant. -/
  | tick (instant : Int64)
  | register (member : MemberId)
  /-- `InitProducerId` gives the candidate a token. -/
  | mint (member : MemberId) (token : FencingToken)
  | publishLease (member : MemberId)
  | renew (member : MemberId)
  | crash (member : MemberId)
  /-- The registration of a stopped candidate is dropped. -/
  | expireSession (member : MemberId)
  | recover (member : MemberId)
deriving DecidableEq, Repr

namespace Cluster

def start (now : Int64) : Cluster := ⟨now, [], none, fun _ => .start⟩

/-- The role state that a reader of the partition builds. -/
def roleState (setting : Setting) (cluster : Cluster) : RoleState :=
  RoleState.fromRecords setting.role cluster.log

def outcome (setting : Setting) (cluster : Cluster) (member : MemberId) : Decision :=
  evaluate (cluster.roleState setting) member cluster.now setting.config

def registered (setting : Setting) (cluster : Cluster) (member : MemberId) : Bool :=
  ((cluster.roleState setting).entry member).isSome

def append (cluster : Cluster) (key : CoordinationKey) (record : CoordinationRecord) : Cluster :=
  { cluster with log := cluster.log ++ [((cluster.log.length : Int), key, record)] }

def setCandidate (cluster : Cluster) (member : MemberId) (candidate : Candidate) : Cluster :=
  { cluster with candidates := update cluster.candidates member candidate }

/-- A lease write.  The broker rejects it under a token that is not the newest,
and the candidate then drops its producer session. -/
def writeLease (setting : Setting) (cluster : Cluster) (member : MemberId) : Cluster :=
  let candidate := { cluster.candidates member with pendingLeaseWrite := false }
  match candidate.epoch with
  | none => cluster.setCandidate member candidate
  | some token =>
    if cluster.minted = some token then
      (cluster.setCandidate member candidate).append (.lease setting.role)
        (.lease (setting.config.grant member token cluster.now))
    else cluster.setCandidate member { candidate with epoch := none }

def step (setting : Setting) (cluster : Cluster) : Act -> Option Cluster
  | .tick instant => if cluster.now < instant then some { cluster with now := instant } else none
  | .register member =>
    if (cluster.candidates member).up ∧ cluster.registered setting member = false then
      some (cluster.append (.registration setting.role member)
        (.registration ⟨member, cluster.now⟩))
    else none
  | .mint member token =>
    let candidate := cluster.candidates member
    if candidate.up ∧ cluster.registered setting member ∧ candidate.pendingLeaseWrite = false ∧
        cluster.outcome setting member = .challenge ∧
        cluster.minted.all (fun newest => newest < token) then
      some { cluster.setCandidate member ⟨true, some token, true⟩ with minted := some token }
    else none
  | .publishLease member =>
    let candidate := cluster.candidates member
    if candidate.up ∧ candidate.pendingLeaseWrite then some (cluster.writeLease setting member)
    else none
  | .renew member =>
    let candidate := cluster.candidates member
    if candidate.up ∧ cluster.registered setting member ∧ candidate.pendingLeaseWrite = false ∧
        candidate.epoch.isSome ∧ cluster.outcome setting member = .hold then
      some (cluster.writeLease setting member)
    else none
  | .crash member =>
    if (cluster.candidates member).up then some (cluster.setCandidate member .down) else none
  | .expireSession member =>
    if (cluster.candidates member).up = false ∧ cluster.registered setting member then
      some (cluster.append (.registration setting.role member) .tombstone)
    else none
  | .recover member =>
    let candidate := cluster.candidates member
    if candidate.up = false then
      some (cluster.setCandidate member { candidate with up := true })
    else none

def run (setting : Setting) (cluster : Cluster) (acts : List Act) : Option Cluster :=
  Transition.run (step setting) cluster acts

end Cluster

/-! ## Invariants -/

namespace Cluster

variable {setting : Setting} {cluster next : Cluster} {act : Act}

/-- What a step writes to the log. -/
inductive Appends (setting : Setting) (cluster next : Cluster) : Prop where
  | nothing (log : next.log = cluster.log)
  | registration {key : CoordinationKey} {record : CoordinationRecord}
      (registers : key.kind = .registration) (same : next.minted = cluster.minted)
      (log : next.log = (cluster.append key record).log)
  | lease {lease : Lease} (newest : cluster.minted = some lease.token)
      (same : next.minted = cluster.minted)
      (log : next.log = (cluster.append (.lease setting.role) (.lease lease)).log)

theorem step_appends (stepped : cluster.step setting act = some next) :
    Appends setting cluster next := by
  cases act <;> simp only [step, writeLease] at stepped
  all_goals
    repeat' split at stepped
    all_goals cases stepped
  all_goals first
    | exact .nothing rfl
    | exact .registration rfl rfl rfl
    | exact .lease (by assumption) rfl rfl

theorem step_epochs (stepped : cluster.step setting act = some next) :
    (next.minted = cluster.minted ∧ forall member, (next.candidates member).epoch = none ∨
      (next.candidates member).epoch = (cluster.candidates member).epoch) ∨
    (Exists fun winner => Exists fun token =>
      (forall newest, cluster.minted = some newest -> newest < token) ∧
      next.minted = some token ∧ next.log = cluster.log ∧
      next.candidates = update cluster.candidates winner ⟨true, some token, true⟩) := by
  have updated : forall (winner : MemberId) (candidate : Candidate) (member : MemberId),
      candidate.epoch = none ∨ candidate.epoch = (cluster.candidates winner).epoch ->
      (update cluster.candidates winner candidate member).epoch = none ∨
        (update cluster.candidates winner candidate member).epoch =
          (cluster.candidates member).epoch := by
    intro winner candidate member kept
    by_cases same : member = winner
    · subst same
      rw [update_self]
      exact kept
    · rw [update_of_ne same]
      exact .inr rfl
  cases act with
  | mint member token =>
    simp only [step] at stepped
    split at stepped
    case isTrue admitted =>
        cases stepped
        refine .inr ⟨member, token, ?_, rfl, rfl, rfl⟩
        intro newest isNewest
        have above := admitted.2.2.2.2
        rw [isNewest] at above
        simpa using above
    case isFalse => cases stepped
  | _ =>
    left
    simp only [step, writeLease] at stepped
    repeat' split at stepped
    all_goals cases stepped
    all_goals first
      | exact ⟨rfl, fun _ => .inr rfl⟩
      | exact ⟨rfl, fun member => updated _ _ member (.inl rfl)⟩
      | exact ⟨rfl, fun member => updated _ _ member (.inr rfl)⟩

structure Invariant (setting : Setting) (cluster : Cluster) : Prop where
  offsets : forall record, record ∈ cluster.log -> record.1 < cluster.log.length
  bounded : forall member token, (cluster.candidates member).epoch = some token ->
    Exists fun newest => cluster.minted = some newest ∧ token ≤ newest
  once : forall first second token, (cluster.candidates first).epoch = some token ->
    (cluster.candidates second).epoch = some token -> first = second
  leaseMinted : forall lease, (cluster.roleState setting).lease = some lease ->
    Exists fun newest => cluster.minted = some newest ∧ lease.token ≤ newest

section

variable (appends : Appends setting cluster next)
  (known : forall record, record ∈ cluster.log -> record.1 < cluster.log.length)

include appends known

theorem Appends.offsets :
    forall record, record ∈ next.log -> record.1 < next.log.length := by
  have longer : forall key record entry, entry ∈ (cluster.append key record).log ->
      entry.1 < (cluster.append key record).log.length := by
    intro key record entry member
    simp only [append, List.length_append, List.length_singleton]
    rcases List.mem_append.mp member with old | isNew
    · have below := known entry old
      omega
    · rw [List.mem_singleton.mp isNew]
      omega
  cases appends with
  | nothing log => exact log ▸ known
  | registration registers same log | lease newest same log => exact log ▸ longer _ _

/-- The lease after a step is the old one, or a lease under the newest token. -/
theorem Appends.lease_eq :
    (next.roleState setting).lease = (cluster.roleState setting).lease ∨
      Exists fun lease => (next.roleState setting).lease = some lease ∧
        cluster.minted = some lease.token ∧ next.minted = cluster.minted := by
  unfold roleState
  cases appends with
  | nothing log => exact .inl (by rw [log])
  | registration registers same log =>
    left
    rw [log, append, fromRecords_append_registration registers]
  | @lease lease newest same log =>
    refine .inr ⟨lease, ?_, newest, same⟩
    rw [log, append, fromRecords_append_lease known]

end

theorem Invariant.step (invariant : Invariant setting cluster)
    (stepped : cluster.step setting act = some next) : Invariant setting next := by
  have appends := step_appends stepped
  have leases := appends.lease_eq invariant.offsets
  refine ⟨appends.offsets invariant.offsets, ?_, ?_, ?_⟩
  · intro member token isEpoch
    rcases step_epochs stepped with ⟨same, kept⟩ | ⟨winner, minted, above, newest, _, candidates⟩
    · rcases kept member with none | old
      · rw [none] at isEpoch
        cases isEpoch
      · rw [same]
        exact invariant.bounded member token (old ▸ isEpoch)
    · refine ⟨minted, newest, ?_⟩
      by_cases isWinner : member = winner
      · subst isWinner
        rw [candidates, update_self] at isEpoch
        cases isEpoch
        exact le_refl _
      · rw [candidates, update_of_ne isWinner] at isEpoch
        rcases invariant.bounded member token isEpoch with ⟨old, isOld, below⟩
        exact below.trans (above old isOld).le
  · intro first second token isFirst isSecond
    rcases step_epochs stepped with ⟨_, kept⟩ | ⟨winner, minted, above, _, _, candidates⟩
    · rcases kept first with none | oldFirst
      · rw [none] at isFirst
        cases isFirst
      · rcases kept second with none | oldSecond
        · rw [none] at isSecond
          cases isSecond
        · exact invariant.once first second token (oldFirst ▸ isFirst) (oldSecond ▸ isSecond)
    · -- The new token is above every token that a candidate has.
      have fresh : forall member, member ≠ winner ->
          (next.candidates member).epoch = some token -> token < minted := by
        intro member isOther isEpoch
        rw [candidates, update_of_ne isOther] at isEpoch
        rcases invariant.bounded member token isEpoch with ⟨old, isOld, below⟩
        exact below.trans_lt (above old isOld)
      have won : (next.candidates winner).epoch = some minted := by
        rw [candidates, update_self]
      by_cases firstWins : first = winner
      · by_cases secondWins : second = winner
        · exact firstWins.trans secondWins.symm
        · rw [firstWins, won] at isFirst
          cases isFirst
          exact absurd (fresh second secondWins isSecond) (lt_irrefl _)
      · by_cases secondWins : second = winner
        · rw [secondWins, won] at isSecond
          cases isSecond
          exact absurd (fresh first firstWins isFirst) (lt_irrefl _)
        · rw [candidates, update_of_ne firstWins] at isFirst
          rw [candidates, update_of_ne secondWins] at isSecond
          exact invariant.once first second token isFirst isSecond
  · intro lease isLease
    rcases leases with old | ⟨written, isWritten, newest, same⟩
    · rcases invariant.leaseMinted lease (old ▸ isLease) with ⟨token, isNewest, below⟩
      rcases step_epochs stepped with ⟨same, _⟩ | ⟨winner, minted, above, isMinted, _, _⟩
      · exact ⟨token, same.trans isNewest, below⟩
      · exact ⟨minted, isMinted, below.trans (above token isNewest).le⟩
    · rw [isWritten] at isLease
      cases isLease
      exact ⟨_, same.trans newest, le_refl _⟩

theorem start_invariant (setting : Setting) (now : Int64) : Invariant setting (start now) where
  offsets := nofun
  bounded := fun member token isEpoch => by cases isEpoch
  once := fun first second token isEpoch => by cases isEpoch
  leaseMinted := fun lease isLease => by cases isLease

/-! ## Safety -/

/-- The member gets `Hold` and has a token that the broker accepts. -/
def Authority (setting : Setting) (cluster : Cluster) (member : MemberId) : Prop :=
  cluster.outcome setting member = .hold ∧
    Exists fun token => cluster.minted = some token ∧ (cluster.candidates member).epoch = some token

/-- What is safe about the succession of a role. -/
structure Safe (setting : Setting) (cluster : Cluster) : Prop where
  newestOnce : forall first second token, cluster.minted = some token ->
    (cluster.candidates first).epoch = some token ->
      (cluster.candidates second).epoch = some token -> first = second
  authorityOnce : forall first second, cluster.Authority setting first ->
    cluster.Authority setting second -> first = second
  noChallenge : forall lease, (cluster.roleState setting).lease = some lease ->
    lease.isLiveAt cluster.now = true -> forall member, cluster.registered setting member = true ->
      cluster.outcome setting member ≠ .challenge
  rankOrder : forall early late, early ∈ (cluster.roleState setting).contenders ->
    late ∈ (cluster.roleState setting).contenders -> early.offset < late.offset ->
      Exists fun first => Exists fun second =>
        (cluster.roleState setting).rankOf early.member = some first ∧
          (cluster.roleState setting).rankOf late.member = some second ∧ first < second
  leaseMinted : forall lease, (cluster.roleState setting).lease = some lease ->
    Exists fun newest => cluster.minted = some newest ∧ lease.token ≤ newest

theorem Invariant.safe (invariant : Invariant setting cluster) : Safe setting cluster where
  newestOnce := fun first second token _ isFirst isSecond =>
    invariant.once first second token isFirst isSecond
  authorityOnce := by
    rintro first second ⟨_, token, newest, isFirst⟩ ⟨_, other, otherNewest, isSecond⟩
    cases newest.symm.trans otherNewest
    exact invariant.once first second token isFirst isSecond
  noChallenge := fun _ isLease live _ _ => evaluate_ne_challenge isLease live
  rankOrder := fun _ _ earlyContends lateContends before =>
    rankOf_lt (build_sorted _) (build_members_nodup _) earlyContends lateContends before
  leaseMinted := invariant.leaseMinted

def LeaseGrows (setting : Setting) (cluster later : Cluster) : Prop :=
  forall lease, (cluster.roleState setting).lease = some lease ->
    Exists fun newer => (later.roleState setting).lease = some newer ∧ lease.token ≤ newer.token

theorem LeaseGrows.step {first : Cluster} (grows : LeaseGrows setting first cluster)
    (invariant : Invariant setting cluster) (stepped : cluster.step setting act = some next) :
    LeaseGrows setting first next := by
  intro lease isLease
  rcases grows lease isLease with ⟨newer, isNewer, below⟩
  rcases (step_appends stepped).lease_eq invariant.offsets with old | ⟨written, isWritten, newest, _⟩
  · exact ⟨newer, old.trans isNewer, below⟩
  · rcases invariant.leaseMinted newer isNewer with ⟨token, isNewest, bound⟩
    cases newest.symm.trans isNewest
    exact ⟨written, isWritten, below.trans bound⟩

/-- In every run of any number of candidates the succession is safe in every
state, and the token of the lease never decreases. -/
theorem run_succession_safe {setting : Setting} {now : Int64} {acts : List Act} {cluster : Cluster}
    (ran : (start now).run setting acts = some cluster) :
    Safe setting cluster ∧ forall more later, cluster.run setting more = some later ->
      LeaseGrows setting cluster later := by
  have invariant : Invariant setting cluster :=
    Transition.run_keeps (Invariant setting) (fun _ _ _ known => known.step)
      (start_invariant setting now) ran
  refine ⟨invariant.safe, ?_⟩
  intro more later continued
  have known : Invariant setting later ∧ LeaseGrows setting cluster later := by
    apply Transition.run_keeps (fun state => Invariant setting state ∧
      LeaseGrows setting cluster state) ?_ ⟨invariant, fun lease isLease => ⟨lease, isLease, le_refl _⟩⟩
      continued
    intro state act next known stepped
    exact ⟨known.1.step stepped, known.2.step known.1 stepped⟩
  exact known.2

end Cluster

namespace Sample

def controller : Role := ⟨"controller", 10, by decide⟩

def nodeA : MemberId := ⟨"node-a", 6, by decide⟩

def nodeB : MemberId := ⟨"node-b", 6, by decide⟩

def token (epoch : Int16) (nonnegative : 0 ≤ epoch) : FencingToken := ⟨1, epoch, by decide, nonnegative⟩

def firstToken : FencingToken := token 0 (by decide)

/-- A lease of two seconds, a renewal each second and a stagger of one second. -/
def setting : Setting := ⟨controller, 2000, 1000, 1000, by decide⟩

/-- `nodeA` takes the role, renews it and stops with its second token unused, and
`nodeB` takes the role over. -/
def failover : List Act :=
  [.register nodeA, .register nodeB, .mint nodeA firstToken, .publishLease nodeA,
    .tick 1000, .renew nodeA, .tick 3000, .mint nodeA (token 1 (by decide)), .crash nodeA, .tick 4000,
    .mint nodeB (token 2 (by decide)), .publishLease nodeB, .expireSession nodeA, .recover nodeA,
    .register nodeA]

end Sample

namespace Cluster

open Sample

theorem run_succession_safe_failover :
    Exists fun cluster => (start 0).run setting failover = some cluster ∧
      cluster.minted = some (token 2 (by decide)) ∧
      (cluster.roleState setting).holder = some nodeB ∧
      (cluster.roleState setting).rankOf nodeA = some 0 ∧ Safe setting cluster :=
  ⟨_, rfl, rfl, by decide, by decide,
    (run_succession_safe (rfl : (start 0).run setting failover = some _)).1⟩

end Cluster

end Coordination
end Krabka

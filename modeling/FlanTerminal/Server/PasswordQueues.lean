import FlanTerminal.Server.AuthRules

/-!
# The two queues behind a password

Logins wait in two queues: the credential store compares the password in one,
the authentication service establishes the session in the other.  This module
puts the two components together and states how the queues are related in every
state of a run.

The hasher and the file answer only when nothing else can run, and everything
that follows from an answer runs before new calls come in.  Observers do not
call back.
-/

namespace FlanTerminal
namespace Server
namespace AuthService
namespace Passwords

open Foundation
open CredentialStore (ReplaceResult EnrollmentResult Pending Stage Job Answer)

/-!
## The world
-/

def isFirst (s : State) (n : Nat) : Bool :=
  s.line.head?.map Prod.fst == some n

def ready (s : State) (n : Nat) : PortCall -> Bool
  | PortCall.turn => isFirst s n
  | PortCall.verification => (s.credentials.settled.lookup n).isSome
  | PortCall.enroll _ => (s.credentials.settled.lookup n).isSome
  | PortCall.verify _ _ => (s.credentials.settled.lookup n).isSome
  | PortCall.replacePassword _ => (s.credentials.settled.lookup n).isSome
  | PortCall.settled => true
  | _ => false

/-- Nothing runs before the hasher or the file answers. -/
structure Quiescent (s : State) : Prop where
  calls : s.calls = []
  start : s.credentials.start = none
  parked : forall n c, (n, c) ∈ s.waiting -> ready s n c = false

def isLocalCall : Op -> Bool
  | Op.login _ _ _ => true
  | Op.setup _ _ => true
  | Op.logout _ => true
  | Op.changePassword _ _ _ => true
  | _ => false

def answers (s : State) (n : Nat) : (c : PortCall) -> PortReply c -> Prop
  | PortCall.isInitialized, r => r = s.credentials.isInitialized
  | PortCall.startVerify _ _, r => r = Started.promise
  | PortCall.turn, _ => isFirst s n = true
  | PortCall.verification, r =>
      match s.credentials.settled.lookup n with
      | some (CredentialStore.Outcome.verified valid _) =>
          r = VerificationOutcome.ok valid
      | some CredentialStore.Outcome.failed => r = VerificationOutcome.failed
      | _ => False
  | PortCall.enroll _, r =>
      match s.credentials.settled.lookup n with
      | some (CredentialStore.Outcome.enrollment result _) => r = some result
      | some CredentialStore.Outcome.failed => r = none
      | _ => False
  | PortCall.verify _ _, r =>
      match s.credentials.settled.lookup n with
      | some (CredentialStore.Outcome.verified valid _) => r = some valid
      | some CredentialStore.Outcome.failed => r = none
      | _ => False
  | PortCall.replacePassword _, r =>
      match s.credentials.settled.lookup n with
      | some (CredentialStore.Outcome.replacement result _) => r = some result
      | some CredentialStore.Outcome.failed => r = none
      | _ => False
  | _, _ => True

/-- The first operation of the credential store starts, or the hasher or the
file answers, or all that followed from an answer has run. -/
inductive StoreStep (s : State) : CredentialStore.State -> Bool -> Prop where
  | start {credentials} : s.calls = [] ->
      s.credentials.start = some credentials ->
      StoreStep s credentials s.draining
  | complete {credentials} (answer : Answer) : Quiescent s ->
      s.draining = false -> s.credentials.complete answer = some credentials ->
      StoreStep s credentials true
  | drained : Quiescent s -> StoreStep s s.credentials false

def localWorld : World where
  admits s op := isLocalCall op = true ∧ s.draining = false ∧ s.calls = []
  allowed := answers
  env := StoreStep

/-!
## The credential store
-/

def grants : CredentialStore.Outcome -> Option Nat
  | CredentialStore.Outcome.verified true version => some version
  | CredentialStore.Outcome.enrollment (EnrollmentResult.enrolled _) version =>
      some version
  | _ => none

theorem grants_verified {valid : Bool} {version v : Nat}
    (h : grants (CredentialStore.Outcome.verified valid version) = some v) :
    v = version := by
  cases valid with
  | false => cases h
  | true =>
      cases h
      rfl

def replaces : CredentialStore.Outcome -> Option Nat
  | CredentialStore.Outcome.replacement _ version => some version
  | _ => none

/-- The credential store has the operation of caller `n` in its queue. -/
def Pends (c : CredentialStore.State) (n : Nat) : Prop :=
  exists p, p ∈ c.queue ∧ p.caller = n

def Settles (c : CredentialStore.State) (n : Nat) : Prop :=
  exists outcome, (n, outcome) ∈ c.settled

structure Queue (c : CredentialStore.State) : Prop where
  once : (c.queue.map Pending.caller).Nodup
  started : forall p, p ∈ c.queue.tail -> p.stage = Stage.queued
  comparing : forall p, p ∈ c.queue -> forall record version,
    p.stage = Stage.comparing record version -> version = c.version
  apart : forall p, p ∈ c.queue -> ¬ Settles c p.caller
  current : forall n outcome version, (n, outcome) ∈ c.settled ->
    grants outcome = some version -> version = c.version
  replaced : forall n outcome version, (n, outcome) ∈ c.settled ->
    replaces outcome = some version -> version ≤ c.version

structure Advanced (c c' : CredentialStore.State) (p : Pending) (stage : Stage)
    (rest : List Pending) : Prop where
  queue : c.queue = p :: rest
  next : c'.queue = { p with stage := stage } :: rest
  settled : c'.settled = c.settled
  current : c'.current = c.current
  version : c'.version = c.version

structure Finished (c c' : CredentialStore.State) (p : Pending)
    (outcome : CredentialStore.Outcome) (rest : List Pending) : Prop where
  queue : c.queue = p :: rest
  next : c'.queue = rest
  settled : c'.settled = c.settled ++ [(p.caller, outcome)]
  current : c'.current = c.current
  version : c'.version = c.version

structure Committed (c c' : CredentialStore.State) (p : Pending)
    (outcome : CredentialStore.Outcome) (rest : List Pending) : Prop where
  queue : c.queue = p :: rest
  next : c'.queue = rest
  settled : c'.settled = c.settled ++ [(p.caller, outcome)]
  current : c'.current.isSome = true
  version : c'.version = c.version + 1

theorem Finished.of_queue {c : CredentialStore.State} {p : Pending}
    {rest : List Pending} (hqueue : c.queue = p :: rest)
    (outcome : CredentialStore.Outcome) :
    Finished c (c.finish p.caller outcome) p outcome rest := by
  refine ⟨hqueue, ?_, rfl, rfl, rfl⟩
  show c.queue.tail = rest
  rw [hqueue]
  rfl

theorem Advanced.of_queue {c : CredentialStore.State} {p : Pending}
    {rest : List Pending} (hqueue : c.queue = p :: rest) (stage : Stage) :
    Advanced c (c.advance p.caller p.job stage) p stage rest := by
  refine ⟨hqueue, ?_, rfl, rfl, rfl⟩
  show _ :: c.queue.tail = _
  rw [hqueue]
  rfl

theorem Committed.of_queue {c : CredentialStore.State} {p : Pending}
    {rest : List Pending} (hqueue : c.queue = p :: rest)
    (next : CredentialStore.CredentialRecord)
    (outcome : CredentialStore.Outcome) :
    Committed c ((c.commit next).finish p.caller outcome) p outcome rest := by
  refine ⟨hqueue, ?_, rfl, rfl, rfl⟩
  show c.queue.tail = rest
  rw [hqueue]
  rfl

theorem start_cases {c c' : CredentialStore.State} (h : c.start = some c') :
    exists p rest, p.stage = Stage.queued ∧
      ((exists outcome, Finished c c' p outcome rest ∧
          grants outcome = none ∧ replaces outcome = none) ∨
        (exists stage, Advanced c c' p stage rest ∧
          (forall record version, stage = Stage.comparing record version ->
            version = c.version) ∧
          ((exists pw, p.job = Job.enroll pw) -> c.current = none))) := by
  unfold CredentialStore.State.start at h
  split at h
  · rename_i n job rest hqueue
    cases h
    have hfinish := Finished.of_queue hqueue
    have hadvance := Advanced.of_queue hqueue
    refine ⟨⟨n, job, Stage.queued⟩, rest, rfl, ?_⟩
    cases job with
    | enroll password =>
        dsimp only
        split
        · exact Or.inl ⟨_, hfinish _, rfl, rfl⟩
        · split
          · exact Or.inl ⟨_, hfinish _, rfl, rfl⟩
          · rename_i hnone
            split
            · exact Or.inl ⟨_, hfinish _, rfl, rfl⟩
            · refine Or.inr ⟨_, hadvance _, nofun, ?_⟩
              intro _
              simpa using hnone
    | verify username password =>
        dsimp only
        split
        · exact Or.inl ⟨_, hfinish _, rfl, rfl⟩
        · refine Or.inr ⟨_, hadvance _, ?_, nofun⟩
          intro record version hstage
          cases hstage
          rfl
    | replacePassword password =>
        dsimp only
        split
        · exact Or.inl ⟨_, hfinish _, rfl, rfl⟩
        · exact Or.inr ⟨_, hadvance _, nofun, nofun⟩
  · cases h

theorem complete_cases {c c' : CredentialStore.State} {answer : Answer}
    (h : c.complete answer = some c') :
    exists p rest,
      (exists outcome, Finished c c' p outcome rest ∧
        (forall version, grants outcome = some version ->
          (exists username password, p.job = Job.verify username password) ∧
            exists record, p.stage = Stage.comparing record version) ∧
        forall version, replaces outcome = some version ->
          version = c.version) ∨
      (exists next, Advanced c c' p (Stage.replacing next) rest) ∨
      (exists outcome, Committed c c' p outcome rest ∧
        (forall version,
          outcome ≠ CredentialStore.Outcome.verified true version) ∧
        (forall version, grants outcome = some version ->
          version = c'.version) ∧
        forall version, replaces outcome = some version ->
          version = c'.version) := by
  cases answer with
  | hash passwordHash now =>
      simp only [CredentialStore.State.complete,
        CredentialStore.State.hashed] at h
      split at h
      · rename_i n job username rest hqueue
        have hfinish := Finished.of_queue hqueue
        cases h
        refine ⟨⟨n, job, Stage.hashing username⟩, rest, ?_⟩
        split
        · split
          · exact Or.inr (Or.inl ⟨_, Advanced.of_queue hqueue _⟩)
          · exact Or.inl ⟨_, hfinish _, nofun, nofun⟩
        · exact Or.inl ⟨_, hfinish _, nofun, nofun⟩
      · cases h
  | compare answer =>
      simp only [CredentialStore.State.complete,
        CredentialStore.State.compared] at h
      split at h
      · rename_i n username password record version rest hqueue
        have hfinish := Finished.of_queue hqueue
        cases h
        refine ⟨⟨n, Job.verify username password,
          Stage.comparing record version⟩, rest, Or.inl ?_⟩
        cases answer with
        | none => exact ⟨_, hfinish _, nofun, nofun⟩
        | some b =>
            refine ⟨_, hfinish _, ?_, nofun⟩
            intro v hv
            refine ⟨⟨username, password, rfl⟩, record, ?_⟩
            rw [grants_verified hv]
      · cases h
  | replace result =>
      simp only [CredentialStore.State.complete,
        CredentialStore.State.replaced] at h
      split at h
      · rename_i n password next rest hqueue
        have hfinish := Finished.of_queue hqueue
        have hcommit := Committed.of_queue hqueue next
        cases h
        refine ⟨⟨n, Job.enroll password, Stage.replacing next⟩, rest, ?_⟩
        cases result with
        | none => exact Or.inl ⟨_, hfinish _, nofun, nofun⟩
        | some r =>
            cases r with
            | not_committed => exact Or.inl ⟨_, hfinish _, nofun, nofun⟩
            | committed =>
                refine Or.inr (Or.inr ⟨_, hcommit _, nofun, ?_, nofun⟩)
                rintro v ⟨⟩
                rfl
            | committed_durability_uncertain =>
                refine Or.inr (Or.inr ⟨_, hcommit _, nofun, ?_, nofun⟩)
                rintro v ⟨⟩
                rfl
      · rename_i n password next rest hqueue
        have hfinish := Finished.of_queue hqueue
        have hcommit := Committed.of_queue hqueue next
        cases h
        refine ⟨⟨n, Job.replacePassword password, Stage.replacing next⟩, rest,
          ?_⟩
        cases result with
        | none => exact Or.inl ⟨_, hfinish _, nofun, nofun⟩
        | some r =>
            cases r with
            | not_committed =>
                refine Or.inl ⟨_, hfinish _, nofun, ?_⟩
                rintro v ⟨⟩
                rfl
            | committed =>
                refine Or.inr (Or.inr ⟨_, hcommit _, nofun, nofun, ?_⟩)
                rintro v ⟨⟩
                rfl
            | committed_durability_uncertain =>
                refine Or.inr (Or.inr ⟨_, hcommit _, nofun, nofun, ?_⟩)
                rintro v ⟨⟩
                rfl
      · cases h

/-!
## One operation and the queues

An operation is known to the queues by its place in the line, by what it waits
for, by its jobs and by the answers it has not collected.
-/

/-- What the first operation of the line waits for, once it has its turn. -/
def Asks (s : State) (n : Nat) : Slot -> Prop
  | Slot.bootstrap => False
  | Slot.login => (n, PortCall.verification) ∈ s.waiting
  | Slot.setup => exists pw, (n, PortCall.enroll pw) ∈ s.waiting

def Owns (s : State) (n : Nat) : Job -> Prop
  | Job.enroll _ =>
      (n, Slot.setup) ∈ s.line ∧ exists pw, (n, PortCall.enroll pw) ∈ s.waiting
  | Job.verify _ _ =>
      (n, Slot.login) ∈ s.line ∨
        exists username pw, (n, PortCall.verify username pw) ∈ s.waiting
  | Job.replacePassword _ =>
      exists pw, (n, PortCall.replacePassword pw) ∈ s.waiting

/-- An answer for operation `n` will be collected. -/
def Owed (s : State) (n : Nat) : Prop :=
  (n, Slot.login) ∈ s.line ∨
    exists c : PortCall, c.credential = true ∧ (n, c) ∈ s.waiting

/-- Line, waiting operations and credential store agree on operation `n`, which
does not run. -/
structure Local (s : State) (n : Nat) : Prop where
  place : forall slot, (n, slot) ∈ s.line ->
    (n, PortCall.turn) ∈ s.waiting ∨ isFirst s n = true ∧ Asks s n slot
  jobs : forall p, p ∈ s.credentials.queue -> p.caller = n -> Owns s n p.job
  owed : Settles s.credentials n -> Owed s n
  login : (n, Slot.login) ∈ s.line ->
    Pends s.credentials n ∨ Settles s.credentials n
  asked : forall c : PortCall, c.credential = true -> (n, c) ∈ s.waiting ->
    Pends s.credentials n ∨ Settles s.credentials n

structure Out (s : State) (n : Nat) : Prop where
  line : forall slot, (n, slot) ∉ s.line
  waiting : forall c, (n, c) ∉ s.waiting
  idle : ¬ Pends s.credentials n
  collected : ¬ Settles s.credentials n

structure Same (m : Nat) (s s' : State) : Prop where
  line : forall slot, (m, slot) ∈ s'.line <-> (m, slot) ∈ s.line
  waiting : forall c, (m, c) ∈ s'.waiting <-> (m, c) ∈ s.waiting
  calls : m ∈ s'.calls <-> m ∈ s.calls
  first : isFirst s m = true -> isFirst s' m = true
  jobs : forall p, p.caller = m ->
    (p ∈ s'.credentials.queue <-> p ∈ s.credentials.queue)
  settled : forall outcome, (m, outcome) ∈ s'.credentials.settled <->
    (m, outcome) ∈ s.credentials.settled

theorem Same.refl (m : Nat) (s : State) : Same m s s :=
  ⟨fun _ => Iff.rfl, fun _ => Iff.rfl, Iff.rfl, id, fun _ _ => Iff.rfl,
    fun _ => Iff.rfl⟩

theorem Same.trans {m : Nat} {s s' s'' : State} (h : Same m s s')
    (h' : Same m s' s'') : Same m s s'' :=
  ⟨fun k => (h'.line k).trans (h.line k),
    fun c => (h'.waiting c).trans (h.waiting c), h'.calls.trans h.calls,
    fun hf => h'.first (h.first hf),
    fun p hp => (h'.jobs p hp).trans (h.jobs p hp),
    fun x => (h'.settled x).trans (h.settled x)⟩

theorem Same.pends {m : Nat} {s s' : State} (h : Same m s s') :
    Pends s'.credentials m <-> Pends s.credentials m := by
  constructor
  · rintro ⟨p, hp, hm⟩
    exact ⟨p, (h.jobs p hm).mp hp, hm⟩
  · rintro ⟨p, hp, hm⟩
    exact ⟨p, (h.jobs p hm).mpr hp, hm⟩

theorem Same.settles {m : Nat} {s s' : State} (h : Same m s s') :
    Settles s'.credentials m <-> Settles s.credentials m := by
  constructor
  · rintro ⟨outcome, ho⟩
    exact ⟨outcome, (h.settled outcome).mp ho⟩
  · rintro ⟨outcome, ho⟩
    exact ⟨outcome, (h.settled outcome).mpr ho⟩

theorem Asks.same {m : Nat} {s s' : State} {slot : Slot} (h : Asks s m slot)
    (hsame : Same m s s') : Asks s' m slot := by
  cases slot with
  | bootstrap => exact h
  | login => exact (hsame.waiting _).mpr h
  | setup =>
      rcases h with ⟨pw, hpw⟩
      exact ⟨pw, (hsame.waiting _).mpr hpw⟩

theorem Owns.same {m : Nat} {s s' : State} {job : Job} (h : Owns s m job)
    (hsame : Same m s s') : Owns s' m job := by
  cases job with
  | enroll pw =>
      rcases h with ⟨hline, pw', hpw⟩
      exact ⟨(hsame.line _).mpr hline, pw', (hsame.waiting _).mpr hpw⟩
  | verify username pw =>
      rcases h with hline | ⟨u, pw', hpw⟩
      · exact Or.inl ((hsame.line _).mpr hline)
      · exact Or.inr ⟨u, pw', (hsame.waiting _).mpr hpw⟩
  | replacePassword pw =>
      rcases h with ⟨pw', hpw⟩
      exact ⟨pw', (hsame.waiting _).mpr hpw⟩

theorem Owns.owed {n : Nat} {s : State} {job : Job} (h : Owns s n job) :
    Owed s n := by
  cases job with
  | enroll pw =>
      rcases h with ⟨_, pw', hpw⟩
      exact Or.inr ⟨_, rfl, hpw⟩
  | verify username pw =>
      rcases h with hline | ⟨u, pw', hpw⟩
      · exact Or.inl hline
      · exact Or.inr ⟨_, rfl, hpw⟩
  | replacePassword pw =>
      rcases h with ⟨pw', hpw⟩
      exact Or.inr ⟨_, rfl, hpw⟩

theorem Owed.same {m : Nat} {s s' : State} (h : Owed s m)
    (hsame : Same m s s') : Owed s' m := by
  rcases h with hline | ⟨c, hc, hmem⟩
  · exact Or.inl ((hsame.line _).mpr hline)
  · exact Or.inr ⟨c, hc, (hsame.waiting c).mpr hmem⟩

theorem Local.same {m : Nat} {s s' : State} (h : Local s m)
    (hsame : Same m s s') : Local s' m := by
  constructor
  · intro slot hslot
    rcases h.place slot ((hsame.line slot).mp hslot) with hturn | ⟨hfirst, hasks⟩
    · exact Or.inl ((hsame.waiting _).mpr hturn)
    · exact Or.inr ⟨hsame.first hfirst, hasks.same hsame⟩
  · intro p hp hm
    exact (h.jobs p ((hsame.jobs p hm).mp hp) hm).same hsame
  · intro hset
    exact (h.owed (hsame.settles.mp hset)).same hsame
  · intro hline
    rw [hsame.pends, hsame.settles]
    exact h.login ((hsame.line _).mp hline)
  · intro c hc hmem
    rw [hsame.pends, hsame.settles]
    exact h.asked c hc ((hsame.waiting c).mp hmem)

theorem Out.same {m : Nat} {s s' : State} (h : Out s m) (hsame : Same m s s') :
    Out s' m :=
  ⟨fun slot hs => h.line slot ((hsame.line slot).mp hs),
    fun c hc => h.waiting c ((hsame.waiting c).mp hc),
    fun hp => h.idle (hsame.pends.mp hp),
    fun hs => h.collected (hsame.settles.mp hs)⟩

theorem Out.local {m : Nat} {s : State} (h : Out s m) : Local s m := by
  constructor
  · intro slot hslot
    exact absurd hslot (h.line slot)
  · intro p hp hm
    exact absurd ⟨p, hp, hm⟩ h.idle
  · intro hset
    exact absurd hset h.collected
  · intro hline
    exact absurd hline (h.line _)
  · intro c _ hmem
    exact absurd hmem (h.waiting c)

/-!
## The invariant
-/

/-- Either no password has been set or a setup is still in line. -/
def Early (s : State) : Prop :=
  s.credentials.current = none ∨ exists n, (n, Slot.setup) ∈ s.line

structure Enrolling (s : State) : Prop where
  line : forall n slot, (n, slot) ∈ s.line -> slot = Slot.setup
  jobs : forall p, p ∈ s.credentials.queue -> exists pw, p.job = Job.enroll pw
  unverified : forall n version,
    (n, CredentialStore.Outcome.verified true version) ∉ s.credentials.settled

def LastTold (n : Nat) (outcome : CredentialStore.Outcome)
    (log : List Entry) : Prop :=
  exists before after, log = before ++ Entry.told n (some outcome) :: after ∧
    forall x, Entry.told n x ∉ after

/-- Entries that are neither about the credential store nor about what follows
from its answers. -/
def plain : Entry -> Bool
  | Entry.established _ _ _ _ => false
  | Entry.told _ _ => false
  | Entry.ended _ _ _ => false
  | _ => true

/-- Moreover only operation `n` has run since. -/
def JustTold (n : Nat) (outcome : CredentialStore.Outcome)
    (log : List Entry) : Prop :=
  exists before after, log = before ++ Entry.told n (some outcome) :: after ∧
    forall e, e ∈ after -> plain e = true

/-- A session is established on an answer that grants it, and this answer is
not older than any replacement that was known before. -/
def Credits (before : List Entry) : Entry -> Prop
  | Entry.told _ answer => forall outcome basis, answer = some outcome ->
      grants outcome = some basis -> forall m result version,
        Entry.told m (some result) ∈ before ->
        replaces result = some version -> version ≤ basis
  | Entry.established n _ _ _ =>
      exists outcome basis, JustTold n outcome before ∧
        grants outcome = some basis
  | Entry.ended n op res => isPasswordChange op = true ->
      res = Except.ok (Value.flag true) -> exists result version,
        result ≠ ReplaceResult.not_committed ∧
          LastTold n (CredentialStore.Outcome.replacement result version) before
  | _ => True

/-- What holds of the queues together.  `next` is the first operation number
not in use. -/
structure Core (next : Nat) (s : State) : Prop where
  order : (s.line.map Prod.fst).Pairwise (· < ·)
  once : (s.waiting.map Prod.fst).Nodup
  store : Queue s.credentials
  fifo : s.credentials.queue.Pairwise fun p q =>
    (p.caller, Slot.login) ∈ s.line -> (q.caller, Slot.login) ∈ s.line ->
      p.caller < q.caller
  ahead : forall n outcome basis, (n, outcome) ∈ s.credentials.settled ->
    grants outcome = some basis -> (n, Slot.login) ∈ s.line ->
    forall p, p ∈ s.credentials.queue -> (p.caller, Slot.login) ∈ s.line ->
      n < p.caller
  early : Early s -> Enrolling s
  settling : forall n, (n, Slot.setup) ∈ s.line ->
    s.credentials.current.isSome = true -> s.draining = true ∧
      forall p, p ∈ s.credentials.queue -> p.stage = Stage.queued
  fresh : forall n, next ≤ n -> Out s n ∧ n ∉ s.calls
  entries : EveryEntry Credits s.log
  versions : forall m result version, Entry.told m (some result) ∈ s.log ->
    replaces result = some version -> version ≤ s.credentials.version

theorem Core.mono {next next' : Nat} {s : State} (h : Core next s)
    (hle : next ≤ next') : Core next' s :=
  ⟨h.order, h.once, h.store, h.fifo, h.ahead, h.early, h.settling,
    fun n hn => h.fresh n (Nat.le_trans hle hn), h.entries, h.versions⟩

theorem Core.record {next : Nat} {s : State} {e : Entry} (h : Core next s)
    (he : Credits s.log e)
    (hversion : forall m result version, e = Entry.told m (some result) ->
      replaces result = some version -> version ≤ s.credentials.version) :
    Core next (s.record e) := by
  refine ⟨h.order, h.once, h.store, h.fifo, h.ahead, ?_, h.settling, ?_,
    everyEntry_snoc.mpr ⟨h.entries, he⟩, ?_⟩
  · intro hearly
    have henroll := h.early hearly
    exact ⟨henroll.line, henroll.jobs, henroll.unverified⟩
  · intro n hn
    rcases h.fresh n hn with ⟨hout, hcalls⟩
    exact ⟨⟨hout.line, hout.waiting, hout.idle, hout.collected⟩, hcalls⟩
  · intro m result version hmem hrep
    rcases List.mem_append.mp hmem with hmem | hmem
    · exact h.versions m result version hmem hrep
    · exact hversion m result version (List.mem_singleton.mp hmem).symm hrep

theorem Core.reserve {next n : Nat} {s : State} {slot : Slot}
    (h : Core next s) (hn : n < next) (hout : Out s n)
    (hlast : forall m k, (m, k) ∈ s.line -> m < n)
    (hslot : slot = Slot.setup ∧ s.credentials.current = none ∨
      slot = Slot.login ∧ ¬ Early s) :
    Core next { s with line := s.line ++ [(n, slot)] } := by
  have hmem : forall m k, (m, k) ∈ s.line ++ [(n, slot)] ->
      Pends s.credentials m ∨ Settles s.credentials m -> (m, k) ∈ s.line := by
    intro m k hmk hm
    rcases List.mem_append.mp hmk with hmk | hmk
    · exact hmk
    · cases List.mem_singleton.mp hmk
      rcases hm with hm | hm
      · exact absurd hm hout.idle
      · exact absurd hm hout.collected
  constructor
  · show ((s.line ++ [(n, slot)]).map Prod.fst).Pairwise (· < ·)
    rw [List.map_append]
    apply List.pairwise_append.mpr
    refine ⟨h.order, List.pairwise_singleton _ _, ?_⟩
    intro m hm m' hm'
    rcases List.mem_map.mp hm with ⟨⟨m, k⟩, hmk, rfl⟩
    cases List.mem_singleton.mp hm'
    exact hlast m k hmk
  · exact h.once
  · exact h.store
  · apply h.fifo.imp_of_mem
    intro p q hp hq hpq hpl hql
    exact hpq (hmem _ _ hpl (Or.inl ⟨p, hp, rfl⟩))
      (hmem _ _ hql (Or.inl ⟨q, hq, rfl⟩))
  · intro m outcome basis hset hgrant hm p hp hpl
    exact h.ahead m outcome basis hset hgrant
      (hmem _ _ hm (Or.inr ⟨outcome, hset⟩)) p hp
      (hmem _ _ hpl (Or.inl ⟨p, hp, rfl⟩))
  · intro hearly
    rcases hslot with ⟨rfl, hnone⟩ | ⟨rfl, hlate⟩
    · have henroll := h.early (Or.inl hnone)
      refine ⟨?_, henroll.jobs, henroll.unverified⟩
      intro m k hmk
      rcases List.mem_append.mp hmk with hmk | hmk
      · exact henroll.line m k hmk
      · cases List.mem_singleton.mp hmk
        rfl
    · apply absurd _ hlate
      rcases hearly with hnone | ⟨m, hm⟩
      · exact Or.inl hnone
      · rcases List.mem_append.mp hm with hm | hm
        · exact Or.inr ⟨m, hm⟩
        · cases List.mem_singleton.mp hm
  · intro m hm hsome
    rcases hslot with ⟨rfl, hnone⟩ | ⟨rfl, hlate⟩
    · rw [hnone] at hsome
      cases hsome
    · rcases List.mem_append.mp hm with hm | hm
      · exact absurd (Or.inr ⟨m, hm⟩) hlate
      · cases List.mem_singleton.mp hm
  · intro m hm
    rcases h.fresh m hm with ⟨hfresh, hcalls⟩
    refine ⟨⟨?_, hfresh.waiting, hfresh.idle, hfresh.collected⟩, hcalls⟩
    intro k hk
    rcases List.mem_append.mp hk with hk | hk
    · exact hfresh.line k hk
    · cases List.mem_singleton.mp hk
      exact absurd hn (Nat.not_lt.mpr hm)
  · exact h.entries
  · exact h.versions

theorem Core.finish {next : Nat} {s : State} (h : Core next s) :
    Core next { s with line := s.line.tail } := by
  have hmem : forall x, x ∈ s.line.tail -> x ∈ s.line :=
    fun x hx => List.mem_of_mem_tail hx
  constructor
  · show (s.line.tail.map Prod.fst).Pairwise (· < ·)
    rw [List.map_tail]
    exact h.order.sublist (List.tail_sublist _)
  · exact h.once
  · exact h.store
  · apply h.fifo.imp
    intro p q hpq hpl hql
    exact hpq (hmem _ hpl) (hmem _ hql)
  · intro m outcome basis hset hgrant hm p hp hpl
    exact h.ahead m outcome basis hset hgrant (hmem _ hm) p hp (hmem _ hpl)
  · intro hearly
    have henroll : Enrolling s := by
      apply h.early
      rcases hearly with hnone | ⟨m, hm⟩
      · exact Or.inl hnone
      · exact Or.inr ⟨m, hmem _ hm⟩
    exact ⟨fun m k hmk => henroll.line m k (hmem _ hmk), henroll.jobs,
      henroll.unverified⟩
  · intro m hm hsome
    exact h.settling m (hmem _ hm) hsome
  · intro m hm
    rcases h.fresh m hm with ⟨hfresh, hcalls⟩
    exact ⟨⟨fun k hk => hfresh.line k (hmem _ hk), hfresh.waiting, hfresh.idle,
      hfresh.collected⟩, hcalls⟩
  · exact h.entries
  · exact h.versions

theorem Core.park {next n : Nat} {s : State} {c : PortCall} (h : Core next s)
    (hn : n < next) (hidle : forall c, (n, c) ∉ s.waiting) :
    Core next (s.park n c) := by
  refine ⟨h.order, ?_, h.store, h.fifo, h.ahead, ?_, h.settling, ?_, h.entries,
    h.versions⟩
  · show ((s.waiting ++ [(n, c)]).map Prod.fst).Nodup
    rw [List.map_append, List.nodup_append]
    refine ⟨h.once, List.nodup_singleton n, ?_⟩
    intro m hm m' hm' heq
    rcases List.mem_map.mp hm with ⟨⟨x, c'⟩, hx, rfl⟩
    cases List.mem_singleton.mp hm'
    cases heq
    exact hidle c' hx
  · intro hearly
    have henroll := h.early hearly
    exact ⟨henroll.line, henroll.jobs, henroll.unverified⟩
  · intro m hm
    rcases h.fresh m hm with ⟨hfresh, hcalls⟩
    refine ⟨⟨hfresh.line, ?_, hfresh.idle, hfresh.collected⟩, hcalls⟩
    intro c' hc'
    rcases List.mem_append.mp hc' with hc' | hc'
    · exact hfresh.waiting c' hc'
    · cases List.mem_singleton.mp hc'
      exact absurd hn (Nat.not_lt.mpr hm)

theorem Core.unpark {next n : Nat} {s : State} (h : Core next s) :
    Core next (s.unpark n) := by
  refine ⟨h.order, ?_, h.store, h.fifo, h.ahead, ?_, h.settling, ?_, h.entries,
    h.versions⟩
  · exact h.once.sublist (List.Sublist.map _ List.filter_sublist)
  · intro hearly
    have henroll := h.early hearly
    exact ⟨henroll.line, henroll.jobs, henroll.unverified⟩
  · intro m hm
    rcases h.fresh m hm with ⟨hfresh, hcalls⟩
    exact ⟨⟨hfresh.line, fun c hc => hfresh.waiting c (List.mem_filter.mp hc).1,
      hfresh.idle, hfresh.collected⟩, hcalls⟩

theorem Core.enqueue {next n : Nat} {s : State} {job : Job} (h : Core next s)
    (hn : n < next) (hidle : ¬ Pends s.credentials n)
    (hcollected : ¬ Settles s.credentials n)
    (hphase : (exists pw, job = Job.enroll pw) ∨ ¬ Early s)
    (hlast : (n, Slot.login) ∈ s.line -> forall m k, (m, k) ∈ s.line ->
      m ≤ n) :
    Core next { s with credentials := s.credentials.enqueue n job } := by
  have hmem : forall p, p ∈ s.credentials.queue ++ [⟨n, job, Stage.queued⟩] ->
      p ∈ s.credentials.queue ∨ p = ⟨n, job, Stage.queued⟩ := by
    intro p hp
    rcases List.mem_append.mp hp with hp | hp
    · exact Or.inl hp
    · exact Or.inr (List.mem_singleton.mp hp)
  have hother : forall p, p ∈ s.credentials.queue -> p.caller ≠ n :=
    fun p hp heq => hidle ⟨p, hp, heq⟩
  have hstore : Queue (s.credentials.enqueue n job) := by
    constructor
    · show (List.map Pending.caller
        (s.credentials.queue ++ [⟨n, job, Stage.queued⟩])).Nodup
      rw [List.map_append, List.nodup_append]
      refine ⟨h.store.once, List.nodup_singleton _, ?_⟩
      intro m hm m' hm' heq
      rcases List.mem_map.mp hm with ⟨p, hp, rfl⟩
      cases List.mem_singleton.mp hm'
      exact hother p hp heq
    · intro p hp
      have hp' : p ∈ s.credentials.queue.tail ∨ p = ⟨n, job, Stage.queued⟩ := by
        change p ∈ List.tail
          (s.credentials.queue ++ [⟨n, job, Stage.queued⟩]) at hp
        cases hqueue : s.credentials.queue with
        | nil =>
            rw [hqueue] at hp
            exact absurd hp List.not_mem_nil
        | cons q rest =>
            rw [hqueue] at hp
            rcases List.mem_append.mp hp with hp | hp
            · exact Or.inl hp
            · exact Or.inr (List.mem_singleton.mp hp)
      rcases hp' with hp' | rfl
      · exact h.store.started p hp'
      · rfl
    · intro p hp record version hstage
      rcases hmem p hp with hp | rfl
      · exact h.store.comparing p hp record version hstage
      · cases hstage
    · intro p hp
      rcases hmem p hp with hp | rfl
      · exact h.store.apart p hp
      · exact hcollected
    · exact h.store.current
    · exact h.store.replaced
  refine ⟨h.order, h.once, hstore, ?_, ?_, ?_, ?_, ?_, h.entries, h.versions⟩
  · apply List.pairwise_append.mpr
    refine ⟨h.fifo, List.pairwise_singleton _ _, ?_⟩
    intro p hp q hq hpl hql
    cases List.mem_singleton.mp hq
    exact Nat.lt_of_le_of_ne (hlast hql _ _ hpl) (hother p hp)
  · intro m outcome basis hset hgrant hm p hp hpl
    rcases hmem p hp with hp | rfl
    · exact h.ahead m outcome basis hset hgrant hm p hp hpl
    · apply Nat.lt_of_le_of_ne (hlast hpl _ _ hm)
      rintro rfl
      exact hcollected ⟨outcome, hset⟩
  · intro hearly
    have henroll := h.early hearly
    refine ⟨henroll.line, ?_, henroll.unverified⟩
    intro p hp
    rcases hmem p hp with hp | rfl
    · exact henroll.jobs p hp
    · rcases hphase with hjob | hlate
      · exact hjob
      · exact absurd hearly hlate
  · intro m hm hsome
    have hsettle := h.settling m hm hsome
    refine ⟨hsettle.1, ?_⟩
    intro p hp
    rcases hmem p hp with hp | rfl
    · exact hsettle.2 p hp
    · rfl
  · intro m hm
    rcases h.fresh m hm with ⟨hfresh, hcalls⟩
    refine ⟨⟨hfresh.line, hfresh.waiting, ?_, hfresh.collected⟩, hcalls⟩
    rintro ⟨p, hp, hpm⟩
    rcases hmem p hp with hp | rfl
    · exact hfresh.idle ⟨p, hp, hpm⟩
    · have hnm : n = m := hpm
      rw [hnm] at hn
      exact absurd hn (Nat.not_lt.mpr hm)

theorem Core.settle {next n : Nat} {s : State}
    {outcome : CredentialStore.Outcome} (h : Core next s) (hn : n < next)
    (hidle : ¬ Pends s.credentials n) (hgrant : grants outcome = none)
    (hreplace : replaces outcome = none) :
    Core next { s with credentials := s.credentials.settle n outcome } := by
  have hmem : forall m x, (m, x) ∈ s.credentials.settled ++ [(n, outcome)] ->
      (m, x) ∈ s.credentials.settled ∨ m = n ∧ x = outcome := by
    intro m x hx
    rcases List.mem_append.mp hx with hx | hx
    · exact Or.inl hx
    · cases List.mem_singleton.mp hx
      exact Or.inr ⟨rfl, rfl⟩
  have hold : forall m x basis, (m, x) ∈ s.credentials.settled ++ [(n, outcome)] ->
      grants x = some basis -> (m, x) ∈ s.credentials.settled := by
    intro m x basis hx hgx
    rcases hmem m x hx with hx | ⟨_, rfl⟩
    · exact hx
    · rw [hgrant] at hgx
      cases hgx
  have hstore : Queue (s.credentials.settle n outcome) := by
    refine ⟨h.store.once, h.store.started, h.store.comparing, ?_, ?_, ?_⟩
    · rintro p hp ⟨x, hx⟩
      rcases hmem _ _ hx with hx | ⟨hpn, _⟩
      · exact h.store.apart p hp ⟨x, hx⟩
      · exact hidle ⟨p, hp, hpn⟩
    · intro m x version hx hgx
      exact h.store.current m x version (hold m x version hx hgx) hgx
    · intro m x version hx hrx
      rcases hmem m x hx with hx | ⟨_, rfl⟩
      · exact h.store.replaced m x version hx hrx
      · rw [hreplace] at hrx
        cases hrx
  refine ⟨h.order, h.once, hstore, h.fifo, ?_, ?_, h.settling, ?_, h.entries,
    h.versions⟩
  · intro m x basis hx hgx
    exact h.ahead m x basis (hold m x basis hx hgx) hgx
  · intro hearly
    have henroll := h.early hearly
    refine ⟨henroll.line, henroll.jobs, ?_⟩
    intro m version hx
    exact henroll.unverified m version (hold m _ version hx rfl)
  · intro m hm
    rcases h.fresh m hm with ⟨hfresh, hcalls⟩
    refine ⟨⟨hfresh.line, hfresh.waiting, hfresh.idle, ?_⟩, hcalls⟩
    rintro ⟨x, hx⟩
    rcases hmem m x hx with hx | ⟨rfl, _⟩
    · exact hfresh.collected ⟨x, hx⟩
    · exact absurd hn (Nat.not_lt.mpr hm)

theorem mem_of_lookup {n : Nat} {outcome : CredentialStore.Outcome}
    {settled : List (Nat × CredentialStore.Outcome)}
    (h : settled.lookup n = some outcome) : (n, outcome) ∈ settled := by
  induction settled with
  | nil => cases h
  | cons x rest ih =>
      rcases x with ⟨m, y⟩
      rw [List.lookup_cons] at h
      split at h
      · rename_i heq
        cases h
        rw [beq_iff_eq.mp heq]
        exact List.mem_cons_self
      · exact List.mem_cons_of_mem _ (ih h)

theorem lookup_isSome {n : Nat} {outcome : CredentialStore.Outcome}
    {settled : List (Nat × CredentialStore.Outcome)}
    (h : (n, outcome) ∈ settled) : (settled.lookup n).isSome = true := by
  induction settled with
  | nil => cases h
  | cons x rest ih =>
      rcases x with ⟨m, y⟩
      rw [List.lookup_cons]
      split
      · rfl
      · rename_i hne
        rcases List.mem_cons.mp h with h | h
        · cases h
          simp at hne
        · exact ih h

theorem Core.collect {next n : Nat} {s : State} (h : Core next s) :
    Core next (s.collect n) := by
  have hmem : forall x, x ∈ (s.collect n).credentials.settled ->
      x ∈ s.credentials.settled :=
    fun x hx => (List.mem_filter.mp hx).1
  have hstore : Queue (s.collect n).credentials := by
    refine ⟨h.store.once, h.store.started, h.store.comparing, ?_, ?_, ?_⟩
    · rintro p hp ⟨x, hx⟩
      exact h.store.apart p hp ⟨x, hmem _ hx⟩
    · intro m x version hx
      exact h.store.current m x version (hmem _ hx)
    · intro m x version hx
      exact h.store.replaced m x version (hmem _ hx)
  refine ⟨h.order, h.once, hstore, h.fifo, ?_, ?_, h.settling, ?_, ?_, ?_⟩
  · intro m x basis hx
    exact h.ahead m x basis (hmem _ hx)
  · intro hearly
    have henroll := h.early hearly
    exact ⟨henroll.line, henroll.jobs,
      fun m version hx => henroll.unverified m version (hmem _ hx)⟩
  · intro m hm
    rcases h.fresh m hm with ⟨hfresh, hcalls⟩
    refine ⟨⟨hfresh.line, hfresh.waiting, hfresh.idle, ?_⟩, hcalls⟩
    rintro ⟨x, hx⟩
    exact hfresh.collected ⟨x, hmem _ hx⟩
  · refine everyEntry_snoc.mpr ⟨h.entries, ?_⟩
    intro outcome basis hanswer hgrant m result version htold hrep
    rw [h.store.current n outcome basis (mem_of_lookup hanswer) hgrant]
    exact h.versions m result version htold hrep
  · intro m result version htold hrep
    rcases List.mem_append.mp htold with htold | htold
    · exact h.versions m result version htold hrep
    · rcases Entry.told.inj (List.mem_singleton.mp htold) with ⟨rfl, hanswer⟩
      exact h.store.replaced m result version (mem_of_lookup hanswer.symm) hrep

/-!
## Steps of the credential store
-/

def State.withStore (s : State) (c : CredentialStore.State) (draining : Bool) :
    State :=
  { s with credentials := c, draining := draining }

theorem Core.advance {next : Nat} {s : State} {c : CredentialStore.State}
    {p : Pending} {stage : Stage} {rest : List Pending} {draining : Bool}
    (h : Core next s) (ha : Advanced s.credentials c p stage rest)
    (hstage : forall record version, stage = Stage.comparing record version ->
      version = s.credentials.version)
    (hphase : (exists pw, p.job = Job.enroll pw) ->
      s.credentials.current = none ∨ s.draining = false)
    (hdraining : s.draining = true -> draining = true) :
    Core next (State.withStore s c draining) := by
  have hmem : forall q, q ∈ c.queue -> exists q', q' ∈ s.credentials.queue ∧
      q'.caller = q.caller ∧ q'.job = q.job ∧ (q = q' ∨ q.stage = stage) := by
    intro q hq
    rw [ha.next] at hq
    rw [ha.queue]
    rcases List.mem_cons.mp hq with rfl | hq
    · exact ⟨p, List.mem_cons_self, rfl, rfl, Or.inr rfl⟩
    · exact ⟨q, List.mem_cons_of_mem _ hq, rfl, rfl, Or.inl rfl⟩
  have hcallers : c.queue.map Pending.caller =
      s.credentials.queue.map Pending.caller := by
    rw [ha.next, ha.queue]
    rfl
  have hstore : Queue c := by
    constructor
    · rw [hcallers]
      exact h.store.once
    · intro q hq
      apply h.store.started q
      rw [ha.next] at hq
      rw [ha.queue]
      exact hq
    · intro q hq record version hq'
      rw [ha.version]
      rcases hmem q hq with ⟨q', hmem', _, _, rfl | hnew⟩
      · exact h.store.comparing q hmem' record version hq'
      · exact hstage record version (hnew.symm.trans hq')
    · rintro q hq ⟨x, hx⟩
      rcases hmem q hq with ⟨q', hmem', hcaller, _⟩
      rw [ha.settled, ← hcaller] at hx
      exact h.store.apart q' hmem' ⟨x, hx⟩
    · intro n x version hx hgx
      rw [ha.settled] at hx
      rw [ha.version]
      exact h.store.current n x version hx hgx
    · intro n x version hx hrx
      rw [ha.settled] at hx
      rw [ha.version]
      exact h.store.replaced n x version hx hrx
  refine ⟨h.order, h.once, hstore, ?_, ?_, ?_, ?_, ?_, h.entries, ?_⟩
  · have hfifo := h.fifo
    rw [ha.queue] at hfifo
    show c.queue.Pairwise _
    rw [ha.next]
    rcases List.pairwise_cons.mp hfifo with ⟨hhead, hrest⟩
    exact List.pairwise_cons.mpr ⟨hhead, hrest⟩
  · intro n x basis hx hgx hn q hq hql
    rcases hmem q hq with ⟨q', hmem', hcaller, _⟩
    rw [← hcaller] at hql ⊢
    exact h.ahead n x basis (ha.settled ▸ hx) hgx hn q' hmem' hql
  · rintro hearly
    have henroll : Enrolling s := by
      apply h.early
      rcases hearly with hnone | hsetup
      · exact Or.inl (ha.current ▸ hnone)
      · exact Or.inr hsetup
    refine ⟨henroll.line, ?_, ?_⟩
    · intro q hq
      rcases hmem q hq with ⟨q', hmem', _, hjob, _⟩
      rw [← hjob]
      exact henroll.jobs q' hmem'
    · intro n version hx
      exact henroll.unverified n version (ha.settled ▸ hx)
  · intro n hn hsome
    have hsome' : s.credentials.current.isSome = true := ha.current ▸ hsome
    have hsettle := h.settling n hn hsome'
    refine ⟨hdraining hsettle.1, ?_⟩
    have hjob := (h.early (Or.inr ⟨n, hn⟩)).jobs p
      (by rw [ha.queue]; exact List.mem_cons_self)
    rcases hphase hjob with hnone | hquiet
    · rw [hnone] at hsome'
      cases hsome'
    · rw [hsettle.1] at hquiet
      cases hquiet
  · intro n hn
    rcases h.fresh n hn with ⟨hfresh, hcalls⟩
    refine ⟨⟨hfresh.line, hfresh.waiting, ?_, ?_⟩, hcalls⟩
    · rintro ⟨q, hq, hqn⟩
      rcases hmem q hq with ⟨q', hmem', hcaller, _⟩
      exact hfresh.idle ⟨q', hmem', hcaller.trans hqn⟩
    · rintro ⟨x, hx⟩
      exact hfresh.collected ⟨x, ha.settled ▸ hx⟩
  · intro m result version htold hrep
    show version ≤ c.version
    rw [ha.version]
    exact h.versions m result version htold hrep

/-- The first operation has settled; the records are those of `s` or one more,
and then no earlier answer is still to be collected. -/
structure Settled (s : State) (c : CredentialStore.State) (p : Pending)
    (outcome : CredentialStore.Outcome) (rest : List Pending) : Prop where
  queue : s.credentials.queue = p :: rest
  next : c.queue = rest
  settled : c.settled = s.credentials.settled ++ [(p.caller, outcome)]
  kept : c.current = none -> s.credentials.current = none
  grown : s.credentials.version ≤ c.version
  granted : forall basis, grants outcome = some basis -> basis = c.version
  older : forall n x basis, (n, x) ∈ s.credentials.settled ->
    grants x = some basis -> basis = c.version
  replaced : forall version, replaces outcome = some version ->
    version ≤ c.version
  verified : forall version,
    outcome = CredentialStore.Outcome.verified true version ->
      forall pw, p.job ≠ Job.enroll pw

theorem Core.settled {next : Nat} {s : State} {c : CredentialStore.State}
    {p : Pending} {outcome : CredentialStore.Outcome} {rest : List Pending}
    {draining : Bool} (h : Core next s) (hs : Settled s c p outcome rest)
    (hdraining : draining = true ∨
      draining = s.draining ∧ c.current = s.credentials.current) :
    Core next (State.withStore s c draining) := by
  have hp : p ∈ s.credentials.queue := by
    rw [hs.queue]
    exact List.mem_cons_self
  have hrest : forall q, q ∈ c.queue -> q ∈ s.credentials.queue := by
    intro q hq
    rw [hs.queue]
    rw [hs.next] at hq
    exact List.mem_cons_of_mem _ hq
  have hqueued : forall q, q ∈ c.queue -> q.stage = Stage.queued := by
    intro q hq
    apply h.store.started q
    rw [hs.queue, ← hs.next]
    exact hq
  have hmem : forall n x, (n, x) ∈ c.settled ->
      (n, x) ∈ s.credentials.settled ∨ n = p.caller ∧ x = outcome := by
    intro n x hx
    rw [hs.settled] at hx
    rcases List.mem_append.mp hx with hx | hx
    · exact Or.inl hx
    · cases List.mem_singleton.mp hx
      exact Or.inr ⟨rfl, rfl⟩
  have honce := h.store.once
  rw [hs.queue] at honce
  rcases List.nodup_cons.mp honce with ⟨hapart, honce⟩
  have hfifo := h.fifo
  rw [hs.queue] at hfifo
  rcases List.pairwise_cons.mp hfifo with ⟨hhead, hfifo⟩
  have hstore : Queue c := by
    constructor
    · rw [hs.next]
      exact honce
    · intro q hq
      exact hqueued q (List.mem_of_mem_tail hq)
    · intro q hq record version hstage
      rw [hqueued q hq] at hstage
      cases hstage
    · rintro q hq ⟨x, hx⟩
      rcases hmem _ x hx with hx | ⟨heq, _⟩
      · exact h.store.apart q (hrest q hq) ⟨x, hx⟩
      · apply hapart
        rw [← heq]
        exact List.mem_map.mpr ⟨q, hs.next ▸ hq, rfl⟩
    · intro n x version hx hgx
      rcases hmem n x hx with hx | ⟨_, rfl⟩
      · exact hs.older n x version hx hgx
      · exact hs.granted version hgx
    · intro n x version hx hrx
      rcases hmem n x hx with hx | ⟨_, rfl⟩
      · exact Nat.le_trans (h.store.replaced n x version hx hrx) hs.grown
      · exact hs.replaced version hrx
  refine ⟨h.order, h.once, hstore, ?_, ?_, ?_, ?_, ?_, h.entries, ?_⟩
  · show c.queue.Pairwise _
    rw [hs.next]
    exact hfifo
  · intro n x basis hx hgx hn q hq hql
    rcases hmem n x hx with hx | ⟨rfl, rfl⟩
    · exact h.ahead n x basis hx hgx hn q (hrest q hq) hql
    · exact hhead q (hs.next ▸ hq) hn hql
  · intro hearly
    have henroll : Enrolling s := by
      apply h.early
      rcases hearly with hnone | hsetup
      · exact Or.inl (hs.kept hnone)
      · exact Or.inr hsetup
    refine ⟨henroll.line, fun q hq => henroll.jobs q (hrest q hq), ?_⟩
    intro n version hx
    rcases hmem n _ hx with hx | ⟨_, heq⟩
    · exact henroll.unverified n version hx
    · rcases henroll.jobs p hp with ⟨pw, hpw⟩
      exact hs.verified version heq.symm pw hpw
  · intro n hn hsome
    refine ⟨?_, hqueued⟩
    rcases hdraining with hdraining | ⟨hdraining, hcurrent⟩
    · exact hdraining
    · have hsome' : s.credentials.current.isSome = true := hcurrent ▸ hsome
      exact hdraining.trans (h.settling n hn hsome').1
  · intro n hn
    rcases h.fresh n hn with ⟨hfresh, hcalls⟩
    refine ⟨⟨hfresh.line, hfresh.waiting, ?_, ?_⟩, hcalls⟩
    · rintro ⟨q, hq, hqn⟩
      exact hfresh.idle ⟨q, hrest q hq, hqn⟩
    · rintro ⟨x, hx⟩
      rcases hmem n x hx with hx | ⟨rfl, _⟩
      · exact hfresh.collected ⟨x, hx⟩
      · exact hfresh.idle ⟨p, hp, rfl⟩
  · intro m result version htold hrep
    exact Nat.le_trans (h.versions m result version htold hrep) hs.grown

theorem Local.advance {n : Nat} {s : State} {c : CredentialStore.State}
    {p : Pending} {stage : Stage} {rest : List Pending} {draining : Bool}
    (h : Local s n) (ha : Advanced s.credentials c p stage rest) :
    Local (State.withStore s c draining) n := by
  have hpends : Pends s.credentials n -> Pends c n := by
    rintro ⟨q, hq, hqn⟩
    rw [ha.queue] at hq
    rcases List.mem_cons.mp hq with rfl | hq
    · refine ⟨{ q with stage := stage }, ?_, hqn⟩
      rw [ha.next]
      exact List.mem_cons_self
    · refine ⟨q, ?_, hqn⟩
      rw [ha.next]
      exact List.mem_cons_of_mem _ hq
  have hsettles : Settles s.credentials n <-> Settles c n := by
    unfold Settles
    rw [ha.settled]
  refine ⟨h.place, ?_, fun hset => h.owed (hsettles.mpr hset), ?_, ?_⟩
  · intro q hq hqn
    have hq' : q ∈ { p with stage := stage } :: rest := ha.next ▸ hq
    rcases List.mem_cons.mp hq' with rfl | hq'
    · exact h.jobs p (by rw [ha.queue]; exact List.mem_cons_self) hqn
    · exact h.jobs q (by rw [ha.queue]; exact List.mem_cons_of_mem _ hq') hqn
  · intro hline
    exact (h.login hline).imp hpends hsettles.mp
  · intro call hcall hmem
    exact (h.asked call hcall hmem).imp hpends hsettles.mp

theorem Local.settled {n : Nat} {s : State} {c : CredentialStore.State}
    {p : Pending} {outcome : CredentialStore.Outcome} {rest : List Pending}
    {draining : Bool} (h : Local s n) (hs : Settled s c p outcome rest) :
    Local (State.withStore s c draining) n := by
  have hp : p ∈ s.credentials.queue := by
    rw [hs.queue]
    exact List.mem_cons_self
  have hwaits : Pends s.credentials n ∨ Settles s.credentials n ->
      Pends c n ∨ Settles c n := by
    rintro (⟨q, hq, hqn⟩ | ⟨x, hx⟩)
    · rw [hs.queue] at hq
      rcases List.mem_cons.mp hq with rfl | hq
      · refine Or.inr ⟨outcome, ?_⟩
        rw [hs.settled, ← hqn]
        exact List.mem_append_right _ List.mem_cons_self
      · exact Or.inl ⟨q, by rw [hs.next]; exact hq, hqn⟩
    · refine Or.inr ⟨x, ?_⟩
      rw [hs.settled]
      exact List.mem_append_left _ hx
  refine ⟨h.place, ?_, ?_, fun hline => hwaits (h.login hline),
    fun call hcall hmem => hwaits (h.asked call hcall hmem)⟩
  · intro q hq hqn
    apply h.jobs q _ hqn
    rw [hs.queue, ← hs.next]
    exact List.mem_cons_of_mem _ hq
  · rintro ⟨x, hx⟩
    have hx' : (n, x) ∈ s.credentials.settled ++ [(p.caller, outcome)] :=
      hs.settled ▸ hx
    rcases List.mem_append.mp hx' with hx' | hx'
    · exact h.owed ⟨x, hx'⟩
    · cases List.mem_singleton.mp hx'
      exact (h.jobs p hp rfl).owed

/-- The invariant: the queues are in order, and every operation that does not
run has its place in them. -/
structure Queues (next : Nat) (s : State) : Prop where
  core : Core next s
  locals : forall n, n ∈ s.calls ∨ Local s n

theorem Quiescent.local {next n : Nat} {s : State} (hquiet : Quiescent s)
    (h : Queues next s) : Local s n := by
  rcases h.locals n with hcalls | hlocal
  · rw [hquiet.calls] at hcalls
    exact absurd hcalls List.not_mem_nil
  · exact hlocal

theorem isFirst_head {n : Nat} {slot : Slot} {s : State}
    {rest : List (Nat × Slot)} (h : s.line = (n, slot) :: rest) :
    isFirst s n = true := by
  unfold isFirst
  rw [h]
  simp

/-- When nothing can run, the first operation of the line waits for the
credential store, which has its job in the queue. -/
theorem Quiescent.head {next n : Nat} {slot : Slot} {s : State}
    {rest : List (Nat × Slot)} (hquiet : Quiescent s) (h : Queues next s)
    (hline : s.line = (n, slot) :: rest) : Pends s.credentials n := by
  have hlocal : Local s n := hquiet.local h
  have hmem : (n, slot) ∈ s.line := by
    rw [hline]
    exact List.mem_cons_self
  have hunready : forall c : PortCall, c.credential = true ->
      (n, c) ∈ s.waiting -> ready s n c =
        (s.credentials.settled.lookup n).isSome -> Pends s.credentials n := by
    intro c hc hw hready
    rcases hlocal.asked c hc hw with hpends | ⟨x, hx⟩
    · exact hpends
    · have hbusy := hquiet.parked n c hw
      rw [hready, lookup_isSome hx] at hbusy
      cases hbusy
  rcases hlocal.place slot hmem with hturn | ⟨_, hasks⟩
  · have hbusy := hquiet.parked n _ hturn
    rw [show ready s n PortCall.turn = isFirst s n from rfl,
      isFirst_head hline] at hbusy
    cases hbusy
  · cases slot with
    | bootstrap => exact hasks.elim
    | login => exact hunready _ rfl hasks rfl
    | setup =>
        rcases hasks with ⟨pw, hpw⟩
        exact hunready _ rfl hpw rfl

theorem Core.head_lt {next n m : Nat} {slot k : Slot} {s : State}
    {rest : List (Nat × Slot)} (h : Core next s)
    (hline : s.line = (n, slot) :: rest) (hm : (m, k) ∈ s.line) (hne : m ≠ n) :
    n < m := by
  have horder := h.order
  rw [hline] at horder hm
  rcases List.mem_cons.mp hm with hm | hm
  · cases hm
    exact absurd rfl hne
  · exact (List.pairwise_cons.mp horder).1 m (List.mem_map.mpr ⟨_, hm, rfl⟩)

theorem Quiescent.no_grants {next : Nat} {s : State} (hquiet : Quiescent s)
    (h : Queues next s) {n basis : Nat} {outcome : CredentialStore.Outcome}
    (hset : (n, outcome) ∈ s.credentials.settled) :
    grants outcome ≠ some basis := by
  intro hgrant
  have hlocal : Local s n := hquiet.local h
  have hready : forall c : PortCall, (n, c) ∈ s.waiting ->
      ready s n c ≠ (s.credentials.settled.lookup n).isSome := by
    intro c hw hready
    have hbusy := hquiet.parked n c hw
    rw [hready, lookup_isSome hset] at hbusy
    cases hbusy
  rcases hlocal.owed ⟨outcome, hset⟩ with hlogin | ⟨c, hc, hw⟩
  · -- a login that waits behind the first operation of the line
    cases hline : s.line with
    | nil =>
        rw [hline] at hlogin
        cases hlogin
    | cons x rest =>
        rcases x with ⟨m, slot⟩
        rcases hquiet.head h hline with ⟨p, hp, hpm⟩
        have hne : n ≠ m := by
          rintro rfl
          exact h.core.store.apart p hp ⟨outcome, by rw [hpm]; exact hset⟩
        have hlt := h.core.head_lt hline hlogin hne
        have hmem : (m, slot) ∈ s.line := by
          rw [hline]
          exact List.mem_cons_self
        have hlocal' : Local s m := hquiet.local h
        cases slot with
        | bootstrap =>
            rcases hlocal'.place _ hmem with hturn | ⟨_, hasks⟩
            · have hbusy := hquiet.parked m _ hturn
              rw [show ready s m PortCall.turn = isFirst s m from rfl,
                isFirst_head hline] at hbusy
              cases hbusy
            · exact hasks
        | login =>
            rw [← hpm] at hmem hlt
            exact Nat.lt_asymm hlt
              (h.core.ahead n outcome basis hset hgrant hlogin p hp hmem)
        | setup =>
            cases (h.core.early (Or.inr ⟨m, hmem⟩)).line n _ hlogin
  · cases c with
    | verification => exact hready _ hw rfl
    | enroll pw => exact hready _ hw rfl
    | verify username pw => exact hready _ hw rfl
    | replacePassword pw => exact hready _ hw rfl
    | _ => cases hc

theorem Quiescent.no_setups {next n : Nat} {s : State} (hquiet : Quiescent s)
    (h : Queues next s) (hsome : s.credentials.current.isSome = true) :
    (n, Slot.setup) ∉ s.line := by
  intro hsetup
  have hqueued := (h.core.settling n hsetup hsome).2
  cases hline : s.line with
  | nil =>
      rw [hline] at hsetup
      cases hsetup
  | cons x rest =>
      rcases x with ⟨m, slot⟩
      rcases hquiet.head h hline with ⟨p, hp, _⟩
      have hstart := hquiet.start
      unfold CredentialStore.State.start at hstart
      cases hqueue : s.credentials.queue with
      | nil =>
          rw [hqueue] at hp
          cases hp
      | cons q others =>
          have hq := hqueued q (by rw [hqueue]; exact List.mem_cons_self)
          rcases q with ⟨caller, job, stage⟩
          cases hq
          rw [hqueue] at hstart
          cases hstart

theorem Queues.settled {next : Nat} {s : State} {c : CredentialStore.State}
    {p : Pending} {outcome : CredentialStore.Outcome} {rest : List Pending}
    {draining : Bool} (h : Queues next s) (hs : Settled s c p outcome rest)
    (hdraining : draining = true ∨
      draining = s.draining ∧ c.current = s.credentials.current) :
    Queues next (State.withStore s c draining) :=
  ⟨h.core.settled hs hdraining, fun n => (h.locals n).imp id (·.settled hs)⟩

theorem Finished.settles {s : State} {c : CredentialStore.State} {p : Pending}
    {outcome : CredentialStore.Outcome} {rest : List Pending} {next : Nat}
    (hf : Finished s.credentials c p outcome rest) (h : Core next s)
    (hgrant : forall version, grants outcome = some version ->
      (exists username password, p.job = Job.verify username password) ∧
        version = s.credentials.version)
    (hreplace : forall version, replaces outcome = some version ->
      version = s.credentials.version) :
    Settled s c p outcome rest := by
  refine ⟨hf.queue, hf.next, hf.settled, fun hnone => hf.current ▸ hnone,
    Nat.le_of_eq hf.version.symm, ?_, ?_, ?_, ?_⟩
  · intro basis hbasis
    rw [hf.version]
    exact (hgrant basis hbasis).2
  · intro n x basis hx hgx
    rw [hf.version]
    exact h.store.current n x basis hx hgx
  · intro version hversion
    rw [hf.version, hreplace version hversion]
  · rintro version rfl pw hpw
    rcases (hgrant version rfl).1 with ⟨username, password, hjob⟩
    rw [hpw] at hjob
    cases hjob

theorem Queues.store_step {next : Nat} {s : State} {c : CredentialStore.State}
    {draining : Bool} (h : Queues next s) (hstep : StoreStep s c draining) :
    Queues next (State.withStore s c draining) := by
  cases hstep with
  | start hcalls hstart =>
      rcases start_cases hstart with ⟨p, rest, hqueued,
        ⟨outcome, hf, hgrant, hreplace⟩ | ⟨stage, ha, hstage, hphase⟩⟩
      · have hs : Settled s c p outcome rest := by
          apply hf.settles h.core
          · intro version hversion
            rw [hgrant] at hversion
            cases hversion
          · intro version hversion
            rw [hreplace] at hversion
            cases hversion
        exact h.settled hs (Or.inr ⟨rfl, hf.current⟩)
      · exact ⟨h.core.advance ha hstage (fun hjob => Or.inl (hphase hjob)) id,
          fun n => (h.locals n).imp id (·.advance ha)⟩
  | complete answer hquiet hdraining hcomplete =>
      rcases complete_cases hcomplete with ⟨p, rest,
        ⟨outcome, hf, hgrant, hreplace⟩ | ⟨record, ha⟩ |
        ⟨outcome, hcommit, hverified, hgrant, hreplace⟩⟩
      · have hs : Settled s c p outcome rest := by
          apply hf.settles h.core _ hreplace
          intro version hversion
          rcases hgrant version hversion with ⟨hjob, record, hstage⟩
          refine ⟨hjob, h.core.store.comparing p ?_ record version hstage⟩
          rw [hf.queue]
          exact List.mem_cons_self
        exact h.settled hs (Or.inl rfl)
      · exact ⟨h.core.advance ha nofun (fun _ => Or.inr hdraining)
          (fun _ => rfl), fun n => (h.locals n).imp id (·.advance ha)⟩
      · -- a new record: nobody still holds an answer about the one before
        have hs : Settled s c p outcome rest := by
          refine ⟨hcommit.queue, hcommit.next, hcommit.settled, ?_, ?_, hgrant,
            ?_, ?_, ?_⟩
          · intro hnone
            have hsome := hcommit.current
            rw [hnone] at hsome
            cases hsome
          · rw [hcommit.version]
            exact Nat.le_succ _
          · intro n x basis hx hgx
            exact absurd hgx (hquiet.no_grants h hx)
          · intro version hversion
            exact Nat.le_of_eq (hreplace version hversion)
          · intro version heq
            exact absurd heq (hverified version)
        exact h.settled hs (Or.inl rfl)
  | drained hquiet =>
      have hcore := h.core
      refine ⟨⟨hcore.order, hcore.once, hcore.store, hcore.fifo, hcore.ahead,
        ?_, ?_, ?_, hcore.entries, hcore.versions⟩, ?_⟩
      · intro hearly
        have henroll := hcore.early hearly
        exact ⟨henroll.line, henroll.jobs, henroll.unverified⟩
      · intro n hn hsome
        exact absurd hn (hquiet.no_setups h hsome)
      · intro n hn
        rcases hcore.fresh n hn with ⟨hfresh, hcalls⟩
        exact ⟨⟨hfresh.line, hfresh.waiting, hfresh.idle, hfresh.collected⟩,
          hcalls⟩
      · intro n
        refine (h.locals n).imp id ?_
        intro hlocal
        exact ⟨hlocal.place, hlocal.jobs, hlocal.owed, hlocal.login,
          hlocal.asked⟩

end Passwords
end AuthService
end Server
end FlanTerminal

import FlanTerminal.Foundation.JsString

/-!
# The credential store

The credential store keeps one record, the name and the password hash of the
local user.  Its operations run one after the other: each is appended to a tail
of promises and starts when the one before it has settled.  Between its
synchronous parts an operation waits for the hasher or for the file.

The state below holds the operations in their order, each with what it waits
for, and the promises that have settled.  `start`, `hashed`, `compared` and
`replaced` are the synchronous parts; the last three run when the hasher or the
file has answered, `start` as soon as the operation is the first one.
-/

namespace FlanTerminal
namespace Server
namespace CredentialStore

open Foundation

def MAX_PASSWORD_BYTES : Nat := 72

def MIN_PASSWORD_BYTES : Nat := 12

structure CredentialRecord where
  username : JsString
  passwordHash : JsString
  passwordChangedAt : JsString
  deriving DecidableEq

inductive ReplaceResult where
  | not_committed
  | committed
  | committed_durability_uncertain
  deriving DecidableEq, Repr

inductive EnrollmentResult where
  | enrolled (persistence : ReplaceResult)
  | already_initialized
  | not_committed
  deriving DecidableEq, Repr

def isValidPassword (password : JsString) : Bool :=
  !password.contains 0 &&
    MIN_PASSWORD_BYTES ≤ utf8ByteLength password &&
    utf8ByteLength password ≤ MAX_PASSWORD_BYTES

def isBcryptUnit (u : UInt16) : Bool :=
  u == 46 || u == 47 || (48 ≤ u.toNat && u.toNat ≤ 57) ||
    (65 ≤ u.toNat && u.toNat ≤ 90) || (97 ≤ u.toNat && u.toNat ≤ 122)

/-- The cost in a hash of the form `$2a$12$...`. -/
def bcryptCost (hash : JsString) : Option Nat :=
  match hash with
  | 36 :: 50 :: version :: 36 :: 49 :: digit :: 36 :: rest =>
      if (version = 97 ∨ version = 98) ∧ 48 ≤ digit.toNat ∧ digit.toNat ≤ 53 ∧
          rest.length = 53 ∧ rest.all isBcryptUnit = true then
        some (10 + (digit.toNat - 48))
      else none
  | _ => none

inductive Job where
  | enroll (password : JsString)
  | verify (username password : JsString)
  | replacePassword (newPassword : JsString)
  deriving DecidableEq

/-- What the promise of an operation settles with.  `version` counts the
records: it is the one a password was compared with, or the one committed. -/
inductive Outcome where
  | enrollment (r : EnrollmentResult) (version : Nat)
  | verified (valid : Bool) (version : Nat)
  | replacement (r : ReplaceResult) (version : Nat)
  | failed
  deriving DecidableEq

inductive Stage where
  | queued
  | hashing (username : JsString)
  | comparing (record : CredentialRecord) (version : Nat)
  | replacing (next : CredentialRecord)
  deriving DecidableEq

structure Pending where
  caller : Nat
  job : Job
  stage : Stage
  deriving DecidableEq

structure State where
  current : Option CredentialRecord
  username : JsString
  cost : Nat
  initializationComplete : Bool
  queue : List Pending
  settled : List (Nat × Outcome)
  version : Nat

/-- `isInitialized`; `none` is the exception. -/
def State.isInitialized (s : State) : Option Bool :=
  if s.initializationComplete then some s.current.isSome else none

def State.settle (s : State) (n : Nat) (outcome : Outcome) : State :=
  { s with settled := s.settled ++ [(n, outcome)] }

def State.enqueue (s : State) (n : Nat) (job : Job) : State :=
  { s with queue := s.queue ++ [⟨n, job, Stage.queued⟩] }

/-- The part of `enroll`, `verify` and `replacePassword` that runs at once. -/
def State.submit (s : State) (n : Nat) (job : Job) : State :=
  match job with
  | Job.enroll _ =>
      if s.initializationComplete then s.enqueue n job
      else s.settle n Outcome.failed
  | Job.verify _ password =>
      if s.current.isNone then s.settle n Outcome.failed
      else if !isValidPassword password then
        s.settle n (Outcome.verified false s.version)
      else s.enqueue n job
  | Job.replacePassword newPassword =>
      if s.current.isNone then s.settle n Outcome.failed
      else if !isValidPassword newPassword then s.settle n Outcome.failed
      else s.enqueue n job

def State.finish (s : State) (n : Nat) (outcome : Outcome) : State :=
  { s with queue := s.queue.tail }.settle n outcome

def State.advance (s : State) (n : Nat) (job : Job) (stage : Stage) : State :=
  { s with queue := ⟨n, job, stage⟩ :: s.queue.tail }

def State.start (s : State) : Option State :=
  match s.queue with
  | ⟨n, job, Stage.queued⟩ :: _ =>
      some (match job with
      | Job.enroll password =>
          if !s.initializationComplete then s.finish n Outcome.failed
          else if s.current.isSome then
            s.finish n
              (Outcome.enrollment EnrollmentResult.already_initialized
                s.version)
          else if !isValidPassword password then s.finish n Outcome.failed
          else s.advance n job (Stage.hashing s.username)
      | Job.verify _ _ =>
          match s.current with
          | none => s.finish n Outcome.failed
          | some record => s.advance n job (Stage.comparing record s.version)
      | Job.replacePassword _ =>
          match s.current with
          | none => s.finish n Outcome.failed
          | some prior => s.advance n job (Stage.hashing prior.username))
  | _ => none

/-- The hasher has answered, and the clock has been read; a missing answer is
an exception. -/
def State.hashed (s : State) (passwordHash now : Option JsString) :
    Option State :=
  match s.queue with
  | ⟨n, job, Stage.hashing username⟩ :: _ =>
      some (match passwordHash, now with
      | some h, some t =>
          if bcryptCost h = some s.cost then
            s.advance n job (Stage.replacing ⟨username, h, t⟩)
          else s.finish n Outcome.failed
      | _, _ => s.finish n Outcome.failed)
  | _ => none

def State.compared (s : State) (answer : Option Bool) : Option State :=
  match s.queue with
  | ⟨n, Job.verify username _, Stage.comparing record version⟩ :: _ =>
      some (match answer with
      | some b =>
          s.finish n
            (Outcome.verified (b && username == record.username) version)
      | none => s.finish n Outcome.failed)
  | _ => none

def State.commit (s : State) (next : CredentialRecord) : State :=
  { s with current := some next, version := s.version + 1 }

def State.replaced (s : State) (result : Option ReplaceResult) :
    Option State :=
  match s.queue with
  | ⟨n, Job.enroll _, Stage.replacing next⟩ :: _ =>
      some (match result with
      | none => s.finish n Outcome.failed
      | some ReplaceResult.not_committed =>
          s.finish n
            (Outcome.enrollment EnrollmentResult.not_committed s.version)
      | some r =>
          (s.commit next).finish n
            (Outcome.enrollment (EnrollmentResult.enrolled r) (s.version + 1)))
  | ⟨n, Job.replacePassword _, Stage.replacing next⟩ :: _ =>
      some (match result with
      | none => s.finish n Outcome.failed
      | some ReplaceResult.not_committed =>
          s.finish n
            (Outcome.replacement ReplaceResult.not_committed s.version)
      | some r =>
          (s.commit next).finish n (Outcome.replacement r (s.version + 1)))
  | _ => none

inductive Answer where
  | hash (passwordHash now : Option JsString)
  | compare (answer : Option Bool)
  | replace (result : Option ReplaceResult)

def State.complete (s : State) : Answer -> Option State
  | Answer.hash passwordHash now => s.hashed passwordHash now
  | Answer.compare answer => s.compared answer
  | Answer.replace result => s.replaced result

end CredentialStore
end Server
end FlanTerminal

import FlanTerminal.Foundation.EventLoop
import FlanTerminal.Foundation.JsMap
import FlanTerminal.Server.CredentialStore
import Mathlib.Data.Rat.Defs
import Mathlib.Order.WithBot

/-!
# The authentication service

The authentication service holds the sessions of all browsers.  A session is a
mutable object that two maps point to, one under the session's id and one under
the hash of its cookie.  Sessions are established by operations that wait in
one queue; every other operation runs at once, except the change of the
password.

Observers of revocations are called in the middle of an operation and may start
further operations.  The clock, the random source, the CSRF service, the
limiter and the credential store do not call back.
-/

namespace FlanTerminal
namespace Server
namespace AuthService

open Foundation
open CredentialStore (ReplaceResult EnrollmentResult)

inductive AuthMode where
  | none
  | local
  | cloudflare_access
  | trusted_header
  deriving DecidableEq, Repr

inductive RevocationReason where
  | capacity
  | idle
  | absolute
  | upstream
  | logout
  | password_changed
  deriving DecidableEq, Repr

/-- A session object is known by the place where it was allocated. -/
abbrev Ref := Nat

/-- A CSRF record is an object without fields. -/
abbrev CsrfRecord := Nat

structure Stored where
  id : JsString
  generation : Nat
  mode : AuthMode
  identityLabel : JsString
  createdAt : ℚ
  lastSeen : ℚ
  idleExpiresAt : ℚ
  absoluteExpiresAt : ℚ
  upstreamExpiresAt : Option ℚ
  csrf : CsrfRecord
  digest : JsString

structure UpstreamIdentity where
  mode : AuthMode
  identityLabel : JsString
  /-- `none` inside is a number that is not finite. -/
  expiresAt : Option (Option ℚ)

inductive UpstreamAuthentication where
  | none
  | upstream (identity : UpstreamIdentity)

inductive Activity where
  | http
  | terminal_input
  | other
  deriving DecidableEq, Repr

/-- `hash`, the normalisation of Unicode text and the order of texts in the
locale are taken as they are. -/
structure Options where
  mode : AuthMode
  localUsername : JsString
  idle : ℚ
  absolute : ℚ
  max : Nat
  observerMax : Nat
  hash : JsString -> JsString
  normalize : JsString -> JsString
  localeCompare : JsString -> JsString -> Ordering
  idle_pos : 0 < idle
  absolute_pos : 0 < absolute
  max_pos : 1 ≤ max
  max_le : max ≤ 256

def MIN_PENDING_ESTABLISHMENTS : Nat := 8

def MAX_PENDING_ESTABLISHMENTS : Nat := 256

def Options.maxPendingEstablishments (o : Options) : Nat :=
  min MAX_PENDING_ESTABLISHMENTS (Nat.max MIN_PENDING_ESTABLISHMENTS o.max)

/-!
## Texts
-/

def base64Unit (n : Nat) : UInt16 :=
  if n < 26 then UInt16.ofNat (65 + n)
  else if n < 52 then UInt16.ofNat (97 + (n - 26))
  else if n < 62 then UInt16.ofNat (48 + (n - 52))
  else if n = 62 then 45 else 95

/-- `Buffer.from(bytes).toString('base64url')`. -/
def base64url : List UInt8 -> JsString
  | [] => []
  | [a] => [base64Unit (a.toNat / 4), base64Unit (a.toNat % 4 * 16)]
  | [a, b] =>
      [base64Unit (a.toNat / 4), base64Unit (a.toNat % 4 * 16 + b.toNat / 16),
        base64Unit (b.toNat % 16 * 4)]
  | a :: b :: c :: rest =>
      base64Unit (a.toNat / 4) ::
        base64Unit (a.toNat % 4 * 16 + b.toNat / 16) ::
        base64Unit (b.toNat % 16 * 4 + c.toNat / 64) ::
        base64Unit (c.toNat % 64) :: base64url rest

def isCookieUnit (u : UInt16) : Bool :=
  (65 ≤ u.toNat && u.toNat ≤ 90) || (97 ≤ u.toNat && u.toNat ≤ 122) ||
    (48 ≤ u.toNat && u.toNat ≤ 57) || u == 95 || u == 45

/-- `/^[A-Za-z0-9_-]{43}$/`. -/
def isCookie (raw : JsString) : Bool :=
  raw.length == 43 && raw.all isCookieUnit

/-- `normalizeLabel`; `none` is the exception. -/
def normalizeLabel (o : Options) (v : JsString) : Option JsString :=
  let n := o.normalize v
  if n.isEmpty || 128 < utf8ByteLength n ||
      n.any (fun u => u.toNat < 32 || u.toNat == 127) then none
  else some n

def boundedAddress (value : JsString) : JsString :=
  if value.length ≤ 256 then value else js "unknown"

/-- Times that `toISOString` can write. -/
def isDateTime (t : ℚ) : Bool :=
  decide (-8640000000000000 ≤ t ∧ t ≤ 8640000000000000)

/-- `validateIdentity`, with the normalised label and the expiry. -/
def validateIdentity (o : Options) (i : UpstreamIdentity) :
    Option (JsString × Option ℚ) :=
  match normalizeLabel o i.identityLabel with
  | none => none
  | some label =>
      if i.mode ≠ AuthMode.cloudflare_access ∧
          i.mode ≠ AuthMode.trusted_header then none
      else
        match i.expiresAt with
        | none => some (label, none)
        | some none => none
        | some (some t) => if isDateTime t then some (label, some t) else none

/-!
## Sessions
-/

structure Sessions where
  heap : Ref -> Stored
  allocated : Nat
  byId : JsMap JsString Ref
  byDigest : JsMap JsString Ref
  generation : Nat

namespace Sessions

def held (s : Sessions) : List Ref :=
  s.byId.values

def write (s : Sessions) (r : Ref) (f : Stored -> Stored) : Sessions :=
  { s with heap := fun r' => if r' = r then f (s.heap r) else s.heap r' }

/-- `#remove`, when the session's id is there. -/
def remove (s : Sessions) (r : Ref) : Sessions :=
  { s with
    byId := s.byId.delete (s.heap r).id
    byDigest := s.byDigest.delete (s.heap r).digest }.write r
      fun c => { c with digest := [] }

def insert (s : Sessions) (c : Stored) : Sessions :=
  { s with
    heap := fun r => if r = s.allocated then c else s.heap r
    allocated := s.allocated + 1
    byId := s.byId.set c.id s.allocated
    byDigest := s.byDigest.set c.digest s.allocated }

end Sessions

/-- `s.lastSeen = now` and the new idle expiry. -/
def Stored.touch (o : Options) (now : ℚ) (c : Stored) : Stored :=
  { c with
    lastSeen := now
    idleExpiresAt := min c.absoluteExpiresAt (now + o.idle) }

def Stored.refresh (expiresAt : ℚ) (c : Stored) : Stored :=
  { c with upstreamExpiresAt := some expiresAt }

def Stored.setCsrf (record : CsrfRecord) (c : Stored) : Stored :=
  { c with csrf := record }

/-- The candidate that a stable sort by time puts first. -/
def earliest : WithTop ℚ × RevocationReason ->
    List (WithTop ℚ × RevocationReason) -> WithTop ℚ × RevocationReason
  | c, [] => c
  | c, d :: rest => if d.1 < c.1 then earliest d rest else earliest c rest

/-- `s.upstreamExpiresAt ?? Infinity`. -/
def Stored.upstreamLimit (s : Stored) : WithTop ℚ :=
  match s.upstreamExpiresAt with
  | some t => (t : WithTop ℚ)
  | none => ⊤

def Stored.firstLimit (s : Stored) : WithTop ℚ × RevocationReason :=
  earliest ((s.idleExpiresAt : WithTop ℚ), RevocationReason.idle)
    [((s.absoluteExpiresAt : WithTop ℚ), RevocationReason.absolute),
      (s.upstreamLimit, RevocationReason.upstream)]

def expiredReasonAt (s : Stored) (now : ℚ) : Option RevocationReason :=
  if s.firstLimit.1 ≤ (now : WithTop ℚ) then some s.firstLimit.2 else none

structure AuthenticatedSession where
  id : JsString
  mode : AuthMode
  identityLabel : JsString
  createdAt : ℚ
  lastSeen : ℚ
  idleExpiresAt : ℚ
  absoluteExpiresAt : ℚ
  upstreamExpiresAt : Option ℚ

def view (s : Stored) : AuthenticatedSession :=
  ⟨s.id, s.mode, s.identityLabel, s.createdAt, s.lastSeen, s.idleExpiresAt,
    s.absoluteExpiresAt, s.upstreamExpiresAt⟩

/-- The texts of `toISOString` are kept as the times they show. -/
inductive AuthBootstrap where
  | authenticated (mode : AuthMode) (identityLabel csrfToken : JsString)
      (upstreamExpiresAt : Option ℚ)
  | unauthenticated
  | setupRequired (username : JsString)

inductive Failure where
  | authentication_failed
  | rate_limited
  | setup_required
  | already_initialized
  deriving DecidableEq, Repr

structure AuthBootstrapResult where
  bootstrap : AuthBootstrap
  cookieValue : Option JsString
  failure : Option Failure

/-!
## Calls and state
-/

inductive VerificationOutcome where
  | ok (valid : Bool)
  | failed
  deriving DecidableEq, Repr

/-- What `verify` returns at once. -/
inductive Started where
  | value (valid : Bool)
  | promise
  | threw
  deriving DecidableEq, Repr

/-- The session that `clock` is read for and the session that `observer` is
told of are not arguments in the source: only the log reads them. -/
inductive PortCall where
  | clock (checked : Option Ref)
  | random (size : Nat)
  | csrfCreate
  | csrfVerify (record : CsrfRecord) (supplied : Option JsString)
  | consume (address : JsString)
  | resetAddress (address : JsString)
  | isInitialized
  | onDurabilityUncertain
  | startVerify (username password : JsString)
  | observer (r : Ref) (k : Nat) (id : JsString) (reason : RevocationReason)
  | turn
  | verification
  | enroll (password : JsString)
  | verify (username password : JsString)
  | replacePassword (password : JsString)
  | settled
  deriving DecidableEq

/-- A missing answer is an exception, a rejection, or a number that is not
finite.  What observers throw is dropped, so they answer nothing. -/
abbrev PortReply : PortCall -> Type
  | PortCall.clock _ => Option ℚ
  | PortCall.random _ => Option (List UInt8)
  | PortCall.csrfCreate => Option (JsString × CsrfRecord)
  | PortCall.csrfVerify _ _ => Option Bool
  | PortCall.consume _ => Option Bool
  | PortCall.resetAddress _ => Option Unit
  | PortCall.isInitialized => Option Bool
  | PortCall.onDurabilityUncertain => Unit
  | PortCall.startVerify _ _ => Started
  | PortCall.observer _ _ _ _ => Unit
  | PortCall.turn => Unit
  | PortCall.verification => VerificationOutcome
  | PortCall.enroll _ => Option EnrollmentResult
  | PortCall.verify _ _ => Option Bool
  | PortCall.replacePassword _ => Option ReplaceResult
  | PortCall.settled => Unit

def ports : Interface := ⟨PortCall, PortReply⟩

inductive Op where
  | bootstrap (input : UpstreamAuthentication)
  | login (username password address : JsString)
  | setup (password address : JsString)
  | authenticateCookie (rawCookie : Option JsString)
  | authenticateAuthority (rawCookie : Option JsString)
  | isActiveAuthority (id : JsString) (generation : Nat)
  | touchAuthority (id : JsString) (generation : Nat) (activity : Activity)
  | resume (id : JsString)
  | touch (id : JsString) (activity : Activity)
  | refresh (id : JsString) (upstream : UpstreamIdentity)
  | verifyCsrf (id : JsString) (supplied : Option JsString)
  | logout (id : JsString)
  | changePassword (id current replacement : JsString)
  | sweepExpired
  | onRevoked
  | unsubscribe (k : Nat)

inductive Value where
  | undefined
  | flag (b : Bool)
  | session (v : AuthenticatedSession)
  | authority (v : AuthenticatedSession) (generation : Nat)
  | result (r : AuthBootstrapResult)
  | observer (k : Nat)

inductive Thrown where
  | AuthServiceError
  deriving DecidableEq, Repr

/-- What an operation waits in the queue of establishments for. -/
inductive Slot where
  | bootstrap
  | login
  | setup
  deriving DecidableEq, Repr

/-- What happens to sessions and observers, with the number of the operation. -/
inductive Entry where
  | entered (n : Nat) (op : Op)
  | checked (n : Nat) (r : Ref) (now : ℚ) (valid : Bool)
  | touched (n : Nat) (r : Ref) (now : ℚ)
  | refreshed (n : Nat) (r : Ref) (now : ℚ) (expiresAt : ℚ)
  | established (n : Nat) (r : Ref) (cookie : JsString) (cell : Stored)
  | removed (n : Nat) (r : Ref)
  | emitting (n : Nat) (r : Ref) (reason : RevocationReason)
      (observers : List Nat)
  | notified (n : Nat) (r : Ref) (observer : Nat)
  | subscribed (n : Nat) (observer : Nat)
  | unsubscribed (n : Nat) (observer : Nat)
  /-- The answer of the credential store has been received. -/
  | told (n : Nat) (outcome : Option CredentialStore.Outcome)
  | ended (n : Nat) (op : Op) (res : Except Thrown Value)

structure State where
  sessions : Sessions
  observers : List Nat
  nextObserver : Nat
  /-- The operations in the queue of establishments, the first one at work. -/
  line : List (Nat × Slot)
  pendingEstablishments : Int
  pendingLocalAttempts : Int
  passwordChangeActive : Bool
  verifications : List (Nat × VerificationOutcome)
  credentials : CredentialStore.State
  /-- The hasher or the file has answered and what follows has not all run. -/
  draining : Bool
  /-- Operations that are parked, with what they wait for. -/
  waiting : List (Nat × PortCall)
  /-- Operations that have called an observer which has not returned. -/
  calls : List Nat
  /-- Texts made of random bytes so far. -/
  tokens : List JsString
  log : List Entry

def State.record (s : State) (e : Entry) : State :=
  { s with log := s.log ++ [e] }

def State.onSessions (s : State) (f : Sessions -> Sessions) : State :=
  { s with sessions := f s.sessions }

abbrev Code := Prog State ports Thrown

def fail {value : Type} : Code value :=
  throw Thrown.AuthServiceError

def need {value : Type} : Option value -> Code value
  | some a => pure a
  | none => fail

def note (e : Entry) : Code Unit :=
  Prog.modify fun s => s.record e

/-!
## Revocation
-/

def now (checked : Option Ref) : Code ℚ := do
  need (← Prog.ask (I := ports) (PortCall.clock checked))

def expiredReason (r : Ref) : Code (Option RevocationReason) := do
  let t ← now (some r)
  let s ← Prog.read
  pure (expiredReasonAt (s.sessions.heap r) t)

/-- `#remove`.  The log names the session that was found under the id. -/
def remove (n : Nat) (r : Ref) : Code Bool := do
  let s ← Prog.read
  match s.sessions.byId.get (s.sessions.heap r).id with
  | some found => do
      Prog.modify fun s =>
        (s.onSessions (Sessions.remove · r)).record (Entry.removed n found)
      pure true
  | none => pure false

def emitEach (r : Ref) (id : JsString) (reason : RevocationReason) :
    List Nat -> Code Unit
  | [] => pure ()
  | k :: rest => do
      let _ ← Prog.ask (I := ports) (PortCall.observer r k id reason)
      emitEach r id reason rest

/-- `#emitRevocation`; the session itself is only written to the log. -/
def emitRevocation (n : Nat) (r : Ref) (id : JsString)
    (reason : RevocationReason) : Code Unit := do
  let s ← Prog.read
  note (Entry.emitting n r reason s.observers)
  emitEach r id reason s.observers

def revoke (n : Nat) (r : Ref) (reason : RevocationReason) : Code Unit := do
  let removed ← remove n r
  if removed then do
    let s ← Prog.read
    emitRevocation n r (s.sessions.heap r).id reason
  else pure ()

/-- The check that most operations begin with: an expired session is revoked
and the operation gives up. -/
def ifLive {value : Type} (n : Nat) (r : Ref) (failed : value)
    (k : Code value) : Code value := do
  match ← expiredReason r with
  | some reason => do
      revoke n r reason
      pure failed
  | none => k

/-!
## Establishing a session
-/

def token (size : Nat) : Code JsString := do
  let bytes ← need (← Prog.ask (I := ports) (PortCall.random size))
  if bytes.length ≠ size then fail else pure (base64url bytes)

def freshCookie (o : Options) : Nat -> Code (Option (JsString × JsString))
  | 0 => pure none
  | attempts + 1 => do
      let cookie ← token 32
      let digest := o.hash cookie
      let s ← Prog.read
      if s.sessions.byDigest.has digest then freshCookie o attempts
      else pure (some (cookie, digest))

def freshId : Nat -> Code (Option JsString)
  | 0 => pure none
  | attempts + 1 => do
      let id ← token 16
      let s ← Prog.read
      if s.sessions.byId.has id then freshId attempts else pure (some id)

/-- The largest safe integer is 2^53 - 1; beyond it adding one has no effect. -/
def nextGeneration : Code Nat := do
  let s ← Prog.read
  let g := min (s.sessions.generation + 1) (2 ^ 53)
  Prog.modify fun s => s.onSessions fun t => { t with generation := g }
  if g < 2 ^ 53 then pure g else fail

structure PreparedSession where
  session : Stored
  cookie : JsString
  result : AuthBootstrapResult

def prepareSession (o : Options) (mode : AuthMode) (label : JsString)
    (upstreamExpiresAt : Option ℚ) : Code PreparedSession := do
  let t ← now none
  let cookie ← freshCookie o 8
  let id ← freshId 8
  match cookie, id with
  | some (cookie, digest), some id => do
      let issued ← need (← Prog.ask (I := ports) PortCall.csrfCreate)
      let generation ← nextGeneration
      let identityLabel ← need (normalizeLabel o label)
      let session : Stored :=
        { id := id, generation := generation, mode := mode
          identityLabel := identityLabel, createdAt := t, lastSeen := t
          idleExpiresAt := min (t + o.idle) (t + o.absolute)
          absoluteExpiresAt := t + o.absolute
          upstreamExpiresAt := upstreamExpiresAt, csrf := issued.2
          digest := digest }
      if upstreamExpiresAt.all isDateTime then
        pure ⟨session, cookie,
          ⟨AuthBootstrap.authenticated mode identityLabel issued.1
            upstreamExpiresAt, some cookie, none⟩⟩
      else fail
  | _, _ => fail

/-- Whether the comparison of the sort puts `a` before `b`. -/
def olderThan (o : Options) (a b : Stored) : Bool :=
  if a.lastSeen ≠ b.lastSeen then decide (a.lastSeen < b.lastSeen)
  else if a.createdAt ≠ b.createdAt then decide (a.createdAt < b.createdAt)
  else o.localeCompare a.id b.id == Ordering.lt

def oldest (o : Options) (heap : Ref -> Stored) : Ref -> List Ref -> Ref
  | r, [] => r
  | r, x :: rest =>
      if olderThan o (heap x) (heap r) then oldest o heap x rest
      else oldest o heap r rest

def Sessions.expiredAt (s : Sessions) (t : ℚ) :
    List (Ref × RevocationReason) :=
  s.held.filterMap fun r =>
    (expiredReasonAt (s.heap r) t).map fun reason => (r, reason)

def Sessions.activeAt (s : Sessions) (t : ℚ) : List Ref :=
  s.held.filter fun r => (expiredReasonAt (s.heap r) t).isNone

/-- The sessions a new one displaces: those that are expired, in the order of
the map, and the oldest other one when there is no room. -/
def displaced (o : Options) (s : Sessions) (t : ℚ) :
    List (Ref × RevocationReason) :=
  match s.activeAt t with
  | [] => s.expiredAt t
  | r :: rest =>
      if o.max ≤ (r :: rest).length then
        s.expiredAt t ++ [(oldest o s.heap r rest, RevocationReason.capacity)]
      else s.expiredAt t

def removeEach (n : Nat) : List (Ref × RevocationReason) -> Code Unit
  | [] => pure ()
  | (r, _) :: rest => do
      let _ ← remove n r
      removeEach n rest

def emitAll (n : Nat) : List (Ref × RevocationReason) -> Code Unit
  | [] => pure ()
  | (r, reason) :: rest => do
      let s ← Prog.read
      emitRevocation n r (s.sessions.heap r).id reason
      emitAll n rest

def commitSession (o : Options) (n : Nat) (prepared : PreparedSession)
    (beforeCommit : Code Unit) : Code AuthBootstrapResult := do
  let s ← Prog.read
  if s.sessions.byDigest.has prepared.session.digest ||
      s.sessions.byId.has prepared.session.id then fail
  else do
    let t ← now none
    let s ← Prog.read
    let revocations := displaced o s.sessions t
    beforeCommit
    removeEach n revocations
    Prog.modify fun s =>
      (s.onSessions (Sessions.insert · prepared.session)).record
        (Entry.established n s.sessions.allocated prepared.cookie
          prepared.session)
    emitAll n revocations
    pure prepared.result

/-- `#safeEstablish`; all errors are alike, so there is nothing to wrap. -/
def safeEstablish (o : Options) (n : Nat) (mode : AuthMode) (label : JsString)
    (upstreamExpiresAt : Option ℚ) (beforeCommit : Code Unit) :
    Code AuthBootstrapResult := do
  let prepared ← prepareSession o mode label upstreamExpiresAt
  commitSession o n prepared beforeCommit

/-!
## The queue of establishments

`#enqueueEstablishment` appends to a tail of promises: an operation has its
turn when all operations before it have settled.
-/

def reserveTurn (n : Nat) (slot : Slot) : Code Unit :=
  Prog.modify fun s => { s with line := s.line ++ [(n, slot)] }

def inTurn {value : Type} (operation : Code value) : Code value := do
  let _ ← Prog.ask (I := ports) PortCall.turn
  Prog.always operation
    (Prog.modify fun s => { s with line := s.line.tail })

def reserveEstablishment (o : Options) : Code Bool := do
  let s ← Prog.read
  if (o.maxPendingEstablishments : Int) ≤ s.pendingEstablishments then
    pure false
  else do
    Prog.modify fun s =>
      { s with pendingEstablishments := s.pendingEstablishments + 1 }
    pure true

def releaseEstablishment : Code Unit :=
  Prog.modify fun s =>
    { s with pendingEstablishments := s.pendingEstablishments - 1 }

/-- What is attached to a promise with `finally` runs after it has settled. -/
def thenFinally {value : Type} (p : Code value) (q : Code Unit) : Code value :=
  Prog.always p do
    let _ ← Prog.ask (I := ports) PortCall.settled
    q

def releaseLocal : Code Unit := do
  Prog.modify fun s =>
    { s with pendingLocalAttempts := s.pendingLocalAttempts - 1 }
  releaseEstablishment

def localBootstrap (o : Options) (setupRequired : Option Bool) :
    Code AuthBootstrap := do
  let required ← match setupRequired with
    | some b => pure b
    | none => do
        let initialized ←
          need (← Prog.ask (I := ports) PortCall.isInitialized)
        pure (!initialized)
  pure (if required then AuthBootstrap.setupRequired o.localUsername
    else AuthBootstrap.unauthenticated)

def localFailure (failure : Failure) (bootstrap : AuthBootstrap) : Value :=
  Value.result ⟨bootstrap, none, some failure⟩

def localLoginFailure (failure : Failure) : Value :=
  localFailure failure AuthBootstrap.unauthenticated

/-- An upstream identity of the mode of the service. -/
def establishIdentity (o : Options) (n : Nat) (mode : AuthMode)
    (identity : UpstreamIdentity) : Code Value := do
  if identity.mode ≠ mode then fail
  else do
    let (label, expiresAt) ← need (validateIdentity o identity)
    match expiresAt with
    | none =>
        if mode = AuthMode.cloudflare_access then fail
        else do
          let r ← safeEstablish o n mode label none (pure ())
          pure (Value.result r)
    | some e => do
        let t ← now none
        if e ≤ t then fail
        else do
          let r ← safeEstablish o n mode label (some e) (pure ())
          pure (Value.result r)

def establishUpstream (o : Options) (n : Nat) (input : UpstreamAuthentication) :
    Code Value := do
  match o.mode, input with
  | AuthMode.local, UpstreamAuthentication.none => do
      let b ← localBootstrap o none
      pure (Value.result ⟨b, none, none⟩)
  | AuthMode.none, UpstreamAuthentication.none => do
      let r ← safeEstablish o n AuthMode.none (js "anonymous") none (pure ())
      pure (Value.result r)
  | AuthMode.local, _ => fail
  | AuthMode.none, _ => fail
  | _, UpstreamAuthentication.none => fail
  | mode, UpstreamAuthentication.upstream identity =>
      establishIdentity o n mode identity

def bootstrap (o : Options) (n : Nat) (input : UpstreamAuthentication) :
    Code Value := do
  let reserved ← reserveEstablishment o
  if !reserved then fail
  else do
    reserveTurn n Slot.bootstrap
    thenFinally (inTurn (establishUpstream o n input))
      releaseEstablishment

def resolveVerification (n : Nat) (outcome : VerificationOutcome) : Code Unit :=
  Prog.modify fun s =>
    { s with verifications := s.verifications ++ [(n, outcome)] }

def resetLimiter (address : JsString) : Code Unit := do
  need (← Prog.ask (I := ports) (PortCall.resetAddress address))

def completeLoginSlot (o : Options) (n : Nat) (label address : JsString) :
    Code Value := do
  match ← Prog.ask (I := ports) PortCall.verification with
  | VerificationOutcome.failed => fail
  | VerificationOutcome.ok false =>
      pure (localLoginFailure Failure.authentication_failed)
  | VerificationOutcome.ok true => do
      let r ← safeEstablish o n AuthMode.local label none
        (resetLimiter address)
      pure (Value.result r)

/-- The slot in the queue is reserved before the verification starts. -/
def verifyAndEstablish (o : Options) (n : Nat)
    (username password label address : JsString) : Code Value := do
  reserveTurn n Slot.login
  match ← Prog.ask (I := ports) (PortCall.startVerify username password) with
  | Started.value valid =>
      resolveVerification n (VerificationOutcome.ok valid)
  | Started.promise => pure ()
  | Started.threw => resolveVerification n VerificationOutcome.failed
  thenFinally (inTurn (completeLoginSlot o n label address))
    releaseLocal

/-- The limiter is asked after a place in the queue is reserved. -/
def consumeAndVerify (o : Options) (n : Nat)
    (username password label address : JsString) : Code Value := do
  match ← Prog.ask (I := ports) (PortCall.consume address) with
  | none => do
      releaseEstablishment
      fail
  | some false => do
      releaseEstablishment
      pure (localLoginFailure Failure.rate_limited)
  | some true => do
      Prog.modify fun s =>
        { s with pendingLocalAttempts := s.pendingLocalAttempts + 1 }
      verifyAndEstablish o n username password label address

/-- `login`, when a password has been set. -/
def attemptLogin (o : Options) (n : Nat)
    (username password address : JsString) : Code Value := do
  let s ← Prog.read
  if (o.max : Int) ≤ s.pendingLocalAttempts then
    pure (localLoginFailure Failure.rate_limited)
  else do
    let reserved ← reserveEstablishment o
    if !reserved then pure (localLoginFailure Failure.rate_limited)
    else
      match normalizeLabel o username with
      | none => do
          releaseEstablishment
          fail
      | some label =>
          consumeAndVerify o n username password label (boundedAddress address)

def login (o : Options) (n : Nat) (username password address : JsString) :
    Code Value := do
  if o.mode ≠ AuthMode.local then fail
  else do
    let initialized ← need (← Prog.ask (I := ports) PortCall.isInitialized)
    if !initialized then do
      let b ← localBootstrap o (some true)
      pure (localFailure Failure.setup_required b)
    else attemptLogin o n username password address

def completeSetup (o : Options) (n : Nat) (password address : JsString) :
    Code Value := do
  match ← Prog.ask (I := ports) (PortCall.enroll password) with
  | none => fail
  | some EnrollmentResult.already_initialized => do
      let b ← localBootstrap o (some false)
      pure (localFailure Failure.already_initialized b)
  | some EnrollmentResult.not_committed => fail
  | some (EnrollmentResult.enrolled persistence) => do
      if persistence = ReplaceResult.committed_durability_uncertain then do
        let _ ← Prog.ask (I := ports) PortCall.onDurabilityUncertain
        pure ()
      else pure ()
      let r ← safeEstablish o n AuthMode.local o.localUsername none
        (resetLimiter address)
      pure (Value.result r)

def setupLimited (o : Options) : Code Value := do
  let b ← localBootstrap o (some true)
  pure (localFailure Failure.rate_limited b)

def consumeAndEnroll (o : Options) (n : Nat) (password address : JsString) :
    Code Value := do
  match ← Prog.ask (I := ports) (PortCall.consume address) with
  | none => do
      releaseEstablishment
      fail
  | some false => do
      releaseEstablishment
      setupLimited o
  | some true => do
      Prog.modify fun s =>
        { s with pendingLocalAttempts := s.pendingLocalAttempts + 1 }
      reserveTurn n Slot.setup
      thenFinally (inTurn (completeSetup o n password address))
        releaseLocal

/-- `setup`, when no password has been set. -/
def attemptSetup (o : Options) (n : Nat) (password address : JsString) :
    Code Value := do
  let s ← Prog.read
  if (o.max : Int) ≤ s.pendingLocalAttempts then setupLimited o
  else do
    let reserved ← reserveEstablishment o
    if !reserved then setupLimited o
    else consumeAndEnroll o n password (boundedAddress address)

def setup (o : Options) (n : Nat) (password address : JsString) :
    Code Value := do
  if o.mode ≠ AuthMode.local then fail
  else do
    let initialized ← need (← Prog.ask (I := ports) PortCall.isInitialized)
    if initialized then do
      let b ← localBootstrap o (some false)
      pure (localFailure Failure.already_initialized b)
    else attemptSetup o n password address

/-!
## Operations on sessions
-/

/-- The session under the hash of a well-formed cookie, unless it is expired. -/
def withCookie (o : Options) (n : Nat) (rawCookie : Option JsString)
    (answer : Stored -> Value) : Code Value := do
  match rawCookie with
  | none => pure Value.undefined
  | some raw =>
      if !isCookie raw then pure Value.undefined
      else do
        let s ← Prog.read
        match s.sessions.byDigest.get (o.hash raw) with
        | none => pure Value.undefined
        | some r =>
            ifLive n r Value.undefined do
              let s ← Prog.read
              pure (answer (s.sessions.heap r))

def authenticateCookie (o : Options) (n : Nat) (rawCookie : Option JsString) :
    Code Value :=
  withCookie o n rawCookie fun c => Value.session (view c)

def authenticateAuthority (o : Options) (n : Nat)
    (rawCookie : Option JsString) : Code Value :=
  withCookie o n rawCookie fun c => Value.authority (view c) c.generation

def isActiveAuthority (n : Nat) (id : JsString) (generation : Nat) :
    Code Value := do
  let s ← Prog.read
  match s.sessions.byId.get id with
  | none => pure (Value.flag false)
  | some r =>
      if (s.sessions.heap r).generation ≠ generation then
        pure (Value.flag false)
      else ifLive n r (Value.flag false) (pure (Value.flag true))

def markSeen (o : Options) (n : Nat) (r : Ref) : Code Unit := do
  let t ← now none
  Prog.modify fun s =>
    (s.onSessions (Sessions.write · r (Stored.touch o t))).record
      (Entry.touched n r t)

def touchAuthority (o : Options) (n : Nat) (id : JsString) (generation : Nat)
    (activity : Activity) : Code Value := do
  if activity ≠ Activity.terminal_input then pure (Value.flag false)
  else do
    let s ← Prog.read
    match s.sessions.byId.get id with
    | none => pure (Value.flag false)
    | some r =>
        if (s.sessions.heap r).generation ≠ generation then
          pure (Value.flag false)
        else
          ifLive n r (Value.flag false) do
            markSeen o n r
            let s ← Prog.read
            pure (Value.flag (decide (s.sessions.byId.get id = some r) &&
              decide ((s.sessions.heap r).generation = generation)))

def resume (n : Nat) (id : JsString) : Code Value := do
  let s ← Prog.read
  match s.sessions.byId.get id with
  | none => pure Value.undefined
  | some r =>
      ifLive n r Value.undefined do
        let issued ← need (← Prog.ask (I := ports) PortCall.csrfCreate)
        let s ← Prog.read
        let c := s.sessions.heap r
        if c.upstreamExpiresAt.all isDateTime then do
          Prog.modify fun s =>
            s.onSessions (Sessions.write · r (Stored.setCsrf issued.2))
          pure (Value.result ⟨AuthBootstrap.authenticated c.mode
            c.identityLabel issued.1 c.upstreamExpiresAt, none, none⟩)
        else fail

def touch (o : Options) (n : Nat) (id : JsString) (activity : Activity) :
    Code Value := do
  if activity ≠ Activity.http ∧ activity ≠ Activity.terminal_input then
    pure Value.undefined
  else do
    let s ← Prog.read
    match s.sessions.byId.get id with
    | none => pure Value.undefined
    | some r =>
        ifLive n r Value.undefined do
          markSeen o n r
          pure Value.undefined

/-- `s.upstreamExpiresAt !== undefined && expiresAt <= s.upstreamExpiresAt`. -/
def Stored.reaches (s : Stored) (expiresAt : ℚ) : Bool :=
  match s.upstreamExpiresAt with
  | none => false
  | some u => decide (expiresAt ≤ u)

/-- The last part of `refresh`: a later expiry that is still to come. -/
def extend (n : Nat) (r : Ref) (expiresAt : ℚ) : Code Value := do
  let t ← now none
  let s ← Prog.read
  if expiresAt ≤ t ∨ (s.sessions.heap r).reaches expiresAt = true then
    pure Value.undefined
  else do
    Prog.modify fun s =>
      (s.onSessions (Sessions.write · r (Stored.refresh expiresAt))).record
        (Entry.refreshed n r t expiresAt)
    let s ← Prog.read
    pure (Value.session (view (s.sessions.heap r)))

def refresh (o : Options) (n : Nat) (id : JsString)
    (upstream : UpstreamIdentity) : Code Value := do
  let s ← Prog.read
  match s.sessions.byId.get id with
  | none => pure Value.undefined
  | some r =>
      ifLive n r Value.undefined do
        let s ← Prog.read
        let c := s.sessions.heap r
        if c.mode = AuthMode.local ∨ c.mode = AuthMode.none then
          pure Value.undefined
        else
          match validateIdentity o upstream with
          | none => pure Value.undefined
          | some (label, expiresAt) =>
              if upstream.mode ≠ c.mode ∨ label ≠ c.identityLabel then
                pure Value.undefined
              else
                match expiresAt with
                | none =>
                    if c.mode = AuthMode.trusted_header ∧
                        c.upstreamExpiresAt = none then
                      pure (Value.session (view c))
                    else pure Value.undefined
                | some e => extend n r e

def verifyCsrf (n : Nat) (id : JsString) (supplied : Option JsString) :
    Code Value := do
  let s ← Prog.read
  match s.sessions.byId.get id with
  | none => pure (Value.flag false)
  | some r =>
      ifLive n r (Value.flag false) do
        let s ← Prog.read
        let b ← need (← Prog.ask (I := ports)
          (PortCall.csrfVerify (s.sessions.heap r).csrf supplied))
        pure (Value.flag b)

def logout (n : Nat) (id : JsString) : Code Value := do
  let s ← Prog.read
  match s.sessions.byId.get id with
  | none => pure Value.undefined
  | some r => do
      revoke n r RevocationReason.logout
      pure Value.undefined

def revokeEach (n : Nat) (reason : RevocationReason) : List Ref -> Code Unit
  | [] => pure ()
  | r :: rest => do
      revoke n r reason
      revokeEach n reason rest

def replaceAndRevoke (n : Nat) (replacement : JsString) : Code Value := do
  let replaced ←
    need (← Prog.ask (I := ports) (PortCall.replacePassword replacement))
  if replaced = ReplaceResult.not_committed then pure (Value.flag false)
  else do
    let s ← Prog.read
    revokeEach n RevocationReason.password_changed s.sessions.held
    pure (Value.flag true)

def runPasswordChange (n : Nat) (id current replacement : JsString) :
    Code Value := do
  let s ← Prog.read
  match s.sessions.byId.get id with
  | none => pure (Value.flag false)
  | some r =>
      if (s.sessions.heap r).mode ≠ AuthMode.local then pure (Value.flag false)
      else
        ifLive n r (Value.flag false) do
          let s ← Prog.read
          let valid ← need (← Prog.ask (I := ports)
            (PortCall.verify (s.sessions.heap r).identityLabel current))
          if !valid then pure (Value.flag false)
          else do
            let s ← Prog.read
            if s.sessions.byId.get id ≠ some r then pure (Value.flag false)
            else
              ifLive n r (Value.flag false)
                (replaceAndRevoke n replacement)

def changePassword (n : Nat) (id current replacement : JsString) :
    Code Value := do
  let s ← Prog.read
  if s.passwordChangeActive then pure (Value.flag false)
  else do
    Prog.modify fun s => { s with passwordChangeActive := true }
    thenFinally (runPasswordChange n id current replacement)
      (Prog.modify fun s => { s with passwordChangeActive := false })

def sweepEach (n : Nat) : List Ref -> Code Unit
  | [] => pure ()
  | r :: rest => do
      match ← expiredReason r with
      | some reason => revoke n r reason
      | none => pure ()
      sweepEach n rest

def sweepExpired (o : Options) (n : Nat) : Code Value := do
  let s ← Prog.read
  sweepEach n (s.sessions.held.mergeSort fun a b =>
    o.localeCompare (s.sessions.heap a).id (s.sessions.heap b).id !=
      Ordering.gt)
  pure Value.undefined

def State.subscribe (s : State) : State :=
  { s with
    observers := s.observers ++ [s.nextObserver]
    nextObserver := s.nextObserver + 1 }

def onRevoked (o : Options) (n : Nat) : Code Value := do
  let s ← Prog.read
  if o.observerMax ≤ s.observers.length then fail
  else do
    Prog.modify fun s =>
      s.subscribe.record (Entry.subscribed n s.nextObserver)
    pure (Value.observer s.nextObserver)

def State.unsubscribe (s : State) (k : Nat) : State :=
  { s with observers := s.observers.filter fun x => decide (x ≠ k) }

def unsubscribe (n k : Nat) : Code Value := do
  Prog.modify fun s => (s.unsubscribe k).record (Entry.unsubscribed n k)
  pure Value.undefined

def body (o : Options) (n : Nat) : Op -> Code Value
  | Op.bootstrap input => bootstrap o n input
  | Op.login username password address => login o n username password address
  | Op.setup password address => setup o n password address
  | Op.authenticateCookie rawCookie => authenticateCookie o n rawCookie
  | Op.authenticateAuthority rawCookie => authenticateAuthority o n rawCookie
  | Op.isActiveAuthority id generation => isActiveAuthority n id generation
  | Op.touchAuthority id generation activity =>
      touchAuthority o n id generation activity
  | Op.resume id => resume n id
  | Op.touch id activity => touch o n id activity
  | Op.refresh id upstream => refresh o n id upstream
  | Op.verifyCsrf id supplied => verifyCsrf n id supplied
  | Op.logout id => logout n id
  | Op.changePassword id current replacement =>
      changePassword n id current replacement
  | Op.sweepExpired => sweepExpired o n
  | Op.onRevoked => onRevoked o n
  | Op.unsubscribe k => unsubscribe n k

/-!
## The service and its surroundings

A world says when operations may start, which answers are possible and what the
credential store does by itself.
-/

def boundary : PortCall -> Boundary
  | PortCall.observer _ _ _ _ => Boundary.callback
  | PortCall.turn => Boundary.await
  | PortCall.verification => Boundary.await
  | PortCall.enroll _ => Boundary.await
  | PortCall.verify _ _ => Boundary.await
  | PortCall.replacePassword _ => Boundary.await
  | PortCall.settled => Boundary.await
  | _ => Boundary.sync

def State.submit (s : State) (n : Nat) (job : CredentialStore.Job) : State :=
  { s with credentials := s.credentials.submit n job }

def State.park (s : State) (n : Nat) (c : PortCall) : State :=
  { s with waiting := s.waiting ++ [(n, c)] }

def State.unpark (s : State) (n : Nat) : State :=
  { s with waiting := s.waiting.filter fun w => decide (w.1 ≠ n) }

def State.collect (s : State) (n : Nat) : State :=
  { s.record (Entry.told n (s.credentials.settled.lookup n)) with
    credentials :=
      { s.credentials with
        settled := s.credentials.settled.filter fun w => decide (w.1 ≠ n) } }

def issue (n : Nat) (c : PortCall) (s : State) : State :=
  match c with
  | PortCall.startVerify username password =>
      s.submit n (CredentialStore.Job.verify username password)
  | PortCall.observer r k _ _ =>
      { s.record (Entry.notified n r k) with calls := n :: s.calls }
  | PortCall.turn => s.park n c
  | PortCall.verification => s.park n c
  | PortCall.enroll password =>
      (s.submit n (CredentialStore.Job.enroll password)).park n c
  | PortCall.verify username password =>
      (s.submit n (CredentialStore.Job.verify username password)).park n c
  | PortCall.replacePassword password =>
      (s.submit n (CredentialStore.Job.replacePassword password)).park n c
  | PortCall.settled => s.park n c
  | _ => s

def reply (n : Nat) : (c : PortCall) -> PortReply c -> State -> State
  | PortCall.clock (some r), some t, s =>
      s.record (Entry.checked n r t
        (expiredReasonAt (s.sessions.heap r) t).isNone)
  | PortCall.random _, some bytes, s =>
      { s with tokens := s.tokens ++ [base64url bytes] }
  | PortCall.observer _ _ _ _, _, s =>
      { s with calls := s.calls.filter fun m => decide (m ≠ n) }
  | PortCall.turn, _, s => s.unpark n
  | PortCall.verification, _, s => (s.unpark n).collect n
  | PortCall.enroll _, _, s => (s.unpark n).collect n
  | PortCall.verify _ _, _, s => (s.unpark n).collect n
  | PortCall.replacePassword _, _, s => (s.unpark n).collect n
  | PortCall.settled, _, s => s.unpark n
  | _, _, s => s

structure World where
  admits : State -> Op -> Prop
  allowed : State -> Nat -> (c : PortCall) -> PortReply c -> Prop
  env : State -> CredentialStore.State -> Bool -> Prop

def auth (o : Options) (w : World) : Machine State ports Thrown Value Op where
  body := body o
  boundary := boundary
  admits := w.admits
  enter n op s := s.record (Entry.entered n op)
  issue := issue
  allowed := w.allowed
  reply := reply
  leave n op res s := s.record (Entry.ended n op res)
  env s s' := exists credentials draining, w.env s credentials draining ∧
    s' = { s with credentials := credentials, draining := draining }

def State.initial (credentials : CredentialStore.State) (heap : Ref -> Stored) :
    State where
  sessions := ⟨heap, 0, [], [], 0⟩
  observers := []
  nextObserver := 0
  line := []
  pendingEstablishments := 0
  pendingLocalAttempts := 0
  passwordChangeActive := false
  verifications := []
  credentials := credentials
  draining := false
  waiting := []
  calls := []
  tokens := []
  log := []

def Run (o : Options) (w : World) (credentials : CredentialStore.State)
    (heap : Ref -> Stored)
    (cfg : Config State ports Thrown Value Op) : Prop :=
  Reachable (auth o w) (State.initial credentials heap) cfg

end AuthService
end Server
end FlanTerminal

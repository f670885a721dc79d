import FlanTerminal.Server.PasswordQueues

/-!
# Admission to the authentication service

An operation that establishes a session is admitted when there is a place for
it, and gives the place back when its result has been settled.  The turn of an
admitted operation comes when all operations in front of it have been settled,
whatever became of them.
-/

namespace FlanTerminal
namespace Server
namespace AuthService
namespace Admission

open Foundation
open CredentialStore (ReplaceResult EnrollmentResult)
open Passwords (isFirst)

/-- The world `w`, but for the queue of establishments. -/
def inOrder (w : World) : World :=
  { w with
    allowed := fun s n c r =>
      (c = PortCall.turn -> isFirst s n = true) ∧
        (c ≠ PortCall.turn -> w.allowed s n c r) }

def slotOf : Op -> Option Slot
  | Op.bootstrap _ => some Slot.bootstrap
  | Op.login _ _ _ => some Slot.login
  | Op.setup _ _ => some Slot.setup
  | _ => none

/-- Logins and setups take a place among the local attempts, too. -/
def isLocal (x : Nat × Slot) : Bool :=
  x.2 != Slot.bootstrap

/-- An operation that asks for admission. -/
def asking : Entry -> Option (Nat × Slot)
  | Entry.entered n op => (slotOf op).map fun slot => (n, slot)
  | _ => none

def asked (log : List Entry) : List (Nat × Slot) :=
  log.filterMap asking

def endsOp (n : Nat) : Entry -> Bool
  | Entry.ended m _ _ => m == n
  | _ => false

def hasEnded (log : List Entry) (n : Nat) : Bool :=
  log.any (endsOp n)

/-- The operations that have asked and have not ended. -/
def inProgress (log : List Entry) : List (Nat × Slot) :=
  (asked log).filter fun x => !hasEnded log x.1

/-!
## What admission does not see
-/

/-- Nothing that admission depends on is different. -/
structure Still (s s' : State) : Prop where
  line : s'.line = s.line
  establishments : s'.pendingEstablishments = s.pendingEstablishments
  locals : s'.pendingLocalAttempts = s.pendingLocalAttempts
  waiting : s'.waiting = s.waiting
  asked : asked s'.log = asked s.log
  ended : hasEnded s'.log = hasEnded s.log

theorem Still.refl (s : State) : Still s s :=
  ⟨rfl, rfl, rfl, rfl, rfl, rfl⟩

/-- An entry that is neither the start nor the end of an operation. -/
def plain : Entry -> Bool
  | Entry.entered _ _ => false
  | Entry.ended _ _ _ => false
  | _ => true

theorem asked_snoc (log : List Entry) (e : Entry) :
    asked (log ++ [e]) = asked log ++ (asking e).toList := by
  unfold asked
  rw [List.filterMap_append]
  cases h : asking e with
  | none => simp [h]
  | some x => simp [h]

theorem hasEnded_snoc (log : List Entry) (e : Entry) (n : Nat) :
    hasEnded (log ++ [e]) n = (hasEnded log n || endsOp n e) := by
  simp [hasEnded]

theorem still_record (s : State) {e : Entry} (he : plain e = true) :
    Still s (s.record e) := by
  have hasking : asking e = none := by
    cases e with
    | entered n op => cases he
    | _ => rfl
  have hends : forall n, endsOp n e = false := by
    intro n
    cases e with
    | ended m op res => cases he
    | _ => rfl
  refine ⟨rfl, rfl, rfl, rfl, ?_, ?_⟩
  · show asked (s.log ++ [e]) = asked s.log
    rw [asked_snoc, hasking]
    exact List.append_nil _
  · funext n
    show hasEnded (s.log ++ [e]) n = hasEnded s.log n
    rw [hasEnded_snoc, hends, Bool.or_false]

theorem still_change (s : State) (f : Sessions -> Sessions) {e : Entry}
    (he : plain e = true) : Still s ((s.onSessions f).record e) := by
  have h := still_record (s.onSessions f) he
  exact ⟨h.line, h.establishments, h.locals, h.waiting, h.asked, h.ended⟩

theorem still_onSessions (s : State) (f : Sessions -> Sessions) :
    Still s (s.onSessions f) :=
  ⟨rfl, rfl, rfl, rfl, rfl, rfl⟩

section Programs

variable {value result : Type}

theorem still_bind {p : Code value} {g : value -> Code result}
    (hp : p.Within Still) (hg : forall a, (g a).Within Still) :
    (p >>= g).Within Still :=
  Prog.within_bind hp hg

theorem still_read {g : State -> Code value}
    (hg : forall s, (g s).Within Still) :
    ((Prog.read : Code State) >>= g).Within Still :=
  Prog.within_read Still.refl hg

theorem still_ask (c : PortCall) :
    (Prog.ask (I := ports) c : Code (PortReply c)).Within Still :=
  fun _ => trivial

theorem still_fail : (fail : Code value).Within Still :=
  trivial

theorem still_pure (a : value) : (Prog.ret a : Code value).Within Still :=
  trivial

theorem still_need (a : Option value) : (need a).Within Still := by
  cases a with
  | none => trivial
  | some a => trivial

theorem still_ite {c : Prop} [Decidable c] {p q : Code value}
    (hp : p.Within Still) (hq : q.Within Still) :
    (if c then p else q).Within Still := by
  split
  · exact hp
  · exact hq

theorem still_note {e : Entry} (he : plain e = true) :
    (note e).Within Still :=
  Prog.within_modify fun s => still_record s he

theorem still_now (checked : Option Ref) : (now checked).Within Still :=
  still_bind (still_ask (PortCall.clock checked)) still_need

theorem still_expiredReason (r : Ref) : (expiredReason r).Within Still :=
  still_bind (still_now (some r)) fun _ => still_read fun _ => still_pure _

theorem still_remove (n : Nat) (r : Ref) : (remove n r).Within Still := by
  unfold remove
  apply still_read
  intro s
  cases s.sessions.byId.get (s.sessions.heap r).id with
  | none => trivial
  | some found =>
      refine still_bind (Prog.within_modify fun s => ?_) fun _ => still_pure _
      exact still_change s _ rfl

theorem still_emitEach (r : Ref) (id : JsString) (reason : RevocationReason)
    (observers : List Nat) :
    (emitEach r id reason observers).Within Still := by
  induction observers with
  | nil => trivial
  | cons k rest ih =>
      exact still_bind (still_ask (PortCall.observer r k id reason)) fun _ => ih

theorem still_emitRevocation (n : Nat) (r : Ref) (id : JsString)
    (reason : RevocationReason) :
    (emitRevocation n r id reason).Within Still :=
  still_read fun s => still_bind (still_note rfl) fun _ =>
    still_emitEach r id reason s.observers

theorem still_revoke (n : Nat) (r : Ref) (reason : RevocationReason) :
    (revoke n r reason).Within Still := by
  refine still_bind (still_remove n r) fun removed => ?_
  cases removed with
  | false => trivial
  | true => exact still_read fun s => still_emitRevocation n r _ reason

theorem still_ifLive (n : Nat) (r : Ref) (failed : value) {k : Code value}
    (hk : k.Within Still) : (ifLive n r failed k).Within Still := by
  refine still_bind (still_expiredReason r) fun found => ?_
  cases found with
  | none => exact hk
  | some reason =>
      exact still_bind (still_revoke n r reason) fun _ => still_pure _

theorem still_token (size : Nat) : (token size).Within Still :=
  still_bind (still_ask (PortCall.random size)) fun a =>
    still_bind (still_need a) fun _ => still_ite still_fail (still_pure _)

theorem still_freshCookie (o : Options) (attempts : Nat) :
    (freshCookie o attempts).Within Still := by
  induction attempts with
  | zero => trivial
  | succ attempts ih =>
      exact still_bind (still_token 32) fun _ => still_read fun _ =>
        still_ite ih (still_pure _)

theorem still_freshId (attempts : Nat) : (freshId attempts).Within Still := by
  induction attempts with
  | zero => trivial
  | succ attempts ih =>
      exact still_bind (still_token 16) fun _ => still_read fun _ =>
        still_ite ih (still_pure _)

theorem still_nextGeneration : nextGeneration.Within Still :=
  still_read fun _ => still_bind
    (Prog.within_modify fun s => still_onSessions s _) fun _ =>
      still_ite (still_pure _) still_fail

theorem still_prepareSession (o : Options) (mode : AuthMode)
    (label : JsString) (upstreamExpiresAt : Option ℚ) :
    (prepareSession o mode label upstreamExpiresAt).Within Still := by
  refine still_bind (still_now none) fun t => ?_
  refine still_bind (still_freshCookie o 8) fun cookie => ?_
  refine still_bind (still_freshId 8) fun id => ?_
  cases cookie with
  | none => exact still_fail
  | some cookie =>
      cases id with
      | none => exact still_fail
      | some id =>
          refine still_bind (still_ask PortCall.csrfCreate) fun issued => ?_
          refine still_bind (still_need issued) fun _ => ?_
          refine still_bind still_nextGeneration fun _ => ?_
          refine still_bind (still_need _) fun _ => ?_
          exact still_ite (still_pure _) still_fail

theorem still_removeEach (n : Nat)
    (revocations : List (Ref × RevocationReason)) :
    (removeEach n revocations).Within Still := by
  induction revocations with
  | nil => trivial
  | cons x rest ih =>
      exact still_bind (still_remove n x.1) fun _ => ih

theorem still_emitAll (n : Nat) (revocations : List (Ref × RevocationReason)) :
    (emitAll n revocations).Within Still := by
  induction revocations with
  | nil => trivial
  | cons x rest ih =>
      exact still_read fun s => still_bind
        (still_emitRevocation n x.1 _ x.2) fun _ => ih

theorem still_safeEstablish (o : Options) (n : Nat) (mode : AuthMode)
    (label : JsString) (upstreamExpiresAt : Option ℚ)
    {beforeCommit : Code Unit} (hbefore : beforeCommit.Within Still) :
    (safeEstablish o n mode label upstreamExpiresAt beforeCommit).Within
      Still := by
  refine still_bind (still_prepareSession o mode label upstreamExpiresAt)
    fun prepared => ?_
  unfold commitSession
  refine still_read fun s => still_ite still_fail ?_
  refine still_bind (still_now none) fun t => still_read fun s' => ?_
  refine still_bind hbefore fun _ => ?_
  refine still_bind (still_removeEach n _) fun _ => ?_
  refine still_bind (Prog.within_modify fun s => ?_) fun _ =>
    still_bind (still_emitAll n _) fun _ => still_pure _
  exact still_change s _ rfl

theorem still_localBootstrap (o : Options) (setupRequired : Option Bool) :
    (localBootstrap o setupRequired).Within Still := by
  cases setupRequired with
  | some b => trivial
  | none =>
      exact still_bind (still_ask PortCall.isInitialized) fun a =>
        still_bind (still_need a) fun _ => still_pure _

theorem still_resetLimiter (address : JsString) :
    (resetLimiter address).Within Still :=
  still_bind (still_ask (PortCall.resetAddress address)) still_need

theorem still_establishIdentity (o : Options) (n : Nat) (mode : AuthMode)
    (identity : UpstreamIdentity) :
    (establishIdentity o n mode identity).Within Still := by
  refine still_ite still_fail ?_
  refine still_bind (still_need _) fun found => ?_
  rcases found with ⟨label, expiresAt⟩
  have hestablish := fun e => still_bind
    (still_safeEstablish o n mode label e (still_pure ()))
    fun r => still_pure (Value.result r)
  cases expiresAt with
  | none => exact still_ite still_fail (hestablish none)
  | some e =>
      exact still_bind (still_now none) fun _ => still_ite still_fail
        (hestablish (some e))

theorem still_establishUpstream (o : Options) (n : Nat)
    (input : UpstreamAuthentication) :
    (establishUpstream o n input).Within Still := by
  unfold establishUpstream
  split
  · exact still_bind (still_localBootstrap o none) fun _ => still_pure _
  · exact still_bind (still_safeEstablish o n _ _ none (still_pure ()))
      fun _ => still_pure _
  · exact still_fail
  · exact still_fail
  · exact still_fail
  · exact still_establishIdentity o n _ _

theorem still_completeLoginSlot (o : Options) (n : Nat)
    (label address : JsString) :
    (completeLoginSlot o n label address).Within Still := by
  refine still_bind (still_ask PortCall.verification) fun outcome => ?_
  cases outcome with
  | failed => exact still_fail
  | ok valid =>
      cases valid with
      | false => trivial
      | true =>
          exact still_bind (still_safeEstablish o n _ label none
            (still_resetLimiter address)) fun _ => still_pure _

theorem still_completeSetup (o : Options) (n : Nat)
    (password address : JsString) :
    (completeSetup o n password address).Within Still := by
  refine still_bind (still_ask (PortCall.enroll password))
    fun enrollment => ?_
  cases enrollment with
  | none => exact still_fail
  | some enrollment =>
      cases enrollment with
      | already_initialized =>
          exact still_bind (still_localBootstrap o (some false))
            fun _ => still_pure _
      | not_committed => exact still_fail
      | enrolled persistence =>
          have hestablish := still_bind (still_safeEstablish o n
            AuthMode.local o.localUsername none (still_resetLimiter address))
            fun r => still_pure (Value.result r)
          show Prog.Within Still (if _ then _ else _)
          split
          · exact still_bind (still_ask PortCall.onDurabilityUncertain)
              fun _ => hestablish
          · exact hestablish

/-!
Operations that do not establish sessions.
-/

theorem still_withCookie (o : Options) (n : Nat) (rawCookie : Option JsString)
    (answer : Stored -> Value) :
    (withCookie o n rawCookie answer).Within Still := by
  unfold withCookie
  cases rawCookie with
  | none => trivial
  | some raw =>
      refine still_ite (still_pure _) (still_read fun s => ?_)
      cases s.sessions.byDigest.get (o.hash raw) with
      | none => trivial
      | some r =>
          exact still_ifLive n r _ (still_read fun _ => still_pure _)

theorem still_markSeen (o : Options) (n : Nat) (r : Ref) :
    (markSeen o n r).Within Still :=
  still_bind (still_now none) fun _ =>
    Prog.within_modify fun s => still_change s _ rfl

theorem still_isActiveAuthority (n : Nat) (id : JsString)
    (generation : Nat) : (isActiveAuthority n id generation).Within Still := by
  refine still_read fun s => ?_
  cases s.sessions.byId.get id with
  | none => trivial
  | some r =>
      exact still_ite (still_pure _) (still_ifLive n r _ (still_pure _))

theorem still_touchAuthority (o : Options) (n : Nat) (id : JsString)
    (generation : Nat) (activity : Activity) :
    (touchAuthority o n id generation activity).Within Still := by
  refine still_ite (still_pure _) (still_read fun s => ?_)
  cases s.sessions.byId.get id with
  | none => trivial
  | some r =>
      exact still_ite (still_pure _) (still_ifLive n r _
        (still_bind (still_markSeen o n r) fun _ =>
          still_read fun _ => still_pure _))

theorem still_resume (n : Nat) (id : JsString) :
    (resume n id).Within Still := by
  refine still_read fun s => ?_
  cases s.sessions.byId.get id with
  | none => trivial
  | some r =>
      refine still_ifLive n r _ ?_
      refine still_bind (still_ask PortCall.csrfCreate) fun issued => ?_
      refine still_bind (still_need issued) fun _ => still_read fun _ => ?_
      refine still_ite (still_bind ?_ fun _ => still_pure _) still_fail
      exact Prog.within_modify fun s => still_onSessions s _

theorem still_touch (o : Options) (n : Nat) (id : JsString)
    (activity : Activity) : (touch o n id activity).Within Still := by
  refine still_ite (still_pure _) (still_read fun s => ?_)
  cases s.sessions.byId.get id with
  | none => trivial
  | some r =>
      exact still_ifLive n r _
        (still_bind (still_markSeen o n r) fun _ => still_pure _)

theorem still_extend (n : Nat) (r : Ref) (expiresAt : ℚ) :
    (extend n r expiresAt).Within Still := by
  refine still_bind (still_now none) fun t => still_read fun s => ?_
  refine still_ite (still_pure _) (still_bind ?_ fun _ =>
    still_read fun _ => still_pure _)
  exact Prog.within_modify fun s => still_change s _ rfl

theorem still_refresh (o : Options) (n : Nat) (id : JsString)
    (upstream : UpstreamIdentity) :
    (refresh o n id upstream).Within Still := by
  refine still_read fun s => ?_
  cases s.sessions.byId.get id with
  | none => trivial
  | some r =>
      refine still_ifLive n r _ (still_read fun _ =>
        still_ite (still_pure _) ?_)
      cases validateIdentity o upstream with
      | none => trivial
      | some found =>
          rcases found with ⟨label, expiresAt⟩
          refine still_ite (still_pure _) ?_
          cases expiresAt with
          | none => exact still_ite (still_pure _) (still_pure _)
          | some e => exact still_extend n r e

theorem still_verifyCsrf (n : Nat) (id : JsString)
    (supplied : Option JsString) : (verifyCsrf n id supplied).Within Still := by
  refine still_read fun s => ?_
  cases s.sessions.byId.get id with
  | none => trivial
  | some r =>
      exact still_ifLive n r _ (still_read fun _ =>
        still_bind (still_ask (PortCall.csrfVerify _ supplied)) fun a =>
          still_bind (still_need a) fun _ => still_pure _)

theorem still_logout (n : Nat) (id : JsString) :
    (logout n id).Within Still := by
  refine still_read fun s => ?_
  cases s.sessions.byId.get id with
  | none => trivial
  | some r =>
      exact still_bind (still_revoke n r _) fun _ => still_pure _

theorem still_revokeEach (n : Nat) (reason : RevocationReason)
    (rs : List Ref) : (revokeEach n reason rs).Within Still := by
  induction rs with
  | nil => trivial
  | cons r rest ih => exact still_bind (still_revoke n r reason) fun _ => ih

theorem still_replaceAndRevoke (n : Nat) (replacement : JsString) :
    (replaceAndRevoke n replacement).Within Still :=
  still_bind (still_ask (PortCall.replacePassword replacement)) fun a =>
    still_bind (still_need a) fun _ => still_ite (still_pure _)
      (still_read fun _ => still_bind (still_revokeEach n _ _)
        fun _ => still_pure _)

theorem still_runPasswordChange (n : Nat) (id current replacement : JsString) :
    (runPasswordChange n id current replacement).Within Still := by
  refine still_read fun s => ?_
  cases s.sessions.byId.get id with
  | none => trivial
  | some r =>
      refine still_ite (still_pure _) (still_ifLive n r _
        (still_read fun _ => ?_))
      refine still_bind (still_ask (PortCall.verify _ current)) fun a => ?_
      refine still_bind (still_need a) fun _ => still_ite (still_pure _) ?_
      exact still_read fun _ => still_ite (still_pure _)
        (still_ifLive n r _ (still_replaceAndRevoke n replacement))

theorem still_changePassword (n : Nat) (id current replacement : JsString) :
    (changePassword n id current replacement).Within Still := by
  have hset : forall b, (Prog.modify fun s : State =>
      { s with passwordChangeActive := b } : Code Unit).Within Still :=
    fun b => Prog.within_modify fun _ => ⟨rfl, rfl, rfl, rfl, rfl, rfl⟩
  refine still_read fun s => still_ite (still_pure _) ?_
  refine still_bind (hset true) fun _ => ?_
  exact Prog.within_always (still_runPasswordChange n id current replacement)
    (still_bind (still_ask PortCall.settled) fun _ => hset false)

theorem still_sweepEach (n : Nat) (rs : List Ref) :
    (sweepEach n rs).Within Still := by
  induction rs with
  | nil => trivial
  | cons r rest ih =>
      refine still_bind (still_expiredReason r) fun found => ?_
      cases found with
      | none => exact ih
      | some reason => exact still_bind (still_revoke n r reason) fun _ => ih

theorem still_body (o : Options) (n : Nat) {op : Op}
    (hop : slotOf op = none) : (body o n op).Within Still := by
  cases op with
  | bootstrap input => cases hop
  | login username password address => cases hop
  | setup password address => cases hop
  | authenticateCookie rawCookie =>
      exact still_withCookie o n rawCookie fun c => Value.session (view c)
  | authenticateAuthority rawCookie =>
      exact still_withCookie o n rawCookie fun c =>
        Value.authority (view c) c.generation
  | isActiveAuthority id generation =>
      exact still_isActiveAuthority n id generation
  | touchAuthority id generation activity =>
      exact still_touchAuthority o n id generation activity
  | resume id => exact still_resume n id
  | touch id activity => exact still_touch o n id activity
  | refresh id upstream => exact still_refresh o n id upstream
  | verifyCsrf id supplied => exact still_verifyCsrf n id supplied
  | logout id => exact still_logout n id
  | changePassword id current replacement =>
      exact still_changePassword n id current replacement
  | sweepExpired =>
      exact still_read fun _ => still_bind (still_sweepEach n _)
        fun _ => still_pure _
  | onRevoked =>
      refine still_read fun s => still_ite still_fail (still_bind
        (Prog.within_modify fun s => ?_) fun _ => still_pure _)
      have h := still_record s.subscribe
        (e := Entry.subscribed n s.nextObserver) rfl
      exact ⟨h.line, h.establishments, h.locals, h.waiting, h.asked, h.ended⟩
  | unsubscribe k =>
      refine still_bind (Prog.within_modify fun s => ?_) fun _ => still_pure _
      have h := still_record (s.unsubscribe k)
        (e := Entry.unsubscribed n k) rfl
      exact ⟨h.line, h.establishments, h.locals, h.waiting, h.asked, h.ended⟩

end Programs

end Admission
end AuthService
end Server
end FlanTerminal

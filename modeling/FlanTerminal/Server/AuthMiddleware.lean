import FlanTerminal.Foundation.Traced
import FlanTerminal.Server.AuthResults
import FlanTerminal.Server.SessionCookie
import FlanTerminal.Server.TrustedHeaderAuth

/-!
# Authentication of a request

A request is authenticated by its cookie, and where an upstream provider knows
the users also by what the provider says about the request.  The provider may
take its time, and meanwhile sessions come and go.  So the cookie is checked
before the provider is asked and once more after it has answered.
-/

namespace FlanTerminal
namespace Server
namespace AuthMiddleware

open Foundation
open AuthService (AuthMode AuthenticatedSession UpstreamIdentity Value Thrown
  Stored Ref PortCall State)
open SessionCookie (Item RawHeaders readSessionCookie)
open TrustedHeaderAuth (View HeaderValue)

structure Request where
  remoteAddress : Item
  headers : View
  headersDistinct : Option View
  rawHeaders : RawHeaders

structure Options where
  mode : AuthMode
  cloudflareAccessProvider : Bool
  trustedHeaderProvider : Bool

structure AuthenticatedLocals where
  authSession : AuthenticatedSession
  upstreamIdentity : Option UpstreamIdentity

structure ApplicationSessionAuthority where
  applicationSessionId : JsString
  generation : Nat
  expiresAt : ℚ

inductive UpstreamCall where
  /-- To `await` what is there already. -/
  | pause
  | cloudflareAccess (headers : View)
  | trustedHeader (request : TrustedHeaderAuth.Request)

/-- A missing answer is an exception or a rejection. -/
abbrev UpstreamReply : UpstreamCall -> Type
  | UpstreamCall.pause => Unit
  | UpstreamCall.cloudflareAccess _ => Option UpstreamIdentity
  | UpstreamCall.trustedHeader _ => Option UpstreamIdentity

def upstream : Interface := ⟨UpstreamCall, UpstreamReply⟩

abbrev calls : Interface := Prog.plus AuthService.ports upstream

/-- No caller looks at an exception, so all are the one of the service. -/
abbrev Code := Prog State calls Thrown

def need {value : Type} : Option value -> Code value
  | some a => pure a
  | none => throw Thrown.AuthServiceError

def ask (c : UpstreamCall) : Code (UpstreamReply c) :=
  Prog.ask (I := calls) (Sum.inr c)

/-!
## The code
-/

/-- Names that every object has; what is there is no array. -/
def inherited : List JsString :=
  [js "constructor", js "__proto__"]

/-- The loop of `distinctHeaders`; `none` is an exception. -/
def collectDistinct : List Item -> JsMap JsString HeaderValue ->
    Option (JsMap JsString HeaderValue)
  | some name :: some value :: rest, distinct =>
      let name := toLowerCase name
      if name ∈ inherited then none
      else
        match distinct.get name with
        | some (HeaderValue.array items) =>
            collectDistinct rest
              (distinct.set name (HeaderValue.array (items ++ [some value])))
        | _ =>
            collectDistinct rest
              (distinct.set name (HeaderValue.array [some value]))
  | _ :: _ :: rest, distinct => collectDistinct rest distinct
  | _, distinct => some distinct

def distinctHeaders (request : Request) : Option View :=
  match request.headersDistinct, request.rawHeaders with
  | some expressDistinct, _ => some expressDistinct
  | none, RawHeaders.array items => (collectDistinct items []).map View.object
  | none, RawHeaders.other => none

def rawView : RawHeaders -> TrustedHeaderAuth.RawHeaders
  | RawHeaders.array items => TrustedHeaderAuth.RawHeaders.array items
  | RawHeaders.other => TrustedHeaderAuth.RawHeaders.other

/-- The identity, which is awaited in every mode. -/
def currentUpstreamIdentity (options : Options) (request : Request) :
    Code (Option UpstreamIdentity) := do
  match options.mode with
  | AuthMode.local | AuthMode.none => do
      ask UpstreamCall.pause
      pure none
  | AuthMode.cloudflare_access =>
      if !options.cloudflareAccessProvider then throw Thrown.AuthServiceError
      else do
        let reply ← ask (UpstreamCall.cloudflareAccess request.headers)
        let identity ← need reply
        pure (some identity)
  | AuthMode.trusted_header =>
      if !options.trustedHeaderProvider then throw Thrown.AuthServiceError
      else do
        let distinct ← need (distinctHeaders request)
        let reply ← ask (UpstreamCall.trustedHeader ⟨request.remoteAddress,
          request.headers, some distinct, some (rawView request.rawHeaders)⟩)
        let identity ← need reply
        pure (some identity)

def identityMatches (session : AuthenticatedSession)
    (upstream : Option UpstreamIdentity) : Bool :=
  if session.mode = AuthMode.local ∨ session.mode = AuthMode.none then
    upstream.isNone
  else
    match upstream with
    | none => false
    | some identity =>
        identity.mode = session.mode ∧
          identity.identityLabel = session.identityLabel

def sameAuthority (expected current : AuthenticatedSession) : Bool :=
  current.id = expected.id ∧ current.mode = expected.mode ∧
    current.identityLabel = expected.identityLabel

structure Checked where
  session : AuthenticatedSession
  generation : Option Nat

def checkedOf : Value -> Option Checked
  | Value.session v => some ⟨v, none⟩
  | Value.authority v generation => some ⟨v, some generation⟩
  | _ => none

/-- What both ways of authentication do: the cookie is checked, the identity
is awaited, and the cookie is checked again. -/
def checkTwice (options : Options) (request : Request)
    (first second : JsString -> AuthService.Code Value) :
    Code (Option (Checked × Option UpstreamIdentity)) := do
  match readSessionCookie request.rawHeaders with
  | none => pure none
  | some cookie => do
      let answer ← (first cookie).left upstream
      match checkedOf answer with
      | none => pure none
      | some session =>
          if session.session.mode ≠ options.mode then pure none
          else do
            let identity ← currentUpstreamIdentity options request
            if !identityMatches session.session identity then pure none
            else do
              let answer ← (second cookie).left upstream
              match checkedOf answer with
              | none => pure none
              | some current =>
                  if current.generation ≠ session.generation ∨
                      sameAuthority session.session current.session = false ∨
                      identityMatches current.session identity = false then
                    pure none
                  else pure (some (current, identity))

section Code

variable (service : AuthService.Options) (n m : Nat) (options : Options)
variable (request : Request)

def resolveAuthentication : Code (Option AuthenticatedLocals) := do
  let checked ← checkTwice options request
    (fun cookie => AuthService.authenticateCookie service n (some cookie))
    (fun cookie => AuthService.authenticateCookie service m (some cookie))
  pure (checked.map fun c => ⟨c.1.session, c.2⟩)

/-- The least of the three limits; times are finite. -/
def expiresAt (current : AuthenticatedSession) : ℚ :=
  let limit := min current.idleExpiresAt current.absoluteExpiresAt
  match current.upstreamExpiresAt with
  | some t => min limit t
  | none => limit

def resolveUpgradeAuthentication :
    Code (Option ApplicationSessionAuthority) := do
  let checked ← checkTwice options request
    (fun cookie => AuthService.authenticateAuthority service n (some cookie))
    (fun cookie => AuthService.authenticateAuthority service m (some cookie))
  pure (checked.bind fun c => c.1.generation.map fun generation =>
    ⟨c.1.session.id, generation, expiresAt c.1.session⟩)

end Code

/-!
## Checks

While a callback is at work or the provider is asked, others may do anything.
The calls in between are answered at once.
-/

def answers : Prog.Answers State calls
  | s, Sum.inl c, r, s' => AuthService.boundary c = Boundary.sync ->
      exists k, s' = AuthService.reply k c r s
  | _, Sum.inr _, _, _ => True

def serviceAnswers : Prog.Answers State AuthService.ports := fun s c r s' =>
  answers s (Sum.inl c) r s'

/-- The cookie belongs to a session that is there and is not expired at the
reading of the clock. -/
structure Passed (service : AuthService.Options) (cookie : JsString)
    (cs : List (Sigma AuthService.ports.Reply)) (s s' : State) (c : Stored) :
    Prop where
  sessions : s'.sessions = s.sessions
  accepted : AuthService.isCookie cookie = true
  live : exists r t, cs = [⟨PortCall.clock (some r), some t⟩] ∧
    s'.sessions.byDigest.get (service.hash cookie) = some r ∧
    s'.sessions.heap r = c ∧ AuthService.expiredReasonAt c t = none

def asked (c : UpstreamCall) (r : UpstreamReply c) : Sigma calls.Reply :=
  ⟨Sum.inr c, r⟩

inductive Answered (options : Options) (request : Request) :
    List (Sigma calls.Reply) -> Option UpstreamIdentity -> Prop where
  | nobody : options.mode = AuthMode.local ∨ options.mode = AuthMode.none ->
      Answered options request [asked UpstreamCall.pause ()] none
  | cloudflareAccess (i : UpstreamIdentity) :
      options.mode = AuthMode.cloudflare_access ->
      Answered options request
        [asked (UpstreamCall.cloudflareAccess request.headers) (some i)]
        (some i)
  | trustedHeader (i : UpstreamIdentity) (distinct : View) :
      options.mode = AuthMode.trusted_header ->
      distinctHeaders request = some distinct ->
      Answered options request
        [asked (UpstreamCall.trustedHeader ⟨request.remoteAddress,
          request.headers, some distinct, some (rawView request.rawHeaders)⟩)
          (some i)]
        (some i)

structure Agrees (options : Options) (first current : Stored)
    (identity : Option UpstreamIdentity) : Prop where
  mode : current.mode = options.mode
  sameId : current.id = first.id
  sameMode : current.mode = first.mode
  sameLabel : current.identityLabel = first.identityLabel
  identity : forall i, identity = some i ->
    i.mode = current.mode ∧ i.identityLabel = current.identityLabel

def Admits (service : AuthService.Options) (options : Options)
    (request : Request) (cs : List (Sigma calls.Reply)) (s s' : State)
    (first current : Stored) (identity : Option UpstreamIdentity) : Prop :=
  exists cookie before between after s1 s2,
    readSessionCookie request.rawHeaders = some cookie ∧
    cs = Prog.leftCalls upstream before ++
      (between ++ Prog.leftCalls upstream after) ∧
    Passed service cookie before s s1 first ∧
    (currentUpstreamIdentity options request).Runs answers s1 between
      (Except.ok identity) s2 ∧
    Answered options request between identity ∧
    Passed service cookie after s2 s' current ∧
    Agrees options first current identity

/-- In the states that the service can reach, the session is one of those that
are held. -/
def Held (service : AuthService.Options) (s : State) (c : Stored) : Prop :=
  forall w credentials heap cfg,
    AuthService.Run service w credentials heap cfg ->
    cfg.shared.sessions = s.sessions ->
    exists r, r ∈ s.sessions.held ∧ s.sessions.heap r = c

section Runs

variable {service : AuthService.Options} {n m : Nat} {options : Options}
variable {request : Request} {cookie : JsString} {s s' : State}

theorem after_expiredReason (r : Ref) :
    (AuthService.expiredReason r).After serviceAnswers (fun cs res s' =>
      s'.sessions = s.sessions ∧ forall reason, res = Except.ok reason ->
        exists t, cs = [⟨PortCall.clock (some r), some t⟩] ∧
          AuthService.expiredReasonAt (s.sessions.heap r) t = reason) s := by
  unfold AuthService.expiredReason
  intro answer s' hanswer
  obtain ⟨k, hs'⟩ := hanswer rfl
  rw [hs']
  cases answer with
  | none => exact ⟨rfl, fun reason h => (by cases h)⟩
  | some t =>
      refine ⟨rfl, fun reason hreason => ⟨t, rfl, ?_⟩⟩
      cases hreason
      rfl

theorem after_withCookie (tell : Stored -> Value) :
    (AuthService.withCookie service n (some cookie) tell).After serviceAnswers
      (fun cs res s' => forall v, res = Except.ok v -> v = Value.undefined ∨
        exists c, Passed service cookie cs s s' c ∧ v = tell c) s := by
  have hnothing : forall v, (Except.ok Value.undefined : Except Thrown Value) =
      Except.ok v -> v = Value.undefined := by
    intro v h
    cases h
    rfl
  show Prog.After _ _ (if _ then _ else _) s
  split
  · exact fun v h => Or.inl (hnothing v h)
  · rename_i hcookie
    apply Prog.after_read
    split
    · exact fun v h => Or.inl (hnothing v h)
    · rename_i r hget
      refine Prog.after_bind (after_expiredReason r) (fun cs e s' h => ?_)
        fun cs reason s' h => ?_
      · intro v hv
        cases hv
      · obtain ⟨hsessions, hreason⟩ := h
        obtain ⟨t, hcs, hexpired⟩ := hreason reason rfl
        cases reason with
        | some reason =>
            refine Prog.after_bind (Prog.after_runs _ _)
              (fun cs e s' _ v hv => ?_) fun cs u s' _ v hv => ?_
            · cases hv
            · exact Or.inl (hnothing v hv)
        | none =>
            intro v hv
            cases hv
            refine Or.inr ⟨s'.sessions.heap r, ⟨hsessions, ?_,
              ⟨r, t, ?_, ?_, rfl, ?_⟩⟩, rfl⟩
            · simpa using hcookie
            · rw [hcs]
              rfl
            · show s'.sessions.byDigest.get _ = _
              rw [hsessions]
              exact hget
            · rw [hsessions]
              exact hexpired

theorem after_currentUpstreamIdentity :
    (currentUpstreamIdentity options request).After answers (fun cs res _ =>
      forall v, res = Except.ok v -> Answered options request cs v) s := by
  unfold currentUpstreamIdentity
  cases hmode : options.mode with
  | «local» =>
      intro r s' _ v hv
      cases hv
      exact Answered.nobody (Or.inl hmode)
  | none =>
      intro r s' _ v hv
      cases hv
      exact Answered.nobody (Or.inr hmode)
  | cloudflare_access =>
      show Prog.After _ _ (if _ then _ else _) s
      split
      · exact fun v hv => (by cases hv)
      · intro r s' _
        cases r with
        | none => exact fun v hv => (by cases hv)
        | some i =>
            intro v hv
            cases hv
            exact Answered.cloudflareAccess i hmode
  | trusted_header =>
      show Prog.After _ _ (if _ then _ else _) s
      split
      · exact fun v hv => (by cases hv)
      · cases hdistinct : distinctHeaders request with
        | none => exact fun v hv => (by cases hv)
        | some distinct =>
            intro r s' _
            cases r with
            | none => exact fun v hv => (by cases hv)
            | some i =>
                intro v hv
                cases hv
                exact Answered.trustedHeader i distinct hmode hdistinct

theorem identityMatches_some {session : AuthenticatedSession}
    {i : UpstreamIdentity} (h : identityMatches session (some i) = true) :
    i.mode = session.mode ∧ i.identityLabel = session.identityLabel := by
  unfold identityMatches at h
  split at h
  · cases h
  · exact of_decide_eq_true h

theorem agrees_of_checks {first current : Stored}
    {identity : Option UpstreamIdentity} (hmode : first.mode = options.mode)
    (hsame : sameAuthority (AuthService.view first)
      (AuthService.view current) = true)
    (hmatches : identityMatches (AuthService.view current) identity = true) :
    Agrees options first current identity := by
  obtain ⟨hid, hsameMode, hlabel⟩ := of_decide_eq_true hsame
  refine ⟨hsameMode.trans hmode, hid, hsameMode, hlabel, fun i hi => ?_⟩
  rw [hi] at hmatches
  exact identityMatches_some hmatches

theorem after_checkTwice (tell : Stored -> Value) (gen : Stored -> Option Nat)
    (htell : forall c, checkedOf (tell c) =
      some ⟨AuthService.view c, gen c⟩) :
    (checkTwice options request
      (fun cookie => AuthService.withCookie service n (some cookie) tell)
      (fun cookie => AuthService.withCookie service m (some cookie) tell)).After
      answers (fun cs res s' => forall checked identity,
        res = Except.ok (some (checked, identity)) -> exists first current,
          Admits service options request cs s s' first current identity ∧
          checked = ⟨AuthService.view current, gen current⟩ ∧
          gen current = gen first) s := by
  unfold checkTwice
  cases hcookie : readSessionCookie request.rawHeaders with
  | none => exact fun checked identity h => (by cases h)
  | some cookie =>
      refine Prog.after_bind (Prog.after_left (after_withCookie tell))
        (fun cs e s' _ checked identity h => (by cases h))
        fun cs answer s1 h => ?_
      obtain ⟨before, hcs, hfirst⟩ := h
      rcases hfirst answer rfl with hanswer | ⟨first, hpassed, hanswer⟩
      · rw [hanswer]
        exact fun checked identity h => (by cases h)
      rw [hanswer]
      simp only [htell]
      split
      · exact fun checked identity h => (by cases h)
      rename_i hmode
      refine Prog.after_bind (Prog.after_and after_currentUpstreamIdentity
        (Prog.after_runs _ _)) (fun cs e s' _ checked identity h =>
          (by cases h)) fun between identity s2 h => ?_
      obtain ⟨hanswered, hruns⟩ := h
      show Prog.After _ _ (if _ then _ else _) s2
      split
      · exact fun checked identity h => (by cases h)
      refine Prog.after_bind (Prog.after_left (after_withCookie tell))
        (fun cs e s' _ checked identity h => (by cases h))
        fun cs' answer' s3 h => ?_
      obtain ⟨after, hcs', hcurrent⟩ := h
      rcases hcurrent answer' rfl with hanswer' | ⟨current, hpassed', hanswer'⟩
      · rw [hanswer']
        exact fun checked identity h => (by cases h)
      rw [hanswer']
      simp only [htell]
      split
      · exact fun checked identity h => (by cases h)
      rename_i hagree
      simp only [not_or, not_not, ne_eq, Bool.not_eq_false] at hagree hmode
      obtain ⟨hgen, hsame, hmatches⟩ := hagree
      intro checked identity' h
      cases h
      refine ⟨first, current, ⟨cookie, before, between, after, s1, s2, hcookie,
        ?_, hpassed, hruns, hanswered identity rfl, hpassed',
        agrees_of_checks hmode hsame hmatches⟩, rfl, hgen⟩
      rw [hcs, hcs', List.append_nil]

theorem after_resolveAuthentication :
    (resolveAuthentication service n m options request).After answers
      (fun cs res s' => forall locals, res = Except.ok (some locals) ->
        exists first current, Admits service options request cs s s' first
          current locals.upstreamIdentity ∧
          locals.authSession = AuthService.view current) s := by
  refine Prog.after_bind (after_checkTwice
    (fun c => Value.session (AuthService.view c)) (fun _ => none)
    fun c => rfl) (fun cs e s' _ locals h => (by cases h))
    fun cs checked s' h locals hlocals => ?_
  cases checked with
  | none => cases hlocals
  | some checked =>
      obtain ⟨first, current, hadmits, hchecked, _⟩ :=
        h checked.1 checked.2 rfl
      cases hlocals
      rw [List.append_nil]
      exact ⟨first, current, hadmits, congrArg Checked.session hchecked⟩

theorem after_resolveUpgradeAuthentication :
    (resolveUpgradeAuthentication service n m options request).After answers
      (fun cs res s' => forall authority, res = Except.ok (some authority) ->
        exists first current identity, Admits service options request cs s s'
          first current identity ∧ current.generation = first.generation ∧
          authority = ⟨current.id, current.generation,
            expiresAt (AuthService.view current)⟩) s := by
  refine Prog.after_bind (after_checkTwice
    (fun c => Value.authority (AuthService.view c) c.generation)
    (fun c => some c.generation) fun c => rfl)
    (fun cs e s' _ authority h => (by cases h))
    fun cs checked s' h authority hauthority => ?_
  cases checked with
  | none => cases hauthority
  | some checked =>
      obtain ⟨checked, identity⟩ := checked
      obtain ⟨first, current, hadmits, hchecked, hgen⟩ :=
        h checked identity rfl
      rw [hchecked] at hauthority
      cases hauthority
      rw [List.append_nil]
      exact ⟨first, current, identity, hadmits, Option.some.inj hgen, rfl⟩

theorem Passed.held {cs : List (Sigma AuthService.ports.Reply)} {c : Stored}
    (h : Passed service cookie cs s s' c) : Held service s' c := by
  intro w credentials heap cfg hrun hs
  have hrep : AuthService.Rep service s'.sessions := by
    rw [<- hs]
    exact hrun.ok.inv.base.rep
  obtain ⟨r, _, _, hget, hc, _⟩ := h.live
  exact ⟨r, (hrep.get_byDigest hget).1, hc⟩

theorem Admits.held {cs : List (Sigma calls.Reply)} {first current : Stored}
    {identity : Option UpstreamIdentity}
    (h : Admits service options request cs s s' first current identity) :
    Held service s' current := by
  obtain ⟨_, _, _, _, _, _, _, _, _, _, _, hpassed, _⟩ := h
  exact hpassed.held

end Runs

/-- What is admitted has been checked twice with the same cookie, before the
identity was awaited and in the state in which it has come.  Both checks found
a session of the configured mode with the same id, mode and label, for an
upgrade also of the same generation, and the identity that the provider gave
for this request has that mode and label. -/
theorem authentication_under_live_session {service : AuthService.Options}
    {n m : Nat} {options : Options} {request : Request} {s s' : State}
    {cs : List (Sigma calls.Reply)} :
    (forall locals, (resolveAuthentication service n m options request).Runs
        answers s cs (Except.ok (some locals)) s' ->
      exists first current, Admits service options request cs s s' first
        current locals.upstreamIdentity ∧ Held service s' current ∧
        locals.authSession = AuthService.view current) ∧
    forall authority,
      (resolveUpgradeAuthentication service n m options request).Runs
        answers s cs (Except.ok (some authority)) s' ->
      exists first current identity, Admits service options request cs s s'
        first current identity ∧ Held service s' current ∧
        current.generation = first.generation ∧
        authority = ⟨current.id, current.generation,
          expiresAt (AuthService.view current)⟩ := by
  constructor
  · intro locals hruns
    obtain ⟨first, current, hadmits, hlocals⟩ :=
      Prog.after_of_runs hruns after_resolveAuthentication locals rfl
    exact ⟨first, current, hadmits, hadmits.held, hlocals⟩
  · intro authority hruns
    obtain ⟨first, current, identity, hadmits, hgen, hauthority⟩ :=
      Prog.after_of_runs hruns after_resolveUpgradeAuthentication authority rfl
    exact ⟨first, current, identity, hadmits, hadmits.held, hgen, hauthority⟩

/-!
## A user behind a proxy
-/

def sampleToken : JsString :=
  js "AgICAgICAgICAgICAgICAgICAgICAgICAgICAgICAgI"

def sampleCell : Stored :=
  ⟨js "alice-1", 1, AuthMode.trusted_header, js "alice", 0, 0, 2000, 5000,
    some 3000, 0, AuthService.sampleHash sampleToken⟩

def sampleSessions : AuthService.Sessions :=
  ⟨fun _ => sampleCell, 1, [(sampleCell.id, 0)], [(sampleCell.digest, 0)], 1⟩

def sampleState : State :=
  ⟨sampleSessions, [], 0, [], 0, 0, false, [], AuthService.sampleCredentials,
    false, [], [], [], []⟩

def sampleRequest : Request :=
  ⟨some (js "10.0.0.1"), View.object [], none, RawHeaders.array
    [some (js "Host"), some (js "term.example"), some (js "Cookie"),
      some (js "theme=dark; flanterminal_session=" ++ sampleToken)]⟩

def sampleOptions : Options :=
  ⟨AuthMode.trusted_header, false, true⟩

def samplePick (s : State) : (c : calls.Call) -> calls.Reply c
  | Sum.inl c => AuthService.sampleReply s c
  | Sum.inr UpstreamCall.pause => ()
  | Sum.inr (UpstreamCall.cloudflareAccess _) => none
  | Sum.inr (UpstreamCall.trustedHeader _) =>
      some ⟨AuthMode.trusted_header, js "alice", none⟩

def sampleNext : (c : calls.Call) -> calls.Reply c -> State -> State
  | Sum.inl c, r, s => AuthService.reply 0 c r s
  | Sum.inr _, _, s => { s with observers := s.observers ++ [0] }

theorem samplePick_answers (s : State) (c : calls.Call) :
    answers s c (samplePick s c) (sampleNext c (samplePick s c) s) := by
  cases c with
  | inl c => exact fun _ => ⟨0, rfl⟩
  | inr c => trivial

def sampleResolve : Code (Option AuthenticatedLocals) :=
  resolveAuthentication AuthService.sampleOptions 7 8 sampleOptions
    sampleRequest

def sampleUpgrade : Code (Option ApplicationSessionAuthority) :=
  resolveUpgradeAuthentication AuthService.sampleOptions 7 8 sampleOptions
    sampleRequest

def admitted {value : Type} : Except Thrown (Option value) -> Option value
  | Except.ok v => v
  | Except.error _ => none

theorem admitted_some {value : Type} {res : Except Thrown (Option value)}
    (h : (admitted res).isSome = true) :
    exists v, res = Except.ok (some v) := by
  cases res with
  | error e => cases h
  | ok v =>
      cases v with
      | none => cases h
      | some v => exact ⟨v, rfl⟩

theorem samplePlayed_resolve : (admitted (Prog.playing samplePick sampleNext
    sampleResolve sampleState).2.1).isSome = true := by
  decide +kernel

theorem samplePlayed_upgrade : (admitted (Prog.playing samplePick sampleNext
    sampleUpgrade sampleState).2.1).isSome = true := by
  decide +kernel

theorem authentication_under_live_session_alice :
    (exists cs locals s', sampleResolve.Runs answers sampleState cs
        (Except.ok (some locals)) s' ∧
      exists first current, Admits AuthService.sampleOptions sampleOptions
        sampleRequest cs sampleState s' first current
        locals.upstreamIdentity ∧
        Held AuthService.sampleOptions s' current ∧
        locals.authSession = AuthService.view current) ∧
    exists cs authority s', sampleUpgrade.Runs answers sampleState cs
        (Except.ok (some authority)) s' ∧
      exists first current identity, Admits AuthService.sampleOptions
        sampleOptions sampleRequest cs sampleState s' first current identity ∧
        Held AuthService.sampleOptions s' current ∧
        current.generation = first.generation ∧
        authority = ⟨current.id, current.generation,
          expiresAt (AuthService.view current)⟩ := by
  constructor
  · have hruns := Prog.playing_runs samplePick_answers sampleResolve
      sampleState
    obtain ⟨locals, hlocals⟩ := admitted_some samplePlayed_resolve
    rw [hlocals] at hruns
    exact ⟨_, locals, _, hruns,
      authentication_under_live_session.1 locals hruns⟩
  · have hruns := Prog.playing_runs samplePick_answers sampleUpgrade
      sampleState
    obtain ⟨authority, hauthority⟩ := admitted_some samplePlayed_upgrade
    rw [hauthority] at hruns
    exact ⟨_, authority, _, hruns,
      authentication_under_live_session.2 authority hruns⟩

end AuthMiddleware
end Server
end FlanTerminal

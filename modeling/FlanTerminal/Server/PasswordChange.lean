import FlanTerminal.Server.AuthResults
import FlanTerminal.Server.PasswordRules

/-!
# Sessions and changes of the password

The operations of the authentication service keep the two queues in order.  At
the end of a change of the password every session that is left was established
on the new record or on a later one.
-/

namespace FlanTerminal
namespace Server
namespace AuthService
namespace Passwords

open Foundation
open CredentialStore (ReplaceResult EnrollmentResult Pending Stage Job Answer)

section Rules

variable {o : Options} {n : Nat} {value : Type}
variable {Q : Except Thrown value -> Phase -> Census -> State -> State -> Prop}
variable {ph : Phase} {K K' : State -> Prop} {cs : Census} {s0 s : State}

/-!
## Operations
-/

def Granted (slot : Slot) (n : Nat) (s : State) : Prop :=
  (Placed slot n s ∧ isFirst s n = true) ∧
    exists outcome basis, JustTold n outcome s.log ∧
      grants outcome = some basis

theorem turn_closed (slot : Slot) :
    Closed n (fun s => Placed slot n s ∧ isFirst s n = true) := by
  rintro s s' hquiet ⟨hplaced, hfirst⟩
  exact ⟨hplaced.quiet hquiet, by rw [isFirst_quiet hquiet]; exact hfirst⟩

theorem granted_closed (slot : Slot) : Closed n (Granted slot n) := by
  rintro s s' hquiet ⟨hturn, outcome, basis, htold, hgrant⟩
  exact ⟨turn_closed slot s s' hquiet hturn, outcome, basis,
    htold.quiet hquiet, hgrant⟩

theorem entrant_closed : Closed n (Entrant n) :=
  fun _ _ hquiet h => h.quiet hquiet

theorem At.establish {slot : Slot} {cookie : JsString} {cell : Stored}
    (h : At ph n (Granted slot n) cs s0 s) :
    At ph n (fun s => Placed slot n s ∧ isFirst s n = true) cs s0
      ((s.onSessions (Sessions.insert · cell)).record
        (Entry.established n s.sessions.allocated cookie cell)) := by
  rcases h.mine with ⟨⟨hplaced, hfirst⟩, htold⟩
  have hsame : forall m, Same m s ((s.onSessions (Sessions.insert · cell)).record
      (Entry.established n s.sessions.allocated cookie cell)) :=
    fun m => ⟨fun _ => Iff.rfl, fun _ => Iff.rfl, Iff.rfl, fun hf => hf,
      fun _ _ => Iff.rfl, fun _ => Iff.rfl⟩
  refine h.step ?_ rfl ⟨[_], rfl, ?_⟩ (fun m _ => hsame m) ?_
  · have hrecord := h.core.record
      (e := Entry.established n s.sessions.allocated cookie cell) htold nofun
    exact hrecord.congr rfl rfl (fun m hm => Or.inl hm) rfl rfl rfl
  · intro e he
    rw [List.mem_singleton.mp he]
    rfl
  · exact ⟨⟨hplaced.line, hplaced.waiting, hplaced.idle, hplaced.collected⟩,
      hfirst⟩

theorem wp_commitSession {slot : Slot} {prepared : PreparedSession}
    {beforeCommit : Code Unit} (hbefore : Plain n beforeCommit)
    (h : At ph n (Granted slot n) cs s0 s) :
    Wp o n (fun _ ph' cs' s0' s' => ph' = ph ∧
        At ph n (fun s => Placed slot n s ∧ isFirst s n = true) cs' s0' s')
      (commitSession o n prepared beforeCommit) ph cs s0 s := by
  have hend : forall {cs' s0' s'}, At ph n (Granted slot n) cs' s0' s' ->
      At ph n (fun s => Placed slot n s ∧ isFirst s n = true) cs' s0' s' :=
    fun h' => h'.know h'.mine.1
  unfold commitSession
  simp only [Prog.read_bind, Prog.wp_act, id_eq]
  split
  · exact ⟨rfl, hend h⟩
  · apply wp_plain_bind (now_plain none) (granted_closed slot) h
    · intro t cs1 s01 s1 h1
      simp only [Prog.wp_act, id_eq]
      apply wp_plain_bind hbefore (granted_closed slot) h1
      · intro _ cs2 s02 s2 h2
        apply wp_plain_bind (removeEach_plain _) (granted_closed slot) h2
        · intro _ cs3 s03 s3 h3
          simp only [Prog.modify_bind, Prog.wp_act]
          apply wp_plain_bind (emitAll_plain _) (turn_closed slot) h3.establish
          · intro _ cs4 s04 s4 h4
            exact ⟨rfl, h4⟩
          · intro e cs4 s04 s4 h4
            exact ⟨rfl, h4⟩
        · intro e cs3 s03 s3 h3
          exact ⟨rfl, hend h3⟩
      · intro e cs2 s02 s2 h2
        exact ⟨rfl, hend h2⟩
    · intro e cs1 s01 s1 h1
      exact ⟨rfl, hend h1⟩

theorem wp_safeEstablish {slot : Slot} {mode : AuthMode} {label : JsString}
    {expiresAt : Option ℚ} {beforeCommit : Code Unit}
    (hbefore : Plain n beforeCommit) (h : At ph n (Granted slot n) cs s0 s) :
    Wp o n (fun _ ph' cs' s0' s' => ph' = ph ∧
        At ph n (fun s => Placed slot n s ∧ isFirst s n = true) cs' s0' s')
      (safeEstablish o n mode label expiresAt beforeCommit) ph cs s0 s := by
  apply wp_plain_bind (prepareSession_plain o mode label expiresAt)
    (granted_closed slot) h
  · intro prepared cs1 s01 s1 h1
    exact wp_commitSession hbefore h1
  · intro e cs1 s01 s1 h1
    exact ⟨rfl, h1.know h1.mine.1⟩

/-- What an operation has done when its turn is over. -/
def Turned (slot : Slot) (n : Nat) {result : Type} (_ : Except Thrown result)
    (ph : Phase) (cs : Census) (s0 s : State) : Prop :=
  At ph n (fun s => Placed slot n s ∧ isFirst s n = true) cs s0 s

theorem wp_establishResult {slot : Slot} {mode : AuthMode} {label : JsString}
    {address : JsString} (h : At ph n (Granted slot n) cs s0 s) :
    Wp o n (Turned slot n)
      (do
        let r ← safeEstablish o n mode label none (resetLimiter address)
        pure (Value.result r)) ph cs s0 s := by
  apply Prog.wp_bind.mpr
  apply Prog.wp_mono _ (wp_safeEstablish (resetLimiter_plain address) h)
  rintro res ph' cs' s0' s' ⟨rfl, h'⟩
  cases res with
  | ok a => exact h'
  | error e => exact h'

theorem wp_completeLoginSlot {label address : JsString}
    (h : At ph n (fun s => Verifying n s ∧ isFirst s n = true) cs s0 s) :
    Wp o n (Turned Slot.login n) (completeLoginSlot o n label address)
      ph cs s0 s := by
  apply wp_verification h
  intro cs' s0' s' r outcome h' hr
  rcases h'.mine with ⟨hplaced, hfirst, htold⟩
  have hend : At Phase.later n (fun s => Placed Slot.login n s ∧
      isFirst s n = true) cs' s0' s' := h'.know ⟨hplaced, hfirst⟩
  cases r with
  | failed => exact hend
  | ok valid =>
      cases valid with
      | false => exact hend
      | true =>
          rcases hr rfl with ⟨version, houtcome⟩
          apply wp_establishResult
          apply h'.know
          refine ⟨⟨hplaced, hfirst⟩, outcome, version, htold, ?_⟩
          rw [houtcome]
          rfl

theorem wp_completeSetup {password address : JsString}
    (h : At ph n (fun s => Placed Slot.setup n s ∧ isFirst s n = true)
      cs s0 s) :
    Wp o n (Turned Slot.setup n) (completeSetup o n password address)
      ph cs s0 s := by
  apply wp_enroll h
  intro cs' s0' s' r outcome h' hr
  rcases h'.mine with ⟨hplaced, hfirst, htold⟩
  have hend : At Phase.later n (fun s => Placed Slot.setup n s ∧
      isFirst s n = true) cs' s0' s' := h'.know ⟨hplaced, hfirst⟩
  cases r with
  | none => exact hend
  | some result =>
      cases result with
      | already_initialized => exact hend
      | not_committed => exact hend
      | enrolled persistence =>
          rcases hr _ rfl with ⟨version, houtcome⟩
          have hgranted : Granted Slot.setup n s' := by
            refine ⟨⟨hplaced, hfirst⟩, outcome, version, htold, ?_⟩
            rw [houtcome]
            rfl
          have hgo := h'.know hgranted
          show Wp o n (Turned Slot.setup n) (if persistence =
            ReplaceResult.committed_durability_uncertain then _ else _)
            _ _ _ _
          split
          · apply wp_plain_bind (Plain.ask rfl) (granted_closed Slot.setup) hgo
            · intro _ cs1 s01 s1 h1
              exact wp_establishResult h1
            · intro e cs1 s01 s1 h1
              exact h1.know h1.mine.1
          · exact wp_establishResult hgo

/-- Operation `op` has left the queues, and its result is justified. -/
def Done (op : Op) (n : Nat) (res : Except Thrown Value) (ph : Phase)
    (cs : Census) (s0 s : State) : Prop :=
  At ph n (fun s => Out s n ∧ Credits s.log (Entry.ended n op res)) cs s0 s

theorem At.done {op : Op} {res : Except Thrown Value}
    (h : At ph n K cs s0 s) (hout : Out s n)
    (hop : isPasswordChange op = false) : Done op n res ph cs s0 s := by
  apply h.know
  refine ⟨hout, ?_⟩
  intro hchange
  rw [hop] at hchange
  cases hchange

theorem done_closed (op : Op) (res : Except Thrown Value) :
    Closed n (fun s => Out s n ∧ Credits s.log (Entry.ended n op res)) := by
  rintro s s' hquiet ⟨hout, hcredits⟩
  refine ⟨hout.quiet hquiet, ?_⟩
  intro hop hres
  rcases hcredits hop hres with ⟨result, version, hresult, htold⟩
  exact ⟨result, version, hresult, htold.quiet hquiet⟩

theorem Done.end {op : Op} {res : Except Thrown Value}
    (h : Done op n res ph cs s0 s) :
    endPost (auth o localWorld) contract n op res ph cs s0 s := by
  rcases h.mine with ⟨hout, hcredits⟩
  have hsame : forall m, Same m s (s.record (Entry.ended n op res)) :=
    fun m => ⟨fun _ => Iff.rfl, fun _ => Iff.rfl, Iff.rfl, fun hf => hf,
      fun _ _ => Iff.rfl, fun _ => Iff.rfl⟩
  refine ⟨⟨h.core.record hcredits nofun, ?_⟩,
    h.guar.step ⟨[_], rfl, ?_⟩ (fun m _ => hsame m)⟩
  · intro m
    by_cases hm : m = n
    · rw [hm]
      exact Or.inr (hout.same (hsame n)).local
    · exact (h.others m hm).imp id (·.same (hsame m))
  · intro e he
    rw [List.mem_singleton.mp he]
    rfl

theorem wp_thenFinally {op : Op} {p : Code Value} {q : Code Unit}
    (hq : Plain n q) (hp : Wp o n (Done op n) p ph cs s0 s) :
    Wp o n (Done op n) (thenFinally p q) ph cs s0 s := by
  apply Prog.wp_always.mpr
  apply Prog.wp_mono _ hp
  intro res ph' cs' s0' s' h'
  show Wp o n _ (Prog.call (I := ports) PortCall.settled fun _ => q) _ _ _ _
  apply wp_settled (L := fun log => Credits log (Entry.ended n op res)) h'
  · intro log more hmore hcredits hop hres
    rcases hcredits hop hres with ⟨result, version, hresult, htold⟩
    refine ⟨result, version, hresult, htold.append ?_⟩
    intro x hx
    exact hmore _ hx rfl
  · intro cs1 s01 s1 h1
    apply Prog.wp_mono _ (wp_plain hq (done_closed op res) h1)
    rintro res' ph2 cs2 s02 s2 ⟨rfl, h2⟩
    cases res' with
    | ok _ => exact h2
    | error e => exact h2.know ⟨h2.mine.1, nofun⟩

theorem wp_turnOver {op : Op} {slot : Slot} {operation : Code Value}
    (hop : isPasswordChange op = false)
    (h : Wp o n (Turned slot n) operation ph cs s0 s) :
    Wp o n (Done op n) (Prog.always operation
      (Prog.modify fun s => { s with line := s.line.tail })) ph cs s0 s := by
  apply Prog.wp_always.mpr
  apply Prog.wp_mono _ h
  intro res ph' cs' s0' s' h'
  have hout := At.finish h'
  exact hout.done hout.mine hop

theorem initialized_some {c : CredentialStore.State}
    (h : c.isInitialized = some true) : c.current.isSome = true := by
  unfold CredentialStore.State.isInitialized at h
  split at h
  · exact Option.some.inj h
  · cases h

theorem initialized_none {c : CredentialStore.State}
    (h : c.isInitialized = some false) : c.current = none := by
  unfold CredentialStore.State.isInitialized at h
  split at h
  · exact Option.not_isSome_iff_eq_none.mp
      (Bool.eq_false_iff.mp (Option.some.inj h))
  · cases h

/-- Outside a drain a password that has been set means that the first enrolment
is over. -/
theorem Entrant.late {next : Nat} (h : Entrant n s) (hcore : Core next s)
    (hsome : s.credentials.current.isSome = true) : ¬ Early s := by
  rintro (hnone | ⟨m, hm⟩)
  · rw [hnone] at hsome
    cases hsome
  · have hdraining := (hcore.settling m hm hsome).1
    rw [h.settled] at hdraining
    cases hdraining

theorem late_closed : Closed n (fun s => Entrant n s ∧ ¬ Early s) := by
  rintro s s' hquiet ⟨hin, hlate⟩
  exact ⟨hin.quiet hquiet, fun hearly => hlate ((Early.quiet hquiet).mp hearly)⟩

section Login

variable {op : Op} {username password label address : JsString}

theorem wp_verifyAndEstablish (hop : isPasswordChange op = false)
    (h : At ph n (fun s => Entrant n s ∧ ¬ Early s) cs s0 s) :
    Wp o n (Done op n)
      (verifyAndEstablish o n username password label address)
      ph cs s0 s := by
  apply wp_startVerify (h.know h.mine.1) h.mine.2
  intro s1 h1
  apply wp_thenFinally releaseLocal_plain
  apply wp_turn_login h1
  intro cs2 s02 s2 h2
  exact wp_turnOver hop (wp_completeLoginSlot h2)

theorem wp_consumeAndVerify (hop : isPasswordChange op = false)
    (h : At ph n (fun s => Entrant n s ∧ ¬ Early s) cs s0 s) :
    Wp o n (Done op n)
      (consumeAndVerify o n username password label address)
      ph cs s0 s := by
  have hstop : forall {res cs' s0' s'},
      At ph n (fun s => Entrant n s ∧ ¬ Early s) cs' s0' s' ->
      Done op n res ph cs' s0' s' := fun h' => h'.done h'.mine.1.out hop
  apply wp_plain_bind (Plain.ask rfl) late_closed h
  · intro r cs1 s01 s1 h1
    cases r with
    | none =>
        apply wp_plain_bind releaseEstablishment_plain late_closed h1
        · intro _ cs2 s02 s2 h2
          exact hstop h2
        · intro e cs2 s02 s2 h2
          exact hstop h2
    | some allowed =>
        cases allowed with
        | false =>
            apply wp_plain_bind releaseEstablishment_plain late_closed h1
            · intro _ cs2 s02 s2 h2
              exact hstop h2
            · intro e cs2 s02 s2 h2
              exact hstop h2
        | true =>
            have hquiet : Quiet n s1 { s1 with
                pendingLocalAttempts := s1.pendingLocalAttempts + 1 } :=
              ⟨rfl, rfl, rfl, rfl, rfl, Or.inl rfl⟩
            exact wp_verifyAndEstablish hop (h1.quiet late_closed hquiet)
  · intro e cs1 s01 s1 h1
    exact hstop h1

theorem wp_attemptLogin (hop : isPasswordChange op = false)
    (h : At ph n (fun s => Entrant n s ∧ ¬ Early s) cs s0 s) :
    Wp o n (Done op n) (attemptLogin o n username password address)
      ph cs s0 s := by
  have hstop : forall {res cs' s0' s'},
      At ph n (fun s => Entrant n s ∧ ¬ Early s) cs' s0' s' ->
      Done op n res ph cs' s0' s' := fun h' => h'.done h'.mine.1.out hop
  unfold attemptLogin
  simp only [Prog.read_bind, Prog.wp_act, id_eq]
  split
  · exact hstop h
  · apply wp_plain_bind (reserveEstablishment_plain o) late_closed h
    · intro reserved cs1 s01 s1 h1
      cases reserved with
      | false => exact hstop h1
      | true =>
          cases hlabel : normalizeLabel o username with
          | none =>
              apply wp_plain_bind releaseEstablishment_plain late_closed h1
              · intro _ cs2 s02 s2 h2
                exact hstop h2
              · intro e cs2 s02 s2 h2
                exact hstop h2
          | some label => exact wp_consumeAndVerify hop h1
    · intro e cs1 s01 s1 h1
      exact hstop h1

theorem wp_login (hop : isPasswordChange op = false)
    (h : At ph n (Entrant n) cs s0 s) :
    Wp o n (Done op n) (login o n username password address) ph cs s0 s := by
  have hstop : forall {res}, Done op n res ph cs s0 s :=
    h.done h.mine.out hop
  unfold login
  split
  · exact hstop
  · apply (Prog.wp_sync rfl).mpr
    intro r hr
    have hr' : r = s.credentials.isInitialized := hr
    show Wp o n _ ((need r : Code Bool) >>= _) ph cs s0 s
    cases r with
    | none => exact hstop
    | some initialized =>
        cases initialized with
        | false => exact hstop
        | true =>
            have hsome := initialized_some hr'.symm
            exact wp_attemptLogin hop
              (h.know ⟨h.mine, h.mine.late h.core hsome⟩)

end Login

theorem none_closed : Closed n (fun s => Entrant n s ∧
    s.credentials.current = none) := by
  rintro s s' hquiet ⟨hin, hnone⟩
  exact ⟨hin.quiet hquiet, by rw [hquiet.credentials]; exact hnone⟩

section Setup

variable {op : Op} {password address : JsString}

theorem wp_setupLimited (hop : isPasswordChange op = false)
    (h : At ph n (fun s => Entrant n s ∧ s.credentials.current = none)
      cs s0 s) :
    Wp o n (Done op n) (setupLimited o) ph cs s0 s :=
  h.done h.mine.1.out hop

theorem wp_consumeAndEnroll (hop : isPasswordChange op = false)
    (h : At ph n (fun s => Entrant n s ∧ s.credentials.current = none)
      cs s0 s) :
    Wp o n (Done op n) (consumeAndEnroll o n password address)
      ph cs s0 s := by
  have hstop : forall {res cs' s0' s'},
      At ph n (fun s => Entrant n s ∧ s.credentials.current = none)
        cs' s0' s' ->
      Done op n res ph cs' s0' s' := fun h' => h'.done h'.mine.1.out hop
  apply wp_plain_bind (Plain.ask rfl) none_closed h
  · intro r cs1 s01 s1 h1
    cases r with
    | none =>
        apply wp_plain_bind releaseEstablishment_plain none_closed h1
        · intro _ cs2 s02 s2 h2
          exact hstop h2
        · intro e cs2 s02 s2 h2
          exact hstop h2
    | some allowed =>
        cases allowed with
        | false =>
            apply wp_plain_bind releaseEstablishment_plain none_closed h1
            · intro _ cs2 s02 s2 h2
              exact wp_setupLimited hop h2
            · intro e cs2 s02 s2 h2
              exact hstop h2
        | true =>
            have hquiet : Quiet n s1 { s1 with
                pendingLocalAttempts := s1.pendingLocalAttempts + 1 } :=
              ⟨rfl, rfl, rfl, rfl, rfl, Or.inl rfl⟩
            have h2 := h1.quiet none_closed hquiet
            have h3 := (h2.know h2.mine.1).reserve_setup h2.mine.2
            apply wp_thenFinally releaseLocal_plain
            apply wp_turn_setup h3
            intro cs4 s04 s4 h4
            exact wp_turnOver hop (wp_completeSetup h4)
  · intro e cs1 s01 s1 h1
    exact hstop h1

theorem wp_attemptSetup (hop : isPasswordChange op = false)
    (h : At ph n (fun s => Entrant n s ∧ s.credentials.current = none)
      cs s0 s) :
    Wp o n (Done op n) (attemptSetup o n password address) ph cs s0 s := by
  unfold attemptSetup
  simp only [Prog.read_bind, Prog.wp_act, id_eq]
  split
  · exact wp_setupLimited hop h
  · apply wp_plain_bind (reserveEstablishment_plain o) none_closed h
    · intro reserved cs1 s01 s1 h1
      cases reserved with
      | false => exact wp_setupLimited hop h1
      | true => exact wp_consumeAndEnroll hop h1
    · intro e cs1 s01 s1 h1
      exact h1.done h1.mine.1.out hop

theorem wp_setup (hop : isPasswordChange op = false)
    (h : At ph n (Entrant n) cs s0 s) :
    Wp o n (Done op n) (setup o n password address) ph cs s0 s := by
  have hstop : forall {res}, Done op n res ph cs s0 s :=
    h.done h.mine.out hop
  unfold setup
  split
  · exact hstop
  · apply (Prog.wp_sync rfl).mpr
    intro r hr
    have hr' : r = s.credentials.isInitialized := hr
    show Wp o n _ ((need r : Code Bool) >>= _) ph cs s0 s
    cases r with
    | none => exact hstop
    | some initialized =>
        cases initialized with
        | true => exact hstop
        | false =>
            exact wp_attemptSetup hop
              (h.know ⟨h.mine, initialized_none hr'.symm⟩)

end Setup

/-!
## The change of the password
-/

theorem At.refused {op : Op} {res : Except Thrown Value}
    (h : At ph n K cs s0 s) (hout : Out s n)
    (hres : res ≠ Except.ok (Value.flag true)) : Done op n res ph cs s0 s :=
  h.know ⟨hout, fun _ hflag => absurd hflag hres⟩

theorem wp_ifLive {r : Ref} {failed : Value} {k : Code Value}
    {R : Except Thrown Value -> Phase -> Census -> State -> State -> Prop}
    (hK : Closed n K) (h : At ph n K cs s0 s)
    (hstop : forall res cs' s0' s', At ph n K cs' s0' s' ->
      (forall v, res = Except.ok v -> v = failed) -> R res ph cs' s0' s')
    (hk : forall cs' s0' s', At ph n K cs' s0' s' ->
      Wp o n R k ph cs' s0' s') :
    Wp o n R (ifLive n r failed k) ph cs s0 s := by
  apply wp_plain_bind (expiredReason_plain r) hK h
  · intro reason cs1 s01 s1 h1
    cases reason with
    | none => exact hk cs1 s01 s1 h1
    | some reason =>
        apply wp_plain_bind (revoke_plain r reason) hK h1
        · intro _ cs2 s02 s2 h2
          apply hstop _ cs2 s02 s2 h2
          intro v hv
          cases hv
          rfl
        · intro e cs2 s02 s2 h2
          exact hstop _ cs2 s02 s2 h2 nofun
  · intro e cs1 s01 s1 h1
    exact hstop _ cs1 s01 s1 h1 nofun

theorem over_closed : Closed n (fun s => Out s n ∧ ¬ Early s) := by
  rintro s s' hquiet ⟨hout, hlate⟩
  exact ⟨hout.quiet hquiet, fun hearly => hlate ((Early.quiet hquiet).mp hearly)⟩

def Replaced (n : Nat) (s : State) : Prop :=
  Out s n ∧ exists result version, result ≠ ReplaceResult.not_committed ∧
    LastTold n (CredentialStore.Outcome.replacement result version) s.log

theorem replaced_closed : Closed n (Replaced n) := by
  rintro s s' hquiet ⟨hout, result, version, hresult, htold⟩
  exact ⟨hout.quiet hquiet, result, version, hresult, htold.quiet hquiet⟩

section Change

variable {op : Op} {id current replacement : JsString}

theorem wp_replaceAndRevoke
    (h : At ph n (fun s => Out s n ∧ ¬ Early s) cs s0 s) :
    Wp o n (Done op n) (replaceAndRevoke n replacement) ph cs s0 s := by
  apply wp_replacePassword h
  intro cs1 s01 s1 r h1
  rcases h1.mine with ⟨hout, htold⟩
  show Wp o n _ ((need r : Code ReplaceResult) >>= _) Phase.later cs1 s01 s1
  cases r with
  | none => exact h1.refused hout (fun h => by cases h)
  | some result =>
      rcases htold result rfl with ⟨version, hlast⟩
      show Wp o n _ (if result = ReplaceResult.not_committed then _ else _)
        Phase.later cs1 s01 s1
      split
      · exact h1.refused hout (fun h => by cases h)
      · rename_i hresult
        have h2 : At Phase.later n (Replaced n) cs1 s01 s1 :=
          h1.know ⟨hout, result, version, hresult, hlast⟩
        simp only [Prog.read_bind, Prog.wp_act, id_eq]
        apply wp_plain_bind (revokeEach_plain _ _) replaced_closed h2
        · intro _ cs3 s03 s3 h3
          exact h3.know ⟨h3.mine.1, fun _ _ => h3.mine.2⟩
        · intro e cs3 s03 s3 h3
          exact h3.refused h3.mine.1 (fun h => by cases h)

theorem wp_runPasswordChange (h : At ph n (Entrant n) cs s0 s) :
    Wp o n (Done op n) (runPasswordChange n id current replacement)
      ph cs s0 s := by
  have hno : forall res : Except Thrown Value,
      (forall v, res = Except.ok v -> v = Value.flag false) ->
      res ≠ Except.ok (Value.flag true) := by
    intro res hres hflag
    cases hres _ hflag
  unfold runPasswordChange
  simp only [Prog.read_bind, Prog.wp_act, id_eq]
  split
  · exact h.refused h.mine.out nofun
  · rename_i r _
    split
    · exact h.refused h.mine.out nofun
    · apply wp_ifLive entrant_closed h
      · intro res cs1 s01 s1 h1 hres
        exact h1.refused h1.mine.out (hno res hres)
      · intro cs1 s01 s1 h1
        simp only [Prog.wp_act, id_eq]
        apply wp_verify (h1.know ⟨h1.mine.out, h1.mine.late h1.core⟩)
        intro cs2 s02 s2 reply h2
        rcases h2.mine with ⟨hout, hvalid⟩
        show Wp o n _ ((need reply : Code Bool) >>= _) Phase.later cs2 s02 s2
        cases reply with
        | none => exact h2.refused hout nofun
        | some valid =>
            cases valid with
            | false => exact h2.refused hout nofun
            | true =>
                have h3 : At Phase.later n (fun s => Out s n ∧ ¬ Early s)
                    cs2 s02 s2 := h2.know ⟨hout, hvalid rfl⟩
                show Wp o n _ (if s2.sessions.byId.get id ≠ some r then _
                  else _) Phase.later cs2 s02 s2
                split
                · exact h3.refused hout nofun
                · apply wp_ifLive over_closed h3
                  · intro res cs4 s04 s4 h4 hres
                    exact h4.refused h4.mine.1 (hno res hres)
                  · intro cs4 s04 s4 h4
                    exact wp_replaceAndRevoke h4

theorem wp_changePassword (h : At ph n (Entrant n) cs s0 s) :
    Wp o n (Done op n) (changePassword n id current replacement)
      ph cs s0 s := by
  unfold changePassword
  simp only [Prog.read_bind, Prog.wp_act, id_eq]
  split
  · exact h.refused h.mine.out (fun h => by cases h)
  · have hquiet : Quiet n s { s with passwordChangeActive := true } :=
      ⟨rfl, rfl, rfl, rfl, rfl, Or.inl rfl⟩
    apply wp_thenFinally
    · apply Plain.modify
      intro s'
      exact ⟨rfl, rfl, rfl, rfl, rfl, Or.inl rfl⟩
    · exact wp_runPasswordChange (h.quiet entrant_closed hquiet)

end Change

end Rules

/-!
## Runs
-/

theorem At.initial {s : State} {cs : Census} (op : Op)
    (hinv : Queues cs.next s) (hcalls : s.calls = []) (hdraining : s.draining = false) :
    At Phase.first cs.next (Entrant cs.next) cs.enter s
      (s.record (Entry.entered cs.next op)) := by
  have hcore := hinv.core
  rcases hcore.fresh cs.next (Nat.le_refl _) with ⟨hout, _⟩
  have h : At Phase.first cs.next (Entrant cs.next) cs.enter s s := by
    refine ⟨hcore.mono (Nat.le_succ _), fun m _ => hinv.locals m, ?_, ?_,
      fun _ => hcalls, Nat.lt_succ_self _, ⟨hout, ?_, hdraining⟩⟩
    · apply Guar.refl
      intro _ m hm
      rw [hcalls] at hm
      cases hm
    · rw [hcalls]
      exact List.not_mem_nil
    · intro m k hmk
      apply Nat.lt_of_not_le
      intro hle
      exact (hcore.fresh m hle).1.line k hmk
  exact h.quiet entrant_closed (Quiet.record rfl rfl)

theorem queues_sound (o : Options) :
    contract.Sound (auth o localWorld) := by
  constructor
  · exact Rely.refl
  · exact Rely.trans
  · intro cs n m s s' b hinv hne hguar
    cases b with
    | sync => exact Guar.kept hguar hne
    | await => exact Guar.kept hguar hne
    | callback =>
        intro hm
        exact absurd (Guar.alone hguar rfl m hm).symm hne
  · intro cs n m s s' hinv hne hguar
    exact Guar.kept hguar hne
  · rintro cs s s' hinv ⟨credentials, draining, hstep, rfl⟩
    refine ⟨Queues.store_step hinv hstep, ?_⟩
    have hcalls : s.calls = [] := by
      cases hstep with
      | start hcalls _ => exact hcalls
      | complete answer hquiet _ _ => exact hquiet.calls
      | drained hquiet => exact hquiet.calls
    intro b m
    have hkept : Kept m s (State.withStore s credentials draining) :=
      ⟨fun _ => Iff.rfl, fun _ => Iff.rfl, Iff.rfl, [],
        (List.append_nil _).symm, fun _ he => absurd he List.not_mem_nil⟩
    cases b with
    | sync => exact hkept
    | await => exact hkept
    | callback =>
        intro hm
        rw [hcalls] at hm
        cases hm
  · rintro cs s op hok hinv ⟨hlocal, hdraining, hcalls⟩
    have h := At.initial op hinv hcalls hdraining
    have hwp : Wp o cs.next (Done op cs.next) (body o cs.next op)
        Phase.first cs.enter s (s.record (Entry.entered cs.next op)) := by
      cases op with
      | login username password address => exact wp_login rfl h
      | setup password address => exact wp_setup rfl h
      | logout id =>
          apply Prog.wp_mono _ (wp_plain (logout_plain id) entrant_closed h)
          rintro res ph cs' s0' s' ⟨rfl, h'⟩
          exact h'.done h'.mine.out rfl
      | changePassword id current replacement => exact wp_changePassword h
      | _ => cases hlocal
    exact Prog.wp_mono (fun _ _ _ _ _ hdone => Done.end hdone) hwp

theorem lastTold_unique {n : Nat} {a a' b b' : List Entry}
    {x y : Option CredentialStore.Outcome}
    (h : a ++ Entry.told n x :: b = a' ++ Entry.told n y :: b')
    (hb : forall z, Entry.told n z ∉ b) (hb' : forall z, Entry.told n z ∉ b') :
    x = y := by
  rcases List.append_eq_append_iff.mp h with ⟨c, hc, hrest⟩ | ⟨c, hc, hrest⟩
  · cases c with
    | nil =>
        rw [List.nil_append] at hrest
        exact (Entry.told.inj (List.cons.inj hrest).1).2
    | cons e c =>
        have hmem : Entry.told n y ∈ b := by
          rw [(List.cons.inj hrest).2]
          exact List.mem_append_right _ List.mem_cons_self
        exact absurd hmem (hb y)
  · cases c with
    | nil =>
        rw [List.nil_append] at hrest
        exact (Entry.told.inj (List.cons.inj hrest).1).2.symm
    | cons e c =>
        have hmem : Entry.told n x ∈ b' := by
          rw [(List.cons.inj hrest).2]
          exact List.mem_append_right _ List.mem_cons_self
        exact absurd hmem (hb' x)

/-- Operation `m` has established session `r`, and the last answer it had of
the credential store before is `outcome`. -/
def EstablishedOn (log : List Entry) (m : Nat) (r : Ref)
    (outcome : CredentialStore.Outcome) : Prop :=
  exists before cookie cell after,
    log = before ++ Entry.established m r cookie cell :: after ∧
      LastTold m outcome before

theorem cellIn_of_mem {log : List Entry} {m : Nat} {r : Ref}
    {cookie : JsString} {cell : Stored}
    (h : Entry.established m r cookie cell ∈ log) :
    (cellIn r log).isSome = true := by
  unfold cellIn
  rw [List.findSome?_isSome_iff]
  exact ⟨_, h, by simp [Entry.birth]⟩

theorem mem_before {a b c d : List Entry} {e x : Entry}
    (h : a ++ x :: b = c ++ e :: d) (hne : x ≠ e) (hnot : e ∉ a) : x ∈ c := by
  rcases List.append_eq_append_iff.mp h with ⟨f, hf, hrest⟩ | ⟨f, hf, hrest⟩
  · cases f with
    | nil =>
        rw [List.nil_append] at hrest
        exact absurd (List.cons.inj hrest).1 hne
    | cons y f =>
        rw [hf, (List.cons.inj hrest).1]
        exact List.mem_append_right _ List.mem_cons_self
  · cases f with
    | nil =>
        rw [List.nil_append] at hrest
        exact absurd (List.cons.inj hrest).1.symm hne
    | cons y f =>
        rw [(List.cons.inj hrest).1, hf] at hnot
        exact absurd (List.mem_append_right _ List.mem_cons_self) hnot

section Results

variable {o : Options} {credentials : CredentialStore.State}
variable {heap : Ref -> Stored}
variable {cfg : Config State ports Thrown Value Op}

theorem Queues.initial (hqueue : credentials.queue = [])
    (hsettled : credentials.settled = []) :
    Queues 0 (State.initial credentials heap) := by
  have hout : forall n, Out (State.initial credentials heap) n := by
    intro n
    refine ⟨fun _ h => absurd h List.not_mem_nil,
      fun _ h => absurd h List.not_mem_nil, ?_, ?_⟩
    · rintro ⟨p, hp, _⟩
      rw [show (State.initial credentials heap).credentials.queue = [] from
        hqueue] at hp
      exact absurd hp List.not_mem_nil
    · rintro ⟨x, hx⟩
      rw [show (State.initial credentials heap).credentials.settled = [] from
        hsettled] at hx
      exact absurd hx List.not_mem_nil
  have hjob : forall p, p ∉ (State.initial credentials heap).credentials.queue :=
    fun p hp => (hout p.caller).idle ⟨p, hp, rfl⟩
  have hanswer : forall n x,
      (n, x) ∉ (State.initial credentials heap).credentials.settled :=
    fun n x hx => (hout n).collected ⟨x, hx⟩
  have htail : forall p,
      p ∉ (State.initial credentials heap).credentials.queue.tail :=
    fun p hp => hjob p (List.mem_of_mem_tail hp)
  refine ⟨⟨List.Pairwise.nil, List.nodup_nil, ?_, ?_, ?_, ?_, ?_, ?_, ?_, ?_⟩,
    fun n => Or.inr (hout n).local⟩
  · refine ⟨?_, fun p hp => absurd hp (htail p), fun p hp => absurd hp (hjob p),
      fun p hp => absurd hp (hjob p), fun n x _ hx => absurd hx (hanswer n x),
      fun n x _ hx => absurd hx (hanswer n x)⟩
    show (credentials.queue.map Pending.caller).Nodup
    rw [hqueue]
    exact List.nodup_nil
  · show credentials.queue.Pairwise _
    rw [hqueue]
    exact List.Pairwise.nil
  · exact fun n x _ hx => absurd hx (hanswer n x)
  · intro _
    exact ⟨fun n k hk => absurd hk ((hout n).line k),
      fun p hp => absurd hp (hjob p), fun n _ hx => hanswer n _ hx⟩
  · exact fun n hn => absurd hn ((hout n).line _)
  · exact fun n _ => ⟨hout n, List.not_mem_nil⟩
  · exact everyEntry_nil _
  · exact fun m x _ hx => absurd hx List.not_mem_nil

theorem queues_ok (hqueue : credentials.queue = [])
    (hsettled : credentials.settled = [])
    (hrun : Run o localWorld credentials heap cfg) :
    Queues cfg.next cfg.shared :=
  (Reachable.ok (queues_sound o) (Queues.initial hqueue hsettled) hrun).inv

/-- No session is left that was established on a record older than the one a
successful change of the password has committed. -/
theorem password_change_ends_older_sessions (hqueue : credentials.queue = [])
    (hsettled : credentials.settled = [])
    (hrun : Run o localWorld credentials heap cfg) {n : Nat}
    {id current replacement : JsString}
    (hended : Entry.ended n (Op.changePassword id current replacement)
      (Except.ok (Value.flag true)) ∈ cfg.shared.log) :
    exists result version, result ≠ ReplaceResult.not_committed ∧
      Entry.told n (some (CredentialStore.Outcome.replacement result version)) ∈
        cfg.shared.log ∧
      forall r, r ∈ cfg.shared.sessions.held ->
        (exists m outcome, EstablishedOn cfg.shared.log m r outcome) ∧
        forall m outcome, EstablishedOn cfg.shared.log m r outcome ->
          exists basis, grants outcome = some basis ∧ version ≤ basis := by
  have hqueues := queues_ok hqueue hsettled hrun
  have hbase := hrun.ok.inv.base
  have hentries := hqueues.core.entries
  rcases List.append_of_mem hended with ⟨before, after, hlog⟩
  rcases hentries before _ after hlog rfl rfl with
    ⟨result, version, hresult, first, second, hbefore, hlast⟩
  rcases hbase.good before _ after hlog _ rfl rfl with
    ⟨_, _, _, _, _, _, _, _, hcleared⟩
  rcases hcleared rfl with ⟨front, answer, back, hsplit, hback, hremoved⟩
  have hanswer := lastTold_unique (hsplit.symm.trans hbefore) hback hlast
  refine ⟨result, version, hresult, ?_, ?_⟩
  · rw [hlog, hbefore]
    simp
  intro r hr
  have hborn := hbase.rep.placed r hr
  have hkept : ¬ RemovedIn r cfg.shared.log := (hbase.history.kept r hborn).mp hr
  constructor
  · rcases hbase.cell hr with ⟨cookie, cell, hcell, _⟩
    rcases established_of_cellIn hcell with ⟨m, hm⟩
    rcases List.append_of_mem hm with ⟨a, b, hab⟩
    rcases hentries a _ b hab with ⟨outcome, _, htold, _⟩
    exact ⟨m, outcome, a, cookie, cell, b, hab, htold.last⟩
  · rintro m outcome ⟨a, cookie, cell, b, hab, hlast'⟩
    rcases hentries a _ b hab with ⟨outcome', basis, htold, hgrant⟩
    have heq : outcome' = outcome := by
      rcases htold.last with ⟨c, d, hcd, hd⟩
      rcases hlast' with ⟨c', d', hcd', hd'⟩
      exact Option.some.inj (lastTold_unique (hcd.symm.trans hcd') hd hd')
    rw [heq] at htold hgrant
    refine ⟨basis, hgrant, ?_⟩
    -- the session came after the answer to the change of the password
    have hafter : Entry.told n answer ∈ a := by
      have hwhole : front ++ Entry.told n answer :: (back ++ Entry.ended n
          (Op.changePassword id current replacement)
          (Except.ok (Value.flag true)) :: after) =
          a ++ Entry.established m r cookie cell :: b := by
        rw [← hab, hlog, hsplit]
        simp
      apply mem_before hwhole
      · exact Entry.noConfusion
      · intro hmem
        apply hkept
        rw [hlog]
        exact (hremoved r (cellIn_of_mem hmem)).append _
    rcases htold with ⟨c, d, hcd, hd⟩
    rw [hcd] at hafter
    rcases List.mem_append.mp hafter with hmem | hmem
    · have hcredits := hentries c (Entry.told m (some outcome))
        (d ++ Entry.established m r cookie cell :: b)
        (by rw [hab, hcd]; simp)
      rw [hanswer] at hmem
      exact hcredits outcome basis rfl hgrant n _ version hmem rfl
    · rcases List.mem_cons.mp hmem with hmem | hmem
      · rw [hanswer] at hmem
        cases hmem
        cases hgrant
      · cases hd _ hmem

end Results

/-!
## A run

A login, a change of the password and a login with the new password.
-/

theorem localOptions_idle : (0 : ℚ) < 1000 := by
  decide +kernel

theorem localOptions_absolute : (0 : ℚ) < 5000 := by
  decide +kernel

def localOptions : Options where
  mode := AuthMode.local
  localUsername := js "admin"
  idle := 1000
  absolute := 5000
  max := 4
  observerMax := 64
  hash := sampleHash
  normalize := fun v => v
  localeCompare := fun a b =>
    if a < b then Ordering.lt else if a = b then Ordering.eq else Ordering.gt
  idle_pos := localOptions_idle
  absolute_pos := localOptions_absolute
  max_pos := by decide
  max_le := by decide

def localReply (s : State) (n : Nat) : (c : PortCall) -> PortReply c
  | PortCall.isInitialized => s.credentials.isInitialized
  | PortCall.verification =>
      match s.credentials.settled.lookup n with
      | some (CredentialStore.Outcome.verified valid _) =>
          VerificationOutcome.ok valid
      | _ => VerificationOutcome.failed
  | PortCall.verify _ _ =>
      match s.credentials.settled.lookup n with
      | some (CredentialStore.Outcome.verified valid _) => some valid
      | _ => none
  | PortCall.replacePassword _ =>
      match s.credentials.settled.lookup n with
      | some (CredentialStore.Outcome.replacement result _) => some result
      | _ => none
  | c => sampleReply s c

def localFair (s : State) (n : Nat) : PortCall -> Bool
  | PortCall.turn => isFirst s n
  | PortCall.verification =>
      match s.credentials.settled.lookup n with
      | some (CredentialStore.Outcome.verified _ _) => true
      | _ => false
  | PortCall.verify _ _ =>
      match s.credentials.settled.lookup n with
      | some (CredentialStore.Outcome.verified _ _) => true
      | _ => false
  | PortCall.replacePassword _ =>
      match s.credentials.settled.lookup n with
      | some (CredentialStore.Outcome.replacement _ _) => true
      | _ => false
  | PortCall.enroll _ => false
  | _ => true

def isQuiescent (s : State) : Bool :=
  s.calls.isEmpty && s.credentials.start.isNone &&
    s.waiting.all fun w => !ready s w.1 w.2

theorem isQuiescent_sound {s : State} (h : isQuiescent s = true) :
    Quiescent s := by
  unfold isQuiescent at h
  rw [Bool.and_eq_true, Bool.and_eq_true, List.all_eq_true] at h
  refine ⟨List.isEmpty_iff.mp h.1.1, Option.isNone_iff_eq_none.mp h.1.2, ?_⟩
  intro n c hmem
  simpa using h.2 (n, c) hmem

def localAnswer (s : State) : Answer :=
  match s.credentials.queue with
  | ⟨_, _, Stage.hashing _⟩ :: _ =>
      Answer.hash
        (some (js ("$2b$12$" ++
          "abcdefghijklmnopqrstuvwxyzABCDEFGHIJKLMNOPQRSTUVWXYZ0")))
        (some (js "2026-01-01T00:00:00.000Z"))
  | ⟨_, _, Stage.replacing _⟩ :: _ =>
      Answer.replace (some ReplaceResult.committed)
  | _ => Answer.compare (some true)

def localNudge (s : State) : Option State :=
  if s.calls.isEmpty then
    match s.credentials.start with
    | some c => some (State.withStore s c s.draining)
    | none =>
        if isQuiescent s then
          if s.draining then some (State.withStore s s.credentials false)
          else (s.credentials.complete (localAnswer s)).map fun c =>
            State.withStore s c true
        else none
  else none

theorem localNudge_env {s s' : State} (h : localNudge s = some s') :
    exists credentials draining, StoreStep s credentials draining ∧
      s' = State.withStore s credentials draining := by
  unfold localNudge at h
  split at h
  · rename_i hcalls
    split at h
    · rename_i c hstart
      cases h
      exact ⟨c, s.draining, StoreStep.start (List.isEmpty_iff.mp hcalls) hstart,
        rfl⟩
    · split at h
      · rename_i hquiet
        split at h
        · cases h
          exact ⟨s.credentials, false,
            StoreStep.drained (isQuiescent_sound hquiet), rfl⟩
        · rename_i hdraining
          rcases Option.map_eq_some_iff.mp h with ⟨c, hc, rfl⟩
          exact ⟨c, true, StoreStep.complete (localAnswer s)
            (isQuiescent_sound hquiet) (by simpa using hdraining) hc, rfl⟩
      · cases h
  · cases h

theorem localFair_allowed (s : State) (n : Nat) (c : PortCall)
    (h : localFair s n c = true) : answers s n c (localReply s n c) := by
  cases c with
  | isInitialized => rfl
  | startVerify username password => rfl
  | turn => exact h
  | enroll password => cases h
  | verification =>
      simp only [localFair] at h
      simp only [answers, localReply]
      split at h
      · rename_i heq
        rw [heq]
      · cases h
  | verify username password =>
      simp only [localFair] at h
      simp only [answers, localReply]
      split at h
      · rename_i heq
        rw [heq]
      · cases h
  | replacePassword password =>
      simp only [localFair] at h
      simp only [answers, localReply]
      split at h
      · rename_i heq
        rw [heq]
      · cases h
  | _ => trivial

def localScript : Script (auth localOptions localWorld) where
  reply := localReply
  fair := localFair
  admits s op := isLocalCall op && !s.draining && s.calls.isEmpty
  nudge := localNudge
  fair_allowed := localFair_allowed
  admits_sound s op h := by
    rw [Bool.and_eq_true, Bool.and_eq_true] at h
    exact ⟨h.1.1, by simpa using h.1.2, List.isEmpty_iff.mp h.2⟩
  nudge_env s s' h := localNudge_env h

def localCredentials : CredentialStore.State :=
  ⟨some ⟨js "admin", [], []⟩, js "admin", 12, true, [], [], 0⟩

def localMoves : List (Move Op) :=
  [Move.enter (Op.login (js "admin") (js "the old password") (js "::1")),
    Move.env, Move.resume 0, Move.env, Move.resume 0, Move.resume 0, Move.env,
    Move.enter (Op.changePassword (js "AQEBAQEBAQEBAQEBAQEBAQ")
      (js "the old password") (js "the new password")),
    Move.env, Move.env, Move.resume 0, Move.env, Move.env, Move.env, Move.env,
    Move.env, Move.resume 0, Move.resume 0, Move.env,
    Move.enter (Op.login (js "admin") (js "the new password") (js "::1")),
    Move.env, Move.resume 0, Move.env, Move.resume 0, Move.resume 0]

def localRun : Option (Config State ports Thrown Value Op) :=
  localScript.play localMoves
    (Config.initial (State.initial localCredentials fun _ => sampleCell))

def changed : Entry -> Bool
  | Entry.ended 1 (Op.changePassword _ _ _) (Except.ok (Value.flag true)) =>
      true
  | _ => false

theorem localRun_changed :
    localRun.map (fun cfg => decide (cfg.shared.sessions.held = [1]) &&
      cfg.shared.log.any changed) = some true := by
  decide +kernel

theorem password_change_ends_older_sessions_login :
    exists cfg, localRun = some cfg ∧ cfg.shared.sessions.held = [1] ∧
      exists result version, result ≠ ReplaceResult.not_committed ∧
        Entry.told 1 (some (CredentialStore.Outcome.replacement result
          version)) ∈ cfg.shared.log ∧
        forall r, r ∈ cfg.shared.sessions.held ->
          (exists m outcome, EstablishedOn cfg.shared.log m r outcome) ∧
          forall m outcome, EstablishedOn cfg.shared.log m r outcome ->
            exists basis, grants outcome = some basis ∧ version ≤ basis := by
  have hsample := localRun_changed
  cases hrun : localRun with
  | none =>
      rw [hrun] at hsample
      cases hsample
  | some cfg =>
      rw [hrun] at hsample
      have hboth := Bool.and_eq_true_iff.mp (Option.some.inj hsample)
      rcases List.any_eq_true.mp hboth.2 with ⟨e, he, hchanged⟩
      unfold changed at hchanged
      split at hchanged
      · exact ⟨cfg, rfl, of_decide_eq_true hboth.1,
          password_change_ends_older_sessions rfl rfl
            (Script.play_reachable hrun) he⟩
      · cases hchanged

end Passwords
end AuthService
end Server
end FlanTerminal

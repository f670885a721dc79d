import FlanTerminal.Server.AuthInvariant

/-!
# Rules for the operations of the authentication service

An operation that runs without waiting only removes sessions; sessions are
added by operations that have waited.  So while observers have control the
sessions held become fewer, and while an operation waits anything may happen
that keeps the invariant.
-/

namespace FlanTerminal
namespace Server
namespace AuthService

open Foundation

def Guar (ph : Phase) (n : Nat) (s s' : State) : Prop :=
  (exists more, s'.log = s.log ++ more ∧ forall e, e ∈ more -> e.by = n) ∧
    (ph = Phase.first -> forall r, r ∈ s'.sessions.held ->
      r ∈ s.sessions.held)

def Rely (b : Boundary) (n : Nat) (s s' : State) : Prop :=
  (exists more, s'.log = s.log ++ more ∧ forall e, e ∈ more -> e.by ≠ n) ∧
    (b = Boundary.callback -> forall r, r ∈ s'.sessions.held ->
      r ∈ s.sessions.held)

def contract (o : Options) (w : World) : Contract State where
  inv := Inv o w
  guar := Guar
  rely := Rely

/-- The states agree on everything the invariant is about. -/
structure SameCore (s s' : State) : Prop where
  sessions : s'.sessions = s.sessions
  log : s'.log = s.log
  observers : s'.observers = s.observers
  nextObserver : s'.nextObserver = s.nextObserver
  tokens : s'.tokens = s.tokens

theorem SameCore.refl (s : State) : SameCore s s :=
  ⟨rfl, rfl, rfl, rfl, rfl⟩

theorem Base.congr {o : Options} {w : World} {next : Nat} {s s' : State}
    (h : Base o w next s) (hs : SameCore s s') : Base o w next s' := by
  rcases hs with ⟨hsessions, hlog, hobservers, hnext, htokens⟩
  constructor
  · rw [hsessions]
    exact h.rep
  · rw [hsessions, hlog]
    exact h.history
  · rw [hlog]
    exact h.good
  · rw [hlog]
    exact h.numbered
  · rw [hlog, hobservers]
    exact h.observers
  · rw [hobservers]
    exact h.registered
  · rw [hobservers, hnext]
    exact h.older
  · rw [hlog, htokens]
    exact h.distinct

theorem Guar.refl (ph : Phase) (n : Nat) (s : State) : Guar ph n s s :=
  ⟨⟨[], by simp, fun _ he => absurd he List.not_mem_nil⟩,
    fun _ _ hr => hr⟩

/-- What an operation knows between two of its steps: the sessions it has still
to announce, and the observers it has still to tell. -/
structure Mid (o : Options) (w : World) (ph : Phase) (n : Nat)
    (owed : List Ref) (due : Ref -> List Nat) (cs : Census) (s0 s : State) :
    Prop where
  base : Base o w cs.next s
  debts : Debts cs s.log
  mine : Mine n owed due s.log
  guar : Guar ph n s0 s
  live : cs.live n
  known : n < cs.next

structure Fewer (s s' : State) : Prop where
  log : exists more, s'.log = s.log ++ more
  held : forall r, r ∈ s'.sessions.held -> r ∈ s.sessions.held

theorem Fewer.refl (s : State) : Fewer s s :=
  ⟨⟨[], by simp⟩, fun _ hr => hr⟩

theorem Fewer.trans {s s' s'' : State} (h : Fewer s s') (h' : Fewer s' s'') :
    Fewer s s'' := by
  rcases h.log with ⟨more, hmore⟩
  rcases h'.log with ⟨more', hmore'⟩
  refine ⟨⟨more ++ more', ?_⟩, fun r hr => h.held r (h'.held r hr)⟩
  rw [hmore', hmore, List.append_assoc]

/-- Moreover all that operation `n` has written is about removed sessions. -/
structure Since (n : Nat) (s s' : State) : Prop where
  log : exists more, s'.log = s.log ++ more ∧
    forall e, e ∈ more -> e.by = n -> e.quiet = false
  held : forall r, r ∈ s'.sessions.held -> r ∈ s.sessions.held

theorem Since.fewer {n : Nat} {s s' : State} (h : Since n s s') :
    Fewer s s' := by
  rcases h.log with ⟨more, hlog, _⟩
  exact ⟨⟨more, hlog⟩, h.held⟩

theorem Since.refl (n : Nat) (s : State) : Since n s s :=
  ⟨⟨[], by simp, fun _ he => absurd he List.not_mem_nil⟩, fun _ hr => hr⟩

theorem Since.trans {n : Nat} {s s' s'' : State} (h : Since n s s')
    (h' : Since n s' s'') : Since n s s'' := by
  rcases h.log with ⟨more, hlog, hmore⟩
  rcases h'.log with ⟨more', hlog', hmore'⟩
  refine ⟨⟨more ++ more', ?_, ?_⟩, fun r hr => h.held r (h'.held r hr)⟩
  · rw [hlog', hlog, List.append_assoc]
  · intro e he
    rcases List.mem_append.mp he with he | he
    · exact hmore e he
    · exact hmore' e he

theorem Since.record {n : Nat} {s s' : State} {e : Entry}
    (hlog : s'.log = s.log ++ [e])
    (hheld : forall r, r ∈ s'.sessions.held -> r ∈ s.sessions.held)
    (he : e.quiet = false) : Since n s s' := by
  refine ⟨⟨[e], hlog, ?_⟩, hheld⟩
  intro x hx _
  rw [List.mem_singleton.mp hx]
  exact he

theorem Since.unfailed {n : Nat} {s s' : State} (h : Since n s s')
    (hun : Unfailed n s.log) : Unfailed n s'.log := by
  rcases h.log with ⟨more, hlog, hmore⟩
  rw [hlog]
  apply hun.append
  intro r t hmem
  cases hmore _ hmem rfl

def PortCall.credential : PortCall -> Bool
  | verification => true
  | enroll _ => true
  | verify _ _ => true
  | replacePassword _ => true
  | _ => false

def Woken (n : Nat) (c : PortCall) (log log' : List Entry) : Prop :=
  exists more, (forall e, e ∈ more -> e.by ≠ n) ∧
    (c.credential = false -> log' = log ++ more) ∧
    (c.credential = true -> exists outcome,
      log' = log ++ more ++ [Entry.told n outcome])

theorem Woken.unfailed {n : Nat} {c : PortCall} {log log' : List Entry}
    (h : Woken n c log log') (hun : Unfailed n log) : Unfailed n log' := by
  rcases h with ⟨more, hmore, hplain, htold⟩
  have hlong := hun.append (unfailed_of_by hmore)
  cases hc : c.credential with
  | false =>
      rw [hplain hc]
      exact hlong
  | true =>
      rcases htold hc with ⟨outcome, hlog⟩
      rw [hlog]
      apply hlong.append
      intro r t hmem
      cases List.mem_singleton.mp hmem

section Rules

variable {o : Options} {w : World} {n : Nat} {value : Type}
variable {Q : Except Thrown value -> Phase -> Census -> State -> State -> Prop}
variable {ph : Phase} {owed : List Ref} {due : Ref -> List Nat}
variable {cs : Census} {s0 s s1 : State}

abbrev Wp (o : Options) (w : World) (n : Nat)
    (Q : Except Thrown value -> Phase -> Census -> State -> State -> Prop)
    (p : Code value) (ph : Phase) (cs : Census) (s0 s : State) : Prop :=
  Prog.wp (auth o w) (contract o w) n Q p ph cs s0 s

theorem Mid.inv (h : Mid o w ph n owed due cs s0 s) : Inv o w cs s :=
  ⟨h.base, h.debts⟩

theorem Mid.congr {s' : State} (h : Mid o w ph n owed due cs s0 s)
    (hs : SameCore s s') : Mid o w ph n owed due cs s0 s' := by
  refine ⟨h.base.congr hs, ?_, ?_, ?_, h.live, h.known⟩
  · rw [hs.log]
    exact h.debts
  · rw [hs.log]
    exact h.mine
  · unfold Guar
    rw [hs.log, hs.sessions]
    exact h.guar

theorem Guar.record (h : Guar ph n s0 s) {s' : State} {e : Entry}
    (hlog : s'.log = s.log ++ [e]) (hby : e.by = n)
    (hheld : ph = Phase.first -> forall r, r ∈ s'.sessions.held ->
      r ∈ s.sessions.held) : Guar ph n s0 s' := by
  rcases h with ⟨⟨more, hmore, hall⟩, hfirst⟩
  refine ⟨⟨more ++ [e], ?_, ?_⟩, ?_⟩
  · rw [hlog, hmore, List.append_assoc]
  · intro x hx
    rcases List.mem_append.mp hx with hx | hx
    · exact hall x hx
    · rw [List.mem_singleton.mp hx]
      exact hby
  · intro hph r hr
    exact hfirst hph r (hheld hph r hr)

theorem Mid.step {owed' : List Ref} {due' : Ref -> List Nat} {s' : State}
    {e : Entry} (h : Mid o w ph n owed due cs s0 s)
    (hbase : Base o w cs.next s') (hlog : s'.log = s.log ++ [e])
    (hby : e.by = n) (hmine : Mine n owed' due' (s.log ++ [e]))
    (hheld : ph = Phase.first -> forall r, r ∈ s'.sessions.held ->
      r ∈ s.sessions.held) : Mid o w ph n owed' due' cs s0 s' := by
  refine ⟨hbase, ?_, ?_, h.guar.record hlog hby hheld, h.live, h.known⟩
  · rw [hlog]
    apply h.debts.record
    rw [hby]
    exact h.live
  · rw [hlog]
    exact hmine

theorem Mid.plain {e : Entry} (h : Mid o w ph n owed due cs s0 s)
    (he : e.plain = true) (hby : e.by = n) (hgood : Good o s.log e) :
    Mid o w ph n owed due cs s0 (s.record e) := by
  have hquiet : e.quiet = true := by
    cases e <;> first | rfl | cases he
  have hsub : e.subscription s.observers = s.observers := by
    cases e <;> first | rfl | cases he
  have hknown : e.by < cs.next := by
    rw [hby]
    exact h.known
  exact h.step (h.base.record (Entry.plain_keeps he) hsub hgood hknown) rfl
    hby (h.mine.quiet hquiet) (fun _ _ hr => hr)

theorem Mid.relied {b : Boundary} {cs' : Census} {s' : State}
    (h : Mid o w ph n owed due cs s0 s) (hrely : Rely b n s s')
    (hinv : Inv o w cs' s') (hok : cs'.Ok) (hlive : cs'.live n)
    (ph' : Phase) : Mid o w ph' n owed due cs' s' s' := by
  refine ⟨hinv.base, hinv.debts, ?_, Guar.refl ph' n s', hlive, hok n hlive⟩
  rcases hrely.1 with ⟨more, hlog, hmore⟩
  have hgood := hinv.base.good
  rw [hlog] at hgood ⊢
  exact h.mine.relied hgood hmore

/-!
## Calls
-/

/-- The call does not add to what the invariant is about when it is
answered: it neither draws bytes nor checks a session. -/
def PortCall.silent : PortCall -> Bool
  | PortCall.clock checked => checked.isNone
  | PortCall.random _ => false
  | _ => true

theorem issue_core {c : PortCall} (hb : boundary c ≠ Boundary.callback)
    (n : Nat) (s : State) : SameCore s (issue n c s) := by
  cases c with
  | observer r k id reason => exact absurd rfl hb
  | _ => exact ⟨rfl, rfl, rfl, rfl, rfl⟩

theorem reply_core {c : PortCall} (hc : c.silent = true)
    (hb : boundary c ≠ Boundary.await) (n : Nat) (r : PortReply c)
    (s : State) : SameCore s (reply n c r s) := by
  cases c with
  | random size => cases hc
  | clock checked =>
      cases checked with
      | some r => cases hc
      | none => exact SameCore.refl s
  | csrfCreate => exact SameCore.refl s
  | csrfVerify record supplied => exact SameCore.refl s
  | consume address => exact SameCore.refl s
  | resetAddress address => exact SameCore.refl s
  | isInitialized => exact SameCore.refl s
  | onDurabilityUncertain => exact SameCore.refl s
  | startVerify username password => exact SameCore.refl s
  | observer r k id reason => exact ⟨rfl, rfl, rfl, rfl, rfl⟩
  | turn => exact absurd rfl hb
  | verification => exact absurd rfl hb
  | enroll password => exact absurd rfl hb
  | verify username password => exact absurd rfl hb
  | replacePassword password => exact absurd rfl hb
  | settled => exact absurd rfl hb

theorem Mid.told (h : Mid o w ph n owed due cs s0 s) {s' : State}
    (hs : SameCore (s.record (Entry.told n (s.credentials.settled.lookup n)))
      s') : Mid o w ph n owed due cs s0 s' :=
  (h.plain (e := Entry.told n (s.credentials.settled.lookup n)) rfl rfl
    trivial).congr hs

/-- What a parked operation finds when it goes on: it may have written down
the answer of the credential store. -/
theorem Mid.reply {c : PortCall} (hb : boundary c = Boundary.await)
    (h : Mid o w ph n owed due cs s0 s) (r : PortReply c) :
    Mid o w ph n owed due cs s0 (reply n c r s) ∧
      (c.credential = false -> (reply n c r s).log = s.log) ∧
      (c.credential = true -> exists outcome,
        (reply n c r s).log = s.log ++ [Entry.told n outcome]) := by
  cases c with
  | turn => exact ⟨h.congr ⟨rfl, rfl, rfl, rfl, rfl⟩, fun _ => rfl, nofun⟩
  | settled => exact ⟨h.congr ⟨rfl, rfl, rfl, rfl, rfl⟩, fun _ => rfl, nofun⟩
  | verification =>
      exact ⟨h.told ⟨rfl, rfl, rfl, rfl, rfl⟩, nofun, fun _ => ⟨_, rfl⟩⟩
  | enroll password =>
      exact ⟨h.told ⟨rfl, rfl, rfl, rfl, rfl⟩, nofun, fun _ => ⟨_, rfl⟩⟩
  | verify username password =>
      exact ⟨h.told ⟨rfl, rfl, rfl, rfl, rfl⟩, nofun, fun _ => ⟨_, rfl⟩⟩
  | replacePassword password =>
      exact ⟨h.told ⟨rfl, rfl, rfl, rfl, rfl⟩, nofun, fun _ => ⟨_, rfl⟩⟩
  | clock checked => cases hb
  | random size => cases hb
  | csrfCreate => cases hb
  | csrfVerify record supplied => cases hb
  | consume address => cases hb
  | resetAddress address => cases hb
  | isInitialized => cases hb
  | onDurabilityUncertain => cases hb
  | startVerify username password => cases hb
  | observer r k id reason => cases hb

theorem wp_at_once {c : PortCall} {k : PortReply c -> Code value}
    (hb : boundary c = Boundary.sync) (hc : c.silent = true)
    (hk : forall s' r, SameCore s s' -> Wp o w n Q (k r) ph cs s0 s') :
    Wp o w n Q (Prog.call (I := ports) c k) ph cs s0 s := by
  apply (Prog.wp_sync hb).mpr
  intro r _
  apply hk
  have hb' : boundary c ≠ Boundary.await := by
    rw [hb]
    exact Boundary.noConfusion
  have hb'' : boundary c ≠ Boundary.callback := by
    rw [hb]
    exact Boundary.noConfusion
  have hissue := issue_core hb'' n s
  have hreply := reply_core hc hb' n r (issue n c s)
  exact ⟨hreply.sessions.trans hissue.sessions, hreply.log.trans hissue.log,
    hreply.observers.trans hissue.observers,
    hreply.nextObserver.trans hissue.nextObserver,
    hreply.tokens.trans hissue.tokens⟩

theorem wp_wait {c : PortCall} {k : PortReply c -> Code value}
    (hb : boundary c = Boundary.await)
    (h : Mid o w ph n [] nothing cs s0 s)
    (hk : forall cs' s0' s' r, Mid o w Phase.later n [] nothing cs' s0' s' ->
      Woken n c s.log s'.log -> Wp o w n Q (k r) Phase.later cs' s0' s') :
    Wp o w n Q (Prog.call (I := ports) c k) ph cs s0 s := by
  have hb' : boundary c ≠ Boundary.callback := by
    rw [hb]
    exact Boundary.noConfusion
  have hissue := issue_core hb' n s
  have hissued := h.congr hissue
  apply (Prog.wp_await hb).mpr
  refine ⟨hissued.inv, hissued.guar, ?_⟩
  intro cs' s' r hok hlive hinv hrely _
  rcases (hissued.relied hrely hinv hok hlive Phase.later).reply hb r with
    ⟨hmid, hplain, htold⟩
  rcases hrely.1 with ⟨more, hlog, hmore⟩
  rw [show ((auth o w).issue n c s).log = s.log from hissue.log] at hlog
  apply hk cs' s' _ r hmid
  refine ⟨more, hmore, ?_, ?_⟩
  · intro hc
    exact (hplain hc).trans hlog
  · intro hc
    rcases htold hc with ⟨outcome, houtcome⟩
    refine ⟨outcome, houtcome.trans ?_⟩
    rw [hlog]

theorem wp_observer {r : Ref} {k' : Nat} {id : JsString}
    {reason : RevocationReason} {k : Unit -> Code value}
    (h : Mid o w ph n owed due cs s0 (s.record (Entry.notified n r k')))
    (hk : forall cs' s0' s', Mid o w ph n owed due cs' s0' s' ->
      Since n (s.record (Entry.notified n r k')) s' ->
      Wp o w n Q (k ()) ph cs' s0' s') :
    Wp o w n Q (Prog.call (I := ports) (PortCall.observer r k' id reason) k)
      ph cs s0 s := by
  have hcore : SameCore (s.record (Entry.notified n r k'))
      (issue n (PortCall.observer r k' id reason) s) :=
    ⟨rfl, rfl, rfl, rfl, rfl⟩
  have hissued := h.congr hcore
  apply (Prog.wp_callback rfl).mpr
  refine ⟨hissued.inv, hissued.guar, ?_⟩
  intro cs' s' u hok hlive hinv hrely _
  have hreply : SameCore s'
      (reply n (PortCall.observer r k' id reason) u s') :=
    reply_core (c := PortCall.observer r k' id reason) rfl
      Boundary.noConfusion n u s'
  apply hk cs' s' _ ((hissued.relied hrely hinv hok hlive ph).congr hreply)
  rcases hrely.1 with ⟨more, hlog, hmore⟩
  have hgrown := hreply.log.trans hlog
  refine ⟨⟨more, hgrown, fun e he hby => absurd hby (hmore e he)⟩, ?_⟩
  intro x hx
  rw [hreply.sessions] at hx
  exact hrely.2 rfl x hx

/-- Nothing is left to announce, whatever the result. -/
def Settled (o : Options) (w : World) (n : Nat) (_ : Except Thrown value)
    (ph : Phase) (cs : Census) (s0 s : State) : Prop :=
  Mid o w ph n [] nothing cs s0 s

theorem wp_settled_bind {result : Type} {p : Code result}
    {g : result -> Code value}
    (hp : Wp o w n (Settled o w n) p ph cs s0 s)
    (hg : forall a ph cs s0 s, Mid o w ph n [] nothing cs s0 s ->
      Wp o w n (Settled o w n) (g a) ph cs s0 s) :
    Wp o w n (Settled o w n) (p >>= g) ph cs s0 s := by
  apply Prog.wp_bind.mpr
  apply Prog.wp_mono _ hp
  intro res ph' cs' s0' s' hmid
  cases res with
  | ok a => exact hg a ph' cs' s0' s' hmid
  | error e => exact hmid

theorem wp_now {g : ℚ -> Code value}
    (hfail : forall s', SameCore s s' ->
      Q (Except.error Thrown.AuthServiceError) ph cs s0 s')
    (hg : forall s' t, SameCore s s' -> Wp o w n Q (g t) ph cs s0 s') :
    Wp o w n Q (now none >>= g) ph cs s0 s := by
  apply wp_at_once rfl rfl
  intro s' r hs
  cases r with
  | none => exact hfail s' hs
  | some t => exact hg s' t hs

theorem wp_csrfCreate {g : JsString × CsrfRecord -> Code value}
    (hfail : forall s', SameCore s s' ->
      Q (Except.error Thrown.AuthServiceError) ph cs s0 s')
    (hg : forall s' issued, SameCore s s' ->
      Wp o w n Q (g issued) ph cs s0 s') :
    Wp o w n Q (Prog.ask (I := ports) PortCall.csrfCreate >>=
      fun answer => need answer >>= g) ph cs s0 s := by
  apply wp_at_once rfl rfl
  intro s' r hs
  cases r with
  | none => exact hfail s' hs
  | some issued => exact hg s' issued hs

/-!
## Checking and revoking a session
-/

theorem Base.within {next : Nat} {r : Ref} {cookie : JsString} {cell : Stored}
    {t : ℚ} (h : Base o w next s) (hcell : cellIn r s.log = some (cookie, cell))
    (hlive : expiredReasonAt (s.sessions.heap r) t = none) :
    WithinLimits o s.log r t := by
  have hsame := h.history.same r cookie cell hcell
  rcases not_expired hlive with ⟨hidle, habsolute, hupstream⟩
  rw [hsame.idle] at hidle
  refine ⟨cookie, cell, _, hcell, hsame.seen, ?_, ?_, ?_⟩
  · rw [← hsame.absoluteExpiresAt]
    exact habsolute
  · exact hidle.trans_le (min_le_right _ _)
  · intro u hu
    rw [hsame.upstream] at hu
    exact hupstream u hu

theorem wp_expiredReason {r : Ref} {cookie : JsString} {cell : Stored}
    {g : Option RevocationReason -> Code value}
    (h : Mid o w ph n owed due cs s0 s)
    (hcell : cellIn r s.log = some (cookie, cell))
    (hfail : Q (Except.error Thrown.AuthServiceError) ph cs s0 s)
    (hg : forall t reason,
      Mid o w ph n owed due cs s0
        (s.record (Entry.checked n r t reason.isNone)) ->
      Wp o w n Q (g reason) ph cs s0
        (s.record (Entry.checked n r t reason.isNone))) :
    Wp o w n Q (expiredReason r >>= g) ph cs s0 s := by
  apply Prog.wp_bind.mpr
  unfold expiredReason
  apply (Prog.wp_sync rfl).mpr
  intro answer _
  cases answer with
  | none => exact hfail
  | some t =>
      apply hg t
      apply h.plain rfl rfl
      intro hvalid
      exact h.base.within hcell (Option.isNone_iff_eq_none.mp hvalid)

/-- No other session is held under the id of session `r`. -/
def Apart (r : Ref) (s : State) : Prop :=
  forall x, x ∈ s.sessions.held ->
    (s.sessions.heap x).id = (s.sessions.heap r).id -> x = r

theorem Base.apart {next : Nat} {r : Ref} (h : Base o w next s)
    (hr : r ∈ s.sessions.held) : Apart r s := by
  intro x hx hid
  exact h.rep.ids x hx r hr hid

theorem Base.id_since {next next' : Nat} {s' : State} {r : Ref}
    (h : Base o w next s) (h' : Base o w next' s')
    (hlog : exists more, s'.log = s.log ++ more)
    (hr : r < s.sessions.allocated) :
    (s'.sessions.heap r).id = (s.sessions.heap r).id := by
  rcases Option.isSome_iff_exists.mp ((h.history.born r).mp hr) with
    ⟨⟨cookie, cell⟩, hcell⟩
  rcases hlog with ⟨more, hmore⟩
  have hcell' : cellIn r s'.log = some (cookie, cell) := by
    rw [hmore]
    exact cellIn_append hcell more
  rw [(h'.history.same r cookie cell hcell').id,
    (h.history.same r cookie cell hcell).id]

theorem Apart.since {next next' : Nat} {s' : State} {r : Ref}
    (h : Apart r s) (hbase : Base o w next s) (hbase' : Base o w next' s')
    (hsince : Fewer s s') (hr : r < s.sessions.allocated) : Apart r s' := by
  intro x hx hid
  have hxs := hsince.held x hx
  rw [hbase.id_since hbase' hsince.log hr,
    hbase.id_since hbase' hsince.log (hbase.rep.placed x hxs)] at hid
  exact h x hxs hid

theorem wp_remove {r : Ref} {g : Bool -> Code value}
    (h : Mid o w ph n owed due cs s0 s) (hapart : Apart r s)
    (habsent : r ∉ s.sessions.held -> Wp o w n Q (g false) ph cs s0 s)
    (hremoved : forall s', r ∈ s.sessions.held ->
      s'.sessions = s.sessions.remove r ->
      s'.log = s.log ++ [Entry.removed n r] ->
      s'.tokens = s.tokens ->
      Mid o w ph n (owed ++ [r]) due cs s0 s' ->
      Wp o w n Q (g true) ph cs s0 s') :
    Wp o w n Q (remove n r >>= g) ph cs s0 s := by
  apply Prog.wp_bind.mpr
  unfold remove
  simp only [Prog.read_bind, Prog.wp_act, id]
  cases hget : s.sessions.byId.get (s.sessions.heap r).id with
  | none =>
      apply habsent
      intro hr
      rw [h.base.rep.get_byId_self hr] at hget
      cases hget
  | some found =>
      rcases h.base.rep.get_byId hget with ⟨hheld, hid⟩
      have hfound : found = r := hapart found hheld hid
      rw [hfound] at hheld ⊢
      have hkept : ¬ RemovedIn r s.log :=
        (h.base.history.kept r (h.base.rep.placed r hheld)).mp hheld
      have hmid : Mid o w ph n (owed ++ [r]) due cs s0
          ((s.onSessions (Sessions.remove · r)).record
            (Entry.removed n r)) := by
        apply h.step (h.base.removed hheld h.known) rfl rfl
          (h.mine.removed h.base.good hkept)
        intro _ x hx
        exact ((h.base.rep.mem_held_remove hheld).mp hx).1
      exact hremoved _ hheld rfl rfl rfl hmid

def Told (o : Options) (w : World) (n : Nat) (owed : List Ref) (s1 : State)
    (res : Except Thrown Unit) (ph : Phase) (cs : Census) (s0 s : State) :
    Prop :=
  res = Except.ok () ∧ Mid o w ph n owed nothing cs s0 s ∧ Since n s1 s

theorem wp_emitEach {r : Ref} {id : JsString} {reason : RevocationReason}
    {rest observers : List Nat}
    (h : Mid o w ph n owed (dueTo r rest) cs s0 s) (hsince : Since n s1 s)
    (hemitting : Entry.emitting n r reason observers ∈ s.log) :
    Wp o w n (Told o w n owed s1) (emitEach r id reason rest)
      ph cs s0 s := by
  induction rest generalizing ph cs s0 s with
  | nil =>
      refine ⟨rfl, ?_, hsince⟩
      exact ⟨h.base, h.debts, h.mine.done, h.guar, h.live, h.known⟩
  | cons k rest ih =>
      have hsent := h.mine.sent r reason observers hemitting
      have hgood : Good o s.log (Entry.notified n r k) := by
        refine ⟨reason, observers, hemitting, rest, ?_⟩
        rw [← hsent]
        simp [dueTo]
      have hbase := h.base.record (e := Entry.notified n r k) rfl rfl hgood
        h.known
      have hmid : Mid o w ph n owed (dueTo r rest) cs s0
          (s.record (Entry.notified n r k)) :=
        h.step hbase rfl rfl h.mine.notified (fun _ _ hr => hr)
      have hstep : Since n s (s.record (Entry.notified n r k)) :=
        Since.record rfl (fun _ hr => hr) rfl
      apply wp_observer hmid
      intro cs' s0' s' hmid' hsince'
      apply ih hmid' ((hsince.trans hstep).trans hsince')
      rcases hsince'.log with ⟨more, hmore, _⟩
      rw [hmore]
      exact List.mem_append_left _ (List.mem_append_left _ hemitting)

theorem wp_emitRevocation {r : Ref} {id : JsString}
    {reason : RevocationReason}
    (h : Mid o w ph n (r :: owed) nothing cs s0 s) (hr : r ∉ owed)
    (hsince : Since n s1 s) :
    Wp o w n (Told o w n owed s1) (emitRevocation n r id reason)
      ph cs s0 s := by
  have hgood : Good o s.log (Entry.emitting n r reason s.observers) :=
    ⟨h.mine.mine r List.mem_cons_self, h.mine.unsent r List.mem_cons_self,
      h.base.observers.symm, h.base.registered⟩
  have hbase := h.base.record
    (e := Entry.emitting n r reason s.observers) rfl rfl hgood h.known
  have hmid : Mid o w ph n owed (dueTo r s.observers) cs s0
      (s.record (Entry.emitting n r reason s.observers)) :=
    h.step hbase rfl rfl (h.mine.emitting h.base.good hr)
      (fun _ _ hr => hr)
  apply wp_emitEach hmid
    (hsince.trans (Since.record rfl (fun _ hr => hr) rfl))
  exact List.mem_append_right _ List.mem_cons_self

theorem wp_revoke {r : Ref} {reason : RevocationReason}
    (h : Mid o w ph n [] nothing cs s0 s) (hapart : Apart r s)
    (hsince : Since n s1 s) :
    Wp o w n (fun res ph cs s0 s => Told o w n [] s1 res ph cs s0 s ∧
      r ∉ s.sessions.held) (revoke n r reason) ph cs s0 s := by
  apply wp_remove h hapart
  · intro hgone
    exact ⟨⟨rfl, h, hsince⟩, hgone⟩
  · intro s' hheld hsessions hlog _ hmid
    have hleft : forall x, x ∈ s'.sessions.held ->
        x ∈ s.sessions.held ∧ x ≠ r := by
      intro x hx
      rw [hsessions] at hx
      exact (h.base.rep.mem_held_remove hheld).mp hx
    have hstep : Since n s s' :=
      Since.record hlog (fun x hx => (hleft x hx).1) rfl
    apply Prog.wp_mono _ (wp_emitRevocation hmid List.not_mem_nil
      (Since.refl n s'))
    rintro res ph' cs' s0' s'' ⟨hres, hmid', hsince'⟩
    refine ⟨⟨hres, hmid', (hsince.trans hstep).trans hsince'⟩, ?_⟩
    intro hr
    exact (hleft r (hsince'.held r hr)).2 rfl

theorem wp_ifLive {r : Ref} {failed : value} {k : Code value}
    (h : Mid o w ph n [] nothing cs s0 s) (hr : r ∈ s.sessions.held)
    (hfailed : forall res ph cs s0 s,
      (res = Except.ok failed ∨
        res = Except.error Thrown.AuthServiceError) ->
      Mid o w ph n [] nothing cs s0 s -> Q res ph cs s0 s)
    (hk : forall t,
      Mid o w ph n [] nothing cs s0
        (s.record (Entry.checked n r t true)) ->
      Wp o w n Q k ph cs s0 (s.record (Entry.checked n r t true))) :
    Wp o w n Q (ifLive n r failed k) ph cs s0 s := by
  have hborn := (h.base.history.born r).mp (h.base.rep.placed r hr)
  rcases Option.isSome_iff_exists.mp hborn with ⟨⟨cookie, cell⟩, hcell⟩
  apply wp_expiredReason h hcell
  · exact hfailed _ _ _ _ _ (Or.inr rfl) h
  · intro t reason hmid
    cases reason with
    | none => exact hk t hmid
    | some reason =>
        apply Prog.wp_bind.mpr
        apply Prog.wp_mono _ (wp_revoke hmid (hmid.base.apart hr)
          (Since.refl n _))
        rintro res ph' cs' s0' s'' ⟨⟨hres, hmid', _⟩, _⟩
        rw [hres]
        exact hfailed _ _ _ _ _ (Or.inl rfl) hmid'

end Rules

end AuthService
end Server
end FlanTerminal

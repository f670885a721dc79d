import FlanTerminal.Server.PasswordQueues

/-!
# Rules for the operations behind a password

An operation touches only its own places in the two queues; most of the code
touches none.  The rules say what an operation knows of its places while it
runs, and what it finds when it has waited.
-/

namespace FlanTerminal
namespace Server
namespace AuthService
namespace Passwords

open Foundation
open CredentialStore (ReplaceResult EnrollmentResult Pending Stage Job Answer)

/-!
## The contract
-/

structure Guar (ph : Phase) (n : Nat) (s s' : State) : Prop where
  alone : ph = Phase.first -> forall m, m ∈ s.calls -> m = n
  log : exists more, s'.log = s.log ++ more ∧ forall e, e ∈ more -> e.by = n
  others : forall m, m ≠ n -> Same m s s'

/-- What the others leave to operation `n` while it waits. -/
structure Kept (n : Nat) (s s' : State) : Prop where
  line : forall slot, (n, slot) ∈ s'.line <-> (n, slot) ∈ s.line
  waiting : forall c, (n, c) ∈ s'.waiting <-> (n, c) ∈ s.waiting
  calls : n ∈ s'.calls <-> n ∈ s.calls
  log : exists more, s'.log = s.log ++ more ∧ forall e, e ∈ more -> e.by ≠ n

def Rely : Boundary -> Nat -> State -> State -> Prop
  | Boundary.callback, n, s, s' => n ∈ s.calls -> s' = s
  | _, n, s, s' => Kept n s s'

def contract : Contract State where
  inv cs s := Queues cs.next s
  guar := Guar
  rely := Rely

theorem Kept.refl (n : Nat) (s : State) : Kept n s s :=
  ⟨fun _ => Iff.rfl, fun _ => Iff.rfl, Iff.rfl,
    [], by simp, fun _ he => absurd he List.not_mem_nil⟩

theorem Kept.trans {n : Nat} {s s' s'' : State} (h : Kept n s s')
    (h' : Kept n s' s'') : Kept n s s'' := by
  refine ⟨fun k => (h'.line k).trans (h.line k),
    fun c => (h'.waiting c).trans (h.waiting c), h'.calls.trans h.calls, ?_⟩
  rcases h.log with ⟨more, hlog, hmore⟩
  rcases h'.log with ⟨more', hlog', hmore'⟩
  refine ⟨more ++ more', by rw [hlog', hlog, List.append_assoc], ?_⟩
  intro e he
  rcases List.mem_append.mp he with he | he
  · exact hmore e he
  · exact hmore' e he

theorem Guar.kept {ph : Phase} {n m : Nat} {s s' : State} (h : Guar ph n s s')
    (hne : n ≠ m) : Kept m s s' := by
  have hsame := h.others m (fun heq => hne heq.symm)
  refine ⟨hsame.line, hsame.waiting, hsame.calls, ?_⟩
  rcases h.log with ⟨more, hlog, hmore⟩
  refine ⟨more, hlog, ?_⟩
  intro e he
  rw [hmore e he]
  exact hne

theorem Guar.refl {ph : Phase} {n : Nat} {s : State}
    (h : ph = Phase.first -> forall m, m ∈ s.calls -> m = n) : Guar ph n s s :=
  ⟨h, ⟨[], by simp, fun _ he => absurd he List.not_mem_nil⟩,
    fun m _ => Same.refl m s⟩

theorem Rely.refl (b : Boundary) (n : Nat) (s : State) : Rely b n s s := by
  cases b with
  | sync => exact Kept.refl n s
  | callback => exact fun _ => rfl
  | await => exact Kept.refl n s

theorem Rely.trans {b : Boundary} {n : Nat} {s s' s'' : State}
    (h : Rely b n s s') (h' : Rely b n s' s'') : Rely b n s s'' := by
  cases b with
  | sync => exact Kept.trans h h'
  | await => exact Kept.trans h h'
  | callback =>
      intro hn
      have heq := h hn
      subst heq
      exact h' hn

/-!
## Running operations
-/

/-- What operation `n` knows while it runs; `K` is what it knows of its own
places in the queues. -/
structure At (ph : Phase) (n : Nat) (K : State -> Prop) (cs : Census)
    (s0 s : State) : Prop where
  core : Core cs.next s
  others : forall m, m ≠ n -> m ∈ s.calls ∨ Local s m
  guar : Guar ph n s0 s
  idle : n ∉ s.calls
  alone : ph = Phase.first -> s.calls = []
  known : n < cs.next
  mine : K s

structure Quiet (n : Nat) (s s' : State) : Prop where
  line : s'.line = s.line
  waiting : s'.waiting = s.waiting
  calls : s'.calls = s.calls
  credentials : s'.credentials = s.credentials
  draining : s'.draining = s.draining
  log : s'.log = s.log ∨ exists e, s'.log = s.log ++ [e] ∧ e.by = n ∧
    plain e = true

theorem Quiet.refl (n : Nat) (s : State) : Quiet n s s :=
  ⟨rfl, rfl, rfl, rfl, rfl, Or.inl rfl⟩

theorem Quiet.record {n : Nat} {s : State} {e : Entry} (hby : e.by = n)
    (he : plain e = true) : Quiet n s (s.record e) :=
  ⟨rfl, rfl, rfl, rfl, rfl, Or.inr ⟨e, rfl, hby, he⟩⟩

theorem Quiet.same {n m : Nat} {s s' : State} (h : Quiet n s s') :
    Same m s s' := by
  constructor
  · rw [h.line]
    exact fun _ => Iff.rfl
  · rw [h.waiting]
    exact fun _ => Iff.rfl
  · rw [h.calls]
  · unfold isFirst
    rw [h.line]
    exact id
  · rw [h.credentials]
    exact fun _ _ => Iff.rfl
  · rw [h.credentials]
    exact fun _ => Iff.rfl

theorem Core.congr {next : Nat} {s s' : State} (h : Core next s)
    (hline : s'.line = s.line) (hwaiting : s'.waiting = s.waiting)
    (hcalls : forall n, n ∈ s'.calls -> n ∈ s.calls ∨ n < next)
    (hcredentials : s'.credentials = s.credentials)
    (hdraining : s'.draining = s.draining) (hlog : s'.log = s.log) :
    Core next s' := by
  constructor
  · rw [hline]
    exact h.order
  · rw [hwaiting]
    exact h.once
  · rw [hcredentials]
    exact h.store
  · rw [hcredentials, hline]
    exact h.fifo
  · rw [hcredentials, hline]
    exact h.ahead
  · intro hearly
    have henroll : Enrolling s := by
      apply h.early
      unfold Early at hearly
      rw [hcredentials, hline] at hearly
      exact hearly
    constructor
    · rw [hline]
      exact henroll.line
    · rw [hcredentials]
      exact henroll.jobs
    · rw [hcredentials]
      exact henroll.unverified
  · rw [hcredentials, hline, hdraining]
    exact h.settling
  · intro n hn
    rcases h.fresh n hn with ⟨hfresh, hfree⟩
    refine ⟨⟨?_, ?_, ?_, ?_⟩, ?_⟩
    · rw [hline]
      exact hfresh.line
    · rw [hwaiting]
      exact hfresh.waiting
    · rw [hcredentials]
      exact hfresh.idle
    · rw [hcredentials]
      exact hfresh.collected
    · intro hmem
      rcases hcalls n hmem with hmem | hlt
      · exact hfree hmem
      · exact absurd hlt (Nat.not_lt.mpr hn)
  · rw [hlog]
    exact h.entries
  · rw [hlog, hcredentials]
    exact h.versions

theorem plain_credits {log : List Entry} {e : Entry} (he : plain e = true) :
    Credits log e := by
  cases e <;> trivial

theorem Core.quiet {next n : Nat} {s s' : State} (h : Core next s)
    (hquiet : Quiet n s s') : Core next s' := by
  rcases hquiet.log with hlog | ⟨e, hlog, _, he⟩
  · exact h.congr hquiet.line hquiet.waiting
      (fun n hn => Or.inl (hquiet.calls ▸ hn)) hquiet.credentials
      hquiet.draining hlog
  · have hrecord : Core next (s.record e) := by
      apply h.record (plain_credits he)
      rintro m result version rfl
      cases he
    exact hrecord.congr hquiet.line hquiet.waiting
      (fun n hn => Or.inl (hquiet.calls ▸ hn)) hquiet.credentials
      hquiet.draining hlog

section Rules

variable {o : Options} {n : Nat} {value : Type}
variable {Q : Except Thrown value -> Phase -> Census -> State -> State -> Prop}
variable {ph : Phase} {K K' : State -> Prop} {cs : Census} {s0 s : State}

abbrev Wp (o : Options) (n : Nat)
    (Q : Except Thrown value -> Phase -> Census -> State -> State -> Prop)
    (p : Code value) (ph : Phase) (cs : Census) (s0 s : State) : Prop :=
  Prog.wp (auth o localWorld) contract n Q p ph cs s0 s

theorem Guar.step {s' : State} (h : Guar ph n s0 s)
    (hlog : exists more, s'.log = s.log ++ more ∧
      forall e, e ∈ more -> e.by = n)
    (hsame : forall m, m ≠ n -> Same m s s') : Guar ph n s0 s' := by
  refine ⟨h.alone, ?_, fun m hm => (h.others m hm).trans (hsame m hm)⟩
  rcases h.log with ⟨more, hmore, hall⟩
  rcases hlog with ⟨more', hmore', hall'⟩
  refine ⟨more ++ more', by rw [hmore', hmore, List.append_assoc], ?_⟩
  intro e he
  rcases List.mem_append.mp he with he | he
  · exact hall e he
  · exact hall' e he

theorem At.step {s' : State} (h : At ph n K cs s0 s)
    (hcore : Core cs.next s') (hcalls : s'.calls = s.calls)
    (hlog : exists more, s'.log = s.log ++ more ∧
      forall e, e ∈ more -> e.by = n)
    (hsame : forall m, m ≠ n -> Same m s s') (hmine : K' s') :
    At ph n K' cs s0 s' := by
  refine ⟨hcore, ?_, h.guar.step hlog hsame, ?_, ?_, h.known, hmine⟩
  · intro m hm
    rw [hcalls]
    exact (h.others m hm).imp id (·.same (hsame m hm))
  · rw [hcalls]
    exact h.idle
  · rw [hcalls]
    exact h.alone

theorem At.know (h : At ph n K cs s0 s) (hmine : K' s) : At ph n K' cs s0 s :=
  ⟨h.core, h.others, h.guar, h.idle, h.alone, h.known, hmine⟩

def Closed (n : Nat) (K : State -> Prop) : Prop :=
  forall s s', Quiet n s s' -> K s -> K s'

theorem At.quiet {s' : State} (h : At ph n K cs s0 s) (hK : Closed n K)
    (hquiet : Quiet n s s') : At ph n K cs s0 s' := by
  apply h.step (h.core.quiet hquiet) hquiet.calls _ (fun _ _ => hquiet.same)
    (hK s s' hquiet h.mine)
  rcases hquiet.log with hlog | ⟨e, hlog, hby, _⟩
  · exact ⟨[], by simp [hlog], fun _ he => absurd he List.not_mem_nil⟩
  · refine ⟨[e], hlog, ?_⟩
    intro x hx
    rw [List.mem_singleton.mp hx]
    exact hby

/-!
## Plain code

Most of the code of an operation has nothing to do with the queues: it updates
sessions, asks ports that answer at once, or calls observers.
-/

def plainCall : PortCall -> Bool
  | PortCall.clock _ => true
  | PortCall.random _ => true
  | PortCall.csrfCreate => true
  | PortCall.csrfVerify _ _ => true
  | PortCall.consume _ => true
  | PortCall.resetAddress _ => true
  | PortCall.isInitialized => true
  | PortCall.onDurabilityUncertain => true
  | PortCall.observer _ _ _ _ => true
  | _ => false

def Plain (n : Nat) : Code value -> Prop
  | Prog.ret _ => True
  | Prog.raise _ => True
  | Prog.act f k => forall s, Quiet n s (f s) ∧ Plain n (k s)
  | Prog.call c k => plainCall c = true ∧ forall r, Plain n (k r)

theorem Plain.bind {p : Code value} {other : Type} {g : value -> Code other}
    (hp : Plain n p) (hg : forall a, Plain n (g a)) : Plain n (p >>= g) := by
  induction p with
  | ret a => exact hg a
  | raise e => trivial
  | act f k ih => exact fun s => ⟨(hp s).1, ih s (hp s).2⟩
  | call c k ih => exact ⟨hp.1, fun r => ih r (hp.2 r)⟩

theorem Plain.read : Plain n (Prog.read : Code State) :=
  fun s => ⟨Quiet.refl n s, trivial⟩

theorem Plain.modify {f : State -> State} (hf : forall s, Quiet n s (f s)) :
    Plain n (Prog.modify f : Code Unit) :=
  fun s => ⟨hf s, trivial⟩

theorem Plain.note {e : Entry} (hby : e.by = n) (he : plain e = true) :
    Plain n (note e) :=
  Plain.modify fun _ => Quiet.record hby he

theorem Plain.ask {c : PortCall} (hc : plainCall c = true) :
    Plain n (Prog.ask (I := ports) c : Code (PortReply c)) :=
  ⟨hc, fun _ => trivial⟩

theorem Plain.need (a : Option value) : Plain n (need a) := by
  cases a with
  | none => trivial
  | some a => trivial

/-- An observer has control, but nothing happens. -/
theorem wp_observer {r : Ref} {k : Nat} {id : JsString}
    {reason : RevocationReason} {cont : Unit -> Code value} (hK : Closed n K)
    (h : At ph n K cs s0 s)
    (hcont : forall cs' s0' s', At ph n K cs' s0' s' ->
      Wp o n Q (cont ()) ph cs' s0' s') :
    Wp o n Q (Prog.call (I := ports) (PortCall.observer r k id reason) cont)
      ph cs s0 s := by
  have h1 := h.quiet hK (Quiet.record (e := Entry.notified n r k) rfl rfl)
  have hissue : issue n (PortCall.observer r k id reason) s =
      { s.record (Entry.notified n r k) with
        calls := n :: (s.record (Entry.notified n r k)).calls } := rfl
  generalize s.record (Entry.notified n r k) = s1 at h1 hissue
  have hsame : forall m, m ≠ n ->
      Same m s1 { s1 with calls := n :: s1.calls } := by
    intro m hm
    refine ⟨fun _ => Iff.rfl, fun _ => Iff.rfl, ?_, fun hf => hf,
      fun _ _ => Iff.rfl, fun _ => Iff.rfl⟩
    constructor
    · intro hmem
      exact (List.mem_cons.mp hmem).resolve_left hm
    · exact List.mem_cons_of_mem n
  apply (Prog.wp_callback rfl).mpr
  rw [show (auth o _).issue n (PortCall.observer r k id reason) s = _ from
    hissue]
  refine ⟨⟨?_, ?_⟩, h1.guar.step ⟨[], by simp, ?_⟩ hsame, ?_⟩
  · show Core cs.next { s1 with calls := n :: s1.calls }
    refine h1.core.congr rfl rfl ?_ rfl rfl rfl
    intro m hm
    rcases List.mem_cons.mp hm with rfl | hm
    · exact Or.inr h1.known
    · exact Or.inl hm
  · intro m
    by_cases hm : m = n
    · rw [hm]
      exact Or.inl List.mem_cons_self
    · exact (h1.others m hm).imp (List.mem_cons_of_mem n)
        (·.same (hsame m hm))
  · intro e he
    exact absurd he List.not_mem_nil
  · intro cs' s' u hok hlive hinv hrely _
    have hs' : s' = { s1 with calls := n :: s1.calls } :=
      hrely List.mem_cons_self
    have hfilter : (n :: s1.calls).filter (fun m => decide (m ≠ n)) =
        s1.calls := by
      rw [List.filter_cons_of_neg (by simp)]
      apply List.filter_eq_self.mpr
      intro m hm
      apply decide_eq_true
      rintro rfl
      exact h1.idle hm
    have hreply : reply n (PortCall.observer r k id reason) u s' = s1 := by
      rw [hs']
      show { s1 with
        calls := (n :: s1.calls).filter fun m => decide (m ≠ n) } = s1
      rw [hfilter]
    show Wp o n Q (cont u) ph cs' s' (reply n
      (PortCall.observer r k id reason) u s')
    rw [hreply]
    apply hcont cs' s'
    subst hs'
    have hback : forall m, m ≠ n ->
        Same m { s1 with calls := n :: s1.calls } s1 := by
      intro m hm
      have h' := hsame m hm
      exact ⟨fun _ => Iff.rfl, fun _ => Iff.rfl, h'.calls.symm, fun hf => hf,
        fun _ _ => Iff.rfl, fun _ => Iff.rfl⟩
    refine ⟨?_, h1.others, ⟨?_, ⟨[], by simp, ?_⟩, hback⟩, h1.idle, h1.alone,
      hok n hlive, h1.mine⟩
    · exact hinv.core.congr rfl rfl
        (fun m hm => Or.inl (List.mem_cons_of_mem n hm)) rfl rfl rfl
    · intro hph m hm
      rw [h1.alone hph] at hm
      exact List.mem_singleton.mp hm
    · intro e he
      exact absurd he List.not_mem_nil

theorem plain_issue {c : PortCall} (hc : plainCall c = true)
    (hobs : boundary c = Boundary.sync) (s : State) : issue n c s = s := by
  cases c <;> first
    | rfl
    | exact Boundary.noConfusion hobs
    | exact Bool.noConfusion hc

theorem plain_reply {c : PortCall} (hc : plainCall c = true)
    (hobs : boundary c = Boundary.sync) (r : PortReply c) (s : State) :
    Quiet n s (reply n c r s) := by
  cases c <;> first
    | exact Quiet.refl n s
    | exact Boundary.noConfusion hobs
    | exact Bool.noConfusion hc
    | (cases r <;> exact ⟨rfl, rfl, rfl, rfl, rfl, Or.inl rfl⟩)
    | (rename_i checked
       cases checked <;> cases r <;> first
         | exact Quiet.refl n s
         | exact Quiet.record rfl rfl)

theorem wp_plain {p : Code value} (hp : Plain n p) (hK : Closed n K)
    (h : At ph n K cs s0 s) :
    Wp o n (fun _ ph' cs' s0' s' => ph' = ph ∧ At ph n K cs' s0' s') p
      ph cs s0 s := by
  induction p generalizing cs s0 s with
  | ret a => exact ⟨rfl, h⟩
  | raise e => exact ⟨rfl, h⟩
  | act f k ih => exact ih s (hp s).2 (h.quiet hK (hp s).1)
  | call c k ih =>
      cases hb : boundary c with
      | await =>
          exfalso
          have hc := hp.1
          cases c <;> first | exact Boundary.noConfusion hb | exact Bool.noConfusion hc
      | callback =>
          have hobs : exists r j id reason,
              c = PortCall.observer r j id reason := by
            cases c <;> first
              | exact ⟨_, _, _, _, rfl⟩
              | exact Boundary.noConfusion hb
          rcases hobs with ⟨r, j, id, reason, rfl⟩
          apply wp_observer hK h
          intro cs' s0' s' h'
          exact ih () (hp.2 ()) h'
      | sync =>
          apply (Prog.wp_sync hb).mpr
          intro r _
          have hissue : issue n c s = s := plain_issue hp.1 hb s
          show Wp o n _ (k r) ph cs s0 (reply n c r (issue n c s))
          rw [hissue]
          exact ih r (hp.2 r) (h.quiet hK (plain_reply hp.1 hb r s))

theorem wp_plain_bind {p : Code value} {other : Type}
    {g : value -> Code other}
    {R : Except Thrown other -> Phase -> Census -> State -> State -> Prop}
    (hp : Plain n p) (hK : Closed n K) (h : At ph n K cs s0 s)
    (hok : forall a cs' s0' s', At ph n K cs' s0' s' ->
      Wp o n R (g a) ph cs' s0' s')
    (herror : forall e cs' s0' s', At ph n K cs' s0' s' ->
      R (Except.error e) ph cs' s0' s') :
    Wp o n R (p >>= g) ph cs s0 s := by
  apply Prog.wp_bind.mpr
  apply Prog.wp_mono _ (wp_plain hp hK h)
  rintro res ph' cs' s0' s' ⟨rfl, h'⟩
  cases res with
  | ok a => exact hok a cs' s0' s' h'
  | error e => exact herror e cs' s0' s' h'

theorem now_plain (checked : Option Ref) : Plain n (now checked) :=
  Plain.bind (Plain.ask rfl) Plain.need

theorem expiredReason_plain (r : Ref) : Plain n (expiredReason r) := by
  apply Plain.bind (now_plain (some r))
  intro t
  apply Plain.bind Plain.read
  intro s
  trivial

theorem remove_plain (r : Ref) : Plain n (remove n r) := by
  apply Plain.bind Plain.read
  intro s
  cases s.sessions.byId.get (s.sessions.heap r).id with
  | none => trivial
  | some found =>
      apply Plain.bind
      · apply Plain.modify
        intro s'
        exact ⟨rfl, rfl, rfl, rfl, rfl, Or.inr ⟨_, rfl, rfl, rfl⟩⟩
      · intro _
        trivial

theorem emitEach_plain (r : Ref) (id : JsString) (reason : RevocationReason)
    (observers : List Nat) : Plain n (emitEach r id reason observers) := by
  induction observers with
  | nil => trivial
  | cons k rest ih =>
      apply Plain.bind (Plain.ask rfl)
      intro _
      exact ih

theorem emitRevocation_plain (r : Ref) (id : JsString)
    (reason : RevocationReason) : Plain n (emitRevocation n r id reason) := by
  apply Plain.bind Plain.read
  intro s
  refine Plain.bind (Plain.note rfl rfl) ?_
  intro _
  exact emitEach_plain r id reason s.observers

theorem revoke_plain (r : Ref) (reason : RevocationReason) :
    Plain n (revoke n r reason) := by
  apply Plain.bind (remove_plain r)
  intro removed
  cases removed with
  | false => trivial
  | true =>
      apply Plain.bind Plain.read
      intro s
      exact emitRevocation_plain r _ reason

theorem revokeEach_plain (reason : RevocationReason) (refs : List Ref) :
    Plain n (revokeEach n reason refs) := by
  induction refs with
  | nil => trivial
  | cons r rest ih =>
      apply Plain.bind (revoke_plain r reason)
      intro _
      exact ih

theorem removeEach_plain (refs : List (Ref × RevocationReason)) :
    Plain n (removeEach n refs) := by
  induction refs with
  | nil => trivial
  | cons x rest ih =>
      apply Plain.bind (remove_plain x.1)
      intro _
      exact ih

theorem emitAll_plain (refs : List (Ref × RevocationReason)) :
    Plain n (emitAll n refs) := by
  induction refs with
  | nil => trivial
  | cons x rest ih =>
      apply Plain.bind Plain.read
      intro s
      apply Plain.bind (emitRevocation_plain x.1 _ x.2)
      intro _
      exact ih

theorem token_plain (size : Nat) : Plain n (token size) := by
  apply Plain.bind (Plain.ask rfl)
  intro reply
  apply Plain.bind (Plain.need reply)
  intro bytes
  show Plain n (if bytes.length ≠ size then _ else _)
  split
  · trivial
  · trivial

theorem freshCookie_plain (o : Options) (attempts : Nat) :
    Plain n (freshCookie o attempts) := by
  induction attempts with
  | zero => trivial
  | succ attempts ih =>
      apply Plain.bind (token_plain 32)
      intro cookie
      apply Plain.bind Plain.read
      intro s
      show Plain n (if s.sessions.byDigest.has (o.hash cookie) then _ else _)
      split
      · exact ih
      · trivial

theorem freshId_plain (attempts : Nat) : Plain n (freshId attempts) := by
  induction attempts with
  | zero => trivial
  | succ attempts ih =>
      apply Plain.bind (token_plain 16)
      intro id
      apply Plain.bind Plain.read
      intro s
      show Plain n (if s.sessions.byId.has id then _ else _)
      split
      · exact ih
      · trivial

theorem nextGeneration_plain : Plain n nextGeneration := by
  apply Plain.bind Plain.read
  intro s
  apply Plain.bind
  · apply Plain.modify
    intro s'
    exact ⟨rfl, rfl, rfl, rfl, rfl, Or.inl rfl⟩
  · intro _
    show Plain n (if _ then _ else _)
    split
    · trivial
    · trivial

theorem prepareSession_plain (o : Options) (mode : AuthMode) (label : JsString)
    (upstreamExpiresAt : Option ℚ) :
    Plain n (prepareSession o mode label upstreamExpiresAt) := by
  apply Plain.bind (now_plain none)
  intro t
  apply Plain.bind (freshCookie_plain o 8)
  intro cookie
  apply Plain.bind (freshId_plain 8)
  intro id
  cases cookie with
  | none => trivial
  | some cookie =>
      cases id with
      | none => trivial
      | some id =>
          apply Plain.bind (Plain.ask rfl)
          intro reply
          apply Plain.bind (Plain.need reply)
          intro issued
          apply Plain.bind nextGeneration_plain
          intro generation
          apply Plain.bind (Plain.need _)
          intro identityLabel
          show Plain n (if _ then _ else _)
          split
          · trivial
          · trivial

theorem reserveEstablishment_plain (o : Options) :
    Plain n (reserveEstablishment o) := by
  apply Plain.bind Plain.read
  intro s
  show Plain n (if _ then _ else _)
  split
  · trivial
  · apply Plain.bind
    · apply Plain.modify
      intro s'
      exact ⟨rfl, rfl, rfl, rfl, rfl, Or.inl rfl⟩
    · intro _
      trivial

theorem releaseEstablishment_plain : Plain n releaseEstablishment := by
  apply Plain.modify
  intro s'
  exact ⟨rfl, rfl, rfl, rfl, rfl, Or.inl rfl⟩

theorem releaseLocal_plain : Plain n releaseLocal := by
  apply Plain.bind
  · apply Plain.modify
    intro s'
    exact ⟨rfl, rfl, rfl, rfl, rfl, Or.inl rfl⟩
  · intro _
    exact releaseEstablishment_plain

theorem resetLimiter_plain (address : JsString) :
    Plain n (resetLimiter address) :=
  Plain.bind (Plain.ask rfl) Plain.need

theorem logout_plain (id : JsString) : Plain n (logout n id) := by
  apply Plain.bind Plain.read
  intro s
  cases s.sessions.byId.get id with
  | none => trivial
  | some r =>
      apply Plain.bind (revoke_plain r _)
      intro _
      trivial

/-!
## Places in the queues
-/

theorem same_park {m : Nat} (hm : m ≠ n) (c : PortCall) :
    Same m s (s.park n c) := by
  refine ⟨fun _ => Iff.rfl, ?_, Iff.rfl, fun hf => hf, fun _ _ => Iff.rfl,
    fun _ => Iff.rfl⟩
  intro c'
  constructor
  · intro hmem
    rcases List.mem_append.mp hmem with hmem | hmem
    · exact hmem
    · cases List.mem_singleton.mp hmem
      exact absurd rfl hm
  · exact List.mem_append_left _

theorem same_unpark {m : Nat} (hm : m ≠ n) : Same m s (s.unpark n) := by
  refine ⟨fun _ => Iff.rfl, ?_, Iff.rfl, fun hf => hf, fun _ _ => Iff.rfl,
    fun _ => Iff.rfl⟩
  intro c'
  constructor
  · intro hmem
    exact (List.mem_filter.mp hmem).1
  · intro hmem
    exact List.mem_filter.mpr ⟨hmem, decide_eq_true hm⟩

theorem same_collect {m : Nat} (hm : m ≠ n) : Same m s (s.collect n) := by
  refine ⟨fun _ => Iff.rfl, fun _ => Iff.rfl, Iff.rfl, fun hf => hf,
    fun _ _ => Iff.rfl, ?_⟩
  intro outcome
  constructor
  · intro hmem
    exact (List.mem_filter.mp hmem).1
  · intro hmem
    exact List.mem_filter.mpr ⟨hmem, decide_eq_true hm⟩

theorem same_reserve {m : Nat} (hm : m ≠ n) (slot : Slot) :
    Same m s { s with line := s.line ++ [(n, slot)] } := by
  refine ⟨?_, fun _ => Iff.rfl, Iff.rfl, ?_, fun _ _ => Iff.rfl,
    fun _ => Iff.rfl⟩
  · intro k
    constructor
    · intro hmem
      rcases List.mem_append.mp hmem with hmem | hmem
      · exact hmem
      · cases List.mem_singleton.mp hmem
        exact absurd rfl hm
    · exact List.mem_append_left _
  · intro hfirst
    unfold isFirst at hfirst ⊢
    cases hline : s.line with
    | nil =>
        rw [hline] at hfirst
        cases hfirst
    | cons x rest =>
        rw [hline] at hfirst
        exact hfirst

theorem isFirst_iff {m : Nat} : isFirst s m = true <->
    exists slot rest, s.line = (m, slot) :: rest := by
  unfold isFirst
  cases hline : s.line with
  | nil => simp
  | cons x rest =>
      rcases x with ⟨k, slot⟩
      simp

theorem same_finish {m : Nat} (hm : m ≠ n) (hfirst : isFirst s n = true) :
    Same m s { s with line := s.line.tail } := by
  rcases isFirst_iff.mp hfirst with ⟨slot, rest, hline⟩
  refine ⟨?_, fun _ => Iff.rfl, Iff.rfl, ?_, fun _ _ => Iff.rfl,
    fun _ => Iff.rfl⟩
  · intro k
    show (m, k) ∈ s.line.tail <-> (m, k) ∈ s.line
    rw [hline]
    constructor
    · exact List.mem_cons_of_mem _
    · intro hmem
      rcases List.mem_cons.mp hmem with hmem | hmem
      · cases hmem
        exact absurd rfl hm
      · exact hmem
  · intro hfirst'
    rcases isFirst_iff.mp hfirst' with ⟨slot', rest', hline'⟩
    rw [hline] at hline'
    cases hline'
    exact absurd rfl hm

theorem submit_cases (c : CredentialStore.State) (n : Nat) (job : Job) :
    (c.submit n job = c.enqueue n job ∧
      ((exists pw, job = Job.enroll pw) ∨ c.current.isSome = true)) ∨
    (exists outcome, c.submit n job = c.settle n outcome ∧
      grants outcome = none ∧ replaces outcome = none) := by
  cases job with
  | enroll password =>
      simp only [CredentialStore.State.submit]
      split
      · exact Or.inl ⟨rfl, Or.inl ⟨password, rfl⟩⟩
      · exact Or.inr ⟨_, rfl, rfl, rfl⟩
  | verify username password =>
      simp only [CredentialStore.State.submit]
      split
      · exact Or.inr ⟨_, rfl, rfl, rfl⟩
      · rename_i hsome
        split
        · exact Or.inr ⟨_, rfl, rfl, rfl⟩
        · refine Or.inl ⟨rfl, Or.inr ?_⟩
          simpa [Option.isSome_iff_ne_none] using hsome
  | replacePassword password =>
      simp only [CredentialStore.State.submit]
      split
      · exact Or.inr ⟨_, rfl, rfl, rfl⟩
      · rename_i hsome
        split
        · exact Or.inr ⟨_, rfl, rfl, rfl⟩
        · refine Or.inl ⟨rfl, Or.inr ?_⟩
          simpa [Option.isSome_iff_ne_none] using hsome

structure Submitted (n : Nat) (job : Job) (s s' : State) : Prop where
  line : s'.line = s.line
  waiting : s'.waiting = s.waiting
  calls : s'.calls = s.calls
  log : s'.log = s.log
  others : forall m, m ≠ n -> Same m s s'
  jobs : forall p, p ∈ s'.credentials.queue -> p.caller = n -> p.job = job
  pending : Pends s'.credentials n ∨ Settles s'.credentials n

/-- A job is submitted, once, when jobs of its kind can be. -/
theorem Core.submit {next : Nat} (h : Core next s) (job : Job) (hn : n < next)
    (hidle : ¬ Pends s.credentials n) (hcollected : ¬ Settles s.credentials n)
    (hphase : (exists pw, job = Job.enroll pw) ∨
      (s.credentials.current.isSome = true -> ¬ Early s))
    (hlast : (n, Slot.login) ∈ s.line -> forall m k, (m, k) ∈ s.line ->
      m ≤ n) :
    Core next (s.submit n job) ∧ Submitted n job s (s.submit n job) := by
  unfold State.submit
  rcases submit_cases s.credentials n job with ⟨heq, hsome⟩ |
    ⟨outcome, heq, hgrant, hreplace⟩
  · rw [heq]
    have hphase' : (exists pw, job = Job.enroll pw) ∨ ¬ Early s := by
      rcases hsome with hjob | hsome
      · exact Or.inl hjob
      · exact hphase.imp id (fun hlate => hlate hsome)
    refine ⟨h.enqueue hn hidle hcollected hphase' hlast, rfl, rfl, rfl, rfl,
      ?_, ?_, ?_⟩
    · intro m hm
      refine ⟨fun _ => Iff.rfl, fun _ => Iff.rfl, Iff.rfl, fun hf => hf, ?_,
        fun _ => Iff.rfl⟩
      intro p hp
      constructor
      · intro hmem
        rcases List.mem_append.mp hmem with hmem | hmem
        · exact hmem
        · rw [List.mem_singleton.mp hmem] at hp
          exact absurd hp.symm hm
      · exact List.mem_append_left _
    · intro p hp hpn
      rcases List.mem_append.mp hp with hp | hp
      · exact absurd ⟨p, hp, hpn⟩ hidle
      · rw [List.mem_singleton.mp hp]
    · exact Or.inl ⟨⟨n, job, Stage.queued⟩,
        List.mem_append_right _ List.mem_cons_self, rfl⟩
  · rw [heq]
    refine ⟨h.settle hn hidle hgrant hreplace, rfl, rfl, rfl, rfl, ?_, ?_, ?_⟩
    · intro m hm
      refine ⟨fun _ => Iff.rfl, fun _ => Iff.rfl, Iff.rfl, fun hf => hf,
        fun _ _ => Iff.rfl, ?_⟩
      intro x
      constructor
      · intro hmem
        rcases List.mem_append.mp hmem with hmem | hmem
        · exact hmem
        · cases List.mem_singleton.mp hmem
          exact absurd rfl hm
      · exact List.mem_append_left _
    · intro p hp hpn
      exact absurd ⟨p, hp, hpn⟩ hidle
    · exact Or.inr ⟨outcome, List.mem_append_right _ List.mem_cons_self⟩

/-- Operation `n` is in line, and the credential store has nothing for it. -/
structure Placed (slot : Slot) (n : Nat) (s : State) : Prop where
  line : (n, slot) ∈ s.line
  waiting : forall c, (n, c) ∉ s.waiting
  idle : ¬ Pends s.credentials n
  collected : ¬ Settles s.credentials n

/-- Operation `n` is a login in line whose password is compared, or has been. -/
structure Verifying (n : Nat) (s : State) : Prop where
  line : (n, Slot.login) ∈ s.line
  waiting : forall c, (n, c) ∉ s.waiting
  jobs : forall p, p ∈ s.credentials.queue -> p.caller = n ->
    exists username pw, p.job = Job.verify username pw
  pending : Pends s.credentials n ∨ Settles s.credentials n

/-- Operation `n` has not begun to wait and came after all others. -/
structure Entrant (n : Nat) (s : State) : Prop where
  out : Out s n
  last : forall m k, (m, k) ∈ s.line -> m < n
  settled : s.draining = false

theorem Out.quiet {s s' : State} (hquiet : Quiet n s s') (h : Out s n) :
    Out s' n :=
  h.same hquiet.same

theorem Placed.quiet {slot : Slot} {s s' : State} (hquiet : Quiet n s s')
    (h : Placed slot n s) : Placed slot n s' := by
  have hsame : Same n s s' := hquiet.same
  exact ⟨(hsame.line _).mpr h.line,
    fun c hc => h.waiting c ((hsame.waiting c).mp hc),
    fun hp => h.idle (hsame.pends.mp hp),
    fun hs => h.collected (hsame.settles.mp hs)⟩

theorem Entrant.quiet {s s' : State} (hquiet : Quiet n s s')
    (h : Entrant n s) : Entrant n s' := by
  refine ⟨h.out.same hquiet.same, ?_, ?_⟩
  · rw [hquiet.line]
    exact h.last
  · rw [hquiet.draining]
    exact h.settled

theorem Early.quiet {s s' : State} (hquiet : Quiet n s s') :
    Early s' <-> Early s := by
  unfold Early
  rw [hquiet.line, hquiet.credentials]

theorem isFirst_quiet {s s' : State} (hquiet : Quiet n s s') (m : Nat) :
    isFirst s' m = isFirst s m := by
  unfold isFirst
  rw [hquiet.line]

/-!
## Waiting
-/

/-- Operation `n`, which has waited since `s`, goes on. -/
structure Back (n : Nat) (s : State) (cs : Census) (s' : State) : Prop where
  queues : Queues cs.next s'
  kept : Kept n s s'
  places : Local s' n
  calls : n ∉ s'.calls
  known : n < cs.next

theorem wp_park {c : PortCall} {cont : PortReply c -> Code value}
    (hb : boundary c = Boundary.await) (h : At ph n K cs s0 s)
    (hcore : Core cs.next (issue n c s)) (hlocal : Local (issue n c s) n)
    (hcalls : (issue n c s).calls = s.calls)
    (hlog : (issue n c s).log = s.log)
    (hsame : forall m, m ≠ n -> Same m s (issue n c s))
    (hcont : forall cs' s' r, Back n (issue n c s) cs' s' ->
      answers s' n c r ->
      Wp o n Q (cont r) Phase.later cs' s' (reply n c r s')) :
    Wp o n Q (Prog.call (I := ports) c cont) ph cs s0 s := by
  apply (Prog.wp_await hb).mpr
  refine ⟨⟨hcore, ?_⟩, h.guar.step ⟨[], ?_, ?_⟩ hsame, ?_⟩
  · intro m
    by_cases hm : m = n
    · rw [hm]
      exact Or.inr hlocal
    · refine (h.others m hm).imp ?_ (·.same (hsame m hm))
      intro hmem
      exact hcalls ▸ hmem
  · rw [List.append_nil]
    exact hlog
  · intro e he
    exact absurd he List.not_mem_nil
  · intro cs' s' r hok hlive hinv hrely hr
    have hkept : Kept n (issue n c s) s' := hrely
    have hidle : n ∉ s'.calls := by
      rw [hkept.calls, hcalls]
      exact h.idle
    apply hcont cs' s' r _ hr
    exact ⟨hinv, hkept, (hinv.locals n).resolve_left hidle, hidle, hok n hlive⟩

theorem Back.at {s' s1 : State} (h : Back n s cs s')
    (hcore : Core cs.next s1) (hcalls : s1.calls = s'.calls)
    (hlog : exists more, s1.log = s'.log ++ more ∧
      forall e, e ∈ more -> e.by = n)
    (hsame : forall m, m ≠ n -> Same m s' s1) (hmine : K s1) :
    At Phase.later n K cs s' s1 := by
  refine ⟨hcore, ?_, ⟨nofun, hlog, hsame⟩, ?_, nofun, h.known, hmine⟩
  · intro m hm
    rw [hcalls]
    exact (h.queues.locals m).imp id (·.same (hsame m hm))
  · rw [hcalls]
    exact h.calls

theorem Back.unpark {s' : State} (h : Back n s cs s')
    (hmine : K (s'.unpark n)) : At Phase.later n K cs s' (s'.unpark n) :=
  h.at h.queues.core.unpark rfl
    ⟨[], by simp [State.unpark], fun _ he => absurd he List.not_mem_nil⟩
    (fun _ hm => same_unpark hm) hmine

theorem Back.collect {s' : State} (h : Back n s cs s')
    (hmine : K ((s'.unpark n).collect n)) :
    At Phase.later n K cs s' ((s'.unpark n).collect n) := by
  apply h.at h.queues.core.unpark.collect rfl ⟨[_], rfl, ?_⟩
    (fun _ hm => (same_unpark hm).trans (same_collect hm)) hmine
  intro e he
  rw [List.mem_singleton.mp he]
  rfl

theorem Core.waits_once {next : Nat} {c c' : PortCall} (h : Core next s)
    (hc : (n, c) ∈ s.waiting) (hc' : (n, c') ∈ s.waiting) : c' = c := by
  have hpair := List.inj_on_of_nodup_map h.once hc' hc rfl
  cases hpair
  rfl

theorem Core.placed_once {next : Nat} {k k' : Slot} (h : Core next s)
    (hk : (n, k) ∈ s.line) (hk' : (n, k') ∈ s.line) : k' = k := by
  have hnodup : (s.line.map Prod.fst).Nodup :=
    h.order.imp (fun hlt => Nat.ne_of_lt hlt)
  have hpair := List.inj_on_of_nodup_map hnodup hk' hk rfl
  cases hpair
  rfl

theorem unpark_waiting (s : State) (c : PortCall) :
    (n, c) ∉ (s.unpark n).waiting := by
  intro hmem
  have hne := (List.mem_filter.mp hmem).2
  simp at hne

theorem collect_settles (s : State) :
    ¬ Settles (s.collect n).credentials n := by
  rintro ⟨outcome, hmem⟩
  have hne := (List.mem_filter.mp hmem).2
  simp at hne

theorem justTold_collect {outcome : CredentialStore.Outcome}
    (h : s.credentials.settled.lookup n = some outcome) :
    JustTold n outcome (s.collect n).log := by
  refine ⟨s.log, [], ?_, fun _ he => absurd he List.not_mem_nil⟩
  show s.log ++ [Entry.told n (s.credentials.settled.lookup n)] = _
  rw [h]

theorem JustTold.last {log : List Entry} {outcome : CredentialStore.Outcome}
    (h : JustTold n outcome log) : LastTold n outcome log := by
  rcases h with ⟨before, after, hlog, hafter⟩
  refine ⟨before, after, hlog, ?_⟩
  intro x hx
  cases hafter _ hx

theorem JustTold.quiet {s s' : State} {outcome : CredentialStore.Outcome}
    (hquiet : Quiet n s s') (h : JustTold n outcome s.log) :
    JustTold n outcome s'.log := by
  rcases hquiet.log with hlog | ⟨e, hlog, _, he⟩
  · rw [hlog]
    exact h
  · rcases h with ⟨before, after, hsplit, hafter⟩
    refine ⟨before, after ++ [e], ?_, ?_⟩
    · rw [hlog, hsplit]
      simp
    · intro x hx
      rcases List.mem_append.mp hx with hx | hx
      · exact hafter x hx
      · rw [List.mem_singleton.mp hx]
        exact he

theorem LastTold.append {log more : List Entry}
    {outcome : CredentialStore.Outcome} (h : LastTold n outcome log)
    (hmore : forall x, Entry.told n x ∉ more) :
    LastTold n outcome (log ++ more) := by
  rcases h with ⟨before, after, hlog, hafter⟩
  refine ⟨before, after ++ more, ?_, ?_⟩
  · rw [hlog]
    simp
  · intro x hx
    rcases List.mem_append.mp hx with hx | hx
    · exact hafter x hx
    · exact hmore x hx

theorem LastTold.quiet {s s' : State} {outcome : CredentialStore.Outcome}
    (hquiet : Quiet n s s') (h : LastTold n outcome s.log) :
    LastTold n outcome s'.log := by
  rcases hquiet.log with hlog | ⟨e, hlog, _, he⟩
  · rw [hlog]
    exact h
  · rw [hlog]
    apply h.append
    intro x hx
    rw [← List.mem_singleton.mp hx] at he
    cases he

/-- After an answer of the credential store nothing of operation `n` is left
there. -/
theorem Back.answered {s' : State} (h : Back n s cs s')
    {outcome : CredentialStore.Outcome}
    (hlookup : s'.credentials.settled.lookup n = some outcome) :
    ¬ Pends s'.credentials n := by
  rintro ⟨p, hp, hpn⟩
  apply h.queues.core.store.apart p hp
  rw [hpn]
  exact ⟨outcome, mem_of_lookup hlookup⟩

theorem Back.out {s' : State} (h : Back n s cs s')
    (hout : forall slot, (n, slot) ∉ s.line)
    {outcome : CredentialStore.Outcome}
    (hlookup : s'.credentials.settled.lookup n = some outcome) :
    Out ((s'.unpark n).collect n) n :=
  ⟨fun k hk => hout k ((h.kept.line k).mp hk), fun c => unpark_waiting s' c,
    h.answered hlookup, collect_settles (s'.unpark n)⟩

theorem Back.placed {s' : State} {slot : Slot} (h : Back n s cs s')
    (hline : (n, slot) ∈ s.line) {outcome : CredentialStore.Outcome}
    (hlookup : s'.credentials.settled.lookup n = some outcome) :
    Placed slot n ((s'.unpark n).collect n) :=
  ⟨(h.kept.line slot).mpr hline, fun c => unpark_waiting s' c,
    h.answered hlookup, collect_settles (s'.unpark n)⟩

theorem Back.first {s' : State} {slot : Slot} {c : PortCall}
    (h : Back n s cs s') (hline : (n, slot) ∈ s.line)
    (hwaits : (n, c) ∈ s.waiting) (hc : c ≠ PortCall.turn) :
    isFirst s' n = true := by
  rcases h.places.place slot ((h.kept.line slot).mpr hline) with
    hturn | ⟨hfirst, _⟩
  · have heq := h.queues.core.waits_once ((h.kept.waiting c).mpr hwaits) hturn
    exact absurd heq.symm hc
  · exact hfirst

theorem park_local {c : PortCall} (hplace : forall slot, (n, slot) ∈ s.line ->
      c = PortCall.turn ∨ isFirst s n = true ∧ Asks (s.park n c) n slot)
    (hjobs : forall p, p ∈ s.credentials.queue -> p.caller = n ->
      Owns (s.park n c) n p.job)
    (howed : Settles s.credentials n -> Owed (s.park n c) n)
    (hwaiting : forall c, (n, c) ∉ s.waiting)
    (hpending : (n, Slot.login) ∈ s.line ∨ c.credential = true ->
      Pends s.credentials n ∨ Settles s.credentials n) :
    Local (s.park n c) n := by
  have hmem : forall c', (n, c') ∈ (s.park n c).waiting -> c' = c := by
    intro c' hc'
    rcases List.mem_append.mp hc' with hc' | hc'
    · exact absurd hc' (hwaiting c')
    · cases List.mem_singleton.mp hc'
      rfl
  refine ⟨?_, hjobs, howed, fun hline => hpending (Or.inl hline), ?_⟩
  · intro slot hslot
    rcases hplace slot hslot with rfl | hfirst
    · exact Or.inl (List.mem_append_right _ List.mem_cons_self)
    · exact Or.inr hfirst
  · intro c' hc' hw
    rw [hmem c' hw] at hc'
    exact hpending (Or.inr hc')

theorem park_mem {c : PortCall} : (n, c) ∈ (s.park n c).waiting :=
  List.mem_append_right _ List.mem_cons_self

theorem wp_settled {L : List Entry -> Prop} {cont : Unit -> Code value}
    (h : At ph n (fun s => Out s n ∧ L s.log) cs s0 s)
    (hL : forall log more, (forall e, e ∈ more -> e.by ≠ n) -> L log ->
      L (log ++ more))
    (hcont : forall cs' s0' s',
      At Phase.later n (fun s => Out s n ∧ L s.log) cs' s0' s' ->
      Wp o n Q (cont ()) Phase.later cs' s0' s') :
    Wp o n Q (Prog.call (I := ports) PortCall.settled cont) ph cs s0 s := by
  have hout := h.mine.1
  refine wp_park (c := PortCall.settled) rfl h
    (h.core.park h.known hout.waiting) ?_ rfl rfl
    (fun m hm => same_park hm _) ?_
  · apply park_local
    · intro slot hslot
      exact absurd hslot (hout.line slot)
    · intro p hp hpn
      exact absurd ⟨p, hp, hpn⟩ hout.idle
    · intro hset
      exact absurd hset hout.collected
    · exact hout.waiting
    · rintro (hline | hc)
      · exact absurd hline (hout.line _)
      · cases hc
  · intro cs' s' r hback _
    apply hcont cs' s'
    apply hback.unpark
    have hwaits := (hback.kept.waiting PortCall.settled).mpr park_mem
    have hline : forall slot, (n, slot) ∉ s'.line :=
      fun k hk => hout.line k ((hback.kept.line k).mp hk)
    have hfree : ¬ Owed s' n := by
      rintro (hlogin | ⟨c, hc, hw⟩)
      · exact hline _ hlogin
      · rw [hback.queues.core.waits_once hwaits hw] at hc
        cases hc
    constructor
    · refine ⟨hline, fun c => unpark_waiting s' c, ?_,
        fun hset => hfree (hback.places.owed hset)⟩
      rintro ⟨p, hp, hpn⟩
      exact hfree (hback.places.jobs p hp hpn).owed
    · rcases hback.kept.log with ⟨more, hlog, hmore⟩
      show L s'.log
      rw [hlog]
      exact hL _ more hmore h.mine.2

theorem wp_turn_setup {cont : Unit -> Code value}
    (h : At ph n (Placed Slot.setup n) cs s0 s)
    (hcont : forall cs' s0' s', At Phase.later n
      (fun s => Placed Slot.setup n s ∧ isFirst s n = true) cs' s0' s' ->
      Wp o n Q (cont ()) Phase.later cs' s0' s') :
    Wp o n Q (Prog.call (I := ports) PortCall.turn cont) ph cs s0 s := by
  have hplaced := h.mine
  refine wp_park (c := PortCall.turn) rfl h
    (h.core.park h.known hplaced.waiting) ?_ rfl rfl
    (fun m hm => same_park hm _) ?_
  · apply park_local
    · intro slot _
      exact Or.inl rfl
    · intro p hp hpn
      exact absurd ⟨p, hp, hpn⟩ hplaced.idle
    · intro hset
      exact absurd hset hplaced.collected
    · exact hplaced.waiting
    · rintro (hline | hc)
      · cases h.core.placed_once hplaced.line hline
      · cases hc
  · intro cs' s' r hback hfirst
    apply hcont cs' s'
    apply hback.unpark
    have hwaits := (hback.kept.waiting PortCall.turn).mpr park_mem
    have hline : (n, Slot.setup) ∈ s'.line :=
      (hback.kept.line _).mpr hplaced.line
    have hfree : ¬ Owed s' n := by
      rintro (hlogin | ⟨c, hc, hw⟩)
      · cases hback.queues.core.placed_once hline hlogin
      · rw [hback.queues.core.waits_once hwaits hw] at hc
        cases hc
    refine ⟨⟨hline, fun c => unpark_waiting s' c, ?_,
      fun hset => hfree (hback.places.owed hset)⟩, hfirst⟩
    rintro ⟨p, hp, hpn⟩
    exact hfree (hback.places.jobs p hp hpn).owed

theorem wp_turn_login {cont : Unit -> Code value}
    (h : At ph n (Verifying n) cs s0 s)
    (hcont : forall cs' s0' s', At Phase.later n
      (fun s => Verifying n s ∧ isFirst s n = true) cs' s0' s' ->
      Wp o n Q (cont ()) Phase.later cs' s0' s') :
    Wp o n Q (Prog.call (I := ports) PortCall.turn cont) ph cs s0 s := by
  have hmine := h.mine
  refine wp_park (c := PortCall.turn) rfl h
    (h.core.park h.known hmine.waiting) ?_ rfl rfl
    (fun m hm => same_park hm _) ?_
  · apply park_local
    · intro slot _
      exact Or.inl rfl
    · intro p hp hpn
      rcases hmine.jobs p hp hpn with ⟨username, pw, hjob⟩
      rw [hjob]
      exact Or.inl hmine.line
    · intro _
      exact Or.inl hmine.line
    · exact hmine.waiting
    · exact fun _ => hmine.pending
  · intro cs' s' r hback hfirst
    apply hcont cs' s'
    apply hback.unpark
    have hwaits := (hback.kept.waiting PortCall.turn).mpr park_mem
    have hline : (n, Slot.login) ∈ s'.line :=
      (hback.kept.line _).mpr hmine.line
    refine ⟨⟨hline, fun c => unpark_waiting s' c, ?_,
      hback.places.login hline⟩, hfirst⟩
    intro p hp hpn
    have howns := hback.places.jobs p hp hpn
    cases hjob : p.job with
    | verify username pw => exact ⟨username, pw, rfl⟩
    | enroll pw =>
        rw [hjob] at howns
        rcases howns.2 with ⟨pw', hpw⟩
        cases hback.queues.core.waits_once hwaits hpw
    | replacePassword pw =>
        rw [hjob] at howns
        rcases howns with ⟨pw', hpw⟩
        cases hback.queues.core.waits_once hwaits hpw

theorem wp_verification {cont : VerificationOutcome -> Code value}
    (h : At ph n (fun s => Verifying n s ∧ isFirst s n = true) cs s0 s)
    (hcont : forall cs' s0' s' r outcome, At Phase.later n
      (fun s => Placed Slot.login n s ∧ isFirst s n = true ∧
        JustTold n outcome s.log) cs' s0' s' ->
      (r = VerificationOutcome.ok true -> exists version, outcome =
        CredentialStore.Outcome.verified true version) ->
      Wp o n Q (cont r) Phase.later cs' s0' s') :
    Wp o n Q (Prog.call (I := ports) PortCall.verification cont)
      ph cs s0 s := by
  rcases h.mine with ⟨hmine, hfirst⟩
  refine wp_park (c := PortCall.verification) rfl h
    (h.core.park h.known hmine.waiting) ?_ rfl rfl
    (fun m hm => same_park hm _) ?_
  · apply park_local
    · intro slot hslot
      rw [h.core.placed_once hmine.line hslot]
      exact Or.inr ⟨hfirst, park_mem⟩
    · intro p hp hpn
      rcases hmine.jobs p hp hpn with ⟨username, pw, hjob⟩
      rw [hjob]
      exact Or.inl hmine.line
    · intro _
      exact Or.inl hmine.line
    · exact hmine.waiting
    · exact fun _ => hmine.pending
  · intro cs' s' r hback hr
    have hfirst' := hback.first hmine.line park_mem PortCall.noConfusion
    cases hlookup : s'.credentials.settled.lookup n with
    | none =>
        simp only [answers, hlookup] at hr
    | some outcome =>
        apply hcont cs' s' _ r outcome
        · apply hback.collect
          exact ⟨hback.placed hmine.line hlookup, hfirst',
            justTold_collect hlookup⟩
        · rintro rfl
          simp only [answers, hlookup] at hr
          cases outcome with
          | verified valid version =>
              cases hr
              exact ⟨version, rfl⟩
          | enrollment result version => exact hr.elim
          | replacement result version => exact hr.elim
          | failed => cases hr

theorem Submitted.local {c : PortCall} {job : Job} {s' : State}
    (hsub : Submitted n job s s') (hc : c.credential = true)
    (hwaiting : forall c, (n, c) ∉ s.waiting)
    (hplace : forall slot, (n, slot) ∈ s.line ->
      isFirst s' n = true ∧ Asks (s'.park n c) n slot)
    (howns : Owns (s'.park n c) n job) : Local (s'.park n c) n := by
  apply park_local
  · intro slot hslot
    exact Or.inr (hplace slot (hsub.line ▸ hslot))
  · intro p hp hpn
    rw [hsub.jobs p hp hpn]
    exact howns
  · intro _
    exact Or.inr ⟨c, hc, park_mem⟩
  · intro c' hc'
    exact hwaiting c' (hsub.waiting ▸ hc')
  · exact fun _ => hsub.pending

theorem wp_enroll {password : JsString}
    {cont : Option EnrollmentResult -> Code value}
    (h : At ph n (fun s => Placed Slot.setup n s ∧ isFirst s n = true)
      cs s0 s)
    (hcont : forall cs' s0' s' r outcome, At Phase.later n
      (fun s => Placed Slot.setup n s ∧ isFirst s n = true ∧
        JustTold n outcome s.log) cs' s0' s' ->
      (forall result, r = some result -> exists version, outcome =
        CredentialStore.Outcome.enrollment result version) ->
      Wp o n Q (cont r) Phase.later cs' s0' s') :
    Wp o n Q (Prog.call (I := ports) (PortCall.enroll password) cont)
      ph cs s0 s := by
  rcases h.mine with ⟨hmine, hfirst⟩
  have hnot : (n, Slot.login) ∉ s.line := by
    intro hlogin
    cases h.core.placed_once hmine.line hlogin
  rcases h.core.submit (Job.enroll password) h.known hmine.idle hmine.collected
    (Or.inl ⟨password, rfl⟩) (fun hlogin => absurd hlogin hnot)
    with ⟨hcore, hsub⟩
  have hwaiting : forall c, (n, c) ∉
      (s.submit n (Job.enroll password)).waiting := hmine.waiting
  refine wp_park (c := PortCall.enroll password) rfl h
    (hcore.park h.known hwaiting) ?_ rfl rfl
    (fun m hm => (hsub.others m hm).trans (same_park hm _)) ?_
  · apply hsub.local rfl hmine.waiting
    · intro slot hslot
      rw [h.core.placed_once hmine.line hslot]
      exact ⟨hfirst, password, park_mem⟩
    · exact ⟨hmine.line, password, park_mem⟩
  · intro cs' s' r hback hr
    have hfirst' := hback.first hmine.line park_mem PortCall.noConfusion
    cases hlookup : s'.credentials.settled.lookup n with
    | none =>
        simp only [answers, hlookup] at hr
    | some outcome =>
        apply hcont cs' s' _ r outcome
        · apply hback.collect
          exact ⟨hback.placed hmine.line hlookup, hfirst',
            justTold_collect hlookup⟩
        · rintro result rfl
          simp only [answers, hlookup] at hr
          cases outcome with
          | enrollment result version =>
              cases hr
              exact ⟨version, rfl⟩
          | verified valid version => exact hr.elim
          | replacement result version => exact hr.elim
          | failed => cases hr

/-- A change of the password has the old password compared.  That it was right
means that the first enrolment is over. -/
theorem wp_verify {username password : JsString}
    {cont : Option Bool -> Code value}
    (h : At ph n (fun s => Out s n ∧
      (s.credentials.current.isSome = true -> ¬ Early s)) cs s0 s)
    (hcont : forall cs' s0' s' r, At Phase.later n
      (fun s => Out s n ∧ (r = some true -> ¬ Early s)) cs' s0' s' ->
      Wp o n Q (cont r) Phase.later cs' s0' s') :
    Wp o n Q (Prog.call (I := ports) (PortCall.verify username password) cont)
      ph cs s0 s := by
  rcases h.mine with ⟨hout, hlate⟩
  rcases h.core.submit (Job.verify username password) h.known hout.idle
    hout.collected (Or.inr hlate) (fun hlogin => absurd hlogin (hout.line _))
    with ⟨hcore, hsub⟩
  have hwaiting : forall c, (n, c) ∉
      (s.submit n (Job.verify username password)).waiting := hout.waiting
  refine wp_park (c := PortCall.verify username password) rfl h
    (hcore.park h.known hwaiting) ?_ rfl rfl
    (fun m hm => (hsub.others m hm).trans (same_park hm _)) ?_
  · apply hsub.local rfl hout.waiting
    · intro slot hslot
      exact absurd hslot (hout.line slot)
    · exact Or.inr ⟨username, password, park_mem⟩
  · intro cs' s' r hback hr
    cases hlookup : s'.credentials.settled.lookup n with
    | none =>
        simp only [answers, hlookup] at hr
    | some outcome =>
        apply hcont cs' s' _ r
        apply hback.collect
        refine ⟨hback.out hout.line hlookup, ?_⟩
        rintro rfl hearly
        simp only [answers, hlookup] at hr
        cases outcome with
        | verified valid version =>
            cases hr
            exact (hback.queues.core.early hearly).unverified n version
              (mem_of_lookup hlookup)
        | enrollment result version => exact hr.elim
        | replacement result version => exact hr.elim
        | failed => cases hr

theorem wp_replacePassword {password : JsString}
    {cont : Option ReplaceResult -> Code value}
    (h : At ph n (fun s => Out s n ∧ ¬ Early s) cs s0 s)
    (hcont : forall cs' s0' s' r, At Phase.later n
      (fun s => Out s n ∧ forall result, r = some result -> exists version,
        LastTold n (CredentialStore.Outcome.replacement result version) s.log)
      cs' s0' s' ->
      Wp o n Q (cont r) Phase.later cs' s0' s') :
    Wp o n Q (Prog.call (I := ports) (PortCall.replacePassword password) cont)
      ph cs s0 s := by
  rcases h.mine with ⟨hout, hlate⟩
  rcases h.core.submit (Job.replacePassword password) h.known hout.idle
    hout.collected (Or.inr fun _ => hlate)
    (fun hlogin => absurd hlogin (hout.line _)) with ⟨hcore, hsub⟩
  have hwaiting : forall c, (n, c) ∉
      (s.submit n (Job.replacePassword password)).waiting := hout.waiting
  refine wp_park (c := PortCall.replacePassword password) rfl h
    (hcore.park h.known hwaiting) ?_ rfl rfl
    (fun m hm => (hsub.others m hm).trans (same_park hm _)) ?_
  · apply hsub.local rfl hout.waiting
    · intro slot hslot
      exact absurd hslot (hout.line slot)
    · exact ⟨password, park_mem⟩
  · intro cs' s' r hback hr
    cases hlookup : s'.credentials.settled.lookup n with
    | none =>
        simp only [answers, hlookup] at hr
    | some outcome =>
        apply hcont cs' s' _ r
        apply hback.collect
        refine ⟨hback.out hout.line hlookup, ?_⟩
        rintro result rfl
        simp only [answers, hlookup] at hr
        cases outcome with
        | replacement result version =>
            cases hr
            exact ⟨version, (justTold_collect hlookup).last⟩
        | verified valid version => exact hr.elim
        | enrollment result version => exact hr.elim
        | failed => cases hr

theorem wp_startVerify {username password : JsString}
    {cont : Started -> Code value} (h : At ph n (Entrant n) cs s0 s)
    (hlate : ¬ Early s)
    (hcont : forall s', At ph n (Verifying n) cs s0 s' ->
      Wp o n Q (cont Started.promise) ph cs s0 s') :
    Wp o n Q (reserveTurn n Slot.login >>= fun _ =>
      Prog.call (I := ports) (PortCall.startVerify username password) cont)
      ph cs s0 s := by
  have hin := h.mine
  have hcore := h.core.reserve h.known hin.out hin.last
    (Or.inr ⟨rfl, hlate⟩)
  apply (Prog.wp_sync rfl).mpr
  intro r hr
  cases hr
  have hlate' : ¬ Early { s with line := s.line ++ [(n, Slot.login)] } := by
    rintro (hnone | ⟨m, hm⟩)
    · exact hlate (Or.inl hnone)
    · rcases List.mem_append.mp hm with hm | hm
      · exact hlate (Or.inr ⟨m, hm⟩)
      · cases List.mem_singleton.mp hm
  rcases hcore.submit (Job.verify username password) h.known
    hin.out.idle hin.out.collected (Or.inr fun _ => hlate') (by
      intro _ m k hmk
      rcases List.mem_append.mp hmk with hmk | hmk
      · exact Nat.le_of_lt (hin.last m k hmk)
      · cases List.mem_singleton.mp hmk
        exact Nat.le_refl n) with ⟨hcore', hsub⟩
  apply hcont
  apply h.step hcore' rfl ⟨[], by simp [State.submit], fun _ he =>
    absurd he List.not_mem_nil⟩ (fun m hm => (same_reserve hm _).trans
      (hsub.others m hm))
  refine ⟨List.mem_append_right _ List.mem_cons_self, hin.out.waiting, ?_,
    hsub.pending⟩
  intro p hp hpn
  exact ⟨username, password, hsub.jobs p hp hpn⟩

theorem At.reserve_setup (h : At ph n (Entrant n) cs s0 s)
    (hnone : s.credentials.current = none) :
    At ph n (Placed Slot.setup n) cs s0
      { s with line := s.line ++ [(n, Slot.setup)] } := by
  have hin := h.mine
  apply h.step (h.core.reserve h.known hin.out hin.last (Or.inl ⟨rfl, hnone⟩))
    rfl ⟨[], by simp, fun _ he => absurd he List.not_mem_nil⟩
    (fun m hm => same_reserve hm _)
  exact ⟨List.mem_append_right _ List.mem_cons_self, hin.out.waiting,
    hin.out.idle, hin.out.collected⟩

theorem At.finish {slot : Slot}
    (h : At ph n (fun s => Placed slot n s ∧ isFirst s n = true) cs s0 s) :
    At ph n (Out · n) cs s0 { s with line := s.line.tail } := by
  rcases h.mine with ⟨hplaced, hfirst⟩
  apply h.step h.core.finish rfl ⟨[], by simp, fun _ he =>
    absurd he List.not_mem_nil⟩ (fun m hm => same_finish hm hfirst)
  refine ⟨?_, hplaced.waiting, hplaced.idle, hplaced.collected⟩
  intro k hk
  rcases isFirst_iff.mp hfirst with ⟨slot', rest, hline⟩
  have horder := h.core.order
  have hk' : (n, k) ∈ s.line.tail := hk
  rw [hline] at horder hk'
  exact Nat.lt_irrefl n ((List.pairwise_cons.mp horder).1 n
    (List.mem_map.mpr ⟨_, hk', rfl⟩))

end Rules

end Passwords
end AuthService
end Server
end FlanTerminal

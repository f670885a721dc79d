import FlanTerminal.Foundation.Triple

/-!
# Operations one after the other

A component keeps a tail of promises.  An operation that is called may answer
at once; otherwise it is appended to the tail and starts its work when the
operation before it has settled.  While the work waits, other operations may be
called, but none of them works.

The rules below reduce what holds in every run to the work of one operation
that runs alone: an invariant for the time when nobody works, one for the waits
of the operation that does, and a relation for what callers may do meanwhile.
-/

namespace FlanTerminal
namespace Foundation

/--
The parts of such a component.  `front` is what a call does before anything
else; its result is an answer, or nothing for an operation that has to wait for
its turn.  `turn` and `leave` are what is recorded when the turn has come and
when the operation ends.
-/
structure Serial (inner : Type) (I : Interface) (error value op : Type) where
  front : Nat -> op -> inner -> inner × Option (Except error value)
  turn : Nat -> op -> inner -> inner
  work : Nat -> op -> Prog inner I error value
  boundary : I.Call -> Boundary
  admits : inner -> op -> Prop
  issue : Nat -> I.Call -> inner -> inner
  allowed : inner -> Nat -> (c : I.Call) -> I.Reply c -> Prop
  reply : Nat -> (c : I.Call) -> I.Reply c -> inner -> inner
  leave : Nat -> op -> Except error value -> inner -> inner
  env : inner -> inner -> Prop

/-- The component with its tail: the operations that have been appended to it,
those whose promises are settled, and the one that works. -/
structure Line (inner : Type) where
  inner : inner
  queued : List Nat
  settled : List Nat
  active : Option Nat

def Line.initial {inner : Type} (s : inner) : Line inner :=
  ⟨s, [], [], none⟩

def Line.on {inner : Type} (f : inner -> inner) (s : Line inner) :
    Line inner :=
  { s with inner := f s.inner }

namespace Serial

variable {inner : Type} {I : Interface} {error value op : Type}

inductive Call (I : Interface) where
  /-- Wait for an operation; without a number, for a fulfilled promise. -/
  | wait (prior : Option Nat)
  | own (c : I.Call)

abbrev Reply (I : Interface) : Call I -> Type
  | Call.wait _ => Unit
  | Call.own c => I.Reply c

abbrev ports (I : Interface) : Interface := ⟨Call I, Reply I⟩

/-- The work of an operation, inside the component with its tail. -/
def embed : Prog inner I error value ->
    Prog (Line inner) (ports I) error value
  | Prog.ret a => Prog.ret a
  | Prog.raise e => Prog.raise e
  | Prog.act f k => Prog.act (Line.on f) fun s => embed (k s.inner)
  | Prog.call c k => Prog.call (I := ports I) (Call.own c) fun r => embed (k r)

/-- Append the operation to the tail, and work at its turn. -/
def enqueue (n : Nat) (work : Prog inner I error value) :
    Prog (Line inner) (ports I) error value :=
  Prog.act (fun s => { s with queued := s.queued ++ [n] }) fun s =>
    Prog.call (I := ports I) (Call.wait s.queued.getLast?) fun _ => embed work

def atTurn (P : Serial inner I error value op) (n : Nat) (o : op) :
    Prog inner I error value :=
  Prog.act (P.turn n o) fun _ => P.work n o

def answer : Except error value -> Prog (Line inner) (ports I) error value
  | Except.ok a => Prog.ret a
  | Except.error e => Prog.raise e

def body (P : Serial inner I error value op) (n : Nat) (o : op) :
    Prog (Line inner) (ports I) error value :=
  Prog.act (Line.on fun s => (P.front n o s).1) fun s =>
    match (P.front n o s.inner).2 with
    | some res => answer res
    | none => enqueue n (P.atTurn n o)

def machine (P : Serial inner I error value op) :
    Machine (Line inner) (ports I) error value op where
  body := P.body
  boundary
    | Call.wait _ => Boundary.await
    | Call.own c => P.boundary c
  admits s o := P.admits s.inner o
  enter _ _ s := s
  issue n
    | Call.wait _ => id
    | Call.own c => Line.on (P.issue n c)
  allowed s n
    | Call.wait prior, _ => forall p, prior = some p -> p ∈ s.settled
    | Call.own c, r => P.allowed s.inner n c r
  reply n
    | Call.wait _, _ => fun s => { s with active := some n }
    | Call.own c, r => Line.on (P.reply n c r)
  leave n o res s :=
    ⟨P.leave n o res s.inner, s.queued, n :: s.settled,
      if s.active = some n then none else s.active⟩
  env s s' := exists inner', P.env s.inner inner' ∧ s' = { s with inner := inner' }

/-!
## Rules
-/

/-- What a call does when it is answered at once or waits for its turn. -/
def called (P : Serial inner I error value op) (n : Nat) (o : op)
    (s : inner) : inner :=
  match (P.front n o s).2 with
  | some res => P.leave n o res (P.front n o s).1
  | none => (P.front n o s).1

/--
What is known while nobody works, with a number that no operation to come is
below; what is known where operation `n` waits at its work; and what others may
do in the meantime.
-/
structure Rules (P : Serial inner I error value op) where
  idle : Nat -> inner -> Prop
  busy : Nat -> inner -> Prop
  drift : inner -> inner -> Prop
  refl : forall s, drift s s
  trans : forall {s s' s''}, drift s s' -> drift s' s'' -> drift s s''
  idle_called : forall {k n o s}, idle k s -> k ≤ n -> P.admits s o ->
    idle k (P.called n o s)
  busy_called : forall {m n o s}, busy m s -> m < n -> P.admits s o ->
    busy m (P.called n o s)
  called : forall {n o s}, P.admits s o -> drift s (P.called n o s)
  idle_env : forall {k s s'}, idle k s -> P.env s s' -> idle k s'
  busy_env : forall {m s s'}, busy m s -> P.env s s' -> busy m s'
  env : forall {s s'}, P.env s s' -> drift s s'

namespace Rules

variable {P : Serial inner I error value op}

/-- What the work of operation `n` owes when nobody else works. -/
def owes (R : Rules P) (n : Nat) {result : Type}
    (Q : Except error result -> inner -> Prop) :
    Prog inner I error result -> inner -> Prop
  | Prog.ret a, s => Q (Except.ok a) s
  | Prog.raise e, s => Q (Except.error e) s
  | Prog.act f k, s => owes R n Q (k s) (f s)
  | Prog.call c k, s =>
      (P.boundary c = Boundary.sync ->
        forall r, P.allowed (P.issue n c s) n c r ->
          owes R n Q (k r) (P.reply n c r (P.issue n c s))) ∧
      (P.boundary c ≠ Boundary.sync ->
        R.busy n (P.issue n c s) ∧
          forall s' r, R.drift (P.issue n c s) s' -> R.busy n s' ->
            P.allowed s' n c r -> owes R n Q (k r) (P.reply n c r s'))

def triple (R : Rules P) (n : Nat) {result : Type} (pre : inner -> Prop)
    (p : Prog inner I error result)
    (post : Except error result -> inner -> Prop) : Prop :=
  forall s, pre s -> R.owes n post p s

/-- An operation that is not answered at once leaves things in order when it
has its turn. -/
def Sound (R : Rules P) : Prop :=
  forall n o k s, (P.front n o s).2 = none -> k ≤ n ->
    R.triple n (R.idle k) (P.atTurn n o) fun res s =>
      R.idle (n + 1) (P.leave n o res s)

section Triples

variable {R : Rules P} {n : Nat} {result other : Type}
variable {pre pre' : inner -> Prop}
variable {Q Q' : Except error result -> inner -> Prop}

theorem owes_mono {p : Prog inner I error result}
    (hQ : forall res s, Q res s -> Q' res s) {s : inner}
    (h : R.owes n Q p s) : R.owes n Q' p s := by
  induction p generalizing s with
  | ret a => exact hQ _ _ h
  | raise e => exact hQ _ _ h
  | act f k ih => exact ih s h
  | call c k ih =>
      constructor
      · exact fun hc r hr => ih r (h.1 hc r hr)
      · intro hc
        constructor
        · exact (h.2 hc).1
        · exact fun s' r hdrift hbusy hr =>
            ih r ((h.2 hc).2 s' r hdrift hbusy hr)

theorem triple_ret {a : result} (h : forall s, pre s -> Q (Except.ok a) s) :
    R.triple n pre (Prog.ret a) Q :=
  fun s hs => h s hs

theorem triple_raise {e : error}
    (h : forall s, pre s -> Q (Except.error e) s) :
    R.triple n pre (Prog.raise e) Q :=
  fun s hs => h s hs

theorem triple_consequence {p : Prog inner I error result}
    (h : R.triple n pre p Q) (hpre : forall s, pre' s -> pre s)
    (hQ : forall res s, Q res s -> Q' res s) : R.triple n pre' p Q' :=
  fun s hs => owes_mono hQ (h s (hpre s hs))

theorem triple_bind {p : Prog inner I error result}
    {g : result -> Prog inner I error other}
    {mid : Except error result -> inner -> Prop}
    {Q : Except error other -> inner -> Prop}
    (hp : R.triple n pre p mid)
    (hg : forall a, R.triple n (mid (Except.ok a)) (g a) Q)
    (hthrow : forall e s, mid (Except.error e) s -> Q (Except.error e) s) :
    R.triple n pre (p >>= g) Q := by
  intro s hs
  have h := hp s hs
  clear hp hs
  induction p generalizing s with
  | ret a => exact hg a s h
  | raise e => exact hthrow e s h
  | act f k ih => exact ih s (f s) h
  | call c k ih =>
      constructor
      · exact fun hc r hr => ih r _ (h.1 hc r hr)
      · intro hc
        constructor
        · exact (h.2 hc).1
        · exact fun s' r hdrift hbusy hr =>
            ih r _ ((h.2 hc).2 s' r hdrift hbusy hr)

theorem triple_tryCatch {p : Prog inner I error result}
    {handler : error -> Prog inner I error result}
    {mid : Except error result -> inner -> Prop}
    (hp : R.triple n pre p mid)
    (hret : forall a s, mid (Except.ok a) s -> Q (Except.ok a) s)
    (hcatch : forall e, R.triple n (mid (Except.error e)) (handler e) Q) :
    R.triple n pre (tryCatch p handler) Q := by
  intro s hs
  have h := hp s hs
  clear hp hs
  induction p generalizing s with
  | ret a => exact hret a s h
  | raise e => exact hcatch e s h
  | act f k ih => exact ih s (f s) h
  | call c k ih =>
      constructor
      · exact fun hc r hr => ih r _ (h.1 hc r hr)
      · intro hc
        constructor
        · exact (h.2 hc).1
        · exact fun s' r hdrift hbusy hr =>
            ih r _ ((h.2 hc).2 s' r hdrift hbusy hr)

/-- What holds after a `finally` clause: its own exception is the one that
remains. -/
def lastly (Q : Except error result -> inner -> Prop)
    (res : Except error result) : Except error Unit -> inner -> Prop
  | Except.ok _, s => Q res s
  | Except.error e, s => Q (Except.error e) s

theorem triple_always {p : Prog inner I error result}
    {q : Prog inner I error Unit}
    {mid : Except error result -> inner -> Prop}
    (hp : R.triple n pre p mid)
    (hq : forall res, R.triple n (mid res) q (lastly Q res)) :
    R.triple n pre (p.always q) Q := by
  intro s hs
  have h := hp s hs
  clear hp hs
  induction p generalizing s with
  | ret a =>
      exact triple_bind (hq (Except.ok a))
        (fun _ => triple_ret (a := a) fun _ hs => hs) (fun _ _ hs => hs) s h
  | raise e =>
      exact triple_bind (hq (Except.error e))
        (fun _ => triple_raise (e := e) fun _ hs => hs) (fun _ _ hs => hs) s h
  | act f k ih => exact ih s (f s) h
  | call c k ih =>
      constructor
      · exact fun hc r hr => ih r _ (h.1 hc r hr)
      · intro hc
        constructor
        · exact (h.2 hc).1
        · exact fun s' r hdrift hbusy hr =>
            ih r _ ((h.2 hc).2 s' r hdrift hbusy hr)

theorem triple_act {f : inner -> inner}
    {k : inner -> Prog inner I error result}
    (h : forall s, pre s -> R.triple n (fun s' => s' = f s) (k s) Q) :
    R.triple n pre (Prog.act f k) Q :=
  fun s hs => h s hs (f s) rfl

theorem triple_modify {f : inner -> inner}
    {Q : Except error Unit -> inner -> Prop}
    (h : forall s, pre s -> Q (Except.ok ()) (f s)) :
    R.triple n pre (Prog.modify f) Q :=
  fun s hs => h s hs

theorem triple_sync {c : I.Call}
    {Q : Except error (I.Reply c) -> inner -> Prop}
    (hc : P.boundary c = Boundary.sync)
    (h : forall s r, pre s -> P.allowed (P.issue n c s) n c r ->
      Q (Except.ok r) (P.reply n c r (P.issue n c s))) :
    R.triple n pre (Prog.ask c) Q :=
  fun s hs => ⟨fun _ r hr => h s r hs hr, fun hne => absurd hc hne⟩

/-- While the operation waits, callers may come. -/
theorem triple_wait {c : I.Call}
    {Q : Except error (I.Reply c) -> inner -> Prop}
    (hc : P.boundary c ≠ Boundary.sync)
    (hbusy : forall s, pre s -> R.busy n (P.issue n c s))
    (h : forall s s' r, pre s -> R.drift (P.issue n c s) s' -> R.busy n s' ->
      P.allowed s' n c r -> Q (Except.ok r) (P.reply n c r s')) :
    R.triple n pre (Prog.ask c) Q :=
  fun s hs => ⟨fun hsync => absurd hsync hc, fun _ =>
    ⟨hbusy s hs, fun s' r hdrift hbusy hr => h s s' r hs hdrift hbusy hr⟩⟩

end Triples

/-!
## Soundness

The operations that have not settled stand in the order of their calls, and
only the first of them can be at work.
-/

/-- The tail: a settled part, and a part that is not. -/
structure Lined (cs : Census) (s : Line inner) : Prop where
  sorted : s.queued.Pairwise (· < ·)
  bounded : forall m, m ∈ s.queued -> m < cs.next
  ended : forall m, m ∈ s.settled -> m < cs.next
  live : forall m, m ∈ s.queued -> m ∉ s.settled -> cs.live m
  split : exists front rest, s.queued = front ++ rest ∧
    (forall m, m ∈ front -> m ∈ s.settled) ∧
    (forall m, m ∈ rest -> m ∉ s.settled) ∧
    forall m, s.active = some m -> rest.head? = some m

def Held (R : Rules P) (cs : Census) (s : Line inner) : Prop :=
  match s.active with
  | some n => R.busy n s.inner
  | none => exists k, R.idle k s.inner ∧ k ≤ cs.next ∧
      forall m, m ∈ s.queued -> m ∉ s.settled -> k ≤ m

/-- What operation `m` relies on. -/
structure Keeps (R : Rules P) (m : Nat) (s s' : Line inner) : Prop where
  queued : s.queued <+: s'.queued
  open_ : m ∉ s.settled -> m ∉ s'.settled
  work : s.active = some m -> s'.active = some m ∧ R.drift s.inner s'.inner
  rest : s.active ≠ some m -> s'.active ≠ some m

theorem Keeps.refl {R : Rules P} (m : Nat) (s : Line inner) :
    Keeps R m s s :=
  ⟨List.prefix_refl _, id, fun h => ⟨h, R.refl _⟩, id⟩

theorem Keeps.trans {R : Rules P} {m : Nat} {s s' s'' : Line inner}
    (h : Keeps R m s s') (h' : Keeps R m s' s'') : Keeps R m s s'' := by
  constructor
  · exact h.queued.trans h'.queued
  · exact fun hm => h'.open_ (h.open_ hm)
  · intro hm
    have hfirst := h.work hm
    have hsecond := h'.work hfirst.1
    exact ⟨hsecond.1, R.trans hfirst.2 hsecond.2⟩
  · exact fun hm => h'.rest (h.rest hm)

def pact (R : Rules P) : Pact (machine P) where
  inv cs s := Lined cs s ∧ Held R cs s
  keeps := Keeps R
  refl := Keeps.refl
  trans := Keeps.trans
  env := by
    intro cs s s' hinv henv
    obtain ⟨inner', hstep, heq⟩ := henv
    subst heq
    refine ⟨⟨⟨hinv.1.sorted, hinv.1.bounded, hinv.1.ended, hinv.1.live,
      hinv.1.split⟩, ?_⟩, ?_⟩
    · have hheld := hinv.2
      unfold Held at hheld ⊢
      dsimp only
      split
      · rename_i n hactive
        rw [hactive] at hheld
        exact R.busy_env hheld hstep
      · rename_i hactive
        rw [hactive] at hheld
        obtain ⟨k, hidle, hrest⟩ := hheld
        exact ⟨k, R.idle_env hidle hstep, hrest⟩
    · exact fun m => ⟨List.prefix_refl _, id,
        fun h => ⟨h, R.env hstep⟩, id⟩

section Soundness

variable {R : Rules P} {n : Nat}

structure Working (n : Nat) (cs : Census) (s : Line inner) : Prop where
  ok : cs.Ok
  live : cs.live n
  lined : Lined cs s
  active : s.active = some n

theorem Lined.on {cs : Census} {s : Line inner} (h : Lined cs s)
    (f : inner -> inner) : Lined cs (s.on f) :=
  ⟨h.sorted, h.bounded, h.ended, h.live, h.split⟩

theorem Keeps.on {m : Nat} {s0 s : Line inner} (h : Keeps R m s0 s)
    (hactive : s.active ≠ some m) (f : inner -> inner) :
    Keeps R m s0 (s.on f) := by
  constructor
  · exact h.queued
  · exact h.open_
  · intro hm
    exact absurd (h.work hm).1 hactive
  · exact fun _ => hactive

theorem Working.on {cs : Census} {s : Line inner} (h : Working n cs s)
    (f : inner -> inner) : Working n cs (s.on f) :=
  ⟨h.ok, h.live, h.lined.on f, h.active⟩

theorem Working.other {cs : Census} {s : Line inner} (h : Working n cs s)
    {m : Nat} (hm : m ≠ n) : s.active ≠ some m := by
  rw [h.active]
  exact fun heq => hm (Option.some.inj heq).symm

theorem wp_embed {result : Type} {Q : Except error result -> inner -> Prop}
    {p : Prog inner I error result} {ph : Phase} {cs : Census}
    {s0 s : Line inner} (h : R.owes n Q p s.inner) (hwork : Working n cs s)
    (hkeeps : forall m, m ≠ n -> Keeps R m s0 s) :
    (embed p).wp (machine P) (pact R).contract n
      (fun res _ cs s0 s => Working n cs s ∧
        (forall m, m ≠ n -> Keeps R m s0 s) ∧ Q res s.inner) ph cs s0 s := by
  induction p generalizing ph cs s0 s with
  | ret a => exact ⟨hwork, hkeeps, h⟩
  | raise e => exact ⟨hwork, hkeeps, h⟩
  | act f k ih =>
      exact ih s.inner h (hwork.on f)
        fun m hm => (hkeeps m hm).on (hwork.other hm) f
  | call c k ih =>
      have hissued := hwork.on (P.issue n c)
      have hguar : forall m, m ≠ n -> Keeps R m s0 (s.on (P.issue n c)) :=
        fun m hm => (hkeeps m hm).on (hwork.other hm) _
      have hwait : P.boundary c ≠ Boundary.sync ->
          (pact R).inv cs (s.on (P.issue n c)) := by
        intro hne
        constructor
        · exact hissued.lined
        · unfold Held
          rw [hissued.active]
          exact (h.2 hne).1
      have hgo : P.boundary c ≠ Boundary.sync ->
          forall ph' cs' s' r, Census.Ok cs' -> cs'.live n ->
          (pact R).inv cs' s' -> Keeps R n (s.on (P.issue n c)) s' ->
          P.allowed s'.inner n c r ->
          (embed (k r)).wp (machine P) (pact R).contract n
            (fun res _ cs s0 s => Working n cs s ∧
              (forall m, m ≠ n -> Keeps R m s0 s) ∧ Q res s.inner) ph' cs' s'
            (s'.on (P.reply n c r)) := by
        intro hne ph' cs' s' r hok hlive hinv hrely hr
        have hactive := hrely.work hissued.active
        have hbusy : R.busy n s'.inner := by
          have hheld := hinv.2
          unfold Held at hheld
          rw [hactive.1] at hheld
          exact hheld
        have hworking : Working n cs' s' := ⟨hok, hlive, hinv.1, hactive.1⟩
        exact ih r ((h.2 hne).2 s'.inner r hactive.2 hbusy hr)
          (hworking.on _)
          fun m hm => (Keeps.refl m s').on (hworking.other hm) _
      show Prog.wp (machine P) (pact R).contract n _
        (Prog.call (I := ports I) (Call.own c) fun r => embed (k r)) ph cs s0 s
      cases hc : P.boundary c with
      | sync =>
          rw [Prog.wp_sync (M := machine P) (c := Call.own c) hc]
          intro r hr
          exact ih r (h.1 hc r hr) (hissued.on _)
            fun m hm => (hguar m hm).on (hissued.other hm) _
      | callback =>
          have hne : P.boundary c ≠ Boundary.sync := by
            rw [hc]
            exact fun heq => by cases heq
          rw [Prog.wp_callback (M := machine P) (c := Call.own c) hc]
          exact ⟨hwait hne, hguar,
            fun cs' s' r hok hlive hinv hrely hr =>
              hgo hne ph cs' s' r hok hlive hinv hrely hr⟩
      | await =>
          have hne : P.boundary c ≠ Boundary.sync := by
            rw [hc]
            exact fun heq => by cases heq
          rw [Prog.wp_await (M := machine P) (c := Call.own c) hc]
          exact ⟨hwait hne, hguar,
            fun cs' s' r hok hlive hinv hrely hr =>
              hgo hne Phase.later cs' s' r hok hlive hinv hrely hr⟩

theorem Lined.active_lt {cs : Census} {s : Line inner} (h : Lined cs s)
    {m : Nat} (hm : s.active = some m) : m ∈ s.queued ∧ m ∉ s.settled := by
  obtain ⟨front, rest, hsplit, _, hopen, hhead⟩ := h.split
  have hmem : m ∈ rest := List.mem_of_mem_head? (hhead m hm)
  rw [hsplit]
  exact ⟨List.mem_append_right _ hmem, hopen m hmem⟩

theorem answered {cs : Census} {s : Line inner} {o : op}
    (hinv : (pact R).inv cs s) (hadmits : P.admits s.inner o)
    {res : Except error value}
    (hres : (P.front cs.next o s.inner).2 = some res) :
    endPost (machine P) (pact R).contract cs.next o res Phase.first cs.enter s
      (s.on fun s => (P.front cs.next o s).1) := by
  obtain ⟨hlined, hheld⟩ := hinv
  have hcalled : P.leave cs.next o res (P.front cs.next o s.inner).1 =
      P.called cs.next o s.inner := by
    unfold Serial.called
    rw [hres]
  have hactive : s.active ≠ some cs.next := by
    intro h
    exact Nat.lt_irrefl _ (hlined.bounded _ (hlined.active_lt h).1)
  have hleave : (machine P).leave cs.next o res
      (s.on fun s => (P.front cs.next o s).1) =
        ⟨P.called cs.next o s.inner, s.queued, cs.next :: s.settled,
          s.active⟩ := by
    show Line.mk _ _ _ (if s.active = some cs.next then none else s.active) = _
    rw [if_neg hactive]
    exact congrArg (fun x => Line.mk x _ _ _) hcalled
  have hopen : forall m, m ∈ s.queued ->
      (m ∉ cs.next :: s.settled <-> m ∉ s.settled) := by
    intro m hm
    have hne : m ≠ cs.next := Nat.ne_of_lt (hlined.bounded m hm)
    simp [hne]
  unfold endPost
  rw [hleave]
  refine ⟨⟨⟨hlined.sorted, ?_, ?_, ?_, ?_⟩, ?_⟩, ?_⟩
  · exact fun m hm => Nat.lt_succ_of_lt (hlined.bounded m hm)
  · intro m hm
    rcases List.mem_cons.mp hm with hm | hm
    · rw [hm]
      exact Nat.lt_succ_self _
    · exact Nat.lt_succ_of_lt (hlined.ended m hm)
  · intro m hm hnot
    exact ⟨Nat.ne_of_lt (hlined.bounded m hm),
      Or.inr (hlined.live m hm ((hopen m hm).mp hnot))⟩
  · obtain ⟨front, rest, hsplit, hfront, hrest, hhead⟩ := hlined.split
    refine ⟨front, rest, hsplit,
      fun m hm => List.mem_cons_of_mem _ (hfront m hm), ?_, hhead⟩
    intro m hm
    exact (hopen m (by rw [hsplit]; exact List.mem_append_right _ hm)).mpr
      (hrest m hm)
  · unfold Held at hheld ⊢
    dsimp only
    split
    · rename_i m hm
      rw [hm] at hheld
      exact R.busy_called hheld
        (hlined.bounded m (hlined.active_lt hm).1) hadmits
    · rename_i hm
      rw [hm] at hheld
      obtain ⟨k, hidle, hk, hall⟩ := hheld
      exact ⟨k, R.idle_called hidle hk hadmits, Nat.le_succ_of_le hk,
        fun m hm hnot => hall m hm ((hopen m hm).mp hnot)⟩
  · intro m hm
    constructor
    · exact List.prefix_refl _
    · intro hnot
      simp only [List.mem_cons, not_or]
      exact ⟨hm, hnot⟩
    · exact fun h => ⟨h, R.called hadmits⟩
    · exact id

theorem joined {cs : Census} {s : Line inner} {o : op}
    (hinv : (pact R).inv cs s) (hadmits : P.admits s.inner o)
    (hnone : (P.front cs.next o s.inner).2 = none) {s' : Line inner}
    (hs' : s' = { s.on (fun s => (P.front cs.next o s).1) with
      queued := s.queued ++ [cs.next] }) :
    (pact R).inv cs.enter s' ∧ forall m, m ≠ cs.next -> Keeps R m s s' := by
  subst hs'
  obtain ⟨hlined, hheld⟩ := hinv
  have hcalled : (P.front cs.next o s.inner).1 =
      P.called cs.next o s.inner := by
    unfold Serial.called
    rw [hnone]
  have hfresh : cs.next ∉ s.settled :=
    fun h => Nat.lt_irrefl _ (hlined.ended _ h)
  refine ⟨⟨⟨?_, ?_, ?_, ?_, ?_⟩, ?_⟩, ?_⟩
  · refine List.pairwise_append.mpr ⟨hlined.sorted, List.pairwise_singleton _ _,
      ?_⟩
    intro m hm j hj
    rw [List.mem_singleton.mp hj]
    exact hlined.bounded m hm
  · intro m hm
    rcases List.mem_append.mp hm with hm | hm
    · exact Nat.lt_succ_of_lt (hlined.bounded m hm)
    · rw [List.mem_singleton.mp hm]
      exact Nat.lt_succ_self _
  · exact fun m hm => Nat.lt_succ_of_lt (hlined.ended m hm)
  · intro m hm hnot
    rcases List.mem_append.mp hm with hm | hm
    · exact Or.inr (hlined.live m hm hnot)
    · exact Or.inl (List.mem_singleton.mp hm)
  · obtain ⟨front, rest, hsplit, hfront, hrest, hhead⟩ := hlined.split
    refine ⟨front, rest ++ [cs.next], ?_, hfront, ?_, ?_⟩
    · show s.queued ++ [cs.next] = _
      rw [hsplit, List.append_assoc]
    · intro m hm
      rcases List.mem_append.mp hm with hm | hm
      · exact hrest m hm
      · rw [List.mem_singleton.mp hm]
        exact hfresh
    · intro m hm
      have hold := hhead m hm
      cases rest with
      | nil => cases hold
      | cons j rest => exact hold
  · unfold Held at hheld ⊢
    show (match s.active with
      | some n => R.busy n (P.front cs.next o s.inner).1
      | none => exists k, R.idle k (P.front cs.next o s.inner).1 ∧ _ ∧ _)
    rw [hcalled]
    split
    · rename_i m hm
      rw [hm] at hheld
      exact R.busy_called hheld
        (hlined.bounded m (hlined.active_lt hm).1) hadmits
    · rename_i hm
      rw [hm] at hheld
      obtain ⟨k, hidle, hk, hall⟩ := hheld
      refine ⟨k, R.idle_called hidle hk hadmits, Nat.le_succ_of_le hk, ?_⟩
      intro m hm hnot
      rcases List.mem_append.mp hm with hm | hm
      · exact hall m hm hnot
      · rw [List.mem_singleton.mp hm]
        exact hk
  · intro m _
    constructor
    · exact List.prefix_append _ _
    · exact id
    · intro hm
      refine ⟨hm, ?_⟩
      show R.drift s.inner (P.front cs.next o s.inner).1
      rw [hcalled]
      exact R.called hadmits
    · exact id

/-- When the operation before it has settled, an operation is the first that
has not. -/
theorem first_of_settled {cs : Census} {s : Line inner} (h : Lined cs s)
    {before : List Nat} (hqueued : before ++ [n] <+: s.queued)
    (hopen : n ∉ s.settled)
    (hprior : forall p, before.getLast? = some p -> p ∈ s.settled) :
    exists front rest, s.queued = front ++ n :: rest ∧
      (forall m, m ∈ front -> m ∈ s.settled) ∧
      (forall m, m ∈ rest -> m ∉ s.settled) ∧
      forall m, s.active = some m -> m = n := by
  obtain ⟨front, rest, hsplit, hfront, hrest, hhead⟩ := h.split
  obtain ⟨more, hmore⟩ := hqueued
  have hsorted := h.sorted
  have hmem : n ∈ rest := by
    have hn : n ∈ s.queued := by
      rw [← hmore]
      simp
    rw [hsplit] at hn
    rcases List.mem_append.mp hn with hn | hn
    · exact absurd (hfront n hn) hopen
    · exact hn
  cases rest with
  | nil => cases hmem
  | cons j rest =>
      have hj : j = n := by
        rcases List.mem_cons.mp hmem with heq | hlater
        · exact heq.symm
        · exfalso
          rw [hsplit] at hsorted
          have happ := List.pairwise_append.mp hsorted
          have hjn : j < n := (List.pairwise_cons.mp happ.2.1).1 n hlater
          have hbefore : j ∈ before := by
            have hall : j ∈ s.queued := by
              rw [hsplit]
              simp
            rw [← hmore] at hall
            rcases List.mem_append.mp hall with hall | hall
            · rcases List.mem_append.mp hall with hall | hall
              · exact hall
              · rw [List.mem_singleton.mp hall] at hjn
                exact absurd hjn (Nat.lt_irrefl n)
            · have hsort := h.sorted
              rw [← hmore] at hsort
              have hnj := (List.pairwise_append.mp hsort).2.2 n (by simp) j hall
              exact absurd hjn (Nat.not_lt.mpr (Nat.le_of_lt hnj))
          -- the operation before `n` has settled, so it is in the front part
          rcases List.eq_nil_or_concat before with hnil | ⟨init, p, hconcat⟩
          · rw [hnil] at hbefore
            cases hbefore
          · rw [List.concat_eq_append] at hconcat
            have hp := hprior p (by rw [hconcat]; simp)
            have hjp : j ≤ p := by
              have hsort := h.sorted
              rw [← hmore, hconcat] at hsort
              have hinit := (List.pairwise_append.mp
                (List.pairwise_append.mp (List.pairwise_append.mp
                  hsort).1).1).2.2
              rw [hconcat] at hbefore
              rcases List.mem_append.mp hbefore with hin | hin
              · exact Nat.le_of_lt (hinit j hin p (by simp))
              · exact Nat.le_of_eq (List.mem_singleton.mp hin)
            have hpall : p ∈ front ++ j :: rest := by
              rw [← hsplit, ← hmore, hconcat]
              simp
            rcases List.mem_append.mp hpall with hin | hin
            · have := happ.2.2 p hin j List.mem_cons_self
              omega
            · exact hrest p hin hp
      subst hj
      refine ⟨front, rest, hsplit, hfront,
        fun m hm => hrest m (List.mem_cons_of_mem _ hm), ?_⟩
      intro m hm
      exact (Option.some.inj (hhead m hm)).symm

theorem Working.leave {cs : Census} {s0 s : Line inner} {o : op}
    {res : Except error value} (h : Working n cs s)
    (hkeeps : forall m, m ≠ n -> Keeps R m s0 s)
    (hidle : R.idle (n + 1) (P.leave n o res s.inner)) (ph : Phase) :
    endPost (machine P) (pact R).contract n o res ph cs s0 s := by
  obtain ⟨front, rest, hsplit, hfront, hrest, hhead⟩ := h.lined.split
  have hleave : (machine P).leave n o res s =
      ⟨P.leave n o res s.inner, s.queued, n :: s.settled, none⟩ := by
    show Line.mk _ _ _ (if s.active = some n then none else s.active) = _
    rw [if_pos h.active]
  have hfirst := hhead n h.active
  cases rest with
  | nil => cases hfirst
  | cons j rest =>
      cases hfirst
      have hsorted := h.lined.sorted
      rw [hsplit] at hsorted
      have happ := List.pairwise_append.mp hsorted
      have hlater := (List.pairwise_cons.mp happ.2.1).1
      have hqueued : n ∈ s.queued := by
        rw [hsplit]
        simp
      have hother : forall m, m ∈ rest -> m ∉ n :: s.settled := by
        intro m hm
        simp only [List.mem_cons, not_or]
        exact ⟨Nat.ne_of_gt (hlater m hm), hrest m (List.mem_cons_of_mem _ hm)⟩
      unfold endPost
      rw [hleave]
      refine ⟨⟨⟨h.lined.sorted, h.lined.bounded, ?_, ?_, ?_⟩, ?_⟩, ?_⟩
      · intro m hm
        rcases List.mem_cons.mp hm with hm | hm
        · rw [hm]
          exact h.lined.bounded n hqueued
        · exact h.lined.ended m hm
      · intro m hm hnot
        simp only [List.mem_cons, not_or] at hnot
        exact ⟨hnot.1, h.lined.live m hm hnot.2⟩
      · refine ⟨front ++ [n], rest, ?_, ?_, hother, fun m hm => by cases hm⟩
        · rw [List.append_assoc]
          exact hsplit
        · intro m hm
          rcases List.mem_append.mp hm with hm | hm
          · exact List.mem_cons_of_mem _ (hfront m hm)
          · rw [List.mem_singleton.mp hm]
            exact List.mem_cons_self
      · refine ⟨n + 1, hidle, h.lined.bounded n hqueued, ?_⟩
        intro m hm hnot
        have hm' : m ∈ front ++ n :: rest := by
          rw [← hsplit]
          exact hm
        rcases List.mem_append.mp hm' with hm' | hm'
        · exact absurd (List.mem_cons_of_mem _ (hfront m hm')) hnot
        · rcases List.mem_cons.mp hm' with hm' | hm'
          · rw [hm'] at hnot
            exact absurd List.mem_cons_self hnot
          · exact hlater m hm'
      · intro m hm
        have hk := hkeeps m hm
        constructor
        · exact hk.queued
        · intro hnot
          simp only [List.mem_cons, not_or]
          exact ⟨hm, hk.open_ hnot⟩
        · intro hactive
          exact absurd (hk.work hactive).1 (h.other hm)
        · exact fun _ h => by cases h

theorem wp_body (hsound : R.Sound) {cs : Census} {s : Line inner} {o : op}
    (hinv : (pact R).inv cs s) (hadmits : P.admits s.inner o) :
    (P.body cs.next o).wp (machine P) (pact R).contract cs.next
      (endPost (machine P) (pact R).contract cs.next o) Phase.first cs.enter s
      s := by
  unfold body
  rw [Prog.wp_act]
  cases hfront : (P.front cs.next o s.inner).2 with
  | some res =>
      have hend := answered hinv hadmits hfront
      cases res with
      | ok a => exact hend
      | error e => exact hend
  | none =>
      obtain ⟨hinv', hguar⟩ := joined hinv hadmits hfront rfl
      dsimp only [enqueue]
      rw [Prog.wp_act, Prog.wp_await (M := machine P)
        (c := Call.wait (s.on fun s => (P.front cs.next o s).1).queued.getLast?)
        rfl]
      refine ⟨hinv', hguar, ?_⟩
      intro cs' s' r hok hlive hinv'' hrely hr
      have hopen : cs.next ∉ s'.settled :=
        hrely.open_ fun h => Nat.lt_irrefl _ (hinv.1.ended _ h)
      obtain ⟨front, rest, hsplit, hbefore, hafter, hfirst⟩ :=
        first_of_settled hinv''.1 hrely.queued hopen hr
      have hactive : s'.active = none := by
        cases hactive : s'.active with
        | none => rfl
        | some m =>
            rw [hfirst m hactive] at hactive
            have hrest := hrely.rest (fun h => Nat.lt_irrefl _
              (hinv.1.bounded _ (hinv.1.active_lt h).1))
            exact absurd hactive hrest
      have hheld := hinv''.2
      unfold Held at hheld
      rw [hactive] at hheld
      obtain ⟨k, hidle, _, hall⟩ := hheld
      have hk : k ≤ cs.next := by
        apply hall cs.next _ hopen
        rw [hsplit]
        simp
      have hwork : Working cs.next cs'
          { s' with active := some cs.next } := by
        refine ⟨hok, hlive, ⟨hinv''.1.sorted, hinv''.1.bounded, hinv''.1.ended,
          hinv''.1.live, front, cs.next :: rest, hsplit, hbefore, ?_, ?_⟩, rfl⟩
        · intro m hm
          rcases List.mem_cons.mp hm with hm | hm
          · rw [hm]
            exact hopen
          · exact hafter m hm
        · exact fun m hm => hm
      have hkeeps : forall m, m ≠ cs.next -> Keeps R m s'
          { s' with active := some cs.next } := by
        intro m hm
        constructor
        · exact List.prefix_refl _
        · exact id
        · intro h
          rw [hactive] at h
          cases h
        · exact fun _ h => hm (Option.some.inj h).symm
      apply Prog.wp_mono _ (wp_embed (s := { s' with active := some cs.next })
        (hsound cs.next o k s.inner hfront hk s'.inner hidle) hwork hkeeps)
      intro res ph cs s0 s hend
      exact hend.1.leave hend.2.1 hend.2.2 ph

theorem sound (hsound : R.Sound) : (pact R).contract.Sound (machine P) :=
  Pact.sound_of_wp fun _ hinv hadmits => wp_body hsound hinv hadmits

/-- In every run the component is idle, or one operation waits at its work. -/
theorem reachable (hsound : R.Sound) {s : inner} (hinit : R.idle 0 s)
    {cfg : Config (Line inner) (ports I) error value op}
    (hreach : Reachable (machine P) (Line.initial s) cfg) :
    (exists k, R.idle k cfg.shared.inner) ∨
      exists n, R.busy n cfg.shared.inner := by
  have hinv : (pact R).inv cfg.census cfg.shared := by
    apply Pact.reachable (sound hsound) _ hreach
    have hempty : forall {fact : Nat -> Prop} m, m ∈ ([] : List Nat) ->
        fact m := fun m hm => absurd hm List.not_mem_nil
    exact ⟨⟨List.Pairwise.nil, hempty, hempty, hempty,
      [], [], rfl, hempty, hempty, fun m hm => by cases hm⟩,
      0, hinit, Nat.le_refl _, hempty⟩
  have hheld := hinv.2
  unfold Held at hheld
  split at hheld
  · exact Or.inr ⟨_, hheld⟩
  · obtain ⟨k, hidle, _⟩ := hheld
    exact Or.inl ⟨k, hidle⟩

end Soundness

end Rules
end Serial

end Foundation
end FlanTerminal

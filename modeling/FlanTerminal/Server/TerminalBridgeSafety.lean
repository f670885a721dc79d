import FlanTerminal.Foundation.RelyGuarantee
import FlanTerminal.Foundation.Trace
import FlanTerminal.Server.TerminalBridge

/-!
# What a terminal bridge does at its ports

Every run of a bridge keeps a log of its port calls.  This module says when an
entry of the log is in order, given the entries before it, and shows that every
handler writes only such entries, whatever the ports answer and however often
they call back.
-/

namespace FlanTerminal
namespace Server
namespace TerminalBridge

open Foundation
open Shared

def Entry.by : Entry -> Option Nat
  | received n _ => some n
  | called n _ => some n
  | returned n _ _ => some n
  | closed => none
  | ended n => some n

def needsOpen : PortCall -> Bool
  | PortCall.effect (Effect.write _) => true
  | PortCall.effect (Effect.resize _ _) => true
  | PortCall.effect (Effect.send _) => true
  | PortCall.authenticate => true
  | _ => false

/-- Calls that move data between the two ends. -/
def moves : PortCall -> Bool
  | PortCall.effect (Effect.write _) => true
  | PortCall.effect (Effect.resize _ _) => true
  | PortCall.effect (Effect.send _) => true
  | _ => false

/-- Calls that only the shutdown makes. -/
def ends : PortCall -> Bool
  | PortCall.effect (Effect.dispose _) => true
  | PortCall.effect Effect.kill => true
  | _ => false

def prompt : PortCall -> Bool
  | PortCall.log _ => true
  | c => ends c

def Entry.endedBy : Entry -> Option Nat
  | called n c => if ends c then some n else none
  | _ => none

def closer (log : List Entry) : Option Nat :=
  log.findSome? Entry.endedBy

def Killed (log : List Entry) : Prop :=
  exists n, Entry.called n (PortCall.effect Effect.kill) ∈ log

/-!
## Entries in order
-/

/-- Event `n` is a frame the parser accepts as input `d` of this session, and
`authenticate` was called for it and returned `true`. -/
def AuthenticatedInput (o : Options) (before : List Entry) (n : Nat)
    (d : JsString) : Prop :=
  exists data isBinary a b c e,
    before = a ++ Entry.received n (Event.message data isBinary) :: b ++
      Entry.called n PortCall.authenticate :: c ++
      Entry.returned n PortCall.authenticate (Except.ok true) :: e ∧
    parseClientMessage data isBinary =
      Except.ok (ClientMessage.input o.sessionId d)

def AcceptedResize (o : Options) (before : List Entry) (n cols rows : Nat) :
    Prop :=
  exists data isBinary a b,
    before = a ++ Entry.received n (Event.message data isBinary) :: b ∧
    parseClientMessage data isBinary =
      Except.ok (ClientMessage.resize o.sessionId cols rows)

/-- Event `n` is output of the terminal, `frame` is its message, and the number
of buffered bytes read just before leaves room for the frame. -/
def OutputWithRoom (o : Options) (before : List Entry) (n : Nat)
    (frame : JsString) : Prop :=
  exists data a b amount,
    before = a ++ Entry.received n (Event.data data) :: b ++
      [Entry.returned n PortCall.bufferedAmount (Except.ok amount)] ∧
    frame = (ServerMessage.output o.sessionId data).frame ∧
    ((amount + utf8ByteLength frame : Nat) : ℚ) <
      min o.maxBufferedBytes MAX_BUFFER_BYTES

def ExitNotice (o : Options) (before : List Entry) (n : Nat)
    (frame : JsString) : Prop :=
  exists exitCode signal a b,
    before = a ++ Entry.received n (Event.exit exitCode signal) :: b ∧
    frame = lifecycleErrorFrame o

def Unmoved (n : Nat) (log : List Entry) : Prop :=
  forall c, Entry.called n c ∈ log -> moves c = false

def Caused (o : Options) (before : List Entry) (n : Nat) : PortCall -> Prop
  | PortCall.effect (Effect.write d) =>
      AuthenticatedInput o before n d ∧ Unmoved n before
  | PortCall.effect (Effect.resize cols rows) =>
      AcceptedResize o before n cols rows ∧ Unmoved n before
  | PortCall.effect (Effect.send frame) =>
      (OutputWithRoom o before n frame ∨ ExitNotice o before n frame) ∧
        Unmoved n before
  | PortCall.effect Effect.kill => ¬ Killed before
  | _ => True

def Good (o : Options) (before : List Entry) : Entry -> Prop
  | Entry.received n _ => forall e, e ∈ before -> e.by ≠ some n
  | Entry.called n c =>
      (needsOpen c = true -> Entry.closed ∉ before) ∧
        (ends c = true -> Entry.closed ∈ before ∧
          (closer before = none ∨ closer before = some n)) ∧
        (closer before = some n -> Killed before ∨ prompt c = true) ∧
        Caused o before n c
  | Entry.closed => Entry.closed ∉ before
  | _ => True

theorem closer_append (left right : List Entry) :
    closer (left ++ right) = (closer left).or (closer right) := by
  unfold closer
  rw [List.findSome?_append]

theorem closer_none_of_by {n : Nat} {more : List Entry}
    (hmore : forall e, e ∈ more -> e.by ≠ some n) :
    closer more ≠ some n := by
  intro h
  unfold closer at h
  rcases List.exists_of_findSome?_eq_some h with ⟨e, he, hby⟩
  cases e with
  | called m c =>
      simp only [Entry.endedBy] at hby
      split at hby
      · exact hmore _ he hby
      · cases hby
  | received m ev => cases hby
  | returned m c r => cases hby
  | closed => cases hby
  | ended m => cases hby

theorem Killed.append {log : List Entry} (h : Killed log) (more : List Entry) :
    Killed (log ++ more) := by
  rcases h with ⟨n, hn⟩
  exact ⟨n, List.mem_append_left more hn⟩

/-!
## The contract of the handlers
-/

structure Inv (o : Options) (cs : Census) (s : State) : Prop where
  good : EveryEntry (Good o) s.log
  numbered : forall e, e ∈ s.log -> forall m, e.by = some m -> m < cs.next
  flag : s.closed = true <-> Entry.closed ∈ s.log
  closing : s.closed = true <-> (closer s.log).isSome = true
  /-- A closed bridge has killed its terminal or is still shutting down. -/
  pending : s.closed = true -> Killed s.log ∨
    exists m, closer s.log = some m ∧ cs.live m

def Guar (n : Nat) (s s' : State) : Prop :=
  exists more, s'.log = s.log ++ more ∧
    forall e, e ∈ more -> forall m, e.by = some m -> m = n

def Rely (n : Nat) (s s' : State) : Prop :=
  exists more, s'.log = s.log ++ more ∧ forall e, e ∈ more -> e.by ≠ some n

def contract (o : Options) : Contract State where
  inv := Inv o
  guar _ := Guar
  rely _ := Rely

theorem Guar.refl (n : Nat) (s : State) : Guar n s s :=
  ⟨[], by simp, fun _ he => absurd he List.not_mem_nil⟩

theorem Guar.record {n : Nat} {s0 s : State} (h : Guar n s0 s) {e : Entry}
    (he : forall m, e.by = some m -> m = n) : Guar n s0 (s.record e) := by
  rcases h with ⟨more, hlog, hmore⟩
  refine ⟨more ++ [e], ?_, ?_⟩
  · simp [State.record, hlog]
  · intro x hx
    rcases List.mem_append.mp hx with hx | hx
    · exact hmore x hx
    · rw [List.mem_singleton.mp hx]
      exact he

theorem Guar.rely {n m : Nat} (hne : n ≠ m) {s s' : State} (h : Guar n s s') :
    Rely m s s' := by
  rcases h with ⟨more, hlog, hmore⟩
  refine ⟨more, hlog, ?_⟩
  intro e he hby
  exact hne (hmore e he m hby).symm

/-- What a handler knows between two of its steps.  Only inside the shutdown
does it not hold. -/
structure Mid (o : Options) (n : Nat) (cs : Census) (s0 s : State) : Prop where
  inv : Inv o cs s
  guar : Guar n s0 s
  own : closer s.log = some n -> Killed s.log
  live : cs.live n
  known : n < cs.next

/-- The log grew, without a call that moves data for event `n`. -/
def Quietly (n : Nat) (s s' : State) : Prop :=
  exists more, s'.log = s.log ++ more ∧ Unmoved n more

theorem Quietly.refl (n : Nat) (s : State) : Quietly n s s :=
  ⟨[], by simp, fun _ hc => absurd hc List.not_mem_nil⟩

theorem Quietly.trans {n : Nat} {s s' s'' : State} (h : Quietly n s s')
    (h' : Quietly n s' s'') : Quietly n s s'' := by
  rcases h with ⟨more, hlog, hmore⟩
  rcases h' with ⟨more', hlog', hmore'⟩
  refine ⟨more ++ more', ?_, ?_⟩
  · rw [hlog', hlog, List.append_assoc]
  · intro c hc
    rcases List.mem_append.mp hc with hc | hc
    · exact hmore c hc
    · exact hmore' c hc

theorem Quietly.unmoved {n : Nat} {s s' : State} (h : Quietly n s s')
    (hs : Unmoved n s.log) : Unmoved n s'.log := by
  rcases h with ⟨more, hlog, hmore⟩
  rw [hlog]
  intro c hc
  rcases List.mem_append.mp hc with hc | hc
  · exact hs c hc
  · exact hmore c hc

theorem Quietly.record {n : Nat} {s s' : State} (h : Quietly n s s')
    {e : Entry} (he : forall c, e = Entry.called n c -> moves c = false) :
    Quietly n s (s'.record e) := by
  apply h.trans
  refine ⟨[e], rfl, ?_⟩
  intro c hc
  exact he c (List.mem_singleton.mp hc).symm

/-!
## Port calls

Writing a call and its reply to the log keeps `Mid`, provided the call is in
order.  While a port has control, other handlers run under `Rely`.
-/

theorem Rely.refl (n : Nat) (s : State) : Rely n s s :=
  ⟨[], by simp, fun _ he => absurd he List.not_mem_nil⟩

theorem Rely.trans {n : Nat} {s s' s'' : State} (h : Rely n s s')
    (h' : Rely n s' s'') : Rely n s s'' := by
  rcases h with ⟨more, hlog, hmore⟩
  rcases h' with ⟨more', hlog', hmore'⟩
  refine ⟨more ++ more', ?_, ?_⟩
  · rw [hlog', hlog, List.append_assoc]
  · intro e he
    rcases List.mem_append.mp he with he | he
    · exact hmore e he
    · exact hmore' e he

theorem Rely.quietly {n : Nat} {s s' : State} (h : Rely n s s') :
    Quietly n s s' := by
  rcases h with ⟨more, hlog, hmore⟩
  refine ⟨more, hlog, ?_⟩
  intro c hc
  exact absurd rfl (hmore _ hc)

theorem Rely.closer_own {n : Nat} {s s' : State} (h : Rely n s s')
    (hc : closer s'.log = some n) : closer s.log = some n := by
  rcases h with ⟨more, hlog, hmore⟩
  rw [hlog, closer_append] at hc
  cases hs : closer s.log with
  | none =>
      rw [hs] at hc
      exact absurd hc (closer_none_of_by hmore)
  | some m =>
      rw [hs] at hc
      exact hc

/-- What another event's shutdown has begun, this event leaves alone. -/
theorem Rely.not_killed {o : Options} {n : Nat} {s s' : State}
    (h : Rely n s s') (hgood : EveryEntry (Good o) s'.log)
    (hown : closer s.log = some n) (hs : ¬ Killed s.log) :
    ¬ Killed s'.log := by
  rcases h with ⟨more, hlog, hmore⟩
  rintro ⟨m, hm⟩
  rw [hlog] at hm
  rcases List.mem_append.mp hm with hm | hm
  · exact hs ⟨m, hm⟩
  · rcases List.append_of_mem hm with ⟨a, b, hab⟩
    have hentry : Good o (s.log ++ a)
        (Entry.called m (PortCall.effect Effect.kill)) := by
      apply hgood _ _ b
      rw [hlog, hab]
      simp
    have hmine : closer (s.log ++ a) = some n := by
      rw [closer_append, hown]
      rfl
    rcases (hentry.2.1 rfl).2 with hnone | hsome
    · rw [hmine] at hnone
      cases hnone
    · rw [hmine] at hsome
      have hnm : n = m := Option.some.inj hsome
      exact hmore _ hm (by rw [hnm]; rfl)

theorem Inv.record {o : Options} {cs : Census} {s : State} (h : Inv o cs s)
    {e : Entry} (hgood : Good o s.log e)
    (hby : forall m, e.by = some m -> m < cs.next) (hclosed : e ≠ Entry.closed)
    (hends : e.endedBy = none) : Inv o cs (s.record e) := by
  have hmem : Entry.closed ∈ s.log ++ [e] <-> Entry.closed ∈ s.log := by
    simp [hclosed.symm]
  have hcloser : closer (s.log ++ [e]) = closer s.log := by
    rw [closer_append]
    simp [closer, hends]
  constructor
  · exact everyEntry_snoc.mpr ⟨h.good, hgood⟩
  · intro x hx m hm
    rcases List.mem_append.mp hx with hx | hx
    · exact h.numbered x hx m hm
    · rw [List.mem_singleton.mp hx] at hm
      exact hby m hm
  · exact h.flag.trans hmem.symm
  · show s.closed = true <-> (closer (s.log ++ [e])).isSome = true
    rw [hcloser]
    exact h.closing
  · intro hc
    rcases h.pending hc with hk | ⟨m, hm, hlive⟩
    · exact Or.inl (hk.append [e])
    · exact Or.inr ⟨m, hcloser.trans hm, hlive⟩

theorem Mid.record {o : Options} {n : Nat} {cs : Census} {s0 s : State}
    (h : Mid o n cs s0 s) {e : Entry} (hgood : Good o s.log e)
    (hby : e.by = some n) (hends : e.endedBy = none) :
    Mid o n cs s0 (s.record e) := by
  have hclosed : e ≠ Entry.closed := by
    intro he
    rw [he] at hby
    cases hby
  have hcloser : closer (s.log ++ [e]) = closer s.log := by
    rw [closer_append]
    simp [closer, hends]
  have hn : forall m, e.by = some m -> m = n := by
    intro m hm
    rw [hby] at hm
    exact (Option.some.inj hm).symm
  constructor
  · apply h.inv.record hgood _ hclosed hends
    intro m hm
    rw [hn m hm]
    exact h.known
  · exact h.guar.record hn
  · intro hc
    exact (h.own (hcloser.symm.trans hc)).append [e]
  · exact h.live
  · exact h.known

theorem Mid.called {o : Options} {n : Nat} {cs : Census} {s0 s : State}
    (h : Mid o n cs s0 s) {c : PortCall} (hends : ends c = false)
    (hgood : Good o s.log (Entry.called n c)) :
    Mid o n cs s0 (s.record (Entry.called n c)) :=
  h.record hgood rfl (by simp [Entry.endedBy, hends])

theorem Mid.returned {o : Options} {n : Nat} {cs : Census} {s0 s : State}
    (h : Mid o n cs s0 s) (c : PortCall) (r : PortReply c) :
    Mid o n cs s0 (s.record (Entry.returned n c r)) :=
  h.record trivial rfl rfl

theorem Mid.relied {o : Options} {n : Nat} {cs cs' : Census} {s0 s s' : State}
    (h : Mid o n cs s0 s) (hrely : Rely n s s') (hinv : Inv o cs' s')
    (hok : cs'.Ok) (hlive : cs'.live n) : Mid o n cs' s' s' := by
  refine ⟨hinv, Guar.refl n s', ?_, hlive, hok n hlive⟩
  intro hc
  have hkilled := h.own (hrely.closer_own hc)
  rcases hrely with ⟨more, hlog, _⟩
  rw [hlog]
  exact hkilled.append more

/-- A call outside the shutdown is in order when it has a cause, and when the
bridge is open if the call needs that. -/
theorem Mid.good {o : Options} {n : Nat} {cs : Census} {s0 s : State}
    (h : Mid o n cs s0 s) {c : PortCall} (hends : ends c = false)
    (hopen : needsOpen c = true -> s.closed = false)
    (hcause : Caused o s.log n c) : Good o s.log (Entry.called n c) := by
  refine ⟨?_, ?_, ?_, hcause⟩
  · intro hneeds hmem
    have hclosed := hopen hneeds
    rw [h.inv.flag.mpr hmem] at hclosed
    cases hclosed
  · intro he
    rw [hends] at he
    cases he
  · intro hown
    exact Or.inl (h.own hown)

section Rules

variable {o : Options} {n : Nat} {value : Type}
variable {Q : Except Thrown value -> Phase -> Census -> State -> State -> Prop}
variable {ph : Phase} {cs : Census} {s0 s s1 : State}

abbrev Wp (o : Options) (n : Nat)
    (Q : Except Thrown value -> Phase -> Census -> State -> State -> Prop)
    (p : Code value) (ph : Phase) (cs : Census) (s0 s : State) : Prop :=
  Prog.wp (bridge o) (contract o) n Q p ph cs s0 s

theorem wp_at_once {c : PortCall} {k : PortReply c -> Code value}
    (hb : boundary c = Boundary.sync) (h : Mid o n cs s0 s)
    (hends : ends c = false) (hgood : Good o s.log (Entry.called n c))
    (hk : forall r, Mid o n cs s0 ((s.record (Entry.called n c)).record
        (Entry.returned n c r)) ->
      Wp o n Q (k r) ph cs s0 ((s.record (Entry.called n c)).record
        (Entry.returned n c r))) :
    Wp o n Q (Prog.call (I := ports) c k) ph cs s0 s := by
  apply (Prog.wp_sync hb).mpr
  intro r _
  exact hk r ((h.called hends hgood).returned c r)

theorem wp_call_out {c : PortCall} {k : PortReply c -> Code value}
    (hb : boundary c = Boundary.callback) (h : Mid o n cs s0 s)
    (hends : ends c = false) (hgood : Good o s.log (Entry.called n c))
    (hk : forall cs' s' r, Rely n (s.record (Entry.called n c)) s' ->
      Mid o n cs' s' (s'.record (Entry.returned n c r)) ->
      Wp o n Q (k r) ph cs' s' (s'.record (Entry.returned n c r))) :
    Wp o n Q (Prog.call (I := ports) c k) ph cs s0 s := by
  have hcalled := h.called hends hgood
  apply (Prog.wp_callback hb).mpr
  refine ⟨hcalled.inv, hcalled.guar, ?_⟩
  intro cs' s' r hok hlive hinv hrely _
  exact hk cs' s' r hrely
    ((hcalled.relied hrely hinv hok hlive).returned c r)

/-- Calls that need no cause: they neither move data nor end anything. -/
def idle (c : PortCall) : Bool :=
  !needsOpen c && !ends c

theorem idle_caused {c : PortCall} (hc : idle c = true) (log : List Entry) :
    Caused o log n c := by
  cases c with
  | effect e =>
      cases e with
      | write d => cases hc
      | resize cols rows => cases hc
      | send frame => cases hc
      | dispose i => cases hc
      | kill => cases hc
      | subscribe src => exact trivial
      | closeSocket code reason => exact trivial
      | terminate => exact trivial
      | onActivity => exact trivial
  | readyState => exact trivial
  | bufferedAmount => exact trivial
  | authenticate => cases hc
  | log event => exact trivial

theorem idle_needsOpen {c : PortCall} (hc : idle c = true) :
    needsOpen c = false := by
  simpa [idle] using (Bool.and_eq_true_iff.mp hc).1

theorem idle_ends {c : PortCall} (hc : idle c = true) : ends c = false := by
  simpa [idle] using (Bool.and_eq_true_iff.mp hc).2

theorem moves_needsOpen {c : PortCall} (hc : needsOpen c = false) :
    moves c = false := by
  cases c with
  | effect e =>
      cases e with
      | write d => cases hc
      | resize cols rows => cases hc
      | send frame => cases hc
      | subscribe src => rfl
      | dispose i => rfl
      | closeSocket code reason => rfl
      | terminate => rfl
      | kill => rfl
      | onActivity => rfl
  | readyState => rfl
  | bufferedAmount => rfl
  | authenticate => rfl
  | log event => rfl

theorem idle_moves {c : PortCall} (hc : idle c = true) : moves c = false := by
  exact moves_needsOpen (idle_needsOpen hc)

theorem Quietly.exchange {n : Nat} {s1 s s' : State} (h : Quietly n s1 s)
    {c : PortCall} (hc : moves c = false)
    (hrely : Rely n (s.record (Entry.called n c)) s') (r : PortReply c) :
    Quietly n s1 (s'.record (Entry.returned n c r)) := by
  apply Quietly.record
  · apply Quietly.trans _ hrely.quietly
    apply h.record
    intro d hd
    cases hd
    exact hc
  · intro d hd
    cases hd

theorem boundary_ne_await (c : PortCall) : boundary c ≠ Boundary.await := by
  cases c with
  | effect e => cases e <;> exact nofun
  | readyState => exact nofun
  | bufferedAmount => exact nofun
  | authenticate => exact nofun
  | log event => exact nofun

theorem Mid.good_idle {c : PortCall} (h : Mid o n cs s0 s)
    (hc : idle c = true) : Good o s.log (Entry.called n c) := by
  apply h.good (idle_ends hc) _ (idle_caused hc s.log)
  intro hneeds
  rw [idle_needsOpen hc] at hneeds
  cases hneeds

theorem wp_idle {c : PortCall} {k : PortReply c -> Code value}
    (hc : idle c = true) (h : Mid o n cs s0 s) (hq : Quietly n s1 s)
    (hk : forall cs' s0' s' r, Mid o n cs' s0' s' -> Quietly n s1 s' ->
      Wp o n Q (k r) ph cs' s0' s') :
    Wp o n Q (Prog.call (I := ports) c k) ph cs s0 s := by
  have hgood : Good o s.log (Entry.called n c) := h.good_idle hc
  cases hb' : boundary c with
  | sync =>
      apply wp_at_once hb' h (idle_ends hc) hgood
      intro r hmid
      exact hk _ _ _ r hmid
        (hq.exchange (idle_moves hc) (Rely.refl n _) r)
  | callback =>
      apply wp_call_out hb' h (idle_ends hc) hgood
      intro cs' s' r hrely hmid
      exact hk _ _ _ r hmid (hq.exchange (idle_moves hc) hrely r)
  | await => exact absurd hb' (boundary_ne_await c)

/-- The postcondition of code that moves nothing for event `n`. -/
def Calm (o : Options) (n : Nat) (s1 : State) (_ : Except Thrown value)
    (_ : Phase) (cs : Census) (s0 s : State) : Prop :=
  Mid o n cs s0 s ∧ Quietly n s1 s

theorem wp_calm_bind {result : Type} {p : Code result}
    {g : result -> Code value} (hp : Wp o n (Calm o n s1) p ph cs s0 s)
    (hg : forall a ph cs s0 s, Mid o n cs s0 s -> Quietly n s1 s ->
      Wp o n (Calm o n s1) (g a) ph cs s0 s) :
    Wp o n (Calm o n s1) (p >>= g) ph cs s0 s := by
  apply Prog.wp_bind.mpr
  apply Prog.wp_mono _ hp
  intro res ph' cs' s0' s' hcalm
  cases res with
  | ok a => exact hg a ph' cs' s0' s' hcalm.1 hcalm.2
  | error e => exact hcalm

theorem wp_logger (event : LogEvent) (h : Mid o n cs s0 s)
    (hq : Quietly n s1 s) :
    Wp o n (Calm o n s1) (logger event) ph cs s0 s := by
  apply wp_idle rfl h hq
  intro cs' s0' s' r hmid hquiet
  exact ⟨hmid, hquiet⟩

theorem wp_guarded {e : Effect} {failure : Code Unit}
    (he : idle (PortCall.effect e) = true) (h : Mid o n cs s0 s)
    (hq : Quietly n s1 s)
    (hfail : forall cs s0 s, Mid o n cs s0 s -> Quietly n s1 s ->
      Wp o n (Calm o n s1) failure ph cs s0 s) :
    Wp o n (Calm o n s1) (guarded e failure) ph cs s0 s := by
  apply wp_idle he h hq
  intro cs' s0' s' r hmid hquiet
  cases r with
  | ok a => exact ⟨hmid, hquiet⟩
  | error x => exact hfail cs' s0' s' hmid hquiet

theorem wp_guarded_logger {e : Effect} (event : LogEvent)
    (he : idle (PortCall.effect e) = true) (h : Mid o n cs s0 s)
    (hq : Quietly n s1 s) :
    Wp o n (Calm o n s1) (guarded e (logger event)) ph cs s0 s := by
  apply wp_guarded he h hq
  intro cs' s0' s' hmid hquiet
  exact wp_logger event hmid hquiet

theorem wp_socketIsOpen (h : Mid o n cs s0 s) (hq : Quietly n s1 s) :
    Wp o n (Calm o n s1) socketIsOpen ph cs s0 s := by
  apply wp_idle rfl h hq
  intro cs' s0' s' r hmid hquiet
  cases r with
  | ok isOpen => exact ⟨hmid, hquiet⟩
  | error x => exact ⟨hmid, hquiet⟩

/-!
## Shutting down

Between the setting of the flag and the killing of the terminal the handler
disposes its subscriptions.  In that time the bridge is closed, event `n` is
the one that closes it, and the terminal is alive.
-/

structure Closing (o : Options) (n : Nat) (cs : Census) (s0 s : State) :
    Prop where
  good : EveryEntry (Good o) s.log
  numbered : forall e, e ∈ s.log -> forall m, e.by = some m -> m < cs.next
  closed : s.closed = true
  marked : Entry.closed ∈ s.log
  mine : closer s.log = none ∨ closer s.log = some n
  alive : ¬ Killed s.log
  guar : Guar n s0 s
  live : cs.live n
  known : n < cs.next

theorem Inv.closer_of_killed {log : List Entry} (h : Killed log) :
    (closer log).isSome = true := by
  rcases h with ⟨m, hm⟩
  unfold closer
  rw [List.findSome?_isSome_iff]
  exact ⟨_, hm, rfl⟩

theorem Mid.closing {o : Options} {n : Nat} {cs : Census} {s0 s : State}
    (h : Mid o n cs s0 s) (hopen : s.closed = false) :
    Closing o n cs s0 s.markClosed := by
  have hunmarked : Entry.closed ∉ s.log := by
    intro hmem
    rw [h.inv.flag.mpr hmem] at hopen
    cases hopen
  have hcloser : closer s.log = none := by
    cases hc : closer s.log with
    | none => rfl
    | some m =>
        have hsome : (closer s.log).isSome = true := by
          rw [hc]
          rfl
        rw [h.inv.closing.mpr hsome] at hopen
        cases hopen
  have hlog : closer s.markClosed.log = none := by
    show closer (s.log ++ [Entry.closed]) = none
    rw [closer_append, hcloser]
    rfl
  constructor
  · exact everyEntry_snoc.mpr ⟨h.inv.good, hunmarked⟩
  · intro e he m hm
    rcases List.mem_append.mp he with he | he
    · exact h.inv.numbered e he m hm
    · rw [List.mem_singleton.mp he] at hm
      cases hm
  · rfl
  · exact List.mem_append_right s.log List.mem_cons_self
  · exact Or.inl hlog
  · intro hkilled
    have hsome := Inv.closer_of_killed hkilled
    rw [hlog] at hsome
    cases hsome
  · exact h.guar.record (e := Entry.closed) nofun
  · exact h.live
  · exact h.known

theorem ends_prompt {c : PortCall} (hc : ends c = true) :
    prompt c = true := by
  cases c with
  | effect e => exact hc
  | readyState => cases hc
  | bufferedAmount => cases hc
  | authenticate => cases hc
  | log event => rfl

theorem Closing.inv {cs : Census} {s0 s : State} (h : Closing o n cs s0 s)
    {c : PortCall} (hends : ends c = true)
    (hcause : Caused o s.log n c) (hneeds : needsOpen c = false) :
    Inv o cs (s.record (Entry.called n c)) ∧
      closer (s.record (Entry.called n c)).log = some n := by
  have hcloser : closer (s.log ++ [Entry.called n c]) = some n := by
    rw [closer_append]
    rcases h.mine with hmine | hmine
    · rw [hmine]
      simp [closer, Entry.endedBy, hends]
    · rw [hmine]
      rfl
  refine ⟨?_, hcloser⟩
  constructor
  · refine everyEntry_snoc.mpr ⟨h.good, ?_, ?_, ?_, hcause⟩
    · intro hopen
      rw [hneeds] at hopen
      cases hopen
    · intro _
      exact ⟨h.marked, h.mine⟩
    · intro _
      exact Or.inr (ends_prompt hends)
  · intro e he m hm
    rcases List.mem_append.mp he with he | he
    · exact h.numbered e he m hm
    · rw [List.mem_singleton.mp he] at hm
      rw [← Option.some.inj hm]
      exact h.known
  · constructor
    · intro _
      exact List.mem_append_left _ h.marked
    · intro _
      exact h.closed
  · constructor
    · intro _
      show (closer (s.log ++ [Entry.called n c])).isSome = true
      rw [hcloser]
      rfl
    · intro _
      exact h.closed
  · intro _
    exact Or.inr ⟨n, hcloser, h.live⟩

theorem Closing.record {cs : Census} {s0 s : State} (h : Closing o n cs s0 s)
    {e : Entry} (hgood : Good o s.log e) (hby : e.by = some n)
    (hends : e.endedBy = none) : Closing o n cs s0 (s.record e) := by
  have hcloser : closer (s.log ++ [e]) = closer s.log := by
    rw [closer_append]
    simp [closer, hends]
  constructor
  · exact everyEntry_snoc.mpr ⟨h.good, hgood⟩
  · intro x hx m hm
    rcases List.mem_append.mp hx with hx | hx
    · exact h.numbered x hx m hm
    · rw [List.mem_singleton.mp hx, hby] at hm
      rw [← Option.some.inj hm]
      exact h.known
  · exact h.closed
  · exact List.mem_append_left _ h.marked
  · rcases h.mine with hmine | hmine
    · exact Or.inl (hcloser.trans hmine)
    · exact Or.inr (hcloser.trans hmine)
  · rintro ⟨m, hm⟩
    rcases List.mem_append.mp hm with hm | hm
    · exact h.alive ⟨m, hm⟩
    · rw [← List.mem_singleton.mp hm] at hends
      cases hends
  · apply h.guar.record
    intro m hm
    rw [hby] at hm
    exact (Option.some.inj hm).symm
  · exact h.live
  · exact h.known

/-- After the disposal of a subscription the terminal is still alive: only the
event that closes the bridge kills it. -/
theorem Closing.relied {cs cs' : Census} {s0 s s' : State}
    (h : Closing o n cs s0 s) {c : PortCall}
    (hown : closer (s.record (Entry.called n c)).log = some n)
    (hkill : c ≠ PortCall.effect Effect.kill)
    (hrely : Rely n (s.record (Entry.called n c)) s') (hinv : Inv o cs' s')
    (hok : cs'.Ok) (hlive : cs'.live n) : Closing o n cs' s' s' := by
  have halive : ¬ Killed (s.record (Entry.called n c)).log := by
    rintro ⟨m, hm⟩
    rcases List.mem_append.mp hm with hm | hm
    · exact h.alive ⟨m, hm⟩
    · cases List.mem_singleton.mp hm
      exact hkill rfl
  have halive' := hrely.not_killed hinv.good hown halive
  rcases hrely with ⟨more, hlog, hmore⟩
  have hmarked : Entry.closed ∈ s'.log := by
    rw [hlog]
    exact List.mem_append_left _ (List.mem_append_left _ h.marked)
  refine ⟨hinv.good, hinv.numbered, hinv.flag.mpr hmarked, hmarked, ?_,
    halive', Guar.refl n s', hlive, hok n hlive⟩
  rw [hlog, closer_append, hown]
  exact Or.inr rfl

def Holding (o : Options) (n : Nat) (s1 : State) (res : Except Thrown Unit)
    (_ : Phase) (cs : Census) (s0 s : State) : Prop :=
  res = Except.ok () ∧ Closing o n cs s0 s ∧ Quietly n s1 s

theorem wp_logger_closing (event : LogEvent) (h : Closing o n cs s0 s)
    (hq : Quietly n s1 s) :
    Wp o n (Holding o n s1) (logger event) ph cs s0 s := by
  apply (Prog.wp_sync rfl).mpr
  intro r _
  have hcall : idle (PortCall.log event) = true := rfl
  refine ⟨rfl, ?_, hq.exchange (idle_moves hcall) (Rely.refl n _) r⟩
  have hcalled := h.record (e := Entry.called n (PortCall.log event))
    ⟨nofun, nofun, fun _ => Or.inr rfl, trivial⟩ rfl rfl
  exact hcalled.record (e := Entry.returned n (PortCall.log event) r)
    trivial rfl rfl

theorem wp_dispose (i : Nat) (h : Closing o n cs s0 s)
    (hq : Quietly n s1 s) :
    Wp o n (Holding o n s1) (guarded (Effect.dispose i)
      (logger LogEvent.subscription_dispose_failed)) ph cs s0 s := by
  have hissued := h.inv (c := PortCall.effect (Effect.dispose i)) rfl trivial
    rfl
  apply (Prog.wp_callback rfl).mpr
  refine ⟨hissued.1, h.guar.record (fun m hm => (Option.some.inj hm).symm), ?_⟩
  intro cs' s' r hok hlive hinv hrely _
  have hclosing := (h.relied hissued.2 nofun hrely hinv hok hlive).record
    (e := Entry.returned n (PortCall.effect (Effect.dispose i)) r)
    trivial rfl rfl
  have hquiet := hq.exchange rfl hrely r
  cases r with
  | ok a => exact ⟨rfl, hclosing, hquiet⟩
  | error x => exact wp_logger_closing _ hclosing hquiet

theorem wp_disposeEach (is : List Nat) (h : Closing o n cs s0 s)
    (hq : Quietly n s1 s) :
    Wp o n (Holding o n s1) (disposeEach is) ph cs s0 s := by
  induction is generalizing ph cs s0 s with
  | nil => exact ⟨rfl, h, hq⟩
  | cons i rest ih =>
      apply Prog.wp_bind.mpr
      apply Prog.wp_mono _ (wp_dispose i h hq)
      intro res ph' cs' s0' s' hpost
      rw [hpost.1]
      exact ih hpost.2.1 hpost.2.2

theorem Closing.killed (h : Closing o n cs s0 s) :
    Mid o n cs s0
      (s.record (Entry.called n (PortCall.effect Effect.kill))) := by
  have hissued := h.inv (c := PortCall.effect Effect.kill) rfl h.alive rfl
  refine ⟨hissued.1,
    h.guar.record (fun m hm => (Option.some.inj hm).symm), ?_, h.live,
    h.known⟩
  intro _
  exact ⟨n, List.mem_append_right _ List.mem_cons_self⟩

theorem wp_kill (h : Closing o n cs s0 s) (hq : Quietly n s1 s) :
    Wp o n (Calm o n s1)
      (guarded Effect.kill (logger LogEvent.terminal_kill_failed))
      ph cs s0 s := by
  apply (Prog.wp_callback rfl).mpr
  refine ⟨h.killed.inv, h.killed.guar, ?_⟩
  intro cs' s' r hok hlive hinv hrely _
  have hmid := (h.killed.relied hrely hinv hok hlive).returned
    (PortCall.effect Effect.kill) r
  have hquiet := hq.exchange rfl hrely r
  cases r with
  | ok a => exact ⟨hmid, hquiet⟩
  | error x => exact wp_logger _ hmid hquiet

/-- Shutting down moves nothing, whoever does it and whatever fails. -/
theorem wp_shutdown (code : Nat) (reason : Reason) (closeSocket : Bool)
    (h : Mid o n cs s0 s) (hq : Quietly n s1 s) :
    Wp o n (Calm o n s1) (shutdown code reason closeSocket) ph cs s0 s := by
  unfold shutdown
  cases hclosed : s.closed with
  | true =>
      simp only [Prog.read_bind, Prog.wp_act, hclosed, if_true]
      exact ⟨h, hq⟩
  | false =>
      simp only [Prog.read_bind, Prog.wp_act, hclosed, Bool.false_eq_true,
        if_false, Prog.modify_bind]
      have hquiet : Quietly n s1 s.markClosed :=
        hq.record fun _ h => by cases h
      apply Prog.wp_bind.mpr
      apply Prog.wp_mono _ (wp_disposeEach _ (h.closing hclosed) hquiet)
      intro res ph' cs' s0' s' hpost
      rw [hpost.1]
      apply wp_calm_bind (wp_kill hpost.2.1 hpost.2.2)
      intro _ ph cs s0 s hmid hq
      cases closeSocket with
      | false => exact wp_logger _ hmid hq
      | true =>
          simp only [if_true]
          apply wp_calm_bind (wp_socketIsOpen hmid hq)
          intro isOpen ph cs s0 s hmid hq
          cases isOpen with
          | false => exact wp_logger _ hmid hq
          | true =>
              simp only [if_true]
              apply wp_calm_bind (wp_guarded_logger _ rfl hmid hq)
              intro _ ph cs s0 s hmid hq
              apply wp_calm_bind (wp_socketIsOpen hmid hq)
              intro stillOpen ph cs s0 s hmid hq
              cases stillOpen with
              | false => exact wp_logger _ hmid hq
              | true =>
                  simp only [if_true]
                  apply wp_calm_bind (wp_guarded_logger _ rfl hmid hq)
                  intro _ ph cs s0 s hmid hq
                  exact wp_logger _ hmid hq

/-!
## The handlers

Each handler starts where its event has just been written to the log.  It makes
at most one call that moves data, and it shows the cause of that call.
-/

def Kept (o : Options) (n : Nat) (_ : Except Thrown value) (_ : Phase)
    (cs : Census) (s0 s : State) : Prop :=
  Mid o n cs s0 s

theorem Calm.kept {p : Code value}
    (h : Wp o n (Calm o n s1) p ph cs s0 s) :
    Wp o n (Kept o n) p ph cs s0 s :=
  Prog.wp_mono (fun _ _ _ _ _ hcalm => hcalm.1) h

theorem wp_kept_bind {result : Type} {p : Code result}
    {g : result -> Code value} (hp : Wp o n (Calm o n s1) p ph cs s0 s)
    (hg : forall a ph cs s0 s, Mid o n cs s0 s -> Quietly n s1 s ->
      Wp o n (Kept o n) (g a) ph cs s0 s) :
    Wp o n (Kept o n) (p >>= g) ph cs s0 s := by
  apply Prog.wp_bind.mpr
  apply Prog.wp_mono _ hp
  intro res ph' cs' s0' s' hcalm
  cases res with
  | ok a => exact hg a ph' cs' s0' s' hcalm.1 hcalm.2
  | error e => exact hcalm.1

theorem wp_log_and_shutdown (event : LogEvent) (code : Nat) (reason : Reason)
    (closeSocket : Bool) (h : Mid o n cs s0 s) :
    Wp o n (Kept o n) (do logger event; shutdown code reason closeSocket)
      ph cs s0 s := by
  apply wp_kept_bind (wp_logger event h (Quietly.refl n s))
  intro _ ph' cs' s0' s' hmid hquiet
  exact Calm.kept (wp_shutdown code reason closeSocket hmid hquiet)

theorem wp_move {e : Effect} {failure : Code Unit}
    (hb : boundary (PortCall.effect e) = Boundary.callback)
    (hends : ends (PortCall.effect e) = false) (h : Mid o n cs s0 s)
    (hopen : s.closed = false) (hcause : Caused o s.log n (PortCall.effect e))
    (hfail : forall cs s0 s, Mid o n cs s0 s ->
      Wp o n (Kept o n) failure ph cs s0 s) :
    Wp o n (Kept o n) (guarded e failure) ph cs s0 s := by
  apply wp_call_out hb h hends (h.good hends (fun _ => hopen) hcause)
  intro cs' s' r _ hmid
  cases r with
  | ok a => exact hmid
  | error x => exact hfail _ _ _ hmid

def Begun (n : Nat) (ev : Event) (s : State) : Prop :=
  exists before, s.log = before ++ [Entry.received n ev] ∧ Unmoved n before

theorem Begun.unmoved {ev : Event} (h : Begun n ev s) : Unmoved n s.log := by
  rcases h with ⟨before, hlog, hbefore⟩
  rw [hlog]
  intro c hc
  rcases List.mem_append.mp hc with hc | hc
  · exact hbefore c hc
  · cases List.mem_singleton.mp hc

theorem wp_markActivity (h : Mid o n cs s0 s) (hq : Quietly n s1 s) :
    Wp o n (Calm o n s1) markActivity ph cs s0 s :=
  wp_guarded_logger _ rfl h hq

def Checked (o : Options) (n : Nat) (s1 : State) (res : Except Thrown Bool)
    (_ : Phase) (cs : Census) (s0 s : State) : Prop :=
  Mid o n cs s0 s ∧ (res = Except.ok true -> Quietly n s1 s ∧
    exists b c, s.log = s1.log ++ b ++ Entry.called n PortCall.authenticate ::
      c ++ [Entry.returned n PortCall.authenticate (Except.ok true)])

theorem wp_authenticateInput (h : Mid o n cs s0 s) (hq : Quietly n s1 s)
    (hopen : s.closed = false) :
    Wp o n (Checked o n s1) authenticateInput ph cs s0 s := by
  have hrefused : forall ph cs s0 s, Mid o n cs s0 s ->
      Wp o n (Checked o n s1) (do
        shutdown AUTHENTICATION_REQUIRED Reason.authentication_required true
        pure false) ph cs s0 s := by
    intro ph cs s0 s hmid
    apply Prog.wp_bind.mpr
    apply Prog.wp_mono _ (wp_shutdown _ _ _ hmid (Quietly.refl n s))
    intro res ph' cs' s0' s' hcalm
    cases res with
    | ok a => exact ⟨hcalm.1, nofun⟩
    | error e => exact ⟨hcalm.1, nofun⟩
  have hgood : Good o s.log (Entry.called n PortCall.authenticate) :=
    h.good rfl (fun _ => hopen) trivial
  apply wp_call_out rfl h rfl hgood
  intro cs' s' r hrely hmid
  cases r with
  | error x => exact hrefused _ _ _ _ hmid
  | ok answer =>
      cases answer with
      | false => exact hrefused _ _ _ _ hmid
      | true =>
          refine ⟨hmid, ?_⟩
          intro _
          refine ⟨hq.exchange rfl hrely _, ?_⟩
          rcases hq with ⟨b, hb, _⟩
          rcases hrely with ⟨c, hc, _⟩
          refine ⟨b, c, ?_⟩
          show s'.log ++ _ = _
          rw [hc]
          simp [State.record, hb]

theorem wp_write {d : JsString} (h : Mid o n cs s0 s)
    (hcause : Caused o s.log n (PortCall.effect (Effect.write d))) :
    Wp o n (Kept o n) (write d) ph cs s0 s := by
  unfold write
  cases hclosed : s.closed with
  | true =>
      simp only [Prog.read_bind, Prog.wp_act, hclosed, if_true]
      exact h
  | false =>
      simp only [Prog.read_bind, Prog.wp_act, hclosed, Bool.false_eq_true,
        if_false]
      apply wp_move rfl rfl h hclosed hcause
      intro cs' s0' s' hmid
      exact wp_log_and_shutdown _ _ _ _ hmid

theorem wp_resize {cols rows : Nat} (h : Mid o n cs s0 s)
    (hcause : Caused o s.log n (PortCall.effect (Effect.resize cols rows))) :
    Wp o n (Kept o n) (resize cols rows) ph cs s0 s := by
  unfold resize
  cases hclosed : s.closed with
  | true =>
      simp only [Prog.read_bind, Prog.wp_act, hclosed, if_true]
      exact h
  | false =>
      simp only [Prog.read_bind, Prog.wp_act, hclosed, Bool.false_eq_true,
        if_false]
      apply wp_move rfl rfl h hclosed hcause
      intro cs' s0' s' hmid
      exact wp_log_and_shutdown _ _ _ _ hmid

theorem wp_input {data : RawData} {isBinary : Bool} {d : JsString}
    (hbegun : Begun n (Event.message data isBinary) s)
    (hparse : parseClientMessage data isBinary =
      Except.ok (ClientMessage.input o.sessionId d))
    (h : Mid o n cs s0 s) (hopen : s.closed = false) :
    Wp o n (Kept o n) (do
      let authenticated ← authenticateInput
      if authenticated then do
        markActivity
        write d
      else pure ()) ph cs s0 s := by
  apply Prog.wp_bind.mpr
  apply Prog.wp_mono _ (wp_authenticateInput h (Quietly.refl n s) hopen)
  intro res ph' cs' s0' s' hchecked
  cases res with
  | error e => exact hchecked.1
  | ok authenticated =>
      cases authenticated with
      | false => exact hchecked.1
      | true =>
          rcases hchecked.2 rfl with ⟨hquiet, b, c, hlog⟩
          show Wp o n (Kept o n) (do markActivity; write d) ph' cs' s0' s'
          apply wp_kept_bind
            (wp_markActivity hchecked.1 (Quietly.refl n s'))
          intro _ ph'' cs'' s0'' s'' hmid hmore
          apply wp_write hmid
          refine ⟨?_, hmore.unmoved (hquiet.unmoved hbegun.unmoved)⟩
          rcases hbegun with ⟨before, hbefore, _⟩
          rcases hmore with ⟨e, he, _⟩
          refine ⟨data, isBinary, before, b, c, e, ?_, hparse⟩
          rw [he, hlog, hbefore]
          simp

theorem wp_handleMessage {data : RawData} {isBinary : Bool}
    (hbegun : Begun n (Event.message data isBinary) s)
    (h : Mid o n cs s0 s) :
    Wp o n (Kept o n) (handleMessage o data isBinary) ph cs s0 s := by
  unfold handleMessage
  cases hclosed : s.closed with
  | true =>
      simp only [Prog.read_bind, Prog.wp_act, hclosed, if_true]
      exact h
  | false =>
      simp only [Prog.read_bind, Prog.wp_act, hclosed, Bool.false_eq_true,
        if_false]
      cases hparse : parseClientMessage data isBinary with
      | error code => exact wp_log_and_shutdown _ _ _ _ h
      | ok parsed =>
          by_cases hid : parsed.sessionId = o.sessionId
          · simp only [hid, ne_eq, not_true, if_false]
            cases parsed with
            | input sessionId d =>
                have hsame : sessionId = o.sessionId := hid
                rw [hsame] at hparse
                exact wp_input hbegun hparse h hclosed
            | resize sessionId cols rows =>
                have hsame : sessionId = o.sessionId := hid
                rw [hsame] at hparse
                apply wp_kept_bind (wp_markActivity h (Quietly.refl n s))
                intro _ ph' cs' s0' s' hmid hmore
                apply wp_resize hmid
                refine ⟨?_, hmore.unmoved hbegun.unmoved⟩
                rcases hbegun with ⟨before, hbefore, _⟩
                rcases hmore with ⟨e, he, _⟩
                refine ⟨data, isBinary, before, e, ?_, hparse⟩
                show s'.log = _
                rw [he]
                simp [hbefore]
          · simp only [hid, ne_eq, not_false_iff, if_true]
            exact wp_log_and_shutdown _ _ _ _ h

/-- Like `Calm`, for code that calls only what answers at once: the bridge is
as open as it was. -/
def Still (o : Options) (n : Nat) (s1 : State) (_ : Except Thrown value)
    (_ : Phase) (cs : Census) (s0 s : State) : Prop :=
  Mid o n cs s0 s ∧ Quietly n s1 s ∧ s.closed = s1.closed

theorem wp_still {c : PortCall} {k : PortReply c -> Code value}
    (hb : boundary c = Boundary.sync) (hc : idle c = true)
    (h : Mid o n cs s0 s) (hq : Quietly n s1 s) (hs : s.closed = s1.closed)
    (hk : forall s' r, Mid o n cs s0 s' -> Quietly n s1 s' ->
      s'.closed = s1.closed -> Wp o n Q (k r) ph cs s0 s') :
    Wp o n Q (Prog.call (I := ports) c k) ph cs s0 s := by
  apply wp_at_once hb h (idle_ends hc) (h.good_idle hc)
  intro r hmid
  exact hk _ r hmid (hq.exchange (idle_moves hc) (Rely.refl n _) r) hs

theorem wp_still_logger (event : LogEvent) (h : Mid o n cs s0 s)
    (hq : Quietly n s1 s) (hs : s.closed = s1.closed) :
    Wp o n (Still o n s1) (logger event) ph cs s0 s := by
  apply wp_still rfl rfl h hq hs
  intro s' r hmid hquiet hsame
  exact ⟨hmid, hquiet, hsame⟩

theorem wp_still_markActivity (h : Mid o n cs s0 s) (hq : Quietly n s1 s)
    (hs : s.closed = s1.closed) :
    Wp o n (Still o n s1) markActivity ph cs s0 s := by
  apply wp_still rfl rfl h hq hs
  intro s' r hmid hquiet hsame
  cases r with
  | ok a => exact ⟨hmid, hquiet, hsame⟩
  | error x => exact wp_still_logger _ hmid hquiet hsame

theorem wp_still_socketIsOpen (h : Mid o n cs s0 s) (hq : Quietly n s1 s)
    (hs : s.closed = s1.closed) :
    Wp o n (Still o n s1) socketIsOpen ph cs s0 s := by
  apply wp_still rfl rfl h hq hs
  intro s' r hmid hquiet hsame
  cases r with
  | ok isOpen => exact ⟨hmid, hquiet, hsame⟩
  | error x => exact ⟨hmid, hquiet, hsame⟩

theorem wp_still_bind {result : Type} {p : Code result}
    {g : result -> Code value} (hp : Wp o n (Still o n s1) p ph cs s0 s)
    (hg : forall a ph cs s0 s, Mid o n cs s0 s -> Quietly n s1 s ->
      s.closed = s1.closed -> Wp o n (Kept o n) (g a) ph cs s0 s) :
    Wp o n (Kept o n) (p >>= g) ph cs s0 s := by
  apply Prog.wp_bind.mpr
  apply Prog.wp_mono _ hp
  intro res ph' cs' s0' s' hstill
  cases res with
  | ok a => exact hg a ph' cs' s0' s' hstill.1 hstill.2.1 hstill.2.2
  | error e => exact hstill.1

/-- The number of buffered bytes is the last entry of the log when the frame is
sent or dropped. -/
theorem wp_bufferedAmount {g : Nat -> Code value} (h : Mid o n cs s0 s)
    (hq : Quietly n s1 s) (hs : s.closed = s1.closed)
    (hg : forall amount s', Mid o n cs s0 s' -> Quietly n s1 s' ->
      s'.closed = s1.closed ->
      (exists b, s'.log = s1.log ++ b ++
        [Entry.returned n PortCall.bufferedAmount (Except.ok amount)]) ->
      Wp o n (Kept o n) (g amount) ph cs s0 s') :
    Wp o n (Kept o n) (bufferedAmount >>= g) ph cs s0 s := by
  have hidle : idle PortCall.bufferedAmount = true := rfl
  apply wp_at_once rfl h (idle_ends hidle) (h.good_idle hidle)
  intro r hmid
  have hquiet := hq.exchange (idle_moves hidle) (Rely.refl n _) r
  cases r with
  | error x => exact hmid
  | ok amount =>
      apply hg amount _ hmid hquiet hs
      rcases hq with ⟨b, hb, _⟩
      refine ⟨b ++ [Entry.called n PortCall.bufferedAmount], ?_⟩
      simp [State.record, hb]

theorem wp_handleOutput {data : JsString}
    (hbegun : Begun n (Event.data data) s) (h : Mid o n cs s0 s) :
    Wp o n (Kept o n) (handleOutput o data) ph cs s0 s := by
  unfold handleOutput
  cases hclosed : s.closed with
  | true =>
      simp only [Prog.read_bind, Prog.wp_act, hclosed, if_true]
      exact h
  | false =>
      simp only [Prog.read_bind, Prog.wp_act, hclosed, Bool.false_eq_true,
        if_false]
      apply wp_still_bind (wp_still_markActivity h (Quietly.refl n s) rfl)
      intro _ ph cs s0 s' hmid hq hs
      apply wp_still_bind (wp_still_socketIsOpen hmid hq hs)
      intro isOpen ph cs s0 s' hmid hq hs
      cases isOpen with
      | false => exact hmid
      | true =>
          simp only [if_true]
          apply wp_bufferedAmount hmid hq hs
          intro amount s' hmid hq hs hlog
          split
          · apply wp_bufferedAmount hmid hq hs
            intro reported s' hmid hq hs _
            exact wp_log_and_shutdown _ _ _ _ hmid
          · rename_i hroom
            apply wp_move rfl rfl hmid (hs.trans hclosed)
            · refine ⟨Or.inl ?_, hq.unmoved hbegun.unmoved⟩
              rcases hbegun with ⟨before, hbefore, _⟩
              rcases hlog with ⟨b, hb⟩
              refine ⟨data, before, b, amount, ?_, rfl, not_le.mp hroom⟩
              show s'.log = _
              rw [hb]
              simp [hbefore]
            · intro cs' s0' s' hmid
              exact wp_log_and_shutdown _ _ _ _ hmid

theorem wp_sendLifecycleError {exitCode : Int} {signal : Option Int}
    (hbegun : Begun n (Event.exit exitCode signal) s1)
    (h : Mid o n cs s0 s) (hq : Quietly n s1 s) (hs : s.closed = s1.closed) :
    Wp o n (Kept o n) (sendLifecycleError o) ph cs s0 s := by
  unfold sendLifecycleError
  cases hclosed : s.closed with
  | true =>
      simp only [Prog.read_bind, Prog.wp_act, hclosed, if_true]
      exact h
  | false =>
      simp only [Prog.read_bind, Prog.wp_act, hclosed, Bool.false_eq_true,
        if_false]
      apply wp_still_bind (wp_still_socketIsOpen h hq hs)
      intro isOpen ph cs s0 s' hmid hq hs'
      cases isOpen with
      | false => exact hmid
      | true =>
          simp only [if_true]
          apply wp_bufferedAmount hmid hq hs'
          intro amount s' hmid hq hs' _
          split
          · exact hmid
          · apply wp_move rfl rfl hmid ((hs'.trans hs.symm).trans hclosed)
            · refine ⟨Or.inr ?_, hq.unmoved hbegun.unmoved⟩
              rcases hbegun with ⟨before, hbefore, _⟩
              rcases hq with ⟨b, hb, _⟩
              refine ⟨exitCode, signal, before, b, ?_, rfl⟩
              show s'.log = _
              rw [hb]
              simp [hbefore]
            · intro cs' s0' s' hmid
              exact Calm.kept (wp_logger _ hmid (Quietly.refl n s'))

theorem Mid.pushDisposable (h : Mid o n cs s0 s) :
    Mid o n cs s0 s.pushDisposable :=
  ⟨⟨h.inv.good, h.inv.numbered, h.inv.flag, h.inv.closing, h.inv.pending⟩,
    h.guar, h.own, h.live, h.known⟩

theorem wp_subscribeAll (srcs : List Source) (h : Mid o n cs s0 s)
    (hq : Quietly n s1 s) :
    Wp o n (Calm o n s1) (subscribeAll srcs) ph cs s0 s := by
  induction srcs generalizing ph cs s0 s with
  | nil => exact ⟨h, hq⟩
  | cons src rest ih =>
      apply wp_idle rfl h hq
      intro cs' s0' s' r hmid hquiet
      cases r with
      | error x => exact ⟨hmid, hquiet⟩
      | ok a => exact ih hmid.pushDisposable hquiet

theorem wp_construct (h : Mid o n cs s0 s) :
    Wp o n (Kept o n) (construct o) ph cs s0 s := by
  unfold construct
  split
  · exact h
  · split
    · exact h
    · apply Prog.wp_bind.mpr
      apply Prog.wp_tryCatch.mpr
      apply Prog.wp_mono _ (wp_subscribeAll _ h (Quietly.refl n s))
      intro res ph' cs' s0' s' hcalm
      cases res with
      | ok a => exact Calm.kept (wp_logger _ hcalm.1 hcalm.2)
      | error e =>
          apply Prog.wp_bind.mpr
          apply Prog.wp_mono _ (wp_logger _ hcalm.1 hcalm.2)
          intro res ph cs s0 s hcalm
          cases res with
          | error x => exact hcalm.1
          | ok a =>
              apply Prog.wp_bind.mpr
              apply Prog.wp_mono _ (wp_shutdown _ _ _ hcalm.1 hcalm.2)
              intro res ph cs s0 s hcalm
              cases res with
              | error x => exact hcalm.1
              | ok a => exact hcalm.1

theorem wp_exit {exitCode : Int} {signal : Option Int}
    (hbegun : Begun n (Event.exit exitCode signal) s)
    (h : Mid o n cs s0 s) :
    Wp o n (Kept o n) (handle o (Event.exit exitCode signal)) ph cs s0 s := by
  unfold handle
  cases hclosed : s.closed with
  | true =>
      simp only [Prog.read_bind, Prog.wp_act, hclosed, if_true]
      exact h
  | false =>
      simp only [Prog.read_bind, Prog.wp_act, hclosed, Bool.false_eq_true,
        if_false]
      apply wp_still_bind (wp_still_logger _ h (Quietly.refl n s) rfl)
      intro _ ph cs s0 s' hmid hquiet hsame
      apply Prog.wp_bind.mpr
      apply Prog.wp_mono _ (wp_sendLifecycleError hbegun hmid hquiet hsame)
      intro res ph' cs' s0' s' hmid'
      cases res with
      | ok a =>
          exact Calm.kept (wp_shutdown _ _ _ hmid' (Quietly.refl n s'))
      | error e => exact hmid'

theorem wp_handle (ev : Event) (hbegun : Begun n ev s) (h : Mid o n cs s0 s) :
    Wp o n (Kept o n) (handle o ev) ph cs s0 s := by
  cases ev with
  | construct => exact wp_construct h
  | message data isBinary => exact wp_handleMessage hbegun h
  | data data => exact wp_handleOutput hbegun h
  | exit exitCode signal => exact wp_exit hbegun h
  | socketClosed => exact Calm.kept (wp_shutdown _ _ _ h (Quietly.refl n s))
  | socketError =>
      unfold handle
      cases hclosed : s.closed with
      | true =>
          simp only [Prog.read_bind, Prog.wp_act, hclosed, if_true]
          exact h
      | false =>
          simp only [Prog.read_bind, Prog.wp_act, hclosed, Bool.false_eq_true,
            if_false]
          exact wp_log_and_shutdown _ _ _ _ h
  | close code reason =>
      exact Calm.kept (wp_shutdown _ _ _ h (Quietly.refl n s))

end Rules

/-!
## Every run keeps the contract
-/

theorem Mid.leave {o : Options} {n : Nat} {cs : Census} {s0 s : State}
    (h : Mid o n cs s0 s) :
    Inv o (cs.without n) (s.record (Entry.ended n)) ∧
      Guar n s0 (s.record (Entry.ended n)) := by
  have hended := h.record (e := Entry.ended n) trivial rfl rfl
  refine ⟨⟨hended.inv.good, hended.inv.numbered, hended.inv.flag,
    hended.inv.closing, ?_⟩, hended.guar⟩
  intro hclosed
  rcases hended.inv.pending hclosed with hkilled | ⟨m, hm, hlive⟩
  · exact Or.inl hkilled
  · by_cases hmn : m = n
    · rw [hmn] at hm
      exact Or.inl (hended.own hm)
    · exact Or.inr ⟨m, hm, hmn, hlive⟩

theorem Inv.begin {o : Options} {cs : Census} {s : State}
    (h : Inv o cs s) (ev : Event) :
    Mid o cs.next cs.enter s ((bridge o).enter cs.next ev s) ∧
      Begun cs.next ev ((bridge o).enter cs.next ev s) := by
  have hfresh : forall e, e ∈ s.log -> e.by ≠ some cs.next := by
    intro e he hby
    exact Nat.lt_irrefl _ (h.numbered e he cs.next hby)
  have hstart : Inv o cs.enter { s with constructed := true } := by
    refine ⟨h.good, ?_, h.flag, h.closing, ?_⟩
    · intro e he m hm
      exact Nat.lt_succ_of_lt (h.numbered e he m hm)
    · intro hclosed
      rcases h.pending hclosed with hkilled | ⟨m, hm, hlive⟩
      · exact Or.inl hkilled
      · exact Or.inr ⟨m, hm, Or.inr hlive⟩
  have hmid : Mid o cs.next cs.enter s { s with constructed := true } := by
    refine ⟨hstart, ⟨[], by simp, nofun⟩, ?_, Or.inl rfl, Nat.lt_succ_self _⟩
    intro hc
    exact absurd hc (closer_none_of_by hfresh)
  constructor
  · exact hmid.record (e := Entry.received cs.next ev) hfresh rfl rfl
  · refine ⟨s.log, rfl, ?_⟩
    intro c hc
    exact absurd rfl (hfresh _ hc)

theorem contract_sound (o : Options) : (contract o).Sound (bridge o) := by
  constructor
  · intro b n s
    exact Rely.refl n s
  · intro b n s s' s'' h h'
    exact h.trans h'
  · intro cs n m s s' b _ hne hguar
    exact Guar.rely hne hguar
  · intro cs n m s s' _ hne hguar
    exact Guar.rely hne hguar
  · intro cs s s' _ henv
    exact absurd henv (fun h => h)
  · intro cs s ev _ hinv _
    have hbegin := hinv.begin ev
    apply Prog.wp_mono _ (wp_handle ev hbegin.2 hbegin.1)
    intro res ph' cs' s0' s' hmid
    exact hmid.leave

theorem Inv.initial (o : Options) :
    Inv o ⟨0, fun _ => False⟩ State.initial := by
  refine ⟨everyEntry_nil _, nofun, ?_, ?_, nofun⟩
  · constructor
    · intro h
      cases h
    · intro h
      cases h
  · constructor
    · intro h
      cases h
    · intro h
      cases h

theorem Run.inv {o : Options} {cfg : Config State ports Thrown Unit Event}
    (h : Run o cfg) : Inv o cfg.census cfg.shared :=
  (Reachable.ok (contract_sound o) (Inv.initial o) h).inv

/-!
## What the log of a run says
-/

/-- The log of a bridge that moves data only with authority. -/
structure UnderAuthority (o : Options) (log : List Entry) : Prop where
  /-- Every event is received once. -/
  received : forall n ev ev' a b a' b',
    log = a ++ Entry.received n ev :: b ->
    log = a' ++ Entry.received n ev' :: b' -> a = a' ∧ ev = ev' ∧ b = b'
  written : forall before n d after,
    log = before ++ Entry.called n (PortCall.effect (Effect.write d)) ::
      after ->
    AuthenticatedInput o before n d ∧ Unmoved n before ∧ Unmoved n after
  resized : forall before n cols rows after,
    log = before ++
      Entry.called n (PortCall.effect (Effect.resize cols rows)) :: after ->
    AcceptedResize o before n cols rows ∧ Unmoved n before ∧ Unmoved n after
  /-- What is sent is output that had room, or the notice of the exit. -/
  sent : forall before n frame after,
    log = before ++ Entry.called n (PortCall.effect (Effect.send frame)) ::
      after ->
    OutputWithRoom o before n frame ∨ ExitNotice o before n frame
  silent : forall before n c after,
    log = before ++ Entry.closed :: after -> Entry.called n c ∈ after ->
    needsOpen c = false
  killed : forall before n after,
    log = before ++ Entry.called n (PortCall.effect Effect.kill) :: after ->
    Entry.closed ∈ before ∧ ¬ Killed before ∧ ¬ Killed after
  /-- The handler that shuts the bridge down does nothing else before the
  terminal is killed. -/
  prompt : forall before n c after,
    log = before ++ Entry.called n c :: after -> closer before = some n ->
    Killed before ∨ prompt c = true

section Log

variable {o : Options} {log : List Entry} (h : EveryEntry (Good o) log)

include h

theorem received_once {n : Nat} {ev ev' : Event} {a b a' b' : List Entry}
    (ha : log = a ++ Entry.received n ev :: b)
    (ha' : log = a' ++ Entry.received n ev' :: b') :
    a = a' ∧ ev = ev' ∧ b = b' := by
  have hnot : forall (x y : List Entry) (e e' : Event) (w w' : List Entry),
      log = x ++ Entry.received n e :: w ->
      log = x ++ Entry.received n e :: y ++ Entry.received n e' :: w' ->
      False := by
    intro x y e e' w w' _ hlater
    have hgood := h _ _ _ hlater
    exact hgood (Entry.received n e) (by simp) rfl
  rcases List.append_eq_append_iff.mp (ha.symm.trans ha') with
    ⟨c, hc, hb⟩ | ⟨c, hc, hb⟩
  · cases c with
    | nil =>
        simp at hc hb
        exact ⟨hc.symm, hb.1, hb.2⟩
    | cons x c =>
        simp at hb
        rw [hc, ← hb.1] at ha'
        exact absurd ha' (fun hlog => hnot a c ev ev' b b' ha (by simpa using hlog))
  · cases c with
    | nil =>
        simp at hc hb
        exact ⟨hc, hb.1.symm, hb.2.symm⟩
    | cons x c =>
        simp at hb
        rw [hc, ← hb.1] at ha
        exact absurd ha
          (fun hlog => hnot a' c ev' ev b' b ha' (by simpa using hlog))

theorem unmoved_after {before after : List Entry} {n : Nat} {c : PortCall}
    (hlog : log = before ++ Entry.called n c :: after)
    (hc : moves c = true) : Unmoved n after := by
  intro d hd
  rcases List.append_of_mem hd with ⟨x, y, hxy⟩
  have hgood := h (before ++ Entry.called n c :: x) (Entry.called n d) y
    (by rw [hlog, hxy]; simp)
  have hearlier : ¬ Unmoved n (before ++ Entry.called n c :: x) := by
    intro hun
    have hfalse := hun c (by simp)
    rw [hc] at hfalse
    cases hfalse
  cases d with
  | effect e =>
      cases e with
      | write d => exact absurd hgood.2.2.2.2 hearlier
      | resize cols rows => exact absurd hgood.2.2.2.2 hearlier
      | send frame => exact absurd hgood.2.2.2.2 hearlier
      | subscribe src => rfl
      | dispose i => rfl
      | closeSocket code reason => rfl
      | terminate => rfl
      | kill => rfl
      | onActivity => rfl
  | readyState => rfl
  | bufferedAmount => rfl
  | authenticate => rfl
  | log event => rfl

theorem underAuthority : UnderAuthority o log := by
  constructor
  · intro n ev ev' a b a' b' ha ha'
    exact received_once h ha ha'
  · intro before n d after hlog
    have hgood := h _ _ _ hlog
    exact ⟨hgood.2.2.2.1, hgood.2.2.2.2, unmoved_after h hlog rfl⟩
  · intro before n cols rows after hlog
    have hgood := h _ _ _ hlog
    exact ⟨hgood.2.2.2.1, hgood.2.2.2.2, unmoved_after h hlog rfl⟩
  · intro before n frame after hlog
    exact (h _ _ _ hlog).2.2.2.1
  · intro before n c after hlog hmem
    rcases List.append_of_mem hmem with ⟨x, y, hxy⟩
    have hgood := h (before ++ Entry.closed :: x) (Entry.called n c) y
      (by rw [hlog, hxy]; simp)
    cases hneeds : needsOpen c with
    | false => rfl
    | true => exact absurd (by simp) (hgood.1 hneeds)
  · intro before n after hlog
    have hgood := h _ _ _ hlog
    refine ⟨(hgood.2.1 rfl).1, hgood.2.2.2, ?_⟩
    rintro ⟨m, hm⟩
    rcases List.append_of_mem hm with ⟨x, y, hxy⟩
    have hsecond := h
      (before ++ Entry.called n (PortCall.effect Effect.kill) :: x)
      (Entry.called m (PortCall.effect Effect.kill)) y
      (by rw [hlog, hxy]; simp)
    exact hsecond.2.2.2 ⟨n, by simp⟩
  · intro before n c after hlog hown
    exact (h _ _ _ hlog).2.2.1 hown

end Log

/--
Terminal input and output only under live authority, in every run.  A closed
bridge has killed its terminal unless the handler that shuts it down is still
at work.
-/
theorem moves_only_under_authority {o : Options}
    {cfg : Config State ports Thrown Unit Event} (hrun : Run o cfg) :
    UnderAuthority o cfg.shared.log ∧
      (cfg.shared.closed = true <-> Entry.closed ∈ cfg.shared.log) ∧
      (cfg.shared.closed = true -> Killed cfg.shared.log ∨
        exists f, f ∈ cfg.stack ∧ closer cfg.shared.log = some f.id) ∧
      (cfg.shared.closed = true -> cfg.stack = [] ->
        Killed cfg.shared.log) := by
  have hok := Reachable.ok (contract_sound o) (Inv.initial o) hrun
  have hpending : cfg.shared.closed = true -> Killed cfg.shared.log ∨
      exists f, f ∈ cfg.stack ∧ closer cfg.shared.log = some f.id := by
    intro hclosed
    rcases hok.inv.pending hclosed with hkilled | ⟨m, hm, f, hf, hid⟩
    · exact Or.inl hkilled
    · right
      rcases List.mem_append.mp hf with hf | hf
      · exact ⟨f, hf, by rw [hm, hid]⟩
      · exact absurd (hok.parked f hf) (boundary_ne_await f.call)
  refine ⟨underAuthority hok.inv.good, hok.inv.flag, hpending, ?_⟩
  intro hclosed hidle
  rcases hpending hclosed with hkilled | ⟨f, hf, _⟩
  · exact hkilled
  · rw [hidle] at hf
    cases hf

/-!
Such runs exist: a bridge whose ports do not fail opens, and then writes every
input it accepts.
-/

section Progress

variable {o : Options}

theorem opens (hid : isSessionId o.sessionId = true)
    (hint : o.maxBufferedBytes.den = 1) (hpos : 0 < o.maxBufferedBytes) :
    exists log, Run o ⟨⟨true, false, 5, log⟩, [], [], 1⟩ := by
  have hbody : construct o = (do
      tryCatch
        (subscribeAll [Source.message, Source.data, Source.exit,
          Source.close, Source.error])
        (fun _ => do
          logger LogEvent.terminal_setup_failed
          shutdown 1011 Reason.terminal_setup_failed true
          throw Thrown.setupFailed)
      logger LogEvent.terminal_opened) := by
    unfold construct
    simp [hid, hint, hpos]
  have h0 : Run o (Config.initial State.initial) :=
    Relation.ReflTransGen.refl
  have h1 : Run o _ := h0.tail
    (Step.enter Event.construct
      (by simp [bridge, Config.initial, State.initial])
      (Seg.of_eq hbody (Seg.stop nofun)))
  have h2 : Run o _ := h1.tail
    (Step.answer (Except.ok ()) trivial (Seg.act (Seg.stop nofun)))
  have h3 : Run o _ := h2.tail
    (Step.answer (Except.ok ()) trivial (Seg.act (Seg.stop nofun)))
  have h4 : Run o _ := h3.tail
    (Step.answer (Except.ok ()) trivial (Seg.act (Seg.stop nofun)))
  have h5 : Run o _ := h4.tail
    (Step.answer (Except.ok ()) trivial (Seg.act (Seg.stop nofun)))
  have h6 : Run o _ := h5.tail
    (Step.answer (Except.ok ()) trivial
      (Seg.act (Seg.sync () rfl trivial Seg.ret)))
  exact ⟨_, h6⟩

theorem forwards {n k : Nat} {log : List Entry} {data : RawData}
    {isBinary : Bool} {d : JsString}
    (hrun : Run o ⟨⟨true, false, k, log⟩, [], [], n⟩)
    (hparse : parseClientMessage data isBinary =
      Except.ok (ClientMessage.input o.sessionId d)) :
    exists log', Run o ⟨⟨true, false, k, log'⟩, [], [], n + 1⟩ ∧
      Entry.called n (PortCall.effect (Effect.write d)) ∈ log' := by
  have hbody : handleMessage o data isBinary = Prog.act id (fun s =>
      if s.closed then pure ()
      else do
        let authenticated ← authenticateInput
        if authenticated then do
          markActivity
          write d
        else pure ()) := by
    unfold handleMessage
    simp only [hparse, Prog.read_bind]
    simp [ClientMessage.sessionId]
  have h1 : Run o _ := hrun.tail
    (Step.enter (Event.message data isBinary)
      (by simp [bridge])
      (Seg.of_eq hbody (Seg.act (Seg.stop nofun))))
  have h2 : Run o _ := h1.tail
    (Step.answer (Except.ok true) trivial
      (Seg.sync (Except.ok ()) rfl trivial (Seg.act (Seg.stop nofun))))
  have h3 : Run o _ := h2.tail
    (Step.answer (Except.ok ()) trivial Seg.ret)
  refine ⟨_, h3, ?_⟩
  simp [bridge, State.record]

end Progress

def sampleSession : JsString :=
  js "123e4567-e89b-42d3-a456-426614174000"

def sampleInput : JsString :=
  js "\x7b\"v\":1,\"type\":\"input\",\"sessionId\":\"" ++ sampleSession ++
    js "\",\"data\":\"ls\"\x7d"

theorem moves_only_under_authority_ls :
    exists cfg, Run ⟨sampleSession, 65536⟩ cfg ∧
      Entry.called 1 (PortCall.effect (Effect.write (js "ls"))) ∈
        cfg.shared.log ∧
      UnderAuthority ⟨sampleSession, 65536⟩ cfg.shared.log ∧
      (cfg.shared.closed = true -> cfg.stack = [] ->
        Killed cfg.shared.log) := by
  have hparse : parseClientMessage (RawData.text sampleInput) false =
      Except.ok (ClientMessage.input sampleSession (js "ls")) := by
    decide +kernel
  rcases opens (o := ⟨sampleSession, 65536⟩) (by decide +kernel)
    (by decide +kernel) (by decide +kernel) with ⟨log, hopen⟩
  rcases forwards hopen hparse with ⟨log', hrun, hmem⟩
  have hsafe := moves_only_under_authority hrun
  exact ⟨_, hrun, hmem, hsafe.1, hsafe.2.2.2⟩

end TerminalBridge
end Server
end FlanTerminal

import FlanTerminal.Server.TabStoreFile

/-!
# Memory and file of the tab store

Every operation works alone, so what it does is described from the state that
it finds.  The summary of the log says what an entry to come may be; an
operation owes that its entries are of that kind.
-/

namespace FlanTerminal
namespace Server
namespace TabStore

open Foundation
open Shared

/-!
## The summary of a log
-/

/--
`document` is the last one that a store has held, `memory` the one of this
process; `last` the last operation of this process that has had its turn;
`running` the one at work, with what it has found.  The rest is about the calls
of that operation: whether one has thrown, the first exception of those on the
directory, whether the primary file has been replaced, and whether the
synchronisation after it is over.
-/
structure View where
  document : Option PersistedTabsDocument
  memory : Option PersistedTabsDocument
  ready : Bool
  last : Option Nat
  running : Option (Nat × Op × Held)
  failed : Bool
  directory : Option Failure
  renamed : Bool
  synced : Bool

def View.initial : View :=
  ⟨none, none, false, none, none, false, none, false, false⟩

def isDirectoryCall : PortCall -> Bool
  | PortCall.run Action.openDirectory => true
  | PortCall.run Action.syncDirectory => true
  | PortCall.run Action.closeDirectory => true
  | _ => false

def isSynced : Option Failure -> Bool
  | none => true
  | some f => isUnsupportedDirectorySync f

def Op.waits : Op -> Bool
  | Op.initializeStore => true
  | Op.mutate _ => true
  | _ => false

def View.after (v : View) : Entry -> View
  | Entry.started n o held =>
      ⟨v.document, v.memory, v.ready, some n, some (n, o, held), false, none,
        false, false⟩
  | Entry.failed _ c f =>
      { v with
        failed := true
        directory :=
          if isDirectoryCall c then v.directory.or (some f) else v.directory }
  | Entry.renamed _ => { v with renamed := true }
  | Entry.loaded _ document =>
      { v with document := some document, memory := some document, ready := true }
  | Entry.committed _ document =>
      { v with document := some document, memory := some document }
  | Entry.synced _ failure =>
      { v with ready := isSynced failure, synced := true }
  | Entry.settled _ o _ _ => if o.waits then { v with running := none } else v
  | Entry.restarted =>
      ⟨v.document, none, false, none, none, false, none, false, false⟩

abbrev summary (log : List Entry) : View :=
  replay View.after View.initial log

/-!
## What an operation may come to
-/

def Stored (options : Options) (primary : Option (List UInt8))
    (document : PersistedTabsDocument) : Prop :=
  exists bytes, primary = some bytes ∧ bytes.length ≤ MAX_DOCUMENT_BYTES ∧
    storedDocument options bytes = some document

def Proper (options : Options) (document : PersistedTabsDocument) : Prop :=
  Valid options.nfc document ∧ document.tabs.length ≤ options.sessionMaxCount

/-- What `mutate` does apart from the calls: it refuses, has nothing to do, or
writes a document. -/
def decision (options : Options) (sources : Sources)
    (current : PersistedTabsDocument) (m : Mutation) :
    Except Thrown (Option PersistedTabsDocument) := do
  match ← build options sources current m with
  | none => pure none
  | some candidate =>
      let next ← accept (parseDocument options.nfc candidate)
      if MAX_DOCUMENT_BYTES < utf8ByteLength next.serialized then
        throw Thrown.failed
      else pure (some next)

/-- What a mutation resolves with once its document has been taken over. -/
def answered (sources : Sources) (next : PersistedTabsDocument) :
    Mutation -> Value
  | Mutation.create _ => Value.tab (find next.tabs sources.randomUUID)
  | Mutation.ensureInitialTab =>
      Value.tab (find next.tabs sources.randomUUID)
  | Mutation.rename id _ => Value.tab (find next.tabs id)
  | Mutation.reorder _ _ => Value.tabs next
  | Mutation.setDesiredState id _ => Value.tab (find next.tabs id)
  | Mutation.remove _ => Value.done
  | Mutation.flushActivity _ _ => Value.done

inductive Mutated (options : Options) (v : View) (found : Held)
    (m : Mutation) : Except Rejection Value -> Held -> Prop where
  | absent : found.document = none -> v.renamed = false ->
      Mutated options v found m
        (Except.error (Rejection.thrown Thrown.not_initialized)) found
  | refused {c : PersistedTabsDocument} {sources : Sources} {t : Thrown} :
      found.document = some c ->
      decision options sources c m = Except.error t -> v.renamed = false ->
      Mutated options v found m (Except.error (Rejection.thrown t)) found
  | failed {e : Rejection} : v.failed = true -> v.renamed = false ->
      Mutated options v found m (Except.error e) found
  | nothing {c : PersistedTabsDocument} {sources : Sources} :
      found.document = some c ->
      decision options sources c m = Except.ok none -> v.renamed = false ->
      Mutated options v found m (Except.ok (nothingDone m)) found
  | written {c next : PersistedTabsDocument} {sources : Sources} :
      found.document = some c ->
      decision options sources c m = Except.ok (some next) ->
      v.renamed = true -> v.synced = true ->
      Mutated options v found m (Except.ok (answered sources next m))
        ⟨some next, some (utf8Bytes next.serialized)⟩

inductive Initialised (options : Options) (v : View) (found : Held) :
    Except Rejection Value -> Held -> Prop where
  | already {c : PersistedTabsDocument} : found.document = some c ->
      v.renamed = false ->
      Initialised options v found
        (Except.error (Rejection.thrown Thrown.already_initialized)) found
  | unreadable : found.document = none -> found.primary.isSome = true ->
      (forall d, ¬ Stored options found.primary d) -> v.renamed = false ->
      Initialised options v found
        (Except.error (Rejection.thrown Thrown.failed)) found
  | failed {e : Rejection} : v.failed = true -> v.renamed = false ->
      Initialised options v found (Except.error e) found
  | loaded {d : PersistedTabsDocument} : found.document = none ->
      Stored options found.primary d -> v.renamed = false ->
      Initialised options v found (Except.ok Value.done)
        ⟨some d, found.primary⟩
  | created : found.document = none -> found.primary = none ->
      v.renamed = true -> v.synced = true ->
      Initialised options v found (Except.ok Value.done)
        ⟨some emptyDocument, some (utf8Bytes emptyDocument.serialized)⟩

def Ending (options : Options) (v : View) (found : Held) :
    Op -> Except Rejection Value -> Held -> Prop
  | Op.initializeStore => Initialised options v found
  | Op.mutate m => Mutated options v found m
  | _ => fun _ _ => False

/-- The operations that take over a new document, with the document before. -/
inductive Writes (options : Options) :
    Option PersistedTabsDocument -> Op -> PersistedTabsDocument -> Prop where
  | created : Writes options none Op.initializeStore emptyDocument
  | mutated {c next : PersistedTabsDocument} {sources : Sources}
      {m : Mutation} : decision options sources c m = Except.ok (some next) ->
      Writes options (some c) (Op.mutate m) next

def Matches (options : Options) (v : View) (held : Held) : Prop :=
  held.document = v.memory ∧
    forall d, held.document = some d ->
      v.document = some d ∧ Stored options held.primary d

def View.At (v : View) (n : Nat) : Prop :=
  v.last = some n ∧ exists o found, v.running = some (n, o, found)

/-- The entries that can come after a log with this summary. -/
def Good (options : Options) (v : View) : Entry -> Prop
  | Entry.started n o held =>
      v.running = none ∧ (forall m, v.last = some m -> m < n) ∧
        o.waits = true ∧ Matches options v held
  | Entry.failed n _ _ => v.At n
  | Entry.renamed n => v.At n
  | Entry.loaded n document =>
      v.At n ∧ v.memory = none ∧ Proper options document ∧
        forall c, v.document = some c -> document = c
  | Entry.committed n document =>
      Proper options document ∧ v.renamed = true ∧
        exists o found, v.running = some (n, o, found) ∧
          Writes options v.document o document
  | Entry.synced n failure =>
      v.At n ∧ v.memory.isSome = true ∧ v.renamed = true ∧
        failure = v.directory
  | Entry.settled n o res held =>
      Matches options v held ∧
        (o.waits = false -> look held.document v.ready o = some res) ∧
        (o.waits = true -> exists found, v.running = some (n, o, found) ∧
          Ending options v found o res held)
  | Entry.restarted => True

/-!
## The store and the summary of its log
-/

structure Core where
  document : Option PersistedTabsDocument
  ready : Bool
  files : Files
  view : View

def State.core (s : State) : Core :=
  ⟨s.document, s.ready, s.files, summary s.log⟩

def Core.held (k : Core) : Held :=
  ⟨k.document, k.files.primary⟩

def Core.record (e : Entry) (k : Core) : Core :=
  { k with view := k.view.after e }

structure Sound (options : Options) (k : Core) : Prop where
  memory : k.document = k.view.memory
  document : forall d, k.document = some d -> k.view.document = some d
  proper : forall d, k.view.document = some d -> Proper options d
  stored : forall d, k.view.document = some d ->
    Stored options k.files.primary d
  ready : k.ready = k.view.ready

/-- Nobody works, and the operations to come have at least this number. -/
structure Idle (options : Options) (n : Nat) (k : Core) : Prop where
  sound : Sound options k
  running : k.view.running = none
  last : forall m, k.view.last = some m -> m < n

structure Busy (options : Options) (n : Nat) (k : Core) : Prop where
  sound : Sound options k
  at_ : k.view.At n

def Logged (options : Options) (s : State) : Prop :=
  EveryStep View.after View.initial (Good options) s.log

def Holds (options : Options) (Q : Core -> Prop) (s : State) : Prop :=
  Q s.core ∧ Logged options s

section Rules

variable {options : Options} {n : Nat}

theorem core_record (e : Entry) (s : State) :
    (s.record e).core = s.core.record e := by
  show Core.mk _ _ _ (replay View.after View.initial (s.log ++ [e])) = _
  rw [replay_snoc]
  rfl

theorem logged_record {e : Entry} {s : State} (h : Logged options s)
    (he : Good options s.core.view e) : Logged options (s.record e) :=
  everyStep_snoc.mpr ⟨h, he⟩

theorem Sound.matches {k : Core} (h : Sound options k) :
    Matches options k.view k.held := by
  refine ⟨h.memory, ?_⟩
  intro d hd
  have hview := h.document d hd
  exact ⟨hview, h.stored d hview⟩

theorem called_look {o : Op} {s : State} {res : Except Rejection Value}
    (hlook : look s.document s.ready o = some res) :
    (store options).called n o s =
      s.record (Entry.settled n o res s.held) := by
  have hfront : ((store options).front n o s).2 = some res := hlook
  unfold Serial.called
  rw [hfront]
  rfl

theorem called_waits {o : Op} {s : State}
    (hlook : look s.document s.ready o = none) :
    (store options).called n o s = s := by
  have hfront : ((store options).front n o s).2 = none := hlook
  unfold Serial.called
  rw [hfront]
  rfl

theorem waits_of_look {document : Option PersistedTabsDocument} {ready : Bool}
    {o : Op} {res : Except Rejection Value}
    (h : look document ready o = some res) : o.waits = false := by
  cases o with
  | initializeStore => cases h
  | mutate m => cases h
  | snapshot => rfl
  | has id => rfl
  | durabilityReady => rfl

theorem called_core {o : Op} {s : State} :
    ((store options).called n o s).core = s.core := by
  cases hlook : look s.document s.ready o with
  | none => rw [called_waits hlook]
  | some res =>
      rw [called_look hlook, core_record]
      show Core.mk _ _ _ (if o.waits then _ else _) = _
      rw [waits_of_look hlook]
      rfl

theorem called_logged {o : Op} {s : State} (hsound : Sound options s.core)
    (h : Logged options s) : Logged options ((store options).called n o s) := by
  cases hlook : look s.document s.ready o with
  | none =>
      rw [called_waits hlook]
      exact h
  | some res =>
      rw [called_look hlook]
      apply logged_record h
      refine ⟨hsound.matches, fun _ => ?_, fun hwaits => ?_⟩
      · rw [← hsound.ready]
        exact hlook
      · rw [waits_of_look hlook] at hwaits
        cases hwaits

def rules (options : Options) : Serial.Rules (store options) where
  idle n := Holds options (Idle options n)
  busy n := Holds options (Busy options n)
  drift s s' := s'.core = s.core
  refl _ := rfl
  trans h h' := h'.trans h
  idle_called := by
    intro k n o s h _ _
    constructor
    · rw [called_core]
      exact h.1
    · exact called_logged h.1.sound h.2
  busy_called := by
    intro m n o s h _ _
    constructor
    · rw [called_core]
      exact h.1
    · exact called_logged h.1.sound h.2
  called _ := called_core
  idle_env _ h := h.elim
  busy_env _ h := h.elim
  env h := h.elim

/-!
## Rules for the work of one operation
-/

def Spec (options : Options) (n : Nat) {result : Type} (pre : Core -> Prop)
    (p : Code result) (post : Except Rejection result -> Core -> Prop) :
    Prop :=
  (rules options).triple n (Holds options pre) p fun res =>
    Holds options (post res)

def Core.replied (n : Nat) (c : PortCall) (r : PortReply c) (k : Core) : Core :=
  { k with
    files := k.files.after c r
    view := (noted n c r).toList.foldl View.after k.view }

theorem core_reply (c : PortCall) (r : PortReply c) (s : State) :
    (reply n c r s).core = s.core.replied n c r := by
  show Core.mk _ _ _ (replay View.after View.initial (s.log ++ _)) =
    Core.mk _ _ _ _
  unfold replay
  rw [List.foldl_append]
  rfl

theorem logged_reply {c : PortCall} {r : PortReply c} {s : State}
    (hat : s.core.view.At n) (h : Logged options s) :
    Logged options (reply n c r s) := by
  show EveryStep View.after View.initial (Good options)
    (s.log ++ (noted n c r).toList)
  unfold noted
  split
  · exact everyStep_snoc.mpr ⟨h, hat⟩
  · split
    · exact everyStep_snoc.mpr ⟨h, hat⟩
    · rw [Option.toList_none, List.append_nil]
      exact h

variable {result other : Type} {pre pre' : Core -> Prop}
variable {Q Q' : Except Rejection result -> Core -> Prop}

theorem spec_ret {a : result} (h : forall k, pre k -> Q (Except.ok a) k) :
    Spec options n pre (pure a) Q :=
  Serial.Rules.triple_ret fun s hs => ⟨h s.core hs.1, hs.2⟩

theorem spec_throw {e : Rejection}
    (h : forall k, pre k -> Q (Except.error e) k) :
    Spec options n pre (throw e) Q :=
  Serial.Rules.triple_raise fun s hs => ⟨h s.core hs.1, hs.2⟩

theorem spec_consequence {p : Code result} (h : Spec options n pre p Q)
    (hpre : forall k, pre' k -> pre k)
    (hQ : forall res k, Q res k -> Q' res k) : Spec options n pre' p Q' :=
  Serial.Rules.triple_consequence h (fun s hs => ⟨hpre s.core hs.1, hs.2⟩)
    fun res s hs => ⟨hQ res s.core hs.1, hs.2⟩

theorem spec_exists {index : Type} {pre : index -> Core -> Prop}
    {p : Code result} (h : forall i, Spec options n (pre i) p Q) :
    Spec options n (fun k => exists i, pre i k) p Q := by
  intro s hs
  obtain ⟨i, hi⟩ := hs.1
  exact h i s ⟨hi, hs.2⟩

theorem spec_from {p : Code result}
    (h : forall k, pre k -> Spec options n (fun k' => k' = k) p Q) :
    Spec options n pre p Q :=
  fun s hs => h s.core hs.1 s ⟨rfl, hs.2⟩

theorem spec_bind {p : Code result} {g : result -> Code other}
    {R : Except Rejection result -> Core -> Prop}
    {Q : Except Rejection other -> Core -> Prop}
    (hp : Spec options n pre p R)
    (hg : forall a, Spec options n (R (Except.ok a)) (g a) Q)
    (hthrow : forall e k, R (Except.error e) k -> Q (Except.error e) k) :
    Spec options n pre (p >>= g) Q :=
  Serial.Rules.triple_bind hp hg
    fun e s hs => ⟨hthrow e s.core hs.1, hs.2⟩

theorem spec_tryCatch {p : Code result} {handler : Rejection -> Code result}
    {R : Except Rejection result -> Core -> Prop}
    (hp : Spec options n pre p R)
    (hret : forall a k, R (Except.ok a) k -> Q (Except.ok a) k)
    (hcatch : forall e, Spec options n (R (Except.error e)) (handler e) Q) :
    Spec options n pre (tryCatch p handler) Q :=
  Serial.Rules.triple_tryCatch hp
    (fun a s hs => ⟨hret a s.core hs.1, hs.2⟩) hcatch

theorem spec_always {p : Code result} {q : Code Unit}
    {R : Except Rejection result -> Core -> Prop}
    (hp : Spec options n pre p R)
    (hq : forall res, Spec options n (R res) q
      (Serial.Rules.lastly Q res)) :
    Spec options n pre (p.always q) Q := by
  apply Serial.Rules.triple_always hp
  intro res
  apply Serial.Rules.triple_consequence (hq res) (fun _ hs => hs)
  intro last s hs
  cases last with
  | ok a => exact hs
  | error e => exact hs

theorem spec_read {g : State -> Code result}
    (h : forall k, pre k -> forall s, s.core = k ->
      Spec options n (fun k' => k' = k) (g s) Q) :
    Spec options n pre (Prog.read >>= g) Q :=
  fun s hs => h s.core hs.1 s rfl s ⟨rfl, hs.2⟩

theorem spec_modify {f : State -> State}
    {Q : Except Rejection Unit -> Core -> Prop}
    (h : forall s, pre s.core -> Logged options s ->
      Q (Except.ok ()) (f s).core ∧ Logged options (f s)) :
    Spec options n pre (Prog.modify f) Q :=
  Serial.Rules.triple_modify fun s hs => h s hs.1 hs.2

theorem spec_record {e : Entry} {f : State -> State} {g : Core -> Core}
    {Q : Except Rejection Unit -> Core -> Prop}
    (hf : forall s, f s = { s.record e with
      document := (f s).document, ready := (f s).ready })
    (hg : forall s, (f s).core = g s.core)
    (h : forall k, pre k -> Good options k.view e ∧ Q (Except.ok ()) (g k)) :
    Spec options n pre (Prog.modify f) Q := by
  apply spec_modify
  intro s hpre hlogged
  constructor
  · rw [hg]
    exact (h s.core hpre).2
  · have hlog : (f s).log = s.log ++ [e] := by
      rw [hf]
      rfl
    show EveryStep View.after View.initial (Good options) (f s).log
    rw [hlog]
    exact everyStep_snoc.mpr ⟨hlogged, (h s.core hpre).1⟩

theorem spec_ask {c : PortCall}
    {Q : Except Rejection (PortReply c) -> Core -> Prop}
    (hbusy : forall k, pre k -> Busy options n k)
    (h : forall k r, pre k -> Allowed k.files c r ->
      Q (Except.ok r) (k.replied n c r)) :
    Spec options n pre (Prog.ask (I := ports) c) Q := by
  have hreply : forall s r, Holds options pre s -> Allowed s.files c r ->
      Holds options (Q (Except.ok r)) (reply n c r s) := by
    intro s r hs hr
    constructor
    · rw [core_reply]
      exact h s.core r hs.1 hr
    · exact logged_reply (hbusy s.core hs.1).at_ hs.2
  by_cases hc : (store options).boundary c = Boundary.sync
  · exact Serial.Rules.triple_sync hc hreply
  · apply Serial.Rules.triple_wait hc
    · exact fun s hs => ⟨hbusy s.core hs.1, hs.2⟩
    · intro s s' r hs hdrift hbusy' hr
      have hcore : s'.core = s.core := hdrift
      apply hreply s' r _ hr
      constructor
      · rw [hcore]
        exact hs.1
      · exact hbusy'.2

end Rules

end TabStore
end Server
end FlanTerminal

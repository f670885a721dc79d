import FlanTerminal.Foundation.Trace
import FlanTerminal.Foundation.Triple
import FlanTerminal.Server.BridgeRegistrySafety
import FlanTerminal.Server.SessionManager

/-!
# Rules for the session manager

An operation that is first in the queue of a key is alone with the desired state
of that tab.  The pact below says so; besides, every operation knows what it has
logged itself.  The rules give the effect of each piece of the code on these two
things.
-/

namespace FlanTerminal
namespace Server
namespace SessionManager

open Foundation
open Shared
open TabStore (Mutation Sources Committed desiredOf touched)
open BridgeRegistry (firstOf)

def Entry.number : Entry -> Nat
  | entered n _ => n
  | locked n _ _ => n
  | read n _ => n
  | committed n _ _ _ => n
  | asked n _ => n
  | answered n _ _ => n
  | probed n _ _ _ => n
  | ended n _ _ _ => n

def own (n : Nat) (log : List Entry) : List Entry :=
  log.filter fun e => decide (e.number = n)

def ownLocks (n : Nat) (mutex : List (JsString × Nat)) :
    List (JsString × Nat) :=
  mutex.filter fun x => decide (x.2 = n)

def taskOf (n : Nat) (log : List Entry) : Option Op :=
  match own n log with
  | Entry.entered _ o :: _ => some o
  | _ => none

def readBy : Entry -> Option PersistedTabsDocument
  | Entry.read _ document => some document
  | _ => none

/-- The document that an operation has read last. -/
def lastRead (events : List Entry) : Option PersistedTabsDocument :=
  (events.filterMap readBy).getLast?

theorem own_record_same {n : Nat} {s : State} {e : Entry}
    (he : e.number = n) : own n (s.record e).log = own n s.log ++ [e] := by
  simp [own, State.record, List.filter_append, he]

theorem own_record_other {n m : Nat} {s : State} {e : Entry}
    (he : e.number = n) (hne : m ≠ n) :
    own m (s.record e).log = own m s.log := by
  have hnot : ¬ n = m := fun h => hne h.symm
  simp [own, State.record, List.filter_append, he, hnot]

/-!
## The documents of a run
-/

section Histories

variable (options : TabStore.Options)

/-- A commit that gives new tabs identifiers no tab has had. -/
structure Next (history : List PersistedTabsDocument)
    (before after : PersistedTabsDocument) : Prop where
  committed : exists sources mutation,
    Committed options sources before mutation after
  fresh : forall id, id ∈ after.tabs.map TabRecord.id ->
    id ∉ before.tabs.map TabRecord.id ->
    forall document, document ∈ history ->
      id ∉ document.tabs.map TabRecord.id

inductive History : List PersistedTabsDocument -> PersistedTabsDocument ->
    Prop where
  | initial {document : PersistedTabsDocument} :
      Valid options.nfc document -> History [document] document
  | commit {history : List PersistedTabsDocument}
      {before after : PersistedTabsDocument} :
      History history before -> Next options history before after ->
      Valid options.nfc after -> History (history ++ [after]) after

end Histories

theorem History.valid {options : TabStore.Options}
    {history : List PersistedTabsDocument} {document : PersistedTabsDocument}
    (h : History options history document) : Valid options.nfc document := by
  cases h with
  | initial hvalid => exact hvalid
  | commit _ _ hvalid => exact hvalid

theorem committed_ids {options : TabStore.Options} {sources : Sources}
    {before after : PersistedTabsDocument} {mutation : Mutation}
    (h : Committed options sources before mutation after) {id : JsString}
    (hid : id ∈ after.tabs.map TabRecord.id) :
    id ∈ before.tabs.map TabRecord.id ∨ id = sources.randomUUID := by
  cases h with
  | create title tab _ haccepted =>
      rw [List.map_append] at hid
      rcases List.mem_append.mp hid with hid | hid
      · exact Or.inl hid
      · right
        rw [List.mem_singleton.mp hid, haccepted.rest]
        rfl
  | present _ => exact Or.inl hid
  | initial tab _ _ haccepted =>
      right
      rw [List.mem_singleton.mp hid, haccepted.rest]
      rfl
  | rename title tab _ _ _ =>
      rw [TabStore.ids_mapTab (f := TabStore.withDisplayName title)
        fun _ => rfl] at hid
      exact Or.inl hid
  | reorder hconflict =>
      left
      rw [TabStore.ids_renumber, TabStore.ids_chosen fun id hid =>
        (TabStore.perm_of_orderConflict hconflict).2.mem_iff.mp hid] at hid
      exact (TabStore.perm_of_orderConflict hconflict).2.mem_iff.mp hid
  | @setDesiredState _ state _ _ _ =>
      rw [TabStore.ids_mapTab (f := TabStore.withDesiredState state)
        fun _ => rfl] at hid
      exact Or.inl hid
  | remove _ _ _ =>
      left
      rw [TabStore.ids_renumber] at hid
      rcases List.mem_map.mp hid with ⟨tab, htab, heq⟩
      exact List.mem_map.mpr ⟨tab, (List.mem_filter.mp htab).1, heq⟩
  | quiet _ => exact Or.inl hid
  | flushActivity =>
      left
      rw [List.map_map] at hid
      rcases List.mem_map.mp hid with ⟨tab, htab, heq⟩
      rw [Function.comp_apply, TabStore.withLastActivity_id] at heq
      exact List.mem_map.mpr ⟨tab, htab, heq⟩

/-!
## What the log says
-/

/-- The calls that belong to an operation on one tab. -/
def ProperTo (id : JsString) : PortCall -> Prop
  | PortCall.commit mutation =>
      exists state, mutation = Mutation.setDesiredState id state
  | PortCall.exists key => key = id
  | PortCall.kill key => key = id
  | PortCall.prepare key _ => key = id
  | PortCall.closeBridge _ key _ _ => key = id
  | PortCall.replaceBridge _ _ _ => False
  | PortCall.spawn _ _ => False
  | _ => True

/-- The mutations of an operation that are not changes of a desired state. -/
def Own : Op -> Mutation -> Prop
  | Op.closeTab id, mutation => mutation = Mutation.remove id
  | Op.create name, mutation => mutation = Mutation.create name
  | Op.rename id name, mutation => mutation = Mutation.rename id name
  | Op.reorder revision ids, mutation => mutation = Mutation.reorder revision ids
  | Op.ensureInitialTab, mutation => mutation = Mutation.ensureInitialTab
  | Op.flushActivity ids now, mutation => mutation =
      Mutation.flushActivity ids now
  | _, _ => False

def Op.tab : Op -> Option JsString
  | terminate id => some id
  | terminateIfStale id _ => some id
  | recreate id => some id
  | restart id => some id
  | restartBridge id => some id
  | closeTab id => some id
  | _ => none

def Proper (o : Op) (c : PortCall) : Prop :=
  match o.tab with
  | some id => ProperTo id c ∨ exists mutation, Own o mutation ∧
      c = PortCall.commit mutation
  | none => forall mutation, c = PortCall.commit mutation -> Own o mutation

def OnTab (o : Op) (id : JsString) : Prop :=
  forall c, ProperTo id c -> Proper o c

theorem onTab {o : Op} {id : JsString} (h : o.tab = some id) : OnTab o id := by
  intro c hc
  rw [Proper, h]
  exact Or.inl hc

theorem proper_own {o : Op} {mutation : Mutation} (h : Own o mutation) :
    Proper o (PortCall.commit mutation) := by
  unfold Proper
  split
  · exact Or.inr ⟨mutation, h, rfl⟩
  · intro mutation' heq
    cases heq
    exact h

/-- An operation that is not about one tab may make every call that is not a
commit. -/
theorem proper_call {o : Op} {c : PortCall} (h : o.tab = none)
    (hc : forall mutation, c ≠ PortCall.commit mutation) : Proper o c := by
  rw [Proper, h]
  exact fun mutation heq => absurd heq (hc mutation)

inductive Mark where
  | stopped
  | active
  | closing
  | closed (success : Bool)
  | killing
  | killed (success : Bool)
  | preparing
  | prepared (success : Bool)
  /-- Any other commit. -/
  | changed
  deriving DecidableEq, Repr

def markOf : Entry -> Option Mark
  | Entry.committed _ (Mutation.setDesiredState _ DesiredState.stopped) _ _ =>
      some Mark.stopped
  | Entry.committed _ (Mutation.setDesiredState _ DesiredState.active) _ _ =>
      some Mark.active
  | Entry.committed _ _ _ _ => some Mark.changed
  | Entry.asked _ (PortCall.closeBridge _ _ _ _) => some Mark.closing
  | Entry.answered _ (PortCall.closeBridge _ _ _ _) b => some (Mark.closed b)
  | Entry.asked _ (PortCall.kill _) => some Mark.killing
  | Entry.answered _ (PortCall.kill _) b => some (Mark.killed b)
  | Entry.asked _ (PortCall.prepare _ _) => some Mark.preparing
  | Entry.answered _ (PortCall.prepare _ _) b => some (Mark.prepared b)
  | _ => none

def marks (events : List Entry) : List Mark :=
  events.filterMap markOf

/-- What an operation that ends without an answer has done after `front`. -/
inductive Rejected (front : List Mark) : List Mark -> Prop where
  | unprepared (b : Bool) : Rejected front (front ++
      [Mark.preparing, Mark.prepared false, Mark.killing, Mark.killed b])
  | uncommitted (b : Bool) : Rejected front (front ++
      [Mark.preparing, Mark.prepared true, Mark.killing, Mark.killed b])

def activation : List Mark :=
  [Mark.preparing, Mark.prepared true, Mark.active]

/-- The bridge is closed and the old session is killed. -/
def stopped (close kill : Bool) : List Mark :=
  [Mark.stopped, Mark.closing, Mark.closed close, Mark.killing,
    Mark.killed kill]

def commits (log : List Entry) : Nat :=
  log.countP fun e =>
    match e with
    | Entry.committed _ _ _ _ => true
    | _ => false

/-- Where a document that the log shows stands among those the store has
held. -/
def Placed (history : List PersistedTabsDocument) (before : List Entry) :
    Entry -> Prop
  | Entry.read _ document => history[commits before]? = some document
  | Entry.committed _ _ old new => history[commits before]? = some old ∧
      history[commits before + 1]? = some new
  | _ => True

def lockedBy : Entry -> Option PersistedTabsDocument
  | Entry.locked _ _ document => some document
  | _ => none

def probeOf : Entry -> Option (Except Unit Bool × Option Nat)
  | Entry.probed _ _ answer bridge => some (answer, bridge)
  | _ => none

/-- The tab was stopped when the critical section began, and there was neither
a session nor a bridge when the operation first asked. -/
def Idle (id : JsString) (events : List Entry) : Prop :=
  exists document, (events.filterMap lockedBy).head? = some document ∧
    desiredOf document id = some DesiredState.stopped ∧
    (events.filterMap probeOf).head? = some (Except.ok false, none)

instance (id : JsString) (events : List Entry) : Decidable (Idle id events) :=
  decidable_of_iff
    ((events.filterMap lockedBy).head?.any (fun document =>
        decide (desiredOf document id = some DesiredState.stopped)) = true ∧
      (events.filterMap probeOf).head? = some (Except.ok false, none)) (by
    unfold Idle
    rw [Option.any_eq_true]
    simp only [decide_eq_true_eq, ← and_assoc, exists_and_right])

def Terminated (id : JsString) (events : List Entry) (done : List Mark) :
    Prop :=
  (Idle id events -> done = []) ∧
    (¬ Idle id events -> done = stopped true true)

/-- A view shows the record that was read last. -/
def Viewed (events : List Entry) (id : JsString) (view : TabView) : Prop :=
  view.id = id ∧ exists document, lastRead events = some document ∧
    findRecord document id = some view.record

/-- The operation has persisted nothing, and the tab is as it was when the
critical section began. -/
def Unchanged (id : JsString) (events : List Entry)
    (document : PersistedTabsDocument) : Prop :=
  Mark.stopped ∉ marks events ∧ Mark.active ∉ marks events ∧
    exists n before, Entry.locked n id before ∈ events ∧
      desiredOf document id = desiredOf before id

structure Lifecycle (id : JsString) (front : List Mark)
    (early : List Mark -> Prop) (events : List Entry)
    (res : Except Thrown Value) (document : PersistedTabsDocument) :
    Prop where
  resolved : forall value, res = Except.ok value ->
    marks events = front ++ activation ∧
      exists view, value = Value.view view ∧ Viewed events id view
  rejected : forall thrown, res = Except.error thrown ->
    (early (marks events) ∨ Rejected front (marks events)) ∧
      (Unchanged id events document ∨
        desiredOf document id = some DesiredState.stopped)

def EarlyRestart (done : List Mark) : Prop :=
  done = [] ∨ exists close kill, (close && kill) = false ∧
    done = stopped close kill

def Collected (events : List Entry) (collection : TabCollectionResponse) :
    Prop :=
  exists front n read, events = front ++ [Entry.read n read] ∧
    collection.structureRevision = read.structureRevision ∧
    collection.tabs.map TabView.record = read.tabs

/-- The operation has answered with a view of the tab after these steps. -/
def Showed (id : JsString) (steps : List Mark -> Prop)
    (events : List Entry) (res : Except Thrown Value) : Prop :=
  forall value, res = Except.ok value ->
    exists view, value = Value.view view ∧ Viewed events id view ∧
      steps (marks events)

def Created (n : Nat) (name : Option JsString) (events : List Entry)
    (id : JsString) : Prop :=
  exists before after,
    Entry.committed n (Mutation.create name) before after ∈ events ∧
      id ∈ after.tabs.map TabRecord.id ∧ id ∉ before.tabs.map TabRecord.id

def Outcome (n : Nat) (events : List Entry) (res : Except Thrown Value)
    (document : PersistedTabsDocument) : Op -> Prop
  | Op.recreate id => Lifecycle id [] (fun done => done = []) events res document
  | Op.restart id => Lifecycle id (stopped true true) EarlyRestart events res
      document
  | Op.terminate id => Showed id (Terminated id events) events res
  | Op.restartBridge id => Showed id
      (fun done => done = [Mark.closing, Mark.closed true]) events res
  | Op.view id => Showed id (fun done => done = []) events res
  | Op.rename id _ => Showed id (fun done => done = [Mark.changed]) events res
  | Op.create name => forall value, res = Except.ok value ->
      exists view, value = Value.view view ∧ Viewed events view.id view ∧
        marks events = [Mark.changed] ∧ Created n name events view.id
  | Op.collectionView => forall value, res = Except.ok value ->
      exists collection, value = Value.collection collection ∧
        Collected events collection ∧ marks events = []
  | Op.reorder _ _ => forall value, res = Except.ok value ->
      exists collection, value = Value.collection collection ∧
        Collected events collection ∧ marks events = [Mark.changed]
  | Op.closeTab _ => forall value, res = Except.ok value ->
      value = Value.none ∧
        marks events = stopped true true ++ [Mark.changed]
  | _ => True

def Good (options : TabStore.Options) (before : List Entry) : Entry -> Prop
  | Entry.asked n c => exists o, taskOf n before = some o ∧ Proper o c
  | Entry.committed n mutation old new =>
      (exists o, taskOf n before = some o ∧
        Proper o (PortCall.commit mutation)) ∧
      exists sources, Committed options sources old mutation new
  | Entry.ended n o res document => taskOf n before = some o ∧
      Outcome n (own n before) res document o
  | _ => True

/-!
## The pact
-/

structure Keeps (m : Nat) (s s' : State) : Prop where
  locks : ownLocks m s'.mutex = ownLocks m s.mutex
  log : own m s'.log = own m s.log
  first : forall key, firstOf s.mutex key = some m ->
    firstOf s'.mutex key = some m
  desired : forall key, firstOf s.mutex key = some m -> forall state,
    desiredOf s.document key = some state ->
    desiredOf s'.document key = some state

def Over (n : Nat) (log : List Entry) : Prop :=
  exists o res document, Entry.ended n o res document ∈ log

structure Inv (options : TabStore.Options) (cs : Census) (s : State) :
    Prop where
  history : History options s.history s.document
  queue : forall x, x ∈ s.mutex -> cs.live x.2
  numbers : forall e, e ∈ s.log -> e.number < cs.next
  good : EveryEntry (Good options) s.log
  size : s.history.length = commits s.log + 1
  placed : EveryEntry (Placed s.history) s.log
  gone : forall n, Over n s.log -> ¬ cs.live n
  silent : EveryEntry (fun before e => ¬ Over e.number before) s.log

def pact (options : TabStore.Options) : Pact (manager options) where
  inv := Inv options
  keeps := Keeps
  refl _ _ := ⟨rfl, rfl, fun _ h => h, fun _ _ _ h => h⟩
  trans := by
    intro m s s' s'' h h'
    exact ⟨h'.locks.trans h.locks, h'.log.trans h.log,
      fun key hfirst => h'.first key (h.first key hfirst),
      fun key hfirst state hstate => h'.desired key (h.first key hfirst) state
        (h.desired key hfirst state hstate)⟩
  env := by
    intro cs s s' hinv henv
    cases henv with
    | registry r _ =>
        exact ⟨⟨hinv.history, hinv.queue, hinv.numbers, hinv.good, hinv.size,
            hinv.placed, hinv.gone, hinv.silent⟩,
          fun m => ⟨rfl, rfl, fun _ h => h, fun _ _ _ h => h⟩⟩

section Changes

variable {options : TabStore.Options} {n : Nat} {cs : Census} {s : State}

theorem moves_quiet {s' : State} (hinv : Inv options cs s)
    (hdocument : s'.document = s.document) (hhistory : s'.history = s.history)
    (hmutex : s'.mutex = s.mutex) (hlog : s'.log = s.log) :
    (pact options).Moves n cs s s' := by
  refine ⟨⟨?_, ?_, ?_, ?_, ?_, ?_, ?_, ?_⟩, ?_⟩
  · rw [hdocument, hhistory]
    exact hinv.history
  · rw [hmutex]
    exact hinv.queue
  · rw [hlog]
    exact hinv.numbers
  · rw [hlog]
    exact hinv.good
  · rw [hlog, hhistory]
    exact hinv.size
  · rw [hlog, hhistory]
    exact hinv.placed
  · rw [hlog]
    exact hinv.gone
  · rw [hlog]
    exact hinv.silent
  · intro m _
    refine ⟨by rw [hmutex], by rw [hlog], ?_, ?_⟩
    · rw [hmutex]
      exact fun _ h => h
    · rw [hdocument]
      exact fun _ _ _ h => h

/-- An entry that is neither a commit nor the end of an operation. -/
def Fits (s : State) : Entry -> Prop
  | Entry.read _ document => document = s.document
  | Entry.committed _ _ _ _ => False
  | Entry.ended _ _ _ _ => False
  | _ => True

theorem History.last {history : List PersistedTabsDocument}
    {document : PersistedTabsDocument} (h : History options history document) :
    history[history.length - 1]? = some document := by
  cases h with
  | initial _ => rfl
  | commit _ _ _ => simp

theorem commits_append (log log' : List Entry) :
    commits (log ++ log') = commits log + commits log' :=
  List.countP_append

theorem Inv.current (hinv : Inv options cs s) :
    s.history[commits s.log]? = some s.document := by
  have hlast := hinv.history.last
  rw [hinv.size] at hlast
  exact hlast

theorem fits_placed (hinv : Inv options cs s) {e : Entry} (h : Fits s e) :
    commits (s.log ++ [e]) = commits s.log ∧ Placed s.history s.log e := by
  cases e with
  | read m document =>
      refine ⟨commits_append _ _, ?_⟩
      rw [show document = s.document from h]
      exact hinv.current
  | committed m mutation old new => exact h.elim
  | ended m o res document => exact h.elim
  | entered m o => exact ⟨commits_append _ _, trivial⟩
  | locked m key document => exact ⟨commits_append _ _, trivial⟩
  | asked m c => exact ⟨commits_append _ _, trivial⟩
  | answered m c b => exact ⟨commits_append _ _, trivial⟩
  | probed m id answer bridge => exact ⟨commits_append _ _, trivial⟩

theorem over_snoc {m : Nat} {e : Entry} {log : List Entry}
    (he : forall n o res document, e ≠ Entry.ended n o res document)
    (h : Over m (log ++ [e])) : Over m log := by
  rcases h with ⟨o, res, document, hended⟩
  rcases List.mem_append.mp hended with hended | hended
  · exact ⟨o, res, document, hended⟩
  · exact absurd (List.mem_singleton.mp hended).symm (he m o res document)

theorem Fits.open {e : Entry} (h : Fits s e) (m : Nat) (o : Op)
    (res : Except Thrown Value) (document : PersistedTabsDocument) :
    e ≠ Entry.ended m o res document := by
  intro he
  rw [he] at h
  exact h

theorem not_over (hin : (pact options).Inside n cs s) : ¬ Over n s.log :=
  fun h => hin.inv.gone n h hin.live

theorem moves_record {e : Entry} (hin : (pact options).Inside n cs s)
    (he : e.number = n) (hfits : Fits s e) (hgood : Good options s.log e) :
    (pact options).Moves n cs s (s.record e) := by
  rcases fits_placed hin.inv hfits with ⟨hcommits, hplaced⟩
  refine ⟨⟨hin.inv.history, hin.inv.queue, ?_, ?_, ?_, ?_, ?_, ?_⟩, ?_⟩
  · intro x hx
    rcases List.mem_append.mp hx with hx | hx
    · exact hin.inv.numbers x hx
    · rw [List.mem_singleton.mp hx, he]
      exact hin.ok n hin.live
  · exact everyEntry_snoc.mpr ⟨hin.inv.good, hgood⟩
  · exact hin.inv.size.trans (congrArg (fun x => x + 1) hcommits.symm)
  · exact everyEntry_snoc.mpr ⟨hin.inv.placed, hplaced⟩
  · exact fun m hm => hin.inv.gone m (over_snoc hfits.open hm)
  · refine everyEntry_snoc.mpr ⟨hin.inv.silent, ?_⟩
    rw [he]
    exact not_over hin
  · intro m hm
    exact ⟨rfl, own_record_other he hm, fun _ h => h, fun _ _ _ h => h⟩

theorem getElem?_append_of_some {value : Type} {list : List value} {i : Nat}
    {a : value} (h : list[i]? = some a) (more : List value) :
    (list ++ more)[i]? = some a := by
  rcases List.getElem?_eq_some_iff.mp h with ⟨hi, _⟩
  rw [List.getElem?_append_left hi]
  exact h

theorem Placed.append {history before : List _} {e : Entry}
    (h : Placed history before e) (more : List PersistedTabsDocument) :
    Placed (history ++ more) before e := by
  cases e with
  | read m document => exact getElem?_append_of_some h more
  | committed m mutation old new =>
      exact ⟨getElem?_append_of_some h.1 more,
        getElem?_append_of_some h.2 more⟩
  | entered m o => trivial
  | locked m key document => trivial
  | asked m c => trivial
  | answered m c b => trivial
  | probed m id answer bridge => trivial
  | ended m o res document => trivial

theorem moves_store {sources : Sources} {mutation : Mutation}
    {after : PersistedTabsDocument} (hnfc : NormalForm options.nfc)
    (hin : (pact options).Inside n cs s)
    (hcommit : TabStore.commit options sources s.document mutation =
      some after) (hfresh : fresh s sources)
    (hproper : exists o, taskOf n s.log = some o ∧
      Proper o (PortCall.commit mutation))
    (hheld : forall key, touched mutation = some key ->
      firstOf s.mutex key = some n) :
    (pact options).Moves n cs s (s.store n mutation after) := by
  rcases TabStore.committed hnfc hin.inv.history.valid hcommit with
    ⟨hcommitted, hvalid⟩
  refine ⟨⟨?_, hin.inv.queue, ?_, ?_, ?_, ?_, ?_, ?_⟩, ?_⟩
  · refine History.commit hin.inv.history ⟨⟨sources, mutation, hcommitted⟩, ?_⟩
      hvalid
    intro id hid hnew document hdocument
    rcases committed_ids hcommitted hid with hold | huuid
    · exact absurd hold hnew
    · rw [huuid]
      exact hfresh document hdocument
  · intro x hx
    rcases List.mem_append.mp hx with hx | hx
    · exact hin.inv.numbers x hx
    · rw [List.mem_singleton.mp hx]
      exact hin.ok n hin.live
  · exact everyEntry_snoc.mpr ⟨hin.inv.good, hproper, sources, hcommitted⟩
  · show (s.history ++ [after]).length =
      commits (s.log ++ [Entry.committed n mutation s.document after]) + 1
    rw [List.length_append, hin.inv.size, commits_append]
    rfl
  · have hnew : Placed (s.history ++ [after]) s.log
        (Entry.committed n mutation s.document after) := by
      refine ⟨getElem?_append_of_some hin.inv.current _, ?_⟩
      rw [← hin.inv.size]
      exact List.getElem?_concat_length
    exact everyEntry_snoc.mpr
      ⟨hin.inv.placed.mono fun _ _ h => h.append _, hnew⟩
  · intro m hm
    exact hin.inv.gone m (over_snoc (fun _ _ _ _ => Entry.noConfusion) hm)
  · exact everyEntry_snoc.mpr ⟨hin.inv.silent, not_over hin⟩
  · intro m hm
    refine ⟨rfl, own_record_other rfl hm, fun _ h => h, ?_⟩
    intro key hfirst state hstate
    apply hcommitted.desired hin.inv.history.valid hstate
    intro htouched
    have hn := hheld key htouched
    rw [hfirst] at hn
    exact hm (Option.some.inj hn)

end Changes

/-!
## Calls
-/

/-- What an operation knows: the key it is alone with, what it has logged, and
the desired state of its tab. -/
structure Has (n : Nat) (o : Op) (q : Option JsString) (events : List Entry)
    (k : Option DesiredState) (s : State) : Prop where
  locks : ownLocks n s.mutex = (q.map fun key => (key, n)).toList
  first : forall key, q = some key -> firstOf s.mutex key = some n
  log : own n s.log = events
  task : taskOf n s.log = some o
  known : forall key state, q = some key -> k = some state ->
    desiredOf s.document key = some state

/-- An assertion about the document, the queue and the log. -/
def Blind (P : State -> Prop) : Prop :=
  forall s s', s'.document = s.document -> s'.mutex = s.mutex ->
    s'.log = s.log -> P s -> P s'

section Calls

variable {options : TabStore.Options} {n : Nat} {o : Op}
variable {q : Option JsString} {events : List Entry}
variable {k : Option DesiredState} {s s' : State}
variable {P : State -> Prop}

theorem Has.blind : Blind (Has n o q events k) := by
  intro s s' hdocument hmutex hlog h
  exact ⟨by rw [hmutex, h.locks], by rw [hmutex]; exact h.first,
    by rw [hlog, h.log], by rw [hlog, h.task], by rw [hdocument]; exact h.known⟩

theorem Has.keeps (h : Has n o q events k s) (hkeeps : Keeps n s s') :
    Has n o q events k s' := by
  refine ⟨hkeeps.locks.trans h.locks, ?_, hkeeps.log.trans h.log, ?_, ?_⟩
  · intro key hq
    exact hkeeps.first key (h.first key hq)
  · rw [taskOf, hkeeps.log]
    exact h.task
  · intro key state hq hk
    exact hkeeps.desired key (h.first key hq) state (h.known key state hq hk)

theorem taskOf_append {log : List Entry} (h : taskOf n log = some o)
    (more : List Entry) : taskOf n (log ++ more) = some o := by
  unfold taskOf at h ⊢
  rw [own, List.filter_append]
  split at h
  · rename_i m o' rest hown
    have hfilter : log.filter (fun e => decide (e.number = n)) =
        Entry.entered m o' :: rest := hown
    rw [hfilter]
    exact h
  · cases h

theorem taskOf_record {e : Entry} (h : taskOf n s.log = some o) :
    taskOf n (s.record e).log = some o :=
  taskOf_append h [e]

theorem Has.record (h : Has n o q events k s) {e : Entry}
    (he : e.number = n) : Has n o q (events ++ [e]) k (s.record e) :=
  ⟨h.locks, h.first, by rw [own_record_same he, h.log],
    taskOf_record h.task, h.known⟩

theorem Has.forget (h : Has n o q events k s) : Has n o q events none s :=
  ⟨h.locks, h.first, h.log, h.task, fun _ _ _ hk => nomatch hk⟩

theorem triple_quiet {f : State -> State} (hP : Blind P)
    (hdocument : forall s, (f s).document = s.document)
    (hhistory : forall s, (f s).history = s.history)
    (hmutex : forall s, (f s).mutex = s.mutex)
    (hlog : forall s, (f s).log = s.log) :
    (pact options).triple n P (Prog.modify f)
      (Pact.returns fun _ s => P s) := by
  apply Pact.triple_modify
  · intro cs s hin _
    exact moves_quiet hin.inv (hdocument s) (hhistory s) (hmutex s) (hlog s)
  · intro s hs
    exact hP s (f s) (hdocument s) (hmutex s) (hlog s) hs

/-- A synchronous call that leaves no trace. -/
theorem triple_silent {c : PortCall} (hc : boundary c = Boundary.sync)
    (hissue : forall s, issue n c s = s)
    (hreply : forall r s, reply options n c r s = s) :
    (pact options).triple n P (Prog.ask (I := ports) c)
      (Pact.returns fun _ s => P s) := by
  apply Pact.triple_sync hc
  intro cs s r hin hP _
  have hsame : (manager options).reply n c r ((manager options).issue n c s) =
      s := by
    show reply options n c r (issue n c s) = s
    rw [hissue, hreply]
  rw [hsame]
  exact ⟨Pact.Moves.refl hin.inv, hP⟩

theorem triple_snapshot {document : PersistedTabsDocument} :
    (pact options).triple n
      (fun s => Has n o q events k s ∧ s.document = document) snapshot
      (Pact.returns fun read s => read = document ∧
        Has n o q (events ++ [Entry.read n document]) k s ∧
          s.document = document) := by
  apply Pact.triple_sync rfl
  intro cs s r hin hP hr
  have hread : r = document := hr.trans hP.2
  have hsame : (manager options).reply n PortCall.snapshot r
      ((manager options).issue n PortCall.snapshot s) =
      s.record (Entry.read n document) := by
    rw [← hP.2]
    rfl
  rw [hsame]
  exact ⟨moves_record hin rfl hP.2.symm trivial, hread, hP.1.record rfl, hP.2⟩

theorem triple_asked {c : PortCall} (outcome : PortReply c -> Bool)
    (hc : boundary c = Boundary.await)
    (hissue : forall s, exists r,
      issue n c s = { s.record (Entry.asked n c) with registry := r })
    (hreply : forall r s, reply options n c r s =
      s.record (Entry.answered n c (outcome r)))
    (hproper : Proper o c) :
    (pact options).triple n (Has n o q events k) (Prog.ask (I := ports) c)
      (Pact.returns fun r s => Has n o q
        (events ++ [Entry.asked n c, Entry.answered n c (outcome r)]) k s) := by
  have hasked : forall s, Has n o q events k s ->
      Has n o q (events ++ [Entry.asked n c]) k (issue n c s) := by
    intro s hs
    rcases hissue s with ⟨r, hr⟩
    rw [hr]
    exact Has.blind (s.record (Entry.asked n c)) _ rfl rfl rfl (hs.record rfl)
  apply Pact.triple_await hc
  · intro cs s hin hs
    show (pact options).Moves n cs s (issue n c s)
    rcases hissue s with ⟨r, hr⟩
    rw [hr]
    have hrecord := moves_record (e := Entry.asked n c) hin rfl trivial
      ⟨o, hs.task, hproper⟩
    exact hrecord.trans (moves_quiet hrecord.1 rfl rfl rfl rfl)
  · intro cs s s' r hin hs hkeeps _
    have hwait := (hasked s hs).keeps hkeeps
    have hsame : (manager options).reply n c r s' =
        s'.record (Entry.answered n c (outcome r)) := hreply r s'
    rw [hsame]
    refine ⟨moves_record hin rfl trivial trivial, ?_⟩
    have hend := hwait.record (e := Entry.answered n c (outcome r)) rfl
    rw [List.append_assoc] at hend
    exact hend

/-- The answer about a session is logged with the bridge of that moment. -/
theorem triple_probe {id : JsString} (hproper : Proper o (PortCall.exists id)) :
    (pact options).triple n (Has n o q events k)
      (Prog.ask (I := ports) (PortCall.exists id))
      (Pact.returns fun r s => Has n o q
        (events ++ [Entry.asked n (PortCall.exists id),
          Entry.probed n id r (s.bridge id)]) k s) := by
  apply Pact.triple_await rfl
  · intro cs s hin hs
    exact moves_record (e := Entry.asked n (PortCall.exists id)) hin rfl
      trivial ⟨o, hs.task, hproper⟩
  · intro cs s s' r hin hs hkeeps _
    have hasked := hs.record (e := Entry.asked n (PortCall.exists id)) rfl
    have hwait := hasked.keeps hkeeps
    refine ⟨moves_record (e := Entry.probed n id r (s'.bridge id)) hin rfl
      trivial trivial, ?_⟩
    have hend := hwait.record (e := Entry.probed n id r (s'.bridge id)) rfl
    rw [List.append_assoc] at hend
    exact hend

theorem triple_waiting {c : PortCall} (hc : boundary c = Boundary.await)
    (hissue : forall s, issue n c s = s)
    (hreply : forall r s, reply options n c r s = s) :
    (pact options).triple n (Has n o q events k) (Prog.ask (I := ports) c)
      (Pact.returns fun _ s => Has n o q events k s) := by
  apply Pact.triple_await hc
  · intro cs s hin _
    show (pact options).Moves n cs s (issue n c s)
    rw [hissue]
    exact Pact.Moves.refl hin.inv
  · intro cs s s' r hin hs hkeeps _
    have hsame : (manager options).reply n c r s' = s' := hreply r s'
    have hissued : (manager options).issue n c s = s := hissue s
    rw [hissued] at hkeeps
    rw [hsame]
    exact ⟨Pact.Moves.refl hin.inv, hs.keeps hkeeps⟩

def knownAfter (k : Option DesiredState) : Mutation -> Option DesiredState
  | Mutation.setDesiredState _ state => some state
  | Mutation.remove _ => none
  | _ => k

theorem Has.store (hnfc : NormalForm options.nfc) {cs : Census}
    (hin : (pact options).Inside n cs s) (h : Has n o q events k s)
    {sources : Sources} {mutation : Mutation} {after : PersistedTabsDocument}
    (hcommit : TabStore.commit options sources s.document mutation =
      some after)
    (hheld : forall key, touched mutation = some key -> q = some key) :
    Has n o q (events ++ [Entry.committed n mutation s.document after])
      (knownAfter k mutation) (s.store n mutation after) := by
  have hcommitted := (TabStore.committed hnfc hin.inv.history.valid hcommit).1
  have hrecord := h.record (e := Entry.committed n mutation s.document after)
    rfl
  refine ⟨h.locks, h.first, hrecord.log, hrecord.task, ?_⟩
  intro key state hq hk
  show desiredOf after key = some state
  have hother : touched mutation ≠ some key -> k = some state ->
      desiredOf after key = some state := fun hne hk =>
    hcommitted.desired hin.inv.history.valid (h.known key state hq hk) hne
  cases mutation with
  | setDesiredState id target =>
      cases hk
      have hid := hheld id rfl
      rw [hq] at hid
      cases hid
      exact hcommitted.set.1
  | remove id => cases hk
  | create name => exact hother nofun hk
  | ensureInitialTab => exact hother nofun hk
  | rename id name => exact hother nofun hk
  | reorder revision ids => exact hother nofun hk
  | flushActivity ids now => exact hother nofun hk

def CommitPost (options : TabStore.Options) (n : Nat) (o : Op)
    (q : Option JsString) (events : List Entry) (k : Option DesiredState)
    (mutation : Mutation) :
    Except TabStore.Thrown Sources -> State -> Prop
  | Except.ok sources, s => exists before after,
      (Committed options sources before mutation after ∧
        sources.randomUUID ∉ before.tabs.map TabRecord.id) ∧
      Has n o q (events ++ [Entry.asked n (PortCall.commit mutation),
        Entry.committed n mutation before after]) (knownAfter k mutation) s
  | Except.error _, s => Has n o q
      (events ++ [Entry.asked n (PortCall.commit mutation),
        Entry.answered n (PortCall.commit mutation) false]) k s

theorem triple_commit (hnfc : NormalForm options.nfc) {mutation : Mutation}
    (hproper : Proper o (PortCall.commit mutation))
    (hheld : forall key, touched mutation = some key -> q = some key) :
    (pact options).triple n (Has n o q events k)
      (Prog.ask (I := ports) (PortCall.commit mutation))
      (Pact.returns (CommitPost options n o q events k mutation)) := by
  apply Pact.triple_await rfl
  · intro cs s hin hs
    exact moves_record (e := Entry.asked n (PortCall.commit mutation)) hin
      rfl trivial ⟨o, hs.task, hproper⟩
  · intro cs s s' r hin hs hkeeps hr
    have hasked := hs.record (e := Entry.asked n (PortCall.commit mutation)) rfl
    have hwait := hasked.keeps hkeeps
    cases r with
    | error thrown =>
        refine ⟨moves_record hin rfl trivial trivial, ?_⟩
        have hend := hwait.record
          (e := Entry.answered n (PortCall.commit mutation) false) rfl
        rw [List.append_assoc] at hend
        exact hend
    | ok sources =>
        rcases Option.isSome_iff_exists.mp hr.1 with ⟨after, hcommit⟩
        have hsame : (manager options).reply n (PortCall.commit mutation)
            (Except.ok sources) s' = s'.store n mutation after := by
          show reply options n (PortCall.commit mutation)
            (Except.ok sources) s' = _
          simp only [reply, hcommit]
        rw [hsame]
        refine ⟨moves_store hnfc hin hcommit hr.2 ⟨o, hwait.task, hproper⟩ ?_,
          s'.document, after,
          ⟨(TabStore.committed hnfc hin.inv.history.valid hcommit).1,
            hr.2 _ (List.mem_of_getElem? hin.inv.current)⟩, ?_⟩
        · intro key hkey
          exact hwait.first key (hheld key hkey)
        · have hend := hwait.store hnfc hin hcommit hheld
          rw [List.append_assoc] at hend
          exact hend

end Calls

/-!
## The mutex
-/

theorem firstOf_erase_other {queue : List (JsString × Nat)} {key : JsString}
    {m : Nat} {x : JsString × Nat} (h : firstOf queue key = some m)
    (hne : m ≠ x.2) : firstOf (queue.erase x) key = some m := by
  unfold firstOf at h ⊢
  induction queue with
  | nil => cases h
  | cons y queue ih =>
      by_cases hkey : y.1 = key
      · rw [List.find?_cons_of_pos (by simpa using hkey)] at h
        have hm : y.2 = m := Option.some.inj h
        have hxy : y ≠ x := by
          intro heq
          exact hne (by rw [← heq, hm])
        rw [List.erase_cons_tail (by simpa using hxy),
          List.find?_cons_of_pos (by simpa using hkey)]
        exact congrArg some hm
      · rw [List.find?_cons_of_neg (by simpa using hkey)] at h
        by_cases hxy : y = x
        · rw [hxy, List.erase_cons_head]
          exact h
        · rw [List.erase_cons_tail (by simpa using hxy),
            List.find?_cons_of_neg (by simpa using hkey)]
          exact ih h

structure Queued (n : Nat) (o : Op) (key : JsString) (events : List Entry)
    (s : State) : Prop where
  locks : ownLocks n s.mutex = [(key, n)]
  log : own n s.log = events
  task : taskOf n s.log = some o

section Mutex

variable {options : TabStore.Options} {n : Nat} {o : Op}
variable {events : List Entry} {key : JsString} {s s' : State} {cs : Census}

theorem moves_enqueue (hin : (pact options).Inside n cs s) :
    (pact options).Moves n cs s
      { s with mutex := s.mutex ++ [(key, n)] } := by
  refine ⟨⟨hin.inv.history, ?_, hin.inv.numbers, hin.inv.good, hin.inv.size,
    hin.inv.placed, hin.inv.gone, hin.inv.silent⟩, ?_⟩
  · intro x hx
    rcases List.mem_append.mp hx with hx | hx
    · exact hin.inv.queue x hx
    · rw [List.mem_singleton.mp hx]
      exact hin.live
  · intro m hm
    have hnot : ¬ n = m := fun h => hm h.symm
    refine ⟨?_, rfl, ?_, fun _ _ _ h => h⟩
    · simp [ownLocks, List.filter_append, hnot]
    · exact fun key' hfirst => BridgeRegistry.firstOf_append hfirst _

theorem moves_release (hin : (pact options).Inside n cs s) :
    (pact options).Moves n cs s
      { s with mutex := s.mutex.erase (key, n) } := by
  refine ⟨⟨hin.inv.history, ?_, hin.inv.numbers, hin.inv.good, hin.inv.size,
    hin.inv.placed, hin.inv.gone, hin.inv.silent⟩, ?_⟩
  · exact fun x hx => hin.inv.queue x (List.mem_of_mem_erase hx)
  · intro m hm
    refine ⟨?_, rfl, ?_, fun _ _ _ h => h⟩
    · show ownLocks m (s.mutex.erase (key, n)) = ownLocks m s.mutex
      rw [ownLocks, ownLocks, ← List.erase_filter]
      apply List.erase_of_not_mem
      intro hmem
      have hnumber : n = m := by simpa using (List.mem_filter.mp hmem).2
      exact hm hnumber.symm
    · exact fun key' hfirst => firstOf_erase_other hfirst hm

theorem Queued.keeps (h : Queued n o key events s) (hkeeps : Keeps n s s') :
    Queued n o key events s' := by
  refine ⟨hkeeps.locks.trans h.locks, hkeeps.log.trans h.log, ?_⟩
  rw [taskOf, hkeeps.log]
  exact h.task

theorem Has.enqueue (h : Has n o none events none s) :
    Queued n o key events { s with mutex := s.mutex ++ [(key, n)] } := by
  refine ⟨?_, h.log, h.task⟩
  show ownLocks n (s.mutex ++ [(key, n)]) = [(key, n)]
  rw [ownLocks, List.filter_append]
  have hnone : s.mutex.filter (fun x => decide (x.2 = n)) = [] := h.locks
  rw [hnone]
  simp

theorem Has.release {k : Option DesiredState}
    (h : Has n o (some key) events k s) :
    Has n o none events none { s with mutex := s.mutex.erase (key, n) } := by
  refine ⟨?_, fun _ hq => (nomatch hq), h.log, h.task,
    fun _ _ hq => (nomatch hq)⟩
  show ownLocks n (s.mutex.erase (key, n)) = []
  have hlocks : s.mutex.filter (fun x => decide (x.2 = n)) = [(key, n)] :=
    h.locks
  rw [ownLocks, ← List.erase_filter, hlocks]
  simp

theorem triple_lock :
    (pact options).triple n (Queued n o key events)
      (Prog.ask (I := ports) (PortCall.lock key))
      (Pact.returns fun _ s => exists document,
        Has n o (some key) (events ++ [Entry.locked n key document]) none s ∧
          s.document = document) := by
  apply Pact.triple_await rfl
  · exact fun cs s hin _ => Pact.Moves.refl hin.inv
  · intro cs s s' r hin hs hkeeps hr
    have hwait := hs.keeps hkeeps
    refine ⟨moves_record (e := Entry.locked n key s'.document) hin rfl trivial
      trivial,
      s'.document, ?_, rfl⟩
    refine ⟨hwait.locks, ?_, ?_, taskOf_record hwait.task,
      fun _ _ _ hk => (nomatch hk)⟩
    · intro key' hkey
      cases hkey
      exact hr
    · have hown := own_record_same (n := n) (s := s')
        (e := Entry.locked n key s'.document) rfl
      rw [hwait.log] at hown
      exact hown

theorem triple_runExclusive {result : Type} {p : Code result}
    {Q : Except Thrown result -> List Entry -> PersistedTabsDocument ->
      Prop}
    (hp : forall document, (pact options).triple n
      (fun s => Has n o (some key) (events ++ [Entry.locked n key document])
        none s ∧ s.document = document) p
      (fun res s => exists events' k, Has n o (some key) events' k s ∧
        Q res events' s.document)) :
    (pact options).triple n (Has n o none events none)
      (runExclusive n key p)
      (fun res s => exists events', Has n o none events' none s ∧
        Q res events' s.document) := by
  unfold runExclusive
  apply Pact.triple_bind
    (R := Pact.returns fun _ => Queued n o key events)
  · exact Pact.triple_modify (fun cs s hin _ => moves_enqueue hin)
      fun s hs => hs.enqueue
  · intro _
    apply Pact.triple_bind triple_lock
    · intro _
      apply Pact.triple_always (Pact.triple_exists hp)
      intro res
      apply Pact.triple_modify
      · exact fun cs s hin _ => moves_release hin
      · rintro s ⟨events', k, hs, hpost⟩
        exact ⟨events', hs.release, hpost⟩
    · exact fun _ _ h => h.elim
  · exact fun _ _ h => h.elim

end Mutex

end SessionManager
end Server
end FlanTerminal

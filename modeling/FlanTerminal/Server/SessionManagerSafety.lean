import FlanTerminal.Server.SessionManagerRules

/-!
# The operations of the session manager

Each piece of the code has one triple.  It says which steps of the life cycle
the piece adds to those that its operation has taken, and what is known of the
desired state of the tab.  From them every operation gets the outcome that the
log is held to.
-/

namespace FlanTerminal
namespace Server
namespace SessionManager

open Foundation
open Shared
open TabStore (Mutation Sources Committed desiredOf touched)
open BridgeRegistry (firstOf)
open TerminalBridge (Reason)

/-- The operation has taken the steps `done` since it had logged `base`. -/
def Did (n : Nat) (o : Op) (q : Option JsString) (base : List Entry)
    (done : List Mark) (k : Option DesiredState) (s : State) : Prop :=
  exists more, marks more = done ∧ Has n o q (base ++ more) k s

section Pieces

variable {options : TabStore.Options} {n : Nat} {o : Op}
variable {q : Option JsString} {base : List Entry} {done : List Mark}
variable {k : Option DesiredState} {id : JsString}

theorem Did.blind : Blind (Did n o q base done k) := by
  intro s s' hdocument hmutex hlog h
  rcases h with ⟨more, hmarks, hhas⟩
  exact ⟨more, hmarks, Has.blind s s' hdocument hmutex hlog hhas⟩

theorem marks_append (left right : List Entry) :
    marks (left ++ right) = marks left ++ marks right :=
  List.filterMap_append

theorem triple_did {result : Type} {p : Code result}
    {Q : Except Thrown result -> State -> Prop}
    (h : forall more, marks more = done ->
      (pact options).triple n (Has n o q (base ++ more) k) p Q) :
    (pact options).triple n (Did n o q base done k) p Q :=
  Pact.triple_exists fun more => Pact.triple_pure fun hmarks => h more hmarks

theorem Did.add {more more' : List Entry} {steps : List Mark} {s : State}
    (hmarks : marks more = done) (hsteps : marks more' = steps)
    (h : Has n o q (base ++ more ++ more') k s) :
    Did n o q base (done ++ steps) k s := by
  refine ⟨more ++ more', ?_, ?_⟩
  · rw [marks_append, hmarks, hsteps]
  · rw [← List.append_assoc]
    exact h

theorem Did.same {more more' : List Entry} {s : State}
    (hmarks : marks more = done) (hsteps : marks more' = [])
    (h : Has n o q (base ++ more ++ more') k s) : Did n o q base done k s := by
  have hadd := Did.add hmarks hsteps h
  rw [List.append_nil] at hadd
  exact hadd

theorem triple_mark {P : State -> Prop} (key : JsString) :
    (pact options).triple n P (mark key) (Pact.returns fun _ s => P s) :=
  triple_silent rfl (fun _ => rfl) (fun _ _ => rfl)

theorem triple_incrementGeneration {P : State -> Prop} (hP : Blind P)
    (key : JsString) :
    (pact options).triple n P (incrementGeneration key)
      (Pact.returns fun _ s => P s) := by
  unfold incrementGeneration nextGeneration
  apply Pact.triple_bind (R := Pact.returns fun _ s => P s)
  · apply Pact.triple_read
    intro s hs
    apply Pact.triple_bind (P := fun s' => s' = s)
      (R := Pact.returns fun _ s => P s)
    · apply Pact.triple_modify
      · exact fun cs s' hin _ => moves_quiet hin.inv rfl rfl rfl rfl
      · intro s' hs'
        rw [hs']
        exact hP s _ rfl rfl rfl hs
    · exact fun _ => Pact.triple_ret fun _ h => h
    · exact fun _ _ h => h.elim
  · intro generation
    exact triple_quiet hP (fun _ => rfl) (fun _ => rfl) (fun _ => rfl)
      (fun _ => rfl)
  · exact fun _ _ h => h.elim

theorem triple_captureRuntimeSettings {P : State -> Prop} :
    (pact options).triple n P (captureRuntimeSettings options)
      (fun _ s => P s) := by
  unfold captureRuntimeSettings
  apply Pact.triple_bind (R := Pact.returns fun _ s => P s)
  · exact triple_silent rfl (fun _ => rfl) (fun _ _ => rfl)
  · intro settings
    cases settings with
    | none => exact Pact.triple_raise fun _ h => h
    | some settings =>
        dsimp only
        split
        · exact Pact.triple_ret fun _ h => h
        · exact Pact.triple_raise fun _ h => h
  · exact fun _ _ h => h.elim

theorem triple_ownerPids {P : State -> Prop}
    (entries : List (JsString × Nat)) :
    (pact options).triple n P (ownerPids entries)
      (Pact.returns fun _ s => P s) := by
  induction entries with
  | nil => exact Pact.triple_ret fun _ h => h
  | cons entry rest ih =>
      unfold ownerPids
      apply Pact.triple_bind (R := Pact.returns fun _ s => P s)
      · exact triple_silent rfl (fun _ => rfl) (fun _ _ => rfl)
      · intro pid
        apply Pact.triple_bind ih
        · exact fun _ => Pact.triple_ret fun _ h => h
        · exact fun _ _ h => h.elim
      · exact fun _ _ h => h.elim

theorem triple_registryEntries {P : State -> Prop} :
    (pact options).triple n P registryEntries
      (Pact.returns fun _ s => P s) := by
  apply Pact.triple_read
  intro s hs
  apply Pact.triple_consequence (triple_ownerPids (P := P) s.entries)
  · intro s' hs'
    rw [hs']
    exact hs
  · exact fun _ _ h => h

theorem triple_attempt {result : Type} {c : PortCall}
    (outcome : PortReply c -> Bool) (steps : Bool -> List Mark)
    {g : PortReply c -> Code result}
    {Q : Except Thrown result -> State -> Prop}
    (hc : boundary c = Boundary.await)
    (hissue : forall s, exists r,
      issue n c s = { s.record (Entry.asked n c) with registry := r })
    (hreply : forall r s, reply options n c r s =
      s.record (Entry.answered n c (outcome r)))
    (hproper : Proper o c)
    (hsteps : forall b, marks [Entry.asked n c, Entry.answered n c b] =
      steps b)
    (hg : forall r, (pact options).triple n
      (Did n o q base (done ++ steps (outcome r)) k) (g r) Q) :
    (pact options).triple n (Did n o q base done k)
      (Prog.ask (I := ports) c >>= g) Q := by
  apply triple_did
  intro more hmarks
  apply Pact.triple_bind (triple_asked outcome hc hissue hreply hproper)
  · intro r
    apply Pact.triple_consequence (hg r)
    · intro s hs
      exact Did.add hmarks (hsteps _) hs
    · exact fun _ _ h => h
  · exact fun _ _ h => h.elim

theorem triple_exists? (hproper : Proper o (PortCall.exists id)) :
    (pact options).triple n (Did n o q base done k) (exists? id)
      (fun _ => Did n o q base done k) := by
  apply triple_did
  intro more hmarks
  apply Pact.triple_bind (triple_probe hproper)
  · intro r
    cases r with
    | error _ => exact Pact.triple_raise fun _ h => Did.same hmarks rfl h
    | ok answer => exact Pact.triple_ret fun _ h => Did.same hmarks rfl h
  · exact fun _ _ h => h.elim

def tried {result : Type} (attempt : Mark) (outcome : Bool -> Mark)
    (res : Except Thrown result) : List Mark :=
  match res with
  | Except.ok _ => [attempt, outcome true]
  | Except.error _ => [attempt, outcome false]

theorem triple_kill (hproper : Proper o (PortCall.kill id)) :
    (pact options).triple n (Did n o q base done k) (kill id)
      (fun res => Did n o q base
        (done ++ tried Mark.killing Mark.killed res) k) := by
  apply triple_attempt isOk
    (fun b => [Mark.killing, Mark.killed b]) rfl
    (fun s => ⟨s.registry, rfl⟩) (fun _ _ => rfl)
    hproper (fun _ => rfl)
  intro r
  cases r with
  | error _ => exact Pact.triple_raise fun _ h => h
  | ok _ => exact Pact.triple_ret fun _ h => h

theorem triple_prepare {settings : SessionRuntimeSettings}
    (hproper : Proper o (PortCall.prepare id settings)) :
    (pact options).triple n (Did n o q base done k) (prepare id settings)
      (fun res => Did n o q base
        (done ++ tried Mark.preparing Mark.prepared res) k) := by
  apply triple_attempt isOk
    (fun b => [Mark.preparing, Mark.prepared b]) rfl
    (fun s => ⟨s.registry, rfl⟩) (fun _ _ => rfl)
    hproper (fun _ => rfl)
  intro r
  cases r with
  | error _ => exact Pact.triple_raise fun _ h => h
  | ok _ => exact Pact.triple_ret fun _ h => h

theorem triple_reading {result : Type} {P : State -> Prop}
    {g : State -> Code result} {Q : Except Thrown result -> State -> Prop}
    (hg : forall s, (pact options).triple n P (g s) Q) :
    (pact options).triple n P (Prog.read >>= g) Q := by
  apply Pact.triple_read
  intro s hs
  apply Pact.triple_consequence (hg s)
  · intro s' hs'
    rw [hs']
    exact hs
  · exact fun _ _ h => h

theorem triple_closeBridge {code : Nat} {reason : Reason}
    (hproper : forall operation,
      Proper o (PortCall.closeBridge operation id code reason)) :
    (pact options).triple n (Did n o q base done k)
      (closeBridge id code reason)
      (fun res => Did n o q base
        (done ++ tried Mark.closing Mark.closed res) k) := by
  apply triple_reading
  intro s
  apply triple_attempt isOk
    (fun b => [Mark.closing, Mark.closed b]) rfl
    (fun s => ⟨_, rfl⟩) (fun _ _ => rfl)
    (hproper s.registry.next) (fun _ => rfl)
  intro r
  cases r with
  | error _ => exact Pact.triple_raise fun _ h => h
  | ok _ => exact Pact.triple_ret fun _ h => h

/-- What is logged after a mutation that has settled. -/
def Mutated (options : TabStore.Options) (n : Nat) (o : Op)
    (q : Option JsString) (events : List Entry) (k : Option DesiredState)
    (mutation : Mutation) : Except Thrown Sources -> State -> Prop
  | Except.ok sources, s => CommitPost options n o q events k mutation
      (Except.ok sources) s
  | Except.error _, s => CommitPost options n o q events k mutation
      (Except.error TabStore.Thrown.failed) s

theorem triple_mutate (hnfc : NormalForm options.nfc) {events : List Entry}
    {mutation : Mutation} (hproper : Proper o (PortCall.commit mutation))
    (hheld : forall key, touched mutation = some key -> q = some key) :
    (pact options).triple n (Has n o q events k) (mutate mutation)
      (Mutated options n o q events k mutation) := by
  unfold mutate
  apply Pact.triple_bind (triple_commit hnfc hproper hheld)
  · intro r
    cases r with
    | error thrown => exact Pact.triple_raise fun _ h => h
    | ok sources =>
        apply Pact.triple_exists
        intro before
        apply Pact.triple_exists
        intro after
        apply Pact.triple_pure
        intro hcommitted
        apply Pact.triple_bind (triple_waiting rfl (fun _ => rfl)
          (fun _ _ => rfl))
        · exact fun _ => Pact.triple_ret fun s hs =>
            ⟨before, after, hcommitted, hs⟩
        · exact fun _ _ h => h.elim
  · exact fun _ _ h => h.elim

def markOfState : DesiredState -> Mark
  | DesiredState.active => Mark.active
  | DesiredState.stopped => Mark.stopped

theorem triple_setDesiredState (hnfc : NormalForm options.nfc)
    {state : DesiredState} (ho : OnTab o id) (hq : q = some id) :
    (pact options).triple n (Did n o q base done k)
      (setDesiredState id state)
      (fun res s =>
        match res with
        | Except.ok _ => Did n o q base (done ++ [markOfState state])
            (some state) s
        | Except.error _ => Did n o q base done k s) := by
  apply triple_did
  intro more hmarks
  unfold setDesiredState
  apply Pact.triple_bind (triple_mutate hnfc
    (ho (PortCall.commit (Mutation.setDesiredState id state)) ⟨state, rfl⟩) ?_)
  · intro sources
    apply Pact.triple_ret
    rintro s ⟨before, after, _, hs⟩
    apply Did.add hmarks _ hs
    cases state with
    | active => rfl
    | stopped => rfl
  · intro thrown s hs
    exact Did.same hmarks rfl hs
  · intro key hkey
    cases hkey
    exact hq

theorem triple_document {result : Type} {P : State -> Prop} {p : Code result}
    {Q : Except Thrown result -> State -> Prop}
    (h : forall document, (pact options).triple n
      (fun s => P s ∧ s.document = document) p Q) :
    (pact options).triple n P p Q := by
  apply Pact.triple_consequence (Pact.triple_exists h)
  · exact fun s hs => ⟨s.document, hs, rfl⟩
  · exact fun _ _ hs => hs

theorem Has.learn {events : List Entry} {s : State} {tab : TabRecord}
    (h : Has n o q events k s) (hq : forall key, q = some key -> key = id)
    (hfind : findRecord s.document id = some tab) :
    Has n o q events (some tab.desiredState) s := by
  refine ⟨h.locks, h.first, h.log, h.task, ?_⟩
  intro key state hkey hstate
  cases hstate
  rw [hq key hkey]
  exact congrArg (Option.map TabRecord.desiredState) hfind

theorem triple_didDocument {result : Type} {p : Code result}
    {document : PersistedTabsDocument}
    {Q : Except Thrown result -> State -> Prop}
    (h : forall more, marks more = done -> (pact options).triple n
      (fun s => Has n o q (base ++ more) k s ∧ s.document = document) p Q) :
    (pact options).triple n
      (fun s => Did n o q base done k s ∧ s.document = document) p Q := by
  apply Pact.triple_consequence (P := fun s => exists more,
    marks more = done ∧ Has n o q (base ++ more) k s ∧ s.document = document)
    (Q := Q)
  · exact Pact.triple_exists fun more =>
      Pact.triple_pure fun hmarks => h more hmarks
  · rintro s ⟨⟨more, hmarks, hhas⟩, hdocument⟩
    exact ⟨more, hmarks, hhas, hdocument⟩
  · exact fun _ _ h => h

theorem triple_requireTab {events : List Entry}
    {document : PersistedTabsDocument} :
    (pact options).triple n
      (fun s => Has n o q events k s ∧ s.document = document)
      (requireLifecycleTab id)
      (fun res s => s.document = document ∧
        match res with
        | Except.ok _ => (exists tab, findRecord document id = some tab) ∧
            Has n o q (events ++ [Entry.read n document]) k s
        | Except.error _ => exists more, marks more = [] ∧
            Has n o q (events ++ more) k s) := by
  unfold requireLifecycleTab
  split
  · apply Pact.triple_raise
    rintro s ⟨hhas, hdocument⟩
    exact ⟨hdocument, [], rfl, by rw [List.append_nil]; exact hhas⟩
  · apply Pact.triple_bind triple_snapshot
    · intro read
      apply Pact.triple_pure
      intro hread
      rw [hread]
      cases hfind : findRecord document id with
      | none => exact Pact.triple_raise fun _ h => ⟨h.2, _, rfl, h.1⟩
      | some tab => exact Pact.triple_ret fun _ h => ⟨h.2, ⟨tab, rfl⟩, h.1⟩
    · exact fun _ _ h => h.elim

theorem triple_requireLifecycleTab {document : PersistedTabsDocument}
    (hq : forall key, q = some key -> key = id) :
    (pact options).triple n
      (fun s => Did n o q base done k s ∧ s.document = document)
      (requireLifecycleTab id)
      (fun res s => s.document = document ∧
        match res with
        | Except.ok _ => exists tab, findRecord document id = some tab ∧
            Did n o q base done (some tab.desiredState) s
        | Except.error _ => Did n o q base done k s) := by
  apply triple_didDocument
  intro more hmarks
  apply Pact.triple_consequence triple_requireTab (fun _ h => h)
  intro res s hs
  rcases hs with ⟨hdocument, hres⟩
  cases res with
  | error _ =>
      rcases hres with ⟨more', hnone, hhas⟩
      exact ⟨hdocument, Did.same hmarks hnone hhas⟩
  | ok _ =>
      rcases hres with ⟨⟨tab, hfind⟩, hhas⟩
      refine ⟨hdocument, tab, hfind, Did.same hmarks rfl
        (hhas.learn hq ?_)⟩
      rw [hdocument]
      exact hfind

theorem triple_currentRecord {events : List Entry}
    {document : PersistedTabsDocument} :
    (pact options).triple n
      (fun s => Has n o q events k s ∧ s.document = document)
      (currentRecord id)
      (Pact.returns fun record s => record = findRecord document id ∧
        Has n o q (events ++ [Entry.read n document]) k s ∧
          s.document = document) := by
  unfold currentRecord
  apply Pact.triple_bind triple_snapshot
  · intro read
    apply Pact.triple_pure
    intro hread
    rw [hread]
    exact Pact.triple_ret fun _ h => ⟨rfl, h⟩
  · exact fun _ _ h => h.elim

theorem triple_requireRecord {events : List Entry}
    {document : PersistedTabsDocument} :
    (pact options).triple n
      (fun s => Has n o q events k s ∧ s.document = document)
      (requireCurrentRecord id)
      (fun res s => Has n o q (events ++ [Entry.read n document]) k s ∧
        s.document = document ∧
        match res with
        | Except.ok tab => findRecord document id = some tab
        | Except.error _ => findRecord document id = none) := by
  unfold requireCurrentRecord
  apply Pact.triple_bind triple_currentRecord
  · intro record
    apply Pact.triple_pure
    intro hrecord
    rw [hrecord]
    cases hfind : findRecord document id with
    | none => exact Pact.triple_raise fun _ h => ⟨h.1, h.2, rfl⟩
    | some tab => exact Pact.triple_ret fun _ h => ⟨h.1, h.2, rfl⟩
  · exact fun _ _ h => h.elim

theorem triple_requireCurrentRecord {document : PersistedTabsDocument}
    (hq : forall key, q = some key -> key = id) :
    (pact options).triple n
      (fun s => Did n o q base done k s ∧ s.document = document)
      (requireCurrentRecord id)
      (fun res s => s.document = document ∧
        match res with
        | Except.ok tab => findRecord document id = some tab ∧
            Did n o q base done (some tab.desiredState) s
        | Except.error _ => Did n o q base done k s) := by
  apply triple_didDocument
  intro more hmarks
  apply Pact.triple_consequence triple_requireRecord (fun _ h => h)
  rintro res s ⟨hhas, hdocument, hfind⟩
  cases res with
  | error _ => exact ⟨hdocument, Did.same hmarks rfl hhas⟩
  | ok tab =>
      refine ⟨hdocument, hfind, Did.same hmarks rfl (hhas.learn hq ?_)⟩
      rw [hdocument]
      exact hfind

theorem triple_probeHealth {events : List Entry}
    (hproper : Proper o (PortCall.exists id)) :
    (pact options).triple n (Has n o q events k) (probeHealth id)
      (Pact.returns fun _ s => exists r bridge, Has n o q
        (events ++ [Entry.asked n (PortCall.exists id),
          Entry.probed n id r bridge]) k s) := by
  unfold probeHealth
  apply Pact.triple_bind triple_registryEntries
  · intro entries
    apply Pact.triple_bind (triple_probe hproper)
    · intro r
      have hend : forall state, (pact options).triple n
          (fun s => Has n o q (events ++ [Entry.asked n (PortCall.exists id),
            Entry.probed n id r (s.bridge id)]) k s)
          (pure (healthOf state (bridgeOf entries id)))
          (Pact.returns fun _ s => exists r bridge, Has n o q
            (events ++ [Entry.asked n (PortCall.exists id),
              Entry.probed n id r bridge]) k s) :=
        fun state => Pact.triple_ret fun _ h => ⟨r, _, h⟩
      cases r with
      | error _ => exact hend SessionState.unknown
      | ok answer =>
          cases answer with
          | true => exact hend SessionState.running
          | false => exact hend SessionState.stopped
    · exact fun _ _ h => h.elim
  · exact fun _ _ h => h.elim

theorem Has.found {events : List Entry} {s : State} {state : DesiredState}
    (h : Has n o (some id) events (some state) s) :
    exists tab, findRecord s.document id = some tab := by
  rcases Option.map_eq_some_iff.mp (h.known id state rfl rfl) with
    ⟨tab, hfind, _⟩
  exact ⟨tab, hfind⟩

theorem findRecord_id {document : PersistedTabsDocument} {tab : TabRecord}
    (h : findRecord document id = some tab) : tab.id = id :=
  (TabStore.find_some h).2

theorem lastRead_append {left right : List Entry}
    {document : PersistedTabsDocument} (h : lastRead right = some document) :
    lastRead (left ++ right) = some document := by
  rw [lastRead, List.filterMap_append, List.getLast?_append]
  have hright : (right.filterMap readBy).getLast? = some document := h
  rw [hright]
  rfl

theorem triple_currentView (hproper : Proper o (PortCall.exists id)) :
    (pact options).triple n (Did n o q base done k) (currentView id)
      (fun res s =>
        match res with
        | Except.ok view => exists more, marks more = done ∧
            Viewed more id view ∧ Has n o q (base ++ more) k s
        | Except.error _ => (q = some id -> k = none) ∧
            Did n o q base done k s) := by
  apply triple_did
  intro more hmarks
  apply triple_document
  intro document
  unfold currentView
  apply Pact.triple_bind triple_requireRecord
  · intro tab
    apply Pact.triple_consequence (P := fun s =>
      findRecord document id = some tab ∧
        Has n o q (base ++ more ++ [Entry.read n document]) k s)
      (Q := fun res s =>
        match res with
        | Except.ok view => exists more, marks more = done ∧
            Viewed more id view ∧ Has n o q (base ++ more) k s
        | Except.error _ => (q = some id -> k = none) ∧
            Did n o q base done k s)
    · apply Pact.triple_pure
      intro hfind
      apply Pact.triple_bind (triple_probeHealth hproper)
      · intro health
        apply Pact.triple_exists
        intro r
        apply Pact.triple_exists
        intro bridge
        apply Pact.triple_ret
        intro s hs
        refine ⟨more ++ [Entry.read n document,
          Entry.asked n (PortCall.exists id), Entry.probed n id r bridge],
          ?_, ?_, ?_⟩
        · rw [marks_append, hmarks]
          exact List.append_nil done
        · exact ⟨findRecord_id hfind, document, lastRead_append rfl, hfind⟩
        · simpa [List.append_assoc] using hs
      · exact fun _ _ h => h.elim
    · exact fun s h => ⟨h.2.2, h.1⟩
    · exact fun _ _ h => h
  · rintro _ s ⟨hhas, hdocument, hfind⟩
    constructor
    · intro hq
      cases hk : k with
      | none => rfl
      | some state =>
          rw [hq, hk] at hhas
          rcases hhas.found with ⟨tab, htab⟩
          rw [hdocument, hfind] at htab
          cases htab
    · exact Did.same hmarks rfl hhas

theorem triple_viewBestEffort (ho : OnTab o id) :
    (pact options).triple n (Did n o q base done k) (viewBestEffort id)
      (Pact.returns fun _ => Did n o q base done k) := by
  unfold viewBestEffort
  apply Pact.triple_tryCatch (R := fun _ => Did n o q base done k)
  · apply Pact.triple_bind (triple_currentView (ho _ rfl))
    · intro view
      apply Pact.triple_ret
      rintro s ⟨more, hmarks, _, hhas⟩
      exact ⟨more, hmarks, hhas⟩
    · exact fun _ _ h => h.2
  · exact fun _ _ h => h
  · exact fun _ => Pact.triple_ret fun _ h => h

theorem triple_ignoreKill (ho : OnTab o id) :
    (pact options).triple n (Did n o q base done k) (ignoreFailure (kill id))
      (Pact.returns fun _ s => exists b, Did n o q base
        (done ++ [Mark.killing, Mark.killed b]) k s) := by
  unfold ignoreFailure
  apply Pact.triple_tryCatch (triple_kill (ho _ rfl))
  · exact fun _ _ h => ⟨true, h⟩
  · exact fun _ => Pact.triple_ret fun _ h => ⟨false, h⟩

theorem triple_stopRuntime {code : Nat} {reason : Reason}
    (ho : OnTab o id) :
    (pact options).triple n (Did n o q base done k)
      (stopRuntime id code reason)
      (Pact.returns fun failed s => exists close kill,
        failed = !(close && kill) ∧ Did n o q base
          (done ++ [Mark.closing, Mark.closed close] ++
            [Mark.killing, Mark.killed kill]) k s) := by
  unfold stopRuntime
  apply Pact.triple_bind (R := Pact.returns fun failed => Did n o q base
    (done ++ [Mark.closing, Mark.closed (!failed)]) k)
  · apply Pact.triple_tryCatch (R := fun res s =>
      match res with
      | Except.ok failed => failed = false ∧ Did n o q base
          (done ++ [Mark.closing, Mark.closed true]) k s
      | Except.error _ => Did n o q base
          (done ++ [Mark.closing, Mark.closed false]) k s)
    · apply Pact.triple_bind (triple_closeBridge fun _ => ho _ rfl)
      · exact fun _ => Pact.triple_ret fun _ h => ⟨rfl, h⟩
      · exact fun _ _ h => h
    · rintro failed s ⟨hfailed, hs⟩
      rw [hfailed]
      exact hs
    · exact fun _ => Pact.triple_ret fun _ h => h
  · intro failed
    apply Pact.triple_tryCatch (R := fun res s =>
      match res with
      | Except.ok failed' => failed' = failed ∧ Did n o q base
          (done ++ [Mark.closing, Mark.closed (!failed)] ++
            [Mark.killing, Mark.killed true]) k s
      | Except.error _ => Did n o q base
          (done ++ [Mark.closing, Mark.closed (!failed)] ++
            [Mark.killing, Mark.killed false]) k s)
    · apply Pact.triple_bind (triple_kill (ho _ rfl))
      · exact fun _ => Pact.triple_ret fun _ h => ⟨rfl, h⟩
      · exact fun _ _ h => h
    · rintro failed' s ⟨hfailed, hs⟩
      exact ⟨!failed, true, by simp [hfailed], hs⟩
    · exact fun _ => Pact.triple_ret fun _ h => ⟨!failed, false, by simp, h⟩
  · exact fun _ _ h => h.elim

end Pieces

/-!
## Restart and recreate
-/

/-- How a life cycle operation leaves its critical section. -/
def Ends (n : Nat) (o : Op) (id : JsString) (base : List Entry)
    (front : List Mark) (early : List Mark -> Prop)
    (res : Except Thrown TabView) (s : State) : Prop :=
  exists events k, Has n o (some id) events k s ∧
    base <+: events ∧
    Lifecycle id front early events (res.map Value.view) s.document

section Lifecycles

variable {options : TabStore.Options} {n : Nat} {o : Op}
variable {base : List Entry} {done front : List Mark}
variable {early : List Mark -> Prop} {k : Option DesiredState}
variable {id : JsString} {document : PersistedTabsDocument} {s : State}

theorem marks_base (hbase : marks base = []) (more : List Entry) :
    marks (base ++ more) = marks more := by
  rw [marks_append, hbase, List.nil_append]

theorem Ends.rejected {thrown : Thrown} (hbase : marks base = [])
    (hdid : Did n o (some id) base done k s)
    (hdone : early done ∨ Rejected front done)
    (hdesired : forall events, marks events = done -> base <+: events ->
      Unchanged id events s.document ∨
        desiredOf s.document id = some DesiredState.stopped) :
    Ends n o id base front early (Except.error thrown) s := by
  rcases hdid with ⟨more, hmarks, hhas⟩
  have hall : marks (base ++ more) = done := by
    rw [marks_base hbase, hmarks]
  refine ⟨base ++ more, k, hhas, List.prefix_append _ _, ?_, ?_⟩
  · intro value hvalue
    cases hvalue
  · intro thrown' _
    rw [hall]
    exact ⟨hdone, hdesired _ hall (List.prefix_append _ _)⟩

theorem Ends.unchanged {thrown : Thrown} {m : Nat} (hbase : marks base = [])
    (hlocked : Entry.locked m id document ∈ base)
    (hdid : Did n o (some id) base done k s)
    (hdone : early done ∨ Rejected front done)
    (hstopped : Mark.stopped ∉ done) (hactive : Mark.active ∉ done)
    (hsame : desiredOf s.document id = desiredOf document id) :
    Ends n o id base front early (Except.error thrown) s := by
  apply Ends.rejected hbase hdid hdone
  intro events hevents hbegin
  left
  rw [Unchanged, hevents]
  exact ⟨hstopped, hactive, m, document, hbegin.subset hlocked, hsame⟩

theorem Ends.stopped {thrown : Thrown} (hbase : marks base = [])
    (hdid : Did n o (some id) base done (some DesiredState.stopped) s)
    (hdone : early done ∨ Rejected front done) :
    Ends n o id base front early (Except.error thrown) s := by
  have hknown : desiredOf s.document id = some DesiredState.stopped := by
    rcases hdid with ⟨more, _, hhas⟩
    exact hhas.known id _ rfl rfl
  exact Ends.rejected hbase hdid hdone fun _ _ _ => Or.inr hknown

theorem Viewed.append {more : List Entry} {view : TabView}
    (h : Viewed more id view) : Viewed (base ++ more) id view := by
  rcases h with ⟨hid, document, hread, hfind⟩
  exact ⟨hid, document, lastRead_append hread, hfind⟩

theorem triple_activated (hbase : marks base = []) (ho : OnTab o id) :
    (pact options).triple n
      (Did n o (some id) base (front ++ activation)
        (some DesiredState.active))
      (activated id) (Ends n o id base front early) := by
  unfold activated
  apply Pact.triple_bind (triple_incrementGeneration Did.blind id)
  · intro _
    apply Pact.triple_bind (triple_mark id)
    · intro _
      apply Pact.triple_consequence (triple_currentView (ho _ rfl))
        (fun _ h => h)
      intro res s hs
      cases res with
      | error thrown =>
          have hnone := hs.1 rfl
          cases hnone
      | ok view =>
          rcases hs with ⟨more, hmarks, hviewed, hhas⟩
          refine ⟨base ++ more, _, hhas, List.prefix_append _ _, ?_, ?_⟩
          · intro value hvalue
            cases hvalue
            rw [marks_base hbase, hmarks]
            exact ⟨rfl, view, rfl, hviewed.append⟩
          · intro thrown hthrown
            cases hthrown
    · exact fun _ _ h => h.elim
  · exact fun _ _ h => h.elim

theorem triple_activate (hnfc : NormalForm options.nfc)
    {settings : SessionRuntimeSettings} (ho : OnTab o id) :
    (pact options).triple n (Did n o (some id) base done k)
      (activate id settings)
      (fun res s =>
        match res with
        | Except.ok _ => Did n o (some id) base (done ++ activation)
            (some DesiredState.active) s
        | Except.error _ => exists b, Did n o (some id) base
            (done ++ [Mark.preparing, Mark.prepared b]) k s) := by
  unfold activate
  apply Pact.triple_bind (triple_prepare (ho _ rfl))
  · intro _
    apply Pact.triple_consequence (triple_setDesiredState hnfc ho rfl)
      (fun _ h => h)
    intro res s hs
    cases res with
    | ok _ =>
        have hs' : Did n o (some id) base
            (done ++ [Mark.preparing, Mark.prepared true] ++ [Mark.active])
            (some DesiredState.active) s := hs
        rw [List.append_assoc] at hs'
        exact hs'
    | error _ => exact ⟨true, hs⟩
  · exact fun _ _ h => ⟨false, h⟩

theorem rejected_of_prepared (front : List Mark) (prepared killed : Bool) :
    Rejected front (front ++ [Mark.preparing, Mark.prepared prepared] ++
      [Mark.killing, Mark.killed killed]) := by
  rw [List.append_assoc]
  cases prepared with
  | false => exact Rejected.unprepared killed
  | true => exact Rejected.uncommitted killed

theorem triple_failing {result : Type}
    {Q : Except Thrown result -> State -> Prop} (ho : OnTab o id)
    (hend : forall view s, Did n o (some id) base done k s ->
      Q (Except.error (Thrown.operation_failed view)) s) :
    (pact options).triple n (Did n o (some id) base done k)
      (do
        let view ← viewBestEffort id
        throw (Thrown.operation_failed view) : Code result) Q := by
  apply Pact.triple_bind (triple_viewBestEffort ho)
  · exact fun view => Pact.triple_raise fun s hs => hend view s hs
  · exact fun _ _ h => h.elim

theorem known_eq {state : DesiredState} {tab : TabRecord}
    (hfind : findRecord document id = some tab)
    (hstate : tab.desiredState = state)
    (hdid : Did n o (some id) base done (some state) s) :
    desiredOf s.document id = desiredOf document id := by
  rcases hdid with ⟨more, _, hhas⟩
  rw [hhas.known id state rfl rfl, ← hstate]
  exact (congrArg (Option.map TabRecord.desiredState) hfind).symm

theorem triple_restartActivate (hnfc : NormalForm options.nfc)
    (hbase : marks base = []) {settings : SessionRuntimeSettings} :
    (pact options).triple n
      (Did n (Op.restart id) (some id) base (stopped true true)
        (some DesiredState.stopped))
      (do
        tryCatch (activate id settings) fun _ => do
          ignoreFailure (kill id)
          mark id
          let view ← viewBestEffort id
          throw (Thrown.operation_failed view)
        activated id)
      (Ends n (Op.restart id) id base (stopped true true) EarlyRestart) := by
  apply Pact.triple_bind (R := fun res s =>
    match res with
    | Except.ok _ => Did n (Op.restart id) (some id) base
        (stopped true true ++ activation) (some DesiredState.active) s
    | Except.error thrown => Ends n (Op.restart id) id base
        (stopped true true) EarlyRestart (Except.error thrown) s)
  · apply Pact.triple_tryCatch (triple_activate hnfc (onTab rfl))
    · exact fun _ _ h => h
    · intro thrown
      apply Pact.triple_exists
      intro prepared
      apply Pact.triple_bind (triple_ignoreKill (onTab rfl))
      · intro _
        apply Pact.triple_exists
        intro killed
        apply Pact.triple_bind (triple_mark id)
        · intro _
          apply triple_failing (onTab rfl)
          intro view s hs
          exact Ends.stopped hbase hs
            (Or.inr (rejected_of_prepared _ prepared killed))
        · exact fun _ _ h => h.elim
      · exact fun _ _ h => h.elim
  · exact fun _ => triple_activated hbase (onTab rfl)
  · exact fun _ _ h => h

theorem triple_restart (hnfc : NormalForm options.nfc)
    (hbase : marks base = []) (hlocked : Entry.locked n id document ∈ base) :
    (pact options).triple n
      (fun s => Did n (Op.restart id) (some id) base [] none s ∧
        s.document = document)
      (restartLocked options id)
      (Ends n (Op.restart id) id base (stopped true true) EarlyRestart) := by
  have hunchanged : forall {k : Option DesiredState} {thrown : Thrown}
      {s : State}, Did n (Op.restart id) (some id) base [] k s ->
      desiredOf s.document id = desiredOf document id ->
      Ends n (Op.restart id) id base (stopped true true) EarlyRestart
        (Except.error thrown) s :=
    fun hs hsame => Ends.unchanged hbase hlocked hs (Or.inl (Or.inl rfl))
      List.not_mem_nil List.not_mem_nil hsame
  unfold restartLocked
  apply Pact.triple_bind
    (triple_requireLifecycleTab fun key hkey => (Option.some.inj hkey).symm)
  · intro _
    apply Pact.triple_consequence (P := fun s => exists tab,
      findRecord document id = some tab ∧
        Did n (Op.restart id) (some id) base [] (some tab.desiredState) s)
      (Q := Ends n (Op.restart id) id base (stopped true true) EarlyRestart)
    · apply Pact.triple_exists
      intro tab
      apply Pact.triple_pure
      intro hfind
      apply Pact.triple_bind triple_captureRuntimeSettings
      · intro settings
        apply Pact.triple_bind (triple_incrementGeneration Did.blind id)
        · intro _
          apply Pact.triple_bind (R := fun res s =>
            match res with
            | Except.ok _ => Did n (Op.restart id) (some id) base
                [Mark.stopped] (some DesiredState.stopped) s
            | Except.error thrown => Ends n (Op.restart id) id base
                (stopped true true) EarlyRestart (Except.error thrown) s)
          · apply Pact.triple_tryCatch
              (triple_setDesiredState hnfc (onTab rfl) rfl)
            · exact fun _ _ h => h
            · exact fun thrown => Pact.triple_raise fun s hs =>
                hunchanged hs (known_eq hfind rfl hs)
          · intro _
            apply Pact.triple_bind
              (triple_stopRuntime (onTab rfl))
            · intro stopFailed
              apply Pact.triple_exists
              intro close
              apply Pact.triple_exists
              intro kill
              apply Pact.triple_pure
              intro hfailed
              have hdone : [Mark.stopped] ++
                  [Mark.closing, Mark.closed close] ++
                  [Mark.killing, Mark.killed kill] = stopped close kill := rfl
              rw [hdone]
              split
              · rename_i hstop
                have hnot : (close && kill) = false := by
                  rw [hstop] at hfailed
                  exact Bool.not_eq_true' _ ▸ hfailed.symm
                apply Pact.triple_bind (triple_mark id)
                · intro _
                  apply triple_failing (onTab rfl)
                  intro view s hs
                  exact Ends.stopped hbase hs
                    (Or.inl (Or.inr ⟨close, kill, hnot, rfl⟩))
                · exact fun _ _ h => h.elim
              · rename_i hstop
                have hboth : close = true ∧ kill = true := by
                  simpa [hfailed] using hstop
                rw [hboth.1, hboth.2]
                exact triple_restartActivate hnfc hbase
            · exact fun _ _ h => h.elim
          · exact fun _ _ h => h
        · exact fun _ _ h => h.elim
      · exact fun thrown s hs => hunchanged hs (known_eq hfind rfl hs)
    · exact fun s hs => hs.2
    · exact fun _ _ h => h
  · intro thrown s hs
    exact hunchanged hs.2 (congrArg (fun d => desiredOf d id) hs.1)

theorem triple_recreateStopped (hnfc : NormalForm options.nfc)
    (hbase : marks base = [])
    (hunchanged : forall {thrown : Thrown} {s : State},
      Did n (Op.recreate id) (some id) base [] (some DesiredState.stopped) s ->
      Ends n (Op.recreate id) id base [] (fun done => done = [])
        (Except.error thrown) s) :
    (pact options).triple n
      (Did n (Op.recreate id) (some id) base [] (some DesiredState.stopped))
      (do
        let settings ← captureRuntimeSettings options
        let running ← tryCatch (exists? id)
          fun _ => throw Thrown.invalid_session_state
        if running then throw Thrown.invalid_session_state
        else do
          incrementGeneration id
          tryCatch (activate id settings) fun _ => do
            ignoreFailure (kill id)
            operationFailed
          activated id)
      (Ends n (Op.recreate id) id base [] fun done => done = []) := by
  apply Pact.triple_bind triple_captureRuntimeSettings
  · intro settings
    apply Pact.triple_bind (R := fun _ => Did n (Op.recreate id) (some id)
      base [] (some DesiredState.stopped))
    · apply Pact.triple_tryCatch (triple_exists? (onTab rfl _ rfl))
      · exact fun _ _ h => h
      · exact fun _ => Pact.triple_raise fun _ h => h
    · intro running
      cases running with
      | true => exact Pact.triple_raise fun _ hs => hunchanged hs
      | false =>
          apply Pact.triple_bind (triple_incrementGeneration Did.blind id)
          · intro _
            apply Pact.triple_bind (R := fun res s =>
              match res with
              | Except.ok _ => Did n (Op.recreate id) (some id) base
                  ([] ++ activation) (some DesiredState.active) s
              | Except.error thrown => Ends n (Op.recreate id) id base []
                  (fun done => done = []) (Except.error thrown) s)
            · apply Pact.triple_tryCatch
                (triple_activate hnfc (onTab rfl))
              · exact fun _ _ h => h
              · intro thrown
                apply Pact.triple_exists
                intro prepared
                apply Pact.triple_bind (triple_ignoreKill (onTab rfl))
                · intro _
                  apply Pact.triple_exists
                  intro killed
                  exact Pact.triple_raise fun s hs => Ends.stopped hbase hs
                    (Or.inr (rejected_of_prepared [] prepared killed))
                · exact fun _ _ h => h.elim
            · exact fun _ => triple_activated hbase (onTab rfl)
            · exact fun _ _ h => h
          · exact fun _ _ h => h.elim
    · exact fun _ _ hs => hunchanged hs
  · exact fun _ _ hs => hunchanged hs

theorem triple_recreate (hnfc : NormalForm options.nfc)
    (hbase : marks base = []) (hlocked : Entry.locked n id document ∈ base) :
    (pact options).triple n
      (fun s => Did n (Op.recreate id) (some id) base [] none s ∧
        s.document = document)
      (recreateLocked options id)
      (Ends n (Op.recreate id) id base [] fun done => done = []) := by
  have hunchanged : forall {k : Option DesiredState} {thrown : Thrown}
      {s : State}, Did n (Op.recreate id) (some id) base [] k s ->
      desiredOf s.document id = desiredOf document id ->
      Ends n (Op.recreate id) id base [] (fun done => done = [])
        (Except.error thrown) s :=
    fun hs hsame => Ends.unchanged hbase hlocked hs (Or.inl rfl)
      List.not_mem_nil List.not_mem_nil hsame
  have hq : forall key, some id = some key -> key = id :=
    fun key hkey => (Option.some.inj hkey).symm
  unfold recreateLocked
  apply Pact.triple_bind (triple_requireLifecycleTab hq)
  · intro _
    apply Pact.triple_consequence (P := fun s => exists tab : TabRecord,
      Did n (Op.recreate id) (some id) base [] (some tab.desiredState) s ∧
        s.document = document)
      (Q := Ends n (Op.recreate id) id base [] fun done => done = [])
    · apply Pact.triple_exists
      intro _
      apply Pact.triple_bind (triple_requireCurrentRecord hq)
      · intro tab
        by_cases hdesired : tab.desiredState ≠ DesiredState.stopped
        · rw [if_pos hdesired]
          exact Pact.triple_raise fun s hs =>
            hunchanged hs.2.2 (congrArg (fun d => desiredOf d id) hs.1)
        · rw [if_neg hdesired]
          rw [not_not] at hdesired
          apply Pact.triple_consequence (P := fun s =>
            findRecord document id = some tab ∧
              Did n (Op.recreate id) (some id) base []
                (some DesiredState.stopped) s)
            (Q := Ends n (Op.recreate id) id base [] fun done => done = [])
          · apply Pact.triple_pure
            intro hfind
            apply triple_recreateStopped hnfc hbase
            exact fun hs => hunchanged hs (known_eq hfind hdesired hs)
          · intro s hs
            rw [← hdesired]
            exact hs.2
          · exact fun _ _ h => h
      · exact fun thrown s hs =>
          hunchanged hs.2 (congrArg (fun d => desiredOf d id) hs.1)
    · rintro s ⟨hdocument, tab, _, hs⟩
      exact ⟨tab, hs, hdocument⟩
    · exact fun _ _ h => h
  · intro thrown s hs
    exact hunchanged hs.2 (congrArg (fun d => desiredOf d id) hs.1)

end Lifecycles

end SessionManager
end Server
end FlanTerminal

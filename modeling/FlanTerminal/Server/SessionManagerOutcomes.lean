import FlanTerminal.Server.SessionManagerSafety

/-!
# The outcomes of the session manager

The rest of the operations, and the run of all of them together.  When an
operation ends, the log holds its outcome: what it answered, and what it had
read and committed for that.
-/

namespace FlanTerminal
namespace Server
namespace SessionManager

open Foundation
open Shared
open TabStore (Mutation Sources Committed desiredOf touched)
open BridgeRegistry (firstOf)
open TerminalBridge (Reason)

/-!
## Operations on one tab
-/

/-- How an operation that answers with a view of its tab ends. -/
def Shows (n : Nat) (o : Op) (q : Option JsString) (base : List Entry)
    (id : JsString) (steps : List Entry -> List Mark -> Prop)
    (res : Except Thrown TabView) (s : State) : Prop :=
  exists more k, Has n o q (base ++ more) k s ∧
    forall view, res = Except.ok view ->
      Viewed (base ++ more) id view ∧ steps (base ++ more) (marks more)

section Tabs

variable {options : TabStore.Options} {n : Nat} {o : Op}
variable {q : Option JsString} {base : List Entry} {done : List Mark}
variable {k : Option DesiredState} {id : JsString} {s : State}
variable {steps : List Entry -> List Mark -> Prop}

theorem Did.shows {thrown : Thrown} (h : Did n o q base done k s) :
    Shows n o q base id steps (Except.error thrown) s := by
  rcases h with ⟨more, _, hhas⟩
  exact ⟨more, k, hhas, fun _ hview => nomatch hview⟩

theorem Shows.mono {steps' : List Entry -> List Mark -> Prop}
    {res : Except Thrown TabView} (h : Shows n o q base id steps res s)
    (himp : forall events done, base <+: events -> steps events done ->
      steps' events done) : Shows n o q base id steps' res s := by
  rcases h with ⟨more, k, hhas, hview⟩
  exact ⟨more, k, hhas, fun view hres => ⟨(hview view hres).1,
    himp _ _ (List.prefix_append _ _) (hview view hres).2⟩⟩

theorem Shows.after {more : List Entry} {res : Except Thrown TabView}
    {steps' : List Entry -> List Mark -> Prop}
    (h : Shows n o q (base ++ more) id steps res s)
    (himp : forall events done, base ++ more <+: events ->
      steps events done -> steps' events (marks more ++ done)) :
    Shows n o q base id steps' res s := by
  rcases h with ⟨more', k, hhas, hview⟩
  rw [List.append_assoc] at hhas
  refine ⟨more ++ more', k, hhas, ?_⟩
  intro view hres
  rcases hview view hres with ⟨hviewed, hsteps⟩
  rw [marks_append, ← List.append_assoc]
  exact ⟨hviewed, himp _ _ (List.prefix_append _ _) hsteps⟩

theorem triple_showing (hproper : Proper o (PortCall.exists id)) :
    (pact options).triple n (Did n o q base done k) (currentView id)
      (Shows n o q base id fun _ steps => steps = done) := by
  apply Pact.triple_consequence (triple_currentView hproper) (fun _ h => h)
  intro res s hs
  cases res with
  | error _ => exact hs.2.shows
  | ok view =>
      rcases hs with ⟨more, hmarks, hviewed, hhas⟩
      refine ⟨more, k, hhas, ?_⟩
      intro view' hview'
      cases hview'
      exact ⟨hviewed.append, hmarks⟩

theorem triple_view (hproper : Proper o (PortCall.exists id))
    (hq : forall key, q = some key -> key = id) :
    (pact options).triple n (Did n o q base done k) (view id)
      (Shows n o q base id fun _ steps => steps = done) := by
  apply triple_document
  intro document
  apply Pact.triple_bind (triple_requireLifecycleTab hq)
  · intro _
    apply Pact.triple_consequence (P := fun s => exists tab : TabRecord,
      Did n o q base done (some tab.desiredState) s)
      (Q := Shows n o q base id fun _ steps => steps = done)
    · exact Pact.triple_exists fun tab => triple_showing hproper
    · rintro s ⟨_, tab, _, hs⟩
      exact ⟨tab, hs⟩
    · exact fun _ _ h => h
  · exact fun _ _ h => h.2.shows

theorem triple_restartBridge (ho : OnTab o id) :
    (pact options).triple n (Did n o (some id) base done k)
      (restartBridgeLocked id)
      (Shows n o (some id) base id fun _ steps =>
        steps = done ++ [Mark.closing, Mark.closed true]) := by
  apply triple_document
  intro document
  apply Pact.triple_bind
    (triple_requireLifecycleTab fun key hkey => (Option.some.inj hkey).symm)
  · intro _
    apply Pact.triple_consequence (P := fun s => exists tab : TabRecord,
      Did n o (some id) base done (some tab.desiredState) s)
      (Q := Shows n o (some id) base id fun _ steps =>
        steps = done ++ [Mark.closing, Mark.closed true])
    · apply Pact.triple_exists
      intro tab
      apply Pact.triple_bind (R := fun res s =>
        match res with
        | Except.error _ => exists done', Did n o (some id) base done'
            (some tab.desiredState) s
        | Except.ok _ => Did n o (some id) base
            (done ++ [Mark.closing, Mark.closed true])
            (some tab.desiredState) s)
      · apply Pact.triple_tryCatch (triple_closeBridge fun _ => ho _ rfl)
        · exact fun _ _ h => h
        · exact fun _ => Pact.triple_raise fun _ h => ⟨_, h⟩
      · intro _
        apply Pact.triple_bind (triple_mark id)
        · exact fun _ => triple_showing (ho _ rfl)
        · exact fun _ _ h => h.elim
      · rintro thrown s ⟨done', hs⟩
        exact hs.shows
    · rintro s ⟨_, tab, _, hs⟩
      exact ⟨tab, hs⟩
    · exact fun _ _ h => h
  · exact fun _ _ h => h.2.shows

theorem triple_stopping (hnfc : NormalForm options.nfc) (ho : OnTab o id)
    {result : Type} {g : Bool -> Code result}
    {Q : Except Thrown result -> State -> Prop}
    (hg : forall close kill, (pact options).triple n
      (Did n o (some id) base (done ++ stopped close kill)
        (some DesiredState.stopped)) (g (!(close && kill))) Q)
    (hthrow : forall thrown s, Did n o (some id) base done k s ->
      Q (Except.error thrown) s) :
    (pact options).triple n (Did n o (some id) base done k)
      (do
        incrementGeneration id
        tryCatch (setDesiredState id DesiredState.stopped)
          fun _ => operationFailed
        mark id
        let failure ← stopRuntime id SESSION_STOPPED Reason.session_stopped
        g failure) Q := by
  apply Pact.triple_bind (triple_incrementGeneration Did.blind id)
  · intro _
    apply Pact.triple_bind (R := fun res s =>
      match res with
      | Except.error _ => Did n o (some id) base done k s
      | Except.ok _ => Did n o (some id) base (done ++ [Mark.stopped])
          (some DesiredState.stopped) s)
    · apply Pact.triple_tryCatch (triple_setDesiredState hnfc ho rfl)
      · exact fun _ _ h => h
      · exact fun _ => Pact.triple_raise fun _ h => h
    · intro _
      apply Pact.triple_bind (triple_mark id)
      · intro _
        apply Pact.triple_bind (triple_stopRuntime ho)
        · intro failure
          apply Pact.triple_exists
          intro close
          apply Pact.triple_exists
          intro kill
          apply Pact.triple_pure
          intro hfailure
          rw [hfailure]
          apply Pact.triple_consequence (hg close kill)
          · intro s hs
            rw [List.append_assoc, List.append_assoc] at hs
            exact hs
          · exact fun _ _ h => h
        · exact fun _ _ h => h.elim
      · exact fun _ _ h => h.elim
    · exact hthrow
  · exact fun _ _ h => h.elim

theorem triple_stopTab (hnfc : NormalForm options.nfc) (ho : OnTab o id) :
    (pact options).triple n (Did n o (some id) base done k) (stopTab id)
      (Shows n o (some id) base id fun _ steps =>
        steps = done ++ stopped true true) := by
  apply triple_stopping hnfc ho
  · intro close kill
    split
    · exact triple_failing ho fun view s hs => hs.shows
    · rename_i hfailed
      have hboth : close = true ∧ kill = true := by
        simpa using hfailed
      rw [hboth.1, hboth.2]
      exact triple_showing (ho _ rfl)
  · exact fun _ _ h => h.shows

/-- The answer about the session decides, with the bridge of that moment. -/
theorem triple_alreadyStopped {events : List Entry}
    (hproper : Proper o (PortCall.exists id)) :
    (pact options).triple n (Has n o q events k) (alreadyStopped id)
      (Pact.returns fun already s => exists r bridge, Has n o q
        (events ++ [Entry.asked n (PortCall.exists id),
          Entry.probed n id r bridge]) k s ∧
        (already = true <-> r = Except.ok false ∧ bridge = none)) := by
  apply Pact.triple_tryCatch (R := fun res s => exists r bridge, Has n o q
    (events ++ [Entry.asked n (PortCall.exists id),
      Entry.probed n id r bridge]) k s ∧
    match res with
    | Except.ok already => already = true <->
        r = Except.ok false ∧ bridge = none
    | Except.error _ => r = Except.error ())
  · apply Pact.triple_bind (R := fun res s => Has n o q
      (events ++ [Entry.asked n (PortCall.exists id),
        Entry.probed n id (res.mapError fun _ => ()) (s.bridge id)]) k s)
    · apply Pact.triple_bind (triple_probe hproper)
      · intro r
        cases r with
        | error _ => exact Pact.triple_raise fun _ h => h
        | ok answer => exact Pact.triple_ret fun _ h => h
      · exact fun _ _ h => h.elim
    · intro running
      apply Pact.triple_read
      intro s hs
      apply Pact.triple_ret
      intro s' hs'
      rw [hs']
      refine ⟨Except.ok running, s.bridge id, hs, ?_⟩
      cases running with
      | true => simp
      | false => simp
    · exact fun _ s hs => ⟨Except.error (), s.bridge id, hs, rfl⟩
  · exact fun _ _ h => h
  · intro thrown
    apply Pact.triple_ret
    rintro s ⟨r, bridge, hhas, hr⟩
    refine ⟨r, bridge, hhas, ?_⟩
    rw [hr]
    simp

theorem Has.did {events : List Entry} (h : Has n o q events k s) :
    Did n o q events [] k s :=
  ⟨[], rfl, by rw [List.append_nil]; exact h⟩

theorem head_filterMap {entry found : Type} {f : entry -> Option found}
    {front log : List entry} {a : found} (hbegin : front <+: log)
    (h : (front.filterMap f).head? = some a) :
    (log.filterMap f).head? = some a := by
  rcases hbegin with ⟨rest, hrest⟩
  rw [← hrest, List.filterMap_append, List.head?_append, h]
  rfl

/-- The beginning of the log of an operation on a tab, before it asks whether
there is a session. -/
structure Begun (document : PersistedTabsDocument) (events : List Entry) :
    Prop where
  locked : (events.filterMap lockedBy).head? = some document
  unasked : events.filterMap probeOf = []

theorem Begun.read {document document' : PersistedTabsDocument}
    {events : List Entry} (h : Begun document events) :
    Begun document (events ++ [Entry.read n document']) := by
  refine ⟨head_filterMap (List.prefix_append _ _) h.locked, ?_⟩
  rw [List.filterMap_append, h.unasked]
  rfl

theorem Begun.idle {document : PersistedTabsDocument}
    {front events : List Entry} (h : Begun document front)
    {r : Except Unit Bool} {bridge : Option Nat}
    (hbegin : front ++ [Entry.asked n (PortCall.exists id),
      Entry.probed n id r bridge] <+: events) :
    Idle id events <-> desiredOf document id = some DesiredState.stopped ∧
      r = Except.ok false ∧ bridge = none := by
  have hlocked : (events.filterMap lockedBy).head? = some document :=
    head_filterMap ((List.prefix_append _ _).trans hbegin) h.locked
  have hprobe : (events.filterMap probeOf).head? = some (r, bridge) := by
    apply head_filterMap hbegin
    rw [List.filterMap_append, h.unasked]
    rfl
  constructor
  · rintro ⟨document', hlocked', hstopped, hprobe'⟩
    rw [hlocked] at hlocked'
    rw [hprobe] at hprobe'
    cases hlocked'
    cases hprobe'
    exact ⟨hstopped, rfl, rfl⟩
  · rintro ⟨hstopped, hr, hbridge⟩
    rw [hr, hbridge] at hprobe
    exact ⟨document, hlocked, hstopped, hprobe⟩

/-- A tab that is not stopped is never idle. -/
theorem Begun.not_idle {document : PersistedTabsDocument}
    {front events : List Entry} (h : Begun document front)
    (hbegin : front <+: events)
    (hactive : desiredOf document id ≠ some DesiredState.stopped) :
    ¬ Idle id events := by
  rintro ⟨document', hlocked, hstopped, _⟩
  rw [head_filterMap hbegin h.locked] at hlocked
  cases hlocked
  exact hactive hstopped

/-- The early return of `terminateLocked` shows the record that was read. -/
theorem triple_terminateStopped (hnfc : NormalForm options.nfc)
    (ho : OnTab o id) {document : PersistedTabsDocument} {current : TabRecord}
    (hread : lastRead base = some document)
    (hfind : findRecord document id = some current)
    (hstopped : current.desiredState = DesiredState.stopped) :
    (pact options).triple n (Has n o (some id) base k)
      (do
        if ← alreadyStopped id then
          pure ⟨current, ⟨SessionState.stopped, false, none⟩⟩
        else stopTab id)
      (Shows n o (some id) base id fun events done =>
        Begun document base -> Terminated id events done) := by
  have hdesired : desiredOf document id = some DesiredState.stopped := by
    rw [← hstopped]
    exact congrArg (Option.map TabRecord.desiredState) hfind
  apply Pact.triple_bind (triple_alreadyStopped (ho _ rfl))
  · intro already
    apply Pact.triple_exists
    intro r
    apply Pact.triple_exists
    intro bridge
    apply Pact.triple_consequence (P := fun s =>
      (already = true <-> r = Except.ok false ∧ bridge = none) ∧
        Has n o (some id) (base ++ [Entry.asked n (PortCall.exists id),
          Entry.probed n id r bridge]) k s)
      (Q := Shows n o (some id) base id fun events done =>
        Begun document base -> Terminated id events done)
    · apply Pact.triple_pure
      intro halready
      have hidle : forall events, base ++ [Entry.asked n (PortCall.exists id),
          Entry.probed n id r bridge] <+: events -> Begun document base ->
          (Idle id events <-> already = true) := by
        intro events hbegin hbegun
        rw [hbegun.idle hbegin, halready]
        exact and_iff_right hdesired
      cases already with
      | true =>
          apply Pact.triple_ret
          intro s hs
          refine ⟨_, k, hs, ?_⟩
          intro view hview
          cases hview
          refine ⟨⟨findRecord_id hfind, document, ?_, hfind⟩, fun hbegun =>
            ⟨fun _ => rfl, fun hnot => absurd
              ((hidle _ (List.prefix_refl _) hbegun).mpr rfl) hnot⟩⟩
          rw [lastRead, List.filterMap_append]
          exact (congrArg List.getLast? (List.append_nil _)).trans hread
      | false =>
          apply Pact.triple_consequence (triple_stopTab hnfc ho)
            (fun _ h => h.did)
          intro res s hs
          apply hs.after
          intro events done hbegin hdone hbegun
          rw [hdone]
          refine ⟨fun hyes => ?_, fun _ => rfl⟩
          cases (hidle events hbegin hbegun).mp hyes
    · exact fun s h => ⟨h.2, h.1⟩
    · exact fun _ _ h => h
  · exact fun _ _ h => h.elim

theorem Shows.whole {res : Except Thrown TabView}
    {steps : List Entry -> List Mark -> Prop} (hbase : marks base = [])
    (h : Shows n o q base id steps res s) :
    Shows n o q [] id steps res s := by
  have hall : Shows n o q ([] ++ base) id steps res s := h
  apply hall.after
  intro events done _ hsteps
  rw [hbase]
  exact hsteps

theorem Has.failed {events : List Entry} {thrown : Thrown}
    (h : Has n o q events k s) :
    Shows n o q [] id steps (Except.error thrown) s :=
  ⟨events, k, h, fun _ hview => nomatch hview⟩

theorem triple_terminate (hnfc : NormalForm options.nfc) (ho : OnTab o id)
    {document : PersistedTabsDocument} (hbase : marks base = []) :
    (pact options).triple n
      (fun s => Has n o (some id) base k s ∧ s.document = document)
      (terminateLocked id)
      (Shows n o (some id) [] id fun events done =>
        Begun document base -> Terminated id events done) := by
  have hmarks : marks (base ++ [Entry.read n document] ++
      [Entry.read n document]) = [] := by
    rw [marks_append, marks_append, hbase]
    rfl
  unfold terminateLocked
  apply Pact.triple_bind triple_requireTab
  · intro _
    apply Pact.triple_bind (R := fun res s =>
      Has n o (some id) (base ++ [Entry.read n document] ++
        [Entry.read n document]) k s ∧
      match res with
      | Except.error _ => True
      | Except.ok tab => findRecord document id = some tab)
    · apply Pact.triple_consequence triple_requireRecord
        (fun s h => ⟨h.2.2, h.1⟩)
      intro res s hs
      refine ⟨hs.1, ?_⟩
      cases res with
      | ok tab => exact hs.2.2
      | error _ => trivial
    · intro current
      apply Pact.triple_consequence (P := fun s =>
        findRecord document id = some current ∧
          Has n o (some id) (base ++ [Entry.read n document] ++
            [Entry.read n document]) k s)
        (Q := Shows n o (some id) (base ++ [Entry.read n document] ++
          [Entry.read n document]) id fun events done =>
            Begun document base -> Terminated id events done)
      · apply Pact.triple_pure
        intro hfind
        by_cases hstopped : current.desiredState = DesiredState.stopped
        · rw [if_pos hstopped]
          apply Pact.triple_consequence (triple_terminateStopped hnfc ho
            (lastRead_append rfl) hfind hstopped) (fun _ h => h)
          intro res s hs
          exact hs.mono fun events done _ hsteps hbegun =>
            hsteps hbegun.read.read
        · rw [if_neg hstopped]
          apply Pact.triple_consequence (triple_stopTab hnfc ho)
            (fun _ h => h.did)
          intro res s hs
          apply hs.mono
          intro events done hbegin hdone hbegun
          have hnot : ¬ Idle id events := by
            apply hbegun.read.read.not_idle hbegin
            intro hdesired
            have hcurrent : desiredOf document id =
                some current.desiredState :=
              congrArg (Option.map TabRecord.desiredState) hfind
            rw [hcurrent] at hdesired
            exact hstopped (Option.some.inj hdesired)
          exact ⟨fun hidle => absurd hidle hnot, fun _ => hdone⟩
      · exact fun s h => ⟨h.2, h.1⟩
      · exact fun _ _ h => h.whole hmarks
    · exact fun _ _ h => h.1.failed
  · rintro _ s ⟨_, more, _, hhas⟩
    exact hhas.failed

def Holds (n : Nat) (o : Op) (q : Option JsString) (s : State) : Prop :=
  exists events k, Has n o q events k s

theorem Did.holds (h : Did n o q base done k s) : Holds n o q s := by
  rcases h with ⟨more, _, hhas⟩
  exact ⟨_, k, hhas⟩

theorem Shows.holds {res : Except Thrown TabView}
    (h : Shows n o q base id steps res s) : Holds n o q s := by
  rcases h with ⟨more, k, hhas, _⟩
  exact ⟨_, k, hhas⟩

theorem triple_terminateIfStale (hnfc : NormalForm options.nfc)
    (ho : OnTab o id) {captured : EligibilitySnapshot}
    (hbase : marks base = []) :
    (pact options).triple n (Has n o (some id) base k)
      (terminateIfStaleLocked id captured) (fun _ => Holds n o (some id)) := by
  have hskip : forall result : CleanupTerminationResult,
      (pact options).triple n (Has n o (some id) base k)
        (Prog.ret result : Code CleanupTerminationResult)
        (fun _ => Holds n o (some id)) :=
    fun _ => Pact.triple_ret fun _ h => ⟨base, k, h⟩
  unfold terminateIfStaleLocked
  split
  · exact hskip _
  · split
    · exact hskip _
    · apply Pact.triple_bind
        (triple_waiting rfl (fun _ => rfl) (fun _ _ => rfl))
      · intro answer
        cases answer with
        | error _ => exact hskip _
        | ok fresh =>
            dsimp only
            split
            · exact hskip _
            · split
              · exact hskip _
              · split
                · exact hskip _
                · apply triple_document
                  intro document
                  apply Pact.triple_bind (triple_terminate hnfc ho hbase)
                  · exact fun _ => Pact.triple_ret fun _ h => h.holds
                  · exact fun _ _ h => h.holds
      · exact fun _ _ h => h.elim

/-- How `closeTab` ends. -/
def Closes (n : Nat) (o : Op) (id : JsString) (base : List Entry)
    (steps : List Mark) (res : Except Thrown Unit) (s : State) : Prop :=
  exists more k, Has n o (some id) (base ++ more) k s ∧
    (res = Except.ok () -> marks more = steps)

theorem Did.closes {thrown : Thrown} {steps : List Mark}
    (h : Did n o (some id) base done k s) :
    Closes n o id base steps (Except.error thrown) s := by
  rcases h with ⟨more, _, hhas⟩
  exact ⟨more, k, hhas, fun hres => nomatch hres⟩

theorem triple_removing (hnfc : NormalForm options.nfc) (ho : OnTab o id)
    (hown : Own o (Mutation.remove id)) :
    (pact options).triple n (Did n o (some id) base done k)
      (do
        tryCatch (do let _ ← mutate (Mutation.remove id); pure ()) fun _ => do
          let view ← viewBestEffort id
          throw (Thrown.operation_failed view)
        Prog.modify fun s =>
          { s with generations := s.generations.delete id })
      (Closes n o id base (done ++ [Mark.changed])) := by
  apply Pact.triple_bind (R := fun res s =>
    match res with
    | Except.error thrown => Closes n o id base (done ++ [Mark.changed])
        (Except.error thrown) s
    | Except.ok _ => Did n o (some id) base (done ++ [Mark.changed]) none s)
  · apply Pact.triple_tryCatch (R := fun res s =>
      match res with
      | Except.error _ => Did n o (some id) base done k s
      | Except.ok _ => Did n o (some id) base (done ++ [Mark.changed]) none s)
    · apply triple_did
      intro more hmarks
      apply Pact.triple_bind (triple_mutate hnfc (proper_own hown)
        fun key hkey => by cases hkey; rfl)
      · intro sources
        apply Pact.triple_ret
        rintro s ⟨before, after, _, hs⟩
        exact Did.add hmarks rfl hs
      · exact fun _ _ hs => Did.same hmarks rfl hs
    · exact fun _ _ h => h
    · exact fun _ => triple_failing ho fun view s hs => hs.closes
  · intro _
    apply Pact.triple_consequence (triple_quiet
      (f := fun s => { s with generations := s.generations.delete id })
      Did.blind (fun _ => rfl) (fun _ => rfl) (fun _ => rfl) (fun _ => rfl))
      (fun _ h => h)
    intro res s hs
    cases res with
    | error _ => exact hs.elim
    | ok _ =>
        rcases hs with ⟨more, hmarks, hhas⟩
        exact ⟨more, none, hhas, fun _ => hmarks⟩
  · exact fun _ _ h => h

theorem triple_closeTab (hnfc : NormalForm options.nfc) (ho : OnTab o id)
    (hown : Own o (Mutation.remove id)) :
    (pact options).triple n (Did n o (some id) base [] k)
      (closeTabLocked id)
      (Closes n o id base (stopped true true ++ [Mark.changed])) := by
  apply triple_document
  intro document
  apply Pact.triple_bind
    (triple_requireLifecycleTab fun key hkey => (Option.some.inj hkey).symm)
  · intro _
    apply Pact.triple_consequence (P := fun s => exists tab : TabRecord,
      Did n o (some id) base [] (some tab.desiredState) s)
      (Q := Closes n o id base (stopped true true ++ [Mark.changed]))
    · apply Pact.triple_exists
      intro tab
      apply triple_stopping hnfc ho
      · intro close kill
        split
        · exact triple_failing ho fun view s hs => hs.closes
        · rename_i hfailed
          have hboth : close = true ∧ kill = true := by
            simpa using hfailed
          rw [hboth.1, hboth.2]
          exact triple_removing hnfc ho hown
      · exact fun _ _ h => h.closes
    · rintro s ⟨_, tab, _, hs⟩
      exact ⟨tab, hs⟩
    · exact fun _ _ h => h
  · exact fun _ _ h => h.2.closes

end Tabs

/-!
## Connections
-/

section Connections

variable {options : TabStore.Options} {n : Nat} {o : Op}
variable {q : Option JsString} {base : List Entry} {done : List Mark}
variable {k : Option DesiredState} {id : JsString} {s : State}

theorem triple_reads :
    (pact options).triple n (Did n o q base done k) snapshot
      (Pact.returns fun _ => Did n o q base done k) := by
  apply triple_document
  intro document
  apply triple_didDocument
  intro more hmarks
  apply Pact.triple_consequence triple_snapshot (fun _ h => h)
  intro res s hs
  cases res with
  | error _ => exact hs
  | ok read => exact Did.same hmarks rfl hs.2.1

theorem triple_spawn {dimensions : TerminalDimensions}
    (hproper : Proper o (PortCall.spawn id dimensions)) :
    (pact options).triple n (Did n o q base done k) (spawn id dimensions)
      (fun _ => Did n o q base done k) := by
  apply Pact.triple_bind (R := Pact.returns fun _ => Did n o q base done k)
  · apply Pact.triple_sync rfl
    intro cs s r hin hs _
    rcases hs with ⟨more, hmarks, hhas⟩
    have hasked := moves_record
      (e := Entry.asked n (PortCall.spawn id dimensions)) hin rfl trivial
      ⟨o, hhas.task, hproper⟩
    have hanswered := moves_record
      (e := Entry.answered n (PortCall.spawn id dimensions) (isOk r))
      ⟨hin.ok, hin.live, hasked.1⟩ rfl trivial trivial
    have hend := (hhas.record
      (e := Entry.asked n (PortCall.spawn id dimensions)) rfl).record
      (e := Entry.answered n (PortCall.spawn id dimensions) (isOk r)) rfl
    rw [List.append_assoc (base ++ more)] at hend
    constructor
    · exact (hasked.trans hanswered).trans
        (moves_quiet hanswered.1 rfl rfl rfl rfl)
    · have hdid : Did n o q base done k _ := Did.same hmarks rfl hend
      exact Did.blind ((s.record _).record _) _ rfl rfl rfl hdid
  · intro r
    cases r with
    | error _ => exact Pact.triple_raise fun _ h => h
    | ok pty => exact Pact.triple_ret fun _ h => h
  · exact fun _ _ h => h.elim

theorem triple_createBridge {socket pty : Nat} :
    (pact options).triple n (Did n o q base done k)
      (createBridge id socket pty) (fun _ => Did n o q base done k) := by
  apply Pact.triple_bind (R := Pact.returns fun _ => Did n o q base done k)
  · apply Pact.triple_sync rfl
    intro cs s r hin hs _
    exact ⟨moves_quiet hin.inv rfl rfl rfl rfl,
      Did.blind s _ rfl rfl rfl hs⟩
  · intro r
    cases r with
    | error _ => exact Pact.triple_raise fun _ h => h
    | ok owner => exact Pact.triple_ret fun _ h => h
  · exact fun _ _ h => h.elim

theorem triple_replaceBridge {owner : Nat}
    (hproper : forall operation,
      Proper o (PortCall.replaceBridge operation id owner)) :
    (pact options).triple n (Did n o q base done k) (replaceBridge id owner)
      (fun _ => Did n o q base done k) := by
  apply triple_reading
  intro s
  apply triple_attempt isOk (fun _ => []) rfl (fun s => ⟨_, rfl⟩)
    (fun _ _ => rfl) (hproper s.registry.next) (fun _ => rfl)
  intro r
  rw [List.append_nil]
  cases r with
  | error _ => exact Pact.triple_raise fun _ h => h
  | ok _ => exact Pact.triple_ret fun _ h => h

theorem triple_attach {socket : Nat} {dimensions : TerminalDimensions}
    {settings : SessionRuntimeSettings} (ho : o.tab = none) :
    (pact options).triple n (Did n o q base done k)
      (attach id socket dimensions settings) (fun _ => Holds n o q) := by
  unfold attach
  apply Pact.triple_bind
    (triple_prepare (proper_call ho fun _ h => nomatch h))
  · intro _
    apply Pact.triple_bind (triple_closeBridge
      fun _ => proper_call ho fun _ h => nomatch h)
    · intro _
      apply Pact.triple_bind (triple_spawn
        (proper_call ho fun _ h => nomatch h))
      · intro pty
        apply Pact.triple_bind triple_createBridge
        · intro bridge
          apply Pact.triple_bind (triple_replaceBridge
            fun _ => proper_call ho fun _ h => nomatch h)
          · intro _
            apply Pact.triple_bind (triple_mark id)
            · exact fun _ => Pact.triple_ret fun _ h => h.holds
            · exact fun _ _ h => h.elim
          · exact fun _ _ h => h.holds
        · exact fun _ _ h => h.holds
      · exact fun _ _ h => h.holds
    · exact fun _ _ h => h.holds
  · exact fun _ _ h => h.holds

theorem triple_connect {token : AttachToken} {socket : Nat}
    {dimensions : TerminalDimensions} (ho : o.tab = none) :
    (pact options).triple n (Did n o q base done k)
      (connectLocked options token socket dimensions)
      (fun _ => Holds n o q) := by
  unfold connectLocked currentRecord
  apply Pact.triple_bind (R := Pact.returns fun _ => Did n o q base done k)
  · apply Pact.triple_bind triple_reads
    · exact fun _ => Pact.triple_ret fun _ h => h
    · exact fun _ _ h => h.elim
  · intro record
    apply triple_reading
    intro s
    split
    · exact Pact.triple_raise fun _ h => h.holds
    · apply Pact.triple_bind triple_captureRuntimeSettings
      · exact fun settings => triple_attach ho
      · exact fun _ _ h => h.holds
  · exact fun _ _ h => h.elim

theorem triple_ensureGeneration {P : State -> Prop} (hP : Blind P)
    (key : JsString) :
    (pact options).triple n P (ensureGeneration key)
      (Pact.returns fun _ s => P s) := by
  unfold ensureGeneration
  apply triple_reading
  intro s
  split
  · exact Pact.triple_ret fun _ h => h
  · unfold nextGeneration
    apply Pact.triple_bind (R := Pact.returns fun _ s => P s)
    · apply triple_reading
      intro s
      apply Pact.triple_bind (triple_quiet
        (f := fun s => { s with generationClock := s.generationClock + 1 })
        hP (fun _ => rfl) (fun _ => rfl) (fun _ => rfl) (fun _ => rfl))
      · exact fun _ => Pact.triple_ret fun _ h => h
      · exact fun _ _ h => h.elim
    · intro generation
      apply Pact.triple_bind (triple_quiet
        (f := fun s =>
          { s with generations := s.generations.set key generation })
        hP (fun _ => rfl) (fun _ => rfl) (fun _ => rfl) (fun _ => rfl))
      · exact fun _ => Pact.triple_ret fun _ h => h
      · exact fun _ _ h => h.elim
    · exact fun _ _ h => h.elim

theorem triple_authorize :
    (pact options).triple n (Did n o q base done k) (authorize id)
      (fun _ => Did n o q base done k) := by
  unfold authorize
  split
  · exact Pact.triple_ret fun _ h => h
  · apply Pact.triple_bind triple_reads
    · intro read
      split
      · exact Pact.triple_ret fun _ h => h
      · rename_i record _
        split
        · exact Pact.triple_ret fun _ h => h
        · apply Pact.triple_bind (triple_ensureGeneration Did.blind id)
          · intro generation
            apply Pact.triple_bind (triple_quiet (f := fun s =>
              { s with issuedTokens := s.issuedTokens ++ [⟨id, generation⟩] })
              Did.blind (fun _ => rfl) (fun _ => rfl) (fun _ => rfl)
              (fun _ => rfl))
            · exact fun _ => Pact.triple_ret fun _ h => h
            · exact fun _ _ h => h.elim
          · exact fun _ _ h => h.elim
    · exact fun _ _ h => h.elim

end Connections

/-!
## The routes
-/

section Routes

variable {options : TabStore.Options} {n : Nat} {o : Op}
variable {q : Option JsString} {events : List Entry}
variable {k : Option DesiredState} {id : JsString} {s : State}

theorem triple_collectionView :
    (pact options).triple n (Has n o q events k) collectionView
      (Pact.returns fun collection s => exists more, marks more = [] ∧
        Has n o q (events ++ more) k s ∧
        Collected (events ++ more) collection) := by
  apply triple_document
  intro document
  unfold collectionView
  apply Pact.triple_bind triple_snapshot
  · intro collection
    apply Pact.triple_pure
    intro hcollection
    rw [hcollection]
    apply Pact.triple_bind triple_registryEntries
    · intro entries
      apply Pact.triple_bind (R := Pact.returns fun _ =>
        Has n o q (events ++ [Entry.read n document]) k)
      · apply Pact.triple_consequence
          (triple_waiting rfl (fun _ => rfl) (fun _ _ => rfl))
          (fun _ h => h.1) (fun _ _ h => h)
      · intro active
        apply Pact.triple_ret
        intro s hs
        refine ⟨_, rfl, hs, events, n, document, rfl, rfl, ?_⟩
        simp [Function.comp_def]
      · exact fun _ _ h => h.elim
    · exact fun _ _ h => h.elim
  · exact fun _ _ h => h.elim

theorem triple_mutating {result : Type} (hnfc : NormalForm options.nfc)
    {mutation : Mutation} (hown : Own o mutation)
    (htouched : touched mutation = none) {g : Sources -> Code result}
    {Q : Except Thrown result -> State -> Prop}
    (hg : forall sources before after k,
      Committed options sources before mutation after ->
      sources.randomUUID ∉ before.tabs.map TabRecord.id ->
      (pact options).triple n
        (Has n o q (events ++ [Entry.asked n (PortCall.commit mutation),
          Entry.committed n mutation before after]) k) (g sources) Q)
    (hthrow : forall thrown events s, Has n o q events k s ->
      Q (Except.error thrown) s) :
    (pact options).triple n (Has n o q events k) (mutate mutation >>= g) Q := by
  apply Pact.triple_bind (triple_mutate hnfc (proper_own hown)
    fun key hkey => nomatch htouched.symm.trans hkey)
  · intro sources
    apply Pact.triple_exists
    intro before
    apply Pact.triple_exists
    intro after
    apply Pact.triple_pure
    intro hcommitted
    exact hg sources before after _ hcommitted.1 hcommitted.2
  · exact fun thrown s hs => hthrow thrown _ s hs

theorem triple_mutates (hnfc : NormalForm options.nfc) {mutation : Mutation}
    (hown : Own o mutation) (htouched : touched mutation = none) :
    (pact options).triple n (Has n o q events k) (mutate mutation)
      (fun _ => Holds n o q) := by
  apply Pact.triple_consequence (triple_mutate hnfc (proper_own hown)
    fun key hkey => nomatch htouched.symm.trans hkey) (fun _ h => h)
  intro res s hs
  cases res with
  | ok sources =>
      rcases hs with ⟨before, after, _, hhas⟩
      exact ⟨_, _, hhas⟩
  | error thrown => exact ⟨_, _, hs⟩

theorem created_of_committed {sources : Sources} {name : Option JsString}
    {before after : PersistedTabsDocument} {more : List Entry}
    (hcommitted : Committed options sources before (Mutation.create name) after)
    (hfresh : sources.randomUUID ∉ before.tabs.map TabRecord.id)
    (hmem : Entry.committed n (Mutation.create name) before after ∈ more) :
    Created n name more sources.randomUUID := by
  refine ⟨before, after, hmem, ?_, hfresh⟩
  cases hcommitted with
  | create title tab _ haccepted =>
      rw [List.map_append]
      apply List.mem_append_right
      apply List.mem_singleton.mpr
      rw [haccepted.rest]
      rfl

/-- How `POST /tabs` ends. -/
def Creates (n : Nat) (o : Op) (name : Option JsString)
    (res : Except Thrown TabView) (s : State) : Prop :=
  exists events k, Has n o none events k s ∧
    forall view, res = Except.ok view -> Viewed events view.id view ∧
      marks events = [Mark.changed] ∧ Created n name events view.id

theorem triple_createRoute (hnfc : NormalForm options.nfc)
    {name : Option JsString} (hown : Own o (Mutation.create name))
    (ho : o.tab = none) (hevents : marks events = []) :
    (pact options).triple n (Has n o none events k) (createRoute name)
      (Creates n o name) := by
  apply triple_mutating hnfc hown rfl
  · intro sources before after k' hcommitted hfresh
    apply Pact.triple_consequence (triple_view (q := none)
      (proper_call ho fun _ h => nomatch h) fun _ h => nomatch h)
      (fun _ h => h.did)
    rintro res s ⟨more, k'', hhas, hview⟩
    refine ⟨_, k'', hhas, ?_⟩
    intro view hres
    rcases hview view hres with ⟨hviewed, hmarks⟩
    rw [hviewed.1]
    refine ⟨hviewed, ?_, ?_⟩
    · rw [marks_append, marks_append, hevents, hmarks]
      rfl
    · apply created_of_committed hcommitted hfresh
      simp
  · exact fun _ events' _ hs => ⟨events', k, hs, fun _ h => nomatch h⟩

theorem triple_renameRoute (hnfc : NormalForm options.nfc) {name : JsString}
    (hown : Own o (Mutation.rename id name)) (ho : o.tab = none)
    (hevents : marks events = []) :
    (pact options).triple n (Has n o none events k) (renameRoute id name)
      (Shows n o none [] id fun _ steps => steps = [Mark.changed]) := by
  apply triple_mutating hnfc hown rfl
  · intro sources before after k' _ _
    apply Pact.triple_consequence (triple_view (q := none)
      (proper_call ho fun _ h => nomatch h) fun _ h => nomatch h)
      (fun _ h => h.did)
    intro res s hs
    have hall : Shows n o none
        ([] ++ (events ++ [Entry.asked n (PortCall.commit
          (Mutation.rename id name)), Entry.committed n
          (Mutation.rename id name) before after])) id
        (fun _ steps => steps = []) res s := hs
    apply hall.after
    intro _ done _ hdone
    rw [hdone, marks_append, hevents]
    rfl
  · exact fun _ _ _ hs => hs.failed

/-- How an operation that answers with a collection ends. -/
def Collects (n : Nat) (o : Op) (steps : List Mark)
    (res : Except Thrown TabCollectionResponse) (s : State) : Prop :=
  exists events k, Has n o none events k s ∧
    forall collection, res = Except.ok collection ->
      Collected events collection ∧ marks events = steps

theorem triple_collecting {steps : List Mark} (hevents : marks events = steps) :
    (pact options).triple n (Has n o none events k) collectionView
      (Collects n o steps) := by
  apply Pact.triple_consequence triple_collectionView (fun _ h => h)
  intro res s hs
  cases res with
  | error _ => exact hs.elim
  | ok collection =>
      rcases hs with ⟨more, hmarks, hhas, hcollected⟩
      refine ⟨_, k, hhas, ?_⟩
      intro collection' hres
      cases hres
      rw [marks_append, hevents, hmarks, List.append_nil]
      exact ⟨hcollected, rfl⟩

theorem triple_reorderRoute (hnfc : NormalForm options.nfc) {revision : Nat}
    {ids : List JsString} (hown : Own o (Mutation.reorder revision ids))
    (hevents : marks events = []) :
    (pact options).triple n (Has n o none events k)
      (reorderRoute revision ids) (Collects n o [Mark.changed]) := by
  apply triple_mutating hnfc hown rfl
  · intro sources before after k' _ _
    apply triple_collecting
    rw [marks_append, hevents]
    rfl
  · exact fun _ events' _ hs => ⟨events', k, hs, fun _ h => nomatch h⟩

end Routes

/-!
## Every operation

An operation starts with nothing in its log and ends with its outcome.
-/

def Finished (n : Nat) (o : Op) (res : Except Thrown Value) (s : State) :
    Prop :=
  exists events, Has n o none events none s ∧
    Outcome n events res s.document o

section Bodies

variable {options : TabStore.Options} {n : Nat} {o : Op}
variable {id : JsString} {s : State}

theorem finished_of {k : Option DesiredState} {events : List Entry}
    {res : Except Thrown Value} (h : Has n o none events k s)
    (hres : Outcome n events res s.document o) : Finished n o res s :=
  ⟨events, h.forget, hres⟩

theorem triple_section {result : Type} {p : Code result}
    {f : result -> Value}
    (hp : forall document, (pact options).triple n
      (fun s => Has n o (some id)
        [Entry.entered n o, Entry.locked n id document] none s ∧
          s.document = document) p
      (fun res s => exists events k, Has n o (some id) events k s ∧
        Outcome n events (res.map f) s.document o)) :
    (pact options).triple n (Has n o none [Entry.entered n o] none)
      (f <$> runExclusive n id p) (Finished n o) := by
  apply Pact.triple_map
  exact triple_runExclusive
    (Q := fun res events document =>
      Outcome n events (res.map f) document o) hp

theorem triple_lifecycleSection {p : Code TabView} {front : List Mark}
    {early : List Mark -> Prop}
    (houtcome : forall events res document,
      Lifecycle id front early events res document ->
      Outcome n events res document o)
    (hp : forall document, (pact options).triple n
      (fun s => Did n o (some id)
        [Entry.entered n o, Entry.locked n id document] [] none s ∧
          s.document = document) p
      (Ends n o id [Entry.entered n o, Entry.locked n id document] front
        early)) :
    (pact options).triple n (Has n o none [Entry.entered n o] none)
      (Value.view <$> runExclusive n id p) (Finished n o) := by
  apply triple_section
  intro document
  apply Pact.triple_consequence (hp document)
  · exact fun s h => ⟨h.1.did, h.2⟩
  · rintro res s ⟨events, k, hhas, _, hends⟩
    exact ⟨events, k, hhas, houtcome _ _ _ hends⟩

theorem showed_of {steps : List Entry -> List Mark -> Prop}
    {q : Option JsString} {res : Except Thrown TabView}
    (h : Shows n o q [] id steps res s) :
    exists events k, Has n o q events k s ∧
      Showed id (steps events) events (res.map Value.view) := by
  rcases h with ⟨events, k, hhas, hview⟩
  refine ⟨events, k, hhas, ?_⟩
  intro value hvalue
  cases res with
  | error _ => cases hvalue
  | ok view =>
      cases hvalue
      exact ⟨view, rfl, hview view rfl⟩

theorem begun_section {document : PersistedTabsDocument} :
    Begun document [Entry.entered n o, Entry.locked n id document] :=
  ⟨rfl, rfl⟩

theorem triple_showSection {p : Code TabView}
    {C : List Entry -> List Mark -> Prop}
    (houtcome : forall events res document,
      Showed id (C events) events res -> Outcome n events res document o)
    (hp : forall document, (pact options).triple n
      (fun s => Has n o (some id)
        [Entry.entered n o, Entry.locked n id document] none s ∧
          s.document = document) p (Shows n o (some id) [] id C)) :
    (pact options).triple n (Has n o none [Entry.entered n o] none)
      (Value.view <$> runExclusive n id p) (Finished n o) := by
  apply triple_section
  intro document
  apply Pact.triple_consequence (hp document) (fun _ h => h)
  intro res s hs
  rcases showed_of hs with ⟨events, k, hhas, hshowed⟩
  exact ⟨events, k, hhas, houtcome _ _ _ hshowed⟩

theorem triple_show {p : Code TabView}
    {C : List Entry -> List Mark -> Prop}
    (houtcome : forall events res document,
      Showed id (C events) events res -> Outcome n events res document o)
    (hp : (pact options).triple n (Has n o none [Entry.entered n o] none) p
      (Shows n o none [] id C)) :
    (pact options).triple n (Has n o none [Entry.entered n o] none)
      (Value.view <$> p) (Finished n o) := by
  apply Pact.triple_map
  apply Pact.triple_consequence hp (fun _ h => h)
  intro res s hs
  rcases showed_of hs with ⟨events, k, hhas, hshowed⟩
  exact finished_of hhas (houtcome _ _ _ hshowed)

theorem triple_collect {p : Code TabCollectionResponse} {steps : List Mark}
    (houtcome : forall events res document,
      (forall value, res = Except.ok value -> exists collection,
        value = Value.collection collection ∧ Collected events collection ∧
          marks events = steps) -> Outcome n events res document o)
    (hp : (pact options).triple n (Has n o none [Entry.entered n o] none) p
      (Collects n o steps)) :
    (pact options).triple n (Has n o none [Entry.entered n o] none)
      (Value.collection <$> p) (Finished n o) := by
  apply Pact.triple_map
  apply Pact.triple_consequence hp (fun _ h => h)
  rintro res s ⟨events, k, hhas, hcollection⟩
  apply finished_of hhas
  apply houtcome
  intro value hvalue
  cases res with
  | error _ => cases hvalue
  | ok collection =>
      cases hvalue
      exact ⟨collection, rfl, hcollection collection rfl⟩

theorem triple_plain {result : Type} {p : Code result} {f : result -> Value}
    (houtcome : forall events res document, Outcome n events res document o)
    (hp : (pact options).triple n (Has n o none [Entry.entered n o] none) p
      (fun _ => Holds n o none)) :
    (pact options).triple n (Has n o none [Entry.entered n o] none)
      (f <$> p) (Finished n o) := by
  apply Pact.triple_map
  apply Pact.triple_consequence hp (fun _ h => h)
  rintro res s ⟨events, k, hhas⟩
  exact finished_of hhas (houtcome _ _ _)

theorem triple_createBody (hnfc : NormalForm options.nfc)
    {name : Option JsString} :
    (pact options).triple n
      (Has n (Op.create name) none [Entry.entered n (Op.create name)] none)
      (Value.view <$> createRoute name) (Finished n (Op.create name)) := by
  apply Pact.triple_map
  apply Pact.triple_consequence (triple_createRoute (o := Op.create name) hnfc rfl
    rfl rfl)
    (fun _ h => h)
  rintro res s ⟨events, k, hhas, hview⟩
  apply finished_of hhas
  intro value hvalue
  cases res with
  | error _ => cases hvalue
  | ok view =>
      cases hvalue
      exact ⟨view, rfl, hview view rfl⟩

theorem triple_closeBody (hnfc : NormalForm options.nfc) :
    (pact options).triple n
      (Has n (Op.closeTab id) none [Entry.entered n (Op.closeTab id)] none)
      ((fun _ => Value.none) <$> closeTab n id)
      (Finished n (Op.closeTab id)) := by
  apply triple_section
  intro document
  apply Pact.triple_consequence
    (triple_closeTab (o := Op.closeTab id) hnfc (onTab rfl) rfl)
    (fun _ h => h.1.did)
  rintro res s ⟨more, k, hhas, hmarks⟩
  refine ⟨_, k, hhas, ?_⟩
  intro value hvalue
  cases res with
  | error _ => cases hvalue
  | ok _ =>
      cases hvalue
      exact ⟨rfl, hmarks rfl⟩

theorem triple_connectBody {token : AttachToken} {socket : Nat}
    {dimensions : TerminalDimensions} :
    (pact options).triple n
      (Has n (Op.connect token socket dimensions) none
        [Entry.entered n (Op.connect token socket dimensions)] none)
      (Value.owner <$> connect options n token socket dimensions)
      (Finished n (Op.connect token socket dimensions)) := by
  apply triple_plain (o := Op.connect token socket dimensions)
    (fun _ _ _ => trivial)
  unfold connect
  apply triple_reading
  intro s
  split
  · exact Pact.triple_raise fun _ h => ⟨_, _, h⟩
  · split
    · exact Pact.triple_raise fun _ h => ⟨_, _, h⟩
    · apply Pact.triple_consequence (triple_runExclusive
        (Q := fun _ _ _ => True) ?_) (fun _ h => h)
      · rintro res s ⟨events, hhas, _⟩
        exact ⟨events, none, hhas⟩
      · intro document
        apply Pact.triple_consequence (triple_connect rfl)
          (fun _ h => h.1.did)
        rintro res s ⟨events, k, hhas⟩
        exact ⟨events, k, hhas, trivial⟩

theorem triple_body (hnfc : NormalForm options.nfc) (o : Op) :
    (pact options).triple n (Has n o none [Entry.entered n o] none)
      (body options n o) (Finished n o) := by
  cases o with
  | authorize id =>
      apply triple_plain (o := Op.authorize id) (fun _ _ _ => trivial)
      apply Pact.triple_consequence triple_authorize (fun _ h => h.did)
        (fun _ _ h => h.holds)
  | connect token socket dimensions => exact triple_connectBody
  | terminate id =>
      apply triple_showSection (o := Op.terminate id) (C := Terminated id)
        (fun _ _ _ h => h)
      intro document
      apply Pact.triple_consequence
        (triple_terminate hnfc (onTab rfl) rfl) (fun _ h => h)
      intro res s hs
      exact hs.mono fun _ _ _ hsteps => hsteps begun_section
  | terminateIfStale id captured =>
      apply triple_section
      intro document
      apply Pact.triple_consequence
        (triple_terminateIfStale hnfc (onTab rfl) rfl) (fun _ h => h.1)
      rintro res s ⟨events, k, hhas⟩
      exact ⟨events, k, hhas, trivial⟩
  | recreate id =>
      apply triple_lifecycleSection (o := Op.recreate id) (fun _ _ _ h => h)
      exact fun document => triple_recreate hnfc rfl (by simp)
  | restart id =>
      apply triple_lifecycleSection (o := Op.restart id) (fun _ _ _ h => h)
      exact fun document => triple_restart hnfc rfl (by simp)
  | restartBridge id =>
      apply triple_showSection (o := Op.restartBridge id) (C := fun _ done =>
        done = [Mark.closing, Mark.closed true]) (fun _ _ _ h => h)
      intro document
      apply Pact.triple_consequence (triple_restartBridge (onTab rfl))
        (fun _ h => h.1.did)
      exact fun _ _ h => h.whole rfl
  | closeTab id => exact triple_closeBody hnfc
  | view id =>
      apply triple_show (o := Op.view id) (C := fun _ done => done = [])
        (fun _ _ _ h => h)
      apply Pact.triple_consequence (triple_view (q := none)
        (proper_call rfl fun _ h => nomatch h) fun _ h => nomatch h)
        (fun _ h => h.did)
      exact fun _ _ h => h.whole rfl
  | collectionView =>
      exact triple_collect (o := Op.collectionView) (fun _ _ _ h => h)
        (triple_collecting rfl)
  | create name => exact triple_createBody hnfc
  | rename id name =>
      exact triple_show (o := Op.rename id name)
        (C := fun _ done => done = [Mark.changed]) (fun _ _ _ h => h)
        (triple_renameRoute hnfc rfl rfl rfl)
  | reorder revision ids =>
      exact triple_collect (o := Op.reorder revision ids) (fun _ _ _ h => h)
        (triple_reorderRoute hnfc rfl rfl)
  | ensureInitialTab =>
      apply triple_plain (o := Op.ensureInitialTab) (fun _ _ _ => trivial)
      exact triple_mutates hnfc rfl rfl
  | flushActivity ids now =>
      apply triple_plain (o := Op.flushActivity ids now)
        (fun _ _ _ => trivial)
      exact triple_mutates hnfc rfl rfl

end Bodies

/-!
## Runs
-/

section Runs

variable {options : TabStore.Options}

theorem has_entered {cs : Census} {s : State} {o : Op} (hok : cs.Ok)
    (hinv : Inv options cs s) :
    Has cs.next o none [Entry.entered cs.next o] none
      (s.record (Entry.entered cs.next o)) := by
  have hown : own cs.next s.log = [] := by
    apply List.filter_eq_nil_iff.mpr
    intro e he hnumber
    have hlt := hinv.numbers e he
    rw [of_decide_eq_true hnumber] at hlt
    exact absurd hlt (Nat.lt_irrefl _)
  have hrecorded : own cs.next (s.record (Entry.entered cs.next o)).log =
      [Entry.entered cs.next o] := by
    rw [own_record_same (n := cs.next) rfl, hown]
    rfl
  refine ⟨?_, fun _ h => (nomatch h), hrecorded, ?_, fun _ _ h => (nomatch h)⟩
  · apply List.filter_eq_nil_iff.mpr
    intro x hx hnumber
    have hlt := hok x.2 (hinv.queue x hx)
    rw [of_decide_eq_true hnumber] at hlt
    exact absurd hlt (Nat.lt_irrefl _)
  · rw [taskOf, hrecorded]

theorem moves_enter {cs : Census} {s : State} {o : Op}
    (hinv : Inv options cs s) :
    (pact options).Moves cs.next cs.enter s
      (s.record (Entry.entered cs.next o)) := by
  rcases fits_placed hinv (e := Entry.entered cs.next o) trivial with
    ⟨hcommits, hplaced⟩
  have hnew : ¬ Over cs.next s.log := by
    intro hover
    rcases hover with ⟨o', res, document, hended⟩
    exact Nat.lt_irrefl _ (hinv.numbers _ hended)
  refine ⟨⟨hinv.history, ?_, ?_, ?_, ?_, ?_, ?_, ?_⟩, ?_⟩
  · exact fun x hx => Or.inr (hinv.queue x hx)
  · intro e he
    rcases List.mem_append.mp he with he | he
    · exact Nat.lt_succ_of_lt (hinv.numbers e he)
    · rw [List.mem_singleton.mp he]
      exact Nat.lt_succ_self _
  · exact everyEntry_snoc.mpr ⟨hinv.good, trivial⟩
  · exact hinv.size.trans (congrArg (fun x => x + 1) hcommits.symm)
  · exact everyEntry_snoc.mpr ⟨hinv.placed, hplaced⟩
  · intro m hm hlive
    have hover := over_snoc (fun _ _ _ _ => Entry.noConfusion) hm
    rcases hlive with heq | hlive
    · rw [heq] at hover
      exact hnew hover
    · exact hinv.gone m hover hlive
  · exact everyEntry_snoc.mpr ⟨hinv.silent, hnew⟩
  · intro m hm
    exact ⟨rfl, own_record_other rfl hm, fun _ h => h, fun _ _ _ h => h⟩

theorem moves_leave {n : Nat} {cs : Census} {s : State} {o : Op}
    {res : Except Thrown Value} (hin : (pact options).Inside n cs s)
    (h : Finished n o res s) :
    (pact options).Moves n (cs.without n) s
      (s.record (Entry.ended n o res s.document)) := by
  rcases h with ⟨events, hhas, houtcome⟩
  have hgood : Good options s.log (Entry.ended n o res s.document) := by
    refine ⟨hhas.task, ?_⟩
    rw [hhas.log]
    exact houtcome
  have hcommits : commits (s.log ++ [Entry.ended n o res s.document]) =
      commits s.log := commits_append _ _
  refine ⟨⟨hin.inv.history, ?_, ?_, ?_, ?_, ?_, ?_, ?_⟩, ?_⟩
  · intro x hx
    refine ⟨?_, hin.inv.queue x hx⟩
    intro hn
    have hmem : x ∈ ownLocks n s.mutex :=
      List.mem_filter.mpr ⟨hx, decide_eq_true hn⟩
    rw [hhas.locks] at hmem
    cases hmem
  · intro e he
    rcases List.mem_append.mp he with he | he
    · exact hin.inv.numbers e he
    · rw [List.mem_singleton.mp he]
      exact hin.ok n hin.live
  · exact everyEntry_snoc.mpr ⟨hin.inv.good, hgood⟩
  · exact hin.inv.size.trans (congrArg (fun x => x + 1) hcommits.symm)
  · exact everyEntry_snoc.mpr ⟨hin.inv.placed, trivial⟩
  · intro m hm hlive
    rcases hm with ⟨o', res', document, hended⟩
    rcases List.mem_append.mp hended with hended | hended
    · exact hin.inv.gone m ⟨o', res', document, hended⟩ hlive.2
    · cases List.mem_singleton.mp hended
      exact hlive.1 rfl
  · exact everyEntry_snoc.mpr ⟨hin.inv.silent, not_over hin⟩
  · intro m hm
    exact ⟨rfl, own_record_other rfl hm, fun _ h => h, fun _ _ _ h => h⟩

theorem pact_sound (hnfc : NormalForm options.nfc) :
    Contract.Sound (manager options) (pact options).contract := by
  apply Pact.sound
  intro cs s o hok hinv _
  refine ⟨moves_enter hinv, Finished cs.next o, ?_, ?_⟩
  · apply Pact.triple_consequence (triple_body hnfc o)
    · intro s' hs'
      rw [hs']
      exact has_entered hok hinv
    · exact fun _ _ h => h
  · exact fun cs' s' res hin h => moves_leave hin h

theorem inv_initial {document : PersistedTabsDocument}
    (h : parseDocument options.nfc document = some document) :
    Inv options ⟨0, fun _ => False⟩ (State.initial document) where
  history := History.initial (parseDocument_some.mp h)
  queue _ hx := nomatch hx
  numbers _ he := nomatch he
  good := everyEntry_nil _
  size := rfl
  placed := everyEntry_nil _
  gone := by
    intro n hover
    rcases hover with ⟨o, res, document, hended⟩
    exact absurd hended List.not_mem_nil
  silent := everyEntry_nil _

theorem run_inv (hnfc : NormalForm options.nfc)
    {cfg : Config State ports Thrown Value Op} (h : Run options cfg) :
    Inv options cfg.census cfg.shared := by
  rcases h with ⟨document, hdocument, hreach⟩
  exact Pact.reachable (pact_sound hnfc) (inv_initial hdocument) hreach

end Runs

end SessionManager
end Server
end FlanTerminal

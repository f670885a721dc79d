import Mathlib.Data.List.Induction
import FlanTerminal.Server.SessionManagerResults

/-!
# The history of the tabs

The log and the list of documents that the store has held only grow.  An
identifier is new in one document only, and once a tab is gone it stays away.
-/

namespace FlanTerminal
namespace Server
namespace SessionManager

open Foundation
open Shared
open TabStore (Mutation Sources Committed desiredOf touched)
open TerminalBridge (Reason)

/-!
## What every step keeps
-/

def Later (s s' : State) : Prop :=
  s.log <+: s'.log ∧ s.history <+: s'.history

theorem later_refl (s : State) : Later s s :=
  ⟨List.prefix_refl _, List.prefix_refl _⟩

theorem Later.trans {s s' s'' : State} (h : Later s s') (h' : Later s' s'') :
    Later s s'' :=
  ⟨h.1.trans h'.1, h.2.trans h'.2⟩

theorem later_record (s : State) (e : Entry) : Later s (s.record e) :=
  ⟨List.prefix_append _ _, List.prefix_refl _⟩

section Pieces

variable {result : Type} {id : JsString}

theorem later_ask (c : PortCall) :
    (Prog.ask (I := ports) c : Code (PortReply c)).Within Later :=
  fun _ => trivial

theorem later_modify {f : State -> State} (hlog : forall s, (f s).log = s.log)
    (hhistory : forall s, (f s).history = s.history) :
    (Prog.modify f : Code Unit).Within Later := by
  apply Prog.within_modify
  intro s
  rw [Later, hlog, hhistory]
  exact later_refl s

theorem later_asking {c : PortCall} {g : PortReply c -> Code result}
    (hg : forall r, (g r).Within Later) :
    (Prog.ask (I := ports) c >>= g).Within Later :=
  Prog.within_bind (later_ask c) hg

theorem later_reading {g : State -> Code result}
    (hg : forall s, (g s).Within Later) :
    (Prog.read >>= g).Within Later :=
  Prog.within_read later_refl hg

theorem later_runExclusive {n : Nat} {p : Code result} (hp : p.Within Later) :
    (runExclusive n id p).Within Later := by
  apply Prog.within_bind (later_modify (fun _ => rfl) (fun _ => rfl))
  intro _
  apply later_asking
  intro _
  exact Prog.within_always hp (later_modify (fun _ => rfl) (fun _ => rfl))

theorem later_mutate (mutation : Mutation) : (mutate mutation).Within Later := by
  apply later_asking
  intro r
  cases r with
  | error thrown => trivial
  | ok sources => exact later_asking fun _ => trivial

theorem later_setDesiredState (state : DesiredState) :
    (setDesiredState id state).Within Later :=
  Prog.within_bind (later_mutate _) fun _ => trivial

theorem later_requireLifecycleTab : (requireLifecycleTab id).Within Later := by
  unfold requireLifecycleTab
  split
  · trivial
  · apply later_asking
    intro read
    split
    · trivial
    · trivial

theorem later_requireCurrentRecord :
    (requireCurrentRecord id).Within Later := by
  apply Prog.within_bind
  · exact later_asking fun _ => trivial
  · intro record
    cases record with
    | none => trivial
    | some record => trivial

theorem later_nextGeneration : nextGeneration.Within Later := by
  apply later_reading
  intro s
  exact Prog.within_bind (later_modify (fun _ => rfl) (fun _ => rfl))
    fun _ => trivial

theorem later_incrementGeneration : (incrementGeneration id).Within Later :=
  Prog.within_bind later_nextGeneration
    fun _ => later_modify (fun _ => rfl) (fun _ => rfl)

theorem later_ensureGeneration : (ensureGeneration id).Within Later := by
  apply later_reading
  intro s
  split
  · trivial
  · apply Prog.within_bind later_nextGeneration
    intro _
    exact Prog.within_bind (later_modify (fun _ => rfl) (fun _ => rfl))
      fun _ => trivial

theorem later_ownerPids (entries : List (JsString × Nat)) :
    (ownerPids entries).Within Later := by
  induction entries with
  | nil => trivial
  | cons entry rest ih =>
      apply later_asking
      intro _
      exact Prog.within_bind ih fun _ => trivial

theorem later_registryEntries : registryEntries.Within Later :=
  later_reading fun s => later_ownerPids s.entries

theorem later_probeHealth : (probeHealth id).Within Later := by
  apply Prog.within_bind later_registryEntries
  intro _
  apply later_asking
  intro r
  cases r with
  | error _ => trivial
  | ok answer =>
      cases answer with
      | true => trivial
      | false => trivial

theorem later_currentView : (currentView id).Within Later :=
  Prog.within_bind later_requireCurrentRecord fun _ =>
    Prog.within_bind later_probeHealth fun _ => trivial

theorem later_viewBestEffort : (viewBestEffort id).Within Later :=
  Prog.within_tryCatch
    (Prog.within_bind later_currentView fun _ => trivial) fun _ => trivial

theorem later_exists? : (exists? id).Within Later := by
  apply later_asking
  intro r
  cases r with
  | error _ => trivial
  | ok _ => trivial

theorem later_kill : (kill id).Within Later := by
  apply later_asking
  intro r
  cases r with
  | error _ => trivial
  | ok _ => trivial

theorem later_prepare (settings : SessionRuntimeSettings) :
    (prepare id settings).Within Later := by
  apply later_asking
  intro r
  cases r with
  | error _ => trivial
  | ok _ => trivial

theorem later_closeBridge (code : Nat) (reason : Reason) :
    (closeBridge id code reason).Within Later := by
  apply later_reading
  intro s
  apply later_asking
  intro r
  cases r with
  | error _ => trivial
  | ok _ => trivial

theorem later_replaceBridge (owner : Nat) :
    (replaceBridge id owner).Within Later := by
  apply later_reading
  intro s
  apply later_asking
  intro r
  cases r with
  | error _ => trivial
  | ok _ => trivial

theorem later_stopRuntime (code : Nat) (reason : Reason) :
    (stopRuntime id code reason).Within Later := by
  apply Prog.within_bind
  · exact Prog.within_tryCatch
      (Prog.within_bind (later_closeBridge code reason) fun _ => trivial)
      fun _ => trivial
  · intro _
    exact Prog.within_tryCatch
      (Prog.within_bind later_kill fun _ => trivial) fun _ => trivial

theorem later_failing :
    (do
      let view ← viewBestEffort id
      throw (Thrown.operation_failed view) : Code result).Within Later :=
  Prog.within_bind later_viewBestEffort fun _ => trivial

theorem later_captureRuntimeSettings (options : TabStore.Options) :
    (captureRuntimeSettings options).Within Later := by
  apply later_asking
  intro settings
  cases settings with
  | none => trivial
  | some settings =>
      dsimp only
      split
      · trivial
      · trivial

theorem later_spawn (dimensions : TerminalDimensions) :
    (spawn id dimensions).Within Later := by
  apply later_asking
  intro r
  cases r with
  | error _ => trivial
  | ok _ => trivial

theorem later_createBridge (socket pty : Nat) :
    (createBridge id socket pty).Within Later := by
  apply later_asking
  intro r
  cases r with
  | error _ => trivial
  | ok _ => trivial

theorem later_attach (socket : Nat) (dimensions : TerminalDimensions)
    (settings : SessionRuntimeSettings) :
    (attach id socket dimensions settings).Within Later := by
  apply Prog.within_bind (later_prepare settings)
  intro _
  apply Prog.within_bind (later_closeBridge _ _)
  intro _
  apply Prog.within_bind (later_spawn dimensions)
  intro pty
  apply Prog.within_bind (later_createBridge socket pty)
  intro bridge
  apply Prog.within_bind (later_replaceBridge bridge)
  intro _
  exact later_asking fun _ => trivial

end Pieces

section Operations

variable {options : TabStore.Options} {id : JsString}

theorem later_authorize : (authorize id).Within Later := by
  unfold authorize
  split
  · trivial
  · apply later_asking
    intro read
    split
    · trivial
    · split
      · trivial
      · apply Prog.within_bind later_ensureGeneration
        intro _
        exact Prog.within_bind (later_modify (fun _ => rfl) (fun _ => rfl))
          fun _ => trivial

theorem later_connect {n : Nat} (token : AttachToken) (socket : Nat)
    (dimensions : TerminalDimensions) :
    (connect options n token socket dimensions).Within Later := by
  apply later_reading
  intro s
  split
  · trivial
  · split
    · trivial
    · apply later_runExclusive
      apply Prog.within_bind
      · exact later_asking fun _ => trivial
      · intro record
        apply later_reading
        intro s
        split
        · trivial
        · exact Prog.within_bind (later_captureRuntimeSettings options)
            fun settings => later_attach socket dimensions settings

theorem later_stopping {result : Type} {g : Bool -> Code result}
    (hg : forall failed, (g failed).Within Later) :
    (do
      incrementGeneration id
      tryCatch (setDesiredState id DesiredState.stopped)
        fun _ => operationFailed
      mark id
      let failure ← stopRuntime id SESSION_STOPPED Reason.session_stopped
      g failure).Within Later := by
  apply Prog.within_bind later_incrementGeneration
  intro _
  apply Prog.within_bind
  · exact Prog.within_tryCatch (later_setDesiredState _) fun _ => trivial
  intro _
  apply later_asking
  intro _
  exact Prog.within_bind (later_stopRuntime _ _) hg

theorem later_terminateLocked : (terminateLocked id).Within Later := by
  have hstop : (stopTab id).Within Later := by
    apply later_stopping
    intro failed
    split
    · exact later_failing
    · exact later_currentView
  apply Prog.within_bind later_requireLifecycleTab
  intro _
  apply Prog.within_bind later_requireCurrentRecord
  intro current
  split
  · apply Prog.within_bind
    · exact Prog.within_tryCatch
        (Prog.within_bind later_exists? fun _ =>
          later_reading fun _ => trivial) fun _ => trivial
    · intro already
      split
      · trivial
      · exact hstop
  · exact hstop

theorem later_terminateIfStaleLocked (captured : EligibilitySnapshot) :
    (terminateIfStaleLocked id captured).Within Later := by
  unfold terminateIfStaleLocked
  split
  · trivial
  · split
    · trivial
    · apply later_asking
      intro answer
      cases answer with
      | error _ => trivial
      | ok fresh =>
          dsimp only
          split
          · trivial
          · split
            · trivial
            · split
              · trivial
              · exact Prog.within_bind later_terminateLocked fun _ => trivial

theorem later_activate (settings : SessionRuntimeSettings) :
    (activate id settings).Within Later :=
  Prog.within_bind (later_prepare settings) fun _ => later_setDesiredState _

theorem later_activated : (activated id).Within Later :=
  Prog.within_bind later_incrementGeneration fun _ =>
    later_asking fun _ => later_currentView

theorem later_ignoreKill : (ignoreFailure (kill id)).Within Later :=
  Prog.within_tryCatch later_kill fun _ => trivial

theorem later_recreateLocked : (recreateLocked options id).Within Later := by
  apply Prog.within_bind later_requireLifecycleTab
  intro _
  apply Prog.within_bind later_requireCurrentRecord
  intro record
  split
  · trivial
  · apply Prog.within_bind (later_captureRuntimeSettings options)
    intro settings
    apply Prog.within_bind
    · exact Prog.within_tryCatch later_exists? fun _ => trivial
    intro running
    split
    · trivial
    · apply Prog.within_bind later_incrementGeneration
      intro _
      apply Prog.within_bind
      · exact Prog.within_tryCatch (later_activate settings) fun _ =>
          Prog.within_bind later_ignoreKill fun _ => trivial
      · exact fun _ => later_activated

theorem later_restartLocked : (restartLocked options id).Within Later := by
  apply Prog.within_bind later_requireLifecycleTab
  intro _
  apply Prog.within_bind (later_captureRuntimeSettings options)
  intro settings
  apply Prog.within_bind later_incrementGeneration
  intro _
  apply Prog.within_bind
  · exact Prog.within_tryCatch (later_setDesiredState _) fun _ => trivial
  intro _
  apply Prog.within_bind (later_stopRuntime _ _)
  intro stopFailed
  split
  · exact later_asking fun _ => later_failing
  · apply Prog.within_bind
    · exact Prog.within_tryCatch (later_activate settings) fun _ =>
        Prog.within_bind later_ignoreKill fun _ =>
          later_asking fun _ => later_failing
    · exact fun _ => later_activated

theorem later_restartBridgeLocked : (restartBridgeLocked id).Within Later := by
  apply Prog.within_bind later_requireLifecycleTab
  intro _
  apply Prog.within_bind
  · exact Prog.within_tryCatch (later_closeBridge _ _) fun _ => trivial
  intro _
  exact later_asking fun _ => later_currentView

theorem later_closeTabLocked : (closeTabLocked id).Within Later := by
  apply Prog.within_bind later_requireLifecycleTab
  intro _
  apply later_stopping
  intro failed
  split
  · exact later_failing
  · apply Prog.within_bind
    · exact Prog.within_tryCatch
        (Prog.within_bind (later_mutate _) fun _ => trivial)
        fun _ => later_failing
    · exact fun _ => later_modify (fun _ => rfl) (fun _ => rfl)

theorem later_view : (view id).Within Later :=
  Prog.within_bind later_requireLifecycleTab fun _ => later_currentView

theorem later_collectionView : collectionView.Within Later := by
  apply later_asking
  intro _
  apply Prog.within_bind later_registryEntries
  intro _
  exact later_asking fun _ => trivial

theorem later_map {result : Type} {p : Code result} {f : result -> Value}
    (hp : p.Within Later) : (f <$> p : Code Value).Within Later :=
  Prog.within_bind hp fun _ => trivial

theorem later_body (n : Nat) (o : Op) : (body options n o).Within Later := by
  cases o with
  | authorize id => exact later_map later_authorize
  | connect token socket dimensions =>
      exact later_map (later_connect token socket dimensions)
  | terminate id =>
      exact later_map (later_runExclusive later_terminateLocked)
  | terminateIfStale id captured =>
      exact later_map (later_runExclusive
        (later_terminateIfStaleLocked captured))
  | recreate id => exact later_map (later_runExclusive later_recreateLocked)
  | restart id => exact later_map (later_runExclusive later_restartLocked)
  | restartBridge id =>
      exact later_map (later_runExclusive later_restartBridgeLocked)
  | closeTab id => exact later_map (later_runExclusive later_closeTabLocked)
  | view id => exact later_map later_view
  | collectionView => exact later_map later_collectionView
  | create name =>
      exact later_map (Prog.within_bind (later_mutate _) fun _ => later_view)
  | rename id name =>
      exact later_map (Prog.within_bind (later_mutate _) fun _ => later_view)
  | reorder revision ids =>
      exact later_map (Prog.within_bind (later_mutate _)
        fun _ => later_collectionView)
  | ensureInitialTab => exact later_map (later_mutate _)
  | flushActivity ids now => exact later_map (later_mutate _)

theorem later_issue (n : Nat) (c : PortCall) (s : State) :
    Later s (issue n c s) := by
  cases c with
  | snapshot => exact later_record s _
  | closeBridge operation key code reason => exact later_record s _
  | replaceBridge operation key owner => exact later_record s _
  | commit mutation => exact later_record s _
  | «exists» key => exact later_record s _
  | kill key => exact later_record s _
  | prepare key settings => exact later_record s _
  | spawn key dimensions => exact later_record s _
  | lock key => exact later_refl s
  | settle mutation => exact later_refl s
  | runtimeSettings => exact later_refl s
  | listActiveSessionIds => exact later_refl s
  | mark key => exact later_refl s
  | pid owner => exact later_refl s
  | eligibility request => exact later_refl s
  | createBridge key socket pty => exact later_refl s

theorem later_reply (n : Nat) (c : PortCall) (r : PortReply c) (s : State) :
    Later s (reply options n c r s) := by
  cases c with
  | lock key => exact later_record s _
  | commit mutation =>
      cases r with
      | error thrown => exact later_record s _
      | ok sources =>
          simp only [reply]
          split
          · exact later_refl s
          · exact ⟨List.prefix_append _ _, List.prefix_append _ _⟩
  | «exists» key => exact later_record s _
  | kill key => exact later_record s _
  | prepare key settings => exact later_record s _
  | spawn key dimensions => exact later_record s _
  | closeBridge operation key code reason => exact later_record s _
  | replaceBridge operation key owner => exact later_record s _
  | snapshot => exact later_refl s
  | settle mutation => exact later_refl s
  | runtimeSettings => exact later_refl s
  | listActiveSessionIds => exact later_refl s
  | mark key => exact later_refl s
  | pid owner => exact later_refl s
  | eligibility request => exact later_refl s
  | createBridge key socket pty => exact later_refl s

theorem manager_within : (manager options).Within Later where
  refl := later_refl
  trans := Later.trans
  body := later_body
  enter _ _ s := later_record s _
  issue := later_issue
  reply := later_reply
  leave _ _ _ s := later_record s _
  env := by
    intro s s' henv
    cases henv with
    | registry r _ => exact later_refl s

theorem run_later {cfg cfg' : Config State ports Thrown Value Op}
    (hrun : Run options cfg) (hstep : Step (manager options) cfg cfg') :
    Later cfg.shared cfg'.shared := by
  rcases hrun with ⟨document, _, hreach⟩
  exact manager_within.reachable hreach hstep

end Operations

/-!
## Identifiers
-/

def ids (document : PersistedTabsDocument) : List JsString :=
  document.tabs.map TabRecord.id

section Histories

variable {options : TabStore.Options}
variable {history : List PersistedTabsDocument}
variable {document : PersistedTabsDocument} {id : JsString}

theorem History.fresh (h : History options history document)
    {j : Nat} {old new : PersistedTabsDocument} (hold : history[j]? = some old)
    (hnew : history[j + 1]? = some new) (hin : id ∈ ids new)
    (hout : id ∉ ids old) {i : Nat} (hi : i ≤ j)
    {earlier : PersistedTabsDocument} (hearlier : history[i]? = some earlier) :
    id ∉ ids earlier := by
  induction h with
  | initial _ =>
      rw [List.getElem?_cons_succ] at hnew
      cases hnew
  | @commit history before after hhistory hnext _ ih =>
      by_cases hj : j + 1 < history.length
      · rw [List.getElem?_append_left (by omega)] at hold hearlier
        rw [List.getElem?_append_left hj] at hnew
        exact ih hold hnew hearlier
      · have hlast : j + 1 = history.length := by
          have hlen := (List.getElem?_eq_some_iff.mp hnew).1
          rw [List.length_append] at hlen
          simp only [List.length_cons, List.length_nil] at hlen
          omega
        rw [List.getElem?_append_left (by omega)] at hold hearlier
        rw [hlast, List.getElem?_concat_length] at hnew
        cases hnew
        have hbefore := hhistory.last
        rw [← hlast, Nat.add_sub_cancel] at hbefore
        rw [hbefore] at hold
        cases hold
        exact hnext.fresh id hin hout earlier (List.mem_of_getElem? hearlier)

theorem History.gone (h : History options history document) {i j : Nat}
    {earlier later : PersistedTabsDocument} (hij : i < j)
    (hearlier : history[i]? = some earlier) (hin : id ∈ ids earlier)
    (hlater : history[j]? = some later) (hout : id ∉ ids later)
    {k : Nat} (hk : j ≤ k) {last : PersistedTabsDocument}
    (hlast : history[k]? = some last) : id ∉ ids last := by
  induction k, hk using Nat.le_induction generalizing last with
  | base =>
      rw [hlater] at hlast
      cases hlast
      exact hout
  | succ k hjk ih =>
      have hlen := (List.getElem?_eq_some_iff.mp hlast).1
      have hmid : history[k]? = some history[k] :=
        List.getElem?_eq_getElem (by omega)
      intro hback
      exact h.fresh hmid hlast hback (ih hmid) (by omega) hearlier hin

end Histories

/-!
## Where operations stand in the history
-/

/-- The number of commits, and the same number at the last read of an
operation. -/
def look (n : Nat) (seen : Nat × Nat) : Entry -> Nat × Nat
  | Entry.read m _ => (seen.1, if m = n then seen.1 else seen.2)
  | Entry.committed _ _ _ _ => (seen.1 + 1, seen.2)
  | _ => seen

/-- Which document of the history an operation has read last. -/
def seenAt (n : Nat) (log : List Entry) : Nat :=
  (log.foldl (look n) (0, 0)).2

/-- The number of commits, and the same number after the last commit of an
operation. -/
def alter (n : Nat) (changed : Nat × Nat) : Entry -> Nat × Nat
  | Entry.committed m _ _ _ =>
      (changed.1 + 1, if m = n then changed.1 + 1 else changed.2)
  | _ => changed

/-- Which document of the history an operation has written last. -/
def changedAt (n : Nat) (log : List Entry) : Nat :=
  (log.foldl (alter n) (0, 0)).2

section Positions

variable {options : TabStore.Options} {n m : Nat} {log : List Entry}
variable {history : List PersistedTabsDocument}
variable {document : PersistedTabsDocument} {id : JsString}

theorem commits_snoc (log : List Entry) (e : Entry) :
    commits (log ++ [e]) = commits log + commits [e] :=
  commits_append log [e]

theorem look_commits : (log.foldl (look n) (0, 0)).1 = commits log := by
  induction log using List.reverseRecOn with
  | nil => rfl
  | append_singleton log e ih =>
      rw [List.foldl_append, commits_snoc, ← ih]
      cases e with
      | read _ _ => rfl
      | committed _ _ _ _ => rfl
      | entered _ _ => rfl
      | locked _ _ _ => rfl
      | asked _ _ => rfl
      | answered _ _ _ => rfl
      | probed _ _ _ _ => rfl
      | ended _ _ _ _ => rfl

theorem alter_commits : (log.foldl (alter n) (0, 0)).1 = commits log := by
  induction log using List.reverseRecOn with
  | nil => rfl
  | append_singleton log e ih =>
      rw [List.foldl_append, commits_snoc, ← ih]
      cases e with
      | read _ _ => rfl
      | committed _ _ _ _ => rfl
      | entered _ _ => rfl
      | locked _ _ _ => rfl
      | asked _ _ => rfl
      | answered _ _ _ => rfl
      | probed _ _ _ _ => rfl
      | ended _ _ _ _ => rfl

theorem own_snoc (e : Entry) :
    own n (log ++ [e]) = if e.number = n then own n log ++ [e]
      else own n log := by
  unfold own
  rw [List.filter_append]
  by_cases he : e.number = n
  · rw [if_pos he, List.filter_cons_of_pos (by simpa using he)]
    rfl
  · rw [if_neg he, List.filter_cons_of_neg (by simpa using he)]
    exact List.append_nil _

theorem lastRead_snoc {events : List Entry} {e : Entry}
    (he : readBy e = none) : lastRead (events ++ [e]) = lastRead events := by
  unfold lastRead
  rw [List.filterMap_append, List.filterMap_cons_none he]
  rw [List.filterMap_nil, List.append_nil]

theorem lastRead_own_snoc {e : Entry} (he : e.number = n -> readBy e = none) :
    lastRead (own n (log ++ [e])) = lastRead (own n log) := by
  rw [own_snoc]
  split
  · rename_i hn
    exact lastRead_snoc (he hn)
  · rfl

theorem seenAt_history (hplaced : EveryEntry (Placed history) log)
    (hread : lastRead (own n log) = some document) :
    history[seenAt n log]? = some document := by
  induction log using List.reverseRecOn with
  | nil => cases hread
  | append_singleton log e ih =>
      have hsnoc := everyEntry_snoc.mp hplaced
      have hsame : seenAt n (log ++ [e]) = seenAt n log ->
          (e.number = n -> readBy e = none) ->
          history[seenAt n (log ++ [e])]? = some document := by
        intro hseen hnot
        rw [lastRead_own_snoc hnot] at hread
        rw [hseen]
        exact ih hsnoc.1 hread
      have hfold : seenAt n (log ++ [e]) =
          (look n (log.foldl (look n) (0, 0)) e).2 := by
        rw [seenAt, List.foldl_append]
        rfl
      cases e with
      | read k d =>
          by_cases hk : k = n
          · have hlast : lastRead (own n log ++ [Entry.read k d]) = some d :=
              lastRead_append rfl
            rw [own_snoc, if_pos (show (Entry.read k d).number = n from hk),
              hlast] at hread
            rw [hfold, look, if_pos hk, look_commits]
            cases hread
            exact hsnoc.2
          · apply hsame
            · rw [hfold, look, if_neg hk]
              rfl
            · exact fun h => absurd h hk
      | committed _ _ _ _ => exact hsame hfold fun _ => rfl
      | entered _ _ => exact hsame hfold fun _ => rfl
      | locked _ _ _ => exact hsame hfold fun _ => rfl
      | asked _ _ => exact hsame hfold fun _ => rfl
      | answered _ _ _ => exact hsame hfold fun _ => rfl
      | probed _ _ _ _ => exact hsame hfold fun _ => rfl
      | ended _ _ _ _ => exact hsame hfold fun _ => rfl

theorem changedAt_snoc (e : Entry) : changedAt n (log ++ [e]) =
    (alter n (log.foldl (alter n) (0, 0)) e).2 := by
  rw [changedAt, List.foldl_append]
  rfl

theorem changedAt_le_commits : changedAt n log ≤ commits log := by
  induction log using List.reverseRecOn with
  | nil => exact Nat.le_refl 0
  | append_singleton log e ih =>
      rw [changedAt_snoc, commits_snoc]
      cases e with
      | committed k _ _ _ =>
          show (if k = n then _ else changedAt n log) ≤ commits log + 1
          split
          · rw [alter_commits]
          · omega
      | read _ _ => exact ih
      | entered _ _ => exact ih
      | locked _ _ _ => exact ih
      | asked _ _ => exact ih
      | answered _ _ _ => exact ih
      | probed _ _ _ _ => exact ih
      | ended _ _ _ _ => exact ih

theorem changedAt_mono (e : Entry) :
    changedAt n log ≤ changedAt n (log ++ [e]) := by
  have hle : changedAt n log ≤ commits log := changedAt_le_commits
  rw [changedAt_snoc]
  cases e with
  | committed k _ _ _ =>
      show changedAt n log ≤ (if k = n then _ else changedAt n log)
      split
      · rw [alter_commits]
        omega
      · exact Nat.le_refl _
  | read _ _ => exact Nat.le_refl _
  | entered _ _ => exact Nat.le_refl _
  | locked _ _ _ => exact Nat.le_refl _
  | asked _ _ => exact Nat.le_refl _
  | answered _ _ _ => exact Nat.le_refl _
  | probed _ _ _ _ => exact Nat.le_refl _
  | ended _ _ _ _ => exact Nat.le_refl _

theorem le_changedAt {mutation : Mutation} {old new : PersistedTabsDocument}
    (before after : List Entry) :
    commits before + 1 ≤ changedAt n
      (before ++ Entry.committed n mutation old new :: after) := by
  induction after using List.reverseRecOn with
  | nil =>
      rw [changedAt_snoc]
      show _ ≤ (if n = n then _ else _)
      rw [if_pos rfl, alter_commits]
  | append_singleton after e ih =>
      have hmono : changedAt n
          (before ++ Entry.committed n mutation old new :: after) ≤
          changedAt n
            (before ++ Entry.committed n mutation old new :: after ++ [e]) :=
        changedAt_mono e
      rw [List.append_assoc, List.cons_append] at hmono
      omega

theorem committed_placed {cs : Census} {s : State} (hinv : Inv options cs s)
    {mutation : Mutation} {old new : PersistedTabsDocument}
    (h : Entry.committed n mutation old new ∈ s.log) :
    exists before after,
      s.log = before ++ Entry.committed n mutation old new :: after ∧
        s.history[commits before]? = some old ∧
        s.history[commits before + 1]? = some new := by
  rcases List.append_of_mem h with ⟨before, after, hlog⟩
  exact ⟨before, after, hlog, hinv.placed before _ after hlog⟩

theorem mem_of_own {e : Entry} (h : e ∈ own n log) : e ∈ log :=
  (List.mem_filter.mp h).1

theorem commits_lt {before mid : List Entry} {mutation : Mutation}
    {old new : PersistedTabsDocument} :
    commits before <
      commits (before ++ Entry.committed n mutation old new :: mid) := by
  have hsplit : before ++ Entry.committed n mutation old new :: mid =
      before ++ [Entry.committed n mutation old new] ++ mid := by simp
  rw [hsplit, commits_append, commits_append]
  show commits before < commits before + 1 + commits mid
  omega

/-- Two operations never create the same tab. -/
theorem created_unique {cs : Census} {s : State} (hinv : Inv options cs s)
    {name name' : Option JsString} (h : Created n name (own n s.log) id)
    (h' : Created m name' (own m s.log) id) : n = m := by
  rcases h with ⟨old, new, hmem, hin, hout⟩
  rcases h' with ⟨old', new', hmem', hin', hout'⟩
  rcases committed_placed hinv (mem_of_own hmem) with
    ⟨before, after, hlog, hold, hnew⟩
  rcases committed_placed hinv (mem_of_own hmem') with
    ⟨before', after', hlog', hold', hnew'⟩
  rcases split_cases (hlog.symm.trans hlog') with
    ⟨_, heq⟩ | ⟨mid, hmid⟩ | ⟨mid, hmid⟩
  · cases heq
    rfl
  · -- The first commit has brought the tab in when the second one is made.
    have hlt : commits before < commits before' := by
      rw [hmid]
      exact commits_lt
    exact absurd hin (hinv.history.fresh hold' hnew' hin' hout' hlt hnew)
  · have hlt : commits before' < commits before := by
      rw [hmid]
      exact commits_lt
    exact absurd hin' (hinv.history.fresh hold hnew hin hout hlt hnew')

end Positions

end SessionManager
end Server
end FlanTerminal

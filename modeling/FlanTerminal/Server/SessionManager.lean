import FlanTerminal.Server.BridgeRegistry
import FlanTerminal.Server.TabStore
import FlanTerminal.Shared.Protocol

/-!
# The session manager

The session manager opens terminals and runs the life cycle of their sessions.
Operations on one tab run one after the other, behind a mutex with one queue for
each key; between two of its steps an operation waits for the tab store, for
tmux or for the bridge registry, and operations on other tabs go on.

The tab store and the registry are components beside the manager.  The store
commits a mutation at some moment after the call, or refuses, and settles its
promise later; the run of the registry is part of the state.  Routes of the
server that read or change tabs are operations here too.  The store has been
initialised, and store, activity tracker and runtime are configured.
-/

namespace FlanTerminal
namespace Server
namespace SessionManager

open Foundation
open Shared
open TabStore (Mutation Sources)
open TerminalBridge (Reason)

abbrev RegistryRun := Config BridgeRegistry.State BridgeRegistry.ports
  BridgeRegistry.Thrown Unit BridgeRegistry.Op

/-!
## Settings and arguments
-/

structure SessionRuntimeSettings where
  shell : JsString
  historyLimit : JsNumber
  deriving DecidableEq

def MAX_RUNTIME_SHELL_BYTES : Nat := 4096
def MAX_RUNTIME_HISTORY_LIMIT : Nat := 1000000

/-- An integer between two bounds. -/
def integerBetween (low high : Nat) : JsNumber -> Bool
  | JsNumber.finite q =>
      decide (q.den = 1 ∧ (low : ℚ) ≤ q ∧ q ≤ (high : ℚ))
  | JsNumber.negZero => decide (low = 0)
  | JsNumber.infinity _ => false

/-- `unsafeRuntimeShellCharacterPattern`. -/
def unsafeShellCharacter (c : Nat) : Bool :=
  isForbidden c || isFormatControl c

def isValidRuntimeSettings (nfc : JsString -> JsString)
    (settings : SessionRuntimeSettings) : Bool :=
  settings.shell.head? == some 47 &&
    decide (nfc settings.shell = settings.shell) &&
    decide (utf8ByteLength settings.shell ≤ MAX_RUNTIME_SHELL_BYTES) &&
    !(codePoints settings.shell).any unsafeShellCharacter &&
    integerBetween 0 MAX_RUNTIME_HISTORY_LIMIT settings.historyLimit

structure TerminalDimensions where
  cols : JsNumber
  rows : JsNumber
  deriving DecidableEq

def isValidDimensions (dimensions : TerminalDimensions) : Bool :=
  integerBetween MIN_COLS MAX_COLS dimensions.cols &&
    integerBetween MIN_ROWS MAX_ROWS dimensions.rows

structure AttachToken where
  sessionId : JsString
  generation : Nat
  deriving DecidableEq

inductive CleanupSkipReason where
  | disabled
  | invalid
  | tab_absent
  | inactive
  | session_absent
  | connected
  | bridged
  | activity_pending
  | recent_activity
  | invalid_timestamp
  | dependency_error
  | changed
  deriving DecidableEq, Repr

structure EligibilityGeneration where
  structural : Int
  activity : Int
  sockets : Int
  deriving DecidableEq

structure EligibilitySnapshot where
  id : JsString
  thresholdMs : Int
  cutoffMs : Int
  eligible : Bool
  reason : Option CleanupSkipReason
  generation : EligibilityGeneration
  deriving DecidableEq

structure EligibilityRequest where
  id : JsString
  thresholdMs : Int
  cutoffMs : Int
  deriving DecidableEq

def isSafeInteger (n : Int) : Bool :=
  decide (n.natAbs ≤ MAX_SAFE_INTEGER)

def validGeneration (value : Int) : Bool :=
  isSafeInteger value && decide (0 ≤ value)

def isValidEligibilityCapture (id : JsString) (snapshot : EligibilitySnapshot) :
    Bool :=
  isSessionId id && decide (snapshot.id = id) &&
    isSafeInteger snapshot.thresholdMs && decide (0 ≤ snapshot.thresholdMs) &&
    isSafeInteger snapshot.cutoffMs &&
    (if snapshot.eligible then snapshot.reason.isNone
      else snapshot.reason.isSome) &&
    validGeneration snapshot.generation.structural &&
    validGeneration snapshot.generation.activity &&
    validGeneration snapshot.generation.sockets

def sameEligibilityGeneration (left right : EligibilitySnapshot) : Bool :=
  decide (left.id = right.id) &&
    decide (left.thresholdMs = right.thresholdMs) &&
    decide (left.cutoffMs = right.cutoffMs) &&
    decide (left.generation = right.generation)

inductive CleanupTerminationResult where
  | terminated
  | skipped (reason : CleanupSkipReason)
  deriving DecidableEq

/-!
## What the operations see and report
-/

inductive Thrown where
  | invalid_connection
  | stale_attach
  | tab_not_found
  | invalid_session_state
  | operation_failed (view : Option TabView)
  | store (thrown : TabStore.Thrown)
  deriving DecidableEq

inductive Value where
  | token (token : Option AttachToken)
  | owner (owner : Nat)
  | view (view : TabView)
  | collection (collection : TabCollectionResponse)
  | cleanup (result : CleanupTerminationResult)
  | none
  deriving DecidableEq

inductive Op where
  | authorize (id : JsString)
  | connect (token : AttachToken) (socket : Nat)
      (dimensions : TerminalDimensions)
  | terminate (id : JsString)
  | terminateIfStale (id : JsString) (captured : EligibilitySnapshot)
  | recreate (id : JsString)
  | restart (id : JsString)
  | restartBridge (id : JsString)
  | closeTab (id : JsString)
  | view (id : JsString)
  | collectionView
  /-- `POST /tabs`. -/
  | create (name : Option JsString)
  /-- `PATCH /tabs/:id`. -/
  | rename (id name : JsString)
  /-- `PUT /tabs/order`. -/
  | reorder (revision : Nat) (ids : List JsString)
  | ensureInitialTab
  | flushActivity (ids : List JsString) (now : JsString)
  deriving DecidableEq

/-- The calls of the manager.  A call of the registry has the number that its
operation gets there. -/
inductive PortCall where
  /-- Wait for the operations on this key. -/
  | lock (key : JsString)
  | snapshot
  /-- A mutation of the store, until it is committed or refused. -/
  | commit (mutation : Mutation)
  /-- The rest of a mutation that is committed. -/
  | settle (mutation : Mutation)
  | runtimeSettings
  | exists (id : JsString)
  | kill (id : JsString)
  | prepare (id : JsString) (settings : SessionRuntimeSettings)
  | listActiveSessionIds
  | mark (id : JsString)
  | pid (owner : Nat)
  | eligibility (request : EligibilityRequest)
  | spawn (id : JsString) (dimensions : TerminalDimensions)
  | createBridge (id : JsString) (socket pty : Nat)
  | closeBridge (operation : Nat) (id : JsString) (code : Nat)
      (reason : Reason)
  | replaceBridge (operation : Nat) (id : JsString) (owner : Nat)
  deriving DecidableEq

abbrev PortReply : PortCall -> Type
  | PortCall.snapshot => TabCollection
  | PortCall.commit _ => Except TabStore.Thrown Sources
  | PortCall.runtimeSettings => Option SessionRuntimeSettings
  | PortCall.exists _ => Except Unit Bool
  | PortCall.kill _ => Except Unit Unit
  | PortCall.prepare _ _ => Except Unit Unit
  | PortCall.listActiveSessionIds => Except Unit (List JsString)
  | PortCall.pid _ => Option Int
  | PortCall.eligibility _ => Except Unit EligibilitySnapshot
  | PortCall.spawn _ _ => Except Unit Nat
  | PortCall.createBridge _ _ _ => Except Unit Nat
  | PortCall.closeBridge _ _ _ _ => Except Unit Unit
  | PortCall.replaceBridge _ _ _ => Except Unit Unit
  | _ => Unit

abbrev ports : Interface := ⟨PortCall, PortReply⟩

/-- What happens, with the number of the operation. -/
inductive Entry where
  | entered (n : Nat) (o : Op)
  /-- The critical section of an operation begins. -/
  | locked (n : Nat) (key : JsString) (document : PersistedTabsDocument)
  | read (n : Nat) (document : PersistedTabsDocument)
  | committed (n : Nat) (mutation : Mutation)
      (before after : PersistedTabsDocument)
  /-- A call of the runtime or of the registry. -/
  | asked (n : Nat) (call : PortCall)
  | answered (n : Nat) (call : PortCall) (success : Bool)
  /-- The answer about a session, with the bridge that it has then. -/
  | probed (n : Nat) (id : JsString) (answer : Except Unit Bool)
      (bridge : Option Nat)
  | ended (n : Nat) (o : Op) (res : Except Thrown Value)
      (document : PersistedTabsDocument)
  deriving DecidableEq

structure State where
  document : PersistedTabsDocument
  /-- The documents that the store has held; the last is the current one. -/
  history : List PersistedTabsDocument
  /-- `KeyedMutex.tails`: the operations that are not over, in the order of
  their calls. -/
  mutex : List (JsString × Nat)
  generations : JsMap JsString Nat
  generationClock : Nat
  issuedTokens : List AttachToken
  /-- The numbers of the next terminal process and of the next bridge. -/
  nextPty : Nat
  nextOwner : Nat
  registry : RegistryRun
  log : List Entry

def State.initial (document : PersistedTabsDocument) : State where
  document := document
  history := [document]
  mutex := []
  generations := []
  generationClock := 0
  issuedTokens := []
  nextPty := 0
  nextOwner := 0
  registry := Config.initial BridgeRegistry.State.initial
  log := []

def State.record (s : State) (e : Entry) : State :=
  { s with log := s.log ++ [e] }

abbrev Code := Prog State ports Thrown

/-!
## The code
-/

def runExclusive {value : Type} (n : Nat) (key : JsString)
    (operation : Code value) : Code value := do
  Prog.modify fun s => { s with mutex := s.mutex ++ [(key, n)] }
  let _ ← Prog.ask (I := ports) (PortCall.lock key)
  Prog.always operation
    (Prog.modify fun s => { s with mutex := s.mutex.erase (key, n) })

def findRecord (collection : TabCollection) (id : JsString) :
    Option TabRecord :=
  collection.tabs.find? fun record => record.id = id

def snapshot : Code TabCollection :=
  Prog.ask (I := ports) PortCall.snapshot

/-- A mutation of the store; the promise settles after the commit. -/
def mutate (mutation : Mutation) : Code Sources := do
  match ← Prog.ask (I := ports) (PortCall.commit mutation) with
  | Except.error thrown => throw (Thrown.store thrown)
  | Except.ok sources => do
      let _ ← Prog.ask (I := ports) (PortCall.settle mutation)
      pure sources

def setDesiredState (id : JsString) (state : DesiredState) : Code Unit := do
  let _ ← mutate (Mutation.setDesiredState id state)
  pure ()

def operationFailed {value : Type} : Code value :=
  throw (Thrown.operation_failed none)

def requireLifecycleTab (id : JsString) : Code Unit := do
  if !isSessionId id then throw Thrown.tab_not_found
  else
    match findRecord (← snapshot) id with
    | none => throw Thrown.tab_not_found
    | some _ => pure ()

def currentRecord (id : JsString) : Code (Option TabRecord) := do
  pure (findRecord (← snapshot) id)

def requireCurrentRecord (id : JsString) : Code TabRecord := do
  match ← currentRecord id with
  | none => throw Thrown.tab_not_found
  | some record => pure record

def nextGeneration : Code Nat := do
  let s ← Prog.read
  Prog.modify fun s => { s with generationClock := s.generationClock + 1 }
  pure (s.generationClock + 1)

def incrementGeneration (id : JsString) : Code Unit := do
  let generation ← nextGeneration
  Prog.modify fun s =>
    { s with generations := s.generations.set id generation }

def ensureGeneration (id : JsString) : Code Nat := do
  let s ← Prog.read
  match s.generations.get id with
  | some current => pure current
  | none => do
      let generation ← nextGeneration
      Prog.modify fun s =>
        { s with generations := s.generations.set id generation }
      pure generation

def mark (id : JsString) : Code Unit :=
  Prog.ask (I := ports) (PortCall.mark id)

/-- The registry's bridge of a session, `registry.get`. -/
def State.bridge (s : State) (id : JsString) : Option Nat :=
  s.registry.shared.registry.owners.get id

def MAX_RUNTIME_SNAPSHOTS : Nat := 20

/-- `registry.entries` before the process numbers are read. -/
def State.entries (s : State) : List (JsString × Nat) :=
  (s.registry.shared.registry.owners.mergeSort
    fun left right => decide (left.1 ≤ right.1)).take MAX_RUNTIME_SNAPSHOTS

def ownerPids : List (JsString × Nat) -> Code (List (JsString × Option Int))
  | [] => pure []
  | (id, owner) :: rest => do
      let pid ← Prog.ask (I := ports) (PortCall.pid owner)
      let others ← ownerPids rest
      pure ((id, pid) :: others)

def registryEntries : Code (List (JsString × Option Int)) := do
  let s ← Prog.read
  ownerPids s.entries

def bridgeOf (entries : List (JsString × Option Int)) (id : JsString) :
    Option (Option Int) :=
  (entries.find? fun entry => entry.1 = id).map Prod.snd

def healthOf (state : SessionState) (bridge : Option (Option Int)) :
    SessionHealth :=
  ⟨state, bridge.isSome, bridge.getD none⟩

def probeHealth (id : JsString) : Code SessionHealth := do
  let entries ← registryEntries
  let state ← match ← Prog.ask (I := ports) (PortCall.exists id) with
    | Except.error _ => pure SessionState.unknown
    | Except.ok true => pure SessionState.running
    | Except.ok false => pure SessionState.stopped
  pure (healthOf state (bridgeOf entries id))

def currentView (id : JsString) : Code TabView := do
  let record ← requireCurrentRecord id
  let health ← probeHealth id
  pure ⟨record, health⟩

def viewBestEffort (id : JsString) : Code (Option TabView) :=
  tryCatch (do pure (some (← currentView id))) fun _ => pure none

def exists? (id : JsString) : Code Bool := do
  match ← Prog.ask (I := ports) (PortCall.exists id) with
  | Except.error _ => operationFailed
  | Except.ok answer => pure answer

def kill (id : JsString) : Code Unit := do
  match ← Prog.ask (I := ports) (PortCall.kill id) with
  | Except.error _ => operationFailed
  | Except.ok _ => pure ()

def prepare (id : JsString) (settings : SessionRuntimeSettings) :
    Code Unit := do
  match ← Prog.ask (I := ports) (PortCall.prepare id settings) with
  | Except.error _ => operationFailed
  | Except.ok _ => pure ()

def ignoreFailure (operation : Code Unit) : Code Unit :=
  tryCatch operation fun _ => pure ()

def closeBridge (id : JsString) (code : Nat) (reason : Reason) :
    Code Unit := do
  let s ← Prog.read
  match ← Prog.ask (I := ports)
      (PortCall.closeBridge s.registry.next id code reason) with
  | Except.error _ => operationFailed
  | Except.ok _ => pure ()

def replaceBridge (id : JsString) (owner : Nat) : Code Unit := do
  let s ← Prog.read
  match ← Prog.ask (I := ports)
      (PortCall.replaceBridge s.registry.next id owner) with
  | Except.error _ => operationFailed
  | Except.ok _ => pure ()

/-- Whether the bridge or the session could not be stopped. -/
def stopRuntime (id : JsString) (code : Nat) (reason : Reason) :
    Code Bool := do
  let closeFailed ← tryCatch (do closeBridge id code reason; pure false)
    fun _ => pure true
  tryCatch (do kill id; pure closeFailed) fun _ => pure true

section Configured

variable (options : TabStore.Options)

def captureRuntimeSettings : Code SessionRuntimeSettings := do
  match ← Prog.ask (I := ports) PortCall.runtimeSettings with
  | none => operationFailed
  | some settings =>
      if isValidRuntimeSettings options.nfc settings then pure settings
      else operationFailed

def authorize (id : JsString) : Code (Option AttachToken) := do
  if !isSessionId id then pure none
  else
    match findRecord (← snapshot) id with
    | none => pure none
    | some record =>
        if record.desiredState ≠ DesiredState.active then pure none
        else do
          let generation ← ensureGeneration id
          Prog.modify fun s =>
            { s with issuedTokens := s.issuedTokens ++ [⟨id, generation⟩] }
          pure (some ⟨id, generation⟩)

def spawn (id : JsString) (dimensions : TerminalDimensions) : Code Nat := do
  match ← Prog.ask (I := ports) (PortCall.spawn id dimensions) with
  | Except.error _ => operationFailed
  | Except.ok pty => pure pty

def createBridge (id : JsString) (socket pty : Nat) : Code Nat := do
  match ← Prog.ask (I := ports) (PortCall.createBridge id socket pty) with
  | Except.error _ => operationFailed
  | Except.ok owner => pure owner

def attach (id : JsString) (socket : Nat) (dimensions : TerminalDimensions)
    (settings : SessionRuntimeSettings) : Code Nat := do
  prepare id settings
  closeBridge id 4001 Reason.session_replaced
  let pty ← spawn id dimensions
  let bridge ← createBridge id socket pty
  replaceBridge id bridge
  mark id
  pure bridge

def connectLocked (token : AttachToken) (socket : Nat)
    (dimensions : TerminalDimensions) : Code Nat := do
  let record ← currentRecord token.sessionId
  let s ← Prog.read
  if record.map TabRecord.desiredState ≠ some DesiredState.active ∨
      s.generations.get token.sessionId ≠ some token.generation then
    throw Thrown.stale_attach
  else do
    let settings ← captureRuntimeSettings options
    attach token.sessionId socket dimensions settings

def connect (n : Nat) (token : AttachToken) (socket : Nat)
    (dimensions : TerminalDimensions) : Code Nat := do
  let s ← Prog.read
  if !isValidDimensions dimensions then throw Thrown.invalid_connection
  else if token ∉ s.issuedTokens then throw Thrown.stale_attach
  else
    runExclusive n token.sessionId (connectLocked options token socket dimensions)

/-- `terminateLocked` after the early return. -/
def stopTab (id : JsString) : Code TabView := do
  incrementGeneration id
  tryCatch (setDesiredState id DesiredState.stopped)
    fun _ => operationFailed
  mark id
  let failure ← stopRuntime id SESSION_STOPPED Reason.session_stopped
  if failure then do
    let view ← viewBestEffort id
    throw (Thrown.operation_failed view)
  else currentView id

/-- Whether a stopped tab has neither a session nor a bridge. -/
def alreadyStopped (id : JsString) : Code Bool :=
  tryCatch
    (do
      let running ← exists? id
      let s ← Prog.read
      pure (!running && (s.bridge id).isNone))
    fun _ => pure false

def terminateLocked (id : JsString) : Code TabView := do
  requireLifecycleTab id
  let current ← requireCurrentRecord id
  if current.desiredState = DesiredState.stopped then do
    if ← alreadyStopped id then
      pure ⟨current, ⟨SessionState.stopped, false, none⟩⟩
    else stopTab id
  else stopTab id

def terminate (n : Nat) (id : JsString) : Code TabView :=
  runExclusive n id (terminateLocked id)

def terminateIfStaleLocked (id : JsString) (captured : EligibilitySnapshot) :
    Code CleanupTerminationResult := do
  if !isValidEligibilityCapture id captured then
    pure (CleanupTerminationResult.skipped CleanupSkipReason.invalid)
  else if !captured.eligible then
    pure (CleanupTerminationResult.skipped
      (captured.reason.getD CleanupSkipReason.invalid))
  else
    match ← Prog.ask (I := ports) (PortCall.eligibility
        ⟨id, captured.thresholdMs, captured.cutoffMs⟩) with
    | Except.error _ =>
        pure (CleanupTerminationResult.skipped
          CleanupSkipReason.dependency_error)
    | Except.ok fresh =>
        if !isValidEligibilityCapture id fresh then
          pure (CleanupTerminationResult.skipped
            CleanupSkipReason.dependency_error)
        else if !fresh.eligible then
          pure (CleanupTerminationResult.skipped
            (fresh.reason.getD CleanupSkipReason.invalid))
        else if !sameEligibilityGeneration captured fresh then
          pure (CleanupTerminationResult.skipped CleanupSkipReason.changed)
        else do
          let _ ← terminateLocked id
          pure CleanupTerminationResult.terminated

def terminateIfStale (n : Nat) (id : JsString)
    (captured : EligibilitySnapshot) : Code CleanupTerminationResult :=
  runExclusive n id (terminateIfStaleLocked id captured)

/-- `prepare` and the commit of `active`, which `recreate` and `restart` try. -/
def activate (id : JsString) (settings : SessionRuntimeSettings) :
    Code Unit := do
  prepare id settings
  setDesiredState id DesiredState.active

/-- The end of `recreate` and `restart` when the tab is active again. -/
def activated (id : JsString) : Code TabView := do
  incrementGeneration id
  mark id
  currentView id

def recreateLocked (id : JsString) : Code TabView := do
  requireLifecycleTab id
  let record ← requireCurrentRecord id
  if record.desiredState ≠ DesiredState.stopped then
    throw Thrown.invalid_session_state
  else do
    let settings ← captureRuntimeSettings options
    let running ← tryCatch (exists? id)
      fun _ => throw Thrown.invalid_session_state
    if running then throw Thrown.invalid_session_state
    else do
      incrementGeneration id
      tryCatch (activate id settings) fun _ => do
        ignoreFailure (kill id)
        operationFailed
      activated id

def recreate (n : Nat) (id : JsString) : Code TabView :=
  runExclusive n id (recreateLocked options id)

def restartLocked (id : JsString) : Code TabView := do
  requireLifecycleTab id
  let settings ← captureRuntimeSettings options
  incrementGeneration id
  tryCatch (setDesiredState id DesiredState.stopped)
    fun _ => operationFailed
  let stopFailed ← stopRuntime id SESSION_RESTARTING
    Reason.session_restarting
  if stopFailed then do
    mark id
    let view ← viewBestEffort id
    throw (Thrown.operation_failed view)
  else do
    tryCatch (activate id settings) fun _ => do
      ignoreFailure (kill id)
      mark id
      let view ← viewBestEffort id
      throw (Thrown.operation_failed view)
    activated id

def restart (n : Nat) (id : JsString) : Code TabView :=
  runExclusive n id (restartLocked options id)

def restartBridgeLocked (id : JsString) : Code TabView := do
  requireLifecycleTab id
  tryCatch (closeBridge id BRIDGE_RESTART Reason.bridge_restart)
    fun _ => operationFailed
  mark id
  currentView id

def restartBridge (n : Nat) (id : JsString) : Code TabView :=
  runExclusive n id (restartBridgeLocked id)

def closeTabLocked (id : JsString) : Code Unit := do
  requireLifecycleTab id
  incrementGeneration id
  tryCatch (setDesiredState id DesiredState.stopped)
    fun _ => operationFailed
  mark id
  let failure ← stopRuntime id SESSION_STOPPED Reason.session_stopped
  if failure then do
    let view ← viewBestEffort id
    throw (Thrown.operation_failed view)
  else do
    tryCatch (do let _ ← mutate (Mutation.remove id); pure ()) fun _ => do
      let view ← viewBestEffort id
      throw (Thrown.operation_failed view)
    Prog.modify fun s => { s with generations := s.generations.delete id }

def closeTab (n : Nat) (id : JsString) : Code Unit :=
  runExclusive n id (closeTabLocked id)

def view (id : JsString) : Code TabView := do
  requireLifecycleTab id
  currentView id

def collectionView : Code TabCollectionResponse := do
  let collection ← snapshot
  let entries ← registryEntries
  let active ← Prog.ask (I := ports) PortCall.listActiveSessionIds
  let stateOf := fun (id : JsString) =>
    match active with
    | Except.error _ => SessionState.unknown
    | Except.ok ids =>
        if ids.contains id then SessionState.running else SessionState.stopped
  pure ⟨collection.structureRevision, collection.tabs.map fun record =>
    ⟨record, healthOf (stateOf record.id) (bridgeOf entries record.id)⟩⟩

/-- `POST /tabs`: the tab that `create` returns is found again by its id. -/
def createRoute (name : Option JsString) : Code TabView := do
  let sources ← mutate (Mutation.create name)
  view sources.randomUUID

def renameRoute (id name : JsString) : Code TabView := do
  let _ ← mutate (Mutation.rename id name)
  view id

def reorderRoute (revision : Nat) (ids : List JsString) :
    Code TabCollectionResponse := do
  let _ ← mutate (Mutation.reorder revision ids)
  collectionView

def body (n : Nat) : Op -> Code Value
  | Op.authorize id => Value.token <$> authorize id
  | Op.connect token socket dimensions =>
      Value.owner <$> connect options n token socket dimensions
  | Op.terminate id => Value.view <$> terminate n id
  | Op.terminateIfStale id captured =>
      Value.cleanup <$> terminateIfStale n id captured
  | Op.recreate id => Value.view <$> recreate options n id
  | Op.restart id => Value.view <$> restart options n id
  | Op.restartBridge id => Value.view <$> restartBridge n id
  | Op.closeTab id => (fun _ => Value.none) <$> closeTab n id
  | Op.view id => Value.view <$> view id
  | Op.collectionView => Value.collection <$> collectionView
  | Op.create name => Value.view <$> createRoute name
  | Op.rename id name => Value.view <$> renameRoute id name
  | Op.reorder revision ids => Value.collection <$> reorderRoute revision ids
  | Op.ensureInitialTab =>
      (fun _ => Value.none) <$> mutate Mutation.ensureInitialTab
  | Op.flushActivity ids now =>
      (fun _ => Value.none) <$> mutate (Mutation.flushActivity ids now)

/-!
## The manager and what surrounds it

Identifiers of new tabs are fresh.  The registry goes on with its own
operations, those of other components too, at any time.
-/

def boundary : PortCall -> Boundary
  | PortCall.snapshot => Boundary.sync
  | PortCall.runtimeSettings => Boundary.sync
  | PortCall.mark _ => Boundary.sync
  | PortCall.pid _ => Boundary.sync
  | PortCall.spawn _ _ => Boundary.sync
  | PortCall.createBridge _ _ _ => Boundary.sync
  | _ => Boundary.await

/-- The calls of the registry start an operation there. -/
def issue (n : Nat) (c : PortCall) (s : State) : State :=
  match c with
  | PortCall.snapshot => s.record (Entry.read n s.document)
  | PortCall.closeBridge _ id code reason =>
      { s.record (Entry.asked n c) with
        registry := s.registry.start BridgeRegistry.alone
          (BridgeRegistry.Op.close id code reason) }
  | PortCall.replaceBridge _ id owner =>
      { s.record (Entry.asked n c) with
        registry := s.registry.start BridgeRegistry.alone
          (BridgeRegistry.Op.replace id owner) }
  | PortCall.commit _ => s.record (Entry.asked n c)
  | PortCall.exists _ => s.record (Entry.asked n c)
  | PortCall.kill _ => s.record (Entry.asked n c)
  | PortCall.prepare _ _ => s.record (Entry.asked n c)
  | PortCall.spawn _ _ => s.record (Entry.asked n c)
  | _ => s

/-- The source of identifiers gives one that no tab has had. -/
def fresh (s : State) (sources : Sources) : Prop :=
  forall document, document ∈ s.history ->
    sources.randomUUID ∉ document.tabs.map TabRecord.id

def allowed (s : State) (n : Nat) : (c : PortCall) -> PortReply c -> Prop
  | PortCall.lock key, _ => BridgeRegistry.firstOf s.mutex key = some n
  | PortCall.snapshot, document => document = s.document
  | PortCall.commit mutation, Except.ok sources =>
      (TabStore.commit options sources s.document mutation).isSome = true ∧
        fresh s sources
  | PortCall.commit mutation, Except.error thrown =>
      thrown = TabStore.Thrown.failed ∨ exists sources,
        TabStore.build options sources s.document mutation =
          Except.error thrown
  | PortCall.spawn _ _, Except.ok pty => pty = s.nextPty
  | PortCall.createBridge _ _ _, Except.ok owner => owner = s.nextOwner
  | PortCall.closeBridge operation id code reason, outcome =>
      exists res owners, BridgeRegistry.Entry.ended operation
        (BridgeRegistry.Op.close id code reason) res owners ∈
          s.registry.shared.log ∧ outcome = BridgeRegistry.settledAs res
  | PortCall.replaceBridge operation id owner, outcome =>
      exists res owners, BridgeRegistry.Entry.ended operation
        (BridgeRegistry.Op.replace id owner) res owners ∈
          s.registry.shared.log ∧ outcome = BridgeRegistry.settledAs res
  | _, _ => True

def State.store (s : State) (n : Nat) (mutation : Mutation)
    (after : PersistedTabsDocument) : State :=
  { s.record (Entry.committed n mutation s.document after) with
    document := after
    history := s.history ++ [after] }

def isOk {value : Type} : Except Unit value -> Bool
  | Except.ok _ => true
  | Except.error _ => false

def reply (n : Nat) : (c : PortCall) -> PortReply c -> State -> State
  | PortCall.lock key, _, s => s.record (Entry.locked n key s.document)
  | PortCall.commit mutation, Except.ok sources, s =>
      match TabStore.commit options sources s.document mutation with
      | none => s
      | some after => s.store n mutation after
  | PortCall.commit mutation, Except.error _, s =>
      s.record (Entry.answered n (PortCall.commit mutation) false)
  | PortCall.exists id, r, s => s.record (Entry.probed n id r (s.bridge id))
  | PortCall.kill id, r, s =>
      s.record (Entry.answered n (PortCall.kill id) (isOk r))
  | PortCall.prepare id settings, r, s =>
      s.record (Entry.answered n (PortCall.prepare id settings) (isOk r))
  | PortCall.spawn id dimensions, r, s =>
      { s.record (Entry.answered n (PortCall.spawn id dimensions) (isOk r)) with
        nextPty := s.nextPty + 1 }
  | PortCall.createBridge _ _ _, _, s => { s with nextOwner := s.nextOwner + 1 }
  | PortCall.closeBridge operation id code reason, r, s =>
      s.record (Entry.answered n
        (PortCall.closeBridge operation id code reason) (isOk r))
  | PortCall.replaceBridge operation id owner, r, s =>
      s.record (Entry.answered n
        (PortCall.replaceBridge operation id owner) (isOk r))
  | _, _, s => s

/-- What happens beside the manager. -/
inductive Beside (s : State) : State -> Prop where
  | registry (r : RegistryRun) :
      Step BridgeRegistry.alone s.registry r ->
      Beside s { s with registry := r }

def manager : Machine State ports Thrown Value Op where
  body := body options
  boundary := boundary
  admits _ _ := True
  enter n o s := s.record (Entry.entered n o)
  issue := issue
  allowed := allowed options
  reply := reply options
  leave n o res s := s.record (Entry.ended n o res s.document)
  env := Beside

/-- The store starts with a document that its schema leaves as it is. -/
def Run (cfg : Config State ports Thrown Value Op) : Prop :=
  exists document, parseDocument options.nfc document = some document ∧
    Reachable (manager options) (State.initial document) cfg

end Configured

end SessionManager
end Server
end FlanTerminal

import FlanTerminal.Foundation.Replay
import FlanTerminal.Foundation.Serial
import FlanTerminal.Server.TabStore
import FlanTerminal.Shared.TabDocumentText

/-!
# The tab store and its file

The store keeps its document in memory and in one file.  Every operation but
the three that only look is appended to a tail of promises.  A mutation builds
the next document, writes it to a temporary file, renames that file to the
primary one, takes the document over and then synchronises the directory.

The calls of the file system, of the clock, of the source of identifiers and of
the observer of durability are ports.  The state has the primary file and the
temporary files beside the fields of the store, and a log.
-/

namespace FlanTerminal
namespace Server
namespace TabStore

open Foundation
open Shared

def MAX_DOCUMENT_BYTES : Nat := 64 * 1024

def UNSUPPORTED_DIRECTORY_SYNC_CODES : List JsString :=
  [js "EINVAL", js "ENOTSUP", js "ENOSYS"]

/-- What a call of the file system throws, with the code of the error. -/
structure Failure where
  code : Option JsString
  deriving DecidableEq

inductive Rejection where
  | thrown (t : Thrown)
  | io (f : Failure)
  deriving DecidableEq

def isErrorCode (code : JsString) : Rejection -> Bool
  | Rejection.io f => f.code == some code
  | Rejection.thrown _ => false

/-- An error without a code has the code `''`. -/
def isUnsupportedDirectorySync (f : Failure) : Bool :=
  UNSUPPORTED_DIRECTORY_SYNC_CODES.contains (f.code.getD [])

inductive Op where
  | initializeStore
  | mutate (m : Mutation)
  | snapshot
  | has (id : JsString)
  | durabilityReady
  deriving DecidableEq

inductive Value where
  | done
  | tab (t : Option TabRecord)
  | tabs (c : TabCollection)
  | flag (b : Bool)
  deriving DecidableEq

/-!
## Ports
-/

/-- Calls that return nothing.  A temporary file is known by the identifier in
its name. -/
inductive Action where
  | mkdir
  | openPrimary
  | closePrimary
  | unlink (id : JsString)
  | openTemp (id : JsString)
  | syncTemp
  | closeTemp
  | rename (id : JsString)
  | unlinkTemp (id : JsString)
  | openDirectory
  | syncDirectory
  | closeDirectory
  | onDurabilityEvent
  deriving DecidableEq

inductive PortCall where
  | now
  | randomUUID
  | run (a : Action)
  | stat
  /-- Read at this offset, up to the end of the buffer. -/
  | read (offset : Nat)
  | readdir
  | lstat (id : JsString)
  | writeFile (id data : JsString)
  deriving DecidableEq

/-- `isFile()`, and the size or whether it is a symbolic link. -/
structure FileStat where
  isFile : Bool
  size : Nat
  isSymbolicLink : Bool
  deriving DecidableEq

/-- The number of bytes that a read returns, and what it has put into the
buffer. -/
structure Chunk where
  bytesRead : Int
  bytes : List UInt8
  deriving DecidableEq

/-- A write that fails may have written something. -/
structure FailedWrite where
  failure : Failure
  written : List UInt8
  deriving DecidableEq

abbrev PortReply : PortCall -> Type
  | PortCall.now => Except Failure JsString
  | PortCall.randomUUID => Except Failure JsString
  | PortCall.run _ => Except Failure Unit
  | PortCall.stat => Except Failure FileStat
  | PortCall.read _ => Except Failure Chunk
  | PortCall.readdir => Except Failure (List JsString)
  | PortCall.lstat _ => Except Failure FileStat
  | PortCall.writeFile _ _ => Except FailedWrite Unit

abbrev ports : Interface := ⟨PortCall, PortReply⟩

/-!
## State
-/

structure Files where
  primary : Option (List UInt8)
  temps : JsMap JsString (List UInt8)

structure Held where
  document : Option PersistedTabsDocument
  primary : Option (List UInt8)
  deriving DecidableEq

inductive Entry where
  | started (n : Nat) (o : Op) (held : Held)
  /-- A call has thrown. -/
  | failed (n : Nat) (c : PortCall) (f : Failure)
  /-- The primary file has been replaced. -/
  | renamed (n : Nat)
  /-- The document of the primary file has been taken over. -/
  | loaded (n : Nat) (document : PersistedTabsDocument)
  /-- A new document has been taken over. -/
  | committed (n : Nat) (document : PersistedTabsDocument)
  /-- The directory has been synchronised, or not. -/
  | synced (n : Nat) (failure : Option Failure)
  | settled (n : Nat) (o : Op) (res : Except Rejection Value) (held : Held)
  /-- The process has ended, and another has begun. -/
  | restarted
  deriving DecidableEq

structure State where
  document : Option PersistedTabsDocument
  ready : Bool
  files : Files
  log : List Entry

def State.initial (files : Files) : State :=
  ⟨none, false, files, []⟩

def State.record (e : Entry) (s : State) : State :=
  { s with log := s.log ++ [e] }

def State.held (s : State) : Held :=
  ⟨s.document, s.files.primary⟩

def State.restart (s : State) : State :=
  ⟨none, false, s.files, s.log ++ [Entry.restarted]⟩

abbrev Code := Prog State ports Rejection

/-!
## Calls
-/

def unwrap {value : Type} : Except Failure value -> Code value
  | Except.error f => throw (Rejection.io f)
  | Except.ok a => pure a

def attempt (a : Action) : Code Unit := do
  unwrap (← Prog.ask (I := ports) (PortCall.run a))

/-- `call().catch(() => undefined)`. -/
def ignore (a : Action) : Code Unit := do
  let _ ← Prog.ask (I := ports) (PortCall.run a)
  pure ()

def now : Code JsString := do
  unwrap (← Prog.ask (I := ports) PortCall.now)

def randomUUID : Code JsString := do
  unwrap (← Prog.ask (I := ports) PortCall.randomUUID)

def accepted {value : Type} : Except Thrown value -> Code value
  | Except.error t => throw (Rejection.thrown t)
  | Except.ok a => pure a

def requireDocument : Code PersistedTabsDocument := do
  let s ← Prog.read
  accepted (match s.document with
    | none => Except.error Thrown.not_initialized
    | some document => Except.ok document)

/-!
## Reading the primary file
-/

def room (bytes : List UInt8) : Int :=
  ((MAX_DOCUMENT_BYTES + 1 : Nat) : Int) - bytes.length

/-- The loop over the reads.  Every chunk has a byte, so that as many rounds as
the buffer has bytes are enough. -/
def readChunks : Nat -> List UInt8 -> Code (List UInt8)
  | 0, bytes => pure bytes
  | rounds + 1, bytes =>
      if room bytes ≤ 0 then pure bytes
      else do
        let chunk ← Prog.ask (I := ports) (PortCall.read bytes.length)
        let chunk ← unwrap chunk
        if chunk.bytesRead = 0 then pure bytes
        else if chunk.bytesRead < 0 ∨ room bytes < chunk.bytesRead then
          throw (Rejection.thrown Thrown.failed)
        else readChunks rounds (bytes ++ chunk.bytes)

def boundedBytes (bytes : List UInt8) : Code (List UInt8) :=
  if MAX_DOCUMENT_BYTES < bytes.length then
    throw (Rejection.thrown Thrown.failed)
  else pure bytes

def readBytes : Code (List UInt8) := do
  let stat ← unwrap (← Prog.ask (I := ports) PortCall.stat)
  if !stat.isFile ∨ MAX_DOCUMENT_BYTES < stat.size then
    throw (Rejection.thrown Thrown.failed)
  else do
    let bytes ← readChunks (MAX_DOCUMENT_BYTES + 1) []
    boundedBytes bytes

def storedDocument (options : Options) (bytes : List UInt8) :
    Option PersistedTabsDocument :=
  (decodeDocument options.nfc bytes).filter fun document =>
    decide (document.tabs.length ≤ options.sessionMaxCount)

def parseStored (options : Options) (bytes : List UInt8) :
    Code PersistedTabsDocument :=
  match storedDocument options bytes with
  | none => throw (Rejection.thrown Thrown.failed)
  | some document => pure document

def readPrimary (options : Options) : Code PersistedTabsDocument := do
  attempt Action.openPrimary
  let bytes ← readBytes.always (attempt Action.closePrimary)
  parseStored options bytes

/-!
## Writing
-/

/-- Up to eight names for the temporary file. -/
def allocateTemp : Nat -> Code JsString
  | 0 => throw (Rejection.thrown Thrown.failed)
  | left + 1 => do
      let id ← randomUUID
      match ← Prog.ask (I := ports) (PortCall.run (Action.openTemp id)) with
      | Except.error f =>
          if f.code = some (js "EEXIST") then allocateTemp left
          else throw (Rejection.io f)
      | Except.ok _ => pure id

def writeFile (id data : JsString) : Code Unit := do
  match ← Prog.ask (I := ports) (PortCall.writeFile id data) with
  | Except.error f => throw (Rejection.io f.failure)
  | Except.ok _ => pure ()

def fillTemp (id data : JsString) : Code Unit := do
  writeFile id data
  attempt Action.syncTemp
  attempt Action.closeTemp

/-- Write the temporary file; when that fails it is closed and removed. -/
def writeTemp (id data : JsString) : Code Unit :=
  tryCatch (fillTemp id data) fun e => do
    ignore Action.closeTemp
    ignore (Action.unlinkTemp id)
    throw e

def replacePrimary (id : JsString) : Code Unit :=
  tryCatch (attempt (Action.rename id)) fun e => do
    ignore (Action.unlinkTemp id)
    throw e

def failureOf : Except Failure Unit -> Option Failure
  | Except.error f => some f
  | Except.ok _ => none

def throwFirst (failure : Option Failure) : Code Unit :=
  match failure with
  | some f => throw (Rejection.io f)
  | none => pure ()

def syncDirectory : Code Unit := do
  attempt Action.openDirectory
  let synced ← Prog.ask (I := ports) (PortCall.run Action.syncDirectory)
  let closed ← Prog.ask (I := ports) (PortCall.run Action.closeDirectory)
  throwFirst ((failureOf synced).or (failureOf closed))

def setReady (n : Nat) (failure : Option Failure) (ready : Bool) : Code Unit :=
  Prog.modify fun s => { s.record (Entry.synced n failure) with ready := ready }

def degrade (n : Nat) (f : Failure) : Code Unit :=
  if isUnsupportedDirectorySync f then setReady n (some f) true
  else do
    setReady n (some f) false
    ignore Action.onDurabilityEvent

def finishSync (n : Nat) : Code Unit :=
  tryCatch (do
      syncDirectory
      setReady n none true) fun e =>
    match e with
    | Rejection.io f => degrade n f
    | Rejection.thrown _ => degrade n ⟨none⟩

def takeOver (n : Nat) (next : PersistedTabsDocument) : Code Unit :=
  Prog.modify fun s =>
    { s.record (Entry.committed n next) with document := some next }

def writeDocument (n : Nat) (next : PersistedTabsDocument) : Code Unit := do
  let id ← allocateTemp 8
  writeTemp id next.serialized
  replacePrimary id
  takeOver n next
  finishSync n

def persist (options : Options) (n : Nat) (candidate : PersistedTabsDocument) :
    Code Unit := do
  let next ← accepted (accept (parseDocument options.nfc candidate))
  if MAX_DOCUMENT_BYTES < utf8ByteLength next.serialized then
    throw (Rejection.thrown Thrown.failed)
  else writeDocument n next

/-!
## Operations
-/

/-- Whether the mutation reads the clock and asks for an identifier. -/
def needsSources (options : Options) (current : PersistedTabsDocument) :
    Mutation -> Bool
  | Mutation.create _ =>
      decide (current.tabs.length < options.sessionMaxCount)
  | Mutation.ensureInitialTab =>
      decide (current.tabs.length = 0 ∧ 0 < options.sessionMaxCount)
  | _ => false

def readSources (options : Options) (current : PersistedTabsDocument)
    (m : Mutation) : Code Sources :=
  if needsSources options current m then do
    let timestamp ← now
    let id ← randomUUID
    pure ⟨id, timestamp⟩
  else pure ⟨[], []⟩

def findTab (document : PersistedTabsDocument) (id : JsString) : Code Value := do
  let tab ← accepted (requireTab document id)
  pure (Value.tab (some tab))

/-- `mutation.result()`. -/
def resultOf (sources : Sources) (m : Mutation) : Code Value := do
  let document ← requireDocument
  match m with
  | Mutation.create _ => findTab document sources.randomUUID
  | Mutation.ensureInitialTab => findTab document sources.randomUUID
  | Mutation.rename id _ => findTab document id
  | Mutation.reorder _ _ => pure (Value.tabs document)
  | Mutation.setDesiredState id _ => findTab document id
  | Mutation.remove _ => pure Value.done
  | Mutation.flushActivity _ _ => pure Value.done

def nothingDone : Mutation -> Value
  | Mutation.ensureInitialTab => Value.tab none
  | _ => Value.done

def applyMutation (options : Options) (n : Nat) (sources : Sources)
    (m : Mutation) : Option PersistedTabsDocument -> Code Value
  | none => pure (nothingDone m)
  | some next => do
      persist options n next
      resultOf sources m

def mutate (options : Options) (n : Nat) (m : Mutation) : Code Value := do
  let current ← requireDocument
  let sources ← readSources options current m
  let mutation ← accepted (build options sources current m)
  applyMutation options n sources m mutation

/-- `TEMP_FILENAME_PATTERN`; the identifier in the name. -/
def tempId (name : JsString) : Option JsString :=
  if name.take 14 = js "tabs.json.tmp." ∧ isSessionId (name.drop 14) = true then
    some (name.drop 14)
  else none

def cleanupTemp (id : JsString) : Code Unit := do
  match ← Prog.ask (I := ports) (PortCall.lstat id) with
  | Except.error _ => pure ()
  | Except.ok stat =>
      if stat.isFile && !stat.isSymbolicLink then ignore (Action.unlink id)
      else pure ()

def cleanupEach : List JsString -> Code Unit
  | [] => pure ()
  | id :: rest => do
      cleanupTemp id
      cleanupEach rest

def cleanupTemps : Code Unit := do
  match ← Prog.ask (I := ports) PortCall.readdir with
  | Except.error _ => pure ()
  | Except.ok names => cleanupEach (names.filterMap tempId)

def emptyDocument : PersistedTabsDocument :=
  ⟨0, []⟩

/-- The document of the primary file, whose directory counts as synchronised. -/
def loadPrimary (options : Options) : Code PersistedTabsDocument := do
  let document ← readPrimary options
  Prog.modify fun s => { s with ready := true }
  pure document

def createPrimary (options : Options) (n : Nat) (e : Rejection) :
    Code PersistedTabsDocument :=
  if isErrorCode (js "ENOENT") e then do
    let document ← accepted (accept (parseDocument options.nfc emptyDocument))
    persist options n document
    pure document
  else throw e

/-- `this.document ??= document`. -/
def keepDocument (n : Nat) (document : PersistedTabsDocument) : Code Unit :=
  Prog.modify fun s =>
    match s.document with
    | some _ => s
    | none =>
        { s.record (Entry.loaded n document) with document := some document }

def initializeStore (options : Options) (n : Nat) : Code Value := do
  let s ← Prog.read
  if s.document.isSome then throw (Rejection.thrown Thrown.already_initialized)
  else do
    attempt Action.mkdir
    let document ← tryCatch (loadPrimary options) (createPrimary options n)
    keepDocument n document
    cleanupTemps
    pure Value.done

/-!
## The store

Nothing else writes to the directory of the store.
-/

/-- A read that returns a number of bytes that it was not asked for. -/
def misread (offset : Nat) (chunk : Chunk) : Prop :=
  chunk.bytesRead < 0 ∨
    ((MAX_DOCUMENT_BYTES + 1 : Nat) : Int) - offset < chunk.bytesRead

instance (offset : Nat) (chunk : Chunk) : Decidable (misread offset chunk) :=
  inferInstanceAs (Decidable (_ ∨ _))

/-- The bytes that a read returns are the next ones of the file, and there are
some unless the file is at its end. -/
def Reads (content : List UInt8) (offset : Nat) (chunk : Chunk) : Prop :=
  chunk.bytesRead = chunk.bytes.length ∧ chunk.bytes <+: content.drop offset ∧
    (chunk.bytes = [] -> content.drop offset = [])

/-- What the calls can answer.  That there is no such file is something that
only a call with a name can find out. -/
def Allowed (files : Files) : (c : PortCall) -> PortReply c -> Prop
  | PortCall.run Action.openPrimary, Except.ok _ => files.primary.isSome = true
  | PortCall.run Action.openPrimary, Except.error f =>
      f.code = some (js "ENOENT") -> files.primary = none
  | PortCall.run Action.closePrimary, Except.error f =>
      f.code ≠ some (js "ENOENT")
  | PortCall.run (Action.openTemp id), Except.ok _ => files.temps.get id = none
  | PortCall.run (Action.rename id), Except.ok _ =>
      (files.temps.get id).isSome = true
  | PortCall.stat, Except.ok stat =>
      stat.isFile = true ∧ stat.size = (files.primary.getD []).length
  | PortCall.stat, Except.error f => f.code ≠ some (js "ENOENT")
  | PortCall.read offset, Except.ok chunk =>
      misread offset chunk ∨ Reads (files.primary.getD []) offset chunk
  | PortCall.read _, Except.error f => f.code ≠ some (js "ENOENT")
  | _, _ => True

/-- The exception of a call; a number of bytes that was not asked for counts as
one. -/
def thrownBy : (c : PortCall) -> PortReply c -> Option Failure
  | PortCall.now, Except.error f => some f
  | PortCall.randomUUID, Except.error f => some f
  | PortCall.run _, Except.error f => some f
  | PortCall.stat, Except.error f => some f
  | PortCall.read _, Except.error f => some f
  | PortCall.read offset, Except.ok chunk =>
      if misread offset chunk then some ⟨none⟩ else none
  | PortCall.readdir, Except.error f => some f
  | PortCall.lstat _, Except.error f => some f
  | PortCall.writeFile _ _, Except.error f => some f.failure
  | _, _ => none

def Files.after : (c : PortCall) -> PortReply c -> Files -> Files
  | PortCall.run (Action.openTemp id), Except.ok _, files =>
      { files with temps := files.temps.set id [] }
  | PortCall.writeFile id data, Except.ok _, files =>
      { files with temps := files.temps.set id (utf8Bytes data) }
  | PortCall.writeFile id _, Except.error f, files =>
      { files with temps := files.temps.set id f.written }
  | PortCall.run (Action.rename id), Except.ok _, files =>
      ⟨files.temps.get id, files.temps.delete id⟩
  | PortCall.run (Action.unlinkTemp id), Except.ok _, files =>
      { files with temps := files.temps.delete id }
  | PortCall.run (Action.unlink id), Except.ok _, files =>
      { files with temps := files.temps.delete id }
  | _, _, files => files

def isReplaced : (c : PortCall) -> PortReply c -> Bool
  | PortCall.run (Action.rename _), Except.ok _ => true
  | _, _ => false

def noted (n : Nat) (c : PortCall) (r : PortReply c) : Option Entry :=
  match thrownBy c r with
  | some f => some (Entry.failed n c f)
  | none => if isReplaced c r then some (Entry.renamed n) else none

def reply (n : Nat) (c : PortCall) (r : PortReply c) (s : State) : State :=
  { s with
    files := s.files.after c r
    log := s.log ++ (noted n c r).toList }

def boundary : PortCall -> Boundary
  | PortCall.now => Boundary.sync
  | PortCall.randomUUID => Boundary.sync
  | PortCall.run Action.onDurabilityEvent => Boundary.callback
  | _ => Boundary.await

/-- The operations that only look are answered at once. -/
def look (document : Option PersistedTabsDocument) (ready : Bool) :
    Op -> Option (Except Rejection Value)
  | Op.initializeStore => none
  | Op.mutate _ => none
  | Op.snapshot => some (match document with
      | none => Except.error (Rejection.thrown Thrown.not_initialized)
      | some document => Except.ok (Value.tabs document))
  | Op.has id => some (match document with
      | none => Except.error (Rejection.thrown Thrown.not_initialized)
      | some document =>
          Except.ok (Value.flag (document.tabs.any fun tab => tab.id = id)))
  | Op.durabilityReady => some (Except.ok (Value.flag ready))

def work (options : Options) (n : Nat) : Op -> Code Value
  | Op.initializeStore => initializeStore options n
  | Op.mutate m => mutate options n m
  | _ => pure Value.done

def store (options : Options) : Serial State ports Rejection Value Op where
  front _ o s := (s, look s.document s.ready o)
  turn n o s := s.record (Entry.started n o s.held)
  work := work options
  boundary := boundary
  admits _ _ := True
  issue _ _ s := s
  allowed s _ := Allowed s.files
  reply := reply
  leave n o res s := s.record (Entry.settled n o res s.held)
  env _ _ := False

abbrev Situation :=
  Config (Line State) (Serial.ports ports) Rejection Value Op

/-- Where a process begins: with these files, or with what the process before
it has left, which may have ended at any moment. -/
inductive Begins (options : Options) (files : Files) : State -> Prop where
  | first : Begins options files (State.initial files)
  | again {s : State} {cfg : Situation} : Begins options files s ->
      Reachable (store options).machine (Line.initial s) cfg ->
      Begins options files cfg.shared.inner.restart

/-- What is reached from these files, over any number of processes. -/
def Run (options : Options) (files : Files) (cfg : Situation) : Prop :=
  exists s, Begins options files s ∧
    Reachable (store options).machine (Line.initial s) cfg

end TabStore
end Server
end FlanTerminal

import Mathlib.Logic.Function.Basic
import FlanTerminal.Foundation.PosixPath
import FlanTerminal.Foundation.Solo
import FlanTerminal.Server.PreflightJson
import FlanTerminal.Shared.Protocol

/-!
# The secure JSON file

A file is replaced by writing a temporary file beside it and renaming that one.
The parent directory is opened first and stays open, the target is checked
before the temporary file is made and again before it is renamed.  The calls of
the file system are ports; the state has the files by their paths, the handles
that have been opened, and a log.
-/

namespace FlanTerminal
namespace Server
namespace SecureJsonFile

open Foundation
open Shared

def TEMP_OPEN_ATTEMPTS : Nat := 8

inductive ReplaceResult where
  | not_committed
  | committed
  | committed_durability_uncertain
  deriving DecidableEq

structure SecureJsonFileStat where
  uid : Int
  mode : Nat
  size : Nat
  isFile : Bool
  isDirectory : Bool
  deriving DecidableEq

/-- What a call throws, with the code of the error. -/
structure Failure where
  code : Option JsString
  deriving DecidableEq

inductive Thrown where
  | io (f : Failure)
  | security_validation
  | secure_json_file
  /-- An `Error` with a message that nothing reads. -/
  | plain
  deriving DecidableEq

def isErrorCode (error : Failure) (code : JsString) : Bool :=
  error.code == some code

/-!
## Ports
-/

inductive OpenFlags where
  /-- `O_RDONLY | O_NOFOLLOW | O_DIRECTORY` -/
  | directory
  /-- `O_RDONLY | O_NOFOLLOW` -/
  | existing
  /-- `O_CREAT | O_EXCL | O_WRONLY | O_NOFOLLOW`, mode 0600 -/
  | exclusive
  deriving DecidableEq

/-- The number of bytes that a read returns, and what it has put into the
buffer. -/
structure Chunk where
  bytesRead : Int
  bytes : List UInt8
  deriving DecidableEq

inductive PortCall where
  | open (path : JsString) (flags : OpenFlags)
  | stat (handle : Nat)
  | chmod (handle : Nat) (mode : Nat)
  | read (handle : Nat) (length : Nat)
  | write (handle : Nat) (bytes : List UInt8)
  | sync (handle : Nat)
  | close (handle : Nat)
  | rename (old new : JsString)
  | unlink (path : JsString)
  | randomName
  deriving DecidableEq

abbrev PortReply : PortCall -> Type
  | PortCall.open _ _ => Except Failure Nat
  | PortCall.stat _ => Except Failure SecureJsonFileStat
  | PortCall.read _ _ => Except Failure Chunk
  | PortCall.write _ _ => Except Failure Int
  | PortCall.randomName => Except Failure JsString
  | _ => Except Failure Unit

abbrev ports : Interface := ⟨PortCall, PortReply⟩

/-!
## State
-/

inductive Entry where
  | renamed (old new : JsString)
  | synced (handle : Nat)
  | closed (handle : Nat)
  deriving DecidableEq

structure Disk where
  files : JsString -> Option (List UInt8)
  /-- The paths of the handles that have been opened. -/
  handles : Nat -> Option JsString
  /-- The handles that `close` has been called for. -/
  closeCalled : Nat -> Bool
  /-- How far a handle has been read. -/
  position : Nat -> Nat
  log : List Entry

abbrev Code := Prog Disk ports Thrown

def unwrap {value : Type} : Except Failure value -> Code value
  | Except.error f => throw (Thrown.io f)
  | Except.ok a => pure a

def openFile (path : JsString) (flags : OpenFlags) : Code Nat := do
  unwrap (← Prog.ask (I := ports) (PortCall.open path flags))

def stat (handle : Nat) : Code SecureJsonFileStat := do
  unwrap (← Prog.ask (I := ports) (PortCall.stat handle))

def chmod (handle mode : Nat) : Code Unit := do
  unwrap (← Prog.ask (I := ports) (PortCall.chmod handle mode))

def sync (handle : Nat) : Code Unit := do
  unwrap (← Prog.ask (I := ports) (PortCall.sync handle))

def close (handle : Nat) : Code Unit := do
  unwrap (← Prog.ask (I := ports) (PortCall.close handle))

def rename (old new : JsString) : Code Unit := do
  unwrap (← Prog.ask (I := ports) (PortCall.rename old new))

def unlink (path : JsString) : Code Unit := do
  unwrap (← Prog.ask (I := ports) (PortCall.unlink path))

def randomName : Code JsString := do
  unwrap (← Prog.ask (I := ports) PortCall.randomName)

/-- `call().catch(() => undefined)`. -/
def ignore (p : Code Unit) : Code Unit :=
  tryCatch p fun _ => pure ()

/-- Whether a call in a `try` of its own has thrown. -/
def fails (p : Code Unit) : Code Bool :=
  tryCatch (do p; pure false) fun _ => pure true

/-!
## Checks
-/

def validPath (path : JsString) : Bool :=
  PosixPath.isAbsolute path && PosixPath.basename path != []

def validTargetStat (stat : SecureJsonFileStat) (runtimeUid : Int) : Bool :=
  stat.isFile && stat.uid == runtimeUid && stat.mode &&& 0o7177 == 0

def validTempStat (stat : SecureJsonFileStat) (runtimeUid : Int) : Bool :=
  stat.isFile && stat.uid == runtimeUid && stat.mode &&& 0o7777 == 0o600

def validParentStat (stat : SecureJsonFileStat) (runtimeUid : Int) : Bool :=
  stat.isDirectory && stat.uid == runtimeUid && stat.mode &&& 0o022 == 0

def require (b : Bool) (e : Thrown) : Code Unit :=
  if b then pure () else throw e

def openValidatedParent (runtimeUid : Int) (path : JsString) : Code Nat := do
  let handle ← openFile (PosixPath.dirname path) OpenFlags.directory
  tryCatch (do
      let s ← stat handle
      require (validParentStat s runtimeUid) Thrown.plain
      pure handle)
    fun e => do
      ignore (close handle)
      throw e

/-- The first failure of the check and of `close`. -/
def validateExistingTarget (runtimeUid : Int) (path : JsString) :
    Code Unit := do
  match ← Prog.ask (I := ports) (PortCall.open path OpenFlags.existing) with
  | Except.error f =>
      if isErrorCode f (js "ENOENT") then pure ()
      else if isErrorCode f (js "ELOOP") then throw Thrown.security_validation
      else throw (Thrown.io f)
  | Except.ok handle =>
      let checked ← Solo.attempt (do
        let s ← stat handle
        require (validTargetStat s runtimeUid) Thrown.security_validation)
      let closed ← Solo.attempt (close handle)
      match checked with
      | Except.error e => throw e
      | Except.ok _ =>
          match closed with
          | Except.error e => throw e
          | Except.ok _ => pure ()

/-!
## Writing
-/

/-- The offset only grows, so as many rounds as there are bytes are enough. -/
def writeAll (handle : Nat) : Nat -> List UInt8 -> Code Unit
  | 0, _ => pure ()
  | rounds + 1, bytes =>
      if bytes = [] then pure ()
      else do
        let bytesWritten ← unwrap
          (← Prog.ask (I := ports) (PortCall.write handle bytes))
        if bytesWritten ≤ 0 ∨ (bytes.length : Int) < bytesWritten then
          throw Thrown.plain
        else writeAll handle rounds (bytes.drop bytesWritten.toNat)

/-- `JSON.stringify` of an accepted value is a string. -/
def serializeJson (heap : Heap) (value : JsValue) : Option (List UInt8) :=
  match preflightJson heap value with
  | Except.error _ => none
  | Except.ok l =>
      match l.json with
      | none => none
      | some snapshot =>
          let bytes := utf8Bytes (Json.stringify snapshot)
          if MAX_SECURE_JSON_BYTES < bytes.length then none else some bytes

/-- The name of a temporary file for the target. -/
def tempName (path random : JsString) : JsString :=
  js "." ++ PosixPath.basename path ++ js ".secure-json-" ++ random ++
    js ".tmp"

def tempPath (path random : JsString) : JsString :=
  PosixPath.join (PosixPath.dirname path) (tempName path random)

def allocateTemp (path : JsString) : Nat -> Code (JsString × Nat)
  | 0 => throw Thrown.plain
  | attempts + 1 => do
      let random ← randomName
      match ← Prog.ask (I := ports)
          (PortCall.open (tempPath path random) OpenFlags.exclusive) with
      | Except.error f =>
          if isErrorCode f (js "EEXIST") then allocateTemp path attempts
          else throw (Thrown.io f)
      | Except.ok handle => pure (tempPath path random, handle)

def fillTemp (runtimeUid : Int) (temp : Nat) (bytes : List UInt8) :
    Code Unit := do
  chmod temp 0o600
  let s ← stat temp
  require (validTempStat s runtimeUid) Thrown.plain
  writeAll temp bytes.length bytes
  sync temp
  close temp

def renameTemp (runtimeUid : Int) (old path : JsString) : Code Unit := do
  validateExistingTarget runtimeUid path
  rename old path

def closeTemp : Option Nat -> Code Bool
  | none => pure false
  | some handle => fails (close handle)

def unlinkTemp : Option JsString -> Code Bool
  | none => pure false
  | some old => fails (unlink old)

/-- What was open is closed and what was made is removed. -/
def cleanUp (temp : Option Nat) (owned : Option JsString) (parent : Nat)
    (error : Thrown) : Code ReplaceResult := do
  let tempFailed ← closeTemp temp
  let unlinkFailed ← unlinkTemp owned
  let parentFailed ← fails (close parent)
  if error = Thrown.security_validation ∨ tempFailed ∨ unlinkFailed ∨
      parentFailed then
    throw Thrown.secure_json_file
  else pure ReplaceResult.not_committed

def finish (parent : Nat) : Code ReplaceResult := do
  let syncFailed ← fails (sync parent)
  let closeFailed ← fails (close parent)
  if syncFailed ∨ closeFailed then
    pure ReplaceResult.committed_durability_uncertain
  else pure ReplaceResult.committed

def replaceTarget (runtimeUid : Int) (path : JsString) (bytes : List UInt8)
    (parent : Nat) : Code ReplaceResult := do
  match ← Solo.attempt (allocateTemp path TEMP_OPEN_ATTEMPTS) with
  | Except.error e => cleanUp none none parent e
  | Except.ok (old, temp) =>
      match ← Solo.attempt (fillTemp runtimeUid temp bytes) with
      | Except.error e => cleanUp (some temp) (some old) parent e
      | Except.ok _ =>
          match ← Solo.attempt (renameTemp runtimeUid old path) with
          | Except.error e => cleanUp none (some old) parent e
          | Except.ok _ => finish parent

def openForReplace (runtimeUid : Int) (path : JsString) : Code Nat := do
  let parent ← tryCatch (openValidatedParent runtimeUid path)
    fun _ => throw Thrown.secure_json_file
  tryCatch (validateExistingTarget runtimeUid path) fun _ => do
    ignore (close parent)
    throw Thrown.secure_json_file
  pure parent

def replace (runtimeUid : Int) (heap : Heap) (path : JsString)
    (value : JsValue) (mode : Nat) : Code ReplaceResult :=
  if validPath path && mode == 0o600 then
    match serializeJson heap value with
    | none => throw Thrown.secure_json_file
    | some bytes => do
        let parent ← openForReplace runtimeUid path
        replaceTarget runtimeUid path bytes parent
  else throw Thrown.secure_json_file

def syncParent (runtimeUid : Int) (path : JsString) : Code Bool :=
  if validPath path then do
    match ← Solo.attempt (openValidatedParent runtimeUid path) with
    | Except.error _ => pure false
    | Except.ok parent =>
        let syncFailed ← fails (sync parent)
        let closeFailed ← fails (close parent)
        pure (!syncFailed && !closeFailed)
  else pure false

/-!
## Reading
-/

def validateAndCloseParent (runtimeUid : Int) (path : JsString) :
    Code Unit := do
  let parent ← openValidatedParent runtimeUid path
  close parent

/-- The loop over the reads, with what is in the buffer. -/
def readBounded (handle maximumBytes : Nat) : Nat -> List UInt8 ->
    Code (List UInt8)
  | 0, bytes => pure bytes
  | rounds + 1, bytes =>
      if maximumBytes + 1 ≤ bytes.length then pure bytes
      else do
        let left := maximumBytes + 1 - bytes.length
        let chunk ← unwrap
          (← Prog.ask (I := ports) (PortCall.read handle left))
        if chunk.bytesRead = 0 then pure bytes
        else if chunk.bytesRead < 0 ∨ (left : Int) < chunk.bytesRead then
          throw Thrown.plain
        else readBounded handle maximumBytes rounds (bytes ++ chunk.bytes)

def decodeJson (bytes : List UInt8) : Option Json :=
  (decodeUtf8 bytes).bind fun text => Json.parse (dropByteOrderMark text)

def readValue (runtimeUid : Int) (handle maximumBytes : Nat) : Code Json := do
  let s ← stat handle
  require (validTargetStat s runtimeUid) Thrown.security_validation
  require (decide (s.size ≤ maximumBytes)) Thrown.plain
  let bytes ← readBounded handle maximumBytes (maximumBytes + 1) []
  require (decide (bytes.length ≤ maximumBytes)) Thrown.plain
  match decodeJson bytes with
  | none => throw Thrown.plain
  | some value => pure value

/-- A file that is not there is no value. -/
def readTarget (runtimeUid : Int) (path : JsString) (maximumBytes : Nat) :
    Code (Option Json) := do
  validateAndCloseParent runtimeUid path
  match ← Prog.ask (I := ports) (PortCall.open path OpenFlags.existing) with
  | Except.error f =>
      if isErrorCode f (js "ENOENT") then pure none else throw (Thrown.io f)
  | Except.ok handle =>
      let value ← Solo.attempt (readValue runtimeUid handle maximumBytes)
      let closeFailed ← fails (close handle)
      match value with
      | Except.error _ => throw Thrown.plain
      | Except.ok value =>
          if closeFailed then throw Thrown.plain else pure (some value)

def read (runtimeUid : Int) (path : JsString) (maximumBytes : Nat) :
    Code (Option Json) :=
  if validPath path && (decide (1 ≤ maximumBytes) &&
      decide (maximumBytes ≤ MAX_SECURE_JSON_BYTES)) then
    tryCatch (readTarget runtimeUid path maximumBytes)
      fun _ => throw Thrown.secure_json_file
  else throw Thrown.secure_json_file

/-!
## The file system

A call that fails has no effect.  A handle that is opened is a new one, and an
exclusive open succeeds only where there is no file.  A write takes some bytes
from the front, a read gives some of the bytes that come next, and none only at
the end.
-/

/-- The name of a random source is an identifier, without a slash. -/
def Allowed (d : Disk) : (c : PortCall) -> PortReply c -> Prop
  | PortCall.open path flags, Except.ok handle =>
      d.handles handle = none ∧
        (flags = OpenFlags.exclusive -> d.files path = none)
  | PortCall.read handle length, Except.ok chunk =>
      exists path bytes, d.handles handle = some path ∧
        d.files path = some bytes ∧
        chunk.bytesRead = chunk.bytes.length ∧ chunk.bytes.length ≤ length ∧
        chunk.bytes = (bytes.drop (d.position handle)).take chunk.bytes.length ∧
        (chunk.bytes = [] -> bytes.length ≤ d.position handle)
  | PortCall.rename old _, Except.ok _ => d.files old ≠ none
  | PortCall.randomName, Except.ok name => PosixPath.SLASH ∉ name
  | _, _ => True

def Disk.record (e : Entry) (d : Disk) : Disk :=
  { d with log := d.log ++ [e] }

def Disk.opened (path : JsString) (flags : OpenFlags) (handle : Nat)
    (d : Disk) : Disk :=
  { d with
    files :=
      if flags = OpenFlags.exclusive then
        Function.update d.files path (some [])
      else d.files
    handles := Function.update d.handles handle (some path)
    closeCalled := Function.update d.closeCalled handle false
    position := Function.update d.position handle 0 }

def Disk.written (handle : Nat) (bytes : List UInt8) (d : Disk) : Disk :=
  match d.handles handle with
  | none => d
  | some path =>
      { d with
        files := Function.update d.files path
          ((d.files path).map fun before => before ++ bytes) }

def Disk.renamed (old new : JsString) (d : Disk) : Disk :=
  { d with
    files := fun p =>
      if p = new then d.files old else if p = old then none else d.files p
    log := d.log ++ [Entry.renamed old new] }

def Disk.closing (handle : Nat) (d : Disk) : Disk :=
  { d with closeCalled := Function.update d.closeCalled handle true }

def reply : (c : PortCall) -> PortReply c -> Disk -> Disk
  | PortCall.open path flags, Except.ok handle, d =>
      d.opened path flags handle
  | PortCall.read handle _, Except.ok chunk, d =>
      { d with
        position := Function.update d.position handle
          (d.position handle + chunk.bytes.length) }
  | PortCall.write handle bytes, Except.ok n, d =>
      d.written handle (bytes.take n.toNat)
  | PortCall.sync handle, Except.ok _, d => d.record (Entry.synced handle)
  | PortCall.close handle, Except.ok _, d =>
      (d.closing handle).record (Entry.closed handle)
  | PortCall.close handle, Except.error _, d => d.closing handle
  | PortCall.rename old new, Except.ok _, d => d.renamed old new
  | PortCall.unlink path, Except.ok _, d =>
      { d with files := Function.update d.files path none }
  | _, _, d => d

abbrev fileSystem : Solo Disk ports := ⟨Allowed, reply⟩

end SecureJsonFile
end Server
end FlanTerminal

import FlanTerminal.Server.SecureJsonFileSafety

/-!
# What a replacement comes to

Whether the rename has succeeded decides what the target has, and the result
says whether it has.
-/

namespace FlanTerminal
namespace Server
namespace SecureJsonFile

open Foundation

def Disk.since (s0 s : Disk) : List Entry :=
  s.log.drop s0.log.length

def RenamedSince (s0 : Disk) (path : JsString) (s : Disk) : Prop :=
  exists old, Entry.renamed old path ∈ s0.since s

section Results

variable {s0 s : Disk} {path : JsString}

theorem since_eq {new : List Entry} (h : s.log = s0.log ++ new) :
    s0.since s = new := by
  unfold Disk.since
  rw [h, List.drop_left]

theorem Before.not_renamed {files : JsString -> Option (List UInt8)}
    {hs : List (Nat × JsString)} (h : Before s0 files hs s) :
    ¬ RenamedSince s0 path s := by
  obtain ⟨new, hnew, hquiet⟩ := h.log
  intro hrenamed
  obtain ⟨old, hmem⟩ := hrenamed
  rw [since_eq hnew] at hmem
  exact hquiet old path hmem

theorem Replaced.since {bytes : List UInt8} {hs : List (Nat × JsString)}
    {post : List Entry} (h : Replaced s0 path bytes hs post s) :
    exists old pre, s0.since s = pre ++ Entry.renamed old path :: post := by
  obtain ⟨old, pre, _, hlog⟩ := h.log
  rw [List.append_assoc] at hlog
  exact ⟨old, pre, since_eq hlog⟩

theorem Replaced.renamed {bytes : List UInt8} {hs : List (Nat × JsString)}
    {post : List Entry} (h : Replaced s0 path bytes hs post s) :
    RenamedSince s0 path s := by
  obtain ⟨old, pre, hsince⟩ := h.since
  refine ⟨old, ?_⟩
  rw [hsince]
  exact List.mem_append_right _ List.mem_cons_self

/-- A replacement is atomic: the target changes with the rename and with
nothing else, and then it has the bytes of the value. -/
theorem replace_atomic {runtimeUid : Int} {heap : Heap} {value : JsValue}
    {mode : Nat} {res : Except Thrown ReplaceResult}
    (h : (replace runtimeUid heap path value mode).Ends Allowed reply s0 res
      s) :
    ((res = Except.ok ReplaceResult.committed ∨
        res = Except.ok ReplaceResult.committed_durability_uncertain) <->
      RenamedSince s0 path s) ∧
    (RenamedSince s0 path s -> exists bytes,
      serializeJson heap value = some bytes ∧
        s.files = Function.update s0.files path (some bytes)) ∧
    (¬ RenamedSince s0 path s -> s.files path = s0.files path ∧
      (res = Except.ok ReplaceResult.not_committed ∨
        res = Except.error Thrown.secure_json_file)) ∧
    (res = Except.ok ReplaceResult.committed -> exists pre old post parent,
      s0.since s = pre ++ Entry.renamed old path :: post ∧
        s.handles parent = some (PosixPath.dirname path) ∧
        Entry.synced parent ∈ post ∧ Entry.closed parent ∈ post) ∧
    (res = Except.ok ReplaceResult.not_committed -> s.files = s0.files ∧
      forall handle, s0.handles handle = none -> s.handles handle ≠ none ->
        s.closeCalled handle = true) := by
  have hends := Solo.triple_ends (W := fileSystem) spec_replace
    (Before.refl s0) h
  cases res with
  | error e =>
      obtain ⟨rfl, files, htarget, hbefore⟩ := hends
      have hnot : ¬ RenamedSince s0 path s := hbefore.not_renamed
      refine ⟨⟨fun hres => ?_, fun hr => absurd hr hnot⟩,
        fun hr => absurd hr hnot, fun _ => ⟨?_, Or.inr rfl⟩,
        fun hres => (by cases hres), fun hres => (by cases hres)⟩
      · rcases hres with hres | hres
        · cases hres
        · cases hres
      · rw [hbefore.files, htarget]
  | ok res =>
      rcases hends with ⟨rfl, hbefore⟩ | ⟨hres, bytes, parent, post, hbytes,
        hreplaced, hdurable⟩
      · have hnot : ¬ RenamedSince s0 path s := hbefore.not_renamed
        refine ⟨⟨fun hres => ?_, fun hr => absurd hr hnot⟩,
          fun hr => absurd hr hnot, fun _ => ⟨?_, Or.inl rfl⟩,
          fun hres => (by cases hres), fun _ => ⟨hbefore.files, ?_⟩⟩
        · rcases hres with hres | hres
          · cases hres
          · cases hres
        · rw [hbefore.files]
        · intro handle hnone hsome
          exact (hbefore.closed handle hnone hsome).resolve_right
            List.not_mem_nil
      · have hrenamed := hreplaced.renamed
        refine ⟨⟨fun _ => hrenamed, fun _ => ?_⟩,
          fun _ => ⟨bytes, hbytes, hreplaced.files⟩,
          fun hnot => absurd hrenamed hnot, fun heq => ?_, fun heq => ?_⟩
        · cases res with
          | not_committed => exact absurd rfl hres
          | committed => exact Or.inl rfl
          | committed_durability_uncertain => exact Or.inr rfl
        · obtain ⟨old, pre, hsince⟩ := hreplaced.since
          have hafter := hdurable (Except.ok.inj heq)
          exact ⟨pre, old, post, parent, hsince,
            hreplaced.opened _ (List.mem_singleton_self _), hafter.1,
            hafter.2⟩
        · exact absurd (Except.ok.inj heq) hres

end Results

section Sample

def samplePath : JsString := js "/d/x"

/-- A disk with a directory, on which every call succeeds that can.  A write
takes one byte. -/
def samplePick (d : Disk) : (c : PortCall) -> PortReply c
  | PortCall.open path flags =>
      if flags = OpenFlags.existing ∧ d.files path = none then
        Except.error ⟨some (js "ENOENT")⟩
      else if d.handles d.log.length = none ∧
          (flags = OpenFlags.exclusive -> d.files path = none) then
        Except.ok d.log.length
      else if d.handles (d.log.length + 1) = none ∧
          (flags = OpenFlags.exclusive -> d.files path = none) then
        Except.ok (d.log.length + 1)
      else Except.error ⟨none⟩
  | PortCall.stat handle =>
      if d.handles handle = some (js "/d") then
        Except.ok ⟨0, 0o755, 0, false, true⟩
      else Except.ok ⟨0, 0o600, 0, true, false⟩
  | PortCall.chmod _ _ => Except.ok ()
  | PortCall.read _ _ => Except.error ⟨none⟩
  | PortCall.write _ _ => Except.ok 1
  | PortCall.sync _ => Except.ok ()
  | PortCall.close _ => Except.ok ()
  | PortCall.rename old _ =>
      if d.files old = none then Except.error ⟨none⟩ else Except.ok ()
  | PortCall.unlink _ => Except.ok ()
  | PortCall.randomName => Except.ok (js "1")

def sampleDisk : Disk where
  files := fun path => if path = samplePath then some [0] else none
  handles := fun _ => none
  closeCalled := fun _ => false
  position := fun _ => 0
  log := []

theorem samplePick_allowed (d : Disk) (c : PortCall) :
    Allowed d c (samplePick d c) := by
  cases c with
  | «open» path flags =>
      dsimp only [samplePick]
      split
      · trivial
      · split
        · assumption
        · split
          · assumption
          · trivial
  | stat handle =>
      dsimp only [samplePick]
      split
      · trivial
      · trivial
  | rename old new =>
      dsimp only [samplePick]
      split
      · trivial
      · assumption
  | randomName =>
      show PosixPath.SLASH ∉ js "1"
      decide
  | chmod handle mode => trivial
  | read handle length => trivial
  | write handle bytes => trivial
  | sync handle => trivial
  | close handle => trivial
  | unlink path => trivial

def sampleObject : JsObject where
  isArray := false
  length := 0
  prototype := Prototype.null
  properties := []
  ordered := List.Pairwise.nil
  length_own := fun h => by cases h

def sampleReplace : Code ReplaceResult :=
  replace 0 (fun _ => sampleObject) samplePath (JsValue.bool true) 0o600

theorem sample_serialized (heap : Heap) :
    serializeJson heap (JsValue.bool true) =
      some [116, 114, 117, 101] := by
  have hstep : (walk heap).step
      (PreflightWork.value (JsValue.bool true) none 0) Locals.initial =
      Except.ok ([], { Locals.initial with
        nodeCount := 1
        byteCount := 4
        snapshot := some (Copy.bool true) }) := rfl
  have hpreflight : preflightJson heap (JsValue.bool true) = Except.ok
      ⟨[], [], 4, 0, 1, some (Copy.bool true)⟩ := by
    unfold preflightJson
    rw [WorkStack.drain_cons, hstep]
    exact WorkStack.drain_nil _ _
  unfold serializeJson
  rw [hpreflight]
  rfl

theorem sampleReplace_committed :
    (fileSystem.play samplePick sampleReplace sampleDisk).1 =
      Except.ok ReplaceResult.committed := by
  have hreplace : sampleReplace = openForReplace 0 samplePath >>=
      replaceTarget 0 samplePath [116, 114, 117, 101] := by
    unfold sampleReplace replace
    rw [if_pos (by decide), sample_serialized]
  rw [hreplace]
  rfl

theorem replace_atomic_sample : exists s,
    sampleReplace.Ends Allowed reply sampleDisk
      (Except.ok ReplaceResult.committed) s ∧
    s.files samplePath = some [116, 114, 117, 101] := by
  have hrun := Solo.play_ends (W := fileSystem) samplePick_allowed
    sampleReplace sampleDisk
  rw [sampleReplace_committed] at hrun
  have hatomic := replace_atomic hrun
  obtain ⟨bytes, hbytes, hfiles⟩ :=
    hatomic.2.1 (hatomic.1.mp (Or.inl rfl))
  refine ⟨_, hrun, ?_⟩
  rw [hfiles, Function.update_self, <- hbytes, sample_serialized]

end Sample

end SecureJsonFile
end Server
end FlanTerminal

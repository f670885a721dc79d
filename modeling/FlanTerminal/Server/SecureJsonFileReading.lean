import FlanTerminal.Server.SecureJsonFileResults

/-!
# Reading a secure JSON file

What is read has been in the file from its first byte to its last, so after a
replacement it is the value that was written.  Reading changes no file and
leaves no handle open.
-/

namespace FlanTerminal
namespace Server
namespace SecureJsonFile

open Foundation
open Shared

/-!
## The parent directory
-/

section Parent

variable {s0 : Disk} {runtimeUid : Int} {path : JsString}
variable {files : JsString -> Option (List UInt8)} {hs : List (Nat × JsString)}

theorem Before.since_snoc {s s' : Disk} {e : Entry}
    (h : Before s0 files hs s) (hlog : s'.log = s.log ++ [e]) :
    s0.since s' = s0.since s ++ [e] := by
  obtain ⟨new, hnew, _⟩ := h.log
  rw [since_eq hnew]
  apply since_eq
  rw [hlog, hnew, List.append_assoc]

structure Durable (s0 : Disk) (dir : JsString) (parent : Nat) (s : Disk) :
    Prop where
  opened : s.handles parent = some dir
  synced : Entry.synced parent ∈ s0.since s
  closed : Entry.closed parent ∈ s0.since s

theorem spec_syncParent :
    fileSystem.triple (Before s0 s0.files []) (syncParent runtimeUid path)
      (fun successful s => Before s0 s0.files [] s ∧ (successful = true ->
        exists parent, Durable s0 (PosixPath.dirname path) parent s))
      (fun _ _ => False) := by
  unfold syncParent
  split
  · refine Solo.triple_bind (Solo.triple_attempt spec_openValidatedParent)
      fun found => ?_
    cases found with
    | error e => exact Solo.triple_ret fun s hb => ⟨hb, fun h => by cases h⟩
    | ok parent =>
        refine Solo.triple_bind (M := fun syncFailed s =>
          Before s0 s0.files [(parent, PosixPath.dirname path)] s ∧
            (syncFailed = false -> Entry.synced parent ∈ s0.since s))
          (triple_fails (M := fun _ s =>
              Before s0 s0.files [(parent, PosixPath.dirname path)] s ∧
                Entry.synced parent ∈ s0.since s)
            (E := fun _ =>
              Before s0 s0.files [(parent, PosixPath.dirname path)])
            (triple_unwrap (fun s r a hb _ hk => ?_) (fun s r f hb _ hk => ?_))
            (fun s h => ⟨h.1, fun _ => h.2⟩)
            (fun _ s hb => ⟨hb, fun h => by cases h⟩)) fun syncFailed => ?_
        · rw [hk]
          constructor
          · refine hb.quiet rfl rfl rfl ⟨[Entry.synced parent], rfl, ?_⟩
            intro old p hmem
            cases List.mem_singleton.mp hmem
          · have hsince : s0.since
                (reply (PortCall.sync parent) (Except.ok a) s) =
                s0.since s ++ [Entry.synced parent] := hb.since_snoc rfl
            rw [hsince]
            exact List.mem_append_right _ (List.mem_singleton_self _)
        · rw [hk]
          exact hb
        · refine Solo.triple_bind (M := fun closeFailed s =>
            Before s0 s0.files [] s ∧
              (syncFailed = false -> closeFailed = false ->
                Durable s0 (PosixPath.dirname path) parent s))
            (triple_fails (M := fun _ s => Before s0 s0.files [] s ∧
                (syncFailed = false ->
                  Durable s0 (PosixPath.dirname path) parent s))
              (E := fun _ => Before s0 s0.files [])
              (triple_unwrap (fun s r a h _ hk => ?_)
                (fun s r f h _ _ => h.1.closes r))
              (fun s h => ⟨h.1, fun hsynced _ => h.2 hsynced⟩)
              (fun _ s hb => ⟨hb, fun _ h => by cases h⟩))
            fun closeFailed => ?_
          · refine ⟨h.1.closes r, fun hsynced => ?_⟩
            rw [hk]
            have hsince : s0.since
                (reply (PortCall.close parent) (Except.ok a) s) =
                s0.since s ++ [Entry.closed parent] := h.1.since_snoc rfl
            refine ⟨h.1.opened _ (List.mem_singleton_self _), ?_, ?_⟩
            · rw [hsince]
              exact List.mem_append_left _ (h.2 hsynced)
            · rw [hsince]
              exact List.mem_append_right _ (List.mem_singleton_self _)
          · refine Solo.triple_ret fun s h => ⟨h.1, fun hboth => ?_⟩
            rw [Bool.and_eq_true, Bool.not_eq_true', Bool.not_eq_true'] at hboth
            exact ⟨parent, h.2 hboth.1 hboth.2⟩
  · exact Solo.triple_ret fun s hb => ⟨hb, fun h => by cases h⟩

theorem spec_validateAndCloseParent :
    Keeps (Before s0 files hs) (validateAndCloseParent runtimeUid path) :=
  Solo.triple_bind spec_openValidatedParent fun _ => spec_close

end Parent

/-!
## The target
-/

section Target

variable {s0 s : Disk} {runtimeUid : Int} {path : JsString}
variable {handle maximumBytes : Nat} {bytes : List UInt8}

/-- The buffer has the bytes of the file up to where the handle is. -/
structure Buffered (s0 : Disk) (handle : Nat) (path : JsString)
    (bytes : List UInt8) (s : Disk) : Prop where
  before : Before s0 s0.files [(handle, path)] s
  position : s.position handle = bytes.length
  front : forall content, s0.files path = some content -> bytes <+: content

theorem Buffered.reads {length : Nat} {chunk : Chunk}
    (h : Buffered s0 handle path bytes s)
    (hr : Allowed s (PortCall.read handle length) (Except.ok chunk)) :
    chunk.bytesRead = chunk.bytes.length ∧
      Buffered s0 handle path (bytes ++ chunk.bytes)
        (reply (PortCall.read handle length) (Except.ok chunk) s) ∧
      (chunk.bytes = [] -> s0.files path = some bytes) := by
  obtain ⟨path', content, hpath, hcontent, hread, _, htake, hend⟩ := hr
  rw [h.before.opened (handle, path) (List.mem_singleton_self _)] at hpath
  cases hpath
  rw [h.before.files] at hcontent
  obtain ⟨rest, hrest⟩ := h.front content hcontent
  rw [h.position] at htake hend
  refine ⟨hread, ⟨h.before.quiet rfl rfl rfl
    ⟨[], (List.append_nil _).symm, fun _ _ hmem => by cases hmem⟩, ?_, ?_⟩, ?_⟩
  · show Function.update s.position handle
      (s.position handle + chunk.bytes.length) handle = _
    rw [Function.update_self, h.position, List.length_append]
  · intro content' hcontent'
    rw [hcontent] at hcontent'
    cases hcontent'
    rw [<- hrest, List.prefix_append_right_inj, htake, <- hrest,
      List.drop_left]
    exact List.take_prefix _ _
  · intro hnil
    rw [hcontent, (h.front content hcontent).eq_of_length_le (hend hnil)]

theorem spec_readBounded : forall (rounds : Nat) (bytes : List UInt8),
    maximumBytes + 1 ≤ rounds + bytes.length -> fileSystem.triple
      (Buffered s0 handle path bytes)
      (readBounded handle maximumBytes rounds bytes)
      (fun all s => Before s0 s0.files [(handle, path)] s ∧
        (all.length ≤ maximumBytes -> s0.files path = some all))
      (fun _ => Before s0 s0.files [(handle, path)]) := by
  intro rounds
  induction rounds with
  | zero =>
      intro bytes hrounds
      exact Solo.triple_ret fun s h => ⟨h.before, fun hle => by omega⟩
  | succ rounds ih =>
      intro bytes hrounds
      rw [readBounded]
      by_cases hfull : maximumBytes + 1 ≤ bytes.length
      · rw [if_pos hfull]
        exact Solo.triple_ret fun s h => ⟨h.before, fun hle => by omega⟩
      · rw [if_neg hfull]
        refine triple_call (M := fun (chunk : Chunk) s =>
          chunk.bytesRead = chunk.bytes.length ∧
            Buffered s0 handle path (bytes ++ chunk.bytes) s ∧
            (chunk.bytes = [] -> s0.files path = some bytes))
          (fun s r chunk h hr hk => ?_) (fun s r f h _ hk => ?_)
          fun chunk => ?_
        · rw [hk] at hr ⊢
          exact h.reads hr
        · rw [hk]
          exact h.before
        · refine Solo.triple_known
            (C := chunk.bytesRead = chunk.bytes.length)
            (fun s h => h.1) fun hread => ?_
          by_cases hzero : chunk.bytesRead = 0
          · rw [if_pos hzero]
            have hnil : chunk.bytes = [] := by
              apply List.length_eq_zero_iff.mp
              omega
            exact Solo.triple_ret fun s h => ⟨h.2.1.before, fun _ => h.2.2 hnil⟩
          · rw [if_neg hzero]
            split
            · exact Solo.triple_raise fun s h => h.2.1.before
            · exact Solo.triple_mono (ih (bytes ++ chunk.bytes) (by
                rw [List.length_append]
                omega)) (fun s h => h.2.1) (fun _ _ h => h) (fun _ _ h => h)

/-- The value is what the bytes of the file say, all of them. -/
def ReadsAs (d : Disk) (path : JsString) (maximumBytes : Nat) (value : Json) :
    Prop :=
  exists bytes, d.files path = some bytes ∧ bytes.length ≤ maximumBytes ∧
    decodeJson bytes = some value

theorem spec_readValue :
    fileSystem.triple (Buffered s0 handle path [])
      (readValue runtimeUid handle maximumBytes)
      (fun value s => Before s0 s0.files [(handle, path)] s ∧
        ReadsAs s0 path maximumBytes value)
      (fun _ => Before s0 s0.files [(handle, path)]) := by
  have hkeeps : forall {value : Type} {p : Code value},
      Keeps (Buffered s0 handle path []) p ->
      fileSystem.triple (Buffered s0 handle path []) p
        (fun _ => Buffered s0 handle path [])
        (fun _ => Before s0 s0.files [(handle, path)]) := fun h =>
    Solo.triple_mono h (fun _ h => h) (fun _ _ h => h) fun _ _ h => h.before
  refine Solo.triple_bind (hkeeps (keeps_stat handle)) fun stat => ?_
  refine Solo.triple_bind (hkeeps (keeps_require _ _)) fun _ => ?_
  refine Solo.triple_bind (hkeeps (keeps_require _ _)) fun _ => ?_
  refine Solo.triple_bind (spec_readBounded (maximumBytes + 1) []
    (Nat.le_add_right _ _)) fun bytes => ?_
  refine Solo.triple_bind (M := fun _ s =>
    Before s0 s0.files [(handle, path)] s ∧ s0.files path = some bytes ∧
      bytes.length ≤ maximumBytes)
    (triple_require (fun s h hle => ?_) (fun s h => h.1)) fun _ => ?_
  · have hle := of_decide_eq_true hle
    exact ⟨h.1, h.2 hle, hle⟩
  · cases hvalue : decodeJson bytes with
    | none => exact Solo.triple_raise fun s h => h.1
    | some value =>
        exact Solo.triple_ret fun s h =>
          ⟨h.1, bytes, h.2.1, h.2.2, hvalue⟩

theorem spec_readTarget :
    fileSystem.triple (Before s0 s0.files [])
      (readTarget runtimeUid path maximumBytes)
      (fun value s => Before s0 s0.files [] s ∧
        forall v, value = some v -> ReadsAs s0 path maximumBytes v)
      (fun _ => Before s0 s0.files []) := by
  refine Solo.triple_bind spec_validateAndCloseParent fun _ => ?_
  refine Solo.triple_bind (Solo.triple_ask (R := fun r s' =>
    (forall f, r = Except.error f -> Before s0 s0.files [] s') ∧
    (forall h, r = Except.ok h -> Buffered s0 h path [] s')) ?_) fun r => ?_
  · intro s r hb hr
    cases r with
    | error f => exact ⟨fun _ _ => hb, fun h heq => by cases heq⟩
    | ok h =>
        refine ⟨fun f heq => (by cases heq), fun h' heq => ?_⟩
        cases heq
        exact ⟨hb.opens hr.1 (by decide), Function.update_self _ _ _,
          fun content _ => List.nil_prefix⟩
  · cases r with
    | error f =>
        dsimp only
        split
        · exact Solo.triple_ret fun s h =>
            ⟨h.1 f rfl, fun v heq => by cases heq⟩
        · exact Solo.triple_raise fun s h => h.1 f rfl
    | ok handle =>
        refine Solo.triple_bind (Solo.triple_mono
          (Solo.triple_attempt spec_readValue) (fun s h => h.2 handle rfl)
          (fun _ _ h => h) (fun _ _ h => h)) fun value => ?_
        -- The value is known from here on, the close concerns the handle only.
        cases value with
        | error e =>
            refine Solo.triple_bind (M := fun _ => Before s0 s0.files [])
              (triple_fails spec_close (fun _ h => h) (fun _ _ h => h))
              fun closeFailed => ?_
            exact Solo.triple_raise fun s h => h
        | ok value =>
            refine Solo.triple_known (C := ReadsAs s0 path maximumBytes value)
              (fun s h => h.2) fun hshows => ?_
            refine Solo.triple_bind (M := fun _ => Before s0 s0.files [])
              (Solo.triple_mono
                (triple_fails (Q := fun _ => Before s0 s0.files []) spec_close
                  (fun _ h => h) (fun _ _ h => h))
                (fun s h => h.1) (fun _ _ h => h) (fun _ _ h => h))
              fun closeFailed => ?_
            dsimp only
            split
            · exact Solo.triple_raise fun s h => h
            · refine Solo.triple_ret fun s h => ⟨h, fun v heq => ?_⟩
              cases heq
              exact hshows

theorem spec_read :
    fileSystem.triple (Before s0 s0.files [])
      (read runtimeUid path maximumBytes)
      (fun value s => Before s0 s0.files [] s ∧
        forall v, value = some v -> ReadsAs s0 path maximumBytes v)
      (fun e s => e = Thrown.secure_json_file ∧ Before s0 s0.files [] s) := by
  unfold read
  split
  · exact Solo.triple_catch spec_readTarget fun e =>
      Solo.triple_raise fun s h => ⟨rfl, h⟩
  · exact Solo.triple_raise fun s h => ⟨rfl, h⟩

end Target

/-!
## Results
-/

section Results

variable {s0 s s' : Disk} {runtimeUid : Int} {path : JsString}
variable {maximumBytes : Nat}

theorem read_shows_file {res : Except Thrown (Option Json)}
    (h : (read runtimeUid path maximumBytes).Ends Allowed reply s0 res s) :
    (forall value, res = Except.ok (some value) ->
      ReadsAs s0 path maximumBytes value) ∧
    (forall e, res = Except.error e -> e = Thrown.secure_json_file) ∧
    s.files = s0.files ∧
    forall handle, s0.handles handle = none -> s.handles handle ≠ none ->
      s.closeCalled handle = true := by
  have hends := Solo.triple_ends (W := fileSystem) spec_read
    (Before.refl s0) h
  cases res with
  | error e =>
      refine ⟨fun v heq => (by cases heq), fun e' heq => ?_, hends.2.files,
        fun handle hnone hsome => ?_⟩
      · cases heq
        exact hends.1
      · exact (hends.2.closed handle hnone hsome).resolve_right
          List.not_mem_nil
  | ok value =>
      refine ⟨fun v heq => ?_, fun e' heq => (by cases heq), hends.1.files,
        fun handle hnone hsome => ?_⟩
      · exact hends.2 v (Except.ok.inj heq)
      · exact (hends.1.closed handle hnone hsome).resolve_right
          List.not_mem_nil

/-- What is read after a replacement has gone through is what was written. -/
theorem read_after_replace {heap : Heap} {value : JsValue} {mode : Nat}
    {res : ReplaceResult} {shown : Json}
    (hreplace : (replace runtimeUid heap path value mode).Ends Allowed reply s0
      (Except.ok res) s) (hres : res ≠ ReplaceResult.not_committed)
    (hread : (read runtimeUid path maximumBytes).Ends Allowed reply s
      (Except.ok (some shown)) s') :
    exists bytes, serializeJson heap value = some bytes ∧
      bytes.length ≤ maximumBytes ∧ decodeJson bytes = some shown := by
  have hends := Solo.triple_ends (W := fileSystem) spec_replace
    (Before.refl s0) hreplace
  obtain ⟨bytes, hbytes, hle, hdecode⟩ :=
    (read_shows_file hread).1 shown rfl
  rcases hends with ⟨hnot, _⟩ | ⟨_, written, parent, post, hwritten, hreplaced,
    _⟩
  · exact absurd hnot hres
  · rw [hreplaced.files, Function.update_self] at hbytes
    cases hbytes
    exact ⟨_, hwritten, hle, hdecode⟩

theorem syncParent_durable {res : Except Thrown Bool}
    (h : (syncParent runtimeUid path).Ends Allowed reply s0 res s) :
    s.files = s0.files ∧ exists successful, res = Except.ok successful ∧
      (successful = true ->
        exists parent, Durable s0 (PosixPath.dirname path) parent s) := by
  have hends := Solo.triple_ends (W := fileSystem) spec_syncParent
    (Before.refl s0) h
  cases res with
  | error e => exact hends.elim
  | ok successful => exact ⟨hends.1.files, successful, rfl, hends.2⟩

end Results

end SecureJsonFile
end Server
end FlanTerminal

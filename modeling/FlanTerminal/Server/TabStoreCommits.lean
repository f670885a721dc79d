import FlanTerminal.Server.TabStoreRules

/-!
# How the tab store writes its file

One rule for each function.  Before the rename the calls change nothing but the
temporary files; after it the operation cannot fail any more.
-/

namespace FlanTerminal
namespace Server
namespace TabStore

open Foundation
open Foundation.Pact (returns)
open Shared

def Core.touched (temps : JsMap JsString (List UInt8)) (failed : Bool)
    (k : Core) : Core :=
  { k with
    files := ⟨k.files.primary, temps⟩
    view := { k.view with failed := failed } }

def Steady (k k' : Core) : Prop :=
  exists temps failed, k' = k.touched temps failed ∧
    (k.view.failed = true -> failed = true)

/-- A call that neither replaces the primary file nor is about the directory. -/
def isQuiet : PortCall -> Bool
  | PortCall.run (Action.rename _) => false
  | c => !isDirectoryCall c

/-- What a part of the work has come to; with an exception a call has thrown. -/
def Tried {value : Type} (k0 : Core) (F : value -> Files -> Prop)
    (E : Rejection -> Prop) : Except Rejection value -> Core -> Prop
  | Except.ok a, k => Steady k0 k ∧ F a k.files
  | Except.error e, k => Steady k0 k ∧ k.view.failed = true ∧ E e

structure Replied (k0 : Core) (F : Files -> Prop) (c : PortCall)
    (r : PortReply c) (k : Core) : Prop where
  steady : Steady k0 k
  thrown : (thrownBy c r).isSome = true -> k.view.failed = true
  files : exists files, F files ∧ files.primary = k0.files.primary ∧
    Allowed files c r ∧ k.files = files.after c r

section Calls

variable {options : Options} {n : Nat} {k0 k k' k'' : Core}

theorem Steady.refl (k : Core) : Steady k k :=
  ⟨k.files.temps, k.view.failed, rfl, id⟩

theorem Steady.trans (h : Steady k k') (h' : Steady k' k'') :
    Steady k k'' := by
  obtain ⟨temps, failed, heq, hfailed⟩ := h
  obtain ⟨temps', failed', heq', hfailed'⟩ := h'
  subst heq
  exact ⟨temps', failed', heq', fun h => hfailed' (hfailed h)⟩

theorem Steady.failed (h : Steady k k') (hfailed : k.view.failed = true) :
    k'.view.failed = true := by
  obtain ⟨temps, failed, heq, hkeeps⟩ := h
  subst heq
  exact hkeeps hfailed

theorem Steady.primary (h : Steady k k') :
    k'.files.primary = k.files.primary := by
  obtain ⟨temps, failed, heq, _⟩ := h
  subst heq
  rfl

theorem Steady.document (h : Steady k k') : k'.document = k.document := by
  obtain ⟨temps, failed, heq, _⟩ := h
  subst heq
  rfl

theorem Steady.busy (h : Steady k k') (hbusy : Busy options n k) :
    Busy options n k' := by
  obtain ⟨temps, failed, heq, _⟩ := h
  subst heq
  exact ⟨⟨hbusy.sound.memory, hbusy.sound.document, hbusy.sound.proper, hbusy.sound.stored,
    hbusy.sound.ready⟩, hbusy.at_⟩

theorem not_replaced {c : PortCall} (hc : isQuiet c = true)
    (r : PortReply c) : isReplaced c r = false := by
  unfold isReplaced
  split
  · cases hc
  · rfl

theorem not_directory {c : PortCall} (hc : isQuiet c = true) :
    isDirectoryCall c = false := by
  unfold isQuiet at hc
  split at hc
  · cases hc
  · simpa using hc

theorem after_primary {c : PortCall} {r : PortReply c} {files : Files}
    (h : isReplaced c r = false) :
    (files.after c r).primary = files.primary := by
  unfold Files.after
  split
  · rfl
  · rfl
  · rfl
  · cases h
  · rfl
  · rfl
  · rfl

theorem steady_replied {c : PortCall} (hc : isQuiet c = true)
    (r : PortReply c) :
    Steady k (k.replied n c r) ∧
      ((thrownBy c r).isSome = true ->
        (k.replied n c r).view.failed = true) := by
  have hprimary : (k.files.after c r).primary = k.files.primary :=
    after_primary (not_replaced hc r)
  have hfiles : k.files.after c r =
      ⟨k.files.primary, (k.files.after c r).temps⟩ := by
    rw [← hprimary]
  unfold Core.replied noted
  rw [hfiles]
  cases hthrown : thrownBy c r with
  | some f =>
      have hview : k.view.after (Entry.failed n c f) =
          { k.view with failed := true } := by
        show View.mk _ _ _ _ _ _ (if isDirectoryCall c then _ else _) _ _ = _
        rw [not_directory hc]
        rfl
      refine ⟨⟨(k.files.after c r).temps, true, ?_, fun _ => rfl⟩,
        fun _ => rfl⟩
      exact congrArg (fun view => Core.mk k.document k.ready _ view) hview
  | none =>
      dsimp only
      rw [not_replaced hc r]
      exact ⟨⟨(k.files.after c r).temps, k.view.failed, rfl, id⟩,
        fun h => by cases h⟩

theorem spec_call {c : PortCall} (hbusy : Busy options n k0)
    (hc : isQuiet c = true) {F : Files -> Prop} :
    Spec options n (fun k => Steady k0 k ∧ F k.files)
      (Prog.ask (I := ports) c) (returns (Replied k0 F c)) := by
  apply spec_ask
  · exact fun k h => h.1.busy hbusy
  · intro k r h hr
    have hreplied := steady_replied (n := n) (k := k) hc r
    exact ⟨h.1.trans hreplied.1, hreplied.2, k.files, h.2, h.1.primary, hr, rfl⟩

theorem spec_plain {c : PortCall} (hbusy : Busy options n k0)
    (hc : isQuiet c = true) :
    Spec options n (Steady k0) (Prog.ask (I := ports) c)
      (returns (Replied k0 (fun _ => True) c)) := by
  apply spec_consequence (spec_call hbusy hc (F := fun _ => True))
  · exact fun k h => ⟨h, trivial⟩
  · exact fun res k h => h

theorem spec_attempt {a : Action} (hbusy : Busy options n k0)
    (ha : isQuiet (PortCall.run a) = true) {F F' : Files -> Prop}
    {E : Rejection -> Prop}
    (hF : forall files, F files ->
      Allowed files (PortCall.run a) (Except.ok ()) ->
        F' (files.after (PortCall.run a) (Except.ok ())))
    (hE : forall files f, files.primary = k0.files.primary ->
      Allowed files (PortCall.run a) (Except.error f) -> E (Rejection.io f)) :
    Spec options n (fun k => Steady k0 k ∧ F k.files) (attempt a)
      (Tried k0 (fun _ => F') E) := by
  apply spec_bind (spec_call hbusy ha)
  · intro r
    cases r with
    | error f =>
        apply spec_throw
        intro k h
        obtain ⟨files, _, hprimary, hallowed, _⟩ := h.files
        exact ⟨h.steady, h.thrown rfl, hE files f hprimary hallowed⟩
    | ok a =>
        apply spec_ret
        intro k h
        obtain ⟨files, hfiles, _, hallowed, heq⟩ := h.files
        exact ⟨h.steady, heq ▸ hF files hfiles hallowed⟩
  · exact fun e k h => h.elim

theorem spec_step {a : Action} (hbusy : Busy options n k0)
    (ha : isQuiet (PortCall.run a) = true)
    (hafter : forall files, Files.after (PortCall.run a) (Except.ok ()) files =
      files) {F : Files -> Prop} :
    Spec options n (fun k => Steady k0 k ∧ F k.files) (attempt a)
      (Tried k0 (fun _ => F) fun _ => True) := by
  apply spec_attempt hbusy ha
  · intro files h _
    rw [hafter]
    exact h
  · exact fun _ _ _ _ => trivial

theorem spec_ignore {a : Action} (hbusy : Busy options n k0)
    (ha : isQuiet (PortCall.run a) = true) :
    Spec options n (Steady k0) (ignore a) (returns fun _ => Steady k0) := by
  apply spec_bind (spec_plain hbusy ha)
  · intro r
    exact spec_ret fun k h => h.steady
  · exact fun e k h => h.elim

theorem spec_now (hbusy : Busy options n k0) :
    Spec options n (Steady k0) now
      (Tried k0 (fun _ _ => True) fun _ => True) := by
  apply spec_bind (spec_plain hbusy rfl)
  · intro r
    cases r with
    | error f => exact spec_throw fun k h => ⟨h.steady, h.thrown rfl, trivial⟩
    | ok a => exact spec_ret fun k h => ⟨h.steady, trivial⟩
  · exact fun e k h => h.elim

theorem spec_randomUUID (hbusy : Busy options n k0) :
    Spec options n (Steady k0) randomUUID
      (Tried k0 (fun _ _ => True) fun _ => True) := by
  apply spec_bind (spec_plain hbusy rfl)
  · intro r
    cases r with
    | error f => exact spec_throw fun k h => ⟨h.steady, h.thrown rfl, trivial⟩
    | ok a => exact spec_ret fun k h => ⟨h.steady, trivial⟩
  · exact fun e k h => h.elim

theorem spec_calmly {value : Type} {p : Code Unit} {g : Code value}
    {E : Prop} {Q : Except Rejection value -> Core -> Prop}
    (hbusy : Busy options n k0)
    (hp : forall k, Busy options n k ->
      Spec options n (Steady k) p (returns fun _ => Steady k))
    (hg : Spec options n
      (fun k => Steady k0 k ∧ k.view.failed = true ∧ E) g Q) :
    Spec options n (fun k => Steady k0 k ∧ k.view.failed = true ∧ E)
      (p >>= fun _ => g) Q := by
  apply spec_from
  intro k h
  apply spec_bind (spec_consequence (hp k (h.1.busy hbusy)) _ fun _ _ hs => hs)
  · intro a
    apply spec_consequence hg _ fun _ _ hs => hs
    exact fun k' h' => ⟨h.1.trans h', h'.failed h.2.1, h.2.2⟩
  · exact fun e k h => h.elim
  · intro k' h'
    rw [h']
    exact Steady.refl k

theorem spec_rethrow {value : Type} {e : Rejection} {E : Rejection -> Prop}
    {F : value -> Files -> Prop} :
    Spec options n (fun k => Steady k0 k ∧ k.view.failed = true ∧ E e)
      (throw e) (Tried k0 F E) :=
  spec_throw fun _ h => h

end Calls

/-!
## The temporary file
-/

section Temporary

variable {options : Options} {n : Nat} {k0 : Core}

/-- Without an attempt left, the ones before have thrown. -/
theorem spec_allocateTemp (hbusy : Busy options n k0) (left : Nat) :
    Spec options n
      (fun k => Steady k0 k ∧ (left = 0 -> k.view.failed = true))
      (allocateTemp left) (Tried k0 (fun _ _ => True) fun _ => True) := by
  induction left with
  | zero => exact spec_throw fun k h => ⟨h.1, h.2 rfl, trivial⟩
  | succ left ih =>
      apply spec_bind (spec_consequence (spec_randomUUID hbusy)
        (fun _ h => h.1) fun _ _ h => h)
      · intro id
        apply spec_bind (spec_consequence
          (spec_plain (c := PortCall.run (Action.openTemp id)) hbusy rfl)
          (fun _ h => h.1) fun _ _ h => h)
        · intro r
          cases r with
          | error f =>
              dsimp only
              split
              · apply spec_consequence ih _ fun _ _ h => h
                exact fun k h => ⟨h.steady, fun _ => h.thrown rfl⟩
              · exact spec_throw fun k h => ⟨h.steady, h.thrown rfl, trivial⟩
          | ok a => exact spec_ret fun k h => ⟨h.steady, trivial⟩
        · exact fun e k h => h.elim
      · exact fun e k h => h

def Filled (id data : JsString) (files : Files) : Prop :=
  files.temps.get id = some (utf8Bytes data)

theorem spec_writeFile (hbusy : Busy options n k0) (id data : JsString) :
    Spec options n (Steady k0) (writeFile id data)
      (Tried k0 (fun _ => Filled id data) fun _ => True) := by
  apply spec_bind (spec_plain (c := PortCall.writeFile id data) hbusy rfl)
  · intro r
    cases r with
    | error f => exact spec_throw fun k h => ⟨h.steady, h.thrown rfl, trivial⟩
    | ok a =>
        apply spec_ret
        intro k h
        obtain ⟨files, _, _, _, heq⟩ := h.files
        refine ⟨h.steady, ?_⟩
        rw [heq]
        show JsMap.get (files.temps.set id (utf8Bytes data)) id = _
        rw [JsMap.get_set, if_pos rfl]
  · exact fun e k h => h.elim

theorem spec_fillTemp (hbusy : Busy options n k0) (id data : JsString) :
    Spec options n (Steady k0) (fillTemp id data)
      (Tried k0 (fun _ => Filled id data) fun _ => True) := by
  apply spec_bind (spec_writeFile hbusy id data)
  · intro a
    apply spec_bind (spec_step (a := Action.syncTemp) hbusy rfl (fun _ => rfl)
      (F := Filled id data))
    · intro a
      exact spec_step (a := Action.closeTemp) hbusy rfl (fun _ => rfl)
        (F := Filled id data)
    · exact fun e k h => h
  · exact fun e k h => h

theorem spec_writeTemp (hbusy : Busy options n k0) (id data : JsString) :
    Spec options n (Steady k0) (writeTemp id data)
      (Tried k0 (fun _ => Filled id data) fun _ => True) := by
  apply spec_tryCatch (spec_fillTemp hbusy id data)
  · exact fun a k h => h
  · intro e
    apply spec_calmly hbusy fun k hk => spec_ignore hk rfl
    apply spec_calmly hbusy fun k hk => spec_ignore hk rfl
    exact spec_rethrow (E := fun _ => True)

/-- After the rename, and before the document is taken over. -/
def Replaced (k0 : Core) (bytes : List UInt8) (k : Core) : Prop :=
  exists temps failed, k = { k0 with
    files := ⟨some bytes, temps⟩
    view := { k0.view with failed := failed, renamed := true } }

def Renamed (k0 : Core) (bytes : List UInt8) :
    Except Rejection Unit -> Core -> Prop
  | Except.ok _, k => Replaced k0 bytes k
  | Except.error _, k => Steady k0 k ∧ k.view.failed = true ∧ True

theorem replied_rename {k : Core} {id : JsString} {bytes : List UInt8}
    (hsteady : Steady k0 k) (hget : k.files.temps.get id = some bytes)
    (r : Except Failure Unit) :
    Renamed k0 bytes (r.mapError Rejection.io)
      (k.replied n (PortCall.run (Action.rename id)) r) := by
  obtain ⟨temps, failed, heq, _⟩ := hsteady
  subst heq
  cases r with
  | error f => exact ⟨⟨temps, true, rfl, fun _ => rfl⟩, rfl, trivial⟩
  | ok a =>
      refine ⟨temps.delete id, failed, ?_⟩
      show Core.mk _ _ ⟨temps.get id, _⟩ _ = _
      have htemps : temps.get id = some bytes := hget
      rw [htemps]
      rfl

theorem spec_rename (hbusy : Busy options n k0) (id : JsString)
    (bytes : List UInt8) :
    Spec options n
      (fun k => Steady k0 k ∧ k.files.temps.get id = some bytes)
      (attempt (Action.rename id)) (Renamed k0 bytes) := by
  have hask : Spec options n
      (fun k => Steady k0 k ∧ k.files.temps.get id = some bytes)
      (Prog.ask (I := ports) (PortCall.run (Action.rename id)))
      (returns fun r => Renamed k0 bytes (Except.mapError Rejection.io r)) := by
    apply spec_ask
    · exact fun k h => h.1.busy hbusy
    · exact fun k r h _ => replied_rename h.1 h.2 r
  apply spec_bind hask
  · intro r
    cases r with
    | error f => exact spec_throw fun k h => h
    | ok a => exact spec_ret fun k h => h
  · exact fun e k h => h.elim

theorem spec_replacePrimary (hbusy : Busy options n k0) (id : JsString)
    (bytes : List UInt8) :
    Spec options n
      (fun k => Steady k0 k ∧ k.files.temps.get id = some bytes)
      (replacePrimary id) (Renamed k0 bytes) := by
  apply spec_tryCatch (spec_rename hbusy id bytes)
  · exact fun a k h => h
  · intro e
    apply spec_calmly hbusy fun k hk => spec_ignore hk rfl
    exact spec_throw fun k h => h

end Temporary

/-!
## Documents
-/

section Documents

variable {options : Options}

theorem stored_serialized {document : PersistedTabsDocument}
    (h : Proper options document)
    (hfits : utf8ByteLength document.serialized ≤ MAX_DOCUMENT_BYTES) :
    Stored options (some (utf8Bytes document.serialized)) document := by
  refine ⟨_, rfl, ?_, ?_⟩
  · rw [length_utf8Bytes]
    exact hfits
  · unfold storedDocument
    rw [decode_serialized h.1]
    simp [Option.filter, h.2]

theorem Stored.proper (hnfc : NormalForm options.nfc)
    {primary : Option (List UInt8)} {document : PersistedTabsDocument}
    (h : Stored options primary document) : Proper options document := by
  obtain ⟨bytes, _, _, hstored⟩ := h
  obtain ⟨hdecode, hcount⟩ := Option.filter_eq_some_iff.mp hstored
  refine ⟨?_, of_decide_eq_true hcount⟩
  obtain ⟨json, _, hschema⟩ := Option.bind_eq_some_iff.mp hdecode
  obtain ⟨read, _, hparse⟩ := Option.bind_eq_some_iff.mp hschema
  exact (parseDocument_some.mp hparse).valid hnfc

theorem Stored.unique {primary : Option (List UInt8)}
    {document document' : PersistedTabsDocument}
    (h : Stored options primary document)
    (h' : Stored options primary document') : document = document' := by
  obtain ⟨bytes, hprimary, _, hstored⟩ := h
  obtain ⟨bytes', hprimary', _, hstored'⟩ := h'
  cases hprimary.symm.trans hprimary'
  exact Option.some.inj (hstored.symm.trans hstored')

theorem proper_empty : Proper options emptyDocument :=
  ⟨⟨rfl, Nat.zero_le _, List.Forall₂.nil, List.nodup_nil, rfl⟩, Nat.zero_le _⟩

theorem empty_fits (hnfc : NormalForm options.nfc) :
    utf8ByteLength emptyDocument.serialized ≤ MAX_DOCUMENT_BYTES := by
  have hvalid : Valid options.nfc emptyDocument := proper_empty.1
  have hfits := serialized_fits hvalid hnfc (Nat.zero_le _)
    fun _ htab => absurd htab List.not_mem_nil
  unfold MAX_DOCUMENT_BYTES
  exact hfits

variable {sources : Sources} {current candidate next : PersistedTabsDocument}
variable {m : Mutation}

theorem decision_refused {t : Thrown}
    (h : build options sources current m = Except.error t) :
    decision options sources current m = Except.error t := by
  unfold decision
  rw [h]
  rfl

theorem decision_nothing
    (h : build options sources current m = Except.ok none) :
    decision options sources current m = Except.ok none := by
  unfold decision
  rw [h]
  rfl

theorem decision_invalid
    (h : build options sources current m = Except.ok (some candidate))
    (hparse : parseDocument options.nfc candidate = none) :
    decision options sources current m = Except.error Thrown.invalid := by
  unfold decision
  rw [h]
  show (accept (parseDocument options.nfc candidate) >>= _) = _
  rw [hparse]
  rfl

theorem accept_bind {value other : Type} (a : value)
    (f : value -> Except Thrown other) : (accept (some a) >>= f) = f a := rfl

theorem decision_built
    (h : build options sources current m = Except.ok (some candidate))
    (hparse : parseDocument options.nfc candidate = some next) :
    decision options sources current m =
      if MAX_DOCUMENT_BYTES < utf8ByteLength next.serialized then
        Except.error Thrown.failed
      else Except.ok (some next) := by
  unfold decision
  rw [h]
  show (accept (parseDocument options.nfc candidate) >>= _) = _
  rw [hparse, accept_bind]
  by_cases hfits : MAX_DOCUMENT_BYTES < utf8ByteLength next.serialized
  · rw [if_pos hfits, if_pos hfits]
    rfl
  · rw [if_neg hfits, if_neg hfits]
    rfl

theorem decision_written
    (h : decision options sources current m = Except.ok (some next)) :
    exists candidate,
      build options sources current m = Except.ok (some candidate) ∧
        parseDocument options.nfc candidate = some next ∧
          utf8ByteLength next.serialized ≤ MAX_DOCUMENT_BYTES := by
  cases hbuild : build options sources current m with
  | error t =>
      rw [decision_refused hbuild] at h
      cases h
  | ok mutation =>
      cases mutation with
      | none =>
          rw [decision_nothing hbuild] at h
          cases h
      | some candidate =>
          cases hparse : parseDocument options.nfc candidate with
          | none =>
              rw [decision_invalid hbuild hparse] at h
              cases h
          | some document =>
              rw [decision_built hbuild hparse] at h
              split at h
              · cases h
              · rename_i hfits
                cases h
                exact ⟨candidate, rfl, hparse, Nat.le_of_not_lt hfits⟩

theorem decision_committed (hnfc : NormalForm options.nfc)
    (hvalid : Valid options.nfc current)
    (h : decision options sources current m = Except.ok (some next)) :
    Committed options sources current m next ∧ Valid options.nfc next := by
  obtain ⟨candidate, hbuild, hparse, _⟩ := decision_written h
  apply committed hnfc hvalid
  unfold commit
  rw [hbuild]
  exact hparse

/-- No mutation goes beyond the limit. -/
theorem Committed.length_le
    (h : Committed options sources current m next)
    (hcount : current.tabs.length ≤ options.sessionMaxCount) :
    next.tabs.length ≤ options.sessionMaxCount := by
  cases h with
  | create title tab hlimit _ =>
      simp only [List.length_append, List.length_singleton]
      exact hlimit
  | present _ => exact hcount
  | initial tab _ hlimit _ => exact hlimit
  | rename title tab _ _ _ =>
      simp only [mapTab, List.length_map]
      exact hcount
  | reorder hconflict =>
      have hperm := (perm_of_orderConflict hconflict).2
      have hlength := hperm.length_eq
      rw [List.length_map] at hlength
      simp only [renumber, List.length_mapIdx]
      exact Nat.le_trans (List.length_filterMap_le _ _) (hlength ▸ hcount)
  | setDesiredState tab _ _ =>
      simp only [mapTab, List.length_map]
      exact hcount
  | remove tab _ _ =>
      simp only [renumber, List.length_mapIdx]
      exact Nat.le_trans (List.length_filter_le _ _) hcount
  | quiet _ => exact hcount
  | flushActivity =>
      simp only [List.length_map]
      exact hcount

theorem proper_written (hnfc : NormalForm options.nfc)
    (hproper : Proper options current)
    (h : decision options sources current m = Except.ok (some next)) :
    Proper options next := by
  have hcommitted := decision_committed hnfc hproper.1 h
  exact ⟨hcommitted.2, hcommitted.1.length_le hproper.2⟩

end Documents

/-!
## The commit
-/

structure Written (k0 : Core) (next : PersistedTabsDocument) (k : Core) :
    Prop where
  document : k.document = some next
  primary : k.files.primary = some (utf8Bytes next.serialized)
  known : k.view.document = some next
  memory : k.view.memory = some next
  last : k.view.last = k0.view.last
  running : k.view.running = k0.view.running
  renamed : k.view.renamed = true
  ready : k.ready = k.view.ready

structure Writing (options : Options) (n : Nat) (k0 : Core)
    (next : PersistedTabsDocument) : Prop where
  proper : Proper options next
  fits : utf8ByteLength next.serialized ≤ MAX_DOCUMENT_BYTES
  writes : exists o found, k0.view.running = some (n, o, found) ∧
    Writes options k0.view.document o next
  directory : k0.view.directory = none

section Commit

variable {options : Options} {n : Nat} {k0 : Core}
variable {next : PersistedTabsDocument}

theorem Written.busy {k : Core} (hbusy : Busy options n k0)
    (hwriting : Writing options n k0 next) (h : Written k0 next k) :
    Busy options n k := by
  have hknown : forall d, k.view.document = some d -> d = next := by
    intro d hd
    rw [h.known] at hd
    exact (Option.some.inj hd).symm
  refine ⟨⟨h.document.trans h.memory.symm, ?_, ?_, ?_, h.ready⟩, ?_⟩
  · intro d hd
    rw [h.document] at hd
    rw [h.known]
    exact hd
  · intro d hd
    rw [hknown d hd]
    exact hwriting.proper
  · intro d hd
    rw [hknown d hd, h.primary]
    exact stored_serialized hwriting.proper hwriting.fits
  · unfold View.At
    rw [h.last, h.running]
    exact hbusy.at_

theorem Written.steady {k k' : Core} (h : Written k0 next k)
    (hsteady : Steady k k') : Written k0 next k' := by
  obtain ⟨temps, failed, heq, _⟩ := hsteady
  subst heq
  exact ⟨h.document, h.primary, h.known, h.memory, h.last, h.running,
    h.renamed, h.ready⟩

/-- A failure of the directory counts from the first one on. -/
theorem spec_directory {a : Action} (hbusy : Busy options n k0)
    (hwriting : Writing options n k0 next)
    (ha : isDirectoryCall (PortCall.run a) = true)
    (hafter : forall r files, Files.after (PortCall.run a) r files = files)
    (first : Option Failure) :
    Spec options n
      (fun k => Written k0 next k ∧ k.view.directory = first)
      (Prog.ask (I := ports) (PortCall.run a))
      (returns fun r k => Written k0 next k ∧
        k.view.directory = first.or (failureOf r)) := by
  apply spec_ask
  · exact fun k h => h.1.busy hbusy hwriting
  · intro k r h _
    obtain ⟨hwritten, hfirst⟩ := h
    have hfiles : (k.replied n (PortCall.run a) r).files = k.files :=
      hafter r k.files
    cases r with
    | error f =>
        refine ⟨⟨hwritten.document, hfiles ▸ hwritten.primary, hwritten.known,
          hwritten.memory, hwritten.last, hwritten.running, hwritten.renamed, hwritten.ready⟩, ?_⟩
        show (if isDirectoryCall (PortCall.run a) then
          k.view.directory.or (some f) else k.view.directory) = _
        rw [if_pos ha, hfirst]
        rfl
    | ok u =>
        have hquiet : isReplaced (PortCall.run a) (Except.ok u) = false := by
          cases a <;> first | rfl | cases ha
        have hview : (k.replied n (PortCall.run a) (Except.ok u)).view =
            k.view := by
          show (noted n (PortCall.run a) (Except.ok u)).toList.foldl
            View.after k.view = _
          unfold noted
          rw [hquiet]
          rfl
        refine ⟨⟨hwritten.document, hfiles ▸ hwritten.primary, ?_, ?_, ?_, ?_,
          ?_, ?_⟩, ?_⟩
        all_goals rw [hview]
        · exact hwritten.known
        · exact hwritten.memory
        · exact hwritten.last
        · exact hwritten.running
        · exact hwritten.renamed
        · exact hwritten.ready
        · rw [hfirst]
          exact (Option.or_none).symm

def Synced (k0 : Core) (next : PersistedTabsDocument) :
    Except Rejection Unit -> Core -> Prop
  | Except.ok _, k => Written k0 next k ∧ k.view.directory = none
  | Except.error e, k => exists f, e = Rejection.io f ∧ Written k0 next k ∧
      k.view.directory = some f

theorem spec_throwFirst (failure : Option Failure) :
    Spec options n
      (fun k => Written k0 next k ∧ k.view.directory = failure)
      (throwFirst failure) (Synced k0 next) := by
  cases failure with
  | none => exact spec_ret fun k h => h
  | some f => exact spec_throw fun k h => ⟨f, rfl, h⟩

theorem spec_syncDirectory (hbusy : Busy options n k0)
    (hwriting : Writing options n k0 next) :
    Spec options n
      (fun k => Written k0 next k ∧ k.view.directory = none)
      syncDirectory (Synced k0 next) := by
  have hopened : Spec options n
      (fun k => Written k0 next k ∧ k.view.directory = none)
      (attempt Action.openDirectory) (Synced k0 next) := by
    apply spec_bind (spec_directory hbusy hwriting rfl
      (fun r files => by cases r <;> rfl) none)
    · intro r
      cases r with
      | error f => exact spec_throw fun k h => ⟨f, rfl, h⟩
      | ok a => exact spec_ret fun k h => h
    · exact fun e k h => h.elim
  apply spec_bind hopened
  · intro a
    apply spec_bind (spec_directory (a := Action.syncDirectory) hbusy hwriting
      rfl (fun r files => by cases r <;> rfl) none)
    · intro synced
      apply spec_bind (spec_directory (a := Action.closeDirectory) hbusy
        hwriting rfl (fun r files => by cases r <;> rfl)
        (none.or (failureOf synced)))
      · exact fun closed => spec_throwFirst _
      · exact fun e k h => h.elim
    · exact fun e k h => h.elim
  · exact fun e k h => h

def Settled (k0 : Core) (next : PersistedTabsDocument) (k : Core) : Prop :=
  Written k0 next k ∧ k.view.synced = true

theorem Settled.steady {k k' : Core} (h : Settled k0 next k)
    (hsteady : Steady k k') : Settled k0 next k' := by
  refine ⟨h.1.steady hsteady, ?_⟩
  obtain ⟨temps, failed, heq, _⟩ := hsteady
  subst heq
  exact h.2

theorem spec_setReady (hbusy : Busy options n k0)
    (hwriting : Writing options n k0 next) {failure : Option Failure}
    {ready : Bool} (hready : ready = isSynced failure) :
    Spec options n
      (fun k => Written k0 next k ∧ k.view.directory = failure)
      (setReady n failure ready) (returns fun _ => Settled k0 next) := by
  apply spec_record (e := Entry.synced n failure)
    (g := fun k => { k.record (Entry.synced n failure) with ready := ready })
  · exact fun s => rfl
  · intro s
    show Core.mk _ _ _ (replay View.after View.initial (s.log ++ [_])) = _
    rw [replay_snoc]
    rfl
  · intro k h
    have hb := h.1.busy hbusy hwriting
    have hsome : k.view.memory.isSome = true := by
      rw [h.1.memory]
      rfl
    exact ⟨⟨hb.at_, hsome, h.1.renamed, h.2.symm⟩, ⟨h.1.document, h.1.primary,
      h.1.known, h.1.memory, h.1.last, h.1.running, h.1.renamed, hready⟩, rfl⟩

theorem spec_degrade (hbusy : Busy options n k0)
    (hwriting : Writing options n k0 next) (f : Failure) :
    Spec options n
      (fun k => Written k0 next k ∧ k.view.directory = some f)
      (degrade n f) (returns fun _ => Settled k0 next) := by
  unfold degrade
  split
  · rename_i hunsupported
    exact spec_setReady hbusy hwriting hunsupported.symm
  · rename_i hsupported
    apply spec_bind (spec_setReady hbusy hwriting
      (Bool.not_eq_true _ ▸ hsupported).symm)
    · intro a
      apply spec_from
      intro k h
      apply spec_consequence (spec_ignore (a := Action.onDurabilityEvent)
        (h.1.busy hbusy hwriting) rfl)
      · intro k' h'
        rw [h']
        exact Steady.refl k
      · intro res k' h'
        cases res with
        | ok a => exact h.steady h'
        | error e => exact h'
    · exact fun e k h => h

/-- The same, with the result of the synchronisation already recorded. -/
def Concluded (k0 : Core) (next : PersistedTabsDocument) :
    Except Rejection Unit -> Core -> Prop
  | Except.ok _, k => Settled k0 next k
  | Except.error e, k => exists f, e = Rejection.io f ∧ Written k0 next k ∧
      k.view.directory = some f

theorem spec_finishSync (hbusy : Busy options n k0)
    (hwriting : Writing options n k0 next) :
    Spec options n
      (fun k => Written k0 next k ∧ k.view.directory = none)
      (finishSync n) (returns fun _ => Settled k0 next) := by
  have hbody : Spec options n
      (fun k => Written k0 next k ∧ k.view.directory = none)
      (do
        syncDirectory
        setReady n none true) (Concluded k0 next) := by
    apply spec_bind (spec_syncDirectory hbusy hwriting)
    · intro a
      apply spec_consequence (spec_setReady hbusy hwriting rfl)
      · exact fun k h => h
      · intro res k h
        cases res with
        | ok a => exact h
        | error e => exact h.elim
    · exact fun e k h => h
  apply spec_tryCatch hbody
  · exact fun a k h => h
  · intro e
    cases e with
    | io f =>
        apply spec_consequence (spec_degrade hbusy hwriting f)
        · intro k h
          obtain ⟨g, heq, h⟩ := h
          cases heq
          exact h
        · exact fun res k h => h
    | thrown t =>
        intro s hs
        obtain ⟨f, heq, _⟩ := hs.1
        cases heq

theorem spec_takeOver (hbusy : Busy options n k0)
    (hwriting : Writing options n k0 next) :
    Spec options n (Replaced k0 (utf8Bytes next.serialized)) (takeOver n next)
      (returns fun _ k => Written k0 next k ∧ k.view.directory = none) := by
  apply spec_record (e := Entry.committed n next)
    (g := fun k => { k.record (Entry.committed n next) with
      document := some next })
  · exact fun s => rfl
  · intro s
    show Core.mk _ _ _ (replay View.after View.initial (s.log ++ [_])) = _
    rw [replay_snoc]
    rfl
  · intro k h
    obtain ⟨temps, failed, heq⟩ := h
    subst heq
    obtain ⟨o, found, hrunning, hwrites⟩ := hwriting.writes
    constructor
    · exact ⟨hwriting.proper, rfl, o, found, hrunning, hwrites⟩
    · exact ⟨⟨rfl, rfl, rfl, rfl, rfl, rfl, rfl, hbusy.sound.ready⟩,
        hwriting.directory⟩

def Wrote (k0 : Core) (next : PersistedTabsDocument) :
    Except Rejection Unit -> Core -> Prop
  | Except.ok _, k => Settled k0 next k
  | Except.error _, k => Steady k0 k ∧ k.view.failed = true ∧ True

theorem spec_writeDocument (hbusy : Busy options n k0)
    (hwriting : Writing options n k0 next) :
    Spec options n (Steady k0) (writeDocument n next) (Wrote k0 next) := by
  apply spec_bind (spec_consequence (spec_allocateTemp hbusy 8) _
    fun _ _ h => h)
  · intro id
    apply spec_bind (spec_consequence (spec_writeTemp hbusy id next.serialized)
      (fun _ h => h.1) fun _ _ h => h)
    · intro a
      apply spec_bind (spec_replacePrimary hbusy id
        (utf8Bytes next.serialized))
      · intro a
        apply spec_bind (spec_takeOver hbusy hwriting)
        · intro a
          apply spec_consequence (spec_finishSync hbusy hwriting)
          · exact fun k h => h
          · intro res k h
            cases res with
            | ok a => exact h
            | error e => exact h.elim
        · exact fun e k h => h.elim
      · exact fun e k h => h
    · exact fun e k h => h
  · exact fun e k h => h
  · exact fun k h => ⟨h, fun h8 => by cases h8⟩

def Refused (options : Options) (candidate : PersistedTabsDocument)
    (e : Rejection) : Prop :=
  (parseDocument options.nfc candidate = none ∧
      e = Rejection.thrown Thrown.invalid) ∨
    exists next, parseDocument options.nfc candidate = some next ∧
      MAX_DOCUMENT_BYTES < utf8ByteLength next.serialized ∧
        e = Rejection.thrown Thrown.failed

def Persisted (options : Options) (n : Nat) (k0 : Core)
    (candidate : PersistedTabsDocument) :
    Except Rejection Unit -> Core -> Prop
  | Except.ok _, k => exists next,
      parseDocument options.nfc candidate = some next ∧
        utf8ByteLength next.serialized ≤ MAX_DOCUMENT_BYTES ∧
          Writing options n k0 next ∧ Settled k0 next k
  | Except.error e, k => Steady k0 k ∧
      (k.view.failed = true ∨ Refused options candidate e)

theorem accepted_bind {value other : Type} (a : value)
    (g : value -> Code other) : (accepted (accept (some a)) >>= g) = g a := rfl

theorem spec_persist (hbusy : Busy options n k0)
    {candidate : PersistedTabsDocument}
    (hwriting : forall next, parseDocument options.nfc candidate = some next ->
      utf8ByteLength next.serialized ≤ MAX_DOCUMENT_BYTES ->
        Writing options n k0 next) :
    Spec options n (Steady k0) (persist options n candidate)
      (Persisted options n k0 candidate) := by
  unfold persist
  cases hparse : parseDocument options.nfc candidate with
  | none =>
      apply spec_throw
      exact fun k h => ⟨h, Or.inr (Or.inl ⟨hparse, rfl⟩)⟩
  | some next =>
      rw [accepted_bind]
      split
      · rename_i hlarge
        apply spec_throw
        exact fun k h => ⟨h, Or.inr (Or.inr ⟨next, hparse, hlarge, rfl⟩)⟩
      · rename_i hfits
        have hw := hwriting next hparse (Nat.le_of_not_lt hfits)
        apply spec_consequence (spec_writeDocument hbusy hw) fun k h => h
        intro res k h
        cases res with
        | ok a => exact ⟨next, hparse, hw.fits, hw, h⟩
        | error e => exact ⟨h.1, Or.inl h.2.1⟩

end Commit

end TabStore
end Server
end FlanTerminal

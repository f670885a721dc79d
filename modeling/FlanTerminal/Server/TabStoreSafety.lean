import FlanTerminal.Server.TabStoreCommits

/-!
# The operations of the tab store

What each operation comes to, from the state at its turn, and what that makes of
every run.
-/

namespace FlanTerminal
namespace Server
namespace TabStore

open Foundation
open Foundation.Pact (returns)
open Shared

structure Turn (options : Options) (n : Nat) (o : Op) (k0 : Core) : Prop where
  busy : Busy options n k0
  running : k0.view.running = some (n, o, k0.held)
  directory : k0.view.directory = none
  renamed : k0.view.renamed = false

structure Ended (options : Options) (n : Nat) (o : Op) (k0 : Core)
    (res : Except Rejection Value) (k : Core) : Prop where
  busy : Busy options n k
  running : k.view.running = k0.view.running
  ending : Ending options k.view k0.held o res k.held

section Mutations

variable {options : Options} {n : Nat} {k0 k : Core} {o : Op} {m : Mutation}

theorem Steady.held {k' : Core} (h : Steady k k') : k'.held = k.held := by
  obtain ⟨temps, failed, heq, _⟩ := h
  subst heq
  rfl

theorem Steady.renamed {k' : Core} (h : Steady k k') :
    k'.view.renamed = k.view.renamed := by
  obtain ⟨temps, failed, heq, _⟩ := h
  subst heq
  rfl

theorem Steady.running {k' : Core} (h : Steady k k') :
    k'.view.running = k.view.running := by
  obtain ⟨temps, failed, heq, _⟩ := h
  subst heq
  rfl

theorem Turn.steady (hturn : Turn options n o k0) (h : Steady k0 k)
    {res : Except Rejection Value}
    (hending : k.view.renamed = false -> Ending options k.view k0.held o res
      k0.held) : Ended options n o k0 res k := by
  refine ⟨h.busy hturn.busy, h.running, ?_⟩
  rw [h.held]
  exact hending (h.renamed.trans hturn.renamed)

theorem spec_require {result : Type} {pre : Core -> Prop}
    {g : PersistedTabsDocument -> Code result}
    {Q : Except Rejection result -> Core -> Prop}
    (hnone : forall k, pre k -> k.document = none ->
      Q (Except.error (Rejection.thrown Thrown.not_initialized)) k)
    (hsome : forall k d, pre k -> k.document = some d ->
      Spec options n (fun k' => k' = k) (g d) Q) :
    Spec options n pre (requireDocument >>= g) Q := by
  refine spec_read ?_
  intro k h s hs
  have hdocument : s.document = k.document := by rw [← hs]; rfl
  cases hd : k.document with
  | none =>
      dsimp only [Prog.bind]
      rw [hdocument, hd]
      apply spec_throw
      intro k' h'
      rw [h']
      exact hnone k h hd
  | some d =>
      dsimp only [Prog.bind]
      rw [hdocument, hd]
      exact hsome k d h hd

theorem spec_readSources (hbusy : Busy options n k0)
    (current : PersistedTabsDocument) (m : Mutation) :
    Spec options n (Steady k0) (readSources options current m)
      (Tried k0 (fun _ _ => True) fun _ => True) := by
  unfold readSources
  split
  · apply spec_bind (spec_now hbusy)
    · intro timestamp
      apply spec_bind (spec_consequence (spec_randomUUID hbusy)
        (fun _ h => h.1) fun _ _ h => h)
      · exact fun id => spec_ret fun k h => h
      · exact fun e k h => h
    · exact fun e k h => h
  · exact spec_ret fun k h => ⟨h, trivial⟩

/-- A mutation resolves with a tab of the document that it has written. -/
def resultTab (sources : Sources) : Mutation -> Option JsString
  | Mutation.create _ => some sources.randomUUID
  | Mutation.ensureInitialTab => some sources.randomUUID
  | Mutation.rename id _ => some id
  | Mutation.setDesiredState id _ => some id
  | _ => none

theorem build_initial {sources : Sources} {current : PersistedTabsDocument}
    {candidate : PersistedTabsDocument}
    (h : build options sources current Mutation.ensureInitialTab =
      Except.ok (some candidate)) : current.tabs = [] := by
  simp only [build, ensureInitialTab] at h
  split at h
  · cases h
  · rename_i hlength
    exact List.eq_nil_of_length_eq_zero (by omega)

theorem mem_ids_of_mem {tabs : List TabRecord} {tab : TabRecord}
    {id : JsString} (hmem : tab ∈ tabs) (hid : tab.id = id) :
    id ∈ tabs.map TabRecord.id :=
  List.mem_map.mpr ⟨tab, hmem, hid⟩

theorem id_accepted {nfc : JsString -> JsString}
    {tab out : TabRecord} (h : RecordAccepted nfc tab out) :
    out.id = tab.id := by
  rw [h.rest]

theorem result_present (hnfc : NormalForm options.nfc) {sources : Sources}
    {current next : PersistedTabsDocument}
    (hvalid : Valid options.nfc current)
    (h : decision options sources current m = Except.ok (some next))
    {id : JsString} (hid : resultTab sources m = some id) :
    (find next.tabs id).isSome = true := by
  obtain ⟨candidate, hbuild, _⟩ := decision_written h
  have hcommitted := (decision_committed hnfc hvalid h).1
  apply find_isSome_of_mem
  cases hcommitted with
  | create title tab _ haccepted =>
      cases hid
      exact mem_ids_of_mem (List.mem_append_right _ (List.mem_singleton_self tab))
        (id_accepted haccepted)
  | present hne => exact absurd (build_initial hbuild) hne
  | initial tab _ _ haccepted =>
      cases hid
      exact mem_ids_of_mem (List.mem_singleton_self tab) (id_accepted haccepted)
  | rename title tab hmem hname =>
      cases hid
      rw [ids_mapTab (f := withDisplayName title) fun _ => rfl]
      exact mem_ids_of_mem hmem hname
  | reorder _ => cases hid
  | @setDesiredState _ state tab hmem hname =>
      cases hid
      rw [ids_mapTab (f := withDesiredState state) fun _ => rfl]
      exact mem_ids_of_mem hmem hname
  | remove tab _ _ => cases hid
  | quiet _ => cases hid
  | flushActivity => cases hid

theorem findTab_present {document : PersistedTabsDocument} {id : JsString}
    (h : (find document.tabs id).isSome = true) :
    findTab document id = pure (Value.tab (find document.tabs id)) := by
  obtain ⟨tab, htab⟩ := Option.isSome_iff_exists.mp h
  have hfind : document.tabs.find? (fun tab => tab.id = id) = some tab := htab
  unfold findTab requireTab
  rw [hfind, htab]
  rfl

theorem spec_resultOf (hnfc : NormalForm options.nfc) {sources : Sources}
    {current next : PersistedTabsDocument}
    (hvalid : Valid options.nfc current)
    (h : decision options sources current m = Except.ok (some next))
    (hdocument : k.document = some next) :
    Spec options n (fun k' => k' = k) (resultOf sources m) fun res k' =>
      k' = k ∧ res = Except.ok (answered sources next m) := by
  apply spec_require
  · intro k' heq hnone
    rw [heq, hdocument] at hnone
    cases hnone
  · intro k' d heq hd
    subst heq
    rw [hdocument] at hd
    cases hd
    have hfound : forall id, resultTab sources m = some id ->
        (find next.tabs id).isSome = true :=
      fun id hid => result_present hnfc hvalid h hid
    cases m with
    | create name =>
        dsimp only
        rw [findTab_present (hfound _ rfl)]
        exact spec_ret fun k h => ⟨h, rfl⟩
    | ensureInitialTab =>
        dsimp only
        rw [findTab_present (hfound _ rfl)]
        exact spec_ret fun k h => ⟨h, rfl⟩
    | rename id name =>
        dsimp only
        rw [findTab_present (hfound _ rfl)]
        exact spec_ret fun k h => ⟨h, rfl⟩
    | reorder revision ids => exact spec_ret fun k h => ⟨h, rfl⟩
    | setDesiredState id state =>
        dsimp only
        rw [findTab_present (hfound _ rfl)]
        exact spec_ret fun k h => ⟨h, rfl⟩
    | remove id => exact spec_ret fun k h => ⟨h, rfl⟩
    | flushActivity ids now => exact spec_ret fun k h => ⟨h, rfl⟩

theorem decision_persist {sources : Sources}
    {current candidate : PersistedTabsDocument} {e : Rejection}
    (hbuild : build options sources current m = Except.ok (some candidate))
    (h : Refused options candidate e) :
    exists t, e = Rejection.thrown t ∧
      decision options sources current m = Except.error t := by
  rcases h with ⟨hparse, he⟩ | ⟨next, hparse, hlarge, he⟩
  · exact ⟨_, he, decision_invalid hbuild hparse⟩
  · refine ⟨_, he, ?_⟩
    rw [decision_built hbuild hparse, if_pos hlarge]

theorem spec_mutate (hnfc : NormalForm options.nfc)
    (hturn : Turn options n (Op.mutate m) k0) :
    Spec options n (fun k => k = k0) (mutate options n m)
      (Ended options n (Op.mutate m) k0) := by
  apply spec_require
  · intro k heq hnone
    rw [heq]
    apply hturn.steady (Steady.refl k0)
    exact fun hrenamed => Mutated.absent (heq ▸ hnone) hrenamed
  · intro k current heq hcurrent
    subst heq
    have hview := hturn.busy.sound.document current hcurrent
    have hproper := hturn.busy.sound.proper current hview
    apply spec_bind (spec_consequence (spec_readSources hturn.busy current m)
      _ fun _ _ h => h)
    · intro sources
      cases hbuild : build options sources current m with
      | error t =>
          apply spec_throw
          intro k' h
          apply hturn.steady h.1
          exact Mutated.refused hcurrent (decision_refused hbuild)
      | ok mutation =>
          cases mutation with
          | none =>
              apply spec_ret
              intro k' h
              apply hturn.steady h.1
              exact Mutated.nothing hcurrent (decision_nothing hbuild)
          | some candidate =>
              have hpersist : Spec options n (Steady k)
                  (persist options n candidate)
                  (Persisted options n k candidate) := by
                apply spec_persist hturn.busy
                intro next hparse hfits
                have hdecision := decision_built hbuild hparse
                rw [if_neg (Nat.not_lt.mpr hfits)] at hdecision
                refine ⟨proper_written hnfc hproper hdecision, hfits,
                  ⟨_, _, hturn.running, ?_⟩, hturn.directory⟩
                rw [hview]
                exact Writes.mutated hdecision
              show Spec options n _ (persist options n candidate >>=
                fun _ => resultOf sources m) _
              apply spec_bind (spec_consequence hpersist (fun _ h => h.1)
                fun _ _ h => h)
              · intro a
                apply spec_exists
                intro next
                apply spec_from
                intro k' h
                obtain ⟨hparse, hfits, hwriting, hwritten, hsynced⟩ := h
                have hdecision := decision_built hbuild hparse
                rw [if_neg (Nat.not_lt.mpr hfits)] at hdecision
                apply spec_consequence (spec_resultOf hnfc hproper.1 hdecision
                  hwritten.document) fun _ h => h
                intro res k'' h
                obtain ⟨heq, hres⟩ := h
                rw [heq, hres]
                refine ⟨hwritten.busy hturn.busy hwriting, hwritten.running, ?_⟩
                have hheld : k'.held =
                    ⟨some next, some (utf8Bytes next.serialized)⟩ := by
                  rw [← hwritten.document, ← hwritten.primary]
                  rfl
                rw [hheld]
                exact Mutated.written hcurrent hdecision hwritten.renamed
                  hsynced
              · intro e k' h
                apply hturn.steady h.1
                rcases h.2 with hfailed | hrefused
                · exact Mutated.failed hfailed
                · obtain ⟨t, he, hdecision⟩ := decision_persist hbuild hrefused
                  rw [he]
                  exact Mutated.refused hcurrent hdecision
    · intro e k' h
      apply hturn.steady h.1
      exact Mutated.failed h.2.1
    · intro k' h
      rw [h]
      exact Steady.refl _

end Mutations

/-!
## Reading the primary file
-/

def Core.content (k : Core) : List UInt8 :=
  k.files.primary.getD []

/-- A call has thrown, and not because there is no such file. -/
def Broken (k : Core) (e : Rejection) : Prop :=
  k.view.failed = true ∧ isErrorCode (js "ENOENT") e = false

def ChunksRead (k0 : Core) : Except Rejection (List UInt8) -> Core -> Prop
  | Except.ok bytes, k => Steady k0 k ∧
      (bytes = k0.content ∨
        (MAX_DOCUMENT_BYTES < bytes.length ∧ bytes <+: k0.content))
  | Except.error e, k => Steady k0 k ∧ Broken k e

def BytesRead (k0 : Core) : Except Rejection (List UInt8) -> Core -> Prop
  | Except.ok bytes, k => Steady k0 k ∧ bytes = k0.content ∧
      bytes.length ≤ MAX_DOCUMENT_BYTES
  | Except.error e, k => Steady k0 k ∧
      (Broken k e ∨ (e = Rejection.thrown Thrown.failed ∧
        MAX_DOCUMENT_BYTES < k0.content.length))

/-- The file is there, but holds no document for this store. -/
def Unreadable (options : Options) (k : Core) : Prop :=
  k.files.primary.isSome = true ∧ forall d, ¬ Stored options k.files.primary d

def PrimaryRead (options : Options) (k0 : Core) :
    Except Rejection PersistedTabsDocument -> Core -> Prop
  | Except.ok d, k => Steady k0 k ∧ Stored options k0.files.primary d
  | Except.error e, k => Steady k0 k ∧
      ((k.view.failed = true ∧
          (isErrorCode (js "ENOENT") e = true -> k0.files.primary = none)) ∨
        (e = Rejection.thrown Thrown.failed ∧ Unreadable options k0))

section Reading

variable {options : Options} {n : Nat} {k0 : Core}

theorem not_noEntry {f : Failure} (h : f.code ≠ some (js "ENOENT")) :
    isErrorCode (js "ENOENT") (Rejection.io f) = false := by
  unfold isErrorCode
  simpa using h

/-- The bytes that have been read are the first ones of the file; with the
rounds that are left the buffer can be filled. -/
theorem spec_readChunks (hbusy : Busy options n k0) (rounds : Nat)
    {bytes : List UInt8} (hstart : bytes <+: k0.content)
    (hrounds : MAX_DOCUMENT_BYTES + 1 ≤ bytes.length + rounds) :
    Spec options n (Steady k0) (readChunks rounds bytes) (ChunksRead k0) := by
  induction rounds generalizing bytes with
  | zero =>
      apply spec_ret
      exact fun k h => ⟨h, Or.inr ⟨hrounds, hstart⟩⟩
  | succ rounds ih =>
      unfold readChunks
      split
      · rename_i hroom
        apply spec_ret
        refine fun k h => ⟨h, Or.inr ⟨?_, hstart⟩⟩
        unfold room at hroom
        omega
      · rename_i hroom
        apply spec_bind (spec_plain (c := PortCall.read bytes.length) hbusy rfl)
        · intro r
          cases r with
          | error f =>
              apply spec_throw
              intro k h
              obtain ⟨files, _, _, hallowed, _⟩ := h.files
              exact ⟨h.steady, h.thrown rfl, not_noEntry hallowed⟩
          | ok chunk =>
              show Spec options n _ (if chunk.bytesRead = 0 then pure bytes
                else if chunk.bytesRead < 0 ∨ room bytes < chunk.bytesRead then
                  throw (Rejection.thrown Thrown.failed)
                else readChunks rounds (bytes ++ chunk.bytes)) _
              apply spec_from
              intro k h
              obtain ⟨files, _, hprimary, hallowed, _⟩ := h.files
              have hread : misread bytes.length chunk ∨
                  Reads k0.content bytes.length chunk := by
                unfold Core.content
                rw [← hprimary]
                exact hallowed
              split
              · rename_i hzero
                apply spec_ret
                intro k' heq
                rw [heq]
                refine ⟨h.steady, Or.inl ?_⟩
                rcases hread with hmis | hreads
                · unfold misread at hmis
                  unfold room at hroom
                  omega
                · have hlength := hreads.1
                  have hnil : chunk.bytes = [] :=
                    List.eq_nil_of_length_eq_zero (by omega)
                  have hend := List.drop_eq_nil_iff.mp (hreads.2.2 hnil)
                  exact hstart.eq_of_length_le hend
              · rename_i hzero
                split
                · rename_i hmis
                  apply spec_throw
                  intro k' heq
                  rw [heq]
                  have hthrown : (thrownBy (PortCall.read bytes.length)
                      (Except.ok chunk)).isSome = true := by
                    have hmisread : misread bytes.length chunk := hmis
                    show (if misread bytes.length chunk then some _
                      else none).isSome = true
                    rw [if_pos hmisread]
                    rfl
                  exact ⟨h.steady, h.thrown hthrown, rfl⟩
                · rename_i hgood
                  rcases hread with hmis | hreads
                  · exact absurd hmis hgood
                  · have hlength := hreads.1
                    apply spec_consequence (ih _ _)
                    · intro k' heq
                      rw [heq]
                      exact h.steady
                    · exact fun _ _ h => h
                    · obtain ⟨rest, hrest⟩ := hstart
                      have hdrop : k0.content.drop bytes.length = rest := by
                        rw [← hrest]
                        simp
                      rw [← hrest, ← hdrop]
                      exact (List.prefix_append_right_inj _).mpr hreads.2.1
                    · rw [List.length_append]
                      omega
        · exact fun e k h => h.elim

theorem spec_readBytes (hbusy : Busy options n k0) :
    Spec options n (Steady k0) readBytes (BytesRead k0) := by
  apply spec_bind (spec_plain (c := PortCall.stat) hbusy rfl)
  · intro r
    cases r with
    | error f =>
        apply spec_throw
        intro k h
        obtain ⟨files, _, _, hallowed, _⟩ := h.files
        exact ⟨h.steady, Or.inl ⟨h.thrown rfl, not_noEntry hallowed⟩⟩
    | ok stat =>
        show Spec options n _ (if !stat.isFile ∨
          MAX_DOCUMENT_BYTES < stat.size then
            throw (Rejection.thrown Thrown.failed)
          else readChunks (MAX_DOCUMENT_BYTES + 1) [] >>= boundedBytes) _
        apply spec_from
        intro k h
        obtain ⟨files, _, hprimary, hallowed, _⟩ := h.files
        have hfile : stat.isFile = true := hallowed.1
        have hsize : stat.size = k0.content.length := by
          unfold Core.content
          rw [← hprimary]
          exact hallowed.2
        split
        · rename_i hlarge
          apply spec_throw
          intro k' heq
          rw [heq]
          rw [hfile, hsize] at hlarge
          refine ⟨h.steady, Or.inr ⟨rfl, ?_⟩⟩
          simpa using hlarge
        · rename_i hsmall
          rw [hfile, hsize] at hsmall
          have hfits : k0.content.length ≤ MAX_DOCUMENT_BYTES := by
            simpa using hsmall
          apply spec_bind (spec_consequence (spec_readChunks hbusy
            (MAX_DOCUMENT_BYTES + 1) List.nil_prefix (by simp)) _
              fun _ _ h => h)
          · intro bytes
            unfold boundedBytes
            split
            · rename_i hlarge
              apply spec_throw
              intro k' h'
              refine ⟨h'.1, Or.inr ⟨rfl, ?_⟩⟩
              rcases h'.2 with heq | ⟨_, hstart⟩
              · rw [← heq]
                exact hlarge
              · exact Nat.lt_of_lt_of_le hlarge hstart.length_le
            · rename_i hbounded
              apply spec_ret
              intro k' h'
              refine ⟨h'.1, ?_, Nat.le_of_not_lt hbounded⟩
              rcases h'.2 with heq | ⟨hlarge, _⟩
              · exact heq
              · exact absurd hlarge hbounded
          · exact fun e k' h' => ⟨h'.1, Or.inl h'.2⟩
          · intro k' heq
            rw [heq]
            exact h.steady
  · exact fun e k h => h.elim

theorem BytesRead.steady {res : Except Rejection (List UInt8)} {k : Core}
    (h : BytesRead k0 res k) : Steady k0 k := by
  cases res with
  | ok bytes => exact h.1
  | error e => exact h.1

theorem BytesRead.later {res : Except Rejection (List UInt8)} {k k' : Core}
    (h : BytesRead k0 res k) (h' : Steady k k') : BytesRead k0 res k' := by
  cases res with
  | ok bytes => exact ⟨h.1.trans h', h.2⟩
  | error e =>
      refine ⟨h.1.trans h', ?_⟩
      rcases h.2 with hbroken | hlarge
      · exact Or.inl ⟨h'.failed hbroken.1, hbroken.2⟩
      · exact Or.inr hlarge

theorem spec_closePrimary (hbusy : Busy options n k0)
    (res : Except Rejection (List UInt8)) :
    Spec options n (BytesRead k0 res) (attempt Action.closePrimary)
      (Serial.Rules.lastly (BytesRead k0) res) := by
  apply spec_from
  intro k h
  have hclose : Spec options n (fun k' => Steady k k' ∧ True)
      (attempt Action.closePrimary) (Tried k (fun _ _ => True)
        fun e => isErrorCode (js "ENOENT") e = false) :=
    spec_attempt (F := fun _ => True) (h.steady.busy hbusy) rfl
      (fun _ _ _ => trivial) fun _ _ _ hallowed => not_noEntry hallowed
  apply spec_consequence hclose
  · intro k' heq
    rw [heq]
    exact ⟨Steady.refl k, trivial⟩
  · intro last k' h'
    cases last with
    | ok a => exact h.later h'.1
    | error e => exact ⟨h.steady.trans h'.1, Or.inl h'.2⟩

theorem spec_readPrimary (hbusy : Busy options n k0) :
    Spec options n (Steady k0) (readPrimary options)
      (PrimaryRead options k0) := by
  have hopen : Spec options n (fun k => Steady k0 k ∧ True)
      (attempt Action.openPrimary)
      (Tried k0 (fun _ files => files.primary.isSome = true)
        fun e => isErrorCode (js "ENOENT") e = true ->
          k0.files.primary = none) := by
    apply spec_attempt (F := fun _ => True) hbusy rfl
    · exact fun _ _ hallowed => hallowed
    · intro files f hprimary hallowed hcode
      rw [← hprimary]
      apply hallowed
      unfold isErrorCode at hcode
      simpa using hcode
  apply spec_bind (spec_consequence hopen (fun k h => ⟨h, trivial⟩)
    fun _ _ h => h)
  · intro a
    apply spec_from
    intro k h
    have hsome : k0.files.primary.isSome = true := by
      rw [← h.1.primary]
      exact h.2
    obtain ⟨content, hcontent⟩ := Option.isSome_iff_exists.mp hsome
    have hread : k0.content = content := by
      unfold Core.content
      rw [hcontent]
      rfl
    apply spec_bind (spec_consequence (spec_always (spec_readBytes hbusy)
      (spec_closePrimary hbusy)) _ fun _ _ h => h)
    · intro bytes
      unfold parseStored
      split
      · rename_i hnone
        apply spec_throw
        intro k' h'
        refine ⟨h'.1, Or.inr ⟨rfl, hsome, ?_⟩⟩
        intro d hd
        obtain ⟨bytes', hprimary, _, hstored⟩ := hd
        cases hprimary.symm.trans hcontent
        rw [h'.2.1, hread, hstored] at hnone
        cases hnone
      · rename_i document hstored
        apply spec_ret
        intro k' h'
        rw [h'.2.1, hread] at hstored
        have hlength := h'.2.2
        rw [h'.2.1, hread] at hlength
        exact ⟨h'.1, content, hcontent, hlength, hstored⟩
    · intro e k' h'
      refine ⟨h'.1, ?_⟩
      rcases h'.2 with hbroken | ⟨he, hlarge⟩
      · refine Or.inl ⟨hbroken.1, fun hcode => ?_⟩
        rw [hbroken.2] at hcode
        cases hcode
      · refine Or.inr ⟨he, hsome, ?_⟩
        intro d hd
        obtain ⟨bytes', hprimary, hlength, _⟩ := hd
        cases hprimary.symm.trans hcontent
        rw [hread] at hlarge
        exact absurd hlarge (Nat.not_lt.mpr hlength)
    · intro k' heq
      rw [heq]
      exact h.1
  · exact fun e k h => ⟨h.1, Or.inl h.2⟩

end Reading

/-!
## Initialisation
-/

/-- The document has been found, or the first one has been written. -/
inductive Found (options : Options) (n : Nat) (k0 : Core)
    (d : PersistedTabsDocument) : Core -> Prop where
  | loaded {k : Core} : Steady k0 k -> Stored options k0.files.primary d ->
      Found options n k0 d { k with ready := true }
  | created {k : Core} : d = emptyDocument -> k0.files.primary = none ->
      Writing options n k0 emptyDocument -> Settled k0 emptyDocument k ->
      Found options n k0 d k

def Opened (options : Options) (n : Nat) (k0 : Core) :
    Except Rejection PersistedTabsDocument -> Core -> Prop
  | Except.ok d, k => Found options n k0 d k
  | Except.error e, k => Steady k0 k ∧
      (k.view.failed = true ∨
        (e = Rejection.thrown Thrown.failed ∧ Unreadable options k0))

structure Taken (options : Options) (n : Nat) (k0 k : Core) : Prop where
  busy : Busy options n k
  running : k.view.running = k0.view.running
  ending : forall k', Steady k k' ->
    Initialised options k'.view k0.held (Except.ok Value.done) k'.held

section Initialisation

variable {options : Options} {n : Nat} {k0 : Core}

theorem spec_loadPrimary (hbusy : Busy options n k0) :
    Spec options n (Steady k0) (loadPrimary options) fun res k =>
      (exists d, res = Except.ok d ∧ Found options n k0 d k) ∨
        exists e, res = Except.error e ∧
          PrimaryRead options k0 (Except.error e) k := by
  apply spec_bind (spec_readPrimary hbusy)
  · intro d
    have hready : Spec options n (PrimaryRead options k0 (Except.ok d))
        (Prog.modify fun s => { s with ready := true })
        (returns fun _ => Found options n k0 d) := by
      apply spec_modify
      intro s h hlogged
      exact ⟨Found.loaded (k := s.core) h.1 h.2, hlogged⟩
    apply spec_bind hready
    · intro a
      exact spec_ret fun k h => Or.inl ⟨d, rfl, h⟩
    · exact fun e k h => h.elim
  · exact fun e k h => Or.inr ⟨e, rfl, h⟩

theorem Busy.no_document (hbusy : Busy options n k0)
    (hnone : k0.files.primary = none) : k0.view.document = none := by
  cases hview : k0.view.document with
  | none => rfl
  | some c =>
      obtain ⟨bytes, hprimary, _⟩ := hbusy.sound.stored c hview
      rw [hnone] at hprimary
      cases hprimary

theorem parse_empty : parseDocument options.nfc emptyDocument =
    some emptyDocument :=
  parseDocument_some.mpr (@proper_empty options).1

theorem Turn.writing (hnfc : NormalForm options.nfc)
    (hturn : Turn options n Op.initializeStore k0)
    (hnone : k0.files.primary = none) :
    Writing options n k0 emptyDocument := by
  refine ⟨proper_empty, empty_fits hnfc, ⟨_, _, hturn.running, ?_⟩,
    hturn.directory⟩
  rw [hturn.busy.no_document hnone]
  exact Writes.created

theorem spec_createPrimary (hnfc : NormalForm options.nfc)
    (hturn : Turn options n Op.initializeStore k0) (e : Rejection) :
    Spec options n (PrimaryRead options k0 (Except.error e))
      (createPrimary options n e) (Opened options n k0) := by
  unfold createPrimary
  split
  · rename_i hcode
    apply spec_from
    intro k h
    have hnone : k0.files.primary = none := by
      rcases h.2 with hfailed | ⟨he, _⟩
      · exact hfailed.2 hcode
      · rw [he] at hcode
        cases hcode
    rw [parse_empty, accepted_bind]
    have hpersist : Spec options n (Steady k0)
        (persist options n emptyDocument)
        (Persisted options n k0 emptyDocument) := by
      apply spec_persist hturn.busy
      intro next hparse _
      cases parse_empty.symm.trans hparse
      exact hturn.writing hnfc hnone
    apply spec_bind (spec_consequence hpersist _ fun _ _ h => h)
    · intro a
      apply spec_ret
      intro k' h'
      obtain ⟨next, hparse, _, hwriting, hwritten⟩ := h'
      cases parse_empty.symm.trans hparse
      exact Found.created rfl hnone hwriting hwritten
    · intro e k' h'
      refine ⟨h'.1, Or.inl ?_⟩
      rcases h'.2 with hfailed | hrefused
      · exact hfailed
      · rcases hrefused with ⟨hparse, _⟩ | ⟨next, hparse, hlarge, _⟩
        · cases parse_empty.symm.trans hparse
        · cases parse_empty.symm.trans hparse
          exact absurd hlarge (Nat.not_lt.mpr (empty_fits hnfc))
    · intro k' heq
      rw [heq]
      exact h.1
  · apply spec_throw
    intro k h
    refine ⟨h.1, ?_⟩
    rcases h.2 with hfailed | hunreadable
    · exact Or.inl hfailed.1
    · exact Or.inr hunreadable

theorem spec_open (hnfc : NormalForm options.nfc)
    (hturn : Turn options n Op.initializeStore k0) :
    Spec options n (Steady k0)
      (tryCatch (loadPrimary options) (createPrimary options n))
      (Opened options n k0) := by
  apply spec_tryCatch (spec_loadPrimary hturn.busy)
  · intro d k h
    rcases h with ⟨d', heq, hfound⟩ | ⟨e, heq, _⟩
    · cases heq
      exact hfound
    · cases heq
  · intro e
    apply spec_consequence (spec_createPrimary hnfc hturn e) _ fun _ _ h => h
    intro k h
    rcases h with ⟨d, heq, _⟩ | ⟨e', heq, h⟩
    · cases heq
    · cases heq
      exact h

theorem spec_keepDocument (hnfc : NormalForm options.nfc)
    (hturn : Turn options n Op.initializeStore k0)
    (hdocument : k0.document = none) (d : PersistedTabsDocument) :
    Spec options n (Found options n k0 d) (keepDocument n d)
      (returns fun _ => Taken options n k0) := by
  apply spec_modify
  intro s h hlogged
  generalize hk : s.core = k at h
  cases h with
  | @loaded k hsteady hstored =>
      have hnone : s.document = none := by
        have hcore : s.document = k.document := congrArg Core.document hk
        rw [hcore, hsteady.document, hdocument]
      have hproper := hstored.proper hnfc
      have hbusy := hsteady.busy hturn.busy
      have hsame : forall c, k.view.document = some c -> d = c := by
        intro c hc
        have hc' := hbusy.sound.stored c hc
        rw [hsteady.primary] at hc'
        exact hstored.unique hc'
      rw [hnone]
      have hview : summary s.log = k.view := congrArg Core.view hk
      have hready : s.ready = true := congrArg Core.ready hk
      have hfiles : s.files = k.files := congrArg Core.files hk
      have hcore : ({ s.record (Entry.loaded n d) with
          document := some d } : State).core =
            { k.record (Entry.loaded n d) with
              document := some d, ready := true } := by
        show Core.mk _ s.ready s.files
          (replay View.after View.initial (s.log ++ [_])) = _
        rw [replay_snoc, hready, hfiles]
        exact congrArg (fun v => Core.mk (some d) true k.files
          (View.after v (Entry.loaded n d))) hview
      refine ⟨?_, ?_⟩
      · show Taken options n k0 _
        rw [hcore]
        have hprimary : Stored options k.files.primary d := by
          rw [hsteady.primary]
          exact hstored
        refine ⟨⟨⟨rfl, fun c hc => hc, ?_, ?_, rfl⟩, hbusy.at_⟩,
          hsteady.running, ?_⟩
        · intro c hc
          cases hc
          exact hproper
        · intro c hc
          cases hc
          exact hprimary
        · intro k' hk'
          rw [hk'.held]
          show Initialised options k'.view k0.held _
            ⟨some d, k.files.primary⟩
          rw [hsteady.primary]
          apply Initialised.loaded hdocument hstored
          rw [hk'.renamed]
          exact hsteady.renamed.trans hturn.renamed
      · apply everyStep_snoc.mpr ⟨hlogged, ?_⟩
        show Good options (summary s.log) (Entry.loaded n d)
        rw [hview]
        have hmemory : k.view.memory = none := by
          rw [← hbusy.sound.memory, hsteady.document]
          exact hdocument
        exact ⟨hbusy.at_, hmemory, hproper, hsame⟩
  | created hd hnone hwriting hwritten =>
      have hsome : s.document = some emptyDocument := by
        have hcore : s.document = s.core.document := rfl
        rw [hcore, hk]
        exact hwritten.1.document
      rw [hsome]
      refine ⟨?_, hlogged⟩
      show Taken options n k0 s.core
      rw [hk]
      refine ⟨hwritten.1.busy hturn.busy hwriting, hwritten.1.running, ?_⟩
      intro k' hk'
      have hlast := hwritten.steady hk'
      have hheld : k'.held = ⟨some emptyDocument,
          some (utf8Bytes emptyDocument.serialized)⟩ := by
        rw [← hlast.1.document, ← hlast.1.primary]
        rfl
      rw [hheld]
      exact Initialised.created hdocument hnone hlast.1.renamed hlast.2

theorem spec_cleanupTemp (hbusy : Busy options n k0) (id : JsString) :
    Spec options n (Steady k0) (cleanupTemp id)
      (returns fun _ => Steady k0) := by
  apply spec_bind (spec_plain (c := PortCall.lstat id) hbusy rfl)
  · intro r
    cases r with
    | error f => exact spec_ret fun k h => h.steady
    | ok stat =>
        dsimp only
        split
        · apply spec_consequence (spec_ignore (a := Action.unlink id) hbusy rfl)
          · exact fun k h => h.steady
          · exact fun res k h => h
        · exact spec_ret fun k h => h.steady
  · exact fun e k h => h.elim

theorem spec_cleanupEach (hbusy : Busy options n k0) (ids : List JsString) :
    Spec options n (Steady k0) (cleanupEach ids)
      (returns fun _ => Steady k0) := by
  induction ids with
  | nil => exact spec_ret fun k h => h
  | cons id ids ih =>
      apply spec_bind (spec_cleanupTemp hbusy id)
      · exact fun a => ih
      · exact fun e k h => h.elim

theorem spec_cleanupTemps (hbusy : Busy options n k0) :
    Spec options n (Steady k0) cleanupTemps (returns fun _ => Steady k0) := by
  apply spec_bind (spec_plain (c := PortCall.readdir) hbusy rfl)
  · intro r
    cases r with
    | error f => exact spec_ret fun k h => h.steady
    | ok names =>
        apply spec_consequence (spec_cleanupEach hbusy (names.filterMap tempId))
        · exact fun k h => h.steady
        · exact fun res k h => h
  · exact fun e k h => h.elim

theorem spec_initializeStore (hnfc : NormalForm options.nfc)
    (hturn : Turn options n Op.initializeStore k0) :
    Spec options n (fun k => k = k0) (initializeStore options n)
      (Ended options n Op.initializeStore k0) := by
  apply spec_read
  intro k heq s hs
  subst heq
  have hdocument : s.document = k.document := by rw [← hs]; rfl
  split
  · rename_i hsome
    rw [hdocument] at hsome
    obtain ⟨c, hc⟩ := Option.isSome_iff_exists.mp hsome
    apply spec_throw
    intro k' h
    rw [h]
    apply hturn.steady (Steady.refl k)
    exact Initialised.already hc
  · rename_i hsome
    have hnone : k.document = none := by
      rw [← hdocument]
      simpa using hsome
    apply spec_bind (spec_consequence (spec_step (a := Action.mkdir)
      (F := fun _ => True) hturn.busy rfl fun _ => rfl) _ fun _ _ h => h)
    · intro a
      apply spec_bind (spec_consequence (spec_open hnfc hturn)
        (fun _ h => h.1) fun _ _ h => h)
      · intro d
        apply spec_bind (spec_keepDocument hnfc hturn hnone d)
        · intro a
          apply spec_from
          intro k1 htaken
          apply spec_bind (spec_consequence (spec_cleanupTemps htaken.busy)
            _ fun _ _ h => h)
          · intro a
            apply spec_ret
            intro k2 h
            exact ⟨h.busy htaken.busy, h.running.trans htaken.running,
              htaken.ending k2 h⟩
          · exact fun e k h => h.elim
          · intro k' h
            rw [h]
            exact Steady.refl k1
        · exact fun e k h => h.elim
      · intro e k' h
        apply hturn.steady h.1
        rcases h.2 with hfailed | ⟨he, hunreadable⟩
        · exact Initialised.failed hfailed
        · rw [he]
          exact Initialised.unreadable hnone hunreadable.1 hunreadable.2
    · intro e k' h
      apply hturn.steady h.1
      exact Initialised.failed h.2.1
    · intro k' h
      rw [h]
      exact ⟨Steady.refl k, trivial⟩

end Initialisation

/-!
## Every run
-/

section Runs

variable {options : Options}

theorem waits_of_front {document : Option PersistedTabsDocument}
    {ready : Bool} {o : Op} (h : look document ready o = none) :
    o.waits = true := by
  cases o with
  | initializeStore => rfl
  | mutate m => rfl
  | snapshot => cases h
  | has id => cases h
  | durabilityReady => cases h

theorem spec_work (hnfc : NormalForm options.nfc) {n : Nat} {o : Op} {k0 : Core}
    (hwaits : o.waits = true) (hturn : Turn options n o k0) :
    Spec options n (fun k => k = k0) (work options n o)
      (Ended options n o k0) := by
  cases o with
  | initializeStore => exact spec_initializeStore hnfc hturn
  | mutate m => exact spec_mutate hnfc hturn
  | snapshot => cases hwaits
  | has id => cases hwaits
  | durabilityReady => cases hwaits

theorem Idle.turn {n k : Nat} {o : Op} {s : State}
    (h : Idle options k s.core) (hk : k ≤ n) (hwaits : o.waits = true) :
    Good options s.core.view (Entry.started n o s.held) ∧
      Turn options n o (s.record (Entry.started n o s.held)).core := by
  constructor
  · exact ⟨h.running, fun m hm => Nat.lt_of_lt_of_le (h.last m hm) hk, hwaits,
      h.sound.matches⟩
  · rw [core_record]
    exact ⟨⟨⟨h.sound.memory, h.sound.document, h.sound.proper, h.sound.stored, h.sound.ready⟩,
      rfl, _, _, rfl⟩, rfl, rfl, rfl⟩

theorem Ended.leave {n : Nat} {o : Op} {k0 : Core}
    {res : Except Rejection Value} {s : State} (hwaits : o.waits = true)
    (hrunning : exists found, k0.view.running = some (n, o, found) ∧
      found = k0.held)
    (h : Ended options n o k0 res s.core) :
    Good options s.core.view (Entry.settled n o res s.held) ∧
      Idle options (n + 1) (s.record (Entry.settled n o res s.held)).core := by
  obtain ⟨found, hfound, hheld⟩ := hrunning
  have hsound := h.busy.sound
  constructor
  · refine ⟨hsound.matches, fun hlook => ?_, fun _ => ?_⟩
    · rw [hwaits] at hlook
      cases hlook
    · refine ⟨found, h.running.trans hfound, ?_⟩
      rw [hheld]
      exact h.ending
  · have hview : s.core.view.after (Entry.settled n o res s.held) =
        { s.core.view with running := none } := if_pos hwaits
    rw [core_record]
    unfold Core.record
    rw [hview]
    refine ⟨⟨hsound.memory, hsound.document, hsound.proper, hsound.stored, hsound.ready⟩, rfl,
      ?_⟩
    intro m hm
    have hlast := h.busy.at_.1
    cases hlast.symm.trans hm
    exact Nat.lt_succ_self n

theorem rules_sound (hnfc : NormalForm options.nfc) : (rules options).Sound := by
  intro n o k s0 hfront hk
  have hwaits := waits_of_front hfront
  apply Serial.Rules.triple_act
  intro s hs s' heq
  subst heq
  obtain ⟨hgood, hturn⟩ := hs.1.turn hk hwaits
  have hwork := spec_work hnfc hwaits hturn
    (s.record (Entry.started n o s.held)) ⟨rfl, logged_record hs.2 hgood⟩
  apply Serial.Rules.owes_mono _ hwork
  intro res s' h
  obtain ⟨hgood', hidle⟩ :=
    h.1.leave hwaits ⟨_, hturn.running, rfl⟩
  exact ⟨hidle, logged_record h.2 hgood'⟩

/-- What holds of the store at every moment of a run. -/
def Kept (options : Options) (s : State) : Prop :=
  Sound options s.core ∧ Logged options s

theorem idle_initial (files : Files) :
    Holds options (Idle options 0) (State.initial files) := by
  refine ⟨⟨⟨rfl, ?_, ?_, ?_, rfl⟩, rfl, fun m h => by cases h⟩,
    everyEntry_nil _⟩
  · exact fun d h => by cases h
  · exact fun d h => by cases h
  · exact fun d h => by cases h

theorem kept_of_reachable (hnfc : NormalForm options.nfc) {s : State}
    (hs : Holds options (Idle options 0) s) {cfg : Situation}
    (hreach : Reachable (store options).machine (Line.initial s) cfg) :
    Kept options cfg.shared.inner := by
  rcases Serial.Rules.reachable (R := rules options) (rules_sound hnfc) hs
    hreach with ⟨k, hidle⟩ | ⟨n, hbusy⟩
  · exact ⟨hidle.1.sound, hidle.2⟩
  · exact ⟨hbusy.1.sound, hbusy.2⟩

/-- A new process has forgotten the document, but not where it is. -/
theorem Kept.restart {s : State} (h : Kept options s) :
    Holds options (Idle options 0) s.restart := by
  have hcore : s.restart.core = ⟨none, false, s.files,
      (summary s.log).after Entry.restarted⟩ := by
    show Core.mk _ _ _ (replay View.after View.initial (s.log ++ [_])) = _
    rw [replay_snoc]
    rfl
  constructor
  · rw [hcore]
    exact ⟨⟨rfl, fun d hd => (by cases hd), h.1.proper, h.1.stored, rfl⟩, rfl,
      fun m hm => by cases hm⟩
  · exact everyStep_snoc.mpr ⟨h.2, trivial⟩

theorem Begins.holds (hnfc : NormalForm options.nfc) {files : Files}
    {s : State} (h : Begins options files s) :
    Holds options (Idle options 0) s := by
  induction h with
  | first => exact idle_initial files
  | again _ hreach ih => exact (kept_of_reachable hnfc ih hreach).restart

theorem Run.kept (hnfc : NormalForm options.nfc) {files : Files}
    {cfg : Situation} (h : Run options files cfg) :
    Kept options cfg.shared.inner := by
  obtain ⟨s, hbegins, hreach⟩ := h
  exact kept_of_reachable hnfc (hbegins.holds hnfc) hreach

end Runs

end TabStore
end Server
end FlanTerminal

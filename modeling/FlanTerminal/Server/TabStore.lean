import Mathlib.Data.List.Perm.Subperm
import FlanTerminal.Foundation.JsMap
import FlanTerminal.Foundation.JsSet
import FlanTerminal.Shared.TabDocument

/-!
# Mutations of the tab store

Every mutation of the store reads the current document and builds the next one,
or refuses.  The clock and the source of identifiers are read while it is built.
-/

namespace FlanTerminal
namespace Server
namespace TabStore

open Foundation
open Shared

/-- What an operation of the store throws.  `invalid` is the exception of a
schema, `failed` any other. -/
inductive Thrown where
  | not_initialized
  | already_initialized
  | tab_not_found
  | session_limit
  | order_conflict
  | invalid
  | failed
  deriving DecidableEq, Repr

inductive Mutation where
  | create (name : Option JsString)
  | ensureInitialTab
  | rename (id name : JsString)
  | reorder (revision : Nat) (ids : List JsString)
  | setDesiredState (id : JsString) (state : DesiredState)
  | remove (id : JsString)
  | flushActivity (ids : List JsString) (now : JsString)
  deriving DecidableEq

structure Options where
  sessionMaxCount : Nat
  nfc : JsString -> JsString

/-- What the mutation reads besides the document. -/
structure Sources where
  randomUUID : JsString
  now : JsString
  deriving DecidableEq

def requireTab (document : PersistedTabsDocument) (id : JsString) :
    Except Thrown TabRecord :=
  match document.tabs.find? fun tab => tab.id = id with
  | some tab => Except.ok tab
  | none => Except.error Thrown.tab_not_found

def accept {value : Type} : Option value -> Except Thrown value
  | some a => Except.ok a
  | none => Except.error Thrown.invalid

def structuralDocument (options : Options) (current : PersistedTabsDocument)
    (tabs : List TabRecord) : Except Thrown PersistedTabsDocument :=
  accept (parseDocument options.nfc ⟨current.structureRevision + 1, tabs⟩)

def withDisplayName (name : JsString) (tab : TabRecord) : TabRecord :=
  { tab with displayName := name }

def withDesiredState (state : DesiredState) (tab : TabRecord) : TabRecord :=
  { tab with desiredState := state }

def withLastActivity (ids : List JsString) (now : JsString)
    (tab : TabRecord) : TabRecord :=
  if ids.contains tab.id then { tab with lastActivityAt := now } else tab

/-- Replace one tab, `tabs.map((tab) => tab.id === id ? f(tab) : tab)`. -/
def mapTab (id : JsString) (f : TabRecord -> TabRecord)
    (tabs : List TabRecord) : List TabRecord :=
  tabs.map fun tab => if tab.id = id then f tab else tab

/-- `tabs.map((tab, position) => ({ ...tab, position }))`. -/
def renumber (tabs : List TabRecord) : List TabRecord :=
  tabs.mapIdx fun position tab => { tab with position := position }

def terminalName (n : Nat) : JsString :=
  js "Terminal " ++ decimalDigits n

def newTab (sources : Sources) (name : JsString) (position : Nat) :
    TabRecord where
  id := sources.randomUUID
  displayName := name
  position := position
  createdAt := sources.now
  lastActivityAt := sources.now
  desiredState := DesiredState.active

def newName (options : Options) (count : Nat) :
    Option JsString -> Except Thrown JsString
  | none => Except.ok (terminalName (count + 1))
  | some name => accept (displayName options.nfc name)

def create (options : Options) (sources : Sources) (name : Option JsString)
    (current : PersistedTabsDocument) :
    Except Thrown PersistedTabsDocument :=
  if options.sessionMaxCount ≤ current.tabs.length then
    Except.error Thrown.session_limit
  else do
    let title ← newName options current.tabs.length name
    structuralDocument options current
      (current.tabs ++ [newTab sources title current.tabs.length])

/-- `none` is a store that has tabs already. -/
def ensureInitialTab (options : Options) (sources : Sources)
    (current : PersistedTabsDocument) :
    Except Thrown (Option PersistedTabsDocument) :=
  if 0 < current.tabs.length then Except.ok none
  else if options.sessionMaxCount ≤ current.tabs.length then
    Except.error Thrown.session_limit
  else do
    let next ← structuralDocument options current
      [newTab sources (js "Terminal 1") 0]
    pure (some next)

def rename (options : Options) (id name : JsString)
    (current : PersistedTabsDocument) :
    Except Thrown PersistedTabsDocument := do
  let _ ← requireTab current id
  let name ← accept (displayName options.nfc name)
  structuralDocument options current
    (mapTab id (withDisplayName name) current.tabs)

/-- The tab that `reorder` finds for an id; in a map the last one counts. -/
def byId (tabs : List TabRecord) (id : JsString) : Option TabRecord :=
  tabs.reverse.find? fun tab => tab.id = id

def orderConflict (revision : Nat) (ids : List JsString)
    (current : PersistedTabsDocument) : Bool :=
  decide (revision ≠ current.structureRevision) ||
    decide (ids.length ≠ current.tabs.length) ||
    decide ((JsSet.addAll [] ids).length ≠ current.tabs.length) ||
    ids.any fun id => !current.tabs.any fun tab => tab.id = id

def reorder (options : Options) (revision : Nat) (ids : List JsString)
    (current : PersistedTabsDocument) :
    Except Thrown PersistedTabsDocument :=
  if orderConflict revision ids current then
    Except.error Thrown.order_conflict
  else structuralDocument options current
    (renumber (ids.filterMap (byId current.tabs)))

def setDesiredState (options : Options) (id : JsString) (state : DesiredState)
    (current : PersistedTabsDocument) :
    Except Thrown PersistedTabsDocument := do
  let _ ← requireTab current id
  structuralDocument options current
    (mapTab id (withDesiredState state) current.tabs)

def remove (options : Options) (id : JsString)
    (current : PersistedTabsDocument) :
    Except Thrown PersistedTabsDocument := do
  let _ ← requireTab current id
  structuralDocument options current
    (renumber (current.tabs.filter fun tab => tab.id ≠ id))

/-- `none` when no tab has been active. -/
def flushActivity (options : Options) (ids : List JsString) (now : JsString)
    (current : PersistedTabsDocument) :
    Except Thrown (Option PersistedTabsDocument) :=
  if !current.tabs.any fun tab => ids.contains tab.id then Except.ok none
  else do
    let next ← accept (parseDocument options.nfc
      { current with tabs := current.tabs.map (withLastActivity ids now) })
    pure (some next)

/-- The document a mutation wants to store; `none` when there is nothing to
do. -/
def build (options : Options) (sources : Sources)
    (current : PersistedTabsDocument) :
    Mutation -> Except Thrown (Option PersistedTabsDocument)
  | Mutation.create name => some <$> create options sources name current
  | Mutation.ensureInitialTab => ensureInitialTab options sources current
  | Mutation.rename id name => some <$> rename options id name current
  | Mutation.reorder revision ids =>
      some <$> reorder options revision ids current
  | Mutation.setDesiredState id state =>
      some <$> setDesiredState options id state current
  | Mutation.remove id => some <$> remove options id current
  | Mutation.flushActivity ids now => flushActivity options ids now current

/-- The document after a mutation that goes through.  What a mutation has built
is parsed once more before it is written. -/
def commit (options : Options) (sources : Sources)
    (current : PersistedTabsDocument) (mutation : Mutation) :
    Option PersistedTabsDocument :=
  match build options sources current mutation with
  | Except.error _ => none
  | Except.ok none => some current
  | Except.ok (some candidate) => parseDocument options.nfc candidate

/-!
## What a commit does

One case for each mutation, from a document that the schema leaves as it is.
-/

inductive Committed (options : Options) (sources : Sources)
    (current : PersistedTabsDocument) :
    Mutation -> PersistedTabsDocument -> Prop where
  | create {name : Option JsString} (title : JsString) (tab : TabRecord) :
      current.tabs.length < options.sessionMaxCount ->
      RecordAccepted options.nfc
        (newTab sources title current.tabs.length) tab ->
      Committed options sources current (Mutation.create name)
        ⟨current.structureRevision + 1, current.tabs ++ [tab]⟩
  | present : current.tabs ≠ [] ->
      Committed options sources current Mutation.ensureInitialTab current
  | initial (tab : TabRecord) : current.tabs = [] ->
      0 < options.sessionMaxCount ->
      RecordAccepted options.nfc (newTab sources (js "Terminal 1") 0) tab ->
      Committed options sources current Mutation.ensureInitialTab
        ⟨current.structureRevision + 1, [tab]⟩
  | rename {id name : JsString} (title : JsString) (tab : TabRecord) :
      tab ∈ current.tabs -> tab.id = id ->
      displayName options.nfc name = some title ->
      Committed options sources current (Mutation.rename id name)
        ⟨current.structureRevision + 1,
          mapTab id (withDisplayName title) current.tabs⟩
  | reorder {revision : Nat} {ids : List JsString} :
      orderConflict revision ids current = false ->
      Committed options sources current (Mutation.reorder revision ids)
        ⟨current.structureRevision + 1,
          renumber (ids.filterMap (byId current.tabs))⟩
  | setDesiredState {id : JsString} {state : DesiredState} (tab : TabRecord) :
      tab ∈ current.tabs -> tab.id = id ->
      Committed options sources current (Mutation.setDesiredState id state)
        ⟨current.structureRevision + 1,
          mapTab id (withDesiredState state) current.tabs⟩
  | remove {id : JsString} (tab : TabRecord) :
      tab ∈ current.tabs -> tab.id = id ->
      Committed options sources current (Mutation.remove id)
        ⟨current.structureRevision + 1,
          renumber (current.tabs.filter fun tab => tab.id ≠ id)⟩
  | quiet {ids : List JsString} {now : JsString} :
      (current.tabs.any fun tab => ids.contains tab.id) = false ->
      Committed options sources current (Mutation.flushActivity ids now)
        current
  | flushActivity {ids : List JsString} {now : JsString} :
      Committed options sources current (Mutation.flushActivity ids now)
        { current with tabs := current.tabs.map (withLastActivity ids now) }

section Lemmas

variable {options : Options} {sources : Sources}
variable {current : PersistedTabsDocument}

theorem accept_ok {value : Type} {a : Option value} {b : value}
    (h : accept a = Except.ok b) : a = some b := by
  cases a with
  | none => cases h
  | some c =>
      cases h
      rfl

theorem requireTab_ok {id : JsString} {tab : TabRecord}
    (h : requireTab current id = Except.ok tab) :
    (current.tabs.find? fun tab => tab.id = id) = some tab := by
  unfold requireTab at h
  split at h
  · rename_i found hfound
    cases h
    exact hfound
  · cases h

theorem requireTab_mem {id : JsString} {tab : TabRecord}
    (h : requireTab current id = Except.ok tab) :
    tab ∈ current.tabs ∧ tab.id = id := by
  have hfind := requireTab_ok h
  have hid := List.find?_some hfind
  exact ⟨List.mem_of_find?_eq_some hfind, by simpa using hid⟩

theorem structuralDocument_ok {tabs : List TabRecord}
    {next : PersistedTabsDocument}
    (h : structuralDocument options current tabs = Except.ok next) :
    DocumentAccepted options.nfc ⟨current.structureRevision + 1, tabs⟩ next :=
  parseDocument_some.mp (accept_ok h)

theorem bind_ok {source target : Type} {x : Except Thrown source}
    {f : source -> Except Thrown target} {b : target}
    (h : (x >>= f) = Except.ok b) : exists a, x = Except.ok a ∧ f a = Except.ok b := by
  cases x with
  | error e => cases h
  | ok a => exact ⟨a, rfl, h⟩

theorem commit_cases {mutation : Mutation} {after : PersistedTabsDocument}
    (h : commit options sources current mutation = some after) :
    (build options sources current mutation = Except.ok none ∧
        after = current) ∨
      exists candidate,
        build options sources current mutation = Except.ok (some candidate) ∧
          parseDocument options.nfc candidate = some after := by
  unfold commit at h
  split at h
  · cases h
  · rename_i hbuild
    cases h
    exact Or.inl ⟨hbuild, rfl⟩
  · rename_i candidate hbuild
    exact Or.inr ⟨candidate, hbuild, h⟩

theorem map_some_ok {x : Except Thrown PersistedTabsDocument}
    {b : Option PersistedTabsDocument} (h : some <$> x = Except.ok b) :
    exists next, x = Except.ok next ∧ b = some next := by
  cases x with
  | error e => cases h
  | ok next =>
      cases h
      exact ⟨next, rfl, rfl⟩

theorem written (hnfc : NormalForm options.nfc)
    {document candidate after : PersistedTabsDocument}
    (hbuilt : DocumentAccepted options.nfc document candidate)
    (h : parseDocument options.nfc candidate = some after) :
    DocumentAccepted options.nfc document after := by
  have hafter := (parseDocument_some.mp h).eq_of_named
    (hbuilt.valid hnfc).named
  rw [hafter]
  exact hbuilt

theorem forall₂_snoc {tabs out : List TabRecord} {tab : TabRecord}
    (hnamed : forall tab, tab ∈ tabs -> Named options.nfc tab)
    (h : List.Forall₂ (RecordAccepted options.nfc) (tabs ++ [tab]) out) :
    exists tab', RecordAccepted options.nfc tab tab' ∧
      out = tabs ++ [tab'] := by
  induction tabs generalizing out with
  | nil =>
      cases h with
      | cons htab hnil =>
          cases hnil
          exact ⟨_, htab, rfl⟩
  | cons first rest ih =>
      cases h with
      | @cons _ first' _ out' hfirst hrest =>
          rcases ih (fun tab htab => hnamed tab (List.mem_cons_of_mem _ htab))
            hrest with ⟨tab', htab', hout⟩
          rw [hout, hfirst.eq_of_named (hnamed first List.mem_cons_self)]
          exact ⟨tab', htab', rfl⟩

theorem appended {tabs : List TabRecord} {tab : TabRecord}
    {revision : Nat} {next : PersistedTabsDocument}
    (hnamed : forall tab, tab ∈ tabs -> Named options.nfc tab)
    (h : DocumentAccepted options.nfc ⟨revision, tabs ++ [tab]⟩ next) :
    exists tab', RecordAccepted options.nfc tab tab' ∧
      next = ⟨revision, tabs ++ [tab']⟩ := by
  rcases next with ⟨revision', tabs'⟩
  have hrevision : revision' = revision := h.revision
  rcases forall₂_snoc hnamed h.records with ⟨tab', htab', hout⟩
  have hout' : tabs' = tabs ++ [tab'] := hout
  rw [hrevision, hout']
  exact ⟨tab', htab', rfl⟩

theorem map_named {f : TabRecord -> TabRecord} {tabs : List TabRecord}
    (hnamed : forall tab, tab ∈ tabs -> Named options.nfc tab)
    (hf : forall tab, Named options.nfc tab -> Named options.nfc (f tab)) :
    forall tab, tab ∈ tabs.map f -> Named options.nfc tab := by
  intro tab htab
  rcases List.mem_map.mp htab with ⟨old, hold, heq⟩
  rw [← heq]
  exact hf old (hnamed old hold)

theorem mapTab_named {id : JsString} {f : TabRecord -> TabRecord}
    {tabs : List TabRecord}
    (hnamed : forall tab, tab ∈ tabs -> Named options.nfc tab)
    (hf : forall tab, Named options.nfc tab -> Named options.nfc (f tab)) :
    forall tab, tab ∈ mapTab id f tabs -> Named options.nfc tab := by
  apply map_named hnamed
  intro tab htab
  split
  · exact hf tab htab
  · exact htab

theorem mem_renumber {tabs : List TabRecord} {tab : TabRecord}
    (h : tab ∈ renumber tabs) :
    exists old, old ∈ tabs ∧ exists position,
      tab = { old with position := position } := by
  rcases List.mem_mapIdx.mp h with ⟨position, hposition, heq⟩
  exact ⟨tabs[position], List.getElem_mem hposition, position, heq.symm⟩

theorem renumber_named {tabs : List TabRecord}
    (hnamed : forall tab, tab ∈ tabs -> Named options.nfc tab) :
    forall tab, tab ∈ renumber tabs -> Named options.nfc tab := by
  intro tab htab
  rcases mem_renumber htab with ⟨old, hold, position, heq⟩
  rw [heq]
  exact hnamed old hold

theorem byId_mem {tabs : List TabRecord} {id : JsString} {tab : TabRecord}
    (h : byId tabs id = some tab) : tab ∈ tabs ∧ tab.id = id := by
  have hid := List.find?_some h
  exact ⟨List.mem_reverse.mp (List.mem_of_find?_eq_some h), by simpa using hid⟩

theorem create_ok {name : Option JsString} {next : PersistedTabsDocument}
    (h : create options sources name current = Except.ok next) :
    current.tabs.length < options.sessionMaxCount ∧
      exists title, DocumentAccepted options.nfc
        ⟨current.structureRevision + 1,
          current.tabs ++ [newTab sources title current.tabs.length]⟩ next := by
  unfold create at h
  split at h
  · cases h
  · rename_i hlimit
    rcases bind_ok h with ⟨title, _, hnext⟩
    exact ⟨by omega, title, structuralDocument_ok hnext⟩

theorem nothing_built {mutation : Mutation}
    (hbuild : build options sources current mutation = Except.ok none) :
    Committed options sources current mutation current := by
  cases mutation with
  | create name =>
      rcases map_some_ok hbuild with ⟨_, _, hnone⟩
      cases hnone
  | ensureInitialTab =>
      apply Committed.present
      intro hnil
      simp only [build, ensureInitialTab, hnil, List.length_nil,
        Nat.lt_irrefl, if_false] at hbuild
      split at hbuild
      · cases hbuild
      · rcases bind_ok hbuild with ⟨_, _, hnone⟩
        cases hnone
  | rename id name =>
      rcases map_some_ok hbuild with ⟨_, _, hnone⟩
      cases hnone
  | reorder revision ids =>
      rcases map_some_ok hbuild with ⟨_, _, hnone⟩
      cases hnone
  | setDesiredState id state =>
      rcases map_some_ok hbuild with ⟨_, _, hnone⟩
      cases hnone
  | remove id =>
      rcases map_some_ok hbuild with ⟨_, _, hnone⟩
      cases hnone
  | flushActivity ids now =>
      apply Committed.quiet
      simp only [build, flushActivity] at hbuild
      split at hbuild
      · rename_i hany
        simpa using hany
      · rcases bind_ok hbuild with ⟨_, _, hnone⟩
        cases hnone

theorem built (hnfc : NormalForm options.nfc)
    (hvalid : Valid options.nfc current) {mutation : Mutation}
    {candidate : PersistedTabsDocument}
    (hbuild : build options sources current mutation =
      Except.ok (some candidate)) :
    exists document, DocumentAccepted options.nfc document candidate ∧
      forall after, DocumentAccepted options.nfc document after ->
        Committed options sources current mutation after := by
  have hnamed := hvalid.named
  cases mutation with
  | create name =>
      rcases map_some_ok hbuild with ⟨next, hnext, heq⟩
      cases heq
      rcases create_ok hnext with ⟨hlimit, title, haccepted⟩
      refine ⟨_, haccepted, ?_⟩
      intro after hafter
      rcases appended hnamed hafter with ⟨tab, htab, heq⟩
      rw [heq]
      exact Committed.create title tab hlimit htab
  | ensureInitialTab =>
      simp only [build, ensureInitialTab] at hbuild
      split at hbuild
      · cases hbuild
      · rename_i hlength
        have hnil : current.tabs = [] := List.eq_nil_of_length_eq_zero (by omega)
        split at hbuild
        · cases hbuild
        · rename_i hlimit
          rcases bind_ok hbuild with ⟨next, hnext, heq⟩
          cases heq
          refine ⟨_, structuralDocument_ok hnext, ?_⟩
          intro after hafter
          have hempty : forall tab, tab ∈ ([] : List TabRecord) ->
              Named options.nfc tab := nofun
          rcases appended hempty hafter with ⟨tab, htab, heq⟩
          rw [heq]
          exact Committed.initial tab hnil (by omega) htab
  | rename id name =>
      rcases map_some_ok hbuild with ⟨next, hnext, heq⟩
      cases heq
      rcases bind_ok hnext with ⟨tab, htab, hrest⟩
      rcases bind_ok hrest with ⟨title, htitle, hdocument⟩
      have hname := accept_ok htitle
      refine ⟨_, structuralDocument_ok hdocument, ?_⟩
      intro after hafter
      rw [hafter.eq_of_named (mapTab_named hnamed fun _ _ =>
        persistedDisplayName_idempotent hnfc (displayName_some hname).1)]
      exact Committed.rename title tab (requireTab_mem htab).1
        (requireTab_mem htab).2 hname
  | reorder revision ids =>
      rcases map_some_ok hbuild with ⟨next, hnext, heq⟩
      cases heq
      unfold reorder at hnext
      split at hnext
      · cases hnext
      · rename_i hconflict
        refine ⟨_, structuralDocument_ok hnext, ?_⟩
        intro after hafter
        have hchosen : forall tab, tab ∈ ids.filterMap (byId current.tabs) ->
            Named options.nfc tab := by
          intro tab htab
          rcases List.mem_filterMap.mp htab with ⟨id, _, hid⟩
          exact hnamed tab (byId_mem hid).1
        rw [hafter.eq_of_named (renumber_named hchosen)]
        exact Committed.reorder (by simpa using hconflict)
  | setDesiredState id state =>
      rcases map_some_ok hbuild with ⟨next, hnext, heq⟩
      cases heq
      rcases bind_ok hnext with ⟨tab, htab, hdocument⟩
      refine ⟨_, structuralDocument_ok hdocument, ?_⟩
      intro after hafter
      rw [hafter.eq_of_named (mapTab_named hnamed fun _ hold => hold)]
      exact Committed.setDesiredState tab (requireTab_mem htab).1
        (requireTab_mem htab).2
  | remove id =>
      rcases map_some_ok hbuild with ⟨next, hnext, heq⟩
      cases heq
      rcases bind_ok hnext with ⟨tab, htab, hdocument⟩
      refine ⟨_, structuralDocument_ok hdocument, ?_⟩
      intro after hafter
      have hothers : forall tab,
          tab ∈ current.tabs.filter (fun tab => decide (tab.id ≠ id)) ->
          Named options.nfc tab :=
        fun tab htab => hnamed tab (List.mem_filter.mp htab).1
      rw [hafter.eq_of_named (renumber_named hothers)]
      exact Committed.remove tab (requireTab_mem htab).1
        (requireTab_mem htab).2
  | flushActivity ids now =>
      simp only [build, flushActivity] at hbuild
      split at hbuild
      · cases hbuild
      · rcases bind_ok hbuild with ⟨next, hnext, heq⟩
        cases heq
        refine ⟨_, parseDocument_some.mp (accept_ok hnext), ?_⟩
        intro after hafter
        have hmapped : forall tab,
            tab ∈ current.tabs.map (withLastActivity ids now) ->
            Named options.nfc tab := by
          apply map_named hnamed
          intro tab htab
          unfold withLastActivity
          split
          · exact htab
          · exact htab
        rw [hafter.eq_of_named hmapped]
        exact Committed.flushActivity

theorem committed (hnfc : NormalForm options.nfc)
    (hvalid : Valid options.nfc current) {mutation : Mutation}
    {after : PersistedTabsDocument}
    (h : commit options sources current mutation = some after) :
    Committed options sources current mutation after ∧
      Valid options.nfc after := by
  rcases commit_cases h with ⟨hbuild, hafter⟩ | ⟨candidate, hbuild, hparse⟩
  · rw [hafter]
    exact ⟨nothing_built hbuild, hvalid⟩
  · rcases built hnfc hvalid hbuild with ⟨document, hbuilt, hcommitted⟩
    have hafter := written hnfc hbuilt hparse
    exact ⟨hcommitted after hafter, hafter.valid hnfc⟩

/-!
## Looking up a tab
-/

def find (tabs : List TabRecord) (id : JsString) : Option TabRecord :=
  tabs.find? fun tab => tab.id = id

theorem find_cons (tab : TabRecord) (tabs : List TabRecord) (id : JsString) :
    find (tab :: tabs) id = if tab.id = id then some tab else find tabs id := by
  by_cases h : tab.id = id
  · simp [find, h]
  · simp [find, h]

theorem find_some {tabs : List TabRecord} {id : JsString} {tab : TabRecord}
    (h : find tabs id = some tab) : tab ∈ tabs ∧ tab.id = id := by
  have hid := List.find?_some h
  exact ⟨List.mem_of_find?_eq_some h, by simpa using hid⟩

theorem find_isSome_of_mem {tabs : List TabRecord} {id : JsString}
    (h : id ∈ tabs.map TabRecord.id) : (find tabs id).isSome = true := by
  rcases List.mem_map.mp h with ⟨tab, htab, hid⟩
  rw [find, List.find?_isSome]
  exact ⟨tab, htab, by simpa using hid⟩

theorem find_of_mem {tabs : List TabRecord} {tab : TabRecord}
    (hdistinct : (tabs.map TabRecord.id).Nodup) (h : tab ∈ tabs) :
    find tabs tab.id = some tab := by
  induction tabs with
  | nil => cases h
  | cons first rest ih =>
      rw [List.map_cons, List.nodup_cons] at hdistinct
      rw [find_cons]
      rcases List.mem_cons.mp h with h | h
      · rw [h, if_pos rfl]
      · have hne : first.id ≠ tab.id := by
          intro heq
          exact hdistinct.1 (heq ▸ List.mem_map_of_mem h)
        rw [if_neg hne, ih hdistinct.2 h]

theorem find_map {f : TabRecord -> TabRecord}
    (hf : forall tab, (f tab).id = tab.id) (tabs : List TabRecord)
    (id : JsString) : find (tabs.map f) id = (find tabs id).map f := by
  induction tabs with
  | nil => rfl
  | cons tab tabs ih =>
      rw [List.map_cons, find_cons, find_cons, hf, ih]
      split
      · rfl
      · rfl

theorem find_mapTab {f : TabRecord -> TabRecord}
    (hf : forall tab, (f tab).id = tab.id) (tabs : List TabRecord)
    (id key : JsString) :
    find (mapTab id f tabs) key =
      (find tabs key).map fun tab => if tab.id = id then f tab else tab := by
  apply find_map
  intro tab
  split
  · exact hf tab
  · rfl

theorem find_mapTab_ne {f : TabRecord -> TabRecord}
    (hf : forall tab, (f tab).id = tab.id) (tabs : List TabRecord)
    {id key : JsString} (hne : key ≠ id) :
    find (mapTab id f tabs) key = find tabs key := by
  rw [find_mapTab hf]
  cases hfind : find tabs key with
  | none => rfl
  | some tab =>
      have hid : tab.id ≠ id := by
        rw [(find_some hfind).2]
        exact hne
      simp [hid]

theorem find_filter_ne (tabs : List TabRecord) {id key : JsString}
    (hne : key ≠ id) :
    find (tabs.filter fun tab => tab.id ≠ id) key = find tabs key := by
  induction tabs with
  | nil => rfl
  | cons tab tabs ih =>
      rw [List.filter_cons]
      split
      · rw [find_cons, find_cons, ih]
      · rename_i htab
        have hid : tab.id = id := by simpa using htab
        have hkey : ¬ tab.id = key := fun h => hne (h.symm.trans hid)
        rw [ih, find_cons, if_neg hkey]

theorem find_mapIdx {f : Nat -> TabRecord -> TabRecord}
    (hf : forall i tab, exists position,
      f i tab = { tab with position := position })
    (tabs : List TabRecord) {id : JsString} {tab : TabRecord}
    (h : find tabs id = some tab) :
    exists position,
      find (tabs.mapIdx f) id = some { tab with position := position } := by
  induction tabs generalizing f with
  | nil => cases h
  | cons first rest ih =>
      rcases hf 0 first with ⟨position, hfirst⟩
      rw [List.mapIdx_cons, find_cons, hfirst]
      rw [find_cons] at h
      split at h
      · rename_i hid
        cases h
        exact ⟨position, if_pos hid⟩
      · rename_i hid
        rcases ih (fun i tab => hf (i + 1) tab) h with ⟨position', hrest⟩
        exact ⟨position', by rw [if_neg hid, hrest]⟩

theorem find_renumber {tabs : List TabRecord} {id : JsString}
    {tab : TabRecord} (h : find tabs id = some tab) :
    exists position,
      find (renumber tabs) id = some { tab with position := position } :=
  find_mapIdx (fun i _ => ⟨i, rfl⟩) tabs h

theorem withLastActivity_id (ids : List JsString) (now : JsString)
    (tab : TabRecord) : (withLastActivity ids now tab).id = tab.id := by
  unfold withLastActivity
  split
  · rfl
  · rfl

theorem ids_mapIdx {f : Nat -> TabRecord -> TabRecord}
    (hf : forall i tab, (f i tab).id = tab.id) (tabs : List TabRecord) :
    (tabs.mapIdx f).map TabRecord.id = tabs.map TabRecord.id := by
  induction tabs generalizing f with
  | nil => rfl
  | cons tab tabs ih =>
      rw [List.mapIdx_cons, List.map_cons, List.map_cons, hf,
        ih fun i tab => hf (i + 1) tab]

theorem ids_renumber (tabs : List TabRecord) :
    (renumber tabs).map TabRecord.id = tabs.map TabRecord.id :=
  ids_mapIdx (f := fun position tab => { tab with position := position })
    (fun _ _ => rfl) tabs

theorem ids_mapTab {f : TabRecord -> TabRecord}
    (hf : forall tab, (f tab).id = tab.id) (id : JsString)
    (tabs : List TabRecord) :
    (mapTab id f tabs).map TabRecord.id = tabs.map TabRecord.id := by
  rw [mapTab, List.map_map]
  apply List.map_congr_left
  intro tab _
  simp only [Function.comp_apply]
  split
  · exact hf tab
  · rfl

/-!
## Reordering

Without a conflict the ids are those of the tabs in another order.
-/

theorem byId_eq_find {tabs : List TabRecord}
    (hdistinct : (tabs.map TabRecord.id).Nodup) (id : JsString) :
    byId tabs id = find tabs id := by
  cases hby : byId tabs id with
  | some tab =>
      rcases byId_mem hby with ⟨htab, hid⟩
      rw [← hid, find_of_mem hdistinct htab]
  | none =>
      cases hfind : find tabs id with
      | none => rfl
      | some tab =>
          rcases find_some hfind with ⟨htab, hid⟩
          have hnone := List.find?_eq_none.mp hby tab (List.mem_reverse.mpr htab)
          simp [hid] at hnone

theorem perm_of_orderConflict {revision : Nat} {ids : List JsString}
    (h : orderConflict revision ids current = false) :
    revision = current.structureRevision ∧
      ids.Perm (current.tabs.map TabRecord.id) := by
  simp only [orderConflict, Bool.or_eq_false_iff, decide_eq_false_iff_not,
    ne_eq, not_not, List.any_eq_false] at h
  rcases h with ⟨⟨⟨hrevision, hlength⟩, hset⟩, hpresent⟩
  refine ⟨hrevision, ?_⟩
  have hnodup : ids.Nodup :=
    (JsSet.nodup_of_length_addAll (s := []) (by
      rw [hset, hlength, List.length_nil, Nat.zero_add])).1
  have hsub : ids ⊆ current.tabs.map TabRecord.id := by
    intro id hid
    have hany := hpresent id hid
    simp only [Bool.not_eq_true, Bool.not_eq_false', List.any_eq_true,
      decide_eq_true_eq] at hany
    rcases hany with ⟨tab, htab, heq⟩
    exact List.mem_map.mpr ⟨tab, htab, heq⟩
  apply (hnodup.subperm hsub).perm_of_length_le
  rw [List.length_map, hlength]

theorem orderConflict_of_perm {ids : List JsString}
    (hnodup : (current.tabs.map TabRecord.id).Nodup)
    (h : ids.Perm (current.tabs.map TabRecord.id)) :
    orderConflict current.structureRevision ids current = false := by
  have hlength : ids.length = current.tabs.length := by
    rw [h.length_eq, List.length_map]
  have hset : (JsSet.addAll [] ids).length = current.tabs.length := by
    rw [JsSet.length_addAll (s := []) (h.nodup_iff.mpr hnodup), hlength]
    exact Nat.zero_add _
  simp only [orderConflict, Bool.or_eq_false_iff, decide_eq_false_iff_not,
    ne_eq, not_not, List.any_eq_false]
  refine ⟨⟨⟨trivial, hlength⟩, hset⟩, ?_⟩
  intro id hid
  rcases List.mem_map.mp (h.mem_iff.mp hid) with ⟨tab, htab, heq⟩
  simp only [Bool.not_eq_true, Bool.not_eq_false', List.any_eq_true,
    decide_eq_true_eq]
  exact ⟨tab, htab, heq⟩

theorem ids_chosen {tabs : List TabRecord} {ids : List JsString}
    (h : forall id, id ∈ ids -> id ∈ tabs.map TabRecord.id) :
    (ids.filterMap (byId tabs)).map TabRecord.id = ids := by
  induction ids with
  | nil => rfl
  | cons id ids ih =>
      rcases List.mem_map.mp (h id List.mem_cons_self) with ⟨tab, htab, hid⟩
      have hsome : (byId tabs id).isSome = true := by
        rw [byId, List.find?_isSome]
        exact ⟨tab, List.mem_reverse.mpr htab, by simpa using hid⟩
      rcases Option.isSome_iff_exists.mp hsome with ⟨found, hfound⟩
      rw [List.filterMap_cons_some hfound, List.map_cons, (byId_mem hfound).2,
        ih fun id hid => h id (List.mem_cons_of_mem _ hid)]

theorem find_chosen {ids : List JsString}
    (hdistinct : (current.tabs.map TabRecord.id).Nodup)
    (hperm : ids.Perm (current.tabs.map TabRecord.id)) {id : JsString}
    {tab : TabRecord} (h : find current.tabs id = some tab) :
    find (ids.filterMap (byId current.tabs)) id = some tab := by
  have hids := ids_chosen fun id hid => hperm.mem_iff.mp hid
  have hnodup : ((ids.filterMap (byId current.tabs)).map
      TabRecord.id).Nodup := by
    rw [hids]
    exact hperm.nodup_iff.mpr hdistinct
  rcases find_some h with ⟨htab, hid⟩
  have hmem : tab ∈ ids.filterMap (byId current.tabs) := by
    refine List.mem_filterMap.mpr ⟨id, ?_, ?_⟩
    · rw [← hid]
      exact hperm.mem_iff.mpr (List.mem_map_of_mem htab)
    · rw [byId_eq_find hdistinct, h]
  rw [← hid]
  exact find_of_mem hnodup hmem

/-!
## Desired states

Only `setDesiredState` and `remove` of a tab change the desired state of a tab
that is there.
-/

def desiredOf (document : PersistedTabsDocument) (id : JsString) :
    Option DesiredState :=
  (find document.tabs id).map TabRecord.desiredState

/-- The tab whose desired state or presence a mutation changes. -/
def touched : Mutation -> Option JsString
  | Mutation.setDesiredState id _ => some id
  | Mutation.remove id => some id
  | _ => none

theorem desiredOf_some {document : PersistedTabsDocument} {id : JsString}
    {state : DesiredState} (h : desiredOf document id = some state) :
    exists tab, find document.tabs id = some tab ∧
      tab.desiredState = state := by
  rcases Option.map_eq_some_iff.mp h with ⟨tab, hfind, hstate⟩
  exact ⟨tab, hfind, hstate⟩

theorem find_append_left {tabs more : List TabRecord} {id : JsString}
    {tab : TabRecord} (h : find tabs id = some tab) :
    find (tabs ++ more) id = some tab := by
  have hfind : tabs.find? (fun tab => tab.id = id) = some tab := h
  rw [find, List.find?_append, hfind]
  rfl

/-- What a commit keeps of a tab that it does not touch: everything but its
name, its position and its last activity. -/
theorem Committed.untouched {mutation : Mutation}
    {after : PersistedTabsDocument} (hvalid : Valid options.nfc current)
    (h : Committed options sources current mutation after) {id : JsString}
    {tab : TabRecord} (hfind : find current.tabs id = some tab)
    (hother : touched mutation ≠ some id) :
    exists tab', find after.tabs id = some tab' ∧
      tab'.createdAt = tab.createdAt ∧
      tab'.desiredState = tab.desiredState := by
  cases h with
  | create title new _ _ =>
      exact ⟨tab, find_append_left hfind, rfl, rfl⟩
  | present _ => exact ⟨tab, hfind, rfl, rfl⟩
  | initial new hnil _ _ =>
      rw [hnil] at hfind
      cases hfind
  | rename title old _ _ _ =>
      rw [find_mapTab (f := withDisplayName title) (fun _ => rfl), hfind]
      refine ⟨_, rfl, ?_⟩
      dsimp only
      split
      · exact ⟨rfl, rfl⟩
      · exact ⟨rfl, rfl⟩
  | reorder hconflict =>
      have hperm := (perm_of_orderConflict hconflict).2
      rcases find_renumber (find_chosen hvalid.distinct hperm hfind) with
        ⟨position, hposition⟩
      exact ⟨_, hposition, rfl, rfl⟩
  | @setDesiredState target state old _ _ =>
      have hne : id ≠ target := by
        intro heq
        exact hother (congrArg some heq.symm)
      rw [find_mapTab_ne (f := withDesiredState state) (fun _ => rfl) _ hne]
      exact ⟨tab, hfind, rfl, rfl⟩
  | @remove target old _ _ =>
      have hne : id ≠ target := by
        intro heq
        exact hother (congrArg some heq.symm)
      rw [← find_filter_ne current.tabs hne] at hfind
      rcases find_renumber hfind with ⟨position, hposition⟩
      exact ⟨_, hposition, rfl, rfl⟩
  | quiet _ => exact ⟨tab, hfind, rfl, rfl⟩
  | flushActivity =>
      rw [find_map (withLastActivity_id _ _), hfind]
      refine ⟨_, rfl, ?_⟩
      unfold withLastActivity
      split
      · exact ⟨rfl, rfl⟩
      · exact ⟨rfl, rfl⟩

theorem Committed.desired {mutation : Mutation}
    {after : PersistedTabsDocument} (hvalid : Valid options.nfc current)
    (h : Committed options sources current mutation after) {id : JsString}
    {state : DesiredState} (hstate : desiredOf current id = some state)
    (hother : touched mutation ≠ some id) :
    desiredOf after id = some state := by
  rcases desiredOf_some hstate with ⟨tab, hfind, hdesired⟩
  rcases h.untouched hvalid hfind hother with ⟨tab', hfind', _, hdesired'⟩
  rw [desiredOf, hfind', Option.map_some, hdesired', hdesired]

theorem Committed.set {id : JsString} {state : DesiredState}
    {after : PersistedTabsDocument}
    (h : Committed options sources current
      (Mutation.setDesiredState id state) after) :
    desiredOf after id = some state ∧
      (desiredOf current id).isSome = true ∧
      forall key, key ≠ id -> find after.tabs key = find current.tabs key := by
  cases h with
  | setDesiredState tab htab hid =>
      have hsome : (find current.tabs id).isSome = true :=
        find_isSome_of_mem (List.mem_map.mpr ⟨tab, htab, hid⟩)
      rcases Option.isSome_iff_exists.mp hsome with ⟨found, hfound⟩
      refine ⟨?_, ?_, fun key hne => find_mapTab_ne
        (f := withDesiredState state) (fun _ => rfl) _ hne⟩
      · rw [desiredOf, find_mapTab (f := withDesiredState state)
          (fun _ => rfl), hfound]
        simp [(find_some hfound).2, withDesiredState]
      · rw [desiredOf, hfound]
        rfl

end Lemmas

end TabStore
end Server
end FlanTerminal

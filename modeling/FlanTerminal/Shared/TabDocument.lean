import Mathlib.Data.List.Nodup
import FlanTerminal.Shared.Tabs
import FlanTerminal.Shared.SafeString
import FlanTerminal.Foundation.Schema

/-!
# Tab records and documents

The schemas of the shared package for tabs.  A schema checks and transforms:
what it returns is the value with a trimmed and normalised display name.  All
values here have the right shape already; `none` is a refusal.
-/

namespace FlanTerminal
namespace Shared

open Foundation

def TAB_DOCUMENT_FORMAT_VERSION : Nat := 1

/-- `Number.MAX_SAFE_INTEGER`, the bound of an integer schema. -/
def MAX_SAFE_INTEGER : Nat := 2 ^ 53 - 1

inductive DesiredState where
  | active
  | stopped
  deriving DecidableEq, Repr

inductive SessionState where
  | running
  | stopped
  | unknown
  deriving DecidableEq, Repr

structure TabRecord where
  id : JsString
  displayName : JsString
  position : Nat
  createdAt : JsString
  lastActivityAt : JsString
  desiredState : DesiredState
  deriving DecidableEq

structure SessionHealth where
  state : SessionState
  attached : Bool
  bridgePid : Option Int
  deriving DecidableEq

structure TabView where
  record : TabRecord
  session : SessionHealth
  deriving DecidableEq

def TabView.id (view : TabView) : JsString :=
  view.record.id

/-- `PersistedTabsDocument`; the format version is the constant. -/
structure PersistedTabsDocument where
  structureRevision : Nat
  tabs : List TabRecord
  deriving DecidableEq

/-- `TabCollection`, what a snapshot of the store shows. -/
abbrev TabCollection := PersistedTabsDocument

structure TabCollectionResponse where
  structureRevision : Nat
  tabs : List TabView
  deriving DecidableEq

/-!
## Timestamps
-/

def isDigit (u : UInt16) : Bool :=
  48 ≤ u.toNat && u.toNat ≤ 57

def digitValue (u : UInt16) : Nat :=
  u.toNat - 48

def twoDigits (a b : UInt16) : Nat :=
  digitValue a * 10 + digitValue b

def isLeapYear (year : Nat) : Bool :=
  year % 4 == 0 && (year % 100 != 0 || year % 400 == 0)

def daysInMonth (year month : Nat) : Nat :=
  if month = 2 then if isLeapYear year then 29 else 28
  else if month = 4 ∨ month = 6 ∨ month = 9 ∨ month = 11 then 30
  else 31

/-- What follows the minutes: the end, or seconds with an optional fraction. -/
def isTimeTail : JsString -> Bool
  | [90] => true
  | 58 :: s1 :: s0 :: rest =>
      isDigit s1 && isDigit s0 && decide (twoDigits s1 s0 < 60) &&
        match rest with
        | [90] => true
        | 46 :: fraction =>
            fraction.getLast? == some 90 && fraction.dropLast.all isDigit &&
              decide (fraction.dropLast ≠ [])
        | _ => false
  | _ => false

/-- `z.iso.datetime({ offset: false })`: a date of the calendar, a time of day
and `Z`. -/
def isUtcTimestamp : JsString -> Bool
  | y3 :: y2 :: y1 :: y0 :: 45 :: m1 :: m0 :: 45 :: d1 :: d0 :: 84 ::
      h1 :: h0 :: 58 :: n1 :: n0 :: rest =>
      [y3, y2, y1, y0, m1, m0, d1, d0, h1, h0, n1, n0].all isDigit &&
        decide (1 ≤ twoDigits m1 m0 ∧ twoDigits m1 m0 ≤ 12) &&
        decide (1 ≤ twoDigits d1 d0 ∧ twoDigits d1 d0 ≤
          daysInMonth (twoDigits y3 y2 * 100 + twoDigits y1 y0)
            (twoDigits m1 m0)) &&
        decide (twoDigits h1 h0 < 24) && decide (twoDigits n1 n0 < 60) &&
        isTimeTail rest
  | _ => false

/-!
## Schemas
-/

def displayNameOptions : SafeStringOptions :=
  ⟨none, true, true⟩

section Schema

variable (nfc : JsString -> JsString)

/-- `persistedDisplayNameSchema`. -/
def persistedDisplayName (name : JsString) : Option JsString :=
  (safeNormalizedString nfc displayNameOptions name).filter fun value =>
    decide (1 ≤ (codePoints value).length ∧ (codePoints value).length ≤ 80)

/-- `displayNameSchema`. -/
def displayName (name : JsString) : Option JsString :=
  (persistedDisplayName nfc name).filter fun value =>
    decide (utf8ByteLength value ≤ 128)

/-- `tabRecordSchema`. -/
def parseTabRecord (tab : TabRecord) : Option TabRecord :=
  match persistedDisplayName nfc tab.displayName with
  | none => none
  | some name =>
      if isSessionId tab.id = true ∧ tab.position ≤ MAX_SAFE_INTEGER ∧
          isUtcTimestamp tab.createdAt = true ∧
          isUtcTimestamp tab.lastActivityAt = true then
        some { tab with displayName := name }
      else none

/-- The refinement of the document schema: the ids differ, the positions
differ, and a position is the index of its tab. -/
def orderedTabs (tabs : List TabRecord) : Bool :=
  decide (tabs.map TabRecord.id).Nodup &&
    decide (tabs.map TabRecord.position).Nodup &&
    decide (tabs.map TabRecord.position = List.range tabs.length)

/-- `persistedTabsDocumentSchema`, and `parseDocument`. -/
def parseDocument (document : PersistedTabsDocument) :
    Option PersistedTabsDocument :=
  if document.structureRevision ≤ MAX_SAFE_INTEGER then
    match document.tabs.mapM (parseTabRecord nfc) with
    | none => none
    | some tabs =>
        if orderedTabs tabs then some ⟨document.structureRevision, tabs⟩
        else none
  else none

end Schema

/-!
## What the schemas accept

A schema changes nothing but the display names.
-/

variable {nfc : JsString -> JsString}

theorem persistedDisplayName_some {name out : JsString}
    (h : persistedDisplayName nfc name = some out) :
    safeNormalizedString nfc displayNameOptions name = some out ∧
      1 ≤ (codePoints out).length ∧ (codePoints out).length ≤ 80 := by
  rcases Option.filter_eq_some_iff.mp h with ⟨hsafe, hlength⟩
  exact ⟨hsafe, of_decide_eq_true hlength⟩

theorem displayName_some {name out : JsString}
    (h : displayName nfc name = some out) :
    persistedDisplayName nfc name = some out ∧ utf8ByteLength out ≤ 128 := by
  rcases Option.filter_eq_some_iff.mp h with ⟨hpersisted, hbytes⟩
  exact ⟨hpersisted, of_decide_eq_true hbytes⟩

structure RecordAccepted (nfc : JsString -> JsString) (tab out : TabRecord) :
    Prop where
  name : persistedDisplayName nfc tab.displayName = some out.displayName
  id : isSessionId tab.id = true
  position : tab.position ≤ MAX_SAFE_INTEGER
  createdAt : isUtcTimestamp tab.createdAt = true
  lastActivityAt : isUtcTimestamp tab.lastActivityAt = true
  rest : out = { tab with displayName := out.displayName }

theorem parseTabRecord_some {tab out : TabRecord} :
    parseTabRecord nfc tab = some out <-> RecordAccepted nfc tab out := by
  unfold parseTabRecord
  constructor
  · intro h
    split at h
    · cases h
    · rename_i name hname
      split at h
      · rename_i hchecks
        cases h
        exact ⟨hname, hchecks.1, hchecks.2.1, hchecks.2.2.1, hchecks.2.2.2,
          rfl⟩
      · cases h
  · intro h
    rw [h.name]
    have hchecks := And.intro h.id (And.intro h.position
      (And.intro h.createdAt h.lastActivityAt))
    simp only [hchecks, and_self, if_true]
    rw [← h.rest]

structure DocumentAccepted (nfc : JsString -> JsString)
    (document out : PersistedTabsDocument) : Prop where
  revision : out.structureRevision = document.structureRevision
  bounded : document.structureRevision ≤ MAX_SAFE_INTEGER
  records : List.Forall₂ (RecordAccepted nfc) document.tabs out.tabs
  distinct : (out.tabs.map TabRecord.id).Nodup
  positions : out.tabs.map TabRecord.position = List.range out.tabs.length

theorem parseDocument_some {document out : PersistedTabsDocument} :
    parseDocument nfc document = some out <->
      DocumentAccepted nfc document out := by
  unfold parseDocument
  constructor
  · intro h
    split at h
    · rename_i hbounded
      split at h
      · cases h
      · rename_i tabs htabs
        split at h
        · rename_i hordered
          cases h
          simp only [orderedTabs, Bool.and_eq_true, decide_eq_true_eq]
            at hordered
          have hrecords := mapM_some.mp htabs
          exact ⟨rfl, hbounded,
            hrecords.imp fun _ _ hrecord => parseTabRecord_some.mp hrecord,
            hordered.1.1, hordered.2⟩
        · cases h
    · cases h
  · intro h
    have htabs : document.tabs.mapM (parseTabRecord nfc) = some out.tabs :=
      mapM_some.mpr
        (h.records.imp fun _ _ hrecord => parseTabRecord_some.mpr hrecord)
    have hordered : orderedTabs out.tabs = true := by
      simp [orderedTabs, h.distinct, h.positions, List.nodup_range]
    rw [if_pos h.bounded, htabs]
    simp only [hordered, if_true]
    rw [← h.revision]

/-!
## Accepted as it is

Under the assumptions on normalisation the schemas leave alone what they have
returned.
-/

/-- The display name is one that its schema leaves as it is. -/
def Named (nfc : JsString -> JsString) (tab : TabRecord) : Prop :=
  persistedDisplayName nfc tab.displayName = some tab.displayName

theorem RecordAccepted.eq_of_named {tab out : TabRecord}
    (h : RecordAccepted nfc tab out) (hname : Named nfc tab) : out = tab := by
  have heq : out.displayName = tab.displayName :=
    Option.some.inj (h.name.symm.trans hname)
  rw [h.rest, heq]

theorem persistedDisplayName_idempotent (hnfc : NormalForm nfc)
    {name out : JsString} (h : persistedDisplayName nfc name = some out) :
    persistedDisplayName nfc out = some out := by
  rcases persistedDisplayName_some h with ⟨hsafe, hlength⟩
  rw [persistedDisplayName, safeNormalizedString_idempotent hnfc hsafe]
  simp [Option.filter, hlength.1, hlength.2]

theorem RecordAccepted.again (hnfc : NormalForm nfc) {tab out : TabRecord}
    (h : RecordAccepted nfc tab out) : RecordAccepted nfc out out := by
  have hname := persistedDisplayName_idempotent hnfc h.name
  rcases tab with ⟨id, name, position, createdAt, lastActivityAt, state⟩
  rcases out with ⟨id', name', position', createdAt', lastActivityAt', state'⟩
  have hrest := h.rest
  simp only [TabRecord.mk.injEq, true_and] at hrest
  rcases hrest with ⟨hid, hposition, hcreated, hactive, hstate⟩
  subst hid hposition hcreated hactive hstate
  exact ⟨hname, h.id, h.position, h.createdAt, h.lastActivityAt, rfl⟩

theorem forall₂_again (hnfc : NormalForm nfc) {tabs out : List TabRecord}
    (h : List.Forall₂ (RecordAccepted nfc) tabs out) :
    forall tab, tab ∈ out -> RecordAccepted nfc tab tab := by
  induction h with
  | nil => exact fun tab htab => absurd htab List.not_mem_nil
  | cons hhead _ ih =>
      intro tab htab
      rcases List.mem_cons.mp htab with htab | htab
      · rw [htab]
        exact hhead.again hnfc
      · exact ih tab htab

theorem forall₂_named {tabs out : List TabRecord}
    (hnamed : forall tab, tab ∈ tabs -> Named nfc tab)
    (h : List.Forall₂ (RecordAccepted nfc) tabs out) : out = tabs := by
  induction h with
  | nil => rfl
  | @cons tab _ rest _ hhead _ ih =>
      rw [ih fun tab htab => hnamed tab (List.mem_cons_of_mem _ htab),
        hhead.eq_of_named (hnamed tab List.mem_cons_self)]

/-- The document schema leaves this document as it is. -/
def Valid (nfc : JsString -> JsString) (document : PersistedTabsDocument) :
    Prop :=
  DocumentAccepted nfc document document

theorem Valid.record {document : PersistedTabsDocument}
    (h : Valid nfc document) :
    forall tab, tab ∈ document.tabs -> RecordAccepted nfc tab tab :=
  List.forall₂_same.mp h.records

theorem DocumentAccepted.valid (hnfc : NormalForm nfc)
    {document out : PersistedTabsDocument}
    (h : DocumentAccepted nfc document out) : Valid nfc out := by
  have hrecords := forall₂_again hnfc h.records
  exact ⟨rfl, h.revision ▸ h.bounded, List.forall₂_same.mpr hrecords,
    h.distinct, h.positions⟩

theorem Valid.named {document : PersistedTabsDocument}
    (h : Valid nfc document) :
    forall tab, tab ∈ document.tabs -> Named nfc tab :=
  fun tab htab => (h.record tab htab).name

theorem DocumentAccepted.eq_of_named {document out : PersistedTabsDocument}
    (h : DocumentAccepted nfc document out)
    (hnamed : forall tab, tab ∈ document.tabs -> Named nfc tab) :
    out = document := by
  rcases out with ⟨revision, tabs⟩
  rcases document with ⟨revision', tabs'⟩
  have htabs : tabs = tabs' := forall₂_named hnamed h.records
  have hrevision : revision = revision' := h.revision
  rw [htabs, hrevision]

theorem parseDocument_idempotent (hnfc : NormalForm nfc)
    {document out : PersistedTabsDocument}
    (h : parseDocument nfc document = some out) :
    parseDocument nfc out = some out :=
  parseDocument_some.mpr ((parseDocument_some.mp h).valid hnfc)

end Shared
end FlanTerminal

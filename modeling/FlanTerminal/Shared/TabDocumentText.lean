import FlanTerminal.Foundation.JsonText
import FlanTerminal.Shared.TabDocument
import FlanTerminal.Shared.TextFrames

/-!
# Tab documents as text

The document of the tabs is kept as the UTF-8 encoding of one JSON text.  This
module has the schemas on JSON values, the text of a document and what is read
from bytes; a document that its schema leaves as it is comes back from its own
text.
-/

namespace FlanTerminal
namespace Shared

open Foundation

/-!
## Schemas of JSON values
-/

/-- `z.number().int().nonnegative()`; a negative zero counts as zero. -/
def naturalNumber : Schema Nat
  | Json.num (JsNumber.finite q) =>
      if q.den = 1 ∧ 0 ≤ q.num ∧ q.num ≤ MAX_SAFE_INTEGER then
        some q.num.toNat
      else none
  | Json.num JsNumber.negZero => some 0
  | _ => none

def DesiredState.text : DesiredState -> JsString
  | active => js "active"
  | stopped => js "stopped"

def desiredStateSchema : Schema DesiredState :=
  Schema.enumeration [DesiredState.active, DesiredState.stopped]
    DesiredState.text

def recordKeys : List JsString :=
  [js "id", js "displayName", js "position", js "createdAt",
    js "lastActivityAt", js "desiredState"]

def documentKeys : List JsString :=
  [js "formatVersion", js "structureRevision", js "tabs"]

def readTabRecord (ms : JsMap JsString Json) : Option TabRecord := do
  let id ← Schema.field ms (js "id") (Schema.string some)
  let name ← Schema.field ms (js "displayName") (Schema.string some)
  let position ← Schema.field ms (js "position") naturalNumber
  let createdAt ← Schema.field ms (js "createdAt") (Schema.string some)
  let lastActivityAt ← Schema.field ms (js "lastActivityAt")
    (Schema.string some)
  let state ← Schema.field ms (js "desiredState") desiredStateSchema
  pure ⟨id, name, position, createdAt, lastActivityAt, state⟩

def tabRecordShape : Schema TabRecord :=
  Schema.strictObject recordKeys readTabRecord

def formatVersionSchema : Schema Unit
  | Json.num (JsNumber.finite q) =>
      if q = TAB_DOCUMENT_FORMAT_VERSION then some () else none
  | _ => none

def readDocument (ms : JsMap JsString Json) :
    Option PersistedTabsDocument := do
  let _ ← Schema.field ms (js "formatVersion") formatVersionSchema
  let revision ← Schema.field ms (js "structureRevision") naturalNumber
  let tabs ← Schema.field ms (js "tabs")
    (Schema.array tabRecordShape fun _ => true)
  pure ⟨revision, tabs⟩

/-- `persistedTabsDocumentSchema` on what `JSON.parse` has returned. -/
def persistedTabsDocumentSchema (nfc : JsString -> JsString) :
    Schema PersistedTabsDocument :=
  fun v => (Schema.strictObject documentKeys readDocument v).bind
    (parseDocument nfc)

/-!
## The text of a document
-/

def naturalJson (n : Nat) : Json :=
  Json.num (JsNumber.finite n)

def TabRecord.members (tab : TabRecord) : List (JsString × Json) :=
  [(js "id", Json.str tab.id), (js "displayName", Json.str tab.displayName),
    (js "position", naturalJson tab.position),
    (js "createdAt", Json.str tab.createdAt),
    (js "lastActivityAt", Json.str tab.lastActivityAt),
    (js "desiredState", Json.str tab.desiredState.text)]

def PersistedTabsDocument.json (document : PersistedTabsDocument) : Json :=
  Json.obj [(js "formatVersion", naturalJson TAB_DOCUMENT_FORMAT_VERSION),
    (js "structureRevision", naturalJson document.structureRevision),
    (js "tabs", Json.arr (document.tabs.map fun tab => Json.obj tab.members))]

def PersistedTabsDocument.serialized (document : PersistedTabsDocument) :
    JsString :=
  Json.stringify document.json ++ [10]

/-- What is made of the bytes of a document. -/
def decodeDocument (nfc : JsString -> JsString) (bytes : List UInt8) :
    Option PersistedTabsDocument :=
  ((decodeUtf8 bytes).bind fun text =>
    Json.parse (dropByteOrderMark text)).bind (persistedTabsDocumentSchema nfc)

/-!
## Reading back
-/

variable {nfc : JsString -> JsString}

theorem naturalNumber_natural {n : Nat} (h : n ≤ MAX_SAFE_INTEGER) :
    naturalNumber (naturalJson n) = some n := by
  unfold naturalJson naturalNumber
  dsimp only
  rw [Rat.num_natCast, Rat.den_natCast]
  rw [if_pos ⟨rfl, Int.natCast_nonneg n, by exact_mod_cast h⟩]
  rfl

theorem desiredState_text (state : DesiredState) :
    desiredStateSchema (Json.str state.text) = some state := by
  cases state with
  | active => decide
  | stopped => decide

theorem tabRecordShape_members {tab : TabRecord}
    (h : tab.position ≤ MAX_SAFE_INTEGER) :
    tabRecordShape (Json.obj tab.members) = some tab := by
  apply Schema.strictObject_of
  · rfl
  · unfold readTabRecord
    have hid : Schema.field tab.members (js "id") (Schema.string some) =
        some tab.id := rfl
    have hname : Schema.field tab.members (js "displayName")
        (Schema.string some) = some tab.displayName := rfl
    have hposition : Schema.field tab.members (js "position") naturalNumber =
        some tab.position := naturalNumber_natural h
    have hcreated : Schema.field tab.members (js "createdAt")
        (Schema.string some) = some tab.createdAt := rfl
    have hactive : Schema.field tab.members (js "lastActivityAt")
        (Schema.string some) = some tab.lastActivityAt := rfl
    have hstate : Schema.field tab.members (js "desiredState")
        desiredStateSchema = some tab.desiredState :=
      desiredState_text tab.desiredState
    rw [hid, hname, hposition, hcreated, hactive, hstate]
    rfl

theorem mapM_members {tabs : List TabRecord}
    (h : forall tab, tab ∈ tabs -> tab.position ≤ MAX_SAFE_INTEGER) :
    (tabs.map fun tab => Json.obj tab.members).mapM tabRecordShape =
      some tabs := by
  induction tabs with
  | nil => rfl
  | cons tab tabs ih =>
      rw [List.map_cons, List.mapM_cons,
        tabRecordShape_members (h tab List.mem_cons_self),
        ih fun tab htab => h tab (List.mem_cons_of_mem _ htab)]
      rfl

theorem schema_json {document : PersistedTabsDocument}
    (hrevision : document.structureRevision ≤ MAX_SAFE_INTEGER)
    (htabs : forall tab, tab ∈ document.tabs ->
      tab.position ≤ MAX_SAFE_INTEGER) :
    persistedTabsDocumentSchema nfc document.json =
      parseDocument nfc document := by
  have hshape : Schema.strictObject documentKeys readDocument document.json =
      some document := by
    apply Schema.strictObject_of
    · rfl
    · unfold readDocument
      have hversion : forall rest, Schema.field
          ((js "formatVersion", naturalJson TAB_DOCUMENT_FORMAT_VERSION) :: rest)
          (js "formatVersion") formatVersionSchema = some () := by
        intro _
        show formatVersionSchema (naturalJson TAB_DOCUMENT_FORMAT_VERSION) = _
        decide
      have hrev : forall rest, Schema.field
          ((js "formatVersion", naturalJson TAB_DOCUMENT_FORMAT_VERSION) ::
            (js "structureRevision", naturalJson document.structureRevision) ::
              rest)
          (js "structureRevision") naturalNumber =
            some document.structureRevision :=
        fun _ => naturalNumber_natural hrevision
      have hlist : forall a b, Schema.field
          [(js "formatVersion", a), (js "structureRevision", b), (js "tabs",
            Json.arr (document.tabs.map fun tab => Json.obj tab.members))]
          (js "tabs") (Schema.array tabRecordShape fun _ => true) =
            some document.tabs := by
        intro a b
        show ((document.tabs.map fun tab => Json.obj tab.members).mapM
          tabRecordShape).filter _ = _
        rw [mapM_members htabs]
        rfl
      rw [hversion, hrev, hlist]
      rfl
  unfold persistedTabsDocumentSchema
  rw [hshape]
  rfl

theorem naturalJson_readable {n : Nat} (h : n ≤ MAX_SAFE_INTEGER) :
    Json.Readable (naturalJson n) := by
  unfold naturalJson
  rw [Json.Readable]
  exact Json.readsBack_nat (Nat.lt_of_le_of_lt h (by decide))

theorem members_readable {tab : TabRecord}
    (h : tab.position ≤ MAX_SAFE_INTEGER) :
    Json.Readable (Json.obj tab.members) := by
  rw [Json.Readable]
  constructor
  · show recordKeys.Nodup
    decide
  · simp only [TabRecord.members, Json.ReadableMembers, Json.Readable,
      naturalJson_readable h, and_self]

theorem items_readable {tabs : List TabRecord}
    (h : forall tab, tab ∈ tabs -> tab.position ≤ MAX_SAFE_INTEGER) :
    Json.ReadableItems (tabs.map fun tab => Json.obj tab.members) := by
  induction tabs with
  | nil =>
      rw [List.map_nil, Json.ReadableItems]
      trivial
  | cons tab tabs ih =>
      rw [List.map_cons, Json.ReadableItems]
      exact ⟨members_readable (h tab List.mem_cons_self),
        ih fun tab htab => h tab (List.mem_cons_of_mem _ htab)⟩

theorem json_readable {document : PersistedTabsDocument}
    (hrevision : document.structureRevision ≤ MAX_SAFE_INTEGER)
    (htabs : forall tab, tab ∈ document.tabs ->
      tab.position ≤ MAX_SAFE_INTEGER) : Json.Readable document.json := by
  have hversion := naturalJson_readable (n := TAB_DOCUMENT_FORMAT_VERSION)
    (by decide)
  rw [PersistedTabsDocument.json, Json.Readable]
  constructor
  · show documentKeys.Nodup
    decide
  · simp only [Json.ReadableMembers, Json.Readable, hversion,
      naturalJson_readable hrevision, items_readable htabs, and_self]

theorem dropByteOrderMark_serialized (document : PersistedTabsDocument) :
    dropByteOrderMark document.serialized = document.serialized := by
  apply dropByteOrderMark_of_ne
  intro rest h
  have hhead : document.serialized.head? = some 123 := rfl
  rw [h] at hhead
  cases hhead

theorem decode_serialized {document : PersistedTabsDocument}
    (h : Valid nfc document) :
    decodeDocument nfc (utf8Bytes document.serialized) = some document := by
  have htabs : forall tab, tab ∈ document.tabs ->
      tab.position ≤ MAX_SAFE_INTEGER := fun tab htab =>
    (h.record tab htab).position
  have hreadable := json_readable h.bounded htabs
  have hformed : isWellFormed document.serialized = true :=
    Json.isWellFormed_append (Json.isWellFormed_stringify _ hreadable) rfl
  unfold decodeDocument
  rw [decodeUtf8_utf8Bytes hformed, Option.bind_some,
    dropByteOrderMark_serialized]
  unfold PersistedTabsDocument.serialized
  rw [Json.parse_stringify hreadable, Option.bind_some,
    schema_json h.bounded htabs]
  exact parseDocument_some.mpr h

/-!
## Size

With timestamps as the clock writes them, twenty records are far below the limit
of a document.
-/

/-- A timestamp in the form of `toISOString`. -/
def isIsoTimestamp (value : JsString) : Bool :=
  isUtcTimestamp value && value.length == 24

theorem utf8ByteLength_append_le (s t : JsString) :
    utf8ByteLength (s ++ t) ≤ utf8ByteLength s + utf8ByteLength t := by
  induction s using utf8ByteLength.induct with
  | case1 => simp
  | case2 u =>
      cases t with
      | nil => simp
      | cons v t =>
          by_cases hpair : (isHighSurrogate u && isLowSurrogate v) = true
          · have hlow := (Bool.and_eq_true_iff.mp hpair).2
            have hhigh := (Bool.and_eq_true_iff.mp hpair).1
            have hv : isHighSurrogate v = false := by
              simp only [isLowSurrogate, isHighSurrogate, Bool.and_eq_true,
                decide_eq_true_eq, Bool.and_eq_false_iff,
                decide_eq_false_iff_not] at hlow ⊢
              omega
            have hunit : forall w : UInt16, 0x800 ≤ w.toNat ->
                unitBytes w = 3 := by
              intro w hw
              unfold unitBytes
              rw [if_neg (by omega), if_neg (by omega)]
            have htext : utf8ByteLength ([u] ++ v :: t) =
                4 + utf8ByteLength t := utf8ByteLength_pair hhigh hlow t
            have hu : utf8ByteLength [u] = unitBytes u := rfl
            simp only [isHighSurrogate, isLowSurrogate, Bool.and_eq_true,
              decide_eq_true_eq] at hhigh hlow
            rw [htext, utf8ByteLength_cons hv, hu, hunit u (by omega),
              hunit v (by omega)]
            omega
          · have htext : utf8ByteLength ([u] ++ v :: t) =
                unitBytes u + utf8ByteLength (v :: t) := by
              show utf8ByteLength (u :: v :: t) = _
              rw [utf8ByteLength, if_neg hpair]
            rw [htext]
            exact Nat.le_refl _
  | case3 u v rest hpair ih =>
      rw [List.cons_append, List.cons_append, utf8ByteLength, if_pos hpair,
        utf8ByteLength, if_pos hpair, Nat.add_assoc]
      exact Nat.add_le_add_left ih 4
  | case4 u v rest hpair ih =>
      rw [List.cons_append, List.cons_append, utf8ByteLength, if_neg hpair,
        utf8ByteLength, if_neg hpair, Nat.add_assoc]
      exact Nat.add_le_add_left ih _

theorem unitCost_le (u : UInt16) : Json.unitCost u ≤ 6 := by
  unfold Json.unitCost unitBytes
  split
  · decide
  · split
    · decide
    · split
      · decide
      · split
        · decide
        · decide

theorem escapedBytes_le (s : JsString) :
    Json.escapedBytes s ≤ 6 * s.length := by
  induction s using Json.escapedBytes.induct with
  | case1 => simp [Json.escapedBytes]
  | case2 u =>
      have := unitCost_le u
      simpa [Json.escapedBytes] using this
  | case3 u v rest hpair ih =>
      rw [Json.escapedBytes, if_pos hpair]
      simp only [List.length_cons]
      omega
  | case4 u v rest hpair ih =>
      have hu := unitCost_le u
      rw [Json.escapedBytes, if_neg hpair]
      simp only [List.length_cons] at ih ⊢
      omega

theorem escapedBytes_safe {options : SafeStringOptions} {s : JsString}
    (h : (codePoints s).all (isSafeCharacter options) = true) :
    Json.escapedBytes s ≤ 4 * (codePoints s).length := by
  have hcost : forall u : UInt16, isSafeCharacter options u.toNat = true ->
      Json.unitCost u ≤ 4 := by
    intro u hu
    unfold isSafeCharacter at hu
    have hplain : isForbidden u.toNat = false := by
      rw [Bool.and_eq_true] at hu
      simpa using hu.1
    simp only [isForbidden, Bool.or_eq_false_iff, decide_eq_false_iff_not,
      Bool.and_eq_false_iff] at hplain
    unfold Json.unitCost unitBytes
    split
    · decide
    · split
      · rename_i hbad
        simp only [isSurrogate, Bool.and_eq_true, decide_eq_true_eq] at hbad
        omega
      · split
        · decide
        · split
          · decide
          · decide
  induction s using Json.escapedBytes.induct with
  | case1 => simp [Json.escapedBytes]
  | case2 u =>
      have hu := hcost u (by simpa [codePoints] using h)
      simpa [Json.escapedBytes, codePoints] using hu
  | case3 u v rest hpair ih =>
      rw [codePoints, if_pos hpair, List.all_cons, Bool.and_eq_true] at h
      have hrest := ih h.2
      rw [Json.escapedBytes, if_pos hpair, codePoints, if_pos hpair,
        List.length_cons]
      omega
  | case4 u v rest hpair ih =>
      rw [codePoints, if_neg hpair, List.all_cons, Bool.and_eq_true] at h
      have hrest := ih h.2
      have hu := hcost u h.1
      rw [Json.escapedBytes, if_neg hpair, codePoints, if_neg hpair,
        List.length_cons]
      omega

theorem utf8ByteLength_quote (s : JsString) :
    utf8ByteLength (Json.quote s) = Json.escapedBytes s + 2 := by
  have hhigh : isHighSurrogate 34 = false := by decide
  show utf8ByteLength (34 :: (Json.escape s ++ [34])) = _
  rw [utf8ByteLength_cons hhigh, Json.utf8ByteLength_escape]
  show 1 + (Json.escapedBytes s + 1) = _
  omega

theorem utf8ByteLength_member_le (k : JsString) (v : Json)
    (ms : List (JsString × Json)) :
    utf8ByteLength (Json.stringifyMembers ((k, v) :: ms)) ≤
      Json.escapedBytes k + utf8ByteLength (Json.stringify v) + 4 +
        utf8ByteLength (Json.stringifyMembers ms) := by
  have hone : forall (u : UInt16) (s : JsString), u.toNat < 0x80 ->
      utf8ByteLength (u :: s) = 1 + utf8ByteLength s := by
    intro u s hu
    exact @utf8ByteLength_ascii_append [u]
      (fun v hv => by rw [List.mem_singleton.mp hv]; exact hu) s
  have hkey := utf8ByteLength_quote k
  cases ms with
  | nil =>
      have happ := utf8ByteLength_append_le (Json.quote k)
        (58 :: Json.stringify v)
      rw [hone 58 _ (by decide)] at happ
      show utf8ByteLength (Json.quote k ++ 58 :: Json.stringify v) ≤ _
      omega
  | cons m ms =>
      have happ := utf8ByteLength_append_le
        (Json.quote k ++ 58 :: Json.stringify v)
        (44 :: Json.stringifyMembers (m :: ms))
      have hfirst := utf8ByteLength_append_le (Json.quote k)
        (58 :: Json.stringify v)
      rw [hone 58 _ (by decide)] at hfirst
      rw [hone 44 _ (by decide)] at happ
      rw [Json.stringifyMembers]
      simp only [List.append_assoc, List.cons_append] at happ hfirst ⊢
      omega

theorem utf8ByteLength_items_le {xs : List Json} {bound : Nat}
    (h : forall x, x ∈ xs -> utf8ByteLength (Json.stringify x) ≤ bound) :
    utf8ByteLength (Json.stringifyItems xs) ≤ xs.length * (bound + 1) := by
  have hone : forall s : JsString,
      utf8ByteLength (44 :: s) = 1 + utf8ByteLength s := fun s =>
    utf8ByteLength_cons (by decide) s
  induction xs with
  | nil =>
      rw [Json.stringifyItems]
      exact Nat.zero_le _
  | cons x xs ih =>
      have hx := h x List.mem_cons_self
      have hrest := ih fun y hy => h y (List.mem_cons_of_mem _ hy)
      rw [List.length_cons, Nat.add_mul]
      cases xs with
      | nil =>
          rw [Json.stringifyItems]
          omega
      | cons y ys =>
          have happ := utf8ByteLength_append_le (Json.stringify x)
            (44 :: Json.stringifyItems (y :: ys))
          rw [hone] at happ
          rw [Json.stringifyItems]
          omega

theorem utf8ByteLength_natural {n : Nat} (h : n ≤ MAX_SAFE_INTEGER) :
    utf8ByteLength (Json.stringify (naturalJson n)) ≤ 16 := by
  have hlt : n < 2 ^ 53 := Nat.lt_of_le_of_lt h (by decide)
  have htext : Json.stringify (naturalJson n) = decimalDigits n := by
    unfold naturalJson
    rw [(Json.readsBack_nat hlt).written, text_nat hlt]
  have hascii : forall u, u ∈ decimalDigits n -> u.toNat < 0x80 := by
    intro u hu
    have := decimalDigits_ascii n u hu
    omega
  have hlength := utf8ByteLength_ascii_append hascii []
  rw [List.append_nil] at hlength
  rw [htext, hlength]
  exact (length_decimalDigits_le (by decide)).mpr (by omega)

theorem utf8ByteLength_string (s : JsString) :
    utf8ByteLength (Json.stringify (Json.str s)) = Json.escapedBytes s + 2 :=
  utf8ByteLength_quote s

theorem utf8ByteLength_braces (s : JsString) :
    utf8ByteLength (123 :: s ++ [125]) ≤ utf8ByteLength s + 2 := by
  have happ := utf8ByteLength_append_le s [125]
  have hone : utf8ByteLength (123 :: (s ++ [125])) =
      1 + utf8ByteLength (s ++ [125]) := utf8ByteLength_cons (by decide) _
  have hlast : utf8ByteLength [125] = 1 := rfl
  rw [List.cons_append, hone]
  omega

/-- A record of the store takes at most 999 bytes. -/
theorem utf8ByteLength_record {tab : TabRecord}
    (h : RecordAccepted nfc tab tab) (hnfc : NormalForm nfc)
    (hcreated : isIsoTimestamp tab.createdAt = true)
    (hactive : isIsoTimestamp tab.lastActivityAt = true) :
    utf8ByteLength (Json.stringify (Json.obj tab.members)) ≤ 999 := by
  have hid := escapedBytes_le tab.id
  rw [isSessionId_length h.id] at hid
  have hname : Json.escapedBytes tab.displayName ≤ 320 := by
    rcases persistedDisplayName_some h.name with ⟨hsafe, hlength⟩
    have hbytes := escapedBytes_safe
      (safeNormalizedString_safe hnfc hsafe).characters
    omega
  have hiso : forall t, isIsoTimestamp t = true -> Json.escapedBytes t ≤ 144 := by
    intro t ht
    have hbytes := escapedBytes_le t
    rw [isIsoTimestamp, Bool.and_eq_true, beq_iff_eq] at ht
    omega
  have hc := hiso _ hcreated
  have ha := hiso _ hactive
  have hp := utf8ByteLength_natural h.position
  have hstate : Json.escapedBytes tab.desiredState.text ≤ 7 := by
    cases tab.desiredState with
    | active => decide
    | stopped => decide
  have hbraces := utf8ByteLength_braces (Json.stringifyMembers tab.members)
  have hkeys : Json.escapedBytes (js "id") = 2 ∧
      Json.escapedBytes (js "displayName") = 11 ∧
      Json.escapedBytes (js "position") = 8 ∧
      Json.escapedBytes (js "createdAt") = 9 ∧
      Json.escapedBytes (js "lastActivityAt") = 14 ∧
      Json.escapedBytes (js "desiredState") = 12 := by decide
  have hempty : utf8ByteLength (Json.stringifyMembers []) = 0 := rfl
  have hmembers : utf8ByteLength (Json.stringifyMembers tab.members) ≤ 997 := by
    unfold TabRecord.members
    have h1 := utf8ByteLength_member_le (js "id") (Json.str tab.id)
      (TabRecord.members tab).tail
    have h2 := utf8ByteLength_member_le (js "displayName")
      (Json.str tab.displayName) (TabRecord.members tab).tail.tail
    have h3 := utf8ByteLength_member_le (js "position")
      (naturalJson tab.position) (TabRecord.members tab).tail.tail.tail
    have h4 := utf8ByteLength_member_le (js "createdAt")
      (Json.str tab.createdAt) (TabRecord.members tab).tail.tail.tail.tail
    have h5 := utf8ByteLength_member_le (js "lastActivityAt")
      (Json.str tab.lastActivityAt)
      [(js "desiredState", Json.str tab.desiredState.text)]
    have h6 := utf8ByteLength_member_le (js "desiredState")
      (Json.str tab.desiredState.text) []
    simp only [TabRecord.members, List.tail_cons, utf8ByteLength_string, hkeys]
      at h1 h2 h3 h4 h5 h6
    omega
  rw [Json.stringify]
  omega

/-- Twenty records fit in 64 KiB. -/
theorem serialized_fits {document : PersistedTabsDocument}
    (h : Valid nfc document) (hnfc : NormalForm nfc)
    (hcount : document.tabs.length ≤ 20)
    (hiso : forall tab, tab ∈ document.tabs ->
      isIsoTimestamp tab.createdAt = true ∧
        isIsoTimestamp tab.lastActivityAt = true) :
    utf8ByteLength document.serialized ≤ 64 * 1024 := by
  have hitems : utf8ByteLength (Json.stringifyItems
      (document.tabs.map fun tab => Json.obj tab.members)) ≤
        (document.tabs.map fun tab => Json.obj tab.members).length *
          (999 + 1) := by
    apply utf8ByteLength_items_le
    intro x hx
    rcases List.mem_map.mp hx with ⟨tab, htab, heq⟩
    rw [← heq]
    exact utf8ByteLength_record (h.record tab htab) hnfc (hiso tab htab).1
      (hiso tab htab).2
  rw [List.length_map] at hitems
  have hlist : utf8ByteLength (Json.stringify (Json.arr (document.tabs.map
      fun tab => Json.obj tab.members))) ≤ 20000 + 2 := by
    have happ := utf8ByteLength_append_le (Json.stringifyItems
      (document.tabs.map fun tab => Json.obj tab.members)) [93]
    have hone : forall s : JsString, utf8ByteLength (91 :: s) =
        1 + utf8ByteLength s := fun s => utf8ByteLength_cons (by decide) s
    have hlast : utf8ByteLength [93] = 1 := rfl
    rw [Json.stringify, List.cons_append, hone]
    omega
  have hversion := utf8ByteLength_natural (n := TAB_DOCUMENT_FORMAT_VERSION)
    (by decide)
  have hrevision := utf8ByteLength_natural h.bounded
  have hkeys : Json.escapedBytes (js "formatVersion") = 13 ∧
      Json.escapedBytes (js "structureRevision") = 17 ∧
      Json.escapedBytes (js "tabs") = 4 := by decide
  have hempty : utf8ByteLength (Json.stringifyMembers []) = 0 := rfl
  have hfeed := utf8ByteLength_append_le (Json.stringify document.json) [10]
  have hlast : utf8ByteLength [10] = 1 := rfl
  have h1 := utf8ByteLength_member_le (js "formatVersion")
    (naturalJson TAB_DOCUMENT_FORMAT_VERSION)
    [(js "structureRevision", naturalJson document.structureRevision),
      (js "tabs", Json.arr (document.tabs.map fun tab =>
        Json.obj tab.members))]
  have h2 := utf8ByteLength_member_le (js "structureRevision")
    (naturalJson document.structureRevision)
    [(js "tabs", Json.arr (document.tabs.map fun tab =>
      Json.obj tab.members))]
  have h3 := utf8ByteLength_member_le (js "tabs")
    (Json.arr (document.tabs.map fun tab => Json.obj tab.members)) []
  have hbraces := utf8ByteLength_braces (Json.stringifyMembers
    [(js "formatVersion", naturalJson TAB_DOCUMENT_FORMAT_VERSION),
      (js "structureRevision", naturalJson document.structureRevision),
      (js "tabs", Json.arr (document.tabs.map fun tab =>
        Json.obj tab.members))])
  rw [hkeys.1] at h1
  rw [hkeys.2.1] at h2
  rw [hkeys.2.2] at h3
  have htext : Json.stringify document.json = 123 :: Json.stringifyMembers
      [(js "formatVersion", naturalJson TAB_DOCUMENT_FORMAT_VERSION),
        (js "structureRevision", naturalJson document.structureRevision),
        (js "tabs", Json.arr (document.tabs.map fun tab =>
          Json.obj tab.members))] ++ [125] := by
    rw [PersistedTabsDocument.json, Json.stringify]
  unfold PersistedTabsDocument.serialized
  rw [htext] at hfeed ⊢
  omega

end Shared
end FlanTerminal

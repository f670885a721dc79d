import Mathlib.Data.List.Perm.Basic
import FlanTerminal.Shared.SafeString

/-!
# The session cookie

The token of an application session is looked for in the raw header fields of a
request.  Nothing is returned unless one cookie has the name of the session,
and a request that goes beyond a limit has no session at all.

The loops give up as soon as a running total is too large.  Below they are
compared with the totals of the whole request, which do not depend on an order.
-/

namespace FlanTerminal
namespace Server
namespace SessionCookie

open Foundation
open Shared

def SESSION_COOKIE_NAME : JsString := js "flanterminal_session"

def MAX_COOKIE_HEADER_BYTES : Nat := 8 * 1024
def MAX_COOKIE_PAIRS : Nat := 32
def MAX_RAW_HEADER_ITEMS : Nat := 128
def MAX_RAW_HEADER_FIELDS : Nat := MAX_RAW_HEADER_ITEMS / 2
def MAX_RAW_HEADER_BYTES : Nat := 16 * 1024
def MAX_COOKIE_FIELD_LINES : Nat := 8
def MAX_SESSION_COOKIE_BYTES : Nat := 256

/-- `none` is an item that is not a string. -/
abbrev Item := Option JsString

inductive RawHeaders where
  | array (items : List Item)
  | other
  deriving DecidableEq

/-!
## The code
-/

def isTokenUnit (u : UInt16) : Bool :=
  (65 ≤ u.toNat && u.toNat ≤ 90) || (97 ≤ u.toNat && u.toNat ≤ 122) ||
    (48 ≤ u.toNat && u.toNat ≤ 57) || u == 95 || u == 45

/-- `sessionTokenPattern.test(session)`. -/
def sessionTokenPattern (session : JsString) : Bool :=
  !session.isEmpty && session.all isTokenUnit

/-- The loop over the fields: the values of the cookie lines. -/
def readFields : List Item -> Nat -> Nat -> Nat -> List JsString ->
    Option (List JsString)
  | [], _, _, _, headers => some headers
  | some name :: some value :: rest, rawHeaderBytes, byteCount,
      cookieFieldLines, headers =>
      let rawHeaderBytes :=
        rawHeaderBytes + (utf8ByteLength name + utf8ByteLength value)
      if rawHeaderBytes > MAX_RAW_HEADER_BYTES then none
      else if toLowerCase name ≠ js "cookie" then
        readFields rest rawHeaderBytes byteCount cookieFieldLines headers
      else if cookieFieldLines + 1 > MAX_COOKIE_FIELD_LINES then none
      else if byteCount + utf8ByteLength value > MAX_COOKIE_HEADER_BYTES then
        none
      else
        readFields rest rawHeaderBytes (byteCount + utf8ByteLength value)
          (cookieFieldLines + 1) (headers ++ [value])
  | _, _, _, _, _ => none

/-- The value of a pair whose name is that of the session.  A pair without an
equals sign, or with one in front, has no name. -/
def sessionValue (rawPair : JsString) : Option JsString :=
  let pair := trim rawPair
  match pair.idxOf? 61 with
  | none => none
  | some 0 => none
  | some separator =>
      if pair.take separator ≠ SESSION_COOKIE_NAME then none
      else some (pair.drop (separator + 1))

def readPairs : List JsString -> Nat -> List JsString ->
    Option (Nat × List JsString)
  | [], pairCount, sessions => some (pairCount, sessions)
  | rawPair :: rest, pairCount, sessions =>
      if pairCount + 1 > MAX_COOKIE_PAIRS then none
      else
        match sessionValue rawPair with
        | none => readPairs rest (pairCount + 1) sessions
        | some value => readPairs rest (pairCount + 1) (sessions ++ [value])

def readHeaders : List JsString -> Nat -> List JsString ->
    Option (List JsString)
  | [], _, sessions => some sessions
  | header :: rest, pairCount, sessions =>
      match readPairs (header.splitOn 59) pairCount sessions with
      | none => none
      | some (pairCount, sessions) => readHeaders rest pairCount sessions

/-- The token, when there is exactly one. -/
def onlySession : List JsString -> Option JsString
  | [session] =>
      if utf8ByteLength session ≤ MAX_SESSION_COOKIE_BYTES ∧
          sessionTokenPattern session = true then
        some session
      else none
  | _ => none

def readSessionCookie : RawHeaders -> Option JsString
  | RawHeaders.other => none
  | RawHeaders.array items =>
      if items.length % 2 ≠ 0 ∨ items.length > MAX_RAW_HEADER_ITEMS ∨
          items.length / 2 > MAX_RAW_HEADER_FIELDS then
        none
      else do
        let headers ← readFields items 0 0 0 []
        if headers.length = 0 then none
        else do
          let sessions ← readHeaders headers 0 []
          onlySession sessions

/-!
## The request as a whole
-/

structure Field where
  name : JsString
  value : JsString
  deriving DecidableEq

namespace Field

def items (f : Field) : List Item :=
  [some f.name, some f.value]

def bytes (f : Field) : Nat :=
  utf8ByteLength f.name + utf8ByteLength f.value

def isCookie (f : Field) : Bool :=
  toLowerCase f.name = js "cookie"

/-- The pairs of a cookie line, without the space around them. -/
def pairs (f : Field) : List JsString :=
  (f.value.splitOn 59).map trim

end Field

def rawHeaders (fields : List Field) : RawHeaders :=
  RawHeaders.array (fields.flatMap Field.items)

def cookieLines (fields : List Field) : List Field :=
  fields.filter Field.isCookie

def cookies (fields : List Field) : List JsString :=
  (cookieLines fields).flatMap Field.pairs

structure WithinLimits (fields : List Field) : Prop where
  count : fields.length ≤ MAX_RAW_HEADER_FIELDS
  bytes : (fields.map Field.bytes).sum ≤ MAX_RAW_HEADER_BYTES
  lines : (cookieLines fields).length ≤ MAX_COOKIE_FIELD_LINES
  cookieBytes : ((cookieLines fields).map fun f => utf8ByteLength f.value).sum ≤
    MAX_COOKIE_HEADER_BYTES
  pairCount : (cookies fields).length ≤ MAX_COOKIE_PAIRS

def isSession (pair : JsString) : Bool :=
  (SESSION_COOKIE_NAME ++ [61]).isPrefixOf pair

def sessionPair (value : JsString) : JsString :=
  SESSION_COOKIE_NAME ++ 61 :: value

structure IsToken (t : JsString) : Prop where
  nonempty : t ≠ []
  units : forall u, u ∈ t -> isTokenUnit u = true
  bytes : utf8ByteLength t ≤ MAX_SESSION_COOKIE_BYTES

/-!
## The loop over the fields
-/

variable {fields : List Field}

def fieldBytes (fields : List Field) : Nat :=
  (fields.map Field.bytes).sum

def cookieBytes (fields : List Field) : Nat :=
  ((cookieLines fields).map fun f => utf8ByteLength f.value).sum

def cookieValues (fields : List Field) : List JsString :=
  (cookieLines fields).map Field.value

theorem cookieLines_cookie {f : Field} (h : f.isCookie = true) :
    cookieLines (f :: fields) = f :: cookieLines fields := by
  rw [cookieLines, List.filter_cons, if_pos h, cookieLines]

theorem cookieLines_other {f : Field} (h : ¬ f.isCookie = true) :
    cookieLines (f :: fields) = cookieLines fields := by
  rw [cookieLines, List.filter_cons, if_neg h, cookieLines]

theorem fieldBytes_cons (f : Field) :
    fieldBytes (f :: fields) = f.bytes + fieldBytes fields := by
  simp [fieldBytes]

theorem cookieBytes_cookie {f : Field} (h : f.isCookie = true) :
    cookieBytes (f :: fields) =
      utf8ByteLength f.value + cookieBytes fields := by
  simp [cookieBytes, cookieLines_cookie h]

theorem cookieValues_cookie {f : Field} (h : f.isCookie = true) :
    cookieValues (f :: fields) = f.value :: cookieValues fields := by
  simp [cookieValues, cookieLines_cookie h]

theorem readFields_field (f : Field) (items : List Item) (b c l : Nat)
    (headers : List JsString) :
    readFields (f.items ++ items) b c l headers =
      if b + f.bytes > MAX_RAW_HEADER_BYTES then none
      else if toLowerCase f.name ≠ js "cookie" then
        readFields items (b + f.bytes) c l headers
      else if l + 1 > MAX_COOKIE_FIELD_LINES then none
      else if c + utf8ByteLength f.value > MAX_COOKIE_HEADER_BYTES then none
      else
        readFields items (b + f.bytes) (c + utf8ByteLength f.value) (l + 1)
          (headers ++ [f.value]) :=
  rfl

/-- The running totals only grow, so a limit that is passed once is passed at
the end. -/
theorem readFields_eq_some {b c l : Nat} {headers out : List JsString}
    (hb : b ≤ MAX_RAW_HEADER_BYTES) (hc : c ≤ MAX_COOKIE_HEADER_BYTES)
    (hl : l ≤ MAX_COOKIE_FIELD_LINES) :
    readFields (fields.flatMap Field.items) b c l headers = some out <->
      b + fieldBytes fields ≤ MAX_RAW_HEADER_BYTES ∧
      c + cookieBytes fields ≤ MAX_COOKIE_HEADER_BYTES ∧
      l + (cookieLines fields).length ≤ MAX_COOKIE_FIELD_LINES ∧
      headers ++ cookieValues fields = out := by
  induction fields generalizing b c l headers with
  | nil => simp [readFields, fieldBytes, cookieBytes, cookieLines, cookieValues,
      hb, hc, hl]
  | cons f fields ih =>
      rw [List.flatMap_cons, readFields_field, fieldBytes_cons,
        ← Nat.add_assoc]
      by_cases hraw : b + f.bytes > MAX_RAW_HEADER_BYTES
      · rw [if_pos hraw]
        exact ⟨nofun, fun h => by omega⟩
      rw [if_neg hraw]
      by_cases hcookie : f.isCookie = true
      · -- a cookie line counts against two more limits
        have hname : ¬ toLowerCase f.name ≠ js "cookie" := by
          simpa [Field.isCookie] using hcookie
        rw [if_neg hname, cookieBytes_cookie hcookie,
          cookieLines_cookie hcookie, cookieValues_cookie hcookie,
          List.length_cons, ← Nat.add_assoc]
        by_cases hline : l + 1 > MAX_COOKIE_FIELD_LINES
        · rw [if_pos hline]
          exact ⟨nofun, fun h => by omega⟩
        rw [if_neg hline]
        by_cases hbyte : c + utf8ByteLength f.value > MAX_COOKIE_HEADER_BYTES
        · rw [if_pos hbyte]
          exact ⟨nofun, fun h => by omega⟩
        rw [if_neg hbyte, ih (by omega) (by omega) (by omega),
          List.append_assoc, List.singleton_append, Nat.add_assoc l,
          Nat.add_comm 1]
      · have hname : toLowerCase f.name ≠ js "cookie" := by
          simpa [Field.isCookie] using hcookie
        rw [if_pos hname, cookieBytes, cookieValues, cookieLines_other hcookie,
          ih (by omega) hc hl, cookieBytes, cookieValues]

/-- Only a list of names and values gets through the loop. -/
theorem exists_fields {items : List Item} {b c l : Nat}
    {headers out : List JsString}
    (h : readFields items b c l headers = some out) :
    exists fields : List Field, items = fields.flatMap Field.items := by
  fun_induction readFields items b c l headers with
  | case1 => exact ⟨[], rfl⟩
  | case2 => cases h
  | case3 name value rest b c l headers _ _ _ ih =>
      obtain ⟨fields, hrest⟩ := ih h
      exact ⟨⟨name, value⟩ :: fields, by rw [hrest]; rfl⟩
  | case4 => cases h
  | case5 => cases h
  | case6 name value rest b c l headers _ _ _ _ _ ih =>
      obtain ⟨fields, hrest⟩ := ih h
      exact ⟨⟨name, value⟩ :: fields, by rw [hrest]; rfl⟩
  | case7 => cases h

/-!
## The loop over the pairs
-/

theorem readPairs_eq {raws sessions : List JsString} {n : Nat}
    (hn : n ≤ MAX_COOKIE_PAIRS) :
    readPairs raws n sessions =
      if n + raws.length ≤ MAX_COOKIE_PAIRS then
        some (n + raws.length, sessions ++ raws.filterMap sessionValue)
      else none := by
  induction raws generalizing n sessions with
  | nil => simp [readPairs, hn]
  | cons raw raws ih =>
      rw [readPairs, List.length_cons]
      by_cases hpair : n + 1 > MAX_COOKIE_PAIRS
      · rw [if_pos hpair, if_neg (by omega)]
      rw [if_neg hpair, Nat.add_comm raws.length, ← Nat.add_assoc]
      cases hvalue : sessionValue raw with
      | none =>
          dsimp only
          rw [ih (by omega), List.filterMap_cons_none hvalue]
      | some value =>
          dsimp only
          rw [ih (by omega), List.filterMap_cons_some hvalue,
            List.append_assoc, List.singleton_append]

def rawPairs (headers : List JsString) : List JsString :=
  headers.flatMap fun header => header.splitOn 59

theorem readHeaders_eq {headers sessions : List JsString} {n : Nat}
    (hn : n ≤ MAX_COOKIE_PAIRS) :
    readHeaders headers n sessions =
      if n + (rawPairs headers).length ≤ MAX_COOKIE_PAIRS then
        some (sessions ++ (rawPairs headers).filterMap sessionValue)
      else none := by
  induction headers generalizing n sessions with
  | nil => simp [readHeaders, rawPairs, hn]
  | cons header headers ih =>
      have hraw : rawPairs (header :: headers) =
          header.splitOn 59 ++ rawPairs headers := rfl
      rw [readHeaders, readPairs_eq hn, hraw, List.length_append,
        ← Nat.add_assoc]
      by_cases hline : n + (header.splitOn 59).length ≤ MAX_COOKIE_PAIRS
      · rw [if_pos hline]
        dsimp only
        rw [ih hline, List.filterMap_append, List.append_assoc]
      · rw [if_neg hline, if_neg (by omega)]

/-!
## Names and values
-/

theorem idxOf?_of_notMem {xs ys : JsString} {u : UInt16} (h : u ∉ xs) :
    (xs ++ u :: ys).idxOf? u = some xs.length := by
  induction xs with
  | nil => simp [List.idxOf?_cons]
  | cons x xs ih =>
      have hx : x ≠ u := fun he => h (he ▸ List.mem_cons_self)
      have hxs : u ∉ xs := fun hm => h (List.mem_cons_of_mem x hm)
      rw [List.cons_append, List.idxOf?_cons, if_neg (by simpa using hx),
        ih hxs]
      rfl

theorem split_of_idxOf? {xs : JsString} {u : UInt16} {i : Nat}
    (h : xs.idxOf? u = some i) : xs = xs.take i ++ u :: xs.drop (i + 1) := by
  obtain ⟨hi, hu, _⟩ := List.idxOf?_eq_some_iff.mp h
  rw [← hu, ← List.drop_eq_getElem_cons hi, List.take_append_drop]

theorem sessionValue_eq_some {raw v : JsString} :
    sessionValue raw = some v <-> trim raw = sessionPair v := by
  rw [sessionValue]
  constructor
  · intro h
    split at h
    · cases h
    · cases h
    · rename_i i _ hi
      split at h
      · cases h
      · rename_i hname
        injection h with h
        have hcut := split_of_idxOf? hi
        rw [not_not.mp hname, h] at hcut
        exact hcut
  · intro h
    have hno : 61 ∉ SESSION_COOKIE_NAME := by decide
    have hi : (trim raw).idxOf? 61 = some 20 := by
      rw [h, sessionPair, idxOf?_of_notMem hno]
      decide
    have htake : (trim raw).take 20 = SESSION_COOKIE_NAME := by
      rw [h, sessionPair]
      exact List.take_left' (by decide)
    have hdrop : (trim raw).drop 21 = v := by
      rw [h, sessionPair, ← List.singleton_append, ← List.append_assoc]
      exact List.drop_left' (by decide)
    simp only [hi, htake, hdrop, ne_eq, not_true_eq_false, if_false]

theorem isSession_iff {pair : JsString} :
    isSession pair = true <-> exists v, pair = sessionPair v := by
  rw [isSession, List.isPrefixOf_iff_prefix]
  constructor
  · intro h
    obtain ⟨v, hv⟩ := h
    exact ⟨v, by rw [← hv]; simp [sessionPair]⟩
  · intro h
    obtain ⟨v, hv⟩ := h
    exact ⟨v, by rw [hv]; simp [sessionPair]⟩

theorem sessionPair_injective : Function.Injective sessionPair := by
  intro v w h
  have hcons := List.append_cancel_left h
  injection hcons

theorem map_sessionValue (raws : List JsString) :
    (raws.filterMap sessionValue).map sessionPair =
      (raws.map trim).filter isSession := by
  induction raws with
  | nil => rfl
  | cons raw raws ih =>
      cases hvalue : sessionValue raw with
      | none =>
          have hnot : ¬ isSession (trim raw) = true := by
            intro h
            obtain ⟨v, hv⟩ := isSession_iff.mp h
            rw [sessionValue_eq_some.mpr hv] at hvalue
            cases hvalue
          rw [List.filterMap_cons_none hvalue, List.map_cons,
            List.filter_cons, if_neg hnot, ih]
      | some v =>
          have hv := sessionValue_eq_some.mp hvalue
          have hyes : isSession (trim raw) = true := isSession_iff.mpr ⟨v, hv⟩
          rw [List.filterMap_cons_some hvalue, List.map_cons, List.map_cons,
            List.filter_cons, if_pos hyes, ih, hv]

theorem map_rawPairs (fields : List Field) :
    (rawPairs (cookieValues fields)).map trim = cookies fields := by
  rw [rawPairs, cookieValues, List.flatMap_map, List.map_flatMap]
  rfl

theorem sessions_eq_singleton {t : JsString} :
    (rawPairs (cookieValues fields)).filterMap sessionValue = [t] <->
      (cookies fields).filter isSession = [sessionPair t] := by
  rw [← map_rawPairs, ← map_sessionValue]
  constructor
  · intro h
    rw [h]
    rfl
  · intro h
    exact (List.map_injective_iff.mpr sessionPair_injective) h

/-!
## What is returned
-/

theorem readFields_rawHeaders {out : List JsString} :
    readFields (fields.flatMap Field.items) 0 0 0 [] = some out <->
      fieldBytes fields ≤ MAX_RAW_HEADER_BYTES ∧
      cookieBytes fields ≤ MAX_COOKIE_HEADER_BYTES ∧
      (cookieLines fields).length ≤ MAX_COOKIE_FIELD_LINES ∧
      cookieValues fields = out := by
  have h := @readFields_eq_some fields 0 0 0 [] out (Nat.zero_le _)
    (Nat.zero_le _) (Nat.zero_le _)
  simpa using h

theorem length_items (fields : List Field) :
    (fields.flatMap Field.items).length = 2 * fields.length := by
  induction fields with
  | nil => rfl
  | cons f fields ih =>
      rw [List.flatMap_cons, List.length_append, ih, List.length_cons]
      show 2 + _ = _
      omega

theorem length_cookies (fields : List Field) :
    (rawPairs (cookieValues fields)).length = (cookies fields).length := by
  rw [← map_rawPairs, List.length_map]

theorem onlySession_eq_some {sessions : List JsString} {t : JsString} :
    onlySession sessions = some t <->
      sessions = [t] ∧ utf8ByteLength t ≤ MAX_SESSION_COOKIE_BYTES ∧
        sessionTokenPattern t = true := by
  cases sessions with
  | nil => simp [onlySession]
  | cons session rest =>
      cases rest with
      | nil =>
          rw [onlySession]
          constructor
          · intro h
            split at h
            · rename_i hok
              injection h with h
              subst h
              exact ⟨rfl, hok⟩
            · cases h
          · intro h
            obtain ⟨hs, hok⟩ := h
            injection hs with hs
            subst hs
            exact if_pos hok
      | cons other rest => simp [onlySession]

theorem readSessionCookie_items {items : List Item} {t : JsString} :
    readSessionCookie (RawHeaders.array items) = some t <->
      (items.length % 2 = 0 ∧ items.length ≤ MAX_RAW_HEADER_ITEMS) ∧
      exists headers, readFields items 0 0 0 [] = some headers ∧
        headers ≠ [] ∧ readHeaders headers 0 [] = some [t] ∧
        utf8ByteLength t ≤ MAX_SESSION_COOKIE_BYTES ∧
        sessionTokenPattern t = true := by
  have hhalf : MAX_RAW_HEADER_ITEMS = 2 * MAX_RAW_HEADER_FIELDS := rfl
  rw [readSessionCookie]
  by_cases hsize : items.length % 2 ≠ 0 ∨ items.length > MAX_RAW_HEADER_ITEMS ∨
      items.length / 2 > MAX_RAW_HEADER_FIELDS
  · rw [if_pos hsize]
    exact ⟨nofun, fun h => by omega⟩
  have hok : items.length % 2 = 0 ∧ items.length ≤ MAX_RAW_HEADER_ITEMS := by
    omega
  rw [if_neg hsize]
  constructor
  · intro h
    obtain ⟨headers, hfields, h⟩ := Option.bind_eq_some_iff.mp h
    split at h
    · cases h
    · rename_i hne
      obtain ⟨sessions, hheaders, h⟩ := Option.bind_eq_some_iff.mp h
      obtain ⟨hone, hbytes, htoken⟩ := onlySession_eq_some.mp h
      subst hone
      exact ⟨hok, headers, hfields, fun he => hne (by rw [he]; rfl), hheaders,
        hbytes, htoken⟩
  · intro h
    obtain ⟨_, headers, hfields, hne, hheaders, hbytes, htoken⟩ := h
    apply Option.bind_eq_some_iff.mpr
    exists headers
    constructor
    · exact hfields
    rw [if_neg (fun he => hne (List.length_eq_zero_iff.mp he))]
    apply Option.bind_eq_some_iff.mpr
    exists [t]
    exact ⟨hheaders, onlySession_eq_some.mpr ⟨rfl, hbytes, htoken⟩⟩

theorem sessionTokenPattern_iff {t : JsString} :
    sessionTokenPattern t = true <->
      t ≠ [] ∧ forall u, u ∈ t -> isTokenUnit u = true := by
  simp [sessionTokenPattern]

theorem readSessionCookie_eq_some {t : JsString} :
    readSessionCookie (rawHeaders fields) = some t <->
      WithinLimits fields ∧
        (cookies fields).filter isSession = [sessionPair t] ∧ IsToken t := by
  have hhalf : MAX_RAW_HEADER_ITEMS = 2 * MAX_RAW_HEADER_FIELDS := rfl
  rw [rawHeaders, readSessionCookie_items, length_items]
  constructor
  · intro h
    obtain ⟨hsize, headers, hfields, _, hheaders, hbytes, htoken⟩ := h
    obtain ⟨hraw, hcookie, hlines, hvalues⟩ := readFields_rawHeaders.mp hfields
    subst hvalues
    rw [readHeaders_eq (Nat.zero_le _)] at hheaders
    split at hheaders
    · rename_i hpairs
      injection hheaders with hsessions
      rw [length_cookies, Nat.zero_add] at hpairs
      obtain ⟨hne, hunits⟩ := sessionTokenPattern_iff.mp htoken
      exact ⟨⟨by omega, hraw, hlines, hcookie, hpairs⟩,
        sessions_eq_singleton.mp hsessions, ⟨hne, hunits, hbytes⟩⟩
    · cases hheaders
  · intro h
    obtain ⟨hlimits, hone, htoken⟩ := h
    have hcount := hlimits.count
    have hpairs : 0 + (rawPairs (cookieValues fields)).length ≤
        MAX_COOKIE_PAIRS := by
      rw [length_cookies, Nat.zero_add]
      exact hlimits.pairCount
    have hsessions := sessions_eq_singleton.mpr hone
    have hheaders : readHeaders (cookieValues fields) 0 [] = some [t] := by
      rw [readHeaders_eq (Nat.zero_le _), if_pos hpairs, hsessions]
      rfl
    have hne : cookieValues fields ≠ [] := by
      intro he
      rw [he] at hsessions
      cases hsessions
    exact ⟨⟨by omega, by omega⟩, cookieValues fields,
      readFields_rawHeaders.mpr ⟨hlimits.bytes, hlimits.cookieBytes,
        hlimits.lines, rfl⟩, hne, hheaders, htoken.bytes,
      sessionTokenPattern_iff.mpr ⟨htoken.nonempty, htoken.units⟩⟩

theorem exists_rawHeaders {raw : RawHeaders} {t : JsString}
    (h : readSessionCookie raw = some t) :
    exists fields, raw = rawHeaders fields := by
  cases raw with
  | other => cases h
  | array items =>
      obtain ⟨_, headers, hfields, _⟩ := readSessionCookie_items.mp h
      obtain ⟨fields, hitems⟩ := exists_fields hfields
      exact ⟨fields, by rw [hitems, rawHeaders]⟩

/-!
## Rearranging a request
-/

/-- No pair in this piece of a cookie line is called after the session. -/
def Unrelated (piece : JsString) : Prop :=
  forall pair, pair ∈ piece.splitOn 59 -> isSession (trim pair) = false

/-- Two requests with the same session cookies.  Header names may change in any
way that does not make them mean something else. -/
inductive Rearranged : List Field -> List Field -> Prop where
  | reorder {fields fields' : List Field} (h : fields.Perm fields') :
      Rearranged fields fields'
  | rename (before after : List Field) (value : JsString)
      {name name' : JsString}
      (h : toLowerCase name = js "cookie" <-> toLowerCase name' = js "cookie") :
      Rearranged (before ++ ⟨name, value⟩ :: after)
        (before ++ ⟨name', value⟩ :: after)
  | split (before after : List Field) (left right : JsString)
      {name name' : JsString} (h : toLowerCase name = js "cookie")
      (h' : toLowerCase name' = js "cookie") :
      Rearranged (before ++ ⟨name, left ++ 59 :: right⟩ :: after)
        (before ++ ⟨name, left⟩ :: ⟨name', right⟩ :: after)
  | add (before after : List Field) (name value : JsString) {piece : JsString}
      (h : Unrelated piece) :
      Rearranged (before ++ ⟨name, value⟩ :: after)
        (before ++ ⟨name, value ++ 59 :: piece⟩ :: after)
  | addLine (before after : List Field) (name : JsString) {piece : JsString}
      (h : Unrelated piece) :
      Rearranged (before ++ after) (before ++ ⟨name, piece⟩ :: after)
  | symm {fields fields' : List Field} (h : Rearranged fields fields') :
      Rearranged fields' fields
  | trans {fields fields' fields'' : List Field}
      (h : Rearranged fields fields') (h' : Rearranged fields' fields'') :
      Rearranged fields fields''

def Field.sessions (f : Field) : List JsString :=
  if f.isCookie = true then f.pairs.filter isSession else []

theorem sessionCookies_eq (fields : List Field) :
    (cookies fields).filter isSession = fields.flatMap Field.sessions := by
  induction fields with
  | nil => rfl
  | cons f fields ih =>
      rw [List.flatMap_cons, ← ih]
      by_cases hf : f.isCookie = true
      · rw [cookies, cookieLines_cookie hf, List.flatMap_cons,
          List.filter_append, Field.sessions, if_pos hf, cookies]
      · rw [cookies, cookieLines_other hf, Field.sessions, if_neg hf, cookies]
        rfl

theorem sessions_cookie {name : JsString} (h : toLowerCase name = js "cookie")
    (value : JsString) :
    Field.sessions ⟨name, value⟩ =
      ((value.splitOn 59).map trim).filter isSession :=
  if_pos (by simp [Field.isCookie, h])

theorem sessions_other {name : JsString} (h : toLowerCase name ≠ js "cookie")
    (value : JsString) : Field.sessions ⟨name, value⟩ = [] :=
  if_neg (by simp [Field.isCookie, h])

theorem sessions_split (left right : JsString) :
    (((left ++ 59 :: right).splitOn 59).map trim).filter isSession =
      ((left.splitOn 59).map trim).filter isSession ++
        ((right.splitOn 59).map trim).filter isSession := by
  rw [List.splitOn_append_cons_self, List.map_append, List.filter_append]

theorem sessions_unrelated {piece : JsString} (h : Unrelated piece) :
    ((piece.splitOn 59).map trim).filter isSession = [] := by
  apply List.filter_eq_nil_iff.mpr
  intro pair hpair
  obtain ⟨raw, hraw, htrim⟩ := List.mem_map.mp hpair
  rw [← htrim, h raw hraw]
  exact Bool.false_ne_true

/-- One case for each way to rearrange: the session cookies are the same, in
another order. -/
theorem Rearranged.sessions_perm {fields fields' : List Field}
    (h : Rearranged fields fields') :
    (fields.flatMap Field.sessions).Perm (fields'.flatMap Field.sessions) := by
  induction h with
  | reorder h => exact h.flatMap_right _
  | rename before after value h =>
      rename_i name name'
      have hsame : Field.sessions ⟨name, value⟩ =
          Field.sessions ⟨name', value⟩ := by
        by_cases hname : toLowerCase name = js "cookie"
        · rw [sessions_cookie hname, sessions_cookie (h.mp hname)]
        · rw [sessions_other hname,
            sessions_other fun he => hname (h.mpr he)]
      simp only [List.flatMap_append, List.flatMap_cons, hsame]
      exact List.Perm.refl _
  | split before after left right h h' =>
      simp only [List.flatMap_append, List.flatMap_cons, sessions_cookie h,
        sessions_cookie h', sessions_split, List.append_assoc]
      exact List.Perm.refl _
  | add before after name value h =>
      rename_i piece
      have hsame : Field.sessions ⟨name, value ++ 59 :: piece⟩ =
          Field.sessions ⟨name, value⟩ := by
        by_cases hname : toLowerCase name = js "cookie"
        · rw [sessions_cookie hname, sessions_cookie hname, sessions_split,
            sessions_unrelated h, List.append_nil]
        · rw [sessions_other hname, sessions_other hname]
      simp only [List.flatMap_append, List.flatMap_cons, hsame]
      exact List.Perm.refl _
  | addLine before after name h =>
      rename_i piece
      have hnone : Field.sessions ⟨name, piece⟩ = [] := by
        by_cases hname : toLowerCase name = js "cookie"
        · rw [sessions_cookie hname, sessions_unrelated h]
        · rw [sessions_other hname]
      simp only [List.flatMap_append, List.flatMap_cons, hnone,
        List.nil_append]
      exact List.Perm.refl _
  | symm _ ih => exact ih.symm
  | trans _ _ ih ih' => exact ih.trans ih'

theorem Rearranged.singleton {fields fields' : List Field}
    (h : Rearranged fields fields') {pair : JsString}
    (hone : (cookies fields).filter isSession = [pair]) :
    (cookies fields').filter isSession = [pair] := by
  have hperm := h.sessions_perm
  rw [← sessionCookies_eq, ← sessionCookies_eq, hone] at hperm
  exact (List.singleton_perm.mp hperm).symm

/-- A token is returned exactly for a request within the limits with one
session cookie, whose value it is.  So a request may be rearranged, and two
session cookies are as good as none. -/
theorem session_cookie_exact :
    (forall raw t, readSessionCookie raw = some t <->
      exists fields, raw = rawHeaders fields ∧ WithinLimits fields ∧
        (cookies fields).filter isSession = [sessionPair t] ∧ IsToken t) ∧
    (forall fields fields', Rearranged fields fields' ->
      WithinLimits fields -> WithinLimits fields' ->
        readSessionCookie (rawHeaders fields) =
          readSessionCookie (rawHeaders fields')) ∧
    forall fields, 2 ≤ ((cookies fields).filter isSession).length ->
      readSessionCookie (rawHeaders fields) = none := by
  constructor
  · intro raw t
    constructor
    · intro h
      obtain ⟨fields, hraw⟩ := exists_rawHeaders h
      subst hraw
      exact ⟨fields, rfl, readSessionCookie_eq_some.mp h⟩
    · intro h
      obtain ⟨fields, hraw, h⟩ := h
      subst hraw
      exact readSessionCookie_eq_some.mpr h
  constructor
  · intro fields fields' h hlimits hlimits'
    apply Option.ext
    intro t
    rw [readSessionCookie_eq_some, readSessionCookie_eq_some]
    constructor
    · intro hread
      exact ⟨hlimits', h.singleton hread.2.1, hread.2.2⟩
    · intro hread
      exact ⟨hlimits, h.symm.singleton hread.2.1, hread.2.2⟩
  · intro fields htwo
    apply Option.eq_none_iff_forall_ne_some.mpr
    intro t hread
    rw [(readSessionCookie_eq_some.mp hread).2.1] at htwo
    simp at htwo

def sampleFields : List Field :=
  [⟨js "Host", js "localhost"⟩,
    ⟨js "Cookie", js "theme=dark; flanterminal_session=tok_1"⟩]

def sampleSplit : List Field :=
  [⟨js "Host", js "localhost"⟩, ⟨js "Cookie", js "theme=dark"⟩,
    ⟨js "COOKIE", js " flanterminal_session=tok_1"⟩]

theorem sampleFields_within : WithinLimits sampleFields :=
  ⟨by decide, by decide, by decide, by decide, by decide +kernel⟩

theorem sampleSplit_within : WithinLimits sampleSplit :=
  ⟨by decide, by decide, by decide, by decide, by decide +kernel⟩

theorem sample_session_cookie :
    readSessionCookie (rawHeaders sampleFields) = some (js "tok_1") ∧
      readSessionCookie (rawHeaders sampleFields) =
        readSessionCookie (rawHeaders sampleSplit) := by
  constructor
  · apply (session_cookie_exact.1 _ _).mpr
    exact ⟨sampleFields, rfl, sampleFields_within, by decide +kernel,
      ⟨by decide, List.all_eq_true.mp (by decide), by decide⟩⟩
  · apply session_cookie_exact.2.1 _ _ _ sampleFields_within sampleSplit_within
    exact Rearranged.split [⟨js "Host", js "localhost"⟩] [] (js "theme=dark")
      (js " flanterminal_session=tok_1") (by decide) (by decide)

end SessionCookie
end Server
end FlanTerminal

import Mathlib.Data.List.TakeWhile
import FlanTerminal.Foundation.JsString

/-!
# Safe strings

Names, labels and paths pass one schema: every character is checked, the string
is trimmed and brought to Unicode normal form C, and what comes out may be
neither empty nor too long.

Normalisation is a parameter.  What the code relies on is gathered in
`NormalForm`: a normalised string is left alone, and normalisation brings in no
character that the schema refuses and no space at either end.
-/

namespace FlanTerminal
namespace Shared

open Foundation

/-- The code points of a string, `[...value]`.  A lone surrogate stands for
itself. -/
def codePoints : JsString -> List Nat
  | [] => []
  | [u] => [u.toNat]
  | u :: v :: rest =>
      if isHighSurrogate u && isLowSurrogate v then
        (0x10000 + (u.toNat - 0xD800) * 0x400 + (v.toNat - 0xDC00)) ::
          codePoints rest
      else u.toNat :: codePoints (v :: rest)

/-- `forbiddenCharacterPattern`: control characters, surrogates, and the
separators of lines and paragraphs. -/
def isForbidden (c : Nat) : Bool :=
  c ≤ 0x1F || (0x7F ≤ c && c ≤ 0x9F) || (0xD800 ≤ c && c ≤ 0xDFFF) ||
    c == 0x2028 || c == 0x2029

/-- The ranges of the general category `Cf`. -/
def formatControls : List (Nat × Nat) :=
  [(0xAD, 0xAD), (0x600, 0x605), (0x61C, 0x61C), (0x6DD, 0x6DD),
    (0x70F, 0x70F), (0x890, 0x891), (0x8E2, 0x8E2), (0x180E, 0x180E),
    (0x200B, 0x200F), (0x202A, 0x202E), (0x2060, 0x2064), (0x2066, 0x206F),
    (0xFEFF, 0xFEFF), (0xFFF9, 0xFFFB), (0x110BD, 0x110BD),
    (0x110CD, 0x110CD), (0x13430, 0x1343F), (0x1BCA0, 0x1BCA3),
    (0x1D173, 0x1D17A), (0xE0001, 0xE0001), (0xE0020, 0xE007F)]

def isFormatControl (c : Nat) : Bool :=
  formatControls.any fun range => range.1 ≤ c && c ≤ range.2

def allowedJoinControls : List Nat :=
  [0x200C, 0x200D]

structure SafeStringOptions where
  maxUtf8Bytes : Option Nat
  trim : Bool
  allowJoinControls : Bool

def isSafeCharacter (options : SafeStringOptions) (c : Nat) : Bool :=
  !isForbidden c &&
    (!isFormatControl c ||
      (options.allowJoinControls && allowedJoinControls.contains c))

/-- White space and line terminators of the language. -/
def isSpace (u : UInt16) : Bool :=
  (9 ≤ u.toNat && u.toNat ≤ 13) || u == 0x20 || u == 0xA0 || u == 0x1680 ||
    (0x2000 ≤ u.toNat && u.toNat ≤ 0x200A) || u == 0x2028 || u == 0x2029 ||
    u == 0x202F || u == 0x205F || u == 0x3000 || u == 0xFEFF

def trim (value : JsString) : JsString :=
  ((value.dropWhile isSpace).reverse.dropWhile isSpace).reverse

section Schema

variable (nfc : JsString -> JsString)

def normalized (options : SafeStringOptions) (value : JsString) : JsString :=
  nfc (if options.trim then trim value else value)

/-- `safeNormalizedStringSchema`; `none` is a refusal. -/
def safeNormalizedString (options : SafeStringOptions) (value : JsString) :
    Option JsString :=
  if (codePoints value).all (isSafeCharacter options) then
    let normalized := normalized nfc options value
    if 1 ≤ utf8ByteLength normalized ∧
        (options.maxUtf8Bytes.all fun limit =>
          decide (utf8ByteLength normalized ≤ limit)) = true then
      some normalized
    else none
  else none

end Schema

def Trimmed (value : JsString) : Prop :=
  (forall u, value.head? = some u -> isSpace u = false) ∧
    forall u, value.getLast? = some u -> isSpace u = false

/-- What the code relies on in `normalize('NFC')`. -/
structure NormalForm (nfc : JsString -> JsString) : Prop where
  idempotent : forall value, nfc (nfc value) = nfc value
  /-- Characters that no option admits are not brought in. -/
  safe : forall options value,
    (codePoints value).all (isSafeCharacter options) = true ->
    (codePoints (nfc value)).all (isSafeCharacter options) = true
  trimmed : forall value, Trimmed value -> Trimmed (nfc value)

theorem normalForm_id : NormalForm id :=
  ⟨fun _ => rfl, fun _ _ h => h, fun _ h => h⟩

/-!
## Trimming
-/

theorem dropWhile_head {value : JsString} {u : UInt16}
    (h : (value.dropWhile isSpace).head? = some u) : isSpace u = false := by
  induction value with
  | nil => cases h
  | cons v value ih =>
      rw [List.dropWhile_cons] at h
      split at h
      · exact ih h
      · rename_i hv
        cases h
        simpa using hv

theorem trim_trimmed (value : JsString) : Trimmed (trim value) := by
  have hlast : forall u, (trim value).getLast? = some u ->
      isSpace u = false := by
    intro u hu
    rw [trim, List.getLast?_reverse] at hu
    exact dropWhile_head hu
  refine ⟨?_, hlast⟩
  intro u hu
  -- what is cut off at the end leaves the first code unit alone
  rw [trim, List.head?_reverse] at hu
  have hsuffix := List.dropWhile_suffix (l := (value.dropWhile isSpace).reverse)
    isSpace
  rcases hsuffix with ⟨front, hfront⟩
  rcases hcut : (value.dropWhile isSpace).reverse.dropWhile isSpace with
    _ | ⟨v, rest⟩
  · rw [hcut] at hu
    cases hu
  · rw [hcut] at hu hfront
    have hall : (value.dropWhile isSpace).reverse.getLast? = some u := by
      rw [← hfront, List.getLast?_append, hu]
      rfl
    rw [List.getLast?_reverse] at hall
    exact dropWhile_head hall

theorem trim_of_trimmed {value : JsString} (h : Trimmed value) :
    trim value = value := by
  have hfront : value.dropWhile isSpace = value := by
    cases value with
    | nil => rfl
    | cons u rest =>
        rw [List.dropWhile_cons, h.1 u rfl]
        rfl
  have hback : value.reverse.dropWhile isSpace = value.reverse := by
    cases hrev : value.reverse with
    | nil => rfl
    | cons u rest =>
        have hu : value.getLast? = some u := by
          rw [← List.head?_reverse, hrev]
          rfl
        rw [List.dropWhile_cons, h.2 u hu]
        rfl
  rw [trim, hfront, hback, List.reverse_reverse]

theorem trim_eq_nil {value : JsString} (h : trim value = []) :
    forall u, u ∈ value -> isSpace u = true := by
  rw [trim, List.reverse_eq_nil_iff, List.dropWhile_eq_nil_iff] at h
  have hfront : value.dropWhile isSpace = [] := by
    cases hcut : value.dropWhile isSpace with
    | nil => rfl
    | cons v rest =>
        have hv : isSpace v = false := dropWhile_head (by rw [hcut]; rfl)
        rw [h v (by simp [hcut])] at hv
        cases hv
  exact List.dropWhile_eq_nil_iff.mp hfront

/-!
## Code points of a concatenation

A string may be cut where no pair is cut, so in particular at a space.
-/

theorem codePoints_cons {u : UInt16} (hu : isHighSurrogate u = false)
    (rest : JsString) : codePoints (u :: rest) = u.toNat :: codePoints rest := by
  cases rest with
  | nil => rfl
  | cons v rest => simp [codePoints, hu]

theorem codePoints_append {front back : JsString}
    (h : forall u, back.head? = some u -> isLowSurrogate u = false) :
    codePoints (front ++ back) = codePoints front ++ codePoints back := by
  induction front using codePoints.induct with
  | case1 => rfl
  | case2 u =>
      cases back with
      | nil => simp [codePoints]
      | cons v back =>
          have hv := h v rfl
          simp [codePoints, hv]
  | case3 u v rest hpair ih =>
      simp only [List.cons_append, codePoints, hpair, if_true, ih]
  | case4 u v rest hpair ih =>
      have hnot : ¬ ((isHighSurrogate u && isLowSurrogate v) = true) := hpair
      simp only [List.cons_append, codePoints, hnot, if_false, Bool.false_eq_true]
      rw [← List.cons_append, ih]

theorem isSpace_not_surrogate {u : UInt16} (hu : isSpace u = true) :
    isHighSurrogate u = false ∧ isLowSurrogate u = false := by
  have hcases : u.toNat < 0xD800 ∨ 0xDFFF < u.toNat := by
    simp only [isSpace, Bool.or_eq_true, Bool.and_eq_true, decide_eq_true_eq,
      beq_iff_eq] at hu
    rcases hu with (((((((((hu | hu) | hu) | hu) | hu) | hu) | hu) | hu) | hu) |
      hu) | hu
    all_goals first | (rw [hu]; decide) | omega
  simp only [isHighSurrogate, isLowSurrogate, Bool.and_eq_false_iff,
    decide_eq_false_iff_not, not_le]
  omega

theorem mem_codePoints_trim {value : JsString} {c : Nat}
    (h : c ∈ codePoints (trim value)) : c ∈ codePoints value := by
  have hfront : forall rest : JsString, c ∈ codePoints (rest.dropWhile isSpace) ->
      c ∈ codePoints rest := by
    intro rest hc
    induction rest with
    | nil => exact hc
    | cons u rest ih =>
        rw [List.dropWhile_cons] at hc
        split at hc
        · rename_i hu
          rw [codePoints_cons (isSpace_not_surrogate hu).1]
          exact List.mem_cons_of_mem _ (ih hc)
        · exact hc
  have hback : forall rest : JsString,
      c ∈ codePoints (rest.dropWhile isSpace).reverse ->
      c ∈ codePoints rest.reverse := by
    intro rest hc
    induction rest with
    | nil => exact hc
    | cons u rest ih =>
        rw [List.dropWhile_cons] at hc
        split at hc
        · rename_i hu
          rw [List.reverse_cons, codePoints_append]
          · exact List.mem_append_left _ (ih hc)
          · intro v hv
            cases hv
            exact (isSpace_not_surrogate hu).2
        · exact hc
  have hcut := hback _ h
  rw [List.reverse_reverse] at hcut
  exact hfront value hcut

/-!
## The schema accepts what it returns
-/

/-- What every string that comes out of the schema satisfies. -/
structure SafeString (nfc : JsString -> JsString) (options : SafeStringOptions)
    (value : JsString) : Prop where
  characters : (codePoints value).all (isSafeCharacter options) = true
  normal : nfc value = value
  trimmed : options.trim = true -> Trimmed value
  nonempty : 1 ≤ utf8ByteLength value
  short : (options.maxUtf8Bytes.all fun limit =>
    decide (utf8ByteLength value ≤ limit)) = true

variable {nfc : JsString -> JsString} {options : SafeStringOptions}

theorem SafeString.accepted {value : JsString}
    (h : SafeString nfc options value) :
    safeNormalizedString nfc options value = some value := by
  have hcut : (if options.trim then trim value else value) = value := by
    split
    · rename_i htrim
      exact trim_of_trimmed (h.trimmed htrim)
    · rfl
  simp only [safeNormalizedString, normalized, h.characters, if_true, hcut,
    h.normal]
  rw [if_pos ⟨h.nonempty, h.short⟩]

theorem safeNormalizedString_safe (hnfc : NormalForm nfc)
    {value out : JsString}
    (h : safeNormalizedString nfc options value = some out) :
    SafeString nfc options out := by
  simp only [safeNormalizedString] at h
  split at h
  · rename_i hsafe
    split at h
    · rename_i hsize
      cases h
      refine ⟨hnfc.safe options _ ?_, hnfc.idempotent _, ?_, hsize.1, hsize.2⟩
      · split
        · rw [List.all_eq_true] at hsafe ⊢
          exact fun c hc => hsafe c (mem_codePoints_trim hc)
        · exact hsafe
      · intro htrim
        rw [normalized, if_pos htrim]
        exact hnfc.trimmed _ (trim_trimmed value)
    · cases h
  · cases h

theorem safeNormalizedString_idempotent (hnfc : NormalForm nfc)
    {value out : JsString}
    (h : safeNormalizedString nfc options value = some out) :
    safeNormalizedString nfc options out = some out :=
  (safeNormalizedString_safe hnfc h).accepted

end Shared
end FlanTerminal

import FlanTerminal.Foundation.Utf8
import FlanTerminal.Shared.Protocol

/-!
# Text frames

A text frame reaches the parser as a string, as one buffer or view, or as a list
of views.  Decoding gives back every well-formed string but for a byte order
mark at its start, which the decoder drops.
-/

namespace FlanTerminal
namespace Shared

open Foundation

/-!
## Decoding what was encoded
-/

section Decoding

variable {b0 b1 b2 b3 : UInt8} {rest : List UInt8}

theorem decodeUtf8_one (h : b0.toNat < 0x80) :
    decodeUtf8 (b0 :: rest) =
      (decodeUtf8 rest).map (UInt16.ofNat b0.toNat :: ·) := by
  rw [decodeUtf8.eq_def]
  dsimp only
  rw [if_pos h]

theorem isContinuation_of {b : UInt8} (h : 0x80 ≤ b.toNat)
    (h' : b.toNat ≤ 0xBF) : isContinuation b = true := by
  unfold isContinuation
  rw [decide_eq_true h, decide_eq_true h']
  rfl

theorem decodeUtf8_two (h0 : 0xC2 ≤ b0.toNat) (h0' : b0.toNat ≤ 0xDF)
    (h1 : isContinuation b1 = true) :
    decodeUtf8 (b0 :: b1 :: rest) = (decodeUtf8 rest).map
      (UInt16.ofNat ((b0.toNat - 0xC0) * 64 + (b1.toNat - 0x80)) :: ·) := by
  rw [decodeUtf8.eq_def]
  dsimp only
  rw [if_neg (by omega)]
  simp only [h1, Bool.not_true, Bool.false_eq_true, if_false]
  rw [if_pos ⟨h0, h0'⟩]

theorem decodeUtf8_three (h0 : 0xE0 ≤ b0.toNat) (h0' : b0.toNat ≤ 0xEF)
    (h1 : isContinuation b1 = true) (h2 : isContinuation b2 = true) {c : Nat}
    (hc : (b0.toNat - 0xE0) * 4096 + (b1.toNat - 0x80) * 64 +
      (b2.toNat - 0x80) = c)
    (hlow : 0x800 ≤ c) (hplain : ¬ (0xD800 ≤ c ∧ c ≤ 0xDFFF)) :
    decodeUtf8 (b0 :: b1 :: b2 :: rest) =
      (decodeUtf8 rest).map (UInt16.ofNat c :: ·) := by
  rw [decodeUtf8.eq_def]
  dsimp only
  rw [if_neg (by omega)]
  simp only [h1, h2, Bool.not_true, Bool.false_eq_true, if_false]
  rw [if_neg (by omega), if_pos ⟨h0, h0'⟩, hc, if_neg (by omega)]

theorem decodeUtf8_four (h0 : 0xF0 ≤ b0.toNat)
    (h1 : isContinuation b1 = true) (h2 : isContinuation b2 = true)
    (h3 : isContinuation b3 = true) {c : Nat}
    (hc : (b0.toNat - 0xF0) * 262144 + (b1.toNat - 0x80) * 4096 +
      (b2.toNat - 0x80) * 64 + (b3.toNat - 0x80) = c)
    (hlow : 0x10000 ≤ c) (hhigh : c ≤ 0x10FFFF) :
    decodeUtf8 (b0 :: b1 :: b2 :: b3 :: rest) =
      (decodeUtf8 rest).map (codePointUnits c ++ ·) := by
  rw [decodeUtf8, if_neg (by omega)]
  simp only [h1, h2, Bool.not_true, Bool.false_eq_true, if_false]
  rw [if_neg (by omega), if_neg (by omega), hc, if_pos ⟨h3, h0, hlow, hhigh⟩]

end Decoding

theorem toNat_ofNat {n : Nat} (h : n < 256) : (UInt8.ofNat n).toNat = n :=
  UInt8.toNat_ofNat_of_lt' h

theorem toNat_tail (n : Nat) :
    (UInt8.ofNat (0x80 + n % 64)).toNat = 0x80 + n % 64 :=
  toNat_ofNat (by omega)

theorem isContinuation_tail (n : Nat) :
    isContinuation (UInt8.ofNat (0x80 + n % 64)) = true := by
  apply isContinuation_of
  · rw [toNat_tail]
    omega
  · rw [toNat_tail]
    omega

theorem decodeUtf8_unit {u : UInt16} (hu : isSurrogate u = false)
    (rest : List UInt8) :
    decodeUtf8 (unitUtf8 u ++ rest) = (decodeUtf8 rest).map (u :: ·) := by
  have hbound : u.toNat < 65536 := u.toNat_lt
  have hback : UInt16.ofNat u.toNat = u := UInt16.ofNat_toNat
  unfold unitUtf8
  split
  · rename_i hone
    have hbyte := toNat_ofNat (show u.toNat < 256 by omega)
    rw [List.cons_append, List.nil_append,
      decodeUtf8_one (by rw [hbyte]; exact hone), hbyte, hback]
  · split
    · have hbyte := toNat_ofNat (show 0xC0 + u.toNat / 64 < 256 by omega)
      rw [List.cons_append, List.cons_append, List.nil_append,
        decodeUtf8_two (by rw [hbyte]; omega) (by rw [hbyte]; omega)
          (isContinuation_tail _), hbyte, toNat_tail]
      rw [show (0xC0 + u.toNat / 64 - 0xC0) * 64 +
        (0x80 + u.toNat % 64 - 0x80) = u.toNat by omega, hback]
    · rw [if_neg (by rw [hu]; exact Bool.false_ne_true)]
      have hbyte := toNat_ofNat (show 0xE0 + u.toNat / 4096 < 256 by omega)
      have hplain : ¬ (0xD800 ≤ u.toNat ∧ u.toNat ≤ 0xDFFF) := by
        simpa [isSurrogate] using hu
      rw [List.cons_append, List.cons_append, List.cons_append,
        List.nil_append,
        decodeUtf8_three (c := u.toNat) (by rw [hbyte]; omega)
          (by rw [hbyte]; omega) (isContinuation_tail _)
          (isContinuation_tail _)
          (by rw [hbyte, toNat_tail, toNat_tail]; omega) (by omega) hplain,
        hback]

theorem codePointUnits_pair {u v : UInt16} (hu : isHighSurrogate u = true)
    (hv : isLowSurrogate v = true) :
    codePointUnits (pairCodePoint u v) = [u, v] := by
  simp only [isHighSurrogate, isLowSurrogate, Bool.and_eq_true,
    decide_eq_true_eq] at hu hv
  unfold codePointUnits pairCodePoint
  rw [if_neg (by omega)]
  rw [show 0xD800 + (0x10000 + (u.toNat - 0xD800) * 0x400 +
    (v.toNat - 0xDC00) - 0x10000) / 0x400 = u.toNat by omega]
  rw [show 0xDC00 + (0x10000 + (u.toNat - 0xD800) * 0x400 +
    (v.toNat - 0xDC00) - 0x10000) % 0x400 = v.toNat by omega]
  rw [UInt16.ofNat_toNat, UInt16.ofNat_toNat]

theorem decodeUtf8_pair {u v : UInt16} (hu : isHighSurrogate u = true)
    (hv : isLowSurrogate v = true) (rest : List UInt8) :
    decodeUtf8 (pairUtf8 u v ++ rest) =
      (decodeUtf8 rest).map ([u, v] ++ ·) := by
  have hunits := codePointUnits_pair hu hv
  simp only [isHighSurrogate, isLowSurrogate, Bool.and_eq_true,
    decide_eq_true_eq] at hu hv
  have hlow : 0x10000 ≤ pairCodePoint u v := by
    unfold pairCodePoint
    omega
  have hhigh : pairCodePoint u v ≤ 0x10FFFF := by
    unfold pairCodePoint
    omega
  have hbyte := toNat_ofNat
    (show 0xF0 + pairCodePoint u v / 262144 < 256 by omega)
  rw [← hunits]
  exact decodeUtf8_four (by rw [hbyte]; omega) (isContinuation_tail _)
    (isContinuation_tail _) (isContinuation_tail _)
    (by rw [hbyte, toNat_tail, toNat_tail, toNat_tail]; omega) hlow hhigh

theorem decodeUtf8_utf8Bytes {s : JsString} (h : isWellFormed s = true) :
    decodeUtf8 (utf8Bytes s) = some s := by
  induction s using utf8Bytes.induct with
  | case1 => rfl
  | case2 u =>
      have hu : isSurrogate u = false := by simpa [isWellFormed] using h
      have hone := decodeUtf8_unit hu []
      rw [List.append_nil] at hone
      exact hone
  | case3 u v rest hpair ih =>
      rw [isWellFormed, if_pos hpair] at h
      rcases Bool.and_eq_true_iff.mp hpair with ⟨hu, hv⟩
      rw [utf8Bytes, if_pos hpair, decodeUtf8_pair hu hv, ih h]
      rfl
  | case4 u v rest hpair ih =>
      rw [isWellFormed, if_neg hpair] at h
      rcases Bool.and_eq_true_iff.mp h with ⟨hu, hrest⟩
      have hplain : isSurrogate u = false := by simpa using hu
      rw [utf8Bytes, if_neg hpair, decodeUtf8_unit hplain, ih hrest]
      rfl

/-!
## The ways to present a string
-/

structure View where
  buffer : List UInt8
  byteOffset : Nat
  byteLength : Nat

def View.bytes (view : View) : List UInt8 :=
  (view.buffer.drop view.byteOffset).take view.byteLength

/-- The data of a frame that carries the encoding of a string. -/
inductive Presents (s : JsString) : RawData -> Prop where
  | text : Presents s (RawData.text s)
  | buffer : Presents s (RawData.bytes (utf8Bytes s))
  | view (view : View) : view.bytes = utf8Bytes s ->
      Presents s (RawData.bytes view.bytes)
  | views (views : List View) :
      (views.map View.bytes).flatten = utf8Bytes s ->
      Presents s (RawData.views (views.map fun view => some view.bytes))

/-- A frame that is a JSON text but for the byte order mark before it. -/
def MarkedJson (s : JsString) : Prop :=
  exists rest, s = 0xFEFF :: rest ∧
    utf8ByteLength s ≤ MAX_WS_PAYLOAD_BYTES ∧ (Json.parse rest).isSome = true

theorem mapM_id_some {value : Type} (xs : List value) :
    (xs.map some).mapM id = some xs := by
  induction xs with
  | nil => rfl
  | cons x xs ih =>
      rw [List.map_cons, List.mapM_cons, ih]
      rfl

theorem decodeViews_encoded {s : JsString} (hs : isWellFormed s = true)
    {parts : List (List UInt8)} (h : parts.flatten = utf8Bytes s) :
    decodeTextFrame.decodeViews (parts.map some) =
      if MAX_WS_PAYLOAD_BYTES < utf8ByteLength s then DecodedFrame.tooLarge
      else DecodedFrame.ok (dropByteOrderMark s) (utf8ByteLength s) := by
  have hlength : (parts.map List.length).sum = utf8ByteLength s := by
    rw [← List.length_flatten, h, length_utf8Bytes]
  unfold decodeTextFrame.decodeViews
  rw [mapM_id_some]
  dsimp only
  rw [hlength, h, decodeUtf8_utf8Bytes hs]

theorem decodeTextFrame_presented {s : JsString} (hs : isWellFormed s = true)
    {raw : RawData} (h : Presents s raw) :
    raw = RawData.text s ∨ (raw ≠ RawData.text s ∧ decodeTextFrame raw =
      if MAX_WS_PAYLOAD_BYTES < utf8ByteLength s then DecodedFrame.tooLarge
      else DecodedFrame.ok (dropByteOrderMark s) (utf8ByteLength s)) := by
  cases h with
  | text => exact Or.inl rfl
  | buffer =>
      have hparts : [utf8Bytes s].flatten = utf8Bytes s := by simp
      exact Or.inr ⟨fun h => (nomatch h), decodeViews_encoded hs hparts⟩
  | view view hview =>
      have hparts : [view.bytes].flatten = utf8Bytes s := by simpa using hview
      exact Or.inr ⟨fun h => (nomatch h), decodeViews_encoded hs hparts⟩
  | views views hviews =>
      have hdecode := decodeViews_encoded hs hviews
      rw [List.map_map] at hdecode
      exact Or.inr ⟨fun h => (nomatch h), hdecode⟩

theorem parse_byteOrderMark (rest : JsString) :
    Json.parse (0xFEFF :: rest) = none := by
  have hstep : Json.step ⟨Json.Mode.value, [], none⟩ 0xFEFF = none := by
    decide
  rw [Json.parse, Json.run_cons, hstep]
  rfl

theorem utf8ByteLength_byteOrderMark (rest : JsString) :
    utf8ByteLength rest ≤ utf8ByteLength (0xFEFF :: rest) := by
  rw [utf8ByteLength_cons (by decide)]
  exact Nat.le_add_left _ _

theorem parseMessage_text {s : JsString}
    (hsize : utf8ByteLength s ≤ MAX_WS_PAYLOAD_BYTES) :
    parseMessage (RawData.text s) clientMessageSchema =
      match Json.parse s with
      | none => Except.error ProtocolParseErrorCode.invalid_json
      | some parsed =>
          match clientMessageSchema parsed with
          | some data => Except.ok data
          | none => Except.error ProtocolParseErrorCode.invalid_message := by
  dsimp only [parseMessage]
  rw [if_neg (Nat.not_lt.mpr hsize)]
  cases Json.parse s with
  | none => rfl
  | some parsed =>
      dsimp only
      cases clientMessageSchema parsed with
      | none => rfl
      | some data => rfl

theorem parseClientMessage_text (s : JsString) :
    parseClientMessage (RawData.text s) false =
      if MAX_WS_PAYLOAD_BYTES < utf8ByteLength s then
        Except.error ProtocolParseErrorCode.payload_too_large
      else parseMessage (RawData.text s) clientMessageSchema := rfl

theorem parseClientMessage_decoded {s : JsString} {raw : RawData}
    (h : decodeTextFrame raw =
      if MAX_WS_PAYLOAD_BYTES < utf8ByteLength s then DecodedFrame.tooLarge
      else DecodedFrame.ok (dropByteOrderMark s) (utf8ByteLength s)) :
    parseClientMessage raw false =
      if MAX_WS_PAYLOAD_BYTES < utf8ByteLength s then
        Except.error ProtocolParseErrorCode.payload_too_large
      else parseMessage (RawData.text (dropByteOrderMark s))
        clientMessageSchema := by
  unfold parseClientMessage
  rw [h]
  by_cases hsize : MAX_WS_PAYLOAD_BYTES < utf8ByteLength s
  · simp only [hsize, if_true]
    rfl
  · simp only [hsize, if_false]
    rfl

theorem dropByteOrderMark_of_ne {s : JsString}
    (h : forall rest, s ≠ 0xFEFF :: rest) : dropByteOrderMark s = s := by
  unfold dropByteOrderMark
  split
  · rename_i rest
    exact absurd rfl (h rest)
  · rfl

/-- The result for marked bytes differs from that for the string exactly when
what follows the mark is JSON. -/
theorem parse_marked {rest : JsString}
    (hsize : utf8ByteLength (0xFEFF :: rest) ≤ MAX_WS_PAYLOAD_BYTES) :
    parseMessage (RawData.text rest) clientMessageSchema =
        parseMessage (RawData.text (0xFEFF :: rest)) clientMessageSchema <->
      (Json.parse rest).isSome = false := by
  have hrest := Nat.le_trans (utf8ByteLength_byteOrderMark rest) hsize
  rw [parseMessage_text hsize, parseMessage_text hrest,
    parse_byteOrderMark rest]
  cases hparse : Json.parse rest with
  | none => exact ⟨fun _ => rfl, fun _ => rfl⟩
  | some parsed =>
      dsimp only
      cases clientMessageSchema parsed with
      | none => exact iff_of_false (fun h => (nomatch h)) (fun h => (nomatch h))
      | some data =>
          exact iff_of_false (fun h => (nomatch h)) (fun h => (nomatch h))

/-- The representation of a frame matters only where a byte order mark stands
before a JSON text. -/
theorem parseClientMessage_presented {s : JsString}
    (hs : isWellFormed s = true) {raw : RawData} (h : Presents s raw) :
    parseClientMessage raw false =
        parseClientMessage (RawData.text s) false <->
      raw = RawData.text s ∨ ¬ MarkedJson s := by
  rcases decodeTextFrame_presented hs h with htext | ⟨hother, hdecode⟩
  · rw [htext]
    exact ⟨fun _ => Or.inl rfl, fun _ => rfl⟩
  · have hmarked : (raw = RawData.text s ∨ ¬ MarkedJson s) <->
        ¬ MarkedJson s :=
      ⟨fun h => h.resolve_left hother, Or.inr⟩
    rw [hmarked, parseClientMessage_decoded hdecode, parseClientMessage_text]
    by_cases hsize : MAX_WS_PAYLOAD_BYTES < utf8ByteLength s
    · rw [if_pos hsize, if_pos hsize]
      refine ⟨fun _ hjson => ?_, fun _ => rfl⟩
      rcases hjson with ⟨_, _, hsmall, _⟩
      exact Nat.not_lt.mpr hsmall hsize
    · rw [if_neg hsize, if_neg hsize]
      by_cases hmark : exists rest, s = 0xFEFF :: rest
      · rcases hmark with ⟨rest, hrest⟩
        subst hrest
        have hsmall := Nat.not_lt.mp hsize
        show parseMessage (RawData.text rest) _ = _ <-> _
        rw [parse_marked hsmall]
        constructor
        · intro hnone hjson
          rcases hjson with ⟨rest', heq, _, hsome⟩
          cases heq
          rw [hnone] at hsome
          cases hsome
        · intro hjson
          cases hparse : (Json.parse rest).isSome with
          | false => rfl
          | true => exact absurd ⟨rest, rfl, hsmall, hparse⟩ hjson
      · have hne : forall rest, s ≠ 0xFEFF :: rest :=
          fun rest hrest => hmark ⟨rest, hrest⟩
        rw [dropByteOrderMark_of_ne hne]
        refine ⟨fun _ hjson => ?_, fun _ => rfl⟩
        rcases hjson with ⟨rest, hrest, _⟩
        exact hne rest hrest

def resizeText : JsString :=
  ClientMessage.frame (ClientMessage.resize
    (js "00000000-0000-4000-8000-000000000000") 80 24)

/-- The bytes of a text with a byte order mark are accepted, the text is
not. -/
theorem parseClientMessage_presented_marked :
    isWellFormed (0xFEFF :: resizeText) = true ∧
      Presents (0xFEFF :: resizeText)
        (RawData.bytes (utf8Bytes (0xFEFF :: resizeText))) ∧
      parseClientMessage (RawData.bytes (utf8Bytes (0xFEFF :: resizeText)))
          false ≠
        parseClientMessage (RawData.text (0xFEFF :: resizeText)) false := by
  have hbytes : parseClientMessage
      (RawData.bytes (utf8Bytes (0xFEFF :: resizeText))) false =
        Except.ok (ClientMessage.resize
          (js "00000000-0000-4000-8000-000000000000") 80 24) := by
    decide +kernel
  have htext : parseClientMessage (RawData.text (0xFEFF :: resizeText))
      false = Except.error ProtocolParseErrorCode.invalid_json := by
    decide +kernel
  refine ⟨by decide +kernel, Presents.buffer, ?_⟩
  rw [hbytes, htext]
  exact fun h => nomatch h

theorem parseClientMessage_presented_split :
    parseClientMessage (RawData.views
        ([View.mk [0, 0xC3] 1 1, View.mk [0xA9, 7] 0 1].map
          fun view => some view.bytes)) false =
        parseClientMessage (RawData.text (js "é")) false <->
      RawData.views ([View.mk [0, 0xC3] 1 1, View.mk [0xA9, 7] 0 1].map
          fun view => some view.bytes) = RawData.text (js "é") ∨
        ¬ MarkedJson (js "é") :=
  parseClientMessage_presented (by decide)
    (Presents.views [View.mk [0, 0xC3] 1 1, View.mk [0xA9, 7] 0 1] (by decide))

end Shared
end FlanTerminal

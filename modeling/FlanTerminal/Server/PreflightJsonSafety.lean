import Mathlib.Data.List.Perm.Subperm
import FlanTerminal.Server.PreflightJson

/-!
# Exactly the values that JSON can say

The walk of `preflightJson` against the tree that a value unfolds to.  The
tree is finite, so nothing in it is a part of itself; what occurs in several
places is in it several times.
-/

namespace FlanTerminal
namespace Server
namespace SecureJsonFile

open Foundation
open WorkStack (bind_ok_iff)

/-!
## The length of a quoted string
-/

theorem utf8ByteLength_escapeUnit (u : UInt16) :
    utf8ByteLength (Json.escapeUnit u) = jsonUnitByteLength u := by
  have hfixed : forall c : UInt16, c.toNat < 0x80 ->
      utf8ByteLength [92, c] = 2 := by
    intro c hc
    rw [utf8ByteLength_ascii (s := [92, c])]
    · rfl
    · intro v hv
      rcases List.mem_cons.mp hv with hv | hv
      · rw [hv]
        decide
      · rw [List.mem_singleton.mp hv]
        exact hc
  unfold Json.escapeUnit jsonUnitByteLength
  split
  · rename_i h
    rw [hfixed 98 (by decide), if_pos (by simp [h])]
  split
  · rename_i h
    rw [hfixed 116 (by decide), if_pos (by simp [h])]
  split
  · rename_i h
    rw [hfixed 110 (by decide), if_pos (by simp [h])]
  split
  · rename_i h
    rw [hfixed 102 (by decide), if_pos (by simp [h])]
  split
  · rename_i h
    rw [hfixed 114 (by decide), if_pos (by simp [h])]
  split
  · rename_i h
    rw [hfixed 34 (by decide), if_pos (by simp [h])]
  split
  · rename_i h
    rw [hfixed 92 (by decide), if_pos (by simp [h])]
  rename_i h8 h9 h10 h12 h13 h34 h92
  have hplain : ¬(u = 0x22 ∨ u = 0x5c ∨ u = 0x08 ∨ u = 0x09 ∨ u = 0x0a ∨
      u = 0x0c ∨ u = 0x0d) := by
    simp [h8, h9, h10, h12, h13, h34, h92]
  rw [if_neg hplain]
  by_cases hcontrol : u.toNat < 32
  · rw [if_pos (by simp [hcontrol]), if_pos hcontrol,
      utf8ByteLength_ascii (Json.unicodeEscape_ascii u)]
    rfl
  rw [if_neg hcontrol]
  by_cases hsurrogate : isSurrogate u = true
  · have hrange : 0xD800 ≤ u.toNat := by
      simp only [isSurrogate, Bool.and_eq_true, decide_eq_true_eq] at hsurrogate
      exact hsurrogate.1
    rw [if_pos (by simp [hsurrogate]), if_neg (by omega), if_neg (by omega),
      if_pos hsurrogate, utf8ByteLength_ascii (Json.unicodeEscape_ascii u)]
    rfl
  · rw [if_neg (by simp [hcontrol, hsurrogate]), if_neg hsurrogate]
    rfl

theorem utf8ByteLength_escape_cons {u v : UInt16} {rest : JsString}
    (h : ¬(isHighSurrogate u && isLowSurrogate v) = true) :
    utf8ByteLength (Json.escape (u :: v :: rest)) =
      jsonUnitByteLength u + utf8ByteLength (Json.escape (v :: rest)) := by
  rw [Json.escape, if_neg h,
    utf8ByteLength_append (Json.isWellFormed_escapeUnit u),
    utf8ByteLength_escapeUnit]

theorem utf8ByteLength_escape_pair {u v : UInt16} {rest : JsString}
    (h : (isHighSurrogate u && isLowSurrogate v) = true) :
    utf8ByteLength (Json.escape (u :: v :: rest)) =
      4 + utf8ByteLength (Json.escape rest) := by
  rw [Json.escape, if_pos h]
  rw [Bool.and_eq_true] at h
  exact utf8ByteLength_pair h.1 h.2 _

/-- The loop is exact unless both it and the length are beyond the limit. -/
theorem jsonStringBytesFrom_exact (s : JsString) : forall bytes,
    jsonStringBytesFrom bytes s = bytes + utf8ByteLength (Json.escape s) ∨
      (MAX_SECURE_JSON_BYTES < jsonStringBytesFrom bytes s ∧
        MAX_SECURE_JSON_BYTES < bytes + utf8ByteLength (Json.escape s)) := by
  induction s using Json.escape.induct with
  | case1 =>
      intro bytes
      exact Or.inl rfl
  | case2 u =>
      intro bytes
      apply Or.inl
      rw [jsonStringBytesFrom, Json.escape, utf8ByteLength_escapeUnit]
  | case3 u v rest hpair ih =>
      intro bytes
      rw [jsonStringBytesFrom, if_pos hpair, utf8ByteLength_escape_pair hpair]
      by_cases hover : MAX_SECURE_JSON_BYTES < bytes + 4
      · rw [if_pos hover]
        exact Or.inr ⟨hover, by omega⟩
      · rw [if_neg hover, <- Nat.add_assoc]
        exact ih (bytes + 4)
  | case4 u v rest hpair ih =>
      intro bytes
      rw [jsonStringBytesFrom, if_neg hpair, utf8ByteLength_escape_cons hpair]
      by_cases hover : MAX_SECURE_JSON_BYTES < bytes + jsonUnitByteLength u
      · rw [if_pos hover]
        exact Or.inr ⟨hover, by omega⟩
      · rw [if_neg hover, <- Nat.add_assoc]
        exact ih (bytes + jsonUnitByteLength u)

theorem utf8ByteLength_quote (s : JsString) :
    utf8ByteLength (Json.quote s) = 2 + utf8ByteLength (Json.escape s) := by
  have hwell : isWellFormed (34 :: Json.escape s) = true :=
    Json.isWellFormed_cons (by decide) (Json.isWellFormed_escape s)
  rw [Json.quote, utf8ByteLength_append hwell,
    utf8ByteLength_cons (by decide)]
  show 1 + _ + 1 = _
  omega

/-- A count that a quoted string is added to stays within the limit exactly
when it does with the length of its text. -/
theorem jsonStringByteLength_exact (s : JsString) (before after : Nat) :
    before + (jsonStringByteLength s + after) ≤ MAX_SECURE_JSON_BYTES <->
      before + (utf8ByteLength (Json.quote s) + after) ≤
        MAX_SECURE_JSON_BYTES := by
  rw [utf8ByteLength_quote, jsonStringByteLength]
  rcases jsonStringBytesFrom_exact s 2 with h | h
  · rw [h]
  · omega

theorem jsonStringByteLength_eq {s : JsString} {before after : Nat}
    (h : before + (utf8ByteLength (Json.quote s) + after) ≤
      MAX_SECURE_JSON_BYTES) :
    jsonStringByteLength s = utf8ByteLength (Json.quote s) := by
  rw [utf8ByteLength_quote] at h ⊢
  unfold jsonStringByteLength
  rcases jsonStringBytesFrom_exact s 2 with h' | h'
  · exact h'
  · omega

/-!
## The trees

An array is taken without holes, an object with a plain prototype; of both
only enumerable own properties count, and those hold values under strings.
-/

structure JsObject.Dense (o : JsObject) (xs : List JsValue) : Prop where
  array : o.isArray = true
  length : o.length = xs.length
  elements : forall i v, xs[i]? = some v ->
    o.descriptor (PropertyKey.str (decimalDigits i)) =
      some (Descriptor.data v true)
  no_others : forall key, o.enumerates key = true ->
    exists i, i < xs.length ∧ key = PropertyKey.str (decimalDigits i)

structure JsObject.Plain (o : JsObject) (entries : List (JsString × JsValue)) :
    Prop where
  object : o.isArray = false
  plain_prototype : o.prototype = Prototype.objectPrototype ∨
    o.prototype = Prototype.null
  members : o.properties.filter (fun p => p.2.enumerable) =
    entries.map fun e => (PropertyKey.str e.1, Descriptor.data e.2 true)

mutual

/-- The value unfolds to the tree, and its objects have so many own keys, those
in several places counted as often. -/
def Unfolds (heap : Heap) : Json -> JsValue -> Nat -> Prop
  | Json.null, v, keys => v = JsValue.null ∧ keys = 0
  | Json.bool b, v, keys => v = JsValue.bool b ∧ keys = 0
  | Json.num n, v, keys =>
      v = JsValue.num n ∧ (forall b, n ≠ JsNumber.infinity b) ∧ keys = 0
  | Json.str s, v, keys => v = JsValue.str s ∧ keys = 0
  | Json.arr ts, v, keys => exists r xs inner, v = JsValue.object r ∧
      (heap r).Dense xs ∧ UnfoldsItems heap ts xs inner ∧
        keys = (heap r).ownKeys.length + inner
  | Json.obj ms, v, keys => exists r entries inner, v = JsValue.object r ∧
      (heap r).Plain entries ∧ UnfoldsMembers heap ms entries inner ∧
        keys = (heap r).ownKeys.length + inner

def UnfoldsItems (heap : Heap) : List Json -> List JsValue -> Nat -> Prop
  | [], vs, keys => vs = [] ∧ keys = 0
  | t :: ts, vs, keys => exists v rest first others, vs = v :: rest ∧
      Unfolds heap t v first ∧ UnfoldsItems heap ts rest others ∧
        keys = first + others

def UnfoldsMembers (heap : Heap) : List (JsString × Json) ->
    List (JsString × JsValue) -> Nat -> Prop
  | [], es, keys => es = [] ∧ keys = 0
  | (k, t) :: ms, es, keys => exists v rest first others, es = (k, v) :: rest ∧
      Unfolds heap t v first ∧ UnfoldsMembers heap ms rest others ∧
        keys = first + others

end

theorem unfoldsMembers_iff {heap : Heap} :
    forall {ms : List (JsString × Json)} {es : List (JsString × JsValue)}
      {keys : Nat}, UnfoldsMembers heap ms es keys <->
        ms.map Prod.fst = es.map Prod.fst ∧
          UnfoldsItems heap (ms.map Prod.snd) (es.map Prod.snd) keys := by
  intro ms
  induction ms with
  | nil =>
      intro es keys
      rw [UnfoldsMembers, List.map_nil, List.map_nil, UnfoldsItems]
      cases es with
      | nil => exact ⟨fun h => ⟨rfl, rfl, h.2⟩, fun h => ⟨rfl, h.2.2⟩⟩
      | cons e es => exact ⟨fun h => (by cases h.1), fun h => (by cases h.1)⟩
  | cons m ms ih =>
      intro es keys
      obtain ⟨k, t⟩ := m
      rw [UnfoldsMembers, List.map_cons, List.map_cons, UnfoldsItems]
      constructor
      · intro h
        obtain ⟨v, rest, first, others, hes, ht, hms, hkeys⟩ := h
        obtain ⟨hnames, hitems⟩ := ih.mp hms
        rw [hes, List.map_cons, List.map_cons, hnames]
        exact ⟨rfl, v, rest.map Prod.snd, first, others, rfl, ht, hitems, hkeys⟩
      · intro h
        obtain ⟨hnames, v, rest, first, others, hvs, ht, hitems, hkeys⟩ := h
        cases es with
        | nil => cases hnames
        | cons e es =>
            rw [List.map_cons] at hnames hvs
            injection hnames with hk hnames
            injection hvs with hv hvs
            rw [<- hvs] at hitems
            have he : e = (k, v) := by
              rw [<- hv]
              exact Prod.ext hk.symm rfl
            exact ⟨v, es, first, others, by rw [he], ht,
              ih.mpr ⟨hnames, hitems⟩, hkeys⟩

theorem UnfoldsItems.length {heap : Heap} : forall {ts : List Json}
    {vs : List JsValue} {keys : Nat}, UnfoldsItems heap ts vs keys ->
      ts.length = vs.length := by
  intro ts
  induction ts with
  | nil =>
      intro vs keys h
      rw [UnfoldsItems] at h
      rw [h.1]
      rfl
  | cons t ts ih =>
      intro vs keys h
      rw [UnfoldsItems] at h
      obtain ⟨v, rest, first, others, hvs, _, hitems, _⟩ := h
      rw [hvs, List.length_cons, List.length_cons, ih hitems]

/-!
## The properties of an object
-/

namespace JsObject

theorem keys_nodup (o : JsObject) : (o.properties.map Prod.fst).Nodup := by
  rw [List.Nodup, List.pairwise_map]
  apply o.ordered.imp
  intro p q hbefore heq
  rw [heq] at hbefore
  cases hq : q.1 with
  | str k =>
      rw [hq] at hbefore
      exact hbefore.1 rfl
  | symbol id =>
      rw [hq] at hbefore
      exact hbefore rfl

theorem descriptor_eq_some {o : JsObject} {key : PropertyKey} {d : Descriptor} :
    o.descriptor key = some d <-> (key, d) ∈ o.properties := by
  have hnodup := o.keys_nodup
  unfold descriptor
  revert hnodup
  induction o.properties with
  | nil => simp
  | cons p ps ih =>
      intro hnodup
      rw [List.map_cons, List.nodup_cons] at hnodup
      rw [List.find?_cons, List.mem_cons]
      by_cases hkey : p.1 = key
      · rw [beq_iff_eq.mpr hkey]
        constructor
        · intro h
          cases h
          exact Or.inl (Prod.ext hkey.symm rfl)
        · intro h
          rcases h with h | h
          · rw [<- h]
            rfl
          · exact absurd (List.mem_map_of_mem (f := Prod.fst) h)
              (hkey ▸ hnodup.1)
      · rw [beq_false_of_ne hkey]
        constructor
        · intro h
          exact Or.inr ((ih hnodup.2).mp h)
        · intro h
          rcases h with h | h
          · exact absurd (congrArg Prod.fst h).symm hkey
          · exact (ih hnodup.2).mpr h

theorem enumerates_iff {o : JsObject} {key : PropertyKey} :
    o.enumerates key = true <->
      exists d, o.descriptor key = some d ∧ d.enumerable = true := by
  unfold enumerates
  rw [Option.any_eq_true]

theorem mem_ownKeys_of_enumerates {o : JsObject} {key : PropertyKey}
    (h : o.enumerates key = true) : key ∈ o.ownKeys := by
  obtain ⟨d, hd, _⟩ := enumerates_iff.mp h
  exact List.mem_map_of_mem (f := Prod.fst) (descriptor_eq_some.mp hd)

def indexKeys (n : Nat) : List PropertyKey :=
  (List.range n).map fun i => PropertyKey.str (decimalDigits i)

theorem mem_indexKeys {n : Nat} {key : PropertyKey} : key ∈ indexKeys n <->
    exists i, i < n ∧ key = PropertyKey.str (decimalDigits i) := by
  unfold indexKeys
  rw [List.mem_map]
  constructor
  · intro h
    obtain ⟨i, hi, hkey⟩ := h
    exact ⟨i, List.mem_range.mp hi, hkey.symm⟩
  · intro h
    obtain ⟨i, hi, hkey⟩ := h
    exact ⟨i, List.mem_range.mpr hi, hkey.symm⟩

theorem indexKeys_nodup (n : Nat) : (indexKeys n).Nodup := by
  apply List.nodup_range.map
  intro i j h
  injection h with h
  exact decimalDigits_injective h

/-- Enumerable elements that are as many as the enumerable keys are all of
them. -/
theorem dense_iff {o : JsObject} (harray : o.isArray = true)
    {xs : List JsValue} : o.Dense xs <->
      o.length = xs.length ∧
        (forall i v, xs[i]? = some v ->
          o.descriptor (PropertyKey.str (decimalDigits i)) =
            some (Descriptor.data v true)) ∧
        (o.ownKeys.filter o.enumerates).length = o.length := by
  have hnodup : (o.ownKeys.filter o.enumerates).Nodup := o.keys_nodup.filter _
  have hsubset : (forall i v, xs[i]? = some v ->
      o.descriptor (PropertyKey.str (decimalDigits i)) =
        some (Descriptor.data v true)) ->
      indexKeys xs.length ⊆ o.ownKeys.filter o.enumerates := by
    intro helements key hkey
    obtain ⟨i, hi, hkey⟩ := mem_indexKeys.mp hkey
    have henumerates : o.enumerates key = true :=
      enumerates_iff.mpr ⟨Descriptor.data xs[i] true, by
        rw [hkey]
        exact helements i xs[i] (List.getElem?_eq_getElem hi), rfl⟩
    exact List.mem_filter.mpr
      ⟨mem_ownKeys_of_enumerates henumerates, henumerates⟩
  have hindices : (indexKeys xs.length).length = xs.length := by
    simp [indexKeys]
  constructor
  · intro h
    refine ⟨h.length, h.elements, ?_⟩
    have hsub : o.ownKeys.filter o.enumerates ⊆ indexKeys xs.length := by
      intro key hkey
      exact mem_indexKeys.mpr (h.no_others key (List.mem_filter.mp hkey).2)
    have hle := (List.subperm_of_subset hnodup hsub).length_le
    have hge := (List.subperm_of_subset (indexKeys_nodup xs.length)
      (hsubset h.elements)).length_le
    rw [h.length]
    omega
  · intro h
    obtain ⟨hlength, helements, hcount⟩ := h
    refine ⟨harray, hlength, helements, ?_⟩
    intro key hkey
    have hperm := (List.subperm_of_subset (indexKeys_nodup xs.length)
      (hsubset helements)).perm_of_length_le (by omega)
    exact mem_indexKeys.mp (hperm.mem_iff.mpr
      (List.mem_filter.mpr ⟨mem_ownKeys_of_enumerates hkey, hkey⟩))

theorem Dense.no_symbols {o : JsObject} {xs : List JsValue} (h : o.Dense xs) :
    (o.ownKeys.filter o.enumerates).any
      (fun key => key matches PropertyKey.symbol _) = false := by
  rw [List.any_eq_false]
  intro key hkey
  obtain ⟨i, _, hkey⟩ := h.no_others key (List.mem_filter.mp hkey).2
  rw [hkey]
  exact Bool.false_ne_true

theorem Dense.length_le {o : JsObject} {xs : List JsValue} (h : o.Dense xs) :
    o.length ≤ o.ownKeys.length := by
  have hcount := ((dense_iff h.array).mp h).2.2
  rw [<- hcount]
  exact List.length_filter_le _ _

end JsObject

theorem collectEntries_ok : forall {ps : List (PropertyKey × Descriptor)}
    {entries : List (JsString × JsValue)},
    collectEntries ps = Except.ok entries <->
      ps.filter (fun p => p.2.enumerable) =
        entries.map fun e => (PropertyKey.str e.1, Descriptor.data e.2 true) := by
  intro ps
  induction ps with
  | nil =>
      intro entries
      rw [collectEntries, List.filter_nil]
      constructor
      · intro h
        cases h
        rfl
      · intro h
        rw [List.map_eq_nil_iff.mp h.symm]
        rfl
  | cons p ps ih =>
      intro entries
      obtain ⟨key, d⟩ := p
      cases d with
      | data v e =>
          cases e with
          | false =>
              rw [collectEntries]
              exact ih
          | true =>
              cases key with
              | symbol id =>
                  constructor
                  · intro h
                    cases h
                  · intro h
                    cases entries with
                    | nil => cases h
                    | cons e es => cases h
              | str k =>
                  rw [collectEntries, bind_ok_iff]
                  constructor
                  · intro h
                    obtain ⟨es, hes, h⟩ := h
                    cases h
                    exact congrArg _ (ih.mp hes)
                  · intro h
                    cases entries with
                    | nil => cases h
                    | cons e es =>
                        injection h with hhead htail
                        cases hhead
                        exact ⟨es, ih.mpr htail, rfl⟩
      | accessor e =>
          cases e with
          | false =>
              rw [collectEntries]
              exact ih
          | true =>
              cases key with
              | symbol id =>
                  constructor
                  · intro h
                    cases h
                  · intro h
                    cases entries with
                    | nil => cases h
                    | cons e es => cases h
              | str k =>
                  constructor
                  · intro h
                    cases h
                  · intro h
                    cases entries with
                    | nil => cases h
                    | cons e es => cases h

/-!
## What is pushed for the parts
-/

/-- The parts of a value as items of the stack, the first one on top. -/
def children (clone depth : Nat) (parts : List (ChildKey × JsValue)) :
    List PreflightWork :=
  parts.map fun p => PreflightWork.value p.2 (some (clone, p.1)) (depth + 1)

def indexed (xs : List JsValue) : List (ChildKey × JsValue) :=
  xs.zipIdx.map fun p => (ChildKey.index p.2, p.1)

def named (entries : List (JsString × JsValue)) : List (ChildKey × JsValue) :=
  entries.map fun e => (ChildKey.name e.1, e.2)

theorem indexed_snoc (xs : List JsValue) (v : JsValue) :
    indexed (xs ++ [v]) = indexed xs ++ [(ChildKey.index xs.length, v)] := by
  unfold indexed
  rw [List.zipIdx_append, List.map_append]
  simp

theorem map_snd_indexed (xs : List JsValue) :
    (indexed xs).map Prod.snd = xs := by
  unfold indexed
  rw [List.map_map]
  exact List.zipIdx_map_fst 0 xs

theorem map_snd_named (entries : List (JsString × JsValue)) :
    (named entries).map Prod.snd = entries.map Prod.snd := by
  unfold named
  rw [List.map_map]
  rfl

theorem children_snoc (clone depth : Nat) (parts : List (ChildKey × JsValue))
    (p : ChildKey × JsValue) (work : List PreflightWork) :
    children clone depth parts ++
        PreflightWork.value p.2 (some (clone, p.1)) (depth + 1) :: work =
      children clone depth (parts ++ [p]) ++ work := by
  unfold children
  rw [List.map_append, List.append_assoc]
  rfl

theorem pushElements_ok {o : JsObject} {clone depth : Nat} : forall {n : Nat}
    {work work' : List PreflightWork},
    pushElements o clone depth n work = Except.ok work' <->
      exists xs, xs.length = n ∧
        (forall i v, xs[i]? = some v ->
          o.descriptor (PropertyKey.str (decimalDigits i)) =
            some (Descriptor.data v true)) ∧
        work' = children clone depth (indexed xs) ++ work := by
  intro n
  induction n with
  | zero =>
      intro work work'
      constructor
      · intro h
        cases h
        exact ⟨[], rfl, fun i v h => (by cases h), rfl⟩
      · intro h
        obtain ⟨xs, hlength, _, hwork⟩ := h
        rw [hwork, List.length_eq_zero_iff.mp hlength]
        rfl
  | succ n ih =>
      intro work work'
      constructor
      · intro h
        rw [pushElements] at h
        split at h
        · rename_i v hv
          obtain ⟨xs, hlength, helements, hwork⟩ := ih.mp h
          refine ⟨xs ++ [v], by simp [hlength], ?_, ?_⟩
          · intro i w hw
            by_cases hi : i < xs.length
            · rw [List.getElem?_append_left hi] at hw
              exact helements i w hw
            · rw [List.getElem?_append_right (Nat.le_of_not_lt hi)] at hw
              have hzero : i - xs.length = 0 := by
                by_contra hne
                rw [List.getElem?_eq_none (by simp; omega)] at hw
                cases hw
              rw [hzero] at hw
              cases hw
              have hin : i = n := by omega
              rw [hin]
              exact hv
          · rw [hwork, indexed_snoc, <- children_snoc, hlength]
        · cases h
      · intro h
        obtain ⟨xs, hlength, helements, hwork⟩ := h
        rcases List.eq_nil_or_concat xs with hnil | ⟨ys, v, hsnoc⟩
        · rw [hnil] at hlength
          cases hlength
        · rw [List.concat_eq_append] at hsnoc
          have hys : ys.length = n := by
            rw [hsnoc, List.length_append] at hlength
            exact Nat.succ.inj hlength
          have hlast : o.descriptor (PropertyKey.str (decimalDigits n)) =
              some (Descriptor.data v true) := by
            apply helements
            rw [hsnoc, <- hys]
            exact List.getElem?_concat_length
          rw [pushElements, hlast]
          apply ih.mpr
          refine ⟨ys, hys, ?_, ?_⟩
          · intro i w hw
            apply helements
            rw [hsnoc, List.getElem?_append_left]
            · exact hw
            · by_contra hnot
              rw [List.getElem?_eq_none (Nat.le_of_not_lt hnot)] at hw
              cases hw
          · rw [hwork, hsnoc, indexed_snoc, <- children_snoc, hys]

def keyBytes (entries : List (JsString × JsValue)) : Nat :=
  (entries.map fun e => utf8ByteLength (Json.quote e.1) + 1).sum

theorem pushMembers_ok {clone depth : Nat} :
    forall {entries : List (JsString × JsValue)} {work : List PreflightWork}
      {l : Locals} {res : List PreflightWork × Locals},
      l.byteCount ≤ MAX_SECURE_JSON_BYTES ->
      (pushMembers clone depth entries work l = Except.ok res <->
        l.byteCount + keyBytes entries ≤ MAX_SECURE_JSON_BYTES ∧
          res = (children clone depth (named entries) ++ work,
            { l with byteCount := l.byteCount + keyBytes entries })) := by
  intro entries
  induction entries with
  | nil =>
      intro work l res hl
      constructor
      · intro h
        cases h
        exact ⟨hl, rfl⟩
      · intro h
        rw [h.2]
        rfl
  | cons e entries ih =>
      intro work l res hl
      obtain ⟨key, v⟩ := e
      have hbytes : keyBytes ((key, v) :: entries) =
          utf8ByteLength (Json.quote key) + 1 + keyBytes entries := by
        simp [keyBytes]
      rw [pushMembers, bind_ok_iff]
      constructor
      · intro h
        obtain ⟨⟨work', l'⟩, hrest, h⟩ := h
        change (addBytes (jsonStringByteLength key + 1) l' >>= fun l =>
          pure (PreflightWork.value v (some (clone, ChildKey.name key))
            (depth + 1) :: work', l)) = Except.ok res at h
        obtain ⟨l'', hadd, hres⟩ := bind_ok_iff.mp h
        obtain ⟨hle, hrest⟩ := (ih hl).mp hrest
        cases hrest
        obtain ⟨hle', hl''⟩ := addBytes_ok.mp hadd
        have hexact := (jsonStringByteLength_exact key _ 1).mp hle'
        rw [jsonStringByteLength_eq hexact] at hl''
        cases hres
        rw [hl'']
        change l.byteCount + keyBytes entries + _ ≤ _ at hexact
        refine ⟨by omega, ?_⟩
        have hsum : l.byteCount + keyBytes entries +
            (utf8ByteLength (Json.quote key) + 1) =
            l.byteCount + keyBytes ((key, v) :: entries) := by omega
        rw [<- hsum]
        rfl
      · intro h
        obtain ⟨hle, hres⟩ := h
        have hexact : l.byteCount + keyBytes entries +
            (utf8ByteLength (Json.quote key) + 1) ≤ MAX_SECURE_JSON_BYTES := by
          omega
        refine ⟨_, (ih hl).mpr ⟨by omega, rfl⟩, ?_⟩
        refine bind_ok_iff.mpr ⟨_, addBytes_ok.mpr
          ⟨(jsonStringByteLength_exact key _ 1).mpr hexact, rfl⟩, ?_⟩
        rw [hres, jsonStringByteLength_eq hexact, hbytes]
        show Except.ok (_, { l with
          byteCount := l.byteCount + keyBytes entries + _ }) = _
        rw [Nat.add_assoc l.byteCount, Nat.add_comm (keyBytes entries)]
        rfl

/-!
## Entering an object
-/

def enter (l : Locals) (parent : Parent) (r : Ref) (new : JsonContainer)
    (own bytes : Nat) : Locals :=
  { assign parent (Copy.container l.clones.length)
      { l with clones := l.clones ++ [new] } with
    ancestors := l.ancestors.add r
    byteCount := l.byteCount + bytes
    keyCount := l.keyCount + own
    nodeCount := l.nodeCount + 1 }

/-- The parts that an object is entered for, its empty copy, and the bytes of
its brackets, commas and keys. -/
inductive Opens (o : JsObject) :
    List (ChildKey × JsValue) -> JsonContainer -> Nat -> Prop where
  | array {xs : List JsValue} (h : o.Dense xs) :
      Opens o (indexed xs) (JsonContainer.arr (List.replicate xs.length none))
        (2 + (xs.length - 1))
  | object {entries : List (JsString × JsValue)} (h : o.Plain entries) :
      Opens o (named entries) (JsonContainer.obj [])
        (2 + (entries.length - 1) + keyBytes entries)

@[simp] theorem assign_byteCount (parent : Parent) (next : Copy) (l : Locals) :
    (assign parent next l).byteCount = l.byteCount := by
  cases parent with
  | none => rfl
  | some target => rfl

@[simp] theorem assign_keyCount (parent : Parent) (next : Copy) (l : Locals) :
    (assign parent next l).keyCount = l.keyCount := by
  cases parent with
  | none => rfl
  | some target => rfl

@[simp] theorem assign_ancestors (parent : Parent) (next : Copy) (l : Locals) :
    (assign parent next l).ancestors = l.ancestors := by
  cases parent with
  | none => rfl
  | some target => rfl

section Entering

variable {o : JsObject} {r : Ref} {parent : Parent} {depth own : Nat}
variable {l : Locals} {res : List PreflightWork × Locals}

def Locals.entered (l : Locals) (r : Ref) (own : Nat) : Locals :=
  { l with
    ancestors := l.ancestors.add r
    keyCount := l.keyCount + own
    nodeCount := l.nodeCount + 1 }

theorem enter_eq (new : JsonContainer) (bytes : Nat) :
    { assign parent (Copy.container l.clones.length)
        { l.entered r own with clones := l.clones ++ [new] } with
      byteCount := l.byteCount + bytes } =
      enter l parent r new own bytes := by
  cases parent with
  | none => rfl
  | some target => rfl

theorem visitArray_ok (harray : o.isArray = true)
    (hkeys : o.ownKeys.length ≤ MAX_SERIALIZATION_NODES) :
    visitArray o r parent depth (l.entered r own) = Except.ok res <->
      exists parts new bytes, Opens o parts new bytes ∧
        l.byteCount + bytes ≤ MAX_SECURE_JSON_BYTES ∧
        res = (children l.clones.length depth parts ++ [PreflightWork.exit r],
          enter l parent r new own bytes) := by
  constructor
  · intro h
    obtain ⟨_, h⟩ := ok_of_ite h
    obtain ⟨hkeys, h⟩ := ok_of_ite h
    obtain ⟨l', hbytes, h⟩ := bind_ok_iff.mp h
    obtain ⟨work, hwork, h⟩ := bind_ok_iff.mp h
    cases h
    obtain ⟨hle, hl'⟩ := addBytes_ok.mp hbytes
    rw [assign_byteCount] at hle
    obtain ⟨xs, hlength, helements, hwork⟩ := pushElements_ok.mp hwork
    have hdense : o.Dense xs := (JsObject.dense_iff harray).mpr
      ⟨hlength.symm, helements, by_contra fun hne => hkeys (Or.inr hne)⟩
    rw [<- hlength] at hle hl'
    refine ⟨_, _, _, Opens.array hdense, hle, ?_⟩
    rw [hl', hwork, <- enter_eq, assign_byteCount]
    rfl
  · intro h
    obtain ⟨parts, new, bytes, hopens, hle, hres⟩ := h
    cases hopens with
    | object h => exact absurd (h.object.symm.trans harray) (by decide)
    | @array xs h =>
        have hlength := h.length
        have hcount := ((JsObject.dense_iff harray).mp h).2.2
        have hmax := h.length_le
        have hsymbols : ¬((o.ownKeys.filter o.enumerates).any
            (fun key => key matches PropertyKey.symbol _) = true ∨
            (o.ownKeys.filter o.enumerates).length ≠ o.length) := by
          intro hor
          rcases hor with hor | hor
          · exact Bool.false_ne_true (h.no_symbols.symm.trans hor)
          · exact hor hcount
        refine ite_ok (by omega) (ite_ok hsymbols ?_)
        refine bind_ok_iff.mpr ⟨_, addBytes_ok.mpr ⟨?_, rfl⟩, ?_⟩
        · rw [assign_byteCount, hlength]
          exact hle
        · refine bind_ok_iff.mpr ⟨_, pushElements_ok.mpr
            ⟨xs, hlength.symm, h.elements, rfl⟩, ?_⟩
          rw [hres, <- enter_eq, assign_byteCount, hlength]
          rfl

theorem visitObject_ok (hobject : o.isArray = false) :
    visitObject o r parent depth (l.entered r own) = Except.ok res <->
      exists parts new bytes, Opens o parts new bytes ∧
        l.byteCount + bytes ≤ MAX_SECURE_JSON_BYTES ∧
        res = (children l.clones.length depth parts ++ [PreflightWork.exit r],
          enter l parent r new own bytes) := by
  constructor
  · intro h
    obtain ⟨hprototype, h⟩ := ok_of_ite h
    obtain ⟨entries, hentries, h⟩ := bind_ok_iff.mp h
    obtain ⟨l', hbytes, h⟩ := bind_ok_iff.mp h
    obtain ⟨hle, hl'⟩ := addBytes_ok.mp hbytes
    rw [assign_byteCount] at hle
    have hplain : o.Plain entries := by
      refine ⟨hobject, ?_, collectEntries_ok.mp hentries⟩
      by_contra hnot
      rw [not_or] at hnot
      exact hprototype hnot
    have hbound : l'.byteCount ≤ MAX_SECURE_JSON_BYTES := by
      rw [hl', assign_byteCount]
      exact hle
    obtain ⟨hle', hres⟩ := (pushMembers_ok hbound).mp h
    rw [assign_byteCount] at hl'
    have hentered : l' = enter l parent r (JsonContainer.obj []) own
        (2 + (entries.length - 1)) := hl'.trans (enter_eq _ _)
    rw [hentered] at hle'
    change l.byteCount + _ + _ ≤ _ at hle'
    refine ⟨_, _, _, Opens.object hplain, by omega, ?_⟩
    rw [hres, hentered]
    exact congrArg (fun bytes =>
      (children l.clones.length depth (named entries) ++
          [PreflightWork.exit r],
        { enter l parent r (JsonContainer.obj []) own 0 with
          byteCount := bytes })) (Nat.add_assoc _ _ _)
  · intro h
    obtain ⟨parts, new, bytes, hopens, hle, hres⟩ := h
    cases hopens with
    | array h => exact absurd (h.array.symm.trans hobject) (by decide)
    | @object entries h =>
        have hprototype : ¬(o.prototype ≠ Prototype.objectPrototype ∧
            o.prototype ≠ Prototype.null) := fun hand =>
          h.plain_prototype.elim hand.1 hand.2
        refine ite_ok hprototype ?_
        refine bind_ok_iff.mpr ⟨entries, collectEntries_ok.mpr h.members, ?_⟩
        refine bind_ok_iff.mpr ⟨enter l parent r (JsonContainer.obj []) own
          (2 + (entries.length - 1)), addBytes_ok.mpr ⟨?_, ?_⟩, ?_⟩
        · rw [assign_byteCount]
          show l.byteCount + _ ≤ _
          omega
        · rw [assign_byteCount]
          exact (enter_eq _ _).symm
        · rw [pushMembers_ok]
          · refine ⟨?_, ?_⟩
            · show l.byteCount + _ + _ ≤ _
              omega
            · rw [hres]
              exact congrArg (fun bytes =>
                (children l.clones.length depth (named entries) ++
                    [PreflightWork.exit r],
                  { enter l parent r (JsonContainer.obj []) own 0 with
                    byteCount := bytes })) (Nat.add_assoc _ _ _).symm
          · show l.byteCount + _ ≤ _
            omega

theorem visit_object_ok {heap : Heap} :
    visit heap (JsValue.object r) parent depth l = Except.ok res <->
      (l.nodeCount + 1 ≤ MAX_SERIALIZATION_NODES ∧
        depth ≤ MAX_SERIALIZATION_DEPTH ∧ r ∉ l.ancestors ∧
        l.keyCount + (heap r).ownKeys.length ≤ MAX_SERIALIZATION_KEYS) ∧
      exists parts new bytes, Opens (heap r) parts new bytes ∧
        l.byteCount + bytes ≤ MAX_SECURE_JSON_BYTES ∧
        res = (children l.clones.length depth parts ++ [PreflightWork.exit r],
          enter l parent r new (heap r).ownKeys.length bytes) := by
  have hbranches : l.keyCount + (heap r).ownKeys.length ≤
        MAX_SERIALIZATION_KEYS ->
      ((if (heap r).isArray = true then
          visitArray (heap r) r parent depth
            (l.entered r (heap r).ownKeys.length)
        else visitObject (heap r) r parent depth
          (l.entered r (heap r).ownKeys.length)) = Except.ok res <->
      exists parts new bytes, Opens (heap r) parts new bytes ∧
        l.byteCount + bytes ≤ MAX_SECURE_JSON_BYTES ∧
        res = (children l.clones.length depth parts ++ [PreflightWork.exit r],
          enter l parent r new (heap r).ownKeys.length bytes)) := by
    intro hkeys
    by_cases harray : (heap r).isArray = true
    · rw [if_pos harray]
      exact visitArray_ok harray
        (Nat.le_trans (Nat.le_add_left _ _) hkeys)
    · rw [if_neg harray]
      exact visitObject_ok (by simpa using harray)
  constructor
  · intro h
    obtain ⟨hlimits, h⟩ := ok_of_ite h
    obtain ⟨hfree, h⟩ := ok_of_ite h
    obtain ⟨hkeys, h⟩ := ok_of_ite h
    have hkeys' : l.keyCount + (heap r).ownKeys.length ≤
        MAX_SERIALIZATION_KEYS := Nat.le_of_not_lt hkeys
    exact ⟨⟨Nat.le_of_not_lt fun hlt => hlimits (Or.inl hlt),
      Nat.le_of_not_lt fun hlt => hlimits (Or.inr hlt), hfree, hkeys'⟩,
      (hbranches hkeys').mp h⟩
  · intro h
    obtain ⟨⟨hnodes, hdepth, hfree, hkeys⟩, h⟩ := h
    have hlimits : ¬(MAX_SERIALIZATION_NODES < l.nodeCount + 1 ∨
        MAX_SERIALIZATION_DEPTH < depth) := by omega
    exact ite_ok hlimits (ite_ok hfree
      (ite_ok (Nat.not_lt_of_le hkeys) ((hbranches hkeys).mpr h)))

end Entering

/-!
## Values without parts
-/

inductive Leaf : JsValue -> Json -> Copy -> Prop where
  | null : Leaf JsValue.null Json.null Copy.null
  | bool (b : Bool) : Leaf (JsValue.bool b) (Json.bool b) (Copy.bool b)
  | num {n : JsNumber} (h : forall b, n ≠ JsNumber.infinity b) :
      Leaf (JsValue.num n) (Json.num n) (Copy.num n)
  | str (s : JsString) : Leaf (JsValue.str s) (Json.str s) (Copy.str s)

def passed (l : Locals) (parent : Parent) (next : Copy) (bytes : Nat) :
    Locals :=
  { assign parent next l with
    byteCount := l.byteCount + bytes
    nodeCount := l.nodeCount + 1 }

theorem leaf_passed {amount : Nat} {next : Copy} {parent : Parent} {l : Locals}
    {res : List PreflightWork × Locals} :
    leaf amount next parent { l with nodeCount := l.nodeCount + 1 } =
        Except.ok res <->
      l.byteCount + amount ≤ MAX_SECURE_JSON_BYTES ∧
        res = ([], passed l parent next amount) := by
  rw [leaf_ok]
  have heq : assign parent next
      { ancestors := l.ancestors
        clones := l.clones
        byteCount := l.byteCount + amount
        keyCount := l.keyCount
        nodeCount := l.nodeCount + 1
        snapshot := l.snapshot } = passed l parent next amount := by
    cases parent with
    | none => rfl
    | some target => rfl
  rw [heq]

section Leaves

variable {heap : Heap} {v : JsValue} {parent : Parent} {depth : Nat}
variable {l : Locals} {res : List PreflightWork × Locals}

theorem visit_leaf_ok (hv : forall r, v ≠ JsValue.object r) :
    visit heap v parent depth l = Except.ok res <->
      (l.nodeCount + 1 ≤ MAX_SERIALIZATION_NODES ∧
        depth ≤ MAX_SERIALIZATION_DEPTH) ∧
      exists t c, Leaf v t c ∧
        l.byteCount + t.size ≤ MAX_SECURE_JSON_BYTES ∧
        res = ([], passed l parent c t.size) := by
  have hvisit : forall {amount : Nat} {c : Copy} {t : Json},
      Leaf v t c ->
      (forall t' c', Leaf v t' c' -> t' = t ∧ c' = c) ->
      (l.byteCount + amount ≤ MAX_SECURE_JSON_BYTES <->
        l.byteCount + t.size ≤ MAX_SECURE_JSON_BYTES) ->
      (l.byteCount + t.size ≤ MAX_SECURE_JSON_BYTES -> amount = t.size) ->
      (leaf amount c parent { l with nodeCount := l.nodeCount + 1 } =
          Except.ok res <->
        exists t c, Leaf v t c ∧
          l.byteCount + t.size ≤ MAX_SECURE_JSON_BYTES ∧
          res = ([], passed l parent c t.size)) := by
    intro amount c t hleaf hunique hexact hamount
    rw [leaf_passed, hexact]
    constructor
    · intro h
      refine ⟨t, c, hleaf, h.1, ?_⟩
      rw [<- hamount h.1]
      exact h.2
    · intro h
      obtain ⟨t', c', hleaf', hle, hres⟩ := h
      obtain ⟨ht, hc⟩ := hunique t' c' hleaf'
      rw [ht] at hle hres
      rw [hc] at hres
      refine ⟨hle, ?_⟩
      rw [hamount hle]
      exact hres
  have hbad : (forall t c, ¬Leaf v t c) -> forall {e : PreflightError},
      ((Except.error e : Checked (List PreflightWork × Locals)) =
          Except.ok res <->
        exists t c, Leaf v t c ∧
          l.byteCount + t.size ≤ MAX_SECURE_JSON_BYTES ∧
          res = ([], passed l parent c t.size)) := by
    intro hnone e
    constructor
    · intro h
      cases h
    · intro h
      obtain ⟨t, c, hleaf, _⟩ := h
      exact absurd hleaf (hnone t c)
  have hlimits : visit heap v parent depth l = Except.ok res <->
      (l.nodeCount + 1 ≤ MAX_SERIALIZATION_NODES ∧
        depth ≤ MAX_SERIALIZATION_DEPTH) ∧
      visit heap v parent depth l = Except.ok res := by
    constructor
    · intro h
      refine ⟨?_, h⟩
      obtain ⟨hlimits, _⟩ := ok_of_ite h
      change ¬(MAX_SERIALIZATION_NODES < l.nodeCount + 1 ∨ _) at hlimits
      omega
    · exact And.right
  rw [hlimits]
  apply and_congr_right
  intro hle
  have hnot : ¬(MAX_SERIALIZATION_NODES < l.nodeCount + 1 ∨
      MAX_SERIALIZATION_DEPTH < depth) := by omega
  unfold visit
  rw [if_neg hnot]
  cases v with
  | null =>
      have hsize : Json.null.size = 4 := rfl
      refine hvisit Leaf.null ?_ (by rw [hsize]) (fun _ => hsize.symm)
      intro t c h
      cases h
      exact ⟨rfl, rfl⟩
  | bool b =>
      refine hvisit (Leaf.bool b) ?_ ?_ ?_
      · intro t c h
        cases h
        exact ⟨rfl, rfl⟩
      · cases b with
        | true => exact Iff.rfl
        | false => exact Iff.rfl
      · intro _
        cases b with
        | true => rfl
        | false => rfl
  | str s =>
      refine hvisit (Leaf.str s) ?_ (jsonStringByteLength_exact s _ 0)
        (fun h => @jsonStringByteLength_eq s l.byteCount 0 h)
      intro t c h
      cases h
      exact ⟨rfl, rfl⟩
  | num n =>
      have hfinite : (forall b, n ≠ JsNumber.infinity b) ->
          (leaf n.text.length (Copy.num n) parent
              { l with nodeCount := l.nodeCount + 1 } = Except.ok res <->
            exists t c, Leaf (JsValue.num n) t c ∧
              l.byteCount + t.size ≤ MAX_SECURE_JSON_BYTES ∧
              res = ([], passed l parent c t.size)) := by
        intro hn
        rw [<- Json.size_num hn]
        refine hvisit (Leaf.num hn) ?_ Iff.rfl (fun _ => rfl)
        intro t c h
        cases h
        exact ⟨rfl, rfl⟩
      cases n with
      | finite q => exact hfinite fun b h => by cases h
      | negZero => exact hfinite fun b h => by cases h
      | infinity negative =>
          apply hbad
          intro t c h
          cases h with
          | num hn => exact hn negative rfl
  | object r => exact absurd rfl (hv r)
  | undefined => exact hbad (fun t c h => by cases h)
  | nan => exact hbad (fun t c h => by cases h)
  | bigint n => exact hbad (fun t c h => by cases h)
  | symbol id => exact hbad (fun t c h => by cases h)
  | function r => exact hbad (fun t c h => by cases h)

end Leaves

end SecureJsonFile
end Server
end FlanTerminal

import Mathlib.Data.Set.Card
import FlanTerminal.Server.PreflightJsonWalk

/-!
# preflightJson takes exactly what JSON can say

Acceptance and rejection of whole graphs: cycles are always refused, and only
a cycle is refused as one.
-/

namespace FlanTerminal
namespace Server
namespace SecureJsonFile

open Foundation
open WorkStack (bind_ok_iff)

/-!
## Parts of values
-/

section Parts

variable {heap : Heap}

def PartOf (heap : Heap) (v : JsValue) (r : Ref) : Prop :=
  exists key, (heap r).descriptor key = some (Descriptor.data v true)

def Down (heap : Heap) (v w : JsValue) : Prop :=
  exists r, v = JsValue.object r ∧ PartOf heap w r

def Reaches (heap : Heap) : JsValue -> JsValue -> Prop :=
  Relation.ReflTransGen (Down heap)

/-- An object that is a part of one of its parts, or of itself. -/
def OnCycle (heap : Heap) (r : Ref) : Prop :=
  exists x, PartOf heap x r ∧ Reaches heap x (JsValue.object r)

theorem Opens.part_iff {o : JsObject} {parts : List (ChildKey × JsValue)}
    {new : JsonContainer} {bytes : Nat} (h : Opens o parts new bytes)
    {v : JsValue} : v ∈ parts.map Prod.snd <->
      exists key, o.descriptor key = some (Descriptor.data v true) := by
  cases h with
  | @array xs h =>
      rw [map_snd_indexed]
      constructor
      · intro hv
        obtain ⟨i, hi⟩ := List.getElem?_of_mem hv
        exact ⟨_, h.elements i v hi⟩
      · intro hv
        obtain ⟨key, hkey⟩ := hv
        obtain ⟨i, hi, heq⟩ := h.no_others key
          (JsObject.enumerates_iff.mpr ⟨_, hkey, rfl⟩)
        have helement := h.elements i xs[i] (List.getElem?_eq_getElem hi)
        rw [<- heq, hkey] at helement
        injection helement with helement
        injection helement with helement
        rw [helement]
        exact List.getElem_mem hi
  | @object entries h =>
      rw [map_snd_named]
      have hmem : forall key, (key, Descriptor.data v true) ∈ o.properties <->
          exists e, e ∈ entries ∧ PropertyKey.str e.1 = key ∧ e.2 = v := by
        intro key
        have hfilter : (key, Descriptor.data v true) ∈ o.properties <->
            (key, Descriptor.data v true) ∈
              o.properties.filter fun p => p.2.enumerable := by
          rw [List.mem_filter]
          exact ⟨fun hp => ⟨hp, rfl⟩, And.left⟩
        rw [hfilter, h.members, List.mem_map]
        constructor
        · intro hp
          obtain ⟨e, he, hp⟩ := hp
          injection hp with hkey hd
          injection hd with hv _
          exact ⟨e, he, hkey, hv⟩
        · intro hp
          obtain ⟨e, he, hkey, hv⟩ := hp
          exact ⟨e, he, by rw [hkey, hv]⟩
      rw [List.mem_map]
      constructor
      · intro hv
        obtain ⟨e, he, hv⟩ := hv
        exact ⟨PropertyKey.str e.1, JsObject.descriptor_eq_some.mpr
          ((hmem _).mpr ⟨e, he, rfl, hv⟩)⟩
      · intro hv
        obtain ⟨key, hkey⟩ := hv
        obtain ⟨e, he, _, hv⟩ :=
          (hmem key).mp (JsObject.descriptor_eq_some.mp hkey)
        exact ⟨e, he, hv⟩

theorem Unfolds.opens {t : Json} {r : Ref} {keys : Nat}
    (h : Unfolds heap t (JsValue.object r) keys) :
    exists parts new bytes ts inner, Opens (heap r) parts new bytes ∧
      UnfoldsItems heap ts (parts.map Prod.snd) inner ∧
      t.height = Json.heightItems ts ∧ t.size = bytes + Json.sizeItems ts ∧
      t.nodes = Json.nodesItems ts + 1 ∧
      keys = (heap r).ownKeys.length + inner := by
  cases t with
  | null =>
      rw [Unfolds] at h
      cases h.1
  | bool b =>
      rw [Unfolds] at h
      cases h.1
  | num n =>
      rw [Unfolds] at h
      cases h.1
  | str s =>
      rw [Unfolds] at h
      cases h.1
  | arr ts =>
      rw [Unfolds] at h
      obtain ⟨r', xs, inner, hr, hdense, hts, hkeys⟩ := h
      cases hr
      refine ⟨_, _, _, ts, inner, Opens.array hdense, ?_, ?_, ?_, ?_, hkeys⟩
      · rw [map_snd_indexed]
        exact hts
      · rw [Json.height]
      · rw [Json.size_arr, hts.length]
      · rw [Json.nodes]
  | obj ms =>
      rw [Unfolds] at h
      obtain ⟨r', entries, inner, hr, hplain, hms, hkeys⟩ := h
      cases hr
      obtain ⟨hnames, hts⟩ := unfoldsMembers_iff.mp hms
      refine ⟨_, _, _, ms.map Prod.snd, inner, Opens.object hplain, ?_, ?_, ?_,
        ?_, hkeys⟩
      · rw [map_snd_named]
        exact hts
      · rw [Json.height, heightMembers_eq]
      · have hlength : ms.length = entries.length := by
          simpa using congrArg List.length hnames
        rw [Json.size_obj, sizeMembers_eq hnames, hlength]
        omega
      · rw [Json.nodes, nodesMembers_eq]

theorem UnfoldsItems.part : forall {ts : List Json} {vs : List JsValue}
    {keys : Nat}, UnfoldsItems heap ts vs keys -> forall {v : JsValue},
      v ∈ vs -> exists t k, Unfolds heap t v k ∧
        t.nodes ≤ Json.nodesItems ts := by
  intro ts
  induction ts with
  | nil =>
      intro vs keys h v hv
      rw [UnfoldsItems] at h
      rw [h.1] at hv
      cases hv
  | cons t ts ih =>
      intro vs keys h v hv
      rw [UnfoldsItems] at h
      obtain ⟨w, rest, first, others, hvs, ht, hts, _⟩ := h
      rw [hvs] at hv
      rw [Json.nodesItems]
      rcases List.mem_cons.mp hv with hv | hv
      · rw [hv]
        exact ⟨t, first, ht, Nat.le_add_right _ _⟩
      · obtain ⟨t', k, ht', hle⟩ := ih hts hv
        exact ⟨t', k, ht', by omega⟩

theorem Unfolds.part {t : Json} {r : Ref} {keys : Nat} {v : JsValue}
    (h : Unfolds heap t (JsValue.object r) keys) (hv : PartOf heap v r) :
    exists t' k, Unfolds heap t' v k ∧ t'.nodes < t.nodes := by
  obtain ⟨parts, new, bytes, ts, inner, hopens, hts, _, _, hnodes, _⟩ := h.opens
  obtain ⟨t', k, ht', hle⟩ := hts.part (hopens.part_iff.mpr hv)
  exact ⟨t', k, ht', by omega⟩

theorem Unfolds.reached {t : Json} {v w : JsValue} {keys : Nat}
    (h : Unfolds heap t v keys) (hreach : Reaches heap v w) :
    exists t' k, Unfolds heap t' w k ∧ t'.nodes ≤ t.nodes := by
  induction hreach with
  | refl => exact ⟨t, keys, h, Nat.le_refl _⟩
  | tail _ hdown ih =>
      obtain ⟨t', k, ht', hle⟩ := ih
      obtain ⟨r, hr, hpart⟩ := hdown
      rw [hr] at ht'
      obtain ⟨t'', k', ht'', hlt⟩ := ht'.part hpart
      exact ⟨t'', k', ht'', by omega⟩

/-- What unfolds to a finite tree has no cycle: the tree of an object would
have a smaller one of the same object in it. -/
theorem Unfolds.not_onCycle {r : Ref} : forall {n : Nat} {t : Json}
    {keys : Nat}, t.nodes ≤ n -> Unfolds heap t (JsValue.object r) keys ->
      ¬OnCycle heap r := by
  intro n
  induction n with
  | zero =>
      intro t keys hle h _
      obtain ⟨_, _, _, ts, _, _, _, _, _, hnodes, _⟩ := h.opens
      omega
  | succ n ih =>
      intro t keys hle h hcycle
      obtain ⟨x, hpart, hreach⟩ := hcycle
      obtain ⟨t', k, ht', hlt⟩ := h.part hpart
      obtain ⟨t'', k', ht'', hle'⟩ := ht'.reached hreach
      exact ih (by omega) ht'' ⟨x, hpart, hreach⟩

end Parts

/-!
## One tree for each value
-/

section Unique

variable {heap : Heap}

theorem JsObject.Dense.unique {o : JsObject} {xs ys : List JsValue}
    (hxs : o.Dense xs) (hys : o.Dense ys) : xs = ys := by
  apply List.ext_getElem (hxs.length.symm.trans hys.length)
  intro i hx hy
  have hfirst := hxs.elements i xs[i] (List.getElem?_eq_getElem hx)
  rw [hys.elements i ys[i] (List.getElem?_eq_getElem hy)] at hfirst
  injection hfirst with hfirst
  injection hfirst with hfirst
  exact hfirst.symm

theorem JsObject.Plain.unique {o : JsObject}
    {es es' : List (JsString × JsValue)} (h : o.Plain es) (h' : o.Plain es') :
    es = es' := by
  have hmap := h.members.symm.trans h'.members
  refine List.map_injective_iff.mpr ?_ hmap
  intro e e' heq
  injection heq with hkey hd
  injection hkey with hkey
  injection hd with hv _
  exact Prod.ext hkey hv

mutual

theorem Unfolds.unique : forall {t t' : Json} {v : JsValue} {k k' : Nat},
    Unfolds heap t v k -> Unfolds heap t' v k' -> t = t' ∧ k = k'
  | Json.null, t', _, _, _, h, h' => by
      rw [Unfolds] at h
      rw [h.1] at h'
      cases t' with
      | null =>
          rw [Unfolds] at h'
          exact ⟨rfl, h.2.trans h'.2.symm⟩
      | _ => simp [Unfolds] at h'
  | Json.bool b, t', _, _, _, h, h' => by
      rw [Unfolds] at h
      rw [h.1] at h'
      cases t' with
      | bool b' =>
          rw [Unfolds] at h'
          cases h'.1
          exact ⟨rfl, h.2.trans h'.2.symm⟩
      | _ => simp [Unfolds] at h'
  | Json.num n, t', _, _, _, h, h' => by
      rw [Unfolds] at h
      rw [h.1] at h'
      cases t' with
      | num n' =>
          rw [Unfolds] at h'
          cases h'.1
          exact ⟨rfl, h.2.2.trans h'.2.2.symm⟩
      | _ => simp [Unfolds] at h'
  | Json.str s, t', _, _, _, h, h' => by
      rw [Unfolds] at h
      rw [h.1] at h'
      cases t' with
      | str s' =>
          rw [Unfolds] at h'
          cases h'.1
          exact ⟨rfl, h.2.trans h'.2.symm⟩
      | _ => simp [Unfolds] at h'
  | Json.arr ts, t', _, _, _, h, h' => by
      rw [Unfolds] at h
      obtain ⟨r, xs, inner, hr, hxs, hts, hk⟩ := h
      rw [hr] at h'
      cases t' with
      | arr ts' =>
          rw [Unfolds] at h'
          obtain ⟨r', xs', inner', hr', hxs', hts', hk'⟩ := h'
          cases hr'
          rw [hxs'.unique hxs] at hts'
          obtain ⟨heq, hinner⟩ := UnfoldsItems.unique hts hts'
          rw [heq, hk, hk', hinner]
          exact ⟨rfl, rfl⟩
      | obj ms' =>
          rw [Unfolds] at h'
          obtain ⟨r', entries, inner', hr', hplain, _⟩ := h'
          cases hr'
          exact absurd (hxs.array.symm.trans hplain.object) (by decide)
      | _ => simp [Unfolds] at h'
  | Json.obj ms, t', _, _, _, h, h' => by
      rw [Unfolds] at h
      obtain ⟨r, entries, inner, hr, hplain, hms, hk⟩ := h
      rw [hr] at h'
      cases t' with
      | arr ts' =>
          rw [Unfolds] at h'
          obtain ⟨r', xs, inner', hr', hxs, _⟩ := h'
          cases hr'
          exact absurd (hxs.array.symm.trans hplain.object) (by decide)
      | obj ms' =>
          rw [Unfolds] at h'
          obtain ⟨r', entries', inner', hr', hplain', hms', hk'⟩ := h'
          cases hr'
          rw [hplain'.unique hplain] at hms'
          obtain ⟨heq, hinner⟩ := UnfoldsMembers.unique hms hms'
          rw [heq, hk, hk', hinner]
          exact ⟨rfl, rfl⟩
      | _ => simp [Unfolds] at h'

theorem UnfoldsItems.unique : forall {ts ts' : List Json}
    {vs : List JsValue} {k k' : Nat}, UnfoldsItems heap ts vs k ->
      UnfoldsItems heap ts' vs k' -> ts = ts' ∧ k = k'
  | [], ts', _, _, _, h, h' => by
      rw [UnfoldsItems] at h
      rw [h.1] at h'
      cases ts' with
      | nil =>
          rw [UnfoldsItems] at h'
          exact ⟨rfl, h.2.trans h'.2.symm⟩
      | cons t' ts' => simp [UnfoldsItems] at h'
  | t :: ts, ts', _, _, _, h, h' => by
      rw [UnfoldsItems] at h
      obtain ⟨v, rest, first, others, hvs, ht, hts, hk⟩ := h
      rw [hvs] at h'
      cases ts' with
      | nil => simp [UnfoldsItems] at h'
      | cons t' ts' =>
          rw [UnfoldsItems] at h'
          obtain ⟨v', rest', first', others', hvs', ht', hts', hk'⟩ := h'
          cases hvs'
          obtain ⟨heq, hfirst⟩ := Unfolds.unique ht ht'
          obtain ⟨hrest, hothers⟩ := UnfoldsItems.unique hts hts'
          rw [heq, hrest, hk, hk', hfirst, hothers]
          exact ⟨rfl, rfl⟩

theorem UnfoldsMembers.unique : forall {ms ms' : List (JsString × Json)}
    {es : List (JsString × JsValue)} {k k' : Nat},
    UnfoldsMembers heap ms es k -> UnfoldsMembers heap ms' es k' ->
      ms = ms' ∧ k = k'
  | [], ms', _, _, _, h, h' => by
      rw [UnfoldsMembers] at h
      rw [h.1] at h'
      cases ms' with
      | nil =>
          rw [UnfoldsMembers] at h'
          exact ⟨rfl, h.2.trans h'.2.symm⟩
      | cons m' ms' => simp [UnfoldsMembers] at h'
  | (key, t) :: ms, ms', _, _, _, h, h' => by
      rw [UnfoldsMembers] at h
      obtain ⟨v, rest, first, others, hes, ht, hms, hk⟩ := h
      rw [hes] at h'
      cases ms' with
      | nil => simp [UnfoldsMembers] at h'
      | cons m' ms' =>
          obtain ⟨key', t'⟩ := m'
          rw [UnfoldsMembers] at h'
          obtain ⟨v', rest', first', others', hes', ht', hms', hk'⟩ := h'
          cases hes'
          obtain ⟨heq, hfirst⟩ := Unfolds.unique ht ht'
          obtain ⟨hrest, hothers⟩ := UnfoldsMembers.unique hms hms'
          rw [heq, hrest, hk, hk', hfirst, hothers]
          exact ⟨rfl, rfl⟩

end

end Unique

/-!
## What JSON can say is accepted
-/

section Complete

variable {heap : Heap}

/-- The value can still be walked: it is within what the limits leave, and
none of the objects that have been entered is in it. -/
structure Fits (heap : Heap) (v : JsValue) (t : Json) (keys depth : Nat)
    (l : Locals) : Prop where
  height : t.height + depth ≤ MAX_SERIALIZATION_DEPTH
  bytes : l.byteCount + t.size ≤ MAX_SECURE_JSON_BYTES
  keys : l.keyCount + keys ≤ MAX_SERIALIZATION_KEYS
  nodes : l.nodeCount + t.nodes ≤ MAX_SERIALIZATION_NODES
  free : forall r, r ∈ l.ancestors -> ¬Reaches heap v (JsValue.object r)

theorem Fits.withinLimits {v : JsValue} {t : Json} {keys depth : Nat}
    {l : Locals} (h : Fits heap v t keys depth l) : WithinLimits l :=
  ⟨Nat.le_trans (Nat.le_add_right _ _) h.bytes,
    Nat.le_trans (Nat.le_add_right _ _) h.keys,
    Nat.le_trans (Nat.le_add_right _ _) h.nodes⟩

theorem children_complete {size depth clone : Nat}
    (hparts : forall {t : Json} {v : JsValue} {keys : Nat} {parent : Parent}
      {l : Locals}, t.nodes ≤ size -> Unfolds heap t v keys ->
        Fits heap v t keys (depth + 1) l -> IsThere parent l ->
          exists l', (walk heap).drain
            [PreflightWork.value v parent (depth + 1)] l = Except.ok l') :
    forall {parts : List (ChildKey × JsValue)} {ts : List Json} {keys : Nat}
      {l : Locals}, Json.nodesItems ts ≤ size ->
      UnfoldsItems heap ts (parts.map Prod.snd) keys ->
      Json.heightItems ts + depth ≤ MAX_SERIALIZATION_DEPTH ->
      l.byteCount + Json.sizeItems ts ≤ MAX_SECURE_JSON_BYTES ->
      l.keyCount + keys ≤ MAX_SERIALIZATION_KEYS ->
      l.nodeCount + Json.nodesItems ts ≤ MAX_SERIALIZATION_NODES ->
      (forall v, v ∈ parts.map Prod.snd -> forall r, r ∈ l.ancestors ->
        ¬Reaches heap v (JsValue.object r)) ->
      clone < l.clones.length ->
        exists l', (walk heap).drain (children clone depth parts) l =
          Except.ok l' := by
  intro parts
  induction parts with
  | nil =>
      intro ts keys l _ _ _ _ _ _ _ _
      exact ⟨l, (walk heap).drain_nil l⟩
  | cons p parts ih =>
      intro ts keys l hsize hts hheight hbytes hkeys hnodes hfree hthere
      cases ts with
      | nil =>
          rw [UnfoldsItems] at hts
          cases hts.1
      | cons t ts =>
          rw [UnfoldsItems] at hts
          obtain ⟨v, rest, first, others, hvs, ht, hts, hsum⟩ := hts
          cases hvs
          rw [Json.nodesItems] at hsize hnodes
          rw [Json.heightItems] at hheight
          rw [Json.sizeItems] at hbytes
          have hfits : Fits heap p.2 t first (depth + 1) l :=
            ⟨by omega, by omega, by omega, by omega,
              hfree p.2 List.mem_cons_self⟩
          have htarget : IsThere (some (clone, p.1)) l := by
            intro id key hid
            cases hid
            exact hthere
          obtain ⟨l1, hfirst⟩ := hparts (by omega) ht hfits htarget
          obtain ⟨t', first', c, ht', _, hwalked, _⟩ :=
            drain_sound (MAX_SERIALIZATION_DEPTH + 1) (by omega) _ _ _ _
              hfirst htarget hfits.withinLimits
          obtain ⟨heq, hfirstEq⟩ := ht'.unique ht
          rw [heq, hfirstEq] at hwalked
          have hbytes1 := hwalked.bytes
          have hkeys1 := hwalked.counted
          have hnodes1 := hwalked.nodes
          obtain ⟨l', hothers⟩ := @ih ts others l1 (by omega) hts (by omega)
            (by omega) (by omega) (by omega)
            (by
              rw [hwalked.ancestors]
              exact fun v hv => hfree v (List.mem_cons_of_mem _ hv))
            (Nat.lt_of_lt_of_le hthere hwalked.grows)
          exact ⟨l', ((walk heap).drain_push_ok).mpr ⟨l1, hfirst, hothers⟩⟩

theorem drain_complete : forall (size : Nat) {t : Json} {v : JsValue}
    {keys depth : Nat} {parent : Parent} {l : Locals}, t.nodes ≤ size ->
      Unfolds heap t v keys -> Fits heap v t keys depth l ->
        IsThere parent l -> exists l', (walk heap).drain
          [PreflightWork.value v parent depth] l = Except.ok l' := by
  intro size
  induction size with
  | zero =>
      intro t v keys depth parent l hle _ _ _
      cases t with
      | null => cases hle
      | bool b => cases hle
      | num n => cases hle
      | str s => cases hle
      | arr ts => rw [Json.nodes] at hle; cases hle
      | obj ms => rw [Json.nodes] at hle; cases hle
  | succ size ih =>
      intro t v keys depth parent l hle h hfits hthere
      have hbytes := hfits.bytes
      have hkeys := hfits.keys
      have hnodes := hfits.nodes
      have hheight := hfits.height
      by_cases hobject : exists r, v = JsValue.object r
      · obtain ⟨r, hv⟩ := hobject
        rw [hv] at h ⊢
        obtain ⟨parts, new, bytes, ts, inner, hopens, hts, hheights, hsize,
          hcount, hsum⟩ := h.opens
        have hfree : r ∉ l.ancestors := by
          intro hr
          apply hfits.free r hr
          rw [hv]
          exact Relation.ReflTransGen.refl
        have hstep := (@visit_object_ok r parent depth l _ heap).mpr
          ⟨⟨by omega, by omega, hfree, by omega⟩, parts, new, bytes, hopens,
            by omega, rfl⟩
        have hchildren : exists l2, (walk heap).drain
            (children l.clones.length depth parts)
            (enter l parent r new (heap r).ownKeys.length bytes) =
              Except.ok l2 := by
          refine children_complete ih (by omega) hts (by omega)
            ?_ ?_ ?_ ?_ ?_
          · show l.byteCount + bytes + _ ≤ _
            omega
          · show l.keyCount + (heap r).ownKeys.length + inner ≤ _
            omega
          · show l.nodeCount + 1 + _ ≤ _
            omega
          · intro w hw r' hr'
            have hpart : PartOf heap w r := hopens.part_iff.mp hw
            rcases JsSet.mem_add.mp hr' with hr' | hr'
            · intro hreach
              apply hfits.free r' hr'
              rw [hv]
              exact hreach.head ⟨r, rfl, hpart⟩
            · intro hreach
              rw [hr'] at hreach
              exact h.not_onCycle (Nat.le_refl _) ⟨w, hpart, hreach⟩
          · rw [enter_clones_length]
            omega
        obtain ⟨l2, hl2⟩ := hchildren
        refine ⟨{ l2 with ancestors := l2.ancestors.delete r }, ?_⟩
        rw [WorkStack.drain_one]
        refine bind_ok_iff.mpr ⟨_, hstep, ?_⟩
        refine ((walk heap).drain_append _ _ _).trans ?_
        exact bind_ok_iff.mpr ⟨l2, hl2, drain_exit.mpr rfl⟩
      · have hleaf : forall r, v ≠ JsValue.object r :=
          fun r hr => hobject ⟨r, hr⟩
        have hsaid : exists c, Leaf v t c := by
          cases t with
          | null =>
              rw [Unfolds] at h
              rw [h.1]
              exact ⟨_, Leaf.null⟩
          | bool b =>
              rw [Unfolds] at h
              rw [h.1]
              exact ⟨_, Leaf.bool b⟩
          | num n =>
              rw [Unfolds] at h
              rw [h.1]
              exact ⟨_, Leaf.num h.2.1⟩
          | str s =>
              rw [Unfolds] at h
              rw [h.1]
              exact ⟨_, Leaf.str s⟩
          | arr ts =>
              rw [Unfolds] at h
              obtain ⟨r, _, _, hr, _⟩ := h
              exact absurd hr (hleaf r)
          | obj ms =>
              rw [Unfolds] at h
              obtain ⟨r, _, _, hr, _⟩ := h
              exact absurd hr (hleaf r)
        obtain ⟨c, hc⟩ := hsaid
        have hone : 1 ≤ t.nodes := by
          cases hc with
          | null => exact Nat.le_refl _
          | bool b => exact Nat.le_refl _
          | num hn => exact Nat.le_refl _
          | str s => exact Nat.le_refl _
        have hstep := (@visit_leaf_ok heap v parent depth l _ hleaf).mpr
          ⟨⟨by omega, by omega⟩, t, c, hc, by omega, rfl⟩
        refine ⟨passed l parent c t.size, ?_⟩
        rw [WorkStack.drain_one]
        exact bind_ok_iff.mpr ⟨_, hstep, (walk heap).drain_nil _⟩

end Complete

/-!
## Only a cycle is refused as one
-/

section Circular

def NotCircular {result : Type} (x : Checked result) : Prop :=
  x ≠ Except.error PreflightError.circular

theorem NotCircular.ok {result : Type} (a : result) :
    NotCircular (pure a : Checked result) := fun h => by cases h

theorem NotCircular.throw {result : Type} {e : PreflightError}
    (h : e ≠ PreflightError.circular) :
    NotCircular (throw e : Checked result) := by
  intro heq
  injection heq with heq
  exact h heq

theorem NotCircular.bind {a b : Type} {x : Checked a} {f : a -> Checked b}
    (hx : NotCircular x) (hf : forall y, NotCircular (f y)) :
    NotCircular (x >>= f) := by
  cases x with
  | error e =>
      intro h
      injection h with h
      exact hx (congrArg Except.error h)
  | ok y => exact hf y

theorem NotCircular.ite {result : Type} {p : Prop} [Decidable p]
    {x y : Checked result} (hx : NotCircular x) (hy : NotCircular y) :
    NotCircular (if p then x else y) := by
  split
  · exact hx
  · exact hy

theorem notCircular_addBytes (amount : Nat) (l : Locals) :
    NotCircular (addBytes amount l) :=
  NotCircular.ite (NotCircular.throw (by decide)) (NotCircular.ok _)

theorem notCircular_leaf (amount : Nat) (next : Copy) (parent : Parent)
    (l : Locals) : NotCircular (leaf amount next parent l) :=
  NotCircular.bind (notCircular_addBytes _ _) fun _ => NotCircular.ok _

theorem notCircular_pushElements (o : JsObject) (clone depth : Nat) :
    forall (n : Nat) (work : List PreflightWork),
      NotCircular (pushElements o clone depth n work) := by
  intro n
  induction n with
  | zero =>
      intro work
      exact NotCircular.ok _
  | succ n ih =>
      intro work
      rw [pushElements]
      split
      · exact ih _
      · exact NotCircular.throw (by decide)

theorem notCircular_collectEntries :
    forall (ps : List (PropertyKey × Descriptor)),
      NotCircular (collectEntries ps) := by
  intro ps
  induction ps with
  | nil => exact NotCircular.ok _
  | cons p ps ih =>
      rw [collectEntries.eq_def]
      split
      · exact NotCircular.ok _
      · rename_i heq
        cases heq
        exact ih
      · rename_i heq
        cases heq
        exact ih
      · exact NotCircular.throw (by decide)
      · exact NotCircular.throw (by decide)
      · rename_i heq
        cases heq
        exact NotCircular.bind ih fun _ => NotCircular.ok _

theorem notCircular_pushMembers (clone depth : Nat) :
    forall (entries : List (JsString × JsValue)) (work : List PreflightWork)
      (l : Locals), NotCircular (pushMembers clone depth entries work l) := by
  intro entries
  induction entries with
  | nil =>
      intro work l
      exact NotCircular.ok _
  | cons e entries ih =>
      intro work l
      exact NotCircular.bind (ih work l) fun _ =>
        NotCircular.bind (notCircular_addBytes _ _) fun _ => NotCircular.ok _

theorem notCircular_visitArray (o : JsObject) (r : Ref) (parent : Parent)
    (depth : Nat) (l : Locals) : NotCircular (visitArray o r parent depth l) :=
  NotCircular.ite (NotCircular.throw (by decide))
    (NotCircular.ite (NotCircular.throw (by decide))
      (NotCircular.bind (notCircular_addBytes _ _) fun _ =>
        NotCircular.bind (notCircular_pushElements _ _ _ _ _) fun _ =>
          NotCircular.ok _))

theorem notCircular_visitObject (o : JsObject) (r : Ref) (parent : Parent)
    (depth : Nat) (l : Locals) : NotCircular (visitObject o r parent depth l) :=
  NotCircular.ite (NotCircular.throw (by decide))
    (NotCircular.bind (notCircular_collectEntries _) fun _ =>
      NotCircular.bind (notCircular_addBytes _ _) fun _ =>
        notCircular_pushMembers _ _ _ _ _)

variable {heap : Heap}

theorem visit_circular {v : JsValue} {parent : Parent} {depth : Nat}
    {l : Locals} (h : visit heap v parent depth l =
      Except.error PreflightError.circular) :
    exists r, v = JsValue.object r ∧ r ∈ l.ancestors := by
  by_contra hnot
  refine NotCircular.ite (NotCircular.throw (by decide)) ?_ h
  cases v with
  | null => exact notCircular_leaf _ _ _ _
  | bool b => exact notCircular_leaf _ _ _ _
  | str s => exact notCircular_leaf _ _ _ _
  | num n =>
      cases n with
      | finite q => exact notCircular_leaf _ _ _ _
      | negZero => exact notCircular_leaf _ _ _ _
      | infinity negative => exact NotCircular.throw (by decide)
  | object r =>
      have hfree : r ∉ l.ancestors := fun hr => hnot ⟨r, rfl, hr⟩
      have hbranch : NotCircular
          (if MAX_SERIALIZATION_KEYS < l.keyCount + (heap r).ownKeys.length then
            throw PreflightError.key_limit
          else if (heap r).isArray = true then
            visitArray (heap r) r parent depth
              (l.entered r (heap r).ownKeys.length)
          else visitObject (heap r) r parent depth
            (l.entered r (heap r).ownKeys.length)) :=
        NotCircular.ite (NotCircular.throw (by decide))
          (NotCircular.ite (notCircular_visitArray _ _ _ _ _)
            (notCircular_visitObject _ _ _ _ _))
      dsimp only
      rw [if_neg hfree]
      exact hbranch
  | undefined => exact NotCircular.throw (by decide)
  | nan => exact NotCircular.throw (by decide)
  | bigint n => exact NotCircular.throw (by decide)
  | symbol id => exact NotCircular.throw (by decide)
  | function r => exact NotCircular.throw (by decide)

theorem bind_circular {a b : Type} {x : Checked a} {f : a -> Checked b}
    (h : (x >>= f) = Except.error PreflightError.circular) :
    x = Except.error PreflightError.circular ∨
      exists y, x = Except.ok y ∧
        f y = Except.error PreflightError.circular := by
  cases x with
  | error e =>
      injection h with h
      exact Or.inl (congrArg Except.error h)
  | ok y => exact Or.inr ⟨y, rfl, h⟩

/-- In the value there is an object that is entered again while it is open. -/
def Meets (heap : Heap) (v : JsValue) (l : Locals) : Prop :=
  exists r, Reaches heap v (JsValue.object r) ∧
    (r ∈ l.ancestors ∨ OnCycle heap r)

theorem children_circular {depth clone : Nat}
    (hparts : forall v parent l,
      (walk heap).drain [PreflightWork.value v parent (depth + 1)] l =
        Except.error PreflightError.circular -> IsThere parent l ->
          WithinLimits l -> Meets heap v l) :
    forall {parts : List (ChildKey × JsValue)} {l : Locals},
      (walk heap).drain (children clone depth parts) l =
        Except.error PreflightError.circular ->
      clone < l.clones.length -> WithinLimits l ->
        exists v, v ∈ parts.map Prod.snd ∧ Meets heap v l := by
  intro parts
  induction parts with
  | nil =>
      intro l h _ _
      change (walk heap).drain [] l = _ at h
      rw [WorkStack.drain_nil] at h
      cases h
  | cons p parts ih =>
      intro l h hthere hlimits
      have htarget : IsThere (some (clone, p.1)) l := by
        intro id key hid
        cases hid
        exact hthere
      rcases bind_circular (((walk heap).drain_push _ _ _).symm.trans h) with
        h | ⟨l1, hfirst, h⟩
      · exact ⟨p.2, List.mem_cons_self, hparts _ _ _ h htarget hlimits⟩
      · obtain ⟨t, keys, c, _, _, hwalked, hlimits1⟩ :=
          drain_sound (MAX_SERIALIZATION_DEPTH + 1) (by omega) _ _ _ _ hfirst
            htarget hlimits
        obtain ⟨v, hv, r, hreach, hr⟩ := ih h
          (Nat.lt_of_lt_of_le hthere hwalked.grows) hlimits1
        rw [hwalked.ancestors] at hr
        exact ⟨v, List.mem_cons_of_mem _ hv, r, hreach, hr⟩

theorem drain_circular : forall (levels : Nat) {depth : Nat},
    MAX_SERIALIZATION_DEPTH < depth + levels -> forall v parent l,
      (walk heap).drain [PreflightWork.value v parent depth] l =
        Except.error PreflightError.circular -> IsThere parent l ->
          WithinLimits l -> Meets heap v l := by
  intro levels
  induction levels with
  | zero =>
      intro depth hlevels v parent l h _ _
      rw [WorkStack.drain_one] at h
      have hstep : (walk heap).step (PreflightWork.value v parent depth) l =
          Except.error PreflightError.complexity_limit :=
        if_pos (Or.inr hlevels)
      rw [hstep] at h
      cases h
  | succ levels ih =>
      intro depth hlevels v parent l h hthere hlimits
      rw [WorkStack.drain_one] at h
      rcases bind_circular h with hstep | ⟨res, hstep, hrest⟩
      · obtain ⟨r, hv, hr⟩ := visit_circular hstep
        rw [hv]
        exact ⟨r, Relation.ReflTransGen.refl, Or.inl hr⟩
      · change visit heap v parent depth l = Except.ok res at hstep
        by_cases hobject : exists r, v = JsValue.object r
        · obtain ⟨r, hv⟩ := hobject
          rw [hv] at hstep
          obtain ⟨⟨hnodes, hdepth, hfree, hkeys⟩, parts, new, bytes, hopens,
            hbytes, hres⟩ := visit_object_ok.mp hstep
          rw [hres] at hrest
          rcases bind_circular
              ((WorkStack.drain_append _ _ _ _).symm.trans hrest) with
            hchildren | ⟨l2, _, hexit⟩
          · have hnew : l.clones.length <
                (enter l parent r new (heap r).ownKeys.length
                  bytes).clones.length := by
              rw [enter_clones_length]
              omega
            obtain ⟨w, hw, r', hreach, hr'⟩ := children_circular
              (ih (by omega)) hchildren hnew ⟨hbytes, hkeys, hnodes⟩
            have hpart : PartOf heap w r := hopens.part_iff.mp hw
            rw [hv]
            rcases hr' with hr' | hr'
            · rcases JsSet.mem_add.mp hr' with hr' | hr'
              · exact ⟨r', hreach.head ⟨r, rfl, hpart⟩, Or.inl hr'⟩
              · rw [hr'] at hreach
                exact ⟨r, Relation.ReflTransGen.refl,
                  Or.inr ⟨w, hpart, hreach⟩⟩
            · exact ⟨r', hreach.head ⟨r, rfl, hpart⟩, Or.inr hr'⟩
          · exact absurd hexit (by
              rw [drain_exit.mpr rfl]
              exact fun h => by cases h)
        · obtain ⟨_, t, c, _, _, hres⟩ :=
            (visit_leaf_ok fun r hr => hobject ⟨r, hr⟩).mp hstep
          rw [hres, WorkStack.drain_nil] at hrest
          cases hrest

end Circular

/-!
## Graphs that JSON can say
-/

section Graphs

variable {heap : Heap} {v : JsValue}

/-- Everything in the value is a plain value, a dense array or a plain object,
and nothing is a part of itself. -/
structure Sayable (heap : Heap) (v : JsValue) : Prop where
  said : forall w, Reaches heap v w -> (exists t c, Leaf w t c) ∨
    exists r parts new bytes, w = JsValue.object r ∧
      Opens (heap r) parts new bytes
  acyclic : forall r, Reaches heap v (JsValue.object r) -> ¬OnCycle heap r

def objectsIn (heap : Heap) (v : JsValue) : Set Ref :=
  { r | Reaches heap v (JsValue.object r) }

theorem Leaf.unfolds {t : Json} {c : Copy} (h : Leaf v t c) :
    Unfolds heap t v 0 := by
  cases h with
  | null =>
      rw [Unfolds]
      exact ⟨rfl, rfl⟩
  | bool b =>
      rw [Unfolds]
      exact ⟨rfl, rfl⟩
  | num hn =>
      rw [Unfolds]
      exact ⟨rfl, hn, rfl⟩
  | str s =>
      rw [Unfolds]
      exact ⟨rfl, rfl⟩

theorem Unfolds.said {t : Json} {keys : Nat} (h : Unfolds heap t v keys) :
    (exists t c, Leaf v t c) ∨ exists r parts new bytes,
      v = JsValue.object r ∧ Opens (heap r) parts new bytes := by
  cases t with
  | null =>
      rw [Unfolds] at h
      rw [h.1]
      exact Or.inl ⟨_, _, Leaf.null⟩
  | bool b =>
      rw [Unfolds] at h
      rw [h.1]
      exact Or.inl ⟨_, _, Leaf.bool b⟩
  | num n =>
      rw [Unfolds] at h
      rw [h.1]
      exact Or.inl ⟨_, _, Leaf.num h.2.1⟩
  | str s =>
      rw [Unfolds] at h
      rw [h.1]
      exact Or.inl ⟨_, _, Leaf.str s⟩
  | arr ts =>
      rw [Unfolds] at h
      obtain ⟨r, _, _, hr, hdense, _⟩ := h
      exact Or.inr ⟨r, _, _, _, hr, Opens.array hdense⟩
  | obj ms =>
      rw [Unfolds] at h
      obtain ⟨r, _, _, hr, hplain, _⟩ := h
      exact Or.inr ⟨r, _, _, _, hr, Opens.object hplain⟩

theorem unfoldsItems_of_each : forall {vs : List JsValue},
    (forall v, v ∈ vs -> exists t keys, Unfolds heap t v keys) ->
      exists ts keys, UnfoldsItems heap ts vs keys := by
  intro vs
  induction vs with
  | nil =>
      intro _
      refine ⟨[], 0, ?_⟩
      rw [UnfoldsItems]
      exact ⟨rfl, rfl⟩
  | cons v vs ih =>
      intro h
      obtain ⟨t, first, ht⟩ := h v List.mem_cons_self
      obtain ⟨ts, others, hts⟩ :=
        ih fun w hw => h w (List.mem_cons_of_mem _ hw)
      refine ⟨t :: ts, first + others, ?_⟩
      rw [UnfoldsItems]
      exact ⟨v, vs, first, others, rfl, ht, hts, rfl⟩

/-- A finite graph without cycles unfolds; by induction on the number of
objects in the value, which is smaller for a part. -/
theorem Sayable.unfolds (hfinite : (objectsIn heap v).Finite)
    (h : Sayable heap v) : exists t keys, Unfolds heap t v keys := by
  have hall : forall n w, Reaches heap v w -> (objectsIn heap w).ncard = n ->
      exists t keys, Unfolds heap t w keys := by
    intro n
    induction n using Nat.strongRecOn with
    | ind n ih =>
        intro w hreach hn
        rcases h.said w hreach with hleaf | hopens
        · obtain ⟨t, c, hleaf⟩ := hleaf
          exact ⟨t, 0, hleaf.unfolds⟩
        · obtain ⟨r, parts, new, bytes, hw, hopens⟩ := hopens
          have hparts : forall x, x ∈ parts.map Prod.snd ->
              exists t keys, Unfolds heap t x keys := by
            intro x hx
            have hpart : PartOf heap x r := hopens.part_iff.mp hx
            have hdown : Down heap w x := ⟨r, hw, hpart⟩
            have hsubset : objectsIn heap x ⊂ objectsIn heap w := by
              constructor
              · intro r' hr'
                exact Relation.ReflTransGen.head hdown hr'
              · intro hall
                have hself : r ∈ objectsIn heap w := by
                  rw [hw]
                  exact Relation.ReflTransGen.refl
                rw [hw] at hreach
                exact h.acyclic r hreach ⟨x, hpart, hall hself⟩
            have hfew : (objectsIn heap w).Finite :=
              hfinite.subset fun r' hr' => hreach.trans hr'
            have hlt := Set.ncard_lt_ncard hsubset hfew
            exact ih _ (by omega) x (hreach.tail hdown) rfl
          obtain ⟨ts, inner, hts⟩ := unfoldsItems_of_each hparts
          obtain ⟨t, ht, _⟩ := hopens.unfolds hts
          rw [hw]
          exact ⟨t, _, ht⟩
  exact hall _ v Relation.ReflTransGen.refl rfl

theorem sayable_iff_unfolds (hfinite : (objectsIn heap v).Finite) :
    Sayable heap v <-> exists t keys, Unfolds heap t v keys := by
  constructor
  · exact Sayable.unfolds hfinite
  · intro h
    obtain ⟨t, keys, ht⟩ := h
    constructor
    · intro w hreach
      obtain ⟨t', k, ht', _⟩ := ht.reached hreach
      exact ht'.said
    · intro r hreach
      obtain ⟨t', k, ht', _⟩ := ht.reached hreach
      exact ht'.not_onCycle (Nat.le_refl _)

/-!
## The result
-/

structure WithinJsonLimits (t : Json) (keys : Nat) : Prop where
  nodes : t.nodes ≤ MAX_SERIALIZATION_NODES
  height : t.height ≤ MAX_SERIALIZATION_DEPTH
  keys : keys ≤ MAX_SERIALIZATION_KEYS
  bytes : utf8ByteLength (Json.stringify t) ≤ MAX_SECURE_JSON_BYTES

theorem preflightJson_sound {l : Locals}
    (h : preflightJson heap v = Except.ok l) :
    exists t keys, Unfolds heap t v keys ∧ WithinJsonLimits t keys ∧
      l.json = some t ∧ l.byteCount = utf8ByteLength (Json.stringify t) := by
  have hnone : IsThere none Locals.initial := fun id key hid => by cases hid
  have hzero : WithinLimits Locals.initial :=
    ⟨Nat.zero_le _, Nat.zero_le _, Nat.zero_le _⟩
  obtain ⟨t, keys, c, ht, hheight, hwalked, hlimits⟩ :=
    drain_sound (MAX_SERIALIZATION_DEPTH + 1) (by omega) v none _ l h hnone
      hzero
  have hbytes := hwalked.bytes
  have hkeys := hwalked.counted
  have hnodes := hwalked.nodes
  have hsnapshot : l.snapshot = some c := hwalked.snapshot
  change l.byteCount = 0 + t.size at hbytes
  change l.keyCount = 0 + keys at hkeys
  change l.nodeCount = 0 + t.nodes at hnodes
  rw [Nat.zero_add] at hbytes hkeys hnodes
  refine ⟨t, keys, ht, ⟨?_, hheight, ?_, ?_⟩, ?_, hbytes⟩
  · rw [<- hnodes]
    exact hlimits.nodes
  · rw [<- hkeys]
    exact hlimits.keys
  · rw [<- Json.size, <- hbytes]
    exact hlimits.bytes
  · rw [Locals.json, hsnapshot]
    exact hwalked.shows.json (by simp)

theorem preflightJson_complete {t : Json} {keys : Nat}
    (h : Unfolds heap t v keys) (hlimits : WithinJsonLimits t keys) :
    exists l, preflightJson heap v = Except.ok l := by
  refine drain_complete t.nodes (Nat.le_refl _) h ⟨hlimits.height, ?_, ?_, ?_,
    ?_⟩ fun id key hid => by cases hid
  · show 0 + t.size ≤ _
    rw [Nat.zero_add]
    exact hlimits.bytes
  · show 0 + keys ≤ _
    rw [Nat.zero_add]
    exact hlimits.keys
  · show 0 + t.nodes ≤ _
    rw [Nat.zero_add]
    exact hlimits.nodes
  · intro r hr
    cases hr

/-- What is accepted is what JSON can say within the limits; the snapshot is
the tree of the value and the counter is the length of its text; every cycle is
refused, and nothing else is refused as one. -/
theorem preflightJson_exact (heap : Heap) (v : JsValue) :
    ((exists l, preflightJson heap v = Except.ok l) <->
      exists t keys, Unfolds heap t v keys ∧ WithinJsonLimits t keys) ∧
    (forall l, preflightJson heap v = Except.ok l ->
      exists t keys, Unfolds heap t v keys ∧ l.json = some t ∧
        l.byteCount = utf8ByteLength (Json.stringify t)) ∧
    ((objectsIn heap v).Finite ->
      (Sayable heap v <-> exists t keys, Unfolds heap t v keys)) ∧
    (forall r, Reaches heap v (JsValue.object r) -> OnCycle heap r ->
      exists e, preflightJson heap v = Except.error e) ∧
    (preflightJson heap v = Except.error PreflightError.circular ->
      exists r, Reaches heap v (JsValue.object r) ∧ OnCycle heap r) := by
  refine ⟨⟨?_, ?_⟩, ?_, sayable_iff_unfolds, ?_, ?_⟩
  · intro h
    obtain ⟨l, h⟩ := h
    obtain ⟨t, keys, ht, hlimits, _⟩ := preflightJson_sound h
    exact ⟨t, keys, ht, hlimits⟩
  · intro h
    obtain ⟨t, keys, ht, hlimits⟩ := h
    exact preflightJson_complete ht hlimits
  · intro l h
    obtain ⟨t, keys, ht, _, hjson, hbytes⟩ := preflightJson_sound h
    exact ⟨t, keys, ht, hjson, hbytes⟩
  · intro r hreach hcycle
    cases hresult : preflightJson heap v with
    | error e => exact ⟨e, rfl⟩
    | ok l =>
        obtain ⟨t, keys, ht, _⟩ := preflightJson_sound hresult
        obtain ⟨t', k, ht', _⟩ := ht.reached hreach
        exact absurd hcycle (ht'.not_onCycle (Nat.le_refl _))
  · intro h
    obtain ⟨r, hreach, hr⟩ := drain_circular (MAX_SERIALIZATION_DEPTH + 1)
      (by omega) v none _ h (fun id key hid => by cases hid)
      ⟨Nat.zero_le _, Nat.zero_le _, Nat.zero_le _⟩
    rcases hr with hr | hr
    · cases hr
    · exact ⟨r, hreach, hr⟩

/-!
An object that occurs twice in an array, and one that is its own property.
-/

def sampleLeaf : JsObject where
  isArray := false
  length := 0
  prototype := Prototype.objectPrototype
  properties := [(PropertyKey.str [97], Descriptor.data JsValue.null true)]
  ordered := List.pairwise_singleton _ _
  length_own := fun h => by cases h

def samplePair : JsObject where
  isArray := true
  length := 2
  prototype := Prototype.objectPrototype
  properties :=
    [(PropertyKey.str [48], Descriptor.data (JsValue.object 1) true),
      (PropertyKey.str [49], Descriptor.data (JsValue.object 1) true),
      (PropertyKey.str (js "length"),
        Descriptor.data (JsValue.num (JsNumber.finite 2)) false)]
  ordered := by
    refine List.Pairwise.cons ?_ (List.Pairwise.cons ?_
      (List.pairwise_singleton _ _))
    · intro p hp
      rcases List.mem_cons.mp hp with hp | hp
      · rw [hp]
        exact ⟨by decide, by decide⟩
      · rw [List.mem_singleton.mp hp]
        exact ⟨by decide, by decide⟩
    · intro p hp
      rw [List.mem_singleton.mp hp]
      exact ⟨by decide, by decide⟩
  length_own := fun _ => by simp

def sampleLoop : JsObject where
  isArray := false
  length := 0
  prototype := Prototype.null
  properties := [(PropertyKey.str [97],
    Descriptor.data (JsValue.object 2) true)]
  ordered := List.pairwise_singleton _ _
  length_own := fun h => by cases h

def sampleHeap : Heap := fun r =>
  if r = 0 then samplePair else if r = 1 then sampleLeaf else sampleLoop

theorem samplePair_unfolds : Unfolds sampleHeap
    (Json.arr [Json.obj [([97], Json.null)], Json.obj [([97], Json.null)]])
    (JsValue.object 0) 5 := by
  have hleaf : Unfolds sampleHeap (Json.obj [([97], Json.null)])
      (JsValue.object 1) 1 := by
    rw [Unfolds]
    refine ⟨1, [([97], JsValue.null)], 0, rfl, ⟨rfl, Or.inl rfl, rfl⟩, ?_, rfl⟩
    rw [UnfoldsMembers]
    refine ⟨JsValue.null, [], 0, 0, rfl, ?_, ?_, rfl⟩
    · rw [Unfolds]
      exact ⟨rfl, rfl⟩
    · rw [UnfoldsMembers]
      exact ⟨rfl, rfl⟩
  have hdense : (sampleHeap 0).Dense [JsValue.object 1, JsValue.object 1] := by
    rw [JsObject.dense_iff rfl]
    refine ⟨rfl, ?_, by decide⟩
    intro i v hv
    have hlt := (List.getElem?_eq_some_iff.mp hv).1
    change i < 2 at hlt
    interval_cases i
    · cases hv
      decide
    · cases hv
      decide
  rw [Unfolds]
  refine ⟨0, _, 2, rfl, hdense, ?_, rfl⟩
  rw [UnfoldsItems]
  refine ⟨_, _, 1, 1, rfl, hleaf, ?_, rfl⟩
  rw [UnfoldsItems]
  refine ⟨_, _, 1, 0, rfl, hleaf, ?_, rfl⟩
  rw [UnfoldsItems]
  exact ⟨rfl, rfl⟩

theorem preflightJson_exact_sample :
    (exists l, preflightJson sampleHeap (JsValue.object 0) = Except.ok l) ∧
      exists e, preflightJson sampleHeap (JsValue.object 2) =
        Except.error e := by
  constructor
  · apply (preflightJson_exact sampleHeap (JsValue.object 0)).1.mpr
    refine ⟨_, _, samplePair_unfolds, ?_, ?_, ?_, ?_⟩
    · decide
    · decide
    · decide
    · decide
  · have hpart : PartOf sampleHeap (JsValue.object 2) 2 :=
      ⟨PropertyKey.str [97], by decide⟩
    exact (preflightJson_exact sampleHeap (JsValue.object 2)).2.2.2.1 2
      Relation.ReflTransGen.refl
      ⟨JsValue.object 2, hpart, Relation.ReflTransGen.refl⟩

end Graphs

end SecureJsonFile
end Server
end FlanTerminal

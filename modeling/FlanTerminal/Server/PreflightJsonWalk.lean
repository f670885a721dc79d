import FlanTerminal.Server.PreflightJsonSafety

/-!
# The walk of preflightJson

What the stack has done once a value is off it: the copies show the tree that
the value unfolds to, the counts have grown by what the tree has, and nothing
else has changed.
-/

namespace FlanTerminal
namespace Server
namespace SecureJsonFile

open Foundation
open WorkStack (bind_ok_iff)

/-!
## What a copy shows

Containers are made from the outside to the inside, so the ones inside a
container come after it.
-/

mutual

/-- The copy stands for the tree, with containers from `base` on. -/
def Shows (clones : List JsonContainer) : Json -> Nat -> Copy -> Prop
  | Json.null, _, c => c = Copy.null
  | Json.bool b, _, c => c = Copy.bool b
  | Json.num n, _, c => c = Copy.num n
  | Json.str s, _, c => c = Copy.str s
  | Json.arr ts, base, c => exists id cs, c = Copy.container id ∧
      base ≤ id ∧ clones[id]? = some (JsonContainer.arr (cs.map some)) ∧
        ShowsItems clones ts (id + 1) cs
  | Json.obj ms, base, c => exists id cs, c = Copy.container id ∧
      base ≤ id ∧
        clones[id]? = some (JsonContainer.obj ((ms.map Prod.fst).zip cs)) ∧
          ShowsMembers clones ms (id + 1) cs

def ShowsItems (clones : List JsonContainer) :
    List Json -> Nat -> List Copy -> Prop
  | [], _, cs => cs = []
  | t :: ts, base, cs => exists c rest, cs = c :: rest ∧
      Shows clones t base c ∧ ShowsItems clones ts base rest

def ShowsMembers (clones : List JsonContainer) :
    List (JsString × Json) -> Nat -> List Copy -> Prop
  | [], _, cs => cs = []
  | (_, t) :: ms, base, cs => exists c rest, cs = c :: rest ∧
      Shows clones t base c ∧ ShowsMembers clones ms base rest

end

section Shown

variable {clones clones' : List JsonContainer}

theorem showsMembers_iff {base : Nat} : forall {ms : List (JsString × Json)}
    {cs : List Copy}, ShowsMembers clones ms base cs <->
      ShowsItems clones (ms.map Prod.snd) base cs := by
  intro ms
  induction ms with
  | nil =>
      intro cs
      rw [ShowsMembers, List.map_nil, ShowsItems]
  | cons m ms ih =>
      intro cs
      obtain ⟨k, t⟩ := m
      rw [ShowsMembers, List.map_cons, ShowsItems]
      constructor
      · intro h
        obtain ⟨c, rest, hcs, ht, hms⟩ := h
        exact ⟨c, rest, hcs, ht, ih.mp hms⟩
      · intro h
        obtain ⟨c, rest, hcs, ht, hms⟩ := h
        exact ⟨c, rest, hcs, ht, ih.mpr hms⟩

theorem ShowsItems.length {base : Nat} : forall {ts : List Json}
    {cs : List Copy}, ShowsItems clones ts base cs -> ts.length = cs.length := by
  intro ts
  induction ts with
  | nil =>
      intro cs h
      rw [ShowsItems] at h
      rw [h]
      rfl
  | cons t ts ih =>
      intro cs h
      rw [ShowsItems] at h
      obtain ⟨c, rest, hcs, _, hts⟩ := h
      rw [hcs, List.length_cons, List.length_cons, ih hts]

/-- The containers from this one on are still there. -/
def KeptFrom (base : Nat) (clones clones' : List JsonContainer) : Prop :=
  forall id, base ≤ id -> forall x, clones[id]? = some x ->
    clones'[id]? = some x

mutual

theorem Shows.mono : forall {t : Json} {base base' : Nat} {c : Copy},
    Shows clones t base c -> base' ≤ base -> KeptFrom base' clones clones' ->
      Shows clones' t base' c
  | Json.null, _, _, _, h, _, _ => by
      rw [Shows] at h ⊢
      exact h
  | Json.bool _, _, _, _, h, _, _ => by
      rw [Shows] at h ⊢
      exact h
  | Json.num _, _, _, _, h, _, _ => by
      rw [Shows] at h ⊢
      exact h
  | Json.str _, _, _, _, h, _, _ => by
      rw [Shows] at h ⊢
      exact h
  | Json.arr ts, _, _, _, h, hle, hkept => by
      rw [Shows] at h ⊢
      obtain ⟨id, cs, hc, hid, hget, hts⟩ := h
      exact ⟨id, cs, hc, Nat.le_trans hle hid,
        hkept id (Nat.le_trans hle hid) _ hget,
        ShowsItems.mono hts (Nat.le_refl _)
          fun id' hid' => hkept id' (by omega)⟩
  | Json.obj ms, _, _, _, h, hle, hkept => by
      rw [Shows] at h ⊢
      obtain ⟨id, cs, hc, hid, hget, hms⟩ := h
      exact ⟨id, cs, hc, Nat.le_trans hle hid,
        hkept id (Nat.le_trans hle hid) _ hget,
        ShowsMembers.mono hms (Nat.le_refl _)
          fun id' hid' => hkept id' (by omega)⟩

theorem ShowsItems.mono : forall {ts : List Json} {base base' : Nat}
    {cs : List Copy}, ShowsItems clones ts base cs -> base' ≤ base ->
      KeptFrom base' clones clones' -> ShowsItems clones' ts base' cs
  | [], _, _, _, h, _, _ => by
      rw [ShowsItems] at h ⊢
      exact h
  | _ :: _, _, _, _, h, hle, hkept => by
      rw [ShowsItems] at h ⊢
      obtain ⟨c, rest, hcs, ht, hts⟩ := h
      exact ⟨c, rest, hcs, Shows.mono ht hle hkept,
        ShowsItems.mono hts hle hkept⟩

theorem ShowsMembers.mono : forall {ms : List (JsString × Json)}
    {base base' : Nat} {cs : List Copy}, ShowsMembers clones ms base cs ->
      base' ≤ base -> KeptFrom base' clones clones' ->
        ShowsMembers clones' ms base' cs
  | [], _, _, _, h, _, _ => by
      rw [ShowsMembers] at h ⊢
      exact h
  | (_, _) :: _, _, _, _, h, hle, hkept => by
      rw [ShowsMembers] at h ⊢
      obtain ⟨c, rest, hcs, ht, hms⟩ := h
      exact ⟨c, rest, hcs, Shows.mono ht hle hkept,
        ShowsMembers.mono hms hle hkept⟩

end

mutual

theorem Shows.json : forall {t : Json} {base levels : Nat} {c : Copy},
    Shows clones t base c -> clones.length ≤ base + levels ->
      c.json clones levels = some t
  | Json.null, _, levels, _, h, _ => by
      rw [Shows] at h
      rw [h]
      cases levels with
      | zero => rfl
      | succ n => rfl
  | Json.bool _, _, levels, _, h, _ => by
      rw [Shows] at h
      rw [h]
      cases levels with
      | zero => rfl
      | succ n => rfl
  | Json.num _, _, levels, _, h, _ => by
      rw [Shows] at h
      rw [h]
      cases levels with
      | zero => rfl
      | succ n => rfl
  | Json.str _, _, levels, _, h, _ => by
      rw [Shows] at h
      rw [h]
      cases levels with
      | zero => rfl
      | succ n => rfl
  | Json.arr ts, base, levels, _, h, hle => by
      rw [Shows] at h
      obtain ⟨id, cs, hc, hid, hget, hts⟩ := h
      have hlt : id < clones.length := (List.getElem?_eq_some_iff.mp hget).1
      obtain ⟨n, hn⟩ := Nat.exists_eq_succ_of_ne_zero
        (show levels ≠ 0 by omega)
      rw [hc, hn, Copy.json, hget]
      show Option.map Json.arr _ = _
      rw [ShowsItems.json hts (by omega)]
      rfl
  | Json.obj ms, base, levels, _, h, hle => by
      rw [Shows] at h
      obtain ⟨id, cs, hc, hid, hget, hms⟩ := h
      have hlt : id < clones.length := (List.getElem?_eq_some_iff.mp hget).1
      obtain ⟨n, hn⟩ := Nat.exists_eq_succ_of_ne_zero
        (show levels ≠ 0 by omega)
      rw [hc, hn, Copy.json, hget]
      show Option.map Json.obj _ = _
      rw [ShowsMembers.json hms (by omega)]
      rfl

theorem ShowsItems.json : forall {ts : List Json} {base levels : Nat}
    {cs : List Copy}, ShowsItems clones ts base cs ->
      clones.length ≤ base + levels ->
        ((cs.map some).mapM fun (item : Option Copy) =>
          item.bind (Copy.json clones levels)) = some ts
  | [], _, _, _, h, _ => by
      rw [ShowsItems] at h
      rw [h]
      rfl
  | _ :: _, _, _, _, h, hle => by
      rw [ShowsItems] at h
      obtain ⟨c, rest, hcs, ht, hts⟩ := h
      rw [hcs, List.map_cons, List.mapM_cons, Option.bind_some,
        Shows.json ht hle, ShowsItems.json hts hle]
      rfl

theorem ShowsMembers.json : forall {ms : List (JsString × Json)}
    {base levels : Nat} {cs : List Copy}, ShowsMembers clones ms base cs ->
      clones.length ≤ base + levels ->
        (((ms.map Prod.fst).zip cs).mapM fun m =>
          (Copy.json clones levels m.2).map fun v => (m.1, v)) = some ms
  | [], _, _, _, h, _ => by
      rw [ShowsMembers] at h
      rw [h]
      rfl
  | (k, t) :: ms, _, levels, _, h, hle => by
      rw [ShowsMembers] at h
      obtain ⟨c, rest, hcs, ht, hms⟩ := h
      rw [hcs, List.map_cons, List.zip_cons_cons, List.mapM_cons,
        Shows.json ht hle, ShowsMembers.json hms hle]
      rfl

end

end Shown

/-!
## Filling a container
-/

def fill (parts : List (ChildKey × Copy)) (c : JsonContainer) :
    JsonContainer :=
  parts.foldl (fun c p => c.define p.1 p.2) c

theorem fill_items : forall (cs : List Copy) (done : List Copy),
    fill (((List.range' done.length cs.length).map ChildKey.index).zip cs)
      (JsonContainer.arr (done.map some ++ List.replicate cs.length none)) =
      JsonContainer.arr ((done ++ cs).map some) := by
  intro cs
  induction cs with
  | nil =>
      intro done
      simp [fill]
  | cons c cs ih =>
      intro done
      have hnext := ih (done ++ [c])
      rw [List.length_append, List.append_assoc] at hnext
      have hset : (done.map some ++ List.replicate (cs.length + 1) none).set
          done.length (some c) =
          (done ++ [c]).map some ++ List.replicate cs.length none := by
        rw [List.replicate_succ, List.set_append_right _ _ (by simp)]
        simp
      rw [List.length_cons, List.range'_succ, List.map_cons,
        List.zip_cons_cons, fill, List.foldl_cons]
      show fill _ (JsonContainer.arr (List.set _ done.length (some c))) = _
      rw [hset]
      exact hnext

theorem fill_indexed {xs : List JsValue} {cs : List Copy}
    (hlength : xs.length = cs.length) :
    fill (((indexed xs).map Prod.fst).zip cs)
      (JsonContainer.arr (List.replicate xs.length none)) =
      JsonContainer.arr (cs.map some) := by
  have hkeys : (indexed xs).map Prod.fst =
      (List.range' 0 xs.length).map ChildKey.index := by
    rw [indexed, List.map_map, <- List.zipIdx_map_snd 0 xs, List.map_map]
    rfl
  rw [hkeys, hlength]
  exact fill_items cs []

theorem defineProperty_new {value : Type} {k : JsString} {v : value} :
    forall {ms : List (JsString × value)},
      (forall m, m ∈ ms -> m.1 ≠ k ∧ indexedBefore k m.1 = false) ->
        defineProperty ms k v = ms ++ [(k, v)] := by
  intro ms
  induction ms with
  | nil =>
      intro _
      rfl
  | cons m ms ih =>
      intro h
      obtain ⟨k', v'⟩ := m
      obtain ⟨hne, hbefore⟩ := h (k', v') List.mem_cons_self
      rw [defineProperty, if_neg hne, hbefore, if_neg Bool.false_ne_true,
        ih fun m hm => h m (List.mem_cons_of_mem _ hm)]
      rfl

def InKeyOrder (keys : List JsString) : Prop :=
  keys.Pairwise fun k k' => k ≠ k' ∧ indexedBefore k' k = false

theorem fill_members : forall (keys : List JsString) (cs : List Copy)
    (done : List (JsString × Copy)), keys.length = cs.length ->
    InKeyOrder (done.map Prod.fst ++ keys) ->
    fill ((keys.map ChildKey.name).zip cs) (JsonContainer.obj done) =
      JsonContainer.obj (done ++ keys.zip cs) := by
  intro keys
  induction keys with
  | nil =>
      intro cs done _ _
      simp [fill]
  | cons k keys ih =>
      intro cs done hlength horder
      cases cs with
      | nil => cases hlength
      | cons c cs =>
          have hnew : forall m, m ∈ done ->
              m.1 ≠ k ∧ indexedBefore k m.1 = false := by
            intro m hm
            exact (List.pairwise_append.mp horder).2.2 m.1
              (List.mem_map_of_mem hm) k List.mem_cons_self
          rw [List.map_cons, List.zip_cons_cons, List.zip_cons_cons, fill,
            List.foldl_cons]
          show fill _ (JsonContainer.obj (defineProperty done k c)) = _
          rw [defineProperty_new hnew, ih cs _ (Nat.succ.inj hlength)]
          · rw [List.append_assoc]
            rfl
          · rw [List.map_append, List.append_assoc]
            exact horder

theorem JsObject.Plain.inKeyOrder {o : JsObject}
    {entries : List (JsString × JsValue)} (h : o.Plain entries) :
    InKeyOrder (entries.map Prod.fst) := by
  have hordered := o.ordered.filter fun p => p.2.enumerable
  rw [h.members, List.pairwise_map] at hordered
  rw [InKeyOrder, List.pairwise_map]
  exact hordered

theorem fill_named {o : JsObject} {entries : List (JsString × JsValue)}
    (h : o.Plain entries) {cs : List Copy}
    (hlength : entries.length = cs.length) :
    fill (((named entries).map Prod.fst).zip cs) (JsonContainer.obj []) =
      JsonContainer.obj ((entries.map Prod.fst).zip cs) := by
  have hkeys : (named entries).map Prod.fst =
      (entries.map Prod.fst).map ChildKey.name := by
    rw [named, List.map_map, List.map_map]
    rfl
  rw [hkeys]
  exact fill_members (entries.map Prod.fst) cs [] (by simpa using hlength)
    h.inKeyOrder

/-!
## What has been done
-/

def IsThere (parent : Parent) (l : Locals) : Prop :=
  forall id key, parent = some (id, key) -> id < l.clones.length

structure WithinLimits (l : Locals) : Prop where
  bytes : l.byteCount ≤ MAX_SECURE_JSON_BYTES
  keys : l.keyCount ≤ MAX_SERIALIZATION_KEYS
  nodes : l.nodeCount ≤ MAX_SERIALIZATION_NODES

/-- The value has been copied to where it goes, and counted. -/
structure Walked (parent : Parent) (t : Json) (keys : Nat) (c : Copy)
    (l l' : Locals) : Prop where
  ancestors : l'.ancestors = l.ancestors
  bytes : l'.byteCount = l.byteCount + t.size
  counted : l'.keyCount = l.keyCount + keys
  nodes : l'.nodeCount = l.nodeCount + t.nodes
  grows : l.clones.length ≤ l'.clones.length
  clones : forall id, id < l.clones.length ->
    l'.clones[id]? = (assign parent c l).clones[id]?
  snapshot : l'.snapshot = (assign parent c l).snapshot
  shows : Shows l'.clones t l.clones.length c

structure WalkedAll (clone : Nat) (places : List ChildKey) (ts : List Json)
    (keys : Nat) (cs : List Copy) (l l' : Locals) : Prop where
  ancestors : l'.ancestors = l.ancestors
  bytes : l'.byteCount = l.byteCount + Json.sizeItems ts
  counted : l'.keyCount = l.keyCount + keys
  nodes : l'.nodeCount = l.nodeCount + Json.nodesItems ts
  grows : l.clones.length ≤ l'.clones.length
  clones : forall id, id < l.clones.length ->
    l'.clones[id]? = (l.clones.modify clone (fill (places.zip cs)))[id]?
  snapshot : l'.snapshot = l.snapshot
  shows : ShowsItems l'.clones ts l.clones.length cs

@[simp] theorem assign_clones_length (parent : Parent) (next : Copy)
    (l : Locals) : (assign parent next l).clones.length = l.clones.length := by
  cases parent with
  | none => rfl
  | some target => exact List.length_modify _ _ _

theorem Walked.passed {parent : Parent} {v : JsValue} {t : Json} {c : Copy}
    (h : Leaf v t c) (l : Locals) :
    Walked parent t 0 c l (passed l parent c t.size) := by
  refine ⟨assign_ancestors _ _ _, rfl, assign_keyCount _ _ _, ?_,
    Nat.le_of_eq (assign_clones_length _ _ _).symm, fun id _ => rfl, rfl, ?_⟩
  · cases h with
    | null => rfl
    | bool b => rfl
    | num hn => rfl
    | str s => rfl
  · cases h with
    | null =>
        rw [Shows]
    | bool b =>
        rw [Shows]
    | num hn =>
        rw [Shows]
    | str s =>
        rw [Shows]

theorem WalkedAll.nil (clone : Nat) (l : Locals) :
    WalkedAll clone [] [] 0 [] l l := by
  refine ⟨rfl, rfl, rfl, rfl, Nat.le_refl _, ?_, rfl, ?_⟩
  · intro id _
    rw [List.getElem?_modify]
    cases l.clones[id]? with
    | none => rfl
    | some x =>
        show some x = some (if clone = id then x else x)
        rw [ite_self]
  · rw [ShowsItems]

theorem WalkedAll.cons {clone : Nat} {place : ChildKey}
    {places : List ChildKey} {t : Json} {ts : List Json} {first others : Nat}
    {c : Copy} {cs : List Copy} {l l1 l2 : Locals}
    (hthere : clone < l.clones.length)
    (hfirst : Walked (some (clone, place)) t first c l l1)
    (hothers : WalkedAll clone places ts others cs l1 l2) :
    WalkedAll clone (place :: places) (t :: ts) (first + others) (c :: cs)
      l l2 := by
  have hkept : KeptFrom l.clones.length l1.clones l2.clones := by
    intro id hid x hx
    have hlt : id < l1.clones.length := (List.getElem?_eq_some_iff.mp hx).1
    rw [hothers.clones id hlt, List.getElem?_modify_ne _ _ (by omega)]
    exact hx
  refine ⟨hothers.ancestors.trans hfirst.ancestors, ?_, ?_, ?_,
    Nat.le_trans hfirst.grows hothers.grows, ?_,
    hothers.snapshot.trans hfirst.snapshot, ?_⟩
  · rw [hothers.bytes, hfirst.bytes, Json.sizeItems, Nat.add_assoc]
  · rw [hothers.counted, hfirst.counted, Nat.add_assoc]
  · rw [hothers.nodes, hfirst.nodes, Json.nodesItems, Nat.add_assoc]
  · intro id hid
    have hone : l1.clones[id]? =
        (l.clones.modify clone (JsonContainer.define place c))[id]? :=
      hfirst.clones id hid
    rw [hothers.clones id (Nat.lt_of_lt_of_le hid hfirst.grows)]
    by_cases heq : clone = id
    · rw [<- heq] at hone ⊢
      rw [List.getElem?_modify_eq, hone, List.getElem?_modify_eq,
        List.getElem?_modify_eq]
      cases l.clones[clone]? with
      | none => rfl
      | some x => rfl
    · rw [List.getElem?_modify_ne _ _ heq, hone,
        List.getElem?_modify_ne _ _ heq, List.getElem?_modify_ne _ _ heq]
  · rw [ShowsItems]
    exact ⟨c, cs, rfl, hfirst.shows.mono (Nat.le_refl _) hkept,
      hothers.shows.mono hfirst.grows fun id _ x hx => hx⟩

/-!
## An object and its parts
-/

section Entered

variable {l : Locals} {parent : Parent} {r : Ref} {new : JsonContainer}
variable {own bytes : Nat}

theorem enter_clones_length :
    (enter l parent r new own bytes).clones.length = l.clones.length + 1 := by
  show (assign parent _ _).clones.length = _
  rw [assign_clones_length]
  exact List.length_append

theorem enter_new (hthere : IsThere parent l) :
    (enter l parent r new own bytes).clones[l.clones.length]? = some new := by
  cases parent with
  | none => exact List.getElem?_concat_length
  | some target =>
      have hlt := hthere target.1 target.2 rfl
      show ((l.clones ++ [new]).modify target.1 _)[l.clones.length]? = _
      rw [List.getElem?_modify_ne _ _ (Nat.ne_of_lt hlt)]
      exact List.getElem?_concat_length

theorem enter_old {id : Nat} (hid : id < l.clones.length) :
    (enter l parent r new own bytes).clones[id]? =
      (assign parent (Copy.container l.clones.length) l).clones[id]? := by
  cases parent with
  | none => exact List.getElem?_append_left hid
  | some target =>
      show ((l.clones ++ [new]).modify target.1 _)[id]? =
        (l.clones.modify target.1 _)[id]?
      rw [List.getElem?_modify, List.getElem?_modify,
        List.getElem?_append_left hid]

theorem enter_snapshot : (enter l parent r new own bytes).snapshot =
    (assign parent (Copy.container l.clones.length) l).snapshot := by
  cases parent with
  | none => rfl
  | some target => rfl

theorem delete_add {s : JsSet Ref} {r : Ref} (h : r ∉ s) :
    (s.add r).delete r = s := by
  unfold JsSet.add JsSet.delete
  rw [if_neg h, List.filter_append]
  have hsame : s.filter (fun b => decide (b ≠ r)) = s := by
    rw [List.filter_eq_self]
    intro b hb
    rw [decide_eq_true_eq]
    intro heq
    exact h (heq ▸ hb)
  rw [hsame]
  simp

theorem Walked.left {t : Json} {ts : List Json} {places : List ChildKey}
    {inner : Nat} {cs : List Copy} {l2 : Locals} (hthere : IsThere parent l)
    (hfree : r ∉ l.ancestors)
    (hparts : WalkedAll l.clones.length places ts inner cs
      (enter l parent r new own bytes) l2)
    (hsize : t.size = bytes + Json.sizeItems ts)
    (hnodes : t.nodes = Json.nodesItems ts + 1)
    (hshows : l2.clones[l.clones.length]? = some (fill (places.zip cs) new) ->
      ShowsItems l2.clones ts (l.clones.length + 1) cs ->
        Shows l2.clones t l.clones.length (Copy.container l.clones.length)) :
    Walked parent t (own + inner) (Copy.container l.clones.length) l
      { l2 with ancestors := l2.ancestors.delete r } := by
  have hlength := @enter_clones_length l parent r new own bytes
  refine ⟨?_, ?_, ?_, ?_, ?_, ?_, ?_, ?_⟩
  · show l2.ancestors.delete r = _
    rw [hparts.ancestors]
    exact delete_add hfree
  · show l2.byteCount = _
    rw [hparts.bytes, hsize, <- Nat.add_assoc]
    rfl
  · show l2.keyCount = _
    rw [hparts.counted, <- Nat.add_assoc]
    rfl
  · show l2.nodeCount = _
    rw [hparts.nodes, hnodes]
    show l.nodeCount + 1 + _ = _
    omega
  · exact Nat.le_trans (by omega) hparts.grows
  · intro id hid
    show l2.clones[id]? = _
    rw [hparts.clones id (by omega),
      List.getElem?_modify_ne _ _ (Nat.ne_of_gt hid)]
    exact enter_old hid
  · exact hparts.snapshot.trans enter_snapshot
  · apply hshows
    · rw [hparts.clones _ (by omega), List.getElem?_modify_eq,
        enter_new hthere]
      rfl
    · rw [<- hlength]
      exact hparts.shows

theorem nodesMembers_eq : forall (ms : List (JsString × Json)),
    Json.nodesMembers ms = Json.nodesItems (ms.map Prod.snd)
  | [] => by
      rw [Json.nodesMembers, List.map_nil, Json.nodesItems]
  | (k, t) :: ms => by
      rw [Json.nodesMembers, List.map_cons, Json.nodesItems,
        nodesMembers_eq ms]

theorem heightMembers_eq : forall (ms : List (JsString × Json)),
    Json.heightMembers ms = Json.heightItems (ms.map Prod.snd)
  | [] => by
      rw [Json.heightMembers, List.map_nil, Json.heightItems]
  | (k, t) :: ms => by
      rw [Json.heightMembers, List.map_cons, Json.heightItems,
        heightMembers_eq ms]

theorem sizeMembers_eq : forall {ms : List (JsString × Json)}
    {entries : List (JsString × JsValue)},
    ms.map Prod.fst = entries.map Prod.fst ->
      Json.sizeMembers ms =
        keyBytes entries + Json.sizeItems (ms.map Prod.snd) := by
  intro ms
  induction ms with
  | nil =>
      intro entries h
      cases entries with
      | nil => rfl
      | cons e es => cases h
  | cons m ms ih =>
      intro entries h
      cases entries with
      | nil => cases h
      | cons e es =>
          obtain ⟨k, t⟩ := m
          rw [List.map_cons, List.map_cons] at h
          injection h with hk h
          have hk : k = e.1 := hk
          have hbytes : keyBytes (e :: es) =
              utf8ByteLength (Json.quote e.1) + 1 + keyBytes es := by
            simp [keyBytes]
          rw [Json.sizeMembers, ih h, hbytes, List.map_cons, Json.sizeItems, hk]
          show _ + 1 + t.size + _ = _ + 1 + _ + (t.size + _)
          omega

theorem Opens.unfolds {heap : Heap} {parts : List (ChildKey × JsValue)}
    {ts : List Json} {inner : Nat} (hopens : Opens (heap r) parts new bytes)
    (hunfolds : UnfoldsItems heap ts (parts.map Prod.snd) inner) :
    exists t, Unfolds heap t (JsValue.object r)
        ((heap r).ownKeys.length + inner) ∧
      t.height = Json.heightItems ts ∧
      t.size = bytes + Json.sizeItems ts ∧
      t.nodes = Json.nodesItems ts + 1 ∧
      forall clones id cs,
        clones[id]? = some (fill ((parts.map Prod.fst).zip cs) new) ->
        ShowsItems clones ts (id + 1) cs ->
          Shows clones t id (Copy.container id) := by
  have hlength := hunfolds.length
  cases hopens with
  | @array xs h =>
      rw [map_snd_indexed] at hunfolds hlength
      refine ⟨Json.arr ts, ?_, ?_, ?_, ?_, ?_⟩
      · rw [Unfolds]
        exact ⟨r, xs, inner, rfl, h, hunfolds, rfl⟩
      · rw [Json.height]
      · rw [Json.size_arr, hlength]
      · rw [Json.nodes]
      · intro clones id cs hget hshows
        rw [Shows]
        refine ⟨id, cs, rfl, Nat.le_refl _, ?_, hshows⟩
        rw [hget, fill_indexed (hlength.symm.trans hshows.length)]
  | @object entries h =>
      rw [map_snd_named] at hunfolds hlength
      rw [List.length_map] at hlength
      have hfst : ((entries.map Prod.fst).zip ts).map Prod.fst =
          entries.map Prod.fst := List.map_fst_zip (by simp [hlength])
      have hsnd : ((entries.map Prod.fst).zip ts).map Prod.snd = ts :=
        List.map_snd_zip (by simp [hlength])
      refine ⟨Json.obj ((entries.map Prod.fst).zip ts), ?_, ?_, ?_, ?_, ?_⟩
      · rw [Unfolds]
        refine ⟨r, entries, inner, rfl, h, ?_, rfl⟩
        rw [unfoldsMembers_iff, hfst, hsnd]
        exact ⟨rfl, hunfolds⟩
      · rw [Json.height, heightMembers_eq, hsnd]
      · rw [Json.size_obj, sizeMembers_eq hfst, hsnd]
        have hsame : ((entries.map Prod.fst).zip ts).length =
            entries.length := by simp [hlength]
        rw [hsame]
        omega
      · rw [Json.nodes, nodesMembers_eq, hsnd]
      · intro clones id cs hget hshows
        rw [Shows]
        refine ⟨id, cs, rfl, Nat.le_refl _, ?_, ?_⟩
        · rw [hget, fill_named h (hlength.symm.trans hshows.length), hfst]
        · rw [showsMembers_iff, hsnd]
          exact hshows

end Entered

/-!
## What the walk accepts
-/

theorem drain_exit {heap : Heap} {r : Ref} {l l' : Locals} :
    (walk heap).drain [PreflightWork.exit r] l = Except.ok l' <->
      l' = { l with ancestors := l.ancestors.delete r } := by
  have hstep : (walk heap).step (PreflightWork.exit r) l =
      Except.ok ([], { l with ancestors := l.ancestors.delete r }) := rfl
  rw [WorkStack.drain_one, hstep]
  change (walk heap).drain [] _ = _ <-> _
  rw [WorkStack.drain_nil]
  constructor
  · intro h
    cases h
    rfl
  · intro h
    rw [h]

def Accepted (heap : Heap) (v : JsValue) (parent : Parent) (depth : Nat)
    (l l' : Locals) : Prop :=
  exists t keys c, Unfolds heap t v keys ∧
    t.height + depth ≤ MAX_SERIALIZATION_DEPTH ∧
    Walked parent t keys c l l' ∧ WithinLimits l'

section Sound

variable {heap : Heap} {depth : Nat}

theorem children_sound
    (hparts : forall v parent l l',
      (walk heap).drain [PreflightWork.value v parent (depth + 1)] l =
        Except.ok l' -> IsThere parent l -> WithinLimits l ->
          Accepted heap v parent (depth + 1) l l')
    (hdepth : depth ≤ MAX_SERIALIZATION_DEPTH) {clone : Nat} :
    forall {parts : List (ChildKey × JsValue)} {l l' : Locals},
      (walk heap).drain (children clone depth parts) l = Except.ok l' ->
      clone < l.clones.length -> WithinLimits l ->
        exists ts keys cs, UnfoldsItems heap ts (parts.map Prod.snd) keys ∧
          Json.heightItems ts + depth ≤ MAX_SERIALIZATION_DEPTH ∧
          WalkedAll clone (parts.map Prod.fst) ts keys cs l l' ∧
          WithinLimits l' := by
  intro parts
  induction parts with
  | nil =>
      intro l l' h hthere hlimits
      change (walk heap).drain [] l = _ at h
      rw [WorkStack.drain_nil] at h
      cases h
      refine ⟨[], 0, [], ?_, ?_, WalkedAll.nil clone l, hlimits⟩
      · rw [List.map_nil, UnfoldsItems]
        exact ⟨rfl, rfl⟩
      · rw [Json.heightItems]
        omega
  | cons p parts ih =>
      intro l l' h hthere hlimits
      obtain ⟨l1, hfirst, hothers⟩ := ((walk heap).drain_push_ok).mp h
      have htarget : IsThere (some (clone, p.1)) l := by
        intro id key hid
        cases hid
        exact hthere
      obtain ⟨t, first, c, ht, hheight, hwalked, hlimits1⟩ :=
        hparts _ _ _ _ hfirst htarget hlimits
      obtain ⟨ts, others, cs, hts, hheights, hwalkedAll, hlimits'⟩ :=
        ih hothers (Nat.lt_of_lt_of_le hthere hwalked.grows) hlimits1
      refine ⟨t :: ts, first + others, c :: cs, ?_, ?_,
        WalkedAll.cons hthere hwalked hwalkedAll, hlimits'⟩
      · rw [List.map_cons, UnfoldsItems]
        exact ⟨p.2, _, first, others, rfl, ht, hts, rfl⟩
      · rw [Json.heightItems]
        omega

/-- By induction on the levels that are left below the limit. -/
theorem drain_sound : forall (levels : Nat) {depth : Nat},
    MAX_SERIALIZATION_DEPTH < depth + levels -> forall v parent l l',
      (walk heap).drain [PreflightWork.value v parent depth] l =
        Except.ok l' -> IsThere parent l -> WithinLimits l ->
          Accepted heap v parent depth l l' := by
  intro levels
  induction levels with
  | zero =>
      intro depth hlevels v parent l l' h _ _
      rw [WorkStack.drain_one] at h
      obtain ⟨res, hstep, _⟩ := bind_ok_iff.mp h
      obtain ⟨hle, _⟩ := ok_of_ite hstep
      exact absurd (Or.inr hlevels) hle
  | succ levels ih =>
      intro depth hlevels v parent l l' h hthere hlimits
      rw [WorkStack.drain_one] at h
      obtain ⟨res, hstep, hrest⟩ := bind_ok_iff.mp h
      change visit heap v parent depth l = Except.ok res at hstep
      by_cases hobject : exists r, v = JsValue.object r
      · obtain ⟨r, hv⟩ := hobject
        rw [hv] at hstep
        obtain ⟨⟨hnodes, hdepth, hfree, hkeys⟩, parts, new, bytes, hopens,
          hbytes, hres⟩ := visit_object_ok.mp hstep
        rw [hres] at hrest
        obtain ⟨l2, hchildren, hexit⟩ :=
          bind_ok_iff.mp ((WorkStack.drain_append _ _ _ _).symm.trans hrest)
        have hentered : WithinLimits
            (enter l parent r new (heap r).ownKeys.length bytes) :=
          ⟨hbytes, hkeys, hnodes⟩
        have hnew : l.clones.length <
            (enter l parent r new (heap r).ownKeys.length
              bytes).clones.length := by
          rw [enter_clones_length]
          omega
        obtain ⟨ts, inner, cs, hts, hheights, hwalked, hlimits'⟩ :=
          children_sound (ih (by omega)) hdepth hchildren hnew hentered
        obtain ⟨t, ht, hheight, hsize, hcount, hshows⟩ := hopens.unfolds hts
        rw [drain_exit.mp hexit, hv]
        refine ⟨t, _, _, ht, by omega, Walked.left hthere hfree hwalked hsize
          hcount (hshows _ _ _), ?_⟩
        exact ⟨hlimits'.bytes, hlimits'.keys, hlimits'.nodes⟩
      · have hleaf : forall r, v ≠ JsValue.object r :=
          fun r hr => hobject ⟨r, hr⟩
        obtain ⟨⟨hnodes, hdepth⟩, t, c, ht, hbytes, hres⟩ :=
          (visit_leaf_ok hleaf).mp hstep
        rw [hres, WorkStack.drain_nil] at hrest
        cases hrest
        refine ⟨t, 0, c, ?_, ?_, Walked.passed ht l, ?_⟩
        · cases ht with
          | null =>
              rw [Unfolds]
              exact ⟨rfl, rfl⟩
          | bool b =>
              rw [Unfolds]
              exact ⟨rfl, rfl⟩
          | num hn =>
              rw [Unfolds]
              exact ⟨rfl, hn, rfl⟩
          | str s =>
              rw [Unfolds]
              exact ⟨rfl, rfl⟩
        · cases ht with
          | null => simpa [Json.height] using hdepth
          | bool b => simpa [Json.height] using hdepth
          | num hn => simpa [Json.height] using hdepth
          | str s => simpa [Json.height] using hdepth
        · refine ⟨hbytes, ?_, hnodes⟩
          show (assign parent c l).keyCount ≤ _
          rw [assign_keyCount]
          exact hlimits.keys

end Sound

end SecureJsonFile
end Server
end FlanTerminal

import FlanTerminal.Foundation.JsSet
import FlanTerminal.Foundation.JsonSize
import FlanTerminal.Foundation.WorkStack

/-!
# The values that a secure JSON file takes

`preflightJson` walks over a graph of objects with a stack of its own, copies
what JSON can say, and counts nodes, own keys and bytes on the way.  Objects
are in a heap that the walk only reads; the copies are new containers, filled
while the walk goes on.
-/

namespace FlanTerminal
namespace Server
namespace SecureJsonFile

open Foundation

def MAX_SERIALIZATION_DEPTH : Nat := 256
def MAX_SERIALIZATION_KEYS : Nat := 100000
def MAX_SERIALIZATION_NODES : Nat := 100000
def MAX_SECURE_JSON_BYTES : Nat := 1048576

/-!
## Objects
-/

abbrev Ref := Nat

inductive PropertyKey where
  | str (s : JsString)
  | symbol (id : Nat)
  deriving DecidableEq

/-- What `typeof` and `=== null` tell apart. -/
inductive JsValue where
  | undefined
  | null
  | bool (b : Bool)
  | num (n : JsNumber)
  | nan
  | str (s : JsString)
  | bigint (n : Int)
  | symbol (id : Nat)
  | function (r : Ref)
  | object (r : Ref)
  deriving DecidableEq

inductive Descriptor where
  | data (value : JsValue) (enumerable : Bool)
  | accessor (enumerable : Bool)
  deriving DecidableEq

def Descriptor.enumerable : Descriptor -> Bool
  | data _ e => e
  | accessor e => e

inductive Prototype where
  | objectPrototype
  | null
  | other (r : Ref)
  deriving DecidableEq

/-- The largest array index is 2^32 - 2. -/
def arrayIndex (s : JsString) : Option Nat :=
  let n := decimalValue s
  if decimalDigits n = s ∧ n < 2 ^ 32 - 1 then some n else none

/-- Whether the key comes before the other one for being a lower index, or an
index at all. -/
def indexedBefore (k k' : JsString) : Bool :=
  match arrayIndex k with
  | none => false
  | some n =>
      match arrayIndex k' with
      | none => true
      | some m => n < m

/-- The order of own keys: indices ascending, other strings, symbols. -/
def PropertyKey.Before : PropertyKey -> PropertyKey -> Prop
  | str k, str k' => k ≠ k' ∧ indexedBefore k' k = false
  | str _, symbol _ => True
  | symbol _, str _ => False
  | symbol id, symbol id' => id ≠ id'

/-- An ordinary object or an array.  The own property `length` of an array is
one of its properties. -/
structure JsObject where
  isArray : Bool
  length : Nat
  prototype : Prototype
  properties : List (PropertyKey × Descriptor)
  ordered : properties.Pairwise fun p q => p.1.Before q.1
  length_own : isArray = true ->
    (PropertyKey.str (js "length"),
      Descriptor.data (JsValue.num (JsNumber.finite length)) false) ∈ properties

abbrev Heap := Ref -> JsObject

namespace JsObject

/-- `Reflect.ownKeys`. -/
def ownKeys (o : JsObject) : List PropertyKey :=
  o.properties.map Prod.fst

/-- `Object.getOwnPropertyDescriptor`. -/
def descriptor (o : JsObject) (key : PropertyKey) : Option Descriptor :=
  (o.properties.find? fun p => p.1 == key).map Prod.snd

def enumerates (o : JsObject) (key : PropertyKey) : Bool :=
  (o.descriptor key).any Descriptor.enumerable

end JsObject

/-!
## Copies
-/

inductive Copy where
  | null
  | bool (b : Bool)
  | num (n : JsNumber)
  | str (s : JsString)
  | container (id : Nat)

inductive JsonContainer where
  | arr (items : List (Option Copy))
  | obj (members : List (JsString × Copy))

/-- `Object.defineProperty` of a plain property on an object without own
symbols, which keeps the order of own keys. -/
def defineProperty {value : Type} : List (JsString × value) -> JsString ->
    value -> List (JsString × value)
  | [], k, v => [(k, v)]
  | (k', v') :: rest, k, v =>
      if k' = k then (k, v) :: rest
      else if indexedBefore k k' then (k, v) :: (k', v') :: rest
      else (k', v') :: defineProperty rest k v

inductive ChildKey where
  | index (i : Nat)
  | name (k : JsString)

structure Locals where
  ancestors : JsSet Ref
  clones : List JsonContainer
  byteCount : Nat
  keyCount : Nat
  nodeCount : Nat
  snapshot : Option Copy

def Locals.initial : Locals := ⟨[], [], 0, 0, 0, none⟩

inductive PreflightError where
  | complexity_limit
  | oversized
  | invalid_number
  | invalid_value
  | circular
  | key_limit
  | array_too_large
  | invalid_array
  | invalid_array_property
  | invalid_object
  | invalid_symbol_key
  | invalid_accessor
  deriving DecidableEq

abbrev Checked := Except PreflightError

def addBytes (amount : Nat) (l : Locals) : Checked Locals :=
  if MAX_SECURE_JSON_BYTES < l.byteCount + amount then
    throw PreflightError.oversized
  else pure { l with byteCount := l.byteCount + amount }

def JsonContainer.define (key : ChildKey) (next : Copy) :
    JsonContainer -> JsonContainer
  | arr items =>
      match key with
      | ChildKey.index i => arr (items.set i (some next))
      | ChildKey.name _ => arr items
  | obj members =>
      match key with
      | ChildKey.index _ => obj members
      | ChildKey.name k => obj (defineProperty members k next)

/-- The copy that a part goes into, if any, and its place there. -/
abbrev Parent := Option (Nat × ChildKey)

def assign (parent : Parent) (next : Copy) (l : Locals) : Locals :=
  match parent with
  | none => { l with snapshot := some next }
  | some (id, key) =>
      { l with clones := l.clones.modify id (JsonContainer.define key next) }

/-!
## Strings
-/

def jsonUnitByteLength (u : UInt16) : Nat :=
  if u = 0x22 ∨ u = 0x5c ∨ u = 0x08 ∨ u = 0x09 ∨ u = 0x0a ∨ u = 0x0c ∨
      u = 0x0d then 2
  else if u.toNat < 0x20 then 6
  else if u.toNat < 0x80 then 1
  else if u.toNat < 0x800 then 2
  else if isSurrogate u then 6
  else 3

/-- The loop of `jsonStringByteLength`, which stops beyond the limit. -/
def jsonStringBytesFrom (bytes : Nat) : JsString -> Nat
  | [] => bytes
  | [u] => bytes + jsonUnitByteLength u
  | u :: v :: rest =>
      if isHighSurrogate u && isLowSurrogate v then
        if MAX_SECURE_JSON_BYTES < bytes + 4 then bytes + 4
        else jsonStringBytesFrom (bytes + 4) rest
      else
        if MAX_SECURE_JSON_BYTES < bytes + jsonUnitByteLength u then
          bytes + jsonUnitByteLength u
        else jsonStringBytesFrom (bytes + jsonUnitByteLength u) (v :: rest)

def jsonStringByteLength (value : JsString) : Nat :=
  jsonStringBytesFrom 2 value

/-!
## The walk
-/

inductive PreflightWork where
  | value (v : JsValue) (parent : Parent) (depth : Nat)
  | exit (r : Ref)

def leaf (amount : Nat) (next : Copy) (parent : Parent) (l : Locals) :
    Checked (List PreflightWork × Locals) := do
  let l ← addBytes amount l
  pure ([], assign parent next l)

/-- The elements from the last one down, each on top of the ones after it. -/
def pushElements (o : JsObject) (clone depth : Nat) :
    Nat -> List PreflightWork -> Checked (List PreflightWork)
  | 0, work => pure work
  | index + 1, work =>
      match o.descriptor (PropertyKey.str (decimalDigits index)) with
      | some (Descriptor.data v true) =>
          pushElements o clone depth index
            (PreflightWork.value v (some (clone, ChildKey.index index))
              (depth + 1) :: work)
      | _ => throw PreflightError.invalid_array_property

def visitArray (o : JsObject) (r : Ref) (parent : Parent) (depth : Nat)
    (l : Locals) : Checked (List PreflightWork × Locals) := do
  if MAX_SERIALIZATION_NODES < o.length then
    throw PreflightError.array_too_large
  let enumerableKeys := o.ownKeys.filter o.enumerates
  if enumerableKeys.any (fun key => key matches PropertyKey.symbol _) ∨
      enumerableKeys.length ≠ o.length then
    throw PreflightError.invalid_array
  let clone := l.clones.length
  let l := { l with
    clones := l.clones ++ [JsonContainer.arr (List.replicate o.length none)] }
  let l ← addBytes (2 + (o.length - 1))
    (assign parent (Copy.container clone) l)
  let work ← pushElements o clone depth o.length [PreflightWork.exit r]
  pure (work, l)

def collectEntries : List (PropertyKey × Descriptor) ->
    Checked (List (JsString × JsValue))
  | [] => pure []
  | (_, Descriptor.data _ false) :: rest => collectEntries rest
  | (_, Descriptor.accessor false) :: rest => collectEntries rest
  | (PropertyKey.symbol _, _) :: _ => throw PreflightError.invalid_symbol_key
  | (PropertyKey.str _, Descriptor.accessor true) :: _ =>
      throw PreflightError.invalid_accessor
  | (PropertyKey.str key, Descriptor.data v true) :: rest => do
      let entries ← collectEntries rest
      pure ((key, v) :: entries)

/-- The members from the last one down. -/
def pushMembers (clone depth : Nat) : List (JsString × JsValue) ->
    List PreflightWork -> Locals -> Checked (List PreflightWork × Locals)
  | [], work, l => pure (work, l)
  | (key, child) :: rest, work, l => do
      let (work, l) ← pushMembers clone depth rest work l
      let l ← addBytes (jsonStringByteLength key + 1) l
      pure (PreflightWork.value child (some (clone, ChildKey.name key))
        (depth + 1) :: work, l)

def visitObject (o : JsObject) (r : Ref) (parent : Parent) (depth : Nat)
    (l : Locals) : Checked (List PreflightWork × Locals) := do
  if o.prototype ≠ Prototype.objectPrototype ∧ o.prototype ≠ Prototype.null then
    throw PreflightError.invalid_object
  let entries ← collectEntries o.properties
  let clone := l.clones.length
  let l := { l with clones := l.clones ++ [JsonContainer.obj []] }
  let l ← addBytes (2 + (entries.length - 1))
    (assign parent (Copy.container clone) l)
  pushMembers clone depth entries [PreflightWork.exit r] l

def visit (heap : Heap) (v : JsValue) (parent : Parent) (depth : Nat)
    (l : Locals) : Checked (List PreflightWork × Locals) := do
  let l := { l with nodeCount := l.nodeCount + 1 }
  if MAX_SERIALIZATION_NODES < l.nodeCount ∨ MAX_SERIALIZATION_DEPTH < depth then
    throw PreflightError.complexity_limit
  match v with
  | JsValue.null => leaf 4 Copy.null parent l
  | JsValue.str s => leaf (jsonStringByteLength s) (Copy.str s) parent l
  | JsValue.bool b => leaf (if b then 4 else 5) (Copy.bool b) parent l
  | JsValue.nan => throw PreflightError.invalid_number
  | JsValue.num (JsNumber.infinity _) => throw PreflightError.invalid_number
  | JsValue.num n => leaf n.text.length (Copy.num n) parent l
  | JsValue.object r =>
      if r ∈ l.ancestors then throw PreflightError.circular
      let o := heap r
      let l := { l with
        ancestors := l.ancestors.add r
        keyCount := l.keyCount + o.ownKeys.length }
      if MAX_SERIALIZATION_KEYS < l.keyCount then
        throw PreflightError.key_limit
      if o.isArray then visitArray o r parent depth l
      else visitObject o r parent depth l
  | _ => throw PreflightError.invalid_value

def work (heap : Heap) : PreflightWork -> Locals ->
    Checked (List PreflightWork × Locals)
  | PreflightWork.value v parent depth, l => visit heap v parent depth l
  | PreflightWork.exit r, l =>
      pure ([], { l with ancestors := l.ancestors.delete r })

/-!
## The walk ends

Each value that is visited is counted, and the count is bounded.
-/

open WorkStack (bind_ok_iff)

theorem ok_of_ite {e : PreflightError} {p : Prop} [Decidable p] {result : Type}
    {k : Checked result} {r : result}
    (h : (if p then throw e else k) = Except.ok r) :
    ¬p ∧ k = Except.ok r := by
  by_cases hp : p
  · rw [if_pos hp] at h
    cases h
  · rw [if_neg hp] at h
    exact ⟨hp, h⟩

theorem ite_ok {e : PreflightError} {p : Prop} [Decidable p] {result : Type}
    {k : Checked result} {r : result} (hp : ¬p) (h : k = Except.ok r) :
    (if p then throw e else k) = Except.ok r := by
  rw [if_neg hp]
  exact h

theorem addBytes_ok {amount : Nat} {l l' : Locals} :
    addBytes amount l = Except.ok l' <->
      l.byteCount + amount ≤ MAX_SECURE_JSON_BYTES ∧
        l' = { l with byteCount := l.byteCount + amount } := by
  unfold addBytes
  constructor
  · intro h
    obtain ⟨hle, h⟩ := ok_of_ite h
    cases h
    exact ⟨Nat.le_of_not_lt hle, rfl⟩
  · intro h
    rw [if_neg (Nat.not_lt_of_le h.1), h.2]
    rfl

@[simp] theorem assign_nodeCount (parent : Parent) (next : Copy) (l : Locals) :
    (assign parent next l).nodeCount = l.nodeCount := by
  cases parent with
  | none => rfl
  | some target => rfl

theorem leaf_ok {amount : Nat} {next : Copy} {parent : Parent} {l : Locals}
    {r : List PreflightWork × Locals} :
    leaf amount next parent l = Except.ok r <->
      l.byteCount + amount ≤ MAX_SECURE_JSON_BYTES ∧
        r = ([], assign parent next
          { l with byteCount := l.byteCount + amount }) := by
  unfold leaf
  rw [bind_ok_iff]
  constructor
  · intro h
    obtain ⟨l', hbytes, hr⟩ := h
    obtain ⟨hle, hl⟩ := addBytes_ok.mp hbytes
    cases hr
    rw [hl]
    exact ⟨hle, rfl⟩
  · intro h
    exact ⟨_, addBytes_ok.mpr ⟨h.1, rfl⟩, by rw [h.2]; rfl⟩

theorem pushMembers_nodeCount {clone depth : Nat} :
    forall {entries : List (JsString × JsValue)} {work : List PreflightWork}
      {l : Locals} {r : List PreflightWork × Locals},
      pushMembers clone depth entries work l = Except.ok r ->
        r.2.nodeCount = l.nodeCount := by
  intro entries
  induction entries with
  | nil =>
      intro work l r h
      cases h
      rfl
  | cons e entries ih =>
      intro work l r h
      rw [pushMembers, bind_ok_iff] at h
      obtain ⟨⟨work', l'⟩, hrest, h⟩ := h
      obtain ⟨l'', hbytes, h⟩ := bind_ok_iff.mp h
      cases h
      rw [(addBytes_ok.mp hbytes).2]
      have hcount : l'.nodeCount = l.nodeCount := ih hrest
      exact hcount

theorem visitArray_nodeCount {o : JsObject} {r : Ref} {parent : Parent}
    {depth : Nat} {l : Locals} {res : List PreflightWork × Locals}
    (h : visitArray o r parent depth l = Except.ok res) :
    res.2.nodeCount = l.nodeCount := by
  obtain ⟨_, h⟩ := ok_of_ite h
  obtain ⟨_, h⟩ := ok_of_ite h
  obtain ⟨l', hbytes, h⟩ := bind_ok_iff.mp h
  obtain ⟨work, _, h⟩ := bind_ok_iff.mp h
  cases h
  rw [(addBytes_ok.mp hbytes).2]
  exact assign_nodeCount _ _ _

theorem visitObject_nodeCount {o : JsObject} {r : Ref} {parent : Parent}
    {depth : Nat} {l : Locals} {res : List PreflightWork × Locals}
    (h : visitObject o r parent depth l = Except.ok res) :
    res.2.nodeCount = l.nodeCount := by
  obtain ⟨_, h⟩ := ok_of_ite h
  obtain ⟨entries, _, h⟩ := bind_ok_iff.mp h
  obtain ⟨l', hbytes, h⟩ := bind_ok_iff.mp h
  rw [pushMembers_nodeCount h, (addBytes_ok.mp hbytes).2]
  exact assign_nodeCount _ _ _

theorem visit_nodeCount {heap : Heap} {v : JsValue} {parent : Parent}
    {depth : Nat} {l : Locals} {res : List PreflightWork × Locals}
    (h : visit heap v parent depth l = Except.ok res) :
    res.2.nodeCount = l.nodeCount + 1 ∧
      l.nodeCount + 1 ≤ MAX_SERIALIZATION_NODES := by
  obtain ⟨hlimits, h⟩ := ok_of_ite h
  refine ⟨?_, Nat.le_of_not_lt fun hlt => hlimits (Or.inl hlt)⟩
  have hleaf : forall {amount : Nat} {next : Copy} {r},
      leaf amount next parent { l with nodeCount := l.nodeCount + 1 } =
        Except.ok r -> r.2.nodeCount = l.nodeCount + 1 := by
    intro amount next r hr
    rw [(leaf_ok.mp hr).2]
    exact assign_nodeCount _ _ _
  cases v with
  | null => exact hleaf h
  | bool b => exact hleaf h
  | str s => exact hleaf h
  | num n =>
      cases n with
      | finite q => exact hleaf h
      | negZero => exact hleaf h
      | infinity negative => cases h
  | object r =>
      obtain ⟨_, h⟩ := ok_of_ite h
      obtain ⟨_, h⟩ := ok_of_ite h
      by_cases harray : (heap r).isArray = true
      · rw [if_pos harray] at h
        exact visitArray_nodeCount h
      · rw [if_neg harray] at h
        exact visitObject_nodeCount h
  | undefined => cases h
  | nan => cases h
  | bigint n => cases h
  | symbol id => cases h
  | function r => cases h

/-- The stack of `preflightJson`. -/
def walk (heap : Heap) : WorkStack PreflightWork Locals PreflightError where
  step := work heap
  left l := MAX_SERIALIZATION_NODES - l.nodeCount
  spends := by
    intro i l pushed l' h
    cases i with
    | value v parent depth =>
        have hcount : l'.nodeCount = l.nodeCount + 1 ∧
          l.nodeCount + 1 ≤ MAX_SERIALIZATION_NODES := visit_nodeCount h
        apply Or.inl
        show MAX_SERIALIZATION_NODES - l'.nodeCount <
          MAX_SERIALIZATION_NODES - l.nodeCount
        omega
    | exit r =>
        cases h
        exact Or.inr ⟨rfl, rfl⟩

/-- The locals at the end of `preflightJson`. -/
def preflightJson (heap : Heap) (value : JsValue) : Checked Locals :=
  (walk heap).drain [PreflightWork.value value none 0] Locals.initial

/-!
## The snapshot as a value
-/

/-- The value that a copy stands for, its containers read down to the given
number of levels. -/
def Copy.json (clones : List JsonContainer) : Nat -> Copy -> Option Json
  | _, null => some Json.null
  | _, bool b => some (Json.bool b)
  | _, num n => some (Json.num n)
  | _, str s => some (Json.str s)
  | 0, container _ => none
  | levels + 1, container id =>
      match clones[id]? with
      | none => none
      | some (JsonContainer.arr items) =>
          (items.mapM fun (item : Option Copy) => item.bind (Copy.json clones levels)).map
            Json.arr
      | some (JsonContainer.obj members) =>
          (members.mapM fun m =>
            (Copy.json clones levels m.2).map fun v => (m.1, v)).map Json.obj

/-- What `preflightJson` returns. -/
def Locals.json (l : Locals) : Option Json :=
  l.snapshot.bind (Copy.json l.clones l.clones.length)

end SecureJsonFile
end Server
end FlanTerminal

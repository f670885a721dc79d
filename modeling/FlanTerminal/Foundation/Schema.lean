import FlanTerminal.Foundation.JsMap
import FlanTerminal.Foundation.Json

/-!
# Schemas

A schema checks a JSON value and returns what it makes of it, or refuses.  A
schema that accepts what it has returned, and returns it again, is stable; the
kinds of schema here are stable under conditions on their parts.
-/

namespace FlanTerminal
namespace Foundation

theorem mapM_some {source target : Type} {f : source -> Option target}
    {xs : List source} {ys : List target} :
    xs.mapM f = some ys <-> List.Forall₂ (fun x y => f x = some y) xs ys := by
  induction xs generalizing ys with
  | nil =>
      constructor
      · intro h
        cases h
        exact List.Forall₂.nil
      · intro h
        cases h
        rfl
  | cons x xs ih =>
      rw [List.mapM_cons]
      constructor
      · intro h
        rcases Option.bind_eq_some_iff.mp h with ⟨y, hy, hrest⟩
        rcases Option.bind_eq_some_iff.mp hrest with ⟨rest, hmap, heq⟩
        cases heq
        exact List.Forall₂.cons hy (ih.mp hmap)
      · intro h
        cases h with
        | cons hy hrest =>
            rw [hy, ih.mpr hrest]
            rfl

/-- `none` is a refusal. -/
abbrev Schema (value : Type) := Json -> Option value

namespace Schema

variable {value : Type}

def boolean : Schema Bool
  | Json.bool b => some b
  | _ => none

def string (transform : JsString -> Option JsString) : Schema JsString
  | Json.str s => transform s
  | _ => none

def number (accepts : JsNumber -> Bool) : Schema JsNumber
  | Json.num (JsNumber.infinity _) => none
  | Json.num n => if accepts n then some n else none
  | _ => none

def enumeration (values : List value) (name : value -> JsString) :
    Schema value
  | Json.str s => values.find? fun a => name a = s
  | _ => none

/-- An array whose entries together satisfy a test. -/
def array (schema : Schema value) (accepts : List value -> Bool) :
    Schema (List value)
  | Json.arr xs => (xs.mapM schema).filter accepts
  | _ => none

/-- An own member `__proto__` is passed over. -/
def listed (keys : List JsString) (key : JsString) : Bool :=
  keys.contains key || decide (key = js "__proto__")

/-- An object without other members than these. -/
def strictObject (keys : List JsString)
    (read : JsMap JsString Json -> Option value) : Schema value
  | Json.obj ms => if ms.all fun m => listed keys m.1 then read ms else none
  | _ => none

def field (ms : JsMap JsString Json) (key : JsString)
    (schema : Schema value) : Option value :=
  (ms.get key).bind schema

/-- What the schema has returned it returns again. -/
def Stable (schema : Schema value) (encode : value -> Json) : Prop :=
  forall v a, schema v = some a -> schema (encode a) = some a

theorem stable_boolean : Stable boolean Json.bool := by
  intro v a h
  rfl

theorem stable_string {transform : JsString -> Option JsString}
    (htransform : forall s t, transform s = some t -> transform t = some t) :
    Stable (string transform) Json.str := by
  intro v a h
  cases v with
  | str s => exact htransform s a h
  | _ => cases h

theorem number_some {accepts : JsNumber -> Bool} {v : Json} {n : JsNumber}
    (h : number accepts v = some n) : v = Json.num n := by
  unfold number at h
  split at h
  · cases h
  · split at h
    · cases h
      rfl
    · cases h
  · cases h

theorem stable_number (accepts : JsNumber -> Bool) :
    Stable (number accepts) Json.num := by
  intro v a h
  rw [← number_some h]
  exact h

theorem enumeration_mem {values : List value} {name : value -> JsString}
    {v : Json} {a : value} (h : enumeration values name v = some a) :
    a ∈ values ∧ v = Json.str (name a) := by
  unfold enumeration at h
  split at h
  · have hname := List.find?_some h
    rw [decide_eq_true_eq] at hname
    exact ⟨List.mem_of_find?_eq_some h, by rw [hname]⟩
  · cases h

theorem enumeration_of_mem {values : List value} {name : value -> JsString}
    (hname : forall a b, name a = name b -> a = b) {a : value}
    (ha : a ∈ values) : enumeration values name (Json.str (name a)) = some a := by
  have hsome : (values.find? fun b => name b = name a).isSome = true := by
    rw [List.find?_isSome]
    exact ⟨a, ha, decide_eq_true rfl⟩
  rcases Option.isSome_iff_exists.mp hsome with ⟨b, hb⟩
  have hsame := List.find?_some hb
  rw [decide_eq_true_eq] at hsame
  show (values.find? fun b => name b = name a) = some a
  rw [hb, hname b a hsame]

theorem stable_enumeration {values : List value} {name : value -> JsString}
    (hname : forall a b, name a = name b -> a = b) :
    Stable (enumeration values name) fun a => Json.str (name a) := by
  intro v a h
  exact enumeration_of_mem hname (enumeration_mem h).1

theorem enumeration_mono {values more : List value} {name : value -> JsString}
    (hname : forall a b, name a = name b -> a = b)
    (hmore : forall a, a ∈ values -> a ∈ more) {v : Json} {a : value}
    (h : enumeration values name v = some a) :
    enumeration more name v = some a := by
  rcases enumeration_mem h with ⟨ha, hv⟩
  rw [hv]
  exact enumeration_of_mem hname (hmore a ha)

theorem listed_of_mem {keys : List JsString} {key : JsString}
    (h : key ∈ keys) : listed keys key = true := by
  simp [listed, h]

theorem listed_append {keys : List JsString} {key : JsString}
    (h : listed keys key = true) (more : List JsString) :
    listed (keys ++ more) key = true := by
  unfold listed at h ⊢
  rw [Bool.or_eq_true, List.contains_iff_mem] at h ⊢
  exact h.imp_left (List.mem_append_left more)

theorem strictObject_some {keys : List JsString}
    {read : JsMap JsString Json -> Option value} {v : Json} {a : value}
    (h : strictObject keys read v = some a) :
    exists ms, v = Json.obj ms ∧
      (ms.all fun m => listed keys m.1) = true ∧ read ms = some a := by
  unfold strictObject at h
  split at h
  · rename_i ms
    split at h
    · rename_i hkeys
      exact ⟨ms, rfl, hkeys, h⟩
    · cases h
  · cases h

theorem strictObject_of {keys : List JsString}
    {read : JsMap JsString Json -> Option value} {ms : JsMap JsString Json}
    {a : value} (hkeys : (ms.all fun m => listed keys m.1) = true)
    (hread : read ms = some a) :
    strictObject keys read (Json.obj ms) = some a := by
  change (if _ then _ else _) = _
  rw [if_pos hkeys]
  exact hread

theorem strictObject_none {keys : List JsString}
    {read : JsMap JsString Json -> Option value} {ms : JsMap JsString Json}
    {m : JsString × Json} (hm : m ∈ ms) (hkey : listed keys m.1 = false) :
    strictObject keys read (Json.obj ms) = none := by
  change (if _ then _ else _) = _
  rw [if_neg]
  intro hall
  have hmem := List.all_eq_true.mp hall m hm
  rw [hkey] at hmem
  cases hmem

theorem bind_of {source target : Type} {x : Option source}
    {f : source -> Option target} {a : source} {b : target}
    (hx : x = some a) (hf : f a = some b) : x.bind f = some b :=
  Option.bind_eq_some_iff.mpr ⟨a, hx, hf⟩

theorem mapM_again {schema : Schema value} {encode : value -> Json}
    (hstable : Stable schema encode) {xs : List Json} {values : List value}
    (h : xs.mapM schema = some values) :
    (values.map encode).mapM schema = some values := by
  have hall := mapM_some.mp h
  clear h
  induction hall with
  | nil => rfl
  | cons hx _ ih =>
      rw [List.map_cons, List.mapM_cons, hstable _ _ hx, ih]
      rfl

theorem stable_array {schema : Schema value} {encode : value -> Json}
    (hstable : Stable schema encode) (accepts : List value -> Bool) :
    Stable (array schema accepts) fun values =>
      Json.arr (values.map encode) := by
  intro v values h
  cases v with
  | arr xs =>
      rcases Option.filter_eq_some_iff.mp h with ⟨hmap, haccepts⟩
      exact Option.filter_eq_some_iff.mpr
        ⟨mapM_again hstable hmap, haccepts⟩
  | _ => cases h

theorem stable_filter {schema : Schema value} {encode : value -> Json}
    (hstable : Stable schema encode) (accepts : value -> Bool) :
    Stable (fun v => (schema v).filter accepts) encode := by
  intro v a h
  rcases Option.filter_eq_some_iff.mp h with ⟨hv, haccepts⟩
  exact Option.filter_eq_some_iff.mpr ⟨hstable v a hv, haccepts⟩

theorem field_some {ms : JsMap JsString Json} {key : JsString}
    {schema : Schema value} {a : value} (h : field ms key schema = some a) :
    exists v, ms.get key = some v ∧ schema v = some a :=
  Option.bind_eq_some_iff.mp h

theorem field_again {schema : Schema value} {encode : value -> Json}
    (hstable : Stable schema encode) {ms ms' : JsMap JsString Json}
    {key : JsString} {a : value} (h : field ms key schema = some a)
    (hget : ms'.get key = some (encode a)) :
    field ms' key schema = some a := by
  rcases field_some h with ⟨v, _, hv⟩
  unfold field
  rw [hget]
  exact hstable v a hv

end Schema

end Foundation
end FlanTerminal

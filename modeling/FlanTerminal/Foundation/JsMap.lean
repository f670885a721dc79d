import Mathlib.Data.List.Nodup

/-!
# Maps that keep the order of insertion

The `Map` of the language: setting a key that is there keeps its place, a new
key goes to the end.  Many components keep records in such a map under a key
that the record itself determines; `index` is that map, and on it the
operations of the map are operations on the list of records.
-/

namespace FlanTerminal
namespace Foundation

abbrev JsMap (key value : Type) := List (key × value)

namespace JsMap

variable {key value : Type} [DecidableEq key]

def get (m : JsMap key value) (k : key) : Option value :=
  m.lookup k

def has (m : JsMap key value) (k : key) : Bool :=
  (m.get k).isSome

def set : JsMap key value -> key -> value -> JsMap key value
  | [], k, v => [(k, v)]
  | (k', v') :: rest, k, v =>
      if k' = k then (k, v) :: rest else (k', v') :: set rest k v

def delete (m : JsMap key value) (k : key) : JsMap key value :=
  m.filter fun entry => decide (entry.1 ≠ k)

def keys (m : JsMap key value) : List key :=
  m.map Prod.fst

def values (m : JsMap key value) : List value :=
  m.map Prod.snd

theorem get_nil (k : key) : get ([] : JsMap key value) k = none := rfl

theorem get_cons (k' : key) (v : value) (m : JsMap key value) (k : key) :
    get ((k', v) :: m) k = if k' = k then some v else get m k := by
  unfold get
  rw [List.lookup_cons]
  by_cases h : k' = k
  · simp [h]
  · have hne : (k == k') = false := by
      simpa using fun h' => h h'.symm
    simp [h, hne]

theorem get_set (m : JsMap key value) (k : key) (v : value) (k' : key) :
    get (set m k v) k' = if k = k' then some v else get m k' := by
  induction m with
  | nil => simp [set, get_cons, get_nil]
  | cons entry rest ih =>
      rcases entry with ⟨j, w⟩
      by_cases hj : j = k
      · simp only [set, hj, if_true, get_cons]
        by_cases hk : k = k'
        · simp [hk]
        · simp [hk]
      · simp only [set, hj, if_false, get_cons, ih]
        by_cases hjk : j = k'
        · have hk : k ≠ k' := fun h => hj (hjk.trans h.symm)
          simp [hjk, hk]
        · simp [hjk]

theorem get_delete (m : JsMap key value) (k k' : key) :
    get (delete m k) k' = if k = k' then none else get m k' := by
  induction m with
  | nil => simp [delete, get_nil]
  | cons entry rest ih =>
      rcases entry with ⟨j, w⟩
      unfold delete at ih ⊢
      by_cases hj : j = k
      · simp only [List.filter_cons, hj, ne_eq, not_true, decide_false,
          Bool.false_eq_true, if_false, ih, get_cons]
        by_cases hk : k = k'
        · simp [hk]
        · simp [hk]
      · simp only [List.filter_cons, hj, ne_eq, not_false_iff, decide_true,
          if_true, get_cons, ih]
        by_cases hjk : j = k'
        · have hk : k ≠ k' := fun h => hj (hjk.trans h.symm)
          simp [hjk, hk]
        · simp [hjk]

/-!
## Entries

The keys of a map are distinct; on such a list of entries looking up a key and
belonging to the list are the same.
-/

def Distinct (m : JsMap key value) : Prop :=
  m.keys.Nodup

omit [DecidableEq key] in
theorem distinct_nil : Distinct ([] : JsMap key value) :=
  List.nodup_nil

theorem mem_of_get {m : JsMap key value} {k : key} {v : value}
    (h : get m k = some v) : (k, v) ∈ m := by
  induction m with
  | nil => cases h
  | cons entry rest ih =>
      rcases entry with ⟨j, w⟩
      rw [get_cons] at h
      split at h
      · rename_i hj
        cases h
        rw [hj]
        exact List.mem_cons_self
      · exact List.mem_cons_of_mem _ (ih h)

theorem get_of_mem {m : JsMap key value} (hm : Distinct m) {k : key}
    {v : value} (h : (k, v) ∈ m) : get m k = some v := by
  induction m with
  | nil => cases h
  | cons entry rest ih =>
      rcases entry with ⟨j, w⟩
      rcases List.nodup_cons.mp hm with ⟨hj, hrest⟩
      rw [get_cons]
      rcases List.mem_cons.mp h with h | h
      · cases h
        rw [if_pos rfl]
      · have hne : j ≠ k := by
          intro hjk
          apply hj
          rw [hjk]
          exact List.mem_map.mpr ⟨(k, v), h, rfl⟩
        rw [if_neg hne]
        exact ih hrest h

theorem mem_keys_set {m : JsMap key value} {k j : key} {v : value} :
    j ∈ keys (set m k v) <-> j ∈ keys m ∨ j = k := by
  induction m with
  | nil => simp [set, keys]
  | cons entry rest ih =>
      rcases entry with ⟨i, w⟩
      by_cases hi : i = k
      · simp only [set, hi, if_true, keys, List.map_cons, List.mem_cons]
        tauto
      · simp only [keys] at ih
        simp only [set, hi, if_false, keys, List.map_cons, List.mem_cons, ih]
        tauto

theorem distinct_set {m : JsMap key value} (hm : Distinct m) (k : key)
    (v : value) : Distinct (set m k v) := by
  induction m with
  | nil => simp [set, Distinct, keys]
  | cons entry rest ih =>
      rcases entry with ⟨i, w⟩
      rcases List.nodup_cons.mp hm with ⟨hi, hrest⟩
      by_cases hik : i = k
      · rw [set, if_pos hik]
        rw [hik] at hi
        exact List.nodup_cons.mpr ⟨hi, hrest⟩
      · rw [set, if_neg hik]
        refine List.nodup_cons.mpr ⟨?_, ih hrest⟩
        intro hmem
        rcases mem_keys_set.mp hmem with hmem | hmem
        · exact hi hmem
        · exact hik hmem

theorem distinct_delete {m : JsMap key value} (hm : Distinct m) (k : key) :
    Distinct (delete m k) :=
  hm.sublist (List.Sublist.map _ List.filter_sublist)

theorem mem_delete {m : JsMap key value} {k : key} {entry : key × value} :
    entry ∈ delete m k <-> entry ∈ m ∧ entry.1 ≠ k := by
  simp [delete]

/-- A new key goes to the end. -/
theorem set_new {m : JsMap key value} {k : key} (h : get m k = none)
    (v : value) : set m k v = m ++ [(k, v)] := by
  induction m with
  | nil => rfl
  | cons entry rest ih =>
      rcases entry with ⟨j, w⟩
      rw [get_cons] at h
      split at h
      · cases h
      · rename_i hj
        rw [set, if_neg hj, ih h]
        rfl

theorem delete_absent {m : JsMap key value} {k : key} (h : get m k = none) :
    delete m k = m := by
  unfold delete
  rw [List.filter_eq_self]
  intro entry hentry
  rw [decide_eq_true_eq]
  intro heq
  rcases List.append_of_mem hentry with ⟨front, back, hm⟩
  have hfound : exists v, get m k = some v := by
    rw [hm]
    clear h hentry hm
    induction front with
    | nil =>
        refine ⟨entry.2, ?_⟩
        rw [List.nil_append, get_cons, if_pos heq]
    | cons x front ih =>
        rcases ih with ⟨v, hv⟩
        rw [List.cons_append, get_cons]
        split
        · exact ⟨_, rfl⟩
        · exact ⟨v, hv⟩
  rcases hfound with ⟨v, hv⟩
  rw [h] at hv
  cases hv

/-- Deleting a key takes one value away. -/
theorem countP_delete {m : JsMap key value} (hm : Distinct m) {k : key}
    {v : value} (h : get m k = some v) (p : value -> Bool) :
    m.values.countP p =
      (delete m k).values.countP p + if p v = true then 1 else 0 := by
  induction m with
  | nil => cases h
  | cons entry rest ih =>
      rcases entry with ⟨j, w⟩
      rcases List.nodup_cons.mp hm with ⟨hj, hrest⟩
      rw [get_cons] at h
      by_cases hjk : j = k
      · rw [if_pos hjk] at h
        cases h
        have habsent : get rest k = none := by
          cases hget : get rest k with
          | none => rfl
          | some v' =>
              have hmem := mem_of_get hget
              rw [← hjk] at hmem
              exact absurd (List.mem_map.mpr ⟨_, hmem, rfl⟩) hj
        have hdelete : delete ((j, v) :: rest) k = rest := by
          have hsame := delete_absent habsent
          unfold delete at hsame ⊢
          rw [List.filter_cons_of_neg (by simpa using hjk), hsame]
        rw [hdelete]
        simp [values, List.countP_cons]
      · rw [if_neg hjk] at h
        have hdelete : delete ((j, w) :: rest) k =
            (j, w) :: delete rest k := by
          unfold delete
          rw [List.filter_cons_of_pos (by simpa using hjk)]
        rw [hdelete]
        have hih := ih hrest h
        simp only [values, List.map_cons, List.countP_cons] at hih ⊢
        omega

theorem keys_set_of_get {m : JsMap key value} {k : key} {v : value}
    (h : get m k = some v) (w : value) : keys (set m k w) = keys m := by
  induction m with
  | nil => cases h
  | cons entry rest ih =>
      rcases entry with ⟨j, x⟩
      rw [get_cons] at h
      by_cases hjk : j = k
      · rw [set, if_pos hjk, ← hjk]
        rfl
      · rw [if_neg hjk] at h
        rw [set, if_neg hjk]
        exact congrArg (List.cons j) (ih h)

theorem mem_set {m : JsMap key value} {k : key} {v : value}
    {entry : key × value} (h : entry ∈ set m k v) :
    entry ∈ m ∨ entry = (k, v) := by
  induction m with
  | nil => exact Or.inr (List.mem_singleton.mp h)
  | cons e rest ih =>
      rcases e with ⟨j, x⟩
      by_cases hjk : j = k
      · rw [set, if_pos hjk] at h
        rcases List.mem_cons.mp h with h | h
        · exact Or.inr h
        · exact Or.inl (List.mem_cons_of_mem _ h)
      · rw [set, if_neg hjk] at h
        rcases List.mem_cons.mp h with h | h
        · exact Or.inl (h ▸ List.mem_cons_self)
        · exact (ih h).imp_left (List.mem_cons_of_mem _)

/-- Setting the value that a key has changes nothing. -/
theorem set_same {m : JsMap key value} {k : key} {v : value}
    (h : get m k = some v) : set m k v = m := by
  induction m with
  | nil => cases h
  | cons entry rest ih =>
      rcases entry with ⟨j, x⟩
      rw [get_cons] at h
      by_cases hjk : j = k
      · rw [if_pos hjk] at h
        cases h
        rw [set, if_pos hjk, hjk]
      · rw [if_neg hjk] at h
        rw [set, if_neg hjk, ih h]

theorem length_set_of_get {m : JsMap key value} {k : key} {v : value}
    (h : get m k = some v) (w : value) : (set m k w).length = m.length := by
  have hlength := congrArg List.length (keys_set_of_get h w)
  rw [keys, keys, List.length_map, List.length_map] at hlength
  exact hlength

theorem length_delete_of_get {m : JsMap key value} (hm : Distinct m)
    {k : key} {v : value} (h : get m k = some v) :
    (delete m k).length + 1 = m.length := by
  have hcount := countP_delete hm h fun _ => true
  simp only [List.countP_true, if_true, values, List.length_map] at hcount
  exact hcount.symm

theorem length_delete_le (m : JsMap key value) (k : key) :
    (delete m k).length ≤ m.length :=
  List.length_filter_le _ _

/-!
## Records under their own key
-/

section Index

variable {record : Type}

def index (f : record -> key) (rs : List record) : JsMap key record :=
  rs.map fun r => (f r, r)

omit [DecidableEq key] in
theorem values_index (f : record -> key) (rs : List record) :
    values (index f rs) = rs := by
  simp [values, index, Function.comp_def]

omit [DecidableEq key] in
theorem index_congr {f g : record -> key} {rs : List record}
    (h : forall r, r ∈ rs -> f r = g r) : index f rs = index g rs := by
  apply List.map_congr_left
  intro r hr
  rw [h r hr]

/-- The record found under a key has that key. -/
theorem get_index {f : record -> key} {rs : List record} {k : key}
    {r : record} (h : get (index f rs) k = some r) : r ∈ rs ∧ f r = k := by
  induction rs with
  | nil => cases h
  | cons x rs ih =>
      change get ((f x, x) :: index f rs) k = some r at h
      rw [get_cons] at h
      split at h
      · rename_i hx
        cases h
        exact ⟨List.mem_cons_self, hx⟩
      · rcases ih h with ⟨hmem, hkey⟩
        exact ⟨List.mem_cons_of_mem x hmem, hkey⟩

theorem has_index {f : record -> key} {rs : List record} {k : key} :
    has (index f rs) k = true <-> exists r, r ∈ rs ∧ f r = k := by
  induction rs with
  | nil => simp [has, index, get_nil]
  | cons x rs ih =>
      change has ((f x, x) :: index f rs) k = true <-> _
      unfold has at ih ⊢
      rw [get_cons]
      by_cases hx : f x = k
      · simp [hx]
      · simp [hx, ih]

/-- With distinct keys every record is found under its key. -/
theorem get_index_self {f : record -> key} {rs : List record}
    (hinj : forall a, a ∈ rs -> forall b, b ∈ rs -> f a = f b -> a = b)
    {r : record} (hr : r ∈ rs) : get (index f rs) (f r) = some r := by
  have hhas : has (index f rs) (f r) = true := has_index.mpr ⟨r, hr, rfl⟩
  unfold has at hhas
  rcases Option.isSome_iff_exists.mp hhas with ⟨x, hx⟩
  rcases get_index hx with ⟨hmem, hkey⟩
  rw [hx, hinj x hmem r hr hkey]

theorem set_index {f : record -> key} {rs : List record} {r : record}
    (hnew : forall x, x ∈ rs -> f x ≠ f r) :
    set (index f rs) (f r) r = index f (rs ++ [r]) := by
  induction rs with
  | nil => rfl
  | cons x rs ih =>
      have hx : f x ≠ f r := hnew x List.mem_cons_self
      change set ((f x, x) :: index f rs) (f r) r =
        (f x, x) :: index f (rs ++ [r])
      rw [set, if_neg hx, ih (fun y hy => hnew y (List.mem_cons_of_mem x hy))]

theorem delete_index [DecidableEq record] {f : record -> key}
    {rs : List record}
    (hinj : forall a, a ∈ rs -> forall b, b ∈ rs -> f a = f b -> a = b)
    {r : record} (hr : r ∈ rs) :
    delete (index f rs) (f r) =
      index f (rs.filter fun x => decide (x ≠ r)) := by
  unfold delete index
  rw [List.filter_map]
  congr 1
  apply List.filter_congr
  intro x hx
  have hiff : f x = f r <-> x = r := by
    constructor
    · intro hkey
      exact hinj x hx r hr hkey
    · intro hxr
      exact congrArg f hxr
  simp [hiff]

end Index

end JsMap

end Foundation
end FlanTerminal

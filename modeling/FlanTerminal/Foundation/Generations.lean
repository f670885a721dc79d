import FlanTerminal.Foundation.JsMap

/-!
# Generation counters with a floor

A bounded table keeps a number for each of the keys that changed last; every
other key has the number of the floor.  A change gives its key a greater number
and moves it to the end, and when the table is too long the entry in front is
dropped.  As long as the floor never falls and is never below what it replaces,
the number reported for a key rises with every change of the key, and nothing
that happens to other keys takes it back.
-/

namespace FlanTerminal
namespace Foundation
namespace Generations

variable {key : Type} [DecidableEq key]

structure Table (key : Type) where
  floor : Nat
  entries : JsMap key Nat

def Table.report (g : Table key) (k : key) : Nat :=
  (g.entries.get k).getD g.floor

def Table.moved (g : Table key) (k : key) (v : Nat) : JsMap key Nat :=
  (g.entries.delete k).set k v

/-- A change of `k` in a table of at most `limit` entries. -/
inductive Advance (limit : Nat) (k : key) (g : Table key) : Table key -> Prop
    where
  | keep {v : Nat} : g.report k < v -> (g.moved k v).length ≤ limit ->
      Advance limit k g ⟨g.floor, g.moved k v⟩
  | evict {v floor : Nat} {oldest : key × Nat} {rest : JsMap key Nat} :
      g.report k < v -> limit < (g.moved k v).length ->
      g.moved k v = oldest :: rest -> g.floor ≤ floor -> oldest.2 ≤ floor ->
      Advance limit k g ⟨floor, (g.moved k v).delete oldest.1⟩

inductive Advances (limit : Nat) : List key -> Table key -> Table key -> Prop
    where
  | nil {g : Table key} : Advances limit [] g g
  | cons {k : key} {ks : List key} {g g' g'' : Table key} :
      Advance limit k g g' -> Advances limit ks g' g'' ->
      Advances limit (k :: ks) g g''

structure Table.Ok (limit : Nat) (g : Table key) : Prop where
  distinct : g.entries.Distinct
  bounded : g.entries.length ≤ limit

namespace Table

theorem moved_eq (g : Table key) (k : key) (v : Nat) :
    g.moved k v = g.entries.delete k ++ [(k, v)] := by
  have habsent : (g.entries.delete k).get k = none := by
    rw [JsMap.get_delete, if_pos rfl]
  exact JsMap.set_new habsent v

theorem get_moved (g : Table key) (k : key) (v : Nat) (j : key) :
    (g.moved k v).get j = if k = j then some v else g.entries.get j := by
  unfold moved
  rw [JsMap.get_set, JsMap.get_delete]
  by_cases h : k = j
  · rw [if_pos h, if_pos h]
  · rw [if_neg h, if_neg h, if_neg h]

theorem distinct_moved {g : Table key} (h : g.entries.Distinct) (k : key)
    (v : Nat) : (g.moved k v).Distinct :=
  JsMap.distinct_set (JsMap.distinct_delete h k) k v

theorem length_moved (g : Table key) (k : key) (v : Nat) :
    (g.moved k v).length ≤ g.entries.length + 1 := by
  rw [moved_eq, List.length_append, List.length_singleton]
  exact Nat.succ_le_succ (JsMap.length_delete_le g.entries k)

theorem oldest_ne {g : Table key} {limit v : Nat} {k : key}
    {oldest : key × Nat} {rest : JsMap key Nat} (hlimit : 0 < limit)
    (hlong : limit < (g.moved k v).length)
    (hfirst : g.moved k v = oldest :: rest) :
    oldest.1 ≠ k ∧ oldest ∈ g.entries := by
  rw [moved_eq] at hlong hfirst
  cases hdelete : g.entries.delete k with
  | nil =>
      rw [hdelete] at hlong
      simp only [List.nil_append, List.length_singleton] at hlong
      omega
  | cons entry others =>
      rw [hdelete, List.cons_append] at hfirst
      have hentry : entry = oldest := (List.cons.inj hfirst).1
      have hmem : entry ∈ g.entries.delete k := by
        rw [hdelete]
        exact List.mem_cons_self
      rw [← hentry]
      have hparts := JsMap.mem_delete.mp hmem
      exact ⟨hparts.2, hparts.1⟩

end Table

namespace Advance

variable {limit : Nat} {k : key} {g g' : Table key}

theorem ok (h : Advance limit k g g') (hok : g.Ok limit) : g'.Ok limit := by
  cases h with
  | keep hv hlength =>
      exact ⟨Table.distinct_moved hok.distinct k _, hlength⟩
  | @evict v floor oldest rest hv hlong hfirst hfloor hoversee =>
      have hdistinct := Table.distinct_moved hok.distinct k v
      have hget : (g.moved k v).get oldest.1 = some oldest.2 := by
        apply JsMap.get_of_mem hdistinct
        rw [hfirst]
        exact List.mem_cons_self
      have hshorter := JsMap.length_delete_of_get hdistinct hget
      have hlength := g.length_moved k v
      have hbounded := hok.bounded
      refine ⟨JsMap.distinct_delete hdistinct oldest.1, ?_⟩
      show ((g.moved k v).delete oldest.1).length ≤ limit
      omega

theorem report_lt (h : Advance limit k g g') (hlimit : 0 < limit) :
    g.report k < g'.report k := by
  cases h with
  | @keep v hv hlength =>
      unfold Table.report at hv ⊢
      simp only [Table.get_moved, if_true, Option.getD_some]
      exact hv
  | @evict v floor oldest rest hv hlong hfirst hfloor hoversee =>
      have hother := (Table.oldest_ne hlimit hlong hfirst).1
      unfold Table.report at hv ⊢
      simp only [JsMap.get_delete, Table.get_moved, if_neg hother, if_true,
        Option.getD_some]
      exact hv

theorem report_le (h : Advance limit k g g') (hlimit : 0 < limit)
    (hok : g.Ok limit) (j : key) : g.report j ≤ g'.report j := by
  by_cases hj : k = j
  · rw [← hj]
    exact Nat.le_of_lt (h.report_lt hlimit)
  · cases h with
    | @keep v hv hlength =>
        unfold Table.report
        simp only [Table.get_moved, if_neg hj]
        exact Nat.le_refl _
    | @evict v floor oldest rest hv hlong hfirst hfloor hoversee =>
        have hmem := (Table.oldest_ne hlimit hlong hfirst).2
        unfold Table.report
        simp only [JsMap.get_delete, Table.get_moved, if_neg hj]
        by_cases holdest : oldest.1 = j
        · have hget : g.entries.get j = some oldest.2 := by
            apply JsMap.get_of_mem hok.distinct
            rw [← holdest]
            exact hmem
          rw [if_pos holdest, hget]
          exact hoversee
        · rw [if_neg holdest]
          cases g.entries.get j with
          | none => exact hfloor
          | some w => exact Nat.le_refl w

end Advance

namespace Advances

variable {limit : Nat} {ks ks' : List key} {g g' g'' : Table key}

theorem append (h : Advances limit ks g g') (h' : Advances limit ks' g' g'') :
    Advances limit (ks ++ ks') g g'' := by
  induction h with
  | nil => exact h'
  | cons hfirst _ ih => exact cons hfirst (ih h')

theorem ok (h : Advances limit ks g g') (hok : g.Ok limit) : g'.Ok limit := by
  induction h with
  | nil => exact hok
  | cons hfirst _ ih => exact ih (hfirst.ok hok)

theorem report_le (h : Advances limit ks g g') (hlimit : 0 < limit)
    (hok : g.Ok limit) (j : key) : g.report j ≤ g'.report j := by
  induction h with
  | nil => exact Nat.le_refl _
  | cons hfirst _ ih =>
      exact Nat.le_trans (hfirst.report_le hlimit hok j)
        (ih (hfirst.ok hok))

/-- A key that changed at least once has a greater number, whatever else
changed before and after. -/
theorem report_lt (h : Advances limit ks g g') (hlimit : 0 < limit)
    (hok : g.Ok limit) {j : key} (hj : j ∈ ks) : g.report j < g'.report j := by
  induction h with
  | nil => exact absurd hj List.not_mem_nil
  | @cons k ks g g' g'' hfirst hrest ih =>
      have hnext := hfirst.ok hok
      cases List.mem_cons.mp hj with
      | inl hk =>
          rw [hk]
          exact Nat.lt_of_lt_of_le (hfirst.report_lt hlimit)
            (hrest.report_le hlimit hnext k)
      | inr hmem =>
          exact Nat.lt_of_le_of_lt (hfirst.report_le hlimit hok j)
            (ih hnext hmem)

end Advances

end Generations
end Foundation
end FlanTerminal

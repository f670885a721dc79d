import FlanTerminal.Server.AuthService
import Mathlib.Data.List.Perm.Subperm

/-!
# The sessions of the authentication service

The two maps of the service are indexes of one list, the sessions held.  This
module shows that adding, removing and changing sessions keeps them so, and
what the expiry check and the choice of the displaced sessions give.
-/

namespace FlanTerminal
namespace Server
namespace AuthService

open Foundation

theorem Sessions.heap_write (s : Sessions) (r : Ref) (f : Stored -> Stored)
    (x : Ref) :
    (s.write r f).heap x = if x = r then f (s.heap r) else s.heap x := rfl

structure Rep (o : Options) (s : Sessions) : Prop where
  byId : s.byId = JsMap.index (fun r => (s.heap r).id) s.held
  byDigest : s.byDigest = JsMap.index (fun r => (s.heap r).digest) s.held
  nodup : s.held.Nodup
  ids : forall a, a ∈ s.held -> forall b, b ∈ s.held ->
    (s.heap a).id = (s.heap b).id -> a = b
  digests : forall a, a ∈ s.held -> forall b, b ∈ s.held ->
    (s.heap a).digest = (s.heap b).digest -> a = b
  generations : forall a, a < s.allocated -> forall b, b < s.allocated ->
    (s.heap a).generation = (s.heap b).generation -> a = b
  bounded : forall r, r < s.allocated ->
    (s.heap r).generation ≤ s.generation
  placed : forall r, r ∈ s.held -> r < s.allocated
  room : s.held.length ≤ o.max
  safe : s.generation ≤ 2 ^ 53

namespace Rep

variable {o : Options} {s : Sessions}

theorem get_byId (h : Rep o s) {id : JsString} {r : Ref}
    (hget : s.byId.get id = some r) : r ∈ s.held ∧ (s.heap r).id = id := by
  rw [h.byId] at hget
  exact JsMap.get_index hget

theorem get_byDigest (h : Rep o s) {digest : JsString} {r : Ref}
    (hget : s.byDigest.get digest = some r) :
    r ∈ s.held ∧ (s.heap r).digest = digest := by
  rw [h.byDigest] at hget
  exact JsMap.get_index hget

theorem get_byId_self (h : Rep o s) {r : Ref} (hr : r ∈ s.held) :
    s.byId.get (s.heap r).id = some r := by
  rw [h.byId]
  exact JsMap.get_index_self h.ids hr

theorem write (h : Rep o s) (r : Ref) {f : Stored -> Stored}
    (hid : (f (s.heap r)).id = (s.heap r).id)
    (hdigest : (f (s.heap r)).digest = (s.heap r).digest)
    (hgen : (f (s.heap r)).generation = (s.heap r).generation) :
    Rep o (s.write r f) := by
  have hids : forall x, ((s.write r f).heap x).id = (s.heap x).id := by
    intro x
    rw [Sessions.heap_write]
    split
    · rename_i hx
      rw [hx, hid]
    · rfl
  have hdigests : forall x,
      ((s.write r f).heap x).digest = (s.heap x).digest := by
    intro x
    rw [Sessions.heap_write]
    split
    · rename_i hx
      rw [hx, hdigest]
    · rfl
  have hgens : forall x,
      ((s.write r f).heap x).generation = (s.heap x).generation := by
    intro x
    rw [Sessions.heap_write]
    split
    · rename_i hx
      rw [hx, hgen]
    · rfl
  constructor
  · rw [JsMap.index_congr (fun x _ => hids x)]
    exact h.byId
  · rw [JsMap.index_congr (fun x _ => hdigests x)]
    exact h.byDigest
  · exact h.nodup
  · intro a ha b hb hab
    rw [hids, hids] at hab
    exact h.ids a ha b hb hab
  · intro a ha b hb hab
    rw [hdigests, hdigests] at hab
    exact h.digests a ha b hb hab
  · intro a ha b hb hab
    rw [hgens, hgens] at hab
    exact h.generations a ha b hb hab
  · intro x hx
    rw [hgens]
    exact h.bounded x hx
  · exact h.placed
  · exact h.room
  · exact h.safe

theorem held_remove (h : Rep o s) {r : Ref} (hr : r ∈ s.held) :
    (s.remove r).held = s.held.filter fun x => decide (x ≠ r) := by
  show (s.byId.delete (s.heap r).id).values = _
  rw [h.byId, JsMap.delete_index h.ids hr, JsMap.values_index]

theorem mem_held_remove (h : Rep o s) {r : Ref} (hr : r ∈ s.held) {x : Ref} :
    x ∈ (s.remove r).held <-> x ∈ s.held ∧ x ≠ r := by
  rw [h.held_remove hr]
  simp

theorem heap_remove_of_ne {r x : Ref} (hx : x ≠ r) :
    (s.remove r).heap x = s.heap x := by
  show (if x = r then _ else s.heap x) = s.heap x
  rw [if_neg hx]

theorem generation_remove (s : Sessions) (r x : Ref) :
    ((s.remove r).heap x).generation = (s.heap x).generation := by
  by_cases hx : x = r
  · show (if x = r then { s.heap r with digest := [] }
      else s.heap x).generation = _
    rw [if_pos hx, hx]
  · rw [heap_remove_of_ne hx]

theorem remove (h : Rep o s) {r : Ref} (hr : r ∈ s.held) :
    Rep o (s.remove r) := by
  have hmem : forall x, x ∈ (s.remove r).held -> x ∈ s.held ∧ x ≠ r := by
    intro x hx
    exact (h.mem_held_remove hr).mp hx
  constructor
  · show s.byId.delete (s.heap r).id = _
    rw [h.held_remove hr]
    calc s.byId.delete (s.heap r).id
        = (JsMap.index (fun x => (s.heap x).id) s.held).delete
            (s.heap r).id := by rw [← h.byId]
      _ = JsMap.index (fun x => (s.heap x).id)
            (s.held.filter fun x => decide (x ≠ r)) :=
          JsMap.delete_index h.ids hr
      _ = _ := by
          apply JsMap.index_congr
          intro x hx
          have hne : x ≠ r := by simpa using (List.mem_filter.mp hx).2
          rw [heap_remove_of_ne hne]
  · show s.byDigest.delete (s.heap r).digest = _
    rw [h.held_remove hr]
    calc s.byDigest.delete (s.heap r).digest
        = (JsMap.index (fun x => (s.heap x).digest) s.held).delete
            (s.heap r).digest := by rw [← h.byDigest]
      _ = JsMap.index (fun x => (s.heap x).digest)
            (s.held.filter fun x => decide (x ≠ r)) :=
          JsMap.delete_index h.digests hr
      _ = _ := by
          apply JsMap.index_congr
          intro x hx
          have hne : x ≠ r := by simpa using (List.mem_filter.mp hx).2
          rw [heap_remove_of_ne hne]
  · rw [h.held_remove hr]
    exact h.nodup.filter _
  · intro a ha b hb hab
    rcases hmem a ha with ⟨ha, har⟩
    rcases hmem b hb with ⟨hb, hbr⟩
    rw [heap_remove_of_ne har, heap_remove_of_ne hbr] at hab
    exact h.ids a ha b hb hab
  · intro a ha b hb hab
    rcases hmem a ha with ⟨ha, har⟩
    rcases hmem b hb with ⟨hb, hbr⟩
    rw [heap_remove_of_ne har, heap_remove_of_ne hbr] at hab
    exact h.digests a ha b hb hab
  · intro a ha b hb hab
    rw [generation_remove, generation_remove] at hab
    exact h.generations a ha b hb hab
  · intro x hx
    rw [generation_remove]
    exact h.bounded x hx
  · intro x hx
    exact h.placed x (hmem x hx).1
  · rw [h.held_remove hr]
    exact (List.length_filter_le _ _).trans h.room
  · exact h.safe

/-- What a new session needs to enter the maps. -/
structure New (s : Sessions) (c : Stored) : Prop where
  id : s.byId.has c.id = false
  digest : s.byDigest.has c.digest = false
  newer : forall r, r < s.allocated -> (s.heap r).generation < c.generation
  generation : c.generation ≤ s.generation

theorem New.id_ne (h : Rep o s) {c : Stored} (hnew : New s c) {r : Ref}
    (hr : r ∈ s.held) : (s.heap r).id ≠ c.id := by
  intro hid
  have hhas : s.byId.has c.id = true := by
    rw [h.byId]
    exact JsMap.has_index.mpr ⟨r, hr, hid⟩
  rw [hnew.id] at hhas
  cases hhas

theorem New.digest_ne (h : Rep o s) {c : Stored} (hnew : New s c) {r : Ref}
    (hr : r ∈ s.held) : (s.heap r).digest ≠ c.digest := by
  intro hdigest
  have hhas : s.byDigest.has c.digest = true := by
    rw [h.byDigest]
    exact JsMap.has_index.mpr ⟨r, hr, hdigest⟩
  rw [hnew.digest] at hhas
  cases hhas

theorem heap_insert (c : Stored) (x : Ref) :
    (s.insert c).heap x = if x = s.allocated then c else s.heap x := rfl

theorem heap_insert_of_lt {c : Stored} {x : Ref} (hx : x < s.allocated) :
    (s.insert c).heap x = s.heap x := by
  rw [heap_insert, if_neg (Nat.ne_of_lt hx)]

theorem heap_insert_self (c : Stored) :
    (s.insert c).heap s.allocated = c := by
  rw [heap_insert, if_pos rfl]

theorem byId_insert (h : Rep o s) {c : Stored} (hnew : New s c) :
    (s.insert c).byId = JsMap.index (fun r => ((s.insert c).heap r).id)
      (s.held ++ [s.allocated]) := by
  have hcongr : s.byId =
      JsMap.index (fun r => ((s.insert c).heap r).id) s.held := by
    rw [JsMap.index_congr (g := fun r => (s.heap r).id)]
    · exact h.byId
    · intro r hr
      rw [heap_insert_of_lt (h.placed r hr)]
  have hkey : c.id = ((s.insert c).heap s.allocated).id := by
    rw [heap_insert_self]
  show s.byId.set c.id s.allocated = _
  rw [hcongr, hkey]
  apply JsMap.set_index
  intro r hr
  rw [heap_insert_of_lt (h.placed r hr), heap_insert_self]
  exact hnew.id_ne h hr

theorem byDigest_insert (h : Rep o s) {c : Stored} (hnew : New s c) :
    (s.insert c).byDigest = JsMap.index
      (fun r => ((s.insert c).heap r).digest) (s.held ++ [s.allocated]) := by
  have hcongr : s.byDigest =
      JsMap.index (fun r => ((s.insert c).heap r).digest) s.held := by
    rw [JsMap.index_congr (g := fun r => (s.heap r).digest)]
    · exact h.byDigest
    · intro r hr
      rw [heap_insert_of_lt (h.placed r hr)]
  have hkey : c.digest = ((s.insert c).heap s.allocated).digest := by
    rw [heap_insert_self]
  show s.byDigest.set c.digest s.allocated = _
  rw [hcongr, hkey]
  apply JsMap.set_index
  intro r hr
  rw [heap_insert_of_lt (h.placed r hr), heap_insert_self]
  exact hnew.digest_ne h hr

theorem held_insert (h : Rep o s) {c : Stored} (hnew : New s c) :
    (s.insert c).held = s.held ++ [s.allocated] := by
  unfold Sessions.held
  rw [h.byId_insert hnew, JsMap.values_index]
  rfl

theorem insert (h : Rep o s) {c : Stored} (hnew : New s c)
    (hroom : s.held.length < o.max) : Rep o (s.insert c) := by
  have hold : forall x, x ∈ s.held ++ [s.allocated] ->
      (x ∈ s.held ∧ (s.insert c).heap x = s.heap x) ∨
        (x = s.allocated ∧ (s.insert c).heap x = c) := by
    intro x hx
    rcases List.mem_append.mp hx with hx | hx
    · exact Or.inl ⟨hx, heap_insert_of_lt (h.placed x hx)⟩
    · have hx : x = s.allocated := List.mem_singleton.mp hx
      rw [hx]
      exact Or.inr ⟨rfl, heap_insert_self c⟩
  constructor
  · rw [h.held_insert hnew]
    exact h.byId_insert hnew
  · rw [h.held_insert hnew]
    exact h.byDigest_insert hnew
  · rw [h.held_insert hnew, List.nodup_append]
    refine ⟨h.nodup, List.nodup_singleton _, ?_⟩
    intro x hx y hy hxy
    rw [hxy, List.mem_singleton.mp hy] at hx
    exact Nat.lt_irrefl _ (h.placed _ hx)
  · rw [h.held_insert hnew]
    intro a ha b hb hab
    rcases hold a ha with ⟨ha, hca⟩ | ⟨ha, hca⟩
    · rcases hold b hb with ⟨hb, hcb⟩ | ⟨hb, hcb⟩
      · rw [hca, hcb] at hab
        exact h.ids a ha b hb hab
      · rw [hca, hcb] at hab
        exact absurd hab (hnew.id_ne h ha)
    · rcases hold b hb with ⟨hb, hcb⟩ | ⟨hb, hcb⟩
      · rw [hca, hcb] at hab
        exact absurd hab.symm (hnew.id_ne h hb)
      · rw [ha, hb]
  · rw [h.held_insert hnew]
    intro a ha b hb hab
    rcases hold a ha with ⟨ha, hca⟩ | ⟨ha, hca⟩
    · rcases hold b hb with ⟨hb, hcb⟩ | ⟨hb, hcb⟩
      · rw [hca, hcb] at hab
        exact h.digests a ha b hb hab
      · rw [hca, hcb] at hab
        exact absurd hab (hnew.digest_ne h ha)
    · rcases hold b hb with ⟨hb, hcb⟩ | ⟨hb, hcb⟩
      · rw [hca, hcb] at hab
        exact absurd hab.symm (hnew.digest_ne h hb)
      · rw [ha, hb]
  · intro a ha b hb hab
    rcases Nat.lt_succ_iff_lt_or_eq.mp ha with ha | ha
    · rcases Nat.lt_succ_iff_lt_or_eq.mp hb with hb | hb
      · rw [heap_insert_of_lt ha, heap_insert_of_lt hb] at hab
        exact h.generations a ha b hb hab
      · rw [heap_insert_of_lt ha, hb, heap_insert_self] at hab
        exact absurd hab (Nat.ne_of_lt (hnew.newer a ha))
    · rcases Nat.lt_succ_iff_lt_or_eq.mp hb with hb | hb
      · rw [heap_insert_of_lt hb, ha, heap_insert_self] at hab
        exact absurd hab.symm (Nat.ne_of_lt (hnew.newer b hb))
      · rw [ha, hb]
  · intro r hr
    rcases Nat.lt_succ_iff_lt_or_eq.mp hr with hr | hr
    · rw [heap_insert_of_lt hr]
      exact h.bounded r hr
    · rw [hr, heap_insert_self]
      exact hnew.generation
  · rw [h.held_insert hnew]
    intro r hr
    rcases hold r hr with ⟨hr, _⟩ | ⟨hr, _⟩
    · exact Nat.lt_succ_of_lt (h.placed r hr)
    · rw [hr]
      exact Nat.lt_succ_self _
  · rw [h.held_insert hnew, List.length_append]
    exact hroom
  · exact h.safe

theorem New.remove (h : Rep o s) {c : Stored} (hnew : New s c) {r : Ref}
    (hr : r ∈ s.held) : New (s.remove r) c := by
  have hrep := h.remove hr
  constructor
  · rw [hrep.byId, Bool.eq_false_iff]
    intro hhas
    rcases JsMap.has_index.mp hhas with ⟨x, hx, hid⟩
    rcases (h.mem_held_remove hr).mp hx with ⟨hx, hne⟩
    rw [heap_remove_of_ne hne] at hid
    exact hnew.id_ne h hx hid
  · rw [hrep.byDigest, Bool.eq_false_iff]
    intro hhas
    rcases JsMap.has_index.mp hhas with ⟨x, hx, hdigest⟩
    rcases (h.mem_held_remove hr).mp hx with ⟨hx, hne⟩
    rw [heap_remove_of_ne hne] at hdigest
    exact hnew.digest_ne h hx hdigest
  · intro x hx
    rw [generation_remove]
    exact hnew.newer x hx
  · exact hnew.generation

end Rep

/-!
## Expiry
-/

theorem earliest_le (c : WithTop ℚ × RevocationReason)
    (rest : List (WithTop ℚ × RevocationReason)) :
    forall d, d ∈ c :: rest -> (earliest c rest).1 ≤ d.1 := by
  induction rest generalizing c with
  | nil =>
      intro d hd
      rw [List.mem_singleton.mp hd]
      exact le_refl _
  | cons x rest ih =>
      intro d hd
      unfold earliest
      split
      · rename_i hlt
        rcases List.mem_cons.mp hd with hd | hd
        · rw [hd]
          exact (ih x x List.mem_cons_self).trans (le_of_lt hlt)
        · exact ih x d hd
      · rename_i hle
        rcases List.mem_cons.mp hd with hd | hd
        · rw [hd]
          exact ih c c List.mem_cons_self
        · rcases List.mem_cons.mp hd with hd | hd
          · rw [hd]
            exact (ih c c List.mem_cons_self).trans (not_lt.mp hle)
          · exact ih c d (List.mem_cons_of_mem c hd)

/-- A session that is not found expired is within its three limits. -/
theorem not_expired {c : Stored} {t : ℚ} (h : expiredReasonAt c t = none) :
    t < c.idleExpiresAt ∧ t < c.absoluteExpiresAt ∧
      forall u, c.upstreamExpiresAt = some u -> t < u := by
  unfold expiredReasonAt at h
  split at h
  · cases h
  · rename_i hfirst
    have hlt := not_le.mp hfirst
    have hall := earliest_le
      ((c.idleExpiresAt : WithTop ℚ), RevocationReason.idle)
      [((c.absoluteExpiresAt : WithTop ℚ), RevocationReason.absolute),
        (c.upstreamLimit, RevocationReason.upstream)]
    have hidle := hlt.trans_le (hall _ List.mem_cons_self)
    have habsolute := hlt.trans_le
      (hall _ (List.mem_cons_of_mem _ List.mem_cons_self))
    have hupstream := hlt.trans_le (hall _
      (List.mem_cons_of_mem _ (List.mem_cons_of_mem _ List.mem_cons_self)))
    refine ⟨WithTop.coe_lt_coe.mp hidle, WithTop.coe_lt_coe.mp habsolute, ?_⟩
    intro u hu
    simp only [Stored.upstreamLimit, hu] at hupstream
    exact WithTop.coe_lt_coe.mp hupstream

/-!
## Room for a new session
-/

theorem oldest_mem (o : Options) (heap : Ref -> Stored) (r : Ref)
    (rest : List Ref) : oldest o heap r rest ∈ r :: rest := by
  induction rest generalizing r with
  | nil => exact List.mem_cons_self
  | cons x rest ih =>
      unfold oldest
      split
      · exact List.mem_cons_of_mem r (ih x)
      · rcases List.mem_cons.mp (ih r) with h | h
        · rw [h]
          exact List.mem_cons_self
        · exact List.mem_cons_of_mem r (List.mem_cons_of_mem x h)

theorem expired_refs (s : Sessions) (t : ℚ) :
    (s.expiredAt t).map Prod.fst =
      s.held.filter fun r => (expiredReasonAt (s.heap r) t).isSome := by
  unfold Sessions.expiredAt
  induction s.held with
  | nil => rfl
  | cons r rest ih =>
      cases h : expiredReasonAt (s.heap r) t with
      | none => simp [h, ih]
      | some reason => simp [h, ih]

theorem mem_activeAt {s : Sessions} {t : ℚ} {r : Ref} :
    r ∈ s.activeAt t <-> r ∈ s.held ∧ r ∉ (s.expiredAt t).map Prod.fst := by
  rw [expired_refs]
  unfold Sessions.activeAt
  cases h : expiredReasonAt (s.heap r) t <;> simp [h]

theorem filter_expired (s : Sessions) (t : ℚ) :
    s.held.filter (fun x => decide (x ∉ (s.expiredAt t).map Prod.fst)) =
      s.activeAt t := by
  unfold Sessions.activeAt
  apply List.filter_congr
  intro x hx
  rw [expired_refs]
  cases h : expiredReasonAt (s.heap x) t <;> simp [h, hx]

/-- The displaced sessions are held, each counted once, and without them there
is room for one more. -/
theorem displaced_room {o : Options} {s : Sessions} (h : Rep o s) (t : ℚ) :
    (forall r, r ∈ (displaced o s t).map Prod.fst -> r ∈ s.held) ∧
      ((displaced o s t).map Prod.fst).Nodup ∧
      (s.held.filter fun x =>
        decide (x ∉ (displaced o s t).map Prod.fst)).length < o.max := by
  have hlength : (s.activeAt t).length ≤ o.max :=
    (List.length_filter_le _ _).trans h.room
  have hsubset : forall r, r ∈ (s.expiredAt t).map Prod.fst -> r ∈ s.held := by
    intro r hr
    rw [expired_refs] at hr
    exact (List.mem_filter.mp hr).1
  have hnodup : ((s.expiredAt t).map Prod.fst).Nodup := by
    rw [expired_refs]
    exact h.nodup.filter _
  unfold displaced
  cases hactive : s.activeAt t with
  | nil =>
      refine ⟨hsubset, hnodup, ?_⟩
      rw [filter_expired, hactive]
      exact o.max_pos
  | cons r rest =>
      have hmem := oldest_mem o s.heap r rest
      rw [← hactive] at hmem
      rcases mem_activeAt.mp hmem with ⟨hheld, hlive⟩
      simp only
      split
      · simp only [List.map_append, List.map_cons, List.map_nil]
        refine ⟨?_, ?_, ?_⟩
        · intro x hx
          rcases List.mem_append.mp hx with hx | hx
          · exact hsubset x hx
          · rw [List.mem_singleton.mp hx]
            exact hheld
        · rw [List.nodup_append]
          refine ⟨hnodup, List.nodup_singleton _, ?_⟩
          intro x hx y hy hxy
          rw [hxy, List.mem_singleton.mp hy] at hx
          exact hlive hx
        · -- one session fewer than the active ones, of which there are at
          -- most `o.max`
          have hfewer : (s.held.filter fun x => decide (x ∉
              (s.expiredAt t).map Prod.fst ++ [oldest o s.heap r rest])) =
              (s.activeAt t).filter fun x =>
                decide (x ≠ oldest o s.heap r rest) := by
            rw [← filter_expired, List.filter_filter]
            apply List.filter_congr
            intro x _
            rw [Bool.eq_iff_iff]
            simp only [decide_eq_true_iff, Bool.and_eq_true, List.mem_append,
              List.mem_singleton, not_or]
            exact and_comm
          rw [hfewer]
          apply lt_of_lt_of_le _ hlength
          apply List.length_filter_lt_length_iff_exists.mpr
          exact ⟨_, hmem, by simp⟩
      · rename_i hfree
        refine ⟨hsubset, hnodup, ?_⟩
        rw [filter_expired, hactive]
        exact not_le.mp hfree

end AuthService
end Server
end FlanTerminal

import FlanTerminal.Foundation.JsString

/-!
# POSIX paths

`isAbsolute`, `basename`, `dirname` and `join` of the path module for paths
with `/`.  A name that is joined to an absolute directory is the base name of
the result.
-/

namespace FlanTerminal
namespace Foundation
namespace PosixPath

def SLASH : UInt16 := 47

def isAbsolute (path : JsString) : Bool :=
  path.head? == some SLASH

/-- The path from its end, without slashes at the end. -/
def backwards (path : JsString) : JsString :=
  path.reverse.dropWhile fun u => u == SLASH

def basename (path : JsString) : JsString :=
  ((backwards path).takeWhile fun u => u != SLASH).reverse

def dirname (path : JsString) : JsString :=
  let above := (backwards path).dropWhile fun u => u != SLASH
  match above with
  | [] => if isAbsolute path then [SLASH] else js "."
  | [_] => [SLASH]
  | [_, _] => if isAbsolute path then [SLASH, SLASH] else above.tail.reverse
  | _ :: rest => rest.reverse

def segments : JsString -> List JsString
  | [] => [[]]
  | u :: rest =>
      if u = SLASH then [] :: segments rest
      else
        match segments rest with
        | [] => [[u]]
        | s :: ss => (u :: s) :: ss

/-- One segment of a path that is normalised; the last one kept is first. -/
def resolveSegment (allowAboveRoot : Bool) (kept : List JsString)
    (s : JsString) : List JsString :=
  if s = [] ∨ s = js "." then kept
  else if s = js ".." then
    match kept with
    | [] => if allowAboveRoot then [s] else []
    | top :: rest =>
        if top = js ".." then if allowAboveRoot then s :: kept else kept
        else rest
  else s :: kept

def slashed : List JsString -> JsString
  | [] => []
  | [s] => s
  | s :: t :: rest => s ++ SLASH :: slashed (t :: rest)

def normalize (path : JsString) : JsString :=
  let absolute := isAbsolute path
  let trailing := path.getLast? == some SLASH
  let body := slashed
    ((segments path).foldl (resolveSegment !absolute) []).reverse
  if path = [] then js "."
  else if body = [] then
    if absolute then [SLASH] else if trailing then js "./" else js "."
  else
    (if absolute then [SLASH] else []) ++ body ++
      if trailing then [SLASH] else []

def join (a b : JsString) : JsString :=
  if a = [] then normalize b
  else if b = [] then normalize a
  else normalize (a ++ SLASH :: b)

/-!
## A name in a directory
-/

/-- A name that is not empty and says no other directory. -/
structure IsName (s : JsString) : Prop where
  not_empty : s ≠ []
  not_dot : s ≠ js "."
  not_dots : s ≠ js ".."
  no_slash : SLASH ∉ s

theorem segments_ne_nil (path : JsString) : segments path ≠ [] := by
  cases path with
  | nil => exact List.cons_ne_nil _ _
  | cons u rest =>
      rw [segments]
      split
      · exact List.cons_ne_nil _ _
      · split
        · exact List.cons_ne_nil _ _
        · exact List.cons_ne_nil _ _

theorem segments_name : forall {s : JsString}, SLASH ∉ s ->
    segments s = [s] := by
  intro s
  induction s with
  | nil =>
      intro _
      rfl
  | cons u rest ih =>
      intro h
      rw [List.mem_cons, not_or] at h
      rw [segments, if_neg (Ne.symm h.1), ih h.2]

theorem segments_append (a b : JsString) :
    segments (a ++ SLASH :: b) = segments a ++ segments b := by
  induction a with
  | nil => simp [segments]
  | cons u a ih =>
      rw [List.cons_append, segments, segments, ih]
      split
      · rfl
      · cases h : segments a with
        | nil => exact absurd h (segments_ne_nil a)
        | cons s ss => rfl

theorem slashed_snoc (kept : List JsString) (s : JsString) :
    slashed (kept ++ [s]) = s ∨
      exists above, slashed (kept ++ [s]) = above ++ SLASH :: s := by
  induction kept with
  | nil => exact Or.inl rfl
  | cons t kept ih =>
      apply Or.inr
      cases kept with
      | nil => exact ⟨t, rfl⟩
      | cons t' kept =>
          rcases ih with ih | ⟨above, ih⟩
          · refine ⟨t, ?_⟩
            rw [List.cons_append, List.cons_append, slashed]
            rw [List.cons_append] at ih
            rw [ih]
          · refine ⟨t ++ SLASH :: above, ?_⟩
            rw [List.cons_append, List.cons_append, slashed]
            rw [List.cons_append] at ih
            rw [ih, List.append_assoc]
            rfl

/-- A name joined to an absolute directory stands after the last slash. -/
theorem join_name {dir name : JsString} (hdir : isAbsolute dir = true)
    (hname : IsName name) : exists above, join dir name = above ++ SLASH :: name := by
  have hne : dir ≠ [] := by
    intro h
    rw [h] at hdir
    cases hdir
  have habsolute : isAbsolute (dir ++ SLASH :: name) = true := by
    cases dir with
    | nil => exact absurd rfl hne
    | cons u rest => exact hdir
  have hlast : ((dir ++ SLASH :: name).getLast? == some SLASH) = false := by
    have hsplit : dir ++ SLASH :: name = dir ++ [SLASH] ++ name := by simp
    rw [beq_eq_false_iff_ne, hsplit,
      List.getLast?_append_of_ne_nil _ hname.not_empty]
    intro h
    exact hname.no_slash (List.mem_of_getLast? h)
  have hkept : (segments (dir ++ SLASH :: name)).foldl
      (resolveSegment false) [] =
      name :: (segments dir).foldl (resolveSegment false) [] := by
    rw [segments_append, segments_name hname.no_slash, List.foldl_append]
    show resolveSegment false _ name = _
    unfold resolveSegment
    rw [if_neg (not_or.mpr ⟨hname.not_empty, hname.not_dot⟩),
      if_neg hname.not_dots]
  have hpath : dir ++ SLASH :: name ≠ [] := by simp
  unfold join
  rw [if_neg hne, if_neg hname.not_empty]
  unfold normalize
  simp only [habsolute, hlast, Bool.not_true, hkept, List.reverse_cons,
    if_neg hpath, if_true, Bool.false_eq_true, if_false, List.append_nil]
  rcases slashed_snoc ((segments dir).foldl (resolveSegment false) []).reverse
    name with hslashed | ⟨above, hslashed⟩
  · rw [hslashed, if_neg hname.not_empty]
    exact ⟨[], rfl⟩
  · rw [hslashed, if_neg (by simp)]
    exact ⟨SLASH :: above, rfl⟩

theorem isAbsolute_dirname {path : JsString} (h : isAbsolute path = true) :
    isAbsolute (dirname path) = true := by
  have hsuffix : ((backwards path).dropWhile fun u => u != SLASH) <:+
      path.reverse :=
    (List.dropWhile_suffix _).trans (List.dropWhile_suffix _)
  unfold dirname
  dsimp only
  split
  · rw [if_pos h]
    rfl
  · rfl
  · rw [if_pos h]
    rfl
  · rename_i u rest hone htwo habove
    rw [habove] at hsuffix
    obtain ⟨front, hfront⟩ := hsuffix
    have hpath : path = rest.reverse ++ u :: front.reverse := by
      rw [<- List.reverse_inj, <- hfront]
      simp
    cases hrest : rest.reverse with
    | nil => exact absurd (List.reverse_eq_nil_iff.mp hrest) hone
    | cons v more =>
        rw [hpath, hrest] at h
        exact h

theorem basename_name {above name : JsString} (hname : IsName name) :
    basename (above ++ SLASH :: name) = name := by
  have hreverse : (above ++ SLASH :: name).reverse =
      name.reverse ++ SLASH :: above.reverse := by simp
  have hfirst : forall u, u ∈ name.reverse -> (u != SLASH) = true := by
    intro u hu
    rw [bne_iff_ne]
    intro heq
    rw [heq] at hu
    exact hname.no_slash (List.mem_reverse.mp hu)
  unfold basename backwards
  rw [hreverse]
  cases hn : name.reverse with
  | nil => exact absurd (List.reverse_eq_nil_iff.mp hn) hname.not_empty
  | cons u rest =>
      have hu := hfirst u (by rw [hn]; exact List.mem_cons_self)
      rw [List.cons_append, List.dropWhile_cons_of_neg (by simpa using hu),
        <- List.cons_append, <- hn, List.takeWhile_append_of_pos hfirst]
      simp

end PosixPath
end Foundation
end FlanTerminal

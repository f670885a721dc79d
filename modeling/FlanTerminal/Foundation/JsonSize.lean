import FlanTerminal.Foundation.JsonText

/-!
# How large a JSON value is

Nodes and levels of a value, and the length of its text in bytes.  The text is
well formed for every value, so the lengths of its parts add up.
-/

namespace FlanTerminal
namespace Foundation

theorem utf8ByteLength_append {s : JsString} (hs : isWellFormed s = true)
    (t : JsString) :
    utf8ByteLength (s ++ t) = utf8ByteLength s + utf8ByteLength t := by
  induction s using isWellFormed.induct with
  | case1 => simp [utf8ByteLength]
  | case2 u =>
      have hu : isSurrogate u = false := by simpa [isWellFormed] using hs
      have hhigh : isHighSurrogate u = false := by
        simp only [isSurrogate, isHighSurrogate, Bool.and_eq_false_iff,
          decide_eq_false_iff_not] at hu ⊢
        omega
      exact utf8ByteLength_cons hhigh t
  | case3 u v rest hpair ih =>
      rw [isWellFormed, if_pos hpair] at hs
      rw [Bool.and_eq_true] at hpair
      rw [List.cons_append, List.cons_append,
        utf8ByteLength_pair hpair.1 hpair.2, ih hs,
        utf8ByteLength_pair hpair.1 hpair.2, Nat.add_assoc]
  | case4 u v rest hpair ih =>
      rw [isWellFormed, if_neg hpair, Bool.and_eq_true] at hs
      have hu : isSurrogate u = false := by simpa using hs.1
      have hhigh : isHighSurrogate u = false := by
        simp only [isSurrogate, isHighSurrogate, Bool.and_eq_false_iff,
          decide_eq_false_iff_not] at hu ⊢
        omega
      rw [List.cons_append, utf8ByteLength_cons hhigh, ih hs.2,
        utf8ByteLength_cons hhigh, Nat.add_assoc]

theorem utf8ByteLength_ascii {s : JsString}
    (h : forall u, u ∈ s -> u.toNat < 0x80) : utf8ByteLength s = s.length := by
  have happend := utf8ByteLength_ascii_append h []
  rwa [List.append_nil] at happend

/-!
## The text of a number
-/

theorem positiveText_ascii (q : ℚ) :
    forall u, u ∈ positiveText q -> u.toNat < 0x80 := by
  have hdigits : forall n u, u ∈ decimalDigits n -> u.toNat < 0x80 :=
    fun n u hu => by
      have := decimalDigits_ascii n u hu
      omega
  have hzeros : forall n u, u ∈ List.replicate n (48 : UInt16) ->
      u.toNat < 0x80 := fun n u hu => by
    rw [(List.mem_replicate.mp hu).2]
    decide
  have hexpo : forall (e : Int) (u : UInt16),
      u ∈ (101 : UInt16) :: (if 0 ≤ e then 43 else 45) ::
        decimalDigits e.natAbs -> u.toNat < 0x80 := by
    intro e u hu
    rcases List.mem_cons.mp hu with hu | hu
    · rw [hu]
      decide
    · rcases List.mem_cons.mp hu with hu | hu
      · rw [hu]
        split
        · decide
        · decide
      · exact hdigits _ u hu
  intro u hu
  unfold positiveText at hu
  revert hu
  generalize shortestDigits q = r
  obtain ⟨d, k, n⟩ := r
  intro hu
  simp only at hu
  split at hu
  · rcases List.mem_append.mp hu with hu | hu
    · exact hdigits d u hu
    · exact hzeros _ u hu
  · split at hu
    · rcases List.mem_append.mp hu with hu | hu
      · exact hdigits d u (List.mem_of_mem_take hu)
      · rcases List.mem_cons.mp hu with hu | hu
        · rw [hu]
          decide
        · exact hdigits d u (List.mem_of_mem_drop hu)
    · split at hu
      · rcases List.mem_cons.mp hu with hu | hu
        · rw [hu]
          decide
        · rcases List.mem_cons.mp hu with hu | hu
          · rw [hu]
            decide
          · rcases List.mem_append.mp hu with hu | hu
            · exact hzeros _ u hu
            · exact hdigits d u hu
      · split at hu
        · exact hexpo _ u hu
        · rename_i c hc
          rcases List.mem_cons.mp hu with hu | hu
          · rw [hu]
            exact hdigits d c (by rw [hc]; exact List.mem_cons_self)
          · exact hexpo _ u hu
        · rename_i c rest _ hc
          rcases List.mem_cons.mp hu with hu | hu
          · rw [hu]
            exact hdigits d c (by rw [hc]; exact List.mem_cons_self)
          · rcases List.mem_cons.mp hu with hu | hu
            · rw [hu]
              decide
            · rcases List.mem_append.mp hu with hu | hu
              · exact hdigits d u
                  (by rw [hc]; exact List.mem_cons_of_mem c hu)
              · exact hexpo _ u hu

theorem JsNumber.text_ascii (n : JsNumber) :
    forall u, u ∈ n.text -> u.toNat < 0x80 := by
  cases n with
  | negZero =>
      intro u hu
      rw [List.mem_singleton.mp hu]
      decide
  | infinity negative =>
      cases negative with
      | true => exact ascii_of_all (by decide)
      | false => exact ascii_of_all (by decide)
  | finite q =>
      intro u hu
      change u ∈ if q = 0 then [48] else if q < 0 then 45 :: positiveText (-q)
        else positiveText q at hu
      split at hu
      · rw [List.mem_singleton.mp hu]
        decide
      · split at hu
        · rcases List.mem_cons.mp hu with hu | hu
          · rw [hu]
            decide
          · exact positiveText_ascii _ u hu
        · exact positiveText_ascii _ u hu

namespace Json

/-!
## Every text is well formed
-/

mutual

theorem stringify_wellFormed : forall (v : Json),
    isWellFormed (stringify v) = true
  | null => rfl
  | bool true => rfl
  | bool false => rfl
  | num n => by
      cases n with
      | infinity negative => rfl
      | negZero => exact isWellFormed_ascii JsNumber.negZero.text_ascii
      | finite q => exact isWellFormed_ascii (JsNumber.finite q).text_ascii
  | str s => isWellFormed_quote s
  | arr xs => by
      rw [stringify]
      exact isWellFormed_append
        (isWellFormed_cons (by decide) (stringifyItems_wellFormed xs)) rfl
  | obj ms => by
      rw [stringify]
      exact isWellFormed_append
        (isWellFormed_cons (by decide) (stringifyMembers_wellFormed ms)) rfl

theorem stringifyItems_wellFormed : forall (xs : List Json),
    isWellFormed (stringifyItems xs) = true
  | [] => rfl
  | [x] => by
      rw [stringifyItems]
      exact stringify_wellFormed x
  | x :: y :: ys => by
      rw [stringifyItems]
      exact isWellFormed_append (stringify_wellFormed x)
        (isWellFormed_cons (by decide) (stringifyItems_wellFormed (y :: ys)))

theorem stringifyMembers_wellFormed : forall (ms : List (JsString × Json)),
    isWellFormed (stringifyMembers ms) = true
  | [] => rfl
  | [(k, v)] => by
      rw [stringifyMembers]
      exact isWellFormed_append (isWellFormed_quote k)
        (isWellFormed_cons (by decide) (stringify_wellFormed v))
  | (k, v) :: m :: ms => by
      rw [stringifyMembers]
      exact isWellFormed_append
        (isWellFormed_append (isWellFormed_quote k)
          (isWellFormed_cons (by decide) (stringify_wellFormed v)))
        (isWellFormed_cons (by decide) (stringifyMembers_wellFormed (m :: ms)))

end

/-!
## Sizes
-/

mutual

/-- The values in the tree, itself included. -/
def nodes : Json -> Nat
  | arr xs => nodesItems xs + 1
  | obj ms => nodesMembers ms + 1
  | _ => 1

def nodesItems : List Json -> Nat
  | [] => 0
  | x :: xs => nodes x + nodesItems xs

def nodesMembers : List (JsString × Json) -> Nat
  | [] => 0
  | (_, v) :: ms => nodes v + nodesMembers ms

end

mutual

/-- The levels of arrays and objects that have something in them. -/
def height : Json -> Nat
  | arr xs => heightItems xs
  | obj ms => heightMembers ms
  | _ => 0

/-- One more than the highest, or 0 where there is none. -/
def heightItems : List Json -> Nat
  | [] => 0
  | x :: xs => max (height x + 1) (heightItems xs)

def heightMembers : List (JsString × Json) -> Nat
  | [] => 0
  | (_, v) :: ms => max (height v + 1) (heightMembers ms)

end

/-- The length of the text in bytes. -/
def size (v : Json) : Nat :=
  utf8ByteLength (stringify v)

def sizeItems : List Json -> Nat
  | [] => 0
  | x :: xs => size x + sizeItems xs

/-- The members without their commas, each key with its colon. -/
def sizeMembers : List (JsString × Json) -> Nat
  | [] => 0
  | (k, v) :: ms => utf8ByteLength (quote k) + 1 + size v + sizeMembers ms

theorem utf8ByteLength_comma (s : JsString) :
    utf8ByteLength (44 :: s) = 1 + utf8ByteLength s :=
  utf8ByteLength_cons (by decide) s

theorem utf8ByteLength_items : forall (xs : List Json),
    utf8ByteLength (stringifyItems xs) = sizeItems xs + (xs.length - 1)
  | [] => rfl
  | [x] => by
      rw [stringifyItems]
      rfl
  | x :: y :: ys => by
      rw [stringifyItems, utf8ByteLength_append (stringify_wellFormed x),
        utf8ByteLength_comma, utf8ByteLength_items (y :: ys)]
      show size x + (1 + (sizeItems (y :: ys) + ys.length)) =
        size x + sizeItems (y :: ys) + (ys.length + 1)
      omega

theorem utf8ByteLength_member (k : JsString) (v : Json) :
    utf8ByteLength (quote k ++ 58 :: stringify v) =
      utf8ByteLength (quote k) + 1 + size v := by
  rw [utf8ByteLength_append (isWellFormed_quote k),
    utf8ByteLength_cons (by decide)]
  show _ + (1 + size v) = _
  omega

theorem utf8ByteLength_members : forall (ms : List (JsString × Json)),
    utf8ByteLength (stringifyMembers ms) = sizeMembers ms + (ms.length - 1)
  | [] => rfl
  | [(k, v)] => by
      rw [stringifyMembers, utf8ByteLength_member]
      rfl
  | (k, v) :: m :: ms => by
      have hwell : isWellFormed (quote k ++ 58 :: stringify v) = true :=
        isWellFormed_append (isWellFormed_quote k)
          (isWellFormed_cons (by decide) (stringify_wellFormed v))
      rw [stringifyMembers, utf8ByteLength_append hwell, utf8ByteLength_comma,
        utf8ByteLength_members (m :: ms), utf8ByteLength_member]
      show utf8ByteLength (quote k) + 1 + size v +
          (1 + (sizeMembers (m :: ms) + ms.length)) =
        utf8ByteLength (quote k) + 1 + size v + sizeMembers (m :: ms) +
          (ms.length + 1)
      omega

theorem size_arr (xs : List Json) :
    size (arr xs) = 2 + (xs.length - 1) + sizeItems xs := by
  rw [size, stringify, utf8ByteLength_append (isWellFormed_cons (by decide)
    (stringifyItems_wellFormed xs)), utf8ByteLength_cons (by decide),
    utf8ByteLength_items]
  show 1 + _ + 1 = _
  omega

theorem size_obj (ms : List (JsString × Json)) :
    size (obj ms) = 2 + (ms.length - 1) + sizeMembers ms := by
  rw [size, stringify, utf8ByteLength_append (isWellFormed_cons (by decide)
    (stringifyMembers_wellFormed ms)), utf8ByteLength_cons (by decide),
    utf8ByteLength_members]
  show 1 + _ + 1 = _
  omega

theorem size_num {n : JsNumber} (h : forall b, n ≠ JsNumber.infinity b) :
    size (num n) = n.text.length := by
  have htext : stringify (num n) = n.text := by
    cases n with
    | infinity b => exact absurd rfl (h b)
    | negZero => rfl
    | finite q => rfl
  rw [size, htext, utf8ByteLength_ascii n.text_ascii]

end Json
end Foundation
end FlanTerminal

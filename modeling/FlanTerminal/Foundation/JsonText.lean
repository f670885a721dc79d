import Mathlib.Tactic.IntervalCases
import FlanTerminal.Foundation.Decimal
import FlanTerminal.Foundation.Utf8

/-!
# JSON text is read back

What `JSON.stringify` writes, `JSON.parse` reads as the same value: strings
with any code units, numbers whose text is read back, arrays, and objects
without repeated keys.
-/

namespace FlanTerminal
namespace Foundation
namespace Json

/-!
## Numbers
-/

/-- The automaton reads the text of the number as the number. -/
structure ReadsBack (n : JsNumber) : Prop where
  written : stringify (num n) = n.text
  head : exists u rest, n.text = u :: rest ∧ isSpace u = false ∧ u ≠ 93
  ascii : forall u, u ∈ n.text -> u.toNat < 0x80
  read : exists ph acc, NumPhase.accepts ph = true ∧ acc.toNumber = n ∧
    forall stack, run ⟨Mode.value, stack, none⟩ n.text =
      some ⟨Mode.num ph acc, stack, none⟩

theorem step_digit {m : Nat} (hm : m < 10) (stack : List Open) :
    step ⟨Mode.value, stack, none⟩ (UInt16.ofNat (48 + m)) =
      some ⟨Mode.num (if m = 0 then NumPhase.zero else NumPhase.int)
        ⟨false, m, 0, false, 0⟩, stack, none⟩ := by
  interval_cases m
  all_goals rfl

theorem step_int {m d : Nat} (hd : d < 10) (stack : List Open) :
    step ⟨Mode.num NumPhase.int ⟨false, m, 0, false, 0⟩, stack, none⟩
        (UInt16.ofNat (48 + d)) =
      some ⟨Mode.num NumPhase.int ⟨false, 10 * m + d, 0, false, 0⟩, stack,
        none⟩ := by
  interval_cases d
  all_goals rfl

theorem run_decimalDigits (n : Nat) (stack : List Open) :
    run ⟨Mode.value, stack, none⟩ (decimalDigits n) =
      some ⟨Mode.num (if n = 0 then NumPhase.zero else NumPhase.int)
        ⟨false, n, 0, false, 0⟩, stack, none⟩ := by
  induction n using Nat.strongRecOn with
  | ind n ih =>
      by_cases h : n < 10
      · rw [decimalDigits_small h, run_cons, step_digit h]
        rfl
      · have hlast : n % 10 < 10 := Nat.mod_lt _ (by decide)
        rw [decimalDigits_step (by omega), run_append, ih (n / 10) (by omega),
          Option.bind_some, if_neg (by omega), run_cons, step_int hlast,
          if_neg (by omega), Nat.div_add_mod]
        rfl

theorem toNumber_nat {n : Nat} (hn : n < 2 ^ 53) :
    (NumAcc.mk false n 0 false 0).toNumber = JsNumber.finite n := by
  unfold NumAcc.toNumber
  simp [roundToDouble_nat hn]

theorem readsBack_nat {n : Nat} (hn : n < 2 ^ 53) :
    ReadsBack (JsNumber.finite n) := by
  have htext := text_nat hn
  constructor
  · rfl
  · rw [htext]
    cases hdigits : decimalDigits n with
    | nil =>
        have hlength := (length_decimalDigits_le (n := n) (k := 1)
          (by decide)).mp (by rw [hdigits]; decide)
        rw [decimalDigits_small (by omega)] at hdigits
        cases hdigits
    | cons u rest =>
        have hu := decimalDigits_ascii n u (by rw [hdigits]; simp)
        refine ⟨u, rest, rfl, ?_, ?_⟩
        · have hne : forall c : UInt16, c.toNat < 48 -> (u == c) = false := by
            intro c hc
            rw [beq_eq_false_iff_ne]
            intro heq
            rw [heq] at hu
            omega
          unfold isSpace
          rw [hne 9 (by decide), hne 10 (by decide), hne 13 (by decide),
            hne 32 (by decide)]
          rfl
        · intro heq
          rw [heq] at hu
          exact absurd hu.2 (by decide)
  · rw [htext]
    intro u hu
    have := decimalDigits_ascii n u hu
    omega
  · refine ⟨if n = 0 then NumPhase.zero else NumPhase.int, _, ?_,
      toNumber_nat hn, fun stack => ?_⟩
    · split
      · rfl
      · rfl
    · rw [htext]
      exact run_decimalDigits n stack

/-!
## Values

After a value comes a comma, a closing bracket or a line feed.
-/

def Ends (u : UInt16) : Prop :=
  u = 44 ∨ u = 93 ∨ u = 125 ∨ u = 10

theorem numStep_ends {ph : NumPhase} {acc : NumAcc} {u : UInt16}
    (hph : ph.accepts = true) (hu : Ends u) : numStep ph acc u = none := by
  rcases hu with hu | hu | hu | hu
  all_goals
    subst hu
    cases ph with
    | minus => cases hph
    | dot => cases hph
    | e => cases hph
    | sign => cases hph
    | zero => rfl
    | int => rfl
    | frac => rfl
    | exp => rfl

mutual

def Readable : Json -> Prop
  | null => True
  | bool _ => True
  | num n => ReadsBack n
  | str _ => True
  | arr xs => ReadableItems xs
  | obj ms => (ms.map Prod.fst).Nodup ∧ ReadableMembers ms

def ReadableItems : List Json -> Prop
  | [] => True
  | x :: xs => Readable x ∧ ReadableItems xs

def ReadableMembers : List (JsString × Json) -> Prop
  | [] => True
  | (_, v) :: ms => Readable v ∧ ReadableMembers ms

end

theorem setMember_new {ms : List (JsString × Json)} {k : JsString} {v : Json}
    (h : k ∉ ms.map Prod.fst) : setMember ms k v = ms ++ [(k, v)] := by
  induction ms with
  | nil => rfl
  | cons m ms ih =>
      obtain ⟨k', v'⟩ := m
      rw [List.map_cons, List.mem_cons, not_or] at h
      have hne : ¬ k' = k := fun heq => h.1 heq.symm
      rw [setMember, if_neg hne, ih h.2]
      rfl

/-- The first code unit of a value is taken alike where an array may end. -/
theorem stringify_head {v : Json} (h : Readable v) :
    exists u rest, stringify v = u :: rest ∧ isSpace u = false ∧ u ≠ 93 := by
  cases v with
  | null => exact ⟨_, _, rfl, by decide, by decide⟩
  | bool b =>
      cases b with
      | true => exact ⟨_, _, rfl, by decide, by decide⟩
      | false => exact ⟨_, _, rfl, by decide, by decide⟩
  | num n =>
      have hn : ReadsBack n := by
        unfold Readable at h
        exact h
      rw [hn.written]
      exact hn.head
  | str s =>
      refine ⟨34, escape s ++ [34], ?_, by decide, by decide⟩
      rw [stringify]
      rfl
  | arr xs =>
      refine ⟨91, stringifyItems xs ++ [93], ?_, by decide, by decide⟩
      rw [stringify]
      rfl
  | obj ms =>
      refine ⟨123, stringifyMembers ms ++ [125], ?_, by decide, by decide⟩
      rw [stringify]
      rfl

/-- The rest is read where the value has been delivered. -/
def goOn (v : Json) (stack : List Open) (u : UInt16) (rest : JsString) :
    Option Parse :=
  (afterValue u (deliver v stack).stack (deliver v stack).result).bind
    fun p => run p rest

theorem goOn_eq {v : Json} {stack : List Open} {u : UInt16} {rest : JsString} :
    run (deliver v stack) (u :: rest) = goOn v stack u rest := by
  have hmode : (deliver v stack).mode = Mode.after := by
    cases stack with
    | nil => rfl
    | cons o stack =>
        cases o with
        | arr xs => rfl
        | obj ms k => rfl
  rw [run_cons]
  unfold step goOn
  rw [hmode]

/-- An array or an object that is not empty begins like a value or a key. -/
theorem step_valueOrEnd {u : UInt16} (hspace : isSpace u = false)
    (hend : u ≠ 93) (stack : List Open) :
    step ⟨Mode.valueOrEnd, stack, none⟩ u =
      step ⟨Mode.value, stack, none⟩ u := by
  unfold step
  dsimp only
  rw [hspace, if_neg hend]
  rfl

theorem run_key (done : List (JsString × Json)) (k0 k : JsString)
    (stack : List Open) (rest : JsString) :
    run ⟨Mode.key, Open.obj done k0 :: stack, none⟩ (quote k ++ 58 :: rest) =
      run ⟨Mode.value, Open.obj done k :: stack, none⟩ rest := by
  have hopen : step ⟨Mode.key, Open.obj done k0 :: stack, none⟩ 34 =
      some ⟨Mode.str true [], Open.obj done k0 :: stack, none⟩ := rfl
  have hcolon : step ⟨Mode.colon, Open.obj done k :: stack, none⟩ 58 =
      some ⟨Mode.value, Open.obj done k :: stack, none⟩ := rfl
  show run _ (34 :: (escape k ++ [34]) ++ 58 :: rest) = _
  rw [List.cons_append, run_cons, hopen, Option.bind_some, run_append,
    run_quote]
  show run ⟨Mode.colon, Open.obj done k :: stack, none⟩ (58 :: rest) = _
  rw [run_cons, hcolon]
  rfl

mutual

theorem run_stringify : forall (v : Json), Readable v ->
    forall (stack : List Open) (u : UInt16) (rest : JsString), Ends u ->
      run ⟨Mode.value, stack, none⟩ (stringify v ++ u :: rest) =
        goOn v stack u rest
  | null, _, stack, u, rest, _ => by
      rw [stringify, run_append]
      exact goOn_eq
  | bool true, _, stack, u, rest, _ => by
      rw [stringify, run_append]
      exact goOn_eq
  | bool false, _, stack, u, rest, _ => by
      rw [stringify, run_append]
      exact goOn_eq
  | num n, h, stack, u, rest, hu => by
      rw [Readable] at h
      obtain ⟨ph, acc, hph, hn, hread⟩ := h.read
      rw [h.written, run_append, hread, Option.bind_some, run_cons]
      unfold step goOn
      dsimp only
      rw [numStep_ends hph hu, hph, hn]
      rfl
  | str s, _, stack, u, rest, _ => by
      have hopen : step ⟨Mode.value, stack, none⟩ 34 =
          some ⟨Mode.str false [], stack, none⟩ := rfl
      rw [stringify]
      show run _ (34 :: (escape s ++ [34]) ++ u :: rest) = _
      rw [List.cons_append, run_cons, hopen, Option.bind_some, run_append,
        run_quote]
      exact goOn_eq
  | arr [], _, stack, u, rest, _ => by
      rw [stringify, stringifyItems]
      exact goOn_eq
  | arr (x :: xs), h, stack, u, rest, _ => by
      rw [Readable] at h
      have hitems := run_items (x :: xs) h (by simp) [] stack (u :: rest)
      have hopen : step ⟨Mode.value, stack, none⟩ 91 =
          some ⟨Mode.valueOrEnd, Open.arr [] :: stack, none⟩ := rfl
      have hhead : exists v more, stringifyItems (x :: xs) = v :: more ∧
          isSpace v = false ∧ v ≠ 93 := by
        rw [ReadableItems] at h
        obtain ⟨v, more, htext, hspace, hend⟩ := stringify_head h.1
        cases xs with
        | nil => exact ⟨v, more, by rw [stringifyItems, htext], hspace, hend⟩
        | cons y ys =>
            exact ⟨v, _, by rw [stringifyItems, htext]; rfl, hspace, hend⟩
      obtain ⟨v, more, htext, hspace, hend⟩ := hhead
      rw [stringify]
      rw [htext] at hitems ⊢
      simp only [List.cons_append, List.append_assoc, List.nil_append] at hitems ⊢
      rw [run_cons] at hitems
      rw [run_cons, hopen, Option.bind_some, run_cons,
        step_valueOrEnd hspace hend, hitems]
      exact goOn_eq
  | obj [], _, stack, u, rest, _ => by
      rw [stringify, stringifyMembers]
      exact goOn_eq
  | obj ((k, v) :: ms), h, stack, u, rest, _ => by
      rw [Readable] at h
      have hmembers := run_members ((k, v) :: ms) h.2 (by simp) [] [] stack
        (by simpa using h.1) (u :: rest)
      have hopen : step ⟨Mode.value, stack, none⟩ 123 =
          some ⟨Mode.keyOrEnd, Open.obj [] [] :: stack, none⟩ := rfl
      have hhead : exists more, stringifyMembers ((k, v) :: ms) = 34 :: more := by
        cases ms with
        | nil => exact ⟨_, by rw [stringifyMembers]; rfl⟩
        | cons m ms => exact ⟨_, by rw [stringifyMembers]; rfl⟩
      obtain ⟨more, htext⟩ := hhead
      rw [stringify]
      rw [htext] at hmembers ⊢
      simp only [List.cons_append, List.append_assoc, List.nil_append]
        at hmembers ⊢
      rw [run_cons] at hmembers
      rw [run_cons, hopen, Option.bind_some, run_cons]
      exact hmembers.trans goOn_eq

theorem run_items : forall (xs : List Json), ReadableItems xs -> xs ≠ [] ->
    forall (done : List Json) (stack : List Open) (rest : JsString),
      run ⟨Mode.value, Open.arr done :: stack, none⟩
          (stringifyItems xs ++ 93 :: rest) =
        run (deliver (arr (done ++ xs)) stack) rest
  | [], _, hne, _, _, _ => absurd rfl hne
  | [x], h, _, done, stack, rest => by
      rw [ReadableItems] at h
      have hx := run_stringify x h.1 (Open.arr done :: stack) 93 rest
        (Or.inr (Or.inl rfl))
      rw [stringifyItems, hx]
      rfl
  | x :: y :: ys, h, _, done, stack, rest => by
      rw [ReadableItems] at h
      have hx := run_stringify x h.1 (Open.arr done :: stack) 44
        (stringifyItems (y :: ys) ++ 93 :: rest) (Or.inl rfl)
      have hrest := run_items (y :: ys) h.2 (by simp) (done ++ [x]) stack rest
      rw [stringifyItems, List.append_assoc, List.cons_append, hx]
      rw [List.append_assoc] at hrest
      exact hrest

theorem run_members : forall (ms : List (JsString × Json)),
    ReadableMembers ms -> ms ≠ [] ->
    forall (done : List (JsString × Json)) (k0 : JsString) (stack : List Open),
      ((done ++ ms).map Prod.fst).Nodup -> forall rest : JsString,
      run ⟨Mode.key, Open.obj done k0 :: stack, none⟩
          (stringifyMembers ms ++ 125 :: rest) =
        run (deliver (obj (done ++ ms)) stack) rest
  | [], _, hne, _, _, _, _, _ => absurd rfl hne
  | [(k, v)], h, _, done, k0, stack, hkeys, rest => by
      rw [ReadableMembers] at h
      have hv := run_stringify v h.1 (Open.obj done k :: stack) 125 rest
        (Or.inr (Or.inr (Or.inl rfl)))
      have hnew : k ∉ done.map Prod.fst := by
        rw [List.map_append, List.nodup_append] at hkeys
        exact fun hk => hkeys.2.2 k hk k (by simp) rfl
      rw [stringifyMembers, List.append_assoc, List.cons_append, run_key, hv,
        ← setMember_new hnew]
      rfl
  | (k, v) :: m :: ms, h, _, done, k0, stack, hkeys, rest => by
      rw [ReadableMembers] at h
      have hv := run_stringify v h.1 (Open.obj done k :: stack) 44
        (stringifyMembers (m :: ms) ++ 125 :: rest) (Or.inl rfl)
      have hnew : k ∉ done.map Prod.fst := by
        rw [List.map_append, List.nodup_append] at hkeys
        exact fun hk => hkeys.2.2 k hk k (by simp) rfl
      have hsplit : done ++ (k, v) :: m :: ms = done ++ [(k, v)] ++ m :: ms := by
        simp
      rw [hsplit] at hkeys ⊢
      have hrest := run_members (m :: ms) h.2 (by simp) (done ++ [(k, v)]) k
        stack hkeys rest
      rw [stringifyMembers, List.append_assoc, List.cons_append,
        List.append_assoc, List.cons_append, run_key, hv, ← hrest,
        ← setMember_new hnew]
      rfl

end

theorem parse_stringify {v : Json} (h : Readable v) :
    parse (stringify v ++ [10]) = some v := by
  unfold parse
  rw [run_stringify v h [] 10 [] (Or.inr (Or.inr (Or.inr rfl)))]
  rfl

/-!
## The text is well formed

A lone surrogate is written as an escape, so the text can be encoded and decoded
without loss.
-/

theorem isWellFormed_append {s t : JsString} (hs : isWellFormed s = true)
    (ht : isWellFormed t = true) : isWellFormed (s ++ t) = true := by
  induction s using isWellFormed.induct with
  | case1 => exact ht
  | case2 u =>
      have hu : isSurrogate u = false := by simpa [isWellFormed] using hs
      have hhigh : isHighSurrogate u = false := by
        simp only [isSurrogate, isHighSurrogate, Bool.and_eq_false_iff,
          decide_eq_false_iff_not] at hu ⊢
        omega
      cases t with
      | nil => exact hs
      | cons v t =>
          show isWellFormed (u :: v :: t) = true
          rw [isWellFormed, hhigh, Bool.false_and, if_neg Bool.false_ne_true, hu,
            ht]
          rfl
  | case3 u v rest hpair ih =>
      rw [isWellFormed, if_pos hpair] at hs
      show isWellFormed (u :: v :: (rest ++ t)) = true
      rw [isWellFormed, if_pos hpair, ih hs]
  | case4 u v rest hpair ih =>
      rw [isWellFormed, if_neg hpair, Bool.and_eq_true] at hs
      show isWellFormed (u :: v :: (rest ++ t)) = true
      rw [isWellFormed, if_neg hpair, hs.1, Bool.true_and]
      exact ih hs.2

theorem isWellFormed_ascii {s : JsString}
    (h : forall u, u ∈ s -> u.toNat < 0x80) : isWellFormed s = true := by
  induction s with
  | nil => rfl
  | cons u s ih =>
      have hu := h u List.mem_cons_self
      have hone : isWellFormed [u] = true := by
        simp [isWellFormed, isSurrogate]
        omega
      exact isWellFormed_append hone
        (ih fun v hv => h v (List.mem_cons_of_mem u hv))

theorem isWellFormed_escapeUnit (u : UInt16) :
    isWellFormed (escapeUnit u) = true := by
  unfold escapeUnit
  split
  · rfl
  split
  · rfl
  split
  · rfl
  split
  · rfl
  split
  · rfl
  split
  · rfl
  split
  · rfl
  split
  · exact isWellFormed_ascii (unicodeEscape_ascii u)
  · rename_i hplain
    simp only [Bool.or_eq_true, not_or, Bool.not_eq_true] at hplain
    simp [isWellFormed, hplain.2]

theorem isWellFormed_escape (s : JsString) : isWellFormed (escape s) = true := by
  induction s using escape.induct with
  | case1 => rfl
  | case2 u => exact isWellFormed_escapeUnit u
  | case3 u v rest hpair ih =>
      rw [escape, if_pos hpair, isWellFormed, if_pos hpair, ih]
  | case4 u v rest hpair ih =>
      rw [escape, if_neg hpair]
      exact isWellFormed_append (isWellFormed_escapeUnit u) ih

theorem isWellFormed_quote (s : JsString) : isWellFormed (quote s) = true :=
  isWellFormed_append
    (isWellFormed_append (s := [34]) rfl (isWellFormed_escape s)) rfl

theorem isWellFormed_cons {u : UInt16} {s : JsString} (hu : u.toNat < 0x80)
    (hs : isWellFormed s = true) : isWellFormed (u :: s) = true := by
  apply isWellFormed_append (s := [u]) _ hs
  apply isWellFormed_ascii
  intro v hv
  rw [List.mem_singleton.mp hv]
  exact hu

mutual

theorem isWellFormed_stringify : forall (v : Json), Readable v ->
    isWellFormed (stringify v) = true
  | null, _ => rfl
  | bool true, _ => rfl
  | bool false, _ => rfl
  | num n, h => by
      rw [Readable] at h
      rw [h.written]
      exact isWellFormed_ascii h.ascii
  | str s, _ => by
      rw [stringify]
      exact isWellFormed_quote s
  | arr xs, h => by
      rw [Readable] at h
      rw [stringify]
      exact isWellFormed_append
        (isWellFormed_cons (by decide) (isWellFormed_items xs h)) rfl
  | obj ms, h => by
      rw [Readable] at h
      rw [stringify]
      exact isWellFormed_append
        (isWellFormed_cons (by decide) (isWellFormed_members ms h.2)) rfl

theorem isWellFormed_items : forall (xs : List Json), ReadableItems xs ->
    isWellFormed (stringifyItems xs) = true
  | [], _ => rfl
  | [x], h => by
      rw [ReadableItems] at h
      rw [stringifyItems]
      exact isWellFormed_stringify x h.1
  | x :: y :: ys, h => by
      rw [ReadableItems] at h
      rw [stringifyItems]
      exact isWellFormed_append (isWellFormed_stringify x h.1)
        (isWellFormed_cons (by decide) (isWellFormed_items (y :: ys) h.2))

theorem isWellFormed_members : forall (ms : List (JsString × Json)),
    ReadableMembers ms -> isWellFormed (stringifyMembers ms) = true
  | [], _ => rfl
  | [(k, v)], h => by
      rw [ReadableMembers] at h
      rw [stringifyMembers]
      exact isWellFormed_append (isWellFormed_quote k)
        (isWellFormed_cons (by decide) (isWellFormed_stringify v h.1))
  | (k, v) :: m :: ms, h => by
      rw [ReadableMembers] at h
      rw [stringifyMembers]
      exact isWellFormed_append
        (isWellFormed_append (isWellFormed_quote k)
          (isWellFormed_cons (by decide) (isWellFormed_stringify v h.1)))
        (isWellFormed_cons (by decide) (isWellFormed_members (m :: ms) h.2))

end

end Json
end Foundation
end FlanTerminal

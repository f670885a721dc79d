import FlanTerminal.Foundation.JsString

/-!
# JSON text

`JSON.stringify` and `JSON.parse` of ECMAScript on code units.  Strings are
written in the well-formed way, lone surrogates as escapes.  The parser is a
pushdown automaton that reads one code unit at a time, so it needs no fuel and
no termination argument.
-/

namespace FlanTerminal
namespace Foundation

inductive Json where
  | null
  | bool (b : Bool)
  | num (n : JsNumber)
  | str (s : JsString)
  | arr (xs : List Json)
  | obj (members : List (JsString × Json))

namespace Json

/-!
## Quoting
-/

def hexDigit (n : Nat) : UInt16 :=
  if n < 10 then UInt16.ofNat (48 + n) else UInt16.ofNat (87 + n)

def unicodeEscape (u : UInt16) : JsString :=
  [92, 117, hexDigit (u.toNat / 4096), hexDigit (u.toNat / 256 % 16),
    hexDigit (u.toNat / 16 % 16), hexDigit (u.toNat % 16)]

/-- One code unit that is not part of a surrogate pair, as it stands inside a
quoted string. -/
def escapeUnit (u : UInt16) : JsString :=
  if u = 8 then [92, 98]
  else if u = 9 then [92, 116]
  else if u = 10 then [92, 110]
  else if u = 12 then [92, 102]
  else if u = 13 then [92, 114]
  else if u = 34 then [92, 34]
  else if u = 92 then [92, 92]
  else if u.toNat < 32 || isSurrogate u then unicodeEscape u
  else [u]

def escape : JsString -> JsString
  | [] => []
  | [u] => escapeUnit u
  | u :: v :: rest =>
      if isHighSurrogate u && isLowSurrogate v then u :: v :: escape rest
      else escapeUnit u ++ escape (v :: rest)

def quote (s : JsString) : JsString :=
  34 :: escape s ++ [34]

/-!
## Writing
-/

mutual

/-- `JSON.stringify` without indentation. -/
def stringify : Json -> JsString
  | null => js "null"
  | bool true => js "true"
  | bool false => js "false"
  | num (JsNumber.infinity _) => js "null"
  | num n => n.text
  | str s => quote s
  | arr xs => 91 :: stringifyItems xs ++ [93]
  | obj ms => 123 :: stringifyMembers ms ++ [125]

def stringifyItems : List Json -> JsString
  | [] => []
  | [x] => stringify x
  | x :: y :: rest => stringify x ++ 44 :: stringifyItems (y :: rest)

def stringifyMembers : List (JsString × Json) -> JsString
  | [] => []
  | [(k, v)] => quote k ++ 58 :: stringify v
  | (k, v) :: m :: rest =>
      quote k ++ 58 :: stringify v ++ 44 :: stringifyMembers (m :: rest)

end

/-!
## Parsing

The state of the automaton is what may come next and the arrays and objects
still open.  A number ends only at the code unit after it, which is then read
in the state after a value.
-/

inductive NumPhase where
  | minus
  | zero
  | int
  | dot
  | frac
  | e
  | sign
  | exp
  deriving DecidableEq, Repr

/-- The decimal literal read so far: `mantissa * 10 ^ (± exponent - scale)`. -/
structure NumAcc where
  negative : Bool
  mantissa : Nat
  scale : Nat
  expNegative : Bool
  exponent : Nat
  deriving DecidableEq, Repr

inductive Mode where
  | value
  | valueOrEnd
  | keyOrEnd
  | key
  | colon
  | after
  | str (isKey : Bool) (acc : JsString)
  | esc (isKey : Bool) (acc : JsString)
  | hex (isKey : Bool) (acc : JsString) (left : Nat) (v : Nat)
  | lit (rest : JsString) (v : Json)
  | num (ph : NumPhase) (acc : NumAcc)

/-- An array or object that is still open, with the key its next member is for. -/
inductive Open where
  | arr (xs : List Json)
  | obj (members : List (JsString × Json)) (key : JsString)

structure Parse where
  mode : Mode
  stack : List Open
  result : Option Json

/-- A later member with the same key replaces the earlier value in place. -/
def setMember : List (JsString × Json) -> JsString -> Json ->
    List (JsString × Json)
  | [], k, v => [(k, v)]
  | (k', v') :: rest, k, v =>
      if k' = k then (k, v) :: rest else (k', v') :: setMember rest k v

def deliver (v : Json) : List Open -> Parse
  | [] => ⟨Mode.after, [], some v⟩
  | Open.arr xs :: rest => ⟨Mode.after, Open.arr (xs ++ [v]) :: rest, none⟩
  | Open.obj ms k :: rest =>
      ⟨Mode.after, Open.obj (setMember ms k v) k :: rest, none⟩

def endString (isKey : Bool) (s : JsString) (stack : List Open) :
    Option Parse :=
  match isKey, stack with
  | false, _ => some (deliver (Json.str s) stack)
  | true, Open.obj ms _ :: rest => some ⟨Mode.colon, Open.obj ms s :: rest, none⟩
  | true, _ => none

def NumPhase.accepts : NumPhase -> Bool
  | zero => true
  | int => true
  | frac => true
  | exp => true
  | _ => false

def NumAcc.toNumber (n : NumAcc) : JsNumber :=
  let e : Int := (if n.expNegative then -(n.exponent : Int) else n.exponent) -
    n.scale
  let q : ℚ := (n.mantissa : ℚ) * (10 : ℚ) ^ e
  match roundToDouble q with
  | JsNumber.finite r =>
      if n.negative then
        if r = 0 then JsNumber.negZero else JsNumber.finite (-r)
      else JsNumber.finite r
  | JsNumber.negZero => JsNumber.negZero
  | JsNumber.infinity _ => JsNumber.infinity n.negative

def isSpace (u : UInt16) : Bool :=
  u == 9 || u == 10 || u == 13 || u == 32

def isDigit (u : UInt16) : Bool :=
  48 ≤ u.toNat && u.toNat ≤ 57

def hexValue (u : UInt16) : Option Nat :=
  if 48 ≤ u.toNat && u.toNat ≤ 57 then some (u.toNat - 48)
  else if 65 ≤ u.toNat && u.toNat ≤ 70 then some (u.toNat - 55)
  else if 97 ≤ u.toNat && u.toNat ≤ 102 then some (u.toNat - 87)
  else none

/-- The unit a single-letter escape stands for. -/
def unescape (u : UInt16) : Option UInt16 :=
  if u = 34 then some 34
  else if u = 92 then some 92
  else if u = 47 then some 47
  else if u = 98 then some 8
  else if u = 102 then some 12
  else if u = 110 then some 10
  else if u = 114 then some 13
  else if u = 116 then some 9
  else none

def startValue (u : UInt16) (stack : List Open) : Option Parse :=
  if u = 34 then some ⟨Mode.str false [], stack, none⟩
  else if u = 123 then some ⟨Mode.keyOrEnd, Open.obj [] [] :: stack, none⟩
  else if u = 91 then some ⟨Mode.valueOrEnd, Open.arr [] :: stack, none⟩
  else if u = 110 then
    some ⟨Mode.lit [117, 108, 108] Json.null, stack, none⟩
  else if u = 116 then
    some ⟨Mode.lit [114, 117, 101] (Json.bool true), stack, none⟩
  else if u = 102 then
    some ⟨Mode.lit [97, 108, 115, 101] (Json.bool false), stack, none⟩
  else if u = 45 then
    some ⟨Mode.num NumPhase.minus ⟨true, 0, 0, false, 0⟩, stack, none⟩
  else if u = 48 then
    some ⟨Mode.num NumPhase.zero ⟨false, 0, 0, false, 0⟩, stack, none⟩
  else if isDigit u then
    some ⟨Mode.num NumPhase.int ⟨false, u.toNat - 48, 0, false, 0⟩, stack,
      none⟩
  else none

/-- The state after a value, with the arrays and objects it closes. -/
def afterValue (u : UInt16) (stack : List Open) (result : Option Json) :
    Option Parse :=
  if isSpace u then some ⟨Mode.after, stack, result⟩
  else
    match stack with
    | [] => none
    | Open.arr xs :: rest =>
        if u = 44 then some ⟨Mode.value, Open.arr xs :: rest, none⟩
        else if u = 93 then some (deliver (Json.arr xs) rest)
        else none
    | Open.obj ms k :: rest =>
        if u = 44 then some ⟨Mode.key, Open.obj ms k :: rest, none⟩
        else if u = 125 then some (deliver (Json.obj ms) rest)
        else none

/-- The next state inside a number, if the number goes on. -/
def numStep (ph : NumPhase) (n : NumAcc) (u : UInt16) :
    Option (NumPhase × NumAcc) :=
  let digit := u.toNat - 48
  let isE := u = 69 ∨ u = 101
  match ph with
  | NumPhase.minus =>
      if u = 48 then some (NumPhase.zero, n)
      else if isDigit u then some (NumPhase.int, { n with mantissa := digit })
      else none
  | NumPhase.zero =>
      if u = 46 then some (NumPhase.dot, n)
      else if isE then some (NumPhase.e, n)
      else none
  | NumPhase.int =>
      if isDigit u then
        some (NumPhase.int, { n with mantissa := 10 * n.mantissa + digit })
      else if u = 46 then some (NumPhase.dot, n)
      else if isE then some (NumPhase.e, n)
      else none
  | NumPhase.dot =>
      if isDigit u then
        some (NumPhase.frac,
          { n with mantissa := 10 * n.mantissa + digit, scale := n.scale + 1 })
      else none
  | NumPhase.frac =>
      if isDigit u then
        some (NumPhase.frac,
          { n with mantissa := 10 * n.mantissa + digit, scale := n.scale + 1 })
      else if isE then some (NumPhase.e, n)
      else none
  | NumPhase.e =>
      if u = 43 then some (NumPhase.sign, n)
      else if u = 45 then some (NumPhase.sign, { n with expNegative := true })
      else if isDigit u then some (NumPhase.exp, { n with exponent := digit })
      else none
  | NumPhase.sign =>
      if isDigit u then some (NumPhase.exp, { n with exponent := digit })
      else none
  | NumPhase.exp =>
      if isDigit u then
        some (NumPhase.exp, { n with exponent := 10 * n.exponent + digit })
      else none

def step (p : Parse) (u : UInt16) : Option Parse :=
  match p.mode with
  | Mode.value =>
      if isSpace u then some p else startValue u p.stack
  | Mode.valueOrEnd =>
      if isSpace u then some p
      else if u = 93 then
        match p.stack with
        | Open.arr xs :: rest => some (deliver (Json.arr xs) rest)
        | _ => none
      else startValue u p.stack
  | Mode.keyOrEnd =>
      if isSpace u then some p
      else if u = 125 then
        match p.stack with
        | Open.obj ms _ :: rest => some (deliver (Json.obj ms) rest)
        | _ => none
      else if u = 34 then some { p with mode := Mode.str true [] }
      else none
  | Mode.key =>
      if isSpace u then some p
      else if u = 34 then some { p with mode := Mode.str true [] }
      else none
  | Mode.colon =>
      if isSpace u then some p
      else if u = 58 then some { p with mode := Mode.value }
      else none
  | Mode.after => afterValue u p.stack p.result
  | Mode.str isKey acc =>
      if u = 34 then endString isKey acc p.stack
      else if u = 92 then some { p with mode := Mode.esc isKey acc }
      else if u.toNat < 32 then none
      else some { p with mode := Mode.str isKey (acc ++ [u]) }
  | Mode.esc isKey acc =>
      if u = 117 then some { p with mode := Mode.hex isKey acc 4 0 }
      else
        (unescape u).map fun v => { p with mode := Mode.str isKey (acc ++ [v]) }
  | Mode.hex isKey acc left v =>
      (hexValue u).map fun d =>
        if left ≤ 1 then
          { p with mode := Mode.str isKey (acc ++ [UInt16.ofNat (16 * v + d)]) }
        else { p with mode := Mode.hex isKey acc (left - 1) (16 * v + d) }
  | Mode.lit rest v =>
      match rest with
      | [] => none
      | [w] => if u = w then some (deliver v p.stack) else none
      | w :: rest => if u = w then some { p with mode := Mode.lit rest v } else none
  | Mode.num ph n =>
      match numStep ph n u with
      | some (ph', n') => some { p with mode := Mode.num ph' n' }
      | none =>
          if ph.accepts then
            let q := deliver (Json.num n.toNumber) p.stack
            afterValue u q.stack q.result
          else none

def finish (p : Parse) : Option Json :=
  match p.mode, p.stack with
  | Mode.after, [] => p.result
  | Mode.num ph n, [] => if ph.accepts then some (Json.num n.toNumber) else none
  | _, _ => none

def run (p : Parse) (text : JsString) : Option Parse :=
  text.foldlM step p

/-- `JSON.parse`; `none` is the syntax error. -/
def parse (text : JsString) : Option Json :=
  (run ⟨Mode.value, [], none⟩ text).bind finish

/-!
## Reading back a quoted string

The automaton inside a string, fed the escaped form of `s`, has read exactly
`s` when it comes to the closing quote.
-/

@[simp] theorem run_nil (p : Parse) : run p [] = some p := rfl

theorem run_cons (p : Parse) (u : UInt16) (text : JsString) :
    run p (u :: text) = (step p u).bind fun q => run q text := rfl

theorem run_append (p : Parse) (left right : JsString) :
    run p (left ++ right) = (run p left).bind fun q => run q right := by
  unfold run
  rw [List.foldlM_append]
  rfl

theorem hexValue_hexDigit {n : Nat} (hn : n < 16) :
    hexValue (hexDigit n) = some n := by
  have hall : forall m, m < 16 -> hexValue (hexDigit m) = some m := by decide
  exact hall n hn

theorem run_unicodeEscape (isKey : Bool) (acc : JsString) (stack : List Open)
    (u : UInt16) :
    run ⟨Mode.str isKey acc, stack, none⟩ (unicodeEscape u) =
      some ⟨Mode.str isKey (acc ++ [u]), stack, none⟩ := by
  have hu : u.toNat < 65536 := u.toNat_lt
  have h3 : u.toNat / 4096 < 16 := by omega
  have h2 : u.toNat / 256 % 16 < 16 := by omega
  have h1 : u.toNat / 16 % 16 < 16 := by omega
  have h0 : u.toNat % 16 < 16 := by omega
  have hsum : 16 * (16 * (16 * (u.toNat / 4096) + u.toNat / 256 % 16) +
      u.toNat / 16 % 16) + u.toNat % 16 = u.toNat := by omega
  have hback : UInt16.ofNat (16 * (16 * (16 * (16 * 0 + u.toNat / 4096) +
      u.toNat / 256 % 16) + u.toNat / 16 % 16) + u.toNat % 16) = u := by
    rw [Nat.mul_zero, Nat.zero_add, hsum, UInt16.ofNat_toNat]
  have hstr : step ⟨Mode.str isKey acc, stack, none⟩ 92 =
      some ⟨Mode.esc isKey acc, stack, none⟩ := rfl
  have hesc : step ⟨Mode.esc isKey acc, stack, none⟩ 117 =
      some ⟨Mode.hex isKey acc 4 0, stack, none⟩ := rfl
  have hhex : forall v d left, d < 16 ->
      step ⟨Mode.hex isKey acc (left + 2) v, stack, none⟩ (hexDigit d) =
        some ⟨Mode.hex isKey acc (left + 1) (16 * v + d), stack, none⟩ := by
    intro v d left hd
    simp [step, hexValue_hexDigit hd]
  have hlast : forall v d, d < 16 ->
      step ⟨Mode.hex isKey acc 1 v, stack, none⟩ (hexDigit d) =
        some ⟨Mode.str isKey (acc ++ [UInt16.ofNat (16 * v + d)]), stack,
          none⟩ := by
    intro v d hd
    simp only [step, hexValue_hexDigit hd, Option.map_some, le_refl, if_true]
  simp only [unicodeEscape, run_cons, run_nil, hstr, hesc, Option.bind_some,
    hhex _ _ _ h3, hhex _ _ _ h2, hhex _ _ _ h1, hlast _ _ h0, hback]

theorem run_escapeUnit (isKey : Bool) (acc : JsString) (stack : List Open)
    (u : UInt16) :
    run ⟨Mode.str isKey acc, stack, none⟩ (escapeUnit u) =
      some ⟨Mode.str isKey (acc ++ [u]), stack, none⟩ := by
  unfold escapeUnit
  split
  · subst u; rfl
  split
  · subst u; rfl
  split
  · subst u; rfl
  split
  · subst u; rfl
  split
  · subst u; rfl
  split
  · subst u; rfl
  split
  · subst u; rfl
  split
  · exact run_unicodeEscape isKey acc stack u
  · rename_i hquote hback hplain
    have hlow : ¬ u.toNat < 32 := by
      intro h
      exact hplain (by simp [h])
    simp [run_cons, step, hquote, hback, hlow]

theorem step_str_of_ge (isKey : Bool) (acc : JsString) (stack : List Open)
    {u : UInt16} (hu : 128 ≤ u.toNat) :
    step ⟨Mode.str isKey acc, stack, none⟩ u =
      some ⟨Mode.str isKey (acc ++ [u]), stack, none⟩ := by
  have hquote : u ≠ 34 := by
    intro h
    subst h
    simp at hu
  have hback : u ≠ 92 := by
    intro h
    subst h
    simp at hu
  have hlow : ¬ u.toNat < 32 := by omega
  simp [step, hquote, hback, hlow]

theorem run_escape (isKey : Bool) (acc : JsString) (stack : List Open)
    (s : JsString) :
    run ⟨Mode.str isKey acc, stack, none⟩ (escape s) =
      some ⟨Mode.str isKey (acc ++ s), stack, none⟩ := by
  induction s using escape.induct generalizing acc with
  | case1 => simp [escape]
  | case2 u => exact run_escapeUnit isKey acc stack u
  | case3 u v rest hpair ih =>
      have hhigh : 128 ≤ u.toNat := by
        simp [isHighSurrogate] at hpair
        omega
      have hlow : 128 ≤ v.toNat := by
        simp [isLowSurrogate] at hpair
        omega
      simp [escape, hpair, run_cons, step_str_of_ge isKey _ stack hhigh,
        step_str_of_ge isKey _ stack hlow, ih]
  | case4 u v rest hpair ih =>
      rw [escape, if_neg hpair, run_append, run_escapeUnit, Option.bind_some,
        ih]
      simp

/-- A quoted key or value is read back as the string it quotes. -/
theorem run_quote (isKey : Bool) (stack : List Open) (s : JsString) :
    run ⟨Mode.str isKey [], stack, none⟩ (escape s ++ [34]) =
      endString isKey s stack := by
  rw [run_append, run_escape]
  simp [run_cons, step]

/-!
## Bytes of a quoted string

How many bytes a string takes between its quotes, counted on the string itself.
-/

def unitCost (u : UInt16) : Nat :=
  if u = 8 ∨ u = 9 ∨ u = 10 ∨ u = 12 ∨ u = 13 ∨ u = 34 ∨ u = 92 then 2
  else if u.toNat < 32 ∨ isSurrogate u = true then 6
  else unitBytes u

def escapedBytes : JsString -> Nat
  | [] => 0
  | [u] => unitCost u
  | u :: v :: rest =>
      if isHighSurrogate u && isLowSurrogate v then 4 + escapedBytes rest
      else unitCost u + escapedBytes (v :: rest)

theorem hexDigit_ascii {n : Nat} (hn : n < 16) : (hexDigit n).toNat < 0x80 := by
  have hall : forall m, m < 16 -> (hexDigit m).toNat < 0x80 := by decide
  exact hall n hn

theorem unicodeEscape_ascii (u : UInt16) :
    forall v, v ∈ unicodeEscape u -> v.toNat < 0x80 := by
  have hu : u.toNat < 65536 := u.toNat_lt
  intro v hv
  simp only [unicodeEscape, List.mem_cons, List.not_mem_nil, or_false] at hv
  rcases hv with hv | hv | hv | hv | hv | hv <;> subst hv
  · decide
  · decide
  · exact hexDigit_ascii (by omega)
  · exact hexDigit_ascii (by omega)
  · exact hexDigit_ascii (by omega)
  · exact hexDigit_ascii (by omega)

theorem utf8ByteLength_escapeUnit (u : UInt16) (rest : JsString) :
    utf8ByteLength (escapeUnit u ++ rest) =
      unitCost u + utf8ByteLength rest := by
  have htwo : forall v : UInt16, v.toNat < 0x80 ->
      utf8ByteLength ([92, v] ++ rest) = 2 + utf8ByteLength rest := by
    intro v hv
    rw [utf8ByteLength_ascii_append]
    · rfl
    · intro w hw
      rcases List.mem_cons.mp hw with hw | hw
      · rw [hw]
        decide
      · rw [List.mem_singleton.mp hw]
        exact hv
  unfold escapeUnit unitCost
  split
  · rw [htwo 98 (by decide)]
    simp [*]
  split
  · rw [htwo 116 (by decide)]
    simp [*]
  split
  · rw [htwo 110 (by decide)]
    simp [*]
  split
  · rw [htwo 102 (by decide)]
    simp [*]
  split
  · rw [htwo 114 (by decide)]
    simp [*]
  split
  · rw [htwo 34 (by decide)]
    simp [*]
  split
  · rw [htwo 92 (by decide)]
    simp [*]
  split
  · rename_i hescaped
    rw [utf8ByteLength_ascii_append (unicodeEscape_ascii u)]
    simp only [Bool.or_eq_true, decide_eq_true_eq] at hescaped
    simp [*, unicodeEscape]
  · rename_i hplain
    simp only [Bool.or_eq_true, decide_eq_true_eq, not_or] at hplain
    have hhigh : isHighSurrogate u = false := by
      have hnot := hplain.2
      simp [isSurrogate] at hnot
      simp [isHighSurrogate]
      omega
    rw [List.singleton_append, utf8ByteLength_cons hhigh]
    simp [*]

theorem utf8ByteLength_escape (s rest : JsString) :
    utf8ByteLength (escape s ++ rest) =
      escapedBytes s + utf8ByteLength rest := by
  induction s using escape.induct with
  | case1 => simp [escape, escapedBytes]
  | case2 u => exact utf8ByteLength_escapeUnit u rest
  | case3 u v tail hpair ih =>
      have hboth : isHighSurrogate u = true ∧ isLowSurrogate v = true := by
        simpa using hpair
      rw [escape, if_pos hpair, escapedBytes, if_pos hpair,
        List.cons_append, List.cons_append,
        utf8ByteLength_pair hboth.1 hboth.2, ih, Nat.add_assoc]
  | case4 u v tail hpair ih =>
      rw [escape, if_neg hpair, escapedBytes, if_neg hpair,
        List.append_assoc, utf8ByteLength_escapeUnit, ih, Nat.add_assoc]

end Json

end Foundation
end FlanTerminal

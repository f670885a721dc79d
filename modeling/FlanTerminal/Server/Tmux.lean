import Mathlib.Data.Set.Function
import FlanTerminal.Foundation.Lines
import FlanTerminal.Shared.SafeString
import FlanTerminal.Shared.Tabs

/-!
# Names of tmux sessions

A tab has the tmux session that is named after its id, with the dashes left
out.  While a session is being made it goes by a name of another kind.  The
tabs that have a session are read back from the names that tmux lists.
-/

namespace FlanTerminal
namespace Server
namespace Tmux

open Foundation
open Foundation.Lines
open Shared

structure CommandResult where
  exitCode : Int
  stdout : JsString
  deriving DecidableEq

inductive TmuxError where
  | invalidSession
  | commandFailed
  deriving DecidableEq

def TmuxError.message : TmuxError -> JsString
  | invalidSession => js "Invalid session"
  | commandFailed => js "Tmux command failed"

/-- What the command runner answers; `none` is a rejection. -/
abbrev Runner := List JsString -> Option CommandResult

inductive BuildId where
  | threw
  | string (s : JsString)
  | other
  deriving DecidableEq

/-!
## Names
-/

/-- `sessionId.replaceAll('-', '')`. -/
def compact (id : JsString) : JsString :=
  id.filter fun u => !isDash u

def TAB_NAME : JsString := js "webterm-tab-"

def BUILD_NAME : JsString := js "webterm-build-"

def tmuxSessionName (sessionId : JsString) : Except TmuxError JsString :=
  if isSessionId sessionId then pure (TAB_NAME ++ compact sessionId)
  else throw TmuxError.invalidSession

def tmuxBuildSessionName : BuildId -> Except TmuxError JsString
  | BuildId.string buildId =>
      if isSessionId buildId then pure (BUILD_NAME ++ compact buildId)
      else throw TmuxError.invalidSession
  | _ => throw TmuxError.invalidSession

/-- `APP_SESSION_NAME.exec(line)` and the group it captures. -/
def appSessionName (line : JsString) : Option JsString :=
  if TAB_NAME.isPrefixOf line &&
      matchesAll (List.replicate 32 isHexLower) (line.drop TAB_NAME.length) then
    some (line.drop TAB_NAME.length)
  else none

/-- `s.slice(i, j)` for `0 ≤ i ≤ j`. -/
def slice (s : JsString) (i j : Nat) : JsString :=
  (s.take j).drop i

def hyphenate (s : JsString) : JsString :=
  slice s 0 8 ++ 45 :: slice s 8 12 ++ 45 :: slice s 12 16 ++
    45 :: slice s 16 20 ++ 45 :: s.drop 20

def sessionIdOf (line : JsString) : Option JsString :=
  match appSessionName line with
  | none => none
  | some compact =>
      let sessionId := hyphenate compact
      if isSessionId sessionId then some sessionId else none

/-!
## Commands
-/

section Commands

variable (runner : Runner)

def run (args : List JsString) : Except TmuxError CommandResult :=
  match runner args with
  | some result => pure result
  | none => throw TmuxError.commandFailed

def sessionExists (sessionId : JsString) : Except TmuxError Bool := do
  let name ← tmuxSessionName sessionId
  let result ← run runner [js "has-session", js "-t", name]
  if result.exitCode = 0 then pure true
  else if result.exitCode = 1 then pure false
  else throw TmuxError.commandFailed

def killNamedSession (name : JsString) : Except TmuxError Unit := do
  let result ← run runner [js "kill-session", js "-t", name]
  if result.exitCode ≠ 0 ∧ result.exitCode ≠ 1 then
    throw TmuxError.commandFailed

def kill (sessionId : JsString) : Except TmuxError Unit := do
  let name ← tmuxSessionName sessionId
  killNamedSession runner name

/-- The format in which a session is listed is `#` and the name in braces. -/
def listSessions : List JsString :=
  [js "list-sessions", js "-F",
    35 :: 123 :: js "session_name" ++ [125]]

def listActiveSessionIds : Except TmuxError (List JsString) := do
  let result ← run runner listSessions
  if result.exitCode = 1 then pure []
  else if result.exitCode ≠ 0 then throw TmuxError.commandFailed
  else if trim result.stdout = [] then pure []
  else pure ((splitLines result.stdout).filterMap sessionIdOf)

end Commands

/-!
## Identifiers in groups

A valid identifier is five groups of hexadecimal digits between dashes, so
nothing is lost with the dashes.
-/

theorem matchesAll_append {ps qs : List (UInt16 -> Bool)} {us : JsString} :
    matchesAll (ps ++ qs) us = true <->
      exists xs ys, us = xs ++ ys ∧ matchesAll ps xs = true ∧
        matchesAll qs ys = true := by
  induction ps generalizing us with
  | nil =>
      constructor
      · intro h
        exact ⟨[], us, rfl, rfl, h⟩
      · intro h
        obtain ⟨xs, ys, hus, hxs, hys⟩ := h
        cases xs with
        | nil => rwa [hus]
        | cons x xs => cases hxs
  | cons p ps ih =>
      cases us with
      | nil =>
          constructor
          · intro h
            cases h
          · intro h
            obtain ⟨xs, ys, hus, hxs, _⟩ := h
            rw [(List.append_eq_nil_iff.mp hus.symm).1] at hxs
            cases hxs
      | cons u us =>
          simp only [List.cons_append, matchesAll, Bool.and_eq_true, ih]
          constructor
          · intro h
            obtain ⟨hu, xs, ys, hus, hxs, hys⟩ := h
            exact ⟨u :: xs, ys, by rw [hus]; rfl, by simp [matchesAll, hu, hxs],
              hys⟩
          · intro h
            obtain ⟨xs, ys, hus, hxs, hys⟩ := h
            cases xs with
            | nil => cases hxs
            | cons x xs =>
                injection hus with hux hus
                subst hux
                simp only [matchesAll, Bool.and_eq_true] at hxs
                exact ⟨hxs.1, xs, ys, hus, hxs.2, hys⟩

theorem matchesAll_replicate {p : UInt16 -> Bool} {us : JsString} :
    matchesAll (List.replicate us.length p) us = true <->
      forall u, u ∈ us -> p u = true := by
  induction us with
  | nil => simp [matchesAll]
  | cons u us ih => simp [List.replicate_succ, matchesAll, ih]

theorem matchesAll_dash {us : JsString} (h : matchesAll [isDash] us = true) :
    us = [45] := by
  cases us with
  | nil => cases h
  | cons u us =>
      simp only [matchesAll, Bool.and_eq_true, isDash, beq_iff_eq] at h
      cases us with
      | nil => rw [h.1]
      | cons v us => cases h.2

def Dashless (ps : List (UInt16 -> Bool)) : Prop :=
  forall p, p ∈ ps -> p 45 = false

theorem compact_group {ps : List (UInt16 -> Bool)} {us : JsString}
    (hps : Dashless ps) (h : matchesAll ps us = true) : compact us = us := by
  have hall : forall u, u ∈ us -> u ≠ 45 := by
    apply matchesAll_forall (P := fun u => u ≠ 45) _ h
    intro p hp u hu he
    rw [he, hps p hp] at hu
    cases hu
  apply List.filter_eq_self.mpr
  intro u hu
  simp [isDash, hall u hu]

theorem compact_append (xs ys : JsString) :
    compact (xs ++ ys) = compact xs ++ compact ys :=
  List.filter_append ..

@[simp] theorem compact_dash (xs : JsString) :
    compact (45 :: xs) = compact xs :=
  rfl

structure Groups (id a b c d e : JsString) : Prop where
  join : id = a ++ 45 :: b ++ 45 :: c ++ 45 :: d ++ 45 :: e
  first : matchesAll (List.replicate 8 isHexLower) a = true
  second : matchesAll (List.replicate 4 isHexLower) b = true
  third : matchesAll (isVersionDigit :: List.replicate 3 isHexLower) c = true
  fourth : matchesAll (isVariantDigit :: List.replicate 3 isHexLower) d = true
  fifth : matchesAll (List.replicate 12 isHexLower) e = true

theorem exists_groups {id : JsString} (h : isSessionId id = true) :
    exists a b c d e, Groups id a b c d e := by
  have hpattern : tabIdPattern =
      List.replicate 8 isHexLower ++ ([isDash] ++
      (List.replicate 4 isHexLower ++ ([isDash] ++
      ((isVersionDigit :: List.replicate 3 isHexLower) ++ ([isDash] ++
      ((isVariantDigit :: List.replicate 3 isHexLower) ++ ([isDash] ++
        List.replicate 12 isHexLower))))))) := by
    simp [tabIdPattern]
  rw [isSessionId, hpattern] at h
  obtain ⟨a, _, hid, ha, h⟩ := matchesAll_append.mp h
  obtain ⟨dash1, _, hid1, h1, h⟩ := matchesAll_append.mp h
  obtain ⟨b, _, hid2, hb, h⟩ := matchesAll_append.mp h
  obtain ⟨dash2, _, hid3, h2, h⟩ := matchesAll_append.mp h
  obtain ⟨c, _, hid4, hc, h⟩ := matchesAll_append.mp h
  obtain ⟨dash3, _, hid5, h3, h⟩ := matchesAll_append.mp h
  obtain ⟨d, _, hid6, hd, h⟩ := matchesAll_append.mp h
  obtain ⟨dash4, e, hid7, h4, he⟩ := matchesAll_append.mp h
  subst hid7 hid6 hid5 hid4 hid3 hid2 hid1
  rw [matchesAll_dash h1, matchesAll_dash h2, matchesAll_dash h3,
    matchesAll_dash h4] at hid
  exact ⟨a, b, c, d, e, by simpa using hid, ha, hb, hc, hd, he⟩

theorem dashless_hex (n : Nat) : Dashless (List.replicate n isHexLower) := by
  intro p hp
  rw [List.eq_of_mem_replicate hp]
  rfl

theorem dashless_cons {p : UInt16 -> Bool} {n : Nat} (hp : p 45 = false) :
    Dashless (p :: List.replicate n isHexLower) := by
  intro q hq
  cases List.mem_cons.mp hq with
  | inl h => rwa [h]
  | inr h => exact dashless_hex n q h

variable {id a b c d e : JsString}

theorem Groups.compact_eq (g : Groups id a b c d e) :
    compact id = a ++ (b ++ (c ++ (d ++ e))) := by
  have ha := compact_group (dashless_hex 8) g.first
  have hb := compact_group (dashless_hex 4) g.second
  have hc := compact_group (dashless_cons rfl) g.third
  have hd := compact_group (dashless_cons rfl) g.fourth
  have he := compact_group (dashless_hex 12) g.fifth
  rw [g.join]
  simp [compact_append, ha, hb, hc, hd, he]

theorem slice_append {xs ys zs : JsString} {i j : Nat} (hi : xs.length = i)
    (hj : i + ys.length = j) : slice (xs ++ (ys ++ zs)) i j = ys := by
  subst hi hj
  simp [slice, List.take_append]

theorem slice_drop (s : JsString) {i j : Nat} (h : i ≤ j) :
    slice s i j ++ s.drop j = s.drop i := by
  obtain ⟨k, rfl⟩ := Nat.exists_eq_add_of_le h
  rw [slice, List.drop_take, Nat.add_sub_cancel_left, ← List.drop_drop]
  exact List.take_append_drop k (s.drop i)

theorem Groups.hyphenate_eq (g : Groups id a b c d e) :
    hyphenate (compact id) = id := by
  have ha : a.length = 8 := matchesAll_length g.first
  have hb : b.length = 4 := matchesAll_length g.second
  have hc : c.length = 4 := matchesAll_length g.third
  have hd : d.length = 4 := matchesAll_length g.fourth
  have h1 : slice (compact id) 0 8 = a := by
    rw [g.compact_eq]
    exact List.take_left' ha
  have h2 : slice (compact id) 8 12 = b := by
    rw [g.compact_eq]
    exact slice_append ha (by omega)
  have h3 : slice (compact id) 12 16 = c := by
    rw [g.compact_eq, ← List.append_assoc]
    exact slice_append (by simp [ha, hb]) (by omega)
  have h4 : slice (compact id) 16 20 = d := by
    rw [g.compact_eq, ← List.append_assoc, ← List.append_assoc]
    exact slice_append (by simp [ha, hb, hc]) (by omega)
  have h5 : (compact id).drop 20 = e := by
    rw [g.compact_eq, ← List.append_assoc, ← List.append_assoc,
      ← List.append_assoc]
    exact List.drop_left' (by simp [ha, hb, hc, hd])
  rw [hyphenate, h1, h2, h3, h4, h5, g.join]

theorem hyphenate_compact (h : isSessionId id = true) :
    hyphenate (compact id) = id := by
  obtain ⟨a, b, c, d, e, g⟩ := exists_groups h
  exact g.hyphenate_eq

theorem compact_hex (h : isSessionId id = true) :
    matchesAll (List.replicate 32 isHexLower) (compact id) = true := by
  obtain ⟨a, b, c, d, e, g⟩ := exists_groups h
  have hlength : (compact id).length = 32 := by
    have ha : a.length = 8 := matchesAll_length g.first
    have hb : b.length = 4 := matchesAll_length g.second
    have hc : c.length = 4 := matchesAll_length g.third
    have hd : d.length = 4 := matchesAll_length g.fourth
    have he : e.length = 12 := matchesAll_length g.fifth
    simp [g.compact_eq, ha, hb, hc, hd, he]
  have hunits : forall u, u ∈ compact id -> isHexLower u = true := by
    intro u hu
    have hmem := (List.mem_filter.mp hu)
    rcases isSessionId_units h u hmem.1 with hdash | hdigit | hletter
    · simp [hdash, isDash] at hmem
    · simp [isHexLower, hdigit]
    · simp [isHexLower, hletter]
  rw [← hlength]
  exact matchesAll_replicate.mpr hunits

theorem compact_hyphenate {s : JsString}
    (h : matchesAll (List.replicate 32 isHexLower) s = true) :
    compact (hyphenate s) = s := by
  have hs : compact s = s := compact_group (dashless_hex 32) h
  have hpieces : slice s 0 8 ++ (slice s 8 12 ++ (slice s 12 16 ++
      (slice s 16 20 ++ s.drop 20))) = s := by
    rw [slice_drop s (by omega), slice_drop s (by omega),
      slice_drop s (by omega), slice_drop s (by omega)]
    rfl
  have hjoin : compact (hyphenate s) = compact (slice s 0 8 ++ (slice s 8 12 ++
      (slice s 12 16 ++ (slice s 16 20 ++ s.drop 20)))) := by
    simp [hyphenate, compact_append]
  rw [hjoin, hpieces, hs]

/-!
## Names of tabs
-/

theorem tmuxSessionName_of_valid (h : isSessionId id = true) :
    tmuxSessionName id = pure (TAB_NAME ++ compact id) :=
  if_pos h

theorem valid_of_tmuxSessionName {name : JsString}
    (h : tmuxSessionName id = pure name) :
    isSessionId id = true ∧ name = TAB_NAME ++ compact id := by
  unfold tmuxSessionName at h
  split at h
  · rename_i hid
    injection h with h
    exact ⟨hid, h.symm⟩
  · cases h

theorem valid_of_tmuxBuildSessionName {u : BuildId} {name : JsString}
    (h : tmuxBuildSessionName u = pure name) :
    exists id, isSessionId id = true ∧ name = BUILD_NAME ++ compact id := by
  unfold tmuxBuildSessionName at h
  split at h
  · rename_i id
    split at h
    · rename_i hid
      injection h with h
      exact ⟨id, hid, h.symm⟩
    · cases h
  · cases h

theorem appSessionName_eq_some {line s : JsString} :
    appSessionName line = some s <->
      line = TAB_NAME ++ s ∧
        matchesAll (List.replicate 32 isHexLower) s = true := by
  unfold appSessionName
  constructor
  · intro h
    split at h
    · rename_i hline
      rw [Bool.and_eq_true] at hline
      obtain ⟨r, hr⟩ := List.isPrefixOf_iff_prefix.mp hline.1
      injection h with h
      subst h hr
      exact ⟨by rw [List.drop_left], hline.2⟩
    · cases h
  · intro h
    rw [h.1, List.drop_left, if_pos]
    rw [Bool.and_eq_true]
    exact ⟨List.isPrefixOf_iff_prefix.mpr (List.prefix_append _ _), h.2⟩

theorem sessionIdOf_eq_some {line : JsString} :
    sessionIdOf line = some id <-> tmuxSessionName id = pure line := by
  constructor
  · intro h
    unfold sessionIdOf at h
    split at h
    · cases h
    · rename_i s hs
      obtain ⟨hline, hhex⟩ := appSessionName_eq_some.mp hs
      dsimp only at h
      split at h
      · rename_i hid
        injection h with h
        rw [← h, tmuxSessionName_of_valid hid, compact_hyphenate hhex, hline]
      · cases h
  · intro h
    obtain ⟨hid, hline⟩ := valid_of_tmuxSessionName h
    have happ : appSessionName line = some (compact id) :=
      appSessionName_eq_some.mpr ⟨hline, compact_hex hid⟩
    rw [sessionIdOf, happ]
    simp only [hyphenate_compact hid, hid, if_true]

theorem compact_length (h : isSessionId id = true) :
    (compact id).length = 32 :=
  matchesAll_length (compact_hex h)

theorem kind_eq {kind other : JsString} (hid : isSessionId id = true)
    (hother : isSessionId other = true)
    (h : kind ++ compact id <+: kind ++ compact other) :
    kind ++ compact id = kind ++ compact other := by
  apply h.eq_of_length
  rw [List.length_append, List.length_append, compact_length hid,
    compact_length hother]

theorem not_prefix_of_ne {xs ys us vs : JsString} {n : Nat}
    (hx : n < xs.length) (hy : n < ys.length) (hne : xs[n]? ≠ ys[n]?) :
    ¬ xs ++ us <+: ys ++ vs := by
  intro h
  obtain ⟨r, hr⟩ := h
  have hn := congrArg (fun s : JsString => s[n]?) hr
  simp only [List.append_assoc, List.getElem?_append_left hx,
    List.getElem?_append_left hy] at hn
  exact hne hn

/-- The names that the program gives to sessions. -/
def appNames : Set JsString :=
  fun name => (exists id, tmuxSessionName id = pure name) ∨
    exists u, tmuxBuildSessionName u = pure name

theorem prefix_eq {x y : JsString} (hx : x ∈ appNames) (hy : y ∈ appNames)
    (h : x <+: y) : x = y := by
  have htab : 8 < TAB_NAME.length := by decide
  have hbuild : 8 < BUILD_NAME.length := by decide
  have hne : TAB_NAME[8]? ≠ BUILD_NAME[8]? := by decide
  cases hx with
  | inl hx =>
      obtain ⟨_, hx⟩ := hx
      obtain ⟨hidx, hx⟩ := valid_of_tmuxSessionName hx
      cases hy with
      | inl hy =>
          obtain ⟨_, hy⟩ := hy
          obtain ⟨hidy, hy⟩ := valid_of_tmuxSessionName hy
          subst hx hy
          exact kind_eq hidx hidy h
      | inr hy =>
          obtain ⟨_, hy⟩ := hy
          obtain ⟨_, hidy, hy⟩ := valid_of_tmuxBuildSessionName hy
          subst hx hy
          exact absurd h (not_prefix_of_ne htab hbuild hne)
  | inr hx =>
      obtain ⟨_, hx⟩ := hx
      obtain ⟨_, hidx, hx⟩ := valid_of_tmuxBuildSessionName hx
      cases hy with
      | inl hy =>
          obtain ⟨_, hy⟩ := hy
          obtain ⟨hidy, hy⟩ := valid_of_tmuxSessionName hy
          subst hx hy
          exact absurd h (not_prefix_of_ne hbuild htab hne.symm)
      | inr hy =>
          obtain ⟨_, hy⟩ := hy
          obtain ⟨_, hidy, hy⟩ := valid_of_tmuxBuildSessionName hy
          subst hx hy
          exact kind_eq hidx hidy h

theorem tmuxSessionName_injOn :
    Set.InjOn tmuxSessionName (fun id => isSessionId id = true) := by
  intro x hx y hy h
  rw [tmuxSessionName_of_valid hx, tmuxSessionName_of_valid hy] at h
  injection h with h
  have hcompact : compact x = compact y := List.append_cancel_left h
  rw [← hyphenate_compact hx, hcompact, hyphenate_compact hy]

/-!
## Targets

A target finds the sessions whose names begin with it.  That of a tab finds no
session of another one.
-/

def found (names : List JsString) (target : JsString) : List JsString :=
  names.filter fun name => target.isPrefixOf name

theorem mem_found {names : List JsString} {name x : JsString}
    (hnames : forall y, y ∈ names -> y ∈ appNames) (hname : name ∈ appNames) :
    x ∈ found names name <-> x ∈ names ∧ x = name := by
  unfold found
  rw [List.mem_filter, List.isPrefixOf_iff_prefix]
  constructor
  · exact fun h => ⟨h.1, (prefix_eq hname (hnames x h.1) h.2).symm⟩
  · rintro ⟨hx, rfl⟩
    exact ⟨hx, List.prefix_rfl⟩

/-- What is documented of the command with these sessions. -/
structure Serves (runner : Runner) (names : List JsString) : Prop where
  has : forall target, exists stdout,
    runner [js "has-session", js "-t", target] =
      some ⟨if found names target = [] then 1 else 0, stdout⟩

theorem run_some {runner : Runner} {args : List JsString}
    {result : CommandResult} (h : runner args = some result) :
    run runner args = pure result := by
  rw [run, h]

theorem run_none {runner : Runner} {args : List JsString}
    (h : runner args = none) :
    run runner args = throw TmuxError.commandFailed := by
  rw [run, h]

theorem sessionExists_eq {runner : Runner} {names : List JsString}
    (hserves : Serves runner names)
    (hnames : forall x, x ∈ names -> x ∈ appNames) {name : JsString}
    (hname : tmuxSessionName id = pure name) :
    sessionExists runner id = pure (decide (name ∈ names)) := by
  have happ : name ∈ appNames := Or.inl ⟨id, hname⟩
  have hfound : found names name = [] <-> name ∉ names := by
    rw [List.eq_nil_iff_forall_not_mem]
    constructor
    · exact fun h hin => h name ((mem_found hnames happ).mpr ⟨hin, rfl⟩)
    · intro h x hx
      obtain ⟨hin, heq⟩ := (mem_found hnames happ).mp hx
      exact h (heq ▸ hin)
  obtain ⟨stdout, hrun⟩ := hserves.has name
  unfold sessionExists
  rw [hname, pure_bind, run_some hrun, pure_bind]
  by_cases hin : name ∈ names
  · have hsome : found names name ≠ [] := fun h => hfound.mp h hin
    simp [hsome, hin]
  · simp [hfound.mpr hin, hin]

theorem kill_own {runner : Runner} (h : kill runner id = pure ()) :
    exists name result, tmuxSessionName id = pure name ∧
      runner [js "kill-session", js "-t", name] = some result ∧
      (result.exitCode = 0 ∨ result.exitCode = 1) ∧
      forall names : List JsString, (forall x, x ∈ names -> x ∈ appNames) ->
        forall x, x ∈ found names name -> x = name := by
  unfold kill at h
  cases hname : tmuxSessionName id with
  | error e =>
      rw [hname] at h
      cases h
  | ok name =>
      have hown : killNamedSession runner name = pure () := by
        rw [hname] at h
        exact h
      unfold killNamedSession at hown
      cases hrun : runner [js "kill-session", js "-t", name] with
      | none =>
          rw [run_none hrun] at hown
          cases hown
      | some result =>
          rw [run_some hrun, pure_bind] at hown
          refine ⟨name, result, rfl, hrun, ?_, ?_⟩
          · by_contra hcode
            rw [not_or] at hcode
            rw [if_pos hcode] at hown
            cases hown
          · exact fun names hnames x hx =>
              ((mem_found hnames (Or.inl ⟨id, hname⟩)).mp hx).2

/-!
## The sessions that are listed
-/

def IsTabName (line : JsString) : Prop :=
  exists id, tmuxSessionName id = pure line

theorem isTabName_iff {line : JsString} :
    IsTabName line <-> (sessionIdOf line).isSome = true := by
  rw [Option.isSome_iff_exists]
  exact exists_congr fun id => sessionIdOf_eq_some.symm

instance : DecidablePred IsTabName :=
  fun _ => decidable_of_iff _ isTabName_iff.symm

theorem map_sessionIdOf (lines : List JsString) :
    (lines.filterMap sessionIdOf).map tmuxSessionName =
      (lines.filter fun line => decide (IsTabName line)).map pure := by
  induction lines with
  | nil => rfl
  | cons line lines ih =>
      cases hid : sessionIdOf line with
      | none =>
          have hline : ¬ IsTabName line := by simp [isTabName_iff, hid]
          simpa [hid, hline] using ih
      | some id =>
          have hline : IsTabName line := by simp [isTabName_iff, hid]
          have hname := sessionIdOf_eq_some.mp hid
          simpa [hid, hline, hname] using ih

theorem filterMap_blank {s : JsString} (h : trim s = []) :
    (splitLines s).filterMap sessionIdOf = [] := by
  apply List.filterMap_eq_nil_iff.mpr
  intro line hline
  cases hid : sessionIdOf line with
  | none => rfl
  | some id =>
      obtain ⟨_, hname⟩ := valid_of_tmuxSessionName (sessionIdOf_eq_some.mp hid)
      have hw : 119 ∈ line := by
        rw [hname]
        exact List.mem_append_left _ (by decide)
      have hspace := trim_eq_nil h 119 (mem_of_mem_splitLines hline hw)
      cases hspace

theorem listActiveSessionIds_ok {runner : Runner} {stdout : JsString}
    (h : runner listSessions = some ⟨0, stdout⟩) :
    listActiveSessionIds runner =
      pure ((splitLines stdout).filterMap sessionIdOf) := by
  rw [listActiveSessionIds, run_some h]
  by_cases htrim : trim stdout = []
  · simp [htrim, filterMap_blank htrim]
  · simp [htrim]

/-- Names tell tabs apart, no name of the program is the beginning of another,
and the tabs that are listed are those whose name is a line of the output: once
for each such line, in the order of the lines. -/
theorem names_identify_tabs (runner : Runner) (stdout : JsString)
    (h : runner listSessions = some ⟨0, stdout⟩) :
    Set.InjOn tmuxSessionName (fun id => isSessionId id = true) ∧
      appNames.Pairwise (fun x y => ¬ x <+: y) ∧
      (exists output : Text, output.render = stdout) ∧
      exists ids, listActiveSessionIds runner = pure ids ∧
        forall output : Text, output.render = stdout ->
          ids.map tmuxSessionName =
            (output.content.filter fun line => decide (IsTabName line)).map
              pure := by
  constructor
  · exact tmuxSessionName_injOn
  constructor
  · intro x hx y hy hne hxy
    exact hne (prefix_eq hx hy hxy)
  constructor
  · exact exists_render stdout
  exists (splitLines stdout).filterMap sessionIdOf
  constructor
  · exact listActiveSessionIds_ok h
  · intro output houtput
    rw [map_sessionIdOf, ← houtput, splitLines_render]

/-- A tab between a session of someone else and one that was cut short, with
both endings. -/
def sampleText : Text where
  lines :=
    [⟨js "main", Ending.lf, by decide, fun _ => by decide⟩,
      ⟨js "webterm-tab-550e8400e29b41d4a716446655440000", Ending.crlf,
        by decide, nofun⟩]
  rest := js "webterm-tab-550e8400e29b41d4a71644665544"
  noFeed := by decide

def sampleRunner : Runner :=
  fun _ => some ⟨0, sampleText.render⟩

theorem sample_names_identify_tabs :
    listActiveSessionIds sampleRunner =
        pure [js "550e8400-e29b-41d4-a716-446655440000"] ∧
      exists ids, listActiveSessionIds sampleRunner = pure ids ∧
        ids.map tmuxSessionName =
          (sampleText.content.filter fun line => decide (IsTabName line)).map
            pure := by
  constructor
  · decide +kernel
  · obtain ⟨_, _, _, ids, hids, hall⟩ :=
      names_identify_tabs sampleRunner sampleText.render rfl
    exact ⟨ids, hids, hall sampleText rfl⟩

end Tmux
end Server
end FlanTerminal

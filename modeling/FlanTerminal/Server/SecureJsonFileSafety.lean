import Mathlib.Data.List.TakeWhile
import FlanTerminal.Server.SecureJsonFile

/-!
# Replacing a secure JSON file

Up to the rename the target is as it was, and after it the target has the bytes
of the value.  Whatever fails, `close` is called for every handle.
-/

namespace FlanTerminal
namespace Server
namespace SecureJsonFile

open Foundation

/-!
## Before the rename
-/

def Quiet (new : List Entry) : Prop :=
  forall old path, Entry.renamed old path ∉ new

/-- Since `s0` there has been no rename, the files are these, and the handles
that may be open are these. -/
structure Before (s0 : Disk) (files : JsString -> Option (List UInt8))
    (hs : List (Nat × JsString)) (s : Disk) : Prop where
  files : s.files = files
  opened : forall x, x ∈ hs -> s.handles x.1 = some x.2
  closed : forall h, s0.handles h = none -> s.handles h ≠ none ->
    s.closeCalled h = true ∨ h ∈ hs.map Prod.fst
  log : exists new, s.log = s0.log ++ new ∧ Quiet new

theorem Before.refl (s0 : Disk) : Before s0 s0.files [] s0 :=
  ⟨rfl, fun x hx => (by cases hx), fun h hnone hsome => absurd hnone hsome,
    [], (List.append_nil _).symm, fun _ _ h => (by cases h)⟩

section Before

variable {s0 s : Disk} {files : JsString -> Option (List UInt8)}
variable {hs : List (Nat × JsString)} {path : JsString} {h : Nat}

theorem Before.quiet (hb : Before s0 files hs s) {s' : Disk}
    (hfiles : s'.files = s.files) (hhandles : s'.handles = s.handles)
    (hclosed : s'.closeCalled = s.closeCalled)
    (hlog : exists new, s'.log = s.log ++ new ∧ Quiet new) :
    Before s0 files hs s' := by
  obtain ⟨new, hnew, hquiet⟩ := hb.log
  obtain ⟨new', hnew', hquiet'⟩ := hlog
  refine ⟨hfiles.trans hb.files, ?_, ?_, new ++ new', ?_, ?_⟩
  · rw [hhandles]
    exact hb.opened
  · rw [hhandles, hclosed]
    exact hb.closed
  · rw [hnew', hnew, List.append_assoc]
  · intro old p hmem
    rcases List.mem_append.mp hmem with hmem | hmem
    · exact hquiet old p hmem
    · exact hquiet' old p hmem

theorem Before.opens (hb : Before s0 files hs s) {flags : OpenFlags}
    (hfresh : s.handles h = none) (hflags : flags ≠ OpenFlags.exclusive) :
    Before s0 files ((h, path) :: hs) (s.opened path flags h) := by
  refine ⟨?_, ?_, ?_, hb.log⟩
  · show (if flags = OpenFlags.exclusive then _ else s.files) = files
    rw [if_neg hflags]
    exact hb.files
  · intro x hx
    show Function.update s.handles h (some path) x.1 = some x.2
    rcases List.mem_cons.mp hx with hx | hx
    · rw [hx]
      exact Function.update_self _ _ _
    · have hne : x.1 ≠ h := by
        intro heq
        have hsome := hb.opened x hx
        rw [heq, hfresh] at hsome
        cases hsome
      rw [Function.update_of_ne hne]
      exact hb.opened x hx
  · intro h' hnone hsome
    change Function.update s.handles h (some path) h' ≠ none at hsome
    show Function.update s.closeCalled h false h' = true ∨ _
    by_cases heq : h' = h
    · rw [heq]
      exact Or.inr List.mem_cons_self
    · rw [Function.update_of_ne heq] at hsome ⊢
      exact (hb.closed h' hnone hsome).imp id (List.mem_cons_of_mem _)

theorem Before.creates (hb : Before s0 files hs s)
    (hfresh : s.handles h = none) :
    Before s0 (Function.update files path (some [])) ((h, path) :: hs)
      (s.opened path OpenFlags.exclusive h) := by
  have hother := @Before.opens s0 s files hs path h hb OpenFlags.existing hfresh
    (by decide)
  refine ⟨?_, hother.opened, hother.closed, hother.log⟩
  show (if OpenFlags.exclusive = OpenFlags.exclusive then
    Function.update s.files path (some []) else s.files) = _
  rw [if_pos rfl, hb.files]

theorem Before.closes (hb : Before s0 files ((h, path) :: hs) s)
    (r : Except Failure Unit) :
    Before s0 files hs (reply (PortCall.close h) r s) := by
  have hclosing : Before s0 files hs (s.closing h) := by
    refine ⟨hb.files, fun x hx => hb.opened x (List.mem_cons_of_mem _ hx), ?_,
      hb.log⟩
    intro h' hnone hsome
    show Function.update s.closeCalled h true h' = true ∨ _
    by_cases heq : h' = h
    · rw [heq, Function.update_self]
      exact Or.inl rfl
    · rw [Function.update_of_ne heq]
      rcases hb.closed h' hnone hsome with hc | hmem
      · exact Or.inl hc
      · rcases List.mem_cons.mp hmem with hmem | hmem
        · exact absurd hmem heq
        · exact Or.inr hmem
  cases r with
  | error f => exact hclosing
  | ok u =>
      refine hclosing.quiet rfl rfl rfl ⟨[Entry.closed h], rfl, ?_⟩
      intro old p hmem
      cases List.mem_singleton.mp hmem

/-- It does no harm to call `close` once more. -/
theorem Before.closes_again (hb : Before s0 files hs s)
    (r : Except Failure Unit) :
    Before s0 files hs (reply (PortCall.close h) r s) := by
  have hclosing : Before s0 files hs (s.closing h) := by
    refine ⟨hb.files, hb.opened, ?_, hb.log⟩
    intro h' hnone hsome
    show Function.update s.closeCalled h true h' = true ∨ _
    by_cases heq : h' = h
    · rw [heq, Function.update_self]
      exact Or.inl rfl
    · rw [Function.update_of_ne heq]
      exact hb.closed h' hnone hsome
  cases r with
  | error f => exact hclosing
  | ok u =>
      refine hclosing.quiet rfl rfl rfl ⟨[Entry.closed h], rfl, ?_⟩
      intro old p hmem
      cases List.mem_singleton.mp hmem

theorem Before.writes (hb : Before s0 files hs s)
    (hopen : s.handles h = some path) (bytes : List UInt8) :
    Before s0 (Function.update files path
      ((files path).map fun before => before ++ bytes)) hs
      (s.written h bytes) := by
  have heq : s.written h bytes = { s with
      files := Function.update s.files path
        ((s.files path).map fun before => before ++ bytes) } := by
    unfold Disk.written
    rw [hopen]
  rw [heq]
  refine ⟨?_, hb.opened, hb.closed, hb.log⟩
  show Function.update s.files path _ = _
  rw [hb.files]

end Before

/-!
## Calls
-/

section Calls

variable {P : Disk -> Prop} {value : Type} {M : value -> Disk -> Prop}
variable {E : Thrown -> Disk -> Prop}

theorem triple_call {result : Type} {c : PortCall}
    {k : PortReply c -> Except Failure value} {g : value -> Code result}
    {N : result -> Disk -> Prop}
    (hok : forall s r a, P s -> Allowed s c r -> k r = Except.ok a ->
      M a (reply c r s))
    (herror : forall s r f, P s -> Allowed s c r -> k r = Except.error f ->
      E (Thrown.io f) (reply c r s))
    (hg : forall a, fileSystem.triple (M a) (g a) N E) :
    fileSystem.triple P (Prog.ask c >>= fun r => unwrap (k r) >>= g) N E := by
  refine Solo.triple_bind (Solo.triple_ask (R := fun r s' => exists s,
    P s ∧ Allowed s c r ∧ s' = reply c r s) ?_) ?_
  · intro s r hs hr
    exact ⟨s, hs, hr, rfl⟩
  · intro r
    cases hk : k r with
    | error f =>
        refine Solo.triple_raise ?_
        intro s' h
        obtain ⟨s, hs, hr, hs'⟩ := h
        rw [hs']
        exact herror s r f hs hr hk
    | ok a =>
        refine Solo.triple_mono (hg a) ?_ (fun _ _ h => h) (fun _ _ h => h)
        intro s' h
        obtain ⟨s, hs, hr, hs'⟩ := h
        rw [hs']
        exact hok s r a hs hr hk

theorem triple_unwrap {c : PortCall} {k : PortReply c -> Except Failure value}
    (hok : forall s r a, P s -> Allowed s c r -> k r = Except.ok a ->
      M a (reply c r s))
    (herror : forall s r f, P s -> Allowed s c r -> k r = Except.error f ->
      E (Thrown.io f) (reply c r s)) :
    fileSystem.triple P (Prog.ask c >>= fun r => unwrap (k r)) M E := by
  have h := triple_call (g := Prog.ret) hok herror
    fun a => Solo.triple_ret fun _ h => h
  simp only [Prog.bind_ret] at h
  exact h

/-- A program that holds on to what is true through all that it does. -/
def Keeps (P : Disk -> Prop) {value : Type} (p : Code value) : Prop :=
  fileSystem.triple P p (fun _ => P) (fun _ => P)

theorem triple_require {b : Bool} {e : Thrown} {M : Unit -> Disk -> Prop}
    (hM : forall s, P s -> b = true -> M () s) (hE : forall s, P s -> E e s) :
    fileSystem.triple P (require b e) M E := by
  unfold require
  cases b with
  | true => exact Solo.triple_ret fun s hs => hM s hs rfl
  | false => exact Solo.triple_raise fun s hs => hE s hs

theorem triple_fails {p : Code Unit} {M : Unit -> Disk -> Prop}
    {Q : Bool -> Disk -> Prop} {F : Thrown -> Disk -> Prop}
    (hp : fileSystem.triple P p M E) (hM : forall s, M () s -> Q false s)
    (hE : forall e s, E e s -> Q true s) :
    fileSystem.triple P (fails p) Q F := by
  refine Solo.triple_catch (Solo.triple_bind hp fun u => ?_) fun e => ?_
  · exact Solo.triple_ret fun s h => hM s h
  · exact Solo.triple_ret fun s h => hE e s h

theorem triple_ignore {p : Code Unit} {Q : Disk -> Prop}
    {F : Thrown -> Disk -> Prop} (hp : fileSystem.triple P p (fun _ => Q)
      (fun _ => Q)) : fileSystem.triple P (ignore p) (fun _ => Q) F :=
  Solo.triple_catch hp fun _ => Solo.triple_ret fun _ h => h

end Calls

/-!
## Opening and checking
-/

section Checks

variable {s0 : Disk} {files : JsString -> Option (List UInt8)}
variable {hs : List (Nat × JsString)} {runtimeUid : Int} {path : JsString}

theorem keeps_stat {P : Disk -> Prop} (h : Nat) : Keeps P (stat h) :=
  triple_unwrap (fun s r a hs _ hk => by rw [hk]; exact hs)
    (fun s r f hs _ hk => by rw [hk]; exact hs)

theorem keeps_chmod {P : Disk -> Prop} (h mode : Nat) :
    Keeps P (chmod h mode) :=
  triple_unwrap (fun s r a hs _ hk => by rw [hk]; exact hs)
    (fun s r f hs _ hk => by rw [hk]; exact hs)

theorem keeps_require {P : Disk -> Prop} (b : Bool) (e : Thrown) :
    Keeps P (require b e) :=
  triple_require (fun _ h _ => h) (fun _ h => h)

theorem keeps_bind {P : Disk -> Prop} {value result : Type} {p : Code value}
    {g : value -> Code result} (hp : Keeps P p) (hg : forall a, Keeps P (g a)) :
    Keeps P (p >>= g) :=
  Solo.triple_bind hp hg

theorem spec_sync (h : Nat) :
    Keeps (Before s0 files hs) (sync h) := by
  refine triple_unwrap (fun s r a hb _ hk => ?_) (fun s r f hb _ hk => ?_)
  · rw [hk]
    refine hb.quiet rfl rfl rfl ⟨[Entry.synced h], rfl, ?_⟩
    intro old p hmem
    cases List.mem_singleton.mp hmem
  · rw [hk]
    exact hb

theorem spec_close {h : Nat} :
    fileSystem.triple (Before s0 files ((h, path) :: hs)) (close h)
      (fun _ => Before s0 files hs) (fun _ => Before s0 files hs) :=
  triple_unwrap (fun _ r _ hb _ _ => hb.closes r)
    (fun _ r _ hb _ _ => hb.closes r)

theorem spec_openValidatedParent :
    fileSystem.triple (Before s0 files hs) (openValidatedParent runtimeUid path)
      (fun h => Before s0 files ((h, PosixPath.dirname path) :: hs))
      (fun _ => Before s0 files hs) := by
  refine Solo.triple_bind (M := fun h =>
    Before s0 files ((h, PosixPath.dirname path) :: hs)) ?_ ?_
  · refine triple_unwrap (fun s r h hb hr hk => ?_) (fun s r f hb _ hk => ?_)
    · rw [hk] at hr ⊢
      exact hb.opens hr.1 (by decide)
    · rw [hk]
      exact hb
  · intro h
    refine Solo.triple_catch (E := fun _ =>
      Before s0 files ((h, PosixPath.dirname path) :: hs)) ?_ ?_
    · exact Solo.triple_bind (keeps_stat h) fun stat =>
        Solo.triple_bind (keeps_require _ _) fun _ =>
          Solo.triple_ret fun _ hb => hb
    · intro e
      exact Solo.triple_bind (triple_ignore spec_close) fun _ =>
        Solo.triple_raise fun _ hb => hb

theorem spec_validateExistingTarget :
    Keeps (Before s0 files hs) (validateExistingTarget runtimeUid path) := by
  refine Solo.triple_bind (Solo.triple_ask (R := fun r s' =>
    (forall f, r = Except.error f -> Before s0 files hs s') ∧
    (forall h, r = Except.ok h -> Before s0 files ((h, path) :: hs) s')) ?_) ?_
  · intro s r hb hr
    cases r with
    | error f => exact ⟨fun _ _ => hb, fun h heq => by cases heq⟩
    | ok h =>
        refine ⟨fun f heq => (by cases heq), fun h' heq => ?_⟩
        cases heq
        exact hb.opens hr.1 (by decide)
  · intro r
    cases r with
    | error f =>
        dsimp only
        split
        · exact Solo.triple_ret fun s h => h.1 f rfl
        · split
          · exact Solo.triple_raise fun s h => h.1 f rfl
          · exact Solo.triple_raise fun s h => h.1 f rfl
    | ok h =>
        suffices hopen : fileSystem.triple (Before s0 files ((h, path) :: hs))
            _ (fun _ => Before s0 files hs) (fun _ => Before s0 files hs) from
          Solo.triple_mono hopen (fun s hs => hs.2 h rfl) (fun _ _ h => h)
            (fun _ _ h => h)
        refine Solo.triple_bind (M := fun _ =>
          Before s0 files ((h, path) :: hs)) ?_ fun checked => ?_
        · refine Solo.triple_mono (Solo.triple_attempt
            (keeps_bind (keeps_stat h) fun stat => keeps_require _ _))
            (fun _ h => h) ?_ (fun _ _ h => h)
          intro res s hres
          cases res with
          | ok u => exact hres
          | error e => exact hres
        · refine Solo.triple_bind (M := fun _ => Before s0 files hs) ?_
            fun closed => ?_
          · refine Solo.triple_mono (Solo.triple_attempt spec_close)
              (fun _ h => h) ?_ (fun _ _ h => h)
            intro res s hres
            cases res with
            | ok u => exact hres
            | error e => exact hres
          · cases checked with
            | error e => exact Solo.triple_raise fun _ h => h
            | ok u =>
                cases closed with
                | error e => exact Solo.triple_raise fun _ h => h
                | ok u => exact Solo.triple_ret fun _ h => h

end Checks

/-!
## The temporary file
-/

theorem isName_tempName {path random : JsString}
    (hrandom : PosixPath.SLASH ∉ random) :
    PosixPath.IsName (tempName path random) := by
  have hlong : 2 < (tempName path random).length := by
    unfold tempName
    simp only [List.length_append]
    have htmp : (js ".tmp").length = 4 := by decide
    omega
  constructor
  · intro h
    rw [h] at hlong
    cases hlong
  · intro h
    rw [h] at hlong
    exact absurd hlong (by decide)
  · intro h
    rw [h] at hlong
    exact absurd hlong (by decide)
  · unfold tempName
    simp only [List.mem_append, not_or]
    refine ⟨⟨⟨⟨by decide, ?_⟩, by decide⟩, hrandom⟩, by decide⟩
    unfold PosixPath.basename
    intro h
    have hmem := List.mem_takeWhile_imp (List.mem_reverse.mp h)
    exact absurd rfl (bne_iff_ne.mp hmem)

theorem tempPath_ne {path random : JsString}
    (habsolute : PosixPath.isAbsolute path = true)
    (hrandom : PosixPath.SLASH ∉ random) : tempPath path random ≠ path := by
  have hname := @isName_tempName path random hrandom
  obtain ⟨above, habove⟩ := PosixPath.join_name
    (PosixPath.isAbsolute_dirname habsolute) hname
  intro heq
  have hbase : PosixPath.basename path = tempName path random := by
    rw [<- @PosixPath.basename_name above _ hname, <- habove]
    exact congrArg PosixPath.basename heq.symm
  have hlength := congrArg List.length hbase
  unfold tempName at hlength
  simp only [List.length_append] at hlength
  have hdot : (js ".").length = 1 := by decide
  omega

section Writing

variable {s0 : Disk} {files : JsString -> Option (List UInt8)}
variable {hs : List (Nat × JsString)} {runtimeUid : Int}
variable {path old : JsString} {temp : Nat}

structure Made (s0 : Disk) (files : JsString -> Option (List UInt8))
    (hs : List (Nat × JsString)) (path old : JsString) (temp : Nat)
    (s : Disk) : Prop where
  other : old ≠ path
  fresh : files old = none
  before : Before s0 (Function.update files old (some [])) ((temp, old) :: hs) s

theorem spec_allocateTemp (habsolute : PosixPath.isAbsolute path = true) :
    forall attempts, fileSystem.triple (Before s0 files hs)
      (allocateTemp path attempts)
      (fun t => Made s0 files hs path t.1 t.2)
      (fun _ => Before s0 files hs) := by
  intro attempts
  induction attempts with
  | zero => exact Solo.triple_raise fun _ h => h
  | succ attempts ih =>
      refine Solo.triple_bind (M := fun random s =>
        PosixPath.SLASH ∉ random ∧ Before s0 files hs s) ?_ fun random => ?_
      · refine triple_unwrap (fun s r a hb hr hk => ?_)
          (fun s r f hb _ hk => ?_)
        · rw [hk] at hr ⊢
          exact ⟨hr, hb⟩
        · rw [hk]
          exact hb
      · refine Solo.triple_bind (Solo.triple_ask (R := fun r s' =>
          (forall f, r = Except.error f -> Before s0 files hs s') ∧
          (forall h, r = Except.ok h ->
            Made s0 files hs path (tempPath path random) h s')) ?_) ?_
        · intro s r hb hr
          cases r with
          | error f => exact ⟨fun _ _ => hb.2, fun h heq => (by cases heq)⟩
          | ok h =>
              refine ⟨fun f heq => (by cases heq), fun h' heq => ?_⟩
              cases heq
              refine ⟨tempPath_ne habsolute hb.1, ?_, hb.2.creates hr.1⟩
              rw [<- hb.2.files]
              exact hr.2 rfl
        · intro r
          cases r with
          | error f =>
              dsimp only
              split
              · exact Solo.triple_mono ih (fun s h => h.1 f rfl)
                  (fun _ _ h => h) (fun _ _ h => h)
              · exact Solo.triple_raise fun s h => h.1 f rfl
          | ok h => exact Solo.triple_ret fun s hs => hs.2 h rfl

/-- Every round writes something, so the bytes are all there at the end. -/
theorem spec_writeAll : forall (rounds : Nat) (bytes done : List UInt8),
    bytes.length ≤ rounds -> fileSystem.triple
      (Before s0 (Function.update files old (some done)) ((temp, old) :: hs))
      (writeAll temp rounds bytes)
      (fun _ => Before s0 (Function.update files old (some (done ++ bytes)))
        ((temp, old) :: hs))
      (fun _ s => exists x, Before s0 (Function.update files old (some x))
        ((temp, old) :: hs) s) := by
  intro rounds
  induction rounds with
  | zero =>
      intro bytes done hle
      rw [List.length_eq_zero_iff.mp (Nat.le_zero.mp hle), List.append_nil]
      exact Solo.triple_ret fun _ h => h
  | succ rounds ih =>
      intro bytes done hle
      rw [writeAll]
      by_cases hnil : bytes = []
      · rw [if_pos hnil, hnil, List.append_nil]
        exact Solo.triple_ret fun _ h => h
      · rw [if_neg hnil]
        refine triple_call (M := fun (n : Int) =>
          Before s0 (Function.update files old
            (some (done ++ bytes.take n.toNat))) ((temp, old) :: hs))
          (fun s r n hb _ hk => ?_) (fun s r f hb _ hk => ?_) ?_
        · rw [hk]
          have hwritten := hb.writes (hb.opened (temp, old) List.mem_cons_self)
            (bytes.take n.toNat)
          rw [Function.update_self, Function.update_idem] at hwritten
          exact hwritten
        · rw [hk]
          exact ⟨done, hb⟩
        · intro n
          by_cases hbad : n ≤ 0 ∨ (bytes.length : Int) < n
          · rw [if_pos hbad]
            exact Solo.triple_raise fun s h => ⟨_, h⟩
          · rw [if_neg hbad]
            rw [not_or] at hbad
            have hnext := ih (bytes.drop n.toNat)
              (done ++ bytes.take n.toNat) (by
                rw [List.length_drop]
                omega)
            rw [List.append_assoc, List.take_append_drop] at hnext
            exact hnext

/-- What is left of a temporary file that could not be filled: it is there,
and its handle is done with once `close` is called once more. -/
def Unfilled (s0 : Disk) (files : JsString -> Option (List UInt8))
    (hs : List (Nat × JsString)) (old : JsString) (temp : Nat)
    (s : Disk) : Prop :=
  exists x, forall r, Before s0 (Function.update files old (some x)) hs
    (reply (PortCall.close temp) r s)

theorem Unfilled.of_before {x : List UInt8} {s : Disk}
    (h : Before s0 (Function.update files old (some x)) ((temp, old) :: hs) s) :
    Unfilled s0 files hs old temp s :=
  ⟨x, fun r => h.closes r⟩

theorem spec_fillTemp (bytes : List UInt8) :
    fileSystem.triple (Made s0 files hs path old temp)
      (fillTemp runtimeUid temp bytes)
      (fun _ => Before s0 (Function.update files old (some bytes)) hs)
      (fun _ => Unfilled s0 files hs old temp) := by
  have hquiet : forall {value : Type} {x : List UInt8} {p : Code value},
      Keeps (Before s0 (Function.update files old (some x))
        ((temp, old) :: hs)) p ->
      fileSystem.triple (Before s0 (Function.update files old (some x))
        ((temp, old) :: hs)) p
        (fun _ => Before s0 (Function.update files old (some x))
          ((temp, old) :: hs))
        (fun _ => Unfilled s0 files hs old temp) := fun h =>
    Solo.triple_mono h (fun _ h => h) (fun _ _ h => h)
      fun _ _ h => Unfilled.of_before h
  refine Solo.triple_bind (Solo.triple_mono (hquiet (keeps_chmod temp 0o600))
    (fun _ h => h.before) (fun _ _ h => h) (fun _ _ h => h)) fun _ => ?_
  refine Solo.triple_bind (hquiet (keeps_stat temp)) fun stat => ?_
  refine Solo.triple_bind (hquiet (keeps_require _ _)) fun _ => ?_
  refine Solo.triple_bind (Solo.triple_mono
    (spec_writeAll bytes.length bytes [] (Nat.le_refl _)) (fun _ h => h)
    (fun _ _ h => h) (fun _ _ h => ?_)) fun _ => ?_
  · obtain ⟨x, hx⟩ := h
    exact Unfilled.of_before hx
  · refine Solo.triple_bind (hquiet (spec_sync temp)) fun _ => ?_
    refine triple_unwrap (fun s r a hb _ _ => hb.closes r)
      (fun s r f hb _ _ => ⟨[] ++ bytes, fun r' => ?_⟩)
    exact (hb.closes r).closes_again r'

/-!
## The rename
-/

structure Replaced (s0 : Disk) (path : JsString) (bytes : List UInt8)
    (hs : List (Nat × JsString)) (post : List Entry) (s : Disk) : Prop where
  files : s.files = Function.update s0.files path (some bytes)
  opened : forall x, x ∈ hs -> s.handles x.1 = some x.2
  log : exists old pre, Quiet pre ∧
    s.log = s0.log ++ pre ++ Entry.renamed old path :: post

theorem spec_renameTemp {bytes : List UInt8} (hfresh : s0.files old = none) :
    fileSystem.triple
      (Before s0 (Function.update s0.files old (some bytes)) hs)
      (renameTemp runtimeUid old path)
      (fun _ => Replaced s0 path bytes hs [])
      (fun _ => Before s0 (Function.update s0.files old (some bytes)) hs) := by
  refine Solo.triple_bind spec_validateExistingTarget fun _ => ?_
  refine triple_unwrap (fun s r a hb _ hk => ?_) (fun s r f hb _ hk => ?_)
  · rw [hk]
    obtain ⟨pre, hpre, hquiet⟩ := hb.log
    refine ⟨?_, hb.opened, old, pre, hquiet, ?_⟩
    · show (fun p => if p = path then s.files old
        else if p = old then none else s.files p) = _
      rw [hb.files]
      funext p
      by_cases hp : p = path
      · rw [if_pos hp, hp, Function.update_self, Function.update_self]
      · rw [if_neg hp, Function.update_of_ne hp]
        by_cases hp' : p = old
        · rw [if_pos hp', hp', hfresh]
        · rw [if_neg hp', Function.update_of_ne hp']
    · show s.log ++ [Entry.renamed old path] = _
      rw [hpre]
  · rw [hk]
    exact hb

end Writing

/-!
## Cleaning up
-/

section Cleaning

variable {s0 : Disk} {files : JsString -> Option (List UInt8)}
variable {hs : List (Nat × JsString)} {runtimeUid : Int}
variable {path dir : JsString} {parent : Nat} {F : Thrown -> Disk -> Prop}

/-- The files before the rename: as they were, but for a temporary file that is
still owned. -/
inductive Owned (s0 : Disk) (path : JsString) : Option JsString ->
    (JsString -> Option (List UInt8)) -> Prop where
  | none : Owned s0 path none s0.files
  | some {old : JsString} (x : List UInt8) (hother : old ≠ path)
      (hfresh : s0.files old = none) :
      Owned s0 path (some old) (Function.update s0.files old (some x))

/-- Nothing has been replaced, and `close` has been called for every handle. -/
def Refused (s0 : Disk) (path : JsString) (s : Disk) : Prop :=
  exists files, files path = s0.files path ∧ Before s0 files [] s

theorem Owned.target {owned : Option JsString} (h : Owned s0 path owned files) :
    files path = s0.files path := by
  cases h with
  | none => rfl
  | some x hother hfresh => exact Function.update_of_ne hother.symm _ _

def OnceClosed (Q : Disk -> Prop) : Option Nat -> Disk -> Prop
  | none, s => Q s
  | some handle, s => forall r, Q (reply (PortCall.close handle) r s)

theorem spec_closeTemp {temp : Option Nat} {P : Disk -> Prop}
    (hP : forall s, P s -> OnceClosed (Before s0 files hs) temp s) :
    fileSystem.triple P (closeTemp temp) (fun _ => Before s0 files hs) F := by
  cases temp with
  | none => exact Solo.triple_ret fun s h => hP s h
  | some handle =>
      refine triple_fails (M := fun _ => Before s0 files hs)
        (E := fun _ => Before s0 files hs) ?_ (fun _ h => h) (fun _ _ h => h)
      exact triple_unwrap (fun s r _ h _ _ => hP s h r)
        (fun s r _ h _ _ => hP s h r)

theorem spec_unlinkTemp {owned : Option JsString}
    (howned : Owned s0 path owned files) :
    fileSystem.triple (Before s0 files hs) (unlinkTemp owned)
      (fun failed s => (failed = false -> Before s0 s0.files hs s) ∧
        Before s0 (if failed then files else s0.files) hs s) F := by
  cases howned with
  | none =>
      refine Solo.triple_ret fun s h => ⟨fun _ => h, h⟩
  | @some old x hother hfresh =>
      refine triple_fails (M := fun _ => Before s0 s0.files hs)
        (E := fun _ => Before s0 (Function.update s0.files old (some x)) hs)
        ?_ (fun s h => ⟨fun _ => h, h⟩)
        (fun _ s h => ⟨fun heq => (by cases heq), h⟩)
      refine triple_unwrap (fun s r a hb _ hk => ?_) (fun s r f hb _ hk => ?_)
      · rw [hk]
        refine ⟨?_, hb.opened, hb.closed, hb.log⟩
        show Function.update s.files old none = s0.files
        rw [hb.files, Function.update_idem, <- hfresh, Function.update_eq_self]
      · rw [hk]
        exact hb

/-- `not_committed` says that the temporary file is gone. -/
theorem spec_cleanUp {temp : Option Nat} {owned : Option JsString}
    {error : Thrown} {P : Disk -> Prop} (howned : Owned s0 path owned files)
    (hP : forall s, P s ->
      OnceClosed (Before s0 files [(parent, dir)]) temp s) :
    fileSystem.triple P (cleanUp temp owned parent error)
      (fun res s => res = ReplaceResult.not_committed ∧
        Before s0 s0.files [] s)
      (fun e s => e = Thrown.secure_json_file ∧ Refused s0 path s) := by
  refine Solo.triple_bind (spec_closeTemp hP) fun tempFailed => ?_
  refine Solo.triple_bind (spec_unlinkTemp howned) fun unlinkFailed => ?_
  refine Solo.triple_bind (M := fun _ s =>
    (unlinkFailed = false -> Before s0 s0.files [] s) ∧
      Before s0 (if unlinkFailed then files else s0.files) [] s)
    (triple_fails (M := fun _ s =>
        (unlinkFailed = false -> Before s0 s0.files [] s) ∧
          Before s0 (if unlinkFailed then files else s0.files) [] s)
      (E := fun _ s =>
        (unlinkFailed = false -> Before s0 s0.files [] s) ∧
          Before s0 (if unlinkFailed then files else s0.files) [] s)
      ?_ (fun _ h => h) (fun _ _ h => h)) fun parentFailed => ?_
  · exact triple_unwrap
      (fun s r _ h _ _ => ⟨fun heq => (h.1 heq).closes r, h.2.closes r⟩)
      (fun s r _ h _ _ => ⟨fun heq => (h.1 heq).closes r, h.2.closes r⟩)
  · by_cases hfailed : error = Thrown.security_validation ∨
        tempFailed = true ∨ unlinkFailed = true ∨ parentFailed = true
    · rw [if_pos hfailed]
      refine Solo.triple_raise fun s h => ⟨rfl, _, ?_, h.2⟩
      cases unlinkFailed with
      | true => exact howned.target
      | false => rfl
    · rw [if_neg hfailed]
      refine Solo.triple_ret fun s h => ⟨rfl, h.1 ?_⟩
      cases unlinkFailed with
      | true => exact absurd (Or.inr (Or.inr (Or.inl rfl))) hfailed
      | false => rfl

theorem spec_finish {bytes : List UInt8} :
    fileSystem.triple (Replaced s0 path bytes [(parent, dir)] [])
      (finish parent)
      (fun res s => res ≠ ReplaceResult.not_committed ∧ exists post,
        Replaced s0 path bytes [(parent, dir)] post s ∧
        (res = ReplaceResult.committed ->
          Entry.synced parent ∈ post ∧ Entry.closed parent ∈ post)) F := by
  refine Solo.triple_bind (M := fun syncFailed s => exists post,
    Replaced s0 path bytes [(parent, dir)] post s ∧
      (syncFailed = false -> Entry.synced parent ∈ post))
    (triple_fails (M := fun _ => Replaced s0 path bytes [(parent, dir)]
        [Entry.synced parent])
      (E := fun _ => Replaced s0 path bytes [(parent, dir)] [])
      (triple_unwrap (fun s r a h _ hk => ?_) (fun s r f h _ hk => ?_))
      (fun s h => ⟨_, h, fun _ => List.mem_singleton_self _⟩)
      (fun _ s h => ⟨_, h, fun heq => (by cases heq)⟩)) fun syncFailed => ?_
  · rw [hk]
    obtain ⟨old, pre, hquiet, hlog⟩ := h.log
    refine ⟨h.files, h.opened, old, pre, hquiet, ?_⟩
    show s.log ++ [Entry.synced parent] = _
    rw [hlog, List.append_assoc]
    rfl
  · rw [hk]
    exact h
  · refine Solo.triple_bind (M := fun closeFailed s => exists post,
      Replaced s0 path bytes [(parent, dir)] post s ∧
        (syncFailed = false -> Entry.synced parent ∈ post) ∧
        (closeFailed = false -> Entry.closed parent ∈ post))
      (triple_fails (M := fun _ s => exists post,
          Replaced s0 path bytes [(parent, dir)] post s ∧
            (syncFailed = false -> Entry.synced parent ∈ post) ∧
            Entry.closed parent ∈ post)
        (E := fun _ s => exists post,
          Replaced s0 path bytes [(parent, dir)] post s ∧
            (syncFailed = false -> Entry.synced parent ∈ post))
        (triple_unwrap (fun s r a h _ hk => ?_) (fun s r f h _ hk => ?_))
        (fun s h => ?_) (fun _ s h => ?_)) fun closeFailed => ?_
    · rw [hk]
      obtain ⟨post, h, hsynced⟩ := h
      obtain ⟨old, pre, hquiet, hlog⟩ := h.log
      refine ⟨post ++ [Entry.closed parent],
        ⟨h.files, h.opened, old, pre, hquiet, ?_⟩,
        fun heq => List.mem_append_left _ (hsynced heq),
        List.mem_append_right _ (List.mem_singleton_self _)⟩
      show s.log ++ [Entry.closed parent] = _
      rw [hlog, List.append_assoc]
      rfl
    · rw [hk]
      obtain ⟨post, h, hsynced⟩ := h
      exact ⟨post, ⟨h.files, h.opened, h.log⟩, hsynced⟩
    · obtain ⟨post, h, hsynced, hclosed⟩ := h
      exact ⟨post, h, hsynced, fun _ => hclosed⟩
    · obtain ⟨post, h, hsynced⟩ := h
      exact ⟨post, h, hsynced, fun heq => (by cases heq)⟩
    · split
      · refine Solo.triple_ret fun s h => ?_
        obtain ⟨post, h, _⟩ := h
        exact ⟨by decide, post, h, fun heq => (by cases heq)⟩
      · rename_i hclean
        rw [not_or, Bool.not_eq_true, Bool.not_eq_true] at hclean
        refine Solo.triple_ret fun s h => ?_
        obtain ⟨post, h, hsynced, hclosed⟩ := h
        exact ⟨by decide, post, h,
          fun _ => ⟨hsynced hclean.1, hclosed hclean.2⟩⟩

end Cleaning

/-!
## One replacement
-/

section Replacing

variable {s0 : Disk} {runtimeUid : Int} {path : JsString} {parent : Nat}

/-- What holds where a replacement returns: there has been no rename and
everything is as it was, or the target has the bytes. -/
def Returned (s0 : Disk) (path : JsString) (serialized : Option (List UInt8))
    (res : ReplaceResult) (s : Disk) : Prop :=
  (res = ReplaceResult.not_committed ∧ Before s0 s0.files [] s) ∨
    (res ≠ ReplaceResult.not_committed ∧ exists bytes parent post,
      serialized = some bytes ∧
      Replaced s0 path bytes [(parent, PosixPath.dirname path)] post s ∧
      (res = ReplaceResult.committed ->
        Entry.synced parent ∈ post ∧ Entry.closed parent ∈ post))

theorem spec_replaceTarget {bytes : List UInt8}
    (habsolute : PosixPath.isAbsolute path = true) :
    fileSystem.triple
      (Before s0 s0.files [(parent, PosixPath.dirname path)])
      (replaceTarget runtimeUid path bytes parent)
      (Returned s0 path (some bytes))
      (fun e s => e = Thrown.secure_json_file ∧ Refused s0 path s) := by
  refine Solo.triple_bind (Solo.triple_attempt
    (spec_allocateTemp habsolute TEMP_OPEN_ATTEMPTS)) fun made => ?_
  cases made with
  | error e =>
      exact Solo.triple_mono (spec_cleanUp Owned.none fun _ h => h)
        (fun _ h => h) (fun _ _ h => Or.inl h) (fun _ _ h => h)
  | ok t =>
      obtain ⟨old, temp⟩ := t
      refine Solo.triple_known (C := old ≠ path ∧ s0.files old = none)
        (fun s h => ⟨Made.other h, Made.fresh h⟩) fun hold => ?_
      refine Solo.triple_bind (Solo.triple_attempt (spec_fillTemp bytes))
        fun filled => ?_
      cases filled with
      | error e =>
          refine Solo.triple_exists (P := fun x s => forall r, Before s0
            (Function.update s0.files old (some x))
            [(parent, PosixPath.dirname path)]
            (reply (PortCall.close temp) r s)) fun x => ?_
          exact Solo.triple_mono
            (spec_cleanUp (Owned.some x hold.1 hold.2) fun _ h => h)
            (fun _ h => h) (fun _ _ h => Or.inl h) (fun _ _ h => h)
      | ok u =>
          refine Solo.triple_bind (Solo.triple_attempt
            (spec_renameTemp hold.2)) fun moved => ?_
          cases moved with
          | error e =>
              exact Solo.triple_mono
                (spec_cleanUp (Owned.some bytes hold.1 hold.2) fun _ h => h)
                (fun _ h => h) (fun _ _ h => Or.inl h) (fun _ _ h => h)
          | ok u =>
              refine Solo.triple_mono spec_finish (fun _ h => h)
                (fun res s h => Or.inr ⟨h.1, ?_⟩) (fun _ _ h => h)
              obtain ⟨post, hreplaced, hdurable⟩ := h.2
              exact ⟨bytes, parent, post, rfl, hreplaced, hdurable⟩

theorem spec_openForReplace :
    fileSystem.triple (Before s0 s0.files []) (openForReplace runtimeUid path)
      (fun parent => Before s0 s0.files [(parent, PosixPath.dirname path)])
      (fun e s => e = Thrown.secure_json_file ∧ Refused s0 path s) := by
  refine Solo.triple_bind (Solo.triple_catch spec_openValidatedParent
    fun e => Solo.triple_raise fun s h => ⟨rfl, _, rfl, h⟩) fun parent => ?_
  refine Solo.triple_bind (M := fun _ =>
    Before s0 s0.files [(parent, PosixPath.dirname path)])
    (Solo.triple_catch spec_validateExistingTarget fun e => ?_) fun _ => ?_
  · exact Solo.triple_bind (triple_ignore spec_close) fun _ =>
      Solo.triple_raise fun s h => ⟨rfl, _, rfl, h⟩
  · exact Solo.triple_ret fun _ h => h

theorem spec_replace {heap : Heap} {value : JsValue} {mode : Nat} :
    fileSystem.triple (Before s0 s0.files [])
      (replace runtimeUid heap path value mode)
      (Returned s0 path (serializeJson heap value))
      (fun e s => e = Thrown.secure_json_file ∧ Refused s0 path s) := by
  unfold replace
  split
  · rename_i hvalid
    cases serializeJson heap value with
    | none => exact Solo.triple_raise fun s h => ⟨rfl, _, rfl, h⟩
    | some bytes =>
        unfold validPath at hvalid
        simp only [Bool.and_eq_true] at hvalid
        exact Solo.triple_bind spec_openForReplace fun parent =>
          spec_replaceTarget hvalid.1.1
  · exact Solo.triple_raise fun s h => ⟨rfl, _, rfl, h⟩

end Replacing

end SecureJsonFile
end Server
end FlanTerminal

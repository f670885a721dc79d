import FlanTerminal.Foundation.EventLoop

/-!
# Rely and guarantee for event loops

An invariant of a component is proved one operation at a time.  A contract
gives the invariant, what every segment of an operation guarantees, and what an
operation relies on while it waits.  Invariant and guarantee are owed only
where a segment stops, because nothing else runs before; in exchange, after a
wait only what the rely relation keeps is still known.
-/

namespace FlanTerminal
namespace Foundation

variable {state : Type} {I : Interface} {error value op : Type}

/-- The first operation number not in use, and the operations in progress. -/
structure Census where
  next : Nat
  live : Nat -> Prop

namespace Census

def enter (cs : Census) : Census :=
  ⟨cs.next + 1, fun m => m = cs.next ∨ cs.live m⟩

def without (cs : Census) (n : Nat) : Census :=
  ⟨cs.next, fun m => m ≠ n ∧ cs.live m⟩

def Ok (cs : Census) : Prop :=
  forall m, cs.live m -> m < cs.next

end Census

/--
The terms under which operations share a state.  The invariant may depend on
which operations are in progress.  `guar` depends on whether the operation has
been parked before: only an operation that has not can run on top of another
one.
-/
structure Contract (state : Type) where
  inv : Census -> state -> Prop
  guar : Phase -> Nat -> state -> state -> Prop
  rely : Boundary -> Nat -> state -> state -> Prop

namespace Prog

/--
The weakest precondition of a program of operation `n`.  The arguments of the
postcondition are the result, the phase, the census, the state where the
running segment started and the state at the end.
-/
def wp (M : Machine state I error value op) (C : Contract state) (n : Nat)
    {result : Type}
    (Q : Except error result -> Phase -> Census -> state -> state -> Prop) :
    Prog state I error result -> Phase -> Census -> state -> state -> Prop
  | ret a, ph, cs, s0, s => Q (Except.ok a) ph cs s0 s
  | raise e, ph, cs, s0, s => Q (Except.error e) ph cs s0 s
  | act f k, ph, cs, s0, s => wp M C n Q (k s) ph cs s0 (f s)
  | call c k, ph, cs, s0, s =>
      match M.boundary c with
      | Boundary.sync =>
          forall r, M.allowed (M.issue n c s) n c r ->
            wp M C n Q (k r) ph cs s0 (M.reply n c r (M.issue n c s))
      | Boundary.callback =>
          C.inv cs (M.issue n c s) ∧ C.guar ph n s0 (M.issue n c s) ∧
            forall cs' s' r, cs'.Ok -> cs'.live n -> C.inv cs' s' ->
              C.rely Boundary.callback n (M.issue n c s) s' ->
              M.allowed s' n c r ->
              wp M C n Q (k r) ph cs' s' (M.reply n c r s')
      | Boundary.await =>
          C.inv cs (M.issue n c s) ∧ C.guar ph n s0 (M.issue n c s) ∧
            forall cs' s' r, cs'.Ok -> cs'.live n -> C.inv cs' s' ->
              C.rely Boundary.await n (M.issue n c s) s' ->
              M.allowed s' n c r ->
              wp M C n Q (k r) Phase.later cs' s' (M.reply n c r s')

variable {M : Machine state I error value op} {C : Contract state} {n : Nat}
variable {result other : Type}
variable {Q R : Except error result -> Phase -> Census -> state -> state -> Prop}
variable {ph : Phase} {cs : Census} {s0 s : state}

@[simp] theorem wp_ret (a : result) :
    wp M C n Q (ret a) ph cs s0 s <-> Q (Except.ok a) ph cs s0 s :=
  Iff.rfl

@[simp] theorem wp_raise (e : error) :
    wp M C n Q (raise e) ph cs s0 s <-> Q (Except.error e) ph cs s0 s :=
  Iff.rfl

@[simp] theorem wp_act (f : state -> state)
    (k : state -> Prog state I error result) :
    wp M C n Q (act f k) ph cs s0 s <-> wp M C n Q (k s) ph cs s0 (f s) :=
  Iff.rfl

theorem wp_sync {c : I.Call} {k : I.Reply c -> Prog state I error result}
    (hc : M.boundary c = Boundary.sync) :
    wp M C n Q (call c k) ph cs s0 s <->
      forall r, M.allowed (M.issue n c s) n c r ->
        wp M C n Q (k r) ph cs s0 (M.reply n c r (M.issue n c s)) := by
  simp only [wp, hc]

theorem wp_callback {c : I.Call} {k : I.Reply c -> Prog state I error result}
    (hc : M.boundary c = Boundary.callback) :
    wp M C n Q (call c k) ph cs s0 s <->
      C.inv cs (M.issue n c s) ∧ C.guar ph n s0 (M.issue n c s) ∧
        forall cs' s' r, cs'.Ok -> cs'.live n -> C.inv cs' s' ->
          C.rely Boundary.callback n (M.issue n c s) s' ->
          M.allowed s' n c r ->
          wp M C n Q (k r) ph cs' s' (M.reply n c r s') := by
  simp only [wp, hc]

theorem wp_await {c : I.Call} {k : I.Reply c -> Prog state I error result}
    (hc : M.boundary c = Boundary.await) :
    wp M C n Q (call c k) ph cs s0 s <->
      C.inv cs (M.issue n c s) ∧ C.guar ph n s0 (M.issue n c s) ∧
        forall cs' s' r, cs'.Ok -> cs'.live n -> C.inv cs' s' ->
          C.rely Boundary.await n (M.issue n c s) s' ->
          M.allowed s' n c r ->
          wp M C n Q (k r) Phase.later cs' s' (M.reply n c r s') := by
  simp only [wp, hc]

theorem wp_mono {p : Prog state I error result}
    (hQR : forall res ph cs s0 s, Q res ph cs s0 s -> R res ph cs s0 s)
    (h : wp M C n Q p ph cs s0 s) : wp M C n R p ph cs s0 s := by
  induction p generalizing ph cs s0 s with
  | ret a => exact hQR _ _ _ _ _ h
  | raise e => exact hQR _ _ _ _ _ h
  | act f k ih => exact ih s h
  | call c k ih =>
      cases hc : M.boundary c with
      | sync =>
          rw [wp_sync hc] at h ⊢
          intro r hr
          exact ih r (h r hr)
      | callback =>
          rw [wp_callback hc] at h ⊢
          refine ⟨h.1, h.2.1, ?_⟩
          intro cs' s' r hcs hlive hinv hrely hr
          exact ih r (h.2.2 cs' s' r hcs hlive hinv hrely hr)
      | await =>
          rw [wp_await hc] at h ⊢
          refine ⟨h.1, h.2.1, ?_⟩
          intro cs' s' r hcs hlive hinv hrely hr
          exact ih r (h.2.2 cs' s' r hcs hlive hinv hrely hr)

/-- What a sequence owes: the continuation is reached only on a value. -/
def seqPost (M : Machine state I error value op) (C : Contract state) (n : Nat)
    (g : result -> Prog state I error other)
    (Q : Except error other -> Phase -> Census -> state -> state -> Prop) :
    Except error result -> Phase -> Census -> state -> state -> Prop
  | Except.ok a, ph, cs, s0, s => wp M C n Q (g a) ph cs s0 s
  | Except.error e, ph, cs, s0, s => Q (Except.error e) ph cs s0 s

theorem wp_bind {p : Prog state I error result}
    {g : result -> Prog state I error other}
    {Q : Except error other -> Phase -> Census -> state -> state -> Prop} :
    wp M C n Q (p >>= g) ph cs s0 s <->
      wp M C n (seqPost M C n g Q) p ph cs s0 s := by
  induction p generalizing ph cs s0 s with
  | ret a => exact Iff.rfl
  | raise e => exact Iff.rfl
  | act f k ih => exact ih s
  | call c k ih =>
      rw [call_bind]
      cases hc : M.boundary c with
      | sync => simp only [wp_sync hc, ih]
      | callback => simp only [wp_callback hc, ih]
      | await => simp only [wp_await hc, ih]

/-- What a guarded program owes: the handler is reached only on an error. -/
def catchPost (M : Machine state I error value op) (C : Contract state)
    (n : Nat) (h : error -> Prog state I error result)
    (Q : Except error result -> Phase -> Census -> state -> state -> Prop) :
    Except error result -> Phase -> Census -> state -> state -> Prop
  | Except.ok a, ph, cs, s0, s => Q (Except.ok a) ph cs s0 s
  | Except.error e, ph, cs, s0, s => wp M C n Q (h e) ph cs s0 s

theorem wp_tryCatch {p : Prog state I error result}
    {h : error -> Prog state I error result} :
    wp M C n Q (tryCatch p h) ph cs s0 s <->
      wp M C n (catchPost M C n h Q) p ph cs s0 s := by
  induction p generalizing ph cs s0 s with
  | ret a => exact Iff.rfl
  | raise e => exact Iff.rfl
  | act f k ih => exact ih s
  | call c k ih =>
      rw [tryCatch_call]
      cases hc : M.boundary c with
      | sync => simp only [wp_sync hc, ih]
      | callback => simp only [wp_callback hc, ih]
      | await => simp only [wp_await hc, ih]

/-- What is owed after the `finally` clause of a program that ended in `res`:
an error of the clause takes the place of the result. -/
def closePost (Q : Except error result -> Phase -> Census -> state -> state ->
      Prop) (res : Except error result) :
    Except error Unit -> Phase -> Census -> state -> state -> Prop
  | Except.ok _, ph, cs, s0, s => Q res ph cs s0 s
  | Except.error e, ph, cs, s0, s => Q (Except.error e) ph cs s0 s

theorem wp_always {p : Prog state I error result}
    {q : Prog state I error Unit} :
    wp M C n Q (always p q) ph cs s0 s <->
      wp M C n (fun res => wp M C n (closePost Q res) q) p ph cs s0 s := by
  induction p generalizing ph cs s0 s with
  | ret a =>
      have hpost : seqPost M C n (fun _ => ret a) Q =
          closePost Q (Except.ok a) := by
        funext res
        cases res <;> rfl
      show wp M C n Q (q >>= fun _ => ret a) ph cs s0 s <-> _
      rw [wp_bind, hpost]
      exact Iff.rfl
  | raise e =>
      have hpost : seqPost M C n (fun _ => raise e) Q =
          closePost Q (Except.error e) := by
        funext res
        cases res <;> rfl
      show wp M C n Q (q >>= fun _ => raise e) ph cs s0 s <-> _
      rw [wp_bind, hpost]
      exact Iff.rfl
  | act f k ih => exact ih s
  | call c k ih =>
      show wp M C n Q (call c fun r => always (k r) q) ph cs s0 s <-> _
      cases hc : M.boundary c with
      | sync => simp only [wp_sync hc, ih]
      | callback => simp only [wp_callback hc, ih]
      | await => simp only [wp_await hc, ih]

/-- A program whose updates are all within `S` keeps a fact that every such
update, every call and every wait keeps. -/
theorem wp_within {S : state -> state -> Prop}
    {J : Phase -> Census -> state -> state -> Prop}
    (hact : forall ph cs s0 s s', J ph cs s0 s -> S s s' -> J ph cs s0 s')
    (hsync : forall ph cs s0 s c r, M.boundary c = Boundary.sync ->
      J ph cs s0 s -> M.allowed (M.issue n c s) n c r ->
        J ph cs s0 (M.reply n c r (M.issue n c s)))
    (hwait : forall ph cs s0 s c, M.boundary c ≠ Boundary.sync ->
      J ph cs s0 s -> C.inv cs (M.issue n c s) ∧
        C.guar ph n s0 (M.issue n c s) ∧ forall ph' cs' s' r, cs'.Ok ->
          cs'.live n -> C.inv cs' s' ->
          C.rely (M.boundary c) n (M.issue n c s) s' ->
          M.allowed s' n c r -> J ph' cs' s' (M.reply n c r s'))
    (hend : forall res ph cs s0 s, J ph cs s0 s -> Q res ph cs s0 s)
    {p : Prog state I error result} (hp : p.Within S)
    (h : J ph cs s0 s) : wp M C n Q p ph cs s0 s := by
  induction p generalizing ph cs s0 s with
  | ret a => exact hend _ _ _ _ _ h
  | raise e => exact hend _ _ _ _ _ h
  | act f k ih => exact ih s (hp s).2 (hact _ _ _ _ _ h (hp s).1)
  | call c k ih =>
      cases hc : M.boundary c with
      | sync =>
          rw [wp_sync hc]
          intro r hr
          exact ih r (hp r) (hsync _ _ _ _ c r hc h hr)
      | callback =>
          have hne : M.boundary c ≠ Boundary.sync := by
            rw [hc]
            nofun
          rcases hwait _ _ _ _ c hne h with ⟨hinv, hguar, hgo⟩
          rw [hc] at hgo
          rw [wp_callback hc]
          refine ⟨hinv, hguar, ?_⟩
          intro cs' s' r hok hlive hinv' hrely hr
          exact ih r (hp r) (hgo _ cs' s' r hok hlive hinv' hrely hr)
      | await =>
          have hne : M.boundary c ≠ Boundary.sync := by
            rw [hc]
            nofun
          rcases hwait _ _ _ _ c hne h with ⟨hinv, hguar, hgo⟩
          rw [hc] at hgo
          rw [wp_await hc]
          refine ⟨hinv, hguar, ?_⟩
          intro cs' s' r hok hlive hinv' hrely hr
          exact ih r (hp r) (hgo _ cs' s' r hok hlive hinv' hrely hr)

end Prog

/-!
## Soundness

A contract is kept by a machine when what one operation guarantees is what the
others rely on, and every operation meets its weakest precondition.  Then every
reachable configuration is in order: the invariant holds, and each waiting
operation can go on from whatever its rely relation leaves possible.
-/

def endPost (M : Machine state I error value op) (C : Contract state)
    (n : Nat) (o : op) (res : Except error value) (ph : Phase) (cs : Census)
    (s0 s : state) : Prop :=
  C.inv (cs.without n) (M.leave n o res s) ∧
    C.guar ph n s0 (M.leave n o res s)

structure Contract.Sound (M : Machine state I error value op)
    (C : Contract state) : Prop where
  rely_refl : forall b n s, C.rely b n s s
  rely_trans : forall {b n s s' s''},
    C.rely b n s s' -> C.rely b n s' s'' -> C.rely b n s s''
  first : forall {cs n m s s' b}, C.inv cs s -> n ≠ m ->
    C.guar Phase.first n s s' -> C.rely b m s s'
  later : forall {cs n m s s'}, C.inv cs s -> n ≠ m ->
    C.guar Phase.later n s s' -> C.rely Boundary.await m s s'
  env : forall {cs s s'}, C.inv cs s -> M.env s s' ->
    C.inv cs s' ∧ forall b m, C.rely b m s s'
  body : forall {cs : Census} {s o}, cs.Ok -> C.inv cs s -> M.admits s o ->
    (M.body cs.next o).wp M C cs.next (endPost M C cs.next o) Phase.first
      cs.enter s (M.enter cs.next o s)

def Frame.Ok (M : Machine state I error value op) (C : Contract state)
    (s : state) (f : Frame state I error value op) : Prop :=
  forall cs' s' r, Census.Ok cs' -> cs'.live f.id -> C.inv cs' s' ->
    C.rely (M.boundary f.call) f.id s s' ->
    M.allowed s' f.id f.call r ->
    (f.cont r).wp M C f.id (endPost M C f.id f.task) f.phase cs' s'
      (M.reply f.id f.call r s')

/-- Operations on top of another one have not been parked before. -/
def Nested : List (Frame state I error value op) -> Prop
  | [] => True
  | [_] => True
  | f :: g :: rest => f.phase = Phase.first ∧ Nested (g :: rest)

def Census.of (frames : List (Frame state I error value op)) (next : Nat) :
    Census :=
  ⟨next, fun m => exists f, f ∈ frames ∧ f.id = m⟩

def Config.census (cfg : Config state I error value op) : Census :=
  Census.of (cfg.stack ++ cfg.parked) cfg.next

structure Config.Waiting (M : Machine state I error value op)
    (C : Contract state) (cfg : Config state I error value op) : Prop where
  ids : forall f, f ∈ cfg.stack ++ cfg.parked -> f.id < cfg.next
  distinct : ((cfg.stack ++ cfg.parked).map Frame.id).Nodup
  stacked : forall f, f ∈ cfg.stack -> M.boundary f.call = Boundary.callback
  parked : forall f, f ∈ cfg.parked -> M.boundary f.call = Boundary.await
  nested : Nested cfg.stack
  frames : forall f, f ∈ cfg.stack ++ cfg.parked ->
    Frame.Ok M C cfg.shared f

structure Config.Ok (M : Machine state I error value op) (C : Contract state)
    (cfg : Config state I error value op) : Prop
    extends Config.Waiting M C cfg where
  inv : C.inv cfg.census cfg.shared

theorem Config.Ok.census_ok {M : Machine state I error value op}
    {C : Contract state} {cfg : Config state I error value op}
    (hok : Config.Ok M C cfg) : cfg.census.Ok := by
  intro m hm
  rcases hm with ⟨f, hf, hid⟩
  rw [← hid]
  exact hok.ids f hf

def Stopped (M : Machine state I error value op) (C : Contract state)
    (n : Nat) (o : op) (ph : Phase) (cs : Census) (s0 s : state) :
    Outcome state I error value -> Prop
  | Outcome.done res => endPost M C n o res ph cs s0 s
  | Outcome.wait c k =>
      C.inv cs s ∧ C.guar ph n s0 s ∧
        ((M.boundary c = Boundary.callback ∧
            Frame.Ok M C s ⟨n, o, ph, c, k⟩) ∨
          (M.boundary c = Boundary.await ∧
            Frame.Ok M C s ⟨n, o, Phase.later, c, k⟩))

theorem Seg.stopped {M : Machine state I error value op} {C : Contract state}
    {n : Nat} {o : op} {ph : Phase} {cs : Census} {s0 s s' : state}
    {p : Prog state I error value} {out : Outcome state I error value}
    (hseg : Seg M n p s s' out)
    (hwp : p.wp M C n (endPost M C n o) ph cs s0 s) :
    Stopped M C n o ph cs s0 s' out := by
  induction hseg with
  | ret => exact hwp
  | raise => exact hwp
  | act _ ih => exact ih hwp
  | sync r hc hr _ ih =>
      rw [Prog.wp_sync hc] at hwp
      exact ih (hwp r hr)
  | @stop c k s hc =>
      cases hb : M.boundary c with
      | sync => exact absurd hb hc
      | callback =>
          rw [Prog.wp_callback hb] at hwp
          refine ⟨hwp.1, hwp.2.1, Or.inl ⟨hb, ?_⟩⟩
          intro cs' s' r hcs hlive hinv hrely hr
          rw [hb] at hrely
          exact hwp.2.2 cs' s' r hcs hlive hinv hrely hr
      | await =>
          rw [Prog.wp_await hb] at hwp
          refine ⟨hwp.1, hwp.2.1, Or.inr ⟨hb, ?_⟩⟩
          intro cs' s' r hcs hlive hinv hrely hr
          rw [hb] at hrely
          exact hwp.2.2 cs' s' r hcs hlive hinv hrely hr

theorem Seg.done_wp {M : Machine state I error value op} {C : Contract state}
    {n : Nat} {ph : Phase} {cs : Census} {s0 s s' : state}
    {p : Prog state I error value} {out : Outcome state I error value}
    {Q : Except error value -> Phase -> Census -> state -> state -> Prop}
    (hseg : Seg M n p s s' out) {res : Except error value}
    (hout : out = Outcome.done res) (hwp : p.wp M C n Q ph cs s0 s) :
    Q res ph cs s0 s' := by
  induction hseg with
  | ret =>
      cases hout
      exact hwp
  | raise =>
      cases hout
      exact hwp
  | act _ ih => exact ih hout hwp
  | sync r hc hr _ ih =>
      rw [Prog.wp_sync hc] at hwp
      exact ih hout (hwp r hr)
  | stop _ => cases hout

theorem Frame.Ok.relied {M : Machine state I error value op}
    {C : Contract state} (hsound : C.Sound M)
    {s s' : state} {f : Frame state I error value op}
    (hf : Frame.Ok M C s f)
    (hrely : C.rely (M.boundary f.call) f.id s s') :
    Frame.Ok M C s' f := by
  intro cs' s'' r hcs hlive hinv hrely' hr
  exact hf cs' s'' r hcs hlive hinv (hsound.rely_trans hrely hrely') hr

theorem Nested.tail {f : Frame state I error value op}
    {rest : List (Frame state I error value op)} (h : Nested (f :: rest)) :
    Nested rest := by
  cases rest with
  | nil => trivial
  | cons g rest => exact h.2

theorem Nested.push {f : Frame state I error value op}
    {rest : List (Frame state I error value op)} (h : Nested rest)
    (hf : rest = [] ∨ f.phase = Phase.first) : Nested (f :: rest) := by
  cases rest with
  | nil => trivial
  | cons g rest =>
      cases hf with
      | inl hnil => cases hnil
      | inr hfirst => exact ⟨hfirst, h⟩

/-!
The census while operation `n` runs a segment counts `n` besides the waiting
operations.  It is the census of the configuration where the segment ends, with
`n` among the waiting operations or taken out.
-/

theorem Census.of_cons (f : Frame state I error value op)
    (frames : List (Frame state I error value op)) (next : Nat) :
    Census.of (f :: frames) next =
      ⟨next, fun m => m = f.id ∨ (Census.of frames next).live m⟩ := by
  have hlive : (Census.of (f :: frames) next).live =
      fun m => m = f.id ∨ (Census.of frames next).live m := by
    funext m
    apply propext
    constructor
    · rintro ⟨g, hg, hid⟩
      rcases List.mem_cons.mp hg with hg | hg
      · rw [hg] at hid
        exact Or.inl hid.symm
      · exact Or.inr ⟨g, hg, hid⟩
    · rintro (hm | ⟨g, hg, hid⟩)
      · exact ⟨f, List.mem_cons_self, hm.symm⟩
      · exact ⟨g, List.mem_cons_of_mem f hg, hid⟩
  exact congrArg (Census.mk next) hlive

theorem Census.of_perm {frames frames' : List (Frame state I error value op)}
    (h : frames.Perm frames') (next : Nat) :
    Census.of frames next = Census.of frames' next := by
  have hlive : (Census.of frames next).live = (Census.of frames' next).live := by
    funext m
    apply propext
    constructor
    · rintro ⟨f, hf, hid⟩
      exact ⟨f, h.mem_iff.mp hf, hid⟩
    · rintro ⟨f, hf, hid⟩
      exact ⟨f, h.mem_iff.mpr hf, hid⟩
  exact congrArg (Census.mk next) hlive

theorem Census.without_self {frames : List (Frame state I error value op)}
    {n next : Nat} (hfresh : forall f, f ∈ frames -> f.id ≠ n) :
    Census.without ⟨next, fun m => m = n ∨ (Census.of frames next).live m⟩ n =
      Census.of frames next := by
  have hlive : (fun m => m ≠ n ∧ (m = n ∨ (Census.of frames next).live m)) =
      (Census.of frames next).live := by
    funext m
    apply propext
    constructor
    · rintro ⟨hne, hm | hm⟩
      · exact absurd hm hne
      · exact hm
    · rintro ⟨f, hf, hid⟩
      refine ⟨?_, Or.inr ⟨f, hf, hid⟩⟩
      rw [← hid]
      exact hfresh f hf
  exact congrArg (Census.mk next) hlive

/--
The heart of soundness: a segment of operation `n` ran from `s0` while the
frames of `stack` and `parked` waited.  `hfirst` is the restriction on nesting.
-/
theorem Config.settle_ok {M : Machine state I error value op}
    {C : Contract state} (hsound : C.Sound M)
    {stack parked : List (Frame state I error value op)}
    {next next' n : Nat} {o : op} {ph : Phase} {s0 s : state} {cs : Census}
    {out : Outcome state I error value}
    (hinv0 : C.inv cs s0)
    (hok : Config.Waiting M C ⟨s0, stack, parked, next⟩)
    (hnext : next ≤ next') (hn : n < next')
    (hfresh : forall f, f ∈ stack ++ parked -> f.id ≠ n)
    (hfirst : stack = [] ∨ ph = Phase.first)
    (hstop : Stopped M C n o ph
      ⟨next', fun m => m = n ∨ (Census.of (stack ++ parked) next').live m⟩
      s0 s out) :
    Config.Ok M C (Config.settle M stack parked next' n o ph s out) := by
  -- every other operation sees the segment through its rely relation
  have hkeep : forall s', C.guar ph n s0 s' -> forall f,
      f ∈ stack ++ parked -> Frame.Ok M C s' f := by
    intro s' hguar f hf
    apply (hok.frames f hf).relied hsound
    have hne : n ≠ f.id := fun h => hfresh f hf h.symm
    cases List.mem_append.mp hf with
    | inl hstack =>
        cases hfirst with
        | inl hnil =>
            rw [hnil] at hstack
            cases hstack
        | inr hph =>
            rw [hph] at hguar
            exact hsound.first hinv0 hne hguar
    | inr hparked =>
        rw [hok.parked f hparked]
        cases ph with
        | first => exact hsound.first hinv0 hne hguar
        | later => exact hsound.later hinv0 hne hguar
  have hids : forall f, f ∈ stack ++ parked -> f.id < next' := by
    intro f hf
    exact Nat.lt_of_lt_of_le (hok.ids f hf) hnext
  have hnotin : n ∉ (stack ++ parked).map Frame.id := by
    intro hmem
    rcases List.mem_map.mp hmem with ⟨f, hf, hid⟩
    exact hfresh f hf hid
  cases out with
  | done res =>
      have hinv := hstop.1
      rw [Census.without_self hfresh] at hinv
      exact ⟨⟨hids, hok.distinct, hok.stacked, hok.parked, hok.nested,
        hkeep _ hstop.2⟩, hinv⟩
  | wait c k =>
      rcases hstop with ⟨hinv, hguar, hcase⟩
      rcases hcase with ⟨hb, hframe⟩ | ⟨hb, hframe⟩
      · have hne : M.boundary c ≠ Boundary.await := by
          rw [hb]
          intro h
          cases h
        simp only [Config.settle, hne, if_false]
        refine ⟨⟨?_, ?_, ?_, hok.parked, hok.nested.push hfirst, ?_⟩, ?_⟩
        · intro f hf
          rcases List.mem_cons.mp hf with hf | hf
          · rw [hf]
            exact hn
          · exact hids f hf
        · exact List.nodup_cons.mpr ⟨hnotin, hok.distinct⟩
        · intro f hf
          rcases List.mem_cons.mp hf with hf | hf
          · rw [hf]
            exact hb
          · exact hok.stacked f hf
        · intro f hf
          rcases List.mem_cons.mp hf with hf | hf
          · rw [hf]
            exact hframe
          · exact hkeep s hguar f hf
        · show C.inv (Census.of (_ :: (stack ++ parked)) next') s
          rw [Census.of_cons]
          exact hinv
      · simp only [Config.settle, hb, if_true]
        have hperm : forall f : Frame state I error value op,
            (stack ++ (parked ++ [f])).Perm (f :: (stack ++ parked)) := by
          intro f
          rw [← List.append_assoc]
          exact List.perm_append_singleton _ _
        refine ⟨⟨?_, ?_, hok.stacked, ?_, hok.nested, ?_⟩, ?_⟩
        · intro f hf
          rcases List.mem_cons.mp ((hperm _).mem_iff.mp hf) with hf | hf
          · rw [hf]
            exact hn
          · exact hids f hf
        · rw [((hperm _).map Frame.id).nodup_iff]
          exact List.nodup_cons.mpr ⟨hnotin, hok.distinct⟩
        · intro f hf
          rcases List.mem_append.mp hf with hf | hf
          · exact hok.parked f hf
          · rw [List.mem_singleton.mp hf]
            exact hb
        · intro f hf
          rcases List.mem_cons.mp ((hperm _).mem_iff.mp hf) with hf | hf
          · rw [hf]
            exact hframe
          · exact hkeep s hguar f hf
        · show C.inv (Census.of (stack ++ (parked ++ [_])) next') s
          rw [Census.of_perm (hperm _), Census.of_cons]
          exact hinv

theorem Config.Waiting.take {M : Machine state I error value op}
    {C : Contract state} {s : state} {next : Nat}
    {stack stack' parked parked' : List (Frame state I error value op)}
    {f : Frame state I error value op}
    (h : Config.Waiting M C ⟨s, stack, parked, next⟩)
    (hperm : (stack ++ parked).Perm (f :: (stack' ++ parked')))
    (hstack : forall g, g ∈ stack' -> g ∈ stack)
    (hparked : forall g, g ∈ parked' -> g ∈ parked)
    (hnested : Nested stack') :
    Config.Waiting M C ⟨s, stack', parked', next⟩ ∧
      forall g, g ∈ stack' ++ parked' -> g.id ≠ f.id := by
  have hmem : forall g, g ∈ stack' ++ parked' -> g ∈ stack ++ parked := by
    intro g hg
    exact hperm.mem_iff.mpr (List.mem_cons_of_mem f hg)
  have hdistinct : ((f :: (stack' ++ parked')).map Frame.id).Nodup :=
    (hperm.map Frame.id).nodup_iff.mp h.distinct
  have hsplit := List.nodup_cons.mp hdistinct
  constructor
  · exact ⟨fun g hg => h.ids g (hmem g hg), hsplit.2,
      fun g hg => h.stacked g (hstack g hg),
      fun g hg => h.parked g (hparked g hg), hnested,
      fun g hg => h.frames g (hmem g hg)⟩
  · intro g hg hid
    exact hsplit.1 (List.mem_map.mpr ⟨g, hg, hid⟩)

theorem Step.ok {M : Machine state I error value op} {C : Contract state}
    (hsound : C.Sound M) {cfg cfg' : Config state I error value op}
    (hstep : Step M cfg cfg') (hok : Config.Ok M C cfg) :
    Config.Ok M C cfg' := by
  cases hstep with
  | enter o hadmits hseg =>
      apply Config.settle_ok hsound hok.inv hok.toWaiting (Nat.le_succ _)
        (Nat.lt_succ_self _)
      · intro f hf
        exact Nat.ne_of_lt (hok.ids f hf)
      · exact Or.inr rfl
      · exact hseg.stopped (hsound.body hok.census_ok hok.inv hadmits)
  | @answer s f stack parked next s' out r hr hseg =>
      have hmem : f ∈ (f :: stack) ++ parked :=
        List.mem_append_left _ List.mem_cons_self
      have hrest := hok.toWaiting.take (List.Perm.refl (f :: (stack ++ parked)))
        (fun g hg => List.mem_cons_of_mem f hg) (fun g hg => hg)
        hok.nested.tail
      have hcensus : Config.census ⟨s, f :: stack, parked, next⟩ =
          ⟨next, fun m => m = f.id ∨
            (Census.of (stack ++ parked) next).live m⟩ :=
        Census.of_cons f (stack ++ parked) next
      apply Config.settle_ok hsound hok.inv hrest.1 (Nat.le_refl _)
        (hok.ids f hmem) hrest.2
      · cases stack with
        | nil => exact Or.inl rfl
        | cons g rest => exact Or.inr hok.nested.1
      · rw [← hcensus]
        exact hseg.stopped (hok.frames f hmem _ s r hok.census_ok
          ⟨f, hmem, rfl⟩ hok.inv (hsound.rely_refl _ _ _) hr)
  | @resume s front f back next s' out r hr hseg =>
      have hmem : f ∈ front ++ f :: back :=
        List.mem_append_right _ List.mem_cons_self
      have hperm : (front ++ f :: back).Perm (f :: (front ++ back)) :=
        List.perm_middle
      have hrest : Config.Waiting M C ⟨s, [], front ++ back, next⟩ ∧
          forall g, g ∈ [] ++ (front ++ back) -> g.id ≠ f.id :=
        hok.toWaiting.take hperm (fun g hg => hg)
          (fun g hg => hperm.mem_iff.mpr (List.mem_cons_of_mem f hg)) trivial
      have hcensus : Config.census ⟨s, [], front ++ f :: back, next⟩ =
          ⟨next, fun m => m = f.id ∨ (Census.of (front ++ back) next).live m⟩ :=
        (Census.of_perm hperm next).trans (Census.of_cons f _ next)
      apply Config.settle_ok hsound hok.inv hrest.1 (Nat.le_refl _)
        (hok.ids f hmem) hrest.2
      · exact Or.inl rfl
      · show Stopped M C f.id f.task f.phase
          ⟨next, fun m => m = f.id ∨ (Census.of (front ++ back) next).live m⟩
          s s' out
        rw [← hcensus]
        exact hseg.stopped (hok.frames f hmem _ s r hok.census_ok
          ⟨f, hmem, rfl⟩ hok.inv (hsound.rely_refl _ _ _) hr)
  | env henv =>
      have hinv := hsound.env hok.inv henv
      exact ⟨⟨hok.ids, hok.distinct, hok.stacked, hok.parked, hok.nested,
        fun f hf => (hok.frames f hf).relied hsound (hinv.2 _ _)⟩, hinv.1⟩

theorem Stopped.guar {M : Machine state I error value op} {C : Contract state}
    {stack parked : List (Frame state I error value op)} {next n : Nat}
    {o : op} {ph : Phase} {cs : Census} {s0 s : state}
    {out : Outcome state I error value}
    (h : Stopped M C n o ph cs s0 s out) :
    C.guar ph n s0 (Config.settle M stack parked next n o ph s out).shared := by
  cases out with
  | done res => exact h.2
  | wait c k =>
      have hguar := h.2.1
      simp only [Config.settle]
      split
      · exact hguar
      · exact hguar

theorem Step.guar {M : Machine state I error value op} {C : Contract state}
    (hsound : C.Sound M) {cfg cfg' : Config state I error value op}
    (hstep : Step M cfg cfg') (hok : Config.Ok M C cfg) :
    (exists ph n, C.guar ph n cfg.shared cfg'.shared) ∨
      M.env cfg.shared cfg'.shared := by
  cases hstep with
  | enter o hadmits hseg =>
      have hstop := hseg.stopped (hsound.body hok.census_ok hok.inv hadmits)
      exact Or.inl ⟨_, _, hstop.guar⟩
  | @answer s f stack parked next s' out r hr hseg =>
      have hmem : f ∈ (f :: stack) ++ parked :=
        List.mem_append_left _ List.mem_cons_self
      have hstop := hseg.stopped (hok.frames f hmem _ s r hok.census_ok
        ⟨f, hmem, rfl⟩ hok.inv (hsound.rely_refl _ _ _) hr)
      exact Or.inl ⟨_, _, hstop.guar⟩
  | @resume s front f back next s' out r hr hseg =>
      have hmem : f ∈ front ++ f :: back :=
        List.mem_append_right _ List.mem_cons_self
      have hstop := hseg.stopped (hok.frames f hmem _ s r hok.census_ok
        ⟨f, hmem, rfl⟩ hok.inv (hsound.rely_refl _ _ _) hr)
      exact Or.inl ⟨_, _, hstop.guar⟩
  | env henv => exact Or.inr henv

/-- Every reachable configuration of a machine that keeps a contract is in
order. -/
theorem Reachable.ok {M : Machine state I error value op} {C : Contract state}
    (hsound : C.Sound M) {s : state} {cfg : Config state I error value op}
    (hinit : C.inv ⟨0, fun _ => False⟩ s) (hreach : Reachable M s cfg) :
    Config.Ok M C cfg := by
  induction hreach with
  | refl =>
      have hlive : (Census.of ([] : List (Frame state I error value op))
          0).live = fun _ => False := by
        funext m
        apply propext
        constructor
        · rintro ⟨f, hf, _⟩
          exact absurd hf List.not_mem_nil
        · exact False.elim
      refine ⟨⟨fun f hf => absurd hf List.not_mem_nil, List.nodup_nil,
        fun f hf => absurd hf List.not_mem_nil,
        fun f hf => absurd hf List.not_mem_nil, trivial,
        fun f hf => absurd hf List.not_mem_nil⟩, ?_⟩
      show C.inv ⟨0, (Census.of ([] : List (Frame state I error value op))
        0).live⟩ s
      rw [hlive]
      exact hinit
  | tail _ hstep ih => exact hstep.ok hsound ih

end Foundation
end FlanTerminal

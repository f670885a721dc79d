import FlanTerminal.Foundation.RelyGuarantee

/-!
# Triples for operations that share a state

A pact is a contract in which every operation relies on the same kind of
relation, and every operation keeps that relation for all the others.  A triple
for a program of one operation says that the program keeps the pact at every
point, and what it establishes where it ends.  Its assertions speak of the
state only, so that programs are put together by the rules of a sequential
language; what others do shows in the rule for a call alone.
-/

namespace FlanTerminal
namespace Foundation

variable {state : Type} {I : Interface} {error value op : Type}

structure Pact (M : Machine state I error value op) where
  inv : Census -> state -> Prop
  /-- What operation `m` relies on, from one state to a later one. -/
  keeps : Nat -> state -> state -> Prop
  refl : forall m s, keeps m s s
  trans : forall {m s s' s''}, keeps m s s' -> keeps m s' s'' -> keeps m s s''
  env : forall {cs s s'}, inv cs s -> M.env s s' ->
    inv cs s' ∧ forall m, keeps m s s'

namespace Pact

variable {M : Machine state I error value op}

def contract (K : Pact M) : Contract state where
  inv := K.inv
  guar _ n s s' := forall m, m ≠ n -> K.keeps m s s'
  rely _ n s s' := K.keeps n s s'

/-- A change of the state by operation `n` that keeps the pact. -/
def Moves (K : Pact M) (n : Nat) (cs : Census) (s s' : state) : Prop :=
  K.inv cs s' ∧ forall m, m ≠ n -> K.keeps m s s'

structure Inside (K : Pact M) (n : Nat) (cs : Census) (s : state) : Prop where
  ok : cs.Ok
  live : cs.live n
  inv : K.inv cs s

def triple (K : Pact M) (n : Nat) {result : Type} (P : state -> Prop)
    (p : Prog state I error result)
    (Q : Except error result -> state -> Prop) : Prop :=
  forall ph cs s0 s, K.Inside n cs s -> (forall m, m ≠ n -> K.keeps m s0 s) ->
    P s ->
    p.wp M K.contract n
      (fun res _ cs s0 s => K.Inside n cs s ∧
        (forall m, m ≠ n -> K.keeps m s0 s) ∧ Q res s) ph cs s0 s

def returns {result : Type} (R : result -> state -> Prop) :
    Except error result -> state -> Prop
  | Except.ok a, s => R a s
  | Except.error _, _ => False

variable {K : Pact M} {n : Nat} {result other : Type}
variable {P P' : state -> Prop} {Q Q' : Except error result -> state -> Prop}

theorem Moves.refl {cs : Census} {s : state} (h : K.inv cs s) :
    K.Moves n cs s s :=
  ⟨h, fun m _ => K.refl m s⟩

theorem Moves.trans {cs : Census} {s s' s'' : state} (h : K.Moves n cs s s')
    (h' : K.Moves n cs s' s'') : K.Moves n cs s s'' :=
  ⟨h'.1, fun m hm => K.trans (h.2 m hm) (h'.2 m hm)⟩

theorem triple_ret {a : result} (h : forall s, P s -> Q (Except.ok a) s) :
    K.triple n P (Prog.ret a) Q :=
  fun _ _ _ s hin hkeeps hP => ⟨hin, hkeeps, h s hP⟩

theorem triple_raise {e : error} (h : forall s, P s -> Q (Except.error e) s) :
    K.triple n P (Prog.raise e) Q :=
  fun _ _ _ s hin hkeeps hP => ⟨hin, hkeeps, h s hP⟩

theorem triple_consequence {p : Prog state I error result}
    (h : K.triple n P p Q) (hP : forall s, P' s -> P s)
    (hQ : forall res s, Q res s -> Q' res s) : K.triple n P' p Q' := by
  intro ph cs s0 s hin hkeeps hP'
  apply Prog.wp_mono _ (h ph cs s0 s hin hkeeps (hP s hP'))
  intro res ph cs s0 s hend
  exact ⟨hend.1, hend.2.1, hQ res s hend.2.2⟩

theorem triple_exists {index : Type} {P : index -> state -> Prop}
    {p : Prog state I error result} (h : forall i, K.triple n (P i) p Q) :
    K.triple n (fun s => exists i, P i s) p Q := by
  intro ph cs s0 s hin hkeeps hP
  rcases hP with ⟨i, hi⟩
  exact h i ph cs s0 s hin hkeeps hi

theorem triple_pure {fact : Prop} {p : Prog state I error result}
    (h : fact -> K.triple n P p Q) :
    K.triple n (fun s => fact ∧ P s) p Q :=
  fun ph cs s0 s hin hkeeps hP =>
    h hP.1 ph cs s0 s hin hkeeps hP.2

/-- The invariant may be used as part of a precondition. -/
theorem triple_inside {p : Prog state I error result}
    (h : K.triple n (fun s => P s ∧ exists cs, K.Inside n cs s) p Q) :
    K.triple n P p Q :=
  fun ph cs s0 s hin hkeeps hP =>
    h ph cs s0 s hin hkeeps ⟨hP, cs, hin⟩

theorem triple_bind {p : Prog state I error result}
    {g : result -> Prog state I error other}
    {R : Except error result -> state -> Prop}
    {Q : Except error other -> state -> Prop}
    (hp : K.triple n P p R)
    (hg : forall a, K.triple n (R (Except.ok a)) (g a) Q)
    (hthrow : forall e s, R (Except.error e) s -> Q (Except.error e) s) :
    K.triple n P (p >>= g) Q := by
  intro ph cs s0 s hin hkeeps hP
  rw [Prog.wp_bind]
  apply Prog.wp_mono _ (hp ph cs s0 s hin hkeeps hP)
  intro res ph cs s0 s hend
  cases res with
  | ok a => exact hg a ph cs s0 s hend.1 hend.2.1 hend.2.2
  | error e => exact ⟨hend.1, hend.2.1, hthrow e s hend.2.2⟩

theorem triple_map {p : Prog state I error result} {f : result -> other}
    {Q : Except error other -> state -> Prop}
    (hp : K.triple n P p fun res => Q (res.map f)) :
    K.triple n P (f <$> p) Q :=
  triple_bind hp (fun _ => triple_ret fun _ h => h) fun _ _ h => h

theorem triple_tryCatch {p : Prog state I error result}
    {handler : error -> Prog state I error result}
    {R : Except error result -> state -> Prop}
    (hp : K.triple n P p R)
    (hret : forall a s, R (Except.ok a) s -> Q (Except.ok a) s)
    (hcatch : forall e, K.triple n (R (Except.error e)) (handler e) Q) :
    K.triple n P (tryCatch p handler) Q := by
  intro ph cs s0 s hin hkeeps hP
  rw [Prog.wp_tryCatch]
  apply Prog.wp_mono _ (hp ph cs s0 s hin hkeeps hP)
  intro res ph cs s0 s hend
  cases res with
  | ok a => exact ⟨hend.1, hend.2.1, hret a s hend.2.2⟩
  | error e => exact hcatch e ph cs s0 s hend.1 hend.2.1 hend.2.2

theorem triple_always {p : Prog state I error result}
    {q : Prog state I error Unit} {R : Except error result -> state -> Prop}
    (hp : K.triple n P p R)
    (hq : forall res, K.triple n (R res) q (returns fun _ => Q res)) :
    K.triple n P (p.always q) Q := by
  intro ph cs s0 s hin hkeeps hP
  rw [Prog.wp_always]
  apply Prog.wp_mono _ (hp ph cs s0 s hin hkeeps hP)
  intro res ph cs s0 s hend
  apply Prog.wp_mono _ (hq res ph cs s0 s hend.1 hend.2.1 hend.2.2)
  intro res' ph cs s0 s hend'
  cases res' with
  | ok _ => exact hend'
  | error _ => exact hend'.2.2.elim

theorem triple_act {f : state -> state}
    {k : state -> Prog state I error result}
    (hmoves : forall cs s, K.Inside n cs s -> P s -> K.Moves n cs s (f s))
    (hk : forall s, P s -> K.triple n (fun s' => s' = f s) (k s) Q) :
    K.triple n P (Prog.act f k) Q := by
  intro ph cs s0 s hin hkeeps hP
  have hmove := hmoves cs s hin hP
  exact hk s hP ph cs s0 (f s) ⟨hin.ok, hin.live, hmove.1⟩
    (fun m hm => K.trans (hkeeps m hm) (hmove.2 m hm)) rfl

theorem triple_read {g : state -> Prog state I error result}
    (hg : forall s, P s -> K.triple n (fun s' => s' = s) (g s) Q) :
    K.triple n P (Prog.read >>= g) Q :=
  triple_act (fun _ _ hin _ => Moves.refl hin.inv) hg

theorem triple_modify {f : state -> state} {R : Unit -> state -> Prop}
    (hmoves : forall cs s, K.Inside n cs s -> P s -> K.Moves n cs s (f s))
    (hpost : forall s, P s -> R () (f s)) :
    K.triple n P (Prog.modify f) (returns R) :=
  triple_act hmoves fun s hP =>
    triple_ret fun s' hs' => by
      rw [hs']
      exact hpost s hP

theorem triple_sync {c : I.Call} {R : I.Reply c -> state -> Prop}
    (hc : M.boundary c = Boundary.sync)
    (h : forall cs s r, K.Inside n cs s -> P s ->
      M.allowed (M.issue n c s) n c r ->
      K.Moves n cs s (M.reply n c r (M.issue n c s)) ∧
        R r (M.reply n c r (M.issue n c s))) :
    K.triple n P (Prog.ask c) (returns R) := by
  intro ph cs s0 s hin hkeeps hP
  show Prog.wp M K.contract n _ (Prog.call c Prog.ret) ph cs s0 s
  rw [Prog.wp_sync hc]
  intro r hr
  have hend := h cs s r hin hP hr
  exact ⟨⟨hin.ok, hin.live, hend.1.1⟩,
    fun m hm => K.trans (hkeeps m hm) (hend.1.2 m hm), hend.2⟩

/-- While the operation waits, only what the pact keeps is still known. -/
theorem triple_await {c : I.Call} {R : I.Reply c -> state -> Prop}
    (hc : M.boundary c = Boundary.await)
    (hissue : forall cs s, K.Inside n cs s -> P s ->
      K.Moves n cs s (M.issue n c s))
    (hreply : forall cs s s' r, K.Inside n cs s' -> P s ->
      K.keeps n (M.issue n c s) s' -> M.allowed s' n c r ->
      K.Moves n cs s' (M.reply n c r s') ∧ R r (M.reply n c r s')) :
    K.triple n P (Prog.ask c) (returns R) := by
  intro ph cs s0 s hin hkeeps hP
  have hmove := hissue cs s hin hP
  show Prog.wp M K.contract n _ (Prog.call c Prog.ret) ph cs s0 s
  rw [Prog.wp_await hc]
  refine ⟨hmove.1, fun m hm => K.trans (hkeeps m hm) (hmove.2 m hm), ?_⟩
  intro cs' s' r hok hlive hinv hrely hr
  have hend := hreply cs' s s' r ⟨hok, hlive, hinv⟩ hP hrely hr
  exact ⟨⟨hok, hlive, hend.1.1⟩, hend.1.2, hend.2⟩

/-- While others run on top of the operation, too. -/
theorem triple_callback {c : I.Call} {R : I.Reply c -> state -> Prop}
    (hc : M.boundary c = Boundary.callback)
    (hissue : forall cs s, K.Inside n cs s -> P s ->
      K.Moves n cs s (M.issue n c s))
    (hreply : forall cs s s' r, K.Inside n cs s' -> P s ->
      K.keeps n (M.issue n c s) s' -> M.allowed s' n c r ->
      K.Moves n cs s' (M.reply n c r s') ∧ R r (M.reply n c r s')) :
    K.triple n P (Prog.ask c) (returns R) := by
  intro ph cs s0 s hin hkeeps hP
  have hmove := hissue cs s hin hP
  show Prog.wp M K.contract n _ (Prog.call c Prog.ret) ph cs s0 s
  rw [Prog.wp_callback hc]
  refine ⟨hmove.1, fun m hm => K.trans (hkeeps m hm) (hmove.2 m hm), ?_⟩
  intro cs' s' r hok hlive hinv hrely hr
  have hend := hreply cs' s s' r ⟨hok, hlive, hinv⟩ hP hrely hr
  exact ⟨⟨hok, hlive, hend.1.1⟩, hend.1.2, hend.2⟩

theorem sound_of_wp
    (hbody : forall {cs : Census} {s o}, cs.Ok -> K.inv cs s ->
      M.admits s o ->
      (M.body cs.next o).wp M K.contract cs.next
        (endPost M K.contract cs.next o) Phase.first cs.enter s
        (M.enter cs.next o s)) :
    Contract.Sound M K.contract where
  rely_refl _ n s := K.refl n s
  rely_trans := fun h h' => K.trans h h'
  first := fun _ hne h => h _ (fun heq => hne heq.symm)
  later := fun _ hne h => h _ (fun heq => hne heq.symm)
  env := fun hinv henv =>
    ⟨(K.env hinv henv).1, fun _ m => (K.env hinv henv).2 m⟩
  body := hbody

theorem enter_ok {cs : Census} (hok : cs.Ok) : cs.enter.Ok := by
  intro m hm
  rcases hm with hm | hm
  · rw [hm]
    exact Nat.lt_succ_self _
  · exact Nat.lt_succ_of_lt (hok m hm)

/-- An operation keeps its contract when it has a triple from the first state
where the invariant holds again, and its end keeps the pact. -/
theorem wp_of_triple {cs : Census} {s s' : state} {o : op}
    {p : Prog state I error value} {Q : Except error value -> state -> Prop}
    (hok : cs.Ok) (hmoves : K.Moves cs.next cs.enter s s')
    (hp : K.triple cs.next (fun s'' => s'' = s') p Q)
    (hleave : forall cs'' s'' res, K.Inside cs.next cs'' s'' -> Q res s'' ->
      K.Moves cs.next (cs''.without cs.next) s'' (M.leave cs.next o res s'')) :
    p.wp M K.contract cs.next (endPost M K.contract cs.next o) Phase.first
      cs.enter s s' := by
  have hin : K.Inside cs.next cs.enter s' :=
    ⟨enter_ok hok, Or.inl rfl, hmoves.1⟩
  apply Prog.wp_mono _ (hp Phase.first cs.enter s s' hin hmoves.2 rfl)
  intro res ph cs'' s0 s'' hend
  have hmove := hleave cs'' s'' res hend.1 hend.2.2
  exact ⟨hmove.1, fun m hm => K.trans (hend.2.1 m hm) (hmove.2 m hm)⟩

/-- A pact is sound when every operation has a triple from its start, and its
end keeps the pact. -/
theorem sound
    (hbody : forall {cs : Census} {s o}, cs.Ok -> K.inv cs s ->
      M.admits s o ->
      K.Moves cs.next cs.enter s (M.enter cs.next o s) ∧
        exists Q : Except error value -> state -> Prop,
          K.triple cs.next (fun s' => s' = M.enter cs.next o s)
            (M.body cs.next o) Q ∧
          forall cs' s' res, K.Inside cs.next cs' s' -> Q res s' ->
            K.Moves cs.next (cs'.without cs.next) s'
              (M.leave cs.next o res s')) :
    Contract.Sound M K.contract := by
  apply sound_of_wp
  intro cs s o hok hinv hadmits
  rcases hbody hok hinv hadmits with ⟨henter, Q, htriple, hleave⟩
  exact wp_of_triple hok henter htriple hleave

theorem reachable (hsound : Contract.Sound M K.contract) {s : state}
    {cfg : Config state I error value op}
    (hinit : K.inv ⟨0, fun _ => False⟩ s) (hreach : Reachable M s cfg) :
    K.inv cfg.census cfg.shared :=
  (Reachable.ok hsound hinit hreach).inv

end Pact

end Foundation
end FlanTerminal

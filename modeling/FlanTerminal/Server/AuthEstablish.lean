import FlanTerminal.Server.AuthRules

/-!
# Establishing a session

A new session takes a cookie, an id and a generation that no session held has,
and displaces the sessions that are in its way.  All removals and the insertion
come first; the observers are told afterwards.
-/

namespace FlanTerminal
namespace Server
namespace AuthService

open Foundation

/-- The sessions and the log are the same; texts may have been drawn. -/
structure Draws (s s' : State) : Prop where
  sessions : s'.sessions = s.sessions
  log : s'.log = s.log
  tokens : forall t, t ∈ s.tokens -> t ∈ s'.tokens

theorem Draws.refl (s : State) : Draws s s :=
  ⟨rfl, rfl, fun _ ht => ht⟩

theorem Draws.trans {s s' s'' : State} (h : Draws s s') (h' : Draws s' s'') :
    Draws s s'' :=
  ⟨h'.sessions.trans h.sessions, h'.log.trans h.log,
    fun t ht => h'.tokens t (h.tokens t ht)⟩

theorem SameCore.draws {s s' : State} (h : SameCore s s') : Draws s s' := by
  refine ⟨h.sessions, h.log, ?_⟩
  intro t ht
  rw [h.tokens]
  exact ht

/-- A text that was drawn and that no session has had as its cookie or id. -/
structure Untaken (o : Options) (w : World) (s : State) (t : JsString) :
    Prop where
  drawn : t ∈ s.tokens
  apart : w.Fresh o -> forall r cookie cell,
    cellIn r s.log = some (cookie, cell) ->
      o.hash cookie ≠ o.hash t ∧ cell.id ≠ t

theorem Untaken.draws {o : Options} {w : World} {s s' : State} {t : JsString}
    (h : Untaken o w s t) (hs : Draws s s') : Untaken o w s' t := by
  constructor
  · exact hs.tokens t h.drawn
  · rw [hs.log]
    exact h.apart

theorem Untaken.unused {o : Options} {w : World} {s : State}
    {cookie id : JsString} (hcookie : Untaken o w s cookie)
    (hid : Untaken o w s id) (hfresh : w.Fresh o) : Unused o s cookie id := by
  refine ⟨⟨hcookie.drawn, hid.drawn⟩, ?_⟩
  intro r cookie' cell' hcell
  exact ⟨(hcookie.apart hfresh r cookie' cell' hcell).1,
    (hid.apart hfresh r cookie' cell' hcell).2⟩

section Rules

variable {o : Options} {w : World} {n : Nat} {value : Type}
variable {Q : Except Thrown value -> Phase -> Census -> State -> State -> Prop}
variable {ph : Phase} {owed : List Ref} {due : Ref -> List Nat}
variable {cs : Census} {s0 s s1 : State}

/-!
## Random texts
-/

theorem Base.draw {next : Nat} (h : Base o w next s) (t : JsString) :
    Base o w next { s with tokens := s.tokens ++ [t] } := by
  refine ⟨h.rep, h.history, h.good, h.numbered, h.observers, h.registered,
    h.older, ?_⟩
  intro hfresh
  have hold := h.distinct hfresh
  refine ⟨?_, hold.apart⟩
  intro r cookie cell hcell
  rcases hold.drawn r cookie cell hcell with ⟨hcookie, hid⟩
  exact ⟨List.mem_append_left _ hcookie, List.mem_append_left _ hid⟩

theorem Mid.draw (h : Mid o w ph n owed due cs s0 s) (t : JsString) :
    Mid o w ph n owed due cs s0 { s with tokens := s.tokens ++ [t] } :=
  ⟨h.base.draw t, h.debts, h.mine, h.guar, h.live, h.known⟩

theorem wp_token {size : Nat} {g : JsString -> Code value}
    (h : Mid o w ph n owed due cs s0 s)
    (hfail : forall s', Mid o w ph n owed due cs s0 s' ->
      Q (Except.error Thrown.AuthServiceError) ph cs s0 s')
    (hg : forall s' t, Mid o w ph n owed due cs s0 s' -> Draws s s' ->
      Untaken o w s' t -> Wp o w n Q (g t) ph cs s0 s') :
    Wp o w n Q (token size >>= g) ph cs s0 s := by
  apply (Prog.wp_sync rfl).mpr
  intro r hr
  cases r with
  | none => exact hfail s h
  | some bytes =>
      have hmid := h.draw (base64url bytes)
      have hdraws : Draws s
          { s with tokens := s.tokens ++ [base64url bytes] } :=
        ⟨rfl, rfl, fun t ht => List.mem_append_left _ ht⟩
      have huntaken : Untaken o w
          { s with tokens := s.tokens ++ [base64url bytes] }
          (base64url bytes) := by
        constructor
        · exact List.mem_append_right _ List.mem_cons_self
        · intro hfresh r cookie cell hcell
          rcases hfresh s n size bytes hr with ⟨hnew, hhash⟩
          rcases (h.base.distinct hfresh).drawn r cookie cell hcell with
            ⟨hcookie, hid⟩
          constructor
          · exact (hhash cookie hcookie).symm
          · intro heq
            rw [heq] at hid
            exact hnew hid
      show Wp o w n Q ((if bytes.length ≠ size then fail
        else pure (base64url bytes)) >>= g) ph cs s0
          { s with tokens := s.tokens ++ [base64url bytes] }
      by_cases hlength : bytes.length ≠ size
      · rw [if_pos hlength]
        exact hfail _ hmid
      · rw [if_neg hlength]
        exact hg _ _ hmid hdraws huntaken

theorem wp_freshCookie {attempts : Nat}
    {g : Option (JsString × JsString) -> Code value}
    (h : Mid o w ph n owed due cs s0 s)
    (hfail : forall s', Mid o w ph n owed due cs s0 s' ->
      Q (Except.error Thrown.AuthServiceError) ph cs s0 s')
    (hg : forall s' found, Mid o w ph n owed due cs s0 s' ->
      (forall cookie digest, found = some (cookie, digest) ->
        digest = o.hash cookie ∧ Untaken o w s' cookie) ->
      Wp o w n Q (g found) ph cs s0 s') :
    Wp o w n Q (freshCookie o attempts >>= g) ph cs s0 s := by
  induction attempts generalizing s with
  | zero => exact hg s none h nofun
  | succ attempts ih =>
      apply Prog.wp_bind.mpr
      unfold freshCookie
      apply wp_token h
      · exact hfail
      · intro s' cookie hmid _ huntaken
        apply Prog.wp_bind.mp
        simp only [Prog.read_bind, Prog.act_bind, Prog.wp_act, id]
        split
        · exact ih hmid
        · apply hg s' _ hmid
          intro c d heq
          cases heq
          exact ⟨rfl, huntaken⟩

theorem wp_freshId {attempts : Nat} {g : Option JsString -> Code value}
    (h : Mid o w ph n owed due cs s0 s)
    (hfail : forall s', Mid o w ph n owed due cs s0 s' ->
      Q (Except.error Thrown.AuthServiceError) ph cs s0 s')
    (hg : forall s' found, Mid o w ph n owed due cs s0 s' -> Draws s s' ->
      (forall id, found = some id -> Untaken o w s' id) ->
      Wp o w n Q (g found) ph cs s0 s') :
    Wp o w n Q (freshId attempts >>= g) ph cs s0 s := by
  induction attempts generalizing s with
  | zero => exact hg s none h (Draws.refl s) nofun
  | succ attempts ih =>
      apply Prog.wp_bind.mpr
      unfold freshId
      apply wp_token h
      · exact hfail
      · intro s' t hmid hdraws huntaken
        apply Prog.wp_bind.mp
        simp only [Prog.read_bind, Prog.act_bind, Prog.wp_act, id]
        split
        · apply ih hmid
          intro s'' found hmid' hdraws' hfound
          exact hg s'' found hmid' (hdraws.trans hdraws') hfound
        · apply hg s' _ hmid hdraws
          intro id heq
          cases heq
          exact huntaken

/-!
## Preparing and committing
-/

structure Prepared (o : Options) (w : World) (s : State)
    (p : PreparedSession) : Prop where
  newborn : Newborn o p.cookie p.session
  cookie : Untaken o w s p.cookie
  id : Untaken o w s p.session.id
  newer : forall r, r < s.sessions.allocated ->
    (s.sessions.heap r).generation < p.session.generation
  generation : p.session.generation ≤ s.sessions.generation

theorem Prepared.draws {s' : State} {p : PreparedSession}
    (h : Prepared o w s p) (hs : Draws s s') : Prepared o w s' p := by
  refine ⟨h.newborn, h.cookie.draws hs, h.id.draws hs, ?_, ?_⟩
  · rw [hs.sessions]
    exact h.newer
  · rw [hs.sessions]
    exact h.generation

theorem Mid.generation {g : Nat} (h : Mid o w ph n owed due cs s0 s)
    (hg : s.sessions.generation ≤ g) (hsafe : g ≤ 2 ^ 53) :
    Mid o w ph n owed due cs s0
      (s.onSessions fun t => { t with generation := g }) :=
  ⟨h.base.generation hg hsafe, h.debts, h.mine, h.guar, h.live, h.known⟩

theorem wp_nextGeneration {g : Nat -> Code value}
    (h : Mid o w ph n owed due cs s0 s)
    (hfail : forall s', Mid o w ph n owed due cs s0 s' ->
      Q (Except.error Thrown.AuthServiceError) ph cs s0 s')
    (hg : forall s' generation, Mid o w ph n owed due cs s0 s' ->
      s'.log = s.log -> s'.tokens = s.tokens ->
      (forall r, r < s'.sessions.allocated ->
        (s'.sessions.heap r).generation < generation) ->
      generation = s'.sessions.generation ->
      Wp o w n Q (g generation) ph cs s0 s') :
    Wp o w n Q (nextGeneration >>= g) ph cs s0 s := by
  unfold nextGeneration
  simp only [Prog.read_bind, Prog.modify_bind, Prog.act_bind, Prog.wp_act, id]
  have hle : s.sessions.generation ≤
      min (s.sessions.generation + 1) (2 ^ 53) :=
    le_min (Nat.le_succ _) h.base.rep.safe
  have hmid := h.generation hle (min_le_right _ _)
  by_cases hsafe : min (s.sessions.generation + 1) (2 ^ 53) < 2 ^ 53
  · rw [if_pos hsafe]
    refine hg _ (min (s.sessions.generation + 1) (2 ^ 53)) hmid rfl rfl ?_ rfl
    intro r hr
    apply lt_min
    · exact Nat.lt_succ_of_le (h.base.rep.bounded r hr)
    · exact (h.base.rep.bounded r hr).trans_lt (by omega)
  · rw [if_neg hsafe]
    exact hfail _ hmid

theorem wp_prepareSession {mode : AuthMode} {label : JsString}
    {upstreamExpiresAt : Option ℚ} {g : PreparedSession -> Code value}
    (h : Mid o w ph n owed due cs s0 s)
    (hfail : forall s', Mid o w ph n owed due cs s0 s' ->
      Q (Except.error Thrown.AuthServiceError) ph cs s0 s')
    (hg : forall s' p, Mid o w ph n owed due cs s0 s' ->
      Prepared o w s' p -> Wp o w n Q (g p) ph cs s0 s') :
    Wp o w n Q (prepareSession o mode label upstreamExpiresAt >>= g)
      ph cs s0 s := by
  have hfailed : forall s', Mid o w ph n owed due cs s0 s' ->
      Prog.seqPost (auth o w) (contract o w) n g Q
        (Except.error Thrown.AuthServiceError) ph cs s0 s' := hfail
  apply Prog.wp_bind.mpr
  unfold prepareSession
  apply wp_now
  · intro s' hs
    exact hfail s' (h.congr hs)
  intro sA t hsA
  apply wp_freshCookie (h.congr hsA) hfailed
  intro sB found hB hfound
  apply wp_freshId hB hfailed
  intro sC foundId hC hdraws hfoundId
  cases found with
  | none => exact hfail sC hC
  | some pair =>
      cases foundId with
      | none => exact hfail sC hC
      | some id =>
          rcases pair with ⟨cookie, digest⟩
          rcases hfound cookie digest rfl with ⟨hdigest, hcookie⟩
          have hcookieC := hcookie.draws hdraws
          have hidC := hfoundId id rfl
          apply wp_csrfCreate
          · intro s' hs
            exact hfail s' (hC.congr hs)
          intro sD issued hsD
          have hD := hC.congr hsD
          apply wp_nextGeneration hD hfailed
          intro sE generation hE hlog htokens hnewer hgeneration
          have hdrawsE : Untaken o w sE cookie ∧ Untaken o w sE id := by
            constructor
            · have hD' := hcookieC.draws hsD.draws
              exact ⟨htokens ▸ hD'.drawn, hlog ▸ hD'.apart⟩
            · have hD' := hidC.draws hsD.draws
              exact ⟨htokens ▸ hD'.drawn, hlog ▸ hD'.apart⟩
          cases hlabel : normalizeLabel o label with
          | none => exact hfail sE hE
          | some identityLabel =>
              simp only [need, Prog.pure_eq, Prog.ret_bind]
              split
              · apply hg sE _ hE
                refine ⟨⟨hdigest, rfl, ?_, rfl⟩, hdrawsE.1, hdrawsE.2,
                  hnewer, hgeneration.le⟩
                exact min_comm _ _
              · exact hfail sE hE

/-- What is known while the displaced sessions are removed: the new session
still fits in, and its cookie and id are still new. -/
structure Fits (o : Options) (w : World) (s : State) (p : PreparedSession) :
    Prop where
  new : Rep.New s.sessions p.session
  newborn : Newborn o p.cookie p.session
  unused : w.Fresh o -> Unused o s p.cookie p.session.id

theorem Prepared.fits {p : PreparedSession} (h : Prepared o w s p)
    (hdigest : s.sessions.byDigest.has p.session.digest = false)
    (hid : s.sessions.byId.has p.session.id = false) : Fits o w s p :=
  ⟨⟨hid, hdigest, h.newer, h.generation⟩, h.newborn,
    fun hfresh => h.cookie.unused h.id hfresh⟩

theorem Fits.removed {s' : State} {r : Ref} {p : PreparedSession}
    (h : Fits o w s p) (hrep : Rep o s.sessions)
    (hr : r ∈ s.sessions.held) (hsessions : s'.sessions = s.sessions.remove r)
    (hlog : s'.log = s.log ++ [Entry.removed n r])
    (htokens : s'.tokens = s.tokens) : Fits o w s' p := by
  refine ⟨?_, h.newborn, ?_⟩
  · rw [hsessions]
    exact h.new.remove hrep hr
  · intro hfresh
    have hold := h.unused hfresh
    constructor
    · rw [htokens]
      exact hold.drawn
    · intro x cookie' cell' hcell
      rw [hlog, cellIn_snoc] at hcell
      exact hold.apart x cookie' cell' (Option.or_none.symm.trans hcell)

theorem wp_removeEach {revocations : List (Ref × RevocationReason)}
    {p : PreparedSession} {g : Unit -> Code value}
    (h : Mid o w ph n owed due cs s0 s)
    (hheld : forall r, r ∈ revocations.map Prod.fst -> r ∈ s.sessions.held)
    (hnodup : (revocations.map Prod.fst).Nodup) (hfits : Fits o w s p)
    (hg : forall s',
      Mid o w ph n (owed ++ revocations.map Prod.fst) due cs s0 s' ->
      Fits o w s' p ->
      s'.sessions.held = (s.sessions.held.filter fun x =>
        decide (x ∉ revocations.map Prod.fst)) ->
      Wp o w n Q (g ()) ph cs s0 s') :
    Wp o w n Q (removeEach n revocations >>= g) ph cs s0 s := by
  induction revocations generalizing owed s with
  | nil =>
      apply hg s
      · simpa using h
      · exact hfits
      · simp
  | cons pair rest ih =>
      rcases pair with ⟨r, reason⟩
      rcases List.nodup_cons.mp hnodup with ⟨hnot, hnodup⟩
      have hr : r ∈ s.sessions.held := hheld r List.mem_cons_self
      apply Prog.wp_bind.mpr
      unfold removeEach
      apply wp_remove h (h.base.apart hr)
      · intro habsent
        exact absurd hr habsent
      · intro s' _ hsessions hlog htokens hmid
        apply Prog.wp_bind.mp
        apply ih hmid
        · intro x hx
          rw [hsessions]
          apply (h.base.rep.mem_held_remove hr).mpr
          refine ⟨hheld x (List.mem_cons_of_mem r hx), ?_⟩
          intro hxr
          rw [hxr] at hx
          exact hnot hx
        · exact hnodup
        · exact hfits.removed h.base.rep hr hsessions hlog htokens
        · intro s'' hmid' hfits' hheld'
          apply hg s''
          · simpa using hmid'
          · exact hfits'
          · rw [hheld', hsessions, h.base.rep.held_remove hr,
              List.filter_filter]
            apply List.filter_congr
            intro x _
            rw [Bool.eq_iff_iff]
            simp only [decide_eq_true_iff, Bool.and_eq_true, List.map_cons,
              List.mem_cons, not_or]
            exact and_comm

theorem wp_emitAll {revocations : List (Ref × RevocationReason)}
    (h : Mid o w ph n (revocations.map Prod.fst) nothing cs s0 s)
    (hnodup : (revocations.map Prod.fst).Nodup) :
    Wp o w n (fun res ph cs s0 s => res = Except.ok () ∧
      Settled o w n res ph cs s0 s) (emitAll n revocations) ph cs s0 s := by
  induction revocations generalizing ph cs s0 s with
  | nil => exact ⟨rfl, h⟩
  | cons pair rest ih =>
      rcases pair with ⟨r, reason⟩
      rcases List.nodup_cons.mp hnodup with ⟨hnot, hnodup⟩
      unfold emitAll
      simp only [Prog.read_bind, Prog.wp_act, id]
      apply Prog.wp_bind.mpr
      apply Prog.wp_mono _ (wp_emitRevocation h hnot (Since.refl n s))
      rintro res ph' cs' s0' s' ⟨hres, hmid, _⟩
      rw [hres]
      exact ih hmid hnodup

/-- The new session enters the maps; only an operation that has waited may do
this. -/
theorem Mid.established {p : PreparedSession}
    (h : Mid o w Phase.later n owed due cs s0 s) (hfits : Fits o w s p)
    (hroom : s.sessions.held.length < o.max) :
    Mid o w Phase.later n owed due cs s0
      ((s.onSessions (Sessions.insert · p.session)).record
        (Entry.established n s.sessions.allocated p.cookie p.session)) := by
  apply h.step _ rfl rfl (h.mine.quiet rfl)
  · intro hfirst
    cases hfirst
  · exact h.base.established hfits.new hroom hfits.newborn hfits.unused
      h.known

/-- Code that neither waits nor touches what the invariant is about. -/
def Brief (o : Options) (w : World) (n : Nat) (p : Code Unit) : Prop :=
  forall (Q : Except Thrown Unit -> Phase -> Census -> State -> State -> Prop)
    ph cs s0 s, (forall res s', SameCore s s' -> Q res ph cs s0 s') ->
    Wp o w n Q p ph cs s0 s

theorem brief_pure (o : Options) (w : World) (n : Nat) :
    Brief o w n (pure ()) := by
  intro Q ph cs s0 s hQ
  exact hQ (Except.ok ()) s (SameCore.refl s)

theorem brief_resetLimiter (o : Options) (w : World) (n : Nat)
    (address : JsString) : Brief o w n (resetLimiter address) := by
  intro Q ph cs s0 s hQ
  apply wp_at_once rfl rfl
  intro s' r hs
  cases r with
  | none => exact hQ _ s' hs
  | some _ => exact hQ _ s' hs

theorem wp_commitSession {p : PreparedSession} {beforeCommit : Code Unit}
    (hbrief : Brief o w n beforeCommit)
    (h : Mid o w Phase.later n [] nothing cs s0 s)
    (hprepared : Prepared o w s p) :
    Wp o w n (Settled o w n) (commitSession o n p beforeCommit)
      Phase.later cs s0 s := by
  unfold commitSession
  simp only [Prog.read_bind, Prog.wp_act, id]
  split
  · exact h
  · rename_i hfree
    rw [Bool.not_eq_true, Bool.or_eq_false_iff] at hfree
    apply wp_now
    · intro s' hs
      exact h.congr hs
    intro sA t hsA
    simp only [Prog.wp_act, id]
    apply Prog.wp_bind.mpr
    apply hbrief
    intro res sB hsB
    have hA := h.congr hsA
    have hB := hA.congr hsB
    cases res with
    | error e => exact hB
    | ok _ =>
        have hsame : SameCore s sB :=
          ⟨hsB.sessions.trans hsA.sessions, hsB.log.trans hsA.log,
            hsB.observers.trans hsA.observers,
            hsB.nextObserver.trans hsA.nextObserver,
            hsB.tokens.trans hsA.tokens⟩
        have hfits : Fits o w sB p := by
          apply (hprepared.draws hsame.draws).fits
          · rw [hsame.sessions]
            exact hfree.1
          · rw [hsame.sessions]
            exact hfree.2
        rcases displaced_room hA.base.rep t with ⟨hheld, hnodup, hroom⟩
        apply wp_removeEach hB _ hnodup hfits
        · intro sC hC hfitsC hheldC
          rw [hsB.sessions] at hheldC
          rw [← hheldC] at hroom
          have hD := hC.established hfitsC hroom
          simp only [Prog.modify_bind, Prog.wp_act]
          apply Prog.wp_bind.mpr
          apply Prog.wp_mono _ (wp_emitAll hD hnodup)
          rintro res ph' cs' s0' s' ⟨hres, hsettled⟩
          rw [hres]
          exact hsettled
        · rw [hsB.sessions]
          exact hheld

theorem wp_safeEstablish {mode : AuthMode} {label : JsString}
    {upstreamExpiresAt : Option ℚ} {beforeCommit : Code Unit}
    (hbrief : Brief o w n beforeCommit)
    (h : Mid o w Phase.later n [] nothing cs s0 s) :
    Wp o w n (Settled o w n)
      (safeEstablish o n mode label upstreamExpiresAt beforeCommit)
      Phase.later cs s0 s := by
  apply wp_prepareSession h
  · intro s' hmid
    exact hmid
  · intro s' p hmid hprepared
    exact wp_commitSession hbrief hmid hprepared

end Rules

end AuthService
end Server
end FlanTerminal

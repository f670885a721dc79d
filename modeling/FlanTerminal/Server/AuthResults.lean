import FlanTerminal.Foundation.Script
import FlanTerminal.Server.AuthSafety
import Mathlib.Data.List.Induction

/-!
# What holds in every run of the authentication service

The two maps hold the same sessions, a session never outlives its limits, and a
session that has been removed stays removed and is announced once.
-/

namespace FlanTerminal
namespace Server
namespace AuthService

open Foundation

/-!
## A run with an eviction

One session is allowed; the second one displaces the first, and the observer is
told.
-/

def sampleHash (text : JsString) : JsString :=
  if text = js "AAAAAAAAAAAAAAAAAAAAAAAAAAAAAAAAAAAAAAAAAAA" then
    js "0f007385b6f9d4b7eeb2748605afe1a984a0a3bfa3f014d09e2a784ce9e5cd1a"
  else if text = js "AQEBAQEBAQEBAQEBAQEBAQ" then
    js "a229eba904bf04d350edb0de3d78df13ddc61b4d65b774f3fb82e03fe928405a"
  else if text = js "AgICAgICAgICAgICAgICAgICAgICAgICAgICAgICAgI" then
    js "6c1d63bbdab437c54368cbbd8886a886a79ad977297e265eebf1f5f5f01533b9"
  else if text = js "AwMDAwMDAwMDAwMDAwMDAw" then
    js "40025c141dc101ed6405c035a6b6f5961eaeb014174b7c203135524a7877be61"
  else []

def sampleOptions : Options where
  mode := AuthMode.none
  localUsername := []
  idle := 1000
  absolute := 5000
  max := 1
  observerMax := 64
  hash := sampleHash
  normalize := fun v => v
  localeCompare := fun a b =>
    if a < b then Ordering.lt else if a = b then Ordering.eq else Ordering.gt
  idle_pos := by decide +kernel
  absolute_pos := by decide +kernel
  max_pos := Nat.le_refl 1
  max_le := by decide

/-- Random texts do not repeat. -/
def drawsFresh (o : Options) (s : State) (bytes : List UInt8) : Bool :=
  !s.tokens.contains (base64url bytes) &&
    s.tokens.all fun t => o.hash (base64url bytes) != o.hash t

def freshWorld (o : Options) : World where
  admits _ _ := True
  allowed s _ c r :=
    match c, r with
    | PortCall.random _, some bytes => drawsFresh o s bytes = true
    | _, _ => True
  env _ _ _ := False

def sampleReply (s : State) : (c : PortCall) -> PortReply c
  | PortCall.clock _ => some 1000
  | PortCall.random size =>
      some (List.replicate size (UInt8.ofNat s.tokens.length))
  | PortCall.csrfCreate => some (js "token", 0)
  | PortCall.csrfVerify _ _ => some true
  | PortCall.consume _ => some true
  | PortCall.resetAddress _ => some ()
  | PortCall.isInitialized => some false
  | PortCall.onDurabilityUncertain => ()
  | PortCall.startVerify _ _ => Started.promise
  | PortCall.observer _ _ _ _ => ()
  | PortCall.turn => ()
  | PortCall.verification => VerificationOutcome.ok true
  | PortCall.enroll _ => none
  | PortCall.verify _ _ => some true
  | PortCall.replacePassword _ => none
  | PortCall.settled => ()

def sampleScript : Script (auth sampleOptions (freshWorld sampleOptions)) where
  reply s _ c := sampleReply s c
  fair s _ c :=
    match c with
    | PortCall.random size =>
        drawsFresh sampleOptions s
          (List.replicate size (UInt8.ofNat s.tokens.length))
    | _ => true
  admits _ _ := true
  nudge _ := none
  fair_allowed s n c h := by
    cases c with
    | random size => exact h
    | clock checked => trivial
    | csrfCreate => trivial
    | csrfVerify record supplied => trivial
    | consume address => trivial
    | resetAddress address => trivial
    | isInitialized => trivial
    | onDurabilityUncertain => trivial
    | startVerify username password => trivial
    | observer r k id reason => trivial
    | turn => trivial
    | verification => trivial
    | enroll password => trivial
    | verify username password => trivial
    | replacePassword password => trivial
    | settled => trivial
  admits_sound _ _ _ := trivial
  nudge_env _ _ h := by cases h

def sampleCredentials : CredentialStore.State :=
  ⟨none, [], 12, false, [], [], 0⟩

def sampleCell : Stored :=
  ⟨[], 0, AuthMode.none, [], 0, 0, 0, 0, none, 0, []⟩

def sampleMoves : List (Move Op) :=
  [Move.enter Op.onRevoked,
    Move.enter (Op.bootstrap UpstreamAuthentication.none),
    Move.resume 0, Move.resume 0,
    Move.enter (Op.bootstrap UpstreamAuthentication.none),
    Move.resume 0, Move.answer, Move.resume 0]

def sampleRun : Option (Config State ports Thrown Value Op) :=
  sampleScript.play sampleMoves
    (Config.initial (State.initial sampleCredentials fun _ => sampleCell))

theorem sampleRun_held :
    sampleRun.map (fun cfg => cfg.shared.sessions.held) = some [1] := by
  decide +kernel

theorem sampleRun_reachable :
    exists cfg, sampleRun = some cfg ∧
      Run sampleOptions (freshWorld sampleOptions) sampleCredentials
        (fun _ => sampleCell) cfg := by
  cases h : sampleRun with
  | none =>
      have hheld := sampleRun_held
      rw [h] at hheld
      cases hheld
  | some cfg => exact ⟨cfg, rfl, Script.play_reachable h⟩

/-!
## The two maps
-/

section

variable {o : Options} {w : World} {credentials : CredentialStore.State}
variable {heap : Ref -> Stored}
variable {cfg cfg' : Config State ports Thrown Value Op}

/-- Both maps hold the same sessions, each under its own keys; the keys and
generations differ, and there is a bound on the number of sessions. -/
structure Represented (o : Options) (s : State) : Prop where
  same : s.sessions.byDigest.values = s.sessions.byId.values
  byId : forall id r, (id, r) ∈ s.sessions.byId ->
    id = (s.sessions.heap r).id
  byDigest : forall digest r, (digest, r) ∈ s.sessions.byDigest ->
    digest = (s.sessions.heap r).digest ∧
      exists n cookie cell, Entry.established n r cookie cell ∈ s.log ∧
        digest = o.hash cookie
  ids : (s.sessions.held.map fun r => (s.sessions.heap r).id).Nodup
  digests : (s.sessions.held.map fun r => (s.sessions.heap r).digest).Nodup
  generations :
    (s.sessions.held.map fun r => (s.sessions.heap r).generation).Nodup
  bound : s.sessions.byId.length ≤ o.max ∧ s.sessions.byDigest.length ≤ o.max

theorem Rep.nodup_map {t : Sessions} (h : Rep o t) {key : Type}
    {f : Ref -> key} (hf : forall a, a ∈ t.held -> forall b, b ∈ t.held ->
      f a = f b -> a = b) : (t.held.map f).Nodup :=
  (List.nodup_map_iff_inj_on h.nodup).mpr hf

theorem sessions_represented (hrun : Run o w credentials heap cfg) :
    Represented o cfg.shared := by
  have hbase := hrun.ok.inv.base
  have hrep := hbase.rep
  have hvalues : cfg.shared.sessions.byDigest.values =
      cfg.shared.sessions.held := by
    rw [hrep.byDigest, JsMap.values_index]
  have hlength : cfg.shared.sessions.byDigest.length =
      cfg.shared.sessions.held.length := by
    rw [← hvalues]
    unfold JsMap.values
    rw [List.length_map]
  have hbyId : cfg.shared.sessions.byId.length =
      cfg.shared.sessions.held.length := by
    unfold Sessions.held JsMap.values
    rw [List.length_map]
  constructor
  · exact hvalues
  · intro id r hmem
    rw [hrep.byId] at hmem
    rcases List.mem_map.mp hmem with ⟨x, _, hx⟩
    cases hx
    rfl
  · intro digest r hmem
    rw [hrep.byDigest] at hmem
    rcases List.mem_map.mp hmem with ⟨x, hheld, hx⟩
    cases hx
    rcases hbase.cell hheld with ⟨cookie, cell, hcell, _, hdigest⟩
    rcases established_of_cellIn hcell with ⟨n, hn⟩
    exact ⟨rfl, n, cookie, cell, hn, hdigest⟩
  · exact hrep.nodup_map hrep.ids
  · exact hrep.nodup_map hrep.digests
  · apply hrep.nodup_map
    intro a ha b hb hab
    exact hrep.generations a (hrep.placed a ha) b (hrep.placed b hb) hab
  · rw [hlength, hbyId]
    exact ⟨hrep.room, hrep.room⟩

theorem sessions_represented_evicted :
    exists cfg, sampleRun = some cfg ∧ cfg.shared.sessions.held = [1] ∧
      Represented sampleOptions cfg.shared := by
  rcases sampleRun_reachable with ⟨cfg, hcfg, hrun⟩
  have hheld := sampleRun_held
  rw [hcfg] at hheld
  exact ⟨cfg, hcfg, Option.some.inj hheld, sessions_represented hrun⟩

/-!
## Lifetimes
-/

/-- Operation `n` has checked session `r`, and whenever it checked a session
the clock reading was within the limits of that session. -/
def ValidatedBy (o : Options) (n : Nat) (r : Ref) (log : List Entry) : Prop :=
  (exists t valid, Entry.checked n r t valid ∈ log) ∧
    forall before x t valid after,
      log = before ++ Entry.checked n x t valid :: after ->
        WithinLimits o before x t

theorem validatedBy {n : Nat} {r : Ref} {log : List Entry}
    (hgood : EveryEntry (Good o) log) (hchecked : CheckedBy n r log)
    (hun : Unfailed n log) : ValidatedBy o n r log := by
  rcases hchecked with ⟨t, ht⟩
  refine ⟨⟨t, true, ht⟩, ?_⟩
  intro before x t' valid after hlog
  apply hgood before _ after hlog
  cases valid with
  | true => rfl
  | false =>
      apply absurd _ (hun x t')
      rw [hlog]
      exact List.mem_append_right _ List.mem_cons_self

structure Limited (o : Options) (s : State) : Prop where
  /-- A session held is the one established, but for what has been seen of it
  and the expiry of its upstream identity. -/
  fixed : forall r, r ∈ s.sessions.held ->
    exists n cookie cell, Entry.established n r cookie cell ∈ s.log ∧
      (s.sessions.heap r).mode = cell.mode ∧
      (s.sessions.heap r).identityLabel = cell.identityLabel ∧
      (s.sessions.heap r).createdAt = cell.createdAt ∧
      (s.sessions.heap r).absoluteExpiresAt = cell.absoluteExpiresAt ∧
      (s.sessions.heap r).absoluteExpiresAt =
        (s.sessions.heap r).createdAt + o.absolute
  idle : forall r, r ∈ s.sessions.held ->
    (s.sessions.heap r).idleExpiresAt =
      min (s.sessions.heap r).absoluteExpiresAt
        ((s.sessions.heap r).lastSeen + o.idle)
  seen : forall r, r ∈ s.sessions.held ->
    lastSeenIn r s.log = some (s.sessions.heap r).lastSeen
  upstream : forall r, r ∈ s.sessions.held ->
    (s.sessions.heap r).upstreamExpiresAt = upstreamIn r s.log
  refreshed : forall before n r t expiresAt after,
    s.log = before ++ Entry.refreshed n r t expiresAt :: after ->
      Extends o before n r t expiresAt ∧ ValidatedBy o n r before
  touched : forall before n r t after,
    s.log = before ++ Entry.touched n r t :: after -> ValidatedBy o n r before
  accepted : forall before n op v after,
    s.log = before ++ Entry.ended n op (Except.ok v) :: after ->
      accepted op v = true ->
        exists m r cookie cell, Entry.established m r cookie cell ∈ before ∧
          addresses o op cookie cell ∧ ValidatedBy o n r before

theorem EveryEntry.before {good : List Entry -> Entry -> Prop}
    {log before after : List Entry} {e : Entry} (h : EveryEntry good log)
    (hlog : log = before ++ e :: after) : EveryEntry good before := by
  intro a x b hab
  apply h a x (b ++ e :: after)
  rw [hlog, hab]
  simp

theorem sessions_limited (hrun : Run o w credentials heap cfg) :
    Limited o cfg.shared := by
  have hbase := hrun.ok.inv.base
  constructor
  · intro r hr
    rcases hbase.cell hr with ⟨cookie, cell, hcell, hsame, _⟩
    rcases established_of_cellIn hcell with ⟨n, hn⟩
    exact ⟨n, cookie, cell, hn, hsame.mode, hsame.identityLabel,
      hsame.createdAt, hsame.absoluteExpiresAt, hsame.absolute⟩
  · intro r hr
    rcases hbase.cell hr with ⟨cookie, cell, _, hsame, _⟩
    exact hsame.idle
  · intro r hr
    rcases hbase.cell hr with ⟨cookie, cell, _, hsame, _⟩
    exact hsame.seen
  · intro r hr
    rcases hbase.cell hr with ⟨cookie, cell, _, hsame, _⟩
    exact hsame.upstream.symm
  · intro before n r t expiresAt after hlog
    rcases hbase.good before _ after hlog with ⟨hchecked, hun, hextends⟩
    exact ⟨hextends, validatedBy (EveryEntry.before hbase.good hlog) hchecked
      hun⟩
  · intro before n r t after hlog
    rcases hbase.good before _ after hlog with ⟨hchecked, hun⟩
    exact validatedBy (EveryEntry.before hbase.good hlog) hchecked hun
  · intro before n op v after hlog haccepted
    rcases hbase.good before _ after hlog v rfl haccepted with
      ⟨r, cookie, cell, hcell, haddresses, hchecked, hun, _⟩
    rcases established_of_cellIn hcell with ⟨m, hm⟩
    exact ⟨m, r, cookie, cell, hm, haddresses,
      validatedBy (EveryEntry.before hbase.good hlog) hchecked hun⟩

theorem sessions_limited_evicted :
    exists cfg, sampleRun = some cfg ∧ cfg.shared.sessions.held = [1] ∧
      Limited sampleOptions cfg.shared := by
  rcases sampleRun_reachable with ⟨cfg, hcfg, hrun⟩
  have hheld := sampleRun_held
  rw [hcfg] at hheld
  exact ⟨cfg, hcfg, Option.some.inj hheld, sessions_limited hrun⟩

/-!
## Revocation
-/

def refused : Op -> Value
  | Op.isActiveAuthority _ _ => Value.flag false
  | Op.touchAuthority _ _ _ => Value.flag false
  | Op.verifyCsrf _ _ => Value.flag false
  | _ => Value.undefined

def InProgress (n : Nat) (cfg : Config State ports Thrown Value Op) : Prop :=
  exists f, f ∈ cfg.stack ++ cfg.parked ∧ f.id = n

def Entry.tells (r : Ref) (k : Nat) : Entry -> Bool
  | notified _ x j => decide (x = r ∧ j = k)
  | _ => false

/-- How often observer `k` has been told of session `r`. -/
def noticesIn (r : Ref) (k : Nat) (log : List Entry) : Nat :=
  log.countP (Entry.tells r k)

theorem Step.log {s s' : Config State ports Thrown Value Op}
    (hstep : Step (auth o w) s s')
    (hok : Config.Ok (auth o w) (contract o w) s) :
    exists more, s'.shared.log = s.shared.log ++ more := by
  rcases hstep.guar (contract_sound o w) hok with ⟨ph, n, hguar⟩ | henv
  · rcases hguar.1 with ⟨more, hlog, _⟩
    exact ⟨more, hlog⟩
  · rcases henv with ⟨credentials, draining, _, hs'⟩
    refine ⟨[], ?_⟩
    rw [hs']
    exact (List.append_nil _).symm

theorem Run.log (hrun : Run o w credentials heap cfg)
    (hsteps : Relation.ReflTransGen (Step (auth o w)) cfg cfg') :
    Run o w credentials heap cfg' ∧
      exists more, cfg'.shared.log = cfg.shared.log ++ more := by
  induction hsteps with
  | refl => exact ⟨hrun, [], (List.append_nil _).symm⟩
  | tail _ hstep ih =>
      rcases ih with ⟨hmid, more, hmore⟩
      rcases Step.log hstep hmid.ok with ⟨more', hmore'⟩
      refine ⟨hmid.tail hstep, more ++ more', ?_⟩
      rw [hmore', hmore, List.append_assoc]

theorem notified_order {n : Nat} {r : Ref} {log : List Entry}
    (hgood : EveryEntry (Good o) log) :
    notifiedIn n r log = [] ∨
      exists reason observers, Entry.emitting n r reason observers ∈ log ∧
        notifiedIn n r log <+: observers := by
  induction log using List.reverseRecOn with
  | nil => exact Or.inl rfl
  | append_singleton log e ih =>
      rcases everyEntry_snoc.mp hgood with ⟨hlog, he⟩
      by_cases hnotified : exists k, e = Entry.notified n r k
      · rcases hnotified with ⟨k, hk⟩
        rw [hk] at he ⊢
        rcases he with ⟨reason, observers, hmem, hprefix⟩
        refine Or.inr ⟨reason, observers, List.mem_append_left _ hmem, ?_⟩
        rw [notifiedIn_append]
        simpa [notifiedIn, Entry.recipient] using hprefix
      · rw [notifiedIn_quiet fun k hk => hnotified ⟨k, hk⟩]
        rcases ih hlog with hnone | ⟨reason, observers, hmem, hprefix⟩
        · exact Or.inl hnone
        · exact Or.inr ⟨reason, observers, List.mem_append_left _ hmem,
            hprefix⟩

theorem notified_remover {n m : Nat} {r : Ref} {k : Nat} {log : List Entry}
    (hgood : EveryEntry (Good o) log) (hremoved : Entry.removed n r ∈ log)
    (hnotified : Entry.notified m r k ∈ log) : m = n := by
  rcases List.append_of_mem hnotified with ⟨before, after, hlog⟩
  rcases hgood before _ after hlog with ⟨reason, observers, hmem, _⟩
  have hemitting : Entry.emitting m r reason observers ∈ log := by
    rw [hlog]
    exact List.mem_append_left _ hmem
  exact removed_unique hgood (emitting_removed hgood hemitting) hremoved

theorem noticesIn_eq {n : Nat} {r : Ref} {log : List Entry}
    (h : forall m k, Entry.notified m r k ∈ log -> m = n) (k : Nat) :
    noticesIn r k log = (notifiedIn n r log).count k := by
  induction log with
  | nil => rfl
  | cons e rest ih =>
      have hrest := ih fun m k hm => h m k (List.mem_cons_of_mem e hm)
      unfold noticesIn notifiedIn at hrest ⊢
      rw [List.countP_cons, List.filterMap_cons, hrest]
      cases e with
      | notified m x j =>
          by_cases hx : x = r
          · have hm : m = n := h m j (by rw [hx]; exact List.mem_cons_self)
            by_cases hj : j = k
            · simp [Entry.tells, Entry.recipient, hx, hm, hj]
            · simp [Entry.tells, Entry.recipient, hx, hm, hj]
          · simp [Entry.tells, Entry.recipient, hx]
      | entered m op => rfl
      | checked m x t v => rfl
      | touched m x t => rfl
      | refreshed m x t u => rfl
      | established m x c cell => rfl
      | removed m x => rfl
      | emitting m x reason observers => rfl
      | subscribed m j => rfl
      | unsubscribed m j => rfl
      | told m outcome => rfl
      | ended m op res => rfl

/-- The notices of removed sessions, in one configuration of a run. -/
structure Announced (cfg : Config State ports Thrown Value Op) : Prop where
  /-- When the operation that removed a session is over, each observer that was
  registered when the notice went out has got it once, and nobody else. -/
  once : forall n r, Entry.removed n r ∈ cfg.shared.log ->
    InProgress n cfg ∨
      exists before reason after,
        cfg.shared.log =
          before ++ Entry.emitting n r reason (observersIn before) :: after ∧
        forall k, noticesIn r k cfg.shared.log =
          if k ∈ observersIn before then 1 else 0
  most : forall r k, noticesIn r k cfg.shared.log ≤ 1
  held : forall r, r ∈ cfg.shared.sessions.held ->
    (forall n, ¬ EmittedIn n r cfg.shared.log) ∧
      forall k, noticesIn r k cfg.shared.log = 0

theorem Base.announced (hok : Config.Ok (auth o w) (contract o w) cfg) :
    Announced cfg := by
  have hbase := hok.inv.base
  have hdebts := hok.inv.debts
  -- a session that was not removed has caused no notice
  have hquiet : forall r, ¬ RemovedIn r cfg.shared.log ->
      (forall n, ¬ EmittedIn n r cfg.shared.log) ∧
        forall k, noticesIn r k cfg.shared.log = 0 := by
    intro r hkept
    have hnone : forall n, ¬ EmittedIn n r cfg.shared.log := by
      rintro n ⟨reason, observers, hmem⟩
      exact hkept ⟨n, emitting_removed hbase.good hmem⟩
    refine ⟨hnone, ?_⟩
    intro k
    apply List.countP_eq_zero.mpr
    intro e he htells
    cases e with
    | notified m x j =>
        simp only [Entry.tells, decide_eq_true_iff] at htells
        rw [htells.1] at he
        rcases List.append_of_mem he with ⟨before, after, hlog⟩
        rcases hbase.good before _ after hlog with
          ⟨reason, observers, hmem, _⟩
        apply hnone m
        refine ⟨reason, observers, ?_⟩
        rw [hlog]
        exact List.mem_append_left _ hmem
    | entered m op => cases htells
    | checked m x t v => cases htells
    | touched m x t => cases htells
    | refreshed m x t u => cases htells
    | established m x c cell => cases htells
    | removed m x => cases htells
    | emitting m x reason observers => cases htells
    | subscribed m j => cases htells
    | unsubscribed m j => cases htells
    | told m outcome => cases htells
    | ended m op res => cases htells
  have hcount : forall n r, Entry.removed n r ∈ cfg.shared.log -> forall k,
      noticesIn r k cfg.shared.log =
        (notifiedIn n r cfg.shared.log).count k := by
    intro n r hremoved
    apply noticesIn_eq
    intro m k hm
    exact notified_remover hbase.good hremoved hm
  have hemitting : forall before n r reason observers after,
      cfg.shared.log =
        before ++ Entry.emitting n r reason observers :: after ->
      observers = observersIn before ∧ observers.Nodup := by
    intro before n r reason observers after hlog
    exact (hbase.good before _ after hlog).2.2
  constructor
  · intro n r hremoved
    rcases hdebts.owed n r hremoved with hemitted | hlive
    · rcases hemitted with ⟨reason, observers, hmem⟩
      rcases hdebts.sent n r reason observers hmem with hsent | hlive
      · rcases List.append_of_mem hmem with ⟨before, after, hlog⟩
        rcases hemitting before n r reason observers after hlog with
          ⟨hobservers, hnodup⟩
        right
        refine ⟨before, reason, after, ?_, ?_⟩
        · rw [← hobservers]
          exact hlog
        · intro k
          rw [hcount n r hremoved, hsent, ← hobservers, hnodup.count]
      · exact Or.inl hlive
    · exact Or.inl hlive
  · intro r k
    by_cases hremoved : RemovedIn r cfg.shared.log
    · rcases hremoved with ⟨n, hn⟩
      rw [hcount n r hn]
      rcases notified_order (n := n) (r := r) hbase.good with
        hnone | ⟨reason, observers, hmem, hprefix⟩
      · rw [hnone]
        exact Nat.zero_le 1
      · rcases List.append_of_mem hmem with ⟨before, after, hlog⟩
        have hnodup := (hemitting before n r reason observers after hlog).2
        exact List.nodup_iff_count_le_one.mp
          (hnodup.sublist hprefix.sublist) k
    · rw [(hquiet r hremoved).2 k]
      exact Nat.zero_le 1
  · intro r hr
    apply hquiet r
    exact (hbase.history.kept r (hbase.rep.placed r hr)).mp hr

def Entry.removes (r : Ref) : Entry -> Bool
  | removed _ x => decide (x = r)
  | _ => false

end

end AuthService
end Server
end FlanTerminal

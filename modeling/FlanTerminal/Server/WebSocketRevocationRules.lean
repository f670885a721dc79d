import FlanTerminal.Server.WebSocketRevocationInvariant

/-!
# Rules for the operations on sockets

An operation that closes sockets picks registrations from what it has heard.
Its rules say that it calls no other sockets, and that a socket it has dealt
with stays as it left it, or better.
-/

namespace FlanTerminal
namespace Server
namespace WebSocketAuthIndex
namespace Revocation

open Foundation

section Rules

variable {options : Options} {m : Nat} {cs : Census} {w : World}

/-!
## One operation
-/

/-- What operation `m` can pick, from what has happened. -/
abbrev Choice := List Event -> Registration -> Prop

structure Plan (m : Nat) (o : Op) (w0 : World) (picked : Choice) : Prop where
  grows : forall trail more r, picked trail r -> picked (trail ++ more) r
  concerns : forall trail r, picked trail r ->
    Concerns r (Event.entered m o w0.index w0.closed)

/-- Operation `m`, which has started in `w0`, runs; it calls the sockets that
it has picked and takes no other registration away. -/
structure Here (m : Nat) (o : Op) (w0 : World) (picked : Choice)
    (w : World) : Prop where
  runs : Runs m w
  since : Since m w0 w
  started : exists between,
    w.trail = w0.trail ++ Event.entered m o w0.index w0.closed :: between
  mine : forall c r, Event.called m c ∈ w.trail -> Registered w0.index r ->
    Closes c r.socket -> picked w.trail r
  spared : forall r, Registered w0.index r ->
    (Registered w.index r ∧ (r.socket ∈ w.closed -> r.socket ∈ w0.closed)) ∨
      (exists e, e ∈ w.trail ∧ m < e.number ∧ Concerns r e) ∨
      picked w.trail r

/-- All but this socket. -/
def SettledBut (m : Nat) (socket : Nat) (w : World) : Prop :=
  forall e, e ∈ w.shut -> e.2 = m ->
    w.index.bySocket.get e.1 = none ∨ e.1 = socket

def Lasting (m : Nat) (F : World -> Prop) : Prop :=
  forall w w', Since m w w' -> F w -> F w'

/-- The operation has picked whatever is registered under this socket. -/
def Aims (w0 : World) (picked : Choice) (socket : Nat) (w : World) : Prop :=
  forall r, Registered w0.index r -> r.socket = socket -> picked w.trail r

variable {o : Op} {w0 : World} {picked : Choice} {socket : Nat}
variable {F : World -> Prop}

theorem Plan.grows_prefix (hplan : Plan m o w0 picked)
    {trail trail' : List Event} (h : trail <+: trail') {r : Registration}
    (hr : picked trail r) : picked trail' r := by
  rcases h with ⟨more, hmore⟩
  rw [← hmore]
  exact hplan.grows trail more r hr

theorem Plan.lasting_aims (hplan : Plan m o w0 picked) (socket : Nat) :
    Lasting m (Aims w0 picked socket) := by
  intro w w' hsince haims r hr hsocket
  exact hplan.grows_prefix hsince.trail (haims r hr hsocket)

theorem Lasting.and {G : World -> Prop} (hF : Lasting m F)
    (hG : Lasting m G) : Lasting m fun w => F w ∧ G w :=
  fun w w' h hboth => ⟨hF w w' h hboth.1, hG w w' h hboth.2⟩

theorem lasting_called (m : Nat) (e : Event) :
    Lasting m fun w => e ∈ w.trail :=
  fun _ _ h he => h.trail.subset he

theorem lasting_true (m : Nat) : Lasting m fun _ => True :=
  fun _ _ _ _ => trivial

theorem Settled.but (h : Settled m w) (socket : Nat) :
    SettledBut m socket w :=
  fun e he hem => Or.inl (h e he hem)

theorem SettledBut.settled (h : SettledBut m socket w)
    (hsocket : w.index.bySocket.get socket = none ∨ socket ∉ w.closed) :
    Settled m w := by
  intro e he hem
  rcases h e he hem with hnone | heq
  · exact hnone
  · rw [heq]
    rcases hsocket with hnone | hopen
    · exact hnone
    · have hclosed : socket ∈ w.closed := by
        rw [mem_closed, ← heq]
        exact Or.inr ⟨e.2, he⟩
      exact absurd hclosed hopen

theorem Here.entered (h : Here m o w0 picked w) :
    Event.entered m o w0.index w0.closed ∈ w.trail := by
  rcases h.started with ⟨between, hbetween⟩
  rw [hbetween]
  exact List.mem_append_right _ List.mem_cons_self

theorem Here.started_prefix (h : Here m o w0 picked w) {w' : World}
    (hpre : w.trail <+: w'.trail) : exists between,
    w'.trail = w0.trail ++ Event.entered m o w0.index w0.closed ::
      between := by
  rcases h.started with ⟨between, hbetween⟩
  rcases hpre with ⟨more, hmore⟩
  refine ⟨between ++ more, ?_⟩
  rw [← hmore, hbetween]
  simp

theorem Here.record (hplan : Plan m o w0 picked) (h : Here m o w0 picked w)
    {e : Event} (he : forall c, e ≠ Event.called m c) :
    Here m o w0 picked (w.record e) := by
  have hpre : w.trail <+: (w.record e).trail := List.prefix_append _ _
  refine ⟨⟨h.runs.active, h.runs.running, h.runs.top⟩, h.since.trans (since_record m w e),
    h.started_prefix hpre, ?_, ?_⟩
  · intro c r hc hr hcloses
    rcases List.mem_append.mp hc with hc | hc
    · exact hplan.grows_prefix hpre (h.mine c r hc hr hcloses)
    · exact absurd (List.mem_singleton.mp hc).symm (he c)
  · intro r hr
    rcases h.spared r hr with hsame | ⟨e', he', hrest⟩ | hpicked
    · exact Or.inl hsame
    · exact Or.inr (Or.inl ⟨e', hpre.subset he', hrest⟩)
    · exact Or.inr (Or.inr (hplan.grows_prefix hpre hpicked))

def World.waits (w : World) (m : Nat) (c : PortCall) : World :=
  (w.setCall m (some c)).record (Event.called m c)

theorem since_waits (w : World) (m : Nat) (c : PortCall) :
    Since m w (w.waits m c) :=
  ⟨List.prefix_append _ _, rfl, fun _ he => he, fun _ he => Or.inl he,
    fun _ hr => hr, fun _ hr => Or.inl hr⟩

theorem Here.resumes (hplan : Plan m o w0 picked)
    (h : Here m o w0 picked w) {c : PortCall} {w' : World}
    (haims : forall r, Registered w0.index r -> Closes c r.socket ->
      picked w.trail r)
    (hfit : Fit cs w') (hrelies : Relies m (w.waits m c) w')
    (hactive : m ∈ w.base.active)
    (hhead : w'.calls.head? = some (m, some c)) :
    Here m o w0 picked (w'.setCall m none) := by
  have hinner := hrelies.inner hactive
  have hsince : Since m w w' := (since_waits w m c).trans hinner.toSince
  have hcall : (m, some c) ∈ w'.calls := List.mem_of_head? hhead
  rcases hrelies.trail with ⟨more, hmore, hnumber⟩
  refine ⟨⟨hinner.active, setCall_self hcall,
    fun q hq => hfit.le_head hhead hq⟩, ?_, h.started_prefix hsince.trail, ?_, ?_⟩
  · have hsince' := h.since.trans hsince
    exact ⟨hsince'.trail, hsince'.lost, hsince'.shut, hsince'.late,
      hsince'.fewer, hsince'.careful⟩
  · intro d r hd hr hcloses
    apply hplan.grows_prefix hsince.trail
    change Event.called m d ∈ w'.trail at hd
    rw [hmore] at hd
    rcases List.mem_append.mp hd with hd | hd
    · rcases List.mem_append.mp hd with hd | hd
      · exact h.mine d r hd hr hcloses
      · cases List.mem_singleton.mp hd
        exact haims r hr hcloses
    · exact absurd rfl (hnumber hactive _ hd)
  · intro r hr
    rcases h.spared r hr with ⟨hr', hsame⟩ | ⟨e, he, hrest⟩ | hpicked
    · rcases hinner.spared r hr' with ⟨hr'', hsame'⟩ | hother | ⟨d, hd, hk⟩
      · exact Or.inl ⟨hr'', fun hclosed => hsame (hsame' hclosed)⟩
      · exact Or.inr (Or.inl hother)
      · cases hfit.call_unique hcall hd
        exact Or.inr (Or.inr
          (hplan.grows_prefix hsince.trail (haims r hr hk)))
    · exact Or.inr (Or.inl ⟨e, hsince.trail.subset he, hrest⟩)
    · exact Or.inr (Or.inr (hplan.grows_prefix hsince.trail hpicked))

/-!
## Rules for calls
-/

theorem issue_waits {c : PortCall} (hc : boundary c = Boundary.callback)
    (n : Nat) (w : World) :
    ((watched options).assuming Sound).issue n c w = w.waits n c := by
  have hne : boundary c ≠ Boundary.sync := by
    rw [hc]
    nofun
  exact if_neg hne

theorem allowed_head {c : PortCall} (hc : boundary c = Boundary.callback)
    {n : Nat} {w : World} {r : PortReply c}
    (h : ((watched options).assuming Sound).allowed w n c r) :
    w.calls.head? = some (n, some c) := by
  cases c with
  | isOpen _ => cases hc
  | verdict _ => cases hc
  | listen _ _ => cases hc
  | unlisten _ _ => cases hc
  | _ => exact h

theorem reply_setCall {c : PortCall} (hc : boundary c = Boundary.callback)
    (n : Nat) (r : PortReply c) (w : World) :
    ((watched options).assuming Sound).reply n c r w = w.setCall n none := by
  cases c with
  | isOpen _ => cases hc
  | verdict _ => cases hc
  | listen _ _ => cases hc
  | unlisten _ _ => cases hc
  | _ => rfl

theorem triple_call (hplan : Plan m o w0 picked) {c : PortCall}
    (hc : boundary c = Boundary.callback) (hF : Lasting m F) :
    (pact options).triple m
      (fun w => Here m o w0 picked w ∧ Settled m w ∧ F w ∧
        forall r, Registered w0.index r -> Closes c r.socket ->
          picked w.trail r)
      (Prog.ask (I := ports) c)
      (Pact.returns fun _ w => Here m o w0 picked w ∧ F w ∧
        Event.called m c ∈ w.trail ∧
        forall e, e ∈ w.shut -> e.2 = m ->
          w.index.bySocket.get e.1 = none ∨ Closes c e.1) := by
  refine Pact.triple_callback hc ?_ ?_
  · intro cs w hin ⟨hhere, hsettled, _, haims⟩
    rw [issue_waits hc]
    have hissue : Fit cs (w.setCall m (some c)) := by
      apply hin.inv.issue hsettled
      intro r hr hcloses
      have hpicked := haims r (hhere.since.fewer r hr) hcloses
      exact ⟨_, hhere.entered, rfl, hplan.concerns _ r hpicked⟩
    constructor
    · exact hissue.record (e := Event.called m c) (hin.ok m hin.live) trivial
    · intro q hq
      exact (relies_setCall (some c) hq).trans
        (relies_record (fun heq => hq heq.symm))
  · intro cs w w' r hin ⟨hhere, hsettled, hFw, haims⟩ hrelies hallowed
    rw [issue_waits hc] at hrelies
    have hhead := allowed_head hc hallowed
    have hcall : (m, some c) ∈ w'.calls := List.mem_of_head? hhead
    rw [reply_setCall hc]
    have hactive : m ∈ w.base.active := hhere.runs.active
    have hinner := hrelies.inner hactive
    refine ⟨⟨hin.inv.reply hcall, fun q hq => relies_setCall none hq⟩,
      hhere.resumes hplan haims hin.inv hrelies hactive hhead, ?_, ?_, ?_⟩
    · exact hF w _ ((since_waits w m c).trans ⟨hinner.trail, hinner.lost,
        hinner.shut, hinner.late, hinner.fewer, hinner.careful⟩) hFw
    · exact hinner.trail.subset
        (List.mem_append_right _ (List.mem_singleton.mpr rfl))
    · intro e he hem
      rcases hin.inv.broken e he with hnone | ⟨d, hd, hcloses⟩
      · exact Or.inl hnone
      · rw [hem] at hd
        cases hin.inv.call_unique hcall hd
        exact Or.inr (hcloses c rfl)

theorem triple_isOpen {P : World -> Prop} (socket : Nat) :
    (pact options).triple m P
      (Prog.ask (I := ports) (PortCall.isOpen socket))
      (Pact.returns fun r w => P w ∧ r = w.isOpen socket) := by
  apply Pact.triple_sync rfl
  intro cs w r hin hP hr
  exact ⟨Pact.Moves.refl hin.inv, hP, hr⟩

theorem triple_disposeAll {P : World -> Prop} (socket : Nat)
    (events : List WebSocketAuthIndex.Event) :
    (pact options).triple m P
      ((disposeAll host socket events).lift place)
      (Pact.returns fun _ w => P w) := by
  induction events with
  | nil => exact Pact.triple_ret fun w h => h
  | cons e rest ih =>
      refine Pact.triple_bind
        (p := Prog.ask (I := ports) (PortCall.unlisten e socket))
        (R := Pact.returns fun _ w => P w) ?_ (fun _ => ih) nofun
      apply Pact.triple_sync rfl
      intro cs w r hin hP hr
      exact ⟨Pact.Moves.refl hin.inv, hP⟩

theorem triple_verdict {P : World -> Prop} {R : Bool -> World -> Prop}
    (authority : ApplicationSessionAuthority)
    (h : forall w active, P w ->
      R active (w.record (Event.asked m authority active))) :
    (pact options).triple m P
      (Prog.ask (I := ports) (PortCall.verdict authority))
      (Pact.returns R) := by
  apply Pact.triple_sync rfl
  intro cs w active hin hP _
  refine ⟨?_, h w active hP⟩
  exact moves_record hin.inv (hin.ok m hin.live) rfl trivial

/-!
## A socket that is not open
-/

/-- The registration of the socket is gone, and it is not open. -/
def Gone (socket : Nat) (w : World) : Prop :=
  w.index.bySocket.get socket = none ∧ socket ∈ w.closed

theorem Here.withIndex (h : Here m o w0 picked w) {x : Index}
    (hfewer : forall r, Registered x r -> Registered w.index r)
    (hremoved : forall r, Registered w.index r -> Registered x r ∨
      r.socket ∈ w.closed ∧ picked w.trail r) :
    Here m o w0 picked (w.withIndex x) := by
  have hsince : Since m w (w.withIndex x) :=
    ⟨List.prefix_refl _, rfl, fun _ he => he, fun _ he => Or.inl he, hfewer,
      fun r hr => (hremoved r hr).imp_right And.left⟩
  refine ⟨⟨h.runs.active, h.runs.running, h.runs.top⟩,
    h.since.trans hsince, h.started, h.mine, ?_⟩
  intro r hr
  rcases h.spared r hr with ⟨hr', hsame⟩ | hother
  · rcases hremoved r hr' with hr'' | ⟨_, hpicked⟩
    · exact Or.inl ⟨hr'', hsame⟩
    · exact Or.inr (Or.inr hpicked)
  · exact Or.inr hother

theorem triple_remove {P Q : World -> Prop}
    (hruns : forall w, P w -> Runs m w)
    (hnone : forall w, P w -> w.index.bySocket.get socket = none -> Q w)
    (hreason : forall w r, P w -> Registered w.index r -> r.socket = socket ->
      (socket ∈ w.closed ∨ (forall q, q ∈ w.base.active -> q = m) ∧
        exists y closed,
          Event.entered m (Op.unregister socket) y closed ∈ w.trail) ∧
      exists e, e ∈ w.trail ∧ e.number = m ∧ Concerns r e)
    (hgone : forall w r, P w -> Registered w.index r -> r.socket = socket ->
      Q (w.withIndex (w.index.remove r))) :
    (pact options).triple m P ((unregister host socket).lift place)
      (Pact.returns fun _ w => Q w) := by
  unfold unregister
  rw [Prog.lift_read]
  refine Pact.triple_read ?_
  intro w hP
  cases hget : w.index.bySocket.get socket with
  | none =>
      have hget' : (host.index w.base).bySocket.get socket = none := hget
      simp only [place, hget']
      apply Pact.triple_ret
      intro w' hw'
      rw [hw']
      exact hnone w hP hget
  | some r =>
      have hget' : (host.index w.base).bySocket.get socket = some r := hget
      simp only [place, hget']
      rw [Prog.lift_bind, Prog.lift_modify]
      refine Pact.triple_bind (R := Pact.returns fun _ w' => Q w') ?_
        (fun _ => triple_disposeAll socket r.disposables) (fun h => by cases h)
      apply Pact.triple_inside
      have hregistered : forall cs, Fit cs w ->
          Registered w.index r ∧ r.socket = socket := by
        intro cs hfit
        have hkey := hfit.keyed socket r hget
        rw [hkey] at hget
        exact ⟨hget, hkey.symm⟩
      refine Pact.triple_modify ?_ ?_
      · rintro cs w' hin ⟨hw', _⟩
        rw [hw'] at hin ⊢
        rcases hregistered cs hin.inv with ⟨hr, hsocket⟩
        rcases hreason w r hP hr hsocket with ⟨hwhy, hconcerns⟩
        rw [← hsocket] at hwhy
        exact moves_index hin.inv (hruns w hP)
          (change_remove hin.inv hr hwhy hconcerns)
      · rintro w' ⟨hw', cs, hin⟩
        rw [hw'] at hin ⊢
        rcases hregistered cs hin.inv with ⟨hr, hsocket⟩
        exact hgone w r hP hr hsocket

theorem triple_unregister (hplan : Plan m o w0 picked) (hF : Lasting m F) :
    (pact options).triple m
      (fun w => Here m o w0 picked w ∧ SettledBut m socket w ∧ F w ∧
        Aims w0 picked socket w ∧ socket ∈ w.closed)
      ((unregister host socket).lift place)
      (Pact.returns fun _ w => Here m o w0 picked w ∧ Settled m w ∧ F w ∧
        Gone socket w) := by
  apply triple_remove
  · exact fun w h => h.1.runs
  · intro w ⟨hhere, hbut, hFw, _, hclosed⟩ hget
    exact ⟨hhere, hbut.settled (Or.inl hget), hFw, hget, hclosed⟩
  · intro w r ⟨hhere, _, _, haims, hclosed⟩ hr hsocket
    refine ⟨Or.inl hclosed, _, hhere.entered, rfl, ?_⟩
    exact hplan.concerns w.trail r
      (haims r (hhere.since.fewer r hr) hsocket)
  · intro w r ⟨hhere, hbut, hFw, haims, hclosed⟩ hr hsocket
    have hnone : (w.index.remove r).bySocket.get socket = none := by
      rw [get_remove, if_pos hsocket]
    have hfewer : forall q, Registered (w.index.remove r) q ->
        Registered w.index q :=
      fun q hq => ((registered_remove hr).mp hq).1
    have hremoved : forall q, Registered w.index q ->
        Registered (w.index.remove r) q ∨
          q.socket ∈ w.closed ∧ picked w.trail q := by
      intro q hq
      by_cases heq : q = r
      · rw [heq, hsocket]
        exact Or.inr ⟨hclosed, haims r (hhere.since.fewer r hr) hsocket⟩
      · exact Or.inl ((registered_remove hr).mpr ⟨hq, heq⟩)
    have hlater : Since m w (w.withIndex (w.index.remove r)) :=
      ⟨List.prefix_refl _, rfl, fun _ he => he, fun _ he => Or.inl he,
        hfewer, fun q hq => (hremoved q hq).imp_right And.left⟩
    refine ⟨hhere.withIndex hfewer hremoved, ?_, hF w _ hlater hFw, hnone,
      hclosed⟩
    intro e he hem
    show (w.index.remove r).bySocket.get e.1 = none
    rw [get_remove]
    rcases hbut e he hem with hold | heq
    · rw [hold, ite_self]
    · rw [heq, if_pos hsocket]

/-- The operation has called both on the socket, and it was open then. -/
def Left (m socket : Nat) (w : World) : Prop :=
  Event.called m (PortCall.close socket) ∈ w.trail ∧
    Event.called m (PortCall.terminate socket) ∈ w.trail ∧
    socket ∉ w.lost ∧ forall n, (socket, n) ∈ w.shut -> m ≤ n

def Done (m socket : Nat) (w : World) : Prop :=
  ((forall r, Registered w.index r -> r.socket ≠ socket) ∧
    socket ∈ w.closed) ∨ Left m socket w

theorem lasting_done (m socket : Nat) : Lasting m (Done m socket) := by
  intro w w' h hdone
  rcases hdone with ⟨hgone, hclosed⟩ | ⟨hclose, hterminate, hlost, hshut⟩
  · exact Or.inl ⟨fun r hr => hgone r (h.fewer r hr), h.closed hclosed⟩
  · refine Or.inr ⟨h.trail.subset hclose, h.trail.subset hterminate, ?_, ?_⟩
    · rw [h.lost]
      exact hlost
    · intro n hn
      rcases h.late _ hn with hn | hle
      · exact hshut n hn
      · exact hle

theorem isOpen_eq {w : World} {b : Bool} (h : b = w.isOpen socket) :
    b = true <-> socket ∉ w.closed := by
  rw [h]
  exact decide_eq_true_iff

variable (socket) in
theorem triple_attempt (hplan : Plan m o w0 picked) {c : PortCall}
    (hc : boundary c = Boundary.callback)
    (hcloses : forall k, Closes c k -> k = socket) (hF : Lasting m F) :
    (pact options).triple m
      (fun w => Here m o w0 picked w ∧ Settled m w ∧ F w ∧
        Aims w0 picked socket w)
      (Prog.ask (I := ports) c)
      (Pact.returns fun _ w => Here m o w0 picked w ∧
        SettledBut m socket w ∧ (F w ∧ Event.called m c ∈ w.trail) ∧
        Aims w0 picked socket w) := by
  apply Pact.triple_consequence (triple_call hplan hc
    (hF.and (hplan.lasting_aims socket)))
  · intro w ⟨hhere, hsettled, hFw, haims⟩
    refine ⟨hhere, hsettled, ⟨hFw, haims⟩, ?_⟩
    intro r hr hk
    exact haims r hr (hcloses r.socket hk)
  · intro res w hres
    cases res with
    | error e => exact nomatch e
    | ok r =>
        rcases hres with ⟨hhere, ⟨hFw, haims⟩, hcalled, hbut⟩
        refine ⟨hhere, ?_, ⟨hFw, hcalled⟩, haims⟩
        intro e he hem
        exact (hbut e he hem).imp_right (hcloses e.1)

theorem triple_secure (hplan : Plan m o w0 picked) (hF : Lasting m F) :
    (pact options).triple m
      (fun w => Here m o w0 picked w ∧ Settled m w ∧ F w ∧
        Aims w0 picked socket w)
      ((secureAuthenticationClosure host socket).lift place)
      (Pact.returns fun secured w => Here m o w0 picked w ∧
        SettledBut m socket w ∧ F w ∧ Aims w0 picked socket w ∧
        if secured = true then socket ∈ w.closed
        else socket ∉ w.closed ∧
          Event.called m (PortCall.close socket) ∈ w.trail ∧
          Event.called m (PortCall.terminate socket) ∈ w.trail) := by
  unfold secureAuthenticationClosure
  refine Pact.triple_bind
    (p := Prog.ask (I := ports) (PortCall.isOpen socket))
    (triple_isOpen socket) ?_ nofun
  intro isOpen
  cases isOpen with
  | false =>
      apply Pact.triple_ret
      intro w ⟨⟨hhere, hsettled, hFw, haims⟩, hclosed⟩
      refine ⟨hhere, hsettled.but socket, hFw, haims, ?_⟩
      have hnot := (isOpen_eq hclosed).not.mp nofun
      exact not_not.mp hnot
  | true =>
      refine Pact.triple_bind
        (p := Prog.ask (I := ports) (PortCall.close socket))
        (Pact.triple_consequence (triple_attempt socket hplan rfl (fun k hk => ?_) hF) (fun w h => h.1)
          (fun _ _ h => h)) ?_ nofun
      · rcases hk with hk | hk
        · exact (PortCall.close.inj hk).symm
        · cases hk
      intro _
      refine Pact.triple_bind
        (p := Prog.ask (I := ports) (PortCall.isOpen socket))
        (triple_isOpen socket) ?_ nofun
      intro isOpen'
      cases isOpen' with
      | false =>
          apply Pact.triple_ret
          intro w ⟨⟨hhere, hbut, ⟨hFw, _⟩, haims⟩, hclosed⟩
          refine ⟨hhere, hbut, hFw, haims, ?_⟩
          exact not_not.mp ((isOpen_eq hclosed).not.mp nofun)
      | true =>
          refine Pact.triple_bind
            (p := Prog.ask (I := ports) (PortCall.terminate socket))
            (Pact.triple_consequence (triple_attempt socket hplan rfl (fun k hk => ?_)
              (hF.and (lasting_called m
                (Event.called m (PortCall.close socket))))) ?_
              (fun _ _ h => h)) ?_ nofun
          · rcases hk with hk | hk
            · cases hk
            · exact (PortCall.terminate.inj hk).symm
          · intro w ⟨⟨hhere, hbut, hrest, haims⟩, hopen⟩
            have hnot := (isOpen_eq hopen).mp rfl
            exact ⟨hhere, hbut.settled (Or.inr hnot), hrest, haims⟩
          intro _
          refine Pact.triple_bind
            (p := Prog.ask (I := ports) (PortCall.isOpen socket))
            (triple_isOpen socket) ?_ nofun
          intro isOpen''
          apply Pact.triple_ret
          intro w ⟨⟨hhere, hbut, ⟨⟨hFw, hclose⟩, hterminate⟩, haims⟩, hopen⟩
          refine ⟨hhere, hbut, hFw, haims, ?_⟩
          cases isOpen'' with
          | false =>
              exact not_not.mp ((isOpen_eq hopen).not.mp nofun)
          | true =>
              exact ⟨(isOpen_eq hopen).mp rfl, hclose, hterminate⟩

variable (options socket) in
theorem triple_closeAuthenticationRequired (hplan : Plan m o w0 picked)
    (hF : Lasting m F) :
    (pact options).triple m
      (fun w => Here m o w0 picked w ∧ Settled m w ∧ F w ∧
        Aims w0 picked socket w)
      ((closeAuthenticationRequired host socket).lift place)
      (Pact.returns fun _ w => Here m o w0 picked w ∧ Settled m w ∧ F w ∧
        Done m socket w) := by
  unfold closeAuthenticationRequired
  rw [Prog.lift_bind]
  refine Pact.triple_bind (triple_secure hplan hF) ?_ nofun
  intro secured
  cases secured with
  | false =>
      apply Pact.triple_ret
      intro w ⟨hhere, hbut, hFw, _, hopen, hclose, hterminate⟩
      refine ⟨hhere, hbut.settled (Or.inr hopen), hFw, Or.inr
        ⟨hclose, hterminate, ?_, ?_⟩⟩
      · exact fun hlost => hopen (mem_closed.mpr (Or.inl hlost))
      · exact fun n hn => absurd (mem_closed.mpr (Or.inr ⟨n, hn⟩)) hopen
  | true =>
      show (pact options).triple m _ (Prog.lift place
        (unregister host socket >>= fun _ => Prog.ret true)) _
      rw [Prog.lift_bind]
      refine Pact.triple_bind (triple_unregister hplan hF) ?_ nofun
      intro _
      apply Pact.triple_ret
      intro w ⟨hhere, hsettled, hFw, hnone, hclosed⟩
      refine ⟨hhere, hsettled, hFw, Or.inl ⟨?_, hclosed⟩⟩
      intro r hr hsocket
      unfold Registered at hr
      rw [hsocket, hnone] at hr
      cases hr

/-!
## Loops
-/

variable (options) in
theorem triple_closeEach (hplan : Plan m o w0 picked) (hF : Lasting m F)
    (sockets : List Nat)
    (haims : forall w, F w -> forall k, k ∈ sockets -> Aims w0 picked k w) :
    (pact options).triple m
      (fun w => Here m o w0 picked w ∧ Settled m w ∧ F w)
      ((closeEach host sockets).lift place)
      (Pact.returns fun _ w => Here m o w0 picked w ∧ Settled m w ∧ F w ∧
        forall k, k ∈ sockets -> Done m k w) := by
  induction sockets generalizing F with
  | nil =>
      apply Pact.triple_ret
      rintro w ⟨hhere, hsettled, hFw⟩
      exact ⟨hhere, hsettled, hFw, (fun _ h => by cases h)⟩
  | cons k rest ih =>
      unfold closeEach
      rw [Prog.lift_bind]
      have hfirst := triple_closeAuthenticationRequired options k hplan hF
      refine Pact.triple_bind (Pact.triple_consequence hfirst ?_
        fun _ _ h => h) ?_ (fun h => by cases h)
      · rintro w ⟨hhere, hsettled, hFw⟩
        exact ⟨hhere, hsettled, hFw, haims w hFw k List.mem_cons_self⟩
      intro _
      have hrest := ih (hF.and (lasting_done m k)) fun w h j hj =>
        haims w h.1 j (List.mem_cons_of_mem k hj)
      apply Pact.triple_consequence hrest
      · exact fun w h => h
      · intro res w hres
        cases res with
        | error e => cases e
        | ok u =>
            rcases hres with ⟨hhere, hsettled, ⟨hFw, hk⟩, hdone⟩
            refine ⟨hhere, hsettled, hFw, ?_⟩
            intro j hj
            rcases List.mem_cons.mp hj with hj | hj
            · rw [hj]
              exact hk
            · exact hdone j hj

theorem registered_inj {x : Index} {r r' : Registration}
    (hr : Registered x r) (hr' : Registered x r')
    (hsocket : r.socket = r'.socket) : r = r' := by
  unfold Registered at hr hr'
  rw [hsocket, hr'] at hr
  exact (Option.some.inj hr).symm

theorem Here.done_of_gone (h : Here m o w0 picked w) {r : Registration}
    (hr : Registered w0.index r) (hgone : ¬ Registered w.index r) :
    Done m r.socket w := by
  refine Or.inl ⟨?_, (h.since.careful r hr).resolve_left hgone⟩
  intro q hq hsocket
  rw [registered_inj (h.since.fewer q hq) hr hsocket] at hq
  exact hgone hq

def ofSession (id : JsString) : Choice :=
  fun _ r => r.session = id

variable (options) in
theorem triple_closeSession {id : JsString} (hrep : Sound w0)
    (hplan : Plan m o w0 (ofSession id)) :
    (pact options).triple m
      (fun w => Here m o w0 (ofSession id) w ∧ Settled m w ∧
        w.index = w0.index)
      ((closeSession host id).lift place)
      (Pact.returns fun _ w => Here m o w0 (ofSession id) w ∧ Settled m w ∧
        forall r, Registered w0.index r -> r.session = id ->
          Done m r.socket w) := by
  rcases hrep with ⟨half, hrep⟩
  unfold closeSession
  rw [Prog.lift_read]
  refine Pact.triple_read ?_
  intro w ⟨hhere, hsettled, hsame⟩
  have hindex : host.index (place.view w) = w0.index := hsame
  rw [hindex]
  cases hget : w0.index.bySession.get id with
  | none =>
      apply Pact.triple_ret
      intro w' hw'
      rw [hw']
      refine ⟨hhere, hsettled, ?_⟩
      intro r hr hid
      rcases hrep.covered r hr with ⟨a, ha⟩
      rw [hid, hget] at ha
      cases ha
  | some a =>
      have hmembers := hrep.members id a hget
      have hloop := triple_closeEach options hplan
        (lasting_true m) ((w0.index.set a).map fun r => r.socket) (by
          intro w _ k hk r hr hsocket
          rcases List.mem_map.mp hk with ⟨r', hr', hk'⟩
          have hmem := (hmembers r').mp hr'
          rw [registered_inj hr hmem.1 (hsocket.trans hk'.symm)]
          exact hmem.2)
      apply Pact.triple_consequence hloop
      · intro w' hw'
        rw [hw']
        exact ⟨hhere, hsettled, trivial⟩
      · intro res w' hres
        cases res with
        | error e => exact nomatch e
        | ok u =>
            rcases hres with ⟨hhere', hsettled', _, hdone⟩
            refine ⟨hhere', hsettled', ?_⟩
            intro r hr hid
            apply hdone
            exact List.mem_map_of_mem ((hmembers r).mpr ⟨hr, hid⟩)

def foundInactive (m : Nat) : Choice :=
  fun trail r => Event.asked m r.authority false ∈ trail

/-- What a sweep has done about a registration. -/
def Swept (m : Nat) (r : Registration) (w : World) : Prop :=
  Event.asked m r.authority true ∈ w.trail ∨ Done m r.socket w

theorem lasting_swept (m : Nat) (r : Registration) :
    Lasting m (Swept m r) := by
  intro w w' h hswept
  exact hswept.imp (lasting_called m _ w w' h) (lasting_done m _ w w' h)

theorem triple_sweepOne (hplan : Plan m o w0 (foundInactive m))
    (hF : Lasting m F) {r : Registration} (hr : Registered w0.index r)
    {rest : Prog World ports Empty Unit}
    {Q : Except Empty Unit -> World -> Prop}
    (hrest : (pact options).triple m
      (fun w => Here m o w0 (foundInactive m) w ∧ Settled m w ∧ F w ∧
        Swept m r w) rest Q) :
    (pact options).triple m
      (fun w => Here m o w0 (foundInactive m) w ∧ Settled m w ∧ F w)
      ((isActive host r.authority Site.sweep).lift place >>= fun active =>
        if active = true then rest
        else (closeAuthenticationRequired host r.socket).lift place >>=
          fun _ => rest) Q := by
  have hasked : (pact options).triple m
      (fun w => Here m o w0 (foundInactive m) w ∧ Settled m w ∧ F w)
      ((isActive host r.authority Site.sweep).lift place)
      (Pact.returns fun active w =>
        Here m o w0 (foundInactive m) w ∧ Settled m w ∧
          (F w ∧ Event.asked m r.authority active ∈ w.trail)) := by
    unfold isActive
    refine Pact.triple_bind
      (p := Prog.ask (I := ports) (PortCall.verdict r.authority))
      (R := Pact.returns fun active w =>
        Here m o w0 (foundInactive m) w ∧ Settled m w ∧
          (F w ∧ Event.asked m r.authority active ∈ w.trail)) ?_ ?_ nofun
    · apply triple_verdict
      intro w active ⟨hhere, hsettled, hFw⟩
      refine ⟨hhere.record hplan nofun, hsettled,
        hF w _ (since_record m w _) hFw, ?_⟩
      exact List.mem_append_right _ (List.mem_singleton.mpr rfl)
    · intro active
      cases active with
      | true => exact Pact.triple_ret fun w h => h
      | false =>
          refine Pact.triple_bind (p := Prog.ask (I := ports)
            (PortCall.revoking r.authority Site.sweep))
            (Pact.triple_consequence (triple_call hplan
              rfl (hF.and (lasting_called m
                (Event.asked m r.authority false)))) ?_ fun _ _ h => h)
            ?_ nofun
          · intro w ⟨hhere, hsettled, hrest⟩
            refine ⟨hhere, hsettled, hrest, ?_⟩
            intro q _ hcloses
            rcases hcloses with hcloses | hcloses
            · cases hcloses
            · cases hcloses
          · intro _
            apply Pact.triple_ret
            intro w ⟨hhere, hrest, _, hbut⟩
            refine ⟨hhere, ?_, hrest⟩
            intro e he hem
            rcases hbut e he hem with hnone | hcloses | hcloses
            · exact hnone
            · cases hcloses
            · cases hcloses
  refine Pact.triple_bind hasked ?_ nofun
  intro active
  cases active with
  | true =>
      apply Pact.triple_consequence hrest
      · intro w ⟨hhere, hsettled, hFw, hactive⟩
        exact ⟨hhere, hsettled, hFw, Or.inl hactive⟩
      · exact fun _ _ h => h
  | false =>
      refine Pact.triple_bind (Pact.triple_consequence
        (triple_closeAuthenticationRequired options r.socket hplan hF) ?_ fun _ _ h => h) ?_ nofun
      · intro w ⟨hhere, hsettled, hFw, hinactive⟩
        refine ⟨hhere, hsettled, hFw, ?_⟩
        intro q hq hsocket
        rw [registered_inj hq hr hsocket]
        exact hinactive
      · intro _
        apply Pact.triple_consequence hrest
        · intro w ⟨hhere, hsettled, hFw, hdone⟩
          exact ⟨hhere, hsettled, hFw, Or.inr hdone⟩
        · exact fun _ _ h => h

variable (options) in
theorem triple_sweepEach (hplan : Plan m o w0 (foundInactive m))
    (hF : Lasting m F) (rs : List Registration)
    (hrs : forall r, r ∈ rs -> Registered w0.index r) :
    (pact options).triple m
      (fun w => Here m o w0 (foundInactive m) w ∧ Settled m w ∧ F w)
      ((sweepEach host rs).lift place)
      (Pact.returns fun _ w => Here m o w0 (foundInactive m) w ∧
        Settled m w ∧ F w ∧ forall r, r ∈ rs -> Swept m r w) := by
  induction rs generalizing F with
  | nil =>
      apply Pact.triple_ret
      intro w ⟨hhere, hsettled, hFw⟩
      exact ⟨hhere, hsettled, hFw, nofun⟩
  | cons r rest ih =>
      have hshape : (sweepEach host (r :: rest)).lift place =
          ((isActive host r.authority Site.sweep).lift place >>=
            fun active => if active = true then (sweepEach host rest).lift place
            else (closeAuthenticationRequired host r.socket).lift place >>=
              fun _ => (sweepEach host rest).lift place) := by
        rw [sweepEach, Prog.lift_bind]
        congr 1
        funext active
        cases active with
        | true => rfl
        | false =>
            show Prog.lift place (closeAuthenticationRequired host r.socket >>=
              fun _ => sweepEach host rest) = _
            rw [Prog.lift_bind]
            rfl
      rw [hshape]
      apply triple_sweepOne hplan hF (hrs r List.mem_cons_self)
      have hrest := ih (hF.and (lasting_swept m r))
        fun q hq => hrs q (List.mem_cons_of_mem r hq)
      apply Pact.triple_consequence hrest
      · exact fun w h => h
      · intro res w hres
        cases res with
        | error e => exact nomatch e
        | ok u =>
            rcases hres with ⟨hhere, hsettled, ⟨hFw, hr⟩, hdone⟩
            refine ⟨hhere, hsettled, hFw, ?_⟩
            intro q hq
            rcases List.mem_cons.mp hq with hq | hq
            · rw [hq]
              exact hr
            · exact hdone q hq

theorem mem_values_of_get {x : Index} {r : Registration}
    (hr : Registered x r) : r ∈ x.bySocket.values :=
  List.mem_map.mpr ⟨_, JsMap.mem_of_get hr, rfl⟩

theorem Fit.registered_of_mem (h : Fit cs w) {r : Registration}
    (hr : r ∈ w.index.bySocket.values) : Registered w.index r := by
  rcases List.mem_map.mp hr with ⟨⟨k, q⟩, hmem, hq⟩
  have hget := JsMap.get_of_mem h.distinct hmem
  have hk := h.keyed k q hget
  cases hq
  unfold Registered
  rw [← hk]
  exact hget

theorem triple_harmless (hplan : Plan m o w0 picked) {c : PortCall}
    (hc : boundary c = Boundary.callback) (hquiet : forall k, ¬ Closes c k) :
    (pact options).triple m
      (fun w => Here m o w0 picked w ∧ Settled m w)
      (Prog.ask (I := ports) c)
      (Pact.returns fun _ w => Here m o w0 picked w ∧ Settled m w) := by
  apply Pact.triple_consequence (triple_call hplan hc
    (lasting_true m))
  · intro w ⟨hhere, hsettled⟩
    exact ⟨hhere, hsettled, trivial, fun r _ hk => absurd hk (hquiet _)⟩
  · intro res w hres
    cases res with
    | error e => exact nomatch e
    | ok r =>
        rcases hres with ⟨hhere, _, _, hbut⟩
        refine ⟨hhere, ?_⟩
        intro e he hem
        exact (hbut e he hem).resolve_right (hquiet e.1)

variable (options) in
theorem triple_sweepExpired (hplan : Plan m o w0 (foundInactive m)) :
    (pact options).triple m
      (fun w => Here m o w0 (foundInactive m) w ∧ Settled m w)
      ((sweepExpired host).lift place)
      (Pact.returns fun _ w => Here m o w0 (foundInactive m) w ∧
        Settled m w ∧ forall r, Registered w0.index r -> Swept m r w) := by
  unfold sweepExpired
  refine Pact.triple_bind (p := Prog.ask (I := ports) PortCall.sweepExpired)
    (triple_harmless hplan rfl ?_) ?_ nofun
  · intro k hk
    rcases hk with hk | hk
    · cases hk
    · cases hk
  intro _
  show (pact options).triple m _ (Prog.lift place (Prog.read >>= fun s =>
    sweepEach host (host.index s).bySocket.values)) _
  rw [Prog.lift_read]
  apply Pact.triple_inside
  refine Pact.triple_read ?_
  intro w ⟨⟨hhere, hsettled⟩, cs, hin⟩
  have hloop := triple_sweepEach options hplan
    (F := fun w' => forall r, Registered w0.index r ->
      r ∉ w.index.bySocket.values -> Done m r.socket w')
    (fun w' w'' hsince h r hr hmem =>
      lasting_done m _ w' w'' hsince (h r hr hmem))
    w.index.bySocket.values
    (fun r hr => hhere.since.fewer r (hin.inv.registered_of_mem hr))
  apply Pact.triple_consequence hloop
  · intro w' hw'
    rw [hw']
    refine ⟨hhere, hsettled, ?_⟩
    intro r hr hmem
    exact hhere.done_of_gone hr fun hr' => hmem (mem_values_of_get hr')
  · intro res w' hres
    cases res with
    | error e => exact nomatch e
    | ok u =>
        rcases hres with ⟨hhere', hsettled', hgone, hswept⟩
        refine ⟨hhere', hsettled', ?_⟩
        intro r hr
        by_cases hmem : r ∈ w.index.bySocket.values
        · exact hswept r hmem
        · exact Or.inr (hgone r hr hmem)

def everyone : Choice :=
  fun _ _ => True

variable (options) in
theorem triple_dispose (hplan : Plan m Op.dispose w0 everyone) :
    (pact options).triple m
      (fun w => Here m Op.dispose w0 everyone w ∧ Settled m w ∧
        w.index = w0.index ∧ w.closed = w0.closed)
      ((dispose host).lift place)
      (Pact.returns fun _ w => Here m Op.dispose w0 everyone w ∧
        Settled m w ∧
        if w0.index.disposed = true then
          w.index = w0.index ∧ w.closed = w0.closed
        else forall r, Registered w0.index r -> Done m r.socket w) := by
  unfold dispose
  rw [Prog.lift_read]
  refine Pact.triple_read ?_
  intro w ⟨hhere, hsettled, hsame, hclosed⟩
  have hindex : host.index (place.view w) = w0.index := hsame
  rw [hindex]
  cases hdisposed : w0.index.disposed with
  | true =>
      apply Pact.triple_ret
      intro w' hw'
      rw [hw']
      exact ⟨hhere, hsettled, by rw [if_pos rfl]; exact ⟨hsame, hclosed⟩⟩
  | false =>
      simp only [Bool.false_eq_true, if_false]
      rw [Prog.lift_bind, Prog.lift_modify]
      refine Pact.triple_bind (R := Pact.returns fun _ w' =>
        Here m Op.dispose w0 everyone w' ∧ Settled m w') ?_ ?_ nofun
      · refine Pact.triple_modify ?_ ?_
        · intro cs w' hin hw'
          rw [hw'] at hin ⊢
          refine moves_index (x := { w.index with disposed := true }) hin.inv
            hhere.runs ⟨hin.inv.distinct, hin.inv.keyed,
              fun _ _ hr => Or.inl hr, fun _ hr => Or.inl hr, ?_⟩
          exact fun _ => Or.inr ⟨_, _, hhere.entered⟩
        · intro w' hw'
          rw [hw']
          refine ⟨hhere.withIndex (x := { w.index with disposed := true })
            (fun r hr => hr) (fun r hr => Or.inl hr), hsettled⟩
      intro _
      refine Pact.triple_bind
        (p := Prog.ask (I := ports) PortCall.unsubscribe)
        (triple_harmless hplan rfl ?_) ?_ nofun
      · intro k hk
        rcases hk with hk | hk
        · cases hk
        · cases hk
      intro _
      show (pact options).triple m _ (Prog.lift place (Prog.read >>= fun s =>
        closeEach host (host.index s).bySocket.keys)) _
      rw [Prog.lift_read]
      refine Pact.triple_read ?_
      intro w' ⟨hhere', hsettled'⟩
      have hloop := triple_closeEach options hplan
        (F := fun w'' => forall r, Registered w0.index r ->
          r.socket ∉ w'.index.bySocket.keys -> Done m r.socket w'')
        (fun v v' hsince h r hr hmem =>
          lasting_done m _ v v' hsince (h r hr hmem))
        w'.index.bySocket.keys (fun _ _ _ _ _ _ _ => trivial)
      apply Pact.triple_consequence hloop
      · intro w'' hw''
        rw [hw'']
        refine ⟨hhere', hsettled', ?_⟩
        intro r hr hmem
        refine hhere'.done_of_gone hr fun hr' => hmem ?_
        exact List.mem_map.mpr ⟨_, JsMap.mem_of_get hr', rfl⟩
      · intro res w'' hres
        cases res with
        | error e => exact nomatch e
        | ok u =>
            rcases hres with ⟨hhere'', hsettled'', hgone, hdone⟩
            refine ⟨hhere'', hsettled'', ?_⟩
            intro r hr
            by_cases hmem : r.socket ∈ w'.index.bySocket.keys
            · exact hdone r.socket hmem
            · exact hgone r hr hmem

/-!
## Registrations
-/

/-- A registration picks no socket. -/
def nobody : Choice :=
  fun _ _ => False

theorem plan_nobody (m : Nat) (o : Op) (w0 : World) : Plan m o w0 nobody :=
  ⟨fun _ _ _ h => h, fun _ _ h => h.elim⟩

structure Started (m : Nat) (o : Op) (w0 w : World) : Prop where
  runs : Runs m w
  settled : Settled m w
  trail : exists between,
    w.trail = w0.trail ++ Event.entered m o w0.index w0.closed :: between

theorem Here.toStarted (h : Here m o w0 picked w) (hsettled : Settled m w) :
    Started m o w0 w :=
  ⟨h.runs, hsettled, h.started⟩

/-- A socket can be registered: nothing has run since the checks. -/
structure Ready (m socket : Nat) (w : World) : Prop where
  alone : forall q, q ∈ w.base.active -> q = m
  disposed : w.index.disposed = false
  free : w.index.bySocket.get socket = none

variable {authority : ApplicationSessionAuthority} {t : JsString}
variable {session : Nat}

theorem triple_same {P Q : World -> Prop} {f : Index -> Index}
    (hf : forall x, (f x).bySocket = x.bySocket ∧ (f x).disposed = x.disposed)
    (hruns : forall w, P w -> Runs m w)
    (hpost : forall w, P w -> Q (w.withIndex (f w.index))) :
    (pact options).triple m P
      ((Prog.modify (host.update f) : Code Unit).lift place)
      (Pact.returns fun _ w => Q w) := by
  rw [Prog.lift_modify]
  refine Pact.triple_modify ?_ ?_
  · intro cs w hin hP
    exact moves_index hin.inv (hruns w hP)
      (Change.same hin.inv (hf w.index).1 (hf w.index).2)
  · exact hpost

theorem Here.same (h : Here m o w0 picked w) {x : Index}
    (hsockets : x.bySocket = w.index.bySocket) :
    Here m o w0 picked (w.withIndex x) := by
  apply h.withIndex
  · intro r hr
    unfold Registered at hr ⊢
    rw [hsockets] at hr
    exact hr
  · intro r hr
    unfold Registered at hr ⊢
    rw [hsockets]
    exact Or.inl hr

theorem same_dropSession (x : Index) (id : JsString) (a : Nat) :
    (x.dropSession id a).bySocket = x.bySocket ∧
      (x.dropSession id a).disposed = x.disposed := by
  unfold Index.dropSession
  split
  · exact ⟨rfl, rfl⟩
  · exact ⟨rfl, rfl⟩

theorem triple_refuse (id : JsString) (a : Nat) :
    (pact options).triple m (fun w => Here m o w0 picked w ∧ Settled m w)
      ((Prog.modify (host.update fun x => x.dropSession id a) >>= fun _ =>
        Prog.ret false : Code Bool).lift place)
      (Pact.returns fun _ w => Started m o w0 w) := by
  rw [Prog.lift_bind]
  refine Pact.triple_bind (triple_same
    (Q := fun w => Here m o w0 picked w ∧ Settled m w)
    (fun x => same_dropSession x id a) (fun w h => h.1.runs) ?_) ?_ nofun
  · intro w ⟨hhere, hsettled⟩
    have hsockets := (same_dropSession w.index id a).1
    refine ⟨hhere.same hsockets, ?_⟩
    intro e he hem
    show (w.index.dropSession id a).bySocket.get e.1 = none
    rw [hsockets]
    exact hsettled e he hem
  · intro _
    exact Pact.triple_ret fun w h => h.1.toStarted h.2

theorem bySocket_insert (x : Index) (a : Nat) (r : Registration) :
    (x.insert a r).bySocket = x.bySocket.set r.socket r ∧
      (x.insert a r).disposed = x.disposed := by
  unfold Index.insert
  rcases advance_eq _ r.terminalTabId with ⟨b, c, heq⟩
  rw [heq]
  exact ⟨rfl, rfl⟩

theorem change_insert (h : Fit cs w) {r : Registration} (a : Nat)
    (hready : Ready m r.socket w) (hopen : r.socket ∉ w.closed) :
    Change m w (w.index.insert a r) := by
  have hinsert := bySocket_insert w.index a r
  constructor
  · rw [hinsert.1]
    exact JsMap.distinct_set h.distinct _ _
  · intro k q hq
    rw [hinsert.1, JsMap.get_set] at hq
    split at hq
    · rename_i hk
      cases hq
      exact hk.symm
    · exact h.keyed k q hq
  · intro k q hq
    rw [hinsert.1, JsMap.get_set] at hq
    split at hq
    · rename_i hk
      refine Or.inr ⟨hready.alone, ?_, hinsert.2.trans hready.disposed⟩
      rw [← hk]
      exact hopen
    · exact Or.inl hq
  · intro q hq
    refine Or.inl ?_
    unfold Registered at hq ⊢
    rw [hinsert.1, JsMap.get_set]
    split
    · rename_i hsocket
      rw [← hsocket, hready.free] at hq
      cases hq
    · exact hq
  · intro hdisposed
    rw [hinsert.2] at hdisposed
    exact Or.inl hdisposed

theorem triple_insert (disposables : List WebSocketAuthIndex.Event) :
    (pact options).triple m
      (fun w => Here m o w0 nobody w ∧ Settled m w ∧ Ready m socket w ∧
        socket ∉ w.closed)
      ((Prog.modify (host.update fun x => x.insert session
        ⟨x.nextAddress, authority, t, socket, disposables⟩) >>= fun _ =>
          Prog.ret true : Code Bool).lift place)
      (Pact.returns fun _ w => Started m o w0 w) := by
  rw [Prog.lift_bind, Prog.lift_modify]
  refine Pact.triple_bind (R := Pact.returns fun _ w => Started m o w0 w)
    ?_ ?_ nofun
  · refine Pact.triple_modify ?_ ?_
    · intro cs w hin ⟨hhere, _, hready, hopen⟩
      exact moves_index hin.inv hhere.runs
        (change_insert hin.inv session hready hopen)
    · intro w ⟨hhere, hsettled, _, hopen⟩
      refine ⟨⟨hhere.runs.active, hhere.runs.running, hhere.runs.top⟩, ?_,
        hhere.started⟩
      intro e he hem
      show (w.index.insert session _).bySocket.get e.1 = none
      rw [(bySocket_insert _ _ _).1, JsMap.get_set, if_neg]
      · exact hsettled e he hem
      · intro heq
        have hsocket : socket = e.1 := heq
        rw [hsocket] at hopen
        exact hopen (mem_closed.mpr (Or.inr ⟨e.2, he⟩))
  · intro _
    exact Pact.triple_ret fun w h => h

theorem Ready.record (h : Ready m socket w) (e : Event) :
    Ready m socket (w.record e) :=
  ⟨h.alone, h.disposed, h.free⟩

theorem triple_isActive (site : Site) {G : World -> Prop}
    (hG : forall w e, G w -> G (w.record e)) :
    (pact options).triple m
      (fun w => Here m o w0 nobody w ∧ Settled m w ∧ G w)
      ((isActive host authority site).lift place)
      (Pact.returns fun active w => Here m o w0 nobody w ∧ Settled m w ∧
        (active = true -> G w)) := by
  unfold isActive
  refine Pact.triple_bind
    (p := Prog.ask (I := ports) (PortCall.verdict authority))
    (R := Pact.returns fun _ w =>
      Here m o w0 nobody w ∧ Settled m w ∧ G w) ?_ ?_ nofun
  · apply triple_verdict
    intro w active ⟨hhere, hsettled, hGw⟩
    exact ⟨hhere.record (plan_nobody m o w0) nofun, hsettled, hG w _ hGw⟩
  · intro active
    cases active with
    | true => exact Pact.triple_ret fun w h => ⟨h.1, h.2.1, fun _ => h.2.2⟩
    | false =>
        refine Pact.triple_bind
          (p := Prog.ask (I := ports) (PortCall.revoking authority site))
          (Pact.triple_consequence (triple_harmless
            (plan_nobody m o w0) rfl ?_) (fun w h => ⟨h.1, h.2.1⟩)
            fun _ _ h => h) ?_ nofun
        · intro k hk
          rcases hk with hk | hk
          · cases hk
          · cases hk
        · intro _
          exact Pact.triple_ret fun w h => ⟨h.1, h.2, nofun⟩

theorem triple_listen (socket : Nat) {P : World -> Prop} :
    (pact options).triple m P ((listen host socket).lift place)
      (Pact.returns fun _ w => P w) := by
  have hone : forall e, (pact options).triple m P
      (Prog.ask (I := ports) (PortCall.listen e socket))
      (Pact.returns fun _ w => P w) := by
    intro e
    apply Pact.triple_sync rfl
    intro cs w r hin hP _
    exact ⟨Pact.Moves.refl hin.inv, hP⟩
  unfold listen
  refine Pact.triple_bind (p := Prog.ask (I := ports)
    (PortCall.listen WebSocketAuthIndex.Event.close socket)) (hone _) ?_ nofun
  intro first
  cases first with
  | error e => exact Pact.triple_ret fun w h => h
  | ok u =>
      refine Pact.triple_bind (p := Prog.ask (I := ports)
        (PortCall.listen WebSocketAuthIndex.Event.error socket)) (hone _) ?_
        nofun
      intro second
      cases second with
      | error e => exact Pact.triple_ret fun w h => h
      | ok u' => exact Pact.triple_ret fun w h => h

theorem triple_complete :
    (pact options).triple m
      (fun w => Here m o w0 nobody w ∧ Settled m w ∧ Ready m socket w)
      ((complete host authority t socket session).lift place)
      (Pact.returns fun _ w => Started m o w0 w) := by
  unfold complete
  rw [Prog.lift_bind]
  refine Pact.triple_bind (triple_listen socket) ?_ nofun
  intro disposables
  cases disposables with
  | none =>
      exact Pact.triple_consequence (triple_refuse _ _)
        (fun w h => ⟨h.1, h.2.1⟩) fun _ _ h => h
  | some disposables =>
      have hrefuse : (pact options).triple m
          (fun w => Here m o w0 nobody w ∧ Settled m w)
          ((disposeAll host socket disposables >>= fun _ =>
            (Prog.modify (host.update fun x =>
              x.dropSession authority.applicationSessionId session) >>=
                fun _ => Prog.ret false : Code Bool)).lift place)
          (Pact.returns fun _ w => Started m o w0 w) := by
        rw [Prog.lift_bind]
        exact Pact.triple_bind (triple_disposeAll socket disposables)
          (fun _ => triple_refuse _ _) nofun
      refine Pact.triple_bind
        (p := Prog.ask (I := ports) (PortCall.isOpen socket))
        (triple_isOpen socket) ?_ nofun
      intro isOpen
      cases isOpen with
      | false =>
          exact Pact.triple_consequence hrefuse
            (fun w h => ⟨h.1.1, h.1.2.1⟩) fun _ _ h => h
      | true =>
          show (pact options).triple m _ (Prog.lift place
            (isActive host authority (Site.second t socket session) >>= _)) _
          rw [Prog.lift_bind]
          have hactive : (pact options).triple m
              (fun w => Here m o w0 nobody w ∧ Settled m w ∧
                Ready m socket w ∧ socket ∉ w.closed)
              ((isActive host authority
                (Site.second t socket session)).lift place)
              (Pact.returns fun active w => Here m o w0 nobody w ∧
                Settled m w ∧
                (active = true -> Ready m socket w ∧ socket ∉ w.closed)) :=
            triple_isActive _ fun w e h => ⟨h.1.record e, h.2⟩
          refine Pact.triple_bind (Pact.triple_consequence hactive ?_
            fun _ _ h => h) ?_ nofun
          · intro w ⟨⟨hhere, hsettled, hready⟩, hopen⟩
            exact ⟨hhere, hsettled, hready, (isOpen_eq hopen).mp rfl⟩
          · intro active
            cases active with
            | true =>
                exact Pact.triple_consequence (triple_insert disposables)
                  (fun w h => ⟨h.1, h.2.1, h.2.2 rfl⟩) fun _ _ h => h
            | false =>
                exact Pact.triple_consequence hrefuse
                  (fun w h => ⟨h.1, h.2.1⟩) fun _ _ h => h

theorem triple_joinSession :
    (pact options).triple m
      (fun w => Here m o w0 nobody w ∧ Settled m w ∧ Ready m socket w)
      ((joinSession host options authority t socket).lift place)
      (Pact.returns fun _ w => Started m o w0 w) := by
  have hno : (pact options).triple m
      (fun w => Here m o w0 nobody w ∧ Settled m w ∧ Ready m socket w)
      (Prog.ret false) (Pact.returns fun _ w => Started m o w0 w) :=
    Pact.triple_ret fun w h => h.1.toStarted h.2.1
  unfold joinSession
  rw [Prog.lift_read]
  refine Pact.triple_read ?_
  intro w hP
  have hat : forall w', w' = w -> Here m o w0 nobody w' ∧ Settled m w' ∧
      Ready m socket w' := by
    intro w' hw'
    rw [hw']
    exact hP
  split
  · split
    · exact Pact.triple_consequence hno hat fun _ _ h => h
    · show (pact options).triple m _ (Prog.lift place
        (Prog.modify (host.update fun x =>
          x.newSession authority.applicationSessionId) >>= _)) _
      rw [Prog.lift_bind]
      refine Pact.triple_bind (triple_same
        (Q := fun w => Here m o w0 nobody w ∧ Settled m w ∧ Ready m socket w)
        (fun x => ⟨rfl, rfl⟩) (fun w' hw' => (hat w' hw').1.runs) ?_)
        (fun _ => triple_complete) nofun
      intro w' hw'
      rcases hat w' hw' with ⟨hhere, hsettled, hready⟩
      exact ⟨hhere.same rfl, hsettled,
        ⟨hready.alone, hready.disposed, hready.free⟩⟩
  · split
    · exact Pact.triple_consequence hno hat fun _ _ h => h
    · exact Pact.triple_consequence triple_complete hat fun _ _ h => h

theorem triple_registerIfActive :
    (pact options).triple m
      (fun w => Here m o w0 nobody w ∧ Settled m w ∧
        forall q, q ∈ w.base.active -> q = m)
      ((registerIfActive host options authority t socket).lift place)
      (Pact.returns fun _ w => Started m o w0 w) := by
  unfold registerIfActive
  rw [Prog.lift_read]
  refine Pact.triple_read ?_
  rintro w ⟨hhere, hsettled, halone⟩
  have hno : forall {P : World -> Prop}, (forall w', P w' -> w' = w) ->
      (pact options).triple m P (Prog.ret false)
        (Pact.returns fun _ w' => Started m o w0 w') := by
    intro P hP
    apply Pact.triple_ret
    intro w' hw'
    rw [hP w' hw']
    exact hhere.toStarted hsettled
  split
  · exact hno fun _ h => h
  · rename_i hdisposed
    refine Pact.triple_bind
      (p := Prog.ask (I := ports) (PortCall.isOpen socket))
      (triple_isOpen socket) ?_ (fun h => by cases h)
    intro isOpen
    cases isOpen with
    | false => exact hno fun _ h => h.1
    | true =>
        show (pact options).triple m _ (Prog.lift place
          (if (host.index (place.view w)).bySocket.has socket = true then _
            else _)) _
        split
        · exact hno fun _ h => h.1
        · rename_i hhas
          split
          · exact hno fun _ h => h.1
          · have hfree : w.index.bySocket.get socket = none := by
              cases hget : w.index.bySocket.get socket with
              | none => rfl
              | some r =>
                  have hsome : (host.index (place.view w)).bySocket.has
                      socket = true := by
                    show (w.index.bySocket.get socket).isSome = true
                    rw [hget]
                    rfl
                  exact absurd hsome hhas
            rw [Prog.lift_bind]
            have hactive : (pact options).triple m
                (fun w => Here m o w0 nobody w ∧ Settled m w ∧
                  Ready m socket w)
                ((isActive host authority (Site.first t socket)).lift place)
                (Pact.returns fun active w => Here m o w0 nobody w ∧
                  Settled m w ∧ (active = true -> Ready m socket w)) :=
              triple_isActive _ fun w e h => h.record e
            refine Pact.triple_bind (Pact.triple_consequence hactive ?_
              fun _ _ h => h) ?_ (fun h => by cases h)
            · rintro w' ⟨hw', _⟩
              rw [hw']
              exact ⟨hhere, hsettled, halone,
                Bool.eq_false_iff.mpr hdisposed, hfree⟩
            · intro active
              cases active with
              | false =>
                  exact Pact.triple_ret fun w' h => h.1.toStarted h.2.1
              | true =>
                  exact Pact.triple_consequence triple_joinSession
                    (fun w' h => ⟨h.1, h.2.1, h.2.2 rfl⟩) fun _ _ h => h

end Rules

end Revocation
end WebSocketAuthIndex
end Server
end FlanTerminal

import FlanTerminal.Foundation.Script
import FlanTerminal.Server.WebSocketRevocationRules

/-!
# Revocation closes the sockets of a session

Where an operation ends, each socket that it had to close is out of the index
and not open, or has refused both calls and is still in the index.
-/

namespace FlanTerminal
namespace Server
namespace WebSocketAuthIndex
namespace Revocation

open Foundation

section Rules

variable {options : Options} {m : Nat} {cs : Census} {w : World}
variable {o : Op} {w0 : World} {picked : Choice} {socket : Nat}

/-!
## Endings
-/

theorem mem_between (hbefore : forall e, e ∈ w0.trail -> e.number < m)
    {between : List Event}
    (htrail : w.trail =
      w0.trail ++ Event.entered m o w0.index w0.closed :: between)
    {e : Event} (he : e ∈ w.trail) (hnumber : m ≤ e.number)
    (hentered : e ≠ Event.entered m o w0.index w0.closed) : e ∈ between := by
  rw [htrail] at he
  rcases List.mem_append.mp he with he | he
  · have hlt := hbefore e he
    omega
  · rcases List.mem_cons.mp he with he | he
    · exact absurd he hentered
    · exact he

theorem Here.secured (h : Here m o w0 picked w) (hsettled : Settled m w)
    (hfit : Fit cs w) (hbefore : forall e, e ∈ w0.trail -> e.number < m)
    {between : List Event}
    (htrail : w.trail =
      w0.trail ++ Event.entered m o w0.index w0.closed :: between)
    {r : Registration} (hr : Registered w0.index r)
    (hdone : Done m r.socket w) :
    Secured m between w.index w.closed r := by
  rcases hdone with ⟨hgone, hclosed⟩ | ⟨hclose, hterminate, hlost, hshut⟩
  · refine Or.inl ⟨?_, hclosed⟩
    cases hget : w.index.bySocket.get r.socket with
    | none => rfl
    | some q =>
        have hkey := hfit.keyed r.socket q hget
        rw [hkey] at hget
        exact absurd hkey.symm (hgone q hget)
  · by_cases hclosed : r.socket ∈ w.closed
    · refine Or.inl ⟨?_, hclosed⟩
      rcases mem_closed.mp hclosed with hlost' | ⟨n, hn⟩
      · exact absurd hlost' hlost
      · rcases hfit.broken _ hn with hnone | ⟨c, hc, _⟩
        · exact hnone
        · have hle := h.runs.top n (hfit.active_of_call hc)
          exact hsettled _ hn (Nat.le_antisymm hle (hshut n hn))
    · refine Or.inr ⟨(h.since.careful r hr).resolve_right hclosed, hclosed,
        ?_, ?_⟩
      · exact mem_between hbefore htrail hclose (Nat.le_refl m) nofun
      · exact mem_between hbefore htrail hterminate (Nat.le_refl m) nofun

theorem Here.ending (h : Here m o w0 picked w) (hsettled : Settled m w)
    (hfit : Fit cs w) (hbefore : forall e, e ∈ w0.trail -> e.number < m)
    {between : List Event}
    (htrail : w.trail =
      w0.trail ++ Event.entered m o w0.index w0.closed :: between)
    (hscope : forall r, Registered w0.index r ->
      InScope m w0.index between r o -> Done m r.socket w)
    (hpicked : forall r, Apart m between r o -> ¬ picked w.trail r)
    (hagain : o = Op.dispose -> w0.index.disposed = true ->
      w.index = w0.index ∧ w.closed = w0.closed ∧
        forall r, Registered w0.index r -> Tried w0.trail r.socket) :
    Ending m o w0.trail between w0.index w0.closed w.index w.closed := by
  constructor
  · intro r hr hin
    exact h.secured hsettled hfit hbefore htrail hr (hscope r hr hin)
  · intro _ r hr hopen
    exact (h.since.careful r hr).resolve_right hopen
  · intro r hr hapart hnone
    have hnot := hpicked r hapart
    have hcalls : forall c, Closes c r.socket ->
        Event.called m c ∉ between := by
      intro c hcloses hc
      apply hnot (h.mine c r _ hr hcloses)
      rw [htrail]
      exact List.mem_append_right _ (List.mem_cons_of_mem _ hc)
    rcases h.spared r hr with ⟨hr', hsame⟩ | ⟨e, he, hlt, hconcerns⟩ | hp
    · exact ⟨hr', ⟨hsame, h.since.closed⟩, hcalls _ (Or.inl rfl),
        hcalls _ (Or.inr rfl)⟩
    · have hmem : e ∈ between := by
        apply mem_between hbefore htrail he (Nat.le_of_lt hlt)
        intro heq
        rw [heq] at hlt
        exact Nat.lt_irrefl m hlt
      exact absurd hconcerns (hnone e hmem)
    · exact absurd hp hnot
  · exact hagain

/-- An operation that closes no sockets on its own owes nothing. -/
theorem ending_other {first between : List Event} {x x' : Index}
    {closed closed' : List Nat} (hcloses : closesSockets o = false) :
    Ending m o first between x closed x' closed' := by
  constructor
  · intro r _ hin
    cases o with
    | closeSession _ => cases hcloses
    | sweepExpired => cases hcloses
    | dispose => cases hcloses
    | _ => exact hin.elim
  · intro h
    rw [hcloses] at h
    cases h
  · intro r _ hapart
    cases o with
    | closeSession _ => cases hcloses
    | sweepExpired => cases hcloses
    | _ => exact hapart.elim
  · intro heq
    rw [heq] at hcloses
    cases hcloses

structure Finished (m : Nat) (o : Op) (w0 w : World) : Prop
    extends Started m o w0 w where
  tried : o = Op.dispose -> w.index.disposed = true ->
    forall r, Registered w.index r -> Tried w.trail r.socket
  ending : forall between,
    w.trail = w0.trail ++ Event.entered m o w0.index w0.closed :: between ->
      Ending m o w0.trail between w0.index w0.closed w.index w.closed

theorem Started.entered (h : Started m o w0 w) :
    Event.entered m o w0.index w0.closed ∈ w.trail := by
  rcases h.trail with ⟨between, hbetween⟩
  rw [hbetween]
  exact List.mem_append_right _ List.mem_cons_self

theorem Started.finish (h : Started m o w0 w)
    (hcloses : closesSockets o = false) : Finished m o w0 w := by
  refine ⟨h, ?_, fun between _ => ending_other hcloses⟩
  intro heq
  rw [heq] at hcloses
  cases hcloses

/-!
## Starts and ends
-/

def World.starts (w : World) (options : Options) (m : Nat) (o : Op) : World :=
  (watched options).enter m o w

theorem mem_starts {e : Event} (he : e ∈ (w.starts options m o).trail) :
    e ∈ w.trail ∨ e = Event.entered m o w.index w.closed :=
  (List.mem_append.mp he).imp_right List.mem_singleton.mp

theorem Fit.starts (h : Fit cs w) (o : Op) :
    Fit cs.enter (w.starts options cs.next o) := by
  have hnew : forall {q}, q ∈ w.base.active ->
      q ∈ (w.starts options cs.next o).base.active :=
    fun hq => List.mem_cons_of_mem _ hq
  have hold : forall {n c}, (n, some c) ∈ (w.starts options cs.next o).calls ->
      (n, some c) ∈ w.calls := by
    intro n c hc
    rcases List.mem_cons.mp hc with hc | hc
    · cases hc
    · exact hc
  have hentered : forall {n o' x cl}, Event.entered n o' x cl ∈ w.trail ->
      n < cs.next := fun he => h.events _ he
  constructor
  · show cs.next :: w.base.active = cs.next :: w.calls.map Prod.fst
    rw [h.active]
  · refine List.pairwise_cons.mpr ⟨?_, h.sorted⟩
    intro q hq
    rw [← h.active] at hq
    exact h.numbers q hq
  · intro q hq
    rcases List.mem_cons.mp hq with hq | hq
    · rw [hq]
      exact Nat.lt_succ_self _
    · exact Nat.lt_succ_of_lt (h.numbers q hq)
  · intro q hq
    rcases hq with hq | hq
    · rw [hq]
      exact List.mem_cons_self
    · exact hnew (h.live q hq)
  · intro e he
    rcases mem_starts he with he | he
    · exact Nat.lt_succ_of_lt (h.events e he)
    · rw [he]
      exact Nat.lt_succ_self _
  · exact fun e he => Nat.lt_succ_of_lt (h.shutters e he)
  · intro n o' x cl hend hactive
    rcases mem_starts hend with hend | hend
    · rcases List.mem_cons.mp hactive with heq | hactive
      · have hlt : n < cs.next := h.events _ hend
        exact Nat.ne_of_lt hlt heq
      · exact h.finished n o' x cl hend hactive
    · cases hend
  · intro n o1 x1 cl1 h1 o2 x2 cl2 h2
    rcases mem_starts h1 with h1 | h1
    · rcases mem_starts h2 with h2 | h2
      · exact h.unique n o1 x1 cl1 h1 o2 x2 cl2 h2
      · cases h2
        exact absurd (hentered h1) (Nat.lt_irrefl _)
    · rcases mem_starts h2 with h2 | h2
      · cases h1
        exact absurd (hentered h2) (Nat.lt_irrefl _)
      · cases h1
        cases h2
        rfl
  · exact h.distinct
  · exact h.keyed
  · intro e he
    rcases h.broken e he with hnone | ⟨c, hc, hcloses⟩
    · exact Or.inl hnone
    · exact Or.inr ⟨c, List.mem_cons_of_mem _ hc, hcloses⟩
  · intro n c r hc hr hcloses
    rcases h.meant n c r (hold hc) hr hcloses with ⟨e, he, hrest⟩
    exact ⟨e, List.mem_append_left _ he, hrest⟩
  · intro hdisposed r hr
    rcases h.disposed hdisposed r hr with htried | ⟨n, x, cl, hn, he⟩
    · exact Or.inl htried.mono
    · exact Or.inr ⟨n, x, cl, hnew hn, List.mem_append_left _ he⟩
  · exact everyEntry_snoc.mpr ⟨h.good, trivial⟩

theorem relies_starts {q : Nat} (hq : q ≠ m) :
    Relies q w (w.starts options m o) := by
  refine { Relies.refl q w with
    trail := ⟨[Event.entered m o w.index w.closed], rfl, ?_⟩
    careful := fun r hr => Or.inl hr
    inner := ?_ }
  · intro _ e he
    rw [List.mem_singleton.mp he]
    exact fun heq => hq heq.symm
  · intro hactive
    exact ⟨⟨List.prefix_append _ _, rfl, fun _ he => he, fun _ he => Or.inl he,
      fun _ hr => hr, fun _ hr => Or.inl hr⟩, List.mem_cons_of_mem _ hactive,
      fun _ hc => List.mem_cons_of_mem _ hc, fun r hr => Or.inl ⟨hr, id⟩⟩

theorem Fit.settled (h : Fit cs w) :
    Settled cs.next (w.starts options cs.next o) := by
  intro e he hem
  have hlt := h.shutters e he
  omega

theorem Fit.here (h : Fit cs w) (picked : Choice) :
    Here cs.next o w picked (w.starts options cs.next o) := by
  refine ⟨⟨List.mem_cons_self, List.mem_cons_self, ?_⟩,
    ⟨List.prefix_append _ _, rfl, fun _ he => he, fun _ he => Or.inl he,
      fun _ hr => hr, fun _ hr => Or.inl hr⟩, ⟨[], rfl⟩, ?_,
    fun r hr => Or.inl ⟨hr, id⟩⟩
  · intro q hq
    rcases List.mem_cons.mp hq with hq | hq
    · exact Nat.le_of_eq hq
    · exact Nat.le_of_lt (h.numbers q hq)
  · intro c r hc _ _
    rcases mem_starts hc with hc | hc
    · exact absurd (h.events _ hc) (Nat.lt_irrefl _)
    · cases hc

def World.ends (w : World) (options : Options) (m : Nat) (o : Op)
    (res : Except Empty (Option Bool)) : World :=
  (watched options).leave m o res w

theorem mem_ends {e : Event} {res : Except Empty (Option Bool)}
    (he : e ∈ (w.ends options m o res).trail) :
    e ∈ w.trail ∨ e = Event.ended m o w.index w.closed :=
  (List.mem_append.mp he).imp_right List.mem_singleton.mp

theorem stays_active {res : Except Empty (Option Bool)} {q : Nat}
    (hq : q ∈ w.base.active) (hne : q ≠ m) :
    q ∈ (w.ends options m o res).base.active :=
  List.mem_filter.mpr ⟨hq, decide_eq_true hne⟩

theorem stays_called {res : Except Empty (Option Bool)}
    {f : Nat × Option PortCall} (hf : f ∈ w.calls) (hne : f.1 ≠ m) :
    f ∈ (w.ends options m o res).calls :=
  List.mem_filter.mpr ⟨hf, decide_eq_true hne⟩

theorem Fit.ends (h : Fit cs w) (hm : m < cs.next)
    (hdone : Finished m o w0 w) (res : Except Empty (Option Bool)) :
    Fit (cs.without m) (w.ends options m o res) := by
  have hentered : forall {n o' x cl},
      Event.entered n o' x cl ∈ (w.ends options m o res).trail ->
        Event.entered n o' x cl ∈ w.trail := by
    intro n o' x cl he
    rcases mem_ends he with he | he
    · exact he
    · cases he
  constructor
  · show w.base.active.filter _ = (w.calls.filter _).map Prod.fst
    rw [h.active, List.filter_map]
    rfl
  · exact h.sorted.sublist (List.filter_sublist.map Prod.fst)
  · exact fun q hq => h.numbers q (List.mem_filter.mp hq).1
  · exact fun q hq => stays_active (h.live q hq.2) hq.1
  · intro e he
    rcases mem_ends he with he | he
    · exact h.events e he
    · rw [he]
      exact hm
  · exact h.shutters
  · intro n o' x cl hend hactive
    have hboth := List.mem_filter.mp hactive
    rcases mem_ends hend with hend | hend
    · exact h.finished n o' x cl hend hboth.1
    · cases hend
      exact of_decide_eq_true hboth.2 rfl
  · exact fun n o1 x1 cl1 h1 o2 x2 cl2 h2 =>
      h.unique n o1 x1 cl1 (hentered h1) o2 x2 cl2 (hentered h2)
  · exact h.distinct
  · exact h.keyed
  · intro e he
    by_cases hem : e.2 = m
    · exact Or.inl (hdone.settled e he hem)
    · rcases h.broken e he with hnone | ⟨c, hc, hcloses⟩
      · exact Or.inl hnone
      · exact Or.inr ⟨c, stays_called hc hem, hcloses⟩
  · intro n c r hc hr hcloses
    rcases h.meant n c r (List.mem_filter.mp hc).1 hr hcloses with
      ⟨e, he, hrest⟩
    exact ⟨e, List.mem_append_left _ he, hrest⟩
  · intro hdisposed r hr
    rcases h.disposed hdisposed r hr with htried | ⟨n, x, cl, hn, he⟩
    · exact Or.inl htried.mono
    · by_cases hnm : n = m
      · rw [hnm] at he
        have ho := h.unique m o _ _ hdone.entered Op.dispose x cl he
        exact Or.inl (hdone.tried ho hdisposed r hr).mono
      · exact Or.inr ⟨n, x, cl, stays_active hn hnm,
          List.mem_append_left _ he⟩
  · refine everyEntry_snoc.mpr ⟨h.good, ?_⟩
    rcases hdone.trail with ⟨between, hbetween⟩
    exact ⟨w0.trail, between, w0.index, w0.closed, hbetween,
      hdone.ending between hbetween⟩

theorem relies_ends {q : Nat} (hq : q ≠ m)
    (res : Except Empty (Option Bool)) :
    Relies q w (w.ends options m o res) := by
  refine { Relies.refl q w with
    trail := ⟨[Event.ended m o w.index w.closed], rfl, ?_⟩
    careful := fun r hr => Or.inl hr
    inner := ?_ }
  · intro _ e he
    rw [List.mem_singleton.mp he]
    exact fun heq => hq heq.symm
  · intro hactive
    exact ⟨⟨List.prefix_append _ _, rfl, fun _ he => he, fun _ he => Or.inl he,
      fun _ hr => hr, fun _ hr => Or.inl hr⟩, stays_active hactive hq,
      fun _ hc => stays_called hc hq, fun r hr => Or.inl ⟨hr, id⟩⟩

/-!
## The operations
-/

theorem triple_end {result : Type} {P : World -> Prop} {p : Code result}
    {f : result -> Option Bool} {R : result -> World -> Prop}
    (hp : (pact options).triple m P (p.lift place) (Pact.returns R))
    (hR : forall cs a w, Fit cs w -> R a w -> Finished m o w0 w) :
    (pact options).triple m P
      ((p >>= fun a => Prog.ret (f a) : Code (Option Bool)).lift place)
      (Pact.returns fun _ w => Finished m o w0 w) := by
  rw [Prog.lift_bind]
  refine Pact.triple_bind hp ?_ nofun
  intro a
  apply Pact.triple_inside
  apply Pact.triple_ret
  intro w ⟨hw, cs, hin⟩
  exact hR cs a w hin.inv hw

theorem triple_starts {result : Type} {P : World -> Prop}
    {p : Prog World ports Empty result}
    {Q : Except Empty result -> World -> Prop}
    (hp : (pact options).triple m P p Q)
    (hstart : P (w.starts options m o)) :
    (pact options).triple m (fun w' => w' = w.starts options m o) p Q := by
  apply Pact.triple_consequence hp
  · intro w' hw'
    rw [hw']
    exact hstart
  · exact fun _ _ h => h

variable (options) in
theorem triple_body_closeSession (h : Fit cs w) (hsound : Sound w)
    (id : JsString) :
    (pact options).triple cs.next
      (fun w' => w' = w.starts options cs.next (Op.closeSession id))
      ((body options cs.next (Op.closeSession id)).lift place)
      (Pact.returns fun _ w' =>
        Finished cs.next (Op.closeSession id) w w') := by
  have hplan : Plan cs.next (Op.closeSession id) w (ofSession id) :=
    ⟨fun _ _ _ hr => hr, fun _ _ hr => hr⟩
  have hbody := triple_closeSession options hsound hplan
  refine triple_end (triple_starts hbody
    ⟨h.here (ofSession id), h.settled, rfl⟩) ?_
  intro cs' _ w' hfit ⟨hhere, hsettled, hdone⟩
  refine ⟨hhere.toStarted hsettled, nofun, ?_⟩
  intro between htrail
  apply hhere.ending hsettled hfit h.events htrail
  · exact hdone
  · exact fun r hapart hr => hapart hr
  · nofun

variable (options) in
theorem triple_body_sweepExpired (h : Fit cs w) :
    (pact options).triple cs.next
      (fun w' => w' = w.starts options cs.next Op.sweepExpired)
      ((body options cs.next Op.sweepExpired).lift place)
      (Pact.returns fun _ w' => Finished cs.next Op.sweepExpired w w') := by
  have hplan : Plan cs.next Op.sweepExpired w (foundInactive cs.next) :=
    ⟨fun _ _ _ hr => List.mem_append_left _ hr, fun _ _ _ => trivial⟩
  have hbody := triple_sweepExpired options hplan
  refine triple_end (triple_starts hbody
    ⟨h.here (foundInactive cs.next), h.settled⟩) ?_
  intro cs' _ w' hfit ⟨hhere, hsettled, hswept⟩
  refine ⟨hhere.toStarted hsettled, nofun, ?_⟩
  intro between htrail
  have hasked : forall {authority active},
      Event.asked cs.next authority active ∈ w'.trail ->
        Event.asked cs.next authority active ∈ between :=
    fun he => mem_between h.events htrail he (Nat.le_refl _) nofun
  apply hhere.ending hsettled hfit h.events htrail
  · intro r hr hscope
    rcases hswept r hr with hactive | hdone
    · cases hscope true (hasked hactive)
    · exact hdone
  · intro r hapart hinactive
    cases hapart false (hasked hinactive)
  · nofun

variable (options) in
theorem triple_body_dispose (h : Fit cs w) (hidle : w.base.active = []) :
    (pact options).triple cs.next
      (fun w' => w' = w.starts options cs.next Op.dispose)
      ((body options cs.next Op.dispose).lift place)
      (Pact.returns fun _ w' => Finished cs.next Op.dispose w w') := by
  have hplan : Plan cs.next Op.dispose w everyone :=
    ⟨fun _ _ _ _ => trivial, fun _ _ _ => trivial⟩
  have hbody := triple_dispose options hplan
  refine triple_end (triple_starts hbody
    ⟨h.here everyone, h.settled, rfl, rfl⟩) ?_
  intro cs' _ w' hfit ⟨hhere, hsettled, hdone⟩
  have hbefore : w.index.disposed = true -> forall r,
      Registered w.index r -> Tried w.trail r.socket := by
    intro hdisposed r hr
    rcases h.disposed hdisposed r hr with htried | ⟨n, x, cl, hn, _⟩
    · exact htried
    · rw [hidle] at hn
      cases hn
  refine ⟨hhere.toStarted hsettled, ?_, ?_⟩
  · intro _ hdisposed r hr
    by_cases hwas : w.index.disposed = true
    · rcases hhere.since.trail with ⟨more, hmore⟩
      rw [← hmore]
      exact (hbefore hwas r (hhere.since.fewer r hr)).mono
    · rw [if_neg hwas] at hdone
      rcases hdone r (hhere.since.fewer r hr) with ⟨hgone, _⟩ | hleft
      · exact absurd rfl (hgone r hr)
      · exact ⟨cs.next, hleft.1, hleft.2.1⟩
  · intro between htrail
    apply hhere.ending hsettled hfit h.events htrail
    · intro r hr hfresh
      have hfresh : w.index.disposed = false := hfresh
      rw [hfresh, if_neg nofun] at hdone
      exact hdone r hr
    · exact fun _ hapart => hapart.elim
    · intro _ hwas
      rw [if_pos hwas] at hdone
      exact ⟨hdone.1, hdone.2, hbefore hwas⟩

variable (options) in
theorem triple_body_closeAuthenticationRequired (h : Fit cs w)
    (socket : Nat) :
    (pact options).triple cs.next
      (fun w' => w' =
        w.starts options cs.next (Op.closeAuthenticationRequired socket))
      ((body options cs.next
        (Op.closeAuthenticationRequired socket)).lift place)
      (Pact.returns fun _ w' =>
        Finished cs.next (Op.closeAuthenticationRequired socket) w w') := by
  have hplan : Plan cs.next (Op.closeAuthenticationRequired socket) w
      (fun _ r => r.socket = socket) :=
    ⟨fun _ _ _ hr => hr, fun _ _ hr => hr⟩
  have hbody := triple_closeAuthenticationRequired options socket hplan
    (lasting_true cs.next)
  refine triple_end (triple_starts hbody
    ⟨h.here _, h.settled, trivial, fun r _ hr => hr⟩) ?_
  intro cs' _ w' _ ⟨hhere, hsettled, _⟩
  exact (hhere.toStarted hsettled).finish rfl

variable (options) in
theorem triple_body_unregister (h : Fit cs w) {socket : Nat}
    (hadmits : w.base.active = [] ∨ socket ∈ w.closed) :
    (pact options).triple cs.next
      (fun w' => w' = w.starts options cs.next (Op.unregister socket))
      ((body options cs.next (Op.unregister socket)).lift place)
      (Pact.returns fun _ w' =>
        Finished cs.next (Op.unregister socket) w w') := by
  have hhere : Here cs.next (Op.unregister socket) w nobody
      (w.starts options cs.next (Op.unregister socket)) := h.here nobody
  have hstarted := hhere.toStarted h.settled
  refine triple_end (R := fun _ w' =>
    Started cs.next (Op.unregister socket) w w') (triple_remove ?_ ?_ ?_ ?_)
    fun _ _ _ _ hend => hend.finish rfl
  · intro w' hw'
    rw [hw']
    exact hhere.runs
  · intro w' hw' _
    rw [hw']
    exact hstarted
  · intro w' r hw' _ hsocket
    rw [hw']
    refine ⟨?_, _, hhere.entered, rfl, hsocket⟩
    rcases hadmits with hidle | hclosed
    · refine Or.inr ⟨?_, _, _, hhere.entered⟩
      intro q hq
      change q ∈ cs.next :: w.base.active at hq
      rw [hidle] at hq
      exact List.mem_singleton.mp hq
    · exact Or.inl hclosed
  · intro w' r hw' _ _
    rw [hw']
    refine ⟨⟨hhere.runs.active, hhere.runs.running, hhere.runs.top⟩, ?_,
      hstarted.trail⟩
    intro e he hem
    have hlt := h.shutters e he
    omega

variable (options) in
theorem triple_body_registerIfActive (h : Fit cs w)
    (hidle : w.base.active = []) (authority : ApplicationSessionAuthority)
    (t : JsString) (socket : Nat) :
    (pact options).triple cs.next
      (fun w' => w' =
        w.starts options cs.next (Op.registerIfActive authority t socket))
      ((body options cs.next
        (Op.registerIfActive authority t socket)).lift place)
      (Pact.returns fun _ w' =>
        Finished cs.next (Op.registerIfActive authority t socket) w w') := by
  refine triple_end (triple_starts triple_registerIfActive
    ⟨h.here nobody, h.settled, ?_⟩) fun _ _ _ _ hend => hend.finish rfl
  intro q hq
  change q ∈ cs.next :: w.base.active at hq
  rw [hidle] at hq
  exact List.mem_singleton.mp hq

variable (options) in
theorem triple_body (h : Fit cs w) (hsound : Sound w)
    (hadmits : admits w o) :
    (pact options).triple cs.next
      (fun w' => w' = w.starts options cs.next o)
      ((body options cs.next o).lift place)
      (Pact.returns fun _ w' => Finished cs.next o w w') := by
  cases o with
  | registerIfActive authority t socket =>
      exact triple_body_registerIfActive options h hadmits authority t socket
  | unregister socket => exact triple_body_unregister options h hadmits
  | closeSession id => exact triple_body_closeSession options h hsound id
  | closeAuthenticationRequired socket =>
      exact triple_body_closeAuthenticationRequired options h socket
  | sweepExpired => exact triple_body_sweepExpired options h
  | dispose => exact triple_body_dispose options h hadmits

theorem sound (options : Options) :
    Contract.Sound ((watched options).assuming Sound)
      (pact options).contract := by
  apply Pact.sound
  intro cs w o hok h hadmits
  refine ⟨⟨h.starts o, fun q hq => relies_starts hq⟩, _,
    triple_body options h hadmits.2 hadmits.1, ?_⟩
  intro cs' w' res hin hres
  cases res with
  | error e => exact nomatch e
  | ok v =>
      have hm := hin.ok cs.next hin.live
      exact ⟨hin.inv.ends hm hres (Except.ok v),
        fun q hq => relies_ends hq (Except.ok v)⟩

/-!
## Runs
-/

theorem hosts (options : Options) :
    Hosts place (watched options) (alone options) where
  body _ _ := rfl
  boundary := rfl
  admits s o h := by
    cases o with
    | registerIfActive authority t socket => exact h
    | _ => trivial
  enter _ _ _ := rfl
  issue n c w := by
    show World.base (if boundary c = Boundary.sync then w else _) = w.base
    split
    · rfl
    · rfl
  allowed _ _ _ _ _ := trivial
  reply n c r w := by
    cases c with
    | _ => rfl
  leave _ _ _ _ := rfl
  env w w' h := by
    cases h with
    | lose => exact Or.inl rfl
    | shut => exact Or.inl rfl

theorem run_sound {cfg : Config World ports Empty (Option Bool) Op}
    (hrun : Run options cfg) : Sound cfg.shared := by
  rcases (hosts options).reachable hrun with ⟨cfg', hshows, hreach⟩
  have hinv := ((inv_inductive options).reachable (Inv.initial options)
    hreach).inv
  have hrep := hinv.rep
  rw [hshows.shared] at hrep
  exact ⟨_, hrep⟩

theorem Fit.initial : Fit ⟨0, fun _ => False⟩ World.initial := by
  refine ⟨rfl, List.Pairwise.nil, nofun, nofun, nofun, nofun, nofun, nofun,
    JsMap.distinct_nil, nofun, nofun, nofun, nofun, everyEntry_nil _⟩

theorem run_ok {cfg : Config World ports Empty (Option Bool) Op}
    (hrun : Run options cfg) :
    Config.Ok ((watched options).assuming Sound) (pact options).contract
      cfg :=
  Reachable.ok (sound options) Fit.initial
    (Reachable.assuming (fun _ => run_sound) hrun)

theorem run_careful {cfg cfg' : Config World ports Empty (Option Bool) Op}
    (hrun : Run options cfg) (hstep : Step (watched options) cfg cfg')
    {r : Registration} (hr : Registered cfg.shared.index r) :
    Registered cfg'.shared.index r ∨ r.socket ∈ cfg'.shared.closed ∨
      exists n x closed, Unfinished n cfg.shared ∧
        Event.entered n (Op.unregister r.socket) x closed ∈
          cfg'.shared.trail := by
  have hok := run_ok hrun
  have hstep' := hstep.assuming (run_sound hrun)
  rcases hstep'.guar (sound options) hok with ⟨_, n, hguar⟩ | henv
  · exact (hguar (n + 1) (Nat.succ_ne_self n)).careful r hr
  · exact ((Fit.happens hok.inv henv).2 0).careful r hr

end Rules

/-- What holds of the operations that have ended in a run, and of its next
step. -/
structure Revokes (options : Options)
    (cfg : Config World ports Empty (Option Bool) Op) : Prop where
  ended : forall before n o x' closed' after,
    cfg.shared.trail = before ++ Event.ended n o x' closed' :: after ->
      exists first between x closed,
        before = first ++ Event.entered n o x closed :: between ∧
          Ending n o first between x closed x' closed'
  /-- A registration goes only when its socket is not open, or when the
  operation to unregister the socket is in progress. -/
  careful : forall cfg', Step (watched options) cfg cfg' ->
    forall r, Registered cfg.shared.index r ->
      Registered cfg'.shared.index r ∨ r.socket ∈ cfg'.shared.closed ∨
        exists n x closed, Unfinished n cfg.shared ∧
          Event.entered n (Op.unregister r.socket) x closed ∈
            cfg'.shared.trail

theorem revocation_closes {options : Options}
    {cfg : Config World ports Empty (Option Bool) Op}
    (hrun : Run options cfg) : Revokes options cfg := by
  constructor
  · intro before n o x' closed' after htrail
    exact (run_ok hrun).inv.good before _ after htrail
  · intro cfg' hstep r hr
    exact run_careful hrun hstep hr

/-!
Two sockets of a session and one of another.  The first socket refuses to
close, the second one closes when it is told to.
-/

def stubbornReply (w : World) : (c : PortCall) -> PortReply c
  | PortCall.isOpen socket => w.isOpen socket
  | PortCall.verdict _ => true
  | PortCall.revoking _ _ => ()
  | PortCall.listen _ _ => Except.ok ()
  | PortCall.unlisten _ _ => Except.ok ()
  | PortCall.close _ => Except.error ()
  | PortCall.terminate _ => Except.ok ()
  | PortCall.sweepExpired => Except.ok ()
  | PortCall.unsubscribe => Except.ok ()

/-- The second socket shuts, and when nothing runs the first one is lost. -/
def stubbornNudge (w : World) : Option World :=
  match w.calls.head? with
  | none => if w.base.active = [] then some { w with lost := 1 :: w.lost }
      else none
  | some (n, c) =>
      if c = some (PortCall.close 2) then
        some { w with shut := (2, n) :: w.shut }
      else none

def stubbornScript : Script (watched someOptions) where
  reply w _ := stubbornReply w
  fair w n c := decide (boundary c = Boundary.sync ∨
    w.calls.head? = some (n, some c))
  admits w _ := w.base.active.isEmpty
  nudge := stubbornNudge
  fair_allowed w n c h := by
    rcases of_decide_eq_true h with hsync | hhead
    · cases c with
      | isOpen socket => rfl
      | verdict authority => trivial
      | listen e socket => trivial
      | unlisten e socket => trivial
      | _ => cases hsync
    · cases c with
      | isOpen socket => rfl
      | verdict authority => trivial
      | listen e socket => trivial
      | unlisten e socket => trivial
      | _ => exact hhead
  admits_sound w o h := by
    have hidle := List.isEmpty_iff.mp h
    cases o with
    | registerIfActive authority t socket => exact hidle
    | unregister socket => exact Or.inl hidle
    | closeSession id => trivial
    | closeAuthenticationRequired socket => trivial
    | sweepExpired => exact hidle
    | dispose => exact hidle
  nudge_env w w' h := by
    unfold stubbornNudge at h
    cases hhead : w.calls.head? with
    | none =>
        rw [hhead] at h
        simp only at h
        split at h
        · rename_i hidle
          cases h
          exact Happens.lose 1 hidle
        · cases h
    | some f =>
        rcases f with ⟨n, c⟩
        rw [hhead] at h
        simp only at h
        split at h
        · rename_i hc
          rw [hc] at hhead
          cases h
          exact Happens.shut n 2 _ hhead (Or.inl rfl)
        · cases h

def firstSocket : Registration :=
  ⟨1, ⟨js "first", 1, 100⟩, js "tab", 1,
    [WebSocketAuthIndex.Event.close, WebSocketAuthIndex.Event.error]⟩

def closeSessionRun :
    Option (Config World ports Empty (Option Bool) Op) :=
  stubbornScript.play
    [Move.enter (Op.registerIfActive ⟨js "first", 1, 100⟩ (js "tab") 1),
      Move.enter (Op.registerIfActive ⟨js "first", 1, 100⟩ (js "tab") 2),
      Move.enter (Op.registerIfActive ⟨js "second", 1, 100⟩ (js "tab") 3),
      Move.enter (Op.closeSession (js "first")), Move.answer, Move.answer,
      Move.env, Move.answer]
    (Config.initial World.initial)

theorem closeSessionRun_ends :
    closeSessionRun.map (fun cfg => decide
      (cfg.shared.index.bySocket.get 1 = some firstSocket ∧
        cfg.shared.index.bySocket.keys = [1, 3] ∧
        cfg.shared.closed = [2] ∧ cfg.shared.base.active = [])) =
      some true := by
  decide +kernel

theorem revocation_closes_stubborn :
    exists cfg, closeSessionRun = some cfg ∧
      cfg.shared.index.bySocket.keys = [1, 3] ∧ cfg.shared.closed = [2] ∧
      Revokes someOptions cfg := by
  have hsample := closeSessionRun_ends
  cases hrun : closeSessionRun with
  | none =>
      rw [hrun] at hsample
      cases hsample
  | some cfg =>
      rw [hrun] at hsample
      have hend := of_decide_eq_true (Option.some.inj hsample)
      exact ⟨cfg, rfl, hend.2.1, hend.2.2.1,
        revocation_closes (Script.play_reachable hrun)⟩

/-- The first socket refuses when the index is disposed, is lost, and the
index is disposed once more. -/
def disposeRun :
    Option (Config World ports Empty (Option Bool) Op) :=
  stubbornScript.play
    [Move.enter (Op.registerIfActive ⟨js "first", 1, 100⟩ (js "tab") 1),
      Move.enter Op.dispose, Move.answer, Move.answer, Move.answer, Move.env,
      Move.enter Op.dispose]
    (Config.initial World.initial)

theorem disposeRun_ends :
    disposeRun.map (fun cfg => decide
      (cfg.shared.index.bySocket.get 1 = some firstSocket ∧
        1 ∈ cfg.shared.closed ∧
        cfg.shared.trail = cfg.shared.trail.take 9 ++
          [Event.entered 2 Op.dispose cfg.shared.index cfg.shared.closed,
            Event.ended 2 Op.dispose cfg.shared.index cfg.shared.closed])) =
      some true := by
  decide +kernel

/-- To dispose a disposed index leaves a lost socket in it. -/
theorem not_secured_again :
    ¬ forall cfg, Run someOptions cfg ->
      forall first n x closed between x' closed' after,
        cfg.shared.trail = first ++ Event.entered n Op.dispose x closed ::
          between ++ Event.ended n Op.dispose x' closed' :: after ->
        forall r, Registered x r -> Secured n between x' closed' r := by
  intro h
  have hsample := disposeRun_ends
  cases hrun : disposeRun with
  | none =>
      rw [hrun] at hsample
      cases hsample
  | some cfg =>
      rw [hrun] at hsample
      rcases of_decide_eq_true (Option.some.inj hsample) with
        ⟨hr, hclosed, htrail⟩
      have hsecured := h cfg (Script.play_reachable hrun) _ 2 _ _ [] _ _ []
        (htrail.trans (by rw [List.append_assoc]; rfl)) firstSocket hr
      rcases hsecured with ⟨hnone, _⟩ | ⟨_, hopen, _⟩
      · have hget : cfg.shared.index.bySocket.get 1 = none := hnone
        rw [hr] at hget
        cases hget
      · exact hopen hclosed

end Revocation
end WebSocketAuthIndex
end Server
end FlanTerminal

import FlanTerminal.Client.UseTabsSafety
import FlanTerminal.Server.SessionManagerChanges

/-!
# The revision that the client expects

After most answers the client does not read the collection again: it adds one
to its revision, or leaves it as it is.  A reorder request carries that
revision, and the server refuses it when it is not its own.  This module is
about a client that is the only writer, and waits for each answer.
-/

namespace FlanTerminal
namespace Client
namespace UseTabs

open Foundation
open Shared
open Server
open SessionManager (Entry Inv own ids Idle Shape shapeOf changes Change)
open SessionManager (Stretch Reshaped calmOptions calmScript calmDocument)
open SessionManager (calmId calmDocument_accepted)

/-- One operation of the client, from its start to its answer, while no other
operation changes the structure. -/
structure Turn (options : TabStore.Options) (sys : System) (d : Delivery)
    (sys' : System) : Prop where
  steps : Relation.ReflTransGen (Step options anyOrder) sys sys'
  applied : sys'.applied = sys.applied ++ [d]
  answered : d.Answered
  began : sys.server.next ≤ d.number
  alone : forall more,
    sys'.server.shared.log = sys.server.shared.log ++ more ->
    forall c, c ∈ changes more -> c.number = d.number

/-- The operations that change tabs. -/
def Request.performs : Request -> Bool
  | list => false
  | listAfterConflict => false
  | health _ => false
  | _ => true

/-- Operations one after the other, from a collection that was listed; each
with its answer and the state in which it arrived. -/
inductive Turns (options : TabStore.Options) :
    List (Delivery × System) -> System -> Prop where
  | listed {sys sys' : System} {d : Delivery}
      {collection : TabCollectionResponse} :
      Run options anyOrder sys -> Turn options sys d sys' ->
      d.request = Request.list ->
      d.res = Except.ok (SessionManager.Value.collection collection) ->
      sys'.client.collection = collection -> Turns options [] sys'
  | perform {steps : List (Delivery × System)} {sys sys' : System}
      {d : Delivery} : Turns options steps sys -> Turn options sys d sys' ->
      d.request.performs = true -> Turns options (steps ++ [(d, sys')]) sys'

/-- The client has the revision and the tabs of the server, and would not get
an order conflict. -/
structure Mirrors (sys : System) : Prop where
  revision : sys.client.collection.structureRevision =
    sys.server.shared.document.structureRevision
  order : sys.client.ids = ids sys.server.shared.document
  accepted : forall given, given.Perm sys.client.ids ->
    TabStore.orderConflict (render sys.client).rendered.structureRevision given
      sys.server.shared.document = false

/-- The client adds what the server adds. -/
def Counted (request : Request) (events : List Entry) : Prop :=
  match request with
  | Request.create _ => True
  | Request.rename _ _ => True
  | Request.reorder _ => True
  | Request.restartBridge _ => True
  | Request.terminate id => Idle id events
  | _ => False

instance (events : List Entry) : (request : Request) ->
    Decidable (Counted request events)
  | Request.create _ => isTrue trivial
  | Request.rename _ _ => isTrue trivial
  | Request.reorder _ => isTrue trivial
  | Request.restartBridge _ => isTrue trivial
  | Request.terminate id => inferInstanceAs (Decidable (Idle id events))
  | Request.list => isFalse id
  | Request.listAfterConflict => isFalse id
  | Request.close _ => isFalse id
  | Request.health _ => isFalse id
  | Request.recreate _ => isFalse id
  | Request.restart _ => isFalse id

def Delivery.Counted (d : Delivery) : Prop :=
  UseTabs.Counted d.request (own d.number d.before)

instance (d : Delivery) : Decidable d.Counted :=
  inferInstanceAs (Decidable (UseTabs.Counted d.request _))

section Answers

variable {s : State} {request : Request} {value : SessionManager.Value}
variable {events : List Entry} {first last : Shape} {revision : Nat}

theorem lifecycle_kept (h : resolved s request value = s ∨
      exists view, resolved s request value = lifecycleDone view s) :
    (resolved s request value).collection.structureRevision =
        s.collection.structureRevision ∧
      (resolved s request value).ids = s.ids := by
  rcases h with h | ⟨view, h⟩
  · rw [h]
    exact ⟨rfl, rfl⟩
  · rw [h]
    exact ⟨rfl, ids_replaceTab view s.collection.tabs⟩

structure Compared (request : Request) (events : List Entry) (s s' : State)
    (first last : Shape) : Prop where
  ids : s.ids = first.ids -> s'.ids = last.ids
  revision : s.collection.structureRevision = first.revision ->
    (s'.collection.structureRevision = last.revision <->
      Counted request events)

theorem compared_lifecycle (added : Nat)
    (h : resolved s request value = s ∨
      exists view, resolved s request value = lifecycleDone view s)
    (hlast : last = ⟨first.revision + added, first.ids⟩)
    (hadded : added = 0 <-> Counted request events) :
    Compared request events s (resolved s request value) first last := by
  rcases lifecycle_kept h with ⟨hrevision, hids⟩
  constructor
  · intro hfirst
    rw [hids, hfirst, hlast]
  · intro hfirst
    rw [hrevision, hfirst, hlast, ← hadded]
    constructor
    · intro heq
      have hsum : first.revision = first.revision + added := heq
      omega
    · intro hzero
      rw [hzero]
      rfl

theorem compared_resolved (hperforms : request.performs = true)
    (h : Reshaped events value first last (request.op revision)) :
    Compared request events s (resolved s request value) first last := by
  cases request with
  | list => cases hperforms
  | listAfterConflict => cases hperforms
  | health id => cases hperforms
  | create name =>
      rcases h with ⟨view, hvalue, hlast⟩
      rw [hvalue, hlast]
      constructor
      · intro hids
        rw [← hids]
        exact List.map_append
      · intro hrevision
        rw [← hrevision]
        exact ⟨fun _ => trivial, fun _ => rfl⟩
  | rename id name =>
      rcases h with ⟨⟨view, hvalue⟩, hlast⟩
      rw [hvalue, hlast]
      constructor
      · intro hids
        rw [← hids]
        exact ids_replaceTab view s.collection.tabs
      · intro hrevision
        rw [← hrevision]
        exact ⟨fun _ => trivial, fun _ => rfl⟩
  | reorder order =>
      rcases h with ⟨collection, hvalue, hlast⟩
      rw [hvalue, hlast]
      exact ⟨fun _ => rfl, fun _ => ⟨fun _ => trivial, fun _ => rfl⟩⟩
  | close id =>
      rcases h with ⟨hvalue, hlast⟩
      rw [hvalue, hlast]
      constructor
      · intro hids
        rw [← hids]
        exact ids_withoutTab id s.collection.tabs
      · intro hrevision
        -- The client counts one change, the server makes two.
        constructor
        · intro heq
          have hsum : s.collection.structureRevision + 1 =
              first.revision + 2 := heq
          omega
        · exact fun hcounted => hcounted.elim
  | terminate id =>
      have hdone : resolved s (Request.terminate id) value = s ∨
          exists view, resolved s (Request.terminate id) value =
            lifecycleDone view s := by
        cases value with
        | view view => exact Or.inr ⟨view, rfl⟩
        | _ => exact Or.inl rfl
      by_cases hidle : Idle id events
      · exact compared_lifecycle 0 hdone (h.1 hidle)
          ⟨fun _ => hidle, fun _ => rfl⟩
      · exact compared_lifecycle 1 hdone (h.2 hidle)
          ⟨fun hone => absurd hone (by decide), fun hi => absurd hi hidle⟩
  | recreate id =>
      have hdone : resolved s (Request.recreate id) value = s ∨
          exists view, resolved s (Request.recreate id) value =
            lifecycleDone view s := by
        cases value with
        | view view => exact Or.inr ⟨view, rfl⟩
        | _ => exact Or.inl rfl
      exact compared_lifecycle 1 hdone h
        ⟨fun hone => absurd hone (by decide), fun hc => False.elim hc⟩
  | restart id =>
      have hdone : resolved s (Request.restart id) value = s ∨
          exists view, resolved s (Request.restart id) value =
            lifecycleDone view s := by
        cases value with
        | view view => exact Or.inr ⟨view, rfl⟩
        | _ => exact Or.inl rfl
      exact compared_lifecycle 2 hdone h
        ⟨fun htwo => absurd htwo (by decide), fun hc => False.elim hc⟩
  | restartBridge id =>
      have hdone : resolved s (Request.restartBridge id) value = s ∨
          exists view, resolved s (Request.restartBridge id) value =
            lifecycleDone view s := by
        cases value with
        | view view => exact Or.inr ⟨view, rfl⟩
        | _ => exact Or.inl rfl
      exact compared_lifecycle 0 hdone h
        ⟨fun _ => trivial, fun _ => rfl⟩

end Answers

/-!
## Turns
-/

structure Answers (sys : System) (d : Delivery) (sys' : System) : Prop where
  applied : sys'.applied = sys.applied ++ [d]
  waiting : (d.number, d.request) ∈ sys.waiting
  log : exists o document after, sys.server.shared.log =
    d.before ++ Entry.ended d.number o d.res document :: after
  server : sys'.server = sys.server
  collection : sys'.client.collection =
    (settled sys.client d.request d.res).1.collection

section Turns

variable {options : TabStore.Options} {guard : System -> Delivery -> Prop}
variable {sys sys' : System} {d : Delivery}
variable {steps : List (Delivery × System)}

theorem rejected_collection (s : State) (conflict : Bool)
    (request : Request) :
    (rejected s conflict request).1.collection = s.collection := by
  have hrefresh : (refreshFailed s).collection = s.collection := by
    unfold refreshFailed
    split
    · rfl
    · rfl
  cases request with
  | list => exact hrefresh
  | listAfterConflict => exact hrefresh
  | reorder order =>
      cases conflict with
      | true => rfl
      | false => rfl
  | _ => rfl

theorem step_collection (hstep : Step options guard sys sys') :
    (sys'.applied = sys.applied ∧
      sys'.client.collection = sys.client.collection) ∨
      exists d, Answers sys d sys' := by
  cases hstep with
  | serve _ => exact Or.inl ⟨rfl, rfl⟩
  | send _ _ => exact Or.inl ⟨rfl, rfl⟩
  | arrive _ _ => exact Or.inl ⟨rfl, rfl⟩
  | @answer front back n request o res document before after hwaiting hlog _ =>
      have hmem : (n, request) ∈ sys.waiting := by
        rw [hwaiting]
        exact List.mem_append_right _ List.mem_cons_self
      exact Or.inr ⟨⟨n, request, res, before⟩, rfl, hmem,
        ⟨o, document, after, hlog⟩, rfl, rfl⟩
  | lose _ => exact Or.inl ⟨rfl, rejected_collection _ _ _⟩
  | abandon _ => exact Or.inl ⟨rfl, rejected_collection _ _ _⟩
  | select id =>
      refine Or.inl ⟨rfl, ?_⟩
      show (select id sys.client).collection = _
      unfold select
      split
      · rfl
      · rfl
  | render => exact Or.inl ⟨rfl, rfl⟩
  | mount _ => exact Or.inl ⟨rfl, rfl⟩

theorem reach_applied
    (hreach : Relation.ReflTransGen (Step options guard) sys sys') :
    exists list, sys'.applied = sys.applied ++ list ∧
      (list = [] -> sys'.client.collection = sys.client.collection) ∧
      forall d, list = [d] -> exists mid mid',
        Relation.ReflTransGen (Step options guard) sys mid ∧
        Answers mid d mid' ∧
        Relation.ReflTransGen (Step options guard) mid sys' ∧
        mid.client.collection = sys.client.collection ∧
        sys'.client.collection = mid'.client.collection := by
  induction hreach with
  | refl =>
      exact ⟨[], (List.append_nil _).symm, fun _ => rfl, fun _ h => nomatch h⟩
  | @tail last last' hreach hstep ih =>
      rcases ih with ⟨list, happlied, hnone, hone⟩
      rcases step_collection hstep with ⟨hsame, hcollection⟩ | ⟨d, hanswers⟩
      · refine ⟨list, hsame.trans happlied, ?_, ?_⟩
        · intro hlist
          rw [hcollection]
          exact hnone hlist
        · intro d hlist
          rcases hone d hlist with
            ⟨mid, mid', hmid, hanswers, hback, hbefore, hafter⟩
          exact ⟨mid, mid', hmid, hanswers, hback.tail hstep, hbefore,
            hcollection.trans hafter⟩
      · refine ⟨list ++ [d], ?_, ?_, ?_⟩
        · rw [hanswers.applied, happlied, List.append_assoc]
        · intro hlist
          cases list with
          | nil => cases hlist
          | cons x rest => cases hlist
        · intro d' hlist
          cases list with
          | nil =>
              cases hlist
              exact ⟨last, last', hreach, hanswers,
                Relation.ReflTransGen.single hstep, hnone rfl, rfl⟩
          | cons x rest =>
              cases rest with
              | nil => cases hlist
              | cons y rest => cases hlist

theorem reach_run (hrun : Run options guard sys)
    (hreach : Relation.ReflTransGen (Step options guard) sys sys') :
    Run options guard sys' := by
  rcases hrun with ⟨document, hdocument, hfirst⟩
  exact ⟨document, hdocument, hfirst.trans hreach⟩

theorem reach_later (hnfc : NormalForm options.nfc)
    (hrun : Run options guard sys)
    (hreach : Relation.ReflTransGen (Step options guard) sys sys') :
    SessionManager.Later sys.server.shared sys'.server.shared := by
  induction hreach with
  | refl => exact SessionManager.later_refl _
  | tail hreach hstep ih =>
      have hsane := (run_basics hnfc (reach_run hrun hreach)).sane
      exact ih.trans (step_later hsane hstep)

theorem Turn.stretch (hnfc : NormalForm options.nfc)
    (hrun : Run options anyOrder sys) (h : Turn options sys d sys') :
    exists s value revision, d.res = Except.ok value ∧
      s.collection = sys.client.collection ∧
      sys'.client.collection = (resolved s d.request value).collection ∧
      Stretch d.number (d.request.op revision) (Except.ok value)
        sys.server.shared.log d.before sys.server.shared.document
        sys'.server.shared := by
  rcases h.answered with ⟨value, hvalue⟩
  rcases reach_applied h.steps with ⟨list, happlied, _, hone⟩
  have hlist : list = [d] := by
    rw [h.applied] at happlied
    exact (List.append_cancel_left happlied).symm
  rcases hone d hlist with
    ⟨mid, mid', hmid, hanswers, hback, hbefore, hafter⟩
  have hmidrun := reach_run hrun hmid
  have hsane := (run_basics hnfc hmidrun).sane
  have hlater := reach_later hnfc hrun h.steps
  have hinv := SessionManager.run_inv hnfc (run_basics hnfc hrun).sane.run
  rcases hanswers.log with ⟨o, document, after, hlog⟩
  -- The operation is the one that the request has started.
  rcases hsane.tasks _ hanswers.waiting with ⟨revision, htask⟩
  have hgood := (SessionManager.run_inv hnfc hsane.run).good d.before _ after
    hlog
  have ho : o = d.request.op revision := by
    rw [hlog, SessionManager.taskOf_append hgood.1] at htask
    exact Option.some.inj htask
  refine ⟨mid.client, value, revision, hvalue, hbefore, ?_, ?_, ?_, ?_, ?_⟩
  · rw [hafter, hanswers.collection, hvalue]
    rfl
  · rcases hlater.1 with ⟨more, hmore⟩
    exact ⟨more, hmore.symm, h.alone more hmore.symm⟩
  · apply List.filter_eq_nil_iff.mpr
    intro e he hnumber
    have hlt : e.number < sys.server.next := hinv.numbers e he
    have heq : e.number = d.number := of_decide_eq_true hnumber
    have hbegan := h.began
    omega
  · rcases (reach_later hnfc hmidrun hback).1 with ⟨more, hmore⟩
    refine ⟨document, after ++ more, ?_⟩
    rw [← hmore, hlog, ← ho, ← hvalue]
    simp
  · rcases hlater.2 with ⟨more, hmore⟩
    rw [← hmore]
    exact SessionManager.getElem?_append_of_some hinv.current more

theorem mirrors_of (hnfc : NormalForm options.nfc)
    (hrun : Run options guard sys)
    (hrevision : sys.client.collection.structureRevision =
      sys.server.shared.document.structureRevision)
    (hids : sys.client.ids = ids sys.server.shared.document) :
    Mirrors sys := by
  refine ⟨hrevision, hids, ?_⟩
  intro given hperm
  have hinv := SessionManager.run_inv hnfc (run_basics hnfc hrun).sane.run
  rw [hids] at hperm
  show TabStore.orderConflict sys.client.collection.structureRevision given
    sys.server.shared.document = false
  rw [hrevision]
  exact TabStore.orderConflict_of_perm hinv.history.valid.distinct hperm

theorem Turn.compared (hnfc : NormalForm options.nfc)
    (hrun : Run options anyOrder sys) (h : Turn options sys d sys')
    (hperforms : d.request.performs = true) :
    (sys.client.ids = ids sys.server.shared.document ->
      sys'.client.ids = ids sys'.server.shared.document) ∧
    (Mirrors sys -> (Mirrors sys' <-> d.Counted)) := by
  have hrun' := reach_run hrun h.steps
  rcases h.stretch hnfc hrun with
    ⟨s, value, revision, _, hbefore, hafter, hstretch⟩
  have hinv := SessionManager.run_inv hnfc (run_basics hnfc hrun').sane.run
  have hcompared := compared_resolved (s := s) hperforms
    (hstretch.reshaped hinv)
  have hids : sys.client.ids = ids sys.server.shared.document ->
      sys'.client.ids = ids sys'.server.shared.document := by
    intro hfirst
    have hs : s.ids = (shapeOf sys.server.shared.document).ids := by
      rw [State.ids, hbefore]
      exact hfirst
    have hlast := hcompared.ids hs
    rw [State.ids, ← hafter] at hlast
    exact hlast
  refine ⟨hids, ?_⟩
  intro hmirrors
  have hcounted := hcompared.revision (by
    rw [hbefore]
    exact hmirrors.revision)
  rw [← hafter] at hcounted
  constructor
  · exact fun hmirrors' => hcounted.mp hmirrors'.revision
  · exact fun hc => mirrors_of hnfc hrun' (hcounted.mpr hc)
      (hids hmirrors.order)

theorem Turn.listed (hnfc : NormalForm options.nfc)
    (hrun : Run options anyOrder sys) (h : Turn options sys d sys')
    (hrequest : d.request = Request.list) {collection : TabCollectionResponse}
    (hres : d.res = Except.ok (SessionManager.Value.collection collection))
    (hcollection : sys'.client.collection = collection) : Mirrors sys' := by
  have hrun' := reach_run hrun h.steps
  rcases h.stretch hnfc hrun with ⟨s, value, revision, hvalue, _, _, hstretch⟩
  have hinv := SessionManager.run_inv hnfc (run_basics hnfc hrun').sane.run
  have hreshaped := hstretch.reshaped hinv
  rw [hrequest] at hreshaped
  rcases hreshaped with ⟨collection', hvalue', hshape⟩
  have heq : collection' = collection := by
    rw [hvalue', hres] at hvalue
    cases hvalue
    rfl
  rw [heq, ← hcollection] at hshape
  exact mirrors_of hnfc hrun' (congrArg Shape.revision hshape).symm
    (congrArg Shape.ids hshape).symm

theorem Turns.run (h : Turns options steps sys) :
    Run options anyOrder sys := by
  induction h with
  | listed hrun hturn _ _ _ => exact reach_run hrun hturn.steps
  | perform _ hturn _ ih => exact reach_run ih hturn.steps

theorem forall_snoc {value : Type} {P : value -> Prop} {list : List value}
    {a : value} : (forall x, x ∈ list ++ [a] -> P x) <->
      (forall x, x ∈ list -> P x) ∧ P a := by
  constructor
  · intro h
    exact ⟨fun x hx => h x (List.mem_append_left _ hx),
      h a (List.mem_append_right _ (List.mem_singleton.mpr rfl))⟩
  · intro h x hx
    rcases List.mem_append.mp hx with hx | hx
    · exact h.1 x hx
    · rw [List.mem_singleton.mp hx]
      exact h.2

theorem Turns.order (hnfc : NormalForm options.nfc)
    (h : Turns options steps sys) :
    sys.client.ids = ids sys.server.shared.document := by
  induction h with
  | listed hrun hturn hrequest hres hcollection =>
      exact (hturn.listed hnfc hrun hrequest hres hcollection).order
  | perform hturns hturn hperforms ih =>
      exact (hturn.compared hnfc hturns.run hperforms).1 ih

theorem Turns.mirrored (hnfc : NormalForm options.nfc)
    (h : Turns options steps sys) :
    ((forall x, x ∈ steps -> Mirrors x.2) -> Mirrors sys) ∧
      ((forall x, x ∈ steps -> Mirrors x.2) <->
        forall x, x ∈ steps -> x.1.Counted) := by
  induction h with
  | listed hrun hturn hrequest hres hcollection =>
      exact ⟨fun _ => hturn.listed hnfc hrun hrequest hres hcollection,
        ⟨fun _ _ hx => (nomatch hx), fun _ _ hx => (nomatch hx)⟩⟩
  | @perform steps sys sys' d hturns hturn hperforms ih =>
      have hcompared := (hturn.compared hnfc hturns.run hperforms).2
      rw [forall_snoc, forall_snoc]
      refine ⟨fun hall => hall.2, ?_⟩
      constructor
      · intro hall
        exact ⟨ih.2.mp hall.1, (hcompared (ih.1 hall.1)).mp hall.2⟩
      · intro hall
        have hfront := ih.2.mpr hall.1
        exact ⟨hfront, (hcompared (ih.1 hfront)).mpr hall.2⟩

/-- The client mirrors the server after every operation exactly when every
operation is one that it counts; the order of the tabs agrees in any case. -/
theorem revision_mirrored (hnfc : NormalForm options.nfc)
    (h : Turns options steps sys) :
    sys.client.ids = ids sys.server.shared.document ∧
      ((forall x, x ∈ steps -> Mirrors x.2) <->
        forall x, x ∈ steps -> x.1.Counted) :=
  ⟨h.order hnfc, (h.mirrored hnfc).2⟩

end Turns

/-!
### An operation that the client counts, and one that it does not
-/

/-- The answer that has arrived in a turn, if it was one. -/
def turnDone (sys sys' : System) : Option Delivery :=
  match sys'.applied.drop sys.applied.length with
  | [d] =>
      if d.res.isOk && decide (sys.server.next ≤ d.number) &&
          (changes (sys'.server.shared.log.drop
            sys.server.shared.log.length)).all
              (fun c => decide (c.number = d.number)) then some d
      else none
  | _ => none

theorem turn_of_play {options : TabStore.Options}
    {sc : Script (SessionManager.manager options)} {sys sys' : System}
    {actions : List Action} {d : Delivery}
    (hplay : sys.play sc (fun _ _ => true) actions = some sys')
    (hdone : turnDone sys sys' = some d) : Turn options sys d sys' := by
  have hsteps : Relation.ReflTransGen (Step options anyOrder) sys sys' :=
    play_reachable (fun _ _ _ => trivial) hplay
  rcases reach_applied hsteps with ⟨list, happlied, _, _⟩
  unfold turnDone at hdone
  rw [happlied, List.drop_left] at hdone
  split at hdone
  · split at hdone
    · rename_i hchecked
      cases hdone
      simp only [Bool.and_eq_true, decide_eq_true_eq, List.all_eq_true]
        at hchecked
      rcases hchecked with ⟨⟨hok, hbegan⟩, halone⟩
      refine ⟨hsteps, happlied, ?_, hbegan, ?_⟩
      · cases hres : d.res with
        | ok value => exact ⟨value, hres⟩
        | error thrown =>
            rw [hres] at hok
            cases hok
      · intro more hmore c hc
        rw [hmore, List.drop_left] at halone
        exact halone c hc
    · cases hdone
  · cases hdone

/-- The client has listed the tabs of a document with one stopped tab. -/
def calmListed : Option System :=
  let start := System.initial (calmDocument DesiredState.stopped)
  (start.play calmScript (fun _ _ => true)
    [Action.send Request.list, Action.arrive, Action.resume 0,
      Action.answer 0]).bind fun sys =>
  (turnDone start sys).bind fun d =>
  if d.request = Request.list ∧ d.res = Except.ok
      (SessionManager.Value.collection sys.client.collection) then some sys
  else none

theorem calmListed_turns {sys : System} (h : calmListed = some sys) :
    Turns calmOptions [] sys := by
  rcases Option.bind_eq_some_iff.mp h with ⟨sys', hlist, hrest⟩
  rcases Option.bind_eq_some_iff.mp hrest with ⟨d, hd, hrest⟩
  split at hrest
  · rename_i hchecked
    cases hrest
    have hstart : Run calmOptions anyOrder
        (System.initial (calmDocument DesiredState.stopped)) :=
      ⟨_, calmDocument_accepted _, Relation.ReflTransGen.refl⟩
    exact Turns.listed hstart (turn_of_play hlist hd) hchecked.1 hchecked.2 rfl
  · cases hrest

/-- The client makes these requests, and each goes these ways at the server. -/
def performEach : List (Request × List Action) -> System ->
    Option (List (Delivery × System) × System)
  | [], sys => some ([], sys)
  | (request, actions) :: rest, sys =>
      (sys.play calmScript (fun _ _ => true)
        ([Action.render, Action.send request, Action.arrive] ++ actions ++
          [Action.answer 0])).bind fun sys' =>
      (turnDone sys sys').bind fun d =>
      if d.request.performs = true then
        (performEach rest sys').map fun found =>
          ((d, sys') :: found.1, found.2)
      else none

theorem performEach_turns {front : List (Delivery × System)}
    {requests : List (Request × List Action)} {sys : System}
    {found : List (Delivery × System) × System}
    (hturns : Turns calmOptions front sys)
    (h : performEach requests sys = some found) :
    Turns calmOptions (front ++ found.1) found.2 := by
  induction requests generalizing front sys found with
  | nil =>
      cases h
      rw [List.append_nil]
      exact hturns
  | cons x rest ih =>
      rcases x with ⟨request, actions⟩
      rcases Option.bind_eq_some_iff.mp h with ⟨sys', hplay, hrest⟩
      rcases Option.bind_eq_some_iff.mp hrest with ⟨d, hd, hrest⟩
      split at hrest
      · rename_i hperforms
        rcases Option.map_eq_some_iff.mp hrest with ⟨more, hmore, hfound⟩
        subst hfound
        have hnext := ih
          (Turns.perform hturns (turn_of_play hplay hd) hperforms) hmore
        rw [List.append_assoc] at hnext
        exact hnext
      · cases hrest

def calmSteps (requests : List (Request × List Action)) :
    Option (List (Delivery × System) × System) :=
  calmListed.bind (performEach requests)

theorem calmSteps_turns {requests : List (Request × List Action)}
    {found : List (Delivery × System) × System}
    (h : calmSteps requests = some found) :
    Turns calmOptions found.1 found.2 := by
  rcases Option.bind_eq_some_iff.mp h with ⟨sys, hsys, hfound⟩
  exact performEach_turns (calmListed_turns hsys) hfound

def recreated : List (Request × List Action) :=
  [(Request.recreate (calmId 0), List.replicate 6 (Action.resume 0))]

theorem calmSteps_recreated :
    (calmSteps recreated).map (fun found => found.1.map fun x =>
      (x.2.client.collection.structureRevision,
        x.2.server.shared.document.structureRevision)) = some [(7, 8)] := by
  decide +kernel

theorem revision_mirrored_recreate : exists steps sys,
    Turns calmOptions steps sys ∧
      ¬ forall x, x ∈ steps -> Mirrors x.2 := by
  rcases Option.map_eq_some_iff.mp calmSteps_recreated with
    ⟨found, hfound, hrevisions⟩
  refine ⟨found.1, found.2, calmSteps_turns hfound, ?_⟩
  intro hall
  rcases List.map_eq_singleton_iff.mp hrevisions with ⟨x, hx, hrevision⟩
  have hmirrors := (hall x (by rw [hx]; exact List.mem_singleton_self _)).revision
  rw [Prod.mk.injEq] at hrevision
  rw [hrevision.1, hrevision.2] at hmirrors
  cases hmirrors

def counted : List (Request × List Action) :=
  [(Request.create none, List.replicate 3 (Action.resume 0)),
    (Request.rename (calmId 0) (js "Build"), List.replicate 3 (Action.resume 0)),
    (Request.reorder [calmId 1, calmId 0], List.replicate 3 (Action.resume 0)),
    (Request.restartBridge (calmId 1), [Action.resume 0, Action.beside] ++
      List.replicate 2 (Action.resume 0)),
    (Request.terminate (calmId 0), List.replicate 2 (Action.resume 0))]

theorem calmSteps_counted :
    (calmSteps counted).map (fun found =>
      decide (found.1.map (fun x => x.1.request) = counted.map Prod.fst ∧
        forall x, x ∈ found.1 -> x.1.Counted)) = some true := by
  decide +kernel

theorem revision_mirrored_counted : exists steps sys,
    Turns calmOptions steps sys ∧
      steps.map (fun x => x.1.request) = counted.map Prod.fst ∧
      (forall x, x ∈ steps -> Mirrors x.2) := by
  rcases Option.map_eq_some_iff.mp calmSteps_counted with
    ⟨found, hfound, hdone⟩
  rcases of_decide_eq_true hdone with ⟨hrequests, hcounted⟩
  have hturns := calmSteps_turns hfound
  exact ⟨found.1, found.2, hturns, hrequests,
    (revision_mirrored normalForm_id hturns).2.mpr hcounted⟩

end UseTabs
end Client
end FlanTerminal

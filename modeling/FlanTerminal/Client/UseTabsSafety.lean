import FlanTerminal.Client.UseTabs

/-!
# What the client lists

List answers replace the collection and create answers add to it, so what is
listed depends on the order in which answers arrive.  This module says which
orders keep the list free of duplicates, and which keep it up to date.
-/

namespace FlanTerminal
namespace Client
namespace UseTabs

open Foundation
open Shared
open Server
open SessionManager (Entry Inv taskOf own ids seenAt changedAt Created)
open SessionManager (calmOptions calmScript calmDocument calmId calmTime)
open SessionManager (calmDocument_accepted)

def State.ids (s : State) : List JsString :=
  s.collection.tabs.map TabView.id

/-!
## Requests and operations
-/

/-- Every operation that the client waits for was started by its request. -/
structure Sane (options : TabStore.Options) (sys : System) : Prop where
  run : SessionManager.Run options sys.server
  tasks : forall x, x ∈ sys.waiting -> exists revision,
    taskOf x.1 sys.server.shared.log = some (x.2.op revision)
  numbers : forall x, x ∈ sys.waiting -> x.1 < sys.server.next
  distinct : (sys.waiting.map Prod.fst).Nodup
  sent : forall x, x ∈ sys.sent -> exists revision, x.2 = x.1.op revision

section Invariants

variable {options : TabStore.Options} {guard : System -> Delivery -> Prop}
variable {sys sys' : System}

theorem run_step {cfg cfg' : ServerRun}
    (hrun : SessionManager.Run options cfg)
    (hstep : Foundation.Step (SessionManager.manager options) cfg cfg') :
    SessionManager.Run options cfg' := by
  rcases hrun with ⟨document, hdocument, hreach⟩
  exact ⟨document, hdocument, hreach.tail hstep⟩

theorem next_settle {M : Machine SessionManager.State SessionManager.ports
      SessionManager.Thrown SessionManager.Value SessionManager.Op}
    {stack parked : List (Frame SessionManager.State SessionManager.ports
      SessionManager.Thrown SessionManager.Value SessionManager.Op)}
    {next n : Nat} {o : SessionManager.Op} {ph : Phase}
    {s : SessionManager.State}
    {out : Outcome SessionManager.State SessionManager.ports
      SessionManager.Thrown SessionManager.Value} :
    (Config.settle M stack parked next n o ph s out).next = next := by
  cases out with
  | done res => rfl
  | wait c k =>
      simp only [Config.settle]
      split
      · rfl
      · rfl

theorem next_le {cfg cfg' : ServerRun}
    (hstep : Foundation.Step (SessionManager.manager options) cfg cfg') :
    cfg.next ≤ cfg'.next := by
  cases hstep with
  | enter o _ _ =>
      rw [next_settle]
      exact Nat.le_succ _
  | answer r _ _ =>
      rw [next_settle]
  | resume r _ _ =>
      rw [next_settle]
  | env _ => exact Nat.le_refl _

theorem taskOf_later {s s' : SessionManager.State} {n : Nat}
    {o : SessionManager.Op} (h : taskOf n s.log = some o)
    (hlater : SessionManager.Later s s') : taskOf n s'.log = some o := by
  rcases hlater.1 with ⟨more, hmore⟩
  rw [← hmore]
  exact SessionManager.taskOf_append h more

theorem arrives {o : SessionManager.Op} {cfg : ServerRun}
    {s' : SessionManager.State}
    {out : Outcome SessionManager.State SessionManager.ports
      SessionManager.Thrown SessionManager.Value}
    (hseg : Seg (SessionManager.manager options) cfg.next
      (SessionManager.body options cfg.next o)
      (cfg.shared.record (Entry.entered cfg.next o)) s' out) :
    Foundation.Step (SessionManager.manager options) cfg
      (Config.settle (SessionManager.manager options) cfg.stack cfg.parked
        (cfg.next + 1) cfg.next o Phase.first s' out) :=
  Foundation.Step.enter o trivial hseg

theorem later_settle {stack parked : List (Frame SessionManager.State
      SessionManager.ports SessionManager.Thrown SessionManager.Value
      SessionManager.Op)} {next n : Nat} {o : SessionManager.Op} {ph : Phase}
    {s : SessionManager.State}
    {out : Outcome SessionManager.State SessionManager.ports
      SessionManager.Thrown SessionManager.Value} :
    SessionManager.Later s (Config.settle (SessionManager.manager options)
      stack parked next n o ph s out).shared := by
  cases out with
  | done res => exact SessionManager.later_record s _
  | wait c k =>
      simp only [Config.settle]
      split
      · exact SessionManager.later_refl s
      · exact SessionManager.later_refl s

theorem taskOf_arrived {cs : Census} {o : SessionManager.Op}
    {cfg : ServerRun} {s' : SessionManager.State}
    {out : Outcome SessionManager.State SessionManager.ports
      SessionManager.Thrown SessionManager.Value}
    (hinv : Inv options cs cfg.shared) (hcs : cs.next = cfg.next)
    (hseg : Seg (SessionManager.manager options) cfg.next
      (SessionManager.body options cfg.next o)
      (cfg.shared.record (Entry.entered cfg.next o)) s' out) :
    taskOf cfg.next (Config.settle (SessionManager.manager options) cfg.stack
      cfg.parked (cfg.next + 1) cfg.next o Phase.first s' out).shared.log =
        some o := by
  have hown : own cfg.next cfg.shared.log = [] := by
    apply List.filter_eq_nil_iff.mpr
    intro e he hnumber
    have hlt := hinv.numbers e he
    rw [of_decide_eq_true hnumber, hcs] at hlt
    exact absurd hlt (Nat.lt_irrefl _)
  have hstart : taskOf cfg.next
      (cfg.shared.record (Entry.entered cfg.next o)).log = some o := by
    rw [taskOf, SessionManager.own_record_same (n := cfg.next) rfl, hown]
    rfl
  have hlater := (SessionManager.manager_within.seg hseg
    (SessionManager.later_body cfg.next o)).1
  exact taskOf_later hstart (hlater.trans later_settle)

theorem sane_initial {document : PersistedTabsDocument}
    (h : parseDocument options.nfc document = some document) :
    Sane options (System.initial document) where
  run := ⟨document, h, Relation.ReflTransGen.refl⟩
  tasks _ hx := nomatch hx
  numbers _ hx := nomatch hx
  distinct := List.nodup_nil
  sent _ hx := nomatch hx

theorem Sane.serve (h : Sane options sys) {server : ServerRun}
    (hstep : Foundation.Step (SessionManager.manager options) sys.server
      server) : Sane options { sys with server := server } where
  run := run_step h.run hstep
  tasks := by
    intro x hx
    rcases h.tasks x hx with ⟨revision, htask⟩
    exact ⟨revision, taskOf_later htask
      (SessionManager.run_later h.run hstep)⟩
  numbers x hx := Nat.lt_of_lt_of_le (h.numbers x hx) (next_le hstep)
  distinct := h.distinct
  sent := h.sent

theorem mem_of_split {value : Type} {list front back : List value}
    {a x : value} (h : list = front ++ a :: back) (hx : x ∈ front ++ back) :
    x ∈ list := by
  rw [h]
  rcases List.mem_append.mp hx with hx | hx
  · exact List.mem_append_left _ hx
  · exact List.mem_append_right _ (List.mem_cons_of_mem a hx)

theorem Sane.drop (h : Sane options sys) {front back : List (Nat × Request)}
    {x : Nat × Request} (hwaiting : sys.waiting = front ++ x :: back)
    {client : State} {sent : List (Request × SessionManager.Op)}
    {applied : List Delivery}
    (hsent : forall y, y ∈ sent -> exists revision, y.2 = y.1.op revision) :
    Sane options ⟨sys.server, client, sent, front ++ back, applied⟩ where
  run := h.run
  tasks y hy := h.tasks y (mem_of_split hwaiting hy)
  numbers y hy := h.numbers y (mem_of_split hwaiting hy)
  distinct := by
    have hdistinct := h.distinct
    rw [hwaiting, List.map_append, List.map_cons] at hdistinct
    rw [List.map_append]
    exact (List.nodup_middle.mp hdistinct).of_cons
  sent := hsent

theorem Sane.step (hnfc : NormalForm options.nfc) (h : Sane options sys)
    (hstep : Step options guard sys sys') : Sane options sys' := by
  cases hstep with
  | serve hserve => exact h.serve hserve
  | send request _ =>
      refine ⟨h.run, h.tasks, h.numbers, h.distinct, ?_⟩
      intro x hx
      rcases List.mem_append.mp hx with hx | hx
      · exact h.sent x hx
      · rw [List.mem_singleton.mp hx]
        exact ⟨_, rfl⟩
  | @arrive front back request o s' out hsent hseg =>
      have hserved := h.serve (arrives hseg)
      have hinv := SessionManager.run_inv hnfc h.run
      have hmem : (request, o) ∈ sys.sent := by
        rw [hsent]
        exact List.mem_append_right _ List.mem_cons_self
      rcases h.sent _ hmem with ⟨revision, ho⟩
      refine ⟨hserved.run, ?_, ?_, ?_, ?_⟩
      · intro x hx
        rcases List.mem_append.mp hx with hx | hx
        · exact hserved.tasks x hx
        · rw [List.mem_singleton.mp hx]
          exact ⟨revision, (taskOf_arrived hinv rfl hseg).trans
            (congrArg some ho)⟩
      · intro x hx
        rcases List.mem_append.mp hx with hx | hx
        · exact hserved.numbers x hx
        · rw [List.mem_singleton.mp hx, next_settle]
          exact Nat.lt_succ_self _
      · rw [List.map_append, List.nodup_append]
        refine ⟨h.distinct, List.nodup_singleton _, ?_⟩
        intro a ha b hb heq
        rcases List.mem_map.mp ha with ⟨x, hx, hxa⟩
        have hlt := h.numbers x hx
        rw [hxa, heq, List.mem_singleton.mp hb] at hlt
        exact Nat.lt_irrefl _ hlt
      · exact fun x hx => h.sent x (mem_of_split hsent hx)
  | answer hwaiting _ _ =>
      apply h.drop hwaiting
      intro y hy
      rcases List.mem_append.mp hy with hy | hy
      · exact h.sent y hy
      · rcases Option.map_eq_some_iff.mp (Option.mem_toList.mp hy) with
          ⟨next, _, hnext⟩
        rw [← hnext]
        exact ⟨_, rfl⟩
  | lose hsent =>
      exact ⟨h.run, h.tasks, h.numbers, h.distinct,
        fun x hx => h.sent x (mem_of_split hsent hx)⟩
  | abandon hwaiting => exact h.drop hwaiting h.sent
  | select id => exact ⟨h.run, h.tasks, h.numbers, h.distinct, h.sent⟩
  | render => exact ⟨h.run, h.tasks, h.numbers, h.distinct, h.sent⟩
  | mount mounted => exact ⟨h.run, h.tasks, h.numbers, h.distinct, h.sent⟩

end Invariants

/-!
## What an answer does
-/

def Request.replaces : Request -> Bool
  | list => true
  | listAfterConflict => true
  | reorder _ => true
  | _ => false

/-- The answer is a collection that lists the tab. -/
def Delivery.Lists (d : Delivery) (id : JsString) : Prop :=
  exists collection,
    d.res = Except.ok (SessionManager.Value.collection collection) ∧
      id ∈ collection.tabs.map TabView.id

/-- The answer is the view of a tab that was created. -/
def Delivery.Creates (d : Delivery) (id : JsString) : Prop :=
  exists name view, d.request = Request.create name ∧
    d.res = Except.ok (SessionManager.Value.view view) ∧ view.id = id

def Delivery.Closes (d : Delivery) (id : JsString) : Prop :=
  d.request = Request.close id ∧ exists value, d.res = Except.ok value

structure Delivery.Passive (d : Delivery) : Prop where
  creates : forall id, ¬ d.Creates id
  closes : forall id, ¬ d.Closes id

structure RemovedAt (history : List PersistedTabsDocument) (k : Nat)
    (id : JsString) : Prop where
  before : exists old, history[k]? = some old ∧ id ∈ ids old
  after : exists new, history[k + 1]? = some new ∧ id ∉ ids new

/-- What an answer does to the list of the client. -/
inductive Effect (history : List PersistedTabsDocument) (d : Delivery)
    (s s' : State) : Prop where
  | kept : d.Passive -> s'.ids = s.ids -> s'.selectedId = s.selectedId ->
      Effect history d s s'
  | replaced (document : PersistedTabsDocument)
      (collection : TabCollectionResponse) :
      d.request.replaces = true ->
      d.res = Except.ok (SessionManager.Value.collection collection) ->
      collection.tabs.map TabView.id = ids document ->
      history[seenAt d.number d.before]? = some document ->
      s'.ids = ids document ->
      (forall id, s.selectedId = some id -> id ∈ ids document ->
        s'.selectedId = some id) ->
      Effect history d s s'
  | created (name : Option JsString) (id : JsString)
      (document : PersistedTabsDocument) :
      d.request = Request.create name -> d.Creates id ->
      history[seenAt d.number d.before]? = some document ->
      id ∈ ids document ->
      Created d.number name (own d.number d.before) id ->
      s'.ids = s.ids ++ [id] ->
      Effect history d s s'
  | closed (id : JsString) (k : Nat) : d.Closes id ->
      RemovedAt history k id -> k + 1 ≤ changedAt d.number d.before ->
      s'.ids = s.ids.filter (fun x => x ≠ id) ->
      (s.selectedId ≠ some id -> s'.selectedId = s.selectedId) ->
      Effect history d s s'

section Effects

variable {history : List PersistedTabsDocument} {s : State} {n : Nat}
variable {before : List Entry}

theorem ids_replaceTab (view : TabView) (tabs : List TabView) :
    (replaceTab view tabs).map TabView.id = tabs.map TabView.id := by
  rw [replaceTab, List.map_map]
  apply List.map_congr_left
  intro tab _
  show (if tab.id = view.id then view else tab).id = tab.id
  split
  · rename_i h
    exact h.symm
  · rfl

theorem ids_withPosition (tabs : List TabView) :
    (tabs.mapIdx withPosition).map TabView.id = tabs.map TabView.id := by
  apply List.ext_getElem?
  intro i
  rw [List.getElem?_map, List.getElem?_mapIdx, List.getElem?_map]
  cases tabs[i]? with
  | none => rfl
  | some tab => rfl

theorem ids_withoutTab (id : JsString) (tabs : List TabView) :
    (withoutTab id tabs).map TabView.id =
      (tabs.map TabView.id).filter fun x => x ≠ id := by
  rw [withoutTab, ids_withPosition, List.filter_map]
  rfl

theorem selected_applyCollection {next : TabCollectionResponse}
    {id : JsString} (h : s.selectedId = some id)
    (hid : id ∈ next.tabs.map TabView.id) :
    (applyCollection next s).selectedId = some id := by
  rcases List.mem_map.mp hid with ⟨tab, htab, heq⟩
  have hany : (next.tabs.any fun tab => decide (tab.id = id)) = true :=
    List.any_eq_true.mpr ⟨tab, htab, decide_eq_true heq⟩
  simp [applyCollection, h, Option.filter, hany]

theorem rejected_kept (conflict : Bool) (request : Request) :
    (rejected s conflict request).1.ids = s.ids ∧
      (rejected s conflict request).1.selectedId = s.selectedId := by
  cases request with
  | list =>
      simp only [rejected, refreshFailed]
      split
      · exact ⟨rfl, rfl⟩
      · exact ⟨rfl, rfl⟩
  | listAfterConflict =>
      simp only [rejected, refreshFailed]
      split
      · exact ⟨rfl, rfl⟩
      · exact ⟨rfl, rfl⟩
  | reorder ids =>
      simp only [rejected]
      split
      · exact ⟨rfl, rfl⟩
      · exact ⟨rfl, rfl⟩
  | create name => exact ⟨rfl, rfl⟩
  | rename id name => exact ⟨rfl, rfl⟩
  | close id => exact ⟨rfl, rfl⟩
  | health id => exact ⟨rfl, rfl⟩
  | terminate id => exact ⟨rfl, rfl⟩
  | recreate id => exact ⟨rfl, rfl⟩
  | restart id => exact ⟨rfl, rfl⟩
  | restartBridge id => exact ⟨rfl, rfl⟩

theorem passive_of_request {d : Delivery}
    (hcreate : forall name, d.request ≠ Request.create name)
    (hclose : forall id, d.request ≠ Request.close id) : d.Passive := by
  constructor
  · rintro id ⟨name, view, hrequest, _⟩
    exact hcreate name hrequest
  · rintro id ⟨hrequest, _⟩
    exact hclose id hrequest

theorem passive_of_error {d : Delivery} {thrown : SessionManager.Thrown}
    (h : d.res = Except.error thrown) : d.Passive := by
  constructor
  · rintro id ⟨name, view, _, hres, _⟩
    rw [h] at hres
    cases hres
  · rintro id ⟨_, value, hres⟩
    rw [h] at hres
    cases hres

theorem effect_view {d : Delivery} (view : TabView) (s : State)
    (h : d.Passive) : Effect history d s (lifecycleDone view s) :=
  Effect.kept h (ids_replaceTab view s.collection.tabs) rfl

theorem ids_collected {events : List Entry}
    {collection : TabCollectionResponse}
    (h : SessionManager.Collected events collection) :
    exists document, SessionManager.lastRead events = some document ∧
      collection.tabs.map TabView.id = ids document := by
  rcases h with ⟨front, m, document, hevents, _, htabs⟩
  refine ⟨document, ?_, ?_⟩
  · rw [hevents]
    exact SessionManager.lastRead_append rfl
  rw [ids, ← htabs, List.map_map]
  rfl

theorem effect_collection {d : Delivery} {s s' : State}
    {collection : TabCollectionResponse}
    (hplaced : EveryEntry (SessionManager.Placed history) d.before)
    (hreplaces : d.request.replaces = true)
    (hres : d.res = Except.ok (SessionManager.Value.collection collection))
    (hcollected : SessionManager.Collected (own d.number d.before) collection)
    (hcollection : s'.collection = collection)
    (hselected : s'.selectedId = (applyCollection collection s).selectedId) :
    Effect history d s s' := by
  rcases ids_collected hcollected with ⟨document, hread, hids⟩
  apply Effect.replaced document collection hreplaces hres hids
    (SessionManager.seenAt_history hplaced hread)
  · rw [State.ids, hcollection]
    exact hids
  · intro id hid hmem
    rw [hselected]
    apply selected_applyCollection hid
    rw [hids]
    exact hmem

theorem mem_ids_of_findRecord {document : PersistedTabsDocument}
    {id : JsString} {tab : TabRecord}
    (h : SessionManager.findRecord document id = some tab) :
    id ∈ ids document := by
  rcases TabStore.find_some h with ⟨htab, hid⟩
  rw [← hid]
  exact List.mem_map_of_mem htab

theorem committed_of_changed {e : Entry}
    (h : SessionManager.markOf e = some SessionManager.Mark.changed) :
    exists m mutation old new, e = Entry.committed m mutation old new ∧
      forall id state, mutation ≠ TabStore.Mutation.setDesiredState id state := by
  unfold SessionManager.markOf at h
  split at h
  · cases h
  · cases h
  · rename_i m mutation old new hstopped hactive
    refine ⟨m, mutation, old, new, rfl, ?_⟩
    intro id state hmutation
    cases state with
    | active => exact hactive id hmutation
    | stopped => exact hstopped id hmutation
  all_goals cases h

theorem ids_removed {options : TabStore.Options}
    {sources : TabStore.Sources} {old new : PersistedTabsDocument}
    {id : JsString} (h : TabStore.Committed options sources old
      (TabStore.Mutation.remove id) new) : id ∈ ids old ∧ id ∉ ids new := by
  cases h with
  | remove tab htab hid =>
      constructor
      · rw [← hid]
        exact List.mem_map_of_mem htab
      · rw [ids, TabStore.ids_renumber]
        intro hmem
        rcases List.mem_map.mp hmem with ⟨other, hother, heq⟩
        exact of_decide_eq_true (List.mem_filter.mp hother).2 heq

theorem removed_by_close {options : TabStore.Options} {cs : Census}
    {server : SessionManager.State} (hinv : Inv options cs server)
    {after : List Entry} (hlog : server.log = before ++ after) {id : JsString}
    (htask : taskOf n before = some (SessionManager.Op.closeTab id))
    (hmarks : SessionManager.marks (own n before) =
      SessionManager.stopped true true ++ [SessionManager.Mark.changed]) :
    exists k, RemovedAt server.history k id ∧ k + 1 ≤ changedAt n before := by
  have hchanged : SessionManager.Mark.changed ∈
      SessionManager.marks (own n before) := by
    rw [hmarks]
    exact List.mem_append_right _ (List.mem_singleton.mpr rfl)
  rcases List.mem_filterMap.mp hchanged with ⟨e, he, hmark⟩
  rcases committed_of_changed hmark with ⟨m, mutation, old, new, heq, hother⟩
  subst heq
  have hm : m = n := of_decide_eq_true (List.mem_filter.mp he).2
  subst hm
  have hmem := SessionManager.mem_of_own he
  rcases SessionManager.proper_of_committed hinv hlog htask hmem with
    ⟨hproper, sources, hcommitted⟩
  have hremove : mutation = TabStore.Mutation.remove id := by
    rcases hproper with ⟨state, hstate⟩ | ⟨mutation', hown, hcommit⟩
    · exact absurd hstate (hother id state)
    · cases hcommit
      exact hown
  rw [hremove] at hcommitted
  rcases List.append_of_mem hmem with ⟨front, back, hsplit⟩
  have hplace := hinv.placed front (Entry.committed m mutation old new)
    (back ++ after) (by
      rw [hlog, hsplit]
      simp)
  refine ⟨SessionManager.commits front, ⟨⟨old, hplace.1,
    (ids_removed hcommitted).1⟩, ⟨new, hplace.2,
    (ids_removed hcommitted).2⟩⟩, ?_⟩
  rw [hsplit]
  exact SessionManager.le_changedAt front back

theorem effect_resolved {options : TabStore.Options} {cs : Census}
    {server : SessionManager.State} (hinv : Inv options cs server)
    {after : List Entry} (hlog : server.log = before ++ after)
    {request : Request} {revision : Nat}
    (htask : taskOf n before = some (request.op revision))
    {value : SessionManager.Value} {document : PersistedTabsDocument}
    (houtcome : SessionManager.Outcome n (own n before) (Except.ok value)
      document (request.op revision)) :
    Effect server.history ⟨n, request, Except.ok value, before⟩ s
      (resolved s request value) := by
  have hplaced : EveryEntry (SessionManager.Placed server.history) before := by
    have hall := hinv.placed
    rw [hlog] at hall
    exact hall.front
  cases request with
  | list =>
      rcases houtcome value rfl with ⟨collection, hvalue, hcollected, _⟩
      subst hvalue
      show Effect _ _ s (refreshed collection s)
      unfold refreshed
      split
      · exact effect_collection hplaced rfl rfl hcollected rfl rfl
      · exact Effect.kept (passive_of_request nofun nofun) rfl rfl
  | listAfterConflict =>
      rcases houtcome value rfl with ⟨collection, hvalue, hcollected, _⟩
      subst hvalue
      simp only [resolved, refreshed]
      split
      · exact effect_collection hplaced rfl rfl hcollected rfl rfl
      · exact Effect.kept (passive_of_request nofun nofun) rfl rfl
  | create name =>
      rcases houtcome value rfl with ⟨view, hvalue, hviewed, _, hcreated⟩
      rcases hviewed with ⟨_, read, hread, hfind⟩
      subst hvalue
      apply Effect.created name view.id read rfl ⟨name, view, rfl, rfl, rfl⟩
        (SessionManager.seenAt_history hplaced hread)
        (mem_ids_of_findRecord hfind) hcreated
      exact List.map_append
  | rename id name =>
      rcases houtcome value rfl with ⟨view, hvalue, _, _⟩
      rw [hvalue]
      exact Effect.kept (passive_of_request nofun nofun)
        (ids_replaceTab view s.collection.tabs) rfl
  | reorder ids =>
      rcases houtcome value rfl with ⟨collection, hvalue, hcollected, _⟩
      subst hvalue
      exact effect_collection hplaced rfl rfl hcollected rfl rfl
  | close id =>
      rcases houtcome value rfl with ⟨hvalue, hmarks⟩
      rcases removed_by_close hinv hlog htask hmarks with ⟨k, hremoved, hk⟩
      rw [hvalue]
      apply Effect.closed id k ⟨rfl, _, rfl⟩ hremoved hk
      · exact ids_withoutTab id s.collection.tabs
      · intro hne
        exact if_neg hne
  | health id =>
      rcases houtcome value rfl with ⟨view, hvalue, _, _⟩
      rw [hvalue]
      exact effect_view view s (passive_of_request nofun nofun)
  | terminate id =>
      rcases houtcome value rfl with ⟨view, hvalue, _, _⟩
      rw [hvalue]
      exact effect_view view s (passive_of_request nofun nofun)
  | recreate id =>
      rcases (houtcome.resolved value rfl).2 with ⟨view, hvalue, _⟩
      rw [hvalue]
      exact effect_view view s (passive_of_request nofun nofun)
  | restart id =>
      rcases (houtcome.resolved value rfl).2 with ⟨view, hvalue, _⟩
      rw [hvalue]
      exact effect_view view s (passive_of_request nofun nofun)
  | restartBridge id =>
      rcases houtcome value rfl with ⟨view, hvalue, _, _⟩
      rw [hvalue]
      exact effect_view view s (passive_of_request nofun nofun)

theorem answer_effect {options : TabStore.Options}
    (hnfc : NormalForm options.nfc) {sys : System} (hsane : Sane options sys)
    {request : Request} (hwaiting : (n, request) ∈ sys.waiting)
    {o : SessionManager.Op}
    {res : Except SessionManager.Thrown SessionManager.Value}
    {document : PersistedTabsDocument} {after : List Entry}
    (hlog : sys.server.shared.log =
      before ++ Entry.ended n o res document :: after) :
    Effect sys.server.shared.history ⟨n, request, res, before⟩ sys.client
      (settled sys.client request res).1 := by
  have hinv := SessionManager.run_inv hnfc hsane.run
  rcases hinv.good before _ after hlog with ⟨htask, houtcome⟩
  rcases hsane.tasks _ hwaiting with ⟨revision, hrequest⟩
  have ho : o = request.op revision := by
    rw [hlog, SessionManager.taskOf_append htask] at hrequest
    exact Option.some.inj hrequest
  rw [ho] at htask houtcome
  cases res with
  | ok value => exact effect_resolved hinv hlog htask houtcome
  | error thrown =>
      have hkept := rejected_kept (s := sys.client) (isOrderConflict thrown)
        request
      exact Effect.kept (passive_of_error rfl) hkept.1 hkept.2

end Effects

/-!
## No tab twice
-/

/-- When the answer to a create request arrives, no collection that arrived
before lists the tab. -/
def createdFirst (sys : System) (d : Delivery) : Prop :=
  forall id, d.Creates id -> forall d', d' ∈ sys.applied -> ¬ d'.Lists id

/-- The answers that have arrived belong to different operations, and to none
that the client waits for. -/
structure Received (sys : System) : Prop where
  logged : forall d, d ∈ sys.applied -> d.before <+: sys.server.shared.log
  numbers : forall d, d ∈ sys.applied -> d.number < sys.server.next
  answered : forall d, d ∈ sys.applied -> forall x, x ∈ sys.waiting ->
    x.1 ≠ d.number

/-- Where the tabs of the client come from. -/
def Origins (sys : System) : Prop :=
  forall id, id ∈ sys.client.ids -> (exists d, d ∈ sys.applied ∧ d.Lists id) ∨
    exists d name, d ∈ sys.applied ∧ d.request = Request.create name ∧
      Created d.number name (own d.number d.before) id

section Distinct

variable {options : TabStore.Options} {guard : System -> Delivery -> Prop}
variable {sys sys' : System}

theorem step_ids (hnfc : NormalForm options.nfc) (hsane : Sane options sys)
    (hstep : Step options guard sys sys') :
    (sys'.applied = sys.applied ∧ sys'.client.ids = sys.client.ids) ∨
      exists d, sys'.applied = sys.applied ++ [d] ∧ guard sys d ∧
        (d.number, d.request) ∈ sys.waiting ∧
        sys'.server = sys.server ∧ d.before <+: sys.server.shared.log ∧
        Effect sys.server.shared.history d sys.client sys'.client := by
  cases hstep with
  | serve _ => exact Or.inl ⟨rfl, rfl⟩
  | send _ _ => exact Or.inl ⟨rfl, rfl⟩
  | arrive _ _ => exact Or.inl ⟨rfl, rfl⟩
  | @answer front back n request o res document before after hwaiting hlog
      hguard =>
      have hmem : (n, request) ∈ sys.waiting := by
        rw [hwaiting]
        exact List.mem_append_right _ List.mem_cons_self
      exact Or.inr ⟨_, rfl, hguard, hmem, rfl, ⟨_, hlog.symm⟩,
        answer_effect hnfc hsane hmem hlog⟩
  | lose _ => exact Or.inl ⟨rfl, (rejected_kept false _).1⟩
  | abandon _ => exact Or.inl ⟨rfl, (rejected_kept false _).1⟩
  | select id =>
      refine Or.inl ⟨rfl, ?_⟩
      show (select id sys.client).ids = _
      unfold select
      split
      · rfl
      · rfl
  | render => exact Or.inl ⟨rfl, rfl⟩
  | mount _ => exact Or.inl ⟨rfl, rfl⟩

theorem Received.serve (h : Received sys) {server : ServerRun}
    (hrun : SessionManager.Run options sys.server)
    (hstep : Foundation.Step (SessionManager.manager options) sys.server
      server) : Received { sys with server := server } where
  logged d hd := (h.logged d hd).trans
    (SessionManager.run_later hrun hstep).1
  numbers d hd := Nat.lt_of_lt_of_le (h.numbers d hd) (next_le hstep)
  answered := h.answered

theorem Received.step (h : Received sys) (hsane : Sane options sys)
    (hstep : Step options guard sys sys') : Received sys' := by
  cases hstep with
  | serve hserve => exact h.serve hsane.run hserve
  | send _ _ => exact ⟨h.logged, h.numbers, h.answered⟩
  | @arrive front back request o s' out hsent hseg =>
      have hserved := h.serve hsane.run (arrives hseg)
      refine ⟨hserved.logged, hserved.numbers, ?_⟩
      intro d hd x hx
      rcases List.mem_append.mp hx with hx | hx
      · exact h.answered d hd x hx
      · rw [List.mem_singleton.mp hx]
        exact Nat.ne_of_gt (h.numbers d hd)
  | @answer front back n request o res document before after hwaiting hlog
      hguard =>
      have hmem : (n, request) ∈ sys.waiting := by
        rw [hwaiting]
        exact List.mem_append_right _ List.mem_cons_self
      refine ⟨?_, ?_, ?_⟩
      · intro d hd
        rcases List.mem_append.mp hd with hd | hd
        · exact h.logged d hd
        · rw [List.mem_singleton.mp hd]
          exact ⟨_, hlog.symm⟩
      · intro d hd
        rcases List.mem_append.mp hd with hd | hd
        · exact h.numbers d hd
        · rw [List.mem_singleton.mp hd]
          exact hsane.numbers _ hmem
      · intro d hd x hx
        rcases List.mem_append.mp hd with hd | hd
        · exact h.answered d hd x (mem_of_split hwaiting hx)
        · rw [List.mem_singleton.mp hd]
          intro heq
          have hdistinct := hsane.distinct
          rw [hwaiting, List.map_append, List.map_cons] at hdistinct
          apply (List.nodup_cons.mp (List.nodup_middle.mp hdistinct)).1
          rw [← List.map_append]
          exact List.mem_map.mpr ⟨x, hx, heq⟩
  | lose _ => exact ⟨h.logged, h.numbers, h.answered⟩
  | abandon hwaiting =>
      exact ⟨h.logged, h.numbers,
        fun d hd x hx => h.answered d hd x (mem_of_split hwaiting hx)⟩
  | select _ => exact ⟨h.logged, h.numbers, h.answered⟩
  | render => exact ⟨h.logged, h.numbers, h.answered⟩
  | mount _ => exact ⟨h.logged, h.numbers, h.answered⟩

theorem Origins.step (hnfc : NormalForm options.nfc) (h : Origins sys)
    (hsane : Sane options sys) (hstep : Step options guard sys sys') :
    Origins sys' := by
  rcases step_ids hnfc hsane hstep with ⟨happlied, hids⟩ |
    ⟨d, happlied, _, _, _, _, heffect⟩
  · intro id hid
    rw [hids] at hid
    rw [happlied]
    exact h id hid
  · have hold : forall id, id ∈ sys.client.ids ->
        (exists d, d ∈ sys'.applied ∧ d.Lists id) ∨
          exists d name, d ∈ sys'.applied ∧
            d.request = Request.create name ∧
            Created d.number name (own d.number d.before) id := by
      intro id hid
      rw [happlied]
      rcases h id hid with ⟨d', hd', hlists⟩ | ⟨d', name, hd', hcreate⟩
      · exact Or.inl ⟨d', List.mem_append_left _ hd', hlists⟩
      · exact Or.inr ⟨d', name, List.mem_append_left _ hd', hcreate⟩
    have hnew : d ∈ sys'.applied := by
      rw [happlied]
      exact List.mem_append_right _ (List.mem_singleton.mpr rfl)
    intro id hid
    cases heffect with
    | kept _ hids _ =>
        rw [hids] at hid
        exact hold id hid
    | replaced document collection _ hres hsame _ hids _ =>
        rw [hids, ← hsame] at hid
        exact Or.inl ⟨d, hnew, collection, hres, hid⟩
    | created name id' document hrequest _ _ _ hcreated hids =>
        rw [hids] at hid
        rcases List.mem_append.mp hid with hid | hid
        · exact hold id hid
        · rw [List.mem_singleton.mp hid]
          exact Or.inr ⟨d, name, hnew, hrequest, hcreated⟩
    | closed id' k _ _ _ hids _ =>
        rw [hids] at hid
        exact hold id (List.mem_filter.mp hid).1

theorem created_later {log before : List Entry} {n : Nat}
    {name : Option JsString} {id : JsString}
    (h : Created n name (own n before) id) (hbefore : before <+: log) :
    Created n name (own n log) id := by
  rcases h with ⟨old, new, hmem, hids⟩
  rcases List.mem_filter.mp hmem with ⟨hmem, hnumber⟩
  exact ⟨old, new, List.mem_filter.mpr ⟨hbefore.subset hmem, hnumber⟩, hids⟩

theorem nodup_history {cs : Census} {server : SessionManager.State}
    (hinv : Inv options cs server) {k : Nat} {document : PersistedTabsDocument}
    (h : server.history[k]? = some document) : (ids document).Nodup := by
  have hall : forall {history : List PersistedTabsDocument}
      {current : PersistedTabsDocument},
      SessionManager.History options history current ->
      forall document, document ∈ history -> (ids document).Nodup := by
    intro history current hhistory
    induction hhistory with
    | initial hvalid =>
        intro document hmem
        rw [List.mem_singleton.mp hmem]
        exact hvalid.distinct
    | commit _ _ hvalid ih =>
        intro document hmem
        rcases List.mem_append.mp hmem with hmem | hmem
        · exact ih document hmem
        · rw [List.mem_singleton.mp hmem]
          exact hvalid.distinct
  exact hall hinv.history document (List.mem_of_getElem? h)

theorem nodup_step (hnfc : NormalForm options.nfc) (hsane : Sane options sys)
    (hreceived : Received sys) (horigins : Origins sys)
    (h : sys.client.ids.Nodup) (hstep : Step options createdFirst sys sys') :
    sys'.client.ids.Nodup := by
  have hinv := SessionManager.run_inv hnfc hsane.run
  rcases step_ids hnfc hsane hstep with ⟨_, hids⟩ |
    ⟨d, _, hguard, hwaiting, _, hlog, heffect⟩
  · rw [hids]
    exact h
  · cases heffect with
    | kept _ hids _ =>
        rw [hids]
        exact h
    | replaced document collection _ _ _ hseen hids _ =>
        rw [hids]
        exact nodup_history hinv hseen
    | created name id document _ hcreates _ _ hcreated hids =>
        rw [hids]
        apply List.nodup_append.mpr
        refine ⟨h, List.nodup_singleton id, ?_⟩
        intro x hx y hy heq
        rw [heq, List.mem_singleton.mp hy] at hx
        -- The tab would have come from a collection, or from another create.
        rcases horigins id hx with ⟨d', hd', hlists⟩ |
          ⟨d', name', hd', _, hcreated'⟩
        · exact hguard id hcreates d' hd' hlists
        · have hsame := SessionManager.created_unique hinv
            (created_later hcreated hlog)
            (created_later hcreated' (hreceived.logged d' hd'))
          exact hreceived.answered d' hd' _ hwaiting hsame
    | closed id k _ _ _ hids _ =>
        rw [hids]
        exact h.filter _

structure Basics (options : TabStore.Options) (sys : System) : Prop where
  sane : Sane options sys
  received : Received sys
  origins : Origins sys

theorem run_basics (hnfc : NormalForm options.nfc)
    (hrun : Run options guard sys) : Basics options sys := by
  rcases hrun with ⟨document, hdocument, hreach⟩
  induction hreach with
  | refl =>
      exact ⟨sane_initial hdocument, ⟨fun _ hd => (nomatch hd),
        fun _ hd => (nomatch hd), fun _ hd => (nomatch hd)⟩,
        fun _ hid => (nomatch hid)⟩
  | tail _ hstep ih =>
      exact ⟨ih.sane.step hnfc hstep, ih.received.step ih.sane hstep,
        ih.origins.step hnfc ih.sane hstep⟩

/-- In every run in which the answer to a create request comes before the
collections that list its tab, no tab is listed twice. -/
theorem tabs_distinct (hnfc : NormalForm options.nfc)
    (hrun : Run options createdFirst sys) : sys.client.ids.Nodup := by
  rcases hrun with ⟨document, hdocument, hreach⟩
  induction hreach with
  | refl => exact List.nodup_nil
  | tail hreach hstep ih =>
      have hbasics := run_basics hnfc ⟨document, hdocument, hreach⟩
      exact nodup_step hnfc hbasics.sane hbasics.received hbasics.origins ih
        hstep

end Distinct

/-!
### Two requests at the same time
-/

def calmPlay (check : System -> Delivery -> Bool) (actions : List Action) :
    Option System :=
  (System.initial (calmDocument DesiredState.active)).play calmScript check
    actions

theorem calmPlay_run {guard : System -> Delivery -> Prop}
    {check : System -> Delivery -> Bool}
    (hcheck : forall sys d, check sys d = true -> guard sys d)
    {actions : List Action} {sys : System}
    (h : calmPlay check actions = some sys) : Run calmOptions guard sys :=
  ⟨calmDocument DesiredState.active, calmDocument_accepted _,
    play_reachable hcheck h⟩

theorem not_creates_replaces {d : Delivery} {id : JsString}
    (h : d.Creates id) (hreplaces : d.request.replaces = true) : False := by
  rcases h with ⟨name, view, hrequest, _⟩
  rw [hrequest] at hreplaces
  cases hreplaces

/-- An order that is checked: what is created arrives first. -/
def creationFirst (sys : System) (d : Delivery) : Bool :=
  sys.applied.isEmpty || d.request.replaces

theorem creationFirst_createdFirst (sys : System) (d : Delivery)
    (h : creationFirst sys d = true) : createdFirst sys d := by
  intro id hid d' hd'
  rcases Bool.or_eq_true_iff.mp h with hempty | hreplaces
  · rw [List.isEmpty_iff.mp hempty] at hd'
    cases hd'
  · exact (not_creates_replaces hid hreplaces).elim

/-- A list that is read while the answer to a create request is on its way. -/
def listedEarly : List Action :=
  [Action.send (Request.create none), Action.arrive, Action.resume 0,
    Action.resume 0, Action.send Request.list, Action.arrive, Action.resume 1,
    Action.answer 1, Action.resume 0, Action.answer 0]

def listedAfter : List Action :=
  [Action.send (Request.create none), Action.arrive, Action.resume 0,
    Action.resume 0, Action.resume 0, Action.answer 0,
    Action.send Request.list, Action.arrive, Action.resume 0, Action.answer 0]

theorem listedEarly_ids :
    (calmPlay (fun _ _ => true) listedEarly).map (fun sys => sys.client.ids) =
      some [calmId 0, calmId 1, calmId 1] := by
  decide +kernel

theorem listedAfter_ids :
    (calmPlay creationFirst listedAfter).map (fun sys => sys.client.ids) =
      some [calmId 0, calmId 1] := by
  decide +kernel

theorem tabs_distinct_listedEarly : exists sys,
    Run calmOptions anyOrder sys ∧ ¬ sys.client.ids.Nodup := by
  have hids := listedEarly_ids
  rcases Option.map_eq_some_iff.mp hids with ⟨sys, hplay, hsys⟩
  refine ⟨sys, calmPlay_run (fun _ _ _ => trivial) hplay, ?_⟩
  rw [hsys]
  decide

theorem tabs_distinct_listedAfter : exists sys,
    Run calmOptions createdFirst sys ∧
      sys.client.ids = [calmId 0, calmId 1] ∧ sys.client.ids.Nodup := by
  rcases Option.map_eq_some_iff.mp listedAfter_ids with ⟨sys, hplay, hsys⟩
  have hrun := calmPlay_run creationFirst_createdFirst hplay
  exact ⟨sys, hrun, hsys, tabs_distinct normalForm_id hrun⟩

/-!
## No older answer after a newer one
-/

/-- Which document of the server an answer reflects: the one that was read for
it, or the one without the tab that was closed. -/
def Delivery.version (d : Delivery) : Nat :=
  match d.request with
  | Request.close _ => changedAt d.number d.before
  | _ => seenAt d.number d.before

def Delivery.Answered (d : Delivery) : Prop :=
  exists value, d.res = Except.ok value

/-- Answers arrive in the order of the documents that they reflect. -/
def inOrder (sys : System) (d : Delivery) : Prop :=
  d.Answered -> forall d', d' ∈ sys.applied -> d'.Answered ->
    d'.version ≤ d.version

/-- The server had the tab, and later it had not. -/
def Gone (history : List PersistedTabsDocument) (id : JsString) : Prop :=
  exists (i j : Nat) (earlier later : PersistedTabsDocument),
    i < j ∧ history[i]? = some earlier ∧
    id ∈ ids earlier ∧ history[j]? = some later ∧ id ∉ ids later

/-- The list of the client is as new as the answers that have arrived. -/
structure UpToDate (sys : System) : Prop where
  order : sys.applied.Pairwise fun d d' => d.Answered -> d'.Answered ->
    d.version ≤ d'.version
  listed : forall d id, d ∈ sys.applied -> d.Creates id ->
    id ∈ sys.client.ids ∨ Gone sys.server.shared.history id
  absent : forall d id, d ∈ sys.applied -> d.Closes id ->
    id ∉ sys.client.ids

/-- A collection that arrives leaves a created tab selected, unless the server
has removed it. -/
def KeepsSelected (options : TabStore.Options) (sys : System) : Prop :=
  forall sys' d d' id, Step options inOrder sys sys' ->
    sys'.applied = sys.applied ++ [d] -> d.request.replaces = true ->
    d' ∈ sys.applied -> d'.Creates id -> sys.client.selectedId = some id ->
    sys'.client.selectedId = some id ∨ Gone sys.server.shared.history id

structure Reflected (sys : System) : Prop where
  creates : forall d id, d ∈ sys.applied -> d.Creates id ->
    exists document, sys.server.shared.history[d.version]? = some document ∧
      id ∈ ids document
  closes : forall d id, d ∈ sys.applied -> d.Closes id ->
    exists k, RemovedAt sys.server.shared.history k id ∧ k + 1 ≤ d.version

section Order

variable {options : TabStore.Options} {guard : System -> Delivery -> Prop}
variable {sys sys' : System} {d : Delivery} {id : JsString}

theorem Delivery.Creates.version (h : d.Creates id) :
    d.version = seenAt d.number d.before := by
  rcases h with ⟨name, view, hrequest, _⟩
  rw [Delivery.version, hrequest]

theorem Delivery.Closes.version (h : d.Closes id) :
    d.version = changedAt d.number d.before := by
  rw [Delivery.version, h.1]

theorem version_of_replaces (h : d.request.replaces = true) :
    d.version = seenAt d.number d.before := by
  unfold Delivery.version
  split
  · rename_i hrequest
    rw [hrequest] at h
    cases h
  · rfl

theorem Delivery.Creates.answered (h : d.Creates id) : d.Answered := by
  rcases h with ⟨name, view, _, hres, _⟩
  exact ⟨_, hres⟩

theorem Delivery.Closes.answered (h : d.Closes id) : d.Answered :=
  h.2

theorem Delivery.Creates.eq {id' : JsString} (h : d.Creates id)
    (h' : d.Creates id') : id = id' := by
  rcases h with ⟨_, view, _, hres, hid⟩
  rcases h' with ⟨_, view', _, hres', hid'⟩
  rw [hres] at hres'
  cases hres'
  exact hid.symm.trans hid'

theorem Delivery.Closes.eq {id' : JsString} (h : d.Closes id)
    (h' : d.Closes id') : id = id' := by
  have heq := h.1.symm.trans h'.1
  cases heq
  rfl

theorem not_creates_closes {id' : JsString} (h : d.Creates id)
    (h' : d.Closes id') : False := by
  rcases h with ⟨name, view, hrequest, _⟩
  rw [h'.1] at hrequest
  cases hrequest

theorem not_closes_replaces (h : d.Closes id)
    (h' : d.request.replaces = true) : False := by
  rw [h.1] at h'
  cases h'

theorem RemovedAt.later {history history' : List PersistedTabsDocument}
    {k : Nat} (h : RemovedAt history k id) (hlater : history <+: history') :
    RemovedAt history' k id := by
  rcases hlater with ⟨more, hmore⟩
  rcases h with ⟨⟨old, hold, hin⟩, ⟨new, hnew, hout⟩⟩
  subst hmore
  exact ⟨⟨old, SessionManager.getElem?_append_of_some hold more, hin⟩,
    ⟨new, SessionManager.getElem?_append_of_some hnew more, hout⟩⟩

theorem RemovedAt.gone {history : List PersistedTabsDocument} {k : Nat}
    (h : RemovedAt history k id) : Gone history id := by
  rcases h with ⟨⟨old, hold, hin⟩, ⟨new, hnew, hout⟩⟩
  exact ⟨k, k + 1, old, new, Nat.lt_succ_self k, hold, hin, hnew, hout⟩

theorem Gone.later {history history' : List PersistedTabsDocument}
    (h : Gone history id) (hlater : history <+: history') :
    Gone history' id := by
  rcases hlater with ⟨more, hmore⟩
  rcases h with ⟨i, j, old, new, hij, hold, hin, hnew, hout⟩
  subst hmore
  exact ⟨i, j, old, new, hij,
    SessionManager.getElem?_append_of_some hold more, hin,
    SessionManager.getElem?_append_of_some hnew more, hout⟩

theorem step_later (hsane : Sane options sys)
    (hstep : Step options guard sys sys') :
    SessionManager.Later sys.server.shared sys'.server.shared := by
  cases hstep with
  | serve hserve => exact SessionManager.run_later hsane.run hserve
  | arrive _ hseg => exact SessionManager.run_later hsane.run (arrives hseg)
  | send _ _ => exact SessionManager.later_refl _
  | answer _ _ _ => exact SessionManager.later_refl _
  | lose _ => exact SessionManager.later_refl _
  | abandon _ => exact SessionManager.later_refl _
  | select _ => exact SessionManager.later_refl _
  | render => exact SessionManager.later_refl _
  | mount _ => exact SessionManager.later_refl _

theorem Reflected.step (hnfc : NormalForm options.nfc)
    (hsane : Sane options sys) (h : Reflected sys)
    (hstep : Step options guard sys sys') : Reflected sys' := by
  have hhistory := (step_later hsane hstep).2
  have hcreates : forall d id, d ∈ sys.applied -> d.Creates id ->
      exists document,
        sys'.server.shared.history[d.version]? = some document ∧
          id ∈ ids document := by
    intro d id hd hid
    rcases h.creates d id hd hid with ⟨document, hdocument, hmem⟩
    rcases hhistory with ⟨more, hmore⟩
    rw [← hmore]
    exact ⟨document, SessionManager.getElem?_append_of_some hdocument more,
      hmem⟩
  have hcloses : forall d id, d ∈ sys.applied -> d.Closes id ->
      exists k, RemovedAt sys'.server.shared.history k id ∧
        k + 1 ≤ d.version := by
    intro d id hd hid
    rcases h.closes d id hd hid with ⟨k, hremoved, hk⟩
    exact ⟨k, hremoved.later hhistory, hk⟩
  rcases step_ids hnfc hsane hstep with ⟨happlied, _⟩ |
    ⟨d, happlied, _, _, hserver, _, heffect⟩
  · exact ⟨by rw [happlied]; exact hcreates, by rw [happlied]; exact hcloses⟩
  · rw [← hserver] at heffect
    constructor
    · intro d' id hd' hid
      rw [happlied] at hd'
      rcases List.mem_append.mp hd' with hd' | hd'
      · exact hcreates d' id hd' hid
      · rw [List.mem_singleton.mp hd'] at hid ⊢
        cases heffect with
        | kept hpassive _ _ => exact (hpassive.creates id hid).elim
        | replaced document collection hreplaces _ _ _ _ _ =>
            exact (not_creates_replaces hid hreplaces).elim
        | created name id' document _ hcreates' hseen hmem _ _ =>
            rw [hid.version, hid.eq hcreates']
            exact ⟨document, hseen, hmem⟩
        | closed id' k hcloses' _ _ _ _ =>
            exact (not_creates_closes hid hcloses').elim
    · intro d' id hd' hid
      rw [happlied] at hd'
      rcases List.mem_append.mp hd' with hd' | hd'
      · exact hcloses d' id hd' hid
      · rw [List.mem_singleton.mp hd'] at hid ⊢
        cases heffect with
        | kept hpassive _ _ => exact (hpassive.closes id hid).elim
        | replaced document collection hreplaces _ _ _ _ _ =>
            exact (not_closes_replaces hid hreplaces).elim
        | created name id' document _ hcreates' _ _ _ _ =>
            exact (not_creates_closes hcreates' hid).elim
        | closed id' k hcloses' hremoved hk _ _ =>
            rw [hid.version, hid.eq hcloses']
            exact ⟨k, hremoved, hk⟩

theorem listed_replaced {history : List PersistedTabsDocument}
    {i j : Nat} {earlier later : PersistedTabsDocument} (hij : i ≤ j)
    (hearlier : history[i]? = some earlier) (hin : id ∈ ids earlier)
    (hlater : history[j]? = some later) :
    id ∈ ids later ∨ Gone history id := by
  by_cases hmem : id ∈ ids later
  · exact Or.inl hmem
  · right
    have hne : i ≠ j := by
      intro heq
      rw [heq, hlater] at hearlier
      cases hearlier
      exact hmem hin
    exact ⟨i, j, earlier, later, by omega, hearlier, hin, hlater, hmem⟩

theorem absent_later {cs : Census} {server : SessionManager.State}
    (hinv : Inv options cs server) {k j : Nat}
    (hremoved : RemovedAt server.history k id) (hkj : k + 1 ≤ j)
    {later : PersistedTabsDocument} (hlater : server.history[j]? = some later) :
    id ∉ ids later := by
  rcases hremoved with ⟨⟨old, hold, hin⟩, ⟨new, hnew, hout⟩⟩
  exact hinv.history.gone (Nat.lt_succ_self k) hold hin hnew hout hkj hlater

theorem UpToDate.step (hnfc : NormalForm options.nfc)
    (hsane : Sane options sys) (hreflected : Reflected sys)
    (h : UpToDate sys) (hstep : Step options inOrder sys sys') :
    UpToDate sys' := by
  have hinv := SessionManager.run_inv hnfc hsane.run
  have hhistory := (step_later hsane hstep).2
  rcases step_ids hnfc hsane hstep with ⟨happlied, hids⟩ |
    ⟨d, happlied, hguard, _, hserver, _, heffect⟩
  · constructor
    · rw [happlied]
      exact h.order
    · intro d id hd hid
      rw [happlied] at hd
      rw [hids]
      rcases h.listed d id hd hid with hlisted | hgone
      · exact Or.inl hlisted
      · exact Or.inr (hgone.later hhistory)
    · intro d id hd hid
      rw [happlied] at hd
      rw [hids]
      exact h.absent d id hd hid
  · constructor
    · rw [happlied]
      apply List.pairwise_append.mpr
      refine ⟨h.order, List.pairwise_singleton _ _, ?_⟩
      intro d' hd' x hx hanswered' hanswered
      rw [List.mem_singleton.mp hx] at hanswered ⊢
      exact hguard hanswered d' hd' hanswered'
    · -- A created tab stays listed until the server removes it.
      intro d' id hd' hid
      rw [hserver]
      rw [happlied] at hd'
      have hold : d' ∈ sys.applied ->
          id ∈ sys.client.ids ∨ Gone sys.server.shared.history id :=
        fun hd' => h.listed d' id hd' hid
      cases heffect with
      | kept hpassive hids _ =>
          rw [hids]
          rcases List.mem_append.mp hd' with hd' | hd'
          · exact hold hd'
          · rw [List.mem_singleton.mp hd'] at hid
            exact (hpassive.creates id hid).elim
      | replaced document collection hreplaces hres _ hseen hids _ =>
          rw [hids]
          rcases List.mem_append.mp hd' with hd' | hd'
          · rcases hreflected.creates d' id hd' hid with
              ⟨earlier, hearlier, hin⟩
            have hle := hguard ⟨_, hres⟩ d' hd' hid.answered
            rw [version_of_replaces hreplaces] at hle
            exact listed_replaced hle hearlier hin hseen
          · rw [List.mem_singleton.mp hd'] at hid
            exact (not_creates_replaces hid hreplaces).elim
      | created name id' document _ hcreates _ _ _ hids =>
          rw [hids]
          rcases List.mem_append.mp hd' with hd' | hd'
          · rcases hold hd' with hlisted | hgone
            · exact Or.inl (List.mem_append_left _ hlisted)
            · exact Or.inr hgone
          · rw [List.mem_singleton.mp hd'] at hid
            left
            rw [hid.eq hcreates]
            exact List.mem_append_right _ (List.mem_singleton.mpr rfl)
      | closed id' k hcloses hremoved _ hids _ =>
          rw [hids]
          rcases List.mem_append.mp hd' with hd' | hd'
          · rcases hold hd' with hlisted | hgone
            · by_cases heq : id = id'
              · rw [heq]
                exact Or.inr hremoved.gone
              · exact Or.inl (List.mem_filter.mpr
                  ⟨hlisted, decide_eq_true heq⟩)
            · exact Or.inr hgone
          · rw [List.mem_singleton.mp hd'] at hid
            exact (not_creates_closes hid hcloses).elim
    · -- A closed tab stays away.
      intro d' id hd' hid
      rw [happlied] at hd'
      have hlater : d' ∈ sys.applied -> d.Answered ->
          forall document,
            sys.server.shared.history[d.version]? = some document ->
            id ∉ ids document := by
        intro hd' hanswered document hdocument
        rcases hreflected.closes d' id hd' hid with ⟨k, hremoved, hk⟩
        have hle := hguard hanswered d' hd' hid.answered
        exact absent_later hinv hremoved (by omega) hdocument
      cases heffect with
      | kept hpassive hids _ =>
          rw [hids]
          rcases List.mem_append.mp hd' with hd' | hd'
          · exact h.absent d' id hd' hid
          · rw [List.mem_singleton.mp hd'] at hid
            exact (hpassive.closes id hid).elim
      | replaced document collection hreplaces hres _ hseen hids _ =>
          rw [hids]
          rcases List.mem_append.mp hd' with hd' | hd'
          · rw [← version_of_replaces hreplaces] at hseen
            exact hlater hd' ⟨_, hres⟩ document hseen
          · rw [List.mem_singleton.mp hd'] at hid
            exact (not_closes_replaces hid hreplaces).elim
      | created name id' document _ hcreates hseen hmem _ hids =>
          rw [hids]
          rcases List.mem_append.mp hd' with hd' | hd'
          · intro hin
            rcases List.mem_append.mp hin with hin | hin
            · exact h.absent d' id hd' hid hin
            · rw [← hcreates.version] at hseen
              rw [← List.mem_singleton.mp hin] at hmem
              exact hlater hd' hcreates.answered document hseen hmem
          · rw [List.mem_singleton.mp hd'] at hid
            exact (not_creates_closes hcreates hid).elim
      | closed id' k hcloses hremoved _ hids _ =>
          rw [hids]
          rcases List.mem_append.mp hd' with hd' | hd'
          · exact fun hin =>
              h.absent d' id hd' hid (List.mem_filter.mp hin).1
          · rw [List.mem_singleton.mp hd'] at hid
            rw [hid.eq hcloses]
            exact fun hin =>
              of_decide_eq_true (List.mem_filter.mp hin).2 rfl

theorem keeps_selected (hnfc : NormalForm options.nfc)
    (hsane : Sane options sys) (hreflected : Reflected sys) :
    KeepsSelected options sys := by
  intro sys' d d' id hstep happlied hreplaces hd' hid hselected
  rcases step_ids hnfc hsane hstep with ⟨hsame, _⟩ |
    ⟨x, hx, hguard, _, _, _, heffect⟩
  · rw [hsame] at happlied
    have hlength := congrArg List.length happlied
    rw [List.length_append] at hlength
    exact absurd hlength (by simp)
  · rw [hx] at happlied
    have heq : x = d := by
      have hlast := (List.append_inj' happlied rfl).2
      exact List.cons.inj hlast |>.1
    subst heq
    cases heffect with
    | kept _ _ hkept =>
        left
        rw [hkept, hselected]
    | replaced document collection _ hres _ hseen _ hkept =>
        rcases hreflected.creates d' id hd' hid with ⟨earlier, hearlier, hin⟩
        have hle := hguard ⟨_, hres⟩ d' hd' hid.answered
        rw [version_of_replaces hreplaces] at hle
        rcases listed_replaced hle hearlier hin hseen with hmem | hgone
        · exact Or.inl (hkept id hselected hmem)
        · exact Or.inr hgone
    | created _ _ _ _ hcreates _ _ _ _ =>
        exact (not_creates_replaces hcreates hreplaces).elim
    | closed _ _ hcloses _ _ _ _ =>
        exact (not_closes_replaces hcloses hreplaces).elim

theorem run_reflected (hnfc : NormalForm options.nfc)
    (hrun : Run options guard sys) : Reflected sys := by
  rcases hrun with ⟨document, hdocument, hreach⟩
  induction hreach with
  | refl => exact ⟨fun _ _ hd => (nomatch hd), fun _ _ hd => (nomatch hd)⟩
  | tail hreach hstep ih =>
      exact ih.step hnfc
        (run_basics hnfc ⟨document, hdocument, hreach⟩).sane hstep

/-- In every run in which answers arrive in the order of what they reflect, the
client is up to date. -/
theorem answers_up_to_date (hnfc : NormalForm options.nfc)
    (hrun : Run options inOrder sys) :
    UpToDate sys ∧ KeepsSelected options sys := by
  have hsane := (run_basics hnfc hrun).sane
  refine ⟨?_, keeps_selected hnfc hsane (run_reflected hnfc hrun)⟩
  rcases hrun with ⟨document, hdocument, hreach⟩
  clear hsane
  induction hreach with
  | refl =>
      exact ⟨List.Pairwise.nil, fun _ _ hd => (nomatch hd),
        fun _ _ hd => (nomatch hd)⟩
  | tail hreach hstep ih =>
      have hrun : Run options inOrder _ := ⟨document, hdocument, hreach⟩
      exact ih.step hnfc (run_basics hnfc hrun).sane (run_reflected hnfc hrun)
        hstep

end Order

/-!
### A list that arrives late
-/

def newerLast (sys : System) (d : Delivery) : Bool :=
  sys.applied.all fun d' => decide (d'.version ≤ d.version)

theorem newerLast_inOrder (sys : System) (d : Delivery)
    (h : newerLast sys d = true) : inOrder sys d := by
  intro _ d' hd' _
  have hall := List.all_eq_true.mp h d' hd'
  exact of_decide_eq_true hall

/-- A list that is read before a tab is created, and that arrives after the
answer to the create request. -/
def listedLate : List Action :=
  [Action.send Request.list, Action.arrive, Action.send (Request.create none),
    Action.arrive, Action.resume 1, Action.resume 1, Action.resume 1,
    Action.answer 1, Action.resume 0, Action.answer 0]

def calmView : TabView where
  record := {
    id := calmId 1
    displayName := js "Terminal 2"
    position := 1
    createdAt := calmTime
    lastActivityAt := calmTime
    desiredState := DesiredState.active }
  session := ⟨SessionState.stopped, false, none⟩

theorem not_gone {history : List PersistedTabsDocument} {id : JsString}
    (h : forall document, document ∈ history.drop 1 -> id ∈ ids document) :
    ¬ Gone history id := by
  intro hgone
  rcases hgone with ⟨i, j, _, later, hlt, _, _, hlater, habsent⟩
  have hdrop : (history.drop 1)[j - 1]? = some later := by
    rw [List.getElem?_drop, show 1 + (j - 1) = j by omega]
    exact hlater
  exact habsent (h later (List.mem_of_getElem? hdrop))

theorem listedLate_lost :
    (calmPlay (fun _ _ => true) listedLate).map (fun sys =>
      decide (sys.applied.head?.map (fun d => (d.request, d.res)) =
        some (Request.create none,
          Except.ok (SessionManager.Value.view calmView)) ∧
        calmId 1 ∉ sys.client.ids ∧
        forall document, document ∈ sys.server.shared.history.drop 1 ->
          calmId 1 ∈ ids document)) = some true := by
  decide +kernel

theorem answers_up_to_date_listedLate : exists sys d,
    Run calmOptions anyOrder sys ∧ d ∈ sys.applied ∧
      d.Creates (calmId 1) ∧ calmId 1 ∉ sys.client.ids ∧
      ¬ Gone sys.server.shared.history (calmId 1) := by
  rcases Option.map_eq_some_iff.mp listedLate_lost with ⟨sys, hplay, hsys⟩
  rcases of_decide_eq_true hsys with ⟨hhead, hlost, hhistory⟩
  rcases Option.map_eq_some_iff.mp hhead with ⟨d, hd, hanswer⟩
  have hcreates : d.Creates (calmId 1) :=
    ⟨none, calmView, congrArg Prod.fst hanswer, congrArg Prod.snd hanswer, rfl⟩
  exact ⟨sys, d, calmPlay_run (fun _ _ _ => trivial) hplay,
    List.mem_of_head? hd, hcreates, hlost, not_gone hhistory⟩

theorem listedAfter_inOrder :
    (calmPlay newerLast listedAfter).isSome = true := by
  decide +kernel

theorem answers_up_to_date_listedAfter : exists sys,
    Run calmOptions inOrder sys ∧ calmPlay newerLast listedAfter = some sys ∧
      UpToDate sys ∧ KeepsSelected calmOptions sys := by
  rcases Option.isSome_iff_exists.mp listedAfter_inOrder with ⟨sys, hplay⟩
  have hrun := calmPlay_run newerLast_inOrder hplay
  exact ⟨sys, hrun, hplay, answers_up_to_date normalForm_id hrun⟩

end UseTabs
end Client
end FlanTerminal

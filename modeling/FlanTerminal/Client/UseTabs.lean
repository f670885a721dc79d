import FlanTerminal.Server.SessionManagerHistory

/-!
# The tab list of the client

`useTabs` keeps a collection of tabs and changes it when an answer of the
server arrives.  A list answer and the answer to a reorder replace the whole
collection; the other answers change what is there.  Requests are made at any
time, by the user and by a timer, and nothing orders their answers.

Updates of React state are applied in the order in which they are queued.  A
render shows the collection as it is then; callbacks read what was rendered
last.
-/

namespace FlanTerminal
namespace Client
namespace UseTabs

open Foundation
open Shared
open Server

def SAFE_ERROR : JsString := js "Unable to update terminal tabs."

def ORDER_CHANGED : JsString :=
  js "Tab order changed. Reloaded the latest order."

structure State where
  collection : TabCollectionResponse
  selectedId : Option JsString
  visitedIds : List JsString
  loading : Bool
  error : Option JsString
  mounted : Bool
  /-- The collection that was rendered last; `revisionRef` is its revision. -/
  rendered : TabCollectionResponse
  deriving DecidableEq

def State.initial : State where
  collection := ⟨0, []⟩
  selectedId := none
  visitedIds := []
  loading := true
  error := none
  mounted := true
  rendered := ⟨0, []⟩

/-!
## Answers
-/

def applyCollection (next : TabCollectionResponse) (s : State) : State :=
  let kept := s.selectedId.filter fun current =>
    next.tabs.any fun tab => tab.id = current
  { s with
    collection := next
    selectedId := kept.or (next.tabs.head?.map TabView.id) }

/-- `refresh` with an answer. -/
def refreshed (next : TabCollectionResponse) (s : State) : State :=
  if s.mounted then
    { applyCollection next s with
      error := none
      loading := false }
  else s

/-- `refresh` without one. -/
def refreshFailed (s : State) : State :=
  if s.mounted then
    { s with
      error := some SAFE_ERROR
      loading := false }
  else s

def failed (s : State) : State :=
  { s with error := some SAFE_ERROR }

def created (view : TabView) (s : State) : State :=
  { s with
    collection := ⟨s.collection.structureRevision + 1,
      s.collection.tabs ++ [view]⟩
    selectedId := some view.id
    error := none }

def replaceTab (view : TabView) (tabs : List TabView) : List TabView :=
  tabs.map fun candidate => if candidate.id = view.id then view else candidate

def update (view : TabView) (s : State) : State :=
  { s with
    collection := ⟨s.collection.structureRevision,
      replaceTab view s.collection.tabs⟩ }

def renamed (view : TabView) (s : State) : State :=
  { s with
    collection := ⟨s.collection.structureRevision + 1,
      replaceTab view s.collection.tabs⟩
    error := none }

def reordered (next : TabCollectionResponse) (s : State) : State :=
  { applyCollection next s with error := none }

def withPosition (position : Nat) (view : TabView) : TabView :=
  { view with record := { view.record with position := position } }

def withoutTab (id : JsString) (tabs : List TabView) : List TabView :=
  (tabs.filter fun tab => tab.id ≠ id).mapIdx withPosition

def closed (id : JsString) (s : State) : State :=
  let index := s.collection.tabs.findIdx? fun tab => tab.id = id
  let tabs := withoutTab id s.collection.tabs
  -- The tab before the closed one, or the first one if it was not listed.
  let neighbour := tabs[min ((index.getD 0) - 1) (tabs.length - 1)]?
  { s with
    collection := ⟨s.collection.structureRevision + 1, tabs⟩
    selectedId := if s.selectedId = some id then neighbour.map TabView.id
      else s.selectedId
    visitedIds := s.visitedIds.filter fun visited => visited ≠ id
    error := none }

/-- `runLifecycle` with an answer. -/
def lifecycleDone (view : TabView) (s : State) : State :=
  { update view s with error := none }

/-!
## Requests
-/

inductive Request where
  | list
  /-- The list that is read after an order conflict. -/
  | listAfterConflict
  | create (name : Option JsString)
  | rename (id name : JsString)
  | reorder (ids : List JsString)
  | close (id : JsString)
  | health (id : JsString)
  | terminate (id : JsString)
  | recreate (id : JsString)
  | restart (id : JsString)
  | restartBridge (id : JsString)
  deriving DecidableEq

def Request.op (revision : Nat) : Request -> SessionManager.Op
  | list => SessionManager.Op.collectionView
  | listAfterConflict => SessionManager.Op.collectionView
  | create name => SessionManager.Op.create name
  | rename id name => SessionManager.Op.rename id name
  | reorder ids => SessionManager.Op.reorder revision ids
  | close id => SessionManager.Op.closeTab id
  | health id => SessionManager.Op.view id
  | terminate id => SessionManager.Op.terminate id
  | recreate id => SessionManager.Op.recreate id
  | restart id => SessionManager.Op.restart id
  | restartBridge id => SessionManager.Op.restartBridge id

/-- What the client does when a request has failed, and the request that it
makes then. -/
def rejected (s : State) (conflict : Bool) : Request -> State × Option Request
  | Request.list => (refreshFailed s, none)
  | Request.listAfterConflict =>
      ({ refreshFailed s with
        error := if s.mounted then some ORDER_CHANGED else s.error }, none)
  | Request.reorder _ =>
      if conflict then (s, some Request.listAfterConflict)
      else (failed s, none)
  | _ => (failed s, none)

def resolved (s : State) : Request -> SessionManager.Value -> State
  | Request.list, SessionManager.Value.collection next => refreshed next s
  | Request.listAfterConflict, SessionManager.Value.collection next =>
      { refreshed next s with
        error := if s.mounted then some ORDER_CHANGED else s.error }
  | Request.create _, SessionManager.Value.view view => created view s
  | Request.rename _ _, SessionManager.Value.view view => renamed view s
  | Request.reorder _, SessionManager.Value.collection next =>
      reordered next s
  | Request.close id, SessionManager.Value.none => closed id s
  | Request.health _, SessionManager.Value.view view => lifecycleDone view s
  | Request.terminate _, SessionManager.Value.view view =>
      lifecycleDone view s
  | Request.recreate _, SessionManager.Value.view view => lifecycleDone view s
  | Request.restart _, SessionManager.Value.view view => lifecycleDone view s
  | Request.restartBridge _, SessionManager.Value.view view =>
      lifecycleDone view s
  | _, _ => s

/-- `error.code === 'order_conflict'`. -/
def isOrderConflict (thrown : SessionManager.Thrown) : Bool :=
  thrown = SessionManager.Thrown.store TabStore.Thrown.order_conflict

def settled (s : State) (request : Request)
    (res : Except SessionManager.Thrown SessionManager.Value) :
    State × Option Request :=
  match res with
  | Except.ok value => (resolved s request value, none)
  | Except.error thrown => rejected s (isOrderConflict thrown) request

/-!
## What the user does
-/

def select (id : JsString) (s : State) : State :=
  if s.rendered.tabs.any fun tab => tab.id = id then
    { s with selectedId := some id }
  else s

/-- A render, and the effect that marks the selected tab as visited. -/
def render (s : State) : State :=
  let selected := s.collection.tabs.find? fun tab =>
    s.selectedId = some tab.id
  let visited := match selected with
    | some tab =>
        if tab.record.desiredState = DesiredState.active ∧
            tab.id ∉ s.visitedIds then s.visitedIds ++ [tab.id]
        else s.visitedIds
    | none => s.visitedIds
  { s with
    rendered := s.collection
    visitedIds := visited }

/-!
## The client and the server

Requests and answers may be lost, which the client sees as a failure.  Other
clients, the clean-up and the activity tracker use the server as well.
-/

abbrev ServerRun := Config SessionManager.State SessionManager.ports
  SessionManager.Thrown SessionManager.Value SessionManager.Op

/-- An answer when it arrives: what it answers, and what the log of the server
held when the operation ended. -/
structure Delivery where
  number : Nat
  request : Request
  res : Except SessionManager.Thrown SessionManager.Value
  before : List SessionManager.Entry

structure System where
  server : ServerRun
  client : State
  /-- Requests on their way, with the operation that they will start. -/
  sent : List (Request × SessionManager.Op)
  /-- Operations of this client that it has no answer from, by number. -/
  waiting : List (Nat × Request)
  /-- The answers that have arrived. -/
  applied : List Delivery

def System.initial (document : PersistedTabsDocument) : System where
  server := Config.initial (SessionManager.State.initial document)
  client := State.initial
  sent := []
  waiting := []
  applied := []

def System.opOf (sys : System) (request : Request) : SessionManager.Op :=
  request.op sys.client.rendered.structureRevision

/-- The steps of the client and the server; `guard` says which answers arrive. -/
inductive Step (options : TabStore.Options)
    (guard : System -> Delivery -> Prop) (sys : System) : System -> Prop where
  | serve {server : ServerRun} :
      Foundation.Step (SessionManager.manager options) sys.server server ->
      Step options guard sys { sys with server := server }
  | send (request : Request) : request ≠ Request.listAfterConflict ->
      Step options guard sys
        { sys with sent := sys.sent ++ [(request, sys.opOf request)] }
  | arrive {front back : List (Request × SessionManager.Op)}
      {request : Request} {o : SessionManager.Op} {s' : SessionManager.State}
      {out : Outcome SessionManager.State SessionManager.ports
        SessionManager.Thrown SessionManager.Value} :
      sys.sent = front ++ (request, o) :: back ->
      Seg (SessionManager.manager options) sys.server.next
        (SessionManager.body options sys.server.next o)
        (sys.server.shared.record
          (SessionManager.Entry.entered sys.server.next o)) s' out ->
      Step options guard sys
        { sys with
          server := Config.settle (SessionManager.manager options)
            sys.server.stack sys.server.parked (sys.server.next + 1)
            sys.server.next o Phase.first s' out
          sent := front ++ back
          waiting := sys.waiting ++ [(sys.server.next, request)] }
  | answer {front back : List (Nat × Request)} {n : Nat} {request : Request}
      {o : SessionManager.Op}
      {res : Except SessionManager.Thrown SessionManager.Value}
      {document : PersistedTabsDocument}
      {before after : List SessionManager.Entry} :
      sys.waiting = front ++ (n, request) :: back ->
      sys.server.shared.log =
        before ++ SessionManager.Entry.ended n o res document :: after ->
      guard sys ⟨n, request, res, before⟩ ->
      Step options guard sys
        { sys with
          client := (settled sys.client request res).1
          sent := sys.sent ++ ((settled sys.client request res).2.map
            fun next => (next, sys.opOf next)).toList
          waiting := front ++ back
          applied := sys.applied ++ [⟨n, request, res, before⟩] }
  /-- A request is lost. -/
  | lose {front back : List (Request × SessionManager.Op)}
      {request : Request} {o : SessionManager.Op} :
      sys.sent = front ++ (request, o) :: back ->
      Step options guard sys
        { sys with
          client := (rejected sys.client false request).1
          sent := front ++ back }
  /-- An answer is lost. -/
  | abandon {front back : List (Nat × Request)} {n : Nat}
      {request : Request} :
      sys.waiting = front ++ (n, request) :: back ->
      Step options guard sys
        { sys with
          client := (rejected sys.client false request).1
          waiting := front ++ back }
  | select (id : JsString) :
      Step options guard sys { sys with client := select id sys.client }
  | render : Step options guard sys { sys with client := render sys.client }
  | mount (mounted : Bool) :
      Step options guard sys
        { sys with client := { sys.client with mounted := mounted } }

def Run (options : TabStore.Options) (guard : System -> Delivery -> Prop)
    (sys : System) : Prop :=
  exists document, parseDocument options.nfc document = some document ∧
    Relation.ReflTransGen (Step options guard) (System.initial document) sys

def anyOrder (_ : System) (_ : Delivery) : Prop := True

/-!
## Runs from a script

A script for the server and a list of moves give a run of both.
-/

inductive Action where
  | send (request : Request)
  /-- The oldest request arrives. -/
  | arrive
  /-- The operation of the server that is parked at this place goes on. -/
  | resume (place : Nat)
  /-- The bridge registry goes on. -/
  | beside
  /-- The answer arrives that the client waits for at this place. -/
  | answer (place : Nat)
  | render

/-- The entry with which an operation ends, and what stands around it. -/
def endedAt (n : Nat) : List SessionManager.Entry ->
    Option (Delivery × SessionManager.Op × PersistedTabsDocument ×
      List SessionManager.Entry)
  | [] => none
  | SessionManager.Entry.ended m o res document :: rest =>
      if m = n then some (⟨n, Request.list, res, []⟩, o, document, rest)
      else (endedAt n rest).map fun found =>
        ({ found.1 with before :=
          SessionManager.Entry.ended m o res document :: found.1.before },
          found.2)
  | e :: rest => (endedAt n rest).map fun found =>
      ({ found.1 with before := e :: found.1.before }, found.2)

theorem endedAt_split {n : Nat} {log : List SessionManager.Entry}
    {found : Delivery × SessionManager.Op × PersistedTabsDocument ×
      List SessionManager.Entry} (h : endedAt n log = some found) :
    found.1.number = n ∧ log = found.1.before ++
      SessionManager.Entry.ended n found.2.1 found.1.res found.2.2.1 ::
        found.2.2.2 := by
  induction log generalizing found with
  | nil => cases h
  | cons e rest ih =>
      have hlater : forall {found}, ((endedAt n rest).map fun found =>
          (({ found.1 with before := e :: found.1.before } : Delivery),
            found.2)) = some found ->
          found.1.number = n ∧ e :: rest = found.1.before ++
            SessionManager.Entry.ended n found.2.1 found.1.res found.2.2.1 ::
              found.2.2.2 := by
        intro found hfound
        rcases Option.map_eq_some_iff.mp hfound with ⟨inner, hinner, heq⟩
        rcases ih hinner with ⟨hnumber, hrest⟩
        subst heq
        exact ⟨hnumber, congrArg (List.cons e) hrest⟩
      cases e with
      | ended m o res document =>
          simp only [endedAt] at h
          split at h
          · rename_i hm
            cases h
            rw [hm]
            exact ⟨rfl, rfl⟩
          · exact hlater h
      | entered _ _ => exact hlater h
      | locked _ _ _ => exact hlater h
      | read _ _ => exact hlater h
      | committed _ _ _ _ => exact hlater h
      | asked _ _ => exact hlater h
      | answered _ _ _ => exact hlater h
      | probed _ _ _ _ => exact hlater h

section Scripts

variable {options : TabStore.Options}
variable (sc : Script (SessionManager.manager options))
variable (check : System -> Delivery -> Bool)

def System.act (sys : System) : Action -> Option System
  | Action.send request =>
      if request = Request.listAfterConflict then none
      else some { sys with sent := sys.sent ++ [(request, sys.opOf request)] }
  | Action.arrive =>
      match sys.sent with
      | [] => none
      | (request, o) :: back =>
          (sc.exec sys.server.next
            (SessionManager.body options sys.server.next o)
            (sys.server.shared.record
              (SessionManager.Entry.entered sys.server.next o))).map fun r =>
            { sys with
              server := Config.settle (SessionManager.manager options)
                sys.server.stack sys.server.parked (sys.server.next + 1)
                sys.server.next o Phase.first r.1 r.2
              sent := back
              waiting := sys.waiting ++ [(sys.server.next, request)] }
  | Action.resume place =>
      (sc.move sys.server (Move.resume place)).map fun server =>
        { sys with server := server }
  | Action.beside =>
      (sc.move sys.server Move.env).map fun server =>
        { sys with server := server }
  | Action.answer place =>
      match sys.waiting.drop place with
      | [] => none
      | (n, request) :: back =>
          (endedAt n sys.server.shared.log).bind fun found =>
            let d := { found.1 with request := request }
            if check sys d then some
              { sys with
                client := (settled sys.client request d.res).1
                sent := sys.sent ++ ((settled sys.client request d.res).2.map
                  fun next => (next, sys.opOf next)).toList
                waiting := sys.waiting.take place ++ back
                applied := sys.applied ++ [d] }
            else none
  | Action.render => some { sys with client := render sys.client }

def System.play : List Action -> System -> Option System
  | [], sys => some sys
  | a :: rest, sys => (sys.act sc check a).bind (System.play rest)

variable {sc : Script (SessionManager.manager options)}
variable {check : System -> Delivery -> Bool}
variable {guard : System -> Delivery -> Prop}

theorem act_step (hcheck : forall sys d, check sys d = true -> guard sys d)
    {sys sys' : System} {a : Action} (h : sys.act sc check a = some sys') :
    Step options guard sys sys' := by
  cases a with
  | send request =>
      simp only [System.act] at h
      split at h
      · cases h
      · rename_i hne
        cases h
        exact Step.send request hne
  | arrive =>
      rcases sys with ⟨server, client, sent, waiting, applied⟩
      cases sent with
      | nil => cases h
      | cons x back =>
          rcases Option.map_eq_some_iff.mp h with ⟨r, hr, hsys⟩
          rw [← hsys]
          have hsent : x :: back = [] ++ x :: back := rfl
          exact Step.arrive hsent (Script.exec_seg hr)
  | resume place =>
      rcases Option.map_eq_some_iff.mp h with ⟨server, hserver, hsys⟩
      rw [← hsys]
      exact Step.serve (Script.move_step hserver)
  | beside =>
      rcases Option.map_eq_some_iff.mp h with ⟨server, hserver, hsys⟩
      rw [← hsys]
      exact Step.serve (Script.move_step hserver)
  | answer place =>
      simp only [System.act] at h
      split at h
      · cases h
      · rename_i n request back hdrop
        rcases Option.bind_eq_some_iff.mp h with ⟨found, hfound, hsys⟩
        rcases endedAt_split hfound with ⟨hnumber, hlog⟩
        split at hsys
        · rename_i hchecked
          have hwaiting : sys.waiting =
              sys.waiting.take place ++ (n, request) :: back := by
            rw [← hdrop, List.take_append_drop]
          cases hsys
          subst hnumber
          exact Step.answer hwaiting hlog (hcheck sys _ hchecked)
        · cases hsys
  | render =>
      cases h
      exact Step.render

theorem play_reachable
    (hcheck : forall sys d, check sys d = true -> guard sys d)
    {actions : List Action} {sys sys' : System}
    (h : sys.play sc check actions = some sys') :
    Relation.ReflTransGen (Step options guard) sys sys' := by
  induction actions generalizing sys with
  | nil =>
      cases h
      exact Relation.ReflTransGen.refl
  | cons a rest ih =>
      rcases Option.bind_eq_some_iff.mp h with ⟨mid, hact, hrest⟩
      exact Relation.ReflTransGen.head (act_step hcheck hact) (ih hrest)

end Scripts

end UseTabs
end Client
end FlanTerminal

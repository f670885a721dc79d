import FlanTerminal.Foundation.Generations
import FlanTerminal.Foundation.RelyGuarantee
import FlanTerminal.Server.ActivitySafety
import FlanTerminal.Server.WebSocketAuthIndexSafety

/-!
# Clean-up generations

The clean-up of a tab reads its generation in the tracker and in the index
twice and goes on only when neither has moved.  Both classes report generations
from a table of bounded length; their tables are tables with a floor, so a
generation rises with every change of its tab and never falls.
-/

namespace FlanTerminal
namespace Server

open Foundation
open Foundation.Generations

section Runs

variable {state : Type} {I : Interface} {error value op : Type}

/-- Some step on the way from one configuration to the other does this. -/
def Between (M : Machine state I error value op)
    (P : state -> state -> Prop) (cfg cfg' : Config state I error value op) :
    Prop :=
  exists a b, Relation.ReflTransGen (Step M) cfg a ∧ Step M a b ∧
    Relation.ReflTransGen (Step M) b cfg' ∧ P a.shared b.shared

/-- Every step changes the table by advances, of at least the keys that it
touches. -/
def Advancing (M : Machine state I error value op) (start : state)
    (limit : Nat) (table : state -> Table JsString)
    (touches : JsString -> state -> state -> Prop) : Prop :=
  forall a b, Reachable M start a -> Step M a b ->
    exists ids, Advances limit ids (table a.shared) (table b.shared) ∧
      forall id, touches id a.shared b.shared -> id ∈ ids

variable {M : Machine state I error value op} {start : state} {limit : Nat}
variable {table : state -> Table JsString}
variable {touches : JsString -> state -> state -> Prop}

theorem Advancing.ok (h : Advancing M start limit table touches)
    (hstart : (table start).Ok limit) {cfg : Config state I error value op}
    (hreach : Reachable M start cfg) : (table cfg.shared).Ok limit := by
  induction hreach with
  | refl => exact hstart
  | tail hreach hstep ih =>
      rcases h _ _ hreach hstep with ⟨ids, hids, _⟩
      exact hids.ok ih

theorem Advancing.report_le (h : Advancing M start limit table touches)
    (hstart : (table start).Ok limit) (hlimit : 0 < limit)
    {cfg cfg' : Config state I error value op}
    (hreach : Reachable M start cfg)
    (hpath : Relation.ReflTransGen (Step M) cfg cfg') (id : JsString) :
    (table cfg.shared).report id ≤ (table cfg'.shared).report id := by
  induction hpath with
  | refl => exact Nat.le_refl _
  | @tail a b hpath hstep ih =>
      have hreach' : Reachable M start a := hreach.trans hpath
      rcases h _ _ hreach' hstep with ⟨ids, hids, _⟩
      exact Nat.le_trans ih
        (hids.report_le hlimit (h.ok hstart hreach') id)

theorem Advancing.report_lt (h : Advancing M start limit table touches)
    (hstart : (table start).Ok limit) (hlimit : 0 < limit)
    {cfg cfg' : Config state I error value op}
    (hreach : Reachable M start cfg) {id : JsString}
    (hbetween : Between M (touches id) cfg cfg') :
    (table cfg.shared).report id < (table cfg'.shared).report id := by
  rcases hbetween with ⟨a, b, hfirst, hstep, hlast, htouch⟩
  have hreach' : Reachable M start a := hreach.trans hfirst
  have hreach'' : Reachable M start b := hreach'.tail hstep
  rcases h _ _ hreach' hstep with ⟨ids, hids, hmem⟩
  have hrise := hids.report_lt hlimit (h.ok hstart hreach') (hmem id htouch)
  have hbefore := h.report_le hstart hlimit hreach hfirst id
  have hafter := h.report_le hstart hlimit hreach'' hlast id
  exact Nat.lt_of_le_of_lt hbefore (Nat.lt_of_lt_of_le hrise hafter)

end Runs

/-!
## The tracker

The clock is ahead of every number in the table.
-/

namespace ActivityTracker

def table (s : State) : Table JsString :=
  ⟨s.cleanupEvictionGeneration, s.cleanupGenerations⟩

structure Clocked (s : State) : Prop where
  table : (table s).Ok MAX_CLEANUP_GENERATIONS
  floor : s.cleanupEvictionGeneration ≤ s.cleanupClock
  values : forall id v, s.cleanupGenerations.get id = some v ->
    v ≤ s.cleanupClock

theorem Clocked.report_le {s : State} (h : Clocked s) (id : JsString) :
    (ActivityTracker.table s).report id ≤ s.cleanupClock := by
  unfold Table.report ActivityTracker.table
  cases hget : s.cleanupGenerations.get id with
  | none => exact h.floor
  | some v => exact h.values id v hget

theorem Clocked.initial : Clocked State.initial :=
  ⟨⟨JsMap.distinct_nil, Nat.zero_le _⟩, Nat.le_refl _, nofun⟩

theorem Clocked.moved {s : State} (h : Clocked s) (id : JsString)
    {j : JsString} {v : Nat}
    (hget : ((ActivityTracker.table s).moved id
      (s.cleanupClock + 1)).get j = some v) : v ≤ s.cleanupClock + 1 := by
  rw [Table.get_moved] at hget
  split at hget
  · cases hget
    exact Nat.le_refl _
  · exact Nat.le_succ_of_le (h.values j v hget)

theorem advance_table {s : State} (h : Clocked s) (id : JsString) :
    Advance MAX_CLEANUP_GENERATIONS id (table s)
      (table (advanceCleanupGeneration s id)) := by
  have hrise : (table s).report id < s.cleanupClock + 1 :=
    Nat.lt_succ_of_le (h.report_le id)
  unfold advanceCleanupGeneration
  simp only
  split
  · rename_i hlength
    exact Advance.keep hrise hlength
  · rename_i hlength
    have hlong := Nat.lt_of_not_le hlength
    cases hmoved : (table s).moved id (s.cleanupClock + 1) with
    | nil =>
        unfold Table.moved table at hmoved
        rw [hmoved] at hlong
        exact absurd hlong (Nat.not_lt_zero _)
    | cons oldest rest =>
        have hoversee : oldest.2 ≤ s.cleanupClock + 1 := by
          apply h.moved id
          apply JsMap.get_of_mem (Table.distinct_moved h.table.distinct id _)
          rw [hmoved]
          exact List.mem_cons_self
        have hevict := Advance.evict hrise hlong hmoved
          (Nat.le_succ_of_le h.floor) hoversee
        unfold Table.moved table at hmoved
        unfold Table.moved table at hevict
        rw [hmoved] at hevict ⊢
        exact hevict

theorem Clocked.advance {s : State} (h : Clocked s) (id : JsString) :
    Clocked (advanceCleanupGeneration s id) := by
  have htable := (advance_table h id).ok h.table
  refine ⟨htable, ?_, ?_⟩
  · unfold advanceCleanupGeneration
    simp only
    split
    · exact Nat.le_succ_of_le h.floor
    · exact Nat.le_refl _
  · intro j v
    unfold advanceCleanupGeneration
    simp only
    split
    · exact h.moved id
    · intro hget
      simp only at hget
      split at hget
      · rename_i oldest _
        rw [JsMap.get_delete] at hget
        split at hget
        · cases hget
        · exact h.moved id hget
      · exact h.moved id hget

theorem advances_table {s : State} (h : Clocked s) (ids : JsSet JsString) :
    Advances MAX_CLEANUP_GENERATIONS ids (table s)
      (table (advanceCleanupGenerations s ids)) ∧
      Clocked (advanceCleanupGenerations s ids) := by
  unfold advanceCleanupGenerations
  induction ids generalizing s with
  | nil => exact ⟨Advances.nil, h⟩
  | cons id ids ih =>
      rcases ih (h.advance id) with ⟨hrest, hclocked⟩
      exact ⟨Advances.cons (advance_table h id) hrest, hclocked⟩

/-!
A segment moves from one state to another when its changes of the counters are
advances of some tabs, and the tabs that were marked in it, or joined or left a
flush, are among them.
-/

def marks (id : JsString) (s : State) : Nat :=
  s.log.count (Entry.marked id)

structure Moved (ids : List JsString) (s s' : State) : Prop where
  table : Advances MAX_CLEANUP_GENERATIONS ids (table s) (table s')
  marks : forall id, id ∉ ids -> marks id s' = marks id s
  flushing : forall id, id ∉ ids ->
    (id ∈ s'.flushingIds <-> id ∈ s.flushingIds)

def Moves (s s' : State) : Prop :=
  Clocked s -> Clocked s' ∧ exists ids, Moved ids s s'

theorem Moves.refl (s : State) : Moves s s :=
  fun h => ⟨h, [], Advances.nil, fun _ _ => rfl, fun _ _ => Iff.rfl⟩

theorem Moves.trans {s s' s'' : State} (h : Moves s s') (h' : Moves s' s'') :
    Moves s s'' := by
  intro hs
  rcases h hs with ⟨hs', ids, hids⟩
  rcases h' hs' with ⟨hs'', ids', hids'⟩
  refine ⟨hs'', ids ++ ids', hids.table.append hids'.table, ?_, ?_⟩
  · intro id hid
    rw [List.mem_append, not_or] at hid
    rw [hids'.marks id hid.2, hids.marks id hid.1]
  · intro id hid
    rw [List.mem_append, not_or] at hid
    exact (hids'.flushing id hid.2).trans (hids.flushing id hid.1)

structure Quiet (s s' : State) : Prop where
  table : table s' = table s
  clock : s'.cleanupClock = s.cleanupClock
  marks : forall id, marks id s' = marks id s
  flushing : s'.flushingIds = s.flushingIds

theorem Quiet.clocked {s s' : State} (h : Quiet s s') (hs : Clocked s) :
    Clocked s' := by
  have hfloor : s'.cleanupEvictionGeneration = s.cleanupEvictionGeneration :=
    congrArg Table.floor h.table
  have hentries : s'.cleanupGenerations = s.cleanupGenerations :=
    congrArg Table.entries h.table
  constructor
  · rw [h.table]
    exact hs.table
  · rw [hfloor, h.clock]
    exact hs.floor
  · rw [hentries, h.clock]
    exact hs.values

theorem Quiet.moves {s s' : State} (h : Quiet s s') : Moves s s' := by
  intro hs
  refine ⟨h.clocked hs, [], ?_, fun id _ => h.marks id, ?_⟩
  · rw [h.table]
    exact Advances.nil
  · intro id _
    rw [h.flushing]

theorem Moves.record (s : State) {e : Entry}
    (he : forall id, e ≠ Entry.marked id) : Moves s (s.record e) := by
  apply Quiet.moves
  constructor
  · rfl
  · rfl
  · intro id
    unfold marks State.record
    rw [List.count_append, List.count_singleton,
      beq_eq_false_iff_ne.mpr (he id)]
    rfl
  · rfl

theorem advances_rest (s : State) (ids : JsSet JsString) :
    (advanceCleanupGenerations s ids).log = s.log ∧
      (advanceCleanupGenerations s ids).flushingIds = s.flushingIds := by
  rcases advanceAll_eq s ids with ⟨a, b, c, heq⟩
  rw [heq]
  exact ⟨rfl, rfl⟩

theorem Moves.flush (s : State) {ids flushing : JsSet JsString}
    (hflushing : forall id, id ∉ ids ->
      (id ∈ flushing <-> id ∈ s.flushingIds)) :
    Moves s (advanceCleanupGenerations { s with flushingIds := flushing }
      ids) := by
  intro h
  have hflush : Clocked { s with flushingIds := flushing } :=
    ⟨h.table, h.floor, h.values⟩
  have hrest := advances_rest { s with flushingIds := flushing } ids
  rcases advances_table hflush ids with ⟨htable, hclocked⟩
  refine ⟨hclocked, ids, htable, ?_, ?_⟩
  · intro id _
    unfold marks
    rw [hrest.1]
  · intro id hid
    rw [hrest.2]
    exact hflushing id hid

theorem Moves.mark (s : State) (tabId : JsString) :
    Moves s (advanceCleanupGeneration
      { s.record (Entry.marked tabId) with
        dirtyIds := s.dirtyIds.add tabId } tabId) := by
  intro h
  have hmark : Clocked { s.record (Entry.marked tabId) with
      dirtyIds := s.dirtyIds.add tabId } := ⟨h.table, h.floor, h.values⟩
  have hrest := advances_rest { s.record (Entry.marked tabId) with
    dirtyIds := s.dirtyIds.add tabId } [tabId]
  rcases advances_table hmark [tabId] with ⟨htable, hclocked⟩
  refine ⟨hclocked, [tabId], htable, ?_, ?_⟩
  · intro id hid
    have hcount : [Entry.marked tabId].count (Entry.marked id) = 0 := by
      rw [List.count_eq_zero, List.mem_singleton]
      intro heq
      cases heq
      exact hid List.mem_cons_self
    unfold marks
    show List.count _ (advanceCleanupGenerations _ [tabId]).log = _
    rw [hrest.1]
    show (s.log ++ [Entry.marked tabId]).count (Entry.marked id) = _
    rw [List.count_append, hcount, Nat.add_zero]
  · intro id _
    show id ∈ (advanceCleanupGenerations _ [tabId]).flushingIds <-> _
    rw [hrest.2]
    exact Iff.rfl

def pace : Contract State where
  inv _ _ := True
  guar _ _ := Moves
  rely _ _ _ _ := True

def Paced {result : Type} (p : Code result) : Prop :=
  forall n Q ph cs s0 s, Moves s0 s ->
    (forall res ph cs s0 s, Moves s0 s -> Q res ph cs s0 s) ->
    p.wp tracker pace n Q ph cs s0 s

section Rules

variable {result other : Type}

theorem paced_pure (a : result) : Paced (pure a : Code result) :=
  fun _ _ _ _ _ _ hs hQ => hQ _ _ _ _ _ hs

theorem paced_throw : Paced (throw () : Code result) :=
  fun _ _ _ _ _ _ hs hQ => hQ _ _ _ _ _ hs

theorem Paced.bind {p : Code result} {g : result -> Code other}
    (hp : Paced p) (hg : forall a, Paced (g a)) : Paced (p >>= g) := by
  intro n Q ph cs s0 s hs hQ
  rw [Prog.wp_bind]
  apply hp n _ ph cs s0 s hs
  intro res ph cs s0 s hs
  cases res with
  | ok a => exact hg a n Q ph cs s0 s hs hQ
  | error e => exact hQ _ _ _ _ _ hs

theorem paced_read {g : State -> Code result} (hg : forall s, Paced (g s)) :
    Paced (Prog.read >>= g) :=
  fun n Q ph cs s0 s hs hQ => hg s n Q ph cs s0 s hs hQ

theorem paced_modify {f : State -> State} (hf : forall s, Moves s (f s)) :
    Paced (Prog.modify f : Code Unit) :=
  fun _ _ _ _ _ s hs hQ => hQ _ _ _ _ _ (hs.trans (hf s))

theorem moves_issue (n : Nat) (c : PortCall) (s : State) :
    Moves s (issue n c s) := by
  cases c with
  | flushActivity site ids now => exact Moves.record s nofun
  | clearTimeout handle => exact Quiet.moves ⟨rfl, rfl, fun _ => rfl, rfl⟩
  | _ => exact Moves.refl s

theorem moves_reply (n : Nat) (c : PortCall) (r : PortReply c) (s : State) :
    Moves s (reply n c r s) := by
  cases c with
  | setTimeout => exact Quiet.moves ⟨rfl, rfl, fun _ => rfl, rfl⟩
  | flushActivity site ids now =>
      cases r with
      | ok a => exact Moves.record s nofun
      | error e => exact Moves.record s nofun
  | _ => exact Moves.refl s

theorem paced_ask (c : PortCall) :
    Paced (Prog.ask (I := ports) c : Code (PortReply c)) := by
  intro n Q ph cs s0 s hs hQ
  have hissue := hs.trans (moves_issue n c s)
  cases hc : boundary c with
  | sync =>
      refine (Prog.wp_sync (M := tracker) hc).mpr ?_
      intro r _
      exact hQ _ _ _ _ _ (hissue.trans (moves_reply n c r _))
  | callback =>
      refine (Prog.wp_callback (M := tracker) hc).mpr
        ⟨trivial, hissue, ?_⟩
      intro cs' s' r _ _ _ _ _
      exact hQ _ _ _ _ _ (moves_reply n c r s')
  | await =>
      refine (Prog.wp_await (M := tracker) hc).mpr ⟨trivial, hissue, ?_⟩
      intro cs' s' r _ _ _ _ _
      exact hQ _ _ _ _ _ (moves_reply n c r s')

theorem paced_update {f : State -> State} (hf : forall s, Quiet s (f s)) :
    Paced (Prog.modify f : Code Unit) :=
  paced_modify fun s => (hf s).moves

theorem paced_schedule : Paced schedule := by
  apply paced_read
  intro s
  split
  · exact paced_pure ()
  · refine Paced.bind (paced_ask PortCall.setTimeout) ?_
    intro handle
    exact paced_update fun _ => ⟨rfl, rfl, fun _ => rfl, rfl⟩

theorem paced_takeDirtySnapshot : Paced takeDirtySnapshot := by
  apply paced_read
  intro s
  refine Paced.bind ?_ fun _ => paced_pure s.dirtyIds
  exact paced_update fun _ => ⟨rfl, rfl, fun _ => rfl, rfl⟩

theorem paced_hold (ids : JsSet JsString) : Paced (hold ids) := by
  intro n Q ph cs s0 s hs hQ
  refine hQ _ _ _ _ _ (hs.trans (Moves.flush s ?_))
  intro id hid
  rw [JsSet.mem_addAll]
  tauto

theorem paced_release (ids : JsSet JsString) : Paced (release ids) := by
  intro n Q ph cs s0 s hs hQ
  refine hQ _ _ _ _ _ (hs.trans (Moves.flush s ?_))
  intro id hid
  rw [JsSet.mem_deleteAll]
  tauto

theorem paced_putBack (ids : JsSet JsString) : Paced (putBack ids) :=
  paced_update fun _ => ⟨rfl, rfl, fun _ => rfl, rfl⟩

theorem paced_flushStore (site : Site) (ids : JsSet JsString) :
    Paced (flushStore site ids) := by
  refine Paced.bind (paced_ask PortCall.now) ?_
  intro now
  cases now with
  | ok now => exact paced_ask (PortCall.flushActivity site ids now)
  | error e => exact paced_pure _

theorem paced_microtask (job : Job) : Paced (microtask job) :=
  Paced.bind (paced_ask (PortCall.microtask job)) fun _ => paced_pure ()

theorem paced_settle (k : Nat) (ids : JsSet JsString) :
    Paced (settle k ids) := by
  refine Paced.bind (paced_microtask (Job.settled ids)) fun _ => ?_
  refine Paced.bind (paced_release ids) fun _ => ?_
  apply paced_read
  intro s
  split
  · exact paced_pure ()
  · refine Paced.bind ?_ fun _ => paced_schedule
    exact paced_update fun _ => ⟨rfl, rfl, fun _ => rfl, rfl⟩

theorem paced_operation (k : Nat) (ids : JsSet JsString) :
    Paced (operation k ids) := by
  refine Paced.bind (paced_microtask (Job.flush ids)) fun _ => ?_
  refine Paced.bind (paced_flushStore Site.startFlush ids) ?_
  intro res
  cases res with
  | ok a =>
      exact Paced.bind (paced_microtask (Job.passed ids)) fun _ =>
        paced_settle k ids
  | error e =>
      refine Paced.bind (paced_microtask (Job.rejected ids)) fun _ => ?_
      exact Paced.bind (paced_putBack ids) fun _ => paced_settle k ids

theorem paced_startFlush (k : Nat) : Paced (startFlush k) := by
  apply paced_read
  intro s
  split
  · exact paced_pure ()
  · refine Paced.bind paced_takeDirtySnapshot ?_
    intro ids
    refine Paced.bind (paced_hold ids) fun _ => ?_
    refine Paced.bind ?_ fun _ => paced_operation k ids
    exact paced_update fun _ => ⟨rfl, rfl, fun _ => rfl, rfl⟩

theorem paced_fire (k : Nat) : Paced (fire k) := by
  refine Paced.bind ?_ fun _ => paced_startFlush k
  exact paced_update fun _ => ⟨rfl, rfl, fun _ => rfl, rfl⟩

theorem paced_cancelTimer : Paced cancelTimer := by
  apply paced_read
  intro s
  cases s.timer with
  | none => exact paced_pure ()
  | some handle =>
      refine Paced.bind (paced_ask (PortCall.clearTimeout handle)) fun _ => ?_
      exact paced_update fun _ => ⟨rfl, rfl, fun _ => rfl, rfl⟩

theorem paced_flushRest : Paced flushRest := by
  apply paced_read
  intro s
  split
  · exact paced_pure ()
  · refine Paced.bind paced_takeDirtySnapshot ?_
    intro ids
    refine Paced.bind (paced_hold ids) fun _ => ?_
    refine Paced.bind (paced_flushStore Site.finishShutdown ids) ?_
    intro res
    cases res with
    | ok a => exact paced_release ids
    | error e =>
        refine Paced.bind (paced_putBack ids) fun _ => ?_
        exact Paced.bind (paced_release ids) fun _ => paced_throw

theorem paced_finishShutdown : Paced finishShutdown := by
  apply paced_read
  intro s
  cases s.inFlight with
  | none => exact paced_flushRest
  | some k =>
      exact Paced.bind (paced_ask (PortCall.inFlight k)) fun _ =>
        paced_flushRest

theorem paced_shutdown (k : Nat) : Paced (shutdown k) := by
  apply paced_read
  intro s
  cases s.shutdownPromise with
  | some j =>
      refine Paced.bind (paced_ask (PortCall.shutdownPromise j)) ?_
      intro res
      cases res with
      | ok a => exact paced_pure ()
      | error e => exact paced_throw
  | none =>
      refine Paced.bind ?_ fun _ => ?_
      · exact paced_update fun _ => ⟨rfl, rfl, fun _ => rfl, rfl⟩
      · refine Paced.bind paced_cancelTimer fun _ => ?_
        refine Paced.bind ?_ fun _ => paced_finishShutdown
        exact paced_update fun _ => ⟨rfl, rfl, fun _ => rfl, rfl⟩

theorem pace_sound : Contract.Sound tracker pace where
  rely_refl _ _ _ := trivial
  rely_trans _ _ := trivial
  first _ _ _ := trivial
  later _ _ _ := trivial
  env _ h := h.elim
  body := by
    intro cs s o _ _ _
    have hend : forall res ph cs' s0 s', Moves s0 s' ->
        endPost tracker pace cs.next o res ph cs' s0 s' := by
      intro res ph cs' s0 s' hs
      exact ⟨trivial, hs.trans (Moves.record s' nofun)⟩
    cases o with
    | mark tabId =>
        by_cases haccept : s.accepting = true
        · have henter : tracker.enter cs.next (Op.mark tabId) s =
              s.record (Entry.marked tabId) := if_pos haccept
          have hbody : tracker.body cs.next (Op.mark tabId) = mark tabId := rfl
          rw [henter, hbody]
          unfold mark
          rw [Prog.read_bind, Prog.wp_act]
          have hopen : (!(s.record (Entry.marked tabId)).accepting) =
              false := by
            show (!s.accepting) = false
            rw [haccept]
            rfl
          rw [hopen, if_neg Bool.false_ne_true]
          exact paced_schedule _ _ _ _ _ _ (Moves.mark s tabId) hend
        · have henter : tracker.enter cs.next (Op.mark tabId) s = s :=
            if_neg haccept
          have hclosed : (!s.accepting) = true := by
            rw [Bool.not_eq_true] at haccept
            rw [haccept]
            rfl
          rw [henter]
          show (mark tabId).wp tracker pace cs.next _ _ _ _ _
          unfold mark
          rw [Prog.read_bind, Prog.wp_act, if_pos hclosed]
          exact hend _ _ _ _ _ (Moves.refl s)
    | fire handle =>
        refine paced_fire cs.next _ _ _ _ _ _ ?_ hend
        exact Quiet.moves ⟨rfl, rfl, fun _ => rfl, rfl⟩
    | shutdown =>
        refine paced_shutdown cs.next _ _ _ _ _ _ ?_ hend
        exact Moves.record s nofun

end Rules

/-- The tab was marked, or has joined or left a flush. -/
def Touches (id : JsString) (s s' : State) : Prop :=
  marks id s' ≠ marks id s ∨
    ¬(id ∈ s'.flushingIds <-> id ∈ s.flushingIds)

theorem moves_step {a b : Config State ports Unit Unit Op} (h : Run a)
    (hstep : Step tracker a b) : Moves a.shared b.shared := by
  have hok := Reachable.ok pace_sound trivial h
  cases Step.guar pace_sound hstep hok with
  | inl hguar =>
      rcases hguar with ⟨ph, n, hmoves⟩
      exact hmoves
  | inr henv => exact henv.elim

theorem clocked_run {cfg : Config State ports Unit Unit Op} (h : Run cfg) :
    Clocked cfg.shared := by
  induction h with
  | refl => exact Clocked.initial
  | tail hreach hstep ih => exact (moves_step hreach hstep ih).1

theorem advancing : Advancing tracker State.initial MAX_CLEANUP_GENERATIONS
    table Touches := by
  intro a b hreach hstep
  rcases moves_step hreach hstep (clocked_run hreach) with ⟨_, ids, hids⟩
  refine ⟨ids, hids.table, ?_⟩
  intro id htouch
  by_contra hid
  cases htouch with
  | inl hmarks => exact hmarks (hids.marks id hid)
  | inr hflushing => exact hflushing (hids.flushing id hid)

end ActivityTracker

/-!
## The index

A new number is one more than the number reported before.
-/

namespace WebSocketAuthIndex

def table (x : Index) : Table JsString :=
  ⟨x.cleanupEvictionGeneration, x.cleanupGenerations⟩

theorem advance_table (x : Index) (id : JsString) :
    Advance MAX_CLEANUP_GENERATIONS id (table x)
      (table (x.advanceCleanupGeneration id)) := by
  have hrise : (table x).report id < (table x).report id + 1 :=
    Nat.lt_succ_self _
  unfold Index.advanceCleanupGeneration
  simp only
  split
  · rename_i hlength
    exact Advance.keep hrise hlength
  · rename_i hlength
    have hlong := Nat.lt_of_not_le hlength
    cases hmoved : (table x).moved id ((table x).report id + 1) with
    | nil =>
        unfold Table.moved Table.report table at hmoved
        rw [hmoved] at hlong
        exact absurd hlong (Nat.not_lt_zero _)
    | cons oldest rest =>
        have hfloor : x.cleanupEvictionGeneration ≤
            max (x.cleanupEvictionGeneration + 1) oldest.2 :=
          Nat.le_trans (Nat.le_succ _) (Nat.le_max_left _ _)
        have hevict := Advance.evict hrise hlong hmoved hfloor
          (Nat.le_max_right _ _)
        unfold Table.moved Table.report table at hmoved
        unfold Table.moved Table.report table at hevict
        rw [hmoved] at hevict ⊢
        exact hevict

theorem advances_table (x : Index) (ids : List JsString) :
    Advances MAX_CLEANUP_GENERATIONS ids (table x)
      (table (ids.foldl Index.advanceCleanupGeneration x)) := by
  induction ids generalizing x with
  | nil => exact Advances.nil
  | cons id ids ih =>
      exact Advances.cons (advance_table x id)
        (ih (x.advanceCleanupGeneration id))

def count (x : Index) (id : JsString) : Int :=
  (cleanupSnapshot x id).count

/-- The changes of the table are advances, and the tabs whose sockets were
registered or unregistered are among them. -/
def Moves (s s' : State) : Prop :=
  exists ids, Advances MAX_CLEANUP_GENERATIONS ids (table s.index)
    (table s'.index) ∧
      forall id, id ∉ ids -> count s'.index id = count s.index id

theorem Moves.refl (s : State) : Moves s s :=
  ⟨[], Advances.nil, fun _ _ => rfl⟩

theorem Moves.trans {s s' s'' : State} (h : Moves s s') (h' : Moves s' s'') :
    Moves s s'' := by
  rcases h with ⟨ids, htable, hcount⟩
  rcases h' with ⟨ids', htable', hcount'⟩
  refine ⟨ids ++ ids', htable.append htable', ?_⟩
  intro id hid
  rw [List.mem_append, not_or] at hid
  rw [hcount' id hid.2, hcount id hid.1]

theorem Moves.quiet {s s' : State} (htable : table s'.index = table s.index)
    (hcounts : s'.index.tabCounts = s.index.tabCounts) : Moves s s' := by
  refine ⟨[], ?_, ?_⟩
  · rw [htable]
    exact Advances.nil
  · intro id _
    unfold count cleanupSnapshot
    rw [hcounts]

theorem Moves.advanced {s : State} {x : Index} {terminalTabId : JsString}
    (htable : table x = table s.index)
    (hcounts : forall id, id ≠ terminalTabId ->
      count x id = count s.index id) :
    Moves s { s with index := x.advanceCleanupGeneration terminalTabId } := by
  refine ⟨[terminalTabId], Advances.cons ?_ Advances.nil, ?_⟩
  · rw [← htable]
    exact advance_table x terminalTabId
  · intro id hid
    rcases advance_eq x terminalTabId with ⟨b, c, heq⟩
    have hsame : count (x.advanceCleanupGeneration terminalTabId) id =
        count x id := by
      rw [heq]
      rfl
    show count (x.advanceCleanupGeneration terminalTabId) id = _
    rw [hsame]
    apply hcounts
    intro h
    exact hid (List.mem_singleton.mpr h)

theorem count_congr {x y : Index} {id : JsString}
    (h : x.tabCounts.get id = y.tabCounts.get id) :
    count x id = count y id := by
  unfold count cleanupSnapshot
  rw [h]

theorem Moves.insert (s : State) (session : Nat) (r : Registration) :
    Moves s { s with index := s.index.insert session r } := by
  unfold Index.insert
  apply Moves.advanced
  · rfl
  · intro id hid
    apply count_congr
    show JsMap.get (JsMap.set _ _ _) id = _
    rw [JsMap.get_set, if_neg fun h => hid h.symm]

theorem table_removeFromSession (x : Index) (r : Registration) :
    table (x.removeFromSession r) = table x ∧
      (x.removeFromSession r).tabCounts = x.tabCounts := by
  unfold Index.removeFromSession
  split
  · exact ⟨rfl, rfl⟩
  · unfold Index.dropSession
    split
    · exact ⟨rfl, rfl⟩
    · exact ⟨rfl, rfl⟩

theorem Moves.remove (s : State) (r : Registration) :
    Moves s { s with index := s.index.remove r } := by
  have hrest := table_removeFromSession
    { s.index with bySocket := s.index.bySocket.delete r.socket } r
  have huncount := uncount_eq (Index.removeFromSession
    { s.index with bySocket := s.index.bySocket.delete r.socket } r)
    r.terminalTabId
  rcases huncount with ⟨counts, heq, hcounts⟩
  unfold Index.remove
  apply Moves.advanced
  · rw [heq]
    exact hrest.1
  · intro id hid
    apply count_congr
    rw [heq]
    show JsMap.get counts id = _
    rw [hcounts, if_neg fun h => hid h.symm, hrest.2]

theorem moves_follows : Follows Moves where
  refl := Moves.refl
  newSession _ _ := Moves.quiet rfl rfl
  dropSession s id session := by
    unfold Index.dropSession
    split
    · exact Moves.quiet rfl rfl
    · exact Moves.refl s
  insert := Moves.insert
  remove := Moves.remove
  dispose _ := Moves.quiet rfl rfl

theorem alone_moves (options : Options) : (alone options).Within Moves where
  refl := Moves.refl
  trans := Moves.trans
  body := moves_follows.body options
  enter _ _ _ := Moves.quiet rfl rfl
  issue _ _ := Moves.refl
  reply _ _ _ := Moves.refl
  leave _ _ _ _ := Moves.quiet rfl rfl
  env := nofun

/-- The number of sockets of the tab is another one. -/
def Touches (id : JsString) (s s' : State) : Prop :=
  (cleanupSnapshot s'.index id).count ≠ (cleanupSnapshot s.index id).count

theorem advancing (options : Options) :
    Advancing (alone options) State.initial MAX_CLEANUP_GENERATIONS
      (fun s => table s.index) Touches := by
  intro a b hreach hstep
  rcases (alone_moves options).reachable hreach hstep with ⟨ids, htable, hcount⟩
  refine ⟨ids, htable, ?_⟩
  intro id htouch
  by_contra hid
  exact htouch (hcount id hid)

end WebSocketAuthIndex

/-!
## Both classes
-/

structure Rise (changed : JsString -> Prop) (before after : JsString -> Nat)
    (size : Nat) : Prop where
  never_less : forall id, before id ≤ after id
  greater : forall id, changed id -> before id < after id
  bounded : size ≤ 64

def RisesOnRuns {state : Type} {I : Interface} {error value op : Type}
    (M : Machine state I error value op) (start : state)
    (report : state -> JsString -> Nat) (size : state -> Nat)
    (touches : JsString -> state -> state -> Prop) : Prop :=
  forall cfg cfg', Reachable M start cfg ->
    Relation.ReflTransGen (Step M) cfg cfg' ->
      Rise (fun id => Between M (touches id) cfg cfg') (report cfg.shared)
        (report cfg'.shared) (size cfg'.shared)

theorem Advancing.rises {state : Type} {I : Interface} {error value op : Type}
    {M : Machine state I error value op} {start : state}
    {table : state -> Table JsString}
    {touches : JsString -> state -> state -> Prop}
    (h : Advancing M start 64 table touches) (hstart : (table start).Ok 64) :
    RisesOnRuns M start (fun s => (table s).report)
      (fun s => (table s).entries.length) touches := by
  intro cfg cfg' hreach hpath
  constructor
  · intro id
    exact h.report_le hstart (by decide) hreach hpath id
  · intro id hbetween
    exact h.report_lt hstart (by decide) hreach hbetween
  · exact (h.ok hstart (hreach.trans hpath)).bounded

theorem Advances.rise {ids ids' : List JsString} {g g' g'' : Table JsString}
    (h : Advances 64 ids g g') (h' : Advances 64 ids' g' g'')
    (hok : g.Ok 64) :
    Rise (fun id => id ∈ ids') g'.report g''.report g''.entries.length := by
  have hok' := h.ok hok
  constructor
  · intro id
    exact h'.report_le (by decide) hok' id
  · intro id hid
    exact h'.report_lt (by decide) hok' hid
  · exact (h'.ok hok').bounded

structure GenerationsRise : Prop where
  /-- Any advances of the tracker, a report, and any advances after it. -/
  tracker : forall ids ids' : List JsString,
    let s := ActivityTracker.advanceCleanupGenerations
      ActivityTracker.State.initial ids
    let s' := ActivityTracker.advanceCleanupGenerations s ids'
    Rise (fun id => id ∈ ids')
      (fun id => (ActivityTracker.cleanupSnapshot s id).generation)
      (fun id => (ActivityTracker.cleanupSnapshot s' id).generation)
      s'.cleanupGenerations.length
  /-- A tab is marked, joins or leaves a flush. -/
  trackerRuns : RisesOnRuns ActivityTracker.tracker
    ActivityTracker.State.initial
    (fun s id => (ActivityTracker.cleanupSnapshot s id).generation)
    (fun s => s.cleanupGenerations.length) ActivityTracker.Touches
  index : forall ids ids' : List JsString,
    let x := ids.foldl WebSocketAuthIndex.Index.advanceCleanupGeneration
      WebSocketAuthIndex.Index.initial
    let x' := ids'.foldl WebSocketAuthIndex.Index.advanceCleanupGeneration x
    Rise (fun id => id ∈ ids')
      (fun id => (WebSocketAuthIndex.cleanupSnapshot x id).generation)
      (fun id => (WebSocketAuthIndex.cleanupSnapshot x' id).generation)
      x'.cleanupGenerations.length
  /-- Sockets of a tab are registered or unregistered. -/
  indexRuns : forall options,
    RisesOnRuns (WebSocketAuthIndex.alone options)
      WebSocketAuthIndex.State.initial
      (fun s id => (WebSocketAuthIndex.cleanupSnapshot s.index id).generation)
      (fun s => s.index.cleanupGenerations.length) WebSocketAuthIndex.Touches

/-- Clean-up generations never miss a change. -/
theorem generations_rise : GenerationsRise where
  tracker ids ids' := by
    have hfirst := ActivityTracker.advances_table
      ActivityTracker.Clocked.initial ids
    have hsecond := ActivityTracker.advances_table hfirst.2 ids'
    exact Advances.rise hfirst.1 hsecond.1
      ActivityTracker.Clocked.initial.table
  trackerRuns :=
    ActivityTracker.advancing.rises ActivityTracker.Clocked.initial.table
  index ids ids' := by
    have hfirst := WebSocketAuthIndex.advances_table
      WebSocketAuthIndex.Index.initial ids
    have hsecond := WebSocketAuthIndex.advances_table
      (ids.foldl WebSocketAuthIndex.Index.advanceCleanupGeneration
        WebSocketAuthIndex.Index.initial) ids'
    exact Advances.rise hfirst hsecond ⟨JsMap.distinct_nil, Nat.zero_le _⟩
  indexRuns options :=
    Advancing.rises (WebSocketAuthIndex.advancing options)
      ⟨JsMap.distinct_nil, Nat.zero_le _⟩

/-- A tab that was dropped from the table reports the floor. -/
example :
    let s := ActivityTracker.advanceCleanupGenerations
      ActivityTracker.State.initial
      (js "tab" :: (List.range 64).map fun n => [200 + n.toUInt16])
    (s.cleanupGenerations.get (js "tab"),
      (ActivityTracker.cleanupSnapshot s (js "tab")).generation) =
        (none, 65) := by
  decide +kernel

end Server
end FlanTerminal

import FlanTerminal.Foundation.Ledger
import FlanTerminal.Foundation.Script
import FlanTerminal.Foundation.Trace
import FlanTerminal.Server.ActivityTracker

/-!
# No activity is lost

A mark that was accepted stays in one of the two sets until a flush that
started after it has succeeded.  While a flush is in flight its tabs belong to
the operation that waits; when the operation goes on it either has succeeded or
puts them back.
-/

namespace FlanTerminal
namespace Server
namespace ActivityTracker

open Foundation

/-- The tabs of a flush that a timer has started, from the snapshot to its
last job. -/
def flight : PortCall -> Option (JsSet JsString)
  | PortCall.microtask (Job.flush ids) => some ids
  | PortCall.microtask (Job.passed ids) => some ids
  | PortCall.microtask (Job.rejected ids) => some ids
  | PortCall.microtask (Job.settled ids) => some ids
  | PortCall.flushActivity Site.startFlush ids _ => some ids
  | _ => none

def inFlightIds : PortCall -> Option (JsSet JsString)
  | PortCall.flushActivity Site.finishShutdown ids _ => some ids
  | c => flight c

/-- A flush with this tab was started and has succeeded. -/
def Covered (id : JsString) (log : List Entry) : Prop :=
  exists n ids before after, log = before ++ Entry.flush n ids :: after ∧
    id ∈ ids ∧ Entry.flushed n ∈ after

/-- A waiting operation still answers for this tab. -/
def Held (L : Ledger ports) (id : JsString) (log : List Entry) : Prop :=
  exists n ids, id ∈ ids ∧
    (L.pending n = some (PortCall.microtask (Job.flush ids)) ∨
      L.pending n = some (PortCall.microtask (Job.rejected ids)) ∨
      exists site now,
        L.pending n = some (PortCall.flushActivity site ids now) ∧
          Entry.flush n ids ∈ log)

def EveryMark (P : JsString -> List Entry -> Prop) (log : List Entry) : Prop :=
  EveryAfter (fun e after => forall id, e = Entry.marked id -> P id after) log

structure Base (L : Ledger ports) (s : State) : Prop where
  armed : s.armed = s.timer.toList
  stopped : s.accepting = false -> s.timer = none
  promise : s.accepting = true <-> s.shutdownPromise = none
  idle : s.timer.isSome = true -> s.inFlight = none
  flying : forall k, s.inFlight = some k ->
    exists c ids, L.pending k = some c ∧ flight c = some ids
  flights : forall m c ids, L.pending m = some c -> flight c = some ids ->
    s.inFlight = some m ∧ forall id, id ∈ ids -> id ∈ s.flushingIds
  last : forall m ids now,
    L.pending m = some (PortCall.flushActivity Site.finishShutdown ids now) ->
      s.inFlight = none ∧ s.shutdownPromise = some m ∧ s.dirtyIds = [] ∧
        forall id, id ∈ ids -> id ∈ s.flushingIds
  waiting : forall m k, L.pending m = some (PortCall.inFlight k) ->
    s.shutdownPromise = some m ∧ (s.inFlight = some k ∨ s.inFlight = none)
  ended : forall k o res, Entry.ended k o res ∈ s.log ->
    k < L.next ∧ L.pending k = none
  began : forall n, Entry.shutdown n ∈ s.log -> s.accepting = false
  finished : forall n res, Entry.ended n Op.shutdown res ∈ s.log ->
    exists k, s.shutdownPromise = some k ∧
      Entry.ended k Op.shutdown res ∈ s.log
  kept : EveryMark (fun id after => Covered id after ∨ id ∈ s.dirtyIds ∨
    Held L id after) s.log
  resolved : forall n a, Entry.ended n Op.shutdown (Except.ok a) ∈ s.log ->
    EveryMark Covered s.log
  rejected : forall n e, Entry.ended n Op.shutdown (Except.error e) ∈ s.log ->
    EveryMark (fun id after => Covered id after ∨ id ∈ s.dirtyIds) s.log

structure Inv (L : Ledger ports) (s : State) : Prop extends Base L s where
  awake : s.accepting = true -> s.dirtyIds ≠ [] ->
    s.timer.isSome = true ∨ s.inFlight.isSome = true

/-!
## Logs
-/

theorem Covered.append {id : JsString} {log : List Entry} (h : Covered id log)
    (e : Entry) : Covered id (log ++ [e]) := by
  rcases h with ⟨n, ids, before, after, hlog, hid, hdone⟩
  refine ⟨n, ids, before, after ++ [e], ?_, hid, List.mem_append_left _ hdone⟩
  rw [hlog]
  simp

theorem Held.append {L : Ledger ports} {id : JsString} {log : List Entry}
    (h : Held L id log) (e : Entry) : Held L id (log ++ [e]) := by
  rcases h with ⟨n, ids, hid, hflush | hback | ⟨site, now, hstore, hlog⟩⟩
  · exact ⟨n, ids, hid, Or.inl hflush⟩
  · exact ⟨n, ids, hid, Or.inr (Or.inl hback)⟩
  · exact ⟨n, ids, hid,
      Or.inr (Or.inr ⟨site, now, hstore, List.mem_append_left _ hlog⟩)⟩

theorem EveryMark.mono {P P' : JsString -> List Entry -> Prop}
    {log : List Entry} (h : EveryMark P log)
    (himp : forall id after, P id after -> P' id after) : EveryMark P' log :=
  EveryAfter.mono h fun _ after he id hid => himp id after (he id hid)

theorem EveryMark.record {P P' : JsString -> List Entry -> Prop}
    {log : List Entry} {e : Entry} (h : EveryMark P log)
    (he : forall id, e ≠ Entry.marked id)
    (himp : forall id after, P id after -> P' id (after ++ [e])) :
    EveryMark P' (log ++ [e]) := by
  refine everyAfter_snoc.mpr ⟨?_, ?_⟩
  · exact EveryAfter.mono h fun _ after hx id hid => himp id after (hx id hid)
  · intro id hid
    exact absurd hid (he id)

theorem EveryMark.marked {P P' : JsString -> List Entry -> Prop}
    {log : List Entry} {id : JsString} (h : EveryMark P log) (hnew : P' id [])
    (himp : forall id' after, P id' after ->
      P' id' (after ++ [Entry.marked id])) :
    EveryMark P' (log ++ [Entry.marked id]) := by
  refine everyAfter_snoc.mpr ⟨?_, ?_⟩
  · exact EveryAfter.mono h fun _ after hx id' hid => himp id' after (hx id' hid)
  · intro id' hid
    cases hid
    exact hnew

/-!
## Generations
-/

theorem advance_eq (s : State) (id : JsString) :
    exists a b c, advanceCleanupGeneration s id =
      { s with
        cleanupClock := a
        cleanupEvictionGeneration := b
        cleanupGenerations := c } := by
  unfold advanceCleanupGeneration
  simp only
  split
  · exact ⟨_, _, _, rfl⟩
  · exact ⟨_, _, _, rfl⟩

theorem advanceAll_eq (s : State) (ids : JsSet JsString) :
    exists a b c, advanceCleanupGenerations s ids =
      { s with
        cleanupClock := a
        cleanupEvictionGeneration := b
        cleanupGenerations := c } := by
  unfold advanceCleanupGenerations
  induction ids generalizing s with
  | nil => exact ⟨_, _, _, rfl⟩
  | cons id ids ih =>
      rcases advance_eq s id with ⟨a, b, c, hfirst⟩
      rcases ih (advanceCleanupGeneration s id) with ⟨a', b', c', hrest⟩
      refine ⟨a', b', c', ?_⟩
      rw [List.foldl_cons, hrest, hfirst]

/-!
## One operation at a time

An operation that runs waits for nothing.  The lemmas say what each piece of
its code does to the invariant.
-/

section Rules

variable {L : Ledger ports} {n : Nat} {s : State}

theorem owes_await {result : Type} {c : PortCall}
    {k : PortReply c -> Code result}
    {Q : Except Unit result -> Ledger ports -> State -> Prop}
    (hc : boundary c ≠ Boundary.sync)
    (hinv : Inv (L.put n (some c)) (issue n c s))
    (hk : forall L' t r, Ledger.pending L' n = some c -> n < L'.next ->
      Inv L' t -> allowed t n c r ->
      (k r).owes tracker Inv n Q (L'.put n none) (reply n c r t)) :
    (Prog.call (I := ports) c k).owes tracker Inv n Q L s :=
  (Prog.owes_wait (M := tracker) hc).mpr
    ⟨hinv, fun L' t r hpending hn _ => hk L' t r hpending hn⟩

theorem Base.generations (h : Base L s) (a b : Nat) (c : JsMap JsString Nat) :
    Base L { s with
      cleanupClock := a
      cleanupEvictionGeneration := b
      cleanupGenerations := c } :=
  ⟨h.armed, h.stopped, h.promise, h.idle, h.flying, h.flights, h.last, h.waiting,
    h.ended, h.began, h.finished, h.kept, h.resolved, h.rejected⟩

theorem Inv.of_advanced {ids : JsSet JsString} {e : Entry}
    (h : forall a b c, Inv L (State.record { s with
      cleanupClock := a
      cleanupEvictionGeneration := b
      cleanupGenerations := c } e)) :
    Inv L ((advanceCleanupGenerations s ids).record e) := by
  rcases advanceAll_eq s ids with ⟨a, b, c, heq⟩
  rw [heq]
  exact h a b c

theorem Base.end_quietly (h : Base L s) {o : Op} (ho : o ≠ Op.shutdown)
    (hn : n < L.next) (hfree : L.pending n = none) (res : Except Unit Unit) :
    Base L (s.record (Entry.ended n o res)) := by
  have hold : forall k res', Entry.ended k Op.shutdown res' ∈
      s.log ++ [Entry.ended n o res] ->
      Entry.ended k Op.shutdown res' ∈ s.log := by
    intro k res' hmem
    rcases List.mem_append.mp hmem with hmem | hmem
    · exact hmem
    · cases List.mem_singleton.mp hmem
      exact absurd rfl ho
  constructor
  · exact h.armed
  · exact h.stopped
  · exact h.promise
  · exact h.idle
  · exact h.flying
  · exact h.flights
  · exact h.last
  · exact h.waiting
  · intro k o' res' hmem
    rcases List.mem_append.mp hmem with hmem | hmem
    · exact h.ended k o' res' hmem
    · cases List.mem_singleton.mp hmem
      exact ⟨hn, hfree⟩
  · intro m hmem
    rcases List.mem_append.mp hmem with hmem | hmem
    · exact h.began m hmem
    · cases List.mem_singleton.mp hmem
  · intro m res' hmem
    rcases h.finished m res' (hold m res' hmem) with ⟨k, hk, hlog⟩
    exact ⟨k, hk, List.mem_append_left _ hlog⟩
  · refine h.kept.record (fun _ => nofun) ?_
    intro id after hid
    rcases hid with hid | hid | hid
    · exact Or.inl (hid.append _)
    · exact Or.inr (Or.inl hid)
    · exact Or.inr (Or.inr (hid.append _))
  · intro m a hmem
    exact (h.resolved m a (hold m _ hmem)).record (fun _ => nofun)
      (fun _ _ hid => hid.append _)
  · intro m e hmem
    refine (h.rejected m e (hold m _ hmem)).record (fun _ => nofun) ?_
    intro id after hid
    rcases hid with hid | hid
    · exact Or.inl (hid.append _)
    · exact Or.inr hid

theorem owes_schedule (h : Base L s) {o : Op} (ho : o ≠ Op.shutdown)
    (hn : n < L.next) (hfree : L.pending n = none) :
    schedule.owes tracker Inv n (finalOwes tracker Inv n o) L s := by
  unfold schedule
  simp only [Prog.read_bind, Prog.owes_act, id_eq]
  split
  · rename_i hskip
    refine ⟨h.end_quietly ho hn hfree _, ?_⟩
    intro haccept hdirty
    change s.accepting = true at haccept
    change s.dirtyIds ≠ [] at hdirty
    show s.timer.isSome = true ∨ s.inFlight.isSome = true
    simp only [haccept, Bool.not_true, Bool.false_or, Bool.or_eq_true,
      List.isEmpty_iff, hdirty, or_false] at hskip
    exact hskip
  · rename_i hgo
    simp only [Bool.or_eq_true, Bool.not_eq_true', not_or, List.isEmpty_iff,
      Bool.not_eq_false, Option.isSome_iff_ne_none, ne_eq,
      Decidable.not_not] at hgo
    rcases hgo with ⟨⟨⟨haccept, htimer⟩, hflight⟩, _⟩
    refine (Prog.owes_sync rfl).mpr ?_
    intro (handle : Nat) _
    have hbase : Base L { s with
        armed := s.armed ++ [handle]
        timer := some handle } := by
      refine ⟨?_, ?_, h.promise, ?_, h.flying, h.flights, h.last, h.waiting,
        h.ended, h.began, h.finished, h.kept, h.resolved, h.rejected⟩
      · show s.armed ++ [handle] = [handle]
        rw [h.armed, htimer]
        rfl
      · intro hstop
        exact Bool.noConfusion (haccept.symm.trans hstop)
      · intro _
        exact hflight
    exact ⟨hbase.end_quietly ho hn hfree _, fun _ _ => Or.inl rfl⟩

theorem Base.next (h : Base L s) : Base { L with next := L.next + 1 } s :=
  ⟨h.armed, h.stopped, h.promise, h.idle, h.flying, h.flights, h.last,
    h.waiting, fun k o res hmem =>
      ⟨Nat.lt_succ_of_lt (h.ended k o res hmem).1, (h.ended k o res hmem).2⟩,
    h.began, h.finished, h.kept, h.resolved, h.rejected⟩

theorem Base.no_shutdown (h : Base L s) (haccept : s.accepting = true)
    {k : Nat} {res : Except Unit Unit} :
    Entry.ended k Op.shutdown res ∉ s.log := by
  intro hmem
  rcases h.finished k res hmem with ⟨m, hm, _⟩
  rw [h.promise.mp haccept] at hm
  cases hm

/-!
## Marks
-/

theorem Base.mark (h : Base L s) (haccept : s.accepting = true)
    (id : JsString) :
    Base L { s with
      dirtyIds := s.dirtyIds.add id
      log := s.log ++ [Entry.marked id] } := by
  have hnone := h.promise.mp haccept
  have hold : forall k res, Entry.ended k Op.shutdown res ∉
      s.log ++ [Entry.marked id] := by
    intro k res hmem
    rcases List.mem_append.mp hmem with hmem | hmem
    · exact h.no_shutdown haccept hmem
    · cases List.mem_singleton.mp hmem
  constructor
  · exact h.armed
  · exact h.stopped
  · exact h.promise
  · exact h.idle
  · exact h.flying
  · exact h.flights
  · intro m ids now hm
    have hpromise := (h.last m ids now hm).2.1
    rw [hnone] at hpromise
    cases hpromise
  · exact h.waiting
  · intro k o res hmem
    rcases List.mem_append.mp hmem with hmem | hmem
    · exact h.ended k o res hmem
    · cases List.mem_singleton.mp hmem
  · intro m hmem
    rcases List.mem_append.mp hmem with hmem | hmem
    · exact h.began m hmem
    · cases List.mem_singleton.mp hmem
  · intro m res hmem
    exact absurd hmem (hold m res)
  · refine h.kept.marked (Or.inr (Or.inl ?_)) ?_
    · exact JsSet.mem_add.mpr (Or.inr rfl)
    · intro id' after hid
      rcases hid with hid | hid | hid
      · exact Or.inl (hid.append _)
      · exact Or.inr (Or.inl (JsSet.mem_add.mpr (Or.inl hid)))
      · exact Or.inr (Or.inr (hid.append _))
  · intro m a hmem
    exact absurd hmem (hold m _)
  · intro m e hmem
    exact absurd hmem (hold m _)

theorem owes_mark (h : Inv L s) (hfree : L.pending L.next = none)
    (tabId : JsString) :
    (mark tabId).owes tracker Inv L.next
      (finalOwes tracker Inv L.next (Op.mark tabId))
      { L with next := L.next + 1 } (enter L.next (Op.mark tabId) s) := by
  unfold mark enter
  simp only [Prog.read_bind, Prog.owes_act, id_eq]
  by_cases haccept : s.accepting = true
  · simp only [haccept, if_true, State.record, Bool.not_true,
      Bool.false_eq_true, if_false, Prog.modify_bind, Prog.owes_act]
    have hbase := (h.toBase.mark haccept tabId).next
    rcases advance_eq { s with
      dirtyIds := s.dirtyIds.add tabId
      log := s.log ++ [Entry.marked tabId] } tabId with ⟨a, b, c, heq⟩
    have hrun := owes_schedule (o := Op.mark tabId)
      (hbase.generations a b c) (fun h => by cases h)
      (Nat.lt_succ_self L.next) hfree
    rw [← heq, haccept] at hrun
    exact hrun
  · have hstop : s.accepting = false := by simpa using haccept
    simp only [hstop, Bool.false_eq_true, if_false, Bool.not_false, if_true]
    refine ⟨h.toBase.next.end_quietly (o := Op.mark tabId) (fun h => by cases h)
      (Nat.lt_succ_self L.next) hfree _, ?_⟩
    intro haccept'
    exact Bool.noConfusion (hstop.symm.trans haccept')

/-!
## Flushes in flight

Between its snapshot and its last job a flush goes from call to call, always
with the same tabs.  What may change on the way are the tabs still to be
written, which grow, and the log.
-/

def isFlushEntry : Entry -> Bool
  | Entry.flush _ _ => true
  | Entry.flushed _ => true
  | Entry.failed _ => true
  | _ => false

def Grown (log log' : List Entry) : Prop :=
  log' = log ∨ exists e, isFlushEntry e = true ∧ log' = log ++ [e]

theorem Grown.ended {log log' : List Entry} (h : Grown log log') {k : Nat}
    {o : Op} {res : Except Unit Unit} :
    Entry.ended k o res ∈ log' <-> Entry.ended k o res ∈ log := by
  rcases h with h | ⟨e, he, h⟩
  · rw [h]
  · rw [h, List.mem_append, List.mem_singleton]
    constructor
    · rintro (hmem | hmem)
      · exact hmem
      · rw [← hmem] at he
        cases he
    · exact Or.inl

theorem Grown.began {log log' : List Entry} (h : Grown log log') {m : Nat} :
    Entry.shutdown m ∈ log' -> Entry.shutdown m ∈ log := by
  rcases h with h | ⟨e, he, h⟩
  · rw [h]
    exact id
  · rw [h, List.mem_append, List.mem_singleton]
    rintro (hmem | hmem)
    · exact hmem
    · rw [← hmem] at he
      cases he

theorem Grown.every {log log' : List Entry} (h : Grown log log')
    {P P' : JsString -> List Entry -> Prop} (hlog : EveryMark P log)
    (hsame : forall id after, P id after -> P' id after)
    (hmore : forall id after e, P id after -> P' id (after ++ [e])) :
    EveryMark P' log' := by
  rcases h with h | ⟨e, he, h⟩
  · rw [h]
    exact hlog.mono hsame
  · rw [h]
    refine hlog.record ?_ (fun id after hid => hmore id after e hid)
    intro id hid
    rw [hid] at he
    cases he

theorem Covered.grown {log log' : List Entry} (h : Grown log log')
    (hlog : EveryMark Covered log) : EveryMark Covered log' :=
  h.every hlog (fun _ _ hid => hid) (fun _ _ _ hid => hid.append _)

theorem Inv.turn (h : Inv L s) {c c' : PortCall} {ids : JsSet JsString}
    (hc : L.pending n = some c) (hf : flight c = some ids)
    (hf' : flight c' = some ids) {dirty : JsSet JsString} {log : List Entry}
    (hdirty : forall id, id ∈ s.dirtyIds -> id ∈ dirty)
    (hlog : Grown s.log log)
    (hkept : EveryMark (fun id after => Covered id after ∨ id ∈ dirty ∨
      Held (L.put n (some c')) id after) log) :
    Inv (L.put n (some c')) { s with dirtyIds := dirty, log := log } := by
  have hmine := h.flights n c ids hc hf
  constructor
  · constructor
    · exact h.armed
    · exact h.stopped
    · exact h.promise
    · exact h.idle
    · intro k hk
      have hkn : k = n := Option.some.inj (hk.symm.trans hmine.1)
      rw [hkn]
      exact ⟨c', ids, Ledger.put_same _ _ _, hf'⟩
    · intro m d ids' hm hd
      rw [Ledger.put_pending] at hm
      split at hm
      · rename_i hmn
        cases hm
        rw [hmn]
        rw [hf'] at hd
        cases hd
        exact hmine
      · exact h.flights m d ids' hm hd
    · intro m ids' now hm
      rw [Ledger.put_pending] at hm
      split at hm
      · cases hm
        cases hf'
      · have hnone := (h.last m ids' now hm).1
        rw [hmine.1] at hnone
        cases hnone
    · intro m k hm
      rw [Ledger.put_pending] at hm
      split at hm
      · cases hm
        cases hf'
      · exact h.waiting m k hm
    · intro k o res hmem
      have hended := h.ended k o res (hlog.ended.mp hmem)
      have hkn : k ≠ n := by
        intro hkn
        rw [hkn, hc] at hended
        cases hended.2
      rw [Ledger.put_other _ _ hkn]
      exact hended
    · intro m hmem
      exact h.began m (hlog.began hmem)
    · intro m res hmem
      rcases h.finished m res (hlog.ended.mp hmem) with ⟨k, hk, hend⟩
      exact ⟨k, hk, hlog.ended.mpr hend⟩
    · exact hkept
    · intro m a hmem
      exact Covered.grown hlog (h.resolved m a (hlog.ended.mp hmem))
    · intro m e hmem
      refine hlog.every (h.rejected m e (hlog.ended.mp hmem)) ?_ ?_
      · intro id after hid
        rcases hid with hid | hid
        · exact Or.inl hid
        · exact Or.inr (hdirty id hid)
      · intro id after x hid
        rcases hid with hid | hid
        · exact Or.inl (hid.append _)
        · exact Or.inr (hdirty id hid)
  · intro _ _
    right
    show s.inFlight.isSome = true
    rw [hmine.1]
    rfl

theorem inFlightIds_cases {c : PortCall} {ids : JsSet JsString}
    (h : inFlightIds c = some ids) : flight c = some ids ∨
      exists now, c = PortCall.flushActivity Site.finishShutdown ids now := by
  unfold inFlightIds at h
  split at h
  · cases h
    exact Or.inr ⟨_, rfl⟩
  · exact Or.inl h

theorem inFlightIds_of_flight {c : PortCall} {ids : JsSet JsString}
    (h : flight c = some ids) : inFlightIds c = some ids := by
  cases c with
  | flushActivity site ids' now =>
      cases site with
      | startFlush => exact h
      | finishShutdown => cases h
  | _ => exact h

theorem inFlightIds_store {site : Site} {ids : JsSet JsString}
    {now : JsString} :
    inFlightIds (PortCall.flushActivity site ids now) = some ids := by
  cases site with
  | startFlush => rfl
  | finishShutdown => rfl

theorem Base.single (h : Base L s) {m : Nat} {c d : PortCall}
    {ids ids' : JsSet JsString} (hc : L.pending n = some c)
    (hf : inFlightIds c = some ids) (hd : L.pending m = some d)
    (hf' : inFlightIds d = some ids') : m = n := by
  rcases inFlightIds_cases hf with hf | ⟨now, rfl⟩
  · have hmine := (h.flights n c ids hc hf).1
    rcases inFlightIds_cases hf' with hf' | ⟨now, rfl⟩
    · have hother := (h.flights m d ids' hd hf').1
      exact Option.some.inj (hother.symm.trans hmine)
    · have hnone := (h.last m ids' now hd).1
      rw [hmine] at hnone
      cases hnone
  · rcases h.last n ids now hc with ⟨hnone, hmine, _⟩
    rcases inFlightIds_cases hf' with hf' | ⟨now', rfl⟩
    · have hother := (h.flights m d ids' hd hf').1
      rw [hnone] at hother
      cases hother
    · have hother := (h.last m ids' now' hd).2.1
      exact Option.some.inj (hother.symm.trans hmine)

theorem Held.pending {id : JsString} {log : List Entry}
    (h : Held L id log) : exists m d ids, L.pending m = some d ∧
      inFlightIds d = some ids := by
  rcases h with ⟨m, ids, _, hm | hm | ⟨site, now, hm, _⟩⟩
  · exact ⟨m, _, ids, hm, rfl⟩
  · exact ⟨m, _, ids, hm, rfl⟩
  · exact ⟨m, _, ids, hm, inFlightIds_store⟩

theorem Base.held (h : Base L s) {c : PortCall} {ids : JsSet JsString}
    (hc : L.pending n = some c) (hf : inFlightIds c = some ids)
    {id : JsString} {log : List Entry} (hheld : Held L id log) :
    exists ids', id ∈ ids' ∧
      (c = PortCall.microtask (Job.flush ids') ∨
        c = PortCall.microtask (Job.rejected ids') ∨
        exists site now, c = PortCall.flushActivity site ids' now ∧
          Entry.flush n ids' ∈ log) := by
  rcases hheld with ⟨m, ids', hid, hm⟩
  have hmn : m = n := by
    rcases hm with hm | hm | ⟨site, now, hm, _⟩
    · exact h.single hc hf hm rfl
    · exact h.single hc hf hm rfl
    · exact h.single hc hf hm inFlightIds_store
  rw [hmn, hc] at hm
  refine ⟨ids', hid, ?_⟩
  rcases hm with hm | hm | ⟨site, now, hm, hlog⟩
  · exact Or.inl (Option.some.inj hm)
  · exact Or.inr (Or.inl (Option.some.inj hm))
  · exact Or.inr (Or.inr ⟨site, now, Option.some.inj hm, hlog⟩)

theorem Base.land (h : Base L s) {c : PortCall} {ids : JsSet JsString}
    (hc : L.pending n = some c) (hf : inFlightIds c = some ids)
    {dirty flushing : JsSet JsString} {log : List Entry}
    (hlog : Grown s.log log)
    (hkept : EveryMark (fun id after => Covered id after ∨ id ∈ dirty) log) :
    Base (L.put n none) { s with
      dirtyIds := dirty
      flushingIds := flushing
      inFlight := none
      log := log } := by
  constructor
  · exact h.armed
  · exact h.stopped
  · exact h.promise
  · intro _
    rfl
  · intro k hk
    cases hk
  · intro m d ids' hm hd
    rw [Ledger.put_pending] at hm
    split at hm
    · cases hm
    · rename_i hne
      exact absurd (h.single hc hf hm (inFlightIds_of_flight hd)) hne
  · intro m ids' now hm
    rw [Ledger.put_pending] at hm
    split at hm
    · cases hm
    · rename_i hne
      exact absurd (h.single hc hf hm rfl) hne
  · intro m k hm
    rw [Ledger.put_pending] at hm
    split at hm
    · cases hm
    · exact ⟨(h.waiting m k hm).1, Or.inr rfl⟩
  · intro k o res hmem
    have hended := h.ended k o res (hlog.ended.mp hmem)
    rw [Ledger.put_pending]
    split
    · exact ⟨hended.1, rfl⟩
    · exact hended
  · intro m hmem
    exact h.began m (hlog.began hmem)
  · intro m res hmem
    rcases h.finished m res (hlog.ended.mp hmem) with ⟨k, hk, hend⟩
    exact ⟨k, hk, hlog.ended.mpr hend⟩
  · refine hkept.mono ?_
    intro id after hid
    rcases hid with hid | hid
    · exact Or.inl hid
    · exact Or.inr (Or.inl hid)
  · intro m a hmem
    exact Covered.grown hlog (h.resolved m a (hlog.ended.mp hmem))
  · intro m e hmem
    exact hkept

theorem owes_settle {o : Op} (ho : o ≠ Op.shutdown) (h : Inv L s)
    {c : PortCall} {ids : JsSet JsString} (hc : L.pending n = some c)
    (hf : flight c = some ids) {dirty : JsSet JsString} {log : List Entry}
    (hdirty : forall id, id ∈ s.dirtyIds -> id ∈ dirty)
    (hlog : Grown s.log log)
    (hkept : EveryMark (fun id after => Covered id after ∨ id ∈ dirty) log) :
    (settle n ids).owes tracker Inv n (finalOwes tracker Inv n o)
      (L.put n none) { s with dirtyIds := dirty, log := log } := by
  unfold settle microtask
  refine owes_await (c := PortCall.microtask (Job.settled ids)) nofun ?_ ?_
  · rw [Ledger.put_put]
    exact h.turn hc hf rfl hdirty hlog
      (hkept.mono fun id after hid => hid.imp_right Or.inl)
  · intro L' t r hpending hn hinv _
    have hdone : EveryMark (fun id after => Covered id after ∨
        id ∈ t.dirtyIds) t.log := by
      refine hinv.kept.mono ?_
      intro id after hid
      rcases hid with hid | hid | hid
      · exact Or.inl hid
      · exact Or.inr hid
      · rcases hinv.held hpending rfl hid with
          ⟨ids', _, hcall | hcall | ⟨site, now, hcall, _⟩⟩
        · cases hcall
        · cases hcall
        · cases hcall
    rcases advanceAll_eq { t with flushingIds := t.flushingIds.deleteAll ids }
      ids with ⟨a, b, g, heq⟩
    have hmine := (hinv.flights n _ ids hpending rfl).1
    show (release ids >>= _).owes tracker Inv n (finalOwes tracker Inv n o)
      (L'.put n none) t
    simp only [release, Prog.act_bind, Prog.read_bind, Prog.modify,
      Prog.ret_bind, Prog.owes_act, id_eq]
    rw [heq, if_neg (not_not.mpr hmine)]
    have hland : Base (L'.put n none) { t with
        flushingIds := t.flushingIds.deleteAll ids
        inFlight := none } :=
      hinv.land hpending rfl (Or.inl rfl) hdone
    exact owes_schedule (hland.generations a b g) ho hn (Ledger.put_same _ _ _)

theorem owes_rejected {o : Op} (ho : o ≠ Op.shutdown) (h : Inv L s)
    {c : PortCall} {ids : JsSet JsString} (hc : L.pending n = some c)
    (hf : flight c = some ids) {log : List Entry} (hlog : Grown s.log log) :
    (microtask (Job.rejected ids) >>= fun _ =>
      putBack ids >>= fun _ => settle n ids).owes tracker Inv n
      (finalOwes tracker Inv n o) (L.put n none) { s with log := log } := by
  refine owes_await (c := PortCall.microtask (Job.rejected ids)) nofun ?_ ?_
  · rw [Ledger.put_put]
    have hsame : forall id, id ∈ s.dirtyIds -> id ∈ s.dirtyIds :=
      fun _ hid => hid
    refine h.turn hc hf rfl hsame hlog ?_
    have hback : forall id after, Held L id after ->
        Held (L.put n (some (PortCall.microtask (Job.rejected ids)))) id
          after := by
      intro id after hid
      have hids : id ∈ ids := by
        rcases h.held hc (inFlightIds_of_flight hf) hid with
          ⟨ids', hmem, rfl | rfl | ⟨site, now, rfl, _⟩⟩
        · cases hf
          exact hmem
        · cases hf
          exact hmem
        · cases site with
          | startFlush =>
              cases hf
              exact hmem
          | finishShutdown => cases hf
      exact ⟨n, ids, hids, Or.inr (Or.inl (Ledger.put_same _ _ _))⟩
    refine hlog.every h.kept ?_ ?_
    · intro id after hid
      exact hid.imp_right (Or.imp_right (hback id after))
    · intro id after e hid
      rcases hid with hid | hid | hid
      · exact Or.inl (hid.append e)
      · exact Or.inr (Or.inl hid)
      · exact Or.inr (Or.inr ((hback id after hid).append e))
  · intro L' t r hpending hn hinv _
    have hgrown : Grown t.log t.log := Or.inl rfl
    refine owes_settle ho hinv hpending rfl
      (fun id hid => JsSet.mem_addAll.mpr (Or.inl hid)) hgrown ?_
    refine hinv.kept.mono ?_
    intro id after hid
    rcases hid with hid | hid | hid
    · exact Or.inl hid
    · exact Or.inr (JsSet.mem_addAll.mpr (Or.inl hid))
    · rcases hinv.held hpending rfl hid with
        ⟨ids', hmem, hcall | hcall | ⟨site, now, hcall, _⟩⟩
      · cases hcall
      · cases hcall
        exact Or.inr (JsSet.mem_addAll.mpr (Or.inr hmem))
      · cases hcall

theorem Covered.flushed {id : JsString} {ids : JsSet JsString}
    {log : List Entry} (hid : id ∈ ids) (hflush : Entry.flush n ids ∈ log) :
    Covered id (log ++ [Entry.flushed n]) := by
  rcases List.append_of_mem hflush with ⟨before, after, hlog⟩
  refine ⟨n, ids, before, after ++ [Entry.flushed n], ?_, hid, ?_⟩
  · rw [hlog]
    simp
  · exact List.mem_append_right _ (List.mem_singleton.mpr rfl)

theorem Inv.flushed (h : Inv L s) {site : Site} {ids : JsSet JsString}
    {now : JsString}
    (hc : L.pending n = some (PortCall.flushActivity site ids now)) :
    EveryMark (fun id after => Covered id after ∨ id ∈ s.dirtyIds)
      (s.log ++ [Entry.flushed n]) := by
  refine h.kept.record (fun _ => nofun) ?_
  intro id after hid
  rcases hid with hid | hid | hid
  · exact Or.inl (hid.append _)
  · exact Or.inr hid
  · rcases h.held hc inFlightIds_store hid with
      ⟨ids', hmem, hcall | hcall | ⟨site', now', hcall, hflush⟩⟩
    · cases hcall
    · cases hcall
    · exact Or.inl (Covered.flushed hmem hflush)

theorem owes_operation {o : Op} (ho : o ≠ Op.shutdown)
    {ids : JsSet JsString}
    (h : Inv (L.put n (some (PortCall.microtask (Job.flush ids)))) s) :
    (operation n ids).owes tracker Inv n (finalOwes tracker Inv n o) L s := by
  unfold operation
  refine owes_await (c := PortCall.microtask (Job.flush ids)) nofun h ?_
  intro L' t r hpending hn hinv _
  show (flushStore Site.startFlush ids >>= _).owes tracker Inv n
    (finalOwes tracker Inv n o) (L'.put n none) t
  refine (Prog.owes_sync (M := tracker) (c := PortCall.now) rfl).mpr ?_
  intro clock _
  cases clock with
  | error e =>
      exact owes_rejected ho hinv hpending rfl (Or.inl rfl)
  | ok now =>
      refine owes_await
        (c := PortCall.flushActivity Site.startFlush ids now) nofun ?_ ?_
      · rw [Ledger.put_put]
        have hsame : forall id, id ∈ t.dirtyIds -> id ∈ t.dirtyIds :=
          fun _ hid => hid
        refine hinv.turn hpending rfl rfl hsame
          (Or.inr ⟨Entry.flush n ids, rfl, rfl⟩) ?_
        refine hinv.kept.record (fun _ => nofun) ?_
        intro id after hid
        rcases hid with hid | hid | hid
        · exact Or.inl (hid.append _)
        · exact Or.inr (Or.inl hid)
        · rcases hinv.held hpending rfl hid with
            ⟨ids', hmem, hcall | hcall | ⟨site, now', hcall, _⟩⟩
          · cases hcall
            exact Or.inr (Or.inr ⟨n, ids, hmem, Or.inr (Or.inr
              ⟨_, now, Ledger.put_same _ _ _,
                List.mem_append_right _ (List.mem_singleton.mpr rfl)⟩)⟩)
          · cases hcall
          · cases hcall
      · intro L'' u res hpending' hn' hinv' _
        cases res with
        | error e =>
            exact owes_rejected ho hinv' hpending' rfl
              (Or.inr ⟨Entry.failed n, rfl, rfl⟩)
        | ok a =>
            have hdone := hinv'.flushed hpending'
            refine owes_await (c := PortCall.microtask (Job.passed ids)) nofun
              ?_ ?_
            · rw [Ledger.put_put]
              have hsame : forall id, id ∈ u.dirtyIds -> id ∈ u.dirtyIds :=
                fun _ hid => hid
              exact hinv'.turn hpending' rfl rfl hsame
                (Or.inr ⟨Entry.flushed n, rfl, rfl⟩)
                (hdone.mono fun id after hid => hid.imp_right Or.inl)
            · intro L3 v r' hpending3 hn3 hinv3 _
              have hsame : forall id, id ∈ v.dirtyIds -> id ∈ v.dirtyIds :=
                fun _ hid => hid
              have hgrown : Grown v.log v.log := Or.inl rfl
              refine owes_settle ho hinv3 hpending3 rfl hsame hgrown ?_
              refine hinv3.kept.mono ?_
              intro id after hid
              rcases hid with hid | hid | hid
              · exact Or.inl hid
              · exact Or.inr hid
              · rcases hinv3.held hpending3 rfl hid with
                  ⟨ids', _, hcall | hcall | ⟨site, now', hcall, _⟩⟩
                · cases hcall
                · cases hcall
                · cases hcall

/-!
## The timer
-/

theorem Base.no_last (h : Base L s) (haccept : s.accepting = true) {m : Nat}
    {ids : JsSet JsString} {now : JsString} : L.pending m ≠
      some (PortCall.flushActivity Site.finishShutdown ids now) := by
  intro hm
  have hpromise := (h.last m ids now hm).2.1
  rw [h.promise.mp haccept] at hpromise
  cases hpromise

theorem Base.no_waiting (h : Base L s) (haccept : s.accepting = true)
    {m k : Nat} : L.pending m ≠ some (PortCall.inFlight k) := by
  intro hm
  have hpromise := (h.waiting m k hm).1
  rw [h.promise.mp haccept] at hpromise
  cases hpromise

theorem Base.none_held (h : Base L s) (hnone : s.inFlight = none)
    (hlast : forall m ids now, L.pending m ≠
      some (PortCall.flushActivity Site.finishShutdown ids now))
    {id : JsString} {log : List Entry} : ¬ Held L id log := by
  intro hheld
  rcases hheld.pending with ⟨m, d, ids, hm, hd⟩
  rcases inFlightIds_cases hd with hd | ⟨now, rfl⟩
  · have hflight := (h.flights m d ids hm hd).1
    rw [hnone] at hflight
    cases hflight
  · exact hlast m ids now hm

theorem Base.take (h : Base L s) (haccept : s.accepting = true)
    (htimer : s.timer = none) (hnone : s.inFlight = none)
    (hfresh : forall o res, Entry.ended n o res ∉ s.log) :
    Inv (L.put n (some (PortCall.microtask (Job.flush s.dirtyIds)))) { s with
      dirtyIds := []
      flushingIds := s.flushingIds.addAll s.dirtyIds
      inFlight := some n } := by
  constructor
  · constructor
    · exact h.armed
    · exact h.stopped
    · exact h.promise
    · intro hsome
      change s.timer.isSome = true at hsome
      rw [htimer] at hsome
      cases hsome
    · intro k hk
      cases hk
      exact ⟨_, s.dirtyIds, Ledger.put_same _ _ _, rfl⟩
    · intro m d ids hm hd
      rw [Ledger.put_pending] at hm
      split at hm
      · rename_i hmn
        cases hm
        cases hd
        refine ⟨congrArg some hmn.symm, ?_⟩
        intro id hid
        exact JsSet.mem_addAll.mpr (Or.inr hid)
      · have hflight := (h.flights m d ids hm hd).1
        rw [hnone] at hflight
        cases hflight
    · intro m ids now hm
      rw [Ledger.put_pending] at hm
      split at hm
      · cases hm
      · exact absurd hm (h.no_last haccept)
    · intro m k hm
      rw [Ledger.put_pending] at hm
      split at hm
      · cases hm
      · exact absurd hm (h.no_waiting haccept)
    · intro k o res hmem
      have hended := h.ended k o res hmem
      have hkn : k ≠ n := by
        intro hkn
        rw [hkn] at hmem
        exact hfresh o res hmem
      rw [Ledger.put_other _ _ hkn]
      exact hended
    · exact h.began
    · exact h.finished
    · refine h.kept.mono ?_
      intro id after hid
      rcases hid with hid | hid | hid
      · exact Or.inl hid
      · exact Or.inr (Or.inr ⟨n, s.dirtyIds, hid,
          Or.inl (Ledger.put_same _ _ _)⟩)
      · exact absurd hid (h.none_held hnone fun _ _ _ => h.no_last haccept)
    · exact h.resolved
    · intro m e hmem
      exact absurd hmem (h.no_shutdown haccept)
  · intro _ hdirty
    exact absurd rfl hdirty

theorem owes_fire (h : Inv L s) (hfree : L.pending L.next = none)
    {handle : Nat} (harmed : handle ∈ s.armed) :
    (fire L.next).owes tracker Inv L.next
      (finalOwes tracker Inv L.next (Op.fire handle))
      { L with next := L.next + 1 } (enter L.next (Op.fire handle) s) := by
  have htimer : s.timer = some handle := by
    rw [h.armed] at harmed
    exact Option.mem_toList.mp harmed
  have hnone : s.inFlight = none := h.idle (by rw [htimer]; rfl)
  have haccept : s.accepting = true := by
    cases hstop : s.accepting with
    | true => rfl
    | false =>
        rw [h.stopped hstop] at htimer
        cases htimer
  have hbase : Base { L with next := L.next + 1 } { s with
      armed := s.armed.filter fun x => decide (x ≠ handle)
      timer := none } := by
    have hnext := h.toBase.next
    refine ⟨?_, fun _ => rfl, hnext.promise, (fun h => by cases h),
      hnext.flying,
      hnext.flights, hnext.last, hnext.waiting, hnext.ended, hnext.began,
      hnext.finished, hnext.kept, hnext.resolved, hnext.rejected⟩
    show s.armed.filter (fun x => decide (x ≠ handle)) = []
    rw [h.armed, htimer]
    simp
  have hfresh : forall o res, Entry.ended L.next o res ∉ s.log := by
    intro o res hmem
    exact Nat.lt_irrefl _ (h.ended L.next o res hmem).1
  show (startFlush L.next).owes tracker Inv L.next _ _ { s with
    armed := s.armed.filter fun x => decide (x ≠ handle)
    timer := none }
  unfold startFlush
  simp only [Prog.read_bind, Prog.owes_act, id_eq]
  by_cases hempty : s.dirtyIds = []
  · rw [if_pos (by simp [hempty])]
    refine ⟨hbase.end_quietly (o := Op.fire handle) (fun h => by cases h)
      (Nat.lt_succ_self L.next) hfree _, ?_⟩
    intro _ hdirty
    exact absurd hempty hdirty
  · rw [if_neg (by simp [hempty, hnone])]
    have htake := hbase.take (n := L.next) haccept rfl hnone hfresh
    rcases advanceAll_eq { s with
      armed := s.armed.filter fun x => decide (x ≠ handle)
      timer := none
      dirtyIds := []
      flushingIds := s.flushingIds.addAll s.dirtyIds } s.dirtyIds with
      ⟨a, b, g, heq⟩
    have htake' : Inv (({ L with next := L.next + 1 } : Ledger ports).put
        L.next (some (PortCall.microtask (Job.flush s.dirtyIds))))
        { s with
          armed := s.armed.filter fun x => decide (x ≠ handle)
          timer := none
          dirtyIds := []
          flushingIds := s.flushingIds.addAll s.dirtyIds
          inFlight := some L.next
          cleanupClock := a
          cleanupEvictionGeneration := b
          cleanupGenerations := g } :=
      ⟨htake.toBase.generations a b g, htake.awake⟩
    have hrun := owes_operation (o := Op.fire handle) (fun h => by cases h)
      htake'
    simp only [takeDirtySnapshot, hold, Prog.read_bind, Prog.act_bind,
      Prog.modify, Prog.ret_bind, Prog.pure_eq, Prog.owes_act, id_eq]
    rw [heq]
    exact hrun

/-!
## Shutdown
-/

theorem Base.end_shutdown (h : Base L s) (hn : n < L.next)
    (hfree : L.pending n = none) {res : Except Unit Unit}
    (hfirst : exists k, s.shutdownPromise = some k ∧
      (k = n ∨ Entry.ended k Op.shutdown res ∈ s.log))
    (hok : forall a, res = Except.ok a -> EveryMark Covered s.log)
    (herror : forall e, res = Except.error e ->
      EveryMark (fun id after => Covered id after ∨ id ∈ s.dirtyIds) s.log) :
    Inv L (s.record (Entry.ended n Op.shutdown res)) := by
  have hlast : Entry.ended n Op.shutdown res ∈
      s.log ++ [Entry.ended n Op.shutdown res] :=
    List.mem_append_right _ (List.mem_singleton.mpr rfl)
  have hcovered : EveryMark Covered s.log ->
      EveryMark Covered (s.log ++ [Entry.ended n Op.shutdown res]) :=
    fun hlog => hlog.record (fun _ => nofun) (fun _ _ hid => hid.append _)
  have hdirty : EveryMark (fun id after => Covered id after ∨
      id ∈ s.dirtyIds) s.log ->
      EveryMark (fun id after => Covered id after ∨ id ∈ s.dirtyIds)
        (s.log ++ [Entry.ended n Op.shutdown res]) :=
    fun hlog => hlog.record (fun _ => nofun)
      (fun _ _ hid => hid.imp_left fun hid => hid.append _)
  constructor
  · constructor
    · exact h.armed
    · exact h.stopped
    · exact h.promise
    · exact h.idle
    · exact h.flying
    · exact h.flights
    · exact h.last
    · exact h.waiting
    · intro k o' res' hmem
      rcases List.mem_append.mp hmem with hmem | hmem
      · exact h.ended k o' res' hmem
      · cases List.mem_singleton.mp hmem
        exact ⟨hn, hfree⟩
    · intro m hmem
      rcases List.mem_append.mp hmem with hmem | hmem
      · exact h.began m hmem
      · cases List.mem_singleton.mp hmem
    · intro m res' hmem
      rcases List.mem_append.mp hmem with hmem | hmem
      · rcases h.finished m res' hmem with ⟨k, hk, hlog⟩
        exact ⟨k, hk, List.mem_append_left _ hlog⟩
      · cases List.mem_singleton.mp hmem
        rcases hfirst with ⟨k, hk, hkn | hlog⟩
        · rw [hkn] at hk
          exact ⟨n, hk, hlast⟩
        · exact ⟨k, hk, List.mem_append_left _ hlog⟩
    · refine h.kept.record (fun _ => nofun) ?_
      intro id after hid
      rcases hid with hid | hid | hid
      · exact Or.inl (hid.append _)
      · exact Or.inr (Or.inl hid)
      · exact Or.inr (Or.inr (hid.append _))
    · intro m a hmem
      rcases List.mem_append.mp hmem with hmem | hmem
      · exact hcovered (h.resolved m a hmem)
      · cases List.mem_singleton.mp hmem
        exact hcovered (hok a rfl)
    · intro m e hmem
      rcases List.mem_append.mp hmem with hmem | hmem
      · exact hdirty (h.rejected m e hmem)
      · cases List.mem_singleton.mp hmem
        exact hdirty (herror e rfl)
  · intro haccept
    rcases hfirst with ⟨k, hk, _⟩
    have hnone := h.promise.mp haccept
    rw [hnone] at hk
    cases hk

theorem Base.alone (h : Base L s) (hpromise : s.shutdownPromise = some n)
    (hfree : L.pending n = none) :
    (forall m ids now, L.pending m ≠
      some (PortCall.flushActivity Site.finishShutdown ids now)) ∧
      forall m k, L.pending m ≠ some (PortCall.inFlight k) := by
  constructor
  · intro m ids now hm
    have hother := (h.last m ids now hm).2.1
    rw [hpromise] at hother
    cases hother
    rw [hfree] at hm
    cases hm
  · intro m k hm
    have hother := (h.waiting m k hm).1
    rw [hpromise] at hother
    cases hother
    rw [hfree] at hm
    cases hm

theorem Base.resume (h : Base L s) {c : PortCall}
    (hc : L.pending n = some c) (hidle : inFlightIds c = none) :
    Base (L.put n none) s := by
  have hkeep : forall {m : Nat} {d : PortCall} {ids : JsSet JsString},
      L.pending m = some d -> inFlightIds d = some ids ->
      (L.put n none).pending m = some d := by
    intro m d ids hm hd
    have hmn : m ≠ n := by
      intro hmn
      rw [hmn, hc] at hm
      cases hm
      rw [hidle] at hd
      cases hd
    rw [Ledger.put_other _ _ hmn]
    exact hm
  have hold : forall {m : Nat} {c : PortCall},
      (L.put n none).pending m = some c -> L.pending m = some c := by
    intro m c hm
    rw [Ledger.put_pending] at hm
    split at hm
    · cases hm
    · exact hm
  constructor
  · exact h.armed
  · exact h.stopped
  · exact h.promise
  · exact h.idle
  · intro m hm
    rcases h.flying m hm with ⟨d, ids, hd, hf⟩
    exact ⟨d, ids, hkeep hd (inFlightIds_of_flight hf), hf⟩
  · intro m d ids hm hd
    exact h.flights m d ids (hold hm) hd
  · intro m ids now hm
    exact h.last m ids now (hold hm)
  · intro m j hm
    exact h.waiting m j (hold hm)
  · intro m o res hmem
    rw [Ledger.put_pending]
    split
    · exact ⟨(h.ended m o res hmem).1, rfl⟩
    · exact h.ended m o res hmem
  · exact h.began
  · exact h.finished
  · refine h.kept.mono ?_
    intro id after hid
    rcases hid with hid | hid | ⟨m, ids, hmem, hm⟩
    · exact Or.inl hid
    · exact Or.inr (Or.inl hid)
    · refine Or.inr (Or.inr ⟨m, ids, hmem, ?_⟩)
      rcases hm with hm | hm | ⟨site, now, hm, hflush⟩
      · exact Or.inl (hkeep hm rfl)
      · exact Or.inr (Or.inl (hkeep hm rfl))
      · exact Or.inr (Or.inr ⟨site, now, hkeep hm inFlightIds_store, hflush⟩)
  · exact h.resolved
  · exact h.rejected

theorem Base.take_last (h : Base L s) (hpromise : s.shutdownPromise = some n)
    (hnone : s.inFlight = none)
    (hlast : forall m ids now, L.pending m ≠
      some (PortCall.flushActivity Site.finishShutdown ids now))
    (hwait : forall m k, L.pending m ≠ some (PortCall.inFlight k))
    (hfresh : forall o res, Entry.ended n o res ∉ s.log) (now : JsString) :
    Inv (L.put n (some
      (PortCall.flushActivity Site.finishShutdown s.dirtyIds now))) { s with
      dirtyIds := []
      flushingIds := s.flushingIds.addAll s.dirtyIds
      log := s.log ++ [Entry.flush n s.dirtyIds] } := by
  have hstop : s.accepting = false := by
    cases haccept : s.accepting with
    | false => rfl
    | true =>
        rw [h.promise.mp haccept] at hpromise
        cases hpromise
  -- no shutdown has ended, since this one is the first and still runs
  have hopen : forall m res, Entry.ended m Op.shutdown res ∉
      s.log ++ [Entry.flush n s.dirtyIds] := by
    intro m res hmem
    rcases List.mem_append.mp hmem with hmem | hmem
    · rcases h.finished m res hmem with ⟨k, hk, hend⟩
      rw [hpromise] at hk
      cases hk
      exact hfresh _ _ hend
    · cases List.mem_singleton.mp hmem
  constructor
  · constructor
    · exact h.armed
    · exact h.stopped
    · exact h.promise
    · intro _
      exact hnone
    · intro k hk
      change s.inFlight = some k at hk
      rw [hnone] at hk
      cases hk
    · intro m d ids hm hd
      rw [Ledger.put_pending] at hm
      split at hm
      · cases hm
        cases hd
      · have hflight := (h.flights m d ids hm hd).1
        rw [hnone] at hflight
        cases hflight
    · intro m ids now' hm
      rw [Ledger.put_pending] at hm
      split at hm
      · rename_i hmn
        cases hm
        rw [hmn]
        exact ⟨hnone, hpromise, rfl,
          fun id hid => JsSet.mem_addAll.mpr (Or.inr hid)⟩
      · exact absurd hm (hlast m ids now')
    · intro m k hm
      rw [Ledger.put_pending] at hm
      split at hm
      · cases hm
      · exact absurd hm (hwait m k)
    · intro k o res hmem
      rcases List.mem_append.mp hmem with hmem | hmem
      · have hkn : k ≠ n := by
          intro hkn
          rw [hkn] at hmem
          exact hfresh o res hmem
        rw [Ledger.put_other _ _ hkn]
        exact h.ended k o res hmem
      · cases List.mem_singleton.mp hmem
    · intro m hmem
      rcases List.mem_append.mp hmem with hmem | hmem
      · exact h.began m hmem
      · cases List.mem_singleton.mp hmem
    · intro m res hmem
      exact absurd hmem (hopen m res)
    · refine h.kept.record (fun _ => nofun) ?_
      intro id after hid
      rcases hid with hid | hid | hid
      · exact Or.inl (hid.append _)
      · exact Or.inr (Or.inr ⟨n, s.dirtyIds, hid, Or.inr (Or.inr
          ⟨_, now, Ledger.put_same _ _ _,
            List.mem_append_right _ (List.mem_singleton.mpr rfl)⟩)⟩)
      · exact absurd hid (h.none_held hnone hlast)
    · intro m a hmem
      exact absurd hmem (hopen m _)
    · intro m e hmem
      exact absurd hmem (hopen m _)
  · intro haccept
    exact Bool.noConfusion (hstop.symm.trans haccept)

theorem Base.rearrange (h : Base L s) (hnone : s.inFlight = none)
    (hlast : forall m ids now, L.pending m ≠
      some (PortCall.flushActivity Site.finishShutdown ids now))
    {dirty : JsSet JsString} (flushing : JsSet JsString)
    (hkept : EveryMark (fun id after => Covered id after ∨ id ∈ dirty)
      s.log) :
    Base L { s with dirtyIds := dirty, flushingIds := flushing } := by
  constructor
  · exact h.armed
  · exact h.stopped
  · exact h.promise
  · exact h.idle
  · exact h.flying
  · intro m d ids hm hd
    have hflight := (h.flights m d ids hm hd).1
    rw [hnone] at hflight
    cases hflight
  · intro m ids now hm
    exact absurd hm (hlast m ids now)
  · exact h.waiting
  · exact h.ended
  · exact h.began
  · exact h.finished
  · exact hkept.mono fun id after hid => hid.imp_right Or.inl
  · exact h.resolved
  · intro m e _
    exact hkept

theorem Inv.landed (h : Inv L s) {ids : JsSet JsString} {now : JsString}
    (hc : L.pending n =
      some (PortCall.flushActivity Site.finishShutdown ids now))
    {dirty : JsSet JsString} (flushing : JsSet JsString) {e : Entry}
    (he : isFlushEntry e = true)
    (hkept : EveryMark (fun id after => Covered id after ∨ id ∈ dirty)
      (s.log ++ [e])) :
    Base (L.put n none) { s with
      dirtyIds := dirty
      flushingIds := flushing
      log := s.log ++ [e] } := by
  have hland : Base (L.put n none) { s with
      dirtyIds := dirty
      flushingIds := flushing
      inFlight := none
      log := s.log ++ [e] } :=
    h.land hc rfl (Or.inr ⟨e, he, rfl⟩) hkept
  rw [← (h.last n ids now hc).1] at hland
  exact hland

theorem owes_flushRest (h : Base L s) (hpromise : s.shutdownPromise = some n)
    (hnone : s.inFlight = none)
    (hfresh : forall o res, Entry.ended n o res ∉ s.log) (hn : n < L.next)
    (hfree : L.pending n = none) :
    flushRest.owes tracker Inv n (finalOwes tracker Inv n Op.shutdown) L s := by
  rcases h.alone hpromise hfree with ⟨hlast, hwait⟩
  have hkept : EveryMark (fun id after => Covered id after ∨
      id ∈ s.dirtyIds) s.log := by
    refine h.kept.mono ?_
    intro id after hid
    rcases hid with hid | hid | hid
    · exact Or.inl hid
    · exact Or.inr hid
    · exact absurd hid (h.none_held hnone hlast)
  unfold flushRest
  simp only [Prog.read_bind, Prog.owes_act, id_eq]
  by_cases hempty : s.dirtyIds = []
  · rw [if_pos (by simp [hempty])]
    refine h.end_shutdown hn hfree ⟨n, hpromise, Or.inl rfl⟩ ?_
      fun _ h => by cases h
    intro _ _
    refine hkept.mono ?_
    intro id after hid
    rw [hempty] at hid
    exact hid.resolve_right List.not_mem_nil
  · rw [if_neg (by simp [hempty])]
    simp only [takeDirtySnapshot, hold, Prog.read_bind, Prog.act_bind,
      Prog.modify, Prog.ret_bind, Prog.pure_eq, Prog.owes_act, id_eq]
    rcases advanceAll_eq { s with
      dirtyIds := []
      flushingIds := s.flushingIds.addAll s.dirtyIds } s.dirtyIds with
      ⟨a, b, g, heq⟩
    rw [heq]
    refine (Prog.owes_sync (M := tracker) (c := PortCall.now) rfl).mpr ?_
    intro clock _
    cases clock with
    | error e =>
        have hback : EveryMark (fun id after => Covered id after ∨
            id ∈ JsSet.addAll [] s.dirtyIds) s.log :=
          hkept.mono fun id after hid => hid.imp_right fun hid =>
            JsSet.mem_addAll.mpr (Or.inr hid)
        have hbase := h.rearrange hnone hlast
          ((s.flushingIds.addAll s.dirtyIds).deleteAll s.dirtyIds) hback
        refine Inv.of_advanced (fun a' b' g' => ?_)
        exact (hbase.generations a' b' g').end_shutdown hn hfree
          ⟨n, hpromise, Or.inl rfl⟩ (fun _ h => by cases h) (fun _ _ => hback)
    | ok now =>
        refine owes_await (c := PortCall.flushActivity Site.finishShutdown
          s.dirtyIds now) (fun h => by cases h) ?_ ?_
        · have htake := h.take_last hpromise hnone hlast hwait hfresh now
          exact ⟨htake.toBase.generations a b g, htake.awake⟩
        · intro L' t res hpending hn' hinv _
          rcases hinv.last n _ _ hpending with ⟨_, hmine, hclean, _⟩
          have hfree' : (L'.put n none).pending n = none :=
            Ledger.put_same _ _ _
          cases res with
          | ok u =>
              have hdone := hinv.flushed hpending
              have hbase := hinv.landed hpending
                (t.flushingIds.deleteAll s.dirtyIds) rfl hdone
              refine Inv.of_advanced (fun a' b' g' => ?_)
              refine (hbase.generations a' b' g').end_shutdown hn' hfree'
                ⟨n, hmine, Or.inl rfl⟩ ?_ (fun _ h => by cases h)
              intro _ _
              refine hdone.mono ?_
              intro id after hid
              rw [hclean] at hid
              exact hid.resolve_right List.not_mem_nil
          | error e =>
              have hback : EveryMark (fun id after => Covered id after ∨
                  id ∈ t.dirtyIds.addAll s.dirtyIds)
                  (t.log ++ [Entry.failed n]) := by
                refine hinv.kept.record (fun _ => (fun h => by cases h)) ?_
                intro id after hid
                rcases hid with hid | hid | hid
                · exact Or.inl (hid.append _)
                · exact Or.inr (JsSet.mem_addAll.mpr (Or.inl hid))
                · rcases hinv.held hpending rfl hid with
                    ⟨ids', hmem, hcall | hcall | ⟨site, now', hcall, _⟩⟩
                  · cases hcall
                  · cases hcall
                  · cases hcall
                    exact Or.inr (JsSet.mem_addAll.mpr (Or.inr hmem))
              have hbase := hinv.landed hpending
                (t.flushingIds.deleteAll s.dirtyIds) rfl hback
              refine Inv.of_advanced (fun a' b' g' => ?_)
              exact (hbase.generations a' b' g').end_shutdown hn' hfree'
                ⟨n, hmine, Or.inl rfl⟩ (fun _ h => by cases h)
                fun _ _ => hback

theorem Base.begin_shutdown (h : Base L s) (haccept : s.accepting = true) :
    Base L { s with
      accepting := false
      timer := none
      armed := []
      shutdownPromise := some n
      log := s.log ++ [Entry.shutdown n] } := by
  have hopen : forall m res, Entry.ended m Op.shutdown res ∉
      s.log ++ [Entry.shutdown n] := by
    intro m res hmem
    rcases List.mem_append.mp hmem with hmem | hmem
    · exact h.no_shutdown haccept hmem
    · cases List.mem_singleton.mp hmem
  constructor
  · rfl
  · intro _
    rfl
  · exact ⟨nofun, nofun⟩
  · nofun
  · exact h.flying
  · exact h.flights
  · intro m ids now hm
    exact absurd hm (h.no_last haccept)
  · intro m k hm
    exact absurd hm (h.no_waiting haccept)
  · intro k o res hmem
    rcases List.mem_append.mp hmem with hmem | hmem
    · exact h.ended k o res hmem
    · cases List.mem_singleton.mp hmem
  · intro _ _
    rfl
  · intro m res hmem
    exact absurd hmem (hopen m res)
  · refine h.kept.record (fun _ => nofun) ?_
    intro id after hid
    rcases hid with hid | hid | hid
    · exact Or.inl (hid.append _)
    · exact Or.inr (Or.inl hid)
    · exact Or.inr (Or.inr (hid.append _))
  · intro m a hmem
    exact absurd hmem (hopen m _)
  · intro m e hmem
    exact absurd hmem (hopen m _)

theorem Base.await_flight (h : Base L s) (hpromise : s.shutdownPromise = some n)
    {k : Nat} (hk : s.inFlight = some k) (hfree : L.pending n = none)
    (hfresh : forall o res, Entry.ended n o res ∉ s.log) :
    Inv (L.put n (some (PortCall.inFlight k))) s := by
  have hheld : forall id after, Held L id after ->
      Held (L.put n (some (PortCall.inFlight k))) id after := by
    intro id after hid
    rcases hid with ⟨m, ids, hmem, hm⟩
    have hmn : m ≠ n := by
      intro hmn
      rw [hmn, hfree] at hm
      rcases hm with hm | hm | ⟨site, now, hm, _⟩
      · cases hm
      · cases hm
      · cases hm
    refine ⟨m, ids, hmem, ?_⟩
    rw [Ledger.put_other _ _ hmn]
    exact hm
  constructor
  · constructor
    · exact h.armed
    · exact h.stopped
    · exact h.promise
    · exact h.idle
    · intro m hm
      rcases h.flying m hm with ⟨c, ids, hc, hf⟩
      have hmn : m ≠ n := by
        intro hmn
        rw [hmn, hfree] at hc
        cases hc
      exact ⟨c, ids, (Ledger.put_other _ _ hmn).trans hc, hf⟩
    · intro m d ids hm hd
      rw [Ledger.put_pending] at hm
      split at hm
      · cases hm
        cases hd
      · exact h.flights m d ids hm hd
    · intro m ids now hm
      rw [Ledger.put_pending] at hm
      split at hm
      · cases hm
      · exact h.last m ids now hm
    · intro m j hm
      rw [Ledger.put_pending] at hm
      split at hm
      · rename_i hmn
        cases hm
        rw [hmn]
        exact ⟨hpromise, Or.inl hk⟩
      · exact h.waiting m j hm
    · intro m o res hmem
      have hmn : m ≠ n := by
        intro hmn
        rw [hmn] at hmem
        exact hfresh o res hmem
      rw [Ledger.put_other _ _ hmn]
      exact h.ended m o res hmem
    · exact h.began
    · exact h.finished
    · exact h.kept.mono fun id after hid =>
        hid.imp_right (Or.imp_right (hheld id after))
    · exact h.resolved
    · exact h.rejected
  · intro haccept
    have hnone := h.promise.mp haccept
    rw [hpromise] at hnone
    cases hnone

theorem owes_finishShutdown (h : Base L s)
    (hpromise : s.shutdownPromise = some n) (hn : n < L.next)
    (hfree : L.pending n = none)
    (hfresh : forall o res, Entry.ended n o res ∉ s.log) :
    finishShutdown.owes tracker Inv n (finalOwes tracker Inv n Op.shutdown) L
      s := by
  unfold finishShutdown
  simp only [Prog.read_bind, Prog.owes_act, id_eq]
  split
  · rename_i k hk
    refine owes_await (c := PortCall.inFlight k) (fun h => by cases h)
      (h.await_flight hpromise hk hfree hfresh) ?_
    intro L' t r hpending hn' hinv hended
    rcases hended with ⟨o, res, hend⟩
    rcases hinv.waiting n k hpending with ⟨hmine, hflight⟩
    have hnone : t.inFlight = none := by
      rcases hflight with hflight | hflight
      · rcases hinv.flying k hflight with ⟨c, ids, hc, _⟩
        rw [(hinv.ended k o res hend).2] at hc
        cases hc
      · exact hflight
    have hfresh' : forall o res, Entry.ended n o res ∉ t.log := by
      intro o res hmem
      rw [(hinv.ended n o res hmem).2] at hpending
      cases hpending
    exact owes_flushRest (hinv.toBase.resume hpending rfl) hmine hnone hfresh' hn'
      (Ledger.put_same _ _ _)
  · rename_i hnone
    exact owes_flushRest h hpromise hnone hfresh hn hfree

theorem Base.join (h : Base L s) {k : Nat} (hfree : L.pending n = none)
    (hpromise : s.shutdownPromise = some k)
    (hfresh : forall o res, Entry.ended n o res ∉ s.log) :
    Inv (L.put n (some (PortCall.shutdownPromise k)))
      (s.record (Entry.shutdown n)) := by
  have hstop : s.accepting = false := by
    cases haccept : s.accepting with
    | false => rfl
    | true =>
        rw [h.promise.mp haccept] at hpromise
        cases hpromise
  have hhold : forall {m : Nat} {c : PortCall}, L.pending m = some c ->
      (L.put n (some (PortCall.shutdownPromise k))).pending m = some c := by
    intro m c hm
    have hmn : m ≠ n := by
      intro hmn
      rw [hmn, hfree] at hm
      cases hm
    rw [Ledger.put_other _ _ hmn]
    exact hm
  have hold : forall {m : Nat} {c : PortCall},
      (L.put n (some (PortCall.shutdownPromise k))).pending m = some c ->
      c ≠ PortCall.shutdownPromise k -> L.pending m = some c := by
    intro m c hm hne
    rw [Ledger.put_pending] at hm
    split at hm
    · exact absurd (Option.some.inj hm).symm hne
    · exact hm
  have hended : forall {m : Nat} {o : Op} {res : Except Unit Unit},
      Entry.ended m o res ∈ s.log ++ [Entry.shutdown n] ->
      Entry.ended m o res ∈ s.log := by
    intro m o res hmem
    rcases List.mem_append.mp hmem with hmem | hmem
    · exact hmem
    · cases List.mem_singleton.mp hmem
  constructor
  · constructor
    · exact h.armed
    · exact h.stopped
    · exact h.promise
    · exact h.idle
    · intro m hm
      rcases h.flying m hm with ⟨c, ids, hpending, hf⟩
      exact ⟨c, ids, hhold hpending, hf⟩
    · intro m d ids hm hd
      refine h.flights m d ids (hold hm ?_) hd
      intro heq
      rw [heq] at hd
      cases hd
    · intro m ids now hm
      exact h.last m ids now (hold hm nofun)
    · intro m j hm
      exact h.waiting m j (hold hm nofun)
    · intro m o res hmem
      have hmn : m ≠ n := by
        intro hmn
        rw [hmn] at hmem
        exact hfresh o res (hended hmem)
      rw [Ledger.put_other _ _ hmn]
      exact h.ended m o res (hended hmem)
    · intro m _
      exact hstop
    · intro m res hmem
      rcases h.finished m res (hended hmem) with ⟨j, hj, hend⟩
      exact ⟨j, hj, List.mem_append_left _ hend⟩
    · refine h.kept.record (fun _ => nofun) ?_
      intro id after hid
      rcases hid with hid | hid | ⟨m, ids, hmem, hm⟩
      · exact Or.inl (hid.append _)
      · exact Or.inr (Or.inl hid)
      · refine Or.inr (Or.inr (Held.append ⟨m, ids, hmem, ?_⟩ _))
        rcases hm with hm | hm | ⟨site, now, hm, hflush⟩
        · exact Or.inl (hhold hm)
        · exact Or.inr (Or.inl (hhold hm))
        · exact Or.inr (Or.inr ⟨site, now, hhold hm, hflush⟩)
    · intro m a hmem
      exact (h.resolved m a (hended hmem)).record (fun _ => nofun)
        (fun _ _ hid => hid.append _)
    · intro m e hmem
      exact (h.rejected m e (hended hmem)).record (fun _ => nofun)
        (fun _ _ hid => hid.imp_left fun hid => hid.append _)
  · intro haccept
    exact Bool.noConfusion (hstop.symm.trans haccept)

theorem owes_shutdown (h : Inv L s) (hfree : L.pending L.next = none) :
    (shutdown L.next).owes tracker Inv L.next
      (finalOwes tracker Inv L.next Op.shutdown)
      { L with next := L.next + 1 } (enter L.next Op.shutdown s) := by
  have hfresh : forall o res, Entry.ended L.next o res ∉ s.log := by
    intro o res hmem
    exact Nat.lt_irrefl _ (h.ended L.next o res hmem).1
  unfold shutdown
  simp only [Prog.read_bind, Prog.owes_act, id_eq]
  cases hpromise : s.shutdownPromise with
  | some k =>
      have henter : (enter L.next Op.shutdown s).shutdownPromise = some k :=
        hpromise
      simp only [henter]
      refine owes_await (c := PortCall.shutdownPromise k) (fun h => by cases h)
        (h.toBase.next.join hfree hpromise hfresh) ?_
      intro L' t res hpending hn hinv hended
      change Entry.ended k Op.shutdown res ∈ t.log at hended
      have hbase := hinv.toBase.resume hpending rfl
      have hfirst : exists j, t.shutdownPromise = some j ∧
          (j = L.next ∨ Entry.ended j Op.shutdown res ∈ t.log) := by
        rcases hinv.finished k res hended with ⟨j, hj, hend⟩
        exact ⟨j, hj, Or.inr hend⟩
      have hend := hbase.end_shutdown hn (Ledger.put_same _ _ _) hfirst
        (fun a ha => hinv.resolved k a (ha ▸ hended))
        (fun e he => hinv.rejected k e (he ▸ hended))
      cases res with
      | ok a => exact hend
      | error e => exact hend
  | none =>
      have henter : (enter L.next Op.shutdown s).shutdownPromise = none :=
        hpromise
      simp only [henter]
      have haccept : s.accepting = true := h.promise.mpr hpromise
      have hbase := h.toBase.next.begin_shutdown (n := L.next) haccept
      have hfresh' : forall o res, Entry.ended L.next o res ∉
          s.log ++ [Entry.shutdown L.next] := by
        intro o res hmem
        rcases List.mem_append.mp hmem with hmem | hmem
        · exact hfresh o res hmem
        · cases List.mem_singleton.mp hmem
      have hrun := owes_finishShutdown hbase rfl (Nat.lt_succ_self L.next)
        hfree hfresh'
      simp only [cancelTimer, Prog.modify_bind, Prog.owes_act, Prog.read_bind,
        Prog.act_bind, id_eq]
      have harmed := h.armed
      cases htimer : s.timer with
      | none =>
          rw [htimer] at harmed
          have henter' : (enter L.next Op.shutdown s).timer = none := htimer
          simp only [henter']
          show finishShutdown.owes tracker Inv L.next _ _ { s with
            accepting := false
            timer := none
            shutdownPromise := some L.next
            log := s.log ++ [Entry.shutdown L.next] }
          rw [show s.armed = [] from harmed]
          exact hrun
      | some handle =>
          rw [htimer] at harmed
          have henter' : (enter L.next Op.shutdown s).timer = some handle :=
            htimer
          simp only [henter']
          refine (Prog.owes_sync (M := tracker)
            (c := PortCall.clearTimeout handle) rfl).mpr ?_
          intro _ _
          show finishShutdown.owes tracker Inv L.next _ _ { s with
            accepting := false
            timer := none
            armed := s.armed.filter fun x => decide (x ≠ handle)
            shutdownPromise := some L.next
            log := s.log ++ [Entry.shutdown L.next] }
          have hempty : s.armed.filter (fun x => decide (x ≠ handle)) = [] := by
            rw [harmed]
            simp
          rw [hempty]
          exact hrun

end Rules

theorem inv_inductive : Inductive tracker Inv := by
  constructor
  · intro L s s' _ henv
    exact absurd henv id
  · intro L s o hfree hinv hadmits
    cases o with
    | mark tabId => exact owes_mark hinv hfree tabId
    | fire handle => exact owes_fire hinv hfree hadmits
    | shutdown => exact owes_shutdown hinv hfree

theorem Inv.initial : Inv Ledger.empty State.initial := by
  constructor
  · constructor
    · rfl
    · nofun
    · exact ⟨fun _ => rfl, fun _ => rfl⟩
    · nofun
    · nofun
    · nofun
    · nofun
    · nofun
    · intro k o res hmem
      cases hmem
    · intro n hmem
      cases hmem
    · intro n res hmem
      cases hmem
    · exact everyAfter_nil _
    · intro n a hmem
      cases hmem
    · intro n e hmem
      cases hmem
  · intro _ hdirty
    exact absurd rfl hdirty

/-!
## What a run keeps
-/

/-- An operation between the snapshot of a flush and the end of the flush. -/
def Flushing (f : Frame State ports Unit Unit Op) : Prop :=
  (inFlightIds f.call).isSome = true

structure NothingLost (cfg : Config State ports Unit Unit Op) : Prop where
  /-- Marks that no flush has written are pending. -/
  pending : forall before id after,
    cfg.shared.log = before ++ Entry.marked id :: after ->
      Covered id after ∨ (id ∈ cfg.shared.dirtyIds ∨
        id ∈ cfg.shared.flushingIds) ∧
        (cleanupSnapshot cfg.shared id).pending = true
  /-- Tabs that wait to be written have a timer or a flush before them. -/
  awake : cfg.shared.accepting = true -> cfg.shared.dirtyIds ≠ [] ->
    cfg.shared.armed ≠ [] ∨ exists f, f ∈ cfg.parked ∧ Flushing f
  single : forall f, f ∈ cfg.parked -> forall g, g ∈ cfg.parked ->
    Flushing f -> Flushing g -> f = g
  quiet : forall n, Entry.shutdown n ∈ cfg.shared.log -> cfg.shared.armed = []
  resolved : forall n a,
    Entry.ended n Op.shutdown (Except.ok a) ∈ cfg.shared.log ->
      forall before id after,
        cfg.shared.log = before ++ Entry.marked id :: after ->
          Covered id after
  rejected : forall n e,
    Entry.ended n Op.shutdown (Except.error e) ∈ cfg.shared.log ->
      forall before id after,
        cfg.shared.log = before ++ Entry.marked id :: after ->
          Covered id after ∨ id ∈ cfg.shared.dirtyIds

/-- No mark is lost, whatever the store and the clock do. -/
theorem no_activity_lost {cfg : Config State ports Unit Unit Op}
    (hrun : Run cfg) : NothingLost cfg := by
  have hok := inv_inductive.reachable Inv.initial hrun
  have hinv := hok.inv
  have hstack : cfg.stack = [] := by
    refine hok.stack_nil ?_
    intro c
    cases c with
    | _ => exact nofun
  rw [hstack, List.nil_append] at hinv
  have hdistinct := hok.distinct
  rw [hstack, List.nil_append] at hdistinct
  constructor
  · intro before id after hlog
    have hsnapshot : id ∈ cfg.shared.dirtyIds ∨
        id ∈ cfg.shared.flushingIds -> (id ∈ cfg.shared.dirtyIds ∨
        id ∈ cfg.shared.flushingIds) ∧
        (cleanupSnapshot cfg.shared id).pending = true := by
      intro hid
      refine ⟨hid, ?_⟩
      simpa [cleanupSnapshot] using hid
    rcases hinv.kept before _ after hlog id rfl with hid | hid | hid
    · exact Or.inl hid
    · exact Or.inr (hsnapshot (Or.inl hid))
    · rcases hid with ⟨m, ids, hmem, hm | hm | ⟨site, now, hm, _⟩⟩
      · exact Or.inr (hsnapshot (Or.inr ((hinv.flights m _ ids hm rfl).2 id
          hmem)))
      · exact Or.inr (hsnapshot (Or.inr ((hinv.flights m _ ids hm rfl).2 id
          hmem)))
      · cases site with
        | startFlush =>
            exact Or.inr (hsnapshot (Or.inr ((hinv.flights m _ ids hm rfl).2
              id hmem)))
        | finishShutdown =>
            exact Or.inr (hsnapshot (Or.inr ((hinv.last m ids now hm).2.2.2
              id hmem)))
  · intro haccept hdirty
    rcases hinv.awake haccept hdirty with htimer | hflight
    · left
      rw [hinv.armed]
      rcases Option.isSome_iff_exists.mp htimer with ⟨handle, hhandle⟩
      rw [hhandle]
      exact List.cons_ne_nil _ _
    · right
      rcases Option.isSome_iff_exists.mp hflight with ⟨k, hk⟩
      rcases hinv.flying k hk with ⟨c, ids, hc, hf⟩
      rcases Ledger.mem_of hc with ⟨f, hmem, _, hcall⟩
      refine ⟨f, hmem, ?_⟩
      unfold Flushing
      rw [hcall, inFlightIds_of_flight hf]
      rfl
  · intro f hf g hg hff hfg
    rcases Option.isSome_iff_exists.mp hff with ⟨ids, hids⟩
    rcases Option.isSome_iff_exists.mp hfg with ⟨ids', hids'⟩
    have hid := hinv.single (Ledger.of_mem hdistinct _ hg) hids'
      (Ledger.of_mem hdistinct _ hf) hids
    exact List.inj_on_of_nodup_map hdistinct hf hg hid
  · intro n hmem
    rw [hinv.armed, hinv.stopped (hinv.began n hmem)]
    rfl
  · intro n a hmem before id after hlog
    exact hinv.resolved n a hmem before _ after hlog id rfl
  · intro n e hmem before id after hlog
    exact hinv.rejected n e hmem before _ after hlog id rfl

/-!
A run with a store that writes: a mark, its flush, a second mark during the
flush, and a shutdown that writes the second one.
-/

def goodReply (s : State) (_ : Nat) : (c : PortCall) -> PortReply c
  | PortCall.setTimeout => s.armed.length
  | PortCall.clearTimeout _ => ()
  | PortCall.now => Except.ok (js "2026-01-01T00:00:00.000Z")
  | PortCall.microtask _ => ()
  | PortCall.flushActivity _ _ _ => Except.ok ()
  | PortCall.inFlight _ => ()
  | PortCall.shutdownPromise _ => Except.ok ()

def endedBy (k : Nat) : Entry -> Bool
  | Entry.ended m _ _ => m = k
  | _ => false

def goodFair (s : State) (_ : Nat) : PortCall -> Bool
  | PortCall.setTimeout => decide (s.armed.length ∉ s.armed)
  | PortCall.inFlight k => s.log.any (endedBy k)
  | PortCall.shutdownPromise k =>
      decide (Entry.ended k Op.shutdown (Except.ok ()) ∈ s.log)
  | _ => true

theorem goodFair_allowed (s : State) (n : Nat) (c : PortCall)
    (h : goodFair s n c = true) : allowed s n c (goodReply s n c) := by
  cases c with
  | setTimeout =>
      show s.armed.length ∉ s.armed
      exact of_decide_eq_true h
  | clearTimeout handle => trivial
  | now => trivial
  | microtask job => trivial
  | flushActivity site ids now => trivial
  | inFlight k =>
      rcases List.any_eq_true.mp h with ⟨e, he, hended⟩
      unfold endedBy at hended
      split at hended
      · have hk := of_decide_eq_true hended
        subst hk
        exact ⟨_, _, he⟩
      · cases hended
  | shutdownPromise k =>
      show Entry.ended k Op.shutdown (Except.ok ()) ∈ s.log
      exact of_decide_eq_true h

def goodScript : Script tracker where
  reply := goodReply
  fair := goodFair
  admits s
    | Op.fire handle => decide (handle ∈ s.armed)
    | _ => true
  nudge _ := none
  fair_allowed := goodFair_allowed
  admits_sound s o h := by
    cases o with
    | mark tabId => trivial
    | fire handle =>
        show handle ∈ s.armed
        exact of_decide_eq_true h
    | shutdown => trivial
  nudge_env s s' h := by cases h

def goodRun : Option (Config State ports Unit Unit Op) :=
  goodScript.play
    [Move.enter (Op.mark (js "first")), Move.enter (Op.fire 0),
      Move.resume 0, Move.enter (Op.mark (js "second")), Move.resume 0,
      Move.enter Op.shutdown, Move.resume 0, Move.resume 1, Move.resume 0,
      Move.resume 0]
    (Config.initial State.initial)

theorem goodRun_resolved :
    goodRun.map (fun cfg =>
      decide (Entry.ended 3 Op.shutdown (Except.ok ()) ∈ cfg.shared.log) &&
        decide (Entry.marked (js "second") ∈ cfg.shared.log)) =
      some true := by
  decide +kernel

theorem no_activity_lost_second :
    exists cfg, goodRun = some cfg ∧
      Entry.ended 3 Op.shutdown (Except.ok ()) ∈ cfg.shared.log ∧
      exists before after,
        cfg.shared.log = before ++ Entry.marked (js "second") :: after ∧
        Covered (js "second") after := by
  have hsample := goodRun_resolved
  cases hrun : goodRun with
  | none =>
      rw [hrun] at hsample
      cases hsample
  | some cfg =>
      rw [hrun] at hsample
      have hboth := Bool.and_eq_true_iff.mp (Option.some.inj hsample)
      have hended := of_decide_eq_true hboth.1
      rcases List.append_of_mem (of_decide_eq_true hboth.2) with
        ⟨before, after, hlog⟩
      refine ⟨cfg, rfl, hended, before, after, hlog, ?_⟩
      exact (no_activity_lost (Script.play_reachable hrun)).resolved 3 ()
        hended before _ after hlog

end ActivityTracker
end Server
end FlanTerminal

import FlanTerminal.Foundation.Ledger
import FlanTerminal.Foundation.Script
import FlanTerminal.Foundation.Trace
import FlanTerminal.Server.BridgeRegistry

/-!
# No owner is lost

An operation of a session begins when every operation of the session before it
has ended, so what it has read about the owner of the session stays true while
it waits for that owner to close.  A shutdown waits until nothing is queued;
from then on only the shutdown itself changes the owners.
-/

namespace FlanTerminal
namespace Server
namespace BridgeRegistry

open Foundation
open TerminalBridge (Reason)

/-!
## What a waiting operation is about
-/

/-- The session an owner is closed for, by an operation that has its turn. -/
def Why.section : Why -> Option JsString
  | Why.prior id _ => some id
  | Why.rejected id _ => some id
  | Why.close id => some id
  | _ => none

/-- The session whose owner must not change before the owner is closed. -/
def Why.captures : Why -> Option JsString
  | Why.prior id _ => some id
  | Why.close id => some id
  | _ => none

def closingOf : PortCall -> Option (Why × Nat)
  | PortCall.startClose why owner _ _ => some (why, owner)
  | PortCall.closed why owner => some (why, owner)
  | _ => none

def insideOf (c : PortCall) : Option JsString :=
  (closingOf c).bind fun x => x.1.section

def sectionOf : PortCall -> Option JsString
  | PortCall.turn job => some job.sessionId
  | c => insideOf c

/-- A replacement after the shutdown. -/
def lateOf : PortCall -> Option (JsString × Nat)
  | PortCall.barrier (Job.replace id owner) => some (id, owner)
  | PortCall.startClose (Why.late id owner) _ _ _ => some (id, owner)
  | PortCall.closed (Why.late id owner) _ => some (id, owner)
  | _ => none

/-- The replacement or removal that waits in a queue or for the owner before
it. -/
def taskOf : PortCall -> Option Op
  | PortCall.turn (Job.replace id owner) => some (Op.replace id owner)
  | PortCall.turn (Job.remove id owner) => some (Op.remove id owner)
  | PortCall.startClose (Why.prior id owner) _ _ _ =>
      some (Op.replace id owner)
  | PortCall.closed (Why.prior id owner) _ => some (Op.replace id owner)
  | _ => none

/-- What a shutdown still has to do: the entries whose owner was called, and
the entries that come next. -/
def leftOf : PortCall ->
    Option (List (JsString × Nat) × List (JsString × Nat))
  | PortCall.startClose (Why.shutdown id rest closing _) owner _ _ =>
      some ((id, owner) :: closing, rest)
  | PortCall.nextClosed closing _ => some (closing, [])
  | _ => none

def isShutdown : PortCall -> Bool
  | PortCall.drained _ => true
  | c => (leftOf c).isSome

def queuedOf (log : List Entry) : List (JsString × Nat) :=
  log.filterMap fun
    | Entry.queued n id => some (id, n)
    | _ => none

def endedIs (m : Nat) : Entry -> Bool
  | Entry.ended k _ _ _ => k = m
  | _ => false

def hasEnded (log : List Entry) (m : Nat) : Bool :=
  log.any (endedIs m)

def numberOf : Entry -> Option Nat
  | Entry.entered n _ _ => some n
  | Entry.queued n _ => some n
  | Entry.began n _ _ => some n
  | Entry.passed n _ => some n
  | Entry.closeCalled _ => none
  | Entry.drained n _ => some n
  | Entry.ended n _ _ _ => some n

/-!
## The invariant
-/

/-- The queue holds what was queued and has not ended. -/
structure Order (L : Ledger ports) (queue : List (JsString × Nat))
    (log : List Entry) : Prop where
  numbers : forall e, e ∈ log -> forall m, numberOf e = some m -> m < L.next
  line : queue = (queuedOf log).filter fun x => !hasEnded log x.2
  sorted : ((queuedOf log).map Prod.snd).Pairwise fun a b => a < b
  ended : forall m, hasEnded log m = true -> L.pending m = none
  waiting : forall id m, (id, m) ∈ queue <->
    exists c, L.pending m = some c ∧ sectionOf c = some id
  begun : forall m id owners, Entry.began m id owners ∈ log ->
    hasEnded log m = true ∨ firstOf queue id = some m
  inside : forall m c id, L.pending m = some c -> insideOf c = some id ->
    exists owners, Entry.began m id owners ∈ log

structure Owned (L : Ledger ports) (owners : JsMap JsString Nat)
    (log : List Entry) : Prop where
  distinct : owners.Distinct
  captured : forall m c why p id, L.pending m = some c ->
    closingOf c = some (why, p) -> why.captures = some id ->
      owners.get id = some p
  called : forall m c why p, L.pending m = some c ->
    closingOf c = some (why, p) -> Entry.closeCalled p ∈ log
  tasked : forall m c o, L.pending m = some c -> taskOf c = some o ->
    exists flag, Entry.entered m o flag ∈ log

/-- How far the shutdown of operation `k` is. -/
def Phase (L : Ledger ports) (r : Registry) (log : List Entry) (k : Nat) :
    Prop :=
  (exists operations, L.pending k = some (PortCall.drained operations) ∧
    forall x, x ∈ r.queue -> x.2 ∈ operations) ∨
  (r.queue = [] ∧ exists owners, Entry.drained k owners ∈ log ∧
    ((exists c called rest, L.pending k = some c ∧
        leftOf c = some (called, rest) ∧
        (forall x, x ∈ r.owners -> x ∈ called ++ rest) ∧
        (forall x, x ∈ called -> Entry.closeCalled x.2 ∈ log) ∧
        forall x, x ∈ owners -> Entry.closeCalled x.2 ∈ log ∨ x ∈ rest) ∨
      (exists res owners', Entry.ended k Op.closeAll res owners' ∈ log ∧
        r.owners = [] ∧ forall x, x ∈ owners ->
          Entry.closeCalled x.2 ∈ log)))

structure Down (L : Ledger ports) (r : Registry) (log : List Entry) :
    Prop where
  flag : r.shuttingDown = r.shutdownResult.isSome
  phase : forall k, r.shutdownResult = some k -> Phase L r log k
  single : forall m c, L.pending m = some c -> isShutdown c = true ->
    r.shutdownResult = some m
  joined : forall m k, L.pending m = some (PortCall.shutdownResult k) ->
    r.shutdownResult = some k
  closed : forall m res owners, Entry.ended m Op.closeAll res owners ∈ log ->
    exists k res' owners', r.shutdownResult = some k ∧
      Entry.ended k Op.closeAll res' owners' ∈ log

def Late (L : Ledger ports) (n : Nat) (id : JsString) (owner : Nat)
    (after : List Entry) : Prop :=
  (exists c, L.pending n = some c ∧ lateOf c = some (id, owner) ∧
    (c = PortCall.barrier (Job.replace id owner) ∨
      Entry.closeCalled owner ∈ after)) ∨
  (Entry.closeCalled owner ∈ after ∧
    exists owners, Entry.ended n (Op.replace id owner)
      (Except.error Thrown.shuttingDown) owners ∈ after)

/-- What an entry says about the entries before it. -/
def Good (before : List Entry) : Entry -> Prop
  | Entry.entered _ _ shuttingDown =>
      (exists k res owners, Entry.ended k Op.closeAll res owners ∈ before) ->
        shuttingDown = true
  | Entry.began n id _ => Entry.queued n id ∈ before ∧
      (forall m, Entry.queued m id ∈ before -> m < n ->
        hasEnded before m = true) ∧
      forall m owners, m ≠ n -> Entry.began m id owners ∈ before ->
        hasEnded before m = true
  | Entry.passed _ _ =>
      exists k res owners, Entry.ended k Op.closeAll res owners ∈ before
  | Entry.ended _ (Op.replace id owner) (Except.ok _) owners =>
      owners.get id = some owner
  | Entry.ended _ (Op.replace _ owner) (Except.error _) _ =>
      Entry.closeCalled owner ∈ before
  | Entry.ended n (Op.remove id owner) _ owners =>
      (exists pre, before = pre ++ [Entry.passed n owners]) ∨
      exists pre prior, before = pre ++ [Entry.began n id prior] ∧
        owners = if prior.get id = some owner then prior.delete id else prior
  | Entry.ended _ Op.closeAll _ owners => owners = [] ∧
      exists k drained, Entry.drained k drained ∈ before ∧
        forall x, x ∈ drained -> Entry.closeCalled x.2 ∈ before
  | _ => True

structure Fate (L : Ledger ports) (owners : JsMap JsString Nat)
    (log : List Entry) : Prop where
  good : EveryEntry Good log
  kept : forall n id owner u at', Entry.ended n (Op.replace id owner)
    (Except.ok u) at' ∈ log -> owners.get id = some owner ∨
      Entry.closeCalled owner ∈ log ∨
      exists m flag, Entry.entered m (Op.remove id owner) flag ∈ log
  late : EveryAfter (fun e after => forall n id owner,
    e = Entry.entered n (Op.replace id owner) true -> Late L n id owner after)
    log
  removed : forall n id owner res at', Entry.ended n (Op.remove id owner) res
    at' ∈ log -> (forall m flag, Entry.entered m (Op.replace id owner) flag ∈
      log -> m < n) -> owners.get id ≠ some owner

structure Inv (L : Ledger ports) (s : State) : Prop where
  order : Order L s.registry.queue s.log
  owned : Owned L s.registry.owners s.log
  down : Down L s.registry s.log
  fate : Fate L s.registry.owners s.log

/-!
## Queues and logs
-/

theorem hasEnded_snoc (log : List Entry) (e : Entry) (m : Nat) :
    hasEnded (log ++ [e]) m = (hasEnded log m || endedIs m e) := by
  simp [hasEnded]

theorem hasEnded_of_mem {log : List Entry} {m : Nat} {o : Op}
    {res : Except Thrown Unit} {owners : JsMap JsString Nat}
    (h : Entry.ended m o res owners ∈ log) : hasEnded log m = true :=
  List.any_eq_true.mpr ⟨_, h, by simp [endedIs]⟩

theorem mem_queuedOf {log : List Entry} {id : JsString} {m : Nat} :
    (id, m) ∈ queuedOf log <-> Entry.queued m id ∈ log := by
  unfold queuedOf
  rw [List.mem_filterMap]
  constructor
  · rintro ⟨e, he, hsome⟩
    cases e with
    | queued k id' =>
        cases hsome
        exact he
    | _ => cases hsome
  · intro h
    exact ⟨_, h, rfl⟩

theorem firstOf_append {queue : List (JsString × Nat)} {id : JsString}
    {m : Nat} (h : firstOf queue id = some m) (x : JsString × Nat) :
    firstOf (queue ++ [x]) id = some m := by
  rcases Option.map_eq_some_iff.mp h with ⟨y, hy, hm⟩
  unfold firstOf
  rw [List.find?_append, hy]
  exact congrArg some hm

theorem mem_of_firstOf {queue : List (JsString × Nat)} {id : JsString}
    {m : Nat} (h : firstOf queue id = some m) : (id, m) ∈ queue := by
  rcases Option.map_eq_some_iff.mp h with ⟨y, hy, hm⟩
  have hid : y.1 = id := by simpa using List.find?_some hy
  have hmem := List.mem_of_find?_eq_some hy
  rw [← hid, ← hm]
  exact hmem

theorem firstOf_erase {queue : List (JsString × Nat)} {id id' : JsString}
    (n : Nat) (hne : id' ≠ id) :
    firstOf (queue.erase (id, n)) id' = firstOf queue id' := by
  unfold firstOf
  congr 1
  induction queue with
  | nil => rfl
  | cons x queue ih =>
      by_cases hx : x = (id, n)
      · rw [hx, List.erase_cons_head]
        rw [List.find?_cons_of_neg]
        simpa using fun h => hne h.symm
      · rw [List.erase_cons_tail (by simpa using hx)]
        by_cases hid : x.1 = id'
        · rw [List.find?_cons_of_pos (by simpa using hid),
            List.find?_cons_of_pos (by simpa using hid)]
        · rw [List.find?_cons_of_neg (by simpa using hid),
            List.find?_cons_of_neg (by simpa using hid), ih]

theorem firstOf_least {queue : List (JsString × Nat)}
    (hsorted : (queue.map Prod.snd).Pairwise fun a b => a < b)
    {id : JsString} {n m : Nat} (hfirst : firstOf queue id = some n)
    (hm : (id, m) ∈ queue) : n ≤ m := by
  unfold firstOf at hfirst
  induction queue with
  | nil => cases hm
  | cons x queue ih =>
      rcases List.pairwise_cons.mp hsorted with ⟨hx, hrest⟩
      by_cases hid : x.1 = id
      · rw [List.find?_cons_of_pos (by simpa using hid)] at hfirst
        have hn : x.2 = n := Option.some.inj hfirst
        rcases List.mem_cons.mp hm with hm | hm
        · rw [← hn, ← hm]
        · rw [← hn]
          exact Nat.le_of_lt (hx m (List.mem_map.mpr ⟨_, hm, rfl⟩))
      · rw [List.find?_cons_of_neg (by simpa using hid)] at hfirst
        rcases List.mem_cons.mp hm with hm | hm
        · rw [← hm] at hid
          exact absurd rfl hid
        · exact ih hrest hfirst hm

/-- Entries that say nothing about the queue. -/
def isQuiet : Entry -> Bool
  | Entry.queued _ _ => false
  | Entry.began _ _ _ => false
  | Entry.ended _ _ _ _ => false
  | _ => true

/-!
## The order of the operations
-/

section Moves

variable {L : Ledger ports} {n : Nat}

namespace Order

variable {queue : List (JsString × Nat)} {log : List Entry}

theorem record (h : Order L queue log) {e : Entry} (he : isQuiet e = true)
    (hn : forall m, numberOf e = some m -> m < L.next) :
    Order L queue (log ++ [e]) := by
  have hended : forall m, hasEnded (log ++ [e]) m = hasEnded log m := by
    intro m
    cases e with
    | ended _ _ _ _ => cases he
    | _ => simp [hasEnded_snoc, endedIs]
  have hqueued : queuedOf (log ++ [e]) = queuedOf log := by
    cases e with
    | queued _ _ => cases he
    | _ => simp [queuedOf]
  constructor
  · intro x hx m hm
    rcases List.mem_append.mp hx with hx | hx
    · exact h.numbers x hx m hm
    · rw [List.mem_singleton.mp hx] at hm
      exact hn m hm
  · simp only [hended, hqueued]
    exact h.line
  · rw [hqueued]
    exact h.sorted
  · intro m hm
    rw [hended] at hm
    exact h.ended m hm
  · exact h.waiting
  · intro m id owners hm
    rw [hended]
    rcases List.mem_append.mp hm with hm | hm
    · exact h.begun m id owners hm
    · rw [← List.mem_singleton.mp hm] at he
      cases he
  · intro m c id hm hc
    rcases h.inside m c id hm hc with ⟨owners, hlog⟩
    exact ⟨owners, List.mem_append_left _ hlog⟩

/-- A later wait of an operation, or the first one of an operation that is not
queued. -/
theorem put (h : Order L queue log) {c : PortCall}
    (hended : hasEnded log n = false)
    (hsection : forall id, sectionOf c = some id <->
      exists c', L.pending n = some c' ∧ sectionOf c' = some id)
    (hinside : forall id, insideOf c = some id ->
      exists owners, Entry.began n id owners ∈ log) :
    Order (L.put n (some c)) queue log := by
  refine { h with ended := ?_, waiting := ?_, inside := ?_ }
  · intro m hm
    have hne : m ≠ n := by
      intro heq
      rw [heq, hended] at hm
      cases hm
    rw [Ledger.put_other L _ hne]
    exact h.ended m hm
  · intro id m
    rw [h.waiting]
    by_cases hm : m = n
    · rw [hm, ← hsection id]
      simp
    · simp [Ledger.put_other L _ hm]
  · intro m c' id hm hc
    rcases Ledger.pending_put.mp hm with ⟨hmn, heq⟩ | ⟨_, hm⟩
    · cases heq
      rw [hmn]
      exact hinside id hc
    · exact h.inside m c' id hm hc

theorem fresh (h : Order L queue log) : hasEnded log L.next = false := by
  rw [Bool.eq_false_iff]
  intro hended
  rcases List.any_eq_true.mp hended with ⟨e, he, hm⟩
  cases e with
  | ended k _ _ _ =>
      have hk : k = L.next := by simpa [endedIs] using hm
      have hlt := h.numbers _ he k rfl
      omega
  | _ => cases hm

theorem next (h : Order L queue log) :
    Order { L with next := L.next + 1 } queue log :=
  { h with numbers := fun e he m hm =>
      Nat.lt_succ_of_lt (h.numbers e he m hm) }

theorem enqueue (h : Order L queue log) (hfree : L.pending L.next = none)
    (o : Op) (flag : Bool) (job : Job) :
    Order (Ledger.put { L with next := L.next + 1 } L.next
        (some (PortCall.turn job)))
      (queue ++ [(job.sessionId, L.next)])
      (log ++ [Entry.entered L.next o flag] ++
        [Entry.queued L.next job.sessionId]) := by
  have hentered := h.next.record (e := Entry.entered L.next o flag) rfl (by
    intro m hm
    cases hm
    exact Nat.lt_succ_self _)
  have hended : forall m, hasEnded (log ++ [Entry.entered L.next o flag] ++
      [Entry.queued L.next job.sessionId]) m = hasEnded log m := by
    intro m
    rw [hasEnded_snoc, hasEnded_snoc]
    simp [endedIs]
  have hqueued : queuedOf (log ++ [Entry.entered L.next o flag] ++
      [Entry.queued L.next job.sessionId]) =
      queuedOf log ++ [(job.sessionId, L.next)] := by
    simp [queuedOf]
  constructor
  · intro x hx m hm
    rcases List.mem_append.mp hx with hx | hx
    · exact hentered.numbers x hx m hm
    · rw [List.mem_singleton.mp hx] at hm
      cases hm
      exact Nat.lt_succ_self _
  · simp only [hended, hqueued, List.filter_append, ← h.line]
    simp [h.fresh]
  · rw [hqueued, List.map_append, List.pairwise_append]
    refine ⟨h.sorted, List.pairwise_singleton _ _, ?_⟩
    intro a ha b hb
    rcases List.mem_map.mp ha with ⟨x, hx, hxa⟩
    have hlog := mem_queuedOf.mp (show (x.1, x.2) ∈ queuedOf log from hx)
    have hlt := h.numbers _ hlog x.2 rfl
    rw [List.mem_singleton.mp hb, ← hxa]
    exact hlt
  · intro m hm
    rw [hended] at hm
    have hne : m ≠ L.next := by
      intro heq
      rw [heq, h.fresh] at hm
      cases hm
    rw [Ledger.put_other _ _ hne]
    exact h.ended m hm
  · intro id m
    rw [List.mem_append, h.waiting, List.mem_singleton]
    by_cases hm : m = L.next
    · rw [hm, hfree]
      simp [sectionOf, eq_comm]
    · rw [Ledger.put_other _ _ hm]
      simp [hm]
  · intro m id owners hm
    rw [hended]
    have hold : Entry.began m id owners ∈ log := by
      simpa using hm
    rcases h.begun m id owners hold with hdone | hfirst
    · exact Or.inl hdone
    · exact Or.inr (firstOf_append hfirst _)
  · intro m c id hm hc
    rcases Ledger.pending_put.mp hm with ⟨_, heq⟩ | ⟨_, hm⟩
    · cases heq
      cases hc
    · rcases h.inside m c id hm hc with ⟨owners, hlog⟩
      exact ⟨owners,
        List.mem_append_left _ (List.mem_append_left _ hlog)⟩

theorem mem_queue (h : Order L queue log) {id : JsString} {m : Nat} :
    (id, m) ∈ queue <-> Entry.queued m id ∈ log ∧ hasEnded log m = false := by
  rw [h.line, List.mem_filter, mem_queuedOf]
  simp

theorem sorted_queue (h : Order L queue log) :
    (queue.map Prod.snd).Pairwise fun a b => a < b := by
  rw [h.line]
  exact h.sorted.sublist (List.filter_sublist.map _)

theorem began (h : Order L queue log) {id : JsString}
    (hfirst : firstOf queue id = some n) (owners : JsMap JsString Nat) :
    Order L queue (log ++ [Entry.began n id owners]) := by
  have hended : forall m, hasEnded (log ++ [Entry.began n id owners]) m =
      hasEnded log m := by
    intro m
    simp [hasEnded_snoc, endedIs]
  have hqueued : queuedOf (log ++ [Entry.began n id owners]) =
      queuedOf log := by
    simp [queuedOf]
  have hn : n < L.next :=
    h.numbers _ (h.mem_queue.mp (mem_of_firstOf hfirst)).1 n rfl
  constructor
  · intro x hx m hm
    rcases List.mem_append.mp hx with hx | hx
    · exact h.numbers x hx m hm
    · rw [List.mem_singleton.mp hx] at hm
      cases hm
      exact hn
  · simp only [hended, hqueued]
    exact h.line
  · rw [hqueued]
    exact h.sorted
  · intro m hm
    rw [hended] at hm
    exact h.ended m hm
  · exact h.waiting
  · intro m id' owners' hm
    rw [hended]
    rcases List.mem_append.mp hm with hm | hm
    · exact h.begun m id' owners' hm
    · cases List.mem_singleton.mp hm
      exact Or.inr hfirst
  · intro m c id' hm hc
    rcases h.inside m c id' hm hc with ⟨owners', hlog⟩
    exact ⟨owners', List.mem_append_left _ hlog⟩

theorem good_began (h : Order L queue log) {id : JsString}
    (hfirst : firstOf queue id = some n) (owners : JsMap JsString Nat) :
    Good log (Entry.began n id owners) := by
  refine ⟨(h.mem_queue.mp (mem_of_firstOf hfirst)).1, ?_, ?_⟩
  · intro m hm hlt
    by_contra hended
    have hmem := h.mem_queue.mpr ⟨hm, by simpa using hended⟩
    have hle := firstOf_least h.sorted_queue hfirst hmem
    omega
  · intro m owners' hne hm
    rcases h.begun m id owners' hm with hdone | hother
    · exact hdone
    · rw [hfirst] at hother
      exact absurd (Option.some.inj hother).symm hne

theorem not_mem_of_outside (h : Order L queue log) {c : PortCall}
    (hpending : L.pending n = some c) (hc : sectionOf c = none)
    {x : JsString × Nat} (hx : x ∈ queue) : x.2 ≠ n := by
  intro hxn
  rcases (h.waiting x.1 x.2).mp hx with ⟨c', hc', hsome⟩
  rw [hxn, hpending] at hc'
  cases hc'
  rw [hc] at hsome
  cases hsome

theorem finishOutside (h : Order L queue log) {c : PortCall}
    (hpending : L.pending n = some c) (hc : sectionOf c = none)
    (hn : n < L.next) (o : Op) (res : Except Thrown Unit)
    (owners : JsMap JsString Nat) :
    Order (L.put n none) queue (log ++ [Entry.ended n o res owners]) := by
  have hqueued : queuedOf (log ++ [Entry.ended n o res owners]) =
      queuedOf log := by
    simp [queuedOf]
  have hother : forall x, x ∈ queue -> x.2 ≠ n :=
    fun x hx => h.not_mem_of_outside hpending hc hx
  constructor
  · intro x hx m hm
    rcases List.mem_append.mp hx with hx | hx
    · exact h.numbers x hx m hm
    · rw [List.mem_singleton.mp hx] at hm
      cases hm
      exact hn
  · rw [hqueued]
    have hsplit : ((queuedOf log).filter fun x =>
        !hasEnded (log ++ [Entry.ended n o res owners]) x.2) =
        (queue.filter fun x => !endedIs x.2 (Entry.ended n o res owners)) := by
      rw [h.line, List.filter_filter]
      congr 1
      funext x
      rw [hasEnded_snoc, Bool.not_or, Bool.and_comm]
    rw [hsplit, List.filter_eq_self.mpr]
    intro x hx
    simpa [endedIs] using fun heq => hother x hx heq.symm
  · rw [hqueued]
    exact h.sorted
  · intro m hm
    rw [hasEnded_snoc, Bool.or_eq_true] at hm
    by_cases hmn : m = n
    · rw [hmn, Ledger.put_same]
    · rw [Ledger.put_other _ _ hmn]
      rcases hm with hm | hm
      · exact h.ended m hm
      · exact absurd (by simpa [endedIs] using hm : n = m).symm hmn
  · intro id m
    rw [h.waiting]
    by_cases hmn : m = n
    · rw [hmn, hpending]
      simp [hc]
    · rw [Ledger.put_other _ _ hmn]
  · intro m id owners' hm
    have hold : Entry.began m id owners' ∈ log := by simpa using hm
    rcases h.begun m id owners' hold with hdone | hfirst
    · left
      rw [hasEnded_snoc, hdone, Bool.true_or]
    · exact Or.inr hfirst
  · intro m c' id hm hc'
    rcases Ledger.pending_put.mp hm with ⟨_, heq⟩ | ⟨_, hm⟩
    · cases heq
    · rcases h.inside m c' id hm hc' with ⟨owners', hlog⟩
      exact ⟨owners', List.mem_append_left _ hlog⟩

theorem finish (h : Order L queue log) {id : JsString}
    (hfirst : firstOf queue id = some n) (o : Op) (res : Except Thrown Unit)
    (owners : JsMap JsString Nat) :
    Order (L.put n none) (queue.erase (id, n))
      (log ++ [Entry.ended n o res owners]) := by
  have hqueued : queuedOf (log ++ [Entry.ended n o res owners]) =
      queuedOf log := by
    simp [queuedOf]
  have hmem := mem_of_firstOf hfirst
  have hinj : forall x, x ∈ queue -> x.2 = n -> x = (id, n) := by
    intro x hx hxn
    have hnodup : (queue.map Prod.snd).Nodup :=
      h.sorted_queue.imp fun hlt => Nat.ne_of_lt hlt
    exact List.inj_on_of_nodup_map hnodup hx hmem hxn
  have herase : queue.erase (id, n) =
      queue.filter fun x => !endedIs x.2 (Entry.ended n o res owners) := by
    have hnodup : queue.Nodup := List.Nodup.of_map Prod.snd
      (h.sorted_queue.imp fun hlt => Nat.ne_of_lt hlt)
    rw [hnodup.erase_eq_filter]
    apply List.filter_congr
    intro x hx
    by_cases hxn : x.2 = n
    · simp [hinj x hx hxn, endedIs]
    · have hne : x ≠ (id, n) := fun heq => hxn (by rw [heq])
      have hne' : ¬ n = x.2 := fun heq => hxn heq.symm
      simp [hne, endedIs, hne']
  constructor
  · intro x hx m hm
    rcases List.mem_append.mp hx with hx | hx
    · exact h.numbers x hx m hm
    · rw [List.mem_singleton.mp hx] at hm
      cases hm
      exact h.numbers _ (h.mem_queue.mp hmem).1 n rfl
  · rw [hqueued, herase, h.line, List.filter_filter]
    congr 1
    funext x
    rw [hasEnded_snoc, Bool.not_or, Bool.and_comm]
  · rw [hqueued]
    exact h.sorted
  · intro m hm
    rw [hasEnded_snoc, Bool.or_eq_true] at hm
    by_cases hmn : m = n
    · rw [hmn, Ledger.put_same]
    · rw [Ledger.put_other _ _ hmn]
      rcases hm with hm | hm
      · exact h.ended m hm
      · exact absurd (by simpa [endedIs] using hm : n = m).symm hmn
  · intro id' m
    rw [herase, List.mem_filter, h.waiting]
    by_cases hmn : m = n
    · rw [hmn, Ledger.put_same]
      simp [endedIs]
    · have hne' : ¬ n = m := fun heq => hmn heq.symm
      rw [Ledger.put_other _ _ hmn]
      simp [endedIs, hne']
  · intro m id' owners' hm
    have hold : Entry.began m id' owners' ∈ log := by simpa using hm
    rw [hasEnded_snoc]
    rcases h.begun m id' owners' hold with hdone | hother
    · left
      rw [hdone, Bool.true_or]
    · by_cases hid : id' = id
      · rw [hid, hfirst] at hother
        cases hother
        left
        simp [endedIs]
      · right
        rw [firstOf_erase n hid]
        exact hother
  · intro m c' id' hm hc'
    rcases Ledger.pending_put.mp hm with ⟨_, heq⟩ | ⟨_, hm⟩
    · cases heq
    · rcases h.inside m c' id' hm hc' with ⟨owners', hlog⟩
      exact ⟨owners', List.mem_append_left _ hlog⟩

end Order

/-!
## Owners
-/

namespace Owned

variable {owners : JsMap JsString Nat} {log : List Entry}

theorem grow (h : Owned L owners log) {log' : List Entry}
    (hsub : forall e, e ∈ log -> e ∈ log') : Owned L owners log' := by
  refine { h with called := ?_, tasked := ?_ }
  · intro m c why p hm hc
    exact hsub _ (h.called m c why p hm hc)
  · intro m c o hm hc
    rcases h.tasked m c o hm hc with ⟨flag, hlog⟩
    exact ⟨flag, hsub _ hlog⟩

theorem put (h : Owned L owners log) {x : Option PortCall}
    (hcaptured : forall c why p id, x = some c ->
      closingOf c = some (why, p) -> why.captures = some id ->
        owners.get id = some p)
    (hcalled : forall c why p, x = some c -> closingOf c = some (why, p) ->
      Entry.closeCalled p ∈ log)
    (htasked : forall c o, x = some c -> taskOf c = some o ->
      exists flag, Entry.entered n o flag ∈ log) :
    Owned (L.put n x) owners log := by
  constructor
  · exact h.distinct
  · intro m c why p id hm hc hid
    rcases Ledger.pending_put.mp hm with ⟨_, heq⟩ | ⟨_, hm⟩
    · exact hcaptured c why p id heq hc hid
    · exact h.captured m c why p id hm hc hid
  · intro m c why p hm hc
    rcases Ledger.pending_put.mp hm with ⟨_, heq⟩ | ⟨_, hm⟩
    · exact hcalled c why p heq hc
    · exact h.called m c why p hm hc
  · intro m c o hm hc
    rcases Ledger.pending_put.mp hm with ⟨hmn, heq⟩ | ⟨_, hm⟩
    · rw [hmn]
      exact htasked c o heq hc
    · exact h.tasked m c o hm hc

theorem drop (h : Owned L owners log) : Owned (L.put n none) owners log :=
  h.put (fun _ _ _ _ hnone => nomatch hnone) (fun _ _ _ hnone => nomatch hnone)
    (fun _ _ hnone => nomatch hnone)

theorem putOther (h : Owned L owners log) {c : PortCall}
    (hc : closingOf c = none)
    (htasked : forall o, taskOf c = some o ->
      exists flag, Entry.entered n o flag ∈ log) :
    Owned (L.put n (some c)) owners log := by
  apply h.put
  · intro c' why p id heq hclosing
    cases heq
    rw [hc] at hclosing
    cases hclosing
  · intro c' why p heq hclosing
    cases heq
    rw [hc] at hclosing
    cases hclosing
  · intro c' o heq htask
    cases heq
    exact htasked o htask

/-- The owner of a session changes that no waiting operation depends on. -/
theorem assign (h : Owned L owners log) {owners' : JsMap JsString Nat}
    {id : JsString} (hdistinct : owners'.Distinct)
    (hsame : forall id', id' ≠ id -> owners'.get id' = owners.get id')
    (hfree : forall m c why p, L.pending m = some c ->
      closingOf c = some (why, p) -> why.captures ≠ some id) :
    Owned L owners' log := by
  refine { h with distinct := hdistinct, captured := ?_ }
  intro m c why p id' hm hc hid
  have hne : id' ≠ id := by
    intro heq
    rw [heq] at hid
    exact hfree m c why p hm hc hid
  rw [hsame id' hne]
  exact h.captured m c why p id' hm hc hid

end Owned

theorem section_of_captures {why : Why} {id : JsString}
    (h : why.captures = some id) : why.section = some id := by
  cases why with
  | prior _ _ => exact h
  | close _ => exact h
  | _ => cases h

theorem not_shutdown_of_section {c : PortCall} {id : JsString}
    (h : sectionOf c = some id) : isShutdown c = false := by
  cases c with
  | startClose why _ _ _ =>
      cases why with
      | shutdown _ _ _ _ => cases h
      | _ => rfl
  | drained _ => cases h
  | nextClosed _ _ => cases h
  | _ => rfl

theorem not_late_of_section {c : PortCall} {id : JsString}
    (h : sectionOf c = some id) : lateOf c = none := by
  cases c with
  | startClose why _ _ _ =>
      cases why with
      | late _ _ => cases h
      | _ => rfl
  | closed why _ =>
      cases why with
      | late _ _ => cases h
      | _ => rfl
  | barrier _ => cases h
  | _ => rfl

theorem insideOf_eq {c : PortCall} {why : Why} {p : Nat}
    (h : closingOf c = some (why, p)) : insideOf c = why.section := by
  unfold insideOf
  rw [h]
  rfl

/-- While an operation has its turn no other one depends on the owner. -/
theorem Order.alone {queue : List (JsString × Nat)} {log : List Entry}
    (h : Order L queue log) {id : JsString}
    (hfirst : firstOf queue id = some n) {m : Nat} (hne : m ≠ n)
    {c : PortCall} {why : Why} {p : Nat} (hm : L.pending m = some c)
    (hc : closingOf c = some (why, p)) : why.captures ≠ some id := by
  intro hid
  have hinside : insideOf c = some id := by
    rw [insideOf_eq hc, section_of_captures hid]
  rcases h.inside m c id hm hinside with ⟨owners, hlog⟩
  rcases h.begun m id owners hlog with hended | hother
  · rw [h.ended m hended] at hm
    cases hm
  · rw [hfirst] at hother
    exact hne (Option.some.inj hother).symm

/-!
## The shutdown
-/

namespace Down

variable {r : Registry} {log : List Entry}

theorem record (h : Down L r log) {e : Entry}
    (he : forall m res owners, e = Entry.ended m Op.closeAll res owners ->
      exists k res' owners', r.shutdownResult = some k ∧
        Entry.ended k Op.closeAll res' owners' ∈ log) :
    Down L r (log ++ [e]) := by
  refine { h with phase := ?_, closed := ?_ }
  · intro k hk
    rcases h.phase k hk with hdrain | ⟨hqueue, owners, hlog, hleft | hdone⟩
    · exact Or.inl hdrain
    · rcases hleft with ⟨c, called, rest, hc, hcr, howners, hcalled, hcovered⟩
      refine Or.inr ⟨hqueue, owners, List.mem_append_left _ hlog,
        Or.inl ⟨c, called, rest, hc, hcr, howners, ?_, ?_⟩⟩
      · intro x hx
        exact List.mem_append_left _ (hcalled x hx)
      · intro x hx
        rcases hcovered x hx with hx | hx
        · exact Or.inl (List.mem_append_left _ hx)
        · exact Or.inr hx
    · rcases hdone with ⟨res, owners', hended, howners, hcovered⟩
      exact Or.inr ⟨hqueue, owners, List.mem_append_left _ hlog,
        Or.inr ⟨res, owners', List.mem_append_left _ hended, howners,
          fun x hx => List.mem_append_left _ (hcovered x hx)⟩⟩
  · intro m res owners hm
    have hold : exists k res' owners', r.shutdownResult = some k ∧
        Entry.ended k Op.closeAll res' owners' ∈ log := by
      rcases List.mem_append.mp hm with hm | hm
      · exact h.closed m res owners hm
      · exact he m res owners (List.mem_singleton.mp hm).symm
    rcases hold with ⟨k, res', owners', hk, hended⟩
    exact ⟨k, res', owners', hk, List.mem_append_left _ hended⟩

theorem put (h : Down L r log) {x : Option PortCall}
    (hold : forall c, L.pending n = some c -> isShutdown c = false)
    (hnew : forall c, x = some c -> isShutdown c = false)
    (hjoined : forall k, x = some (PortCall.shutdownResult k) ->
      r.shutdownResult = some k) :
    Down (L.put n x) r log := by
  refine { h with phase := ?_, single := ?_, joined := ?_ }
  · intro k hk
    have hother : forall c, L.pending k = some c -> isShutdown c = true ->
        (L.put n x).pending k = some c := by
      intro c hc hshut
      have hne : k ≠ n := by
        intro heq
        rw [heq] at hc
        rw [hold c hc] at hshut
        cases hshut
      rw [Ledger.put_other L _ hne]
      exact hc
    rcases h.phase k hk with ⟨ops, hops, hcover⟩ | ⟨hqueue, owners, hlog, hl⟩
    · exact Or.inl ⟨ops, hother _ hops rfl, hcover⟩
    · rcases hl with ⟨c, called, rest, hc, hcr, hrest⟩ | hdone
      · have hshut : isShutdown c = true := by
          cases c with
          | drained _ => rfl
          | _ => simp [isShutdown, hcr]
        exact Or.inr ⟨hqueue, owners, hlog,
          Or.inl ⟨c, called, rest, hother c hc hshut, hcr, hrest⟩⟩
      · exact Or.inr ⟨hqueue, owners, hlog, Or.inr hdone⟩
  · intro m c hm hc
    rcases Ledger.pending_put.mp hm with ⟨_, heq⟩ | ⟨_, hm⟩
    · rw [hnew c heq] at hc
      cases hc
    · exact h.single m c hm hc
  · intro m k hm
    rcases Ledger.pending_put.mp hm with ⟨_, heq⟩ | ⟨_, hm⟩
    · exact hjoined k heq
    · exact h.joined m k hm

theorem draining (h : Down L r log) {x : JsString × Nat} (hx : x ∈ r.queue)
    {k : Nat} (hk : r.shutdownResult = some k) :
    exists operations, L.pending k = some (PortCall.drained operations) ∧
      forall x, x ∈ r.queue -> x.2 ∈ operations := by
  rcases h.phase k hk with hdrain | ⟨hqueue, _⟩
  · exact hdrain
  · rw [hqueue] at hx
    cases hx

theorem finish (h : Down L r log) {x : JsString × Nat} (hx : x ∈ r.queue)
    (owners : JsMap JsString Nat) :
    Down L { r with owners := owners, queue := r.queue.erase x } log := by
  refine { h with phase := ?_ }
  intro k hk
  rcases h.draining hx hk with ⟨ops, hops, hcover⟩
  exact Or.inl ⟨ops, hops, fun y hy => hcover y (List.mem_of_mem_erase hy)⟩

theorem enqueue (h : Down L r log) (hdown : r.shuttingDown = false)
    (queue : List (JsString × Nat)) :
    Down L { r with queue := queue } log := by
  refine { h with phase := ?_ }
  intro k hk
  have hflag := h.flag
  change r.shutdownResult = some k at hk
  rw [hk, hdown] at hflag
  cases hflag

theorem settled (h : Down L r log)
    (hover : forall m, hasEnded log m = true -> L.pending m = none) {m : Nat}
    {res : Except Thrown Unit} {owners : JsMap JsString Nat}
    (hm : Entry.ended m Op.closeAll res owners ∈ log) :
    (r.owners = [] ∧ exists k drained, Entry.drained k drained ∈ log ∧
      forall x, x ∈ drained -> Entry.closeCalled x.2 ∈ log) ∧
      r.queue = [] := by
  rcases h.closed m res owners hm with ⟨k, res', owners', hk, hended⟩
  have hnone := hover k (hasEnded_of_mem hended)
  rcases h.phase k hk with ⟨ops, hops, _⟩ | ⟨hqueue, drained, hlog, hl⟩
  · rw [hnone] at hops
    cases hops
  · rcases hl with ⟨c, called, rest, hc, _⟩ | ⟨_, _, _, hempty, hcovered⟩
    · rw [hnone] at hc
      cases hc
    · exact ⟨⟨hempty, k, drained, hlog, hcovered⟩, hqueue⟩

end Down

/-!
## What becomes of the owners
-/

theorem Late.record {id : JsString} {owner : Nat} {after : List Entry}
    (h : Late L n id owner after) (e : Entry) :
    Late L n id owner (after ++ [e]) := by
  rcases h with ⟨c, hc, hlate, hfirst | hcalled⟩ | ⟨hcalled, owners, hended⟩
  · exact Or.inl ⟨c, hc, hlate, Or.inl hfirst⟩
  · exact Or.inl ⟨c, hc, hlate, Or.inr (List.mem_append_left _ hcalled)⟩
  · exact Or.inr ⟨List.mem_append_left _ hcalled, owners,
      List.mem_append_left _ hended⟩

theorem Late.other {m : Nat} {id : JsString} {owner : Nat}
    {after : List Entry} (h : Late L m id owner after) (hne : m ≠ n)
    (x : Option PortCall) : Late (L.put n x) m id owner after := by
  rcases h with ⟨c, hc, hrest⟩ | hdone
  · exact Or.inl ⟨c, (Ledger.put_other L _ hne).trans hc, hrest⟩
  · exact Or.inr hdone

def isReplaced : Entry -> Bool
  | Entry.ended _ (Op.replace _ _) (Except.ok _) _ => true
  | _ => false

def isLate : Entry -> Bool
  | Entry.entered _ (Op.replace _ _) true => true
  | _ => false

namespace Fate

variable {owners : JsMap JsString Nat} {log : List Entry}

theorem record (h : Fate L owners log) {e : Entry} (hgood : Good log e)
    (hreplaced : isReplaced e = false) (hlate : isLate e = false)
    (hremoved : forall m id owner res at',
      e = Entry.ended m (Op.remove id owner) res at' ->
        owners.get id ≠ some owner) :
    Fate L owners (log ++ [e]) := by
  constructor
  · exact everyEntry_snoc.mpr ⟨h.good, hgood⟩
  · intro m id owner u at' hm
    rcases List.mem_append.mp hm with hm | hm
    · rcases h.kept m id owner u at' hm with hkept | hkept | ⟨k, flag, hkept⟩
      · exact Or.inl hkept
      · exact Or.inr (Or.inl (List.mem_append_left _ hkept))
      · exact Or.inr (Or.inr ⟨k, flag, List.mem_append_left _ hkept⟩)
    · rw [← List.mem_singleton.mp hm] at hreplaced
      cases hreplaced
  · refine everyAfter_snoc.mpr ⟨?_, ?_⟩
    · refine EveryAfter.mono h.late ?_
      intro x after hx m id owner heq
      exact (hx m id owner heq).record e
    · intro m id owner heq
      rw [heq] at hlate
      cases hlate
  · intro m id owner res at' hm hbefore
    rcases List.mem_append.mp hm with hm | hm
    · exact h.removed m id owner res at' hm fun k flag hk =>
        hbefore k flag (List.mem_append_left _ hk)
    · exact hremoved m id owner res at' (List.mem_singleton.mp hm).symm

theorem put (h : Fate L owners log) {x : Option PortCall}
    (hold : forall c, L.pending n = some c -> lateOf c = none) :
    Fate (L.put n x) owners log := by
  refine { h with late := ?_ }
  refine EveryAfter.mono h.late ?_
  intro e after he m id owner heq
  by_cases hmn : m = n
  · rcases he m id owner heq with ⟨c, hc, hlate, _⟩ | hdone
    · rw [hmn] at hc
      rw [hold c hc] at hlate
      cases hlate
    · exact Or.inr hdone
  · exact (he m id owner heq).other hmn x

theorem assign (h : Fate L owners log) {owners' : JsMap JsString Nat}
    {id : JsString}
    (hsame : forall id', id' ≠ id -> owners'.get id' = owners.get id')
    (hleft : forall owner, owners.get id = some owner ->
      owners'.get id = some owner ∨ Entry.closeCalled owner ∈ log ∨
      exists m flag, Entry.entered m (Op.remove id owner) flag ∈ log)
    (hnew : forall owner, owners'.get id = some owner ->
      owners.get id = some owner ∨ forall n res at',
        Entry.ended n (Op.remove id owner) res at' ∈ log ->
          exists m flag, Entry.entered m (Op.replace id owner) flag ∈ log ∧
            n ≤ m) :
    Fate L owners' log := by
  refine { h with kept := ?_, removed := ?_ }
  · intro m id' owner u at' hm
    rcases h.kept m id' owner u at' hm with hkept | hkept
    · by_cases hid : id' = id
      · rw [hid] at hkept ⊢
        exact hleft owner hkept
      · rw [hsame id' hid]
        exact Or.inl hkept
    · exact Or.inr hkept
  · intro m id' owner res at' hm hbefore hget
    have hold := h.removed m id' owner res at' hm hbefore
    by_cases hid : id' = id
    · rw [hid] at hm hbefore hget hold
      rcases hnew owner hget with hget | hlater
      · exact hold hget
      · rcases hlater m res at' hm with ⟨k, flag, hk, hle⟩
        have hlt := hbefore k flag hk
        omega
    · rw [hsame id' hid] at hget
      exact hold hget

theorem replaced (h : Fate L owners log) {m : Nat} {id : JsString}
    {owner : Nat} (hget : owners.get id = some owner) (u : Unit) :
    Fate L owners (log ++ [Entry.ended m (Op.replace id owner)
      (Except.ok u) owners]) := by
  constructor
  · exact everyEntry_snoc.mpr ⟨h.good, hget⟩
  · intro k id' owner' u' at' hm
    rcases List.mem_append.mp hm with hm | hm
    · rcases h.kept k id' owner' u' at' hm with hkept | hkept | ⟨j, flag, hj⟩
      · exact Or.inl hkept
      · exact Or.inr (Or.inl (List.mem_append_left _ hkept))
      · exact Or.inr (Or.inr ⟨j, flag, List.mem_append_left _ hj⟩)
    · cases List.mem_singleton.mp hm
      exact Or.inl hget
  · refine everyAfter_snoc.mpr ⟨?_, nofun⟩
    refine EveryAfter.mono h.late ?_
    intro x after hx k id' owner' heq
    exact (hx k id' owner' heq).record _
  · intro k id' owner' res at' hk hbefore
    have hold : Entry.ended k (Op.remove id' owner') res at' ∈ log := by
      simpa using hk
    exact h.removed k id' owner' res at' hold fun j flag hj =>
      hbefore j flag (List.mem_append_left _ hj)

end Fate

/-!
## Steps of an operation
-/

namespace Inv

variable {s : State}

theorem good_entered (h : Inv L s) (m : Nat) (o : Op) :
    Good s.log (Entry.entered m o s.registry.shuttingDown) := by
  rintro ⟨k, res, owners, hk⟩
  rcases h.down.closed k res owners hk with ⟨j, _, _, hj, _⟩
  rw [h.down.flag, hj]
  rfl

theorem enqueue (h : Inv L s) (hfree : L.pending L.next = none)
    (hdown : s.registry.shuttingDown = false) {o : Op} {job : Job}
    (hjob : forall o', taskOf (PortCall.turn job) = some o' -> o = o') :
    Inv (Ledger.put { L with next := L.next + 1 } L.next
        (some (PortCall.turn job)))
      { registry :=
          { s.registry with
            queue := s.registry.queue ++ [(job.sessionId, L.next)] }
        log := s.log ++ [Entry.entered L.next o s.registry.shuttingDown] ++
          [Entry.queued L.next job.sessionId] } := by
  have hlate : isLate (Entry.entered L.next o s.registry.shuttingDown) =
      false := by
    rw [hdown]
    cases o with
    | _ => rfl
  have hnone : forall c, L.pending L.next = some c -> False := by
    intro c hc
    rw [hfree] at hc
    cases hc
  constructor
  · exact h.order.enqueue hfree o _ job
  · have hgrown : Owned L s.registry.owners
        (s.log ++ [Entry.entered L.next o s.registry.shuttingDown] ++
          [Entry.queued L.next job.sessionId]) :=
      h.owned.grow fun e he =>
        List.mem_append_left _ (List.mem_append_left _ he)
    apply Owned.putOther (L := { L with next := L.next + 1 })
      ⟨hgrown.distinct, hgrown.captured, hgrown.called, hgrown.tasked⟩ rfl
    intro o' htask
    refine ⟨s.registry.shuttingDown, ?_⟩
    rw [hjob o' htask]
    simp
  · have hdown' := ((h.down.enqueue hdown
      (s.registry.queue ++ [(job.sessionId, L.next)])).record
      (e := Entry.entered L.next o s.registry.shuttingDown) nofun).record
      (e := Entry.queued L.next job.sessionId) nofun
    apply Down.put (L := { L with next := L.next + 1 })
      ⟨hdown'.flag, hdown'.phase, hdown'.single, hdown'.joined,
        hdown'.closed⟩
    · intro c hc
      exact (hnone c hc).elim
    · intro c hc
      cases hc
      rfl
    · nofun
  · have hfate := (h.fate.record (h.good_entered L.next o) rfl hlate
      nofun).record (e := Entry.queued L.next job.sessionId) trivial rfl rfl
      nofun
    apply Fate.put (L := { L with next := L.next + 1 })
      ⟨hfate.good, hfate.kept, hfate.late, hfate.removed⟩
    intro c hc
    exact (hnone c hc).elim

theorem enter (h : Inv L s) (hfree : L.pending L.next = none) {o : Op}
    {c : PortCall} (hclosing : closingOf c = none)
    (hsection : sectionOf c = none) (hshut : isShutdown c = false)
    (hjoined : forall k, c = PortCall.shutdownResult k ->
      s.registry.shutdownResult = some k)
    (hlate : forall id owner, o = Op.replace id owner ->
      c = PortCall.barrier (Job.replace id owner)) :
    Inv (Ledger.put { L with next := L.next + 1 } L.next (some c))
      (s.record (Entry.entered L.next o s.registry.shuttingDown)) := by
  have hnone : forall c, L.pending L.next = some c -> False := by
    intro c hc
    rw [hfree] at hc
    cases hc
  have hinside : insideOf c = none := by
    unfold insideOf
    rw [hclosing]
    rfl
  constructor
  · have hrecord := h.order.next.record
      (e := Entry.entered L.next o s.registry.shuttingDown) rfl (by
        intro m hm
        cases hm
        exact Nat.lt_succ_self _)
    apply hrecord.put
    · rw [hasEnded_snoc, h.order.fresh]
      rfl
    · intro id
      rw [hsection]
      constructor
      · nofun
      · rintro ⟨c', hc', _⟩
        exact (hnone c' hc').elim
    · intro id hid
      rw [hinside] at hid
      cases hid
  · have hgrown : Owned L s.registry.owners (s.log ++
        [Entry.entered L.next o s.registry.shuttingDown]) :=
      h.owned.grow fun _ he => List.mem_append_left _ he
    apply Owned.putOther (L := { L with next := L.next + 1 })
      ⟨hgrown.distinct, hgrown.captured, hgrown.called, hgrown.tasked⟩
      hclosing
    intro o' htask
    cases c with
    | turn _ => cases hsection
    | startClose _ _ _ _ => cases hclosing
    | closed _ _ => cases hclosing
    | _ => cases htask
  · have hdown := h.down.record
      (e := Entry.entered L.next o s.registry.shuttingDown) nofun
    apply Down.put (L := { L with next := L.next + 1 })
      ⟨hdown.flag, hdown.phase, hdown.single, hdown.joined, hdown.closed⟩
    · intro c' hc'
      exact (hnone c' hc').elim
    · intro c' heq
      cases heq
      exact hshut
    · intro k heq
      exact hjoined k (Option.some.inj heq)
  · have hput := Fate.put (L := { L with next := L.next + 1 })
      (n := L.next) (x := some c)
      ⟨h.fate.good, h.fate.kept, h.fate.late, h.fate.removed⟩
      (fun c' hc' => (hnone c' hc').elim)
    constructor
    · exact everyEntry_snoc.mpr ⟨h.fate.good, h.good_entered L.next o⟩
    · intro m id owner u at' hm
      have hold : Entry.ended m (Op.replace id owner) (Except.ok u) at' ∈
          s.log := by simpa [State.record] using hm
      rcases h.fate.kept m id owner u at' hold with hk | hk | ⟨k, flag, hk⟩
      · exact Or.inl hk
      · exact Or.inr (Or.inl (List.mem_append_left _ hk))
      · exact Or.inr (Or.inr ⟨k, flag, List.mem_append_left _ hk⟩)
    · refine everyAfter_snoc.mpr ⟨?_, ?_⟩
      · refine EveryAfter.mono hput.late ?_
        intro x after hx m id owner heq
        exact (hx m id owner heq).record _
      · intro m id owner heq
        injection heq with hm ho
        have hc := hlate id owner ho
        rw [← hm]
        refine Or.inl ⟨c, Ledger.put_same _ _ _, ?_, Or.inl hc⟩
        rw [hc]
        rfl
    · intro m id owner res at' hm hbefore
      have hold : Entry.ended m (Op.remove id owner) res at' ∈ s.log := by
        simpa [State.record] using hm
      exact h.fate.removed m id owner res at' hold fun j flag hj =>
        hbefore j flag (List.mem_append_left _ hj)

theorem enterShutdown (h : Inv L s) (hfree : L.pending L.next = none)
    (hfirst : s.registry.shutdownResult = none) :
    Inv (Ledger.put { L with next := L.next + 1 } L.next
        (some (PortCall.drained (s.registry.queue.map Prod.snd))))
      { registry :=
          { s.registry with
            shuttingDown := true
            shutdownResult := some L.next }
        log := s.log ++
          [Entry.entered L.next Op.closeAll s.registry.shuttingDown] } := by
  have hnone : forall c, L.pending L.next = some c -> False := by
    intro c hc
    rw [hfree] at hc
    cases hc
  have hnever : forall m c, L.pending m = some c -> isShutdown c = false := by
    intro m c hm
    by_contra hc
    have hm' := h.down.single m c hm (by simpa using hc)
    rw [hfirst] at hm'
    cases hm'
  constructor
  · have hrecord := h.order.next.record
      (e := Entry.entered L.next Op.closeAll s.registry.shuttingDown) rfl (by
        intro m hm
        cases hm
        exact Nat.lt_succ_self _)
    apply hrecord.put
    · rw [hasEnded_snoc, h.order.fresh]
      rfl
    · intro id
      constructor
      · nofun
      · rintro ⟨c', hc', _⟩
        exact (hnone c' hc').elim
    · nofun
  · have hgrown : Owned L s.registry.owners (s.log ++
        [Entry.entered L.next Op.closeAll s.registry.shuttingDown]) :=
      h.owned.grow fun _ he => List.mem_append_left _ he
    exact Owned.putOther (L := { L with next := L.next + 1 })
      ⟨hgrown.distinct, hgrown.captured, hgrown.called, hgrown.tasked⟩
      rfl nofun
  · constructor
    · rfl
    · intro k hk
      cases hk
      refine Or.inl ⟨_, Ledger.put_same _ _ _, ?_⟩
      intro x hx
      exact List.mem_map.mpr ⟨x, hx, rfl⟩
    · intro m c hm hc
      rcases Ledger.pending_put.mp hm with ⟨hmn, _⟩ | ⟨_, hm⟩
      · rw [hmn]
      · rw [hnever m c hm] at hc
        cases hc
    · intro m k hm
      rcases Ledger.pending_put.mp hm with ⟨_, heq⟩ | ⟨_, hm⟩
      · cases heq
      · have hk := h.down.joined m k hm
        rw [hfirst] at hk
        cases hk
    · intro m res owners hm
      have hold : Entry.ended m Op.closeAll res owners ∈ s.log := by
        simpa using hm
      rcases h.down.closed m res owners hold with ⟨k, _, _, hk, _⟩
      rw [hfirst] at hk
      cases hk
  · have hfate := h.fate.record (h.good_entered L.next Op.closeAll) rfl rfl
      nofun
    apply Fate.put (L := { L with next := L.next + 1 })
      ⟨hfate.good, hfate.kept, hfate.late, hfate.removed⟩
    intro c hc
    exact (hnone c hc).elim

theorem begin (h : Inv L s) {id : JsString}
    (hfirst : firstOf s.registry.queue id = some n) :
    Inv L (s.record (Entry.began n id s.registry.owners)) :=
  ⟨h.order.began hfirst _, h.owned.grow fun _ he => List.mem_append_left _ he,
    h.down.record nofun,
    h.fate.record (h.order.good_began hfirst _) rfl rfl nofun⟩

theorem not_ended (h : Inv L s) {c : PortCall}
    (hpending : L.pending n = some c) : hasEnded s.log n = false := by
  rw [Bool.eq_false_iff]
  intro hended
  rw [h.order.ended n hended] at hpending
  cases hpending

/-- The operation that has its turn, as its log says. -/
theorem first (h : Inv L s) {c : PortCall} (hpending : L.pending n = some c)
    {id : JsString} {owners : JsMap JsString Nat}
    (hbegan : Entry.began n id owners ∈ s.log) :
    firstOf s.registry.queue id = some n := by
  rcases h.order.begun n id owners hbegan with hended | hfirst
  · rw [h.not_ended hpending] at hended
    cases hended
  · exact hfirst

theorem callClose (h : Inv L s) {c : PortCall}
    (hpending : L.pending n = some c) {id : JsString}
    (hsection : sectionOf c = some id) {at' : JsMap JsString Nat}
    (hbegan : Entry.began n id at' ∈ s.log) {why : Why} {p : Nat}
    (hwhy : why.section = some id)
    (hcaptures : why.captures = some id ->
      s.registry.owners.get id = some p)
    (htask : forall id owner, why = Why.prior id owner ->
      exists flag, Entry.entered n (Op.replace id owner) flag ∈ s.log)
    (code : Nat) (reason : Reason) :
    Inv (L.put n (some (PortCall.startClose why p code reason)))
      (s.record (Entry.closeCalled p)) := by
  have hrecord : Order L s.registry.queue (s.log ++ [Entry.closeCalled p]) :=
    h.order.record rfl nofun
  have hshut : forall c', L.pending n = some c' -> isShutdown c' = false := by
    intro c' hc'
    rw [hpending] at hc'
    cases hc'
    exact not_shutdown_of_section hsection
  have hlate : forall c', L.pending n = some c' -> lateOf c' = none := by
    intro c' hc'
    rw [hpending] at hc'
    cases hc'
    exact not_late_of_section hsection
  constructor
  · apply hrecord.put
    · rw [hasEnded_snoc, h.not_ended hpending]
      rfl
    · intro id'
      rw [hpending]
      have hnew : sectionOf (PortCall.startClose why p code reason) =
          some id := hwhy
      constructor
      · intro hid
        exact ⟨c, rfl, hsection.trans (hnew.symm.trans hid)⟩
      · rintro ⟨c', hc', hid⟩
        cases hc'
        exact hnew.trans (hsection.symm.trans hid)
    · intro id' hid
      have hnew : insideOf (PortCall.startClose why p code reason) =
          some id := hwhy
      rw [hnew] at hid
      cases hid
      exact ⟨at', List.mem_append_left _ hbegan⟩
  · have hgrown : Owned L s.registry.owners
        (s.log ++ [Entry.closeCalled p]) :=
      h.owned.grow fun _ he => List.mem_append_left _ he
    apply hgrown.put
    · intro c' why' p' id' heq hc' hid
      cases heq
      cases hc'
      have hin := section_of_captures hid
      rw [hwhy] at hin
      cases hin
      exact hcaptures hid
    · intro c' why' p' heq hc'
      cases heq
      cases hc'
      simp
    · intro c' o heq hc'
      cases heq
      cases why with
      | prior id' owner =>
          cases hc'
          rcases htask id' owner rfl with ⟨flag, hlog⟩
          exact ⟨flag, List.mem_append_left _ hlog⟩
      | _ => cases hc'
  · apply (h.down.record (e := Entry.closeCalled p) nofun).put hshut
    · intro c' heq
      cases heq
      cases why with
      | shutdown _ _ _ _ => cases hwhy
      | _ => rfl
    · nofun
  · exact (h.fate.record (e := Entry.closeCalled p) trivial rfl rfl
      nofun).put hlate

theorem promised (h : Inv L s) {why : Why} {p code : Nat} {reason : Reason}
    (hpending : L.pending n = some (PortCall.startClose why p code reason))
    (hwhy : forall id rest closing failed,
      why ≠ Why.shutdown id rest closing failed) :
    Inv (L.put n (some (PortCall.closed why p))) s := by
  have hold : isShutdown (PortCall.startClose why p code reason) = false := by
    cases why with
    | shutdown _ _ _ _ => exact absurd rfl (hwhy _ _ _ _)
    | _ => rfl
  constructor
  · apply h.order.put (h.not_ended hpending)
    · intro id
      rw [hpending]
      constructor
      · intro hid
        exact ⟨_, rfl, hid⟩
      · rintro ⟨c', hc', hid⟩
        cases hc'
        exact hid
    · intro id hid
      exact h.order.inside n _ id hpending hid
  · apply h.owned.put
    · intro c' why' p' id heq hc' hid
      cases heq
      exact h.owned.captured n _ why' p' id hpending hc' hid
    · intro c' why' p' heq hc'
      cases heq
      exact h.owned.called n _ why' p' hpending hc'
    · intro c' o heq hc'
      cases heq
      apply h.owned.tasked n _ o hpending
      cases why with
      | prior _ _ => exact hc'
      | _ => cases hc'
  · apply h.down.put
    · intro c' hc'
      rw [hpending] at hc'
      cases hc'
      exact hold
    · intro c' heq
      cases heq
      rfl
    · nofun
  · refine { h.fate with late := ?_ }
    refine EveryAfter.mono h.fate.late ?_
    intro e after he m id owner heq
    by_cases hmn : m = n
    · rcases he m id owner heq with ⟨c, hc, hlate, hrest⟩ | hdone
      · rw [hmn, hpending] at hc
        cases hc
        refine Or.inl ⟨PortCall.closed why p, ?_, ?_, Or.inr ?_⟩
        · rw [hmn, Ledger.put_same]
        · cases why with
          | late _ _ => exact hlate
          | _ => cases hlate
        · rcases hrest with hrest | hrest
          · cases hrest
          · exact hrest
      · exact Or.inr hdone
    · exact (he m id owner heq).other hmn _

end Inv

namespace Inv

variable {s : State}

theorem finish (h : Inv L s) {c : PortCall} (hpending : L.pending n = some c)
    {id : JsString} (hfirst : firstOf s.registry.queue id = some n)
    {owners : JsMap JsString Nat} (hdistinct : owners.Distinct)
    (hsame : forall id', id' ≠ id ->
      owners.get id' = s.registry.owners.get id')
    (hleft : forall p, s.registry.owners.get id = some p ->
      owners.get id = some p ∨ Entry.closeCalled p ∈ s.log ∨
      exists m flag, Entry.entered m (Op.remove id p) flag ∈ s.log)
    (hnew : forall p, owners.get id = some p ->
      s.registry.owners.get id = some p ∨ forall m res at',
        Entry.ended m (Op.remove id p) res at' ∈ s.log ->
          exists k flag, Entry.entered k (Op.replace id p) flag ∈ s.log ∧
            m ≤ k)
    {o : Op} {res : Except Thrown Unit} (ho : o ≠ Op.closeAll)
    (hremoved : forall id' p, o = Op.remove id' p ->
      owners.get id' ≠ some p)
    (hgood : Good s.log (Entry.ended n o res owners)) :
    Inv (L.put n none)
      { registry :=
          { s.registry with
            owners := owners
            queue := s.registry.queue.erase (id, n) }
        log := s.log ++ [Entry.ended n o res owners] } := by
  have hsection : sectionOf c = some id := by
    rcases (h.order.waiting id n).mp (mem_of_firstOf hfirst) with
      ⟨c', hc', hsome⟩
    rw [hpending] at hc'
    cases hc'
    exact hsome
  constructor
  · exact h.order.finish hfirst o res owners
  · have hassigned : Owned (L.put n none) owners s.log := by
      apply (h.owned.drop (n := n)).assign hdistinct hsame
      intro m c' why p hm hc'
      rcases Ledger.pending_put.mp hm with ⟨_, heq⟩ | ⟨hne, hm⟩
      · cases heq
      · exact h.order.alone hfirst hne hm hc'
    exact hassigned.grow fun _ he => List.mem_append_left _ he
  · apply ((h.down.finish (mem_of_firstOf hfirst) owners).record _).put
    · intro c' hc'
      rw [hpending] at hc'
      cases hc'
      exact not_shutdown_of_section hsection
    · nofun
    · nofun
    · intro m res' owners' heq
      cases heq
      exact absurd rfl ho
  · have hassigned : Fate (L.put n none) owners s.log := by
      apply (h.fate.put (n := n) (x := none) ?_).assign hsame hleft hnew
      intro c' hc'
      rw [hpending] at hc'
      cases hc'
      exact not_late_of_section hsection
    by_cases hreplaced : isReplaced (Entry.ended n o res owners) = true
    · cases o with
      | replace id' owner =>
          cases res with
          | ok u => exact hassigned.replaced hgood u
          | error e => cases hreplaced
      | _ => cases hreplaced
    · refine hassigned.record hgood (by simpa using hreplaced) rfl ?_
      intro m id' p res' at' heq
      cases heq
      exact hremoved id' p rfl

theorem finishOutside (h : Inv L s) {c : PortCall}
    (hpending : L.pending n = some c) (hn : n < L.next)
    (hsection : sectionOf c = none) (hshut : isShutdown c = false)
    (hlate : lateOf c = none) {o : Op} {res : Except Thrown Unit}
    (hreplaced : isReplaced (Entry.ended n o res s.registry.owners) = false)
    (hclosed : o = Op.closeAll -> exists k res' owners',
      s.registry.shutdownResult = some k ∧
        Entry.ended k Op.closeAll res' owners' ∈ s.log)
    (hremoved : forall id p, o = Op.remove id p ->
      s.registry.owners.get id ≠ some p)
    (hgood : Good s.log (Entry.ended n o res s.registry.owners)) :
    Inv (L.put n none)
      (s.record (Entry.ended n o res s.registry.owners)) := by
  constructor
  · exact h.order.finishOutside hpending hsection hn o res _
  · exact h.owned.drop.grow fun _ he => List.mem_append_left _ he
  · apply (h.down.record _).put
    · intro c' hc'
      rw [hpending] at hc'
      cases hc'
      exact hshut
    · nofun
    · nofun
    · intro m res' owners' heq
      cases heq
      exact hclosed rfl
  · apply (h.fate.put _).record hgood hreplaced rfl
    · intro m id p res' at' heq
      cases heq
      exact hremoved id p rfl
    · intro c' hc'
      rw [hpending] at hc'
      cases hc'
      exact hlate

theorem passed (h : Inv L s) (hn : n < L.next)
    (hclosed : exists k res owners,
      Entry.ended k Op.closeAll res owners ∈ s.log) :
    Inv L (s.record (Entry.passed n s.registry.owners)) := by
  constructor
  · apply h.order.record rfl
    intro m hm
    cases hm
    exact hn
  · exact h.owned.grow fun _ he => List.mem_append_left _ he
  · exact h.down.record nofun
  · exact h.fate.record hclosed rfl rfl nofun

theorem closeLate (h : Inv L s) {id : JsString} {owner : Nat}
    (hpending : L.pending n =
      some (PortCall.barrier (Job.replace id owner)))
    (code : Nat) (reason : Reason) :
    Inv (L.put n (some (PortCall.startClose (Why.late id owner) owner code
        reason)))
      (s.record (Entry.closeCalled owner)) := by
  constructor
  · have hrecord : Order L s.registry.queue
        (s.log ++ [Entry.closeCalled owner]) := h.order.record rfl nofun
    apply hrecord.put
    · rw [hasEnded_snoc, h.not_ended hpending]
      rfl
    · intro id'
      constructor
      · nofun
      · rintro ⟨c', hc', hid⟩
        rw [hpending] at hc'
        cases hc'
        cases hid
    · nofun
  · have hgrown : Owned L s.registry.owners
        (s.log ++ [Entry.closeCalled owner]) :=
      h.owned.grow fun _ he => List.mem_append_left _ he
    apply hgrown.put
    · intro c' why p id' heq hc' hid
      cases heq
      cases hc'
      cases hid
    · intro c' why p heq hc'
      cases heq
      cases hc'
      simp
    · intro c' o heq hc'
      cases heq
      cases hc'
  · apply (h.down.record (e := Entry.closeCalled owner) nofun).put
    · intro c' hc'
      rw [hpending] at hc'
      cases hc'
      rfl
    · intro c' heq
      cases heq
      rfl
    · nofun
  · have hrecord := h.fate.record (e := Entry.closeCalled owner) trivial rfl
      rfl nofun
    refine ⟨hrecord.good, hrecord.kept, ?_, hrecord.removed⟩
    refine everyAfter_snoc.mpr ⟨?_, nofun⟩
    refine EveryAfter.mono h.fate.late ?_
    intro e after he m id' owner' heq
    by_cases hmn : m = n
    · rcases he m id' owner' heq with ⟨c, hc, hlate, _⟩ | hdone
      · rw [hmn, hpending] at hc
        cases hc
        cases hlate
        refine Or.inl ⟨PortCall.startClose (Why.late id owner) owner code
          reason, ?_, rfl, Or.inr (by simp)⟩
        rw [hmn, Ledger.put_same]
      · exact Or.inr ⟨List.mem_append_left _ hdone.1, hdone.2.imp
          fun _ hended => List.mem_append_left _ hended⟩
    · exact ((he m id' owner' heq).other hmn _).record _

theorem finishLate (h : Inv L s) {c : PortCall} {id : JsString}
    {owner : Nat} (hpending : L.pending n = some c) (hn : n < L.next)
    (hclosing : closingOf c = some (Why.late id owner, owner)) :
    Inv (L.put n none)
      (s.record (Entry.ended n (Op.replace id owner)
        (Except.error Thrown.shuttingDown) s.registry.owners)) := by
  have hlate : lateOf c = some (id, owner) := by
    cases c with
    | startClose why p code reason =>
        cases hclosing
        rfl
    | closed why p =>
        cases hclosing
        rfl
    | _ => cases hclosing
  have hsection : sectionOf c = none := by
    cases c with
    | turn _ => cases hclosing
    | _ =>
        show insideOf _ = none
        rw [insideOf_eq hclosing]
        rfl
  have hshut : isShutdown c = false := by
    cases c with
    | startClose why p code reason =>
        cases hclosing
        rfl
    | closed why p => rfl
    | _ => cases hclosing
  have hcalled := h.owned.called n c _ _ hpending hclosing
  constructor
  · exact h.order.finishOutside hpending hsection hn _ _ _
  · exact h.owned.drop.grow fun _ he => List.mem_append_left _ he
  · apply (h.down.record (e := Entry.ended n (Op.replace id owner)
      (Except.error Thrown.shuttingDown) s.registry.owners) nofun).put
    · intro c' hc'
      rw [hpending] at hc'
      cases hc'
      exact hshut
    · nofun
    · nofun
  · have hrecord := h.fate.record (e := Entry.ended n (Op.replace id owner)
      (Except.error Thrown.shuttingDown) s.registry.owners) hcalled rfl rfl
      nofun
    refine ⟨hrecord.good, hrecord.kept, ?_, hrecord.removed⟩
    refine everyAfter_snoc.mpr ⟨?_, nofun⟩
    refine EveryAfter.mono h.fate.late ?_
    intro e after he m id' owner' heq
    by_cases hmn : m = n
    · rcases he m id' owner' heq with ⟨c', hc', hlate', hrest⟩ | hdone
      · rw [hmn, hpending] at hc'
        cases hc'
        rw [hlate] at hlate'
        cases hlate'
        rcases hrest with hrest | hrest
        · rw [hrest] at hclosing
          cases hclosing
        · refine Or.inr ⟨List.mem_append_left _ hrest, s.registry.owners, ?_⟩
          rw [hmn]
          simp
      · exact Or.inr ⟨List.mem_append_left _ hdone.1, hdone.2.imp
          fun _ hended => List.mem_append_left _ hended⟩
    · exact ((he m id' owner' heq).other hmn _).record _

end Inv

/-!
## Closing every owner
-/

/-- A shutdown that runs: nothing is queued, the owners in `called` were
called, those in `rest` come next. -/
structure Draining (L : Ledger ports) (s : State) (n : Nat)
    (called rest : List (JsString × Nat)) : Prop where
  order : Order L s.registry.queue s.log
  owned : Owned L s.registry.owners s.log
  fate : Fate L s.registry.owners s.log
  running : L.pending n = none
  unended : hasEnded s.log n = false
  flag : s.registry.shuttingDown = true
  result : s.registry.shutdownResult = some n
  queue : s.registry.queue = []
  others : forall m c, L.pending m = some c -> isShutdown c = false
  joined : forall m k, L.pending m = some (PortCall.shutdownResult k) -> n = k
  first : forall m res owners,
    Entry.ended m Op.closeAll res owners ∉ s.log
  left : forall x, x ∈ s.registry.owners -> x ∈ called ++ rest
  calls : forall x, x ∈ called -> Entry.closeCalled x.2 ∈ s.log
  covered : exists owners, Entry.drained n owners ∈ s.log ∧
    forall x, x ∈ owners -> Entry.closeCalled x.2 ∈ s.log ∨ x ∈ rest

theorem isShutdown_of_left {c : PortCall}
    {x : List (JsString × Nat) × List (JsString × Nat)}
    (h : leftOf c = some x) : isShutdown c = true := by
  cases c with
  | drained _ => rfl
  | _ => simp [isShutdown, h]

theorem section_of_shutdown {c : PortCall} (h : isShutdown c = true) :
    sectionOf c = none ∧ lateOf c = none := by
  cases c with
  | startClose why _ _ _ =>
      cases why with
      | shutdown _ _ _ _ => exact ⟨rfl, rfl⟩
      | _ => cases h
  | drained _ => exact ⟨rfl, rfl⟩
  | nextClosed _ _ => exact ⟨rfl, rfl⟩
  | _ => cases h

theorem Order.dropOutside {queue : List (JsString × Nat)} {log : List Entry}
    (h : Order L queue log) {c : PortCall} (hpending : L.pending n = some c)
    (hc : sectionOf c = none) : Order (L.put n none) queue log := by
  refine { h with ended := ?_, waiting := ?_, inside := ?_ }
  · intro m hm
    by_cases hmn : m = n
    · rw [hmn, Ledger.put_same]
    · rw [Ledger.put_other _ _ hmn]
      exact h.ended m hm
  · intro id m
    rw [h.waiting]
    by_cases hmn : m = n
    · rw [hmn, hpending]
      simp [hc]
    · rw [Ledger.put_other _ _ hmn]
  · intro m c' id hm hc'
    rcases Ledger.pending_put.mp hm with ⟨_, heq⟩ | ⟨_, hm⟩
    · cases heq
    · exact h.inside m c' id hm hc'

namespace Draining

variable {s : State} {called rest : List (JsString × Nat)}

theorem of_inv (h : Inv L s) {c : PortCall} (hpending : L.pending n = some c)
    (hshut : isShutdown c = true) (hqueue : s.registry.queue = [])
    (hleft : forall x, x ∈ s.registry.owners -> x ∈ called ++ rest)
    (hcalls : forall x, x ∈ called -> Entry.closeCalled x.2 ∈ s.log)
    (hcovered : exists owners, Entry.drained n owners ∈ s.log ∧
      forall x, x ∈ owners -> Entry.closeCalled x.2 ∈ s.log ∨ x ∈ rest) :
    Draining (L.put n none) s n called rest := by
  have hresult := h.down.single n c hpending hshut
  constructor
  · exact h.order.dropOutside hpending (section_of_shutdown hshut).1
  · exact h.owned.drop
  · apply h.fate.put
    intro c' hc'
    rw [hpending] at hc'
    cases hc'
    exact (section_of_shutdown hshut).2
  · exact Ledger.put_same _ _ _
  · exact h.not_ended hpending
  · rw [h.down.flag, hresult]
    rfl
  · exact hresult
  · exact hqueue
  · intro m c' hm
    rcases Ledger.pending_put.mp hm with ⟨_, heq⟩ | ⟨hne, hm⟩
    · cases heq
    · by_contra hc'
      have hm' := h.down.single m c' hm (by simpa using hc')
      rw [hresult] at hm'
      exact hne (Option.some.inj hm').symm
  · intro m k hm
    rcases Ledger.pending_put.mp hm with ⟨_, heq⟩ | ⟨_, hm⟩
    · cases heq
    · have hk := h.down.joined m k hm
      rw [hresult] at hk
      exact Option.some.inj hk
  · intro m res owners hm
    rcases h.down.closed m res owners hm with ⟨k, _, _, hk, hended⟩
    rw [hresult] at hk
    cases hk
    rw [h.order.ended n (hasEnded_of_mem hended)] at hpending
    cases hpending
  · exact hleft
  · exact hcalls
  · exact hcovered

theorem drained (h : Inv L s) {operations : List Nat}
    (hpending : L.pending n = some (PortCall.drained operations))
    (hn : n < L.next)
    (hnone : forall x, x ∈ s.registry.queue -> x.2 ∉ operations) :
    Draining (L.put n none)
      (s.record (Entry.drained n s.registry.owners)) n []
      s.registry.owners := by
  have hrecord : Inv L (s.record (Entry.drained n s.registry.owners)) := by
    constructor
    · apply h.order.record rfl
      intro m hm
      cases hm
      exact hn
    · exact h.owned.grow fun _ he => List.mem_append_left _ he
    · exact h.down.record nofun
    · exact h.fate.record trivial rfl rfl nofun
  have hqueue : s.registry.queue = [] := by
    rcases h.down.phase n (h.down.single n _ hpending rfl) with
      ⟨ops, hops, hcover⟩ | ⟨hqueue, _⟩
    · rw [hpending] at hops
      cases hops
      rw [List.eq_nil_iff_forall_not_mem]
      intro x hx
      exact hnone x hx (hcover x hx)
    · exact hqueue
  apply of_inv hrecord hpending rfl hqueue
  · exact fun x hx => hx
  · nofun
  · exact ⟨s.registry.owners, by simp [State.record], fun x hx => Or.inr hx⟩

theorem awake (h : Inv L s) {c : PortCall} (hpending : L.pending n = some c)
    (hc : leftOf c = some (called, rest)) :
    Draining (L.put n none) s n called rest := by
  have hshut := isShutdown_of_left hc
  rcases h.down.phase n (h.down.single n c hpending hshut) with
    ⟨ops, hops, _⟩ | ⟨hqueue, owners, hlog, hl⟩
  · rw [hpending] at hops
    cases hops
    cases hc
  · rcases hl with ⟨c', called', rest', hc', hcr, hleft, hcalls, hcovered⟩ |
      ⟨_, _, hended, _⟩
    · rw [hpending] at hc'
      cases hc'
      rw [hc] at hcr
      cases hcr
      exact of_inv h hpending hshut hqueue hleft hcalls
        ⟨owners, hlog, hcovered⟩
    · rw [h.order.ended n (hasEnded_of_mem hended)] at hpending
      cases hpending

theorem wait (h : Draining L s n called rest) {c : PortCall}
    (hc : leftOf c = some (called, rest))
    (hclosing : forall why p, closingOf c = some (why, p) ->
      why.captures = none ∧ Entry.closeCalled p ∈ s.log) :
    Inv (L.put n (some c)) s := by
  have hshut := isShutdown_of_left hc
  have hsection := (section_of_shutdown hshut).1
  constructor
  · apply h.order.put h.unended
    · intro id
      rw [hsection, h.running]
      simp
    · intro id hid
      have hin : insideOf c = sectionOf c := by
        cases c with
        | turn _ => cases hc
        | _ => rfl
      rw [hin, hsection] at hid
      cases hid
  · apply h.owned.put
    · intro c' why p id heq hc' hid
      cases heq
      rw [(hclosing why p hc').1] at hid
      cases hid
    · intro c' why p heq hc'
      cases heq
      exact (hclosing why p hc').2
    · intro c' o heq htask
      cases heq
      cases c with
      | startClose why _ _ _ =>
          cases why with
          | shutdown _ _ _ _ => cases htask
          | _ => cases hc
      | nextClosed _ _ => cases htask
      | _ => cases hc
  · rcases h.covered with ⟨owners, hlog, hcovered⟩
    constructor
    · rw [h.flag, h.result]
      rfl
    · intro k hk
      rw [h.result] at hk
      cases hk
      exact Or.inr ⟨h.queue, owners, hlog, Or.inl ⟨c, called, rest,
        Ledger.put_same _ _ _, hc, h.left, h.calls, hcovered⟩⟩
    · intro m c' hm hc'
      rcases Ledger.pending_put.mp hm with ⟨hmn, _⟩ | ⟨_, hm⟩
      · rw [hmn]
        exact h.result
      · rw [h.others m c' hm] at hc'
        cases hc'
    · intro m k hm
      rcases Ledger.pending_put.mp hm with ⟨_, heq⟩ | ⟨_, hm⟩
      · cases heq
        cases hc
      · rw [h.result, h.joined m k hm]
    · intro m res owners' hm
      exact absurd hm (h.first m res owners')
  · apply h.fate.put
    intro c' hc'
    rw [h.running] at hc'
    cases hc'

theorem call {id : JsString} {owner : Nat}
    (h : Draining L s n called ((id, owner) :: rest)) :
    Draining L (s.record (Entry.closeCalled owner)) n
      ((id, owner) :: called) rest := by
  rcases h.covered with ⟨owners, hlog, hcovered⟩
  refine { h with
    order := h.order.record rfl nofun
    owned := h.owned.grow fun _ he => List.mem_append_left _ he
    fate := h.fate.record trivial rfl rfl nofun
    unended := ?_
    first := ?_
    left := ?_
    calls := ?_
    covered := ⟨owners, List.mem_append_left _ hlog, ?_⟩ }
  · show hasEnded (s.log ++ [Entry.closeCalled owner]) n = false
    rw [hasEnded_snoc, h.unended]
    rfl
  · intro m res owners' hm
    have hold : Entry.ended m Op.closeAll res owners' ∈ s.log := by
      simpa [State.record] using hm
    exact h.first m res owners' hold
  · intro x hx
    have hmem := h.left x hx
    simp only [List.mem_append, List.mem_cons] at hmem ⊢
    tauto
  · intro x hx
    rcases List.mem_cons.mp hx with hx | hx
    · rw [hx]
      simp [State.record]
    · exact List.mem_append_left _ (h.calls x hx)
  · intro x hx
    rcases hcovered x hx with hx | hx
    · exact Or.inl (List.mem_append_left _ hx)
    · rcases List.mem_cons.mp hx with hx | hx
      · rw [hx]
        left
        simp [State.record]
      · exact Or.inr hx

theorem forget {id : JsString} {owner : Nat}
    (h : Draining L s n called rest) (hmem : (id, owner) ∈ called)
    {called' : List (JsString × Nat)}
    (hsub : forall x, x ∈ called -> x ≠ (id, owner) -> x ∈ called')
    (hsub' : forall x, x ∈ called' -> x ∈ called) :
    Draining L
      (if s.registry.owners.get id = some owner then
        { s with registry :=
            { s.registry with owners := s.registry.owners.delete id } }
      else s) n called' rest := by
  have hkeep : forall x, x ∈ s.registry.owners -> x ≠ (id, owner) ->
      x ∈ called' ++ rest := by
    intro x hx hne
    rcases List.mem_append.mp (h.left x hx) with hx | hx
    · exact List.mem_append_left _ (hsub x hx hne)
    · exact List.mem_append_right _ hx
  by_cases hget : s.registry.owners.get id = some owner
  · rw [if_pos hget]
    have hsame : forall id', id' ≠ id ->
        JsMap.get (s.registry.owners.delete id) id' =
          s.registry.owners.get id' := by
      intro id' hne
      rw [JsMap.get_delete, if_neg fun heq => hne heq.symm]
    refine { h with owned := ?_, fate := ?_, left := ?_, calls := ?_ }
    · apply h.owned.assign (JsMap.distinct_delete h.owned.distinct id) hsame
      intro m c why p hm hc hid
      have hin : insideOf c = some id := by
        rw [insideOf_eq hc, section_of_captures hid]
      have hsection : sectionOf c = some id := by
        cases c with
        | turn _ => cases hc
        | _ => exact hin
      have hqueued := (h.order.waiting id m).mpr ⟨c, hm, hsection⟩
      rw [h.queue] at hqueued
      cases hqueued
    · apply h.fate.assign hsame
      · intro owner' howner'
        rw [hget] at howner'
        cases howner'
        exact Or.inr (Or.inl (h.calls _ hmem))
      · intro owner' howner'
        rw [JsMap.get_delete, if_pos rfl] at howner'
        cases howner'
    · intro x hx
      rcases JsMap.mem_delete.mp hx with ⟨hx, hne⟩
      exact hkeep x hx fun heq => hne (by rw [heq])
    · intro x hx
      exact h.calls x (hsub' x hx)
  · rw [if_neg hget]
    refine { h with left := ?_, calls := fun x hx => h.calls x (hsub' x hx) }
    intro x hx
    refine hkeep x hx ?_
    intro heq
    rw [heq] at hx
    exact hget (JsMap.get_of_mem h.owned.distinct hx)

theorem regroup (h : Draining L s n called rest)
    {called' : List (JsString × Nat)}
    (hiff : forall x, x ∈ called' <-> x ∈ called) :
    Draining L s n called' rest := by
  refine { h with left := ?_, calls := ?_ }
  · intro x hx
    have hmem := h.left x hx
    rw [List.mem_append] at hmem ⊢
    rw [hiff]
    exact hmem
  · intro x hx
    exact h.calls x ((hiff x).mp hx)

theorem finish (h : Draining L s n [] []) (hn : n < L.next)
    (res : Except Thrown Unit) :
    Inv L (s.record (Entry.ended n Op.closeAll res s.registry.owners)) := by
  have hempty : s.registry.owners = [] := by
    rw [List.eq_nil_iff_forall_not_mem]
    intro x hx
    cases h.left x hx
  rcases h.covered with ⟨owners, hlog, hcovered⟩
  have hcalled : forall x, x ∈ owners -> Entry.closeCalled x.2 ∈ s.log := by
    intro x hx
    rcases hcovered x hx with hx | hx
    · exact hx
    · cases hx
  have hwait := h.wait (c := PortCall.nextClosed [] false) rfl nofun
  have hback : L.put n none = L := Ledger.put_none h.running
  constructor
  · have hdone := hwait.order.finishOutside (n := n) (Ledger.put_same _ _ _)
      rfl hn Op.closeAll res s.registry.owners
    rw [Ledger.put_put, hback] at hdone
    exact hdone
  · exact h.owned.grow fun _ he => List.mem_append_left _ he
  · constructor
    · show s.registry.shuttingDown = s.registry.shutdownResult.isSome
      rw [h.flag, h.result]
      rfl
    · intro k hk
      change s.registry.shutdownResult = some k at hk
      rw [h.result] at hk
      cases hk
      refine Or.inr ⟨h.queue, owners, List.mem_append_left _ hlog,
        Or.inr ⟨res, s.registry.owners, by simp [State.record], hempty, ?_⟩⟩
      intro x hx
      exact List.mem_append_left _ (hcalled x hx)
    · intro m c hm hc
      rw [h.others m c hm] at hc
      cases hc
    · intro m k hm
      show s.registry.shutdownResult = some k
      rw [h.result, h.joined m k hm]
    · intro m res' owners' hm
      rcases List.mem_append.mp hm with hm | hm
      · exact absurd hm (h.first m res' owners')
      · cases List.mem_singleton.mp hm
        exact ⟨n, res, s.registry.owners, h.result, by simp [State.record]⟩
  · exact h.fate.record ⟨hempty, n, owners, hlog, hcalled⟩ rfl rfl nofun

end Draining

end Moves

/-!
## The operations

Every piece of code keeps the invariant where it waits.
-/

section Walk

variable {L : Ledger ports} {n : Nat} {s : State}

theorem owes_call {result : Type} {c : PortCall}
    {k : PortReply c -> Code result}
    {Q : Except Thrown result -> Ledger ports -> State -> Prop}
    (hinv : Inv (L.put n (some c)) (issue n c s))
    (hk : forall L' t r, Ledger.pending L' n = some c -> n < L'.next ->
      Inv L' t -> allowed t n c r ->
      (k r).owes alone Inv n Q (L'.put n none) (reply n c r t)) :
    (Prog.call (I := ports) c k).owes alone Inv n Q L s := by
  have hc : boundary c ≠ Boundary.sync := by
    cases c with
    | _ => nofun
  exact (Prog.owes_wait (M := alone) hc).mpr
    ⟨hinv, fun L' t r hpending hn _ => hk L' t r hpending hn⟩

/-- `closeOwner`, for an owner that is not closed by a shutdown. -/
theorem owes_closeOwner {why : Why} {p code : Nat} {reason : Reason}
    {Q : Except Thrown Unit -> Ledger ports -> State -> Prop}
    (hwhy : forall id rest closing failed,
      why ≠ Why.shutdown id rest closing failed)
    (hinv : Inv (L.put n (some (PortCall.startClose why p code reason)))
      (s.record (Entry.closeCalled p)))
    (hQ : forall L' t c res, Ledger.pending L' n = some c ->
      closingOf c = some (why, p) -> n < L'.next -> Inv L' t ->
      Q res (L'.put n none) t) :
    (closeOwner host why p code reason).owes alone Inv n Q L s := by
  unfold closeOwner
  refine owes_call (c := PortCall.startClose why p code reason) hinv ?_
  intro L' t r hpending hn hinv' _
  cases r with
  | error u => exact hQ L' t _ _ hpending rfl hn hinv'
  | ok u =>
      refine owes_call (c := PortCall.closed why p) ?_ ?_
      · rw [Ledger.put_put]
        exact hinv'.promised hpending hwhy
      · intro L'' t' r' hpending' hn' hinv'' _
        cases r' with
        | error u' => exact hQ L'' t' _ _ hpending' rfl hn' hinv''
        | ok u' => exact hQ L'' t' _ _ hpending' rfl hn' hinv''

def forgotten (id : JsString) (owner : Nat) (s : State) : State :=
  if s.registry.owners.get id = some owner then
    { s with registry :=
        { s.registry with owners := s.registry.owners.delete id } }
  else s

theorem owes_forget {id : JsString} {owner : Nat}
    {Q : Except Thrown Unit -> Ledger ports -> State -> Prop} :
    (forget host id owner).owes alone Inv n Q L s <->
      Q (Except.ok ()) L (forgotten id owner s) := by
  unfold forget registered forgotten
  simp only [Prog.read_bind, Prog.act_bind, Prog.owes_act, id_eq,
    Prog.pure_eq, Prog.ret_bind]
  show Prog.owes alone Inv n Q
    (if s.registry.owners.get id = some owner then _ else _) L s <-> _
  split
  · exact Iff.rfl
  · exact Iff.rfl

theorem forgotten_owners (id : JsString) (owner : Nat) (s : State) :
    (forgotten id owner s).registry.owners =
      if s.registry.owners.get id = some owner then
        s.registry.owners.delete id
      else s.registry.owners := by
  unfold forgotten
  split
  · rfl
  · rfl

theorem forgotten_eq (id : JsString) (owner : Nat) (s : State) :
    forgotten id owner s = { s with registry :=
      { s.registry with owners := (forgotten id owner s).registry.owners } } :=
    by
  unfold forgotten
  split
  · rfl
  · rfl

theorem Inv.finishForget (h : Inv L s) {c : PortCall}
    (hpending : L.pending n = some c) {id : JsString} {owner : Nat}
    (hfirst : firstOf s.registry.queue id = some n)
    (hleft : s.registry.owners.get id = some owner ->
      Entry.closeCalled owner ∈ s.log ∨
      exists m flag, Entry.entered m (Op.remove id owner) flag ∈ s.log)
    {o : Op} {res : Except Thrown Unit} (ho : o ≠ Op.closeAll)
    (hremoved : forall id' p, o = Op.remove id' p -> id' = id ∧ p = owner)
    (hgood : Good s.log (Entry.ended n o res
      (forgotten id owner s).registry.owners)) :
    Inv (L.put n none)
      { registry :=
          { s.registry with
            owners := (forgotten id owner s).registry.owners
            queue := s.registry.queue.erase (id, n) }
        log := s.log ++ [Entry.ended n o res
          (forgotten id owner s).registry.owners] } := by
  have hget : forall id', JsMap.get (forgotten id owner s).registry.owners id'
      = if s.registry.owners.get id = some owner ∧ id = id' then none
        else s.registry.owners.get id' := by
    intro id'
    rw [forgotten_owners]
    by_cases howner : s.registry.owners.get id = some owner
    · rw [if_pos howner, JsMap.get_delete]
      simp [howner]
    · rw [if_neg howner]
      simp [howner]
  apply h.finish hpending hfirst _ _ _ _ ho _ hgood
  · rw [forgotten_owners]
    split
    · exact JsMap.distinct_delete h.owned.distinct id
    · exact h.owned.distinct
  · intro id' hne
    rw [hget, if_neg fun hboth => hne hboth.2.symm]
  · intro p hp
    by_cases howner : s.registry.owners.get id = some owner
    · rw [howner] at hp
      cases hp
      exact Or.inr (hleft howner)
    · left
      rw [hget, if_neg fun hboth => howner hboth.1]
      exact hp
  · intro p hp
    left
    rw [hget] at hp
    split at hp
    · cases hp
    · exact hp
  · intro id' p heq hp
    rcases hremoved id' p heq with ⟨hid, hpo⟩
    rw [hid, hpo, hget] at hp
    split at hp
    · cases hp
    · rename_i hnone
      exact hnone ⟨hp, rfl⟩

theorem owes_serialize (h : Inv L s) (hfree : L.pending L.next = none)
    (hdown : s.registry.shuttingDown = false) {o : Op} {job : Job}
    {operation : Code Unit}
    (hjob : forall o', taskOf (PortCall.turn job) = some o' -> o = o')
    (hrun : forall L' t, Ledger.pending L' L.next =
        some (PortCall.turn job) ->
      L.next < L'.next -> Inv L' t ->
      firstOf t.registry.queue job.sessionId = some L.next ->
      operation.owes alone Inv L.next
        (fun res L'' t' => Inv L''
          (State.record { t' with registry :=
              { t'.registry with
                queue := t'.registry.queue.erase (job.sessionId, L.next) } }
            (Entry.ended L.next o res t'.registry.owners)))
        (L'.put L.next none)
        (t.record (Entry.began L.next job.sessionId t.registry.owners))) :
    (serialize host L.next job operation).owes alone Inv L.next
      (finalOwes alone Inv L.next o) { L with next := L.next + 1 }
      (s.record (Entry.entered L.next o s.registry.shuttingDown)) := by
  unfold serialize
  rw [Prog.modify_bind, Prog.owes_act]
  refine owes_call (c := PortCall.turn job) ?_ ?_
  · exact h.enqueue hfree hdown hjob
  · intro L' t r hpending hn hinv hfirst
    show Prog.owes alone Inv L.next _ (Prog.always operation _) _ _
    rw [Prog.owes_always]
    refine Prog.owes_mono ?_ (hrun L' t hpending hn hinv hfirst)
    intro res L'' t' hend
    cases res with
    | ok u => exact hend
    | error e => exact hend

theorem began_mem (s : State) (n : Nat) (id : JsString) :
    Entry.began n id s.registry.owners ∈
      (s.record (Entry.began n id s.registry.owners)).log := by
  simp [State.record]

/-- The new owner is closed where a replacement fails. -/
theorem owes_rejected (h : Inv L s) {c : PortCall}
    (hpending : L.pending n = some c) {id : JsString} {owner : Nat}
    (hsection : sectionOf c = some id) {at' : JsMap JsString Nat}
    (hbegan : Entry.began n id at' ∈ s.log) (e : Thrown) :
    ((do
      closeRejectedOwner host (Why.rejected id owner) owner 1011
        Reason.registration_failed
      throw e : Code Unit)).owes alone Inv n
      (fun res L'' t' => Inv L''
        (State.record { t' with registry :=
            { t'.registry with
              queue := t'.registry.queue.erase (id, n) } }
          (Entry.ended n (Op.replace id owner) res t'.registry.owners)))
      (L.put n none) s := by
  unfold closeRejectedOwner
  rw [Prog.owes_bind, Prog.owes_tryCatch]
  refine owes_closeOwner nofun ?_ ?_
  · rw [Ledger.put_put]
    refine h.callClose hpending hsection hbegan rfl ?_ ?_ _ _
    · nofun
    · nofun
  · intro L' t c' res hpending' hclosing _ hinv
    have hbegan' : exists owners, Entry.began n id owners ∈ t.log := by
      apply hinv.order.inside n c' id hpending'
      rw [insideOf_eq hclosing]
      rfl
    rcases hbegan' with ⟨owners, hlog⟩
    have hgood : Good t.log (Entry.ended n (Op.replace id owner)
        (Except.error e) t.registry.owners) :=
      hinv.owned.called n c' _ _ hpending' hclosing
    have ho : Op.replace id owner ≠ Op.closeAll := nofun
    have hfinish := hinv.finish hpending' (hinv.first hpending' hlog)
      hinv.owned.distinct (fun _ _ => rfl) (fun _ hp => Or.inl hp)
      (fun _ hp => Or.inl hp) ho nofun hgood
    cases res with
    | ok u => exact hfinish
    | error e' => exact hfinish

/-- What is queued for a session before one of its operations begins. -/
theorem Order.queued_before {queue : List (JsString × Nat)}
    {log before after : List Entry} {id : JsString} {m k : Nat}
    {owners : JsMap JsString Nat} (h : Order L queue log)
    (hlog : log = before ++ Entry.began m id owners :: after)
    (hm : Entry.queued m id ∈ before) (hk : Entry.queued k id ∈ log)
    (hlt : k < m) : Entry.queued k id ∈ before := by
  rw [hlog] at hk
  rcases List.mem_append.mp hk with hk | hk
  · exact hk
  · exfalso
    have hsorted := h.sorted
    rw [hlog] at hsorted
    unfold queuedOf at hsorted
    rw [List.filterMap_append, List.map_append,
      List.pairwise_append] at hsorted
    have hgt := hsorted.2.2 m (List.mem_map.mpr ⟨(id, m),
      mem_queuedOf.mpr hm, rfl⟩) k (List.mem_map.mpr ⟨(id, k),
      mem_queuedOf.mpr hk, rfl⟩)
    omega

/-- A removal that was called after an operation that is still in the queue
has not ended. -/
theorem Inv.unremoved (h : Inv L s) {id : JsString} {owner : Nat}
    (hfirst : firstOf s.registry.queue id = some n) {m : Nat}
    {res : Except Thrown Unit} {at' : JsMap JsString Nat}
    (hm : Entry.ended m (Op.remove id owner) res at' ∈ s.log) : m ≤ n := by
  rcases h.order.mem_queue.mp (mem_of_firstOf hfirst) with ⟨hqueued, hopen⟩
  by_contra hlt
  rcases List.append_of_mem hm with ⟨before, after, hlog⟩
  have hgood := h.fate.good before _ after hlog
  have hended : (exists pre, before = pre ++ [Entry.passed m at']) ∨
      exists pre prior, before = pre ++ [Entry.began m id prior] ∧
        at' = if prior.get id = some owner then prior.delete id
          else prior := by
    cases res with
    | _ => exact hgood
  rcases hended with ⟨pre, hpre⟩ | ⟨pre, prior, hpre, _⟩
  · rw [hpre, List.append_assoc] at hlog
    rcases h.fate.good pre _ _ hlog with ⟨k, res', owners, hk⟩
    have hclosed : Entry.ended k Op.closeAll res' owners ∈ s.log := by
      rw [hlog]
      exact List.mem_append_left _ hk
    have hqueue := (h.down.settled h.order.ended hclosed).2
    have hmem := mem_of_firstOf hfirst
    rw [hqueue] at hmem
    cases hmem
  · rw [hpre, List.append_assoc] at hlog
    have hbegan := h.fate.good pre _ _ hlog
    have hbefore := h.order.queued_before hlog hbegan.1 hqueued
      (Nat.lt_of_not_le hlt)
    have hdone := hbegan.2.1 n hbefore (Nat.lt_of_not_le hlt)
    have hdone' : hasEnded s.log n = true := by
      rw [hlog]
      unfold hasEnded at hdone ⊢
      rw [List.any_append, hdone, Bool.true_or]
    rw [hopen] at hdone'
    cases hdone'

theorem Inv.finishReplace (h : Inv L s) {c : PortCall}
    (hpending : L.pending n = some c) {id : JsString} {owner : Nat}
    (hfirst : firstOf s.registry.queue id = some n)
    (htask : taskOf c = some (Op.replace id owner))
    (hleft : forall p, s.registry.owners.get id = some p -> p ≠ owner ->
      Entry.closeCalled p ∈ s.log) :
    Inv (L.put n none)
      { registry :=
          { s.registry with
            owners := s.registry.owners.set id owner
            queue := s.registry.queue.erase (id, n) }
        log := s.log ++ [Entry.ended n (Op.replace id owner) (Except.ok ())
          (s.registry.owners.set id owner)] } := by
  have hget : JsMap.get (s.registry.owners.set id owner) id = some owner := by
    rw [JsMap.get_set, if_pos rfl]
  have hgood : Good s.log (Entry.ended n (Op.replace id owner)
      (Except.ok ()) (s.registry.owners.set id owner)) := hget
  have ho : Op.replace id owner ≠ Op.closeAll := nofun
  apply h.finish hpending hfirst
    (JsMap.distinct_set h.owned.distinct id owner) _ _ _ ho nofun hgood
  · intro id' hne
    rw [JsMap.get_set, if_neg fun heq => hne heq.symm]
  · intro p hp
    by_cases hpo : p = owner
    · left
      rw [hpo]
      exact hget
    · exact Or.inr (Or.inl (hleft p hp hpo))
  · intro p hp
    rw [hget] at hp
    cases hp
    right
    intro m res at' hm
    rcases h.owned.tasked n c _ hpending htask with ⟨flag, hlog⟩
    exact ⟨n, flag, hlog, h.unremoved hfirst hm⟩

theorem owes_register (h : Inv L s) {id : JsString} {owner : Nat}
    (hpending : L.pending n =
      some (PortCall.turn (Job.replace id owner)))
    (hfirst : firstOf s.registry.queue id = some n) :
    (register host id owner).owes alone Inv n
      (fun res L'' t' => Inv L''
        (State.record { t' with registry :=
            { t'.registry with
              queue := t'.registry.queue.erase (id, n) } }
          (Entry.ended n (Op.replace id owner) res t'.registry.owners)))
      (L.put n none)
      (s.record (Entry.began n id s.registry.owners)) := by
  have hbegin := h.begin hfirst
  have hfirst' : firstOf (s.record (Entry.began n id
      s.registry.owners)).registry.queue id = some n := hfirst
  unfold register registered
  rw [Prog.owes_tryCatch]
  simp only [Prog.read_bind, Prog.act_bind, Prog.owes_act, id_eq,
    Prog.pure_eq, Prog.ret_bind]
  cases hget : s.registry.owners.get id with
  | none =>
      have hget' : (host.registry (s.record (Entry.began n id
          s.registry.owners))).owners.get id = none := hget
      simp only [hget', Prog.owes_act, id_eq, if_true]
      refine hbegin.finishReplace hpending hfirst' rfl ?_
      intro p hp
      cases hget.symm.trans hp
  | some p =>
      have hget' : (host.registry (s.record (Entry.began n id
          s.registry.owners))).owners.get id = some p := hget
      simp only [hget']
      by_cases hp : p = owner
      · simp only [hp, ne_eq, not_true, if_false, Prog.owes_act, id_eq]
        rw [hp] at hget'
        simp only [hget', if_true]
        refine hbegin.finishReplace hpending hfirst' rfl ?_
        intro p' hp' hne
        have heq := hget.symm.trans hp'
        cases heq
        exact absurd hp hne
      · simp only [hp, ne_eq, not_false_iff, if_true]
        rw [Prog.owes_bind]
        refine owes_closeOwner (fun _ _ _ _ h => by cases h) ?_ ?_
        · rw [Ledger.put_put]
          refine hbegin.callClose hpending rfl (began_mem s n id) rfl
            (fun _ => hget) ?_ _ _
          intro id' owner' heq
          cases heq
          exact hbegin.owned.tasked n _ _ hpending rfl
        · intro L' t c res hpending' hclosing _ hinv
          have hinside : insideOf c = some id := insideOf_eq hclosing
          have hsection : sectionOf c = some id := by
            cases c with
            | turn _ => cases hclosing
            | _ => exact hinside
          rcases hinv.order.inside n c id hpending' hinside with
            ⟨owners, hlog⟩
          cases res with
          | error e => exact owes_rejected hinv hpending' hsection hlog e
          | ok u =>
              have hcaptured : (host.registry t).owners.get id = some p :=
                hinv.owned.captured n c _ p id hpending' hclosing rfl
              show Prog.owes alone Inv n _ _ _ _
              simp only [Prog.owes_act, id_eq, hcaptured, if_true]
              have htask : taskOf c = some (Op.replace id owner) := by
                cases c with
                | startClose _ _ _ _ =>
                    cases hclosing
                    rfl
                | closed _ _ =>
                    cases hclosing
                    rfl
                | _ => cases hclosing
              refine hinv.finishReplace hpending'
                (hinv.first hpending' hlog) htask ?_
              intro p' hp' _
              have heq := hcaptured.symm.trans hp'
              cases heq
              exact hinv.owned.called n c _ p hpending' hclosing

theorem owes_replace (h : Inv L s) (hfree : L.pending L.next = none)
    (id : JsString) (owner : Nat) :
    (replace host L.next id owner).owes alone Inv L.next
      (finalOwes alone Inv L.next (Op.replace id owner))
      { L with next := L.next + 1 }
      (s.record (Entry.entered L.next (Op.replace id owner)
        s.registry.shuttingDown)) := by
  unfold replace
  rw [Prog.read_bind, Prog.owes_act]
  by_cases hdown : s.registry.shuttingDown = true
  · rw [if_pos (by exact hdown)]
    refine owes_call (c := PortCall.barrier (Job.replace id owner)) ?_ ?_
    · refine h.enter hfree rfl rfl rfl nofun ?_
      intro id' owner' heq
      cases heq
      rfl
    · intro L' t r hpending hn hinv hallowed
      rcases hallowed with ⟨k, res, owners, _, hclosed⟩
      have hpassed := hinv.passed hn ⟨k, res, owners, hclosed⟩
      unfold closeRejectedOwner
      show Prog.owes alone Inv L.next _ (tryCatch _ _ >>= _) _ _
      rw [Prog.owes_bind, Prog.owes_tryCatch]
      refine owes_closeOwner nofun ?_ ?_
      · rw [Ledger.put_put]
        exact hpassed.closeLate hpending _ _
      · intro L'' t' c res hpending' hclosing hn' hinv'
        have hfinish := hinv'.finishLate hpending' hn' hclosing
        cases res with
        | ok u => exact hfinish
        | error e => exact hfinish
  · rw [if_neg (by exact hdown)]
    refine owes_serialize h hfree (by simpa using hdown) ?_ ?_
    · intro o' htask
      cases htask
      rfl
    · intro L' t hpending _ hinv hfirst
      exact owes_register hinv hpending hfirst

theorem owes_remove (h : Inv L s) (hfree : L.pending L.next = none)
    (id : JsString) (owner : Nat) :
    (remove host L.next id owner).owes alone Inv L.next
      (finalOwes alone Inv L.next (Op.remove id owner))
      { L with next := L.next + 1 }
      (s.record (Entry.entered L.next (Op.remove id owner)
        s.registry.shuttingDown)) := by
  unfold remove
  rw [Prog.read_bind, Prog.owes_act]
  by_cases hdown : s.registry.shuttingDown = true
  · rw [if_pos (by exact hdown)]
    refine owes_call (c := PortCall.barrier (Job.remove id owner)) ?_ ?_
    · exact h.enter hfree rfl rfl rfl nofun nofun
    · intro L' t r hpending hn hinv hallowed
      rcases hallowed with ⟨k, res, owners, _, hclosed⟩
      refine (hinv.passed hn ⟨k, res, owners, hclosed⟩).finishOutside hpending
        hn rfl rfl rfl rfl nofun ?_ (Or.inl ⟨t.log, rfl⟩)
      intro id' p _
      have hempty := (hinv.down.settled hinv.order.ended hclosed).1.1
      show t.registry.owners.get id' ≠ some p
      rw [hempty]
      nofun
  · rw [if_neg (by exact hdown)]
    refine owes_serialize h hfree (by simpa using hdown) ?_ ?_
    · intro o' htask
      cases htask
      rfl
    · intro L' t hpending _ hinv hfirst
      rw [owes_forget, forgotten_eq]
      have hbegin := hinv.begin hfirst
      refine hbegin.finishForget hpending hfirst ?_ nofun ?_ ?_
      · intro _
        rcases hbegin.owned.tasked L.next _ _ hpending rfl with ⟨flag, hlog⟩
        exact Or.inr ⟨L.next, flag, hlog⟩
      · intro id' p heq
        cases heq
        exact ⟨rfl, rfl⟩
      · refine Or.inr ⟨t.log, t.registry.owners, rfl, ?_⟩
        rw [forgotten_owners]
        rfl

theorem owes_closeRegistered (h : Inv L s) {id : JsString} {code : Nat}
    {reason : Reason}
    (hpending : L.pending n =
      some (PortCall.turn (Job.close id code reason)))
    (hfirst : firstOf s.registry.queue id = some n) :
    (closeRegistered host id code reason).owes alone Inv n
      (fun res L'' t' => Inv L''
        (State.record { t' with registry :=
            { t'.registry with
              queue := t'.registry.queue.erase (id, n) } }
          (Entry.ended n (Op.close id code reason) res t'.registry.owners)))
      (L.put n none)
      (s.record (Entry.began n id s.registry.owners)) := by
  have hbegin := h.begin hfirst
  have hfirst' : firstOf (s.record (Entry.began n id
      s.registry.owners)).registry.queue id = some n := hfirst
  unfold closeRegistered registered
  simp only [Prog.read_bind, Prog.act_bind, Prog.owes_act, id_eq,
    Prog.pure_eq, Prog.ret_bind]
  cases hget : s.registry.owners.get id with
  | none =>
      have hget' : (host.registry (s.record (Entry.began n id
          s.registry.owners))).owners.get id = none := hget
      simp only [hget', Prog.owes_ret]
      exact hbegin.finish hpending hfirst' hbegin.owned.distinct
        (fun _ _ => rfl) (fun _ hp => Or.inl hp) (fun _ hp => Or.inl hp)
        (fun h => by cases h) (fun _ _ h => by cases h) trivial
  | some p =>
      have hget' : (host.registry (s.record (Entry.began n id
          s.registry.owners))).owners.get id = some p := hget
      simp only [hget']
      rw [Prog.owes_bind]
      refine owes_closeOwner (fun _ _ _ _ h => by cases h) ?_ ?_
      · rw [Ledger.put_put]
        refine hbegin.callClose hpending rfl (began_mem s n id) rfl
          (fun _ => hget) ?_ _ _
        intro _ _ h
        cases h
      · intro L' t c res hpending' hclosing _ hinv
        have hinside : insideOf c = some id := insideOf_eq hclosing
        rcases hinv.order.inside n c id hpending' hinside with ⟨owners, hlog⟩
        have hturn := hinv.first hpending' hlog
        cases res with
        | error e =>
            exact hinv.finish hpending' hturn hinv.owned.distinct
              (fun _ _ => rfl) (fun _ hp => Or.inl hp)
              (fun _ hp => Or.inl hp) (fun h => by cases h)
              (fun _ _ h => by cases h) trivial
        | ok u =>
            show Prog.owes alone Inv n _ (forget host id p) _ _
            rw [owes_forget, forgotten_eq]
            refine hinv.finishForget hpending' hturn ?_ (fun h => by cases h)
              (fun _ _ h => by cases h) trivial
            intro _
            exact Or.inl (hinv.owned.called n c _ p hpending' hclosing)

theorem owes_close (h : Inv L s) (hfree : L.pending L.next = none)
    (id : JsString) (code : Nat) (reason : Reason) :
    (close host L.next id code reason).owes alone Inv L.next
      (finalOwes alone Inv L.next (Op.close id code reason))
      { L with next := L.next + 1 }
      (s.record (Entry.entered L.next (Op.close id code reason)
        s.registry.shuttingDown)) := by
  unfold close
  rw [Prog.read_bind, Prog.owes_act]
  by_cases hdown : s.registry.shuttingDown = true
  · rw [if_pos (by exact hdown)]
    refine owes_call (c := PortCall.barrier (Job.close id code reason)) ?_ ?_
    · exact h.enter hfree rfl rfl rfl nofun nofun
    · intro L' t r hpending hn hinv hallowed
      rcases hallowed with ⟨k, res, owners, _, hclosed⟩
      exact (hinv.passed hn ⟨k, res, owners, hclosed⟩).finishOutside hpending
        hn rfl rfl rfl rfl nofun nofun trivial
  · rw [if_neg (by exact hdown)]
    refine owes_serialize h hfree (by simpa using hdown) nofun ?_
    intro L' t hpending _ hinv hfirst
    exact owes_closeRegistered hinv hpending hfirst

theorem owes_closeEach (rest : List (JsString × Nat)) :
    forall {L : Ledger ports} {s : State} {closing : List (JsString × Nat)}
      {failed : Bool}
      {Q : Except Thrown (List (JsString × Nat) × Bool) -> Ledger ports ->
        State -> Prop},
      Draining L s n closing rest ->
      n < L.next ->
      (forall L' t closing' failed', n < Ledger.next L' ->
        Draining L' t n closing' [] ->
        Q (Except.ok (closing', failed')) L' t) ->
      (closeEach host rest closing failed).owes alone Inv n Q L s := by
  induction rest with
  | nil =>
      intro L s closing failed Q h hn hQ
      exact hQ L s closing failed hn h
  | cons x rest ih =>
      rcases x with ⟨id, owner⟩
      intro L s closing failed Q h hn hQ
      unfold closeEach
      refine owes_call (c := PortCall.startClose
        (Why.shutdown id rest closing failed) owner 1001
        Reason.server_shutdown) ?_ ?_
      · refine h.call.wait rfl ?_
        intro why p hclosing
        cases hclosing
        exact ⟨rfl, by simp [State.record]⟩
      · intro L' t r hpending hn' hinv _
        have hawake := Draining.awake hinv hpending rfl
        cases r with
        | ok u =>
            refine ih (hawake.regroup ?_) hn' hQ
            intro x
            simp only [List.mem_append, List.mem_cons, List.mem_nil_iff,
              or_false]
            exact or_comm
        | error u =>
            show Prog.owes alone Inv n Q
              (forget host id owner >>= fun _ =>
                closeEach host rest closing true) _ _
            rw [Prog.owes_bind, owes_forget]
            -- an entry may be in the list twice, so it is dropped last
            have hforgotten : Draining (L'.put n none)
                (forgotten id owner t) n closing rest :=
              hawake.forget List.mem_cons_self
                (fun x hx hne => (List.mem_cons.mp hx).resolve_left hne)
                (fun x hx => List.mem_cons_of_mem _ hx)
            exact ih hforgotten hn' hQ

theorem mem_eraseIdx_of_ne {closing : List (JsString × Nat)} {place : Nat}
    {x y : JsString × Nat} (hy : closing[place]? = some y) (hx : x ∈ closing)
    (hne : x ≠ y) : x ∈ closing.eraseIdx place := by
  rcases List.mem_iff_getElem?.mp hx with ⟨i, hi⟩
  rw [List.mem_eraseIdx_iff_getElem?]
  refine ⟨i, ?_, hi⟩
  intro heq
  rw [heq, hy] at hi
  exact hne (Option.some.inj hi).symm

theorem owes_settleEach (count : Nat) :
    forall {L : Ledger ports} {s : State} {closing : List (JsString × Nat)}
      {failed : Bool} {Q : Except Thrown Bool -> Ledger ports -> State -> Prop},
      Draining L s n closing [] ->
      closing.length = count ->
      n < L.next ->
      (forall L' t failed', n < Ledger.next L' -> Draining L' t n [] [] ->
        Q (Except.ok failed') L' t) ->
      (settleEach host count closing failed).owes alone Inv n Q L s := by
  induction count with
  | zero =>
      intro L s closing failed Q h hlength hn hQ
      rw [List.length_eq_zero_iff.mp hlength] at h
      exact hQ L s failed hn h
  | succ count ih =>
      intro L s closing failed Q h hlength hn hQ
      unfold settleEach
      refine owes_call (c := PortCall.nextClosed closing failed) ?_ ?_
      · exact h.wait rfl (fun _ _ h => by cases h)
      · intro L' t r hpending hn' hinv hplace
        have hawake := Draining.awake hinv hpending rfl
        change r.1 < closing.length at hplace
        have hentry : closing[r.1]? = some (closing[r.1]) :=
          List.getElem?_eq_getElem hplace
        rcases hx : closing[r.1] with ⟨id, owner⟩
        rw [hx] at hentry
        simp only [Prog.bind, hentry]
        rw [Prog.owes_bind, owes_forget]
        refine ih (hawake.forget (List.mem_of_getElem? hentry)
          (fun x hx hne => mem_eraseIdx_of_ne hentry hx hne)
          (fun x hx => List.mem_of_mem_eraseIdx hx)) ?_ hn' hQ
        rw [List.length_eraseIdx_of_lt hplace, hlength]
        rfl

theorem owes_closeAll (h : Inv L s) (hfree : L.pending L.next = none) :
    (closeAll host L.next).owes alone Inv L.next
      (finalOwes alone Inv L.next Op.closeAll) { L with next := L.next + 1 }
      (s.record (Entry.entered L.next Op.closeAll
        s.registry.shuttingDown)) := by
  unfold closeAll
  simp only [Prog.read_bind, Prog.owes_act, id_eq]
  cases hresult : s.registry.shutdownResult with
  | some k =>
      have hresult' : (host.registry (s.record (Entry.entered L.next
        Op.closeAll s.registry.shuttingDown))).shutdownResult = some k :=
          hresult
      simp only [hresult']
      refine owes_call (c := PortCall.shutdownResult k) ?_ ?_
      · refine h.enter hfree rfl rfl rfl ?_ (fun _ _ h => by cases h)
        intro k' heq
        cases heq
        exact hresult
      · intro L' t r hpending hn hinv hallowed
        rcases hallowed with ⟨res, owners, hended, houtcome⟩
        have hjoined := hinv.down.joined L.next k hpending
        rcases (hinv.down.settled hinv.order.ended hended).1 with
          ⟨hempty, hcovered⟩
        have hfinish : forall res', Inv (L'.put L.next none)
            (t.record (Entry.ended L.next Op.closeAll res'
              t.registry.owners)) := by
          intro res'
          exact hinv.finishOutside hpending hn rfl rfl rfl rfl
            (fun _ => ⟨k, res, owners, hjoined, hended⟩)
            (fun _ _ h => by cases h)
            ⟨hempty, hcovered⟩
        cases r with
        | ok u => exact hfinish (Except.ok ())
        | error u => exact hfinish (Except.error Thrown.closeFailed)
  | none =>
      have hresult' : (host.registry (s.record (Entry.entered L.next
        Op.closeAll s.registry.shuttingDown))).shutdownResult = none :=
          hresult
      simp only [hresult', Prog.modify_bind, Prog.owes_act]
      refine owes_call (c := PortCall.drained
        (s.registry.queue.map Prod.snd)) ?_ ?_
      · exact h.enterShutdown hfree hresult
      · intro L' t r hpending hn hinv hallowed
        have hdrained := Draining.drained hinv hpending hn hallowed
        show Prog.owes alone Inv L.next _ (Prog.read >>= _) _ _
        rw [Prog.read_bind, Prog.owes_act]
        refine Prog.owes_bind.mpr (owes_closeEach _ hdrained hn ?_)
        intro L'' t' closing failed hn' hleft
        refine Prog.owes_bind.mpr (owes_settleEach _ hleft rfl hn' ?_)
        intro L3 t3 failed' hn3 hdone
        cases failed' with
        | true => exact hdone.finish hn3 _
        | false => exact hdone.finish hn3 _

theorem inv_inductive : Inductive alone Inv := by
  constructor
  · nofun
  · intro L s o hfree h _
    cases o with
    | replace id owner => exact owes_replace h hfree id owner
    | remove id owner => exact owes_remove h hfree id owner
    | close id code reason => exact owes_close h hfree id code reason
    | closeAll => exact owes_closeAll h hfree

theorem Inv.initial : Inv Ledger.empty State.initial := by
  constructor
  · constructor
    · nofun
    · rfl
    · exact List.Pairwise.nil
    · nofun
    · intro id m
      constructor
      · nofun
      · rintro ⟨c, hc, _⟩
        cases hc
    · nofun
    · nofun
  · exact ⟨JsMap.distinct_nil, (fun _ _ _ _ _ hnone => nomatch hnone),
      (fun _ _ _ _ hnone => nomatch hnone), fun _ _ _ hnone => nomatch hnone⟩
  · exact ⟨rfl, nofun, nofun, nofun, nofun⟩
  · exact ⟨everyEntry_nil _, nofun, everyAfter_nil _, nofun⟩

end Walk

/-!
## What a run keeps
-/

structure NoOwnerLost (cfg : Config State ports Thrown Unit Op) : Prop where
  /-- An operation of a session begins after all that were called before it
  have ended, and no two of them overlap. -/
  inOrder : forall before n id owners after,
    cfg.shared.log = before ++ Entry.began n id owners :: after ->
      Entry.queued n id ∈ before ∧
      (forall m, Entry.queued m id ∈ before -> m < n ->
        hasEnded before m = true) ∧
      forall m owners', m ≠ n -> Entry.began m id owners' ∈ before ->
        hasEnded before m = true
  registers : forall n id owner u owners,
    Entry.ended n (Op.replace id owner) (Except.ok u) owners ∈
      cfg.shared.log -> owners.get id = some owner
  rejects : forall before n id owner e owners after,
    cfg.shared.log = before ++ Entry.ended n (Op.replace id owner)
      (Except.error e) owners :: after -> Entry.closeCalled owner ∈ before
  kept : forall n id owner u owners,
    Entry.ended n (Op.replace id owner) (Except.ok u) owners ∈
      cfg.shared.log ->
      cfg.shared.registry.owners.get id = some owner ∨
      Entry.closeCalled owner ∈ cfg.shared.log ∨
      exists m flag, Entry.entered m (Op.remove id owner) flag ∈
        cfg.shared.log
  /-- A removal that changes the owners has found its own owner. -/
  removes : forall before n id owner res owners after,
    cfg.shared.log = before ++ Entry.ended n (Op.remove id owner) res
      owners :: after ->
      (exists pre, before = pre ++ [Entry.passed n owners]) ∨
      exists pre prior, before = pre ++ [Entry.began n id prior] ∧
        owners = if prior.get id = some owner then prior.delete id else prior
  closedAll : forall n res owners,
    Entry.ended n Op.closeAll res owners ∈ cfg.shared.log ->
      cfg.shared.registry.owners = [] ∧
      exists k drained, Entry.drained k drained ∈ cfg.shared.log ∧
        forall x, x ∈ drained -> Entry.closeCalled x.2 ∈ cfg.shared.log
  /-- A replacement after the shutdown waits for the shutdown, which is over,
  or for its own owner to close, or it was rejected. -/
  later : forall before n id owner flag after,
    cfg.shared.log = before ++ Entry.entered n (Op.replace id owner) flag ::
      after ->
    (exists k res owners, Entry.ended k Op.closeAll res owners ∈ before) ->
      (exists f, f ∈ cfg.stack ++ cfg.parked ∧ f.id = n ∧
        lateOf f.call = some (id, owner) ∧
        (f.call = PortCall.barrier (Job.replace id owner) ∧
            allowed cfg.shared n (PortCall.barrier (Job.replace id owner)) ()
          ∨ Entry.closeCalled owner ∈ after)) ∨
      (Entry.closeCalled owner ∈ after ∧
        exists owners, Entry.ended n (Op.replace id owner)
          (Except.error Thrown.shuttingDown) owners ∈ after)

theorem no_owner_lost {cfg : Config State ports Thrown Unit Op}
    (hrun : Run cfg) : NoOwnerLost cfg := by
  have hok := inv_inductive.reachable Inv.initial hrun
  have hinv := hok.inv
  have hgood := hinv.fate.good
  constructor
  · intro before n id owners after hlog
    exact hgood before _ after hlog
  · intro n id owner u owners hmem
    rcases List.append_of_mem hmem with ⟨before, after, hlog⟩
    exact hgood before _ after hlog
  · intro before n id owner e owners after hlog
    exact hgood before _ after hlog
  · exact hinv.fate.kept
  · intro before n id owner res owners after hlog
    have hremoved := hgood before _ after hlog
    cases res with
    | _ => exact hremoved
  · intro n res owners hmem
    exact (hinv.down.settled hinv.order.ended hmem).1
  · intro before n id owner flag after hlog hclosed
    have hflag := hgood before _ after hlog hclosed
    rw [hflag] at hlog
    rcases hinv.fate.late before _ after hlog n id owner rfl with
      ⟨c, hc, hlate, hwhere⟩ | hdone
    · left
      rcases Ledger.mem_of hc with ⟨f, hf, hid, hcall⟩
      refine ⟨f, hf, hid, ?_, ?_⟩
      · rw [hcall]
        exact hlate
      · rcases hwhere with hbarrier | hcalled
        · left
          refine ⟨by rw [hcall, hbarrier], ?_⟩
          rcases hclosed with ⟨k, res, owners, hended⟩
          have hended' : Entry.ended k Op.closeAll res owners ∈
              cfg.shared.log := by
            rw [hlog]
            exact List.mem_append_left _ hended
          rcases hinv.down.closed k res owners hended' with
            ⟨j, res', owners', hj, hlast⟩
          exact ⟨j, res', owners', hj, hlast⟩
        · exact Or.inr hcalled
    · exact Or.inr hdone

/-- An owner that was removed, and not passed to `replace` again, stays
away. -/
theorem removed_stays {cfg : Config State ports Thrown Unit Op}
    (hrun : Run cfg) {n : Nat} {id : JsString} {owner : Nat}
    {res : Except Thrown Unit} {owners : JsMap JsString Nat}
    (hended : Entry.ended n (Op.remove id owner) res owners ∈ cfg.shared.log)
    (hbefore : forall m flag, Entry.entered m (Op.replace id owner) flag ∈
      cfg.shared.log -> m < n) :
    cfg.shared.registry.owners.get id ≠ some owner :=
  (inv_inductive.reachable Inv.initial hrun).inv.fate.removed n id owner res
    owners hended hbefore

theorem entered_lt {cfg : Config State ports Thrown Unit Op} (hrun : Run cfg)
    {n : Nat} {o : Op} {flag : Bool}
    (hentered : Entry.entered n o flag ∈ cfg.shared.log) : n < cfg.next :=
  (inv_inductive.reachable Inv.initial hrun).inv.order.numbers _ hentered n rfl

/-!
## The log only grows
-/

section Growth

def Grows (s s' : State) : Prop :=
  s.log <+: s'.log

theorem grows_refl (s : State) : Grows s s :=
  List.prefix_refl _

theorem grows_record (s : State) (e : Entry) : Grows s (s.record e) :=
  List.prefix_append _ _

theorem grows_update (f : Registry -> Registry) :
    (Prog.modify (host.update f) : Code Unit).Within Grows :=
  Prog.within_modify fun _ => List.prefix_refl _

theorem grows_registered (id : JsString) :
    (registered host id).Within Grows :=
  Prog.within_read grows_refl fun _ => trivial

theorem grows_forget (id : JsString) (owner : Nat) :
    (forget host id owner).Within Grows := by
  refine Prog.within_bind (grows_registered id) ?_
  intro current
  split
  · exact grows_update _
  · trivial

theorem grows_closeOwner (why : Why) (owner code : Nat) (reason : Reason) :
    (closeOwner host why owner code reason).Within Grows := by
  intro res
  cases res with
  | error u => trivial
  | ok u =>
      intro res'
      cases res' with
      | error u' => trivial
      | ok u' => trivial

theorem grows_closeRejectedOwner (why : Why) (owner code : Nat)
    (reason : Reason) :
    (closeRejectedOwner host why owner code reason).Within Grows :=
  Prog.within_tryCatch (grows_closeOwner why owner code reason)
    fun _ => trivial

theorem grows_register (id : JsString) (owner : Nat) :
    (register host id owner).Within Grows := by
  refine Prog.within_tryCatch ?_ ?_
  · refine Prog.within_bind (grows_registered id) ?_
    intro prior
    have hrest : (do
        let current ← registered host id
        if current = prior then
          Prog.modify (host.update fun r =>
            { r with owners := r.owners.set id owner })
        else pure () : Code Unit).Within Grows := by
      refine Prog.within_bind (grows_registered id) ?_
      intro current
      split
      · exact grows_update _
      · trivial
    cases prior with
    | none => exact hrest
    | some p =>
        by_cases hp : p ≠ owner
        · simp only [if_pos hp]
          exact Prog.within_bind (grows_closeOwner _ _ _ _) fun _ => hrest
        · simp only [if_neg hp]
          exact hrest
  · intro e
    exact Prog.within_bind (grows_closeRejectedOwner _ _ _ _) fun _ => trivial

theorem grows_serialize (n : Nat) (job : Job) {operation : Code Unit}
    (h : operation.Within Grows) :
    (serialize host n job operation).Within Grows := by
  refine Prog.within_bind (grows_update _) ?_
  intro _ _
  exact Prog.within_always h (grows_update _)

theorem grows_closeEach (rest closing : List (JsString × Nat))
    (failed : Bool) : (closeEach host rest closing failed).Within Grows := by
  induction rest generalizing closing failed with
  | nil => trivial
  | cons x rest ih =>
      intro res
      cases res with
      | ok u => exact ih _ _
      | error u =>
          exact Prog.within_bind (p := forget host x.1 x.2) (grows_forget _ _)
            fun _ => ih _ _

theorem grows_settleEach (count : Nat) (closing : List (JsString × Nat))
    (failed : Bool) : (settleEach host count closing failed).Within Grows := by
  induction count generalizing closing failed with
  | zero => trivial
  | succ count ih =>
      intro next
      simp only [Prog.bind]
      split
      · trivial
      · exact Prog.within_bind (grows_forget _ _) fun _ => ih _ _

theorem grows_body (n : Nat) (o : Op) : (body n o).Within Grows := by
  cases o with
  | replace id owner =>
      refine Prog.within_read grows_refl ?_
      intro s
      split
      · intro _
        exact Prog.within_bind (p := closeRejectedOwner host
          (Why.late id owner) owner 1001 Reason.server_shutdown)
          (grows_closeRejectedOwner _ _ _ _) fun _ => trivial
      · exact grows_serialize n _ (grows_register id owner)
  | remove id owner =>
      refine Prog.within_read grows_refl ?_
      intro s
      split
      · exact fun _ => trivial
      · exact grows_serialize n _ (grows_forget id owner)
  | close id code reason =>
      refine Prog.within_read grows_refl ?_
      intro s
      split
      · exact fun _ => trivial
      · refine grows_serialize n _ ?_
        refine Prog.within_bind (grows_registered id) ?_
        intro current
        cases current with
        | none => trivial
        | some owner =>
            exact Prog.within_bind (grows_closeOwner _ _ _ _)
              fun _ => grows_forget id owner
  | closeAll =>
      refine Prog.within_read grows_refl ?_
      intro s
      split
      · intro res
        cases res with
        | ok u => trivial
        | error u => trivial
      · refine Prog.within_bind (grows_update _) ?_
        intro _
        refine Prog.within_bind (grows_update _) ?_
        intro _ _
        refine Prog.within_read grows_refl ?_
        intro s'
        refine Prog.within_bind (grows_closeEach _ _ _) ?_
        intro started
        refine Prog.within_bind (grows_settleEach _ _ _) ?_
        intro failed
        split
        · trivial
        · trivial

theorem alone_grows : alone.Within Grows where
  refl _ := List.prefix_refl _
  trans := List.IsPrefix.trans
  body := grows_body
  enter _ _ _ := grows_record _ _
  issue n c s := by
    cases c with
    | turn job => exact grows_record _ _
    | startClose why owner code reason => exact grows_record _ _
    | _ => exact List.prefix_refl _
  reply n c r s := by
    cases c with
    | turn job => exact grows_record _ _
    | barrier job => exact grows_record _ _
    | drained operations => exact grows_record _ _
    | _ => exact List.prefix_refl _
  leave _ _ _ _ := grows_record _ _
  env := nofun

theorem log_grows {cfg cfg' : Config State ports Thrown Unit Op}
    (hrun : Run cfg) (hstep : Step alone cfg cfg') {e : Entry}
    (he : e ∈ cfg.shared.log) : e ∈ cfg'.shared.log :=
  (alone_grows.reachable hrun hstep).subset he

/-- A removal that was called is in the log, and nothing else has been added
but its place in the queue. -/
theorem mem_start_remove (cfg : Config State ports Thrown Unit Op)
    (id : JsString) (owner : Nat) {e : Entry}
    (he : e ∈ (cfg.start alone (Op.remove id owner)).shared.log) :
    e ∈ cfg.shared.log ∨
      e = Entry.entered cfg.next (Op.remove id owner)
        cfg.shared.registry.shuttingDown ∨
      e = Entry.queued cfg.next id := by
  unfold Config.start at he
  by_cases hdown : cfg.shared.registry.shuttingDown = true
  · simp [toCall, alone, body, remove, host, Prog.ask, State.record, hdown,
      Config.settle, boundary, issue] at he
    rcases he with he | he
    · exact Or.inl he
    · rw [hdown]
      exact Or.inr (Or.inl he)
  · simp [toCall, alone, body, remove, serialize, host, Prog.ask, Prog.modify,
      State.record, hdown, Config.settle, boundary, issue] at he
    rw [Bool.not_eq_true] at hdown
    rw [hdown]
    exact he

theorem start_step (cfg : Config State ports Thrown Unit Op) (o : Op) :
    Step alone cfg (cfg.start alone o) := by
  apply Config.start_step
  · intro c
    cases c with
    | _ => nofun
  · trivial

/-- A removal changes nothing where it does not find its owner. -/
theorem removal_keeps {cfg : Config State ports Thrown Unit Op}
    (hrun : Run cfg) {before after : List Entry} {n : Nat} {id : JsString}
    {owner : Nat} {res : Except Thrown Unit} {owners : JsMap JsString Nat}
    (hlog : cfg.shared.log = before ++
      Entry.ended n (Op.remove id owner) res owners :: after) :
    (exists pre, before = pre ++ [Entry.passed n owners]) ∨
    exists pre prior, before = pre ++ [Entry.began n id prior] ∧
      owners = if prior.get id = some owner then prior.delete id
        else prior := by
  have hremoved := (inv_inductive.reachable Inv.initial hrun).inv.fate.good
    before _ after hlog
  cases res with
  | _ => exact hremoved

end Growth

/-!
A run in which an owner replaces another one, the registry is closed and a
third owner comes too late.
-/

def easyReply : (c : PortCall) -> PortReply c
  | PortCall.turn _ => ()
  | PortCall.startClose _ _ _ _ => Except.ok ()
  | PortCall.closed _ _ => Except.ok ()
  | PortCall.barrier _ => ()
  | PortCall.drained _ => ()
  | PortCall.nextClosed _ _ => (0, true)
  | PortCall.shutdownResult _ => Except.ok ()

def closedBy (k : Nat) : Entry -> Bool
  | Entry.ended m Op.closeAll (Except.ok _) _ => m = k
  | _ => false

def easyFair (s : State) (n : Nat) : PortCall -> Bool
  | PortCall.turn job =>
      firstOf s.registry.queue job.sessionId = some n
  | PortCall.barrier _ =>
      match s.registry.shutdownResult with
      | some k => s.log.any (closedBy k)
      | none => false
  | PortCall.drained operations =>
      s.registry.queue.all fun x => decide (x.2 ∉ operations)
  | PortCall.nextClosed closing _ => 0 < closing.length
  | PortCall.shutdownResult k => s.log.any (closedBy k)
  | _ => true

theorem closedBy_sound {s : State} {k : Nat}
    (h : s.log.any (closedBy k) = true) :
    exists u owners,
      Entry.ended k Op.closeAll (Except.ok u) owners ∈ s.log := by
  rcases List.any_eq_true.mp h with ⟨e, he, hclosed⟩
  unfold closedBy at hclosed
  split at hclosed
  · have hk := of_decide_eq_true hclosed
    subst hk
    exact ⟨_, _, he⟩
  · cases hclosed

theorem easyFair_allowed (s : State) (n : Nat) (c : PortCall)
    (h : easyFair s n c = true) : allowed s n c (easyReply c) := by
  cases c with
  | turn job =>
      show firstOf s.registry.queue job.sessionId = some n
      exact of_decide_eq_true h
  | startClose why owner code reason => trivial
  | closed why owner => trivial
  | barrier job =>
      unfold easyFair at h
      cases hresult : s.registry.shutdownResult with
      | none => simp [hresult] at h
      | some k =>
          simp only [hresult] at h
          rcases closedBy_sound h with ⟨u, owners, hmem⟩
          exact ⟨k, _, owners, hresult, hmem⟩
  | drained operations =>
      intro x hx
      exact of_decide_eq_true (List.all_eq_true.mp h x hx)
  | nextClosed closing failed =>
      show 0 < closing.length
      exact of_decide_eq_true h
  | shutdownResult k =>
      rcases closedBy_sound h with ⟨u, owners, hmem⟩
      exact ⟨_, owners, hmem, rfl⟩

def easyScript : Script alone where
  reply _ _ := easyReply
  fair := easyFair
  admits _ _ := true
  nudge _ := none
  fair_allowed := easyFair_allowed
  admits_sound _ _ _ := trivial
  nudge_env _ _ h := nomatch h

def easyRun : Option (Config State ports Thrown Unit Op) :=
  easyScript.play
    [Move.enter (Op.replace (js "tab") 1), Move.resume 0,
      Move.enter (Op.replace (js "tab") 2), Move.resume 0, Move.answer,
      Move.resume 0, Move.enter Op.closeAll, Move.resume 0, Move.answer,
      Move.resume 0, Move.enter (Op.replace (js "tab") 3), Move.resume 0,
      Move.answer, Move.resume 0]
    (Config.initial State.initial)

theorem easyRun_ends :
    easyRun.map (fun cfg =>
      decide (Entry.ended 1 (Op.replace (js "tab") 2) (Except.ok ())
        [(js "tab", 2)] ∈ cfg.shared.log) &&
      decide (Entry.ended 3 (Op.replace (js "tab") 3)
        (Except.error Thrown.shuttingDown) [] ∈ cfg.shared.log)) =
      some true := by
  decide +kernel

/-- The second owner was registered and then closed; the third one was closed
and rejected. -/
theorem no_owner_lost_third :
    exists cfg, easyRun = some cfg ∧
      Entry.ended 1 (Op.replace (js "tab") 2) (Except.ok ())
        [(js "tab", 2)] ∈ cfg.shared.log ∧
      (cfg.shared.registry.owners.get (js "tab") = some 2 ∨
        Entry.closeCalled 2 ∈ cfg.shared.log ∨
        exists m flag, Entry.entered m (Op.remove (js "tab") 2) flag ∈
          cfg.shared.log) ∧
      exists before after, cfg.shared.log = before ++
        Entry.ended 3 (Op.replace (js "tab") 3)
          (Except.error Thrown.shuttingDown) [] :: after ∧
        Entry.closeCalled 3 ∈ before := by
  have hsample := easyRun_ends
  cases hrun : easyRun with
  | none =>
      rw [hrun] at hsample
      cases hsample
  | some cfg =>
      rw [hrun] at hsample
      have hboth := Bool.and_eq_true_iff.mp (Option.some.inj hsample)
      have hsecond := of_decide_eq_true hboth.1
      have hlost := no_owner_lost (Script.play_reachable hrun)
      rcases List.append_of_mem (of_decide_eq_true hboth.2) with
        ⟨before, after, hlog⟩
      refine ⟨cfg, rfl, hsecond, hlost.kept 1 _ 2 () _ hsecond, before, after,
        hlog, ?_⟩
      exact hlost.rejects before 3 _ 3 _ _ after hlog

end BridgeRegistry
end Server
end FlanTerminal

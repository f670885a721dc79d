import FlanTerminal.Foundation.Ledger
import FlanTerminal.Foundation.Script
import FlanTerminal.Foundation.Trace
import FlanTerminal.Server.BridgeRegistrySafety
import FlanTerminal.Server.WebSocketAuthIndexSafety
import FlanTerminal.Server.WebSocketConnection

/-!
# A connection cleans up after itself

Once the socket is over, some operation of the handler is still on its way to
close the bridge and to take the port out of the index, or it has done so.
-/

namespace FlanTerminal
namespace Server
namespace WebSocketConnection

open Foundation
open TerminalBridge (Reason)
open WebSocketAuthIndex (ApplicationSessionAuthority Options)

/-!
## What the calls say
-/

/-- The handler does not have the bridge yet. -/
def isEarly : PortCall -> Bool
  | PortCall.revoking Site.acceptUpgrade => true
  | PortCall.registerIfActive => true
  | PortCall.connect => true
  | _ => false

/-- The handler has not installed its listeners yet. -/
def isFirst : PortCall -> Bool
  | PortCall.revoking Site.acceptUpgrade => true
  | PortCall.registerIfActive => true
  | _ => false

/-- The operation will look for an owner to clean up. -/
def willClean : PortCall -> Bool
  | PortCall.revoking Site.removeRegistration => true
  | PortCall.revoking Site.connected => true
  | PortCall.unregister _ => true
  | PortCall.closeAuthenticationRequired Site.connected _ => true
  | _ => false

/-- The operation has received the owner. -/
def hasOwner : PortCall -> Bool
  | PortCall.revoking Site.connected => true
  | PortCall.closeAuthenticationRequired Site.connected _ => true
  | _ => false

/-- The owner that the operation is cleaning up. -/
def cleaning : PortCall -> Option Nat
  | PortCall.startClose owner _ _ => some owner
  | PortCall.closed owner => some owner
  | PortCall.remove _ owner => some owner
  | PortCall.closePort target _ _ => target
  | _ => none

/-- The operation will take the port out of the index, or does so. -/
def unregisters : PortCall -> Bool
  | PortCall.revoking Site.removeRegistration => true
  | PortCall.unregister _ => true
  | _ => false

def isStartClose : PortCall -> Bool
  | PortCall.startClose _ _ _ => true
  | _ => false

def isCleanup : Entry -> Bool
  | Entry.cleanup _ => true
  | _ => false

section Invariant

variable (options : Options) (x : Connection)

/-- Operation `m` of the registry was to register the owner. -/
def Replaced (s : State) (owner m : Nat) : Prop :=
  exists flag, BridgeRegistry.Entry.entered m
    (BridgeRegistry.Op.replace x.sessionId owner) flag ∈ s.registry.shared.log

def Removed (s : State) (owner : Nat) : Prop :=
  exists k res owners, BridgeRegistry.Entry.ended k
    (BridgeRegistry.Op.remove x.sessionId owner) res owners ∈
      s.registry.shared.log ∧
    forall m, Replaced x s owner m -> m < k

/-- Operation `m` of the index was to register the port. -/
def Registered (s : State) (m : Nat) : Prop :=
  exists authority t registrations, WebSocketAuthIndex.Entry.entered m
    (WebSocketAuthIndex.Op.registerIfActive authority t x.port)
    registrations ∈ s.index.shared.log

def Gone (s : State) : Prop :=
  exists k res index, WebSocketAuthIndex.Entry.ended k
    (WebSocketAuthIndex.Op.unregister x.port) res index ∈
      s.index.shared.log ∧
    forall m, Registered x s m -> m < k

/-- The handler is called once, and has no owner before `connect` has
returned. -/
structure Setup (L : Ledger ports) (s : State) : Prop where
  fresh : s.started = false -> (forall n, L.pending n = none) ∧
    s.owner = none ∧ s.installed = false
  early : forall n c, L.pending n = some c -> isEarly c = true ->
    s.owner = none ∧
    forall m d, L.pending m = some d -> isEarly d = true -> m = n
  first : forall n c, L.pending n = some c -> isFirst c = true ->
    s.installed = false
  listeners : s.closeListener = true ∨ s.errorListener = true ->
    s.installed = true
  registering : s.registering = true ->
    exists n, L.pending n = some PortCall.registerIfActive

/-- Whoever comes last cleans up, once. -/
structure Upkeep (L : Ledger ports) (s : State) : Prop where
  owner : forall o, Entry.connected o ∈ s.log <-> s.owner = some o
  refused : forall n since, L.pending n =
    some (PortCall.closeAuthenticationRequired Site.connected since) ->
    s.ended = true
  received : forall n c, L.pending n = some c -> hasOwner c = true ->
    exists o, s.owner = some o
  due : s.ended = true -> forall o, s.owner = some o ->
    Entry.cleanup o ∈ s.log ∨
    exists n c, L.pending n = some c ∧ willClean c = true
  cleaned : forall o, Entry.cleanup o ∈ s.log -> s.owner = some o ∧
    ((exists n c, L.pending n = some c ∧ cleaning c = some o) ∨
      Removed x s o)
  target : forall n c o, L.pending n = some c -> cleaning c = some o ->
    Entry.cleanup o ∈ s.log
  since : forall n k o, L.pending n = some (PortCall.remove k o) ->
    forall m, Replaced x s o m -> m < k
  once : s.log.countP isCleanup ≤ 1
  unclean : s.cleanupPromise = none ->
    (forall n c, L.pending n = some c -> isStartClose c = false) ->
    s.log.countP isCleanup = 0
  promised : s.cleanupPromise ≠ none -> exists o, Entry.cleanup o ∈ s.log
  /-- The operation inside `owner.close` is the last one that was called. -/
  inside : forall n c, L.pending n = some c -> isStartClose c = true ->
    s.closing = true ∧
    forall m d, L.pending m = some d -> boundary d = Boundary.callback ->
      m ≤ n

structure Port (L : Ledger ports) (s : State) : Prop where
  handled : forall n, Entry.handled n ∈ s.log -> s.ended = true
  outside : forall n c, L.pending n = some c -> unregisters c = true ->
    s.installed = true
  since : forall n k, L.pending n = some (PortCall.unregister k) ->
    forall m, Registered x s m -> m < k
  gone : forall n, Entry.handled n ∈ s.log ->
    (exists m c, L.pending m = some c ∧ unregisters c = true) ∨
    s.installed = true ∧ Gone x s

def Good (before : List Entry) : Entry -> Prop
  | Entry.ready isOpen active => isOpen = true ∧ active = true ∧
      (exists o, Entry.connected o ∈ before) ∧
      forall n, Entry.handled n ∉ before
  | _ => True

structure Inv (L : Ledger ports) (s : State) : Prop where
  numbers : forall n c, L.pending n = some c -> n < L.next
  registry : BridgeRegistry.Run s.registry
  index : WebSocketAuthIndex.Run options s.index
  setup : Setup L s
  upkeep : Upkeep x L s
  port : Port x L s
  good : EveryEntry Good s.log

end Invariant

/-!
## One call takes the place of another
-/

section Moves

variable {options : Options} {x : Connection} {L : Ledger ports} {n : Nat}
variable {s : State}

/-- The operations inside a callback have started before this one, and none
of them is inside `owner.close`. -/
def Topmost (L : Ledger ports) (n : Nat) : Prop :=
  forall m c, m ≠ n -> L.pending m = some c ->
    boundary c = Boundary.callback -> m ≤ n ∧ isStartClose c = false

theorem Topmost.quiet (h : Topmost L n) {m : Nat} {c : PortCall}
    (hne : m ≠ n) (hm : L.pending m = some c) : isStartClose c = false := by
  cases hstart : isStartClose c with
  | false => rfl
  | true =>
      have hcallback : boundary c = Boundary.callback := by
        unfold isStartClose at hstart
        split at hstart
        · rfl
        · cases hstart
      rw [(h m c hne hm hcallback).2] at hstart
      cases hstart

theorem isEarly_of_isFirst {c : PortCall} (h : isFirst c = true) :
    isEarly c = true := by
  unfold isFirst at h
  split at h
  · rfl
  · rfl
  · cases h

namespace Setup

theorem put {c : PortCall} (h : Setup (L.put n (some c)) s)
    (hc : c ≠ PortCall.registerIfActive) {y : Option PortCall}
    (hy : forall d, y = some d -> isEarly d = false) :
    Setup (L.put n y) s := by
  have hpending : (L.put n (some c)).pending n = some c := L.put_same n _
  have hother : forall m d, (L.put n y).pending m = some d ->
      isEarly d = true ->
      m ≠ n ∧ (L.put n (some c)).pending m = some d := by
    intro m d hm hd
    rcases Ledger.pending_put.mp hm with ⟨_, hyd⟩ | ⟨hne, hm⟩
    · rw [hy d hyd] at hd
      cases hd
    · exact ⟨hne, Ledger.pending_put.mpr (Or.inr ⟨hne, hm⟩)⟩
  constructor
  · intro hstarted
    have hnone := (h.fresh hstarted).1 n
    rw [hpending] at hnone
    cases hnone
  · intro m d hm hd
    have hold := h.early m d (hother m d hm hd).2 hd
    refine ⟨hold.1, ?_⟩
    intro m' d' hm' hd'
    exact hold.2 m' d' (hother m' d' hm' hd').2 hd'
  · intro m d hm hd
    exact h.first m d (hother m d hm (isEarly_of_isFirst hd)).2 hd
  · exact h.listeners
  · intro hregistering
    rcases h.registering hregistering with ⟨m, hm⟩
    rcases Ledger.pending_put.mp hm with ⟨_, hcd⟩ | ⟨hne, hm⟩
    · exact absurd (Option.some.inj hcd) hc
    · exact ⟨m, Ledger.pending_put.mpr (Or.inr ⟨hne, hm⟩)⟩

theorem start (h : Setup L s) (hstarted : s.started = false) :
    Setup (L.put n (some (PortCall.revoking Site.acceptUpgrade)))
      { s with started := true } := by
  rcases h.fresh hstarted with ⟨hnone, howner, hinstalled⟩
  have honly : forall m d, (L.put n
      (some (PortCall.revoking Site.acceptUpgrade))).pending m = some d ->
      m = n := by
    intro m d hm
    rcases Ledger.pending_put.mp hm with ⟨hmn, _⟩ | ⟨_, hm⟩
    · exact hmn
    · rw [hnone m] at hm
      cases hm
  constructor
  · nofun
  · intro m d hm _
    refine ⟨howner, ?_⟩
    intro m' d' hm' _
    rw [honly m d hm, honly m' d' hm']
  · intro _ _ _ _
    exact hinstalled
  · exact h.listeners
  · intro hregistering
    rcases h.registering hregistering with ⟨m, hm⟩
    rw [hnone m] at hm
    cases hm

theorem ask
    (h : Setup (L.put n (some (PortCall.revoking Site.acceptUpgrade))) s) :
    Setup (L.put n (some PortCall.registerIfActive))
      { s with registering := true } := by
  have hpending := L.put_same n
    (some (PortCall.revoking Site.acceptUpgrade))
  have hmove : forall m d, (L.put n
      (some PortCall.registerIfActive)).pending m = some d ->
      isEarly d = true -> exists d', (L.put n
        (some (PortCall.revoking Site.acceptUpgrade))).pending m = some d' ∧
        isEarly d' = true := by
    intro m d hm hd
    rcases Ledger.pending_put.mp hm with ⟨hmn, _⟩ | ⟨hne, hm⟩
    · rw [hmn]
      exact ⟨_, hpending, rfl⟩
    · exact ⟨d, Ledger.pending_put.mpr (Or.inr ⟨hne, hm⟩), hd⟩
  constructor
  · intro hstarted
    have hnone := (h.fresh hstarted).1 n
    rw [hpending] at hnone
    cases hnone
  · intro m d hm hd
    rcases hmove m d hm hd with ⟨d', hm', hd'⟩
    have hold := h.early m d' hm' hd'
    refine ⟨hold.1, ?_⟩
    intro k e hk he
    rcases hmove k e hk he with ⟨e', hk', he'⟩
    exact hold.2 k e' hk' he'
  · intro _ _ _ _
    exact h.first n _ hpending rfl
  · exact h.listeners
  · intro _
    exact ⟨n, L.put_same n _⟩

theorem answered (h : Setup (L.put n (some PortCall.registerIfActive)) s)
    {y : Option PortCall} (hy : forall d, y = some d -> isFirst d = false)
    {installed closeListener errorListener : Bool}
    (hlisteners : closeListener = true ∨ errorListener = true ->
      installed = true) :
    Setup (L.put n y)
      { s with
        registering := false
        installed := installed
        closeListener := closeListener
        errorListener := errorListener } := by
  have hpending := L.put_same n (some PortCall.registerIfActive)
  have hold := h.early n _ hpending rfl
  have honly : forall m d, (L.put n y).pending m = some d ->
      isEarly d = true -> m = n := by
    intro m d hm hd
    by_cases hmn : m = n
    · exact hmn
    · rcases Ledger.pending_put.mp hm with ⟨hmn', _⟩ | ⟨hne, hm⟩
      · exact hmn'
      · exact hold.2 m d (Ledger.pending_put.mpr (Or.inr ⟨hne, hm⟩)) hd
  constructor
  · intro hstarted
    have hnone := (h.fresh hstarted).1 n
    rw [hpending] at hnone
    cases hnone
  · intro m d hm hd
    refine ⟨hold.1, ?_⟩
    intro m' d' hm' hd'
    rw [honly m d hm hd, honly m' d' hm' hd']
  · intro m d hm hd
    rcases Ledger.pending_put.mp hm with ⟨_, hyd⟩ | ⟨hne, hm'⟩
    · rw [hy d hyd] at hd
      cases hd
    · exact absurd (honly m d hm (isEarly_of_isFirst hd)) hne
  · exact hlisteners
  · nofun

theorem connected (h : Setup (L.put n (some PortCall.connect)) s)
    {y : Option PortCall} (hy : forall d, y = some d -> isEarly d = false)
    (owner : Option Nat) : Setup (L.put n y) { s with owner := owner } := by
  have hpending := L.put_same n (some PortCall.connect)
  have hold := h.early n _ hpending rfl
  have hput := h.put nofun hy
  constructor
  · intro hstarted
    have hnone := (h.fresh hstarted).1 n
    rw [hpending] at hnone
    cases hnone
  · intro m d hm hd
    rcases Ledger.pending_put.mp hm with ⟨_, hyd⟩ | ⟨hne, hm'⟩
    · rw [hy d hyd] at hd
      cases hd
    · exact absurd (hold.2 m d (Ledger.pending_put.mpr (Or.inr ⟨hne, hm'⟩)) hd) hne
  · exact hput.first
  · exact hput.listeners
  · exact hput.registering

theorem handled (h : Setup L s) (hinstalled : s.installed = true)
    {c : PortCall} (hc : isEarly c = false) (hfree : L.pending n = none)
    (closeListener errorListener : Bool) :
    Setup (L.put n (some c))
      { s with
        closeListener := closeListener
        errorListener := errorListener } := by
  have hother : forall m d, (L.put n (some c)).pending m = some d ->
      isEarly d = true -> L.pending m = some d := by
    intro m d hm hd
    rcases Ledger.pending_put.mp hm with ⟨_, hcd⟩ | ⟨_, hm⟩
    · cases hcd
      rw [hc] at hd
      cases hd
    · exact hm
  constructor
  · intro hstarted
    have hnot := (h.fresh hstarted).2.2
    rw [hinstalled] at hnot
    cases hnot
  · intro m d hm hd
    have hold := h.early m d (hother m d hm hd) hd
    refine ⟨hold.1, ?_⟩
    intro m' d' hm' hd'
    exact hold.2 m' d' (hother m' d' hm' hd') hd'
  · intro m d hm hd
    exact h.first m d (hother m d hm (isEarly_of_isFirst hd)) hd
  · intro _
    exact hinstalled
  · intro hregistering
    rcases h.registering hregistering with ⟨m, hm⟩
    refine ⟨m, Ledger.pending_put.mpr (Or.inr ⟨?_, hm⟩)⟩
    intro heq
    rw [heq, hfree] at hm
    cases hm

/-- While the listeners are installed nobody registers the port. -/
theorem not_registering (h : Setup L s) (hinstalled : s.installed = true) :
    s.registering = false := by
  cases hregistering : s.registering with
  | false => rfl
  | true =>
      rcases h.registering hregistering with ⟨m, hm⟩
      have hnot := h.first m _ hm rfl
      rw [hinstalled] at hnot
      cases hnot

end Setup

/-- What the log of the handler says of owners, apart from a clean-up. -/
theorem Upkeep.log (h : Upkeep x L s) {e : Entry}
    (howner : forall o, e ≠ Entry.connected o) (hclean : isCleanup e = false) :
    Upkeep x L (s.record e) := by
  have hconnected : forall o, Entry.connected o ∈ (s.record e).log <->
      Entry.connected o ∈ s.log := by
    intro o
    simp [State.record, (howner o).symm]
  have hcleanup : forall o, Entry.cleanup o ∈ s.log ->
      Entry.cleanup o ∈ (s.record e).log := by
    intro o ho
    exact List.mem_append_left _ ho
  have hcleanup' : forall o, Entry.cleanup o ∈ (s.record e).log ->
      Entry.cleanup o ∈ s.log := by
    intro o ho
    rcases List.mem_append.mp ho with ho | ho
    · exact ho
    · rw [← List.mem_singleton.mp ho] at hclean
      cases hclean
  have hcount : (s.record e).log.countP isCleanup =
      s.log.countP isCleanup := by
    simp [State.record, List.countP_append, hclean]
  constructor
  · intro o
    rw [hconnected]
    exact h.owner o
  · exact h.refused
  · exact h.received
  · intro hended o ho
    rcases h.due hended o ho with hdone | hsome
    · exact Or.inl (hcleanup o hdone)
    · exact Or.inr hsome
  · intro o ho
    exact h.cleaned o (hcleanup' o ho)
  · intro m c o hm hc
    exact hcleanup o (h.target m c o hm hc)
  · exact h.since
  · rw [hcount]
    exact h.once
  · rw [hcount]
    exact h.unclean
  · intro hpromise
    rcases h.promised hpromise with ⟨o, hdone⟩
    exact ⟨o, hcleanup o hdone⟩
  · exact h.inside

theorem Upkeep.put {c : PortCall} (h : Upkeep x (L.put n (some c)) s)
    (htop : Topmost L n) {y : Option PortCall}
    (hover : forall since, y =
      some (PortCall.closeAuthenticationRequired Site.connected since) ->
      s.ended = true)
    (hreceived : forall d, y = some d -> hasOwner d = true ->
      hasOwner c = true)
    (hdue : (exists d, y = some d ∧ willClean d = true) ∨
      willClean c = false ∨
      (s.ended = true -> forall o, s.owner = some o ->
        Entry.cleanup o ∈ s.log))
    (hcleaned : forall o, cleaning c = some o ->
      (exists d, y = some d ∧ cleaning d = some o) ∨ Removed x s o)
    (htarget : forall d o, y = some d -> cleaning d = some o ->
      Entry.cleanup o ∈ s.log)
    (hsince : forall k o, y = some (PortCall.remove k o) ->
      forall m, Replaced x s o m -> m < k)
    (hstart : isStartClose c = true -> s.cleanupPromise ≠ none)
    (hinside : forall d, y = some d -> isStartClose d = false) :
    Upkeep x (L.put n y) s := by
  have hkeep : forall m d, (L.put n (some c)).pending m = some d -> m ≠ n ->
      (L.put n y).pending m = some d := by
    intro m d hm hne
    rcases Ledger.pending_put.mp hm with ⟨hmn, _⟩ | ⟨_, hm⟩
    · exact absurd hmn hne
    · exact Ledger.pending_put.mpr (Or.inr ⟨hne, hm⟩)
  have hold : forall m d, m ≠ n -> L.pending m = some d ->
      (L.put n (some c)).pending m = some d := by
    intro m d hne hm
    exact Ledger.pending_put.mpr (Or.inr ⟨hne, hm⟩)
  constructor
  · exact h.owner
  · intro m since hm
    rcases Ledger.pending_put.mp hm with ⟨_, hy⟩ | ⟨hne, hm⟩
    · exact hover since hy
    · exact h.refused m since (hold m _ hne hm)
  · intro m d hm hd
    rcases Ledger.pending_put.mp hm with ⟨_, hy⟩ | ⟨hne, hm⟩
    · exact h.received n c (L.put_same n _) (hreceived d hy hd)
    · exact h.received m d (hold m d hne hm) hd
  · intro hended o ho
    rcases h.due hended o ho with hdone | ⟨m, d, hm, hd⟩
    · exact Or.inl hdone
    · rcases hdue with ⟨e, he, hclean⟩ | hnot | hdone
      · exact Or.inr ⟨n, e, Ledger.pending_put.mpr (Or.inl ⟨rfl, he⟩), hclean⟩
      · refine Or.inr ⟨m, d, hkeep m d hm ?_, hd⟩
        intro hmn
        rw [hmn, Ledger.put_same] at hm
        cases hm
        rw [hnot] at hd
        cases hd
      · exact Or.inl (hdone hended o ho)
  · intro o ho
    have hwhere := h.cleaned o ho
    refine ⟨hwhere.1, ?_⟩
    rcases hwhere.2 with ⟨m, d, hm, hd⟩ | hremoved
    · by_cases hmn : m = n
      · rw [hmn, Ledger.put_same] at hm
        cases hm
        rcases hcleaned o hd with ⟨e, he, hclean⟩ | hremoved
        · exact Or.inl ⟨n, e, Ledger.pending_put.mpr (Or.inl ⟨rfl, he⟩), hclean⟩
        · exact Or.inr hremoved
      · exact Or.inl ⟨m, d, hkeep m d hm hmn, hd⟩
    · exact Or.inr hremoved
  · intro m d o hm hd
    rcases Ledger.pending_put.mp hm with ⟨_, hy⟩ | ⟨hne, hm⟩
    · exact htarget d o hy hd
    · exact h.target m d o (hold m d hne hm) hd
  · intro m k o hm
    rcases Ledger.pending_put.mp hm with ⟨_, hy⟩ | ⟨hne, hm⟩
    · exact hsince k o hy
    · exact h.since m k o (hold m _ hne hm)
  · exact h.once
  · intro hpromise _
    apply h.unclean hpromise
    intro m d hm
    rcases Ledger.pending_put.mp hm with ⟨_, hc⟩ | ⟨hne, hm⟩
    · cases hc
      exact Bool.eq_false_iff.mpr fun hd => hstart hd hpromise
    · exact htop.quiet hne hm
  · exact h.promised
  · intro m d hm hd
    rcases Ledger.pending_put.mp hm with ⟨_, hy⟩ | ⟨hne, hm⟩
    · rw [hinside d hy] at hd
      cases hd
    · rw [htop.quiet hne hm] at hd
      cases hd

namespace Upkeep

theorem enter (h : Upkeep x L s) (hfree : L.pending n = none)
    (hquiet : forall m d, L.pending m = some d -> isStartClose d = false)
    {c : PortCall} (hreceived : hasOwner c = false)
    (hclean : cleaning c = none) (hstart : isStartClose c = false)
    {ended : Bool} (hmono : s.ended = true -> ended = true)
    (hended : ended = true -> s.ended = true ∨ willClean c = true) :
    Upkeep x (L.put n (some c)) { s with ended := ended } := by
  have hkeep : forall m d, L.pending m = some d ->
      (L.put n (some c)).pending m = some d := by
    intro m d hm
    refine Ledger.pending_put.mpr (Or.inr ⟨?_, hm⟩)
    intro hmn
    rw [hmn, hfree] at hm
    cases hm
  constructor
  · exact h.owner
  · intro m since hm
    rcases Ledger.pending_put.mp hm with ⟨_, hc⟩ | ⟨_, hm⟩
    · cases hc
      cases hreceived
    · exact hmono (h.refused m since hm)
  · intro m d hm hd
    rcases Ledger.pending_put.mp hm with ⟨_, hc⟩ | ⟨_, hm⟩
    · cases hc
      rw [hreceived] at hd
      cases hd
    · exact h.received m d hm hd
  · intro hend o ho
    rcases hended hend with hold | hwill
    · rcases h.due hold o ho with hdone | ⟨m, d, hm, hd⟩
      · exact Or.inl hdone
      · exact Or.inr ⟨m, d, hkeep m d hm, hd⟩
    · exact Or.inr ⟨n, c, L.put_same n _, hwill⟩
  · intro o ho
    have hwhere := h.cleaned o ho
    refine ⟨hwhere.1, ?_⟩
    rcases hwhere.2 with ⟨m, d, hm, hd⟩ | hremoved
    · exact Or.inl ⟨m, d, hkeep m d hm, hd⟩
    · exact Or.inr hremoved
  · intro m d o hm hd
    rcases Ledger.pending_put.mp hm with ⟨_, hc⟩ | ⟨_, hm⟩
    · cases hc
      rw [hclean] at hd
      cases hd
    · exact h.target m d o hm hd
  · intro m k o hm
    rcases Ledger.pending_put.mp hm with ⟨_, hc⟩ | ⟨_, hm⟩
    · cases hc
      cases hclean
    · exact h.since m k o hm
  · exact h.once
  · intro hpromise _
    exact h.unclean hpromise hquiet
  · exact h.promised
  · intro m d hm hd
    rcases Ledger.pending_put.mp hm with ⟨_, hc⟩ | ⟨_, hm⟩
    · cases hc
      rw [hstart] at hd
      cases hd
    · rw [hquiet m d hm] at hd
      cases hd

theorem connected (h : Upkeep x (L.put n (some PortCall.connect)) s)
    (htop : Topmost L n) (hnone : s.owner = none) (o : Nat) :
    Upkeep x (L.put n (some (PortCall.revoking Site.connected)))
      { s with
        owner := some o
        log := s.log ++ [Entry.connected o] } := by
  have hunclean : forall o', Entry.cleanup o' ∉ s.log := by
    intro o' ho'
    have howner := (h.cleaned o' ho').1
    rw [hnone] at howner
    cases howner
  have hold : forall m d, m ≠ n -> L.pending m = some d ->
      (L.put n (some PortCall.connect)).pending m = some d := by
    intro m d hne hm
    exact Ledger.pending_put.mpr (Or.inr ⟨hne, hm⟩)
  have hclean : forall o', Entry.cleanup o' ∉ s.log ++ [Entry.connected o] := by
    intro o' ho'
    rcases List.mem_append.mp ho' with ho' | ho'
    · exact hunclean o' ho'
    · cases List.mem_singleton.mp ho'
  have hidle : forall m d o', (L.put n
      (some (PortCall.revoking Site.connected))).pending m = some d ->
      cleaning d ≠ some o' := by
    intro m d o' hm hd
    rcases Ledger.pending_put.mp hm with ⟨_, hc⟩ | ⟨hne, hm⟩
    · cases hc
      cases hd
    · exact hunclean o' (h.target m d o' (hold m d hne hm) hd)
  constructor
  · intro o'
    have hconnected : Entry.connected o' ∉ s.log := by
      intro ho'
      have howner := (h.owner o').mp ho'
      rw [hnone] at howner
      cases howner
    simp only [List.mem_append, List.mem_singleton, hconnected, false_or,
      Entry.connected.injEq, Option.some.injEq]
    exact eq_comm
  · intro m since hm
    rcases Ledger.pending_put.mp hm with ⟨_, hc⟩ | ⟨hne, hm⟩
    · cases hc
    · exact h.refused m since (hold m _ hne hm)
  · intro _ _ _ _
    exact ⟨o, rfl⟩
  · intro _ _ _
    exact Or.inr ⟨n, _, L.put_same n _, rfl⟩
  · intro o' ho'
    exact absurd ho' (hclean o')
  · intro m d o' hm hd
    exact absurd hd (hidle m d o' hm)
  · intro m k o' hm
    exact absurd rfl (hidle m _ o' hm)
  · simpa [List.countP_append, isCleanup] using h.once
  · intro _ _
    rw [List.countP_eq_zero]
    intro e he hclean'
    cases e with
    | cleanup o' => exact hclean o' he
    | _ => cases hclean'
  · intro hpromise
    rcases h.promised hpromise with ⟨o', ho'⟩
    exact absurd ho' (hunclean o')
  · intro m d hm hd
    rcases Ledger.pending_put.mp hm with ⟨_, hc⟩ | ⟨hne, hm⟩
    · cases hc
      cases hd
    · rw [htop.quiet hne hm] at hd
      cases hd

theorem startClose {c : PortCall} (h : Upkeep x (L.put n (some c)) s)
    (htop : Topmost L n) {o code : Nat} {reason : Reason} (howner : s.owner = some o)
    (hpromise : s.cleanupPromise = none) (hstart : isStartClose c = false) :
    Upkeep x (L.put n (some (PortCall.startClose o code reason)))
      { s with
        closing := true
        log := s.log ++ [Entry.cleanup o] } := by
  have hquiet : forall m d, (L.put n (some c)).pending m = some d ->
      isStartClose d = false := by
    intro m d hm
    rcases Ledger.pending_put.mp hm with ⟨_, hc⟩ | ⟨hne, hm⟩
    · cases hc
      exact hstart
    · exact htop.quiet hne hm
  have hzero := h.unclean hpromise hquiet
  have hunclean : forall o', Entry.cleanup o' ∉ s.log := by
    intro o' ho'
    have hnot := List.countP_eq_zero.mp hzero _ ho'
    exact hnot rfl
  have hold : forall m d, m ≠ n -> L.pending m = some d ->
      (L.put n (some c)).pending m = some d := by
    intro m d hne hm
    exact Ledger.pending_put.mpr (Or.inr ⟨hne, hm⟩)
  have hlast : Entry.cleanup o ∈ s.log ++ [Entry.cleanup o] := by simp
  constructor
  · intro o'
    rw [← h.owner o']
    simp
  · intro m since hm
    rcases Ledger.pending_put.mp hm with ⟨_, hc⟩ | ⟨hne, hm⟩
    · cases hc
    · exact h.refused m since (hold m _ hne hm)
  · intro _ _ _ _
    exact ⟨o, howner⟩
  · intro _ o' ho'
    rw [howner] at ho'
    cases ho'
    exact Or.inl hlast
  · intro o' ho'
    rcases List.mem_append.mp ho' with ho' | ho'
    · exact absurd ho' (hunclean o')
    · cases List.mem_singleton.mp ho'
      exact ⟨howner, Or.inl ⟨n, _, L.put_same n _, rfl⟩⟩
  · intro m d o' hm hd
    rcases Ledger.pending_put.mp hm with ⟨_, hc⟩ | ⟨hne, hm⟩
    · cases hc
      cases hd
      exact hlast
    · exact absurd (h.target m d o' (hold m d hne hm) hd) (hunclean o')
  · intro m k o' hm
    rcases Ledger.pending_put.mp hm with ⟨_, hc⟩ | ⟨hne, hm⟩
    · cases hc
    · exact h.since m k o' (hold m _ hne hm)
  · simp [List.countP_append, isCleanup, hzero]
  · intro _ hnot
    cases hnot n _ (L.put_same n _)
  · intro _
    exact ⟨o, hlast⟩
  · intro m d hm hd
    refine ⟨rfl, ?_⟩
    rcases Ledger.pending_put.mp hm with ⟨hmn, _⟩ | ⟨hne, hm⟩
    · intro m' d' hm' hd'
      rw [hmn]
      rcases Ledger.pending_put.mp hm' with ⟨hmn', _⟩ | ⟨hne', hm'⟩
      · exact Nat.le_of_eq hmn'
      · exact (htop m' d' hne' hm' hd').1
    · rw [htop.quiet hne hm] at hd
      cases hd

theorem promise {o code : Nat} {reason : Reason}
    (h : Upkeep x (L.put n (some (PortCall.startClose o code reason))) s)
    (htop : Topmost L n) :
    Upkeep x (L.put n (some (PortCall.closed o)))
      { s with
        closing := false
        cleanupPromise := some n } := by
  have hdone := h.target n _ o (L.put_same n _) rfl
  have hpromised : Upkeep x
      (L.put n (some (PortCall.startClose o code reason)))
      { s with cleanupPromise := some n } :=
    { h with unclean := nofun, promised := fun _ => ⟨o, hdone⟩ }
  have hput : Upkeep x (L.put n (some (PortCall.closed o)))
      { s with cleanupPromise := some n } := by
    apply hpromised.put htop
    · nofun
    · intro d hd hown
      cases hd
      cases hown
    · exact Or.inr (Or.inl rfl)
    · intro o' ho'
      exact Or.inl ⟨_, rfl, ho'⟩
    · intro d o' hd ho'
      cases hd
      cases ho'
      exact hdone
    · nofun
    · nofun
    · intro d hd
      cases hd
      rfl
  refine { hput with inside := ?_ }
  intro m d hm hd
  rcases Ledger.pending_put.mp hm with ⟨_, hc⟩ | ⟨hne, hm⟩
  · cases hc
    cases hd
  · rw [htop.quiet hne hm] at hd
    cases hd

theorem registry (h : Upkeep x L s) {r : RegistryRun}
    (hgrow : forall e, e ∈ s.registry.shared.log -> e ∈ r.shared.log)
    (hnew : forall o m, s.owner = some o ->
      Replaced x { s with registry := r } o m -> Replaced x s o m) :
    Upkeep x L { s with registry := r } := by
  refine { h with cleaned := ?_, since := ?_ }
  · intro o ho
    have hwhere := h.cleaned o ho
    refine ⟨hwhere.1, ?_⟩
    rcases hwhere.2 with hpending | ⟨k, res, owners, hended, hbefore⟩
    · exact Or.inl hpending
    · refine Or.inr ⟨k, res, owners, hgrow _ hended, ?_⟩
      intro m hm
      exact hbefore m (hnew o m hwhere.1 hm)
  · intro m k o hm j hj
    have howner := (h.cleaned o (h.target m _ o hm rfl)).1
    exact h.since m k o hm j (hnew o j howner hj)

end Upkeep

namespace Port

theorem put {c : PortCall} (h : Port x (L.put n (some c)) s)
    {y : Option PortCall}
    (houtside : forall d, y = some d -> unregisters d = true ->
      s.installed = true)
    (hsince : forall k, y = some (PortCall.unregister k) ->
      forall m, Registered x s m -> m < k)
    (hgone : (exists d, y = some d ∧ unregisters d = true) ∨
      unregisters c = false ∨ s.installed = true ∧ Gone x s) :
    Port x (L.put n y) s := by
  have hold : forall m d, m ≠ n -> L.pending m = some d ->
      (L.put n (some c)).pending m = some d := by
    intro m d hne hm
    exact Ledger.pending_put.mpr (Or.inr ⟨hne, hm⟩)
  constructor
  · exact h.handled
  · intro m d hm hd
    rcases Ledger.pending_put.mp hm with ⟨_, hy⟩ | ⟨hne, hm⟩
    · exact houtside d hy hd
    · exact h.outside m d (hold m d hne hm) hd
  · intro m k hm
    rcases Ledger.pending_put.mp hm with ⟨_, hy⟩ | ⟨hne, hm⟩
    · exact hsince k hy
    · exact h.since m k (hold m _ hne hm)
  · intro k hk
    rcases h.gone k hk with ⟨m, d, hm, hd⟩ | hdone
    · rcases hgone with ⟨e, he, hun⟩ | hnot | hdone
      · exact Or.inl ⟨n, e, Ledger.pending_put.mpr (Or.inl ⟨rfl, he⟩), hun⟩
      · left
        rcases Ledger.pending_put.mp hm with ⟨_, hc⟩ | ⟨hne, hm⟩
        · cases hc
          rw [hnot] at hd
          cases hd
        · exact ⟨m, d, Ledger.pending_put.mpr (Or.inr ⟨hne, hm⟩), hd⟩
      · exact Or.inr hdone
    · exact Or.inr hdone

theorem other {c : PortCall} (h : Port x (L.put n (some c)) s)
    (hc : unregisters c = false) {y : Option PortCall}
    (hy : forall d, y = some d -> unregisters d = false) :
    Port x (L.put n y) s := by
  apply h.put
  · intro d hd hun
    rw [hy d hd] at hun
    cases hun
  · intro k hk
    cases hy _ hk
  · exact Or.inr (Or.inl hc)

theorem start (h : Port x L s) (hfree : L.pending n = none) {c : PortCall}
    (hc : unregisters c = false) : Port x (L.put n (some c)) s := by
  constructor
  · exact h.handled
  · intro m d hm hd
    rcases Ledger.pending_put.mp hm with ⟨_, hcd⟩ | ⟨_, hm⟩
    · cases hcd
      rw [hc] at hd
      cases hd
    · exact h.outside m d hm hd
  · intro m k hm
    rcases Ledger.pending_put.mp hm with ⟨_, hcd⟩ | ⟨_, hm⟩
    · cases hcd
      cases hc
    · exact h.since m k hm
  · intro k hk
    rcases h.gone k hk with ⟨m, d, hm, hd⟩ | hdone
    · refine Or.inl ⟨m, d, Ledger.pending_put.mpr (Or.inr ⟨?_, hm⟩), hd⟩
      intro hmn
      rw [hmn, hfree] at hm
      cases hm
    · exact Or.inr hdone

theorem enter (h : Port x L s) (hinstalled : s.installed = true) :
    Port x (L.put n (some (PortCall.revoking Site.removeRegistration)))
      { s with
        ended := true
        log := s.log ++ [Entry.handled n] } := by
  constructor
  · intro _ _
    rfl
  · intro _ _ _ _
    exact hinstalled
  · intro m k hm
    rcases Ledger.pending_put.mp hm with ⟨_, hcd⟩ | ⟨_, hm⟩
    · cases hcd
    · exact h.since m k hm
  · intro _ _
    exact Or.inl ⟨n, _, L.put_same n _, rfl⟩

theorem log (h : Port x L s) {e : Entry}
    (he : forall m, e ≠ Entry.handled m) : Port x L (s.record e) := by
  have hmem : forall m, Entry.handled m ∈ (s.record e).log ->
      Entry.handled m ∈ s.log := by
    intro m hm
    rcases List.mem_append.mp hm with hm | hm
    · exact hm
    · exact absurd (List.mem_singleton.mp hm).symm (he m)
  refine { h with handled := ?_, gone := ?_ }
  · intro m hm
    exact h.handled m (hmem m hm)
  · intro m hm
    exact h.gone m (hmem m hm)

theorem index (h : Port x L s) {i : IndexRun}
    (hgrow : forall e, e ∈ s.index.shared.log -> e ∈ i.shared.log)
    (hnew : s.installed = true -> forall m,
      Registered x { s with index := i } m -> Registered x s m) :
    Port x L { s with index := i } := by
  refine { h with since := ?_, gone := ?_ }
  · intro m k hm j hj
    have hinstalled := h.outside m _ hm rfl
    exact h.since m k hm j (hnew hinstalled j hj)
  · intro m hm
    rcases h.gone m hm with hpending | ⟨hinstalled, k, res, index, hended,
      hbefore⟩
    · exact Or.inl hpending
    · refine Or.inr ⟨hinstalled, k, res, index, hgrow _ hended, ?_⟩
      intro j hj
      exact hbefore j (hnew hinstalled j hj)

end Port

end Moves

/-!
## The operations
-/

section Walk

variable (options : Options) (x : Connection)

/-- An operation that runs after the call `c`, as if it still waited. -/
structure Here (L : Ledger ports) (n : Nat) (c : PortCall) (s : State) :
    Prop where
  inv : Inv options x (L.put n (some c)) s
  top : Topmost L n
  free : L.pending n = none

variable {options x} {L : Ledger ports} {n : Nat} {s : State}

def isPlain : PortCall -> Bool
  | PortCall.revoking Site.failed => true
  | PortCall.closeAuthenticationRequired Site.failed _ => true
  | PortCall.rejectPort => true
  | PortCall.cleanupPromise _ => true
  | PortCall.closePort none _ _ => true
  | _ => false

theorem isPlain_spec {c : PortCall} (h : isPlain c = true) :
    isEarly c = false ∧ willClean c = false ∧ cleaning c = none ∧
      unregisters c = false ∧ isStartClose c = false ∧
      hasOwner c = false := by
  unfold isPlain at h
  split at h
  · exact ⟨rfl, rfl, rfl, rfl, rfl, rfl⟩
  · exact ⟨rfl, rfl, rfl, rfl, rfl, rfl⟩
  · exact ⟨rfl, rfl, rfl, rfl, rfl, rfl⟩
  · exact ⟨rfl, rfl, rfl, rfl, rfl, rfl⟩
  · exact ⟨rfl, rfl, rfl, rfl, rfl, rfl⟩
  · cases h

namespace Here

theorem number {c : PortCall} (h : Here options x L n c s) : n < L.next :=
  h.inv.numbers n c (L.put_same n _)

theorem numbers {c : PortCall} (h : Here options x L n c s)
    (y : Option PortCall) (m : Nat) (d : PortCall)
    (hm : (L.put n y).pending m = some d) : m < L.next := by
  rcases Ledger.pending_put.mp hm with ⟨hmn, _⟩ | ⟨hne, hm⟩
  · rw [hmn]
    exact h.number
  · exact h.inv.numbers m d (Ledger.pending_put.mpr (Or.inr ⟨hne, hm⟩))

theorem put {c : PortCall} (h : Here options x L n c s)
    {y : Option PortCall} (hsetup : Setup (L.put n y) s)
    (hupkeep : Upkeep x (L.put n y) s) (hport : Port x (L.put n y) s) :
    Inv options x (L.put n y) s :=
  { h.inv with
    numbers := h.numbers y
    setup := hsetup
    upkeep := hupkeep
    port := hport }

theorem plain {c : PortCall} (h : Here options x L n c s)
    (hc : c ≠ PortCall.registerIfActive)
    (hdue : willClean c = true -> s.ended = true -> forall o,
      s.owner = some o -> Entry.cleanup o ∈ s.log)
    (hclean : forall o, cleaning c = some o -> Removed x s o)
    (hgone : unregisters c = true -> s.installed = true ∧ Gone x s)
    (hstart : isStartClose c = false)
    {y : Option PortCall} (hy : forall d, y = some d -> isPlain d = true) :
    Inv options x (L.put n y) s := by
  apply h.put
  · exact h.inv.setup.put hc fun d hd => (isPlain_spec (hy d hd)).1
  · apply h.inv.upkeep.put h.top
    · intro since hd
      cases (isPlain_spec (hy _ hd)).2.2.2.2.2
    · intro d hd hown
      rw [(isPlain_spec (hy d hd)).2.2.2.2.2] at hown
      cases hown
    · cases hwill : willClean c with
      | false => exact Or.inr (Or.inl rfl)
      | true => exact Or.inr (Or.inr (hdue hwill))
    · intro o ho
      exact Or.inr (hclean o ho)
    · intro d o hd ho
      rw [(isPlain_spec (hy d hd)).2.2.1] at ho
      cases ho
    · intro k o hd
      cases (isPlain_spec (hy _ hd)).2.2.1
    · intro hd
      rw [hstart] at hd
      cases hd
    · intro d hd
      exact (isPlain_spec (hy d hd)).2.2.2.2.1
  · apply h.inv.port.put
    · intro d hd hun
      rw [(isPlain_spec (hy d hd)).2.2.2.1] at hun
      cases hun
    · intro k hd
      cases (isPlain_spec (hy _ hd)).2.2.2.1
    · cases hun : unregisters c with
      | false => exact Or.inr (Or.inl rfl)
      | true => exact Or.inr (Or.inr (hgone hun))

theorem startClose {c : PortCall} (h : Here options x L n c s)
    (hc : c ≠ PortCall.registerIfActive) (hstart : isStartClose c = false)
    (hgone : unregisters c = true -> s.installed = true ∧ Gone x s)
    {o : Nat} (howner : s.owner = some o) (hpromise : s.cleanupPromise = none)
    (code : Nat) (reason : Reason) :
    Inv options x (L.put n (some (PortCall.startClose o code reason)))
      { s with
        closing := true
        log := s.log ++ [Entry.cleanup o] } := by
  have hsetup : Setup (L.put n (some (PortCall.startClose o code reason)))
      s := by
    apply h.inv.setup.put hc
    intro d hd
    cases hd
    rfl
  have hport : Port x (L.put n (some (PortCall.startClose o code reason)))
      s := by
    apply h.inv.port.put
    · intro d hd hun
      cases hd
      cases hun
    · nofun
    · cases hun : unregisters c with
      | false => exact Or.inr (Or.inl rfl)
      | true => exact Or.inr (Or.inr (hgone hun))
  exact
    { h.inv with
      numbers := h.numbers _
      setup := { hsetup with }
      upkeep := h.inv.upkeep.startClose h.top howner hpromise hstart
      port := { hport.log (e := Entry.cleanup o) nofun with }
      good := everyEntry_snoc.mpr ⟨h.inv.good, trivial⟩ }

theorem promise {o code : Nat} {reason : Reason}
    (h : Here options x L n (PortCall.startClose o code reason) s) :
    Here options x L n (PortCall.closed o)
      { s with
        closing := false
        cleanupPromise := some n } := by
  have hsetup : Setup (L.put n (some (PortCall.closed o))) s := by
    apply h.inv.setup.put nofun
    intro d hd
    cases hd
    rfl
  have hport : Port x (L.put n (some (PortCall.closed o))) s := by
    apply h.inv.port.other rfl
    intro d hd
    cases hd
    rfl
  exact
    { h with
      inv :=
        { h.inv with
          numbers := h.numbers _
          setup := { hsetup with }
          upkeep := h.inv.upkeep.promise h.top
          port := { hport with } } }

theorem leave {c : PortCall} (h : Here options x L n c s)
    (hinv : Inv options x (L.put n none) s) : Inv options x L s := by
  rw [Ledger.put_none h.free] at hinv
  exact hinv

end Here

theorem here_of_wait {L : Ledger ports} {c : PortCall}
    (hinv : Inv options x L s) (hpending : L.pending n = some c)
    (hc : boundary c ≠ Boundary.sync)
    (hsettled : L.Settled (handler options x) n c) :
    Here options x (L.put n none) n c s := by
  have hput : (L.put n none).put n (some c) = L := by
    rw [Ledger.put_put]
    rcases L with ⟨next, pending⟩
    simp only [Ledger.put, Ledger.mk.injEq, true_and]
    rw [Function.update_eq_self_iff]
    exact hpending.symm
  refine ⟨?_, ?_, L.put_same n _⟩
  · rw [hput]
    exact hinv
  · intro m d hne hm hd
    rw [Ledger.put_other L _ hne] at hm
    cases hb : boundary c with
    | sync => exact absurd hb hc
    | await =>
        have hawait := hsettled.1 hb m d hm
        change boundary d = Boundary.await at hawait
        rw [hd] at hawait
        cases hawait
    | callback =>
        have hle := hsettled.2 hb m d hm hd
        refine ⟨hle, ?_⟩
        cases hstart : isStartClose d with
        | false => rfl
        | true =>
            have hge := (hinv.upkeep.inside m d hm hstart).2 n c hpending hb
            exact absurd (Nat.le_antisymm hle hge) hne

theorem owes_call {result : Type} {c : PortCall}
    {k : PortReply c -> Code result}
    {Q : Except Empty result -> Ledger ports -> State -> Prop}
    (hc : boundary c ≠ Boundary.sync)
    (hinv : Inv options x (L.put n (some c)) (issue x n c s))
    (hk : forall L' t r, Here options x L' n c t -> allowed x t n c r ->
      (k r).owes (handler options x) (Inv options x) n Q L'
        (reply n c r t)) :
    (Prog.call (I := ports) c k).owes (handler options x) (Inv options x) n Q
      L s := by
  refine (Prog.owes_wait (M := handler options x) hc).mpr ⟨hinv, ?_⟩
  intro L' t r hpending _ hsettled hinv' hr
  exact hk _ t r (here_of_wait hinv' hpending hc hsettled) hr

theorem Inv.flags (h : Inv options x L s) (authenticationEnded
    listenersDisposed socketOpen active : Bool) :
    Inv options x L
      { s with
        authenticationEnded := authenticationEnded
        listenersDisposed := listenersDisposed
        socketOpen := socketOpen
        active := active } :=
  { h with
    setup := { h.setup with }
    upkeep := { h.upkeep with }
    port := { h.port with } }

theorem Here.flags {c : PortCall} (h : Here options x L n c s)
    (authenticationEnded listenersDisposed socketOpen active : Bool) :
    Here options x L n c
      { s with
        authenticationEnded := authenticationEnded
        listenersDisposed := listenersDisposed
        socketOpen := socketOpen
        active := active } :=
  { h with inv := h.inv.flags _ _ _ _ }

theorem Inv.stepRegistry (h : Inv options x L s) {r : RegistryRun}
    (hstep : Step BridgeRegistry.alone s.registry r)
    (hnew : forall o m, s.owner = some o ->
      Replaced x { s with registry := r } o m -> Replaced x s o m) :
    Inv options x L { s with registry := r } :=
  { h with
    registry := Relation.ReflTransGen.tail h.registry hstep
    setup := { h.setup with }
    upkeep := h.upkeep.registry
      (fun _ he => BridgeRegistry.log_grows h.registry hstep he) hnew
    port := { h.port with } }

theorem owes_removeOwner {o : Nat} (op : Op)
    (h : Here options x L n (PortCall.closed o) s) :
    (removeOwner o).owes (handler options x) (Inv options x) n
      (finalOwes (handler options x) (Inv options x) n op) L s := by
  have hdone := h.inv.upkeep.target n _ o (L.put_same n _) rfl
  have howner := (h.inv.upkeep.cleaned o hdone).1
  -- the registry, when the removal has been called
  let r : RegistryRun := s.registry.start BridgeRegistry.alone
    (BridgeRegistry.Op.remove x.sessionId o)
  have hold : forall o' m, s.owner = some o' ->
      Replaced x { s with registry := r } o' m -> Replaced x s o' m := by
    intro o' m _ hreplaced
    rcases hreplaced with ⟨flag, hmem⟩
    rcases BridgeRegistry.mem_start_remove _ _ _ hmem with hmem | heq | heq
    · exact ⟨flag, hmem⟩
    · cases heq
    · cases heq
  have hstepped : Inv options x (L.put n (some (PortCall.closed o)))
      { s with registry := r } :=
    h.inv.stepRegistry (BridgeRegistry.start_step s.registry _) hold
  have hhere : Here options x L n (PortCall.closed o)
      { s with registry := r } := ⟨hstepped, h.top, h.free⟩
  unfold removeOwner
  simp only [Prog.read_bind, Prog.owes_act, id_eq]
  refine owes_call (c := PortCall.remove s.registry.next o)
    (fun h => by cases h) ?_ ?_
  · apply hhere.put
    · apply hstepped.setup.put (fun h => by cases h)
      intro d hd
      cases hd
      rfl
    · apply hstepped.upkeep.put h.top
      · exact fun _ h => by cases h
      · intro d hd hown
        cases hd
        cases hown
      · exact Or.inr (Or.inl rfl)
      · intro o' ho'
        exact Or.inl ⟨_, rfl, ho'⟩
      · intro d o' hd ho'
        cases hd
        cases ho'
        exact hdone
      · intro k o' hd m hm
        cases hd
        rcases hold o m howner hm with ⟨flag, hmem⟩
        exact BridgeRegistry.entered_lt h.inv.registry hmem
      · exact fun h => by cases h
      · intro d hd
        cases hd
        rfl
    · apply hstepped.port.other rfl
      intro d hd
      cases hd
      rfl
  · intro L' t r h' hallowed
    rcases hallowed with ⟨res, owners, hended⟩
    have hsince := h'.inv.upkeep.since n _ o (L'.put_same n _)
    apply h'.leave
    apply h'.plain
    · exact fun h => by cases h
    · exact fun h => by cases h
    · intro o' ho'
      cases ho'
      exact ⟨_, res, owners, hended, hsince⟩
    · exact fun h => by cases h
    · rfl
    · exact fun _ h => by cases h

/-- What is left of a clean-up. -/
def Resting (options : Options) (x : Connection) (L : Ledger ports) (n : Nat)
    (s : State) : Cleanup -> Prop
  | Cleanup.started o _ => Here options x L n (PortCall.closed o) s
  | _ => exists c, isPlain c = true ∧ Here options x L n c s

theorem Here.finish {c : PortCall} (h : Here options x L n c s)
    (hc : isPlain c = true) {y : Option PortCall}
    (hy : forall d, y = some d -> isPlain d = true) :
    Inv options x (L.put n y) s := by
  rcases isPlain_spec hc with ⟨hearly, hwill, hclean, hun, hstart, _⟩
  apply h.plain _ _ _ _ hstart hy
  · intro heq
    rw [heq] at hearly
    cases hearly
  · intro hd
    rw [hwill] at hd
    cases hd
  · intro o ho
    rw [hclean] at ho
    cases ho
  · intro hd
    rw [hun] at hd
    cases hd

theorem owes_cleanupRest {cleanup : Cleanup} (op : Op)
    (h : Resting options x L n s cleanup) :
    (cleanupRest cleanup).owes (handler options x) (Inv options x) n
      (finalOwes (handler options x) (Inv options x) n op) L s := by
  cases cleanup with
  | running k =>
      rcases h with ⟨c, hc, h⟩
      exact h.leave (h.finish hc nofun)
  | nothing =>
      rcases h with ⟨c, hc, h⟩
      exact h.leave (h.finish hc nofun)
  | started o res =>
      cases res with
      | error u => exact owes_removeOwner op h
      | ok u =>
          refine owes_call (c := PortCall.closed o) nofun h.inv ?_
          intro L' t r h' _
          exact owes_removeOwner op h'

/-- `cleanupOwner`, called by an operation that was on its way to it. -/
theorem owes_cleanupOwner {c : PortCall} {code : Nat} {reason : Reason}
    {Q : Except Empty Cleanup -> Ledger ports -> State -> Prop}
    (h : Here options x L n c s) (hwill : willClean c = true)
    (hgone : unregisters c = true -> s.installed = true ∧ Gone x s)
    (hQ : forall L' t cleanup, Resting options x L' n t cleanup ->
      Q (Except.ok cleanup) L' t) :
    (cleanupOwner n code reason).owes (handler options x) (Inv options x) n Q
      L s := by
  have hnot : c ≠ PortCall.registerIfActive := by
    intro heq
    rw [heq] at hwill
    cases hwill
  have hstart : isStartClose c = false := by
    cases c with
    | startClose o code reason => cases hwill
    | _ => rfl
  have hclean : cleaning c = none := by
    cases c with
    | revoking site => rfl
    | unregister k => rfl
    | closeAuthenticationRequired site since => rfl
    | _ => cases hwill
  -- nothing is to be done
  have hidle : (s.ended = true -> forall o, s.owner = some o ->
      Entry.cleanup o ∈ s.log) ->
      exists d, isPlain d = true ∧ Here options x L n d s := by
    intro hdone
    refine ⟨PortCall.rejectPort, rfl, ?_, h.top, h.free⟩
    apply h.plain hnot (fun _ => hdone) _ hgone hstart
    · intro d hd
      cases hd
      rfl
    · intro o ho
      rw [hclean] at ho
      cases ho
  unfold cleanupOwner
  simp only [Prog.read_bind, Prog.owes_act, id_eq]
  cases hpromise : s.cleanupPromise with
  | some k =>
      apply hQ
      apply hidle
      intro _ o ho
      have hsome : s.cleanupPromise ≠ none := by
        rw [hpromise]
        exact fun h => by cases h
      rcases h.inv.upkeep.promised hsome with ⟨o', ho'⟩
      have howner := (h.inv.upkeep.cleaned o' ho').1
      rw [howner] at ho
      cases ho
      exact ho'
  | none =>
      cases howner : s.owner with
      | none =>
          apply hQ
          apply hidle
          intro _ o ho
          rw [howner] at ho
          cases ho
      | some target =>
          refine owes_call (c := PortCall.startClose target code reason)
            (fun h => by cases h)
            ?_ ?_
          · exact h.startClose hnot hstart hgone howner hpromise code reason
          · intro L' t r h' _
            exact hQ L' _ (Cleanup.started target r) h'.promise

theorem owes_cleanupConnection {c : PortCall}
    {Q : Except Empty Cleanup -> Ledger ports -> State -> Prop}
    (h : Here options x L n c s) (hwill : willClean c = true)
    (hgone : unregisters c = true -> s.installed = true ∧ Gone x s)
    (hQ : forall L' t cleanup, Resting options x L' n t cleanup ->
      Q (Except.ok cleanup) L' t) :
    (cleanupConnection n).owes (handler options x) (Inv options x) n Q L
      s := by
  unfold cleanupConnection
  simp only [Prog.read_bind, Prog.owes_act, id_eq]
  split
  · exact owes_cleanupOwner h hwill hgone hQ
  · exact owes_cleanupOwner h hwill hgone hQ

theorem owes_isActive {site : Site}
    {Q : Except Empty Bool -> Ledger ports -> State -> Prop}
    (h : Here options x L n (PortCall.revoking site) s)
    (hyes : s.active = true -> Q (Except.ok true) L s)
    (hno : forall L' t, Here options x L' n (PortCall.revoking site) t ->
      Q (Except.ok false) L' t) :
    (isActive site).owes (handler options x) (Inv options x) n Q L s := by
  unfold isActive
  refine (Prog.owes_sync (M := handler options x) rfl).mpr ?_
  intro active hallowed
  cases active with
  | true => exact hyes (hallowed rfl).1
  | false =>
      refine owes_call (c := PortCall.revoking site) nofun h.inv ?_
      intro L' t r h' _
      exact hno L' t h'

/-- `removeRegistration`, once the connection is marked as ended. -/
theorem owes_unregister {Q : Except Empty Cleanup -> Ledger ports -> State ->
      Prop}
    (h : Here options x L n (PortCall.revoking Site.removeRegistration) s)
    (hQ : forall L' t cleanup, Resting options x L' n t cleanup ->
      Q (Except.ok cleanup) L' t) :
    (Prog.call (I := ports) (PortCall.unregister s.index.next) fun _ =>
      cleanupConnection n).owes (handler options x) (Inv options x) n Q L
        s := by
  refine owes_call (c := PortCall.unregister s.index.next) nofun ?_ ?_
  · apply h.put
    · apply h.inv.setup.put nofun
      intro d hd
      cases hd
      rfl
    · apply h.inv.upkeep.put h.top
      · nofun
      · intro d hd hown
        cases hd
        cases hown
      · exact Or.inl ⟨_, rfl, rfl⟩
      · nofun
      · intro d o hd ho
        cases hd
        cases ho
      · nofun
      · nofun
      · intro d hd
        cases hd
        rfl
    · apply h.inv.port.put
      · intro _ _ _
        exact h.inv.port.outside n _ (L.put_same n _) rfl
      · intro k hk m hm
        cases hk
        rcases hm with ⟨authority, tab, registrations, hmem⟩
        exact WebSocketAuthIndex.entered_lt h.inv.index hmem
      · exact Or.inl ⟨_, rfl, rfl⟩
  · intro L' t r h' hallowed
    rcases hallowed with ⟨m, res, index, hle, hended⟩
    have hinstalled := h'.inv.port.outside n _ (L'.put_same n _) rfl
    have hsince := h'.inv.port.since n _ (L'.put_same n _)
    apply owes_cleanupConnection h' rfl _ hQ
    intro _
    refine ⟨hinstalled, m, res, index, hended, ?_⟩
    intro k hk
    exact Nat.lt_of_lt_of_le (hsince k hk) hle

theorem owes_removeRegistration
    {Q : Except Empty Cleanup -> Ledger ports -> State -> Prop}
    (hhere : forall closeListener errorListener listenersDisposed,
      Here options x L n (PortCall.revoking Site.removeRegistration)
        { s with
          ended := true
          closeListener := closeListener
          errorListener := errorListener
          listenersDisposed := listenersDisposed })
    (hQ : forall L' t cleanup, Resting options x L' n t cleanup ->
      Q (Except.ok cleanup) L' t) :
    (removeRegistration n).owes (handler options x) (Inv options x) n Q L
      s := by
  have hrest : forall closeListener errorListener listenersDisposed,
      (do
        let active ← isActive Site.removeRegistration
        Prog.modify fun s => { s with authenticationEnded := !active }
        let s ← Prog.read
        let _ ← Prog.ask (I := ports) (PortCall.unregister s.index.next)
        cleanupConnection n : Code Cleanup).owes (handler options x)
          (Inv options x) n Q L
          { s with
            ended := true
            closeListener := closeListener
            errorListener := errorListener
            listenersDisposed := listenersDisposed } := by
    intro closeListener errorListener listenersDisposed
    refine Prog.owes_bind.mpr (owes_isActive (hhere _ _ _) ?_ ?_)
    · intro _
      exact owes_unregister ((hhere _ _ _).flags false _ _ _) hQ
    · intro L' t h'
      exact owes_unregister (h'.flags true _ _ _) hQ
  unfold removeRegistration disposeSocketListeners
  simp only [Prog.read_bind, Prog.act_bind, Prog.owes_act, id_eq]
  cases hdisposed : s.listenersDisposed with
  | true =>
      have hsame := hrest s.closeListener s.errorListener s.listenersDisposed
      exact hsame
  | false => exact hrest false false true

theorem Inv.event (h : Inv options x L s) (hfree : L.pending L.next = none)
    (hinstalled : s.installed = true) (hclosing : s.closing = false)
    (closeListener errorListener listenersDisposed : Bool) :
    Here options x { L with next := L.next + 1 } L.next
      (PortCall.revoking Site.removeRegistration)
      { s with
        ended := true
        closeListener := closeListener
        errorListener := errorListener
        listenersDisposed := listenersDisposed
        log := s.log ++ [Entry.handled L.next] } := by
  have hquiet : forall m d, L.pending m = some d ->
      isStartClose d = false := by
    intro m d hm
    cases hstart : isStartClose d with
    | false => rfl
    | true =>
        have hinside := (h.upkeep.inside m d hm hstart).1
        rw [hclosing] at hinside
        cases hinside
  have hsetup := h.setup.handled hinstalled (n := L.next)
    (c := PortCall.revoking Site.removeRegistration) rfl hfree closeListener
    errorListener
  have hupkeep := (h.upkeep.log (e := Entry.handled L.next) nofun rfl).enter
    (c := PortCall.revoking Site.removeRegistration) hfree hquiet rfl rfl rfl
    (fun _ => rfl) (fun _ => Or.inr rfl)
  have hport := h.port.enter (n := L.next) hinstalled
  refine ⟨?_, ?_, hfree⟩
  · constructor
    · intro m d hm
      rcases Ledger.pending_put.mp hm with ⟨hmn, _⟩ | ⟨_, hm⟩
      · rw [hmn]
        exact Nat.lt_succ_self _
      · exact Nat.lt_succ_of_lt (h.numbers m d hm)
    · exact h.registry
    · exact h.index
    · exact { hsetup with }
    · exact { hupkeep with }
    · exact { hport with }
    · exact everyEntry_snoc.mpr ⟨h.good, trivial⟩
  · intro m d _ hm _
    exact ⟨Nat.le_of_lt (h.numbers m d hm), hquiet m d hm⟩

theorem Here.keep {c d : PortCall} (h : Here options x L n c s) {o : Nat}
    (hc : cleaning c = some o) (hd : cleaning d = some o)
    (hstart : isStartClose c = false)
    (hd' : d = PortCall.closed o ∨
      exists code reason, d = PortCall.closePort (some o) code reason) :
    Inv options x (L.put n (some d)) s := by
  have hplace : isEarly d = false ∧ unregisters d = false ∧
      isStartClose d = false ∧ (forall k o', d ≠ PortCall.remove k o') ∧
      hasOwner d = false := by
    rcases hd' with hd' | ⟨code, reason, hd'⟩
    · rw [hd']
      exact ⟨rfl, rfl, rfl, nofun, rfl⟩
    · rw [hd']
      exact ⟨rfl, rfl, rfl, nofun, rfl⟩
  have hcall : c ≠ PortCall.registerIfActive ∧ willClean c = false ∧
      unregisters c = false := by
    cases c with
    | startClose owner code reason => exact ⟨nofun, rfl, rfl⟩
    | closed owner => exact ⟨nofun, rfl, rfl⟩
    | remove operation owner => exact ⟨nofun, rfl, rfl⟩
    | closePort target code reason => exact ⟨nofun, rfl, rfl⟩
    | _ => cases hc
  have hdone := h.inv.upkeep.target n c o (L.put_same n _) hc
  apply h.put
  · apply h.inv.setup.put hcall.1
    intro e he
    cases he
    exact hplace.1
  · apply h.inv.upkeep.put h.top
    · intro since he
      cases he
      cases hplace.2.2.2.2
    · intro e he hown
      cases he
      rw [hplace.2.2.2.2] at hown
      cases hown
    · exact Or.inr (Or.inl hcall.2.1)
    · intro o' ho'
      rw [hc] at ho'
      cases ho'
      exact Or.inl ⟨d, rfl, hd⟩
    · intro e o' he ho'
      cases he
      rw [hd] at ho'
      cases ho'
      exact hdone
    · intro k o' he
      exact absurd (Option.some.inj he) (hplace.2.2.2.1 k o')
    · intro hs
      rw [hstart] at hs
      cases hs
    · intro e he
      cases he
      exact hplace.2.2.1
  · apply h.inv.port.other hcall.2.2
    intro e he
    cases he
    exact hplace.2.1

theorem owes_closeEvent (h : Inv options x L s)
    (hfree : L.pending L.next = none) (hinstalled : s.installed = true)
    (hclosing : s.closing = false) :
    (closeEvent L.next).owes (handler options x) (Inv options x) L.next
      (finalOwes (handler options x) (Inv options x) L.next Op.closeEvent)
      { L with next := L.next + 1 } (enter L.next Op.closeEvent s) := by
  unfold closeEvent
  refine Prog.owes_bind.mpr (owes_removeRegistration ?_ ?_)
  · intro closeListener errorListener listenersDisposed
    exact h.event hfree hinstalled hclosing _ _ _
  · intro L' t cleanup hrest
    exact owes_cleanupRest Op.closeEvent hrest

theorem owes_onSocketError (h : Inv options x L s)
    (hfree : L.pending L.next = none) (hinstalled : s.installed = true)
    (hclosing : s.closing = false) :
    (onSocketError L.next).owes (handler options x) (Inv options x) L.next
      (finalOwes (handler options x) (Inv options x) L.next Op.errorEvent)
      { L with next := L.next + 1 } (enter L.next Op.errorEvent s) := by
  unfold onSocketError
  refine Prog.owes_bind.mpr (owes_removeRegistration ?_ ?_)
  · intro closeListener errorListener listenersDisposed
    exact h.event hfree hinstalled hclosing _ _ _
  · intro L' t cleanup hrest
    show Prog.owes _ _ _ _ (Prog.read >>= _) _ _
    simp only [Prog.read_bind, Prog.owes_act, id_eq]
    split
    · refine owes_call (c := PortCall.closePort cleanup.target 1011
        Reason.socket_error) (fun h => by cases h) ?_ ?_
      · cases cleanup with
        | started o res => exact Here.keep hrest rfl rfl rfl (Or.inr ⟨_, _, rfl⟩)
        | running k =>
            rcases hrest with ⟨c, hc, hrest⟩
            apply hrest.finish hc
            intro d hd
            cases hd
            rfl
        | nothing =>
            rcases hrest with ⟨c, hc, hrest⟩
            apply hrest.finish hc
            intro d hd
            cases hd
            rfl
      · intro L'' t' r h' _
        apply owes_cleanupRest Op.errorEvent
        cases cleanup with
        | started o res =>
            exact ⟨h'.keep rfl rfl rfl (Or.inl rfl), h'.top, h'.free⟩
        | running k => exact ⟨_, rfl, h'⟩
        | nothing => exact ⟨_, rfl, h'⟩
    · exact owes_cleanupRest Op.errorEvent hrest

theorem Here.ready {c : PortCall} (h : Here options x L n c s)
    (hwill : willClean c = true) (hun : unregisters c = false)
    (hconnected : exists o, Entry.connected o ∈ s.log)
    (hended : s.ended = false) (hopen : s.socketOpen = true)
    (hactive : s.active = true) :
    Inv options x L (s.record (Entry.ready s.socketOpen s.active)) := by
  have hinv : Inv options x L s := by
    apply h.leave
    cases c with
    | revoking site =>
        refine h.plain nofun ?_ nofun ?_ rfl nofun
        · intro _ hend
          rw [hended] at hend
          cases hend
        · intro hd
          rw [hun] at hd
          cases hd
    | closeAuthenticationRequired site since =>
        refine h.plain nofun ?_ nofun nofun rfl nofun
        intro _ hend
        rw [hended] at hend
        cases hend
    | unregister k => cases hun
    | _ => cases hwill
  refine { hinv with
    setup := { hinv.setup with }
    upkeep := hinv.upkeep.log nofun rfl
    port := hinv.port.log nofun
    good := everyEntry_snoc.mpr ⟨hinv.good, hopen, hactive, hconnected, ?_⟩ }
  intro m hm
  have hend := hinv.port.handled m hm
  rw [hended] at hend
  cases hend

theorem owes_settleConnected {c : PortCall} (h : Here options x L n c s)
    (hwill : willClean c = true) (hun : unregisters c = false)
    (hconnected : exists o, Entry.connected o ∈ s.log)
    (hactive : s.ended = true ∨ s.active = true) :
    (settleConnected n).owes (handler options x) (Inv options x) n
      (finalOwes (handler options x) (Inv options x) n Op.connection) L
      s := by
  unfold settleConnected
  simp only [Prog.read_bind, Prog.owes_act, id_eq]
  split
  · refine Prog.owes_bind.mpr (owes_cleanupConnection h hwill ?_ ?_)
    · intro hd
      rw [hun] at hd
      cases hd
    · intro L' t cleanup hrest
      cases cleanup with
      | running k =>
          rcases hrest with ⟨d, hd, hrest⟩
          refine owes_call (c := PortCall.cleanupPromise k)
            (fun h => by cases h) ?_ ?_
          · apply hrest.finish hd
            intro e he
            cases he
            rfl
          · intro L'' t' r h' _
            exact h'.leave (h'.finish rfl (fun _ h => by cases h))
      | nothing => exact owes_cleanupRest Op.connection hrest
      | started o res => exact owes_cleanupRest Op.connection hrest
  · rename_i hready
    have hboth : s.ended = false ∧ s.socketOpen = true := by
      simpa using hready
    refine (Prog.owes_sync (M := handler options x) rfl).mpr ?_
    intro _ _
    refine h.ready hwill hun hconnected hboth.1 hboth.2 ?_
    rcases hactive with hend | hactive
    · rw [hboth.1] at hend
      cases hend
    · exact hactive

theorem Here.logged {c : PortCall} (h : Here options x L n c s)
    (hc : hasOwner c = true) : exists o, Entry.connected o ∈ s.log := by
  rcases h.inv.upkeep.received n c (L.put_same n _) hc with ⟨o, ho⟩
  exact ⟨o, (h.inv.upkeep.owner o).mpr ho⟩

theorem Here.connected (h : Here options x L n PortCall.connect s)
    (o : Nat) :
    Here options x L n (PortCall.revoking Site.connected)
      { s with
        owner := some o
        log := s.log ++ [Entry.connected o] } := by
  have hnone := (h.inv.setup.early n _ (L.put_same n _) rfl).1
  have hsetup : Setup (L.put n (some (PortCall.revoking Site.connected)))
      { s with owner := some o } := by
    apply h.inv.setup.connected
    intro d hd
    cases hd
    rfl
  have hport : Port x (L.put n (some (PortCall.revoking Site.connected)))
      s := by
    apply h.inv.port.other rfl
    intro d hd
    cases hd
    rfl
  exact
    { h with
      inv :=
        { h.inv with
          numbers := h.numbers _
          setup := { hsetup with }
          upkeep := h.inv.upkeep.connected h.top hnone o
          port := { hport.log (e := Entry.connected o) nofun with }
          good := everyEntry_snoc.mpr ⟨h.inv.good, trivial⟩ } }

theorem Here.revoked
    (h : Here options x L n (PortCall.revoking Site.connected) s)
    (since : Nat) :
    Inv options x (L.put n (some (PortCall.closeAuthenticationRequired
      Site.connected since)))
      { s with
        authenticationEnded := true
        ended := true } := by
  have hended : Inv options x
      (L.put n (some (PortCall.revoking Site.connected)))
      { s with ended := true } := by
    refine { h.inv with
      setup := { h.inv.setup with }
      upkeep := { h.inv.upkeep with refused := ?_, due := ?_ }
      port := { h.inv.port with handled := ?_ } }
    · intro _ _ _
      rfl
    · intro _ _ _
      exact Or.inr ⟨n, _, L.put_same n _, rfl⟩
    · intro _ _
      rfl
  have hhere : Here options x L n (PortCall.revoking Site.connected)
      { s with ended := true } := ⟨hended, h.top, h.free⟩
  have hput : Inv options x (L.put n (some
      (PortCall.closeAuthenticationRequired Site.connected since)))
      { s with ended := true } := by
    apply hhere.put
    · apply hended.setup.put nofun
      intro d hd
      cases hd
      rfl
    · apply hended.upkeep.put h.top
      · intro _ _
        rfl
      · intro _ _ _
        rfl
      · exact Or.inl ⟨_, rfl, rfl⟩
      · nofun
      · intro d o hd ho
        cases hd
        cases ho
      · nofun
      · nofun
      · intro d hd
        cases hd
        rfl
    · apply hended.port.other rfl
      intro d hd
      cases hd
      rfl
  exact hput.flags true _ _ _

theorem owes_connected (o : Nat)
    (h : Here options x L n PortCall.connect s) :
    (connected n o).owes (handler options x) (Inv options x) n
      (finalOwes (handler options x) (Inv options x) n Op.connection) L
      (s.record (Entry.connected o)) := by
  have hhere := h.connected o
  unfold connected
  simp only [Prog.modify_bind, Prog.owes_act]
  refine Prog.owes_bind.mpr (owes_isActive hhere ?_ ?_)
  · intro hactive
    exact owes_settleConnected hhere rfl rfl (hhere.logged rfl)
      (Or.inr hactive)
  · intro L' t h'
    simp only [Prog.thenOwes, Bool.false_eq_true, if_false, Prog.owes_act]
    unfold closeAuthenticationRequired
    simp only [Prog.read_bind, Prog.act_bind, Prog.owes_act, id_eq]
    refine owes_call (c := PortCall.closeAuthenticationRequired Site.connected
      t.index.next) (fun h => by cases h) (h'.revoked _) ?_
    intro L'' t' r h'' _
    exact owes_settleConnected h'' rfl rfl (h''.logged rfl)
      (Or.inl (h''.inv.upkeep.refused n _ (L''.put_same n _)))

theorem owes_last {c d : PortCall} (h : Here options x L n c s)
    (hc : isPlain c = true) (hd : isPlain d = true)
    (hsync : boundary d ≠ Boundary.sync) (hreply : forall r t,
      reply n d r t = t) (hissue : issue x n d s = s) (op : Op) :
    (do
      let _ ← Prog.ask (I := ports) d
      pure () : Code Unit).owes (handler options x) (Inv options x) n
      (finalOwes (handler options x) (Inv options x) n op) L s := by
  refine owes_call (c := d) hsync ?_ ?_
  · rw [hissue]
    apply h.finish hc
    intro e he
    cases he
    exact hd
  · intro L' t r h' _
    rw [hreply]
    exact h'.leave (h'.finish hd nofun)

theorem owes_closeFailed {c : PortCall} (h : Here options x L n c s)
    (hc : isPlain c = true) (op : Op) :
    (closeAuthenticationRequired Site.failed).owes (handler options x)
      (Inv options x) n (finalOwes (handler options x) (Inv options x) n op)
      L s := by
  unfold closeAuthenticationRequired
  simp only [Prog.read_bind, Prog.owes_act, id_eq]
  exact owes_last (d := PortCall.closeAuthenticationRequired Site.failed
    s.index.next) h hc rfl (fun h => by cases h) (fun _ _ => rfl) rfl op

theorem owes_reportFailure
    (h : Here options x L n (PortCall.revoking Site.failed) s) (op : Op) :
    reportFailure.owes (handler options x) (Inv options x) n
      (finalOwes (handler options x) (Inv options x) n op) L s := by
  unfold reportFailure
  refine (Prog.owes_sync (M := handler options x) rfl).mpr ?_
  intro _ _
  show Prog.owes _ _ _ _ (Prog.read >>= _) _ _
  rw [Prog.read_bind, Prog.owes_act]
  have hif : forall b : Bool, (if b then (do
      let _ ← Prog.ask (I := ports)
        (PortCall.closePort none 1011 Reason.terminal_unavailable)
      pure ()) else pure () : Code Unit).owes (handler options x)
      (Inv options x) n (finalOwes (handler options x) (Inv options x) n op)
      L s := by
    intro b
    cases b with
    | true =>
        exact owes_last (d := PortCall.closePort none 1011
          Reason.terminal_unavailable) h rfl rfl nofun (fun _ _ => rfl) rfl op
    | false => exact h.leave (h.finish rfl nofun)
  exact hif s.socketOpen

theorem owes_failed
    (h : Here options x L n (PortCall.revoking Site.failed) s) (op : Op) :
    failed.owes (handler options x) (Inv options x) n
      (finalOwes (handler options x) (Inv options x) n op) L s := by
  unfold failed
  simp only [Prog.read_bind, Prog.owes_act, id_eq]
  split
  · exact owes_closeFailed h rfl op
  · refine Prog.owes_bind.mpr (owes_isActive h ?_ ?_)
    · intro _
      exact owes_reportFailure h op
    · intro L' t h'
      exact owes_closeFailed h' rfl op

theorem Here.connectFailed (h : Here options x L n PortCall.connect s) :
    Here options x L n (PortCall.revoking Site.failed)
      (s.record Entry.connectFailed) := by
  have hinv : Inv options x (L.put n (some (PortCall.revoking Site.failed)))
      s := by
    apply h.plain
    · nofun
    · nofun
    · nofun
    · nofun
    · rfl
    · intro d hd
      cases hd
      rfl
  exact
    { h with
      inv :=
        { hinv with
          setup := { hinv.setup with }
          upkeep := hinv.upkeep.log nofun rfl
          port := hinv.port.log nofun
          good := everyEntry_snoc.mpr ⟨hinv.good, trivial⟩ } }

theorem Here.rejectPort
    (h : Here options x L n (PortCall.revoking Site.acceptUpgrade) s) :
    Inv options x (L.put n (some PortCall.rejectPort)) s := by
  apply h.plain
  · nofun
  · nofun
  · nofun
  · nofun
  · rfl
  · intro d hd
    cases hd
    rfl

theorem Here.answered (h : Here options x L n PortCall.registerIfActive s)
    {d : PortCall} (hd : d = PortCall.connect ∨ d = PortCall.rejectPort)
    {installed closeListener errorListener : Bool}
    (hmono : s.installed = true -> installed = true)
    (hlisteners : closeListener = true ∨ errorListener = true ->
      installed = true) :
    Inv options x (L.put n (some d))
      { s with
        registering := false
        installed := installed
        closeListener := closeListener
        errorListener := errorListener } := by
  have hplace : isFirst d = false ∧ unregisters d = false ∧
      isStartClose d = false ∧ cleaning d = none ∧ hasOwner d = false := by
    rcases hd with hd | hd
    · rw [hd]
      exact ⟨rfl, rfl, rfl, rfl, rfl⟩
    · rw [hd]
      exact ⟨rfl, rfl, rfl, rfl, rfl⟩
  have hsetup := h.inv.setup.answered (y := some d)
    (fun e he => by
      cases he
      exact hplace.1) hlisteners
  have hupkeep : Upkeep x (L.put n (some d)) s := by
    apply h.inv.upkeep.put h.top
    · intro since he
      cases he
      cases hplace.2.2.2.2
    · intro e he hown
      cases he
      rw [hplace.2.2.2.2] at hown
      cases hown
    · exact Or.inr (Or.inl rfl)
    · nofun
    · intro e o he ho
      cases he
      rw [hplace.2.2.2.1] at ho
      cases ho
    · intro k o he
      cases he
      cases hplace.2.2.2.1
    · nofun
    · intro e he
      cases he
      exact hplace.2.2.1
  have hport : Port x (L.put n (some d)) s := by
    apply h.inv.port.other rfl
    intro e he
    cases he
    exact hplace.2.1
  refine { h.inv with
    numbers := h.numbers _
    setup := hsetup
    upkeep := { hupkeep with }
    port := { hport with outside := ?_, gone := ?_ } }
  · intro m e hm he
    exact hmono (hport.outside m e hm he)
  · intro m hm
    rcases hport.gone m hm with hpending | hdone
    · exact Or.inl hpending
    · exact Or.inr ⟨hmono hdone.1, hdone.2⟩

theorem Here.ask
    (h : Here options x L n (PortCall.revoking Site.acceptUpgrade) s) :
    Inv options x (L.put n (some PortCall.registerIfActive))
      { s with registering := true } := by
  have hsetup := h.inv.setup.ask
  have hupkeep : Upkeep x (L.put n (some PortCall.registerIfActive)) s := by
    apply h.inv.upkeep.put h.top
    · nofun
    · intro e he hown
      cases he
      cases hown
    · exact Or.inr (Or.inl rfl)
    · nofun
    · intro e o he ho
      cases he
      cases ho
    · nofun
    · nofun
    · intro e he
      cases he
      rfl
  have hport : Port x (L.put n (some PortCall.registerIfActive)) s := by
    apply h.inv.port.other rfl
    intro e he
    cases he
    rfl
  exact
    { h.inv with
      numbers := h.numbers _
      setup := hsetup
      upkeep := { hupkeep with }
      port := { hport with } }

theorem Inv.start (h : Inv options x L s) (hfree : L.pending L.next = none)
    (hstarted : s.started = false) :
    Here options x { L with next := L.next + 1 } L.next
      (PortCall.revoking Site.acceptUpgrade) { s with started := true } := by
  have hnone := (h.setup.fresh hstarted).1
  have hquiet : forall m d, L.pending m = some d ->
      isStartClose d = false := by
    intro m d hm
    rw [hnone m] at hm
    cases hm
  have hsetup := h.setup.start (n := L.next) hstarted
  have hupkeep := h.upkeep.enter
    (c := PortCall.revoking Site.acceptUpgrade) hfree hquiet rfl rfl rfl
    (fun hend => hend) Or.inl
  have hport := h.port.start (c := PortCall.revoking Site.acceptUpgrade) hfree
    rfl
  refine ⟨?_, ?_, hfree⟩
  · constructor
    · intro m d hm
      rcases Ledger.pending_put.mp hm with ⟨hmn, _⟩ | ⟨_, hm⟩
      · rw [hmn]
        exact Nat.lt_succ_self _
      · exact Nat.lt_succ_of_lt (h.numbers m d hm)
    · exact h.registry
    · exact h.index
    · exact { hsetup with }
    · exact { hupkeep with }
    · exact { hport with }
    · exact h.good
  · intro m d _ hm _
    exact ⟨Nat.le_of_lt (h.numbers m d hm), hquiet m d hm⟩

theorem owes_connection (h : Inv options x L s)
    (hfree : L.pending L.next = none) (hstarted : s.started = false) :
    (connection L.next).owes (handler options x) (Inv options x) L.next
      (finalOwes (handler options x) (Inv options x) L.next Op.connection)
      { L with next := L.next + 1 } (enter L.next Op.connection s) := by
  have hhere := h.start hfree hstarted
  unfold connection
  refine Prog.owes_bind.mpr (owes_isActive hhere ?_ ?_)
  · intro _
    refine owes_call (c := PortCall.registerIfActive) nofun hhere.ask ?_
    intro L' t r h' _
    cases r with
    | false =>
        have hrejected : Inv options x (L'.put L.next
            (some PortCall.rejectPort)) { t with registering := false } :=
          h'.answered (Or.inr rfl) (fun hi => hi) h'.inv.setup.listeners
        refine owes_call (c := PortCall.rejectPort) nofun hrejected ?_
        intro L'' t' r h'' _
        exact h''.leave (h''.finish rfl nofun)
    | true =>
        have hinstalled : Inv options x (L'.put L.next
            (some PortCall.connect))
            { t with
              registering := false
              installed := true
              closeListener := true
              errorListener := true } :=
          h'.answered (Or.inl rfl) (fun _ => rfl) (fun _ => rfl)
        refine owes_call (c := PortCall.connect) nofun hinstalled ?_
        intro L'' t' res h'' _
        cases res with
        | ok o => exact owes_connected o h''
        | error u => exact owes_failed h''.connectFailed Op.connection
  · intro L' t h'
    refine owes_call (c := PortCall.rejectPort) nofun h'.rejectPort ?_
    intro L'' t' r h'' _
    exact h''.leave (h''.finish rfl nofun)

theorem inv_env {s' : State} (h : Inv options x L s)
    (hstep : Beside options x s s') : Inv options x L s' := by
  cases hstep with
  | registry r hstep hnew =>
      apply h.stepRegistry hstep
      intro o m howner hreplaced
      rcases hreplaced with ⟨flag, hmem⟩
      exact ⟨flag, hnew m o flag howner hmem⟩
  | index i hstep hnew =>
      refine { h with
        index := Relation.ReflTransGen.tail h.index hstep
        setup := { h.setup with }
        upkeep := { h.upkeep with }
        port := h.port.index
          (fun _ he => WebSocketAuthIndex.log_grows h.index hstep he) ?_ }
      intro hinstalled m hregistered
      rcases hregistered with ⟨authority, tab, registrations, hmem⟩
      exact ⟨authority, tab, registrations, hnew m authority tab registrations
        (h.setup.not_registering hinstalled) hmem⟩
  | revoked => exact h.flags _ _ _ false
  | socket => exact h.flags _ _ false _

theorem inv_inductive :
    Inductive (handler options x) (Inv options x) := by
  constructor
  · exact inv_env
  · intro L s o hfree h hadmits
    cases o with
    | connection => exact owes_connection h hfree hadmits
    | closeEvent =>
        have hinstalled := h.setup.listeners (Or.inl hadmits.1)
        exact owes_closeEvent h hfree hinstalled hadmits.2
    | errorEvent =>
        have hinstalled := h.setup.listeners (Or.inr hadmits.1)
        exact owes_onSocketError h hfree hinstalled hadmits.2

theorem Inv.initial : Inv options x Ledger.empty State.initial := by
  constructor
  · nofun
  · exact Relation.ReflTransGen.refl
  · exact Relation.ReflTransGen.refl
  · refine ⟨fun _ => ⟨fun _ => rfl, rfl, rfl⟩, nofun, nofun, ?_, nofun⟩
    intro hlisteners
    rcases hlisteners with hl | hl
    · cases hl
    · cases hl
  · refine ⟨?_, nofun, nofun, nofun, nofun, nofun, nofun, Nat.zero_le _,
      fun _ _ => rfl, ?_, nofun⟩
    · intro o
      constructor
      · nofun
      · nofun
    · intro hpromise
      exact absurd rfl hpromise
  · exact ⟨nofun, nofun, nofun, nofun⟩
  · exact everyEntry_nil _

end Walk

/-!
## What a run keeps
-/

structure CleansUp (x : Connection)
    (cfg : Config State ports Empty Unit Op) : Prop where
  /-- An event of the socket was handled and nothing is in progress. -/
  closed : (exists n, Entry.handled n ∈ cfg.shared.log) -> cfg.stack = [] ->
    (forall owner, Entry.connected owner ∈ cfg.shared.log ->
      Entry.cleanup owner ∈ cfg.shared.log) ∧
    cfg.shared.index.shared.index.bySocket.get x.port = none
  /-- All continuations have run, too. -/
  removed : (exists n, Entry.handled n ∈ cfg.shared.log) -> cfg.stack = [] ->
    cfg.parked = [] -> forall owner,
      Entry.connected owner ∈ cfg.shared.log ->
      cfg.shared.registry.shared.registry.owners.get x.sessionId ≠
        some owner
  /-- A removal that finds another owner leaves it. -/
  untouched : forall before n owner res owners after,
    cfg.shared.registry.shared.log = before ++
      BridgeRegistry.Entry.ended n
        (BridgeRegistry.Op.remove x.sessionId owner) res owners :: after ->
      (exists pre, before = pre ++ [BridgeRegistry.Entry.passed n owners]) ∨
      exists pre prior, before = pre ++
          [BridgeRegistry.Entry.began n x.sessionId prior] ∧
        owners = if prior.get x.sessionId = some owner then
          prior.delete x.sessionId else prior
  once : cfg.shared.log.countP isCleanup ≤ 1
  ready : forall before isOpen active after,
    cfg.shared.log = before ++ Entry.ready isOpen active :: after ->
      isOpen = true ∧ active = true ∧
      (exists owner, Entry.connected owner ∈ before) ∧
      forall n, Entry.handled n ∉ before

theorem connection_cleans_up {options : Options} {x : Connection}
    {cfg : Config State ports Empty Unit Op} (hrun : Run options x cfg) :
    CleansUp x cfg := by
  have hok := inv_inductive.reachable Inv.initial hrun
  have hinv := hok.inv
  -- with an empty stack only parked operations wait
  have hparked : cfg.stack = [] -> forall n c,
      (Ledger.of (cfg.stack ++ cfg.parked) cfg.next).pending n = some c ->
      boundary c = Boundary.await := by
    intro hstack n c hc
    rcases Ledger.mem_of hc with ⟨f, hf, _, hcall⟩
    rw [hstack, List.nil_append] at hf
    rw [← hcall]
    exact hok.parked f hf
  have hclosed : (exists n, Entry.handled n ∈ cfg.shared.log) ->
      cfg.stack = [] -> forall owner,
      Entry.connected owner ∈ cfg.shared.log ->
      Entry.cleanup owner ∈ cfg.shared.log := by
    intro hhandled hstack owner howner
    rcases hhandled with ⟨n, hn⟩
    rcases hinv.upkeep.due (hinv.port.handled n hn) owner
      ((hinv.upkeep.owner owner).mp howner) with hdone | ⟨m, c, hm, hc⟩
    · exact hdone
    · have hawait := hparked hstack m c hm
      cases c with
      | revoking site => cases hawait
      | unregister k => cases hawait
      | closeAuthenticationRequired site since => cases hawait
      | _ => cases hc
  constructor
  · intro hhandled hstack
    refine ⟨hclosed hhandled hstack, ?_⟩
    rcases hhandled with ⟨n, hn⟩
    rcases hinv.port.gone n hn with ⟨m, c, hm, hc⟩ | ⟨_, k, res, index,
      hended, hbefore⟩
    · have hawait := hparked hstack m c hm
      cases c with
      | revoking site => cases hawait
      | unregister k => cases hawait
      | _ => cases hc
    · apply WebSocketAuthIndex.unregistered_stays hinv.index hended
      intro m authority tab registrations hmem
      exact hbefore m ⟨authority, tab, registrations, hmem⟩
  · intro hhandled hstack hnone owner howner
    have hdone := hclosed hhandled hstack owner howner
    rcases (hinv.upkeep.cleaned owner hdone).2 with ⟨m, c, hm, _⟩ | ⟨k, res,
      owners, hended, hbefore⟩
    · rcases Ledger.mem_of hm with ⟨f, hf, _, _⟩
      rw [hstack, hnone] at hf
      cases hf
    · apply BridgeRegistry.removed_stays hinv.registry hended
      intro m flag hmem
      exact hbefore m ⟨flag, hmem⟩
  · intro before n owner res owners after hlog
    exact BridgeRegistry.removal_keeps hinv.registry hlog
  · exact hinv.upkeep.once
  · intro before isOpen active after hlog
    exact hinv.good before _ after hlog

/-!
A connection that becomes ready; then its socket closes.
-/

def someConnection : Connection :=
  ⟨js "tab", ⟨js "session", 1, 100⟩, 5⟩

def removalEnded (k : Nat) : BridgeRegistry.Entry -> Bool
  | BridgeRegistry.Entry.ended m
      (BridgeRegistry.Op.remove id owner) _ _ =>
        m = k && id = someConnection.sessionId && owner = 7
  | _ => false

def portRegistered : WebSocketAuthIndex.Entry -> Bool
  | WebSocketAuthIndex.Entry.ended _
      (WebSocketAuthIndex.Op.registerIfActive authority t k)
      (Except.ok (some true)) _ =>
        authority = someConnection.authority &&
          t = someConnection.sessionId && k = someConnection.port
  | _ => false

def portUnregistered (since : Nat) : WebSocketAuthIndex.Entry -> Bool
  | WebSocketAuthIndex.Entry.ended m (WebSocketAuthIndex.Op.unregister k) _
      _ => since ≤ m && k = someConnection.port
  | _ => false

def quietReply : (c : PortCall) -> PortReply c
  | PortCall.verdict => true
  | PortCall.revoking _ => ()
  | PortCall.registerIfActive => true
  | PortCall.rejectPort => ()
  | PortCall.connect => Except.ok 7
  | PortCall.unregister _ => ()
  | PortCall.closeAuthenticationRequired _ _ => true
  | PortCall.startClose _ _ _ => Except.ok ()
  | PortCall.closed _ => Except.ok ()
  | PortCall.remove _ _ => Except.ok ()
  | PortCall.cleanupPromise _ => ()
  | PortCall.closePort _ _ _ => Except.ok ()
  | PortCall.sendReady => ()
  | PortCall.sendConnectionError => ()

def quietFair (s : State) : PortCall -> Bool
  | PortCall.verdict => s.active && !s.index.shared.index.disposed
  | PortCall.registerIfActive => s.index.shared.log.any portRegistered
  | PortCall.unregister since =>
      s.index.shared.log.any (portUnregistered since)
  | PortCall.closeAuthenticationRequired _ _ => false
  | PortCall.remove k owner => owner = 7 &&
      s.registry.shared.log.any (removalEnded k)
  | _ => true

theorem quietFair_allowed (s : State) (n : Nat) (c : PortCall)
    (h : quietFair s c = true) :
    allowed someConnection s n c (quietReply c) := by
  cases c with
  | verdict =>
      intro _
      simpa [quietFair] using h
  | registerIfActive =>
      rcases List.any_eq_true.mp h with ⟨e, he, hport⟩
      unfold portRegistered at hport
      split at hport
      · simp only [Bool.and_eq_true, decide_eq_true_eq] at hport
        rcases hport with ⟨⟨hauthority, ht⟩, hk⟩
        subst hauthority ht hk
        exact ⟨_, _, he⟩
      · cases hport
  | unregister since =>
      rcases List.any_eq_true.mp h with ⟨e, he, hport⟩
      unfold portUnregistered at hport
      split at hport
      · simp only [Bool.and_eq_true, decide_eq_true_eq] at hport
        rcases hport with ⟨hle, hk⟩
        subst hk
        exact ⟨_, _, _, hle, he⟩
      · cases hport
  | closeAuthenticationRequired site since => cases h
  | remove k owner =>
      have hboth := Bool.and_eq_true_iff.mp h
      have howner := of_decide_eq_true hboth.1
      rcases List.any_eq_true.mp hboth.2 with ⟨e, he, hended⟩
      unfold removalEnded at hended
      split at hended
      · simp only [Bool.and_eq_true, decide_eq_true_eq] at hended
        rcases hended with ⟨⟨hk, hid⟩, howner'⟩
        subst hk hid howner howner'
        exact ⟨_, _, he⟩
      · cases hended
  | _ => trivial

def nudgeRegistry (s : State) (r : RegistryRun) : Option State :=
  if r.shared.log.all fun e =>
      match e with
      | BridgeRegistry.Entry.entered _ (BridgeRegistry.Op.replace _ owner) _ =>
          decide (s.owner ≠ some owner) ||
            decide (e ∈ s.registry.shared.log)
      | _ => true
  then some { s with registry := r }
  else none

def nudgeIndex (s : State) (i : IndexRun) : Option State :=
  if i.shared.log.all fun e =>
      match e with
      | WebSocketAuthIndex.Entry.entered _
          (WebSocketAuthIndex.Op.registerIfActive _ _ _) _ =>
          s.registering || decide (e ∈ s.index.shared.log)
      | _ => true
  then some { s with index := i }
  else none

/-- The index does what the handler asks for; the registry registers the
bridge and then goes on. -/
def quietNudge (s : State) : Option State :=
  if s.registering then
    (WebSocketAuthIndex.halfwayScript.move s.index
      (Move.enter (WebSocketAuthIndex.Op.registerIfActive
        someConnection.authority someConnection.sessionId
        someConnection.port))).bind (nudgeIndex s)
  else if s.registry.next = 0 then
    (BridgeRegistry.easyScript.move s.registry
      (Move.enter (BridgeRegistry.Op.replace someConnection.sessionId
        7))).bind (nudgeRegistry s)
  else if s.registry.parked.isEmpty then
    (WebSocketAuthIndex.halfwayScript.move s.index
      (Move.enter (WebSocketAuthIndex.Op.unregister
        someConnection.port))).bind (nudgeIndex s)
  else
    (BridgeRegistry.easyScript.move s.registry (Move.resume 0)).bind
      (nudgeRegistry s)

theorem nudgeRegistry_beside {s s' : State} {r : RegistryRun}
    (hstep : Step BridgeRegistry.alone s.registry r)
    (h : nudgeRegistry s r = some s') :
    Beside WebSocketAuthIndex.someOptions someConnection s s' := by
  unfold nudgeRegistry at h
  split at h
  · rename_i hall
    cases h
    apply Beside.registry r hstep
    intro m owner flag howner hmem
    have hentry := List.all_eq_true.mp hall _ hmem
    simpa [howner] using hentry
  · cases h

theorem nudgeIndex_beside {s s' : State} {i : IndexRun}
    (hstep : Step (WebSocketAuthIndex.alone WebSocketAuthIndex.someOptions)
      s.index i) (h : nudgeIndex s i = some s') :
    Beside WebSocketAuthIndex.someOptions someConnection s s' := by
  unfold nudgeIndex at h
  split at h
  · rename_i hall
    cases h
    apply Beside.index i hstep
    intro m authority tab registrations hregistering hmem
    have hentry := List.all_eq_true.mp hall _ hmem
    simpa [hregistering] using hentry
  · cases h

theorem quietNudge_beside (s s' : State) (h : quietNudge s = some s') :
    Beside WebSocketAuthIndex.someOptions someConnection s s' := by
  unfold quietNudge at h
  split at h
  · rcases Option.bind_eq_some_iff.mp h with ⟨i, hi, hs⟩
    exact nudgeIndex_beside (Script.move_step hi) hs
  · split at h
    · rcases Option.bind_eq_some_iff.mp h with ⟨r, hr, hs⟩
      exact nudgeRegistry_beside (Script.move_step hr) hs
    · split at h
      · rcases Option.bind_eq_some_iff.mp h with ⟨i, hi, hs⟩
        exact nudgeIndex_beside (Script.move_step hi) hs
      · rcases Option.bind_eq_some_iff.mp h with ⟨r, hr, hs⟩
        exact nudgeRegistry_beside (Script.move_step hr) hs

def quietScript :
    Script (handler WebSocketAuthIndex.someOptions someConnection) where
  reply _ _ := quietReply
  fair s _ := quietFair s
  admits s
    | Op.connection => !s.started
    | Op.closeEvent => s.closeListener && !s.closing
    | Op.errorEvent => s.errorListener && !s.closing
  nudge := quietNudge
  fair_allowed := quietFair_allowed
  admits_sound s o h := by
    cases o with
    | connection =>
        show s.started = false
        simpa using h
    | closeEvent =>
        show s.closeListener = true ∧ s.closing = false
        simpa using h
    | errorEvent =>
        show s.errorListener = true ∧ s.closing = false
        simpa using h
  nudge_env := quietNudge_beside

def quietRun : Option (Config State ports Empty Unit Op) :=
  quietScript.play
    [Move.enter Op.connection, Move.env, Move.answer, Move.env, Move.env,
      Move.resume 0, Move.enter Op.closeEvent, Move.env, Move.answer,
      Move.answer, Move.resume 0, Move.env, Move.resume 0]
    (Config.initial State.initial)

theorem quietRun_ends :
    quietRun.map (fun cfg => decide (Entry.handled 1 ∈ cfg.shared.log) &&
      decide (Entry.connected 7 ∈ cfg.shared.log) &&
      decide (Entry.ready true true ∈ cfg.shared.log) &&
      cfg.stack.isEmpty && cfg.parked.isEmpty) = some true := by
  decide +kernel

theorem quietRun_cleans_up :
    exists cfg, quietRun = some cfg ∧
      Entry.ready true true ∈ cfg.shared.log ∧
      Entry.handled 1 ∈ cfg.shared.log ∧
      Entry.cleanup 7 ∈ cfg.shared.log ∧
      cfg.shared.registry.shared.registry.owners.get (js "tab") ≠ some 7 ∧
      cfg.shared.index.shared.index.bySocket.get 5 = none := by
  have hsample := quietRun_ends
  cases hrun : quietRun with
  | none =>
      rw [hrun] at hsample
      cases hsample
  | some cfg =>
      rw [hrun] at hsample
      have hends := Option.some.inj hsample
      simp only [Bool.and_eq_true, decide_eq_true_eq,
        List.isEmpty_iff] at hends
      rcases hends with ⟨⟨⟨⟨hhandled, hconnected⟩, hready⟩, hstack⟩, hparked⟩
      have hcleans := connection_cleans_up (Script.play_reachable hrun)
      have hclosed := hcleans.closed ⟨1, hhandled⟩ hstack
      exact ⟨cfg, rfl, hready, hhandled, hclosed.1 7 hconnected,
        hcleans.removed ⟨1, hhandled⟩ hstack hparked 7 hconnected,
        hclosed.2⟩

end WebSocketConnection
end Server
end FlanTerminal

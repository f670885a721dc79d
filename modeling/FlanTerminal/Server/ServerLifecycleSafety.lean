import FlanTerminal.Foundation.Script
import FlanTerminal.Foundation.Trace
import FlanTerminal.Foundation.Triple
import FlanTerminal.Server.ServerLifecycle

/-!
# The teardown runs everything once

What an operation needs to know about its teardown is in the log.  Others write
about it only that a step has settled or that the deadline has been reached,
and not before it has started.
-/

namespace FlanTerminal
namespace Server
namespace ServerLifecycle

open Foundation

section Statement

def Entry.teardownOf : Entry -> Option Nat
  | teardown n _ _ => some n
  | ran n _ _ => some n
  | begun n _ _ => some n
  | timer n _ => some n
  | settled n _ _ => some n
  | waits n => some n
  | unscheduled n => some n
  | deadline n => some n
  | exceeded n => some n
  | returned n _ => some n
  | _ => none

/-- A step of teardown `n` threw or was rejected. -/
def Entry.Failed (n : Nat) : Entry -> Prop
  | ran m _ threw => m = n ∧ threw = true
  | begun m _ threw => m = n ∧ threw = true
  | settled m _ ok => m = n ∧ ok = false
  | _ => False

/-- What a teardown calls in its order. -/
inductive Step where
  | cleanup (step : CleanupStep)
  | async (step : AsyncStep)
  | timer
  deriving DecidableEq

/-- The connections are closed when the deadline comes, and the timer is
cleared when it does not. -/
def CleanupStep.call : CleanupStep -> Option Step
  | closeAllConnections => none
  | clearTimeout => none
  | step => some (Step.cleanup step)

def Entry.callOf (n : Nat) : Entry -> Option Step
  | ran m step _ => if m = n then step.call else none
  | begun m step _ => if m = n then some (Step.async step) else none
  | timer m _ => if m = n then some Step.timer else none
  | _ => none

/-- The calls that teardown `n` has made. -/
def callsOf (n : Nat) (log : List Entry) : List Step :=
  log.filterMap (Entry.callOf n)

def present (c : Bool) (step : Step) : List Step :=
  if c = true then [step] else []

def Phase.calls (r : TeardownResources) : Phase -> List Step
  | durability => present r.cleaner (Step.async AsyncStep.cleaner) ++
      (present r.websocket (Step.cleanup CleanupStep.stopHeartbeat) ++
        present r.activity (Step.async AsyncStep.activity))
  | clients => present r.websocket (Step.cleanup CleanupStep.closeClients) ++
      present r.registry (Step.async AsyncStep.registry)
  | websocket => present r.websocket (Step.async AsyncStep.websocket)
  | services =>
      present r.disposeServices (Step.cleanup CleanupStep.disposeServices)

/-- All calls of a teardown, in order: before the phases the server stops
accepting, begins to close, and the timer is set. -/
def schedule (r : TeardownResources) : List Step :=
  present r.websocket (Step.cleanup CleanupStep.stopAccepting) ++
    (present r.httpServer (Step.async AsyncStep.httpClose) ++
      Step.timer :: phases.flatMap (Phase.calls r))

def Step.phase : Step -> Option Phase
  | cleanup CleanupStep.stopHeartbeat => some Phase.durability
  | cleanup CleanupStep.closeClients => some Phase.clients
  | cleanup CleanupStep.disposeServices => some Phase.services
  | async AsyncStep.cleaner => some Phase.durability
  | async AsyncStep.activity => some Phase.durability
  | async AsyncStep.registry => some Phase.clients
  | async AsyncStep.websocket => some Phase.websocket
  | _ => none

def Phase.earlier : Phase -> List Phase
  | durability => []
  | clients => [durability]
  | websocket => [durability, clients]
  | services => [durability, clients, websocket]

def Step.earlier (step : Step) : List AsyncStep :=
  (step.phase.toList.flatMap Phase.earlier).flatMap Phase.steps

def Entry.closesAll (n : Nat) : Entry -> Bool
  | ran m step _ => m == n && step == CleanupStep.closeAllConnections
  | _ => false

def closeCalls (n : Nat) (log : List Entry) : Nat :=
  log.countP (Entry.closesAll n)

def Over (n : Nat) (step : AsyncStep) (log : List Entry) : Prop :=
  Entry.begun n step false ∈ log -> exists ok, Entry.settled n step ok ∈ log

def EarlierOver (n : Nat) (step : Step) (log : List Entry) : Prop :=
  forall other, other ∈ step.earlier -> Over n other log

/-- The call is the next one of its teardown. -/
def InOrder (n : Nat) (step : Step) (before : List Entry) : Prop :=
  exists b r, Entry.teardown n b r ∈ before ∧
    exists rest, callsOf n before ++ step :: rest = schedule r

/-- The calls of `closeAllConnections` that the log asks for. -/
def ClosesOnce (n : Nat) (log : List Entry) : Prop :=
  forall b r, Entry.teardown n b r ∈ log -> closeCalls n log =
    if Entry.deadline n ∈ log ∧ r.httpServer = true then 1 else 0

/-- The scheduler has called back at once, or has thrown. -/
def TimerSet.Expires : TimerSet -> Prop
  | threw _ => True
  | handle fired _ => fired = true

def Expired (n : Nat) (log : List Entry) : Prop :=
  (exists m, Entry.entered m (Op.deadline n) ∈ log) ∨
    exists set, Entry.timer n set ∈ log ∧ set.Expires

/-- The teardown has taken note of a timer that has expired at once. -/
def Prompt (n : Nat) (log : List Entry) : Prop :=
  forall set, Entry.timer n set ∈ log -> set.Expires -> Entry.deadline n ∈ log

def Complete (n : Nat) (log : List Entry) : Prop :=
  exists b r, Entry.teardown n b r ∈ log ∧ callsOf n log = schedule r

/-- The server has listened and has not been shut down. -/
structure Up (log : List Entry) : Prop where
  listening : exists n, Entry.listening n ∈ log
  asked : forall m, Entry.entered m Op.shutdown ∉ log
  torn : forall n r, Entry.teardown n true r ∉ log

/-- What an entry of the log says about the entries before it. -/
def Good (o : Options) (before : List Entry) : Entry -> Prop
  | Entry.teardown n byLifecycle _ =>
      (forall e, e ∈ before -> e.teardownOf ≠ some n) ∧
        (byLifecycle = true ->
          forall m r, Entry.teardown m true r ∉ before)
  | Entry.ran n step _ => forall call, step.call = some call ->
      InOrder n call before ∧
        (Entry.deadline n ∈ before ∨ EarlierOver n call before)
  | Entry.begun n step _ => InOrder n (Step.async step) before ∧
      (Entry.deadline n ∈ before ∨ EarlierOver n (Step.async step) before)
  | Entry.timer n _ => InOrder n Step.timer before
  | Entry.waits n => Entry.deadline n ∉ before
  | Entry.deadline n => Expired n before
  | Entry.returned n ok =>
      Complete n before ∧ ClosesOnce n before ∧ Prompt n before ∧
        (ok = true <-> Entry.deadline n ∉ before ∧
          forall e, e ∈ before -> ¬ e.Failed n) ∧
        (Entry.deadline n ∈ before ∨ forall step, Over n step before)
  | Entry.left _ (Op.deadline n) _ => Entry.deadline n ∈ before
  | Entry.left m (Op.rollback r) ending =>
      Entry.teardown m false r ∈ before ∧
        Entry.returned m (ending ≠ Ending.thrown) ∈ before
  | Entry.left _ Op.shutdown ending => exists n,
      Entry.teardown n true o.resources ∈ before ∧
        Entry.returned n (ending ≠ Ending.thrown) ∈ before
  | Entry.left _ Op.isReady ending =>
      ending = Ending.value (Value.flag true) -> Up before
  | _ => True

/-- The entry tells that something went wrong in teardown `n`. -/
def Entry.Pushes (n : Nat) : Entry -> Prop
  | unscheduled m => m = n
  | exceeded m => m = n
  | e => e.Failed n

def Started (n : Nat) (log : List Entry) : Prop :=
  exists b r, Entry.teardown n b r ∈ log

/-- How the log tells the variables of a teardown. -/
structure TeardownOk (log : List Entry) (n : Nat) (t : Teardown) : Prop where
  resources : forall b r, Entry.teardown n b r ∈ log -> t.resources = r
  reached : t.deadlineReached = true <-> Entry.deadline n ∈ log
  pending : forall step, Entry.begun n step false ∈ log ->
    t.pending step = true ∨ exists ok, Entry.settled n step ok ∈ log
  waiting : forall step, t.pending step = true -> Started n log
  scheduled : t.scheduled = true -> Started n log
  errors : t.errors = [] <-> forall e, e ∈ log -> ¬ e.Pushes n
  closes : closeCalls n log =
    if t.deadlineReached = true ∧ t.resources.httpServer = true then 1 else 0

/-- The lifecycle is torn down under the number of its promise. -/
structure Fits (o : Options) (promise : Option Nat) (n : Nat)
    (byLifecycle : Bool) (r : TeardownResources) : Prop where
  promise : byLifecycle = true <-> promise = some n
  resources : byLifecycle = true -> r = o.resources

structure LifeOk (o : Options) (s : State) : Prop where
  promise : s.shutdownPromise = none <->
    s.life ≠ Life.stopping ∧ s.life ≠ Life.stopped
  asked : forall m, Entry.entered m Op.shutdown ∈ s.log ->
    s.shutdownPromise ≠ none
  running : s.life = Life.running -> exists n, Entry.listening n ∈ s.log
  resolved : forall n, s.attempts n = Attempt.resolved ->
    Entry.listening n ∈ s.log
  torn : forall n b r, Entry.teardown n b r ∈ s.log ->
    Fits o s.shutdownPromise n b r

structure Inv (o : Options) (cs : Census) (s : State) : Prop where
  life : LifeOk o s
  teardowns : forall n, TeardownOk s.log n (s.teardowns n)
  fresh : forall {e n}, e ∈ s.log -> e.teardownOf = some n -> n < cs.next
  bounded : forall n, s.shutdownPromise = some n -> n < cs.next
  log : EveryEntry (Good o) s.log

/-- What others write about a teardown. -/
def Entry.Late : Entry -> Prop
  | settled _ _ _ => True
  | deadline _ => True
  | ran _ step _ => step = CleanupStep.closeAllConnections
  | _ => False

/-- What operation `m` relies on. -/
structure Keeps (m : Nat) (s s' : State) : Prop where
  log : exists more, s'.log = s.log ++ more ∧
    forall e, e ∈ more -> e.teardownOf = some m ->
      e.Late ∧ Started m s.log
  promise : forall n, s.shutdownPromise = some n ->
    s'.shutdownPromise = some n

theorem Keeps.refl (m : Nat) (s : State) : Keeps m s s :=
  ⟨⟨[], (List.append_nil _).symm, nofun⟩, fun _ h => h⟩

theorem Started.grow {n : Nat} {log : List Entry} (h : Started n log)
    (more : List Entry) : Started n (log ++ more) := by
  obtain ⟨b, r, hr⟩ := h
  exact ⟨b, r, List.mem_append_left _ hr⟩

theorem Started.of_late {n : Nat} {log more : List Entry}
    (h : Started n (log ++ more))
    (hmore : forall e, e ∈ more -> e.teardownOf = some n -> e.Late) :
    Started n log := by
  obtain ⟨b, r, hr⟩ := h
  cases List.mem_append.mp hr with
  | inl hold => exact ⟨b, r, hold⟩
  | inr hnew => exact (hmore _ hnew rfl).elim

theorem Keeps.trans {m : Nat} {s s' s'' : State} (h : Keeps m s s')
    (h' : Keeps m s' s'') : Keeps m s s'' := by
  refine ⟨?_, fun n hn => h'.promise n (h.promise n hn)⟩
  obtain ⟨more, hlog, hmore⟩ := h.log
  obtain ⟨more', hlog', hmore'⟩ := h'.log
  refine ⟨more ++ more', by rw [hlog', hlog, List.append_assoc], ?_⟩
  intro e he hm
  cases List.mem_append.mp he with
  | inl hin => exact hmore e hin hm
  | inr hin =>
      obtain ⟨hlate, hstarted⟩ := hmore' e hin hm
      rw [hlog] at hstarted
      exact ⟨hlate, hstarted.of_late fun x hx hxm => (hmore x hx hxm).1⟩

end Statement

variable {o : Options} {cs : Census} {n : Nat} {s s' : State}

/-!
## One more entry
-/

theorem callsOf_append (n : Nat) (log more : List Entry) :
    callsOf n (log ++ more) = callsOf n log ++ callsOf n more :=
  List.filterMap_append

theorem closeCalls_append (n : Nat) (log more : List Entry) :
    closeCalls n (log ++ more) = closeCalls n log + closeCalls n more :=
  List.countP_append

theorem Over.grow {step : AsyncStep} {log more : List Entry}
    (h : Over n step log) (hmore : Entry.begun n step false ∉ more) :
    Over n step (log ++ more) := by
  intro hbegun
  cases List.mem_append.mp hbegun with
  | inl hold =>
      obtain ⟨ok, hok⟩ := h hold
      exact ⟨ok, List.mem_append_left _ hok⟩
  | inr hnew => exact absurd hnew hmore

theorem Entry.Pushes.teardownOf {e : Entry} (h : e.Pushes n) :
    e.teardownOf = some n := by
  cases e with
  | ran m step threw => exact congrArg some h.1
  | begun m step threw => exact congrArg some h.1
  | settled m step ok => exact congrArg some h.1
  | unscheduled m => exact congrArg some h
  | exceeded m => exact congrArg some h
  | _ => exact False.elim h

/-- An entry about something else does not touch the teardown. -/
theorem TeardownOk.frame {log : List Entry} {t : Teardown}
    (h : TeardownOk log n t) {e : Entry} (he : e.teardownOf ≠ some n) :
    TeardownOk (log ++ [e]) n t := by
  have hold : forall {x : Entry}, x.teardownOf = some n ->
      (x ∈ log ++ [e] <-> x ∈ log) := by
    intro x hx
    have hne : x ≠ e := fun heq => he (heq ▸ hx)
    simp [hne]
  have hcalls : closeCalls n [e] = 0 := by
    cases e with
    | ran m step threw =>
        have hne : m ≠ n := fun heq => he (congrArg some heq)
        simp [closeCalls, Entry.closesAll, hne]
    | _ => rfl
  have hpushes : ¬ e.Pushes n := fun hp => he hp.teardownOf
  constructor
  · intro b r hr
    exact h.resources b r ((hold rfl).mp hr)
  · rw [hold rfl]
    exact h.reached
  · intro step hstep
    cases h.pending step ((hold rfl).mp hstep) with
    | inl hpending => exact Or.inl hpending
    | inr hsettled =>
        obtain ⟨ok, hok⟩ := hsettled
        exact Or.inr ⟨ok, List.mem_append_left _ hok⟩
  · exact fun step hstep => (h.waiting step hstep).grow [e]
  · exact fun hs => (h.scheduled hs).grow [e]
  · rw [h.errors]
    constructor
    · intro hall x hx
      cases List.mem_append.mp hx with
      | inl hin => exact hall x hin
      | inr hnew =>
          rw [List.mem_singleton.mp hnew]
          exact hpushes
    · exact fun hall x hx => hall x (List.mem_append_left _ hx)
  · rw [closeCalls_append, hcalls, Nat.add_zero]
    exact h.closes

/-- The entry is not about the deadline or the steps that are begun. -/
def Entry.Plain : Entry -> Prop
  | teardown _ _ _ => False
  | begun _ _ threw => threw = true
  | ran _ step _ => step ≠ CleanupStep.closeAllConnections
  | deadline _ => False
  | _ => True

theorem mem_plain {log : List Entry} {e x : Entry} (he : e.Plain)
    (hx : ¬ x.Plain) : x ∈ log ++ [e] <-> x ∈ log := by
  have hne : x ≠ e := fun heq => hx (heq ▸ he)
  simp [hne]

theorem TeardownOk.plain {log : List Entry} {t t' : Teardown}
    (h : TeardownOk log n t) {e : Entry} (hplain : e.Plain)
    (hresources : t'.resources = t.resources)
    (hreached : t'.deadlineReached = t.deadlineReached)
    (hpending : forall step, t.pending step = true ->
      t'.pending step = true ∨ exists ok, e = Entry.settled n step ok)
    (hwaiting : forall step, t'.pending step = true -> t.pending step = true)
    (hscheduled : t'.scheduled = true -> Started n log)
    (herrors : t'.errors = [] <-> t.errors = [] ∧ ¬ e.Pushes n) :
    TeardownOk (log ++ [e]) n t' := by
  have hcalls : closeCalls n [e] = 0 := by
    cases e with
    | ran m step threw =>
        have hstep : step ≠ CleanupStep.closeAllConnections := hplain
        simp [closeCalls, Entry.closesAll, hstep]
    | _ => rfl
  constructor
  · intro b r hr
    rw [hresources]
    exact h.resources b r ((mem_plain hplain id).mp hr)
  · rw [hreached, h.reached, mem_plain hplain id]
  · intro step hbegun
    have hbegins : ¬ (Entry.begun n step false).Plain := Bool.false_ne_true
    cases h.pending step ((mem_plain hplain hbegins).mp hbegun) with
    | inl hp =>
        cases hpending step hp with
        | inl hp' => exact Or.inl hp'
        | inr hsettled =>
            obtain ⟨ok, hok⟩ := hsettled
            exact Or.inr ⟨ok, by simp [hok]⟩
    | inr hsettled =>
        obtain ⟨ok, hok⟩ := hsettled
        exact Or.inr ⟨ok, List.mem_append_left _ hok⟩
  · exact fun step hstep => (h.waiting step (hwaiting step hstep)).grow [e]
  · exact fun hs => (hscheduled hs).grow [e]
  · rw [herrors, h.errors, List.forall_mem_append, List.forall_mem_singleton]
  · rw [closeCalls_append, hcalls, Nat.add_zero, hreached, hresources]
    exact h.closes

theorem TeardownOk.begin {log : List Entry} {t : Teardown}
    (h : TeardownOk log n t) (hstarted : Started n log) (step : AsyncStep) :
    TeardownOk (log ++ [Entry.begun n step false]) n
      { t with pending := Function.update t.pending step true } := by
  constructor
  · intro b r hr
    exact h.resources b r (by simpa using hr)
  · rw [h.reached]
    simp
  · intro other hbegun
    by_cases hother : other = step
    · rw [hother]
      exact Or.inl (Function.update_self ..)
    · have hold : Entry.begun n other false ∈ log := by
        simpa [hother] using hbegun
      cases h.pending other hold with
      | inl hp =>
          left
          simpa [hother] using hp
      | inr hsettled =>
          obtain ⟨ok, hok⟩ := hsettled
          exact Or.inr ⟨ok, List.mem_append_left _ hok⟩
  · exact fun _ _ => hstarted.grow _
  · exact fun _ => hstarted.grow _
  · rw [h.errors]
    constructor
    · intro hall x hx
      cases List.mem_append.mp hx with
      | inl hin => exact hall x hin
      | inr hnew =>
          rw [List.mem_singleton.mp hnew]
          exact fun hp => Bool.false_ne_true hp.2
    · exact fun hall x hx => hall x (List.mem_append_left _ hx)
  · rw [closeCalls_append]
    exact h.closes

theorem TeardownOk.start {log : List Entry}
    (hfresh : forall e, e ∈ log -> e.teardownOf ≠ some n) (b : Bool)
    (r : TeardownResources) :
    TeardownOk (log ++ [Entry.teardown n b r]) n (Teardown.fresh r) := by
  have hnot : forall e, e ∈ log ++ [Entry.teardown n b r] ->
      e.teardownOf = some n -> e = Entry.teardown n b r := by
    intro e he hn
    cases List.mem_append.mp he with
    | inl hold => exact absurd hn (hfresh e hold)
    | inr hnew => exact List.mem_singleton.mp hnew
  constructor
  · intro b' r' hr
    cases hnot _ hr rfl
    rfl
  · constructor
    · nofun
    · intro hd
      cases hnot _ hd rfl
  · intro step hstep
    cases hnot _ hstep rfl
  · nofun
  · nofun
  · constructor
    · intro _ e he hp
      rw [hnot e he hp.teardownOf] at hp
      exact hp
    · exact fun _ => rfl
  · have hzero : closeCalls n (log ++ [Entry.teardown n b r]) = 0 := by
      apply List.countP_eq_zero.mpr
      intro e he hcloses
      cases e with
      | ran m step threw =>
          have hm : m = n := by
            simp only [Entry.closesAll, Bool.and_eq_true, beq_iff_eq]
              at hcloses
            exact hcloses.1
          cases hnot _ he (congrArg some hm)
      | _ => cases hcloses
    rw [hzero]
    rfl

def deadlineEntries (n : Nat) : Option Bool -> List Entry
  | none => [Entry.deadline n]
  | some threw => [Entry.deadline n,
      Entry.ran n CleanupStep.closeAllConnections threw]

theorem TeardownOk.reach {log : List Entry} {t : Teardown}
    (h : TeardownOk log n t) (hstarted : Started n log)
    (hreached : t.deadlineReached = false) {called : Option Bool}
    (hcalled : called.isSome = t.resources.httpServer) {errors : List Failure}
    (herrors : errors = [] <-> t.errors = [] ∧ called ≠ some true) :
    TeardownOk (log ++ deadlineEntries n called) n
      { t with
        deadlineReached := true
        errors := errors } := by
  have hlate : forall e, e ∈ deadlineEntries n called ->
      e = Entry.deadline n ∨ exists threw, called = some threw ∧
        e = Entry.ran n CleanupStep.closeAllConnections threw := by
    intro e he
    cases called with
    | none => exact Or.inl (List.mem_singleton.mp he)
    | some threw =>
        simp only [deadlineEntries, List.mem_cons, List.not_mem_nil,
          or_false] at he
        exact he.imp_right fun heq => ⟨threw, rfl, heq⟩
  have hold : forall {e : Entry}, e ∈ log ++ deadlineEntries n called ->
      e ≠ Entry.deadline n -> (forall threw, e ≠
        Entry.ran n CleanupStep.closeAllConnections threw) -> e ∈ log := by
    intro e he hd hr
    cases List.mem_append.mp he with
    | inl hin => exact hin
    | inr hnew =>
        cases hlate e hnew with
        | inl hdeadline => exact absurd hdeadline hd
        | inr hran =>
            obtain ⟨threw, _, heq⟩ := hran
            exact absurd heq (hr threw)
  constructor
  · exact fun b r hr => h.resources b r (hold hr nofun nofun)
  · have hin : Entry.deadline n ∈ deadlineEntries n called := by
      cases called <;> simp [deadlineEntries]
    exact ⟨fun _ => List.mem_append_right _ hin, fun _ => rfl⟩
  · intro step hbegun
    cases h.pending step (hold hbegun nofun nofun) with
    | inl hp => exact Or.inl hp
    | inr hsettled =>
        obtain ⟨ok, hok⟩ := hsettled
        exact Or.inr ⟨ok, List.mem_append_left _ hok⟩
  · exact fun _ _ => hstarted.grow _
  · exact fun _ => hstarted.grow _
  · rw [herrors, h.errors, List.forall_mem_append]
    apply and_congr_right
    intro _
    cases called with
    | none => simp [deadlineEntries, Entry.Pushes, Entry.Failed]
    | some threw => simp [deadlineEntries, Entry.Pushes, Entry.Failed]
  · have hbefore : closeCalls n log = 0 := by
      rw [h.closes, hreached]
      rfl
    rw [closeCalls_append, hbefore, Nat.zero_add, ← hcalled]
    cases called <;> simp [deadlineEntries, closeCalls, Entry.closesAll]

def State.put (s : State) (n : Nat) (t : Teardown) (es : List Entry) : State :=
  { s with
    teardowns := Function.update s.teardowns n t
    log := s.log ++ es }

theorem State.record_eq_put (s : State) {e : Entry} (n : Nat) :
    s.record e = s.put n (s.teardowns n) [e] := by
  simp [State.record, State.put]

theorem LifeOk.put (h : LifeOk o s) {t : Teardown} {es : List Entry}
    (hes : forall e, e ∈ es -> e.teardownOf = some n)
    (hfits : forall b r, Entry.teardown n b r ∈ es ->
      Fits o s.shutdownPromise n b r) : LifeOk o (s.put n t es) := by
  constructor
  · exact h.promise
  · intro m hm
    cases List.mem_append.mp hm with
    | inl hold => exact h.asked m hold
    | inr hnew => cases hes _ hnew
  · intro hrunning
    obtain ⟨m, hm⟩ := h.running hrunning
    exact ⟨m, List.mem_append_left _ hm⟩
  · exact fun m hm => List.mem_append_left _ (h.resolved m hm)
  · intro m b r hm
    cases List.mem_append.mp hm with
    | inl hold => exact h.torn m b r hold
    | inr hnew =>
        cases hes _ hnew
        exact hfits b r hnew

theorem LifeOk.record (h : LifeOk o s) {e : Entry} (he : e.teardownOf = none)
    (hasked : forall m, e = Entry.entered m Op.shutdown ->
      s.shutdownPromise ≠ none) : LifeOk o (s.record e) := by
  constructor
  · exact h.promise
  · intro m hm
    cases List.mem_append.mp hm with
    | inl hold => exact h.asked m hold
    | inr hnew => exact hasked m (List.mem_singleton.mp hnew).symm
  · intro hrunning
    obtain ⟨m, hm⟩ := h.running hrunning
    exact ⟨m, List.mem_append_left _ hm⟩
  · exact fun m hm => List.mem_append_left _ (h.resolved m hm)
  · intro m b r hm
    cases List.mem_append.mp hm with
    | inl hold => exact h.torn m b r hold
    | inr hnew =>
        rw [← List.mem_singleton.mp hnew] at he
        cases he

theorem TeardownOk.frames {log es : List Entry} {t : Teardown}
    (h : TeardownOk log n t) (hes : forall e, e ∈ es -> e.teardownOf ≠ some n) :
    TeardownOk (log ++ es) n t := by
  induction es generalizing log with
  | nil =>
      rw [List.append_nil]
      exact h
  | cons e es ih =>
      rw [List.append_cons]
      exact ih (h.frame (hes e List.mem_cons_self))
        fun x hx => hes x (List.mem_cons_of_mem e hx)

theorem Inv.put (h : Inv o cs s) {t : Teardown} {es : List Entry}
    (hn : n < cs.next) (hes : forall e, e ∈ es -> e.teardownOf = some n)
    (hown : TeardownOk (s.log ++ es) n t)
    (hlog : EveryEntry (Good o) (s.log ++ es))
    (hfits : forall b r, Entry.teardown n b r ∈ es ->
      Fits o s.shutdownPromise n b r) : Inv o cs (s.put n t es) := by
  constructor
  · exact h.life.put hes hfits
  · intro m
    by_cases hm : m = n
    · rw [hm]
      simpa [State.put] using hown
    · have hother : (s.put n t es).teardowns m = s.teardowns m :=
        Function.update_of_ne hm _ _
      rw [hother]
      apply (h.teardowns m).frames
      intro e he heq
      rw [hes e he] at heq
      cases heq
      exact hm rfl
  · intro e m he hm
    cases List.mem_append.mp he with
    | inl hin => exact h.fresh hin hm
    | inr hnew =>
        rw [hes e hnew] at hm
        cases hm
        exact hn
  · exact h.bounded
  · exact hlog

theorem Keeps.put (m : Nat) (s : State) {t : Teardown} {es : List Entry}
    (hes : forall e, e ∈ es -> e.teardownOf = some n)
    (hlate : m = n -> (forall e, e ∈ es -> e.Late) ∧ Started n s.log) :
    Keeps m s (s.put n t es) := by
  refine ⟨⟨es, rfl, ?_⟩, fun _ hk => hk⟩
  intro e he hm
  rw [hes e he] at hm
  cases hm
  exact ⟨(hlate rfl).1 e he, (hlate rfl).2⟩

theorem Inv.note (h : Inv o cs s) {e : Entry} (he : e.teardownOf = none)
    (hlog : s'.log = s.log ++ [e]) (hsame : s'.teardowns = s.teardowns)
    (hbounded : forall n, s'.shutdownPromise = some n -> n < cs.next)
    (hlife : LifeOk o s') (hgood : Good o s.log e) : Inv o cs s' := by
  constructor
  · exact hlife
  · intro n
    rw [hlog, hsame]
    apply (h.teardowns n).frame
    rw [he]
    nofun
  · intro x n hx hn
    rw [hlog] at hx
    cases List.mem_append.mp hx with
    | inl hin => exact h.fresh hin hn
    | inr hnew =>
        rw [List.mem_singleton.mp hnew, he] at hn
        cases hn
  · exact hbounded
  · rw [hlog]
    exact everyEntry_snoc.mpr ⟨h.log, hgood⟩

theorem Keeps.note {e : Entry} (he : e.teardownOf = none)
    (hlog : s'.log = s.log ++ [e])
    (hpromise : forall n, s.shutdownPromise = some n ->
      s'.shutdownPromise = some n) (m : Nat) : Keeps m s s' := by
  refine ⟨⟨[e], hlog, ?_⟩, hpromise⟩
  intro x hx hm
  rw [List.mem_singleton.mp hx, he] at hm
  cases hm

theorem Inv.quiet (h : Inv o cs s) (hlog : s'.log = s.log)
    (hsame : s'.teardowns = s.teardowns)
    (hbounded : forall n, s'.shutdownPromise = some n -> n < cs.next)
    (hlife : LifeOk o s') : Inv o cs s' := by
  constructor
  · exact hlife
  · intro n
    rw [hlog, hsame]
    exact h.teardowns n
  · intro e n he hn
    rw [hlog] at he
    exact h.fresh he hn
  · exact hbounded
  · rw [hlog]
    exact h.log

theorem Keeps.quiet (hlog : s'.log = s.log)
    (hpromise : forall n, s.shutdownPromise = some n ->
      s'.shutdownPromise = some n) (m : Nat) : Keeps m s s' :=
  ⟨⟨[], by rw [hlog, List.append_nil], nofun⟩, hpromise⟩

theorem Inv.started (h : Inv o cs s) (hstarted : Started n s.log) :
    n < cs.next := by
  obtain ⟨b, r, hr⟩ := hstarted
  exact h.fresh hr rfl

theorem TeardownOk.settle {log : List Entry} {t : Teardown}
    (h : TeardownOk log n t) {step : AsyncStep}
    (hpending : t.pending step = true) (ok : Bool) {errors : List Failure}
    (herrors : errors = [] <-> t.errors = [] ∧ ok = true) :
    TeardownOk (log ++ [Entry.settled n step ok]) n
      { t with
        errors := errors
        pending := Function.update t.pending step false } := by
  apply h.plain (e := Entry.settled n step ok) trivial
  · rfl
  · rfl
  · intro other hother
    by_cases heq : other = step
    · rw [heq]
      exact Or.inr ⟨ok, rfl⟩
    · left
      simpa [heq] using hother
  · intro other hother
    by_cases heq : other = step
    · rw [heq]
      exact hpending
    · simpa [heq] using hother
  · exact h.scheduled
  · rw [herrors]
    simp [Entry.Pushes, Entry.Failed]

theorem LifeOk.setAttempt (h : LifeOk o s) (n : Nat) {a : Attempt}
    (ha : a = Attempt.resolved -> Entry.listening n ∈ s.log) :
    LifeOk o (s.setAttempt n a) := by
  refine ⟨h.promise, h.asked, h.running, ?_, h.torn⟩
  intro m hm
  by_cases heq : m = n
  · rw [heq] at hm ⊢
    exact ha (by simpa using hm)
  · exact h.resolved m (by simpa [heq] using hm)

theorem LifeOk.listen (h : LifeOk o s) (n : Nat) :
    LifeOk o ((s.setAttempt n Attempt.resolved).record
      (Entry.listening n)) := by
  have hnoted : LifeOk o (s.record (Entry.listening n)) :=
    h.record rfl nofun
  exact hnoted.setAttempt n fun _ =>
    List.mem_append_right _ (List.mem_singleton.mpr rfl)

theorem Env.keeps (hinv : Inv o cs s) (h : Env s s') :
    Inv o cs s' ∧ forall m, Keeps m s s' := by
  cases h with
  | settle n step ok hpending =>
      have hstarted : Started n s.log :=
        (hinv.teardowns n).waiting step hpending
      have hput : exists errors, (errors = [] <->
          (s.teardowns n).errors = [] ∧ ok = true) ∧
          (((if ok then s else pushError n (Failure.asyncStep step)
            s).setTeardown n fun t =>
              { t with pending := Function.update t.pending step false }).record
                (Entry.settled n step ok)) =
            s.put n { s.teardowns n with
              errors := errors
              pending := Function.update (s.teardowns n).pending step false }
              [Entry.settled n step ok] := by
        cases ok with
        | true => exact ⟨(s.teardowns n).errors, by simp, rfl⟩
        | false =>
            refine ⟨(s.teardowns n).errors ++ [Failure.asyncStep step],
              by simp, ?_⟩
            simp [pushError, State.setTeardown, State.record, State.put]
      obtain ⟨errors, herrors, heq⟩ := hput
      rw [heq]
      have hes : forall e, e ∈ [Entry.settled n step ok] ->
          e.teardownOf = some n := by
        intro e he
        rw [List.mem_singleton.mp he]
        rfl
      constructor
      · apply hinv.put (hinv.started hstarted) hes
        · exact (hinv.teardowns n).settle hpending ok herrors
        · exact everyEntry_snoc.mpr ⟨hinv.log, trivial⟩
        · intro b r hr
          cases List.mem_singleton.mp hr
      · intro m
        apply Keeps.put m s hes
        intro _
        refine ⟨?_, hstarted⟩
        intro e he
        rw [List.mem_singleton.mp he]
        trivial
  | listening n hpending =>
      have hlife := hinv.life.listen n
      exact ⟨hinv.note (e := Entry.listening n) rfl rfl rfl hinv.bounded hlife
        trivial, Keeps.note (e := Entry.listening n) rfl rfl fun _ hk => hk⟩
  | error n hpending =>
      have hlife := hinv.life.setAttempt n
        (nofun : Attempt.rejected = Attempt.resolved -> _)
      exact ⟨hinv.quiet rfl rfl hinv.bounded hlife,
        Keeps.quiet rfl fun _ hk => hk⟩

def pact (o : Options) : Pact (server o) where
  inv := Inv o
  keeps := Keeps
  refl := Keeps.refl
  trans := Keeps.trans
  env hinv henv := Env.keeps hinv henv

/-!
## The steps of a teardown
-/

/-- What the teardown knows about its deadline. -/
inductive Due where
  | unknown
  | ahead
  | reached

def Due.Holds (n : Nat) (log : List Entry) : Due -> Prop
  | unknown => True
  | ahead => Entry.deadline n ∉ log
  | reached => Entry.deadline n ∈ log

/-- As long as the deadline has not been reached, only the steps of
`unfinished` may be under way. -/
def Waited (n : Nat) (unfinished : List AsyncStep) (log : List Entry) : Prop :=
  Entry.deadline n ∈ log ∨
    ((forall step, step ∉ unfinished -> Over n step log) ∧
      forall e, e ∈ log -> e.Pushes n -> e.Failed n)

/-- What the teardown knows between its steps; it has yet to call those of
`todo`. -/
structure Loop (n : Nat) (b : Bool) (r : TeardownResources) (due : Due)
    (unfinished : List AsyncStep) (todo : List Step) (log : List Entry) :
    Prop where
  started : Entry.teardown n b r ∈ log
  calls : callsOf n log ++ todo = schedule r
  due : due.Holds n log
  waits : Waited n unfinished log
  prompt : Prompt n log

/-- The entry begins no other step, and tells of nothing but failures. -/
structure Entry.Aside (n : Nat) (unfinished : List AsyncStep) (e : Entry) :
    Prop where
  begun : forall step, step ∉ unfinished -> e ≠ Entry.begun n step false
  pushes : e.Pushes n -> e.Failed n

section Loop

variable {due : Due} {byLifecycle : Bool} {r : TeardownResources}
variable {unfinished : List AsyncStep} {todo : List Step}
variable {log more : List Entry}

theorem Waited.snoc (h : Waited n unfinished log) {e : Entry}
    (haside : e.Aside n unfinished) : Waited n unfinished (log ++ [e]) := by
  cases h with
  | inl hdeadline => exact Or.inl (List.mem_append_left _ hdeadline)
  | inr hcase =>
      obtain ⟨hover, hfailed⟩ := hcase
      refine Or.inr ⟨?_, ?_⟩
      · intro step hstep
        apply (hover step hstep).grow
        exact fun hin =>
          haside.begun step hstep (List.mem_singleton.mp hin).symm
      · intro x hx hp
        cases List.mem_append.mp hx with
        | inl hin => exact hfailed x hin hp
        | inr hin =>
            rw [List.mem_singleton.mp hin] at hp ⊢
            exact haside.pushes hp

theorem callsOf_single (n : Nat) (e : Entry) :
    callsOf n [e] = (e.callOf n).toList := by
  cases h : e.callOf n with
  | none => simp [callsOf, h]
  | some step => simp [callsOf, h]

theorem Loop.snoc {e : Entry}
    (h : Loop n byLifecycle r due unfinished ((e.callOf n).toList ++ todo) log)
    (haside : e.Aside n unfinished) (htimer : e.callOf n ≠ some Step.timer)
    (hdue : due = Due.ahead -> e ≠ Entry.deadline n) :
    Loop n byLifecycle r due unfinished todo (log ++ [e]) := by
  constructor
  · exact List.mem_append_left _ h.started
  · rw [callsOf_append, callsOf_single, List.append_assoc]
    exact h.calls
  · have hholds := h.due
    cases due with
    | unknown => exact hholds
    | reached => exact List.mem_append_left _ hholds
    | ahead =>
        intro hin
        cases List.mem_append.mp hin with
        | inl hold => exact hholds hold
        | inr hnew => exact hdue rfl (List.mem_singleton.mp hnew).symm
  · exact h.waits.snoc haside
  · intro set hset hexpires
    cases List.mem_append.mp hset with
    | inl hold => exact List.mem_append_left _ (h.prompt set hold hexpires)
    | inr hnew =>
        rw [← List.mem_singleton.mp hnew] at htimer
        exact absurd (if_pos rfl) htimer

theorem Loop.append (h : Loop n byLifecycle r due unfinished todo log)
    (hmore : forall e, e ∈ more -> e.Aside n unfinished ∧ e.callOf n = none)
    (hdue : due = Due.ahead -> Entry.deadline n ∉ more) :
    Loop n byLifecycle r due unfinished todo (log ++ more) := by
  induction more generalizing log with
  | nil =>
      rw [List.append_nil]
      exact h
  | cons e more ih =>
      obtain ⟨haside, hcall⟩ := hmore e List.mem_cons_self
      rw [List.append_cons]
      apply ih
      · apply Loop.snoc _ haside
        · rw [hcall]
          nofun
        · exact fun hahead heq => hdue hahead (heq ▸ List.mem_cons_self)
        · rw [hcall]
          exact h
      · exact fun x hx => hmore x (List.mem_cons_of_mem e hx)
      · exact fun hahead hin => hdue hahead (List.mem_cons_of_mem e hin)

theorem Entry.Late.aside {e : Entry} (h : e.Late) (n : Nat)
    (unfinished : List AsyncStep) :
    e.Aside n unfinished ∧ e.callOf n = none := by
  cases e with
  | settled m step ok => exact ⟨⟨nofun, id⟩, rfl⟩
  | deadline m => exact ⟨⟨nofun, id⟩, rfl⟩
  | ran m step threw =>
      have hstep : step = CleanupStep.closeAllConnections := h
      refine ⟨⟨nofun, id⟩, ?_⟩
      rw [hstep]
      exact ite_self none
  | _ => exact h.elim

theorem Entry.callOf_of_ne {e : Entry} (h : e.teardownOf ≠ some n) :
    e.callOf n = none := by
  cases e with
  | ran m step threw => exact if_neg fun heq => h (congrArg some heq)
  | begun m step threw => exact if_neg fun heq => h (congrArg some heq)
  | timer m set => exact if_neg fun heq => h (congrArg some heq)
  | _ => rfl

theorem Entry.aside_of_ne {e : Entry} (h : e.teardownOf ≠ some n)
    (unfinished : List AsyncStep) :
    e.Aside n unfinished ∧ e.callOf n = none := by
  refine ⟨⟨?_, fun hp => absurd hp.teardownOf h⟩, Entry.callOf_of_ne h⟩
  intro step _ heq
  rw [heq] at h
  exact h rfl

theorem Loop.forget (h : Loop n byLifecycle r due unfinished todo log) :
    Loop n byLifecycle r Due.unknown unfinished todo log :=
  ⟨h.started, h.calls, trivial, h.waits, h.prompt⟩

/-- After the deadline it does not matter which steps are under way. -/
theorem Loop.late (h : Loop n byLifecycle r due unfinished todo log)
    (hdeadline : Entry.deadline n ∈ log) (unfinished' : List AsyncStep) :
    Loop n byLifecycle r Due.reached unfinished' todo log :=
  ⟨h.started, h.calls, hdeadline, Or.inl hdeadline, h.prompt⟩

theorem Loop.early (h : Loop n byLifecycle r due unfinished todo log)
    (hahead : Entry.deadline n ∉ log) :
    Loop n byLifecycle r Due.ahead unfinished todo log :=
  ⟨h.started, h.calls, hahead, h.waits, h.prompt⟩

theorem Loop.finish (h : Loop n byLifecycle r due unfinished todo log)
    {unfinished' : List AsyncStep}
    (hover : forall step, step ∈ unfinished -> step ∉ unfinished' ->
      Over n step log) :
    Loop n byLifecycle r due unfinished' todo log := by
  refine ⟨h.started, h.calls, h.due, h.waits.imp_right ?_, h.prompt⟩
  intro hcase
  refine ⟨?_, hcase.2⟩
  intro step hstep
  by_cases hin : step ∈ unfinished
  · exact hover step hin hstep
  · exact hcase.1 step hin

theorem Loop.keeps
    (h : Loop n byLifecycle r Due.unknown unfinished todo s.log)
    (hkeeps : Keeps n s s') :
    Loop n byLifecycle r Due.unknown unfinished todo s'.log := by
  obtain ⟨more, hlog, hmore⟩ := hkeeps.log
  rw [hlog]
  refine h.append ?_ nofun
  intro e he
  by_cases hn : e.teardownOf = some n
  · exact (hmore e he hn).1.aside n unfinished
  · exact Entry.aside_of_ne hn unfinished

theorem Loop.is_started (h : Loop n byLifecycle r due unfinished todo log) :
    Started n log :=
  ⟨byLifecycle, r, h.started⟩

theorem Loop.good {step : Step}
    (h : Loop n byLifecycle r due unfinished (step :: todo) log)
    (happart : forall other, other ∈ step.earlier -> other ∉ unfinished) :
    InOrder n step log ∧ (Entry.deadline n ∈ log ∨ EarlierOver n step log) := by
  refine ⟨⟨byLifecycle, r, h.started, todo, h.calls⟩, h.waits.imp_right ?_⟩
  exact fun hcase other hother => hcase.1 other (happart other hother)

end Loop

section Steps

variable {C : Contract State} {ph : Foundation.Phase} {s0 : State}
variable {Q : Except Thrown Unit -> Foundation.Phase -> Census -> State ->
  State -> Prop}

theorem deadlineEntries_late (k : Nat) (called : Option Bool) :
    forall e, e ∈ deadlineEntries k called ->
      e.teardownOf = some k ∧ e.Late := by
  intro e he
  cases called with
  | none =>
      rw [List.mem_singleton.mp he]
      exact ⟨rfl, trivial⟩
  | some threw =>
      simp only [deadlineEntries, List.mem_cons, List.not_mem_nil,
        or_false] at he
      cases he with
      | inl heq =>
          rw [heq]
          exact ⟨rfl, trivial⟩
      | inr heq =>
          rw [heq]
          exact ⟨rfl, rfl⟩

theorem everyEntry_deadlineEntries {log : List Entry}
    (h : EveryEntry (Good o) log) {k : Nat} (hexpired : Expired k log)
    (called : Option Bool) :
    EveryEntry (Good o) (log ++ deadlineEntries k called) := by
  have hone : EveryEntry (Good o) (log ++ [Entry.deadline k]) :=
    everyEntry_snoc.mpr ⟨h, hexpired⟩
  cases called with
  | none => exact hone
  | some threw =>
      have htwo : EveryEntry (Good o) (log ++ [Entry.deadline k] ++
          [Entry.ran k CleanupStep.closeAllConnections threw]) :=
        everyEntry_snoc.mpr ⟨hone, fun call hcall => by cases hcall⟩
      rw [List.append_assoc] at htwo
      exact htwo

theorem wp_runCleanup {k : Nat} {step : CleanupStep}
    (hQ : forall threw errors, (errors = [] <->
      (s.teardowns k).errors = [] ∧ threw ≠ true) ->
      Q (Except.ok ()) ph cs s0 (s.put k
        { s.teardowns k with errors := errors } [Entry.ran k step threw])) :
    (runCleanup k step).wp (server o) C n Q ph cs s0 s := by
  refine (Prog.wp_sync (M := server o) (c := PortCall.run k step)
    (k := fun threw => if threw = true then _ else _) rfl).mpr ?_
  intro threw _
  cases threw with
  | true =>
      have hend := hQ true ((s.teardowns k).errors ++ [Failure.step step])
        (by simp)
      exact hend
  | false =>
      have hend := hQ false (s.teardowns k).errors (by simp)
      have hsame : s.record (Entry.ran k step false) = s.put k
          (s.teardowns k) [Entry.ran k step false] := s.record_eq_put k
      show Q (Except.ok ()) ph cs s0 (s.record (Entry.ran k step false))
      rw [hsame]
      exact hend

theorem wp_reachDeadline {k : Nat} (h : Inv o cs s) (hk : Started k s.log)
    (hexpired : Expired k s.log)
    (hQ : forall s', Inv o cs s' -> (forall m, Keeps m s s') ->
      (exists es, s'.log = s.log ++ es ∧ forall e, e ∈ es -> e.Late) ->
      Entry.deadline k ∈ s'.log -> Q (Except.ok ()) ph cs s0 s') :
    (reachDeadline k).wp (server o) C n Q ph cs s0 s := by
  have hput : forall called errors,
      (s.teardowns k).deadlineReached = false ->
      Option.isSome called = (s.teardowns k).resources.httpServer ->
      (errors = [] <-> (s.teardowns k).errors = [] ∧ called ≠ some true) ->
      Q (Except.ok ()) ph cs s0 (s.put k
        { s.teardowns k with
          deadlineReached := true
          errors := errors } (deadlineEntries k called)) := by
    intro called errors hreached hcalled herrors
    have hes := deadlineEntries_late k called
    have hown := (h.teardowns k).reach hk hreached hcalled herrors
    apply hQ
    · apply h.put (h.started hk) (fun e he => (hes e he).1) hown
        (everyEntry_deadlineEntries h.log hexpired called)
      intro b r hr
      exact (hes _ hr).2.elim
    · intro m
      apply Keeps.put m s fun e he => (hes e he).1
      exact fun _ => ⟨fun e he => (hes e he).2, hk⟩
    · exact ⟨_, rfl, fun e he => (hes e he).2⟩
    · exact hown.reached.mp rfl
  unfold reachDeadline
  simp only [Prog.read_bind, Prog.wp_act, id]
  by_cases hreached : (s.teardowns k).deadlineReached = true
  · rw [if_pos hreached]
    exact hQ s h (fun m => Keeps.refl m s)
      ⟨[], (List.append_nil _).symm, (fun _ h => by cases h)⟩
      ((h.teardowns k).reached.mp hreached)
  · have hfalse := Bool.eq_false_iff.mpr hreached
    rw [if_neg hreached]
    simp only [Prog.modify_bind, Prog.wp_act]
    by_cases hhttp : (s.teardowns k).resources.httpServer = true
    · rw [if_pos hhttp]
      apply wp_runCleanup
      intro threw errors herrors
      have hend := hput (some threw) errors hfalse hhttp.symm
        (by simpa using herrors)
      simpa [State.put, State.setTeardown, State.record, deadlineEntries]
        using hend
    · rw [if_neg hhttp]
      exact hput none (s.teardowns k).errors hfalse
        (Bool.eq_false_iff.mpr hhttp).symm (by simp)

theorem moves_put (hin : (pact o).Inside n cs s) {t : Teardown} {e : Entry}
    (he : e.teardownOf = some n) (hown : TeardownOk (s.log ++ [e]) n t)
    (hgood : Good o s.log e)
    (hfits : forall b r, e = Entry.teardown n b r ->
      Fits o s.shutdownPromise n b r) :
    (pact o).Moves n cs s (s.put n t [e]) := by
  have hes : forall x, x ∈ [e] -> x.teardownOf = some n := by
    intro x hx
    rw [List.mem_singleton.mp hx]
    exact he
  constructor
  · have hinv : Inv o cs s := hin.inv
    apply hinv.put (hin.ok n hin.live) hes hown
      (everyEntry_snoc.mpr ⟨hinv.log, hgood⟩)
    exact fun b r hr => hfits b r (List.mem_singleton.mp hr).symm
  · exact fun m hm => Keeps.put m s hes fun heq => absurd heq hm

variable {due : Due} {byLifecycle : Bool} {r : TeardownResources}
variable {unfinished : List AsyncStep} {todo : List Step}

def Knows (n : Nat) (byLifecycle : Bool) (r : TeardownResources) (due : Due)
    (unfinished : List AsyncStep) (todo : List Step) (s : State) : Prop :=
  Loop n byLifecycle r due unfinished todo s.log

theorem triple_runCleanup (step : CleanupStep)
    (hstep : step ≠ CleanupStep.closeAllConnections)
    (happart : forall call, step.call = some call ->
      forall other, other ∈ call.earlier -> other ∉ unfinished) :
    (pact o).triple n
      (Knows n byLifecycle r due unfinished (step.call.toList ++ todo))
      (runCleanup n step)
      (Pact.returns fun _ => Knows n byLifecycle r due unfinished todo) := by
  intro ph cs s0 s hin hkeeps hP
  apply wp_runCleanup
  intro threw errors herrors
  have hinv : Inv o cs s := hin.inv
  have hstarted : Started n s.log := Loop.is_started hP
  have hcall : (Entry.ran n step threw).callOf n = step.call := if_pos rfl
  have hown : TeardownOk (s.log ++ [Entry.ran n step threw]) n
      { s.teardowns n with errors := errors } := by
    apply (hinv.teardowns n).plain (e := Entry.ran n step threw) hstep
    · rfl
    · rfl
    · exact fun _ h => Or.inl h
    · exact fun _ h => h
    · exact fun _ => hstarted
    · rw [herrors]
      simp [Entry.Pushes, Entry.Failed]
  have hgood : Good o s.log (Entry.ran n step threw) := by
    intro call hthis
    have hloop : Loop n byLifecycle r due unfinished
        (step.call.toList ++ todo) s.log := hP
    rw [hthis] at hloop
    exact hloop.good (happart call hthis)
  have hmoves := moves_put hin (e := Entry.ran n step threw) rfl hown hgood
    nofun
  refine ⟨⟨hin.ok, hin.live, hmoves.1⟩,
    fun m hm => (hkeeps m hm).trans (hmoves.2 m hm), ?_⟩
  apply Loop.snoc (e := Entry.ran n step threw) _ ⟨nofun, id⟩
  · rw [hcall]
    cases step <;> nofun
  · nofun
  · rw [hcall]
    exact hP

theorem triple_called (step : CleanupStep) {call : Step}
    (hcall : step.call = some call)
    (happart : forall other, other ∈ call.earlier -> other ∉ unfinished) :
    (pact o).triple n (Knows n byLifecycle r due unfinished (call :: todo))
      (runCleanup n step)
      (Pact.returns fun _ => Knows n byLifecycle r due unfinished todo) := by
  have hstep : step ≠ CleanupStep.closeAllConnections := by
    intro heq
    rw [heq] at hcall
    cases hcall
  have hlist : step.call.toList ++ todo = call :: todo := by
    rw [hcall]
    rfl
  rw [← hlist]
  apply triple_runCleanup step hstep
  intro other hother
  rw [hcall] at hother
  cases hother
  exact happart

theorem triple_startAsyncCleanup {step : AsyncStep}
    (hstep : step ∈ unfinished)
    (happart : forall other, other ∈ (Step.async step).earlier ->
      other ∉ unfinished) :
    (pact o).triple n
      (Knows n byLifecycle r due unfinished (Step.async step :: todo))
      (startAsyncCleanup n step)
      (Pact.returns fun _ => Knows n byLifecycle r due unfinished todo) := by
  intro ph cs s0 s hin hkeeps hP
  have hinv : Inv o cs s := hin.inv
  have hstarted : Started n s.log := Loop.is_started hP
  have hafter : forall threw, Loop n byLifecycle r due unfinished todo
      (s.log ++ [Entry.begun n step threw]) := by
    intro threw
    have hcall : (Entry.begun n step threw).callOf n =
        some (Step.async step) := if_pos rfl
    apply Loop.snoc (e := Entry.begun n step threw)
    · rw [hcall]
      exact hP
    · refine ⟨?_, id⟩
      intro other hother heq
      cases heq
      exact hother hstep
    · rw [hcall]
      nofun
    · nofun
  have hgood : forall threw, Good o s.log (Entry.begun n step threw) :=
    fun _ => Loop.good hP happart
  refine (Prog.wp_sync (M := server o) (c := PortCall.begin n step)
    (k := fun threw => if threw = true then _ else _) rfl).mpr ?_
  intro threw _
  cases threw with
  | true =>
      have hown : TeardownOk (s.log ++ [Entry.begun n step true]) n
          { s.teardowns n with
            errors := (s.teardowns n).errors ++ [Failure.asyncStep step] } := by
        apply (hinv.teardowns n).plain (e := Entry.begun n step true) rfl
        · rfl
        · rfl
        · exact fun _ h => Or.inl h
        · exact fun _ h => h
        · exact fun _ => hstarted
        · simp [Entry.Pushes, Entry.Failed]
      have hmoves := moves_put hin (e := Entry.begun n step true) rfl hown
        (hgood true) nofun
      exact ⟨⟨hin.ok, hin.live, hmoves.1⟩,
        fun m hm => (hkeeps m hm).trans (hmoves.2 m hm), hafter true⟩
  | false =>
      have hown := (hinv.teardowns n).begin hstarted step
      have hmoves := moves_put hin (e := Entry.begun n step false) rfl hown
        (hgood false) nofun
      exact ⟨⟨hin.ok, hin.live, hmoves.1⟩,
        fun m hm => (hkeeps m hm).trans (hmoves.2 m hm), hafter false⟩

theorem triple_reachDeadline {F : List Entry -> Prop}
    (hstarted : forall log, F log -> Started n log ∧ Expired n log)
    (hlate : forall log es, F log -> (forall e, e ∈ es -> e.Late) ->
      F (log ++ es)) :
    (pact o).triple n (fun s => F s.log) (reachDeadline n)
      (Pact.returns fun _ s => F s.log ∧ Entry.deadline n ∈ s.log) := by
  intro ph cs s0 s hin hkeeps hF
  apply wp_reachDeadline hin.inv (hstarted _ hF).1 (hstarted _ hF).2
  intro s' hinv hkeeps' happend hdeadline
  obtain ⟨es, hlog, hes⟩ := happend
  refine ⟨⟨hin.ok, hin.live, hinv⟩,
    fun m hm => (hkeeps m hm).trans (hkeeps' m), ?_, hdeadline⟩
  rw [hlog]
  exact hlate _ _ hF hes

theorem triple_when {P : State -> Prop} {p : Code Unit} (c : Bool)
    (h : (pact o).triple n P p (Pact.returns fun _ => P)) :
    (pact o).triple n P (when_ c p) (Pact.returns fun _ => P) := by
  cases c with
  | true => exact h
  | false => exact Pact.triple_ret fun _ hP => hP

theorem triple_present (c : Bool) {step : Step} {p : Code Unit}
    (h : (pact o).triple n
      (Knows n byLifecycle r due unfinished (step :: todo)) p
      (Pact.returns fun _ => Knows n byLifecycle r due unfinished todo)) :
    (pact o).triple n
      (Knows n byLifecycle r due unfinished (present c step ++ todo))
      (when_ c p)
      (Pact.returns fun _ => Knows n byLifecycle r due unfinished todo) := by
  cases c with
  | true => exact h
  | false => exact Pact.triple_ret fun _ hP => hP

theorem triple_then {P R T : State -> Prop} {p q : Code Unit}
    (hp : (pact o).triple n P p (Pact.returns fun _ => R))
    (hq : (pact o).triple n R q (Pact.returns fun _ => T)) :
    (pact o).triple n P (p >>= fun _ => q) (Pact.returns fun _ => T) :=
  Pact.triple_bind hp (fun _ => hq) fun _ _ h => h.elim

/-!
## The phases
-/

theorem triple_startPhase (ph : Phase) :
    (pact o).triple n
      (Knows n byLifecycle r due [AsyncStep.httpClose] (ph.calls r ++ todo))
      (startPhase n r ph)
      (Pact.returns fun _ =>
        Knows n byLifecycle r due (AsyncStep.httpClose :: ph.steps) todo) := by
  -- the steps of the phase may be under way from now on
  apply Pact.triple_consequence (P := Knows n byLifecycle r due
    (AsyncStep.httpClose :: ph.steps) (ph.calls r ++ todo)) ?_ ?_
    fun _ _ h => h
  · cases ph with
    | durability =>
        simp only [Phase.calls, List.append_assoc]
        exact triple_then
          (triple_present _ (triple_startAsyncCleanup (by decide) (by decide)))
          (triple_then (triple_present _
              (triple_called CleanupStep.stopHeartbeat rfl (by decide)))
            (triple_present _
              (triple_startAsyncCleanup (by decide) (by decide))))
    | clients =>
        simp only [Phase.calls, List.append_assoc]
        exact triple_then
          (triple_present _
            (triple_called CleanupStep.closeClients rfl (by decide)))
          (triple_present _ (triple_startAsyncCleanup (by decide) (by decide)))
    | websocket =>
        exact triple_present _
          (triple_startAsyncCleanup (by decide) (by decide))
    | services =>
        exact triple_present _
          (triple_called CleanupStep.disposeServices rfl (by decide))
  · intro s hP
    apply Loop.finish hP
    intro step hstep hnot
    rw [List.mem_singleton.mp hstep] at hnot
    exact absurd List.mem_cons_self hnot

/-- A race is entered before the deadline; it ends when the steps are over or
the deadline has been reached. -/
theorem triple_race (steps : List AsyncStep) :
    (pact o).triple n (Knows n byLifecycle r Due.ahead unfinished todo)
      (Prog.ask (I := ports) (PortCall.race steps))
      (Pact.returns fun outcome s =>
        Knows n byLifecycle r Due.unknown unfinished todo s ∧
          match outcome with
          | Racer.completed => forall step, step ∈ steps -> Over n step s.log
          | Racer.deadline => Entry.deadline n ∈ s.log) := by
  have hissue : forall s : State, (server o).issue n (PortCall.race steps) s =
      s.put n (s.teardowns n) [Entry.waits n] :=
    fun s => s.record_eq_put n
  apply Pact.triple_await rfl
  · intro cs s hin hP
    have hinv : Inv o cs s := hin.inv
    rw [hissue]
    apply moves_put hin (e := Entry.waits n) rfl
    · apply (hinv.teardowns n).plain (e := Entry.waits n) trivial
      · rfl
      · rfl
      · exact fun _ h => Or.inl h
      · exact fun _ h => h
      · exact (hinv.teardowns n).scheduled
      · simp [Entry.Pushes, Entry.Failed]
    · exact Loop.due hP
    · nofun
  · intro cs s s' outcome hin hP hkeeps hallowed
    have hinv : Inv o cs s' := hin.inv
    rw [hissue] at hkeeps
    have hput : Knows n byLifecycle r Due.ahead unfinished todo
        (s.put n (s.teardowns n) [Entry.waits n]) :=
      Loop.snoc (e := Entry.waits n) hP ⟨nofun, id⟩ nofun nofun
    refine ⟨Pact.Moves.refl hin.inv, (Loop.forget hput).keeps hkeeps, ?_⟩
    cases outcome with
    | completed =>
        intro step hstep hbegun
        have hdone : (s'.teardowns n).pending step = false :=
          hallowed step hstep
        cases (hinv.teardowns n).pending step hbegun with
        | inl hpending =>
            rw [hdone] at hpending
            cases hpending
        | inr hsettled => exact hsettled
    | deadline => exact (hinv.teardowns n).reached.mp hallowed

/-- The teardown has come to the end of its loop, or the deadline has been
reached. -/
def Left (n : Nat) (left : List Phase) (s : State) : Prop :=
  Entry.deadline n ∈ s.log ∨ left = []

/-- The teardown has yet to start the phases that are left. -/
def Awaits (n : Nat) (byLifecycle : Bool) (r : TeardownResources) (due : Due)
    (unfinished : List AsyncStep) (left : List Phase) : State -> Prop :=
  Knows n byLifecycle r due unfinished (left.flatMap (Phase.calls r))

theorem triple_runPhases (left : List Phase) :
    (pact o).triple n
      (Awaits n byLifecycle r Due.unknown [AsyncStep.httpClose] left)
      (runPhases n r left)
      (Pact.returns fun left' s =>
        Awaits n byLifecycle r Due.unknown [AsyncStep.httpClose] left' s ∧
          Left n left' s) := by
  induction left with
  | nil => exact Pact.triple_ret fun s hP => ⟨hP, Or.inr rfl⟩
  | cons ph rest ih =>
      apply Pact.triple_inside
      apply Pact.triple_read
      rintro s ⟨hP, cs, hin⟩
      have hinv : Inv o cs s := hin.inv
      have hreached := (hinv.teardowns n).reached
      split
      · rename_i hdue
        apply Pact.triple_ret
        intro s' hs'
        rw [hs']
        exact ⟨hP, Or.inl (hreached.mp hdue)⟩
      · rename_i hdue
        have hahead : Entry.deadline n ∉ s.log :=
          fun hd => hdue (hreached.mpr hd)
        apply Pact.triple_consequence
          (P := Awaits n byLifecycle r Due.ahead [AsyncStep.httpClose]
            (ph :: rest)) ?_ ?_ fun _ _ h => h
        · unfold Awaits
          rw [List.flatMap_cons]
          apply Pact.triple_bind (triple_startPhase ph) ?_
            fun _ _ h => h.elim
          intro _
          apply Pact.triple_bind (triple_race ph.steps) ?_
            fun _ _ h => h.elim
          intro outcome
          cases outcome with
          | deadline =>
              apply Pact.triple_ret
              exact fun s' hs' => ⟨(Loop.late hs'.1 hs'.2 _).forget,
                Or.inl hs'.2⟩
          | completed =>
              apply Pact.triple_consequence ih ?_ fun _ _ h => h
              intro s' hs'
              apply Loop.finish hs'.1
              intro step hstep hnot
              cases List.mem_cons.mp hstep with
              | inl heq =>
                  rw [heq] at hnot
                  exact absurd List.mem_cons_self hnot
              | inr hin => exact hs'.2 step hin
        · intro s' hs'
          rw [hs']
          exact Loop.early hP hahead

theorem triple_drainPhases (left : List Phase) :
    (pact o).triple n
      (Awaits n byLifecycle r Due.reached [AsyncStep.httpClose] left)
      (drainPhases n r left)
      (Pact.returns fun _ =>
        Knows n byLifecycle r Due.reached [AsyncStep.httpClose] []) := by
  induction left with
  | nil => exact Pact.triple_ret fun s hP => hP
  | cons ph rest ih =>
      unfold Awaits
      rw [List.flatMap_cons]
      apply triple_then (triple_startPhase ph)
      apply Pact.triple_consequence ih ?_ fun _ _ h => h
      exact fun s hP => Loop.late hP (Loop.due hP) _

theorem triple_awaitHttpClose (left : List Phase) :
    (pact o).triple n
      (fun s =>
        Awaits n byLifecycle r Due.unknown [AsyncStep.httpClose] left s ∧
          Left n left s)
      (awaitHttpClose n)
      (Pact.returns fun _ s => Awaits n byLifecycle r Due.unknown [] left s ∧
        Left n left s) := by
  apply Pact.triple_inside
  apply Pact.triple_read
  rintro s ⟨⟨hP, hleft⟩, cs, hin⟩
  have hinv : Inv o cs s := hin.inv
  have hreached := (hinv.teardowns n).reached
  split
  · rename_i hdue
    apply Pact.triple_ret
    intro s' hs'
    rw [hs']
    exact ⟨(Loop.late hP (hreached.mp hdue) _).forget, hleft⟩
  · rename_i hdue
    have hahead : Entry.deadline n ∉ s.log :=
      fun hd => hdue (hreached.mpr hd)
    have hnil : left = [] := hleft.resolve_left hahead
    apply Pact.triple_consequence
      (P := Awaits n byLifecycle r Due.ahead [AsyncStep.httpClose] left)
      ?_ ?_ fun _ _ h => h
    · apply Pact.triple_bind (triple_race [AsyncStep.httpClose]) ?_
        fun _ _ h => h.elim
      intro outcome
      apply Pact.triple_ret
      intro s' hs'
      refine ⟨?_, Or.inr hnil⟩
      cases outcome with
      | deadline => exact (Loop.late hs'.1 hs'.2 _).forget
      | completed =>
          apply Loop.finish hs'.1
          exact fun step hstep _ => hs'.2 step hstep
    · intro s' hs'
      rw [hs']
      exact Loop.early hP hahead

structure AtEnd (n : Nat) (byLifecycle : Bool) (r : TeardownResources)
    (log : List Entry) : Prop where
  started : Entry.teardown n byLifecycle r ∈ log
  calls : callsOf n log = schedule r
  prompt : Prompt n log
  outcome : (Entry.deadline n ∈ log ∧ Entry.exceeded n ∈ log) ∨
    (Entry.deadline n ∉ log ∧ (forall step, Over n step log) ∧
      forall e, e ∈ log -> e.Pushes n -> e.Failed n)

theorem Entry.Failed.pushes {e : Entry} (h : e.Failed n) : e.Pushes n := by
  cases e with
  | unscheduled m => exact h.elim
  | exceeded m => exact h.elim
  | _ => exact h

theorem AtEnd.good {t : Teardown} {log : List Entry}
    (h : AtEnd n byLifecycle r log) (ht : TeardownOk log n t) :
    Good o log (Entry.returned n (decide (t.errors = []))) := by
  refine ⟨⟨byLifecycle, r, h.started, h.calls⟩, ?_, h.prompt, ?_, ?_⟩
  · intro b r' hr
    rw [ht.closes, ht.resources b r' hr]
    simp only [ht.reached]
  · rw [decide_eq_true_iff, ht.errors]
    constructor
    · intro hall
      refine ⟨?_, fun e he hf => hall e he hf.pushes⟩
      intro hdeadline
      cases h.outcome with
      | inl hlate => exact hall _ hlate.2 rfl
      | inr hearly => exact hearly.1 hdeadline
    · rintro ⟨hahead, hall⟩ e he hp
      cases h.outcome with
      | inl hlate => exact hahead hlate.1
      | inr hearly => exact hall e he (hearly.2.2 e he hp)
  · cases h.outcome with
    | inl hlate => exact Or.inl hlate.1
    | inr hearly => exact Or.inr hearly.2.1

theorem triple_exceeded :
    (pact o).triple n
      (Knows n byLifecycle r Due.reached [AsyncStep.httpClose] [])
      (Prog.modify fun s =>
        (pushError n Failure.deadline s).record (Entry.exceeded n))
      (Pact.returns fun _ s => AtEnd n byLifecycle r s.log) := by
  apply Pact.triple_modify
  · intro cs s hin hP
    have hinv : Inv o cs s := hin.inv
    apply moves_put hin (e := Entry.exceeded n) rfl
    · apply (hinv.teardowns n).plain (e := Entry.exceeded n) trivial
      · rfl
      · rfl
      · exact fun _ h => Or.inl h
      · exact fun _ h => h
      · exact (hinv.teardowns n).scheduled
      · simp [Entry.Pushes]
    · trivial
    · nofun
  · intro s hP
    have hdeadline : Entry.deadline n ∈ s.log ++ [Entry.exceeded n] :=
      List.mem_append_left _ (Loop.due hP)
    have hcalls := Loop.calls hP
    constructor
    · exact List.mem_append_left _ (Loop.started hP)
    · show callsOf n (s.log ++ [Entry.exceeded n]) = schedule r
      rw [callsOf_append, ← hcalls]
      rfl
    · exact fun _ _ _ => hdeadline
    · exact Or.inl ⟨hdeadline,
        List.mem_append_right _ (List.mem_singleton.mpr rfl)⟩

/-- The teardown has returned, and the log has its outcome. -/
def Torn (n : Nat) (byLifecycle : Bool) (r : TeardownResources)
    (res : Except Thrown Unit) (s : State) : Prop :=
  Entry.teardown n byLifecycle r ∈ s.log ∧ Entry.returned n res.isOk ∈ s.log

theorem triple_throwErrors :
    (pact o).triple n (fun s => AtEnd n byLifecycle r s.log) (throwErrors n)
      (Torn n byLifecycle r) := by
  apply Pact.triple_read
  intro s hend
  apply Pact.triple_bind (R := Pact.returns fun _ s' =>
    Entry.teardown n byLifecycle r ∈ s'.log ∧
      Entry.returned n (decide ((s.teardowns n).errors = [])) ∈ s'.log)
  · apply Pact.triple_modify
    · intro cs s' hin hs'
      have hinv : Inv o cs s' := hin.inv
      rw [hs'] at hin hinv ⊢
      rw [s.record_eq_put n]
      apply moves_put hin
        (e := Entry.returned n (decide ((s.teardowns n).errors = []))) rfl
      · apply (hinv.teardowns n).plain
          (e := Entry.returned n (decide ((s.teardowns n).errors = []))) trivial
        · rfl
        · rfl
        · exact fun _ h => Or.inl h
        · exact fun _ h => h
        · exact (hinv.teardowns n).scheduled
        · simp [Entry.Pushes, Entry.Failed]
      · exact hend.good (hinv.teardowns n)
      · nofun
    · intro s' hs'
      rw [hs']
      exact ⟨List.mem_append_left _ hend.started,
        List.mem_append_right _ (List.mem_singleton.mpr rfl)⟩
  · intro _
    split
    · rename_i hok
      apply Pact.triple_ret
      rw [hok]
      exact fun _ h => h
    · rename_i hok
      apply Pact.triple_raise
      rw [Bool.eq_false_iff.mpr hok]
      exact fun _ h => h
  · exact fun _ _ h => h.elim

theorem triple_endPhases (left : List Phase) :
    (pact o).triple n
      (fun s => Awaits n byLifecycle r Due.unknown [] left s ∧ Left n left s)
      (Prog.read >>= fun s => endPhases n r left (s.teardowns n))
      (Pact.returns fun _ s => AtEnd n byLifecycle r s.log) := by
  apply Pact.triple_inside
  apply Pact.triple_read
  rintro s ⟨⟨hP, hleft⟩, cs, hin⟩
  have hinv : Inv o cs s := hin.inv
  have hreached := (hinv.teardowns n).reached
  unfold endPhases
  split
  · rename_i hdue
    apply triple_then
      (R := Knows n byLifecycle r Due.reached [AsyncStep.httpClose] [])
    · apply Pact.triple_consequence (triple_drainPhases left) ?_
        fun _ _ h => h
      intro s' hs'
      rw [hs']
      exact Loop.late hP (hreached.mp hdue) _
    · exact triple_exceeded
  · rename_i hdue
    have hahead : Entry.deadline n ∉ s.log :=
      fun hd => hdue (hreached.mpr hd)
    have hnil : left = [] := hleft.resolve_left hahead
    rw [hnil] at hP
    have hclear : (pact o).triple n (Knows n byLifecycle r Due.ahead [] [])
        (runCleanup n CleanupStep.clearTimeout)
        (Pact.returns fun _ => Knows n byLifecycle r Due.ahead [] []) :=
      triple_runCleanup CleanupStep.clearTimeout nofun nofun
    apply Pact.triple_consequence (triple_when _ hclear)
    · intro s' hs'
      rw [hs']
      exact Loop.early hP hahead
    · intro res s' hs'
      cases res with
      | error e => exact hs'.elim
      | ok a =>
          have hloop : Loop n byLifecycle r Due.ahead [] [] s'.log := hs'
          have hcalls := hloop.calls
          rw [List.append_nil] at hcalls
          have hcase := hloop.waits.resolve_left hloop.due
          exact ⟨hloop.started, hcalls, hloop.prompt, Or.inr ⟨hloop.due,
            fun step => hcase.1 step List.not_mem_nil, hcase.2⟩⟩

/-!
## The whole teardown
-/

theorem schedule_nodup (r : TeardownResources) : (schedule r).Nodup := by
  obtain ⟨httpServer, websocket, cleaner, activity, registry, services⟩ := r
  revert httpServer websocket cleaner activity registry services
  decide

/-- The timer has been set, and only the phases are left to be called. -/
structure Timed (n : Nat) (byLifecycle : Bool) (r : TeardownResources)
    (set : TimerSet) (log : List Entry) : Prop where
  started : Entry.teardown n byLifecycle r ∈ log
  calls : callsOf n log ++ phases.flatMap (Phase.calls r) = schedule r
  timer : forall set', Entry.timer n set' ∈ log <-> set' = set

theorem Timed.append {set : TimerSet} {log more : List Entry}
    (h : Timed n byLifecycle r set log)
    (hmore : forall e, e ∈ more -> e.callOf n = none) :
    Timed n byLifecycle r set (log ++ more) := by
  have hnone : callsOf n more = [] := List.filterMap_eq_nil_iff.mpr hmore
  constructor
  · exact List.mem_append_left _ h.started
  · rw [callsOf_append, hnone, List.append_nil]
    exact h.calls
  · intro set'
    rw [List.mem_append, h.timer, or_iff_left]
    intro hin
    have hcall : (Entry.timer n set').callOf n = some Step.timer := if_pos rfl
    rw [hmore _ hin] at hcall
    cases hcall

theorem Timed.expired {set : TimerSet} {log : List Entry}
    (h : Timed n byLifecycle r set log) (hset : set.Expires) :
    Expired n log :=
  Or.inr ⟨set, (h.timer set).mpr rfl, hset⟩

/-- The phases begin when an expired timer has been taken note of. -/
theorem Timed.loop {set : TimerSet} {log : List Entry}
    (h : Timed n byLifecycle r set log)
    (hwaits : Waited n [AsyncStep.httpClose] log)
    (hexpires : set.Expires -> Entry.deadline n ∈ log) :
    Loop n byLifecycle r Due.unknown [AsyncStep.httpClose]
      (phases.flatMap (Phase.calls r)) log := by
  refine ⟨h.started, h.calls, trivial, hwaits, ?_⟩
  intro set' hset' hthis
  rw [(h.timer set').mp hset'] at hthis
  exact hexpires hthis

theorem triple_expired (set : TimerSet) (hset : set.Expires) :
    (pact o).triple n (fun s => Timed n byLifecycle r set s.log)
      (reachDeadline n)
      (Pact.returns fun _ s => Timed n byLifecycle r set s.log ∧
        Entry.deadline n ∈ s.log) := by
  apply triple_reachDeadline (F := Timed n byLifecycle r set)
  · exact fun log h => ⟨⟨byLifecycle, r, h.started⟩, h.expired hset⟩
  · exact fun log es h hes => h.append fun e he => ((hes e he).aside n []).2

theorem triple_unscheduled {set : TimerSet} :
    (pact o).triple n (fun s => Timed n byLifecycle r set s.log)
      (Prog.modify fun s =>
        (pushError n Failure.scheduler s).record (Entry.unscheduled n))
      (Pact.returns fun _ s => Timed n byLifecycle r set s.log) := by
  apply Pact.triple_modify
  · intro cs s hin hP
    have hinv : Inv o cs s := hin.inv
    apply moves_put hin (e := Entry.unscheduled n) rfl
    · apply (hinv.teardowns n).plain (e := Entry.unscheduled n) trivial
      · rfl
      · rfl
      · exact fun _ h => Or.inl h
      · exact fun _ h => h
      · exact (hinv.teardowns n).scheduled
      · simp [Entry.Pushes]
    · trivial
    · nofun
  · intro s hP
    apply hP.append
    intro e he
    rw [List.mem_singleton.mp he]
    rfl

theorem triple_handle {P : List Entry -> Prop} (defined : Bool) :
    (pact o).triple n (fun s => P s.log)
      (Prog.modify fun s =>
        s.setTeardown n fun t => { t with timer := defined })
      (Pact.returns fun _ s => P s.log) := by
  apply Pact.triple_modify
  · intro cs s hin hP
    have hinv : Inv o cs s := hin.inv
    have hstate : (s.setTeardown n fun t => { t with timer := defined }) =
        s.put n { s.teardowns n with timer := defined } [] := by
      simp [State.setTeardown, State.put]
    rw [hstate]
    have hes : forall e, e ∈ ([] : List Entry) -> e.teardownOf = some n :=
      nofun
    have hold := hinv.teardowns n
    constructor
    · apply hinv.put (hin.ok n hin.live) hes ?_ ?_ nofun
      · rw [List.append_nil]
        exact ⟨hold.resources, hold.reached, hold.pending, hold.waiting,
          hold.scheduled, hold.errors, hold.closes⟩
      · rw [List.append_nil]
        exact hinv.log
    · exact fun m hm => Keeps.put m s hes fun heq => absurd heq hm
  · exact fun s hP => hP

theorem triple_keepTimer (set : TimerSet) :
    (pact o).triple n
      (fun s => Timed n byLifecycle r set s.log ∧
        Waited n [AsyncStep.httpClose] s.log)
      (keepTimer n set)
      (Pact.returns fun _ =>
        Awaits n byLifecycle r Due.unknown [AsyncStep.httpClose] phases) := by
  cases set with
  | threw fired =>
      have hfired : (pact o).triple n
          (fun s => Timed n byLifecycle r (TimerSet.threw fired) s.log)
          (when_ fired (reachDeadline n))
          (Pact.returns fun _ s =>
            Timed n byLifecycle r (TimerSet.threw fired) s.log) := by
        apply triple_when
        apply Pact.triple_consequence
          (triple_expired (TimerSet.threw fired) trivial) fun _ h => h
        intro res s hs
        cases res with
        | ok a => exact hs.1
        | error e => exact hs.elim
      apply Pact.triple_consequence (triple_then hfired
        (triple_then triple_unscheduled ?_)) fun _ h => h.1
      · exact fun _ _ h => h
      · apply Pact.triple_consequence
          (triple_expired (TimerSet.threw fired) trivial) fun _ h => h
        intro res s hs
        cases res with
        | ok a => exact hs.1.loop (Or.inl hs.2) fun _ => hs.2
        | error e => exact hs.elim
  | handle fired defined =>
      apply triple_then (R := fun s => Loop n byLifecycle r Due.unknown
        [AsyncStep.httpClose] (phases.flatMap (Phase.calls r)) s.log)
      · cases fired with
        | true =>
            apply Pact.triple_consequence
              (triple_expired (TimerSet.handle true defined) rfl)
              fun _ h => h.1
            intro res s hs
            cases res with
            | ok a => exact hs.1.loop (Or.inl hs.2) fun _ => hs.2
            | error e => exact hs.elim
        | false =>
            apply Pact.triple_ret
            exact fun s hs => hs.1.loop hs.2 fun h => by cases h
      · exact triple_handle defined

theorem triple_setTimeout (timeoutMs : Nat) :
    (pact o).triple n
      (Knows n byLifecycle r Due.unknown [AsyncStep.httpClose]
        (Step.timer :: phases.flatMap (Phase.calls r)))
      (Prog.ask (I := ports) (PortCall.setTimeout n timeoutMs))
      (Pact.returns fun set s => Timed n byLifecycle r set s.log ∧
        Waited n [AsyncStep.httpClose] s.log) := by
  apply Pact.triple_sync rfl
  intro cs s set hin hP _
  have hinv : Inv o cs s := hin.inv
  have hloop : Loop n byLifecycle r Due.unknown [AsyncStep.httpClose]
      (Step.timer :: phases.flatMap (Phase.calls r)) s.log := hP
  have hcall : (Entry.timer n set).callOf n = some Step.timer := if_pos rfl
  -- the timer has not been set before
  have hnot : forall set', Entry.timer n set' ∉ s.log := by
    intro set' hset'
    have hmem : Step.timer ∈ callsOf n s.log :=
      List.mem_filterMap.mpr ⟨_, hset', if_pos rfl⟩
    have hnodup := schedule_nodup r
    rw [← hloop.calls] at hnodup
    exact (List.nodup_append.mp hnodup).2.2 _ hmem _ List.mem_cons_self rfl
  have hstate : (server o).reply n (PortCall.setTimeout n timeoutMs) set
      ((server o).issue n (PortCall.setTimeout n timeoutMs) s) =
      s.put n { s.teardowns n with scheduled := true } [Entry.timer n set] := by
    simp [server, issue, reply, State.setTeardown, State.record, State.put]
  rw [hstate]
  refine ⟨?_, ⟨?_, ?_, ?_⟩, ?_⟩
  · apply moves_put hin (e := Entry.timer n set) rfl
    · apply (hinv.teardowns n).plain (e := Entry.timer n set) trivial
      · rfl
      · rfl
      · exact fun _ h => Or.inl h
      · exact fun _ h => h
      · exact fun _ => hloop.is_started
      · simp [Entry.Pushes, Entry.Failed]
    · exact (hloop.good nofun).1
    · nofun
  · exact List.mem_append_left _ hloop.started
  · show callsOf n (s.log ++ [Entry.timer n set]) ++ _ = _
    rw [callsOf_append, callsOf_single, hcall, List.append_assoc]
    exact hloop.calls
  · intro set'
    show Entry.timer n set' ∈ s.log ++ [Entry.timer n set] <-> set' = set
    simp [hnot set']
  · exact hloop.waits.snoc ⟨nofun, id⟩

structure Fresh (o : Options) (n : Nat) (byLifecycle : Bool)
    (r : TeardownResources) (s : State) : Prop where
  unused : forall e, e ∈ s.log -> e.teardownOf ≠ some n
  fits : Fits o s.shutdownPromise n byLifecycle r

theorem Fresh.opened (h : Fresh o n byLifecycle r s) (t : Teardown) :
    Knows n byLifecycle r Due.unknown [AsyncStep.httpClose] (schedule r)
      (s.put n t [Entry.teardown n byLifecycle r]) := by
  have hunused : forall e, e ∈ s.log ++ [Entry.teardown n byLifecycle r] ->
      e.teardownOf = some n -> e = Entry.teardown n byLifecycle r := by
    intro e he hn
    cases List.mem_append.mp he with
    | inl hold => exact absurd hn (h.unused e hold)
    | inr hnew => exact List.mem_singleton.mp hnew
  constructor
  · exact List.mem_append_right _ (List.mem_singleton.mpr rfl)
  · have hnone : callsOf n (s.log ++ [Entry.teardown n byLifecycle r]) =
        [] := by
      apply List.filterMap_eq_nil_iff.mpr
      intro e he
      by_cases hn : e.teardownOf = some n
      · rw [hunused e he hn]
        rfl
      · exact Entry.callOf_of_ne hn
    show callsOf n (s.log ++ [Entry.teardown n byLifecycle r]) ++ _ = _
    rw [hnone]
    rfl
  · trivial
  · refine Or.inr ⟨?_, ?_⟩
    · intro step _ hbegun
      cases hunused _ hbegun rfl
    · intro e he hp
      rw [hunused e he hp.teardownOf] at hp
      exact hp.elim
  · intro set hset
    cases hunused _ hset rfl

theorem Fresh.good (h : Fresh o n byLifecycle r s) (hlife : LifeOk o s) :
    Good o s.log (Entry.teardown n byLifecycle r) := by
  refine ⟨h.unused, ?_⟩
  intro hb m r' hm
  have hmine := h.fits.promise.mp hb
  have hother := (hlife.torn m true r' hm).promise.mp rfl
  rw [hmine] at hother
  cases hother
  exact h.unused _ hm rfl

theorem triple_performBoundedTeardown (timeoutMs : Nat) :
    (pact o).triple n (Fresh o n byLifecycle r)
      (performBoundedTeardown timeoutMs n byLifecycle r)
      (Torn n byLifecycle r) := by
  unfold performBoundedTeardown
  apply Pact.triple_bind (R := Pact.returns fun _ =>
    Knows n byLifecycle r Due.unknown [AsyncStep.httpClose] (schedule r))
    ?_ ?_ fun _ _ h => h.elim
  · apply Pact.triple_modify
    · intro cs s hin hP
      have hinv : Inv o cs s := hin.inv
      apply moves_put hin (e := Entry.teardown n byLifecycle r) rfl
      · exact TeardownOk.start hP.unused byLifecycle r
      · exact hP.good hinv.life
      · intro b r' heq
        cases heq
        exact hP.fits
    · exact fun s hP => hP.opened _
  intro _
  apply Pact.triple_bind
    (triple_present _
      (triple_called CleanupStep.stopAccepting rfl (by decide))) ?_
    fun _ _ h => h.elim
  intro _
  apply Pact.triple_bind
    (triple_present _
      (triple_startAsyncCleanup List.mem_cons_self (by decide))) ?_
    fun _ _ h => h.elim
  intro _
  apply Pact.triple_bind (triple_setTimeout timeoutMs) ?_ fun _ _ h => h.elim
  intro set
  apply Pact.triple_bind (triple_keepTimer set) ?_ fun _ _ h => h.elim
  intro _
  apply Pact.triple_bind (triple_runPhases phases) ?_ fun _ _ h => h.elim
  intro left
  apply Pact.triple_bind (triple_awaitHttpClose left) ?_ fun _ _ h => h.elim
  intro _
  show (pact o).triple n _ ((Prog.read >>= fun s =>
    endPhases n r left (s.teardowns n)) >>= fun _ => throwErrors n) _
  exact Pact.triple_bind (triple_endPhases left) (fun _ => triple_throwErrors)
    fun _ _ h => h.elim

/-!
## The lifecycle
-/

/-- The operation leaves nothing but what is in the invariant. -/
def Ended (_ : Except Thrown Unit) (_ : State) : Prop := True

/-- The teardown of the lifecycle has settled so. -/
def Settled (o : Options) (res : Except Thrown Unit) (s : State) : Prop :=
  exists n, Torn n true o.resources res s

theorem Inv.settled (h : Inv o cs s) {k : Nat} {ok : Bool}
    (hpromise : s.shutdownPromise = some k)
    (hreturned : Entry.returned k ok ∈ s.log) :
    Entry.teardown k true o.resources ∈ s.log := by
  obtain ⟨before, after, hlog⟩ := List.append_of_mem hreturned
  have hgood : Good o before (Entry.returned k ok) := h.log _ _ _ hlog
  obtain ⟨b, r, hr, _⟩ := hgood.1
  have hmem : Entry.teardown k b r ∈ s.log := by
    rw [hlog]
    exact List.mem_append_left _ hr
  have hfits := h.life.torn k b r hmem
  have hb := hfits.promise.mpr hpromise
  rw [← hfits.resources hb, ← hb]
  exact hmem

theorem triple_awaitShutdown (k : Nat) :
    (pact o).triple n (fun s => s.shutdownPromise = some k) (awaitShutdown k)
      (Settled o) := by
  apply Pact.triple_bind (R := Pact.returns fun ok s =>
    Entry.teardown k true o.resources ∈ s.log ∧ Entry.returned k ok ∈ s.log)
  · apply Pact.triple_await rfl
    · exact fun cs s hin _ => Pact.Moves.refl hin.inv
    · intro cs s s' ok hin hpromise hkeeps hallowed
      have hinv : Inv o cs s' := hin.inv
      exact ⟨Pact.Moves.refl hin.inv,
        hinv.settled (hkeeps.promise k hpromise) hallowed, hallowed⟩
  · intro ok
    cases ok with
    | true => exact Pact.triple_ret fun _ h => ⟨k, h⟩
    | false => exact Pact.triple_raise fun _ h => ⟨k, h⟩
  · exact fun _ _ h => h.elim

theorem cancelAttempt_cases (s : State) : cancelAttempt s = s ∨
    exists k, cancelAttempt s = s.setAttempt k Attempt.rejected := by
  unfold cancelAttempt
  split
  · exact Or.inl rfl
  · rename_i k _
    split
    · exact Or.inr ⟨k, rfl⟩
    · exact Or.inl rfl

/-- A shutdown that begins changes the state and its promise, and may reject
the attempt to listen. -/
structure Begins (n : Nat) (s s' : State) : Prop where
  life : s'.life = Life.stopping
  promise : s'.shutdownPromise = some n
  log : s'.log = s.log
  teardowns : s'.teardowns = s.teardowns
  attempts : forall m, s'.attempts m = Attempt.resolved ->
    s.attempts m = Attempt.resolved

theorem beginShutdown_begins (n : Nat) (s : State) :
    Begins n s (beginShutdown n s) := by
  cases cancelAttempt_cases (s.setLife Life.stopping) with
  | inl h =>
      constructor
      · simp [beginShutdown, h]
      · rfl
      · simp [beginShutdown, h]
      · show (cancelAttempt (s.setLife Life.stopping)).teardowns = s.teardowns
        rw [h]
        rfl
      · exact fun m hm => by simpa [beginShutdown, h] using hm
  | inr h =>
      obtain ⟨k, hk⟩ := h
      constructor
      · simp [beginShutdown, hk]
      · rfl
      · simp [beginShutdown, hk]
      · show (cancelAttempt (s.setLife Life.stopping)).teardowns = s.teardowns
        rw [hk]
        rfl
      · intro m hm
        by_cases heq : m = k
        · simp [beginShutdown, hk, heq] at hm
        · simpa [beginShutdown, hk, heq] using hm

def Unused (n : Nat) (s : State) : Prop :=
  forall e, e ∈ s.log -> e.teardownOf ≠ some n

/-- The lifecycle does not know yet whether it has been asked to shut down. -/
structure Asked (o : Options) (s : State) : Prop where
  promise : s.shutdownPromise = none
  resolved : forall n, s.attempts n = Attempt.resolved ->
    Entry.listening n ∈ s.log
  torn : forall n b r, Entry.teardown n b r ∈ s.log -> Fits o none n b r

theorem LifeOk.asks (h : LifeOk o s) (hpromise : s.shutdownPromise = none) :
    Asked o s := by
  refine ⟨hpromise, h.resolved, ?_⟩
  rw [← hpromise]
  exact h.torn

/-- The promise of the shutdown is there from the first call on. -/
theorem Asked.begin (h : Asked o s) (hunused : Unused n s)
    (hbegins : Begins n s s') : LifeOk o s' := by
  have hlog := hbegins.log
  constructor
  · rw [hbegins.promise, hbegins.life]
    simp
  · rw [hbegins.promise]
    exact fun _ _ => nofun
  · rw [hbegins.life]
    nofun
  · intro m hm
    rw [hlog]
    exact h.resolved m (hbegins.attempts m hm)
  · intro m b r hm
    rw [hlog] at hm
    have hfits := h.torn m b r hm
    have hne : m ≠ n := fun heq => hunused _ hm (congrArg some heq)
    rw [hbegins.promise]
    refine ⟨?_, hfits.resources⟩
    rw [hfits.promise]
    simp [hne.symm]

theorem Unused.fresh (h : Unused n s) (hpromise : s.shutdownPromise = some n) :
    Fresh o n true o.resources s :=
  ⟨h, ⟨⟨fun _ => hpromise, fun _ => rfl⟩, fun _ => rfl⟩⟩

theorem triple_stopped (res : Except Thrown Unit) :
    (pact o).triple n (Torn n true o.resources res) (stopped res)
      (Settled o) := by
  apply Pact.triple_bind (R := Pact.returns fun _ =>
    Torn n true o.resources res)
  · apply Pact.triple_modify
    · intro cs s hin hP
      have hinv : Inv o cs s := hin.inv
      have hpromise : s.shutdownPromise = some n :=
        (hinv.life.torn n true o.resources hP.1).promise.mp rfl
      have hlife : LifeOk o (s.setLife Life.stopped) := by
        refine ⟨?_, hinv.life.asked, nofun, hinv.life.resolved, hinv.life.torn⟩
        simp [hpromise]
      have hkeeps : forall m, Keeps m s (s.setLife Life.stopped) :=
        Keeps.quiet rfl fun _ hk => hk
      exact ⟨hinv.quiet rfl rfl hinv.bounded hlife, fun m _ => hkeeps m⟩
    · exact fun _ h => h
  · intro _
    cases res with
    | ok a => exact Pact.triple_ret fun _ h => ⟨n, h⟩
    | error e => exact Pact.triple_raise fun _ h => ⟨n, h⟩
  · exact fun _ _ h => h.elim

theorem triple_settleShutdown :
    (pact o).triple n (Fresh o n true o.resources) (settleShutdown o n)
      (Settled o) := by
  apply Pact.triple_bind (R := Pact.returns fun res =>
    Torn n true o.resources res)
  · apply Pact.triple_tryCatch
      (R := fun res => Torn n true o.resources (res.bind id))
    · apply Pact.triple_map
      apply Pact.triple_consequence (triple_performBoundedTeardown _)
        fun _ h => h
      intro res s h
      cases res with
      | ok a => exact h
      | error e => exact h
    · exact fun _ _ h => h
    · exact fun e => Pact.triple_ret fun _ h => h
  · exact triple_stopped
  · exact fun _ _ h => h.elim

theorem Unused.begins (h : Unused n s) (hbegins : Begins n s s') :
    Unused n s' := by
  intro e he
  rw [hbegins.log] at he
  exact h e he

theorem triple_shutdown :
    (pact o).triple n (Unused n) (shutdown o n) (Settled o) := by
  apply Pact.triple_read
  intro s hunused
  cases hpromise : s.shutdownPromise with
  | some k =>
      apply Pact.triple_consequence (triple_awaitShutdown k) ?_ fun _ _ h => h
      intro s' hs'
      rw [hs']
      exact hpromise
  | none =>
      apply Pact.triple_bind
        (R := Pact.returns fun _ => Fresh o n true o.resources)
      · apply Pact.triple_modify
        · intro cs s' hin hs'
          rw [hs'] at hin ⊢
          have hinv : Inv o cs s := hin.inv
          have hbegins := beginShutdown_begins n s
          have hlife := (hinv.life.asks hpromise).begin hunused hbegins
          refine ⟨hinv.quiet hbegins.log hbegins.teardowns ?_ hlife,
            fun m _ => Keeps.quiet hbegins.log ?_ m⟩
          · intro m hm
            rw [hbegins.promise] at hm
            cases hm
            exact hin.ok n hin.live
          · rw [hpromise]
            nofun
        · intro s' hs'
          rw [hs']
          have hbegins := beginShutdown_begins n s
          exact (hunused.begins hbegins).fresh hbegins.promise
      · exact fun _ => triple_settleShutdown
      · exact fun _ _ h => h.elim

theorem Unused.keeps (h : Unused n s) (hkeeps : Keeps n s s') :
    Unused n s' := by
  obtain ⟨more, hlog, hmore⟩ := hkeeps.log
  intro e he hn
  rw [hlog] at he
  cases List.mem_append.mp he with
  | inl hold => exact h e hold hn
  | inr hnew =>
      obtain ⟨b, r, hr⟩ := (hmore e hnew hn).2
      exact h _ hr rfl

theorem triple_quiet {P P' : State -> Prop} {f : State -> State}
    (hlog : forall s, (f s).log = s.log)
    (hsame : forall s, (f s).teardowns = s.teardowns)
    (hpromise : forall s, (f s).shutdownPromise = s.shutdownPromise)
    (hlife : forall s, P s -> LifeOk o s -> LifeOk o (f s))
    (hpost : forall s, P s -> P' (f s)) :
    (pact o).triple n P (Prog.modify f) (Pact.returns fun _ => P') := by
  apply Pact.triple_modify
  · intro cs s hin hP
    have hinv : Inv o cs s := hin.inv
    have hbounded : forall m, (f s).shutdownPromise = some m ->
        m < cs.next := by
      rw [hpromise]
      exact hinv.bounded
    exact ⟨hinv.quiet (hlog s) (hsame s) hbounded (hlife s hP hinv.life),
      fun m _ => Keeps.quiet (hlog s) (fun _ hk => (hpromise s).trans hk) m⟩
  · exact hpost

theorem triple_createListenAttempt :
    (pact o).triple n (Unused n) (createListenAttempt n)
      (Pact.returns fun _ => Unused n) := by
  apply Pact.triple_bind (R := Pact.returns fun _ => Unused n)
  · apply Pact.triple_sync rfl
    exact fun cs s threw hin hP _ => ⟨Pact.Moves.refl hin.inv, hP⟩
  · intro threw
    apply triple_quiet
    · exact fun _ => rfl
    · exact fun _ => rfl
    · exact fun _ => rfl
    · intro s _ h
      apply h.setAttempt n
      cases threw <;> nofun
    · exact fun _ h => h
  · exact fun _ _ h => h.elim

/-- What the `try` block of `start` leaves to the `catch` clause. -/
def Listened (n : Nat) : Except Thrown Unit -> State -> Prop
  | Except.ok _, _ => True
  | Except.error _, s => Unused n s

theorem triple_awaitListening :
    (pact o).triple n (Unused n) (awaitListening n) (Listened n) := by
  apply Pact.triple_bind (R := Pact.returns fun resolved s => Unused n s ∧
    (resolved = true -> Entry.listening n ∈ s.log))
  · apply Pact.triple_await rfl
    · exact fun cs s hin _ => Pact.Moves.refl hin.inv
    · intro cs s s' resolved hin hP hkeeps hallowed
      have hinv : Inv o cs s' := hin.inv
      refine ⟨Pact.Moves.refl hin.inv, hP.keeps hkeeps, ?_⟩
      intro hresolved
      rw [hresolved] at hallowed
      exact hinv.life.resolved n hallowed
  · intro resolved
    cases resolved with
    | false => exact Pact.triple_raise fun _ hs => hs.1
    | true =>
        apply Pact.triple_read
        rintro s ⟨hunused, hlistening⟩
        split
        · rename_i hstarting
          apply Pact.triple_consequence (P := fun s' => s' = s)
            (Q := Pact.returns fun _ _ => True) ?_ (fun _ h => h)
          · intro res s' hs'
            cases res with
            | ok a => trivial
            | error e => exact hs'.elim
          · apply triple_quiet
            · exact fun _ => rfl
            · exact fun _ => rfl
            · exact fun _ => rfl
            · intro s' hs' h
              rw [hs'] at h ⊢
              have hnone : s.shutdownPromise = none := by
                rw [h.promise, hstarting]
                simp
              refine ⟨?_, h.asked, fun _ => ⟨n, hlistening rfl⟩, h.resolved,
                h.torn⟩
              simp [hnone]
            · exact fun _ _ => trivial
        · apply Pact.triple_raise
          intro s' hs'
          rw [hs']
          exact hunused
  · exact fun _ _ h => h.elim

theorem triple_failStart :
    (pact o).triple n (Unused n) (failStart o n) Ended := by
  apply Pact.triple_bind (R := fun _ _ => True)
  · apply Pact.triple_tryCatch triple_shutdown
    · exact fun _ _ _ => trivial
    · exact fun _ => Pact.triple_ret fun _ _ => trivial
  · exact fun _ => Pact.triple_raise fun _ _ => trivial
  · exact fun _ _ _ => trivial

theorem triple_forgetAttempt (n k : Nat) :
    (pact o).triple n (fun _ => True) (forgetAttempt k)
      (Pact.returns fun _ _ => True) := by
  apply triple_quiet
  · intro s
    split <;> rfl
  · intro s
    split <;> rfl
  · intro s
    split <;> rfl
  · intro s _ h
    split
    · exact ⟨h.promise, h.asked, h.running, h.resolved, h.torn⟩
    · exact h
  · exact fun _ _ => trivial

theorem triple_start :
    (pact o).triple n (Unused n) (start o n) Ended := by
  apply Pact.triple_read
  intro s hunused
  split
  · rename_i hnew
    apply Pact.triple_bind (R := Pact.returns fun _ => Unused n) ?_ ?_
      fun _ _ h => h.elim
    · apply triple_quiet
      · exact fun _ => rfl
      · exact fun _ => rfl
      · exact fun _ => rfl
      · intro s' hs' h
        rw [hs'] at h ⊢
        have hnone : s.shutdownPromise = none := by
          rw [h.promise, hnew]
          simp
        refine ⟨?_, h.asked, nofun, h.resolved, h.torn⟩
        simp [hnone]
      · intro s' hs'
        rw [hs']
        exact hunused
    intro _
    apply Pact.triple_bind triple_createListenAttempt ?_ fun _ _ h => h.elim
    intro _
    apply Pact.triple_bind (R := Pact.returns fun _ => Unused n) ?_ ?_
      fun _ _ h => h.elim
    · apply triple_quiet
      · exact fun _ => rfl
      · exact fun _ => rfl
      · exact fun _ => rfl
      · exact fun _ _ h =>
          ⟨h.promise, h.asked, h.running, h.resolved, h.torn⟩
      · exact fun _ h => h
    intro _
    apply Pact.triple_always (R := Ended)
    · apply Pact.triple_tryCatch triple_awaitListening
      · exact fun _ _ _ => trivial
      · exact fun _ => triple_failStart
    · intro res
      exact triple_forgetAttempt n n
  · exact Pact.triple_raise fun _ _ => trivial

theorem LifeOk.up (h : LifeOk o s) (hrunning : s.life = Life.running) :
    Up s.log := by
  have hnone : s.shutdownPromise = none := by
    rw [h.promise, hrunning]
    simp
  constructor
  · exact h.running hrunning
  · exact fun m hm => h.asked m hm hnone
  · intro m r hm
    have hsome := (h.torn m true r hm).promise.mp rfl
    rw [hnone] at hsome
    cases hsome

theorem triple_isReady :
    (pact o).triple n (fun _ => True) isReady
      (Pact.returns fun ready s => ready = true -> Up s.log) := by
  apply Pact.triple_inside
  apply Pact.triple_read
  rintro s ⟨_, cs, hin⟩
  have hinv : Inv o cs s := hin.inv
  split
  · rename_i hrunning
    apply Pact.triple_bind (R := Pact.returns fun _ s' => s' = s)
    · apply Pact.triple_sync rfl
      exact fun cs s' ready hin' hs' _ => ⟨Pact.Moves.refl hin'.inv, hs'⟩
    · intro ready
      apply Pact.triple_ret
      intro s' hs' _
      rw [hs']
      exact hinv.life.up hrunning
    · exact fun _ _ h => h.elim
  · exact Pact.triple_ret fun _ _ => nofun

end Steps

/-!
## Every run of the server
-/

theorem Inv.census {cs' : Census} (h : Inv o cs s)
    (hnext : cs.next ≤ cs'.next) : Inv o cs' s :=
  ⟨h.life, h.teardowns,
    fun he hn => Nat.lt_of_lt_of_le (h.fresh he hn) hnext,
    fun n hn => Nat.lt_of_lt_of_le (h.bounded n hn) hnext, h.log⟩

theorem Inv.record (h : Inv o cs s) {e : Entry} (he : e.teardownOf = none)
    (hasked : forall m, e = Entry.entered m Op.shutdown ->
      s.shutdownPromise ≠ none) (hgood : Good o s.log e) :
    Inv o cs (s.record e) :=
  h.note he rfl rfl h.bounded (h.life.record he hasked) hgood

theorem Keeps.record (m : Nat) (s : State) {e : Entry}
    (he : e.teardownOf = none) : Keeps m s (s.record e) := by
  apply Keeps.note he
  · rfl
  · exact fun _ hk => hk

theorem Inv.unused (h : Inv o cs s) : Unused cs.next s :=
  fun _ he hn => Nat.lt_irrefl _ (h.fresh he hn)

theorem Unused.record (h : Unused n s) {e : Entry}
    (he : e.teardownOf = none) : Unused n (s.record e) := by
  intro x hx
  cases List.mem_append.mp hx with
  | inl hold => exact h x hold
  | inr hnew =>
      rw [List.mem_singleton.mp hnew, he]
      nofun

/-- What the end of an operation tells. -/
def Told (o : Options) (n : Nat) (op : Op) (res : Except Thrown Value)
    (s : State) : Prop :=
  Good o s.log (Entry.left n op (Ending.of res))

theorem told_leave {cs : Census} {op : Op} :
    forall cs' s' res, (pact o).Inside cs.next cs' s' ->
      Told o cs.next op res s' ->
      (pact o).Moves cs.next (cs'.without cs.next) s'
        ((server o).leave cs.next op res s') := by
  intro cs' s' res hin htold
  have hinv : Inv o cs' s' := hin.inv
  have hend := hinv.record (e := Entry.left cs.next op (Ending.of res)) rfl
    nofun htold
  exact ⟨hend.census (Nat.le_refl _), fun m _ => Keeps.record m s' rfl⟩

theorem returned_of_isOk {m : Nat} {v : Value} {res : Except Thrown Unit}
    (h : Entry.returned m res.isOk ∈ s.log) :
    Entry.returned m (decide (Ending.of (res.map fun _ => v) ≠
      Ending.thrown)) ∈ s.log := by
  cases res with
  | ok a => exact h
  | error e => exact h

theorem triple_undefined {P : State -> Prop} {p : Code Unit}
    {Q : Except Thrown Unit -> State -> Prop}
    {T : Except Thrown Value -> State -> Prop} (hp : (pact o).triple n P p Q)
    (hT : forall res s, Q res s -> T (res.map fun _ => Value.undefined) s) :
    (pact o).triple n P ((fun _ => Value.undefined) <$> p) T :=
  Pact.triple_map (Pact.triple_consequence hp (fun _ h => h) hT)

theorem Settled.told {res : Except Thrown Unit} {s : State}
    (h : Settled o res s) (n : Nat) :
    Told o n Op.shutdown (res.map fun _ => Value.undefined) s := by
  obtain ⟨m, hteardown, hreturned⟩ := h
  exact ⟨m, hteardown, returned_of_isOk hreturned⟩

theorem wp_first {C : Contract State} {ph : Foundation.Phase} {s0 : State}
    {Q : Except Thrown Unit -> Foundation.Phase -> Census -> State -> State ->
      Prop} (hpromise : s.shutdownPromise = none)
    (h : (settleShutdown o n).wp (server o) C n Q ph cs s0
      (beginShutdown n s)) :
    (shutdown o n).wp (server o) C n Q ph cs s0 s := by
  unfold shutdown
  simp only [Prog.read_bind, Prog.wp_act, id]
  rw [hpromise]
  simp only [Prog.modify_bind, Prog.wp_act]
  exact h

/-- The first call of `shutdown` makes the promise that the log then asks
for. -/
theorem wp_shutdown (hok : cs.Ok) (h : Inv o cs s) :
    (body o cs.next Op.shutdown).wp (server o) (pact o).contract cs.next
      (endPost (server o) (pact o).contract cs.next Op.shutdown)
      Foundation.Phase.first cs.enter s
      (s.record (Entry.entered cs.next Op.shutdown)) := by
  have henter : Inv o cs.enter s := h.census (Nat.le_succ _)
  have hunused : Unused cs.next
      (s.record (Entry.entered cs.next Op.shutdown)) := h.unused.record rfl
  have htold := fun res s (hsettled : Settled o res s) =>
    hsettled.told cs.next
  by_cases hpromise : s.shutdownPromise = none
  · have hbegins := beginShutdown_begins cs.next
      (s.record (Entry.entered cs.next Op.shutdown))
    have hasked : Asked o (s.record (Entry.entered cs.next Op.shutdown)) := by
      refine ⟨hpromise, ?_, ?_⟩
      · exact fun m hm => List.mem_append_left _ (h.life.resolved m hm)
      · intro m b r hm
        have hold : Entry.teardown m b r ∈ s.log := by simpa using hm
        exact (h.life.asks hpromise).torn m b r hold
    have hlife := hasked.begin hunused hbegins
    have hlog : (beginShutdown cs.next
        (s.record (Entry.entered cs.next Op.shutdown))).log =
        s.log ++ [Entry.entered cs.next Op.shutdown] := hbegins.log
    have hmoves : (pact o).Moves cs.next cs.enter s (beginShutdown cs.next
        (s.record (Entry.entered cs.next Op.shutdown))) := by
      constructor
      · apply henter.note (e := Entry.entered cs.next Op.shutdown) rfl hlog
          hbegins.teardowns ?_ hlife trivial
        intro m hm
        rw [hbegins.promise] at hm
        cases hm
        exact Nat.lt_succ_self _
      · intro m _
        apply Keeps.note (e := Entry.entered cs.next Op.shutdown) rfl hlog
        rw [hpromise]
        nofun
    have hbody : (pact o).triple cs.next
        (fun s' => s' = beginShutdown cs.next
          (s.record (Entry.entered cs.next Op.shutdown)))
        ((fun _ => Value.undefined) <$> settleShutdown o cs.next)
        (Told o cs.next Op.shutdown) := by
      apply triple_undefined (Pact.triple_consequence triple_settleShutdown ?_
        fun _ _ h => h) htold
      intro s' hs'
      rw [hs']
      exact (hunused.begins hbegins).fresh hbegins.promise
    have hrun := Pact.wp_of_triple hok hmoves hbody told_leave
    show (shutdown o cs.next >>= fun _ => Prog.ret Value.undefined).wp _ _ _ _
      _ _ _ _
    have hbind : (settleShutdown o cs.next >>=
        fun _ => Prog.ret Value.undefined).wp (server o) (pact o).contract
          cs.next _ _ _ _ _ := hrun
    rw [Prog.wp_bind] at hbind ⊢
    exact wp_first hpromise hbind
  · have hmoves : (pact o).Moves cs.next cs.enter s
        (s.record (Entry.entered cs.next Op.shutdown)) :=
      ⟨henter.record rfl (fun _ _ => hpromise) trivial,
        fun m _ => Keeps.record m s rfl⟩
    apply Pact.wp_of_triple hok hmoves _ told_leave
    apply triple_undefined (Pact.triple_consequence triple_shutdown ?_
      fun _ _ h => h) htold
    intro s' hs'
    rw [hs']
    exact hunused

theorem triple_body {op : Op} (hinv : Inv o cs s)
    (hadmits : (server o).admits s op) (hop : op ≠ Op.shutdown) :
    (pact o).triple cs.next
      (fun s' => s' = s.record (Entry.entered cs.next op))
      (body o cs.next op) (Told o cs.next op) := by
  have hunused : Unused cs.next (s.record (Entry.entered cs.next op)) :=
    hinv.unused.record rfl
  cases op with
  | start =>
      apply triple_undefined (Pact.triple_consequence triple_start ?_
        fun _ _ h => h) fun _ _ _ => trivial
      intro s' hs'
      rw [hs']
      exact hunused
  | shutdown => exact absurd rfl hop
  | isReady =>
      apply Pact.triple_map
      apply Pact.triple_consequence triple_isReady (fun _ _ => trivial)
      intro res s' h
      cases res with
      | ok ready =>
          intro heq
          cases ready with
          | true => exact h rfl
          | false => cases heq
      | error e => exact h.elim
  | rollback r =>
      apply triple_undefined (Pact.triple_consequence
        (triple_performBoundedTeardown _) ?_ fun _ _ h => h)
      · intro res s' h
        exact ⟨h.1, returned_of_isOk h.2⟩
      · intro s' hs'
        rw [hs']
        refine ⟨hunused, ⟨⟨nofun, ?_⟩, nofun⟩⟩
        intro hpromise
        exact absurd (hinv.bounded _ hpromise) (Nat.lt_irrefl _)
  | deadline k =>
      apply triple_undefined (Q := Pact.returns fun _ s' =>
        Entry.deadline k ∈ s'.log) ?_
      · intro res s' h
        cases res with
        | ok a => exact h
        | error e => exact h.elim
      intro ph cs' s0 s' hin hkeeps hs'
      have hk : Started k s.log :=
        (hinv.teardowns k).scheduled (hadmits k rfl)
      have hlog : s'.log =
          s.log ++ [Entry.entered cs.next (Op.deadline k)] := by
        rw [hs']
        rfl
      have hexpired : Expired k s'.log := by
        refine Or.inl ⟨cs.next, ?_⟩
        rw [hlog]
        exact List.mem_append_right _ (List.mem_singleton.mpr rfl)
      have hstarted : Started k s'.log := by
        rw [hlog]
        exact hk.grow _
      apply wp_reachDeadline hin.inv hstarted hexpired
      intro s'' hinv' hkeeps' _ hdeadline
      exact ⟨⟨hin.ok, hin.live, hinv'⟩,
        fun m hm => (hkeeps m hm).trans (hkeeps' m), hdeadline⟩

theorem sound (o : Options) : Contract.Sound (server o) (pact o).contract := by
  apply Pact.sound_of_wp
  intro cs s op hok hinv hadmits
  by_cases hop : op = Op.shutdown
  · rw [hop]
    exact wp_shutdown hok hinv
  · have henter : Inv o cs.enter s := hinv.census (Nat.le_succ _)
    have hmoves : (pact o).Moves cs.next cs.enter s
        (s.record (Entry.entered cs.next op)) := by
      constructor
      · apply henter.record rfl
        · intro m heq
          cases heq
          exact absurd rfl hop
        · exact trivial
      · exact fun m _ => Keeps.record m s rfl
    exact Pact.wp_of_triple hok hmoves (triple_body hinv hadmits hop) told_leave

theorem State.initial_inv : Inv o ⟨0, fun _ => False⟩ State.initial := by
  constructor
  · exact ⟨by simp [State.initial], nofun, nofun, nofun, nofun⟩
  · intro n
    exact ⟨nofun, by simp [State.initial, Teardown.fresh], nofun, nofun, nofun,
      by simp [State.initial, Teardown.fresh], rfl⟩
  · nofun
  · nofun
  · exact everyEntry_nil _

structure RunsOnce (o : Options) (cfg : Config State ports Thrown Value Op) :
    Prop where
  /-- The lifecycle is torn down at most once. -/
  once : forall before n b r after,
    cfg.shared.log = before ++ Entry.teardown n b r :: after ->
      (forall e, e ∈ before -> e.teardownOf ≠ some n) ∧
        (b = true -> forall m r', Entry.teardown m true r' ∉ before)
  /-- Every call is the next one of the schedule. -/
  ordered : forall before e n step after,
    cfg.shared.log = before ++ e :: after -> e.callOf n = some step ->
      InOrder n step before
  /-- A phase is started when those before it are over or the deadline has
  been reached. -/
  waits : forall before e n step after,
    cfg.shared.log = before ++ e :: after -> e.callOf n = some step ->
      Entry.deadline n ∈ before ∨ EarlierOver n step before
  closes : forall n b r, Entry.teardown n b r ∈ cfg.shared.log ->
    closeCalls n cfg.shared.log =
      if Entry.deadline n ∈ cfg.shared.log ∧ r.httpServer = true then 1 else 0
  /-- By the time it settles every call has been made, exactly once. -/
  complete : forall before n ok after,
    cfg.shared.log = before ++ Entry.returned n ok :: after ->
      exists b r, Entry.teardown n b r ∈ before ∧
        callsOf n before = schedule r ∧ (schedule r).Nodup ∧
        closeCalls n before =
          if Entry.deadline n ∈ before ∧ r.httpServer = true then 1 else 0
  outcome : forall before n ok after,
    cfg.shared.log = before ++ Entry.returned n ok :: after ->
      (ok = true <-> Entry.deadline n ∉ before ∧
        forall e, e ∈ before -> ¬ e.Failed n)
  settled : forall before n ok after,
    cfg.shared.log = before ++ Entry.returned n ok :: after ->
      Entry.deadline n ∈ before ∨ forall step, Over n step before
  /-- The teardown does not begin to wait after the deadline, and the deadline
  ends every wait. -/
  bounded : forall before n after,
    cfg.shared.log = before ++ Entry.waits n :: after ->
      Entry.deadline n ∉ before
  wakes : forall n steps, Entry.deadline n ∈ cfg.shared.log ->
    (server o).allowed cfg.shared n (PortCall.race steps) Racer.deadline
  /-- The deadline is reached when the scheduler calls back or throws, and
  only then. -/
  due : forall before n after,
    cfg.shared.log = before ++ Entry.deadline n :: after -> Expired n before
  fired : forall before m n ending after,
    cfg.shared.log = before ++ Entry.left m (Op.deadline n) ending :: after ->
      Entry.deadline n ∈ before
  expired : forall before n ok after,
    cfg.shared.log = before ++ Entry.returned n ok :: after -> Prompt n before
  /-- Who tears down rejects when the teardown does. -/
  rolledBack : forall before m r ending after,
    cfg.shared.log = before ++ Entry.left m (Op.rollback r) ending :: after ->
      Entry.teardown m false r ∈ before ∧
        Entry.returned m (ending ≠ Ending.thrown) ∈ before
  shutDown : forall before m ending after,
    cfg.shared.log = before ++ Entry.left m Op.shutdown ending :: after ->
      exists n, Entry.teardown n true o.resources ∈ before ∧
        Entry.returned n (ending ≠ Ending.thrown) ∈ before
  /-- The lifecycle runs between a successful `listen` and the first shutdown
  only. -/
  running : cfg.shared.life = Life.running -> Up cfg.shared.log
  ready : forall before m after, cfg.shared.log = before ++
    Entry.left m Op.isReady (Ending.value (Value.flag true)) :: after ->
      Up before

theorem EarlierOver.timer (n : Nat) (log : List Entry) :
    EarlierOver n Step.timer log :=
  nofun

theorem Good.call {before : List Entry} {e : Entry} {step : Step}
    (h : Good o before e) (hcall : e.callOf n = some step) :
    InOrder n step before ∧
      (Entry.deadline n ∈ before ∨ EarlierOver n step before) := by
  cases e with
  | ran m ran threw =>
      obtain ⟨rfl, hran⟩ := Option.ite_none_right_eq_some.mp hcall
      exact h step hran
  | begun m begun threw =>
      obtain ⟨rfl, hbegun⟩ := Option.ite_none_right_eq_some.mp hcall
      cases hbegun
      exact h
  | timer m set =>
      obtain ⟨rfl, htimer⟩ := Option.ite_none_right_eq_some.mp hcall
      cases htimer
      exact ⟨h, Or.inr (EarlierOver.timer m before)⟩
  | _ => cases hcall

/-- In every run a teardown makes each of its calls once and in order, and the
lifecycle does not come back after its shutdown. -/
theorem teardown_runs_once {o : Options}
    {cfg : Config State ports Thrown Value Op}
    (hreach : Reachable (server o) State.initial cfg) : RunsOnce o cfg := by
  have hinv : Inv o cfg.census cfg.shared :=
    Pact.reachable (K := pact o) (sound o) State.initial_inv hreach
  have hteardown := fun n => hinv.teardowns n
  have hreturned : forall before n ok after,
      cfg.shared.log = before ++ Entry.returned n ok :: after ->
        Good o before (Entry.returned n ok) :=
    fun before n ok after hlog => hinv.log _ _ _ hlog
  constructor
  · exact fun before n b r after hlog => hinv.log _ _ _ hlog
  · intro before e n step after hlog hcall
    have hgood : Good o before e := hinv.log _ _ _ hlog
    exact (hgood.call hcall).1
  · intro before e n step after hlog hcall
    have hgood : Good o before e := hinv.log _ _ _ hlog
    exact (hgood.call hcall).2
  · intro n b r hr
    rw [(hteardown n).closes, (hteardown n).resources b r hr]
    simp only [(hteardown n).reached]
  · intro before n ok after hlog
    obtain ⟨hcomplete, hcloses, _⟩ := hreturned before n ok after hlog
    obtain ⟨b, r, hr, hcalls⟩ := hcomplete
    exact ⟨b, r, hr, hcalls, schedule_nodup r, hcloses b r hr⟩
  · exact fun before n ok after hlog =>
      (hreturned before n ok after hlog).2.2.2.1
  · exact fun before n ok after hlog =>
      (hreturned before n ok after hlog).2.2.2.2
  · exact fun before n after hlog => hinv.log _ _ _ hlog
  · exact fun n steps hdeadline => (hteardown n).reached.mpr hdeadline
  · exact fun before n after hlog => hinv.log _ _ _ hlog
  · intro before m n ending after hlog
    exact hinv.log _ _ _ hlog
  · exact fun before n ok after hlog => (hreturned before n ok after hlog).2.2.1
  · intro before m r ending after hlog
    exact hinv.log _ _ _ hlog
  · intro before m ending after hlog
    exact hinv.log _ _ _ hlog
  · exact hinv.life.up
  · intro before m after hlog
    have hgood : Good o before (Entry.left m Op.isReady
      (Ending.value (Value.flag true))) := hinv.log _ _ _ hlog
    exact hgood rfl

/-!
## A run

The server starts and is shut down.  The flush of the activity does not settle,
and the deadline is reached.
-/

def sampleOptions : Options := ⟨true, 25⟩

def sampleReply (s : State) (n : Nat) : (c : PortCall) -> PortReply c
  | PortCall.run _ _ => false
  | PortCall.begin _ _ => false
  | PortCall.setTimeout _ _ => TimerSet.handle false true
  | PortCall.race _ =>
      if (s.teardowns n).deadlineReached then Racer.deadline
      else Racer.completed
  | PortCall.listen => false
  | PortCall.listenPromise k => decide (s.attempts k = Attempt.resolved)
  | PortCall.shutdownPromise k => decide (Entry.returned k true ∈ s.log)
  | PortCall.durabilityReady => some true

def sampleFair (s : State) (n : Nat) : PortCall -> Bool
  | PortCall.race _ => (s.teardowns n).deadlineReached
  | PortCall.listenPromise k => decide (s.attempts k = Attempt.resolved)
  | PortCall.shutdownPromise k => decide (Entry.returned k true ∈ s.log)
  | _ => true

def sampleNudge (s : State) : Option State :=
  if s.attempts 0 = Attempt.pending then
    some ((s.setAttempt 0 Attempt.resolved).record (Entry.listening 0))
  else none

def sampleScript : Script (server sampleOptions) where
  reply := sampleReply
  fair := sampleFair
  admits s op := match op with
    | Op.deadline k => (s.teardowns k).scheduled
    | _ => true
  nudge := sampleNudge
  fair_allowed s n c h := by
    cases c with
    | begin k step => cases step <;> trivial
    | race steps =>
        have hreached : (s.teardowns n).deadlineReached = true := h
        simp only [sampleReply, hreached, if_true]
        exact hreached
    | listenPromise k =>
        have hresolved : s.attempts k = Attempt.resolved :=
          of_decide_eq_true h
        simp [server, allowed, sampleReply, hresolved]
    | shutdownPromise k =>
        have hreturned : Entry.returned k true ∈ s.log := of_decide_eq_true h
        simp [server, allowed, sampleReply, hreturned]
    | _ => trivial
  admits_sound s op h k hk := by
    rw [hk] at h
    exact h
  nudge_env s s' h := by
    unfold sampleNudge at h
    split at h
    · cases h
      exact Env.listening 0 ‹_›
    · cases h

def sampleRun : Option (Config State ports Thrown Value Op) :=
  sampleScript.play
    [Move.enter Op.start, Move.env, Move.resume 0, Move.enter Op.isReady,
      Move.enter Op.shutdown, Move.enter (Op.deadline 2), Move.resume 0,
      Move.enter Op.isReady]
    (Config.initial State.initial)

theorem sampleRun_returned :
    sampleRun.map (fun cfg => decide
      (Entry.left 1 Op.isReady (Ending.value (Value.flag true)) ∈
          cfg.shared.log ∧
        callsOf 2 cfg.shared.log = schedule sampleOptions.resources ∧
        Entry.left 2 Op.shutdown Ending.thrown ∈ cfg.shared.log)) =
      some true := by
  decide +kernel

theorem teardown_runs_once_sample :
    exists cfg, sampleRun = some cfg ∧ RunsOnce sampleOptions cfg ∧
      Entry.left 1 Op.isReady (Ending.value (Value.flag true)) ∈
          cfg.shared.log ∧
        callsOf 2 cfg.shared.log = schedule sampleOptions.resources ∧
        Entry.left 2 Op.shutdown Ending.thrown ∈ cfg.shared.log := by
  obtain ⟨cfg, hrun, hlog⟩ := Option.map_eq_some_iff.mp sampleRun_returned
  exact ⟨cfg, hrun, teardown_runs_once (Script.play_reachable hrun),
    of_decide_eq_true hlog⟩

end ServerLifecycle
end Server
end FlanTerminal

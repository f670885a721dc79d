import FlanTerminal.Foundation.Script
import FlanTerminal.Foundation.Trace
import FlanTerminal.Foundation.Triple
import FlanTerminal.Server.StaleSessionCleaner

/-!
# One run at a time, and a timer when there is none

While a run is in flight its number stays in the field, and only the end of the
run takes it out.  The two synchronous pieces of the code that move from a
timer to a run and back are looked at as wholes: between them the cleaner has
either a timer or a run.
-/

namespace FlanTerminal
namespace Server
namespace StaleSessionCleaner

open Foundation
open SessionManager (EligibilitySnapshot)

section Statement

variable (o : Options) (clock : Reading -> Prop)

def ClockOk : Prop :=
  forall r, clock r -> r.IsTime

def Entry.run : Entry -> Option Nat
  | started n => some n
  | listed n _ => some n
  | completed n _ => some n
  | finished n => some n
  | shutdown => none
  | resolved => none

/-- The counts of a run over the first tabs of the list. -/
def Exact (tabs : Nat) (r : CleanupResult) : Prop :=
  r.examined = min tabs o.maxSessions ∧
    r.examined = r.terminated + r.skipped + r.failed

def Answers (tabs : Nat) : Except Thrown CleanupResult -> Prop
  | Except.ok r => Exact o tabs r
  | Except.error _ => ¬ ClockOk clock

def Good (before : List Entry) : Entry -> Prop
  | Entry.started _ => Entry.shutdown ∉ before ∧
      forall m, Entry.started m ∈ before -> Entry.finished m ∈ before
  | Entry.completed n res => Entry.started n ∈ before ∧
      forall tabs, Entry.listed n tabs ∈ before -> Answers o clock tabs res
  | Entry.finished n => exists res, Entry.completed n res ∈ before
  | Entry.resolved => Entry.shutdown ∈ before ∧
      forall m, Entry.started m ∈ before ->
        exists res, Entry.completed m res ∈ before
  | _ => True

structure TimersOk (t : Timers) : Prop where
  armed : t.armed = [] ∨ exists r, t.armed = [r] ∧ t.timer = some r
  handle : forall r, t.timer = some r -> t.handle r = true
  cancelling : forall r, t.timer = some r -> t.cancelling r = false

def Ready (t : Timers) : Prop :=
  exists r, t.timer = some r ∧ t.armed = [r]

structure History (cs : Census) (s : State) : Prop where
  live : forall {k}, s.inFlight = some k -> cs.live k ∧
    Entry.started k ∈ s.log ∧ Entry.finished k ∉ s.log
  flights : forall {m}, Entry.started m ∈ s.log ->
    Entry.finished m ∈ s.log ∨ s.inFlight = some m
  fresh : forall {e m}, e ∈ s.log -> e.run = some m -> m < cs.next
  down : s.shuttingDown = true <-> Entry.shutdown ∈ s.log
  promise : s.shuttingDown = true <-> s.shutdownPromise ≠ none
  target : forall {current}, s.shutdownPromise = some current ->
    forall m, Entry.started m ∈ s.log ->
      Entry.finished m ∈ s.log ∨ current = some m
  log : EveryEntry (Good o clock) s.log

structure Inv (cs : Census) (s : State) : Prop
    extends History o clock cs s where
  timers : TimersOk s.timers
  quiet : s.inFlight ≠ none -> s.timers.thrown = false ->
    s.timers.timer = none
  ready : s.inFlight = none -> s.shuttingDown = false ->
    s.timers.thrown = false -> Ready s.timers

structure Keeps (m : Nat) (s s' : State) : Prop where
  flight : s'.inFlight = some m <-> s.inFlight = some m
  own : forall e, e.run = some m -> (e ∈ s'.log <-> e ∈ s.log)
  promise : forall current, s.shutdownPromise = some current ->
    s'.shutdownPromise = some current

theorem Keeps.refl (m : Nat) (s : State) : Keeps m s s :=
  ⟨Iff.rfl, fun _ _ => Iff.rfl, fun _ h => h⟩

theorem Keeps.trans {m : Nat} {s s' s'' : State} (h : Keeps m s s')
    (h' : Keeps m s' s'') : Keeps m s s'' :=
  ⟨h'.flight.trans h.flight, fun e he => (h'.own e he).trans (h.own e he),
    fun current hc => h'.promise current (h.promise current hc)⟩

def pact : Pact (cleaner o clock) where
  inv := Inv o clock
  keeps := Keeps
  refl := Keeps.refl
  trans := Keeps.trans
  env _ h := h.elim

end Statement

variable {o : Options} {clock : Reading -> Prop} {cs : Census} {n : Nat}
variable {s s' : State}

/-!
## The log
-/

theorem History.finished_completed (h : History o clock cs s) {m : Nat}
    (hm : Entry.finished m ∈ s.log) :
    exists res, Entry.completed m res ∈ s.log := by
  obtain ⟨before, after, hlog⟩ := List.append_of_mem hm
  obtain ⟨res, hres⟩ : Good o clock before (Entry.finished m) :=
    h.log _ _ _ hlog
  exact ⟨res, by simp [hlog, hres]⟩

/-- Entries that are about the surroundings of a run leave the fields alone. -/
def Entry.Aside : Entry -> Prop
  | started _ => False
  | finished _ => False
  | shutdown => False
  | _ => True

theorem History.record (h : History o clock cs s) {e : Entry} (haside : e.Aside)
    (hrun : forall m, e.run = some m -> m < cs.next)
    (hgood : Good o clock s.log e) : History o clock cs (s.record e) := by
  have hold : forall {x : Entry}, ¬ x.Aside -> (x ∈ (s.record e).log <->
      x ∈ s.log) := by
    intro x hx
    have hne : x ≠ e := fun heq => hx (heq ▸ haside)
    simp [State.record, hne]
  constructor
  · intro k hk
    rw [hold (x := Entry.started k) id, hold (x := Entry.finished k) id]
    exact h.live hk
  · intro m hm
    rw [hold (x := Entry.started m) id] at hm
    rw [hold (x := Entry.finished m) id]
    exact h.flights hm
  · intro x m hx hm
    cases List.mem_append.mp hx with
    | inl hin => exact h.fresh hin hm
    | inr hnew =>
        rw [List.mem_singleton.mp hnew] at hm
        exact hrun m hm
  · rw [hold (x := Entry.shutdown) id]
    exact h.down
  · exact h.promise
  · intro current hc m hm
    rw [hold (x := Entry.started m) id] at hm
    rw [hold (x := Entry.finished m) id]
    exact h.target hc m hm
  · exact everyEntry_snoc.mpr ⟨h.log, hgood⟩

theorem Inv.record (h : Inv o clock cs s) {e : Entry} (haside : e.Aside)
    (hrun : forall m, e.run = some m -> m < cs.next)
    (hgood : Good o clock s.log e) : Inv o clock cs (s.record e) :=
  ⟨h.toHistory.record haside hrun hgood, h.timers, h.quiet, h.ready⟩

theorem Keeps.record {m : Nat} (s : State) {e : Entry} (he : e.run ≠ some m) :
    Keeps m s (s.record e) := by
  refine ⟨Iff.rfl, ?_, fun _ h => h⟩
  intro x hx
  have hne : x ≠ e := fun heq => he (heq ▸ hx)
  simp [State.record, hne]

/-!
## From a timer to a run and back
-/

section Timer

variable {C : Contract State} {ph : Phase} {s0 : State}
variable {Q : Except Thrown Unit -> Phase -> Census -> State -> State -> Prop}

theorem TimersOk.armed_of_none {t : Timers} (h : TimersOk t)
    (hnone : t.timer = none) : t.armed = [] := by
  cases h.armed with
  | inl hnil => exact hnil
  | inr hone =>
      obtain ⟨r, _, hr⟩ := hone
      rw [hnone] at hr
      cases hr

theorem TimersOk.erase {t : Timers} (h : TimersOk t) (r : Nat) :
    t.armed.erase r = [] ∨
      exists q, t.armed.erase r = [q] ∧ t.timer = some q := by
  cases h.armed with
  | inl hnil =>
      rw [hnil]
      exact Or.inl rfl
  | inr hone =>
      obtain ⟨q, hq, htimer⟩ := hone
      rw [hq]
      by_cases hr : q = r
      · rw [hr]
        exact Or.inl (by simp)
      · exact Or.inr ⟨q, by simp [hr], htimer⟩

theorem TimersOk.erase_timer {t : Timers} (h : TimersOk t) {r : Nat}
    (hr : t.timer = some r) : t.armed.erase r = [] := by
  cases h.armed with
  | inl hnil =>
      rw [hnil]
      rfl
  | inr hone =>
      obtain ⟨q, hq, htimer⟩ := hone
      rw [hr] at htimer
      cases htimer
      rw [hq]
      simp

/-- After `cancelTimer` a timer is left only when the scheduler has thrown. -/
theorem wp_cancelTimer (h : TimersOk s.timers)
    (hQ : forall t, TimersOk t -> (t.thrown = false -> t.timer = none) ->
      Q (Except.ok ()) ph cs s0 { s with timers := t }) :
    cancelTimer.wp (cleaner o clock) C n Q ph cs s0 s := by
  unfold cancelTimer
  simp only [Prog.read_bind, Prog.wp_act, id]
  cases hr : s.timers.timer with
  | none => exact hQ s.timers h fun _ => hr
  | some r =>
      simp only [h.handle r hr, if_true, Prog.modify_bind, Prog.wp_act]
      refine (Prog.wp_sync (M := cleaner o clock)
        (c := PortCall.clearTimeout r) (k := dropTimer r) rfl).mpr ?_
      intro cleared _
      cases cleared with
      | ok =>
          have hset : TimersOk
              { s.timers with
                timer := none
                cancelling := Function.update s.timers.cancelling r true
                armed := s.timers.armed.erase r } :=
            ⟨Or.inl (h.erase_timer hr), (fun _ h => by cases h),
              fun _ h => by cases h⟩
          simpa [dropTimer, cleaner, issue, reply, State.setTimers, hr,
            Prog.modify] using hQ _ hset fun _ => rfl
      | threw gone =>
          have hset : TimersOk
              { s.timers with
                cancelling := Function.update
                  (Function.update s.timers.cancelling r true) r false
                armed := if gone then s.timers.armed.erase r
                  else s.timers.armed
                thrown := true } := by
            refine ⟨?_, h.handle, ?_⟩
            · cases gone with
              | true => exact h.erase r
              | false => exact h.armed
            · intro q hq
              rw [hr] at hq
              cases hq
              simp
          exact hQ _ hset (fun h => by cases h)

/-- After `schedule` a timer is set, unless the scheduler has thrown. -/
theorem wp_schedule (h : TimersOk s.timers)
    (hquiet : s.timers.thrown = false -> s.timers.timer = none)
    (hQ : forall t, TimersOk t ->
      (s.shuttingDown = false -> t.thrown = false -> Ready t) ->
      Q (Except.ok ()) ph cs s0 { s with timers := t }) :
    (schedule o).wp (cleaner o clock) C n Q ph cs s0 s := by
  unfold schedule
  simp only [Prog.read_bind, Prog.wp_act, id]
  by_cases hstop : s.shuttingDown = true ∨ s.timers.timer ≠ none
  · rw [if_pos hstop]
    refine hQ s.timers h ?_
    intro hdown hthrown
    rw [hdown, hquiet hthrown] at hstop
    simp at hstop
  · rw [if_neg hstop]
    obtain ⟨_, htimer⟩ := not_or.mp hstop
    have hnone : s.timers.timer = none := not_not.mp htimer
    have harmed : s.timers.armed = [] := h.armed_of_none hnone
    simp only [Prog.modify_bind, Prog.wp_act]
    refine (Prog.wp_sync (M := cleaner o clock)
      (c := PortCall.setTimeout s.timers.next o.intervalMs)
      (k := keepHandle s.timers.next) rfl).mpr ?_
    intro set _
    cases set with
    | true =>
        have hset : TimersOk
            { s.timers with
              timer := some s.timers.next
              handle := Function.update
                (Function.update s.timers.handle s.timers.next false)
                s.timers.next true
              cancelling := Function.update s.timers.cancelling s.timers.next
                false
              next := s.timers.next + 1
              armed := s.timers.next :: s.timers.armed } := by
          constructor
          · right
            exact ⟨s.timers.next, congrArg (List.cons s.timers.next) harmed,
              rfl⟩
          · intro r hr
            cases hr
            simp
          · intro r hr
            cases hr
            simp
        refine hQ _ hset ?_
        exact fun _ _ => ⟨s.timers.next, rfl,
          congrArg (List.cons s.timers.next) harmed⟩
    | false =>
        have hset : TimersOk
            { s.timers with
              timer := none
              handle := Function.update s.timers.handle s.timers.next false
              cancelling := Function.update s.timers.cancelling s.timers.next
                false
              next := s.timers.next + 1
              thrown := true } :=
          ⟨Or.inl harmed, (fun _ h => by cases h), (fun _ h => by cases h)⟩
        simpa [keepHandle, cleaner, issue, reply, State.setTimers,
          Prog.modify] using hQ _ hset (fun _ h => by cases h)

end Timer

/-!
## A run
-/

/-- Operation `n` is in flight, and has obtained no other list than this. -/
structure Running (n : Nat) (tabs : Option Nat) (s : State) : Prop where
  flight : s.inFlight = some n
  uncompleted : forall res, Entry.completed n res ∉ s.log
  listed : forall count, Entry.listed n count ∈ s.log -> tabs = some count

theorem Running.keeps {tabs : Option Nat} (h : Running n tabs s)
    (hkeeps : Keeps n s s') : Running n tabs s' where
  flight := hkeeps.flight.mpr h.flight
  uncompleted res hres := h.uncompleted res ((hkeeps.own _ rfl).mp hres)
  listed count hcount := h.listed count ((hkeeps.own _ rfl).mp hcount)

theorem triple_wait {P : State -> Prop} {c : PortCall}
    (hc : boundary c = Boundary.await) (hissue : forall s, issue n c s = s)
    (hreply : forall r s, reply n c r s = s)
    (hkeep : forall s s', P s -> Keeps n s s' -> P s') :
    (pact o clock).triple n P (Prog.ask (I := ports) c)
      (Pact.returns fun r s => P s ∧ allowed clock s n c r) := by
  have hissued : forall s, (cleaner o clock).issue n c s = s := hissue
  apply Pact.triple_await hc
  · intro cs s hin _
    rw [hissued]
    exact Pact.Moves.refl hin.inv
  · intro cs s s' r hin hP hkeeps hr
    rw [hissued] at hkeeps
    have hsame : (cleaner o clock).reply n c r s' = s' := hreply r s'
    rw [hsame]
    exact ⟨Pact.Moves.refl hin.inv, hkeep s s' hP hkeeps, hr⟩

theorem triple_validNow {P : State -> Prop} :
    (pact o clock).triple n P validNow fun res s => P s ∧
      match res with
      | Except.ok ms => ClockOk clock -> -maxTime ≤ ms ∧ ms ≤ maxTime
      | Except.error _ => ¬ ClockOk clock := by
  apply Pact.triple_bind (R := Pact.returns fun r s => P s ∧ clock r)
  · apply Pact.triple_sync rfl
    exact fun cs s r hin hP hr => ⟨Pact.Moves.refl hin.inv, hP, hr⟩
  · intro r
    cases r with
    | threw => exact Pact.triple_raise fun s hs => ⟨hs.1, fun h => h _ hs.2⟩
    | number ms =>
        cases ms with
        | none =>
            exact Pact.triple_ret fun s hs => ⟨hs.1, fun _ => by decide⟩
        | some ms =>
            apply Pact.triple_ret
            intro s hs
            refine ⟨hs.1, fun h => ?_⟩
            split
            · rename_i hsafe
              exact h _ hs.2 hsafe
            · decide
  · exact fun e s h => h.elim

theorem triple_toISOString {P : State -> Prop} (ms : Int) :
    (pact o clock).triple n
      (fun s => P s ∧ (ClockOk clock -> -maxTime ≤ ms ∧ ms ≤ maxTime))
      (toISOString ms) fun res s => P s ∧
        match res with
        | Except.ok _ => True
        | Except.error _ => ¬ ClockOk clock := by
  unfold toISOString
  by_cases hms : -maxTime ≤ ms ∧ ms ≤ maxTime
  · rw [if_pos hms]
    exact Pact.triple_ret fun s hs => ⟨hs.1, trivial⟩
  · rw [if_neg hms]
    exact Pact.triple_raise fun s hs => ⟨hs.1, fun h => hms (hs.2 h)⟩

def Reports (clock : Reading -> Prop) (counts : Counts) :
    Except Thrown CleanupResult -> Prop
  | Except.ok r => r.examined = counts.examined ∧
      r.terminated = counts.terminated ∧ r.skipped = counts.skipped ∧
      r.failed = counts.failed
  | Except.error _ => ¬ ClockOk clock

theorem triple_result {P : State -> Prop} (disabled : Bool) (counts : Counts)
    (startedAt : Int) :
    (pact o clock).triple n P (result disabled counts startedAt)
      fun res s => P s ∧ Reports clock counts res := by
  apply Pact.triple_bind triple_validNow
  · intro ms
    apply Pact.triple_bind (triple_toISOString ms)
    · exact fun _ => Pact.triple_ret fun s hs => ⟨hs.1, rfl, rfl, rfl, rfl⟩
    · exact fun e s hs => hs
  · exact fun e s hs => hs

section Loop

variable {tabs : Option Nat}

theorem triple_verdict (outcome : Option (Option JsString)) :
    (pact o clock).triple n (Running n tabs) (verdictOf outcome)
      fun _ s => Running n tabs s := by
  cases outcome with
  | none => exact Pact.triple_raise fun s hs => hs
  | some text =>
      cases text with
      | none => exact Pact.triple_raise fun s hs => hs
      | some text =>
          simp only [verdictOf]
          split
          · exact Pact.triple_ret fun s hs => hs
          · split
            · exact Pact.triple_ret fun s hs => hs
            · exact Pact.triple_ret fun s hs => hs

theorem triple_examineTab (thresholdMs cutoffMs : Int) (id : JsString) :
    (pact o clock).triple n (Running n tabs)
      (examineTab thresholdMs cutoffMs id) fun _ s => Running n tabs s := by
  apply Pact.triple_bind (triple_wait rfl (fun _ => rfl) (fun _ _ => rfl)
    fun s s' hs hkeeps => hs.keeps hkeeps)
  · intro snapshot
    cases snapshot with
    | none => exact Pact.triple_raise fun s hs => hs.1
    | some snapshot =>
        simp only [terminateEligible]
        split
        · apply Pact.triple_consequence _ (fun s hs => hs.1) fun _ s hs => hs
          apply Pact.triple_bind (triple_wait rfl (fun _ => rfl) (fun _ _ => rfl)
            fun s s' hs hkeeps => hs.keeps hkeeps)
          · exact fun outcome => Pact.triple_consequence
              (triple_verdict outcome) (fun s hs => hs.1) fun _ s hs => hs
          · exact fun e s h => h.elim
        · exact Pact.triple_ret fun s hs => hs.1
  · exact fun e s h => h.elim

def Counts.Sum (counts : Counts) : Prop :=
  counts.examined = counts.terminated + counts.skipped + counts.failed

theorem Counts.sum_add {counts : Counts} (h : counts.Sum) (verdict : Verdict) :
    ({ counts with examined := counts.examined + 1 }.add verdict).Sum := by
  unfold Counts.Sum at *
  cases verdict <;> simp only [Counts.add] <;> omega

theorem Counts.examined_add (counts : Counts) (verdict : Verdict) :
    (counts.add verdict).examined = counts.examined := by
  cases verdict <;> rfl

theorem triple_examine (thresholdMs cutoffMs : Int) (ids : List JsString)
    {counts : Counts} (h : counts.Sum) :
    (pact o clock).triple n (Running n tabs)
      (examine thresholdMs cutoffMs ids counts)
      (Pact.returns fun counts' s => Running n tabs s ∧ counts'.Sum ∧
        counts'.examined = counts.examined + ids.length) := by
  induction ids generalizing counts with
  | nil => exact Pact.triple_ret fun s hs => ⟨hs, h, rfl⟩
  | cons id rest ih =>
      apply Pact.triple_bind (R := Pact.returns fun _ => Running n tabs)
      · apply Pact.triple_tryCatch (triple_examineTab thresholdMs cutoffMs id)
        · exact fun verdict s hs => hs
        · exact fun e => Pact.triple_ret fun s hs => hs
      · intro verdict
        apply Pact.triple_consequence (ih (Counts.sum_add h verdict)) fun s hs => hs
        intro res s hs
        cases res with
        | error e => exact hs.elim
        | ok counts' =>
            obtain ⟨hrunning, hsum, hexamined⟩ := hs
            refine ⟨hrunning, hsum, ?_⟩
            rw [hexamined, Counts.examined_add, List.length_cons,
              Nat.add_comm rest.length, Nat.add_assoc]
      · exact fun e s hs => hs.elim

end Loop

structure Ran (o : Options) (clock : Reading -> Prop) (n : Nat)
    (res : Except Thrown CleanupResult) (s : State) : Prop where
  flight : s.inFlight = some n
  uncompleted : forall res, Entry.completed n res ∉ s.log
  answers : forall tabs, Entry.listed n tabs ∈ s.log ->
    Answers o clock tabs res

theorem Running.ran {res : Except Thrown CleanupResult}
    (h : Running n none s) : Ran o clock n res s :=
  ⟨h.flight, h.uncompleted, fun tabs hn => nomatch h.listed tabs hn⟩

theorem triple_unlisted (disabled : Bool) (counts : Counts)
    (startedAt : Int) :
    (pact o clock).triple n (Running n none)
      (result disabled counts startedAt) (Ran o clock n) :=
  Pact.triple_consequence (triple_result disabled counts startedAt)
    (fun _ hs => hs) fun _ _ hs => hs.1.ran

theorem Running.listing (h : Running n none s) (count : Nat) :
    Running n (some count) (s.record (Entry.listed n count)) where
  flight := h.flight
  uncompleted res hres := by
    rcases List.mem_append.mp hres with hold | hnew
    · exact h.uncompleted res hold
    · cases List.mem_singleton.mp hnew
  listed count' hcount := by
    rcases List.mem_append.mp hcount with hold | hnew
    · cases h.listed count' hold
    · cases List.mem_singleton.mp hnew
      rfl

theorem triple_executeOver (thresholdMs cutoffMs startedAt : Int)
    (tabs : Option (List JsString)) :
    (pact o clock).triple n (Running n (tabs.map List.length))
      (executeOver o thresholdMs cutoffMs startedAt tabs) (Ran o clock n) := by
  cases tabs with
  | none =>
      apply Pact.triple_bind (R := Pact.returns fun _ => Running n none)
      · apply Pact.triple_modify
        · intro cs s hin _
          have hinv : Inv o clock cs s := hin.inv
          refine ⟨?_, fun m _ => ⟨Iff.rfl, fun _ _ => Iff.rfl, fun _ h => h⟩⟩
          exact ⟨⟨hinv.live, hinv.flights, hinv.fresh, hinv.down,
            hinv.promise, hinv.target, hinv.log⟩, hinv.timers, hinv.quiet,
            hinv.ready⟩
        · exact fun s hs => ⟨hs.flight, hs.uncompleted, hs.listed⟩
      · exact fun _ => triple_unlisted false ⟨0, 0, 0, 1⟩ startedAt
      · exact fun e s hs => hs.elim
  | some ids =>
      have hsum : Counts.Sum ⟨0, 0, 0, 0⟩ := rfl
      apply Pact.triple_bind
        (triple_examine thresholdMs cutoffMs (ids.take o.maxSessions) hsum)
      · intro counts
        apply Pact.triple_consequence
          (triple_result false counts startedAt) fun s hs => hs
        intro res s hs
        obtain ⟨⟨hrunning, hsum, hexamined⟩, hreports⟩ := hs
        refine ⟨hrunning.flight, hrunning.uncompleted, ?_⟩
        intro count hcount
        cases hrunning.listed count hcount
        cases res with
        | error e => exact hreports
        | ok r =>
            obtain ⟨hex, hterminated, hskipped, hfailed⟩ := hreports
            constructor
            · rw [hex, hexamined, List.length_take, Nat.zero_add,
                Nat.min_comm]
            · rw [hex, hterminated, hskipped, hfailed]
              exact hsum
      · exact fun e s hs => hs.elim

theorem triple_execute (threshold : CleanupThreshold) :
    (pact o clock).triple n (Running n none) (execute o threshold)
      (Ran o clock n) := by
  apply Pact.triple_bind triple_validNow
  · intro startedMs
    apply Pact.triple_bind (triple_toISOString startedMs)
    · intro startedAt
      apply Pact.triple_consequence _ (fun s hs => hs.1) fun _ s hs => hs
      cases threshold with
      | unavailable => exact triple_unlisted false ⟨0, 0, 0, 1⟩ startedAt
      | available hours =>
          show Pact.triple _ n _ (if _ then _ else _) _
          split
          · exact triple_unlisted true ⟨0, 0, 0, 0⟩ startedAt
          · apply Pact.triple_bind (R := Pact.returns fun tabs =>
              Running n (tabs.map List.length))
            · apply Pact.triple_sync rfl
              intro cs s tabs hin hs _
              have hinv : Inv o clock cs s := hin.inv
              cases tabs with
              | none => exact ⟨Pact.Moves.refl hin.inv, hs⟩
              | some ids =>
                  refine ⟨⟨?_, ?_⟩, hs.listing ids.length⟩
                  · apply hinv.record (e := Entry.listed n ids.length)
                      trivial _ trivial
                    intro m hm
                    cases hm
                    exact hin.ok n hin.live
                  · intro m hne
                    apply Keeps.record
                    intro heq
                    exact hne (Option.some.inj heq).symm
            · exact fun tabs => triple_executeOver _ _ _ tabs
            · exact fun e s hs => hs.elim
    · exact fun e s hs => hs.1.ran
  · exact fun e s hs => hs.1.ran

/-!
## The end of a run
-/

@[simp] theorem settle_inFlight (s : State)
    (res : Except Thrown CleanupResult) : (s.settle res).inFlight = none := by
  cases res <;> rfl

@[simp] theorem settle_log (s : State) (res : Except Thrown CleanupResult) :
    (s.settle res).log = s.log := by
  cases res <;> rfl

@[simp] theorem settle_timers (s : State) (res : Except Thrown CleanupResult) :
    (s.settle res).timers = s.timers := by
  cases res <;> rfl

@[simp] theorem settle_shuttingDown (s : State)
    (res : Except Thrown CleanupResult) :
    (s.settle res).shuttingDown = s.shuttingDown := by
  cases res <;> rfl

@[simp] theorem settle_shutdownPromise (s : State)
    (res : Except Thrown CleanupResult) :
    (s.settle res).shutdownPromise = s.shutdownPromise := by
  cases res <;> rfl

theorem settle_record (s : State) (e : Entry)
    (res : Except Thrown CleanupResult) :
    (s.record e).settle res = (s.settle res).record e := by
  cases res <;> rfl

/-- The run is completed, and its reaction is still to come. -/
structure Completed (n : Nat) (s : State) : Prop where
  flight : s.inFlight = some n
  completed : exists res, Entry.completed n res ∈ s.log

theorem Completed.keeps (h : Completed n s) (hkeeps : Keeps n s s') :
    Completed n s' := by
  obtain ⟨res, hres⟩ := h.completed
  exact ⟨hkeeps.flight.mpr h.flight, res, (hkeeps.own _ rfl).mpr hres⟩

theorem History.finish (h : History o clock cs s) (hn : Completed n s)
    (hok : cs.Ok) (res : Except Thrown CleanupResult) :
    History o clock cs ((s.settle res).record (Entry.finished n)) := by
  obtain ⟨hlive, hstarted, _⟩ := h.live hn.flight
  have hmem : forall {e : Entry}, e ≠ Entry.finished n ->
      (e ∈ ((s.settle res).record (Entry.finished n)).log <-> e ∈ s.log) := by
    intro e he
    simp [State.record, he]
  have hstart : forall {m : Nat},
      Entry.started m ∈ ((s.settle res).record (Entry.finished n)).log <->
        Entry.started m ∈ s.log :=
    fun {m} => hmem (e := Entry.started m) nofun
  have hfinished : forall m, Entry.finished m ∈ s.log ∨ m = n ->
      Entry.finished m ∈ ((s.settle res).record (Entry.finished n)).log := by
    intro m hm
    simp [State.record, hm]
  constructor
  · intro k hk
    simp [State.record] at hk
  · intro m hm
    left
    apply hfinished
    cases h.flights (hstart.mp hm) with
    | inl hold => exact Or.inl hold
    | inr hflight =>
        rw [hn.flight] at hflight
        exact Or.inr (Option.some.inj hflight).symm
  · intro e m he hm
    by_cases heq : e = Entry.finished n
    · rw [heq] at hm
      cases hm
      exact hok n hlive
    · exact h.fresh ((hmem heq).mp he) hm
  · simpa [State.record] using h.down
  · simpa [State.record] using h.promise
  · intro current hc m hm
    have hpromise : s.shutdownPromise = some current := by
      simpa [State.record] using hc
    cases h.target hpromise m (hstart.mp hm) with
    | inl hold => exact Or.inl (hfinished m (Or.inl hold))
    | inr htarget => exact Or.inr htarget
  · have hlog : EveryEntry (Good o clock) (s.log ++ [Entry.finished n]) :=
      everyEntry_snoc.mpr ⟨h.log, hn.completed⟩
    simpa [State.record] using hlog

theorem Keeps.finish {m : Nat} (hflight : s.inFlight = some n) (hne : m ≠ n)
    (res : Except Thrown CleanupResult) (t : Timers) :
    Keeps m s
      { (s.settle res).record (Entry.finished n) with timers := t } := by
  constructor
  · have hn : n ≠ m := fun h => hne h.symm
    simp [State.record, hflight, hn]
  · intro e he
    have hentry : e ≠ Entry.finished n := by
      intro h
      rw [h] at he
      cases he
      exact hne rfl
    simp [State.record, hentry]
  · intro current hc
    simpa [State.record] using hc

theorem wp_finishRun {ph : Phase} {s0 : State}
    (res : Except Thrown CleanupResult) (hin : (pact o clock).Inside n cs s)
    (hkeeps : forall m, m ≠ n -> Keeps m s0 s) (hP : Completed n s) :
    (finishRun o n res).wp (cleaner o clock) (pact o clock).contract n
      (fun res' _ cs s0 s => (pact o clock).Inside n cs s ∧
        (forall m, m ≠ n -> Keeps m s0 s) ∧
          Pact.returns (fun _ s => s.inFlight ≠ some n) res' s)
      ph cs s0 (s.record (Entry.finished n)) := by
  have hinv : Inv o clock cs s := hin.inv
  have hquiet : s.timers.thrown = false -> s.timers.timer = none :=
    hinv.quiet (by simp [hP.flight])
  have hhistory := hinv.toHistory.finish hP hin.ok res
  have hflight : (s.record (Entry.finished n)).inFlight = some n := hP.flight
  unfold finishRun
  simp only [Prog.read_bind, Prog.wp_act, id, hflight, if_true,
    Prog.modify_bind, settle_record]
  apply wp_schedule
  · simpa [State.record] using hinv.timers
  · simpa [State.record] using hquiet
  · intro t ht hready
    refine ⟨⟨hin.ok, hin.live, ?_⟩, ?_, ?_⟩
    · refine ⟨⟨hhistory.live, hhistory.flights, hhistory.fresh, hhistory.down,
        hhistory.promise, hhistory.target, hhistory.log⟩, ht, ?_, ?_⟩
      · intro hne
        exact absurd (by simp [State.record]) hne
      · exact fun _ hdown hthrown => hready hdown hthrown
    · exact fun m hne => (hkeeps m hne).trans
        (Keeps.finish hP.flight hne res t)
    · simp [Pact.returns, State.record]

theorem triple_finishRun (res : Except Thrown CleanupResult) :
    (pact o clock).triple n (Ran o clock n res)
      (Prog.ask (I := ports) (PortCall.settledRun res) >>=
        fun _ => finishRun o n res)
      (Pact.returns fun _ s => s.inFlight ≠ some n) := by
  intro ph cs s0 s hin hkeeps hs
  have hinv : Inv o clock cs s := hin.inv
  have hgood : Good o clock s.log (Entry.completed n res) :=
    ⟨(hinv.live hs.flight).2.1, hs.answers⟩
  have hcompleted : Completed n (s.record (Entry.completed n res)) :=
    ⟨hs.flight, res, by simp [State.record]⟩
  apply (Prog.wp_await (M := cleaner o clock) rfl).mpr
  refine ⟨?_, ?_, ?_⟩
  · apply hinv.record (e := Entry.completed n res) trivial _ hgood
    intro m hm
    cases hm
    exact hin.ok n hin.live
  · intro m hne
    apply (hkeeps m hne).trans
    apply Keeps.record
    intro heq
    exact hne (Option.some.inj heq).symm
  · intro cs' s' r hok hlive hinv' hrely _
    exact wp_finishRun res ⟨hok, hlive, hinv'⟩ (fun m _ => Keeps.refl m s')
      (hcompleted.keeps hrely)

theorem triple_ofPromise {P : State -> Prop}
    (res : Except Thrown CleanupResult) :
    (pact o clock).triple n P (ofPromise res) fun _ s => P s := by
  cases res with
  | ok r => exact Pact.triple_ret fun s hs => hs
  | error e => exact Pact.triple_raise fun s hs => hs

/-- A run keeps its place until its reaction has run. -/
theorem triple_runToEnd (threshold : CleanupThreshold) :
    (pact o clock).triple n (Running n none) (runToEnd o n threshold)
      fun _ s => s.inFlight ≠ some n := by
  apply Pact.triple_bind (R := Pact.returns fun res => Ran o clock n res)
  · apply Pact.triple_tryCatch (R := fun res s =>
      Ran o clock n (res.bind id) s)
    · apply Pact.triple_map
      apply Pact.triple_consequence (triple_execute threshold) fun s hs => hs
      intro res s hs
      cases res with
      | ok r => exact hs
      | error e => exact hs
    · exact fun res s hs => hs
    · exact fun e => Pact.triple_ret fun s hs => hs
  · intro res
    apply Pact.triple_bind (triple_finishRun res)
    · exact fun _ => triple_ofPromise res
    · exact fun e s hs => hs.elim
  · exact fun e s hs => hs.elim

/-!
## The start of a run
-/

theorem triple_awaitRun (k : Nat) :
    (pact o clock).triple n (fun s => s.inFlight ≠ some n) (awaitRun k)
      fun _ s => s.inFlight ≠ some n := by
  apply Pact.triple_bind (triple_wait rfl (fun _ => rfl) (fun _ _ => rfl)
    fun s s' hs hkeeps => fun h => hs (hkeeps.flight.mp h))
  · exact fun res => Pact.triple_consequence (triple_ofPromise res)
      (fun s hs => hs.1) fun _ s hs => hs
  · exact fun e s hs => hs.elim

structure New (o : Options) (clock : Reading -> Prop) (n : Nat) (cs : Census)
    (s : State) : Prop where
  ok : cs.Ok
  live : cs.live n
  history : History o clock cs s
  timers : TimersOk s.timers
  quiet : s.inFlight ≠ none -> s.timers.thrown = false ->
    s.timers.timer = none
  flight : s.inFlight ≠ some n
  log : forall e, e ∈ s.log -> e.run ≠ some n

theorem New.inv (h : New o clock n cs s)
    (hready : s.inFlight = none -> s.shuttingDown = false ->
      s.timers.thrown = false -> Ready s.timers) : Inv o clock cs s :=
  ⟨h.history, h.timers, h.quiet, hready⟩

theorem New.begin (h : New o clock n cs s) (hnone : s.inFlight = none)
    (hdown : s.shuttingDown = false) (threshold : CleanupThreshold) {t : Timers}
    (ht : TimersOk t) (hquiet : t.thrown = false -> t.timer = none) :
    Inv o clock cs (begin n threshold { s with timers := t }) := by
  have hhistory := h.history
  have hshutdown : Entry.shutdown ∉ s.log := by
    intro hmem
    rw [hhistory.down.mpr hmem] at hdown
    cases hdown
  have hover : forall m, Entry.started m ∈ s.log -> Entry.finished m ∈ s.log := by
    intro m hm
    cases hhistory.flights hm with
    | inl hold => exact hold
    | inr hflight =>
        rw [hnone] at hflight
        cases hflight
  have hpromise : s.shutdownPromise = none := by
    by_contra hne
    rw [hhistory.promise.mpr hne] at hdown
    cases hdown
  refine ⟨?_, ht, fun _ => hquiet, nofun⟩
  constructor
  · intro k hk
    cases hk
    refine ⟨h.live, by simp [StaleSessionCleaner.begin], ?_⟩
    intro hmem
    apply h.log (Entry.finished n) _ rfl
    simpa [StaleSessionCleaner.begin] using hmem
  · intro m hm
    have hcases : Entry.started m ∈ s.log ∨ m = n := by
      simpa [StaleSessionCleaner.begin] using hm
    cases hcases with
    | inl hold =>
        exact Or.inl (by simp [StaleSessionCleaner.begin, hover m hold])
    | inr hnew => exact Or.inr (congrArg some hnew.symm)
  · intro e m he hm
    have hcases : e ∈ s.log ∨ e = Entry.started n := by
      simpa [StaleSessionCleaner.begin] using he
    cases hcases with
    | inl hold => exact hhistory.fresh hold hm
    | inr hnew =>
        rw [hnew] at hm
        cases hm
        exact h.ok n h.live
  · simpa [StaleSessionCleaner.begin] using hhistory.down
  · exact hhistory.promise
  · intro current hc
    rw [show s.shutdownPromise = some current from hc] at hpromise
    cases hpromise
  · exact everyEntry_snoc.mpr ⟨hhistory.log, hshutdown, hover⟩

theorem Keeps.begin {m : Nat} (hnone : s.inFlight = none) (hne : m ≠ n)
    (threshold : CleanupThreshold) (t : Timers) :
    Keeps m s (begin n threshold { s with timers := t }) := by
  have hn : n ≠ m := fun h => hne h.symm
  refine ⟨by simp [StaleSessionCleaner.begin, hnone, hn], ?_, fun _ h => h⟩
  intro e he
  have hentry : e ≠ Entry.started n := by
    intro h
    rw [h] at he
    cases he
    exact hne rfl
  simp [StaleSessionCleaner.begin, hentry]

def Left (o : Options) (clock : Reading -> Prop) (n : Nat)
    (_ : Except Thrown Value) (_ : Phase) (cs : Census) (s0 s : State) : Prop :=
  (pact o clock).Inside n cs s ∧
    (forall m, m ≠ n -> (pact o clock).keeps m s0 s) ∧ s.inFlight ≠ some n

theorem wp_startRun {ph : Phase} {s0 : State} (h : New o clock n cs s)
    (hdown : s.shuttingDown = false)
    (hkeeps : forall m, m ≠ n -> Keeps m s0 s)
    (threshold : CleanupThreshold) :
    (startRun o n threshold).wp (cleaner o clock) (pact o clock).contract n
      (Left o clock n) ph cs s0 s := by
  unfold startRun
  simp only [Prog.read_bind, Prog.wp_act, id]
  cases hflight : s.inFlight with
  | some k =>
      have hinv : Inv o clock cs s :=
        h.inv fun hnone => by cases hflight.symm.trans hnone
      exact triple_awaitRun k ph cs s0 s ⟨h.ok, h.live, hinv⟩ hkeeps h.flight
  | none =>
      show Prog.wp _ _ _ _ (cancelTimer >>= _) _ _ _ _
      rw [Prog.wp_bind]
      apply wp_cancelTimer h.timers
      intro t ht hquiet
      have hinv := h.begin hflight hdown threshold ht hquiet
      apply triple_runToEnd threshold ph cs s0
        (begin n threshold { s with timers := t }) ⟨h.ok, h.live, hinv⟩
      · exact fun m hne => (hkeeps m hne).trans
          (Keeps.begin hflight hne threshold t)
      · constructor
        · rfl
        · intro res hres
          have hold : Entry.completed n res ∈ s.log := by
            simpa [begin] using hres
          exact h.log _ hold rfl
        · intro count hcount
          have hold : Entry.listed n count ∈ s.log := by
            simpa [begin] using hcount
          exact (h.log _ hold rfl).elim

theorem wp_thresholdSnapshot {C : Contract State} {ph : Phase} {s0 : State}
    {Q : Except Thrown CleanupThreshold -> Phase -> Census -> State -> State ->
      Prop}
    (hQ : forall threshold, Q (Except.ok threshold) ph cs s0 s) :
    thresholdSnapshot.wp (cleaner o clock) C n Q ph cs s0 s := by
  refine (Prog.wp_sync (M := cleaner o clock) (c := PortCall.settings)
    (k := fun value => Prog.ret (thresholdOf value)) rfl).mpr ?_
  exact fun value _ => hQ (thresholdOf value)

/-!
## Operations
-/

section Operations

variable {ph : Phase} {s0 : State}

theorem Inv.new (h : Inv o clock cs s) (hok : cs.Ok) {t : Timers}
    (ht : TimersOk t) (hsame : t.timer = s.timers.timer)
    (hthrown : t.thrown = s.timers.thrown) :
    New o clock cs.next cs.enter { s with timers := t } where
  ok := Pact.enter_ok hok
  live := Or.inl rfl
  history :=
    ⟨fun hk => ⟨Or.inr (h.live hk).1, (h.live hk).2⟩, h.flights,
      fun he hm => Nat.lt_succ_of_lt (h.fresh he hm), h.down, h.promise,
      h.target, h.log⟩
  timers := ht
  quiet := by
    rw [hsame, hthrown]
    exact h.quiet
  flight hflight := Nat.lt_irrefl _ (hok _ (h.live hflight).1)
  log e he hrun := Nat.lt_irrefl _ (h.fresh he hrun)

theorem wp_done (h : New o clock n cs s) (hinv : Inv o clock cs s)
    (hkeeps : forall m, m ≠ n -> Keeps m s0 s) (res : Except Thrown Value) :
    Left o clock n res ph cs s0 s :=
  ⟨⟨h.ok, h.live, hinv⟩, hkeeps, h.flight⟩

theorem wp_runNow (h : New o clock n cs s) (hinv : Inv o clock cs s)
    (hkeeps : forall m, m ≠ n -> Keeps m s0 s) :
    (runNow o n).wp (cleaner o clock) (pact o clock).contract n
      (Left o clock n) ph cs s0 s := by
  unfold runNow
  simp only [Prog.read_bind, Prog.wp_act, id]
  by_cases hdown : s.shuttingDown = true
  · rw [if_pos hdown]
    exact wp_done h hinv hkeeps _
  · rw [if_neg hdown]
    cases hflight : s.inFlight with
    | some k =>
        dsimp only
        split
        · exact wp_done h hinv hkeeps _
        · exact triple_awaitRun k ph cs s0 s ⟨h.ok, h.live, hinv⟩ hkeeps
            h.flight
    | none =>
        show Prog.wp _ _ _ _ (thresholdSnapshot >>= _) _ _ _ _
        rw [Prog.wp_bind]
        apply wp_thresholdSnapshot
        intro threshold
        show Prog.wp _ _ _ _ (if _ then _ else _) _ _ _ _
        split
        · exact wp_done h hinv hkeeps _
        · exact wp_startRun h (Bool.eq_false_iff.mpr hdown) hkeeps threshold

theorem wp_waitForIdle (h : New o clock n cs s) (hinv : Inv o clock cs s)
    (hkeeps : forall m, m ≠ n -> Keeps m s0 s) :
    waitForIdle.wp (cleaner o clock) (pact o clock).contract n
      (Left o clock n) ph cs s0 s := by
  unfold waitForIdle
  simp only [Prog.read_bind, Prog.wp_act, id]
  split
  · exact triple_awaitRun _ ph cs s0 s ⟨h.ok, h.live, hinv⟩ hkeeps h.flight
  · exact wp_done h hinv hkeeps _
  · exact wp_done h hinv hkeeps _

theorem wp_status (h : New o clock n cs s) (hinv : Inv o clock cs s)
    (hkeeps : forall m, m ≠ n -> Keeps m s0 s) :
    status.wp (cleaner o clock) (pact o clock).contract n
      (Left o clock n) ph cs s0 s := by
  unfold status
  rw [Prog.wp_bind]
  apply wp_thresholdSnapshot
  intro threshold
  show Left o clock n (Except.ok (Value.status (statusOf s threshold))) ph cs
    s0 s
  exact wp_done h hinv hkeeps _

theorem wp_fireTimer (h : New o clock n cs s) (r : Nat)
    (hinv : s.timers.timer ≠ some r -> Inv o clock cs s)
    (harmed : s.timers.timer = some r -> s.timers.armed = [])
    (hkeeps : forall m, m ≠ n -> Keeps m s0 s) :
    (fireTimer o n r).wp (cleaner o clock) (pact o clock).contract n
      (Left o clock n) ph cs s0 s := by
  unfold fireTimer
  simp only [Prog.read_bind, Prog.wp_act, id]
  by_cases hr : s.timers.timer = some r
  · rw [if_pos hr]
    simp only [Prog.modify_bind, Prog.wp_act]
    have hset : TimersOk { s.timers with timer := none } :=
      ⟨Or.inl (harmed hr), (fun _ h => by cases h), (fun _ h => by cases h)⟩
    have hnew : New o clock n cs (s.setTimers fun t =>
        { t with timer := none }) :=
      ⟨h.ok, h.live,
        ⟨h.history.live, h.history.flights, h.history.fresh, h.history.down,
          h.history.promise, h.history.target, h.history.log⟩,
        hset, fun _ _ => rfl, h.flight, h.log⟩
    have hkeeps' : forall m, m ≠ n -> Keeps m s0 (s.setTimers fun t =>
        { t with timer := none }) :=
      fun m hne => ⟨(hkeeps m hne).flight, (hkeeps m hne).own,
        (hkeeps m hne).promise⟩
    by_cases hstop : s.timers.cancelling r = true ∨ s.shuttingDown = true
    · rw [if_pos hstop]
      have hdown : s.shuttingDown = true := by
        cases hstop with
        | inl hcancelling =>
            rw [h.timers.cancelling r hr] at hcancelling
            cases hcancelling
        | inr hdown => exact hdown
      apply wp_done hnew _ hkeeps'
      apply hnew.inv
      intro _ hrunning
      rw [show s.shuttingDown = false from hrunning] at hdown
      cases hdown
    · rw [if_neg hstop]
      show Prog.wp _ _ _ _ (thresholdSnapshot >>= _) _ _ _ _
      rw [Prog.wp_bind]
      apply wp_thresholdSnapshot
      intro threshold
      have hdown : s.shuttingDown = false :=
        Bool.eq_false_iff.mpr (not_or.mp hstop).2
      exact wp_startRun hnew hdown hkeeps' threshold
  · rw [if_neg hr]
    exact wp_done h (hinv hr) hkeeps _

/-- The promise of the shutdown is fulfilled when the run that was in flight is
completed. -/
theorem triple_awaitShutdown (current : Option Nat) :
    (pact o clock).triple n
      (fun s => s.inFlight ≠ some n ∧ s.shutdownPromise = some current)
      (awaitShutdown current) fun _ s => s.inFlight ≠ some n ∧
        Good o clock s.log Entry.resolved := by
  apply Pact.triple_bind (R := Pact.returns fun _ s => s.inFlight ≠ some n ∧
    Good o clock s.log Entry.resolved)
  · apply Pact.triple_await rfl
    · exact fun cs s hin _ => Pact.Moves.refl hin.inv
    · intro cs s s' r hin hs hkeeps hallowed
      have hinv : Inv o clock cs s' := hin.inv
      have hpromise := hkeeps.promise current hs.2
      have hgood : Good o clock s'.log Entry.resolved := by
        constructor
        · exact hinv.down.mp (hinv.promise.mpr (by simp [hpromise]))
        · intro m hm
          cases hinv.target hpromise m hm with
          | inl hfinished => exact hinv.finished_completed hfinished
          | inr htarget =>
              rw [htarget] at hallowed
              exact hallowed
      exact ⟨Pact.Moves.refl hin.inv,
        fun h => hs.1 (hkeeps.flight.mp h), hgood⟩
  · exact fun _ => Pact.triple_ret fun s hs => hs
  · exact fun e s hs => hs.elim

theorem History.stop (h : History o clock cs s) :
    History o clock cs
      { s with
        shuttingDown := true
        shutdownPromise := some s.inFlight
        log := s.log ++ [Entry.shutdown] } := by
  constructor
  · intro k hk
    obtain ⟨hlive, hstarted, hfinished⟩ := h.live hk
    exact ⟨hlive, List.mem_append_left _ hstarted, by simpa using hfinished⟩
  · intro m hm
    simpa using h.flights (by simpa using hm)
  · intro e m he hm
    cases List.mem_append.mp he with
    | inl hold => exact h.fresh hold hm
    | inr hnew =>
        rw [List.mem_singleton.mp hnew] at hm
        cases hm
  · simp
  · simp
  · intro current hc m hm
    cases hc
    simpa using h.flights (by simpa using hm)
  · exact everyEntry_snoc.mpr ⟨h.log, trivial⟩

theorem Keeps.stop {m : Nat} (hnone : s.shutdownPromise = none) (t : Timers) :
    Keeps m s
      { s with
        timers := t
        shuttingDown := true
        shutdownPromise := some s.inFlight
        log := s.log ++ [Entry.shutdown] } := by
  refine ⟨Iff.rfl, ?_, fun current hc => ?_⟩
  · intro e he
    have hentry : e ≠ Entry.shutdown := by
      intro h
      rw [h] at he
      cases he
    simp [hentry]
  · rw [hnone] at hc
    cases hc

theorem wp_shutdown (h : New o clock n cs s) (hinv : Inv o clock cs s)
    (hkeeps : forall m, m ≠ n -> Keeps m s0 s) :
    shutdown.wp (cleaner o clock) (pact o clock).contract n
      (fun res ph cs s0 s => Left o clock n res ph cs s0 s ∧
        Good o clock s.log Entry.resolved) ph cs s0 s := by
  unfold shutdown
  simp only [Prog.read_bind, Prog.wp_act, id]
  cases hpromise : s.shutdownPromise with
  | some current =>
      apply Prog.wp_mono _ (triple_awaitShutdown current ph cs s0 s
        ⟨h.ok, h.live, hinv⟩ hkeeps ⟨h.flight, hpromise⟩)
      exact fun res ph' cs' s0' s' hend =>
        ⟨⟨hend.1, hend.2.1, hend.2.2.1⟩, hend.2.2.2⟩
  | none =>
      simp only [Prog.modify_bind, Prog.wp_act]
      rw [Prog.wp_bind]
      apply wp_cancelTimer
      · exact h.timers
      · intro t ht hquiet
        have hstop := h.history.stop
        have hstopped : Inv o clock cs
            { s with
              timers := t
              shuttingDown := true
              shutdownPromise := some s.inFlight
              log := s.log ++ [Entry.shutdown] } :=
          ⟨⟨hstop.live, hstop.flights, hstop.fresh, hstop.down, hstop.promise,
            hstop.target, hstop.log⟩, ht, fun _ => hquiet,
              fun _ h => by cases h⟩
        apply Prog.wp_mono _ (triple_awaitShutdown s.inFlight ph cs s0 _
          ⟨h.ok, h.live, hstopped⟩
          (fun m hne => (hkeeps m hne).trans (Keeps.stop hpromise t))
          ⟨h.flight, rfl⟩)
        exact fun res ph' cs' s0' s' hend =>
          ⟨⟨hend.1, hend.2.1, hend.2.2.1⟩, hend.2.2.2⟩

end Operations

/-!
## Every run of the cleaner
-/

theorem Inv.leave (h : Inv o clock cs s) (hflight : s.inFlight ≠ some n) :
    Inv o clock (cs.without n) s := by
  refine ⟨⟨?_, h.flights, h.fresh, h.down, h.promise, h.target, h.log⟩,
    h.timers, h.quiet, h.ready⟩
  intro k hk
  obtain ⟨hlive, hlog⟩ := h.live hk
  refine ⟨⟨?_, hlive⟩, hlog⟩
  intro heq
  rw [heq] at hk
  exact hflight hk

theorem Inv.fired (h : Inv o clock cs s) (r : Nat)
    (hr : s.timers.timer ≠ some r) :
    TimersOk { s.timers with armed := s.timers.armed.erase r } ∧
      Inv o clock cs
        (s.setTimers fun t => { t with armed := t.armed.erase r }) := by
  have hset : TimersOk { s.timers with armed := s.timers.armed.erase r } :=
    ⟨h.timers.erase r, h.timers.handle, h.timers.cancelling⟩
  refine ⟨hset, ⟨h.live, h.flights, h.fresh, h.down, h.promise, h.target,
    h.log⟩, hset, h.quiet, ?_⟩
  intro hflight hdown hthrown
  obtain ⟨q, hq, harmed⟩ := h.ready hflight hdown hthrown
  have hne : q ≠ r := fun heq => hr (heq ▸ hq)
  exact ⟨q, hq, by simp [State.setTimers, harmed, hne]⟩

theorem leave_plain {op : Op} (hop : op ≠ Op.shutdown)
    (res : Except Thrown Value) : leave n op res s = s := by
  cases op with
  | shutdown => exact absurd rfl hop
  | _ => rfl

theorem wp_ends (op : Op) (hop : op ≠ Op.shutdown) {p : Code Value}
    {ph : Phase} {s0 : State}
    (h : p.wp (cleaner o clock) (pact o clock).contract n (Left o clock n)
      ph cs s0 s) :
    p.wp (cleaner o clock) (pact o clock).contract n
      (endPost (cleaner o clock) (pact o clock).contract n op) ph cs s0 s := by
  apply Prog.wp_mono _ h
  intro res ph' cs' s0' s' hleft
  show Inv o clock (cs'.without n) (leave n op res s') ∧
    forall m, m ≠ n -> Keeps m s0' (leave n op res s')
  rw [leave_plain hop]
  exact ⟨hleft.1.inv.leave hleft.2.2, hleft.2.1⟩

theorem wp_shutdown_ends (h : New o clock n cs s) (hinv : Inv o clock cs s)
    {ph : Phase} {s0 : State} (hkeeps : forall m, m ≠ n -> Keeps m s0 s) :
    shutdown.wp (cleaner o clock) (pact o clock).contract n
      (endPost (cleaner o clock) (pact o clock).contract n Op.shutdown)
      ph cs s0 s := by
  apply Prog.wp_mono _ (wp_shutdown h hinv hkeeps)
  intro res ph' cs' s0' s' hend
  obtain ⟨hleft, hgood⟩ := hend
  have hinv' := hleft.1.inv.leave hleft.2.2
  cases res with
  | error e => exact ⟨hinv', hleft.2.1⟩
  | ok v =>
      exact ⟨hinv'.record (e := Entry.resolved) trivial nofun hgood,
        fun m hm => (hleft.2.1 m hm).trans (Keeps.record s' nofun)⟩

theorem sound : Contract.Sound (cleaner o clock) (pact o clock).contract := by
  apply Pact.sound_of_wp
  intro cs s op hok hinv _
  have hnew : New o clock cs.next cs.enter s :=
    hinv.new hok hinv.timers rfl rfl
  have hlater : Inv o clock cs.enter s := hnew.inv hinv.ready
  have hrefl : forall m, m ≠ cs.next -> Keeps m s s := fun m _ => Keeps.refl m s
  cases op with
  | runNow => exact wp_ends Op.runNow nofun (wp_runNow hnew hlater hrefl)
  | waitForIdle =>
      exact wp_ends Op.waitForIdle nofun (wp_waitForIdle hnew hlater hrefl)
  | status => exact wp_ends Op.status nofun (wp_status hnew hlater hrefl)
  | shutdown => exact wp_shutdown_ends hnew hlater hrefl
  | fire r =>
      have hset : TimersOk { s.timers with
          armed := s.timers.armed.erase r } :=
        ⟨hinv.timers.erase r, hinv.timers.handle, hinv.timers.cancelling⟩
      apply wp_ends (Op.fire r) nofun
      apply wp_fireTimer (hinv.new hok hset rfl rfl) r
      · intro hr
        exact (hlater.fired r hr).2
      · exact fun hr => hinv.timers.erase_timer hr
      · exact fun m _ => ⟨Iff.rfl, fun _ _ => Iff.rfl, fun _ h => h⟩

theorem Constructed.inv (h : Constructed o clock s) :
    Inv o clock ⟨0, fun _ => False⟩ s := by
  have hempty : TimersOk Timers.empty := ⟨Or.inl rfl, nofun, nofun⟩
  have hwp : (construct o).wp (cleaner o clock) (pact o clock).contract 0
      (fun _ _ _ _ s => Inv o clock ⟨0, fun _ => False⟩ s) Phase.first
      ⟨0, fun _ => False⟩ State.empty State.empty := by
    unfold construct
    rw [Prog.wp_bind]
    apply wp_schedule hempty fun _ => rfl
    intro t ht hready
    exact ⟨⟨nofun, nofun, nofun, by simp [State.empty],
      by simp [State.empty], nofun, everyEntry_nil _⟩, ht,
      fun h => absurd rfl h, fun _ => hready⟩
  have hend := Seg.done_wp h rfl hwp
  exact hend

theorem Constructed.reachable (h : Constructed o clock s)
    {cfg : Config State ports Thrown Value Op}
    (hreach : Reachable (cleaner o clock) s cfg) :
    Inv o clock cfg.census cfg.shared :=
  Pact.reachable (K := pact o clock) sound h.inv hreach

structure SingleFlight (o : Options) (clock : Reading -> Prop)
    (cfg : Config State ports Thrown Value Op) : Prop where
  /-- A run starts when those before it are over, and not after `shutdown`. -/
  starts : forall before n after,
    cfg.shared.log = before ++ Entry.started n :: after ->
      Entry.shutdown ∉ before ∧
        forall m, Entry.started m ∈ before ->
          Entry.finished m ∈ before
  /-- The run in flight is the one that has started and is not over. -/
  flight : forall n, cfg.shared.inFlight = some n <->
    Entry.started n ∈ cfg.shared.log ∧ Entry.finished n ∉ cfg.shared.log
  waits : forall n, cfg.shared.inFlight = some n ->
    exists f, f ∈ cfg.stack ++ cfg.parked ∧ f.id = n
  finishes : forall before n after,
    cfg.shared.log = before ++ Entry.finished n :: after ->
      exists res, Entry.completed n res ∈ before
  /-- The scheduler holds at most one timer, the one of the cleaner. -/
  timer : cfg.shared.timers.armed = [] ∨ exists r,
    cfg.shared.timers.armed = [r] ∧ cfg.shared.timers.timer = some r
  armed : cfg.shared.inFlight = none -> cfg.shared.shuttingDown = false ->
    cfg.shared.timers.thrown = false -> exists r,
      cfg.shared.timers.timer = some r ∧ cfg.shared.timers.armed = [r]
  down : cfg.shared.shuttingDown = true <-> Entry.shutdown ∈ cfg.shared.log
  /-- The promise of the shutdown is fulfilled after every run. -/
  resolves : forall before after,
    cfg.shared.log = before ++ Entry.resolved :: after ->
      Entry.shutdown ∈ before ∧
        forall m, Entry.started m ∈ before ->
          exists res, Entry.completed m res ∈ before
  counts : forall before n r after,
    cfg.shared.log = before ++ Entry.completed n (Except.ok r) :: after ->
      forall tabs, Entry.listed n tabs ∈ before ->
        r.examined = min tabs o.maxSessions ∧
          r.examined = r.terminated + r.skipped + r.failed
  /-- A run that has obtained its list fails only by its clock. -/
  returns : (forall r, clock r -> r.IsTime) -> forall before n res after,
    cfg.shared.log = before ++ Entry.completed n res :: after ->
      forall tabs, Entry.listed n tabs ∈ before ->
        exists r, res = Except.ok r

/-- In every run of the cleaner there is at most one run in flight and at most
one timer, and the one or the other. -/
theorem cleaner_single_flight (hs : Constructed o clock s)
    {cfg : Config State ports Thrown Value Op}
    (hreach : Reachable (cleaner o clock) s cfg) :
    SingleFlight o clock cfg := by
  have hinv := hs.reachable hreach
  constructor
  · exact fun before n after hlog => hinv.log _ _ _ hlog
  · intro n
    constructor
    · exact fun hn => (hinv.live hn).2
    · exact fun hn => (hinv.flights hn.1).resolve_left hn.2
  · exact fun n hn => (hinv.live hn).1
  · exact fun before n after hlog => hinv.log _ _ _ hlog
  · exact hinv.timers.armed
  · exact hinv.ready
  · exact hinv.down
  · exact fun before after hlog => hinv.log _ _ _ hlog
  · intro before n r after hlog tabs htabs
    have hgood : Good o clock before (Entry.completed n (Except.ok r)) :=
      hinv.log _ _ _ hlog
    exact hgood.2 tabs htabs
  · intro hclock before n res after hlog tabs htabs
    have hgood : Good o clock before (Entry.completed n res) :=
      hinv.log _ _ _ hlog
    have hanswers := hgood.2 tabs htabs
    cases res with
    | ok r => exact ⟨r, rfl⟩
    | error e => exact absurd hclock hanswers

/-!
## A run

The timer fires.  Of three tabs two may be examined; the manager throws for the
second.
-/

def sampleOptions : Options := ⟨2, 60000, by decide, by decide⟩

def sampleSnapshot (id : JsString) : EligibilitySnapshot :=
  ⟨id, 3600000, 0, true, none, ⟨0, 0, 0⟩⟩

def sampleReply : (c : PortCall) -> PortReply c
  | PortCall.now => Reading.number (some 3600000)
  | PortCall.settings => some 1
  | PortCall.tabs => some [js "a", js "b", js "c"]
  | PortCall.setTimeout _ _ => true
  | PortCall.clearTimeout _ => Cleared.ok
  | PortCall.read request => some (sampleSnapshot request.id)
  | PortCall.terminateIfStale id _ =>
      if id = js "a" then some (some (js "terminated")) else none
  | PortCall.settledRun _ => ()
  | PortCall.promise _ => Except.error Thrown.port
  | PortCall.shutdownPromise _ => ()

def completedRuns (s : State) : List Nat :=
  s.log.filterMap fun e =>
    match e with
    | Entry.completed n _ => some n
    | _ => none

def sampleFair (s : State) : PortCall -> Bool
  | PortCall.promise _ => false
  | PortCall.shutdownPromise (some k) => decide (k ∈ completedRuns s)
  | _ => true

def sampleScript : Script (cleaner sampleOptions Reading.IsTime) where
  reply _ _ := sampleReply
  fair s _ := sampleFair s
  admits s op := match op with
    | Op.fire r => decide (r < s.timers.next)
    | _ => true
  nudge _ := none
  fair_allowed s n c h := by
    cases c with
    | now =>
        show Reading.IsTime (Reading.number (some 3600000))
        simp [Reading.IsTime, maxTime]
    | promise k => cases h
    | shutdownPromise current =>
        cases current with
        | none => trivial
        | some k =>
            obtain ⟨e, he, hk⟩ := List.mem_filterMap.mp (of_decide_eq_true h)
            split at hk
            · cases hk
              exact ⟨_, he⟩
            · cases hk
    | _ => trivial
  admits_sound s op h r hr := by
    rw [hr] at h
    exact of_decide_eq_true h
  nudge_env _ _ h := nomatch h

def sampleStart : Option (State × Outcome State ports Thrown Value) :=
  sampleScript.exec 0 (construct sampleOptions) State.empty

def sampleRun : Option (Config State ports Thrown Value Op) :=
  sampleStart.bind fun start =>
    sampleScript.play
      [Move.enter (Op.fire 0), Move.resume 0, Move.enter Op.shutdown,
        Move.resume 0, Move.resume 1, Move.resume 1, Move.resume 0,
        Move.resume 0]
      (Config.initial start.1)

theorem sampleRun_log :
    sampleRun.map (fun cfg => cfg.shared.log) =
      some [Entry.started 0, Entry.listed 0 3, Entry.shutdown,
        Entry.completed 0
          (Except.ok ⟨false, 2, 1, 0, 1, 3600000, 3600000⟩),
        Entry.resolved, Entry.finished 0] := by
  decide +kernel

theorem sampleStart_outcome :
    sampleStart.map (fun start => match start.2 with
      | Outcome.done (Except.ok v) => decide (v = Value.void)
      | _ => false) = some true := by
  decide +kernel

theorem sampleStart_constructed
    {start : State × Outcome State ports Thrown Value}
    (h : sampleStart = some start) :
    Constructed sampleOptions Reading.IsTime start.1 := by
  have hseg := Script.exec_seg h
  have hout := sampleStart_outcome
  rw [h] at hout
  obtain ⟨s, out⟩ := start
  cases out with
  | wait c k => cases hout
  | done res =>
      cases res with
      | error e => cases hout
      | ok v =>
          have hv : v = Value.void :=
            of_decide_eq_true (Option.some.inj hout)
          rw [hv] at hseg
          exact hseg

theorem cleaner_single_flight_sample :
    exists cfg, sampleRun = some cfg ∧
      SingleFlight sampleOptions Reading.IsTime cfg ∧
      Entry.finished 0 ∈ cfg.shared.log := by
  obtain ⟨cfg, hrun, hlog⟩ := Option.map_eq_some_iff.mp sampleRun_log
  obtain ⟨start, hstart, hplay⟩ := Option.bind_eq_some_iff.mp hrun
  refine ⟨cfg, hrun, cleaner_single_flight (sampleStart_constructed hstart)
    (Script.play_reachable hplay), ?_⟩
  rw [hlog]
  decide

end StaleSessionCleaner
end Server
end FlanTerminal

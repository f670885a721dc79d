import FlanTerminal.Foundation.Trace
import FlanTerminal.Client.UseTerminalSocket

/-!
# One socket at a time

The socket in `socketRef` is the only one that may still be open, and the only
one whose events count.  A commit can break this: when it ends a manual
suspension and changes the connect dependencies as well, two effects connect
one after the other, and nothing closes the first socket.
-/

namespace FlanTerminal
namespace Client
namespace UseTerminalSocket

open Foundation
open Shared

variable {s s' : State} {i : Nat} {d : Dependencies} {made : Bool}

/-- Nobody has called `close()`, and the close event has not come. -/
def Socket.Open (socket : Socket) : Prop :=
  socket.closeCalled = false ∧ socket.closeDelivered = false

/-- The sockets and timers, and the refs that hold them. -/
structure Base (s : State) : Prop where
  timers : forall timer, timer ∈ s.timers ->
    s.retryTimerRef = some timer.1
  owner : forall i, i < s.nextSocket -> (s.sockets i).Open ->
    s.socketRef = some i
  current : forall i, s.socketRef = some i -> i < s.nextSocket ∧
    s.isCurrent i ∧ s.removeSocketListenersRef = some i ∧
      (s.sockets i).listening = true
  others : forall i, i < s.nextSocket -> (s.sockets i).listening = true ->
    s.isCurrent i -> s.socketRef = some i
  generations : forall i, i < s.nextSocket ->
    (s.sockets i).generation ≤ s.generationRef

structure Inv (s : State) : Prop extends Base s where
  retry : s.retryTimerRef ≠ none -> s.stoppedRef = false ∧ s.socketRef = none
  stopped : s.stoppedRef = true -> s.socketRef = none
  manual : s.manualSuspendedRef = true -> s.stoppedRef = true
  authentication : s.authenticationSuspendedRef = true -> s.stoppedRef = true

theorem Base.idle (h : Base s) (hsocket : s.socketRef = none)
    (htimer : s.retryTimerRef = none)
    (hmanual : s.manualSuspendedRef = true -> s.stoppedRef = true)
    (hauth : s.authenticationSuspendedRef = true -> s.stoppedRef = true) :
    Inv s :=
  ⟨h, fun hne => absurd htimer hne, fun _ => hsocket, hmanual, hauth⟩

/-!
## The pieces
-/

section Pieces

theorem Base.cancelRetry_timers (h : Base s) : (cancelRetry s).timers = [] := by
  unfold cancelRetry
  split
  · rename_i hnone
    apply List.eq_nil_iff_forall_not_mem.mpr
    intro timer htimer
    have href := h.timers timer htimer
    rw [hnone] at href
    cases href
  · rename_i t ht
    apply List.eq_nil_iff_forall_not_mem.mpr
    intro timer htimer
    obtain ⟨hmem, hne⟩ := List.mem_filter.mp htimer
    have href := h.timers timer hmem
    rw [ht] at href
    cases href
    exact (of_decide_eq_true hne) rfl

theorem cancelRetry_eq (s : State) : exists timers,
    cancelRetry s =
      { s with
        timers := timers
        retryTimerRef := none } := by
  unfold cancelRetry
  split
  · rename_i hnone
    exact ⟨s.timers, by rw [← hnone]⟩
  · exact ⟨_, rfl⟩

theorem Base.cancelled (h : Base s) :
    cancelRetry s =
      { s with
        timers := []
        retryTimerRef := none } := by
  obtain ⟨timers, heq⟩ := cancelRetry_eq s
  have hnil := h.cancelRetry_timers
  rw [heq] at hnil ⊢
  rw [show timers = [] from hnil]

theorem Base.cancelRetry (h : Base s) : Base (cancelRetry s) := by
  rw [h.cancelled]
  exact ⟨nofun, h.owner, h.current, h.others, h.generations⟩

/-- Without a socket a new generation has none of the old sockets. -/
theorem Base.bump (h : Base s) (hnone : s.socketRef = none) :
    Base { s with generationRef := s.generationRef + 1 } := by
  refine ⟨h.timers, h.owner, ?_, ?_, ?_⟩
  · intro i hi
    rw [show s.socketRef = some i from hi] at hnone
    cases hnone
  · intro i hi _ hcurrent
    have hle := h.generations i hi
    have heq : (s.sockets i).generation = s.generationRef + 1 := hcurrent
    omega
  · exact fun i hi => Nat.le_succ_of_le (h.generations i hi)

/-- Socket `i` is taken out of the ref; it does not listen any more, and it is
not open. -/
theorem Base.drop (h : Base s) (hi : s.socketRef = some i) (socket : Socket)
    (generation : Nat)
    (hgeneration : socket.generation = (s.sockets i).generation)
    (hlisten : socket.listening = false) (hclosed : ¬ socket.Open)
    (hle : s.generationRef ≤ generation) :
    Base
      { s with
        sockets := Function.update s.sockets i socket
        generationRef := generation
        removeSocketListenersRef := none
        socketRef := none } := by
  have hother : forall {j}, j ≠ i -> s.socketRef ≠ some j := by
    intro j hj heq
    rw [hi] at heq
    exact hj (Option.some.inj heq).symm
  refine ⟨h.timers, ?_, nofun, ?_, ?_⟩
  · intro j hj hopen
    by_cases hij : j = i
    · subst hij
      exact absurd (by simpa using hopen) hclosed
    · exact absurd (h.owner j hj (by simpa [hij] using hopen)) (hother hij)
  · intro j hj hlisten' hcurrent
    by_cases hij : j = i
    · subst hij
      rw [show socket.listening = true by simpa using hlisten'] at hlisten
      cases hlisten
    · have hgen : (s.sockets j).generation = generation := by
        simpa [State.isCurrent, hij] using hcurrent
      have hbound := h.generations j hj
      have hnow : s.isCurrent j := by
        unfold State.isCurrent
        omega
      exact absurd (h.others j hj (by simpa [hij] using hlisten') hnow)
        (hother hij)
  · intro j hj
    have hbound := h.generations j hj
    by_cases hij : j = i
    · subst hij
      simp only [Function.update_self, hgeneration]
      omega
    · simp only [Function.update_of_ne hij]
      omega

theorem Base.removed (h : Base s) (hnone : s.socketRef = none) :
    Base (removeSocketListeners s) := by
  unfold removeSocketListeners
  split
  · exact h
  · rename_i i _
    refine ⟨h.timers, ?_, ?_, ?_, ?_⟩
    · intro j hj hopen
      apply h.owner j hj
      by_cases hij : j = i
      · subst hij
        simpa [State.setSocket, Socket.Open] using hopen
      · simpa [State.setSocket, hij] using hopen
    · intro j hj
      rw [show s.socketRef = some j from hj] at hnone
      cases hnone
    · intro j hj hlisten hcurrent
      by_cases hij : j = i
      · subst hij
        simp [State.setSocket] at hlisten
      · exact h.others j hj (by simpa [State.setSocket, hij] using hlisten)
          (by simpa [State.isCurrent, State.setSocket, hij] using hcurrent)
    · intro j hj
      by_cases hij : j = i
      · subst hij
        simpa [State.setSocket] using h.generations j hj
      · simpa [State.setSocket, hij] using h.generations j hj

def released (s : State) (sockets : Nat -> Socket) : State :=
  { s with
    timers := []
    retryTimerRef := none
    generationRef := s.generationRef + 1
    sockets := sockets
    removeSocketListenersRef := none
    socketRef := none }

theorem Base.release (h : Base s) : exists sockets,
    release s = released s sockets ∧ Base (released s sockets) ∧
      forall j, (sockets j).deps = (s.sockets j).deps := by
  have hdeps : forall i (socket : Socket), socket.deps = (s.sockets i).deps ->
      forall j, (Function.update s.sockets i socket j).deps =
        (s.sockets j).deps := by
    intro i socket hsocket j
    by_cases hj : j = i
    · rw [hj, Function.update_self, hsocket]
    · rw [Function.update_of_ne hj]
  have hbase := h.cancelRetry
  unfold UseTerminalSocket.release
  rw [h.cancelled] at hbase ⊢
  cases hi : s.socketRef with
  | none =>
      have hremoved := (hbase.bump hi).removed hi
      cases hr : s.removeSocketListenersRef with
      | none =>
          simp only [removeSocketListeners, closeCurrent, hr, hi] at hremoved ⊢
          exact ⟨s.sockets, rfl, hremoved, fun _ => rfl⟩
      | some i =>
          simp only [removeSocketListeners, closeCurrent, State.setSocket, hr,
            hi] at hremoved ⊢
          exact ⟨_, rfl, hremoved, hdeps i _ rfl⟩
  | some i =>
      obtain ⟨_, _, hr, _⟩ := h.current i hi
      have hdrop := hbase.drop hi
        { s.sockets i with
          listening := false
          closeCalled := true }
        (s.generationRef + 1) rfl rfl (fun hopen => nomatch hopen.1)
        (Nat.le_succ _)
      refine ⟨_, ?_, hdrop, hdeps i _ rfl⟩
      simp only [removeSocketListeners, hr, closeCurrent, State.setSocket,
        State.close, released, Function.update_self, Function.update_idem]

theorem Base.setTimer (h : Base s) (hnil : s.timers = []) (d : Dependencies) :
    Base (setTimer d s) := by
  refine ⟨?_, h.owner, h.current, h.others, h.generations⟩
  intro timer htimer
  have hmem : timer ∈ s.timers ++ [_] := htimer
  rw [hnil, List.nil_append, List.mem_singleton] at hmem
  rw [hmem]
  rfl

theorem Base.createSocket (h : Base s) (hnone : s.socketRef = none)
    (hless : forall i, i < s.nextSocket ->
      (s.sockets i).generation < s.generationRef) (d : Dependencies) :
    Base (createSocket d s) := by
  have hcases : forall {j}, j < s.nextSocket + 1 -> j ≠ s.nextSocket ->
      j < s.nextSocket := by
    intro j hj hne
    omega
  refine ⟨h.timers, ?_, ?_, ?_, ?_⟩
  · intro j hj hopen
    by_cases hnew : j = s.nextSocket
    · rw [hnew]
      rfl
    · have hold := h.owner j (hcases hj hnew)
        (by simpa [UseTerminalSocket.createSocket, hnew] using hopen)
      rw [hnone] at hold
      cases hold
  · intro j hj
    cases hj
    exact ⟨Nat.lt_succ_self _,
      by simp [State.isCurrent, UseTerminalSocket.createSocket], rfl,
      by simp [UseTerminalSocket.createSocket]⟩
  · intro j hj _ hcurrent
    by_cases hnew : j = s.nextSocket
    · rw [hnew]
      rfl
    · have hlt := hless j (hcases hj hnew)
      have heq : (s.sockets j).generation = s.generationRef := by
        simpa [State.isCurrent, UseTerminalSocket.createSocket, hnew]
          using hcurrent
      omega
  · intro j hj
    by_cases hnew : j = s.nextSocket
    · simp [UseTerminalSocket.createSocket, hnew]
    · have hlt := hless j (hcases hj hnew)
      simpa [UseTerminalSocket.createSocket, hnew] using Nat.le_of_lt hlt

end Pieces

/-!
## Connecting
-/

theorem Inv.scheduleRetry (h : Inv s) (hnone : s.socketRef = none)
    (d : Dependencies) (message : Option JsString) :
    Inv (scheduleRetry d message s) := by
  unfold UseTerminalSocket.scheduleRetry
  have hbase := h.toBase.cancelRetry
  by_cases hstopped : s.stoppedRef = true
  · rw [if_pos hstopped]
    exact ⟨⟨h.timers, h.owner, h.current, h.others, h.generations⟩, h.retry,
      h.stopped, h.manual, h.authentication⟩
  · rw [if_neg hstopped]
    have hmanual : s.manualSuspendedRef ≠ true :=
      fun hm => hstopped (h.manual hm)
    have hauth : s.authenticationSuspendedRef ≠ true :=
      fun ha => hstopped (h.authentication ha)
    split
    · have hset : Base
          { s with
            stoppedRef := true
            manualSuspendedRef := true } :=
        ⟨h.timers, h.owner, h.current, h.others, h.generations⟩
      have hcancel := hset.cancelRetry
      dsimp only
      rw [hset.cancelled] at hcancel ⊢
      apply Base.idle
      · exact ⟨hcancel.timers, hcancel.owner, hcancel.current, hcancel.others,
          hcancel.generations⟩
      · exact hnone
      · rfl
      · exact fun _ => rfl
      · exact fun _ => rfl
    · rw [h.cancelled] at hbase ⊢
      have hset : Base
          { s with
            timers := []
            retryTimerRef := none
            status := ConnectionStatus.reconnecting
            error := message.or s.error } :=
        ⟨hbase.timers, hbase.owner, hbase.current, hbase.others,
          hbase.generations⟩
      exact ⟨hset.setTimer rfl d,
        fun _ => ⟨Bool.eq_false_iff.mpr hstopped, hnone⟩, fun _ => hnone,
        fun hm => absurd hm hmanual, fun ha => absurd ha hauth⟩

theorem Inv.connect (h : Inv s) (hnone : s.socketRef = none)
    (d : Dependencies) (made : Bool) : Inv (connect d made s) := by
  unfold UseTerminalSocket.connect
  by_cases hstop : (s.stoppedRef || s.authenticationSuspendedRef) = true
  · rw [if_pos hstop]
    exact h
  · rw [if_neg hstop]
    obtain ⟨hstopped, hauth⟩ : s.stoppedRef = false ∧
        s.authenticationSuspendedRef = false := by
      simpa using hstop
    have hmanual : s.manualSuspendedRef ≠ true := by
      intro hm
      rw [h.manual hm] at hstopped
      cases hstopped
    have hbase := h.toBase.cancelRetry
    dsimp only
    rw [h.cancelled] at hbase ⊢
    have hbump := hbase.bump hnone
    cases made with
    | true =>
        have hset : Base
            { s with
              timers := []
              retryTimerRef := none
              generationRef := s.generationRef + 1
              status := if s.retryAttemptRef = 0 then
                  ConnectionStatus.connecting
                else ConnectionStatus.reconnecting
              error := none } :=
          ⟨hbump.timers, hbump.owner, hbump.current, hbump.others,
            hbump.generations⟩
        have hless : forall i, i < s.nextSocket ->
            (s.sockets i).generation < s.generationRef + 1 :=
          fun i hi => Nat.lt_succ_of_le (h.generations i hi)
        refine ⟨hset.createSocket hnone hless d, fun hne => absurd rfl hne, ?_,
          fun hm => absurd hm hmanual, ?_⟩
        · intro hs
          rw [show s.stoppedRef = true from hs] at hstopped
          cases hstopped
        · intro ha
          rw [show s.authenticationSuspendedRef = true from ha] at hauth
          cases hauth
    | false =>
        apply Inv.scheduleRetry
        · apply Base.idle
          · exact ⟨hbump.timers, fun i hi hopen => (hnone ▸
              hbump.owner i hi hopen), nofun,
              fun i hi hl hc => (hnone ▸ hbump.others i hi hl hc),
              hbump.generations⟩
          · rfl
          · rfl
          · exact fun hm => absurd hm hmanual
          · intro ha
            rw [show s.authenticationSuspendedRef = true from ha] at hauth
            cases hauth
        · rfl

theorem Inv.runConnect (h : Inv s) (hnone : s.socketRef = none)
    (made : Bool) : Inv (runConnect made s) := by
  unfold UseTerminalSocket.runConnect
  split
  · exact h
  · exact h.connect hnone _ made

/-!
## Events of a socket
-/

theorem Inv.shown (h : Inv s) (status : ConnectionStatus)
    (error : Option JsString) (attempt : Nat) (microtasks : List Nat)
    (log : List Entry) :
    Inv
      { s with
        status := status
        error := error
        retryAttemptRef := attempt
        microtasks := microtasks
        log := log } :=
  ⟨⟨h.timers, h.owner, h.current, h.others, h.generations⟩, h.retry,
    h.stopped, h.manual, h.authentication⟩

theorem Inv.setSocket (h : Inv s) (i : Nat) (f : Socket -> Socket)
    (hgeneration : forall socket, (f socket).generation = socket.generation)
    (hlisten : forall socket, (f socket).listening = socket.listening)
    (hopen : forall socket, (f socket).Open -> socket.Open) :
    Inv (s.setSocket i f) := by
  refine ⟨⟨h.timers, ?_, ?_, ?_, ?_⟩, h.retry, h.stopped, h.manual,
    h.authentication⟩
  · intro j hj hj'
    apply h.owner j hj
    by_cases hij : j = i
    · subst hij
      exact hopen _ (by simpa [State.setSocket] using hj')
    · simpa [State.setSocket, hij] using hj'
  · intro j hj
    obtain ⟨hlt, hcurrent, hremove, hlistening⟩ := h.current j hj
    by_cases hij : j = i
    · subst hij
      exact ⟨hlt,
        by simpa [State.isCurrent, State.setSocket, hgeneration] using hcurrent,
        hremove, by simpa [State.setSocket, hlisten] using hlistening⟩
    · exact ⟨hlt, by simpa [State.isCurrent, State.setSocket, hij] using hcurrent,
        hremove, by simpa [State.setSocket, hij] using hlistening⟩
  · intro j hj hj' hcurrent
    by_cases hij : j = i
    · subst hij
      apply h.others j hj
      · simpa [State.setSocket, hlisten] using hj'
      · simpa [State.isCurrent, State.setSocket, hgeneration] using hcurrent
    · apply h.others j hj
      · simpa [State.setSocket, hij] using hj'
      · simpa [State.isCurrent, State.setSocket, hij] using hcurrent
  · intro j hj
    by_cases hij : j = i
    · subst hij
      simpa [State.setSocket, hgeneration] using h.generations j hj
    · simpa [State.setSocket, hij] using h.generations j hj

theorem Inv.close (h : Inv s) (i : Nat) : Inv (s.close i) :=
  h.setSocket i _ (fun _ => rfl) (fun _ => rfl) fun _ hopen => nomatch hopen.1

theorem Inv.delivered (h : Inv s) (i : Nat) (e : SocketEvent) :
    Inv (delivered i e s) := by
  cases e with
  | closed code =>
      exact h.setSocket i
        (fun socket => { socket with closeDelivered := true })
        (fun _ => rfl) (fun _ => rfl) fun _ hopen => nomatch hopen.2
  | _ => exact h

theorem Inv.protocolFailure (h : Inv s) (i : Nat) :
    Inv (protocolFailure i s) :=
  (h.close i).shown _ _ _ _ _

theorem Inv.onMessage (h : Inv s) (i : Nat) (data : RawData) :
    Inv (onMessage i data s) := by
  unfold UseTerminalSocket.onMessage
  split
  · split
    · exact h.protocolFailure i
    · split
      · exact h.protocolFailure i
      · rename_i message _ _
        cases message with
        | ready id => exact h.shown _ _ _ _ _
        | output id data => exact h.shown _ _ _ _ _
        | error id code => exact (h.close i).shown _ _ _ _ _
  · exact h

theorem Inv.onCloseCode (h : Inv s) (hnone : s.socketRef = none)
    (d : Dependencies) (code : Nat) : Inv (onCloseCode d code s) := by
  have hstop : Inv (cancelRetry { s with stoppedRef := true }) := by
    have hset : Base { s with stoppedRef := true } :=
      ⟨h.timers, h.owner, h.current, h.others, h.generations⟩
    have hcancel := hset.cancelRetry
    rw [hset.cancelled] at hcancel ⊢
    exact hcancel.idle hnone rfl (fun _ => rfl) fun _ => rfl
  unfold UseTerminalSocket.onCloseCode
  split
  · have hset : Base
        { s.record (Entry.suspendTerminalAuthLifecycle d.sessionId) with
          authenticationSuspendedRef := true
          stoppedRef := true } :=
      ⟨h.timers, h.owner, h.current, h.others, h.generations⟩
    have hcancel := hset.cancelRetry
    dsimp only
    rw [hset.cancelled] at hcancel ⊢
    have hbump := hcancel.bump hnone
    apply Base.idle
    · exact ⟨hbump.timers, hbump.owner, hbump.current, hbump.others,
        hbump.generations⟩
    · exact hnone
    · rfl
    · exact fun _ => rfl
    · exact fun _ => rfl
  · split
    · exact hstop.shown _ _ _ _ _
    · split
      · exact hstop.shown _ _ _ _ _
      · split
        · exact h.scheduleRetry hnone d none
        · split
          · exact h.shown _ _ _ _ _
          · exact h.scheduleRetry hnone d none

theorem Inv.onClose (h : Inv s) (hi : i < s.nextSocket)
    (hlisten : (s.sockets i).listening = true)
    (hdelivered : (s.sockets i).closeDelivered = true) (code : Nat) :
    Inv (onClose i code s) := by
  unfold UseTerminalSocket.onClose
  split
  · rename_i hcurrent
    have href := h.others i hi hlisten hcurrent
    have hremove := (h.current i href).2.2.1
    have hdrop := h.toBase.drop href { s.sockets i with listening := false }
      s.generationRef rfl rfl
      (fun hopen => by
        rw [show (s.sockets i).closeDelivered = false from hopen.2]
          at hdelivered
        cases hdelivered) (Nat.le_refl _)
    have htimer : s.retryTimerRef = none := by
      by_contra hne
      rw [(h.retry hne).2] at href
      cases href
    simp only [removeSocketListeners, hremove, State.setSocket]
    apply Inv.onCloseCode
    · exact hdrop.idle rfl htimer h.manual h.authentication
    · rfl
  · exact h

theorem Inv.dispatch (h : Inv s) (hi : i < s.nextSocket) (e : SocketEvent) :
    Inv (dispatch i e (UseTerminalSocket.delivered i e s)) := by
  have hnext := h.delivered i e
  unfold UseTerminalSocket.dispatch
  split
  · rename_i hlisten
    cases e with
    | opened =>
        simp only [handler, UseTerminalSocket.onOpen]
        split
        · exact hnext.shown _ _ _ _ _
        · exact hnext
    | message data => exact hnext.onMessage i data
    | error =>
        simp only [handler, UseTerminalSocket.onError]
        split
        · exact hnext.shown _ _ _ _ _
        · exact hnext
    | closed code =>
        exact hnext.onClose hi hlisten
          (by simp [UseTerminalSocket.delivered, State.setSocket]) code
  · exact hnext

/-!
## Effects and commands
-/

theorem Inv.reconnectBehaviorEffect (h : Inv s) (b : ReconnectBehavior)
    (made : Bool) : Inv (reconnectBehaviorEffect b made s) := by
  unfold UseTerminalSocket.reconnectBehaviorEffect
  have hset : Inv { s with reconnectBehaviorRef := b } :=
    ⟨⟨h.timers, h.owner, h.current, h.others, h.generations⟩, h.retry,
      h.stopped, h.manual, h.authentication⟩
  dsimp only
  split
  · exact hset
  · rename_i hauth
    cases b with
    | manual =>
        dsimp only
        split
        · exact hset
        · rename_i htimer
          have hnone := (h.retry htimer).2
          have hcancel := hset.toBase.cancelRetry
          rw [hset.cancelled] at hcancel ⊢
          have hbump := hcancel.bump hnone
          apply Base.idle
          · exact ⟨hbump.timers, hbump.owner, hbump.current, hbump.others,
              hbump.generations⟩
          · exact hnone
          · rfl
          · exact fun _ => rfl
          · exact fun _ => rfl
    | automatic =>
        dsimp only
        split
        · rename_i hmanual
          have hnone := h.stopped (h.manual hmanual)
          have hflags : Base
              { s with
                reconnectBehaviorRef := ReconnectBehavior.automatic
                manualSuspendedRef := false
                stoppedRef := false } :=
            ⟨h.timers, h.owner, h.current, h.others, h.generations⟩
          have hcancel := hflags.cancelRetry
          unfold resume
          rw [hflags.cancelled] at hcancel ⊢
          have hidle := hcancel.idle hnone rfl nofun
            fun ha => absurd ha hauth
          exact (hidle.shown _ _ _ _ _).runConnect hnone made
        · exact hset

theorem reconnectBehaviorEffect_quiet {b : ReconnectBehavior}
    (htimer : s.retryTimerRef = none)
    (hquiet : b = ReconnectBehavior.automatic ->
      s.authenticationSuspendedRef = false -> s.manualSuspendedRef = false) :
    reconnectBehaviorEffect b made s = { s with reconnectBehaviorRef := b } := by
  unfold reconnectBehaviorEffect
  dsimp only
  split
  · rfl
  · rename_i hauth
    cases b with
    | manual => rfl
    | automatic =>
        have hmanual := hquiet rfl (Bool.eq_false_iff.mpr hauth)
        simp only [hmanual, Bool.false_eq_true, if_false]

theorem cancelRetry_socket (s : State) :
    (cancelRetry s).socketRef = s.socketRef := by
  obtain ⟨timers, heq⟩ := cancelRetry_eq s
  rw [heq]

theorem scheduleRetry_socket (d : Dependencies) (message : Option JsString)
    (s : State) : (scheduleRetry d message s).socketRef = s.socketRef := by
  unfold scheduleRetry
  split
  · rfl
  · split
    · exact cancelRetry_socket _
    · exact cancelRetry_socket s

theorem cancelRetry_restored (s : State) :
    (cancelRetry s).restoredManualSuspension = s.restoredManualSuspension := by
  obtain ⟨timers, heq⟩ := cancelRetry_eq s
  rw [heq]

theorem scheduleRetry_restored (d : Dependencies) (message : Option JsString)
    (s : State) : (scheduleRetry d message s).restoredManualSuspension =
      s.restoredManualSuspension := by
  unfold scheduleRetry
  split
  · rfl
  · split
    · exact cancelRetry_restored _
    · exact cancelRetry_restored s

theorem resume_socket (s : State) : (resume s).socketRef = s.socketRef :=
  cancelRetry_socket _

theorem resume_restored (s : State) :
    (resume s).restoredManualSuspension = s.restoredManualSuspension :=
  cancelRetry_restored _

theorem connect_restored (d : Dependencies) (made : Bool) (s : State) :
    (connect d made s).restoredManualSuspension =
      s.restoredManualSuspension := by
  unfold connect
  split
  · rfl
  · cases made with
    | true => exact cancelRetry_restored s
    | false => exact (scheduleRetry_restored d _ _).trans (cancelRetry_restored s)

theorem runConnect_failed (hnone : s.socketRef = none) :
    (runConnect false s).socketRef = none ∧
      (runConnect false s).restoredManualSuspension =
        s.restoredManualSuspension := by
  unfold runConnect
  split
  · exact ⟨hnone, rfl⟩
  · rename_i d _
    refine ⟨?_, connect_restored d false s⟩
    unfold connect
    split
    · exact hnone
    · exact scheduleRetry_socket _ _ _

theorem Inv.connectionEffect (h : Inv s) (hnone : s.socketRef = none)
    (hrestored : s.restoredManualSuspension = true -> s.retryTimerRef = none)
    (made : Bool) : Inv (connectionEffect made s) := by
  unfold UseTerminalSocket.connectionEffect
  dsimp only
  have hbase : Base
      { s with
        stoppedRef := s.restoredManualSuspension
        manualSuspendedRef := s.restoredManualSuspension
        authenticationSuspendedRef := false } :=
    ⟨h.timers, h.owner, h.current, h.others, h.generations⟩
  have hset : Inv
      { s with
        stoppedRef := s.restoredManualSuspension
        manualSuspendedRef := s.restoredManualSuspension
        authenticationSuspendedRef := false } := by
    refine ⟨hbase, ?_, fun _ => hnone, fun hm => hm, nofun⟩
    intro hne
    refine ⟨?_, hnone⟩
    cases hr : s.restoredManualSuspension with
    | false => rfl
    | true => exact absurd (hrestored hr) hne
  split
  · exact hset
  · exact hset.runConnect hnone made

theorem Inv.stopRelease (h : Inv s) (manual : Bool) :
    Inv (release
      { s with
        stoppedRef := true
        manualSuspendedRef := manual }) ∧
      exists sockets, release
        { s with
          stoppedRef := true
          manualSuspendedRef := manual } =
        released
          { s with
            stoppedRef := true
            manualSuspendedRef := manual } sockets := by
  have hset : Base
      { s with
        stoppedRef := true
        manualSuspendedRef := manual } :=
    ⟨h.timers, h.owner, h.current, h.others, h.generations⟩
  obtain ⟨sockets, heq, hbase, _⟩ := hset.release
  rw [heq]
  exact ⟨hbase.idle rfl rfl (fun _ => rfl) fun _ => rfl, sockets, rfl⟩

theorem Inv.disconnect (h : Inv s) : Inv (disconnect s) :=
  (h.stopRelease false).1.shown _ _ _ _ _

theorem Inv.connectionCleanup (h : Inv s) :
    Inv (connectionCleanup s) ∧
      exists sockets, connectionCleanup s =
        released { s with stoppedRef := true } sockets :=
  h.stopRelease s.manualSuspendedRef

theorem Inv.reconnect (h : Inv s) (made : Bool) : Inv (reconnect made s) := by
  unfold UseTerminalSocket.reconnect
  split
  · exact h
  · rename_i hauth
    have hset : Base
        { s.record (Entry.clearTerminalAuthSuspension s.deps.sessionId) with
          stoppedRef := false
          manualSuspendedRef := false } :=
      ⟨h.timers, h.owner, h.current, h.others, h.generations⟩
    obtain ⟨sockets, heq, hbase, _⟩ := hset.release
    dsimp only
    rw [heq]
    have hidle := hbase.idle rfl rfl nofun fun ha => absurd ha hauth
    exact (hidle.shown _ _ _ _ _).runConnect rfl made

/-!
## Commits
-/

/-- One commit ends a manual suspension and changes the connect dependencies.
It does no harm when the first connection fails and nothing was restored. -/
def Clash (s : State) : Event -> Prop
  | Event.commit d b made _ => d ≠ s.deps ∧
      s.reconnectBehaviorRef = ReconnectBehavior.manual ∧
      b = ReconnectBehavior.automatic ∧ s.manualSuspendedRef = true ∧
      s.authenticationSuspendedRef = false ∧
      (made = true ∨ s.restoredManualSuspension = true)
  | _ => False

theorem commit_same {b : ReconnectBehavior} {made made' : Bool} :
    commit s.deps b made made' s =
      if b ≠ s.reconnectBehaviorRef then reconnectBehaviorEffect b made s
      else s := by
  simp [commit]

theorem commit_other {b : ReconnectBehavior} {made made' : Bool}
    (hd : d ≠ s.deps) :
    commit d b made made' s =
      connectionEffect made'
        (if b ≠ s.reconnectBehaviorRef then
          reconnectBehaviorEffect b made
            { connectionCleanup s with
              deps := d
              connectRef := some d }
        else
          { connectionCleanup s with
            deps := d
            connectRef := some d }) := by
  have hbehavior : (connectionCleanup s).reconnectBehaviorRef =
      s.reconnectBehaviorRef := by
    unfold connectionCleanup release closeCurrent removeSocketListeners
    obtain ⟨timers, heq⟩ := cancelRetry_eq { s with stoppedRef := true }
    rw [heq]
    dsimp only
    split <;> split <;> rfl
  simp [commit, hd, connectRefEffect]

theorem Inv.effects (h : Inv s) (hsocket : s.socketRef = none)
    (htimer : s.retryTimerRef = none) {b : ReconnectBehavior}
    {made made' : Bool}
    (hcalm : b = ReconnectBehavior.automatic ->
      s.authenticationSuspendedRef = false -> s.manualSuspendedRef = true ->
        made = false ∧ s.restoredManualSuspension = false) :
    Inv (UseTerminalSocket.connectionEffect made'
      (UseTerminalSocket.reconnectBehaviorEffect b made s)) := by
  have heffect := h.reconnectBehaviorEffect b made
  by_cases hquiet : b = ReconnectBehavior.automatic ->
      s.authenticationSuspendedRef = false -> s.manualSuspendedRef = false
  · rw [reconnectBehaviorEffect_quiet htimer hquiet] at heffect ⊢
    exact heffect.connectionEffect hsocket (fun _ => htimer) made'
  · -- the effect resumes, and its connection fails
    obtain ⟨hauto, hrest⟩ := Classical.not_imp.mp hquiet
    obtain ⟨hauth, hmanual⟩ := Classical.not_imp.mp hrest
    have hsuspended := (Bool.not_eq_false _).mp hmanual
    obtain ⟨hmade, hrestored⟩ := hcalm hauto hauth hsuspended
    subst hauto hmade
    have hresume : UseTerminalSocket.reconnectBehaviorEffect
        ReconnectBehavior.automatic false s =
        UseTerminalSocket.runConnect false (resume
          { s with reconnectBehaviorRef := ReconnectBehavior.automatic }) := by
      simp only [UseTerminalSocket.reconnectBehaviorEffect, hauth, hsuspended,
        Bool.false_eq_true, if_false, if_true]
    rw [hresume] at heffect ⊢
    obtain ⟨hfailed, hsame⟩ := runConnect_failed
      ((resume_socket { s with
        reconnectBehaviorRef := ReconnectBehavior.automatic }).trans hsocket)
    apply heffect.connectionEffect hfailed
    intro hres
    rw [hsame, resume_restored] at hres
    rw [show s.restoredManualSuspension = true from hres] at hrestored
    cases hrestored

theorem Inv.commit (h : Inv s) {b : ReconnectBehavior} {made made' : Bool}
    (hcalm : ¬ Clash s (Event.commit d b made made')) :
    Inv (commit d b made made' s) := by
  by_cases hd : d = s.deps
  · subst hd
    rw [commit_same]
    split
    · exact h.reconnectBehaviorEffect b made
    · exact h
  · rw [commit_other hd]
    obtain ⟨hclean, sockets, heq⟩ := h.connectionCleanup
    rw [heq] at hclean ⊢
    have hset : Inv
        { released { s with stoppedRef := true } sockets with
          deps := d
          connectRef := some d } :=
      ⟨⟨hclean.timers, hclean.owner, hclean.current, hclean.others,
        hclean.generations⟩, hclean.retry, hclean.stopped, hclean.manual,
        hclean.authentication⟩
    split
    · rename_i hb
      apply hset.effects rfl rfl
      intro hauto hauth hmanual
      have hbehavior : s.reconnectBehaviorRef = ReconnectBehavior.manual := by
        rw [hauto] at hb
        cases hr : s.reconnectBehaviorRef with
        | manual => rfl
        | automatic => exact absurd hr.symm hb
      have hrest : ¬ (made = true ∨ s.restoredManualSuspension = true) :=
        fun hr => hcalm ⟨hd, hbehavior, hauto, hmanual, hauth, hr⟩
      exact ⟨Bool.eq_false_iff.mpr (not_or.mp hrest).1,
        Bool.eq_false_iff.mpr (not_or.mp hrest).2⟩
    · exact hset.connectionEffect rfl (fun _ => rfl) made'

/-!
## Every run
-/

theorem Inv.timer (h : Inv s) {t delay : Nat} (ht : (t, delay) ∈ s.timers)
    (made : Bool) : Inv (perform (Event.timer t made) s) := by
  have href : s.retryTimerRef = some t := h.timers _ ht
  have hnone := (h.retry (by rw [href]; nofun)).2
  have hset : Inv
      { s with timers := s.timers.filter fun timer => timer.1 ≠ t } :=
    ⟨⟨fun timer htimer => h.timers timer (List.mem_filter.mp htimer).1,
      h.owner, h.current, h.others, h.generations⟩, h.retry, h.stopped,
      h.manual, h.authentication⟩
  exact hset.runConnect hnone made

theorem Inv.perform (h : Inv s) {e : Event} (hadmits : Admits s e)
    (hcalm : ¬ Clash s e) : Inv (perform e s) := by
  cases e with
  | socket i e => exact h.dispatch hadmits e
  | timer t made =>
      obtain ⟨delay, ht⟩ := hadmits
      exact h.timer ht made
  | microtask =>
      unfold UseTerminalSocket.perform
      dsimp only
      split
      · exact h
      · unfold runMicrotask
        split
        · exact h.shown _ _ _ _ _
        · exact h.shown _ _ _ _ _
  | reconnect made => exact h.reconnect made
  | disconnect => exact h.disconnect
  | commit d b made made' => exact h.commit hcalm
  | unmount =>
      have hclean := h.connectionCleanup.1
      exact ⟨⟨hclean.timers, hclean.owner, hclean.current, hclean.others,
        hclean.generations⟩, hclean.retry, hclean.stopped, hclean.manual,
        hclean.authentication⟩

theorem noted_eq (e : Event) (s : State) : exists log,
    noted e s = { s with log := log } := by
  unfold noted
  split
  · exact ⟨_, rfl⟩
  · exact ⟨s.log, rfl⟩

theorem Inv.step (h : Inv s) {e : Event} (hadmits : Admits s e)
    (hcalm : ¬ Clash s e) : Inv (step e s) := by
  obtain ⟨log, heq⟩ := noted_eq e s
  have hnoted := h.shown s.status s.error s.retryAttemptRef s.microtasks log
  unfold UseTerminalSocket.step
  rw [heq]
  apply hnoted.perform
  · cases e <;> exact hadmits
  · cases e <;> exact hcalm

theorem Inv.mount (d : Dependencies) (b : ReconnectBehavior)
    (suspended made made' : Bool) : Inv (mount d b suspended made made') := by
  have hfirst : Inv (connectRefEffect d (firstRender d b suspended)) :=
    ⟨⟨nofun, nofun, nofun, nofun, nofun⟩, fun hne => absurd rfl hne,
      fun _ => rfl, fun hm => hm, nofun⟩
  have heffect := hfirst.reconnectBehaviorEffect b made
  unfold UseTerminalSocket.mount
  have hquiet : b = ReconnectBehavior.automatic ->
      (connectRefEffect d
        (firstRender d b suspended)).authenticationSuspendedRef = false ->
      (connectRefEffect d
        (firstRender d b suspended)).manualSuspendedRef = false := by
    intro hb _
    simp [connectRefEffect, firstRender, hb]
  rw [reconnectBehaviorEffect_quiet rfl hquiet] at heffect ⊢
  exact heffect.connectionEffect rfl (fun _ => rfl) made'

theorem Inv.run (h : Inv s) (hrun : Run (fun s e => ¬ Clash s e) s s') :
    Inv s' := by
  induction hrun with
  | refl => exact h
  | tail _ hstep ih =>
      obtain ⟨e, hadmits, hcalm, heq⟩ := hstep
      rw [heq]
      exact ih.step hadmits hcalm

structure Owned (s : State) : Prop where
  /-- A socket that may be open is the one in the ref. -/
  owner : forall i, i < s.nextSocket -> (s.sockets i).closeCalled = false ->
    (s.sockets i).closeDelivered = false -> s.socketRef = some i
  /-- Of an event of any other socket nothing is seen. -/
  others : forall i e, i < s.nextSocket -> s.socketRef ≠ some i ->
    step (Event.socket i e) s = delivered i e s
  retry : s.timers ≠ [] -> s.stoppedRef = false ∧ s.socketRef = none

theorem delivered_socket (i : Nat) (e : SocketEvent) (s : State) :
    (delivered i e s).socketRef = s.socketRef ∧
      (delivered i e s).nextSocket = s.nextSocket := by
  cases e <;> exact ⟨rfl, rfl⟩

theorem noted_other {i : Nat} {e : SocketEvent} (hne : s.socketRef ≠ some i) :
    noted (Event.socket i e) s = s := by
  apply if_neg
  cases e <;> simp [restarts, hne]

theorem Inv.perform_other (h : Inv s) {i : Nat} {e : SocketEvent}
    (hi : i < s.nextSocket) (hne : s.socketRef ≠ some i) :
    UseTerminalSocket.perform (Event.socket i e) s =
      UseTerminalSocket.delivered i e s := by
  have hnext := h.delivered i e
  obtain ⟨hsocket, hcount⟩ := delivered_socket i e s
  show UseTerminalSocket.dispatch i e (UseTerminalSocket.delivered i e s) = _
  unfold UseTerminalSocket.dispatch
  split
  · rename_i hlisten
    have hold : ¬ (UseTerminalSocket.delivered i e s).isCurrent i := by
      intro hcurrent
      have href := hnext.others i (hcount ▸ hi) hlisten hcurrent
      rw [hsocket] at href
      exact hne href
    cases e with
    | opened => exact if_neg hold
    | message data => exact if_neg hold
    | error => exact if_neg hold
    | closed code => exact if_neg hold
  · rfl

theorem Inv.owned (h : Inv s) : Owned s := by
  constructor
  · exact fun i hi hcalled hdelivered => h.owner i hi ⟨hcalled, hdelivered⟩
  · intro i e hi hne
    unfold UseTerminalSocket.step
    rw [noted_other hne]
    exact h.perform_other hi hne
  · intro hne
    obtain ⟨timer, htimer⟩ := List.exists_mem_of_ne_nil _ hne
    apply h.retry
    rw [h.timers timer htimer]
    nofun

/-- In every run without such a commit the socket in the ref is the only one
that may be open. -/
theorem sockets_owned (d : Dependencies) (b : ReconnectBehavior)
    (suspended made made' : Bool)
    (h : Run (fun s e => ¬ Clash s e) (mount d b suspended made made') s) :
    Owned s :=
  ((Inv.mount d b suspended made made').run h).owned

/-!
## The commit that leaves a socket open

The connection is lost in manual mode.  Then one commit turns to automatic mode
and changes the longest delay.
-/

def sampleDependencies : Dependencies := ⟨js "/", js "a", 30, 0⟩

def sampleMount : State :=
  mount sampleDependencies ReconnectBehavior.manual false true true

def sampleLost : State :=
  step (Event.socket 0 (SocketEvent.closed 1006)) sampleMount

def sampleCommit : Event :=
  Event.commit { sampleDependencies with reconnectMaxSeconds := 60 }
    ReconnectBehavior.automatic true true

theorem sampleLost_run (permitted : State -> Event -> Prop)
    (h : permitted sampleMount (Event.socket 0 (SocketEvent.closed 1006))) :
    Run permitted sampleMount sampleLost := by
  have hadmits : Admits sampleMount
      (Event.socket 0 (SocketEvent.closed 1006)) := by
    show 0 < sampleMount.nextSocket
    decide
  exact Relation.ReflTransGen.single ⟨_, hadmits, h, rfl⟩

theorem sockets_owned_sample :
    Owned sampleLost ∧ sampleLost.manualSuspendedRef = true :=
  ⟨sockets_owned sampleDependencies ReconnectBehavior.manual false true true
    (sampleLost_run _ id), by decide⟩

/-- Both effects connect, and the first socket stays open. -/
theorem sockets_leaked :
    ¬ forall d b suspended made made' s,
      Run (fun _ _ => True) (mount d b suspended made made') s -> Owned s := by
  intro h
  have hrun : Run (fun _ _ => True) sampleMount
      (step sampleCommit sampleLost) :=
    (sampleLost_run _ trivial).tail ⟨sampleCommit, rfl, trivial, rfl⟩
  have howned := h sampleDependencies ReconnectBehavior.manual false true true
    _ hrun
  have hfirst := howned.owner 1 (by decide) (by decide) (by decide)
  have hsecond := howned.owner 2 (by decide) (by decide) (by decide)
  rw [hfirst] at hsecond
  cases hsecond

end UseTerminalSocket
end Client
end FlanTerminal

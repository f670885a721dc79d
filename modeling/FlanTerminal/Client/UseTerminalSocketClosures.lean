import FlanTerminal.Client.UseTerminalSocketSafety

/-!
# Closures that last

The code of a close event decides what follows.  Some codes stop the hook until
`reconnect()`, one stops it for good, and every other one sets a single timer
or, in manual mode, suspends.  While the hook is stopped nothing but a command
or a resumption starts it again.
-/

namespace FlanTerminal
namespace Client
namespace UseTerminalSocket

open Foundation
open Shared

variable {s s' : State} {i : Nat} {d : Dependencies} {made late : Bool}

/-- The retries since the count was started again. -/
def attempts (log : List Entry) : Nat :=
  log.foldl (fun n e =>
    match e with
    | Entry.scheduled _ => n + 1
    | Entry.restarted => 0
    | _ => n) 0

/-- The delay of a retry is that of its attempt. -/
def Timely (d : Dependencies) (before : List Entry) : Entry -> Prop
  | Entry.scheduled delay => delay = retryDelay d (attempts before)
  | _ => True

/-- The connect dependencies have not changed.  The counter goes with the log;
it may be `late` after an entry that starts the count again. -/
structure Kept (d : Dependencies) (late : Bool) (s : State) : Prop where
  deps : s.deps = d
  connect : forall d', s.connectRef = some d' -> d' = d
  sockets : forall i, (s.sockets i).deps = d
  attempt : s.retryAttemptRef = attempts s.log ∨
    (late = true ∧ attempts s.log = 0)
  delays : EveryEntry (Timely d) s.log

/-- An event that does not change them, and keeps the hook mounted. -/
def Steady (d : Dependencies) : Event -> Prop
  | Event.commit d' _ _ _ => d' = d
  | Event.unmount => False
  | _ => True

/-!
## The dependencies stay
-/

theorem Kept.same (h : Kept d late s) (hdeps : s'.deps = s.deps)
    (hconnect : s'.connectRef = s.connectRef)
    (hsockets : forall i, (s'.sockets i).deps = (s.sockets i).deps)
    (hattempt : s'.retryAttemptRef = s.retryAttemptRef)
    (hlog : s'.log = s.log) : Kept d late s' where
  deps := hdeps.trans h.deps
  connect d' hd := h.connect d' (hconnect ▸ hd)
  sockets i := (hsockets i).trans (h.sockets i)
  attempt := by
    rw [hattempt, hlog]
    exact h.attempt
  delays := hlog ▸ h.delays

theorem Kept.seen (h : Kept d late s) (status : ConnectionStatus)
    (error : Option JsString) :
    Kept d late
      { s with
        status := status
        error := error } :=
  h.same rfl rfl (fun _ => rfl) rfl rfl

theorem Kept.told (h : Kept d late s) (e : Entry)
    (hcount : attempts (s.log ++ [e]) = attempts s.log)
    (htimely : Timely d s.log e) : Kept d late (s.record e) := by
  refine ⟨h.deps, h.connect, h.sockets, ?_,
    everyEntry_snoc.mpr ⟨h.delays, htimely⟩⟩
  show _ = attempts (s.log ++ [e]) ∨ _ ∧ attempts (s.log ++ [e]) = 0
  rw [hcount]
  exact h.attempt

theorem Kept.restart (h : Kept d late s) :
    Kept d true (s.record Entry.restarted) ∧
      attempts (s.record Entry.restarted).log = 0 := by
  have hzero : attempts (s.log ++ [Entry.restarted]) = 0 := by
    simp [attempts]
  exact ⟨⟨h.deps, h.connect, h.sockets, Or.inr ⟨rfl, hzero⟩,
    everyEntry_snoc.mpr ⟨h.delays, trivial⟩⟩, hzero⟩

theorem Kept.reset (h : Kept d late s) (hzero : attempts s.log = 0) :
    Kept d false { s with retryAttemptRef := 0 } :=
  ⟨h.deps, h.connect, h.sockets, Or.inl hzero.symm, h.delays⟩

theorem Kept.counted (h : Kept d false s) :
    s.retryAttemptRef = attempts s.log :=
  h.attempt.resolve_right fun hlate => Bool.false_ne_true hlate.1

theorem Kept.cancelRetry (h : Kept d late s) :
    Kept d late (cancelRetry s) := by
  obtain ⟨timers, heq⟩ := cancelRetry_eq s
  rw [heq]
  exact h.same rfl rfl (fun _ => rfl) rfl rfl

theorem Kept.setTimer (h : Kept d false s) : Kept d false (setTimer d s) := by
  have htimely : Timely d s.log
      (Entry.scheduled (retryDelay d s.retryAttemptRef)) := by
    rw [h.counted]
    rfl
  refine ⟨h.deps, h.connect, h.sockets, Or.inl ?_,
    everyEntry_snoc.mpr ⟨h.delays, htimely⟩⟩
  show s.retryAttemptRef + 1 = attempts (s.log ++ [Entry.scheduled _])
  simp [attempts, h.counted]

theorem Kept.scheduleRetry (h : Kept d false s) (message : Option JsString) :
    Kept d false (scheduleRetry d message s) := by
  unfold UseTerminalSocket.scheduleRetry
  split
  · exact h.same rfl rfl (fun _ => rfl) rfl rfl
  · split
    · have hset : Kept d false
          { s with
            stoppedRef := true
            manualSuspendedRef := true } :=
        h.same rfl rfl (fun _ => rfl) rfl rfl
      exact hset.cancelRetry.seen _ _
    · exact (h.cancelRetry.seen _ _).setTimer

theorem Kept.setSocket (h : Kept d late s) (i : Nat) (f : Socket -> Socket)
    (hdeps : forall socket, (f socket).deps = socket.deps) :
    Kept d late (s.setSocket i f) := by
  have hsame : forall j,
      ((s.setSocket i f).sockets j).deps = (s.sockets j).deps := by
    intro j
    by_cases hj : j = i
    · rw [hj]
      simp [State.setSocket, hdeps]
    · simp [State.setSocket, hj]
  exact h.same rfl rfl hsame rfl rfl

theorem Kept.createSocket (h : Kept d late s) :
    Kept d late (createSocket d s) := by
  have hnext := h.told (Entry.created s.nextSocket) (by simp [attempts]) trivial
  refine ⟨hnext.deps, hnext.connect, ?_, hnext.attempt, hnext.delays⟩
  intro j
  by_cases hj : j = s.nextSocket
  · rw [hj]
    simp [UseTerminalSocket.createSocket]
  · simpa [UseTerminalSocket.createSocket, hj] using h.sockets j

theorem Kept.connect' (h : Kept d false s) (made : Bool) :
    Kept d false (UseTerminalSocket.connect d made s) := by
  unfold UseTerminalSocket.connect
  split
  · exact h
  · have hset := h.cancelRetry
    cases made with
    | true =>
        apply Kept.createSocket
        exact hset.same rfl rfl (fun _ => rfl) rfl rfl
    | false =>
        apply Kept.scheduleRetry
        exact hset.same rfl rfl (fun _ => rfl) rfl rfl

theorem Kept.runConnect (h : Kept d false s) (made : Bool) :
    Kept d false (runConnect made s) := by
  unfold UseTerminalSocket.runConnect
  split
  · exact h
  · rename_i d' hd
    rw [h.connect d' hd]
    exact h.connect' made

theorem Kept.removeSocketListeners (h : Kept d late s) :
    Kept d late (removeSocketListeners s) := by
  unfold UseTerminalSocket.removeSocketListeners
  split
  · exact h
  · rename_i i _
    have hset := h.setSocket i
      (fun socket => { socket with listening := false }) fun _ => rfl
    exact hset.same rfl rfl (fun _ => rfl) rfl rfl

theorem Kept.close (h : Kept d late s) (i : Nat) : Kept d late (s.close i) :=
  h.setSocket i _ fun _ => rfl

theorem Kept.release (h : Kept d late s) : Kept d late (release s) := by
  have hbump : Kept d late (UseTerminalSocket.removeSocketListeners
      { UseTerminalSocket.cancelRetry s with
        generationRef := (UseTerminalSocket.cancelRetry s).generationRef + 1 }) := by
    apply Kept.removeSocketListeners
    exact h.cancelRetry.same rfl rfl (fun _ => rfl) rfl rfl
  unfold UseTerminalSocket.release closeCurrent
  dsimp only
  split
  · exact hbump
  · exact (hbump.close _).same rfl rfl (fun _ => rfl) rfl rfl

/-!
## Events
-/

theorem Kept.onServerMessage (h : Kept d late s) (i : Nat)
    {message : ServerMessage}
    (hmessage : forall id, message ≠ ServerMessage.ready id) :
    Kept d late (onServerMessage i s message) := by
  cases message with
  | ready id => exact absurd rfl (hmessage id)
  | output id data =>
      exact h.told (Entry.output data) (by simp [attempts]) trivial
  | error id code => exact (h.close i).seen _ _

theorem Kept.onMessage (h : Kept d late s) (i : Nat) {data : RawData}
    (hready : isReady s.deps.sessionId data = false) :
    Kept d late (onMessage i data s) := by
  unfold UseTerminalSocket.onMessage
  split
  · split
    · exact (h.close i).seen _ _
    · rename_i message hparse
      split
      · exact (h.close i).seen _ _
      · rename_i hsession
        apply h.onServerMessage i
        intro id hid
        rw [hid, h.sockets i, not_not] at hsession
        simp [isReady, hparse, hid, h.deps, ← hsession, sessionOf] at hready
  · exact h

theorem Kept.ready (h : Kept d late s) (hcurrent : s.isCurrent i)
    {data : RawData} (hready : isReady s.deps.sessionId data = true) :
    UseTerminalSocket.onMessage i data s =
      { s with
        retryAttemptRef := 0
        status := ConnectionStatus.connected
        error := none } := by
  unfold isReady at hready
  split at hready
  · rename_i id hparse
    have hid : id = s.deps.sessionId := of_decide_eq_true hready
    have hsession : ¬ sessionOf (ServerMessage.ready id) ≠
        (s.sockets i).deps.sessionId := by
      rw [h.sockets i, ← h.deps]
      exact not_not.mpr hid
    unfold UseTerminalSocket.onMessage
    rw [if_pos hcurrent, hparse]
    show (if _ then _ else _) = _
    rw [if_neg hsession]
    rfl
  · cases hready

theorem Kept.onCloseCode (h : Kept d false s) (code : Nat) :
    Kept d false (onCloseCode d code s) := by
  have hstop : Kept d false { s with stoppedRef := true } :=
    h.same rfl rfl (fun _ => rfl) rfl rfl
  unfold UseTerminalSocket.onCloseCode
  split
  · have htold := h.told (Entry.suspendTerminalAuthLifecycle d.sessionId)
      (by simp [attempts]) trivial
    have hset : Kept d false
        { s.record (Entry.suspendTerminalAuthLifecycle d.sessionId) with
          authenticationSuspendedRef := true
          stoppedRef := true } :=
      htold.same rfl rfl (fun _ => rfl) rfl rfl
    have hend := hset.cancelRetry.told Entry.onAuthenticationRequired
      (by simp [attempts]) trivial
    exact hend.same rfl rfl (fun _ => rfl) rfl rfl
  · split
    · exact hstop.cancelRetry.seen _ _
    · split
      · apply Kept.seen
        apply hstop.cancelRetry.told
        · split <;> simp [attempts]
        · split <;> trivial
      · split
        · exact h.scheduleRetry none
        · split
          · exact h.seen _ s.error
          · exact h.scheduleRetry none

theorem Kept.onClose (h : Kept d false s) (i : Nat) (code : Nat) :
    Kept d false (onClose i code s) := by
  unfold UseTerminalSocket.onClose
  split
  · have hremoved := h.removeSocketListeners
    dsimp only
    rw [hremoved.sockets i]
    apply Kept.onCloseCode
    exact hremoved.same rfl rfl (fun _ => rfl) rfl rfl
  · exact h

theorem Kept.delivered (h : Kept d late s) (i : Nat) (e : SocketEvent) :
    Kept d late (delivered i e s) := by
  cases e with
  | closed code =>
      exact h.setSocket i
        (fun socket => { socket with closeDelivered := true }) fun _ => rfl
  | _ => exact h

theorem Kept.socket (h : Kept d false s) (hinv : Inv s) {e : SocketEvent}
    (hi : i < s.nextSocket) (hcount : restarts s (Event.socket i e) = false) :
    Kept d false (UseTerminalSocket.perform (Event.socket i e) s) := by
  have hdelivered := h.delivered i e
  by_cases hsocket : s.socketRef = some i
  · show Kept d false (dispatch i e (UseTerminalSocket.delivered i e s))
    unfold dispatch
    split
    · cases e with
      | opened => simp [restarts, hsocket] at hcount
      | message data =>
          apply h.onMessage i
          simpa [restarts, hsocket] using hcount
      | error =>
          simp only [handler, onError]
          split
          · exact hdelivered.seen s.status _
          · exact hdelivered
      | closed code => exact hdelivered.onClose i code
    · exact hdelivered
  · rw [hinv.perform_other hi hsocket]
    exact hdelivered

theorem Kept.behavior (h : Kept d late s) (b : ReconnectBehavior) :
    Kept d late { s with reconnectBehaviorRef := b } :=
  h.same rfl rfl (fun _ => rfl) rfl rfl

theorem Kept.reconnectBehaviorEffect (h : Kept d late s)
    (b : ReconnectBehavior) (made : Bool)
    (hquiet : b = ReconnectBehavior.automatic ->
      s.authenticationSuspendedRef = false -> s.manualSuspendedRef = false) :
    Kept d late (reconnectBehaviorEffect b made s) := by
  have hset := h.behavior b
  unfold UseTerminalSocket.reconnectBehaviorEffect
  dsimp only
  split
  · exact hset
  · rename_i hauth
    cases b with
    | manual =>
        dsimp only
        split
        · exact hset
        · exact hset.cancelRetry.same rfl rfl (fun _ => rfl) rfl rfl
    | automatic =>
        have hmanual : ¬ s.manualSuspendedRef = true := by
          rw [hquiet rfl (Bool.eq_false_iff.mpr hauth)]
          exact Bool.false_ne_true
        dsimp only
        rw [if_neg hmanual]
        exact hset

/-- What an event does that starts a count: it sets the counter, and then it
may connect. -/
def Restarted (d : Dependencies) (s s' : State) : Prop :=
  (exists status error, s' =
    { s with
      retryAttemptRef := 0
      status := status
      error := error }) ∨
  exists made s1, s' = runConnect made s1 ∧ Kept d false s1 ∧
    s1.socketRef = none ∧ s1.retryAttemptRef = 0

theorem Kept.resume (h : Kept d late s) (hinv : Inv s)
    (hzero : attempts s.log = 0)
    (hauth : s.authenticationSuspendedRef = false)
    (hmanual : s.manualSuspendedRef = true) (made : Bool) :
    Restarted d s (UseTerminalSocket.reconnectBehaviorEffect
      ReconnectBehavior.automatic made s) := by
  have hresumes : UseTerminalSocket.reconnectBehaviorEffect
      ReconnectBehavior.automatic made s =
      UseTerminalSocket.runConnect made (UseTerminalSocket.resume
        { s with reconnectBehaviorRef := ReconnectBehavior.automatic }) := by
    simp only [UseTerminalSocket.reconnectBehaviorEffect, hauth, hmanual,
      Bool.false_eq_true, if_false, if_true]
  refine Or.inr ⟨made, _, hresumes, ?_, ?_, rfl⟩
  · obtain ⟨timers, heq⟩ := cancelRetry_eq
      { s with
        reconnectBehaviorRef := ReconnectBehavior.automatic
        manualSuspendedRef := false
        stoppedRef := false }
    unfold UseTerminalSocket.resume
    dsimp only
    rw [heq]
    have hset : Kept d late
        { s with
          reconnectBehaviorRef := ReconnectBehavior.automatic
          manualSuspendedRef := false
          stoppedRef := false
          timers := timers
          retryTimerRef := none } :=
      h.same rfl rfl (fun _ => rfl) rfl rfl
    exact hset.reset hzero
  · rw [resume_socket]
    exact hinv.stopped (hinv.manual hmanual)

theorem Kept.disconnect (h : Kept d late s) : Kept d late (disconnect s) := by
  have hset : Kept d late
      { s with
        stoppedRef := true
        manualSuspendedRef := false } :=
    h.same rfl rfl (fun _ => rfl) rfl rfl
  exact hset.release.seen _ (UseTerminalSocket.release
    { s with
      stoppedRef := true
      manualSuspendedRef := false }).error

theorem release_log (s : State) : (release s).log = s.log := by
  obtain ⟨timers, heq⟩ := cancelRetry_eq s
  unfold release closeCurrent UseTerminalSocket.removeSocketListeners
  rw [heq]
  dsimp only
  split
  · split <;> rfl
  · split <;> rfl

theorem release_socket (s : State) : (release s).socketRef = none := by
  unfold release closeCurrent
  dsimp only
  split
  · assumption
  · rfl

theorem Kept.reconnect (h : Kept d late s) (hzero : attempts s.log = 0)
    (hauth : s.authenticationSuspendedRef = false) (made : Bool) :
    Restarted d s (reconnect made s) := by
  have htold := h.told
    (Entry.clearTerminalAuthSuspension s.deps.sessionId)
    (by simp [attempts]) trivial
  have hset : Kept d late
      { s.record (Entry.clearTerminalAuthSuspension s.deps.sessionId) with
        stoppedRef := false
        manualSuspendedRef := false } :=
    htold.same rfl rfl (fun _ => rfl) rfl rfl
  have hreset := hset.release.reset (by
    rw [release_log]
    simpa [State.record, attempts] using hzero)
  unfold UseTerminalSocket.reconnect
  rw [hauth]
  exact Or.inr ⟨made, _, rfl, hreset.same rfl rfl (fun _ => rfl) rfl rfl,
    release_socket _, rfl⟩

theorem Kept.perform (h : Kept d false s) (hinv : Inv s) {e : Event}
    (hadmits : Admits s e) (hsteady : Steady d e)
    (hcount : restarts s e = false) : Kept d false (perform e s) := by
  cases e with
  | socket i e => exact h.socket hinv hadmits hcount
  | timer t made =>
      apply Kept.runConnect
      exact h.same rfl rfl (fun _ => rfl) rfl rfl
  | microtask =>
      unfold UseTerminalSocket.perform
      dsimp only
      split
      · exact h
      · unfold runMicrotask
        split
        · exact h.same rfl rfl (fun _ => rfl) rfl rfl
        · exact h.same rfl rfl (fun _ => rfl) rfl rfl
  | reconnect made =>
      have hauth : s.authenticationSuspendedRef = true := by
        simpa [restarts] using hcount
      have hsame : UseTerminalSocket.reconnect made s = s := if_pos hauth
      show Kept d false (UseTerminalSocket.reconnect made s)
      rw [hsame]
      exact h
  | disconnect => exact h.disconnect
  | commit d' b made made' =>
      have hd : d' = s.deps := Eq.trans hsteady h.deps.symm
      subst hd
      show Kept d false (commit s.deps b made made' s)
      rw [commit_same]
      split
      · rename_i hchanged
        apply h.reconnectBehaviorEffect b made
        intro hb hauth
        by_contra hmanual
        have hnot : ¬ (b = ReconnectBehavior.automatic ∧
            b ≠ s.reconnectBehaviorRef ∧ s.manualSuspendedRef = true ∧
            s.authenticationSuspendedRef = false) := of_decide_eq_false hcount
        exact hnot ⟨hb, hchanged, (Bool.not_eq_false _).mp hmanual, hauth⟩
      · exact h
  | unmount => exact hsteady.elim

theorem Kept.restarting (h : Kept d late s) (hinv : Inv s)
    (hzero : attempts s.log = 0) {e : Event} (hsteady : Steady d e)
    (hcount : restarts s e = true) :
    Restarted d s (UseTerminalSocket.perform e s) := by
  cases e with
  | socket i e =>
      cases e with
      | opened =>
          have hsocket : s.socketRef = some i := of_decide_eq_true hcount
          obtain ⟨_, hcurrent, _, hlisten⟩ := hinv.current i hsocket
          refine Or.inl ⟨s.status, s.error, ?_⟩
          show dispatch i SocketEvent.opened s = _
          unfold dispatch handler onOpen
          rw [if_pos hlisten]
          exact if_pos hcurrent
      | message data =>
          obtain ⟨hsocket, hready⟩ := of_decide_eq_true hcount
          obtain ⟨_, hcurrent, _, hlisten⟩ := hinv.current i hsocket
          refine Or.inl ⟨ConnectionStatus.connected, none, ?_⟩
          show dispatch i (SocketEvent.message data) s = _
          unfold dispatch
          rw [if_pos hlisten]
          exact h.ready hcurrent hready
      | error => cases hcount
      | closed code => cases hcount
  | timer t made => cases hcount
  | microtask => cases hcount
  | reconnect made =>
      exact h.reconnect hzero (by simpa [restarts] using hcount) made
  | disconnect => cases hcount
  | commit d' b made made' =>
      obtain ⟨hb, hchanged, hmanual, hauth⟩ := of_decide_eq_true hcount
      have hd : d' = s.deps := Eq.trans hsteady h.deps.symm
      subst hd
      show Restarted _ s (commit s.deps b made made' s)
      rw [commit_same, if_pos hchanged, hb]
      exact h.resume hinv hzero hauth hmanual made
  | unmount => cases hcount

theorem Restarted.kept (h : Restarted d s s') (hkept : Kept d late s)
    (hzero : attempts s.log = 0) : Kept d false s' := by
  rcases h with ⟨status, error, heq⟩ | ⟨made, s1, heq, hnext, _⟩
  · rw [heq]
    exact (hkept.reset hzero).seen status error
  · rw [heq]
    exact hnext.runConnect made

theorem runConnect_counter (hnone : s.socketRef = none)
    (hi : (runConnect made s).socketRef = some i) :
    (runConnect made s).retryAttemptRef = s.retryAttemptRef := by
  cases made with
  | false =>
      rw [(runConnect_failed hnone).1] at hi
      cases hi
  | true =>
      obtain ⟨timers, heq⟩ := cancelRetry_eq s
      unfold runConnect connect
      split
      · rfl
      · split
        · rfl
        · rw [heq]
          rfl

theorem Restarted.counter (h : Restarted d s s')
    (hi : s'.socketRef = some i) : s'.retryAttemptRef = 0 := by
  rcases h with ⟨status, error, heq⟩ | ⟨made, s1, heq, _, hnone, hzero⟩
  · rw [heq]
  · rw [heq] at hi ⊢
    rw [runConnect_counter hnone hi, hzero]

/-- The step that starts a count, from where that is written down. -/
theorem Kept.restarted (h : Kept d false s) (hinv : Inv s) {e : Event}
    (hsteady : Steady d e) (hcount : restarts s e = true) :
    Restarted d (s.record Entry.restarted) (step e s) ∧
      Kept d false (step e s) := by
  obtain ⟨hlate, hzero⟩ := h.restart
  have hnoted : Inv (s.record Entry.restarted) :=
    hinv.shown s.status s.error s.retryAttemptRef s.microtasks _
  have hrestarted : Restarted d (s.record Entry.restarted)
      (UseTerminalSocket.perform e (s.record Entry.restarted)) := by
    apply hlate.restarting hnoted hzero hsteady
    cases e <;> exact hcount
  unfold UseTerminalSocket.step noted
  rw [if_pos hcount]
  exact ⟨hrestarted, hrestarted.kept hlate hzero⟩

theorem Kept.step (h : Kept d false s) (hinv : Inv s) {e : Event}
    (hadmits : Admits s e) (hsteady : Steady d e) :
    Kept d false (step e s) := by
  by_cases hcount : restarts s e = true
  · exact (h.restarted hinv hsteady hcount).2
  · unfold UseTerminalSocket.step noted
    rw [if_neg hcount]
    exact h.perform hinv hadmits hsteady (Bool.eq_false_iff.mpr hcount)

theorem Kept.mount (d : Dependencies) (b : ReconnectBehavior)
    (suspended made made' : Bool) :
    Kept d false (mount d b suspended made made') := by
  have hfirst : Kept d false
      (connectRefEffect d (firstRender d b suspended)) := by
    refine ⟨rfl, ?_, fun _ => rfl, Or.inl ?_, ?_⟩
    · intro d' hd
      cases hd
      rfl
    · cases b <;> rfl
    · cases b with
      | automatic =>
          have htimely : Timely d []
              (Entry.clearTerminalAuthSuspension d.sessionId) := trivial
          exact everyEntry_snoc.mpr ⟨everyEntry_nil (Timely d), htimely⟩
      | manual => exact everyEntry_nil _
  have heffect := hfirst.reconnectBehaviorEffect b made (by
    intro hb _
    simp [connectRefEffect, firstRender, hb])
  unfold UseTerminalSocket.mount connectionEffect
  dsimp only
  split
  · exact heffect.same rfl rfl (fun _ => rfl) rfl rfl
  · apply Kept.runConnect
    exact heffect.same rfl rfl (fun _ => rfl) rfl rfl

/-!
## While the hook is stopped
-/

theorem Kept.calm (h : Kept d false s) {e : Event} (hsteady : Steady d e) :
    ¬ Clash s e := by
  cases e with
  | commit d' b made made' =>
      intro hclash
      exact hclash.1 (Eq.trans hsteady h.deps.symm)
  | _ => exact id

/-- What an event leaves alone while the hook is stopped. -/
structure Still (s s' : State) : Prop where
  created : s'.nextSocket = s.nextSocket
  stopped : s'.stoppedRef = true
  manual : s.manualSuspendedRef = false -> s'.manualSuspendedRef = false
  authentication : s'.authenticationSuspendedRef = s.authenticationSuspendedRef
  log : s'.log = s.log

theorem Still.refl (h : s.stoppedRef = true) : Still s s :=
  ⟨rfl, h, id, rfl, rfl⟩

theorem Still.trans {s'' : State} (h : Still s s') (h' : Still s' s'') :
    Still s s'' :=
  ⟨h'.created.trans h.created, h'.stopped, fun hm => h'.manual (h.manual hm),
    h'.authentication.trans h.authentication, h'.log.trans h.log⟩

/-- The event neither reconnects nor ends a manual suspension. -/
def Idle (s : State) : Event -> Prop
  | Event.reconnect _ => s.authenticationSuspendedRef = true
  | Event.commit _ b _ _ => b = ReconnectBehavior.automatic ->
      s.manualSuspendedRef = false
  | _ => True

theorem noted_idle (hnone : s.socketRef = none) {e : Event}
    (hidle : Idle s e) : noted e s = s := by
  apply if_neg
  cases e with
  | socket i e => cases e <;> simp [restarts, hnone]
  | reconnect made =>
      have hauth : s.authenticationSuspendedRef = true := hidle
      simp [restarts, hauth]
  | commit d b made made' =>
      intro hcount
      obtain ⟨hb, _, hmanual, _⟩ := of_decide_eq_true hcount
      rw [hidle hb] at hmanual
      cases hmanual
  | timer t made => exact Bool.false_ne_true
  | microtask => exact Bool.false_ne_true
  | disconnect => exact Bool.false_ne_true
  | unmount => exact Bool.false_ne_true

theorem still_step (h : Inv s) (hkept : Kept d false s)
    (hstopped : s.stoppedRef = true) {e : Event} (hadmits : Admits s e)
    (hsteady : Steady d e) (hidle : Idle s e) : Still s (step e s) := by
  have hnone := h.stopped hstopped
  unfold step
  rw [noted_idle hnone hidle]
  cases e with
  | socket i e =>
      rw [h.perform_other hadmits (by rw [hnone]; nofun)]
      cases e with
      | closed code => exact ⟨rfl, hstopped, id, rfl, rfl⟩
      | _ => exact Still.refl hstopped
  | timer t made =>
      obtain ⟨delay, ht⟩ := hadmits
      have hrunning := (h.owned.retry (List.ne_nil_of_mem ht)).1
      rw [hstopped] at hrunning
      cases hrunning
  | microtask =>
      unfold perform
      dsimp only
      split
      · exact Still.refl hstopped
      · unfold runMicrotask
        split
        · exact ⟨rfl, hstopped, id, rfl, rfl⟩
        · exact ⟨rfl, hstopped, id, rfl, rfl⟩
  | reconnect made =>
      have hsame : reconnect made s = s := if_pos hidle
      show Still s (reconnect made s)
      rw [hsame]
      exact Still.refl hstopped
  | disconnect =>
      obtain ⟨_, sockets, heq⟩ := h.stopRelease false
      show Still s (disconnect s)
      unfold disconnect
      rw [heq]
      exact ⟨rfl, rfl, fun _ => rfl, rfl, rfl⟩
  | commit d' b made made' =>
      have hd : d' = s.deps := Eq.trans hsteady hkept.deps.symm
      have htimer : s.retryTimerRef = none := by
        by_contra hne
        rw [(h.retry hne).1] at hstopped
        cases hstopped
      subst hd
      show Still s (commit s.deps b made made' s)
      rw [commit_same]
      split
      · rw [reconnectBehaviorEffect_quiet htimer fun hb _ => hidle hb]
        exact ⟨rfl, hstopped, id, rfl, rfl⟩
      · exact Still.refl hstopped
  | unmount => exact hsteady.elim

/-- Nothing starts the hook again along idle events. -/
theorem still_run {permitted : Event -> Prop} (h : Inv s)
    (hkept : Kept d false s) (hstopped : s.stoppedRef = true)
    (hidle : forall s' e, Still s s' -> permitted e -> Idle s' e)
    (hrun : Run (fun _ e => Steady d e ∧ permitted e) s s') :
    Inv s' ∧ Still s s' := by
  have hall : Inv s' ∧ Kept d false s' ∧ Still s s' := by
    induction hrun with
    | refl => exact ⟨h, hkept, Still.refl hstopped⟩
    | tail _ hstep ih =>
        obtain ⟨e, hadmits, ⟨hsteady, hpermitted⟩, heq⟩ := hstep
        obtain ⟨hinv, hkept', hstill⟩ := ih
        rw [heq]
        exact ⟨hinv.step hadmits (hkept'.calm hsteady),
          hkept'.step hinv hadmits hsteady,
          hstill.trans (still_step hinv hkept' hstill.stopped hadmits
            hsteady (hidle _ e hstill hpermitted))⟩
  exact ⟨hall.1, hall.2.2⟩

/-!
## The current socket closes
-/

def taken (i : Nat) (s : State) : State :=
  { s with
    sockets := Function.update s.sockets i
      { s.sockets i with
        listening := false
        closeDelivered := true }
    removeSocketListenersRef := none
    socketRef := none }

theorem closed_step (h : Inv s) (hi : s.socketRef = some i) (code : Nat) :
    step (Event.socket i (SocketEvent.closed code)) s =
      onCloseCode (s.sockets i).deps code (taken i s) := by
  obtain ⟨_, hcurrent, hremove, hlisten⟩ := h.current i hi
  unfold State.isCurrent at hcurrent
  have hnoted : noted (Event.socket i (SocketEvent.closed code)) s = s := rfl
  simp [step, hnoted, perform, dispatch, delivered, handler, onClose,
    State.isCurrent,
    State.setSocket, removeSocketListeners, hlisten, hcurrent, hremove, taken]

/-- With a socket in the ref no flag is set, and no timer. -/
structure Live (s : State) : Prop where
  stopped : s.stoppedRef = false
  manual : s.manualSuspendedRef = false
  authentication : s.authenticationSuspendedRef = false
  timer : s.retryTimerRef = none
  timers : s.timers = []

theorem live_of_current (h : Inv s) (hi : s.socketRef = some i) : Live s := by
  have hstopped : s.stoppedRef = false := by
    by_contra hne
    rw [h.stopped ((Bool.not_eq_false _).mp hne)] at hi
    cases hi
  have hnot : s.stoppedRef ≠ true := by
    rw [hstopped]
    exact Bool.false_ne_true
  have htimer : s.retryTimerRef = none := by
    by_contra hne
    rw [(h.retry hne).2] at hi
    cases hi
  refine ⟨hstopped, Bool.eq_false_iff.mpr fun hm => hnot (h.manual hm),
    Bool.eq_false_iff.mpr fun ha => hnot (h.authentication ha), htimer, ?_⟩
  apply List.eq_nil_iff_forall_not_mem.mpr
  intro timer ht
  rw [h.timers timer ht] at htimer
  cases htimer

/-- The codes after which only `reconnect()` helps. -/
def Ending (code : Nat) : Prop :=
  code = 4001 ∨ code = 4011 ∨ code = 4012

theorem onCloseCode_ending {code : Nat} (hcode : Ending code)
    (htimer : s.retryTimerRef = none) :
    (onCloseCode d code s).stoppedRef = true ∧
      (onCloseCode d code s).manualSuspendedRef = s.manualSuspendedRef ∧
      (onCloseCode d code s).nextSocket = s.nextSocket := by
  rcases hcode with hcode | hcode | hcode <;>
    simp [hcode, onCloseCode, AUTHENTICATION_REQUIRED, SESSION_REPLACED,
      SESSION_STOPPED, SESSION_RESTARTING, cancelRetry, htimer, State.record]

theorem onCloseCode_authentication (htimer : s.retryTimerRef = none) :
    (onCloseCode d 4003 s).stoppedRef = true ∧
      (onCloseCode d 4003 s).authenticationSuspendedRef = true ∧
      (onCloseCode d 4003 s).manualSuspendedRef = s.manualSuspendedRef ∧
      (onCloseCode d 4003 s).nextSocket = s.nextSocket := by
  simp [onCloseCode, AUTHENTICATION_REQUIRED, cancelRetry, htimer,
    State.record]

theorem onCloseCode_other {code : Nat} (hcode : ¬ Ending code)
    (hauth : code ≠ 4003) (hstopped : s.stoppedRef = false) :
    onCloseCode d code s = scheduleRetry d none s := by
  obtain ⟨h1, h2⟩ := not_or.mp hcode
  obtain ⟨h2, h3⟩ := not_or.mp h2
  simp [onCloseCode, AUTHENTICATION_REQUIRED, SESSION_REPLACED,
    SESSION_STOPPED, SESSION_RESTARTING, hauth, h1, h2, h3, hstopped]

theorem closed_other (h : Inv s) (hi : s.socketRef = some i) {code : Nat}
    (hcode : ¬ Ending code) (hauth : code ≠ 4003) :
    step (Event.socket i (SocketEvent.closed code)) s =
      scheduleRetry (s.sockets i).deps none (taken i s) :=
  (closed_step h hi code).trans
    (onCloseCode_other hcode hauth (live_of_current h hi).stopped)

def backoff (d : Dependencies) (n : Nat) : Nat :=
  if n < 5 then min (500 * 2 ^ n) (d.reconnectMaxSeconds * 1000)
  else d.reconnectMaxSeconds * 1000

theorem scheduleRetry_automatic (hstopped : s.stoppedRef = false)
    (hbehavior : s.reconnectBehaviorRef = ReconnectBehavior.automatic)
    (htimer : s.retryTimerRef = none) (htimers : s.timers = []) :
    (scheduleRetry d none s).timers =
        [(s.nextTimer, retryDelay d s.retryAttemptRef)] ∧
      (scheduleRetry d none s).log =
        s.log ++ [Entry.scheduled (retryDelay d s.retryAttemptRef)] := by
  simp [scheduleRetry, hstopped, hbehavior, cancelRetry, htimer, setTimer,
    setTimeout, htimers]

theorem scheduleRetry_manual (hstopped : s.stoppedRef = false)
    (hbehavior : s.reconnectBehaviorRef = ReconnectBehavior.manual)
    (htimer : s.retryTimerRef = none) :
    (scheduleRetry d none s).stoppedRef = true ∧
      (scheduleRetry d none s).log = s.log ∧
      (scheduleRetry d none s).nextSocket = s.nextSocket := by
  simp [scheduleRetry, hstopped, hbehavior, cancelRetry, htimer]

/-- While the connect dependencies stay what they are. -/
structure StaysClosed (d : Dependencies) (s : State) : Prop where
  ended : forall i code s', s.socketRef = some i ->
    (code = 4001 ∨ code = 4011 ∨ code = 4012) ->
      Run (fun _ e => Steady d e ∧ forall made, e ≠ Event.reconnect made)
        (step (Event.socket i (SocketEvent.closed code)) s) s' ->
      s'.nextSocket = s.nextSocket
  disconnected : forall s',
    Run (fun _ e => Steady d e ∧ forall made, e ≠ Event.reconnect made)
      (step Event.disconnect s) s' -> s'.nextSocket = s.nextSocket
  authentication : forall i s', s.socketRef = some i ->
    Run (fun _ e => Steady d e)
      (step (Event.socket i (SocketEvent.closed 4003)) s) s' ->
    s'.nextSocket = s.nextSocket
  /-- Any other close sets one timer in automatic mode. -/
  automatic : forall i code, s.socketRef = some i ->
    code ≠ 4001 -> code ≠ 4003 -> code ≠ 4011 -> code ≠ 4012 ->
    s.reconnectBehaviorRef = ReconnectBehavior.automatic ->
    exists t,
      (step (Event.socket i (SocketEvent.closed code)) s).timers =
          [(t, backoff d (attempts s.log))] ∧
        (step (Event.socket i (SocketEvent.closed code)) s).log =
          s.log ++ [Entry.scheduled (backoff d (attempts s.log))]
  /-- It sets none in manual mode, until `reconnect()` or a turn to automatic
  mode. -/
  manual : forall i code s', s.socketRef = some i ->
    code ≠ 4001 -> code ≠ 4003 -> code ≠ 4011 -> code ≠ 4012 ->
    s.reconnectBehaviorRef = ReconnectBehavior.manual ->
    Run (fun _ e => Steady d e ∧ (forall made, e ≠ Event.reconnect made) ∧
      forall d' made made', e ≠
        Event.commit d' ReconnectBehavior.automatic made made')
      (step (Event.socket i (SocketEvent.closed code)) s) s' ->
    s'.log = s.log ∧ s'.timers = [] ∧ s'.nextSocket = s.nextSocket
  /-- An open, a ready message, `reconnect()` or a resumption starts the count
  again. -/
  first : forall e i code, Admits s e -> Steady d e -> restarts s e = true ->
    (step e s).socketRef = some i ->
    code ≠ 4001 -> code ≠ 4003 -> code ≠ 4011 -> code ≠ 4012 ->
    (step e s).reconnectBehaviorRef = ReconnectBehavior.automatic ->
    exists t, (step (Event.socket i (SocketEvent.closed code))
      (step e s)).timers = [(t, backoff d 0)]
  /-- Every retry waits for its time, also after a factory that failed. -/
  delays : forall before delay after,
    s.log = before ++ Entry.scheduled delay :: after ->
      delay = backoff d (attempts before)

theorem idle_of_unsuspended {e : Event} (hmanual : s.manualSuspendedRef = false)
    (h : forall made, e ≠ Event.reconnect made) : Idle s e := by
  cases e with
  | reconnect made => exact absurd rfl (h made)
  | commit d b made made' => exact fun _ => hmanual
  | _ => trivial

theorem stays_ended (h : Inv s) (hkept : Kept d false s)
    (hi : s.socketRef = some i) {code : Nat} (hcode : Ending code)
    (hrun : Run (fun _ e => Steady d e ∧ forall made, e ≠ Event.reconnect made)
      (step (Event.socket i (SocketEvent.closed code)) s) s') :
    s'.nextSocket = s.nextSocket := by
  have hadmits : Admits s (Event.socket i (SocketEvent.closed code)) :=
    (h.current i hi).1
  have hlive := live_of_current h hi
  obtain ⟨hstopped, hmanual, hcreated⟩ := onCloseCode_ending
    (d := (s.sockets i).deps) (s := taken i s) hcode hlive.timer
  rw [← closed_step h hi] at hstopped hmanual hcreated
  have hunsuspended : (step (Event.socket i (SocketEvent.closed code))
      s).manualSuspendedRef = false := hmanual.trans hlive.manual
  have hstill := (still_run (h.step hadmits id)
    (hkept.step h hadmits trivial) hstopped
    (fun s' e hs he => idle_of_unsuspended (hs.manual hunsuspended) he)
    hrun).2
  rw [hstill.created, hcreated]
  rfl

theorem stays_disconnected (h : Inv s) (hkept : Kept d false s)
    (hrun : Run (fun _ e => Steady d e ∧ forall made, e ≠ Event.reconnect made)
      (step Event.disconnect s) s') : s'.nextSocket = s.nextSocket := by
  obtain ⟨_, sockets, heq⟩ := h.stopRelease false
  have hend : step Event.disconnect s =
      { released
          { s with
            stoppedRef := true
            manualSuspendedRef := false } sockets with
        status := ConnectionStatus.disconnected } := by
    show disconnect s = _
    unfold disconnect
    rw [heq]
  have hstopped : (step Event.disconnect s).stoppedRef = true := by
    rw [hend]
    rfl
  have hmanual : (step Event.disconnect s).manualSuspendedRef = false := by
    rw [hend]
    rfl
  have hinv : Inv (step Event.disconnect s) := h.disconnect
  have hstill := (still_run hinv hkept.disconnect hstopped
    (fun s' e hs he => idle_of_unsuspended (hs.manual hmanual) he) hrun).2
  rw [hstill.created, hend]
  rfl

theorem stays_unauthenticated (h : Inv s) (hkept : Kept d false s)
    (hi : s.socketRef = some i)
    (hrun : Run (fun _ e => Steady d e)
      (step (Event.socket i (SocketEvent.closed 4003)) s) s') :
    s'.nextSocket = s.nextSocket := by
  have hadmits : Admits s (Event.socket i (SocketEvent.closed 4003)) :=
    (h.current i hi).1
  have hlive := live_of_current h hi
  obtain ⟨hstopped, hauth, hmanual, hcreated⟩ := onCloseCode_authentication
    (d := (s.sockets i).deps) (s := taken i s) hlive.timer
  rw [← closed_step h hi] at hstopped hauth hmanual hcreated
  have hunsuspended : (step (Event.socket i (SocketEvent.closed 4003))
      s).manualSuspendedRef = false := hmanual.trans hlive.manual
  have hrun' : Run (fun _ e => Steady d e ∧ True)
      (step (Event.socket i (SocketEvent.closed 4003)) s) s' := by
    induction hrun with
    | refl => exact Relation.ReflTransGen.refl
    | tail _ hstep ih =>
        obtain ⟨e, hadmits, hsteady, heq⟩ := hstep
        exact ih.tail ⟨e, hadmits, ⟨hsteady, trivial⟩, heq⟩
  have hidle : forall s'' e, Still (step (Event.socket i
      (SocketEvent.closed 4003)) s) s'' -> True -> Idle s'' e := by
    intro s'' e hs _
    cases e with
    | reconnect made => exact hs.authentication.trans hauth
    | commit d b made made' => exact fun _ => hs.manual hunsuspended
    | _ => trivial
  have hstill := (still_run (h.step hadmits id)
    (hkept.step h hadmits trivial) hstopped
    hidle hrun').2
  rw [hstill.created, hcreated]
  rfl

theorem not_ending {code : Nat} (h1 : code ≠ 4001) (h2 : code ≠ 4011)
    (h3 : code ≠ 4012) : ¬ Ending code := by
  unfold Ending
  omega

theorem stays_suspended (h : Inv s) (hkept : Kept d false s)
    (hi : s.socketRef = some i) {code : Nat} (hcode : ¬ Ending code)
    (hauth : code ≠ 4003)
    (hbehavior : s.reconnectBehaviorRef = ReconnectBehavior.manual)
    (hrun : Run (fun _ e => Steady d e ∧ (forall made,
        e ≠ Event.reconnect made) ∧ forall d' made made', e ≠
          Event.commit d' ReconnectBehavior.automatic made made')
      (step (Event.socket i (SocketEvent.closed code)) s) s') :
    s'.log = s.log ∧ s'.timers = [] ∧ s'.nextSocket = s.nextSocket := by
  have hadmits : Admits s (Event.socket i (SocketEvent.closed code)) :=
    (h.current i hi).1
  have hlive := live_of_current h hi
  obtain ⟨hstopped, hlog, hcreated⟩ := scheduleRetry_manual
    (d := (s.sockets i).deps) (s := taken i s) hlive.stopped hbehavior
    hlive.timer
  rw [← closed_other h hi hcode hauth] at hstopped hlog hcreated
  have hidle : forall s'' e, Still (step (Event.socket i
      (SocketEvent.closed code)) s) s'' -> ((forall made,
        e ≠ Event.reconnect made) ∧ forall d' made made', e ≠
          Event.commit d' ReconnectBehavior.automatic made made') ->
      Idle s'' e := by
    intro s'' e _ he
    cases e with
    | reconnect made => exact absurd rfl (he.1 made)
    | commit d b made made' =>
        intro hb
        subst hb
        exact absurd rfl (he.2 d made made')
    | _ => trivial
  obtain ⟨hinv, hstill⟩ := still_run (h.step hadmits id)
    (hkept.step h hadmits trivial) hstopped hidle hrun
  refine ⟨hstill.log.trans hlog, ?_, hstill.created.trans hcreated⟩
  by_contra hne
  have hrunning := (hinv.owned.retry hne).1
  rw [hstill.stopped] at hrunning
  cases hrunning

theorem schedules (h : Inv s) (hkept : Kept d false s)
    (hi : s.socketRef = some i) {code : Nat} (hcode : ¬ Ending code)
    (hauth : code ≠ 4003)
    (hbehavior : s.reconnectBehaviorRef = ReconnectBehavior.automatic) :
    exists t,
      (step (Event.socket i (SocketEvent.closed code)) s).timers =
          [(t, backoff d s.retryAttemptRef)] ∧
        (step (Event.socket i (SocketEvent.closed code)) s).log =
          s.log ++ [Entry.scheduled (backoff d s.retryAttemptRef)] := by
  have hlive := live_of_current h hi
  obtain ⟨htimers, hlog⟩ := scheduleRetry_automatic (d := d)
    (s := taken i s) hlive.stopped hbehavior hlive.timer hlive.timers
  rw [closed_other h hi hcode hauth, hkept.sockets i]
  exact ⟨_, htimers, hlog⟩

/-- What a close event does lasts, whatever comes before the next command or
resumption. -/
theorem closures_stay (d : Dependencies) (b : ReconnectBehavior)
    (suspended made made' : Bool)
    (h : Run (fun _ e => Steady d e) (mount d b suspended made made') s) :
    StaysClosed d s := by
  have hall : Inv s ∧ Kept d false s := by
    induction h with
    | refl => exact ⟨Inv.mount d b suspended made made',
        Kept.mount d b suspended made made'⟩
    | tail _ hstep ih =>
        obtain ⟨e, hadmits, hsteady, heq⟩ := hstep
        rw [heq]
        exact ⟨ih.1.step hadmits (ih.2.calm hsteady),
          ih.2.step ih.1 hadmits hsteady⟩
  obtain ⟨hinv, hkept⟩ := hall
  constructor
  · exact fun i code s' hi hcode hrun => stays_ended hinv hkept hi hcode hrun
  · exact fun s' hrun => stays_disconnected hinv hkept hrun
  · exact fun i s' hi hrun => stays_unauthenticated hinv hkept hi hrun
  · intro i code hi h1 h3 h11 h12 hbehavior
    obtain ⟨t, hclosed⟩ := schedules hinv hkept hi (not_ending h1 h11 h12) h3
      hbehavior
    rw [hkept.counted] at hclosed
    exact ⟨t, hclosed⟩
  · exact fun i code s' hi h1 h3 h11 h12 hbehavior hrun =>
      stays_suspended hinv hkept hi (not_ending h1 h11 h12) h3 hbehavior hrun
  · intro e i code hadmits hsteady hcount hi h1 h3 h11 h12 hbehavior
    obtain ⟨hrestarted, hnext⟩ := hkept.restarted hinv hsteady hcount
    obtain ⟨t, htimers, _⟩ := schedules
      (hinv.step hadmits (hkept.calm hsteady)) hnext hi
      (not_ending h1 h11 h12) h3 hbehavior
    rw [hrestarted.counter hi] at htimers
    exact ⟨t, htimers⟩
  · exact fun before delay after hlog => hkept.delays _ _ _ hlog

/-!
## A run

The connection is lost in automatic mode, and the first retry fails.  The
second one opens, and the connection is lost again.
-/

def sampleAutomatic : State :=
  mount sampleDependencies ReconnectBehavior.automatic false true true

def sampleEvents : List Event :=
  [Event.socket 0 (SocketEvent.closed 1006), Event.timer 0 false,
    Event.timer 1 true, Event.socket 1 SocketEvent.opened,
    Event.socket 1 (SocketEvent.closed 1006)]

def sampleAfter (n : Nat) : State :=
  (sampleEvents.take n).foldl (fun s e => step e s) sampleAutomatic

theorem sampleAfter_run :
    Run (fun _ e => Steady sampleDependencies e) sampleAutomatic
      (sampleAfter 5) := by
  have hlost : Admits (sampleAfter 0)
      (Event.socket 0 (SocketEvent.closed 1006)) := by
    show 0 < (sampleAfter 0).nextSocket
    decide
  have hfirst : Admits (sampleAfter 1) (Event.timer 0 false) :=
    ⟨500, by decide⟩
  have hsecond : Admits (sampleAfter 2) (Event.timer 1 true) :=
    ⟨1000, by decide⟩
  have hopened : Admits (sampleAfter 3)
      (Event.socket 1 SocketEvent.opened) := by
    show 1 < (sampleAfter 3).nextSocket
    decide
  have hclosed : Admits (sampleAfter 4)
      (Event.socket 1 (SocketEvent.closed 1006)) := by
    show 1 < (sampleAfter 4).nextSocket
    decide
  have hrun1 : Run (fun _ e => Steady sampleDependencies e) sampleAutomatic
      (sampleAfter 1) :=
    Relation.ReflTransGen.single ⟨_, hlost, trivial, rfl⟩
  have hrun2 := hrun1.tail ⟨_, hfirst, trivial, rfl⟩
  have hrun3 := hrun2.tail ⟨_, hsecond, trivial, rfl⟩
  have hrun4 := hrun3.tail ⟨_, hopened, trivial, rfl⟩
  exact hrun4.tail ⟨_, hclosed, trivial, rfl⟩

theorem closures_stay_sample :
    StaysClosed sampleDependencies (sampleAfter 5) ∧
      (sampleAfter 2).timers = [(1, 1000)] ∧
      (sampleAfter 5).timers = [(2, 500)] :=
  ⟨closures_stay sampleDependencies ReconnectBehavior.automatic false true true
    sampleAfter_run, by decide, by decide⟩

end UseTerminalSocket
end Client
end FlanTerminal

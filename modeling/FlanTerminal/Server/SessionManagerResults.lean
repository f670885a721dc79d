import FlanTerminal.Foundation.Script
import FlanTerminal.Server.SessionManagerOutcomes

/-!
# Restart and recreate

What a caller of `restart` or `recreate` may rely on when the call has settled,
whatever failed on the way and whatever else ran meanwhile.
-/

namespace FlanTerminal
namespace Server
namespace SessionManager

open Foundation
open Shared
open TabStore (Mutation Sources Committed desiredOf touched)
open TerminalBridge (Reason)

/-!
## The bridges of other tabs
-/

def OtherBridges (id : JsString) (s s' : BridgeRegistry.State) : Prop :=
  forall key, key ≠ id ->
    s'.registry.owners.get key = s.registry.owners.get key

theorem otherBridges_refl (id : JsString) (s : BridgeRegistry.State) :
    OtherBridges id s s :=
  fun _ _ => rfl

theorem within_forget (id : JsString) (owner : Nat) :
    (BridgeRegistry.forget BridgeRegistry.host id owner).Within
      (OtherBridges id) := by
  apply Prog.within_bind
  · exact Prog.within_read (otherBridges_refl id) fun _ => trivial
  · intro current
    split
    · apply Prog.within_modify
      intro s key hne
      show (s.registry.owners.delete id).get key = _
      rw [JsMap.get_delete, if_neg (Ne.symm hne)]
    · trivial

theorem within_closeOwner (id : JsString) (why : BridgeRegistry.Why)
    (owner code : Nat) (reason : Reason) :
    (BridgeRegistry.closeOwner BridgeRegistry.host why owner code
      reason).Within (OtherBridges id) := by
  intro r
  cases r with
  | error _ => trivial
  | ok _ =>
      intro r
      cases r with
      | error _ => trivial
      | ok _ => trivial

theorem within_close (n : Nat) (id : JsString) (code : Nat)
    (reason : Reason) :
    (BridgeRegistry.body n (BridgeRegistry.Op.close id code reason)).Within
      (OtherBridges id) := by
  apply Prog.within_read (otherBridges_refl id)
  intro s
  split
  · exact fun _ => trivial
  · have hqueue : forall f : List (JsString × Nat) -> List (JsString × Nat),
        (Prog.modify (BridgeRegistry.host.update fun r =>
          { r with queue := f r.queue }) : BridgeRegistry.Code Unit).Within
          (OtherBridges id) :=
      fun f => Prog.within_modify fun s key _ => rfl
    apply Prog.within_bind (hqueue fun queue => queue ++ [(id, n)])
    intro _
    apply Prog.within_bind
    · exact fun _ => trivial
    intro _
    apply Prog.within_always _ (hqueue fun queue => queue.erase (id, n))
    apply Prog.within_bind
    · exact Prog.within_read (otherBridges_refl id) fun _ => trivial
    · intro owner
      cases owner with
      | none => trivial
      | some owner =>
          exact Prog.within_bind (within_closeOwner id _ _ _ _)
            fun _ => within_forget id owner

/-!
## The failure semantics
-/

/-- The tab was made active after everything that has to succeed first. -/
def Reactivated : Op -> List Mark -> Prop
  | Op.restart _, done => [Mark.closed true, Mark.killed true,
      Mark.prepared true, Mark.active].Sublist done
  | _, done => [Mark.prepared true, Mark.active].Sublist done

/-- A `restart` or `recreate` of a tab that has settled.  The events are those
of the log before. -/
structure Settled (n : Nat) (o : Op) (id : JsString) (before : List Entry)
    (res : Except Thrown Value) (document : PersistedTabsDocument) :
    Prop where
  resolves : (exists value, res = Except.ok value) <->
    Reactivated o (marks (own n before))
  rejects : forall thrown, res = Except.error thrown ->
    Mark.active ∉ marks (own n before) ∧
      (Unchanged id (own n before) document ∨
        desiredOf document id = some DesiredState.stopped)
  cleans : forall thrown, res = Except.error thrown -> forall front back,
    marks (own n before) = front ++ Mark.preparing :: back ->
    Mark.killing ∈ back
  commits : forall mutation old new,
    Entry.committed n mutation old new ∈ before ->
    (exists state, mutation = Mutation.setDesiredState id state) ∧
      forall key, key ≠ id ->
        findRecord new key = findRecord old key
  calls : forall c, Entry.asked n c ∈ before -> ProperTo id c
  bridges : forall operation key code reason,
    Entry.asked n (PortCall.closeBridge operation key code reason) ∈ before ->
    (BridgeRegistry.body operation
      (BridgeRegistry.Op.close key code reason)).Within (OtherBridges id)

section Marks

variable {front done : List Mark}

theorem Rejected.not_active (hfront : Mark.active ∉ front)
    (h : Rejected front done) : Mark.active ∉ done := by
  cases h with
  | unprepared b => simp [hfront]
  | uncommitted b => simp [hfront]

theorem Rejected.cleans (hfront : Mark.preparing ∉ front)
    (h : Rejected front done) {left right : List Mark}
    (hdone : done = left ++ Mark.preparing :: right) :
    Mark.killing ∈ right := by
  have hafter : forall b b', front ++ [Mark.preparing, Mark.prepared b,
      Mark.killing, Mark.killed b'] = left ++ Mark.preparing :: right ->
      Mark.killing ∈ right := by
    intro b b' heq
    have hsplit := (List.append_cons_inj_of_notMem hfront (by simp)).mp heq
    rw [← hsplit.2.2]
    simp
  cases h with
  | unprepared b => exact hafter _ _ hdone
  | uncommitted b => exact hafter _ _ hdone

/-- The steps that are too few to have reached `prepare`. -/
def Short (done : List Mark) : Prop :=
  Mark.active ∉ done ∧ Mark.preparing ∉ done

theorem EarlyRestart.short (h : EarlyRestart done) : Short done := by
  rcases h with hnil | ⟨close, kill, _, hdone⟩
  · rw [hnil]
    exact ⟨List.not_mem_nil, List.not_mem_nil⟩
  · rw [hdone]
    constructor
    · simp [stopped]
    · simp [stopped]

end Marks

section Lifecycles

variable {options : TabStore.Options} {n : Nat} {o : Op} {id : JsString}
variable {before : List Entry} {res : Except Thrown Value}
variable {document : PersistedTabsDocument}

theorem Lifecycle.not_active {front : List Mark} {early : List Mark -> Prop}
    {events : List Entry} {thrown : Thrown}
    (h : Lifecycle id front early events res document)
    (hshort : forall done, early done -> Short done)
    (hfront : Mark.active ∉ front) (hres : res = Except.error thrown) :
    Mark.active ∉ marks events := by
  rcases (h.rejected thrown hres).1 with hearly | hrejected
  · exact (hshort _ hearly).1
  · exact hrejected.not_active hfront

theorem Lifecycle.cleans {front : List Mark} {early : List Mark -> Prop}
    {events : List Entry} {thrown : Thrown}
    (h : Lifecycle id front early events res document)
    (hshort : forall done, early done -> Short done)
    (hfront : Mark.preparing ∉ front) (hres : res = Except.error thrown)
    {left right : List Mark}
    (hmarks : marks events = left ++ Mark.preparing :: right) :
    Mark.killing ∈ right := by
  rcases (h.rejected thrown hres).1 with hearly | hrejected
  · have hnot := (hshort _ hearly).2
    rw [hmarks] at hnot
    exact absurd (List.mem_append_right _ List.mem_cons_self) hnot
  · exact hrejected.cleans hfront hmarks

theorem Lifecycle.resolves {front : List Mark} {early : List Mark -> Prop}
    {events : List Entry} {required : List Mark}
    (h : Lifecycle id front early events res document)
    (hshort : forall done, early done -> Short done)
    (hfront : Mark.active ∉ front)
    (hdone : required.Sublist (front ++ activation))
    (hrequired : Mark.active ∈ required) :
    (exists value, res = Except.ok value) <->
      required.Sublist (marks events) := by
  cases res with
  | ok value =>
      rw [(h.resolved value rfl).1]
      exact ⟨fun _ => hdone, fun _ => ⟨value, rfl⟩⟩
  | error thrown =>
      have hnot := h.not_active hshort hfront rfl
      constructor
      · rintro ⟨value, hvalue⟩
        cases hvalue
      · exact fun hsub => absurd (hsub.subset hrequired) hnot

theorem proper_of_asked {cs : Census} {s : State} (hinv : Inv options cs s)
    {after : List Entry} (hlog : s.log = before ++ after)
    (htask : taskOf n before = some o) {c : PortCall}
    (hc : Entry.asked n c ∈ before) : Proper o c := by
  rcases List.append_of_mem hc with ⟨front, back, hsplit⟩
  have hgood := hinv.good front (Entry.asked n c) (back ++ after) (by
    rw [hlog, hsplit]
    simp)
  rcases hgood with ⟨o', htask', hproper⟩
  rw [hsplit, taskOf_append htask'] at htask
  cases htask
  exact hproper

theorem proper_of_committed {cs : Census} {s : State}
    (hinv : Inv options cs s) {after : List Entry}
    (hlog : s.log = before ++ after) (htask : taskOf n before = some o)
    {mutation : Mutation} {old new : PersistedTabsDocument}
    (hc : Entry.committed n mutation old new ∈ before) :
    Proper o (PortCall.commit mutation) ∧
      exists sources, Committed options sources old mutation new := by
  rcases List.append_of_mem hc with ⟨front, back, hsplit⟩
  have hgood := hinv.good front (Entry.committed n mutation old new)
    (back ++ after) (by
      rw [hlog, hsplit]
      simp)
  rcases hgood with ⟨⟨o', htask', hproper⟩, hcommitted⟩
  rw [hsplit, taskOf_append htask'] at htask
  cases htask
  exact ⟨hproper, hcommitted⟩

theorem settled_of {cs : Census} {s : State} (hinv : Inv options cs s)
    {after : List Entry} (hlog : s.log = before ++ after)
    (htask : taskOf n before = some o) {front : List Mark}
    {early : List Mark -> Prop}
    (hlifecycle : Lifecycle id front early (own n before) res document)
    (hproper : forall c, Proper o c -> ProperTo id c)
    (hshort : forall done, early done -> Short done)
    (hfront : Short front)
    (hresolves : (exists value, res = Except.ok value) <->
      Reactivated o (marks (own n before))) :
    Settled n o id before res document where
  resolves := hresolves
  rejects thrown hres := ⟨hlifecycle.not_active hshort hfront.1 hres,
    (hlifecycle.rejected thrown hres).2⟩
  cleans thrown hres _ _ hmarks :=
    hlifecycle.cleans hshort hfront.2 hres hmarks
  commits := by
    intro mutation old new hmem
    rcases proper_of_committed hinv hlog htask hmem with
      ⟨hcommit, sources, hcommitted⟩
    rcases hproper _ hcommit with ⟨state, hmutation⟩
    rw [hmutation] at hcommitted
    exact ⟨⟨state, hmutation⟩, hcommitted.set.2.2⟩
  calls c hmem := hproper c (proper_of_asked hinv hlog htask hmem)
  bridges := by
    intro operation key code reason hmem
    have hkey : key = id := hproper _ (proper_of_asked hinv hlog htask hmem)
    rw [← hkey]
    exact within_close operation key code reason

theorem restart_recreate_settle (hnfc : NormalForm options.nfc)
    {cfg : Config State ports Thrown Value Op} (hrun : Run options cfg)
    (ho : o = Op.restart id ∨ o = Op.recreate id) {after : List Entry}
    (hlog : cfg.shared.log =
      before ++ Entry.ended n o res document :: after) :
    Settled n o id before res document := by
  have hinv := run_inv hnfc hrun
  rcases hinv.good before _ after hlog with ⟨htask, houtcome⟩
  rcases ho with ho | ho
  · subst ho
    have hlifecycle : Lifecycle id (stopped true true) EarlyRestart
        (own n before) res document := houtcome
    have hfront : Short (stopped true true) := by
      constructor
      · simp [stopped]
      · simp [stopped]
    apply settled_of hinv hlog htask hlifecycle _ (fun _ h => h.short) hfront
    · apply hlifecycle.resolves (fun _ h => h.short) hfront.1
      · decide
      · simp
    · intro c hc
      rcases hc with hc | ⟨mutation, hown, _⟩
      · exact hc
      · exact hown.elim
  · subst ho
    have hlifecycle : Lifecycle id [] (fun done => done = [])
        (own n before) res document := houtcome
    have hshort : forall done : List Mark, done = [] -> Short done := by
      intro done hdone
      rw [hdone]
      exact ⟨List.not_mem_nil, List.not_mem_nil⟩
    apply settled_of hinv hlog htask hlifecycle _ hshort (hshort [] rfl)
    · apply hlifecycle.resolves hshort List.not_mem_nil
      · decide
      · simp
    · intro c hc
      rcases hc with hc | ⟨mutation, hown, _⟩
      · exact hc
      · exact hown.elim

end Lifecycles

/-!
## A run

Everything succeeds, and there are neither sessions nor bridges; the registry
is still asked to close one.
-/

def calmOptions : TabStore.Options := ⟨20, id⟩

def calmTime : JsString := js "2024-05-06T07:08:09.010Z"

def calmId (k : Nat) : JsString :=
  js "00000000-0000-4000-8000-00000000000" ++ [UInt16.ofNat (48 + k)]

def calmTab (state : DesiredState) : TabRecord where
  id := calmId 0
  displayName := js "Terminal 1"
  position := 0
  createdAt := calmTime
  lastActivityAt := calmTime
  desiredState := state

def calmDocument (state : DesiredState) : PersistedTabsDocument :=
  ⟨7, [calmTab state]⟩

def calmSources (s : State) : Sources :=
  ⟨calmId s.history.length, calmTime⟩

/-- How an operation of the registry has ended. -/
def registryOutcome (s : State) (operation : Nat) (o : BridgeRegistry.Op) :
    Option (Except Unit Unit) :=
  s.registry.shared.log.findSome? fun e =>
    match e with
    | BridgeRegistry.Entry.ended k o' res _ =>
        if k = operation ∧ o' = o then some (BridgeRegistry.settledAs res)
        else none
    | _ => none

theorem registryOutcome_some {s : State} {operation : Nat}
    {o : BridgeRegistry.Op} {outcome : Except Unit Unit}
    (h : registryOutcome s operation o = some outcome) :
    exists res owners, BridgeRegistry.Entry.ended operation o res owners ∈
      s.registry.shared.log ∧ outcome = BridgeRegistry.settledAs res := by
  obtain ⟨e, hmem, he⟩ := List.exists_of_findSome?_eq_some h
  cases e with
  | ended k o' res owners =>
      dsimp only at he
      split at he
      · rename_i hsame
        cases he
        rw [<- hsame.1, <- hsame.2]
        exact ⟨res, owners, hmem, rfl⟩
      · cases he
  | _ => cases he

def calmReply (s : State) (_ : Nat) : (c : PortCall) -> PortReply c
  | PortCall.lock _ => ()
  | PortCall.snapshot => s.document
  | PortCall.commit _ => Except.ok (calmSources s)
  | PortCall.settle _ => ()
  | PortCall.runtimeSettings => some ⟨js "/bin/sh", JsNumber.finite 1000⟩
  | PortCall.exists _ => Except.ok false
  | PortCall.kill _ => Except.ok ()
  | PortCall.prepare _ _ => Except.ok ()
  | PortCall.listActiveSessionIds => Except.ok []
  | PortCall.mark _ => ()
  | PortCall.pid _ => none
  | PortCall.eligibility _ => Except.error ()
  | PortCall.spawn _ _ => Except.error ()
  | PortCall.createBridge _ _ _ => Except.error ()
  | PortCall.closeBridge operation id code reason =>
      (registryOutcome s operation (BridgeRegistry.Op.close id code
        reason)).getD (Except.error ())
  | PortCall.replaceBridge operation id owner =>
      (registryOutcome s operation (BridgeRegistry.Op.replace id
        owner)).getD (Except.error ())

def calmFair (s : State) (n : Nat) : PortCall -> Bool
  | PortCall.lock key => decide (BridgeRegistry.firstOf s.mutex key = some n)
  | PortCall.commit mutation =>
      (TabStore.commit calmOptions (calmSources s) s.document
        mutation).isSome &&
      s.history.all fun document => decide ((calmSources s).randomUUID ∉
        document.tabs.map TabRecord.id)
  | PortCall.closeBridge operation id code reason =>
      (registryOutcome s operation
        (BridgeRegistry.Op.close id code reason)).isSome
  | PortCall.replaceBridge operation id owner =>
      (registryOutcome s operation
        (BridgeRegistry.Op.replace id owner)).isSome
  | _ => true

theorem calmFair_allowed (s : State) (n : Nat) (c : PortCall)
    (h : calmFair s n c = true) :
    allowed calmOptions s n c (calmReply s n c) := by
  cases c with
  | lock key =>
      show BridgeRegistry.firstOf s.mutex key = some n
      exact of_decide_eq_true h
  | commit mutation =>
      rcases Bool.and_eq_true_iff.mp h with ⟨hcommit, hfresh⟩
      refine ⟨hcommit, ?_⟩
      intro document hdocument
      exact of_decide_eq_true (List.all_eq_true.mp hfresh document hdocument)
  | closeBridge operation key code reason =>
      obtain ⟨outcome, houtcome⟩ := Option.isSome_iff_exists.mp h
      dsimp only [calmReply]
      rw [houtcome]
      exact registryOutcome_some houtcome
  | replaceBridge operation key owner =>
      obtain ⟨outcome, houtcome⟩ := Option.isSome_iff_exists.mp h
      dsimp only [calmReply]
      rw [houtcome]
      exact registryOutcome_some houtcome
  | snapshot => rfl
  | settle mutation => trivial
  | runtimeSettings => trivial
  | «exists» key => trivial
  | kill key => trivial
  | prepare key settings => trivial
  | listActiveSessionIds => trivial
  | mark key => trivial
  | pid owner => trivial
  | eligibility request => trivial
  | spawn key dimensions => trivial
  | createBridge key socket pty => trivial

def calmScript : Script (manager calmOptions) where
  reply := calmReply
  fair := calmFair
  admits _ _ := true
  nudge s :=
    (BridgeRegistry.easyScript.move s.registry (Move.resume 0)).map fun r =>
      { s with registry := r }
  fair_allowed := calmFair_allowed
  admits_sound _ _ _ := trivial
  nudge_env s s' h := by
    obtain ⟨r, hr, hs⟩ := Option.map_eq_some_iff.mp h
    rw [<- hs]
    exact Beside.registry r (Script.move_step hr)

/-- A tab that was stopped is made active again. -/
def calmRun : Option (Config State ports Thrown Value Op) :=
  calmScript.play
    (Move.enter (Op.recreate (calmId 0)) :: List.replicate 6 (Move.resume 0))
    (Config.initial (State.initial (calmDocument DesiredState.stopped)))

def calmView : TabView :=
  ⟨calmTab DesiredState.active, ⟨SessionState.stopped, false, none⟩⟩

theorem calmRun_ends :
    calmRun.map (fun cfg => decide (Entry.ended 0 (Op.recreate (calmId 0))
      (Except.ok (Value.view calmView))
      ⟨8, [calmTab DesiredState.active]⟩ ∈ cfg.shared.log)) = some true := by
  decide +kernel

theorem calmDocument_accepted (state : DesiredState) :
    parseDocument calmOptions.nfc (calmDocument state) =
      some (calmDocument state) := by
  cases state with
  | active => decide +kernel
  | stopped => decide +kernel

theorem restart_recreate_settle_calm :
    exists cfg before after, Run calmOptions cfg ∧
      cfg.shared.log = before ++ Entry.ended 0 (Op.recreate (calmId 0))
        (Except.ok (Value.view calmView))
        ⟨8, [calmTab DesiredState.active]⟩ :: after ∧
      Settled 0 (Op.recreate (calmId 0)) (calmId 0) before
        (Except.ok (Value.view calmView))
        ⟨8, [calmTab DesiredState.active]⟩ := by
  have hsample := calmRun_ends
  cases hrun : calmRun with
  | none =>
      rw [hrun] at hsample
      cases hsample
  | some cfg =>
      rw [hrun] at hsample
      have hended := of_decide_eq_true (Option.some.inj hsample)
      rcases List.append_of_mem hended with ⟨before, after, hlog⟩
      have hreach : Run calmOptions cfg :=
        ⟨calmDocument DesiredState.stopped, calmDocument_accepted _,
          Script.play_reachable hrun⟩
      exact ⟨cfg, before, after, hreach, hlog, restart_recreate_settle
        normalForm_id hreach (Or.inr rfl) hlog⟩

end SessionManager
end Server
end FlanTerminal

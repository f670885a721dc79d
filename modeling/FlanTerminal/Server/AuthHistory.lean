import FlanTerminal.Foundation.Trace
import FlanTerminal.Server.AuthSessions

/-!
# The history of the authentication service

The log of a run tells of every session when it was established, what changed
it, when it was removed and who was told.  This module reads these facts off
the log, says when an entry is in order, and ties the log to the sessions held.
-/

namespace FlanTerminal
namespace Server
namespace AuthService

open Foundation

def Entry.by : Entry -> Nat
  | entered n _ => n
  | checked n _ _ _ => n
  | touched n _ _ => n
  | refreshed n _ _ _ => n
  | established n _ _ _ => n
  | removed n _ => n
  | emitting n _ _ _ => n
  | notified n _ _ => n
  | subscribed n _ => n
  | unsubscribed n _ => n
  | told n _ => n
  | ended n _ _ => n

/-!
## Reading the log
-/

def Entry.birth (r : Ref) : Entry -> Option (JsString × Stored)
  | established _ r' cookie cell => if r' = r then some (cookie, cell) else none
  | _ => none

def cellIn (r : Ref) (log : List Entry) : Option (JsString × Stored) :=
  log.findSome? (Entry.birth r)

def Entry.seen (r : Ref) (t : Option ℚ) : Entry -> Option ℚ
  | established _ r' _ cell => if r' = r then some cell.createdAt else t
  | touched _ r' now => if r' = r then some now else t
  | _ => t

def lastSeenIn (r : Ref) (log : List Entry) : Option ℚ :=
  log.foldl (Entry.seen r) none

def Entry.upstream (r : Ref) (t : Option ℚ) : Entry -> Option ℚ
  | established _ r' _ cell => if r' = r then cell.upstreamExpiresAt else t
  | refreshed _ r' _ expiresAt => if r' = r then some expiresAt else t
  | _ => t

def upstreamIn (r : Ref) (log : List Entry) : Option ℚ :=
  log.foldl (Entry.upstream r) none

def Entry.subscription (observers : List Nat) : Entry -> List Nat
  | subscribed _ k => observers ++ [k]
  | unsubscribed _ k => observers.filter fun x => decide (x ≠ k)
  | _ => observers

def observersIn (log : List Entry) : List Nat :=
  log.foldl Entry.subscription []

def Entry.recipient (n : Nat) (r : Ref) : Entry -> Option Nat
  | notified n' r' k => if n' = n ∧ r' = r then some k else none
  | _ => none

/-- The observers that operation `n` has told of session `r`, in order. -/
def notifiedIn (n : Nat) (r : Ref) (log : List Entry) : List Nat :=
  log.filterMap (Entry.recipient n r)

def RemovedIn (r : Ref) (log : List Entry) : Prop :=
  exists n, Entry.removed n r ∈ log

def EmittedIn (n : Nat) (r : Ref) (log : List Entry) : Prop :=
  exists reason observers, Entry.emitting n r reason observers ∈ log

/-- Operation `n` found session `r` not expired. -/
def CheckedBy (n : Nat) (r : Ref) (log : List Entry) : Prop :=
  exists t, Entry.checked n r t true ∈ log

/-- Operation `n` has not found any session expired. -/
def Unfailed (n : Nat) (log : List Entry) : Prop :=
  forall r t, Entry.checked n r t false ∉ log

theorem cellIn_snoc (r : Ref) (log : List Entry) (e : Entry) :
    cellIn r (log ++ [e]) = (cellIn r log).or (e.birth r) := by
  unfold cellIn
  rw [List.findSome?_append]
  cases h : e.birth r with
  | none => simp [h]
  | some c => simp [h]

theorem lastSeenIn_snoc (r : Ref) (log : List Entry) (e : Entry) :
    lastSeenIn r (log ++ [e]) = e.seen r (lastSeenIn r log) := by
  unfold lastSeenIn
  rw [List.foldl_append]
  rfl

theorem upstreamIn_snoc (r : Ref) (log : List Entry) (e : Entry) :
    upstreamIn r (log ++ [e]) = e.upstream r (upstreamIn r log) := by
  unfold upstreamIn
  rw [List.foldl_append]
  rfl

theorem observersIn_snoc (log : List Entry) (e : Entry) :
    observersIn (log ++ [e]) = e.subscription (observersIn log) := by
  unfold observersIn
  rw [List.foldl_append]
  rfl

theorem notifiedIn_append (n : Nat) (r : Ref) (log more : List Entry) :
    notifiedIn n r (log ++ more) =
      notifiedIn n r log ++ notifiedIn n r more := by
  unfold notifiedIn
  rw [List.filterMap_append]

theorem cellIn_append {r : Ref} {log : List Entry} {c : JsString × Stored}
    (h : cellIn r log = some c) (more : List Entry) :
    cellIn r (log ++ more) = some c := by
  unfold cellIn at h ⊢
  rw [List.findSome?_append, h]
  rfl

theorem established_of_cellIn {r : Ref} {log : List Entry} {cookie : JsString}
    {cell : Stored} (h : cellIn r log = some (cookie, cell)) :
    exists n, Entry.established n r cookie cell ∈ log := by
  unfold cellIn at h
  rcases List.exists_of_findSome?_eq_some h with ⟨e, he, hbirth⟩
  cases e with
  | established n x c d =>
      simp only [Entry.birth] at hbirth
      split at hbirth
      · rename_i hx
        cases hbirth
        rw [← hx]
        exact ⟨n, he⟩
      · cases hbirth
  | entered n op => cases hbirth
  | checked n x t v => cases hbirth
  | touched n x t => cases hbirth
  | refreshed n x t u => cases hbirth
  | removed n x => cases hbirth
  | emitting n x reason observers => cases hbirth
  | notified n x k => cases hbirth
  | subscribed n k => cases hbirth
  | unsubscribed n k => cases hbirth
  | told n outcome => cases hbirth
  | ended n op res => cases hbirth

theorem RemovedIn.append {r : Ref} {log : List Entry} (h : RemovedIn r log)
    (more : List Entry) : RemovedIn r (log ++ more) := by
  rcases h with ⟨n, hn⟩
  exact ⟨n, List.mem_append_left more hn⟩

theorem removedIn_snoc {r : Ref} {log : List Entry} {e : Entry} :
    RemovedIn r (log ++ [e]) <->
      RemovedIn r log ∨ exists n, e = Entry.removed n r := by
  constructor
  · rintro ⟨n, hn⟩
    rcases List.mem_append.mp hn with hn | hn
    · exact Or.inl ⟨n, hn⟩
    · exact Or.inr ⟨n, (List.mem_singleton.mp hn).symm⟩
  · rintro (h | ⟨n, hn⟩)
    · exact h.append [e]
    · exact ⟨n, by rw [hn]; exact List.mem_append_right log List.mem_cons_self⟩

theorem EmittedIn.append {n : Nat} {r : Ref} {log : List Entry}
    (h : EmittedIn n r log) (more : List Entry) :
    EmittedIn n r (log ++ more) := by
  rcases h with ⟨reason, observers, hmem⟩
  exact ⟨reason, observers, List.mem_append_left more hmem⟩

theorem CheckedBy.append {n : Nat} {r : Ref} {log : List Entry}
    (h : CheckedBy n r log) (more : List Entry) :
    CheckedBy n r (log ++ more) := by
  rcases h with ⟨t, ht⟩
  exact ⟨t, List.mem_append_left more ht⟩

theorem Unfailed.append {n : Nat} {log more : List Entry} (h : Unfailed n log)
    (hmore : Unfailed n more) : Unfailed n (log ++ more) := by
  intro r t hmem
  rcases List.mem_append.mp hmem with hmem | hmem
  · exact h r t hmem
  · exact hmore r t hmem

theorem unfailed_of_by {n : Nat} {more : List Entry}
    (h : forall e, e ∈ more -> e.by ≠ n) : Unfailed n more := by
  intro r t hmem
  exact h _ hmem rfl

theorem notifiedIn_of_by {n : Nat} {r : Ref} {more : List Entry}
    (h : forall e, e ∈ more -> e.by ≠ n) : notifiedIn n r more = [] := by
  apply List.filterMap_eq_nil_iff.mpr
  intro e he
  cases e with
  | notified m r' k =>
      have hm : m ≠ n := h _ he
      simp [Entry.recipient, hm]
  | entered m op => rfl
  | checked m r' t v => rfl
  | touched m r' t => rfl
  | refreshed m r' t x => rfl
  | established m r' c cell => rfl
  | removed m r' => rfl
  | emitting m r' reason obs => rfl
  | subscribed m k => rfl
  | unsubscribed m k => rfl
  | told m outcome => rfl
  | ended m op res => rfl

/-!
## Answers

Which answers mean that a session was found valid, and which session an
operation asks for.
-/

def accepted : Op -> Value -> Bool
  | Op.authenticateCookie _, Value.session _ => true
  | Op.authenticateAuthority _, Value.authority _ _ => true
  | Op.isActiveAuthority _ _, Value.flag b => b
  | Op.touchAuthority _ _ _, Value.flag b => b
  | Op.resume _, Value.result _ => true
  | Op.refresh _ _, Value.session _ => true
  | Op.verifyCsrf _ _, Value.flag b => b
  | Op.changePassword _ _ _, Value.flag b => b
  | _, _ => false

/-- The operation names the session by its cookie, its id, or its id and
generation. -/
def addresses (o : Options) (op : Op) (cookie : JsString) (cell : Stored) :
    Prop :=
  match op with
  | Op.authenticateCookie raw =>
      exists c, raw = some c ∧ o.hash c = o.hash cookie
  | Op.authenticateAuthority raw =>
      exists c, raw = some c ∧ o.hash c = o.hash cookie
  | Op.isActiveAuthority id generation =>
      id = cell.id ∧ generation = cell.generation
  | Op.touchAuthority id generation _ =>
      id = cell.id ∧ generation = cell.generation
  | Op.resume id => id = cell.id
  | Op.refresh id _ => id = cell.id
  | Op.verifyCsrf id _ => id = cell.id
  | Op.changePassword id _ _ => id = cell.id
  | _ => False

def isPasswordChange : Op -> Bool
  | Op.changePassword _ _ _ => true
  | _ => false

/-- All sessions established before operation `n` last heard of the credential
store have been removed. -/
def ClearedBy (n : Nat) (log : List Entry) : Prop :=
  exists before outcome after, log = before ++ Entry.told n outcome :: after ∧
    (forall x, Entry.told n x ∉ after) ∧
    forall r, (cellIn r before).isSome = true -> RemovedIn r log

/-- An operation that accepts has checked a session that it asks for, all its
checks went well, and the session has not been removed.  Only a change of the
password removes it, with all others. -/
def Answered (o : Options) (log : List Entry) (n : Nat) (op : Op)
    (res : Except Thrown Value) : Prop :=
  forall v, res = Except.ok v -> accepted op v = true ->
    exists r cookie cell, cellIn r log = some (cookie, cell) ∧
      addresses o op cookie cell ∧ CheckedBy n r log ∧ Unfailed n log ∧
      (isPasswordChange op = false -> ¬ RemovedIn r log) ∧
      (isPasswordChange op = true -> ClearedBy n log)

/-!
## Entries in order
-/

def WithinLimits (o : Options) (log : List Entry) (r : Ref) (t : ℚ) : Prop :=
  exists cookie cell seen, cellIn r log = some (cookie, cell) ∧
    lastSeenIn r log = some seen ∧ t < cell.absoluteExpiresAt ∧
    t < seen + o.idle ∧ forall u, upstreamIn r log = some u -> t < u

/-- A call of `refresh` for the session with the same identity and a later
expiry, still to come at time `t`. -/
def Extends (o : Options) (log : List Entry) (n : Nat) (r : Ref) (t : ℚ)
    (expiresAt : ℚ) : Prop :=
  exists cookie cell upstream, cellIn r log = some (cookie, cell) ∧
    Entry.entered n (Op.refresh cell.id upstream) ∈ log ∧
    upstream.mode = cell.mode ∧
    validateIdentity o upstream = some (cell.identityLabel, some expiresAt) ∧
    t < expiresAt ∧ forall u, upstreamIn r log = some u -> u < expiresAt

structure Newborn (o : Options) (cookie : JsString) (cell : Stored) : Prop where
  digest : cell.digest = o.hash cookie
  absolute : cell.absoluteExpiresAt = cell.createdAt + o.absolute
  idle : cell.idleExpiresAt =
    min cell.absoluteExpiresAt (cell.lastSeen + o.idle)
  seen : cell.lastSeen = cell.createdAt

def Good (o : Options) (before : List Entry) : Entry -> Prop
  | Entry.checked _ r t valid => valid = true -> WithinLimits o before r t
  | Entry.touched n r _ => CheckedBy n r before ∧ Unfailed n before
  | Entry.refreshed n r t expiresAt =>
      CheckedBy n r before ∧ Unfailed n before ∧
        Extends o before n r t expiresAt
  | Entry.established _ r cookie cell =>
      cellIn r before = none ∧ ¬ RemovedIn r before ∧ Newborn o cookie cell
  | Entry.removed _ r =>
      (cellIn r before).isSome = true ∧ ¬ RemovedIn r before
  | Entry.emitting n r _ observers =>
      Entry.removed n r ∈ before ∧ (forall m, ¬ EmittedIn m r before) ∧
        observers = observersIn before ∧ observers.Nodup
  | Entry.notified n r k =>
      exists reason observers,
        Entry.emitting n r reason observers ∈ before ∧
          notifiedIn n r before ++ [k] <+: observers
  | Entry.ended n op res => Answered o before n op res
  | _ => True

theorem removed_unique {o : Options} {log : List Entry}
    (h : EveryEntry (Good o) log) {n m : Nat} {r : Ref}
    (hn : Entry.removed n r ∈ log) (hm : Entry.removed m r ∈ log) : n = m := by
  rcases List.append_of_mem hn with ⟨a, b, hab⟩
  rw [hab] at hm
  rcases List.mem_append.mp hm with hm | hm
  · exact absurd ⟨m, hm⟩ (h a _ b hab).2
  · rcases List.mem_cons.mp hm with hm | hm
    · cases hm
      rfl
    · rcases List.append_of_mem hm with ⟨c, d, hcd⟩
      have hlater := h (a ++ Entry.removed n r :: c) (Entry.removed m r) d
        (by rw [hab, hcd]; simp)
      exact absurd ⟨n, by simp⟩ hlater.2

theorem emitting_removed {o : Options} {log : List Entry}
    (h : EveryEntry (Good o) log) {n : Nat} {r : Ref}
    {reason : RevocationReason} {observers : List Nat}
    (hmem : Entry.emitting n r reason observers ∈ log) :
    Entry.removed n r ∈ log := by
  rcases List.append_of_mem hmem with ⟨a, b, hab⟩
  rw [hab]
  exact List.mem_append_left _ (h a _ b hab).1

end AuthService
end Server
end FlanTerminal

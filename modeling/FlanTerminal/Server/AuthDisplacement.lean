import FlanTerminal.Foundation.Traced
import FlanTerminal.Server.AuthResults

/-!
# All or nothing

An operation that establishes a session either fails and leaves the sessions as
they are, or it removes the sessions that are in the way, adds one, and then
tells the observers about each that it has removed.
-/

namespace FlanTerminal
namespace Server
namespace AuthService

open Foundation

/-!
## The session that goes first
-/

/-- In the order by last use, creation and id, `a` does not come after `b`. -/
def NotAfter (o : Options) (a b : Stored) : Prop :=
  a.lastSeen < b.lastSeen ∨ (a.lastSeen = b.lastSeen ∧
    (a.createdAt < b.createdAt ∨ (a.createdAt = b.createdAt ∧
      (o.localeCompare a.id b.id).isLE = true)))

section Order

variable {o : Options} {a b c : Stored}

variable [Std.TransCmp o.localeCompare]

theorem NotAfter.refl (a : Stored) : NotAfter o a a := by
  refine Or.inr ⟨rfl, Or.inr ⟨rfl, ?_⟩⟩
  have hself : o.localeCompare a.id a.id = Ordering.eq :=
    Std.ReflCmp.compare_self
  rw [hself]
  rfl

theorem NotAfter.trans (h : NotAfter o a b) (h' : NotAfter o b c) :
    NotAfter o a c := by
  rcases h with hseen | ⟨hseen, h⟩
  · rcases h' with hseen' | ⟨hseen', _⟩
    · exact Or.inl (hseen.trans hseen')
    · exact Or.inl (hseen.trans_eq hseen')
  · rcases h' with hseen' | ⟨hseen', h'⟩
    · exact Or.inl (hseen.trans_lt hseen')
    · refine Or.inr ⟨hseen.trans hseen', ?_⟩
      rcases h with hcreated | ⟨hcreated, h⟩
      · rcases h' with hcreated' | ⟨hcreated', _⟩
        · exact Or.inl (hcreated.trans hcreated')
        · exact Or.inl (hcreated.trans_eq hcreated')
      · rcases h' with hcreated' | ⟨hcreated', h'⟩
        · exact Or.inl (hcreated.trans_lt hcreated')
        · exact Or.inr ⟨hcreated.trans hcreated',
            Std.TransCmp.isLE_trans h h'⟩

end Order

def Entry.announcedBy (n : Nat) : Entry -> Option (Ref × RevocationReason)
  | Entry.emitting m r reason _ => if m = n then some (r, reason) else none
  | _ => none

def announced (n : Nat) (log : List Entry) : List (Ref × RevocationReason) :=
  log.filterMap (Entry.announcedBy n)

def Announces (n : Nat) (s s' : State)
    (revoked : List (Ref × RevocationReason)) : Prop :=
  exists new, s'.log = s.log ++ new ∧ announced n new = revoked

def answers (n : Nat) : Prog.Answers State ports := fun s c r s' =>
  Announces n (issue n c s) s' [] ∧
    (boundary c = Boundary.sync -> s' = reply n c r (issue n c s))

def PortCall.resets : PortCall -> Option JsString
  | PortCall.resetAddress address => some address
  | _ => none

def resets (cs : List (Sigma ports.Reply)) : List JsString :=
  cs.filterMap fun c => PortCall.resets c.1

section Runs

variable {o : Options} {n : Nat} {s s' s'' : State} {value : Type}
variable {revoked revoked' : List (Ref × RevocationReason)}
variable {Q : List (Sigma ports.Reply) -> Except Thrown value -> State -> Prop}

theorem Announces.refl (n : Nat) (s : State) : Announces n s s [] :=
  ⟨[], (List.append_nil _).symm, rfl⟩

theorem Announces.trans (h : Announces n s s' revoked)
    (h' : Announces n s' s'' revoked') :
    Announces n s s'' (revoked ++ revoked') := by
  obtain ⟨new, hnew, hrevoked⟩ := h
  obtain ⟨new', hnew', hrevoked'⟩ := h'
  refine ⟨new ++ new', ?_, ?_⟩
  · rw [hnew', hnew, List.append_assoc]
  · rw [<- hrevoked, <- hrevoked']
    exact List.filterMap_append

theorem Announces.record (s : State) (e : Entry) :
    Announces n s (s.record e) (announced n [e]) :=
  ⟨[e], rfl, rfl⟩

/-- Texts and generations may have been drawn, and no more. -/
structure Idle (s s' : State) : Prop where
  log : s'.log = s.log
  sessions : exists g, s'.sessions = { s.sessions with generation := g }

theorem Idle.refl (s : State) : Idle s s :=
  ⟨rfl, s.sessions.generation, rfl⟩

theorem Idle.trans (h : Idle s s') (h' : Idle s' s'') : Idle s s'' := by
  obtain ⟨g, hg⟩ := h.sessions
  obtain ⟨g', hg'⟩ := h'.sessions
  refine ⟨h'.log.trans h.log, g', ?_⟩
  rw [hg', hg]

def Calm (n : Nat) (s : State) (p : Code value)
    (G : value -> State -> Prop) : Prop :=
  p.After (answers n) (fun cs res s' => (Idle s s' ∧ resets cs = []) ∧
    forall a, res = Except.ok a -> G a s') s

/-- A session that has been prepared has a generation of its own. -/
def PreparedIn (s : State) (p : PreparedSession) (s' : State) : Prop :=
  p.session.generation = s.sessions.generation + 1 ∧
    p.session.generation ≤ 2 ^ 53 ∧
    s'.sessions = { s.sessions with generation := p.session.generation }

structure Without (o : Options) (s : Sessions) (refs : List Ref)
    (s' : Sessions) : Prop where
  rep : Rep o s'
  held : s'.held = s.held.filter fun x => decide (x ∉ refs)
  heap : forall x, x ∉ refs -> s'.heap x = s.heap x
  allocated : s'.allocated = s.allocated
  new : forall c, Rep.New s c -> Rep.New s' c

theorem Without.none {s : Sessions} (h : Rep o s) : Without o s [] s := by
  refine ⟨h, ?_, fun _ _ => rfl, rfl, fun _ hc => hc⟩
  simp

theorem Without.cons {s s' : Sessions} {r : Ref} {refs : List Ref}
    (hrep : Rep o s) (hr : r ∈ s.held)
    (h : Without o (s.remove r) refs s') : Without o s (r :: refs) s' := by
  refine ⟨h.rep, ?_, ?_, h.allocated, fun c hc => h.new c (hc.remove hrep hr)⟩
  · rw [h.held, hrep.held_remove hr, List.filter_filter]
    apply List.filter_congr
    intro x _
    rw [Bool.eq_iff_iff]
    simp only [decide_eq_true_iff, Bool.and_eq_true, List.mem_cons, not_or]
    exact and_comm
  · intro x hx
    rw [List.mem_cons, not_or] at hx
    rw [h.heap x hx.2, Rep.heap_remove_of_ne hx.1]

def removals (n : Nat) (revoked : List (Ref × RevocationReason)) :
    List Entry :=
  revoked.map fun p => Entry.removed n p.1

/-- Right after the commit: the displaced sessions are gone, there is one new
session, and the others are as they were. -/
structure Established (n : Nat) (s : State)
    (revoked : List (Ref × RevocationReason)) (mid : State) : Prop where
  held : mid.sessions.held = (s.sessions.held.filter fun x =>
    decide (x ∉ revoked.map Prod.fst)) ++ [s.sessions.allocated]
  new : s.sessions.allocated ∉ s.sessions.held
  others : forall x, x ∈ s.sessions.held -> x ∉ revoked.map Prod.fst ->
    mid.sessions.heap x = s.sessions.heap x
  log : exists cookie, mid.log = s.log ++ removals n revoked ++
    [Entry.established n s.sessions.allocated cookie
      (mid.sessions.heap s.sessions.allocated)]

theorem PreparedIn.rep {p : PreparedSession} (hrep : Rep o s.sessions)
    (h : PreparedIn s p s') : Rep o s'.sessions := by
  rw [h.2.2]
  refine ⟨hrep.byId, hrep.byDigest, hrep.nodup, hrep.ids, hrep.digests,
    hrep.generations, fun r hr => ?_, hrep.placed, hrep.room, h.2.1⟩
  show _ ≤ p.session.generation
  rw [h.1]
  exact (hrep.bounded r hr).trans (Nat.le_succ _)

theorem PreparedIn.new {p : PreparedSession} (hrep : Rep o s.sessions)
    (h : PreparedIn s p s')
    (hdigest : s'.sessions.byDigest.has p.session.digest = false)
    (hid : s'.sessions.byId.has p.session.id = false) :
    Rep.New s'.sessions p.session := by
  refine ⟨hid, hdigest, ?_, ?_⟩
  · rw [h.2.2, h.1]
    intro r hr
    exact Nat.lt_succ_of_le (hrep.bounded r hr)
  · rw [h.2.2]

theorem PreparedIn.established {p : PreparedSession} {s1 : State}
    (hrep : Rep o s.sessions) (h : PreparedIn s p s1) (hidle : Idle s s1)
    (hnew : Rep.New s1.sessions p.session)
    (hwithout : Without o s1.sessions (revoked.map Prod.fst) s'.sessions)
    (hlog : s'.log = s1.log ++ removals n revoked) :
    Established n s revoked
      ((s'.onSessions (Sessions.insert · p.session)).record
        (Entry.established n s'.sessions.allocated p.cookie p.session)) := by
  have hheld : s1.sessions.held = s.sessions.held := by rw [h.2.2]; rfl
  have hheap : s1.sessions.heap = s.sessions.heap := by rw [h.2.2]
  have hallocated : s'.sessions.allocated = s.sessions.allocated := by
    rw [hwithout.allocated, h.2.2]
  constructor
  · show (s'.sessions.insert p.session).held = _
    rw [hwithout.rep.held_insert (hwithout.new _ hnew), hwithout.held, hheld,
      hallocated]
  · intro hmem
    exact Nat.lt_irrefl _ (hrep.placed _ hmem)
  · intro x hx hkept
    show (s'.sessions.insert p.session).heap x = _
    have hlt : x < s'.sessions.allocated := by
      rw [hallocated]
      exact hrep.placed x hx
    rw [Rep.heap_insert_of_lt hlt, hwithout.heap x hkept, hheap]
  · refine ⟨p.cookie, ?_⟩
    show s'.log ++ [_] = _
    rw [hlog, hidle.log, <- hallocated]
    congr 2
    show _ = Entry.established n _ _
      ((s'.sessions.insert p.session).heap s'.sessions.allocated)
    rw [Rep.heap_insert_self]

end Runs

end AuthService
end Server
end FlanTerminal

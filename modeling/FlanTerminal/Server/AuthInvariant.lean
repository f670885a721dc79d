import FlanTerminal.Foundation.RelyGuarantee
import FlanTerminal.Server.AuthHistory

/-!
# The invariant of the authentication service

The sessions held are what the log says, and every removed session has been
announced or is about to be.  Each way in which an operation changes sessions,
observers or the log keeps this.
-/

namespace FlanTerminal
namespace Server
namespace AuthService

open Foundation

/-- A session object `c` and what the log says of it. -/
structure Same (o : Options) (log : List Entry) (r : Ref) (c cell : Stored) :
    Prop where
  id : c.id = cell.id
  generation : c.generation = cell.generation
  mode : c.mode = cell.mode
  identityLabel : c.identityLabel = cell.identityLabel
  createdAt : c.createdAt = cell.createdAt
  absoluteExpiresAt : c.absoluteExpiresAt = cell.absoluteExpiresAt
  absolute : c.absoluteExpiresAt = c.createdAt + o.absolute
  idle : c.idleExpiresAt = min c.absoluteExpiresAt (c.lastSeen + o.idle)
  seen : lastSeenIn r log = some c.lastSeen
  upstream : upstreamIn r log = c.upstreamExpiresAt

structure History (o : Options) (t : Sessions) (log : List Entry) : Prop where
  born : forall r, r < t.allocated <-> (cellIn r log).isSome = true
  same : forall r cookie cell, cellIn r log = some (cookie, cell) ->
    Same o log r (t.heap r) cell
  digest : forall r cookie cell, cellIn r log = some (cookie, cell) ->
    r ∈ t.held -> (t.heap r).digest = o.hash cookie
  kept : forall r, r < t.allocated -> (r ∈ t.held <-> ¬ RemovedIn r log)

/-- Different sessions have different ids and cookies with different hashes,
all of them made of random bytes. -/
structure Distinct (o : Options) (log : List Entry) (tokens : List JsString) :
    Prop where
  drawn : forall r cookie cell, cellIn r log = some (cookie, cell) ->
    cookie ∈ tokens ∧ cell.id ∈ tokens
  apart : forall r cookie cell r' cookie' cell',
    cellIn r log = some (cookie, cell) ->
    cellIn r' log = some (cookie', cell') -> r ≠ r' ->
    o.hash cookie ≠ o.hash cookie' ∧ cell.id ≠ cell'.id

/-- The random source never repeats a text, nor the hash of one. -/
def World.Fresh (o : Options) (w : World) : Prop :=
  forall s n size bytes, w.allowed s n (PortCall.random size) (some bytes) ->
    base64url bytes ∉ s.tokens ∧
      forall t, t ∈ s.tokens -> o.hash (base64url bytes) ≠ o.hash t

structure Base (o : Options) (w : World) (next : Nat) (s : State) : Prop where
  rep : Rep o s.sessions
  history : History o s.sessions s.log
  good : EveryEntry (Good o) s.log
  numbered : forall e, e ∈ s.log -> e.by < next
  observers : observersIn s.log = s.observers
  registered : s.observers.Nodup
  older : forall k, k ∈ s.observers -> k < s.nextObserver
  distinct : w.Fresh o -> Distinct o s.log s.tokens

/-- Removed sessions are announced, and announcements reach all observers, or
the operation is still at it. -/
structure Debts (cs : Census) (log : List Entry) : Prop where
  owed : forall n r, Entry.removed n r ∈ log -> EmittedIn n r log ∨ cs.live n
  sent : forall n r reason observers,
    Entry.emitting n r reason observers ∈ log ->
    notifiedIn n r log = observers ∨ cs.live n

structure Inv (o : Options) (w : World) (cs : Census) (s : State) : Prop where
  base : Base o w cs.next s
  debts : Debts cs s.log

/-!
## Entries that change nothing
-/

/-- Entries that say nothing about sessions, observers or announcements. -/
def Entry.plain : Entry -> Bool
  | entered _ _ => true
  | checked _ _ _ _ => true
  | told _ _ => true
  | ended _ _ _ => true
  | _ => false

def Entry.keeps : Entry -> Bool
  | established _ _ _ _ => false
  | touched _ _ _ => false
  | refreshed _ _ _ _ => false
  | removed _ _ => false
  | _ => true

theorem Entry.plain_keeps {e : Entry} (h : e.plain = true) :
    e.keeps = true := by
  cases e <;> first | rfl | cases h

theorem cellIn_keeps {r : Ref} {log : List Entry} {e : Entry}
    (h : e.keeps = true) : cellIn r (log ++ [e]) = cellIn r log := by
  have hbirth : e.birth r = none := by
    cases e <;> first | rfl | cases h
  rw [cellIn_snoc, hbirth, Option.or_none]

theorem lastSeenIn_keeps {r : Ref} {log : List Entry} {e : Entry}
    (h : e.keeps = true) : lastSeenIn r (log ++ [e]) = lastSeenIn r log := by
  rw [lastSeenIn_snoc]
  cases e <;> first | rfl | cases h

theorem upstreamIn_keeps {r : Ref} {log : List Entry} {e : Entry}
    (h : e.keeps = true) : upstreamIn r (log ++ [e]) = upstreamIn r log := by
  rw [upstreamIn_snoc]
  cases e <;> first | rfl | cases h

theorem removedIn_keeps {r : Ref} {log : List Entry} {e : Entry}
    (h : e.keeps = true) : RemovedIn r (log ++ [e]) <-> RemovedIn r log := by
  rw [removedIn_snoc]
  constructor
  · rintro (hr | ⟨n, hn⟩)
    · exact hr
    · rw [hn] at h
      cases h
  · exact Or.inl

theorem History.keeps {o : Options} {t : Sessions} {log : List Entry}
    (h : History o t log) {e : Entry} (he : e.keeps = true) :
    History o t (log ++ [e]) := by
  constructor
  · intro r
    rw [cellIn_keeps he]
    exact h.born r
  · intro r cookie cell hcell
    rw [cellIn_keeps he] at hcell
    have hsame := h.same r cookie cell hcell
    exact { hsame with
      seen := (lastSeenIn_keeps he).trans hsame.seen
      upstream := (upstreamIn_keeps he).trans hsame.upstream }
  · intro r cookie cell hcell
    rw [cellIn_keeps he] at hcell
    exact h.digest r cookie cell hcell
  · intro r hr
    rw [removedIn_keeps he]
    exact h.kept r hr

theorem Distinct.keeps {o : Options} {log : List Entry}
    {tokens : List JsString} (h : Distinct o log tokens) {e : Entry}
    (he : forall r, e.birth r = none) : Distinct o (log ++ [e]) tokens := by
  have hcell : forall r, cellIn r (log ++ [e]) = cellIn r log := by
    intro r
    rw [cellIn_snoc, he, Option.or_none]
  constructor
  · intro r cookie cell hr
    rw [hcell] at hr
    exact h.drawn r cookie cell hr
  · intro r cookie cell r' cookie' cell' hr hr'
    rw [hcell] at hr hr'
    exact h.apart r cookie cell r' cookie' cell' hr hr'

theorem Entry.birth_keeps {e : Entry} (h : e.keeps = true) (r : Ref) :
    e.birth r = none := by
  cases e <;> first | rfl | cases h

section

variable {o : Options} {w : World} {next : Nat} {s : State}

theorem Base.numbered_snoc (h : Base o w next s) {e : Entry}
    (hby : e.by < next) : forall x, x ∈ s.log ++ [e] -> x.by < next := by
  intro x hx
  rcases List.mem_append.mp hx with hx | hx
  · exact h.numbered x hx
  · rw [List.mem_singleton.mp hx]
    exact hby

theorem Base.record (h : Base o w next s) {e : Entry} (hkeeps : e.keeps = true)
    (hsub : e.subscription s.observers = s.observers) (hgood : Good o s.log e)
    (hby : e.by < next) : Base o w next (s.record e) := by
  constructor
  · exact h.rep
  · exact h.history.keeps hkeeps
  · exact everyEntry_snoc.mpr ⟨h.good, hgood⟩
  · exact h.numbered_snoc hby
  · show observersIn (s.log ++ [e]) = s.observers
    rw [observersIn_snoc, h.observers]
    exact hsub
  · exact h.registered
  · exact h.older
  · intro hfresh
    exact (h.distinct hfresh).keeps (Entry.birth_keeps hkeeps)

/-!
## Changes of one session
-/

/-- What the log still says of the other sessions. -/
structure Elsewhere (r : Ref) (log log' : List Entry) : Prop where
  cell : forall x, cellIn x log' = cellIn x log
  removed : forall x, RemovedIn x log' <-> RemovedIn x log
  seen : forall x, x ≠ r -> lastSeenIn x log' = lastSeenIn x log
  upstream : forall x, x ≠ r -> upstreamIn x log' = upstreamIn x log

theorem Elsewhere.refl (r : Ref) (log : List Entry) : Elsewhere r log log :=
  ⟨fun _ => rfl, fun _ => Iff.rfl, fun _ _ => rfl, fun _ _ => rfl⟩

theorem Elsewhere.touched (n : Nat) (r : Ref) (t : ℚ) (log : List Entry) :
    Elsewhere r log (log ++ [Entry.touched n r t]) := by
  constructor
  · intro x
    rw [cellIn_snoc]
    exact Option.or_none
  · intro x
    rw [removedIn_snoc]
    simp
  · intro x hx
    rw [lastSeenIn_snoc]
    simp [Entry.seen, Ne.symm hx]
  · intro x _
    rw [upstreamIn_snoc]
    rfl

theorem Elsewhere.refreshed (n : Nat) (r : Ref) (t : ℚ)
    (expiresAt : ℚ) (log : List Entry) :
    Elsewhere r log (log ++ [Entry.refreshed n r t expiresAt]) := by
  constructor
  · intro x
    rw [cellIn_snoc]
    exact Option.or_none
  · intro x
    rw [removedIn_snoc]
    simp
  · intro x _
    rw [lastSeenIn_snoc]
    rfl
  · intro x hx
    rw [upstreamIn_snoc]
    simp [Entry.upstream, Ne.symm hx]

theorem History.write {t : Sessions} {log log' : List Entry} {r : Ref}
    {f : Stored -> Stored} (h : History o t log)
    (helse : Elsewhere r log log')
    (hdigest : (f (t.heap r)).digest = (t.heap r).digest)
    (hsame : forall cookie cell, cellIn r log = some (cookie, cell) ->
      Same o log' r (f (t.heap r)) cell) : History o (t.write r f) log' := by
  constructor
  · intro x
    rw [helse.cell]
    exact h.born x
  · intro x cookie cell hcell
    rw [helse.cell] at hcell
    rw [Sessions.heap_write]
    by_cases hx : x = r
    · rw [if_pos hx, hx]
      rw [hx] at hcell
      exact hsame cookie cell hcell
    · rw [if_neg hx]
      have hold := h.same x cookie cell hcell
      exact { hold with
        seen := (helse.seen x hx).trans hold.seen
        upstream := (helse.upstream x hx).trans hold.upstream }
  · intro x cookie cell hcell hheld
    rw [helse.cell] at hcell
    rw [Sessions.heap_write]
    by_cases hx : x = r
    · rw [if_pos hx, hdigest]
      rw [hx] at hcell hheld
      exact h.digest r cookie cell hcell hheld
    · rw [if_neg hx]
      exact h.digest x cookie cell hcell hheld
  · intro x hx
    rw [helse.removed]
    exact h.kept x hx

theorem Base.touched (h : Base o w next s) {n : Nat} {r : Ref} (t : ℚ)
    (hchecked : CheckedBy n r s.log ∧ Unfailed n s.log) (hn : n < next) :
    Base o w next
      ((s.onSessions (Sessions.write · r (Stored.touch o t))).record
        (Entry.touched n r t)) := by
  constructor
  · exact h.rep.write r (f := Stored.touch o t) rfl rfl rfl
  · apply h.history.write (f := Stored.touch o t)
      (Elsewhere.touched n r t s.log) rfl
    intro cookie cell hcell
    have hold := h.history.same r cookie cell hcell
    exact { hold with
      absolute := hold.absolute
      idle := rfl
      seen := by
        rw [lastSeenIn_snoc]
        simp [Entry.seen, Stored.touch]
      upstream := by
        rw [upstreamIn_snoc]
        exact hold.upstream }
  · exact everyEntry_snoc.mpr ⟨h.good, hchecked⟩
  · exact h.numbered_snoc hn
  · show observersIn (s.log ++ [Entry.touched n r t]) = s.observers
    rw [observersIn_snoc, h.observers]
    rfl
  · exact h.registered
  · exact h.older
  · intro hfresh
    exact (h.distinct hfresh).keeps (fun _ => rfl)

theorem Base.refreshed (h : Base o w next s) {n : Nat} {r : Ref} {t : ℚ}
    {expiresAt : ℚ} (hchecked : CheckedBy n r s.log ∧ Unfailed n s.log)
    (hextends : Extends o s.log n r t expiresAt) (hn : n < next) :
    Base o w next
      ((s.onSessions (Sessions.write · r (Stored.refresh expiresAt))).record
        (Entry.refreshed n r t expiresAt)) := by
  constructor
  · exact h.rep.write r (f := Stored.refresh expiresAt) rfl rfl rfl
  · apply h.history.write (f := Stored.refresh expiresAt)
      (Elsewhere.refreshed n r t expiresAt s.log) rfl
    intro cookie cell hcell
    have hold := h.history.same r cookie cell hcell
    exact { hold with
      absolute := hold.absolute
      idle := hold.idle
      seen := by
        rw [lastSeenIn_snoc]
        exact hold.seen
      upstream := by
        rw [upstreamIn_snoc]
        simp [Entry.upstream, Stored.refresh] }
  · exact everyEntry_snoc.mpr ⟨h.good, hchecked.1, hchecked.2, hextends⟩
  · exact h.numbered_snoc hn
  · show observersIn (s.log ++ [Entry.refreshed n r t expiresAt]) =
      s.observers
    rw [observersIn_snoc, h.observers]
    rfl
  · exact h.registered
  · exact h.older
  · intro hfresh
    exact (h.distinct hfresh).keeps (fun _ => rfl)

theorem Base.setCsrf (h : Base o w next s) (r : Ref) (record : CsrfRecord) :
    Base o w next
      (s.onSessions (Sessions.write · r (Stored.setCsrf record))) := by
  refine ⟨h.rep.write r (f := Stored.setCsrf record) rfl rfl rfl, ?_, h.good, h.numbered, h.observers,
    h.registered, h.older, h.distinct⟩
  apply h.history.write (f := Stored.setCsrf record)
    (Elsewhere.refl r s.log) rfl
  intro cookie cell hcell
  have hold := h.history.same r cookie cell hcell
  exact { hold with
    absolute := hold.absolute
    idle := hold.idle
    seen := hold.seen
    upstream := hold.upstream }

/-- The counter of generations only grows. -/
theorem Base.generation (h : Base o w next s) {g : Nat}
    (hg : s.sessions.generation ≤ g) (hsafe : g ≤ 2 ^ 53) :
    Base o w next
      (s.onSessions fun t => { t with generation := g }) := by
  refine ⟨?_, ⟨h.history.born, h.history.same, h.history.digest,
    h.history.kept⟩, h.good, h.numbered, h.observers, h.registered, h.older,
    h.distinct⟩
  refine ⟨h.rep.byId, h.rep.byDigest, h.rep.nodup, h.rep.ids, h.rep.digests,
    h.rep.generations, ?_, h.rep.placed, h.rep.room, hsafe⟩
  intro r hr
  exact (h.rep.bounded r hr).trans hg

/-!
## Sessions that go and come
-/

theorem heap_remove_fields (t : Sessions) (r x : Ref) :
    (t.remove r).heap x = t.heap x ∨
      (t.remove r).heap x = { t.heap x with digest := [] } := by
  by_cases hx : x = r
  · right
    rw [hx]
    show (if r = r then _ else t.heap r) = _
    rw [if_pos rfl]
  · exact Or.inl (Rep.heap_remove_of_ne hx)

theorem History.removed {t : Sessions} {log : List Entry}
    (h : History o t log) (hrep : Rep o t) (n : Nat) {r : Ref}
    (hr : r ∈ t.held) :
    History o (t.remove r) (log ++ [Entry.removed n r]) := by
  have hcell : forall x, cellIn x (log ++ [Entry.removed n r]) =
      cellIn x log := by
    intro x
    rw [cellIn_snoc]
    exact Option.or_none
  have hseen : forall x, lastSeenIn x (log ++ [Entry.removed n r]) =
      lastSeenIn x log := by
    intro x
    rw [lastSeenIn_snoc]
    rfl
  have hup : forall x, upstreamIn x (log ++ [Entry.removed n r]) =
      upstreamIn x log := by
    intro x
    rw [upstreamIn_snoc]
    rfl
  constructor
  · intro x
    rw [hcell]
    exact h.born x
  · intro x cookie cell hx
    rw [hcell] at hx
    have hold := h.same x cookie cell hx
    rcases heap_remove_fields t r x with hheap | hheap
    · rw [hheap]
      exact { hold with
        seen := (hseen x).trans hold.seen
        upstream := (hup x).trans hold.upstream }
    · rw [hheap]
      exact { hold with
        absolute := hold.absolute
        idle := hold.idle
        seen := (hseen x).trans hold.seen
        upstream := (hup x).trans hold.upstream }
  · intro x cookie cell hx hheld
    rw [hcell] at hx
    rcases (hrep.mem_held_remove hr).mp hheld with ⟨hheld, hne⟩
    rw [Rep.heap_remove_of_ne hne]
    exact h.digest x cookie cell hx hheld
  · intro x hx
    rw [hrep.mem_held_remove hr, removedIn_snoc, h.kept x hx]
    constructor
    · rintro ⟨hnot, hne⟩ (hin | ⟨m, hm⟩)
      · exact hnot hin
      · cases hm
        exact hne rfl
    · intro hnot
      constructor
      · intro hin
        exact hnot (Or.inl hin)
      · intro hxr
        exact hnot (Or.inr ⟨n, by rw [hxr]⟩)

theorem Base.removed (h : Base o w next s) {n : Nat} {r : Ref}
    (hr : r ∈ s.sessions.held) (hn : n < next) :
    Base o w next
      ((s.onSessions (Sessions.remove · r)).record (Entry.removed n r)) := by
  have hplaced : r < s.sessions.allocated := h.rep.placed r hr
  have hkept : ¬ RemovedIn r s.log := (h.history.kept r hplaced).mp hr
  constructor
  · exact h.rep.remove hr
  · exact h.history.removed h.rep n hr
  · refine everyEntry_snoc.mpr ⟨h.good, ?_, hkept⟩
    exact (h.history.born r).mp hplaced
  · exact h.numbered_snoc hn
  · show observersIn (s.log ++ [Entry.removed n r]) = s.observers
    rw [observersIn_snoc, h.observers]
    rfl
  · exact h.registered
  · exact h.older
  · intro hfresh
    exact (h.distinct hfresh).keeps (fun _ => rfl)

theorem History.unborn {t : Sessions} {log : List Entry}
    (h : History o t log) : cellIn t.allocated log = none := by
  cases hc : cellIn t.allocated log with
  | none => rfl
  | some c =>
      have hlt := (h.born t.allocated).mpr (by rw [hc]; rfl)
      exact absurd hlt (Nat.lt_irrefl _)

theorem removed_born {log : List Entry} (h : EveryEntry (Good o) log) {r : Ref}
    (hr : RemovedIn r log) : (cellIn r log).isSome = true := by
  rcases hr with ⟨m, hm⟩
  rcases List.append_of_mem hm with ⟨a, b, hab⟩
  rcases Option.isSome_iff_exists.mp (h a _ b hab).1 with ⟨c, hc⟩
  rw [hab, cellIn_append hc]
  rfl

section Established

variable {n : Nat} {r : Ref} {cookie : JsString} {cell : Stored}
variable {log : List Entry}

theorem cellIn_established (h : cellIn r log = none) :
    cellIn r (log ++ [Entry.established n r cookie cell]) =
      some (cookie, cell) := by
  rw [cellIn_snoc, h]
  simp [Entry.birth]

theorem cellIn_established_of_ne {x : Ref} (hx : x ≠ r) :
    cellIn x (log ++ [Entry.established n r cookie cell]) =
      cellIn x log := by
  rw [cellIn_snoc]
  simp [Entry.birth, Ne.symm hx]

theorem History.established {t : Sessions} (h : History o t log)
    (hrep : Rep o t) (hnew : Rep.New t cell) (hborn : Newborn o cookie cell)
    (hnever : ¬ RemovedIn t.allocated log) :
    History o (t.insert cell)
      (log ++ [Entry.established n t.allocated cookie cell]) := by
  have hremoved : forall x, RemovedIn x (log ++
      [Entry.established n t.allocated cookie cell]) <->
      RemovedIn x log := by
    intro x
    rw [removedIn_snoc]
    simp
  constructor
  · intro x
    show x < t.allocated + 1 <-> _
    by_cases hx : x = t.allocated
    · rw [hx, cellIn_established h.unborn]
      simp
    · rw [cellIn_established_of_ne hx, ← h.born x]
      omega
  · intro x c' cell' hx
    by_cases hxr : x = t.allocated
    · rw [hxr, cellIn_established h.unborn] at hx
      cases hx
      rw [hxr, Rep.heap_insert_self]
      refine ⟨rfl, rfl, rfl, rfl, rfl, rfl, hborn.absolute, hborn.idle,
        ?_, ?_⟩
      · rw [lastSeenIn_snoc, hborn.seen]
        simp [Entry.seen]
      · rw [upstreamIn_snoc]
        simp [Entry.upstream]
    · rw [cellIn_established_of_ne hxr] at hx
      have hold := h.same x c' cell' hx
      rw [Rep.heap_insert, if_neg hxr]
      exact { hold with
        seen := by
          rw [lastSeenIn_snoc]
          simpa [Entry.seen, Ne.symm hxr] using hold.seen
        upstream := by
          rw [upstreamIn_snoc]
          simpa [Entry.upstream, Ne.symm hxr] using hold.upstream }
  · intro x c' cell' hx hheld
    by_cases hxr : x = t.allocated
    · rw [hxr, cellIn_established h.unborn] at hx
      cases hx
      rw [hxr, Rep.heap_insert_self]
      exact hborn.digest
    · rw [cellIn_established_of_ne hxr] at hx
      rw [Rep.heap_insert, if_neg hxr]
      rw [hrep.held_insert hnew] at hheld
      rcases List.mem_append.mp hheld with hmem | hmem
      · exact h.digest x c' cell' hx hmem
      · exact absurd (List.mem_singleton.mp hmem) hxr
  · intro x hx
    rw [hrep.held_insert hnew, hremoved]
    by_cases hxr : x = t.allocated
    · rw [hxr]
      simp [hnever]
    · have hlt : x < t.allocated :=
        Nat.lt_of_le_of_ne (Nat.le_of_lt_succ hx) hxr
      rw [← h.kept x hlt]
      simp [hxr]

end Established

/-- A cookie and an id that no session has had. -/
structure Unused (o : Options) (s : State) (cookie id : JsString) : Prop where
  drawn : cookie ∈ s.tokens ∧ id ∈ s.tokens
  apart : forall r cookie' cell', cellIn r s.log = some (cookie', cell') ->
    o.hash cookie' ≠ o.hash cookie ∧ cell'.id ≠ id

theorem Distinct.established {n : Nat} {r : Ref} {cookie : JsString}
    {cell : Stored} (h : Distinct o s.log s.tokens)
    (hborn : cellIn r s.log = none) (hunused : Unused o s cookie cell.id) :
    Distinct o (s.log ++ [Entry.established n r cookie cell]) s.tokens := by
  -- every session in the longer log is the new one or an old one
  have hcases : forall x c' cell',
      cellIn x (s.log ++ [Entry.established n r cookie cell]) =
        some (c', cell') ->
      (x = r ∧ c' = cookie ∧ cell' = cell) ∨
        (x ≠ r ∧ cellIn x s.log = some (c', cell')) := by
    intro x c' cell' hx
    by_cases hxr : x = r
    · rw [hxr, cellIn_established hborn] at hx
      cases hx
      exact Or.inl ⟨hxr, rfl, rfl⟩
    · rw [cellIn_established_of_ne hxr] at hx
      exact Or.inr ⟨hxr, hx⟩
  constructor
  · intro x c' cell' hx
    rcases hcases x c' cell' hx with ⟨_, hc, hcell⟩ | ⟨_, hold⟩
    · rw [hc, hcell]
      exact hunused.drawn
    · exact h.drawn x c' cell' hold
  · intro x c' cell' y d' dell' hx hy hxy
    rcases hcases x c' cell' hx with ⟨hxr, hc, hcell⟩ | ⟨_, hold⟩
    · rcases hcases y d' dell' hy with ⟨hyr, _, _⟩ | ⟨_, hold'⟩
      · exact absurd (hxr.trans hyr.symm) hxy
      · have hne := hunused.apart y d' dell' hold'
        rw [hc, hcell]
        exact ⟨hne.1.symm, hne.2.symm⟩
    · rcases hcases y d' dell' hy with ⟨_, hd, hdell⟩ | ⟨_, hold'⟩
      · rw [hd, hdell]
        exact hunused.apart x c' cell' hold
      · exact h.apart x c' cell' y d' dell' hold hold' hxy

theorem Base.established (h : Base o w next s) {n : Nat} {cookie : JsString}
    {cell : Stored} (hnew : Rep.New s.sessions cell)
    (hroom : s.sessions.held.length < o.max)
    (hborn : Newborn o cookie cell)
    (hunused : w.Fresh o -> Unused o s cookie cell.id) (hn : n < next) :
    Base o w next
      ((s.onSessions (Sessions.insert · cell)).record
        (Entry.established n s.sessions.allocated cookie cell)) := by
  have hnone := h.history.unborn
  have hnever : ¬ RemovedIn s.sessions.allocated s.log := by
    intro hremoved
    have hborn' := removed_born h.good hremoved
    rw [hnone] at hborn'
    cases hborn'
  constructor
  · exact h.rep.insert hnew hroom
  · exact h.history.established h.rep hnew hborn hnever
  · exact everyEntry_snoc.mpr ⟨h.good, hnone, hnever, hborn⟩
  · exact h.numbered_snoc hn
  · show observersIn (s.log ++
      [Entry.established n s.sessions.allocated cookie cell]) = s.observers
    rw [observersIn_snoc, h.observers]
    rfl
  · exact h.registered
  · exact h.older
  · intro hfresh
    exact (h.distinct hfresh).established hnone (hunused hfresh)

/-!
## Observers
-/

theorem Base.subscribed (h : Base o w next s) {n : Nat} (hn : n < next) :
    Base o w next
      (s.subscribe.record (Entry.subscribed n s.nextObserver)) := by
  refine ⟨h.rep, h.history.keeps rfl, everyEntry_snoc.mpr ⟨h.good, trivial⟩,
    h.numbered_snoc hn, ?_, ?_, ?_, ?_⟩
  · show observersIn (s.log ++ [Entry.subscribed n s.nextObserver]) =
      s.observers ++ [s.nextObserver]
    rw [observersIn_snoc, h.observers]
    rfl
  · show (s.observers ++ [s.nextObserver]).Nodup
    rw [List.nodup_append]
    refine ⟨h.registered, List.nodup_singleton _, ?_⟩
    intro k hk k' hk' heq
    rw [heq, List.mem_singleton.mp hk'] at hk
    exact Nat.lt_irrefl _ (h.older _ hk)
  · intro k hk
    rcases List.mem_append.mp hk with hk | hk
    · exact Nat.lt_succ_of_lt (h.older k hk)
    · rw [List.mem_singleton.mp hk]
      exact Nat.lt_succ_self _
  · intro hfresh
    exact (h.distinct hfresh).keeps (fun _ => rfl)

theorem Base.unsubscribed (h : Base o w next s) {n : Nat} (k : Nat)
    (hn : n < next) :
    Base o w next
      ((s.unsubscribe k).record (Entry.unsubscribed n k)) := by
  refine ⟨h.rep, h.history.keeps rfl, everyEntry_snoc.mpr ⟨h.good, trivial⟩,
    h.numbered_snoc hn, ?_, h.registered.filter _, ?_, ?_⟩
  · show observersIn (s.log ++ [Entry.unsubscribed n k]) =
      s.observers.filter _
    rw [observersIn_snoc, h.observers]
    rfl
  · intro x hx
    exact h.older x (List.mem_filter.mp hx).1
  · intro hfresh
    exact (h.distinct hfresh).keeps (fun _ => rfl)

end

/-!
## Announcements

An operation keeps account of the sessions it has removed and not announced,
and of the observers it has still to tell.
-/

theorem Debts.record {cs : Census} {log : List Entry} (h : Debts cs log)
    {e : Entry} (hlive : cs.live e.by) : Debts cs (log ++ [e]) := by
  constructor
  · intro n r hr
    rcases List.mem_append.mp hr with hr | hr
    · rcases h.owed n r hr with hemitted | hn
      · exact Or.inl (hemitted.append [e])
      · exact Or.inr hn
    · rw [← List.mem_singleton.mp hr] at hlive
      exact Or.inr hlive
  · intro n r reason observers hr
    by_cases hn : e.by = n
    · rw [hn] at hlive
      exact Or.inr hlive
    · rcases List.mem_append.mp hr with hr | hr
      · rcases h.sent n r reason observers hr with hsent | hlive'
        · left
          rw [notifiedIn_append, hsent, notifiedIn_of_by, List.append_nil]
          intro x hx
          rw [List.mem_singleton.mp hx]
          exact hn
        · exact Or.inr hlive'
      · rw [← List.mem_singleton.mp hr] at hn
        exact absurd rfl hn

structure Mine (n : Nat) (owed : List Ref) (due : Ref -> List Nat)
    (log : List Entry) : Prop where
  owes : forall r, Entry.removed n r ∈ log -> EmittedIn n r log ∨ r ∈ owed
  mine : forall r, r ∈ owed -> Entry.removed n r ∈ log
  unsent : forall r, r ∈ owed -> forall m, ¬ EmittedIn m r log
  sent : forall r reason observers,
    Entry.emitting n r reason observers ∈ log ->
    notifiedIn n r log ++ due r = observers

def nothing : Ref -> List Nat :=
  fun _ => []

/-- The observers `rest` have still to be told of session `r`. -/
def dueTo (r : Ref) (rest : List Nat) : Ref -> List Nat :=
  fun x => if x = r then rest else []

def Entry.quiet : Entry -> Bool
  | removed _ _ => false
  | emitting _ _ _ _ => false
  | notified _ _ _ => false
  | _ => true

section Account

variable {o : Options} {n : Nat} {owed : List Ref} {due : Ref -> List Nat}
variable {log : List Entry}

theorem notified_emitted (h : EveryEntry (Good o) log) {r : Ref}
    (hnone : ¬ EmittedIn n r log) : notifiedIn n r log = [] := by
  apply List.filterMap_eq_nil_iff.mpr
  intro e he
  cases e with
  | notified m x k =>
      by_cases hmx : m = n ∧ x = r
      · rw [hmx.1, hmx.2] at he
        rcases List.append_of_mem he with ⟨a, b, hab⟩
        rcases h a _ b hab with ⟨reason, observers, hmem, _⟩
        apply absurd _ hnone
        refine ⟨reason, observers, ?_⟩
        rw [hab]
        exact List.mem_append_left _ hmem
      · simp [Entry.recipient, hmx]
  | entered m op => rfl
  | checked m r' t v => rfl
  | touched m r' t => rfl
  | refreshed m r' t x => rfl
  | established m r' c cell => rfl
  | removed m r' => rfl
  | emitting m r' reason obs => rfl
  | subscribed m k => rfl
  | unsubscribed m k => rfl
  | told m outcome => rfl
  | ended m op res => rfl

theorem notifiedIn_quiet {r : Ref} {e : Entry}
    (he : forall k, e ≠ Entry.notified n r k) :
    notifiedIn n r (log ++ [e]) = notifiedIn n r log := by
  have hnone : e.recipient n r = none := by
    cases e with
    | notified m x k =>
        have hmx : ¬ (m = n ∧ x = r) := by
          intro hmx
          exact he k (by rw [hmx.1, hmx.2])
        simp [Entry.recipient, hmx]
    | entered m op => rfl
    | checked m r' t v => rfl
    | touched m r' t => rfl
    | refreshed m r' t x => rfl
    | established m r' c cell => rfl
    | removed m r' => rfl
    | emitting m r' reason obs => rfl
    | subscribed m k => rfl
    | unsubscribed m k => rfl
    | told m outcome => rfl
    | ended m op res => rfl
  rw [notifiedIn_append]
  simp [notifiedIn, hnone]

theorem emittedIn_snoc {m : Nat} {r : Ref} {e : Entry}
    (he : forall reason observers, e ≠ Entry.emitting m r reason observers)
    (h : EmittedIn m r (log ++ [e])) : EmittedIn m r log := by
  rcases h with ⟨reason, observers, hmem⟩
  rcases List.mem_append.mp hmem with hmem | hmem
  · exact ⟨reason, observers, hmem⟩
  · exact absurd (List.mem_singleton.mp hmem).symm (he reason observers)

theorem Mine.quiet (h : Mine n owed due log) {e : Entry}
    (he : e.quiet = true) : Mine n owed due (log ++ [e]) := by
  have hremoved : forall m r, e ≠ Entry.removed m r := by
    intro m r heq
    rw [heq] at he
    cases he
  have hemitting : forall m r reason observers,
      e ≠ Entry.emitting m r reason observers := by
    intro m r reason observers heq
    rw [heq] at he
    cases he
  have hnotified : forall m r k, e ≠ Entry.notified m r k := by
    intro m r k heq
    rw [heq] at he
    cases he
  constructor
  · intro r hr
    rcases List.mem_append.mp hr with hr | hr
    · rcases h.owes r hr with hemitted | howed
      · exact Or.inl (hemitted.append [e])
      · exact Or.inr howed
    · exact absurd (List.mem_singleton.mp hr).symm (hremoved n r)
  · intro r hr
    exact List.mem_append_left _ (h.mine r hr)
  · intro r hr m hemitted
    exact h.unsent r hr m (emittedIn_snoc (hemitting m r) hemitted)
  · intro r reason observers hmem
    rw [notifiedIn_quiet (hnotified n r)]
    rcases List.mem_append.mp hmem with hmem | hmem
    · exact h.sent r reason observers hmem
    · exact absurd (List.mem_singleton.mp hmem).symm
        (hemitting n r reason observers)

theorem Mine.removed (h : Mine n owed due log) (hgood : EveryEntry (Good o) log)
    {r : Ref} (hr : ¬ RemovedIn r log) :
    Mine n (owed ++ [r]) due (log ++ [Entry.removed n r]) := by
  constructor
  · intro x hx
    rcases List.mem_append.mp hx with hx | hx
    · rcases h.owes x hx with hemitted | howed
      · exact Or.inl (hemitted.append _)
      · exact Or.inr (List.mem_append_left _ howed)
    · cases List.mem_singleton.mp hx
      exact Or.inr (List.mem_append_right _ List.mem_cons_self)
  · intro x hx
    rcases List.mem_append.mp hx with hx | hx
    · exact List.mem_append_left _ (h.mine x hx)
    · rw [List.mem_singleton.mp hx]
      exact List.mem_append_right _ List.mem_cons_self
  · intro x hx m hemitted
    have hold : EmittedIn m x log :=
      emittedIn_snoc (fun _ _ heq => Entry.noConfusion heq) hemitted
    rcases List.mem_append.mp hx with hx | hx
    · exact h.unsent x hx m hold
    · rw [List.mem_singleton.mp hx] at hold
      rcases hold with ⟨reason, observers, hmem⟩
      exact hr ⟨m, emitting_removed hgood hmem⟩
  · intro x reason observers hmem
    rw [notifiedIn_quiet (fun _ heq => Entry.noConfusion heq)]
    rcases List.mem_append.mp hmem with hmem | hmem
    · exact h.sent x reason observers hmem
    · cases List.mem_singleton.mp hmem

theorem Mine.emitting {r : Ref} {reason : RevocationReason}
    {observers : List Nat} (h : Mine n (r :: owed) nothing log)
    (hgood : EveryEntry (Good o) log) (hr : r ∉ owed) :
    Mine n owed (dueTo r observers)
      (log ++ [Entry.emitting n r reason observers]) := by
  have hnone : ¬ EmittedIn n r log := h.unsent r List.mem_cons_self n
  constructor
  · intro x hx
    rcases List.mem_append.mp hx with hx | hx
    · rcases h.owes x hx with hemitted | howed
      · exact Or.inl (hemitted.append _)
      · rcases List.mem_cons.mp howed with hxr | howed
        · left
          rw [hxr]
          exact ⟨reason, observers,
            List.mem_append_right _ List.mem_cons_self⟩
        · exact Or.inr howed
    · cases List.mem_singleton.mp hx
  · intro x hx
    exact List.mem_append_left _ (h.mine x (List.mem_cons_of_mem r hx))
  · intro x hx m hemitted
    apply h.unsent x (List.mem_cons_of_mem r hx) m
    apply emittedIn_snoc _ hemitted
    intro reason' observers' heq
    cases heq
    exact hr hx
  · intro x reason' observers' hmem
    rw [notifiedIn_quiet (fun _ heq => Entry.noConfusion heq)]
    unfold dueTo
    rcases List.mem_append.mp hmem with hmem | hmem
    · by_cases hxr : x = r
      · rw [hxr] at hmem
        exact absurd ⟨reason', observers', hmem⟩ hnone
      · rw [if_neg hxr]
        exact h.sent x reason' observers' hmem
    · cases List.mem_singleton.mp hmem
      rw [if_pos rfl, notified_emitted hgood hnone]
      rfl

theorem Mine.notified {r : Ref} {k : Nat} {rest : List Nat}
    (h : Mine n owed (dueTo r (k :: rest)) log) :
    Mine n owed (dueTo r rest) (log ++ [Entry.notified n r k]) := by
  constructor
  · intro x hx
    rcases List.mem_append.mp hx with hx | hx
    · rcases h.owes x hx with hemitted | howed
      · exact Or.inl (hemitted.append _)
      · exact Or.inr howed
    · cases List.mem_singleton.mp hx
  · intro x hx
    exact List.mem_append_left _ (h.mine x hx)
  · intro x hx m hemitted
    exact h.unsent x hx m
      (emittedIn_snoc (fun _ _ heq => Entry.noConfusion heq) hemitted)
  · intro x reason observers hmem
    rcases List.mem_append.mp hmem with hmem | hmem
    · have hsent := h.sent x reason observers hmem
      unfold dueTo at hsent ⊢
      by_cases hxr : x = r
      · rw [if_pos hxr] at hsent ⊢
        rw [notifiedIn_append, hxr]
        rw [hxr] at hsent
        simpa [notifiedIn, Entry.recipient] using hsent
      · rw [if_neg hxr] at hsent ⊢
        rw [notifiedIn_quiet]
        · exact hsent
        · intro k' heq
          cases heq
          exact hxr rfl
    · cases List.mem_singleton.mp hmem

theorem Mine.done {r : Ref} (h : Mine n owed (dueTo r []) log) :
    Mine n owed nothing log := by
  refine ⟨h.owes, h.mine, h.unsent, ?_⟩
  intro x reason observers hmem
  have hsent := h.sent x reason observers hmem
  unfold dueTo at hsent
  simpa [nothing] using hsent

theorem Mine.relied (h : Mine n owed due log) {more : List Entry}
    (hgood : EveryEntry (Good o) (log ++ more))
    (hmore : forall e, e ∈ more -> e.by ≠ n) :
    Mine n owed due (log ++ more) := by
  constructor
  · intro r hr
    rcases List.mem_append.mp hr with hr | hr
    · rcases h.owes r hr with hemitted | howed
      · exact Or.inl (hemitted.append more)
      · exact Or.inr howed
    · exact absurd rfl (hmore _ hr)
  · intro r hr
    exact List.mem_append_left _ (h.mine r hr)
  · intro r hr m hemitted
    rcases hemitted with ⟨reason, observers, hmem⟩
    have hremoved := emitting_removed hgood hmem
    have hm := removed_unique hgood
      (List.mem_append_left more (h.mine r hr)) hremoved
    rcases List.mem_append.mp hmem with hmem | hmem
    · exact h.unsent r hr m ⟨reason, observers, hmem⟩
    · exact hmore _ hmem hm.symm
  · intro r reason observers hmem
    rw [notifiedIn_append, notifiedIn_of_by hmore, List.append_nil]
    rcases List.mem_append.mp hmem with hmem | hmem
    · exact h.sent r reason observers hmem
    · exact absurd rfl (hmore _ hmem)

end Account

end AuthService
end Server
end FlanTerminal

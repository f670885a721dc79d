import FlanTerminal.Foundation.Ledger
import FlanTerminal.Foundation.Script
import FlanTerminal.Foundation.Trace
import FlanTerminal.Server.WebSocketAuthIndex

/-!
# The maps of the index agree

Registrations come and go in one piece: the index agrees with itself wherever
an operation gives up control, but for the empty set of a session that a
registration in progress has just made.
-/

namespace FlanTerminal
namespace Server
namespace WebSocketAuthIndex

open Foundation

def Registered (x : Index) (r : Registration) : Prop :=
  x.bySocket.get r.socket = some r

def Registration.session (r : Registration) : JsString :=
  r.authority.applicationSessionId

def tabCount (x : Index) (terminalTabId : JsString) : Nat :=
  x.bySocket.values.countP fun r => decide (r.terminalTabId = terminalTabId)

/-- The maps of the index agree.  A session with an empty set is one of
`half`. -/
structure Rep (x : Index) (half : JsString -> Nat -> Prop) : Prop where
  sockets : x.bySocket.Distinct
  keyed : forall k r, x.bySocket.get k = some r -> k = r.socket
  addresses : forall r, Registered x r -> r.address < x.nextAddress
  sessions : x.bySession.Distinct
  heap : forall id a, x.bySession.get id = some a -> a < x.nextAddress
  apart : forall id id' a, x.bySession.get id = some a ->
    x.bySession.get id' = some a -> id = id'
  members : forall id a, x.bySession.get id = some a -> forall r,
    r ∈ x.set a <-> Registered x r ∧ r.session = id
  covered : forall r, Registered x r ->
    exists a, x.bySession.get r.session = some a
  generations : forall r r', Registered x r -> Registered x r' ->
    r.session = r'.session -> r.authority.generation = r'.authority.generation
  counts : forall t, x.tabCounts.get t =
    if tabCount x t = 0 then none else some (tabCount x t : Int)
  nonempty : forall id a, x.bySession.get id = some a -> x.set a = [] ->
    half id a

theorem set_eq (x : Index) (a : Nat) (set : JsSet Registration) (b : Nat) :
    Index.set { x with sets := x.sets.set a set } b =
      if a = b then set else x.set b := by
  unfold Index.set
  rw [JsMap.get_set]
  by_cases h : a = b
  · simp [h]
  · simp [h]

theorem advance_eq (x : Index) (t : JsString) :
    exists b c, x.advanceCleanupGeneration t =
      { x with cleanupEvictionGeneration := b, cleanupGenerations := c } := by
  unfold Index.advanceCleanupGeneration
  simp only
  split
  · exact ⟨_, _, rfl⟩
  · split
    · exact ⟨_, _, rfl⟩
    · exact ⟨_, _, rfl⟩

namespace Rep

variable {x : Index} {half : JsString -> Nat -> Prop}

theorem mono (h : Rep x half) {half' : JsString -> Nat -> Prop}
    (himp : forall id a, half id a -> half' id a) : Rep x half' :=
  { h with nonempty := fun id a ha hset => himp id a (h.nonempty id a ha hset) }

theorem newSession (h : Rep x half) {id : JsString}
    (hnone : x.bySession.get id = none) :
    Rep (x.newSession id) (fun id' a => half id' a ∨
      id' = id ∧ a = x.nextAddress) := by
  have hget : forall id', (x.newSession id).bySession.get id' =
      if id = id' then some x.nextAddress else x.bySession.get id' :=
    fun id' => JsMap.get_set _ _ _ _
  have hset : forall a, (x.newSession id).set a =
      if x.nextAddress = a then [] else x.set a := by
    intro a
    exact set_eq x x.nextAddress [] a
  have hold : forall id' a, (x.newSession id).bySession.get id' = some a ->
      id' = id ∧ a = x.nextAddress ∨
        x.bySession.get id' = some a ∧ x.nextAddress ≠ a ∧ id' ≠ id := by
    intro id' a ha
    rw [hget] at ha
    split at ha
    · rename_i hid
      cases ha
      exact Or.inl ⟨hid.symm, rfl⟩
    · rename_i hid
      have hlt := h.heap id' a ha
      exact Or.inr ⟨ha, by omega, fun heq => hid heq.symm⟩
  refine { h with
    addresses := fun r hr => Nat.lt_succ_of_lt (h.addresses r hr)
    sessions := JsMap.distinct_set h.sessions id _
    heap := ?_
    apart := ?_
    members := ?_
    covered := ?_
    nonempty := ?_ }
  · intro id' a ha
    rcases hold id' a ha with ⟨_, ha⟩ | ⟨ha, _⟩
    · rw [ha]
      exact Nat.lt_succ_self _
    · exact Nat.lt_succ_of_lt (h.heap id' a ha)
  · intro id' id'' a ha ha'
    rcases hold id' a ha with ⟨hid, hnew⟩ | ⟨ha, hne, _⟩
    · rcases hold id'' a ha' with ⟨hid', _⟩ | ⟨_, hne, _⟩
      · rw [hid, hid']
      · exact absurd hnew.symm hne
    · rcases hold id'' a ha' with ⟨_, hnew⟩ | ⟨ha', _⟩
      · exact absurd hnew.symm hne
      · exact h.apart id' id'' a ha ha'
  · intro id' a ha r
    rw [hset]
    rcases hold id' a ha with ⟨hid, hnew⟩ | ⟨ha, hne, _⟩
    · rw [if_pos hnew.symm]
      constructor
      · exact fun h => by cases h
      · rintro ⟨hr, hrid⟩
        rcases h.covered r hr with ⟨a', ha'⟩
        rw [hrid, hid, hnone] at ha'
        cases ha'
    · rw [if_neg hne]
      exact h.members id' a ha r
  · intro r hr
    rw [hget]
    split
    · exact ⟨_, rfl⟩
    · exact h.covered r hr
  · intro id' a ha hempty
    rcases hold id' a ha with hnew | ⟨ha, hne, _⟩
    · exact Or.inr hnew
    · rw [hset, if_neg hne] at hempty
      exact Or.inl (h.nonempty id' a ha hempty)

/-- The code leaves a session whose set it holds: an empty set goes. -/
theorem dropSession (h : Rep x half) {id : JsString} {a : Nat}
    (hheld : x.bySession.get id = some a ∨
      x.bySession.get id = none ∧ x.set a = []) :
    Rep (x.dropSession id a)
      (fun id' a' => half id' a' ∧ ¬ (id' = id ∧ a' = a)) := by
  unfold Index.dropSession
  by_cases hempty : x.set a = []
  · rw [if_pos (by simp [hempty])]
    have hget : forall id' a', JsMap.get (x.bySession.delete id) id' =
        some a' -> x.bySession.get id' = some a' ∧ id' ≠ id := by
      intro id' a' ha'
      rw [JsMap.get_delete] at ha'
      split at ha'
      · cases ha'
      · rename_i hne
        exact ⟨ha', fun heq => hne heq.symm⟩
    refine { h with
      sessions := JsMap.distinct_delete h.sessions id
      heap := fun id' a' ha' => h.heap id' a' (hget id' a' ha').1
      apart := fun id' id'' a' ha' ha'' =>
        h.apart id' id'' a' (hget id' a' ha').1 (hget id'' a' ha'').1
      members := fun id' a' ha' => h.members id' a' (hget id' a' ha').1
      covered := ?_
      nonempty := ?_ }
    · intro r hr
      rcases h.covered r hr with ⟨a', ha'⟩
      refine ⟨a', ?_⟩
      show JsMap.get (x.bySession.delete id) r.session = some a'
      rw [JsMap.get_delete, if_neg]
      · exact ha'
      · intro heq
        rw [← heq] at ha'
        rcases hheld with hsome | ⟨hnone, _⟩
        · rw [hsome] at ha'
          cases ha'
          have hmem := (h.members id a hsome r).mpr ⟨hr, heq.symm⟩
          rw [hempty] at hmem
          cases hmem
        · rw [hnone] at ha'
          cases ha'
    · intro id' a' ha' hset
      rcases hget id' a' ha' with ⟨ha', hne⟩
      exact ⟨h.nonempty id' a' ha' hset, fun hboth => hne hboth.1⟩
  · rw [if_neg (by simpa using hempty)]
    refine { h with nonempty := ?_ }
    intro id' a' ha' hset
    refine ⟨h.nonempty id' a' ha' hset, ?_⟩
    rintro ⟨_, heq⟩
    rw [heq] at hset
    exact hempty hset

end Rep

/-!
## A registration comes
-/

theorem registered_insert {x : Index} {r : Registration} {a : Nat}
    (hfree : x.bySocket.get r.socket = none) (q : Registration) :
    Registered (x.insert a r) q <-> Registered x q ∨ q = r := by
  unfold Registered Index.insert
  rcases advance_eq _ r.terminalTabId with ⟨b, c, heq⟩
  rw [heq]
  show JsMap.get (x.bySocket.set r.socket r) q.socket = some q <-> _
  rw [JsMap.get_set]
  by_cases hsocket : r.socket = q.socket
  · rw [if_pos hsocket, ← hsocket, hfree]
    constructor
    · intro h
      exact Or.inr (Option.some.inj h).symm
    · rintro (h | h)
      · cases h
      · rw [h]
  · rw [if_neg hsocket]
    constructor
    · exact Or.inl
    · rintro (h | h)
      · exact h
      · rw [h] at hsocket
        exact absurd rfl hsocket

theorem tabCount_insert {x : Index} {r : Registration} {a : Nat}
    (hfree : x.bySocket.get r.socket = none) (t : JsString) :
    tabCount (x.insert a r) t =
      tabCount x t + if r.terminalTabId = t then 1 else 0 := by
  unfold tabCount Index.insert
  rcases advance_eq _ r.terminalTabId with ⟨b, c, heq⟩
  rw [heq]
  show (JsMap.values (x.bySocket.set r.socket r)).countP _ = _
  rw [JsMap.set_new hfree]
  simp [JsMap.values, List.countP_append, List.countP_cons]

theorem Rep.insert {x : Index} {half : JsString -> Nat -> Prop}
    (h : Rep x half) {r : Registration} {a : Nat}
    (hfree : x.bySocket.get r.socket = none)
    (hsession : x.bySession.get r.session = some a)
    (haddress : r.address = x.nextAddress)
    (hgeneration : forall q, Registered x q -> q.session = r.session ->
      q.authority.generation = r.authority.generation) :
    Rep (x.insert a r)
      (fun id' a' => half id' a' ∧ ¬ (id' = r.session ∧ a' = a)) := by
  have hregistered := registered_insert (a := a) hfree
  have hset : forall b, (x.insert a r).set b =
      if a = b then (x.set a).add r else x.set b := by
    intro b
    unfold Index.insert
    rcases advance_eq _ r.terminalTabId with ⟨e, c, heq⟩
    rw [heq]
    exact set_eq x a _ b
  have hby : (x.insert a r).bySession = x.bySession := by
    unfold Index.insert
    rcases advance_eq _ r.terminalTabId with ⟨e, c, heq⟩
    rw [heq]
  have hsockets : (x.insert a r).bySocket = x.bySocket.set r.socket r := by
    unfold Index.insert
    rcases advance_eq _ r.terminalTabId with ⟨e, c, heq⟩
    rw [heq]
  have hnext : (x.insert a r).nextAddress = x.nextAddress + 1 := by
    unfold Index.insert
    rcases advance_eq _ r.terminalTabId with ⟨e, c, heq⟩
    rw [heq]
  constructor
  · rw [hsockets]
    exact JsMap.distinct_set h.sockets _ _
  · intro k q hq
    rw [hsockets, JsMap.get_set] at hq
    split at hq
    · rename_i hk
      cases hq
      exact hk.symm
    · exact h.keyed k q hq
  · intro q hq
    rw [hnext]
    rcases (hregistered q).mp hq with hq | hq
    · exact Nat.lt_succ_of_lt (h.addresses q hq)
    · rw [hq, haddress]
      exact Nat.lt_succ_self _
  · rw [hby]
    exact h.sessions
  · intro id b hb
    rw [hby] at hb
    rw [hnext]
    exact Nat.lt_succ_of_lt (h.heap id b hb)
  · intro id id' b hb hb'
    rw [hby] at hb hb'
    exact h.apart id id' b hb hb'
  · intro id b hb q
    rw [hby] at hb
    rw [hset, hregistered]
    by_cases hab : a = b
    · rw [if_pos hab]
      rw [← hab] at hb
      have hid := h.apart id r.session a hb hsession
      rw [JsSet.mem_add, h.members id a hb]
      constructor
      · rintro (⟨hq, hqid⟩ | hq)
        · exact ⟨Or.inl hq, hqid⟩
        · rw [hq]
          exact ⟨Or.inr rfl, hid.symm⟩
      · rintro ⟨hq | hq, hqid⟩
        · exact Or.inl ⟨hq, hqid⟩
        · exact Or.inr hq
    · rw [if_neg hab, h.members id b hb]
      constructor
      · rintro ⟨hq, hqid⟩
        exact ⟨Or.inl hq, hqid⟩
      · rintro ⟨hq | hq, hqid⟩
        · exact ⟨hq, hqid⟩
        · rw [hq] at hqid
          rw [← hqid, hsession] at hb
          exact absurd (Option.some.inj hb) hab
  · intro q hq
    rw [hby]
    rcases (hregistered q).mp hq with hq | hq
    · exact h.covered q hq
    · rw [hq]
      exact ⟨a, hsession⟩
  · intro q q' hq hq' hsame
    rcases (hregistered q).mp hq with hq | hq
    · rcases (hregistered q').mp hq' with hq' | hq'
      · exact h.generations q q' hq hq' hsame
      · rw [hq'] at hsame ⊢
        exact hgeneration q hq hsame
    · rcases (hregistered q').mp hq' with hq' | hq'
      · rw [hq] at hsame ⊢
        exact (hgeneration q' hq' hsame.symm).symm
      · rw [hq, hq']
  · intro t
    have hcounts : (x.insert a r).tabCounts = x.tabCounts.set r.terminalTabId
        ((x.tabCounts.get r.terminalTabId).getD 0 + 1) := by
      unfold Index.insert
      rcases advance_eq _ r.terminalTabId with ⟨e, c, heq⟩
      rw [heq]
    rw [hcounts, JsMap.get_set, tabCount_insert hfree, h.counts t]
    by_cases ht : r.terminalTabId = t
    · rw [if_pos ht, if_pos ht, ht, h.counts t]
      by_cases hzero : tabCount x t = 0
      · simp [hzero]
      · simp [hzero]
    · rw [if_neg ht, if_neg ht, Nat.add_zero]
  · intro id b hb hempty
    rw [hby] at hb
    rw [hset] at hempty
    split at hempty
    · have hmem : r ∈ (x.set a).add r := JsSet.mem_add.mpr (Or.inr rfl)
      rw [hempty] at hmem
      cases hmem
    · rename_i hab
      exact ⟨h.nonempty id b hb hempty, fun hboth => hab hboth.2.symm⟩

/-!
## A registration goes
-/

theorem removeFromSession_eq {x : Index} {r : Registration} {a : Nat}
    (h : x.bySession.get r.session = some a) :
    x.removeFromSession r =
      { x with
        sets := x.sets.set a ((x.set a).delete r)
        bySession := if (x.set a).delete r = [] then
            x.bySession.delete r.session
          else x.bySession } := by
  have h' : x.bySession.get r.authority.applicationSessionId = some a := h
  unfold Index.removeFromSession
  rw [h']
  simp only [Index.dropSession]
  have hset := set_eq x a ((x.set a).delete r) a
  rw [if_pos rfl] at hset
  rw [hset]
  by_cases hempty : (x.set a).delete r = []
  · rw [if_pos (by simp [hempty]), if_pos hempty]
    rfl
  · rw [if_neg (by simpa using hempty), if_neg hempty]

theorem uncount_eq (x : Index) (t : JsString) :
    exists counts, x.uncount t = { x with tabCounts := counts } ∧
      forall t', JsMap.get counts t' =
        if t = t' then
          (if (x.tabCounts.get t).getD 1 - 1 = 0 then none
            else some ((x.tabCounts.get t).getD 1 - 1))
        else x.tabCounts.get t' := by
  unfold Index.uncount
  simp only
  split
  · rename_i hzero
    refine ⟨_, rfl, ?_⟩
    intro t'
    rw [JsMap.get_delete]
  · rename_i hpos
    refine ⟨_, rfl, ?_⟩
    intro t'
    rw [JsMap.get_set]

structure Removed (x y : Index) (r : Registration) (a : Nat) : Prop where
  bySocket : y.bySocket = x.bySocket.delete r.socket
  nextAddress : y.nextAddress = x.nextAddress
  bySession : y.bySession = if (x.set a).delete r = [] then
    x.bySession.delete r.session else x.bySession
  sets : forall b, y.set b = if a = b then (x.set a).delete r else x.set b
  counts : forall t, y.tabCounts.get t =
    if r.terminalTabId = t then
      (if (x.tabCounts.get r.terminalTabId).getD 1 - 1 = 0 then none
        else some ((x.tabCounts.get r.terminalTabId).getD 1 - 1))
    else x.tabCounts.get t
  disposed : y.disposed = x.disposed

theorem removed {x : Index} {r : Registration} {a : Nat}
    (h : x.bySession.get r.session = some a) : Removed x (x.remove r) r a := by
  unfold Index.remove
  rcases advance_eq (Index.uncount (Index.removeFromSession
    { x with bySocket := x.bySocket.delete r.socket } r) r.terminalTabId)
    r.terminalTabId with ⟨b, c, hadvance⟩
  rcases uncount_eq (Index.removeFromSession
    { x with bySocket := x.bySocket.delete r.socket } r) r.terminalTabId with
    ⟨counts, huncount, hcounts⟩
  have hremove := removeFromSession_eq (r := r) (a := a)
    (x := { x with bySocket := x.bySocket.delete r.socket }) h
  rw [hadvance, huncount, hremove]
  rw [hremove] at hcounts
  refine ⟨rfl, rfl, rfl, ?_, hcounts, rfl⟩
  intro b'
  exact set_eq x a _ b'

namespace Removed

variable {x y : Index} {r : Registration} {a : Nat}
variable {half : JsString -> Nat -> Prop}

theorem registered (hy : Removed x y r a)
    (hr : Registered x r) (q : Registration) :
    Registered y q <-> Registered x q ∧ q ≠ r := by
  unfold Registered at hr ⊢
  rw [hy.bySocket, JsMap.get_delete]
  by_cases hsocket : r.socket = q.socket
  · rw [if_pos hsocket]
    constructor
    · nofun
    · rintro ⟨hq, hne⟩
      rw [← hsocket, hr] at hq
      exact absurd (Option.some.inj hq).symm hne
  · rw [if_neg hsocket]
    constructor
    · intro hq
      refine ⟨hq, ?_⟩
      intro heq
      rw [heq] at hsocket
      exact hsocket rfl
    · exact fun hboth => hboth.1

theorem mem_rest (h : Rep x half) (ha : x.bySession.get r.session = some a)
    (q : Registration) : q ∈ (x.set a).delete r <->
      (Registered x q ∧ q.session = r.session) ∧ q ≠ r := by
  rw [JsSet.mem_delete, h.members _ a ha]

theorem session_some (hy : Removed x y r a) {id : JsString} {b : Nat}
    (hb : y.bySession.get id = some b) : x.bySession.get id = some b ∧
      ((x.set a).delete r = [] -> id ≠ r.session) := by
  rw [hy.bySession] at hb
  split at hb
  · rw [JsMap.get_delete] at hb
    split at hb
    · cases hb
    · rename_i hne
      exact ⟨hb, fun _ heq => hne heq.symm⟩
  · rename_i hrest
    exact ⟨hb, fun hempty => absurd hempty hrest⟩

theorem session_keep (hy : Removed x y r a) {id : JsString}
    (hkeep : (x.set a).delete r = [] -> id ≠ r.session) :
    y.bySession.get id = x.bySession.get id := by
  rw [hy.bySession]
  split
  · rename_i hempty
    rw [JsMap.get_delete, if_neg fun heq => hkeep hempty heq.symm]
  · rfl

theorem tabCount (hy : Removed x y r a) (h : Rep x half)
    (hr : Registered x r) (t : JsString) :
    WebSocketAuthIndex.tabCount x t = WebSocketAuthIndex.tabCount y t +
      if r.terminalTabId = t then 1 else 0 := by
  unfold WebSocketAuthIndex.tabCount
  rw [hy.bySocket, JsMap.countP_delete h.sockets hr]
  simp

theorem rep (hy : Removed x y r a) (h : Rep x half) (hr : Registered x r)
    (ha : x.bySession.get r.session = some a) : Rep y half := by
  have hregistered := hy.registered hr
  constructor
  · rw [hy.bySocket]
    exact JsMap.distinct_delete h.sockets _
  · intro k q hq
    rw [hy.bySocket, JsMap.get_delete] at hq
    split at hq
    · cases hq
    · exact h.keyed k q hq
  · intro q hq
    rw [hy.nextAddress]
    exact h.addresses q ((hregistered q).mp hq).1
  · rw [hy.bySession]
    split
    · exact JsMap.distinct_delete h.sessions _
    · exact h.sessions
  · intro id b hb
    rw [hy.nextAddress]
    exact h.heap id b (hy.session_some hb).1
  · intro id id' b hb hb'
    exact h.apart id id' b (hy.session_some hb).1 (hy.session_some hb').1
  · intro id b hb q
    have hold := (hy.session_some hb).1
    rw [hy.sets, hregistered]
    by_cases hab : a = b
    · rw [if_pos hab, mem_rest h ha]
      rw [← hab] at hold
      have hid := h.apart id r.session a hold ha
      rw [hid]
      tauto
    · rw [if_neg hab, h.members id b hold]
      constructor
      · rintro ⟨hq, hqid⟩
        refine ⟨⟨hq, ?_⟩, hqid⟩
        intro heq
        rw [heq] at hqid
        rw [← hqid, ha] at hold
        exact hab (Option.some.inj hold)
      · rintro ⟨⟨hq, _⟩, hqid⟩
        exact ⟨hq, hqid⟩
  · intro q hq
    rcases (hregistered q).mp hq with ⟨hq, hne⟩
    rcases h.covered q hq with ⟨b, hb⟩
    refine ⟨b, ?_⟩
    rw [hy.session_keep, hb]
    intro hempty hid
    have hmem := (mem_rest h ha q).mpr ⟨⟨hq, hid⟩, hne⟩
    rw [hempty] at hmem
    cases hmem
  · intro q q' hq hq' hsame
    exact h.generations q q' ((hregistered q).mp hq).1
      ((hregistered q').mp hq').1 hsame
  · intro t
    have hcount := hy.tabCount h hr t
    rw [hy.counts]
    by_cases ht : r.terminalTabId = t
    · rw [if_pos ht] at hcount ⊢
      have hsome := h.counts t
      rw [if_neg (by omega)] at hsome
      rw [ht, hsome]
      simp only [Option.getD_some]
      by_cases hzero : WebSocketAuthIndex.tabCount y t = 0
      · rw [if_pos (by omega), if_pos hzero]
      · rw [if_neg (by omega), if_neg hzero]
        congr 1
        omega
    · rw [if_neg ht] at hcount ⊢
      rw [h.counts t, hcount, Nat.add_zero]
  · intro id b hb hempty
    rcases hy.session_some hb with ⟨hold, hkept⟩
    rw [hy.sets] at hempty
    split at hempty
    · rename_i hab
      rw [← hab] at hold
      exact absurd (h.apart id r.session a hold ha) (hkept hempty)
    · exact h.nonempty id b hold hempty

theorem held (hy : Removed x y r a) (h : Rep x half) (hr : Registered x r)
    (ha : x.bySession.get r.session = some a) {id : JsString} {b : Nat}
    (hheld : x.bySession.get id = some b ∨
      x.bySession.get id = none ∧ x.set b = []) :
    y.bySession.get id = some b ∨
      y.bySession.get id = none ∧ y.set b = [] := by
  have hmem : r ∈ x.set a := (h.members _ a ha r).mpr ⟨hr, rfl⟩
  rcases hheld with hb | ⟨hnone, hempty⟩
  · by_cases hgone : (x.set a).delete r = [] ∧ id = r.session
    · right
      rcases hgone with ⟨hrest, hid⟩
      rw [hid, ha] at hb
      cases hb
      constructor
      · rw [hy.bySession, if_pos hrest, JsMap.get_delete, if_pos hid.symm]
      · rw [hy.sets, if_pos rfl, hrest]
    · left
      rw [hy.session_keep, hb]
      intro hrest hid
      exact hgone ⟨hrest, hid⟩
  · right
    constructor
    · rw [hy.bySession]
      split
      · rw [JsMap.get_delete]
        split
        · rfl
        · exact hnone
      · exact hnone
    · rw [hy.sets]
      split
      · rename_i hab
        rw [← hab] at hempty
        rw [hempty] at hmem
        cases hmem
      · exact hempty

end Removed

/-!
## The invariant
-/

/-- The registration that waits for this call. -/
def registering : PortCall -> Option Op
  | PortCall.revoking authority (Site.first terminalTabId socket) =>
      some (Op.registerIfActive authority terminalTabId socket)
  | PortCall.revoking authority (Site.second terminalTabId socket _) =>
      some (Op.registerIfActive authority terminalTabId socket)
  | _ => none

/-- A registration in progress has made this set for the session. -/
def Half (L : Ledger ports) (id : JsString) (a : Nat) : Prop :=
  exists m authority t k,
    L.pending m = some (PortCall.revoking authority (Site.second t k a)) ∧
      authority.applicationSessionId = id

/-- A registration that fails adds nothing and leaves no empty set. -/
def Good (before : List Entry) : Entry -> Prop
  | Entry.ended n (Op.registerIfActive authority terminalTabId socket)
      (Except.ok (some false)) index =>
      (exists registrations, Entry.entered n
          (Op.registerIfActive authority terminalTabId socket)
          registrations ∈ before ∧
        forall r, Registered index r -> r ∈ registrations) ∧
      forall id a, index.bySession.get id = some a -> index.set a ≠ []
  | _ => True

def numberOf : Entry -> Nat
  | Entry.entered n _ _ => n
  | Entry.ended n _ _ _ => n

/-- What the log says.  A socket that was unregistered, and for which no
registration was called since, is not in the index. -/
structure Past (next : Nat) (bySocket : JsMap Nat Registration)
    (log : List Entry) : Prop where
  good : EveryEntry Good log
  numbers : forall e, e ∈ log -> numberOf e < next
  gone : forall m k res x, Entry.ended m (Op.unregister k) res x ∈ log ->
    (forall n authority t registrations,
      Entry.entered n (Op.registerIfActive authority t k) registrations ∈
        log -> n < m) -> bySocket.get k = none

theorem Past.entered {next : Nat} {bySocket : JsMap Nat Registration}
    {log : List Entry} (h : Past next bySocket log) (o : Op)
    (registrations : List Registration) :
    Past (next + 1) bySocket
      (log ++ [Entry.entered next o registrations]) := by
  constructor
  · exact everyEntry_snoc.mpr ⟨h.good, trivial⟩
  · intro e he
    rcases List.mem_append.mp he with he | he
    · exact Nat.lt_succ_of_lt (h.numbers e he)
    · rw [List.mem_singleton.mp he]
      exact Nat.lt_succ_self next
  · intro m k res x hm hbefore
    have hold : Entry.ended m (Op.unregister k) res x ∈ log := by
      simpa using hm
    exact h.gone m k res x hold fun n authority t registrations' hn =>
      hbefore n authority t registrations' (List.mem_append_left _ hn)

theorem Past.ended {next n : Nat} {x : Index} {log : List Entry}
    (h : Past next x.bySocket log) (hn : n < next) {o : Op}
    {res : Except Empty (Option Bool)}
    (hgood : Good log (Entry.ended n o res x))
    (hgone : forall k, o = Op.unregister k -> x.bySocket.get k = none) :
    Past next x.bySocket (log ++ [Entry.ended n o res x]) := by
  constructor
  · exact everyEntry_snoc.mpr ⟨h.good, hgood⟩
  · intro e he
    rcases List.mem_append.mp he with he | he
    · exact h.numbers e he
    · rw [List.mem_singleton.mp he]
      exact hn
  · intro m k res' y hm hbefore
    rcases List.mem_append.mp hm with hm | hm
    · exact h.gone m k res' y hm fun n' authority t registrations hn' =>
        hbefore n' authority t registrations (List.mem_append_left _ hn')
    · cases List.mem_singleton.mp hm
      exact hgone k rfl

structure Inv (options : Options) (L : Ledger ports) (s : State) : Prop where
  rep : Rep s.index (Half L)
  sockets : s.index.bySocket.length ≤ options.maxSockets
  sessions : s.index.bySession.length ≤ options.maxApplicationSessions
  held : forall m authority t k a,
    L.pending m = some (PortCall.revoking authority (Site.second t k a)) ->
      s.index.bySession.get authority.applicationSessionId = some a ∨
      s.index.bySession.get authority.applicationSessionId = none ∧
        s.index.set a = []
  busy : forall m c, L.pending m = some c -> m ∈ s.active
  single : forall m c o m' c' o', L.pending m = some c ->
    registering c = some o -> L.pending m' = some c' ->
      registering c' = some o' -> m = m'
  shrunk : forall m c o, L.pending m = some c -> registering c = some o ->
    exists registrations, Entry.entered m o registrations ∈ s.log ∧
      forall r, Registered s.index r -> r ∈ registrations
  past : Past L.next s.index.bySocket s.log

section Walk

variable {options : Options} {L : Ledger ports} {n : Nat} {s : State}

/-- No wait that a registration makes. -/
def Quiet (x : Option PortCall) : Prop :=
  forall c, x = some c -> registering c = none

theorem quiet_none : Quiet none :=
  nofun

theorem registering_of_put {x : Option PortCall} (hx : Quiet x) {m : Nat}
    {c : PortCall} {o : Op} (hm : (L.put n x).pending m = some c)
    (hc : registering c = some o) : L.pending m = some c := by
  rcases Ledger.pending_put.mp hm with ⟨_, heq⟩ | ⟨_, hm⟩
  · rw [hx c heq] at hc
    cases hc
  · exact hm

theorem Inv.put (h : Inv options L s) {x : Option PortCall}
    (hactive : x.isSome = true -> n ∈ s.active) (hx : Quiet x)
    (hold : Quiet (L.pending n)) : Inv options (L.put n x) s := by
  refine { h with
    rep := ?_
    held := ?_
    busy := ?_
    single := ?_
    shrunk := ?_ }
  · apply h.rep.mono
    rintro id a ⟨m, authority, t, k, hm, hid⟩
    have hne : m ≠ n := by
      intro heq
      rw [heq] at hm
      cases hold _ hm
    exact ⟨m, authority, t, k, (Ledger.put_other L _ hne).trans hm, hid⟩
  · intro m authority t k a hm
    exact h.held m authority t k a (registering_of_put hx hm rfl)
  · intro m c hm
    rcases Ledger.pending_put.mp hm with ⟨hmn, heq⟩ | ⟨_, hm⟩
    · rw [hmn]
      rw [heq] at hactive
      exact hactive rfl
    · exact h.busy m c hm
  · intro m c o m' c' o' hm hc hm' hc'
    exact h.single m c o m' c' o' (registering_of_put hx hm hc) hc
      (registering_of_put hx hm' hc') hc'
  · intro m c o hm hc
    exact h.shrunk m c o (registering_of_put hx hm hc) hc

theorem Inv.remove (h : Inv options L s) {r : Registration}
    (hr : Registered s.index r) :
    Inv options L { s with index := s.index.remove r } := by
  rcases h.rep.covered r hr with ⟨a, ha⟩
  have hremoved := removed ha
  refine { h with
    rep := ?_
    sockets := ?_
    sessions := ?_
    held := ?_
    shrunk := ?_
    past := ?_ }
  · exact hremoved.rep h.rep hr ha
  · show (s.index.remove r).bySocket.length ≤ options.maxSockets
    rw [hremoved.bySocket]
    exact Nat.le_trans (JsMap.length_delete_le _ _) h.sockets
  · show (s.index.remove r).bySession.length ≤ _
    rw [hremoved.bySession]
    split
    · exact Nat.le_trans (JsMap.length_delete_le _ _) h.sessions
    · exact h.sessions
  · intro m authority t k b hm
    exact hremoved.held h.rep hr ha (h.held m authority t k b hm)
  · intro m c o hm hc
    rcases h.shrunk m c o hm hc with ⟨registrations, hlog, hsub⟩
    refine ⟨registrations, hlog, ?_⟩
    intro q hq
    exact hsub q ((hremoved.registered hr q).mp hq).1
  · refine { h.past with gone := ?_ }
    intro m k res x hm hbefore
    show JsMap.get (s.index.remove r).bySocket k = none
    rw [hremoved.bySocket, JsMap.get_delete]
    split
    · rfl
    · exact h.past.gone m k res x hm hbefore

theorem Inv.leave (h : Inv options L s) (hfree : L.pending n = none)
    (hn : n < L.next) {o : Op} {res : Except Empty (Option Bool)}
    (hgood : Good s.log (Entry.ended n o res s.index))
    (hgone : forall k, o = Op.unregister k ->
      s.index.bySocket.get k = none) :
    Inv options L { s with
      active := s.active.filter fun m => decide (m ≠ n)
      log := s.log ++ [Entry.ended n o res s.index] } := by
  refine { h with
    busy := ?_
    shrunk := ?_
    past := h.past.ended hn hgood hgone }
  · intro m c hm
    have hne : m ≠ n := by
      intro heq
      rw [heq, hfree] at hm
      cases hm
    rw [List.mem_filter]
    exact ⟨h.busy m c hm, by simpa using hne⟩
  · intro m c o' hm hc
    rcases h.shrunk m c o' hm hc with ⟨registrations, hlog, hsub⟩
    exact ⟨registrations, List.mem_append_left _ hlog, hsub⟩

theorem Inv.enter (h : Inv options L s) (o : Op) :
    Inv options { L with next := L.next + 1 } { s with
      active := L.next :: s.active
      log := s.log ++ [Entry.entered L.next o s.index.bySocket.values] } := by
  refine { h with
    busy := ?_
    shrunk := ?_
    past := h.past.entered o _ }
  · intro m c hm
    exact List.mem_cons_of_mem _ (h.busy m c hm)
  · intro m c o' hm hc
    rcases h.shrunk m c o' hm hc with ⟨registrations, hlog, hsub⟩
    exact ⟨registrations, List.mem_append_left _ hlog, hsub⟩

/-!
## Operations that add nothing
-/

structure Here (options : Options) (L : Ledger ports) (s : State) (n : Nat) :
    Prop where
  inv : Inv options L s
  active : n ∈ s.active
  free : L.pending n = none
  number : n < L.next

def Keeps (options : Options) {result : Type} (p : Code result) : Prop :=
  forall {L : Ledger ports} {s : State} {n : Nat}
    {Q : Except Empty result -> Ledger ports -> State -> Prop},
    Here options L s n ->
    (forall L' t v, Here options L' t n -> Q (Except.ok v) L' t) ->
    p.owes (alone options) (Inv options) n Q L s

theorem keeps_pure {result : Type} (v : result) :
    Keeps options (Prog.ret v) :=
  fun h hQ => hQ _ _ v h

theorem Keeps.bind {result other : Type} {p : Code result}
    {g : result -> Code other} (hp : Keeps options p)
    (hg : forall v, Keeps options (g v)) : Keeps options (p >>= g) := by
  intro L s n Q h hQ
  rw [Prog.owes_bind]
  apply hp h
  intro L' t v h'
  exact hg v h' hQ

theorem keeps_sync {c : PortCall} (hc : boundary c = Boundary.sync) :
    Keeps options (Prog.ask (I := ports) c) := by
  intro L s n Q h hQ
  refine (Prog.owes_sync (M := alone options) hc).mpr ?_
  intro r _
  exact hQ L s r h

theorem keeps_callback {c : PortCall} (hc : boundary c ≠ Boundary.sync)
    (hquiet : registering c = none) :
    Keeps options (Prog.ask (I := ports) c) := by
  intro L s n Q h hQ
  have hx : Quiet (some c) := by
    intro c' heq
    cases heq
    exact hquiet
  refine (Prog.owes_wait (M := alone options) hc).mpr ⟨?_, ?_⟩
  · apply h.inv.put (fun _ => h.active) hx
    rw [h.free]
    exact quiet_none
  · intro L' t r hpending hn _ hinv _
    apply hQ
    refine ⟨hinv.put nofun quiet_none ?_, hinv.busy n c hpending,
      Ledger.put_same _ _ _, hn⟩
    rw [hpending]
    exact hx

theorem owes_disposeAll {result : Type} {k : Nat}
    {Q : Except Empty result -> Ledger ports -> State -> Prop}
    {g : Unit -> Code result} (disposables : List Event)
    (hg : (g ()).owes (alone options) (Inv options) n Q L s) :
    (disposeAll host k disposables >>= g).owes (alone options)
      (Inv options) n Q L s := by
  induction disposables with
  | nil => exact hg
  | cons e rest ih =>
      unfold disposeAll
      refine (Prog.owes_sync (M := alone options)
        (c := PortCall.unlisten e k) rfl).mpr ?_
      intro r _
      exact ih

theorem owes_unregister {result : Type} {socket : Nat}
    {Q : Except Empty result -> Ledger ports -> State -> Prop}
    {g : Unit -> Code result} (h : Here options L s n)
    (hg : forall t, Here options L t n ->
      t.index.bySocket.get socket = none ->
      (g ()).owes (alone options) (Inv options) n Q L t) :
    (unregister host socket >>= g).owes (alone options) (Inv options) n Q L
      s := by
  unfold unregister
  simp only [Prog.read_bind, Prog.act_bind, Prog.owes_act, id_eq]
  cases hget : s.index.bySocket.get socket with
  | none =>
      have hget' : (host.index s).bySocket.get socket = none := hget
      simp only [hget']
      exact hg s h hget
  | some r =>
      have hget' : (host.index s).bySocket.get socket = some r := hget
      simp only [hget', Prog.modify_bind, Prog.act_bind, Prog.owes_act]
      have hsocket := h.inv.rep.keyed socket r hget
      rw [hsocket] at hget
      rcases h.inv.rep.covered r hget with ⟨a, ha⟩
      refine owes_disposeAll r.disposables (hg _ ⟨h.inv.remove hget,
        h.active, h.free, h.number⟩ ?_)
      show JsMap.get (s.index.remove r).bySocket socket = none
      rw [(removed ha).bySocket, hsocket, JsMap.get_delete, if_pos rfl]

theorem keeps_unregister (socket : Nat) :
    Keeps options (unregister host socket) := by
  intro L s n Q h hQ
  rw [← Prog.bind_ret (unregister host socket)]
  apply owes_unregister h
  intro t ht _
  exact hQ L t () ht

theorem keeps_secure (socket : Nat) :
    Keeps options (secureAuthenticationClosure host socket) := by
  unfold secureAuthenticationClosure
  apply Keeps.bind (keeps_sync (c := PortCall.isOpen socket) rfl)
  intro isOpen
  split
  · exact keeps_pure true
  · apply Keeps.bind (keeps_callback (c := PortCall.close socket) nofun rfl)
    intro _
    apply Keeps.bind (keeps_sync (c := PortCall.isOpen socket) rfl)
    intro isOpen'
    split
    · exact keeps_pure true
    · apply Keeps.bind
        (keeps_callback (c := PortCall.terminate socket) nofun rfl)
      intro _
      apply Keeps.bind (keeps_sync (c := PortCall.isOpen socket) rfl)
      intro isOpen''
      exact keeps_pure _

theorem keeps_closeAuthenticationRequired (socket : Nat) :
    Keeps options (closeAuthenticationRequired host socket) := by
  unfold closeAuthenticationRequired
  apply Keeps.bind (keeps_secure socket)
  intro secured
  split
  · exact Keeps.bind (keeps_unregister socket) fun _ => keeps_pure _
  · exact keeps_pure _

theorem keeps_closeEach (sockets : List Nat) :
    Keeps options (closeEach host sockets) := by
  induction sockets with
  | nil => exact keeps_pure ()
  | cons socket rest ih =>
      unfold closeEach
      exact Keeps.bind (keeps_closeAuthenticationRequired socket) fun _ => ih

theorem keeps_read {result : Type} {g : State -> Code result}
    (hg : forall s, Keeps options (g s)) : Keeps options (Prog.read >>= g) :=
  fun h hQ => hg _ h hQ

theorem keeps_closeSession (applicationSessionId : JsString) :
    Keeps options (closeSession host applicationSessionId) := by
  unfold closeSession
  apply keeps_read
  intro s
  split
  · exact keeps_pure ()
  · exact keeps_closeEach _

theorem keeps_sweepEach (registrations : List Registration) :
    Keeps options (sweepEach host registrations) := by
  induction registrations with
  | nil => exact keeps_pure ()
  | cons r rest ih =>
      unfold sweepEach isActive
      apply Keeps.bind
      · apply Keeps.bind
          (keeps_sync (c := PortCall.verdict r.authority) rfl)
        intro verdict
        split
        · exact keeps_pure true
        · exact Keeps.bind (keeps_callback
            (c := PortCall.revoking r.authority Site.sweep) nofun rfl)
            fun _ => keeps_pure false
      · intro active
        split
        · exact ih
        · exact Keeps.bind (keeps_closeAuthenticationRequired r.socket)
            fun _ => ih

theorem keeps_sweepExpired : Keeps options (sweepExpired host) := by
  unfold sweepExpired
  apply Keeps.bind (keeps_callback (c := PortCall.sweepExpired) nofun rfl)
  intro _
  exact keeps_read fun s => keeps_sweepEach _

theorem keeps_dispose : Keeps options (dispose host) := by
  unfold dispose
  apply keeps_read
  intro s
  split
  · exact keeps_pure ()
  · apply Keeps.bind
    · intro L t n Q h hQ
      refine hQ L _ () ⟨?_, h.active, h.free, h.number⟩
      have hrep : Rep { t.index with disposed := true } (Half L) :=
        { h.inv.rep with }
      exact { h.inv with rep := hrep }
    · intro _
      apply Keeps.bind (keeps_callback (c := PortCall.unsubscribe) nofun rfl)
      intro _
      exact keeps_read fun s => keeps_closeEach _

end Walk

/-!
## Registrations
-/

section Register

variable {options : Options} {L : Ledger ports} {n : Nat} {s : State}
variable {authority : ApplicationSessionAuthority} {t : JsString} {k a : Nat}

/-- A registration that runs alone, with the set of its session at hand. -/
structure Building (options : Options) (s : State) (n : Nat)
    (authority : ApplicationSessionAuthority) (t : JsString) (k a : Nat) :
    Prop where
  rep : Rep s.index
    (fun id b => id = authority.applicationSessionId ∧ b = a)
  sockets : s.index.bySocket.length < options.maxSockets
  sessions : s.index.bySession.length ≤ options.maxApplicationSessions
  session : s.index.bySession.get authority.applicationSessionId = some a
  free : s.index.bySocket.get k = none
  generation : forall q, Registered s.index q ->
    q.session = authority.applicationSessionId ->
      q.authority.generation = authority.generation
  active : n ∈ s.active
  entered : exists registrations, Entry.entered n
    (Op.registerIfActive authority t k) registrations ∈ s.log ∧
      forall r, Registered s.index r -> r ∈ registrations

theorem Inv.of_idle (hidle : forall m, L.pending m = none)
    (hrep : Rep s.index (fun _ _ => False))
    (hsockets : s.index.bySocket.length ≤ options.maxSockets)
    (hsessions : s.index.bySession.length ≤ options.maxApplicationSessions)
    (hpast : Past L.next s.index.bySocket s.log) : Inv options L s := by
  have hnone : forall m c, L.pending m = some c -> False := by
    intro m c hm
    rw [hidle m] at hm
    cases hm
  constructor
  · exact hrep.mono fun _ _ hfalse => hfalse.elim
  · exact hsockets
  · exact hsessions
  · intro m _ _ _ _ hm
    exact (hnone m _ hm).elim
  · intro m c hm
    exact (hnone m c hm).elim
  · intro m c _ _ _ _ hm
    exact (hnone m c hm).elim
  · intro m c _ hm
    exact (hnone m c hm).elim
  · exact hpast

theorem Inv.no_half (h : Inv options L s)
    (hidle : forall m, L.pending m = none) :
    Rep s.index (fun _ _ => False) := by
  apply h.rep.mono
  rintro id b ⟨m, _, _, _, hm, _⟩
  rw [hidle m] at hm
  cases hm

theorem bySocket_dropSession (x : Index) (id : JsString) (b : Nat) :
    (x.dropSession id b).bySocket = x.bySocket := by
  unfold Index.dropSession
  split
  · rfl
  · rfl

theorem length_dropSession (x : Index) (id : JsString) (b : Nat) :
    (x.dropSession id b).bySession.length ≤ x.bySession.length := by
  unfold Index.dropSession
  split
  · exact JsMap.length_delete_le _ _
  · exact Nat.le_refl _

theorem good_refused {log : List Entry} {x : Index}
    (hentered : exists registrations, Entry.entered n
      (Op.registerIfActive authority t k) registrations ∈ log ∧
        forall r, Registered x r -> r ∈ registrations)
    (hrep : Rep x (fun _ _ => False)) :
    Good log (Entry.ended n (Op.registerIfActive authority t k)
      (Except.ok (some false)) x) :=
  ⟨hentered, fun id b hb hempty => hrep.nonempty id b hb hempty⟩

namespace Building

theorem no_half (h : Building options s n authority t k a) :
    Rep (s.index.dropSession authority.applicationSessionId a)
      (fun _ _ => False) := by
  apply (h.rep.dropSession (Or.inl h.session)).mono
  exact fun id b hboth => hboth.2 hboth.1

theorem refuse (h : Building options s n authority t k a)
    (hidle : forall m, L.pending m = none) (hn : L.next = n + 1)
    (hpast : Past L.next s.index.bySocket s.log) :
    finalOwes (alone options) (Inv options) n
      (Op.registerIfActive authority t k) (Except.ok (some false)) L
      { s with
        index := s.index.dropSession authority.applicationSessionId a } := by
  have hinv : Inv options L { s with
      index := s.index.dropSession authority.applicationSessionId a } := by
    apply Inv.of_idle hidle
    · exact h.no_half
    · show (s.index.dropSession _ a).bySocket.length ≤ _
      rw [bySocket_dropSession]
      exact Nat.le_of_lt h.sockets
    · exact Nat.le_trans (length_dropSession _ _ _) h.sessions
    · show Past L.next (s.index.dropSession _ a).bySocket s.log
      rw [bySocket_dropSession]
      exact hpast
  refine hinv.leave (hidle n) (by omega) (good_refused ?_ h.no_half) nofun
  rcases h.entered with ⟨registrations, hlog, hsub⟩
  refine ⟨registrations, hlog, ?_⟩
  intro r hr
  unfold Registered at hr
  rw [bySocket_dropSession] at hr
  exact hsub r hr

theorem accept (h : Building options s n authority t k a)
    (hidle : forall m, L.pending m = none) (hn : L.next = n + 1)
    (hpast : Past L.next s.index.bySocket s.log) (disposables : List Event) :
    finalOwes (alone options) (Inv options) n
      (Op.registerIfActive authority t k) (Except.ok (some true)) L
      { s with
        index := s.index.insert a
          ⟨s.index.nextAddress, authority, t, k, disposables⟩ } := by
  have hrep := h.rep.insert (a := a)
    (r := ⟨s.index.nextAddress, authority, t, k, disposables⟩) h.free
    h.session rfl h.generation
  have hsame : (s.index.insert a
      ⟨s.index.nextAddress, authority, t, k, disposables⟩).bySession =
      s.index.bySession ∧ (s.index.insert a
      ⟨s.index.nextAddress, authority, t, k, disposables⟩).bySocket =
      s.index.bySocket.set k
        ⟨s.index.nextAddress, authority, t, k, disposables⟩ := by
    unfold Index.insert
    rcases advance_eq _ t with ⟨b, c, heq⟩
    rw [heq]
    exact ⟨rfl, rfl⟩
  have hinv : Inv options L { s with
      index := s.index.insert a
        ⟨s.index.nextAddress, authority, t, k, disposables⟩ } := by
    apply Inv.of_idle hidle (hrep.mono fun id b hboth => hboth.2 hboth.1)
    · show (s.index.insert a _).bySocket.length ≤ _
      rw [hsame.2, JsMap.set_new h.free, List.length_append]
      exact h.sockets
    · show (s.index.insert a _).bySession.length ≤ _
      rw [hsame.1]
      exact h.sessions
    · refine { hpast with gone := ?_ }
      intro m k' res x hm hbefore
      show JsMap.get (s.index.insert a _).bySocket k' = none
      rw [hsame.2, JsMap.get_set]
      split
      · -- an unregistration is older than the registration that runs now
        rename_i hk
        rcases h.entered with ⟨registrations, hlog, _⟩
        rw [hk] at hlog
        have hlt := hbefore n authority t registrations hlog
        have hle := hpast.numbers _ hm
        change m < L.next at hle
        omega
      · exact hpast.gone m k' res x hm hbefore
  exact hinv.leave (hidle n) (by omega) trivial (fun _ h => by cases h)

theorem wait (h : Building options s n authority t k a)
    (hidle : forall m, L.pending m = none)
    (hpast : Past L.next s.index.bySocket s.log) :
    Inv options (L.put n (some (PortCall.revoking authority
      (Site.second t k a)))) s := by
  have hmine : forall m c, (L.put n (some (PortCall.revoking authority
      (Site.second t k a)))).pending m = some c ->
      m = n ∧ c = PortCall.revoking authority (Site.second t k a) := by
    intro m c hm
    rcases Ledger.pending_put.mp hm with ⟨hmn, heq⟩ | ⟨_, hm⟩
    · exact ⟨hmn, (Option.some.inj heq).symm⟩
    · rw [hidle m] at hm
      cases hm
  constructor
  · apply h.rep.mono
    rintro id b ⟨hid, hb⟩
    refine ⟨n, authority, t, k, ?_, hid.symm⟩
    rw [hb, Ledger.put_same]
  · exact Nat.le_of_lt h.sockets
  · exact h.sessions
  · intro m authority' t' k' b hm
    rcases hmine m _ hm with ⟨_, heq⟩
    cases heq
    exact Or.inl h.session
  · intro m c hm
    rw [(hmine m c hm).1]
    exact h.active
  · intro m c _ m' c' _ hm _ hm' _
    rw [(hmine m c hm).1, (hmine m' c' hm').1]
  · intro m c o hm hc
    rcases hmine m c hm with ⟨hmn, heq⟩
    rw [heq] at hc
    cases hc
    rw [hmn]
    exact h.entered
  · exact hpast

end Building

theorem Inv.only (h : Inv options L s) {c : PortCall} {o : Op}
    (hpending : L.pending n = some c) (hc : registering c = some o)
    {m : Nat} {c' : PortCall} {o' : Op}
    (hm : (L.put n none).pending m = some c') :
    registering c' ≠ some o' := by
  intro hc'
  rcases Ledger.pending_put.mp hm with ⟨_, heq⟩ | ⟨hne, hm⟩
  · cases heq
  · exact hne (h.single m c' o' n c o hm hc' hpending hc)

theorem Inv.refuse (h : Inv options L s) {c : PortCall}
    (hpending : L.pending n = some c) (hn : n < L.next)
    (hc : registering c = some (Op.registerIfActive authority t k))
    {x : Index} (hrep : Rep x (fun _ _ => False))
    (hsockets : x.bySocket = s.index.bySocket)
    (hsessions : x.bySession.length ≤ s.index.bySession.length) :
    finalOwes (alone options) (Inv options) n
      (Op.registerIfActive authority t k) (Except.ok (some false))
      (L.put n none) { s with index := x } := by
  have hregistered : forall r, Registered x r -> Registered s.index r := by
    intro r hr
    unfold Registered at hr ⊢
    rw [hsockets] at hr
    exact hr
  have hinv : Inv options (L.put n none) { s with index := x } := by
    constructor
    · exact hrep.mono fun _ _ hfalse => hfalse.elim
    · show x.bySocket.length ≤ _
      rw [hsockets]
      exact h.sockets
    · exact Nat.le_trans hsessions h.sessions
    · intro m authority' t' k' b hm
      exact absurd rfl (h.only hpending hc hm)
    · intro m c' hm
      rcases Ledger.pending_put.mp hm with ⟨_, heq⟩ | ⟨_, hm⟩
      · cases heq
      · exact h.busy m c' hm
    · intro m c' o m' c'' o' hm hc'
      exact absurd hc' (h.only hpending hc hm)
    · intro m c' o hm hc'
      exact absurd hc' (h.only hpending hc hm)
    · show Past L.next x.bySocket s.log
      rw [hsockets]
      exact h.past
  refine hinv.leave (Ledger.put_same _ _ _) hn (good_refused ?_ hrep) nofun
  rcases h.shrunk n c _ hpending hc with ⟨registrations, hlog, hsub⟩
  exact ⟨registrations, hlog, fun r hr => hsub r (hregistered r hr)⟩

def resultOwes (options : Options) (n : Nat) (o : Op) :
    Except Empty Bool -> Ledger ports -> State -> Prop
  | Except.ok v, L, s =>
      finalOwes (alone options) (Inv options) n o (Except.ok (some v)) L s
  | Except.error e, _, _ => nomatch e

theorem owes_complete (h : Building options s n authority t k a)
    (hidle : forall m, L.pending m = none) (hn : L.next = n + 1)
    (hpast : Past L.next s.index.bySocket s.log) :
    (complete host authority t k a).owes (alone options) (Inv options) n
      (resultOwes options n (Op.registerIfActive authority t k)) L s := by
  unfold complete listen isActive
  refine (Prog.owes_sync (M := alone options)
    (c := PortCall.listen Event.close k) rfl).mpr ?_
  intro first _
  cases first with
  | error e => exact h.refuse hidle hn hpast
  | ok u =>
      refine (Prog.owes_sync (M := alone options)
        (c := PortCall.listen Event.error k) rfl).mpr ?_
      intro second _
      cases second with
      | error e => exact h.refuse hidle hn hpast
      | ok u' =>
          refine (Prog.owes_sync (M := alone options)
            (c := PortCall.isOpen k) rfl).mpr ?_
          intro isOpen _
          cases isOpen with
          | false =>
              refine owes_disposeAll [Event.close, Event.error] ?_
              exact h.refuse hidle hn hpast
          | true =>
              refine (Prog.owes_sync (M := alone options)
                (c := PortCall.verdict authority) rfl).mpr ?_
              intro verdict _
              cases verdict with
              | true => exact h.accept hidle hn hpast _
              | false =>
                  refine (Prog.owes_wait (M := alone options)
                    (c := PortCall.revoking authority (Site.second t k a))
                    nofun).mpr ⟨h.wait hidle hpast, ?_⟩
                  intro L' u'' r hpending hn' _ hinv _
                  refine owes_disposeAll [Event.close, Event.error] ?_
                  have hrep := hinv.rep.dropSession
                    (hinv.held n authority t k a hpending)
                  refine hinv.refuse hpending hn' rfl (hrep.mono ?_)
                    (bySocket_dropSession _ _ _) (length_dropSession _ _ _)
                  rintro id b ⟨⟨m, authority', t', k', hm, hid⟩, hother⟩
                  have hmn := hinv.single m _ _ n _ _ hm rfl hpending rfl
                  rw [hmn, hpending] at hm
                  cases hm
                  exact hother ⟨hid.symm, rfl⟩

structure Fresh (options : Options) (s : State) (n : Nat)
    (authority : ApplicationSessionAuthority) (t : JsString) (k : Nat) :
    Prop where
  rep : Rep s.index (fun _ _ => False)
  sockets : s.index.bySocket.length ≤ options.maxSockets
  sessions : s.index.bySession.length ≤ options.maxApplicationSessions
  active : n ∈ s.active
  entered : exists registrations, Entry.entered n
    (Op.registerIfActive authority t k) registrations ∈ s.log ∧
      forall r, Registered s.index r -> r ∈ registrations

namespace Fresh

theorem refuse (h : Fresh options s n authority t k)
    (hidle : forall m, L.pending m = none) (hn : L.next = n + 1)
    (hpast : Past L.next s.index.bySocket s.log) :
    finalOwes (alone options) (Inv options) n
      (Op.registerIfActive authority t k) (Except.ok (some false)) L s := by
  have hinv : Inv options L s :=
    Inv.of_idle hidle h.rep h.sockets h.sessions hpast
  exact hinv.leave (hidle n) (by omega) (good_refused h.entered h.rep) nofun

theorem wait (h : Fresh options s n authority t k)
    (hidle : forall m, L.pending m = none)
    (hpast : Past L.next s.index.bySocket s.log) :
    Inv options (L.put n (some (PortCall.revoking authority
      (Site.first t k)))) s := by
  have hmine : forall m c, (L.put n (some (PortCall.revoking authority
      (Site.first t k)))).pending m = some c ->
      m = n ∧ c = PortCall.revoking authority (Site.first t k) := by
    intro m c hm
    rcases Ledger.pending_put.mp hm with ⟨hmn, heq⟩ | ⟨_, hm⟩
    · exact ⟨hmn, (Option.some.inj heq).symm⟩
    · rw [hidle m] at hm
      cases hm
  constructor
  · exact h.rep.mono fun _ _ hfalse => hfalse.elim
  · exact h.sockets
  · exact h.sessions
  · intro m authority' t' k' b hm
    cases (hmine m _ hm).2
  · intro m c hm
    rw [(hmine m c hm).1]
    exact h.active
  · intro m c _ m' c' _ hm _ hm' _
    rw [(hmine m c hm).1, (hmine m' c' hm').1]
  · intro m c o hm hc
    rcases hmine m c hm with ⟨hmn, heq⟩
    rw [heq] at hc
    cases hc
    rw [hmn]
    exact h.entered
  · exact hpast

theorem newSession (h : Fresh options s n authority t k)
    (hsockets : s.index.bySocket.length < options.maxSockets)
    (hfree : s.index.bySocket.get k = none)
    (hsessions : s.index.bySession.length < options.maxApplicationSessions)
    (hnone : s.index.bySession.get authority.applicationSessionId = none) :
    Building options
      { s with
        index := s.index.newSession authority.applicationSessionId }
      n authority t k s.index.nextAddress := by
  refine { h with
    rep := ?_
    sockets := hsockets
    sessions := ?_
    session := ?_
    free := hfree
    generation := ?_ }
  · apply (h.rep.newSession hnone).mono
    rintro id b (hfalse | hnew)
    · exact hfalse.elim
    · exact hnew
  · show (JsMap.set s.index.bySession _ _).length ≤ _
    rw [JsMap.set_new hnone, List.length_append]
    exact hsessions
  · show JsMap.get (JsMap.set s.index.bySession _ _) _ = _
    rw [JsMap.get_set, if_pos rfl]
  · intro q hq hid
    rcases h.rep.covered q hq with ⟨b, hb⟩
    rw [hid, hnone] at hb
    cases hb

theorem join (h : Fresh options s n authority t k)
    (hsockets : s.index.bySocket.length < options.maxSockets)
    (hfree : s.index.bySocket.get k = none)
    (hsession : s.index.bySession.get authority.applicationSessionId = some a)
    (hgeneration : ((s.index.set a).head?.map fun r =>
      r.authority.generation) = some authority.generation) :
    Building options s n authority t k a := by
  refine { h with
    rep := h.rep.mono fun _ _ hfalse => hfalse.elim
    sockets := hsockets
    session := hsession
    free := hfree
    generation := ?_ }
  intro q hq hid
  rcases Option.map_eq_some_iff.mp hgeneration with ⟨r, hr, hsame⟩
  have hmem : r ∈ s.index.set a := List.mem_of_head? hr
  rcases (h.rep.members _ a hsession r).mp hmem with ⟨hr, hrid⟩
  rw [← hsame]
  exact h.rep.generations q r hq hr (hid.trans hrid.symm)

end Fresh

theorem owes_joinSession (h : Fresh options s n authority t k)
    (hidle : forall m, L.pending m = none) (hn : L.next = n + 1)
    (hpast : Past L.next s.index.bySocket s.log)
    (hsockets : s.index.bySocket.length < options.maxSockets)
    (hfree : s.index.bySocket.get k = none) :
    (joinSession host options authority t k).owes (alone options)
      (Inv options) n
      (resultOwes options n (Op.registerIfActive authority t k)) L s := by
  unfold joinSession
  simp only [Prog.read_bind, Prog.owes_act, id_eq]
  cases hget : s.index.bySession.get authority.applicationSessionId with
  | none =>
      have hget' : (host.index s).bySession.get
          authority.applicationSessionId = none := hget
      simp only [hget']
      by_cases hmax : options.maxApplicationSessions ≤
          (host.index s).bySession.length
      · rw [if_pos hmax]
        exact h.refuse hidle hn hpast
      · rw [if_neg hmax]
        exact owes_complete (h.newSession hsockets hfree
          (Nat.lt_of_not_le hmax) hget) hidle hn hpast
  | some b =>
      have hget' : (host.index s).bySession.get
          authority.applicationSessionId = some b := hget
      simp only [hget']
      by_cases hgeneration : (((host.index s).set b).head?.map
          fun r => r.authority.generation) = some authority.generation
      · rw [if_neg (not_not.mpr hgeneration)]
        exact owes_complete (h.join hsockets hfree hget hgeneration) hidle hn
          hpast
      · rw [if_pos hgeneration]
        exact h.refuse hidle hn hpast

theorem owes_registerIfActive (h : Fresh options s n authority t k)
    (hidle : forall m, L.pending m = none) (hn : L.next = n + 1)
    (hpast : Past L.next s.index.bySocket s.log) :
    (registerIfActive host options authority t k).owes (alone options)
      (Inv options) n
      (resultOwes options n (Op.registerIfActive authority t k)) L s := by
  unfold registerIfActive
  simp only [Prog.read_bind, Prog.owes_act, id_eq]
  by_cases hdisposed : (host.index s).disposed = true
  · rw [if_pos hdisposed]
    exact h.refuse hidle hn hpast
  · rw [if_neg hdisposed]
    refine (Prog.owes_sync (M := alone options)
      (c := PortCall.isOpen k) rfl).mpr ?_
    intro isOpen _
    cases isOpen with
    | false => exact h.refuse hidle hn hpast
    | true =>
        show Prog.owes (alone options) (Inv options) n _
          (if (host.index s).bySocket.has k = true then _ else _) L s
        by_cases hhas : (host.index s).bySocket.has k = true
        · rw [if_pos hhas]
          exact h.refuse hidle hn hpast
        · rw [if_neg hhas]
          by_cases hfull : options.maxSockets ≤
              (host.index s).bySocket.length
          · rw [if_pos hfull]
            exact h.refuse hidle hn hpast
          · rw [if_neg hfull]
            have hsockets : s.index.bySocket.length < options.maxSockets :=
              Nat.lt_of_not_le hfull
            have hfree : s.index.bySocket.get k = none := by
              cases hget : s.index.bySocket.get k with
              | none => rfl
              | some r =>
                  have hsome : JsMap.has s.index.bySocket k = true := by
                    simp [JsMap.has, hget]
                  exact absurd hsome hhas
            unfold isActive
            refine (Prog.owes_sync (M := alone options)
              (c := PortCall.verdict authority) rfl).mpr ?_
            intro verdict _
            cases verdict with
            | false =>
                refine (Prog.owes_wait (M := alone options)
                  (c := PortCall.revoking authority (Site.first t k))
                  (fun h => by cases h)).mpr ⟨h.wait hidle hpast, ?_⟩
                intro L' u r hpending hn' _ hinv _
                refine hinv.refuse hpending hn' rfl (hinv.rep.mono ?_) rfl
                  (Nat.le_refl _)
                rintro id b ⟨m, authority', t', k', hm, _⟩
                have hmn := hinv.single m _ _ n _ _ hm rfl hpending rfl
                rw [hmn, hpending] at hm
                cases hm
            | true => exact owes_joinSession h hidle hn hpast hsockets hfree

end Register

/-!
## What a run keeps
-/

theorem registered_iff {x : Index} {half : JsString -> Nat -> Prop}
    (h : Rep x half) {r : Registration} :
    Registered x r <-> r ∈ x.bySocket.values := by
  constructor
  · intro hr
    exact List.mem_map.mpr ⟨_, JsMap.mem_of_get hr, rfl⟩
  · intro hr
    rcases List.mem_map.mp hr with ⟨⟨k, q⟩, hmem, hq⟩
    have hget := JsMap.get_of_mem h.sockets hmem
    have hk := h.keyed k q hget
    cases hq
    unfold Registered
    rw [← hk]
    exact hget

theorem inv_inductive (options : Options) :
    Inductive (alone options) (Inv options) := by
  constructor
  · nofun
  · intro L s o hfree h hadmits
    have hhere : Here options { L with next := L.next + 1 } { s with
        active := L.next :: s.active
        log := s.log ++ [Entry.entered L.next o s.index.bySocket.values] }
        L.next := ⟨h.enter o, List.mem_cons_self, hfree,
          Nat.lt_succ_self _⟩
    have hend : forall (o' : Op), (forall authority t k,
        o' ≠ Op.registerIfActive authority t k) ->
        (forall k, o' ≠ Op.unregister k) ->
        forall (L' : Ledger ports) (u : State) (v : Option Bool),
        Here options L' u L.next ->
          finalOwes (alone options) (Inv options) L.next o' (Except.ok v) L'
            u := by
      intro o' ho' hother L' u v h'
      apply h'.inv.leave h'.free h'.number
      · cases o' with
        | registerIfActive authority t k =>
            exact absurd rfl (ho' authority t k)
        | _ => trivial
      · intro k heq
        exact absurd heq (hother k)
    cases o with
    | registerIfActive authority t k =>
        have hidle : forall m, L.pending m = none := by
          intro m
          cases hm : L.pending m with
          | none => rfl
          | some c =>
              have hbusy := h.busy m c hm
              rw [show s.active = [] from hadmits] at hbusy
              cases hbusy
        have hfresh : Fresh options { s with
            active := L.next :: s.active
            log := s.log ++ [Entry.entered L.next
              (Op.registerIfActive authority t k) s.index.bySocket.values] }
            L.next authority t k := by
          refine ⟨h.no_half hidle, h.sockets, h.sessions,
            List.mem_cons_self, ⟨s.index.bySocket.values, by simp, ?_⟩⟩
          intro r hr
          exact (registered_iff h.rep).mp hr
        refine Prog.owes_bind.mpr (Prog.owes_mono ?_
          (owes_registerIfActive (L := { L with next := L.next + 1 }) hfresh
            hidle rfl (h.past.entered _ _)))
        intro res L' u hres
        cases res with
        | ok v => exact hres
        | error e => exact nomatch e
    | unregister socket =>
        refine owes_unregister hhere ?_
        intro u hu hgone
        refine hu.inv.leave (o := Op.unregister socket) hu.free hu.number
          trivial ?_
        intro k heq
        cases heq
        exact hgone
    | closeSession id =>
        exact Keeps.bind (keeps_closeSession id) (fun _ => keeps_pure none)
          hhere (hend _ nofun nofun)
    | closeAuthenticationRequired socket =>
        exact Keeps.bind (keeps_closeAuthenticationRequired socket)
          (fun v => keeps_pure (some v)) hhere (hend _ nofun nofun)
    | sweepExpired =>
        exact Keeps.bind keeps_sweepExpired (fun _ => keeps_pure none) hhere
          (hend _ nofun nofun)
    | dispose =>
        exact Keeps.bind keeps_dispose (fun _ => keeps_pure none) hhere
          (hend _ nofun nofun)

theorem Inv.initial (options : Options) :
    Inv options Ledger.empty State.initial := by
  apply Inv.of_idle
  · intro m
    rfl
  · refine ⟨JsMap.distinct_nil, nofun, nofun, JsMap.distinct_nil, nofun,
      nofun, nofun, nofun, nofun, ?_, nofun⟩
    intro t
    rfl
  · exact Nat.zero_le _
  · exact Nat.zero_le _
  · exact ⟨everyEntry_nil _, nofun, nofun⟩

/-- The maps of the index agree in every state of a run. -/
structure Agrees (options : Options)
    (cfg : Config State ports Empty (Option Bool) Op) : Prop where
  /-- The set of a session has the registrations of that session, which are
  those that are found under their socket. -/
  sets : forall id a, (id, a) ∈ cfg.shared.index.bySession -> forall r,
    r ∈ cfg.shared.index.set a <->
      r ∈ cfg.shared.index.bySocket.values ∧ r.session = id
  indexed : forall r, r ∈ cfg.shared.index.bySocket.values ->
    exists a, (r.session, a) ∈ cfg.shared.index.bySession ∧
      r ∈ cfg.shared.index.set a
  keyed : forall k r, (k, r) ∈ cfg.shared.index.bySocket -> k = r.socket
  distinct : cfg.shared.index.bySocket.Distinct ∧
    cfg.shared.index.bySession.Distinct
  /-- Only a registration in progress has made an empty set. -/
  nonempty : forall id a, (id, a) ∈ cfg.shared.index.bySession ->
    cfg.shared.index.set a ≠ [] ∨
    exists f, f ∈ cfg.stack ∧ exists authority t k,
      f.call = PortCall.revoking authority (Site.second t k a) ∧
      authority.applicationSessionId = id
  generations : forall r, r ∈ cfg.shared.index.bySocket.values ->
    forall r', r' ∈ cfg.shared.index.bySocket.values ->
      r.session = r'.session ->
        r.authority.generation = r'.authority.generation
  counts : forall t, cfg.shared.index.tabCounts.get t =
    if tabCount cfg.shared.index t = 0 then none
    else some (tabCount cfg.shared.index t : Int)
  sockets : cfg.shared.index.bySocket.length ≤ options.maxSockets
  sessions : cfg.shared.index.bySession.length ≤
    options.maxApplicationSessions
  refused : forall before n authority t k index after,
    cfg.shared.log = before ++ Entry.ended n
      (Op.registerIfActive authority t k) (Except.ok (some false)) index ::
        after ->
    (exists registrations, Entry.entered n
        (Op.registerIfActive authority t k) registrations ∈ before ∧
      forall r, Registered index r -> r ∈ registrations) ∧
    forall id a, index.bySession.get id = some a -> index.set a ≠ []

theorem index_agrees {options : Options}
    {cfg : Config State ports Empty (Option Bool) Op}
    (hrun : Run options cfg) : Agrees options cfg := by
  have hok := (inv_inductive options).reachable (Inv.initial options) hrun
  have hinv := hok.inv
  have hrep := hinv.rep
  have hparked : cfg.parked = [] := by
    rw [List.eq_nil_iff_forall_not_mem]
    intro f hf
    have hawait := hok.parked f hf
    change boundary f.call = Boundary.await at hawait
    cases hcall : f.call with
    | _ =>
        rw [hcall] at hawait
        cases hawait
  constructor
  · intro id a ha r
    rw [← registered_iff hrep]
    exact hrep.members id a (JsMap.get_of_mem hrep.sessions ha) r
  · intro r hr
    have hr' := (registered_iff hrep).mpr hr
    rcases hrep.covered r hr' with ⟨a, ha⟩
    exact ⟨a, JsMap.mem_of_get ha, (hrep.members _ a ha r).mpr ⟨hr', rfl⟩⟩
  · intro k r hr
    exact hrep.keyed k r (JsMap.get_of_mem hrep.sockets hr)
  · exact ⟨hrep.sockets, hrep.sessions⟩
  · intro id a ha
    by_cases hempty : cfg.shared.index.set a = []
    · right
      rcases hrep.nonempty id a (JsMap.get_of_mem hrep.sessions ha) hempty with
        ⟨m, authority, t, k, hm, hid⟩
      rcases Ledger.mem_of hm with ⟨f, hf, _, hcall⟩
      rw [hparked, List.append_nil] at hf
      exact ⟨f, hf, authority, t, k, hcall, hid⟩
    · exact Or.inl hempty
  · intro r hr r' hr'
    exact hrep.generations r r' ((registered_iff hrep).mpr hr)
      ((registered_iff hrep).mpr hr')
  · exact hrep.counts
  · exact hinv.sockets
  · exact hinv.sessions
  · intro before n authority t k index after hlog
    exact hinv.past.good before _ after hlog

/-- A socket that was unregistered, and for which no registration was called
since, is not in the index. -/
theorem unregistered_stays {options : Options}
    {cfg : Config State ports Empty (Option Bool) Op}
    (hrun : Run options cfg) {m k : Nat}
    {res : Except Empty (Option Bool)} {x : Index}
    (hended : Entry.ended m (Op.unregister k) res x ∈ cfg.shared.log)
    (hbefore : forall n authority t registrations,
      Entry.entered n (Op.registerIfActive authority t k) registrations ∈
        cfg.shared.log -> n < m) :
    cfg.shared.index.bySocket.get k = none :=
  ((inv_inductive options).reachable (Inv.initial options)
    hrun).inv.past.gone m k res x hended hbefore

theorem entered_lt {options : Options}
    {cfg : Config State ports Empty (Option Bool) Op}
    (hrun : Run options cfg) {n : Nat} {o : Op}
    {registrations : List Registration}
    (hentered : Entry.entered n o registrations ∈ cfg.shared.log) :
    n < cfg.next :=
  ((inv_inductive options).reachable (Inv.initial options)
    hrun).inv.past.numbers _ hentered

/-!
## Updates of the index
-/

structure Follows (R : State -> State -> Prop) : Prop where
  refl : forall s, R s s
  newSession : forall s id, R s { s with index := s.index.newSession id }
  dropSession : forall s id session,
    R s { s with index := s.index.dropSession id session }
  insert : forall s session r,
    R s { s with index := s.index.insert session r }
  remove : forall s r, R s { s with index := s.index.remove r }
  dispose : forall s, R s { s with index := { s.index with disposed := true } }

section Within

variable {R : State -> State -> Prop}

theorem within_isActive (authority : ApplicationSessionAuthority)
    (site : Site) : (isActive host authority site).Within R := by
  intro verdict
  cases verdict with
  | true => trivial
  | false => exact fun _ => trivial

theorem within_disposeAll (socket : Nat) (events : List Event) :
    (disposeAll host socket events).Within R := by
  induction events with
  | nil => trivial
  | cons e rest ih => exact fun _ => ih

namespace Follows

theorem drop (h : Follows R) (id : JsString) (session : Nat) :
    (Prog.modify (host.update fun x => x.dropSession id session) :
      Code Unit).Within R :=
  Prog.within_modify fun s => h.dropSession s id session

theorem complete (h : Follows R) (authority : ApplicationSessionAuthority)
    (t : JsString) (socket session : Nat) :
    (complete host authority t socket session).Within R := by
  refine Prog.within_bind ?_ ?_
  · intro res
    cases res with
    | error u => trivial
    | ok u =>
        intro res'
        cases res' with
        | error u' => trivial
        | ok u' => trivial
  · intro disposables
    cases disposables with
    | none => exact Prog.within_bind (h.drop _ _) fun _ => trivial
    | some disposables =>
        have hrest : forall active : Bool, (if active then do
            Prog.modify (host.update fun x => x.insert session
              ⟨x.nextAddress, authority, t, socket, disposables⟩)
            pure true
          else do
            disposeAll host socket disposables
            Prog.modify (host.update fun x =>
              x.dropSession authority.applicationSessionId session)
            pure false : Code Bool).Within R := by
          intro active
          split
          · refine Prog.within_bind ?_ fun _ => trivial
            exact Prog.within_modify fun s => h.insert s session _
          · refine Prog.within_bind (within_disposeAll _ _) ?_
            intro _
            exact Prog.within_bind (h.drop _ _) fun _ => trivial
        intro isOpen
        cases isOpen with
        | true =>
            exact Prog.within_bind (p := isActive host authority
              (Site.second t socket session)) (within_isActive _ _) hrest
        | false => exact hrest false

theorem joinSession (h : Follows R) (options : Options)
    (authority : ApplicationSessionAuthority) (t : JsString) (socket : Nat) :
    (joinSession host options authority t socket).Within R := by
  refine Prog.within_read h.refl ?_
  intro s
  split
  · split
    · trivial
    · refine Prog.within_bind ?_ fun _ => h.complete _ _ _ _
      exact Prog.within_modify fun s => h.newSession s _
  · split
    · trivial
    · exact h.complete _ _ _ _

theorem registerIfActive (h : Follows R) (options : Options)
    (authority : ApplicationSessionAuthority) (t : JsString) (socket : Nat) :
    (registerIfActive host options authority t socket).Within R := by
  refine Prog.within_read h.refl ?_
  intro s
  split
  · trivial
  · intro isOpen
    cases isOpen with
    | false => trivial
    | true =>
        show Prog.Within R (if _ then _ else _)
        split
        · trivial
        · split
          · trivial
          · refine Prog.within_bind (within_isActive _ _) ?_
            intro active
            cases active with
            | false => trivial
            | true => exact h.joinSession options authority t socket

theorem unregister (h : Follows R) (socket : Nat) :
    (unregister host socket).Within R := by
  refine Prog.within_read h.refl ?_
  intro s
  split
  · trivial
  · rename_i r _
    refine Prog.within_bind ?_ fun _ => within_disposeAll _ _
    exact Prog.within_modify fun s => h.remove s r

theorem closeAuthenticationRequired (h : Follows R) (socket : Nat) :
    (closeAuthenticationRequired host socket).Within R := by
  refine Prog.within_bind ?_ ?_
  · intro isOpen
    cases isOpen with
    | false => trivial
    | true =>
        intro _ isOpen'
        cases isOpen' with
        | false => trivial
        | true => exact fun _ _ => trivial
  · intro secured
    split
    · exact Prog.within_bind (h.unregister socket) fun _ => trivial
    · trivial

theorem closeEach (h : Follows R) (sockets : List Nat) :
    (closeEach host sockets).Within R := by
  induction sockets with
  | nil => trivial
  | cons socket rest ih =>
      exact Prog.within_bind (h.closeAuthenticationRequired socket)
        fun _ => ih

theorem sweepEach (h : Follows R) (registrations : List Registration) :
    (sweepEach host registrations).Within R := by
  induction registrations with
  | nil => trivial
  | cons r rest ih =>
      refine Prog.within_bind (within_isActive _ _) ?_
      intro active
      cases active with
      | true => exact ih
      | false =>
          exact Prog.within_bind (h.closeAuthenticationRequired r.socket)
            fun _ => ih

theorem body (h : Follows R) (options : Options) (n : Nat) (o : Op) :
    (body options n o).Within R := by
  cases o with
  | registerIfActive authority t socket =>
      exact Prog.within_bind (h.registerIfActive options authority t socket)
        fun _ => trivial
  | unregister socket =>
      exact Prog.within_bind (h.unregister socket) fun _ => trivial
  | closeSession id =>
      refine Prog.within_bind (Prog.within_read h.refl ?_) fun _ => trivial
      intro s
      split
      · trivial
      · exact h.closeEach _
  | closeAuthenticationRequired socket =>
      exact Prog.within_bind (h.closeAuthenticationRequired socket)
        fun _ => trivial
  | sweepExpired =>
      refine Prog.within_bind ?_ fun _ => trivial
      intro _
      exact Prog.within_read h.refl fun _ => h.sweepEach _
  | dispose =>
      refine Prog.within_bind (Prog.within_read h.refl ?_) fun _ => trivial
      intro s
      split
      · trivial
      · refine Prog.within_bind (Prog.within_modify h.dispose) ?_
        intro _ _
        exact Prog.within_read h.refl fun _ => h.closeEach _

end Follows

end Within

/-!
## The log only grows
-/

section Growth

def Grows (s s' : State) : Prop :=
  s.log <+: s'.log

theorem grows_refl (s : State) : Grows s s :=
  List.prefix_refl _

theorem grows_follows : Follows Grows :=
  ⟨grows_refl, fun s _ => grows_refl s, fun s _ _ => grows_refl s,
    fun s _ _ => grows_refl s, fun s _ => grows_refl s, grows_refl⟩

theorem alone_grows (options : Options) :
    (alone options).Within Grows where
  refl := grows_refl
  trans := List.IsPrefix.trans
  body := grows_follows.body options
  enter _ _ _ := List.prefix_append _ _
  issue _ _ := grows_refl
  reply _ _ _ := grows_refl
  leave _ _ _ _ := List.prefix_append _ _
  env := nofun

theorem log_grows {options : Options}
    {cfg cfg' : Config State ports Empty (Option Bool) Op}
    (hrun : Run options cfg) (hstep : Step (alone options) cfg cfg')
    {e : Entry} (he : e ∈ cfg.shared.log) : e ∈ cfg'.shared.log :=
  ((alone_grows options).reachable hrun hstep).subset he

end Growth

/-!
A run in which two sockets register and a third one comes for another session;
while that registration is half done the first session is revoked.
-/

def halfwayReply (s : State) (n : Nat) : (c : PortCall) -> PortReply c
  | PortCall.isOpen _ => decide (n ≠ 3)
  | PortCall.verdict _ => decide (s.index.bySession.length < 2)
  | PortCall.revoking _ _ => ()
  | PortCall.listen _ _ => Except.ok ()
  | PortCall.unlisten _ _ => Except.ok ()
  | PortCall.close _ => Except.ok ()
  | PortCall.terminate _ => Except.ok ()
  | PortCall.sweepExpired => Except.ok ()
  | PortCall.unsubscribe => Except.ok ()

def someOptions : Options :=
  ⟨8, 16, by decide, by decide⟩

def halfwayScript : Script (alone someOptions) where
  reply := halfwayReply
  fair _ _ _ := true
  admits s
    | Op.registerIfActive _ _ _ => s.active.isEmpty
    | _ => true
  nudge _ := none
  fair_allowed _ _ _ _ := trivial
  admits_sound s o h := by
    cases o with
    | registerIfActive authority t k => exact List.isEmpty_iff.mp h
    | _ => trivial
  nudge_env _ _ h := nomatch h

def halfwayRun : Option (Config State ports Empty (Option Bool) Op) :=
  halfwayScript.play
    [Move.enter (Op.registerIfActive ⟨js "first", 1, 100⟩ (js "tab") 1),
      Move.enter (Op.registerIfActive ⟨js "first", 1, 100⟩ (js "tab") 2),
      Move.enter (Op.registerIfActive ⟨js "second", 1, 100⟩ (js "tab") 3),
      Move.enter (Op.closeSession (js "first")), Move.answer]
    (Config.initial State.initial)

def refusedBy (n : Nat) : Entry -> Bool
  | Entry.ended m (Op.registerIfActive _ _ _) (Except.ok (some false)) _ =>
      m = n
  | _ => false

theorem halfwayRun_ends :
    halfwayRun.map (fun cfg => cfg.shared.log.any (refusedBy 2) &&
      decide (cfg.shared.index.bySession = [])) = some true := by
  decide +kernel

theorem index_agrees_halfway :
    exists cfg, halfwayRun = some cfg ∧
      cfg.shared.log.any (refusedBy 2) = true ∧
      tabCount cfg.shared.index (js "tab") = 0 ∧
      cfg.shared.index.tabCounts.get (js "tab") = none := by
  have hsample := halfwayRun_ends
  cases hrun : halfwayRun with
  | none =>
      rw [hrun] at hsample
      cases hsample
  | some cfg =>
      rw [hrun] at hsample
      have hboth := Bool.and_eq_true_iff.mp (Option.some.inj hsample)
      have hempty := of_decide_eq_true hboth.2
      have hagrees := index_agrees (Script.play_reachable hrun)
      have hzero : tabCount cfg.shared.index (js "tab") = 0 := by
        unfold tabCount
        rw [List.countP_eq_zero]
        intro r hr
        rcases hagrees.indexed r hr with ⟨a, ha, _⟩
        rw [hempty] at ha
        cases ha
      refine ⟨cfg, rfl, hboth.1, hzero, ?_⟩
      rw [hagrees.counts, if_pos hzero]

end WebSocketAuthIndex
end Server
end FlanTerminal

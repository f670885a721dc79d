import FlanTerminal.Foundation.Ledger
import FlanTerminal.Foundation.Script
import FlanTerminal.Foundation.Trace
import FlanTerminal.Server.KeyedMutex

/-!
# The keyed mutex excludes

The calls on one key form a queue: each tail goes on from the tail before it,
and the map holds the last.  A tail is fulfilled when all gates up to its own
are open, so only the first call that is still in progress can have gone past
its wait.
-/

namespace FlanTerminal
namespace Server
namespace KeyedMutex

open Foundation

variable {key value error : Type} [DecidableEq key]
variable {s : Mutex key value error}

/-!
## Tails
-/

def Called (s : Mutex key value error) (n : Nat) (k : key) : Prop :=
  Entry.called n k ∈ s.log

/-- Every call on the key before `n` has opened its gate. -/
def Cleared (s : Mutex key value error) (n : Nat) (k : key) : Prop :=
  forall m, m < n -> Called s m k -> m ∈ s.released

/-- A tail goes on from the last call on the key that was in progress. -/
def Linked (s : Mutex key value error) (n : Nat) (k : key) : Prop :=
  match s.prior n with
  | none => Cleared s n k
  | some p => p < n ∧ Called s p k ∧
      forall m, p < m -> m < n -> Called s m k -> m ∈ s.released

omit [DecidableEq key] in
theorem settled_iff {k : key}
    (hlinked : forall n, Called s n k -> Linked s n k) {n : Nat}
    (hn : Called s n k) :
    Settled s n <-> n ∈ s.released ∧ Cleared s n k := by
  induction n using Nat.strongRecOn with
  | ind n ih =>
      have hlink := hlinked n hn
      unfold Linked at hlink
      constructor
      · intro h
        cases h with
        | first hrel hnone =>
            rw [hnone] at hlink
            exact ⟨hrel, hlink⟩
        | @after _ p hrel hprior hp =>
            rw [hprior] at hlink
            obtain ⟨hlt, hcalled, hmid⟩ := hlink
            have hall := (ih p hlt hcalled).mp hp
            constructor
            · exact hrel
            · intro m hm hmk
              rcases Nat.lt_trichotomy m p with hmp | hmp | hmp
              · exact hall.2 m hmp hmk
              · rw [hmp]
                exact hall.1
              · exact hmid m hmp hm hmk
      · intro h
        obtain ⟨hrel, hall⟩ := h
        cases hprior : s.prior n with
        | none => exact Settled.first hrel hprior
        | some p =>
            rw [hprior] at hlink
            obtain ⟨hlt, hcalled, _⟩ := hlink
            apply Settled.after hrel hprior
            apply (ih p hlt hcalled).mpr
            exact ⟨hall p hlt hcalled, fun m hm hmk =>
              hall m (Nat.lt_trans hm hlt) hmk⟩

/-!
## The invariant
-/

/-- Call `n` on the key is in progress. -/
def Live (L : Ledger (ports key value error)) (n : Nat) (k : key) : Prop :=
  exists c, L.pending n = some c ∧ PortCall.keyOf c = k

structure Running (s : Mutex key value error) (n : Nat) (k : key) : Prop where
  cleared : Cleared s n k
  started : Entry.started n k ∈ s.log
  unfinished : forall res, Entry.finished n res ∉ s.log

/-- What is known of a call from where it waits. -/
def Standing (s : Mutex key value error) (n : Nat) : PortCall key -> Prop
  | PortCall.wait _ prior =>
      s.prior n = prior ∧ forall k, Entry.started n k ∉ s.log
  | PortCall.operation k => Running s n k
  | PortCall.promise k => Running s n k

/-- What an entry of the log says about the entries before it. -/
def Good (before : List (Entry key value error)) :
    Entry key value error -> Prop
  | Entry.called n _ => forall m k, Entry.called m k ∈ before -> m < n
  | Entry.started n k => Entry.called n k ∈ before ∧
      (forall k', Entry.started n k' ∉ before) ∧
      forall m, m < n -> Entry.called m k ∈ before ->
        exists res, Entry.finished m res ∈ before
  | Entry.finished n _ => (exists k, Entry.started n k ∈ before) ∧
      forall res, Entry.finished n res ∉ before
  | Entry.returned n res => Entry.finished n res ∈ before

structure Base (L : Ledger (ports key value error))
    (s : Mutex key value error) : Prop where
  numbered : forall {n k}, Called s n k -> n < L.next
  unique : forall {n k k'}, Called s n k -> Called s n k' -> k = k'
  waits : forall {n c}, L.pending n = some c ->
    Called s n (PortCall.keyOf c) ∧ n ∉ s.released ∧ Standing s n c
  linked : forall {n k}, Called s n k -> Linked s n k
  done : forall {n}, n ∈ s.released -> exists res, Entry.finished n res ∈ s.log
  log : EveryEntry Good s.log

/-- The map of tails, and the calls that are not in progress. -/
structure Inv (L : Ledger (ports key value error))
    (s : Mutex key value error) : Prop extends Base L s where
  idle : forall {n k}, Called s n k -> L.pending n = none -> n ∈ s.released
  tail : forall {n k}, s.tails.get k = some n ->
    Live L n k ∧ forall m, Live L m k -> m ≤ n
  noTail : forall {k}, s.tails.get k = none -> forall m, ¬ Live L m k

/-!
## Steps
-/

section Steps

variable {L : Ledger (ports key value error)}

omit [DecidableEq key] in
theorem Standing.mono (s' : Mutex key value error) {m : Nat}
    {c : PortCall key} (h : Standing s m c) (hprior : s'.prior m = s.prior m)
    (hcalled : forall {j k}, j < m -> Called s' j k -> Called s j k)
    (hreleased : forall {j}, j ∈ s.released -> j ∈ s'.released)
    (hlog : forall {e}, e ∈ s.log -> e ∈ s'.log)
    (hstarted : forall {k}, Entry.started m k ∈ s'.log ->
      Entry.started m k ∈ s.log)
    (hfinished : forall {res}, Entry.finished m res ∈ s'.log ->
      Entry.finished m res ∈ s.log) : Standing s' m c := by
  have hrun : forall k, Running s m k -> Running s' m k := fun k hk =>
    ⟨fun j hj hjk => hreleased (hk.cleared j hj (hcalled hj hjk)),
      hlog hk.started, fun res hres => hk.unfinished res (hfinished hres)⟩
  cases c with
  | wait k prior =>
      exact ⟨by rw [hprior]; exact h.1, fun k' hk' => h.2 k' (hstarted hk')⟩
  | operation k => exact hrun k h
  | promise k => exact hrun k h

omit [DecidableEq key] in
theorem Linked.mono {s' : Mutex key value error} {m : Nat} {k : key}
    (h : Linked s m k) (hprior : s'.prior m = s.prior m)
    (hcalled : forall {j}, j < m -> Called s' j k -> Called s j k)
    (hkeep : forall {j}, Called s j k -> Called s' j k)
    (hreleased : forall {j}, j ∈ s.released -> j ∈ s'.released) :
    Linked s' m k := by
  unfold Linked at h ⊢
  rw [hprior]
  cases hp : s.prior m with
  | none =>
      rw [hp] at h
      exact fun j hj hjk => hreleased (h j hj (hcalled hj hjk))
  | some p =>
      rw [hp] at h
      exact ⟨h.1, hkeep h.2.1, fun j hpj hj hjk =>
        hreleased (h.2.2 j hpj hj (hcalled hj hjk))⟩

omit [DecidableEq key] in
theorem Live.put {n m : Nat} {k : key} {c : Option (PortCall key)}
    (h : Live (L.put n c) m k) (hne : m ≠ n) : Live L m k := by
  obtain ⟨d, hd, hkey⟩ := h
  rw [Ledger.put_other _ _ hne] at hd
  exact ⟨d, hd, hkey⟩

omit [DecidableEq key] in
theorem Live.of_put {n m : Nat} {k : key} {c : Option (PortCall key)}
    (h : Live L m k) (hne : m ≠ n) : Live (L.put n c) m k := by
  obtain ⟨d, hd, hkey⟩ := h
  exact ⟨d, by rw [Ledger.put_other _ _ hne]; exact hd, hkey⟩

omit [DecidableEq key] in
theorem live_put_iff {n m : Nat} {k : key} {c d : PortCall key}
    (hn : L.pending n = some c)
    (hkey : PortCall.keyOf d = PortCall.keyOf c) :
    Live (L.put n (some d)) m k <-> Live L m k := by
  by_cases hm : m = n
  · subst hm
    constructor
    · intro h
      obtain ⟨e, he, hk⟩ := h
      rw [Ledger.put_same] at he
      cases he
      exact ⟨c, hn, by rw [← hkey, hk]⟩
    · intro h
      obtain ⟨e, he, hk⟩ := h
      rw [hn] at he
      cases he
      exact ⟨d, Ledger.put_same _ _ _, by rw [hkey, hk]⟩
  · exact ⟨fun h => h.put hm, fun h => h.of_put hm⟩

omit [DecidableEq key] in
theorem Base.finished_started (h : Base L s) {n : Nat}
    {res : Except error value} (hres : Entry.finished n res ∈ s.log) :
    exists k, Entry.started n k ∈ s.log := by
  obtain ⟨before, after, hlog⟩ := List.append_of_mem hres
  obtain ⟨k, hk⟩ := (h.log _ _ _ hlog).1
  exact ⟨k, by rw [hlog]; exact List.mem_append_left _ hk⟩

omit [DecidableEq key] in
theorem Base.finished_gone (h : Base L s) {n : Nat}
    {res : Except error value} (hres : Entry.finished n res ∈ s.log) :
    L.pending n = none := by
  cases hpending : L.pending n with
  | none => rfl
  | some c =>
      obtain ⟨_, _, hstand⟩ := h.waits hpending
      cases c with
      | wait k p =>
          obtain ⟨k', hk'⟩ := h.finished_started hres
          exact absurd hk' (hstand.2 k')
      | operation k => exact absurd hres (hstand.unfinished res)
      | promise k => exact absurd hres (hstand.unfinished res)

theorem Inv.start (h : Inv L s) {n : Nat} {k : key} {p : Option Nat}
    (hn : L.pending n = some (PortCall.wait k p)) (hclear : Cleared s n k) :
    Inv (L.put n (some (PortCall.operation k)))
      (s.record (Entry.started n k)) := by
  have hcalled : forall {j k'}, Called (s.record (Entry.started n k)) j k' ->
      Called s j k' := by
    intro j k' hj
    simpa [Called, Mutex.record] using hj
  have hkeep : forall {e}, e ∈ s.log ->
      e ∈ (s.record (Entry.started n k)).log :=
    fun he => List.mem_append_left _ he
  have hlive : forall m k', Live (L.put n (some (PortCall.operation k))) m k' <->
      Live L m k' := fun m k' => live_put_iff hn rfl
  obtain ⟨hcn, hrn, hstand⟩ := h.waits hn
  constructor
  · constructor
    · exact fun hj => h.numbered (hcalled hj)
    · exact fun hj hj' => h.unique (hcalled hj) (hcalled hj')
    · intro m c hm
      rw [Ledger.put_pending] at hm
      split at hm
      · rename_i hmn
        cases hm
        subst hmn
        refine ⟨hkeep hcn, hrn, ?_, ?_, ?_⟩
        · exact fun j hj hjk => hclear j hj (hcalled hjk)
        · simp [Mutex.record]
        · intro res hres
          have hold : Entry.finished m res ∈ s.log := by
            simpa [Mutex.record] using hres
          obtain ⟨k', hk'⟩ := h.finished_started hold
          exact hstand.2 k' hk'
      · rename_i hmn
        obtain ⟨hcm, hrm, hsm⟩ := h.waits hm
        have hother : Standing (s.record (Entry.started n k)) m c := by
          apply hsm.mono (s.record _) rfl (fun _ hj => hcalled hj) id hkeep
          · intro k' hk'
            simpa [Mutex.record, hmn] using hk'
          · intro res hres
            simpa [Mutex.record] using hres
        exact ⟨hkeep hcm, hrm, hother⟩
    · intro m k' hm
      exact (h.linked (hcalled hm)).mono rfl (fun _ hj => hcalled hj)
        (fun hj => hkeep hj) id
    · intro m hm
      obtain ⟨res, hres⟩ := h.done hm
      exact ⟨res, hkeep hres⟩
    · exact everyEntry_snoc.mpr ⟨h.log, hcn, hstand.2, fun m hm hmk =>
        h.done (hclear m hm hmk)⟩
  · intro m k' hm hfree
    rw [Ledger.put_pending] at hfree
    split at hfree
    · cases hfree
    · exact h.idle (hcalled hm) hfree
  · intro m k' hm
    have htail := h.tail hm
    exact ⟨(hlive m k').mpr htail.1, fun j hj => htail.2 j ((hlive j k').mp hj)⟩
  · intro k' hk' m hm
    exact h.noTail hk' m ((hlive m k').mp hm)

theorem Inv.turn (h : Inv L s) {n : Nat} {k : key}
    (hn : L.pending n = some (PortCall.operation k)) :
    Inv (L.put n (some (PortCall.promise k))) s := by
  have hlive : forall m k', Live (L.put n (some (PortCall.promise k))) m k' <->
      Live L m k' := fun m k' => live_put_iff hn rfl
  constructor
  · constructor
    · exact h.numbered
    · exact h.unique
    · intro m c hm
      rw [Ledger.put_pending] at hm
      split at hm
      · rename_i hmn
        cases hm
        subst hmn
        obtain ⟨hcn, hrn, hstand⟩ := h.waits hn
        exact ⟨hcn, hrn, hstand⟩
      · exact h.waits hm
    · exact h.linked
    · exact h.done
    · exact h.log
  · intro m k' hm hfree
    rw [Ledger.put_pending] at hfree
    split at hfree
    · cases hfree
    · exact h.idle hm hfree
  · intro m k' hm
    have htail := h.tail hm
    exact ⟨(hlive m k').mpr htail.1, fun j hj => htail.2 j ((hlive j k').mp hj)⟩
  · intro k' hk' m hm
    exact h.noTail hk' m ((hlive m k').mp hm)

/-- What a call leaves behind when its operation has ended in `res`. -/
def finished (s : Mutex key value error) (n : Nat) (k : key)
    (res : Except error value) : Mutex key value error :=
  { s with
    tails := if s.tails.get k = some n then s.tails.delete k else s.tails
    released := n :: s.released
    log := s.log ++ [Entry.finished n res] ++ [Entry.returned n res] }

theorem finished_tail (h : Inv L s) {n m : Nat} {c : PortCall key} {k : key}
    {res : Except error value} (hn : L.pending n = some c)
    (hm : (finished s n (PortCall.keyOf c) res).tails.get k = some m) :
    s.tails.get k = some m ∧ m ≠ n := by
  have hown : s.tails.get k = some n -> PortCall.keyOf c = k := by
    intro htail
    obtain ⟨d, hd, hkey⟩ := (h.tail htail).1
    rw [hn] at hd
    cases hd
    exact hkey
  simp only [finished] at hm
  split at hm
  · rw [JsMap.get_delete] at hm
    split at hm
    · cases hm
    · rename_i hne
      exact ⟨hm, fun heq => hne (hown (heq ▸ hm))⟩
  · rename_i hne
    refine ⟨hm, fun heq => hne ?_⟩
    rw [heq] at hm
    rwa [hown hm]

theorem finished_noTail {n j : Nat} {k k' : key} {res : Except error value}
    (hold : s.tails.get k' = some j)
    (hnew : (finished s n k res).tails.get k' = none) : k = k' ∧ j = n := by
  simp only [finished] at hnew
  split at hnew
  · rename_i htail
    rw [JsMap.get_delete] at hnew
    split at hnew
    · rename_i hkey
      rw [hkey, hold] at htail
      exact ⟨hkey, Option.some.inj htail⟩
    · rw [hold] at hnew
      cases hnew
  · rw [hold] at hnew
    cases hnew

theorem Inv.finish (h : Inv L s) {n : Nat} {c : PortCall key}
    (hn : L.pending n = some c) (hrun : Running s n (PortCall.keyOf c))
    (res : Except error value) :
    Inv (L.put n none) (finished s n (PortCall.keyOf c) res) := by
  have hcalled : forall {j k'},
      Called (finished s n (PortCall.keyOf c) res) j k' -> Called s j k' := by
    intro j k' hj
    simpa [Called, finished] using hj
  have hkeep : forall {e}, e ∈ s.log ->
      e ∈ (finished s n (PortCall.keyOf c) res).log := by
    intro e he
    exact List.mem_append_left _ (List.mem_append_left _ he)
  have hreleased : forall {j}, j ∈ s.released ->
      j ∈ (finished s n (PortCall.keyOf c) res).released :=
    fun hj => List.mem_cons_of_mem n hj
  have hcn := (h.waits hn).1
  constructor
  · constructor
    · exact fun hj => h.numbered (hcalled hj)
    · exact fun hj hj' => h.unique (hcalled hj) (hcalled hj')
    · intro m d hm
      rw [Ledger.put_pending] at hm
      split at hm
      · cases hm
      · rename_i hmn
        obtain ⟨hcm, hrm, hsm⟩ := h.waits hm
        have hother : Standing (finished s n (PortCall.keyOf c) res) m d := by
          apply hsm.mono (finished s n (PortCall.keyOf c) res) rfl
            (fun _ hj => hcalled hj) hreleased hkeep
          · intro k' hk'
            simpa [finished] using hk'
          · intro res' hres
            simpa [finished, hmn] using hres
        exact ⟨hkeep hcm, by simpa [finished, hmn] using hrm, hother⟩
    · intro m k' hm
      exact (h.linked (hcalled hm)).mono rfl (fun _ hj => hcalled hj)
        (fun hj => hkeep hj) hreleased
    · intro m hm
      cases List.mem_cons.mp hm with
      | inl hmn =>
          rw [hmn]
          exact ⟨res, by simp [finished]⟩
      | inr hold =>
          obtain ⟨res', hres⟩ := h.done hold
          exact ⟨res', hkeep hres⟩
    · have hlog : EveryEntry Good (s.log ++ [Entry.finished n res]) :=
        everyEntry_snoc.mpr ⟨h.log, ⟨_, hrun.started⟩, hrun.unfinished⟩
      exact everyEntry_snoc.mpr
        ⟨hlog, List.mem_append_right _ List.mem_cons_self⟩
  · intro m k' hm hfree
    by_cases hmn : m = n
    · rw [hmn]
      exact List.mem_cons_self
    · rw [Ledger.put_other _ _ hmn] at hfree
      exact hreleased (h.idle (hcalled hm) hfree)
  · intro m k' hm
    have hold := finished_tail h hn hm
    have htail := h.tail hold.1
    exact ⟨htail.1.of_put hold.2, fun j hj => by
      by_cases hjn : j = n
      · obtain ⟨e, he, _⟩ := hj
        rw [hjn, Ledger.put_same] at he
        cases he
      · exact htail.2 j (hj.put hjn)⟩
  · intro k' hk' m hm
    have hmn : m ≠ n := by
      intro heq
      obtain ⟨d, hd, _⟩ := hm
      rw [heq, Ledger.put_same] at hd
      cases hd
    have hlive := hm.put hmn
    cases hold : s.tails.get k' with
    | none => exact h.noTail hold m hlive
    | some j =>
        -- the tail that was deleted is the one of the call that ends
        obtain ⟨hkey, hjn⟩ := finished_noTail hold hk'
        have hlt : m < n := by
          have hle := (h.tail hold).2 m hlive
          omega
        obtain ⟨d, hd, hdkey⟩ := hlive
        obtain ⟨hcm, hrm, _⟩ := h.waits hd
        rw [hdkey, ← hkey] at hcm
        exact hrm (hrun.cleared m hlt hcm)

def called (s : Mutex key value error) (n : Nat) (k : key) :
    Mutex key value error :=
  { s with
    tails := s.tails.set k n
    prior := Function.update s.prior n (s.tails.get k)
    log := s.log ++ [Entry.called n k] }

omit [DecidableEq key] in
theorem Base.started_lt (h : Base L s) {n : Nat} {k : key}
    (hstarted : Entry.started n k ∈ s.log) : n < L.next := by
  obtain ⟨before, after, hlog⟩ := List.append_of_mem hstarted
  have hcalled : Called s n k := by
    rw [Called, hlog]
    exact List.mem_append_left _ (h.log _ _ _ hlog).1
  exact h.numbered hcalled

omit [DecidableEq key] in
theorem Base.released_lt (h : Base L s) {n : Nat} (hn : n ∈ s.released) :
    n < L.next := by
  obtain ⟨res, hres⟩ := h.done hn
  obtain ⟨k, hk⟩ := h.finished_started hres
  exact h.started_lt hk

theorem Inv.released (h : Inv L s) {n : Nat} {k : key} (hn : Called s n k)
    (hdead : ¬ Live L n k) : n ∈ s.released := by
  cases hpending : L.pending n with
  | none => exact h.idle hn hpending
  | some c =>
      have hkey := h.unique (h.waits hpending).1 hn
      exact absurd ⟨c, hpending, hkey⟩ hdead

theorem Inv.linked_next (h : Inv L s) {k : key} {s' : Mutex key value error}
    (hprior : s'.prior L.next = s.tails.get k)
    (hcalled : forall {j}, j < L.next -> Called s' j k -> Called s j k)
    (hkeep : forall {j}, Called s j k -> Called s' j k)
    (hreleased : forall {j}, j ∈ s.released -> j ∈ s'.released) :
    Linked s' L.next k := by
  unfold Linked
  rw [hprior]
  cases htail : s.tails.get k with
  | none =>
      intro j hj hjk
      exact hreleased (h.released (hcalled hj hjk) (h.noTail htail j))
  | some p =>
      obtain ⟨⟨c, hc, hkey⟩, hlast⟩ := h.tail htail
      have hcp := (h.waits hc).1
      rw [hkey] at hcp
      refine ⟨h.numbered hcp, hkeep hcp, ?_⟩
      intro j hpj hj hjk
      apply hreleased
      apply h.released (hcalled hj hjk)
      intro hlive
      exact Nat.not_le_of_lt hpj (hlast j hlive)

theorem Inv.call (h : Inv L s) (hfree : L.pending L.next = none) (k : key) :
    Inv (Ledger.put { L with next := L.next + 1 } L.next
      (some (PortCall.wait k (s.tails.get k)))) (called s L.next k) := by
  have hcases : forall {j k'}, Called (called s L.next k) j k' ->
      Called s j k' ∨ j = L.next ∧ k' = k := by
    intro j k' hj
    simpa [Called, called] using hj
  have hcalled : forall {j k'}, j < L.next ->
      Called (called s L.next k) j k' -> Called s j k' := by
    intro j k' hlt hj
    cases hcases hj with
    | inl hold => exact hold
    | inr hnew => omega
  have hkeep : forall {e}, e ∈ s.log -> e ∈ (called s L.next k).log :=
    fun he => List.mem_append_left _ he
  have hlive : forall {m k'}, Live (Ledger.put { L with next := L.next + 1 }
      L.next (some (PortCall.wait k (s.tails.get k)))) m k' ->
      Live L m k' ∧ m < L.next ∨ m = L.next ∧ k' = k := by
    intro m k' hm
    by_cases hmn : m = L.next
    · obtain ⟨d, hd, hkey⟩ := hm
      rw [hmn, Ledger.put_same] at hd
      cases hd
      exact Or.inr ⟨hmn, hkey.symm⟩
    · obtain ⟨d, hd, hkey⟩ := hm.put hmn
      exact Or.inl ⟨⟨d, hd, hkey⟩, h.numbered (h.waits hd).1⟩
  constructor
  · constructor
    · intro j k' hj
      show j < L.next + 1
      cases hcases hj with
      | inl hold => exact Nat.lt_succ_of_lt (h.numbered hold)
      | inr hnew => omega
    · intro j k1 k2 h1 h2
      cases hcases h1 with
      | inl hold1 =>
          have hlt := h.numbered hold1
          exact h.unique hold1 (hcalled hlt h2)
      | inr hnew1 =>
          cases hcases h2 with
          | inl hold2 =>
              have hlt := h.numbered hold2
              omega
          | inr hnew2 => rw [hnew1.2, hnew2.2]
    · intro m c hm
      rw [Ledger.put_pending] at hm
      split at hm
      · rename_i hmn
        cases hm
        subst hmn
        refine ⟨by simp [Called, called, PortCall.keyOf], ?_, ?_, ?_⟩
        · exact fun hr => Nat.lt_irrefl _ (h.released_lt hr)
        · simp [called]
        · intro k' hk'
          have hold : Entry.started L.next k' ∈ s.log := by
            simpa [called] using hk'
          exact Nat.lt_irrefl _ (h.started_lt hold)
      · rename_i hmn
        obtain ⟨hcm, hrm, hsm⟩ := h.waits hm
        have hlt := h.numbered hcm
        have hother : Standing (called s L.next k) m c := by
          apply hsm.mono (called s L.next k) (by simp [called, hmn])
            (fun hj => hcalled (Nat.lt_trans hj hlt)) id hkeep
          · intro k' hk'
            simpa [called] using hk'
          · intro res hres
            simpa [called] using hres
        exact ⟨hkeep hcm, hrm, hother⟩
    · intro m k' hm
      cases hcases hm with
      | inl hold =>
          have hlt := h.numbered hold
          exact (h.linked hold).mono
            (by simp [called, Nat.ne_of_lt hlt])
            (fun hj => hcalled (Nat.lt_trans hj hlt)) (fun hj => hkeep hj) id
      | inr hnew =>
          rw [hnew.1, hnew.2]
          exact h.linked_next (by simp [called]) hcalled
            (fun hj => hkeep hj) id
    · intro m hm
      obtain ⟨res, hres⟩ := h.done hm
      exact ⟨res, hkeep hres⟩
    · exact everyEntry_snoc.mpr ⟨h.log, fun m k' hm => h.numbered hm⟩
  · intro m k' hm hidle
    rw [Ledger.put_pending] at hidle
    split at hidle
    · cases hidle
    · rename_i hmn
      cases hcases hm with
      | inl hold => exact h.idle hold hidle
      | inr hnew => exact absurd hnew.1 hmn
  · intro m k' hm
    simp only [called, JsMap.get_set] at hm
    split at hm
    · rename_i hkey
      cases hm
      subst hkey
      refine ⟨⟨_, Ledger.put_same _ _ _, rfl⟩, ?_⟩
      intro j hj
      cases hlive hj with
      | inl hold => exact Nat.le_of_lt hold.2
      | inr hnew => exact Nat.le_of_eq hnew.1
    · rename_i hne
      have htail := h.tail hm
      have hmn : m ≠ L.next := by
        obtain ⟨d, hd, _⟩ := htail.1
        intro heq
        rw [heq, hfree] at hd
        cases hd
      refine ⟨Live.of_put htail.1 hmn, ?_⟩
      intro j hj
      cases hlive hj with
      | inl hold => exact htail.2 j hold.1
      | inr hnew => exact absurd hnew.2.symm hne
  · intro k' hk' m hm
    simp only [called, JsMap.get_set] at hk'
    split at hk'
    · cases hk'
    · rename_i hne
      cases hlive hm with
      | inl hold => exact h.noTail hk' m hold.1
      | inr hnew => exact hne hnew.2.symm

end Steps

/-!
## The code keeps the invariant
-/

section Code

variable {L : Ledger (ports key value error)}

theorem owes_await {n : Nat} {result : Type} {c : PortCall key}
    {g : PortReply key value error c ->
      Prog (Mutex key value error) (ports key value error) error result}
    {Q : Except error result -> Ledger (ports key value error) ->
      Mutex key value error -> Prop}
    (hinv : Inv (L.put n (some c)) (issue n c s))
    (hg : forall L' t r, Ledger.pending L' n = some c -> Inv L' t ->
      allowed t n c r ->
      (g r).owes mutex Inv n Q (L'.put n none) (reply n c r t)) :
    (Prog.call (I := ports key value error) c g).owes
      mutex Inv n Q L s := by
  have hc : boundary c ≠ Boundary.sync := by
    cases c with
    | wait => nofun
    | operation => nofun
    | promise => nofun
  exact (Prog.owes_wait (M := mutex) hc).mpr
    ⟨hinv, fun L' t r hpending _ _ => hg L' t r hpending⟩

theorem owes_release (h : Inv L s) {n : Nat} {c : PortCall key}
    (hn : L.pending n = some c) (hrun : Running s n (PortCall.keyOf c))
    (res : Except error value) :
    (release n (PortCall.keyOf c)).owes mutex Inv n
      (Prog.closeOwes (finalOwes mutex Inv n (PortCall.keyOf c)) res)
      (L.put n none) (s.record (Entry.finished n res)) := by
  have hend := h.finish hn hrun res
  simp only [release, Prog.modify_bind, Prog.read_bind, Prog.owes_act]
  split
  · rename_i htail
    have hown : s.tails.get (PortCall.keyOf c) = some n := htail
    rw [finished, if_pos hown] at hend
    exact hend
  · rename_i htail
    have hown : ¬ s.tails.get (PortCall.keyOf c) = some n := htail
    rw [finished, if_neg hown] at hend
    exact hend

theorem owes_operation (h : Inv L s) {n : Nat} {k : key}
    (hn : L.pending n = some (PortCall.operation k))
    (r : Option error) :
    ((awaitOperation k r).always (release n k)).owes
      mutex Inv n
      (finalOwes mutex Inv n k) (L.put n none)
      (reply n (PortCall.operation k) r s) := by
  cases r with
  | some e =>
      apply Prog.owes_always.mpr
      exact owes_release h hn (h.waits hn).2.2 (Except.error e)
  | none =>
      apply owes_await
      · rw [Ledger.put_put]
        exact h.turn hn
      · intro L' t res hn' h' _
        cases res with
        | ok v =>
            apply Prog.owes_always.mpr
            exact owes_release h' hn' (h'.waits hn').2.2 (Except.ok v)
        | error e =>
            apply Prog.owes_always.mpr
            exact owes_release h' hn' (h'.waits hn').2.2 (Except.error e)

theorem Inv.turn_cleared (h : Inv L s) {n : Nat} {k : key} {p : Option Nat}
    (hn : L.pending n = some (PortCall.wait k p)) :
    allowed s n (PortCall.wait k p) () <-> Cleared s n k := by
  obtain ⟨hcn, hrn, hprior, _⟩ := h.waits hn
  have hlink := h.linked hcn
  unfold Linked at hlink
  rw [hprior] at hlink
  cases p with
  | none => exact ⟨fun _ => hlink, fun _ => trivial⟩
  | some p =>
      obtain ⟨hlt, hcp, hmid⟩ := hlink
      have hsettled := settled_iff (fun j hj => h.linked hj) hcp
      constructor
      · intro hallowed
        obtain ⟨hrel, hall⟩ := hsettled.mp hallowed
        intro m hm hmk
        rcases Nat.lt_trichotomy m p with hmp | hmp | hmp
        · exact hall m hmp hmk
        · rw [hmp]
          exact hrel
        · exact hmid m hmp hm hmk
      · intro hall
        exact hsettled.mpr ⟨hall p hlt hcp, fun m hm hmk =>
          hall m (Nat.lt_trans hm hlt) hmk⟩

theorem inv_inductive :
    Inductive (@mutex key value error _) Inv := by
  constructor
  · intro L s s' _ henv
    exact absurd henv id
  · intro L s k hfree h _
    show ((runExclusive L.next k : Code key value error value)).owes _ _ _ _ _ _
    simp only [runExclusive, Prog.modify_bind, Prog.read_bind, Prog.owes_act,
      runOperation]
    apply owes_await
    · exact h.call hfree k
    · intro L' t _ hn h' hallowed
      have hclear := (h'.turn_cleared hn).mp hallowed
      apply owes_await
      · rw [Ledger.put_put]
        exact h'.start hn hclear
      · intro L'' t' r hn' h'' _
        exact owes_operation h'' hn' r

end Code

theorem Inv.initial :
    Inv Ledger.empty (Mutex.initial key value error) where
  numbered := nofun
  unique := nofun
  waits := nofun
  linked := nofun
  done := nofun
  log := everyEntry_nil _
  idle := nofun
  tail := nofun
  noTail := by
    intro k _ m hm
    obtain ⟨c, hc, _⟩ := hm
    cases hc

/-!
## Where a call waits
-/

section Waits

variable {n : Nat} {k : key} {c : PortCall key}
variable {g : PortReply key value error c -> Code key value error value}

theorem release_stops {q : Code key value error value}
    (hq : forall (d : PortCall key) g', ¬ q.Stops d g') :
    ¬ ((release n k).bind fun _ => q).Stops c g := by
  intro h
  cases h with
  | act s h =>
      cases h with
      | act s' h =>
          have hlast : ((if s'.tails.get k = some n then
              Prog.modify fun s => { s with tails := s.tails.delete k }
            else pure () : Code key value error Unit).bind
              fun _ => q).Stops c g := h
          split at hlast
          · cases hlast with
            | act _ h => exact hq _ _ h
          · exact hq _ _ hlast

/-- Once the operation has ended, the call does not wait again. -/
theorem settled_stops {p : Code key value error value}
    (hp : (exists v, p = Prog.ret v) ∨ exists e, p = Prog.raise e) :
    ¬ (p.always (release n k)).Stops c g := by
  cases hp with
  | inl hp =>
      obtain ⟨v, hp⟩ := hp
      subst hp
      exact release_stops nofun
  | inr hp =>
      obtain ⟨e, hp⟩ := hp
      subst hp
      exact release_stops nofun

theorem operation_stops
    (h : ((runOperation k).always (release n k) :
      Code key value error value).Stops c g) :
    c = PortCall.operation k ∨ c = PortCall.promise k := by
  cases h with
  | here => exact Or.inl rfl
  | call r h =>
      cases r with
      | some e => exact absurd h (settled_stops (Or.inr ⟨e, rfl⟩))
      | none =>
          cases h with
          | here => exact Or.inr rfl
          | call res h =>
              cases res with
              | ok v => exact absurd h (settled_stops (Or.inl ⟨v, rfl⟩))
              | error e => exact absurd h (settled_stops (Or.inr ⟨e, rfl⟩))

theorem stops_key
    (h : (runExclusive n k : Code key value error value).Stops c g) :
    PortCall.keyOf c = k := by
  cases h with
  | act s h =>
      cases h with
      | act s' h =>
          cases h with
          | here => rfl
          | call r h =>
              cases operation_stops h with
              | inl h => rw [h]; rfl
              | inr h => rw [h]; rfl

end Waits

theorem stops_wait {n : Nat} {k k' : key} {p : Option Nat}
    {g : Unit -> Code key value error value}
    (h : (runExclusive n k : Code key value error value).Stops
      (PortCall.wait k' p) g) :
    g = fun _ => (runOperation k).always (release n k) := by
  cases h with
  | act s h =>
      cases h with
      | act s' h =>
          cases h with
          | here => rfl
          | call r h =>
              cases operation_stops h with
              | inl h => cases h
              | inr h => cases h

/-!
## What a run keeps
-/

abbrev Run (key value error : Type) :=
  Config (Mutex key value error) (ports key value error) error value key

/-- No call on the same key that was made before call `n` is in progress. -/
def First (cfg : Run key value error) (n : Nat) (k : key) : Prop :=
  forall f, f ∈ cfg.stack ++ cfg.parked -> f.task = k -> n ≤ f.id

structure Exclusive (cfg : Run key value error) : Prop where
  /-- The numbers are the order of the calls. -/
  numbers : forall before n k after,
    cfg.shared.log = before ++ Entry.called n k :: after ->
      forall m k', Entry.called m k' ∈ before -> m < n
  /-- When an operation starts, those that have started have finished. -/
  overlap : forall before n k after,
    cfg.shared.log = before ++ Entry.started n k :: after ->
      forall m, Entry.started m k ∈ before ->
        m < n ∧ exists res, Entry.finished m res ∈ before
  /-- When an operation starts, those that were called before have finished. -/
  order : forall before n k after,
    cfg.shared.log = before ++ Entry.started n k :: after ->
      Entry.called n k ∈ before ∧
        forall m, m < n -> Entry.called m k ∈ before ->
          exists res, Entry.finished m res ∈ before
  result : forall before n res after,
    cfg.shared.log = before ++ Entry.returned n res :: after ->
      Entry.finished n res ∈ before ∧
        forall res', Entry.finished n res' ∈ cfg.shared.log -> res' = res
  /-- Once its operation has finished, a call is no longer in progress. -/
  ended : forall n res, Entry.finished n res ∈ cfg.shared.log ->
    forall f, f ∈ cfg.stack ++ cfg.parked -> f.id ≠ n
  tails : forall n k, cfg.shared.tails.get k = some n ->
    exists f, f ∈ cfg.stack ++ cfg.parked ∧ f.id = n ∧ f.task = k
  /-- A call waits for the calls on its own key that were made before it, and
  for nothing else. -/
  turn : forall n k ph p g,
    (⟨n, k, ph, PortCall.wait k p, g⟩ :
        Frame (Mutex key value error) (ports key value error) error value key)
        ∈ cfg.parked ->
      (allowed cfg.shared n (PortCall.wait k p) () <-> First cfg n k)
  /-- Then its operation can start, whatever became of those before. -/
  starts : forall n k ph p g,
    (⟨n, k, ph, PortCall.wait k p, g⟩ :
        Frame (Mutex key value error) (ports key value error) error value key)
        ∈ cfg.parked -> cfg.stack = [] -> First cfg n k ->
      exists cfg', Step mutex cfg cfg' ∧
        cfg'.shared.log = cfg.shared.log ++ [Entry.started n k]

section Log

variable {log : List (Entry key value error)}

omit [DecidableEq key] in
theorem finished_unique (h : EveryEntry Good log) {n : Nat}
    {res res' : Except error value} (hres : Entry.finished n res ∈ log)
    (hres' : Entry.finished n res' ∈ log) : res' = res := by
  obtain ⟨before, after, hlog⟩ := List.append_of_mem hres
  obtain ⟨before', after', hlog'⟩ := List.append_of_mem hres'
  rcases split_cases (hlog.symm.trans hlog') with hsame | ⟨mid, hmid⟩ |
    ⟨mid, hmid⟩
  · injection hsame.2 with _ heq
    exact heq.symm
  · apply absurd _ ((h _ _ _ hlog').2 res)
    rw [hmid]
    exact List.mem_append_right _ List.mem_cons_self
  · apply absurd _ ((h _ _ _ hlog).2 res')
    rw [hmid]
    exact List.mem_append_right _ List.mem_cons_self

omit [DecidableEq key] in
theorem called_before (h : EveryEntry Good log) {n m : Nat} {k k' : key}
    {before after : List (Entry key value error)}
    (hlog : log = before ++ after) (hm : Entry.called m k' ∈ before)
    (hn : Entry.called n k ∈ log) (hlt : n < m) :
    Entry.called n k ∈ before := by
  rw [hlog] at hn
  cases List.mem_append.mp hn with
  | inl hbefore => exact hbefore
  | inr hafter =>
      obtain ⟨front, back, hsplit⟩ := List.append_of_mem hafter
      have hgood : m < n := by
        apply h (before ++ front) (Entry.called n k) back
        · rw [hlog, hsplit, List.append_assoc]
        · exact List.mem_append_left _ hm
      omega

omit [DecidableEq key] in
theorem overlap_of_good (h : EveryEntry Good log) {n m : Nat} {k : key}
    {before after : List (Entry key value error)}
    (hlog : log = before ++ Entry.started n k :: after)
    (hm : Entry.started m k ∈ before) :
    m < n ∧ exists res, Entry.finished m res ∈ before := by
  obtain ⟨hcalled, hnew, hall⟩ := h _ _ _ hlog
  obtain ⟨front, back, hbefore⟩ := List.append_of_mem hm
  have hlog' : log = front ++
      (Entry.started m k :: back ++ Entry.started n k :: after) := by
    rw [hlog, hbefore]
    simp
  obtain ⟨hcalled', _, hall'⟩ := h _ _ _ hlog'
  rcases Nat.lt_trichotomy m n with hlt | heq | hgt
  · have hcm : Entry.called m k ∈ before := by
      rw [hbefore]
      exact List.mem_append_left _ hcalled'
    exact ⟨hlt, hall m hlt hcm⟩
  · rw [heq] at hm
    exact absurd hm (hnew k)
  · -- then `n` would have finished before `m` started, and so have started
    have hcn : Entry.called n k ∈ log := by
      rw [hlog]
      exact List.mem_append_left _ hcalled
    obtain ⟨res, hres⟩ := hall' n hgt
      (called_before h hlog' hcalled' hcn hgt)
    obtain ⟨front', back', hfront⟩ := List.append_of_mem hres
    have hlog'' : log = front' ++ (Entry.finished n res :: back' ++
        (Entry.started m k :: back ++ Entry.started n k :: after)) := by
      rw [hlog', hfront]
      simp
    obtain ⟨k', hk'⟩ := (h _ _ _ hlog'').1
    apply absurd _ (hnew k')
    rw [hbefore, hfront]
    exact List.mem_append_left _ (List.mem_append_left _ hk')

end Log

section Results

variable {cfg : Run key value error}

theorem live_frame (hok : Inductive.Ok mutex Inv cfg)
    (hrest : cfg.Resting mutex) {n : Nat} {k : key} :
    Live (Ledger.of (cfg.stack ++ cfg.parked) cfg.next) n k <->
      exists f, f ∈ cfg.stack ++ cfg.parked ∧ f.id = n ∧ f.task = k := by
  constructor
  · intro h
    obtain ⟨c, hc, hkey⟩ := h
    obtain ⟨f, hf, hid, hcall⟩ := Ledger.mem_of hc
    refine ⟨f, hf, hid, ?_⟩
    rw [← hkey, ← hcall]
    exact (stops_key (hrest f hf)).symm
  · intro h
    obtain ⟨f, hf, hid, htask⟩ := h
    refine ⟨f.call, ?_, ?_⟩
    · rw [← hid]
      exact Ledger.of_mem hok.distinct cfg.next hf
    · rw [← htask]
      exact stops_key (hrest f hf)

theorem first_iff (hok : Inductive.Ok mutex Inv cfg)
    (hrest : cfg.Resting mutex) {n : Nat} {k : key} :
    First cfg n k <-> Cleared cfg.shared n k := by
  constructor
  · intro h m hm hmk
    apply hok.inv.released hmk
    intro hlive
    obtain ⟨f, hf, hid, htask⟩ := (live_frame hok hrest).mp hlive
    have hle := h f hf htask
    omega
  · intro h f hf htask
    apply Nat.le_of_not_lt
    intro hlt
    obtain ⟨c, hc, hkey⟩ := (live_frame hok hrest).mpr ⟨f, hf, rfl, htask⟩
    obtain ⟨hcalled, hrel, _⟩ := hok.inv.waits hc
    rw [hkey] at hcalled
    exact hrel (h f.id hlt hcalled)

theorem step_start (hrest : cfg.Resting mutex) {n : Nat} {k : key}
    {ph : Phase} {p : Option Nat} {g : Unit -> Code key value error value}
    (hf : (⟨n, k, ph, PortCall.wait k p, g⟩ :
      Frame (Mutex key value error) (ports key value error) error value key) ∈
        cfg.parked)
    (hstack : cfg.stack = [])
    (hallowed : allowed cfg.shared n (PortCall.wait k p) ()) :
    exists cfg', Step mutex cfg cfg' ∧
      cfg'.shared.log = cfg.shared.log ++ [Entry.started n k] := by
  have hg : g = fun _ => (runOperation k).always (release n k) :=
    stops_wait (hrest _ (List.mem_append_right _ hf))
  obtain ⟨s, stack, parked, next⟩ := cfg
  obtain ⟨front, back, hparked⟩ := List.append_of_mem hf
  dsimp only at hstack hparked
  subst hstack hparked hg
  have hseg : Seg mutex n ((runOperation k).always (release n k)) s
      (s.record (Entry.started n k))
      (Outcome.wait (I := ports key value error) (PortCall.operation k)
        fun thrown => (awaitOperation k thrown).always (release n k)) :=
    Seg.stop nofun
  exact ⟨_, Step.resume () hallowed hseg, rfl⟩

end Results

theorem keyed_mutex_excludes {cfg : Run key value error}
    (h : Reachable mutex (Mutex.initial key value error) cfg) :
    Exclusive cfg := by
  have hok := inv_inductive.reachable Inv.initial h
  have hrest := h.resting
  have hinv := hok.inv
  constructor
  · intro before n k after hlog
    exact hinv.log _ _ _ hlog
  · intro before n k after hlog m hm
    exact overlap_of_good hinv.log hlog hm
  · intro before n k after hlog
    have hgood := hinv.log _ _ _ hlog
    exact ⟨hgood.1, hgood.2.2⟩
  · intro before n res after hlog
    have hfinished : Entry.finished n res ∈ before := hinv.log _ _ _ hlog
    refine ⟨hfinished, fun res' hres' => ?_⟩
    apply finished_unique hinv.log _ hres'
    rw [hlog]
    exact List.mem_append_left _ hfinished
  · intro n res hres f hf hid
    have hgone := hinv.finished_gone hres
    rw [← hid, Ledger.of_mem hok.distinct cfg.next hf] at hgone
    cases hgone
  · intro n k htail
    exact (live_frame hok hrest).mp (hinv.tail htail).1
  · intro n k ph p g hf
    rw [first_iff hok hrest]
    exact hinv.turn_cleared
      (Ledger.of_mem hok.distinct cfg.next (List.mem_append_right _ hf))
  · intro n k ph p g hf hstack hfirst
    apply step_start hrest hf hstack
    rw [first_iff hok hrest] at hfirst
    exact (hinv.turn_cleared (Ledger.of_mem hok.distinct cfg.next
      (List.mem_append_right _ hf))).mpr hfirst

/-!
## A run

The first operation throws and the third is on another key.
-/

def settledWithin (s : Mutex Nat Unit Unit) : Nat -> Nat -> Bool
  | 0, _ => false
  | fuel + 1, n =>
      decide (n ∈ s.released) &&
        match s.prior n with
        | none => true
        | some p => settledWithin s fuel p

theorem settled_of_within {s : Mutex Nat Unit Unit} {fuel n : Nat}
    (h : settledWithin s fuel n = true) : Settled s n := by
  induction fuel generalizing n with
  | zero => cases h
  | succ fuel ih =>
      obtain ⟨hrel, hprior⟩ := Bool.and_eq_true_iff.mp h
      split at hprior
      · rename_i hnone
        exact Settled.first (of_decide_eq_true hrel) hnone
      · rename_i p hp
        exact Settled.after (of_decide_eq_true hrel) hp (ih hprior)

def sampleReply (n : Nat) : (c : PortCall Nat) -> PortReply Nat Unit Unit c
  | PortCall.wait _ _ => ()
  | PortCall.operation _ => if n = 0 then some () else none
  | PortCall.promise _ => Except.ok ()

def sampleFair (s : Mutex Nat Unit Unit) (n : Nat) : PortCall Nat -> Bool
  | PortCall.wait _ (some p) => settledWithin s n p
  | _ => true

def sampleScript : Script (@mutex Nat Unit Unit _) where
  reply _ := sampleReply
  fair := sampleFair
  admits _ _ := true
  nudge _ := none
  fair_allowed s n c h := by
    cases c with
    | wait k p =>
        cases p with
        | none => trivial
        | some p => exact settled_of_within h
    | operation k => trivial
    | promise k => trivial
  admits_sound _ _ _ := trivial
  nudge_env _ _ h := nomatch h

def sampleRun : Option (Run Nat Unit Unit) :=
  sampleScript.play
    [Move.enter 7, Move.enter 7, Move.enter 8, Move.resume 2, Move.answer,
      Move.resume 0, Move.answer, Move.resume 0, Move.answer]
    (Config.initial (Mutex.initial Nat Unit Unit))

theorem sampleRun_log :
    sampleRun.map (fun cfg => cfg.shared.log) =
      some [Entry.called 0 7, Entry.called 1 7, Entry.called 2 8,
        Entry.started 2 8, Entry.started 0 7,
        Entry.finished 0 (Except.error ()), Entry.returned 0 (Except.error ()),
        Entry.started 1 7] := by
  decide +kernel

theorem keyed_mutex_excludes_sample :
    exists cfg, sampleRun = some cfg ∧ Exclusive cfg ∧
      Entry.started 1 7 ∈ cfg.shared.log := by
  obtain ⟨cfg, hrun, hlog⟩ := Option.map_eq_some_iff.mp sampleRun_log
  refine ⟨cfg, hrun, keyed_mutex_excludes (Script.play_reachable hrun), ?_⟩
  rw [hlog]
  decide

end KeyedMutex
end Server
end FlanTerminal

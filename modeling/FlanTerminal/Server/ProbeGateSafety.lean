import FlanTerminal.Server.ProbeGate

/-!
# Permits are conserved

The permits that are out are those of the leases that have been granted and not
given back.  Whatever a step does to its own probe, it ends by handing out
permits until there are none left or nobody waits.
-/

namespace FlanTerminal
namespace Server
namespace ProbeGate

open Foundation

variable {value error : Type} {s s' : State value error} {capacity n : Nat}

def Acquired (s : State value error) (n : Nat) : Prop :=
  Entry.acquired n ∈ s.log

def Outstanding (s : State value error) (n : Nat) : Prop :=
  (s.waiter n).granted = true ∧ (s.waiter n).released = false

def Good (before : List (Entry value error)) : Entry value error -> Prop
  | Entry.acquired n => forall m, Entry.acquired m ∈ before -> m < n
  | Entry.granted n => Entry.granted n ∉ before ∧
      Entry.cancelled n ∉ before ∧
      forall m, m < n -> Entry.acquired m ∈ before ->
        Entry.granted m ∈ before ∨ Entry.cancelled m ∈ before
  | Entry.released n => Entry.granted n ∈ before ∧ Entry.released n ∉ before
  | Entry.began n => Entry.granted n ∈ before ∧
      forall o, Entry.reported n o ∉ before
  | Entry.invoked n => Entry.began n ∈ before
  | Entry.reported n _ => forall o, Entry.reported n o ∉ before
  | _ => True

/-- The gate with the queue `ws`, and how the log tells its history. -/
structure Base (capacity : Nat) (ws : List Nat) (s : State value error) :
    Prop where
  bound : s.active ≤ capacity
  held : exists held : List Nat, held.Nodup ∧
    (forall n, n ∈ held <-> Outstanding s n) ∧ s.active = held.length
  sorted : ws.Pairwise fun a b => a < b
  waiting : forall {n}, n ∈ ws <-> Acquired s n ∧
    (s.waiter n).granted = false ∧ (s.waiter n).cancelled = false
  numbered : forall {n}, Acquired s n -> n < s.next
  granted : forall {n}, (s.waiter n).granted = true <->
    Entry.granted n ∈ s.log
  cancelled : forall {n}, (s.waiter n).cancelled = true <->
    Entry.cancelled n ∈ s.log
  released : forall {n}, (s.waiter n).released = true <->
    Entry.released n ∈ s.log
  log : EveryEntry Good s.log

/-- One probe.  A step may be in the middle of giving its permit back. -/
structure ProbeOk (pending : Prop) (s : State value error) (n : Nat) :
    Prop where
  timers : n ∈ s.timers -> Acquired s n
  leased : (s.waiter n).granted = true -> Acquired s n
  given_up : (s.waiter n).cancelled = true -> Acquired s n
  reported : forall {o}, Entry.reported n o ∈ s.log ->
    n < s.next ∧ (Acquired s n -> (s.probe n).returned = true)
  started : (s.probe n).started = true <-> Entry.began n ∈ s.log
  returned : (s.probe n).returned = true ->
    (s.probe n).started = true ∨ (s.waiter n).cancelled = true
  granting : s.stage n = Stage.granted -> (s.waiter n).granted = true
  running : s.stage n = Stage.starting ∨ s.stage n = Stage.running ->
    (s.probe n).started = true ∧ (s.waiter n).granted = true
  given : ¬ pending -> (s.waiter n).cancelled = true ->
    (s.waiter n).granted = true -> (s.waiter n).released = true
  settled : forall {res}, ¬ pending -> Entry.settled n res ∈ s.log ->
    (s.waiter n).released = true

def Probes (pending : Option Nat) (s : State value error) : Prop :=
  forall n, ProbeOk (pending = some n) s n

/-- Nobody waits while there is a permit. -/
def Full (capacity : Nat) (s : State value error) : Prop :=
  s.waiters ≠ [] -> s.active = capacity

structure Inv (capacity : Nat) (s : State value error) : Prop
    extends Base capacity s.waiters s where
  probes : Probes none s
  full : Full capacity s

/-!
## Handing out permits
-/

structure Grants (s s' : State value error) : Prop where
  probe : s'.probe = s.probe
  timers : s'.timers = s.timers
  next : s'.next = s.next
  cancelled : forall n, (s'.waiter n).cancelled = (s.waiter n).cancelled
  released : forall n, (s'.waiter n).released = (s.waiter n).released
  granted : forall {n}, (s'.waiter n).granted = true ->
    (s.waiter n).granted = true ∨
      Acquired s n ∧ (s.waiter n).cancelled = false
  kept : forall {n}, (s.waiter n).granted = true ->
    (s'.waiter n).granted = true
  stage : forall n, s'.stage n = s.stage n ∨
    s'.stage n = Stage.granted ∧ (s'.waiter n).granted = true
  log : forall {e}, e ∈ s.log -> e ∈ s'.log
  new : forall {e}, e ∈ s'.log -> e ∈ s.log ∨ exists n, e = Entry.granted n

theorem Grants.refl (s : State value error) (ws : List Nat) :
    Grants s { s with waiters := ws } where
  probe := rfl
  timers := rfl
  next := rfl
  cancelled _ := rfl
  released _ := rfl
  granted h := Or.inl h
  kept h := h
  stage _ := Or.inl rfl
  log h := h
  new h := Or.inl h

theorem Grants.acquired (h : Grants s s') {n : Nat} :
    Acquired s' n <-> Acquired s n := by
  constructor
  · intro hn
    cases h.new hn with
    | inl hold => exact hold
    | inr hnew =>
        obtain ⟨m, hm⟩ := hnew
        cases hm
  · exact h.log

theorem Grants.trans {s'' : State value error} (h : Grants s s')
    (h' : Grants s' s'') : Grants s s'' where
  probe := h'.probe.trans h.probe
  timers := h'.timers.trans h.timers
  next := h'.next.trans h.next
  cancelled n := (h'.cancelled n).trans (h.cancelled n)
  released n := (h'.released n).trans (h.released n)
  granted := by
    intro n hn
    cases h'.granted hn with
    | inl hold => exact h.granted hold
    | inr hnew =>
        rw [h.acquired, h.cancelled n] at hnew
        exact Or.inr hnew
  kept hn := h'.kept (h.kept hn)
  stage n := by
    cases h'.stage n with
    | inl hsame =>
        cases h.stage n with
        | inl hold => exact Or.inl (hsame.trans hold)
        | inr hnew => exact Or.inr ⟨hsame.trans hnew.1, h'.kept hnew.2⟩
    | inr hnew => exact Or.inr hnew
  log he := h'.log (h.log he)
  new := by
    intro e he
    cases h'.new he with
    | inl hold => exact h.new hold
    | inr hnew => exact Or.inr hnew

theorem Probes.grants {pending : Option Nat} (hp : Probes pending s)
    (h : Grants s s') : Probes pending s' := by
  have hlog : forall {e}, (forall n, e ≠ Entry.granted n) -> e ∈ s'.log ->
      e ∈ s.log := by
    intro e hne he
    cases h.new he with
    | inl hold => exact hold
    | inr hnew =>
        obtain ⟨n, hn⟩ := hnew
        exact absurd hn (hne n)
  intro n
  have hn := hp n
  constructor
  · intro ht
    rw [h.timers] at ht
    exact h.acquired.mpr (hn.timers ht)
  · intro hg
    rw [h.acquired]
    cases h.granted hg with
    | inl hold => exact hn.leased hold
    | inr hnew => exact hnew.1
  · rw [h.cancelled n, h.acquired]
    exact hn.given_up
  · intro o ho
    rw [h.next, h.probe, h.acquired]
    exact hn.reported (hlog nofun ho)
  · rw [h.probe, hn.started]
    exact ⟨h.log, hlog nofun⟩
  · intro hr
    rw [h.probe] at hr ⊢
    rw [h.cancelled n]
    exact hn.returned hr
  · intro hstage
    cases h.stage n with
    | inl hsame => exact h.kept (hn.granting (hsame ▸ hstage))
    | inr hnew => exact hnew.2
  · intro hstage
    cases h.stage n with
    | inl hsame =>
        rw [hsame] at hstage
        rw [h.probe]
        obtain ⟨hs, hg⟩ := hn.running hstage
        exact ⟨hs, h.kept hg⟩
    | inr hnew =>
        rw [hnew.1] at hstage
        cases hstage with
        | inl hne => cases hne
        | inr hne => cases hne
  · intro hne hc hg
    rw [h.cancelled n] at hc
    rw [h.released n]
    cases h.granted hg with
    | inl hold => exact hn.given hne hc hold
    | inr hnew =>
        rw [hnew.2] at hc
        cases hc
  · intro res hne hs
    rw [h.released n]
    exact hn.settled hne (hlog nofun hs)

section Grant

variable {ws : List Nat}

theorem Base.setWaiters (h : Base capacity ws s) (us : List Nat) :
    Base capacity ws { s with waiters := us } :=
  ⟨h.bound, h.held, h.sorted, h.waiting, h.numbered, h.granted, h.cancelled,
    h.released, h.log⟩

theorem Base.unreleased (h : Base capacity ws s)
    (hn : (s.waiter n).granted = false) : (s.waiter n).released = false := by
  apply Bool.eq_false_iff.mpr
  intro hreleased
  obtain ⟨before, after, hlog⟩ :=
    List.append_of_mem (h.released.mp hreleased)
  have hgranted : Entry.granted n ∈ s.log := by
    rw [hlog]
    exact List.mem_append_left _ (h.log _ _ _ hlog).1
  rw [h.granted.mpr hgranted] at hn
  cases hn

theorem grant_waiter (m : Nat) : (grant n s).waiter m =
    if m = n then { s.waiter n with granted := true } else s.waiter m := by
  simp [grant, Function.update_apply]

theorem grant_stage (m : Nat) : (grant n s).stage m =
    if m = n then Stage.granted else s.stage m := by
  simp [grant, Function.update_apply]

theorem grant_log : (grant n s).log = s.log ++ [Entry.granted n] := rfl

theorem mem_grant {e : Entry value error} : e ∈ (grant n s).log <->
    e ∈ s.log ∨ e = Entry.granted n := by
  simp [grant]

theorem grant_acquired {m : Nat} : Acquired (grant n s) m <-> Acquired s m := by
  simp [Acquired, mem_grant]

theorem grant_grants (h : Base capacity ws s) (hn : n ∈ ws) :
    Grants s (grant n s) := by
  obtain ⟨hacquired, _, hcancelled⟩ := h.waiting.mp hn
  constructor
  · rfl
  · rfl
  · rfl
  · intro m
    rw [grant_waiter]
    split
    · rename_i hm
      rw [hm]
    · rfl
  · intro m
    rw [grant_waiter]
    split
    · rename_i hm
      rw [hm]
    · rfl
  · intro m hm
    rw [grant_waiter] at hm
    split at hm
    · rename_i hmn
      rw [hmn]
      exact Or.inr ⟨hacquired, hcancelled⟩
    · exact Or.inl hm
  · intro m hm
    rw [grant_waiter]
    split
    · rfl
    · exact hm
  · intro m
    rw [grant_waiter, grant_stage]
    split
    · exact Or.inr ⟨rfl, rfl⟩
    · exact Or.inl rfl
  · exact fun he => mem_grant.mpr (Or.inl he)
  · intro e he
    exact (mem_grant.mp he).imp id fun h => ⟨n, h⟩

/-- Who arrived earlier has left the queue already. -/
theorem Base.good_grant (h : Base capacity (n :: ws) s) :
    Good s.log (Entry.granted n) := by
  obtain ⟨_, hgranted, hcancelled⟩ := h.waiting.mp List.mem_cons_self
  refine ⟨?_, ?_, ?_⟩
  · intro hlog
    rw [h.granted.mpr hlog] at hgranted
    cases hgranted
  · intro hlog
    rw [h.cancelled.mpr hlog] at hcancelled
    cases hcancelled
  · intro m hm hacquired
    rw [← h.granted, ← h.cancelled]
    cases hg : (s.waiter m).granted with
    | true => exact Or.inl rfl
    | false =>
        cases hc : (s.waiter m).cancelled with
        | true => exact Or.inr rfl
        | false =>
            have hmem := h.waiting.mpr ⟨hacquired, hg, hc⟩
            cases List.mem_cons.mp hmem with
            | inl heq => omega
            | inr hrest =>
                have hlt := (List.pairwise_cons.mp h.sorted).1 m hrest
                omega

theorem Base.grant (h : Base capacity (n :: ws) s)
    (hroom : s.active < capacity) : Base capacity ws (grant n s) := by
  obtain ⟨hacquired, hgranted, hcancelled⟩ := h.waiting.mp List.mem_cons_self
  obtain ⟨hfirst, hsorted⟩ := List.pairwise_cons.mp h.sorted
  have hnotin : n ∉ ws := fun hm => Nat.lt_irrefl n (hfirst n hm)
  constructor
  · show s.active + 1 ≤ capacity
    omega
  · obtain ⟨held, hnodup, hmem, hactive⟩ := h.held
    refine ⟨n :: held, ?_, ?_, ?_⟩
    · apply List.nodup_cons.mpr
      refine ⟨fun hn => ?_, hnodup⟩
      have hout := ((hmem n).mp hn).1
      rw [hgranted] at hout
      cases hout
    · intro m
      rw [Outstanding, grant_waiter, List.mem_cons, hmem m]
      split
      · rename_i hm
        simp [hm, h.unreleased hgranted]
      · rename_i hm
        exact ⟨fun hor => hor.resolve_left hm, Or.inr⟩
    · show s.active + 1 = _
      rw [hactive]
      simp
  · exact hsorted
  · intro m
    rw [grant_acquired, grant_waiter]
    split
    · rename_i hm
      simp [hm, hnotin]
    · rename_i hm
      rw [← h.waiting, List.mem_cons]
      exact ⟨Or.inr, fun hor => hor.resolve_left hm⟩
  · intro m hm
    exact h.numbered (grant_acquired.mp hm)
  · intro m
    rw [grant_waiter, mem_grant]
    split
    · rename_i hm
      simp [hm]
    · rename_i hm
      simp [h.granted, hm]
  · intro m
    rw [grant_waiter, mem_grant]
    split
    · rename_i hm
      simp [hm, h.cancelled]
    · simp [h.cancelled]
  · intro m
    rw [grant_waiter, mem_grant]
    split
    · rename_i hm
      simp [hm, h.released]
    · simp [h.released]
  · rw [grant_log]
    exact everyEntry_snoc.mpr ⟨h.log, h.good_grant⟩

theorem drainFrom_spec (h : Base capacity ws s) :
    Base capacity (drainFrom capacity ws s).waiters
        (drainFrom capacity ws s) ∧
      Grants s (drainFrom capacity ws s) ∧
      Full capacity (drainFrom capacity ws s) := by
  induction ws generalizing s with
  | nil =>
      exact ⟨h.setWaiters [], Grants.refl s [], fun hne => absurd rfl hne⟩
  | cons n ws ih =>
      obtain ⟨_, _, hcancelled⟩ := h.waiting.mp List.mem_cons_self
      rw [drainFrom]
      by_cases hroom : s.active < capacity
      · rw [if_pos hroom, if_neg (by rw [hcancelled]; exact Bool.false_ne_true)]
        obtain ⟨hbase, hgrants, hfull⟩ := ih (h.grant hroom)
        exact ⟨hbase, (grant_grants h List.mem_cons_self).trans hgrants, hfull⟩
      · rw [if_neg hroom]
        have hbound := h.bound
        refine ⟨h.setWaiters _, Grants.refl s _, fun _ => ?_⟩
        show s.active = capacity
        omega

end Grant

/-!
## The step of one probe
-/

def Entry.number : Entry value error -> Nat
  | Entry.acquired n => n
  | Entry.cancelled n => n
  | Entry.granted n => n
  | Entry.released n => n
  | Entry.began n => n
  | Entry.invoked n => n
  | Entry.settled n _ => n
  | Entry.reported n _ => n

structure Only (n : Nat) (s s' : State value error) : Prop where
  waiter : forall {m}, m ≠ n -> s'.waiter m = s.waiter m
  probe : forall {m}, m ≠ n -> s'.probe m = s.probe m
  stage : forall {m}, m ≠ n -> s'.stage m = s.stage m
  timers : forall {m}, m ≠ n -> m ∈ s'.timers -> m ∈ s.timers
  next : s.next ≤ s'.next
  log : forall {e}, Entry.number e ≠ n -> (e ∈ s'.log <-> e ∈ s.log)

theorem Only.snoc {e : Entry value error} (he : Entry.number e = n)
    (hlog : s'.log = s.log ++ [e])
    (hwaiter : forall {m}, m ≠ n -> s'.waiter m = s.waiter m)
    (hprobe : forall {m}, m ≠ n -> s'.probe m = s.probe m)
    (hstage : forall {m}, m ≠ n -> s'.stage m = s.stage m)
    (htimers : forall {m}, m ≠ n -> m ∈ s'.timers -> m ∈ s.timers)
    (hnext : s.next ≤ s'.next) : Only n s s' := by
  refine ⟨hwaiter, hprobe, hstage, htimers, hnext, ?_⟩
  intro d hd
  have hne : d ≠ e := fun heq => hd (heq ▸ he)
  rw [hlog]
  simp [hne]

theorem Probes.only {pending pending' : Option Nat} (hp : Probes pending s)
    (h : Only n s s') (hpending : forall m, m ≠ n -> pending ≠ some m)
    (hn : ProbeOk (pending' = some n) s' n) : Probes pending' s' := by
  intro m
  by_cases hm : m = n
  · rw [hm]
    exact hn
  · have hold := hp m
    have hnone := hpending m hm
    have hacquired : Acquired s' m <-> Acquired s m :=
      h.log (e := Entry.acquired m) hm
    constructor
    · exact fun ht => hacquired.mpr (hold.timers (h.timers hm ht))
    · rw [h.waiter hm]
      exact fun hg => hacquired.mpr (hold.leased hg)
    · rw [h.waiter hm]
      exact fun hc => hacquired.mpr (hold.given_up hc)
    · intro o ho
      rw [h.probe hm, hacquired]
      obtain ⟨hlt, hr⟩ := hold.reported
        ((h.log (e := Entry.reported m o) hm).mp ho)
      exact ⟨Nat.lt_of_lt_of_le hlt h.next, hr⟩
    · rw [h.probe hm, hold.started]
      exact (h.log (e := Entry.began m) hm).symm
    · rw [h.probe hm, h.waiter hm]
      exact hold.returned
    · rw [h.stage hm, h.waiter hm]
      exact hold.granting
    · rw [h.stage hm, h.probe hm, h.waiter hm]
      exact hold.running
    · rw [h.waiter hm]
      exact fun _ => hold.given hnone
    · intro res _ hs
      rw [h.waiter hm]
      exact hold.settled hnone
        ((h.log (e := Entry.settled m res) hm).mp hs)

def Aside : Entry value error -> Prop
  | Entry.began _ => True
  | Entry.invoked _ => True
  | Entry.settled _ _ => True
  | Entry.reported _ _ => True
  | _ => False

theorem Base.aside {ws : List Nat} (h : Base capacity ws s)
    {e : Entry value error} (he : Aside e) (hactive : s'.active = s.active)
    (hwaiter : s'.waiter = s.waiter) (hnext : s.next ≤ s'.next)
    (hlog : s'.log = s.log ++ [e]) (hgood : Good s.log e) :
    Base capacity ws s' := by
  have hmem : forall {d : Entry value error}, ¬ Aside d ->
      (d ∈ s'.log <-> d ∈ s.log) := by
    intro d hd
    rw [hlog, List.mem_append, List.mem_singleton]
    exact ⟨fun hor => hor.resolve_right fun heq => hd (heq ▸ he), Or.inl⟩
  constructor
  · rw [hactive]
    exact h.bound
  · simp only [Outstanding, hwaiter, hactive]
    exact h.held
  · exact h.sorted
  · intro m
    rw [hwaiter, Acquired, hmem id]
    exact h.waiting
  · intro m hm
    exact Nat.lt_of_lt_of_le (h.numbered ((hmem id).mp hm)) hnext
  · intro m
    rw [hwaiter, hmem id]
    exact h.granted
  · intro m
    rw [hwaiter, hmem id]
    exact h.cancelled
  · intro m
    rw [hwaiter, hmem id]
    exact h.released
  · rw [hlog]
    exact everyEntry_snoc.mpr ⟨h.log, hgood⟩

/-!
## Giving back
-/

section Release

variable {ws : List Nat}

def freed (n : Nat) (s : State value error) : State value error :=
  (({ s with active := s.active - 1 }).setWaiter n
    { s.waiter n with released := true }).record (Entry.released n)

theorem freed_waiter (m : Nat) : (freed n s).waiter m =
    if m = n then { s.waiter n with released := true } else s.waiter m := by
  simp [freed, Function.update_apply]

theorem mem_freed {e : Entry value error} : e ∈ (freed n s).log <->
    e ∈ s.log ∨ e = Entry.released n := by
  simp [freed]

theorem freed_acquired {m : Nat} : Acquired (freed n s) m <-> Acquired s m := by
  simp [Acquired, mem_freed]

theorem freed_only : Only n s (freed n s) :=
  Only.snoc (e := Entry.released n) rfl rfl
    (fun hm => by rw [freed_waiter, if_neg hm]) (fun _ => rfl) (fun _ => rfl)
    (fun _ h => h) (Nat.le_refl _)

theorem Base.freed (h : Base capacity ws s) (hout : Outstanding s n) :
    Base capacity ws (freed n s) := by
  have hgranted := hout.1
  have hbound := h.bound
  constructor
  · show s.active - 1 ≤ capacity
    omega
  · obtain ⟨held, hnodup, hmem, hactive⟩ := h.held
    have hn := (hmem n).mpr hout
    refine ⟨held.erase n, hnodup.erase n, ?_, ?_⟩
    · intro m
      rw [hnodup.mem_erase_iff, hmem m, Outstanding, Outstanding, freed_waiter]
      split
      · rename_i hm
        simp [hm]
      · rename_i hm
        simp [hm]
    · have hpos : 0 < held.length := List.length_pos_of_mem hn
      show s.active - 1 = _
      rw [hactive, List.length_erase_of_mem hn]
      omega
  · exact h.sorted
  · intro m
    rw [freed_acquired, freed_waiter, h.waiting]
    split
    · rename_i hm
      simp [hm, hgranted]
    · exact Iff.rfl
  · intro m hm
    exact h.numbered (freed_acquired.mp hm)
  · intro m
    rw [freed_waiter, mem_freed]
    split
    · rename_i hm
      simp [hm, h.granted]
    · simp [h.granted]
  · intro m
    rw [freed_waiter, mem_freed]
    split
    · rename_i hm
      simp [hm, h.cancelled]
    · simp [h.cancelled]
  · intro m
    rw [freed_waiter, mem_freed]
    split
    · rename_i hm
      simp [hm]
    · rename_i hm
      simp [h.released, hm]
  · have hnew : Entry.released n ∉ s.log := by
      intro hmem
      have hreleased := hout.2
      rw [h.released.mpr hmem] at hreleased
      cases hreleased
    exact everyEntry_snoc.mpr ⟨h.log, h.granted.mp hgranted, hnew⟩

theorem Probes.freed (hp : Probes (some n) s) : Probes none (freed n s) := by
  have hn := hp n
  apply hp.only freed_only (fun m hm heq => hm (Option.some.inj heq).symm)
  constructor
  · exact fun ht => freed_acquired.mpr (hn.timers ht)
  · rw [freed_waiter, if_pos rfl]
    exact fun hg => freed_acquired.mpr (hn.leased hg)
  · rw [freed_waiter, if_pos rfl]
    exact fun hc => freed_acquired.mpr (hn.given_up hc)
  · intro o ho
    rw [freed_acquired]
    exact hn.reported (by simpa [mem_freed] using ho)
  · rw [mem_freed, hn.started.symm]
    show (s.probe n).started = true <-> _
    simp
  · rw [freed_waiter, if_pos rfl]
    exact hn.returned
  · rw [freed_waiter, if_pos rfl]
    exact hn.granting
  · rw [freed_waiter, if_pos rfl]
    exact hn.running
  · rw [freed_waiter, if_pos rfl]
    exact fun _ _ _ => rfl
  · intro res _ _
    rw [freed_waiter, if_pos rfl]

theorem release_spec (hb : Base capacity s.waiters s)
    (hp : Probes (some n) s) (hf : Full capacity s)
    (hn : (s.waiter n).granted = true) :
    Inv capacity (release capacity n s) ∧
      (release capacity n s).probe = s.probe ∧
      (forall m, ((release capacity n s).waiter m).cancelled =
        (s.waiter m).cancelled) ∧
      forall {e}, e ∈ s.log -> e ∈ (release capacity n s).log := by
  rw [release]
  cases hreleased : (s.waiter n).released with
  | true =>
      rw [if_pos rfl]
      refine ⟨⟨hb, ?_, hf⟩, rfl, fun _ => rfl, id⟩
      apply hp.only ⟨fun _ => rfl, fun _ => rfl, fun _ => rfl, fun _ h => h,
        Nat.le_refl _, fun _ => Iff.rfl⟩
        fun m hm heq => hm (Option.some.inj heq).symm
      have hok := hp n
      exact ⟨hok.timers, hok.leased, hok.given_up, hok.reported, hok.started, hok.returned,
        hok.granting, hok.running, fun _ _ _ => hreleased,
        fun _ _ => hreleased⟩
  | false =>
      rw [if_neg Bool.false_ne_true]
      obtain ⟨hbase, hgrants, hfull⟩ :=
        drainFrom_spec (hb.freed ⟨hn, hreleased⟩)
      refine ⟨⟨hbase, hp.freed.grants hgrants, hfull⟩, hgrants.probe, ?_,
        fun he => hgrants.log (mem_freed.mpr (Or.inl he))⟩
      intro m
      apply (hgrants.cancelled m).trans
      rw [freed_waiter]
      split
      · rename_i hm
        rw [hm]
      · rfl

end Release

/-!
## The steps
-/

theorem Probes.weaken (hp : Probes none s) (n : Nat) : Probes (some n) s := by
  intro m
  have hok := hp m
  exact ⟨hok.timers, hok.leased, hok.given_up, hok.reported, hok.started, hok.returned,
    hok.granting, hok.running, fun _ => hok.given nofun,
    fun _ => hok.settled nofun⟩

theorem Inv.finish (h : Inv capacity s) (hn : Acquired s n)
    (hopen : (s.probe n).started = true ∨ (s.waiter n).cancelled = true)
    (outcome : Outcome value error) :
    Inv capacity (finish n outcome s) := by
  have hok := h.probes n
  rw [ProbeGate.finish]
  cases hreturned : (s.probe n).returned with
  | true =>
      rw [if_pos rfl]
      exact h
  | false =>
      rw [if_neg Bool.false_ne_true]
      have hnew : forall o, Entry.reported n o ∉ s.log := by
        intro o ho
        rw [(hok.reported ho).2 hn] at hreturned
        cases hreturned
      have hlt := h.numbered hn
      constructor
      · exact h.toBase.aside (e := Entry.reported n outcome) trivial rfl rfl
          (Nat.le_refl _) rfl hnew
      · apply h.probes.only (n := n) _ nofun
        · constructor
          · simpa [Acquired] using hok.timers
          · simpa [Acquired] using hok.leased
          · simpa [Acquired] using hok.given_up
          · intro o _
            exact ⟨hlt, fun _ => by simp⟩
          · simpa using hok.started
          · intro _
            simpa using hopen
          · simpa using hok.granting
          · simpa using hok.running
          · simpa using hok.given
          · exact fun _ hs => hok.settled nofun (by simpa using hs)
        · exact Only.snoc (e := Entry.reported n outcome) rfl rfl
            (fun _ => rfl) (fun hm => by simp [hm]) (fun _ => rfl)
            (fun _ h => h) (Nat.le_refl _)
      · exact h.full

def marked (n : Nat) (s : State value error) : State value error :=
  (s.setWaiter n { s.waiter n with cancelled := true }).record
    (Entry.cancelled n)

theorem marked_waiter (m : Nat) : (marked n s).waiter m =
    if m = n then { s.waiter n with cancelled := true } else s.waiter m := by
  simp [marked, Function.update_apply]

theorem mem_marked {e : Entry value error} : e ∈ (marked n s).log <->
    e ∈ s.log ∨ e = Entry.cancelled n := by
  simp [marked]

theorem marked_acquired {m : Nat} :
    Acquired (marked n s) m <-> Acquired s m := by
  simp [Acquired, mem_marked]

theorem Base.marked {ws : List Nat} (h : Base capacity ws s) :
    Base capacity (ws.erase n) (marked n s) := by
  have hnodup : ws.Nodup := h.sorted.imp fun hlt => Nat.ne_of_lt hlt
  constructor
  · exact h.bound
  · obtain ⟨held, hheld, hmem, hactive⟩ := h.held
    refine ⟨held, hheld, ?_, hactive⟩
    intro m
    rw [hmem m, Outstanding, Outstanding, marked_waiter]
    split
    · rename_i hm
      simp [hm]
    · exact Iff.rfl
  · exact h.sorted.sublist List.erase_sublist
  · intro m
    rw [hnodup.mem_erase_iff, h.waiting, marked_acquired, marked_waiter]
    split
    · rename_i hm
      simp [hm]
    · rename_i hm
      simp [hm]
  · intro m hm
    exact h.numbered (marked_acquired.mp hm)
  · intro m
    rw [marked_waiter, mem_marked]
    split
    · rename_i hm
      simp [hm, h.granted]
    · simp [h.granted]
  · intro m
    rw [marked_waiter, mem_marked]
    split
    · rename_i hm
      simp [hm]
    · rename_i hm
      simp [h.cancelled, hm]
  · intro m
    rw [marked_waiter, mem_marked]
    split
    · rename_i hm
      simp [hm, h.released]
    · simp [h.released]
  · exact everyEntry_snoc.mpr ⟨h.log, trivial⟩

theorem Probes.marked {pending : Option Nat} (hp : Probes none s)
    (hacquired : Acquired s n)
    (hn : pending = some n ∨ (s.waiter n).granted = false) :
    Probes pending (marked n s) := by
  have hok := hp n
  apply hp.only (n := n) _ nofun
  · constructor
    · exact fun ht => marked_acquired.mpr (hok.timers ht)
    · rw [marked_waiter, if_pos rfl]
      exact fun hg => marked_acquired.mpr (hok.leased hg)
    · exact fun _ => marked_acquired.mpr hacquired
    · intro o ho
      rw [marked_acquired]
      exact hok.reported (by simpa [mem_marked] using ho)
    · rw [mem_marked, hok.started.symm]
      show (s.probe n).started = true <-> _
      simp
    · rw [marked_waiter, if_pos rfl]
      exact fun _ => Or.inr rfl
    · rw [marked_waiter, if_pos rfl]
      exact hok.granting
    · rw [marked_waiter, if_pos rfl]
      exact hok.running
    · rw [marked_waiter, if_pos rfl]
      intro hne _ hg
      have hfalse := hn.resolve_left hne
      rw [hfalse] at hg
      cases hg
    · intro res _ hs
      rw [marked_waiter, if_pos rfl]
      exact hok.settled nofun (by simpa [mem_marked] using hs)
  · exact Only.snoc (e := Entry.cancelled n) rfl rfl
      (fun hm => by rw [marked_waiter, if_neg hm]) (fun _ => rfl)
      (fun _ => rfl) (fun _ h => h) (Nat.le_refl _)

theorem cancel_eq (h : (s.waiter n).cancelled = false) :
    cancel capacity n s =
      if (s.waiter n).granted = true then release capacity n (marked n s)
      else { marked n s with waiters := s.waiters.erase n } := by
  have hsame : ((marked n s).waiter n).granted = (s.waiter n).granted := by
    rw [marked_waiter, if_pos rfl]
  rw [cancel, if_neg (by rw [h]; exact Bool.false_ne_true), ← hsame]
  rfl

theorem Probes.setWaiters {pending : Option Nat} (h : Probes pending s)
    (us : List Nat) : Probes pending { s with waiters := us } := by
  intro m
  have hok := h m
  exact ⟨hok.timers, hok.leased, hok.given_up, hok.reported, hok.started, hok.returned,
    hok.granting, hok.running, hok.given, hok.settled⟩

theorem Inv.cancel (h : Inv capacity s) (hn : Acquired s n) :
    Inv capacity (cancel capacity n s) ∧
      (cancel capacity n s).probe = s.probe ∧
      ((cancel capacity n s).waiter n).cancelled = true ∧
      forall {e}, e ∈ s.log -> e ∈ (cancel capacity n s).log := by
  cases hcancelled : (s.waiter n).cancelled with
  | true =>
      rw [ProbeGate.cancel, if_pos hcancelled]
      exact ⟨h, rfl, hcancelled, id⟩
  | false =>
      rw [cancel_eq hcancelled]
      have hbase := h.toBase.marked (n := n)
      have hmark : ((marked n s).waiter n).cancelled = true := by
        rw [marked_waiter, if_pos rfl]
      cases hgranted : (s.waiter n).granted with
      | true =>
          -- a waiter with a permit is not in the queue
          have hnotin : n ∉ s.waiters := fun hm => by
            rw [(h.waiting.mp hm).2.1] at hgranted
            cases hgranted
          rw [List.erase_of_not_mem hnotin] at hbase
          have hsame : ((marked n s).waiter n).granted = true := by
            rw [marked_waiter, if_pos rfl]
            exact hgranted
          obtain ⟨hinv, hprobe, hkeep, hlog⟩ := release_spec hbase
            (h.probes.marked hn (Or.inl rfl)) h.full hsame
          rw [if_pos rfl]
          exact ⟨hinv, hprobe, (hkeep n).trans hmark,
            fun he => hlog (mem_marked.mpr (Or.inl he))⟩
      | false =>
          rw [if_neg Bool.false_ne_true]
          refine ⟨⟨hbase.setWaiters _,
            (h.probes.marked hn (Or.inr hgranted)).setWaiters _, ?_⟩, rfl, hmark,
            fun he => mem_marked.mpr (Or.inl he)⟩
          intro hne
          apply h.full
          intro hnil
          apply hne
          show s.waiters.erase n = []
          rw [hnil]
          rfl

theorem Inv.setTimer (h : Inv capacity s) (n : Nat) (timer : Bool) :
    Inv capacity (s.setProbe n { s.probe n with timer := timer }) := by
  have hok := h.probes n
  refine ⟨⟨h.bound, h.held, h.sorted, h.waiting, h.numbered, h.granted,
    h.cancelled, h.released, h.log⟩, ?_, h.full⟩
  apply h.probes.only (n := n) _ nofun
  · exact ⟨hok.timers, hok.leased, hok.given_up,
      fun ho => by simpa [Acquired] using hok.reported ho,
      by simpa using hok.started, by simpa using hok.returned,
      hok.granting, by simpa using hok.running, hok.given, hok.settled⟩
  · exact ⟨fun _ => rfl, fun hm => by simp [hm], fun _ => rfl, fun _ h => h,
      Nat.le_refl _, fun _ => Iff.rfl⟩

theorem Inv.fire (h : Inv capacity s) (hn : n ∈ s.timers) :
    Inv capacity (fire capacity n s) := by
  have hinv := h.setTimer n false
  have hacquired : Acquired s n := (h.probes n).timers hn
  rw [ProbeGate.fire]
  have hsame : ((s.setProbe n { s.probe n with timer := false }).probe n).started =
      (s.probe n).started := by
    simp
  cases hstarted : (s.probe n).started with
  | true =>
      rw [hstarted] at hsame
      rw [if_pos hsame]
      exact hinv.finish hacquired (Or.inl hsame) _
  | false =>
      rw [hstarted] at hsame
      rw [if_neg (by rw [hsame]; exact Bool.false_ne_true)]
      obtain ⟨hcancel, _, hcancelled, hlog⟩ := hinv.cancel hacquired
      exact hcancel.finish (hlog hacquired) (Or.inr hcancelled) _

theorem Inv.react (h : Inv capacity s) (hn : s.stage n = Stage.granted) :
    Inv capacity (react capacity n s) := by
  have hok := h.probes n
  have hgranted := hok.granting hn
  rw [ProbeGate.react]
  cases hreturned : (s.probe n).returned with
  | true =>
      rw [if_pos rfl]
      have hmid : Probes (some n) (s.setStage n Stage.done) := by
        apply (h.probes.weaken n).only (n := n) _
          (fun m hm heq => hm (Option.some.inj heq).symm)
        · exact ⟨hok.timers, hok.leased, hok.given_up, hok.reported,
            hok.started, hok.returned, by simp, by simp,
            fun hne => absurd rfl hne, fun hne => absurd rfl hne⟩
        · exact ⟨fun _ => rfl, fun _ => rfl, fun hm => by simp [hm],
            fun _ h => h, Nat.le_refl _, fun _ => Iff.rfl⟩
      have hbase : Base capacity s.waiters (s.setStage n Stage.done) :=
        ⟨h.bound, h.held, h.sorted, h.waiting, h.numbered, h.granted,
          h.cancelled, h.released, h.log⟩
      exact (release_spec hbase hmid h.full hgranted).1
  | false =>
      rw [if_neg Bool.false_ne_true]
      have hnone : forall o, Entry.reported n o ∉ s.log := by
        intro o ho
        rw [(hok.reported ho).2 (hok.leased hgranted)] at hreturned
        cases hreturned
      constructor
      · exact h.toBase.aside (e := Entry.began n) trivial rfl rfl
          (Nat.le_refl _) rfl ⟨h.granted.mp hgranted, hnone⟩
      · apply h.probes.only (n := n) _ nofun
        · constructor
          · simpa [Acquired] using hok.timers
          · simpa [Acquired] using hok.leased
          · simpa [Acquired] using hok.given_up
          · intro o ho
            exact absurd (by simpa using ho) (hnone o)
          · simp
          · intro _
            simp
          · intro _
            exact hgranted
          · intro _
            exact ⟨by simp, hgranted⟩
          · exact hok.given
          · exact fun _ hs => hok.settled nofun (by simpa using hs)
        · exact Only.snoc (e := Entry.began n) rfl rfl (fun _ => rfl)
            (fun hm => by simp [hm]) (fun hm => by simp [hm]) (fun _ h => h)
            (Nat.le_refl _)
      · exact h.full

theorem Inv.invoke (h : Inv capacity s) (hn : s.stage n = Stage.starting) :
    Inv capacity (invoke n s) := by
  have hok := h.probes n
  obtain ⟨hstarted, hgranted⟩ := hok.running (Or.inl hn)
  constructor
  · exact h.toBase.aside (e := Entry.invoked n) trivial rfl rfl (Nat.le_refl _)
      rfl (hok.started.mp hstarted)
  · apply h.probes.only (n := n) _ nofun
    · constructor
      · simpa [ProbeGate.invoke, Acquired] using hok.timers
      · simpa [ProbeGate.invoke, Acquired] using hok.leased
      · simpa [ProbeGate.invoke, Acquired] using hok.given_up
      · intro o ho
        simpa [ProbeGate.invoke, Acquired] using hok.reported
          (by simpa [ProbeGate.invoke] using ho)
      · simpa [ProbeGate.invoke] using hok.started
      · exact hok.returned
      · intro _
        exact hgranted
      · intro _
        exact ⟨hstarted, hgranted⟩
      · exact hok.given
      · exact fun _ hs => hok.settled nofun
          (by simpa [ProbeGate.invoke] using hs)
    · exact Only.snoc (e := Entry.invoked n) rfl rfl (fun _ => rfl)
        (fun _ => rfl) (fun hm => by simp [ProbeGate.invoke, hm])
        (fun _ h => h) (Nat.le_refl _)
  · exact h.full

theorem Inv.settle (h : Inv capacity s) (hn : s.stage n = Stage.running)
    (res : Except error value) : Inv capacity (settle capacity n res s) := by
  have hok := h.probes n
  obtain ⟨hstarted, hgranted⟩ := hok.running (Or.inr hn)
  have hbase : Base capacity s.waiters
      ((s.setStage n Stage.done).record (Entry.settled n res)) :=
    h.toBase.aside (e := Entry.settled n res) trivial rfl rfl (Nat.le_refl _)
      rfl trivial
  have hmid : Probes (some n)
      ((s.setStage n Stage.done).record (Entry.settled n res)) := by
    apply h.probes.only (n := n) _ nofun
    · constructor
      · simpa [Acquired] using hok.timers
      · simpa [Acquired] using hok.leased
      · simpa [Acquired] using hok.given_up
      · intro o ho
        simpa [Acquired] using hok.reported (by simpa using ho)
      · simpa using hok.started
      · exact hok.returned
      · simp
      · simp
      · exact fun hne => absurd rfl hne
      · exact fun hne => absurd rfl hne
    · exact Only.snoc (e := Entry.settled n res) rfl rfl (fun _ => rfl)
        (fun _ => rfl) (fun hm => by simp [hm]) (fun _ h => h) (Nat.le_refl _)
  obtain ⟨hinv, hprobe, _, hlog⟩ := release_spec hbase hmid h.full hgranted
  apply hinv.finish (hlog (List.mem_append_left _ (hok.leased hgranted)))
  rw [hprobe]
  exact Or.inl hstarted

theorem Inv.fresh (h : Inv capacity s) : ¬ Acquired s s.next :=
  fun hn => Nat.lt_irrefl _ (h.numbered hn)

def queued (s : State value error) : State value error :=
  ({ (({ s with next := s.next + 1, timers := s.next :: s.timers }).setProbe
      s.next { s.probe s.next with timer := true }) with
    waiters := s.waiters ++ [s.next] }).record (Entry.acquired s.next)

theorem mem_queued {e : Entry value error} : e ∈ (queued s).log <->
    e ∈ s.log ∨ e = Entry.acquired s.next := by
  simp [queued]

theorem Inv.base_queued (h : Inv capacity s) :
    Base capacity (s.waiters ++ [s.next]) (queued s) := by
  have hok := h.probes s.next
  have hgranted : (s.waiter s.next).granted = false :=
    Bool.eq_false_iff.mpr fun hg => h.fresh (hok.leased hg)
  have hcancelled : (s.waiter s.next).cancelled = false :=
    Bool.eq_false_iff.mpr fun hc => h.fresh (hok.given_up hc)
  have hcases : forall m, Acquired (queued s) m <->
      Acquired s m ∨ m = s.next := by
    intro m
    rw [Acquired, mem_queued]
    simp [Acquired]
  constructor
  · exact h.bound
  · exact h.held
  · rw [List.pairwise_append]
    refine ⟨h.sorted, List.pairwise_singleton _ _, ?_⟩
    intro m hm k hk
    rw [List.mem_singleton.mp hk]
    exact h.numbered (h.waiting.mp hm).1
  · intro m
    rw [List.mem_append, List.mem_singleton, h.waiting, hcases]
    constructor
    · intro hm
      cases hm with
      | inl hold => exact ⟨Or.inl hold.1, hold.2⟩
      | inr hnew =>
          rw [hnew]
          exact ⟨Or.inr rfl, hgranted, hcancelled⟩
    · intro hm
      cases hm.1 with
      | inl hold => exact Or.inl ⟨hold, hm.2⟩
      | inr hnew => exact Or.inr hnew
  · intro m hm
    cases (hcases m).mp hm with
    | inl hold => exact Nat.lt_succ_of_lt (h.numbered hold)
    | inr hnew =>
        rw [hnew]
        exact Nat.lt_succ_self _
  · intro m
    rw [mem_queued]
    simpa [queued] using h.granted
  · intro m
    rw [mem_queued]
    simpa [queued] using h.cancelled
  · intro m
    rw [mem_queued]
    simpa [queued] using h.released
  · exact everyEntry_snoc.mpr ⟨h.log, fun m hm => h.numbered hm⟩

theorem Inv.probes_queued (h : Inv capacity s) : Probes none (queued s) := by
  have hok := h.probes s.next
  have hacquired : Acquired (queued s) s.next := mem_queued.mpr (Or.inr rfl)
  have hunreported : forall o, Entry.reported s.next o ∉ s.log :=
    fun o ho => Nat.lt_irrefl _ (hok.reported ho).1
  apply h.probes.only (n := s.next) _ nofun
  · constructor
    · exact fun _ => hacquired
    · exact fun _ => hacquired
    · exact fun _ => hacquired
    · intro o ho
      exact absurd (by simpa [mem_queued] using ho) (hunreported o)
    · rw [mem_queued]
      simpa [queued] using hok.started
    · simpa [queued] using hok.returned
    · exact hok.granting
    · simpa [queued] using hok.running
    · exact hok.given
    · exact fun _ hs => hok.settled nofun (by simpa [mem_queued] using hs)
  · exact Only.snoc (e := Entry.acquired s.next) rfl rfl (fun _ => rfl)
      (fun hm => by simp [queued, hm]) (fun _ => rfl)
      (fun hm ht => (List.mem_cons.mp ht).resolve_left hm) (Nat.le_succ _)

theorem Inv.acquire (h : Inv capacity s) :
    Inv capacity (boundedProbe capacity false s) := by
  obtain ⟨hbase, hgrants, hfull⟩ := drainFrom_spec h.base_queued
  exact ⟨hbase, h.probes_queued.grants hgrants, hfull⟩

theorem Inv.probe (h : Inv capacity s) (threw : Bool) :
    Inv capacity (boundedProbe capacity threw s) := by
  cases threw with
  | false => exact h.acquire
  | true =>
      have hok := h.probes s.next
      have hnone : forall o, Entry.reported s.next o ∉ s.log :=
        fun o ho => Nat.lt_irrefl _ (hok.reported ho).1
      constructor
      · exact h.toBase.aside (e := Entry.reported s.next Outcome.timedOut)
          trivial rfl rfl (Nat.le_succ _) rfl hnone
      · apply h.probes.only (n := s.next) _ nofun
        · constructor
          · simpa [boundedProbe, Acquired] using hok.timers
          · simpa [boundedProbe, Acquired] using hok.leased
          · simpa [boundedProbe, Acquired] using hok.given_up
          · intro o _
            refine ⟨Nat.lt_succ_self _, fun hn => absurd ?_ h.fresh⟩
            simpa [boundedProbe, Acquired] using hn
          · simpa [boundedProbe] using hok.started
          · exact hok.returned
          · exact hok.granting
          · exact hok.running
          · exact hok.given
          · exact fun _ hs => hok.settled nofun
              (by simpa [boundedProbe] using hs)
        · exact Only.snoc (e := Entry.reported s.next Outcome.timedOut) rfl rfl
            (fun _ => rfl) (fun _ => rfl) (fun _ => rfl) (fun _ h => h)
            (Nat.le_succ _)
      · exact h.full

theorem Inv.step (h : Inv capacity s) (hstep : Step capacity s s') :
    Inv capacity s' := by
  cases hstep with
  | probe threw => exact h.probe threw
  | fire hn => exact h.fire hn
  | react hn => exact h.react hn
  | invoke hn => exact h.invoke hn
  | settle res hn => exact h.settle hn res

theorem Inv.initial : Inv capacity (State.initial : State value error) where
  bound := Int.natCast_nonneg capacity
  held := ⟨[], List.nodup_nil, fun n => by simp [Outstanding, State.initial],
    rfl⟩
  sorted := List.Pairwise.nil
  waiting := by simp [Acquired, State.initial]
  numbered := nofun
  granted := by simp [State.initial]
  cancelled := by simp [State.initial]
  released := by simp [State.initial]
  log := everyEntry_nil _
  probes := by
    intro n
    constructor <;> simp [State.initial]
  full := fun hne => absurd rfl hne

theorem Reachable.inv (h : Reachable capacity s) : Inv capacity s := by
  induction h with
  | refl => exact Inv.initial
  | tail _ hstep ih => exact ih.step hstep

/-!
## What a run keeps
-/

structure Conserved (capacity : Nat) (s : State value error) : Prop where
  /-- The permits that are out. -/
  active : s.active = ((Finset.range s.next).filter fun n =>
    (s.waiter n).granted = true ∧ (s.waiter n).released = false).card
  bound : s.active ≤ capacity
  full : s.waiters ≠ [] -> s.active = capacity
  /-- A probe is granted its permit once, after those that have arrived before
  it and have not been cancelled. -/
  order : forall before n after,
    s.log = before ++ Entry.granted n :: after ->
      Entry.granted n ∉ before ∧ Entry.cancelled n ∉ before ∧
        forall m, m < n -> Entry.acquired m ∈ before ->
          Entry.granted m ∈ before ∨ Entry.cancelled m ∈ before
  arrival : forall before n after,
    s.log = before ++ Entry.acquired n :: after ->
      forall m, Entry.acquired m ∈ before -> m < n
  once : forall before n after,
    s.log = before ++ Entry.released n :: after ->
      Entry.granted n ∈ before ∧ Entry.released n ∉ before
  settled : forall n res, Entry.settled n res ∈ s.log ->
    Entry.released n ∈ s.log
  /-- A probe that has returned and not begun has no permit. -/
  returned : forall n, (s.probe n).returned = true ->
    (s.probe n).started = false -> (s.waiter n).granted = true ->
      Entry.released n ∈ s.log
  /-- An operation is called only for a probe that has begun before it
  reported anything. -/
  starts : forall before n after,
    s.log = before ++ Entry.invoked n :: after -> Entry.began n ∈ before
  begins : forall before n after,
    s.log = before ++ Entry.began n :: after ->
      Entry.granted n ∈ before ∧ forall o, Entry.reported n o ∉ before
  outcome : forall before n o after,
    s.log = before ++ Entry.reported n o :: after ->
      forall o', Entry.reported n o' ∉ before

theorem Inv.active_eq (h : Inv capacity s) :
    s.active = ((Finset.range s.next).filter fun n =>
      (s.waiter n).granted = true ∧ (s.waiter n).released = false).card := by
  obtain ⟨held, hnodup, hmem, hactive⟩ := h.held
  have hset : ((Finset.range s.next).filter fun n =>
      (s.waiter n).granted = true ∧ (s.waiter n).released = false) =
      ⟨held, Multiset.coe_nodup.mpr hnodup⟩ := by
    ext n
    rw [Finset.mem_filter, Finset.mem_range, Finset.mem_mk, Multiset.mem_coe,
      hmem n]
    constructor
    · exact fun hn => hn.2
    · exact fun hn => ⟨h.numbered ((h.probes n).leased hn.1), hn⟩
  rw [hset, hactive]
  rfl

/-- In every run the permits that are out are those of the leases that have
been granted and not given back, and they are given back. -/
theorem permits_conserved (h : Reachable capacity s) : Conserved capacity s := by
  have hinv := h.inv
  constructor
  · exact hinv.active_eq
  · exact hinv.bound
  · exact hinv.full
  · exact fun before n after hlog => hinv.log _ _ _ hlog
  · exact fun before n after hlog => hinv.log _ _ _ hlog
  · exact fun before n after hlog => hinv.log _ _ _ hlog
  · intro n res hn
    exact hinv.released.mp ((hinv.probes n).settled nofun hn)
  · intro n hreturned hstarted hgranted
    have hcancelled : (s.waiter n).cancelled = true := by
      cases (hinv.probes n).returned hreturned with
      | inl hs =>
          rw [hstarted] at hs
          cases hs
      | inr hc => exact hc
    exact hinv.released.mp ((hinv.probes n).given nofun hcancelled hgranted)
  · exact fun before n after hlog => hinv.log _ _ _ hlog
  · exact fun before n after hlog => hinv.log _ _ _ hlog
  · exact fun before n o after hlog => hinv.log _ _ _ hlog

/-- Two probes and one permit.  The timer of the first fires between the grant
and its callback, and the second gets the permit. -/
def sampleTimeout : State Unit Unit :=
  fire 1 0 (boundedProbe 1 false (boundedProbe 1 false State.initial))

def sampleEnd : State Unit Unit :=
  settle 1 1 (Except.ok ()) (invoke 1 (react 1 1 (react 1 0 sampleTimeout)))

theorem sampleEnd_reachable : Reachable 1 sampleEnd := by
  have htwo : Reachable 1
      (boundedProbe 1 false (boundedProbe 1 false
        (State.initial : State Unit Unit))) :=
    (Relation.ReflTransGen.single (Step.probe false)).tail (Step.probe false)
  have htimeout : Reachable 1 sampleTimeout :=
    htwo.tail (Step.fire (by decide))
  have hback : Reachable 1 (react 1 0 sampleTimeout) :=
    htimeout.tail (Step.react (by decide))
  have hreact : Reachable 1 (react 1 1 (react 1 0 sampleTimeout)) :=
    hback.tail (Step.react (by decide))
  have hinvoke : Reachable 1 (invoke 1 (react 1 1 (react 1 0 sampleTimeout))) :=
    hreact.tail (Step.invoke (by decide))
  exact hinvoke.tail (Step.settle _ (by decide))

theorem permits_conserved_sample :
    Conserved 1 sampleEnd ∧
      sampleEnd.log = [Entry.acquired 0, Entry.granted 0, Entry.acquired 1,
        Entry.cancelled 0, Entry.released 0, Entry.granted 1,
        Entry.reported 0 Outcome.timedOut, Entry.began 1, Entry.invoked 1,
        Entry.settled 1 (Except.ok ()), Entry.released 1,
        Entry.reported 1 (Outcome.resolved ())] :=
  ⟨permits_conserved sampleEnd_reachable, by decide⟩

end ProbeGate
end Server
end FlanTerminal

import FlanTerminal.Server.AuthAdmission
import FlanTerminal.Server.AuthResults

/-!
# Places are conserved

Each place that is taken belongs to one operation in progress.  An operation
that runs may have taken a place for which it is not yet in the queue, and so
may be ahead of the books; where it stops they agree.
-/

namespace FlanTerminal
namespace Server
namespace AuthService
namespace Admission

open Foundation
open CredentialStore (ReplaceResult EnrollmentResult)
open Passwords (isFirst)

/-- The places of the operations in `held`, and `e` and `l` more. -/
structure Books (o : Options) (cs : Census) (e l : Int)
    (held : List (Nat × Slot)) (s : State) : Prop where
  establishments : s.pendingEstablishments = held.length + e
  locals : s.pendingLocalAttempts = (held.filter isLocal).length + l
  bound : s.pendingEstablishments ≤ o.maxPendingEstablishments
  localBound : s.pendingLocalAttempts ≤ o.max
  numbers : forall x, x ∈ asked s.log -> x.1 < cs.next
  once : ((asked s.log).map Prod.fst).Nodup
  past : forall n, hasEnded s.log n = true -> n < cs.next
  gone : forall n, cs.live n -> hasEnded s.log n = false
  present : forall x, x ∈ asked s.log -> hasEnded s.log x.1 = false ->
    cs.live x.1
  owners : forall x, x ∈ held -> x ∈ asked s.log ∧ cs.live x.1
  distinct : (held.map Prod.fst).Nodup
  line : forall x, x ∈ s.line -> x ∈ held
  order : (s.line.map Prod.fst).Pairwise fun a b => a < b
  early : forall x, x ∈ held -> x ∉ s.line -> forall y, y ∈ s.line ->
    x.1 < y.1

/-- Operation `m` has its place and waits for its turn, or for the end of what
it does in its turn, or for its result to be known. -/
def Placed (cs : Census) (held : List (Nat × Slot)) (s : State) (m : Nat) :
    Prop :=
  forall slot, (m, slot) ∈ asked s.log -> cs.live m ->
    (m, slot) ∈ held ∧
      ((m, slot) ∈ s.line ->
        isFirst s m = true ∨ (m, PortCall.turn) ∈ s.waiting) ∧
      ((m, slot) ∉ s.line -> (m, PortCall.settled) ∈ s.waiting)

def Inv (o : Options) (cs : Census) (s : State) : Prop :=
  exists held, Books o cs 0 0 held s ∧ forall m, Placed cs held s m

/-- What operation `m` relies on. -/
structure Relies (m : Nat) (s s' : State) : Prop where
  line : forall slot, (m, slot) ∈ s'.line <-> (m, slot) ∈ s.line
  first : isFirst s m = true -> isFirst s' m = true
  asked : forall slot, (m, slot) ∈ asked s'.log <-> (m, slot) ∈ asked s.log

theorem Relies.refl (m : Nat) (s : State) : Relies m s s :=
  ⟨fun _ => Iff.rfl, id, fun _ => Iff.rfl⟩

theorem Relies.trans {m : Nat} {s s' s'' : State} (h : Relies m s s')
    (h' : Relies m s' s'') : Relies m s s'' :=
  ⟨fun slot => (h'.line slot).trans (h.line slot),
    fun hfirst => h'.first (h.first hfirst),
    fun slot => (h'.asked slot).trans (h.asked slot)⟩

def contract (o : Options) : Contract State where
  inv := Inv o
  guar _ n s s' := forall m, m ≠ n -> Relies m s s'
  rely _ m s s' := Relies m s s'

structure Apart (n : Nat) (s s' : State) : Prop where
  line : s'.line = s.line
  establishments : s'.pendingEstablishments = s.pendingEstablishments
  locals : s'.pendingLocalAttempts = s.pendingLocalAttempts
  asked : asked s'.log = asked s.log
  ended : hasEnded s'.log = hasEnded s.log
  waiting : forall m c, m ≠ n -> (m, c) ∈ s.waiting -> (m, c) ∈ s'.waiting

theorem Apart.refl (n : Nat) (s : State) : Apart n s s :=
  ⟨rfl, rfl, rfl, rfl, rfl, fun _ _ _ h => h⟩

theorem Apart.trans {n : Nat} {s s' s'' : State} (h : Apart n s s')
    (h' : Apart n s' s'') : Apart n s s'' :=
  ⟨h'.line.trans h.line, h'.establishments.trans h.establishments,
    h'.locals.trans h.locals, h'.asked.trans h.asked, h'.ended.trans h.ended,
    fun m c hm hc => h'.waiting m c hm (h.waiting m c hm hc)⟩

theorem Still.apart {s s' : State} (h : Still s s') (n : Nat) :
    Apart n s s' :=
  ⟨h.line, h.establishments, h.locals, h.asked, h.ended, fun _ _ _ hc => by
    rw [h.waiting]
    exact hc⟩

theorem Apart.relies {n : Nat} {s s' : State} (h : Apart n s s') (m : Nat) :
    Relies m s s' := by
  refine ⟨?_, ?_, ?_⟩
  · intro slot
    rw [h.line]
  · intro hfirst
    unfold isFirst at hfirst ⊢
    rw [h.line]
    exact hfirst
  · intro slot
    rw [h.asked]

theorem apart_park (n : Nat) (c : PortCall) (s : State) :
    Apart n s (s.park n c) :=
  ⟨rfl, rfl, rfl, rfl, rfl, fun _ _ _ h => List.mem_append_left _ h⟩

theorem apart_submit (n : Nat) (job : CredentialStore.Job) (s : State) :
    Apart n s (s.submit n job) :=
  ⟨rfl, rfl, rfl, rfl, rfl, fun _ _ _ h => h⟩

theorem apart_unpark (n : Nat) (s : State) : Apart n s (s.unpark n) :=
  ⟨rfl, rfl, rfl, rfl, rfl, fun _ _ hm h =>
    List.mem_filter.mpr ⟨h, decide_eq_true hm⟩⟩

theorem apart_collect (n : Nat) (s : State) : Apart n s (s.collect n) := by
  have h := (still_record s
    (e := Entry.told n (s.credentials.settled.lookup n)) rfl).apart n
  exact ⟨h.line, h.establishments, h.locals, h.asked, h.ended, h.waiting⟩

theorem apart_issue (n : Nat) (c : PortCall) (s : State) :
    Apart n s (issue n c s) := by
  cases c with
  | observer r k id reason =>
      have h := (still_record s (e := Entry.notified n r k) rfl).apart n
      exact ⟨h.line, h.establishments, h.locals, h.asked, h.ended, h.waiting⟩
  | startVerify u p => exact ⟨rfl, rfl, rfl, rfl, rfl, fun _ _ _ h => h⟩
  | turn => exact apart_park n _ s
  | verification => exact apart_park n _ s
  | enroll password => exact (apart_submit n _ s).trans (apart_park n _ _)
  | verify u p => exact (apart_submit n _ s).trans (apart_park n _ _)
  | replacePassword p => exact (apart_submit n _ s).trans (apart_park n _ _)
  | settled => exact apart_park n _ s
  | _ => exact Apart.refl n s

theorem apart_reply (n : Nat) (c : PortCall) (r : PortReply c) (s : State) :
    Apart n s (reply n c r s) := by
  have hcollect := (apart_unpark n s).trans (apart_collect n (s.unpark n))
  cases c with
  | clock checked =>
      cases checked <;> cases r
      case some.some x t => exact (still_record s rfl).apart n
      all_goals exact Apart.refl n s
  | random size =>
      cases r with
      | none => exact Apart.refl n s
      | some bytes => exact ⟨rfl, rfl, rfl, rfl, rfl, fun _ _ _ h => h⟩
  | observer r k id reason =>
      exact ⟨rfl, rfl, rfl, rfl, rfl, fun _ _ _ h => h⟩
  | turn => exact apart_unpark n s
  | verification => exact hcollect
  | enroll password => exact hcollect
  | verify u p => exact hcollect
  | replacePassword p => exact hcollect
  | settled => exact apart_unpark n s
  | _ => exact Apart.refl n s

section Rules

variable {o : Options} {w : World} {n : Nat} {cs : Census} {e l : Int}
variable {held : List (Nat × Slot)} {s0 s s' : State}

theorem Books.apart (h : Books o cs e l held s) (hs : Apart n s s') :
    Books o cs e l held s' := by
  constructor
  · rw [hs.establishments]
    exact h.establishments
  · rw [hs.locals]
    exact h.locals
  · rw [hs.establishments]
    exact h.bound
  · rw [hs.locals]
    exact h.localBound
  · rw [hs.asked]
    exact h.numbers
  · rw [hs.asked]
    exact h.once
  · rw [hs.ended]
    exact h.past
  · rw [hs.ended]
    exact h.gone
  · rw [hs.asked, hs.ended]
    exact h.present
  · rw [hs.asked]
    exact h.owners
  · exact h.distinct
  · rw [hs.line]
    exact h.line
  · rw [hs.line]
    exact h.order
  · rw [hs.line]
    exact h.early

theorem Placed.apart {m : Nat} (h : Placed cs held s m) (hs : Apart n s s')
    (hm : m ≠ n) : Placed cs held s' m := by
  intro slot hasked hlive
  rw [hs.asked] at hasked
  rcases h slot hasked hlive with ⟨hheld, hin, hout⟩
  refine ⟨hheld, ?_, ?_⟩
  · intro hline
    rw [hs.line] at hline
    rcases hin hline with hfirst | hturn
    · exact Or.inl ((hs.relies m).first hfirst)
    · exact Or.inr (hs.waiting m _ hm hturn)
  · intro hline
    rw [hs.line] at hline
    exact hs.waiting m _ hm (hout hline)

/-- Operation `n` runs, and has started this segment in `s0`. -/
structure Mid (o : Options) (n : Nat) (cs : Census) (s0 : State) (e l : Int)
    (held : List (Nat × Slot)) (s : State) : Prop where
  ok : cs.Ok
  live : cs.live n
  books : Books o cs e l held s
  placed : forall m, m ≠ n -> Placed cs held s m
  guar : forall m, m ≠ n -> Relies m s0 s

theorem Mid.apart (h : Mid o n cs s0 e l held s) (hs : Apart n s s') :
    Mid o n cs s0 e l held s' :=
  ⟨h.ok, h.live, h.books.apart hs, fun m hm => (h.placed m hm).apart hs hm,
    fun m hm => (h.guar m hm).trans (hs.relies m)⟩

theorem Mid.of_inv (hok : cs.Ok) (hlive : cs.live n) (h : Inv o cs s) :
    exists held, Mid o n cs s 0 0 held s ∧ Placed cs held s n := by
  rcases h with ⟨held, hbooks, hplaced⟩
  exact ⟨held, ⟨hok, hlive, hbooks, fun m _ => hplaced m,
    fun m _ => Relies.refl m s⟩, hplaced n⟩

theorem Mid.inv (h : Mid o n cs s0 0 0 held s) (hn : Placed cs held s n) :
    Inv o cs s := by
  refine ⟨held, h.books, ?_⟩
  intro m
  by_cases hm : m = n
  · rw [hm]
    exact hn
  · exact h.placed m hm

/-- Operation `n` is in its turn, or is not one that has turns. -/
def Sits (n : Nat) (held : List (Nat × Slot)) (s : State) : Prop :=
  forall slot, (n, slot) ∈ asked s.log ->
    (n, slot) ∈ held ∧ (n, slot) ∈ s.line ∧ isFirst s n = true

theorem Sits.placed (h : Sits n held s) : Placed cs held s n := by
  intro slot hasked _
  rcases h slot hasked with ⟨hheld, hline, hfirst⟩
  exact ⟨hheld, fun _ => Or.inl hfirst, fun hout => absurd hline hout⟩

theorem Sits.apart (h : Sits n held s) (hs : Apart n s s') :
    Sits n held s' := by
  intro slot hasked
  rw [hs.asked] at hasked
  rcases h slot hasked with ⟨hheld, hline, hfirst⟩
  refine ⟨hheld, ?_, (hs.relies n).first hfirst⟩
  rw [hs.line]
  exact hline

theorem Sits.relied {held' : List (Nat × Slot)} (h : Sits n held s)
    (hrely : Relies n s s') (hplaced : Placed cs held' s' n)
    (hlive : cs.live n) : Sits n held' s' := by
  intro slot hasked
  rcases h slot ((hrely.asked slot).mp hasked) with ⟨_, hline, hfirst⟩
  exact ⟨(hplaced slot hasked hlive).1, (hrely.line slot).mpr hline,
    hrely.first hfirst⟩

abbrev Wp (o : Options) (w : World) (n : Nat) {value : Type}
    (Q : Except Thrown value -> Phase -> Census -> State -> State -> Prop)
    (p : Code value) (ph : Phase) (cs : Census) (s0 s : State) : Prop :=
  Prog.wp (auth o (inOrder w)) (contract o) n Q p ph cs s0 s

theorem wp_still {value : Type} {p : Code value} {ph : Phase}
    {Q : Except Thrown value -> Phase -> Census -> State -> State -> Prop}
    (hp : p.Within Still) (h : Mid o n cs s0 0 0 held s)
    (hsits : Sits n held s)
    (hend : forall res ph cs s0 s' held, Mid o n cs s0 0 0 held s' ->
      Sits n held s' -> (forall slot, (n, slot) ∈ asked s'.log <->
        (n, slot) ∈ asked s.log) -> Q res ph cs s0 s') :
    Wp o w n Q p ph cs s0 s := by
  refine Prog.wp_within (J := fun _ cs s0 s' => exists held,
    Mid o n cs s0 0 0 held s' ∧ Sits n held s' ∧
      forall slot, (n, slot) ∈ asked s'.log <-> (n, slot) ∈ asked s.log)
    ?_ ?_ ?_ ?_ hp ⟨held, h, hsits, fun _ => Iff.rfl⟩
  · intro ph cs s0 s s' ⟨held, hmid, hsits, hsame⟩ hstill
    have hs := hstill.apart n
    exact ⟨held, hmid.apart hs, hsits.apart hs,
      fun slot => ((hs.relies n).asked slot).trans (hsame slot)⟩
  · intro ph cs s0 s c r _ ⟨held, hmid, hsits, hsame⟩ _
    have hs := (apart_issue n c s).trans (apart_reply n c r (issue n c s))
    exact ⟨held, hmid.apart hs, hsits.apart hs,
      fun slot => ((hs.relies n).asked slot).trans (hsame slot)⟩
  · intro ph cs s0 s c _ ⟨held, hmid, hsits, hsame⟩
    have hissue := apart_issue n c s
    have hmid' := hmid.apart hissue
    have hsits' := hsits.apart hissue
    refine ⟨hmid'.inv hsits'.placed, hmid'.guar, ?_⟩
    intro ph' cs' s' r hok hlive hinv hrely _
    rcases Mid.of_inv hok hlive hinv with ⟨held', hmid'', hplaced⟩
    have hs := apart_reply n c r s'
    have hwhole := ((hissue.relies n).trans hrely).trans (hs.relies n)
    exact ⟨held', hmid''.apart hs,
      (hsits'.relied hrely hplaced hlive).apart hs,
      fun slot => (hwhole.asked slot).trans (hsame slot)⟩
  · intro res ph cs s0 s ⟨held, hmid, hsits, hsame⟩
    exact hend res ph cs s0 s held hmid hsits hsame

/-!
## A turn
-/

theorem eq_of_number {x y : Nat × Slot} (h : Books o cs e l held s)
    (hx : x ∈ held) (hy : y ∈ held) (hnumber : x.1 = y.1) : x = y :=
  List.inj_on_of_nodup_map h.distinct hx hy hnumber

variable {slot : Slot}

structure Leaving (n : Nat) (slot : Slot) (held : List (Nat × Slot))
    (s : State) : Prop where
  owner : (n, slot) ∈ held
  out : (n, slot) ∉ s.line

theorem head_of_first (hfirst : isFirst s n = true) :
    exists slot rest, s.line = (n, slot) :: rest := by
  unfold isFirst at hfirst
  cases hline : s.line with
  | nil =>
      rw [hline] at hfirst
      cases hfirst
  | cons x rest =>
      rw [hline] at hfirst
      have hx : x.1 = n := by
        simpa using hfirst
      refine ⟨x.2, rest, ?_⟩
      rw [← hx]

theorem Mid.pop (h : Mid o n cs s0 0 0 held s) (hheld : (n, slot) ∈ held)
    (hfirst : isFirst s n = true) :
    Mid o n cs s0 0 0 held { s with line := s.line.tail } ∧
      Leaving n slot held { s with line := s.line.tail } := by
  rcases head_of_first hfirst with ⟨slot', rest, hline⟩
  have hhead : (n, slot') ∈ s.line := by
    rw [hline]
    exact List.mem_cons_self
  have hslot : (n, slot') = (n, slot) :=
    eq_of_number h.books (h.books.line _ hhead) hheld rfl
  rw [hslot] at hline
  have hsorted := h.books.order
  rw [hline, List.map_cons, List.pairwise_cons] at hsorted
  have hbelow : forall x, x ∈ rest -> n < x.1 :=
    fun x hx => hsorted.1 x.1 (List.mem_map_of_mem hx)
  have hsame : forall x, x.1 ≠ n -> (x ∈ s.line.tail <-> x ∈ s.line) := by
    intro x hx
    rw [hline, List.tail_cons, List.mem_cons]
    constructor
    · exact Or.inr
    · intro hmem
      rcases hmem with heq | hmem
      · rw [heq] at hx
        exact absurd rfl hx
      · exact hmem
  have hother : forall m, m ≠ n -> isFirst s m = true -> False := by
    intro m hm hm'
    rcases head_of_first hm' with ⟨slot'', rest', hline'⟩
    rw [hline] at hline'
    have heq := congrArg Prod.fst (List.cons.inj hline').1
    exact hm heq.symm
  have htail : forall x, x ∈ s.line.tail -> x ∈ s.line :=
    fun x hx => List.mem_of_mem_tail hx
  refine ⟨⟨h.ok, h.live, { h.books with
    line := fun x hx => h.books.line x (htail x hx)
    order := ?_
    early := ?_ }, ?_, ?_⟩, hheld, ?_⟩
  · show (s.line.tail.map Prod.fst).Pairwise _
    rw [hline, List.tail_cons]
    exact hsorted.2
  · intro x hx hout y hy
    by_cases hnumber : x.1 = n
    · rw [hnumber]
      apply hbelow
      change y ∈ s.line.tail at hy
      rw [hline] at hy
      exact hy
    · exact h.books.early x hx (fun hin => hout ((hsame x hnumber).mpr hin))
        y (htail y hy)
  · intro m hm slot'' hasked hlive
    rcases h.placed m hm slot'' hasked hlive with ⟨howns, hin, hout⟩
    refine ⟨howns, ?_, ?_⟩
    · intro hmem
      rcases hin ((hsame (m, slot'') hm).mp hmem) with hfirst' | hturn
      · exact (hother m hm hfirst').elim
      · exact Or.inr hturn
    · intro hmem
      exact hout fun hmem' => hmem ((hsame (m, slot'') hm).mpr hmem')
  · intro m hm
    have hguar := h.guar m hm
    refine ⟨fun slot'' => ?_, ?_, hguar.asked⟩
    · exact (hsame (m, slot'') hm).trans (hguar.line slot'')
    · intro hfirst'
      exact (hother m hm (hguar.first hfirst')).elim
  · intro hmem
    change (n, slot) ∈ s.line.tail at hmem
    rw [hline] at hmem
    exact Nat.lt_irrefl n (hbelow (n, slot) hmem)

theorem wp_inTurn {value : Type} {p : Code value} {ph : Phase}
    {Q : Except Thrown value -> Phase -> Census -> State -> State -> Prop}
    (hp : p.Within Still) (h : Mid o n cs s0 0 0 held s)
    (hheld : (n, slot) ∈ held) (hline : (n, slot) ∈ s.line)
    (hend : forall res ph cs s0 s held, Mid o n cs s0 0 0 held s ->
      Leaving n slot held s -> Q res ph cs s0 s) :
    Wp o w n Q (inTurn p) ph cs s0 s := by
  have hasked := (h.books.owners _ hheld).1
  have hwait := h.apart (apart_issue n PortCall.turn s)
  have hplaced : Placed cs held (s.park n PortCall.turn) n := by
    intro slot' hasked' _
    have heq := List.inj_on_of_nodup_map h.books.once hasked' hasked rfl
    rw [heq]
    exact ⟨hheld, fun _ => Or.inr
      (List.mem_append_right _ (List.mem_singleton.mpr rfl)),
      fun hout => absurd hline hout⟩
  refine (Prog.wp_await (M := auth o (inOrder w)) (c := PortCall.turn)
    rfl).mpr ⟨hwait.inv hplaced, hwait.guar, ?_⟩
  intro cs' s' r hok hlive hinv hrely hfirst
  have hfirst : isFirst s' n = true := hfirst.1 rfl
  rcases Mid.of_inv hok hlive hinv with ⟨held', hmid, hplaced'⟩
  have hasked' := (hrely.asked slot).mpr hasked
  have hline' := (hrely.line slot).mpr hline
  have hsits : Sits n held' s' := by
    intro slot' hslot'
    have heq := List.inj_on_of_nodup_map hmid.books.once hslot' hasked' rfl
    rw [heq]
    exact ⟨(hplaced' slot hasked' hlive).1, hline', hfirst⟩
  have hreply := apart_reply n PortCall.turn r s'
  apply Prog.wp_always.mpr
  refine wp_still hp (hmid.apart hreply) (hsits.apart hreply) ?_
  intro res ph2 cs2 s2 s3 held2 hmid2 hsits2 hsame
  have hasked2 := (hsame slot).mpr (((hreply.relies n).asked slot).mpr hasked')
  rcases hsits2 slot hasked2 with ⟨hheld2, _, hfirst2⟩
  have hpop := hmid2.pop hheld2 hfirst2
  exact hend res ph2 cs2 s2 _ held2 hpop.1 hpop.2

theorem wp_settled {value : Type} {g : Code value} {ph : Phase}
    {Q : Except Thrown value -> Phase -> Census -> State -> State -> Prop}
    (h : Mid o n cs s0 0 0 held s) (hleaving : Leaving n slot held s)
    (hgo : forall cs s0 s held, Mid o n cs s0 0 0 held s ->
      Leaving n slot held s -> Wp o w n Q g Phase.later cs s0 s) :
    Wp o w n Q (Prog.ask (I := ports) PortCall.settled >>= fun _ => g)
      ph cs s0 s := by
  have hasked := (h.books.owners _ hleaving.owner).1
  have hwait := h.apart (apart_issue n PortCall.settled s)
  have hplaced : Placed cs held (s.park n PortCall.settled) n := by
    intro slot' hasked' _
    have heq := List.inj_on_of_nodup_map h.books.once hasked' hasked rfl
    rw [heq]
    exact ⟨hleaving.owner, fun hin => absurd hin hleaving.out, fun _ =>
      List.mem_append_right _ (List.mem_singleton.mpr rfl)⟩
  refine (Prog.wp_await (M := auth o (inOrder w)) (c := PortCall.settled)
    rfl).mpr ⟨hwait.inv hplaced, hwait.guar, ?_⟩
  intro cs' s' r hok hlive hinv hrely _
  rcases Mid.of_inv hok hlive hinv with ⟨held', hmid, hplaced'⟩
  have hasked' := (hrely.asked slot).mpr hasked
  refine hgo cs' s' _ held' (hmid.apart (apart_unpark n s'))
    ⟨(hplaced' slot hasked' hlive).1, ?_⟩
  exact fun hin => hleaving.out ((hrely.line slot).mp hin)

def Out (n : Nat) (held : List (Nat × Slot)) : Prop :=
  forall slot, (n, slot) ∉ held

/-- What an operation owes before its end. -/
def Done (o : Options) (n : Nat) (cs : Census) (s0 s : State) : Prop :=
  exists held, Mid o n cs s0 0 0 held s ∧ Out n held

def localPlaces (slot : Slot) : Int :=
  if isLocal (0, slot) then 1 else 0

theorem length_local (n : Nat) (slot : Slot) :
    (([(n, slot)].filter isLocal).length : Int) = localPlaces slot := by
  cases slot with
  | bootstrap => rfl
  | login => rfl
  | setup => rfl

theorem Mid.release (h : Mid o n cs s0 0 0 held s)
    (hleaving : Leaving n slot held s) :
    Done o n cs s0
      { s with
        pendingEstablishments := s.pendingEstablishments - 1
        pendingLocalAttempts := s.pendingLocalAttempts - localPlaces slot } := by
  have hperm := List.perm_cons_erase hleaving.owner
  have hlength := hperm.length_eq
  have hfilter := (hperm.filter isLocal).length_eq
  have hmem : forall x, x ∈ held.erase (n, slot) -> x ∈ held :=
    fun x hx => List.mem_of_mem_erase hx
  have hdistinct := h.books.distinct
  rw [(hperm.map Prod.fst).nodup_iff, List.map_cons, List.nodup_cons]
    at hdistinct
  have hother : forall x, x ∈ held -> x.1 ≠ n -> x ∈ held.erase (n, slot) := by
    intro x hx hne
    apply (List.mem_erase_of_ne ?_).mpr hx
    intro heq
    rw [heq] at hne
    exact hne rfl
  have hcount : (held.filter isLocal).length =
      ((held.erase (n, slot)).filter isLocal).length + localPlaces slot := by
    rw [hfilter, ← List.singleton_append, List.filter_append,
      List.length_append, ← length_local n slot]
    omega
  refine ⟨held.erase (n, slot), ⟨h.ok, h.live, { h.books with
    establishments := ?_
    locals := ?_
    bound := ?_
    localBound := ?_
    owners := fun x hx => h.books.owners x (hmem x hx)
    distinct := hdistinct.2
    line := ?_
    early := fun x hx => h.books.early x (hmem x hx) }, ?_, ?_⟩, ?_⟩
  · have hbefore := h.books.establishments
    simp only [List.length_cons] at hlength
    show s.pendingEstablishments - 1 = _
    omega
  · have hbefore := h.books.locals
    show s.pendingLocalAttempts - localPlaces slot = _
    omega
  · have hbound := h.books.bound
    show s.pendingEstablishments - 1 ≤ _
    omega
  · have hbound := h.books.localBound
    have hpos : 0 ≤ localPlaces slot := by
      unfold localPlaces
      split
      · exact Int.one_nonneg
      · exact Int.le_refl 0
    show s.pendingLocalAttempts - localPlaces slot ≤ _
    omega
  · intro x hx
    have hx' : x ∈ s.line := hx
    have hin := h.books.line x hx'
    apply hother x hin
    intro hnumber
    have heq := eq_of_number h.books hin hleaving.owner hnumber
    rw [heq] at hx'
    exact hleaving.out hx'
  · intro m hm slot' hasked hlive
    rcases h.placed m hm slot' hasked hlive with ⟨hin, hrest⟩
    exact ⟨hother (m, slot') hin hm, hrest⟩
  · exact fun m hm => ⟨(h.guar m hm).line, (h.guar m hm).first,
      (h.guar m hm).asked⟩
  · intro slot' hmem'
    exact hdistinct.1 (List.mem_map.mpr ⟨_, hmem', rfl⟩)

theorem wp_turn {p : Code Value} {q : Code Unit} {ph : Phase}
    (hp : p.Within Still)
    (hq : forall cs s0 s, Done o n cs s0
        { s with
          pendingEstablishments := s.pendingEstablishments - 1
          pendingLocalAttempts := s.pendingLocalAttempts - localPlaces slot } ->
      forall res, Wp o w n (Prog.closePost
        (fun (_ : Except Thrown Value) _ => Done o n) res) q Phase.later
        cs s0 s)
    (h : Mid o n cs s0 0 0 held s) (hheld : (n, slot) ∈ held)
    (hline : (n, slot) ∈ s.line) :
    Wp o w n (fun _ _ => Done o n) (thenFinally (inTurn p) q) ph cs s0 s := by
  apply Prog.wp_always.mpr
  refine wp_inTurn hp h hheld hline ?_
  intro res ph cs s0 s held hmid hleaving
  refine wp_settled hmid hleaving ?_
  intro cs s0 s held hmid hleaving
  exact hq cs s0 s (hmid.release hleaving) res

theorem wp_turn_bootstrap {p : Code Value} {ph : Phase}
    (hp : p.Within Still) (h : Mid o n cs s0 0 0 held s)
    (hheld : (n, Slot.bootstrap) ∈ held)
    (hline : (n, Slot.bootstrap) ∈ s.line) :
    Wp o w n (fun _ _ => Done o n)
      (thenFinally (inTurn p) releaseEstablishment) ph cs s0 s := by
  refine wp_turn hp ?_ h hheld hline
  intro cs s0 s hdone res
  have hnone : localPlaces Slot.bootstrap = 0 := rfl
  rw [hnone, Int.sub_zero] at hdone
  exact hdone

theorem wp_turn_local {p : Code Value} {ph : Phase} (hp : p.Within Still)
    (hslot : localPlaces slot = 1) (h : Mid o n cs s0 0 0 held s)
    (hheld : (n, slot) ∈ held) (hline : (n, slot) ∈ s.line) :
    Wp o w n (fun _ _ => Done o n)
      (thenFinally (inTurn p) releaseLocal) ph cs s0 s := by
  refine wp_turn hp ?_ h hheld hline
  intro cs s0 s hdone res
  rw [hslot] at hdone
  exact hdone

/-!
## Admission
-/

/-- Operation `n` has started last and has no place in the queue. -/
structure Fresh (n : Nat) (slot : Slot) (held : List (Nat × Slot))
    (s : State) : Prop where
  asked : (n, slot) ∈ asked s.log
  last : forall x, x ∈ held -> x.1 < n

theorem Fresh.out (h : Fresh n slot held s) : Out n held :=
  fun slot' hmem => Nat.lt_irrefl n (h.last (n, slot') hmem)

theorem Fresh.apart (h : Fresh n slot held s) (hs : Apart n s s') :
    Fresh n slot held s' := by
  refine ⟨?_, h.last⟩
  rw [hs.asked]
  exact h.asked

variable (slot) in
theorem Mid.join (h : Mid o n cs s0 1 (localPlaces slot) held s)
    (hfresh : Fresh n slot held s) :
    Mid o n cs s0 0 0 (held ++ [(n, slot)])
      { s with line := s.line ++ [(n, slot)] } := by
  have hnew : forall x, x ∈ s.line -> x.1 < n :=
    fun x hx => hfresh.last x (h.books.line x hx)
  have hsame : forall m slot', m ≠ n ->
      ((m, slot') ∈ s.line ++ [(n, slot)] <-> (m, slot') ∈ s.line) := by
    intro m slot' hm
    rw [List.mem_append, List.mem_singleton]
    constructor
    · intro hmem
      rcases hmem with hmem | heq
      · exact hmem
      · exact absurd (congrArg Prod.fst heq) hm
    · exact Or.inl
  have hfirst : forall m, isFirst s m = true ->
      isFirst { s with line := s.line ++ [(n, slot)] } m = true := by
    intro m hm
    rcases head_of_first hm with ⟨slot', rest, hline⟩
    unfold isFirst
    rw [hline]
    simp
  refine ⟨h.ok, h.live, { h.books with
    establishments := ?_
    locals := ?_
    owners := ?_
    distinct := ?_
    line := ?_
    order := ?_
    early := ?_ }, ?_, ?_⟩
  · have hbefore := h.books.establishments
    show s.pendingEstablishments = _
    simp only [List.length_append, List.length_singleton]
    omega
  · have hbefore := h.books.locals
    show s.pendingLocalAttempts = _
    rw [hbefore, List.filter_append, List.length_append, ← length_local n slot]
    omega
  · intro x hx
    rcases List.mem_append.mp hx with hx | hx
    · exact h.books.owners x hx
    · rw [List.mem_singleton.mp hx]
      exact ⟨hfresh.asked, h.live⟩
  · rw [List.map_append, List.nodup_append]
    refine ⟨h.books.distinct, List.nodup_singleton _, ?_⟩
    intro a ha b hb heq
    rcases List.mem_map.mp ha with ⟨x, hx, hxa⟩
    have hlt := hfresh.last x hx
    rw [hxa, heq, List.mem_singleton.mp hb] at hlt
    exact Nat.lt_irrefl n hlt
  · intro x hx
    rcases List.mem_append.mp hx with hx | hx
    · exact List.mem_append_left _ (h.books.line x hx)
    · exact List.mem_append_right _ hx
  · show ((s.line ++ [(n, slot)]).map Prod.fst).Pairwise _
    rw [List.map_append, List.pairwise_append]
    refine ⟨h.books.order, List.pairwise_singleton _ _, ?_⟩
    intro a ha b hb
    rcases List.mem_map.mp ha with ⟨x, hx, hxa⟩
    rw [← hxa, List.mem_singleton.mp hb]
    exact hnew x hx
  · intro x hx hout y hy
    have hx : x ∈ held := by
      rcases List.mem_append.mp hx with hx | hx
      · exact hx
      · exact absurd (List.mem_append_right _ hx) hout
    rcases List.mem_append.mp hy with hy | hy
    · exact h.books.early x hx
        (fun hin => hout (List.mem_append_left _ hin)) y hy
    · rw [List.mem_singleton.mp hy]
      exact hfresh.last x hx
  · intro m hm slot' hasked hlive
    rcases h.placed m hm slot' hasked hlive with ⟨howns, hin, hout⟩
    refine ⟨List.mem_append_left _ howns, ?_, ?_⟩
    · intro hmem
      rcases hin ((hsame m slot' hm).mp hmem) with hhead | hturn
      · exact Or.inl (hfirst m hhead)
      · exact Or.inr hturn
    · intro hmem
      exact hout fun hmem' => hmem ((hsame m slot' hm).mpr hmem')
  · intro m hm
    have hguar := h.guar m hm
    exact ⟨fun slot' => (hsame m slot' hm).trans (hguar.line slot'),
      fun hm' => hfirst m (hguar.first hm'), hguar.asked⟩

/-- The operation takes a place, or gives one back, of those that are not in
the books. -/
theorem Mid.count (h : Mid o n cs s0 e l held s) (e' l' : Int)
    (hbound : s.pendingEstablishments + e' ≤ o.maxPendingEstablishments)
    (hlocal : s.pendingLocalAttempts + l' ≤ o.max) :
    Mid o n cs s0 (e + e') (l + l') held
      { s with
        pendingEstablishments := s.pendingEstablishments + e'
        pendingLocalAttempts := s.pendingLocalAttempts + l' } := by
  have hest := h.books.establishments
  have hloc := h.books.locals
  refine ⟨h.ok, h.live, { h.books with
    establishments := ?_
    locals := ?_
    bound := hbound
    localBound := hlocal }, h.placed,
    fun m hm => ⟨(h.guar m hm).line, (h.guar m hm).first,
      (h.guar m hm).asked⟩⟩
  · show s.pendingEstablishments + e' = _
    omega
  · show s.pendingLocalAttempts + l' = _
    omega

abbrev Owes (o : Options) (w : World) (n : Nat) (p : Code Value)
    (cs : Census) (s0 s : State) : Prop :=
  Wp o w n (fun _ _ => Done o n) p Phase.first cs s0 s

theorem Mid.done (h : Mid o n cs s0 0 0 held s) (hfresh : Fresh n slot held s) :
    Done o n cs s0 s :=
  ⟨held, h, hfresh.out⟩

theorem owes_ask {c : PortCall} (hc : boundary c = Boundary.sync)
    {g : PortReply c -> Code Value}
    (hg : forall r s', Apart n s s' -> Owes o w n (g r) cs s0 s') :
    Owes o w n (Prog.ask (I := ports) c >>= g) cs s0 s := by
  refine (Prog.wp_sync (M := auth o (inOrder w)) (c := c) hc).mpr ?_
  intro r _
  exact hg r _ ((apart_issue n c s).trans (apart_reply n c r (issue n c s)))

theorem owes_reserve {g : Bool -> Code Value}
    (h : Mid o n cs s0 0 0 held s)
    (hno : Owes o w n (g false) cs s0 s)
    (hyes : Mid o n cs s0 1 0 held
        { s with pendingEstablishments := s.pendingEstablishments + 1 } ->
      Owes o w n (g true) cs s0
        { s with pendingEstablishments := s.pendingEstablishments + 1 }) :
    Owes o w n (reserveEstablishment o >>= g) cs s0 s := by
  unfold reserveEstablishment
  simp only [Prog.read_bind, Prog.act_bind, Prog.wp_act, id]
  split
  · exact hno
  · rename_i hroom
    have hlocal := h.books.localBound
    have hcount := h.count 1 0 (by omega) (by omega)
    simp only [Int.add_zero, Int.zero_add] at hcount
    exact hyes hcount

theorem owes_release (h : Mid o n cs s0 1 0 held s)
    (hfresh : Fresh n slot held s) {p : Code Value}
    (hp : forall s, Done o n cs s0 s -> Owes o w n p cs s0 s) :
    Owes o w n (releaseEstablishment >>= fun _ => p) cs s0 s := by
  have hbound := h.books.bound
  have hlocal := h.books.localBound
  have hcount := h.count (-1) 0 (by omega) (by omega)
  simp only [Int.add_zero, ← Int.sub_eq_add_neg, Int.sub_self] at hcount
  exact hp _ ⟨held, hcount, hfresh.out⟩

theorem owes_done {p : Code Value} (hp : (exists v, p = Prog.ret v) ∨ p = fail)
    (hdone : Done o n cs s0 s) : Owes o w n p cs s0 s := by
  rcases hp with ⟨v, hv⟩ | hfail
  · rw [hv]
    exact hdone
  · rw [hfail]
    exact hdone

theorem owes_bootstrap (h : Mid o n cs s0 0 0 held s)
    (hfresh : Fresh n Slot.bootstrap held s)
    (input : UpstreamAuthentication) :
    Owes o w n (bootstrap o n input) cs s0 s := by
  unfold bootstrap
  refine owes_reserve h ?_ ?_
  · exact h.done hfresh
  · intro hmid
    have hjoin := hmid.join Slot.bootstrap ⟨hfresh.asked, hfresh.last⟩
    exact wp_turn_bootstrap (still_establishUpstream o n input) hjoin
      (List.mem_append_right _ (List.mem_singleton.mpr rfl))
      (List.mem_append_right _ (List.mem_singleton.mpr rfl))

theorem Mid.enrol (h : Mid o n cs s0 1 0 held s)
    (hroom : s.pendingLocalAttempts < o.max) :
    Mid o n cs s0 1 1 held
      { s with pendingLocalAttempts := s.pendingLocalAttempts + 1 } := by
  have hbound := h.books.bound
  have hcount := h.count 0 1 (by omega) (by omega)
  simp only [Int.add_zero, Int.zero_add] at hcount
  exact hcount

theorem owes_verifyAndEstablish (h : Mid o n cs s0 1 1 held s)
    (hfresh : Fresh n Slot.login held s)
    (username password label address : JsString) :
    Owes o w n (verifyAndEstablish o n username password label address)
      cs s0 s := by
  have hmem : (n, Slot.login) ∈ held ++ [(n, Slot.login)] :=
    List.mem_append_right _ (List.mem_singleton.mpr rfl)
  have hmem' : (n, Slot.login) ∈ s.line ++ [(n, Slot.login)] :=
    List.mem_append_right _ (List.mem_singleton.mpr rfl)
  have hjoin := h.join Slot.login hfresh
  have hrest : forall s', Apart n
      { s with line := s.line ++ [(n, Slot.login)] } s' ->
      Owes o w n (thenFinally (inTurn (completeLoginSlot o n label address))
        releaseLocal) cs s0 s' := by
    intro s' hs
    refine wp_turn_local (still_completeLoginSlot o n label address) rfl
      (hjoin.apart hs) hmem ?_
    rw [hs.line]
    exact hmem'
  unfold verifyAndEstablish
  refine owes_ask (c := PortCall.startVerify username password) rfl ?_
  intro started s' hs
  have hresolve : forall outcome, Apart n s'
      { s' with verifications := s'.verifications ++ [(n, outcome)] } :=
    fun _ => ⟨rfl, rfl, rfl, rfl, rfl, fun _ _ _ hc => hc⟩
  cases started with
  | value valid => exact hrest _ (hs.trans (hresolve _))
  | promise => exact hrest _ hs
  | threw => exact hrest _ (hs.trans (hresolve _))

theorem owes_login (h : Mid o n cs s0 0 0 held s)
    (hfresh : Fresh n Slot.login held s)
    (username password address : JsString) :
    Owes o w n (login o n username password address) cs s0 s := by
  unfold login
  split
  · exact h.done hfresh
  refine owes_ask (c := PortCall.isInitialized) rfl ?_
  intro initialized s1 hs1
  have h1 := h.apart hs1
  have hfresh1 := hfresh.apart hs1
  cases initialized with
  | none => exact h1.done hfresh1
  | some initialized =>
      cases initialized with
      | false => exact h1.done hfresh1
      | true =>
          show Owes o w n (attemptLogin o n username password address)
            cs s0 s1
          unfold attemptLogin
          simp only [Prog.read_bind, Prog.wp_act, id]
          split
          · exact h1.done hfresh1
          rename_i hroom
          refine owes_reserve h1 (h1.done hfresh1) ?_
          intro h2
          have hfresh2 : Fresh n Slot.login held { s1 with
              pendingEstablishments := s1.pendingEstablishments + 1 } :=
            ⟨hfresh1.asked, hfresh1.last⟩
          simp only [Bool.not_true, Bool.false_eq_true, if_false]
          cases normalizeLabel o username with
          | none =>
              exact owes_release h2 hfresh2 fun s hdone =>
                owes_done (Or.inr rfl) hdone
          | some label =>
              refine owes_ask (c := PortCall.consume (boundedAddress address))
                rfl ?_
              intro allowed s3 hs3
              have h3 := h2.apart hs3
              have hfresh3 := hfresh2.apart hs3
              cases allowed with
              | none =>
                  exact owes_release h3 hfresh3 fun s hdone =>
                    owes_done (Or.inr rfl) hdone
              | some allowed =>
                  cases allowed with
                  | false =>
                      exact owes_release h3 hfresh3 fun s hdone =>
                        owes_done (Or.inl ⟨_, rfl⟩) hdone
                  | true =>
                      have hlocals : s3.pendingLocalAttempts =
                          s1.pendingLocalAttempts := hs3.locals
                      refine owes_verifyAndEstablish (h3.enrol ?_)
                        ⟨hfresh3.asked, hfresh3.last⟩ username password label
                        (boundedAddress address)
                      omega

theorem owes_setup (h : Mid o n cs s0 0 0 held s)
    (hfresh : Fresh n Slot.setup held s) (password address : JsString) :
    Owes o w n (setup o n password address) cs s0 s := by
  unfold setup
  split
  · exact h.done hfresh
  refine owes_ask (c := PortCall.isInitialized) rfl ?_
  intro initialized s1 hs1
  have h1 := h.apart hs1
  have hfresh1 := hfresh.apart hs1
  cases initialized with
  | none => exact h1.done hfresh1
  | some initialized =>
      cases initialized with
      | true => exact h1.done hfresh1
      | false =>
          show Owes o w n (attemptSetup o n password address) cs s0 s1
          unfold attemptSetup
          simp only [Prog.read_bind, Prog.wp_act, id]
          split
          · exact h1.done hfresh1
          rename_i hroom
          refine owes_reserve h1 (h1.done hfresh1) ?_
          intro h2
          have hfresh2 : Fresh n Slot.setup held { s1 with
              pendingEstablishments := s1.pendingEstablishments + 1 } :=
            ⟨hfresh1.asked, hfresh1.last⟩
          refine owes_ask (c := PortCall.consume (boundedAddress address))
            rfl ?_
          intro allowed s3 hs3
          have h3 := h2.apart hs3
          have hfresh3 := hfresh2.apart hs3
          cases allowed with
          | none =>
              exact owes_release h3 hfresh3 fun s hdone =>
                owes_done (Or.inr rfl) hdone
          | some allowed =>
              cases allowed with
              | false =>
                  exact owes_release h3 hfresh3 fun s hdone =>
                    owes_done (Or.inl ⟨_, rfl⟩) hdone
              | true =>
                  have hlocals : s3.pendingLocalAttempts =
                      s1.pendingLocalAttempts := hs3.locals
                  have h4 := h3.enrol (by omega)
                  have h5 := h4.join Slot.setup
                    ⟨hfresh3.asked, hfresh3.last⟩
                  exact wp_turn_local
                    (still_completeSetup o n password (boundedAddress address))
                    rfl h5
                    (List.mem_append_right _ (List.mem_singleton.mpr rfl))
                    (List.mem_append_right _ (List.mem_singleton.mpr rfl))

/-!
## Starts and ends
-/

theorem Mid.enter (hok : cs.Ok) (h : Inv o cs s) (op : Op) :
    exists held, Mid o cs.next cs.enter s 0 0 held
        (s.record (Entry.entered cs.next op)) ∧
      forall x, x ∈ held -> x.1 < cs.next := by
  rcases h with ⟨held, hbooks, hplaced⟩
  have hasked : asked (s.record (Entry.entered cs.next op)).log =
      asked s.log ++
        ((slotOf op).map fun slot => (cs.next, slot)).toList :=
    asked_snoc s.log (Entry.entered cs.next op)
  have hended : hasEnded (s.record (Entry.entered cs.next op)).log =
      hasEnded s.log := by
    funext m
    exact (hasEnded_snoc s.log (Entry.entered cs.next op) m).trans
      (Bool.or_false _)
  have hcases : forall x,
      x ∈ asked (s.record (Entry.entered cs.next op)).log ->
        x ∈ asked s.log ∨ x.1 = cs.next := by
    intro x hx
    rw [hasked, List.mem_append, Option.mem_toList] at hx
    rcases hx with hx | hx
    · exact Or.inl hx
    · rcases Option.map_eq_some_iff.mp hx with ⟨slot, _, heq⟩
      rw [← heq]
      exact Or.inr rfl
  have hnumber : forall x, x ∈ held -> x.1 < cs.next :=
    fun x hx => hbooks.numbers x (hbooks.owners x hx).1
  have hsame : forall m slot, m ≠ cs.next ->
      ((m, slot) ∈ asked (s.record (Entry.entered cs.next op)).log <->
        (m, slot) ∈ asked s.log) := by
    intro m slot hm
    constructor
    · intro hmem
      exact (hcases _ hmem).resolve_right hm
    · intro hmem
      rw [hasked]
      exact List.mem_append_left _ hmem
  refine ⟨held, ⟨?_, Or.inl rfl, ⟨hbooks.establishments, hbooks.locals,
    hbooks.bound, hbooks.localBound, ?_, ?_, ?_, ?_, ?_, ?_, hbooks.distinct,
    hbooks.line, hbooks.order, hbooks.early⟩, ?_, ?_⟩, hnumber⟩
  · intro m hm
    rcases hm with hm | hm
    · rw [hm]
      exact Nat.lt_succ_self _
    · exact Nat.lt_succ_of_lt (hok m hm)
  · intro x hx
    rcases hcases x hx with hx | hx
    · exact Nat.lt_succ_of_lt (hbooks.numbers x hx)
    · rw [hx]
      exact Nat.lt_succ_self _
  · rw [hasked, List.map_append, List.nodup_append]
    refine ⟨hbooks.once, ?_, ?_⟩
    · cases slotOf op with
      | none => exact List.nodup_nil
      | some slot => exact List.nodup_singleton _
    · intro a ha b hb heq
      rcases List.mem_map.mp ha with ⟨x, hx, hxa⟩
      rcases List.mem_map.mp hb with ⟨y, hy, hyb⟩
      rcases Option.map_eq_some_iff.mp (Option.mem_toList.mp hy) with
        ⟨slot, _, hslot⟩
      have hlt := hbooks.numbers x hx
      rw [hxa, heq, ← hyb, ← hslot] at hlt
      exact Nat.lt_irrefl _ hlt
  · intro m hm
    rw [hended] at hm
    exact Nat.lt_succ_of_lt (hbooks.past m hm)
  · intro m hm
    rw [hended]
    rcases hm with hm | hm
    · rw [hm, Bool.eq_false_iff]
      exact fun hpast => Nat.lt_irrefl _ (hbooks.past _ hpast)
    · exact hbooks.gone m hm
  · intro x hx hopen
    rw [hended] at hopen
    rcases hcases x hx with hx | hx
    · exact Or.inr (hbooks.present x hx hopen)
    · exact Or.inl hx
  · intro x hx
    have hown := hbooks.owners x hx
    refine ⟨?_, Or.inr hown.2⟩
    rw [hasked]
    exact List.mem_append_left _ hown.1
  · intro m hm slot hmem hlive
    exact hplaced m slot ((hsame m slot hm).mp hmem)
      (hlive.resolve_left hm)
  · intro m hm
    exact ⟨fun _ => Iff.rfl, id, fun slot => hsame m slot hm⟩

theorem Done.leave (h : Done o n cs s0 s) (op : Op)
    (res : Except Thrown Value) :
    Inv o (cs.without n) (s.record (Entry.ended n op res)) ∧
      forall m, m ≠ n -> Relies m s0 (s.record (Entry.ended n op res)) := by
  rcases h with ⟨held, hmid, hout⟩
  have hasked : asked (s.record (Entry.ended n op res)).log = asked s.log :=
    (asked_snoc s.log (Entry.ended n op res)).trans (List.append_nil _)
  have hended : forall m, hasEnded (s.record (Entry.ended n op res)).log m =
      (hasEnded s.log m || n == m) :=
    hasEnded_snoc s.log (Entry.ended n op res)
  refine ⟨⟨held, { hmid.books with
    numbers := ?_
    once := ?_
    past := ?_
    gone := ?_
    present := ?_
    owners := ?_ }, ?_⟩, ?_⟩
  · rw [hasked]
    exact hmid.books.numbers
  · rw [hasked]
    exact hmid.books.once
  · intro m hm
    rw [hended, Bool.or_eq_true] at hm
    rcases hm with hm | hm
    · exact hmid.books.past m hm
    · rw [← beq_iff_eq.mp hm]
      exact hmid.ok n hmid.live
  · intro m hm
    rw [hended, hmid.books.gone m hm.2, Bool.false_or, beq_eq_false_iff_ne]
    exact fun heq => hm.1 heq.symm
  · intro x hx hopen
    rw [hasked] at hx
    rw [hended, Bool.or_eq_false_iff, beq_eq_false_iff_ne] at hopen
    exact ⟨fun heq => hopen.2 heq.symm, hmid.books.present x hx hopen.1⟩
  · intro x hx
    have hown := hmid.books.owners x hx
    rw [hasked]
    refine ⟨hown.1, ?_, hown.2⟩
    intro heq
    rw [← heq] at hout
    exact hout x.2 hx
  · intro m slot hmem hlive
    rw [hasked] at hmem
    exact hmid.placed m hlive.1 slot hmem hlive.2
  · intro m hm
    have hguar := hmid.guar m hm
    refine ⟨hguar.line, hguar.first, ?_⟩
    rw [hasked]
    exact hguar.asked

theorem owes_body (hok : cs.Ok) (h : Inv o cs s) (op : Op) :
    Owes o w cs.next (body o cs.next op) cs.enter s
      (s.record (Entry.entered cs.next op)) := by
  rcases Mid.enter hok h op with ⟨held, hmid, hlast⟩
  have hfresh : forall slot, slotOf op = some slot -> Fresh cs.next slot held
      (s.record (Entry.entered cs.next op)) := by
    intro slot hslot
    refine ⟨?_, hlast⟩
    show (cs.next, slot) ∈ asked (s.log ++ [Entry.entered cs.next op])
    rw [asked_snoc]
    apply List.mem_append_right
    rw [Option.mem_toList]
    exact Option.map_eq_some_iff.mpr ⟨slot, hslot, rfl⟩
  cases hop : slotOf op with
  | none =>
      have hnone : forall slot, (cs.next, slot) ∉
          asked (s.record (Entry.entered cs.next op)).log := by
        intro slot hmem
        change (cs.next, slot) ∈ asked (s.log ++ [Entry.entered cs.next op])
          at hmem
        have hasking : asking (Entry.entered cs.next op) = none :=
          congrArg (Option.map _) hop
        rw [asked_snoc, hasking] at hmem
        rcases h with ⟨_, hbooks, _⟩
        exact Nat.lt_irrefl _ (hbooks.numbers _ (List.append_nil _ ▸ hmem))
      refine wp_still (still_body o cs.next hop) hmid
        (fun slot hmem => absurd hmem (hnone slot)) ?_
      intro res ph cs' s0 s' held' hmid' _ hsame
      refine ⟨held', hmid', ?_⟩
      intro slot hmem
      exact hnone slot ((hsame slot).mp (hmid'.books.owners _ hmem).1)
  | some slot =>
      have hfresh := hfresh slot hop
      cases op with
      | bootstrap input =>
          cases hop
          exact owes_bootstrap hmid hfresh input
      | login username password address =>
          cases hop
          exact owes_login hmid hfresh username password address
      | setup password address =>
          cases hop
          exact owes_setup hmid hfresh password address
      | _ => cases hop

end Rules

theorem contract_sound (o : Options) (w : World) :
    (contract o).Sound (auth o (inOrder w)) := by
  constructor
  · exact fun _ n s => Relies.refl n s
  · exact fun h h' => h.trans h'
  · exact fun _ hne h => h _ fun heq => hne heq.symm
  · exact fun _ hne h => h _ fun heq => hne heq.symm
  · intro cs s s' hinv henv
    rcases henv with ⟨credentials, draining, _, hs'⟩
    rw [hs']
    rcases hinv with ⟨held, hbooks, hplaced⟩
    refine ⟨⟨held, { hbooks with line := hbooks.line }, hplaced⟩, ?_⟩
    exact fun _ m => ⟨fun _ => Iff.rfl, id, fun _ => Iff.rfl⟩
  · intro cs s op hok hinv _
    apply Prog.wp_mono _ (owes_body hok hinv op)
    intro res ph cs' s0 s' hdone
    exact hdone.leave op res

theorem Inv.initial (o : Options) (credentials : CredentialStore.State)
    (heap : Ref -> Stored) :
    Inv o ⟨0, fun _ => False⟩ (State.initial credentials heap) := by
  refine ⟨[], ⟨rfl, rfl, Int.natCast_nonneg _, Int.natCast_nonneg _, nofun,
    List.nodup_nil, nofun, nofun, nofun, nofun, List.nodup_nil, nofun,
    List.Pairwise.nil, nofun⟩, ?_⟩
  exact fun m slot hasked => nomatch hasked

/-!
## Runs
-/

theorem mem_inProgress {log : List Entry} {x : Nat × Slot} :
    x ∈ inProgress log <-> x ∈ asked log ∧ hasEnded log x.1 = false := by
  unfold inProgress
  rw [List.mem_filter, Bool.not_eq_true']

/-- The counters agree with the operations in progress.  Those in `line` are
not settled; of the others the settlement is known to nobody yet, and the first
to know it gives the places back. -/
structure Conserved (o : Options) (w : World) (s : State) : Prop where
  establishments :
    s.pendingEstablishments = ((inProgress s.log).length : Int)
  bounded : s.pendingEstablishments ≤ o.maxPendingEstablishments
  locals : s.pendingLocalAttempts =
    (((inProgress s.log).filter isLocal).length : Int)
  localsBounded : s.pendingLocalAttempts ≤ o.max
  unsettled : forall x, x ∈ s.line -> x ∈ inProgress s.log
  settled : forall x, x ∈ inProgress s.log -> x ∉ s.line ->
    (x.1, PortCall.settled) ∈ s.waiting ∧
      forall y, y ∈ s.line -> x.1 < y.1
  /-- In the order of admission. -/
  order : (s.line.map Prod.fst).Pairwise fun a b => a < b
  /-- An operation that is not first waits for its turn. -/
  turns : forall x, x ∈ s.line -> isFirst s x.1 = true ∨
    (x.1, PortCall.turn) ∈ s.waiting
  /-- Its turn can come when all that were admitted before it have been
  settled. -/
  next : forall x, x ∈ s.line ->
    ((auth o (inOrder w)).allowed s x.1 PortCall.turn () <->
      forall y, y ∈ inProgress s.log -> y.1 < x.1 -> y ∉ s.line)

theorem isFirst_iff {s : State} {x : Nat × Slot}
    (horder : (s.line.map Prod.fst).Pairwise fun a b => a < b)
    (hx : x ∈ s.line) :
    isFirst s x.1 = true <-> forall y, y ∈ s.line -> x.1 ≤ y.1 := by
  unfold isFirst
  cases hline : s.line with
  | nil =>
      rw [hline] at hx
      cases hx
  | cons z rest =>
      rw [hline, List.map_cons, List.pairwise_cons] at horder
      rw [hline] at hx
      have hhead : (List.head? (z :: rest)).map Prod.fst == some x.1 <->
          z.1 = x.1 := by
        simp
      have hmin : forall y, y ∈ z :: rest -> z.1 ≤ y.1 := by
        intro y hy
        rcases List.mem_cons.mp hy with hy | hy
        · exact Nat.le_of_eq (congrArg Prod.fst hy.symm)
        · exact Nat.le_of_lt (horder.1 y.1 (List.mem_map_of_mem hy))
      refine hhead.trans ⟨?_, ?_⟩
      · intro heq
        rw [← heq]
        exact hmin
      · intro h
        exact Nat.le_antisymm (hmin x hx) (h z List.mem_cons_self)

theorem Inv.conserved {o : Options} {w : World} {cs : Census} {s : State}
    (h : Inv o cs s) : Conserved o w s := by
  rcases h with ⟨held, hbooks, hplaced⟩
  have hmem : forall x, x ∈ held <-> x ∈ inProgress s.log := by
    intro x
    rw [mem_inProgress]
    constructor
    · intro hx
      have hown := hbooks.owners x hx
      exact ⟨hown.1, hbooks.gone x.1 hown.2⟩
    · intro hx
      exact (hplaced x.1 x.2 hx.1 (hbooks.present x hx.1 hx.2)).1
  have hnodup : (inProgress s.log).Nodup :=
    (List.Nodup.of_map Prod.fst hbooks.once).filter _
  have hperm : held.Perm (inProgress s.log) :=
    (List.perm_ext_iff_of_nodup (List.Nodup.of_map Prod.fst hbooks.distinct)
      hnodup).mpr hmem
  have hline : forall x, x ∈ s.line -> x ∈ inProgress s.log :=
    fun x hx => (hmem x).mp (hbooks.line x hx)
  have hlive : forall x, x ∈ inProgress s.log ->
      x ∈ asked s.log ∧ cs.live x.1 := by
    intro x hx
    exact hbooks.owners x ((hmem x).mpr hx)
  constructor
  · rw [hbooks.establishments, hperm.length_eq, Int.add_zero]
  · exact hbooks.bound
  · rw [hbooks.locals, (hperm.filter isLocal).length_eq, Int.add_zero]
  · exact hbooks.localBound
  · exact hline
  · intro x hx hout
    have hown := hlive x hx
    exact ⟨(hplaced x.1 x.2 hown.1 hown.2).2.2 hout,
      hbooks.early x ((hmem x).mpr hx) hout⟩
  · exact hbooks.order
  · intro x hx
    have hown := hlive x (hline x hx)
    exact (hplaced x.1 x.2 hown.1 hown.2).2.1 hx
  · intro x hx
    have hallowed : (auth o (inOrder w)).allowed s x.1 PortCall.turn () <->
        isFirst s x.1 = true :=
      ⟨fun h => h.1 rfl, fun h => ⟨fun _ => h, fun hne => absurd rfl hne⟩⟩
    rw [hallowed, isFirst_iff hbooks.order hx]
    constructor
    · intro hle y _ hlt hy
      exact Nat.lt_irrefl _ (Nat.lt_of_lt_of_le hlt (hle y hy))
    · intro hnone y hy
      rcases Nat.lt_or_ge y.1 x.1 with hlt | hge
      · exact absurd hy (hnone y (hline y hy) hlt)
      · exact hge

theorem admission_conserved {o : Options} {w : World}
    {credentials : CredentialStore.State} {heap : Ref -> Stored}
    {cfg : Config State ports Thrown Value Op}
    (hrun : Run o (inOrder w) credentials heap cfg) :
    Conserved o w cfg.shared :=
  (Reachable.ok (contract_sound o w) (Inv.initial o credentials heap)
    hrun).inv.conserved

/-!
Two bootstraps; the first one has had its turn, and its result is settled.
-/

def orderedScript :
    Script (auth sampleOptions (inOrder (freshWorld sampleOptions))) where
  reply s _ c := sampleReply s c
  fair s n c :=
    match c with
    | PortCall.turn => isFirst s n
    | PortCall.random size =>
        drawsFresh sampleOptions s
          (List.replicate size (UInt8.ofNat s.tokens.length))
    | _ => true
  admits _ _ := true
  nudge _ := none
  fair_allowed s n c h := by
    constructor
    · intro hc
      rw [hc] at h
      exact h
    · intro hne
      cases c with
      | turn => exact absurd rfl hne
      | random size => exact h
      | clock checked => trivial
      | csrfCreate => trivial
      | csrfVerify record supplied => trivial
      | consume address => trivial
      | resetAddress address => trivial
      | isInitialized => trivial
      | onDurabilityUncertain => trivial
      | startVerify username password => trivial
      | observer r k id reason => trivial
      | verification => trivial
      | enroll password => trivial
      | verify username password => trivial
      | replacePassword password => trivial
      | settled => trivial
  admits_sound _ _ _ := trivial
  nudge_env _ _ h := by cases h

def orderedRun : Option (Config State ports Thrown Value Op) :=
  orderedScript.play
    [Move.enter (Op.bootstrap UpstreamAuthentication.none),
      Move.enter (Op.bootstrap UpstreamAuthentication.none), Move.resume 0]
    (Config.initial (State.initial sampleCredentials fun _ => sampleCell))

theorem orderedRun_ends :
    orderedRun.map (fun cfg => decide
      (cfg.shared.pendingEstablishments = 2 ∧
        cfg.shared.line = [(1, Slot.bootstrap)])) = some true := by
  decide +kernel

theorem orderedRun_reachable :
    exists cfg, Run sampleOptions (inOrder (freshWorld sampleOptions))
        sampleCredentials (fun _ => sampleCell) cfg ∧
      cfg.shared.pendingEstablishments = 2 ∧
      cfg.shared.line = [(1, Slot.bootstrap)] := by
  have hsample := orderedRun_ends
  cases hrun : orderedRun with
  | none =>
      rw [hrun] at hsample
      cases hsample
  | some cfg =>
      rw [hrun] at hsample
      exact ⟨cfg, Script.play_reachable hrun,
        of_decide_eq_true (Option.some.inj hsample)⟩

theorem admission_conserved_ordered :
    exists cfg, Run sampleOptions (inOrder (freshWorld sampleOptions))
        sampleCredentials (fun _ => sampleCell) cfg ∧
      cfg.shared.line = [(1, Slot.bootstrap)] ∧
      (inProgress cfg.shared.log).length = 2 := by
  rcases orderedRun_reachable with ⟨cfg, hrun, hcount, hline⟩
  have hconserved := admission_conserved hrun
  have hlength := hconserved.establishments
  rw [hcount] at hlength
  exact ⟨cfg, hrun, hline, by omega⟩

/-- A place is still taken when the result of its operation has just been
settled. -/
theorem settled_holds_place :
    ¬ forall cfg, Run sampleOptions (inOrder (freshWorld sampleOptions))
        sampleCredentials (fun _ => sampleCell) cfg ->
      cfg.shared.pendingEstablishments = (cfg.shared.line.length : Int) := by
  intro h
  rcases orderedRun_reachable with ⟨cfg, hrun, hcount, hline⟩
  have hequal := h cfg hrun
  rw [hcount, hline] at hequal
  exact absurd hequal (by decide)

end Admission
end AuthService
end Server
end FlanTerminal

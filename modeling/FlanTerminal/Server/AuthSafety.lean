import FlanTerminal.Server.AuthEstablish

/-!
# Every operation of the authentication service keeps the contract

One lemma for each operation.  The operations that establish sessions never
accept anything; the others accept only a session that they have checked and
that is held at the end.
-/

namespace FlanTerminal
namespace Server
namespace AuthService

open Foundation
open CredentialStore (ReplaceResult EnrollmentResult)

section Rules

variable {o : Options} {w : World} {n : Nat} {value : Type}
variable {Q : Except Thrown value -> Phase -> Census -> State -> State -> Prop}
variable {ph : Phase} {cs : Census} {s0 s s1 : State}

/-!
## Answers
-/

def Ends (o : Options) (w : World) (n : Nat) (op : Op)
    (res : Except Thrown Value) (ph : Phase) (cs : Census) (s0 s : State) :
    Prop :=
  Mid o w ph n [] nothing cs s0 s ∧ Answered o s.log n op res

theorem answered_of_refused {log : List Entry} {op : Op}
    {res : Except Thrown Value}
    (h : forall v, res = Except.ok v -> accepted op v = false) :
    Answered o log n op res := by
  intro v hres haccepted
  rw [h v hres] at haccepted
  cases haccepted

/-- Operations that never accept a session. -/
theorem wp_ends_of_settled {op : Op} {p : Code Value}
    (hnever : forall v, accepted op v = false)
    (h : Wp o w n (Settled o w n) p ph cs s0 s) :
    Wp o w n (Ends o w n op) p ph cs s0 s := by
  apply Prog.wp_mono _ h
  intro res ph' cs' s0' s' hsettled
  exact ⟨hsettled, answered_of_refused (fun v _ => hnever v)⟩

/-- Session `r` is held and operation `n` has found it, and all others it has
checked, not expired. -/
structure Checked (n : Nat) (r : Ref) (s : State) : Prop where
  held : r ∈ s.sessions.held
  checked : CheckedBy n r s.log
  unfailed : Unfailed n s.log

theorem Checked.congr {r : Ref} {s' : State} (h : Checked n r s)
    (hs : SameCore s s') : Checked n r s' := by
  constructor
  · rw [hs.sessions]
    exact h.held
  · rw [hs.log]
    exact h.checked
  · rw [hs.log]
    exact h.unfailed

theorem unfailed_checked (n : Nat) (r : Ref) (t : ℚ) :
    Unfailed n [Entry.checked n r t true] := by
  intro r' t' hmem
  cases List.mem_singleton.mp hmem

theorem Base.cell {next : Nat} {r : Ref} (h : Base o w next s)
    (hr : r ∈ s.sessions.held) :
    exists cookie cell, cellIn r s.log = some (cookie, cell) ∧
      Same o s.log r (s.sessions.heap r) cell ∧
      (s.sessions.heap r).digest = o.hash cookie := by
  have hborn := (h.history.born r).mp (h.rep.placed r hr)
  rcases Option.isSome_iff_exists.mp hborn with ⟨⟨cookie, cell⟩, hcell⟩
  exact ⟨cookie, cell, hcell, h.history.same r cookie cell hcell,
    h.history.digest r cookie cell hcell hr⟩

theorem Checked.answered {next : Nat} {r : Ref} {op : Op}
    {res : Except Thrown Value} {cookie : JsString} {cell : Stored}
    (h : Checked n r s) (hbase : Base o w next s)
    (hcell : cellIn r s.log = some (cookie, cell))
    (haddresses : addresses o op cookie cell)
    (hop : isPasswordChange op = false) : Answered o s.log n op res := by
  intro v _ _
  refine ⟨r, cookie, cell, hcell, haddresses, h.checked, h.unfailed, ?_, ?_⟩
  · intro _
    exact (hbase.history.kept r (hbase.rep.placed r h.held)).mp h.held
  · intro hpassword
    rw [hop] at hpassword
    cases hpassword

theorem wp_check {op : Op} {r : Ref} {failed : Value} {k : Code Value}
    (h : Mid o w ph n [] nothing cs s0 s) (hun : Unfailed n s.log)
    (hr : r ∈ s.sessions.held) (hrefused : accepted op failed = false)
    (hk : forall s', Mid o w ph n [] nothing cs s0 s' -> Checked n r s' ->
      s'.sessions = s.sessions -> (exists more, s'.log = s.log ++ more) ->
      Wp o w n (Ends o w n op) k ph cs s0 s') :
    Wp o w n (Ends o w n op) (ifLive n r failed k) ph cs s0 s := by
  apply wp_ifLive h hr
  · intro res ph' cs' s0' s' hres hmid
    refine ⟨hmid, answered_of_refused ?_⟩
    intro v hv
    rcases hres with hres | hres
    · rw [hres] at hv
      cases hv
      exact hrefused
    · rw [hres] at hv
      cases hv
  · intro t hmid
    apply hk _ hmid _ rfl
    · exact ⟨[Entry.checked n r t true], rfl⟩
    · refine ⟨hr, ⟨t, List.mem_append_right _ List.mem_cons_self⟩, ?_⟩
      exact hun.append (unfailed_checked n r t)

theorem ends_refused {op : Op} {v : Value}
    (h : Mid o w ph n [] nothing cs s0 s) (hrefused : accepted op v = false) :
    Ends o w n op (Except.ok v) ph cs s0 s := by
  refine ⟨h, answered_of_refused ?_⟩
  intro v' hv'
  cases hv'
  exact hrefused

theorem ends_failed {op : Op} {e : Thrown}
    (h : Mid o w ph n [] nothing cs s0 s) :
    Ends o w n op (Except.error e) ph cs s0 s :=
  ⟨h, answered_of_refused (fun _ hv => by cases hv)⟩

/-!
## Operations on one session
-/

theorem wp_withCookie {op : Op} {raw : Option JsString}
    {answer : Stored -> Value} (h : Mid o w ph n [] nothing cs s0 s)
    (hun : Unfailed n s.log) (hrefused : accepted op Value.undefined = false)
    (hop : isPasswordChange op = false)
    (haddresses : forall c cookie cell, raw = some c ->
      o.hash c = o.hash cookie -> addresses o op cookie cell) :
    Wp o w n (Ends o w n op) (withCookie o n raw answer) ph cs s0 s := by
  unfold withCookie
  cases raw with
  | none => exact ends_refused h hrefused
  | some c =>
      simp only
      split
      · exact ends_refused h hrefused
      · simp only [Prog.read_bind, Prog.wp_act, id]
        cases hget : s.sessions.byDigest.get (o.hash c) with
        | none => exact ends_refused h hrefused
        | some r =>
            rcases h.base.rep.get_byDigest hget with ⟨hr, hdigest⟩
            apply wp_check h hun hr hrefused
            intro s' hmid hchecked hsessions _
            rcases hmid.base.cell hchecked.held with
              ⟨cookie, cell, hcell, _, hcookie⟩
            refine ⟨hmid, hchecked.answered hmid.base hcell ?_ hop⟩
            apply haddresses c cookie cell rfl
            rw [← hdigest, ← hsessions]
            exact hcookie

theorem wp_authenticateCookie {raw : Option JsString}
    (h : Mid o w ph n [] nothing cs s0 s) (hun : Unfailed n s.log) :
    Wp o w n (Ends o w n (Op.authenticateCookie raw))
      (authenticateCookie o n raw) ph cs s0 s := by
  apply wp_withCookie h hun rfl rfl
  intro c cookie cell hraw hhash
  exact ⟨c, hraw, hhash⟩

theorem wp_authenticateAuthority {raw : Option JsString}
    (h : Mid o w ph n [] nothing cs s0 s) (hun : Unfailed n s.log) :
    Wp o w n (Ends o w n (Op.authenticateAuthority raw))
      (authenticateAuthority o n raw) ph cs s0 s := by
  apply wp_withCookie h hun rfl rfl
  intro c cookie cell hraw hhash
  exact ⟨c, hraw, hhash⟩

/-- What an operation that looks a session up by its id knows of it. -/
structure Found (o : Options) (w : World) (n : Nat) (id : JsString) (r : Ref)
    (cookie : JsString) (cell : Stored) (s : State) : Prop where
  checked : Checked n r s
  born : cellIn r s.log = some (cookie, cell)
  same : Same o s.log r (s.sessions.heap r) cell
  id : cell.id = id

theorem wp_find {op : Op} {id : JsString} {r : Ref} {failed : Value}
    {k : Code Value} (h : Mid o w ph n [] nothing cs s0 s)
    (hun : Unfailed n s.log) (hget : s.sessions.byId.get id = some r)
    (hrefused : accepted op failed = false)
    (hk : forall s' cookie cell, Mid o w ph n [] nothing cs s0 s' ->
      Found o w n id r cookie cell s' -> s'.sessions = s.sessions ->
      (exists more, s'.log = s.log ++ more) ->
      Wp o w n (Ends o w n op) k ph cs s0 s') :
    Wp o w n (Ends o w n op) (ifLive n r failed k) ph cs s0 s := by
  rcases h.base.rep.get_byId hget with ⟨hr, hid⟩
  apply wp_check h hun hr hrefused
  intro s' hmid hchecked hsessions hlog
  rcases hmid.base.cell hchecked.held with ⟨cookie, cell, hcell, hsame, _⟩
  apply hk s' cookie cell hmid _ hsessions hlog
  refine ⟨hchecked, hcell, hsame, ?_⟩
  rw [← hsame.id, hsessions]
  exact hid

theorem wp_isActiveAuthority {id : JsString} {generation : Nat}
    (h : Mid o w ph n [] nothing cs s0 s) (hun : Unfailed n s.log) :
    Wp o w n (Ends o w n (Op.isActiveAuthority id generation))
      (isActiveAuthority n id generation) ph cs s0 s := by
  unfold isActiveAuthority
  simp only [Prog.read_bind, Prog.wp_act, id_eq]
  cases hget : s.sessions.byId.get id with
  | none => exact ends_refused h rfl
  | some r =>
      simp only
      split
      · exact ends_refused h rfl
      · rename_i hgeneration
        rw [not_not] at hgeneration
        apply wp_find h hun hget rfl
        intro s' cookie cell hmid hfound hsessions _
        refine ⟨hmid, hfound.checked.answered hmid.base hfound.born ?_ rfl⟩
        refine ⟨hfound.id.symm, ?_⟩
        rw [← hfound.same.generation, hsessions]
        exact hgeneration.symm

theorem Found.congr {id : JsString} {r : Ref} {cookie : JsString}
    {cell : Stored} {s' : State} (h : Found o w n id r cookie cell s)
    (hs : SameCore s s') : Found o w n id r cookie cell s' := by
  refine ⟨h.checked.congr hs, ?_, ?_, h.id⟩
  · rw [hs.log]
    exact h.born
  · rw [hs.log, hs.sessions]
    exact h.same

theorem wp_markSeen {id : JsString} {r : Ref} {cookie : JsString}
    {cell : Stored} {g : Unit -> Code value}
    (h : Mid o w ph n [] nothing cs s0 s)
    (hfound : Found o w n id r cookie cell s)
    (hfail : forall s', Mid o w ph n [] nothing cs s0 s' ->
      Q (Except.error Thrown.AuthServiceError) ph cs s0 s')
    (hg : forall s', Mid o w ph n [] nothing cs s0 s' -> Checked n r s' ->
      cellIn r s'.log = some (cookie, cell) ->
      Wp o w n Q (g ()) ph cs s0 s') :
    Wp o w n Q (markSeen o n r >>= g) ph cs s0 s := by
  apply Prog.wp_bind.mpr
  unfold markSeen
  apply wp_now
  · intro s' hs
    exact hfail s' (h.congr hs)
  intro sA t hsA
  have hA := h.congr hsA
  have hfoundA := hfound.congr hsA
  have hbase := hA.base.touched t
    ⟨hfoundA.checked.checked, hfoundA.checked.unfailed⟩ hA.known
  have hmid := hA.step hbase rfl rfl (hA.mine.quiet rfl) (fun _ _ hr => hr)
  apply hg _ hmid
  · refine ⟨hfoundA.checked.held, hfoundA.checked.checked.append _, ?_⟩
    apply hfoundA.checked.unfailed.append
    intro r' t' hmem
    cases List.mem_singleton.mp hmem
  · exact cellIn_append hfoundA.born _

theorem wp_touchAuthority {id : JsString} {generation : Nat}
    {activity : Activity} (h : Mid o w ph n [] nothing cs s0 s)
    (hun : Unfailed n s.log) :
    Wp o w n (Ends o w n (Op.touchAuthority id generation activity))
      (touchAuthority o n id generation activity) ph cs s0 s := by
  unfold touchAuthority
  split
  · exact ends_refused h rfl
  simp only [Prog.read_bind, Prog.wp_act, id_eq]
  cases hget : s.sessions.byId.get id with
  | none => exact ends_refused h rfl
  | some r =>
      simp only
      split
      · exact ends_refused h rfl
      · rename_i hgeneration
        rw [not_not] at hgeneration
        apply wp_find h hun hget rfl
        intro sA cookie cell hA hfound hsessions _
        have haddresses : addresses o
            (Op.touchAuthority id generation activity) cookie cell := by
          refine ⟨hfound.id.symm, ?_⟩
          rw [← hfound.same.generation, hsessions]
          exact hgeneration.symm
        apply wp_markSeen hA hfound
        · intro s' hmid
          exact ends_failed hmid
        · intro s' hmid hchecked hcell
          exact ⟨hmid, hchecked.answered hmid.base hcell haddresses rfl⟩

theorem wp_touch {id : JsString} {activity : Activity}
    (h : Mid o w ph n [] nothing cs s0 s) (hun : Unfailed n s.log) :
    Wp o w n (Ends o w n (Op.touch id activity)) (touch o n id activity)
      ph cs s0 s := by
  unfold touch
  split
  · exact ends_refused h rfl
  simp only [Prog.read_bind, Prog.wp_act, id_eq]
  cases hget : s.sessions.byId.get id with
  | none => exact ends_refused h rfl
  | some r =>
      apply wp_find h hun hget rfl
      intro sA cookie cell hA hfound _ _
      apply wp_markSeen hA hfound
      · intro s' hmid
        exact ends_failed hmid
      · intro s' hmid _ _
        exact ends_refused hmid rfl

theorem Mid.setCsrf {owed : List Ref} {due : Ref -> List Nat}
    (h : Mid o w ph n owed due cs s0 s) (r : Ref) (record : CsrfRecord) :
    Mid o w ph n owed due cs s0
      (s.onSessions (Sessions.write · r (Stored.setCsrf record))) :=
  ⟨h.base.setCsrf r record, h.debts, h.mine, h.guar, h.live, h.known⟩

theorem wp_resume {id : JsString} (h : Mid o w ph n [] nothing cs s0 s)
    (hun : Unfailed n s.log) :
    Wp o w n (Ends o w n (Op.resume id)) (resume n id) ph cs s0 s := by
  unfold resume
  simp only [Prog.read_bind, Prog.wp_act, id_eq]
  cases hget : s.sessions.byId.get id with
  | none => exact ends_refused h rfl
  | some r =>
      apply wp_find h hun hget rfl
      intro sA cookie cell hA hfound _ _
      apply wp_csrfCreate
      · intro s' hs
        exact ends_failed (hA.congr hs)
      intro sB issued hsB
      have hB := hA.congr hsB
      have hfoundB := hfound.congr hsB
      simp only [Prog.wp_act, id_eq]
      split
      · have hC := hB.setCsrf r issued.2
        refine ⟨hC, ?_⟩
        have hchecked : Checked n r (sB.onSessions
            (Sessions.write · r (Stored.setCsrf issued.2))) :=
          ⟨hfoundB.checked.held, hfoundB.checked.checked,
            hfoundB.checked.unfailed⟩
        exact hchecked.answered hC.base hfoundB.born hfoundB.id.symm rfl
      · exact ends_failed hB

theorem wp_verifyCsrf {id : JsString} {supplied : Option JsString}
    (h : Mid o w ph n [] nothing cs s0 s) (hun : Unfailed n s.log) :
    Wp o w n (Ends o w n (Op.verifyCsrf id supplied))
      (verifyCsrf n id supplied) ph cs s0 s := by
  unfold verifyCsrf
  simp only [Prog.read_bind, Prog.wp_act, id_eq]
  cases hget : s.sessions.byId.get id with
  | none => exact ends_refused h rfl
  | some r =>
      apply wp_find h hun hget rfl
      intro sA cookie cell hA hfound _ _
      simp only [Prog.wp_act, id_eq]
      apply wp_at_once rfl rfl
      intro sB b hsB
      have hB := hA.congr hsB
      have hfoundB := hfound.congr hsB
      cases b with
      | none => exact ends_failed hB
      | some b =>
          exact ⟨hB, hfoundB.checked.answered hB.base hfoundB.born
            hfoundB.id.symm rfl⟩

theorem wp_extend {id : JsString} {r : Ref} {cookie : JsString}
    {cell : Stored} {upstream : UpstreamIdentity} {expiresAt : ℚ}
    (h : Mid o w ph n [] nothing cs s0 s)
    (hfound : Found o w n id r cookie cell s)
    (hentered : Entry.entered n (Op.refresh id upstream) ∈ s.log)
    (hmode : upstream.mode = cell.mode)
    (hvalid : validateIdentity o upstream =
      some (cell.identityLabel, some expiresAt)) :
    Wp o w n (Ends o w n (Op.refresh id upstream)) (extend n r expiresAt)
      ph cs s0 s := by
  unfold extend
  apply wp_now
  · intro s' hs
    exact ends_failed (h.congr hs)
  intro sA t hsA
  have hA := h.congr hsA
  have hfoundA := hfound.congr hsA
  rw [← hsA.log] at hentered
  simp only [Prog.read_bind, Prog.wp_act, id_eq]
  split
  · exact ends_refused hA rfl
  · rename_i hlater
    rw [not_or, not_le, Bool.not_eq_true] at hlater
    have hextends : Extends o sA.log n r t expiresAt := by
      refine ⟨cookie, cell, upstream, hfoundA.born, ?_, hmode, hvalid,
        hlater.1, ?_⟩
      · rw [hfoundA.id]
        exact hentered
      · intro u hu
        rw [hfoundA.same.upstream] at hu
        have hlt := hlater.2
        unfold Stored.reaches at hlt
        rw [hu] at hlt
        exact not_le.mp (of_decide_eq_false hlt)
    have hbase := hA.base.refreshed
      ⟨hfoundA.checked.checked, hfoundA.checked.unfailed⟩ hextends hA.known
    have hmid := hA.step hbase rfl rfl (hA.mine.quiet rfl) (fun _ _ hr => hr)
    refine ⟨hmid, ?_⟩
    have hchecked : Checked n r
        ((sA.onSessions (Sessions.write · r
          (Stored.refresh expiresAt))).record
            (Entry.refreshed n r t expiresAt)) := by
      refine ⟨hfoundA.checked.held, hfoundA.checked.checked.append _, ?_⟩
      apply hfoundA.checked.unfailed.append
      intro r' t' hmem
      cases List.mem_singleton.mp hmem
    exact hchecked.answered hbase (cellIn_append hfoundA.born _)
      hfoundA.id.symm rfl

theorem wp_refresh {id : JsString} {upstream : UpstreamIdentity}
    (h : Mid o w ph n [] nothing cs s0 s) (hun : Unfailed n s.log)
    (hentered : Entry.entered n (Op.refresh id upstream) ∈ s.log) :
    Wp o w n (Ends o w n (Op.refresh id upstream)) (refresh o n id upstream)
      ph cs s0 s := by
  unfold refresh
  simp only [Prog.read_bind, Prog.wp_act, id_eq]
  cases hget : s.sessions.byId.get id with
  | none => exact ends_refused h rfl
  | some r =>
      apply wp_find h hun hget rfl
      rintro sA cookie cell hA hfound _ ⟨more, hlog⟩
      have henteredA : Entry.entered n (Op.refresh id upstream) ∈ sA.log := by
        rw [hlog]
        exact List.mem_append_left _ hentered
      simp only [Prog.wp_act, id_eq]
      split
      · exact ends_refused hA rfl
      · cases hvalid : validateIdentity o upstream with
        | none => exact ends_refused hA rfl
        | some pair =>
            rcases pair with ⟨label, expiresAt⟩
            simp only
            split
            · exact ends_refused hA rfl
            · rename_i hidentity
              rw [not_or, not_not, not_not] at hidentity
              rw [hfound.same.mode, hfound.same.identityLabel] at hidentity
              cases expiresAt with
              | none =>
                  simp only
                  split
                  · exact ⟨hA, hfound.checked.answered hA.base hfound.born
                      hfound.id.symm rfl⟩
                  · exact ends_refused hA rfl
              | some e =>
                  rw [hidentity.2] at hvalid
                  exact wp_extend hA hfound henteredA hidentity.1 hvalid

theorem wp_logout {id : JsString} (h : Mid o w ph n [] nothing cs s0 s) :
    Wp o w n (Settled o w n) (logout n id) ph cs s0 s := by
  unfold logout
  simp only [Prog.read_bind, Prog.wp_act, id_eq]
  cases hget : s.sessions.byId.get id with
  | none => exact h
  | some r =>
      have hr := (h.base.rep.get_byId hget).1
      apply Prog.wp_bind.mpr
      apply Prog.wp_mono _ (wp_revoke h (h.base.apart hr) (Since.refl n s))
      rintro res ph' cs' s0' s' ⟨⟨hres, hmid, _⟩, _⟩
      rw [hres]
      exact hmid

/-!
## Operations on several sessions

The loops run over the sessions held when they begin.  An observer can remove
sessions meanwhile but not add any, so the id of a session still to come leads
to that session or to none.
-/

theorem Apart.of_held {next : Nat} {r : Ref}
    (hbase : Base o w next s1) (hr : r ∈ s1.sessions.held)
    (h : Mid o w ph n [] nothing cs s0 s) (hsince : Fewer s1 s) :
    Apart r s :=
  (hbase.apart hr).since hbase h.base hsince (hbase.rep.placed r hr)

theorem wp_revokeEach {next : Nat} {reason : RevocationReason}
    {refs : List Ref} (hbase : Base o w next s1)
    (hrefs : forall r, r ∈ refs -> r ∈ s1.sessions.held)
    (h : Mid o w ph n [] nothing cs s0 s) (hfewer : Fewer s1 s) :
    Wp o w n (fun res ph cs s0 s' => Told o w n [] s res ph cs s0 s' ∧
      forall r, r ∈ refs -> r ∉ s'.sessions.held)
      (revokeEach n reason refs) ph cs s0 s := by
  induction refs generalizing ph cs s0 s with
  | nil =>
      exact ⟨⟨rfl, h, Since.refl n s⟩, fun _ hr => absurd hr List.not_mem_nil⟩
  | cons r rest ih =>
      have hapart := Apart.of_held hbase (hrefs r List.mem_cons_self) h hfewer
      unfold revokeEach
      apply Prog.wp_bind.mpr
      apply Prog.wp_mono _ (wp_revoke h hapart (Since.refl n s))
      rintro res ph' cs' s0' s' ⟨⟨hres, hmid, hsince⟩, hgone⟩
      rw [hres]
      apply Prog.wp_mono _
        (ih (fun x hx => hrefs x (List.mem_cons_of_mem r hx)) hmid
          (hfewer.trans hsince.fewer))
      rintro res' phA csA sA0 sA ⟨⟨hres', hA, hsince'⟩, hrest⟩
      refine ⟨⟨hres', hA, hsince.trans hsince'⟩, ?_⟩
      intro x hx hheld
      rcases List.mem_cons.mp hx with hx | hx
      · rw [hx] at hheld
        exact hgone (hsince'.held r hheld)
      · exact hrest x hx hheld

theorem wp_sweepEach {next : Nat} {refs : List Ref} (hbase : Base o w next s1)
    (hrefs : forall r, r ∈ refs -> r ∈ s1.sessions.held)
    (h : Mid o w ph n [] nothing cs s0 s) (hsince : Fewer s1 s) :
    Wp o w n (Settled o w n) (sweepEach n refs) ph cs s0 s := by
  induction refs generalizing ph cs s0 s with
  | nil => exact h
  | cons r rest ih =>
      have hr := hrefs r List.mem_cons_self
      have hrest : forall x, x ∈ rest -> x ∈ s1.sessions.held :=
        fun x hx => hrefs x (List.mem_cons_of_mem r hx)
      rcases hbase.cell hr with ⟨cookie, cell, hcell, _⟩
      rcases hsince.log with ⟨more, hmore⟩
      have hcell' : cellIn r s.log = some (cookie, cell) := by
        rw [hmore]
        exact cellIn_append hcell more
      unfold sweepEach
      apply wp_expiredReason h hcell'
      · exact h
      · intro t reason hmid
        have hsince' : Fewer s1
            (s.record (Entry.checked n r t reason.isNone)) := by
          apply hsince.trans
          constructor
          · exact ⟨[Entry.checked n r t reason.isNone], rfl⟩
          · intro x hx
            exact hx
        cases reason with
        | none => exact ih hrest hmid hsince'
        | some reason =>
            have hapart := Apart.of_held hbase hr hmid hsince'
            apply Prog.wp_bind.mpr
            apply Prog.wp_mono _ (wp_revoke hmid hapart (Since.refl n _))
            rintro res ph' cs' s0' s'' ⟨⟨hres, hmid', hsince''⟩, _⟩
            rw [hres]
            exact ih hrest hmid' (hsince'.trans hsince''.fewer)

theorem wp_sweepExpired (h : Mid o w ph n [] nothing cs s0 s) :
    Wp o w n (Settled o w n) (sweepExpired o n) ph cs s0 s := by
  unfold sweepExpired
  simp only [Prog.read_bind, Prog.wp_act, id_eq]
  apply wp_settled_bind
  · apply wp_sweepEach h.base _ h (Fewer.refl s)
    intro r hr
    exact (List.mergeSort_perm _ _).mem_iff.mp hr
  · intro _ ph' cs' s0' s' hmid
    exact hmid

/-!
## Operations that wait
-/

def Counts (o : Options) (w : World) (n : Nat) (q : Code Unit) : Prop :=
  forall (Q : Except Thrown Unit -> Phase -> Census -> State -> State -> Prop)
    ph cs s0 s, (forall s', SameCore s s' -> Q (Except.ok ()) ph cs s0 s') ->
    Wp o w n Q q ph cs s0 s

/-- What is attached with `finally` to an operation.  Others may write to the
log before it runs. -/
theorem wp_thenFinally {p : Code value} {q : Code Unit}
    {R : Except Thrown value -> List Entry -> Prop} (hq : Counts o w n q)
    (hR : forall res log more, (forall e, e ∈ more -> e.by ≠ n) ->
      R res log -> R res (log ++ more))
    (hp : Wp o w n (fun res ph cs s0 s =>
      Mid o w ph n [] nothing cs s0 s ∧ R res s.log) p ph cs s0 s) :
    Wp o w n (fun res ph cs s0 s =>
      Mid o w ph n [] nothing cs s0 s ∧ R res s.log) (thenFinally p q)
        ph cs s0 s := by
  apply Prog.wp_always.mpr
  apply Prog.wp_mono _ hp
  rintro res ph' cs' s0' s' ⟨hmid, hres⟩
  apply wp_wait rfl hmid
  rintro csA sA0 sA _ hA ⟨more, hmore, hlog, _⟩
  apply hq
  intro sB hs
  refine ⟨hA.congr hs, ?_⟩
  rw [hs.log, hlog rfl]
  exact hR res s'.log more hmore hres

theorem wp_finally_settled {p : Code value} {q : Code Unit}
    (hq : Counts o w n q) (hp : Wp o w n (Settled o w n) p ph cs s0 s) :
    Wp o w n (Settled o w n) (thenFinally p q) ph cs s0 s := by
  have hends : Wp o w n (fun res ph cs s0 s =>
      Mid o w ph n [] nothing cs s0 s ∧ True) p ph cs s0 s := by
    apply Prog.wp_mono _ hp
    intro res ph' cs' s0' s' hmid
    exact ⟨hmid, trivial⟩
  apply Prog.wp_mono _
    (wp_thenFinally (R := fun _ _ => True) hq (fun _ _ _ _ _ => trivial) hends)
  intro res ph' cs' s0' s' hmid
  exact hmid.1

theorem counts_modify {f : State -> State} (hf : forall s, SameCore s (f s)) :
    Counts o w n (Prog.modify f) := by
  intro Q ph cs s0 s hQ
  exact hQ (f s) (hf s)

theorem counts_releaseEstablishment : Counts o w n releaseEstablishment :=
  counts_modify fun _ => ⟨rfl, rfl, rfl, rfl, rfl⟩

theorem counts_releaseLocal : Counts o w n releaseLocal := by
  intro Q ph cs s0 s hQ
  exact hQ _ ⟨rfl, rfl, rfl, rfl, rfl⟩

theorem wp_inTurn {operation : Code value}
    (h : Mid o w ph n [] nothing cs s0 s)
    (hop : forall cs s0 s, Mid o w Phase.later n [] nothing cs s0 s ->
      Wp o w n (Settled o w n) operation Phase.later cs s0 s) :
    Wp o w n (Settled o w n) (inTurn operation) ph cs s0 s := by
  unfold inTurn
  apply wp_wait rfl h
  intro cs' s0' s' _ hmid _
  apply Prog.wp_always.mpr
  apply Prog.wp_mono _ (hop cs' s0' s' hmid)
  intro res ph' cs'' s0'' s'' hsettled
  exact Mid.congr hsettled ⟨rfl, rfl, rfl, rfl, rfl⟩

theorem wp_localBootstrap {required : Option Bool}
    {g : AuthBootstrap -> Code value} (h : Mid o w ph n [] nothing cs s0 s)
    (hg : forall b s', Mid o w ph n [] nothing cs s0 s' ->
      Wp o w n (Settled o w n) (g b) ph cs s0 s') :
    Wp o w n (Settled o w n) (localBootstrap o required >>= g)
      ph cs s0 s := by
  cases required with
  | some b => exact hg _ s h
  | none =>
      apply wp_at_once rfl rfl
      intro s' r hs
      cases r with
      | none => exact h.congr hs
      | some initialized => exact hg _ s' (h.congr hs)

theorem wp_established {mode : AuthMode} {label : JsString}
    {upstreamExpiresAt : Option ℚ} {beforeCommit : Code Unit}
    (hbrief : Brief o w n beforeCommit)
    (h : Mid o w Phase.later n [] nothing cs s0 s) :
    Wp o w n (Settled o w n) (do
      let r ← safeEstablish o n mode label upstreamExpiresAt beforeCommit
      pure (Value.result r)) Phase.later cs s0 s := by
  apply wp_settled_bind (wp_safeEstablish hbrief h)
  intro r ph' cs' s0' s' hmid
  exact hmid

theorem wp_establishIdentity {mode : AuthMode} {identity : UpstreamIdentity}
    (h : Mid o w Phase.later n [] nothing cs s0 s) :
    Wp o w n (Settled o w n)
      (establishIdentity o n mode identity) Phase.later cs s0 s := by
  unfold establishIdentity
  split
  · exact h
  · cases validateIdentity o identity with
    | none => exact h
    | some pair =>
        rcases pair with ⟨label, expiresAt⟩
        cases expiresAt with
        | none =>
            simp only [need, Prog.pure_eq, Prog.ret_bind]
            split
            · exact h
            · exact wp_established (brief_pure o w n) h
        | some e =>
            apply wp_now
            · intro s' hs
              exact h.congr hs
            intro s' t hs
            split
            · exact h.congr hs
            · exact wp_established (brief_pure o w n) (h.congr hs)

theorem wp_establishUpstream {input : UpstreamAuthentication}
    (h : Mid o w Phase.later n [] nothing cs s0 s) :
    Wp o w n (Settled o w n) (establishUpstream o n input)
      Phase.later cs s0 s := by
  unfold establishUpstream
  split
  · apply wp_localBootstrap h
    intro b s' hmid
    exact hmid
  · exact wp_established (brief_pure o w n) h
  · exact h
  · exact h
  · exact h
  · exact wp_establishIdentity h

theorem wp_reserveEstablishment {g : Bool -> Code value}
    (hg : forall reserved s', SameCore s s' ->
      Wp o w n Q (g reserved) ph cs s0 s') :
    Wp o w n Q (reserveEstablishment o >>= g) ph cs s0 s := by
  unfold reserveEstablishment
  simp only [Prog.read_bind, Prog.act_bind, Prog.wp_act, id_eq]
  split
  · exact hg false s (SameCore.refl s)
  · exact hg true _ ⟨rfl, rfl, rfl, rfl, rfl⟩

theorem wp_reserveTurn {slot : Slot} {g : Unit -> Code value}
    (hg : forall s', SameCore s s' -> Wp o w n Q (g ()) ph cs s0 s') :
    Wp o w n Q (reserveTurn n slot >>= g) ph cs s0 s :=
  hg _ ⟨rfl, rfl, rfl, rfl, rfl⟩

theorem wp_bootstrap {input : UpstreamAuthentication}
    (h : Mid o w ph n [] nothing cs s0 s) :
    Wp o w n (Settled o w n) (bootstrap o n input) ph cs s0 s := by
  apply wp_reserveEstablishment
  intro reserved sA hsA
  cases reserved with
  | false => exact h.congr hsA
  | true =>
      apply wp_reserveTurn
      intro sB hsB
      apply wp_finally_settled counts_releaseEstablishment
      apply wp_inTurn ((h.congr hsA).congr hsB)
      intro cs' s0' s' hmid
      exact wp_establishUpstream hmid

theorem wp_completeLoginSlot {label address : JsString}
    (h : Mid o w ph n [] nothing cs s0 s) :
    Wp o w n (Settled o w n) (completeLoginSlot o n label address)
      ph cs s0 s := by
  unfold completeLoginSlot
  apply wp_wait rfl h
  intro cs' s0' s' r hmid _
  cases r with
  | failed => exact hmid
  | ok valid =>
      cases valid with
      | false => exact hmid
      | true => exact wp_established (brief_resetLimiter o w n address) hmid

theorem wp_verifyAndEstablish {username password label address : JsString}
    (h : Mid o w ph n [] nothing cs s0 s) :
    Wp o w n (Settled o w n)
      (verifyAndEstablish o n username password label address)
      ph cs s0 s := by
  have hslot : forall s', Mid o w ph n [] nothing cs s0 s' ->
      Wp o w n (Settled o w n)
        (thenFinally (inTurn (completeLoginSlot o n label address))
          releaseLocal) ph cs s0 s' := by
    intro s' hmid
    apply wp_finally_settled counts_releaseLocal
    apply wp_inTurn hmid
    intro csA sA0 sA hA
    exact wp_completeLoginSlot hA
  apply wp_reserveTurn
  intro sA hsA
  apply wp_at_once rfl rfl
  intro sB r hsB
  have hB := (h.congr hsA).congr hsB
  cases r with
  | value valid => exact hslot _ (hB.congr ⟨rfl, rfl, rfl, rfl, rfl⟩)
  | promise => exact hslot _ hB
  | threw => exact hslot _ (hB.congr ⟨rfl, rfl, rfl, rfl, rfl⟩)

theorem wp_consumeAndVerify {username password label address : JsString}
    (h : Mid o w ph n [] nothing cs s0 s) :
    Wp o w n (Settled o w n)
      (consumeAndVerify o n username password label address) ph cs s0 s := by
  apply wp_at_once rfl rfl
  intro s' r hs
  have hmid := h.congr hs
  cases r with
  | none => exact hmid.congr ⟨rfl, rfl, rfl, rfl, rfl⟩
  | some allowed =>
      cases allowed with
      | false => exact hmid.congr ⟨rfl, rfl, rfl, rfl, rfl⟩
      | true =>
          exact wp_verifyAndEstablish (hmid.congr ⟨rfl, rfl, rfl, rfl, rfl⟩)

theorem wp_attemptLogin {username password address : JsString}
    (h : Mid o w ph n [] nothing cs s0 s) :
    Wp o w n (Settled o w n) (attemptLogin o n username password address)
      ph cs s0 s := by
  unfold attemptLogin
  simp only [Prog.read_bind, Prog.wp_act, id_eq]
  split
  · exact h
  · apply wp_reserveEstablishment
    intro reserved s' hs
    have hmid := h.congr hs
    cases reserved with
    | false => exact hmid
    | true =>
        cases normalizeLabel o username with
        | none => exact hmid.congr ⟨rfl, rfl, rfl, rfl, rfl⟩
        | some label => exact wp_consumeAndVerify hmid

theorem wp_login {username password address : JsString}
    (h : Mid o w ph n [] nothing cs s0 s) :
    Wp o w n (Settled o w n) (login o n username password address)
      ph cs s0 s := by
  unfold login
  split
  · exact h
  apply wp_at_once rfl rfl
  intro s' r hs
  have hmid := h.congr hs
  cases r with
  | none => exact hmid
  | some initialized =>
      cases initialized with
      | false => exact hmid
      | true => exact wp_attemptLogin hmid

theorem wp_completeSetup {password address : JsString}
    (h : Mid o w ph n [] nothing cs s0 s) :
    Wp o w n (Settled o w n) (completeSetup o n password address)
      ph cs s0 s := by
  apply wp_wait rfl h
  intro cs' s0' s' r hmid _
  cases r with
  | none => exact hmid
  | some result =>
      cases result with
      | already_initialized => exact hmid
      | not_committed => exact hmid
      | enrolled persistence =>
          have hbrief := brief_resetLimiter o w n address
          by_cases huncertain :
              persistence = ReplaceResult.committed_durability_uncertain
          · rw [huncertain]
            apply wp_at_once rfl rfl
            intro sA _ hsA
            exact wp_established hbrief (hmid.congr hsA)
          · cases persistence with
            | committed => exact wp_established hbrief hmid
            | committed_durability_uncertain => exact absurd rfl huncertain
            | not_committed => exact wp_established hbrief hmid

theorem wp_consumeAndEnroll {password address : JsString}
    (h : Mid o w ph n [] nothing cs s0 s) :
    Wp o w n (Settled o w n) (consumeAndEnroll o n password address)
      ph cs s0 s := by
  apply wp_at_once rfl rfl
  intro s' r hs
  have hmid := h.congr hs
  cases r with
  | none => exact hmid.congr ⟨rfl, rfl, rfl, rfl, rfl⟩
  | some allowed =>
      cases allowed with
      | false => exact hmid.congr ⟨rfl, rfl, rfl, rfl, rfl⟩
      | true =>
          apply wp_reserveTurn
          intro sA hsA
          have hA : Mid o w ph n [] nothing cs s0 sA :=
            hmid.congr ⟨hsA.sessions, hsA.log, hsA.observers,
              hsA.nextObserver, hsA.tokens⟩
          apply wp_finally_settled counts_releaseLocal
          apply wp_inTurn hA
          intro csB sB0 sB hB
          exact wp_completeSetup hB

theorem wp_setup {password address : JsString}
    (h : Mid o w ph n [] nothing cs s0 s) :
    Wp o w n (Settled o w n) (setup o n password address) ph cs s0 s := by
  unfold setup
  split
  · exact h
  apply wp_at_once rfl rfl
  intro s' r hs
  have hmid := h.congr hs
  cases r with
  | none => exact hmid
  | some initialized =>
      cases initialized with
      | true => exact hmid
      | false =>
          unfold attemptSetup
          simp only [Prog.read_bind]
          apply (Prog.wp_act _ _).mpr
          split
          · exact hmid
          · apply wp_reserveEstablishment
            intro reserved sA hsA
            cases reserved with
            | false => exact hmid.congr hsA
            | true => exact wp_consumeAndEnroll (hmid.congr hsA)

/-!
## The change of the password
-/

/-- What the change of a password has found out stays true while others run. -/
theorem Answered.append {log more : List Entry} {op : Op}
    {res : Except Thrown Value} (h : Answered o log n op res)
    (hop : isPasswordChange op = true)
    (hmore : forall e, e ∈ more -> e.by ≠ n) :
    Answered o (log ++ more) n op res := by
  intro v hres haccepted
  rcases h v hres haccepted with
    ⟨r, cookie, cell, hcell, haddresses, hchecked, hun, _, hcleared⟩
  refine ⟨r, cookie, cell, cellIn_append hcell more, haddresses,
    hchecked.append more, hun.append (unfailed_of_by hmore), ?_, ?_⟩
  · intro hnot
    rw [hop] at hnot
    cases hnot
  · intro _
    rcases hcleared hop with ⟨before, outcome, after, hlog, hafter, hgone⟩
    refine ⟨before, outcome, after ++ more, ?_, ?_, ?_⟩
    · rw [hlog, List.append_assoc, List.cons_append]
    · intro x hx
      rcases List.mem_append.mp hx with hx | hx
      · exact hafter x hx
      · exact hmore _ hx rfl
    · intro x hx
      exact (hgone x hx).append more

theorem wp_replaceAndRevoke {id current replacement : JsString} {r : Ref}
    {cookie : JsString} {cell : Stored}
    (h : Mid o w ph n [] nothing cs s0 s)
    (hfound : Found o w n id r cookie cell s) :
    Wp o w n (Ends o w n (Op.changePassword id current replacement))
      (replaceAndRevoke n replacement) ph cs s0 s := by
  apply wp_wait rfl h
  intro csA sA0 sA reply hA hwoken
  have hunA := hwoken.unfailed hfound.checked.unfailed
  rcases hwoken with ⟨more, hmore, _, htold⟩
  rcases htold rfl with ⟨outcome, hlog⟩
  cases reply with
  | none => exact ends_failed hA
  | some replaced =>
      by_cases hnot : replaced = ReplaceResult.not_committed
      · rw [hnot]
        exact ends_refused hA rfl
      · show Wp o w n _ (if replaced = ReplaceResult.not_committed then _
          else _) _ _ _ _
        rw [if_neg hnot]
        simp only [Prog.read_bind, Prog.wp_act, id_eq]
        apply Prog.wp_bind.mpr
        apply Prog.wp_mono _ (wp_revokeEach hA.base (fun _ hr => hr) hA
          (Fewer.refl sA))
        rintro res ph' cs' s0' s' ⟨⟨hres, hmid, hsince⟩, hgone⟩
        rw [hres]
        refine ⟨hmid, ?_⟩
        intro v _ _
        rcases hsince.log with ⟨more', hlog', hmore'⟩
        have hgrown : s'.log = s.log ++ (more ++ Entry.told n outcome ::
            more') := by
          rw [hlog', hlog]
          simp
        refine ⟨r, cookie, cell, ?_, hfound.id.symm, ?_,
          hsince.unfailed hunA, (fun h => by cases h), ?_⟩
        · rw [hgrown]
          exact cellIn_append hfound.born _
        · rw [hgrown]
          exact hfound.checked.checked.append _
        · intro _
          refine ⟨s.log ++ more, outcome, more', ?_, ?_, ?_⟩
          · rw [hgrown, List.append_assoc]
          · intro x hx
            cases hmore' _ hx rfl
          · intro x hx
            -- a session of that time was removed before or is removed here
            have hborn : (cellIn x s'.log).isSome = true := by
              rcases Option.isSome_iff_exists.mp hx with ⟨c, hc⟩
              rw [hgrown, ← List.append_assoc, cellIn_append hc]
              rfl
            have hplaced := (hmid.base.history.born x).mpr hborn
            by_contra hkept
            have hheld := (hmid.base.history.kept x hplaced).mpr hkept
            exact hgone x (hsince.held x hheld) hheld

theorem wp_runPasswordChange {id current replacement : JsString}
    (h : Mid o w ph n [] nothing cs s0 s) (hun : Unfailed n s.log) :
    Wp o w n (Ends o w n (Op.changePassword id current replacement))
      (runPasswordChange n id current replacement) ph cs s0 s := by
  unfold runPasswordChange
  simp only [Prog.read_bind, Prog.wp_act, id_eq]
  cases hget : s.sessions.byId.get id with
  | none => exact ends_refused h rfl
  | some r =>
      simp only
      split
      · exact ends_refused h rfl
      · apply wp_find h hun hget rfl
        intro sA cookie cell hA hfound _ _
        simp only [Prog.wp_act, id_eq]
        apply wp_wait rfl hA
        intro csB sB0 sB valid hB hwoken
        have hunB := hwoken.unfailed hfound.checked.unfailed
        cases valid with
        | none => exact ends_failed hB
        | some valid =>
            cases valid with
            | false => exact ends_refused hB rfl
            | true =>
                apply (Prog.wp_act _ _).mpr
                show Wp o w n _ (if sB.sessions.byId.get id ≠ some r then _
                  else _) _ _ _ _
                by_cases hsame : sB.sessions.byId.get id = some r
                · rw [if_neg (not_not.mpr hsame)]
                  apply wp_find hB hunB hsame rfl
                  intro sC cookie' cell' hC hfound' _ _
                  exact wp_replaceAndRevoke hC hfound'
                · rw [if_pos hsame]
                  exact ends_refused hB rfl

theorem wp_changePassword {id current replacement : JsString}
    (h : Mid o w ph n [] nothing cs s0 s) (hun : Unfailed n s.log) :
    Wp o w n (Ends o w n (Op.changePassword id current replacement))
      (changePassword n id current replacement) ph cs s0 s := by
  unfold changePassword
  simp only [Prog.read_bind, Prog.modify_bind, Prog.wp_act, id_eq]
  split
  · exact ends_refused h rfl
  · apply wp_thenFinally
      (R := fun res log => Answered o log n
        (Op.changePassword id current replacement) res)
    · exact counts_modify fun _ => ⟨rfl, rfl, rfl, rfl, rfl⟩
    · intro res log more hmore hanswered
      exact hanswered.append rfl hmore
    · exact wp_runPasswordChange (h.congr ⟨rfl, rfl, rfl, rfl, rfl⟩) hun

/-!
## Observers
-/

theorem wp_onRevoked (h : Mid o w ph n [] nothing cs s0 s) :
    Wp o w n (Settled o w n) (onRevoked o n) ph cs s0 s := by
  unfold onRevoked
  simp only [Prog.read_bind, Prog.modify_bind, Prog.wp_act, id_eq]
  split
  · exact h
  · exact h.step (h.base.subscribed h.known) rfl rfl (h.mine.quiet rfl)
      (fun _ _ hr => hr)

theorem wp_unsubscribe {k : Nat} (h : Mid o w ph n [] nothing cs s0 s) :
    Wp o w n (Settled o w n) (unsubscribe n k) ph cs s0 s :=
  h.step (h.base.unsubscribed k h.known) rfl rfl (h.mine.quiet rfl)
    (fun _ _ hr => hr)

/-!
## Soundness
-/

theorem wp_body {op : Op} (h : Mid o w ph n [] nothing cs s0 s)
    (hun : Unfailed n s.log) (hentered : Entry.entered n op ∈ s.log) :
    Wp o w n (Ends o w n op) (body o n op) ph cs s0 s := by
  cases op with
  | bootstrap input =>
      exact wp_ends_of_settled (fun _ => rfl) (wp_bootstrap h)
  | login username password address =>
      exact wp_ends_of_settled (fun _ => rfl) (wp_login h)
  | setup password address =>
      exact wp_ends_of_settled (fun _ => rfl) (wp_setup h)
  | authenticateCookie raw => exact wp_authenticateCookie h hun
  | authenticateAuthority raw => exact wp_authenticateAuthority h hun
  | isActiveAuthority id generation => exact wp_isActiveAuthority h hun
  | touchAuthority id generation activity => exact wp_touchAuthority h hun
  | resume id => exact wp_resume h hun
  | touch id activity => exact wp_touch h hun
  | refresh id upstream => exact wp_refresh h hun hentered
  | verifyCsrf id supplied => exact wp_verifyCsrf h hun
  | logout id => exact wp_ends_of_settled (fun _ => rfl) (wp_logout h)
  | changePassword id current replacement => exact wp_changePassword h hun
  | sweepExpired =>
      exact wp_ends_of_settled (fun _ => rfl) (wp_sweepExpired h)
  | onRevoked => exact wp_ends_of_settled (fun _ => rfl) (wp_onRevoked h)
  | unsubscribe k =>
      exact wp_ends_of_settled (fun _ => rfl) (wp_unsubscribe h)

theorem Ends.leave {op : Op} {res : Except Thrown Value}
    (h : Ends o w n op res ph cs s0 s) :
    endPost (auth o w) (contract o w) n op res ph cs s0 s := by
  rcases h with ⟨hmid, hanswered⟩
  have hended := hmid.plain (e := Entry.ended n op res) rfl rfl hanswered
  refine ⟨⟨hended.base, ?_⟩, hended.guar⟩
  constructor
  · intro m r hr
    by_cases hm : m = n
    · rw [hm] at hr ⊢
      rcases hended.mine.owes r hr with hemitted | howed
      · exact Or.inl hemitted
      · exact absurd howed List.not_mem_nil
    · rcases hended.debts.owed m r hr with hemitted | hlive
      · exact Or.inl hemitted
      · exact Or.inr ⟨hm, hlive⟩
  · intro m r reason observers hr
    by_cases hm : m = n
    · rw [hm] at hr ⊢
      left
      have hsent := hended.mine.sent r reason observers hr
      rw [← hsent]
      exact (List.append_nil _).symm
    · rcases hended.debts.sent m r reason observers hr with hsent | hlive
      · exact Or.inl hsent
      · exact Or.inr ⟨hm, hlive⟩

theorem Base.mono {next next' : Nat} (h : Base o w next s)
    (hnext : next ≤ next') : Base o w next' s :=
  { h with numbered := fun e he => (h.numbered e he).trans_le hnext }

theorem Inv.enter (h : Inv o w cs s) (op : Op) :
    Mid o w Phase.first cs.next [] nothing cs.enter s
      (s.record (Entry.entered cs.next op)) := by
  have hnone : forall e, e ∈ s.log -> e.by ≠ cs.next := by
    intro e he
    exact Nat.ne_of_lt (h.base.numbered e he)
  have hstart : Mid o w Phase.first cs.next [] nothing cs.enter s s := by
    refine ⟨h.base.mono (Nat.le_succ _), ?_, ?_, Guar.refl _ _ s, Or.inl rfl,
      Nat.lt_succ_self _⟩
    · constructor
      · intro m r hr
        rcases h.debts.owed m r hr with hemitted | hlive
        · exact Or.inl hemitted
        · exact Or.inr (Or.inr hlive)
      · intro m r reason observers hr
        rcases h.debts.sent m r reason observers hr with hsent | hlive
        · exact Or.inl hsent
        · exact Or.inr (Or.inr hlive)
    · constructor
      · intro r hr
        exact absurd rfl (hnone _ hr)
      · intro r hr
        exact absurd hr List.not_mem_nil
      · intro r hr
        exact absurd hr List.not_mem_nil
      · intro r reason observers hr
        exact absurd rfl (hnone _ hr)
  exact hstart.plain rfl rfl trivial

end Rules

theorem Rely.refl (b : Boundary) (n : Nat) (s : State) : Rely b n s s :=
  ⟨⟨[], by simp, fun _ he => absurd he List.not_mem_nil⟩,
    fun _ _ hr => hr⟩

theorem Rely.trans {b : Boundary} {n : Nat} {s s' s'' : State}
    (h : Rely b n s s') (h' : Rely b n s' s'') : Rely b n s s'' := by
  rcases h with ⟨⟨more, hlog, hmore⟩, hheld⟩
  rcases h' with ⟨⟨more', hlog', hmore'⟩, hheld'⟩
  refine ⟨⟨more ++ more', ?_, ?_⟩, ?_⟩
  · rw [hlog', hlog, List.append_assoc]
  · intro e he
    rcases List.mem_append.mp he with he | he
    · exact hmore e he
    · exact hmore' e he
  · intro hb r hr
    exact hheld hb r (hheld' hb r hr)

/-- What one operation writes is not by another one. -/
theorem Guar.relied {ph : Phase} {b : Boundary} {n m : Nat} {s s' : State}
    (h : Guar ph n s s') (hne : n ≠ m)
    (hb : b = Boundary.callback -> ph = Phase.first) : Rely b m s s' := by
  rcases h with ⟨⟨more, hlog, hmore⟩, hheld⟩
  refine ⟨⟨more, hlog, ?_⟩, fun hcb => hheld (hb hcb)⟩
  intro e he
  rw [hmore e he]
  exact hne

theorem contract_sound (o : Options) (w : World) :
    (contract o w).Sound (auth o w) := by
  constructor
  · exact Rely.refl
  · exact Rely.trans
  · intro cs n m s s' b _ hne hguar
    exact Guar.relied hguar hne (fun _ => rfl)
  · intro cs n m s s' _ hne hguar
    exact Guar.relied hguar hne nofun
  · rintro cs s s' hinv ⟨credentials, draining, _, rfl⟩
    refine ⟨⟨hinv.base.congr ⟨rfl, rfl, rfl, rfl, rfl⟩, hinv.debts⟩, ?_⟩
    intro b m
    exact Rely.refl b m s
  · intro cs s op _ hinv _
    have hmid := Inv.enter hinv op
    have hun : Unfailed cs.next
        (s.record (Entry.entered cs.next op)).log := by
      apply Unfailed.append
      · apply unfailed_of_by
        intro e he
        exact Nat.ne_of_lt (hinv.base.numbered e he)
      · intro r t hmem
        cases List.mem_singleton.mp hmem
    apply Prog.wp_mono _ (wp_body hmid hun
      (List.mem_append_right _ List.mem_cons_self))
    intro res ph cs' s0 s' hends
    exact hends.leave

theorem Inv.initial (o : Options) (w : World)
    (credentials : CredentialStore.State) (heap : Ref -> Stored) :
    Inv o w ⟨0, fun _ => False⟩ (State.initial credentials heap) := by
  refine ⟨⟨?_, ?_, everyEntry_nil _, ?_, rfl, List.nodup_nil, ?_, ?_⟩, ?_⟩
  · refine ⟨rfl, rfl, List.nodup_nil, ?_, ?_, ?_, ?_, ?_, Nat.zero_le _,
      Nat.zero_le _⟩
    all_goals
      intro r hr
      cases hr
  · refine ⟨?_, ?_, ?_, ?_⟩
    · intro r
      constructor
      · intro hr
        cases hr
      · intro hr
        cases hr
    · intro r cookie cell hcell
      cases hcell
    · intro r cookie cell hcell
      cases hcell
    · intro r hr
      cases hr
  · intro e he
    cases he
  · intro k hk
    cases hk
  · intro _
    constructor
    · intro r cookie cell hcell
      cases hcell
    · intro r cookie cell r' cookie' cell' hcell
      cases hcell
  · constructor
    · intro n r hr
      cases hr
    · intro n r reason observers hr
      cases hr

theorem Run.ok {o : Options} {w : World} {credentials : CredentialStore.State}
    {heap : Ref -> Stored} {cfg : Config State ports Thrown Value Op}
    (h : Run o w credentials heap cfg) :
    Config.Ok (auth o w) (contract o w) cfg :=
  Reachable.ok (contract_sound o w) (Inv.initial o w credentials heap) h

end AuthService
end Server
end FlanTerminal

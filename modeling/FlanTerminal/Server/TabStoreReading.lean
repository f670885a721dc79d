import FlanTerminal.Foundation.Alone
import FlanTerminal.Server.TabStoreSafety

/-!
# Reading the file of the tab store back

What `readPrimary` returns when no call fails, for every way in which the file
may come in pieces.
-/

namespace FlanTerminal
namespace Server
namespace TabStore

open Foundation
open Shared

def State.opening (files : Files) : State :=
  (State.initial files).record
    (Entry.started 0 Op.initializeStore ⟨none, files.primary⟩)

def Fair (s : State) (c : PortCall) (r : PortReply c) : Prop :=
  Allowed s.files c r ∧ thrownBy c r = none

/-- What `readPrimary` may come to when no call fails. -/
def Reading (options : Options) (files : Files)
    (res : Except Rejection PersistedTabsDocument) : Prop :=
  exists s, (readPrimary options).Ends Fair (reply 0) (State.opening files)
    res s

/-- `readPrimary` returns this document. -/
def ReadsAs (options : Options) (files : Files)
    (document : PersistedTabsDocument) : Prop :=
  (exists res, Reading options files res) ∧
    forall res, Reading options files res -> res = Except.ok document

section Reading

variable {options : Options} {files : Files}

theorem opening_busy (files : Files) :
    Holds options (fun k => k = (State.opening files).core)
      (State.opening files) ∧ Busy options 0 (State.opening files).core := by
  have hinitial := @idle_initial options files
  obtain ⟨hgood, hturn⟩ := hinitial.1.turn (o := Op.initializeStore)
    (Nat.le_refl 0) rfl
  exact ⟨⟨rfl, logged_record hinitial.2 hgood⟩, hturn.busy⟩

/-!
## No call has failed
-/

def Unfailed (s : State) : Prop :=
  (summary s.log).failed = false

theorem unfailed_reply {s : State} {c : PortCall} {r : PortReply c}
    (hs : Unfailed s) (hr : Fair s c r) : Unfailed (reply 0 c r s) := by
  unfold Unfailed reply noted
  rw [hr.2]
  dsimp only
  split
  · show (replay View.after View.initial (s.log ++ [_])).failed = false
    rw [replay_snoc]
    exact hs
  · rw [Option.toList_none, List.append_nil]
    exact hs

theorem updates_ask {inv : State -> Prop} (c : PortCall) :
    (Prog.ask (I := ports) c : Code _).Updates inv :=
  fun _ => trivial

theorem updates_unwrap {inv : State -> Prop} {value : Type}
    (r : Except Failure value) : (unwrap r).Updates inv := by
  cases r with
  | error f => trivial
  | ok a => trivial

theorem updates_readChunks {inv : State -> Prop} (rounds : Nat)
    (bytes : List UInt8) : (readChunks rounds bytes).Updates inv := by
  induction rounds generalizing bytes with
  | zero => trivial
  | succ rounds ih =>
      unfold readChunks
      split
      · trivial
      · apply (updates_ask _).bind
        intro r
        apply (updates_unwrap _).bind
        intro chunk
        split
        · trivial
        · split
          · trivial
          · exact ih _

theorem updates_readPrimary {inv : State -> Prop} :
    (readPrimary options).Updates inv := by
  apply Prog.Updates.bind ((updates_ask _).bind updates_unwrap)
  intro a
  apply Prog.Updates.bind
  · apply Prog.Updates.always
    · apply (updates_ask _).bind
      intro r
      apply (updates_unwrap _).bind
      intro stat
      split
      · trivial
      · apply (updates_readChunks _ _).bind
        intro bytes
        unfold boundedBytes
        split
        · trivial
        · trivial
    · exact (updates_ask _).bind updates_unwrap
  · intro bytes
    unfold parseStored
    split
    · trivial
    · trivial

theorem reading_stored {document : PersistedTabsDocument}
    (hstored : Stored options files.primary document)
    {res : Except Rejection PersistedTabsDocument}
    (h : Reading options files res) : res = Except.ok document := by
  obtain ⟨s, hends⟩ := h
  obtain ⟨hopening, hbusy⟩ := @opening_busy options files
  have howes := spec_readPrimary hbusy (State.opening files)
    ⟨Steady.refl _, hopening.2⟩
  have hread := (Serial.Rules.ends_of_owes (rules options)
    (fun _ _ => rfl) (fun hr => hr.1) howes hends).1
  have hunfailed : Unfailed s :=
    hends.keeps updates_readPrimary unfailed_reply rfl
  cases res with
  | ok d => rw [hread.2.unique hstored]
  | error e =>
      rcases hread.2 with ⟨hfailed, _⟩ | ⟨_, _, hnone⟩
      · have hfalse : s.core.view.failed = false := hunfailed
        rw [hfalse] at hfailed
        cases hfailed
      · exact absurd hstored (hnone document)

/-!
## There is something to read
-/

theorem ends_step {s : State} {a : Action}
    (ha : Allowed s.files (PortCall.run a) (Except.ok ())) :
    (attempt a).Ends Fair (reply 0) s (Except.ok ())
      (reply 0 (PortCall.run a) (Except.ok ()) s) := by
  have hfair : Fair s (PortCall.run a) (Except.ok ()) := ⟨ha, rfl⟩
  exact Prog.Ends.call _ hfair Prog.Ends.ret

theorem ends_readChunks_end {s : State} {content : List UInt8}
    (hcontent : s.files.primary = some content)
    (hfits : content.length ≤ MAX_DOCUMENT_BYTES) (rounds : Nat) :
    exists s', (readChunks (rounds + 1) content).Ends Fair (reply 0) s
      (Except.ok content) s' := by
  have hroom : ¬ room content ≤ 0 := by
    unfold room
    omega
  have hmis : ¬ misread content.length ⟨0, []⟩ := by
    unfold misread
    simp only [not_or]
    omega
  unfold readChunks
  rw [if_neg hroom]
  have hread : Fair s (PortCall.read content.length) (Except.ok ⟨0, []⟩) := by
    refine ⟨Or.inr ⟨rfl, List.nil_prefix, fun _ => ?_⟩, if_neg hmis⟩
    rw [hcontent]
    exact List.drop_length
  exact ⟨_, Prog.Ends.call _ hread Prog.Ends.ret⟩

theorem ends_readChunks {s : State} {content : List UInt8}
    (hcontent : s.files.primary = some content)
    (hfits : content.length ≤ MAX_DOCUMENT_BYTES) :
    exists s', (readChunks (MAX_DOCUMENT_BYTES + 1) []).Ends Fair (reply 0) s
      (Except.ok content) s' := by
  cases content with
  | nil => exact ends_readChunks_end hcontent hfits _
  | cons b rest =>
      have hmis : ¬ misread 0 ⟨((b :: rest).length : Nat), b :: rest⟩ := by
        unfold misread
        simp only [not_or]
        omega
      have hread : Fair s (PortCall.read 0)
          (Except.ok ⟨((b :: rest).length : Nat), b :: rest⟩) := by
        refine ⟨Or.inr ⟨rfl, ?_, fun h => by cases h⟩, if_neg hmis⟩
        rw [hcontent]
        exact List.prefix_refl _
      obtain ⟨s', hends⟩ := ends_readChunks_end
        (s := reply 0 (PortCall.read 0)
          (Except.ok ⟨((b :: rest).length : Nat), b :: rest⟩) s)
        hcontent hfits (MAX_DOCUMENT_BYTES - 1)
      refine ⟨s', Prog.Ends.call _ hread ?_⟩
      have hzero : ¬ (((b :: rest).length : Nat) : Int) = 0 := by
        simp only [List.length_cons]
        omega
      have hbounds : ¬ ((((b :: rest).length : Nat) : Int) < 0 ∨
          room [] < (((b :: rest).length : Nat) : Int)) := by
        unfold room
        simp only [not_or, List.length_nil]
        omega
      show (if (((b :: rest).length : Nat) : Int) = 0 then pure []
        else if (((b :: rest).length : Nat) : Int) < 0 ∨
            room [] < (((b :: rest).length : Nat) : Int) then
          throw (Rejection.thrown Thrown.failed)
        else readChunks MAX_DOCUMENT_BYTES ([] ++ (b :: rest)) :
          Code (List UInt8)).Ends _ _ _ _ _
      rw [if_neg hzero, if_neg hbounds]
      exact hends

theorem ends_readBytes {s : State} {content : List UInt8}
    (hcontent : s.files.primary = some content)
    (hfits : content.length ≤ MAX_DOCUMENT_BYTES) :
    exists s', readBytes.Ends Fair (reply 0) s (Except.ok content) s' := by
  obtain ⟨s', hends⟩ := ends_readChunks
    (s := reply 0 PortCall.stat (Except.ok ⟨true, content.length, false⟩) s)
    hcontent hfits
  have hstat : Fair s PortCall.stat
      (Except.ok ⟨true, content.length, false⟩) := by
    refine ⟨⟨rfl, ?_⟩, rfl⟩
    rw [hcontent]
    rfl
  refine ⟨s', Prog.Ends.call _ hstat ?_⟩
  have hsmall : ¬ ((!true) = true ∨ MAX_DOCUMENT_BYTES < content.length) := by
    simp only [Bool.not_true, Bool.false_eq_true, false_or]
    omega
  show (if (!true) = true ∨ MAX_DOCUMENT_BYTES < content.length then
    throw (Rejection.thrown Thrown.failed)
    else readChunks (MAX_DOCUMENT_BYTES + 1) [] >>= boundedBytes :
      Code (List UInt8)).Ends _ _ _ _ _
  rw [if_neg hsmall]
  apply Prog.Ends.bind hends
  unfold boundedBytes
  rw [if_neg (Nat.not_lt.mpr hfits)]
  exact Prog.Ends.ret

/-- The stored document is read, however the file comes in pieces. -/
theorem readsAs_of_stored {document : PersistedTabsDocument}
    (h : Stored options files.primary document) :
    ReadsAs options files document := by
  refine ⟨?_, fun res hres => reading_stored h hres⟩
  obtain ⟨content, hcontent, hfits, hstored⟩ := h
  have hopen := ends_step (s := State.opening files) (a := Action.openPrimary)
    (by
      show files.primary.isSome = true
      rw [hcontent]
      rfl)
  obtain ⟨s, hbytes⟩ := ends_readBytes
    (s := reply 0 (PortCall.run Action.openPrimary) (Except.ok ())
      (State.opening files)) hcontent hfits
  have hclose := ends_step (s := s) (a := Action.closePrimary) trivial
  have hparse : parseStored options content = pure document := by
    unfold parseStored
    rw [hstored]
  have hlast : (readBytes.always (attempt Action.closePrimary) >>=
      fun bytes => parseStored options bytes).Ends Fair (reply 0)
        (reply 0 (PortCall.run Action.openPrimary) (Except.ok ())
          (State.opening files)) (Except.ok document)
        (reply 0 (PortCall.run Action.closePrimary) (Except.ok ()) s) := by
    apply Prog.Ends.bind (Prog.Ends.always hbytes hclose)
    rw [hparse]
    exact Prog.Ends.ret
  exact ⟨_, _, Prog.Ends.bind hopen hlast⟩

end Reading

end TabStore
end Server
end FlanTerminal

import FlanTerminal.Server.TabStoreReading

/-!
# The history of the tab store

What the log of a run, over any number of processes, says about the operations
and about the documents that have been held one after the other.
-/

namespace FlanTerminal
namespace Server
namespace TabStore

open Foundation
open Shared

/-!
## Stints

An operation works from its start to its end, and nothing else starts.
-/

def Entry.inside : Entry -> Bool
  | Entry.started _ _ _ => false
  | Entry.settled _ o _ _ => !o.waits
  | Entry.restarted => false
  | _ => true

/-- The log ends with the stint of an operation: its start, and what has been
recorded since. -/
structure Stint (n : Nat) (o : Op) (found : Held) (front mid log : List Entry) :
    Prop where
  split : log = front ++ Entry.started n o found :: mid
  inside : forall e, e ∈ mid -> e.inside = true

def directoryFailures (log : List Entry) : List Failure :=
  log.filterMap fun e =>
    match e with
    | Entry.failed _ c f => if isDirectoryCall c then some f else none
    | _ => none

def Entry.isFailed : Entry -> Bool
  | Entry.failed _ _ _ => true
  | _ => false

def Entry.isRenamed : Entry -> Bool
  | Entry.renamed _ => true
  | _ => false

def Entry.isSync : Entry -> Bool
  | Entry.synced _ _ => true
  | _ => false

def taken : Entry -> Option PersistedTabsDocument
  | Entry.loaded _ document => some document
  | Entry.committed _ document => some document
  | _ => none

def documents (log : List Entry) : List PersistedTabsDocument :=
  log.filterMap taken

section Stints

variable {options : Options} {n : Nat} {o : Op} {found : Held}
variable {front mid log : List Entry} {e : Entry}

theorem summary_snoc (log : List Entry) (e : Entry) :
    summary (log ++ [e]) = (summary log).after e :=
  replay_snoc log e

theorem Stint.snoc (h : Stint n o found front mid log)
    (he : e.inside = true) :
    Stint n o found front (mid ++ [e]) (log ++ [e]) := by
  refine ⟨?_, ?_⟩
  · rw [h.split]
    simp
  · intro x hx
    rcases List.mem_append.mp hx with hx | hx
    · exact h.inside x hx
    · rw [List.mem_singleton.mp hx]
      exact he

theorem after_look {v : View} {res : Except Rejection Value} {held : Held}
    (hlook : o.waits = false) : v.after (Entry.settled n o res held) = v := by
  show (if o.waits then { v with running := none } else v) = v
  rw [hlook]
  rfl

/-- What an entry inside a stint does to the operation at work: nothing. -/
theorem after_running {v : View} (he : e.inside = true) :
    (v.after e).running = v.running ∧ (v.after e).last = v.last := by
  cases e with
  | started n o held => cases he
  | failed n c f => exact ⟨rfl, rfl⟩
  | renamed n => exact ⟨rfl, rfl⟩
  | loaded n d => exact ⟨rfl, rfl⟩
  | committed n d => exact ⟨rfl, rfl⟩
  | synced n f => exact ⟨rfl, rfl⟩
  | settled n o res held =>
      have hlook : o.waits = false := by simpa [Entry.inside] using he
      rw [after_look hlook]
      exact ⟨rfl, rfl⟩
  | restarted => cases he

theorem stint_of_running
    (h : (summary log).running = some (n, o, found)) :
    exists front mid, Stint n o found front mid log := by
  induction log using List.reverseRecOn with
  | nil => cases h
  | append_singleton log e ih =>
      rw [summary_snoc] at h
      by_cases he : e.inside = true
      · rw [(after_running he).1] at h
        obtain ⟨front, mid, hstint⟩ := ih h
        exact ⟨front, mid ++ [e], hstint.snoc he⟩
      · cases e with
        | started m o' held =>
            cases h
            exact ⟨log, [], rfl, fun x hx => by cases hx⟩
        | settled m o' res held =>
            have hwaits : o'.waits = true := by
              simpa [Entry.inside] using he
            have hafter : ((summary log).after
                (Entry.settled m o' res held)).running = none := by
              show (if o'.waits then { summary log with running := none }
                else summary log).running = none
              rw [hwaits]
              rfl
            rw [hafter] at h
            cases h
        | restarted => cases h
        | failed m c f => exact absurd rfl he
        | renamed m => exact absurd rfl he
        | loaded m d => exact absurd rfl he
        | committed m d => exact absurd rfl he
        | synced m f => exact absurd rfl he

structure Told (n : Nat) (o : Op) (found : Held) (mid : List Entry) (v : View) :
    Prop where
  running : v.running = some (n, o, found)
  last : v.last = some n
  failed : v.failed = mid.any Entry.isFailed
  directory : v.directory = (directoryFailures mid).head?
  renamed : v.renamed = mid.any Entry.isRenamed
  synced : v.synced = mid.any Entry.isSync

theorem told_nil (v : View) (n : Nat) (o : Op) (found : Held) :
    Told n o found [] (v.after (Entry.started n o found)) :=
  ⟨rfl, rfl, rfl, rfl, rfl, rfl⟩

theorem directoryFailures_snoc (mid : List Entry) (e : Entry) :
    directoryFailures (mid ++ [e]) =
      directoryFailures mid ++ directoryFailures [e] :=
  List.filterMap_append

theorem Told.silent {v : View} (h : Told n o found mid v)
    (hafter : (v.after e).running = v.running ∧ (v.after e).last = v.last)
    (hcalls : (v.after e).failed = v.failed ∧
      (v.after e).directory = v.directory ∧
      (v.after e).renamed = v.renamed ∧ (v.after e).synced = v.synced)
    (hkind : e.isFailed = false ∧ e.isRenamed = false ∧ e.isSync = false ∧
      directoryFailures [e] = []) :
    Told n o found (mid ++ [e]) (v.after e) := by
  refine ⟨hafter.1.trans h.running, hafter.2.trans h.last, ?_, ?_, ?_, ?_⟩
  · rw [hcalls.1, h.failed]
    simp [hkind.1]
  · rw [hcalls.2.1, h.directory, directoryFailures_snoc, hkind.2.2.2,
      List.append_nil]
  · rw [hcalls.2.2.1, h.renamed]
    simp [hkind.2.1]
  · rw [hcalls.2.2.2, h.synced]
    simp [hkind.2.2.1]

theorem Told.snoc {v : View} (h : Told n o found mid v)
    (he : e.inside = true) : Told n o found (mid ++ [e]) (v.after e) := by
  have hafter := after_running (v := v) he
  cases e with
  | started n o held => cases he
  | restarted => cases he
  | settled n o res held =>
      have hlook : o.waits = false := by simpa [Entry.inside] using he
      apply h.silent hafter
      · rw [after_look hlook]
        exact ⟨rfl, rfl, rfl, rfl⟩
      · exact ⟨rfl, rfl, rfl, rfl⟩
  | loaded n d =>
      exact h.silent hafter ⟨rfl, rfl, rfl, rfl⟩ ⟨rfl, rfl, rfl, rfl⟩
  | committed n d =>
      exact h.silent hafter ⟨rfl, rfl, rfl, rfl⟩ ⟨rfl, rfl, rfl, rfl⟩
  | failed m c f =>
      refine ⟨h.running, h.last, ?_, ?_, ?_, ?_⟩
      · simp [View.after, Entry.isFailed]
      · rw [directoryFailures_snoc]
        show (if isDirectoryCall c then v.directory.or (some f)
          else v.directory) = _
        rw [h.directory]
        by_cases hc : isDirectoryCall c = true
        · simp [directoryFailures, hc]
        · simp [directoryFailures, hc]
      · simp [View.after, Entry.isRenamed, h.renamed]
      · simp [View.after, Entry.isSync, h.synced]
  | renamed m =>
      refine ⟨h.running, h.last, ?_, ?_, ?_, ?_⟩
      · simp [View.after, Entry.isFailed, h.failed]
      · rw [directoryFailures_snoc]
        show v.directory = (directoryFailures mid ++ []).head?
        rw [List.append_nil, h.directory]
      · simp [View.after, Entry.isRenamed]
      · simp [View.after, Entry.isSync, h.synced]
  | synced m f =>
      refine ⟨h.running, h.last, ?_, ?_, ?_, ?_⟩
      · simp [View.after, Entry.isFailed, h.failed]
      · rw [directoryFailures_snoc]
        show v.directory = (directoryFailures mid ++ []).head?
        rw [List.append_nil, h.directory]
      · simp [View.after, Entry.isRenamed, h.renamed]
      · simp [View.after, Entry.isSync]

theorem Stint.told (h : Stint n o found front mid log) :
    Told n o found mid (summary log) := by
  rw [h.split]
  have hinside := h.inside
  clear h
  induction mid using List.reverseRecOn with
  | nil =>
      rw [summary_snoc]
      exact told_nil _ n o found
  | append_singleton mid e ih =>
      have hassoc : front ++ Entry.started n o found :: (mid ++ [e]) =
          front ++ Entry.started n o found :: mid ++ [e] := by simp
      rw [hassoc, summary_snoc]
      exact (ih fun x hx => hinside x (List.mem_append_left _ hx)).snoc
        (hinside e (by simp))

theorem documents_append (log more : List Entry) :
    documents (log ++ more) = documents log ++ documents more :=
  List.filterMap_append

theorem documents_snoc_none (log : List Entry) (h : taken e = none) :
    documents (log ++ [e]) = documents log := by
  have hnone : documents [e] = [] := List.filterMap_cons_none h
  rw [documents_append, hnone, List.append_nil]

theorem documents_snoc_some (log : List Entry) {d : PersistedTabsDocument}
    (h : taken e = some d) :
    documents (log ++ [e]) = documents log ++ [d] := by
  have hsome : documents [e] = [d] := List.filterMap_cons_some h
  rw [documents_append, hsome]

theorem after_document {v : View} :
    (v.after e).document = (taken e).or v.document := by
  cases e with
  | settled n o res held =>
      show (if o.waits then { v with running := none } else v).document = _
      split
      · rfl
      · rfl
  | started n o held => rfl
  | failed n c f => rfl
  | renamed n => rfl
  | loaded n d => rfl
  | committed n d => rfl
  | synced n f => rfl
  | restarted => rfl

theorem summary_document (log : List Entry) :
    (summary log).document = (documents log).getLast? := by
  induction log using List.reverseRecOn with
  | nil => rfl
  | append_singleton log e ih =>
      rw [summary_snoc, after_document, ih]
      cases htaken : taken e with
      | none => rw [documents_snoc_none log htaken, Option.none_or]
      | some d =>
          rw [documents_snoc_some log htaken, List.getLast?_append]
          rfl

end Stints

end TabStore
end Server
end FlanTerminal

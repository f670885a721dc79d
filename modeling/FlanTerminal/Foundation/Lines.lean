import FlanTerminal.Foundation.JsString

/-!
# Lines of a text

The output of a command is text whose lines end in a line feed, with or without
a carriage return before it.  A text is given here by its lines, so that what a
program makes of the text can be said about the lines.
-/

namespace FlanTerminal
namespace Foundation
namespace Lines

/-- `s.split(/\r?\n/u)`. -/
def splitLines : JsString -> List JsString
  | [] => [[]]
  | 10 :: rest => [] :: splitLines rest
  | 13 :: 10 :: rest => [] :: splitLines rest
  | u :: rest =>
      match splitLines rest with
      | [] => [[u]]
      | line :: lines => (u :: line) :: lines

inductive Ending where
  | lf
  | crlf
  deriving DecidableEq

def Ending.text : Ending -> JsString
  | lf => [10]
  | crlf => [13, 10]

/-- A line with its ending.  A carriage return right before a line feed belongs
to the ending. -/
structure Line where
  text : JsString
  ending : Ending
  noFeed : 10 ∉ text
  noReturn : ending = Ending.lf -> text.getLast? ≠ some 13

structure Text where
  lines : List Line
  rest : JsString
  noFeed : 10 ∉ rest

def Line.render (l : Line) : JsString :=
  l.text ++ l.ending.text

def Text.render (t : Text) : JsString :=
  t.lines.flatMap Line.render ++ t.rest

def Text.content (t : Text) : List JsString :=
  t.lines.map Line.text ++ [t.rest]

/-!
## Splitting
-/

theorem splitLines_ne_nil (s : JsString) : splitLines s ≠ [] := by
  fun_induction splitLines s <;> simp_all

theorem mem_of_mem_splitLines {s line : JsString} {u : UInt16}
    (hline : line ∈ splitLines s) (hu : u ∈ line) : u ∈ s := by
  fun_induction splitLines s generalizing line with
  | case1 =>
      rw [List.mem_singleton.mp hline] at hu
      cases hu
  | case2 rest ih =>
      cases List.mem_cons.mp hline with
      | inl h =>
          rw [h] at hu
          cases hu
      | inr h => exact List.mem_cons_of_mem _ (ih h hu)
  | case3 rest ih =>
      cases List.mem_cons.mp hline with
      | inl h =>
          rw [h] at hu
          cases hu
      | inr h =>
          exact List.mem_cons_of_mem _ (List.mem_cons_of_mem _ (ih h hu))
  | case4 v rest _ _ hnil _ => exact absurd hnil (splitLines_ne_nil rest)
  | case5 v rest _ _ first lines hsplit ih =>
      rw [hsplit] at ih
      cases List.mem_cons.mp hline with
      | inl h =>
          rw [h] at hu
          cases List.mem_cons.mp hu with
          | inl hv => rw [hv]; exact List.mem_cons_self
          | inr hv =>
              exact List.mem_cons_of_mem _ (ih List.mem_cons_self hv)
      | inr h =>
          exact List.mem_cons_of_mem _ (ih (List.mem_cons_of_mem _ h) hu)

theorem splitLines_cons {u : UInt16} {s line : JsString}
    {lines : List JsString} (hfeed : u ≠ 10)
    (hreturn : u = 13 -> s.head? ≠ some 10)
    (hs : splitLines s = line :: lines) :
    splitLines (u :: s) = (u :: line) :: lines := by
  rw [splitLines.eq_4 u s hfeed]
  · rw [hs]
  · intro rest hu h
    apply hreturn hu
    rw [h]
    rfl

theorem splitLines_of_noFeed {s : JsString} (h : 10 ∉ s) :
    splitLines s = [s] := by
  induction s with
  | nil => rfl
  | cons u s ih =>
      have hs : 10 ∉ s := fun hm => h (List.mem_cons_of_mem u hm)
      have hu : u ≠ 10 := fun e => h (e ▸ List.mem_cons_self)
      apply splitLines_cons hu
      · intro _ he
        exact hs (List.mem_of_mem_head? he)
      · exact ih hs

theorem splitLines_ending (e : Ending) (s : JsString) :
    splitLines (e.text ++ s) = [] :: splitLines s := by
  cases e with
  | lf => rfl
  | crlf => rfl

/-- The first line ends at the first ending.  The induction is on the line; its
last unit is the one that could be taken for a part of the ending. -/
theorem splitLines_line {line : JsString} {e : Ending} (hfeed : 10 ∉ line)
    (hreturn : e = Ending.lf -> line.getLast? ≠ some 13) (s : JsString) :
    splitLines (line ++ (e.text ++ s)) = line :: splitLines s := by
  induction line with
  | nil => exact splitLines_ending e s
  | cons u line ih =>
      have hline : 10 ∉ line := fun hm => hfeed (List.mem_cons_of_mem u hm)
      have hu : u ≠ 10 := fun he => hfeed (he ▸ List.mem_cons_self)
      apply splitLines_cons hu
      · intro hcr
        cases line with
        | nil =>
            cases e with
            | lf => exact absurd (by rw [hcr]; rfl) (hreturn rfl)
            | crlf => simp [Ending.text]
        | cons v line =>
            intro he
            injection he with he
            exact hline (he ▸ List.mem_cons_self)
      · apply ih hline
        intro he hlast
        apply hreturn he
        cases line with
        | nil => cases hlast
        | cons v line => rw [List.getLast?_cons_cons, hlast]

theorem splitLines_render (t : Text) : splitLines t.render = t.content := by
  obtain ⟨lines, rest, hrest⟩ := t
  induction lines with
  | nil => exact splitLines_of_noFeed hrest
  | cons l lines ih =>
      have hl := splitLines_line l.noFeed l.noReturn
        (lines.flatMap Line.render ++ rest)
      have hih : splitLines (lines.flatMap Line.render ++ rest) =
          lines.map Line.text ++ [rest] := ih
      rw [hih] at hl
      simpa [Text.render, Text.content, Line.render] using hl

/-!
## Every string is a text
-/

theorem exists_cons (u : UInt16) (t : Text) (hfeed : u ≠ 10) :
    exists t' : Text, t'.render = u :: t.render := by
  obtain ⟨lines, rest, hrest⟩ := t
  cases lines with
  | nil => exact ⟨⟨[], u :: rest, by simp [hrest, hfeed.symm]⟩, rfl⟩
  | cons l lines =>
      have hnew : 10 ∉ u :: l.text := by
        simp [l.noFeed, hfeed.symm]
      by_cases hcr : l.ending = Ending.lf ∧ (u :: l.text).getLast? = some 13
      · -- Only an empty line can get a carriage return this way.
        have hnil : l.text = [] := by
          cases ht : l.text with
          | nil => rfl
          | cons v rest =>
              rw [ht, List.getLast?_cons_cons, ← ht] at hcr
              exact absurd hcr.2 (l.noReturn hcr.1)
        have hu : u = 13 := by simpa [hnil] using hcr.2
        exists ⟨⟨[], Ending.crlf, by simp, nofun⟩ :: lines, rest, hrest⟩
        simp [Text.render, Line.render, hnil, hcr.1, hu, Ending.text]
      · exists ⟨⟨u :: l.text, l.ending, hnew,
          fun he hl => hcr ⟨he, hl⟩⟩ :: lines, rest, hrest⟩

theorem exists_render (s : JsString) : exists t : Text, t.render = s := by
  induction s with
  | nil => exact ⟨⟨[], [], by simp⟩, rfl⟩
  | cons u s ih =>
      obtain ⟨t, ht⟩ := ih
      by_cases hu : u = 10
      · exists ⟨⟨[], Ending.lf, by simp, by simp⟩ :: t.lines, t.rest, t.noFeed⟩
        rw [hu, ← ht]
        rfl
      · obtain ⟨t', ht'⟩ := exists_cons u t hu
        exact ⟨t', by rw [ht', ht]⟩

end Lines
end Foundation
end FlanTerminal

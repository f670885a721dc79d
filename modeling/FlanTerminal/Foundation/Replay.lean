import Mathlib.Data.List.Induction
import FlanTerminal.Foundation.Trace

/-!
# Summaries of a log

What matters of the entries before is often a summary that every entry brings
up to date.
-/

namespace FlanTerminal
namespace Foundation

variable {entry summary : Type}
variable {after : summary -> entry -> summary} {initial : summary}

def replay (after : summary -> entry -> summary) (initial : summary)
    (log : List entry) : summary :=
  log.foldl after initial

theorem replay_snoc (log : List entry) (e : entry) :
    replay after initial (log ++ [e]) = after (replay after initial log) e := by
  unfold replay
  rw [List.foldl_append]
  rfl

/-- Every entry is good with respect to the summary of those before it. -/
def EveryStep (after : summary -> entry -> summary) (initial : summary)
    (good : summary -> entry -> Prop) (log : List entry) : Prop :=
  EveryEntry (fun before e => good (replay after initial before) e) log

theorem everyStep_snoc {good : summary -> entry -> Prop} {log : List entry}
    {e : entry} :
    EveryStep after initial good (log ++ [e]) <->
      EveryStep after initial good log ∧
        good (replay after initial log) e :=
  everyEntry_snoc

end Foundation
end FlanTerminal

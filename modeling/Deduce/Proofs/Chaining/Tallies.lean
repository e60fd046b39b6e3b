import Deduce.Chaining.Engine

/-!
# Tallies after a run

The tally of a name that no application was counted under is zero (`Stats.tally`); counting an
outcome changes the tally of its own name alone (`Stats.tally_record`).  What an engine counts in a
run does not depend on the rest of its state, and changes none of it (`Engine.foldl_record_eq`).
-/

namespace Deduce

namespace Stats

/-- The tally of a rule by name. -/
def tally (s : Stats) (rule : String) : Tally := (s.get? rule).getD .zero

theorem tally_record (s : Stats) (rule name : String) (o : Outcome) :
    (s.record rule o).tally name =
      if name = rule then (s.tally name).record o else s.tally name := by
  rw [tally, record, Table.alter, Table.get?_insert]
  split
  · rename_i h
    rw [h]
    rfl
  · rfl

theorem keys_record (s : Stats) (rule : String) (o : Outcome) :
    (s.record rule o).keys = if rule ∈ s.keys then s.keys else s.keys ++ [rule] :=
  s.keys_insert rule _

end Stats

namespace Engine

/-- Counting changes nothing but the tallies. -/
theorem foldl_record_eq {α : Type} (name : α → String) (verdict : α → Verdict) (as : List α)
    (g : Engine) :
    as.foldl (fun g a => g.record (name a) (verdict a)) g =
      { g with stats := as.foldl (fun s a => s.record (name a) (verdict a).outcome) g.stats } := by
  induction as generalizing g with
  | nil => rfl
  | cons a as ih => exact ih (g.record (name a) (verdict a))

theorem infer_engine (g : Engine) (kb : List Expr) (probe : Value) :
    (g.infer kb probe).1 = { g with
      stats := (verdicts g.rules kb probe).foldl (fun s v => s.record v.1 v.2.outcome) g.stats } :=
  foldl_record_eq Prod.fst Prod.snd _ g

theorem afterSaturation_eq (g : Engine) (s : Saturation) :
    g.afterSaturation s = { g with
      stats := s.applications.foldl (fun t a => t.record a.rule a.verdict.outcome) g.stats
      steps := s.steps } := by
  rw [afterSaturation, foldl_record_eq Application.rule Application.verdict]

theorem stats_infer (g : Engine) (kb : List Expr) (probe : Value) :
    (g.infer kb probe).1.stats =
      (verdicts g.rules kb probe).foldl (fun s v => s.record v.1 v.2.outcome) g.stats := by
  rw [infer_engine]

theorem steps_infer (g : Engine) (kb : List Expr) (probe : Value) :
    (g.infer kb probe).1.steps = g.steps := by
  rw [infer_engine]

theorem stats_afterSaturation (g : Engine) (s : Saturation) :
    (g.afterSaturation s).stats =
      s.applications.foldl (fun t a => t.record a.rule a.verdict.outcome) g.stats := by
  rw [afterSaturation_eq]

end Engine

end Deduce

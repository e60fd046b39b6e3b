import Deduce.Proofs.Chaining.Tallies
import Deduce.Proofs.Reduction.Runs
import Deduce.Reduction.Stock

/-!
# Faults count as silence

A rule is *cleaned* (`Rule.cleaned`) by letting it say nothing where it fails or returns something
that is no term, and a reduction (`Reduction.cleaned`) by letting it say nothing where it fails.
Engines cannot tell a rule from the cleaned one except by counting: a cleaned engine finds the same,
in the same order and by the same steps, and reports the same, but counts as inapplicable what the
other counts as faulted (`Stats.FaultsMoved`).  Reducing with cleaned reductions is the same as
reducing with those given (`faults_count_as_silence`).
-/

namespace Deduce

/-! ### Rules -/

/-- The rule that derives what a rule derives, and says nothing where that one fails or returns
something that is no term. -/
def Rule.cleaned (r : Rule) : Rule where
  name := r.name
  canonical := r.canonical
  run kb probe :=
    match r.run kb probe with
    | .ok (.term e) => .ok (.term e)
    | _ => .ok .nothing

/-- A fault counted as silence. -/
def Outcome.cleaned : Outcome → Outcome
  | .faulted => .inapplicable
  | o => o

/-- A fault taken for silence. -/
def Verdict.cleaned : Verdict → Verdict
  | .faulted _ => .inapplicable
  | v => v

theorem fact?_cleaned (v : Verdict) : v.cleaned.fact? = v.fact? := by
  cases v <;> rfl

theorem outcome_cleaned (v : Verdict) : v.cleaned.outcome = v.outcome.cleaned := by
  cases v <;> rfl

theorem apply_cleaned (r : Rule) (kb : List Expr) (probe : Value) :
    r.cleaned.apply kb probe = (r.apply kb probe).cleaned := by
  unfold Rule.apply Rule.cleaned
  dsimp only
  rcases r.run kb probe with f | v
  · rfl
  · cases v <;> rfl

/-! ### Rounds -/

/-- An application with its verdict cleaned. -/
def Application.cleaned (a : Application) : Application :=
  { a with verdict := a.verdict.cleaned }

/-- A round with the verdicts of its applications cleaned. -/
def Round.cleaned (r : Round) : Round :=
  { r with applications := r.applications.map Application.cleaned }

theorem applications_cleaned (rules : List Rule) (facts : List Expr) :
    applications (rules.map Rule.cleaned) facts =
      (applications rules facts).map Application.cleaned := by
  rw [applications, applications, List.map_flatMap]
  congr 1
  funext f
  rw [List.map_map, List.map_map]
  refine List.map_congr_left fun r _ => ?_
  simp only [Function.comp_apply, apply_cleaned]
  rfl

/-- A fault makes no step, and neither does silence. -/
theorem newSteps_cleaned (number : Nat) (known : List Expr) (as : List Application) :
    newSteps number known (as.map Application.cleaned) = newSteps number known as := by
  induction as generalizing known with
  | nil => rfl
  | cons a as ih =>
    have hfact : a.cleaned.verdict.fact? = a.verdict.fact? := fact?_cleaned a.verdict
    simp only [List.map_cons, newSteps, hfact, ih]
    rfl

theorem run_cleaned (rules : List Rule) (number : Nat) (known : List Expr) :
    Round.run (rules.map Rule.cleaned) number known = (Round.run rules number known).cleaned := by
  simp only [Round.run, Round.cleaned, applications_cleaned, newSteps_cleaned]

theorem rounds_cleaned (rules : List Rule) (bound number : Nat) (known : List Expr) :
    rounds (rules.map Rule.cleaned) bound number known =
      (rounds rules bound number known).map Round.cleaned := by
  induction bound generalizing number known with
  | zero => rfl
  | succ bound ih =>
    have hsteps : (Round.run rules number known).cleaned.steps =
        (Round.run rules number known).steps := rfl
    have hfacts : (Round.run rules number known).cleaned.facts =
        (Round.run rules number known).facts := rfl
    -- the same steps, so both go on or stop, and go on with the same facts
    rw [rounds, rounds, run_cleaned, hsteps, hfacts, ih]
    split <;> rfl

/-- A run with the verdicts of its applications cleaned. -/
def Saturation.cleaned (s : Saturation) : Saturation := ⟨s.rounds.map Round.cleaned⟩

theorem saturation_cleaned (rules : List Rule) (bound : Nat) (facts : List Expr) :
    Saturation.run (rules.map Rule.cleaned) bound facts =
      (Saturation.run rules bound facts).cleaned := by
  rw [Saturation.run, rounds_cleaned]
  rfl

namespace Saturation

variable (s : Saturation)

theorem steps_cleaned : s.cleaned.steps = s.steps := by
  rw [steps, cleaned, List.flatMap_map]
  rfl

theorem facts_cleaned : s.cleaned.facts = s.facts := by
  rw [facts, steps_cleaned, facts]

theorem applications_cleaned : s.cleaned.applications = s.applications.map Application.cleaned := by
  rw [applications, cleaned, List.flatMap_map, applications, List.map_flatMap]
  rfl

theorem exhausted_cleaned : s.cleaned.exhausted = s.exhausted := by
  rw [exhausted, cleaned, List.getLast?_map, exhausted]
  cases s.rounds.getLast? <;> rfl

end Saturation

/-! ### Tallies -/

/-- From the tally `before` on, what was counted as a fault for `t` was counted as inapplicable for
`t'`, and all else alike. -/
structure Tally.FaultsMoved (before t t' : Tally) : Prop where
  derived_eq : t'.derived = t.derived
  faulted_eq : t'.faulted = before.faulted
  moved : ∃ m, t.faulted = before.faulted + m ∧ t'.inapplicable = t.inapplicable + m

/-- From the tallies `before` on, what was counted as a fault for `s` was counted as inapplicable
for `s'`, and all else alike, under the same names in the same order. -/
structure Stats.FaultsMoved (before s s' : Stats) : Prop where
  keys_eq : s'.keys = s.keys
  tally : ∀ name, Tally.FaultsMoved (before.tally name) (s.tally name) (s'.tally name)

theorem Tally.FaultsMoved.record {before t t' : Tally} (h : FaultsMoved before t t')
    (o : Outcome) : FaultsMoved before (t.record o) (t'.record o.cleaned) := by
  obtain ⟨hderived, hfaulted, m, hfaults, hmoved⟩ := h
  cases o with
  | derived => exact ⟨congrArg (· + 1) hderived, hfaulted, m, hfaults, hmoved⟩
  | inapplicable =>
    refine ⟨hderived, hfaulted, m, hfaults, ?_⟩
    simp only [Outcome.cleaned, Tally.record]
    omega
  | faulted =>
    -- one more fault on one side is one more application moved on the other
    refine ⟨hderived, hfaulted, m + 1, ?_, ?_⟩
    · simp only [Tally.record]
      omega
    · simp only [Outcome.cleaned, Tally.record]
      omega

/-- Counted from the start, every fault is an application that moved. -/
theorem Tally.FaultsMoved.eq_of_zero {t t' : Tally} (h : FaultsMoved .zero t t') :
    t' = ⟨t.derived, t.inapplicable + t.faulted, 0⟩ := by
  obtain ⟨hderived, hfaulted, m, hfaults, hmoved⟩ := h
  obtain ⟨derived, inapplicable, faulted⟩ := t'
  simp only [Tally.zero, Nat.zero_add] at *
  rw [hderived, hfaulted, hmoved, hfaults]

namespace Stats.FaultsMoved

variable {before s s' : Stats}

theorem refl (s : Stats) : FaultsMoved s s s :=
  ⟨rfl, fun _ => ⟨rfl, rfl, 0, rfl, rfl⟩⟩

theorem record (h : FaultsMoved before s s') (rule : String) (o : Outcome) :
    FaultsMoved before (s.record rule o) (s'.record rule o.cleaned) := by
  constructor
  · rw [keys_record, keys_record, h.keys_eq]
  · intro name
    rw [tally_record, tally_record]
    split
    · exact (h.tally name).record o
    · exact h.tally name

theorem foldl (h : FaultsMoved before s s') {α : Type} (name : α → String) (outcome : α → Outcome)
    (as : List α) :
    FaultsMoved before (as.foldl (fun s a => s.record (name a) (outcome a)) s)
      (as.foldl (fun s a => s.record (name a) (outcome a).cleaned) s') := by
  induction as generalizing s s' with
  | nil => exact h
  | cons a as ih => exact ih (h.record (name a) (outcome a))

end Stats.FaultsMoved

/-! ### The engine -/

namespace Engine

/-- The engine with all its rules cleaned. -/
def cleaned (g : Engine) : Engine := { g with rules := g.rules.map Rule.cleaned }

variable (g : Engine) (kb : List Expr) (probe bound : Value)

theorem verdicts_cleaned (rules : List Rule) :
    verdicts (rules.map Rule.cleaned) kb probe =
      (verdicts rules kb probe).map fun v => (v.1, v.2.cleaned) := by
  simp only [verdicts, List.map_map]
  refine List.map_congr_left fun r _ => ?_
  simp only [Function.comp_apply, apply_cleaned]
  rfl

theorem derivations_cleaned (rules : List Rule) :
    derivations (rules.map Rule.cleaned) kb probe = derivations rules kb probe := by
  rw [derivations, derivations, verdicts_cleaned, List.filterMap_map]
  exact congrArg (List.filterMap · _) (funext fun v => fact?_cleaned v.2)

theorem infer_faultsMoved :
    Stats.FaultsMoved g.stats (g.infer kb probe).1.stats (g.cleaned.infer kb probe).1.stats := by
  rw [stats_infer, stats_infer]
  change Stats.FaultsMoved _ _ ((verdicts (g.rules.map Rule.cleaned) kb probe).foldl _ _)
  rw [verdicts_cleaned, List.foldl_map]
  simp only [outcome_cleaned]
  exact (Stats.FaultsMoved.refl g.stats).foldl Prod.fst (fun v : String × Verdict => v.2.outcome) _

theorem saturate_cleaned :
    (g.cleaned.saturate kb bound).2 = (g.saturate kb bound).2 ∧
      (g.cleaned.saturate kb bound).1.steps = (g.saturate kb bound).1.steps ∧
      Stats.FaultsMoved g.stats (g.saturate kb bound).1.stats
        (g.cleaned.saturate kb bound).1.stats := by
  have hbound : g.cleaned.roundBound bound = g.roundBound bound := rfl
  unfold saturate
  rw [hbound]
  split
  · exact ⟨rfl, rfl, .refl g.stats⟩
  · rename_i n _
    have hrun : Saturation.run g.cleaned.rules n.toNat kb =
        (Saturation.run g.rules n.toNat kb).cleaned := saturation_cleaned g.rules n.toNat kb
    have hcount : g.cleaned.rules.length = g.rules.length := List.length_map _
    dsimp only
    rw [hrun, hcount]
    generalize Saturation.run g.rules n.toNat kb = s
    refine ⟨?_, s.steps_cleaned, ?_⟩
    · simp only [saturationLog, s.facts_cleaned, s.exhausted_cleaned]
    · rw [stats_afterSaturation, stats_afterSaturation, s.applications_cleaned, List.foldl_map]
      have houtcome (a : Application) :
          a.cleaned.verdict.outcome = a.verdict.outcome.cleaned := outcome_cleaned a.verdict
      simp only [houtcome]
      exact (Stats.FaultsMoved.refl g.stats).foldl Application.rule (fun a => a.verdict.outcome) _

end Engine

/-! ### Reductions -/

/-- The reduction that does what a reduction does, and says nothing where that one fails. -/
def Reduction.cleaned (r : Reduction) : Reduction where
  name := r.name
  log := r.log
  run n :=
    match r.run n with
    | .ok v => .ok v
    | .error _ => .ok .nothing

theorem node?_apply_cleaned (r : Reduction) (n : Node) :
    (r.cleaned.apply n).node? = (r.apply n).node? := by
  unfold Reduction.apply Reduction.cleaned
  dsimp only
  rcases r.run n with f | v <;> rfl

/-- **Faults count as silence.**  An engine whose rules are cleaned answers every probe and makes
every run as it did, with the same terms in the same order, the same steps and the same records,
and of its tallies only those applications differ that were faults, which are inapplicable now.
Reducing with cleaned reductions gives the same node and the same records. -/
theorem faults_count_as_silence (g : Engine) (kb : List Expr) (probe bound : Value)
    (rs : List Reduction) (b : Bound) (n : Node) :
    ((g.cleaned.infer kb probe).2 = (g.infer kb probe).2 ∧
      (g.cleaned.infer kb probe).1.steps = (g.infer kb probe).1.steps ∧
      Stats.FaultsMoved g.stats (g.infer kb probe).1.stats (g.cleaned.infer kb probe).1.stats) ∧
    ((g.cleaned.saturate kb bound).2 = (g.saturate kb bound).2 ∧
      (g.cleaned.saturate kb bound).1.steps = (g.saturate kb bound).1.steps ∧
      Stats.FaultsMoved g.stats (g.saturate kb bound).1.stats
        (g.cleaned.saturate kb bound).1.stats) ∧
    reduceWithin b (rs.map Reduction.cleaned) n = reduceWithin b rs n := by
  refine ⟨⟨Engine.derivations_cleaned kb probe g.rules, ?_, g.infer_faultsMoved kb probe⟩,
    g.saturate_cleaned kb bound,
    reduceWithin_map_congr node?_apply_cleaned (fun _ _ => rfl) b rs n⟩
  rw [Engine.steps_infer, Engine.steps_infer]
  rfl

/-- One rule fails for statements, which are the first and the last fact, and another returns a
number always; a term is found after each of the first faults.  Of two reductions, the one that is
tried first fails. -/
theorem faults_count_as_silence_midway :
    let g := Engine.new [.custom "successor" .successor, .custom "five" (.constant (.number 5)),
      .ofCanonical .modusPonens] (.number 1)
    let p : Expr := .var "p" .bool
    let q : Expr := .var "q" .bool
    let x : Expr := .var "x" .int
    let kb : List Expr := [p, x, .app .implies [p, q]]
    let steps : List Step :=
      [⟨1, p, "modus_ponens", q⟩, ⟨1, x, "successor", .app .add [x, .int 1]⟩]
    let reductions : List Reduction :=
      [⟨.failing .illSorted, "broken"⟩, ⟨.mapping x (.var "y" .int), "rename"⟩]
    (g.saturate kb .nothing).1.steps = steps ∧
      (g.saturate kb .nothing).1.stats.tally "successor" = ⟨1, 0, 2⟩ ∧
      (g.cleaned.saturate kb .nothing).1.steps = steps ∧
      (g.cleaned.saturate kb .nothing).1.stats.tally "successor" = ⟨1, 2, 0⟩ ∧
      (g.cleaned.saturate kb .nothing).2 = (g.saturate kb .nothing).2 ∧
      (g.cleaned.infer kb (.term p)).2 = [q] ∧
      reduceWithin .default (reductions.map Reduction.cleaned) (.term x) =
        (.ok (.term (.var "y" .int)), []) := by
  intro g p q x kb steps reductions
  have hsteps : (g.saturate kb .nothing).1.steps = steps := by decide
  have htally : (g.saturate kb .nothing).1.stats.tally "successor" = ⟨1, 0, 2⟩ := by decide
  have hanswers : (g.infer kb (.term p)).2 = [q] := by decide
  obtain ⟨⟨hinfer, -, -⟩, ⟨hrun, hsame, hmoved⟩, hreduce⟩ :=
    faults_count_as_silence g kb (.term p) .nothing reductions .default (.term x)
  have hbefore : g.stats.tally "successor" = .zero := rfl
  have hcleaned := hmoved.tally "successor"
  rw [hbefore, htally] at hcleaned
  exact ⟨hsteps, htally, hsame.trans hsteps, hcleaned.eq_of_zero, hrun, hinfer.trans hanswers,
    hreduce.trans rfl⟩

end Deduce

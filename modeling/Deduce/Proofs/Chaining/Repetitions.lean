import Deduce.Proofs.Chaining.Rounds
import Deduce.Proofs.Rule.Canonical

/-!
# Facts that are listed twice

A fact may stand in a list more than once, and then it is read more than once: by the rules, which
look through the facts, and as a probe.  With canonical rules neither makes a difference.  A
canonical rule takes the first match, so it finds the same without the repetitions
(`derive_eraseDups`).  A fact that comes up as a probe again finds what it found before, which is
known by then (`newSteps_flatMap_eraseDups`).  What a round finds is new and listed once, so after
the round the facts are again those of the other run but for repetitions, and the two runs take the
same steps to the end (`steps_rounds_eraseDups`).
-/

namespace Deduce

/-! ### The four rules -/

theorem modusPonens_eraseDups (kb : List Expr) (probe : Expr) :
    modusPonens kb.eraseDups probe = modusPonens kb probe :=
  Dedup.findSome?_filterMap_eraseDups _ _ kb

theorem transitivity_eraseDups (kb : List Expr) :
    transitivity kb.eraseDups = transitivity kb := by
  -- the inner search goes through all implications, like the outer one
  simp only [transitivity, implications, Dedup.findSome?_filterMap_eraseDups]

theorem symmetry_eraseDups (kb : List Expr) : symmetry kb.eraseDups = symmetry kb := by
  simp only [symmetry, equations, List.head?_filterMap, Dedup.findSome?_eraseDups]

theorem substitution_eraseDups (kb : List Expr) (probe : Expr) :
    substitution kb.eraseDups probe = substitution kb probe :=
  Dedup.findSome?_filterMap_eraseDups _ _ kb

theorem derive_eraseDups (c : Canonical) (kb : List Expr) (probe : Expr) :
    c.derive kb.eraseDups probe = c.derive kb probe := by
  cases c with
  | modusPonens => exact modusPonens_eraseDups kb probe
  | transitivity => exact transitivity_eraseDups kb
  | symmetry => exact symmetry_eraseDups kb
  | substitution => exact substitution_eraseDups kb probe

theorem isEmpty_implications_eraseDups (kb : List Expr) :
    (implications kb.eraseDups).isEmpty = (implications kb).isEmpty := by
  rw [Bool.eq_iff_iff, List.isEmpty_iff, List.isEmpty_iff]
  simp only [List.eq_nil_iff_forall_not_mem, Prod.forall, mem_implications, List.mem_eraseDups]

/-- The probe may be any value: of plain data modus ponens asks only whether there is an
implication at all. -/
theorem run_eraseDups (c : Canonical) (kb : List Expr) (probe : Value) :
    c.run kb.eraseDups probe = c.run kb probe := by
  cases probe <;> cases c <;>
    simp only [Canonical.run, derive_eraseDups, isEmpty_implications_eraseDups,
      transitivity_eraseDups, symmetry_eraseDups]

theorem apply_eraseDups {r : Rule} {c : Canonical} (hr : r.run = c.run) (kb : List Expr)
    (probe : Value) : r.apply kb.eraseDups probe = r.apply kb probe := by
  rw [Rule.apply, Rule.apply, hr, run_eraseDups]

/-! ### Probes one after the other -/

variable {number : ℕ} {known known' : List Expr} {as : List Application}

/-- Which terms are known counts, and not in which order they are listed. -/
theorem newSteps_congr (h : ∀ e, e ∈ known ↔ e ∈ known') (as : List Application) :
    newSteps number known as = newSteps number known' as := by
  induction as generalizing known known' with
  | nil => rfl
  | cons a as ih =>
    have hcons (e : Expr) : newSteps number (e :: known) as = newSteps number (e :: known') as :=
      ih fun e' => by simp only [List.mem_cons, h]
    simp only [newSteps, h, ih h, hcons]

theorem newSteps_append (known : List Expr) (as bs : List Application) :
    newSteps number known (as ++ bs) =
      newSteps number known as ++
        newSteps number (known ++ (newSteps number known as).map Step.derived) bs := by
  induction as generalizing known with
  | nil => simp [newSteps]
  | cons a as ih =>
    rw [List.cons_append, newSteps, newSteps]
    split
    · exact ih known
    · rename_i e _
      split
      · exact ih known
      · rw [ih, List.cons_append, List.map_cons]
        refine congrArg (_ :: _ ++ ·) (newSteps_congr (fun e' => ?_) bs)
        simp only [List.mem_append, List.mem_cons]
        tauto

theorem newSteps_eq_nil (h : ∀ a ∈ as, ∀ e, a.verdict.fact? = some e → e ∈ known) :
    newSteps number known as = [] := by
  rw [← List.map_eq_nil_iff, derived_newSteps, List.eq_nil_iff_forall_not_mem]
  intro e he
  rw [List.mem_eraseDups, List.mem_filter, List.mem_filterMap] at he
  obtain ⟨⟨a, ha, hfact⟩, hnew⟩ := he
  simp [h a ha e hfact] at hnew

/-- Whatever an application derives is known after it. -/
theorem fact_mem_of_application {a : Application} {e : Expr} (ha : a ∈ as)
    (hfact : a.verdict.fact? = some e) :
    e ∈ known ++ (newSteps number known as).map Step.derived := by
  by_cases he : e ∈ known
  · exact List.mem_append_left _ he
  · refine List.mem_append_right _ ?_
    rw [derived_newSteps, List.mem_eraseDups, List.mem_filter, List.mem_filterMap]
    exact ⟨⟨a, ha, hfact⟩, by simpa using he⟩

/-- A probe that comes up again adds no step. -/
theorem newSteps_flatMap_eraseDups (known probes : List Expr) (F : Expr → List Application) :
    newSteps number known (probes.eraseDups.flatMap F) =
      newSteps number known (probes.flatMap F) := by
  induction probes using List.reverseRecOn with
  | nil => rfl
  | append_singleton probes f ih =>
    rw [Dedup.eraseDups_concat, List.flatMap_append, List.flatMap_singleton, newSteps_append]
    split
    · rename_i hf
      have hagain : newSteps number
          (known ++ (newSteps number known (probes.flatMap F)).map Step.derived) (F f) = [] :=
        newSteps_eq_nil fun a ha e hfact =>
          fact_mem_of_application (List.mem_flatMap.2 ⟨f, hf, ha⟩) hfact
      rw [hagain, List.append_nil, ih]
    · rw [List.flatMap_append, List.flatMap_singleton, newSteps_append, ih]

/-! ### Rounds -/

section Rounds

variable {rules : List Rule} (hrules : ∀ r ∈ rules, ∃ c : Canonical, r.run = c.run)

include hrules

theorem applications_eraseDups (known : List Expr) :
    applications rules known.eraseDups =
      known.eraseDups.flatMap fun f => rules.map fun r => ⟨f, r.name, r.apply known (.term f)⟩ := by
  rw [applications]
  congr 1
  funext f
  refine List.map_congr_left fun r hr => ?_
  obtain ⟨c, hc⟩ := hrules r hr
  rw [apply_eraseDups hc]

theorem steps_run_eraseDups (number : ℕ) (known : List Expr) :
    (Round.run rules number known.eraseDups).steps = (Round.run rules number known).steps := by
  simp only [Round.run]
  rw [applications_eraseDups hrules, newSteps_flatMap_eraseDups]
  exact newSteps_congr (fun e => List.mem_eraseDups) _

theorem steps_rounds_eraseDups (bound number : ℕ) (known : List Expr) :
    (rounds rules bound number known.eraseDups).map Round.steps =
      (rounds rules bound number known).map Round.steps := by
  induction bound generalizing number known with
  | zero => rfl
  | succ bound ih =>
    have hsteps := steps_run_eraseDups hrules number known
    have hnew : (Round.run rules number known.eraseDups).facts = newFacts rules known := by
      rw [Round.facts, hsteps]
      exact facts_run rules number known
    -- the round found new terms only, so repetitions are removed as before it
    have hnext : known.eraseDups ++ newFacts rules known =
        (known ++ newFacts rules known).eraseDups :=
      (Dedup.eraseDups_append_of_fresh (nodup_newFacts rules known)
        fun e he => (mem_newFacts.1 he).1).symm
    rw [rounds, rounds, hsteps, hnew, facts_run, hnext]
    split
    · rw [List.map_singleton, List.map_singleton, hsteps]
    · rw [List.map_cons, List.map_cons, hsteps, ih]

theorem steps_saturation_eraseDups (bound : ℕ) (kb : List Expr) :
    (Saturation.run rules bound kb.eraseDups).steps = (Saturation.run rules bound kb).steps := by
  have hflat (s : Saturation) : s.steps = (s.rounds.map Round.steps).flatten := List.flatMap_def
  rw [hflat, hflat]
  exact congrArg List.flatten (steps_rounds_eraseDups hrules bound 1 kb)

theorem derivations_eraseDups (kb : List Expr) (probe : Value) :
    Engine.derivations rules kb.eraseDups probe = Engine.derivations rules kb probe := by
  rw [Engine.derivations, Engine.derivations, Engine.verdicts, Engine.verdicts]
  refine congrArg (List.filterMap _) (List.map_congr_left fun r hr => ?_)
  obtain ⟨c, hc⟩ := hrules r hr
  rw [apply_eraseDups hc]

end Rounds

/-! ### The engine -/

/-- **Repetitions among the facts do not count.**  If the rules are canonical ones, in any order
and number, then a run finds the same terms by the same steps, and a probe is answered alike,
whether or not the facts are freed of repetitions before. -/
theorem repetitions_do_not_count {g : Engine}
    (hrules : ∀ r ∈ g.rules, ∃ c : Canonical, r.run = c.run) (kb : List Expr) :
    (∀ bound n, g.roundBound bound = .ok n → ∃ found : List Expr,
      (g.saturate kb bound).2.1 = .ok found ∧ (g.saturate kb.eraseDups bound).2.1 = .ok found ∧
      (g.saturate kb.eraseDups bound).1.steps = (g.saturate kb bound).1.steps) ∧
    ∀ probe, (g.infer kb.eraseDups probe).2 = (g.infer kb probe).2 := by
  refine ⟨fun bound n hn => ⟨_, Engine.found_saturate hn kb, ?_, ?_⟩,
    derivations_eraseDups hrules kb⟩
  · rw [Engine.found_saturate hn, ← facts_saturation, ← facts_saturation, Saturation.facts,
      steps_saturation_eraseDups hrules, Saturation.facts]
  · rw [Engine.steps_saturate hn, Engine.steps_saturate hn, steps_saturation_eraseDups hrules]

/-- Both premises of a chain are listed twice, and so is the probe of modus ponens.  A probe that is
no fact is answered by both rules. -/
theorem repetitions_do_not_count_chain :
    let g := Engine.new ([.modusPonens, .transitivity].map .ofCanonical) (.number 3)
    let p : Expr := .var "p" .bool
    let q : Expr := .var "q" .bool
    let r : Expr := .var "r" .bool
    let kb : List Expr := [p, .app .implies [q, r], p, .app .implies [p, q], .app .implies [q, r],
      .app .implies [p, q]]
    kb.eraseDups = [p, .app .implies [q, r], .app .implies [p, q]] ∧
      (∃ found : List Expr, (g.saturate kb .nothing).2.1 = .ok found ∧
        (g.saturate kb.eraseDups .nothing).2.1 = .ok found ∧
        (g.saturate kb.eraseDups .nothing).1.steps = (g.saturate kb .nothing).1.steps) ∧
      (g.saturate kb .nothing).1.steps =
        [⟨1, p, "modus_ponens", q⟩, ⟨1, p, "transitivity", .app .implies [p, r]⟩,
          ⟨2, q, "modus_ponens", r⟩] ∧
      (g.infer kb.eraseDups (.term q)).2 = (g.infer kb (.term q)).2 ∧
      (g.infer kb (.term q)).2 = [r, .app .implies [p, r]] := by
  intro g p q r kb
  have hrules : ∀ r ∈ g.rules, ∃ c : Canonical, r.run = c.run := by
    intro r hr
    obtain ⟨c, -, rfl⟩ := List.mem_map.1 hr
    exact ⟨c, rfl⟩
  obtain ⟨hruns, hprobes⟩ := repetitions_do_not_count hrules kb
  exact ⟨by decide, hruns .nothing 3 rfl, by decide, hprobes (.term q), by decide⟩

end Deduce

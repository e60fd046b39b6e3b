import Deduce.Proofs.Chaining.Tallies
import Deduce.Proofs.Data.Dedup

/-!
# Rounds as an operator on facts

What a round finds depends on the rules and on the facts at its start, and not on its number:
`newFacts` are the terms that the rules derive, without those that are known and without
repetitions.  A run of forward chaining repeats this operator and appends each time
(`chained`).  The run stops at the first round that finds nothing; the operator would go on, but
a round without new facts is followed by its like (`chained_of_newFacts_eq_nil`), so both find the
same (`facts_rounds`).
-/

namespace Deduce

/-! ### One round -/

/-- What the rules derive from the facts, each as the probe, in order. -/
def derivedFacts (rules : List Rule) (known : List Expr) : List Expr :=
  (applications rules known).filterMap fun a => a.verdict.fact?

/-- The terms that a round over the facts `known` finds. -/
def newFacts (rules : List Rule) (known : List Expr) : List Expr :=
  ((derivedFacts rules known).filter (· ∉ known)).eraseDups

theorem fact?_eq_some {v : Verdict} {e : Expr} : v.fact? = some e ↔ v = .derived e := by
  cases v <;> simp [Verdict.fact?]

theorem derived_newSteps (number : Nat) (known : List Expr) (as : List Application) :
    (newSteps number known as).map Step.derived =
      ((as.filterMap fun a => a.verdict.fact?).filter (· ∉ known)).eraseDups := by
  induction as generalizing known with
  | nil => rfl
  | cons a as ih =>
    rw [newSteps]
    split
    · rename_i ha
      rw [ih, List.filterMap_cons_none (f := fun a : Application => a.verdict.fact?) ha]
    · rename_i e ha
      rw [List.filterMap_cons_some (f := fun a : Application => a.verdict.fact?) ha]
      split
      · rename_i he
        rw [ih, List.filter_cons_of_neg (by simpa using he)]
      · rename_i he
        rw [Dedup.eraseDups_filter_cons he, List.map_cons, ih]

theorem facts_run (rules : List Rule) (number : Nat) (known : List Expr) :
    (Round.run rules number known).facts = newFacts rules known :=
  derived_newSteps number known _

theorem steps_run_eq_nil {rules : List Rule} {number : Nat} {known : List Expr} :
    (Round.run rules number known).steps.isEmpty = true ↔ newFacts rules known = [] := by
  rw [← facts_run rules number, Round.facts, List.map_eq_nil_iff, List.isEmpty_iff]

theorem mem_applications {rules : List Rule} {known : List Expr} {a : Application} :
    a ∈ applications rules known ↔
      ∃ f ∈ known, ∃ r ∈ rules, a = ⟨f, r.name, r.apply known (.term f)⟩ := by
  simp only [applications, List.mem_flatMap, List.mem_map]
  constructor
  · rintro ⟨f, hf, r, hr, rfl⟩
    exact ⟨f, hf, r, hr, rfl⟩
  · rintro ⟨f, hf, r, hr, rfl⟩
    exact ⟨f, hf, r, hr, rfl⟩

theorem mem_newFacts {rules : List Rule} {known : List Expr} {e : Expr} :
    e ∈ newFacts rules known ↔
      e ∉ known ∧ ∃ f ∈ known, ∃ r ∈ rules, r.apply known (.term f) = .derived e := by
  have hderived : e ∈ derivedFacts rules known ↔
      ∃ f ∈ known, ∃ r ∈ rules, r.apply known (.term f) = .derived e := by
    simp only [derivedFacts, List.mem_filterMap, mem_applications, fact?_eq_some]
    constructor
    · rintro ⟨a, ⟨f, hf, r, hr, rfl⟩, ha⟩
      exact ⟨f, hf, r, hr, ha⟩
    · rintro ⟨f, hf, r, hr, ha⟩
      exact ⟨_, ⟨f, hf, r, hr, rfl⟩, ha⟩
  rw [newFacts, List.mem_eraseDups, List.mem_filter, hderived, decide_eq_true_eq, and_comm]

theorem nodup_newFacts (rules : List Rule) (known : List Expr) : (newFacts rules known).Nodup :=
  Dedup.nodup_eraseDups _

/-! ### Many rounds -/

/-- The terms found when the rules are applied `n` times over, each time to all facts there are
by then. -/
def chained (rules : List Rule) : (n : Nat) → (known : List Expr) → List Expr
  | 0, _ => []
  | n + 1, known => newFacts rules known ++ chained rules n (known ++ newFacts rules known)

theorem chained_of_newFacts_eq_nil {rules : List Rule} {known : List Expr}
    (h : newFacts rules known = []) (n : Nat) : chained rules n known = [] := by
  induction n with
  | zero => rfl
  | succ n ih => rw [chained, h, List.append_nil, List.nil_append, ih]

/-- The rounds of a run find what the repeated operator finds, although they end with the first
that finds nothing. -/
theorem facts_rounds (rules : List Rule) (n number : Nat) (known : List Expr) :
    (rounds rules n number known).flatMap Round.facts = chained rules n known := by
  induction n generalizing number known with
  | zero => rfl
  | succ n ih =>
    rw [rounds, chained]
    split
    · rename_i hempty
      have hnil := steps_run_eq_nil.1 hempty
      rw [hnil, List.append_nil, chained_of_newFacts_eq_nil hnil, List.flatMap_singleton,
        facts_run, hnil, List.append_nil]
    · rw [List.flatMap_cons, facts_run, ih]

theorem facts_saturation (rules : List Rule) (n : Nat) (known : List Expr) :
    (Saturation.run rules n known).facts = chained rules n known := by
  rw [← facts_rounds rules n 1, Saturation.facts, Saturation.steps, List.map_flatMap]
  rfl

/-- A run of `n + m` rounds is one of `n` rounds and, from what is known then, one of `m`. -/
theorem chained_add (rules : List Rule) (n m : Nat) (known : List Expr) :
    chained rules (n + m) known =
      chained rules n known ++ chained rules m (known ++ chained rules n known) := by
  induction n generalizing known with
  | zero => rw [Nat.zero_add, chained, List.append_nil, List.nil_append]
  | succ n ih =>
    rw [Nat.add_right_comm, chained, ih, chained]
    simp only [List.append_assoc]

/-- **Induction over a run.**  What holds of the facts, and of every term that a rule derives
from facts of which it holds, holds of all terms found. -/
theorem forall_mem_chained {rules : List Rule} {P : Expr → Prop}
    (hstep : ∀ known : List Expr, (∀ f ∈ known, P f) → ∀ f ∈ known, ∀ r ∈ rules, ∀ e,
      r.apply known (.term f) = .derived e → P e)
    (n : Nat) {known : List Expr} (hknown : ∀ f ∈ known, P f) :
    ∀ e ∈ chained rules n known, P e := by
  induction n generalizing known with
  | zero => simp [chained]
  | succ n ih =>
    have hnew : ∀ e ∈ newFacts rules known, P e := by
      intro e he
      obtain ⟨-, f, hf, r, hr, happly⟩ := mem_newFacts.1 he
      exact hstep known hknown f hf r hr e happly
    intro e he
    rcases List.mem_append.1 he with he | he
    · exact hnew e he
    · refine ih (fun f hf => ?_) e he
      rcases List.mem_append.1 hf with hf | hf
      · exact hknown f hf
      · exact hnew f hf

/-! ### The engine -/

namespace Engine

theorem rules_saturate (g : Engine) (kb : List Expr) (bound : Value) :
    (g.saturate kb bound).1.rules = g.rules := by
  unfold saturate
  split
  · rfl
  · dsimp only
    rw [afterSaturation_eq]

theorem maxRounds_saturate (g : Engine) (kb : List Expr) (bound : Value) :
    (g.saturate kb bound).1.maxRounds = g.maxRounds := by
  unfold saturate
  split
  · rfl
  · dsimp only
    rw [afterSaturation_eq]

variable {g : Engine} {bound : Value} {n : Int}

theorem found_saturate (hn : g.roundBound bound = .ok n) (kb : List Expr) :
    (g.saturate kb bound).2.1 = .ok (chained g.rules n.toNat kb) := by
  rw [← facts_saturation]
  unfold saturate
  rw [hn]

theorem steps_saturate (hn : g.roundBound bound = .ok n) (kb : List Expr) :
    (g.saturate kb bound).1.steps = (Saturation.run g.rules n.toNat kb).steps := by
  unfold saturate
  rw [hn]
  rfl

theorem found_saturate_number (g : Engine) (kb : List Expr) (n : ℕ) :
    (g.saturate kb (.number n)).2.1 = .ok (chained g.rules n kb) := by
  have hn : g.roundBound (.number n) = .ok (n : Int) := rfl
  exact found_saturate hn kb

end Engine

end Deduce

import Deduce.Proofs.Chaining.Rounds
import Mathlib.Data.List.Chain

/-!
# The trace of a run

The steps that an engine keeps of a run say how each term was found, and they can be checked
(`saturate_traced`): numbering starts with one and leaves no number out, and a step of round `r`
takes its premise from the facts known when round `r` began, applies a rule of its name to just
these facts, and finds a term that was not among them.  Terms found earlier in the same round
count as found, but no rule sees them.
-/

namespace Deduce

/-- The facts that a round starts with, read off the steps of a run: those given, and those found
in rounds with a smaller number. -/
def factsBefore (kb : List Expr) (steps : List Step) (round : ℕ) : List Expr :=
  kb ++ (steps.filter fun t => t.round < round).map Step.derived

/-- A step can be repeated: a rule of its name, applied to the facts and the premise, which is
one of them, derives the term, which is none. -/
structure Step.Justified (rules : List Rule) (facts : List Expr) (t : Step) : Prop where
  premise_mem : t.premise ∈ facts
  rule_applies : ∃ r ∈ rules, r.name = t.rule ∧ r.apply facts (.term t.premise) = .derived t.derived
  derived_not_mem : t.derived ∉ facts

/-- The steps of a run of at most `bound` rounds, the first of which has the number `first`. -/
structure Trace (rules : List Rule) (kb : List Expr) (first bound : ℕ) (steps : List Step) :
    Prop where
  /-- No term is found twice. -/
  nodup : (steps.map Step.derived).Nodup
  /-- No fact is found again. -/
  fresh : ∀ t ∈ steps, t.derived ∉ kb
  /-- The first step is one of the first round. -/
  starts : ∀ t ∈ steps.head?, t.round = first
  /-- The next step is one of the same round or of the next one. -/
  advances : steps.IsChain fun t t' => t'.round = t.round ∨ t'.round = t.round + 1
  /-- There are no other rounds. -/
  bounded : ∀ t ∈ steps, first ≤ t.round ∧ t.round < first + bound
  /-- Every step can be repeated with the facts that its round started with. -/
  justified : ∀ t ∈ steps, t.Justified rules (factsBefore kb steps t.round)

variable {rules : List Rule} {kb known : List Expr}

/-! ### One round -/

theorem mem_newSteps {number : ℕ} {as : List Application} {t : Step}
    (h : t ∈ newSteps number known as) :
    t.round = number ∧
      ∃ a ∈ as, a.premise = t.premise ∧ a.rule = t.rule ∧ a.verdict = .derived t.derived := by
  induction as generalizing known with
  | nil => simp [newSteps] at h
  | cons a as ih =>
    have hlater {known : List Expr} (h : t ∈ newSteps number known as) :
        t.round = number ∧ ∃ b ∈ a :: as,
          b.premise = t.premise ∧ b.rule = t.rule ∧ b.verdict = .derived t.derived := by
      obtain ⟨hround, b, hb, hstep⟩ := ih h
      exact ⟨hround, b, List.mem_cons_of_mem a hb, hstep⟩
    rw [newSteps] at h
    split at h
    · exact hlater h
    · rename_i e ha
      split at h
      · exact hlater h
      · rcases List.mem_cons.1 h with rfl | h
        · exact ⟨rfl, a, List.mem_cons_self, rfl, rfl, fact?_eq_some.1 ha⟩
        · exact hlater h

theorem round_of_mem_run {number : ℕ} {t : Step} (h : t ∈ (Round.run rules number known).steps) :
    t.round = number :=
  (mem_newSteps h).1

theorem justified_of_mem_run {number : ℕ} {t : Step}
    (h : t ∈ (Round.run rules number known).steps) : t.Justified rules known := by
  obtain ⟨-, a, ha, hpremise, hrule, hverdict⟩ := mem_newSteps h
  obtain ⟨f, hf, r, hr, rfl⟩ := mem_applications.1 ha
  have hnew : t.derived ∈ newFacts rules known := by
    rw [← facts_run rules number]
    exact List.mem_map_of_mem h
  exact ⟨hpremise ▸ hf, ⟨r, hr, hrule, hpremise ▸ hverdict⟩, (mem_newFacts.1 hnew).1⟩

/-! ### Many rounds -/

theorem Trace.nil (rules : List Rule) (kb : List Expr) (first bound : ℕ) :
    Trace rules kb first bound [] where
  nodup := List.nodup_nil
  fresh := by simp
  starts := by simp
  advances := .nil
  bounded := by simp
  justified := by simp

/-- In the first of several rounds the facts are those given. -/
theorem factsBefore_first {first : ℕ} {steps : List Step} (h : ∀ t ∈ steps, first ≤ t.round) :
    factsBefore kb steps first = kb := by
  have hnone : (steps.filter fun t => t.round < first) = [] := by
    refine List.filter_eq_nil_iff.2 fun t ht => ?_
    have := h t ht
    simpa using this
  rw [factsBefore, hnone, List.map_nil, List.append_nil]

/-- To the rounds after the first, what the first found is given too. -/
theorem factsBefore_later {first round : ℕ} {now rest : List Step}
    (h : ∀ t ∈ now, t.round = first) (hround : first < round) :
    factsBefore kb (now ++ rest) round =
      factsBefore (kb ++ now.map Step.derived) rest round := by
  have hall : (now.filter fun t => t.round < round) = now := by
    refine List.filter_eq_self.2 fun t ht => ?_
    rw [h t ht]
    simpa using hround
  rw [factsBefore, factsBefore, List.filter_append, hall, List.map_append, List.append_assoc]

/-- **One more round in front.**  The steps of a round that found something and the trace of the
rounds after it make a trace. -/
theorem Trace.cons {first bound : ℕ} {rest : List Step}
    (hne : (Round.run rules first known).steps ≠ [])
    (h : Trace rules (known ++ newFacts rules known) (first + 1) bound rest) :
    Trace rules known first (bound + 1) ((Round.run rules first known).steps ++ rest) := by
  have hfacts : (Round.run rules first known).steps.map Step.derived = newFacts rules known :=
    facts_run rules first known
  have hnow : ∀ t ∈ (Round.run rules first known).steps, t.round = first :=
    fun t ht => round_of_mem_run ht
  have hjust : ∀ t ∈ (Round.run rules first known).steps, t.Justified rules known :=
    fun t ht => justified_of_mem_run ht
  generalize (Round.run rules first known).steps = now at hne hfacts hnow hjust ⊢
  have hlater : ∀ t ∈ rest, first < t.round := fun t ht => (h.bounded t ht).1
  refine ⟨?_, ?_, ?_, ?_, ?_, ?_⟩
  · rw [List.map_append, List.nodup_append, hfacts]
    refine ⟨nodup_newFacts rules known, h.nodup, fun e he e' he' hee' => ?_⟩
    obtain ⟨t, ht, rfl⟩ := List.mem_map.1 he'
    exact h.fresh t ht (List.mem_append_right _ (hee' ▸ he))
  · intro t ht
    rcases List.mem_append.1 ht with ht | ht
    · exact (hjust t ht).derived_not_mem
    · exact fun hmem => h.fresh t ht (List.mem_append_left _ hmem)
  · intro t ht
    rw [List.head?_append_of_ne_nil _ hne] at ht
    exact hnow t (List.mem_of_mem_head? ht)
  · refine List.isChain_append.2 ⟨?_, h.advances, fun t ht t' ht' => .inr ?_⟩
    · refine (List.pairwise_of_forall_mem_list fun t ht t' ht' => .inl ?_).isChain
      rw [hnow t ht, hnow t' ht']
    · rw [hnow t (List.mem_of_mem_getLast? ht), h.starts t' ht']
  · intro t ht
    rcases List.mem_append.1 ht with ht | ht
    · rw [hnow t ht]
      omega
    · have := h.bounded t ht
      omega
  · intro t ht
    rcases List.mem_append.1 ht with ht | ht
    · have hfirst : ∀ u ∈ now ++ rest, first ≤ u.round := by
        intro u hu
        rcases List.mem_append.1 hu with hu | hu
        · exact Nat.le_of_eq (hnow u hu).symm
        · exact Nat.le_of_lt (hlater u hu)
      rw [hnow t ht, factsBefore_first hfirst]
      exact hjust t ht
    · rw [factsBefore_later hnow (hlater t ht), hfacts]
      exact h.justified t ht

theorem trace_rounds (rules : List Rule) (bound first : ℕ) (known : List Expr) :
    Trace rules known first bound ((rounds rules bound first known).flatMap Round.steps) := by
  induction bound generalizing first known with
  | zero => exact .nil rules known first 0
  | succ bound ih =>
    rw [rounds]
    split
    · rename_i hempty
      rw [List.flatMap_singleton, List.isEmpty_iff.1 hempty]
      exact .nil rules known first (bound + 1)
    · rename_i hne
      rw [List.flatMap_cons, facts_run]
      exact .cons (fun hnil => hne (List.isEmpty_iff.2 hnil)) (ih (first + 1) _)

/-! ### The engine -/

/-- **Every run leaves a trace that can be checked.**  Whatever the rules, the facts and the
bound, the terms found are new and all different, and they are those of the steps, in order; the
steps are numbered from round one on without a gap, no number exceeds the bound, and each step
can be repeated with the facts that its round started with. -/
theorem saturate_traced {g : Engine} {bound : Value} {n : Int}
    (hn : g.roundBound bound = .ok n) (kb : List Expr) :
    ∃ found : List Expr,
      (g.saturate kb bound).2.1 = .ok found ∧ found.Nodup ∧ (∀ e ∈ found, e ∉ kb) ∧
      (g.saturate kb bound).1.steps.map Step.derived = found ∧
      (∀ t ∈ (g.saturate kb bound).1.steps, (t.round : Int) ≤ n) ∧
      Trace g.rules kb 1 n.toNat (g.saturate kb bound).1.steps := by
  have htrace : Trace g.rules kb 1 n.toNat (g.saturate kb bound).1.steps := by
    rw [Engine.steps_saturate hn]
    exact trace_rounds g.rules n.toNat 1 kb
  have hfound : (g.saturate kb bound).1.steps.map Step.derived =
      chained g.rules n.toNat kb := by
    rw [Engine.steps_saturate hn, ← facts_saturation]
    rfl
  refine ⟨_, Engine.found_saturate hn kb, hfound ▸ htrace.nodup, fun e he => ?_, hfound,
    fun t ht => ?_, htrace⟩
  · rw [← hfound] at he
    obtain ⟨t, ht, rfl⟩ := List.mem_map.1 he
    exact htrace.fresh t ht
  · have := htrace.bounded t ht
    omega

/-- Two rounds find something here, the third nothing; the bound is that of the engine. -/
theorem saturate_traced_chain :
    (Engine.new [.ofCanonical .modusPonens] (.number 5)).roundBound .nothing = .ok 5 ∧
      Trace [.ofCanonical .modusPonens]
        [.var "p" .bool, .app .implies [.var "q" .bool, .var "r" .bool],
          .app .implies [.var "p" .bool, .var "q" .bool]] 1 5
        [⟨1, .var "p" .bool, "modus_ponens", .var "q" .bool⟩,
          ⟨2, .var "q" .bool, "modus_ponens", .var "r" .bool⟩] := by
  have hn : (Engine.new [.ofCanonical .modusPonens] (.number 5)).roundBound .nothing = .ok 5 := rfl
  obtain ⟨found, -, -, -, -, -, htrace⟩ := saturate_traced hn
    [.var "p" .bool, .app .implies [.var "q" .bool, .var "r" .bool],
      .app .implies [.var "p" .bool, .var "q" .bool]]
  exact ⟨hn, htrace⟩

end Deduce

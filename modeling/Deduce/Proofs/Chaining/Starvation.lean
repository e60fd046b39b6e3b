import Deduce.Proofs.Chaining.Trace
import Deduce.Proofs.Rule.Scans

/-!
# Rules that are starved

Symmetry and transitivity do not look at the probe: over given facts each of them has one answer
(`Rule.Answers`), whatever fact of a round is the probe.  So they find one term in a round at most,
and how often they find something in a run depends on how their answers change as facts are added.

The answer of symmetry survives all further facts, so one step of a run at most is by symmetry,
whatever the other rules find (`Trace.length_filter_le_one`).  The answer of transitivity may be
overtaken by a further fact, but not by the answer itself (`transitivity_concat`), so transitivity
alone finds one term at most, whatever else the facts imply (`length_chained_le_one`).
-/

namespace Deduce

variable {kb : List Expr} {rules : List Rule} {answer : List Expr → Option Expr}

/-- All that a rule derives from facts is the answer to these facts, whatever the probe. -/
def Rule.Answers (r : Rule) (answer : List Expr → Option Expr) : Prop :=
  ∀ facts probe e, r.apply facts (.term probe) = .derived e → answer facts = some e

theorem answers_symmetry {r : Rule} (hr : r.run = Canonical.symmetry.run) :
    r.Answers symmetry :=
  fun _ _ _ => (apply_eq_derived hr).1

theorem answers_transitivity {r : Rule} (hr : r.run = Canonical.transitivity.run) :
    r.Answers transitivity :=
  fun _ _ _ => (apply_eq_derived hr).1

/-! ### An answer that survives all further facts -/

/-- What is known before a round is known before the later ones. -/
theorem factsBefore_prefix (kb : List Expr) {steps : List Step} {i j : ℕ}
    (hsteps : steps.Pairwise fun t u => t.round ≤ u.round) (hij : i ≤ j) :
    factsBefore kb steps i <+: factsBefore kb steps j := by
  have hfilter : (steps.filter fun t => t.round < i) <+: (steps.filter fun t => t.round < j) := by
    induction steps with
    | nil => exact List.prefix_rfl
    | cons t steps ih =>
      obtain ⟨ht, hsteps⟩ := List.pairwise_cons.1 hsteps
      by_cases hi : t.round < i
      · rw [List.filter_cons_of_pos (by simpa using hi),
          List.filter_cons_of_pos (by simpa using hi.trans_le hij)]
        exact (List.prefix_cons_inj t).2 (ih hsteps)
      · -- no later step is of an earlier round
        have hnone : (t :: steps).filter (fun t => t.round < i) = [] := by
          simp only [List.filter_eq_nil_iff, List.mem_cons, forall_eq_or_imp, decide_eq_true_eq]
          refine ⟨hi, fun u hu => ?_⟩
          have := ht u hu
          omega
        rw [hnone]
        exact List.nil_prefix
  exact (List.prefix_append_right_inj kb).2 (hfilter.map Step.derived)

theorem Trace.pairwise_round_le {first bound : ℕ} {steps : List Step}
    (h : Trace rules kb first bound steps) : steps.Pairwise fun t u => t.round ≤ u.round := by
  have hchain : steps.IsChain fun t u => t.round ≤ u.round := h.advances.imp fun t u htu => by omega
  exact List.isChain_iff_pairwise.1 hchain

/-- **One step by a rule whose answer survives.**  If all rules of a name have one answer, and that
stays the same with further facts, then a run has one step by them at most. -/
theorem Trace.length_filter_le_one {first bound : ℕ} {steps : List Step} {name : String}
    (h : Trace rules kb first bound steps)
    (hanswers : ∀ r ∈ rules, r.name = name → r.Answers answer)
    (hsurvives : ∀ facts ext e, answer facts = some e → answer (facts ++ ext) = some e) :
    (steps.filter fun t => t.rule = name).length ≤ 1 := by
  have hanswer : ∀ t ∈ steps, t.rule = name →
      answer (factsBefore kb steps t.round) = some t.derived := by
    intro t ht htname
    obtain ⟨r, hr, hrname, happly⟩ := (h.justified t ht).rule_applies
    exact hanswers r hr (hrname.trans htname) _ _ _ happly
  have hlater : ∀ t ∈ steps, ∀ u ∈ steps, t.rule = name → u.rule = name → t.round ≤ u.round →
      t.derived = u.derived := by
    intro t ht u hu htname huname hround
    obtain ⟨ext, hext⟩ := factsBefore_prefix kb h.pairwise_round_le hround
    have hkept := hsurvives _ ext _ (hanswer t ht htname)
    rw [hext, hanswer u hu huname] at hkept
    exact (Option.some.inj hkept).symm
  -- the steps by the rules of the name find the same term, and no term is found twice
  have hnodup : ((steps.filter fun t => t.rule = name).map Step.derived).Nodup :=
    h.nodup.sublist (List.filter_sublist.map Step.derived)
  rw [← List.length_map Step.derived]
  refine Dedup.length_le_one_of_nodup hnodup ?_
  simp only [List.mem_map, List.mem_filter, decide_eq_true_eq]
  rintro _ ⟨t, ⟨ht, htname⟩, rfl⟩ _ ⟨u, ⟨hu, huname⟩, rfl⟩
  rcases le_total t.round u.round with hround | hround
  · exact hlater t ht u hu htname huname hround
  · exact (hlater u hu t ht huname htname hround).symm

/-! ### An answer that survives itself -/

/-- **One term by rules whose answer survives itself.**  If all rules have one answer, and that stays
the same when it is added to the facts, then a run finds one term at most. -/
theorem length_chained_le_one (hanswers : ∀ r ∈ rules, r.Answers answer)
    (hsurvives : ∀ facts e, answer facts = some e → answer (facts ++ [e]) = some e)
    (n : ℕ) (kb : List Expr) : (chained rules n kb).length ≤ 1 := by
  have hanswer (known : List Expr) : ∀ e ∈ newFacts rules known, answer known = some e := by
    intro e he
    obtain ⟨-, f, -, r, hr, happly⟩ := mem_newFacts.1 he
    exact hanswers r hr known f e happly
  cases n with
  | zero => exact Nat.zero_le 1
  | succ n =>
    have hone : (newFacts rules kb).length ≤ 1 := by
      refine Dedup.length_le_one_of_nodup (nodup_newFacts rules kb) fun x hx y hy => ?_
      exact Option.some.inj ((hanswer kb x hx).symm.trans (hanswer kb y hy))
    have hlater : newFacts rules (kb ++ newFacts rules kb) = [] := by
      match hnew : newFacts rules kb with
      | [] => rw [List.append_nil, hnew]
      | [e] =>
        -- the second round has the answer of the first, which is known by then
        have he : answer (kb ++ [e]) = some e := hsurvives kb e (hanswer kb e (by simp [hnew]))
        refine List.eq_nil_iff_forall_not_mem.2 fun x hx => (mem_newFacts.1 hx).1 ?_
        obtain rfl : e = x := Option.some.inj (he.symm.trans (hanswer _ x hx))
        exact List.mem_append_right kb (List.mem_singleton_self e)
      | _ :: _ :: _ => simp [hnew] at hone
    rw [chained, chained_of_newFacts_eq_nil hlater, List.append_nil]
    exact hone

/-! ### The engine -/

/-- **Rules that do not look at the probe are starved.**  Within whatever bound, a run has one step
by symmetry at most, if no other rule bears its name; and a run of transitivity alone finds one term
at most, however long the chains are that the implications among the facts make. -/
theorem saturate_starves {g : Engine} {bound : Value} {n : Int} (hn : g.roundBound bound = .ok n)
    (kb : List Expr) :
    ((∀ r ∈ g.rules, r.name = Canonical.symmetry.name → r.run = Canonical.symmetry.run) →
      ((g.saturate kb bound).1.steps.filter fun t => t.rule = Canonical.symmetry.name).length ≤ 1) ∧
    ((∀ r ∈ g.rules, r.run = Canonical.transitivity.run) →
      ∃ found, (g.saturate kb bound).2.1 = .ok found ∧ found.length ≤ 1) := by
  constructor
  · intro hsymmetry
    rw [Engine.steps_saturate hn]
    exact (trace_rounds g.rules n.toNat 1 kb).length_filter_le_one
      (fun r hr hname => answers_symmetry (hsymmetry r hr hname))
      fun facts ext e => symmetry_append ext
  · intro htransitivity
    refine ⟨_, Engine.found_saturate hn kb, ?_⟩
    exact length_chained_le_one (fun r hr => answers_transitivity (htransitivity r hr))
      (fun facts e => transitivity_concat) n.toNat kb

/-- Each of three rounds with the four canonical rules finds something here, but symmetry finds
something in the first one only; of the implications that follow from a chain of three, transitivity
alone finds one. -/
theorem saturate_starves_chain :
    let v (name : String) : Expr := .var name .bool
    let implies (a b : Expr) : Expr := .app .implies [a, b]
    let kb := [implies (v "p") (v "q"), implies (v "q") (v "r"), implies (v "r") (v "s"),
      .app .eq [v "p", v "r"]]
    let all := Engine.new Rule.defaults (.number 3)
    let chaining := Engine.new [.ofCanonical .transitivity] (.number 3)
    let bySymmetry := (all.saturate kb .nothing).1.steps.filter fun t =>
      t.rule = Canonical.symmetry.name
    all.roundBound .nothing = .ok 3 ∧ (∃ t ∈ (all.saturate kb .nothing).1.steps, t.round = 3) ∧
      bySymmetry.map Step.derived = [.app .eq [v "r", v "p"]] ∧ bySymmetry.length ≤ 1 ∧
      ∃ found, (chaining.saturate kb .nothing).2.1 = .ok found ∧ found.length ≤ 1 ∧
        found = [implies (v "p") (v "r")] := by
  intro v implies kb all chaining bySymmetry
  have hall : all.roundBound .nothing = .ok 3 := rfl
  have hchaining : chaining.roundBound .nothing = .ok 3 := rfl
  have hsymmetry : ∀ r ∈ all.rules, r.name = Canonical.symmetry.name →
      r.run = Canonical.symmetry.run := by
    intro r hr hname
    obtain ⟨c, -, rfl⟩ := List.mem_map.1 hr
    cases c with
    | symmetry => rfl
    | modusPonens | transitivity | substitution => exact absurd hname (by decide)
  have htransitivity : ∀ r ∈ chaining.rules, r.run = Canonical.transitivity.run := by
    simp [chaining, Engine.new, Rule.ofCanonical]
  obtain ⟨found, hfound, hlength⟩ := (saturate_starves hchaining kb).2 htransitivity
  have hthree : ∃ t ∈ (all.saturate kb .nothing).1.steps, t.round = 3 := by decide
  have hone : bySymmetry.map Step.derived = [.app .eq [v "r", v "p"]] := by decide
  have hchained : chained chaining.rules 3 kb = [implies (v "p") (v "r")] := by decide
  have hvalue : found = [implies (v "p") (v "r")] := by
    rw [Engine.found_saturate hchaining kb] at hfound
    exact (Except.ok.inj hfound).symm.trans hchained
  exact ⟨hall, hthree, hone, (saturate_starves hall kb).1 hsymmetry, found, hfound, hlength, hvalue⟩

end Deduce

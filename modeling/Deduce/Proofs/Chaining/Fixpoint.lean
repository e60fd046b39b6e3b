import Deduce.Proofs.Chaining.Trace

/-!
# The warning of a run

Facts are *closed* under rules (`Closed`) if the rules derive nothing from them that is not among
them; from there on forward chaining finds nothing.  A run warns that its bound was used up if and
only if every round that it was allowed did take place and found something
(`warns_saturate_iff`).  A run that does not warn had a round that found nothing, and then the
facts are closed (`closed_of_idle`), so neither a second run nor a longer one would find more
(`saturate_warns_exactly`).
-/

namespace Deduce

variable {rules : List Rule} {known : List Expr}

/-! ### Closed facts -/

/-- What the rules derive from the facts, with any of them as the probe, is among the facts. -/
def Closed (rules : List Rule) (facts : List Expr) : Prop :=
  ∀ f ∈ facts, ∀ r ∈ rules, ∀ e, r.apply facts (.term f) = .derived e → e ∈ facts

theorem closed_iff : Closed rules known ↔ newFacts rules known = [] := by
  constructor
  · intro h
    refine List.eq_nil_iff_forall_not_mem.2 fun e he => ?_
    obtain ⟨hne, f, hf, r, hr, happly⟩ := mem_newFacts.1 he
    exact hne (h f hf r hr e happly)
  · intro h f hf r hr e happly
    by_contra hne
    have he : e ∈ newFacts rules known := mem_newFacts.2 ⟨hne, f, hf, r, hr, happly⟩
    simp [h] at he

theorem Closed.chained_eq_nil (h : Closed rules known) (n : ℕ) : chained rules n known = [] :=
  chained_of_newFacts_eq_nil (closed_iff.1 h) n

/-- Once the facts are closed, a longer run finds no more. -/
theorem Closed.chained_eq {n m : ℕ} (h : Closed rules (known ++ chained rules n known))
    (hnm : n ≤ m) : chained rules m known = chained rules n known := by
  obtain ⟨k, rfl⟩ := Nat.exists_eq_add_of_le hnm
  rw [chained_add, h.chained_eq_nil, List.append_nil]

/-! ### Idle and productive rounds -/

theorem facts_eq_nil {r : Round} : r.facts = [] ↔ r.steps.isEmpty = true := by
  rw [Round.facts, List.map_eq_nil_iff, List.isEmpty_iff]

theorem rounds_ne_nil (rules : List Rule) (n number : ℕ) (known : List Expr) :
    rounds rules (n + 1) number known ≠ [] := by
  rw [rounds]
  split <;> simp

/-- After a round that found nothing the facts are closed. -/
theorem closed_of_idle {n number : ℕ}
    (h : ∃ r ∈ rounds rules n number known, r.facts = []) :
    Closed rules (known ++ chained rules n known) := by
  induction n generalizing number known with
  | zero => simp [rounds] at h
  | succ n ih =>
    obtain ⟨r, hr, hidle⟩ := h
    rw [rounds] at hr
    split at hr
    · rename_i hempty
      -- the first round is the idle one, and nothing comes after it
      have hclosed : Closed rules known := closed_iff.2 (steps_run_eq_nil.1 hempty)
      rwa [hclosed.chained_eq_nil, List.append_nil]
    · rename_i hfound
      rcases List.mem_cons.1 hr with rfl | hr
      · exact absurd (facts_eq_nil.1 hidle) hfound
      · rw [facts_run] at hr
        rw [chained, ← List.append_assoc]
        exact ih ⟨r, hr, hidle⟩

/-- A round that found nothing is the last, so the run is the same under every larger bound. -/
theorem rounds_eq_of_idle {n m number : ℕ}
    (h : ∃ r ∈ rounds rules n number known, r.facts = []) (hnm : n ≤ m) :
    rounds rules m number known = rounds rules n number known := by
  induction n generalizing m number known with
  | zero => simp [rounds] at h
  | succ n ih =>
    obtain ⟨m, rfl⟩ : ∃ k, m = k + 1 := ⟨m - 1, by omega⟩
    obtain ⟨r, hr, hidle⟩ := h
    rw [rounds] at hr
    rw [rounds, rounds]
    split at hr
    · rename_i hempty
      rw [if_pos hempty, if_pos hempty]
    · rename_i hfound
      rw [if_neg hfound, if_neg hfound]
      rcases List.mem_cons.1 hr with rfl | hr
      · exact absurd (facts_eq_nil.1 hidle) hfound
      · rw [ih ⟨r, hr, hidle⟩ (Nat.le_of_succ_le_succ hnm)]

/-- If all rounds found something, the run did not end with the first of them. -/
theorem rounds_eq_cons {n number : ℕ}
    (h : ∀ r ∈ rounds rules (n + 1) number known, r.facts ≠ []) :
    rounds rules (n + 1) number known =
        Round.run rules number known ::
          rounds rules n (number + 1) (known ++ newFacts rules known) ∧
      (Round.run rules number known).steps ≠ [] ∧
      ∀ r ∈ rounds rules n (number + 1) (known ++ newFacts rules known), r.facts ≠ [] := by
  rw [rounds] at h ⊢
  split at h
  · rename_i hempty
    exact absurd (facts_eq_nil.2 hempty) (h _ List.mem_cons_self)
  · rename_i hfound
    rw [facts_run] at h
    rw [if_neg hfound, facts_run]
    exact ⟨rfl, fun hnil => hfound (List.isEmpty_iff.2 hnil),
      fun r hr => h r (List.mem_cons_of_mem _ hr)⟩

/-- A run whose rounds all found something had as many rounds as it was allowed. -/
theorem length_rounds_of_productive {n number : ℕ}
    (h : ∀ r ∈ rounds rules n number known, r.facts ≠ []) :
    (rounds rules n number known).length = n := by
  induction n generalizing number known with
  | zero => rfl
  | succ n ih =>
    obtain ⟨heq, -, hrest⟩ := rounds_eq_cons h
    rw [heq, List.length_cons, ih hrest]

theorem le_length_chained_of_productive {n number : ℕ}
    (h : ∀ r ∈ rounds rules n number known, r.facts ≠ []) :
    n ≤ (chained rules n known).length := by
  induction n generalizing number known with
  | zero => exact Nat.zero_le _
  | succ n ih =>
    obtain ⟨-, hfound, hrest⟩ := rounds_eq_cons h
    have hnew : 0 < (newFacts rules known).length := by
      rw [← facts_run rules number, Round.facts, List.length_map]
      exact List.length_pos_iff.2 hfound
    have hlater := ih hrest
    rw [chained, List.length_append]
    omega

/-- Every round of such a run left a step with its number. -/
theorem exists_step_of_productive {n number : ℕ}
    (h : ∀ r ∈ rounds rules n number known, r.facts ≠ []) {i : ℕ} (hi : i < n) :
    ∃ t ∈ (rounds rules n number known).flatMap Round.steps, t.round = number + i := by
  induction n generalizing number known i with
  | zero => omega
  | succ n ih =>
    obtain ⟨heq, hfound, hrest⟩ := rounds_eq_cons h
    rw [heq, List.flatMap_cons]
    cases i with
    | zero =>
      obtain ⟨t, ht⟩ := List.exists_mem_of_ne_nil _ hfound
      exact ⟨t, List.mem_append_left _ ht, round_of_mem_run ht⟩
    | succ i =>
      obtain ⟨t, ht, hround⟩ := ih hrest (Nat.lt_of_succ_lt_succ hi)
      exact ⟨t, List.mem_append_right _ ht, by omega⟩

/-! ### The flag of a run -/

theorem exhausted_cons (r : Round) {rs : List Round} (h : rs ≠ []) :
    (Saturation.mk (r :: rs)).exhausted = (Saturation.mk rs).exhausted := by
  obtain ⟨r', rs, rfl⟩ := List.exists_cons_of_ne_nil h
  rw [Saturation.exhausted, Saturation.exhausted, List.getLast?_cons_cons]

/-- Only the last round of a run can be idle, so the flag, which looks at the last round alone,
speaks of all of them. -/
theorem exhausted_rounds_iff (n number : ℕ) :
    (Saturation.mk (rounds rules (n + 1) number known)).exhausted = true ↔
      ∀ r ∈ rounds rules (n + 1) number known, r.facts ≠ [] := by
  have hlast : ∀ r : Round, (Saturation.mk [r]).exhausted = true ↔ r.facts ≠ [] := by
    intro r
    rw [Ne, facts_eq_nil, Saturation.exhausted, List.getLast?_singleton]
    simp
  induction n generalizing number known with
  | zero =>
    have hone : rounds rules 1 number known = [Round.run rules number known] := by
      rw [rounds]
      split <;> rfl
    rw [hone, hlast]
    simp
  | succ n ih =>
    rw [rounds]
    split
    · rw [hlast]
      simp
    · rename_i hfound
      rw [exhausted_cons _ (rounds_ne_nil rules n _ _), List.forall_mem_cons, Ne, facts_eq_nil]
      exact (ih (number + 1)).trans (and_iff_right hfound).symm

/-! ### The engine -/

namespace Engine

variable {g : Engine} {bound : Value} {n : Int}

theorem warns_saturate (hn : g.roundBound bound = .ok n) (kb : List Expr) :
    Warns (g.saturate kb bound).2.2 ↔ (Saturation.run g.rules n.toNat kb).exhausted = true := by
  unfold saturate
  rw [hn]
  by_cases h : (Saturation.run g.rules n.toNat kb).exhausted = true <;>
    simp [saturationLog, Warns, h]

/-- A run warns if and only if all its rounds found something. -/
theorem warns_saturate_iff (hn : g.roundBound bound = .ok n) (hpos : 1 ≤ n) (kb : List Expr) :
    Warns (g.saturate kb bound).2.2 ↔
      ∀ r ∈ (Saturation.run g.rules n.toNat kb).rounds, r.facts ≠ [] := by
  obtain ⟨m, hm⟩ : ∃ m, n.toNat = m + 1 := ⟨n.toNat - 1, by omega⟩
  rw [warns_saturate hn, hm]
  exact exhausted_rounds_iff m 1

end Engine

/-- **The warning is exact.**  A run that may have at least one round warns unless one of its
rounds found nothing.  If it does not warn, then no rule derives anything new from the facts and
what was found, a run from there finds nothing under whatever bound, and every run with a larger
bound finds the same.  If it warns, then it had as many rounds as it was allowed and found
something in each. -/
theorem saturate_warns_exactly {g : Engine} {bound : Value} {n : Int}
    (hn : g.roundBound bound = .ok n) (hpos : 1 ≤ n) (kb : List Expr) :
    ∃ found : List Expr, (g.saturate kb bound).2.1 = .ok found ∧
      (¬ Warns (g.saturate kb bound).2.2 ↔
        ∃ r ∈ (Saturation.run g.rules n.toNat kb).rounds, r.facts = []) ∧
      (¬ Warns (g.saturate kb bound).2.2 →
        Closed g.rules (kb ++ found) ∧
        (∀ bound' k, g.roundBound bound' = .ok k →
          (g.saturate (kb ++ found) bound').2.1 = .ok []) ∧
        ∀ bound' k, g.roundBound bound' = .ok k → n ≤ k →
          (g.saturate kb bound').2.1 = .ok found) ∧
      (Warns (g.saturate kb bound).2.2 →
        (Saturation.run g.rules n.toNat kb).rounds.length = n.toNat ∧
        (∀ r ∈ (Saturation.run g.rules n.toNat kb).rounds, r.facts ≠ []) ∧
        (∀ i : ℕ, 1 ≤ i → i ≤ n → ∃ t ∈ (g.saturate kb bound).1.steps, t.round = i) ∧
        n ≤ found.length) := by
  have hiff := Engine.warns_saturate_iff hn hpos kb
  have hidle : ¬ Warns (g.saturate kb bound).2.2 ↔
      ∃ r ∈ (Saturation.run g.rules n.toNat kb).rounds, r.facts = [] := by
    rw [hiff]
    simp only [ne_eq, not_forall, not_not, exists_prop]
  refine ⟨_, Engine.found_saturate hn kb, hidle, fun hquiet => ?_, fun hwarns => ?_⟩
  · have hclosed : Closed g.rules (kb ++ chained g.rules n.toNat kb) :=
      closed_of_idle (hidle.1 hquiet)
    refine ⟨hclosed, fun bound' k hk => ?_, fun bound' k hk hnk => ?_⟩
    · rw [Engine.found_saturate hk, hclosed.chained_eq_nil]
    · rw [Engine.found_saturate hk, hclosed.chained_eq (Int.toNat_le_toNat hnk)]
  · have hproductive := hiff.1 hwarns
    have hcount := le_length_chained_of_productive hproductive
    refine ⟨length_rounds_of_productive hproductive, hproductive, fun i hi hin => ?_, by omega⟩
    -- the round of number `i` is the one with `i - 1` before it
    obtain ⟨t, ht, hround⟩ := exists_step_of_productive hproductive (i := i - 1) (by omega)
    rw [Engine.steps_saturate hn]
    exact ⟨t, ht, by omega⟩

/-- Two rounds find something here, the third nothing: a run of two rounds warns, although there
is nothing more to be found, and a run of three does not. -/
theorem saturate_warns_exactly_chain :
    let g := Engine.new [.ofCanonical .modusPonens] (.number 2)
    let kb : List Expr := [.var "p" .bool, .app .implies [.var "q" .bool, .var "r" .bool],
      .app .implies [.var "p" .bool, .var "q" .bool]]
    g.roundBound .nothing = .ok 2 ∧ Warns (g.saturate kb .nothing).2.2 ∧
      (∀ i : ℕ, 1 ≤ i → (i : Int) ≤ 2 → ∃ t ∈ (g.saturate kb .nothing).1.steps, t.round = i) ∧
      g.roundBound (.number 3) = .ok 3 ∧ ¬ Warns (g.saturate kb (.number 3)).2.2 ∧
      Closed g.rules (kb ++ [.var "q" .bool, .var "r" .bool]) := by
  intro g kb
  have hshort : g.roundBound .nothing = .ok 2 := rfl
  have hlong : g.roundBound (.number 3) = .ok 3 := rfl
  have hwarns : Warns (g.saturate kb .nothing).2.2 :=
    (Engine.warns_saturate hshort kb).2 (by decide)
  obtain ⟨_, -, -, -, hproductive⟩ := saturate_warns_exactly hshort (by decide) kb
  obtain ⟨found, hfound, hquiet, hclosed, -⟩ := saturate_warns_exactly hlong (by decide) kb
  have hidle : ∃ r ∈ (Saturation.run g.rules (3 : Int).toNat kb).rounds, r.facts = [] := by
    decide
  have hchained : chained g.rules (3 : Int).toNat kb = [.var "q" .bool, .var "r" .bool] := by
    decide
  rw [Engine.found_saturate hlong, hchained] at hfound
  obtain rfl := Except.ok.inj hfound
  exact ⟨hshort, hwarns, (hproductive hwarns).2.2.1, hlong, hquiet.2 hidle,
    (hclosed (hquiet.2 hidle)).1⟩

end Deduce

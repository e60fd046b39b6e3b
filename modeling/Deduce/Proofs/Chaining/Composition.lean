import Deduce.Proofs.Chaining.Rounds
import Deduce.Proofs.Reasoner.Entry

/-!
# Runs of forward chaining one after the other

A long run may be cut anywhere: what the first part finds is entered as facts, and a second run
goes on from there as if nothing had happened (`saturate_composes`).
-/

namespace Deduce

namespace Reasoner

theorem facts_saturate_commit (s : Reasoner) (n : ℕ) :
    (s.saturate (.number n) true).system.facts =
      s.facts ++ chained s.engine.rules n s.facts := by
  have hfound := s.engine.found_saturate_number s.facts n
  unfold saturate
  dsimp only
  rw [hfound]
  exact (Enters.recordAll _ _).facts_eq

theorem rules_saturate_commit (s : Reasoner) (bound : Value) :
    (s.saturate bound true).system.engine.rules = s.engine.rules := by
  rw [← s.engine.rules_saturate s.facts bound]
  unfold saturate
  dsimp only
  split
  · rfl
  · exact congrArg Engine.rules (engine_foldl_record _ _)

end Reasoner

/-- **Runs compose.**  What a run of `n + m` rounds finds is what a run of `n` rounds finds and,
after it, what the same engine finds in `m` further rounds once these terms are among the facts.
So the shorter run finds a first part of what the longer one finds, and a system that enters what
it found before it goes on ends up with the facts of one that did not stop. -/
theorem saturate_composes (g : Engine) (kb : List Expr) (n m : ℕ) :
    ∃ found more all : List Expr,
      (g.saturate kb (.number n)).2.1 = .ok found ∧
      ((g.saturate kb (.number n)).1.saturate (kb ++ found) (.number m)).2.1 = .ok more ∧
      (g.saturate kb (.number (n + m))).2.1 = .ok all ∧
      all = found ++ more ∧ found <+: all ∧
      ∀ s : Reasoner,
        ((s.saturate (.number n) true).system.saturate (.number m) true).system.facts =
          (s.saturate (.number (n + m)) true).system.facts := by
  have hall := chained_add g.rules n m kb
  refine ⟨chained g.rules n kb, chained g.rules m (kb ++ chained g.rules n kb),
    chained g.rules (n + m) kb, g.found_saturate_number kb n, ?_,
    g.found_saturate_number kb (n + m), hall, ?_, fun s => ?_⟩
  · rw [Engine.found_saturate_number, Engine.rules_saturate]
  · rw [hall]
    exact List.prefix_append _ _
  · have hlong := s.facts_saturate_commit (n + m)
    rw [Int.natCast_add] at hlong
    rw [hlong, chained_add, Reasoner.facts_saturate_commit, Reasoner.rules_saturate_commit,
      Reasoner.facts_saturate_commit, List.append_assoc]

/-- The second round needs what the first found, and a run of two rounds is cut between them. -/
theorem saturate_composes_chain :
    let g := Engine.new [.ofCanonical .modusPonens] (.number 3)
    let p : Expr := .var "p" .bool
    let q : Expr := .var "q" .bool
    let r : Expr := .var "r" .bool
    let kb : List Expr := [p, .app .implies [q, r], .app .implies [p, q]]
    let s : Reasoner := kb.foldl Reasoner.record ⟨"chain", "", .empty, .empty, g⟩
    (g.saturate kb (.number 1)).2.1 = .ok [q] ∧
      ((g.saturate kb (.number 1)).1.saturate (kb ++ [q]) (.number 1)).2.1 = .ok [r] ∧
      (g.saturate kb (.number 2)).2.1 = .ok [q, r] ∧
      ((s.saturate (.number 1) true).system.saturate (.number 1) true).system.facts =
        kb ++ [q, r] := by
  intro g p q r kb s
  have hshort : (g.saturate kb (.number 1)).2.1 = .ok [q] :=
    (g.found_saturate_number kb 1).trans (congrArg Except.ok (by decide))
  have hlong : (g.saturate kb (.number 2)).2.1 = .ok [q, r] :=
    (g.found_saturate_number kb 2).trans (congrArg Except.ok (by decide))
  obtain ⟨found, more, all, hfound, hmore, hall, happend, -, hcommit⟩ :=
    saturate_composes g kb 1 1
  obtain rfl : [q] = found := Except.ok.inj (hshort.symm.trans hfound)
  obtain rfl : [q, r] = all := Except.ok.inj (hlong.symm.trans hall)
  obtain rfl : [r] = more := (List.cons.inj happend).2
  refine ⟨hshort, hmore, hlong, (hcommit s).trans ?_⟩
  exact (s.facts_saturate_commit 2).trans (by decide)

end Deduce

import Deduce.Inspect.Threshold
import Deduce.Proofs.Term.Exchange
import Deduce.Proofs.Term.Similarity

/-!
# Exact matching

Where no node of a term lies between the threshold and full agreement, replacing the nodes similar
to a pattern is replacing the nodes equal to it (`Expr.ExactlyMatched.agrees_with_substitution`):
a node scores above the threshold only if it agrees fully, and then it is the pattern.

This holds for scores in exact arithmetic.  In floating-point numbers the pattern agrees fully with
itself as well, but a mean of scores may be rounded up, and so a node that does not count may come
to count (`Expr.rounded_above_threshold`).  Where that does not happen, the result is the same.
-/

namespace Deduce.Expr

variable {t : Rat} {p r e n : Expr} {x : Float}

/-- In a term `e` nothing resembles the pattern `p` more than the threshold `t` allows except `p`
itself, and `p` can be exchanged for `r` without further changes. -/
structure ExactlyMatched (t : Rat) (p r e : Expr) : Prop where
  lt_one : t < 1
  wellSorted : e.wellSorted = true
  wellSorted_pattern : p.wellSorted = true
  sort_eq : p.sort = r.sort
  unquantified : ∀ n ∈ e.nodes, n.isQuantified = false
  not_lone : ∀ n ∈ e.nodes, n.isLone = false
  signatures : SignaturesAgree e p
  gap : ∀ n ∈ e.nodes, ¬ (t < n.exactSimilarity p ∧ n.exactSimilarity p < 1)

namespace ExactlyMatched

/-- The nodes that score above the threshold are those equal to the pattern. -/
theorem lt_exactSimilarity_iff (h : ExactlyMatched t p r e) (hn : n ∈ e.nodes) :
    t < n.exactSimilarity p ↔ n = p := by
  have hsig : SignaturesAgree n p := h.signatures.mono hn (mem_nodes_self p)
  have hone := exactSimilarity_eq_one_iff (wellSorted_of_mem_nodes h.wellSorted hn)
    h.wellSorted_pattern hsig
  rw [← hone]
  constructor
  · intro hlt
    exact le_antisymm (exactSimilarity_le_one n p) (not_lt.1 fun hone => h.gap n hn ⟨hlt, hone⟩)
  · intro hone
    rw [hone]
    exact h.lt_one

theorem lt_similarity_iff (h : ExactlyMatched t p r e) (hx : x < 1.0)
    (hwidth : ∀ n ∈ p.nodes, n.args.length < 2 ^ 53)
    (hround : ∀ n ∈ e.nodes, n.exactSimilarity p ≤ t → ¬ x < n.similarity p) (hn : n ∈ e.nodes) :
    x < n.similarity p ↔ n = p := by
  constructor
  · intro hlt
    exact (h.lt_exactSimilarity_iff hn).1 (not_le.1 fun hle => hround n hn hle hlt)
  · rintro rfl
    rw [similarity_self hwidth]
    exact hx

theorem replaceWhere_eq (h : ExactlyMatched t p r e) {hit : Expr → Bool}
    (hhit : ∀ n ∈ e.nodes, hit n = true ↔ n = p) : replaceWhere hit r e = .ok (replace p r e) :=
  replaceWhere_eq_replace hhit h.sort_eq h.wellSorted h.unquantified h.not_lone

/-- **Replacing what is similar to a pattern is replacing the pattern**, where nothing else
resembles it enough: with scores in exact arithmetic, and with scores in floating-point numbers
unless one is rounded up over the threshold. -/
theorem agrees_with_substitution (h : ExactlyMatched t p r e) :
    ∃ e', e.substitute? p r = some e' ∧
      replaceWhere (fun n => t < n.exactSimilarity p) r e = .ok e' ∧
      ∀ x : Float, x < 1.0 → (∀ n ∈ p.nodes, n.args.length < 2 ^ 53) →
        (∀ n ∈ e.nodes, n.exactSimilarity p ≤ t → ¬ x < n.similarity p) →
        e.replacePattern (.level x) p r = .ok e' := by
  refine ⟨replace p r e, if_pos h.sort_eq, ?_, fun x hx hwidth hround => ?_⟩
  · exact h.replaceWhere_eq fun n hn => by simpa using h.lt_exactSimilarity_iff hn
  · rw [replacePattern, h.replaceWhere_eq fun n hn => ?_]
    · rfl
    · simpa using h.lt_similarity_iff hx hwidth hround hn

/-- In `f (x + y) + f (x + z)` the pattern `f (x + y)` is replaced by `z` at one half; the other
operand agrees with it by one half exactly. -/
theorem agrees_with_substitution_call :
    let x : Expr := .var "x" .int
    let y : Expr := .var "y" .int
    let z : Expr := .var "z" .int
    let f (a : Expr) : Expr := .app (.fn "f" [.int] .int) [a]
    let p : Expr := f (.app .add [x, y])
    let e : Expr := .app .add [p, f (.app .add [x, z])]
    ExactlyMatched (1 / 2) p z e ∧
      e.replacePattern (.level 0.5) p z = .ok (.app .add [z, f (.app .add [x, z])]) := by
  intro x y z f p e
  have h : ExactlyMatched (1 / 2) p z e := by
    constructor <;> decide +kernel
  obtain ⟨e', hsub, -, hrun⟩ := h.agrees_with_substitution
  obtain rfl := Option.some.inj hsub
  exact ⟨h, hrun 0.5 (by decide +kernel) (by decide +kernel) (by decide +kernel)⟩

end ExactlyMatched

/-- Three times one fifth, added up and divided by three, is more than one fifth: a product of sums
of five operands, which agree in the first, is taken for the pattern at this threshold. -/
theorem rounded_above_threshold :
    let x : Expr := .var "x" .int
    let y : Expr := .var "y" .int
    let z : Expr := .var "z" .int
    let cube (a : Expr) : Expr := .app .mul [a, a, a]
    let e := cube (.app .add [x, y, y, y, y])
    let p := cube (.app .add [x, z, z, z, z])
    let t : Rat := 3602879701896397 / 18014398509481984
    Text.floatToRat? 0.2 = some t ∧ ExactlyMatched t p z e ∧
      e.substitute? p z = some e ∧ e.replacePattern (.level 0.2) p z = .ok z ∧ z ≠ e := by
  intro x y z cube e p t
  have hscore : (0.2 : Float) < e.similarity p := by decide +kernel
  have hreplaced : e.replacePattern (.level 0.2) p z = .ok z := by
    rw [replacePattern, replaceWhere, if_pos (decide_eq_true hscore)]
    rfl
  have hmatched : ExactlyMatched t p z e := by
    constructor <;> decide +kernel
  exact ⟨by decide +kernel, hmatched, by decide +kernel, hreplaced, by decide⟩

end Deduce.Expr

import Deduce.Inspect.Threshold
import Deduce.Proofs.Term.Similarity
import Mathlib.Data.Prod.Lex

/-!
# The symmetries of a sum or product

Every operand is paired with the ones after it, so each pair of positions comes up once, the smaller
position in front (`Expr.mem_pairs`), and in lexicographic order (`Expr.pairwise_pairs`).  Since two
terms agree as far in either order, it does not matter which of two operands comes first
(`Expr.between_mem_symmetriesAs`).  So if the operands change places, the same pairs of operands are
listed with the same scores, under their new positions (`Expr.symmetries_follow_operands`).
-/

namespace Deduce

/-! ### Positions -/

namespace Symmetry

variable {α : Type}

/-- The two positions, in lexicographic order. -/
def positions (s : Symmetry α) : ℕ ×ₗ ℕ := toLex (s.first, s.second)

/-- Two positions, whichever is the smaller one, with a score. -/
def between (i j : ℕ) (score : α) : Symmetry α := ⟨min i j, max i j, score⟩

theorem between_comm (i j : ℕ) (score : α) : between i j score = between j i score := by
  rw [between, between, min_comm, max_comm]

theorem positions_lt_iff {s t : Symmetry α} :
    s.positions < t.positions ↔ s.first < t.first ∨ s.first = t.first ∧ s.second < t.second :=
  Prod.Lex.toLex_lt_toLex

end Symmetry

namespace Expr

variable {α : Type} [Score α] {a : Expr} {as bs : List Expr} {i j : ℕ} {s : Symmetry α}

/-! ### Pairs -/

theorem mem_pairsFrom :
    s ∈ pairsFrom α i a j bs ↔ ∃ k b, bs[k]? = some b ∧ s = ⟨i, j + k, similarityAs α a b⟩ := by
  induction bs generalizing j with
  | nil => simp [pairsFrom]
  | cons b bs ih =>
    rw [pairsFrom, List.mem_cons, ih]
    constructor
    · rintro (rfl | ⟨k, c, hc, rfl⟩)
      · exact ⟨0, b, rfl, rfl⟩
      · exact ⟨k + 1, c, hc, by rw [Nat.add_right_comm, Nat.add_assoc]⟩
    · rintro ⟨k, c, hc, rfl⟩
      cases k with
      | zero =>
        obtain rfl := Option.some.inj hc
        exact .inl rfl
      | succ k => exact .inr ⟨k, c, hc, by rw [Nat.add_right_comm, Nat.add_assoc]⟩

theorem mem_pairs :
    s ∈ pairs α i as ↔ ∃ k l a b, k < l ∧ as[k]? = some a ∧ as[l]? = some b ∧
      s = ⟨i + k, i + l, similarityAs α a b⟩ := by
  induction as generalizing i with
  | nil => simp [pairs]
  | cons a as ih =>
    rw [pairs, List.mem_append, mem_pairsFrom, ih]
    constructor
    · rintro (⟨k, b, hb, rfl⟩ | ⟨k, l, b, c, hkl, hb, hc, rfl⟩)
      · exact ⟨0, k + 1, a, b, by omega, rfl, hb, by congr 1; omega⟩
      · exact ⟨k + 1, l + 1, b, c, by omega, hb, hc, by congr 1 <;> omega⟩
    · rintro ⟨k, l, b, c, hkl, hb, hc, rfl⟩
      obtain ⟨l, rfl⟩ := Nat.exists_eq_add_one_of_ne_zero (Nat.ne_of_gt (Nat.zero_lt_of_lt hkl))
      cases k with
      | zero =>
        obtain rfl := Option.some.inj hb
        exact .inl ⟨l, c, hc, by congr 1; omega⟩
      | succ k => exact .inr ⟨k, l, b, c, by omega, hb, hc, by congr 1 <;> omega⟩

theorem pairwise_pairsFrom (α : Type) [Score α] (i : ℕ) (a : Expr) (j : ℕ) (bs : List Expr) :
    (pairsFrom α i a j bs).Pairwise fun s t => s.positions < t.positions := by
  induction bs generalizing j with
  | nil => exact .nil
  | cons b bs ih =>
    refine List.pairwise_cons.2 ⟨fun t ht => ?_, ih (j + 1)⟩
    obtain ⟨k, c, -, rfl⟩ := mem_pairsFrom.1 ht
    exact Symmetry.positions_lt_iff.2 (.inr ⟨rfl, by change j < j + 1 + k; omega⟩)

theorem pairwise_pairs (α : Type) [Score α] (i : ℕ) (as : List Expr) :
    (pairs α i as).Pairwise fun s t => s.positions < t.positions := by
  induction as generalizing i with
  | nil => exact .nil
  | cons a as ih =>
    refine List.pairwise_append.2 ⟨pairwise_pairsFrom α i a (i + 1) as, ih (i + 1), ?_⟩
    intro s hs t ht
    obtain ⟨k, b, -, rfl⟩ := mem_pairsFrom.1 hs
    obtain ⟨k', l', c, d, -, -, -, rfl⟩ := mem_pairs.1 ht
    exact Symmetry.positions_lt_iff.2 (.inl (by change i < i + 1 + k'; omega))

theorem pairs_eq_nil_iff : pairs α i as = [] ↔ as.length < 2 := by
  match as with
  | [] => simp [pairs]
  | [a] => simp [pairs, pairsFrom]
  | a :: b :: as => simp [pairs, pairsFrom]

/-! ### Sums and products -/

section Operands

variable {op : Op} (hop : op = .add ∨ op = .mul) {exceeds : α → Bool}

include hop

theorem operandPairs_app (α : Type) [Score α] (as : List Expr) :
    (app op as).operandPairs α = pairs α 0 as := by
  cases as with
  | nil => rfl
  | cons a as => rcases hop with rfl | rfl <;> rfl

theorem mem_symmetriesAs :
    s ∈ (app op as).symmetriesAs α exceeds ↔ ∃ a b, s.first < s.second ∧ as[s.first]? = some a ∧
      as[s.second]? = some b ∧ s.score = similarityAs α a b ∧ exceeds s.score = true := by
  rw [symmetriesAs, operandPairs_app hop, List.mem_filter, mem_pairs]
  simp only [Nat.zero_add]
  constructor
  · rintro ⟨⟨k, l, a, b, hkl, ha, hb, rfl⟩, hs⟩
    exact ⟨a, b, hkl, ha, hb, rfl, hs⟩
  · rintro ⟨a, b, hlt, ha, hb, hscore, hs⟩
    exact ⟨⟨s.first, s.second, a, b, hlt, ha, hb, by rw [← hscore]⟩, hs⟩

theorem pairwise_symmetriesAs (as : List Expr) :
    ((app op as).symmetriesAs α exceeds).Pairwise fun s t => s.positions < t.positions := by
  rw [symmetriesAs, operandPairs_app hop]
  exact (pairwise_pairs α 0 as).filter _

/-- It does not matter which of two operands comes first. -/
theorem between_mem_symmetriesAs {score : α} :
    .between i j score ∈ (app op as).symmetriesAs α exceeds ↔ i ≠ j ∧ ∃ a b, as[i]? = some a ∧
      as[j]? = some b ∧ score = similarityAs α a b ∧ exceeds score = true := by
  wlog hij : i ≤ j generalizing i j
  · rw [Symmetry.between_comm, this (Nat.le_of_not_le hij), ne_comm]
    refine and_congr_right fun _ => ?_
    constructor
    · rintro ⟨a, b, ha, hb, rfl, hs⟩
      exact ⟨b, a, hb, ha, similarityAs_comm a b, hs⟩
    · rintro ⟨a, b, ha, hb, rfl, hs⟩
      exact ⟨b, a, hb, ha, similarityAs_comm a b, hs⟩
  rw [mem_symmetriesAs hop, Symmetry.between, min_eq_left hij, max_eq_right hij]
  constructor
  · rintro ⟨a, b, hlt, h⟩
    exact ⟨Nat.ne_of_lt hlt, a, b, h⟩
  · rintro ⟨hne, a, b, h⟩
    exact ⟨a, b, Nat.lt_of_le_of_ne hij hne, h⟩

end Operands

/-! ### Operands in another order -/

/-- The terms of a list in another order: at position `i` stands what stood at position `σ i`. -/
def reorder (as : List Expr) (σ : Equiv.Perm (Fin as.length)) : List Expr :=
  List.ofFn fun i => as[σ i]

theorem getElem?_reorder (as : List Expr) (σ : Equiv.Perm (Fin as.length)) (i : Fin as.length) :
    (reorder as σ)[i.val]? = as[(σ i).val]? := by
  simp [reorder]

/-- **The symmetries follow the operands.**  If the operands of a sum or product change places, two
positions are listed with a score if and only if the positions at which these operands stood before
are listed with that score.  The list has exactly the pairs of operands whose similarity is above the
threshold, the smaller position in front, and each pair once, in lexicographic order.  Where scores
cannot be compared with the threshold, what comes of it does not depend on the order either. -/
theorem symmetries_follow_operands {op : Op} (hop : op = .add ∨ op = .mul) (as : List Expr)
    (σ : Equiv.Perm (Fin as.length)) :
    (∀ x : Float, ∃ found found',
      (app op as).symmetries (.level x) = .ok found ∧
      (app op (reorder as σ)).symmetries (.level x) = .ok found' ∧
      (∀ (i j : Fin as.length) (score : Float),
        .between i j score ∈ found' ↔ .between (σ i) (σ j) score ∈ found) ∧
      (found.Pairwise fun s t => s.positions < t.positions) ∧
      ∀ s, s ∈ found ↔ ∃ a b, s.first < s.second ∧ as[s.first]? = some a ∧
        as[s.second]? = some b ∧ s.score = a.similarity b ∧ s.score > x) ∧
    ∀ reason, (app op (reorder as σ)).symmetries (.incomparable reason) =
      (app op as).symmetries (.incomparable reason) := by
  constructor
  · intro x
    refine ⟨_, _, rfl, rfl, fun i j score => ?_, pairwise_symmetriesAs hop as, fun s => ?_⟩
    · have hdistinct : i.val ≠ j.val ↔ (σ i).val ≠ (σ j).val := by
        rw [Fin.val_ne_iff, Fin.val_ne_iff, σ.injective.ne_iff]
      rw [between_mem_symmetriesAs hop, between_mem_symmetriesAs hop, getElem?_reorder,
        getElem?_reorder, hdistinct]
    · rw [mem_symmetriesAs hop]
      simp only [decide_eq_true_eq]
      rfl
  · intro reason
    have hempty : (pairs Float 0 (reorder as σ)).isEmpty = (pairs Float 0 as).isEmpty := by
      rw [Bool.eq_iff_iff, List.isEmpty_iff, List.isEmpty_iff, pairs_eq_nil_iff, pairs_eq_nil_iff,
        reorder, List.length_ofFn]
    rw [symmetries, symmetries, operandPairs_app hop, operandPairs_app hop, hempty]

/-- The first factor of `(x + y) * 2 * (x + z)` is moved to the end, so the two sums are compared the
other way round. -/
theorem symmetries_follow_operands_rotated :
    let sum (name : String) : Expr := .app .add [.var "x" .int, .var name .int]
    let as : List Expr := [sum "y", .int 2, sum "z"]
    let as' : List Expr := [.int 2, sum "z", sum "y"]
    (Op.mul = .add ∨ Op.mul = .mul) ∧ reorder as (finRotate 3) = as' ∧
      ∃ found found', (app .mul as).symmetries (.level 0.4) = .ok found ∧
        (app .mul as').symmetries (.level 0.4) = .ok found' ∧
        ⟨0, 2, 0.5⟩ ∈ found ∧ ⟨1, 2, 0.5⟩ ∈ found' := by
  intro sum as as'
  have hop : Op.mul = .add ∨ Op.mul = .mul := .inr rfl
  have hreorder : reorder as (finRotate 3) = as' := by decide
  obtain ⟨found, found', hfound, hfound', hpositions, -, hlisted⟩ :=
    (symmetries_follow_operands hop as (finRotate 3)).1 0.4
  rw [hreorder] at hfound'
  have hscore : (0.5 : Float) = (sum "y").similarity (sum "z") := by decide +kernel
  have hsums : ⟨0, 2, 0.5⟩ ∈ found :=
    (hlisted _).2 ⟨sum "y", sum "z", by decide, rfl, rfl, hscore, by decide⟩
  exact ⟨hop, hreorder, found, found', hfound, hfound', hsums, (hpositions 1 2 0.5).2 hsums⟩

end Expr

end Deduce

import Deduce.Proofs.Reasoner.Growth
import Deduce.Proofs.Rule.Canonical
import Deduce.Proofs.Term.Sorting

/-!
# The sides of equations

An equation of two terms of one sort has them as its sides, in the order in which they were given
or in the other one: a numeral goes in front of a term that is none, and a quantified statement in
front of one that is not quantified (`Expr.yields_iff`).  All other equations keep their sides
(`equations_keep_sides`).  So exchanging the sides of an equation gives the same equation again if
its left side is a numeral and its right side is not (`equations_lose_sides`), and a model whose
equation has a numeral on the right is entered with the numeral on the left.
-/

namespace Deduce

open Attempts Reasoner

namespace Expr

variable {l r : Expr}

theorem isArith_of_isNumeral (h : r.isNumeral = true) : r.isArith = true := by
  cases r with
  | int | real => rfl
  | _ => cases h

/-- Of two terms of one sort, the second goes in front if it is a numeral and the first is not, or
if it is a quantified statement and the first is not quantified. -/
theorem yields_iff (hsort : l.sort = r.sort) :
    l.yields r = true ↔ r.isNumeral = true ∧ l.isNumeral = false ∨
      r.isQuantified = true ∧ r.isBool = true ∧ l.isQuantified = false := by
  have harith : l.isArith = r.isArith := by rw [isArith, isArith, hsort]
  have hbool : l.isBool = r.isBool := by rw [isBool, isBool, hsort]
  have hnumeral : r.isNumeral = true → r.isArith = true := isArith_of_isNumeral
  simp only [yields, harith, hbool, Bool.or_eq_true, Bool.and_eq_true, Bool.not_eq_true']
  grind

theorem yields_self (e : Expr) : e.yields e = false := by
  cases h : e.isNumeral <;> cases h' : e.isQuantified <;> simp [yields, h, h']

/-- Of the equation of two terms, which `built` tells: it has them as its sides in this order
exactly if the second does not go in front, and else in the other order. -/
def KeepsSides (l r : Expr) (built : Expr → Prop) : Prop :=
  (built (.app .eq [l, r]) ↔ l.yields r = false) ∧ (l.yields r = true → built (.app .eq [r, l]))

theorem KeepsSides.of_mkEq? {built : Expr → Prop} (hsort : l.sort = r.sort)
    (hbuilt : ∀ e, built e ↔ mkEq? l r = some e) : KeepsSides l r built := by
  unfold KeepsSides
  rw [hbuilt, hbuilt, mkEq?_of_sort_eq hsort]
  cases h : l.yields r with
  | false => simp
  | true =>
    -- the other order is not the same, since no term goes in front of itself
    have hne : r ≠ l := by
      rintro rfl
      rw [yields_self] at h
      cases h
    simp [hne]

end Expr

theorem equate_terms_iff {l r e : Expr} :
    Value.equate (.term l) (.term r) = .ok (.term e) ↔ Expr.mkEq? l r = some e := by
  rw [Value.equate]
  cases Expr.mkEq? l r <;> simp

/-! ### The first equation -/

theorem symmetry_of_first {earlier : List Expr} (hfirst : ∀ e ∈ earlier, e.isEquation = false)
    (l r : Expr) (later : List Expr) :
    symmetry (earlier ++ .app .eq [l, r] :: later) = Expr.mkEq? r l := by
  have hnone : earlier.filterMap Expr.equation? = [] := by
    refine List.filterMap_eq_nil_iff.2 fun e he => ?_
    cases hlr : e.equation? with
    | none => rfl
    | some p =>
      rw [equation?_eq_some.1 hlr] at he
      cases hfirst _ he
  rw [symmetry, equations, List.filterMap_append, hnone]
  rfl

theorem symmetry_apply_iff {kb : List Expr} {e : Expr} (probe : Value) :
    (Rule.ofCanonical .symmetry).apply kb probe = .derived e ↔ symmetry kb = some e := by
  rw [apply_symmetry, ofReturn_eq_derived]

/-! ### Models -/

theorem asEquation_pair_iff {l r e : Expr} :
    asEquation (.tuple [.term l, .term r]) = .ok e ↔ Expr.mkEq? l r = some e := by
  change Value.equate (.term l) (.term r) >>= asFact = _ ↔ _
  rw [Value.equate]
  cases Expr.mkEq? l r with
  | none => simp [bind, Except.bind]
  | some e' => simp [bind, Except.bind, asFact, requireExpression]

/-- An equation of a model that comes after others that are entered is entered after them. -/
theorem facts_connect_getElem? {earlier : List Value} (c : Catalog) (s : Reasoner)
    (hearlier : ∀ v ∈ earlier, ∃ e, asEquation v = .ok e) {v : Value} {e : Expr}
    (hv : asEquation v = .ok e) (later unknowns parameters : List Value) :
    ((Command.connect ⟨.listing (earlier ++ v :: later), .listing unknowns,
      .listing parameters⟩).run c s).system.facts[s.facts.length + earlier.length]? = some e := by
  rcases exists_split (earlier.map asEquation) with ⟨es, hes⟩ | ⟨es, f, rest, hes⟩
  · have hlen : earlier.length = es.length := by simpa using congrArg List.length hes
    rw [Command.run, connectModel_system, connect_eq]
    dsimp only
    rw [(Enters.recordAll s _).facts_eq, List.map_append, hes, List.map_cons, hv, List.append_assoc,
      gained_map_ok_append, List.cons_append, gained, hlen, List.getElem?_append_right (by omega),
      Nat.add_sub_cancel_left, List.getElem?_append_right (Nat.le_refl _), Nat.sub_self]
    rfl
  · obtain ⟨v', hv', hf⟩ := List.mem_map.1 (hes ▸ by simp : .error f ∈ earlier.map asEquation)
    obtain ⟨e', he'⟩ := hearlier v' hv'
    rw [he'] at hf
    cases hf

/-! ### All equations -/

/-- **Equations keep their sides**, unless the right side is a numeral and the left side is not, or
the right side is a quantified statement and the left side is not quantified; then the right side
goes in front.  This holds of the equation of any two terms of one sort; of what symmetry derives
from the first equation among the facts, by exchanging its sides, whatever the probe is; and of
what a model enters for a pair among its equations, after those that come before the pair. -/
theorem equations_keep_sides {l r : Expr} (hsort : l.sort = r.sort) :
    (l.yields r = true ↔ r.isNumeral = true ∧ l.isNumeral = false ∨
      r.isQuantified = true ∧ r.isBool = true ∧ l.isQuantified = false) ∧
    (Expr.KeepsSides l r fun e => Value.equate (.term l) (.term r) = .ok (.term e)) ∧
    (∀ earlier later probe, (∀ e ∈ earlier, e.isEquation = false) →
      Expr.KeepsSides l r fun e =>
        (Rule.ofCanonical .symmetry).apply (earlier ++ .app .eq [r, l] :: later) probe =
          .derived e) ∧
    ∀ c s earlier later unknowns parameters, (∀ v ∈ earlier, ∃ e, asEquation v = .ok e) →
      Expr.KeepsSides l r fun e =>
        ((Command.connect ⟨.listing (earlier ++ .tuple [.term l, .term r] :: later),
          .listing unknowns, .listing parameters⟩).run c s).system.facts[s.facts.length +
            earlier.length]? = some e := by
  refine ⟨Expr.yields_iff hsort, .of_mkEq? hsort fun e => equate_terms_iff,
    fun earlier later probe hfirst => .of_mkEq? hsort fun e => ?_,
    fun c s earlier later unknowns parameters hearlier => .of_mkEq? hsort fun e => ?_⟩
  · rw [symmetry_apply_iff, symmetry_of_first hfirst]
  · -- terms of one sort always make an equation, and that is what is entered
    have hmk := Expr.mkEq?_of_sort_eq hsort
    rw [facts_connect_getElem? c s hearlier (asEquation_pair_iff.2 hmk), hmk]

/-- The sides of `x = y + 1` are kept, and found by symmetry from `y + 1 = x` behind a fact that is
no equation; as the second equation of a model it is entered behind the first. -/
theorem equations_keep_sides_of_sum :
    let x : Expr := .var "x" .int
    let sum : Expr := .app .add [.var "y" .int, .int 1]
    let s : Reasoner := ⟨"demo", "", .empty, .empty, .new [] (.number 3)⟩
    (x.sort = sum.sort ∧ Value.equate (.term x) (.term sum) = .ok (.term (.app .eq [x, sum]))) ∧
      (Rule.ofCanonical .symmetry).apply [.var "p" .bool, .app .eq [sum, x], .app .eq [x, x]]
        .nothing = .derived (.app .eq [x, sum]) ∧
      ((Command.connect ⟨.listing [.term (.var "p" .bool), .tuple [.term x, .term sum]],
        .listing [.term x], .listing [.nothing]⟩).run .initial s).system.facts[1]? =
          some (.app .eq [x, sum]) := by
  intro x sum s
  have hsort : x.sort = sum.sort := rfl
  obtain ⟨-, hequate, hsymmetry, hconnect⟩ := equations_keep_sides hsort
  refine ⟨⟨hsort, hequate.1.2 rfl⟩, ?_, ?_⟩
  · exact (hsymmetry [.var "p" .bool] [.app .eq [x, x]] .nothing
      (by simp [Expr.isEquation])).1.2 rfl
  · exact (hconnect .initial s [.term (.var "p" .bool)] [] [.term x] [.nothing]
      (by simp [asEquation, equationFact, asFact, requireExpression, bind, Except.bind])).1.2 rfl

/-- The equation of `x` and `1` has `1` on the left.  Symmetry finds `1 = x` again when it exchanges
the sides of `1 = x`, and a model enters the pair of `x` and `1` as `1 = x`. -/
theorem equations_lose_sides :
    let x : Expr := .var "x" .int
    let s : Reasoner := ⟨"demo", "", .empty, .empty, .new [] (.number 3)⟩
    Value.equate (.term x) (.term (.int 1)) = .ok (.term (.app .eq [.int 1, x])) ∧
      (Rule.ofCanonical .symmetry).apply [.app .eq [.int 1, x]] (.term x) =
        .derived (.app .eq [.int 1, x]) ∧
      ((Command.connect ⟨.listing [.tuple [.term x, .term (.int 1)]], .listing [],
        .listing []⟩).run .initial s).system.facts = [.app .eq [.int 1, x]] :=
  ⟨rfl, rfl, rfl⟩

end Deduce

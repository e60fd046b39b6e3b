import Deduce.Proofs.Chaining.Rounds
import Deduce.Proofs.Rule.Canonical
import Deduce.Proofs.Semantics.Interpretation

/-!
# Forward chaining finds only what is true

An interpretation is *logical* (`LogicalInterpretation`) if an equation holds exactly when its
sides have the same value, and an implication exactly when its conclusion holds or its premise
does not.  About all else it may do as it likes.

In a logical interpretation the canonical rules lead from true statements to true statements.
Terms that are no statements may be among the facts; they are neither true nor false, but they
must be well sorted like the others, since a rule may take them for premises.  So what goes
through the rounds is that a term is well sorted and, if it is a statement, true
(`LogicalInterpretation.Admits`), and the terms found are true as far as they are statements
(`saturate_sound`).
-/

namespace Deduce

universe u

/-- An interpretation in which equations and implications mean what they should. -/
structure LogicalInterpretation (V : Type u) extends Interpretation V where
  /-- The values that count as true. -/
  holds : V → Prop
  holds_eq : ∀ (t : Ty) (a b : V), holds (app .eq [t, t] [a, b]) ↔ a = b
  holds_implies : ∀ a b : V,
    holds (app .implies [.bool, .bool] [a, b]) ↔ (holds a → holds b)

namespace LogicalInterpretation

variable {V : Type u} (I : LogicalInterpretation V) (env : ℕ → V)

/-- A term is true in an environment. -/
def Holds (e : Expr) : Prop := I.holds (I.eval env e)

/-- A term that may stand among the facts: it is well sorted and, if it is a statement, true. -/
structure Admits (e : Expr) : Prop where
  wellSorted : e.wellSorted = true
  holds : e.isBool = true → I.Holds env e

variable {I env}

theorem holds_equation {l r : Expr} (h : l.sort = r.sort) :
    I.Holds env (.app .eq [l, r]) ↔ I.eval env l = I.eval env r := by
  rw [Holds, Interpretation.eval, Expr.sorts, Expr.sorts, Expr.sorts, h]
  exact I.holds_eq r.sort _ _

theorem holds_implication {a b : Expr} (ha : a.sort = .bool) (hb : b.sort = .bool) :
    I.Holds env (.app .implies [a, b]) ↔ (I.Holds env a → I.Holds env b) := by
  rw [Holds, Interpretation.eval, Expr.sorts, Expr.sorts, Expr.sorts, ha, hb]
  exact I.holds_implies _ _

/-- What an admitted equation says. -/
theorem Admits.equation {l r : Expr} (h : I.Admits env (.app .eq [l, r])) :
    l.wellSorted = true ∧ r.wellSorted = true ∧ l.sort = r.sort ∧
      I.eval env l = I.eval env r := by
  obtain ⟨hl, hr, hsort⟩ := Expr.wellSorted_eq.1 h.wellSorted
  exact ⟨hl, hr, hsort, (holds_equation hsort).1 (h.holds rfl)⟩

/-- What an admitted implication says. -/
theorem Admits.implication {a b : Expr} (h : I.Admits env (.app .implies [a, b])) :
    (a.wellSorted = true ∧ a.sort = .bool) ∧ (b.wellSorted = true ∧ b.sort = .bool) ∧
      (I.Holds env a → I.Holds env b) := by
  obtain ⟨ha, hb, hasort, hbsort⟩ := Expr.wellSorted_implies.1 h.wellSorted
  exact ⟨⟨ha, hasort⟩, ⟨hb, hbsort⟩, (holds_implication hasort hbsort).1 (h.holds rfl)⟩

/-! ### The four rules -/

variable {kb : List Expr} {probe e : Expr}

theorem modusPonens_sound (hkb : ∀ f ∈ kb, I.Admits env f) (hprobe : I.Admits env probe)
    (h : modusPonens kb probe = some e) : I.Admits env e := by
  obtain ⟨⟨-, hsort⟩, ⟨he, -⟩, himp⟩ := (hkb _ (modusPonens_eq_some h)).implication
  -- the premise of an implication is a statement, so the probe is one
  exact ⟨he, fun _ => himp (hprobe.holds (by simp [Expr.isBool, hsort]))⟩

theorem transitivity_sound (hkb : ∀ f ∈ kb, I.Admits env f) (h : transitivity kb = some e) :
    I.Admits env e := by
  obtain ⟨a, b, c, hab, hbc, rfl⟩ := transitivity_eq_some h
  obtain ⟨ha, -, himp⟩ := (hkb _ hab).implication
  obtain ⟨-, hc, himp'⟩ := (hkb _ hbc).implication
  refine ⟨Expr.wellSorted_implies.2 ⟨ha.1, hc.1, ha.2, hc.2⟩, fun _ => ?_⟩
  exact (holds_implication ha.2 hc.2).2 fun h => himp' (himp h)

theorem symmetry_sound (hkb : ∀ f ∈ kb, I.Admits env f) (h : symmetry kb = some e) :
    I.Admits env e := by
  obtain ⟨l, r, hlr, hmk⟩ := symmetry_eq_some h
  obtain ⟨hl, hr, hsort, hvalue⟩ := (hkb _ hlr).equation
  rw [Expr.mkEq?_of_sort_eq hsort.symm] at hmk
  obtain rfl := Option.some.inj hmk
  -- a side that is more specific stays in front, so both orders may come about
  split
  · exact hkb _ hlr
  · exact ⟨Expr.wellSorted_eq.2 ⟨hr, hl, hsort.symm⟩,
      fun _ => (holds_equation hsort.symm).2 hvalue.symm⟩

theorem substitution_sound (hkb : ∀ f ∈ kb, I.Admits env f) (hprobe : I.Admits env probe)
    (h : substitution kb probe = some e) : I.Admits env e := by
  obtain ⟨l, r, hlr, hsort, rfl, -⟩ := substitution_eq_some h
  obtain ⟨-, hr, -, hvalue⟩ := (hkb _ hlr).equation
  refine ⟨Expr.wellSorted_replace hsort hr hprobe.wellSorted, fun hbool => ?_⟩
  have hprobe' : probe.isBool = true := by
    rwa [Expr.isBool, Expr.sort_replace hsort] at hbool
  rw [Holds, I.eval_replace hsort hvalue]
  exact hprobe.holds hprobe'

theorem derive_sound (c : Canonical) (hkb : ∀ f ∈ kb, I.Admits env f)
    (hprobe : I.Admits env probe) (h : c.derive kb probe = some e) : I.Admits env e := by
  cases c with
  | modusPonens => exact modusPonens_sound hkb hprobe h
  | transitivity => exact transitivity_sound hkb h
  | symmetry => exact symmetry_sound hkb h
  | substitution => exact substitution_sound hkb hprobe h

end LogicalInterpretation

/-! ### Runs -/

/-- **Forward chaining is sound.**  If the rules are canonical ones, in any order and number, and
the facts are well sorted and true as far as they are statements, then the run succeeds and all
statements that it finds are true.  The environment gives values to bound variables that are bound
nowhere, if there are any. -/
theorem saturate_sound {V : Type u} (I : LogicalInterpretation V) (env : ℕ → V) {g : Engine}
    (hrules : ∀ r ∈ g.rules, ∃ c : Canonical, r.run = c.run) {kb : List Expr}
    (hsorted : ∀ f ∈ kb, f.wellSorted = true)
    (htrue : ∀ f ∈ kb, f.isBool = true → I.Holds env f)
    {bound : Value} {n : Int} (hn : g.roundBound bound = .ok n) :
    ∃ found : List Expr, (g.saturate kb bound).2.1 = .ok found ∧
      ∀ e ∈ found, e.isBool = true → I.Holds env e := by
  refine ⟨_, Engine.found_saturate hn kb, fun e he => ?_⟩
  have hkb : ∀ f ∈ kb, I.Admits env f := fun f hf => ⟨hsorted f hf, htrue f hf⟩
  refine (forall_mem_chained (P := I.Admits env) ?_ n.toNat hkb e he).holds
  intro known hknown f hf r hr e happly
  obtain ⟨c, hc⟩ := hrules r hr
  exact LogicalInterpretation.derive_sound c hknown (hknown f hf) ((apply_eq_derived hc).1 happly)

open Classical in
/-- Terms read in the integers: quantifiers range over all of them, what is not zero counts as
true, and every variable has the value `x`. -/
noncomputable def integers (x : Int) : LogicalInterpretation Int where
  var _ _ := x
  int k := k
  real k := k.floor
  truth b := if b then 1 else 0
  app
    | .eq, _, [a, b] => if a = b then 1 else 0
    | .implies, _, [a, b] => if a ≠ 0 → b ≠ 0 then 1 else 0
    | .lt, _, [a, b] => if a < b then 1 else 0
    | .add, _, as => as.foldr (· + ·) 0
    | _, _, _ => 0
  quant
    | .universal, _, _, value => if ∀ vs, value vs ≠ 0 then 1 else 0
    | .existential, _, _, value => if ∃ vs, value vs ≠ 0 then 1 else 0
    | .lambda, _, _, _ => 0
  holds v := v ≠ 0
  holds_eq _ a b := by simp
  holds_implies a b := by simp

/-- From `x = y` and `∃ z, x < z` the run finds `∃ z, y < z`. -/
theorem saturate_sound_integers :
    ∃ found : List Expr,
      ((Engine.new [.ofCanonical .substitution] (.number 1)).saturate
        [.app .eq [.var "x" .int, .var "y" .int],
          .quant .existential [("z", .int)] (.app .lt [.var "x" .int, .bound 0 .int])]
        .nothing).2.1 = .ok found ∧
      .quant .existential [("z", .int)] (.app .lt [.var "y" .int, .bound 0 .int]) ∈ found ∧
      (integers 2).Holds (fun _ => 0)
        (.quant .existential [("z", .int)] (.app .lt [.var "y" .int, .bound 0 .int])) := by
  have hrules : ∀ r ∈ (Engine.new [.ofCanonical .substitution] (.number 1)).rules,
      ∃ c : Canonical, r.run = c.run := by
    intro r hr
    obtain rfl := List.mem_singleton.1 hr
    exact ⟨.substitution, rfl⟩
  have htrue : ∀ f ∈ [Expr.app .eq [.var "x" .int, .var "y" .int],
      .quant .existential [("z", .int)] (.app .lt [.var "x" .int, .bound 0 .int])],
      f.isBool = true → (integers 2).Holds (fun _ => 0) f := by
    intro f hf _
    simp only [List.mem_cons, List.not_mem_nil, or_false] at hf
    rcases hf with rfl | rfl
    · simp [LogicalInterpretation.Holds, Interpretation.eval, Interpretation.evalList, integers]
    · have hex : ∃ vs : Fin 1 → Int, 2 < vs 0 := ⟨fun _ => 3, by decide⟩
      simpa [LogicalInterpretation.Holds, Interpretation.eval, Interpretation.evalList, integers,
        Interpretation.under] using hex
  have hn : (Engine.new [.ofCanonical .substitution] (.number 1)).roundBound .nothing = .ok 1 := rfl
  obtain ⟨found, hfound, hall⟩ :=
    saturate_sound (integers 2) (fun _ => 0) hrules (by decide) htrue hn
  have hmem : .quant .existential [("z", .int)] (.app .lt [.var "y" .int, .bound 0 .int]) ∈
      found := by
    obtain rfl := Except.ok.inj hfound
    decide
  exact ⟨found, hfound, hmem, hall _ hmem rfl⟩

end Deduce

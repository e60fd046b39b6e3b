import Deduce.Proofs.Data.Dedup
import Deduce.Proofs.Rule.Canonical
import Deduce.Proofs.Term.Occurrence
import Mathlib.Data.Prod.Lex
import Mathlib.Order.Bounds.Basic

/-!
# How the canonical rules scan the facts

Each canonical rule goes through the facts from the first on and takes the first success.

* `substitution_takes_first_occurring`: substitution uses the first equation whose sides differ and
  whose left side occurs in the probe.  An equation changes the probe exactly if it is of that kind,
  so the others, which are passed over, could not have derived anything.
* `transitivity_eq_some_iff`: transitivity uses the first link of two implications, where pairs of
  positions are ordered by the position of the outer one.

Further facts come at the end.  So a rule that takes the first success in a single scan keeps its
answer, while transitivity may find an earlier link that ends in a new fact
(`answers_survive_further_facts`).
-/

namespace Deduce

variable {kb : List Expr} {probe e f : Expr}

/-! ### Substitution -/

/-- What a single fact derives from the probe. -/
def rewriteBy (probe f : Expr) : Option Expr :=
  f.equation?.bind fun (l, r) =>
    (probe.substitute? l r).bind fun e => if e = probe then none else some e

theorem substitution_eq_findSome? (kb : List Expr) (probe : Expr) :
    substitution kb probe = kb.findSome? (rewriteBy probe) :=
  Dedup.findSome?_filterMap _ _ kb

theorem rewriteBy_equation {l r : Expr} (h : l.sort = r.sort) :
    rewriteBy probe (.app .eq [l, r]) = some e ↔
      (l ≠ r ∧ l.OccursIn probe) ∧ e = Expr.replace l r probe := by
  have hchange : l ≠ r ∧ l.OccursIn probe ↔ Expr.replace l r probe ≠ probe := by
    rw [Ne, Ne, Expr.replace_eq_self_iff, not_or, not_not]
  have hstep : rewriteBy probe (.app .eq [l, r]) =
      if Expr.replace l r probe = probe then none else some (Expr.replace l r probe) := by
    simp [rewriteBy, Expr.equation?, Expr.substitute?, h]
  rw [hstep, hchange]
  by_cases hsame : Expr.replace l r probe = probe
  · simp [hsame]
  · simp [hsame, eq_comm]

/-- A fact derives something from the probe if it is an equation with different sides, of which the
left one occurs in the probe. -/
theorem rewriteBy_eq_some_iff (hf : f.wellSorted = true) :
    rewriteBy probe f = some e ↔
      ∃ l r, f = .app .eq [l, r] ∧ (l ≠ r ∧ l.OccursIn probe) ∧ e = Expr.replace l r probe := by
  constructor
  · intro h
    obtain ⟨⟨l, r⟩, heq, -⟩ := Option.bind_eq_some_iff.1 h
    obtain rfl := equation?_eq_some.1 heq
    exact ⟨l, r, rfl, (rewriteBy_equation (Expr.wellSorted_eq.1 hf).2.2).1 h⟩
  · rintro ⟨l, r, rfl, h⟩
    exact (rewriteBy_equation (Expr.wellSorted_eq.1 hf).2.2).2 h

theorem rewriteBy_eq_none_iff (hf : f.wellSorted = true) :
    rewriteBy probe f = none ↔ ∀ l r, f = .app .eq [l, r] → ¬ (l ≠ r ∧ l.OccursIn probe) := by
  rw [Option.eq_none_iff_forall_ne_some]
  simp only [Ne, rewriteBy_eq_some_iff hf]
  constructor
  · intro h l r hlr hocc
    exact h _ ⟨l, r, hlr, hocc, rfl⟩
  · rintro h e ⟨l, r, hlr, hocc, -⟩
    exact h l r hlr hocc

/-- Substitution takes the first equation with different sides of which the left one occurs. -/
theorem substitution_eq_some_iff (hkb : ∀ f ∈ kb, f.wellSorted = true) :
    substitution kb probe = some e ↔
      ∃ earlier l r later, kb = earlier ++ .app .eq [l, r] :: later ∧
        (l ≠ r ∧ l.OccursIn probe) ∧
        (∀ l' r', .app .eq [l', r'] ∈ earlier → ¬ (l' ≠ r' ∧ l'.OccursIn probe)) ∧
        e = Expr.replace l r probe := by
  rw [substitution_eq_findSome?, List.findSome?_eq_some_iff]
  constructor
  · rintro ⟨earlier, f, later, rfl, hf, hearlier⟩
    obtain ⟨l, r, rfl, hocc, rfl⟩ := (rewriteBy_eq_some_iff (hkb f (by simp))).1 hf
    refine ⟨earlier, l, r, later, rfl, hocc, fun l' r' hmem => ?_, rfl⟩
    have hnone := hearlier _ hmem
    exact (rewriteBy_eq_none_iff (hkb _ (by simp [hmem]))).1 hnone l' r' rfl
  · rintro ⟨earlier, l, r, later, rfl, hocc, hearlier, rfl⟩
    refine ⟨earlier, _, later, rfl, ?_, fun f hmem => ?_⟩
    · exact (rewriteBy_eq_some_iff (hkb _ (by simp))).2 ⟨l, r, rfl, hocc, rfl⟩
    · refine (rewriteBy_eq_none_iff (hkb f (by simp [hmem]))).2 fun l' r' hlr => ?_
      exact hearlier l' r' (hlr ▸ hmem)

theorem exists_substitution_iff (hkb : ∀ f ∈ kb, f.wellSorted = true) :
    (∃ e, substitution kb probe = some e) ↔
      ∃ l r, .app .eq [l, r] ∈ kb ∧ l ≠ r ∧ l.OccursIn probe := by
  rw [← Option.isSome_iff_exists, substitution_eq_findSome?, List.findSome?_isSome_iff]
  constructor
  · rintro ⟨f, hf, hsome⟩
    obtain ⟨e, he⟩ := Option.isSome_iff_exists.1 hsome
    obtain ⟨l, r, rfl, hocc, -⟩ := (rewriteBy_eq_some_iff (hkb f hf)).1 he
    exact ⟨l, r, hf, hocc⟩
  · rintro ⟨l, r, hf, hocc⟩
    refine ⟨_, hf, Option.isSome_iff_exists.2 ⟨Expr.replace l r probe, ?_⟩⟩
    exact (rewriteBy_eq_some_iff (hkb _ hf)).2 ⟨l, r, rfl, hocc, rfl⟩

/-- **Substitution uses the first equation that rewrites the probe.**  Over well-sorted facts it
derives something exactly if there is an equation with different sides of which the left one occurs
in the probe, under binders too.  It uses the first such equation, and what it derives differs from
the probe and is of the same sort.  A left side without loose bound variables occurs where it is a
node; other ones are raised by the number of binders around the place. -/
theorem substitution_takes_first_occurring (hkb : ∀ f ∈ kb, f.wellSorted = true) (probe : Expr) :
    ((∃ e, substitution kb probe = some e) ↔
      ∃ l r, .app .eq [l, r] ∈ kb ∧ l ≠ r ∧ l.OccursIn probe) ∧
    (∀ e, substitution kb probe = some e ↔
      ∃ earlier l r later, kb = earlier ++ .app .eq [l, r] :: later ∧
        (l ≠ r ∧ l.OccursIn probe) ∧
        (∀ l' r', .app .eq [l', r'] ∈ earlier → ¬ (l' ≠ r' ∧ l'.OccursIn probe)) ∧
        e = Expr.replace l r probe) ∧
    (∀ e, substitution kb probe = some e → e ≠ probe ∧ e.sort = probe.sort) ∧
    ∀ l : Expr, l.closedAt 0 = true → (l.OccursIn probe ↔ l ∈ probe.subterms) := by
  refine ⟨exists_substitution_iff hkb, fun e => substitution_eq_some_iff hkb, fun e he => ?_,
    fun l hl => Expr.occursIn_iff_of_closed hl⟩
  obtain ⟨l, r, -, hsort, rfl, hne⟩ := substitution_eq_some he
  exact ⟨hne, Expr.sort_replace hsort probe⟩

/-- The first equation has equal sides, the second one a left side that does not occur; the loose
bound variable of the third one has another number under the binder. -/
theorem substitution_takes_first_occurring_bound :
    let x : Expr := .var "x" .int
    let w : Expr := .var "w" .int
    let kb : List Expr := [.app .eq [x, x], .app .eq [w, x], .app .eq [.bound 0 .int, x],
      .app .eq [.bound 0 .int, .int 1]]
    let probe : Expr := .quant .universal [("y", .int)] (.app .lt [.bound 1 .int, .bound 0 .int])
    let derived : Expr := .quant .universal [("y", .int)] (.app .lt [x, .bound 0 .int])
    (∀ f ∈ kb, f.wellSorted = true) ∧ (Expr.bound 0 .int).OccursIn probe ∧
      w.closedAt 0 = true ∧ ¬ w.OccursIn probe ∧
      substitution kb probe = some derived ∧ derived ≠ probe ∧ derived.sort = probe.sort := by
  intro x w kb probe derived
  have hkb : ∀ f ∈ kb, f.wellSorted = true := by decide
  obtain ⟨-, hfirst, hderived, hclosed⟩ := substitution_takes_first_occurring hkb probe
  have hoccurs : (Expr.bound 0 .int).OccursIn probe := by decide
  have hw : w.closedAt 0 = true := rfl
  have habsent : ¬ w.OccursIn probe := fun h => absurd ((hclosed w hw).1 h) (by decide)
  have hearlier (l r : Expr) (hlr : .app .eq [l, r] ∈ [Expr.app .eq [x, x], .app .eq [w, x]]) :
      ¬ (l ≠ r ∧ l.OccursIn probe) := by
    simp only [List.mem_cons, List.not_mem_nil, or_false, Expr.app.injEq, true_and,
      List.cons.injEq, and_true] at hlr
    rcases hlr with ⟨rfl, rfl⟩ | ⟨rfl, rfl⟩
    · exact fun h => h.1 rfl
    · exact fun h => habsent h.2
  have hsub : substitution kb probe = some derived :=
    (hfirst derived).2 ⟨_, .bound 0 .int, x, [_], rfl, ⟨by decide, hoccurs⟩, hearlier, rfl⟩
  exact ⟨hkb, hoccurs, hw, habsent, hsub, hderived derived hsub⟩

/-- A bound variable that is loose in an equation is not the one of that number under a binder. -/
theorem substitution_spares_bound :
    let x : Expr := .var "x" .int
    let kb : List Expr := [.app .eq [.bound 0 .int, x]]
    let probe : Expr := .quant .universal [("y", .int)] (.app .lt [.bound 0 .int, .int 1])
    (∀ f ∈ kb, f.wellSorted = true) ∧ Expr.bound 0 .int ≠ x ∧ .bound 0 .int ∈ probe.subterms ∧
      substitution kb probe = none := by
  decide

/-! ### Transitivity -/

/-- The pairs of positions of two implications of which the second starts where the first ends. -/
def links (kb : List Expr) : Set (ℕ ×ₗ ℕ) :=
  {p | ∃ a b c, kb[(ofLex p).1]? = some (.app .implies [a, b]) ∧
    kb[(ofLex p).2]? = some (.app .implies [b, c])}

/-- What is derived from an implication from `a` to `b` and another fact. -/
def chainTo (a b g : Expr) : Option Expr :=
  g.implication?.bind fun (b', c) => if b = b' then some (.app .implies [a, c]) else none

/-- What is derived from a fact and the first implication that starts where it ends. -/
def chainFrom (kb : List Expr) (f : Expr) : Option Expr :=
  f.implication?.bind fun (a, b) => kb.findSome? (chainTo a b)

theorem transitivity_eq_findSome? (kb : List Expr) :
    transitivity kb = kb.findSome? (chainFrom kb) := by
  simp only [transitivity, implications, Dedup.findSome?_filterMap]
  rfl

theorem chainTo_eq_some_iff {a b g : Expr} :
    chainTo a b g = some e ↔ ∃ c, g = .app .implies [b, c] ∧ e = .app .implies [a, c] := by
  constructor
  · intro h
    obtain ⟨⟨b', c⟩, himp, hc⟩ := Option.bind_eq_some_iff.1 h
    obtain rfl := implication?_eq_some.1 himp
    dsimp only at hc
    split at hc
    · rename_i hb
      exact ⟨c, by rw [hb], (Option.some.inj hc).symm⟩
    · cases hc
  · rintro ⟨c, rfl, rfl⟩
    simp [chainTo, Expr.implication?]

theorem chainTo_ne_none (a b c : Expr) : chainTo a b (.app .implies [b, c]) ≠ none := by
  simp [chainTo, Expr.implication?]

theorem chainFrom_eq_some_iff :
    chainFrom kb f = some e ↔
      ∃ a b, f = .app .implies [a, b] ∧ kb.findSome? (chainTo a b) = some e := by
  simp [chainFrom, Option.bind_eq_some_iff, implication?_eq_some]

/-- Transitivity derives something exactly if there is a link at all. -/
theorem exists_transitivity_iff :
    (∃ e, transitivity kb = some e) ↔
      ∃ a b c, .app .implies [a, b] ∈ kb ∧ .app .implies [b, c] ∈ kb := by
  constructor
  · rintro ⟨e, he⟩
    obtain ⟨a, b, c, hab, hbc, -⟩ := transitivity_eq_some he
    exact ⟨a, b, c, hab, hbc⟩
  · rintro ⟨a, b, c, hab, hbc⟩
    have hinner : (kb.findSome? (chainTo a b)).isSome = true :=
      List.findSome?_isSome_iff.2 ⟨_, hbc, Option.isSome_iff_exists.2
        ⟨.app .implies [a, c], chainTo_eq_some_iff.2 ⟨c, rfl, rfl⟩⟩⟩
    rw [transitivity_eq_findSome?, ← Option.isSome_iff_exists, List.findSome?_isSome_iff]
    exact ⟨_, hab, hinner⟩

theorem nonempty_links_iff :
    (links kb).Nonempty ↔ ∃ a b c, .app .implies [a, b] ∈ kb ∧ .app .implies [b, c] ∈ kb := by
  constructor
  · rintro ⟨p, a, b, c, hab, hbc⟩
    exact ⟨a, b, c, List.mem_of_getElem? hab, List.mem_of_getElem? hbc⟩
  · rintro ⟨a, b, c, hab, hbc⟩
    obtain ⟨i, hi⟩ := List.mem_iff_getElem?.1 hab
    obtain ⟨j, hj⟩ := List.mem_iff_getElem?.1 hbc
    exact ⟨toLex (i, j), a, b, c, hi, hj⟩

theorem transitivity_eq_none_iff : transitivity kb = none ↔ links kb = ∅ := by
  rw [← Set.not_nonempty_iff_eq_empty, nonempty_links_iff, ← exists_transitivity_iff,
    ← Option.isSome_iff_exists, Bool.not_eq_true, Option.isSome_eq_false_iff, Option.isNone_iff_eq_none]

/-- The first success of a search stands behind failures only. -/
theorem exists_first {g : Expr → Option Expr} (h : kb.findSome? g = some e) :
    ∃ (i : ℕ) (f : Expr), kb[i]? = some f ∧ g f = some e ∧
      ∀ j < i, ∀ f', kb[j]? = some f' → g f' = none := by
  obtain ⟨before, f, after, rfl, hf, hbefore⟩ := List.findSome?_eq_some_iff.1 h
  refine ⟨before.length, f, by simp, hf, fun j hj f' hf' => ?_⟩
  rw [List.getElem?_append_left hj] at hf'
  exact hbefore f' (List.mem_of_getElem? hf')

/-- What transitivity derives comes from the least link. -/
theorem exists_isLeast_of_transitivity (h : transitivity kb = some e) :
    ∃ i j a b c, kb[i]? = some (.app .implies [a, b]) ∧ kb[j]? = some (.app .implies [b, c]) ∧
      IsLeast (links kb) (toLex (i, j)) ∧ e = .app .implies [a, c] := by
  obtain ⟨i, f, hi, hf, houter⟩ := exists_first (transitivity_eq_findSome? kb ▸ h)
  obtain ⟨a, b, rfl, hscan⟩ := chainFrom_eq_some_iff.1 hf
  obtain ⟨j, g, hj, hg, hinner⟩ := exists_first hscan
  obtain ⟨c, rfl, rfl⟩ := chainTo_eq_some_iff.1 hg
  refine ⟨i, j, a, b, c, hi, hj, ⟨⟨a, b, c, hi, hj⟩, ?_⟩, rfl⟩
  rintro p ⟨a', b', c', hi', hj'⟩
  rw [Prod.Lex.le_iff]
  rcases lt_trichotomy i (ofLex p).1 with hlt | heq | hgt
  · exact .inl hlt
  · -- the outer implication is the same one, so the scan for the inner one decides
    refine .inr ⟨heq, not_lt.1 fun hlt => ?_⟩
    rw [← heq, hi] at hi'
    obtain ⟨rfl, rfl⟩ : a = a' ∧ b = b' := by simpa using hi'
    exact absurd (hinner _ hlt _ hj') (chainTo_ne_none a b c')
  · have hscan : kb.findSome? (chainTo a' b') = none := houter _ hgt _ hi'
    have hnone := List.findSome?_eq_none_iff.1 hscan _ (List.mem_of_getElem? hj')
    exact absurd hnone (chainTo_ne_none a' b' c')

/-- Transitivity takes the least link. -/
theorem transitivity_eq_some_iff :
    transitivity kb = some e ↔
      ∃ i j a b c, kb[i]? = some (.app .implies [a, b]) ∧ kb[j]? = some (.app .implies [b, c]) ∧
        IsLeast (links kb) (toLex (i, j)) ∧ e = .app .implies [a, c] := by
  constructor
  · exact exists_isLeast_of_transitivity
  · rintro ⟨i, j, a, b, c, hi, hj, hleast, rfl⟩
    obtain ⟨e, he⟩ := exists_transitivity_iff.2
      ⟨a, b, c, List.mem_of_getElem? hi, List.mem_of_getElem? hj⟩
    obtain ⟨i', j', a', b', c', hi', hj', hleast', rfl⟩ := exists_isLeast_of_transitivity he
    obtain ⟨rfl, rfl⟩ := Prod.mk.inj (toLex.injective (hleast.unique hleast'))
    obtain ⟨rfl, rfl⟩ : a = a' ∧ b = b' := by simpa using hi.symm.trans hi'
    obtain rfl : c = c' := by simpa using hj.symm.trans hj'
    exact he

/-! ### Further facts -/

theorem modusPonens_append (ext : List Expr) (h : modusPonens kb probe = some e) :
    modusPonens (kb ++ ext) probe = some e :=
  ((List.prefix_append kb ext).filterMap Expr.implication?).findSome?_eq_some h

theorem substitution_append (ext : List Expr) (h : substitution kb probe = some e) :
    substitution (kb ++ ext) probe = some e :=
  ((List.prefix_append kb ext).filterMap Expr.equation?).findSome?_eq_some h

theorem symmetry_append (ext : List Expr) (h : symmetry kb = some e) :
    symmetry (kb ++ ext) = some e := by
  obtain ⟨p, hp, hmk⟩ := Option.bind_eq_some_iff.1 h
  have hequations : equations (kb ++ ext) = equations kb ++ equations ext := List.filterMap_append
  refine Option.bind_eq_some_iff.2 ⟨p, ?_, hmk⟩
  rw [hequations, List.head?_append, hp]
  rfl

/-- A rule that compares the probe derives nothing from plain data. -/
theorem exists_term_of_apply {c : Canonical} (hc : c = .modusPonens ∨ c = .substitution)
    {v : Value} (h : (Rule.ofCanonical c).apply kb v = .derived e) : ∃ p, v = .term p := by
  cases v with
  | term p => exact ⟨p, rfl⟩
  | sort s => rcases hc with rfl | rfl <;> cases h
  | _ =>
    rcases hc with rfl | rfl
    · change Verdict.ofReturn (if _ then _ else _) = _ at h
      split at h <;> cases h
    · cases h

/-- The first success of a single scan stays the first. -/
theorem apply_append {c : Canonical} (hc : c ≠ .transitivity) {v : Value}
    (h : (Rule.ofCanonical c).apply kb v = .derived e) (ext : List Expr) :
    (Rule.ofCanonical c).apply (kb ++ ext) v = .derived e := by
  cases c with
  | modusPonens =>
    obtain ⟨p, rfl⟩ := exists_term_of_apply (.inl rfl) h
    rw [apply_eq_derived (c := .modusPonens) rfl] at h ⊢
    exact modusPonens_append ext h
  | transitivity => exact absurd rfl hc
  | symmetry =>
    rw [apply_symmetry, ofReturn_eq_derived] at h ⊢
    exact symmetry_append ext h
  | substitution =>
    obtain ⟨p, rfl⟩ := exists_term_of_apply (.inr rfl) h
    rw [apply_eq_derived (c := .substitution) rfl] at h ⊢
    exact substitution_append ext h

/-- Transitivity keeps having an answer, if not the same one. -/
theorem exists_transitivity_append (ext : List Expr) (h : ∃ e, transitivity kb = some e) :
    ∃ e, transitivity (kb ++ ext) = some e := by
  obtain ⟨a, b, c, hab, hbc⟩ := exists_transitivity_iff.1 h
  exact exists_transitivity_iff.2
    ⟨a, b, c, List.mem_append_left ext hab, List.mem_append_left ext hbc⟩

/-- What transitivity derives does not overtake it: a link that ends in the new implication is one
with the outer implication already. -/
theorem transitivity_concat (h : transitivity kb = some e) : transitivity (kb ++ [e]) = some e := by
  rw [transitivity_eq_findSome?] at h ⊢
  obtain ⟨before, f, after, hkb, hf, hbefore⟩ := List.findSome?_eq_some_iff.1 h
  obtain ⟨a, b, rfl, hscan⟩ := chainFrom_eq_some_iff.1 hf
  obtain ⟨g, -, hg⟩ := List.exists_of_findSome?_eq_some hscan
  obtain ⟨c, -, rfl⟩ := chainTo_eq_some_iff.1 hg
  have houter : .app .implies [a, b] ∈ kb := by simp [hkb]
  refine List.findSome?_eq_some_iff.2
    ⟨before, .app .implies [a, b], after ++ [.app .implies [a, c]], by simp [hkb], ?_, ?_⟩
  · refine chainFrom_eq_some_iff.2 ⟨a, b, rfl, ?_⟩
    rw [List.findSome?_append, hscan]
    rfl
  · intro g hg
    by_contra hne
    obtain ⟨d, hd⟩ := Option.ne_none_iff_exists'.1 hne
    obtain ⟨x, y, rfl, hxy⟩ := chainFrom_eq_some_iff.1 hd
    have hnone : kb.findSome? (chainTo x y) = none := hbefore _ hg
    rw [List.findSome?_append, hnone] at hxy
    have hnew : chainTo x y (.app .implies [a, c]) = some d := by simpa using hxy
    obtain ⟨z, hz, -⟩ := chainTo_eq_some_iff.1 hnew
    obtain ⟨rfl, -⟩ : a = y ∧ c = z := by simpa using hz
    exact chainTo_ne_none x a b (List.findSome?_eq_none_iff.1 hnone _ houter)

/-- **Answers survive further facts.**  Whatever the probe is, what modus ponens, symmetry or
substitution derives, it derives with further facts too.  Transitivity derives from the premise of
one implication the conclusion of another for the least link, where links are ordered by the
position of the outer implication and then by that of the inner one; it derives nothing if there is
no link.  With further facts it still derives something. -/
theorem answers_survive_further_facts (kb ext : List Expr) (probe : Value) :
    (∀ c e, c ≠ Canonical.transitivity → (Rule.ofCanonical c).apply kb probe = .derived e →
      (Rule.ofCanonical c).apply (kb ++ ext) probe = .derived e) ∧
    (∀ e, (Rule.ofCanonical .transitivity).apply kb probe = .derived e ↔
      ∃ i j a b c, kb[i]? = some (.app .implies [a, b]) ∧ kb[j]? = some (.app .implies [b, c]) ∧
        IsLeast (links kb) (toLex (i, j)) ∧ e = .app .implies [a, c]) ∧
    ((Rule.ofCanonical .transitivity).apply kb probe = .inapplicable ↔ links kb = ∅) ∧
    ((∃ e, (Rule.ofCanonical .transitivity).apply kb probe = .derived e) →
      ∃ e, (Rule.ofCanonical .transitivity).apply (kb ++ ext) probe = .derived e) := by
  simp only [apply_transitivity, ofReturn_eq_derived, ofReturn_eq_inapplicable]
  exact ⟨fun _ _ hc h => apply_append hc h ext, fun _ => transitivity_eq_some_iff,
    transitivity_eq_none_iff, exists_transitivity_append ext⟩

/-- A further fact that follows the first implication comes in before the link that was there. -/
theorem answers_survive_further_facts_overtaken :
    let v (name : String) : Expr := .var name .bool
    let implies (a b : Expr) : Expr := .app .implies [a, b]
    let kb := [implies (v "p") (v "q"), implies (v "r") (v "s"), implies (v "s") (v "t")]
    let ext := [implies (v "q") (v "u")]
    let chain := (Rule.ofCanonical .transitivity).apply
    let detach := (Rule.ofCanonical .modusPonens).apply
    detach kb (.term (v "p")) = .derived (v "q") ∧
      detach (kb ++ ext) (.term (v "p")) = .derived (v "q") ∧
      chain kb .nothing = .derived (implies (v "r") (v "t")) ∧
      (∃ e, chain (kb ++ ext) .nothing = .derived e) ∧
      chain (kb ++ ext) .nothing = .derived (implies (v "p") (v "u")) := by
  intro v implies kb ext chain detach
  have hdetach : detach kb (.term (v "p")) = .derived (v "q") := rfl
  have hchain : chain kb .nothing = .derived (implies (v "r") (v "t")) := rfl
  have hterm := answers_survive_further_facts kb ext (.term (v "p"))
  have hnothing := answers_survive_further_facts kb ext .nothing
  exact ⟨hdetach, hterm.1 .modusPonens _ (by decide) hdetach, hchain,
    hnothing.2.2.2 ⟨_, hchain⟩, rfl⟩

end Deduce

import Deduce.Proofs.Term.Sorting
import Mathlib.Tactic.Common

/-!
# Where a term occurs

A term has a place for each of its nodes, those under binders included (`Expr.places`).  A term
occurs in another if it stands at one of the places, with its loose bound variables raised by the
number of binders around the place (`Expr.OccursIn`): seen from there, they are the variables that
they are outside.  A term without loose bound variables stands there as it is
(`Expr.occursIn_iff_of_closed`).

Replacing a term by another changes nothing exactly if the two are equal or the first does not
occur (`Expr.replace_eq_self_iff`).  Lifting keeps different terms apart (`Expr.eq_of_lift_eq`), so
what is replaced under binders is different from what it is replaced by, too.
-/

namespace Deduce.Expr

variable {x l r e : Expr} {as : List Expr} {n depth : Nat}

/-! ### Lifting -/

theorem lift_zero (depth : Nat) (e : Expr) : lift 0 depth e = e := by
  induction e using Expr.induction generalizing depth with
  | var | int | real | truth => rfl
  | bound i s => simp [lift]
  | quant q bs body ih => rw [lift, ih]
  | app op as ih =>
    rw [lift, liftList_eq_map, List.map_congr_left fun a ha => ih a ha depth, List.map_id']

theorem lift_lift (m n depth : Nat) (e : Expr) :
    lift n depth (lift m depth e) = lift (m + n) depth e := by
  induction e using Expr.induction generalizing depth with
  | var | int | real | truth => rfl
  | bound i s =>
    by_cases hi : depth ≤ i
    · simp [lift, hi, Nat.le_add_right_of_le hi, Nat.add_assoc]
    · simp [lift, hi]
  | quant q bs body ih => rw [lift, lift, lift, ih]
  | app op as ih =>
    simp only [lift, liftList_eq_map, List.map_map]
    exact congrArg (app op) (List.map_congr_left fun a ha => ih a ha depth)

/-- Lifting keeps different terms apart. -/
theorem eq_of_lift_eq {e' : Expr} (h : lift n depth e = lift n depth e') : e = e' := by
  induction e using Expr.induction generalizing depth e' with
  | var | int | real | truth => cases e' <;> simp_all [lift]
  | bound i s =>
    cases e' with
    | bound j t =>
      obtain ⟨hij, rfl⟩ := bound.inj h
      congr 1
      split_ifs at hij <;> omega
    | _ => simp [lift] at h
  | quant q bs body ih =>
    cases e' with
    | quant q' bs' body' =>
      obtain ⟨rfl, rfl, hbody⟩ := quant.inj h
      rw [ih hbody]
    | _ => simp [lift] at h
  | app op as ih =>
    cases e' with
    | app op' bs =>
      simp only [lift, liftList_eq_map, app.injEq] at h
      obtain ⟨rfl, hargs⟩ := h
      have hlength : as.length = bs.length := by simpa using congrArg List.length hargs
      congr 1
      refine List.ext_getElem hlength fun i hi hi' => ?_
      have hget := List.getElem_of_eq hargs (i := i) (by simpa using hi)
      rw [List.getElem_map, List.getElem_map] at hget
      exact ih _ (List.getElem_mem hi) hget
    | _ => simp [lift] at h

/-! ### Loose bound variables -/

mutual

/-- All bound variables are bound in the term or by the `depth` binders around it. -/
def closedAt (depth : Nat) : Expr → Bool
  | .bound i _ => i < depth
  | .quant _ bs body => closedAt (depth + bs.length) body
  | .app _ as => closedListAt depth as
  | _ => true

/-- `closedAt` for every term of a list. -/
def closedListAt (depth : Nat) : List Expr → Bool
  | [] => true
  | a :: as => closedAt depth a && closedListAt depth as

end

theorem closedListAt_eq_all (depth : Nat) (as : List Expr) :
    closedListAt depth as = as.all (closedAt depth) := by
  induction as with
  | nil => rfl
  | cons a as ih => rw [closedListAt, ih, List.all_cons]

theorem lift_of_closedAt (n : Nat) (h : e.closedAt depth = true) : lift n depth e = e := by
  induction e using Expr.induction generalizing depth with
  | var | int | real | truth => rfl
  | bound i s =>
    have hi : ¬ depth ≤ i := by simpa [closedAt] using h
    simp [lift, hi]
  | quant q bs body ih => rw [lift, ih h]
  | app op as ih =>
    simp only [closedAt, closedListAt_eq_all, List.all_eq_true] at h
    rw [lift, liftList_eq_map, List.map_congr_left fun a ha => ih a ha (h a ha), List.map_id']

/-! ### Places -/

mutual

/-- The nodes of a term, those under binders included, each with the number of binders around it,
of which there are `depth` around the term. -/
def places (depth : Nat) : Expr → List (Nat × Expr)
  | .quant q bs body => (depth, .quant q bs body) :: places (depth + bs.length) body
  | .app op as => (depth, .app op as) :: placesList depth as
  | e => [(depth, e)]

/-- The places of the terms of a list. -/
def placesList (depth : Nat) : List Expr → List (Nat × Expr)
  | [] => []
  | a :: as => places depth a ++ placesList depth as

end

theorem mem_placesList {p : Nat × Expr} :
    p ∈ placesList depth as ↔ ∃ a ∈ as, p ∈ places depth a := by
  induction as with
  | nil => simp [placesList]
  | cons a as ih => simp [placesList, ih]

/-- The nodes of a term, those under binders included. -/
def subterms (e : Expr) : List Expr := (e.places 0).map Prod.snd

/-- A term occurs in another: at one of its places stands the term, its loose bound variables
raised by the number of binders around the place. -/
def OccursIn (x e : Expr) : Prop := ∃ p ∈ e.places 0, p.2 = lift p.1 0 x

instance (x e : Expr) : Decidable (x.OccursIn e) :=
  inferInstanceAs (Decidable (∃ p ∈ e.places 0, p.2 = lift p.1 0 x))

theorem occursIn_iff_of_closed (h : x.closedAt 0 = true) : x.OccursIn e ↔ x ∈ e.subterms := by
  simp [OccursIn, subterms, lift_of_closedAt _ h]

/-! ### Replacing -/

theorem replace_self (x e : Expr) : replace x x e = e := by
  induction e using Expr.induction generalizing x with
  | var | int | real | truth | bound =>
    simp only [replace, ite_eq_right_iff]
    exact Eq.symm
  | quant q bs body ih =>
    rw [replace, ih, ite_eq_right_iff]
    exact Eq.symm
  | app op as ih =>
    rw [replace, replaceList_eq_map, List.map_congr_left fun a ha => ih a ha x, List.map_id',
      ite_eq_right_iff]
    exact Eq.symm

theorem map_eq_self_iff {f : Expr → Expr} : as.map f = as ↔ ∀ a ∈ as, f a = a := by
  have h := List.map_inj_left (l := as) (f := f) (g := id)
  rwa [List.map_id] at h

theorem ite_eq_self_iff {old new e' : Expr} (hne : old ≠ new) :
    (if e = old then new else e') = e ↔ e ≠ old ∧ e' = e := by
  by_cases he : e = old
  · simp [he, hne.symm]
  · simp [he]

/-- Below `n` binders both terms are lifted, and are looked for at the places that are further
in. -/
theorem replace_lift_eq_self_iff (hne : l ≠ r) (e : Expr) (n : Nat) :
    replace (lift n 0 l) (lift n 0 r) e = e ↔ ∀ p ∈ e.places n, p.2 ≠ lift p.1 0 l := by
  have hlift (n : Nat) : lift n 0 l ≠ lift n 0 r := mt eq_of_lift_eq hne
  induction e using Expr.induction generalizing n with
  | var | int | real | truth | bound =>
    simp only [replace, places, ite_eq_self_iff (hlift n), List.forall_mem_singleton, and_true]
  | quant q bs body ih =>
    rw [replace, places, ite_eq_self_iff (hlift n), List.forall_mem_cons, lift_lift, lift_lift]
    simp only [quant.injEq, true_and, ih]
  | app op as ih =>
    rw [replace, places, ite_eq_self_iff (hlift n), List.forall_mem_cons, replaceList_eq_map]
    simp only [app.injEq, true_and, map_eq_self_iff, mem_placesList]
    refine and_congr_right fun _ => ⟨?_, ?_⟩
    · rintro h p ⟨a, ha, hp⟩
      exact (ih a ha n).1 (h a ha) p hp
    · intro h a ha
      exact (ih a ha n).2 fun p hp => h p ⟨a, ha, hp⟩

/-- Replacing changes nothing exactly if a term is replaced by itself or does not occur. -/
theorem replace_eq_self_iff (l r e : Expr) : replace l r e = e ↔ l = r ∨ ¬ l.OccursIn e := by
  by_cases hlr : l = r
  · simp [hlr, replace_self]
  · have h := replace_lift_eq_self_iff hlr e 0
    rw [lift_zero, lift_zero] at h
    simp only [h, hlr, OccursIn, false_or, not_exists, not_and, ne_eq]

end Deduce.Expr

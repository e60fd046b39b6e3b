import Deduce.Proofs.Data.Dedup
import Deduce.Proofs.Term.Sorting
import Deduce.Term.Variables

/-!
# What the reading of variables finds

`Expr.collect` reads a stack of terms and skips those that it has read before.  It loses nothing
by that: a term that comes up a second time was read in full the first time, since what its
reading left on the stack is smaller than the term itself and lies above everything else
(`Expr.Pending`).  So the variables found are those of the plain walk, in the order of their
first occurrence (`Expr.collect_eq`).

Where a term is replaced by another, no variables come in but those of the other
(`Expr.mem_occurrences_replace`).
-/

namespace Deduce.Expr

/-! ### Occurrences and parts -/

theorem occurrencesList_append (as bs : List Expr) :
    occurrencesList (as ++ bs) = occurrencesList as ++ occurrencesList bs := by
  induction as with
  | nil => rfl
  | cons a as ih => simp [occurrencesList, ih]

theorem occurrences_of_isVariable {e : Expr} (h : e.isVariable = true) : e.occurrences = [e] := by
  cases e <;> simp_all [isVariable, occurrences]

theorem occurrences_of_not_isVariable {e : Expr} (h : ¬ e.isVariable = true) :
    e.occurrences = occurrencesList e.parts := by
  cases e <;> simp_all [isVariable, occurrences, parts, occurrencesList]

theorem parts_of_isVariable {e : Expr} (h : e.isVariable = true) : e.parts = [] := by
  cases e <;> simp_all [isVariable, parts]

theorem mem_occurrencesList {v : Expr} {as : List Expr} :
    v ∈ occurrencesList as ↔ ∃ a ∈ as, v ∈ a.occurrences := by
  induction as with
  | nil => simp [occurrencesList]
  | cons a as ih => simp [occurrencesList, ih]

theorem isVariable_of_mem_occurrences {v e : Expr} (h : v ∈ e.occurrences) :
    v.isVariable = true := by
  induction e using Expr.induction with
  | var n s =>
    rw [List.mem_singleton.1 h]
    rfl
  | int | real | truth | bound => simp [occurrences] at h
  | quant q bs body ih => exact ih h
  | app op as ih =>
    obtain ⟨a, ha, hv⟩ := mem_occurrencesList.1 h
    exact ih a ha hv

theorem size_lt_of_mem_parts {a e : Expr} (h : a ∈ e.parts) : a.size < e.size := by
  refine Nat.lt_of_le_of_lt ?_ (sizeList_parts_lt e)
  generalize e.parts = as at h
  induction as with
  | nil => simp at h
  | cons b as ih =>
    simp only [sizeList]
    rcases List.mem_cons.1 h with rfl | h
    · omega
    · have := ih h
      omega

/-! ### The stack -/

/-- What is still to be found in a term that was read lies on top of the stack, above the first
term that is not smaller. -/
def Pending (visited stack : List Expr) : Prop :=
  ∀ e ∈ visited, ∀ v ∈ e.occurrences, v ∉ visited →
    v ∈ occurrencesList (stack.takeWhile fun a => a.size < e.size)

theorem Pending.empty (stack : List Expr) : Pending [] stack := by
  intro e he
  simp at he

/-- A term that comes up again has nothing left to be found. -/
theorem Pending.mem_visited {visited stack : List Expr} {e v : Expr}
    (h : Pending visited (e :: stack)) (he : e ∈ visited) (hv : v ∈ e.occurrences) :
    v ∈ visited := by
  by_contra hn
  have := h e he v hv hn
  simp [occurrencesList] at this

theorem Pending.skip {visited stack : List Expr} {e : Expr}
    (h : Pending visited (e :: stack)) (he : e ∈ visited) : Pending visited stack := by
  intro a ha v hv hn
  have hw := h a ha v hv hn
  rw [List.takeWhile_cons] at hw
  split at hw
  · rcases List.mem_append.1 hw with hw | hw
    · exact absurd (h.mem_visited he hw) hn
    · exact hw
  · simp [occurrencesList] at hw

/-- Reading a term keeps what is pending on top: its parts are smaller than the term, and so
than every term that the term itself was above. -/
theorem Pending.read {visited stack : List Expr} {e : Expr}
    (h : Pending visited (e :: stack)) : Pending (e :: visited) (e.parts ++ stack) := by
  have htop : ∀ a : Expr, e.size ≤ a.size →
      (e.parts ++ stack).takeWhile (fun b => b.size < a.size) =
        e.parts ++ stack.takeWhile fun b => b.size < a.size := by
    intro a hea
    refine List.takeWhile_append_of_pos fun b hb => ?_
    have := size_lt_of_mem_parts hb
    simpa using (by omega : b.size < a.size)
  have hparts : ∀ v ∈ e.occurrences, v ∉ e :: visited → v ∈ occurrencesList e.parts := by
    intro v hv hn
    by_cases hvar : e.isVariable = true
    · rw [occurrences_of_isVariable hvar] at hv
      exact absurd (List.mem_cons.2 (.inl (List.mem_singleton.1 hv))) hn
    · rwa [occurrences_of_not_isVariable hvar] at hv
  intro a ha v hv hn
  rcases List.mem_cons.1 ha with rfl | ha
  · rw [htop a (Nat.le_refl _), occurrencesList_append]
    exact List.mem_append_left _ (hparts v hv hn)
  · have hw := h a ha v hv fun hv' => hn (List.mem_cons_of_mem e hv')
    rw [List.takeWhile_cons] at hw
    split at hw
    · rename_i hlt
      rw [htop a (Nat.le_of_lt (by simpa using hlt)), occurrencesList_append]
      rcases List.mem_append.1 hw with hw | hw
      · exact List.mem_append_left _ (hparts v hw hn)
      · exact List.mem_append_right _ hw
    · simp [occurrencesList] at hw

/-! ### The variables found -/

/-- **The reading finds what the plain walk finds.**  Of the variables on the stack, those that
were not read before are found, each where it first occurs. -/
theorem collect_eq (visited stack : List Expr) (h : Pending visited stack) :
    collect visited stack = ((occurrencesList stack).filter (· ∉ visited)).eraseDups := by
  fun_induction collect visited stack with
  | case1 visited => rfl
  | case2 visited e stack he ih =>
    have hnil : e.occurrences.filter (· ∉ visited) = [] := by
      refine List.filter_eq_nil_iff.2 fun v hv => ?_
      simpa using h.mem_visited he hv
    rw [ih (h.skip he), occurrencesList, List.filter_append, hnil, List.nil_append]
  | case3 visited e stack he rest hvar ih =>
    have hrest : rest = ((occurrencesList stack).filter (· ∉ e :: visited)).eraseDups := by
      refine (ih h.read).trans ?_
      rw [parts_of_isVariable hvar, List.nil_append]
    rw [hrest, occurrencesList, occurrences_of_isVariable hvar, List.singleton_append,
      Dedup.eraseDups_filter_cons he]
  | case4 visited e stack he rest hvar ih =>
    have hfilter : (occurrencesList (e.parts ++ stack)).filter (· ∉ e :: visited) =
        (occurrencesList (e :: stack)).filter (· ∉ visited) := by
      rw [occurrencesList_append, occurrencesList, occurrences_of_not_isVariable hvar]
      refine List.filter_congr fun v hv => ?_
      -- only variables occur, and `e` is none
      have hne : v ≠ e := by
        rintro rfl
        rw [← occurrencesList_append] at hv
        obtain ⟨a, -, hva⟩ := mem_occurrencesList.1 hv
        exact hvar (isVariable_of_mem_occurrences hva)
      simp [hne]
    rw [← hfilter]
    exact ih h.read

theorem freeVariables_eq (e : Expr) : e.freeVariables = e.occurrences.eraseDups := by
  have hall : (occurrencesList [e]).filter (· ∉ []) = e.occurrences := by
    rw [occurrencesList, occurrencesList, List.append_nil]
    exact List.filter_eq_self.2 fun v _ => rfl
  rw [freeVariables, collect_eq _ _ (.empty _), hall]

theorem mem_freeVariables {v e : Expr} : v ∈ e.freeVariables ↔ v ∈ e.occurrences := by
  rw [freeVariables_eq, List.mem_eraseDups]

theorem nodup_freeVariables (e : Expr) : e.freeVariables.Nodup := by
  rw [freeVariables_eq]
  exact Dedup.nodup_eraseDups _

/-! ### Replacement -/

theorem occurrences_lift (n depth : Nat) (e : Expr) :
    (lift n depth e).occurrences = e.occurrences := by
  induction e using Expr.induction generalizing depth with
  | var | int | real | truth | bound => rfl
  | quant q bs body ih => exact ih (depth + bs.length)
  | app op as ih =>
    rw [lift, liftList_eq_map, occurrences, occurrences]
    induction as with
    | nil => rfl
    | cons a as ihs =>
      rw [List.map_cons, occurrencesList, occurrencesList, ih a List.mem_cons_self,
        ihs fun b hb => ih b (List.mem_cons_of_mem a hb)]

theorem mem_occurrences_replace {old new e v : Expr} (h : v ∈ (replace old new e).occurrences) :
    v ∈ e.occurrences ∨ v ∈ new.occurrences := by
  induction e using Expr.induction generalizing old new with
  | var | int | real | truth | bound =>
    simp only [replace] at h
    split at h
    · exact .inr h
    · exact .inl h
  | quant q bs body ih =>
    rw [replace] at h
    split at h
    · exact .inr h
    · -- under the binders the other term is lifted, which its variables do not notice
      rw [occurrences] at h
      exact (ih h).imp_right fun hv => occurrences_lift bs.length 0 new ▸ hv
  | app op as ih =>
    rw [replace] at h
    split at h
    · exact .inr h
    · rw [occurrences, replaceList_eq_map] at h
      obtain ⟨b, hb, hv⟩ := mem_occurrencesList.1 h
      obtain ⟨a, ha, rfl⟩ := List.mem_map.1 hb
      exact (ih a ha hv).imp_left fun hv => mem_occurrencesList.2 ⟨a, ha, hv⟩

end Deduce.Expr

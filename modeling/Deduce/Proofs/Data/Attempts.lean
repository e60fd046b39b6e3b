/-!
# Attempts one after the other

Where the items of a list are handled one after the other, up to the first that fails, the results
of the single items form a list of attempts.  What comes of the whole is what was gained before the
first failure (`gained`), and that failure, if there is one (`verdict`).  Every list of attempts
has no failure or a first one (`exists_split`).
-/

namespace Deduce.Attempts

variable {ε α β : Type}

/-- What was gained before the first failure. -/
def gained : List (Except ε α) → List α
  | .ok a :: xs => a :: gained xs
  | _ => []

/-- The first failure, if there is one. -/
def verdict : List (Except ε α) → Except ε Unit
  | [] => .ok ()
  | .ok _ :: xs => verdict xs
  | .error f :: _ => .error f

/-- A list of attempts has no failure, or a first one. -/
theorem exists_split (xs : List (Except ε α)) :
    (∃ as : List α, xs = as.map .ok) ∨
      ∃ (as : List α) (f : ε) (rest : List (Except ε α)), xs = as.map .ok ++ .error f :: rest := by
  induction xs with
  | nil => exact .inl ⟨[], rfl⟩
  | cons x xs ih =>
    cases x with
    | error f => exact .inr ⟨[], f, xs, rfl⟩
    | ok a =>
      rcases ih with ⟨as, rfl⟩ | ⟨as, f, rest, rfl⟩
      · exact .inl ⟨a :: as, rfl⟩
      · exact .inr ⟨a :: as, f, rest, rfl⟩

/-! ### After attempts that succeed -/

@[simp] theorem gained_map_ok_append (as : List α) (xs : List (Except ε α)) :
    gained (as.map .ok ++ xs) = as ++ gained xs := by
  induction as with
  | nil => rfl
  | cons a as ih => exact congrArg (a :: ·) ih

@[simp] theorem verdict_map_ok_append (as : List α) (xs : List (Except ε α)) :
    verdict (as.map .ok ++ xs) = verdict xs := by
  induction as with
  | nil => rfl
  | cons a as ih => exact ih

@[simp] theorem gained_map_ok (as : List α) : gained (as.map (.ok : α → Except ε α)) = as := by
  simpa [gained] using gained_map_ok_append as ([] : List (Except ε α))

@[simp] theorem verdict_map_ok (as : List α) :
    verdict (as.map (.ok : α → Except ε α)) = .ok () := by
  simpa [verdict] using verdict_map_ok_append as ([] : List (Except ε α))

@[simp] theorem gained_error_cons (f : ε) (xs : List (Except ε α)) :
    gained (.error f :: xs) = [] := rfl

@[simp] theorem verdict_error_cons (f : ε) (xs : List (Except ε α)) :
    verdict (.error f :: xs) = .error f := rfl

theorem verdict_eq_ok_iff {xs : List (Except ε α)} :
    verdict xs = .ok () ↔ ∀ x ∈ xs, ∃ a, x = .ok a := by
  rcases exists_split xs with ⟨as, rfl⟩ | ⟨as, f, rest, rfl⟩
  · simp
  · simp only [verdict_map_ok_append, verdict_error_cons, reduceCtorEq, false_iff]
    intro h
    obtain ⟨a, ha⟩ := h (.error f) (by simp)
    cases ha

/-! ### Two lists of attempts -/

/-- If the first list has no failure, the second is attempted too. -/
theorem append_of_verdict_ok {xs : List (Except ε α)} (h : verdict xs = .ok ())
    (ys : List (Except ε α)) :
    gained (xs ++ ys) = gained xs ++ gained ys ∧ verdict (xs ++ ys) = verdict ys := by
  rcases exists_split xs with ⟨as, rfl⟩ | ⟨as, f, rest, rfl⟩
  · simp
  · simp at h

/-- A failure in the first list ends the whole. -/
theorem append_of_verdict_error {xs : List (Except ε α)} {f : ε} (h : verdict xs = .error f)
    (ys : List (Except ε α)) :
    gained (xs ++ ys) = gained xs ∧ verdict (xs ++ ys) = .error f := by
  rcases exists_split xs with ⟨as, rfl⟩ | ⟨as, g, rest, rfl⟩
  · simp at h
  · simp only [verdict_map_ok_append, verdict_error_cons] at h
    simp [h]

/-! ### Items handled for their results -/

variable {g : β → Except ε α} {xs : List β}

/-- Handling all items for their results gives these results, or the first failure. -/
theorem mapM_eq (g : β → Except ε α) (xs : List β) :
    xs.mapM g = (verdict (xs.map g)).map fun _ => gained (xs.map g) := by
  induction xs with
  | nil => rfl
  | cons x xs ih =>
    rw [List.mapM_cons, ih, List.map_cons]
    cases g x with
    | error f => rfl
    | ok a =>
      change ((verdict (xs.map g)).map fun _ => gained (xs.map g)) >>= _ = _
      rw [verdict, gained]
      cases verdict (xs.map g) <;> rfl

theorem mapM_eq_ok_iff {as : List α} : xs.mapM g = .ok as ↔ xs.map g = as.map .ok := by
  rw [mapM_eq]
  constructor
  · intro h
    rcases exists_split (xs.map g) with ⟨as', hsplit⟩ | ⟨as', f, rest, hsplit⟩
    · rw [hsplit, verdict_map_ok, gained_map_ok] at h
      obtain rfl : as' = as := Except.ok.inj h
      exact hsplit
    · rw [hsplit, verdict_map_ok_append] at h
      cases h
  · intro h
    rw [h, verdict_map_ok, gained_map_ok]
    rfl

theorem length_eq_of_mapM_eq_ok {as : List α} (h : xs.mapM g = .ok as) : as.length = xs.length := by
  simpa using (congrArg List.length (mapM_eq_ok_iff.1 h)).symm

theorem mapM_eq_error_iff {f : ε} : xs.mapM g = .error f ↔ verdict (xs.map g) = .error f := by
  rw [mapM_eq]
  cases verdict (xs.map g) <;> simp [Except.map]

/-- The item whose failure it is comes after items that do not fail. -/
theorem exists_of_mapM_eq_error {f : ε} (h : xs.mapM g = .error f) :
    ∃ earlier x later, xs = earlier ++ x :: later ∧
      earlier.mapM g = .ok (gained (xs.map g)) ∧ g x = .error f := by
  have hverdict := mapM_eq_error_iff.1 h
  rcases exists_split (xs.map g) with ⟨as, hsplit⟩ | ⟨as, f', rest, hsplit⟩
  · rw [hsplit, verdict_map_ok] at hverdict
    cases hverdict
  · rw [hsplit, verdict_map_ok_append, verdict_error_cons] at hverdict
    obtain rfl := Except.error.inj hverdict
    obtain ⟨earlier, tail, rfl, hearlier, htail⟩ := List.map_eq_append_iff.1 hsplit
    obtain ⟨x, later, rfl, hx, -⟩ := List.map_eq_cons_iff.1 htail
    refine ⟨earlier, x, later, rfl, mapM_eq_ok_iff.2 ?_, hx⟩
    rw [hsplit, hearlier, gained_map_ok_append, gained_error_cons, List.append_nil]

end Deduce.Attempts

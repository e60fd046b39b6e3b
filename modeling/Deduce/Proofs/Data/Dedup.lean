import Mathlib.Data.List.Induction

/-!
# Removing repetitions from a list

`List.eraseDups` keeps the first of several equal elements.  What is proved here says how it
behaves on a list that grows at its end: a further element is added exactly if it is new
(`eraseDups_concat`), and the part that is there already may be freed of repetitions first
(`eraseDups_eraseDups_append`).  Read from its front, with a list of what is known by then, it
keeps what is not known (`eraseDups_filter_cons`).  The first match in a list is that in the list
without repetitions (`findSome?_eraseDups`).  Repetitions may be removed before or after elements
are singled out (`eraseDups_filter`), and before elements are mapped, if they are removed again
afterwards (`eraseDups_filterMap_eraseDups`).
-/

namespace Deduce.Dedup

variable {α : Type} [DecidableEq α]

theorem eraseDups_concat (xs : List α) (x : α) :
    (xs ++ [x]).eraseDups = if x ∈ xs then xs.eraseDups else xs.eraseDups ++ [x] := by
  rw [List.eraseDups_append]
  by_cases hx : x ∈ xs <;> simp [List.removeAll, hx, List.eraseDups_cons]

theorem nodup_eraseDups (xs : List α) : xs.eraseDups.Nodup := by
  induction xs using List.reverseRecOn with
  | nil => exact List.nodup_nil
  | append_singleton xs x ih =>
    rw [eraseDups_concat]
    split
    · exact ih
    · rename_i hx
      refine List.nodup_append.2 ⟨ih, by simp, fun y hy z hz => ?_⟩
      rw [List.mem_singleton.1 hz]
      exact fun hyx => hx (hyx ▸ List.mem_eraseDups.1 hy)

theorem eraseDups_of_nodup {xs : List α} (h : xs.Nodup) : xs.eraseDups = xs := by
  induction xs using List.reverseRecOn with
  | nil => rfl
  | append_singleton xs x ih =>
    obtain ⟨hxs, -, hd⟩ := List.nodup_append.1 h
    have hx : x ∉ xs := fun hx => hd x hx x (List.mem_singleton_self x) rfl
    rw [eraseDups_concat, if_neg hx, ih hxs]

theorem eraseDups_eraseDups_append (xs ys : List α) :
    (xs.eraseDups ++ ys).eraseDups = (xs ++ ys).eraseDups := by
  have hr : ys.removeAll xs.eraseDups = ys.removeAll xs := by
    simp [List.removeAll, List.mem_eraseDups]
  rw [List.eraseDups_append, List.eraseDups_append, eraseDups_of_nodup (nodup_eraseDups xs), hr]

/-- An element that is not known yet is kept, and known from then on. -/
theorem eraseDups_filter_cons {known : List α} {x : α} (hx : x ∉ known) (xs : List α) :
    ((x :: xs).filter (· ∉ known)).eraseDups =
      x :: (xs.filter (· ∉ x :: known)).eraseDups := by
  have hfilter : (xs.filter (· ∉ known)).filter (fun y => !y == x) =
      xs.filter (· ∉ x :: known) := by
    rw [List.filter_filter]
    refine List.filter_congr fun y _ => ?_
    by_cases hy : y = x <;> simp [hy]
  rw [List.filter_cons_of_pos (by simpa using hx), List.eraseDups_cons, hfilter]

/-- New elements, each once, may be appended after the repetitions are removed. -/
theorem eraseDups_append_of_fresh {xs ys : List α} (hys : ys.Nodup) (hfresh : ∀ y ∈ ys, y ∉ xs) :
    (xs ++ ys).eraseDups = xs.eraseDups ++ ys := by
  have hr : ys.removeAll xs = ys := by
    simpa [List.removeAll] using hfresh
  rw [List.eraseDups_append, hr, eraseDups_of_nodup hys]

/-- What is there already adds nothing. -/
theorem eraseDups_append_of_subset {xs ys : List α} (h : ys ⊆ xs) :
    (xs ++ ys).eraseDups = xs.eraseDups := by
  have hr : ys.removeAll xs = [] := by
    simpa [List.removeAll] using fun y hy => h hy
  rw [List.eraseDups_append, hr, List.eraseDups_nil, List.append_nil]

omit [DecidableEq α] in
/-- Equal elements are repetitions of each other. -/
theorem length_le_one_of_nodup {xs : List α} (hxs : xs.Nodup) (heq : ∀ x ∈ xs, ∀ y ∈ xs, x = y) :
    xs.length ≤ 1 := by
  match xs with
  | [] => simp
  | [_] => simp
  | x :: y :: _ =>
    have hxy : x = y := heq x (by simp) y (by simp)
    simp [hxy] at hxs

/-! ### Parts -/

theorem eraseDups_filter (p : α → Bool) (xs : List α) :
    (xs.filter p).eraseDups = xs.eraseDups.filter p := by
  induction xs using List.reverseRecOn with
  | nil => rfl
  | append_singleton xs x ih =>
    rw [List.filter_append, eraseDups_concat]
    by_cases hp : p x = true
    · rw [List.filter_cons_of_pos hp, List.filter_nil, eraseDups_concat, ih]
      by_cases hx : x ∈ xs <;> simp [hx, hp]
    · rw [List.filter_cons_of_neg hp, List.filter_nil, List.append_nil, ih]
      by_cases hx : x ∈ xs <;> simp [hx, hp]

/-- What an append is without repetitions depends only on what its parts are without them. -/
theorem eraseDups_append_congr {xs xs' ys ys' : List α} (hxs : xs.eraseDups = xs'.eraseDups)
    (hys : ys.eraseDups = ys'.eraseDups) : (xs ++ ys).eraseDups = (xs' ++ ys').eraseDups := by
  have hmem : ∀ x, x ∈ xs ↔ x ∈ xs' := fun x => by
    rw [← List.mem_eraseDups, hxs, List.mem_eraseDups]
  have hnew : (ys.removeAll xs).eraseDups = (ys'.removeAll xs').eraseDups := by
    simp only [List.removeAll, List.elem_eq_mem, hmem, eraseDups_filter, hys]
  rw [List.eraseDups_append, List.eraseDups_append, hxs, hnew]

variable {β γ : Type}

theorem eraseDups_filterMap_eraseDups [DecidableEq β] (f : α → Option β) (xs : List α) :
    (xs.eraseDups.filterMap f).eraseDups = (xs.filterMap f).eraseDups := by
  induction xs using List.reverseRecOn with
  | nil => rfl
  | append_singleton xs x ih =>
    rw [eraseDups_concat]
    split
    · rename_i hx
      have hsub : [x].filterMap f ⊆ xs.filterMap f := by
        intro y hy
        rw [List.mem_filterMap] at hy ⊢
        obtain ⟨x', hx', hy⟩ := hy
        exact ⟨x', List.mem_singleton.1 hx' ▸ hx, hy⟩
      rw [List.filterMap_append, eraseDups_append_of_subset hsub, ih]
    · rw [List.filterMap_append, List.filterMap_append]
      exact eraseDups_append_congr ih rfl

/-! ### Searching -/

theorem findSome?_eraseDups (f : α → Option β) (xs : List α) :
    xs.eraseDups.findSome? f = xs.findSome? f := by
  induction xs using List.reverseRecOn with
  | nil => rfl
  | append_singleton xs x ih =>
    rw [eraseDups_concat, List.findSome?_append]
    split
    · rename_i hx
      rw [ih]
      -- where the first occurrence gives nothing, the second gives nothing either
      cases h : xs.findSome? f with
      | some b => rfl
      | none => simp [List.findSome?_eq_none_iff.1 h x hx]
    · rw [List.findSome?_append, ih]

omit [DecidableEq α] in
theorem findSome?_filterMap (f : α → Option β) (g : β → Option γ) (xs : List α) :
    (xs.filterMap f).findSome? g = xs.findSome? fun x => (f x).bind g := by
  simp only [← List.head?_filterMap, List.filterMap_filterMap]

theorem findSome?_filterMap_eraseDups (f : α → Option β) (g : β → Option γ) (xs : List α) :
    (xs.eraseDups.filterMap f).findSome? g = (xs.filterMap f).findSome? g := by
  rw [findSome?_filterMap, findSome?_filterMap, findSome?_eraseDups]

end Deduce.Dedup

import Deduce.Proofs.Term.Occurrence
import Deduce.Proofs.Term.Variables
import Mathlib.Data.List.Basic
import Mathlib.Data.Set.Function

/-!
# Reading a term turn by turn

The reading of variables is a loop over a stack of terms (`Reading`).  Each turn takes the term on
top; if no term of its key was read before, it is read: a variable is found, and the parts of any
other term go on the stack in its place.  What was read is remembered by key only, and keys tell
the nodes of the term apart.

What was found and what the rest of the reading will find are together the same after every turn
(`Reading.Follows`), and each turn takes at least one node off the stack
(`Reading.sizeList_turn_lt`).  So the loop ends, after at most as many turns as the term has nodes,
and what it has found then is what the plain walk meets, each variable once, in the order of first
occurrence (`Reading.finds_variables_in_order`).
-/

namespace Deduce

namespace Expr

/-! ### The plain walk -/

theorem map_snd_placesList (depth : ℕ) (as : List Expr) :
    (placesList depth as).map Prod.snd = as.flatMap fun a => (a.places depth).map Prod.snd := by
  induction as with
  | nil => rfl
  | cons a as ih => rw [placesList, List.map_append, ih, List.flatMap_cons]

/-- How many binders there are around a term does not matter to its nodes. -/
theorem map_snd_places (depth : ℕ) (e : Expr) : (e.places depth).map Prod.snd = e.subterms := by
  unfold subterms
  generalize (0 : ℕ) = depth'
  induction e using Expr.induction generalizing depth depth' with
  | var | int | real | truth | bound => rfl
  | quant q bs body ih =>
    simp only [places, List.map_cons]
    rw [ih (depth + bs.length) (depth' + bs.length)]
  | app op as ih =>
    simp only [places, List.map_cons, map_snd_placesList]
    rw [List.flatMap_congr fun a ha => ih a ha depth depth']

/-- The walk meets a term first, and then its parts, one after the other. -/
theorem subterms_eq (e : Expr) : e.subterms = e :: e.parts.flatMap subterms := by
  cases e with
  | var | int | real | truth | bound => rfl
  | quant q bs body =>
    rw [parts, List.flatMap_singleton, ← map_snd_places (0 + bs.length) body]
    rfl
  | app op as =>
    rw [parts, subterms, places, List.map_cons, map_snd_placesList]
    rfl

theorem mem_subterms {a e : Expr} :
    a ∈ e.subterms ↔ a = e ∨ ∃ p ∈ e.parts, a ∈ p.subterms := by
  rw [subterms_eq, List.mem_cons, List.mem_flatMap]

theorem mem_subterms_self (e : Expr) : e ∈ e.subterms :=
  mem_subterms.2 (.inl rfl)

theorem mem_subterms_of_mem_parts {a b e : Expr} (hb : b ∈ a.parts) (ha : a ∈ e.subterms) :
    b ∈ e.subterms := by
  rcases mem_subterms.1 ha with rfl | ⟨p, hp, ha⟩
  · exact mem_subterms.2 (.inr ⟨b, hb, mem_subterms_self b⟩)
  · exact mem_subterms.2 (.inr ⟨p, hp, mem_subterms_of_mem_parts hb ha⟩)
termination_by e.size
decreasing_by exact size_lt_of_mem_parts hp

theorem occurrencesList_eq_flatMap (as : List Expr) :
    occurrencesList as = as.flatMap occurrences := by
  induction as with
  | nil => rfl
  | cons a as ih => rw [occurrencesList, ih, List.flatMap_cons]

/-- The occurrences of variables are the nodes that are variables. -/
theorem occurrences_eq_filter_subterms (e : Expr) :
    e.occurrences = e.subterms.filter isVariable := by
  induction e using Expr.induction with
  | var | int | real | truth | bound => rfl
  | quant q bs body ih =>
    rw [subterms_eq, List.filter_cons_of_neg (by simp [isVariable]), parts,
      List.flatMap_singleton, ← ih, occurrences]
  | app op as ih =>
    rw [subterms_eq, List.filter_cons_of_neg (by simp [isVariable]), parts, List.filter_flatMap,
      occurrences, occurrencesList_eq_flatMap]
    exact List.flatMap_congr fun a ha => ih a ha

end Expr

/-! ### Turns -/

open Deduce.Expr

/-- The state of the loop that reads variables. -/
structure Reading (κ : Type) where
  /-- The variables found, in order. -/
  found : List Expr
  /-- The keys of the terms that were read. -/
  visited : List κ
  /-- The terms still to be read, the next one first. -/
  stack : List Expr

namespace Reading

variable {κ : Type} {key : Expr → κ} {e : Expr} {s : Reading κ}

/-- At first the term itself is to be read. -/
def start (e : Expr) : Reading κ := ⟨[], [], [e]⟩

/-- The loop is on its way through the term `e`: the terms `read` were read, these and the terms on
the stack are nodes of `e`, and the variables found with those still to be found are the variables
of `e`. -/
structure Follows (key : Expr → κ) (e : Expr) (read : List Expr) (s : Reading κ) : Prop where
  visited : s.visited = read.map key
  read_mem : ∀ a ∈ read, a ∈ e.subterms
  stack_mem : ∀ a ∈ s.stack, a ∈ e.subterms
  found : s.found ++ collect read s.stack = e.freeVariables

theorem Follows.start (key : Expr → κ) (e : Expr) : Follows key e [] (start e) where
  visited := rfl
  read_mem := by simp
  stack_mem a ha := List.mem_singleton.1 ha ▸ mem_subterms_self e
  found := rfl

variable [DecidableEq κ]

/-- One turn of the loop; there is nothing left to do once the stack is empty. -/
def turn (key : Expr → κ) (s : Reading κ) : Reading κ :=
  match s.stack with
  | [] => s
  | e :: stack =>
    if key e ∈ s.visited then { s with stack }
    else
      { found := if e.isVariable then s.found ++ [e] else s.found
        visited := key e :: s.visited
        stack := e.parts ++ stack }

theorem sizeList_turn_lt (key : Expr → κ) (h : s.stack ≠ []) :
    sizeList (s.turn key).stack < sizeList s.stack := by
  obtain ⟨found, visited, stack⟩ := s
  cases stack with
  | nil => exact absurd rfl h
  | cons a stack =>
    rw [turn]
    dsimp only
    split
    · have := a.size_pos
      simp only [sizeList]
      omega
    · have := a.sizeList_parts_lt
      simp only [sizeList, sizeList_append]
      omega

/-- A turn for every node that is on the stack, those under binders included, empties the stack. -/
theorem stack_iterate (key : Expr → κ) {n : ℕ} (h : sizeList s.stack ≤ n) :
    ((turn key)^[n] s).stack = [] := by
  induction n generalizing s with
  | zero =>
    cases hs : s.stack with
    | nil => exact hs
    | cons a stack =>
      have := a.size_pos
      rw [hs, sizeList] at h
      omega
  | succ n ih =>
    rw [Function.iterate_succ_apply]
    refine ih ?_
    cases hs : s.stack with
    | nil => simp [turn, hs, sizeList]
    | cons a stack =>
      have := sizeList_turn_lt key (s := s) (by simp [hs])
      omega

/-- Every turn keeps to the way. -/
theorem Follows.turn {read : List Expr} (h : Follows key e read s)
    (hkey : Set.InjOn key {a | a ∈ e.subterms}) :
    ∃ read', Follows key e read' (s.turn key) := by
  obtain ⟨found, visited, stack⟩ := s
  obtain ⟨rfl, hread, hstack, hfound⟩ := h
  cases stack with
  | nil => exact ⟨read, rfl, hread, hstack, hfound⟩
  | cons a stack =>
    obtain ⟨ha, hrest⟩ := List.forall_mem_cons.1 hstack
    -- no two nodes share a key, so the key is known exactly if the term itself was read
    have hmem : key a ∈ read.map key ↔ a ∈ read := by
      refine ⟨fun h => ?_, List.mem_map_of_mem⟩
      obtain ⟨b, hb, hba⟩ := List.mem_map.1 h
      exact hkey (hread b hb) ha hba ▸ hb
    dsimp only at hfound
    rw [collect] at hfound
    rw [Reading.turn]
    dsimp only
    by_cases hvisited : a ∈ read
    · rw [if_pos (hmem.2 hvisited)]
      rw [if_pos hvisited] at hfound
      exact ⟨read, rfl, hread, hrest, hfound⟩
    · rw [if_neg (mt hmem.1 hvisited)]
      rw [if_neg hvisited] at hfound
      refine ⟨a :: read, rfl, List.forall_mem_cons.2 ⟨ha, hread⟩, fun b hb => ?_, ?_⟩
      · rcases List.mem_append.1 hb with hb | hb
        · exact mem_subterms_of_mem_parts hb ha
        · exact hrest b hb
      · -- a variable found now would otherwise be found first by the rest of the reading
        rw [← hfound]
        by_cases hvar : a.isVariable = true <;> simp [hvar]

theorem Follows.iterate (hkey : Set.InjOn key {a | a ∈ e.subterms}) (n : ℕ) :
    ∃ read, Follows key e read ((Reading.turn key)^[n] (Reading.start e)) := by
  induction n with
  | zero => exact ⟨[], .start key e⟩
  | succ n ih =>
    obtain ⟨read, h⟩ := ih
    rw [Function.iterate_succ_apply']
    exact h.turn hkey

/-- **The loop ends and finds the variables in the order of first occurrence.**  Let the keys tell
the nodes of a term apart.  After as many turns as the term has nodes, those under binders
included, no term is left to be read, and the variables found are the free variables of the term:
those of the plain walk, each where it first occurs.  The plain walk meets the nodes from the root
on, parts from left to right, and takes the variables among them. -/
theorem finds_variables_in_order (key : Expr → κ) (e : Expr)
    (hkey : Set.InjOn key {a | a ∈ e.subterms}) :
    ((turn key)^[e.size] (start e)).stack = [] ∧
    ((turn key)^[e.size] (start e)).found = e.freeVariables ∧
    e.freeVariables = e.occurrences.eraseDups ∧
    e.occurrences = e.subterms.filter isVariable := by
  have hstack : ((turn key)^[e.size] (start e)).stack = [] :=
    stack_iterate key (by simp [start, sizeList])
  obtain ⟨read, h⟩ := Follows.iterate hkey e.size
  have hfound := h.found
  rw [hstack, collect, List.append_nil] at hfound
  exact ⟨hstack, hfound, e.freeVariables_eq, e.occurrences_eq_filter_subterms⟩

/-- A comparison that comes up again under a binder, beside two equal abstractions under a binder
of their own; `y` is met before `x`.  The key of a node is its first position in the plain walk. -/
theorem finds_variables_in_order_shared :
    let x : Expr := .var "x" .int
    let y : Expr := .var "y" .int
    let f : Expr → Expr := fun a => .app (.fn "f" [.int] .int) [a]
    let shared : Expr := .app .lt [f y, x]
    let abstraction : Expr := .quant .lambda [("w", .int)]
      (.app .add [.bound 0 .int, f y, .var "z" .int, .bound 1 .int])
    let e : Expr := .app .and [shared,
      .quant .universal [("v", .int)] (.app .or [shared, .app .eq [abstraction, abstraction]])]
    let s := (turn fun a => e.subterms.idxOf a)^[e.size] (start e)
    s.stack = [] ∧ s.found = [y, x, .var "z" .int] := by
  intro x y f shared abstraction e s
  have hkey : Set.InjOn (fun a => e.subterms.idxOf a) {a | a ∈ e.subterms} :=
    fun a ha b _ h => (List.idxOf_inj ha).1 h
  obtain ⟨hstack, hfound, hdedup, -⟩ := finds_variables_in_order _ e hkey
  refine ⟨hstack, (hfound.trans hdedup).trans ?_⟩
  decide

end Reading

end Deduce

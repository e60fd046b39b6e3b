import Deduce.Catalog.Basic
import Mathlib.Data.List.Induction

/-!
# The history of a catalog

A catalog is changed by calls that enter and remove components (`Catalog.Call`), and a call to
enter one is refused if the name is taken and not to be replaced.  What is found under a name is
what was entered there last, if it was not removed since (`Catalog.Stands`); calls that were
refused do not count.  This holds at every point of every history (`find?_performAll_iff`), since
one more call changes what is found under its own name and nowhere else (`find?_perform`).  The
catalog with the canonical rules and the built-in reductions has a history as well, that of
entering these (`performAll_builtins`).
-/

namespace Deduce.Catalog

/-! ### Calls -/

/-- What changes a catalog. -/
inductive Call where
  /-- Enters a component, given as such or by decorating its definition. -/
  | register (category name : String) (x : Component) (replacing : Bool)
  /-- Removes a name. -/
  | unregister (category name : String)

/-- The category in which a call enters or removes something. -/
def Call.category : Call → String
  | .register category _ _ _ | .unregister category _ => category

/-- The name that a call enters or removes. -/
def Call.name : Call → String
  | .register _ name _ _ | .unregister _ name => name

/-- What is found under the name of a call after it was carried out. -/
def Call.leaves : Call → Option Component
  | .register _ _ x _ => some x
  | .unregister _ _ => none

/-- The catalog after a call, and what came of it. -/
def perform (c : Catalog) : Call → Catalog × Except Failure Unit
  | .register category name x replacing =>
    match c.register category name x replacing with
    | .ok c => (c, .ok ())
    | .error f => (c, .error f)
  | .unregister category name => (c.unregister category name, .ok ())

/-- The catalog after calls, one after the other. -/
def performAll (c : Catalog) (calls : List Call) : Catalog :=
  calls.foldl (fun c call => (c.perform call).1) c

/-- A call, and whether it was carried out. -/
structure Event where
  /-- The call. -/
  call : Call
  /-- Whether it was carried out, and not refused. -/
  done : Bool

/-- Calls, each with whether it was carried out. -/
def history (c : Catalog) : List Call → List Event
  | [] => []
  | call :: calls => ⟨call, (c.perform call).2.isOk⟩ :: history (c.perform call).1 calls

/-- Whether an event changed what is found under a name. -/
def Event.writes (category name : String) (event : Event) : Bool :=
  event.done && decide (category = event.call.category ∧ name = event.call.name)

theorem Event.writes_iff {category name : String} {event : Event} :
    event.writes category name = true ↔
      event.done = true ∧ category = event.call.category ∧ name = event.call.name := by
  rw [Event.writes, Bool.and_eq_true, decide_eq_true_eq]

/-- The component was entered under a name, and since then nothing was entered or removed
there. -/
def Stands (category name : String) (x : Component) (events : List Event) : Prop :=
  ∃ earlier replacing later,
    events = earlier ++ ⟨.register category name x replacing, true⟩ :: later ∧
      ∀ event ∈ later, event.writes category name = false

/-! ### Looking up -/

section Lookup

variable {c : Catalog} {category name : String}

theorem get_eq_ok_iff {x : Component} :
    c.get category name = .ok x ↔ c.find? category name = some x := by
  rw [get]
  cases c.find? category name <;> simp

theorem kind_of_get_eq_error {f : Failure} (h : c.get category name = .error f) :
    f.kind = .key := by
  unfold get at h
  split at h
  · cases h
  · exact Except.error.inj h ▸ rfl

theorem contains_iff : c.contains category name = true ↔ ∃ x, c.get category name = .ok x := by
  simp only [contains, Option.isSome_iff_exists, get_eq_ok_iff]

end Lookup

/-! ### One call -/

section Call

variable (c : Catalog) (category name category' name' : String) (x : Component)

theorem entries_insert :
    (c.insert category name x).entries category' =
      if category' = category then (c.entries category).insert name x else c.entries category' := by
  rw [entries, insert, Table.get?_insert]
  split <;> rfl

theorem entries_unregister :
    (c.unregister category name).entries category' =
      if category' = category then (c.entries category).erase name else c.entries category' := by
  unfold unregister
  cases h : c.categories.get? category with
  | none =>
    -- there is nothing to be removed
    have hempty : c.entries category = .empty := by rw [entries, h]; rfl
    dsimp only
    split
    · rename_i hc
      rw [hc, hempty]
      rfl
    · rfl
  | some t =>
    have ht : c.entries category = t := by rw [entries, h]; rfl
    rw [entries, Table.get?_insert, ht]
    split <;> rfl

theorem find?_insert :
    (c.insert category name x).find? category' name' =
      if category' = category ∧ name' = name then some x else c.find? category' name' := by
  rw [find?, entries_insert, find?]
  by_cases hc : category' = category
  · subst hc
    rw [if_pos rfl, Table.get?_insert]
    simp
  · simp [hc]

theorem find?_unregister :
    (c.unregister category name).find? category' name' =
      if category' = category ∧ name' = name then none else c.find? category' name' := by
  rw [find?, entries_unregister, find?]
  by_cases hc : category' = category
  · subst hc
    rw [if_pos rfl, Table.get?_erase]
    simp
  · simp [hc]

/-- A registration is refused if the name is taken and not to be replaced; then nothing
changes. -/
theorem perform_register (replacing : Bool) :
    c.perform (.register category name x replacing) =
      if c.contains category name = true ∧ replacing = false then
        (c, .error (.alreadyRegistered name category))
      else (c.insert category name x, .ok ()) := by
  rw [perform, register]
  cases replacing <;> cases c.contains category name <;> rfl

variable {c}

/-- A call is refused if it enters something under a name that is taken, and is not to replace
it. -/
theorem perform_refused_iff {call : Call} :
    (c.perform call).2.isOk = false ↔
      ∃ x, call = .register call.category call.name x false ∧
        c.contains call.category call.name = true := by
  cases call with
  | unregister category name => simp [perform, Except.isOk, Except.toBool]
  | register category name x replacing =>
    rw [perform_register]
    cases hcontains : c.contains category name <;> cases replacing <;>
      simp [Call.category, Call.name, Except.isOk, Except.toBool, hcontains]

theorem perform_of_refused {call : Call} {f : Failure} (h : (c.perform call).2 = .error f) :
    (c.perform call).1 = c ∧ f.kind = .key := by
  cases call with
  | unregister category name => cases h
  | register category name x replacing =>
    rw [perform_register] at h ⊢
    split at h
    · rename_i hrefused
      rw [if_pos hrefused]
      exact ⟨rfl, Except.error.inj h ▸ rfl⟩
    · cases h

variable (c) {category}

/-- A call of one category leaves the others alone. -/
theorem entries_perform_of_ne {call : Call} (h : category ≠ call.category) :
    (c.perform call).1.entries category = c.entries category := by
  cases call with
  | register category' name x replacing =>
    rw [perform_register]
    split
    · rfl
    · exact (entries_insert ..).trans (if_neg h)
  | unregister category' name => exact (entries_unregister ..).trans (if_neg h)

variable (category)

/-- A call that is carried out decides what is found under its name, and nothing else is
changed. -/
theorem find?_perform (call : Call) :
    (c.perform call).1.find? category name =
      if Event.writes category name ⟨call, (c.perform call).2.isOk⟩ then call.leaves
      else c.find? category name := by
  cases call with
  | register category' name' x replacing =>
    rw [perform_register]
    split
    · rfl
    · rw [find?_insert]
      simp only [Event.writes_iff, Call.category, Call.name, Call.leaves, Except.isOk,
        Except.toBool, true_and]
  | unregister category' name' =>
    rw [perform, find?_unregister]
    simp only [Event.writes_iff, Call.category, Call.name, Call.leaves, Except.isOk,
      Except.toBool, true_and]

end Call

/-! ### Histories -/

theorem performAll_append (c : Catalog) (calls calls' : List Call) :
    c.performAll (calls ++ calls') = (c.performAll calls).performAll calls' :=
  List.foldl_append

/-- Calls of other categories leave a category alone. -/
theorem entries_performAll_of_ne {category : String} {calls : List Call}
    (h : ∀ call ∈ calls, category ≠ call.category) (c : Catalog) :
    (c.performAll calls).entries category = c.entries category := by
  induction calls generalizing c with
  | nil => rfl
  | cons call calls ih =>
    calc ((c.perform call).1.performAll calls).entries category
      _ = (c.perform call).1.entries category :=
        ih (fun call' hcall' => h call' (List.mem_cons_of_mem _ hcall')) _
      _ = c.entries category := c.entries_perform_of_ne (h call List.mem_cons_self)

theorem history_concat (c : Catalog) (calls : List Call) (call : Call) :
    c.history (calls ++ [call]) =
      c.history calls ++ [⟨call, ((c.performAll calls).perform call).2.isOk⟩] := by
  induction calls generalizing c with
  | nil => rfl
  | cons first calls ih => exact congrArg _ (ih (c.perform first).1)

/-- What stands after one more event was just entered, or stood before and was not touched. -/
theorem stands_concat {category name : String} {x : Component} {events : List Event}
    {event : Event} :
    Stands category name x (events ++ [event]) ↔
      if event.writes category name then event.call.leaves = some x
      else Stands category name x events := by
  constructor
  · rintro ⟨earlier, replacing, later, hsplit, hlater⟩
    rcases List.eq_nil_or_concat later with rfl | ⟨later, last, hconcat⟩
    · obtain ⟨-, hevent⟩ := List.append_inj' hsplit rfl
      rw [List.singleton_inj.1 hevent]
      simp [Event.writes_iff, Call.category, Call.name, Call.leaves]
    · rw [List.concat_eq_append] at hconcat
      subst hconcat
      rw [← List.cons_append, ← List.append_assoc] at hsplit
      obtain ⟨hevents, hevent⟩ := List.append_inj' hsplit rfl
      obtain rfl := List.singleton_inj.1 hevent
      rw [hlater event (by simp), if_neg Bool.false_ne_true]
      exact ⟨earlier, replacing, later, hevents, fun e he => hlater e (by simp [he])⟩
  · intro h
    cases hwrites : event.writes category name with
    | false =>
      rw [hwrites, if_neg Bool.false_ne_true] at h
      obtain ⟨earlier, replacing, later, rfl, hlater⟩ := h
      refine ⟨earlier, replacing, later ++ [event], by simp, fun e he => ?_⟩
      rcases List.mem_append.1 he with he | he
      · exact hlater e he
      · rwa [List.mem_singleton.1 he]
    | true =>
      rw [hwrites, if_pos rfl] at h
      obtain ⟨call, done⟩ := event
      cases call with
      | unregister category' name' => cases h
      | register category' name' x' replacing =>
        obtain rfl := Option.some.inj h
        obtain ⟨rfl, rfl, rfl⟩ := Event.writes_iff.1 hwrites
        exact ⟨events, replacing, [], rfl, by simp⟩

/-- **What is found under a name** is what was entered there last, if it was not removed since. -/
theorem find?_performAll_iff {calls : List Call} {category name : String} {x : Component} :
    (performAll ⟨.empty⟩ calls).find? category name = some x ↔
      Stands category name x (history ⟨.empty⟩ calls) := by
  induction calls using List.reverseRecOn generalizing x with
  | nil =>
    have hnone : (performAll ⟨.empty⟩ []).find? category name = none := rfl
    simp [hnone, history, Stands]
  | append_singleton calls call ih =>
    rw [history_concat, stands_concat, performAll_append]
    change ((performAll _ calls).perform call).1.find? category name = some x ↔ _
    rw [find?_perform]
    split
    · exact Iff.rfl
    · exact ih

/-! ### The catalog from the start -/

/-- The calls that enter the canonical rules and the built-in reductions. -/
def builtins : List Call :=
  Canonical.all.map (fun r => .register ruleCategory r.name (.rule r.name r.run) true) ++
    Optimization.all.map fun o =>
      .register reductionCategory o.name (.reduction o.name o.toFunction) true

theorem performAll_builtins : performAll ⟨.empty⟩ builtins = initial := rfl

/-- The events that led to a catalog, from the empty one on. -/
def events (calls : List Call) : List Event := history ⟨.empty⟩ (builtins ++ calls)

theorem find?_initial_iff {calls : List Call} {category name : String} {x : Component} :
    (initial.performAll calls).find? category name = some x ↔
      Stands category name x (events calls) := by
  rw [events, ← find?_performAll_iff, performAll_append, performAll_builtins]

end Deduce.Catalog

import Deduce.Proofs.Chaining.Rounds
import Deduce.Rule.Stock
import Mathlib.Algebra.BigOperators.Ring.List
import Mathlib.Algebra.Ring.Nat

/-!
# Every application is counted

The tallies of an engine *account for* a list of applications (`Stats.Accounts`) if under every
name stands, for each outcome, the number of applications of rules of that name with that outcome;
rules may share a name.  Counting one more application keeps this so (`Stats.Accounts.record`), and
all that an engine does to its tallies is to count applications one by one, or to forget them all
(`Engine.perform_accounts`).  So after any operations, and whatever becomes of the rules in
between, the tallies account for the applications since the last reset
(`Engine.tallies_account_for_applications`).

A run of forward chaining applies every rule to every fact known at the start of a round, in every
round that takes place (`workingSets`).  The last round counts too, though it may find nothing, and
so do terms that are derived but known already.
-/

namespace Deduce

/-! ### Entries of a table -/

namespace Table

variable {κ α : Type} [DecidableEq κ]

theorem mem_iff_find?_eq_some {es : List (κ × α)} (hes : (es.map Prod.fst).Nodup) {k : κ} {a : α} :
    (k, a) ∈ es ↔ find? k es = some a := by
  induction es with
  | nil => simp [find?]
  | cons e es ih =>
    obtain ⟨k', a'⟩ := e
    rw [List.map_cons, List.nodup_cons] at hes
    rw [List.mem_cons, find?]
    split
    · rename_i hk
      subst hk
      have hlater : (k, a) ∉ es := fun h => hes.1 (List.mem_map.2 ⟨_, h, rfl⟩)
      simp [hlater, eq_comm]
    · rename_i hk
      rw [← ih hes.2]
      simp [hk]

theorem mem_entries_iff (t : Table κ α) {k : κ} {a : α} :
    (k, a) ∈ t.entries ↔ t.get? k = some a :=
  mem_iff_find?_eq_some t.nodup

/-- Writing a value takes the old one out of a sum over all values. -/
theorem sum_put (f : α → ℕ) (k : κ) (a : α) (es : List (κ × α)) :
    ((put k a es).map fun e => f e.2).sum + ((find? k es).map f).getD 0 =
      (es.map fun e => f e.2).sum + f a := by
  induction es with
  | nil => simp [put, find?]
  | cons e es ih =>
    rw [put, find?]
    split
    · simp only [List.map_cons, List.sum_cons, Option.map_some, Option.getD_some]
      omega
    · simp only [List.map_cons, List.sum_cons]
      omega

end Table

/-! ### Tallies of a list of applications -/

namespace Stats

theorem count_eq_sum (s : Stats) (o : Outcome) :
    s.count o = (s.entries.map fun e => e.2.count o).sum := by
  rw [count, Table.values, List.foldl_map, List.sum_eq_foldl, List.foldl_map]

theorem count_record (s : Stats) (rule : String) (o o' : Outcome) :
    (s.record rule o).count o' = s.count o' + if o = o' then 1 else 0 := by
  have hsum := Table.sum_put (Tally.count · o') rule ((s.tally rule).record o) s.entries
  have hold : ((Table.find? rule s.entries).map (Tally.count · o')).getD 0 =
      (s.tally rule).count o' := by
    rw [tally, Table.get?]
    cases Table.find? rule s.entries with
    | none => cases o' <;> rfl
    | some t => rfl
  rw [hold, Tally.count_record] at hsum
  rw [count_eq_sum, count_eq_sum]
  change ((Table.put rule ((s.tally rule).record o) s.entries).map _).sum = _
  omega

/-- The tallies account for a list of applications, each given by the name of the rule and the
outcome. -/
structure Accounts (s : Stats) (log : List (String × Outcome)) : Prop where
  /-- Names are listed in the order in which they were first applied. -/
  keys : s.keys = (log.map Prod.fst).eraseDups
  /-- Every outcome is counted under the name of its rule. -/
  tally : ∀ name o, (s.tally name).count o = log.count (name, o)
  /-- Every outcome is counted once. -/
  count : ∀ o, s.count o = log.countP fun a => a.2 = o

namespace Accounts

variable {s : Stats} {log : List (String × Outcome)}

theorem empty : Accounts .empty [] where
  keys := rfl
  tally _ o := by cases o <;> rfl
  count _ := rfl

theorem record (h : s.Accounts log) (rule : String) (o : Outcome) :
    (s.record rule o).Accounts (log ++ [(rule, o)]) where
  keys := by
    rw [keys_record, h.keys, List.map_append, List.map_singleton, Dedup.eraseDups_concat]
    simp only [List.mem_eraseDups]
  tally name o' := by
    rw [tally_record, List.count_append, List.count_singleton, ← h.tally]
    split
    · rename_i hname
      rw [Tally.count_record, hname]
      simp
    · rename_i hname
      simp [Ne.symm hname]
  count o' := by
    rw [count_record, List.countP_append, List.countP_singleton, ← h.count]
    simp

theorem foldl (h : s.Accounts log) {β : Type} (name : β → String) (outcome : β → Outcome)
    (as : List β) :
    (as.foldl (fun s a => s.record (name a) (outcome a)) s).Accounts
      (log ++ as.map fun a => (name a, outcome a)) := by
  induction as generalizing s log with
  | nil => simpa using h
  | cons a as ih => simpa using ih (h.record (name a) (outcome a))

/-- The tallies list as faults the names of rules that were at fault, and how often they were. -/
theorem mem_faults (h : s.Accounts log) {name : String} {k : ℕ} :
    (name, k) ∈ s.faults ↔ 0 < k ∧ k = log.count (name, .faulted) := by
  rw [← h.tally name .faulted]
  simp only [faults, List.mem_map, List.mem_filter, Prod.exists, Prod.mk.injEq]
  constructor
  · rintro ⟨name', t, ⟨hmem, hpos⟩, rfl, rfl⟩
    rw [s.mem_entries_iff] at hmem
    have ht : s.tally name' = t := by rw [Stats.tally, hmem, Option.getD_some]
    rw [ht]
    exact ⟨Nat.pos_of_ne_zero (by simpa using hpos), rfl⟩
  · rintro ⟨hpos, rfl⟩
    -- a rule that was at fault has an entry
    cases hget : s.get? name with
    | none =>
      rw [Stats.tally, hget] at hpos
      exact absurd hpos (Nat.lt_irrefl 0)
    | some t =>
      have ht : s.tally name = t := by rw [Stats.tally, hget, Option.getD_some]
      rw [ht] at hpos ⊢
      exact ⟨name, t, ⟨s.mem_entries_iff.2 hget, decide_eq_true (Nat.ne_of_gt hpos)⟩, rfl, rfl⟩

end Accounts

theorem nodup_faults (s : Stats) : (s.faults.map Prod.fst).Nodup := by
  rw [faults, List.map_map]
  exact s.nodup.sublist (List.Sublist.map _ List.filter_sublist)

/-- The outcomes counted, of all three kinds. -/
def total (s : Stats) : ℕ := s.count .derived + s.count .inapplicable + s.count .faulted

theorem Accounts.total_eq {s : Stats} {log : List (String × Outcome)} (h : s.Accounts log) :
    s.total = log.length := by
  rw [total, h.count, h.count, h.count]
  clear h
  induction log with
  | nil => rfl
  | cons a log ih =>
    obtain ⟨name, o⟩ := a
    cases o <;> simp <;> omega

end Stats

/-! ### Rounds -/

/-- The facts that the rounds of a run start with: those given, and each time those found before.
A round that finds nothing is the last. -/
def workingSets (rules : List Rule) : (bound : ℕ) → (known : List Expr) → List (List Expr)
  | 0, _ => []
  | n + 1, known =>
    known :: if newFacts rules known = [] then []
      else workingSets rules n (known ++ newFacts rules known)

theorem applications_rounds (rules : List Rule) (bound number : ℕ) (known : List Expr) :
    (rounds rules bound number known).flatMap Round.applications =
      (workingSets rules bound known).flatMap (applications rules) := by
  induction bound generalizing number known with
  | zero => rfl
  | succ bound ih =>
    rw [rounds, workingSets, List.flatMap_cons]
    split
    · rename_i hempty
      rw [if_pos (steps_run_eq_nil.1 hempty)]
      rfl
    · rename_i hfound
      rw [if_neg fun hnil => hfound (steps_run_eq_nil.2 hnil), List.flatMap_cons, facts_run, ih]
      rfl

theorem length_applications (rules : List Rule) (known : List Expr) :
    (applications rules known).length = rules.length * known.length := by
  rw [applications, List.length_flatMap]
  simp only [List.length_map, List.map_const', List.sum_replicate_nat, Nat.mul_comm]

/-! ### Operations on an engine -/

namespace Engine

/-- What can be done with an engine. -/
inductive Operation where
  | applyRule (r : Rule) (kb : List Expr) (probe : Value)
  | infer (kb : List Expr) (probe : Value)
  | saturate (kb : List Expr) (bound : Value)
  | resetStats
  /-- The engine goes on with other rules. -/
  | changeRules (rules : List Rule)

/-- The engine after an operation. -/
def perform (g : Engine) : Operation → Engine
  | .applyRule r kb probe => (g.applyRule r kb probe).1
  | .infer kb probe => (g.infer kb probe).1
  | .saturate kb bound => (g.saturate kb bound).1
  | .resetStats => g.resetStats
  | .changeRules rules => { g with rules }

/-- The applications of rules that an operation makes, by name and outcome. -/
def applied (g : Engine) : Operation → List (String × Outcome)
  | .applyRule r kb probe => [(r.name, (r.apply kb probe).outcome)]
  | .infer kb probe => g.rules.map fun r => (r.name, (r.apply kb probe).outcome)
  | .saturate kb bound =>
    match g.roundBound bound with
    | .error _ => []
    | .ok n =>
      (workingSets g.rules n.toNat kb).flatMap fun known =>
        known.flatMap fun f => g.rules.map fun r =>
          (r.name, (r.apply known (.term f)).outcome)
  | .resetStats | .changeRules _ => []

/-- The engine after operations one after the other. -/
def performAll (g : Engine) (ops : List Operation) : Engine := ops.foldl perform g

/-- The applications since the last reset: those of `log`, which were made before, and those that
the operations make. -/
def sinceReset (g : Engine) (log : List (String × Outcome)) :
    List Operation → List (String × Outcome)
  | [] => log
  | .resetStats :: ops => sinceReset g.resetStats [] ops
  | op :: ops => sinceReset (g.perform op) (log ++ g.applied op) ops

variable {g : Engine} {log : List (String × Outcome)}

theorem applications_saturation (rules : List Rule) (bound : ℕ) (kb : List Expr) :
    (Saturation.run rules bound kb).applications =
      (workingSets rules bound kb).flatMap (applications rules) :=
  applications_rounds rules bound 1 kb

theorem applied_saturate {bound : Value} {n : Int} (hn : g.roundBound bound = .ok n)
    (kb : List Expr) :
    g.applied (.saturate kb bound) =
      (Saturation.run g.rules n.toNat kb).applications.map fun a =>
        (a.rule, a.verdict.outcome) := by
  rw [applications_saturation, applied, hn, List.map_flatMap]
  simp only [applications, List.map_flatMap, List.map_map]
  rfl

/-- **An operation counts the applications that it makes.** -/
theorem perform_accounts (h : g.stats.Accounts log) (op : Operation) (hop : op ≠ .resetStats) :
    (g.perform op).stats.Accounts (log ++ g.applied op) := by
  cases op with
  | applyRule r kb probe => exact h.record r.name (r.apply kb probe).outcome
  | infer kb probe =>
    have happlied : g.applied (.infer kb probe) =
        (verdicts g.rules kb probe).map fun v => (v.1, v.2.outcome) := by
      rw [verdicts, List.map_map]
      rfl
    rw [perform, stats_infer, happlied]
    exact h.foldl Prod.fst (fun v : String × Verdict => v.2.outcome) _
  | saturate kb bound =>
    rw [perform, saturate]
    cases hn : g.roundBound bound with
    | error f => simpa [applied, hn] using h
    | ok n =>
      rw [applied_saturate hn]
      dsimp only
      rw [stats_afterSaturation]
      exact h.foldl Application.rule (fun a => a.verdict.outcome) _
  | resetStats => exact absurd rfl hop
  | changeRules rules => exact (List.append_nil log).symm ▸ h

theorem performAll_accounts (h : g.stats.Accounts log) (ops : List Operation) :
    (g.performAll ops).stats.Accounts (g.sinceReset log ops) := by
  fun_induction sinceReset g log ops with
  | case1 g log => exact h
  | case2 g log ops ih => exact ih .empty
  | case3 g log op ops hop ih => exact ih (perform_accounts h op hop)

/-! ### What each operation adds -/

theorem total_perform (h : g.stats.Accounts log) (op : Operation) (hop : op ≠ .resetStats) :
    (g.perform op).stats.total = g.stats.total + (g.applied op).length := by
  rw [(perform_accounts h op hop).total_eq, h.total_eq, List.length_append]

theorem length_applied_saturate {bound : Value} {n : Int} (hn : g.roundBound bound = .ok n)
    (kb : List Expr) :
    (g.applied (.saturate kb bound)).length =
      g.rules.length * ((workingSets g.rules n.toNat kb).map List.length).sum := by
  rw [applied_saturate hn, List.length_map, applications_saturation, List.length_flatMap]
  simp only [length_applications]
  exact List.sum_map_mul_left (workingSets g.rules n.toNat kb) List.length g.rules.length

/-- A probe is answered by one term for every rule that derives something. -/
theorem derived_applied_infer (g : Engine) (kb : List Expr) (probe : Value) :
    (g.applied (.infer kb probe)).countP (fun a => a.2 = .derived) =
      (g.infer kb probe).2.length := by
  have hfact (v : Verdict) : decide (v.outcome = .derived) = v.fact?.isSome := by
    cases v <;> rfl
  rw [applied, infer, derivations, verdicts, List.countP_map, List.filterMap_map,
    List.length_filterMap_eq_countP]
  exact congrArg (List.countP · g.rules) (funext fun r => hfact (r.apply kb probe))

/-- **The tallies account for every application.**  Take an engine that was just built, and perform
any operations, among them resets and changes of the rules.  Then under every name stands, for each
outcome, how many applications of rules of that name had it since the last reset; the counts of the
three outcomes add up to the number of applications; and the names listed as at fault are those of
rules that were.  From there, one application adds one, a probe adds one for every rule, of which
as many are derivations as there are terms in the answer, and a run of forward chaining adds one for
every rule and every fact that one of its rounds starts with. -/
theorem tallies_account_for_applications (rules : List Rule) (limit : Whole)
    (ops : List Operation) :
    let g := (Engine.new rules limit).performAll ops
    let log := (Engine.new rules limit).sinceReset [] ops
    (∀ name o, (g.stats.tally name).count o = log.count (name, o)) ∧
    g.stats.total = log.length ∧
    (∀ name k, (name, k) ∈ g.stats.faults ↔ 0 < k ∧ k = (g.stats.tally name).faulted) ∧
    (g.stats.faults.map Prod.fst).Nodup ∧
    (∀ r kb probe, (g.applyRule r kb probe).1.stats.total = g.stats.total + 1) ∧
    (∀ kb probe,
      (g.infer kb probe).1.stats.total = g.stats.total + g.rules.length ∧
      (g.infer kb probe).1.stats.count .derived =
        g.stats.count .derived + (g.infer kb probe).2.length) ∧
    ∀ kb bound n, g.roundBound bound = .ok n →
      (g.saturate kb bound).1.stats.total = g.stats.total +
        g.rules.length * ((workingSets g.rules n.toNat kb).map List.length).sum := by
  intro g log
  have h : g.stats.Accounts log := performAll_accounts .empty ops
  refine ⟨h.tally, h.total_eq, fun name k => ?_, g.stats.nodup_faults, fun r kb probe => ?_,
    fun kb probe => ⟨?_, ?_⟩, fun kb bound n hn => ?_⟩
  · rw [h.mem_faults, ← h.tally]
    rfl
  · exact total_perform h (.applyRule r kb probe) nofun
  · have hinfer := total_perform h (.infer kb probe) nofun
    rwa [applied, List.length_map] at hinfer
  · have hinfer := (perform_accounts h (.infer kb probe) nofun).count .derived
    rwa [List.countP_append, derived_applied_infer, ← h.count] at hinfer
  · have hrun := total_perform h (.saturate kb bound) nofun
    rwa [length_applied_saturate hn] at hrun

/-- Two rules share a name; one returns the probe, which is known, and the other fails.  After a
reset a run has one round, which finds nothing, and then another rule takes their place. -/
theorem tallies_account_for_applications_shared_name :
    let twins : List Rule := [.custom "twin" .probe, .custom "twin" (.failing .illSorted)]
    let kb : List Expr := [.var "p" .bool, .var "q" .bool]
    let g := (Engine.new twins (.number 3)).performAll
      [.infer kb (.term (.var "p" .bool)), .resetStats, .saturate kb (.number 5),
        .changeRules [.ofCanonical .modusPonens], .infer kb .nothing]
    (g.stats.tally "twin").count .derived = 2 ∧ ("twin", 2) ∈ g.stats.faults ∧
      g.stats.total = 5 ∧ g.roundBound (.number 4) = .ok 4 ∧
      (g.saturate kb (.number 4)).1.stats.total = 7 := by
  intro twins kb g
  obtain ⟨htally, htotal, hfaults, -, -, -, hrun⟩ :=
    tallies_account_for_applications twins (.number 3)
      [.infer kb (.term (.var "p" .bool)), .resetStats, .saturate kb (.number 5),
        .changeRules [.ofCanonical .modusPonens], .infer kb .nothing]
  have hbound : g.roundBound (.number 4) = .ok 4 := rfl
  have htotal' : g.stats.total = 5 := htotal.trans (by decide)
  refine ⟨(htally "twin" .derived).trans (by decide), (hfaults "twin" 2).2 (by decide), htotal',
    hbound, (hrun kb (.number 4) 4 hbound).trans ?_⟩
  rw [htotal']
  decide

end Engine

end Deduce

import Deduce.Proofs.Chaining.Accounting

/-!
# Forward chaining by probing

A run of forward chaining can be made by hand.  For a round, probe with every fact there is and
write down all the answers, each once; those that are facts already are left out
(`Engine.probeRound`).  Enter the others as facts and go on like this, until a round has nothing
new or the rounds that are allowed are done (`Engine.probeRounds`).  The run keeps a list of what
it knows and never writes down what is on it, so nothing is left to be taken out at the end; the
terms are the same, in the same order, and both leave an engine with the same tallies
(`Engine.saturate_iterates_infer`).
-/

namespace Deduce

/-! ### Probing by hand -/

namespace Engine

/-- Probes with terms one after the other, and lists all the answers. -/
def probeAll : Engine → (known probes : List Expr) → Engine × List Expr
  | g, _, [] => (g, [])
  | g, known, f :: fs =>
    let first := g.infer known (.term f)
    let rest := probeAll first.1 known fs
    (rest.1, first.2 ++ rest.2)

/-- A round by hand: the answers to all facts, each once, without those that are facts. -/
def probeRound (g : Engine) (known : List Expr) : Engine × List Expr :=
  let answers := g.probeAll known known
  (answers.1, answers.2.eraseDups.filter (· ∉ known))

/-- Rounds by hand: what each finds is entered before the next, up to one that finds nothing or
until the given number is done. -/
def probeRounds : Engine → (bound : ℕ) → (known : List Expr) → Engine × List Expr
  | g, 0, _ => (g, [])
  | g, n + 1, known =>
    let round := g.probeRound known
    if round.2 = [] then round
    else
      let rest := probeRounds round.1 n (known ++ round.2)
      (rest.1, round.2 ++ rest.2)

end Engine

/-! ### What is applied and counted -/

/-- The applications of all rules to one fact. -/
def probings (rules : List Rule) (known : List Expr) (f : Expr) : List Application :=
  rules.map fun r => ⟨f, r.name, r.apply known (.term f)⟩

theorem applications_eq_flatMap (rules : List Rule) (known : List Expr) :
    applications rules known = known.flatMap (probings rules known) :=
  rfl

/-- The terms that were derived by some applications. -/
def answers (as : List Application) : List Expr := as.filterMap fun a => a.verdict.fact?

theorem newFacts_eq (rules : List Rule) (known : List Expr) :
    newFacts rules known = (answers (applications rules known)).eraseDups.filter (· ∉ known) :=
  Dedup.eraseDups_filter _ _

namespace Engine

/-- The engine after some applications were counted. -/
def counted (g : Engine) (as : List Application) : Engine :=
  as.foldl (fun g a => g.record a.rule a.verdict) g

theorem counted_append (g : Engine) (as bs : List Application) :
    g.counted (as ++ bs) = (g.counted as).counted bs :=
  List.foldl_append

theorem rules_counted (g : Engine) (as : List Application) : (g.counted as).rules = g.rules := by
  rw [counted, foldl_record_eq Application.rule Application.verdict]

theorem afterSaturation_eq_counted (g : Engine) (s : Saturation) :
    g.afterSaturation s = { g.counted s.applications with steps := s.steps } :=
  rfl

theorem infer_eq_probings (g : Engine) (known : List Expr) (f : Expr) :
    g.infer known (.term f) =
      (g.counted (probings g.rules known f), answers (probings g.rules known f)) := by
  simp only [infer, derivations, verdicts, counted, probings, answers, List.foldl_map,
    List.filterMap_map]
  rfl

theorem probeAll_eq (g : Engine) (known fs : List Expr) :
    g.probeAll known fs =
      (g.counted (fs.flatMap (probings g.rules known)),
        answers (fs.flatMap (probings g.rules known))) := by
  induction fs generalizing g with
  | nil => rfl
  | cons f fs ih =>
    -- counting leaves the rules as they are, so the later terms are put to the same rules
    rw [probeAll, infer_eq_probings, ih, rules_counted, List.flatMap_cons, counted_append, answers,
      answers, answers, List.filterMap_append]

theorem probeRound_eq (g : Engine) (known : List Expr) :
    g.probeRound known = (g.counted (applications g.rules known), newFacts g.rules known) := by
  rw [probeRound, probeAll_eq, ← applications_eq_flatMap, newFacts_eq]

theorem probeRounds_eq (g : Engine) (n : ℕ) (known : List Expr) :
    g.probeRounds n known =
      (g.counted ((workingSets g.rules n known).flatMap (applications g.rules)),
        chained g.rules n known) := by
  induction n generalizing g known with
  | zero => rfl
  | succ n ih =>
    rw [probeRounds, probeRound_eq, workingSets, chained, List.flatMap_cons]
    dsimp only
    split
    · rename_i hnil
      rw [hnil, List.append_nil, chained_of_newFacts_eq_nil hnil, List.flatMap_nil, List.append_nil,
        List.append_nil]
    · rw [ih, rules_counted, counted_append]

/-! ### The run -/

/-- **Forward chaining is probing by hand.**  Whatever the rules and the facts, a run of one round
finds the answers to the facts, one fact after the other, each answer where it first occurs,
without those that are facts already.  A run under any bound finds what as many rounds by hand
find, each over the facts and all that was found before, and it leaves the engine as they do, but
for the steps, which probing does not keep. -/
theorem saturate_iterates_infer (g : Engine) (kb : List Expr) :
    (g.probeRound kb).2 =
      (kb.flatMap fun f => (g.infer kb (.term f)).2).eraseDups.filter (· ∉ kb) ∧
    (g.saturate kb (.number 1)).2.1 = .ok (g.probeRound kb).2 ∧
    ∀ bound n, g.roundBound bound = .ok n →
      (g.saturate kb bound).2.1 = .ok (g.probeRounds n.toNat kb).2 ∧
      (g.saturate kb bound).1 =
        { (g.probeRounds n.toNat kb).1 with steps := (g.saturate kb bound).1.steps } := by
  refine ⟨?_, ?_, fun bound n hn => ⟨?_, ?_⟩⟩
  · simp only [probeRound, probeAll_eq, infer_eq_probings, answers, List.filterMap_flatMap]
  · have hone := g.found_saturate_number kb 1
    rw [chained, chained, List.append_nil] at hone
    rw [probeRound_eq]
    exact hone
  · rw [probeRounds_eq]
    exact found_saturate hn kb
  · have hrun : (g.saturate kb bound).1 = g.afterSaturation (.run g.rules n.toNat kb) := by
      rw [saturate, hn]
    rw [hrun, probeRounds_eq, afterSaturation_eq_counted, applications_saturation]

/-- The rule that adds one fails for statements, and always finds something new for a number; the
bound is that of the engine. -/
theorem saturate_iterates_infer_successors :
    let g := Engine.new [.ofCanonical .modusPonens, .custom "successor" .successor] (.number 2)
    let p : Expr := .var "p" .bool
    let q : Expr := .var "q" .bool
    let x : Expr := .var "x" .int
    let kb : List Expr := [p, .app .implies [p, q], x, p]
    g.roundBound .nothing = .ok 2 ∧
      (g.probeRounds 2 kb).2 =
        [q, .app .add [x, .int 1], .app .add [.app .add [x, .int 1], .int 1]] ∧
      (g.saturate kb .nothing).2.1 = .ok (g.probeRounds 2 kb).2 ∧
      (g.saturate kb .nothing).1.stats = (g.probeRounds 2 kb).1.stats := by
  intro g p q x kb
  have hbound : g.roundBound .nothing = .ok 2 := rfl
  obtain ⟨hfound, hengine⟩ := (saturate_iterates_infer g kb).2.2 .nothing 2 hbound
  have htwo : (2 : Int).toNat = 2 := rfl
  rw [htwo] at hfound hengine
  refine ⟨hbound, by decide, hfound, ?_⟩
  rw [hengine]

end Engine

end Deduce

import Deduce.Proofs.Catalog.History
import Deduce.Proofs.Reasoner.Growth
import Deduce.Rule.Stock

/-!
# Rules by name

The catalog is a map, at every point of its history (`Deduce.Proofs.Catalog.History`), and names
of rules follow it, except for the four canonical ones: these mean the canonical rules whatever is
entered or removed under them.  Any other name gives a rule around the component that stands there,
if that can be called (`Component.function?`), and is refused if not (`resolveRule_name_iff`).

Names are looked up when they are resolved, and only then.  A command that does not give a rule by
a name that is looked up (`Command.looksUp`) does the same with every catalog (`Command.run_congr`),
so a system is not touched by what happens to the catalog after its rules were resolved; nor is the
optimizer, whose reductions are not given by name.
-/

namespace Deduce

namespace Canonical

theorem ofName?_name (t : Canonical) : ofName? t.name = some t := by
  cases t <;> rfl

theorem ofName?_eq_none {s : String} (h : ∀ t : Canonical, t.name ≠ s) : ofName? s = none :=
  List.find?_eq_none.2 fun t _ => by simpa using h t

end Canonical

/-- The function that a component is, if it can be called with facts and a probe.  A reduction takes
a node alone, so calling it in this way fails. -/
def Component.function? : Component → Option RuleFunction
  | .rule _ run => some run
  | .reduction _ _ => some fun _ _ => .error .tooManyArguments
  | .value _ => none

namespace Catalog

/-! ### Resolving a name -/

theorem ruleOf_eq_ok_iff {name : String} {x : Component} {r : Rule} :
    ruleOf name x = .ok r ↔ ∃ run, x.function? = some run ∧ r = .custom name run := by
  cases x <;> simp [ruleOf, Component.function?, eq_comm]

theorem kind_of_ruleOf_eq_error {name : String} {x : Component} {f : Failure}
    (h : ruleOf name x = .error f) : f.kind = .construction := by
  cases x with
  | value v => exact Except.error.inj h ▸ rfl
  | rule | reduction => cases h

section Names

variable (c : Catalog)

theorem resolveRule_canonical_name (t : Canonical) :
    c.resolveRule (.value (.text t.name)) = .ok (.ofCanonical t) := by
  rw [resolveRule, ruleNamed, Canonical.ofName?_name]

variable {c}

/-- Any name that is not canonical gives a rule around the component that is found there. -/
theorem resolveRule_name_iff {name : String} (h : ∀ t : Canonical, t.name ≠ name) {r : Rule} :
    c.resolveRule (.value (.text name)) = .ok r ↔
      ∃ x run, c.find? ruleCategory name = some x ∧ x.function? = some run ∧
        r = .custom name run := by
  rw [resolveRule, ruleNamed, Canonical.ofName?_eq_none h]
  cases c.find? ruleCategory name with
  | none => simp
  | some x => simp [ruleOf_eq_ok_iff]

theorem kind_of_resolveRule_eq_error {candidate : RuleCandidate} {f : Failure}
    (h : c.resolveRule candidate = .error f) : f.kind = .construction := by
  unfold resolveRule at h
  split at h
  · cases h
  · cases h
  · -- a name
    unfold ruleNamed at h
    split at h
    · cases h
    · split at h
      · exact kind_of_ruleOf_eq_error h
      · exact Except.error.inj h ▸ rfl
  · cases h
  · exact Except.error.inj h ▸ rfl

end Names

end Catalog

/-! ### Looking names up -/

/-- Whether a candidate is looked up in a catalog; canonical names are not. -/
def RuleCandidate.looksUp : RuleCandidate → Bool
  | .value (.text s) => (Canonical.ofName? s).isNone
  | _ => false

/-- Whether a source of rules has a candidate that is looked up. -/
def RuleSource.looksUp (source : RuleSource) : Bool :=
  match source.candidates with
  | .ok candidates => candidates.any RuleCandidate.looksUp
  | .error _ => false

mutual

/-- Whether a command, or one in its body, gives a rule by a name that is looked up. -/
def Command.looksUp : Command → Bool
  | .setRules source => source.looksUp
  | .addRule candidate => candidate.looksUp
  | .extraRules candidates body _ =>
    candidates.any RuleCandidate.looksUp || Command.looksUpIn body
  | .roundLimit _ body _ => Command.looksUpIn body
  | _ => false

/-- Whether a command of a body gives a rule by a name that is looked up. -/
def Command.looksUpIn : List Command → Bool
  | [] => false
  | command :: rest => command.looksUp || Command.looksUpIn rest

end

section Congr

variable (c c' : Catalog)

theorem Catalog.resolveRule_congr {candidate : RuleCandidate} (h : candidate.looksUp = false) :
    c.resolveRule candidate = c'.resolveRule candidate := by
  unfold resolveRule
  split
  · rfl
  · rfl
  · -- a name that is not looked up is canonical
    rename_i s
    obtain ⟨t, ht⟩ := Option.isSome_iff_exists.1 (Option.isNone_eq_false_iff.1 h)
    rw [ruleNamed, ruleNamed, ht]
  · rfl
  · rfl

theorem Catalog.map_resolveRule_congr {candidates : List RuleCandidate}
    (h : candidates.any RuleCandidate.looksUp = false) :
    candidates.map c.resolveRule = candidates.map c'.resolveRule :=
  List.map_congr_left fun candidate hmem =>
    c.resolveRule_congr c' (by simpa using List.any_eq_false.1 h candidate hmem)

theorem Reasoner.setRules_congr {source : RuleSource} (h : source.looksUp = false) (s : Reasoner) :
    s.setRules c source = s.setRules c' source := by
  unfold RuleSource.looksUp at h
  unfold setRules
  cases hsource : source.candidates with
  | error f => rfl
  | ok candidates =>
    rw [hsource] at h
    change c.resolveRules candidates >>= _ = c'.resolveRules candidates >>= _
    rw [Catalog.resolveRules, Catalog.resolveRules, Attempts.mapM_eq, Attempts.mapM_eq,
      c.map_resolveRule_congr c' h]

mutual

/-- **A command that looks no name up** does the same with every catalog. -/
theorem Command.run_congr (s : Reasoner) :
    ∀ command : Command, command.looksUp = false → command.run c s = command.run c' s
  | .setRules source, h => by
    rw [run, run, s.setRules_congr c c' h]
  | .addRule candidate, h => by
    rw [run, run, Reasoner.addRule, Reasoner.addRule, c.resolveRule_congr c' h]
  | .extraRules candidates body stop, h => by
    rw [looksUp, Bool.or_eq_false_iff] at h
    have hadd : s.addRules c candidates = s.addRules c' candidates := by
      rw [Reasoner.addRules_eq, Reasoner.addRules_eq, c.map_resolveRule_congr c' h.1]
    rw [run, run, hadd]
    split
    · rfl
    · rw [runBody_congr stop _ body h.2]
  | .roundLimit bound body stop, h => by
    rw [looksUp] at h
    rw [run, run]
    split
    · rfl
    · rw [runBody_congr stop _ body h]
  | .addFact _, _ | .addFacts _, _ | .state, _ | .factsAbout _, _ | .infer _, _
  | .saturate .., _ | .faults, _ | .outcomeCount _, _ | .stats, _ | .resetStats, _
  | .describe, _ | .connect _, _ | .malformed _, _ => rfl

theorem Command.runBody_congr (stop : Bool) (s : Reasoner) :
    ∀ body : List Command, looksUpIn body = false → runBody c stop s body = runBody c' stop s body
  | [], _ => rfl
  | command :: rest, h => by
    rw [looksUpIn, Bool.or_eq_false_iff] at h
    rw [runBody, runBody, run_congr s command h.1, runBody_congr stop _ rest h.2]

end

end Congr

/-! ### Catalogs with a history -/

namespace Catalog

/-- The built-in reductions are not given by name. -/
theorem resolveReductions_optimizations (c : Catalog) :
    c.resolveReductions (optimizations.map .reduction) = .ok optimizations := rfl

/-- **The catalog is a map, and names of rules follow it.**  After any calls from the start on, what
is found under a name is what was entered there last and not removed since, and a name without such
a component is a missing key.  A call is refused if it enters a name that is taken without replacing
it, and then changes nothing; calls of one category leave every other as it is.  A canonical name is
the canonical rule, any other the rule around the component that stands there, if that can be
called, and a failure of construction if not.  Later calls change nothing for commands that look no
name up, nor for the optimizer. -/
theorem names_follow_history (calls : List Call) :
    let c := initial.performAll calls
    (∀ category name,
      (∀ x, c.get category name = .ok x ↔ Stands category name x (events calls)) ∧
      (∀ f, c.get category name = .error f → f.kind = .key) ∧
      (c.contains category name = true ↔ ∃ x, c.get category name = .ok x)) ∧
    (∀ call : Call,
      ((c.perform call).2.isOk = false ↔
        ∃ x, call = .register call.category call.name x false ∧
          c.contains call.category call.name = true) ∧
      ∀ f, (c.perform call).2 = .error f → (c.perform call).1 = c ∧ f.kind = .key) ∧
    (∀ category later, (∀ call : Call, call ∈ later → category ≠ call.category) →
      (c.performAll later).entries category = c.entries category) ∧
    (∀ t : Canonical, c.resolveRule (.value (.text t.name)) = .ok (.ofCanonical t)) ∧
    (∀ name, (∀ t : Canonical, t.name ≠ name) → ∀ r,
      c.resolveRule (.value (.text name)) = .ok r ↔
        ∃ x run, Stands ruleCategory name x (events calls) ∧ x.function? = some run ∧
          r = .custom name run) ∧
    (∀ name f, c.resolveRule (.value (.text name)) = .error f → f.kind = .construction) ∧
    ∀ later,
      (∀ (command : Command) (s : Reasoner), command.looksUp = false →
        command.run (c.performAll later) s = command.run c s) ∧
      ∀ (b : Bound) (n : Node),
        ((c.performAll later).resolveReductions (optimizations.map .reduction)).map
            (reduceWithin b · n) =
          .ok (reduceWithin b optimizations n) := by
  intro c
  have hfind (category name : String) (x : Component) :
      c.find? category name = some x ↔ Stands category name x (events calls) := find?_initial_iff
  clear_value c
  refine ⟨fun category name => ⟨fun x => ?_, fun f => kind_of_get_eq_error, contains_iff⟩,
    fun call => ⟨perform_refused_iff, fun f => perform_of_refused⟩,
    fun category later hlater => entries_performAll_of_ne hlater c,
    resolveRule_canonical_name c, fun name hname r => ?_,
    fun name f => kind_of_resolveRule_eq_error,
    fun later => ⟨fun command s => Command.run_congr _ c s command, fun b n => ?_⟩⟩
  · rw [get_eq_ok_iff, hfind]
  · simp only [resolveRule_name_iff hname, hfind]
  · rw [resolveReductions_optimizations]
    rfl

/-- A canonical name is replaced and removed, another is entered twice, and a number is entered as a
rule. -/
def sampleCalls : List Call := [
  .register ruleCategory "symmetry" (.rule "rule" .silent) true,
  .unregister ruleCategory "symmetry",
  .register ruleCategory "echo" (.rule "rule" .probe) false,
  .register ruleCategory "echo" (.rule "rule" .silent) false,
  .register ruleCategory "five" (.value (.number 5)) false]

theorem names_follow_history_sample :
    let c := initial.performAll sampleCalls
    let later : List Call := [.unregister reductionCategory "cancel_double_negation"]
    let s : Reasoner := ⟨"demo", "", .empty, .empty, .new [.custom "echo" .probe] (.number 3)⟩
    let five := Failure.ruleNotCallable "five" "int"
    Stands ruleCategory "echo" (.rule "rule" .probe) (events sampleCalls) ∧
      (c.perform (.register ruleCategory "echo" (.rule "rule" .silent) false)).1 = c ∧
      (c.performAll later).entries ruleCategory = c.entries ruleCategory ∧
      c.resolveRule (.value (.text "symmetry")) = .ok (.ofCanonical .symmetry) ∧
      c.resolveRule (.value (.text "echo")) = .ok (.custom "echo" .probe) ∧
      (c.resolveRule (.value (.text "five")) = .error five ∧ five.kind = .construction) ∧
      (Command.infer (.text "x")).run (c.performAll later) s =
        (Command.infer (.text "x")).run c s := by
  have hecho : (initial.performAll sampleCalls).get ruleCategory "echo" =
      .ok (.rule "rule" .probe) := rfl
  have htaken : ((initial.performAll sampleCalls).perform
      (.register ruleCategory "echo" (.rule "rule" .silent) false)).2 =
        .error (.alreadyRegistered "echo" ruleCategory) := rfl
  have hfive : (initial.performAll sampleCalls).resolveRule (.value (.text "five")) =
      .error (.ruleNotCallable "five" "int") := rfl
  have hcustom (t : Canonical) : t.name ≠ "echo" := by cases t <;> decide
  obtain ⟨hget, hperform, hcategories, hcanonical, hname, hfailure, hlater⟩ :=
    names_follow_history sampleCalls
  intro c later s five
  have hstands := ((hget _ _).1 _).1 hecho
  exact ⟨hstands, ((hperform _).2 _ htaken).1, hcategories _ later (by decide),
    hcanonical .symmetry, (hname "echo" hcustom _).2 ⟨_, _, hstands, rfl, rfl⟩,
    ⟨hfive, hfailure "five" _ hfive⟩, (hlater later).1 _ s rfl⟩

end Catalog

end Deduce
